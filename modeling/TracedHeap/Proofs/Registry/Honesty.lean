import Mathlib.Data.Set.Insert
import TracedHeap.Proofs.Registry.Memory
import TracedHeap.Registry.Declaration

/-! # Honest clients

An honest client refers to descriptors only as it came to know them: as the sentinel,
from its surroundings, as an answer of the registry, as a descriptor that it constructed,
or by following a descriptor that is initialized.

1. **Honesty**: a condition on the tree of a client, for all answers that it may get.
   It is a weakest precondition: what is demanded of the result is a parameter.
2. **Composition**: honesty of one client after another.
3. **Declarations**: the build functions of declared types are honest.
-/

namespace TracedHeap

variable {n : Nat} {κ α β τ : Type}

/-- The descriptors that the result of a build function leads to. -/
def Parts.targets (parts : Parts) : List DescriptorRef :=
  parts.array.descriptor :: parts.source.slots.map Slot.descriptor

/-- A blueprint leads where its parts do. -/
theorem Request.targets_blueprint (r : Request) (parts : Parts) :
    (r.blueprint parts).targets = parts.targets := rfl

/-- All that parts lead to is known. -/
def Parts.Fit (known : Set DescriptorRef) (parts : Parts) : Prop :=
  ∀ t ∈ parts.targets, t ∈ known

theorem Slot.make_descriptor {store : Store} {target : Option DescriptorRef}
    {discipline : Discipline} {offset : Nat} {slot : Slot}
    (h : Slot.make store target discipline offset = .ok slot) :
    slot.descriptor = target.getD .boxed := by
  simp only [Slot.make] at h
  split at h
  · cases h
  · split at h
    · cases h
    · cases h
      rfl

namespace Client

/-- A client that knows some descriptors is honest.  Before it makes a call, it must know
what the code behind the call knows from its surroundings (`knows`).  What is demanded
of its result may depend on what it knows in the end (`fit`). -/
def Honest (knows : κ → Set DescriptorRef) (fit : Set DescriptorRef → α → Prop) :
    Client n κ α → Set DescriptorRef → Prop
  | .done a, known => fit known a
  | .fail _, _ => True
  | .log _ next, known => next.Honest knows fit known
  | .note _ next, known => next.Honest knows fit known
  | .read _ next, known =>
    ∀ memory : Descriptor, (next memory).Honest knows fit
      (known ∪ {t | memory.initialized = true ∧ t ∈ memory.targets})
  | .phase _ next, known => ∀ phase, (next phase).Honest knows fit known
  | .slot target _ _ next, known =>
    ∀ made : Except Fault Slot, (∀ slot, made = .ok slot → slot.descriptor = target.getD .boxed) →
      (next made).Honest knows fit known
  | .construct _ blueprint next, known =>
    (∀ t ∈ blueprint.targets, t ∈ known) ∧
      ∀ made, (next made).Honest knows fit (known ∪ {t | made = .ok (some t)})
  | .lookup key next, known =>
    knows key ⊆ known ∧ ∀ found, (next found).Honest knows fit (known ∪ {t | found = .ok t})

variable {knows : κ → Set DescriptorRef} {known : Set DescriptorRef}

/-! ## Composition -/

/-- A client may go on with what the first one was demanded to know. -/
theorem Honest.bind {x : Client n κ α} {f : α → Client n κ β}
    {fit : Set DescriptorRef → α → Prop} {fit' : Set DescriptorRef → β → Prop}
    (hx : x.Honest knows fit known)
    (hf : ∀ known' a, fit known' a → (f a).Honest knows fit' known') :
    (x >>= f).Honest knows fit' known := by
  show (x.bind f).Honest knows fit' known
  -- one case for each node, which asks the same of what follows in both runs
  induction x generalizing known with
  | done a => exact hf known a hx
  | fail fault => exact trivial
  | log line next ih => exact ih hx
  | note event next ih => exact ih hx
  | read d next ih => exact fun memory => ih memory (hx memory)
  | phase cell next ih => exact fun phase => ih phase (hx phase)
  | slot target discipline offset next ih => exact fun made hmade => ih made (hx made hmade)
  | construct placement blueprint next ih => exact ⟨hx.1, fun made => ih made (hx.2 made)⟩
  | lookup key next ih => exact ⟨hx.1, fun found => ih found (hx.2 found)⟩

/-- The answer to a question for a type is known from then on. -/
theorem honest_get {key : κ} (hkey : knows key ⊆ known) :
    (Client.get key : Client n κ DescriptorRef).Honest knows
      (fun known' d => known ⊆ known' ∧ d ∈ known') known := by
  refine ⟨hkey, ?_⟩
  intro found
  cases found with
  | error fault => exact trivial
  | ok d => exact ⟨Set.subset_union_left, Set.mem_union_right _ rfl⟩

theorem honest_makeSlot {base : Set DescriptorRef} (hbase : base ⊆ known)
    {target : Option DescriptorRef} (htarget : target.getD .boxed ∈ known)
    (discipline : Discipline) (offset : Nat) :
    (makeSlot target discipline offset : Client n κ Slot).Honest knows
      (fun known' slot => base ⊆ known' ∧ slot.descriptor ∈ known') known := by
  intro made hmade
  cases made with
  | error fault => exact trivial
  | ok slot =>
    refine ⟨hbase, ?_⟩
    rw [hmade slot rfl]
    exact htarget

/-- Whatever a client is answered, it does not end with a fault. -/
def NeverFails : Client n κ α → Prop
  | .done _ => True
  | .fail _ => False
  | .log _ next => next.NeverFails
  | .note _ next => next.NeverFails
  | .read _ next => ∀ memory, (next memory).NeverFails
  | .phase _ next => ∀ phase, (next phase).NeverFails
  | .slot _ _ _ next => ∀ made, (next made).NeverFails
  | .construct _ _ next => ∀ made, (next made).NeverFails
  | .lookup _ next => ∀ found, (next found).NeverFails

end Client

/-! ## Declarations -/

section Declarations

variable {knows : κ → Set DescriptorRef} {known : Set DescriptorRef}
  {find : τ → Client n κ DescriptorRef}

/-- The ways in which a type can be found are honest, whatever else is known. -/
def HonestFind (knows : κ → Set DescriptorRef) (find : τ → Client n κ DescriptorRef) : Prop :=
  ∀ t known, .boxed ∈ known →
    (find t).Honest knows (fun known' d => known ⊆ known' ∧ d ∈ known') known

theorem Member.honest_slot (hfind : HonestFind knows find) (hboxed : .boxed ∈ known)
    (m : Member τ) :
    (m.slot find).Honest knows (fun known' slot => known ⊆ known' ∧ slot.descriptor ∈ known')
      known := by
  have htarget : (m.target.find find).Honest knows
      (fun known' d => known ⊆ known' ∧ d ∈ known') known := by
    cases m.target with
    | boxed => exact ⟨Set.Subset.refl _, hboxed⟩
    | type t => exact hfind t known hboxed
  apply htarget.bind
  intro known' d hd
  have hgiven : (some d).getD .boxed ∈ known' := hd.2
  exact Client.honest_makeSlot hd.1 hgiven m.discipline m.offset

theorem Member.honest_slots (hfind : HonestFind knows find) (hboxed : .boxed ∈ known)
    (members : List (Member τ)) :
    (Member.slots find members).Honest knows
      (fun known' slots => known ⊆ known' ∧ ∀ slot ∈ slots, slot.descriptor ∈ known') known := by
  induction members generalizing known with
  | nil => exact ⟨Set.Subset.refl _, fun _ h => nomatch h⟩
  | cons m rest ih =>
    apply (m.honest_slot hfind hboxed).bind
    intro known' slot hslot
    apply (ih (hslot.1 hboxed)).bind
    intro known'' slots hslots
    exact ⟨hslot.1.trans hslots.1, List.forall_mem_cons.2 ⟨hslots.1 hslot.2, hslots.2⟩⟩

/-- The build function of a declared type knows all that its parts lead to. -/
theorem Declaration.honest_build (hfind : HonestFind knows find) (hboxed : .boxed ∈ known)
    (declaration : Declaration τ) :
    (declaration.build find).Honest knows Parts.Fit known := by
  -- once the array slot is there, the other slots follow
  have hrest : ∀ known' (array : Slot), known ⊆ known' ∧ array.descriptor ∈ known' →
      (Member.slots find declaration.members >>= fun slots =>
        (pure ⟨array, .ofList slots⟩ : Client n κ Parts)).Honest knows Parts.Fit known' := by
    intro known' array harray
    apply (Member.honest_slots hfind (harray.1 hboxed) _).bind
    intro known'' slots hslots
    refine List.forall_mem_cons.2 ⟨hslots.1 harray.2, ?_⟩
    intro t ht
    obtain ⟨slot, hmem, rfl⟩ := List.mem_map.1 ht
    exact hslots.2 slot hmem
  unfold Declaration.build
  cases declaration.array with
  | none => exact hrest known .empty ⟨Set.Subset.refl _, hboxed⟩
  | some m => exact (m.honest_slot hfind hboxed).bind hrest

end Declarations

end TracedHeap
