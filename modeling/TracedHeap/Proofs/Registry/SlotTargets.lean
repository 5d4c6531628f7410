import TracedHeap.Proofs.Registry.Permanence

/-! # Slots suit their targets

A slot is checked against its target when it is created, at which time all but the header of
the target may be unwritten.  What was checked stays true whatever becomes of the target.

1. **Runs** whose code has its slots and descriptors from the registry (`Point.Crafted`),
   with all slots that were created.
2. **Invariant**: what is stored was created, and what was created suits its target
   (`Point.Fitted`).

The main statement is `slots_suit_their_targets`.
-/

namespace TracedHeap

variable {n : Nat} {κ : Type} {calls : κ → Call n κ}

namespace Point

/-! ## Runs -/

/-- The descriptor that the step that follows on a point creates a slot for. -/
def asked : Point n κ → List DescriptorRef
  | .running (.slot target _ _ _) _ _ => target.toList
  | _ => []

/-- A run whose code refers to descriptors that were allocated, and hands over slots that were
created.  The list is that of all slots so far; two are there from the start. -/
inductive Crafted (calls : κ → Call n κ) : List Slot → Point n κ → Prop where
  | start : Crafted calls [.empty, Descriptor.sentinel.array] start
  | move {made : List Slot} {p q : Point n κ} (h : Crafted calls made p)
      (hasked : ∀ d ∈ p.asked, p.session.store.InBounds d)
      (hoffered : ∀ slot ∈ p.offered, slot ∈ made) (hmove : Move calls p q) :
      Crafted calls (p.created ++ made) q

theorem Crafted.run {made : List Slot} {p : Point n κ} (h : Crafted calls made p) :
    ∃ built, Run calls Point.start built p := by
  induction h with
  | start => exact ⟨[], .refl⟩
  | move _ _ _ hmove ih =>
    obtain ⟨built, hrun⟩ := ih
    exact ⟨_, hrun.tail hmove⟩

end Point

/-! ## The invariant -/

/-- All slots that are stored in a descriptor are among some others. -/
def Descriptor.SlotsIn (made : List Slot) (d : Descriptor) : Prop :=
  d.array ∈ made ∧ ∀ slot ∈ d.slots, slot ∈ made

theorem Descriptor.SlotsIn.mono {made made' : List Slot} {d : Descriptor} (h : d.SlotsIn made)
    (hmade : made ⊆ made') : d.SlotsIn made' :=
  ⟨hmade h.1, fun slot hslot => hmade (h.2 slot hslot)⟩

/-- A composition stores slots of before and slots of the blueprint. -/
theorem Descriptor.SlotsIn.compose {made : List Slot} {d : Descriptor} (h : d.SlotsIn made)
    (address : Nat) {b : Blueprint} (hb : ∀ slot ∈ b.array :: b.source.slots, slot ∈ made) :
    (d.compose address b).2.SlotsIn made := by
  rcases d.compose_memory address b with hsame | ⟨slots, _, _, hwritten, hslots⟩
  · rw [hsame]
    exact h
  · rw [hwritten]
    refine ⟨hb _ List.mem_cons_self, fun slot hslot => ?_⟩
    rcases hslots slot hslot with hold | hnew
    · exact h.2 slot hold
    · exact hb slot (List.mem_cons_of_mem _ hnew)

namespace Point

/-- What is stored was created, and what was created suits its target. -/
structure Fitted (made : List Slot) (p : Point n κ) : Prop where
  blank : .empty ∈ made
  stored : ∀ d, (p.session.store.get d).SlotsIn made
  allocated : ∀ slot ∈ made, p.session.store.InBounds slot.descriptor
  suits : ∀ slot ∈ made, slot.Suits p.session.store

theorem fitted_start : Fitted [.empty, Descriptor.sentinel.array] (start : Point n κ) := by
  have hvalue : ∀ slot ∈ [Slot.empty, Descriptor.sentinel.array], slot.discipline ≠ .value := by
    decide
  have hdescriptor : ∀ slot ∈ [Slot.empty, Descriptor.sentinel.array],
      slot.descriptor = .boxed := by
    decide
  refine ⟨List.mem_cons_self, fun d => ?_, ?_, fun slot hslot => ?_⟩
  · show (Store.initial.get d).SlotsIn _
    rw [Store.get_initial]
    exact ⟨List.mem_cons_of_mem _ List.mem_cons_self, fun slot hslot => nomatch hslot⟩
  · intro slot hslot
    rw [hdescriptor slot hslot]
    exact (apart_start (n := n) (κ := κ)).sentinel
  · exact Slot.suits_of_ne_value (hvalue slot hslot) _

/-- A slot that is created suits its target. -/
theorem suits_of_created {p : Point n κ} (hboxed : p.session.store.InBounds .boxed)
    (hasked : ∀ d ∈ p.asked, p.session.store.InBounds d) {slot : Slot} (h : slot ∈ p.created) :
    p.session.store.InBounds slot.descriptor ∧ slot.Suits p.session.store := by
  cases p with
  | failing fault callers s => cases h
  | running client callers s =>
    cases client with
    | slot target discipline offset next =>
      simp only [created] at h
      rcases Slot.make_cases s.store target discipline offset with
        ⟨hsuits, hmade⟩ | ⟨_, hrefused⟩
      · rw [hmade, List.mem_singleton] at h
        rw [h]
        refine ⟨?_, hsuits.boxed, hsuits.array⟩
        show s.store.InBounds (target.getD .boxed)
        cases target with
        | none => exact hboxed
        | some d => exact hasked d List.mem_cons_self
      · rw [hrefused] at h
        cases h
    | _ => cases h

/-- What a step stores is what it was given, or was there. -/
theorem Writes.slotsIn {p : Point n κ} {store : Store} {made : List Slot} (h : p.Writes store)
    (hblank : .empty ∈ made) (hstored : ∀ d, (p.session.store.get d).SlotsIn made)
    (hoffered : ∀ slot ∈ p.offered, slot ∈ made) (d : DescriptorRef) :
    (store.get d).SlotsIn made := by
  have hempty : ∀ {memory : Descriptor}, memory.array = .empty → memory.slots = [] →
      memory.SlotsIn made := by
    intro memory harray hslots
    refine ⟨by rwa [harray], fun slot hslot => ?_⟩
    rw [hslots] at hslot
    cases hslot
  cases h with
  | nothing => exact hstored d
  | reserved _ request => exact Store.forall_get_allocate hstored (hempty rfl rfl) d
  | constructed address =>
    exact Store.forall_get_allocate hstored ((hempty rfl rfl).compose address hoffered) d
  | @written _ call e _ _ parts s =>
    have hwritten := (hstored e).compose 0 (b := call.request.blueprint parts) hoffered
    exact Store.forall_get_set hstored hwritten d
  | @poisoned _ _ _ e _ _ s =>
    have hpoisoned : (s.store.get e).poison.SlotsIn made := ⟨hblank, (hstored e).2⟩
    exact Store.forall_get_set hstored hpoisoned d

theorem Fitted.move {made : List Slot} {p q : Point n κ} (h : Fitted made p)
    (hp : p.ledger.Tracks p.registrations) (hboxed : p.session.store.InBounds .boxed)
    (hasked : ∀ d ∈ p.asked, p.session.store.InBounds d)
    (hoffered : ∀ slot ∈ p.offered, slot ∈ made) (hmove : Move calls p q) :
    Fitted (p.created ++ made) q := by
  have hpersists := hmove.persists hp
  have hall : ∀ slot ∈ p.created ++ made,
      p.session.store.InBounds slot.descriptor ∧ slot.Suits p.session.store := by
    intro slot hslot
    rcases List.mem_append.1 hslot with hnew | hold
    · exact suits_of_created hboxed hasked hnew
    · exact ⟨h.allocated slot hold, h.suits slot hold⟩
  constructor
  case blank => exact List.mem_append_right _ h.blank
  case stored =>
    intro d
    exact (hmove.writes.slotsIn h.blank h.stored hoffered d).mono (List.subset_append_right _ _)
  case allocated => exact fun slot hslot => hpersists.inBounds _ (hall slot hslot).1
  case suits =>
    intro slot hslot
    obtain ⟨hbounds, hsuits⟩ := hall slot hslot
    exact hsuits.of_header (hpersists.follows _ hbounds).hasArray

theorem Crafted.fitted {made : List Slot} {p : Point n κ} (h : Crafted calls made p) :
    Fitted made p := by
  induction h with
  | start => exact fitted_start
  | move h hasked hoffered hmove ih =>
    obtain ⟨built, hrun⟩ := h.run
    exact ih.move (hrun.tracks tracks_start) (hrun.apart apart_start).sentinel hasked hoffered hmove

/-- Slots suit their targets.  Take any run whose code refers to descriptors that were
allocated, and hands over slots that were created: any number of outermost requests over any
graph of types, with faults at any depth, survived anywhere, and with constructions at
run-time.

* Each slot that was ever created suits its target, at that point and at any later one, and
  whatever is stored as the array slot or a slot of any descriptor was created.
* A slot is created exactly if it suits its target.  The verdict on a descriptor that was
  allocated is the same at any later point, whatever has become of its registration. -/
theorem slots_suit_their_targets {made : List Slot} {p : Point n κ} (h : Crafted calls made p) :
    (∀ slot ∈ made, slot.Suits p.session.store) ∧
    (∀ d, (p.session.store.get d).array ∈ made ∧
      ∀ slot ∈ (p.session.store.get d).slots, slot ∈ made) ∧
    (∀ slot ∈ made, ∀ later q, Run calls p later q → slot.Suits q.session.store) ∧
    (∀ target discipline offset,
      (∃ fault, Slot.make p.session.store target discipline offset = .error fault) ↔
        ¬ (⟨target, discipline, offset⟩ : Slot).Suits p.session.store) ∧
    (∀ target discipline offset slot,
      Slot.make p.session.store target discipline offset = .ok slot →
        slot = ⟨some (target.getD .boxed), discipline, offset⟩) ∧
    ∀ target, (∀ d, target = some d → p.session.store.InBounds d) →
      ∀ later q, Run calls p later q → ∀ discipline offset,
        Slot.make q.session.store target discipline offset =
          Slot.make p.session.store target discipline offset := by
  obtain ⟨built, hrun⟩ := h.run
  have hp := hrun.tracks tracks_start
  have hboxed := (hrun.apart apart_start).sentinel
  have hfitted := h.fitted
  refine ⟨hfitted.suits, hfitted.stored, ?_, ?_, ?_, ?_⟩
  · intro slot hslot later q hq
    have hfollows := (hq.persists hp).follows _ (hfitted.allocated slot hslot)
    exact (hfitted.suits slot hslot).of_header hfollows.hasArray
  · intro target discipline offset
    rcases Slot.make_cases p.session.store target discipline offset with
      ⟨hsuits, hmade⟩ | ⟨hunfit, hrefused⟩
    · rw [hmade]
      exact ⟨fun ⟨_, hno⟩ => (nomatch hno), fun hno => absurd hsuits hno⟩
    · exact ⟨fun _ => hunfit, fun _ => ⟨_, hrefused⟩⟩
  · intro target discipline offset slot hslot
    rcases Slot.make_cases p.session.store target discipline offset with
      ⟨_, hmade⟩ | ⟨_, hrefused⟩
    · rw [hmade] at hslot
      exact (Except.ok.inj hslot).symm
    · rw [hrefused] at hslot
      cases hslot
  · intro target htarget later q hq discipline offset
    have hbounds : p.session.store.InBounds (target.getD .boxed) := by
      cases target with
      | none => exact hboxed
      | some d => exact htarget d rfl
    exact Slot.make_congr ((hq.persists hp).follows _ hbounds).hasArray discipline offset

/-- A type that finds itself while it is being built, stores objects of itself by value in
another descriptor, and then fails. -/
def ruined (type : Fin 1) : Call 1 (Fin 1) :=
  ⟨type, ⟨8, false, 1⟩, .lookup type embedding⟩
where
  embedding (found : Except Fault DescriptorRef) : Client 1 (Fin 1) Parts :=
    .slot found.toOption .value 0 fun made =>
      .construct (.memory 0) ⟨8, false, .empty, .ofList made.toOption.toList⟩ fun _ =>
        .fail (.raised "ruined")

/-- The slot suits its target, and would be created again, once that has been given up. -/
theorem slot_outlasts_its_target :
    ∃ (made : List Slot) (p q : Point 1 (Fin 1)) (later : List (Fin 1)) (slot : Slot),
      Crafted ruined made p ∧ Run ruined p later q ∧ slot ∈ made ∧
      slot.discipline = .value ∧ slot.descriptor = ⟨1⟩ ∧
      (p.session.cells.get 0).phase = .registering ∧
      (q.session.store.get ⟨1⟩).poisoned = true ∧
      slot ∈ (q.session.store.get ⟨2⟩).slots ∧ slot.Suits q.session.store ∧
      Slot.make q.session.store (some ⟨1⟩) .value 0 = .ok slot := by
  have hrest {made : List Slot} {p : Point 1 (Fin 1)} (_ : Crafted ruined made p) :
      Run ruined p [] p := .refl
  have harrived := (Crafted.start : Crafted ruined _ _).move nofun nofun (.request (ruined 0) rfl)
  have hfound := (harrived.move nofun nofun (.step rfl)).move nofun nofun (.step rfl)
  have hcreated := hfound.move
    (fun d hd => by rw [List.mem_singleton.1 hd]; exact Nat.one_lt_two) nofun (.step rfl)
  -- the construction, the fault, and the end of the registration
  have hruined := (((hrest hcreated).tail (.step rfl)).tail (.step rfl)).tail (.step rfl)
  obtain ⟨-, -, hsuits, -, -, hverdict⟩ := slots_suit_their_targets hcreated
  refine ⟨_, _, _, _, ⟨some ⟨1⟩, .value, 0⟩, hcreated, hruined, List.mem_cons_self, rfl, rfl,
    by rfl, by rfl, by decide, hsuits _ List.mem_cons_self _ _ hruined, ?_⟩
  rw [hverdict _ _ _ _ hruined]
  · rfl
  · rintro d ⟨⟩
    exact Nat.lt_succ_self 1

end Point

end TracedHeap
