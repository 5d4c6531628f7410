import TracedHeap.Proofs.Registry.Descriptions

/-! # What is written, and what stays

Descriptors are handed out before they are finished, and are written again while others hold
them.  This module says once what a step can write, and what stays as it is whatever is
written.

1. **Slots** that a step creates, and those that it is given to store.
2. **Writes**: all that one step can do to the memory of descriptors (`Point.Writes`).
3. **Descriptors** written again: the header stays, and what is finished or given up stays
   altogether (`Descriptor.Follows`).
4. **Stores**: what holds of all descriptors, and of each that is written.
5. **Persistence** over a whole run (`Ledger.Persists`): memory, published addresses, and
   the memory that no type has.
6. **Flags**: no descriptor is both finished and given up.
-/

namespace TracedHeap

variable {n : Nat} {κ β : Type} {calls : κ → Call n κ}

namespace Point

/-! ## Slots -/

/-- The slot that is created by the step that follows on a point. -/
def created : Point n κ → List Slot
  | .running (.slot target discipline offset _) _ s =>
    match Slot.make s.store target discipline offset with
    | .ok slot => [slot]
    | .error _ => []
  | _ => []

/-- The slots that are handed over to be stored by the step that follows on a point. -/
def offered : Point n κ → List Slot
  | .running (.construct _ blueprint _) _ _ => blueprint.array :: blueprint.source.slots
  | .running (.done parts) (.building _ _ _ _) _ => parts.array :: parts.source.slots
  | _ => []

/-! ## Writes -/

/-- What the step that follows on a point can make of the store. -/
inductive Writes : Point n κ → Store → Prop where
  | nothing (p : Point n κ) : Writes p p.session.store
  /-- A registration reserves memory. -/
  | reserved (p : Point n κ) (request : Request) :
      Writes p (p.session.store.allocate request.header)
  /-- A descriptor is constructed at run-time, well or badly. -/
  | constructed {β : Type} {placement : Placement} {blueprint : Blueprint}
      {next : Except Fault (Option DescriptorRef) → Client n κ β} {callers : Callers n κ β}
      {s : Session n κ} (address : Nat) :
      Writes (.running (.construct placement blueprint next) callers s)
        (s.store.allocate
          ((Descriptor.blank blueprint.source.reported).compose address blueprint).2)
  /-- The latest registration writes its descriptor, well or badly. -/
  | written {β : Type} {call : Call n κ} {d : DescriptorRef}
      {resume : Except Fault DescriptorRef → Client n κ β} {rest : Callers n κ β}
      {parts : Parts} {s : Session n κ} :
      Writes (.running (.done parts) (.building call d resume rest) s)
        (s.store.set d ((s.store.get d).compose 0 (call.request.blueprint parts)).2)
  /-- The latest registration is given up. -/
  | poisoned {β : Type} {fault : Fault} {call : Call n κ} {d : DescriptorRef}
      {resume : Except Fault DescriptorRef → Client n κ β} {rest : Callers n κ β}
      {s : Session n κ} :
      Writes (.failing fault (.building call d resume rest) s)
        (s.store.set d (s.store.get d).poison)

section Steps

variable {call : Call n κ} {resume : Except Fault DescriptorRef → Client n κ β}
  {callers : Callers n κ β} {s : Session n κ}

theorem store_logOutcome {α : Type} (s : Session n κ) (outcome : Except Fault α) :
    (s.logOutcome outcome).store = s.store := by
  cases outcome <;> rfl

theorem store_arrive : (arrive call resume callers s).session.store = s.store := by
  unfold arrive announced
  split
  · rfl
  · rfl
  · split <;> rfl

theorem proceed_writes {p : Point n κ} (hp : p.session.store = s.store) :
    p.Writes (proceed call resume callers s).session.store := by
  unfold proceed
  cases Descriptor.layout? call.request.slotCount with
  | none =>
    show p.Writes s.store
    rw [← hp]
    exact .nothing p
  | some layout =>
    show p.Writes (s.store.allocate call.request.header)
    rw [← hp]
    exact .reserved p call.request

theorem store_returned (d : DescriptorRef) (parts : Parts) :
    (returned call d parts resume callers s).session.store = s.store ∨
      (returned call d parts resume callers s).session.store =
        s.store.set d ((s.store.get d).compose 0 (call.request.blueprint parts)).2 := by
  unfold returned
  split
  · right
    rcases (s.store.get d).compose 0 (call.request.blueprint parts) with ⟨fault | _, memory⟩ <;> rfl
  · exact Or.inl rfl

theorem store_construct (placement : Placement) (blueprint : Blueprint) :
    (s.construct placement blueprint).2.store = s.store ∨
      ∃ address, (s.construct placement blueprint).2.store = s.store.allocate
        ((Descriptor.blank blueprint.source.reported).compose address blueprint).2 := by
  have hstore : (s.construct placement blueprint).2.store =
      (s.store.construct placement blueprint).store := by
    simp only [Session.construct, store_logOutcome]
  rw [hstore]
  cases placement with
  | memory address => exact Or.inr ⟨address, rfl⟩
  | collected =>
    unfold Store.construct
    cases Descriptor.layout? blueprint.source.reported with
    | none => exact Or.inl rfl
    | some layout => exact Or.inr ⟨0, rfl⟩

end Steps

/-- A step writes one of these things. -/
theorem next_writes {p q : Point n κ} (h : p.next calls = some q) :
    p.Writes q.session.store := by
  cases p with
  | failing fault callers s =>
    cases callers with
    | outermost => cases h
    | announcing call resume rest =>
      cases h
      exact .nothing _
    | building call d resume rest =>
      cases h
      exact .poisoned
  | running client callers s =>
    cases client with
    | done a =>
      cases callers with
      | outermost => cases h
      | announcing call resume rest =>
        cases h
        exact proceed_writes rfl
      | building call d resume rest =>
        cases h
        have hreturned : (returned call d a resume rest s).session.store = s.store ∨ _ :=
          store_returned d a
        rcases hreturned with hstore | hstore
        · rw [hstore]
          exact .nothing _
        · rw [hstore]
          exact .written
    | fail fault =>
      cases callers with
      | outermost =>
        cases h
        exact .nothing _
      | announcing call resume rest =>
        cases h
        exact proceed_writes rfl
      | building call d resume rest =>
        cases h
        exact .nothing _
    | log line next | note event next | read d next | phase cell next =>
      cases h
      exact .nothing _
    | slot target discipline offset next =>
      cases h
      show Writes _ (s.logOutcome _).store
      rw [store_logOutcome]
      exact .nothing _
    | construct placement blueprint next =>
      cases h
      rcases store_construct (s := s) placement blueprint with hstore | ⟨address, hstore⟩
      · show Writes _ (s.construct placement blueprint).2.store
        rw [hstore]
        exact .nothing _
      · show Writes _ (s.construct placement blueprint).2.store
        rw [hstore]
        exact .constructed address
    | lookup key next =>
      cases h
      rw [store_arrive]
      exact .nothing _

/-- So does a move. -/
theorem Move.writes {p q : Point n κ} (h : Move calls p q) : p.Writes q.session.store := by
  cases h with
  | step hnext => exact next_writes hnext
  | run client _ => exact .nothing p
  | request call _ =>
    rw [Point.request, store_arrive]
    exact .nothing p
  | listen listener _ => exact .nothing p

end Point

/-! ## Descriptors that are written again -/

namespace Descriptor

/-- What a writing loop leaves are slots of before and slots that arrived. -/
theorem mem_fill {reported written : Nat} {slots : List Slot} {d : Descriptor} {slot : Slot}
    (h : slot ∈ (fill reported slots written d).2.slots) : slot ∈ d.slots ∨ slot ∈ slots := by
  induction slots generalizing written d with
  | nil =>
    left
    unfold fill at h
    split at h <;> exact h
  | cons first rest ih =>
    unfold fill at h
    split at h
    · rcases ih h with hold | hnew
      · rw [writeSlot, List.mem_append, List.mem_singleton] at hold
        rcases hold with hold | rfl
        · exact Or.inl (List.mem_of_mem_take hold)
        · exact Or.inr List.mem_cons_self
      · exact Or.inr (List.mem_cons_of_mem _ hnew)
    · exact Or.inl h

/-- All that a composition can leave in memory: what was there, or the header and the array
slot of the blueprint, with slots of before and slots of the blueprint. -/
theorem compose_memory (d : Descriptor) (address : Nat) (b : Blueprint) :
    (d.compose address b).2 = d ∨
    ∃ slots slotCount initialized, (d.compose address b).2 =
        { d.header b with slots, slotCount, initialized } ∧
      ∀ slot ∈ slots, slot ∈ d.slots ∨ slot ∈ b.source.slots := by
  rcases compose_cases d address b with ⟨fault, hrefused⟩ | hwritten
  · rw [hrefused]
    exact Or.inl rfl
  · right
    obtain ⟨filled, hfilled⟩ := exists_fill_eq b.source.reported b.source.slots 0 (d.header b)
    have hmem : ∀ slot ∈ filled, slot ∈ d.slots ∨ slot ∈ b.source.slots := by
      intro slot hslot
      have harrived : slot ∈ (fill b.source.reported b.source.slots 0 (d.header b)).2.slots := by
        rw [hfilled]
        exact hslot
      exact (mem_fill harrived : slot ∈ (d.header b).slots ∨ _)
    rw [hwritten]
    revert hfilled
    rcases fill b.source.reported b.source.slots 0 (d.header b) with ⟨fault | _, memory⟩
    · rintro rfl
      exact ⟨filled, _, _, rfl, hmem⟩
    · rintro rfl
      exact ⟨filled, _, _, rfl, hmem⟩

/-- A descriptor that is finished is not given up. -/
def Decided (d : Descriptor) : Prop := d.initialized = true → d.poisoned = false

theorem decided_of_uninitialized {d : Descriptor} (h : d.initialized = false) : d.Decided := by
  intro hinit
  rw [h] at hinit
  cases hinit

theorem Decided.compose {d : Descriptor} (h : d.Decided) (address : Nat) (b : Blueprint) :
    (d.compose address b).2.Decided := by
  rcases d.compose_memory address b with hsame | ⟨slots, slotCount, initialized, hwritten, _⟩
  · rw [hsame]
    exact h
  · rw [hwritten]
    exact fun _ => rfl

/-- How a descriptor may be written again. -/
structure Follows (before after : Descriptor) : Prop where
  size : after.size = before.size
  hasArray : after.hasArray = before.hasArray
  initialized : before.initialized = true → after = before
  poisoned : before.poisoned = true → after = before

theorem Follows.refl (d : Descriptor) : d.Follows d := ⟨rfl, rfl, fun _ => rfl, fun _ => rfl⟩

theorem Follows.trans {d d' d'' : Descriptor} (h : d.Follows d') (h' : d'.Follows d'') :
    d.Follows d'' := by
  refine ⟨h'.size.trans h.size, h'.hasArray.trans h.hasArray, ?_, ?_⟩
  · intro hinit
    have hsame := h.initialized hinit
    rw [← hsame] at hinit ⊢
    exact h'.initialized hinit
  · intro hpoisoned
    have hsame := h.poisoned hpoisoned
    rw [← hsame] at hpoisoned ⊢
    exact h'.poisoned hpoisoned

/-- What is neither finished nor given up may be written, but for its header. -/
theorem Unfinished.follows {request : Request} {d d' : Descriptor} (h : d.Unfinished request)
    (hsize : d'.size = d.size) (hhasArray : d'.hasArray = d.hasArray) : d.Follows d' := by
  refine ⟨hsize, hhasArray, fun hinit => ?_, fun hpoisoned => ?_⟩
  · rw [h.uninitialized] at hinit
    cases hinit
  · rw [h.unpoisoned] at hpoisoned
    cases hpoisoned

theorem Unfinished.follows_compose {request : Request} {d : Descriptor} (h : d.Unfinished request)
    (parts : Parts) : d.Follows (d.compose 0 (request.blueprint parts)).2 := by
  rcases d.compose_memory 0 (request.blueprint parts) with
    hsame | ⟨slots, slotCount, initialized, hwritten, _⟩
  · rw [hsame]
    exact .refl d
  · rw [hwritten]
    exact h.follows h.size.symm h.hasArray.symm

theorem Unfinished.follows_poison {request : Request} {d : Descriptor} (h : d.Unfinished request) :
    d.Follows d.poison :=
  h.follows rfl rfl

end Descriptor

/-! ## Stores that are written -/

namespace Store

variable {store : Store} {memory : Descriptor} {P : Descriptor → Prop}

theorem get_initial (d : DescriptorRef) : initial.get d = .sentinel := by
  rcases d with ⟨_ | i⟩ <;> rfl

/-- What holds of all that is stored, and of what is written, holds of all that is stored
afterwards. -/
theorem forall_get_set {e : DescriptorRef} (hstore : ∀ d, P (store.get d)) (hmemory : P memory)
    (d : DescriptorRef) : P ((store.set e memory).get d) := by
  by_cases he : d = e
  · by_cases hd : store.InBounds d
    · rw [← he, get_set_self hd]
      exact hmemory
    · have hread := hstore d
      rw [get_of_not_inBounds hd] at hread
      rw [get_of_not_inBounds fun hset => hd (inBounds_set.1 hset)]
      exact hread
  · rw [get_set_ne he]
    exact hstore d

theorem forall_get_allocate (hstore : ∀ d, P (store.get d)) (hmemory : P memory)
    (d : DescriptorRef) : P ((store.allocate memory).get d) := by
  by_cases hd : (store.allocate memory).InBounds d
  · rcases inBounds_allocate hd with hold | rfl
    · rw [Store.get_of_prefix prefix_allocate hold]
      exact hstore d
    · rw [get_allocate_fresh]
      exact hmemory
  · have hread := hstore d
    rw [get_of_not_inBounds fun hold => hd (hold.of_prefix prefix_allocate)] at hread
    rw [get_of_not_inBounds hd]
    exact hread

end Store

/-! ## Persistence -/

namespace Ledger

/-- What stays from one ledger to a later one. -/
structure Persists (l l' : Ledger n) : Prop where
  inBounds : ∀ d, l.store.InBounds d → l'.store.InBounds d
  follows : ∀ d, l.store.InBounds d → (l.store.get d).Follows (l'.store.get d)
  keeps : l.Keeps l'
  /-- Memory that was allocated otherwise does not become that of a type. -/
  apart : ∀ d, l.store.InBounds d → (∀ cell, (l.cell cell).address ≠ some d) →
    ∀ cell, (l'.cell cell).address ≠ some d

theorem Persists.refl (l : Ledger n) : l.Persists l :=
  ⟨fun _ hd => hd, fun _ _ => .refl _, fun _ _ hd => hd, fun _ _ hnone => hnone⟩

theorem Persists.trans {l l' l'' : Ledger n} (h : l.Persists l') (h' : l'.Persists l'') :
    l.Persists l'' where
  inBounds d hd := h'.inBounds d (h.inBounds d hd)
  follows d hd := (h.follows d hd).trans (h'.follows d (h.inBounds d hd))
  keeps cell d hd := h'.keeps cell d (h.keeps cell d hd)
  apart d hd hnone := h'.apart d (h.inBounds d hd) (h.apart d hd hnone)

end Ledger

section Changes

variable {l l' : Ledger n} {rs rs' : List (Registration n κ)} {built : List (Fin n)}

/-- A published address stays published. -/
theorem Change.keeps (h : Change l rs built l' rs') (hl : l.Tracks rs) : l.Keeps l' := by
  intro cell d hd
  cases h with
  | idle | allocate memory | spoil call d memory hmemory => exact hd
  | claim call hfree => exact (Ledger.address_setPhase _ cell).trans hd
  | finish call e memory hmemory => exact (Ledger.address_setPhase _ cell).trans hd
  | publish call =>
    have haddress := (hl.owns _ (List.mem_cons_self ..)).address
    by_cases hcell : cell = call.cell
    · rw [hcell, haddress] at hd
      cases hd
    · rw [Ledger.cell_publish_ne _ hcell]
      exact hd
  | abandon r =>
    unfold Ledger.abandon
    cases r.address <;> exact (Ledger.address_setPhase _ cell).trans hd

/-- No address is published but a fresh one. -/
theorem Change.apart_of_inBounds (h : Change l rs built l' rs') {d : DescriptorRef}
    (hbounds : l.store.InBounds d) (hnone : ∀ cell : Fin n, (l.cell cell).address ≠ some d)
    (cell : Fin n) : (l'.cell cell).address ≠ some d := by
  cases h with
  | idle | allocate memory | spoil call d memory hmemory => exact hnone cell
  | claim call hfree =>
    rw [Ledger.address_setPhase]
    exact hnone cell
  | finish call e memory hmemory =>
    rw [Ledger.address_setPhase]
    exact hnone cell
  | publish call =>
    by_cases hcell : cell = call.cell
    · rw [hcell, Ledger.cell_publish_self]
      rintro ⟨⟩
      exact Store.not_inBounds_fresh hbounds
    · rw [Ledger.cell_publish_ne _ hcell]
      exact hnone cell
  | abandon r =>
    unfold Ledger.abandon
    cases r.address <;> (rw [Ledger.address_setPhase]; exact hnone cell)

end Changes

namespace Point

theorem Writes.inBounds {p : Point n κ} {store : Store} (h : p.Writes store) {d : DescriptorRef}
    (hd : p.session.store.InBounds d) : store.InBounds d := by
  cases h with
  | nothing => exact hd
  | reserved _ request => exact hd.of_prefix Store.prefix_allocate
  | constructed address => exact hd.of_prefix Store.prefix_allocate
  | written | poisoned => exact Store.inBounds_set.2 hd

/-- Only the descriptor of the latest registration is written again. -/
theorem Writes.follows {p : Point n κ} {store : Store} (h : p.Writes store)
    (hp : p.ledger.Tracks p.registrations) {d : DescriptorRef}
    (hd : p.session.store.InBounds d) : (p.session.store.get d).Follows (store.get d) := by
  have hset : ∀ {store : Store} {e : DescriptorRef} {memory : Descriptor}, store.InBounds d →
      (store.get e).Follows memory → (store.get d).Follows ((store.set e memory).get d) := by
    intro store e memory hd hfollows
    by_cases he : d = e
    · rw [← he] at hfollows ⊢
      rw [Store.get_set_self hd]
      exact hfollows
    · rw [Store.get_set_ne he]
      exact .refl _
  cases h with
  | nothing => exact .refl _
  | reserved _ request =>
    rw [Store.get_of_prefix Store.prefix_allocate hd]
    exact .refl _
  | @constructed _ _ _ _ _ s address =>
    replace hd : s.store.InBounds d := hd
    rw [Store.get_of_prefix Store.prefix_allocate hd]
    exact .refl _
  | @written _ call e _ _ parts s =>
    have howns := hp.owns ⟨call, some e⟩ (List.mem_cons_self ..)
    exact hset hd ((howns.unfinished e rfl).2.follows_compose parts)
  | @poisoned _ _ call e _ _ s =>
    have howns := hp.owns ⟨call, some e⟩ (List.mem_cons_self ..)
    exact hset hd (howns.unfinished e rfl).2.follows_poison

theorem Move.persists {p q : Point n κ} (h : Move calls p q)
    (hp : p.ledger.Tracks p.registrations) : p.ledger.Persists q.ledger where
  inBounds _ hd := h.writes.inBounds hd
  follows _ hd := h.writes.follows hp hd
  keeps := h.change.keeps hp
  apart _ hd hnone := h.change.apart_of_inBounds hd hnone

theorem Run.persists {p q : Point n κ} {built : List (Fin n)} (h : Run calls p built q)
    (hp : p.ledger.Tracks p.registrations) : p.ledger.Persists q.ledger := by
  induction h with
  | refl => exact .refl _
  | tail hrun hmove ih => exact ih.trans (hmove.persists (hrun.tracks hp))

/-! ## Flags -/

/-- No descriptor is both finished and given up. -/
def Decided (p : Point n κ) : Prop := ∀ d, (p.session.store.get d).Decided

theorem Writes.decided {p : Point n κ} {store : Store} (h : p.Writes store) (hp : p.Decided)
    (d : DescriptorRef) : (store.get d).Decided := by
  cases h with
  | nothing => exact hp d
  | reserved _ request =>
    have hheader : request.header.Decided := Descriptor.decided_of_uninitialized rfl
    exact Store.forall_get_allocate hp hheader d
  | @constructed _ _ blueprint _ _ _ address =>
    have hblank : (Descriptor.blank blueprint.source.reported).Decided :=
      Descriptor.decided_of_uninitialized rfl
    exact Store.forall_get_allocate hp (hblank.compose address blueprint) d
  | @written _ call e _ _ parts s => exact Store.forall_get_set hp ((hp e).compose 0 _) d
  | poisoned => exact Store.forall_get_set hp (Descriptor.decided_of_uninitialized rfl) d

theorem decided_start : (start : Point n κ).Decided := by
  intro d
  show (Store.initial.get d).Decided
  rw [Store.get_initial]
  exact fun _ => rfl

theorem Run.decided {p q : Point n κ} {built : List (Fin n)} (h : Run calls p built q)
    (hp : p.Decided) : q.Decided := by
  induction h with
  | refl => exact hp
  | tail _ hmove ih => exact hmove.writes.decided ih

end Point

end TracedHeap
