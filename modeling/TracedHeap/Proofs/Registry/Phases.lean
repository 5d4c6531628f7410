import TracedHeap.Proofs.Registry.Changes

/-! # The phase of a cell, its address and the flags of its descriptor

The phase of a type, the address that its cell publishes and the flags at that address are
written at different moments.  Wherever code outside of the registry has control, they tell
the same.

1. **Phases** and what one move can do to them.
2. **Points**: the phase of a cell against its address and its descriptor
   (`Point.Agrees`), and against the registrations that are running.
3. **Lookups** at a point: a type whose registration is running is found, so that no lookup
   takes it for one that somebody else registers.

The main statement is `phase_address_and_flags_agree`.
-/

namespace TracedHeap

variable {n depth : Nat} {κ : Type} {calls : κ → Call n κ}

/-! ## Phases -/

/-- The ways in which a phase may change. -/
inductive Phase.Advances : Phase → Phase → Prop where
  | stays (phase : Phase) : Advances phase phase
  | claimed : Advances .unclaimed .registering
  | registered : Advances .registering .registered
  | poisoned : Advances .registering .poisoned

section Changes

variable {l l' : Ledger n} {rs rs' : List (Registration n κ)} {built : List (Fin n)}
  {r : Registration n κ} {cell : Fin n}

theorem Ledger.cell_abandon_self (l : Ledger n) (r : Registration n κ) :
    (l.abandon r).cell r.call.cell = ⟨(l.cell r.call.cell).address, .poisoned⟩ := by
  unfold Ledger.abandon
  cases r.address <;> exact cell_setPhase_self ..

theorem Ledger.cell_abandon_ne (l : Ledger n) (r : Registration n κ) (h : cell ≠ r.call.cell) :
    (l.abandon r).cell cell = l.cell cell := by
  unfold Ledger.abandon
  cases r.address <;> exact cell_setPhase_ne _ h

/-- A change moves the phase of a cell one way at most. -/
theorem Change.advances (h : Change l rs built l' rs') (hl : l.Tracks rs) (cell : Fin n) :
    (l.cell cell).phase.Advances (l'.cell cell).phase := by
  cases h with
  | idle => exact .stays _
  | allocate memory => exact .stays _
  | claim call hfree =>
    by_cases hcell : cell = call.cell
    · rw [hcell, Ledger.cell_setPhase_self, hfree]
      exact .claimed
    · rw [Ledger.cell_setPhase_ne _ hcell]
      exact .stays _
  | publish call =>
    by_cases hcell : cell = call.cell
    · rw [hcell, Ledger.cell_publish_self]
      exact .stays _
    · rw [Ledger.cell_publish_ne _ hcell]
      exact .stays _
  | spoil call d memory hmemory => exact .stays _
  | finish call d memory hmemory =>
    have hphase := (hl.owns _ (List.mem_cons_self ..)).phase
    by_cases hcell : cell = call.cell
    · rw [hcell, Ledger.cell_setPhase_self, hphase]
      exact .registered
    · rw [Ledger.cell_setPhase_ne _ hcell]
      exact .stays _
  | abandon r =>
    have hphase := (hl.owns r (List.mem_cons_self ..)).phase
    by_cases hcell : cell = r.call.cell
    · rw [hcell, Ledger.cell_abandon_self, hphase]
      exact .poisoned
    · rw [Ledger.cell_abandon_ne _ _ hcell]
      exact .stays _

end Changes

/-! ## Points -/

section Settled

variable {store : Store} {c : Cell}

theorem Cell.Settled.registered_iff (h : c.Settled store) : c.phase = .registered ↔
    ∃ d, c.address = some d ∧ store.InBounds d ∧ (store.get d).Finished := by
  unfold Settled at h
  cases hphase : c.phase with
  | unclaimed =>
    simp only [hphase] at h
    simp [h]
  | registering => simp only [hphase] at h
  | registered =>
    simp only [hphase] at h
    simp only [true_iff]
    exact h
  | poisoned =>
    simp only [hphase] at h
    simp only [reduceCtorEq, false_iff]
    -- what is ruined is not initialized
    rintro ⟨d, hd, _, hfinished⟩
    have hno := (h d hd).2.uninitialized
    rw [hfinished.initialized] at hno
    cases hno

theorem Cell.Settled.of_poisoned (h : c.Settled store) (hphase : c.phase = .poisoned) :
    ∀ d, c.address = some d → store.InBounds d ∧ (store.get d).Ruined := by
  rw [Settled, hphase] at h
  exact h

end Settled

namespace Point

/-- The phases of all cells are what their addresses and descriptors say, and what the
registrations say that are running. -/
structure Agrees (p : Point n κ) : Prop where
  /-- A cell is registering while a registration of it is running. -/
  registering : ∀ cell : Fin n, (p.session.cells.get cell).phase = .registering ↔ cell ∈ p.active
  /-- No two registrations of one cell are running. -/
  once : p.active.Nodup
  /-- While a build function runs, the header of its descriptor is there to be found. -/
  building : ∀ r ∈ p.registrations, ∀ d, r.address = some d →
    (p.session.cells.get r.call.cell).address = some d ∧ p.session.store.InBounds d ∧
      (p.session.store.get d).Unfinished r.call.request
  /-- A cell is registered if it leads to a descriptor that is finished. -/
  registered : ∀ cell : Fin n, (p.session.cells.get cell).phase = .registered ↔
    ∃ d, (p.session.cells.get cell).address = some d ∧ p.session.store.InBounds d ∧
      (p.session.store.get d).Finished
  /-- A cell whose registration failed leads nowhere, or to a poisoned descriptor. -/
  poisoned : ∀ cell : Fin n, (p.session.cells.get cell).phase = .poisoned →
    (p.session.cells.get cell).address = none ∨
      ∃ d, (p.session.cells.get cell).address = some d ∧ p.session.store.InBounds d ∧
        (p.session.store.get d).Ruined
  /-- A cell that nobody has claimed leads nowhere. -/
  unclaimed : ∀ cell : Fin n, (p.session.cells.get cell).phase = .unclaimed →
    (p.session.cells.get cell).address = none

/-- A ledger that is tracked agrees with the registrations that are running. -/
theorem agrees_of_tracks {p : Point n κ} (h : p.ledger.Tracks p.registrations) : p.Agrees := by
  have hregistering : ∀ cell : Fin n,
      (p.session.cells.get cell).phase = .registering ↔ cell ∈ p.active := by
    intro cell
    constructor
    · intro hphase
      by_contra hcell
      have hsettled := h.settled cell hcell
      have hcellphase : (p.ledger.cell cell).phase = .registering := hphase
      rw [Cell.Settled, hcellphase] at hsettled
      exact hsettled
    · intro hcell
      obtain ⟨r, hr, rfl⟩ := List.mem_map.1 hcell
      exact (h.owns r hr).phase
  constructor
  case registering => exact hregistering
  case once => exact h.nodup
  case building =>
    intro r hr d hd
    have howns := h.owns r hr
    exact ⟨howns.address.trans hd, howns.unfinished d hd⟩
  case registered =>
    intro cell
    by_cases hcell : cell ∈ p.active
    · obtain ⟨r, hr, rfl⟩ := List.mem_map.1 hcell
      have howns := h.owns r hr
      have hphase : (p.session.cells.get r.call.cell).phase = .registering := howns.phase
      rw [hphase]
      simp only [reduceCtorEq, false_iff]
      -- the descriptor of a registration that is running is not initialized
      rintro ⟨d, hd, _, hfinished⟩
      have hno := (howns.unfinished d (howns.address.symm.trans hd)).2.uninitialized
      have hyes : (p.ledger.store.get d).initialized = true := hfinished.initialized
      rw [hno] at hyes
      cases hyes
    · exact (h.settled cell hcell).registered_iff
  case poisoned =>
    intro cell hphase
    have hcell : cell ∉ p.active := by
      rw [← hregistering cell, hphase]
      decide
    have hruined := (h.settled cell hcell).of_poisoned hphase
    cases haddress : (p.session.cells.get cell).address with
    | none => exact Or.inl rfl
    | some d => exact Or.inr ⟨d, rfl, hruined d haddress⟩
  case unclaimed => exact fun cell hphase => (h.address_of_unclaimed hphase).2

/-! ## Lookups -/

/-- Where no listener of the log has control, the type of a registration that is running is
found at its address. -/
theorem Agrees.entry_of_active {p : Point n κ} (h : p.Agrees)
    (hpublished : ∀ r ∈ p.registrations, r.address ≠ none) {cell : Fin n}
    (hcell : cell ∈ p.active) :
    ∃ d, (p.session.cells.get cell).address = some d ∧ p.session.entry cell = .found d := by
  obtain ⟨r, hr, rfl⟩ := List.mem_map.1 hcell
  obtain ⟨d, hd⟩ := Option.ne_none_iff_exists'.1 (hpublished r hr)
  have haddress := (h.building r hr d hd).1
  have hphase := (h.registering r.call.cell).2 hcell
  refine ⟨d, haddress, ?_⟩
  show (p.session.cells.get r.call.cell).entry = .found d
  rw [Cell.entry, haddress, hphase]
  rfl

/-- Where no listener of the log has control, no type is taken for one that somebody else
registers. -/
theorem Agrees.entry_ne_registeringElsewhere {p : Point n κ} (h : p.Agrees)
    (hpublished : ∀ r ∈ p.registrations, r.address ≠ none) (cell : Fin n) :
    p.session.entry cell ≠ .refused (.failed .registeringElsewhere) := by
  by_cases hcell : cell ∈ p.active
  · obtain ⟨d, _, hfound⟩ := h.entry_of_active hpublished hcell
    rw [hfound]
    exact fun hno => nomatch hno
  · show (p.session.cells.get cell).entry ≠ _
    have hphase : (p.session.cells.get cell).phase ≠ .registering := fun hphase =>
      hcell ((h.registering cell).1 hphase)
    unfold Cell.entry
    cases haddress : (p.session.cells.get cell).address with
    | some d =>
      simp only
      split <;> simp
    | none =>
      cases hp : (p.session.cells.get cell).phase with
      | unclaimed => simp
      | registering => exact absurd hp hphase
      | registered =>
        -- a registered type has an address
        obtain ⟨d, hd, _⟩ := (h.registered cell).1 hp
        rw [haddress] at hd
        cases hd
      | poisoned => simp

/-- Phases, addresses and flags agree.  Take any run from the start: any number of outermost
requests over any graph of types, with faults at any depth, survived anywhere.  At each of
its points the phases of all cells are what their addresses and descriptors say, and a cell
is registering while exactly one registration of it is running; from there, a phase changes
one way only.  So wherever no listener of the log has control, a lookup of a type whose
registration is running answers with the published address, and no cell is found claimed
without an address. -/
theorem phase_address_and_flags_agree {built : List (Fin n)} {p : Point n κ}
    (hrun : Run calls start built p) :
    p.Agrees ∧
    (∀ q, Move calls p q → ∀ cell : Fin n,
      (p.session.cells.get cell).phase.Advances (q.session.cells.get cell).phase) ∧
    ((∀ r ∈ p.registrations, r.address ≠ none) →
      (∀ cell ∈ p.active, ∃ d, (p.session.cells.get cell).address = some d ∧
        ∀ (call : Call n κ) (depth : Nat) (b : Bounded n κ depth), call.cell = cell →
          b.session = p.session → resolve calls depth call b = (.ok d, b)) ∧
      ∀ cell, p.session.entry cell ≠ .refused (.failed .registeringElsewhere)) := by
  have htracks := hrun.tracks tracks_start
  have hagrees := agrees_of_tracks htracks
  refine ⟨hagrees, fun q hmove => hmove.change.advances htracks, ?_⟩
  intro hpublished
  refine ⟨?_, hagrees.entry_ne_registeringElsewhere hpublished⟩
  intro cell hcell
  obtain ⟨d, haddress, hfound⟩ := hagrees.entry_of_active hpublished hcell
  refine ⟨d, haddress, ?_⟩
  rintro call depth b rfl hb
  rw [← hb] at hfound
  exact resolve_of_found hfound

/-- Three steps after the first of two types that refer to each other was asked for, the
second one is being built while the first one is.  The first one is found, although its
descriptor is unfinished. -/
theorem cyclic_type_found_while_built :
    let p := after Session.cyclic 3 (request (Session.cyclic 0) .initial)
    p.active = [1, 0] ∧ p.session.cells.get 0 = ⟨some ⟨1⟩, .registering⟩ ∧
      (p.session.store.get ⟨1⟩).initialized = false ∧
      ∃ d, (p.session.cells.get 0).address = some d ∧
        resolve Session.cyclic p.session.unclaimed (Session.cyclic 0) p.session.bounded =
          (.ok d, p.session.bounded) := by
  intro p
  have hrequested : Run Session.cyclic start _ (request (Session.cyclic 0) .initial) :=
    Run.refl.tail (.request (Session.cyclic 0) rfl)
  obtain ⟨built, hrun⟩ := hrequested.leads (leads_after Session.cyclic 3 _)
  have hpublished : ∀ r ∈ p.registrations, r.address ≠ none := by decide +kernel
  refine ⟨by decide +kernel, by decide +kernel, by decide +kernel, ?_⟩
  obtain ⟨d, haddress, hfound⟩ :=
    ((phase_address_and_flags_agree hrun).2.2 hpublished).1 0 (by decide +kernel)
  exact ⟨d, haddress, hfound (Session.cyclic 0) _ _ rfl rfl⟩

end Point

end TracedHeap
