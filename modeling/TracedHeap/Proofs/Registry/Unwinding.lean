import TracedHeap.Proofs.Registry.Termination

/-! # Faults that leave registrations

A fault that arises inside of registrations may be survived in any of the build functions
around it.  The registrations that it leaves on its way poison their cells, and nobody
else's.

1. **Leaving**: the registrations that a fault leaves, and the code that gets to see it in the
   end (`Callers.Leaves`).
2. **Giving up**: what becomes of the session on the way (`GivenUp`).
3. **Afterwards**: a poisoned cell stays as it is, and every request for it is refused.

The main statement is `fault_poisons_registrations_it_leaves`.
-/

namespace TracedHeap

variable {n depth : Nat} {κ β γ : Type} {calls : κ → Call n κ}

/-! ## Leaving -/

namespace Callers

/-- The latest registration, and the code that it interrupted. -/
inductive Latest : {β γ : Type} → Callers n κ β → Registration n κ →
    (Except Fault DescriptorRef → Client n κ γ) → Callers n κ γ → Prop where
  | announcing {γ : Type} (call : Call n κ) (resume : Except Fault DescriptorRef → Client n κ γ)
      (rest : Callers n κ γ) : Latest (.announcing call resume rest) ⟨call, none⟩ resume rest
  | building {γ : Type} (call : Call n κ) (d : DescriptorRef)
      (resume : Except Fault DescriptorRef → Client n κ γ) (rest : Callers n κ γ) :
      Latest (.building call d resume rest) ⟨call, some d⟩ resume rest

/-- A fault leaves some registrations, the latest first, and is then answered to the code
that waits for the last of them.  The build functions in between end with the fault when
they see it. -/
inductive Leaves (fault : Fault) : {β γ : Type} → Callers n κ β → List (Registration n κ) →
    (Except Fault DescriptorRef → Client n κ γ) → Callers n κ γ → Prop where
  | last {β γ : Type} {callers : Callers n κ β} {r : Registration n κ}
      {resume : Except Fault DescriptorRef → Client n κ γ} {rest : Callers n κ γ}
      (hlatest : callers.Latest r resume rest) : Leaves fault callers [r] resume rest
  | passed {β γ δ : Type} {callers : Callers n κ β} {r : Registration n κ}
      {left : List (Registration n κ)} {call : Call n κ} {d : DescriptorRef}
      {resume : Except Fault DescriptorRef → Client n κ Parts}
      {resume' : Except Fault DescriptorRef → Client n κ γ} {rest : Callers n κ γ}
      {resume'' : Except Fault DescriptorRef → Client n κ δ} {outer : Callers n κ δ}
      (hlatest : callers.Latest r resume (.building call d resume' rest))
      (hpassed : resume (.error fault) = .fail fault)
      (hrest : Leaves fault (.building call d resume' rest) left resume'' outer) :
      Leaves fault callers (r :: left) resume'' outer

theorem Latest.registrations {callers : Callers n κ β} {r : Registration n κ}
    {resume : Except Fault DescriptorRef → Client n κ γ} {rest : Callers n κ γ}
    (h : callers.Latest r resume rest) : callers.registrations = r :: rest.registrations := by
  cases h <;> rfl

theorem Leaves.registrations {fault : Fault} {callers : Callers n κ β}
    {left : List (Registration n κ)} {resume : Except Fault DescriptorRef → Client n κ γ}
    {outer : Callers n κ γ} (h : callers.Leaves fault left resume outer) :
    callers.registrations = left ++ outer.registrations := by
  induction h with
  | last hlatest => exact hlatest.registrations
  | passed hlatest _ _ ih => rw [hlatest.registrations, ih, List.cons_append]

end Callers

/-! ## Giving up -/

/-- A registration that failed is given up. -/
def Session.giveUp (s : Session n κ) (r : Registration n κ) : Session n κ :=
  (abandon r.call.cell r.address s.bounded).session

theorem Session.ledger_giveUp (s : Session n κ) (r : Registration n κ) :
    (s.giveUp r).ledger = s.ledger.abandon r := by
  unfold giveUp Ledger.abandon
  cases r.address <;> rfl

theorem Point.leads_of_latest (calls : κ → Call n κ) {callers : Callers n κ β}
    {r : Registration n κ} {resume : Except Fault DescriptorRef → Client n κ γ} {rest : Callers n κ γ}
    (h : callers.Latest r resume rest) (fault : Fault) (s : Session n κ) :
    Leads calls (.failing fault callers s)
      (.running (resume (.error fault)) rest (s.giveUp r)) := by
  cases h <;> exact .step rfl

/-- A fault gives up the registrations that it leaves, one after the other. -/
theorem Point.leads_of_leaves (calls : κ → Call n κ) {fault : Fault} {callers : Callers n κ β}
    {left : List (Registration n κ)} {resume : Except Fault DescriptorRef → Client n κ γ}
    {outer : Callers n κ γ} (h : callers.Leaves fault left resume outer) (s : Session n κ) :
    Leads calls (.failing fault callers s)
      (.running (resume (.error fault)) outer (left.foldl Session.giveUp s)) := by
  induction h generalizing s with
  | last hlatest => exact leads_of_latest calls hlatest fault s
  | @passed _ _ _ _ r _ _ _ _ _ _ _ _ hlatest hpassed _ ih =>
    have hleft := leads_of_latest calls hlatest fault s
    rw [hpassed] at hleft
    -- the build function in between ends with the fault, which leaves its registration too
    exact hleft.trans (.head rfl (ih (s.giveUp r)))

/-- What becomes of a session when registrations are given up. -/
structure GivenUp (left : List (Registration n κ)) (s s' : Session n κ) : Prop where
  log : s'.log = s.log ++ left.map fun r => .registrationFailed r.call.cell
  poisoned : ∀ r ∈ left, s'.cells.get r.call.cell = ⟨(s.cells.get r.call.cell).address, .poisoned⟩
  ruined : ∀ r ∈ left, ∀ d, r.address = some d → s'.store.get d = (s.store.get d).poison
  cells : ∀ cell, cell ∉ left.map (·.call.cell) → s'.cells.get cell = s.cells.get cell
  memory : ∀ e, some e ∉ left.map (·.address) → s'.store.get e = s.store.get e

theorem Descriptor.poison_poison (d : Descriptor) : d.poison.poison = d.poison := rfl

section GivenUp

variable {left left' : List (Registration n κ)} {s s' s'' : Session n κ}

/-- Addresses that are published stay. -/
theorem GivenUp.address (h : GivenUp left s s') (cell : Fin n) :
    (s'.cells.get cell).address = (s.cells.get cell).address := by
  by_cases hcell : cell ∈ left.map (·.call.cell)
  · obtain ⟨r, hr, rfl⟩ := List.mem_map.1 hcell
    rw [h.poisoned r hr]
  · rw [h.cells cell hcell]

/-- Memory stays as it is or is ruined. -/
theorem GivenUp.get (h : GivenUp left s s') (d : DescriptorRef) :
    s'.store.get d = s.store.get d ∨ s'.store.get d = (s.store.get d).poison := by
  by_cases hd : some d ∈ left.map (·.address)
  · obtain ⟨r, hr, hsame⟩ := List.mem_map.1 hd
    exact Or.inr (h.ruined r hr d hsame)
  · exact Or.inl (h.memory d hd)

/-- Some registrations are given up after others. -/
theorem GivenUp.trans (h : GivenUp left s s') (h' : GivenUp left' s' s'') :
    GivenUp (left ++ left') s s'' := by
  constructor
  case log => rw [h'.log, h.log, List.map_append, List.append_assoc]
  case poisoned =>
    intro r hr
    by_cases hlater : r.call.cell ∈ left'.map (·.call.cell)
    · obtain ⟨r', hr', hsame⟩ := List.mem_map.1 hlater
      rw [← hsame, h'.poisoned r' hr', h.address]
    · rcases List.mem_append.1 hr with hr | hr
      · rw [h'.cells _ hlater, h.poisoned r hr]
      · exact absurd (List.mem_map.2 ⟨r, hr, rfl⟩) hlater
  case ruined =>
    intro r hr d hd
    by_cases hlater : some d ∈ left'.map (·.address)
    · -- the memory was ruined before at most
      obtain ⟨r', hr', hsame⟩ := List.mem_map.1 hlater
      rw [h'.ruined r' hr' d hsame]
      rcases h.get d with hget | hget
      · rw [hget]
      · rw [hget, Descriptor.poison_poison]
    · rcases List.mem_append.1 hr with hr | hr
      · rw [h'.memory d hlater, h.ruined r hr d hd]
      · exact absurd (List.mem_map.2 ⟨r, hr, hd⟩) hlater
  case cells =>
    intro cell hcell
    rw [List.map_append, List.mem_append, not_or] at hcell
    rw [h'.cells cell hcell.2, h.cells cell hcell.1]
  case memory =>
    intro e he
    rw [List.map_append, List.mem_append, not_or] at he
    rw [h'.memory e he.2, h.memory e he.1]

theorem Session.inBounds_giveUp (s : Session n κ) (r : Registration n κ) (d : DescriptorRef) :
    (s.giveUp r).store.InBounds d ↔ s.store.InBounds d := by
  unfold giveUp
  cases r.address with
  | none => exact Iff.rfl
  | some e => exact Store.inBounds_set

/-- One registration is given up. -/
theorem givenUp_singleton (s : Session n κ) (r : Registration n κ)
    (hbounds : ∀ d, r.address = some d → s.store.InBounds d) : GivenUp [r] s (s.giveUp r) := by
  have hledger := s.ledger_giveUp r
  have hcell : ∀ cell, (s.giveUp r).cells.get cell = (s.ledger.abandon r).cell cell :=
    fun cell => congrArg (·.cell cell) hledger
  constructor
  case log =>
    unfold Session.giveUp
    cases r.address <;> rfl
  case poisoned =>
    intro r' hr'
    rw [List.mem_singleton.1 hr', hcell]
    exact s.ledger.cell_abandon_self r
  case ruined =>
    intro r' hr' d hd
    rw [List.mem_singleton.1 hr'] at hd
    unfold Session.giveUp
    rw [hd]
    exact Store.get_set_self (hbounds d hd)
  case cells =>
    intro cell hnot
    rw [hcell]
    exact s.ledger.cell_abandon_ne r (mt List.mem_singleton.2 hnot)
  case memory =>
    intro e hnot
    unfold Session.giveUp
    cases haddress : r.address with
    | none => rfl
    | some d =>
      refine Store.get_set_ne ?_
      rintro rfl
      exact hnot (List.mem_singleton.2 haddress.symm)

theorem givenUp_foldl (left : List (Registration n κ)) (s : Session n κ)
    (hbounds : ∀ r ∈ left, ∀ d, r.address = some d → s.store.InBounds d) :
    GivenUp left s (left.foldl Session.giveUp s) := by
  induction left generalizing s with
  | nil => exact ⟨(List.append_nil _).symm, nofun, nofun, fun _ _ => rfl, fun _ _ => rfl⟩
  | cons r left ih =>
    have hfirst := givenUp_singleton s r (hbounds r (List.mem_cons_self ..))
    have hrest := ih (s.giveUp r) fun r' hr' d hd =>
      (s.inBounds_giveUp r d).2 (hbounds r' (List.mem_cons_of_mem _ hr') d hd)
    exact hfirst.trans hrest

end GivenUp

/-! ## Afterwards -/

/-- A change leaves a cell alone whose registration has ended, and calls no build function
of it. -/
theorem Change.cell_of_ended {l l' : Ledger n} {rs rs' : List (Registration n κ)}
    {now : List (Fin n)} (h : Change l rs now l' rs') (hl : l.Tracks rs) {cell : Fin n}
    (hfree : (l.cell cell).phase ≠ .unclaimed) (hrunning : (l.cell cell).phase ≠ .registering) :
    l'.cell cell = l.cell cell ∧ cell ∉ now := by
  -- the cell that is changed is free, or that of the latest registration
  have hlatest : ∀ r ∈ rs, cell ≠ r.call.cell := by
    rintro r hr rfl
    exact hrunning (hl.owns r hr).phase
  cases h with
  | idle => exact ⟨rfl, List.not_mem_nil⟩
  | allocate memory => exact ⟨rfl, List.not_mem_nil⟩
  | claim call hunclaimed =>
    have hne : cell ≠ call.cell := by
      rintro rfl
      exact hfree hunclaimed
    exact ⟨Ledger.cell_setPhase_ne _ hne, List.not_mem_nil⟩
  | publish call =>
    have hne := hlatest _ (List.mem_cons_self ..)
    refine ⟨Ledger.cell_publish_ne _ hne, ?_⟩
    rw [List.mem_singleton]
    exact hne
  | spoil call d memory hmemory => exact ⟨rfl, List.not_mem_nil⟩
  | finish call d memory hmemory =>
    exact ⟨Ledger.cell_setPhase_ne _ (hlatest _ (List.mem_cons_self ..)), List.not_mem_nil⟩
  | abandon r =>
    exact ⟨Ledger.cell_abandon_ne _ _ (hlatest r (List.mem_cons_self ..)), List.not_mem_nil⟩

/-- A poisoned cell stays as it is, and its build function is never called again. -/
theorem Point.Run.cell_of_poisoned {p q : Point n κ} {later : List (Fin n)}
    (h : Run calls p later q) (hp : p.ledger.Tracks p.registrations) {cell : Fin n}
    (hphase : (p.ledger.cell cell).phase = .poisoned) :
    q.ledger.cell cell = p.ledger.cell cell ∧ cell ∉ later := by
  induction h with
  | refl => exact ⟨rfl, List.not_mem_nil⟩
  | tail hrun hmove ih =>
    obtain ⟨hcell, hlater⟩ := ih
    rw [← hcell] at hphase
    obtain ⟨hcell', hnow⟩ := hmove.change.cell_of_ended (hrun.tracks hp)
      (by rw [hphase]; decide) (by rw [hphase]; decide)
    refine ⟨hcell'.trans hcell, ?_⟩
    rw [List.mem_append, not_or]
    exact ⟨hnow, hlater⟩

/-- The check that refuses a poisoned cell, whose address was published or not. -/
def Check.refusal : Option DescriptorRef → Check
  | none => .poisonedUnpublished
  | some _ => .poisoned

theorem Check.message_refusal (address : Option DescriptorRef) :
    (refusal address).message = "descriptor registration panicked earlier" := by
  cases address <;> rfl

theorem Cell.entry_of_poisoned (address : Option DescriptorRef) :
    (⟨address, .poisoned⟩ : Cell).entry = .refused (.failed (.refusal address)) := by
  cases address <;> rfl

namespace Point

/-- A fault poisons the registrations that it leaves.  Take any point of a run from the start
at which a fault is about to leave the latest registration, and let `left` be those that it
leaves until some code survives it, the latest first.  Then exactly their cells become
poisoned, each with a line in the log.  Addresses that were published stay, with the size and
the kind of the objects, and lead to ruined descriptors; all other cells and descriptors are
as before.  From then on every request for one of these cells is refused with nothing but a
line in the log, and its build function is not called again. -/
theorem fault_poisons_registrations_it_leaves {built : List (Fin n)} {fault : Fault}
    {callers : Callers n κ β} {s : Session n κ} {left : List (Registration n κ)}
    {resume : Except Fault DescriptorRef → Client n κ γ} {outer : Callers n κ γ}
    (hrun : Run calls start built (.failing fault callers s))
    (hleaves : callers.Leaves fault left resume outer) :
    callers.registrations = left ++ outer.registrations ∧
    ∃ s' : Session n κ,
      Leads calls (.failing fault callers s) (.running (resume (.error fault)) outer s') ∧
      s'.log = s.log ++ left.map (fun r => .registrationFailed r.call.cell) ∧
      (∀ r ∈ left, (s.cells.get r.call.cell).address = r.address ∧
        s'.cells.get r.call.cell = ⟨r.address, .poisoned⟩ ∧
        ∀ d, r.address = some d → (s'.store.get d).Ruined ∧
          (s'.store.get d).size = (s.store.get d).size ∧
          (s'.store.get d).hasArray = (s.store.get d).hasArray) ∧
      (∀ cell, cell ∉ left.map (·.call.cell) → s'.cells.get cell = s.cells.get cell) ∧
      (∀ e, some e ∉ left.map (·.address) → s'.store.get e = s.store.get e) ∧
      ∀ (later : List (Fin n)) (q : Point n κ),
        Run calls (.running (resume (.error fault)) outer s') later q → ∀ r ∈ left,
          r.call.cell ∉ later ∧ q.session.cells.get r.call.cell = ⟨r.address, .poisoned⟩ ∧
          (Check.refusal r.address).message = "descriptor registration panicked earlier" ∧
          ∀ (call : Call n κ) (depth : Nat) (b : Bounded n κ depth),
            call.cell = r.call.cell → b.session = q.session →
              resolve calls depth call b =
                (.error (.failed (.refusal r.address)),
                  b.logFault (.failed (.refusal r.address))) := by
  have htracks := hrun.tracks tracks_start
  have hregistrations := hleaves.registrations
  -- the registrations that are left own their cells
  have howns : ∀ r ∈ left, r.Owns s.store (s.cells.get r.call.cell) := by
    intro r hr
    refine htracks.owns r ?_
    show r ∈ callers.registrations
    rw [hregistrations]
    exact List.mem_append_left _ hr
  have hgivenUp := givenUp_foldl left s fun r hr d hd => ((howns r hr).unfinished d hd).1
  have hsteps := leads_of_leaves calls hleaves s
  generalize left.foldl Session.giveUp s = s' at hgivenUp hsteps
  have hpoisoned : ∀ r ∈ left, s'.cells.get r.call.cell = ⟨r.address, .poisoned⟩ := by
    intro r hr
    rw [hgivenUp.poisoned r hr, (howns r hr).address]
  refine ⟨hregistrations, s', hsteps, hgivenUp.log, ?_, hgivenUp.cells, hgivenUp.memory, ?_⟩
  · intro r hr
    refine ⟨(howns r hr).address, hpoisoned r hr, ?_⟩
    intro d hd
    rw [hgivenUp.ruined r hr d hd]
    exact ⟨Descriptor.ruined_poison _, rfl, rfl⟩
  · intro later q hlater r hr
    obtain ⟨_, hreached⟩ := hrun.leads hsteps
    have hphase : (s'.cells.get r.call.cell).phase = .poisoned := by
      rw [hpoisoned r hr]
    obtain ⟨hcell, hnever⟩ := hlater.cell_of_poisoned (hreached.tracks tracks_start) hphase
    have hcell' : q.session.cells.get r.call.cell = ⟨r.address, .poisoned⟩ :=
      hcell.trans (hpoisoned r hr)
    refine ⟨hnever, hcell', Check.message_refusal _, ?_⟩
    intro call depth b hcall hb
    apply resolve_of_refused
    show (b.session.cells.get call.cell).entry = _
    rw [hb, hcall, hcell']
    exact Cell.entry_of_poisoned r.address

/-- A build function that has no members to build, whatever it is answered. -/
def survive (_ : Except Fault DescriptorRef) : Client 3 (Fin 3) Parts :=
  .done ⟨.empty, .ofList []⟩

/-- A build function that ends with the fault that it is answered. -/
def passOn (found : Except Fault DescriptorRef) : Client 3 (Fin 3) Parts :=
  (Client.ofExcept found).bind fun _ => .done ⟨.empty, .ofList []⟩

/-- Three types, of which `0` asks for `1` and `1` asks for `2`.  The build function of `2`
faults, that of `1` ends with the fault, and that of `0` survives it. -/
def fragile : Fin 3 → Call 3 (Fin 3)
  | 0 => ⟨0, ⟨8, false, 0⟩, .lookup 1 survive⟩
  | 1 => ⟨1, ⟨8, false, 0⟩, .lookup 2 passOn⟩
  | 2 => ⟨2, ⟨8, true, 0⟩, .fail (.raised "building failed")⟩

/-- The registrations of all three types, while the innermost is being built. -/
def fragileCallers : Callers 3 (Fin 3) Parts :=
  .building (fragile 2) ⟨3⟩ passOn (.building (fragile 1) ⟨2⟩ survive
    (.building (fragile 0) ⟨1⟩ .ofExcept (.outermost : Callers 3 (Fin 3) DescriptorRef)))

/-- The fault of the innermost of three registrations leaves two of them.  Both are poisoned,
the innermost first, and the outermost goes on. -/
theorem fault_survived_two_registrations_out :
    let fault := Fault.raised "building failed"
    ∃ (s s' : Session 3 (Fin 3)) (outer : Callers 3 (Fin 3) Parts),
      Run fragile start [2, 1, 0] (.failing fault fragileCallers s) ∧
      Leads fragile (.failing fault fragileCallers s)
        (.running (survive (.error fault)) outer s') ∧
      s'.log = s.log ++ [.registrationFailed 2, .registrationFailed 1] ∧
      s'.cells.get 2 = ⟨some ⟨3⟩, .poisoned⟩ ∧ s'.cells.get 1 = ⟨some ⟨2⟩, .poisoned⟩ ∧
      (s'.store.get ⟨3⟩).Ruined ∧ (s'.store.get ⟨3⟩).hasArray = true ∧
      s'.cells.get 0 = ⟨some ⟨1⟩, .registering⟩ := by
  intro fault
  have h₁ := (Run.refl : Run fragile start [] start).tail (.request (fragile 0) rfl)
  -- each type is announced and its build function called, which asks for the next one
  have h₃ := (h₁.tail (.step rfl)).tail (.step rfl)
  have h₅ := (h₃.tail (.step rfl)).tail (.step rfl)
  have hrun : Run fragile start [2, 1, 0] (.failing fault fragileCallers _) :=
    (h₅.tail (.step rfl)).tail (.step rfl)
  have hleaves : fragileCallers.Leaves fault
      [⟨fragile 2, some ⟨3⟩⟩, ⟨fragile 1, some ⟨2⟩⟩] survive _ :=
    .passed (.building ..) rfl (.last (.building ..))
  obtain ⟨_, s', hleads, hlog, hleft, hcells, _⟩ :=
    fault_poisons_registrations_it_leaves hrun hleaves
  have hinner := hleft ⟨fragile 2, some ⟨3⟩⟩ (by simp)
  have houter := hleft ⟨fragile 1, some ⟨2⟩⟩ (by simp)
  obtain ⟨hruined, _, hhasArray⟩ := hinner.2.2 ⟨3⟩ rfl
  refine ⟨_, s', _, hrun, hleads, hlog, hinner.2.1, houter.2.1, hruined, ?_, ?_⟩
  · rw [hhasArray]
    rfl
  · rw [hcells 0 (by decide)]
    rfl

end Point

end TracedHeap
