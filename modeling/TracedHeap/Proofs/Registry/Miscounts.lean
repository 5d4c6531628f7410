import TracedHeap.Proofs.Registry.SlotWrites
import TracedHeap.Proofs.Registry.Unwinding
import TracedHeap.Proofs.Registry.Permanence

/-! # Miscounted slots

A registration declares the number of its slots, and memory is reserved for so many.  Its build
function then reports a number, and the slots that arrive are a third one.  If these are not
the same, the registration fails before it leaves the memory, and nobody ever finds the
descriptor finished.

1. **Reserved memory**: until a registration writes its descriptor, there is nothing but the
   header in it (`Registration.Reserved`), at any point of any run.
2. **Returning**: what a build function leads to that has returned its slots.
3. **Giving up**: what was given up was never finished before.
4. **Registrations**: all of this for a registration at any point of any run
   (`Point.Returns`).

The main statement is `miscounted_slots_stay_inside_and_unseen`.
-/

namespace TracedHeap

variable {n : Nat} {κ β γ : Type} {calls : κ → Call n κ}

/-! ## Reserved memory -/

/-- If memory was published for a registration, it is for the declared number of slots, and
there is nothing but the header in it. -/
def Registration.Reserved (r : Registration n κ) (store : Store) : Prop :=
  ∀ d, r.address = some d → store.get d = r.call.request.header ∧
    ∃ layout, Descriptor.layout? r.call.request.slotCount = some layout

theorem Registration.Reserved.of_get {r : Registration n κ} {store store' : Store}
    (h : r.Reserved store) (hsame : ∀ d, r.address = some d → store'.get d = store.get d) :
    r.Reserved store' := by
  intro d hd
  rw [hsame d hd]
  exact h d hd

/-- Registrations that are running have different memory. -/
theorem Ledger.Tracks.address_ne {l : Ledger n} {r r' : Registration n κ}
    {rs : List (Registration n κ)} (h : l.Tracks (r :: rs)) (hr' : r' ∈ rs) {d : DescriptorRef}
    (hd : r.address = some d) : r'.address ≠ some d := by
  intro hd'
  have howns := h.owns r List.mem_cons_self
  have howns' := h.owns r' (List.mem_cons_of_mem _ hr')
  have hcell := h.distinct _ _ d (howns'.address.trans hd') (howns.address.trans hd)
  exact h.notMem (List.mem_map.2 ⟨r', hr', hcell⟩)

namespace Point

/-- The registrations that have not come to write their descriptors.  If a fault is about to
leave the latest one, that may be in the middle of it. -/
def unwritten : Point n κ → List (Registration n κ)
  | .running _ callers _ => callers.registrations
  | .failing _ callers _ => callers.registrations.tail

/-- Nothing but headers was written for them. -/
def AllReserved (p : Point n κ) : Prop := ∀ r ∈ p.unwritten, r.Reserved p.session.store

section Steps

variable {call : Call n κ} {resume : Except Fault DescriptorRef → Client n κ β}
  {callers : Callers n κ β} {s : Session n κ}

theorem arrive_allReserved (h : ∀ r ∈ callers.registrations, r.Reserved s.store) :
    (arrive call resume callers s).AllReserved := by
  cases hentry : s.entry call.cell with
  | found d =>
    rw [arrive_of_found hentry]
    exact h
  | refused fault =>
    rw [arrive_of_refused hentry]
    exact h
  | free =>
    rw [arrive_of_free hentry]
    have hclaimed : ∀ r ∈ (⟨call, none⟩ : Registration n κ) :: callers.registrations,
        r.Reserved s.store :=
      List.forall_mem_cons.2 ⟨nofun, h⟩
    unfold announced
    split <;> exact hclaimed

/-- What was reserved is not what is reserved next. -/
theorem proceed_allReserved (htracks : s.ledger.Tracks (⟨call, none⟩ :: callers.registrations))
    (h : ∀ r ∈ callers.registrations, r.Reserved s.store) :
    (proceed call resume callers s).AllReserved := by
  unfold proceed
  cases hlayout : Descriptor.layout? call.request.slotCount with
  | none => exact h
  | some layout =>
    refine List.forall_mem_cons.2 ⟨?_, fun r hr => (h r hr).of_get fun d hd => ?_⟩
    · intro d hd
      cases hd
      exact ⟨Store.get_allocate_fresh, layout, hlayout⟩
    · have howns := htracks.owns r (List.mem_cons_of_mem _ hr)
      exact Store.get_of_prefix Store.prefix_allocate (howns.unfinished d hd).1

/-- A registration writes no memory but its own. -/
theorem returned_allReserved {d : DescriptorRef} (parts : Parts)
    (htracks : s.ledger.Tracks (⟨call, some d⟩ :: callers.registrations))
    (h : ∀ r ∈ callers.registrations, r.Reserved s.store) :
    (returned call d parts resume callers s).AllReserved := by
  have hothers : ∀ memory, ∀ r ∈ callers.registrations, r.Reserved (s.store.set d memory) := by
    intro memory r hr
    refine (h r hr).of_get fun e he => Store.get_set_ne ?_
    rintro rfl
    exact htracks.address_ne hr rfl he
  unfold returned
  split
  · rcases (s.store.get d).compose 0 (call.request.blueprint parts) with ⟨fault | _, memory⟩
    · exact hothers memory
    · exact hothers memory
  · exact h

end Steps

theorem next_allReserved {p q : Point n κ} (h : p.next calls = some q)
    (htracks : p.ledger.Tracks p.registrations) (hp : p.AllReserved) : q.AllReserved := by
  cases p with
  | failing fault callers s =>
    cases callers with
    | outermost => cases h
    | announcing call resume rest =>
      cases h
      exact hp
    | building call d resume rest =>
      cases h
      intro r hr
      refine (hp r hr).of_get fun e he => Store.get_set_ne ?_
      rintro rfl
      exact htracks.address_ne hr rfl he
  | running client callers s =>
    cases client with
    | done a =>
      cases callers with
      | outermost => cases h
      | announcing call resume rest =>
        cases h
        exact proceed_allReserved htracks (List.forall_mem_cons.1 hp).2
      | building call d resume rest =>
        cases h
        exact returned_allReserved a htracks (List.forall_mem_cons.1 hp).2
    | fail fault =>
      cases callers with
      | outermost =>
        cases h
        exact fun r hr => nomatch hr
      | announcing call resume rest =>
        cases h
        exact proceed_allReserved htracks (List.forall_mem_cons.1 hp).2
      | building call d resume rest =>
        cases h
        exact (List.forall_mem_cons.1 hp).2
    | log line next | note event next | read d next | phase cell next =>
      cases h
      exact hp
    | slot target discipline offset next =>
      cases h
      intro r hr
      show r.Reserved (s.logOutcome _).store
      rw [store_logOutcome]
      exact hp r hr
    | construct placement blueprint next =>
      cases h
      intro r hr
      refine (hp r hr).of_get fun d hd => ?_
      have hbounds := ((htracks.owns r hr).unfinished d hd).1
      rcases store_construct (s := s) placement blueprint with hstore | ⟨address, hstore⟩
      · show (s.construct placement blueprint).2.store.get d = _
        rw [hstore]
        rfl
      · show (s.construct placement blueprint).2.store.get d = _
        rw [hstore]
        exact Store.get_of_prefix Store.prefix_allocate hbounds
    | lookup key next =>
      cases h
      exact arrive_allReserved hp

theorem Move.allReserved {p q : Point n κ} (h : Move calls p q)
    (htracks : p.ledger.Tracks p.registrations) (hp : p.AllReserved) : q.AllReserved := by
  cases h with
  | step hnext => exact next_allReserved hnext htracks hp
  | run client _ | listen listener _ => exact fun r hr => nomatch hr
  | request call _ => exact arrive_allReserved fun r hr => nomatch hr

theorem Run.allReserved {p q : Point n κ} {built : List (Fin n)} (h : Run calls p built q)
    (htracks : p.ledger.Tracks p.registrations) (hp : p.AllReserved) : q.AllReserved := by
  induction h with
  | refl => exact hp
  | tail hrun hmove ih => exact hmove.allReserved (hrun.tracks htracks) ih

theorem allReserved_start : (start : Point n κ).AllReserved := nofun

end Point

/-! ## Returning -/

/-- A layout is as large as the memory for so many slots. -/
theorem Descriptor.memorySize_of_layout? {slots : Nat} {layout : Layout}
    (h : layout? slots = some layout) : memorySize slots = .ok layout.size := by
  obtain ⟨size, hsize, hlayout⟩ := Option.bind_eq_some_iff.1 h
  obtain ⟨bytes, hmul, hadd⟩ := Option.bind_eq_some_iff.1 hsize
  have hsame : layout.size = size := by
    unfold Layout.ofSizeAlign? at hlayout
    split at hlayout
    · rw [← Option.some.inj hlayout]
    · cases hlayout
  refine except_bind_eq_ok_iff.2 ⟨bytes, ?_, ?_⟩
  · rw [Word.mul, hmul]
  · rw [Word.add, hadd, hsame]

namespace Point

section Returning

variable {call : Call n κ} {d : DescriptorRef} {resume : Except Fault DescriptorRef → Client n κ β}
  {callers : Callers n κ β} {parts : Parts} {s : Session n κ}

/-- A build function that reports another number of slots than was declared is not given the
memory. -/
theorem returned_of_mismatch (h : parts.source.reported ≠ call.request.slotCount) :
    returned call d parts resume callers s =
      .failing (.failed (.slotCountMismatch call.request.slotCount parts.source.reported))
        (.building call d resume callers)
        (s.logFault (.failed
          (.slotCountMismatch call.request.slotCount parts.source.reported))) := by
  rw [returned, if_neg h]

/-- Otherwise the descriptor is written, and its registration ends as the writing does. -/
theorem returned_of_match (h : parts.source.reported = call.request.slotCount) :
    (returned call d parts resume callers s).session.store =
        s.store.set d ((s.store.get d).compose 0 (call.request.blueprint parts)).2 ∧
      (((s.store.get d).compose 0 (call.request.blueprint parts)).1 = .ok () ∧
          (∃ s', returned call d parts resume callers s = .running (resume (.ok d)) callers s') ∨
        ∃ fault s', ((s.store.get d).compose 0 (call.request.blueprint parts)).1 = .error fault ∧
          returned call d parts resume callers s =
            .failing fault (.building call d resume callers) s') := by
  rw [returned, if_pos h]
  rcases (s.store.get d).compose 0 (call.request.blueprint parts) with ⟨fault | _, memory⟩
  · exact ⟨rfl, Or.inr ⟨fault, _, rfl, rfl⟩⟩
  · exact ⟨rfl, Or.inl ⟨rfl, _, rfl⟩⟩

end Returning

/-! ## Giving up -/

/-- A cell whose registration has ended stays as it is. -/
theorem Run.cell_of_ended {p q : Point n κ} {later : List (Fin n)} (h : Run calls p later q)
    (hp : p.ledger.Tracks p.registrations) {cell : Fin n}
    (hfree : (p.ledger.cell cell).phase ≠ .unclaimed)
    (hrunning : (p.ledger.cell cell).phase ≠ .registering) :
    q.ledger.cell cell = p.ledger.cell cell := by
  induction h with
  | refl => rfl
  | tail hrun hmove ih =>
    rw [← ih] at hfree hrunning
    exact (hmove.change.cell_of_ended (hrun.tracks hp) hfree hrunning).1.trans ih

/-- A descriptor that was given up is not finished at any point before, and at none after. -/
theorem never_finished {p q : Point n κ} {cell : Fin n} {d : DescriptorRef}
    (hp : p.ledger.Tracks p.registrations) (hq : q.ledger.Tracks q.registrations)
    (hcell : p.ledger.cell cell = ⟨some d, .poisoned⟩) (hruined : (p.session.store.get d).Ruined)
    (h : (∃ later, Run calls q later p) ∨ ∃ later, Run calls p later q) :
    (q.ledger.cell cell).phase ≠ .registered ∧
      ((q.ledger.cell cell).address = some d → (q.session.store.get d).initialized = false) := by
  rcases h with ⟨later, hbefore⟩ | ⟨later, hafter⟩
  · constructor
    · intro hphase
      have hsame := hbefore.cell_of_ended hq (by rw [hphase]; decide) (by rw [hphase]; decide)
      rw [← hsame, hcell] at hphase
      cases hphase
    · intro haddress
      by_contra hinit
      rw [Bool.not_eq_false] at hinit
      -- it would still be what it was
      have hfollows := (hbefore.persists hq).follows d (hq.inBounds haddress)
      have hsame : p.session.store.get d = q.session.store.get d := hfollows.initialized hinit
      have hno := hruined.uninitialized
      rw [hsame, hinit] at hno
      cases hno
  · have hphase : (p.ledger.cell cell).phase = .poisoned := by rw [hcell]
    have haddress : (p.ledger.cell cell).address = some d := by rw [hcell]
    constructor
    · rw [(hafter.cell_of_poisoned hp hphase).1, hphase]
      decide
    · intro _
      have hfollows := (hafter.persists hp).follows d (hp.inBounds haddress)
      have hsame : q.session.store.get d = p.session.store.get d :=
        hfollows.poisoned hruined.poisoned
      rw [hsame]
      exact hruined.uninitialized

/-- A registration whose address is published and that a fault is about to leave is given up,
and was never finished. -/
theorem given_up_unseen {built : List (Fin n)} {fault : Fault} {call : Call n κ} {d : DescriptorRef}
    {resume : Except Fault DescriptorRef → Client n κ β} {rest : Callers n κ β} {s : Session n κ}
    (hrun : Run calls start built (.failing fault (.building call d resume rest) s)) :
    ∃ s', Leads calls (.failing fault (.building call d resume rest) s)
        (.running (resume (.error fault)) rest s') ∧
      s'.cells.get call.cell = ⟨some d, .poisoned⟩ ∧ (s'.store.get d).Ruined ∧
      ∀ (earlier : List (Fin n)) (q : Point n κ), Run calls start earlier q →
        ((∃ later, Run calls q later (.running (resume (.error fault)) rest s')) ∨
          ∃ later, Run calls (.running (resume (.error fault)) rest s') later q) →
        (q.session.cells.get call.cell).phase ≠ .registered ∧
          ((q.session.cells.get call.cell).address = some d →
            (q.session.store.get d).initialized = false) := by
  have howns := (hrun.tracks tracks_start).owns ⟨call, some d⟩ List.mem_cons_self
  have hsteps := leads_of_latest calls (.building call d resume rest) fault s
  have hgivenUp := givenUp_singleton s ⟨call, some d⟩ fun e he => (howns.unfinished e he).1
  generalize s.giveUp ⟨call, some d⟩ = s' at hsteps hgivenUp
  have hcell : s'.cells.get call.cell = ⟨some d, .poisoned⟩ := by
    rw [hgivenUp.poisoned _ (List.mem_singleton_self _)]
    exact congrArg (Cell.mk · .poisoned) howns.address
  have hruined : (s'.store.get d).Ruined := by
    rw [hgivenUp.ruined _ (List.mem_singleton_self _) d rfl]
    exact Descriptor.ruined_poison _
  refine ⟨s', hsteps, hcell, hruined, fun earlier q hq hcomparable => ?_⟩
  obtain ⟨_, hreached⟩ := hrun.leads hsteps
  exact never_finished (hreached.tracks tracks_start) (hq.tracks tracks_start) hcell hruined
    hcomparable

/-! ## Registrations -/

section Building

variable {built : List (Fin n)} {call : Call n κ} {d : DescriptorRef}
  {resume : Except Fault DescriptorRef → Client n κ β} {rest : Callers n κ β} {s : Session n κ}
  {build : Client n κ Parts}

/-- A registration whose build function is running has its cell. -/
theorem Run.cell_of_building
    (hrun : Run calls start built (.running build (.building call d resume rest) s)) :
    s.cells.get call.cell = ⟨some d, .registering⟩ := by
  have howns := (hrun.tracks tracks_start).owns ⟨call, some d⟩ List.mem_cons_self
  have heq : ∀ {c : Cell}, c.phase = .registering → c.address = some d →
      c = ⟨some d, .registering⟩ := by
    rintro ⟨address, phase⟩ rfl rfl
    rfl
  exact heq howns.phase howns.address

/-- It has memory for the declared number of slots, with nothing but the header in it. -/
theorem Run.reserved_of_building
    (hrun : Run calls start built (.running build (.building call d resume rest) s)) :
    s.store.get d = call.request.header ∧
      ∃ layout, Descriptor.layout? call.request.slotCount = some layout :=
  hrun.allReserved tracks_start allReserved_start ⟨call, some d⟩ List.mem_cons_self d rfl

end Building

/-- What becomes of a registration whose build function has returned the slots that it is to
have. -/
structure Returns (calls : κ → Call n κ) (call : Call n κ) (d : DescriptorRef)
    (resume : Except Fault DescriptorRef → Client n κ β) (rest : Callers n κ β) (parts : Parts)
    (s : Session n κ) : Prop where
  cell : s.cells.get call.cell = ⟨some d, .registering⟩
  /-- Nothing but the header was written so far. -/
  blank : s.store.get d = call.request.header
  /-- There is memory for the declared number of slots. -/
  layout : ∃ layout, Descriptor.layout? call.request.slotCount = some layout ∧
    Descriptor.memorySize call.request.slotCount = .ok layout.size
  /-- If another number is reported, the registration fails before anything is written. -/
  mismatch : parts.source.reported ≠ call.request.slotCount →
    ∃ s', next calls (.running (.done parts) (.building call d resume rest) s) =
        some (.failing
          (.failed (.slotCountMismatch call.request.slotCount parts.source.reported))
          (.building call d resume rest) s') ∧
      s'.store = s.store
  /-- Otherwise the descriptor is written, and the registration ends as the writing does. -/
  written : parts.source.reported = call.request.slotCount →
    ∃ q, next calls (.running (.done parts) (.building call d resume rest) s) = some q ∧
      q.session.store =
        s.store.set d (call.request.header.compose 0 (call.request.blueprint parts)).2 ∧
      ((call.request.header.compose 0 (call.request.blueprint parts)).1 = .ok () ∧
          (∃ s', q = .running (resume (.ok d)) rest s') ∨
        ∃ fault s', (call.request.header.compose 0 (call.request.blueprint parts)).1 =
            .error fault ∧ q = .failing fault (.building call d resume rest) s')
  /-- Slots are only written in memory that was reserved. -/
  inside : parts.source.reported = call.request.slotCount →
    ∀ layout, Descriptor.layout? call.request.slotCount = some layout →
      ∀ i ∈ (call.request.header.composeNoted 0 (call.request.blueprint parts)).2.numbers,
        i < call.request.slotCount ∧ Descriptor.slotOffset i + Descriptor.slotSize ≤ layout.size
  fails_iff : (∃ fault s', next calls (.running (.done parts) (.building call d resume rest) s) =
      some (.failing fault (.building call d resume rest) s')) ↔
    parts.source.reported ≠ call.request.slotCount ∨
      parts.source.slots.length ≠ parts.source.reported ∨ (call.request.blueprint parts).Hollow
  /-- If the registration fails, it is given up, and nobody finds the descriptor finished, neither
  before nor after. -/
  unseen : ∀ fault s₁, next calls (.running (.done parts) (.building call d resume rest) s) =
      some (.failing fault (.building call d resume rest) s₁) →
    ∃ s', Leads calls (.running (.done parts) (.building call d resume rest) s)
        (.running (resume (.error fault)) rest s') ∧
      s'.cells.get call.cell = ⟨some d, .poisoned⟩ ∧ (s'.store.get d).Ruined ∧
      ∀ (earlier : List (Fin n)) (q : Point n κ), Run calls start earlier q →
        ((∃ later, Run calls q later (.running (resume (.error fault)) rest s')) ∨
          ∃ later, Run calls (.running (resume (.error fault)) rest s') later q) →
        (q.session.cells.get call.cell).phase ≠ .registered ∧
          ((q.session.cells.get call.cell).address = some d →
            (q.session.store.get d).initialized = false)

theorem Run.returns {built : List (Fin n)} {call : Call n κ} {d : DescriptorRef}
    {resume : Except Fault DescriptorRef → Client n κ β} {rest : Callers n κ β} {parts : Parts}
    {s : Session n κ}
    (hrun : Run calls start built (.running (.done parts) (.building call d resume rest) s)) :
    Returns calls call d resume rest parts s := by
  obtain ⟨hblank, layout, hlayout⟩ := hrun.reserved_of_building
  have hcounts : call.request.header.Counts 0 (call.request.blueprint parts) :=
    Descriptor.counts _ _ rfl
  have hnext : next calls (.running (.done parts) (.building call d resume rest) s) =
      some (returned call d parts resume rest s) := rfl
  have hmatch := @returned_of_match n κ β call d resume rest parts s
  rw [hblank] at hmatch
  constructor
  case cell => exact hrun.cell_of_building
  case blank => exact hblank
  case layout => exact ⟨layout, hlayout, Descriptor.memorySize_of_layout? hlayout⟩
  case mismatch =>
    intro hne
    rw [hnext, returned_of_mismatch hne]
    exact ⟨_, rfl, rfl⟩
  case written =>
    intro heq
    exact ⟨_, hnext, hmatch heq⟩
  case inside =>
    intro heq layout hlayout i hi
    have hsize : Descriptor.memorySize (call.request.blueprint parts).source.reported =
        .ok layout.size := by
      rw [← Descriptor.memorySize_of_layout? hlayout, ← heq]
      rfl
    refine ⟨?_, hcounts.inside _ hsize i hi⟩
    rw [← heq]
    exact Nat.lt_of_lt_of_le (hcounts.written i hi) (Nat.min_le_left _ _)
  case fails_iff =>
    rw [hnext]
    by_cases heq : parts.source.reported = call.request.slotCount
    · have hreturns : (call.request.header.compose 0 (call.request.blueprint parts)).1 = .ok () ↔
          parts.source.slots.length = parts.source.reported ∧
            ¬ (call.request.blueprint parts).Hollow := by
        rw [Blueprint.not_hollow_iff]
        exact hcounts.returns
      rcases (hmatch heq).2 with ⟨hok, s', hs'⟩ | ⟨fault, s', hfault, hs'⟩
      · obtain ⟨hlength, hlegal⟩ := hreturns.1 hok
        rw [hs']
        simp [heq, hlength, hlegal]
      · rw [hs']
        refine iff_of_true ⟨fault, s', rfl⟩ (Or.inr ?_)
        by_contra hno
        rw [not_or, Decidable.not_not] at hno
        rw [hreturns.2 hno] at hfault
        cases hfault
    · refine iff_of_true ?_ (Or.inl heq)
      rw [returned_of_mismatch heq]
      exact ⟨_, _, rfl⟩
  case unseen =>
    intro fault s₁ hfails
    obtain ⟨s', hsteps, hrest⟩ := given_up_unseen (hrun.tail (.step hfails))
    exact ⟨s', .head hfails hsteps, hrest⟩

/-- Miscounted slots.  Slots are written one after the other, and only those that were reported
and have arrived, so that nothing is written outside of memory for the reported number of slots.
A descriptor is finished exactly if as many arrive as were reported, and if there are none of an
object that has neither size nor array.  If another number arrives, the fault tells which there
were more of, and the memory is not marked as initialized.  Slots of an object that has neither
size nor array are refused before anything is written, which leaves the memory as it was.

If a registration writes its descriptor, then as many slots were reported as were declared, which
is what its memory is for.  Whenever the three numbers are not the same it fails; it is then given
up, and at no point of the run, neither before nor after, is its cell registered or its descriptor
initialized. -/
theorem miscounted_slots_stay_inside_and_unseen (calls : κ → Call n κ) :
    (∀ (memory : Descriptor) (address : Nat) (b : Blueprint),
      address % Descriptor.alignment = 0 → memory.Counts address b) ∧
    ∀ (β : Type) (built : List (Fin n)) (call : Call n κ) (d : DescriptorRef)
      (resume : Except Fault DescriptorRef → Client n κ β) (rest : Callers n κ β) (parts : Parts)
      (s : Session n κ),
      Run calls start built (.running (.done parts) (.building call d resume rest) s) →
        Returns calls call d resume rest parts s := by
  refine ⟨?_, ?_⟩
  · intro memory address b haligned
    exact memory.counts b haligned
  · intro β built call d resume rest parts s hrun
    exact hrun.returns

/-- A finished descriptor that is overwritten with refused slots stays finished, since the header is
written only after the check. -/
theorem refused_slots_leave_memory_marked :
    let finished := ((Descriptor.blank 1).compose 0 ⟨8, false, .empty, .ofList [.empty]⟩).2
    let refused : Blueprint := ⟨0, false, .empty, .ofList [.empty]⟩
    0 % Descriptor.alignment = 0 ∧
      (finished.compose 0 refused).1 = .error (.failed .slotsOfEmptyObject) ∧
      (finished.compose 0 refused).2.initialized = true := by
  decide

/-- A type with two slots, of which two are reported and three arrive. -/
def talkative : Fin 1 → Call 1 (Fin 1)
  | _ => ⟨0, ⟨8, false, 2⟩, .done ⟨.empty, ⟨[.empty, .empty, .empty], 2⟩⟩⟩

/-- The third slot is not written, and the registration is given up. -/
theorem third_slot_stays_outside :
    ∃ (s s' : Session 1 (Fin 1)) (parts : Parts),
      Run talkative start [0] (.running (.done parts) (.building (talkative 0) ⟨1⟩ .ofExcept
        (.outermost : Callers 1 (Fin 1) DescriptorRef)) s) ∧
      (((talkative 0).request.header.composeNoted 0
        ((talkative 0).request.blueprint parts)).2.numbers = [0, 1]) ∧
      Leads talkative (.running (.done parts) (.building (talkative 0) ⟨1⟩ .ofExcept
          (.outermost : Callers 1 (Fin 1) DescriptorRef)) s)
        (.running (.ofExcept (.error (.failed .moreSlotsThanReported)))
          (.outermost : Callers 1 (Fin 1) DescriptorRef) s') ∧
      s'.cells.get 0 = ⟨some ⟨1⟩, .poisoned⟩ ∧ (s'.store.get ⟨1⟩).Ruined ∧
      (s.store.get ⟨1⟩).initialized = false := by
  have hrequested := (Run.refl : Run talkative start [] start).tail (.request (talkative 0) rfl)
  -- the type is announced, and its build function returns at once
  have hrun : Run talkative start [0] (.running _ (.building (talkative 0) ⟨1⟩ .ofExcept
      (.outermost : Callers 1 (Fin 1) DescriptorRef)) _) :=
    hrequested.tail (.step rfl)
  obtain ⟨hcounts, hreturns⟩ := miscounted_slots_stay_inside_and_unseen talkative
  have hreturned := hreturns _ _ _ _ _ _ _ _ hrun
  have hnumbers := (hcounts (talkative 0).request.header 0
    ((talkative 0).request.blueprint ⟨.empty, ⟨[.empty, .empty, .empty], 2⟩⟩) rfl).more
      (fun h => nomatch h.size) (by decide)
  obtain ⟨s', hleads, hcell, hruined, hunseen⟩ := hreturned.unseen _ _ rfl
  refine ⟨_, s', _, hrun, hnumbers.2, hleads, hcell, hruined, ?_⟩
  exact (hunseen _ _ hrun (.inl hleads.run)).2 rfl

end Point

end TracedHeap
