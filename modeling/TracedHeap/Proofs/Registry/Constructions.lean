import TracedHeap.Proofs.Registry.Miscounts

/-! # Three ways to make a descriptor

A descriptor is written into memory that the caller owns, into memory of the collected heap, or
by a registration.  The memory comes from different places, the header is written by different
code, and failures are reported in different ways.  What lies there in the end is the same.

1. **Writing**: what a composition from a truthful source leaves (`Descriptor.made`), and what
   the accessors say of it.
2. **At run-time**: constructions in either place (`Store.Constructs`).
3. **Registrations** that were announced and are built or not (`Point.Announced`), and those
   whose build function has returned (`Point.Registers`).

The main statement is `descriptor_same_however_made`.
-/

namespace TracedHeap

variable {n : Nat} {κ β : Type} {calls : κ → Call n κ}

/-! ## Writing -/

/-- As many slots are reported as there are. -/
def Blueprint.Truthful (b : Blueprint) : Prop := b.source.reported = b.source.slots.length

namespace Descriptor

variable {b : Blueprint}

/-- A descriptor of objects, in memory of the size for its slots. -/
def made (b : Blueprint) : Descriptor :=
  ⟨b.size, b.hasArray, true, false, b.array, b.source.slots.length, b.source.slots,
    b.source.slots.length⟩

/-- The accessors say what it was made from. -/
theorem view_made (b : Blueprint) (e : DescriptorRef) :
    (made b).view e = ⟨e, b.size, b.hasArray, true, false, .ok b.source.slots.length, .ok b.array,
      .ok b.source.slots⟩ := by
  have hslots : (made b).slots? = .ok (b.source.slots.take b.source.slots.length) := rfl
  rw [List.take_length] at hslots
  unfold view
  rw [hslots]
  rfl

/-- Whatever was in the header, and wherever the memory is, a composition from a truthful source
leaves the same. -/
theorem compose_made {d : Descriptor} {address : Nat} (htrue : b.Truthful) (hblank : d.slots = [])
    (hroom : d.room = b.source.reported) (haligned : address % alignment = 0)
    (hlegal : ¬ b.Hollow) : d.compose address b = (.ok (), made b) := by
  have hfill := fill_all b.source.slots (d := d.header b) (congrArg List.length hblank)
  have hslots : (d.header b).slots = [] := hblank
  rw [List.length_nil, Nat.zero_add, hslots, List.nil_append, ← htrue] at hfill
  rw [d.compose_of_not_hollow hlegal haligned, hfill, made, ← htrue, ← hroom]
  rfl

end Descriptor

/-! ## At run-time -/

/-- A place that a descriptor can be written to: memory of the caller is aligned, and for memory
of the collected heap there is a layout. -/
def Placement.Suits : Placement → Blueprint → Prop
  | .memory address, _ => address % Descriptor.alignment = 0
  | .collected, b => ∃ layout, Descriptor.layout? b.source.reported = some layout

namespace Store

variable {b : Blueprint}

/-- What a construction in a suitable place comes to. -/
structure Constructs (s : Store) (placement : Placement) (b : Blueprint) : Prop where
  notBoxed : s.fresh ≠ .boxed
  refused : b.Hollow →
    (s.construct placement b).result = .error (.failed .slotsOfEmptyObject)
  made : ¬ b.Hollow → (s.construct placement b).result = .ok (some s.fresh) ∧
    (s.construct placement b).store = s.allocate (.made b)

/-- In a suitable place, a construction is the writing of fresh memory at an aligned address. -/
theorem construct_of_suits (s : Store) {placement : Placement} (h : placement.Suits b) :
    ∃ address, address % Descriptor.alignment = 0 ∧
      (s.construct placement b).result = (s.constructAt address b).1 ∧
      (s.construct placement b).store = (s.constructAt address b).2 := by
  cases placement with
  | memory address => exact ⟨address, h, rfl, rfl⟩
  | collected =>
    obtain ⟨layout, hlayout⟩ := h
    refine ⟨0, rfl, ?_, ?_⟩ <;> rw [construct, hlayout]

theorem constructAt_made (s : Store) {address : Nat} (htrue : b.Truthful)
    (haligned : address % Descriptor.alignment = 0) (hlegal : ¬ b.Hollow) :
    s.constructAt address b = (.ok (some s.fresh), s.allocate (.made b)) := by
  rw [constructAt, Descriptor.compose_made htrue rfl rfl haligned hlegal]
  rfl

theorem constructAt_of_hollow (s : Store) (address : Nat) (h : b.Hollow) :
    (s.constructAt address b).1 = .error (.failed .slotsOfEmptyObject) := by
  rw [constructAt, Descriptor.compose_of_hollow _ address h]
  rfl

/-- An address that is handed out later than the sentinel is another. -/
theorem fresh_ne_boxed {s : Store} (h : s.InBounds .boxed) : s.fresh ≠ .boxed := by
  intro hsame
  rw [← hsame] at h
  exact not_inBounds_fresh h

theorem constructs {s : Store} {placement : Placement} (htrue : b.Truthful)
    (hboxed : s.InBounds .boxed) (hsuits : placement.Suits b) : s.Constructs placement b := by
  obtain ⟨address, haligned, hresult, hstore⟩ := s.construct_of_suits hsuits
  constructor
  case notBoxed => exact fresh_ne_boxed hboxed
  case refused =>
    intro h
    rw [hresult, s.constructAt_of_hollow address h]
  case made =>
    intro h
    rw [hresult, hstore, s.constructAt_made htrue haligned h]
    exact ⟨rfl, rfl⟩

/-- A construction on the collected heap allocates the layout for the slots that are reported, if
there is one, and nothing else. -/
theorem allocated_construct (s : Store) (b : Blueprint) :
    (s.construct .collected b).allocated = Descriptor.layout? b.source.reported := by
  unfold construct
  cases Descriptor.layout? b.source.reported <;> rfl

/-- If there is none, then nothing comes of it, and no slot is looked at. -/
theorem construct_of_noLayout (s : Store) (h : Descriptor.layout? b.source.reported = none) :
    s.construct .collected b = ⟨.ok none, s, none⟩ := by
  rw [construct, h]

end Store

/-! ## Registrations -/

namespace Point

section Announcing

variable {built : List (Fin n)} {client : Client n κ Unit} {call : Call n κ}
  {resume : Except Fault DescriptorRef → Client n κ β} {rest : Callers n κ β} {s : Session n κ}

/-- Between two points a registration is given up, and its build function is never called. -/
structure Declined (calls : κ → Call n κ) (built : List (Fin n)) (call : Call n κ)
    (p q : Point n κ) : Prop where
  leads : Leads calls p q
  run : Run calls start built q
  store : q.session.store = p.session.store
  cell : q.session.cells.get call.cell = ⟨none, .poisoned⟩
  unbuilt : call.cell ∉ built
  never : ∀ (later : List (Fin n)) (r : Point n κ), Run calls q later r → call.cell ∉ later

/-- What becomes of a registration that was announced, as soon as the listener has ended. -/
structure Announced (calls : κ → Call n κ) (built : List (Fin n)) (client : Client n κ Unit)
    (call : Call n κ) (resume : Except Fault DescriptorRef → Client n κ β) (rest : Callers n κ β)
    (s : Session n κ) : Prop where
  /-- If there is memory for the declared number of slots, the build function is called, while
  there is a header in memory. -/
  reserved : ∀ layout, Descriptor.layout? call.request.slotCount = some layout →
    ∃ d s', next calls (.running client (.announcing call resume rest) s) =
        some (.running call.build (.building call d resume rest) s') ∧
      d ≠ .boxed ∧ s'.store.get d = call.request.header ∧
      s'.cells.get call.cell = ⟨some d, .registering⟩
  /-- Otherwise it is given up, and its build function is never called. -/
  poisoned : Descriptor.layout? call.request.slotCount = none →
    ∃ s', Declined calls built call (.running client (.announcing call resume rest) s)
      (.running (resume (.error (.noDescriptorLayout call.request.slotCount))) rest s')

/-- However the listener has ended, its registration goes on. -/
theorem next_announcing (calls : κ → Call n κ) (call : Call n κ)
    (resume : Except Fault DescriptorRef → Client n κ β) (rest : Callers n κ β) (s : Session n κ)
    (hclient : client = .done () ∨ ∃ fault, client = .fail fault) :
    next calls (.running client (.announcing call resume rest) s) =
        some (proceed call resume rest s) ∧
      (running client (.announcing call resume rest) s).calling =
        if (Descriptor.layout? call.request.slotCount).isSome then [call.cell] else [] := by
  rcases hclient with rfl | ⟨fault, rfl⟩
  · exact ⟨rfl, rfl⟩
  · exact ⟨rfl, rfl⟩

/-- Memory of a registration is not the sentinel. -/
theorem Run.notBoxed_of_building {build : Client n κ Parts} {d : DescriptorRef}
    (hrun : Run calls start built (.running build (.building call d resume rest) s)) :
    d ≠ .boxed :=
  (hrun.apart apart_start).types call.cell d
    ((hrun.tracks tracks_start).owns ⟨call, some d⟩ List.mem_cons_self).address

/-- A registration that there is no memory for is given up, and its build function is never
called. -/
theorem noLayout_poisons
    (hrun : Run calls start built (.running client (.announcing call resume rest) s))
    (hclient : client = .done () ∨ ∃ fault, client = .fail fault)
    (hlayout : Descriptor.layout? call.request.slotCount = none) :
    ∃ s', Declined calls built call (.running client (.announcing call resume rest) s)
      (.running (resume (.error (.noDescriptorLayout call.request.slotCount))) rest s') := by
  let fault := Fault.noDescriptorLayout call.request.slotCount
  let failing : Point n κ := .failing fault (.announcing call resume rest) (s.logFault fault)
  have hstep : next calls (.running client (.announcing call resume rest) s) = some failing ∧
      (running client (.announcing call resume rest) s).calling = [] := by
    have hproceed : proceed call resume rest s = failing := by rw [proceed, hlayout]
    have hnext := next_announcing calls call resume rest s hclient
    rw [hproceed, hlayout] at hnext
    exact hnext
  let s' : Session n κ := (s.logFault fault).giveUp ⟨call, none⟩
  have howns := (hrun.tracks tracks_start).owns ⟨call, none⟩ List.mem_cons_self
  have hgivenUp : GivenUp [⟨call, none⟩] (s.logFault fault) s' := givenUp_singleton _ _ nofun
  have hcell : s'.cells.get call.cell = ⟨none, .poisoned⟩ := by
    rw [hgivenUp.poisoned _ (List.mem_singleton_self _)]
    exact congrArg (Cell.mk · .poisoned) howns.address
  -- neither of the two steps calls a build function
  have hfailing : Run calls start built failing := by
    have hnext := hrun.tail (.step hstep.1)
    rw [hstep.2] at hnext
    exact hnext
  have hreached : Run calls start built (.running (resume (.error fault)) rest s') :=
    hfailing.tail (.step rfl)
  refine ⟨s', ?_⟩
  constructor
  case leads => exact .head hstep.1 (leads_of_latest calls (.announcing call resume rest) fault _)
  case run => exact hreached
  case store => rfl
  case cell => exact hcell
  case unbuilt =>
    intro hbuilt
    exact hrun.keepsBuilt.published ⟨call, none⟩ List.mem_cons_self hbuilt rfl
  case never =>
    intro later q hlater
    have hphase : (s'.ledger.cell call.cell).phase = .poisoned := congrArg (·.phase) hcell
    exact (hlater.cell_of_poisoned (hreached.tracks tracks_start) hphase).2

theorem Run.announced
    (hrun : Run calls start built (.running client (.announcing call resume rest) s))
    (hclient : client = .done () ∨ ∃ fault, client = .fail fault) :
    Announced calls built client call resume rest s := by
  constructor
  case reserved =>
    intro layout hlayout
    have hnext := (next_announcing calls call resume rest s hclient).1
    rw [proceed, hlayout] at hnext
    have hbuilding := hrun.tail (.step hnext)
    exact ⟨_, _, hnext, hbuilding.notBoxed_of_building, hbuilding.reserved_of_building.1,
      hbuilding.cell_of_building⟩
  case poisoned => exact noLayout_poisons hrun hclient

end Announcing

section Returning

variable {built : List (Fin n)} {call : Call n κ} {d : DescriptorRef}
  {resume : Except Fault DescriptorRef → Client n κ β} {rest : Callers n κ β} {s : Session n κ}
  {b : Blueprint}

/-- What becomes of a registration whose build function has returned as many slots as were
declared. -/
structure Registers (calls : κ → Call n κ) (call : Call n κ) (d : DescriptorRef)
    (resume : Except Fault DescriptorRef → Client n κ β) (rest : Callers n κ β) (b : Blueprint)
    (s : Session n κ) : Prop where
  notBoxed : d ≠ .boxed
  refused : b.Hollow →
    ∃ s', next calls (.running (.done ⟨b.array, b.source⟩) (.building call d resume rest) s) =
      some (.failing (.failed .slotsOfEmptyObject) (.building call d resume rest) s')
  made : ¬ b.Hollow →
    ∃ s', next calls (.running (.done ⟨b.array, b.source⟩) (.building call d resume rest) s) =
        some (.running (resume (.ok d)) rest s') ∧
      s'.store.get d = .made b ∧ s'.cells.get call.cell = ⟨some d, .registered⟩

/-- What is written is what a construction at run-time writes. -/
theorem Run.composed (hrequest : call.request = ⟨b.size, b.hasArray, b.source.reported⟩)
    (hrun : Run calls start built
      (.running (.done ⟨b.array, b.source⟩) (.building call d resume rest) s)) :
    (s.store.get d).compose 0 (call.request.blueprint ⟨b.array, b.source⟩) =
      call.request.header.compose 0 b := by
  rw [hrun.reserved_of_building.1, hrequest]
  rfl

theorem Run.registers (htrue : b.Truthful)
    (hrequest : call.request = ⟨b.size, b.hasArray, b.source.reported⟩)
    (hrun : Run calls start built
      (.running (.done ⟨b.array, b.source⟩) (.building call d resume rest) s)) :
    Registers calls call d resume rest b s := by
  have hcomposed := hrun.composed hrequest
  have hreported : b.source.reported = call.request.slotCount := by rw [hrequest]
  constructor
  case notBoxed => exact hrun.notBoxed_of_building
  case refused =>
    intro h
    rw [Descriptor.compose_of_hollow _ 0 h] at hcomposed
    rw [next, returned, if_pos hreported, hcomposed]
    exact ⟨_, rfl⟩
  case made =>
    intro h
    have hroom : call.request.header.room = b.source.reported := hreported.symm
    rw [Descriptor.compose_made htrue rfl hroom rfl h] at hcomposed
    have hbounds := ((hrun.tracks tracks_start).owns ⟨call, some d⟩ List.mem_cons_self).unfinished d
      rfl
    let written : Session n κ := { s with store := s.store.set d (.made b) }
    refine ⟨(written.setPhase call.cell .registered).write (.registered call.cell),
      congrArg some ?_, Store.get_set_self hbounds.1, ?_⟩
    · rw [returned, if_pos hreported, hcomposed]
      rfl
    · have hledger : ((written.setPhase call.cell .registered).ledger.cell call.cell) =
          ⟨(s.ledger.cell call.cell).address, .registered⟩ := by
        rw [Session.ledger_setPhase, Ledger.cell_setPhase_self]
        rfl
      have hcell : (s.ledger.cell call.cell).address = some d :=
        congrArg (·.address) hrun.cell_of_building
      rw [hcell] at hledger
      exact hledger

end Returning

/-- Descriptors are the same however they are made.  Take any size, with an array or without, any
array slot, and any list of slots, with their true number.  Written into aligned memory,
constructed on the collected heap, or registered by a build function that returns them, with as
many slots declared and a layout for them:

* all fail with the same check if there are slots, but neither a size nor an array, and otherwise
  all have a descriptor that is not the sentinel, with the same memory, of which the accessors
  say what it was made from;
* a construction on the collected heap allocates the layout for the reported number, once, or, if
  there is no such layout, nothing, in which case it has no result, whatever the slots are;
* a registration that declares a number without a layout is given up without a call of its build
  function, at any time. -/
theorem descriptor_same_however_made (calls : κ → Call n κ) (size : Nat) (hasArray : Bool)
    (array : Slot) (slots : List Slot) :
    let b : Blueprint := ⟨size, hasArray, array, .ofList slots⟩
    (∀ e, (Descriptor.made b).view e =
      ⟨e, size, hasArray, true, false, .ok slots.length, .ok array, .ok slots⟩) ∧
    (∀ (store : Store) (placement : Placement), store.InBounds .boxed → placement.Suits b →
      store.Constructs placement b) ∧
    (∀ (store : Store) (b : Blueprint),
      (∀ address, (store.construct (.memory address) b).allocated = none) ∧
      (store.construct .collected b).allocated = Descriptor.layout? b.source.reported ∧
      (Descriptor.layout? b.source.reported = none →
        store.construct .collected b = ⟨.ok none, store, none⟩)) ∧
    (∀ (β : Type) (built : List (Fin n)) (client : Client n κ Unit) (call : Call n κ)
      (resume : Except Fault DescriptorRef → Client n κ β) (rest : Callers n κ β) (s : Session n κ),
      Run calls start built (.running client (.announcing call resume rest) s) →
      (client = .done () ∨ ∃ fault, client = .fail fault) →
      Announced calls built client call resume rest s) ∧
    ∀ (β : Type) (built : List (Fin n)) (call : Call n κ) (d : DescriptorRef)
      (resume : Except Fault DescriptorRef → Client n κ β) (rest : Callers n κ β) (s : Session n κ),
      Run calls start built
        (.running (.done ⟨array, .ofList slots⟩) (.building call d resume rest) s) →
      call.request = ⟨size, hasArray, slots.length⟩ →
      Registers calls call d resume rest b s := by
  intro b
  have htrue : b.Truthful := rfl
  refine ⟨Descriptor.view_made b, ?_, ?_, ?_, ?_⟩
  · intro store placement hboxed hsuits
    exact Store.constructs htrue hboxed hsuits
  · intro store other
    exact ⟨fun _ => rfl, store.allocated_construct other, store.construct_of_noLayout⟩
  · intro β built client call resume rest s hrun hclient
    exact hrun.announced hclient
  · intro β built call d resume rest s hrun hrequest
    exact Run.registers htrue hrequest hrun

/-- Two slots, of which one has no target. -/
def pair : List Slot := [⟨none, .strong, 0⟩, ⟨some .boxed, .weak, 8⟩]

/-- A type with two slots, whatever number is declared. -/
def pairDeclaredAs (count : Nat) : Call 1 Nat :=
  ⟨.last 0, ⟨16, false, count⟩, .done ⟨.empty, .ofList pair⟩⟩

/-- Two slots are stored in three places, and then as many as there is no memory for. -/
theorem pair_same_in_three_places :
    let b : Blueprint := ⟨16, false, .empty, .ofList pair⟩
    ∃ s s' : Session 1 Nat,
      next pairDeclaredAs (.running (.done ⟨.empty, .ofList pair⟩)
          (.building (pairDeclaredAs 2) ⟨1⟩ .ofExcept
            (.outermost : Callers 1 Nat DescriptorRef)) s) =
        some (.running (.ofExcept (.ok ⟨1⟩)) (.outermost : Callers 1 Nat DescriptorRef) s') ∧
      (Store.initial.construct (.memory 64) b).store.get ⟨1⟩ = s'.store.get ⟨1⟩ ∧
      (Store.initial.construct .collected b).store.get ⟨1⟩ = s'.store.get ⟨1⟩ ∧
      (Store.initial.construct .collected b).allocated = some ⟨96, 8⟩ ∧
      ((s'.store.get ⟨1⟩).view ⟨1⟩).slots = .ok pair ∧
      (Store.initial.construct .collected { b with source := ⟨pair, Word.bound⟩ }).result =
        .ok none ∧
      ∃ t t' : Session 1 Nat,
        Leads pairDeclaredAs (.running (.done ()) (.announcing (pairDeclaredAs Word.bound) .ofExcept
            (.outermost : Callers 1 Nat DescriptorRef)) t)
          (.running (.ofExcept (.error (.noDescriptorLayout Word.bound)))
            (.outermost : Callers 1 Nat DescriptorRef) t') ∧
        t'.cells.get 0 = ⟨none, .poisoned⟩ := by
  intro b
  -- once two slots are declared, and once more than there is memory for
  have hrequested :=
    (Run.refl : Run pairDeclaredAs start [] start).tail (.request (pairDeclaredAs 2) rfl)
  have hbuilt : Run pairDeclaredAs start [0] (.running (.done ⟨.empty, .ofList pair⟩)
      (.building (pairDeclaredAs 2) ⟨1⟩ .ofExcept (.outermost : Callers 1 Nat DescriptorRef)) _) :=
    hrequested.tail (.step rfl)
  have hhuge : Run pairDeclaredAs start [] (.running (.done ())
      (.announcing (pairDeclaredAs Word.bound) .ofExcept
        (.outermost : Callers 1 Nat DescriptorRef)) _) :=
    (Run.refl : Run pairDeclaredAs start [] start).tail (.request (pairDeclaredAs Word.bound) rfl)
  obtain ⟨hview, hconstructs, hallocates, hannounced, hregisters⟩ :=
    descriptor_same_however_made pairDeclaredAs 16 false .empty pair
  have hlegal : ¬ b.Hollow := fun h => nomatch h.size
  obtain ⟨-, hmemory⟩ :=
    (hconstructs Store.initial (.memory 64) Nat.zero_lt_one rfl).made hlegal
  obtain ⟨-, hcollected⟩ :=
    (hconstructs Store.initial .collected Nat.zero_lt_one ⟨⟨96, 8⟩, by decide⟩).made hlegal
  obtain ⟨-, hallocated, -⟩ := hallocates Store.initial b
  obtain ⟨s', hs', hget, -⟩ := (hregisters _ _ _ _ _ _ _ hbuilt rfl).made hlegal
  obtain ⟨t', hdeclined⟩ :=
    (hannounced _ _ _ _ _ _ _ hhuge (.inl rfl)).poisoned (by decide)
  refine ⟨_, s', hs', ?_, ?_, hallocated.trans (by decide), ?_, ?_, _, t', hdeclined.leads, hdeclined.cell⟩
  · rw [hmemory, hget]
    rfl
  · rw [hcollected, hget]
    rfl
  · rw [hget, hview]
  · obtain ⟨-, -, hnone⟩ := hallocates Store.initial { b with source := ⟨pair, Word.bound⟩ }
    rw [hnone (by decide)]

end Point

end TracedHeap
