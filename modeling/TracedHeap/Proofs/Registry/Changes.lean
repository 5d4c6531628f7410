import TracedHeap.Proofs.Registry.Steps

/-! # What a step does to the ledger

Cells, published addresses and the flags of descriptors are written at different moments of
a registration.  This module says once what a step can do to them, and what holds of them
at every point.

1. **Changes**: all that a step can do to the ledger and to the registrations that are
   running (`Change`, `Move.change`).
2. **Tracking**: a cell is either that of one running registration, or settled
   (`Ledger.Tracks`).
3. **Preservation**: each change keeps the ledger tracked.
-/

namespace TracedHeap

variable {n : Nat} {κ β : Type}

/-! ## Changes -/

namespace Descriptor

/-- The header was written, and the descriptor is neither finished nor given up. -/
structure Unfinished (request : Request) (d : Descriptor) : Prop where
  size : d.size = request.size
  hasArray : d.hasArray = request.hasArray
  uninitialized : d.initialized = false
  unpoisoned : d.poisoned = false

/-- The descriptor is initialized, and its registration has not failed. -/
structure Finished (d : Descriptor) : Prop where
  initialized : d.initialized = true
  unpoisoned : d.poisoned = false

/-- A composition for a registration finishes the descriptor, or leaves it unfinished. -/
theorem compose_finished_or_unfinished {d : Descriptor} {request : Request}
    (h : d.Unfinished request) (parts : Parts) :
    ((d.compose 0 (request.blueprint parts)).1 = .ok () ∧
      (d.compose 0 (request.blueprint parts)).2.Finished) ∨
    (∃ fault, (d.compose 0 (request.blueprint parts)).1 = .error fault) ∧
      (d.compose 0 (request.blueprint parts)).2.Unfinished request := by
  rcases compose_cases d 0 (request.blueprint parts) with ⟨fault, hrefused⟩ | hwritten
  · rw [hrefused]
    exact Or.inr ⟨⟨fault, rfl⟩, h⟩
  · obtain ⟨filled, hfilled⟩ := exists_fill_eq (request.blueprint parts).source.reported
      (request.blueprint parts).source.slots 0 (d.header (request.blueprint parts))
    rw [hwritten]
    revert hfilled
    rcases fill _ _ 0 (d.header (request.blueprint parts)) with ⟨fault | _, memory⟩
    · rintro rfl
      exact Or.inr ⟨⟨fault, rfl⟩, ⟨rfl, rfl, rfl, rfl⟩⟩
    · rintro rfl
      exact Or.inl ⟨rfl, ⟨rfl, rfl⟩⟩

end Descriptor

namespace Ledger

/-- A registration that failed is given up. -/
def abandon (l : Ledger n) (r : Registration n κ) : Ledger n :=
  match r.address with
  | none => l.setPhase r.call.cell .poisoned
  | some d => (l.overwrite d (l.store.get d).poison).setPhase r.call.cell .poisoned

end Ledger

/-- The memory that is reserved for a descriptor. -/
def Request.header (request : Request) : Descriptor :=
  (Descriptor.blank request.slotCount).writeHeader request.size request.hasArray

/-- What one step can do to the ledger and the registrations that are running, the latest
first.  The list in the middle tells whose build function is called. -/
inductive Change : Ledger n → List (Registration n κ) → List (Fin n) →
    Ledger n → List (Registration n κ) → Prop where
  | idle {l : Ledger n} {rs : List (Registration n κ)} : Change l rs [] l rs
  | allocate {l : Ledger n} {rs : List (Registration n κ)} (memory : Descriptor) :
      Change l rs [] (l.allocate memory) rs
  | claim {l : Ledger n} {rs : List (Registration n κ)} (call : Call n κ)
      (hfree : (l.cell call.cell).phase = .unclaimed) :
      Change l rs [] (l.setPhase call.cell .registering) (⟨call, none⟩ :: rs)
  | publish {l : Ledger n} {rs : List (Registration n κ)} (call : Call n κ) :
      Change l (⟨call, none⟩ :: rs) [call.cell]
        ((l.allocate call.request.header).publish call.cell l.store.fresh)
        (⟨call, some l.store.fresh⟩ :: rs)
  /-- The writing of a descriptor fails on the way. -/
  | spoil {l : Ledger n} {rs : List (Registration n κ)} (call : Call n κ) (d : DescriptorRef)
      (memory : Descriptor)
      (hmemory : (l.store.get d).Unfinished call.request → memory.Unfinished call.request) :
      Change l (⟨call, some d⟩ :: rs) [] (l.overwrite d memory) (⟨call, some d⟩ :: rs)
  | finish {l : Ledger n} {rs : List (Registration n κ)} (call : Call n κ) (d : DescriptorRef)
      (memory : Descriptor)
      (hmemory : (l.store.get d).Unfinished call.request → memory.Finished) :
      Change l (⟨call, some d⟩ :: rs) []
        ((l.overwrite d memory).setPhase call.cell .registered) rs
  | abandon {l : Ledger n} {rs : List (Registration n κ)} (r : Registration n κ) :
      Change l (r :: rs) [] (l.abandon r) rs

namespace Point

/-- The ledger at a point. -/
def ledger (p : Point n κ) : Ledger n := p.session.ledger

section Steps

variable {call : Call n κ} {resume : Except Fault DescriptorRef → Client n κ β}
  {callers : Callers n κ β} {s : Session n κ}

theorem announced_change (hfree : (s.ledger.cell call.cell).phase = .unclaimed) :
    Change s.ledger callers.registrations []
      (announced call resume callers (s.setPhase call.cell .registering)).ledger
      (announced call resume callers (s.setPhase call.cell .registering)).registrations := by
  unfold announced
  cases (s.setPhase call.cell .registering).listener with
  | none => exact .claim call hfree
  | some listener => exact .claim call hfree

theorem arrive_change :
    Change s.ledger callers.registrations [] (arrive call resume callers s).ledger
      (arrive call resume callers s).registrations := by
  cases hentry : s.entry call.cell with
  | found d =>
    rw [arrive_of_found hentry]
    exact .idle
  | refused fault =>
    rw [arrive_of_refused hentry]
    exact .idle
  | free =>
    rw [arrive_of_free hentry]
    exact announced_change (Cell.phase_of_entry_free hentry)

theorem proceed_change :
    Change s.ledger (⟨call, none⟩ :: callers.registrations)
      (if (Descriptor.layout? call.request.slotCount).isSome then [call.cell] else [])
      (proceed call resume callers s).ledger (proceed call resume callers s).registrations := by
  unfold proceed
  cases Descriptor.layout? call.request.slotCount with
  | none => exact .idle
  | some layout => exact .publish call

theorem returned_change (d : DescriptorRef) (parts : Parts) :
    Change s.ledger (⟨call, some d⟩ :: callers.registrations) []
      (returned call d parts resume callers s).ledger
      (returned call d parts resume callers s).registrations := by
  unfold returned
  split
  · have hmade := fun h : (s.store.get d).Unfinished call.request =>
      Descriptor.compose_finished_or_unfinished h parts
    revert hmade
    rcases (s.store.get d).compose 0 (call.request.blueprint parts) with ⟨fault | _, memory⟩
    · intro hmade
      refine .spoil call d memory fun h => ?_
      rcases hmade h with ⟨hok, _⟩ | ⟨_, hunfinished⟩
      · cases hok
      · exact hunfinished
    · intro hmade
      refine .finish call d memory fun h => ?_
      rcases hmade h with ⟨_, hfinished⟩ | ⟨⟨fault, hfault⟩, _⟩
      · exact hfinished
      · cases hfault
  · exact .idle

theorem construct_change (placement : Placement) (blueprint : Blueprint)
    (rs : List (Registration n κ)) :
    Change s.ledger rs [] (s.construct placement blueprint).2.ledger rs := by
  have hledger : (s.construct placement blueprint).2.ledger =
      { s.ledger with store := (s.store.construct placement blueprint).store } := by
    simp only [Session.construct, Session.ledger_logOutcome]
    rfl
  rw [hledger]
  rcases s.store.construct_cases placement blueprint with ⟨hstore, _⟩ | ⟨memory, hstore, _⟩
  · rw [hstore]
    exact .idle
  · rw [hstore]
    exact .allocate memory

end Steps

/-- A step does one of the changes. -/
theorem next_change {calls : κ → Call n κ} {p q : Point n κ} (h : p.next calls = some q) :
    Change p.ledger p.registrations p.calling q.ledger q.registrations := by
  cases p with
  | failing fault callers s =>
    cases callers with
    | outermost => cases h
    | announcing call resume rest =>
      cases h
      exact .abandon ⟨call, none⟩
    | building call d resume rest =>
      cases h
      exact .abandon ⟨call, some d⟩
  | running client callers s =>
    cases client with
    | done a =>
      cases callers with
      | outermost => cases h
      | announcing call resume rest =>
        cases h
        exact proceed_change
      | building call d resume rest =>
        cases h
        exact returned_change d a
    | fail fault =>
      cases callers with
      | outermost =>
        cases h
        exact .idle
      | announcing call resume rest =>
        cases h
        exact proceed_change
      | building call d resume rest =>
        cases h
        exact .idle
    | log line next =>
      cases h
      exact .idle
    | note event next =>
      cases h
      exact .idle
    | read d next =>
      cases h
      exact .idle
    | phase cell next =>
      cases h
      exact .idle
    | slot target discipline offset next =>
      cases h
      show Change _ _ _ (s.logOutcome _).ledger _
      rw [Session.ledger_logOutcome]
      exact .idle
    | construct placement blueprint next =>
      cases h
      exact construct_change placement blueprint _
    | lookup key next =>
      cases h
      exact arrive_change

/-- When the outermost code has ended, no registration is running. -/
theorem registrations_of_next_none {calls : κ → Call n κ} {p : Point n κ}
    (h : p.next calls = none) : p.registrations = [] ∧ p.calling = [] := by
  cases p with
  | failing fault callers s => cases callers <;> first | exact ⟨rfl, rfl⟩ | cases h
  | running client callers s =>
    cases client with
    | done a => cases callers <;> first | exact ⟨rfl, rfl⟩ | cases h
    | fail fault => cases callers <;> cases h
    | _ => cases h

/-- A move does one of the changes. -/
theorem Move.change {calls : κ → Call n κ} {p q : Point n κ} (h : Move calls p q) :
    Change p.ledger p.registrations p.calling q.ledger q.registrations := by
  cases h with
  | step hnext => exact next_change hnext
  | run client hend =>
    obtain ⟨hregistrations, hcalling⟩ := registrations_of_next_none hend
    rw [hregistrations, hcalling]
    exact .idle
  | request call hend =>
    obtain ⟨hregistrations, hcalling⟩ := registrations_of_next_none hend
    rw [hregistrations, hcalling]
    have harrive : Change p.ledger (.outermost : Callers n κ DescriptorRef).registrations []
        (Point.request call p.session).ledger (Point.request call p.session).registrations :=
      arrive_change
    exact harrive
  | listen listener hend =>
    obtain ⟨hregistrations, hcalling⟩ := registrations_of_next_none hend
    rw [hregistrations, hcalling]
    exact .idle

end Point

/-! ## Tracking -/

/-- The cell of a registration that is running. -/
structure Registration.Owns (r : Registration n κ) (store : Store) (c : Cell) : Prop where
  phase : c.phase = .registering
  address : c.address = r.address
  unfinished : ∀ d, r.address = some d → store.InBounds d ∧ (store.get d).Unfinished r.call.request

/-- A cell of which no registration is running. -/
def Cell.Settled (store : Store) (c : Cell) : Prop :=
  match c.phase with
  | .unclaimed => c.address = none
  | .registering => False
  | .registered => ∃ d, c.address = some d ∧ store.InBounds d ∧ (store.get d).Finished
  | .poisoned => ∀ d, c.address = some d → store.InBounds d ∧ (store.get d).Ruined

namespace Ledger

/-- Each registration that is running owns a cell, and all other cells are settled. -/
structure Tracks (l : Ledger n) (rs : List (Registration n κ)) : Prop where
  nodup : (rs.map (·.call.cell)).Nodup
  owns : ∀ r ∈ rs, r.Owns l.store (l.cell r.call.cell)
  settled : ∀ cell, cell ∉ rs.map (·.call.cell) → (l.cell cell).Settled l.store
  distinct : ∀ (cell other : Fin n) d, (l.cell cell).address = some d →
    (l.cell other).address = some d → cell = other

end Ledger

section Preservation

variable {l l' : Ledger n} {rs rs' : List (Registration n κ)} {r : Registration n κ}
  {store store' : Store} {c : Cell} {cell : Fin n} {d : DescriptorRef}

theorem Cell.Settled.inBounds (h : c.Settled store) (hd : c.address = some d) :
    store.InBounds d := by
  unfold Settled at h
  cases hphase : c.phase with
  | unclaimed =>
    simp only [hphase] at h
    rw [hd] at h
    cases h
  | registering => simp only [hphase] at h
  | registered =>
    simp only [hphase] at h
    obtain ⟨d', hd', hbounds, _⟩ := h
    rw [hd] at hd'
    cases hd'
    exact hbounds
  | poisoned =>
    simp only [hphase] at h
    exact (h d hd).1

/-- Other changes of the store do not matter to a settled cell. -/
theorem Cell.Settled.of_get (h : c.Settled store)
    (hsame : ∀ d, c.address = some d → store.InBounds d →
      store'.InBounds d ∧ store'.get d = store.get d) : c.Settled store' := by
  have hread : ∀ d, c.address = some d → store'.InBounds d ∧ store'.get d = store.get d :=
    fun d hd => hsame d hd (h.inBounds hd)
  unfold Settled at h ⊢
  cases hphase : c.phase with
  | unclaimed =>
    simp only [hphase] at h
    exact h
  | registering => simp only [hphase] at h
  | registered =>
    simp only [hphase] at h
    obtain ⟨d, hd, _, hfinished⟩ := h
    obtain ⟨hbounds, hget⟩ := hread d hd
    rw [← hget] at hfinished
    exact ⟨d, hd, hbounds, hfinished⟩
  | poisoned =>
    simp only [hphase] at h
    intro d hd
    obtain ⟨hbounds, hget⟩ := hread d hd
    rw [hget]
    exact ⟨hbounds, (h d hd).2⟩

theorem Registration.Owns.of_get (h : r.Owns store c)
    (hsame : ∀ d, c.address = some d → store.InBounds d →
      store'.InBounds d ∧ store'.get d = store.get d) : r.Owns store' c := by
  refine ⟨h.phase, h.address, ?_⟩
  intro d hd
  obtain ⟨hbounds, hunfinished⟩ := h.unfinished d hd
  obtain ⟨hbounds', hget⟩ := hsame d (h.address.trans hd) hbounds
  rw [hget]
  exact ⟨hbounds', hunfinished⟩

namespace Ledger

theorem Tracks.inBounds (h : l.Tracks rs) (hd : (l.cell cell).address = some d) :
    l.store.InBounds d := by
  by_cases hcell : cell ∈ rs.map (·.call.cell)
  · obtain ⟨r, hr, rfl⟩ := List.mem_map.1 hcell
    have howns := h.owns r hr
    exact (howns.unfinished d (howns.address.symm.trans hd)).1
  · exact (h.settled cell hcell).inBounds hd

/-- Only one cell changes, with the memory at its address; what holds of all others still
does. -/
theorem Tracks.of_others (h : l.Tracks rs) (cell : Fin n)
    (hcells : ∀ other, other ≠ cell → l'.cell other = l.cell other)
    (hread : ∀ other, other ≠ cell → ∀ d, (l.cell other).address = some d → l.store.InBounds d →
      l'.store.InBounds d ∧ l'.store.get d = l.store.get d)
    (hnodup : (rs'.map (·.call.cell)).Nodup)
    (hrs : ∀ r, r.call.cell ≠ cell → (r ∈ rs' ↔ r ∈ rs))
    (howns : ∀ r ∈ rs', r.call.cell = cell → r.Owns l'.store (l'.cell cell))
    (hsettled : cell ∉ rs'.map (·.call.cell) → (l'.cell cell).Settled l'.store)
    (hdistinct : ∀ other, other ≠ cell → ∀ d, (l'.cell cell).address = some d →
      (l.cell other).address ≠ some d) : l'.Tracks rs' := by
  constructor
  case nodup => exact hnodup
  case owns =>
    intro r hr
    by_cases hcell : r.call.cell = cell
    · rw [hcell]
      exact howns r hr hcell
    · rw [hcells _ hcell]
      exact (h.owns r ((hrs r hcell).1 hr)).of_get (hread _ hcell)
  case settled =>
    intro other hother
    by_cases hcell : other = cell
    · rw [hcell] at hother ⊢
      exact hsettled hother
    · rw [hcells _ hcell]
      refine (h.settled other ?_).of_get (hread _ hcell)
      intro hmem
      obtain ⟨r, hr, rfl⟩ := List.mem_map.1 hmem
      exact hother (List.mem_map.2 ⟨r, (hrs r hcell).2 hr, rfl⟩)
  case distinct =>
    intro x y d hx hy
    by_cases hxc : x = cell
    · by_cases hyc : y = cell
      · rw [hxc, hyc]
      · rw [hcells _ hyc] at hy
        rw [hxc] at hx
        exact absurd hy (hdistinct y hyc d hx)
    · by_cases hyc : y = cell
      · rw [hcells _ hxc] at hx
        rw [hyc] at hy
        exact absurd hx (hdistinct x hxc d hy)
      · rw [hcells _ hxc] at hx
        rw [hcells _ hyc] at hy
        exact h.distinct x y d hx hy

/-- The start is tracked. -/
theorem tracks_initial :
    (Session.initial : Session n κ).ledger.Tracks ([] : List (Registration n κ)) := by
  constructor
  case nodup => exact List.nodup_nil
  case owns => exact fun r hr => nomatch hr
  case settled =>
    intro cell _
    rw [cell_initial]
    rfl
  case distinct =>
    intro cell other d hd
    rw [cell_initial] at hd
    cases hd

/-- A registration of another cell is among the others. -/
theorem mem_cons_iff_of_cell_ne (r' : Registration n κ) (h : r'.call.cell ≠ r.call.cell) :
    r' ∈ r :: rs ↔ r' ∈ rs := by
  have hne : r' ≠ r := by
    rintro rfl
    exact h rfl
  rw [List.mem_cons]
  exact ⟨fun hmem => hmem.resolve_left hne, Or.inr⟩

theorem Tracks.allocate (h : l.Tracks rs) (memory : Descriptor) :
    (l.allocate memory).Tracks rs := by
  have hread : ∀ (c : Fin n) d, (l.cell c).address = some d → l.store.InBounds d →
      (l.allocate memory).store.InBounds d ∧
        (l.allocate memory).store.get d = l.store.get d := fun _ d _ hd =>
    ⟨hd.of_prefix Store.prefix_allocate, Store.get_of_prefix Store.prefix_allocate hd⟩
  constructor
  case nodup => exact h.nodup
  case owns => exact fun r hr => (h.owns r hr).of_get (hread _)
  case settled => exact fun cell hcell => (h.settled cell hcell).of_get (hread _)
  case distinct => exact h.distinct

theorem Tracks.address_of_unclaimed (h : l.Tracks rs) (hphase : (l.cell cell).phase = .unclaimed) :
    cell ∉ rs.map (·.call.cell) ∧ (l.cell cell).address = none := by
  have hcell : cell ∉ rs.map (·.call.cell) := by
    intro hmem
    obtain ⟨r, hr, rfl⟩ := List.mem_map.1 hmem
    rw [(h.owns r hr).phase] at hphase
    cases hphase
  have hsettled := h.settled cell hcell
  rw [Cell.Settled, hphase] at hsettled
  exact ⟨hcell, hsettled⟩

theorem Tracks.claim (h : l.Tracks rs) {call : Call n κ}
    (hfree : (l.cell call.cell).phase = .unclaimed) :
    (l.setPhase call.cell .registering).Tracks (⟨call, none⟩ :: rs) := by
  obtain ⟨hcell, haddress⟩ := h.address_of_unclaimed hfree
  apply h.of_others call.cell
  case hcells => exact fun other hother => cell_setPhase_ne _ hother
  case hread => exact fun _ _ d _ hd => ⟨hd, rfl⟩
  case hnodup => exact List.nodup_cons.2 ⟨hcell, h.nodup⟩
  case hrs => exact fun r hr => mem_cons_iff_of_cell_ne r hr
  case howns =>
    intro r hr hsame
    -- no other registration of the cell is running
    rcases List.mem_cons.1 hr with rfl | hold
    · rw [cell_setPhase_self, haddress]
      exact ⟨rfl, rfl, fun d hd => nomatch hd⟩
    · exact absurd (List.mem_map.2 ⟨r, hold, hsame⟩) hcell
  case hsettled => exact fun hmem => absurd (List.mem_cons_self ..) hmem
  case hdistinct =>
    intro other _ d hd
    rw [address_setPhase, haddress] at hd
    cases hd

/-- The latest registration is the only one of its cell. -/
theorem Tracks.notMem (h : l.Tracks (r :: rs)) : r.call.cell ∉ rs.map (·.call.cell) :=
  (List.nodup_cons.1 h.nodup).1

/-- The memory at the address of a cell is not that of any other. -/
theorem Tracks.get_overwrite (h : l.Tracks rs) (hcell : (l.cell cell).address = some d)
    (memory : Descriptor) (other : Fin n) (hother : other ≠ cell) (e : DescriptorRef)
    (he : (l.cell other).address = some e) (hbounds : l.store.InBounds e) :
    (l.overwrite d memory).store.InBounds e ∧
      (l.overwrite d memory).store.get e = l.store.get e := by
  have hne : e ≠ d := by
    rintro rfl
    exact hother (h.distinct other cell e he hcell)
  exact ⟨Store.inBounds_set.2 hbounds, Store.get_set_ne hne⟩

theorem Tracks.publish {call : Call n κ} (h : l.Tracks (⟨call, none⟩ :: rs)) :
    ((l.allocate call.request.header).publish call.cell l.store.fresh).Tracks
      (⟨call, some l.store.fresh⟩ :: rs) := by
  have howns := h.owns _ (List.mem_cons_self ..)
  have hget : (l.store.allocate call.request.header).get l.store.fresh = call.request.header :=
    Store.get_allocate_fresh
  apply h.of_others call.cell
  case hcells => exact fun other hother => cell_publish_ne _ hother
  case hread =>
    exact fun _ _ d _ hd =>
      ⟨hd.of_prefix Store.prefix_allocate, Store.get_of_prefix Store.prefix_allocate hd⟩
  case hnodup => exact h.nodup
  case hrs =>
    intro r hr
    rw [mem_cons_iff_of_cell_ne r hr, mem_cons_iff_of_cell_ne r hr]
  case howns =>
    intro r hr hsame
    rcases List.mem_cons.1 hr with rfl | hold
    · rw [cell_publish_self, cell_allocate, howns.phase]
      refine ⟨rfl, rfl, ?_⟩
      intro d hd
      cases hd
      refine ⟨Store.inBounds_allocate_fresh, ?_⟩
      rw [store_publish, store_allocate, hget]
      exact ⟨rfl, rfl, rfl, rfl⟩
    · exact absurd (List.mem_map.2 ⟨r, hold, hsame⟩) h.notMem
  case hsettled => exact fun hmem => absurd (List.mem_cons_self ..) hmem
  case hdistinct =>
    intro other _ d hd hother
    -- no cell has an address that was not handed out yet
    rw [cell_publish_self] at hd
    cases hd
    exact Store.not_inBounds_fresh (h.inBounds hother)

theorem Tracks.spoil {call : Call n κ} (h : l.Tracks (⟨call, some d⟩ :: rs)) {memory : Descriptor}
    (hmemory : (l.store.get d).Unfinished call.request → memory.Unfinished call.request) :
    (l.overwrite d memory).Tracks (⟨call, some d⟩ :: rs) := by
  have howns := h.owns _ (List.mem_cons_self ..)
  obtain ⟨hbounds, hunfinished⟩ := howns.unfinished d rfl
  apply h.of_others call.cell
  case hcells => exact fun other _ => rfl
  case hread => exact h.get_overwrite howns.address memory
  case hnodup => exact h.nodup
  case hrs => exact fun _ _ => Iff.rfl
  case howns =>
    intro r hr hsame
    rcases List.mem_cons.1 hr with rfl | hold
    · refine ⟨howns.phase, howns.address, ?_⟩
      intro e he
      cases he
      refine ⟨Store.inBounds_set.2 hbounds, ?_⟩
      rw [store_overwrite, Store.get_set_self hbounds]
      exact hmemory hunfinished
    · exact absurd (List.mem_map.2 ⟨r, hold, hsame⟩) h.notMem
  case hsettled => exact fun hmem => absurd (List.mem_cons_self ..) hmem
  case hdistinct =>
    intro other hother e he he'
    exact hother (h.distinct other call.cell e he' he)

/-- The latest registration writes its descriptor for the last time and ends. -/
theorem Tracks.settle (h : l.Tracks (r :: rs)) (hr : r.address = some d) {memory : Descriptor}
    {phase : Phase} (hsettled : l.store.InBounds d → (l.store.get d).Unfinished r.call.request →
      Cell.Settled (l.store.set d memory) ⟨some d, phase⟩) :
    ((l.overwrite d memory).setPhase r.call.cell phase).Tracks rs := by
  have howns := h.owns r (List.mem_cons_self ..)
  have haddress : (l.cell r.call.cell).address = some d := howns.address.trans hr
  obtain ⟨hbounds, hunfinished⟩ := howns.unfinished d hr
  apply h.of_others r.call.cell
  case hcells => exact fun other hother => cell_setPhase_ne _ hother
  case hread => exact h.get_overwrite haddress memory
  case hnodup => exact (List.nodup_cons.1 h.nodup).2
  case hrs => exact fun r' hr' => (mem_cons_iff_of_cell_ne r' hr').symm
  case howns => exact fun r' hr' hsame => absurd (List.mem_map.2 ⟨r', hr', hsame⟩) h.notMem
  case hsettled =>
    intro _
    rw [cell_setPhase_self, cell_overwrite, haddress]
    exact hsettled hbounds hunfinished
  case hdistinct =>
    intro other hother e he he'
    rw [address_setPhase, cell_overwrite] at he
    exact hother (h.distinct other r.call.cell e he' he)

theorem Tracks.finish {call : Call n κ} (h : l.Tracks (⟨call, some d⟩ :: rs))
    {memory : Descriptor}
    (hmemory : (l.store.get d).Unfinished call.request → memory.Finished) :
    ((l.overwrite d memory).setPhase call.cell .registered).Tracks rs := by
  refine h.settle rfl ?_
  intro hbounds hunfinished
  refine ⟨d, rfl, Store.inBounds_set.2 hbounds, ?_⟩
  rw [Store.get_set_self hbounds]
  exact hmemory hunfinished

theorem Tracks.abandon (h : l.Tracks (r :: rs)) : (l.abandon r).Tracks rs := by
  unfold Ledger.abandon
  cases haddress : r.address with
  | none =>
    have howns := h.owns r (List.mem_cons_self ..)
    apply h.of_others r.call.cell
    case hcells => exact fun other hother => cell_setPhase_ne _ hother
    case hread => exact fun _ _ d _ hd => ⟨hd, rfl⟩
    case hnodup => exact (List.nodup_cons.1 h.nodup).2
    case hrs => exact fun r' hr' => (mem_cons_iff_of_cell_ne r' hr').symm
    case howns => exact fun r' hr' hsame => absurd (List.mem_map.2 ⟨r', hr', hsame⟩) h.notMem
    case hsettled =>
      intro _
      rw [cell_setPhase_self, howns.address, haddress]
      exact fun d hd => nomatch hd
    case hdistinct =>
      intro other _ d hd
      rw [address_setPhase, howns.address, haddress] at hd
      cases hd
  | some d =>
    refine h.settle haddress ?_
    intro hbounds _ e he
    cases he
    rw [Store.get_set_self hbounds]
    exact ⟨Store.inBounds_set.2 hbounds, Descriptor.ruined_poison _⟩

end Ledger

/-- Every change keeps the ledger tracked. -/
theorem Change.tracks {built : List (Fin n)} (h : Change l rs built l' rs') (hl : l.Tracks rs) :
    l'.Tracks rs' := by
  cases h with
  | idle => exact hl
  | allocate memory => exact hl.allocate memory
  | claim call hfree => exact hl.claim hfree
  | publish call => exact hl.publish
  | spoil call d memory hmemory => exact hl.spoil hmemory
  | finish call d memory hmemory => exact hl.finish hmemory
  | abandon r => exact hl.abandon

end Preservation

namespace Point

/-- At every point of a run from the start the ledger is tracked. -/
theorem Run.tracks {calls : κ → Call n κ} {built : List (Fin n)} {p q : Point n κ}
    (h : Run calls p built q) (hp : p.ledger.Tracks p.registrations) :
    q.ledger.Tracks q.registrations := by
  induction h with
  | refl => exact hp
  | tail _ hmove ih => exact hmove.change.tracks ih

theorem tracks_start : (start : Point n κ).ledger.Tracks (start : Point n κ).registrations :=
  Ledger.tracks_initial

end Point

end TracedHeap
