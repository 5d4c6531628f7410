import Mathlib.Logic.Relation
import TracedHeap.Proofs.Registry.Memory
import TracedHeap.Registry.Session

/-! # The ledger of a registry

What matters of a session for the descriptors: the store and the cells of the types.

1. **Ledgers**: reading a cell, and each change that is made.
2. **Cells** that agree with the store.
3. **Availability**: a descriptor may be referred to once its address is published, or
   once it is initialized.  So descriptors refer to unfinished ones, but never to
   memory that nobody has claimed.
4. **Soundness**: the invariant, at any point of any registration (`Ledger.Sound`).
5. **Extension**: what code can do to the ledger while registrations outside of it are
   still running (`Ledger.Extends`).
6. **Changes**: the invariant is kept when a cell is claimed, when a descriptor is
   allocated, published, and when its registration ends.
7. **Registrations**: what one does to the ledger from its beginning to its end.
8. **Closure**: when no registration is running, all that descriptors lead to is finished
   or ruined.
-/

namespace TracedHeap

open Relation (ReflTransGen)

variable {n : Nat} {κ : Type}

/-! ## Ledgers -/

/-- The descriptors and the cells of a registry. -/
structure Ledger (n : Nat) where
  store : Store
  cells : Vector Cell n

/-- The ledger of a session. -/
def Session.ledger (s : Session n κ) : Ledger n := ⟨s.store, s.cells⟩

namespace Ledger

/-- The state of one type. -/
def cell (l : Ledger n) (c : Fin n) : Cell := l.cells.get c

/-- The state of one type is changed. -/
def setCell (l : Ledger n) (c : Fin n) (state : Cell) : Ledger n :=
  ⟨l.store, l.cells.set c state c.isLt⟩

/-- A type moves to another phase. -/
def setPhase (l : Ledger n) (c : Fin n) (phase : Phase) : Ledger n :=
  l.setCell c { l.cell c with phase }

/-- The address of a type is published. -/
def publish (l : Ledger n) (c : Fin n) (d : DescriptorRef) : Ledger n :=
  l.setCell c { l.cell c with address := some d }

/-- Memory is allocated for a descriptor. -/
def allocate (l : Ledger n) (memory : Descriptor) : Ledger n :=
  ⟨l.store.allocate memory, l.cells⟩

/-- The memory of a descriptor is written. -/
def overwrite (l : Ledger n) (d : DescriptorRef) (memory : Descriptor) : Ledger n :=
  ⟨l.store.set d memory, l.cells⟩

variable (l : Ledger n) (c : Fin n) (phase : Phase) (d : DescriptorRef) (memory : Descriptor)

@[simp] theorem store_setPhase : (l.setPhase c phase).store = l.store := rfl

@[simp] theorem store_publish : (l.publish c d).store = l.store := rfl

@[simp] theorem store_allocate : (l.allocate memory).store = l.store.allocate memory := rfl

@[simp] theorem store_overwrite : (l.overwrite d memory).store = l.store.set d memory := rfl

@[simp] theorem cell_allocate : (l.allocate memory).cell c = l.cell c := rfl

@[simp] theorem cell_overwrite : (l.overwrite d memory).cell c = l.cell c := rfl

@[simp] theorem overwrite_overwrite (memory' : Descriptor) :
    (l.overwrite d memory).overwrite d memory' = l.overwrite d memory' := by
  rw [overwrite, overwrite, overwrite, Store.set_set]

theorem overwrite_get : l.overwrite d (l.store.get d) = l := by
  rw [overwrite, Store.set_get]

theorem cell_setCell_self (state : Cell) : (l.setCell c state).cell c = state :=
  Vector.getElem_set_self c.isLt

@[simp] theorem cell_setPhase_self :
    (l.setPhase c phase).cell c = ⟨(l.cell c).address, phase⟩ :=
  l.cell_setCell_self c _

@[simp] theorem cell_publish_self : (l.publish c d).cell c = ⟨some d, (l.cell c).phase⟩ :=
  l.cell_setCell_self c _

variable {l c} {other : Fin n}

theorem cell_setCell_ne (state : Cell) (h : other ≠ c) :
    (l.setCell c state).cell other = l.cell other :=
  Vector.getElem_set_ne c.isLt other.isLt fun heq => h (Fin.ext heq.symm)

theorem cell_setPhase_ne (h : other ≠ c) : (l.setPhase c phase).cell other = l.cell other :=
  cell_setCell_ne _ h

theorem cell_publish_ne (h : other ≠ c) : (l.publish c d).cell other = l.cell other :=
  cell_setCell_ne _ h

/-- A change of phase leaves all addresses alone. -/
@[simp] theorem address_setPhase (other : Fin n) :
    ((l.setPhase c phase).cell other).address = (l.cell other).address := by
  by_cases h : other = c
  · rw [h, cell_setPhase_self]
  · rw [cell_setPhase_ne _ h]

end Ledger

/-! ## Cells -/

/-- What a cell says about its descriptor is true. -/
def Cell.Agrees (store : Store) (c : Cell) : Prop :=
  match c.phase with
  | .unclaimed => c.address = none
  | .registering =>
    ∀ d, c.address = some d → store.InBounds d ∧ (store.get d).initialized = false
  | .registered =>
    ∃ d, c.address = some d ∧ store.InBounds d ∧ (store.get d).initialized = true
  | .poisoned => ∀ d, c.address = some d → store.InBounds d ∧ (store.get d).Ruined

namespace Cell

variable {c : Cell} {store store' : Store} {d : DescriptorRef}

theorem Agrees.inBounds (h : c.Agrees store) (hd : c.address = some d) : store.InBounds d := by
  unfold Agrees at h
  cases hphase : c.phase with
  | unclaimed =>
    simp only [hphase] at h
    rw [hd] at h
    cases h
  | registering =>
    simp only [hphase] at h
    exact (h d hd).1
  | registered =>
    simp only [hphase] at h
    obtain ⟨d', hd', hbounds, _⟩ := h
    have hsame : d' = d := Option.some.inj (hd'.symm.trans hd)
    rw [← hsame]
    exact hbounds
  | poisoned =>
    simp only [hphase] at h
    exact (h d hd).1

/-- Other changes of the store do not matter to a cell. -/
theorem Agrees.of_get (h : c.Agrees store)
    (hsame : ∀ d, c.address = some d → store.InBounds d →
      store'.InBounds d ∧ store'.get d = store.get d) : c.Agrees store' := by
  have hread : ∀ d, c.address = some d → store'.InBounds d ∧ store'.get d = store.get d := by
    intro d hd
    exact hsame d hd (h.inBounds hd)
  unfold Agrees at h ⊢
  cases hphase : c.phase with
  | unclaimed =>
    simp only [hphase] at h
    exact h
  | registering =>
    simp only [hphase] at h
    intro d hd
    obtain ⟨hbounds, hget⟩ := hread d hd
    rw [hget]
    exact ⟨hbounds, (h d hd).2⟩
  | registered =>
    simp only [hphase] at h
    obtain ⟨d, hd, _, hinit⟩ := h
    obtain ⟨hbounds, hget⟩ := hread d hd
    rw [← hget] at hinit
    exact ⟨d, hd, hbounds, hinit⟩
  | poisoned =>
    simp only [hphase] at h
    intro d hd
    obtain ⟨hbounds, hget⟩ := hread d hd
    rw [hget]
    exact ⟨hbounds, (h d hd).2⟩

theorem Agrees.address_of_unclaimed (h : c.Agrees store) (hphase : c.phase = .unclaimed) :
    c.address = none := by
  rw [Agrees, hphase] at h
  exact h

theorem Agrees.of_registered (h : c.Agrees store) (hphase : c.phase = .registered) :
    ∃ d, c.address = some d ∧ store.InBounds d ∧ (store.get d).initialized = true := by
  rw [Agrees, hphase] at h
  exact h

theorem Agrees.phase_ne_unclaimed (h : c.Agrees store) (hd : c.address = some d) :
    c.phase ≠ .unclaimed := by
  intro hphase
  rw [h.address_of_unclaimed hphase] at hd
  cases hd

/-- What code does to a cell while the registrations around it are still running: it
leaves it alone if it was claimed, and does not leave it half registered. -/
structure Moves (before after : Cell) : Prop where
  claimed : before.phase ≠ .unclaimed → after = before
  free : before.phase = .unclaimed → after.phase ≠ .registering

theorem Moves.refl (c : Cell) : c.Moves c where
  claimed _ := rfl
  free h := by
    rw [h]
    decide

theorem Moves.trans {c c' c'' : Cell} (h : c.Moves c') (h' : c'.Moves c'') : c.Moves c'' where
  claimed hc := by
    have heq := h.claimed hc
    rw [← heq] at hc
    exact (h'.claimed hc).trans heq
  free hc := by
    by_cases hc' : c'.phase = .unclaimed
    · exact h'.free hc'
    · rw [h'.claimed hc']
      exact h.free hc

end Cell

namespace Ledger

variable {l l' : Ledger n} {d : DescriptorRef}

/-! ## Availability -/

/-- The address was given to everybody who asks for a type. -/
def Published (l : Ledger n) (d : DescriptorRef) : Prop :=
  ∃ cell : Fin n, (l.cell cell).address = some d

/-- The descriptor may be referred to. -/
def Available (l : Ledger n) (d : DescriptorRef) : Prop :=
  l.Published d ∨ l.store.InBounds d ∧ (l.store.get d).initialized = true

/-! ## Soundness -/

/-- What holds at any point of any registration. -/
structure Sound (l : Ledger n) : Prop where
  sentinel : l.store.descriptors[0]? = some .sentinel
  /-- A descriptor that is initialized is complete, and refers to what may be referred to. -/
  finished : ∀ d, l.store.InBounds d → (l.store.get d).initialized = true →
    (l.store.get d).Complete ∧ ∀ t ∈ (l.store.get d).targets, l.Available t
  agrees : ∀ cell : Fin n, (l.cell cell).Agrees l.store
  distinct : ∀ (cell other : Fin n) d, (l.cell cell).address = some d →
    (l.cell other).address = some d → cell = other

theorem Sound.available_boxed (hl : l.Sound) : l.Available .boxed := by
  right
  have hget : l.store.get .boxed = .sentinel := Store.get_of_getElem? hl.sentinel
  refine ⟨(List.getElem?_eq_some_iff.1 hl.sentinel).1, ?_⟩
  rw [hget]
  rfl

/-- What a finished descriptor leads to may be referred to. -/
theorem Sound.available_of_target (hl : l.Sound) (hinit : (l.store.get d).initialized = true)
    {t : DescriptorRef} (ht : t ∈ (l.store.get d).targets) : l.Available t := by
  by_cases hd : l.store.InBounds d
  · exact (hl.finished d hd hinit).2 t ht
  · -- the sentinel is read here, which leads to itself
    rw [Store.get_of_not_inBounds hd, Descriptor.targets_sentinel, List.mem_singleton] at ht
    rw [ht]
    exact hl.available_boxed

theorem Sound.published_inBounds (hl : l.Sound) (hd : l.Published d) : l.store.InBounds d := by
  rcases hd with ⟨cell, hcell⟩
  exact (hl.agrees cell).inBounds hcell

@[simp] theorem cell_initial (c : Fin n) :
    (Session.initial : Session n κ).ledger.cell c = .fresh := by
  exact Vector.getElem_replicate c.isLt

theorem sound_initial : (Session.initial : Session n κ).ledger.Sound := by
  constructor
  case sentinel => rfl
  case finished =>
    intro d hd _
    have hboxed : d = .boxed := by
      rcases d with ⟨i⟩
      have hi : i < 1 := hd
      exact congrArg DescriptorRef.mk (by omega)
    rw [hboxed]
    refine ⟨Descriptor.complete_sentinel, ?_⟩
    intro t ht
    rw [List.mem_singleton.1 ht]
    exact Or.inr ⟨Nat.zero_lt_one, rfl⟩
  case agrees =>
    intro cell
    rw [cell_initial]
    rfl
  case distinct =>
    intro cell other d hd
    rw [cell_initial] at hd
    cases hd

/-! ## Extension -/

/-- What code does to the ledger while the registrations around it are still running: it
writes no memory of before, and settles every cell that it claims. -/
structure Extends (l l' : Ledger n) : Prop where
  store : l.store.descriptors <+: l'.store.descriptors
  cells : ∀ cell : Fin n, (l.cell cell).Moves (l'.cell cell)

theorem Extends.refl (l : Ledger n) : l.Extends l :=
  ⟨List.prefix_refl _, fun _ => Cell.Moves.refl _⟩

theorem Extends.trans {l'' : Ledger n} (h : l.Extends l') (h' : l'.Extends l'') :
    l.Extends l'' :=
  ⟨h.store.trans h'.store, fun cell => (h.cells cell).trans (h'.cells cell)⟩

/-- What is available stays available. -/
theorem Extends.available (h : l.Extends l') (hl : l.Sound) (hd : l.Available d) :
    l'.Available d := by
  rcases hd with ⟨cell, hcell⟩ | ⟨hbounds, hinit⟩
  · left
    refine ⟨cell, ?_⟩
    -- a cell with an address is claimed, so that nobody touches it
    rw [(h.cells cell).claimed ((hl.agrees cell).phase_ne_unclaimed hcell)]
    exact hcell
  · right
    refine ⟨hbounds.of_prefix h.store, ?_⟩
    rw [Store.get_of_prefix h.store hbounds]
    exact hinit

/-! ## Changes -/

/-- A change that keeps the invariant, and leaves available what was. -/
structure Grows (l l' : Ledger n) : Prop where
  sound : l'.Sound
  available : ∀ t, l.Available t → l'.Available t

theorem Grows.trans {l'' : Ledger n} (h : l.Grows l') (h' : l'.Grows l'') : l.Grows l'' :=
  ⟨h'.sound, fun t ht => h'.available t (h.available t ht)⟩

theorem extends_allocate (l : Ledger n) (memory : Descriptor) :
    l.Extends (l.allocate memory) :=
  ⟨Store.prefix_allocate, fun _ => Cell.Moves.refl _⟩

/-- An allocation of memory that is unfinished, or complete with targets that are there. -/
theorem Sound.allocate (hl : l.Sound) {memory : Descriptor}
    (hmemory : memory.initialized = true →
      memory.Complete ∧ ∀ t ∈ memory.targets, l.Available t) :
    l.Grows (l.allocate memory) := by
  have hext := l.extends_allocate memory
  refine ⟨?_, fun t ht => hext.available hl ht⟩
  constructor
  case sentinel =>
    have hpos : 0 < l.store.descriptors.length := (List.getElem?_eq_some_iff.1 hl.sentinel).1
    show (l.store.descriptors ++ [memory])[0]? = _
    rw [List.getElem?_append_left hpos]
    exact hl.sentinel
  case finished =>
    intro d hd hinit
    simp only [store_allocate] at hd hinit ⊢
    -- the descriptor is one of before, or the new one
    rcases Store.inBounds_allocate hd with hold | rfl
    · rw [Store.get_of_prefix Store.prefix_allocate hold] at hinit ⊢
      obtain ⟨hcomplete, htargets⟩ := hl.finished d hold hinit
      exact ⟨hcomplete, fun t ht => hext.available hl (htargets t ht)⟩
    · rw [Store.get_allocate_fresh] at hinit ⊢
      obtain ⟨hcomplete, htargets⟩ := hmemory hinit
      exact ⟨hcomplete, fun t ht => hext.available hl (htargets t ht)⟩
  case agrees =>
    intro cell
    apply (hl.agrees cell).of_get
    intro d _ hd
    exact ⟨hd.of_prefix Store.prefix_allocate, Store.get_of_prefix Store.prefix_allocate hd⟩
  case distinct => exact hl.distinct

/-- A change of cells only, which takes no address back. -/
theorem Sound.of_cells (hl : l.Sound) (hstore : l'.store = l.store)
    (hpublished : ∀ t, l.Published t → l'.Published t)
    (hagrees : ∀ cell : Fin n, (l'.cell cell).Agrees l.store)
    (hdistinct : ∀ (cell other : Fin n) d, (l'.cell cell).address = some d →
      (l'.cell other).address = some d → cell = other) : l.Grows l' := by
  have havailable : ∀ t, l.Available t → l'.Available t := by
    rintro t (ht | hold)
    · exact Or.inl (hpublished t ht)
    · right
      rw [hstore]
      exact hold
  refine ⟨?_, havailable⟩
  constructor
  case sentinel =>
    rw [hstore]
    exact hl.sentinel
  case finished =>
    intro d hd hinit
    rw [hstore] at hd hinit ⊢
    obtain ⟨hcomplete, htargets⟩ := hl.finished d hd hinit
    exact ⟨hcomplete, fun t ht => havailable t (htargets t ht)⟩
  case agrees =>
    rw [hstore]
    exact hagrees
  case distinct => exact hdistinct

/-- A cell changes its phase, and what it says about its descriptor is still true. -/
theorem Sound.setPhase (hl : l.Sound) (cell : Fin n) {phase : Phase}
    (hagrees : Cell.Agrees l.store ⟨(l.cell cell).address, phase⟩) :
    l.Grows (l.setPhase cell phase) := by
  apply hl.of_cells (l.store_setPhase cell phase)
  case hpublished =>
    rintro t ⟨other, hother⟩
    exact ⟨other, (address_setPhase phase other).trans hother⟩
  case hagrees =>
    intro other
    by_cases h : other = cell
    · rw [h, cell_setPhase_self]
      exact hagrees
    · rw [cell_setPhase_ne _ h]
      exact hl.agrees other
  case hdistinct =>
    intro c c' d hc hc'
    rw [address_setPhase] at hc hc'
    exact hl.distinct c c' d hc hc'

/-- A cell whose registration is running publishes the address of memory that is unfinished
and that nobody else has. -/
theorem Sound.publish (hl : l.Sound) {cell : Fin n} (hphase : (l.cell cell).phase = .registering)
    (haddress : (l.cell cell).address = none) (hbounds : l.store.InBounds d)
    (hinit : (l.store.get d).initialized = false) (hnew : ¬ l.Published d) :
    l.Grows (l.publish cell d) := by
  apply hl.of_cells (l.store_publish cell d)
  case hpublished =>
    rintro t ⟨c, hc⟩
    refine ⟨c, ?_⟩
    -- the cell itself had no address before
    have hne : c ≠ cell := by
      rintro rfl
      rw [haddress] at hc
      cases hc
    rw [cell_publish_ne _ hne]
    exact hc
  case hagrees =>
    intro c
    by_cases h : c = cell
    · rw [h, cell_publish_self, Cell.Agrees, hphase]
      intro a ha
      cases ha
      exact ⟨hbounds, hinit⟩
    · rw [cell_publish_ne _ h]
      exact hl.agrees c
  case hdistinct =>
    intro c c' a hc hc'
    -- no two cells have the new address, for no other cell has it
    by_cases h : c = cell
    · by_cases h' : c' = cell
      · rw [h, h']
      · rw [h, cell_publish_self] at hc
        rw [cell_publish_ne _ h'] at hc'
        cases hc
        exact absurd ⟨c', hc'⟩ hnew
    · by_cases h' : c' = cell
      · rw [h', cell_publish_self] at hc'
        rw [cell_publish_ne _ h] at hc
        cases hc'
        exact absurd ⟨c, hc⟩ hnew
      · rw [cell_publish_ne _ h] at hc
        rw [cell_publish_ne _ h'] at hc'
        exact hl.distinct c c' a hc hc'

/-- How a registration ends: with a complete descriptor whose targets are there, or with a
ruined one. -/
def Settles (l : Ledger n) (memory : Descriptor) (phase : Phase) : Prop :=
  (phase = .registered ∧ memory.Complete ∧ ∀ t ∈ memory.targets, l.Available t) ∨
  (phase = .poisoned ∧ memory.Ruined)

/-- The cell of a registration that ends agrees with the descriptor. -/
theorem Settles.agrees {memory : Descriptor} {phase : Phase} (h : l.Settles memory phase)
    (hbounds : l.store.InBounds d) : Cell.Agrees (l.store.set d memory) ⟨some d, phase⟩ := by
  have hbounds' : (l.store.set d memory).InBounds d := Store.inBounds_set.2 hbounds
  have hget : (l.store.set d memory).get d = memory := Store.get_set_self hbounds
  rcases h with ⟨rfl, hcomplete, _⟩ | ⟨rfl, hruined⟩
  · refine ⟨d, rfl, hbounds', ?_⟩
    rw [hget]
    exact hcomplete.initialized
  · intro a ha
    cases ha
    rw [hget]
    exact ⟨hbounds', hruined⟩

/-- What is unfinished is not the sentinel. -/
theorem Sound.index_ne_zero (hl : l.Sound) (hinit : (l.store.get d).initialized = false) :
    d.index ≠ 0 := by
  intro hzero
  have hget : l.store.get d = .sentinel := by
    apply Store.get_of_getElem?
    rw [hzero]
    exact hl.sentinel
  rw [hget] at hinit
  cases hinit

/-- A registration that is running writes its descriptor and ends. -/
theorem Sound.settle (hl : l.Sound) {cell : Fin n} (hphase : (l.cell cell).phase = .registering)
    (haddress : (l.cell cell).address = some d) {memory : Descriptor} {phase : Phase}
    (hsettles : l.Settles memory phase) :
    l.Grows ((l.overwrite d memory).setPhase cell phase) := by
  have hagrees := hl.agrees cell
  rw [Cell.Agrees, hphase] at hagrees
  obtain ⟨hbounds, hinit⟩ := hagrees d haddress
  have havailable : ∀ t, l.Available t →
      ((l.overwrite d memory).setPhase cell phase).Available t := by
    rintro t (⟨c, hc⟩ | ⟨ht, hold⟩)
    · exact Or.inl ⟨c, (address_setPhase phase c).trans hc⟩
    · right
      refine ⟨Store.inBounds_set.2 ht, ?_⟩
      -- only the memory of this registration is written, which was unfinished
      have hne : t ≠ d := by
        rintro rfl
        rw [hinit] at hold
        cases hold
      rw [store_setPhase, store_overwrite, Store.get_set_ne hne]
      exact hold
  refine ⟨?_, havailable⟩
  constructor
  case sentinel =>
    show (l.store.descriptors.set d.index memory)[0]? = _
    rw [List.getElem?_set_ne (hl.index_ne_zero hinit)]
    exact hl.sentinel
  case finished =>
    intro e he hdone
    simp only [store_setPhase, store_overwrite] at he hdone ⊢
    by_cases h : e = d
    · rw [h, Store.get_set_self hbounds] at hdone ⊢
      rcases hsettles with ⟨_, hcomplete, htargets⟩ | ⟨_, hruined⟩
      · exact ⟨hcomplete, fun t ht => havailable t (htargets t ht)⟩
      · rw [hruined.uninitialized] at hdone
        cases hdone
    · rw [Store.get_set_ne h] at hdone ⊢
      obtain ⟨hcomplete, htargets⟩ := hl.finished e (Store.inBounds_set.1 he) hdone
      exact ⟨hcomplete, fun t ht => havailable t (htargets t ht)⟩
  case agrees =>
    intro c
    simp only [store_setPhase, store_overwrite]
    by_cases h : c = cell
    · rw [h, cell_setPhase_self, cell_overwrite, haddress]
      exact hsettles.agrees hbounds
    · rw [cell_setPhase_ne _ h]
      apply (hl.agrees c).of_get
      intro a ha hin
      -- another cell has another address
      have hne : a ≠ d := by
        rintro rfl
        exact h (hl.distinct c cell a ha haddress)
      exact ⟨Store.inBounds_set.2 hin, Store.get_set_ne hne⟩
  case distinct =>
    intro c c' a hc hc'
    rw [address_setPhase] at hc hc'
    exact hl.distinct c c' a hc hc'

/-! ## Registrations -/

/-- What a registration does to the ledger, from the claim of its cell to its end. -/
structure Settled (cell : Fin n) (l l' : Ledger n) : Prop where
  store : l.store.descriptors <+: l'.store.descriptors
  others : ∀ other : Fin n, other ≠ cell → (l.cell other).Moves (l'.cell other)
  settled : (l'.cell cell).phase = .registered ∨ (l'.cell cell).phase = .poisoned

/-- A registration that ends before it has reserved any memory. -/
theorem Extends.settled {cell : Fin n} (h : l.Extends l') {phase : Phase}
    (hphase : phase = .registered ∨ phase = .poisoned) :
    Settled cell l (l'.setPhase cell phase) := by
  refine ⟨h.store, ?_, ?_⟩
  · intro other hother
    rw [cell_setPhase_ne _ hother]
    exact h.cells other
  · rw [cell_setPhase_self]
    exact hphase

/-- A registration that reserves memory, builds, and writes that memory again. -/
theorem Extends.settled_reserved {cell : Fin n} {l₁ l₂ l₃ : Ledger n} (h : l₁.Extends l₂)
    {header memory : Descriptor} {phase : Phase}
    (hbuild : ((l₂.allocate header).publish cell d).Extends l₃)
    (hphase : phase = .registered ∨ phase = .poisoned) :
    Settled cell l₁ ((l₃.overwrite l₂.store.fresh memory).setPhase cell phase) := by
  -- the memory was reserved after the registration had begun
  have hprefix : l₁.store.descriptors <+: l₃.store.descriptors :=
    (h.store.trans Store.prefix_allocate).trans hbuild.store
  refine ⟨Store.prefix_set hprefix h.store.length_le, ?_, ?_⟩
  · intro other hother
    have hmoves := hbuild.cells other
    rw [cell_publish_ne _ hother] at hmoves
    rw [cell_setPhase_ne _ hother]
    exact (h.cells other).trans hmoves
  · rw [cell_setPhase_self]
    exact hphase

/-- Seen from outside, a registration settles the cell that it claimed. -/
theorem Settled.extends {cell : Fin n} {phase : Phase}
    (hfree : (l.cell cell).phase = .unclaimed)
    (h : Settled cell (l.setPhase cell phase) l') : l.Extends l' := by
  refine ⟨h.store, ?_⟩
  intro other
  by_cases hother : other = cell
  · rw [hother]
    refine ⟨fun hne => absurd hfree hne, ?_⟩
    intro _
    rcases h.settled with hphase | hphase
    · rw [hphase]
      decide
    · rw [hphase]
      decide
  · have hmoves := h.others other hother
    rw [cell_setPhase_ne _ hother] at hmoves
    exact hmoves

/-! ## Closure -/

/-- No registration is running. -/
def Quiet (l : Ledger n) : Prop := ∀ cell : Fin n, (l.cell cell).phase ≠ .registering

theorem quiet_initial : (Session.initial : Session n κ).ledger.Quiet := by
  intro cell
  rw [cell_initial]
  decide

theorem Extends.quiet (h : l.Extends l') (hquiet : l.Quiet) : l'.Quiet := by
  intro cell
  -- cells that are claimed on the way are settled, and others stay as they are
  by_cases hphase : (l.cell cell).phase = .unclaimed
  · exact (h.cells cell).free hphase
  · rw [(h.cells cell).claimed hphase]
    exact hquiet cell

/-- When no registration is running, whatever may be referred to is complete, or ruined by
a registration that failed. -/
theorem Sound.complete_or_ruined (hl : l.Sound) (hquiet : l.Quiet) (hd : l.Available d) :
    l.store.InBounds d ∧ ((l.store.get d).Complete ∨
      (l.store.get d).Ruined ∧ ∃ cell : Fin n, (l.cell cell).phase = .poisoned) := by
  rcases hd with ⟨cell, hcell⟩ | ⟨hbounds, hinit⟩
  · have hagrees := hl.agrees cell
    refine ⟨hagrees.inBounds hcell, ?_⟩
    cases hphase : (l.cell cell).phase with
    | unclaimed => exact absurd hphase (hagrees.phase_ne_unclaimed hcell)
    | registering => exact absurd hphase (hquiet cell)
    | registered =>
      left
      obtain ⟨d', hd', hbounds, hinit⟩ := hagrees.of_registered hphase
      rw [hcell] at hd'
      cases hd'
      exact (hl.finished d hbounds hinit).1
    | poisoned =>
      right
      rw [Cell.Agrees, hphase] at hagrees
      exact ⟨(hagrees d hcell).2, cell, hphase⟩
  · exact ⟨hbounds, Or.inl (hl.finished d hbounds hinit).1⟩

/-- When no registration is running, whatever may be referred to leads only to what may be
referred to. -/
theorem Sound.available_of_leads (hl : l.Sound) (hquiet : l.Quiet) {e : DescriptorRef}
    (hd : l.Available d) (hleads : ReflTransGen l.store.Leads d e) : l.Available e := by
  induction hleads with
  | refl => exact hd
  | @tail mid e _ hlead ih =>
    rcases hl.complete_or_ruined hquiet ih with ⟨hbounds, hcomplete | ⟨hruined, _⟩⟩
    · exact (hl.finished mid hbounds hcomplete.initialized).2 e hlead
    · -- a ruined descriptor leads to the sentinel only
      rw [Store.Leads, hruined.targets, List.mem_singleton] at hlead
      rw [hlead]
      exact hl.available_boxed

end Ledger

end TracedHeap
