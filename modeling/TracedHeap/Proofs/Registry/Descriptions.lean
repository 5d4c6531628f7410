import TracedHeap.Proofs.Registry.Changes

/-! # Declarations and descriptors

What a descriptor of a declared type is to say does not depend on the order in which types
are asked for, although that order decides which of them are found unfinished.

1. **Demands**: the declarations that are illegal, and those that lead to an illegal one.
2. **Descriptions**: a descriptor that says what is declared.
3. **Truth**: what the ledger says of the declared types at any point of their registrations
   (`Ledger.Truthful`).  It is relative to the ledger in which they were declared.
4. **Changes** that keep it: a descriptor is reserved, written, or given up.
5. **The sentinel** is never the descriptor of a type.
-/

namespace TracedHeap

open Relation (ReflTransGen)

variable {n : Nat} {κ : Type}

/-- All members of a type, the element of its array first. -/
def Declaration.handles {τ : Type} (declaration : Declaration τ) : List (Member τ) :=
  declaration.array.toList ++ declaration.members

namespace Ledger

/-! ## Demands -/

section Demands

variable (l : Ledger n) (declared : Fin n → Declaration (Fin n))

/-- Nobody has asked for the type yet. -/
def Fresh (i : Fin n) : Prop := (l.cell i).phase = .unclaimed

/-- Whether the objects of a type end in an array: as its descriptor says if it has one, and
as is declared otherwise. -/
def endsInArray (t : Fin n) : Bool :=
  match (l.cell t).address with
  | some d => (l.store.get d).hasArray
  | none => (declared t).hasArray

/-- The member is stored by value, although its target is the sentinel or a type whose
objects end in an array. -/
def Misplaced (m : Member (Fin n)) : Prop :=
  m.discipline = .value ∧
    (m.target = .boxed ∨ ∃ t, m.target = .type t ∧ l.endsInArray declared t = true)

/-- The type cannot be registered as it is declared. -/
def Illegal (i : Fin n) : Prop :=
  l.Fresh i ∧
    (Descriptor.layout? (declared i).members.length = none ∨
      ((declared i).size = 0 ∧ (declared i).hasArray = false ∧ (declared i).members ≠ []) ∨
      ∃ m ∈ (declared i).handles, l.Misplaced declared m)

/-- A type that is yet to be registered has a member that refers to another type. -/
def RefersTo (i t : Fin n) : Prop :=
  l.Fresh i ∧ ∃ m ∈ (declared i).handles, m.target = .type t

instance (i : Fin n) : Decidable (l.Fresh i) := inferInstanceAs (Decidable (_ = _))

instance (m : Member (Fin n)) : Decidable (l.Misplaced declared m) :=
  inferInstanceAs (Decidable (_ ∧ (_ ∨ ∃ t, m.target = .type t ∧ _)))

instance (i : Fin n) : Decidable (l.Illegal declared i) :=
  inferInstanceAs (Decidable (_ ∧ (_ ∨ (_ ∧ _ ∧ _) ∨
    ∃ m ∈ (declared i).handles, l.Misplaced declared m)))

instance (i t : Fin n) : Decidable (l.RefersTo declared i t) :=
  inferInstanceAs (Decidable (_ ∧ ∃ m ∈ (declared i).handles, m.target = .type t))

/-- An illegal type can be reached from the type. -/
def ReachesIllegal (i : Fin n) : Prop :=
  ∃ j, ReflTransGen (l.RefersTo declared) i j ∧ l.Illegal declared j

end Demands

theorem ReachesIllegal.of_refersTo {l : Ledger n} {declared : Fin n → Declaration (Fin n)}
    {i t : Fin n} (ht : l.ReachesIllegal declared t) (hrefers : l.RefersTo declared i t) :
    l.ReachesIllegal declared i := by
  obtain ⟨j, hreaches, hillegal⟩ := ht
  exact ⟨j, .head hrefers hreaches, hillegal⟩

/-! ## Descriptions -/

/-- The descriptor of a target. -/
def target? (l : Ledger n) : Target (Fin n) → Option DescriptorRef
  | .boxed => some .boxed
  | .type t => (l.cell t).address

/-- The slot of a member. -/
def slot? (l : Ledger n) (m : Member (Fin n)) : Option Slot :=
  (l.target? m.target).map fun d => ⟨some d, m.discipline, m.offset⟩

/-- The array slot of a type. -/
def array? (l : Ledger n) : Option (Member (Fin n)) → Option Slot
  | none => some .empty
  | some m => l.slot? m

/-- A descriptor says exactly what is declared. -/
structure Describes (l : Ledger n) (declaration : Declaration (Fin n)) (memory : Descriptor) :
    Prop where
  size : memory.size = declaration.size
  hasArray : memory.hasArray = declaration.hasArray
  array : l.array? declaration.array = some memory.array
  slots : declaration.members.map l.slot? = memory.slots.map some

/-- Addresses that are published stay. -/
def Keeps (l l' : Ledger n) : Prop :=
  ∀ (i : Fin n) d, (l.cell i).address = some d → (l'.cell i).address = some d

section Keeps

variable {l l' : Ledger n}

/-- Code inside of other registrations leaves published addresses alone. -/
theorem Extends.keeps (h : l.Extends l') (hl : l.Sound) : l.Keeps l' := by
  intro i d hd
  rw [(h.cells i).claimed ((hl.agrees i).phase_ne_unclaimed hd)]
  exact hd

theorem Keeps.slot (h : l.Keeps l') {m : Member (Fin n)} {slot : Slot}
    (hslot : l.slot? m = some slot) : l'.slot? m = some slot := by
  unfold slot? at hslot ⊢
  cases htarget : m.target with
  | boxed =>
    rw [htarget] at hslot
    exact hslot
  | type t =>
    rw [htarget] at hslot
    obtain ⟨d, hd, hmade⟩ := Option.map_eq_some_iff.1 hslot
    exact Option.map_eq_some_iff.2 ⟨d, h t d hd, hmade⟩

theorem Keeps.array (h : l.Keeps l') {element : Option (Member (Fin n))} {slot : Slot}
    (harray : l.array? element = some slot) : l'.array? element = some slot := by
  cases element with
  | none => exact harray
  | some m => exact h.slot harray

theorem Keeps.slots (h : l.Keeps l') {members : List (Member (Fin n))} {slots : List Slot}
    (hslots : members.map l.slot? = slots.map some) : members.map l'.slot? = slots.map some := by
  induction members generalizing slots with
  | nil => exact hslots
  | cons m rest ih =>
    cases slots with
    | nil => cases hslots
    | cons slot slots =>
      simp only [List.map_cons, List.cons.injEq] at hslots ⊢
      exact ⟨h.slot hslots.1, ih hslots.2⟩

theorem Keeps.describes (h : l.Keeps l') {declaration : Declaration (Fin n)}
    {memory : Descriptor} (hmemory : l.Describes declaration memory) :
    l'.Describes declaration memory :=
  ⟨hmemory.size, hmemory.hasArray, h.array hmemory.array, h.slots hmemory.slots⟩

end Keeps

/-- A type with an address is registered, unless its registration is running or has failed. -/
theorem Sound.eq_registered {l : Ledger n} (hl : l.Sound) {i : Fin n} {d : DescriptorRef}
    (haddress : (l.cell i).address = some d) (hrunning : (l.cell i).phase ≠ .registering)
    (hfailed : (l.cell i).phase ≠ .poisoned) : l.cell i = ⟨some d, .registered⟩ := by
  have hclaimed := (hl.agrees i).phase_ne_unclaimed haddress
  rcases hcell : l.cell i with ⟨address, phase⟩
  rw [hcell] at haddress hrunning hfailed hclaimed
  cases phase with
  | unclaimed => exact absurd rfl hclaimed
  | registering => exact absurd rfl hrunning
  | registered => exact congrArg (Cell.mk · .registered) haddress
  | poisoned => exact absurd rfl hfailed

/-! ## Truth -/

section Truth

variable (declared : Fin n → Declaration (Fin n)) (base : Ledger n)

/-- The ledger in which types are declared.  No registration is running, no type has the
sentinel as its descriptor, and no declared type refers to a type whose registration has
failed. -/
structure Ready : Prop where
  sound : base.Sound
  quiet : base.Quiet
  apart : ∀ (i : Fin n) d, (base.cell i).address = some d → d ≠ .boxed
  targets : ∀ i t, base.RefersTo declared i t → (base.cell t).phase ≠ .poisoned

/-- What the cell of one declared type says is true. -/
structure TruthfulAt (l : Ledger n) (i : Fin n) (state : Cell) : Prop where
  published : state.phase = .registering → state.address ≠ none
  /-- The memory is new, and begins with the header that is declared. -/
  header : ∀ d, state.address = some d → ¬ base.store.InBounds d ∧
    (l.store.get d).size = (declared i).size ∧ (l.store.get d).hasArray = (declared i).hasArray
  registered : ∀ d, state = ⟨some d, .registered⟩ →
    ¬ base.Illegal declared i ∧ l.Describes (declared i) (l.store.get d)
  poisoned : state.phase = .poisoned → base.ReachesIllegal declared i

/-- What the ledger says of the declared types is true, and everything else is as it was when
they were declared. -/
structure Truthful (l : Ledger n) : Prop where
  store : base.store.descriptors <+: l.store.descriptors
  kept : ∀ i, ¬ base.Fresh i → l.cell i = base.cell i
  types : ∀ i, base.Fresh i → TruthfulAt declared base l i (l.cell i)

end Truth

section Changes

variable {declared : Fin n → Declaration (Fin n)} {base l l' : Ledger n} {c : Fin n}

theorem Ready.address_of_fresh (hbase : Ready declared base) {i : Fin n} (hi : base.Fresh i) :
    (base.cell i).address = none :=
  (hbase.sound.agrees i).address_of_unclaimed hi

/-- A cell without an address says nothing, unless its registration has failed. -/
theorem truthfulAt_none {i : Fin n} {phase : Phase} (hrunning : phase ≠ .registering)
    (hfailed : phase = .poisoned → base.ReachesIllegal declared i) :
    TruthfulAt declared base l i ⟨none, phase⟩ where
  published h := absurd h hrunning
  header _ h := nomatch h
  registered _ h := nomatch h
  poisoned := hfailed

/-- In the beginning nothing is said of the declared types. -/
theorem Ready.truthful (hbase : Ready declared base) : Truthful declared base base := by
  refine ⟨List.prefix_refl _, fun _ _ => rfl, ?_⟩
  intro i hi
  have hcell : base.cell i = ⟨none, .unclaimed⟩ := by
    rw [← hbase.address_of_fresh hi, ← show (base.cell i).phase = .unclaimed from hi]
  rw [hcell]
  exact truthfulAt_none (by decide) nofun

/-- Which objects end in an array never changes, so that by-value members are checked alike at
any point. -/
theorem Truthful.endsInArray_eq (h : Truthful declared base l) (hbase : Ready declared base)
    (t : Fin n) : l.endsInArray declared t = base.endsInArray declared t := by
  unfold endsInArray
  by_cases ht : base.Fresh t
  · rw [hbase.address_of_fresh ht]
    cases haddress : (l.cell t).address with
    | none => rfl
    | some d => exact ((h.types t ht).header d haddress).2.2
  · rw [h.kept t ht]
    cases haddress : (base.cell t).address with
    | none => rfl
    | some d =>
      have hbounds := (hbase.sound.agrees t).inBounds haddress
      exact congrArg (·.hasArray) (Store.get_of_prefix h.store hbounds)

/-- No type has the sentinel as its descriptor. -/
theorem Truthful.ne_boxed (h : Truthful declared base l) (hbase : Ready declared base) {t : Fin n}
    {d : DescriptorRef} (hd : (l.cell t).address = some d) : d ≠ .boxed := by
  by_cases ht : base.Fresh t
  · rintro rfl
    -- the sentinel is older than the declarations
    have hsentinel : base.store.InBounds .boxed :=
      (List.getElem?_eq_some_iff.1 hbase.sound.sentinel).1
    exact ((h.types t ht).header .boxed hd).1 hsentinel
  · rw [h.kept t ht] at hd
    exact hbase.apart t d hd

/-- Only declared types are free. -/
theorem Truthful.fresh_of_free (h : Truthful declared base l)
    (hphase : (l.cell c).phase = .unclaimed) : base.Fresh c := by
  by_contra hc
  rw [h.kept c hc] at hphase
  exact hc hphase

/-- A type whose registration has failed was declared, unless it had failed before. -/
theorem Truthful.reachesIllegal (h : Truthful declared base l)
    (hphase : (l.cell c).phase = .poisoned) (hwell : (base.cell c).phase ≠ .poisoned) :
    base.ReachesIllegal declared c := by
  by_cases hc : base.Fresh c
  · exact (h.types c hc).poisoned hphase
  · rw [h.kept c hc] at hphase
    exact absurd hphase hwell

/-- A type is refused only if its registration has failed. -/
theorem Truthful.poisoned_of_refused (h : Truthful declared base l) (hbase : Ready declared base)
    (hl : l.Sound) {fault : Fault} (hentry : (l.cell c).entry = .refused fault) :
    (l.cell c).phase = .poisoned := by
  unfold Cell.entry at hentry
  split at hentry
  · split at hentry
    · assumption
    · cases hentry
  · rename_i haddress
    cases hphase : (l.cell c).phase with
    | poisoned => rfl
    | unclaimed =>
      simp only [hphase] at hentry
      cases hentry
    | registering =>
      by_cases hc : base.Fresh c
      · exact absurd haddress ((h.types c hc).published hphase)
      · rw [h.kept c hc] at hphase
        exact absurd hphase (hbase.quiet c)
    | registered =>
      obtain ⟨d, hd, _⟩ := (hl.agrees c).of_registered hphase
      rw [haddress] at hd
      cases hd

/-! ## Changes -/

/-- What a cell says stays true if its memory stays as it is. -/
theorem TruthfulAt.of_same {i : Fin n} {state : Cell} (h : TruthfulAt declared base l i state)
    (hkeeps : l.Keeps l') (hmemory : ∀ d, state.address = some d → l'.store.get d = l.store.get d) :
    TruthfulAt declared base l' i state := by
  refine ⟨h.published, ?_, ?_, h.poisoned⟩
  · intro d hd
    rw [hmemory d hd]
    exact h.header d hd
  · intro d hd
    obtain ⟨hlegal, hdescribes⟩ := h.registered d hd
    rw [hmemory d (congrArg (·.address) hd)]
    exact ⟨hlegal, hkeeps.describes hdescribes⟩

/-- One declared type changes, and what is said of it is true. -/
theorem Truthful.change (h : Truthful declared base l) (hc : base.Fresh c)
    (hstore : base.store.descriptors <+: l'.store.descriptors)
    (hothers : ∀ i, i ≠ c → l'.cell i = l.cell i)
    (haddress : ∀ d, (l.cell c).address = some d → (l'.cell c).address = some d)
    (hmemory : ∀ i, i ≠ c → ∀ d, (l.cell i).address = some d → l'.store.get d = l.store.get d)
    (htrue : TruthfulAt declared base l' c (l'.cell c)) : Truthful declared base l' := by
  have hkeeps : l.Keeps l' := by
    intro i d hd
    by_cases hi : i = c
    · rw [hi] at hd ⊢
      exact haddress d hd
    · rw [hothers i hi]
      exact hd
  refine ⟨hstore, ?_, ?_⟩
  · intro i hi
    have hne : i ≠ c := by
      rintro rfl
      exact hi hc
    rw [hothers i hne]
    exact h.kept i hi
  · intro i hi
    by_cases hne : i = c
    · rw [hne]
      exact htrue
    · rw [hothers i hne]
      exact (h.types i hi).of_same hkeeps (hmemory i hne)

/-- A type is claimed, and its descriptor is reserved with the header that is declared. -/
theorem Truthful.reserve (h : Truthful declared base l) (hl : l.Sound)
    (hphase : (l.cell c).phase = .unclaimed) {memory : Descriptor}
    (hsize : memory.size = (declared c).size)
    (hhasArray : memory.hasArray = (declared c).hasArray) :
    Truthful declared base
      (((l.setPhase c .registering).allocate memory).publish c l.store.fresh) := by
  have haddress : (l.cell c).address = none := (hl.agrees c).address_of_unclaimed hphase
  have hstore : base.store.descriptors <+: (l.store.allocate memory).descriptors :=
    h.store.trans Store.prefix_allocate
  refine h.change (c := c) (h.fresh_of_free hphase) hstore ?_ ?_ ?_ ?_
  · intro i hi
    rw [cell_publish_ne _ hi, cell_allocate, cell_setPhase_ne _ hi]
  · intro d hd
    rw [haddress] at hd
    cases hd
  · intro i _ d hd
    exact Store.get_of_prefix Store.prefix_allocate ((hl.agrees i).inBounds hd)
  · rw [cell_publish_self, cell_allocate, cell_setPhase_self]
    refine ⟨fun _ => Option.some_ne_none _, ?_, nofun, nofun⟩
    intro d hd
    cases hd
    have hget : (l.store.allocate memory).get l.store.fresh = memory := Store.get_allocate_fresh
    exact ⟨Nat.not_lt_of_le h.store.length_le, (congrArg (·.size) hget).trans hsize,
      (congrArg (·.hasArray) hget).trans hhasArray⟩

/-- A type is claimed, for whose descriptor there is no memory. -/
theorem Truthful.refuse (h : Truthful declared base l) (hl : l.Sound)
    (hphase : (l.cell c).phase = .unclaimed) (hillegal : base.ReachesIllegal declared c) :
    Truthful declared base ((l.setPhase c .registering).setPhase c .poisoned) := by
  have haddress : (l.cell c).address = none := (hl.agrees c).address_of_unclaimed hphase
  refine h.change (c := c) (h.fresh_of_free hphase) h.store ?_ ?_ (fun _ _ _ _ => rfl) ?_
  · intro i hi
    rw [cell_setPhase_ne _ hi, cell_setPhase_ne _ hi]
  · intro d hd
    rw [haddress] at hd
    cases hd
  · rw [cell_setPhase_self, cell_setPhase_self, haddress]
    exact truthfulAt_none (by decide) fun _ => hillegal

/-- A registration ends: the descriptor is written as declared, or given up with its header. -/
theorem Truthful.settle (h : Truthful declared base l) (hl : l.Sound) (hc : base.Fresh c)
    {d : DescriptorRef} (hcell : l.cell c = ⟨some d, .registering⟩) {memory : Descriptor}
    {phase : Phase} (hend : phase ≠ .registering) (hsize : memory.size = (declared c).size)
    (hhasArray : memory.hasArray = (declared c).hasArray)
    (hregistered : phase = .registered →
      ¬ base.Illegal declared c ∧ l.Describes (declared c) memory)
    (hpoisoned : phase = .poisoned → base.ReachesIllegal declared c) :
    Truthful declared base ((l.overwrite d memory).setPhase c phase) := by
  have haddress : (l.cell c).address = some d := congrArg (·.address) hcell
  have hnew : ¬ base.store.InBounds d := ((h.types c hc).header d haddress).1
  have hget : (l.store.set d memory).get d = memory :=
    Store.get_set_self ((hl.agrees c).inBounds haddress)
  have hkeeps : l.Keeps ((l.overwrite d memory).setPhase c phase) := fun i e he =>
    (address_setPhase phase i).trans he
  refine h.change (c := c) hc (Store.prefix_set h.store (Nat.le_of_not_lt hnew)) ?_
    (fun e he => hkeeps c e he) ?_ ?_
  · intro i hi
    rw [cell_setPhase_ne _ hi, cell_overwrite]
  · intro i hi e he
    -- another type has other memory
    refine Store.get_set_ne ?_
    rintro rfl
    exact hi (hl.distinct i c e he haddress)
  · rw [cell_setPhase_self, cell_overwrite, haddress]
    refine ⟨fun hphase => absurd hphase hend, ?_, ?_, hpoisoned⟩
    · intro e he
      cases he
      rw [store_setPhase, store_overwrite, hget]
      exact ⟨hnew, hsize, hhasArray⟩
    · intro e he
      cases he
      obtain ⟨hlegal, hdescribes⟩ := hregistered rfl
      rw [store_setPhase, store_overwrite, hget]
      exact ⟨hlegal, hkeeps.describes hdescribes⟩

end Changes

/-! ## The sentinel -/

/-- The sentinel has an address that no type has. -/
structure Apart (l : Ledger n) : Prop where
  sentinel : l.store.InBounds .boxed
  types : ∀ (i : Fin n) d, (l.cell i).address = some d → d ≠ .boxed

theorem Apart.of_addresses {l l' : Ledger n} (h : l.Apart) (hstore : l'.store.InBounds .boxed)
    (haddress : ∀ i : Fin n, (l'.cell i).address = (l.cell i).address) : l'.Apart := by
  refine ⟨hstore, ?_⟩
  intro i d hd
  rw [haddress i] at hd
  exact h.types i d hd

end Ledger

theorem Change.apart {l l' : Ledger n} {rs rs' : List (Registration n κ)} {now : List (Fin n)}
    (h : Change l rs now l' rs') (hl : l.Apart) : l'.Apart := by
  cases h with
  | idle => exact hl
  | allocate memory => exact ⟨hl.sentinel.of_prefix Store.prefix_allocate, hl.types⟩
  | claim call => exact hl.of_addresses hl.sentinel fun i => Ledger.address_setPhase _ i
  | publish call =>
    refine ⟨hl.sentinel.of_prefix Store.prefix_allocate, ?_⟩
    intro i d hd
    by_cases hi : i = call.cell
    · rw [hi, Ledger.cell_publish_self] at hd
      cases hd
      -- the address is fresh, and that of the sentinel is not
      intro hboxed
      have hsentinel := hl.sentinel
      rw [← hboxed] at hsentinel
      exact Store.not_inBounds_fresh hsentinel
    · rw [Ledger.cell_publish_ne _ hi] at hd
      exact hl.types i d hd
  | spoil call d memory => exact ⟨Store.inBounds_set.2 hl.sentinel, hl.types⟩
  | finish call d memory =>
    exact hl.of_addresses (Store.inBounds_set.2 hl.sentinel) fun i => Ledger.address_setPhase _ i
  | abandon r =>
    unfold Ledger.abandon
    cases r.address with
    | none => exact hl.of_addresses hl.sentinel fun i => Ledger.address_setPhase _ i
    | some d =>
      exact hl.of_addresses (Store.inBounds_set.2 hl.sentinel) fun i => Ledger.address_setPhase _ i

theorem Point.Run.apart {calls : κ → Call n κ} {p q : Point n κ} {built : List (Fin n)}
    (h : Run calls p built q) (hp : p.ledger.Apart) : q.ledger.Apart := by
  induction h with
  | refl => exact hp
  | tail _ hmove ih => exact hmove.change.apart ih

theorem Point.apart_start : (start : Point n κ).ledger.Apart := by
  refine ⟨Nat.zero_lt_one, ?_⟩
  intro i d hd
  have hnone : ((Session.initial : Session n κ).ledger.cell i).address = none := by
    rw [Ledger.cell_initial]
    rfl
  exact absurd (hnone.symm.trans hd) (Option.some_ne_none d).symm

/-- Sessions between outermost calls are points of a run at which nothing is running. -/
theorem Session.Reached.run {knows : κ → Set DescriptorRef} {calls : κ → Call n κ}
    {s : Session n κ} (h : s.Reached knows calls) :
    ∃ (built : List (Fin n)) (p : Point n κ),
      Point.Run calls Point.start built p ∧ p.session = s ∧ p.next calls = none := by
  have hend : ∀ {α : Type} (outcome : Except Fault α) (s : Session n κ),
      (Point.ended outcome s).session = s ∧ (Point.ended outcome s).next calls = none := by
    intro α outcome s
    cases outcome <;> exact ⟨rfl, rfl⟩
  induction h with
  | initial => exact ⟨[], Point.start, .refl, rfl, rfl⟩
  | @ran s α client _ _ ih =>
    obtain ⟨built, p, hrun, rfl, hnone⟩ := ih
    obtain ⟨built', hran⟩ := (hrun.tail (.run client hnone)).leads
      (Point.leads_run calls client p.session)
    exact ⟨_, _, hran, hend _ _⟩
  | @resolved s call _ _ ih =>
    obtain ⟨built, p, hrun, rfl, hnone⟩ := ih
    obtain ⟨built', hran⟩ := (hrun.tail (.request call hnone)).leads
      (Point.leads_request calls call p.session)
    exact ⟨_, _, hran, hend _ _⟩
  | @listened s listener _ _ ih =>
    obtain ⟨built, p, hrun, rfl, hnone⟩ := ih
    exact ⟨_, _, hrun.tail (.listen listener hnone), rfl, rfl⟩

/-- Between outermost calls no type has the sentinel as its descriptor. -/
theorem Session.Reached.apart {knows : κ → Set DescriptorRef} {calls : κ → Call n κ}
    {s : Session n κ} (h : s.Reached knows calls) : s.ledger.Apart := by
  obtain ⟨built, p, hrun, rfl, _⟩ := h.run
  exact hrun.apart Point.apart_start

end TracedHeap
