import TracedHeap.Proofs.PersistentAccounts
import TracedHeap.Proofs.PoolHistory

/-! # Persistent values

A persistent value is known to the pool by the address of its box.  Boxes of values that
take up memory have addresses of their own, but a box of a value of size zero has the
alignment of its type as its address, so that all such values of one alignment are one
root.

1. **Registration** of a value: it is refused exactly if its box is a root already that
   belongs to another type (`register_value_eq_error_iff`).
2. **Boxes**: what a box has to do with the type of the value in it (`BoxedAs`), and that
   all operations keep it.
3. **Runs** of native code that holds persistent values only (`ValueStep`), with an invariant
   (`Housed`) that says where the values lie.
4. **Counting** the roots of such a run.

The main statement is `roots_count_values_up_to_alignment`.
-/

namespace TracedHeap

open Relation (ReflTransGen)

variable {σ D V ω : Type}

/-! ## Registration -/

/-- The roots of a pool have different addresses. -/
theorem Pool.Sound.nodup_addresses {pool : Pool D Address} (hsound : pool.Sound) :
    (pool.roots.map (·.2)).Nodup := by
  rw [roots, List.map_map]
  refine List.pairwise_map.2 (hsound.ascending.imp ?_)
  intro a b hless heq
  replace heq : a.1 = b.1 := heq
  rw [heq, Std.compare_self] at hless
  cases hless

namespace Accounts

variable {pool : Pool D Address} {live : List (PersistentHandle D V)} {k : Address}

/-- An address is recorded with the descriptor of the handles that are registered as it. -/
theorem descriptor?_eq_some_iff (h : Accounts pool live) {descriptor : D} :
    pool.descriptor? k = some descriptor ↔
      ∃ q ∈ live, q.registered = some k ∧ q.type.descriptor = .ok descriptor := by
  constructor
  · intro hthere
    obtain ⟨q, hq, hk⟩ := h.refcount_pos_iff.1 (h.sound.refcount_pos_iff.2 ⟨_, hthere⟩)
    obtain ⟨recorded, htype, hrecorded⟩ := h.described q hq k hk
    rw [hthere] at hrecorded
    cases hrecorded
    exact ⟨q, hq, hk, htype⟩
  · rintro ⟨q, hq, hk, htype⟩
    obtain ⟨recorded, hsame, hrecorded⟩ := h.described q hq k hk
    rw [htype] at hsame
    cases hsame
    exact hrecorded

/-- Handles that are registered as the same address have the same descriptor. -/
theorem descriptor_eq (h : Accounts pool live) {p q : PersistentHandle D V} (hp : p ∈ live)
    (hq : q ∈ live) (hpk : p.registered = some k) (hqk : q.registered = some k) :
    p.type.descriptor = q.type.descriptor := by
  obtain ⟨d, htype, hrecorded⟩ := h.described p hp k hpk
  obtain ⟨d', htype', hrecorded'⟩ := h.described q hq k hqk
  rw [hrecorded] at hrecorded'
  cases hrecorded'
  rw [htype, htype']

/-- No address is counted more often than there are handles. -/
theorem refcount_le (h : Accounts pool live) : pool.refcount k ≤ live.length := by
  rw [h.counted]
  exact List.countP_le_length

end Accounts

/-- While nobody looks at the persistent roots, only the pool refuses a root. -/
theorem RootSet.register_eq_error_iff [BEq D] {r : RootSet D} {data : Address} {descriptor : D}
    (hidle : r.persistents.borrow = .idle) {fault : Fault} :
    r.register data descriptor = .error fault ↔
      r.persistents.value.add data descriptor = .error fault := by
  unfold register BorrowCell.mutate BorrowCell.seize
  rw [hidle]
  simp only [Borrow.seize, bind, Except.bind, pure, Except.pure]
  cases r.persistents.value.add data descriptor <;> simp

/-- A type of fixed size that has a descriptor. -/
structure TypeInfo.Fixed (type : TypeInfo D) : Prop where
  described : ∃ descriptor, type.descriptor = .ok descriptor
  hasArray : type.hasArray = false

namespace PersistentHandle

variable {p p' : PersistentHandle D V} {w w' : World σ D ω} {live : List (PersistentHandle D V)}

/-- A handle that stores a value of a type of fixed size. -/
structure IsValue (p : PersistentHandle D V) : Prop where
  kind : p.handle.discipline = .value
  type : p.type.Fixed

theorem identity_of_value (hkind : p.handle.discipline = .value) : p.identity = some p.box := by
  rcases p with ⟨type, handle, box, registered⟩
  cases handle with
  | value h => rfl
  | reference h =>
    rcases h with ⟨strength, stored⟩
    cases strength <;> cases hkind

/-- A value is registered by adding its box to the pool. -/
theorem register_value_eq_error [BEq D] (hidle : w.roots.persistents.borrow = .idle)
    (hkind : p.handle.discipline = .value) (harray : p.type.hasArray = false) {descriptor : D}
    (htype : p.type.descriptor = .ok descriptor) {fault : Fault} :
    (p.register.runOn w).1 = .error fault ↔ w.pool.add p.box descriptor = .error fault := by
  unfold register
  rw [identity_of_value hkind, ← RootSet.register_eq_error_iff hidle]
  simp only [htype, harray, Act.demand, pure_bind, Bool.false_eq_true, and_false, if_false]
  unfold Act.register
  simp only [Act.runOn_bind, Act.runOn_get, Act.runOn_change]
  cases w.roots.register p.box descriptor <;> simp

/-- The registration of a value is refused exactly if its box is registered with another
descriptor. -/
theorem register_value_eq_error_iff [BEq D] [LawfulBEq D] (hw : w.Balanced live)
    (hroom : live.length + 1 < Word.bound) (hp : p.IsValue) {fault : Fault} :
    (p.register.runOn w).1 = .error fault ↔
      fault = .failed .descriptorConflict ∧
        ∃ q ∈ live, q.registered = some p.box ∧ q.type.descriptor ≠ p.type.descriptor := by
  obtain ⟨descriptor, htype⟩ := hp.type.described
  have hcount : w.pool.refcount p.box + 1 < Word.bound :=
    Nat.lt_of_le_of_lt (Nat.succ_le_succ hw.accounts.refcount_le) hroom
  rw [register_value_eq_error hw.idle hp.kind hp.type.hasArray htype,
    Pool.add_eq_error_iff hcount]
  simp only [hw.accounts.descriptor?_eq_some_iff, beq_eq_false_iff_ne, htype]
  refine and_congr_right fun _ => ⟨?_, ?_⟩
  · rintro ⟨d, ⟨q, hq, hbox, hd⟩, hne⟩
    refine ⟨q, hq, hbox, ?_⟩
    rw [hd]
    exact fun h => hne (Except.ok.inj h)
  · rintro ⟨q, hq, hbox, hne⟩
    obtain ⟨d, hd, -⟩ := hw.accounts.described q hq _ hbox
    refine ⟨d, ⟨q, hq, hbox, hd⟩, ?_⟩
    rintro rfl
    exact hne hd

/-! ## Boxes -/

/-- Boxes of values of size zero lie at the alignment of their type, and all others in memory
of their own. -/
structure Boxed (boxes : Nat) (p : PersistentHandle D V) : Prop where
  empty : p.type.layout.size = 0 → p.box = .dangling p.type.layout.align
  own : p.type.layout.size ≠ 0 → ∃ n < boxes, p.box = .box n

theorem Boxed.mono {boxes more : Nat} (h : p.Boxed boxes) (hle : boxes ≤ more) :
    p.Boxed more where
  empty := h.empty
  own hsize := by
    obtain ⟨n, hn, hbox⟩ := h.own hsize
    exact ⟨n, Nat.lt_of_lt_of_le hn hle, hbox⟩

/-- Two values do not lie in the same memory. -/
def Apart (p q : PersistentHandle D V) : Prop :=
  p.type.layout.size ≠ 0 → q.type.layout.size ≠ 0 → p.box ≠ q.box

theorem Apart.symm {q : PersistentHandle D V} (h : p.Apart q) : q.Apart p :=
  fun hq hp heq => h hp hq heq.symm

/-- The box that a new handle is moved into. -/
structure Allotted (layout : Layout) (w : World σ D ω) (box : Address) (w' : World σ D ω) :
    Prop where
  roots : w'.roots = w.roots
  boxes : w.boxes ≤ w'.boxes
  empty : layout.size = 0 → box = .dangling layout.align
  fresh : layout.size ≠ 0 → box = .box w.boxes ∧ w.boxes < w'.boxes

theorem boxAddress_allotted (layout : Layout) (w : World σ D ω) :
    ∃ box w', (boxAddress layout).runOn w = (.ok box, w') ∧ Allotted layout w box w' := by
  unfold boxAddress
  by_cases hsize : layout.size = 0
  · rw [if_pos hsize]
    refine ⟨_, w, rfl, rfl, Nat.le_refl _, fun _ => rfl, fun h => absurd hsize h⟩
  · rw [if_neg hsize]
    refine ⟨.box w.boxes, { w with boxes := w.boxes + 1 }, rfl, rfl, Nat.le_succ _,
      fun h => absurd h hsize, fun _ => ⟨rfl, Nat.lt_succ_self _⟩⟩

/-- Registering a handle allocates nothing. -/
theorem register_boxes [BEq D] (p : PersistentHandle D V) (w : World σ D ω) :
    (p.register.runOn w).2.boxes = w.boxes := by
  unfold register
  cases p.identity with
  | none => rfl
  | some data =>
    cases p.type.descriptor with
    | error fault => rfl
    | ok descriptor =>
      simp only [Act.demand, pure_bind]
      split
      · rfl
      · unfold Act.register
        simp only [Act.runOn_bind, Act.runOn_get, Act.runOn_change]
        cases w.roots.register data descriptor <;> rfl

/-- A new handle is allotted a box, and registered or refused. -/
theorem new_runOn [BEq D] (type : TypeInfo D) (handle : Handle V) (w : World σ D ω) :
    ∃ box w₁, Allotted type.layout w box w₁ ∧
      ((new type handle).runOn w).1 =
        ((register ⟨type, handle, box, none⟩).runOn w₁).1.map (⟨type, handle, box, ·⟩) ∧
      ((new type handle).runOn w).2 = ((register ⟨type, handle, box, none⟩).runOn w₁).2 := by
  obtain ⟨box, w₁, hbox, hallotted⟩ := boxAddress_allotted type.layout w
  refine ⟨box, w₁, hallotted, ?_⟩
  unfold new
  rw [Act.runOn_bind_ok hbox]
  rcases hrun : (register ⟨type, handle, box, none⟩).runOn w₁ with ⟨fault | registered, w₂⟩
  · rw [Act.runOn_bind_error hrun]
    exact ⟨rfl, rfl⟩
  · rw [Act.runOn_bind_ok hrun]
    exact ⟨rfl, rfl⟩

/-- A handle that is refused leaves the root set as it was. -/
theorem new_refused_roots [BEq D] {type : TypeInfo D} {handle : Handle V} {fault : Fault}
    (hrun : (new type handle).runOn w = (.error fault, w')) : w'.roots = w.roots := by
  obtain ⟨box, w₁, hallotted, houtcome, hworld⟩ := new_runOn type handle w
  rw [hrun] at houtcome hworld
  replace hworld : w' = ((register ⟨type, handle, box, none⟩).runOn w₁).2 := hworld
  rw [hworld, ← hallotted.roots]
  rcases register_cases ⟨type, handle, box, none⟩ w₁ with
    ⟨_, _, hsame⟩ | ⟨_, hok⟩ | ⟨_, _, _, _, hok, _⟩
  · exact hsame
  · rw [hok]
  · rw [hok] at houtcome
    cases houtcome

/-- A new handle lies in a box that no other value lies in, unless it has size zero. -/
theorem new_boxed [BEq D] {type : TypeInfo D} {handle : Handle V}
    (hrun : (new type handle).runOn w = (.ok p, w')) :
    p.type = type ∧ w.boxes ≤ w'.boxes ∧ p.Boxed w'.boxes ∧
      (p.type.layout.size ≠ 0 → p.box = .box w.boxes) := by
  obtain ⟨box, w₁, hallotted, houtcome, hworld⟩ := new_runOn type handle w
  rw [hrun] at houtcome hworld
  have hboxes : w'.boxes = w₁.boxes := (congrArg (·.boxes) hworld).trans (register_boxes _ _)
  rcases hregister : ((register ⟨type, handle, box, none⟩).runOn w₁).1 with fault | registered
  · rw [hregister] at houtcome
    cases houtcome
  · rw [hregister] at houtcome
    cases houtcome
    refine ⟨rfl, hboxes ▸ hallotted.boxes, ⟨hallotted.empty, ?_⟩, fun h => (hallotted.fresh h).1⟩
    intro hsize
    exact ⟨w.boxes, hboxes ▸ (hallotted.fresh hsize).2, (hallotted.fresh hsize).1⟩

/-- A value is cloned by creating another one. -/
theorem clone_value_runOn [BEq D] (hooks : Hooks σ) (hkind : p.handle.discipline = .value)
    (w : World σ D ω) : (p.clone hooks).runOn w = (new p.type p.handle).runOn w := by
  unfold clone
  cases hhandle : p.handle with
  | value h => rfl
  | reference h =>
    rcases h with ⟨strength, stored⟩
    rw [hhandle] at hkind
    cases strength <;> cases hkind

/-- An update that is granted leaves a handle in its box. -/
theorem update_box [BEq D] {change : Change σ V} {outcome : Except Fault Unit}
    (hgranted : p.Granted change w)
    (hrun : (p.update change).runOn w = (.ok (p', outcome), w')) :
    p'.box = p.box ∧ p'.type = p.type := by
  cases houtcome : (change p.handle w.collector).1 with
  | error fault =>
    rw [update_runOn_of_error houtcome] at hrun
    cases hrun
    exact ⟨rfl, rfl⟩
  | ok _ =>
    obtain ⟨registered, mid, hregister⟩ := hgranted houtcome
    rw [update_runOn_of_ok houtcome hregister] at hrun
    cases hrun
    exact ⟨rfl, rfl⟩

end PersistentHandle

/-! ## Runs -/

/-- Where the persistent values of some native code lie, if it has no other persistent
handles. -/
structure World.Houses (w : World σ D ω) (live : List (PersistentHandle D V)) : Prop where
  balanced : w.Balanced live
  values : ∀ p ∈ live, p.IsValue
  registered : ∀ p ∈ live, p.registered = some p.box
  boxed : ∀ p ∈ live, p.Boxed w.boxes
  apart : live.Pairwise PersistentHandle.Apart

namespace World.Houses

variable {w w' : World σ D ω} {live live' : List (PersistentHandle D V)}
  {p p' : PersistentHandle D V}

theorem perm (h : w.Houses live) (hperm : live.Perm live') : w.Houses live' where
  balanced := ⟨h.balanced.idle, h.balanced.accounts.perm hperm⟩
  values q hq := h.values q (hperm.mem_iff.2 hq)
  registered q hq := h.registered q (hperm.mem_iff.2 hq)
  boxed q hq := h.boxed q (hperm.mem_iff.2 hq)
  apart := (hperm.pairwise_iff PersistentHandle.Apart.symm).1 h.apart

/-- The world goes on without new handles. -/
theorem of_sublist (h : w.Houses live) (hless : live'.Sublist live) (hw : w'.Balanced live')
    (hboxes : w.boxes ≤ w'.boxes) : w'.Houses live' where
  balanced := hw
  values q hq := h.values q (hless.subset hq)
  registered q hq := h.registered q (hless.subset hq)
  boxed q hq := (h.boxed q (hless.subset hq)).mono hboxes
  apart := h.apart.sublist hless

/-- A handle comes, in a box of its own unless it has size zero. -/
theorem cons (h : w.Houses live) (hw : w'.Balanced (p :: live)) (hvalue : p.IsValue)
    (hregistered : p.registered = some p.box) (hboxed : p.Boxed w'.boxes)
    (hfresh : p.type.layout.size ≠ 0 → p.box = .box w.boxes) (hboxes : w.boxes ≤ w'.boxes) :
    w'.Houses (p :: live) where
  balanced := hw
  values := List.forall_mem_cons.2 ⟨hvalue, h.values⟩
  registered := List.forall_mem_cons.2 ⟨hregistered, h.registered⟩
  boxed := List.forall_mem_cons.2 ⟨hboxed, fun q hq => (h.boxed q hq).mono hboxes⟩
  apart := by
    refine List.pairwise_cons.2 ⟨?_, h.apart⟩
    intro q hq hsize hother heq
    obtain ⟨n, hn, hbox⟩ := (h.boxed q hq).own hother
    rw [hfresh hsize, hbox] at heq
    cases heq
    exact absurd hn (Nat.lt_irrefl _)

/-- A handle changes in its box. -/
theorem cons_changed (h : w.Houses (p :: live)) (hw : w'.Balanced (p' :: live))
    (hvalue : p'.IsValue) (hregistered : p'.registered = some p'.box) (hbox : p'.box = p.box)
    (htype : p'.type = p.type) (hboxes : w.boxes ≤ w'.boxes) : w'.Houses (p' :: live) where
  balanced := hw
  values := List.forall_mem_cons.2 ⟨hvalue, (List.forall_mem_cons.1 h.values).2⟩
  registered := List.forall_mem_cons.2 ⟨hregistered, (List.forall_mem_cons.1 h.registered).2⟩
  boxed := by
    obtain ⟨hhead, hrest⟩ := List.forall_mem_cons.1 h.boxed
    refine List.forall_mem_cons.2 ⟨?_, fun q hq => (hrest q hq).mono hboxes⟩
    refine PersistentHandle.Boxed.mono ⟨?_, ?_⟩ hboxes
    · rw [hbox, htype]
      exact hhead.empty
    · rw [hbox, htype]
      exact hhead.own
  apart := by
    obtain ⟨hhead, hrest⟩ := List.pairwise_cons.1 h.apart
    refine List.pairwise_cons.2 ⟨fun q hq => ?_, hrest⟩
    rw [PersistentHandle.Apart, hbox, htype]
    exact hhead q hq

/-- A value that is created is housed, and one that is refused is not there. -/
theorem new [BEq D] [LawfulBEq D] (h : w.Houses live) (type : TypeInfo D) (handle : Handle V)
    (hboxes : w.boxes ≤ ((PersistentHandle.new type handle).runOn w).2.boxes)
    (hvalues : ∀ p ∈ ((PersistentHandle.new type handle).runOn w).1.toOption.toList ++ live,
      p.IsValue) :
    ((PersistentHandle.new type handle).runOn w).2.Houses
      (((PersistentHandle.new type handle).runOn w).1.toOption.toList ++ live) := by
  obtain ⟨hbalanced, hnew⟩ := PersistentHandle.new_balanced h.balanced type handle
  rcases hrun : (PersistentHandle.new type handle).runOn w with ⟨fault | p, w'⟩
  · rw [hrun] at hbalanced hboxes
    exact h.of_sublist (List.Sublist.refl _) hbalanced hboxes
  · rw [hrun] at hbalanced hvalues hnew
    obtain ⟨-, hboxes, hboxed, hfresh⟩ := PersistentHandle.new_boxed hrun
    have hvalue : p.IsValue := hvalues p List.mem_cons_self
    have hregistered : p.registered = some p.box := by
      rw [(hnew p rfl).2, PersistentHandle.identity_of_value hvalue.kind]
    exact h.cons hbalanced hvalue hregistered hboxed hfresh hboxes

end World.Houses

namespace Holding

/-- One step of native code that holds persistent values of fixed size and no other persistent
handles.  No box is handed out twice. -/
def ValueStep [BEq D] (h h' : Holding σ D V ω) : Prop :=
  Step h h' ∧ h.world.boxes ≤ h'.world.boxes ∧ ∀ p ∈ h'.live, p.IsValue

/-- Native code that started without roots and without handles. -/
def ReachedByValues [BEq D] (h : Holding σ D V ω) : Prop :=
  ∃ w : World σ D ω, w.roots = .empty ∧ ReflTransGen ValueStep ⟨w, []⟩ h

/-- It is known where all persistent values lie. -/
def Housed (h : Holding σ D V ω) : Prop := h.world.Houses h.live

theorem Housed.front {h : Holding σ D V ω} (hh : h.Housed)
    {before after : List (PersistentHandle D V)} {p : PersistentHandle D V}
    (hlive : h.live = before ++ p :: after) : h.world.Houses (p :: (before ++ after)) := by
  refine hh.perm ?_
  rw [hlive]
  exact List.perm_middle

theorem housed_of_front {w : World σ D ω} {before after : List (PersistentHandle D V)}
    {p : PersistentHandle D V} (h : w.Houses (p :: (before ++ after))) :
    (⟨w, before ++ p :: after⟩ : Holding σ D V ω).Housed :=
  h.perm List.perm_middle.symm

/-- Values stay where they are, and new ones come into boxes of their own. -/
theorem Housed.step [BEq D] [LawfulBEq D] {h h' : Holding σ D V ω} (hh : h.Housed)
    (hstep : ValueStep h h') : h'.Housed := by
  obtain ⟨hstep, hboxes, hvalues⟩ := hstep
  have hbalanced : h'.Balanced := Balanced.step (h := h) hh.balanced hstep
  cases hstep with
  | created type handle => exact World.Houses.new hh type handle hboxes hvalues
  | @cloned hooks p hlive =>
    rw [PersistentHandle.clone_value_runOn hooks (hh.values p hlive).kind] at hboxes hvalues ⊢
    exact World.Houses.new hh p.type p.handle hboxes hvalues
  | @read hooks before after p p' r target w hlive hkind hrun =>
    -- only references are read
    have hvalue := ((hh.front hlive).values p List.mem_cons_self).kind
    rw [hkind] at hvalue
    rcases r with ⟨strength, stored⟩
    cases strength <;> cases hvalue
  | @altered before after p handle hlive hkind =>
    have hfront := hh.front hlive
    refine housed_of_front (hfront.cons_changed ?_ ?_ ?_ rfl rfl hboxes)
    · exact Balanced.front hbalanced rfl
    · exact hvalues _ (List.mem_append_right _ List.mem_cons_self)
    · exact hfront.registered p List.mem_cons_self
  | @updated before after p p' change outcome w hlive hkind hgranted hrun =>
    have hfront := hh.front hlive
    obtain ⟨hbox, htype⟩ := PersistentHandle.update_box hgranted hrun
    obtain ⟨_, _, hupdate, -, hupdated⟩ :=
      PersistentHandle.update_balanced hfront.balanced change hgranted hkind
    rw [hrun] at hupdate
    cases hupdate
    have hvalue : p'.IsValue := hvalues _ (List.mem_append_right _ List.mem_cons_self)
    have hregistered : p'.registered = some p'.box := by
      cases houtcome : (change p.handle h.world.collector).1 with
      | error fault =>
        rw [(hupdated.failed fault houtcome).1, hbox]
        exact hfront.registered p List.mem_cons_self
      | ok _ =>
        rw [hupdated.registered houtcome, PersistentHandle.identity_of_value hvalue.kind]
    refine housed_of_front (hfront.cons_changed ?_ hvalue hregistered hbox htype hboxes)
    exact Balanced.front hbalanced rfl
  | @dropped before after p hlive =>
    exact (hh.front hlive).of_sublist (List.sublist_cons_self _ _) hbalanced hboxes
  | elsewhere hsame => exact World.Houses.of_sublist hh (List.Sublist.refl _) hbalanced hboxes

theorem ReachedByValues.housed [BEq D] [LawfulBEq D] {h : Holding σ D V ω}
    (hreached : h.ReachedByValues) : h.Housed := by
  obtain ⟨w, hempty, hsteps⟩ := hreached
  induction hsteps with
  | refl =>
    constructor
    case balanced => exact Reached.balanced ⟨w, hempty, .refl⟩
    case values | registered | boxed => exact fun p hp => nomatch hp
    case apart => exact List.Pairwise.nil
  | tail _ hstep ih => exact ih.step hstep

end Holding

/-! ## Counting -/

/-- The values that take up memory. -/
def withMemory (live : List (PersistentHandle D V)) : List (PersistentHandle D V) :=
  live.filter fun p => p.type.layout.size ≠ 0

/-- The alignments of the values of size zero, one for each value. -/
def alignments (live : List (PersistentHandle D V)) : List Nat :=
  (live.filter fun p => p.type.layout.size = 0).map (·.type.layout.align)

theorem length_eq_withMemory_add (live : List (PersistentHandle D V)) :
    live.length = (withMemory live).length + (alignments live).length := by
  rw [List.length_eq_length_filter_add fun p : PersistentHandle D V => p.type.layout.size ≠ 0]
  simp [withMemory, alignments]

/-- What keeps a new value out: a live value of size zero that has the same alignment, but is
of another type. -/
def TypeInfo.Clashes (type : TypeInfo D) (live : List (PersistentHandle D V)) : Prop :=
  type.layout.size = 0 ∧ ∃ q ∈ live, q.type.layout.size = 0 ∧
    q.type.layout.align = type.layout.align ∧ q.type.descriptor ≠ type.descriptor

namespace World.Houses

variable {w : World σ D ω} {live : List (PersistentHandle D V)}

/-- The roots are the boxes of the values. -/
theorem refcount_pos_iff (h : w.Houses live) {k : Address} :
    0 < w.pool.refcount k ↔ k ∈ live.map (·.box) := by
  rw [h.balanced.accounts.refcount_pos_iff, List.mem_map]
  refine exists_congr fun p => and_congr_right fun hp => ?_
  rw [h.registered p hp, Option.some.injEq]

/-- Each is shown with the descriptor of its value. -/
theorem mem_roots_iff (h : w.Houses live) {descriptor : D} {k : Address} :
    (descriptor, k) ∈ w.pool.roots ↔
      ∃ p ∈ live, p.box = k ∧ p.type.descriptor = .ok descriptor := by
  rw [h.balanced.accounts.sound.mem_roots_iff, h.balanced.accounts.descriptor?_eq_some_iff]
  refine exists_congr fun p => and_congr_right fun hp => ?_
  rw [h.registered p hp, Option.some.injEq]

/-- A box of a value of size zero is known by its alignment. -/
theorem box_eq_dangling_iff (h : w.Houses live) {p : PersistentHandle D V} (hp : p ∈ live)
    {align : Nat} :
    p.box = .dangling align ↔ p.type.layout.size = 0 ∧ p.type.layout.align = align := by
  by_cases hsize : p.type.layout.size = 0
  · rw [(h.boxed p hp).empty hsize]
    simp [hsize]
  · obtain ⟨n, -, hbox⟩ := (h.boxed p hp).own hsize
    simp [hbox, hsize]

/-- The boxes of values that take up memory are all different. -/
theorem nodup_withMemory (h : w.Houses live) : ((withMemory live).map (·.box)).Nodup := by
  refine List.pairwise_map.2 ((h.apart.filter _).imp_of_mem ?_)
  intro p q hp hq hapart
  exact hapart (by simpa using (List.mem_filter.1 hp).2) (by simpa using (List.mem_filter.1 hq).2)

/-- The boxes are those of values that take up memory and one for each alignment. -/
theorem boxes_eq (h : w.Houses live) :
    (live.map (·.box)).toFinset =
      ((withMemory live).map (·.box)).toFinset ∪ ((alignments live).map .dangling).toFinset := by
  ext k
  simp only [Finset.mem_union, List.mem_toFinset, List.mem_map, withMemory, alignments,
    List.mem_filter, decide_eq_true_eq]
  constructor
  · rintro ⟨p, hp, rfl⟩
    by_cases hsize : p.type.layout.size = 0
    · right
      exact ⟨_, ⟨p, ⟨hp, hsize⟩, rfl⟩, ((h.boxed p hp).empty hsize).symm⟩
    · left
      exact ⟨p, ⟨hp, hsize⟩, rfl⟩
  · rintro (⟨p, ⟨hp, -⟩, rfl⟩ | ⟨_, ⟨p, ⟨hp, hsize⟩, rfl⟩, rfl⟩)
    · exact ⟨p, hp, rfl⟩
    · exact ⟨p, hp, (h.boxed p hp).empty hsize⟩

/-- There is one root for each value that takes up memory, and one for each alignment of the
others. -/
theorem size_eq (h : w.Houses live) :
    w.pool.size = (withMemory live).length + (alignments live).dedup.length := by
  have hset : {k | 0 < w.pool.refcount k} = ((live.map (·.box)).toFinset : Set Address) := by
    ext k
    rw [Set.mem_ofPred_eq, h.refcount_pos_iff, List.coe_toFinset, Set.mem_ofPred_eq]
  have hdisjoint : Disjoint ((withMemory live).map (·.box)).toFinset
      ((alignments live).map Address.dangling).toFinset := by
    rw [Finset.disjoint_left]
    intro k hmemory hempty
    obtain ⟨p, hp, rfl⟩ := List.mem_map.1 (List.mem_toFinset.1 hmemory)
    obtain ⟨align, -, hbox⟩ := List.mem_map.1 (List.mem_toFinset.1 hempty)
    obtain ⟨hlive, hsize⟩ := List.mem_filter.1 hp
    -- a value that takes up memory does not lie at its alignment
    have hzero := ((h.box_eq_dangling_iff hlive).1 hbox.symm).1
    simp [hzero] at hsize
  rw [h.balanced.accounts.sound.size_eq_ncard, hset, Set.ncard_coe_finset, h.boxes_eq,
    Finset.card_union_of_disjoint hdisjoint, List.toFinset_card_of_nodup h.nodup_withMemory,
    List.length_map, List.card_toFinset, List.dedup_map_of_injective, List.length_map]
  exact fun a b heq => by cases heq; rfl

/-- There are as many roots as values exactly if no two values of size zero have the same
alignment. -/
theorem size_eq_length_iff (h : w.Houses live) :
    w.pool.size = live.length ↔ (alignments live).Nodup := by
  rw [h.size_eq, length_eq_withMemory_add live, Nat.add_left_cancel_iff, ← List.dedup_eq_self]
  exact ⟨(List.dedup_sublist _).eq_of_length, congrArg List.length⟩

/-- Each value is shown once. -/
theorem countP_box (h : w.Houses live) {p : PersistentHandle D V} (hp : p ∈ live) :
    w.pool.roots.countP (·.2 = p.box) = 1 := by
  obtain ⟨d, htype⟩ := (h.values p hp).type.described
  have hroot : p.box ∈ w.pool.roots.map (·.2) :=
    List.mem_map_of_mem (f := (·.2)) (h.mem_roots_iff.2 ⟨p, hp, rfl, htype⟩)
  have hcount := List.count_eq_one_of_mem h.balanced.accounts.sound.nodup_addresses hroot
  rw [List.count, List.countP_map] at hcount
  exact hcount

/-- A live value does not clash with any other one. -/
theorem not_clashes (h : w.Houses live) {p : PersistentHandle D V} (hp : p ∈ live) :
    ¬ p.type.Clashes live := by
  rintro ⟨hsize, q, hq, hother, halign, hne⟩
  have hbox : q.registered = some p.box := by
    rw [h.registered q hq, (h.boxed q hq).empty hother, (h.boxed p hp).empty hsize, halign]
  exact hne (h.balanced.accounts.descriptor_eq hq hp hbox (h.registered p hp))

variable [BEq D] [LawfulBEq D]

/-- A value is created unless there is a clash. -/
theorem new_eq_error_iff (h : w.Houses live) (hroom : live.length + 1 < Word.bound)
    {type : TypeInfo D} (htype : type.Fixed) (value : ValueHandle V) {fault : Fault} :
    ((PersistentHandle.new type (.value value)).runOn w).1 = .error fault ↔
      fault = .failed .descriptorConflict ∧ type.Clashes live := by
  obtain ⟨box, w₁, hallotted, houtcome, -⟩ := PersistentHandle.new_runOn type (.value value) w
  have hbalanced : w₁.Balanced live :=
    h.balanced.of_same (congrArg (·.persistents) hallotted.roots)
  let p : PersistentHandle D V := ⟨type, .value value, box, none⟩
  have hrefused : (p.register.runOn w₁).1 = .error fault ↔ _ :=
    PersistentHandle.register_value_eq_error_iff hbalanced hroom ⟨rfl, htype⟩
  have hfault : ((PersistentHandle.new type (.value value)).runOn w).1 = .error fault ↔
      (p.register.runOn w₁).1 = .error fault := by
    rw [houtcome]
    cases (p.register.runOn w₁).1 <;> simp [Except.map]
  rw [hfault, hrefused]
  refine and_congr_right fun _ => ?_
  by_cases hsize : type.layout.size = 0
  · have hbox : p.box = .dangling type.layout.align := hallotted.empty hsize
    rw [hbox, TypeInfo.Clashes, and_iff_right hsize]
    refine exists_congr fun q => and_congr_right fun hq => ?_
    rw [h.registered q hq, Option.some.injEq, h.box_eq_dangling_iff hq, and_assoc]
  · -- nothing lies in memory that was just allocated
    have hbox : p.box = .box w.boxes := (hallotted.fresh hsize).1
    refine iff_of_false ?_ fun hclash => hsize hclash.1
    rintro ⟨q, hq, hregistered, -⟩
    rw [h.registered q hq, Option.some.injEq, hbox] at hregistered
    by_cases hother : q.type.layout.size = 0
    · rw [(h.boxed q hq).empty hother] at hregistered
      cases hregistered
    · obtain ⟨n, hn, hown⟩ := (h.boxed q hq).own hother
      rw [hown] at hregistered
      cases hregistered
      exact absurd hn (Nat.lt_irrefl _)

/-- A live value can be cloned. -/
theorem exists_clone (h : w.Houses live) (hroom : live.length + 1 < Word.bound)
    {p : PersistentHandle D V} (hp : p ∈ live) (hooks : Hooks σ) :
    ∃ copy w', (p.clone hooks).runOn w = (.ok copy, w') := by
  have hvalue := h.values p hp
  rw [PersistentHandle.clone_value_runOn hooks hvalue.kind]
  cases hhandle : p.handle with
  | value value =>
    rcases hrun : (PersistentHandle.new p.type (.value value)).runOn w with ⟨fault | copy, w'⟩
    · have hclash := (h.new_eq_error_iff hroom hvalue.type value).1 (congrArg (·.1) hrun)
      exact absurd hclash.2 (h.not_clashes hp)
    · exact ⟨copy, w', rfl⟩
  | reference r =>
    have hkind := hvalue.kind
    rw [hhandle] at hkind
    rcases r with ⟨strength, stored⟩
    cases strength <;> cases hkind

/-- An update of a live value is granted. -/
theorem granted (h : w.Houses live) (hroom : live.length + 1 < Word.bound)
    {p : PersistentHandle D V} (hp : p ∈ live) {change : PersistentHandle.Change σ V}
    (hkind : (p.changedBy change w).handle.discipline = .value) : p.Granted change w := by
  intro _
  have hafter : (p.afterChange change w).Balanced live := h.balanced.of_same rfl
  rcases hrun : (p.changedBy change w).register.runOn (p.afterChange change w) with
    ⟨fault | registered, mid⟩
  · obtain ⟨-, q, hq, hbox, hne⟩ :=
      (PersistentHandle.register_value_eq_error_iff hafter hroom ⟨hkind, (h.values p hp).type⟩).1
        (congrArg (·.1) hrun)
    -- it lies in its own box
    exact absurd (h.balanced.accounts.descriptor_eq hq hp hbox (h.registered p hp)) hne
  · exact ⟨registered, mid, rfl⟩

end World.Houses

namespace Holding

/-- Persistent values.  At any time of any run in which all persistent handles store values of
types of fixed size:

* there is one root for each value that takes up memory and one for each alignment of the
  values of size zero, so that there are as many roots as values exactly if no two values of
  size zero have the same alignment;
* the roots are the boxes of the live values, each shown once, with the descriptor of the
  values in it;
* a value that is refused changes no root, and dropping a value does not fail.

Unless there are so many values that they cannot be counted:

* creating a value fails exactly if it has size zero and a live value of another type and
  the same alignment has size zero too;
* cloning a value does not fail, and an update fails only if its code does. -/
theorem roots_count_values_up_to_alignment [BEq D] [LawfulBEq D] {h : Holding σ D V ω}
    (hreached : h.ReachedByValues) :
    h.world.pool.size = (withMemory h.live).length + (alignments h.live).dedup.length ∧
    (h.world.pool.size = h.live.length ↔ (alignments h.live).Nodup) ∧
    (∀ descriptor k, (descriptor, k) ∈ h.world.pool.roots ↔
      ∃ p ∈ h.live, p.box = k ∧ p.type.descriptor = .ok descriptor) ∧
    (∀ p ∈ h.live, h.world.pool.roots.countP (·.2 = p.box) = 1) ∧
    (∀ (type : TypeInfo D) (value : ValueHandle V) fault w,
      (PersistentHandle.new type (.value value)).runOn h.world = (.error fault, w) →
        w.pool.roots = h.world.pool.roots) ∧
    (∀ p ∈ h.live, (p.drop.runOn h.world).1 = .ok ()) ∧
    (h.live.length + 1 < Word.bound →
      (∀ (type : TypeInfo D) (value : ValueHandle V) fault, type.Fixed →
        (((PersistentHandle.new type (.value value)).runOn h.world).1 = .error fault ↔
          fault = .failed .descriptorConflict ∧ type.layout.size = 0 ∧
            ∃ q ∈ h.live, q.type.layout.size = 0 ∧ q.type.layout.align = type.layout.align ∧
              q.type.descriptor ≠ type.descriptor)) ∧
      (∀ p ∈ h.live, ∀ hooks : Hooks σ, ∃ copy w, (p.clone hooks).runOn h.world = (.ok copy, w)) ∧
      ∀ p ∈ h.live, ∀ change : PersistentHandle.Change σ V,
        (p.changedBy change h.world).handle.discipline = .value →
        ∃ p' w, (p.update change).runOn h.world =
          (.ok (p', (change p.handle h.world.collector).1), w)) := by
  have hh : h.world.Houses h.live := hreached.housed
  refine ⟨hh.size_eq, hh.size_eq_length_iff, fun _ _ => hh.mem_roots_iff, fun _ => hh.countP_box,
    ?_, ?_, fun hroom => ⟨?_, fun _ hp => hh.exists_clone hroom hp, ?_⟩⟩
  · intro type value fault w hrun
    rw [World.pool, PersistentHandle.new_refused_roots hrun]
  · intro p hp
    obtain ⟨before, after, hlive⟩ := List.append_of_mem hp
    obtain ⟨w, hdrop, -⟩ :=
      PersistentHandle.unregister_balanced (Housed.front hh hlive).balanced
    unfold PersistentHandle.drop
    rw [hdrop]
  · intro type value fault htype
    exact hh.new_eq_error_iff hroom htype value
  · intro p hp change hkind
    obtain ⟨before, after, hlive⟩ := List.append_of_mem hp
    have hsame := hkind.trans (hh.values p hp).kind.symm
    obtain ⟨p', w, hupdate, -, -⟩ := PersistentHandle.update_balanced
      (Housed.front hh hlive).balanced change (hh.granted hroom hp hkind) hsame
    exact ⟨p', w, hupdate⟩

/-- A number and two values of one empty type are two roots, and a value of another empty type
is kept out. -/
theorem empty_values_share_one_root :
    let number : TypeInfo Char := ⟨.ok 'n', false, ⟨8, 8⟩⟩
    let unit : TypeInfo Char := ⟨.ok 'u', false, ⟨0, 1⟩⟩
    let other : TypeInfo Char := ⟨.ok 'o', false, ⟨0, 1⟩⟩
    ∃ h : Holding Unit Char Nat Unit, h.ReachedByValues ∧
      h.live.map (·.type) = [unit, unit, number] ∧ h.world.pool.size = 2 ∧
      h.world.pool.roots = [('u', .dangling 1), ('n', .box 0)] ∧
      ((PersistentHandle.new other (.value ⟨0⟩)).runOn h.world).1 =
        .error (.failed .descriptorConflict) := by
  intro number unit other
  let start : World Unit Char Unit := ⟨.empty, (), 0, [], ()⟩
  let p : PersistentHandle Char Nat := ⟨number, .value ⟨7⟩, .box 0, some (.box 0)⟩
  let q : PersistentHandle Char Nat := ⟨unit, .value ⟨0⟩, .dangling 1, some (.dangling 1)⟩
  let once := ((PersistentHandle.new number p.handle).runOn start).2
  let twice := ((PersistentHandle.new unit q.handle).runOn once).2
  let h : Holding Unit Char Nat Unit :=
    ⟨((PersistentHandle.new unit q.handle).runOn twice).2, [q, q, p]⟩
  have hp : p.IsValue := ⟨rfl, ⟨'n', rfl⟩, rfl⟩
  have hq : q.IsValue := ⟨rfl, ⟨'u', rfl⟩, rfl⟩
  have honce : ∀ r ∈ [p], r.IsValue := List.forall_mem_singleton.2 hp
  have htwice : ∀ r ∈ [q, p], r.IsValue := List.forall_mem_cons.2 ⟨hq, honce⟩
  have hreached : h.ReachedByValues := by
    refine ⟨start, rfl, .tail (b := ⟨twice, [q, p]⟩) (.tail (b := ⟨once, [p]⟩) (.single ?_) ?_) ?_⟩
    · exact ⟨.created number p.handle, by decide, honce⟩
    · exact ⟨.created (h := ⟨once, [p]⟩) unit q.handle, by decide, htwice⟩
    · exact ⟨.created (h := ⟨twice, [q, p]⟩) unit q.handle, by decide,
        List.forall_mem_cons.2 ⟨hq, htwice⟩⟩
  obtain ⟨hsize, -, -, -, -, -, hcounted⟩ := roots_count_values_up_to_alignment hreached
  obtain ⟨hnew, -⟩ := hcounted (by decide)
  refine ⟨h, hreached, rfl, hsize, rfl, ?_⟩
  refine (hnew other ⟨0⟩ _ ⟨⟨'o', rfl⟩, rfl⟩).2 ⟨rfl, rfl, q, List.mem_cons_self, rfl, rfl, ?_⟩
  intro hsame
  cases hsame

end Holding

end TracedHeap
