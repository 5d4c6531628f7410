import Mathlib.Data.List.Count
import Mathlib.Logic.Relation
import TracedHeap.Proofs.Acts
import TracedHeap.Proofs.PoolLaws
import TracedHeap.Roots.PersistentHandle

/-! # The accounts of persistent roots

Each persistent handle knows what it is registered as, and the pool only counts.  The
two agree at any time: a root is counted as often as live handles are registered as it.

1. **Accounts**: the agreement as a relation between a pool and the live handles, and
   how it is kept when a handle comes, goes, or changes behind its registration.
2. **Registration**: what the operations of a handle do to a pool.
3. **Runs** of native code that holds persistent handles (`Holding.Step`).

The main statement is `refcounts_count_live_handles`.
-/

namespace TracedHeap

open Relation (ReflTransGen)

variable {σ D V ω : Type}

/-! ## Accounts -/

/-- Number of handles that are registered as a root. -/
def holders (live : List (PersistentHandle D V)) (k : Address) : Nat :=
  live.countP fun p => p.registered = some k

theorem holders_cons (p : PersistentHandle D V) (live : List (PersistentHandle D V))
    (k : Address) :
    holders (p :: live) k = holders live k + if p.registered = some k then 1 else 0 := by
  simp [holders, List.countP_cons]

theorem holders_pos_iff {live : List (PersistentHandle D V)} {k : Address} :
    0 < holders live k ↔ ∃ p ∈ live, p.registered = some k := by
  rw [holders, List.countP_pos_iff]
  simp only [decide_eq_true_eq]

theorem holders_pos {p : PersistentHandle D V} {live : List (PersistentHandle D V)} {k : Address}
    (hp : p ∈ live) (hk : p.registered = some k) : 0 < holders live k :=
  holders_pos_iff.2 ⟨p, hp, hk⟩

/-- A pool and the live handles agree. -/
structure Accounts (pool : Pool D Address) (live : List (PersistentHandle D V)) : Prop where
  sound : pool.Sound
  /-- Each root is counted once for each handle. -/
  counted : ∀ k, pool.refcount k = holders live k
  /-- It is recorded with the descriptor of the type of every one of them. -/
  described : ∀ p ∈ live, ∀ k, p.registered = some k →
    ∃ descriptor, p.type.descriptor = .ok descriptor ∧ pool.descriptor? k = some descriptor
  /-- Weak handles are not registered. -/
  weak : ∀ p ∈ live, p.handle.discipline = .weak → p.registered = none

namespace Accounts

variable {pool pool' : Pool D Address} {live live' : List (PersistentHandle D V)}
  {p p' : PersistentHandle D V} {k : Address}

theorem empty : Accounts (.empty : Pool D Address) ([] : List (PersistentHandle D V)) where
  sound := Pool.sound_empty
  counted _ := rfl
  described _ hp := nomatch hp
  weak _ hp := nomatch hp

theorem perm (h : Accounts pool live) (hperm : live.Perm live') : Accounts pool live' where
  sound := h.sound
  counted k := (h.counted k).trans (hperm.countP_eq _)
  described p hp := h.described p (hperm.mem_iff.2 hp)
  weak p hp := h.weak p (hperm.mem_iff.2 hp)

/-- A handle that is not registered counts for nothing. -/
theorem cons_unregistered (h : Accounts pool live) (hp : p.registered = none) :
    Accounts pool (p :: live) where
  sound := h.sound
  counted k := by
    rw [holders_cons, hp, h.counted k]
    simp
  described := by
    refine List.forall_mem_cons.2 ⟨?_, h.described⟩
    intro k hk
    rw [hp] at hk
    cases hk
  weak := List.forall_mem_cons.2 ⟨fun _ => hp, h.weak⟩

theorem of_cons_unregistered (h : Accounts pool (p :: live)) (hp : p.registered = none) :
    Accounts pool live where
  sound := h.sound
  counted k := by
    rw [h.counted k, holders_cons, hp]
    simp
  described := (List.forall_mem_cons.1 h.described).2
  weak := (List.forall_mem_cons.1 h.weak).2

/-- A handle comes, and its root is added. -/
theorem cons_added (h : Accounts pool live) {descriptor : D}
    (hadded : Pool.Added k descriptor pool pool') (hp : p.registered = some k)
    (htype : p.type.descriptor = .ok descriptor) (hstrong : p.handle.discipline ≠ .weak) :
    Accounts pool' (p :: live) where
  sound := hadded.sound
  counted k' := by
    rw [hadded.refcount, holders_cons, hp, h.counted k']
    simp [eq_comm]
  described := by
    refine List.forall_mem_cons.2 ⟨?_, ?_⟩
    · intro k' hk'
      rw [hp] at hk'
      cases hk'
      exact ⟨descriptor, htype, hadded.added⟩
    · intro q hq k' hk'
      obtain ⟨d, hd, hthere⟩ := h.described q hq k' hk'
      exact ⟨d, hd, hadded.kept hthere⟩
  weak := List.forall_mem_cons.2 ⟨fun hweak => absurd hweak hstrong, h.weak⟩

/-- A handle goes, and its root is removed. -/
theorem of_cons_removed (h : Accounts pool (p :: live)) (hp : p.registered = some k)
    (hremoved : Pool.Removed k pool pool') : Accounts pool' live := by
  have hcounted : ∀ k', pool'.refcount k' = holders live k' := by
    intro k'
    rw [hremoved.refcount, h.counted k', holders_cons, hp]
    simp [eq_comm]
  refine ⟨hremoved.sound, hcounted, ?_, (List.forall_mem_cons.1 h.weak).2⟩
  intro q hq k' hk'
  obtain ⟨d, hd, hthere⟩ := h.described q (List.mem_cons_of_mem _ hq) k' hk'
  -- another handle is registered as that root, so that it is still counted
  refine ⟨d, hd, hremoved.kept hthere ?_⟩
  rw [hcounted]
  exact holders_pos hq hk'

/-- A handle changes behind its registration. -/
theorem cons_altered (h : Accounts pool (p :: live)) (htype : p'.type = p.type)
    (hregistered : p'.registered = p.registered)
    (hkind : p'.handle.discipline = p.handle.discipline) : Accounts pool (p' :: live) where
  sound := h.sound
  counted k := by
    rw [h.counted k, holders_cons, holders_cons, hregistered]
  described := by
    obtain ⟨hhead, hrest⟩ := List.forall_mem_cons.1 h.described
    refine List.forall_mem_cons.2 ⟨?_, hrest⟩
    intro k hk
    rw [htype]
    rw [hregistered] at hk
    exact hhead k hk
  weak := by
    obtain ⟨hhead, hrest⟩ := List.forall_mem_cons.1 h.weak
    refine List.forall_mem_cons.2 ⟨?_, hrest⟩
    intro hweak
    rw [hregistered]
    rw [hkind] at hweak
    exact hhead hweak

/-- An address is counted exactly if a live handle is registered as it. -/
theorem refcount_pos_iff (h : Accounts pool live) :
    0 < pool.refcount k ↔ ∃ p ∈ live, p.registered = some k := by
  rw [h.counted, holders_pos_iff]

theorem refcount_pos (h : Accounts pool live) (hp : p ∈ live) (hk : p.registered = some k) :
    0 < pool.refcount k :=
  h.refcount_pos_iff.2 ⟨p, hp, hk⟩

end Accounts

/-! ## Registration -/

/-- The persistent roots. -/
abbrev World.pool (w : World σ D ω) : Pool D Address := w.roots.persistents.value

/-- A world in which nobody looks at the persistent roots, and those agree with some
live handles. -/
structure World.Balanced (w : World σ D ω) (live : List (PersistentHandle D V)) : Prop where
  idle : w.roots.persistents.borrow = .idle
  accounts : Accounts w.pool live

theorem World.Balanced.of_same {w w' : World σ D ω} {live : List (PersistentHandle D V)}
    (h : w.Balanced live) (hsame : w'.roots.persistents = w.roots.persistents) :
    w'.Balanced live := by
  constructor
  · rw [hsame]
    exact h.idle
  · rw [World.pool, hsame]
    exact h.accounts

namespace PersistentHandle

variable {w w' : World σ D ω} {live : List (PersistentHandle D V)} {p : PersistentHandle D V}

theorem identity_of_weak (hweak : p.handle.discipline = .weak) : p.identity = none := by
  rcases p with ⟨type, handle, box, registered⟩
  cases handle with
  | value h => cases hweak
  | reference h =>
    rcases h with ⟨strength, stored⟩
    cases strength with
    | strong => cases hweak
    | weak => rfl

/-- What registering a handle can do: it is refused and nothing has changed, or there is
nothing to register, or the root is added. -/
theorem register_cases [BEq D] (p : PersistentHandle D V) (w : World σ D ω) :
    (∃ fault, (p.register.runOn w).1 = .error fault ∧ (p.register.runOn w).2.roots = w.roots) ∨
    (p.identity = none ∧ p.register.runOn w = (.ok none, w)) ∨
    (∃ data descriptor, p.identity = some data ∧ p.type.descriptor = .ok descriptor ∧
      (p.register.runOn w).1 = .ok (some data) ∧
      w.roots.register data descriptor = .ok (p.register.runOn w).2.roots) := by
  unfold register
  cases hidentity : p.identity with
  | none =>
    right; left
    exact ⟨rfl, rfl⟩
  | some data =>
    cases htype : p.type.descriptor with
    | error fault =>
      left
      exact ⟨fault, rfl, rfl⟩
    | ok descriptor =>
      simp only [Act.demand, pure_bind]
      split
      · -- objects that end in an array are not rooted by value
        left
        exact ⟨_, rfl, rfl⟩
      · unfold Act.register
        simp only [Act.runOn_bind, Act.runOn_get, Act.runOn_change]
        cases hregister : w.roots.register data descriptor with
        | error fault =>
          left
          exact ⟨fault, rfl, rfl⟩
        | ok roots =>
          right; right
          exact ⟨data, descriptor, rfl, rfl, rfl, hregister⟩

/-- A handle that is registered joins the live ones, registered as what it stores. -/
theorem register_balanced [BEq D] [LawfulBEq D] (hw : w.Balanced live) {registered : Pointer}
    (hrun : p.register.runOn w = (.ok registered, w')) :
    registered = p.identity ∧ w'.Balanced ({ p with registered } :: live) := by
  have hcases := p.register_cases w
  rw [hrun] at hcases
  rcases hcases with ⟨fault, hfault, _⟩ | ⟨hidentity, hsame⟩ |
    ⟨data, descriptor, hidentity, htype, hok, hregister⟩
  · cases hfault
  · cases hsame
    exact ⟨hidentity.symm, hw.idle, hw.accounts.cons_unregistered rfl⟩
  · cases hok
    obtain ⟨_, pool, hadd, hroots⟩ := RootSet.register_eq_ok_iff.1 hregister
    replace hroots : w'.roots = { w.roots with persistents := .new pool } := hroots
    refine ⟨hidentity.symm, by rw [hroots]; rfl, ?_⟩
    rw [World.pool, hroots]
    refine hw.accounts.cons_added (Pool.add_eq_ok hw.accounts.sound hadd) rfl htype ?_
    intro hweak
    -- weak handles have nothing to register
    have hnone : p.identity = none := identity_of_weak hweak
    rw [hnone] at hidentity
    cases hidentity

/-- A handle that is refused leaves the accounts alone. -/
theorem refused_balanced [BEq D] (hw : w.Balanced live) {fault : Fault}
    (hrun : p.register.runOn w = (.error fault, w')) : w'.Balanced live := by
  have hcases := p.register_cases w
  rw [hrun] at hcases
  rcases hcases with ⟨_, _, hsame⟩ | ⟨_, hok⟩ | ⟨_, _, _, _, hok, _⟩
  · exact hw.of_same (congrArg (·.persistents) hsame)
  · cases hok
  · cases hok

/-- A live handle can always be unregistered. -/
theorem unregister_balanced (hw : w.Balanced (p :: live)) :
    ∃ w', p.unregister.runOn w = (.ok (), w') ∧ w'.Balanced live := by
  unfold unregister
  cases hregistered : p.registered with
  | none =>
    exact ⟨w, rfl, hw.idle, hw.accounts.of_cons_unregistered hregistered⟩
  | some data =>
    -- the handle itself is counted, so that there is something to remove
    have hpos : 0 < w.pool.refcount data :=
      hw.accounts.refcount_pos List.mem_cons_self hregistered
    obtain ⟨pool, hremove, hremoved⟩ := Pool.remove_of_refcount_pos hw.accounts.sound hpos
    have hroots : w.roots.unregister data = .ok { w.roots with persistents := .new pool } :=
      RootSet.unregister_eq_ok_iff.2 ⟨hw.idle, pool, hremove, rfl⟩
    simp only [Act.unregister, Act.runOn_bind, Act.runOn_get, Act.runOn_change, hroots]
    exact ⟨_, rfl, rfl, hw.accounts.of_cons_removed hregistered hremoved⟩

/-! ## Creation -/

theorem boxAddress_roots (layout : Layout) (w : World σ D ω) :
    ∃ box w', (boxAddress layout).runOn w = (.ok box, w') ∧ w'.roots = w.roots := by
  unfold boxAddress
  split
  · exact ⟨_, w, rfl, rfl⟩
  · exact ⟨_, _, rfl, rfl⟩

/-- A new handle is live from then on, unless it is refused. -/
theorem new_balanced [BEq D] [LawfulBEq D] (hw : w.Balanced live) (type : TypeInfo D)
    (handle : Handle V) :
    ((new type handle).runOn w).2.Balanced (((new type handle).runOn w).1.toOption.toList ++ live) ∧
    ∀ p, ((new type handle).runOn w).1 = .ok p → p.handle = handle ∧ p.registered = p.identity := by
  obtain ⟨box, w₁, hbox, hsame⟩ := boxAddress_roots type.layout w
  have hw₁ : w₁.Balanced live := hw.of_same (congrArg (·.persistents) hsame)
  unfold new
  rw [Act.runOn_bind_ok hbox]
  rcases hrun : (register ⟨type, handle, box, none⟩).runOn w₁ with ⟨fault | registered, w₂⟩
  · rw [Act.runOn_bind_error hrun]
    exact ⟨refused_balanced hw₁ hrun, fun p hp => nomatch hp⟩
  · rw [Act.runOn_bind_ok hrun]
    obtain ⟨hidentity, hw₂⟩ := register_balanced hw₁ hrun
    refine ⟨hw₂, ?_⟩
    intro p hp
    cases hp
    exact ⟨rfl, hidentity⟩

/-- What cloning comes to: a new handle that stores the same, after the hooks have had
their say. -/
theorem clone_runOn [BEq D] (hooks : Hooks σ) (p : PersistentHandle D V) (w : World σ D ω) :
    ∃ w', w'.roots = w.roots ∧ (p.clone hooks).runOn w = (new p.type p.handle).runOn w' := by
  unfold clone
  cases p.handle with
  | value h => exact ⟨w, rfl, rfl⟩
  | reference h =>
    refine ⟨{ w with collector := (h.clone hooks w.collector).2 }, rfl, ?_⟩
    exact Act.runOn_bind_ok rfl

/-! ## Updates -/

/-- A handle that some code has changed, registered as before. -/
def changedBy (p : PersistentHandle D V) (change : Change σ V) (w : World σ D ω) :
    PersistentHandle D V :=
  { p with handle := (change p.handle w.collector).2.1 }

/-- The world that this code leaves behind. -/
def afterChange (p : PersistentHandle D V) (change : Change σ V) (w : World σ D ω) :
    World σ D ω :=
  { w with collector := (change p.handle w.collector).2.2 }

/-- If the code does not fail, then the new registration is not refused. -/
def Granted [BEq D] (p : PersistentHandle D V) (change : Change σ V) (w : World σ D ω) : Prop :=
  (change p.handle w.collector).1 = .ok () →
    ∃ registered mid,
      (p.changedBy change w).register.runOn (p.afterChange change w) = (.ok registered, mid)

/-- What an update that is granted comes to. -/
structure Updated [BEq D] (p : PersistentHandle D V) (change : Change σ V) (w : World σ D ω)
    (p' : PersistentHandle D V) (w' : World σ D ω) : Prop where
  stored : p'.handle = (change p.handle w.collector).2.1
  type : p'.type = p.type
  /-- If the code fails, the registration is left as it was. -/
  failed : ∀ fault, (change p.handle w.collector).1 = .error fault →
    p'.registered = p.registered ∧ w'.roots = w.roots
  /-- Otherwise the handle is registered as what it stores now. -/
  registered : (change p.handle w.collector).1 = .ok () → p'.registered = p'.identity
  /-- A registration that stays the same is counted twice between the two halves of the
  update, so that the root is there all along. -/
  neverErased : ∀ k, (change p.handle w.collector).1 = .ok () → p.registered = some k →
    p'.registered = some k →
    ∃ mid, (p.changedBy change w).register.runOn (p.afterChange change w) = (.ok (some k), mid) ∧
      p.unregister.runOn mid = (.ok (), w') ∧
      0 < w.pool.refcount k ∧ mid.pool.refcount k = w.pool.refcount k + 1 ∧
      w'.pool.refcount k = w.pool.refcount k

theorem update_runOn_of_error [BEq D] {change : Change σ V} {fault : Fault}
    (hfault : (change p.handle w.collector).1 = .error fault) :
    (p.update change).runOn w =
      (.ok (p.changedBy change w, .error fault), p.afterChange change w) := by
  unfold update
  rw [Act.runOn_bind, Act.runOn_onCollector]
  rcases hchange : change p.handle w.collector with ⟨outcome, handle, s⟩
  rw [hchange] at hfault
  cases hfault
  simp [hchange, changedBy, afterChange]

theorem update_runOn_of_ok [BEq D] {change : Change σ V} {registered : Pointer}
    {mid : World σ D ω} (hok : (change p.handle w.collector).1 = .ok ())
    (hrun : (p.changedBy change w).register.runOn (p.afterChange change w) =
      (.ok registered, mid)) :
    (p.update change).runOn w =
      (.ok ({ p.changedBy change w with registered }, (p.unregister.runOn mid).1),
        (p.unregister.runOn mid).2) := by
  unfold update
  rw [Act.runOn_bind, Act.runOn_onCollector]
  rcases hchange : change p.handle w.collector with ⟨outcome, handle, s⟩
  rw [hchange] at hok
  cases hok
  simp only [changedBy, afterChange, hchange] at hrun ⊢
  simp only [Act.runOn_bind, Act.runOn_attempt, hrun]
  rfl

/-- An update that is granted fails only if its code does, and keeps the accounts. -/
theorem update_balanced [BEq D] [LawfulBEq D] (hw : w.Balanced (p :: live))
    (change : Change σ V) (hgranted : p.Granted change w)
    (hkind : (p.changedBy change w).handle.discipline = p.handle.discipline) :
    ∃ p' w', (p.update change).runOn w = (.ok (p', (change p.handle w.collector).1), w') ∧
      w'.Balanced (p' :: live) ∧ Updated p change w p' w' := by
  have hchanged : (p.afterChange change w).Balanced (p :: live) := hw.of_same rfl
  cases houtcome : (change p.handle w.collector).1 with
  | error fault =>
    refine ⟨_, _, update_runOn_of_error houtcome, ?_, ?_⟩
    · exact ⟨hw.idle, hw.accounts.cons_altered rfl rfl hkind⟩
    · constructor
      case stored | type => rfl
      case failed => exact fun _ _ => ⟨rfl, rfl⟩
      case registered =>
        intro hok
        rw [houtcome] at hok
        cases hok
      case neverErased =>
        intro k hok
        rw [houtcome] at hok
        cases hok
  | ok _ =>
    obtain ⟨registered, mid, hrun⟩ := hgranted houtcome
    obtain ⟨hidentity, hmid⟩ := register_balanced hchanged hrun
    -- between the halves both registrations are held
    let p' : PersistentHandle D V := { p.changedBy change w with registered }
    have hswap : mid.Balanced (p :: p' :: live) := ⟨hmid.idle, hmid.accounts.perm (.swap _ _ _)⟩
    obtain ⟨w', hremoved, hw'⟩ := unregister_balanced hswap
    refine ⟨p', w', ?_, hw', ?_⟩
    · rw [update_runOn_of_ok houtcome hrun, hremoved]
    · constructor
      case stored | type => rfl
      case failed =>
        intro fault hfault
        rw [houtcome] at hfault
        cases hfault
      case registered => exact fun _ => hidentity
      case neverErased =>
        intro k _ hbefore hafter
        replace hafter : registered = some k := hafter
        rw [hafter] at hrun
        refine ⟨mid, hrun, hremoved, hw.accounts.refcount_pos List.mem_cons_self hbefore, ?_, ?_⟩
        · rw [hmid.accounts.counted, hw.accounts.counted, holders_cons, hafter]
          simp
        · rw [hw'.accounts.counted, hw.accounts.counted, holders_cons, holders_cons, hbefore]
          simp [p', hafter]

end PersistentHandle

/-! ## Runs -/

/-- Native code that holds persistent handles. -/
structure Holding (σ D V ω : Type) where
  world : World σ D ω
  /-- The handles that were created and not dropped. -/
  live : List (PersistentHandle D V)

namespace Holding

/-- One step of native code outside of visits.  Whatever fails is survived, with the
world as the fault has left it.  Handles may go through different hooks. -/
inductive Step [BEq D] : Holding σ D V ω → Holding σ D V ω → Prop
  /-- A handle of any kind is created, or refused. -/
  | created {h : Holding σ D V ω} (type : TypeInfo D) (handle : Handle V) :
      Step h ⟨((PersistentHandle.new type handle).runOn h.world).2,
        ((PersistentHandle.new type handle).runOn h.world).1.toOption.toList ++ h.live⟩
  /-- A handle is cloned, or the clone is refused. -/
  | cloned {h : Holding σ D V ω} (hooks : Hooks σ) {p : PersistentHandle D V}
      (hlive : p ∈ h.live) :
      Step h ⟨((p.clone hooks).runOn h.world).2,
        ((p.clone hooks).runOn h.world).1.toOption.toList ++ h.live⟩
  /-- A reference is read, and the hooks may rewrite what it stores. -/
  | read {h : Holding σ D V ω} (hooks : Hooks σ) {before after : List (PersistentHandle D V)}
      {p p' : PersistentHandle D V} {r : RefHandle} {target : Pointer} {w : World σ D ω}
      (hlive : h.live = before ++ p :: after) (hkind : p.handle = .reference r)
      (hrun : (p.read hooks r).runOn h.world = (.ok (target, p'), w)) :
      Step h ⟨w, before ++ p' :: after⟩
  /-- A handle is changed behind its registration.  The code of an update that goes on to
  use other handles is such changes and other steps, and an update in the end. -/
  | altered {h : Holding σ D V ω} {before after : List (PersistentHandle D V)}
      {p : PersistentHandle D V} (handle : Handle V) (hlive : h.live = before ++ p :: after)
      (hkind : handle.discipline = p.handle.discipline) :
      Step h ⟨h.world, before ++ { p with handle } :: after⟩
  /-- A handle is updated by code that may fail, and its new registration is granted. -/
  | updated {h : Holding σ D V ω} {before after : List (PersistentHandle D V)}
      {p p' : PersistentHandle D V} {change : PersistentHandle.Change σ V}
      {outcome : Except Fault Unit} {w : World σ D ω} (hlive : h.live = before ++ p :: after)
      (hkind : (p.changedBy change h.world).handle.discipline = p.handle.discipline)
      (hgranted : p.Granted change h.world)
      (hrun : (p.update change).runOn h.world = (.ok (p', outcome), w)) :
      Step h ⟨w, before ++ p' :: after⟩
  /-- A handle is dropped, with any outcome. -/
  | dropped {h : Holding σ D V ω} {before after : List (PersistentHandle D V)}
      {p : PersistentHandle D V} (hlive : h.live = before ++ p :: after) :
      Step h ⟨(p.drop.runOn h.world).2, before ++ after⟩
  /-- Something is done that leaves the persistent roots as they are. -/
  | elsewhere {h : Holding σ D V ω} {w : World σ D ω}
      (hsame : w.roots.persistents = h.world.roots.persistents) : Step h { h with world := w }

/-- Native code that started without roots and without handles. -/
def Reached [BEq D] (h : Holding σ D V ω) : Prop :=
  ∃ w : World σ D ω, w.roots = .empty ∧ ReflTransGen Step ⟨w, []⟩ h

/-- The accounts of a holding are balanced. -/
def Balanced (h : Holding σ D V ω) : Prop := h.world.Balanced h.live

/-- A live handle can be brought to the front. -/
theorem Balanced.front {h : Holding σ D V ω} (hh : h.Balanced)
    {before after : List (PersistentHandle D V)} {p : PersistentHandle D V}
    (hlive : h.live = before ++ p :: after) : h.world.Balanced (p :: (before ++ after)) := by
  refine ⟨hh.idle, hh.accounts.perm ?_⟩
  rw [hlive]
  exact List.perm_middle

/-- A handle at the front can be put back into its place. -/
theorem balanced_of_front {w : World σ D ω} {before after : List (PersistentHandle D V)}
    {p : PersistentHandle D V} (h : w.Balanced (p :: (before ++ after))) :
    (⟨w, before ++ p :: after⟩ : Holding σ D V ω).Balanced :=
  ⟨h.idle, h.accounts.perm List.perm_middle.symm⟩

theorem Balanced.step [BEq D] [LawfulBEq D] {h h' : Holding σ D V ω} (hh : h.Balanced)
    (hstep : Step h h') : h'.Balanced := by
  -- a handle that changes is brought to the front, and put back afterwards
  cases hstep with
  | created type handle => exact (PersistentHandle.new_balanced hh type handle).1
  | @cloned hooks p hlive =>
    obtain ⟨w, hsame, hrun⟩ := p.clone_runOn hooks h.world
    rw [hrun]
    exact (PersistentHandle.new_balanced (hh.of_same (congrArg (·.persistents) hsame)) _ _).1
  | @read hooks before after p p' r target w hlive hkind hrun =>
    cases hrun
    refine balanced_of_front ?_
    have hfront := hh.front hlive
    refine ⟨hfront.idle, hfront.accounts.cons_altered rfl rfl ?_⟩
    rw [hkind]
    rfl
  | altered handle hlive hkind =>
    refine balanced_of_front ?_
    have hfront := hh.front hlive
    exact ⟨hfront.idle, hfront.accounts.cons_altered rfl rfl hkind⟩
  | @updated before after p p' change outcome w hlive hkind hgranted hrun =>
    refine balanced_of_front ?_
    obtain ⟨_, _, hupdate, hbalanced, _⟩ :=
      PersistentHandle.update_balanced (hh.front hlive) change hgranted hkind
    rw [hrun] at hupdate
    cases hupdate
    exact hbalanced
  | dropped hlive =>
    obtain ⟨w, hdrop, hbalanced⟩ := PersistentHandle.unregister_balanced (hh.front hlive)
    unfold PersistentHandle.drop
    rw [hdrop]
    exact hbalanced
  | elsewhere hsame => exact hh.of_same hsame

theorem Reached.balanced [BEq D] [LawfulBEq D] {h : Holding σ D V ω} (hreached : h.Reached) :
    h.Balanced := by
  rcases hreached with ⟨w, hempty, hsteps⟩
  induction hsteps with
  | refl =>
    refine ⟨by rw [hempty]; rfl, ?_⟩
    rw [World.pool, hempty]
    exact Accounts.empty
  | tail _ hstep ih => exact ih.step hstep

/-- The accounts of persistent roots.  At any time, after any run in which no update had
its new registration refused:

* a root is counted as often as live handles are registered as it, and it is shown
  exactly if that is at least once, with the descriptor of the type of each of them;
* weak handles are not registered, and a handle that is new, cloned or updated is
  registered as what it stores then;
* an update that is granted fails only if its code does, and does not lose a root that it
  holds before and after;
* a handle can always be dropped. -/
theorem refcounts_count_live_handles [BEq D] [LawfulBEq D] {h : Holding σ D V ω}
    (hreached : h.Reached) :
    (∀ k, h.world.pool.refcount k = h.live.countP fun p => p.registered = some k) ∧
    (∀ k, (∃ descriptor, (descriptor, k) ∈ h.world.pool.roots) ↔
      0 < h.live.countP fun p => p.registered = some k) ∧
    (∀ p ∈ h.live, ∀ k, p.registered = some k → ∀ descriptor,
      p.type.descriptor = .ok descriptor ↔ (descriptor, k) ∈ h.world.pool.roots) ∧
    (∀ p ∈ h.live, p.handle.discipline = .weak → p.registered = none) ∧
    (∀ type (handle : Handle V) p, ((PersistentHandle.new type handle).runOn h.world).1 = .ok p →
      p.handle = handle ∧ p.registered = p.identity) ∧
    (∀ p ∈ h.live, ∀ hooks copy, ((p.clone hooks).runOn h.world).1 = .ok copy →
      copy.handle = p.handle ∧ copy.registered = copy.identity) ∧
    (∀ p ∈ h.live, ∀ change : PersistentHandle.Change σ V, p.Granted change h.world →
      (p.changedBy change h.world).handle.discipline = p.handle.discipline →
      ∃ p' w, (p.update change).runOn h.world =
          (.ok (p', (change p.handle h.world.collector).1), w) ∧
        p.Updated change h.world p' w) ∧
    (∀ p ∈ h.live, (p.drop.runOn h.world).1 = .ok ()) := by
  have hh : h.Balanced := hreached.balanced
  have haccounts : Accounts h.world.pool h.live := hh.accounts
  refine ⟨haccounts.counted, ?_, ?_, haccounts.weak, ?_, ?_, ?_, ?_⟩
  · intro k
    have hcounted : h.world.pool.refcount k = h.live.countP fun p => p.registered = some k :=
      haccounts.counted k
    rw [← hcounted, haccounts.sound.refcount_pos_iff]
    exact exists_congr fun descriptor => haccounts.sound.mem_roots_iff
  · intro p hp k hk descriptor
    obtain ⟨recorded, htype, hthere⟩ := haccounts.described p hp k hk
    rw [haccounts.sound.mem_roots_iff, htype, hthere, Except.ok.injEq, Option.some.injEq]
  · exact fun type handle => (PersistentHandle.new_balanced hh type handle).2
  · intro p hp hooks copy hcopy
    obtain ⟨w, hsame, hrun⟩ := p.clone_runOn hooks h.world
    rw [hrun] at hcopy
    -- the hooks of the clone do not touch the roots
    have hw : w.Balanced h.live := hh.of_same (congrArg (·.persistents) hsame)
    exact (PersistentHandle.new_balanced hw p.type p.handle).2 copy hcopy
  · intro p hp change hgranted hkind
    obtain ⟨before, after, hlive⟩ := List.append_of_mem hp
    obtain ⟨p', w, hupdate, _, hupdated⟩ :=
      PersistentHandle.update_balanced (hh.front hlive) change hgranted hkind
    exact ⟨p', w, hupdate, hupdated⟩
  · intro p hp
    obtain ⟨before, after, hlive⟩ := List.append_of_mem hp
    obtain ⟨w, hdrop, _⟩ := PersistentHandle.unregister_balanced (hh.front hlive)
    unfold PersistentHandle.drop
    rw [hdrop]

/-- Two handles of a strong reference and its clone are two counts of one root, and either
can be dropped. -/
theorem strong_reference_and_clone_counted_twice :
    ∃ h : Holding Unit Char Nat Unit, h.Reached ∧ h.live.length = 2 ∧
      h.world.pool.refcount (.object 3) = 2 ∧ ('d', .object 3) ∈ h.world.pool.roots ∧
      ∀ p ∈ h.live, (p.drop.runOn h.world).1 = .ok () := by
  let start : Holding Unit Char Nat Unit := ⟨⟨.empty, (), 0, [], ()⟩, []⟩
  let type : TypeInfo Char := ⟨.ok 'd', false, ⟨8, 8⟩⟩
  let p : PersistentHandle Char Nat :=
    ⟨type, .reference ⟨.strong, some (.object 3)⟩, .box 0, some (.object 3)⟩
  let once : Holding Unit Char Nat Unit :=
    ⟨((PersistentHandle.new type p.handle).runOn start.world).2, [p]⟩
  let twice : Holding Unit Char Nat Unit :=
    ⟨((p.clone Hooks.noBarrier).runOn once.world).2, [{ p with box := .box 1 }, p]⟩
  have hreached : twice.Reached := by
    refine ⟨start.world, rfl, .tail (b := once) (.single ?_) ?_⟩
    · exact .created type p.handle
    · exact .cloned Hooks.noBarrier List.mem_cons_self
  obtain ⟨hcount, hroots, hdescribed, _, _, _, _, hdrop⟩ := refcounts_count_live_handles hreached
  refine ⟨twice, hreached, rfl, hcount (.object 3), ?_, hdrop⟩
  exact (hdescribed p (List.mem_cons_of_mem _ List.mem_cons_self) _ rfl 'd').1 rfl

end Holding

end TracedHeap
