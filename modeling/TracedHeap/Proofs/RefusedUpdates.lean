import TracedHeap.Proofs.PersistentAccounts

/-! # Updates that are refused

An update registers its handle anew before it removes the old registration, and forgets
the old one before either.  So when the new registration is refused, the root that was
registered stays counted, and no handle knows of it any more.

1. **One update**: what a refusal leaves (`PersistentHandle.update_of_refused`), and that a
   root which is recorded with another descriptor is refused.
2. **Runs** in which updates may be refused, with the handles as they were registered
   before (`Losing`).  The pool counts them as if they were live (`Losing.Balanced`).
3. **The end**: a root set from which registrations were lost is not empty in the end.

The main statement is `refused_update_loses_registration`.
-/

namespace TracedHeap

open Relation (ReflTransGen)

variable {σ D V ω : Type}

namespace PersistentHandle

/-! ## One update -/

variable {p : PersistentHandle D V} {w : World σ D ω} {change : Change σ V} {fault : Fault}

/-- The code of an update succeeds, but the handle cannot be registered as what it
stores then. -/
def Refused [BEq D] (p : PersistentHandle D V) (change : Change σ V) (w : World σ D ω)
    (fault : Fault) : Prop :=
  (change p.handle w.collector).1 = .ok () ∧
    ((p.changedBy change w).register.runOn (p.afterChange change w)).1 = .error fault

theorem refused_or_granted [BEq D] (p : PersistentHandle D V) (change : Change σ V)
    (w : World σ D ω) : (∃ fault, p.Refused change w fault) ∨ p.Granted change w := by
  rcases hrun : (p.changedBy change w).register.runOn (p.afterChange change w) with
    ⟨fault | registered, mid⟩
  · cases houtcome : (change p.handle w.collector).1 with
    | ok _ => exact Or.inl ⟨fault, houtcome, by rw [hrun]⟩
    | error _ =>
      right
      intro hok
      rw [houtcome] at hok
      cases hok
  · exact Or.inr fun _ => ⟨registered, mid, hrun⟩

/-- A refused update leaves the root set as it was and the handle without a
registration. -/
theorem update_of_refused [BEq D] (h : p.Refused change w fault) :
    ∃ w', (p.update change).runOn w =
        (.ok ({ p.changedBy change w with registered := none }, .error fault), w') ∧
      w'.roots = w.roots := by
  rcases h with ⟨hok, hfault⟩
  have hcases := (p.changedBy change w).register_cases (p.afterChange change w)
  rcases hrun : (p.changedBy change w).register.runOn (p.afterChange change w) with ⟨outcome, w'⟩
  rw [hrun] at hfault hcases
  replace hfault : outcome = .error fault := hfault
  subst hfault
  refine ⟨w', ?_, ?_⟩
  · unfold update
    rw [Act.runOn_bind, Act.runOn_onCollector]
    rcases hchange : change p.handle w.collector with ⟨changed, handle, s⟩
    rw [hchange] at hok
    cases hok
    simp only [changedBy, afterChange, hchange] at hrun ⊢
    simp only [Act.runOn_bind, Act.runOn_attempt, hrun]
    rfl
  · rcases hcases with ⟨_, _, hsame⟩ | ⟨_, hok⟩ | ⟨_, _, _, _, hok, _⟩
    · exact hsame
    · cases hok
    · cases hok

/-- A root that is recorded with another descriptor than that of the type is refused. -/
theorem refused_of_conflict [BEq D] [LawfulBEq D] {stored : Address} {descriptor recorded : D}
    (hok : (change p.handle w.collector).1 = .ok ())
    (hstored : (change p.handle w.collector).2.1 = .reference ⟨.strong, some stored⟩)
    (htype : p.type.descriptor = .ok descriptor) (hidle : w.roots.persistents.borrow = .idle)
    (hrecorded : w.pool.descriptor? stored = some recorded) (hother : recorded ≠ descriptor) :
    p.Refused change w (.failed .descriptorConflict) := by
  refine ⟨hok, ?_⟩
  have hidentity : (p.changedBy change w).identity = some stored := by
    rw [identity, changedBy, hstored]
  have hstrong : (p.changedBy change w).handle.discipline ≠ .value := by
    rw [changedBy, hstored]
    intro h
    cases h
  have hadd : w.pool.add stored descriptor = .error (.failed .descriptorConflict) := by
    rcases hfind : w.pool.records.find? stored with _ | record
    · simp [Pool.descriptor?, hfind] at hrecorded
    · have hrecord : record.descriptor = recorded := by
        simpa [Pool.descriptor?, hfind] using hrecorded
      simp [Pool.add, hfind, hrecord, hother]
  have hregister : w.roots.register stored descriptor = .error (.failed .descriptorConflict) := by
    simp only [World.pool] at hadd
    simp [RootSet.register, BorrowCell.mutate, BorrowCell.seize, Borrow.seize, hidle, hadd, bind,
      Except.bind, pure, Except.pure]
  unfold register
  rw [hidentity]
  simp only [show (p.changedBy change w).type.descriptor = .ok descriptor from htype, Act.demand,
    pure_bind, hstrong, false_and, if_false]
  unfold Act.register
  simp only [Act.runOn_bind, Act.runOn_get, Act.runOn_change,
    show (p.afterChange change w).roots = w.roots from rfl, hregister]

/-- A handle without a registration can be dropped, which changes nothing. -/
theorem drop_of_unregistered (hp : p.registered = none) : p.drop.runOn w = (.ok (), w) := by
  unfold drop unregister
  rw [hp]
  rfl

end PersistentHandle

/-! ## Runs -/

/-- A holding together with the registrations that it has lost. -/
structure Losing (σ D V ω : Type) extends Holding σ D V ω where
  /-- The handles whose updates were refused, as they were before. -/
  lost : List (PersistentHandle D V)

theorem holders_append (live others : List (PersistentHandle D V)) (k : Address) :
    holders (live ++ others) k = holders live k + holders others k :=
  List.countP_append

/-- Handles that a step does not name can be added. -/
theorem Holding.Step.frame [BEq D] {h h' : Holding σ D V ω} (hstep : Holding.Step h h')
    (others : List (PersistentHandle D V)) :
    Holding.Step ⟨h.world, h.live ++ others⟩ ⟨h'.world, h'.live ++ others⟩ := by
  cases hstep with
  | created type handle =>
    rw [List.append_assoc]
    exact .created type handle
  | cloned hooks hlive =>
    rw [List.append_assoc]
    exact .cloned (h := ⟨h.world, h.live ++ others⟩) hooks (List.mem_append_left _ hlive)
  | read hooks hlive hkind hrun =>
    simp only [hlive, List.append_assoc, List.cons_append]
    exact .read hooks rfl hkind hrun
  | altered handle hlive hkind =>
    simp only [hlive, List.append_assoc, List.cons_append]
    exact .altered handle rfl hkind
  | updated hlive hkind hgranted hrun =>
    simp only [hlive, List.append_assoc, List.cons_append]
    exact .updated rfl hkind hgranted hrun
  | dropped hlive =>
    simp only [hlive, List.append_assoc, List.cons_append]
    exact .dropped (h := ⟨h.world, _⟩) rfl
  | elsewhere hsame => exact .elsewhere (h := ⟨h.world, h.live ++ others⟩) hsame

namespace Losing

/-- One step of native code outside of visits, in which an update may be refused. -/
inductive Step [BEq D] : Losing σ D V ω → Losing σ D V ω → Prop
  /-- Anything in which no update is refused. -/
  | kept {l : Losing σ D V ω} {h : Holding σ D V ω} (hstep : Holding.Step l.toHolding h) :
      Step l ⟨h, l.lost⟩
  /-- A handle is updated, and its new registration is refused. -/
  | refused {l : Losing σ D V ω} {before after : List (PersistentHandle D V)}
      {p p' : PersistentHandle D V} {change : PersistentHandle.Change σ V} {fault : Fault}
      {w : World σ D ω} (hlive : l.live = before ++ p :: after)
      (hrefused : p.Refused change l.world fault)
      (hrun : (p.update change).runOn l.world = (.ok (p', .error fault), w)) :
      Step l ⟨⟨w, before ++ p' :: after⟩, p :: l.lost⟩

/-- Native code that started without roots and without handles. -/
def Reached [BEq D] (l : Losing σ D V ω) : Prop :=
  ∃ w : World σ D ω, w.roots = .empty ∧ ReflTransGen Step ⟨⟨w, []⟩, []⟩ l

/-- The accounts of a holding are balanced if the lost registrations are counted as well. -/
def Balanced (l : Losing σ D V ω) : Prop := l.world.Balanced (l.live ++ l.lost)

theorem Balanced.step [BEq D] [LawfulBEq D] {l l' : Losing σ D V ω} (hl : l.Balanced)
    (hstep : Step l l') : l'.Balanced := by
  cases hstep with
  | kept hstep =>
    exact Holding.Balanced.step (h := ⟨l.world, l.live ++ l.lost⟩) hl (hstep.frame l.lost)
  | @refused before after p p' change fault w hlive hrefused hrun =>
    obtain ⟨w', hupdate, hsame⟩ := PersistentHandle.update_of_refused hrefused
    rw [hrun] at hupdate
    cases hupdate
    have hw : w.Balanced (l.live ++ l.lost) := hl.of_same (congrArg (·.persistents) hsame)
    refine ⟨hw.idle, (hw.accounts.cons_unregistered (p := { p.changedBy change l.world with
      registered := none }) rfl).perm ?_⟩
    -- the handle of before is counted among the lost ones from now on
    rw [hlive, List.append_assoc, List.append_assoc, List.cons_append, List.cons_append]
    refine .trans ?_ List.perm_middle.symm
    exact .cons _ (.append_left _ List.perm_middle.symm)

theorem Reached.balanced [BEq D] [LawfulBEq D] {l : Losing σ D V ω} (hreached : l.Reached) :
    l.Balanced := by
  rcases hreached with ⟨w, hempty, hsteps⟩
  induction hsteps with
  | refl =>
    refine ⟨by rw [hempty]; rfl, ?_⟩
    rw [World.pool, hempty]
    exact Accounts.empty
  | tail _ hstep ih => exact ih.step hstep

/-- What is lost stays lost. -/
theorem lost_suffix [BEq D] {l later : Losing σ D V ω} (hsteps : ReflTransGen Step l later) :
    l.lost <:+ later.lost := by
  induction hsteps with
  | refl => exact List.suffix_refl _
  | tail _ hstep ih =>
    cases hstep with
    | kept _ => exact ih
    | refused _ _ _ => exact ih.trans (List.suffix_cons _ _)

/-- A root that was lost is counted once more than by the live handles. -/
theorem Balanced.lt_refcount {l : Losing σ D V ω} (hl : l.Balanced) {p : PersistentHandle D V}
    {k : Address} (hp : p ∈ l.lost) (hk : p.registered = some k) :
    holders l.live k < l.world.pool.refcount k := by
  rw [hl.accounts.counted, holders_append]
  exact Nat.lt_add_of_pos_right (holders_pos hp hk)

end Losing

/-! ## The end -/

/-- A sound pool has no roots exactly if it counts none. -/
theorem Pool.Sound.size_eq_zero_iff {pool : Pool D Address} (hsound : pool.Sound) :
    pool.size = 0 ↔ ∀ k, pool.refcount k = 0 := by
  rw [Pool.size, AscendingMap.size, List.length_eq_zero_iff]
  constructor
  · intro hnone k
    have hroots : pool.roots = [] := by rw [Pool.roots, hnone, List.map_nil]
    by_contra hpos
    obtain ⟨d, hd⟩ := hsound.refcount_pos_iff.1 (Nat.pos_of_ne_zero hpos)
    have hmem := hsound.mem_roots_iff.2 hd
    rw [hroots] at hmem
    cases hmem
  · intro hzero
    rw [List.eq_nil_iff_forall_not_mem]
    rintro ⟨k, record⟩ hmem
    have hroot : (record.descriptor, k) ∈ pool.roots := List.mem_map_of_mem hmem
    have hpos := hsound.refcount_pos_iff.2 ⟨_, hsound.mem_roots_iff.1 hroot⟩
    rw [hzero k] at hpos
    exact absurd hpos (Nat.lt_irrefl 0)

/-- If only persistent roots are left, then the final check fails for them. -/
theorem RootSet.checkEmpty_of_poolSize {r : RootSet D} (hidle : r.persistents.borrow = .idle)
    (hleft : r.poolSize ≠ .ok 0) (hlocals : r.height = .ok 0) :
    r.checkEmpty = .error (.failed .persistentsOutlived) := by
  rw [poolSize, BorrowCell.inspect_idle hidle] at hleft
  unfold checkEmpty
  rw [hlocals, poolSize, BorrowCell.inspect_idle hidle]
  have hpos : r.persistents.value.size ≠ 0 := fun h => hleft (by rw [h])
  simp [bind, Except.bind, hpos, throw, throwThe, MonadExceptOf.throw]

namespace Losing

/-- Without live handles there are no persistent roots exactly if no registration was
lost. -/
theorem Balanced.poolSize_eq_zero_iff {l : Losing σ D V ω} (hl : l.Balanced) (hnone : l.live = []) :
    l.world.roots.poolSize = .ok 0 ↔ ∀ p ∈ l.lost, p.registered = none := by
  rw [RootSet.poolSize, BorrowCell.inspect_idle hl.idle, Except.ok.injEq,
    hl.accounts.sound.size_eq_zero_iff]
  have hcounted : ∀ k, l.world.pool.refcount k = holders l.lost k := by
    intro k
    rw [hl.accounts.counted, hnone, List.nil_append]
  constructor
  · intro hzero p hp
    cases hk : p.registered with
    | none => rfl
    | some k =>
      have hpos := holders_pos hp hk
      rw [← hcounted, hzero] at hpos
      exact absurd hpos (Nat.lt_irrefl 0)
  · intro hall k
    rw [hcounted, holders, List.countP_eq_zero]
    intro p hp
    simp [hall p hp]

/-- Refused updates.  At any time of any run in which updates may be refused:

* a root is counted once for each live handle that is registered as it, and once for each
  update of such a handle that was refused;
* an update is refused or granted, and refused if the handle then stores a root that is
  recorded with another descriptor than that of its type;
* a refused update leaves all counts as they were, but the handle has no registration any
  more: dropping it changes nothing, and the root that it was registered as stays counted
  for good, so that the check for persistent roots fails in the end;
* once all handles were dropped, that check passes exactly if no registration was lost. -/
theorem refused_update_loses_registration [BEq D] [LawfulBEq D] {l : Losing σ D V ω}
    (hreached : l.Reached) :
    (∀ k, l.world.pool.refcount k =
      (l.live.countP fun p => p.registered = some k) +
        l.lost.countP fun p => p.registered = some k) ∧
    (∀ (p : PersistentHandle D V) (change : PersistentHandle.Change σ V),
      (∃ fault, p.Refused change l.world fault) ∨ p.Granted change l.world) ∧
    (∀ p ∈ l.live, ∀ (change : PersistentHandle.Change σ V) stored descriptor recorded,
      (change p.handle l.world.collector).1 = .ok () →
      (change p.handle l.world.collector).2.1 = .reference ⟨.strong, some stored⟩ →
      p.type.descriptor = .ok descriptor → l.world.pool.descriptor? stored = some recorded →
      recorded ≠ descriptor → p.Refused change l.world (.failed .descriptorConflict)) ∧
    (∀ before p after, l.live = before ++ p :: after →
      ∀ (change : PersistentHandle.Change σ V) fault data, p.registered = some data →
      p.Refused change l.world fault →
      ∃ p' w, (p.update change).runOn l.world = (.ok (p', .error fault), w) ∧
        p'.handle = (change p.handle l.world.collector).2.1 ∧ p'.registered = none ∧
        (∀ k, w.pool.refcount k = l.world.pool.refcount k) ∧
        p'.drop.runOn w = (.ok (), w) ∧
        ∀ later, ReflTransGen Step ⟨⟨w, before ++ p' :: after⟩, p :: l.lost⟩ later →
          (later.live.countP fun q => q.registered = some data) <
            later.world.pool.refcount data ∧
          (later.world.roots.height = .ok 0 →
            later.world.roots.checkEmpty = .error (.failed .persistentsOutlived))) ∧
    (l.live = [] →
      (l.world.roots.poolSize = .ok 0 ↔ ∀ p ∈ l.lost, p.registered = none)) := by
  have hl : l.Balanced := hreached.balanced
  refine ⟨?_, fun p change => p.refused_or_granted change l.world, ?_, ?_,
    hl.poolSize_eq_zero_iff⟩
  · intro k
    exact (hl.accounts.counted k).trans (holders_append _ _ k)
  · intro p _ change stored descriptor recorded hok hstored htype hrecorded hother
    exact PersistentHandle.refused_of_conflict hok hstored htype hl.idle hrecorded hother
  · intro before p after hlive change fault data hdata hrefused
    obtain ⟨w, hupdate, hsame⟩ := PersistentHandle.update_of_refused hrefused
    refine ⟨_, w, hupdate, rfl, rfl, ?_, PersistentHandle.drop_of_unregistered rfl, ?_⟩
    · intro k
      rw [World.pool, hsame]
    · intro later hlater
      have hbalanced : later.Balanced := by
        obtain ⟨start, hempty, hsteps⟩ := hreached
        exact Reached.balanced ⟨start, hempty,
          (hsteps.tail (.refused hlive hrefused hupdate)).trans hlater⟩
      have hlost : p ∈ later.lost := (lost_suffix hlater).subset List.mem_cons_self
      have hcounted := hbalanced.lt_refcount hlost hdata
      refine ⟨hcounted, RootSet.checkEmpty_of_poolSize hbalanced.idle ?_⟩
      rw [RootSet.poolSize, BorrowCell.inspect_idle hbalanced.idle]
      intro hzero
      have hnone := hbalanced.accounts.sound.size_eq_zero_iff.1 (Except.ok.inj hzero) data
      rw [World.pool, hnone] at hcounted
      exact absurd hcounted (Nat.not_lt_zero _)

/-- Two objects of different types are rooted.  The root of the second one is counted for
good after its handle was pointed to the first one, although both handles are dropped. -/
theorem root_of_refused_handle_outlives_it :
    let narrow : TypeInfo Char := ⟨.ok 'a', false, ⟨4, 4⟩⟩
    let wide : TypeInfo Char := ⟨.ok 'b', false, ⟨8, 8⟩⟩
    let first : PersistentHandle Char Nat :=
      ⟨narrow, .reference ⟨.strong, some (.object 0)⟩, .box 0, some (.object 0)⟩
    let second : PersistentHandle Char Nat :=
      ⟨wide, .reference ⟨.strong, some (.object 1)⟩, .box 1, some (.object 1)⟩
    let repoint : PersistentHandle.Change Unit Nat := fun _ s =>
      (.ok (), .reference ⟨.strong, some (.object 0)⟩, s)
    ∃ l : Losing Unit Char Nat Unit, l.Reached ∧ l.live = [second, first] ∧
      ∃ p' w, (second.update repoint).runOn l.world =
          (.ok (p', .error (.failed .descriptorConflict)), w) ∧
        p'.registered = none ∧ w.pool.refcount (.object 1) = 1 ∧
        p'.drop.runOn w = (.ok (), w) ∧ (first.drop.runOn w).1 = .ok () ∧
        (first.drop.runOn w).2.pool.refcount (.object 1) = 1 ∧
        (first.drop.runOn w).2.roots.checkEmpty = .error (.failed .persistentsOutlived) := by
  intro narrow wide first second repoint
  let start : World Unit Char Unit := ⟨.empty, (), 0, [], ()⟩
  let once := (PersistentHandle.new narrow first.handle).runOn start
  let twice := (PersistentHandle.new wide second.handle).runOn once.2
  let l : Losing Unit Char Nat Unit := ⟨⟨twice.2, [second, first]⟩, []⟩
  have hreached : l.Reached := by
    refine ⟨start, rfl, .tail (b := ⟨⟨once.2, [first]⟩, []⟩) (.single (.kept ?_)) (.kept ?_)⟩
    · exact .created narrow first.handle
    · exact .created (h := ⟨once.2, [first]⟩) wide second.handle
  obtain ⟨-, -, hconflict, hrefused, -⟩ := refused_update_loses_registration hreached
  have hother : second.Refused repoint l.world (.failed .descriptorConflict) :=
    hconflict second List.mem_cons_self repoint (.object 0) 'b' 'a' rfl rfl rfl rfl (by decide)
  obtain ⟨p', w, hupdate, -, hnone, hcounts, hdrop, hlater⟩ :=
    hrefused [] second [first] rfl repoint _ (.object 1) rfl hother
  have hsecond : Step ⟨⟨w, [p', first]⟩, [second]⟩
      ⟨⟨(p'.drop.runOn w).2, [first]⟩, [second]⟩ :=
    .kept (.dropped (h := ⟨w, [p', first]⟩) (List.nil_append _).symm)
  have hfirst : Step ⟨⟨w, [first]⟩, [second]⟩ ⟨⟨(first.drop.runOn w).2, []⟩, [second]⟩ :=
    .kept (.dropped (h := ⟨w, [first]⟩) (List.nil_append _).symm)
  rw [hdrop] at hsecond
  have hw : w = ((second.update repoint).runOn l.world).2 := by rw [hupdate]
  refine ⟨l, hreached, rfl, p', w, hupdate, hnone, hcounts _, hdrop, ?_, ?_, ?_⟩
  · rw [hw]
    rfl
  · rw [hw]
    rfl
  · refine (hlater _ (.tail (.single hsecond) hfirst)).2 ?_
    rw [hw]
    rfl

end Losing

end TracedHeap
