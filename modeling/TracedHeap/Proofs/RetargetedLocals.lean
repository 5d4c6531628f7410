import TracedHeap.Proofs.ScopeExtent

/-! # What a retargeted local stores

A strong local that is pointed to a new target stores what the write hook makes of that
target, and only then is the target itself rooted.  Any of the steps in between may
store another pointer or fail.

* `Scope.retarget_runOn`: what pointing a local to a target comes to.
* `Scope.Follows`: what the local stores newly is rooted by the same call.

The main statement is `retargeted_local_rooted_iff`, which says exactly when that is so.
-/

namespace TracedHeap

variable {σ D ω : Type}

namespace RootSet

/-- The entries of the shadow stack. -/
abbrev entries (r : RootSet D) : List (StackEntry D Address) := r.locals.value.entries

/-- A root can be pushed unless the shadow stack is being looked at or the stamps have run
out. -/
theorem exists_push_iff (r : RootSet D) (descriptor : D) (data : Address) :
    (∃ r', r.push descriptor data = .ok r') ↔
      r.locals.borrow = .idle ∧ r.locals.value.nextStamp + 1 < Word.bound := by
  simp only [push_eq_ok_iff]
  constructor
  · rintro ⟨_, hidle, stack, hstack, -⟩
    obtain ⟨next, hnext, -⟩ := except_bind_eq_ok_iff.1 hstack
    exact ⟨hidle, (Word.add_eq_ok_iff.1 hnext).1⟩
  · rintro ⟨hidle, hstamps⟩
    have hstack : ∃ stack, r.locals.value.push descriptor data = .ok stack :=
      ⟨_, except_bind_eq_ok_iff.2 ⟨_, Word.add_eq_ok_iff.2 ⟨hstamps, rfl⟩, rfl⟩⟩
    obtain ⟨stack, hstack⟩ := hstack
    exact ⟨_, hidle, stack, hstack, rfl⟩

end RootSet

namespace Scope

/-- What a call pushes on the shadow stack when it roots a target. -/
def Pushes (type : TypeInfo D) (target : Pointer) (outcome : Except Fault Unit)
    (pushed : List (StackEntry D Address)) : Prop :=
  (pushed = [] ∧ (outcome = .ok () → target = none)) ∨
    ∃ e : StackEntry D Address, pushed = [e] ∧ outcome = .ok () ∧ target = some e.data ∧
      type.descriptor = .ok e.descriptor

/-- Rooting a target succeeds unless it must be pushed and its descriptor cannot be had, the
shadow stack is being looked at, or the stamps have run out. -/
theorem rootTarget_eq_ok_iff {type : TypeInfo D} {target : Pointer} {w : World σ D ω} :
    ((rootTarget type target).runOn w).1 = .ok () ↔
      target = none ∨ (∃ descriptor, type.descriptor = .ok descriptor) ∧
        w.roots.locals.borrow = .idle ∧ w.roots.locals.value.nextStamp + 1 < Word.bound := by
  cases target with
  | none => simp [rootTarget]
  | some data =>
    unfold rootTarget
    cases htype : type.descriptor with
    | error fault => simp [Act.demand, Act.runOn_bind]
    | ok descriptor =>
      simp only [Act.demand, pure_bind, Act.push, Act.runOn_change, reduceCtorEq, false_or,
        Except.ok.injEq, exists_eq', true_and]
      rw [← w.roots.exists_push_iff descriptor data]
      cases w.roots.push descriptor data with
      | error fault => simp
      | ok roots => simp

/-- Pointing a local to a target stores what the write hook makes of it, whatever comes of
rooting the target. -/
theorem retarget_runOn (hooks : Hooks σ) (s : Scope) (h : RefHandle) (type : TypeInfo D)
    (target : Pointer) (w : World σ D ω) :
    let written := hooks.write target h.stored w.collector
    let rooted := (rootTarget type target).runOn { w with collector := written.2 }
    (s.retarget hooks h type target).runOn w =
      (.ok ({ h with stored := written.1 }, rooted.1), rooted.2) := by
  intro written rooted
  unfold retarget
  simp only [Act.runOn_bind, Act.runOn_onCollector, Act.runOn_attempt]
  rfl

theorem rootTarget_pushes (type : TypeInfo D) (target : Pointer) (w : World σ D ω) :
    ∃ pushed, ((rootTarget type target).runOn w).2.roots.entries = w.roots.entries ++ pushed ∧
      Pushes type target ((rootTarget type target).runOn w).1 pushed := by
  rcases LocalRoot.runOn_rootTarget_cases type target w (r := .strong type target) rfl rfl with
    ⟨hsame, hnull⟩ | ⟨hok, descriptor, data, hdescriptor, htarget, hpush⟩
  · refine ⟨[], ?_, Or.inl ⟨rfl, hnull⟩⟩
    rw [hsame, List.append_nil]
  · obtain ⟨-, stack, hstack, hroots⟩ := RootSet.push_eq_ok_iff.1 hpush
    refine ⟨[⟨descriptor, data, w.roots.locals.value.nextStamp⟩], ?_,
      Or.inr ⟨_, rfl, hok, htarget, hdescriptor⟩⟩
    rw [hroots]
    exact congrArg (·.entries) (ShadowStack.push_eq_ok hstack)

/-- What a local stores newly is among the entries that were pushed, with the descriptor of
its type. -/
def Follows (type : TypeInfo D) (before after : Pointer)
    (pushed : List (StackEntry D Address)) : Prop :=
  ∀ data, after = some data → after ≠ before →
    ∃ e ∈ pushed, e.data = data ∧ type.descriptor = .ok e.descriptor

/-- What is pushed is the target, so that nothing else that is stored newly is among it. -/
theorem Pushes.follows_iff {type : TypeInfo D} {target before after : Pointer}
    {outcome : Except Fault Unit} {pushed : List (StackEntry D Address)}
    (h : Pushes type target outcome pushed) :
    Follows type before after pushed ↔
      after = none ∨ after = before ∨ outcome = .ok () ∧ after = target := by
  constructor
  · intro hfollows
    cases hafter : after with
    | none => exact Or.inl rfl
    | some data =>
      right
      by_cases hsame : after = before
      · exact Or.inl (hafter ▸ hsame)
      · right
        obtain ⟨e, he, rfl, -⟩ := hfollows data hafter hsame
        rcases h with ⟨rfl, -⟩ | ⟨e', rfl, hok, htarget, -⟩
        · cases he
        · rw [List.mem_singleton] at he
          exact ⟨hok, by rw [he, htarget]⟩
  · rintro (hnull | hsame | ⟨hok, htarget⟩) data hdata hnew
    · rw [hnull] at hdata
      cases hdata
    · exact absurd hsame hnew
    · rw [htarget] at hdata
      rcases h with ⟨-, hnull⟩ | ⟨e, rfl, -, he, hdescriptor⟩
      · rw [hnull hok] at hdata
        cases hdata
      · rw [he] at hdata
        exact ⟨e, List.mem_singleton_self e, Option.some.inj hdata, hdescriptor⟩

/-- The root of a retargeted local.  Point a strong local to a target through any scope, in
any state of the world and with any hooks.  The local then stores what the write hook made
of the target.  Entries are only pushed, at most one, and only the target itself: it is
pushed if it is not null, its descriptor can be had, nobody looks at the shadow stack and
the stamps have not run out, and otherwise there is a fault.

So the local stores nothing that this call has not rooted exactly if it stores null, or what it
stored before, or the target, and in that case there was no fault.  It does if the write hook
stores another object in place of the target, or if a fault follows on the hook. -/
theorem retargeted_local_rooted_iff (hooks : Hooks σ) (s : Scope) (h : RefHandle)
    (type : TypeInfo D) (target : Pointer) (w : World σ D ω) :
    ∃ h' outcome w' pushed, (s.retarget hooks h type target).runOn w = (.ok (h', outcome), w') ∧
      h' = { h with stored := (hooks.write target h.stored w.collector).1 } ∧
      w'.roots.entries = w.roots.entries ++ pushed ∧
      Pushes type target outcome pushed ∧
      (outcome = .ok () ↔ target = none ∨ (∃ descriptor, type.descriptor = .ok descriptor) ∧
        w.roots.locals.borrow = .idle ∧ w.roots.locals.value.nextStamp + 1 < Word.bound) ∧
      ((∀ data, h'.stored = some data → h'.stored ≠ h.stored →
          ∃ e ∈ pushed, e.data = data ∧ type.descriptor = .ok e.descriptor) ↔
        h'.stored = none ∨ h'.stored = h.stored ∨ outcome = .ok () ∧ h'.stored = target) := by
  obtain ⟨pushed, hentries, hpushes⟩ := rootTarget_pushes type target
    { w with collector := (hooks.write target h.stored w.collector).2 }
  exact ⟨_, _, _, pushed, retarget_runOn hooks s h type target w, rfl, hentries, hpushes,
    rootTarget_eq_ok_iff, hpushes.follows_iff⟩

/-- A local that stores the first object is pointed to the second one, in place of which the
write hook stores the third one.  The second one is rooted, and the third one is not. -/
theorem redirected_target_not_rooted :
    let redirect : Hooks Unit :=
      { Hooks.noBarrier with write := fun _ _ s => (some (.object 3), s) }
    let type : TypeInfo Char := ⟨.ok 'd', false, ⟨8, 8⟩⟩
    let first : RefHandle := ⟨.strong, some (.object 1)⟩
    let ran := (retarget redirect ⟨⟨0, 0⟩⟩ first type (some (.object 2))).runOn
      (⟨.empty, (), 0, [], ()⟩ : World Unit Char Unit)
    ran.1 = .ok (⟨.strong, some (.object 3)⟩, .ok ()) ∧
    ran.2.roots.entries = [⟨'d', .object 2, 1⟩] ∧
    ¬ ∃ e ∈ ran.2.roots.entries, e.data = .object 3 ∧ type.descriptor = .ok e.descriptor := by
  intro redirect type first ran
  obtain ⟨h', outcome, w', pushed, hrun, hstored, hentries, -, hok, hrooted⟩ :=
    retargeted_local_rooted_iff redirect ⟨⟨0, 0⟩⟩ first type (some (.object 2))
      (⟨.empty, (), 0, [], ()⟩ : World Unit Char Unit)
  obtain rfl : outcome = .ok () := hok.2 (Or.inr ⟨⟨'d', rfl⟩, rfl, by decide⟩)
  have hran : ran = (.ok (h', .ok ()), w') := hrun
  replace hstored : h' = ⟨.strong, some (.object 3)⟩ := hstored
  refine ⟨by rw [hran, hstored], rfl, ?_⟩
  rintro ⟨e, he, hdata, hdescriptor⟩
  -- there were no entries before, so that all of them were pushed
  rw [hran, hentries] at he
  have hpushed : e ∈ pushed := he
  rw [hstored] at hrooted
  rcases hrooted.1 fun data hnew _ =>
      ⟨e, hpushed, hdata.trans (Option.some.inj hnew), hdescriptor⟩ with hnull | hsame | ⟨-, hsame⟩
  · cases hnull
  · cases hsame
  · cases hsame

end Scope

end TracedHeap
