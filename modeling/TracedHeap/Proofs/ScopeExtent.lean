import Mathlib.Data.List.Infix
import Mathlib.Logic.Relation
import TracedHeap.Proofs.Acts
import TracedHeap.Proofs.StackMarks
import TracedHeap.Roots.Scope

/-! # How long local roots last

All scopes of a thread share one shadow stack, and each pops it back to where it was
when the scope was opened.  So a root goes when any scope is closed that was open when
it was created, whichever of them it was created through.

1. **Local roots**: the ways to create one, and what each can do (`create_cases`).
2. **Nesting**: runs in which scopes are closed in the reverse order of opening.
3. **Invariant**: marks of open scopes are accepted, and higher further in.
4. **Two fates of a root**: it stays at its height while all scopes that were open
   are (`Nesting.Kept`), and is gone for good as soon as one is not (`Nesting.Gone`).

The main statement is `root_stays_iff_inner_scopes_open`.
-/

namespace TracedHeap

open Relation (ReflTransGen)

variable {σ D ω : Type}

/-! ## Local roots -/

/-- A root that a scope is asked for. -/
inductive LocalRoot (D : Type) where
  /-- The target of a new strong local. -/
  | strong (type : TypeInfo D) (target : Pointer)
  /-- The new target of a strong local. -/
  | retarget (h : RefHandle) (type : TypeInfo D) (target : Pointer)
  /-- Any object. -/
  | plain (descriptor : D) (data : Address)

namespace LocalRoot

/-- What is to be rooted. -/
def target : LocalRoot D → Pointer
  | .strong _ target | .retarget _ _ target => target
  | .plain _ data => some data

/-- The descriptor that it is to be rooted with. -/
def descriptor : LocalRoot D → Except Fault D
  | .strong type _ | .retarget _ type _ => type.descriptor
  | .plain descriptor _ => .ok descriptor

/-- Creates a root through a scope. -/
def create (hooks : Hooks σ) (s : Scope) : LocalRoot D → Act σ D ω Unit
  | .strong type target => do
    let _ ← s.newStrong hooks type target
  | .retarget h type target => do
    let (_, outcome) ← s.retarget hooks h type target
    match outcome with
    | .ok () => pure ()
    | .error fault => throw fault
  | .plain descriptor data => s.root descriptor data

/-- What came of creating a root: nothing was pushed, which is a success only if there
was nothing to root, or the target was pushed. -/
def Settled (r : LocalRoot D) (before after : RootSet D) (outcome : Except Fault Unit) : Prop :=
  (after = before ∧ (outcome = .ok () → r.target = none)) ∨
  (outcome = .ok () ∧ ∃ descriptor data, r.descriptor = .ok descriptor ∧
    r.target = some data ∧ before.push descriptor data = .ok after)

theorem runOn_push_cases (descriptor : D) (data : Address) (w : World σ D ω) :
    ((Act.push descriptor data).runOn w).2.roots = w.roots ∧
        ((Act.push descriptor data).runOn w).1 ≠ .ok () ∨
      ((Act.push descriptor data).runOn w).1 = .ok () ∧
        w.roots.push descriptor data = .ok ((Act.push descriptor data).runOn w).2.roots := by
  unfold Act.push
  rw [Act.runOn_change]
  cases hpush : w.roots.push descriptor data with
  | error fault =>
    left
    exact ⟨rfl, fun h => nomatch h⟩
  | ok roots =>
    right
    exact ⟨rfl, rfl⟩

theorem runOn_rootTarget_cases (type : TypeInfo D) (target : Pointer) (w : World σ D ω)
    {r : LocalRoot D} (htarget : r.target = target) (hdescriptor : r.descriptor = type.descriptor) :
    r.Settled w.roots ((Scope.rootTarget type target).runOn w).2.roots
      ((Scope.rootTarget type target).runOn w).1 := by
  cases target with
  | none =>
    left
    exact ⟨rfl, fun _ => htarget⟩
  | some data =>
    unfold Scope.rootTarget
    cases htype : type.descriptor with
    | error fault =>
      left
      exact ⟨rfl, fun h => nomatch h⟩
    | ok descriptor =>
      rcases runOn_push_cases descriptor data w with ⟨hsame, hfail⟩ | ⟨hok, hpush⟩
      · left
        exact ⟨hsame, fun h => absurd h hfail⟩
      · right
        exact ⟨hok, descriptor, data, hdescriptor.trans htype, htarget, hpush⟩

theorem create_cases (hooks : Hooks σ) (s : Scope) (r : LocalRoot D) (w : World σ D ω) :
    r.Settled w.roots ((r.create hooks s).runOn w).2.roots ((r.create hooks s).runOn w).1 := by
  -- the hooks have their say first, and leave the roots alone
  cases r with
  | strong type target =>
    let made := RefHandle.new hooks .strong target w.collector
    let w' : World σ D ω := { w with collector := made.2 }
    have h := runOn_rootTarget_cases type target w' (r := .strong type target) rfl rfl
    have hrun : ((strong type target).create hooks s : Act σ D ω Unit).runOn w =
        (Scope.rootTarget type target).runOn w' := by
      unfold create Scope.newStrong
      simp only [Act.runOn_bind, Act.runOn_onCollector]
      rcases (Scope.rootTarget type target : Act σ D ω Unit).runOn w' with ⟨_ | _, _⟩
      · rfl
      · rfl
    rw [hrun]
    exact h
  | retarget handle type target =>
    let w' : World σ D ω := { w with collector := (handle.set hooks target w.collector).2 }
    have h := runOn_rootTarget_cases type target w' (r := .retarget handle type target) rfl rfl
    have hrun : ((retarget handle type target).create hooks s : Act σ D ω Unit).runOn w =
        (Scope.rootTarget type target).runOn w' := by
      unfold create Scope.retarget
      simp only [Act.runOn_bind, Act.runOn_onCollector, Act.runOn_attempt]
      rcases (Scope.rootTarget type target : Act σ D ω Unit).runOn w' with ⟨_ | _, _⟩
      · rfl
      · rfl
    rw [hrun]
    exact h
  | plain descriptor data =>
    rcases runOn_push_cases descriptor data w with ⟨hsame, hfail⟩ | ⟨hok, hpush⟩
    · left
      exact ⟨hsame, fun h => absurd h hfail⟩
    · right
      exact ⟨hok, descriptor, data, rfl, rfl, hpush⟩

end LocalRoot

/-! ## What a visit reports -/

namespace Act

/-- A visitor that takes down what it is shown. -/
def record (descriptor : D) (data : Address) : Act σ D (List (D × Address)) Unit :=
  modify fun w => { w with client := w.client ++ [(descriptor, data)] }

theorem runOn_visitAll_record (roots : List (D × Address)) (w : World σ D (List (D × Address))) :
    (visitAll record roots).runOn w = (.ok (), { w with client := w.client ++ roots }) := by
  induction roots generalizing w with
  | nil => simp [visitAll]
  | cons root roots ih =>
    unfold visitAll
    rw [runOn_bind, record, runOn_modify]
    simp only [ih, List.append_assoc, List.singleton_append]

end Act

/-- The roots that a visit shows to its visitor, in order. -/
def World.reported (w : World σ D ω) : List (D × Address) :=
  ((Act.visit Act.record).runOn ⟨w.roots, w.collector, w.boxes, w.log, []⟩).2.client

/-- A visit that can start shows the whole shadow stack first. -/
theorem World.roots_prefix_reported {w : World σ D ω} (hidle : w.roots.locals.borrow = .idle) :
    w.roots.locals.value.roots <+: w.reported := by
  unfold reported Act.visit
  have hshare : w.roots.shareLocals =
      .ok ⟨⟨w.roots.locals.value, .shared 0⟩, w.roots.persistents⟩ := by
    simp [RootSet.shareLocals, BorrowCell.share, hidle, Borrow.share, bind, Except.bind, pure,
      Except.pure]
  simp only [Act.runOn_bind, Act.runOn_change, hshare, Act.runOn_get, Act.runOn_ensuring,
    Act.runOn_visitAll_record]
  -- the persistent roots come after, if they can be shown
  generalize RootSet.sharePersistents _ = shared
  cases shared with
  | error fault => exact List.prefix_refl _
  | ok roots => exact List.prefix_append _ _

/-! ## Nesting -/

/-- A thread of native code with its open scopes. -/
structure Nesting (σ D ω : Type) where
  world : World σ D ω
  /-- The open scopes and their numbers, the innermost first. -/
  scopes : List (Nat × Scope)
  /-- Number of scopes that were ever opened. -/
  opened : Nat

namespace Nesting

/-- The shadow stack. -/
abbrev stack (n : Nesting σ D ω) : ShadowStack D Address := n.world.roots.locals.value

/-- One step of a thread that closes its scopes in the reverse order of opening. -/
inductive Step (hooks : Hooks σ) : Nesting σ D ω → Nesting σ D ω → Prop
  /-- A scope is opened. -/
  | opened {n : Nesting σ D ω} {s : Scope} {w : World σ D ω}
      (hrun : Scope.opened.runOn n.world = (.ok s, w)) :
      Step hooks n ⟨w, (n.opened, s) :: n.scopes, n.opened + 1⟩
  /-- The innermost scope is closed, with any outcome. -/
  | closed {n : Nesting σ D ω} {i : Nat} {s : Scope} {rest : List (Nat × Scope)}
      (hscopes : n.scopes = (i, s) :: rest) :
      Step hooks n ⟨(s.close.runOn n.world).2, rest, n.opened⟩
  /-- A root is created through some open scope, with any outcome. -/
  | created {n : Nesting σ D ω} {i : Nat} {s : Scope} (r : LocalRoot D)
      (hopen : (i, s) ∈ n.scopes) :
      Step hooks n { n with world := ((r.create hooks s).runOn n.world).2 }
  /-- Something is done that leaves the shadow stack as it is: with locals that are not
  rooted, with persistent handles, by the collector, or with a root set of its own. -/
  | elsewhere {n : Nesting σ D ω} {w : World σ D ω}
      (hsame : w.roots.locals = n.world.roots.locals) : Step hooks n { n with world := w }

/-- A thread that started without roots and without open scopes. -/
def Reached (hooks : Hooks σ) (n : Nesting σ D ω) : Prop :=
  ∃ w : World σ D ω, w.roots = .empty ∧ ReflTransGen (Step hooks) ⟨w, [], 0⟩ n

/-! ## The invariant -/

/-- What holds between any two steps. -/
structure WellNested (n : Nesting σ D ω) : Prop where
  /-- Nobody looks at the shadow stack. -/
  idle : n.world.roots.locals.borrow = .idle
  stamped : n.stack.Stamped
  /-- The shadow stack can be popped back to every open scope. -/
  accepted : ∀ x ∈ n.scopes, n.stack.accepts x.2.mark = true
  /-- Further in, numbers are larger, and marks are at least as high. -/
  nested : n.scopes.Pairwise fun inner outer =>
    outer.1 < inner.1 ∧ outer.2.mark.height ≤ inner.2.mark.height
  /-- The next number is larger than all others. -/
  numbered : ∀ x ∈ n.scopes, x.1 < n.opened

/-- What one step can do to the shadow stack and the open scopes. -/
inductive Moved (n n' : Nesting σ D ω) : Prop
  | opened (hscopes : n'.scopes = (n.opened, ⟨n.stack.mark⟩) :: n.scopes)
      (hopened : n'.opened = n.opened + 1) (hstack : n'.stack = n.stack)
  | closed {i : Nat} {s : Scope} (hscopes : n.scopes = (i, s) :: n'.scopes)
      (hopened : n'.opened = n.opened)
      (hstack : n'.stack = { n.stack with entries := n.stack.entries.take s.mark.height })
  | pushed (hscopes : n'.scopes = n.scopes) (hopened : n'.opened = n.opened)
      (e : StackEntry D Address) (hstamp : e.stamp = n.stack.nextStamp)
      (hstack : n'.stack = ⟨n.stack.entries ++ [e], n.stack.nextStamp + 1⟩)
  | same (hscopes : n'.scopes = n.scopes) (hopened : n'.opened = n.opened)
      (hstack : n'.stack = n.stack)

/-- In a well-nested thread the innermost scope can be closed: the shadow stack is popped
back to its mark. -/
theorem WellNested.runOn_close {n : Nesting σ D ω} (hn : n.WellNested) {i : Nat} {s : Scope}
    {rest : List (Nat × Scope)} (hscopes : n.scopes = (i, s) :: rest) :
    (s.close.runOn n.world).1 = .ok () ∧
    (s.close.runOn n.world).2.roots = { n.world.roots with
      locals := .new { n.stack with entries := n.stack.entries.take s.mark.height } } := by
  have haccepts : n.stack.accepts s.mark = true := by
    refine hn.accepted (i, s) ?_
    rw [hscopes]
    exact List.mem_cons_self
  have hpop : n.world.roots.popTo s.mark = .ok { n.world.roots with
      locals := .new { n.stack with entries := n.stack.entries.take s.mark.height } } :=
    RootSet.popTo_eq_ok_iff.2 ⟨hn.idle, _, ShadowStack.popTo_of_accepts haccepts, rfl⟩
  unfold Scope.close Act.popTo
  simp [Act.runOn_bind, Act.runOn_change, hpop]

/-- A scope is opened without a change of the world. -/
theorem WellNested.runOn_opened {n : Nesting σ D ω} (hn : n.WellNested) :
    Scope.opened.runOn n.world = (.ok ⟨n.stack.mark⟩, n.world) := by
  unfold Scope.opened
  rw [Act.runOn_bind, Act.runOn_ask, RootSet.mark, BorrowCell.inspect_idle hn.idle]
  rfl

theorem Moved.of_push {n n' : Nesting σ D ω} {descriptor : D} {data : Address}
    (hscopes : n'.scopes = n.scopes) (hopened : n'.opened = n.opened)
    (hpush : n.world.roots.push descriptor data = .ok n'.world.roots) :
    n'.world.roots.locals.borrow = .idle ∧ Moved n n' := by
  obtain ⟨_, stack, hstack, hroots⟩ := RootSet.push_eq_ok_iff.1 hpush
  have hlocals : n'.world.roots.locals = .new stack := by rw [hroots]
  refine ⟨by rw [hlocals]; rfl, ?_⟩
  refine .pushed hscopes hopened ⟨descriptor, data, n.stack.nextStamp⟩ rfl ?_
  show n'.world.roots.locals.value = _
  rw [hlocals]
  exact ShadowStack.push_eq_ok hstack

theorem Step.moved {hooks : Hooks σ} {n n' : Nesting σ D ω} (hstep : Step hooks n n')
    (hn : n.WellNested) : n'.world.roots.locals.borrow = .idle ∧ Moved n n' := by
  cases hstep with
  | opened hrun =>
    rw [hn.runOn_opened] at hrun
    cases hrun
    exact ⟨hn.idle, .opened rfl rfl rfl⟩
  | @closed i s rest hscopes =>
    obtain ⟨_, hroots⟩ := hn.runOn_close hscopes
    constructor
    · show (s.close.runOn n.world).2.roots.locals.borrow = .idle
      rw [hroots]
      rfl
    · refine .closed hscopes rfl ?_
      show (s.close.runOn n.world).2.roots.locals.value = _
      rw [hroots]
      rfl
  | @created i s r hopen =>
    rcases r.create_cases hooks s n.world with ⟨hsame, _⟩ | ⟨_, descriptor, data, _, _, hpush⟩
    · constructor
      · show ((r.create hooks s).runOn n.world).2.roots.locals.borrow = .idle
        rw [hsame]
        exact hn.idle
      · refine .same rfl rfl ?_
        show ((r.create hooks s).runOn n.world).2.roots.locals.value = _
        rw [hsame]
    · exact Moved.of_push rfl rfl hpush
  | @elsewhere w hsame =>
    constructor
    · show w.roots.locals.borrow = .idle
      rw [hsame]
      exact hn.idle
    · refine .same rfl rfl ?_
      show w.roots.locals.value = _
      rw [hsame]

theorem WellNested.start {w : World σ D ω} (hempty : w.roots = .empty) :
    (⟨w, [], 0⟩ : Nesting σ D ω).WellNested := by
  constructor
  case idle => rw [hempty]; rfl
  case stamped =>
    show w.roots.locals.value.Stamped
    rw [hempty]
    exact ShadowStack.stamped_empty
  case accepted => exact fun _ hx => nomatch hx
  case nested => exact List.Pairwise.nil
  case numbered => exact fun _ hx => nomatch hx

theorem WellNested.step {hooks : Hooks σ} {n n' : Nesting σ D ω} (hn : n.WellNested)
    (hstep : Step hooks n n') : n'.WellNested := by
  obtain ⟨hidle, hmoved⟩ := hstep.moved hn
  cases hmoved with
  | opened hscopes hopened hstack =>
    have hmark : n.stack.accepts n.stack.mark = true := n.stack.accepts_mark
    refine ⟨hidle, ?_, ?_, ?_, ?_⟩
    · rw [hstack]
      exact hn.stamped
    · rw [hscopes, hstack]
      exact List.forall_mem_cons.2 ⟨hmark, hn.accepted⟩
    · rw [hscopes, List.pairwise_cons]
      -- all marks that are accepted are at most as high as the stack
      exact ⟨fun x hx => ⟨hn.numbered x hx, ShadowStack.height_le_of_accepts (hn.accepted x hx)⟩,
        hn.nested⟩
    · rw [hscopes, hopened]
      exact List.forall_mem_cons.2
        ⟨Nat.lt_succ_self _, fun x hx => Nat.lt_succ_of_lt (hn.numbered x hx)⟩
  | @closed i s hscopes hopened hstack =>
    have hnested := hn.nested
    rw [hscopes, List.pairwise_cons] at hnested
    have hmem : ∀ x ∈ n'.scopes, x ∈ n.scopes := by
      intro x hx
      rw [hscopes]
      exact List.mem_cons_of_mem _ hx
    refine ⟨hidle, ?_, ?_, hnested.2, ?_⟩
    · rw [hstack]
      exact hn.stamped.take _
    · -- the marks of the scopes further out are not above the one that is popped to
      intro x hx
      rw [hstack]
      exact ShadowStack.accepts_take (hn.accepted x (hmem x hx)) (hnested.1 x hx).2
    · intro x hx
      rw [hopened]
      exact hn.numbered x (hmem x hx)
  | pushed hscopes hopened e hstamp hstack =>
    refine ⟨hidle, ?_, ?_, ?_, ?_⟩
    · rw [hstack]
      exact hn.stamped.concat hstamp
    · rw [hscopes, hstack]
      exact fun x hx => ShadowStack.accepts_concat (hn.accepted x hx) e _
    · rw [hscopes]
      exact hn.nested
    · rw [hscopes, hopened]
      exact hn.numbered
  | same hscopes hopened hstack =>
    refine ⟨hidle, ?_, ?_, ?_, ?_⟩
    · rw [hstack]
      exact hn.stamped
    · rw [hscopes, hstack]
      exact hn.accepted
    · rw [hscopes]
      exact hn.nested
    · rw [hscopes, hopened]
      exact hn.numbered

theorem WellNested.steps {hooks : Hooks σ} {n n' : Nesting σ D ω} (hn : n.WellNested)
    (hsteps : ReflTransGen (Step hooks) n n') : n'.WellNested := by
  induction hsteps with
  | refl => exact hn
  | tail _ hstep ih => exact ih.step hstep

theorem Reached.wellNested {hooks : Hooks σ} {n : Nesting σ D ω} (h : Reached hooks n) :
    n.WellNested := by
  rcases h with ⟨w, hempty, hsteps⟩
  exact (WellNested.start hempty).steps hsteps

/-! ## The two fates of a root -/

/-- A root at some height, while all scopes are open that were when it was created. -/
structure Kept (e : StackEntry D Address) (height : Nat) (under : List (Nat × Scope))
    (n : Nesting σ D ω) : Prop where
  /-- Scopes that were opened since end above the root. -/
  scopes : ∃ newer, n.scopes = newer ++ under ∧ ∀ x ∈ newer, height < x.2.mark.height
  entry : n.stack.entries[height]? = some e

/-- A root that was popped when the innermost scope was closed of those that were open
when it was created. -/
structure Gone (e : StackEntry D Address) (innermost : Nat) (n : Nesting σ D ω) : Prop where
  scopes : ∀ x ∈ n.scopes, x.1 ≠ innermost
  entry : e ∉ n.stack.entries
  /-- Neither the number nor the stamp comes back. -/
  numbered : innermost < n.opened
  stamped : e.stamp < n.stack.nextStamp

/-- In a stamped stack an entry lies at one height only. -/
theorem not_mem_take {stack : ShadowStack D Address} (hstack : stack.Stamped) {height m : Nat}
    {e : StackEntry D Address} (he : stack.entries[height]? = some e) (hm : m ≤ height) :
    e ∉ stack.entries.take m := by
  intro hmem
  obtain ⟨j, hj, hje⟩ := List.mem_take_iff_getElem.1 hmem
  obtain ⟨hlt, hheight⟩ := List.getElem?_eq_some_iff.1 he
  have hless := List.pairwise_iff_getElem.1 hstack.increasing j height (by omega) hlt (by omega)
  rw [hje, hheight] at hless
  exact absurd hless (Nat.lt_irrefl _)

/-- A step keeps a root, unless it closes the innermost of the scopes below it. -/
theorem Kept.step {hooks : Hooks σ} {n n' : Nesting σ D ω} {e : StackEntry D Address}
    {height i : Nat} {s : Scope} {outer : List (Nat × Scope)}
    (hkept : Kept e height ((i, s) :: outer) n) (hlow : s.mark.height ≤ height)
    (hn : n.WellNested) (hstep : Step hooks n n') :
    Kept e height ((i, s) :: outer) n' ∨ Gone e i n' := by
  rcases hkept with ⟨⟨newer, hnewer, habove⟩, he⟩
  have hlt : height < n.stack.entries.length := (List.getElem?_eq_some_iff.1 he).1
  cases (hstep.moved hn).2 with
  | opened hscopes hopened hstack =>
    left
    refine ⟨⟨(n.opened, ⟨n.stack.mark⟩) :: newer, ?_, ?_⟩, ?_⟩
    · rw [hscopes, hnewer, List.cons_append]
    · exact List.forall_mem_cons.2 ⟨hlt, habove⟩
    · rw [hstack]
      exact he
  | @closed j t hscopes hopened hstack =>
    rw [hnewer] at hscopes
    cases newer with
    | nil =>
      -- this is the scope whose end the root does not survive
      right
      rw [List.nil_append] at hnewer hscopes
      cases hscopes
      have hnested := hn.nested
      rw [hnewer, List.pairwise_cons] at hnested
      refine ⟨fun x hx => Nat.ne_of_lt (hnested.1 x hx).1, ?_, ?_, ?_⟩
      · rw [hstack]
        exact not_mem_take hn.stamped he hlow
      · rw [hopened]
        refine hn.numbered (i, s) ?_
        rw [hnewer]
        exact List.mem_cons_self
      · rw [hstack]
        exact hn.stamped.below e (List.mem_of_getElem? he)
    | cons x newer =>
      -- a scope that was opened later ends above the root
      left
      rw [List.cons_append] at hscopes
      obtain ⟨rfl, hrest⟩ := List.cons.inj hscopes
      rw [List.forall_mem_cons] at habove
      refine ⟨⟨newer, hrest.symm, habove.2⟩, ?_⟩
      rw [hstack]
      simp only
      rw [List.getElem?_take_of_lt habove.1]
      exact he
  | pushed hscopes hopened e' hstamp hstack =>
    left
    refine ⟨⟨newer, by rw [hscopes, hnewer], habove⟩, ?_⟩
    rw [hstack]
    simp only
    rw [List.getElem?_append_left hlt]
    exact he
  | same hscopes hopened hstack =>
    left
    refine ⟨⟨newer, by rw [hscopes, hnewer], habove⟩, ?_⟩
    rw [hstack]
    exact he

/-- What is gone stays gone: neither the scope nor the entry comes back. -/
theorem Gone.step {hooks : Hooks σ} {n n' : Nesting σ D ω} {e : StackEntry D Address}
    {innermost : Nat} (hgone : Gone e innermost n) (hn : n.WellNested)
    (hstep : Step hooks n n') : Gone e innermost n' := by
  rcases hgone with ⟨hclosed, hentry, hnumber, hstamped⟩
  cases (hstep.moved hn).2 with
  | opened hscopes hopened hstack =>
    refine ⟨?_, by rwa [hstack], by omega, by rwa [hstack]⟩
    rw [hscopes]
    exact List.forall_mem_cons.2 ⟨Nat.ne_of_gt hnumber, hclosed⟩
  | closed hscopes hopened hstack =>
    refine ⟨fun x hx => hclosed x ?_, ?_, by omega, ?_⟩
    · rw [hscopes]
      exact List.mem_cons_of_mem _ hx
    · rw [hstack]
      exact fun he => hentry (List.mem_of_mem_take he)
    · rw [hstack]
      exact hstamped
  | pushed hscopes hopened e' hstamp hstack =>
    refine ⟨by rwa [hscopes], ?_, by omega, ?_⟩
    · rw [hstack]
      intro he
      rcases List.mem_append.1 he with he | he
      · exact hentry he
      · -- the new entry has a stamp of its own
        rw [List.mem_singleton] at he
        rw [he] at hstamped
        omega
    · rw [hstack]
      exact Nat.lt_succ_of_lt hstamped
  | same hscopes hopened hstack =>
    exact ⟨by rwa [hscopes], by rwa [hstack], by omega, by rwa [hstack]⟩

theorem Kept.steps {hooks : Hooks σ} {n n' : Nesting σ D ω} {e : StackEntry D Address}
    {height i : Nat} {s : Scope} {outer : List (Nat × Scope)}
    (hkept : Kept e height ((i, s) :: outer) n) (hlow : s.mark.height ≤ height)
    (hn : n.WellNested) (hsteps : ReflTransGen (Step hooks) n n') :
    Kept e height ((i, s) :: outer) n' ∨ Gone e i n' := by
  induction hsteps with
  | refl => exact Or.inl hkept
  | tail hbefore hstep ih =>
    have hmid := hn.steps hbefore
    rcases ih with hkept | hgone
    · exact hkept.step hlow hmid hstep
    · exact Or.inr (hgone.step hmid hstep)

/-- A root that is created through any open scope is kept from then on, at the top of the
shadow stack. -/
theorem Kept.of_created {hooks : Hooks σ} {n : Nesting σ D ω} {s : Scope} {r : LocalRoot D}
    {data : Address} {w : World σ D ω} (htarget : r.target = some data)
    (hcreated : (r.create hooks s).runOn n.world = (.ok (), w)) :
    ∃ e : StackEntry D Address, e.data = data ∧ r.descriptor = .ok e.descriptor ∧
      w.roots.locals.value.entries = n.stack.entries ++ [e] ∧
      Kept e n.stack.entries.length n.scopes { n with world := w } := by
  have hsettled := r.create_cases hooks s n.world
  rw [hcreated] at hsettled
  rcases hsettled with ⟨_, hnull⟩ | ⟨_, descriptor, data', hdescriptor, hdata, hpush⟩
  · rw [hnull rfl] at htarget
    cases htarget
  rw [htarget] at hdata
  cases hdata
  obtain ⟨_, stack, hstack, hroots⟩ := RootSet.push_eq_ok_iff.1 hpush
  have hentries : w.roots.locals.value.entries =
      n.stack.entries ++ [⟨descriptor, data, n.stack.nextStamp⟩] := by
    rw [hroots]
    exact congrArg (·.entries) (ShadowStack.push_eq_ok hstack)
  refine ⟨⟨descriptor, data, n.stack.nextStamp⟩, rfl, hdescriptor, hentries, ?_⟩
  refine ⟨⟨[], rfl, fun _ hx => nomatch hx⟩, ?_⟩
  show w.roots.locals.value.entries[_]? = _
  rw [hentries, List.getElem?_concat_length]

/-- The extent of a local root.  Create a root through any open scope of any thread that
closes its scopes in the reverse order of opening.  One entry is pushed.  From then on,
as long as the scope is open, the entry is on the shadow stack exactly if those scopes
are still open that were open inside of it; in particular a root of the innermost
scope stays for as long as the scope.  Once the scope is closed the entry is gone.

A visit shows the whole shadow stack at any time. -/
theorem root_stays_iff_inner_scopes_open {hooks : Hooks σ} {n : Nesting σ D ω} {i : Nat}
    {s : Scope} {r : LocalRoot D} {data : Address} {w : World σ D ω}
    (hreached : Reached hooks n) (hopen : (i, s) ∈ n.scopes) (htarget : r.target = some data)
    (hcreated : (r.create hooks s).runOn n.world = (.ok (), w)) :
    ∃ e : StackEntry D Address, e.data = data ∧ r.descriptor = .ok e.descriptor ∧
      w.roots.locals.value.entries = n.stack.entries ++ [e] ∧
      ∀ later, ReflTransGen (Step hooks) { n with world := w } later →
        ((i, s) ∈ later.scopes →
          (e ∈ later.stack.entries ↔ ∀ x ∈ n.scopes, i < x.1 → x ∈ later.scopes)) ∧
        ((i, s) ∉ later.scopes → e ∉ later.stack.entries) ∧
        later.stack.roots <+: later.world.reported := by
  have hn : n.WellNested := hreached.wellNested
  -- the creation is a step itself
  have hstep : Step hooks n { n with world := w } := by
    have h : Step hooks n { n with world := ((r.create hooks s).runOn n.world).2 } :=
      .created r hopen
    rwa [hcreated] at h
  obtain ⟨e, hdata, hdescriptor, hentries, hcreation⟩ := Kept.of_created htarget hcreated
  refine ⟨e, hdata, hdescriptor, hentries, ?_⟩
  intro later hlater
  have hwell : later.WellNested := (hn.step hstep).steps hlater
  rcases hscopes : n.scopes with _ | ⟨⟨i₀, s₀⟩, outer⟩
  · rw [hscopes] at hopen
    cases hopen
  have hlow : s₀.mark.height ≤ n.stack.entries.length := by
    apply ShadowStack.height_le_of_accepts (hn.accepted (i₀, s₀) _)
    rw [hscopes]
    exact List.mem_cons_self
  have hnested := hn.nested
  rw [hscopes, List.pairwise_cons] at hnested
  rw [hscopes] at hopen
  have hkept : Kept e n.stack.entries.length ((i₀, s₀) :: outer) { n with world := w } := by
    rw [← hscopes]
    exact hcreation
  refine ⟨?_, ?_, World.roots_prefix_reported hwell.idle⟩
  · intro hstill
    rcases hkept.steps hlow (hn.step hstep) hlater with hkept | hgone
    · rcases hkept with ⟨⟨newer, hnewer, _⟩, he⟩
      apply iff_of_true (List.mem_of_getElem? he)
      intro x hx _
      rw [hnewer]
      exact List.mem_append_right _ hx
    · apply iff_of_false hgone.entry
      intro hall
      -- the scope itself is still open, so that another one was innermost
      have hinner : i < i₀ := by
        rcases List.mem_cons.1 hopen with heq | hmem
        · cases heq
          exact absurd rfl (hgone.scopes _ hstill)
        · exact (hnested.1 _ hmem).1
      exact hgone.scopes _ (hall (i₀, s₀) List.mem_cons_self hinner) rfl
  · intro hclosed
    rcases hkept.steps hlow (hn.step hstep) hlater with hkept | hgone
    · rcases hkept with ⟨⟨newer, hnewer, _⟩, _⟩
      apply absurd _ hclosed
      rw [hnewer]
      exact List.mem_append_right _ hopen
    · exact hgone.entry

/-- A thread with two open scopes and no roots. -/
def twoScopes : Nesting Unit Char Unit :=
  ⟨⟨.empty, (), 0, [], ()⟩, [(1, ⟨⟨0, 0⟩⟩), (0, ⟨⟨0, 0⟩⟩)], 2⟩

theorem twoScopes_reached : Reached Hooks.noBarrier twoScopes := by
  refine ⟨⟨.empty, (), 0, [], ()⟩, rfl, ?_⟩
  refine .tail (.single (.opened (s := ⟨⟨0, 0⟩⟩) rfl)) ?_
  exact .opened rfl

/-- A root of the outer of two scopes is popped with the inner one, although the scope
that it was created through is still open.  No visit shows it any more. -/
theorem outer_root_popped_with_inner_scope :
    let s : Scope := ⟨⟨0, 0⟩⟩
    let created := ((LocalRoot.plain 'd' (.object 3)).create .noBarrier s).runOn twoScopes.world
    let later : Nesting Unit Char Unit := ⟨(s.close.runOn created.2).2, [(0, s)], 2⟩
    (0, s) ∈ twoScopes.scopes ∧ created.1 = .ok () ∧
    ReflTransGen (Step .noBarrier) { twoScopes with world := created.2 } later ∧
    (0, s) ∈ later.scopes ∧
    ∃ e, created.2.roots.locals.value.entries = [e] ∧ e.data = .object 3 ∧
      e ∉ later.stack.entries ∧ later.world.reported = [] := by
  intro s created later
  have hlater : ReflTransGen (Step .noBarrier) { twoScopes with world := created.2 } later :=
    .single (.closed (i := 1) rfl)
  obtain ⟨e, hdata, _, hentries, hextent⟩ :=
    root_stays_iff_inner_scopes_open twoScopes_reached (s := s) (i := 0)
      (List.mem_cons_of_mem _ List.mem_cons_self) (r := .plain 'd' (.object 3)) rfl rfl
  refine ⟨List.mem_cons_of_mem _ List.mem_cons_self, rfl, hlater, List.mem_cons_self, ?_⟩
  refine ⟨e, hentries, hdata, ?_, rfl⟩
  rw [(hextent later hlater).1 List.mem_cons_self]
  intro hall
  have hinner := hall (1, s) List.mem_cons_self Nat.zero_lt_one
  exact absurd hinner (by decide)

end Nesting

end TracedHeap
