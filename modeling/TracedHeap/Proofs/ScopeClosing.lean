import Mathlib.Data.Fin.Tuple.Basic
import TracedHeap.Proofs.Inheritance
import TracedHeap.Proofs.ScopeExtent

/-! # Closing scopes

A thread that closes its scopes in the reverse order of opening can close each of them,
on whatever way out, and finds the shadow stack as it was when the scope was opened.

1. **Runs** of a thread, with other hooks at each step if need be.
2. **The bottom**: without open scopes the shadow stack is empty (`Nesting.Grounded`).
3. **The extent of a scope**: while it is open the entries of before are not touched
   (`Nesting.Extent`).
4. **Elsewhere**: what leaves the shadow stack as it is (`Act.KeepsLocals`), as operations on
   persistent handles and on locals that are not rooted do (`Act.Elsewhere`).
5. **Programs** of nested scopes, with faults and their survival anywhere.  Each is such a
   run (`Program.runs`).
6. **Root sets**: code that closes all its scopes leaves no local roots.

The main statement is `closing_scope_restores_stack`.
-/

namespace TracedHeap

open Relation (ReflTransGen)

variable {σ D ω V α β : Type}

namespace Nesting

/-! ## Runs -/

/-- The steps of a thread, each with hooks of its own. -/
def Runs : Nesting σ D ω → Nesting σ D ω → Prop :=
  ReflTransGen fun n n' => ∃ hooks, Step hooks n n'

/-- A thread that started without roots and without open scopes. -/
def Started (n : Nesting σ D ω) : Prop :=
  ∃ w : World σ D ω, w.roots = .empty ∧ Runs ⟨w, [], 0⟩ n

theorem Runs.single (hooks : Hooks σ) {n n' : Nesting σ D ω} (h : Step hooks n n') : Runs n n' :=
  ReflTransGen.single ⟨hooks, h⟩

theorem WellNested.runs {n n' : Nesting σ D ω} (hn : n.WellNested) (hruns : Runs n n') :
    n'.WellNested := by
  induction hruns with
  | refl => exact hn
  | tail _ hstep ih =>
    obtain ⟨hooks, hstep⟩ := hstep
    exact ih.step hstep

theorem Started.wellNested {n : Nesting σ D ω} (h : n.Started) : n.WellNested := by
  rcases h with ⟨w, hempty, hruns⟩
  exact (WellNested.start hempty).runs hruns

theorem Started.runs {n n' : Nesting σ D ω} (h : n.Started) (hruns : Runs n n') : n'.Started := by
  rcases h with ⟨w, hempty, hstart⟩
  exact ⟨w, hempty, hstart.trans hruns⟩

/-! ## The bottom -/

/-- The outermost scope was opened on an empty stack, which it also leaves behind. -/
structure Grounded (n : Nesting σ D ω) : Prop where
  bare : n.scopes = [] → n.stack.entries = []
  lowest : ∀ x, n.scopes.getLast? = some x → x.2.mark.height = 0

theorem Grounded.step {hooks : Hooks σ} {n n' : Nesting σ D ω} (h : n.Grounded)
    (hn : n.WellNested) (hstep : Step hooks n n') : n'.Grounded := by
  cases hstep with
  | opened hrun =>
    rw [hn.runOn_opened] at hrun
    cases hrun
    refine ⟨fun hnone => absurd hnone (List.cons_ne_nil _ _), fun x hx => ?_⟩
    cases hscopes : n.scopes with
    | nil =>
      -- the first scope is opened on an empty stack
      simp only [hscopes, List.getLast?_singleton, Option.some.injEq] at hx
      rw [← hx]
      exact congrArg List.length (h.bare hscopes)
    | cons y outer =>
      simp only [hscopes, List.getLast?_cons_cons] at hx
      rw [← hscopes] at hx
      exact h.lowest x hx
  | @closed i s rest hscopes =>
    obtain ⟨_, hroots⟩ := hn.runOn_close hscopes
    constructor
    · intro hlast
      replace hlast : rest = [] := hlast
      have hzero : s.mark.height = 0 := by
        refine h.lowest (i, s) ?_
        rw [hscopes, hlast]
        rfl
      show (s.close.runOn n.world).2.roots.locals.value.entries = []
      rw [hroots, hzero]
      rfl
    · intro x hx
      refine h.lowest x ?_
      rw [hscopes, List.getLast?_cons, show rest.getLast? = some x from hx]
      rfl
  | created r hopen =>
    refine ⟨fun hnone => ?_, h.lowest⟩
    rw [show n.scopes = [] from hnone] at hopen
    cases hopen
  | @elsewhere w hsame =>
    refine ⟨fun hnone => ?_, h.lowest⟩
    show w.roots.locals.value.entries = []
    rw [hsame]
    exact h.bare hnone

theorem Started.grounded {n : Nesting σ D ω} (h : n.Started) : n.Grounded := by
  rcases h with ⟨w, hempty, hruns⟩
  induction hruns with
  | refl =>
    refine ⟨fun _ => ?_, fun _ hx => nomatch hx⟩
    show w.roots.locals.value.entries = []
    rw [hempty]
    rfl
  | tail hbefore hstep ih =>
    obtain ⟨hooks, hstep⟩ := hstep
    exact ih.step ((WellNested.start hempty).runs hbefore) hstep

/-! ## The extent of a scope -/

/-- A thread that has just opened a scope. -/
def enter (n : Nesting σ D ω) : Nesting σ D ω :=
  ⟨n.world, (n.opened, ⟨n.stack.mark⟩) :: n.scopes, n.opened + 1⟩

theorem WellNested.runs_enter {n : Nesting σ D ω} (hn : n.WellNested) : Runs n n.enter :=
  Runs.single .noBarrier (.opened hn.runOn_opened)

/-- How a thread goes on after it has opened a scope. -/
inductive Extent (opening later : Nesting σ D ω) : Prop
  /-- The scope is open, and the entries of before are there. -/
  | lasting (newer : List (Nat × Scope))
      (hscopes : later.scopes = newer ++ opening.enter.scopes)
      (habove : ∀ x ∈ newer, opening.stack.height ≤ x.2.mark.height)
      (hintact : ShadowStack.Intact opening.stack later.stack)
  /-- The scope was closed, and its number does not come back. -/
  | ended (hscopes : ∀ x ∈ later.scopes, x.1 ≠ opening.opened)
      (hnumbered : opening.opened < later.opened)

theorem Extent.step {hooks : Hooks σ} {opening n n' : Nesting σ D ω} (h : Extent opening n)
    (hn : n.WellNested) (hstep : Step hooks n n') : Extent opening n' := by
  have hmoved := (hstep.moved hn).2
  cases h with
  | lasting newer hnewer habove hintact =>
    have hheight : opening.stack.height ≤ n.stack.height := hintact.length_le
    cases hmoved with
    | opened hscopes hopened hstack =>
      refine .lasting ((n.opened, ⟨n.stack.mark⟩) :: newer) ?_ ?_ ?_
      · rw [hscopes, hnewer, List.cons_append]
      · exact List.forall_mem_cons.2 ⟨hheight, habove⟩
      · rw [hstack]
        exact hintact
    | @closed i s hscopes hopened hstack =>
      rw [hnewer] at hscopes
      cases newer with
      | nil =>
        rw [List.nil_append] at hnewer hscopes
        have hnested := hn.nested
        rw [hnewer, enter, List.pairwise_cons] at hnested
        obtain ⟨_, hrest⟩ := List.cons.inj hscopes
        refine .ended ?_ ?_
        · rw [← hrest]
          exact fun x hx => Nat.ne_of_lt (hnested.1 x hx).1
        · rw [hopened]
          refine hn.numbered (opening.opened, ⟨opening.stack.mark⟩) ?_
          rw [hnewer]
          exact List.mem_cons_self
      | cons x newer =>
        -- a scope further in is closed, which ends above the entries of before
        rw [List.cons_append] at hscopes
        obtain ⟨rfl, hrest⟩ := List.cons.inj hscopes
        rw [List.forall_mem_cons] at habove
        refine .lasting newer hrest.symm habove.2 ?_
        rw [hstack]
        exact List.prefix_take_iff.2 ⟨hintact, habove.1⟩
    | pushed hscopes hopened e hstamp hstack =>
      refine .lasting newer (by rw [hscopes, hnewer]) habove ?_
      rw [hstack]
      exact hintact.trans (List.prefix_append _ _)
    | same hscopes hopened hstack =>
      refine .lasting newer (by rw [hscopes, hnewer]) habove ?_
      rw [hstack]
      exact hintact
  | ended hclosed hnumber =>
    cases hmoved with
    | opened hscopes hopened _ =>
      refine .ended ?_ (by omega)
      rw [hscopes]
      exact List.forall_mem_cons.2 ⟨Nat.ne_of_gt hnumber, hclosed⟩
    | closed hscopes hopened _ =>
      refine .ended (fun x hx => hclosed x ?_) (by omega)
      rw [hscopes]
      exact List.mem_cons_of_mem _ hx
    | pushed hscopes hopened _ _ _ => exact .ended (by rwa [hscopes]) (by omega)
    | same hscopes hopened _ => exact .ended (by rwa [hscopes]) (by omega)

theorem WellNested.extent {opening later : Nesting σ D ω} (hn : opening.WellNested)
    (hruns : Runs opening.enter later) : Extent opening later := by
  have hentered : opening.enter.WellNested := hn.runs hn.runs_enter
  induction hruns with
  | refl => exact .lasting [] rfl (fun _ hx => nomatch hx) (List.prefix_refl _)
  | tail hbefore hstep ih =>
    obtain ⟨hooks, hstep⟩ := hstep
    exact ih.step (hentered.runs hbefore) hstep

/-- A scope that is open is open in the place where it was opened, on the same entries. -/
theorem Extent.of_mem {opening later : Nesting σ D ω} (h : Extent opening later)
    (hlater : later.WellNested) {s : Scope} (hopen : (opening.opened, s) ∈ later.scopes) :
    s = ⟨opening.stack.mark⟩ ∧ ShadowStack.Intact opening.stack later.stack ∧
      ∃ newer, later.scopes = newer ++ opening.enter.scopes := by
  cases h with
  | ended hclosed _ => exact absurd rfl (hclosed _ hopen)
  | lasting newer hscopes _ hintact =>
    refine ⟨?_, hintact, newer, hscopes⟩
    -- no other scope has its number: those further in have larger ones, the others smaller
    have hnested := hlater.nested
    rw [hscopes, enter, List.pairwise_append, List.pairwise_cons] at hnested
    rw [hscopes, enter, List.mem_append, List.mem_cons] at hopen
    rcases hopen with hin | heq | hout
    · exact absurd (hnested.2.2 _ hin _ List.mem_cons_self).1 (Nat.lt_irrefl _)
    · exact (Prod.mk.inj heq).2
    · exact absurd (hnested.2.1.1 _ hout).1 (Nat.lt_irrefl _)

/-- An innermost scope is closed: the entries are those of when it was opened. -/
theorem Extent.close {opening later : Nesting σ D ω} (h : Extent opening later)
    (hlater : later.WellNested) {s : Scope} {rest : List (Nat × Scope)}
    (hscopes : later.scopes = (opening.opened, s) :: rest) :
    rest = opening.scopes ∧ (s.close.runOn later.world).1 = .ok () ∧
      (s.close.runOn later.world).2.roots.locals.value.entries = opening.stack.entries := by
  have hopen : (opening.opened, s) ∈ later.scopes := by
    rw [hscopes]
    exact List.mem_cons_self
  obtain ⟨rfl, hintact, newer, hnewer⟩ := h.of_mem hlater hopen
  cases newer with
  | nil =>
    rw [hscopes] at hnewer
    cases hnewer
    obtain ⟨hok, hroots⟩ := hlater.runOn_close hscopes
    refine ⟨rfl, hok, ?_⟩
    rw [hroots]
    exact ShadowStack.entries_take_of_intact hintact
  | cons x newer =>
    -- a scope further in has a larger number
    have hnested := hlater.nested
    rw [hnewer, List.cons_append, List.pairwise_cons] at hnested
    have hless := (hnested.1 (opening.opened, ⟨opening.stack.mark⟩) (by simp [enter])).1
    rw [hscopes] at hnewer
    obtain ⟨rfl, _⟩ := List.cons.inj hnewer
    exact absurd hless (Nat.lt_irrefl _)

end Nesting

/-! ## Elsewhere -/

namespace Act

/-- Code that leaves the shadow stack as it is. -/
def KeepsLocals (act : Act σ D ω α) : Prop :=
  ∀ w, (act.runOn w).2.roots.locals = w.roots.locals

theorem KeepsRoots.keepsLocals {act : Act σ D ω α} (h : act.KeepsRoots) : act.KeepsLocals :=
  fun w => congrArg RootSet.locals (h w)

theorem KeepsLocals.bind {act : Act σ D ω α} {f : α → Act σ D ω β} (hact : act.KeepsLocals)
    (hf : ∀ a, (f a).KeepsLocals) : (act >>= f).KeepsLocals := by
  intro w
  have hfirst := hact w
  rw [runOn_bind]
  rcases hrun : act.runOn w with ⟨fault | a, w'⟩
  · rwa [hrun] at hfirst
  · rw [hrun] at hfirst
    exact (hf a w').trans hfirst

theorem KeepsLocals.attempt {act : Act σ D ω α} (hact : act.KeepsLocals) :
    (attempt act).KeepsLocals := fun w => hact w

theorem keepsLocals_register [BEq D] (data : Address) (descriptor : D) :
    (register data descriptor : Act σ D ω Unit).KeepsLocals := by
  intro w
  unfold register
  simp only [runOn_bind, runOn_get, runOn_change]
  cases hregister : w.roots.register data descriptor with
  | error fault => rfl
  | ok roots =>
    obtain ⟨_, pool, _, rfl⟩ := RootSet.register_eq_ok_iff.1 hregister
    rfl

theorem keepsLocals_unregister (data : Address) :
    (unregister data : Act σ D ω Unit).KeepsLocals := by
  intro w
  unfold unregister
  simp only [runOn_bind, runOn_get, runOn_change]
  cases hunregister : w.roots.unregister data with
  | error fault => rfl
  | ok roots =>
    obtain ⟨_, pool, _, rfl⟩ := RootSet.unregister_eq_ok_iff.1 hunregister
    rfl

/-- A root set of its own does not show in the one around it. -/
theorem keepsLocals_withRootSet (act : Act σ D ω α) : (withRootSet act).KeepsLocals := by
  intro w
  unfold withRootSet
  simp only [runOn_bind, runOn_get, runOn_modify, runOn_ensuring, runOn_change]

theorem inherited_keepsLocals : Inherited fun _ (act : Act σ D ω _) => act.KeepsLocals where
  keeps h := h.keepsLocals
  bind hact hf := hact.bind hf
  attempt hact := hact.attempt
  unregister data := keepsLocals_unregister data

end Act

/-- Operations of native code that have nothing to do with the shadow stack: on persistent
handles, and on locals that are not rooted. -/
inductive Act.Elsewhere : {α : Type} → Act σ D ω α → Prop
  | weak (hooks : Hooks σ) (s : Scope) (target : Pointer) : Elsewhere (s.newWeak hooks target)
  | value {V : Type} (s : Scope) (value : V) : Elsewhere (s.newValue value)
  | new {V : Type} [BEq D] (type : TypeInfo D) (handle : Handle V) :
      Elsewhere (PersistentHandle.new type handle)
  | clone {V : Type} [BEq D] (hooks : Hooks σ) (p : PersistentHandle D V) :
      Elsewhere (p.clone hooks)
  | read {V : Type} (hooks : Hooks σ) (p : PersistentHandle D V) (h : RefHandle) :
      Elsewhere (p.read hooks h)
  | update {V : Type} [BEq D] (p : PersistentHandle D V) (change : PersistentHandle.Change σ V) :
      Elsewhere (p.update change)
  | drop {V : Type} (p : PersistentHandle D V) : Elsewhere p.drop
  /-- Any code that has a root set of its own. -/
  | rootSet {α : Type} (act : Act σ D ω α) : Elsewhere (Act.withRootSet act)

theorem Act.Elsewhere.keepsLocals {act : Act σ D ω α} (h : act.Elsewhere) : act.KeepsLocals := by
  cases h with
  | weak hooks s target => exact (keepsRoots_onCollector _).keepsLocals
  | value s value => exact (keepsRoots_pure _).keepsLocals
  | new type handle => exact inherited_keepsLocals.new keepsLocals_register type handle
  | clone hooks p => exact inherited_keepsLocals.clone keepsLocals_register hooks p
  | read hooks p h => exact inherited_keepsLocals.read hooks p h
  | update p change => exact inherited_keepsLocals.update keepsLocals_register p change
  | drop p => exact inherited_keepsLocals.drop p
  | rootSet act => exact keepsLocals_withRootSet act

/-! ## Programs -/

/-- Native code inside of some number of nested scopes.  The scopes go by how far out they
are, the innermost first. -/
inductive Program (σ D ω : Type) : Nat → Type where
  | done {depth : Nat} : Program σ D ω depth
  /-- A fault arises. -/
  | fail {depth : Nat} (fault : Fault) : Program σ D ω depth
  /-- How to go on depends on the world. -/
  | look {depth : Nat} (next : World σ D ω → Program σ D ω depth) : Program σ D ω depth
  | seq {depth : Nat} (first next : Program σ D ω depth) : Program σ D ω depth
  /-- A fault of the body is survived. -/
  | attempt {depth : Nat} (body : Program σ D ω depth)
      (next : Except Fault Unit → Program σ D ω depth) : Program σ D ω depth
  /-- The body has a scope of its own. -/
  | within {depth : Nat} (body : Program σ D ω (depth + 1)) : Program σ D ω depth
  /-- A root is created through any of the scopes. -/
  | root {depth : Nat} (hooks : Hooks σ) (scope : Fin depth) (r : LocalRoot D) :
      Program σ D ω depth
  /-- Anything that leaves the shadow stack as it is. -/
  | elsewhere {depth : Nat} (act : Act σ D ω Unit) (hkeeps : act.KeepsLocals) :
      Program σ D ω depth

namespace Program

open Nesting

/-- What a program does in some scopes. -/
def toAct {depth : Nat} : Program σ D ω depth → (Fin depth → Scope) → Act σ D ω Unit
  | .done, _ => pure ()
  | .fail fault, _ => Act.raise fault
  | .look next, scopes => do (next (← get)).toAct scopes
  | .seq first next, scopes => do
    first.toAct scopes
    next.toAct scopes
  | .attempt body next, scopes => do
    let outcome ← Act.attempt (body.toAct scopes)
    (next outcome).toAct scopes
  | .within body, scopes => Scope.within fun s => body.toAct (Fin.cons s scopes)
  | .root hooks scope r, scopes => r.create hooks (scopes scope)
  | .elsewhere act _, _ => act

/-- The scopes of a program are open. -/
def Open {depth : Nat} (n : Nesting σ D ω) (scopes : Fin depth → Scope) : Prop :=
  ∀ i, ∃ number, (number, scopes i) ∈ n.scopes

theorem Open.enter {depth : Nat} {n : Nesting σ D ω} {scopes : Fin depth → Scope}
    (h : Open n scopes) :
    Open n.enter (Fin.cons ⟨n.stack.mark⟩ scopes : Fin (depth + 1) → Scope) := by
  intro i
  refine Fin.cases ?_ (fun i => ?_) i
  · exact ⟨n.opened, List.mem_cons_self⟩
  · obtain ⟨number, hmem⟩ := h i
    exact ⟨number, List.mem_cons_of_mem _ hmem⟩

/-- Code that is run in a scope comes to what it comes to by itself, and the scope is closed
on the world that it leaves behind. -/
theorem runOn_within (body : Scope → Act σ D ω α) {n : Nesting σ D ω} (hn : n.WellNested)
    {opened : Nat}
    (hruns : Runs n.enter ⟨((body ⟨n.stack.mark⟩).runOn n.world).2, n.enter.scopes, opened⟩) :
    ∃ w, (Scope.within body).runOn n.world = (((body ⟨n.stack.mark⟩).runOn n.world).1, w) ∧
      w.roots.locals.value.entries = n.stack.entries ∧ Runs n ⟨w, n.scopes, opened⟩ := by
  have hlater := (hn.runs hn.runs_enter).runs hruns
  obtain ⟨-, hok, hentries⟩ := (hn.extent hruns).close hlater rfl
  refine ⟨_, ?_, hentries,
    (hn.runs_enter.trans hruns).tail ⟨.noBarrier, .closed rfl⟩⟩
  unfold Scope.within
  rw [Act.runOn_bind, hn.runOn_opened]
  simp only [Act.runOn_ensuring]
  rcases hclose : (Scope.close ⟨n.stack.mark⟩).runOn ((body ⟨n.stack.mark⟩).runOn n.world).2
    with ⟨_ | _, w⟩
  · rw [hclose] at hok
    cases hok
  · rfl

/-- A program ends with the scopes open that were when it began. -/
theorem runs {depth : Nat} (p : Program σ D ω depth) {n : Nesting σ D ω} (hn : n.WellNested)
    {scopes : Fin depth → Scope} (hopen : Open n scopes) :
    ∃ opened, Runs n ⟨((p.toAct scopes).runOn n.world).2, n.scopes, opened⟩ := by
  induction p generalizing n with
  | done | fail fault => exact ⟨n.opened, Runs.single .noBarrier (.elsewhere rfl)⟩
  | look next ih => exact ih n.world hn hopen
  | seq first next ihfirst ihnext =>
    obtain ⟨opened, hfirst⟩ := ihfirst hn hopen
    rcases hrun : (first.toAct scopes).runOn n.world with ⟨fault | _, w⟩
    · refine ⟨opened, ?_⟩
      rw [toAct, Act.runOn_bind_error hrun]
      rwa [hrun] at hfirst
    · rw [hrun] at hfirst
      obtain ⟨opened', hnext⟩ := ihnext (hn.runs hfirst) hopen
      refine ⟨opened', hfirst.trans ?_⟩
      rw [toAct, Act.runOn_bind_ok hrun]
      exact hnext
  | attempt body next ihbody ihnext =>
    obtain ⟨opened, hbody⟩ := ihbody hn hopen
    obtain ⟨opened', hnext⟩ := ihnext ((body.toAct scopes).runOn n.world).1 (hn.runs hbody) hopen
    exact ⟨opened', hbody.trans hnext⟩
  | within body ih =>
    obtain ⟨opened, hbody⟩ := ih (hn.runs hn.runs_enter) hopen.enter
    obtain ⟨w, hrun, -, hclosed⟩ :=
      runOn_within (fun s => body.toAct (Fin.cons s scopes)) hn hbody
    refine ⟨opened, ?_⟩
    rw [toAct, hrun]
    exact hclosed
  | @root depth hooks scope r =>
    obtain ⟨number, hmem⟩ := hopen scope
    exact ⟨n.opened, Runs.single hooks (.created r hmem)⟩
  | elsewhere act hkeeps =>
    exact ⟨n.opened, Runs.single .noBarrier (.elsewhere (hkeeps n.world))⟩

/-- The outcome of a program in a scope of its own is the outcome of the program, and the
entries are those of before. -/
theorem within_cases {depth : Nat} (body : Program σ D ω (depth + 1)) {n : Nesting σ D ω}
    (hn : n.WellNested) {scopes : Fin depth → Scope} (hopen : Open n scopes) :
    ((body.within.toAct scopes).runOn n.world).1 =
        ((body.toAct (Fin.cons ⟨n.stack.mark⟩ scopes)).runOn n.world).1 ∧
      ((body.within.toAct scopes).runOn n.world).2.roots.locals.value.entries =
        n.stack.entries := by
  obtain ⟨opened, hbody⟩ := body.runs (hn.runs hn.runs_enter) hopen.enter
  obtain ⟨w, hrun, hentries, -⟩ :=
    runOn_within (fun s => body.toAct (Fin.cons s scopes)) hn hbody
  rw [toAct, hrun]
  exact ⟨rfl, hentries⟩

end Program

namespace Nesting

/-! ## The end of a root set -/

theorem Started.height {n : Nesting σ D ω} (h : n.Started) (hscopes : n.scopes = []) :
    n.world.roots.height = .ok 0 := by
  rw [RootSet.height, BorrowCell.inspect_idle h.wellNested.idle, ShadowStack.height,
    h.grounded.bare hscopes]
  rfl

end Nesting

namespace RootSet

/-- Without local roots the check for them does not fail. -/
theorem checkEmpty_of_height {r : RootSet D} (h : r.height = .ok 0) :
    r.checkEmpty ≠ .error (.failed .localsOutlived) := by
  have hcheck : r.checkEmpty =
      r.poolSize.bind fun size => if size ≠ 0 then throw (.failed .persistentsOutlived)
        else pure () := by
    unfold checkEmpty
    rw [h]
    rfl
  rw [hcheck]
  unfold poolSize BorrowCell.inspect BorrowCell.share
  cases hborrow : r.persistents.borrow with
  | unique => simp [Borrow.share, bind, Except.bind]
  | idle | shared more =>
    simp only [Borrow.share, bind, Except.bind, pure, Except.pure]
    split <;> simp [throw, throwThe, MonadExceptOf.throw]

end RootSet

namespace Act

theorem runOn_withRootSet_fst (act : Act σ D ω α) (w : World σ D ω) :
    ((withRootSet act).runOn w).1 =
      let ran := act.runOn { w with roots := .empty }
      ran.1.bind fun a => ran.2.roots.checkEmpty.map fun _ => a := by
  unfold withRootSet
  simp only [runOn_bind, runOn_get, runOn_modify, runOn_ensuring, runOn_change]
  rcases act.runOn { w with roots := .empty } with ⟨fault | a, w'⟩
  · rfl
  · simp only [runOn_ask]
    cases w'.roots.checkEmpty <;> rfl

/-- Code that leaves no local roots passes the check for them. -/
theorem withRootSet_of_height {act : Act σ D ω α} {w : World σ D ω}
    (hheight : (act.runOn { w with roots := .empty }).2.roots.height = .ok 0)
    (hfailed : ((withRootSet act).runOn w).1 = .error (.failed .localsOutlived)) :
    (act.runOn { w with roots := .empty }).1 = .error (.failed .localsOutlived) := by
  have hcheck := RootSet.checkEmpty_of_height hheight
  rw [runOn_withRootSet_fst] at hfailed
  rcases hrun : act.runOn { w with roots := .empty } with ⟨fault | a, w'⟩
  · rw [hrun] at hfailed
    exact hfailed
  · rw [hrun] at hfailed hcheck
    cases hempty : w'.roots.checkEmpty with
    | error fault =>
      simp only [hempty] at hfailed hcheck
      exact absurd (congrArg Except.error (Except.error.inj hfailed)) hcheck
    | ok _ =>
      simp only [hempty] at hfailed
      cases hfailed

end Act

/-! ## The law of scopes -/

namespace Nesting

/-- The law of scopes.  At any time of any thread that closes its scopes in the reverse order
of opening:

* The shadow stack is at least as high as the mark of each open scope, and there are no
  local roots if no scope is open.
* What has nothing to do with the shadow stack may be done in between.
* A scope can be opened, which changes nothing.  As long as it is open the entries of before
  lie at the bottom of the shadow stack.  When it is the innermost one it can be closed, and
  the entries are those of before.
* A program in a scope of its own is such a run of the thread, whatever faults arise in it.
  Its outcome is that of the program alone, and the entries are those of before.

Code with a root set of its own that closes all its scopes, as each program does, passes the
check for local roots in the end. -/
theorem closing_scope_restores_stack {n : Nesting σ D ω} (hstarted : n.Started) :
    (∀ x ∈ n.scopes, x.2.mark.height ≤ n.stack.height) ∧
    (n.scopes = [] → n.world.roots.height = .ok 0) ∧
    (∀ (α : Type) (act : Act σ D ω α), act.Elsewhere →
      Runs n ⟨(act.runOn n.world).2, n.scopes, n.opened⟩) ∧
    Scope.opened.runOn n.world = (.ok ⟨n.stack.mark⟩, n.world) ∧
    (∀ later s, Runs n.enter later → (n.opened, s) ∈ later.scopes →
      s = ⟨n.stack.mark⟩ ∧ n.stack.entries <+: later.stack.entries) ∧
    (∀ later s rest, Runs n.enter later → later.scopes = (n.opened, s) :: rest →
      rest = n.scopes ∧ (s.close.runOn later.world).1 = .ok () ∧
      (s.close.runOn later.world).2.roots.locals.value.entries = n.stack.entries) ∧
    (∀ depth (body : Program σ D ω (depth + 1)) (scopes : Fin depth → Scope),
      Program.Open n scopes →
      let ran := (body.toAct (Fin.cons ⟨n.stack.mark⟩ scopes)).runOn n.world
      let left := (body.within.toAct scopes).runOn n.world
      (∃ opened, Runs n ⟨left.2, n.scopes, opened⟩) ∧ left.1 = ran.1 ∧
      left.2.roots.locals.value.entries = n.stack.entries) ∧
    (∀ (α : Type) (act : Act σ D ω α) opened,
      let start := { n.world with roots := .empty }
      Runs ⟨start, [], 0⟩ ⟨(act.runOn start).2, [], opened⟩ →
      (act.runOn start).2.roots.height = .ok 0 ∧
      (act.runOn start).2.roots.checkEmpty ≠ .error (.failed .localsOutlived) ∧
      (((Act.withRootSet act).runOn n.world).1 = .error (.failed .localsOutlived) →
        (act.runOn start).1 = .error (.failed .localsOutlived))) ∧
    (∀ p : Program σ D ω 0,
      let start := { n.world with roots := .empty }
      ∃ opened, Runs ⟨start, [], 0⟩ ⟨((p.toAct Fin.elim0).runOn start).2, [], opened⟩) := by
  have hn := hstarted.wellNested
  refine ⟨?_, hstarted.height, ?_, hn.runOn_opened, ?_, ?_, ?_, ?_, ?_⟩
  · exact fun x hx => ShadowStack.height_le_of_accepts (hn.accepted x hx)
  · intro α act helsewhere
    exact Runs.single .noBarrier (.elsewhere (helsewhere.keepsLocals n.world))
  · intro later s hruns hopen
    have hlater := (hn.runs hn.runs_enter).runs hruns
    obtain ⟨hmark, hintact, _⟩ := (hn.extent hruns).of_mem hlater hopen
    exact ⟨hmark, hintact⟩
  · intro later s rest hruns hscopes
    have hlater := (hn.runs hn.runs_enter).runs hruns
    exact (hn.extent hruns).close hlater hscopes
  · intro depth body scopes hopen
    exact ⟨body.within.runs hn hopen, body.within_cases hn hopen⟩
  · intro α act opened start hruns
    have hended : (⟨(act.runOn start).2, [], opened⟩ : Nesting σ D ω).Started :=
      ⟨start, rfl, hruns⟩
    have hheight := hended.height rfl
    exact ⟨hheight, RootSet.checkEmpty_of_height hheight, Act.withRootSet_of_height hheight⟩
  · exact fun p => p.runs (WellNested.start rfl) (fun i => i.elim0)

/-- A thread that has just started. -/
def fresh : Nesting Unit Char Unit := ⟨⟨.empty, (), 0, [], ()⟩, [], 0⟩

theorem fresh_started : fresh.Started := ⟨fresh.world, rfl, .refl⟩

/-- The innermost of some open scopes. -/
def innermost {depth : Nat} : Fin (depth + 1) := 0

/-- The same thread with one open scope and a root in it. -/
def oneRoot : Nesting Unit Char Unit :=
  ⟨⟨⟨.new ⟨[⟨'a', .object 1, 1⟩], 2⟩, .new .empty⟩, (), 0, [], ()⟩, [(0, ⟨⟨0, 0⟩⟩)], 1⟩

theorem oneRoot_runs : Runs fresh.enter oneRoot :=
  Runs.single .noBarrier
    (.created (i := 0) (s := ⟨⟨0, 0⟩⟩) (.plain 'a' (.object 1)) List.mem_cons_self)

/-- A root that stays for good is added. -/
def persists : Act Unit Char Unit Unit := do
  let type : TypeInfo Char := ⟨.ok 'p', false, ⟨8, 8⟩⟩
  let _ ← PersistentHandle.new type (.reference ⟨.strong, some (.object 9)⟩ : Handle Nat)

theorem keepsLocals_persists : persists.KeepsLocals :=
  (Act.Elsewhere.new _ _).keepsLocals.bind fun _ => (Act.keepsRoots_pure _).keepsLocals

/-- Roots are created through the innermost of three scopes and through the one that is further
out.  One more is refused, as its descriptor cannot be had, which closes the innermost scope and
is survived in the next one.  Then that one gives up. -/
def givesUp : Program Unit Char Unit 2 :=
  let unknown : TypeInfo Char := ⟨.error (.raised "no descriptor"), false, ⟨8, 8⟩⟩
  .seq (.root .noBarrier innermost (.plain 'b' (.object 2)))
    (.attempt
      (.within
        (.seq (.root .noBarrier innermost (.plain 'c' (.object 3)))
          (.seq (.elsewhere persists keepsLocals_persists)
            (.seq (.root .noBarrier innermost.succ (.plain 'd' (.object 4)))
              (.root .noBarrier innermost (.strong unknown (some (.object 5))))))))
      fun outcome =>
        match outcome with
        | .ok () => .done
        | .error _ => .fail (.raised "giving up"))

/-- However a program leaves the second scope, the root of the first one is on the shadow
stack again, and the first scope can be closed. -/
theorem first_root_left_alone :
    let first : Scope := ⟨⟨0, 0⟩⟩
    let ran := (givesUp.toAct (Fin.cons ⟨⟨1, 1⟩⟩ fun _ => first)).runOn oneRoot.world
    let left := (givesUp.within.toAct fun _ => first).runOn oneRoot.world
    ran.1 = .error (.raised "giving up") ∧
    ran.2.roots.locals.value.roots = [('a', .object 1), ('b', .object 2)] ∧
    left.1 = ran.1 ∧ left.2.roots.locals.value.entries = oneRoot.stack.entries ∧
    Runs fresh.enter oneRoot ∧ (first.close.runOn oneRoot.world).1 = .ok () ∧
    (first.close.runOn oneRoot.world).2.roots.locals.value.entries = [] := by
  have hstarted : oneRoot.Started :=
    (fresh_started.runs fresh_started.wellNested.runs_enter).runs oneRoot_runs
  have hopen : Program.Open oneRoot fun _ : Fin 1 => ⟨⟨0, 0⟩⟩ := fun _ => ⟨0, List.mem_cons_self⟩
  obtain ⟨-, -, -, -, -, -, hwithin, -, -⟩ := closing_scope_restores_stack hstarted
  obtain ⟨-, hsame, hentries⟩ := hwithin 1 givesUp (fun _ => ⟨⟨0, 0⟩⟩) hopen
  obtain ⟨-, -, -, -, -, hclose, -, -, -⟩ := closing_scope_restores_stack fresh_started
  obtain ⟨-, hok, hnone⟩ := hclose oneRoot ⟨⟨0, 0⟩⟩ [] oneRoot_runs rfl
  exact ⟨by decide +kernel, by decide +kernel, hsame, hentries, oneRoot_runs, hok, hnone⟩

end Nesting

end TracedHeap
