import Mathlib.Tactic.Choose
import TracedHeap.Proofs.Inheritance

/-! # Native code and its visits

Native code that may do anything with a root set: change it, survive faults, and visit it
with a visitor that is such code again.  It can be run in a way that takes down what
happens, together with the visits that are active at that time.

1. **Parts and changes** of a root set.
2. **Events**: attempts to change the root set, visits, and everything else.
3. **Visits** with visitors that report events.
4. **Code** as a tree, what it does (`Code.toAct`), and how it is run with its events
   (`Code.run`).  Both come to the same (`Code.runOn_toAct`).
5. **Operations** of native code are such code (`Act.Operation.isCode`).
-/

namespace TracedHeap

variable {σ D V ω α β : Type}

/-! ## Parts and changes -/

/-- The two parts of a root set. -/
inductive RootPart where
  | locals
  | persistents
  deriving DecidableEq, Repr

namespace RootPart

/-- Who looks at a part. -/
def borrow : RootPart → RootSet D → Borrow
  | .locals, r => r.locals.borrow
  | .persistents, r => r.persistents.borrow

/-- The roots in a part, in the order of visits. -/
def roots : RootPart → RootSet D → List (D × Address)
  | .locals, r => r.locals.value.roots
  | .persistents, r => r.persistents.value.roots

/-- Starts to look at a part. -/
def lend : RootPart → RootSet D → Except Fault (RootSet D)
  | .locals, r => r.shareLocals
  | .persistents, r => r.sharePersistents

/-- Ends a look at a part. -/
def takeBack : RootPart → RootSet D → RootSet D
  | .locals, r => r.releaseLocals
  | .persistents, r => r.releasePersistents

end RootPart

/-- A change of a root set. -/
inductive RootChange (D : Type) where
  | push (descriptor : D) (data : Address)
  | popTo (mark : StackMark)
  | register (data : Address) (descriptor : D)
  | unregister (data : Address)
  deriving DecidableEq, Repr

namespace RootChange

/-- The part that is changed. -/
def part : RootChange D → RootPart
  | .push _ _ | .popTo _ => .locals
  | .register _ _ | .unregister _ => .persistents

/-- The change as native code makes it. -/
def act [BEq D] : RootChange D → Act σ D ω Unit
  | .push descriptor data => Act.push descriptor data
  | .popTo mark => Act.popTo mark
  | .register data descriptor => Act.register data descriptor
  | .unregister data => Act.unregister data

end RootChange

/-! ## Events -/

/-- An attempt to change the root set. -/
structure Attempt (σ D ω : Type) where
  /-- The parts that the active visits look at just then, the innermost first. -/
  active : List RootPart
  change : RootChange D
  before : World σ D ω
  outcome : Except Fault Unit
  after : World σ D ω

/-- A call of a visitor, when it has ended. -/
structure VisitorCall (D : Type) where
  root : D × Address
  outcome : Except Fault Unit

/-- A visit, when it has ended. -/
structure Visit (σ D ω : Type) where
  /-- The parts that the visits around it look at, the innermost first. -/
  active : List RootPart
  before : World σ D ω
  /-- The calls of the visitor, in order. -/
  calls : List (VisitorCall D)
  /-- The world when the shadow stack was given back. -/
  between : World σ D ω
  outcome : Except Fault Unit
  after : World σ D ω

/-- What native code does. -/
inductive RootEvent (σ D ω : Type) where
  | attempt (a : Attempt σ D ω)
  | visit (v : Visit σ D ω)
  /-- It does something else, by which the root set is not changed. -/
  | elsewhere (active : List RootPart) (w : World σ D ω)

/-- What running some code comes to. -/
structure Ran (σ D ω α : Type) where
  outcome : Except Fault α
  world : World σ D ω
  /-- What happened, in the order in which it ended. -/
  events : List (RootEvent σ D ω)

/-- What running some code comes to, and other code after it unless it failed. -/
def Ran.andThen (ran : Ran σ D ω α) (next : α → World σ D ω → Ran σ D ω β) : Ran σ D ω β :=
  match ran.outcome with
  | .error fault => ⟨.error fault, ran.world, ran.events⟩
  | .ok a =>
    let others := next a ran.world
    ⟨others.outcome, others.world, ran.events ++ others.events⟩

/-- What showing some roots comes to. -/
structure Showing (σ D ω : Type) extends Ran σ D ω Unit where
  calls : List (VisitorCall D)

/-- What showing a root comes to, and others after it unless its call failed. -/
def Ran.thenShow (ran : Ran σ D ω Unit) (root : D × Address) (rest : World σ D ω → Showing σ D ω) :
    Showing σ D ω :=
  match ran.outcome with
  | .error fault => ⟨ran, [⟨root, .error fault⟩]⟩
  | .ok () =>
    let others := rest ran.world
    ⟨⟨others.outcome, others.world, ran.events ++ others.events⟩, ⟨root, .ok ()⟩ :: others.calls⟩

/-! ## Visits -/

namespace Visit

/-- Shows some roots to a visitor, up to the one at which it fails. -/
def showEach (visitor : D → Address → World σ D ω → Ran σ D ω Unit) :
    List (D × Address) → World σ D ω → Showing σ D ω
  | [], w => ⟨⟨.ok (), w, []⟩, []⟩
  | root :: rest, w => (visitor root.1 root.2 w).thenShow root (showEach visitor rest)

/-- Shows a part of the root set to a visitor, and lends it out meanwhile. -/
def showPart (part : RootPart)
    (visitor : D → Address → List RootPart → World σ D ω → Ran σ D ω Unit)
    (active : List RootPart) (w : World σ D ω) : Showing σ D ω :=
  match part.lend w.roots with
  | .error fault => ⟨⟨.error fault, { w with log := w.log ++ fault.lines }, []⟩, []⟩
  | .ok roots =>
    let showing := showEach (fun descriptor data => visitor descriptor data (part :: active))
      (part.roots roots) { w with roots }
    { showing with world := { showing.world with roots := part.takeBack showing.world.roots } }

/-- Shows the shadow stack to a visitor, and then the pool. -/
def showAll (visitor : D → Address → List RootPart → World σ D ω → Ran σ D ω Unit)
    (active : List RootPart) (w : World σ D ω) : Ran σ D ω Unit :=
  let first := showPart .locals visitor active w
  match first.outcome with
  | .error fault =>
    ⟨.error fault, first.world, first.events ++
      [.visit ⟨active, w, first.calls, first.world, .error fault, first.world⟩]⟩
  | .ok () =>
    let second := showPart .persistents visitor active first.world
    ⟨second.outcome, second.world, first.events ++ second.events ++
      [.visit ⟨active, w, first.calls ++ second.calls, first.world, second.outcome, second.world⟩]⟩

theorem runOn_visitAll {act : D → Address → Act σ D ω Unit}
    {visitor : D → Address → World σ D ω → Ran σ D ω Unit}
    (h : ∀ descriptor data w, (act descriptor data).runOn w =
      ((visitor descriptor data w).outcome, (visitor descriptor data w).world))
    (roots : List (D × Address)) (w : World σ D ω) :
    (Act.visitAll act roots).runOn w =
      ((showEach visitor roots w).outcome, (showEach visitor roots w).world) := by
  induction roots generalizing w with
  | nil => rfl
  | cons root rest ih =>
    obtain ⟨descriptor, data⟩ := root
    unfold Act.visitAll
    rw [Act.runOn_bind, h]
    cases houtcome : (visitor descriptor data w).outcome with
    | error fault => simp [showEach, Ran.thenShow, houtcome]
    | ok _ => simp [showEach, Ran.thenShow, houtcome, ih]

/-- Shows a part of the root set, as a visit does twice. -/
def actOnPart (part : RootPart) (act : D → Address → Act σ D ω Unit) : Act σ D ω Unit := do
  Act.change part.lend
  let roots := part.roots (← get).roots
  Act.ensuring (Act.visitAll act roots) (Act.change fun r => .ok (part.takeBack r))

theorem visit_eq (act : D → Address → Act σ D ω Unit) :
    Act.visit act = (do actOnPart .locals act; actOnPart .persistents act) := by
  simp only [actOnPart, bind_assoc]
  rfl

theorem runOn_actOnPart {act : D → Address → Act σ D ω Unit}
    {visitor : D → Address → List RootPart → World σ D ω → Ran σ D ω Unit}
    (h : ∀ descriptor data active w, (act descriptor data).runOn w =
      ((visitor descriptor data active w).outcome, (visitor descriptor data active w).world))
    (part : RootPart) (active : List RootPart) (w : World σ D ω) :
    (actOnPart part act).runOn w =
      ((showPart part visitor active w).outcome, (showPart part visitor active w).world) := by
  unfold actOnPart showPart
  rw [Act.runOn_bind, Act.runOn_change]
  cases part.lend w.roots with
  | error fault => rfl
  | ok roots =>
    simp only [Act.runOn_bind, Act.runOn_get, Act.runOn_ensuring, Act.runOn_change,
      runOn_visitAll fun descriptor data => h descriptor data (part :: active)]

theorem runOn_visit {act : D → Address → Act σ D ω Unit}
    {visitor : D → Address → List RootPart → World σ D ω → Ran σ D ω Unit}
    (h : ∀ descriptor data active w, (act descriptor data).runOn w =
      ((visitor descriptor data active w).outcome, (visitor descriptor data active w).world))
    (active : List RootPart) (w : World σ D ω) :
    (Act.visit act).runOn w =
      ((showAll visitor active w).outcome, (showAll visitor active w).world) := by
  rw [visit_eq, Act.runOn_bind, runOn_actOnPart h .locals active]
  cases houtcome : (showPart .locals visitor active w).outcome with
  | error fault => simp only [showAll, houtcome]
  | ok _ =>
    simp only [showAll, houtcome]
    exact runOn_actOnPart h .persistents active _

end Visit

/-! ## Code -/

/-- Native code. -/
inductive Code (σ D ω : Type) : Type → Type 1 where
  /-- Anything that leaves the root set as it is: it may look at the whole world, fail, and
  work on the collector and on a state of its own. -/
  | elsewhere {α : Type} (act : Act σ D ω α) (hkeeps : act.KeepsRoots) : Code σ D ω α
  | change (c : RootChange D) : Code σ D ω Unit
  | bind {α β : Type} (first : Code σ D ω α) (next : α → Code σ D ω β) : Code σ D ω β
  /-- A fault of the body is survived. -/
  | attempt {α : Type} (body : Code σ D ω α) : Code σ D ω (Except Fault α)
  /-- The root set is visited, and the visitor does with it what it likes. -/
  | visit (visitor : D → Address → Code σ D ω Unit) : Code σ D ω Unit
  /-- The body has a root set of its own. -/
  | withRootSet {α : Type} (body : Code σ D ω α) : Code σ D ω α

namespace Code

variable [BEq D]

/-- What code does. -/
def toAct {α : Type} : Code σ D ω α → Act σ D ω α
  | .elsewhere act _ => act
  | .change c => c.act
  | .bind first next => do (next (← first.toAct)).toAct
  | .attempt body => Act.attempt body.toAct
  | .visit visitor => Act.visit fun descriptor data => (visitor descriptor data).toAct
  | .withRootSet body => Act.withRootSet body.toAct

/-- Runs code while some visits are active, and takes down what happens. -/
def run {α : Type} : Code σ D ω α → List RootPart → World σ D ω → Ran σ D ω α
  | .elsewhere act _, active, w => ⟨(act.runOn w).1, (act.runOn w).2, [.elsewhere active w]⟩
  | .change c, active, w =>
    let done := (c.act : Act σ D ω Unit).runOn w
    ⟨done.1, done.2, [.attempt ⟨active, c, w, done.1, done.2⟩]⟩
  | .bind first next, active, w => (first.run active w).andThen fun a => (next a).run active
  | .attempt body, active, w =>
    let ran := body.run active w
    ⟨.ok ran.outcome, ran.world, ran.events⟩
  | .visit visitor, active, w =>
    Visit.showAll (fun descriptor data => (visitor descriptor data).run) active w
  | .withRootSet body, _, w =>
    -- no visit looks at the new root set yet
    let ran := body.run [] { w with roots := .empty }
    let ended :=
      match ran.outcome with
      | .ok a => (do Act.ask (·.checkEmpty); return a : Act σ D ω _).runOn ran.world
      | .error fault => (.error fault, ran.world)
    ⟨ended.1, { ended.2 with roots := w.roots }, ran.events ++ [.elsewhere [] ran.world]⟩

/-- Taking down what happens changes nothing. -/
theorem runOn_toAct {α : Type} (code : Code σ D ω α) (active : List RootPart) (w : World σ D ω) :
    code.toAct.runOn w = ((code.run active w).outcome, (code.run active w).world) := by
  induction code generalizing active w with
  | elsewhere act hkeeps => rfl
  | change c => rfl
  | bind first next ihfirst ihnext =>
    rw [toAct, Act.runOn_bind, ihfirst active, run, Ran.andThen]
    cases houtcome : (first.run active w).outcome with
    | error fault => rfl
    | ok a => exact ihnext a active _
  | attempt body ih =>
    rw [toAct, Act.runOn_attempt, ih active]
    rfl
  | visit visitor ih => exact Visit.runOn_visit ih active w
  | withRootSet body ih =>
    unfold toAct Act.withRootSet
    simp only [Act.runOn_bind, Act.runOn_get, Act.runOn_modify, Act.runOn_ensuring,
      Act.runOn_change, ih []]
    rw [run]
    cases (body.run [] { w with roots := .empty }).outcome with
    | error fault => rfl
    | ok a => simp only [Act.runOn_bind]

end Code

/-! ## Operations -/

namespace Act

/-- What is done is done by native code. -/
def IsCode [BEq D] (act : Act σ D ω α) : Prop := ∃ code : Code σ D ω α, code.toAct = act

variable [BEq D]

theorem KeepsRoots.isCode {act : Act σ D ω α} (h : act.KeepsRoots) : act.IsCode :=
  ⟨.elsewhere act h, rfl⟩

theorem isCode_pure (a : α) : (pure a : Act σ D ω α).IsCode := (keepsRoots_pure a).isCode

theorem IsCode.bind {act : Act σ D ω α} {f : α → Act σ D ω β} (hact : act.IsCode)
    (hf : ∀ a, (f a).IsCode) : (act >>= f).IsCode := by
  obtain ⟨first, rfl⟩ := hact
  choose next hnext using hf
  refine ⟨.bind first next, ?_⟩
  show (first.toAct >>= fun a => (next a).toAct) = _
  simp only [hnext]

theorem IsCode.attempt {act : Act σ D ω α} (hact : act.IsCode) : (attempt act).IsCode := by
  obtain ⟨code, rfl⟩ := hact
  exact ⟨.attempt code, rfl⟩

theorem IsCode.ensuring {act : Act σ D ω α} {work : Act σ D ω Unit} (hact : act.IsCode)
    (hwork : work.IsCode) : (ensuring act work).IsCode := by
  refine hact.attempt.bind fun outcome => hwork.bind fun _ => ?_
  cases outcome with
  | ok a => exact isCode_pure a
  | error fault => exact (keepsRoots_throw fault).isCode

theorem IsCode.withRootSet {act : Act σ D ω α} (hact : act.IsCode) : (withRootSet act).IsCode := by
  obtain ⟨code, rfl⟩ := hact
  exact ⟨.withRootSet code, rfl⟩

theorem IsCode.visit {visitor : D → Address → Act σ D ω Unit}
    (h : ∀ descriptor data, (visitor descriptor data).IsCode) : (visit visitor).IsCode := by
  choose code hcode using h
  refine ⟨.visit code, ?_⟩
  show Act.visit (fun descriptor data => (code descriptor data).toAct) = _
  simp only [hcode]

theorem isCode_push (descriptor : D) (data : Address) :
    (push descriptor data : Act σ D ω Unit).IsCode :=
  ⟨.change (.push descriptor data), rfl⟩

/-- What native code can do with a root set, apart from code of its own in between. -/
inductive Operation : {α : Type} → Act σ D ω α → Prop
  /-- Anything that only asks the root set: heights, sizes, counts, marks. -/
  | inquiry {α : Type} (question : RootSet D → Except Fault α) : Operation (ask question)
  | opened : Operation Scope.opened
  | close (s : Scope) : Operation s.close
  | within {α : Type} {body : Scope → Act σ D ω α} (hbody : ∀ s, (body s).IsCode) :
      Operation (Scope.within body)
  | strong (hooks : Hooks σ) (s : Scope) (type : TypeInfo D) (target : Pointer) :
      Operation (s.newStrong hooks type target)
  | weak (hooks : Hooks σ) (s : Scope) (target : Pointer) : Operation (s.newWeak hooks target)
  | value {V : Type} (s : Scope) (value : V) : Operation (s.newValue value)
  | retarget (hooks : Hooks σ) (s : Scope) (h : RefHandle) (type : TypeInfo D) (target : Pointer) :
      Operation (s.retarget hooks h type target)
  | root (s : Scope) (descriptor : D) (data : Address) : Operation (s.root descriptor data)
  | new {V : Type} (type : TypeInfo D) (handle : Handle V) :
      Operation (PersistentHandle.new type handle)
  | clone {V : Type} (hooks : Hooks σ) (p : PersistentHandle D V) : Operation (p.clone hooks)
  | read {V : Type} (hooks : Hooks σ) (p : PersistentHandle D V) (h : RefHandle) :
      Operation (p.read hooks h)
  | update {V : Type} (p : PersistentHandle D V) (change : PersistentHandle.Change σ V) :
      Operation (p.update change)
  | drop {V : Type} (p : PersistentHandle D V) : Operation p.drop
  | visit {visitor : D → Address → Act σ D ω Unit}
      (hvisitor : ∀ descriptor data, (visitor descriptor data).IsCode) :
      Operation (Act.visit visitor)
  | withRootSet {α : Type} {act : Act σ D ω α} (hact : act.IsCode) : Operation (Act.withRootSet act)

theorem isCode_rootTarget (type : TypeInfo D) (target : Pointer) :
    (Scope.rootTarget type target : Act σ D ω Unit).IsCode := by
  cases target with
  | none => exact isCode_pure ()
  | some data =>
    exact (keepsRoots_demand _).isCode.bind fun descriptor => isCode_push descriptor data

theorem isCode_opened : (Scope.opened : Act σ D ω Scope).IsCode :=
  (keepsRoots_ask _).isCode.bind fun _ => isCode_pure _

theorem isCode_close (s : Scope) : (s.close : Act σ D ω Unit).IsCode :=
  ⟨.change (.popTo s.mark), rfl⟩

theorem inherited_isCode : Inherited fun _ (act : Act σ D ω _) => act.IsCode where
  keeps h := h.isCode
  bind hact hf := hact.bind hf
  attempt hact := hact.attempt
  unregister data := ⟨.change (.unregister data), rfl⟩

theorem isCode_register (data : Address) (descriptor : D) :
    (register data descriptor : Act σ D ω Unit).IsCode :=
  ⟨.change (.register data descriptor), rfl⟩

/-- Whatever native code can do is code, so that code of such operations is code, too. -/
theorem Operation.isCode {act : Act σ D ω α} (h : Operation act) : act.IsCode := by
  cases h with
  | inquiry question => exact (keepsRoots_ask question).isCode
  | opened => exact isCode_opened
  | close s => exact isCode_close s
  | within hbody => exact isCode_opened.bind fun s => (hbody s).ensuring (isCode_close s)
  | strong hooks s type target =>
    exact (keepsRoots_onCollector _).isCode.bind fun h =>
      (isCode_rootTarget type target).bind fun _ => isCode_pure h
  | weak hooks s target => exact (keepsRoots_onCollector _).isCode
  | value s value => exact isCode_pure _
  | retarget hooks s h type target =>
    exact (keepsRoots_onCollector _).isCode.bind fun h =>
      (isCode_rootTarget type target).attempt.bind fun _ => isCode_pure _
  | root s descriptor data => exact isCode_push descriptor data
  | new type handle => exact inherited_isCode.new isCode_register type handle
  | clone hooks p => exact inherited_isCode.clone isCode_register hooks p
  | read hooks p h => exact inherited_isCode.read hooks p h
  | update p change => exact inherited_isCode.update isCode_register p change
  | drop p => exact inherited_isCode.drop p
  | visit hvisitor => exact IsCode.visit hvisitor
  | withRootSet hact => exact hact.withRootSet

end Act

end TracedHeap
