import TracedHeap.Script.Rooting.Frame

/-! # Carrying out plain steps

What the steps over root sets do that contain no other steps.

* `LocalAct.run`, `PersistentAct.run`: what is done with one handle.
* `PlainStep.run`: the steps.
-/

namespace TracedHeap

namespace Script

def hooks : Hooks Simulated := Simulated.quiet

/-- What must be known of a native type whose values are roots. -/
def typeInfo (t : NativeType) : TypeInfo DescriptorRef :=
  ⟨Native.lookup t, t.element.isSome, t.layout⟩

/-- The descriptor that a root is given. -/
def rootDescriptor : Target NativeType → Except Fault DescriptorRef
  | .boxed => .ok .boxed
  | .type t => Native.lookup t

/-- Works on a handle through its hooks. -/
def throughHooks {α : Type} (act : Simulated → α × RefHandle × Simulated) :
    ScriptAct (α × RefHandle) :=
  Act.onCollector fun s =>
    let (a, h, s) := act s
    ((a, h), s)

/-! ## Local handles -/

def relocate (name : String) (h : LocalHandle) : ScriptAct Unit :=
  reframe fun f => { f with locals := Named.replace name h f.locals }

def LocalAct.onReference (name : String) (type : NativeType) (h : RefHandle) :
    LocalAct → ScriptAct Reply
  | .retarget scope target =>
    if h.strength ≠ .strong then nonsense
    else named (·.scope? scope) fun s => do
      let (h, outcome) ← Scope.retarget hooks s h (typeInfo type) target
      -- the local was changed even if its target could not be rooted
      relocate name ⟨type, .reference h⟩
      match outcome with
      | .ok () => return .nothing
      | .error fault => return .refused fault
  | .set target _ => do
    let (_, h) ← throughHooks fun s => ((), h.set hooks target s)
    relocate name ⟨type, .reference h⟩
    return .nothing
  | .get => do
    let (target, h) ← throughHooks (h.get hooks)
    relocate name ⟨type, .reference h⟩
    return .pointer target
  | .isAlive =>
    if h.strength ≠ .weak then nonsense
    else do
      let (alive, h) ← throughHooks (h.isAlive hooks)
      relocate name ⟨type, .reference h⟩
      return .truth alive

def LocalAct.onValue (name : String) (type : NativeType) (h : ValueHandle NativeValue) :
    LocalAct → ScriptAct Reply
  | .set _ n =>
    match h.value.withNumber? n with
    | some value => do
      relocate name ⟨type, .value ⟨value⟩⟩
      return .nothing
    | none => nonsense
  | .get => return .value h.value
  | .retarget _ _ | .isAlive => nonsense

def LocalAct.run (name : String) (l : LocalHandle) (act : LocalAct) : ScriptAct Reply :=
  match l.handle with
  | .reference h => act.onReference name l.type h
  | .value h => act.onValue name l.type h

/-! ## Persistent handles -/

def repersist (name : String) (p : NativePersistent) : ScriptAct Unit :=
  reframe fun f => { f with persistents := Named.replace name p f.persistents }

/-- Alters a handle.  Nothing comes of an alteration that is not for handles of its
kind. -/
def Alteration.run (h : Handle NativeValue) (s : Simulated) :
    Alteration → Option (Handle NativeValue × Simulated)
  | .nothing => some (h, s)
  | .set target n => alter (fun r => r.set hooks target s) (·.withNumber? n)
  | .replace target n =>
    alter (fun r => RefHandle.new hooks r.strength target s) (·.withNumber? n)
  | .setSlot target => alter (fun r => (r.setSlot target, s)) fun _ => none
  | .read => alter (fun r => (r.get hooks s).2) fun _ => none
where
  alter (reference : RefHandle → RefHandle × Simulated)
      (value : NativeValue → Option NativeValue) : Option (Handle NativeValue × Simulated) :=
    match h with
    | .reference r =>
      let (r, s) := reference r
      some (.reference r, s)
    | .value v => (value v.value).map fun v => (.value ⟨v⟩, s)

/-- What is said by code that alters a handle and then fails. -/
def updateFailed : Fault := .raised "update failed"

/-- The code that alters a handle, and may fail then. -/
def Alteration.change (a : Alteration) (fails : Bool) :
    PersistentHandle.Change Simulated NativeValue :=
  fun h s =>
    let (h, s) := (a.run h s).getD (h, s)
    (if fails then .error updateFailed else .ok (), h, s)

/-- Reads the target of a persistent handle and goes on with it. -/
def readPersistent (name : String) (p : NativePersistent) (tell : Pointer → Reply) :
    ScriptAct Reply :=
  match p.handle with
  | .reference h => do
    let (target, p) ← p.read hooks h
    repersist name p
    return tell target
  | .value _ => nonsense

/-- Updates a persistent handle. -/
def updatePersistent (name : String) (p : NativePersistent) (alteration : Alteration)
    (fails : Bool) : ScriptAct Reply := do
  -- run once to see whether it makes sense, and then for good
  if (alteration.run p.handle (← get).collector).isNone then nonsense
  else
    let (p, outcome) ← p.update (alteration.change fails)
    repersist name p
    match outcome with
    | .ok () => return .updated
    | .error fault => throw fault

/-- Carries out what a step does with a persistent handle. -/
def PersistentAct.run (name : String) (p : NativePersistent) : PersistentAct → ScriptAct Reply
  | .update alteration fails => updatePersistent name p alteration fails
  | .get =>
    match p.handle with
    | .value h => return .value h.value
    | .reference _ => readPersistent name p .pointer
  | .isAlive =>
    if p.handle.discipline ≠ .weak then nonsense
    else readPersistent name p fun target => .truth target.isSome
  | .setSlot target => do
    match p.handle with
    | .reference h =>
      repersist name { p with handle := .reference (h.setSlot target) }
      return .nothing
    | .value _ => nonsense
  | .debug => return .text (p.debug NativeValue.shown)
  | .debugLines => return .text (p.debugLines NativeValue.shown)
  | .selfRooted => return .truth (p.registered = some p.box)

/-! ## Steps -/

/-- Adds a local under a name. -/
def locate (name : String) (type : NativeType) (h : Handle NativeValue) : ScriptAct Reply := do
  reframe fun f => { f with locals := (name, ⟨type, h⟩) :: f.locals }
  return .nothing

/-- Creates a persistent handle under a name. -/
def persist (name : String) (create : ScriptAct NativePersistent) : ScriptAct Unit := do
  let p ← create
  reframe fun f => f.persist name p

/-- Creates a persistent reference under a name. -/
def persistReference (name : String) (strength : Strength) (type : NativeType)
    (target : Pointer) : ScriptAct Unit :=
  persist name do
    let h ← Act.onCollector (RefHandle.new hooks strength target)
    PersistentHandle.new (typeInfo type) (.reference h)

/-- How often a pointer is registered; null never is, and nothing is said of it. -/
def refcountAt : Pointer → ScriptAct Reply
  | some data => do return .number (← Act.ask (·.refcount data))
  | none => return .nothing

/-- Carries out a plain step. -/
def PlainStep.run : PlainStep → ScriptAct Reply
  | .openScope name => do
    let s ← Scope.opened
    reframe fun f => { f with scopes := (name, s) :: f.scopes }
    return .opened s.mark.height
  | .closeScope name =>
    named (·.scopes.lookup name) fun s => do
      -- the scope is gone even if closing it fails
      reframe fun f => { f with scopes := Named.remove name f.scopes }
      s.close
      return .nothing
  | .forgetScope name =>
    named (·.scopes.lookup name) fun _ => do
      reframe fun f => { f with scopes := Named.remove name f.scopes }
      return .nothing
  | .newStrong place name type target =>
    named (·.scope? place) fun s => do
      locate name type (.reference (← Scope.newStrong hooks s (typeInfo type) target))
  | .newWeak place name type target =>
    named (·.scope? place) fun s => do
      locate name type (.reference (← Scope.newWeak hooks s target))
  | .newValue place name type n =>
    named (·.scope? place) fun s =>
      match NativeValue.ofNumber? n type with
      | some value => do locate name type (.value (← Scope.newValue s value))
      | none => nonsense
  | .root place descriptor object =>
    named (·.scope? place) fun s => do
      s.root (← Act.demand (rootDescriptor descriptor)) (.object object)
      return .nothing
  | .onLocal name what => named (·.locals.lookup name) (what.run name)
  | .dropLocal name =>
    named (·.locals.lookup name) fun _ => do
      reframe fun f => { f with locals := Named.remove name f.locals }
      return .nothing
  | .persistStrong name type target => do
    persistReference name .strong type target
    return .truth true
  | .persistWeak name type target => do
    persistReference name .weak type target
    return .nothing
  | .persistValue name type n =>
    match NativeValue.ofNumber? n type with
    | some value => do
      persist name (PersistentHandle.new (typeInfo type) (.value ⟨value⟩))
      return .nothing
    | none => nonsense
  | .clone name source =>
    named (·.persistents.lookup source) fun p => do
      persist name (p.clone hooks)
      return .nothing
  | .drop name =>
    named (·.persistents.lookup name) fun p => do
      reframe fun f => { f with persistents := Named.remove name f.persistents }
      p.drop
      return .nothing
  | .forget name =>
    named (·.persistents.lookup name) fun _ => do
      reframe fun f => { f with persistents := Named.remove name f.persistents }
      return .nothing
  | .onPersistent name what => named (·.persistents.lookup name) (what.run name)
  | .whereIs name =>
    named (·.persistents.lookup name) fun p => do
      match p.registered with
      | some data => return .place ((← frame).place data)
      | none => return .nothing
  | .refcount target => refcountAt target
  | .refcountOf name => named (·.persistents.lookup name) fun p => refcountAt p.registered
  | .mode told => do
    modify fun w => { w with collector := { w.collector with mode := told } }
    return .nothing

end Script

end TracedHeap
