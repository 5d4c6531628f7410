import TracedHeap.Handle.Basic

/-! # Desks of handles

Runs of operations on handles.  Handles of all disciplines lie on a desk, each at a place
that is never used again, so that its place stands for its slot.  A value may hold handles,
which lie on the desk like all others: what it does when it is made, copied or dropped is a
list of operations again.

1. **Hooks** that know the slot, and hooks that are watched.
2. **Desks**, and what can be done on them.
3. **Operations**, how they are carried out (`HandleOp.run`), and the calls that they are
   to make (`HandleOp.calls`).
4. **Deeds**: the few things that an operation can come to, given the handles that it finds
   (`HandleOp.run_calls_deed`), and induction over all code that is run.
-/

namespace TracedHeap

variable {V σ : Type}

/-! ## Hooks -/

/-- Hooks that are told which slot they read or write. -/
structure SlotHooks (σ : Type) where
  created : Discipline → σ → σ
  destroyed : Discipline → σ → σ
  read : (slot : Nat) → (stored : Pointer) → σ → Reading × σ
  write : (slot : Nat) → (given stored : Pointer) → σ → Pointer × σ

/-- A call of a hook. -/
inductive HookCall where
  | created (discipline : Discipline)
  | destroyed (discipline : Discipline)
  /-- The slot stores a pointer just then. -/
  | read (slot : Nat) (stored : Pointer)
  | write (slot : Nat) (given stored : Pointer)
  deriving DecidableEq, Repr

namespace HookCall

/-- The slot that a hook is called on. -/
def slot? : HookCall → Option Nat
  | .read slot _ | .write slot _ _ => some slot
  | .created _ | .destroyed _ => none

/-- Whether a handle of certain disciplines is constructed. -/
def creates (which : Discipline → Bool) : HookCall → Bool
  | .created discipline => which discipline
  | _ => false

/-- Whether a handle of certain disciplines is destroyed. -/
def destroys (which : Discipline → Bool) : HookCall → Bool
  | .destroyed discipline => which discipline
  | _ => false

end HookCall

/-- The same hooks, whose calls are taken down. -/
def SlotHooks.watched (hooks : SlotHooks σ) : SlotHooks (σ × List HookCall) where
  created discipline s := (hooks.created discipline s.1, s.2 ++ [.created discipline])
  destroyed discipline s := (hooks.destroyed discipline s.1, s.2 ++ [.destroyed discipline])
  read slot stored s :=
    let (reading, state) := hooks.read slot stored s.1
    (reading, state, s.2 ++ [.read slot stored])
  write slot given stored s :=
    let (written, state) := hooks.write slot given stored s.1
    (written, state, s.2 ++ [.write slot given stored])

/-! ## Desks -/

/-- The live handles, and the state of the hooks. -/
structure Desk (V σ : Type) where
  /-- The handles by their places.  Nothing is put to a place that a handle has left. -/
  handles : List (Option (Handle V))
  state : σ

/-- How a reference can be read. -/
inductive Look where
  | get
  | isNull
  | isAlive
  /-- The target itself, given what is behind the pointers. -/
  | asRef (behind : Pointer → Option Unit)

/-- What reading a reference makes of it. -/
def Look.run (hooks : Hooks σ) (h : RefHandle) (s : σ) : Look → RefHandle × σ
  | .get => (h.get hooks s).2
  | .isNull => (h.isNull hooks s).2
  | .isAlive => (h.isAlive hooks s).2
  | .asRef behind => (h.asRef hooks behind s).2

namespace Desk

/-- The hooks of the handle at a place. -/
def hooksAt (hooks : SlotHooks σ) (place : Nat) : Hooks (Desk V σ) where
  created discipline d := { d with state := hooks.created discipline d.state }
  destroyed discipline d := { d with state := hooks.destroyed discipline d.state }
  read stored d :=
    let (reading, state) := hooks.read place stored d.state
    (reading, { d with state })
  write given stored d :=
    let (written, state) := hooks.write place given stored d.state
    (written, { d with state })

/-- The handle at a place. -/
def handle? (d : Desk V σ) (place : Nat) : Option (Handle V) := d.handles[place]?.join

/-- Puts a handle to a place of its own. -/
def put (d : Desk V σ) (h : Handle V) : Desk V σ := { d with handles := d.handles ++ [some h] }

/-- Takes the handle away from a place. -/
def take (d : Desk V σ) (place : Nat) : Desk V σ :=
  { d with handles := d.handles.set place none }

/-- Changes what the handle at a place stores. -/
def update (d : Desk V σ) (place : Nat) (h : Handle V) : Desk V σ :=
  -- a handle that is gone stays away
  let change (old : Handle V) := if old.discipline = h.discipline then h else old
  { d with handles := d.handles.modify place (·.map change) }

variable (hooks : SlotHooks σ)

def fromRepr (content : Handle V) (d : Desk V σ) : Desk V σ :=
  let (h, d) := content.fromRepr (hooksAt hooks d.handles.length) d
  d.put h

def new (strength : Strength) (target : Pointer) (d : Desk V σ) : Desk V σ :=
  let (h, d) := RefHandle.new (hooksAt hooks d.handles.length) strength target d
  d.put (.reference h)

def null (strength : Strength) (d : Desk V σ) : Desk V σ :=
  let (h, d) := RefHandle.null (hooksAt hooks d.handles.length) strength d
  d.put (.reference h)

def default (makeValue : Desk V σ → V × Desk V σ) (discipline : Discipline) (d : Desk V σ) :
    Desk V σ :=
  let (h, d) := Handle.default (hooksAt hooks d.handles.length) makeValue discipline d
  d.put h

def clone (copyValue : V → Desk V σ → V × Desk V σ) (source : Nat) (d : Desk V σ) : Desk V σ :=
  match d.handle? source with
  | some h =>
    let (copy, d) := h.clone (hooksAt hooks d.handles.length) copyValue d
    d.put copy
  | none => d

def look (kind : Look) (place : Nat) (d : Desk V σ) : Desk V σ :=
  match d.handle? place with
  | some (.reference h) =>
    let (h, d) := kind.run (hooksAt hooks place) h d
    d.update place (.reference h)
  | _ => d

def set (target : Pointer) (place : Nat) (d : Desk V σ) : Desk V σ :=
  match d.handle? place with
  | some (.reference h) =>
    let (h, d) := h.set (hooksAt hooks place) target d
    d.update place (.reference h)
  | _ => d

def setValue (dropValue : V → Desk V σ → Desk V σ) (value : V) (place : Nat) (d : Desk V σ) :
    Desk V σ :=
  match d.handle? place with
  | some (.value h) =>
    let (h, d) := h.set dropValue value d
    d.update place (.value h)
  | _ => d

/-- Lends a value to code that looks at it, and may leave another one there. -/
def access (value : V) (place : Nat) (d : Desk V σ) : Desk V σ :=
  match d.handle? place with
  | some (.value _) => d.update place (.value ⟨value⟩)
  | _ => d

def assign (copyOnto : (value other : V) → Desk V σ → V × Desk V σ) (place source : Nat)
    (d : Desk V σ) : Desk V σ :=
  match d.handle? place, d.handle? source with
  | some target, some other =>
    match target.assign (hooksAt hooks place) copyOnto other d with
    | some (h, d) => d.update place h
    | none => d
  | _, _ => d

def move (place : Nat) (d : Desk V σ) : Desk V σ :=
  match d.handle? place with
  | some h => (d.take place).put h
  | none => d

def intoInner (place : Nat) (d : Desk V σ) : Desk V σ :=
  match d.handle? place with
  | some (.value h) => (h.intoInner (hooksAt hooks place) (d.take place)).2
  | _ => d

def drop (dropValue : V → Desk V σ → Desk V σ) (place : Nat) (d : Desk V σ) : Desk V σ :=
  match d.handle? place with
  | some h => h.drop (hooksAt hooks place) dropValue (d.take place)
  | none => d

end Desk

/-! ## Operations -/

/-- An operation on handles.  The code is that of the value, if it is a handle of a value. -/
inductive HandleOp (V : Type) where
  | fromRepr (content : Handle V)
  | new (strength : Strength) (target : Pointer)
  | null (strength : Strength)
  | default (discipline : Discipline) (code : List (HandleOp V)) (made : V)
  | clone (source : Nat) (code : List (HandleOp V)) (copy : V)
  /-- Reads a reference. -/
  | look (kind : Look) (place : Nat)
  /-- Points a reference to a target. -/
  | set (target : Pointer) (place : Nat)
  | setValue (value : V) (code : List (HandleOp V)) (place : Nat)
  /-- Looks at a value in place, and leaves one there. -/
  | access (value : V) (place : Nat)
  | assign (place source : Nat) (code : List (HandleOp V)) (copy : V)
  | move (place : Nat)
  | intoInner (place : Nat)
  | drop (place : Nat) (code : List (HandleOp V))

variable (hooks : SlotHooks σ)

mutual

/-- Carries out an operation.  One on a handle that is not there does nothing. -/
def HandleOp.run : HandleOp V → Desk V σ → Desk V σ
  | .fromRepr content => Desk.fromRepr hooks content
  | .new strength target => Desk.new hooks strength target
  | .null strength => Desk.null hooks strength
  | .default discipline code made =>
    Desk.default hooks (fun d => (made, HandleOp.runAll code d)) discipline
  | .clone source code copy =>
    Desk.clone hooks (fun _ d => (copy, HandleOp.runAll code d)) source
  | .look kind place => Desk.look hooks kind place
  | .set target place => Desk.set hooks target place
  | .setValue value code place => Desk.setValue (fun _ d => HandleOp.runAll code d) value place
  | .access value place => Desk.access value place
  | .assign place source code copy =>
    Desk.assign hooks (fun _ _ d => (copy, HandleOp.runAll code d)) place source
  | .move place => Desk.move place
  | .intoInner place => Desk.intoInner hooks place
  | .drop place code => Desk.drop hooks (fun _ d => HandleOp.runAll code d) place

/-- Carries out some operations. -/
def HandleOp.runAll : List (HandleOp V) → Desk V σ → Desk V σ
  | [], d => d
  | op :: rest, d => HandleOp.runAll rest (op.run d)

end

mutual

/-- The calls that an operation is to make. -/
def HandleOp.calls : HandleOp V → Desk V σ → List HookCall
  | .fromRepr content, _ => [.created content.discipline]
  | .new strength _, _ | .null strength, _ => [.created strength.discipline]
  | .default .value code _, d => HandleOp.callsOf code d ++ [.created .value]
  | .default .strong _ _, _ => [.created .strong]
  | .default .weak _ _, _ => [.created .weak]
  | .clone source code _, d =>
    match d.handle? source with
    | some (.value _) => HandleOp.callsOf code d ++ [.created .value]
    | some (.reference h) => [.created h.strength.discipline]
    | none => []
  | .look _ place, d =>
    match d.handle? place with
    | some (.reference h) => [.read place h.stored]
    | _ => []
  | .set target place, d =>
    match d.handle? place with
    | some (.reference h) => [.write place target h.stored]
    | _ => []
  | .setValue _ code place, d =>
    match d.handle? place with
    | some (.value _) => HandleOp.callsOf code d
    | _ => []
  | .access _ _, _ => []
  | .assign place source code _, d =>
    match d.handle? place, d.handle? source with
    | some (.value _), some (.value _) => HandleOp.callsOf code d
    | some (.reference h), some (.reference other) =>
      if h.strength = other.strength then [.write place other.stored h.stored] else []
    | _, _ => []
  | .move _, _ => []
  | .intoInner place, d =>
    match d.handle? place with
    | some (.value _) => [.destroyed .value]
    | _ => []
  | .drop place code, d =>
    match d.handle? place with
    | some (.value _) => .destroyed .value :: HandleOp.callsOf code (d.intoInner hooks place)
    | some (.reference h) => [.destroyed h.strength.discipline]
    | none => []

/-- The calls that some operations are to make. -/
def HandleOp.callsOf : List (HandleOp V) → Desk V σ → List HookCall
  | [], _ => []
  | op :: rest, d => op.calls d ++ HandleOp.callsOf rest (op.run hooks d)

end

/-! ## Deeds -/

namespace Desk

/-- A handle is constructed. -/
def construct (h : Handle V) (d : Desk V σ) : Desk V σ :=
  ((hooksAt hooks d.handles.length).created h.discipline d).put h

/-- The handle at a place is destroyed. -/
def destroy (place : Nat) (h : Handle V) (d : Desk V σ) : Desk V σ :=
  (hooksAt hooks place).destroyed h.discipline (d.take place)

end Desk

/-- What an operation comes to when it finds the handles that are there. -/
inductive Deed (V : Type) where
  | nothing
  /-- Code is run, and then a handle is constructed. -/
  | construct (code : List (HandleOp V)) (h : Handle V)
  | read (place : Nat) (h : RefHandle)
  | write (target : Pointer) (place : Nat) (h : RefHandle)
  /-- Code is run, and then another value is in place. -/
  | store (code : List (HandleOp V)) (value : V) (place : Nat)
  | move (place : Nat) (h : Handle V)
  /-- A handle is destroyed, and then code is run. -/
  | destroy (place : Nat) (h : Handle V) (code : List (HandleOp V))

namespace Deed

/-- The code that is run. -/
def code : Deed V → List (HandleOp V)
  | .construct code _ | .store code _ _ | .destroy _ _ code => code
  | .nothing | .read _ _ | .write _ _ _ | .move _ _ => []

/-- The handle that is dealt with is there. -/
def Finds (at? : Nat → Option (Handle V)) : Deed V → Prop
  | .read place h | .write _ place h => at? place = some (.reference h)
  | .move place h | .destroy place h _ => at? place = some h
  | .nothing | .construct _ _ | .store _ _ _ => True

def run : Deed V → Desk V σ → Desk V σ
  | .nothing, d => d
  | .construct code h, d => (HandleOp.runAll hooks code d).construct hooks h
  | .read place h, d =>
    let (reading, d) := (Desk.hooksAt hooks place).read h.stored d
    d.update place (.reference { h with stored := reading.left })
  | .write target place h, d =>
    let (stored, d) := (Desk.hooksAt hooks place).write target h.stored d
    d.update place (.reference { h with stored })
  | .store code value place, d => (HandleOp.runAll hooks code d).update place (.value ⟨value⟩)
  | .move place h, d => (d.take place).put h
  | .destroy place h code, d => HandleOp.runAll hooks code (d.destroy hooks place h)

def calls : Deed V → Desk V σ → List HookCall
  | .nothing, _ | .move _ _, _ => []
  | .construct code h, d => HandleOp.callsOf hooks code d ++ [.created h.discipline]
  | .read place h, _ => [.read place h.stored]
  | .write target place h, _ => [.write place target h.stored]
  | .store code _ _, d => HandleOp.callsOf hooks code d
  | .destroy place h code, d =>
    .destroyed h.discipline :: HandleOp.callsOf hooks code (d.destroy hooks place h)

end Deed

namespace HandleOp

/-- The code of the value. -/
def code : HandleOp V → List (HandleOp V)
  | .default _ code _ | .clone _ code _ | .setValue _ code _ | .assign _ _ code _ | .drop _ code =>
    code
  | .fromRepr _ | .new _ _ | .null _ | .look _ _ | .set _ _ | .access _ _ | .move _
  | .intoInner _ => []

def deed (at? : Nat → Option (Handle V)) : HandleOp V → Deed V
  | .fromRepr content => .construct [] content
  | .new strength target => .construct [] (.reference ⟨strength, target⟩)
  | .null strength => .construct [] (.reference ⟨strength, none⟩)
  | .default .value code made => .construct code (.value ⟨made⟩)
  | .default .strong _ _ => .construct [] (.reference ⟨.strong, none⟩)
  | .default .weak _ _ => .construct [] (.reference ⟨.weak, none⟩)
  | .clone source code copy =>
    match at? source with
    | some (.value _) => .construct code (.value ⟨copy⟩)
    | some (.reference h) => .construct [] (.reference h)
    | none => .nothing
  | .look _ place =>
    match at? place with
    | some (.reference h) => .read place h
    | _ => .nothing
  | .set target place =>
    match at? place with
    | some (.reference h) => .write target place h
    | _ => .nothing
  | .setValue value code place =>
    match at? place with
    | some (.value _) => .store code value place
    | _ => .nothing
  | .access value place =>
    match at? place with
    | some (.value _) => .store [] value place
    | _ => .nothing
  | .assign place source code copy =>
    match at? place, at? source with
    | some (.value _), some (.value _) => .store code copy place
    | some (.reference h), some (.reference other) =>
      if h.strength = other.strength then .write other.stored place h else .nothing
    | _, _ => .nothing
  | .move place =>
    match at? place with
    | some h => .move place h
    | none => .nothing
  | .intoInner place =>
    match at? place with
    | some (.value h) => .destroy place (.value h) []
    | _ => .nothing
  | .drop place code =>
    match at? place with
    | some (.value h) => .destroy place (.value h) code
    | some (.reference h) => .destroy place (.reference h) []
    | none => .nothing

/-- What operations come to, said once and for all: no operation does or calls anything
else. -/
theorem run_calls_deed (op : HandleOp V) (d : Desk V σ) :
    op.run hooks d = (op.deed d.handle?).run hooks d ∧
      op.calls hooks d = (op.deed d.handle?).calls hooks d ∧
      (op.deed d.handle?).Finds d.handle? := by
  cases op with
  | fromRepr content => exact ⟨rfl, rfl, trivial⟩
  | new strength target | null strength => exact ⟨rfl, rfl, trivial⟩
  | default discipline code made => cases discipline <;> exact ⟨rfl, rfl, trivial⟩
  | clone source code copy =>
    simp only [run, calls, deed, Desk.clone]
    rcases d.handle? source with _ | ⟨value | h⟩ <;> exact ⟨rfl, rfl, trivial⟩
  | look kind place =>
    rcases hplace : d.handle? place with _ | ⟨value | h⟩ <;>
      simp only [run, calls, deed, Desk.look, hplace]
    · exact ⟨rfl, rfl, trivial⟩
    · exact ⟨rfl, rfl, trivial⟩
    · cases kind <;> exact ⟨rfl, rfl, hplace⟩
  | set target place =>
    rcases hplace : d.handle? place with _ | ⟨value | h⟩ <;>
      simp only [run, calls, deed, Desk.set, hplace]
    · exact ⟨rfl, rfl, trivial⟩
    · exact ⟨rfl, rfl, trivial⟩
    · exact ⟨rfl, rfl, hplace⟩
  | setValue value code place =>
    simp only [run, calls, deed, Desk.setValue]
    rcases d.handle? place with _ | ⟨old | h⟩ <;> exact ⟨rfl, rfl, trivial⟩
  | access value place =>
    simp only [run, calls, deed, Desk.access]
    rcases d.handle? place with _ | ⟨old | h⟩ <;> exact ⟨rfl, rfl, trivial⟩
  | assign place source code copy =>
    rcases hplace : d.handle? place with _ | ⟨value | h⟩ <;>
      rcases hsource : d.handle? source with _ | ⟨other | other⟩ <;>
      simp only [run, calls, deed, Desk.assign, hplace, hsource]
    case some.reference.some.reference =>
      by_cases hsame : h.strength = other.strength
      · simp only [Handle.assign, if_pos hsame]
        exact ⟨rfl, rfl, hplace⟩
      · simp only [Handle.assign, if_neg hsame]
        exact ⟨rfl, rfl, trivial⟩
    all_goals exact ⟨rfl, rfl, trivial⟩
  | move place =>
    rcases hplace : d.handle? place with _ | h <;>
      simp only [run, calls, deed, Desk.move, hplace]
    · exact ⟨rfl, rfl, trivial⟩
    · exact ⟨rfl, rfl, hplace⟩
  | intoInner place =>
    rcases hplace : d.handle? place with _ | ⟨value | h⟩ <;>
      simp only [run, calls, deed, Desk.intoInner, hplace]
    · exact ⟨rfl, rfl, trivial⟩
    · exact ⟨rfl, rfl, hplace⟩
    · exact ⟨rfl, rfl, trivial⟩
  | drop place code =>
    rcases hplace : d.handle? place with _ | ⟨value | h⟩ <;>
      simp only [run, calls, deed, Desk.drop, Desk.intoInner, hplace]
    · exact ⟨rfl, rfl, trivial⟩
    · exact ⟨rfl, rfl, hplace⟩
    · exact ⟨rfl, rfl, hplace⟩

theorem calls_deed (op : HandleOp V) (d : Desk V σ) :
    op.calls hooks d = (op.deed d.handle?).calls hooks d :=
  (op.run_calls_deed hooks d).2.1

/-- The code that is run is the value's own, if any. -/
theorem deed_code (op : HandleOp V) (at? : Nat → Option (Handle V)) :
    (op.deed at?).code = op.code ∨ (op.deed at?).code = [] := by
  cases op with
  | default discipline code made => cases discipline <;> simp [deed, Deed.code, HandleOp.code]
  | clone source code copy =>
    rcases hsource : at? source with _ | ⟨value | h⟩ <;>
      simp [deed, Deed.code, HandleOp.code, hsource]
  | setValue value code place =>
    rcases hplace : at? place with _ | ⟨old | h⟩ <;>
      simp [deed, Deed.code, HandleOp.code, hplace]
  | assign place source code copy =>
    simp only [deed, HandleOp.code]
    split
    · exact Or.inl rfl
    · split <;> exact Or.inr rfl
    · exact Or.inr rfl
  | drop place code =>
    rcases hplace : at? place with _ | ⟨value | h⟩ <;>
      simp [deed, Deed.code, HandleOp.code, hplace]
  | fromRepr content | new strength target | null strength => exact Or.inr rfl
  | look kind place | set target place | access value place | move place | intoInner place =>
    right
    simp only [deed]
    split <;> rfl

theorem sizeOf_deed_code_lt (op : HandleOp V) (at? : Nat → Option (Handle V))
    (rest : List (HandleOp V)) : sizeOf (op.deed at?).code < sizeOf (op :: rest) := by
  rcases op.deed_code at? with hcode | hcode <;> rw [hcode]
  · cases op <;> simp [HandleOp.code] <;> omega
  · simp only [List.nil.sizeOf_spec, List.cons.sizeOf_spec]
    cases op <;> simp <;> omega

/-- Induction over operations and the code that they run. -/
theorem induction {P : List (HandleOp V) → Prop} (nil : P [])
    (cons : ∀ op rest, (∀ at?, P (op.deed at?).code) → P rest → P (op :: rest)) : ∀ ops, P ops
  | [] => nil
  | op :: rest =>
    cons op rest (fun at? => induction nil cons (op.deed at?).code) (induction nil cons rest)
termination_by ops => sizeOf ops
decreasing_by
  · exact sizeOf_deed_code_lt op at? rest
  · decreasing_tactic

end HandleOp

end TracedHeap
