import TracedHeap.Registry.Client

/-! # Sessions

The state in which clients run: the store of descriptors, the cells of the types,
and what was logged and reported so far.

* `Cell`: the state of one type.
* `Session`: the state of all.
* `Session.entry`: what a call finds when it arrives at a cell.
* `Session.unclaimed`: the number of cells that nobody has claimed; it never
  grows, and `unclaimed_setPhase_lt` says that claiming a cell lowers it.
* `Bounded`: a session with a bound on that number.
-/

namespace TracedHeap

structure Cell where
  /-- The descriptor, once its address is published. -/
  address : Option DescriptorRef
  phase : Phase
  deriving DecidableEq, Repr

def Cell.fresh : Cell := ⟨none, .unclaimed⟩

structure Session (n : Nat) (κ : Type) where
  store : Store
  cells : Vector Cell n
  /-- What is run when the next registration is announced in the log. -/
  listener : Option (Client n κ Unit)
  events : List Event
  log : List LogLine

/-- What a call finds when it arrives at a cell. -/
inductive Entry where
  | found (descriptor : DescriptorRef)
  | refused (fault : Fault)
  | free
  deriving DecidableEq, Repr

theorem Phase.registering_ne_unclaimed : Phase.registering ≠ .unclaimed := by decide

/-- What a call finds in a given state of the cell.  The address decides first:
once it is published, even a registration that is still running hands it out. -/
def Cell.entry (c : Cell) : Entry :=
  match c.address with
  | some d => if c.phase = .poisoned then .refused (.failed .poisoned) else .found d
  | none =>
    match c.phase with
    | .unclaimed => .free
    | .poisoned => .refused (.failed .poisonedUnpublished)
    | .registering | .registered => .refused (.failed .registeringElsewhere)

theorem Cell.phase_of_entry_free {c : Cell} (h : c.entry = .free) : c.phase = .unclaimed := by
  unfold entry at h
  split at h
  · split at h <;> simp at h
  · split at h <;> simp_all

namespace Session

variable {n : Nat} {κ : Type}

def initial : Session n κ := ⟨.initial, .replicate n .fresh, none, [], []⟩

def entry (s : Session n κ) (cell : Fin n) : Entry := s.cells[cell].entry

def write (s : Session n κ) (line : LogLine) : Session n κ :=
  { s with log := s.log ++ [line] }

def report (s : Session n κ) (event : Event) : Session n κ :=
  { s with events := s.events ++ [event] }

def logFault (s : Session n κ) (fault : Fault) : Session n κ :=
  { s with log := s.log ++ fault.lines }

def logOutcome {α : Type} (s : Session n κ) : Except Fault α → Session n κ
  | .ok _ => s
  | .error fault => s.logFault fault

def construct (s : Session n κ) (placement : Placement) (blueprint : Blueprint) :
    Except Fault (Option DescriptorRef) × Session n κ :=
  let made := s.store.construct placement blueprint
  let s := { s with
    store := made.store
    events := s.events ++ (made.allocated.map Event.allocate).toList }
  (made.result, s.logOutcome made.result)

/-! ## Cells -/

def setPhase (s : Session n κ) (cell : Fin n) (phase : Phase) : Session n κ :=
  { s with cells := s.cells.set cell { s.cells[cell] with phase } }

def publish (s : Session n κ) (cell : Fin n) (d : DescriptorRef) : Session n κ :=
  { s with cells := s.cells.set cell { s.cells[cell] with address := some d } }

def unclaimed (s : Session n κ) : Nat :=
  s.cells.countP (·.phase = .unclaimed)

theorem unclaimed_setPhase_le (s : Session n κ) (cell : Fin n) {phase : Phase}
    (h : phase ≠ .unclaimed) : (s.setPhase cell phase).unclaimed ≤ s.unclaimed := by
  simp only [unclaimed, setPhase, Vector.countP_set, h, decide_false, Bool.false_eq_true, if_false,
    Nat.add_zero]
  exact Nat.sub_le _ _

theorem unclaimed_setPhase_lt (s : Session n κ) (cell : Fin n) {phase : Phase}
    (h : phase ≠ .unclaimed) (free : s.entry cell = .free) :
    (s.setPhase cell phase).unclaimed < s.unclaimed := by
  have claimed : s.cells[(cell : Nat)].phase = .unclaimed := Cell.phase_of_entry_free free
  have pos : 0 < s.cells.countP (·.phase = .unclaimed) :=
    Vector.countP_pos_iff.2 ⟨s.cells[cell], Vector.getElem_mem _, decide_eq_true claimed⟩
  simp only [unclaimed, setPhase, Vector.countP_set, Fin.getElem_fin, claimed, h, decide_true,
    decide_false, if_true, if_false, Bool.false_eq_true, Nat.add_zero]
  exact Nat.sub_lt pos Nat.one_pos

theorem unclaimed_publish (s : Session n κ) (cell : Fin n) (d : DescriptorRef) :
    (s.publish cell d).unclaimed = s.unclaimed := by
  simp only [unclaimed, publish, Vector.countP_set, Fin.getElem_fin]
  split
  case isTrue free =>
    have pos : 0 < s.cells.countP (·.phase = .unclaimed) :=
      Vector.countP_pos_iff.2 ⟨s.cells[(cell : Nat)], Vector.getElem_mem _, free⟩
    exact Nat.sub_add_cancel pos
  case isFalse claimed =>
    rfl

end Session

/-- A session in which at most `depth` cells are unclaimed.  Registrations can
nest no deeper than that, for each of them claims a cell of its own. -/
structure Bounded (n : Nat) (κ : Type) (depth : Nat) where
  session : Session n κ
  bound : session.unclaimed ≤ depth

namespace Bounded

variable {n : Nat} {κ : Type} {depth : Nat}

/-- A change of the session that claims no cell and frees none. -/
def update (b : Bounded n κ depth) (f : Session n κ → Session n κ)
    (h : ∀ s, (f s).unclaimed ≤ s.unclaimed) : Bounded n κ depth :=
  ⟨f b.session, Nat.le_trans (h b.session) b.bound⟩

def write (b : Bounded n κ depth) (line : LogLine) : Bounded n κ depth :=
  b.update (·.write line) fun _ => Nat.le_refl _

def report (b : Bounded n κ depth) (event : Event) : Bounded n κ depth :=
  b.update (·.report event) fun _ => Nat.le_refl _

def logFault (b : Bounded n κ depth) (fault : Fault) : Bounded n κ depth :=
  b.update (·.logFault fault) fun _ => Nat.le_refl _

def logOutcome {α : Type} (b : Bounded n κ depth) (outcome : Except Fault α) :
    Bounded n κ depth :=
  b.update (·.logOutcome outcome) fun s => by
    cases outcome <;> exact Nat.le_refl _

def construct (b : Bounded n κ depth) (placement : Placement) (blueprint : Blueprint) :
    Except Fault (Option DescriptorRef) × Bounded n κ depth :=
  ((b.session.construct placement blueprint).1,
    b.update (fun s => (s.construct placement blueprint).2) fun s => by
      simp only [Session.construct]
      cases (s.store.construct placement blueprint).result <;> exact Nat.le_refl _)

def overwrite (b : Bounded n κ depth) (d : DescriptorRef) (memory : Descriptor) :
    Bounded n κ depth :=
  b.update (fun s => { s with store := s.store.set d memory }) fun _ => Nat.le_refl _

def allocate (b : Bounded n κ depth) (memory : Descriptor) : Bounded n κ depth :=
  b.update (fun s => { s with store := s.store.allocate memory }) fun _ => Nat.le_refl _

def publish (b : Bounded n κ depth) (cell : Fin n) (d : DescriptorRef) :
    Bounded n κ depth :=
  b.update (·.publish cell d) fun s => Nat.le_of_eq (s.unclaimed_publish cell d)

def finish (b : Bounded n κ depth) (cell : Fin n) : Bounded n κ depth :=
  b.update (·.setPhase cell .registered) fun s => s.unclaimed_setPhase_le cell (by decide)

def poison (b : Bounded n κ depth) (cell : Fin n) : Bounded n κ depth :=
  b.update (·.setPhase cell .poisoned) fun s => s.unclaimed_setPhase_le cell (by decide)

/-- Starts the registration of a cell.  From here on one nesting less is left. -/
def claim (b : Bounded n κ (depth + 1)) (cell : Fin n) (free : b.session.entry cell = .free) :
    Bounded n κ depth :=
  ⟨b.session.setPhase cell .registering, by
    have fewer := b.session.unclaimed_setPhase_lt cell Phase.registering_ne_unclaimed free
    exact Nat.le_of_lt_succ (Nat.lt_of_lt_of_le fewer b.bound)⟩

def weaken (b : Bounded n κ depth) : Bounded n κ (depth + 1) :=
  ⟨b.session, Nat.le_succ_of_le b.bound⟩

/-- With no nesting left, every cell is claimed. -/
theorem entry_ne_free (b : Bounded n κ 0) (cell : Fin n) : b.session.entry cell ≠ .free := by
  intro free
  have fewer := b.session.unclaimed_setPhase_lt cell Phase.registering_ne_unclaimed free
  exact absurd (Nat.lt_of_lt_of_le fewer b.bound) (Nat.not_lt_zero _)

end Bounded

end TracedHeap
