import Mathlib.Logic.Function.Basic
import TracedHeap.Proofs.Registry.Unwinding

/-! # Registrations in the log

A registration writes a line when it starts and a line when it ends.  The second one is
written in two places, where the registration ends well and where a fault leaves it, and
registrations nest to any depth in between.  Read as brackets, the lines tell which
registrations are running, and the lines about one cell tell its phase.

1. **Brackets**: lines that are well bracketed, and lines of which some are still open
   (`Bracketed`, `Unclosed`).
2. **The chronicle** of a session: its lines about registrations.
3. **Turns**: all that one step can do to the phases and to the registrations that are
   running, with the lines that it writes about them (`Turn`).
4. **Invariant**: the chronicle at every point of a run (`Point.Chronicled`).

The main statement is `registrations_logged_in_brackets`.
-/

namespace TracedHeap

variable {n depth : Nat} {κ α β : Type} {calls : κ → Call n κ}

/-! ## Brackets -/

namespace LogLine

/-- The cell of the registration that a line is about. -/
def cell? : LogLine → Option Nat
  | .registering cell _ _ _ | .registered cell | .registrationFailed cell => some cell
  | _ => none

/-- The line that opens a registration. -/
def opening (cell : Nat) (r : Request) : LogLine :=
  .registering cell r.size r.hasArray r.slotCount

/-- A line closes the registration of a cell: it tells that it ended, well or badly. -/
def Closes (cell : Nat) (line : LogLine) : Prop :=
  line = .registered cell ∨ line = .registrationFailed cell

end LogLine

/-- Each opening line is closed by one line about the same cell, and what was opened last is
closed first. -/
inductive Bracketed : List LogLine → Prop where
  | nil : Bracketed []
  | cons {inner rest : List LogLine} {closing : LogLine} (cell : Nat) (request : Request)
      (hinner : Bracketed inner) (hclosing : closing.Closes cell) (hrest : Bracketed rest) :
      Bracketed (.opening cell request :: (inner ++ closing :: rest))

/-- Some opening lines are not closed, namely those of the cells in the list, the latest
first.  All other lines are well bracketed between them. -/
inductive Unclosed : List LogLine → List Nat → Prop where
  | none {lines : List LogLine} (h : Bracketed lines) : Unclosed lines []
  | opened {lines inner : List LogLine} {cells : List Nat} (cell : Nat) (request : Request)
      (h : Unclosed lines cells) (hinner : Bracketed inner) :
      Unclosed (lines ++ .opening cell request :: inner) (cell :: cells)

section Brackets

variable {lines more : List LogLine} {line : LogLine} {cell : Nat} {cells : List Nat}

theorem Bracketed.append (h : Bracketed lines) (hmore : Bracketed more) :
    Bracketed (lines ++ more) := by
  induction h with
  | nil => exact hmore
  | @cons inner rest closing cell request hinner hclosing _ _ ih =>
    have hlines : LogLine.opening cell request :: (inner ++ closing :: rest) ++ more =
        .opening cell request :: (inner ++ closing :: (rest ++ more)) := by simp
    rw [hlines]
    exact .cons cell request hinner hclosing ih

theorem Unclosed.append (h : Unclosed lines cells) (hmore : Bracketed more) :
    Unclosed (lines ++ more) cells := by
  cases h with
  | none h => exact .none (h.append hmore)
  | @opened lines inner cells cell request h hinner =>
    rw [List.append_assoc, List.cons_append]
    exact .opened cell request h (hinner.append hmore)

theorem Unclosed.opening (h : Unclosed lines cells) (cell : Nat) (request : Request) :
    Unclosed (lines ++ [.opening cell request]) (cell :: cells) :=
  .opened cell request h .nil

/-- The latest opening is closed. -/
theorem Unclosed.closing (h : Unclosed lines (cell :: cells)) (hline : line.Closes cell) :
    Unclosed (lines ++ [line]) cells := by
  cases h with
  | @opened lines inner _ _ request h hinner =>
    rw [List.append_assoc, List.cons_append]
    exact h.append (.cons cell request hinner hline .nil)

theorem Unclosed.bracketed (h : Unclosed lines []) : Bracketed lines := by
  cases h with
  | none h => exact h

end Brackets

/-! ## The chronicle -/

/-- The lines of the log that are about registrations. -/
def Session.chronicle (s : Session n κ) : List LogLine := s.log.filter (·.cell?.isSome)

section Chronicle

variable (s : Session n κ)

theorem chronicle_write_of_none {line : LogLine} (h : line.cell? = none) :
    (s.write line).chronicle = s.chronicle := by
  simp [Session.chronicle, Session.write, h]

theorem chronicle_write_of_some {line : LogLine} {cell : Nat} (h : line.cell? = some cell) :
    (s.write line).chronicle = s.chronicle ++ [line] := by
  simp [Session.chronicle, Session.write, h]

/-- A fault leaves no line about a registration where it arises. -/
@[simp] theorem chronicle_logFault (fault : Fault) :
    (s.logFault fault).chronicle = s.chronicle := by
  cases fault <;> simp [Session.chronicle, Session.logFault, Fault.lines, LogLine.cell?]

@[simp] theorem chronicle_logOutcome (outcome : Except Fault α) :
    (s.logOutcome outcome).chronicle = s.chronicle := by
  cases outcome with
  | ok a => rfl
  | error fault => exact chronicle_logFault s fault

@[simp] theorem chronicle_construct (placement : Placement) (blueprint : Blueprint) :
    (s.construct placement blueprint).2.chronicle = s.chronicle := by
  simp only [Session.construct, chronicle_logOutcome]
  rfl

end Chronicle

/-- The lines about a cell, whose registration has come as far as a phase tells. -/
def Phase.lines (cell : Nat) (request : Request) : Phase → List LogLine
  | .unclaimed => []
  | .registering => [.opening cell request]
  | .registered => [.opening cell request, .registered cell]
  | .poisoned => [.opening cell request, .registrationFailed cell]

/-! ## Turns -/

/-- The phases of all cells. -/
def Session.phases (s : Session n κ) (cell : Fin n) : Phase := (s.cells.get cell).phase

/-- What one step can do to the phases of the cells and to those whose registrations are
running, the latest first.  The list in the middle is what it writes about registrations. -/
inductive Turn : (Fin n → Phase) → List (Fin n) → List LogLine →
    (Fin n → Phase) → List (Fin n) → Prop where
  | nothing (phases : Fin n → Phase) (active : List (Fin n)) : Turn phases active [] phases active
  | opens {phases : Fin n → Phase} {active : List (Fin n)} (cell : Fin n) (request : Request)
      (hfree : phases cell = .unclaimed) :
      Turn phases active [.opening cell request]
        (Function.update phases cell .registering) (cell :: active)
  | ends {phases : Fin n → Phase} {active : List (Fin n)} (cell : Fin n) :
      Turn phases (cell :: active) [.registered cell]
        (Function.update phases cell .registered) active
  | fails {phases : Fin n → Phase} {active : List (Fin n)} (cell : Fin n) :
      Turn phases (cell :: active) [.registrationFailed cell]
        (Function.update phases cell .poisoned) active

theorem phases_setPhase (s : Session n κ) (cell : Fin n) (phase : Phase) :
    (s.setPhase cell phase).phases = Function.update s.phases cell phase := by
  funext other
  show ((s.ledger.setPhase cell phase).cell other).phase = _
  by_cases hother : other = cell
  · rw [hother, Ledger.cell_setPhase_self, Function.update_self]
  · rw [Ledger.cell_setPhase_ne _ hother, Function.update_of_ne hother]
    rfl

theorem phases_publish (s : Session n κ) (cell : Fin n) (d : DescriptorRef) :
    (s.publish cell d).phases = s.phases := by
  funext other
  show ((s.ledger.publish cell d).cell other).phase = (s.ledger.cell other).phase
  by_cases hother : other = cell
  · rw [hother, Ledger.cell_publish_self]
  · rw [Ledger.cell_publish_ne _ hother]

@[simp] theorem phases_logOutcome (s : Session n κ) (outcome : Except Fault α) :
    (s.logOutcome outcome).phases = s.phases := by
  cases outcome <;> rfl

@[simp] theorem phases_construct (s : Session n κ) (placement : Placement) (blueprint : Blueprint) :
    (s.construct placement blueprint).2.phases = s.phases := by
  simp only [Session.construct, phases_logOutcome]
  rfl

namespace Point

/-- The line that code outside of the registry writes itself by the step that follows. -/
def voiced : Point n κ → List LogLine
  | .running (.log line _) _ _ => [line]
  | _ => []

/-- From a session with some registrations running, a point is come to by a turn. -/
def Turned (s : Session n κ) (active : List (Fin n)) (q : Point n κ) : Prop :=
  ∃ lines, q.session.chronicle = s.chronicle ++ lines ∧
    Turn s.phases active lines q.session.phases q.active

section Steps

variable {call : Call n κ} {resume : Except Fault DescriptorRef → Client n κ β}
  {callers : Callers n κ β} {s : Session n κ}

/-- Nothing that matters to the chronicle has changed. -/
theorem Turned.of_same {active : List (Fin n)} {q : Point n κ}
    (hlines : q.session.chronicle = s.chronicle) (hphases : q.session.phases = s.phases)
    (hactive : q.active = active) : Turned s active q := by
  refine ⟨[], by rw [hlines, List.append_nil], ?_⟩
  rw [hphases, hactive]
  exact .nothing _ _

theorem announced_turned (hfree : s.phases call.cell = .unclaimed) :
    Turned s (callers.registrations.map (·.call.cell))
      (announced call resume callers (s.setPhase call.cell .registering)) := by
  have hlines : ((s.setPhase call.cell .registering).write (announcement call)).chronicle =
      s.chronicle ++ [.opening call.cell call.request] :=
    chronicle_write_of_some _ rfl
  have hturn : Turn s.phases (callers.registrations.map (·.call.cell))
      [.opening call.cell call.request] (s.setPhase call.cell .registering).phases
      (call.cell :: callers.registrations.map (·.call.cell)) := by
    rw [phases_setPhase]
    exact .opens call.cell call.request hfree
  unfold announced
  cases (s.setPhase call.cell .registering).listener with
  | none => exact ⟨_, hlines, hturn⟩
  | some listener => exact ⟨_, hlines, hturn⟩

theorem arrive_turned :
    Turned s (callers.registrations.map (·.call.cell)) (arrive call resume callers s) := by
  cases hentry : s.entry call.cell with
  | found d =>
    rw [arrive_of_found hentry]
    exact .of_same rfl rfl rfl
  | refused fault =>
    rw [arrive_of_refused hentry]
    exact .of_same (chronicle_logFault s fault) rfl rfl
  | free =>
    rw [arrive_of_free hentry]
    exact announced_turned (Cell.phase_of_entry_free hentry)

theorem proceed_turned :
    Turned s (call.cell :: callers.registrations.map (·.call.cell))
      (proceed call resume callers s) := by
  unfold proceed
  cases Descriptor.layout? call.request.slotCount with
  | none => exact .of_same (chronicle_logFault s _) rfl rfl
  | some layout => exact .of_same rfl (phases_publish _ call.cell _) rfl

theorem returned_turned (d : DescriptorRef) (parts : Parts) :
    Turned s (call.cell :: callers.registrations.map (·.call.cell))
      (returned call d parts resume callers s) := by
  unfold returned
  split
  · rcases (s.store.get d).compose 0 (call.request.blueprint parts) with ⟨fault | _, memory⟩
    · exact .of_same (chronicle_logFault _ fault) rfl rfl
    · refine ⟨[.registered call.cell], chronicle_write_of_some _ rfl, ?_⟩
      show Turn _ _ _ (Session.setPhase _ call.cell .registered).phases _
      rw [phases_setPhase]
      exact .ends call.cell
  · exact .of_same (chronicle_logFault s _) rfl rfl

theorem giveUp_turned (s : Session n κ) (r : Registration n κ) (active : List (Fin n)) :
    (s.giveUp r).chronicle = s.chronicle ++ [.registrationFailed r.call.cell] ∧
      Turn s.phases (r.call.cell :: active) [.registrationFailed r.call.cell]
        (s.giveUp r).phases active := by
  have hphases : (s.giveUp r).phases = Function.update s.phases r.call.cell .poisoned := by
    rw [← phases_setPhase]
    unfold Session.giveUp
    cases r.address <;> rfl
  have hlines : (s.write (.registrationFailed r.call.cell)).chronicle =
      s.chronicle ++ [.registrationFailed r.call.cell] :=
    chronicle_write_of_some s rfl
  refine ⟨?_, ?_⟩
  · rw [← hlines]
    unfold Session.giveUp
    cases r.address <;> rfl
  · rw [hphases]
    exact .fails r.call.cell

end Steps

/-- A step does one of the turns, if the code in control writes no line about a registration
itself. -/
theorem next_turned {p q : Point n κ} (h : p.next calls = some q)
    (hvoiced : ∀ line ∈ p.voiced, line.cell? = none) : Turned p.session p.active q := by
  cases p with
  | failing fault callers s =>
    cases callers with
    | outermost => cases h
    | announcing call resume rest =>
      cases h
      exact ⟨_, giveUp_turned s ⟨call, none⟩ _⟩
    | building call d resume rest =>
      cases h
      exact ⟨_, giveUp_turned s ⟨call, some d⟩ _⟩
  | running client callers s =>
    cases client with
    | done a =>
      cases callers with
      | outermost => cases h
      | announcing call resume rest =>
        cases h
        exact proceed_turned
      | building call d resume rest =>
        cases h
        exact returned_turned d a
    | fail fault =>
      cases callers with
      | outermost =>
        cases h
        exact .of_same rfl rfl rfl
      | announcing call resume rest =>
        cases h
        exact proceed_turned
      | building call d resume rest =>
        cases h
        exact .of_same rfl rfl rfl
    | log line next =>
      cases h
      have hline : line.cell? = none := hvoiced line (List.mem_singleton_self line)
      exact .of_same (chronicle_write_of_none s hline) rfl rfl
    | note event next | read d next | phase cell next =>
      cases h
      exact .of_same rfl rfl rfl
    | slot target discipline offset next =>
      cases h
      exact .of_same (chronicle_logOutcome s _) (phases_logOutcome s _) rfl
    | construct placement blueprint next =>
      cases h
      exact .of_same (chronicle_construct s _ _) (phases_construct s _ _) rfl
    | lookup key next =>
      cases h
      exact arrive_turned

theorem active_of_next_none {p : Point n κ} (h : p.next calls = none) : p.active = [] := by
  rw [active, (registrations_of_next_none h).1, List.map_nil]

/-- So does a move. -/
theorem Move.turned {p q : Point n κ} (h : Move calls p q)
    (hvoiced : ∀ line ∈ p.voiced, line.cell? = none) : Turned p.session p.active q := by
  cases h with
  | step hnext => exact next_turned hnext hvoiced
  | run client hend | listen listener hend => exact .of_same rfl rfl (active_of_next_none hend).symm
  | request call hend =>
    rw [active_of_next_none hend]
    have hturned : Turned p.session ((Callers.outermost : Callers n κ Unit).registrations.map
        (·.call.cell)) (Point.request call p.session) := arrive_turned
    exact hturned

end Point

/-! ## The invariant -/

/-- Lines about registrations tell the phases of all cells, and which registrations are
running. -/
structure Chronicles (lines : List LogLine) (phases : Fin n → Phase) (active : List (Fin n)) :
    Prop where
  unclosed : Unclosed lines (active.map (·.val))
  known : ∀ line ∈ lines, ∃ cell : Fin n, line.cell? = some cell.val
  /-- All lines about one cell. -/
  about : ∀ cell : Fin n, ∃ request,
    lines.filter (·.cell? = some cell.val) = (phases cell).lines cell request

section Invariant

variable {lines more : List LogLine} {phases phases' : Fin n → Phase}
  {active active' : List (Fin n)} {cell : Fin n} {line : LogLine} {phase : Phase}

/-- One line is written about a cell, whose phase changes accordingly. -/
theorem Chronicles.tell (h : Chronicles lines phases active) (hcell : line.cell? = some cell.val)
    (hphase : ∀ request, ∃ request',
      (phases cell).lines cell request ++ [line] = phase.lines cell request')
    (hunclosed : Unclosed (lines ++ [line]) (active'.map (·.val))) :
    Chronicles (lines ++ [line]) (Function.update phases cell phase) active' := by
  constructor
  case unclosed => exact hunclosed
  case known =>
    intro other hother
    rcases List.mem_append.1 hother with hold | hnew
    · exact h.known other hold
    · rw [List.mem_singleton.1 hnew]
      exact ⟨cell, hcell⟩
  case about =>
    intro other
    obtain ⟨request, habout⟩ := h.about other
    rw [List.filter_append, habout]
    by_cases hother : other = cell
    · obtain ⟨request', hrequest'⟩ := hphase request
      refine ⟨request', ?_⟩
      rw [hother, Function.update_self, ← hrequest']
      simp [hcell]
    · have hne : cell.val ≠ other.val := fun hval => hother (Fin.ext hval.symm)
      refine ⟨request, ?_⟩
      rw [Function.update_of_ne hother]
      simp [hcell, hne]

theorem Turn.chronicles (h : Turn phases active more phases' active')
    (hold : Chronicles lines phases active)
    (hrunning : ∀ cell ∈ active, phases cell = .registering) :
    Chronicles (lines ++ more) phases' active' := by
  have hunclosed := hold.unclosed
  cases h with
  | nothing =>
    rw [List.append_nil]
    exact hold
  | opens cell request hfree =>
    refine hold.tell rfl (fun _ => ⟨request, ?_⟩) (hunclosed.opening cell.val request)
    rw [hfree]
    rfl
  | ends cell =>
    refine hold.tell rfl (fun request => ⟨request, ?_⟩) (hunclosed.closing (Or.inl rfl))
    rw [hrunning cell (List.mem_cons_self ..)]
    rfl
  | fails cell =>
    refine hold.tell rfl (fun request => ⟨request, ?_⟩) (hunclosed.closing (Or.inr rfl))
    rw [hrunning cell (List.mem_cons_self ..)]
    rfl

theorem chronicles_initial :
    Chronicles (Session.initial : Session n κ).chronicle (Session.initial : Session n κ).phases
      [] := by
  constructor
  case unclosed => exact .none .nil
  case known => exact fun line hline => nomatch hline
  case about =>
    intro cell
    refine ⟨⟨0, false, 0⟩, ?_⟩
    have hphase : (Session.initial : Session n κ).phases cell = .unclaimed :=
      congrArg Cell.phase (Ledger.cell_initial (κ := κ) cell)
    rw [hphase]
    rfl

theorem Chronicles.registered_mem_iff (h : Chronicles lines phases active) :
    .registered cell.val ∈ lines ↔ phases cell = .registered := by
  obtain ⟨request, habout⟩ := h.about cell
  have hmem : LogLine.registered cell.val ∈ lines ↔
      .registered cell.val ∈ (phases cell).lines cell request := by
    rw [← habout, List.mem_filter]
    simp [LogLine.cell?]
  rw [hmem]
  cases phases cell <;> simp [Phase.lines, LogLine.opening]

theorem Chronicles.registrationFailed_mem_iff (h : Chronicles lines phases active) :
    .registrationFailed cell.val ∈ lines ↔ phases cell = .poisoned := by
  obtain ⟨request, habout⟩ := h.about cell
  have hmem : LogLine.registrationFailed cell.val ∈ lines ↔
      .registrationFailed cell.val ∈ (phases cell).lines cell request := by
    rw [← habout, List.mem_filter]
    simp [LogLine.cell?]
  rw [hmem]
  cases phases cell <;> simp [Phase.lines, LogLine.opening]

end Invariant

namespace Point

/-- A run whose code leaves the lines about registrations to the registry. -/
inductive Discreet (calls : κ → Call n κ) : Point n κ → Prop where
  | start : Discreet calls start
  | move {p q : Point n κ} (h : Discreet calls p) (hvoiced : ∀ line ∈ p.voiced, line.cell? = none)
      (hmove : Move calls p q) : Discreet calls q

theorem Discreet.run {p : Point n κ} (h : Discreet calls p) :
    ∃ built, Run calls Point.start built p := by
  induction h with
  | start => exact ⟨[], .refl⟩
  | move _ _ hmove ih =>
    obtain ⟨built, hrun⟩ := ih
    exact ⟨_, hrun.tail hmove⟩

theorem Discreet.chronicles {p : Point n κ} (h : Discreet calls p) :
    Chronicles p.session.chronicle p.session.phases p.active := by
  induction h with
  | start => exact chronicles_initial
  | @move p _ h hvoiced hmove ih =>
    obtain ⟨built, hrun⟩ := h.run
    have hagrees := agrees_of_tracks (hrun.tracks tracks_start)
    obtain ⟨lines, hlines, hturn⟩ := hmove.turned hvoiced
    rw [hlines]
    exact hturn.chronicles ih fun cell hcell => (hagrees.registering cell).2 hcell

/-- A lookup of a type that was claimed adds nothing to the chronicle, whatever it answers. -/
theorem chronicle_resolve_of_claimed (call : Call n κ) (b : Bounded n κ depth)
    (h : b.session.phases call.cell ≠ .unclaimed) :
    (resolve calls depth call b).2.session.chronicle = b.session.chronicle := by
  cases hentry : b.session.entry call.cell with
  | found d => rw [resolve_of_found hentry]
  | refused fault =>
    rw [resolve_of_refused hentry]
    exact chronicle_logFault b.session fault
  | free => exact absurd (Cell.phase_of_entry_free hentry) h

/-- Registrations are logged in brackets.  Take any run from the start whose code leaves the
lines about registrations to the registry: any number of outermost requests over any graph of
types, with faults at any depth, survived anywhere.  At each of its points:

* the lines about registrations are well bracketed but for the openings of the registrations
  that are running, one for each, the latest last; so they are well bracketed where the
  outermost code has ended;
* the lines about a cell are none, an opening, or an opening and one closing line after it, as
  the phase of the cell tells; so each cell opens once at most, and what is closed by
  `registered` are the cells that are registered;
* a lookup of a type that somebody has asked for before, whether it is found or refused, adds
  no such line. -/
theorem registrations_logged_in_brackets {p : Point n κ} (h : Discreet calls p) :
    Unclosed p.session.chronicle (p.active.map (·.val)) ∧
    (p.next calls = none → Bracketed p.session.chronicle) ∧
    (∀ line ∈ p.session.chronicle, ∃ cell : Fin n, line.cell? = some cell.val) ∧
    (∀ cell : Fin n,
      (∃ request, p.session.chronicle.filter (·.cell? = some cell.val) =
        (p.session.phases cell).lines cell request) ∧
      (.registered cell.val ∈ p.session.chronicle ↔ p.session.phases cell = .registered) ∧
      (.registrationFailed cell.val ∈ p.session.chronicle ↔ p.session.phases cell = .poisoned)) ∧
    ∀ (call : Call n κ) (depth : Nat) (b : Bounded n κ depth), b.session = p.session →
      p.session.phases call.cell ≠ .unclaimed →
        (resolve calls depth call b).2.session.chronicle = p.session.chronicle := by
  have hchronicles := h.chronicles
  refine ⟨hchronicles.unclosed, ?_, hchronicles.known, ?_, ?_⟩
  · intro hend
    have hunclosed := hchronicles.unclosed
    rw [active_of_next_none hend] at hunclosed
    exact hunclosed.bracketed
  · exact fun cell => ⟨hchronicles.about cell, hchronicles.registered_mem_iff,
      hchronicles.registrationFailed_mem_iff⟩
  · intro call depth b hb hclaimed
    rw [← hb] at hclaimed ⊢
    exact chronicle_resolve_of_claimed call b hclaimed

/-- A run goes on in any number of steps. -/
theorem Discreet.after {p : Point n κ} (h : Discreet calls p) (steps : Nat)
    (hvoiced : ∀ k < steps, ∀ line ∈ (after calls k p).voiced, line.cell? = none) :
    Discreet calls (after calls steps p) := by
  induction steps generalizing p with
  | zero => exact h
  | succ steps ih =>
    unfold Point.after
    cases hnext : p.next calls with
    | none => exact h
    | some q =>
      refine ih (h.move (hvoiced 0 (Nat.succ_pos _)) (.step hnext)) fun k hk line hline => ?_
      refine hvoiced (k + 1) (Nat.succ_lt_succ hk) line ?_
      rw [Point.after, hnext]
      exact hline

/-- The fault of the innermost of three registrations leaves two of them, and the outermost
survives it.  Each is opened and closed once, the innermost first, and while the innermost is
being built all three are open. -/
theorem fragile_types_bracketed :
    let p := after fragile 5 (request (fragile 0) .initial)
    let q := after fragile 11 (request (fragile 0) .initial)
    Unclosed p.session.chronicle [2, 1, 0] ∧ q.next fragile = none ∧
    q.session.chronicle = [.opening 0 ⟨8, false, 0⟩, .opening 1 ⟨8, false, 0⟩,
      .opening 2 ⟨8, true, 0⟩, .registrationFailed 2, .registrationFailed 1, .registered 0] ∧
    Bracketed q.session.chronicle ∧ q.session.phases 1 = .poisoned := by
  intro p q
  have hrequested : Discreet fragile (request (fragile 0) .initial) :=
    Discreet.start.move nofun (.request (fragile 0) rfl)
  have hp : Discreet fragile p := hrequested.after 5 (by decide +kernel)
  have hq : Discreet fragile q := hrequested.after 11 (by decide +kernel)
  have hend : q.next fragile = none := by rfl
  obtain ⟨hunclosed, -⟩ := registrations_logged_in_brackets hp
  obtain ⟨-, hbracketed, -, habout, -⟩ := registrations_logged_in_brackets hq
  exact ⟨hunclosed, hend, by rfl, hbracketed hend, (habout 1).2.2.1 (by decide +kernel)⟩

end Point

end TracedHeap
