import TracedHeap.Proofs.Registry.Closure

/-! # Registrations step by step

A lookup is carried out in one piece, from the claim of a cell to its end.  What holds in
between is a matter of points at which some code has control while registrations are
running around it.  Here a run is taken apart into steps, each from one point to the next.
How deep registrations nest is left open: nothing bounds the number of callers.

1. **Points**: who has control, and who waits (`Callers`, `Point`).
2. **Steps**: what follows on a point (`Point.next`).
3. **Agreement**: the steps of a lookup come to what `resolve` says, and those of a client to
   what `Session.run` says.
4. **Runs** of one outermost request after another, with the list of the build functions that
   were called (`Move`, `Run`).
-/

namespace TracedHeap

open Relation (ReflTransGen)

variable {n depth : Nat} {κ α β : Type}

/-! ## Points -/

/-- Everyone who waits while code with results of some type has control: the registrations
that are running, the latest first, each with the code that it interrupted. -/
inductive Callers (n : Nat) (κ : Type) : Type → Type 1 where
  /-- The code in control is the outermost. -/
  | outermost {β : Type} : Callers n κ β
  /-- A registration was announced, and a listener of the log has control. -/
  | announcing {β : Type} (call : Call n κ) (resume : Except Fault DescriptorRef → Client n κ β)
      (rest : Callers n κ β) : Callers n κ Unit
  /-- The address of a descriptor was published, and the build function has control. -/
  | building {β : Type} (call : Call n κ) (d : DescriptorRef)
      (resume : Except Fault DescriptorRef → Client n κ β) (rest : Callers n κ β) :
      Callers n κ Parts

/-- A registration that is running. -/
structure Registration (n : Nat) (κ : Type) where
  call : Call n κ
  /-- The address of the descriptor, once it is published. -/
  address : Option DescriptorRef

/-- The registrations that are running, the latest first. -/
def Callers.registrations : {β : Type} → Callers n κ β → List (Registration n κ)
  | _, .outermost => []
  | _, .announcing call _ rest => ⟨call, none⟩ :: rest.registrations
  | _, .building call d _ rest => ⟨call, some d⟩ :: rest.registrations

/-- A point of a run. -/
inductive Point (n : Nat) (κ : Type) : Type 1 where
  /-- Code outside of the registry has control. -/
  | running {β : Type} (client : Client n κ β) (callers : Callers n κ β) (session : Session n κ)
  /-- A fault is about to leave the latest registration, or the outermost code. -/
  | failing {β : Type} (fault : Fault) (callers : Callers n κ β) (session : Session n κ)

namespace Point

/-- The session at a point. -/
def session : Point n κ → Session n κ
  | .running _ _ s => s
  | .failing _ _ s => s

/-- The registrations that are running at a point, the latest first. -/
def registrations : Point n κ → List (Registration n κ)
  | .running _ callers _ => callers.registrations
  | .failing _ callers _ => callers.registrations

/-- The cells whose registrations are running, the latest first. -/
def active (p : Point n κ) : List (Fin n) := p.registrations.map (·.call.cell)

/-! ## Steps -/

/-- The line that announces a registration. -/
def announcement (call : Call n κ) : LogLine :=
  .registering call.cell call.request.size call.request.hasArray call.request.slotCount

/-- The registration of a cell that was claimed is announced.  If a listener of the log
waits, it is given control. -/
def announced (call : Call n κ) (resume : Except Fault DescriptorRef → Client n κ β)
    (callers : Callers n κ β) (s : Session n κ) : Point n κ :=
  match s.listener with
  | none => .running (.done ()) (.announcing call resume callers) (s.write (announcement call))
  | some listener =>
    .running listener (.announcing call resume callers)
      { s.write (announcement call) with listener := none }

/-- A call arrives at its cell, and claims it if it is free. -/
def arrive (call : Call n κ) (resume : Except Fault DescriptorRef → Client n κ β)
    (callers : Callers n κ β) (s : Session n κ) : Point n κ :=
  match s.entry call.cell with
  | .found d => .running (resume (.ok d)) callers s
  | .refused fault => .running (resume (.error fault)) callers (s.logFault fault)
  | .free => announced call resume callers (s.setPhase call.cell .registering)

/-- A registration that was announced goes on: memory is reserved and published, and the
build function is called, unless there is no memory of that size. -/
def proceed (call : Call n κ) (resume : Except Fault DescriptorRef → Client n κ β)
    (callers : Callers n κ β) (s : Session n κ) : Point n κ :=
  match Descriptor.layout? call.request.slotCount with
  | none =>
    let fault := Fault.noDescriptorLayout call.request.slotCount
    .failing fault (.announcing call resume callers) (s.logFault fault)
  | some _ =>
    let reserved := reserve call.cell call.request s.bounded
    .running call.build (.building call reserved.1 resume callers) reserved.2.session

/-- A build function has returned: the descriptor is written, and its registration ends. -/
def returned (call : Call n κ) (d : DescriptorRef) (parts : Parts)
    (resume : Except Fault DescriptorRef → Client n κ β) (callers : Callers n κ β)
    (s : Session n κ) : Point n κ :=
  if parts.source.reported = call.request.slotCount then
    let made := (s.store.get d).compose 0 (call.request.blueprint parts)
    let written := { s with store := s.store.set d made.2 }.logOutcome made.1
    match made.1 with
    | .ok () =>
      .running (resume (.ok d)) callers
        ((written.setPhase call.cell .registered).write (.registered call.cell))
    | .error fault => .failing fault (.building call d resume callers) written
  else
    let fault := Fault.failed (.slotCountMismatch call.request.slotCount parts.source.reported)
    .failing fault (.building call d resume callers) (s.logFault fault)

/-- What follows on a point, or `none` if the outermost code has ended. -/
def next (calls : κ → Call n κ) : Point n κ → Option (Point n κ)
  | .running (.done _) .outermost _ => none
  | .running (.done _) (.announcing call resume rest) s => some (proceed call resume rest s)
  | .running (.done parts) (.building call d resume rest) s =>
    some (returned call d parts resume rest s)
  -- what becomes of a listener does not matter to the registration
  | .running (.fail _) (.announcing call resume rest) s => some (proceed call resume rest s)
  | .running (.fail fault) callers s => some (.failing fault callers s)
  | .running (.log line next) callers s => some (.running next callers (s.write line))
  | .running (.note event next) callers s => some (.running next callers (s.report event))
  | .running (.read d next) callers s => some (.running (next (s.store.get d)) callers s)
  | .running (.phase cell next) callers s =>
    some (.running (next (s.cells.get cell).phase) callers s)
  | .running (.slot target discipline offset next) callers s =>
    let made := Slot.make s.store target discipline offset
    some (.running (next made) callers (s.logOutcome made))
  | .running (.construct placement blueprint next) callers s =>
    let made := s.construct placement blueprint
    some (.running (next made.1) callers made.2)
  | .running (.lookup key next) callers s => some (arrive (calls key) next callers s)
  | .failing _ .outermost _ => none
  | .failing fault (.announcing call resume rest) s =>
    some (.running (resume (.error fault)) rest (abandon call.cell none s.bounded).session)
  | .failing fault (.building call d resume rest) s =>
    some (.running (resume (.error fault)) rest (abandon call.cell (some d) s.bounded).session)

end Point

/-! ## Agreement -/

section Lookups

variable {calls : κ → Call n κ} {call : Call n κ} {fault : Fault} {d : DescriptorRef}

theorem resolve_of_found {b : Bounded n κ depth} (h : b.session.entry call.cell = .found d) :
    resolve calls depth call b = (.ok d, b) := by
  cases depth with
  | zero =>
    unfold resolve
    split <;> simp_all
  | succ depth =>
    unfold resolve
    split <;> simp_all

theorem resolve_of_refused {b : Bounded n κ depth}
    (h : b.session.entry call.cell = .refused fault) :
    resolve calls depth call b = b.raise fault := by
  cases depth with
  | zero =>
    unfold resolve
    split <;> simp_all
  | succ depth =>
    unfold resolve
    split <;> simp_all

theorem resolve_of_free {b : Bounded n κ (depth + 1)} (h : b.session.entry call.cell = .free) :
    resolve calls (depth + 1) call b =
      ((register (fun key => resolve calls depth (calls key)) call (b.claim call.cell h)).1,
        (register (fun key => resolve calls depth (calls key)) call
          (b.claim call.cell h)).2.weaken) := by
  rw [resolve]
  split <;> simp_all

end Lookups

namespace Point

variable {calls : κ → Call n κ}

section Arrival

variable {call : Call n κ} {resume : Except Fault DescriptorRef → Client n κ β}
  {callers : Callers n κ β} {s : Session n κ}

theorem arrive_of_found {d : DescriptorRef} (h : s.entry call.cell = .found d) :
    arrive call resume callers s = .running (resume (.ok d)) callers s := by
  rw [arrive, h]

theorem arrive_of_refused {fault : Fault} (h : s.entry call.cell = .refused fault) :
    arrive call resume callers s = .running (resume (.error fault)) callers (s.logFault fault) := by
  rw [arrive, h]

theorem arrive_of_free (h : s.entry call.cell = .free) :
    arrive call resume callers s =
      announced call resume callers (s.setPhase call.cell .registering) := by
  rw [arrive, h]

end Arrival

/-- One point leads to another by steps. -/
def Leads (calls : κ → Call n κ) (p q : Point n κ) : Prop :=
  ReflTransGen (fun p q => p.next calls = some q) p q

theorem Leads.step {p q : Point n κ} (h : p.next calls = some q) : Leads calls p q :=
  .single h

/-- A lookup that leads on as it says: with its answer, and from the session that it leaves
behind. -/
def Answers (calls : κ → Call n κ)
    (enter : κ → Bounded n κ depth → Outcome n κ depth DescriptorRef) : Prop :=
  ∀ {β : Type} (key : κ) (resume : Except Fault DescriptorRef → Client n κ β)
    (callers : Callers n κ β) (b : Bounded n κ depth),
    Leads calls (arrive (calls key) resume callers b.session)
      (.running (resume (enter key b).1) callers (enter key b).2.session)

/-- Code leads to its result. -/
theorem leads_interpret {enter : κ → Bounded n κ depth → Outcome n κ depth DescriptorRef}
    (henter : Answers calls enter) (client : Client n κ β) (callers : Callers n κ β)
    (b : Bounded n κ depth) :
    Leads calls (.running client callers b.session)
      (.running (.ofExcept (interpret enter client b).1) callers
        (interpret enter client b).2.session) := by
  induction client generalizing b with
  | done a => exact .refl
  | fail fault => exact .refl
  | log line next ih => exact .head rfl (ih (b.write line))
  | note event next ih => exact .head rfl (ih (b.report event))
  | read d next ih => exact .head rfl (ih _ b)
  | phase cell next ih => exact .head rfl (ih _ b)
  | slot target discipline offset next ih => exact .head rfl (ih _ (b.logOutcome _))
  | construct placement blueprint next ih =>
    exact .head rfl (ih _ (b.construct placement blueprint).2)
  | lookup key next ih =>
    exact .head rfl ((henter key next callers b).trans (ih _ (enter key b).2))

section Registration

variable {enter : κ → Bounded n κ depth → Outcome n κ depth DescriptorRef}
  {call : Call n κ} {resume : Except Fault DescriptorRef → Client n κ β} {callers : Callers n κ β}

/-- A registration that is announced goes on when its listener has ended. -/
theorem leads_announced (henter : Answers calls enter) (b : Bounded n κ depth) :
    Leads calls (announced call resume callers b.session)
      (proceed call resume callers (announce enter call.cell call.request b).session) := by
  unfold announce
  simp only
  split
  · rename_i hlistener
    have hnone : b.session.listener = none := hlistener
    rw [announced, hnone]
    exact .step rfl
  · rename_i listener hlistener
    have hsome : b.session.listener = some listener := hlistener
    rw [announced, hsome]
    let quiet := (b.write (announcement call)).update (fun s => { s with listener := none })
      fun _ => Nat.le_refl _
    -- the listener is run to its end, well or badly
    refine (leads_interpret henter listener (.announcing call resume callers) quiet).trans ?_
    show Leads calls (.running (.ofExcept (interpret enter listener quiet).1) _ _)
      (proceed call resume callers (interpret enter listener quiet).2.session)
    cases (interpret enter listener quiet).1 with
    | ok a => exact .step rfl
    | error fault => exact .step rfl

/-- A fault leaves a registration whose address is published. -/
theorem leads_failing (fault : Fault) (d : DescriptorRef) (b : Bounded n κ depth) :
    Leads calls (.failing fault (.building call d resume callers) b.session)
      (.running (resume (.error fault)) callers (abandon call.cell (some d) b).session) :=
  .step rfl

/-- A registration whose address is published comes to its end. -/
theorem leads_building (henter : Answers calls enter) (d : DescriptorRef) (b : Bounded n κ depth) :
    Leads calls (.running call.build (.building call d resume callers) b.session)
      (.running (resume (conclude call.cell d (complete enter call d b)).1) callers
        (conclude call.cell d (complete enter call d b)).2.session) := by
  refine (leads_interpret henter call.build (.building call d resume callers) b).trans ?_
  unfold complete
  rcases interpret enter call.build b with ⟨fault | parts, b'⟩
  · exact .head rfl (leads_failing fault d b')
  · refine .head rfl ?_
    rw [returned]
    by_cases hcount : parts.source.reported = call.request.slotCount
    · simp only [hcount, if_true]
      generalize (b'.session.store.get d).compose 0 (call.request.blueprint parts) = made
      rcases made with ⟨fault | _, memory⟩
      · let failed : Except Fault Unit := .error fault
        exact leads_failing fault d ((b'.overwrite d memory).logOutcome failed)
      · exact .refl
    · simp only [hcount, if_false]
      exact leads_failing _ d (b'.logFault _)

/-- A registration whose cell was claimed comes to its end. -/
theorem leads_register (henter : Answers calls enter) (b : Bounded n κ depth) :
    Leads calls (announced call resume callers b.session)
      (.running (resume (register enter call b).1) callers (register enter call b).2.session) := by
  refine (leads_announced henter b).trans ?_
  unfold proceed
  cases hlayout : Descriptor.layout? call.request.slotCount with
  | none =>
    unfold register
    simp only [hlayout]
    exact Leads.step rfl
  | some layout =>
    rw [register_of_layout call b hlayout]
    let reserved := reserve call.cell call.request (announce enter call.cell call.request b)
    exact leads_building henter reserved.1 reserved.2

end Registration

/-- A lookup leads to what it answers, however deep registrations nest. -/
theorem leads_resolve (calls : κ → Call n κ) (depth : Nat) (call : Call n κ)
    (resume : Except Fault DescriptorRef → Client n κ β) (callers : Callers n κ β)
    (b : Bounded n κ depth) :
    Leads calls (arrive call resume callers b.session)
      (.running (resume (resolve calls depth call b).1) callers
        (resolve calls depth call b).2.session) := by
  induction depth generalizing β call with
  | zero =>
    cases hentry : b.session.entry call.cell with
    | found d =>
      rw [arrive_of_found hentry, resolve_of_found hentry]
      exact .refl
    | refused fault =>
      rw [arrive_of_refused hentry, resolve_of_refused hentry]
      exact .refl
    | free => exact absurd hentry (b.entry_ne_free call.cell)
  | succ depth ih =>
    cases hentry : b.session.entry call.cell with
    | found d =>
      rw [arrive_of_found hentry, resolve_of_found hentry]
      exact .refl
    | refused fault =>
      rw [arrive_of_refused hentry, resolve_of_refused hentry]
      exact .refl
    | free =>
      have henter : Answers calls fun key => resolve calls depth (calls key) :=
        fun key resume callers b => ih (calls key) resume callers b
      rw [arrive_of_free hentry, resolve_of_free hentry]
      exact leads_register henter (b.claim call.cell hentry)

/-- The point at which outermost code has ended. -/
def ended (outcome : Except Fault α) (s : Session n κ) : Point n κ :=
  match outcome with
  | .ok a => .running (.done a) .outermost s
  | .error fault => .failing fault (.outermost : Callers n κ α) s

theorem leads_ended (outcome : Except Fault α) (s : Session n κ) :
    Leads calls (.running (.ofExcept outcome) .outermost s) (ended outcome s) := by
  cases outcome with
  | ok a => exact .refl
  | error fault => exact .step rfl

/-- The steps of outermost code come to what `Session.run` says. -/
theorem leads_run (calls : κ → Call n κ) (client : Client n κ α) (s : Session n κ) :
    Leads calls (.running client .outermost s)
      (ended (s.run calls client).1 (s.run calls client).2) := by
  have henter : Answers calls fun key => TracedHeap.resolve calls s.unclaimed (calls key) :=
    fun key => leads_resolve calls s.unclaimed (calls key)
  exact (leads_interpret henter client .outermost s.bounded).trans (leads_ended _ _)

/-- An outermost request for a type. -/
def request (call : Call n κ) (s : Session n κ) : Point n κ :=
  arrive call .ofExcept .outermost s

/-- The steps of an outermost request come to what `Session.resolve` says. -/
theorem leads_request (calls : κ → Call n κ) (call : Call n κ) (s : Session n κ) :
    Leads calls (request call s)
      (ended (s.resolve calls call).1 (s.resolve calls call).2) :=
  (leads_resolve calls s.unclaimed call .ofExcept .outermost s.bounded).trans (leads_ended _ _)

/-! ## Runs -/

/-- The cell whose build function is called by the step that follows on a point, if that
step calls one. -/
def calling : Point n κ → List (Fin n)
  | .running (.done _) (.announcing call _ _) _ | .running (.fail _) (.announcing call _ _) _ =>
    if (Descriptor.layout? call.request.slotCount).isSome then [call.cell] else []
  | _ => []

/-- One point follows on another: by a step, or because the outermost code has ended and
something else begins. -/
inductive Move (calls : κ → Call n κ) : Point n κ → Point n κ → Prop where
  | step {p q : Point n κ} (h : p.next calls = some q) : Move calls p q
  /-- Some code is run. -/
  | run {p : Point n κ} {α : Type} (client : Client n κ α) (h : p.next calls = none) :
      Move calls p (.running client .outermost p.session)
  /-- A type is asked for. -/
  | request {p : Point n κ} (call : Call n κ) (h : p.next calls = none) :
      Move calls p (request call p.session)
  /-- Some code is told to wait for the next registration. -/
  | listen {p : Point n κ} (listener : Client n κ Unit) (h : p.next calls = none) :
      Move calls p (.running (.done ()) .outermost { p.session with listener := some listener })

/-- What happens from one point to another, in any number of requests, whatever comes of
each.  The list tells whose build functions were called, the latest first. -/
inductive Run (calls : κ → Call n κ) (p : Point n κ) : List (Fin n) → Point n κ → Prop where
  | refl : Run calls p [] p
  | tail {built : List (Fin n)} {q r : Point n κ} (hrun : Run calls p built q)
      (hmove : Move calls q r) : Run calls p (q.calling ++ built) r

/-- Nothing has happened. -/
def start : Point n κ := .running (.done ()) .outermost .initial

/-- A run goes on by steps. -/
theorem Run.leads {built : List (Fin n)} {p q r : Point n κ} (h : Run calls p built q)
    (hsteps : Leads calls q r) : ∃ built', Run calls p (built' ++ built) r := by
  induction hsteps with
  | refl => exact ⟨[], h⟩
  | @tail mid _ _ hnext ih =>
    obtain ⟨built', hmid⟩ := ih
    refine ⟨mid.calling ++ built', ?_⟩
    rw [List.append_assoc]
    exact hmid.tail (.step hnext)

/-- The point that is come to in a number of steps. -/
def after (calls : κ → Call n κ) : Nat → Point n κ → Point n κ
  | 0, p => p
  | steps + 1, p =>
    match p.next calls with
    | none => p
    | some q => after calls steps q

theorem leads_after (calls : κ → Call n κ) (steps : Nat) (p : Point n κ) :
    Leads calls p (after calls steps p) := by
  induction steps generalizing p with
  | zero => exact .refl
  | succ steps ih =>
    unfold after
    cases hnext : p.next calls with
    | none => exact .refl
    | some q => exact .head hnext (ih q)

end Point

end TracedHeap
