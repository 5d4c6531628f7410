import TracedHeap.Script.Rooting.Plain

/-! # Carrying out scripts over root sets

Steps may contain steps, which are carried out in a scope, with another root set, or
while the roots are visited.  A fault ends its step only, but a step that gives up
ends all steps around it, as far as the next one that survives that.

* `RootingStep.run`: carries out a step.
* `Script.runRooting`: carries out a script, and tells what happened.
-/

namespace TracedHeap

namespace Script

/-! ## Answers -/

/-- Carries out a step and answers it. -/
def answering (act : ScriptAct Reply) : ScriptAct Unit := do
  let answer ← reporting act
  let r := (← get).roots
  let told := Told.answered answer r.locals.value.height r.persistents.value.size
  keep fun c => { c with answers := c.answers ++ [told] }

def givingUp (text : String) : ScriptAct Unit := do
  keep fun c => { c with answers := c.answers ++ [.failing] }
  throw (.raised text)

/-! ## The end of a root set -/

/-- Does something about every entry of a list, and answers each by name. -/
def eachReporting {α : Type} (act : α → ScriptAct Unit) :
    List (String × α) → ScriptAct (List (String × Answer Unit))
  | [] => return []
  | (name, a) :: rest => do
    let answer ← reporting (act a)
    let others ← eachReporting act rest
    return (name, answer) :: others

/-- Cleans up what is left: persistent handles and locals in the order of their
creation, then scopes from the latest. -/
def cleanUp (ending : Ending) : ScriptAct (List (String × Answer Unit)) := do
  let f ← frame
  let persistents ← eachReporting (fun p => unlessForgotten p.drop) f.persistents.reverse
  let locals ← eachReporting (fun _ => pure ()) f.locals.reverse
  let scopes ← eachReporting (fun s => unlessForgotten s.close) f.scopes
  return persistents ++ locals ++ scopes
where
  unlessForgotten (act : ScriptAct Unit) : ScriptAct Unit :=
    match ending with
    | .drop => act
    | .forget => pure ()

/-- Carries out steps with a root set of their own, and tells what happened. -/
def transcribing (body : ScriptAct Unit) (ending : Ending) : ScriptAct (Transcript Reply) := do
  let outer := (← get).client
  keep fun c => { Scripting.initial with sensible := c.sensible }
  let ended ← reporting (Act.withRootSet do
    let (outcome, steps) ← collecting body
    let cleanup ← cleanUp ending
    keep fun c => { c with answers := steps, cleanup }
    match outcome with
    | .ok () => pure ()
    | .error fault => throw fault)
  let inner := (← get).client
  keep fun c => { outer with sensible := c.sensible }
  return ⟨inner.answers, inner.cleanup, ended⟩

/-! ## Visits -/

/-- Visits the roots, runs code at each of them, and tells which they were. -/
def visiting (during : ScriptAct Unit) : ScriptAct (SeenRoots × List (Told Reply)) := do
  let before := (← get).client
  let locals := (← get).roots.locals.value.height
  keep fun c => { c with seen := [] }
  let (outcome, answers) ← collecting (Act.visit fun descriptor data => do
    keep fun c => { c with seen := c.seen ++ [(descriptor, data)] }
    during)
  let seen := (← get).client.seen
  keep fun c => { c with seen := before.seen }
  match outcome with
  | .ok () => return ((← frame).sortOut locals seen, answers)
  -- the answers to that code are lost, so it no longer matters whether its steps made sense
  | .error fault => do
    keep fun c => { c with sensible := before.sensible }
    throw fault

/-! ## Scopes -/

/-- Runs code in a scope of its own that goes by a name. -/
def inScope (name : String) (body : ScriptAct Unit) : ScriptAct Reply := do
  let enclosing := (← frame).enclosing
  let (result, answers) ← collecting (Scope.within fun s => do
    reframe fun f => { f with enclosing := (name, s) :: f.enclosing }
    body
    return s.mark.height)
  reframe fun f => { f with enclosing }
  return .inScope answers result

/-! ## Steps -/

mutual

def RootingStep.run : RootingStep → ScriptAct Unit
  | .plain step => answering step.run
  | .fail text => givingUp text
  | .withScope name body => answering (inScope name (runSteps body))
  | .withRootSet body ending => answering do
    return .transcribed (← transcribing (runSteps body) ending)
  | .visit => answering do
    let (seen, _) ← visiting (pure ())
    return .visited seen
  | .visitDuring during => answering do
    let (seen, answers) ← visiting (runSteps during)
    return .visitedDuring seen answers

/-- Carries out steps in order, until one gives up. -/
def runSteps : List RootingStep → ScriptAct Unit
  | [] => pure ()
  | step :: rest => do
    step.run
    runSteps rest

end

/-- Carries out a script over a root set. -/
def runRooting (steps : List RootingStep) (ending : Ending) : Option (Transcript Reply) :=
  let world : World Simulated DescriptorRef Scripting := ⟨.empty, .initial, 0, [], .initial⟩
  let (outcome, w) := (transcribing (runSteps steps) ending).run.run world
  match outcome with
  | .ok transcript => if w.client.sensible then some transcript else none
  | .error _ => none

end Script

end TracedHeap
