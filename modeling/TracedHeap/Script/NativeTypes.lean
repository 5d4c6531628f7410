import TracedHeap.Script.Finding

/-! # Scripts over the native types -/

namespace TracedHeap

namespace Script

inductive NativeStep where
  | dump (type : String) (via : List Hop)
  /-- What the first request for a type came to. -/
  | first (type : String)
  | same (a : String) (viaA : List Hop) (b : String) (viaB : List Hop)
  /-- Whether the descriptor of a type is the one at its address. -/
  | raw (type : String)

def NativeStep.client : NativeStep → Option (Client NativeType.count NativeType Finding)
  | .dump type via => do
    let sought ← Sought.ofNative? type
    some do
      let d ← Client.follow via (← sought.find)
      return .view (← Client.view d)
  | .first type => do
    match ← NativeType.target? type with
    -- the sentinel is there from the beginning
    | .boxed => some (pure (.first (.ok true)))
    | .type t => some (pure (.first (Native.first t)))
  | .same a viaA b viaB => do
    let first ← Sought.ofNative? a
    let second ← Sought.ofNative? b
    some do
      let x ← Client.follow viaA (← first.find)
      let y ← Client.follow viaB (← second.find)
      return .truth (x = y)
  | .raw type => do
    let sought ← Sought.ofNative? type
    some do
      let d ← sought.find
      return .truth ((⟨d.index⟩ : DescriptorRef) = d)

def runNative (steps : List NativeStep) : Option (List (Answer Finding)) :=
  runAll (fun s step => do
    let client ← step.client
    some (onSession (Session.run Native.calls client) s)) steps Native.session

end Script

end TracedHeap
