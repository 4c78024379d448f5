import Mathlib.Data.Finset.Sort
import PicoMesh.ControllerOutput
import PicoMesh.Library.Json
import PicoMesh.SerialLog

/-!
# The report of a serial log (`summarize_serial_log.py`)

`to_dict` and `render_text` make a report of a summary and `main` prints one of
them, as JSON text or as plain lines.  The file is given by what reading it
returns, its text or the error.
-/

namespace PicoMesh

/-! ### Formatting -/

/-- `sorted(d.items())`.  The keys differ, so no comparison gets to the values. -/
def sortedItems {α : Type} (d : Dictionary ℤ α) : List (ℤ × α) :=
  d.keys.sort.filterMap fun key => (d.lookup key).map fun value => (key, value)

/-- `str(n)`. -/
def str (n : ℤ) : List Char := Json.intText n

/-- The format `02X`; a sign counts for the width. -/
def formatHex : ℤ → List Char
  | .ofNat n => List.replicate (2 - (printNumber 16 n).length) '0' ++ printNumber 16 n
  | .negSucc n => '-' :: printNumber 16 (n + 1)

/-- `f"0x{message_type:02X}"`. -/
def messageTypeText (messageType : ℤ) : List Char := "0x".toList ++ formatHex messageType

/-! ### The report as data -/

/-- `result[key] = value`. -/
def setItem (key : List Char) (value : Json) : List (List Char × Json) → List (List Char × Json)
  | [] => [(key, value)]
  | (k, v) :: members =>
    if k = key then (k, value) :: members else (k, v) :: setItem key value members

/-- `{key(k): value(v) for k, v in sorted(d.items())}`. -/
def dictOf {α : Type} (key : ℤ → List Char) (value : α → Json) (d : Dictionary ℤ α) : Json :=
  .obj <| (sortedItems d).foldl
    (fun members item => setItem (key item.1) (value item.2) members) []

/-- A number, or `None`. -/
def optionalInt : Option ℤ → Json
  | none => .null
  | some n => .int n

/-- A count. -/
def countInt (n : ℕ) : Json := .int n

/-- `NodeSummary.to_dict`.  `asdict` has the fields in their order, and the last one
is replaced. -/
def NodeSummary.toDict (summary : NodeSummary) : Json :=
  .obj
    [("frames".toList, countInt summary.frames),
      ("first_sequence".toList, optionalInt summary.firstSequence),
      ("last_sequence".toList, optionalInt summary.lastSequence),
      ("duplicates".toList, countInt summary.duplicates),
      ("forward_steps".toList, countInt summary.forwardSteps),
      ("wraparounds".toList, countInt summary.wraparounds),
      ("stale_or_backward".toList, countInt summary.staleOrBackward),
      ("message_types".toList, dictOf messageTypeText countInt summary.messageTypes)]

/-- An entry of `send_attempts`. -/
def SendAttempt.toDict (attempt : SendAttempt) : Json :=
  .obj [("attempt".toList, .int attempt.attempt), ("result".toList, .str attempt.result)]

/-- An entry of `acknowledgements`. -/
def Acknowledgement.toDict (acknowledgement : Acknowledgement) : Json :=
  .obj
    [("sequence".toList, .int acknowledgement.sequence),
      ("status".toList, .int acknowledgement.status),
      ("matched".toList, .bool acknowledgement.matched)]

/-- `LogSummary.to_dict`. -/
def LogSummary.toDict (summary : LogSummary) : Json :=
  .obj
    [("total_lines".toList, countInt summary.totalLines),
      ("recognized_lines".toList, countInt summary.recognizedLines),
      ("nodes".toList, dictOf str NodeSummary.toDict summary.nodes),
      ("online_samples".toList, .arr (summary.onlineSamples.map .int)),
      ("online_transitions".toList,
        .arr (summary.onlineTransitions.map fun item => .arr [.int item.1, .int item.2])),
      ("invalid_frame_reads".toList, countInt summary.invalidFrameReads),
      ("invalid_frame_bytes".toList, dictOf str countInt summary.invalidFrameBytes),
      ("queued_commands".toList, dictOf str countInt summary.queuedCommands),
      ("send_attempts".toList,
        dictOf str (fun attempts => .arr (attempts.map SendAttempt.toDict)) summary.sendAttempts),
      ("acknowledgements".toList, .arr (summary.acknowledgements.map Acknowledgement.toDict)),
      ("retry_exhaustions".toList, dictOf str countInt summary.retryExhaustions)]

/-! ### The report as text -/

/-- `sum(d.values())` of a weight of the values. -/
def sumValues {α : Type} (weight : α → ℕ) (d : Dictionary ℤ α) : ℕ :=
  ((sortedItems d).map fun item => weight item.2).sum

/-- The line of a node. -/
def renderNode (nodeId : ℤ) (node : NodeSummary) : String :=
  let types := ", ".intercalate <| (sortedItems node.messageTypes).map fun item =>
    let messageType := String.ofList (messageTypeText item.1)
    let count := item.2
    s!"{messageType}={count}"
  let optional : Option ℤ → String := fun n => n.elim "None" toString
  let first := optional node.firstSequence
  let last := optional node.lastSequence
  s!"  node {nodeId}: frames={node.frames}, first={first}, last={last}, " ++
    s!"duplicates={node.duplicates}, forward={node.forwardSteps}, " ++
    s!"wraparounds={node.wraparounds}, stale_or_backward={node.staleOrBackward}, types=[{types}]"

/-- `render_text`; the minimum and the maximum of an empty list are errors. -/
def renderText (summary : LogSummary) : Option String := do
  let nodes :=
    if summary.nodes.keys = ∅ then []
    else "nodes:" :: (sortedItems summary.nodes).map fun item => renderNode item.1 item.2
  let online ←
    if summary.onlineSamples = [] then pure []
    else do
      let transitions := ", ".intercalate <| summary.onlineTransitions.map fun item =>
        let before := item.1
        let after := item.2
        s!"{before}->{after}"
      let samples := summary.onlineSamples.length
      let least ← summary.onlineSamples.min?
      let greatest ← summary.onlineSamples.max?
      let changes := if transitions = "" then "none" else transitions
      pure [s!"online samples: {samples}; min={least}; max={greatest}",
        s!"online transitions: {changes}"]
  let queued := sumValues id summary.queuedCommands
  let attempts := sumValues List.length summary.sendAttempts
  let acknowledgements := summary.acknowledgements.length
  let exhausted := sumValues id summary.retryExhaustions
  return "\n".intercalate <|
    ["PicoMesh serial log summary", s!"lines: {summary.totalLines}",
      s!"recognized: {summary.recognizedLines}"] ++ nodes ++ online ++
    [s!"invalid frame reads: {summary.invalidFrameReads}", s!"queued command events: {queued}",
      s!"send attempts: {attempts}", s!"acknowledgements: {acknowledgements}",
      s!"retry exhaustion events: {exhausted}",
      "This summary describes recognized log events; it does not certify physical validation."]

/-! ### The program -/

/-- What a run of the program leaves. -/
structure ProgramResult where
  status : ℕ
  stdout : String := ""
  stderr : String := ""
  deriving DecidableEq, Repr

/-- `main` on a log of some path, with what `read_text` returns; `none` is an error that
is not caught. -/
def summarizeMain (log : String) (file : Except String (List Char)) (json : Bool) :
    Option ProgramResult :=
  match file with
  | .error error => some { status := 2, stderr := s!"unable to read {log}: {error}\n" }
  | .ok text => do
    let summary ← parseLines? (splitlines text)
    if summary.recognizedLines = 0 then
      some { status := 1, stderr := "no PicoMesh serial events were recognized\n" }
    else if json then some { status := 0, stdout := String.ofList summary.toDict.dumps ++ "\n" }
    else
      let report ← renderText summary
      return { status := 0, stdout := report ++ "\n" }

end PicoMesh
