import PicoMesh.Library.Dictionary
import PicoMesh.Library.Regex

/-!
# The serial log summariser (`summarize_serial_log.py`)

A log is a list of characters, its lines are split and stripped as the script
does it, and its integers are `ℤ`.  Characters are classified as in Unicode 15, the
version of Python 3.12.

`int` refuses a decimal number of more than 4300 digits (`int?`), and `parse_lines`
with it (`parseLines?`).  Where no line has such a number the summary is the one of
`parseLines`.
-/

namespace PicoMesh

/-! ### Text -/

/-- Whether `str.isspace` holds of a character: what `\s` matches and `strip`
removes. -/
def isSpace (c : Char) : Bool :=
  decide (c.toNat ∈ [0x09, 0x0A, 0x0B, 0x0C, 0x0D, 0x1C, 0x1D, 0x1E, 0x1F, 0x20, 0x85, 0xA0,
    0x1680, 0x2028, 0x2029, 0x202F, 0x205F, 0x3000]) ||
  decide (0x2000 ≤ c.toNat ∧ c.toNat ≤ 0x200A)

/-- The characters that end a line for `str.splitlines`. -/
def isLineEnd (c : Char) : Bool :=
  decide (c.toNat ∈ [0x0A, 0x0B, 0x0C, 0x0D, 0x1C, 0x1D, 0x1E, 0x85, 0x2028, 0x2029])

/-- The zeros of the scripts that have decimal digits, in Unicode 15, which is Python 3.12's; the
nine other digits follow each. -/
def decimalZeros : List ℕ :=
  [0x30, 0x660, 0x6F0, 0x7C0, 0x966, 0x9E6, 0xA66, 0xAE6, 0xB66, 0xBE6, 0xC66, 0xCE6, 0xD66,
    0xDE6, 0xE50, 0xED0, 0xF20, 0x1040, 0x1090, 0x17E0, 0x1810, 0x1946, 0x19D0, 0x1A80, 0x1A90,
    0x1B50, 0x1BB0, 0x1C40, 0x1C50, 0xA620, 0xA8D0, 0xA900, 0xA9D0, 0xA9F0, 0xAA50, 0xABF0,
    0xFF10, 0x104A0, 0x10D30, 0x11066, 0x110F0, 0x11136, 0x111D0, 0x112F0, 0x11450, 0x114D0,
    0x11650, 0x116C0, 0x11730, 0x118E0, 0x11950, 0x11C50, 0x11D50, 0x11DA0, 0x11F50, 0x16A60,
    0x16AC0, 0x16B50, 0x1D7CE, 0x1D7D8, 0x1D7E2, 0x1D7EC, 0x1D7F6, 0x1E140, 0x1E2F0, 0x1E4F0,
    0x1E950, 0x1FBF0]

/-- Whether a character is one of the ten digits that start with a zero. -/
def isDigitOf (c : Char) (start : ℕ) : Bool := decide (start ≤ c.toNat ∧ c.toNat < start + 10)

/-- `str.isdecimal` of a character: what `\d` matches. -/
def isDecimal (c : Char) : Bool := decimalZeros.any (isDigitOf c)

/-- `[0-9A-Fa-f]`. -/
def isHexDigit (c : Char) : Bool :=
  c.isDigit || decide ('A' ≤ c ∧ c ≤ 'F') || decide ('a' ≤ c ∧ c ≤ 'f')

/-- `str.splitlines`. -/
def splitlines : List Char → List (List Char)
  | [] => []
  | '\r' :: '\n' :: text => [] :: splitlines text
  | c :: text =>
    if isLineEnd c then [] :: splitlines text
    else
      match splitlines text with
      | [] => [[c]]
      | line :: lines => (c :: line) :: lines

/-- `str.strip`. -/
def strip (text : List Char) : List Char :=
  ((text.dropWhile isSpace).reverse.dropWhile isSpace).reverse

/-- The value of a digit, decimal in any script or hexadecimal. -/
def digitValue (c : Char) : ℕ :=
  match decimalZeros.find? (isDigitOf c) with
  | some start => c.toNat - start
  | none =>
    if 'A' ≤ c ∧ c ≤ 'F' then c.toNat - 'A'.toNat + 10 else c.toNat - 'a'.toNat + 10

/-- The integer that a string of digits stands for. -/
def int (text : List Char) (base : ℕ := 10) : ℤ :=
  (text.foldl (fun n c => base * n + digitValue c) 0 : ℕ)

/-- The most decimal digits that `int` reads: the default of `sys.get_int_max_str_digits()`. -/
def intMaxStrDigits : ℕ := 4300

/-- `int(text)` of a string of decimal digits; `none` is a `ValueError`.  In base 16, a power of
two, `int` reads any number of digits. -/
def int? (text : List Char) : Option ℤ :=
  if intMaxStrDigits < text.length then none else some (int text)

/-! ### One node -/

/-- What is kept of a node's frames.  The last field is what the source asserts. -/
structure NodeSummary where
  frames : ℕ := 0
  firstSequence : Option ℤ := none
  lastSequence : Option ℤ := none
  duplicates : ℕ := 0
  forwardSteps : ℕ := 0
  wraparounds : ℕ := 0
  staleOrBackward : ℕ := 0
  messageTypes : Dictionary ℤ ℕ := ∅
  asserted : firstSequence.isSome = true → lastSequence.isSome = true := by simp

/-- `NodeSummary.observe`.  On unbounded integers a mask of `0xFF` is the remainder
modulo 256. -/
def NodeSummary.observe (summary : NodeSummary) (sequence messageType : ℤ) : NodeSummary :=
  let sequence := sequence % 256
  let observed := { summary with
    frames := summary.frames + 1
    messageTypes := summary.messageTypes.modify messageType 0 (· + 1) }
  if hfirst : summary.firstSequence.isSome = true then
    let last := summary.lastSequence.get (summary.asserted hfirst)
    let distance := (sequence - last) % 256
    if distance = 0 then { observed with duplicates := summary.duplicates + 1 }
    else if distance < 128 then
      { observed with
        forwardSteps := summary.forwardSteps + 1
        wraparounds := if sequence < last then summary.wraparounds + 1 else summary.wraparounds
        lastSequence := some sequence
        asserted := fun _ => rfl }
    else { observed with staleOrBackward := summary.staleOrBackward + 1 }
  else
    { observed with
      firstSequence := some sequence
      lastSequence := some sequence
      asserted := fun _ => rfl }

/-- The summary of a node without frames. -/
def NodeSummary.start : NodeSummary := {}

/-! ### The whole log -/

/-- One entry of `send_attempts`. -/
structure SendAttempt where
  attempt : ℤ
  result : List Char
  deriving DecidableEq, Repr

/-- One entry of `acknowledgements`. -/
structure Acknowledgement where
  sequence : ℤ
  status : ℤ
  matched : Bool
  deriving DecidableEq, Repr

/-- What is kept of a log. -/
structure LogSummary where
  totalLines : ℕ := 0
  recognizedLines : ℕ := 0
  nodes : Dictionary ℤ NodeSummary := ∅
  onlineSamples : List ℤ := []
  onlineTransitions : List (ℤ × ℤ) := []
  invalidFrameReads : ℕ := 0
  invalidFrameBytes : Dictionary ℤ ℕ := ∅
  queuedCommands : Dictionary ℤ ℕ := ∅
  sendAttempts : Dictionary ℤ (List SendAttempt) := ∅
  acknowledgements : List Acknowledgement := []
  retryExhaustions : Dictionary ℤ ℕ := ∅

/-- `LogSummary.observe_online_count`. -/
def LogSummary.observeOnlineCount (summary : LogSummary) (count : ℤ) : LogSummary :=
  { summary with
    onlineTransitions :=
      match summary.onlineSamples.getLast? with
      | some last =>
        if last ≠ count then summary.onlineTransitions ++ [(last, count)]
        else summary.onlineTransitions
      | none => summary.onlineTransitions
    onlineSamples := summary.onlineSamples ++ [count] }

/-! ### The patterns -/

open Regex

/-- `(?P<name>\d+)`. -/
def number (name : String) : Regex := group name (many isDecimal)

/-- `\s+`. -/
def spaces : Regex := many isSpace

/-- `node=(?P<node>\d+)\s+sequence=(?P<sequence>\d+)\s+type=0x(?P<type>[0-9A-Fa-f]+)` -/
def heartbeatRe : Regex :=
  seq (lit "node=".toList) <| seq (number "node") <| seq spaces <|
    seq (lit "sequence=".toList) <| seq (number "sequence") <| seq spaces <|
    seq (lit "type=0x".toList) (group "type" (many isHexDigit))

/-- `online nodes=(?P<count>\d+)` -/
def onlineRe : Regex := seq (lit "online nodes=".toList) (number "count")

/-- `No valid frame, bytes=(?P<bytes>\d+)` -/
def invalidRe : Regex := seq (lit "No valid frame, bytes=".toList) (number "bytes")

/-- `queued command sequence=(?P<sequence>\d+)` -/
def queuedRe : Regex := seq (lit "queued command sequence=".toList) (number "sequence")

/-- `send sequence=(?P<sequence>\d+)\s+attempt=(?P<attempt>\d+)\s+result=(?P<result>\S+)` -/
def sendRe : Regex :=
  seq (lit "send sequence=".toList) <| seq (number "sequence") <| seq spaces <|
    seq (lit "attempt=".toList) <| seq (number "attempt") <| seq spaces <|
    seq (lit "result=".toList) (group "result" (many fun c => !isSpace c))

/-- `ack sequence=(?P<sequence>\d+)\s+status=(?P<status>\d+)\s+matched=(?P<matched>yes|no)` -/
def ackRe : Regex :=
  seq (lit "ack sequence=".toList) <| seq (number "sequence") <| seq spaces <|
    seq (lit "status=".toList) <| seq (number "status") <| seq spaces <|
    seq (lit "matched=".toList) (group "matched" (alt (lit "yes".toList) (lit "no".toList)))

/-- `retry exhausted sequence=(?P<sequence>\d+)` -/
def exhaustedRe : Regex := seq (lit "retry exhausted sequence=".toList) (number "sequence")

/-! ### Parsing -/

namespace LogSummary

variable (summary : LogSummary)

/-- What `parse_lines` does with a match of each pattern, when `int` raises no error. -/
def recordHeartbeat (captures : Captures) : LogSummary :=
  let nodeId := int (textOf captures "node")
  let sequence := int (textOf captures "sequence")
  let messageType := int (textOf captures "type") 16
  { summary with
    nodes := summary.nodes.modify nodeId .start (·.observe sequence messageType)
    recognizedLines := summary.recognizedLines + 1 }

def recordOnline (captures : Captures) : LogSummary :=
  let summary := summary.observeOnlineCount (int (textOf captures "count"))
  { summary with recognizedLines := summary.recognizedLines + 1 }

def recordInvalid (captures : Captures) : LogSummary :=
  let byteCount := int (textOf captures "bytes")
  { summary with
    invalidFrameReads := summary.invalidFrameReads + 1
    invalidFrameBytes := summary.invalidFrameBytes.modify byteCount 0 (· + 1)
    recognizedLines := summary.recognizedLines + 1 }

def recordQueued (captures : Captures) : LogSummary :=
  { summary with
    queuedCommands := summary.queuedCommands.modify (int (textOf captures "sequence")) 0 (· + 1)
    recognizedLines := summary.recognizedLines + 1 }

def recordSend (captures : Captures) : LogSummary :=
  let sequence := int (textOf captures "sequence")
  let attempt : SendAttempt :=
    { attempt := int (textOf captures "attempt"), result := textOf captures "result" }
  { summary with
    sendAttempts := summary.sendAttempts.modify sequence [] (· ++ [attempt])
    recognizedLines := summary.recognizedLines + 1 }

def recordAck (captures : Captures) : LogSummary :=
  let acknowledgement : Acknowledgement :=
    { sequence := int (textOf captures "sequence")
      status := int (textOf captures "status")
      matched := textOf captures "matched" = "yes".toList }
  { summary with
    acknowledgements := summary.acknowledgements ++ [acknowledgement]
    recognizedLines := summary.recognizedLines + 1 }

def recordExhausted (captures : Captures) : LogSummary :=
  { summary with
    retryExhaustions := summary.retryExhaustions.modify (int (textOf captures "sequence")) 0 (· + 1)
    recognizedLines := summary.recognizedLines + 1 }

/-- The patterns, in the order in which they are tried, and what is done with the
match of each. -/
def patterns : List (Regex × (LogSummary → Captures → LogSummary)) :=
  [(heartbeatRe, recordHeartbeat), (onlineRe, recordOnline), (invalidRe, recordInvalid),
    (queuedRe, recordQueued), (sendRe, recordSend), (ackRe, recordAck),
    (exhaustedRe, recordExhausted)]

/-- The first pattern that is found in a line is the only one that counts. -/
def tryPatterns (line : List Char) :
    List (Regex × (LogSummary → Captures → LogSummary)) → LogSummary
  | [] => summary
  | (pattern, record) :: more =>
    match pattern.search line with
    | some captures => record summary captures
    | none => tryPatterns line more

/-- The body of the loop of `parse_lines`, when `int` raises no error. -/
def parseLine (rawLine : List Char) : LogSummary :=
  let summary := { summary with totalLines := summary.totalLines + 1 }
  summary.tryPatterns (strip rawLine) patterns

/-- The groups that are read by `int` in base 10. -/
def decimalGroups : List String := ["node", "sequence", "count", "bytes", "attempt", "status"]

/-- Whether `int` raises an error at a match; a group that the pattern does not have is not read. -/
def refused (captures : Captures) : Bool :=
  decimalGroups.any fun name => (int? (textOf captures name)).isNone

/-- Whether `int` raises an error at a line: at the match of the first pattern that is found. -/
def raises (rawLine : List Char) : Bool :=
  (patterns.findSome? fun pattern => pattern.1.search (strip rawLine)).any refused

/-- The body of the loop of `parse_lines`; `none` is the error of `int`. -/
def parseLine? (rawLine : List Char) : Option LogSummary :=
  if raises rawLine then none else some (summary.parseLine rawLine)

end LogSummary

/-- `parse_lines`, when `int` raises no error. -/
def parseLines (lines : List (List Char)) : LogSummary := lines.foldl LogSummary.parseLine {}

/-- `parse_lines`. -/
def parseLines? (lines : List (List Char)) : Option LogSummary :=
  lines.foldlM LogSummary.parseLine? {}

/-- The summary of the text of a log file, as `main` asks for it. -/
def summarize (text : List Char) : LogSummary := parseLines (splitlines text)

end PicoMesh
