import PicoMesh.Equiv.PrintedLine

/-!
# The log summariser recovers what the sketches print

`LogEvent` is what an event has to say to a reader of the log, and
`LogSummary.record` what a summary does with it.  `SketchLine` lists the lines
that the sketches print and `SketchLine.parseLine` says what is made of each;
`Tallies` says what is in the summary of a whole log.  `log_recovery_iff` says
that this is everything the events say exactly when no failed read was printed by
the multi-node sketch, whose wording no pattern knows.
-/

namespace PicoMesh

open Regex

/-! ### What a line says -/

/-- What an event has to say to a reader of the log. -/
inductive LogEvent where
  | read (nodeId sequence messageType : ℤ)
  | failed (byteCount : ℤ)
  | online (count : ℤ)
  | queued (sequence : ℤ)
  | sent (sequence : ℤ) (attempt : SendAttempt)
  | acknowledged (acknowledgement : Acknowledgement)
  | exhausted (sequence : ℤ)
  deriving DecidableEq, Repr

/-- What an event says; a sketch that starts, a refused command and a pass in which
nothing is due say nothing. -/
def ControllerEvent.logged : ControllerEvent → Option LogEvent
  | .ready _ => none
  | .heartbeatRead length decoded =>
    if decoded.ok then
      some (.read decoded.frame.nodeId.toNat decoded.frame.sequence.toNat
        decoded.frame.type.raw.toNat)
    else some (.failed length)
  | .pollNode _ length decoded =>
    if decoded.ok then
      some (.read decoded.frame.nodeId.toNat decoded.frame.sequence.toNat
        decoded.frame.type.raw.toNat)
    else some (.failed length)
  | .onlineCount count => some (.online count)
  | .enqueueCommand sequence result =>
    if result = .queued then some (.queued sequence.toNat) else none
  | .transmitDue decision sent =>
    match decision.action with
    | .none => none
    | .exhausted => some (.exhausted decision.frame.sequence.toNat)
    | .send =>
      some (.sent decision.frame.sequence.toNat
        ⟨decision.attempts.toNat, (if sent then "ok" else "bus-error").toList⟩)
  | .receiveAcknowledgement acknowledgedSequence status resolution =>
    some (.acknowledged
      ⟨acknowledgedSequence.toNat, status.raw.toNat, decide (resolution ≠ .notFound)⟩)

/-- What a summary does with it. -/
def LogSummary.record (summary : LogSummary) : LogEvent → LogSummary
  | .read nodeId sequence messageType =>
    { summary with
      recognizedLines := summary.recognizedLines + 1
      nodes := summary.nodes.modify nodeId .start (·.observe sequence messageType) }
  | .failed byteCount =>
    { summary with
      recognizedLines := summary.recognizedLines + 1
      invalidFrameReads := summary.invalidFrameReads + 1
      invalidFrameBytes := summary.invalidFrameBytes.modify byteCount 0 (· + 1) }
  | .online count =>
    { summary.observeOnlineCount count with recognizedLines := summary.recognizedLines + 1 }
  | .queued sequence =>
    { summary with
      recognizedLines := summary.recognizedLines + 1
      queuedCommands := summary.queuedCommands.modify sequence 0 (· + 1) }
  | .sent sequence attempt =>
    { summary with
      recognizedLines := summary.recognizedLines + 1
      sendAttempts := summary.sendAttempts.modify sequence [] (· ++ [attempt]) }
  | .acknowledged acknowledgement =>
    { summary with
      recognizedLines := summary.recognizedLines + 1
      acknowledgements := summary.acknowledgements ++ [acknowledgement] }
  | .exhausted sequence =>
    { summary with
      recognizedLines := summary.recognizedLines + 1
      retryExhaustions := summary.retryExhaustions.modify sequence 0 (· + 1) }

/-! ### The patterns on their lines -/

theorem first_number (name : String) (n : ℕ) {rest : List Char}
    (hrest : ∀ c ∈ rest.head?, isDecimal c = false) :
    (number name).first (printNumber 10 n ++ rest) = some ([(name, printNumber 10 n)], rest) :=
  first_group name (first_many (printNumber_ne_nil 10 n) (fun _ => isDecimal_dec) hrest)

theorem first_spaces {c : Char} (hc : isSpace c = false) (rest : List Char) :
    spaces.first (' ' :: c :: rest) = some ([], c :: rest) := by
  have hne : [' '] ≠ [] := List.cons_ne_nil _ _
  apply first_many hne
  · exact List.forall_mem_singleton.mpr rfl
  · rintro d hd
    obtain rfl := Option.some.inj hd
    exact hc

/-- A keyword, a number and the space before what comes next. -/
theorem first_field {keyword rest rest' : List Char} {c : Char} {r : Regex} {captures : Captures}
    (name : String) (n : ℕ) (hc : isSpace c = false)
    (h : r.first (c :: rest) = some (captures, rest')) :
    (seq (lit keyword) <| seq (number name) <| seq spaces r).first
      (keyword ++ (printNumber 10 n ++ (' ' :: c :: rest))) =
      some ((name, printNumber 10 n) :: captures, rest') := by
  have hspace : ∀ d ∈ (' ' :: c :: rest).head?, isDecimal d = false := by
    rintro d ⟨⟩
    rfl
  have hnumber := first_number name n hspace
  exact first_seq (first_lit keyword _) <| first_seq hnumber <|
    first_seq (first_spaces hc rest) h

/-- A keyword and a number make up the whole line. -/
theorem search_keyword_number (keyword : String) (name : String) (n : ℕ) :
    (seq (lit keyword.toList) (number name)).search (render [.text keyword, .dec n]) =
      some [(name, printNumber 10 n)] := by
  have hline : render [.text keyword, .dec n] =
      keyword.toList ++ (printNumber 10 n ++ []) := rfl
  rw [hline]
  exact search_of_first (first_seq (first_lit _ _) (first_number name n nofun))

theorem search_heartbeatRe (nodeId sequence messageType : ℕ) :
    heartbeatRe.search (render [.text "node=", .dec nodeId, .text " sequence=", .dec sequence,
      .text " type=0x", .hex messageType]) =
      some [("node", printNumber 10 nodeId), ("sequence", printNumber 10 sequence),
        ("type", printNumber 16 messageType)] := by
  have htype : (group "type" (many isHexDigit)).first (printNumber 16 messageType ++ []) =
      some ([("type", printNumber 16 messageType)], []) :=
    first_group "type" (first_many (printNumber_ne_nil 16 messageType) (fun _ => isHexDigit_hex)
      nofun)
  have hline : render [.text "node=", .dec nodeId, .text " sequence=", .dec sequence,
      .text " type=0x", .hex messageType] =
      "node=".toList ++ (printNumber 10 nodeId ++ (' ' :: ("sequence=".toList ++
        (printNumber 10 sequence ++ (' ' :: ("type=0x".toList ++
          (printNumber 16 messageType ++ []))))))) := rfl
  rw [hline]
  apply search_of_first
  exact first_field "node" nodeId rfl <| first_field "sequence" sequence rfl <|
    first_seq (first_lit _ _) htype

/-- The result is a word. -/
theorem search_sendRe (sequence attempts : ℕ) {result : String} (hne : result.toList ≠ [])
    (hword : (result.toList.all fun c => !isSpace c) = true) :
    sendRe.search (render [.text "send sequence=", .dec sequence, .text " attempt=", .dec attempts,
      .text " result=", .text result]) =
      some [("sequence", printNumber 10 sequence), ("attempt", printNumber 10 attempts),
        ("result", result.toList)] := by
  have hresult : (group "result" (many fun c => !isSpace c)).first (result.toList ++ []) =
      some ([("result", result.toList)], []) :=
    first_group "result" (first_many hne (List.all_eq_true.mp hword) nofun)
  have hline : render [.text "send sequence=", .dec sequence, .text " attempt=", .dec attempts,
      .text " result=", .text result] =
      "send sequence=".toList ++ (printNumber 10 sequence ++ (' ' :: ("attempt=".toList ++
        (printNumber 10 attempts ++ (' ' :: ("result=".toList ++
          (result.toList ++ []))))))) := rfl
  rw [hline]
  apply search_of_first
  exact first_field "sequence" sequence rfl <| first_field "attempt" attempts rfl <|
    first_seq (first_lit _ _) hresult

theorem search_ackRe (sequence status : ℕ) {matched : String}
    (hmatched : matched = "yes" ∨ matched = "no") :
    ackRe.search (render [.text "ack sequence=", .dec sequence, .text " status=", .dec status,
      .text " matched=", .text matched]) =
      some [("sequence", printNumber 10 sequence), ("status", printNumber 10 status),
        ("matched", matched.toList)] := by
  have hgroup : (group "matched" (alt (lit "yes".toList) (lit "no".toList))).first
      (matched.toList ++ []) = some ([("matched", matched.toList)], []) := by
    rcases hmatched with rfl | rfl
    · exact first_group "matched" (first_alt_left (first_lit "yes".toList []))
    · exact first_group "matched" (first_alt_right rfl (first_lit "no".toList []))
  have hline : render [.text "ack sequence=", .dec sequence, .text " status=", .dec status,
      .text " matched=", .text matched] =
      "ack sequence=".toList ++ (printNumber 10 sequence ++ (' ' :: ("status=".toList ++
        (printNumber 10 status ++ (' ' :: ("matched=".toList ++ (matched.toList ++ []))))))) := rfl
  rw [hline]
  apply search_of_first
  exact first_field "sequence" sequence rfl <| first_field "status" status rfl <|
    first_seq (first_lit _ _) hgroup

/-! ### Line by line -/

namespace PrintCall

theorem closes_result (sent : Bool) : (text (if sent then "ok" else "bus-error")).Closes := by
  cases sent
  · exact closes_text (s := "bus-error") rfl rfl
  · exact closes_text (s := "ok") rfl rfl

theorem closes_matched (unmatched : Bool) :
    (text (if unmatched then "no" else "yes")).Closes := by
  cases unmatched
  · exact closes_text (s := "yes") rfl rfl
  · exact closes_text (s := "no") rfl rfl

end PrintCall

namespace LogSummary

variable (summary : LogSummary)

/-- What is made of the captures of a read. -/
theorem recordHeartbeat_captures (nodeId sequence messageType : ℕ) :
    summary.recordHeartbeat [("node", printNumber 10 nodeId),
      ("sequence", printNumber 10 sequence), ("type", printNumber 16 messageType)] =
      summary.record (.read nodeId sequence messageType) := by
  have hnode : int (printNumber 10 nodeId) = nodeId := int_printNumber (by omega) (by omega) nodeId
  have hsequence : int (printNumber 10 sequence) = sequence :=
    int_printNumber (by omega) (by omega) sequence
  have htype : int (printNumber 16 messageType) 16 = messageType :=
    int_printNumber (by omega) (by omega) messageType
  show { summary with
    nodes := summary.nodes.modify (int (printNumber 10 nodeId)) .start
      (·.observe (int (printNumber 10 sequence)) (int (printNumber 16 messageType) 16))
    recognizedLines := summary.recognizedLines + 1 } = _
  rw [hnode, hsequence, htype]
  rfl

theorem parseLine_heartbeat (nodeId sequence messageType : ℕ) :
    summary.parseLine (render [.text "node=", .dec nodeId, .text " sequence=", .dec sequence,
      .text " type=0x", .hex messageType]) =
      summary.counted.record (.read nodeId sequence messageType) := by
  rw [parseLine_found 0 nofun (by rintro c ⟨⟩; rfl) rfl (PrintCall.closes_hex messageType) rfl
    (search_heartbeatRe nodeId sequence messageType), recordHeartbeat_captures]

/-- The search passes over the address. -/
theorem parseLine_pollNode (address nodeId sequence messageType : ℕ) :
    summary.parseLine (render [.text "address=0x", .hex address, .text " node=", .dec nodeId,
      .text " sequence=", .dec sequence, .text " type=0x", .hex messageType]) =
      summary.counted.record (.read nodeId sequence messageType) := by
  have hbefore : 'n' ∉ "address=0x".toList ++ (printNumber 16 address ++ [' ']) := by
    rw [List.mem_append, List.mem_append, not_or, not_or]
    refine ⟨by decide, fun hmem => ?_, by decide⟩
    exact absurd (isPrintedDigit_hex hmem) (by decide)
  have hline : render [.text "address=0x", .hex address, .text " node=", .dec nodeId,
      .text " sequence=", .dec sequence, .text " type=0x", .hex messageType] =
      ("address=0x".toList ++ (printNumber 16 address ++ [' '])) ++
        render [.text "node=", .dec nodeId, .text " sequence=", .dec sequence,
          .text " type=0x", .hex messageType] := by
    rw [List.append_assoc, List.append_assoc]
    rfl
  have hsearch := (search_append hbefore _).trans
    (search_heartbeatRe nodeId sequence messageType)
  rw [← hline] at hsearch
  rw [parseLine_found 0 nofun (by rintro c ⟨⟩; rfl) rfl (PrintCall.closes_hex messageType) rfl
    hsearch, recordHeartbeat_captures]

/-- A captured decimal number. -/
theorem int_captured (name : String) (n : ℕ) :
    int (textOf [(name, printNumber 10 n)] name) = n := by
  rw [textOf, List.lookup_cons_self, Option.getD_some]
  exact int_printNumber (by omega) (by omega) n

/-- The line of a pattern that is a keyword and a number. -/
theorem parseLine_keyword_number {keyword name : String}
    {record : LogSummary → Captures → LogSummary}
    {more : List (Regex × (LogSummary → Captures → LogSummary))} (k : ℕ)
    (hdrop : patterns.drop k = (seq (lit keyword.toList) (number name), record) :: more)
    (hkeywords : ∀ word ∈ keywords.take k, ∀ text ∈ [keyword.toList, []], ¬word <:+: text)
    (n : ℕ) (hhead : ∀ c ∈ (render [.text keyword, .dec n]).head?, isSpace c = false) :
    summary.parseLine (render [.text keyword, .dec n]) =
      record summary.counted [(name, printNumber 10 n)] :=
  parseLine_found k hkeywords hhead rfl (PrintCall.closes_dec n) hdrop
    (search_keyword_number keyword name n)

theorem parseLine_online (count : ℕ) :
    summary.parseLine (render [.text "online nodes=", .dec count]) =
      summary.counted.record (.online count) := by
  rw [parseLine_keyword_number summary 1 rfl (by decide) count (by rintro c ⟨⟩; rfl)]
  unfold recordOnline
  rw [int_captured]
  rfl

theorem parseLine_failed (length : ℕ) :
    summary.parseLine (render [.text "No valid frame, bytes=", .dec length]) =
      summary.counted.record (.failed length) := by
  rw [parseLine_keyword_number summary 2 rfl (by decide) length (by rintro c ⟨⟩; rfl)]
  unfold recordInvalid
  rw [int_captured]
  rfl

theorem parseLine_queued (sequence : ℕ) :
    summary.parseLine (render [.text "queued command sequence=", .dec sequence]) =
      summary.counted.record (.queued sequence) := by
  rw [parseLine_keyword_number summary 3 rfl (by decide) sequence (by rintro c ⟨⟩; rfl)]
  unfold recordQueued
  rw [int_captured]
  rfl

theorem parseLine_exhausted (sequence : ℕ) :
    summary.parseLine (render [.text "retry exhausted sequence=", .dec sequence]) =
      summary.counted.record (.exhausted sequence) := by
  rw [parseLine_keyword_number summary 6 rfl (by decide) sequence (by rintro c ⟨⟩; rfl)]
  unfold recordExhausted
  rw [int_captured]
  rfl

/-- The text of a send says how it went. -/
theorem keywords_sent : ∀ sent : Bool, ∀ keyword ∈ keywords.take 4,
    ∀ text ∈ ["send sequence=".toList, " attempt=".toList,
      " result=".toList ++ (if sent then "ok" else "bus-error").toList], ¬keyword <:+: text := by
  decide

theorem parseLine_sent (sequence attempts : ℕ) (sent : Bool) :
    summary.parseLine (render [.text "send sequence=", .dec sequence,
      .text " attempt=", .dec attempts,
      .text " result=", .text (if sent then "ok" else "bus-error")]) =
      summary.counted.record
        (.sent sequence ⟨attempts, (if sent then "ok" else "bus-error").toList⟩) := by
  have hne : ∀ sent : Bool, (if sent then "ok" else "bus-error").toList ≠ [] := by
    decide
  have hword : ∀ sent : Bool,
      ((if sent then "ok" else "bus-error").toList.all fun c => !isSpace c) = true := by
    decide
  have hsearch := search_sendRe sequence attempts (hne sent) (hword sent)
  have hsequence : int (printNumber 10 sequence) = sequence :=
    int_printNumber (by omega) (by omega) sequence
  have hattempts : int (printNumber 10 attempts) = attempts :=
    int_printNumber (by omega) (by omega) attempts
  rw [parseLine_found 4 _ (by rintro c ⟨⟩; rfl) rfl (PrintCall.closes_result sent) rfl hsearch]
  · show { summary.counted with
      recognizedLines := summary.recognizedLines + 1
      sendAttempts := summary.sendAttempts.modify (int (printNumber 10 sequence)) []
        (· ++ [SendAttempt.mk (int (printNumber 10 attempts))
          (if sent then "ok" else "bus-error").toList]) } = _
    rw [hsequence, hattempts]
    rfl
  · exact keywords_sent sent

theorem keywords_acknowledged : ∀ unmatched : Bool, ∀ keyword ∈ keywords.take 5,
    ∀ text ∈ ["ack sequence=".toList, " status=".toList,
      " matched=".toList ++ (if unmatched then "no" else "yes").toList], ¬keyword <:+: text := by
  decide

theorem parseLine_acknowledged (sequence status : ℕ) (unmatched : Bool) :
    summary.parseLine (render [.text "ack sequence=", .dec sequence,
      .text " status=", .dec status,
      .text " matched=", .text (if unmatched then "no" else "yes")]) =
      summary.counted.record (.acknowledged ⟨sequence, status, !unmatched⟩) := by
  have hmatched : ∀ unmatched : Bool, (if unmatched then "no" else "yes") = "yes" ∨
      (if unmatched then "no" else "yes") = "no" := by
    decide
  have hyes : ∀ unmatched : Bool,
      decide ((if unmatched then "no" else "yes").toList = "yes".toList) = !unmatched := by
    decide
  have hsequence : int (printNumber 10 sequence) = sequence :=
    int_printNumber (by omega) (by omega) sequence
  have hstatus : int (printNumber 10 status) = status :=
    int_printNumber (by omega) (by omega) status
  rw [parseLine_found 5 _ (by rintro c ⟨⟩; rfl) rfl (PrintCall.closes_matched unmatched) rfl
    (search_ackRe sequence status (hmatched unmatched))]
  · show { summary.counted with
      recognizedLines := summary.recognizedLines + 1
      acknowledgements := summary.acknowledgements ++
        [Acknowledgement.mk (int (printNumber 10 sequence)) (int (printNumber 10 status))
          (decide ((if unmatched then "no" else "yes").toList = "yes".toList))] } = _
    rw [hsequence, hstatus, hyes]
    rfl
  · exact keywords_acknowledged unmatched

/-- The line of a failed read of the multi-node sketch: no pattern knows it. -/
theorem parseLine_failedPoll (address length : ℕ) :
    summary.parseLine (render [.text "address=0x", .hex address,
      .text " invalid bytes=", .dec length]) = summary.counted := by
  have hkeywords : ∀ keyword ∈ keywords,
      ∀ text ∈ ["address=0x".toList, " invalid bytes=".toList, []], ¬keyword <:+: text := by
    decide
  rw [parseLine_unknown _ (by rintro c ⟨⟩; rfl) rfl (PrintCall.closes_dec length)]
  exact hkeywords

theorem parseLine_banner (sketch : ControllerSketch) :
    summary.parseLine (render [.text sketch.banner]) = summary.counted := by
  cases sketch
  all_goals
    exact parseLine_unknown (by decide) (by rintro c ⟨⟩; rfl) rfl (PrintCall.closes_text rfl rfl)

theorem parseLine_refused :
    summary.parseLine (render [.text "unable to queue command"]) = summary.counted :=
  parseLine_unknown (by decide) (by rintro c ⟨⟩; rfl) rfl (PrintCall.closes_text rfl rfl)

end LogSummary

/-- A failed read that the multi-node sketch prints. -/
def ControllerEvent.isFailedPoll : ControllerEvent → Bool
  | .pollNode _ _ decoded => !decoded.ok
  | _ => false

/-- What the summariser finds of an event. -/
def ControllerEvent.found (event : ControllerEvent) : Option LogEvent :=
  if event.isFailedPoll then none else event.logged

/-- The lines that the sketches print, each with what the summariser finds in it. -/
inductive SketchLine : List PrintCall → Option LogEvent → Prop where
  | banner (sketch : ControllerSketch) : SketchLine [.text sketch.banner] none
  | heartbeat (nodeId sequence messageType : ℕ) :
    SketchLine [.text "node=", .dec nodeId, .text " sequence=", .dec sequence,
      .text " type=0x", .hex messageType] (some (.read nodeId sequence messageType))
  | pollNode (address nodeId sequence messageType : ℕ) :
    SketchLine [.text "address=0x", .hex address, .text " node=", .dec nodeId,
      .text " sequence=", .dec sequence, .text " type=0x", .hex messageType]
      (some (.read nodeId sequence messageType))
  | failed (length : ℕ) :
    SketchLine [.text "No valid frame, bytes=", .dec length] (some (.failed length))
  | failedPoll (address length : ℕ) :
    SketchLine [.text "address=0x", .hex address, .text " invalid bytes=", .dec length] none
  | online (count : ℕ) : SketchLine [.text "online nodes=", .dec count] (some (.online count))
  | queued (sequence : ℕ) :
    SketchLine [.text "queued command sequence=", .dec sequence] (some (.queued sequence))
  | refused : SketchLine [.text "unable to queue command"] none
  | sent (sequence attempts : ℕ) (sent : Bool) :
    SketchLine [.text "send sequence=", .dec sequence, .text " attempt=", .dec attempts,
      .text " result=", .text (if sent then "ok" else "bus-error")]
      (some (.sent sequence ⟨attempts, (if sent then "ok" else "bus-error").toList⟩))
  | acknowledged (sequence status : ℕ) (unmatched : Bool) :
    SketchLine [.text "ack sequence=", .dec sequence, .text " status=", .dec status,
      .text " matched=", .text (if unmatched then "no" else "yes")]
      (some (.acknowledged ⟨sequence, status, !unmatched⟩))
  | exhausted (sequence : ℕ) :
    SketchLine [.text "retry exhausted sequence=", .dec sequence] (some (.exhausted sequence))

/-- **An event prints one of these lines.** -/
theorem ControllerEvent.sketchLine {event : ControllerEvent} {calls : List PrintCall}
    (h : event.line = some calls) : SketchLine calls event.found := by
  cases event with
  | ready sketch =>
    obtain rfl := Option.some.inj h
    exact .banner sketch
  | heartbeatRead length decoded =>
    cases hok : decoded.ok with
    | true =>
      simp only [line, found, logged, hok] at h ⊢
      obtain rfl := Option.some.inj h
      exact .heartbeat _ _ _
    | false =>
      simp only [line, found, logged, hok] at h ⊢
      obtain rfl := Option.some.inj h
      exact .failed length
  | pollNode address length decoded =>
    cases hok : decoded.ok with
    | true =>
      simp only [line, found, isFailedPoll, logged, hok] at h ⊢
      obtain rfl := Option.some.inj h
      exact .pollNode _ _ _ _
    | false =>
      simp only [line, found, isFailedPoll, hok] at h ⊢
      obtain rfl := Option.some.inj h
      exact .failedPoll _ _
  | onlineCount count =>
    obtain rfl := Option.some.inj h
    exact .online count
  | enqueueCommand sequence result =>
    cases result with
    | queued =>
      obtain rfl := Option.some.inj h
      exact .queued _
    | full | invalid =>
      obtain rfl := Option.some.inj h
      exact .refused
  | transmitDue decision sent =>
    cases haction : decision.action with
    | none =>
      rw [line, haction] at h
      cases h
    | exhausted =>
      simp only [line, found, logged, haction] at h ⊢
      obtain rfl := Option.some.inj h
      exact .exhausted _
    | send =>
      simp only [line, found, logged, haction] at h ⊢
      obtain rfl := Option.some.inj h
      exact .sent _ _ sent
  | receiveAcknowledgement acknowledgedSequence status resolution =>
    cases resolution with
    | notFound =>
      obtain rfl := Option.some.inj h
      exact .acknowledged _ _ true
    | accepted | rejected =>
      obtain rfl := Option.some.inj h
      exact .acknowledged _ _ false

/-- An event that prints nothing says nothing. -/
theorem ControllerEvent.found_eq_none {event : ControllerEvent} (h : event.line = none) :
    event.found = none := by
  cases event with
  | transmitDue decision sent =>
    cases haction : decision.action with
    | none =>
      simp only [found, logged, haction]
      rfl
    | exhausted | send =>
      rw [line, haction] at h
      cases h
  | heartbeatRead length decoded =>
    rw [line] at h
    split_ifs at h
  | pollNode address length decoded =>
    rw [line] at h
    split_ifs at h
  | enqueueCommand sequence result =>
    rw [line] at h
    split_ifs at h
  | ready | onlineCount | receiveAcknowledgement => cases h

/-- **What is made of a printed line.** -/
theorem SketchLine.parseLine {calls : List PrintCall} {found : Option LogEvent}
    (h : SketchLine calls found) (summary : LogSummary) :
    summary.parseLine (render calls) = found.toList.foldl LogSummary.record summary.counted := by
  cases h with
  | banner sketch => exact summary.parseLine_banner sketch
  | heartbeat nodeId sequence messageType => exact summary.parseLine_heartbeat _ _ _
  | pollNode address nodeId sequence messageType => exact summary.parseLine_pollNode _ _ _ _
  | failed length => exact summary.parseLine_failed length
  | failedPoll address length => exact summary.parseLine_failedPoll address length
  | online count => exact summary.parseLine_online count
  | queued sequence => exact summary.parseLine_queued sequence
  | refused => exact summary.parseLine_refused
  | sent sequence attempts sent => exact summary.parseLine_sent sequence attempts sent
  | acknowledged sequence status unmatched =>
    exact summary.parseLine_acknowledged sequence status unmatched
  | exhausted sequence => exact summary.parseLine_exhausted sequence

/-- No line end is in a printed line. -/
theorem SketchLine.isLineEnd {calls : List PrintCall} {found : Option LogEvent}
    (h : SketchLine calls found) : ∀ c ∈ render calls, isLineEnd c = false := by
  have htext : (skeleton [] calls).all (fun text => text.all fun c => !PicoMesh.isLineEnd c) =
      true := by
    cases h with
    | banner sketch => cases sketch <;> rfl
    | sent sequence attempts sent => cases sent <;> rfl
    | acknowledged sequence status unmatched => cases unmatched <;> rfl
    | heartbeat | pollNode | failed | failedPoll | online | queued | refused | exhausted => rfl
  rw [List.all_eq_true] at htext
  rw [← List.nil_append (render calls)]
  apply forall_mem_render isLineEnd_of_isPrintedDigit
  intro text hmem c hc
  have hall := List.all_eq_true.mp (htext text hmem) c hc
  rwa [Bool.not_eq_true'] at hall

/-! ### The lines of a log -/

/-- **The lines of the output** are the lines that the events print. -/
theorem splitlines_serialOutput (events : List ControllerEvent) :
    splitlines (serialOutput events) = (events.filterMap ControllerEvent.line).map render := by
  induction events with
  | nil => rfl
  | cons event events ih =>
    unfold serialOutput at ih ⊢
    cases hline : event.line with
    | none => rw [List.filterMap_cons_none hline, ih]
    | some calls =>
      rw [List.filterMap_cons_some hline, List.flatMap_cons, List.append_assoc, List.map_cons, ← ih]
      exact splitlines_append (ControllerEvent.sketchLine hline).isLineEnd _

/-! ### What is in a log -/

namespace LogEvent

/-- The events of each heading, with what they say. -/
def read? : LogEvent → Option (ℤ × ℤ × ℤ)
  | .read nodeId sequence messageType => some (nodeId, sequence, messageType)
  | _ => none

def failed? : LogEvent → Option ℤ
  | .failed byteCount => some byteCount
  | _ => none

def online? : LogEvent → Option ℤ
  | .online count => some count
  | _ => none

def queued? : LogEvent → Option ℤ
  | .queued sequence => some sequence
  | _ => none

def sent? : LogEvent → Option (ℤ × SendAttempt)
  | .sent sequence attempt => some (sequence, attempt)
  | _ => none

def acknowledged? : LogEvent → Option Acknowledgement
  | .acknowledged acknowledgement => some acknowledgement
  | _ => none

def exhausted? : LogEvent → Option ℤ
  | .exhausted sequence => some sequence
  | _ => none

end LogEvent

theorem filterMap_concat_none {α β : Type} {f : α → Option β} {a : α} (h : f a = none)
    (l : List α) : (l ++ [a]).filterMap f = l.filterMap f := by
  rw [List.filterMap_append, List.filterMap_cons_none h, List.filterMap_nil, List.append_nil]

theorem filterMap_concat_some {α β : Type} {f : α → Option β} {a : α} {b : β} (h : f a = some b)
    (l : List α) : (l ++ [a]).filterMap f = l.filterMap f ++ [b] := by
  rw [List.filterMap_append, List.filterMap_cons_some h, List.filterMap_nil]

/-- A dictionary that counts. -/
def counts (items : List ℤ) : Dictionary ℤ ℕ :=
  Dictionary.tally id 0 (fun n _ => n + 1) items

theorem counts_concat (items : List ℤ) (item : ℤ) :
    counts (items ++ [item]) = (counts items).modify item 0 (· + 1) :=
  Dictionary.tally_concat items item

theorem getD_counts (items : List ℤ) (item : ℤ) :
    (counts items).getD item 0 = items.count item := by
  rw [counts, Dictionary.getD_tally, List.foldl_add_const, Nat.zero_add, Nat.one_mul,
    List.count_eq_length_filter]
  rfl

/-- What a summary of some events holds. -/
structure LogSummary.Tallies (summary : LogSummary) (events : List LogEvent) : Prop where
  recognizedLines : summary.recognizedLines = events.length
  nodes : summary.nodes = Dictionary.tally Prod.fst NodeSummary.start
    (fun node read => node.observe read.2.1 read.2.2) (events.filterMap LogEvent.read?)
  onlineSamples : summary.onlineSamples = events.filterMap LogEvent.online?
  invalidFrameReads : summary.invalidFrameReads = (events.filterMap LogEvent.failed?).length
  invalidFrameBytes : summary.invalidFrameBytes = counts (events.filterMap LogEvent.failed?)
  queuedCommands : summary.queuedCommands = counts (events.filterMap LogEvent.queued?)
  sendAttempts : summary.sendAttempts = Dictionary.tally Prod.fst []
    (fun attempts sent => attempts ++ [sent.2]) (events.filterMap LogEvent.sent?)
  acknowledgements : summary.acknowledgements = events.filterMap LogEvent.acknowledged?
  retryExhaustions : summary.retryExhaustions = counts (events.filterMap LogEvent.exhausted?)

namespace LogSummary

variable {summary : LogSummary} {events : List LogEvent}

theorem tallies_start : ({} : LogSummary).Tallies [] :=
  ⟨rfl, rfl, rfl, rfl, rfl, rfl, rfl, rfl, rfl⟩

theorem Tallies.counted (h : summary.Tallies events) : summary.counted.Tallies events :=
  ⟨h.1, h.2, h.3, h.4, h.5, h.6, h.7, h.8, h.9⟩

/-- **Each event goes under its own heading**, and the other ones stay as they are. -/
theorem Tallies.record (h : summary.Tallies events) (event : LogEvent) :
    (summary.record event).Tallies (events ++ [event]) := by
  obtain ⟨hlines, hnodes, honline, hreads, hbytes, hqueued, hsent, hacks, hexhausted⟩ := h
  have hone : (summary.record event).recognizedLines = (events ++ [event]).length := by
    rw [List.length_append, ← hlines]
    cases event <;> rfl
  cases event
  all_goals constructor
  any_goals exact hone
  -- the heading of the event
  case read.nodes nodeId sequence messageType =>
    have hread : LogEvent.read? (.read nodeId sequence messageType) =
      some (nodeId, sequence, messageType) := rfl
    rw [filterMap_concat_some hread, Dictionary.tally_concat, ← hnodes]
    rfl
  case failed.invalidFrameReads byteCount =>
    have hfailed : LogEvent.failed? (.failed byteCount) = some byteCount := rfl
    rw [filterMap_concat_some hfailed, List.length_append, ← hreads]
    rfl
  case failed.invalidFrameBytes byteCount =>
    have hfailed : LogEvent.failed? (.failed byteCount) = some byteCount := rfl
    rw [filterMap_concat_some hfailed, counts_concat, ← hbytes]
    rfl
  case online.onlineSamples count =>
    have hcount : LogEvent.online? (.online count) = some count := rfl
    rw [filterMap_concat_some hcount, ← honline]
    rfl
  case queued.queuedCommands sequence =>
    have hsequence : LogEvent.queued? (.queued sequence) = some sequence := rfl
    rw [filterMap_concat_some hsequence, counts_concat, ← hqueued]
    rfl
  case sent.sendAttempts sequence attempt =>
    have hattempt : LogEvent.sent? (.sent sequence attempt) = some (sequence, attempt) := rfl
    rw [filterMap_concat_some hattempt, Dictionary.tally_concat, ← hsent]
    rfl
  case acknowledged.acknowledgements acknowledgement =>
    have hack : LogEvent.acknowledged? (.acknowledged acknowledgement) =
      some acknowledgement := rfl
    rw [filterMap_concat_some hack, ← hacks]
    rfl
  case exhausted.retryExhaustions sequence =>
    have hsequence : LogEvent.exhausted? (.exhausted sequence) = some sequence := rfl
    rw [filterMap_concat_some hsequence, counts_concat, ← hexhausted]
    rfl
  -- the other headings
  all_goals
    rw [filterMap_concat_none]
    · assumption
    · rfl

end LogSummary

/-- **The summary of a log holds what is found in its lines.** -/
theorem tallies_summarize (events : List ControllerEvent) :
    (summarize (serialOutput events)).Tallies (events.filterMap ControllerEvent.found) := by
  unfold summarize parseLines
  rw [splitlines_serialOutput, List.foldl_map]
  induction events using List.reverseRecOn with
  | nil => exact LogSummary.tallies_start
  | append_singleton events event ih =>
    cases hline : event.line with
    | none =>
      rw [filterMap_concat_none hline, filterMap_concat_none (ControllerEvent.found_eq_none hline)]
      exact ih
    | some calls =>
      rw [filterMap_concat_some hline, List.foldl_concat,
        (ControllerEvent.sketchLine hline).parseLine]
      cases hfound : event.found with
      | none =>
        rw [filterMap_concat_none hfound]
        exact ih.counted
      | some found =>
        rw [filterMap_concat_some hfound]
        exact ih.counted.record found

/-! ### Recovery -/

/-- A summary says all that some events say: each is counted once and under its own
heading, with its numbers. -/
structure LogSummary.Recovers (summary : LogSummary) (events : List LogEvent) : Prop where
  recognizedLines : summary.recognizedLines = events.length
  /-- A node has observed its own reads, in their order. -/
  nodes : ∀ nodeId, summary.nodes.getD nodeId .start =
    ((events.filterMap LogEvent.read?).filter fun read => read.1 = nodeId).foldl
      (fun node read => node.observe read.2.1 read.2.2) .start
  frames : summary.nodes.total NodeSummary.frames .start = (events.filterMap LogEvent.read?).length
  onlineSamples : summary.onlineSamples = events.filterMap LogEvent.online?
  invalidFrameReads : summary.invalidFrameReads = (events.filterMap LogEvent.failed?).length
  invalidFrameBytes : ∀ byteCount, summary.invalidFrameBytes.getD byteCount 0 =
    (events.filterMap LogEvent.failed?).count byteCount
  queuedCommands : ∀ sequence, summary.queuedCommands.getD sequence 0 =
    (events.filterMap LogEvent.queued?).count sequence
  /-- The attempts of a command, in their order. -/
  sendAttempts : ∀ sequence, summary.sendAttempts.getD sequence [] =
    ((events.filterMap LogEvent.sent?).filter fun sent => sent.1 = sequence).map Prod.snd
  acknowledgements : summary.acknowledgements = events.filterMap LogEvent.acknowledged?
  retryExhaustions : ∀ sequence, summary.retryExhaustions.getD sequence 0 =
    (events.filterMap LogEvent.exhausted?).count sequence

theorem NodeSummary.frames_observe (node : NodeSummary) (sequence messageType : ℤ) :
    (node.observe sequence messageType).frames = node.frames + 1 := by
  unfold NodeSummary.observe
  dsimp only
  split_ifs <;> rfl

theorem LogSummary.Tallies.recovers {summary : LogSummary} {events : List LogEvent}
    (h : summary.Tallies events) : summary.Recovers events where
  recognizedLines := h.recognizedLines
  nodes nodeId := by rw [h.nodes, Dictionary.getD_tally]
  frames := by
    rw [h.nodes]
    exact Dictionary.total_tally (w := NodeSummary.frames) rfl
      (fun node _ => NodeSummary.frames_observe node _ _) _
  onlineSamples := h.onlineSamples
  invalidFrameReads := h.invalidFrameReads
  invalidFrameBytes byteCount := by rw [h.invalidFrameBytes, getD_counts]
  queuedCommands sequence := by rw [h.queuedCommands, getD_counts]
  sendAttempts sequence := by
    rw [h.sendAttempts, Dictionary.getD_tally, List.foldl_append_eq_append, List.nil_append]
    exact List.map_eq_flatMap.symm
  acknowledgements := h.acknowledgements
  retryExhaustions sequence := by rw [h.retryExhaustions, getD_counts]

theorem ControllerEvent.logged_of_isFailedPoll {event : ControllerEvent}
    (h : event.isFailedPoll = true) : ∃ length : ℤ, event.logged = some (.failed length) := by
  cases event with
  | pollNode address length decoded =>
    have hfailed : ¬decoded.ok = true := Bool.not_eq_true _ ▸ (Bool.not_eq_true' _).mp h
    exact ⟨length, if_neg hfailed⟩
  | _ => exact Bool.noConfusion h

/-- What is not found is what the multi-node sketch prints of failed reads. -/
theorem length_logged (events : List ControllerEvent) :
    (events.filterMap ControllerEvent.logged).length =
      (events.filterMap ControllerEvent.found).length +
        events.countP ControllerEvent.isFailedPoll := by
  induction events with
  | nil => rfl
  | cons event events ih =>
    rw [List.countP_cons]
    by_cases hpoll : event.isFailedPoll = true
    · have hfound : event.found = none := if_pos hpoll
      obtain ⟨length, hlogged⟩ := ControllerEvent.logged_of_isFailedPoll hpoll
      rw [List.filterMap_cons_none hfound, List.filterMap_cons_some hlogged, List.length_cons, ih,
        if_pos hpoll, Nat.add_assoc]
    · have hfound : event.found = event.logged := if_neg hpoll
      rw [List.filterMap_cons, List.filterMap_cons, hfound, if_neg hpoll]
      cases event.logged with
      | none => exact ih
      | some said =>
        rw [List.length_cons, List.length_cons]
        omega

/-- **The log summariser recovers what the sketches print**, whatever the events are
and however their lines are mixed, exactly when the multi-node sketch has printed no
failed read. -/
theorem log_recovery_iff (events : List ControllerEvent) :
    (summarize (serialOutput events)).Recovers (events.filterMap ControllerEvent.logged) ↔
      ∀ event ∈ events, event.isFailedPoll = false := by
  have htallies := tallies_summarize events
  constructor
  · intro hrecovers event hevent
    have hlength := length_logged events
    rw [← hrecovers.recognizedLines, htallies.recognizedLines] at hlength
    have hnone : events.countP ControllerEvent.isFailedPoll = 0 := by omega
    exact Bool.eq_false_iff.mpr (List.countP_eq_zero.mp hnone event hevent)
  · intro hall
    have hfound : events.filterMap ControllerEvent.found =
        events.filterMap ControllerEvent.logged := by
      apply List.filterMap_congr
      intro event hevent
      rw [ControllerEvent.found, hall event hevent]
      rfl
    rw [hfound] at htallies
    exact htallies.recovers

/-- One failed read of the multi-node sketch: the line is not recognised and the read
is not counted. -/
theorem failed_poll_not_recovered :
    ¬(summarize (serialOutput [.pollNode 0x42 0 { error := .tooShort }])).Recovers
      ([ControllerEvent.pollNode 0x42 0 { error := .tooShort }].filterMap
        ControllerEvent.logged) := by
  intro hrecovers
  exact absurd hrecovers.invalidFrameReads (by decide)

end PicoMesh
