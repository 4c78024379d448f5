import PicoMesh.Equiv.LogRecovery
import PicoMesh.LogReport

/-!
# The report says what the summary holds

The keys of a dictionary are printed apart from each other, so an entry is found in
the report under its key (`get?_dictOf`) and the report as data determines the
summary (`toDict_injective`).
-/

namespace PicoMesh

open Json

/-! ### Keys -/

theorem str_injective : Function.Injective str := intText_injective

/-- Zeros in front do not change a number. -/
theorem int_replicate_zero (n : ℕ) (text : List Char) (base : ℕ) :
    int (List.replicate n '0' ++ text) base = int text base := by
  induction n with
  | zero => rfl
  | succ n ih =>
    rw [← ih, List.replicate_succ, List.cons_append]
    unfold int
    rw [List.foldl_cons]
    rfl

theorem formatHex_injective : Function.Injective formatHex := by
  -- no printed digit is a sign
  have hsign : ∀ m n : ℕ, formatHex (.ofNat m) ≠ formatHex (.negSucc n) := by
    intro m n h
    have hmem : '-' ∈ formatHex (.ofNat m) := h ▸ List.mem_cons_self
    rcases List.mem_append.mp hmem with hzero | hdigit
    · exact absurd (List.eq_of_mem_replicate hzero) (by decide)
    · exact absurd (isPrintedDigit_hex hdigit) (by decide)
  have hread : ∀ n : ℕ, int (printNumber 16 n) 16 = n := int_printNumber (by omega) (by omega)
  intro m n h
  cases m with
  | ofNat m =>
    cases n with
    | ofNat n =>
      have hvalue := congrArg (int · 16) h
      simp only [formatHex, int_replicate_zero, hread] at hvalue
      exact hvalue
    | negSucc n => exact absurd h (hsign m n)
  | negSucc m =>
    cases n with
    | ofNat n => exact absurd h.symm (hsign n m)
    | negSucc n =>
      have hvalue := congrArg (int · 16) (List.cons.inj h).2
      simp only [hread] at hvalue
      omega

theorem messageTypeText_injective : Function.Injective messageTypeText := by
  intro m n h
  exact formatHex_injective (List.append_cancel_left h)

/-! ### Dictionaries -/

theorem lookup_setItem (key j : List Char) (value : Json) (members : List (List Char × Json)) :
    (setItem key value members).lookup j = if j = key then some value else members.lookup j := by
  induction members with
  | nil => exact lookup_cons_eq_ite key j value []
  | cons member members ih =>
    rw [setItem]
    split_ifs with hkey hj hj
    · rw [hkey, lookup_cons_eq_ite, if_pos hj]
    · rw [lookup_cons_eq_ite, lookup_cons_eq_ite, hkey, if_neg hj, if_neg hj]
    · have hne : j ≠ member.1 := fun heq => hkey (heq.symm.trans hj)
      rw [lookup_cons_eq_ite, if_neg hne, ih, if_pos hj]
    · rw [lookup_cons_eq_ite, lookup_cons_eq_ite, ih, if_neg hj]

section Dictionaries

variable {α : Type} {key : ℤ → List Char} {value : α → Json}

/-- **An entry is found under its key.** -/
theorem get?_dictOf (hkey : Function.Injective key) (d : Dictionary ℤ α) (k : ℤ) :
    (dictOf key value d).get? (key k) = (d.lookup k).map value := by
  have hfold : ∀ (keys : List ℤ), keys.Nodup → ∀ members : List (List Char × Json),
      ((keys.filterMap fun key => (d.lookup key).map fun value => (key, value)).foldl
        (fun members item => setItem (key item.1) (value item.2) members) members).lookup (key k) =
      if k ∈ keys then ((d.lookup k).map value).or (members.lookup (key k))
      else members.lookup (key k) := by
    intro keys
    induction keys with
    | nil => exact fun _ members => rfl
    | cons j keys ih =>
      intro hnodup members
      obtain ⟨hj, hkeys⟩ := List.nodup_cons.mp hnodup
      cases hlookup : d.lookup j with
      | none =>
        rw [List.filterMap_cons_none (by rw [hlookup]; rfl), ih hkeys]
        by_cases hkj : k = j
        · rw [hkj, if_neg hj, if_pos List.mem_cons_self, hlookup]
          rfl
        · simp [hkj]
      | some a =>
        rw [List.filterMap_cons_some (by rw [hlookup]; rfl), List.foldl_cons, ih hkeys,
          lookup_setItem]
        by_cases hkj : k = j
        · rw [hkj, if_neg hj, if_pos List.mem_cons_self, if_pos rfl, hlookup]
          rfl
        · simp [hkj, hkey.eq_iff]
  refine (hfold d.keys.sort (d.keys.sort_nodup _) []).trans ?_
  split_ifs with hmem
  · rw [List.lookup_nil, Option.or_none]
  · rw [Finset.mem_sort, Finmap.mem_keys] at hmem
    rw [Finmap.lookup_eq_none.mpr hmem]
    rfl

/-- A dictionary is determined by what its values determine. -/
theorem dictOf_injective (hkey : Function.Injective key)
    (hvalue : Function.Injective fun a => (value a).sortKeys) :
    Function.Injective fun d => (dictOf key value d).sortKeys := by
  intro d d' h
  apply Finmap.ext_lookup
  intro k
  have hmember := congrArg (Json.get? (key k)) h
  dsimp only at hmember
  rw [get?_sortKeys, get?_sortKeys, get?_dictOf hkey, get?_dictOf hkey, Option.map_map,
    Option.map_map] at hmember
  exact Option.map_injective hvalue hmember

/-- So is a list. -/
theorem arr_injective (hvalue : Function.Injective fun a => (value a).sortKeys) :
    Function.Injective fun items : List α => (arr (items.map value)).sortKeys := by
  intro items items' h
  dsimp only at h
  rw [sortKeys_arr, sortKeys_arr, List.map_map, List.map_map] at h
  exact List.map_injective_iff.mpr hvalue (Json.arr.inj h)

end Dictionaries

/-! ### Records -/

/-- The members under a key of two values that are the same when sorted. -/
theorem member_eq {value value' a a' : Json} (key : String)
    (h : value.sortKeys = value'.sortKeys) (ha : value.get? key.toList = some a)
    (ha' : value'.get? key.toList = some a') : a.sortKeys = a'.sortKeys := by
  have hmember := congrArg (Json.get? key.toList) h
  rw [get?_sortKeys, get?_sortKeys, ha, ha'] at hmember
  exact Option.some.inj hmember

theorem countInt_injective : Function.Injective fun n => (countInt n).sortKeys := by
  intro m n h
  exact Int.ofNat.inj (Json.int.inj h)

theorem int_injective : Function.Injective fun n => (Json.int n).sortKeys := by
  intro m n h
  exact Json.int.inj h

theorem optionalInt_injective : Function.Injective fun n => (optionalInt n).sortKeys := by
  intro m n h
  cases m <;> cases n
  · rfl
  · cases h
  · cases h
  · exact congrArg some (Json.int.inj h)

theorem NodeSummary.toDict_injective :
    Function.Injective fun summary : NodeSummary => summary.toDict.sortKeys := by
  intro summary summary' h
  have hframes := member_eq "frames" h rfl rfl
  have hfirst := member_eq "first_sequence" h rfl rfl
  have hlast := member_eq "last_sequence" h rfl rfl
  have hduplicates := member_eq "duplicates" h rfl rfl
  have hforward := member_eq "forward_steps" h rfl rfl
  have hwraparounds := member_eq "wraparounds" h rfl rfl
  have hstale := member_eq "stale_or_backward" h rfl rfl
  have htypes := member_eq "message_types" h rfl rfl
  have htypes := dictOf_injective messageTypeText_injective countInt_injective htypes
  cases summary
  cases summary'
  congr 1
  · exact countInt_injective hframes
  · exact optionalInt_injective hfirst
  · exact optionalInt_injective hlast
  · exact countInt_injective hduplicates
  · exact countInt_injective hforward
  · exact countInt_injective hwraparounds
  · exact countInt_injective hstale

theorem SendAttempt.toDict_injective :
    Function.Injective fun attempt : SendAttempt => attempt.toDict.sortKeys := by
  intro attempt attempt' h
  have hattempt := member_eq "attempt" h rfl rfl
  have hresult := member_eq "result" h rfl rfl
  cases attempt
  cases attempt'
  congr 1
  · exact Json.int.inj hattempt
  · exact Json.str.inj hresult

theorem Acknowledgement.toDict_injective :
    Function.Injective fun acknowledgement : Acknowledgement =>
      acknowledgement.toDict.sortKeys := by
  intro acknowledgement acknowledgement' h
  have hsequence := member_eq "sequence" h rfl rfl
  have hstatus := member_eq "status" h rfl rfl
  have hmatched := member_eq "matched" h rfl rfl
  cases acknowledgement
  cases acknowledgement'
  congr 1
  · exact Json.int.inj hsequence
  · exact Json.int.inj hstatus
  · exact Json.bool.inj hmatched

/-- A transition is a pair of numbers. -/
theorem transition_injective :
    Function.Injective fun item : ℤ × ℤ => (arr [.int item.1, .int item.2]).sortKeys := by
  intro item item' h
  obtain ⟨hbefore, htail⟩ := List.cons.inj (Json.arr.inj h)
  obtain ⟨hafter, -⟩ := List.cons.inj htail
  exact Prod.ext (Json.int.inj hbefore) (Json.int.inj hafter)

/-- **The report as data determines the summary.** -/
theorem LogSummary.toDict_injective :
    Function.Injective fun summary : LogSummary => summary.toDict.sortKeys := by
  intro summary summary' h
  have htotal := member_eq "total_lines" h rfl rfl
  have hrecognized := member_eq "recognized_lines" h rfl rfl
  have hnodes := member_eq "nodes" h rfl rfl
  have hsamples := member_eq "online_samples" h rfl rfl
  have htransitions := member_eq "online_transitions" h rfl rfl
  have hreads := member_eq "invalid_frame_reads" h rfl rfl
  have hbytes := member_eq "invalid_frame_bytes" h rfl rfl
  have hqueued := member_eq "queued_commands" h rfl rfl
  have hattempts := member_eq "send_attempts" h rfl rfl
  have hacks := member_eq "acknowledgements" h rfl rfl
  have hexhausted := member_eq "retry_exhaustions" h rfl rfl
  cases summary
  cases summary'
  congr 1
  · exact countInt_injective htotal
  · exact countInt_injective hrecognized
  · exact dictOf_injective str_injective NodeSummary.toDict_injective hnodes
  · exact arr_injective int_injective hsamples
  · exact arr_injective transition_injective htransitions
  · exact countInt_injective hreads
  · exact dictOf_injective str_injective countInt_injective hbytes
  · exact dictOf_injective str_injective countInt_injective hqueued
  · exact dictOf_injective str_injective (arr_injective SendAttempt.toDict_injective) hattempts
  · exact arr_injective Acknowledgement.toDict_injective hacks
  · exact dictOf_injective str_injective countInt_injective hexhausted

/-- Two reports have the same text exactly when they are of the same summary. -/
theorem dumps_toDict_inj {summary summary' : LogSummary} :
    summary.toDict.dumps = summary'.toDict.dumps ↔ summary = summary' :=
  (dumps_eq_iff _ _).trans LogSummary.toDict_injective.eq_iff

/-! ### Sums -/

/-- What the report adds up. -/
theorem sumValues_eq_total {α : Type} (weight : α → ℕ) (default : α) (d : Dictionary ℤ α) :
    sumValues weight d = d.total weight default := by
  have hitems : sortedItems d = d.keys.sort.map fun key => (key, d.getD key default) := by
    rw [← List.filterMap_eq_map]
    apply List.filterMap_congr
    intro key hkey
    rw [Finset.mem_sort, Finmap.mem_keys, ← Finmap.lookup_isSome] at hkey
    obtain ⟨value, hvalue⟩ := Option.isSome_iff_exists.mp hkey
    show _ = some (key, (d.lookup key).getD default)
    rw [hvalue]
    rfl
  rw [sumValues, hitems, List.map_map, Dictionary.total, Finset.sum,
    ← Finset.sort_eq d.keys (· ≤ ·), Multiset.map_coe, Multiset.sum_coe]
  rfl

theorem sumValues_empty {α : Type} (weight : α → ℕ) :
    sumValues weight (∅ : Dictionary ℤ α) = 0 := by
  rw [sumValues, sortedItems, Finmap.keys_empty, Finset.sort_empty]
  rfl

/-- A changed value counts for the sum by its own weight. -/
theorem sumValues_modify {α : Type} (weight : α → ℕ) (default : α) (hzero : weight default = 0)
    (d : Dictionary ℤ α) (k : ℤ) (act : α → α)
    (hact : weight (act (d.getD k default)) = weight (d.getD k default) + 1) :
    sumValues weight (d.modify k default act) = sumValues weight d + 1 := by
  have htotal := Dictionary.total_modify hzero d k act
  rw [sumValues_eq_total weight default, sumValues_eq_total weight default]
  omega

/-! ### One node -/

/-- What the figures of a node have to do with each other: each frame is the first
one or judged by its distance, each has a type, and the last value is as many steps
of 1 to 127 ahead of the first one as there are steps forward. -/
structure NodeSummary.Balanced (node : NodeSummary) : Prop where
  frames : node.frames = 1 + node.duplicates + node.forwardSteps + node.staleOrBackward
  types : sumValues id node.messageTypes = node.frames
  sequences : ∃ first last : ℤ, node.firstSequence = some first ∧ node.lastSequence = some last ∧
    0 ≤ first ∧ first < 256 ∧ 0 ≤ last ∧ last < 256 ∧
    first + node.forwardSteps ≤ last + 256 * node.wraparounds ∧
    last + 256 * node.wraparounds ≤ first + 127 * node.forwardSteps

namespace NodeSummary

variable {node : NodeSummary}

theorem types_modify (node : NodeSummary) (messageType : ℤ) :
    sumValues id (node.messageTypes.modify messageType 0 (· + 1)) =
      sumValues id node.messageTypes + 1 :=
  sumValues_modify id 0 rfl _ _ (· + 1) rfl

/-- The first frame. -/
theorem balanced_observe_start (sequence messageType : ℤ) :
    (NodeSummary.start.observe sequence messageType).Balanced := by
  have hlow := Int.emod_nonneg sequence (show (256 : ℤ) ≠ 0 by omega)
  have hhigh := Int.emod_lt_of_pos sequence (show (0 : ℤ) < 256 by omega)
  constructor
  case frames => rfl
  case types =>
    refine (types_modify .start messageType).trans ?_
    exact congrArg (· + 1) (sumValues_empty id)
  case sequences =>
    refine ⟨sequence % 256, sequence % 256, rfl, rfl, hlow, hhigh, hlow, hhigh, ?_, ?_⟩
    · show _ + ((0 : ℕ) : ℤ) ≤ _ + 256 * ((0 : ℕ) : ℤ)
      omega
    · show _ + 256 * ((0 : ℕ) : ℤ) ≤ _ + 127 * ((0 : ℕ) : ℤ)
      omega

/-- **Each later frame keeps the balance.** -/
theorem Balanced.observe (h : node.Balanced) (sequence messageType : ℤ) :
    (node.observe sequence messageType).Balanced := by
  obtain ⟨hframes, htypes, first, last, hfirst, hlast, hfirst0, hfirst1, hlast0, hlast1, hlow,
    hhigh⟩ := h
  have hcount := types_modify node messageType
  have hsome : node.firstSequence.isSome = true := Option.isSome_of_eq_some hfirst
  have hget : node.lastSequence.get (node.asserted hsome) = last := Option.get_of_eq_some _ hlast
  unfold NodeSummary.observe
  simp only [dif_pos hsome, hget]
  split_ifs with hzero hhalf hwrap
  · refine ⟨?_, ?_, first, last, hfirst, hlast, hfirst0, hfirst1, hlast0, hlast1, hlow, hhigh⟩
    · simp only
      omega
    · simp only
      omega
  · refine ⟨?_, ?_, first, sequence % 256, hfirst, rfl, hfirst0, hfirst1, by omega, by omega, ?_,
      ?_⟩
    all_goals
      simp only
      push_cast
      omega
  · refine ⟨?_, ?_, first, sequence % 256, hfirst, rfl, hfirst0, hfirst1, by omega, by omega, ?_,
      ?_⟩
    all_goals
      simp only
      push_cast
      omega
  · refine ⟨?_, ?_, first, last, hfirst, hlast, hfirst0, hfirst1, hlast0, hlast1, hlow, hhigh⟩
    · simp only
      omega
    · simp only
      omega

end NodeSummary

/-! ### The whole log -/

/-- The neighbours in a list that differ. -/
def changes (samples : List ℤ) : List (ℤ × ℤ) :=
  (samples.zip samples.tail).filter fun pair => pair.1 ≠ pair.2

theorem changes_concat (samples : List ℤ) (last count : ℤ) :
    changes (samples ++ [last] ++ [count]) =
      changes (samples ++ [last]) ++ if last ≠ count then [(last, count)] else [] := by
  have hzip : (samples ++ [last] ++ [count]).zip (samples ++ [last] ++ [count]).tail =
      (samples ++ [last]).zip (samples ++ [last]).tail ++ [(last, count)] := by
    induction samples with
    | nil => rfl
    | cons sample samples ih =>
      cases samples with
      | nil => rfl
      | cons next samples => exact congrArg ((sample, next) :: ·) ih
  unfold changes
  rw [hzip, List.filter_append]
  congr 1
  split_ifs with hne
  · exact List.filter_cons_of_pos (decide_eq_true hne)
  · exact List.filter_cons_of_neg (by simpa using hne)

/-- What the figures of a report have to do with each other: each recognised line is
counted under one heading, and each heading adds up. -/
structure LogSummary.Balanced (summary : LogSummary) : Prop where
  recognizedLines : summary.recognizedLines =
    sumValues NodeSummary.frames summary.nodes + summary.onlineSamples.length +
      summary.invalidFrameReads + sumValues id summary.queuedCommands +
      sumValues List.length summary.sendAttempts + summary.acknowledgements.length +
      sumValues id summary.retryExhaustions
  invalidFrameBytes : sumValues id summary.invalidFrameBytes = summary.invalidFrameReads
  onlineTransitions : summary.onlineTransitions = changes summary.onlineSamples
  nodes : ∀ nodeId node, summary.nodes.lookup nodeId = some node → node.Balanced

namespace LogSummary

variable {summary : LogSummary}

theorem Balanced.counted (h : summary.Balanced) : summary.counted.Balanced :=
  ⟨h.1, h.2, h.3, h.4⟩

/-- A frame of a node leaves all nodes balanced. -/
theorem Balanced.read (h : summary.Balanced) (nodeId sequence messageType : ℤ) :
    ∀ k node, (summary.nodes.modify nodeId .start (·.observe sequence messageType)).lookup k =
      some node → node.Balanced := by
  intro k node hnode
  by_cases hk : k = nodeId
  · rw [hk, Dictionary.modify, Finmap.lookup_insert] at hnode
    obtain rfl := Option.some.inj hnode
    unfold Dictionary.getD
    cases hlookup : summary.nodes.lookup nodeId with
    | none => exact NodeSummary.balanced_observe_start sequence messageType
    | some old => exact (h.nodes nodeId old hlookup).observe sequence messageType
  · rw [Dictionary.modify, Finmap.lookup_insert_of_ne _ hk] at hnode
    exact h.nodes k node hnode

/-- A sample leaves the transitions the changes between samples. -/
theorem Balanced.online (h : summary.Balanced) (count : ℤ) :
    (summary.observeOnlineCount count).onlineTransitions =
      changes (summary.onlineSamples ++ [count]) := by
  unfold observeOnlineCount
  dsimp only
  rcases List.eq_nil_or_concat summary.onlineSamples with hnil | ⟨samples, last, hsamples⟩
  · rw [h.onlineTransitions, hnil]
    rfl
  · rw [List.concat_eq_append] at hsamples
    rw [h.onlineTransitions, hsamples, changes_concat, List.getLast?_concat]
    dsimp only
    split_ifs
    · rfl
    · rw [List.append_nil]

/-- **Recording an event keeps the balance.** -/
theorem Balanced.record (h : summary.Balanced) (event : LogEvent) :
    (summary.record event).Balanced := by
  obtain ⟨hlines, hbytes, htransitions, hnodes⟩ := id h
  cases event
  all_goals constructor
  -- the heading that counts
  case read.recognizedLines nodeId sequence messageType =>
    have hsum := sumValues_modify NodeSummary.frames .start rfl summary.nodes nodeId
      (·.observe sequence messageType)
      (NodeSummary.frames_observe (summary.nodes.getD nodeId .start) sequence messageType)
    simp only [LogSummary.record]
    omega
  case failed.recognizedLines byteCount =>
    simp only [LogSummary.record]
    omega
  case online.recognizedLines count =>
    simp only [LogSummary.record, observeOnlineCount, List.length_append, List.length_singleton]
    omega
  case queued.recognizedLines sequence =>
    have hsum := sumValues_modify id 0 rfl summary.queuedCommands sequence (· + 1) rfl
    simp only [LogSummary.record]
    omega
  case sent.recognizedLines sequence attempt =>
    have hsum := sumValues_modify List.length [] rfl summary.sendAttempts sequence
      (· ++ [attempt]) List.length_append
    simp only [LogSummary.record]
    omega
  case acknowledged.recognizedLines acknowledgement =>
    simp only [LogSummary.record, List.length_append, List.length_singleton]
    omega
  case exhausted.recognizedLines sequence =>
    have hsum := sumValues_modify id 0 rfl summary.retryExhaustions sequence (· + 1) rfl
    simp only [LogSummary.record]
    omega
  -- the heading's own books
  case read.nodes nodeId sequence messageType => exact h.read nodeId sequence messageType
  case failed.invalidFrameBytes byteCount =>
    have hsum := sumValues_modify id 0 rfl summary.invalidFrameBytes byteCount (· + 1) rfl
    simp only [LogSummary.record]
    omega
  case online.onlineTransitions count => exact h.online count
  all_goals assumption

/-! ### Line by line -/

end LogSummary

/-! ### The program -/

/-- The output of a JSON report. -/
def jsonOutput (summary : LogSummary) : String :=
  if summary.recognizedLines = 0 then "" else String.ofList summary.toDict.dumps ++ "\n"

theorem stdout_json (log : String) (text : List Char) :
    (summarizeMain log (.ok text) true).map ProgramResult.stdout =
      (parseLines? (splitlines text)).map jsonOutput := by
  unfold summarizeMain
  dsimp only
  cases parseLines? (splitlines text) with
  | none => rfl
  | some summary =>
    simp only [if_true, Option.bind_eq_bind, Option.bind_some, Option.map_some, jsonOutput]
    split_ifs <;> rfl

/-- The text of a report can be read off the output. -/
theorem toList_jsonOutput {summary : LogSummary} (h : summary.recognizedLines ≠ 0) :
    (jsonOutput summary).toList = summary.toDict.dumps ++ ['\n'] := by
  rw [jsonOutput, if_neg h, String.toList_append, String.toList_ofList]
  rfl

theorem jsonOutput_eq_iff (summary summary' : LogSummary) :
    jsonOutput summary = jsonOutput summary' ↔
      summary = summary' ∨ summary.recognizedLines = 0 ∧ summary'.recognizedLines = 0 := by
  -- a report is not empty
  have hne : ∀ {summary summary' : LogSummary}, summary.recognizedLines = 0 →
      jsonOutput summary = jsonOutput summary' → summary'.recognizedLines = 0 := by
    intro summary summary' hzero h
    by_contra hsome
    have hchars := congrArg String.toList h
    rw [toList_jsonOutput hsome, jsonOutput, if_pos hzero] at hchars
    exact List.append_ne_nil_of_right_ne_nil _ (List.cons_ne_nil _ _) hchars.symm
  constructor
  · intro h
    by_cases hzero : summary.recognizedLines = 0
    · exact .inr ⟨hzero, hne hzero h⟩
    · have hzero' : summary'.recognizedLines ≠ 0 := fun hnone => hzero (hne hnone h.symm)
      have hchars := congrArg String.toList h
      rw [toList_jsonOutput hzero, toList_jsonOutput hzero'] at hchars
      exact .inl (dumps_toDict_inj.mp (List.append_cancel_right hchars))
  · rintro (heq | ⟨hzero, hzero'⟩)
    · rw [heq]
    · rw [jsonOutput, jsonOutput, if_pos hzero, if_pos hzero']

/-- **The JSON report loses nothing**: two files get the same output, or an error each, exactly
when `parse_lines` makes the same of both, or nothing is recognised in either. -/
theorem json_report_lossless (log log' : String) (text text' : List Char) :
    (summarizeMain log (.ok text) true).map ProgramResult.stdout =
        (summarizeMain log' (.ok text') true).map ProgramResult.stdout ↔
      parseLines? (splitlines text) = parseLines? (splitlines text') ∨
        ∃ summary ∈ parseLines? (splitlines text), ∃ summary' ∈ parseLines? (splitlines text'),
          summary.recognizedLines = 0 ∧ summary'.recognizedLines = 0 := by
  rw [stdout_json, stdout_json]
  cases parseLines? (splitlines text) with
  | none => cases parseLines? (splitlines text') <;> simp
  | some summary =>
    cases parseLines? (splitlines text') with
    | none => simp
    | some summary' => simpa using jsonOutput_eq_iff summary summary'

end PicoMesh
