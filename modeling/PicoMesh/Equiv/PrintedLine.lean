import Mathlib.Data.Nat.Digits.Defs
import Mathlib.Tactic.IntervalCases
import PicoMesh.ControllerOutput
import PicoMesh.SerialLog

/-!
# Printed lines as the log summariser reads them

A printed line is text with numbers in between.  A number is read back as it was
printed (`int_printNumber`), and a pattern's keyword can only be in the text,
whatever the numbers are (`infix_skeleton`), so which pattern is found in a line
is settled by the text alone (`LogSummary.parseLine_found`,
`LogSummary.parseLine_unknown`).
-/

namespace PicoMesh

open Regex

/-! ### Numbers -/

/-- The characters of printed numbers. -/
def isPrintedDigit (c : Char) : Bool := c.isDigit || decide ('A' ≤ c ∧ c ≤ 'F')

theorem digitValue_printDigit {d : ℕ} (h : d < 16) : digitValue (printDigit d) = d := by
  interval_cases d <;> decide

theorem isPrintedDigit_printDigit {d : ℕ} (h : d < 16) : isPrintedDigit (printDigit d) = true := by
  interval_cases d <;> decide

theorem isDecimal_printDigit {d : ℕ} (h : d < 10) : isDecimal (printDigit d) = true := by
  interval_cases d <;> decide

theorem printNumber_ne_nil (base n : ℕ) : printNumber base n ≠ [] := by
  unfold printNumber
  split_ifs with hzero
  · exact List.cons_ne_nil _ _
  · rw [ne_eq, List.reverse_eq_nil_iff, List.map_eq_nil_iff, Nat.digits_eq_nil_iff_eq_zero]
    exact hzero

/-- A character of a printed number is the digit of a value below the base. -/
theorem exists_of_mem_printNumber {base n : ℕ} (hbase : 1 < base) {c : Char}
    (h : c ∈ printNumber base n) : ∃ d < base, c = printDigit d := by
  unfold printNumber at h
  split_ifs at h with hzero
  · exact ⟨0, by omega, List.mem_singleton.mp h⟩
  · obtain ⟨d, hd, rfl⟩ := List.mem_map.mp (List.mem_reverse.mp h)
    exact ⟨d, Nat.digits_lt_base hbase hd, rfl⟩

theorem isDecimal_dec {n : ℕ} {c : Char} (h : c ∈ printNumber 10 n) : isDecimal c = true := by
  obtain ⟨d, hd, rfl⟩ := exists_of_mem_printNumber (by omega) h
  exact isDecimal_printDigit hd

theorem isPrintedDigit_dec {n : ℕ} {c : Char} (h : c ∈ printNumber 10 n) :
    isPrintedDigit c = true := by
  obtain ⟨d, hd, rfl⟩ := exists_of_mem_printNumber (by omega) h
  exact isPrintedDigit_printDigit (by omega)

theorem isPrintedDigit_hex {n : ℕ} {c : Char} (h : c ∈ printNumber 16 n) :
    isPrintedDigit c = true := by
  obtain ⟨d, hd, rfl⟩ := exists_of_mem_printNumber (by omega) h
  exact isPrintedDigit_printDigit hd

theorem isHexDigit_hex {n : ℕ} {c : Char} (h : c ∈ printNumber 16 n) : isHexDigit c = true := by
  unfold isHexDigit
  rw [show (c.isDigit || decide ('A' ≤ c ∧ c ≤ 'F')) = true from isPrintedDigit_hex h,
    Bool.true_or]

/-- **A printed number is read back.** -/
theorem int_printNumber {base : ℕ} (hbase : 1 < base) (hsixteen : base ≤ 16) (n : ℕ) :
    int (printNumber base n) base = n := by
  unfold int printNumber
  congr 1
  split_ifs with hzero
  · rw [hzero]
    rfl
  · rw [List.foldl_reverse, List.foldr_map]
    have hdigits : ∀ digits : List ℕ, (∀ d ∈ digits, d < 16) →
        digits.foldr (fun d n => base * n + digitValue (printDigit d)) 0 =
          Nat.ofDigits base digits := by
      intro digits hall
      induction digits with
      | nil => rfl
      | cons d digits ih =>
        rw [List.foldr_cons, ih fun e he => hall e (List.mem_cons_of_mem _ he),
          digitValue_printDigit (hall d List.mem_cons_self), Nat.ofDigits_cons, Nat.add_comm]
    rw [hdigits _ fun d hd => (Nat.digits_lt_base hbase hd).trans_le hsixteen,
      Nat.ofDigits_digits]

/-! ### The text of a line -/

/-- The text before, between and after the numbers of a line. -/
def skeleton (before : List Char) : List PrintCall → List (List Char)
  | [] => [before]
  | .text s :: calls => skeleton (before ++ s.toList) calls
  | .dec _ :: calls => before :: skeleton [] calls
  | .hex _ :: calls => before :: skeleton [] calls

theorem render_cons (call : PrintCall) (calls : List PrintCall) :
    render (call :: calls) = call.output ++ render calls := List.flatMap_cons

/-- **A keyword without printed digits is in the text of the line.** -/
theorem infix_skeleton {keyword : List Char} (hkeyword : ∀ c ∈ keyword, isPrintedDigit c = false)
    {calls : List PrintCall} {before : List Char} (h : keyword <:+: before ++ render calls) :
    ∃ text ∈ skeleton before calls, keyword <:+: text := by
  induction calls generalizing before with
  | nil =>
    rw [render, List.flatMap_nil, List.append_nil] at h
    exact ⟨before, List.mem_cons_self, h⟩
  | cons call calls ih =>
    rw [render_cons] at h
    -- no character of a number is in the keyword
    have hnumber : ∀ {word : List Char}, word ≠ [] → (∀ c ∈ word, isPrintedDigit c = true) →
        keyword <:+: before ++ (word ++ render calls) →
          ∃ text ∈ before :: skeleton [] calls, keyword <:+: text := by
      intro word hne hword hinfix
      have hapart : ∀ c ∈ word, c ∉ keyword := by
        intro c hc hmem
        exact absurd (hword c hc) (Bool.eq_false_iff.mp (hkeyword c hmem))
      rcases infix_append_append hne hapart hinfix with hbefore | hafter
      · exact ⟨before, List.mem_cons_self, hbefore⟩
      · obtain ⟨text, htext, hinfix⟩ := ih (List.nil_append (render calls) ▸ hafter)
        exact ⟨text, List.mem_cons_of_mem _ htext, hinfix⟩
    cases call with
    | text s =>
      rw [← List.append_assoc] at h
      exact ih h
    | dec n => exact hnumber (printNumber_ne_nil 10 n) (fun _ => isPrintedDigit_dec) h
    | hex n => exact hnumber (printNumber_ne_nil 16 n) (fun _ => isPrintedDigit_hex) h

/-- What holds of the characters of the text and of printed digits holds of the
characters of the line. -/
theorem forall_mem_render {P : Char → Prop} (hdigit : ∀ c, isPrintedDigit c = true → P c)
    {calls : List PrintCall} {before : List Char}
    (h : ∀ text ∈ skeleton before calls, ∀ c ∈ text, P c) : ∀ c ∈ before ++ render calls, P c := by
  induction calls generalizing before with
  | nil =>
    rw [render, List.flatMap_nil, List.append_nil]
    exact h before List.mem_cons_self
  | cons call calls ih =>
    rw [render_cons]
    have hnumber : ∀ {word : List Char}, (∀ c ∈ word, isPrintedDigit c = true) →
        (∀ text ∈ before :: skeleton [] calls, ∀ c ∈ text, P c) →
          ∀ c ∈ before ++ (word ++ render calls), P c := by
      intro word hword hall c hc
      rcases List.mem_append.mp hc with hbefore | hrest
      · exact hall before List.mem_cons_self c hbefore
      rcases List.mem_append.mp hrest with hdigits | hafter
      · exact hdigit c (hword c hdigits)
      · have hlater : ∀ text ∈ skeleton [] calls, ∀ c ∈ text, P c :=
          fun text htext => hall text (List.mem_cons_of_mem _ htext)
        exact ih hlater c hafter
    cases call with
    | text s =>
      rw [← List.append_assoc]
      exact ih h
    | dec n => exact hnumber (fun _ => isPrintedDigit_dec) h
    | hex n => exact hnumber (fun _ => isPrintedDigit_hex) h

/-! ### Lines -/

/-- The lines of a text are what stands before its line ends. -/
theorem splitlines_append {line : List Char} (h : ∀ c ∈ line, isLineEnd c = false)
    (text : List Char) : splitlines (line ++ '\r' :: '\n' :: text) = line :: splitlines text := by
  induction line with
  | nil => rfl
  | cons c line ih =>
    have hc := h c List.mem_cons_self
    have hreturn : c ≠ '\r' := by
      rintro rfl
      cases hc
    rw [List.cons_append, splitlines, hc, ih fun d hd => h d (List.mem_cons_of_mem _ hd)]
    · rfl
    · intro rest hrest
      exact absurd hrest hreturn

/-- A line that neither begins nor ends with a space is not stripped. -/
theorem strip_eq_self {line : List Char} (hhead : ∀ c ∈ line.head?, isSpace c = false)
    (hlast : ∀ c ∈ line.getLast?, isSpace c = false) : strip line = line := by
  have hdrop : ∀ text : List Char, (∀ c ∈ text.head?, isSpace c = false) →
      text.dropWhile isSpace = text := by
    intro text htext
    cases text with
    | nil => rfl
    | cons c text => rw [List.dropWhile_cons, htext c rfl, if_neg Bool.false_ne_true]
  unfold strip
  rw [hdrop line hhead, hdrop, List.reverse_reverse]
  rwa [List.head?_reverse]

theorem isLineEnd_of_isPrintedDigit (c : Char) (h : isPrintedDigit c = true) :
    isLineEnd c = false := by
  have hbounds : 0x30 ≤ c.toNat ∧ c.toNat ≤ 0x46 := by
    unfold isPrintedDigit Char.isDigit at h
    simp only [Bool.or_eq_true, Bool.and_eq_true, decide_eq_true_eq, Char.le_def,
      UInt32.le_iff_toNat_le] at h
    change (48 ≤ c.toNat ∧ c.toNat ≤ 57) ∨ (65 ≤ c.toNat ∧ c.toNat ≤ 70) at h
    omega
  unfold isLineEnd
  rw [decide_eq_false_iff_not]
  intro hmem
  simp only [List.mem_cons, List.not_mem_nil, or_false] at hmem
  omega

theorem isSpace_printDigit {d : ℕ} (h : d < 16) : isSpace (printDigit d) = false := by
  interval_cases d <;> decide

namespace PrintCall

/-- The call prints something that does not end with a space. -/
structure Closes (call : PrintCall) : Prop where
  nonempty : call.output ≠ []
  last : ∀ c ∈ call.output.getLast?, isSpace c = false

theorem closes_dec (n : ℕ) : (dec n).Closes := by
  refine ⟨printNumber_ne_nil 10 n, fun c hc => ?_⟩
  obtain ⟨d, hd, rfl⟩ := exists_of_mem_printNumber (by omega) (List.mem_of_getLast? hc)
  exact isSpace_printDigit (by omega)

theorem closes_hex (n : ℕ) : (hex n).Closes := by
  refine ⟨printNumber_ne_nil 16 n, fun c hc => ?_⟩
  obtain ⟨d, hd, rfl⟩ := exists_of_mem_printNumber (by omega) (List.mem_of_getLast? hc)
  exact isSpace_printDigit hd

theorem closes_text {s : String} {c : Char} (hlast : s.toList.getLast? = some c)
    (hc : isSpace c = false) : (text s).Closes := by
  refine ⟨fun hnil => ?_, fun d hd => ?_⟩
  · rw [show s.toList = [] from hnil] at hlast
    cases hlast
  · obtain rfl := Option.some.inj (hlast.symm.trans hd)
    exact hc

/-- A line ends as its last call does. -/
theorem Closes.getLast?_render {call : PrintCall} (h : call.Closes) {calls : List PrintCall}
    (hcall : calls.getLast? = some call) :
    ∀ c ∈ (render calls).getLast?, isSpace c = false := by
  obtain ⟨before, rfl⟩ := List.getLast?_eq_some_iff.mp hcall
  unfold render
  rw [List.flatMap_append, List.flatMap_singleton, List.getLast?_append_of_ne_nil _ h.nonempty]
  exact h.last

end PrintCall

/-! ### Keywords -/

/-- The texts that the patterns begin with. -/
def keywords : List (List Char) :=
  ["node=".toList, "online nodes=".toList, "No valid frame, bytes=".toList,
    "queued command sequence=".toList, "send sequence=".toList, "ack sequence=".toList,
    "retry exhausted sequence=".toList]

/-- Each pattern begins with its keyword. -/
theorem forall₂_keywords :
    List.Forall₂ (fun keyword pattern => ∃ r, pattern.1 = seq (lit keyword) r) keywords
      LogSummary.patterns :=
  .cons ⟨_, rfl⟩ <| .cons ⟨_, rfl⟩ <| .cons ⟨_, rfl⟩ <| .cons ⟨_, rfl⟩ <| .cons ⟨_, rfl⟩ <|
    .cons ⟨_, rfl⟩ <| .cons ⟨_, rfl⟩ .nil

theorem isPrintedDigit_keywords :
    ∀ keyword ∈ keywords, ∀ c ∈ keyword, isPrintedDigit c = false := by
  have hall : (keywords.all fun keyword => keyword.all fun c => !isPrintedDigit c) = true := by
    decide
  simpa only [List.all_eq_true, Bool.not_eq_true'] using hall

namespace LogSummary

variable {summary : LogSummary} {line : List Char}

/-- Patterns whose keywords are not in the line are passed over. -/
theorem tryPatterns_drop {words : List (List Char)}
    {patterns : List (Regex × (LogSummary → Captures → LogSummary))}
    (hwords : List.Forall₂ (fun keyword pattern => ∃ r, pattern.1 = seq (lit keyword) r) words
      patterns) (n : ℕ) (h : ∀ keyword ∈ words.take n, ¬keyword <:+: line) :
    summary.tryPatterns line patterns = summary.tryPatterns line (patterns.drop n) := by
  induction hwords generalizing n with
  | nil => rw [List.drop_nil]
  | @cons keyword pattern words patterns hpattern hwords ih =>
    cases n with
    | zero => rw [List.drop_zero]
    | succ n =>
      rw [List.take_succ_cons, List.forall_mem_cons] at h
      obtain ⟨regex, record⟩ := pattern
      obtain ⟨r, rfl⟩ := hpattern
      rw [tryPatterns, search_eq_none h.1, List.drop_succ_cons]
      exact ih n h.2

/-- A summary with one more line. -/
def counted (summary : LogSummary) : LogSummary :=
  { summary with totalLines := summary.totalLines + 1 }

/-- **A printed line is settled by its text**: it is taken as it is, and the first
pattern to be tried is the first one whose keyword its text may hold. -/
theorem parseLine_render {calls : List PrintCall} {call : PrintCall} (n : ℕ)
    (hkeywords : ∀ keyword ∈ keywords.take n, ∀ text ∈ skeleton [] calls, ¬keyword <:+: text)
    (hhead : ∀ c ∈ (render calls).head?, isSpace c = false) (hcall : calls.getLast? = some call)
    (hcloses : call.Closes) :
    summary.parseLine (render calls) =
      summary.counted.tryPatterns (render calls) (patterns.drop n) := by
  unfold parseLine
  rw [strip_eq_self hhead (hcloses.getLast?_render hcall)]
  apply tryPatterns_drop forall₂_keywords
  intro keyword hkeyword hinfix
  have hdigits := isPrintedDigit_keywords keyword (List.mem_of_mem_take hkeyword)
  obtain ⟨text, htext, htextInfix⟩ :=
    infix_skeleton hdigits (List.nil_append (render calls) ▸ hinfix)
  exact hkeywords keyword hkeyword text htext htextInfix

/-- The first pattern whose keyword the text may hold is found. -/
theorem parseLine_found {calls : List PrintCall} {call : PrintCall} {pattern : Regex}
    {record : LogSummary → Captures → LogSummary}
    {more : List (Regex × (LogSummary → Captures → LogSummary))} {captures : Captures} (n : ℕ)
    (hkeywords : ∀ keyword ∈ keywords.take n, ∀ text ∈ skeleton [] calls, ¬keyword <:+: text)
    (hhead : ∀ c ∈ (render calls).head?, isSpace c = false) (hcall : calls.getLast? = some call)
    (hcloses : call.Closes) (hdrop : patterns.drop n = (pattern, record) :: more)
    (hsearch : pattern.search (render calls) = some captures) :
    summary.parseLine (render calls) = record summary.counted captures := by
  rw [parseLine_render n hkeywords hhead hcall hcloses, hdrop, tryPatterns, hsearch]

/-- No keyword is in the text: the line is counted and passed over. -/
theorem parseLine_unknown {calls : List PrintCall} {call : PrintCall}
    (hkeywords : ∀ keyword ∈ keywords, ∀ text ∈ skeleton [] calls, ¬keyword <:+: text)
    (hhead : ∀ c ∈ (render calls).head?, isSpace c = false) (hcall : calls.getLast? = some call)
    (hcloses : call.Closes) : summary.parseLine (render calls) = summary.counted := by
  rw [parseLine_render 7 hkeywords hhead hcall hcloses]
  rfl

end LogSummary

end PicoMesh
