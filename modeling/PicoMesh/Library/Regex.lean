import Mathlib.Data.List.Basic
import Mathlib.Tactic.Common

/-!
# Regular expressions with a backtracking search

The part of the usual pattern language that log parsers are written in: literal
text, one or more characters of a class, sequence, ordered alternative and named
group.  `run` lists the ways in which a pattern matches a beginning of a text, in
the order in which a backtracking matcher tries them, so `first` is the match it
settles for and `search` that match at the leftmost place where there is one.

A text that a formatted print produced is matched piece by piece: a greedy class
takes a whole run of its characters (`first_many`) and a sequence passes on what
is left (`first_seq`).  A pattern that begins with a keyword finds nothing in a
text that does not contain it (`search_eq_none`), and a keyword can only lie in
the parts of a text between characters that it does not have itself
(`infix_append_append`).
-/

/-- A pattern. -/
inductive Regex where
  /-- The text itself. -/
  | lit (text : List Char)
  /-- One or more characters of a class, as many as possible first. -/
  | many (p : Char → Bool)
  | seq (r t : Regex)
  /-- The first alternative before the second. -/
  | alt (r t : Regex)
  /-- A named group. -/
  | group (name : String) (r : Regex)

namespace Regex

/-- The texts of the named groups of a match. -/
abbrev Captures := List (String × List Char)

/-- What is left after one or more characters of a class, the longest run first. -/
def rests (p : Char → Bool) : List Char → List (List Char)
  | [] => []
  | c :: s => if p c then rests p s ++ [s] else []

/-- The matches of a pattern at the beginning of a text, each with what is left. -/
def run : Regex → List Char → List (Captures × List Char)
  | .lit text, s => if text.isPrefixOf s then [([], s.drop text.length)] else []
  | .many p, s => (rests p s).map fun rest => ([], rest)
  | .seq r t, s => (r.run s).flatMap fun m => (t.run m.2).map fun m' => (m.1 ++ m'.1, m'.2)
  | .alt r t, s => r.run s ++ t.run s
  | .group name r, s =>
    (r.run s).map fun m => ((name, s.take (s.length - m.2.length)) :: m.1, m.2)

/-- The match that is tried first. -/
def first (r : Regex) (s : List Char) : Option (Captures × List Char) := (r.run s).head?

/-- The groups of the first match at the leftmost place. -/
def search (r : Regex) : List Char → Option Captures
  | [] => (r.first []).map Prod.fst
  | c :: s =>
    match r.first (c :: s) with
    | some m => some m.1
    | none => search r s

/-- The text of a group. -/
def textOf (captures : Captures) (name : String) : List Char :=
  (captures.lookup name).getD []

variable {r t : Regex} {s s' s'' rest : List Char} {captures captures' : Captures}

/-! ### First matches -/

theorem run_lit_append (text s : List Char) : (lit text).run (text ++ s) = [([], s)] := by
  have hprefix : text.isPrefixOf (text ++ s) = true :=
    List.isPrefixOf_iff_prefix.mpr (List.prefix_append text s)
  rw [run, if_pos hprefix, List.drop_left]

theorem first_lit (text s : List Char) : (lit text).first (text ++ s) = some ([], s) := by
  rw [first, run_lit_append, List.head?_cons]

theorem rests_eq_nil {p : Char → Bool} (h : ∀ c ∈ rest.head?, p c = false) : rests p rest = [] := by
  cases rest with
  | nil => rfl
  | cons c s => rw [rests, if_neg (by rw [h c rfl]; exact Bool.false_ne_true)]

/-- **A greedy class takes the whole run of its characters.** -/
theorem first_many {p : Char → Bool} {word : List Char} (hne : word ≠ [])
    (hword : ∀ c ∈ word, p c = true) (hrest : ∀ c ∈ rest.head?, p c = false) :
    (many p).first (word ++ rest) = some ([], rest) := by
  have hhead : (rests p (word ++ rest)).head? = some rest := by
    induction word with
    | nil => exact absurd rfl hne
    | cons c word ih =>
      rw [List.cons_append, rests, if_pos (hword c List.mem_cons_self)]
      cases word with
      | nil => rw [List.nil_append, rests_eq_nil hrest, List.nil_append, List.head?_cons]
      | cons c' word =>
        rw [List.head?_append, ih (List.cons_ne_nil _ _) fun d hd =>
          hword d (List.mem_cons_of_mem _ hd), Option.some_or]
  rw [first, run, List.head?_map, hhead, Option.map_some]

theorem first_seq (h : r.first s = some (captures, s')) (h' : t.first s' = some (captures', s'')) :
    (seq r t).first s = some (captures ++ captures', s'') := by
  unfold first at h h' ⊢
  obtain ⟨more, hmore⟩ := List.head?_eq_some_iff.mp h
  obtain ⟨more', hmore'⟩ := List.head?_eq_some_iff.mp h'
  rw [run, hmore, List.flatMap_cons, hmore', List.map_cons, List.cons_append, List.head?_cons]

/-- A group captures the text its pattern matches. -/
theorem first_group {text : List Char} (name : String)
    (h : r.first (text ++ rest) = some (captures, rest)) :
    (group name r).first (text ++ rest) = some ((name, text) :: captures, rest) := by
  unfold first at h ⊢
  rw [run, List.head?_map, h, Option.map_some, List.length_append, Nat.add_sub_cancel,
    List.take_left]

theorem first_alt_left (h : r.first s = some (captures, s')) :
    (alt r t).first s = some (captures, s') := by
  unfold first at h ⊢
  rw [run, List.head?_append, h, Option.some_or]

theorem first_alt_right (hr : r.first s = none) (h : t.first s = some (captures, s')) :
    (alt r t).first s = some (captures, s') := by
  unfold first at hr h ⊢
  rw [run, List.head?_append, hr, Option.none_or, h]

/-! ### Searching -/

/-- A match at the beginning is the leftmost one. -/
theorem search_of_first (h : r.first s = some (captures, rest)) : r.search s = some captures := by
  cases s with
  | nil => rw [search, h, Option.map_some]
  | cons c s => rw [search, h]

/-- A sequence that begins with a literal text matches only where that text is. -/
theorem prefix_of_first {text : List Char} {m : Captures × List Char}
    (h : (seq (lit text) r).first s = some m) : text <+: s := by
  by_contra hprefix
  have hno : text.isPrefixOf s ≠ true := fun htrue => hprefix (List.isPrefixOf_iff_prefix.mp htrue)
  rw [first, run, run, if_neg hno] at h
  cases h

/-- **Nothing is found in a text without the keyword.** -/
theorem search_eq_none {text : List Char} (h : ¬text <:+: s) :
    (seq (lit text) r).search s = none := by
  induction s with
  | nil =>
    rw [search, Option.map_eq_none_iff, Option.eq_none_iff_forall_ne_some]
    intro m hm
    exact h (prefix_of_first hm).isInfix
  | cons c s ih =>
    have hfirst : (seq (lit text) r).first (c :: s) = none := by
      rw [Option.eq_none_iff_forall_ne_some]
      intro m hm
      exact h (prefix_of_first hm).isInfix
    rw [search, hfirst]
    exact ih fun hs => h (hs.trans (List.suffix_cons c s).isInfix)

/-- The search passes over characters that the keyword does not begin with. -/
theorem search_append {c : Char} {text before : List Char} (h : c ∉ before) (s : List Char) :
    (seq (lit (c :: text)) r).search (before ++ s) = (seq (lit (c :: text)) r).search s := by
  induction before with
  | nil => rfl
  | cons d before ih =>
    rw [List.mem_cons, not_or] at h
    have hfirst : (seq (lit (c :: text)) r).first (d :: (before ++ s)) = none := by
      rw [Option.eq_none_iff_forall_ne_some]
      intro m hm
      exact h.1 (List.cons_prefix_cons.mp (prefix_of_first hm)).1
    rw [List.cons_append, search, hfirst]
    exact ih h.2

/-! ### Keywords -/

/-- **A keyword lies on one side of characters that it does not have.** -/
theorem infix_append_append {text before word after : List Char} (hne : word ≠ [])
    (hword : ∀ c ∈ word, c ∉ text) (h : text <:+: before ++ (word ++ after)) :
    text <:+: before ∨ text <:+: after := by
  obtain ⟨u, v, huv⟩ := h
  rw [List.append_assoc] at huv
  rcases List.append_eq_append_iff.mp huv with ⟨gap, hbefore, hrest⟩ | ⟨gap, hu, hrest⟩
  · -- the keyword begins before the word
    rcases List.append_eq_append_iff.mp hrest with ⟨gap', hgap, hv⟩ | ⟨gap', htext, hword'⟩
    · left
      exact ⟨u, gap', by rw [hbefore, hgap, List.append_assoc]⟩
    · -- it would have to reach into the word
      cases gap' with
      | nil =>
        left
        rw [List.append_nil] at htext
        exact ⟨u, [], by rw [List.append_nil, htext, hbefore]⟩
      | cons c gap' =>
        cases word with
        | nil => exact absurd rfl hne
        | cons d word =>
          rw [List.cons_append, List.cons_append, List.cons.injEq] at hword'
          refine absurd ?_ (hword d List.mem_cons_self)
          rw [htext, hword'.1]
          simp
  · -- the keyword begins in the word or after it
    rcases List.append_eq_append_iff.mp hrest with ⟨gap', hgap, hafter⟩ | ⟨gap', hword', hv⟩
    · right
      exact ⟨gap', v, by rw [List.append_assoc]; exact hafter.symm⟩
    · cases text with
      | nil => exact .inl (List.nil_infix)
      | cons c text =>
        cases gap' with
        | nil =>
          right
          rw [List.nil_append] at hv
          exact ⟨[], v, hv⟩
        | cons d gap' =>
          rw [List.cons_append, List.cons_append, List.cons.injEq] at hv
          refine absurd List.mem_cons_self (hword c ?_)
          rw [hword', hv.1]
          simp

end Regex
