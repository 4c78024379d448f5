import Mathlib.Data.List.Lex
import Mathlib.Data.List.Sort
import Mathlib.Data.Char

/-!
# JSON values and their indented text

A `Json` is a value without fractions, an object keeping its members in their
order.  `dumps` is the text of a value as the usual serialisers write it with an
indentation of two blanks, with sorted keys and in ASCII only.

The text of a value says where it ends, as long as what follows does not begin
with a digit (`dump_append_inj`), so `dump` never gives one text to two values.
Sorting hides the order of members and nothing else: a member is looked up before
and after it alike (`get?_sortKeys`).
-/

/-- A value. -/
inductive Json where
  | null
  | bool (b : Bool)
  | int (n : ℤ)
  | str (s : List Char)
  | arr (items : List Json)
  | obj (members : List (List Char × Json))

namespace Json

/-! ### Numbers -/

/-- A number in decimal. -/
def intText : ℤ → List Char
  | .ofNat n => Nat.toDigits 10 n
  | .negSucc n => '-' :: Nat.toDigits 10 (n + 1)

/-- A text that does not go on with a digit. -/
def EndsNumber (text : List Char) : Prop := ∀ c ∈ text.head?, c.isDigit = false

theorem endsNumber_nil : EndsNumber [] := by
  rintro c ⟨⟩

theorem endsNumber_cons {c : Char} (h : c.isDigit = false) (text : List Char) :
    EndsNumber (c :: text) := by
  rintro d ⟨⟩
  exact h

/-- Two runs of characters of a class, each followed by another character, are told
apart. -/
theorem append_inj_of_run {p : Char → Bool} {run run' rest rest' : List Char}
    (hrun : ∀ c ∈ run, p c = true) (hrun' : ∀ c ∈ run', p c = true)
    (hrest : ∀ c ∈ rest.head?, p c = false) (hrest' : ∀ c ∈ rest'.head?, p c = false)
    (h : run ++ rest = run' ++ rest') : run = run' ∧ rest = rest' := by
  have htake : ∀ {run rest : List Char}, (∀ c ∈ run, p c = true) →
      (∀ c ∈ rest.head?, p c = false) → (run ++ rest).takeWhile p = run := by
    intro run rest hrun hrest
    rw [List.takeWhile_append_of_pos hrun]
    cases rest with
    | nil => rw [List.takeWhile_nil, List.append_nil]
    | cons c rest =>
      rw [List.takeWhile_cons_of_neg (by rw [hrest c rfl]; exact Bool.false_ne_true),
        List.append_nil]
  have hruns : run = run' := by rw [← htake hrun hrest, h, htake hrun' hrest']
  subst hruns
  exact ⟨rfl, List.append_cancel_left h⟩

theorem isDigit_of_mem_digits {n : ℕ} {c : Char} (h : c ∈ Nat.toDigits 10 n) :
    c.isDigit = true :=
  Nat.isDigit_of_mem_toDigits (by omega) (by omega) h

theorem digits_append_inj {m n : ℕ} {rest rest' : List Char} (hrest : EndsNumber rest)
    (hrest' : EndsNumber rest') (h : Nat.toDigits 10 m ++ rest = Nat.toDigits 10 n ++ rest') :
    m = n ∧ rest = rest' := by
  obtain ⟨hdigits, hrests⟩ := append_inj_of_run (fun _ => isDigit_of_mem_digits)
    (fun _ => isDigit_of_mem_digits) hrest hrest' h
  have hvalue : m = n := by
    rw [← Nat.ofDigitChars_ten_toDigits (n := m), hdigits, Nat.ofDigitChars_ten_toDigits]
  exact ⟨hvalue, hrests⟩

/-- A number without its sign begins with a digit. -/
theorem digits_append_ne_cons {c : Char} (hc : c.isDigit = false) (n : ℕ)
    (rest rest' : List Char) : Nat.toDigits 10 n ++ rest ≠ c :: rest' := by
  intro h
  cases hdigits : Nat.toDigits 10 n with
  | nil => exact Nat.toDigits_ne_nil hdigits
  | cons d digits =>
    rw [hdigits] at h
    obtain ⟨rfl, -⟩ := List.cons.inj h
    have hd : d ∈ Nat.toDigits 10 n := hdigits ▸ List.mem_cons_self
    exact Bool.noConfusion (hc.symm.trans (isDigit_of_mem_digits hd))

theorem intText_append_inj {m n : ℤ} {rest rest' : List Char} (hrest : EndsNumber rest)
    (hrest' : EndsNumber rest') (h : intText m ++ rest = intText n ++ rest') :
    m = n ∧ rest = rest' := by
  cases m with
  | ofNat m =>
    cases n with
    | ofNat n =>
      obtain ⟨rfl, hrests⟩ := digits_append_inj hrest hrest' h
      exact ⟨rfl, hrests⟩
    | negSucc n => exact absurd h (digits_append_ne_cons rfl m _ _)
  | negSucc m =>
    cases n with
    | ofNat n => exact absurd h.symm (digits_append_ne_cons rfl n _ _)
    | negSucc n =>
      obtain ⟨hsucc, hrests⟩ := digits_append_inj hrest hrest' (List.cons.inj h).2
      exact ⟨congrArg Int.negSucc (Nat.succ.inj hsucc), hrests⟩

/-- **Numbers are told apart by their text.** -/
theorem intText_injective : Function.Injective intText := by
  intro m n h
  have happend : intText m ++ [] = intText n ++ [] := congrArg (· ++ []) h
  exact (intText_append_inj endsNumber_nil endsNumber_nil happend).1

/-! ### Strings -/

/-- The characters with an escape of their own, and what stands after the backslash. -/
def shortEscapes : List (Char × Char) :=
  [('"', '"'), ('\\', '\\'), ('\n', 'n'), ('\r', 'r'), ('\t', 't'), ('\x0c', 'f'),
    ('\x08', 'b')]

/-- The UTF-16 code units of a character. -/
def codeUnits (c : Char) : List ℕ :=
  if c.toNat < 0x10000 then [c.toNat]
  else [0xd800 + (c.toNat - 0x10000) / 0x400, 0xdc00 + (c.toNat - 0x10000) % 0x400]

/-- The four digits of a code unit. -/
def hexText (n : ℕ) : List Char :=
  [Nat.digitChar (n / 4096), Nat.digitChar (n / 256 % 16), Nat.digitChar (n / 16 % 16),
    Nat.digitChar (n % 16)]

/-- A code unit with its backslash. -/
def unicodeEscape (n : ℕ) : List Char := '\\' :: 'u' :: hexText n

/-- A character in a string. -/
def escape (c : Char) : List Char :=
  match shortEscapes.lookup c with
  | some short => ['\\', short]
  | none => if ' ' ≤ c ∧ c ≤ '~' then [c] else (codeUnits c).flatMap unicodeEscape

/-- A string in quotes. -/
def strText (s : List Char) : List Char := '"' :: (s.flatMap escape ++ ['"'])

theorem digitChar_inj : ∀ d < 16, ∀ e < 16, Nat.digitChar d = Nat.digitChar e → d = e := by
  decide

theorem hexText_append_inj {m n : ℕ} (hm : m < 0x10000) (hn : n < 0x10000)
    {rest rest' : List Char} (h : hexText m ++ rest = hexText n ++ rest') :
    m = n ∧ rest = rest' := by
  obtain ⟨h3, htail⟩ := List.cons.inj h
  obtain ⟨h2, htail⟩ := List.cons.inj htail
  obtain ⟨h1, htail⟩ := List.cons.inj htail
  obtain ⟨h0, hrest⟩ := List.cons.inj htail
  have e3 := digitChar_inj _ (by omega) _ (by omega) h3
  have e2 := digitChar_inj _ (by omega) _ (by omega) h2
  have e1 := digitChar_inj _ (by omega) _ (by omega) h1
  have e0 := digitChar_inj _ (by omega) _ (by omega) h0
  exact ⟨by omega, hrest⟩

/-- What stands after the backslash is no `u`, and says which character it was. -/
theorem forall_shortEscapes : ∀ entry ∈ shortEscapes, entry.2 ≠ 'u' ∧
    (shortEscapes.map Prod.swap).lookup entry.2 = some entry.1 := by
  decide

theorem mem_of_lookup {κ α : Type*} [BEq κ] [LawfulBEq κ] {entries : List (κ × α)} {k : κ} {a : α}
    (h : entries.lookup k = some a) : (k, a) ∈ entries := by
  obtain ⟨before, after, hlist, -⟩ := List.lookup_eq_some_iff.mp h
  rw [hlist]
  exact List.mem_append_right _ List.mem_cons_self

theorem shortEscape_inj {c d short : Char} (hc : shortEscapes.lookup c = some short)
    (hd : shortEscapes.lookup d = some short) : c = d := by
  have hback := (forall_shortEscapes _ (mem_of_lookup hc)).2
  rw [(forall_shortEscapes _ (mem_of_lookup hd)).2] at hback
  exact (Option.some.inj hback).symm

/-- How a character is written. -/
theorem escape_cases (c : Char) :
    (∃ short, shortEscapes.lookup c = some short ∧ escape c = ['\\', short]) ∨
      (shortEscapes.lookup c = none ∧ escape c = [c]) ∨
      (shortEscapes.lookup c = none ∧ escape c = (codeUnits c).flatMap unicodeEscape) := by
  unfold escape
  cases hshort : shortEscapes.lookup c with
  | some short => exact .inl ⟨short, rfl, rfl⟩
  | none =>
    by_cases hprintable : ' ' ≤ c ∧ c ≤ '~'
    · exact .inr (.inl ⟨rfl, if_pos hprintable⟩)
    · exact .inr (.inr ⟨rfl, if_neg hprintable⟩)

theorem codeUnits_append_inj {c d : Char} {rest rest' : List Char}
    (h : (codeUnits c).flatMap unicodeEscape ++ rest =
      (codeUnits d).flatMap unicodeEscape ++ rest') : c = d ∧ rest = rest' := by
  have hc : c.toNat < 0xd800 ∨ 0xdfff < c.toNat ∧ c.toNat < 0x110000 := c.valid
  have hd : d.toNat < 0xd800 ∨ 0xdfff < d.toNat ∧ d.toNat < 0x110000 := d.valid
  have hunit : ∀ {m n : ℕ}, m < 0x10000 → n < 0x10000 → ∀ {rest rest' : List Char},
      unicodeEscape m ++ rest = unicodeEscape n ++ rest' → m = n ∧ rest = rest' := by
    intro m n hm hn rest rest' h
    exact hexText_append_inj hm hn (List.cons.inj (List.cons.inj h).2).2
  unfold codeUnits at h
  split_ifs at h with hlowc hlowd hlowd
  all_goals
    simp only [List.flatMap_cons, List.flatMap_nil, List.append_nil, List.append_assoc] at h
    obtain ⟨hfirst, hrest⟩ := hunit (by omega) (by omega) h
  · exact ⟨Char.toNat_inj.mp hfirst, hrest⟩
  · omega
  · omega
  · obtain ⟨hsecond, hrest⟩ := hunit (by omega) (by omega) hrest
    exact ⟨Char.toNat_inj.mp (by omega), hrest⟩

theorem unicode_head (c : Char) (rest : List Char) :
    ∃ tail, (codeUnits c).flatMap unicodeEscape ++ rest = '\\' :: 'u' :: tail := by
  unfold codeUnits
  split_ifs <;> exact ⟨_, rfl⟩

/-- **Characters are told apart by how they are written.** -/
theorem escape_append_inj {c d : Char} {rest rest' : List Char}
    (h : escape c ++ rest = escape d ++ rest') : c = d ∧ rest = rest' := by
  have hbackslash : shortEscapes.lookup '\\' ≠ none := by decide
  -- a character with a short escape is written apart from all other ones
  have hshort : ∀ {c d : Char} {rest rest' : List Char} {short : Char},
      shortEscapes.lookup c = some short → '\\' :: short :: rest = escape d ++ rest' →
      c = d ∧ rest = rest' := by
    intro c d rest rest' short hc h
    rcases escape_cases d with ⟨short', hd, hescape⟩ | ⟨hd, hescape⟩ | ⟨hd, hescape⟩
    · rw [hescape] at h
      obtain ⟨-, htail⟩ := List.cons.inj h
      obtain ⟨rfl, hrest⟩ := List.cons.inj htail
      exact ⟨shortEscape_inj hc hd, hrest⟩
    · rw [hescape] at h
      obtain ⟨rfl, -⟩ := List.cons.inj h
      exact absurd hd hbackslash
    · obtain ⟨tail, htail⟩ := unicode_head d rest'
      rw [hescape, htail] at h
      obtain ⟨hu, -⟩ := List.cons.inj (List.cons.inj h).2
      exact absurd hu (forall_shortEscapes _ (mem_of_lookup hc)).1
  rcases escape_cases c with ⟨short, hc, hescape⟩ | hc
  · rw [hescape] at h
    exact hshort hc h
  rcases escape_cases d with ⟨short, hd, hescape⟩ | hd
  · rw [hescape] at h
    obtain ⟨hdc, hrest⟩ := hshort hd h.symm
    exact ⟨hdc.symm, hrest.symm⟩
  -- of the other ones a code unit begins with a backslash, and no character itself does
  rcases hc with ⟨hc, hescape⟩ | ⟨hc, hescape⟩ <;> rcases hd with ⟨hd, hescape'⟩ | ⟨hd, hescape'⟩ <;>
    rw [hescape, hescape'] at h
  · exact List.cons.inj h
  · obtain ⟨tail, htail⟩ := unicode_head d rest'
    rw [htail] at h
    obtain ⟨rfl, -⟩ := List.cons.inj h
    exact absurd hc hbackslash
  · obtain ⟨tail, htail⟩ := unicode_head c rest
    rw [htail] at h
    obtain ⟨rfl, -⟩ := List.cons.inj h.symm
    exact absurd hd hbackslash
  · exact codeUnits_append_inj h

/-- A character in a string is not the quote that ends it. -/
theorem escape_append_ne_quote (c : Char) (rest rest' : List Char) :
    escape c ++ rest ≠ '"' :: rest' := by
  intro h
  rcases escape_cases c with ⟨short, hc, hescape⟩ | ⟨hc, hescape⟩ | ⟨hc, hescape⟩
  · rw [hescape] at h
    exact absurd (List.cons.inj h).1 (by decide)
  · rw [hescape] at h
    obtain ⟨rfl, -⟩ := List.cons.inj h
    exact absurd hc (by decide)
  · obtain ⟨tail, htail⟩ := unicode_head c rest
    rw [hescape, htail] at h
    exact absurd (List.cons.inj h).1 (by decide)

/-- **Strings are told apart by their text.** -/
theorem strText_append_inj {s t rest rest' : List Char}
    (h : strText s ++ rest = strText t ++ rest') : s = t ∧ rest = rest' := by
  have hbody : ∀ {s t rest rest' : List Char},
      s.flatMap escape ++ '"' :: rest = t.flatMap escape ++ '"' :: rest' →
      s = t ∧ rest = rest' := by
    intro s
    induction s with
    | nil =>
      intro t rest rest' h
      cases t with
      | nil => exact ⟨rfl, (List.cons.inj h).2⟩
      | cons d t =>
        rw [List.flatMap_cons, List.append_assoc] at h
        exact absurd h.symm (escape_append_ne_quote d _ _)
    | cons c s ih =>
      intro t rest rest' h
      rw [List.flatMap_cons, List.append_assoc] at h
      cases t with
      | nil => exact absurd h (escape_append_ne_quote c _ _)
      | cons d t =>
        rw [List.flatMap_cons, List.append_assoc] at h
        obtain ⟨rfl, htail⟩ := escape_append_inj h
        obtain ⟨rfl, hrest⟩ := ih htail
        exact ⟨rfl, hrest⟩
  unfold strText at h
  rw [List.cons_append, List.cons_append, List.append_assoc, List.append_assoc] at h
  exact hbody (List.cons.inj h).2

/-! ### Values -/

/-- A line end and the indentation of a level. -/
def newline (level : ℕ) : List Char := '\n' :: List.replicate (2 * level) ' '

mutual

/-- The text of a value on a line that is indented to a level. -/
def dump (level : ℕ) : Json → List Char
  | .null => "null".toList
  | .bool b => (if b then "true" else "false").toList
  | .int n => intText n
  | .str s => strText s
  | .arr [] => "[]".toList
  | .arr (item :: items) => dumpItems level '[' (item :: items)
  | .obj [] => "\x7b\x7d".toList
  | .obj (member :: members) => dumpMembers level '\x7b' (member :: members)

/-- The items of an array, the first one after the given character and the other ones
after a comma, and the end of the array. -/
def dumpItems (level : ℕ) (before : Char) : List Json → List Char
  | [] => newline level ++ [']']
  | item :: items =>
    before :: (newline (level + 1) ++ (dump (level + 1) item ++ dumpItems level ',' items))

/-- The members of an object in the same way. -/
def dumpMembers (level : ℕ) (before : Char) : List (List Char × Json) → List Char
  | [] => newline level ++ ['\x7d']
  | (key, value) :: members =>
    before :: (newline (level + 1) ++ (strText key ++ (':' :: ' ' ::
      (dump (level + 1) value ++ dumpMembers level ',' members))))

end

mutual

/-- The value with the members of every object sorted by their keys. -/
def sortKeys : Json → Json
  | .arr items => .arr (sortItems items)
  | .obj members => .obj (sortMembers members)
  | value => value

def sortItems : List Json → List Json
  | [] => []
  | item :: items => sortKeys item :: sortItems items

def sortMembers : List (List Char × Json) → List (List Char × Json)
  | [] => []
  | (key, value) :: members =>
    (sortMembers members).orderedInsert (fun a b => a.1 ≤ b.1) (key, sortKeys value)

end

/-- `json.dumps(value, indent=2, sort_keys=True)`. -/
def dumps (value : Json) : List Char := value.sortKeys.dump 0

example : (dumps (.obj [("b".toList, .arr [.int (-3), .null]), ("a".toList, .str "é\n".toList)])) =
  "\x7b\n  \x22a\x22: \x22\\u00e9\\n\x22,\n  \x22b\x22: [\n    -3,\n    null\n  ]\n\x7d".toList := by
  decide

/-! ### One text, one value -/

/-- The kind of a value. -/
def kind : Json → ℕ
  | .null => 0
  | .bool _ => 1
  | .int _ => 2
  | .str _ => 3
  | .arr _ => 4
  | .obj _ => 5

/-- The kind of the values that begin with a character. -/
def kindOf (c : Char) : ℕ :=
  if c = 'n' then 0 else if c = 't' ∨ c = 'f' then 1 else if c = '"' then 3
  else if c = '[' then 4 else if c = '\x7b' then 5 else 2

theorem kindOf_of_isDigit {c : Char} (h : c.isDigit = true) : kindOf c = 2 := by
  have hne : ∀ d : Char, d.isDigit = false → c ≠ d := by
    rintro d hd rfl
    exact Bool.noConfusion (hd.symm.trans h)
  unfold kindOf
  rw [if_neg (hne _ rfl), if_neg (not_or.mpr ⟨hne _ rfl, hne _ rfl⟩), if_neg (hne _ rfl),
    if_neg (hne _ rfl), if_neg (hne _ rfl)]

/-- The first character says what kind of value it is. -/
theorem dump_head (level : ℕ) (value : Json) (rest : List Char) :
    ∃ c tail, dump level value ++ rest = c :: tail ∧ kindOf c = kind value := by
  cases value with
  | null => exact ⟨_, _, rfl, rfl⟩
  | bool b => cases b <;> exact ⟨_, _, rfl, rfl⟩
  | int n =>
    cases n with
    | negSucc n => exact ⟨_, _, rfl, rfl⟩
    | ofNat n =>
      cases hdigits : Nat.toDigits 10 n with
      | nil => exact absurd hdigits Nat.toDigits_ne_nil
      | cons d digits =>
        refine ⟨d, digits ++ rest, ?_, ?_⟩
        · exact congrArg (· ++ rest) hdigits
        · apply kindOf_of_isDigit
          apply isDigit_of_mem_digits
          rw [hdigits]
          exact List.mem_cons_self
  | str s => exact ⟨_, _, rfl, rfl⟩
  | arr items => cases items <;> exact ⟨_, _, rfl, rfl⟩
  | obj members => cases members <;> exact ⟨_, _, rfl, rfl⟩

theorem endsNumber_dumpItems (level : ℕ) (items : List Json) (rest : List Char) :
    EndsNumber (dumpItems level ',' items ++ rest) := by
  cases items <;> exact endsNumber_cons rfl _

theorem endsNumber_dumpMembers (level : ℕ) (members : List (List Char × Json))
    (rest : List Char) : EndsNumber (dumpMembers level ',' members ++ rest) := by
  cases members <;> exact endsNumber_cons rfl _

mutual

/-- **The text of a value says where it ends** and which value it is. -/
theorem dump_append_inj (level : ℕ) (value value' : Json) {rest rest' : List Char}
    (hrest : EndsNumber rest) (hrest' : EndsNumber rest')
    (h : dump level value ++ rest = dump level value' ++ rest') : value = value' ∧ rest = rest' := by
  have hkind : kind value = kind value' := by
    obtain ⟨c, tail, hhead, hc⟩ := dump_head level value rest
    obtain ⟨c', tail', hhead', hc'⟩ := dump_head level value' rest'
    rw [hhead, hhead'] at h
    rw [← hc, ← hc', (List.cons.inj h).1]
  match value, value' with
  | .null, .null => exact ⟨rfl, List.append_cancel_left h⟩
  | .bool b, .bool b' =>
    cases b <;> cases b'
    · exact ⟨rfl, List.append_cancel_left h⟩
    · exact absurd (List.cons.inj h).1 (by decide)
    · exact absurd (List.cons.inj h).1 (by decide)
    · exact ⟨rfl, List.append_cancel_left h⟩
  | .int n, .int n' =>
    obtain ⟨rfl, hrests⟩ := intText_append_inj hrest hrest' h
    exact ⟨rfl, hrests⟩
  | .str s, .str s' =>
    obtain ⟨rfl, hrests⟩ := strText_append_inj h
    exact ⟨rfl, hrests⟩
  -- an array or object without items is no beginning of one with items
  | .arr [], .arr [] => exact ⟨rfl, List.append_cancel_left h⟩
  | .arr [], .arr (item :: items) => exact absurd (List.cons.inj (List.cons.inj h).2).1 (by decide)
  | .arr (item :: items), .arr [] => exact absurd (List.cons.inj (List.cons.inj h).2).1 (by decide)
  | .arr (item :: items), .arr (item' :: items') =>
    obtain ⟨hitems, hrests⟩ := dumpItems_append_inj level (by decide) _ _ h
    exact ⟨congrArg arr hitems, hrests⟩
  | .obj [], .obj [] => exact ⟨rfl, List.append_cancel_left h⟩
  | .obj [], .obj ((key, value) :: members) =>
    exact absurd (List.cons.inj (List.cons.inj h).2).1 (by decide)
  | .obj ((key, value) :: members), .obj [] =>
    exact absurd (List.cons.inj (List.cons.inj h).2).1 (by decide)
  | .obj (member :: members), .obj (member' :: members') =>
    obtain ⟨hmembers, hrests⟩ := dumpMembers_append_inj level (by decide) _ _ h
    exact ⟨congrArg obj hmembers, hrests⟩

theorem dumpItems_append_inj (level : ℕ) {before : Char} (hbefore : before ≠ '\n')
    (items items' : List Json) {rest rest' : List Char}
    (h : dumpItems level before items ++ rest = dumpItems level before items' ++ rest') :
    items = items' ∧ rest = rest' := by
  match items, items' with
  | [], [] => exact ⟨rfl, List.append_cancel_left h⟩
  | [], item :: items => exact absurd (List.cons.inj h).1.symm hbefore
  | item :: items, [] => exact absurd (List.cons.inj h).1 hbefore
  | item :: items, item' :: items' =>
    simp only [dumpItems, List.cons_append, List.append_assoc] at h
    have hitem := List.append_cancel_left (List.cons.inj h).2
    obtain ⟨rfl, htail⟩ := dump_append_inj (level + 1) item item'
      (endsNumber_dumpItems level items rest) (endsNumber_dumpItems level items' rest') hitem
    have hcomma : ',' ≠ '\n' := by decide
    obtain ⟨rfl, hrests⟩ := dumpItems_append_inj level hcomma items items' htail
    exact ⟨rfl, hrests⟩

theorem dumpMembers_append_inj (level : ℕ) {before : Char} (hbefore : before ≠ '\n')
    (members members' : List (List Char × Json)) {rest rest' : List Char}
    (h : dumpMembers level before members ++ rest = dumpMembers level before members' ++ rest') :
    members = members' ∧ rest = rest' := by
  match members, members' with
  | [], [] => exact ⟨rfl, List.append_cancel_left h⟩
  | [], (key, value) :: members => exact absurd (List.cons.inj h).1.symm hbefore
  | (key, value) :: members, [] => exact absurd (List.cons.inj h).1 hbefore
  | (key, value) :: members, (key', value') :: members' =>
    simp only [dumpMembers, List.cons_append, List.append_assoc] at h
    have hkey := List.append_cancel_left (List.cons.inj h).2
    obtain ⟨rfl, hvalue⟩ := strText_append_inj hkey
    obtain ⟨rfl, htail⟩ := dump_append_inj (level + 1) value value'
      (endsNumber_dumpMembers level members rest) (endsNumber_dumpMembers level members' rest')
      (List.cons.inj (List.cons.inj hvalue).2).2
    have hcomma : ',' ≠ '\n' := by decide
    obtain ⟨rfl, hrests⟩ := dumpMembers_append_inj level hcomma members members' htail
    exact ⟨rfl, hrests⟩

end

/-- **The text of a value determines it.** -/
theorem dump_injective (level : ℕ) : Function.Injective (dump level) := by
  intro value value' h
  have happend : dump level value ++ [] = dump level value' ++ [] := congrArg (· ++ []) h
  exact (dump_append_inj level value value' endsNumber_nil endsNumber_nil happend).1

/-! ### Looking up members -/

/-- The member of an object under a key. -/
def get? (key : List Char) : Json → Option Json
  | .obj members => members.lookup key
  | _ => none

theorem lookup_cons_eq_ite {α : Type*} (k j : List Char) (a : α)
    (members : List (List Char × α)) :
    List.lookup j ((k, a) :: members) = if j = k then some a else members.lookup j := by
  rw [List.lookup_cons]
  split_ifs with hjk
  · rw [hjk, beq_self_eq_true]
  · rw [beq_false_of_ne hjk]

theorem lookup_orderedInsert {α : Type*} (k j : List Char) (a : α)
    (members : List (List Char × α)) :
    (members.orderedInsert (fun a b => a.1 ≤ b.1) (k, a)).lookup j =
      if j = k then some a else members.lookup j := by
  induction members with
  | nil => exact lookup_cons_eq_ite k j a []
  | cons member members ih =>
    rw [List.orderedInsert_cons]
    split_ifs with hle hjk hjk
    · rw [lookup_cons_eq_ite, if_pos hjk]
    · rw [lookup_cons_eq_ite, if_neg hjk]
    · -- the member in front has a smaller key
      have hne : j ≠ member.1 := by
        rintro rfl
        exact hle hjk.ge
      rw [lookup_cons_eq_ite, if_neg hne, ih, if_pos hjk]
    · rw [lookup_cons_eq_ite, lookup_cons_eq_ite, ih, if_neg hjk]

/-- **Sorting the keys loses no member.** -/
theorem get?_sortKeys (key : List Char) (value : Json) :
    value.sortKeys.get? key = (value.get? key).map sortKeys := by
  have hmembers : ∀ members : List (List Char × Json),
      (sortMembers members).lookup key = (members.lookup key).map sortKeys := by
    intro members
    induction members with
    | nil => rfl
    | cons member members ih =>
      rw [sortMembers, lookup_orderedInsert, lookup_cons_eq_ite, ih]
      split_ifs <;> rfl
  cases value with
  | obj members => exact hmembers members
  | null | bool | int | str | arr => rfl

@[simp] theorem sortKeys_arr (items : List Json) :
    (arr items).sortKeys = arr (items.map sortKeys) := by
  have hitems : sortItems items = items.map sortKeys := by
    induction items with
    | nil => rfl
    | cons item items ih => rw [sortItems, ih, List.map_cons]
  exact congrArg arr hitems

/-- **Two values with one text** are the same up to the order of members. -/
theorem dumps_eq_iff (value value' : Json) :
    dumps value = dumps value' ↔ value.sortKeys = value'.sortKeys :=
  (dump_injective 0).eq_iff

end Json
