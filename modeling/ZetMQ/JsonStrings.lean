import Mathlib.Data.List.Basic

/-! Strings of JSON: characters that stand for themselves, short escapes and
code units of UTF-16, and a reader that takes one string off the front of a text. A text is
a string only if its code units make up characters. -/
namespace ZetMQ.JsonStrings

/-- One character of a string as it is written: itself or its short escape, or a code unit
of UTF-16. -/
inductive Item where
  | char (c : Char)
  | unit (n : ℕ)

def isHighSurrogate (n : ℕ) : Bool := 0xD800 ≤ n && n ≤ 0xDBFF

def isLowSurrogate (n : ℕ) : Bool := 0xDC00 ≤ n && n ≤ 0xDFFF

/-- The string that items spell. Code units beyond the first plane come in pairs; one
without its partner is no character. -/
def spell : List Item → Option (List Char)
  | [] => some []
  | .char c :: items => (spell items).map (c :: ·)
  | .unit n :: items =>
    if isHighSurrogate n then
      match items with
      | .unit low :: items =>
        if isLowSurrogate low then
          (spell items).map (Char.ofNat (0x10000 + (n - 0xD800) * 0x400 + (low - 0xDC00)) :: ·)
        else none
      | _ => none
    else if isLowSurrogate n then none
    else (spell items).map (Char.ofNat n :: ·)

def isPlain (c : Char) : Bool := 0x20 ≤ c.toNat && c ≠ '"' && c ≠ '\\'

def unescaped : Char → Option Char
  | '"' => some '"'
  | '\\' => some '\\'
  | '/' => some '/'
  | 'b' => some (Char.ofNat 8)
  | 'f' => some (Char.ofNat 12)
  | 'n' => some '\n'
  | 'r' => some '\r'
  | 't' => some '\t'
  | _ => none

def hexDigit (c : Char) : Option ℕ :=
  if c.isDigit then some (c.toNat - '0'.toNat)
  else if 'a' ≤ c ∧ c ≤ 'f' then some (c.toNat - 'a'.toNat + 10)
  else if 'A' ≤ c ∧ c ≤ 'F' then some (c.toNat - 'A'.toNat + 10)
  else none

def hexUnit (a b c d : Char) : Option ℕ := do
  let a ← hexDigit a
  let b ← hexDigit b
  let c ← hexDigit c
  let d ← hexDigit d
  some (((a * 16 + b) * 16 + c) * 16 + d)

inductive Items : List Char → List Item → Prop
  | nil : Items [] []
  | plain {c : Char} {text : List Char} {items : List Item} :
    isPlain c = true → Items text items → Items (c :: text) (.char c :: items)
  | escape {mark c : Char} {text : List Char} {items : List Item} :
    unescaped mark = some c → Items text items → Items ('\\' :: mark :: text) (.char c :: items)
  | unit {a b c d : Char} {n : ℕ} {text : List Char} {items : List Item} :
    hexUnit a b c d = some n → Items text items →
      Items ('\\' :: 'u' :: a :: b :: c :: d :: text) (.unit n :: items)

def readItems : List Char → Option (List Item × List Char)
  | [] => none
  | '"' :: rest => some ([], rest)
  | '\\' :: 'u' :: a :: b :: c :: d :: rest => do
    let n ← hexUnit a b c d
    let (items, rest) ← readItems rest
    some (.unit n :: items, rest)
  | '\\' :: mark :: rest => do
    let c ← unescaped mark
    let (items, rest) ← readItems rest
    some (.char c :: items, rest)
  | c :: rest =>
    if isPlain c then do
      let (items, rest) ← readItems rest
      some (.char c :: items, rest)
    else none

inductive Quoted : List Char → List Char → Prop
  | mk {text s : List Char} {items : List Item} :
    Items text items → spell items = some s → Quoted ('"' :: text ++ ['"']) s

def readQuoted : List Char → Option (List Char × List Char)
  | '"' :: text => do
    let (items, rest) ← readItems text
    let s ← spell items
    some (s, rest)
  | _ => none

section Strings
variable {text rest : List Char}

theorem readItems_sound {items : List Item} (read : readItems text = some (items, rest)) :
    ∃ inside, text = inside ++ '"' :: rest ∧ Items inside items := by
  fun_induction readItems text generalizing items with
  | case1 => cases read
  | case2 rest =>
    cases read
    exact ⟨[], rfl, .nil⟩
  | case3 a b c d later ih =>
    obtain ⟨n, unit, read⟩ := Option.bind_eq_some_iff.mp read
    obtain ⟨⟨found, left⟩, laterRead, read⟩ := Option.bind_eq_some_iff.mp read
    cases read
    obtain ⟨inside, rfl, written⟩ := ih laterRead
    exact ⟨_, rfl, .unit unit written⟩
  | case4 mark later notUnit ih =>
    obtain ⟨c, escaped, read⟩ := Option.bind_eq_some_iff.mp read
    obtain ⟨⟨found, left⟩, laterRead, read⟩ := Option.bind_eq_some_iff.mp read
    cases read
    obtain ⟨inside, rfl, written⟩ := ih laterRead
    exact ⟨_, rfl, .escape escaped written⟩
  | case5 c later notEnd notUnit notEscape plain ih =>
    obtain ⟨⟨found, left⟩, laterRead, read⟩ := Option.bind_eq_some_iff.mp read
    cases read
    obtain ⟨inside, rfl, written⟩ := ih laterRead
    exact ⟨_, rfl, .plain plain written⟩
  | case6 => cases read

theorem isPlain_ne {c : Char} (plain : isPlain c = true) : c ≠ '"' ∧ c ≠ '\\' := by
  simp only [isPlain, Bool.and_eq_true, decide_eq_true_eq] at plain
  exact ⟨plain.1.2, plain.2⟩

theorem readItems_complete {inside : List Char} {items : List Item} (written : Items inside items) :
    readItems (inside ++ '"' :: rest) = some (items, rest) := by
  induction written with
  | nil => rfl
  | plain plain _ ih =>
    obtain ⟨notQuote, notEscape⟩ := isPlain_ne plain
    rw [List.cons_append, readItems, if_pos plain, ih]
    · rfl
    · exact notQuote
    · exact fun _ _ _ _ _ escape => absurd escape notEscape
    · exact fun _ _ escape => absurd escape notEscape
  | escape escaped _ ih =>
    rw [List.cons_append, List.cons_append, readItems, escaped, ih]
    · rfl
    · rintro a b c d later rfl
      cases escaped
  | unit unit _ ih =>
    simp only [List.cons_append, readItems, unit, ih]
    rfl

theorem readQuoted_sound {s : List Char} (read : readQuoted text = some (s, rest)) :
    ∃ quoted, text = quoted ++ rest ∧ Quoted quoted s := by
  unfold readQuoted at read
  split at read
  · obtain ⟨⟨items, left⟩, itemsRead, read⟩ := Option.bind_eq_some_iff.mp read
    obtain ⟨s', spelt, read⟩ := Option.bind_eq_some_iff.mp read
    cases read
    obtain ⟨written, rfl, inside⟩ := readItems_sound itemsRead
    exact ⟨'"' :: written ++ ['"'], by simp, .mk inside spelt⟩
  · cases read

theorem readQuoted_complete {quoted s : List Char} (written : Quoted quoted s) :
    readQuoted (quoted ++ rest) = some (s, rest) := by
  cases written with
  | mk inside spelt =>
    rw [List.append_assoc, List.cons_append, List.singleton_append, readQuoted,
      readItems_complete inside]
    simp only [Option.bind_eq_bind, Option.bind_some, spelt]

theorem quoted_plain {s : List Char} (plain : ∀ c ∈ s, isPlain c = true) :
    Quoted ('"' :: s ++ ['"']) s := by
  have written : ∃ items, Items s items ∧ spell items = some s := by
    induction s with
    | nil => exact ⟨[], .nil, rfl⟩
    | cons c s ih =>
      obtain ⟨items, inside, spelt⟩ := ih fun d member => plain d (List.mem_cons_of_mem _ member)
      refine ⟨.char c :: items, .plain (plain c (List.mem_cons_self ..)) inside, ?_⟩
      rw [spell, spelt, Option.map_some]
  obtain ⟨items, inside, spelt⟩ := written
  exact .mk inside spelt

end Strings

end ZetMQ.JsonStrings
