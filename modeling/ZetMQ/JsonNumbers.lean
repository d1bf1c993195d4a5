import Mathlib.Data.List.TakeWhile
import Mathlib.Data.Rat.Cast.Order

/-! Numbers of JSON: what may be written, which rational number it is, and
a reader that takes one number off the front of a text. The reader takes as much as it can,
so what it finds is the number there is, provided that what follows cannot go on with it. -/
namespace ZetMQ.JsonNumbers

def Digits (ds : List Char) : Prop := ds ≠ [] ∧ ∀ c ∈ ds, c.isDigit = true

structure IntPart (ds : List Char) : Prop where
  digits : Digits ds
  lead : ds.head? = some '0' → ds = ['0']

/-- A text and the digits behind its decimal point. -/
inductive FracPart : List Char → List Char → Prop
  | absent : FracPart [] []
  | digits {ds : List Char} : Digits ds → FracPart ('.' :: ds) ds

def natOf (ds : List Char) : ℕ := Nat.ofDigitChars 10 ds 0

/-- Digits with an optional sign. -/
inductive Exponent : List Char → ℤ → Prop
  | plain {ds : List Char} : Digits ds → Exponent ds (natOf ds)
  | plus {ds : List Char} : Digits ds → Exponent ('+' :: ds) (natOf ds)
  | minus {ds : List Char} : Digits ds → Exponent ('-' :: ds) (-natOf ds)

inductive ExpPart : List Char → ℤ → Prop
  | absent : ExpPart [] 0
  | marked {mark : Char} {text : List Char} {n : ℤ} :
    mark = 'e' ∨ mark = 'E' → Exponent text n → ExpPart (mark :: text) n

def decimalValue (int ds : List Char) (exponent : ℤ) : ℚ :=
  natOf (int ++ ds) * 10 ^ (exponent - ds.length)

inductive Unsigned : List Char → ℚ → Prop
  | mk {int frac ds exp : List Char} {exponent : ℤ} :
    IntPart int → FracPart frac ds → ExpPart exp exponent →
      Unsigned (int ++ (frac ++ exp)) (decimalValue int ds exponent)

inductive Number : List Char → ℚ → Prop
  | positive {text : List Char} {q : ℚ} : Unsigned text q → Number text q
  | negative {text : List Char} {q : ℚ} : Unsigned text q → Number ('-' :: text) (-q)

def readDigits (text : List Char) : Option (List Char × List Char) :=
  let ds := text.takeWhile Char.isDigit
  if ds = [] then none else some (ds, text.dropWhile Char.isDigit)

def readFrac : List Char → Option (List Char × List Char)
  | '.' :: rest => readDigits rest
  | text => some ([], text)

def readSigned (sign : ℕ → ℤ) (text : List Char) : Option (ℤ × List Char) :=
  (readDigits text).map fun found => (sign (natOf found.1), found.2)

def readExponent : List Char → Option (ℤ × List Char)
  | '+' :: rest => readSigned (fun n => n) rest
  | '-' :: rest => readSigned (fun n => -n) rest
  | text => readSigned (fun n => n) text

def readExp : List Char → Option (ℤ × List Char)
  | [] => some (0, [])
  | mark :: rest =>
    if mark = 'e' ∨ mark = 'E' then readExponent rest else some (0, mark :: rest)

def readUnsigned (text : List Char) : Option (ℚ × List Char) := do
  let (int, rest) ← readDigits text
  if int.head? = some '0' ∧ int ≠ ['0'] then none
  else do
    let (ds, rest) ← readFrac rest
    let (exponent, rest) ← readExp rest
    some (decimalValue int ds exponent, rest)

def readNumber : List Char → Option (ℚ × List Char)
  | '-' :: rest => (readUnsigned rest).map fun found => (-found.1, found.2)
  | text => readUnsigned text

/-- A text that no number goes on with. -/
def Stops (rest : List Char) : Prop :=
  ∀ c ∈ rest.head?, c.isDigit = false ∧ c ≠ '.' ∧ c ≠ 'e' ∧ c ≠ 'E'

variable {ds exp number : List Char} {n : ℤ} {q : ℚ}

section Numbers
variable {text rest : List Char}

theorem readDigits_sound (read : readDigits text = some (ds, rest)) :
    text = ds ++ rest ∧ Digits ds := by
  unfold readDigits at read
  dsimp only at read
  split_ifs at read with none
  cases read
  exact ⟨List.takeWhile_append_dropWhile.symm, none, fun c => List.mem_takeWhile_imp⟩

theorem readDigits_complete (digits : Digits ds) (ends : ∀ c ∈ rest.head?, c.isDigit = false) :
    readDigits (ds ++ rest) = some (ds, rest) := by
  have none : rest.takeWhile Char.isDigit = [] ∧ rest.dropWhile Char.isDigit = rest := by
    cases rest with
    | nil => exact ⟨rfl, rfl⟩
    | cons c rest =>
      have other := ends c rfl
      simp [other]
  unfold readDigits
  dsimp only
  rw [List.takeWhile_append_of_pos digits.2, List.dropWhile_append_of_pos digits.2, none.1, none.2,
    List.append_nil, if_neg digits.1]

theorem readFrac_sound (read : readFrac text = some (ds, rest)) :
    ∃ frac, text = frac ++ rest ∧ FracPart frac ds := by
  unfold readFrac at read
  split at read
  · obtain ⟨rfl, digits⟩ := readDigits_sound read
    exact ⟨_, rfl, .digits digits⟩
  · cases read
    exact ⟨[], rfl, .absent⟩

theorem readFrac_complete {frac : List Char} (part : FracPart frac ds)
    (ends : ∀ c ∈ rest.head?, c.isDigit = false ∧ c ≠ '.') :
    readFrac (frac ++ rest) = some (ds, rest) := by
  cases part with
  | absent =>
    unfold readFrac
    split
    · rename_i later same
      rw [List.nil_append] at same
      exact absurd rfl (ends '.' (by rw [same]; rfl)).2
    · rfl
  | digits digits => exact readDigits_complete digits fun c member => (ends c member).1

theorem readSigned_sound {sign : ℕ → ℤ} (read : readSigned sign text = some (n, rest)) :
    ∃ ds, text = ds ++ rest ∧ Digits ds ∧ n = sign (natOf ds) := by
  obtain ⟨⟨ds, left⟩, found, same⟩ := Option.map_eq_some_iff.mp read
  cases same
  obtain ⟨split, digits⟩ := readDigits_sound found
  exact ⟨ds, split, digits, rfl⟩

theorem readExponent_sound (read : readExponent text = some (n, rest)) :
    ∃ exp, text = exp ++ rest ∧ Exponent exp n := by
  unfold readExponent at read
  split at read <;> obtain ⟨ds, rfl, digits, rfl⟩ := readSigned_sound read
  · exact ⟨_, rfl, .plus digits⟩
  · exact ⟨_, rfl, .minus digits⟩
  · exact ⟨_, rfl, .plain digits⟩

theorem readExp_sound (read : readExp text = some (n, rest)) :
    ∃ exp, text = exp ++ rest ∧ ExpPart exp n := by
  unfold readExp at read
  split at read
  · cases read
    exact ⟨[], rfl, .absent⟩
  · split_ifs at read with mark
    · obtain ⟨exp, rfl, exponent⟩ := readExponent_sound read
      exact ⟨_, rfl, .marked mark exponent⟩
    · cases read
      exact ⟨[], rfl, .absent⟩

theorem Digits.head_ne (digits : Digits ds) {c : Char} (other : c.isDigit = false)
    (tail : List Char) : ds ++ rest ≠ c :: tail := by
  intro same
  obtain ⟨d, ds', rfl⟩ := List.exists_cons_of_ne_nil digits.1
  have digit := digits.2 d (List.mem_cons_self ..)
  rw [List.cons_append, List.cons.injEq] at same
  rw [same.1, other] at digit
  cases digit

theorem readExponent_complete (exponent : Exponent exp n)
    (ends : ∀ c ∈ rest.head?, c.isDigit = false) : readExponent (exp ++ rest) = some (n, rest) := by
  have read : ∀ {ds : List Char} (sign : ℕ → ℤ), Digits ds →
      readSigned sign (ds ++ rest) = some (sign (natOf ds), rest) := by
    intro ds sign digits
    rw [readSigned, readDigits_complete digits ends, Option.map_some]
  cases exponent with
  | plus digits => exact read _ digits
  | minus digits => exact read (fun n => -n) digits
  | plain digits =>
    unfold readExponent
    split
    · exact absurd ‹_› (digits.head_ne (by decide) _)
    · exact absurd ‹_› (digits.head_ne (by decide) _)
    · exact read _ digits

theorem readExp_complete (part : ExpPart exp n) (ends : Stops rest) :
    readExp (exp ++ rest) = some (n, rest) := by
  cases part with
  | absent =>
    cases rest with
    | nil => rfl
    | cons c rest =>
      obtain ⟨-, -, small, large⟩ := ends c rfl
      exact if_neg (not_or.mpr ⟨small, large⟩)
  | marked mark exponent =>
    rw [List.cons_append, readExp, if_pos mark]
    exact readExponent_complete exponent fun c member => (ends c member).1

theorem ExpPart.ends {exponent : ℤ} (part : ExpPart exp exponent) (ends : Stops rest) :
    ∀ c ∈ (exp ++ rest).head?, c.isDigit = false ∧ c ≠ '.' := by
  intro c member
  cases part with
  | absent => exact ⟨(ends c member).1, (ends c member).2.1⟩
  | marked mark exponent =>
    cases member
    rcases mark with rfl | rfl <;> decide

theorem FracPart.ends {frac later : List Char} (part : FracPart frac ds)
    (ends : ∀ c ∈ later.head?, c.isDigit = false ∧ c ≠ '.') :
    ∀ c ∈ (frac ++ later).head?, c.isDigit = false := by
  intro c member
  cases part with
  | absent => exact (ends c member).1
  | digits digits =>
    cases member
    decide

theorem readUnsigned_sound (read : readUnsigned text = some (q, rest)) :
    ∃ number, text = number ++ rest ∧ Unsigned number q := by
  obtain ⟨⟨int, afterInt⟩, intRead, read⟩ := Option.bind_eq_some_iff.mp read
  dsimp only at read
  split_ifs at read with lead
  obtain ⟨⟨ds, afterFrac⟩, fracRead, read⟩ := Option.bind_eq_some_iff.mp read
  obtain ⟨⟨exponent, afterExp⟩, expRead, read⟩ := Option.bind_eq_some_iff.mp read
  cases read
  obtain ⟨rfl, digits⟩ := readDigits_sound intRead
  obtain ⟨frac, rfl, fracPart⟩ := readFrac_sound fracRead
  obtain ⟨exp, rfl, expPart⟩ := readExp_sound expRead
  refine ⟨int ++ (frac ++ exp), by simp only [List.append_assoc], .mk ⟨digits, ?_⟩ fracPart expPart⟩
  intro zero
  by_contra more
  exact lead ⟨zero, more⟩

theorem readUnsigned_complete (unsigned : Unsigned number q) (ends : Stops rest) :
    readUnsigned (number ++ rest) = some (q, rest) := by
  cases unsigned with
  | @mk int frac ds exp exponent intPart fracPart expPart =>
    have afterFrac := expPart.ends ends
    have afterInt := fracPart.ends afterFrac
    rw [List.append_assoc, List.append_assoc, readUnsigned,
      readDigits_complete intPart.digits afterInt]
    simp only [Option.bind_eq_bind, Option.bind_some]
    rw [if_neg fun bad => bad.2 (intPart.lead bad.1), readFrac_complete fracPart afterFrac,
      Option.bind_some, readExp_complete expPart ends, Option.bind_some]

theorem readNumber_sound (read : readNumber text = some (q, rest)) :
    ∃ number, text = number ++ rest ∧ Number number q := by
  unfold readNumber at read
  split at read
  · obtain ⟨⟨p, left⟩, found, same⟩ := Option.map_eq_some_iff.mp read
    cases same
    obtain ⟨number, rfl, unsigned⟩ := readUnsigned_sound found
    exact ⟨_, rfl, .negative unsigned⟩
  · obtain ⟨number, rfl, unsigned⟩ := readUnsigned_sound read
    exact ⟨_, rfl, .positive unsigned⟩

theorem Unsigned.head (unsigned : Unsigned number q) :
    ∃ c tail, number = c :: tail ∧ c.isDigit = true := by
  cases unsigned with
  | @mk int frac ds exp exponent intPart fracPart expPart =>
    obtain ⟨c, tail, rfl⟩ := List.exists_cons_of_ne_nil intPart.digits.1
    exact ⟨c, _, rfl, intPart.digits.2 c (List.mem_cons_self ..)⟩

theorem readNumber_complete (written : Number number q) (ends : Stops rest) :
    readNumber (number ++ rest) = some (q, rest) := by
  cases written with
  | positive unsigned =>
    obtain ⟨c, tail, rfl, digit⟩ := unsigned.head
    have read := readUnsigned_complete unsigned ends
    unfold readNumber
    split
    · rename_i later same
      cases same
      exact absurd digit (by decide)
    · exact read
  | negative unsigned =>
    rw [List.cons_append, readNumber, readUnsigned_complete unsigned ends, Option.map_some]

theorem natOf_toDigits (n : ℕ) : natOf (Nat.toDigits 10 n) = n := Nat.ofDigitChars_ten_toDigits

theorem toDigits_lead (n : ℕ) (zero : (Nat.toDigits 10 n).head? = some '0') :
    Nat.toDigits 10 n = ['0'] := by
  induction n using Nat.strongRecOn with
  | ind n ih =>
    rcases Nat.lt_or_ge n 10 with small | large
    · rw [Nat.toDigits_of_lt_base small] at zero ⊢
      rw [Option.some.inj zero]
    · have front : (Nat.toDigits 10 (n / 10)).head? = some '0' := by
        rw [Nat.toDigits_of_base_le (by decide) large] at zero
        obtain ⟨c, tail, split⟩ := List.exists_cons_of_ne_nil (@Nat.toDigits_ne_nil (n / 10) 10)
        rw [split] at zero ⊢
        exact zero
      have tenth := congrArg natOf (ih (n / 10) (by omega) front)
      rw [natOf_toDigits] at tenth
      have none : natOf ['0'] = 0 := by decide
      omega

theorem number_toDigits (n : ℕ) : Number (Nat.toDigits 10 n) n := by
  have digits : Digits (Nat.toDigits 10 n) :=
    ⟨Nat.toDigits_ne_nil, fun _ => Nat.isDigit_of_mem_toDigits (by decide) (by decide)⟩
  have written := Unsigned.mk ⟨digits, toDigits_lead n⟩ .absent .absent
  simp only [List.append_nil, decimalValue, natOf_toDigits, List.length_nil, Nat.cast_zero,
    sub_zero, zpow_zero, mul_one] at written
  exact .positive written

end Numbers

end ZetMQ.JsonNumbers
