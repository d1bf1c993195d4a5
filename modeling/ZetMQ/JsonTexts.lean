import ZetMQ.JsonNumbers
import ZetMQ.JsonStrings

/-! JSON texts. The grammar relates a text to the value that it says; white
space may stand around values and punctuation. The parser recurses on fuel, of which the
length of the text is enough, and finds exactly the values of the grammar, so a text says
at most one. Members of an object are kept in order, and a name may come twice. -/
namespace ZetMQ.JsonTexts
open JsonNumbers JsonStrings

inductive Json where
  | null
  | bool (b : Bool)
  | number (q : ℚ)
  | string (s : List Char)
  | array (items : List Json)
  | object (members : List (List Char × Json))

def isWs (c : Char) : Bool := c = ' ' || c = '\t' || c = '\n' || c = '\r'

def Ws (text : List Char) : Prop := ∀ c ∈ text, isWs c = true

/-- What a part of a text can say: a value, the values between brackets or the members
between braces. -/
inductive Part where
  | value (v : Json)
  | elements (items : List Json)
  | members (fields : List (List Char × Json))

inductive Denotes : List Char → Part → Prop
  | literalNull : Denotes "null".toList (.value .null)
  | literalTrue : Denotes "true".toList (.value (.bool true))
  | literalFalse : Denotes "false".toList (.value (.bool false))
  | number {text : List Char} {q : ℚ} : Number text q → Denotes text (.value (.number q))
  | string {text s : List Char} : Quoted text s → Denotes text (.value (.string s))
  | noElements {w : List Char} : Ws w → Denotes ('[' :: w ++ [']']) (.value (.array []))
  | array {text : List Char} {items : List Json} :
    Denotes text (.elements items) → Denotes ('[' :: text ++ [']']) (.value (.array items))
  | noMembers {w : List Char} : Ws w → Denotes ('{' :: w ++ ['}']) (.value (.object []))
  | object {text : List Char} {fields : List (List Char × Json)} :
    Denotes text (.members fields) → Denotes ('{' :: text ++ ['}']) (.value (.object fields))
  | element {before text after : List Char} {v : Json} :
    Ws before → Denotes text (.value v) → Ws after →
      Denotes (before ++ text ++ after) (.elements [v])
  | elements {before text after later : List Char} {v : Json} {items : List Json} :
    Ws before → Denotes text (.value v) → Ws after → Denotes later (.elements items) →
      Denotes (before ++ text ++ after ++ ',' :: later) (.elements (v :: items))
  | member {before key between colon text after k : List Char} {v : Json} :
    Ws before → Quoted key k → Ws between → Ws colon → Denotes text (.value v) → Ws after →
      Denotes (before ++ key ++ between ++ ':' :: (colon ++ text ++ after)) (.members [(k, v)])
  | members {before key between colon text after later k : List Char} {v : Json}
      {fields : List (List Char × Json)} :
    Ws before → Quoted key k → Ws between → Ws colon → Denotes text (.value v) → Ws after →
      Denotes later (.members fields) →
      Denotes (before ++ key ++ between ++ ':' :: (colon ++ text ++ after ++ ',' :: later))
        (.members ((k, v) :: fields))

def JsonText (text : List Char) (v : Json) : Prop :=
  ∃ before body after, Ws before ∧ Denotes body (.value v) ∧ Ws after ∧
    text = before ++ body ++ after

def skipWs (text : List Char) : List Char := text.dropWhile isWs

def readLiteral (literal : List Char) (v : Json) (text : List Char) : Option (Json × List Char) :=
  if literal <+: text then some (v, text.drop literal.length) else none

mutual

def readValue : ℕ → List Char → Option (Json × List Char)
  | 0, _ => none
  | fuel + 1, text =>
    match text with
    | '"' :: _ => (readQuoted text).map fun found => (.string found.1, found.2)
    | '[' :: rest =>
      match skipWs rest with
      | ']' :: rest => some (.array [], rest)
      | _ => (readElements fuel rest).map fun found => (.array found.1, found.2)
    | '{' :: rest =>
      match skipWs rest with
      | '}' :: rest => some (.object [], rest)
      | _ => (readMembers fuel rest).map fun found => (.object found.1, found.2)
    | 'n' :: _ => readLiteral "null".toList .null text
    | 't' :: _ => readLiteral "true".toList (.bool true) text
    | 'f' :: _ => readLiteral "false".toList (.bool false) text
    | _ => (readNumber text).map fun found => (.number found.1, found.2)

def readElements : ℕ → List Char → Option (List Json × List Char)
  | 0, _ => none
  | fuel + 1, text => do
    let (v, rest) ← readValue fuel (skipWs text)
    match skipWs rest with
    | ',' :: rest => (readElements fuel rest).map fun found => (v :: found.1, found.2)
    | ']' :: rest => some ([v], rest)
    | _ => none

def readMembers : ℕ → List Char → Option (List (List Char × Json) × List Char)
  | 0, _ => none
  | fuel + 1, text => do
    let (k, rest) ← readQuoted (skipWs text)
    match skipWs rest with
    | ':' :: rest => do
      let (v, rest) ← readValue fuel (skipWs rest)
      match skipWs rest with
      | ',' :: rest => (readMembers fuel rest).map fun found => ((k, v) :: found.1, found.2)
      | '}' :: rest => some ([(k, v)], rest)
      | _ => none
    | _ => none

end

def parseJson (text : List Char) : Option Json := do
  let (v, rest) ← readValue (text.length + 1) (skipWs text)
  if (skipWs rest).isEmpty then some v else none

theorem skipWs_split (text : List Char) : ∃ w, Ws w ∧ text = w ++ skipWs text :=
  ⟨text.takeWhile isWs, fun _ => List.mem_takeWhile_imp, List.takeWhile_append_dropWhile.symm⟩

theorem skipWs_append {w : List Char} (ws : Ws w) (text : List Char) :
    skipWs (w ++ text) = skipWs text :=
  List.dropWhile_append_of_pos ws

theorem skipWs_cons {c : Char} (mark : isWs c = false) (text : List Char) :
    skipWs (c :: text) = c :: text :=
  List.dropWhile_cons_of_neg (Bool.eq_false_iff.mp mark)

theorem readLiteral_sound {literal text rest : List Char} {v found : Json}
    (read : readLiteral literal v text = some (found, rest)) :
    found = v ∧ text = literal ++ rest := by
  unfold readLiteral at read
  split_ifs at read with starts
  cases read
  obtain ⟨rest, rfl⟩ := starts
  exact ⟨rfl, by rw [List.drop_left]⟩

theorem readLiteral_complete (literal rest : List Char) (v : Json) :
    readLiteral literal v (literal ++ rest) = some (v, rest) := by
  rw [readLiteral, if_pos (List.prefix_append ..), List.drop_left]

structure Sound (fuel : ℕ) : Prop where
  value : ∀ {text rest : List Char} {v : Json}, readValue fuel text = some (v, rest) →
    ∃ body, text = body ++ rest ∧ Denotes body (.value v)
  elements : ∀ {text rest : List Char} {items : List Json},
    readElements fuel text = some (items, rest) →
      ∃ body, text = body ++ ']' :: rest ∧ Denotes body (.elements items)
  members : ∀ {text rest : List Char} {fields : List (List Char × Json)},
    readMembers fuel text = some (fields, rest) →
      ∃ body, text = body ++ '}' :: rest ∧ Denotes body (.members fields)

theorem sound_zero : Sound 0 := by
  constructor
  · intro text rest v read
    rw [readValue] at read
    cases read
  · intro text rest items read
    rw [readElements] at read
    cases read
  · intro text rest fields read
    rw [readMembers] at read
    cases read

section Step
variable {fuel : ℕ} (sound : Sound fuel) {text rest : List Char}
include sound

theorem Sound.value_succ {v : Json} (read : readValue (fuel + 1) text = some (v, rest)) :
    ∃ body, text = body ++ rest ∧ Denotes body (.value v) := by
  unfold readValue at read
  split at read
  · obtain ⟨⟨s, left⟩, found, same⟩ := Option.map_eq_some_iff.mp read
    cases same
    obtain ⟨quoted, split, written⟩ := readQuoted_sound found
    exact ⟨quoted, split, .string written⟩
  · rename_i inner
    obtain ⟨w, ws, split⟩ := skipWs_split inner
    split at read
    · rename_i closed
      cases read
      rw [closed] at split
      exact ⟨'[' :: w ++ [']'], by rw [split]; simp, .noElements ws⟩
    · obtain ⟨⟨items, left⟩, found, same⟩ := Option.map_eq_some_iff.mp read
      cases same
      obtain ⟨body, rfl, denotes⟩ := sound.elements found
      exact ⟨'[' :: body ++ [']'], by simp, .array denotes⟩
  · rename_i inner
    obtain ⟨w, ws, split⟩ := skipWs_split inner
    split at read
    · rename_i closed
      cases read
      rw [closed] at split
      exact ⟨'{' :: w ++ ['}'], by rw [split]; simp, .noMembers ws⟩
    · obtain ⟨⟨items, left⟩, found, same⟩ := Option.map_eq_some_iff.mp read
      cases same
      obtain ⟨body, rfl, denotes⟩ := sound.members found
      exact ⟨'{' :: body ++ ['}'], by simp, .object denotes⟩
  · obtain ⟨rfl, split⟩ := readLiteral_sound read
    exact ⟨_, split, .literalNull⟩
  · obtain ⟨rfl, split⟩ := readLiteral_sound read
    exact ⟨_, split, .literalTrue⟩
  · obtain ⟨rfl, split⟩ := readLiteral_sound read
    exact ⟨_, split, .literalFalse⟩
  · obtain ⟨⟨q, left⟩, found, same⟩ := Option.map_eq_some_iff.mp read
    cases same
    obtain ⟨number, split, written⟩ := readNumber_sound found
    exact ⟨number, split, .number written⟩

theorem Sound.elements_succ {items : List Json}
    (read : readElements (fuel + 1) text = some (items, rest)) :
    ∃ body, text = body ++ ']' :: rest ∧ Denotes body (.elements items) := by
  rw [readElements] at read
  obtain ⟨⟨v, afterValue⟩, valueRead, read⟩ := Option.bind_eq_some_iff.mp read
  obtain ⟨body, split, denotes⟩ := sound.value valueRead
  obtain ⟨before, beforeWs, front⟩ := skipWs_split text
  obtain ⟨after, afterWs, back⟩ := skipWs_split afterValue
  dsimp only at read
  split at read
  · rename_i more
    obtain ⟨⟨items, left⟩, found, same⟩ := Option.map_eq_some_iff.mp read
    cases same
    obtain ⟨later, laterSplit, laterDenotes⟩ := sound.elements found
    refine ⟨before ++ body ++ after ++ ',' :: later, ?_,
      .elements beforeWs denotes afterWs laterDenotes⟩
    rw [front, split, back, more, laterSplit]
    simp
  · rename_i closed
    cases read
    refine ⟨before ++ body ++ after, ?_, .element beforeWs denotes afterWs⟩
    rw [front, split, back, closed]
    simp
  · cases read

theorem Sound.members_succ {fields : List (List Char × Json)}
    (read : readMembers (fuel + 1) text = some (fields, rest)) :
    ∃ body, text = body ++ '}' :: rest ∧ Denotes body (.members fields) := by
  rw [readMembers] at read
  obtain ⟨⟨k, afterKey⟩, keyRead, read⟩ := Option.bind_eq_some_iff.mp read
  obtain ⟨key, keySplit, quoted⟩ := readQuoted_sound keyRead
  obtain ⟨before, beforeWs, front⟩ := skipWs_split text
  obtain ⟨between, betweenWs, middle⟩ := skipWs_split afterKey
  dsimp only at read
  split at read
  · rename_i afterColon colonRead
    obtain ⟨⟨v, afterValue⟩, valueRead, read⟩ := Option.bind_eq_some_iff.mp read
    obtain ⟨body, split, denotes⟩ := sound.value valueRead
    obtain ⟨colon, colonWs, colonSplit⟩ := skipWs_split afterColon
    obtain ⟨after, afterWs, back⟩ := skipWs_split afterValue
    dsimp only at read
    split at read
    · rename_i more
      obtain ⟨⟨fields, left⟩, found, same⟩ := Option.map_eq_some_iff.mp read
      cases same
      obtain ⟨later, laterSplit, laterDenotes⟩ := sound.members found
      refine ⟨before ++ key ++ between ++ ':' :: (colon ++ body ++ after ++ ',' :: later), ?_,
        .members beforeWs quoted betweenWs colonWs denotes afterWs laterDenotes⟩
      rw [front, keySplit, middle, colonRead, colonSplit, split, back, more, laterSplit]
      simp
    · rename_i closed
      cases read
      refine ⟨before ++ key ++ between ++ ':' :: (colon ++ body ++ after), ?_,
        .member beforeWs quoted betweenWs colonWs denotes afterWs⟩
      rw [front, keySplit, middle, colonRead, colonSplit, split, back, closed]
      simp
    · cases read
  · cases read

end Step

theorem sound (fuel : ℕ) : Sound fuel := by
  induction fuel with
  | zero => exact sound_zero
  | succ fuel ih => exact ⟨ih.value_succ, ih.elements_succ, ih.members_succ⟩

def arrayText (items : List (List Char)) : List Char := '[' :: [','].intercalate items ++ [']']

def memberText (key text : List Char) : List Char := '"' :: key ++ '"' :: ':' :: text

/-- An object without spaces, of keys as they are written and texts of values. -/
def objectText (fields : List (List Char × List Char)) : List Char :=
  '{' :: [','].intercalate (fields.map fun field => memberText field.1 field.2) ++ ['}']

theorem ws_nil : Ws [] := fun _ member => absurd member List.not_mem_nil

section Compact
variable {items : List (List Char)} {values : List Json}
  {fields : List (List Char × List Char)} {members : List (List Char × Json)}

section
variable (each : List.Forall₂ (fun text v => Denotes text (.value v)) items values)
include each

theorem denotes_elements (some : items ≠ []) :
    Denotes ([','].intercalate items) (.elements values) := by
  induction each with
  | nil => exact absurd rfl some
  | @cons text v items values first later ih =>
    cases later with
    | nil =>
      have one := Denotes.element ws_nil first ws_nil
      rw [List.intercalate_singleton]
      rwa [List.nil_append, List.append_nil] at one
    | cons second later =>
      have more := Denotes.elements ws_nil first ws_nil (ih (List.cons_ne_nil _ _))
      rw [List.intercalate_cons_cons, List.append_assoc, List.singleton_append]
      rwa [List.nil_append, List.append_nil] at more

theorem denotes_array : Denotes (arrayText items) (.value (.array values)) := by
  cases each with
  | nil => exact .noElements ws_nil
  | cons first later => exact .array (denotes_elements (.cons first later) (List.cons_ne_nil _ _))

end

/-- What one member has to say. -/
structure Field (field : List Char × List Char) (member : List Char × Json) : Prop where
  key : Quoted ('"' :: field.1 ++ ['"']) member.1
  value : Denotes field.2 (.value member.2)

section
variable (each : List.Forall₂ Field fields members)
include each

theorem denotes_members (some : fields ≠ []) :
    Denotes ([','].intercalate (fields.map fun field => memberText field.1 field.2))
      (.members members) := by
  induction each with
  | nil => exact absurd rfl some
  | @cons field member fields members first later ih =>
    cases later with
    | nil =>
      have one := Denotes.member ws_nil first.key ws_nil ws_nil first.value ws_nil
      simpa [memberText] using one
    | cons second later =>
      have more := Denotes.members ws_nil first.key ws_nil ws_nil first.value ws_nil
        (ih (List.cons_ne_nil _ _))
      simpa [memberText] using more

theorem denotes_object : Denotes (objectText fields) (.value (.object members)) := by
  cases each with
  | nil => exact .noMembers ws_nil
  | cons first later => exact .object (denotes_members (.cons first later) (List.cons_ne_nil _ _))

end

end Compact

end ZetMQ.JsonTexts
