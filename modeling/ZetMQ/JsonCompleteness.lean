import ZetMQ.JsonTexts

/-! The parser against the grammar of JSON texts: whatever the grammar derives is found, so
parser and grammar have the same texts and a text has one value at most. -/
namespace ZetMQ.JsonCompleteness
open JsonNumbers JsonStrings JsonTexts

theorem stops_cons {c : Char} (mark : c ∈ [',', ']', '}']) (rest : List Char) :
    Stops (c :: rest) := by
  intro d member
  cases member
  simp only [List.mem_cons, List.not_mem_nil, or_false] at mark
  rcases mark with rfl | rfl | rfl <;> decide

variable {w key between k : List Char} {items : List Json} {fields : List (List Char × Json)}

theorem stops_ws {rest : List Char} (ws : Ws w) (stops : Stops rest) : Stops (w ++ rest) := by
  intro c member
  cases w with
  | nil => exact stops c member
  | cons d w =>
    cases member
    have space := ws c (List.mem_cons_self ..)
    simp only [isWs, Bool.or_eq_true, decide_eq_true_eq] at space
    rcases space with ((rfl | rfl) | rfl) | rfl <;> decide

theorem number_head {text : List Char} {q : ℚ} (number : Number text q) :
    ∃ c tail, text = c :: tail ∧ (c = '-' ∨ c.isDigit = true) := by
  cases number with
  | positive unsigned =>
    obtain ⟨c, tail, rfl, digit⟩ := unsigned.head
    exact ⟨c, tail, rfl, .inr digit⟩
  | negative unsigned => exact ⟨'-', _, rfl, .inl rfl⟩

theorem lead_ne {c d : Char} (lead : c = '-' ∨ c.isDigit = true)
    (other : d ≠ '-' ∧ d.isDigit = false) : c ≠ d := by
  rintro rfl
  rcases lead with minus | digit
  · exact other.1 minus
  · rw [digit] at other
    cases other.2

theorem readValue_number (fuel : ℕ) {c : Char} (lead : c = '-' ∨ c.isDigit = true)
    (tail : List Char) :
    readValue (fuel + 1) (c :: tail) =
      (readNumber (c :: tail)).map fun found => (.number found.1, found.2) := by
  rw [readValue]
  all_goals
    intro _ same
    exact absurd (List.cons.inj same).1 (lead_ne lead (by decide))

theorem denotes_head {text : List Char} {v : Json} (denotes : Denotes text (.value v)) :
    ∃ c tail, text = c :: tail ∧ isWs c = false ∧ c ≠ ']' := by
  cases denotes with
  | literalNull => exact ⟨'n', _, rfl, by decide, by decide⟩
  | literalTrue => exact ⟨'t', _, rfl, by decide, by decide⟩
  | literalFalse => exact ⟨'f', _, rfl, by decide, by decide⟩
  | number number =>
    obtain ⟨c, tail, rfl, lead⟩ := number_head number
    refine ⟨c, tail, rfl, ?_, lead_ne lead (by decide)⟩
    simp only [isWs, Bool.or_eq_false_iff, decide_eq_false_iff_not]
    exact ⟨⟨⟨lead_ne lead (by decide), lead_ne lead (by decide)⟩, lead_ne lead (by decide)⟩,
      lead_ne lead (by decide)⟩
  | string quoted =>
    cases quoted
    exact ⟨'"', _, rfl, by decide, by decide⟩
  | noElements ws => exact ⟨'[', _, rfl, by decide, by decide⟩
  | array inner => exact ⟨'[', _, rfl, by decide, by decide⟩
  | noMembers ws => exact ⟨'{', _, rfl, by decide, by decide⟩
  | object inner => exact ⟨'{', _, rfl, by decide, by decide⟩

theorem skip_to_value {before text : List Char} {v : Json} (beforeWs : Ws before)
    (value : Denotes text (.value v)) (rest : List Char) :
    skipWs (before ++ text ++ rest) = text ++ rest := by
  obtain ⟨c, tail, rfl, mark, -⟩ := denotes_head value
  rw [List.append_assoc, skipWs_append beforeWs, List.cons_append, skipWs_cons mark]

/-- The parser finds a part wherever it stands, with fuel for its length. -/
def Found (text : List Char) : Part → Prop
  | .value v => ∀ fuel rest, text.length ≤ fuel → Stops rest →
    readValue (fuel + 1) (text ++ rest) = some (v, rest)
  | .elements items => ∀ fuel rest, text.length < fuel →
    readElements (fuel + 1) (text ++ ']' :: rest) = some (items, rest)
  | .members fields => ∀ fuel rest, text.length < fuel →
    readMembers (fuel + 1) (text ++ '}' :: rest) = some (fields, rest)

theorem found_number {text : List Char} {q : ℚ} (number : Number text q) :
    Found text (.value (.number q)) := by
  intro fuel rest _ stops
  have read := readNumber_complete number stops
  obtain ⟨c, tail, rfl, lead⟩ := number_head number
  rw [List.cons_append] at read ⊢
  rw [readValue_number fuel lead, read, Option.map_some]

theorem found_string {text s : List Char} (quoted : Quoted text s) :
    Found text (.value (.string s)) := by
  intro fuel rest _ _
  have read := @readQuoted_complete rest _ _ quoted
  cases quoted
  rw [List.cons_append] at read ⊢
  rw [List.cons_append] at read ⊢
  rw [readValue, read, Option.map_some]

theorem skip_closed (ws : Ws w) {close : Char} (mark : isWs close = false) (rest : List Char) :
    skipWs (w ++ [close] ++ rest) = close :: rest := by
  rw [List.append_assoc, skipWs_append ws, List.singleton_append, skipWs_cons mark]

theorem found_noElements (ws : Ws w) : Found ('[' :: w ++ [']']) (.value (.array [])) := by
  intro fuel rest _ _
  rw [List.cons_append, List.cons_append, readValue, skip_closed ws (by decide)]
  rfl

theorem found_noMembers (ws : Ws w) : Found ('{' :: w ++ ['}']) (.value (.object [])) := by
  intro fuel rest _ _
  rw [List.cons_append, List.cons_append, readValue, skip_closed ws (by decide)]
  rfl

theorem elements_head {text : List Char} (denotes : Denotes text (.elements items))
    (rest : List Char) :
    ∃ c tail, skipWs (text ++ rest) = c :: tail ∧ c ≠ ']' := by
  cases denotes with
  | element beforeWs value afterWs | elements beforeWs value afterWs later =>
    obtain ⟨c, tail, rfl, mark, inside⟩ := denotes_head value
    simp only [List.append_assoc, List.cons_append]
    rw [skipWs_append beforeWs, skipWs_cons mark]
    exact ⟨c, _, rfl, inside⟩

theorem members_head {text : List Char} (denotes : Denotes text (.members fields))
    (rest : List Char) :
    ∃ c tail, skipWs (text ++ rest) = c :: tail ∧ c ≠ '}' := by
  cases denotes with
  | member beforeWs quoted | members beforeWs quoted =>
    cases quoted
    simp only [List.append_assoc, List.cons_append]
    rw [skipWs_append beforeWs, skipWs_cons (by decide)]
    exact ⟨'"', _, rfl, by decide⟩

theorem found_array {text : List Char} (denotes : Denotes text (.elements items))
    (found : Found text (.elements items)) :
    Found ('[' :: text ++ [']']) (.value (.array items)) := by
  intro fuel rest enough _
  obtain ⟨fuel, rfl⟩ : ∃ n, fuel = n + 1 := ⟨fuel - 1, by simp at enough; omega⟩
  have inner := found fuel rest (by simp at enough; omega)
  obtain ⟨c, tail, skip, inside⟩ := elements_head denotes (']' :: rest)
  rw [List.cons_append, List.cons_append, List.append_assoc, List.singleton_append, readValue, skip]
  split
  · exact absurd (List.cons.inj ‹_›).1 inside
  · rw [inner, Option.map_some]

theorem found_object {text : List Char} (denotes : Denotes text (.members fields))
    (found : Found text (.members fields)) :
    Found ('{' :: text ++ ['}']) (.value (.object fields)) := by
  intro fuel rest enough _
  obtain ⟨fuel, rfl⟩ : ∃ n, fuel = n + 1 := ⟨fuel - 1, by simp at enough; omega⟩
  have inner := found fuel rest (by simp at enough; omega)
  obtain ⟨c, tail, skip, inside⟩ := members_head denotes ('}' :: rest)
  rw [List.cons_append, List.cons_append, List.append_assoc, List.singleton_append, readValue, skip]
  split
  · exact absurd (List.cons.inj ‹_›).1 inside
  · rw [inner, Option.map_some]

theorem read_key {before : List Char} (beforeWs : Ws before) (quoted : Quoted key k)
    (betweenWs : Ws between) (rest : List Char) :
    ∃ left, readQuoted (skipWs (before ++ key ++ between ++ ':' :: rest)) = some (k, left) ∧
      skipWs left = ':' :: rest := by
  have read := @readQuoted_complete (between ++ ':' :: rest) _ _ quoted
  refine ⟨between ++ ':' :: rest, ?_, ?_⟩
  · cases quoted
    rw [List.append_assoc, List.append_assoc, skipWs_append beforeWs]
    rw [List.cons_append, List.cons_append] at read ⊢
    rw [skipWs_cons (by decide), read]
  · rw [skipWs_append betweenWs, skipWs_cons (by decide)]

section Spaced
variable {before text after : List Char} {v : Json} (beforeWs : Ws before)
  (value : Denotes text (.value v)) (afterWs : Ws after) (found : Found text (.value v))
include beforeWs value afterWs found

theorem read_spaced {fuel : ℕ} (enough : text.length < fuel) {mark : Char}
    (ends : mark ∈ [',', ']', '}']) (rest : List Char) :
    ∃ left, readValue fuel (skipWs (before ++ text ++ after ++ mark :: rest)) = some (v, left) ∧
      skipWs left = mark :: rest := by
  obtain ⟨fuel, rfl⟩ : ∃ n, fuel = n + 1 := ⟨fuel - 1, by omega⟩
  have stops : Stops (after ++ mark :: rest) := stops_ws afterWs (stops_cons ends rest)
  have noSpace : isWs mark = false := by
    simp only [List.mem_cons, List.not_mem_nil, or_false] at ends
    rcases ends with rfl | rfl | rfl <;> decide
  refine ⟨after ++ mark :: rest, ?_, ?_⟩
  · rw [List.append_assoc, skip_to_value beforeWs value]
    exact found fuel _ (by omega) stops
  · rw [skipWs_append afterWs, skipWs_cons noSpace]

theorem found_element : Found (before ++ text ++ after) (.elements [v]) := by
  intro fuel rest enough
  simp only [List.length_append] at enough
  obtain ⟨left, read, skip⟩ := read_spaced beforeWs value afterWs found
    (show text.length < fuel by omega) (show ']' ∈ [',', ']', '}'] by decide) rest
  rw [readElements, read]
  simp only [Option.bind_eq_bind, Option.bind_some, skip]

theorem found_elements {later : List Char} (laterFound : Found later (.elements items)) :
    Found (before ++ text ++ after ++ ',' :: later) (.elements (v :: items)) := by
  intro fuel rest enough
  simp only [List.length_append, List.length_cons] at enough
  obtain ⟨fuel, rfl⟩ : ∃ n, fuel = n + 1 := ⟨fuel - 1, by omega⟩
  obtain ⟨left, read, skip⟩ := read_spaced beforeWs value afterWs found
    (show text.length < fuel + 1 by omega) (show ',' ∈ [',', ']', '}'] by decide)
    (later ++ ']' :: rest)
  rw [List.append_assoc, List.cons_append, readElements, read]
  simp only [Option.bind_eq_bind, Option.bind_some, skip, laterFound fuel rest (by omega),
    Option.map_some]

theorem found_member {first : List Char} (firstWs : Ws first) (quoted : Quoted key k)
    (betweenWs : Ws between) :
    Found (first ++ key ++ between ++ ':' :: (before ++ text ++ after)) (.members [(k, v)]) := by
  intro fuel rest enough
  simp only [List.length_append, List.length_cons] at enough
  obtain ⟨left, keyRead, colonSkip⟩ := read_key firstWs quoted betweenWs
    (before ++ text ++ after ++ '}' :: rest)
  obtain ⟨left', read, skip⟩ := read_spaced beforeWs value afterWs found
    (show text.length < fuel by omega) (show '}' ∈ [',', ']', '}'] by decide) rest
  rw [List.append_assoc, List.cons_append, readMembers, keyRead]
  simp only [Option.bind_eq_bind, Option.bind_some, colonSkip, read, skip]

theorem found_members {first later : List Char} (firstWs : Ws first) (quoted : Quoted key k)
    (betweenWs : Ws between) (laterFound : Found later (.members fields)) :
    Found (first ++ key ++ between ++ ':' :: (before ++ text ++ after ++ ',' :: later))
      (.members ((k, v) :: fields)) := by
  intro fuel rest enough
  simp only [List.length_append, List.length_cons] at enough
  obtain ⟨fuel, rfl⟩ : ∃ n, fuel = n + 1 := ⟨fuel - 1, by omega⟩
  obtain ⟨left, keyRead, colonSkip⟩ := read_key firstWs quoted betweenWs
    (before ++ text ++ after ++ ',' :: (later ++ '}' :: rest))
  obtain ⟨left', read, skip⟩ := read_spaced beforeWs value afterWs found
    (show text.length < fuel + 1 by omega) (show ',' ∈ [',', ']', '}'] by decide)
    (later ++ '}' :: rest)
  rw [List.append_assoc, List.cons_append, List.append_assoc _ (',' :: later), List.cons_append,
    readMembers, keyRead]
  simp only [Option.bind_eq_bind, Option.bind_some, colonSkip, read, skip,
    laterFound fuel rest (by omega), Option.map_some]

end Spaced

theorem found_of_denotes {text : List Char} {part : Part} (denotes : Denotes text part) :
    Found text part := by
  induction denotes with
  | literalNull => exact fun fuel rest _ _ => readLiteral_complete "null".toList rest .null
  | literalTrue => exact fun fuel rest _ _ => readLiteral_complete "true".toList rest _
  | literalFalse => exact fun fuel rest _ _ => readLiteral_complete "false".toList rest _
  | number number => exact found_number number
  | string quoted => exact found_string quoted
  | noElements ws => exact found_noElements ws
  | array inner ih => exact found_array inner ih
  | noMembers ws => exact found_noMembers ws
  | object inner ih => exact found_object inner ih
  | element beforeWs value afterWs ih => exact found_element beforeWs value afterWs ih
  | elements beforeWs value afterWs later ih laterFound =>
    exact found_elements beforeWs value afterWs ih laterFound
  | member beforeWs quoted betweenWs colonWs value afterWs ih =>
    exact found_member colonWs value afterWs ih beforeWs quoted betweenWs
  | members beforeWs quoted betweenWs colonWs value afterWs later ih laterFound =>
    exact found_members colonWs value afterWs ih beforeWs quoted betweenWs laterFound

/-- The parser decides the grammar. -/
theorem parseJson_iff (text : List Char) (v : Json) :
    parseJson text = some v ↔ JsonText text v := by
  constructor
  · intro parsed
    obtain ⟨⟨found, rest⟩, read, parsed⟩ := Option.bind_eq_some_iff.mp parsed
    dsimp only at parsed
    split_ifs at parsed with ended
    cases parsed
    obtain ⟨body, split, denotes⟩ := (sound _).value read
    obtain ⟨before, beforeWs, front⟩ := skipWs_split text
    obtain ⟨after, afterWs, back⟩ := skipWs_split rest
    rw [List.isEmpty_iff] at ended
    rw [ended, List.append_nil] at back
    refine ⟨before, body, after, beforeWs, denotes, afterWs, ?_⟩
    rw [List.append_assoc, ← back, ← split, ← front]
  · rintro ⟨before, body, after, beforeWs, denotes, afterWs, rfl⟩
    have stops : Stops after := by
      have ends := stops_ws afterWs (show Stops [] from fun c member => nomatch member)
      rwa [List.append_nil] at ends
    have ended : skipWs after = [] := by
      have skip := skipWs_append afterWs []
      rwa [List.append_nil] at skip
    have found := found_of_denotes denotes (before ++ body ++ after).length after
      (by simp only [List.length_append]; omega) stops
    rw [parseJson, skip_to_value beforeWs denotes, found]
    simp only [Option.bind_eq_bind, Option.bind_some, ended, List.isEmpty_nil, if_true]

theorem jsonText_unique {text : List Char} {v w : Json} (first : JsonText text v)
    (second : JsonText text w) : v = w := by
  rw [← parseJson_iff] at first second
  exact Option.some.inj (first.symm.trans second)

theorem jsonText_of_denotes {text : List Char} {v : Json} (denotes : Denotes text (.value v)) :
    JsonText text v :=
  ⟨[], text, [], ws_nil, denotes, ws_nil, by simp⟩

end ZetMQ.JsonCompleteness
