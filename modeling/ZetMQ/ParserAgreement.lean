import ZetMQ.Routing

/-! The two parsers side by side. Each accepts a text exactly when the trimmed text can
be the `raw` field of a value, so an accepted subject and an accepted pattern without
wildcard characters are the same data read twice. -/
namespace ZetMQ.ParserAgreement
open Utf8Text SubjectGrammar Routing

variable (input : Str) (subject : Subject) (pattern : SubjectPattern)

theorem subject_parse_iff : Subject.parse input = .ok subject ↔ subject.raw = trim input := by
  constructor
  · exact Subject.parse_raw
  · intro same
    have again := subject.parse_of_raw
    rw [same] at again
    rw [← again]
    simp only [Subject.parse, trim_trim]

theorem classify_multi {token : Str} :
    PatternToken.classify token = .multiWildcard ↔ token = ['>'] := by
  unfold PatternToken.classify
  split_ifs with star multi
  · simp [star]
  · simp [multi]
  · simp [multi]

theorem parseTokens_of_filled (raw : List Str) (filled : [] ∉ raw) (last : ['>'] ∉ raw.dropLast) :
    parseTokens raw = .ok (raw.map PatternToken.classify) := by
  induction raw with
  | nil => rfl
  | cons token rest ih =>
    have full : token ≠ [] := fun empty => filled (empty ▸ List.mem_cons_self)
    have inner : ¬ (token = ['>'] ∧ rest ≠ []) := by
      rintro ⟨rfl, more⟩
      exact last (by rw [List.dropLast_cons_of_ne_nil more]; exact List.mem_cons_self)
    have later : ['>'] ∉ rest.dropLast := fun member =>
      last (List.mem_of_mem_tail (by rwa [List.tail_dropLast]))
    rw [parseTokens, if_neg full, if_neg inner,
      ih (fun member => filled (List.mem_cons_of_mem _ member)) later]
    rfl

theorem pattern_parse_raw {input : Str} {pattern : SubjectPattern}
    (h : SubjectPattern.parse input = .ok pattern) : pattern.raw = trim input := by
  unfold SubjectPattern.parse at h
  simp only at h
  split_ifs at h
  split at h
  · cases h
  · exact (Except.ok.inj h) ▸ rfl

theorem pattern_raw_ne_nil : pattern.raw ≠ [] := by
  intro empty
  exact pattern.filled (by simp [empty])

theorem parseTokens_of_pattern : parseTokens (pattern.raw.splitOn '.') = .ok pattern.tokens := by
  rw [pattern.split]
  refine parseTokens_of_filled _ pattern.filled fun member => pattern.multiLast ?_
  rw [pattern.split, ← List.map_dropLast]
  exact List.mem_map.mpr ⟨_, member, classify_multi.mpr rfl⟩

theorem pattern_parse_iff :
    SubjectPattern.parse input = .ok pattern ↔ pattern.raw = trim input := by
  constructor
  · exact pattern_parse_raw
  · intro same
    have tokens := parseTokens_of_pattern pattern
    have short := pattern.short
    have few := pattern.few
    have nonempty := pattern_raw_ne_nil pattern
    rw [pattern.split, List.length_map] at few
    rw [same] at tokens short nonempty few
    unfold SubjectPattern.parse
    simp only [nonempty, if_false]
    rw [dif_neg (Nat.not_lt.mpr short), dif_neg (Nat.not_lt.mpr few)]
    split
    · rename_i e refused
      rw [tokens] at refused
      cases refused
    · exact congrArg Except.ok (SubjectPattern.ext_raw same.symm)

theorem classify_token {subject : Subject} {token : Str} (h : token ∈ subject.tokens) :
    PatternToken.classify token = .literal token := by
  obtain ⟨star, multi⟩ := token_plain h
  rw [PatternToken.classify, if_neg star, if_neg multi]

def ofSubject (subject : Subject) : SubjectPattern where
  raw := subject.raw
  tokens := subject.tokens.map .literal
  split := by
    rw [← subject.split]
    exact List.map_congr_left fun token member => (classify_token member).symm
  trimmed := subject.trimmed
  short := subject.short
  few := (List.length_map _).trans_le subject.few
  filled := by
    rw [← subject.split]
    exact fun member => subject.filled [] member rfl
  multiLast := fun member => by simpa using List.dropLast_subset _ member

def toSubject (pattern : SubjectPattern) (plain : '*' ∉ pattern.raw ∧ '>' ∉ pattern.raw) :
    Subject where
  raw := pattern.raw
  tokens := pattern.raw.splitOn '.'
  split := rfl
  trimmed := pattern.trimmed
  short := pattern.short
  plain := plain
  few := by
    have few := pattern.few
    rwa [pattern.split, List.length_map] at few
  filled := fun _ member empty => pattern.filled (empty ▸ member)

theorem matches_ofSubject (other : Subject) :
    (ofSubject subject).matches other = true ↔ other = subject := by
  rw [SubjectPattern.matches, ofSubject, matchTokens_literal, subject.split, other.split]
  constructor
  · intro same
    exact Subject.ext_raw (splitOn_dot_injective same).symm
  · rintro rfl
    rfl

/-- A subject and a pattern that are one dotted name. -/
structure SameName (subject : Subject) (pattern : SubjectPattern) : Prop where
  raw : pattern.raw = subject.raw
  literals : pattern.tokens = subject.tokens.map .literal
  joined : subject.raw = ['.'].intercalate subject.tokens
  subjectAgain : Subject.parse subject.raw = .ok subject
  patternAgain : SubjectPattern.parse pattern.raw = .ok pattern
  only : ∀ other : Subject, pattern.matches other = true ↔ other = subject

theorem sameName_ofSubject : SameName subject (ofSubject subject) where
  raw := rfl
  literals := rfl
  joined := by rw [subject.split, List.intercalate_splitOn]
  subjectAgain := subject.parse_of_raw
  patternAgain := (pattern_parse_iff _ _).mpr (ofSubject subject).trimmed.symm
  only := matches_ofSubject subject

theorem subject_parse_iff_pattern :
    (∃ subject, Subject.parse input = .ok subject) ↔
      (∃ pattern, SubjectPattern.parse input = .ok pattern) ∧
        '*' ∉ trim input ∧ '>' ∉ trim input := by
  simp only [subject_parse_iff, pattern_parse_iff]
  constructor
  · rintro ⟨subject, same⟩
    exact ⟨⟨ofSubject subject, same⟩, same ▸ subject.plain⟩
  · rintro ⟨⟨pattern, same⟩, plain⟩
    exact ⟨toSubject pattern (same ▸ plain), same⟩

/-- The parsers accept the same texts without wildcard characters, and read them alike. -/
theorem parsers_agree (input : Str) :
    ((∃ subject, Subject.parse input = .ok subject) ↔
      (∃ pattern, SubjectPattern.parse input = .ok pattern) ∧
        '*' ∉ trim input ∧ '>' ∉ trim input) ∧
    ∀ subject pattern, Subject.parse input = .ok subject →
      SubjectPattern.parse input = .ok pattern → SameName subject pattern := by
  refine ⟨subject_parse_iff_pattern input, ?_⟩
  intro subject pattern left right
  have same : pattern = ofSubject subject :=
    SubjectPattern.ext_raw (((pattern_parse_iff _ _).mp right).trans
      ((subject_parse_iff _ _).mp left).symm)
  rw [same]
  exact sameName_ofSubject subject

theorem parsers_agree_orders : ∃ subject pattern,
    Subject.parse " orders.created".toList = .ok subject ∧
      SubjectPattern.parse " orders.created".toList = .ok pattern ∧ SameName subject pattern := by
  let subject : Subject :=
    ⟨"orders.created".toList, ["orders".toList, "created".toList], by decide, by decide, by decide,
      by decide, by decide, by decide⟩
  have left : Subject.parse " orders.created".toList = .ok subject :=
    (subject_parse_iff _ _).mpr (by decide)
  have right : SubjectPattern.parse " orders.created".toList = .ok (ofSubject subject) :=
    (pattern_parse_iff _ _).mpr (by decide)
  exact ⟨subject, _, left, right, (parsers_agree _).2 subject _ left right⟩

end ZetMQ.ParserAgreement
