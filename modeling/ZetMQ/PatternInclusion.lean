import Mathlib.Algebra.Order.BigOperators.Group.List
import ZetMQ.Permissions

/-! Coverage of patterns is inclusion of what they match. If a pattern is not covered,
there is a subject in which every wildcard stands for a token that the allowed pattern
does not name, and which only the requested pattern matches. -/
namespace ZetMQ.PatternInclusion
open Utf8Text SubjectGrammar Permissions

def Plain (token : Str) : Prop := token ≠ [] ∧ '.' ∉ token ∧ '*' ∉ token ∧ '>' ∉ token

/-- The shortest subject for a pattern, with `fresh` for every wildcard. -/
def sampleSubject (fresh : Str) (pattern : List PatternToken) : List Str :=
  pattern.map fun token => match token with
    | .literal text => text
    | _ => fresh

theorem matchTokens_sample (fresh : Str) (pattern : List PatternToken) :
    matchTokens pattern (sampleSubject fresh pattern) = true := by
  induction pattern with
  | nil => rfl
  | cons token pattern ih =>
    cases token with
    | literal text => simpa [sampleSubject, matchTokens] using ih
    | singleWildcard => exact ih
    | multiWildcard => rfl

def Drawn (fresh : Str) (pattern : List PatternToken) (subject : List Str) : Prop :=
  ∀ token ∈ subject, token = fresh ∨ .literal token ∈ pattern

theorem drawn_sample (fresh : Str) (pattern : List PatternToken) :
    Drawn fresh pattern (sampleSubject fresh pattern) := by
  intro token member
  obtain ⟨part, there, rfl⟩ := List.mem_map.mp member
  cases part with
  | literal text => exact .inr there
  | singleWildcard => exact .inl rfl
  | multiWildcard => exact .inl rfl

theorem Drawn.cons {fresh token : Str} {pattern : List PatternToken} {subject : List Str}
    {first : PatternToken} (drawn : Drawn fresh pattern subject)
    (here : token = fresh ∨ .literal token = first) :
    Drawn fresh (first :: pattern) (token :: subject) := by
  refine List.forall_mem_cons.mpr ⟨here.imp_right fun same => ?_, fun other member => ?_⟩
  · rw [same]
    exact List.mem_cons_self
  · exact (drawn other member).imp_right (List.mem_cons_of_mem _)

structure Separates (fresh : Str) (allowed requested : List PatternToken) (subject : List Str) :
    Prop where
  accepted : matchTokens requested subject = true
  refused : matchTokens allowed subject = false
  drawn : Drawn fresh requested subject

theorem exists_separating {fresh : Str} {allowed requested : List PatternToken}
    (unnamed : .literal fresh ∉ allowed) (uncovered : coversTokens allowed requested = false) :
    ∃ subject, Separates fresh allowed requested subject := by
  induction allowed, requested using coversTokens.induct with
  | case1 rest first requested => simp [coversTokens] at uncovered
  | case2 allowed text requested ih =>
    obtain ⟨subject, accepted, refused, drawn⟩ :=
      ih (fun member => unnamed (List.mem_cons_of_mem _ member)) uncovered
    refine ⟨text :: subject, ?_, refused, drawn.cons (.inr rfl)⟩
    simpa [matchTokens] using accepted
  | case3 allowed requested ih =>
    obtain ⟨subject, accepted, refused, drawn⟩ :=
      ih (fun member => unnamed (List.mem_cons_of_mem _ member)) uncovered
    exact ⟨fresh :: subject, accepted, refused, drawn.cons (.inl rfl)⟩
  | case4 allowed requested =>
    -- one token is too few for what comes after `*`, or two are too many
    cases allowed with
    | nil => exact ⟨[fresh, fresh], rfl, rfl, by simp [Drawn]⟩
    | cons next allowed =>
      refine ⟨[fresh], rfl, ?_, by simp [Drawn]⟩
      cases next <;> rfl
  | case5 allowed text requested ih =>
    rw [coversTokens, if_pos rfl] at uncovered
    obtain ⟨subject, accepted, refused, drawn⟩ :=
      ih (fun member => unnamed (List.mem_cons_of_mem _ member)) uncovered
    refine ⟨text :: subject, ?_, ?_, drawn.cons (.inr rfl)⟩
    · simpa [matchTokens] using accepted
    · simpa [matchTokens] using refused
  | case6 text allowed text' requested different =>
    refine ⟨sampleSubject fresh (.literal text' :: requested), matchTokens_sample .., ?_,
      drawn_sample _ _⟩
    exact if_pos fun same => different same.symm
  | case7 text allowed first requested notLiteral =>
    have other : fresh ≠ text := by
      rintro rfl
      exact unnamed List.mem_cons_self
    cases first with
    | literal text' => exact absurd rfl (notLiteral text')
    | singleWildcard =>
      exact ⟨sampleSubject fresh (.singleWildcard :: requested), matchTokens_sample ..,
        if_pos other, drawn_sample _ _⟩
    | multiWildcard =>
      exact ⟨sampleSubject fresh (.multiWildcard :: requested), rfl, if_pos other,
        drawn_sample _ _⟩
  | case8 allowed requested =>
    -- one of the two has ended
    refine ⟨sampleSubject fresh requested, matchTokens_sample .., ?_, drawn_sample _ _⟩
    cases allowed with
    | nil =>
      cases requested with
      | nil => cases uncovered
      | cons first requested => rfl
    | cons next allowed =>
      cases requested with
      | nil => cases next <;> rfl
      | cons first requested => cases next <;> cases first <;> grind

theorem not_mem_of_mem_splitOn {separator : Char} {text token : Str}
    (member : token ∈ text.splitOn separator) : separator ∉ token := by
  induction text generalizing token with
  | nil => simp_all
  | cons c text ih =>
    rw [List.splitOn_cons_eq_if_modifyHead] at member
    split at member
    · rw [List.mem_cons] at member
      cases member with
      | inl empty => simp [empty]
      | inr later => exact ih later
    · rename_i different
      cases parts : text.splitOn separator with
      | nil => simp [parts] at member
      | cons first rest =>
        rw [parts] at member ih
        rw [List.modifyHead_cons, List.mem_cons] at member
        cases member with
        | inl here =>
          have below := ih List.mem_cons_self
          rw [here, List.mem_cons, not_or]
          exact ⟨fun same => different (beq_iff_eq.mpr same.symm), below⟩
        | inr later => exact ih (List.mem_cons_of_mem _ later)

theorem literal_mem_split {pattern : SubjectPattern} {text : Str}
    (member : .literal text ∈ pattern.tokens) : text ∈ pattern.raw.splitOn '.' := by
  rw [pattern.split] at member
  obtain ⟨token, there, classified⟩ := List.mem_map.mp member
  rw [PatternToken.classify] at classified
  split_ifs at classified
  cases classified
  exact there

theorem tokens_ne_nil (pattern : SubjectPattern) : pattern.tokens ≠ [] := by
  rw [pattern.split]
  exact List.map_eq_nil_iff.not.mpr (List.splitOn_ne_nil _ _)

def textLength : PatternToken → ℕ
  | .literal text => text.length
  | _ => 0

theorem exists_fresh (pattern : List PatternToken) :
    ∃ fresh, Plain fresh ∧ .literal fresh ∉ pattern := by
  refine ⟨List.replicate ((pattern.map textLength).sum + 1) 'a', by simp [Plain], ?_⟩
  intro member
  have short := List.le_sum_of_mem (List.mem_map_of_mem (f := textLength) member)
  rw [textLength, List.length_replicate] at short
  omega

/-- A pattern is covered exactly if every subject it matches is allowed, if its literals
are such as subjects have. -/
theorem covered_iff_included (requested allowed : SubjectPattern)
    (plain : ∀ text, .literal text ∈ requested.tokens → '*' ∉ text ∧ '>' ∉ text) :
    isPatternCovered requested allowed = true ↔
      ∀ subject : List Str, subject ≠ [] → (∀ token ∈ subject, Plain token) →
        matchTokens requested.tokens subject = true →
        matchTokens allowed.tokens subject = true := by
  constructor
  · intro covered subject _ _ accepted
    exact matchTokens_of_covers covered accepted
  · intro included
    by_contra uncovered
    obtain ⟨fresh, freshPlain, unnamed⟩ := exists_fresh allowed.tokens
    obtain ⟨subject, accepted, refused, drawn⟩ :=
      exists_separating unnamed (Bool.not_eq_true _ ▸ uncovered)
    have filled : subject ≠ [] := by
      rintro rfl
      cases tokens : requested.tokens with
      | nil => exact tokens_ne_nil requested tokens
      | cons first rest =>
        rw [tokens] at accepted
        cases first <;> cases accepted
    have tokensPlain : ∀ token ∈ subject, Plain token := by
      intro token member
      cases drawn token member with
      | inl same =>
        rw [same]
        exact freshPlain
      | inr literal =>
        have part := literal_mem_split literal
        exact ⟨fun empty => requested.filled (empty ▸ part), not_mem_of_mem_splitOn part,
          plain token literal⟩
    rw [included subject filled tokensPlain accepted] at refused
    cases refused

private def anyOrder : SubjectPattern :=
  parsed (SubjectPattern.parse "order.*".toList) (by decide)

private def allOrders : SubjectPattern :=
  parsed (SubjectPattern.parse "order.>".toList) (by decide)

theorem anyOrder_included :
    isPatternCovered anyOrder allOrders = true ∧
    ∀ subject : List Str, subject ≠ [] → (∀ token ∈ subject, Plain token) →
      matchTokens anyOrder.tokens subject = true → matchTokens allOrders.tokens subject = true := by
  have tokens : anyOrder.tokens = [.literal "order".toList, .singleWildcard] := by decide
  refine ⟨by decide, (covered_iff_included anyOrder allOrders ?_).mp (by decide)⟩
  intro text member
  rw [tokens] at member
  simp only [List.mem_cons, PatternToken.literal.injEq, List.not_mem_nil, reduceCtorEq,
    or_false] at member
  rw [member]
  decide

end ZetMQ.PatternInclusion
