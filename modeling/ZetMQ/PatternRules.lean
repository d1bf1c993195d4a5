import ZetMQ.SubjectGrammar

/-! What a pattern means. The rules say it token by token; the source walks two indices
and leaves its loop at whichever list ends first. Both agree on every parsed pattern,
because `parse` lets `>` stand only at the end. -/
namespace ZetMQ.PatternRules
open Utf8Text SubjectGrammar

inductive Matches : List PatternToken → List Str → Prop
  | done : Matches [] []
  | literal (text : Str) {pattern : List PatternToken} {subject : List Str} :
    Matches pattern subject → Matches (.literal text :: pattern) (text :: subject)
  | single (token : Str) {pattern : List PatternToken} {subject : List Str} :
    Matches pattern subject → Matches (.singleWildcard :: pattern) (token :: subject)
  | multi (token : Str) (subject : List Str) : Matches [.multiWildcard] (token :: subject)

/-- The loop of `matches` with its two indices. -/
def matchLoop (pattern : List PatternToken) (subject : List Str) (pi si : ℕ) : Bool :=
  if inside : pi < pattern.length ∧ si < subject.length then
    match getElem pattern pi inside.1 with
    | .literal text =>
      if getElem subject si inside.2 ≠ text then false
      else matchLoop pattern subject (pi + 1) (si + 1)
    | .singleWildcard => matchLoop pattern subject (pi + 1) (si + 1)
    | .multiWildcard => si < subject.length
  else pi == pattern.length && si == subject.length
termination_by pattern.length - pi

def matchIndices (pattern : SubjectPattern) (subject : Subject) : Bool :=
  matchLoop pattern.tokens subject.tokens 0 0

theorem matchTokens_nil_left (subject : List Str) : matchTokens [] subject = subject.isEmpty := by
  cases subject <;> rfl

theorem matchTokens_nil_right (pattern : List PatternToken) :
    matchTokens pattern [] = pattern.isEmpty := by
  cases pattern with
  | nil => rfl
  | cons token pattern => cases token <;> rfl

/-- What is left to compare at two indices is the two lists from there on. -/
theorem matchLoop_eq_drop (pattern : List PatternToken) (subject : List Str) (pi si : ℕ)
    (left : pi ≤ pattern.length) (right : si ≤ subject.length) :
    matchLoop pattern subject pi si = matchTokens (pattern.drop pi) (subject.drop si) := by
  fun_induction matchLoop pattern subject pi si with
  | case1 pi si inside text here other =>
    rw [List.drop_eq_getElem_cons inside.1, List.drop_eq_getElem_cons inside.2, here, matchTokens,
      if_pos other]
  | case2 pi si inside text here same ih =>
    rw [ih (by omega) (by omega), List.drop_eq_getElem_cons inside.1,
      List.drop_eq_getElem_cons inside.2, here, matchTokens, if_neg same]
  | case3 pi si inside here ih =>
    rw [ih (by omega) (by omega), List.drop_eq_getElem_cons inside.1,
      List.drop_eq_getElem_cons inside.2, here, matchTokens]
  | case4 pi si inside here =>
    rw [List.drop_eq_getElem_cons inside.1, List.drop_eq_getElem_cons inside.2, here, matchTokens,
      decide_eq_true inside.2]
  | case5 pi si outside =>
    -- one of the lists has ended, and then both must have
    rcases Nat.lt_or_ge pi pattern.length with more | ended
    · have past : subject.length ≤ si := by omega
      rw [List.drop_of_length_le past, matchTokens_nil_right, beq_false_of_ne more.ne,
        Bool.false_and, eq_comm, List.isEmpty_eq_false_iff, ne_eq, List.drop_eq_nil_iff, not_le]
      exact more
    · have all : pi = pattern.length := by omega
      rw [List.drop_of_length_le ended, matchTokens_nil_left, all, beq_self_eq_true,
        Bool.true_and, Bool.eq_iff_iff, beq_iff_eq, List.isEmpty_iff, List.drop_eq_nil_iff]
      omega

theorem matches_eq_indices (pattern : SubjectPattern) (subject : Subject) :
    pattern.matches subject = matchIndices pattern subject := by
  rw [matchIndices, matchLoop_eq_drop _ _ 0 0 (Nat.zero_le _) (Nat.zero_le _), List.drop_zero,
    List.drop_zero, SubjectPattern.matches]

theorem matchTokens_of_matches {pattern : List PatternToken} {subject : List Str}
    (h : Matches pattern subject) : matchTokens pattern subject = true := by
  induction h with
  | done => rfl
  | literal text _ ih => simpa [matchTokens] using ih
  | single token _ ih => simpa [matchTokens] using ih
  | multi token subject => rfl

theorem matches_of_matchTokens {pattern : List PatternToken} {subject : List Str}
    (last : .multiWildcard ∉ pattern.dropLast) (h : matchTokens pattern subject = true) :
    Matches pattern subject := by
  induction pattern generalizing subject with
  | nil =>
    cases subject with
    | nil => exact .done
    | cons token subject => simp [matchTokens] at h
  | cons first pattern ih =>
    cases subject with
    | nil => simp [matchTokens_nil_right] at h
    | cons token subject =>
      have later : .multiWildcard ∉ pattern.dropLast := fun member =>
        last (List.mem_of_mem_tail (by rwa [List.tail_dropLast]))
      cases first with
      | literal text =>
        simp only [matchTokens, ne_eq, ite_not, Bool.if_false_right, Bool.and_eq_true,
          decide_eq_true_eq] at h
        rw [h.1]
        exact .literal text (ih later h.2)
      | singleWildcard =>
        rw [matchTokens] at h
        exact .single token (ih later h)
      | multiWildcard =>
        cases pattern with
        | nil => exact .multi token subject
        | cons second pattern => simp at last

theorem matches_iff_rules (pattern : SubjectPattern) (subject : Subject) :
    (matchIndices pattern subject = true ↔ Matches pattern.tokens subject.tokens) ∧
      pattern.matches subject = matchIndices pattern subject := by
  have same := matches_eq_indices pattern subject
  refine ⟨?_, same⟩
  rw [← same]
  exact ⟨matches_of_matchTokens pattern.multiLast, matchTokens_of_matches⟩

end ZetMQ.PatternRules
