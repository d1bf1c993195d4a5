import ZetMQ.Utf8Text

/-! Subjects and subscription patterns. Both are dotted token lists of bounded
size; a pattern may use `*` for one token and a final `>` for one or more. The
private fields of the source make `parse` the only constructor, so here the
facts that `parse` checks are fields of the two structures. -/
namespace ZetMQ.SubjectGrammar
open Utf8Text

def maxSubjectLen : ℕ := 512
def maxPatternLen : ℕ := 512
def maxTokens : ℕ := 32

inductive CoreError where
  | invalidSubject (message : Str)
  | invalidSubjectPattern (message : Str)
  | invalidQueueGroupName (message : Str)
  | subjectTooLong (len limit : ℕ)
deriving DecidableEq, Repr

def CoreError.display : CoreError → Str
  | .invalidSubject message => "invalid subject: ".toList ++ message
  | .invalidSubjectPattern message => "invalid subject pattern: ".toList ++ message
  | .invalidQueueGroupName message => "queue group name invalid: ".toList ++ message
  | .subjectTooLong len limit =>
    "subject too long: ".toList ++ decimal len ++ " > ".toList ++ decimal limit

structure Subject where
  raw : Str
  tokens : List Str
  split : tokens = raw.splitOn '.'
  trimmed : trim raw = raw
  short : utf8Len raw ≤ maxSubjectLen
  plain : '*' ∉ raw ∧ '>' ∉ raw
  few : tokens.length ≤ maxTokens
  filled : ∀ token ∈ tokens, token ≠ []
deriving DecidableEq

def Subject.parse (input : Str) : Except CoreError Subject :=
  let trimmed := trim input
  if trimmed = [] then .error (.invalidSubject "subject cannot be empty".toList)
  else if short : maxSubjectLen < utf8Len trimmed then
    .error (.subjectTooLong (utf8Len trimmed) maxSubjectLen)
  else if plain : '*' ∈ trimmed ∨ '>' ∈ trimmed then
    .error (.invalidSubject "publish subject cannot contain wildcards".toList)
  else if few : maxTokens < (trimmed.splitOn '.').length then
    .error (.invalidSubject ("subject exceeds max tokens: ".toList ++
      decimal (trimmed.splitOn '.').length ++ " > ".toList ++ decimal maxTokens))
  else if filled : [] ∈ trimmed.splitOn '.' then
    .error (.invalidSubject "subject contains empty token".toList)
  else .ok
    { raw := trimmed
      tokens := trimmed.splitOn '.'
      split := rfl
      trimmed := trim_trim input
      short := Nat.le_of_not_lt short
      plain := not_or.mp plain
      few := Nat.le_of_not_lt few
      filled := fun _ member empty => filled (empty ▸ member) }

inductive PatternToken where
  | literal (text : Str)
  | singleWildcard
  | multiWildcard
deriving DecidableEq, Repr

/-- The `match` of the token loop, without its position check. -/
def PatternToken.classify (token : Str) : PatternToken :=
  if token = ['*'] then .singleWildcard
  else if token = ['>'] then .multiWildcard
  else .literal token

structure SubjectPattern where
  raw : Str
  tokens : List PatternToken
  split : tokens = (raw.splitOn '.').map PatternToken.classify
  trimmed : trim raw = raw
  short : utf8Len raw ≤ maxPatternLen
  few : tokens.length ≤ maxTokens
  filled : [] ∉ raw.splitOn '.'
  multiLast : .multiWildcard ∉ tokens.dropLast
deriving DecidableEq

def parseTokens : List Str → Except CoreError (List PatternToken)
  | [] => .ok []
  | token :: rest =>
    if token = [] then .error (.invalidSubjectPattern "pattern contains empty token".toList)
    else if token = ['>'] ∧ rest ≠ [] then
      .error (.invalidSubjectPattern "'>' wildcard must be the last token".toList)
    else (parseTokens rest).map (PatternToken.classify token :: ·)

theorem parseTokens_ok {raw : List Str} {tokens : List PatternToken}
    (h : parseTokens raw = .ok tokens) :
    tokens = raw.map PatternToken.classify ∧ [] ∉ raw ∧ .multiWildcard ∉ tokens.dropLast := by
  induction raw generalizing tokens with
  | nil =>
    cases h
    simp
  | cons token rest ih =>
    rw [parseTokens] at h
    split_ifs at h with empty early
    cases parsed : parseTokens rest with
    | error e => simp [parsed, Except.map] at h
    | ok tail =>
      obtain ⟨mapped, filled, last⟩ := ih parsed
      simp only [parsed, Except.map, Except.ok.injEq] at h
      subst h
      refine ⟨by rw [mapped, List.map_cons], by simp [filled, Ne.symm empty], ?_⟩
      cases tail with
      | nil => simp
      | cons second tail =>
        have more : rest ≠ [] := by
          rintro rfl
          simp at mapped
        have inner : token ≠ ['>'] := fun same => early ⟨same, more⟩
        rw [List.dropLast_cons_cons, List.mem_cons, not_or]
        refine ⟨?_, last⟩
        unfold PatternToken.classify
        split_ifs <;> simp

def SubjectPattern.parse (input : Str) : Except CoreError SubjectPattern :=
  let trimmed := trim input
  if trimmed = [] then .error (.invalidSubjectPattern "pattern cannot be empty".toList)
  else if short : maxPatternLen < utf8Len trimmed then
    .error (.invalidSubjectPattern ("pattern exceeds max length: ".toList ++
      decimal (utf8Len trimmed) ++ " > ".toList ++ decimal maxPatternLen))
  else if few : maxTokens < (trimmed.splitOn '.').length then
    .error (.invalidSubjectPattern ("pattern exceeds max tokens: ".toList ++
      decimal (trimmed.splitOn '.').length ++ " > ".toList ++ decimal maxTokens))
  else match parsed : parseTokens (trimmed.splitOn '.') with
    | .error e => .error e
    | .ok tokens => .ok
      { raw := trimmed
        tokens := tokens
        split := (parseTokens_ok parsed).1
        trimmed := trim_trim input
        short := Nat.le_of_not_lt short
        few := by
          rw [(parseTokens_ok parsed).1, List.length_map]
          exact Nat.le_of_not_lt few
        filled := (parseTokens_ok parsed).2.1
        multiLast := (parseTokens_ok parsed).2.2 }

def matchTokens : List PatternToken → List Str → Bool
  | .literal text :: pattern, token :: subject =>
    if token ≠ text then false else matchTokens pattern subject
  | .singleWildcard :: pattern, _ :: subject => matchTokens pattern subject
  | .multiWildcard :: _, _ :: _ => true
  | pattern, subject => pattern.isEmpty && subject.isEmpty

def SubjectPattern.matches (pattern : SubjectPattern) (subject : Subject) : Bool :=
  matchTokens pattern.tokens subject.tokens

theorem Subject.ext_raw {a b : Subject} (h : a.raw = b.raw) : a = b := by
  cases a with
  | mk raw tokens split =>
    cases b with
    | mk raw' tokens' split' =>
      simp only at h
      subst h
      subst split
      subst split'
      rfl

theorem SubjectPattern.ext_raw {a b : SubjectPattern} (h : a.raw = b.raw) : a = b := by
  cases a with
  | mk raw tokens split =>
    cases b with
    | mk raw' tokens' split' =>
      simp only at h
      subst h
      subst split
      subst split'
      rfl

theorem Subject.parse_raw {input : Str} {subject : Subject}
    (h : Subject.parse input = .ok subject) :
    subject.raw = trim input := by
  unfold Subject.parse at h
  simp only at h
  split_ifs at h
  exact (Except.ok.inj h) ▸ rfl

theorem Subject.raw_ne_nil (subject : Subject) : subject.raw ≠ [] := by
  intro empty
  have member : [] ∈ subject.tokens := by simp [subject.split, empty]
  exact subject.filled [] member rfl

theorem Subject.parse_of_raw (subject : Subject) : Subject.parse subject.raw = .ok subject := by
  have filled : [] ∉ subject.raw.splitOn '.' := by
    rw [← subject.split]
    exact fun member => subject.filled [] member rfl
  unfold Subject.parse
  simp only [subject.trimmed, subject.raw_ne_nil, if_false]
  rw [dif_neg (Nat.not_lt.mpr subject.short), dif_neg (not_or.mpr subject.plain),
    dif_neg (by rw [← subject.split]; exact Nat.not_lt.mpr subject.few), dif_neg filled]
  exact congrArg Except.ok (Subject.ext_raw rfl)

/-- The value of a parse that is known to succeed. -/
def parsed {α : Type} : (result : Except CoreError α) → result.isOk = true → α
  | .ok value, _ => value

example : (SubjectPattern.parse "orders.>.created".toList).toOption = none := by decide

end ZetMQ.SubjectGrammar
