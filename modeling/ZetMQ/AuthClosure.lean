import ZetMQ.AuthGate

/-! When authentication fails closed. `validate_auth` grants everything in a mode it
does not know, and without a configured token it takes the empty one; in the two modes
it knows, and with a token to compare with, nobody comes in without credentials. -/
namespace ZetMQ.AuthClosure
open Utf8Text SubjectGrammar Commands Permissions AuthGate

def Parsed : List Str → List SubjectPattern → Prop :=
  List.Forall₂ fun text pattern => SubjectPattern.parse text = .ok pattern

def Holds (ctx : AuthContext) (perms : PermissionsConfig) : Prop :=
  Parsed perms.publish ctx.publishPatterns ∧ Parsed perms.subscribe ctx.subscribePatterns

def Earned (config : ServerConfig) (auth : AuthInfo) (ctx : AuthContext) : Prop :=
  (config.auth.authType = "token".toList ∧
    ∃ token, config.auth.token = some token ∧ auth = .token token) ∨
  config.auth.authType = "userpass".toList ∧
    ∃ user ∈ config.auth.users, auth = .userPass user.username user.password ∧
      Holds ctx user.permissions

def FailsClosed (config : ServerConfig) (auth : AuthInfo) : Prop :=
  ∀ ctx, validateAuth auth config = .ok ctx → Earned config auth ctx

theorem forall₂_of_mapM {ε α β : Type} {f : α → Except ε β} {xs : List α} {ys : List β}
    (all : xs.mapM f = .ok ys) : List.Forall₂ (fun x y => f x = .ok y) xs ys := by
  induction xs generalizing ys with
  | nil =>
    cases all
    exact .nil
  | cons x xs ih =>
    rw [List.mapM_cons] at all
    cases first : f x with
    | error e =>
      rw [first] at all
      cases all
    | ok y =>
      cases rest : xs.mapM f with
      | error e =>
        rw [first, rest] at all
        cases all
      | ok others =>
        rw [first, rest] at all
        cases all
        exact .cons first (ih rest)

theorem parsePatterns_ok {kind : Str} {patterns : List Str} {parsed : List SubjectPattern}
    (all : AuthContext.parsePatterns kind patterns = .ok parsed) : Parsed patterns parsed := by
  refine (forall₂_of_mapM all).imp fun text pattern found => ?_
  cases first : SubjectPattern.parse text with
  | error e =>
    rw [first] at found
    cases found
  | ok pattern =>
    rw [first] at found
    cases found
    rfl

theorem fromPermissions_ok {username : Str} {perms : PermissionsConfig} {ctx : AuthContext}
    (made : AuthContext.fromPermissions username perms = .ok ctx) : Holds ctx perms := by
  rw [AuthContext.fromPermissions] at made
  cases publish : AuthContext.parsePatterns "publish".toList perms.publish with
  | error e =>
    rw [publish] at made
    cases made
  | ok publishPatterns =>
    cases subscribe : AuthContext.parsePatterns "subscribe".toList perms.subscribe with
    | error e =>
      rw [publish, subscribe] at made
      cases made
    | ok subscribePatterns =>
      rw [publish, subscribe] at made
      cases made
      exact ⟨parsePatterns_ok publish, parsePatterns_ok subscribe⟩

/-- A mode that `validate_auth` compares credentials in, with something to compare. -/
def Closes (config : ServerConfig) (auth : AuthInfo) : Prop :=
  config.auth.authType = "userpass".toList ∨
    config.auth.authType = "token".toList ∧ (config.auth.token ≠ none ∨ auth ≠ .token [])

variable {config : ServerConfig}

theorem isEnabled_of_mode {mode : Str} (kind : config.auth.authType = mode)
    (other : mode ≠ "none".toList) : ¬(!config.auth.isEnabled) = true := by
  rw [AuthConfig.isEnabled, kind, decide_eq_true other]
  decide

theorem validateAuth_token (kind : config.auth.authType = "token".toList) (auth : AuthInfo) :
    validateAuth auth config =
      if auth = .token (config.auth.token.getD []) then .ok .unrestricted
      else .error "authentication failed: invalid token".toList := by
  unfold validateAuth
  rw [if_neg (isEnabled_of_mode kind (by decide)), if_pos kind]
  cases auth with
  | token token => simp only [AuthInfo.token.injEq]
  | none => rw [if_neg (by simp)]
  | userPass username password => rw [if_neg (by simp)]

theorem validateAuth_open (auth : AuthInfo) (userPass : config.auth.authType ≠ "userpass".toList)
    (token : config.auth.authType ≠ "token".toList) :
    validateAuth auth config = .ok .unrestricted := by
  unfold validateAuth
  rw [if_neg token, if_neg userPass, ite_self]

theorem userPass_closes (kind : config.auth.authType = "userpass".toList) (auth : AuthInfo) :
    FailsClosed config auth := by
  intro ctx valid
  unfold validateAuth at valid
  rw [if_neg (isEnabled_of_mode kind (by decide)), if_neg (by rw [kind]; decide),
    if_pos kind] at valid
  cases auth with
  | none => cases valid
  | token token => cases valid
  | userPass username password =>
    dsimp only at valid
    cases found : config.auth.users.find? fun u =>
        u.username = username && u.password = password with
    | none =>
      rw [found] at valid
      cases valid
    | some user =>
      rw [found] at valid
      have same := List.find?_some found
      rw [Bool.and_eq_true, decide_eq_true_eq, decide_eq_true_eq] at same
      exact .inr ⟨kind, user, List.mem_of_find?_eq_some found, by rw [same.1, same.2],
        fromPermissions_ok valid⟩

theorem token_closes_iff (kind : config.auth.authType = "token".toList) (auth : AuthInfo) :
    FailsClosed config auth ↔ config.auth.token ≠ none ∨ auth ≠ .token [] := by
  have notUserPass : config.auth.authType ≠ "userpass".toList := by
    rw [kind]
    decide
  rw [FailsClosed, validateAuth_token kind]
  cases expected : config.auth.token with
  | none =>
    rw [Option.getD_none]
    by_cases empty : auth = .token []
    · rw [if_pos empty]
      refine iff_of_false (fun closed => ?_) (by simp [empty])
      rcases closed _ rfl with ⟨-, token, configured, -⟩ | ⟨other, -⟩
      · rw [expected] at configured
        cases configured
      · exact notUserPass other
    · rw [if_neg empty]
      refine iff_of_true (fun ctx valid => ?_) (.inr empty)
      cases valid
  | some token =>
    rw [Option.getD_some]
    refine iff_of_true (fun ctx valid => ?_) (.inl (by simp))
    by_cases same : auth = .token token
    · exact .inl ⟨kind, token, expected, same⟩
    · rw [if_neg same] at valid
      cases valid

theorem unknown_mode_open (userPass : config.auth.authType ≠ "userpass".toList)
    (token : config.auth.authType ≠ "token".toList) (auth : AuthInfo) :
    ¬FailsClosed config auth := by
  intro closed
  rcases closed _ (validateAuth_open auth userPass token) with ⟨kind, -⟩ | ⟨kind, -⟩
  · exact token kind
  · exact userPass kind

/-- Authentication fails closed exactly in the two modes it knows, and with a token to
compare with. -/
theorem failsClosed_iff (config : ServerConfig) (auth : AuthInfo) :
    FailsClosed config auth ↔ Closes config auth := by
  by_cases userPass : config.auth.authType = "userpass".toList
  · exact iff_of_true (userPass_closes userPass auth) (.inl userPass)
  rw [Closes, or_iff_right userPass]
  by_cases token : config.auth.authType = "token".toList
  · rw [token_closes_iff token, and_iff_right token]
  · exact iff_of_false (unknown_mode_open userPass token auth) fun known => token known.1

def misspeltMode : ServerConfig :=
  ⟨2097152, 30, 60, 1000, ⟨"user_pass".toList, none, [⟨"ann".toList, "pw".toList, ⟨[], []⟩⟩]⟩⟩

def missingToken : ServerConfig := ⟨2097152, 30, 60, 1000, ⟨"token".toList, none, []⟩⟩

theorem fails_open :
    misspeltMode.auth.isEnabled = true ∧ missingToken.auth.isEnabled = true ∧
    validateAuth .none misspeltMode = .ok .unrestricted ∧ ¬FailsClosed misspeltMode .none ∧
    validateAuth (.token []) missingToken = .ok .unrestricted ∧
      ¬FailsClosed missingToken (.token []) := by
  refine ⟨by decide, by decide, rfl, unknown_mode_open (by decide) (by decide) _, rfl, ?_⟩
  rw [token_closes_iff rfl]
  simp [missingToken]

end ZetMQ.AuthClosure
