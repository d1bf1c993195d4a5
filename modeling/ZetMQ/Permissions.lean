import ZetMQ.Commands

/-! Credentials and permissions. A permission is a list of patterns, and an empty
list permits everything; subscribing asks whether a permitted pattern covers the
requested one. -/
namespace ZetMQ.Permissions
open Utf8Text SubjectGrammar Commands

structure PermissionsConfig where
  publish : List Str
  subscribe : List Str

structure UserConfig where
  username : Str
  password : Str
  permissions : PermissionsConfig

structure AuthConfig where
  authType : Str
  token : Option Str
  users : List UserConfig

def AuthConfig.isEnabled (config : AuthConfig) : Bool := config.authType ≠ "none".toList

structure ServerConfig where
  maxFrameSize : ℕ
  heartbeatIntervalSecs : ℕ
  heartbeatTimeoutSecs : ℕ
  maxSubscriptionsPerConnection : ℕ
  auth : AuthConfig

structure AuthContext where
  username : Option Str
  publishPatterns : List SubjectPattern
  subscribePatterns : List SubjectPattern
deriving DecidableEq

/-- The loop of `is_pattern_covered`, first the allowed tokens, then the requested
ones. -/
def coversTokens : List PatternToken → List PatternToken → Bool
  | .multiWildcard :: _, _ :: _ => true
  | .singleWildcard :: allowed, .literal _ :: requested => coversTokens allowed requested
  | .singleWildcard :: allowed, .singleWildcard :: requested => coversTokens allowed requested
  | .singleWildcard :: _, .multiWildcard :: _ => false
  | .literal a :: allowed, .literal r :: requested =>
    if a = r then coversTokens allowed requested else false
  | .literal _ :: _, _ :: _ => false
  | allowed, requested => allowed.isEmpty && requested.isEmpty

def isPatternCovered (requested allowed : SubjectPattern) : Bool :=
  coversTokens allowed.tokens requested.tokens

namespace AuthContext

def unrestricted : AuthContext := ⟨none, [], []⟩

/-- Parse a list of configured patterns; the first bad one is reported. -/
def parsePatterns (kind : Str) (patterns : List Str) : Except Str (List SubjectPattern) :=
  patterns.mapM fun p => (SubjectPattern.parse p).mapError fun e =>
    "invalid ".toList ++ kind ++ " pattern '".toList ++ p ++ "': ".toList ++ e.display

def fromPermissions (username : Str) (perms : PermissionsConfig) : Except Str AuthContext :=
  match parsePatterns "publish".toList perms.publish with
  | .error e => .error e
  | .ok publishPatterns =>
    match parsePatterns "subscribe".toList perms.subscribe with
    | .error e => .error e
    | .ok subscribePatterns => .ok ⟨some username, publishPatterns, subscribePatterns⟩

def canPublish (ctx : AuthContext) (subject : Subject) : Bool :=
  if ctx.publishPatterns.isEmpty then true else ctx.publishPatterns.any (·.matches subject)

def isPublishUnrestricted (ctx : AuthContext) : Bool := ctx.publishPatterns.isEmpty

def canSubscribe (ctx : AuthContext) (pattern : SubjectPattern) : Bool :=
  if ctx.subscribePatterns.isEmpty then true
  else ctx.subscribePatterns.any (isPatternCovered pattern)

end AuthContext

def validateAuth (auth : AuthInfo) (config : ServerConfig) : Except Str AuthContext :=
  if !config.auth.isEnabled then .ok .unrestricted
  else if config.auth.authType = "token".toList then
    let expected := config.auth.token.getD []
    match auth with
    | .token token =>
      if token = expected then .ok .unrestricted
      else .error "authentication failed: invalid token".toList
    | _ => .error "authentication failed: invalid token".toList
  else if config.auth.authType = "userpass".toList then
    match auth with
    | .userPass username password =>
      match config.auth.users.find? fun u => u.username = username && u.password = password with
      | some user => AuthContext.fromPermissions username user.permissions
      | none => .error "authentication failed: invalid username or password".toList
    | _ => .error "authentication failed: username/password required".toList
  else .ok .unrestricted

theorem matchTokens_of_covers {allowed requested : List PatternToken} {subject : List Str}
    (covers : coversTokens allowed requested = true)
    (accepted : matchTokens requested subject = true) : matchTokens allowed subject = true := by
  induction allowed, requested using coversTokens.induct generalizing subject with
  | case1 rest first requested =>
    -- a requested token leaves at least one token of the subject for `>`
    cases subject with
    | nil => cases first <;> simp [matchTokens] at accepted
    | cons token subject => rfl
  | case2 allowed text requested ih =>
    cases subject with
    | nil => simp [matchTokens] at accepted
    | cons token subject =>
      simp only [matchTokens] at accepted ⊢
      split_ifs at accepted
      exact ih covers accepted
  | case3 allowed requested ih =>
    cases subject with
    | nil => simp [matchTokens] at accepted
    | cons token subject => exact ih covers accepted
  | case4 => simp [coversTokens] at covers
  | case5 allowed text requested ih =>
    cases subject with
    | nil => simp [matchTokens] at accepted
    | cons token subject =>
      simp only [coversTokens, matchTokens, if_true] at covers accepted ⊢
      split_ifs at accepted ⊢
      exact ih covers accepted
  | case6 allowed text requested text' different => simp [coversTokens, different] at covers
  | case7 => simp [coversTokens] at covers
  | case8 allowed requested =>
    cases allowed with
    | nil =>
      cases requested with
      | nil => exact accepted
      | cons first requested => simp [coversTokens] at covers
    | cons first allowed => cases requested <;> cases first <;> simp_all [coversTokens]

theorem matches_of_covered {requested allowed : SubjectPattern} {subject : Subject}
    (covers : isPatternCovered requested allowed = true)
    (accepted : requested.matches subject = true) : allowed.matches subject = true :=
  matchTokens_of_covers covers accepted

end ZetMQ.Permissions
