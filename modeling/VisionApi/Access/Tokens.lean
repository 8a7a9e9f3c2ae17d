import Mathlib.Data.Rat.Floor
import VisionApi.Access.Keys
import VisionApi.Audit.Columns

/-!
# Access tokens

`create_access_token` and `authenticate`.  The JWT library is a parameter: what it
does with tokens that it has encoded itself is assumed, as far as its documentation
says so.  Times are in seconds; the library keeps whole seconds of them.

`Jwt.Conforms` is that assumption, for one key and one algorithm: a token that was
encoded with them decodes to its claims from the second it was issued in until it
expires, and to an error outside of that time.  Nothing is assumed about tokens that
were not encoded here.

Authentication reads the user and the tier from the claims.  A tier that is missing
or unknown counts as the free one, and the tier of an issued token is read back as it
was written (`userTier_accessClaims`).
-/

namespace VisionApi.Access

open Audit Foundation Inference RateLimit

/-! ## Settings -/

/-- What a process is configured with about its callers. -/
structure Settings where
  appEnv : AppEnv
  jwtSecretKey : String
  jwtAlgorithm : String
  jwtAccessTokenTtlSeconds : ℤ
  rateLimits : RateLimit.Settings

/-! ## The library -/

/-- The value of a claim, as far as `authenticate` tells values apart. -/
inductive ClaimValue where
  | text (value : String)
  | other
deriving DecidableEq

/-- The payload of a token. -/
structure Claims where
  sub : String
  tier : Option ClaimValue
  iat : ℤ
  exp : ℤ
  jti : String
deriving DecidableEq

/-- Why a token is not decoded. -/
inductive JwtError where
  | expiredSignature
  | invalidToken (reason : String)
deriving DecidableEq

/-- `jwt.encode` and `jwt.decode` with `exp` and `sub` required, at the time of a call. -/
structure Jwt (Token : Type) where
  encode : Claims → String → String → Token
  decode : Token → String → List String → ℚ → Except JwtError Claims

/-- What the library does with tokens that it has encoded with a key and an algorithm, and is to
decode with the same. -/
structure Jwt.Conforms {Token : Type} (jwt : Jwt Token) (key algorithm : String) : Prop where
  decode_encode : ∀ claims now, (claims.iat : ℚ) ≤ now → now < claims.exp →
    jwt.decode (jwt.encode claims key algorithm) key [algorithm] now = .ok claims
  expired : ∀ claims now, (claims.iat : ℚ) ≤ now → (claims.exp : ℚ) ≤ now →
    jwt.decode (jwt.encode claims key algorithm) key [algorithm] now = .error .expiredSignature
  immature : ∀ claims (now : ℚ), now < claims.iat → ∃ reason,
    jwt.decode (jwt.encode claims key algorithm) key [algorithm] now =
      .error (.invalidToken reason)

variable {Token : Type} (jwt : Jwt Token)

/-! ## Issuing -/

/-- The claims of a token that is issued at a time. -/
def accessClaims (principal : Principal) (lifetime : ℤ) (now : ℚ) (jti : String) : Claims where
  sub := principal.userId
  tier := some (.text principal.tier.value)
  iat := ⌊now⌋
  exp := ⌊now + lifetime⌋
  jti := jti

/-- The token of a principal and its lifetime; a lifetime of zero counts as none given. -/
def createAccessToken (principal : Principal) (settings : Settings) (expiresIn : Option ℤ)
    (now : ℚ) (jti : String) : Token × ℤ :=
  let lifetime :=
    match expiresIn with
    | none => settings.jwtAccessTokenTtlSeconds
    | some seconds => if seconds = 0 then settings.jwtAccessTokenTtlSeconds else seconds
  (jwt.encode (accessClaims principal lifetime now jti) settings.jwtSecretKey
    settings.jwtAlgorithm, lifetime)

/-! ## Authenticating -/

/-- The error for a missing, an expired and an invalid token. -/
def authenticationError (message : String) : ApiError :=
  ⟨401, "authentication_required", message, []⟩

/-- The claims of a token that verifies. -/
def decodeAccessToken (token : Token) (settings : Settings) (now : ℚ) : Except ApiError Claims :=
  match jwt.decode token settings.jwtSecretKey [settings.jwtAlgorithm] now with
  | .ok claims => .ok claims
  | .error .expiredSignature => .error (authenticationError "The access token has expired.")
  | .error (.invalidToken _) => .error (authenticationError "The access token is invalid.")

/-- `UserTier(value)` of a text. -/
def userTier (value : String) : Option UserTier :=
  [UserTier.free, .pro, .enterprise].find? fun tier => tier.value = value

/-- The tier of the claims; an unrecognised one is the least privileged. -/
def Claims.userTier (claims : Claims) : UserTier :=
  match claims.tier with
  | none => .free
  | some .other => .free
  | some (.text value) => (Access.userTier value).getD .free

/-- `authenticate`; the credentials are missing also if they are empty. -/
def authenticate (settings : Settings) (credentials : Option Token) (now : ℚ) :
    Except ApiError Principal :=
  match credentials with
  | none =>
      .error (authenticationError "An Authorization: Bearer <token> header is required.")
  | some token =>
      (decodeAccessToken jwt token settings now).map fun claims => ⟨claims.sub, claims.userTier⟩

/-! ## A token is good for its lifetime -/

theorem userTier_value (tier : UserTier) : userTier tier.value = some tier := by
  cases tier <;> decide

theorem userTier_accessClaims (principal : Principal) (lifetime : ℤ) (now : ℚ) (jti : String) :
    (accessClaims principal lifetime now jti).userTier = principal.tier := by
  simp [accessClaims, Claims.userTier, userTier_value]

section Lifetime

variable {jwt : Jwt Token} {settings : Settings}

/-- The token of some claims of a principal is accepted as the principal until it expires; before
its time and after it the caller is told to authenticate. -/
theorem authenticate_encode
    (conforms : jwt.Conforms settings.jwtSecretKey settings.jwtAlgorithm)
    (principal : Principal) (lifetime : ℤ) (now : ℚ) (jti : String) (later : ℚ) :
    authenticate jwt settings (some (jwt.encode (accessClaims principal lifetime now jti)
      settings.jwtSecretKey settings.jwtAlgorithm)) later =
        if (⌊now⌋ : ℚ) ≤ later then
          if later < ⌊now⌋ + lifetime then .ok principal
          else .error (authenticationError "The access token has expired.")
        else .error (authenticationError "The access token is invalid.") := by
  have expiry : ((accessClaims principal lifetime now jti).exp : ℚ) = ⌊now⌋ + lifetime := by
    simp [accessClaims]
  by_cases started : (⌊now⌋ : ℚ) ≤ later
  · by_cases running : later < ⌊now⌋ + lifetime
    · have decoded := conforms.decode_encode (accessClaims principal lifetime now jti) later
        started (by rw [expiry]; exact running)
      simp only [authenticate, decodeAccessToken, decoded, Except.map, userTier_accessClaims,
        started, running, if_true]
      rfl
    · have decoded := conforms.expired (accessClaims principal lifetime now jti) later started
        (by rw [expiry]; exact not_lt.mp running)
      simp [authenticate, decodeAccessToken, decoded, started, running, Except.map]
  · rcases conforms.immature (accessClaims principal lifetime now jti) later (not_le.mp started)
      with ⟨reason, decoded⟩
    simp [authenticate, decodeAccessToken, decoded, started, Except.map]

theorem authenticate_encode_ok_iff
    (conforms : jwt.Conforms settings.jwtSecretKey settings.jwtAlgorithm)
    {principal found : Principal} {lifetime : ℤ} {now later : ℚ} {jti : String} :
    authenticate jwt settings (some (jwt.encode (accessClaims principal lifetime now jti)
      settings.jwtSecretKey settings.jwtAlgorithm)) later = .ok found ↔
        found = principal ∧ (⌊now⌋ : ℚ) ≤ later ∧ later < ⌊now⌋ + lifetime := by
  simp only [authenticate_encode conforms]
  split
  · split
    · simp [*, eq_comm]
    · simp [*]
  · simp [*]

end Lifetime

end VisionApi.Access
