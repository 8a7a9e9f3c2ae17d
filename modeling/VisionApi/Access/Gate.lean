import VisionApi.Access.Tokens
import VisionApi.Foundation.Run

/-!
# Who may call, and whose quota it costs

A deployment registers keys, exchanges them for tokens and serves calls that carry
a token.  A call is authenticated first and counted by the rate limiter only then.
What is assumed about signatures is said of the calls: a token that verifies was
issued.

The state keeps three histories beside the store and the limiter: what was
registered, issued and served.  `GateSound` relates them to the state, and each event
keeps it: a token was issued for a key with the hash of a registered one, and a served
call carries the user and tier of such a token within its lifetime.

The first result says who is accepted, in terms of the tokens that were issued.  The
second is about quotas: the limiter keeps one window per caller, so the decision on a
caller's next check is the one after the served calls of that caller alone.  This is a
filter of the history of calls, and is proved by induction on it with `check_congr`,
which says that a check reads and writes the window of its own caller only.
-/

namespace VisionApi.Access

open Foundation Inference RateLimit
open Audit (Principal)

/-- The library, the settings and `hash_api_key`. -/
structure Deployment (Token : Type) where
  jwt : Jwt Token
  settings : Settings
  hashApiKey : String → String

/-- The library conforms for the key and the algorithm that the deployment signs with. -/
abbrev Deployment.Conforms {Token : Type} (deployment : Deployment Token) : Prop :=
  deployment.jwt.Conforms deployment.settings.jwtSecretKey deployment.settings.jwtAlgorithm

/-- A token that was issued for a key. -/
structure Issue (Token : Type) where
  apiKey : String
  principal : Principal
  now : ℚ
  jti : String
  token : Token

/-- A call that was authenticated: when, and what the limiter was asked at which time. -/
structure Served where
  principal : Principal
  now : ℚ
  clock : ℕ
  check : Check

/-- The store of keys, the limiter, and what has happened so far. -/
structure Gate (Token : Type) where
  store : APIKeyStore
  redis : Redis
  registered : List Registration
  issued : List (Issue Token)
  served : List Served

/-- Register a key, exchange one for a token, or call with or without a token. -/
inductive GateEvent (Token : Type) where
  | register (registration : Registration)
  | issueToken (apiKey : String) (now : ℚ) (jti : String)
  | call (credentials : Option Token) (now : ℚ) (clock nowMs monotonicNs : ℕ)

variable {Token : Type} (deployment : Deployment Token)

/-- The gate of a process that was just started. -/
def Gate.start : Gate Token where
  store := APIKeyStore.ofRegistrations deployment.hashApiKey
    (seedApiKeys deployment.settings.appEnv)
  redis := fun _ => none
  registered := seedApiKeys deployment.settings.appEnv
  issued := []
  served := []

/-- `issue_token` -/
def issueToken (gate : Gate Token) (apiKey : String) (now : ℚ) (jti : String) :
    Except ApiError (Issue Token) :=
  match gate.store.resolve deployment.hashApiKey apiKey with
  | none => .error (authenticationError "The API key is not recognised.")
  | some record =>
      let principal : Principal := ⟨record.userId, record.tier⟩
      .ok ⟨apiKey, principal, now, jti,
        (createAccessToken deployment.jwt principal deployment.settings none now jti).1⟩

/-- What an endpoint asks the limiter for a principal. -/
def checkOf (principal : Principal) (nowMs monotonicNs : ℕ) : Check :=
  ⟨⟨principal.tier, principal.userId⟩, nowMs, monotonicNs⟩

/-- The limiter is asked only for a caller that was authenticated. -/
def Gate.step (gate : Gate Token) : GateEvent Token → Option (Gate Token)
  | .register registration =>
      some { gate with
        store := gate.store.add deployment.hashApiKey registration
        registered := gate.registered ++ [registration] }
  | .issueToken apiKey now jti =>
      match issueToken deployment gate apiKey now jti with
      | .error _ => some gate
      | .ok issue => some { gate with issued := gate.issued ++ [issue] }
  | .call credentials now clock nowMs monotonicNs =>
      match authenticate deployment.jwt deployment.settings credentials now with
      | .error _ => some gate
      | .ok principal =>
          let check := checkOf principal nowMs monotonicNs
          some { gate with
            redis := (RateLimiter.check deployment.settings.rateLimits clock gate.redis check).1
            served := gate.served ++ [⟨principal, now, clock, check⟩] }

/-- A token that verifies was issued. -/
def Gate.Unforged (gate : Gate Token) (credentials : Option Token) : Prop :=
  ∀ token ∈ credentials, ∀ now claims,
    deployment.jwt.decode token deployment.settings.jwtSecretKey
        [deployment.settings.jwtAlgorithm] now = .ok claims →
      ∃ issue ∈ gate.issued, issue.token = token

/-- A call carries no token that verifies and was never issued. -/
def UnforgedEvent (gate : Gate Token) : GateEvent Token → Prop
  | .call credentials _ _ _ _ => gate.Unforged deployment credentials
  | _ => True

/-- Runs in which nobody forges a signature. -/
abbrev GateRun : Gate Token → Gate Token → Prop :=
  Run (Gate.step deployment) fun before event _ => UnforgedEvent deployment before event

/-! ## What every gate keeps -/

/-- The token was made for a principal whom the key was registered for. -/
structure Genuine (registered : List Registration) (issue : Issue Token) : Prop where
  token : issue.token = deployment.jwt.encode (accessClaims issue.principal
    deployment.settings.jwtAccessTokenTtlSeconds issue.now issue.jti)
      deployment.settings.jwtSecretKey deployment.settings.jwtAlgorithm
  registered : ∃ registration ∈ registered,
    deployment.hashApiKey registration.apiKey = deployment.hashApiKey issue.apiKey ∧
      registration.userId = issue.principal.userId ∧ registration.tier = issue.principal.tier

/-- The windows after some calls and no others. -/
def windowsAfter (settings : RateLimit.Settings) (served : List Served) : Redis :=
  served.foldl (fun redis served => (RateLimiter.check settings served.clock redis served.check).1)
    fun _ => none

/-- What was issued and served, as the histories and the store have it. -/
structure GateSound (gate : Gate Token) : Prop where
  store : gate.store = APIKeyStore.ofRegistrations deployment.hashApiKey gate.registered
  issued : ∀ issue ∈ gate.issued, Genuine deployment gate.registered issue
  served : ∀ served ∈ gate.served,
    served.check.caller = ⟨served.principal.tier, served.principal.userId⟩ ∧
      ∃ issue ∈ gate.issued, issue.principal = served.principal ∧
        (⌊issue.now⌋ : ℚ) ≤ served.now ∧
          served.now < ⌊issue.now⌋ + deployment.settings.jwtAccessTokenTtlSeconds
  windows : ∀ caller : Caller, gate.redis caller.key =
    windowsAfter deployment.settings.rateLimits
      (gate.served.filter fun served => served.check.caller = caller) caller.key

variable {deployment}

theorem gateSound_start : GateSound deployment (Gate.start deployment) :=
  ⟨rfl, by simp [Gate.start], by simp [Gate.start], by simp [Gate.start, windowsAfter]⟩

section Step

variable {gate : Gate Token}

theorem issueToken_ok {apiKey jti : String} {now : ℚ} {issue : Issue Token}
    (sound : GateSound deployment gate)
    (issued : issueToken deployment gate apiKey now jti = .ok issue) :
    Genuine deployment gate.registered issue := by
  unfold issueToken at issued
  cases resolved : gate.store.resolve deployment.hashApiKey apiKey with
  | none => simp [resolved] at issued
  | some record =>
      simp only [resolved, Except.ok.injEq] at issued
      subst issued
      refine ⟨rfl, ?_⟩
      simp only [sound.store, resolve_ofRegistrations, Option.map_eq_some_iff] at resolved
      rcases resolved with ⟨registration, found, rfl⟩
      have isRegistered := List.mem_of_find?_eq_some found
      have sameHash := List.find?_some found
      exact ⟨registration, by simpa using isRegistered, by simpa using sameHash, rfl, rfl⟩

/-- A token stays genuine when more keys are registered. -/
theorem Genuine.mono {registered more : List Registration} {issue : Issue Token}
    (genuine : Genuine deployment registered issue) (subset : registered ⊆ more) :
    Genuine deployment more issue := by
  rcases genuine.registered with ⟨registration, isRegistered, same⟩
  exact ⟨genuine.token, registration, subset isRegistered, same⟩

/-- A token that was issued is accepted as its principal exactly during its lifetime. -/
theorem Genuine.authenticate_iff {registered : List Registration} {issue : Issue Token}
    (conforms : deployment.Conforms) (genuine : Genuine deployment registered issue)
    {now : ℚ} {principal : Principal} :
    authenticate deployment.jwt deployment.settings (some issue.token) now = .ok principal ↔
      principal = issue.principal ∧ (⌊issue.now⌋ : ℚ) ≤ now ∧
        now < ⌊issue.now⌋ + deployment.settings.jwtAccessTokenTtlSeconds := by
  rw [genuine.token]
  exact authenticate_encode_ok_iff conforms

/-- A call is authenticated exactly if it carries a token that was issued and has not expired. -/
theorem GateSound.authenticate_iff (conforms : deployment.Conforms)
    (sound : GateSound deployment gate) {credentials : Option Token}
    (unforged : gate.Unforged deployment credentials) {now : ℚ} {principal : Principal} :
    authenticate deployment.jwt deployment.settings credentials now = .ok principal ↔
      ∃ issue ∈ gate.issued, credentials = some issue.token ∧ issue.principal = principal ∧
        (⌊issue.now⌋ : ℚ) ≤ now ∧
          now < ⌊issue.now⌋ + deployment.settings.jwtAccessTokenTtlSeconds := by
  constructor
  · intro accepted
    cases credentials with
    | none => simp [authenticate] at accepted
    | some token =>
        have decoded : ∃ claims, deployment.jwt.decode token deployment.settings.jwtSecretKey
            [deployment.settings.jwtAlgorithm] now = .ok claims := by
          simp only [authenticate, decodeAccessToken] at accepted
          split at accepted
          · exact ⟨_, ‹_›⟩
          · cases accepted
          · cases accepted
        rcases decoded with ⟨claims, isDecoded⟩
        rcases unforged token rfl now claims isDecoded with ⟨issue, isIssued, rfl⟩
        rcases ((sound.issued issue isIssued).authenticate_iff conforms).mp accepted with
          ⟨same, running⟩
        exact ⟨issue, isIssued, rfl, same.symm, running⟩
  · rintro ⟨issue, isIssued, rfl, rfl, running⟩
    exact ((sound.issued issue isIssued).authenticate_iff conforms).mpr ⟨rfl, running⟩

/-- A check reads and writes the window of its caller alone. -/
theorem check_congr (settings : RateLimit.Settings) (clock : ℕ) {redis other : Redis}
    {check : Check} (same : redis check.caller.key = other check.caller.key) :
    (RateLimiter.check settings clock redis check).1 check.caller.key =
        (RateLimiter.check settings clock other check).1 check.caller.key ∧
      (RateLimiter.check settings clock redis check).2 =
        (RateLimiter.check settings clock other check).2 := by
  simp [RateLimiter.check, same]

theorem windowsAfter_append_singleton (settings : RateLimit.Settings) (earlier : List Served)
    (served : Served) : windowsAfter settings (earlier ++ [served]) =
      (RateLimiter.check settings served.clock (windowsAfter settings earlier) served.check).1 := by
  simp [windowsAfter]

/-- Counting an authenticated call keeps the histories sound. -/
theorem GateSound.serve (sound : GateSound deployment gate) (served : Served)
    (isCaller : served.check.caller = ⟨served.principal.tier, served.principal.userId⟩)
    {issue : Issue Token} (isIssued : issue ∈ gate.issued)
    (same : issue.principal = served.principal) (started : (⌊issue.now⌋ : ℚ) ≤ served.now)
    (running : served.now < ⌊issue.now⌋ + deployment.settings.jwtAccessTokenTtlSeconds) :
    GateSound deployment { gate with
      redis := (RateLimiter.check deployment.settings.rateLimits served.clock gate.redis
        served.check).1
      served := gate.served ++ [served] } := by
  refine ⟨sound.store, sound.issued, ?_, ?_⟩
  · intro other isServed
    rcases List.mem_append.mp isServed with isOld | isNew
    · exact sound.served other isOld
    · simp only [List.mem_singleton] at isNew
      subst isNew
      exact ⟨isCaller, issue, isIssued, same, started, running⟩
  · intro caller
    simp only [List.filter_append, List.filter_cons, List.filter_nil]
    by_cases own : served.check.caller = caller
    · subst own
      simp only [decide_true, if_true, windowsAfter_append_singleton]
      exact (check_congr _ _ (sound.windows _)).1
    · simp only [own, decide_false, Bool.false_eq_true, if_false, List.append_nil]
      exact (check_frame _ _ _ (Ne.symm own)).trans (sound.windows caller)

/-- Every event keeps the histories sound. -/
theorem GateSound.step (conforms : deployment.Conforms) (sound : GateSound deployment gate)
    {event : GateEvent Token} {next : Gate Token} (unforged : UnforgedEvent deployment gate event)
    (stepped : gate.step deployment event = some next) : GateSound deployment next := by
  cases event with
  | register registration =>
      cases stepped
      refine ⟨?_, ?_, sound.served, sound.windows⟩
      · simp [sound.store, ofRegistrations_append_singleton]
      · intro issue isIssued
        exact (sound.issued issue isIssued).mono (List.subset_append_left _ _)
  | issueToken apiKey now jti =>
      cases issued : issueToken deployment gate apiKey now jti with
      | error error =>
          simp only [Gate.step, issued, Option.some.injEq] at stepped
          exact stepped ▸ sound
      | ok issue =>
          simp only [Gate.step, issued, Option.some.injEq] at stepped
          subst stepped
          have genuine := issueToken_ok sound issued
          refine ⟨sound.store, ?_, ?_, sound.windows⟩
          · intro other isIssued
            rcases List.mem_append.mp isIssued with isOld | isNew
            · exact sound.issued other isOld
            · simp only [List.mem_singleton] at isNew
              subst isNew
              exact genuine
          · intro served isServed
            rcases sound.served served isServed with ⟨isCaller, other, isIssued, running⟩
            exact ⟨isCaller, other, List.mem_append_left _ isIssued, running⟩
  | call credentials now clock nowMs monotonicNs =>
      cases accepted : authenticate deployment.jwt deployment.settings credentials now with
      | error error =>
          simp only [Gate.step, accepted, Option.some.injEq] at stepped
          exact stepped ▸ sound
      | ok principal =>
          simp only [Gate.step, accepted, Option.some.injEq] at stepped
          subst stepped
          rcases (sound.authenticate_iff conforms unforged).mp accepted with
            ⟨issue, isIssued, _, same, started, running⟩
          exact sound.serve ⟨principal, now, clock, checkOf principal nowMs monotonicNs⟩ rfl
            isIssued same started running

end Step

/-- The histories are sound after any run. -/
theorem gateSound_of_run (conforms : deployment.Conforms) {gate : Gate Token}
    (run : GateRun deployment (Gate.start deployment) gate) : GateSound deployment gate :=
  run.invariant gateSound_start fun _ _ _ sound unforged stepped =>
    sound.step conforms unforged stepped

/-! ## Who is let in, and what it costs -/

/-- In every run without forged signatures, a call is accepted as a principal exactly if it carries
a token that was issued for a key registered for that principal, in the seconds of its lifetime,
whatever was registered, issued or called since. -/
theorem accepted_iff_holds_token (deployment : Deployment Token)
    (conforms : deployment.Conforms) {gate : Gate Token}
    (run : GateRun deployment (Gate.start deployment) gate) {credentials : Option Token}
    (unforged : gate.Unforged deployment credentials) (now : ℚ) (principal : Principal) :
    authenticate deployment.jwt deployment.settings credentials now = .ok principal ↔
      ∃ issue ∈ gate.issued, credentials = some issue.token ∧ issue.principal = principal ∧
        (⌊issue.now⌋ : ℚ) ≤ now ∧
        now < ⌊issue.now⌋ + deployment.settings.jwtAccessTokenTtlSeconds ∧
        ∃ registration ∈ gate.registered,
          deployment.hashApiKey registration.apiKey = deployment.hashApiKey issue.apiKey ∧
            registration.userId = principal.userId ∧ registration.tier = principal.tier := by
  have sound := gateSound_of_run conforms run
  simp only [sound.authenticate_iff conforms unforged]
  constructor
  · rintro ⟨issue, isIssued, carries, rfl, started, running⟩
    have registered := (sound.issued issue isIssued).registered
    exact ⟨issue, isIssued, carries, rfl, started, running, registered⟩
  · rintro ⟨issue, isIssued, carries, same, started, running, _⟩
    exact ⟨issue, isIssued, carries, same, started, running⟩

/-- A library whose tokens carry their claims, the key and the algorithm. -/
def openJwt : Jwt (Claims × String × String) where
  encode := fun claims key algorithm => (claims, key, algorithm)
  decode := fun token key algorithms now =>
    if token.2.1 = key ∧ token.2.2 ∈ algorithms then
      if now < token.1.iat then .error (.invalidToken "The token is not yet valid (iat)")
      else if (token.1.exp : ℚ) ≤ now then .error .expiredSignature
      else .ok token.1
    else .error (.invalidToken "Signature verification failed")

theorem openJwt_conforms (key algorithm : String) : openJwt.Conforms key algorithm := by
  refine ⟨?_, ?_, ?_⟩
  · intro claims now started running
    simp [openJwt, not_lt.mpr started, not_le.mpr running]
  · intro claims now started ended
    simp [openJwt, not_lt.mpr started, ended]
  · intro claims now early
    exact ⟨"The token is not yet valid (iat)", by simp [openJwt, early]⟩

/-- A development process in which the tiers have one, two and three requests a minute. -/
def devDeployment : Deployment (Claims × String × String) where
  jwt := openJwt
  settings :=
    { appEnv := .development
      jwtSecretKey := "secret"
      jwtAlgorithm := "HS256"
      jwtAccessTokenTtlSeconds := 3600
      rateLimits := ⟨1, 2, 3⟩ }
  hashApiKey := id

/-- The token that the development key of the pro tier is exchanged for at time zero. -/
def proIssue : Issue (Claims × String × String) where
  apiKey := "dev-key-pro"
  principal := ⟨"dev-pro", .pro⟩
  now := 0
  jti := "j"
  token := (accessClaims ⟨"dev-pro", .pro⟩ 3600 0 "j", "secret", "HS256")

theorem proIssue_run : ∃ gate, GateRun devDeployment (Gate.start devDeployment) gate ∧
    gate.issued = [proIssue] ∧ gate.registered = seedApiKeys .development := by
  have resolved : (Gate.start devDeployment).store.resolve id "dev-key-pro" =
      some ⟨"dev-pro", .pro, "dev-key-pro"⟩ := by
    decide
  have issued : issueToken devDeployment (Gate.start devDeployment) "dev-key-pro" 0 "j" =
      .ok proIssue := by
    simp only [issueToken, devDeployment] at resolved ⊢
    rw [resolved]
    rfl
  have stepped : (Gate.start devDeployment).step devDeployment
      (.issueToken "dev-key-pro" 0 "j") =
        some { Gate.start devDeployment with issued := [proIssue] } := by
    rw [Gate.step, issued]
    rfl
  exact ⟨_, .tail _ .refl stepped trivial, rfl, rfl⟩

/-- The holder of that token is let in as its user. -/
theorem accepted_iff_holds_token_pro : ∃ gate,
    GateRun devDeployment (Gate.start devDeployment) gate ∧
      authenticate openJwt devDeployment.settings (some proIssue.token) 10 =
        .ok ⟨"dev-pro", .pro⟩ := by
  rcases proIssue_run with ⟨gate, run, issued, registered⟩
  have unforged : gate.Unforged devDeployment (some proIssue.token) := by
    intro token carried _ _ _
    cases carried
    exact ⟨proIssue, by simp [issued], rfl⟩
  refine ⟨gate, run, ?_⟩
  apply (accepted_iff_holds_token devDeployment (openJwt_conforms _ _) run unforged 10 _).mpr
  refine ⟨proIssue, by simp [issued], rfl, rfl, ?_, ?_, ?_⟩
  · norm_num [proIssue]
  · norm_num [proIssue, devDeployment]
  · refine ⟨⟨"dev-key-pro", "dev-pro", .pro⟩, ?_, rfl, rfl, rfl⟩
    rw [registered]
    decide

/-- The limiter decides on a call by the authenticated calls of its caller alone, each of which
carried a token issued for that caller that had not expired: nobody else spends its quota. -/
theorem quota_is_own (deployment : Deployment Token) (conforms : deployment.Conforms)
    {gate : Gate Token} (run : GateRun deployment (Gate.start deployment) gate) (clock : ℕ)
    (check : Check) :
    (RateLimiter.check deployment.settings.rateLimits clock gate.redis check).2 =
        (RateLimiter.check deployment.settings.rateLimits clock
          (windowsAfter deployment.settings.rateLimits
            (gate.served.filter fun served => served.check.caller = check.caller)) check).2 ∧
      ∀ served ∈ gate.served, served.check.caller = check.caller →
        ∃ issue ∈ gate.issued, issue.principal.userId = check.caller.userId ∧
          issue.principal.tier = check.caller.tier ∧ (⌊issue.now⌋ : ℚ) ≤ served.now ∧
          served.now < ⌊issue.now⌋ + deployment.settings.jwtAccessTokenTtlSeconds := by
  have sound := gateSound_of_run conforms run
  refine ⟨(check_congr _ _ (sound.windows check.caller)).2, ?_⟩
  intro served isServed isOwn
  rcases sound.served served isServed with ⟨isCaller, issue, isIssued, same, running⟩
  rw [isCaller] at isOwn
  refine ⟨issue, isIssued, ?_, ?_, running⟩
  · simp [same, ← isOwn]
  · simp [same, ← isOwn]

/-- The token that the development key of the free tier is exchanged for at time zero. -/
def freeIssue : Issue (Claims × String × String) where
  apiKey := "dev-key-free"
  principal := ⟨"dev-free", .free⟩
  now := 0
  jti := "i"
  token := (accessClaims ⟨"dev-free", .free⟩ 3600 0 "i", "secret", "HS256")

/-- A call ten seconds after the tokens were issued, when the clocks show ten thousand. -/
def callOf (issue : Issue (Claims × String × String)) (monotonicNs : ℕ) :
    GateEvent (Claims × String × String) :=
  .call (some issue.token) 10 10000 10000 monotonicNs

/-- What is left of such a call. -/
def servedOf (principal : Principal) (monotonicNs : ℕ) : Served :=
  ⟨principal, 10, 10000, checkOf principal 10000 monotonicNs⟩

/-- The gate after both tokens were issued and some calls were served. -/
def gateAfter (served : List Served) : Gate (Claims × String × String) :=
  { Gate.start devDeployment with
    issued := [freeIssue, proIssue]
    redis := windowsAfter ⟨1, 2, 3⟩ served
    served := served }

theorem gateAfter_nil_run :
    GateRun devDeployment (Gate.start devDeployment) (gateAfter []) := by
  refine .tail (.issueToken "dev-key-pro" 0 "j")
    (.tail (.issueToken "dev-key-free" 0 "i") .refl rfl trivial) ?_ trivial
  rfl

/-- A call with one of the two tokens is served. -/
theorem gateAfter_call {served : List Served} {issue : Issue (Claims × String × String)}
    (isIssued : issue ∈ [freeIssue, proIssue]) (monotonicNs : ℕ)
    (run : GateRun devDeployment (Gate.start devDeployment) (gateAfter served)) :
    GateRun devDeployment (Gate.start devDeployment)
      (gateAfter (served ++ [servedOf issue.principal monotonicNs])) := by
  have unforged : (gateAfter served).Unforged devDeployment (some issue.token) := by
    intro token carried _ _ _
    cases carried
    exact ⟨issue, isIssued, rfl⟩
  have sound := gateSound_of_run (openJwt_conforms _ _) run
  have running : (⌊issue.now⌋ : ℚ) ≤ 10 ∧ (10 : ℚ) < ⌊issue.now⌋ + 3600 := by
    rcases List.mem_pair.mp isIssued with rfl | rfl
    · norm_num [freeIssue]
    · norm_num [proIssue]
  have accepted : authenticate devDeployment.jwt devDeployment.settings (some issue.token) 10 =
      .ok issue.principal :=
    (sound.authenticate_iff (openJwt_conforms _ _) unforged).mpr
      ⟨issue, isIssued, rfl, rfl, running⟩
  apply run.tail (callOf issue monotonicNs) _ unforged
  simp only [callOf, Gate.step, accepted, gateAfter, windowsAfter_append_singleton]
  rfl

/-- The free caller has spent its only request, which costs the pro caller nothing. -/
theorem quota_is_own_pro : ∃ gate, GateRun devDeployment (Gate.start devDeployment) gate ∧
    gate.served.map Served.principal =
      [freeIssue.principal, proIssue.principal, freeIssue.principal] ∧
    (RateLimiter.check ⟨1, 2, 3⟩ 10000 gate.redis
      (checkOf freeIssue.principal 10000 4)).2.allowed = false ∧
    (RateLimiter.check ⟨1, 2, 3⟩ 10000 gate.redis
      (checkOf proIssue.principal 10000 4)).2.allowed = true := by
  have isFree : freeIssue ∈ [freeIssue, proIssue] := List.mem_cons_self
  have isPro : proIssue ∈ [freeIssue, proIssue] := List.mem_cons_of_mem _ List.mem_cons_self
  have run := gateAfter_call isFree 3 (gateAfter_call isPro 2 (gateAfter_call isFree 1
    gateAfter_nil_run))
  have own := quota_is_own devDeployment (openJwt_conforms _ _) run 10000
    (checkOf proIssue.principal 10000 4)
  refine ⟨_, run, rfl, ?_, ?_⟩
  · decide +kernel
  · exact (congrArg RateLimitDecision.allowed own.1).trans (by decide +kernel)

end VisionApi.Access
