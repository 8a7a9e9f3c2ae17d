import VisionApi.Inference.AuditTrail

/-!
# The cache and the outcome of a request

Where the cache yields nothing, a request ends as it does without a cache; a
value that is no JSON is deleted on the way.  Where the cache yields a payload
that can be rebuilt, the request is answered from it, whether or not the model
still runs.

What a payload of another shape does is left open here: it raises where it is
rebuilt, outside the handlers of the cache service.
-/

namespace VisionApi.Inference

open Foundation Models

variable {Session Tensor Logits Score : Type}

/-- The read fails with `RedisError`, or finds no payload. -/
def NotCached (lib : Library Score) (store : Store) (faults : Faults) (key : String) : Prop :=
  faults.get = true ∨ lib.reading (store key) = .absent ∨ lib.reading (store key) = .corrupt ∨
    lib.reading (store key) = .payload .null

/-- The read succeeds and finds a payload from which predictions are rebuilt. -/
def Cached (lib : Library Score) (store : Store) (faults : Faults) (key : String)
    (predictions : List (Prediction Score)) : Prop :=
  faults.get = false ∧ ∃ payload, lib.reading (store key) = .payload payload ∧
    lib.rebuild payload = .ok predictions

/-- The read succeeds and finds a value that is no JSON. -/
def Corrupt (lib : Library Score) (store : Store) (faults : Faults) (key : String) : Prop :=
  faults.get = false ∧ lib.reading (store key) = .corrupt

/-- The values once the one under a key is deleted, unless the command fails. -/
def deleted (store : Store) (faults : Faults) (key : String) : Store :=
  if faults.delete then store else Function.update store key none

/-- The values after a corrupt one was found: it is deleted, and the answer stored if there is
one. -/
def Library.afterCorrupt (lib : Library Score) (store : Store) (faults : Faults) (key : String) :
    Except Failure (Response Score) → Option Store
  | .error _ => some (deleted store faults key)
  | .ok response =>
      lib.cacheSet (some (deleted store faults key)) faults key (payloadOf response.predictions)

section FailOpen

variable {service : InferenceService Session} {engine : Engine Session Tensor Logits Score}
  {lib : Library Score} {store : Store} {faults : Faults} {request : Request Score}
  {attempt : Attempt Session Score}

theorem cacheGet_of_notCached {key : String} (notCached : NotCached lib store faults key) :
    ∃ next, lib.cacheGet (some store) faults key = (.ok none, next) := by
  simp only [Library.cacheGet]
  split
  · exact ⟨_, rfl⟩
  · rename_i reads
    rcases notCached with fails | absent | corrupt | null
    · exact absurd fails reads
    · rw [absent]
      exact ⟨_, rfl⟩
    · rw [corrupt]
      exact ⟨_, rfl⟩
    · rw [null]
      exact ⟨_, rfl⟩

theorem cacheGet_of_corrupt {key : String} (corrupt : Corrupt lib store faults key) :
    lib.cacheGet (some store) faults key = (.ok none, some (deleted store faults key)) := by
  simp only [Library.cacheGet, corrupt.1, corrupt.2, deleted, Bool.false_eq_true, if_false]

theorem cacheGet_of_cached {key : String} {predictions : List (Prediction Score)}
    (cached : Cached lib store faults key predictions) :
    ∃ payload, lib.rebuild payload = .ok predictions ∧
      lib.cacheGet (some store) faults key = (.ok (some payload), some store) := by
  rcases cached with ⟨reads, payload, isPayload, rebuilt⟩
  refine ⟨payload, rebuilt, ?_⟩
  rcases rebuild_succeeds_iff.mp ⟨predictions, rebuilt⟩ with ⟨members, _, _, rfl, _⟩
  simp only [Library.cacheGet, reads, isPayload, usablePayload, Bool.false_eq_true, if_false]

/-- A run stores the predictions it answers with, if the request uses the cache. -/
theorem run_toStore (uses : attempt.request.useCache = true) {limit : ℤ} :
    (attempt.run engine limit).toStore =
      match (attempt.run engine limit).response with
      | .error _ => none
      | .ok response => some (payloadOf response.predictions) := by
  simp only [Attempt.run]
  cases runBatch engine limit attempt.model [attempt.request.image] with
  | error failure => rfl
  | ok rows =>
      simp only
      cases attempt.decodeFirst engine rows with
      | error failure => rfl
      | ok predictions => exact if_pos uses

/-- The response of an admitted request, from what its cache read returns. -/
theorem classify_response {cache next : Option Store} {cached : Option (Json Score)}
    (admitted : service.resolve engine lib request = .ok attempt)
    (read : attempt.readCache lib cache faults = (.ok cached, next)) :
    (service.classifyAudited engine lib cache faults request).1 =
      (attempt.answer engine lib service.pillowLimit cached).response := by
  simp only [InferenceService.classifyAudited, admitted, read, Attempt.conclude]

/-- Without a cache an attempt ends as its run does. -/
theorem classify_disabled (admitted : service.resolve engine lib request = .ok attempt) :
    (service.classifyAudited engine lib none faults request).1 =
      (attempt.run engine service.pillowLimit).response := by
  have read : attempt.readCache lib none faults = (.ok none, none) := by
    simp only [Attempt.readCache, Library.cacheGet]
    split <;> rfl
  exact classify_response admitted read

/-- A request that uses the cache reads it under its key. -/
theorem readCache_of_uses (uses : request.useCache = true)
    (admitted : service.resolve engine lib request = .ok attempt) (cache : Option Store) :
    attempt.readCache lib cache faults = lib.cacheGet cache faults attempt.cacheKey := by
  rw [Attempt.readCache, request_of_resolve admitted, if_pos uses]

/-- Where the cache yields nothing, the response is the one without a cache. -/
theorem classify_of_notCached (uses : request.useCache = true)
    (admitted : service.resolve engine lib request = .ok attempt)
    (notCached : NotCached lib store faults attempt.cacheKey) (otherFaults : Faults) :
    (service.classifyAudited engine lib (some store) faults request).1 =
      (service.classifyAudited engine lib none otherFaults request).1 := by
  rcases cacheGet_of_notCached notCached with ⟨next, got⟩
  have read := (readCache_of_uses uses admitted (some store)).trans got
  rw [classify_response admitted read, classify_disabled admitted]
  rfl

/-- Where the cache yields a usable payload, the call returns it and stores nothing. -/
theorem classify_of_cached (uses : request.useCache = true)
    (admitted : service.resolve engine lib request = .ok attempt)
    {predictions : List (Prediction Score)}
    (cached : Cached lib store faults attempt.cacheKey predictions) :
    (service.classifyAudited engine lib (some store) faults request).1 =
        .ok (attempt.respond predictions true) ∧
      (service.classifyAudited engine lib (some store) faults request).2.2 = some store := by
  rcases cacheGet_of_cached cached with ⟨payload, rebuilt, got⟩
  have read := (readCache_of_uses uses admitted (some store)).trans got
  simp only [InferenceService.classifyAudited, admitted, read, Attempt.conclude, Attempt.answer,
    Attempt.serveCached, rebuilt, and_self]

/-- A value that is no JSON is deleted before the model runs. -/
theorem classify_of_corrupt (uses : request.useCache = true)
    (admitted : service.resolve engine lib request = .ok attempt)
    (corrupt : Corrupt lib store faults attempt.cacheKey) :
    (service.classifyAudited engine lib (some store) faults request).2.2 =
      lib.afterCorrupt store faults attempt.cacheKey
        (service.classifyAudited engine lib (some store) faults request).1 := by
  have read := (readCache_of_uses uses admitted (some store)).trans (cacheGet_of_corrupt corrupt)
  have usesCache : attempt.request.useCache = true := by
    rw [request_of_resolve admitted]
    exact uses
  simp only [InferenceService.classifyAudited, admitted, read, Attempt.conclude, Attempt.answer,
    run_toStore usesCache]
  cases (attempt.run engine service.pillowLimit).response with
  | error failure => rfl
  | ok response => rfl

/-- A request that uses the cache raises exactly when it raises without one, if it is not
admitted or the cache yields nothing, and a value that is no JSON is deleted; a usable payload is
returned as it is. -/
theorem classify_raises_iff (service : InferenceService Session)
    (engine : Engine Session Tensor Logits Score) (lib : Library Score) (store : Store)
    (faults otherFaults : Faults) (request : Request Score) (uses : request.useCache = true) :
    (∀ failure, service.resolve engine lib request = .error failure →
      ¬Succeeds (service.classifyAudited engine lib (some store) faults request).1 ∧
        ¬Succeeds (service.classifyAudited engine lib none otherFaults request).1) ∧
    ∀ attempt, service.resolve engine lib request = .ok attempt →
      (NotCached lib store faults attempt.cacheKey →
        (¬Succeeds (service.classifyAudited engine lib (some store) faults request).1 ↔
          ¬Succeeds (service.classifyAudited engine lib none otherFaults request).1)) ∧
      (Corrupt lib store faults attempt.cacheKey →
        (service.classifyAudited engine lib (some store) faults request).2.2 =
          lib.afterCorrupt store faults attempt.cacheKey
            (service.classifyAudited engine lib (some store) faults request).1) ∧
      ∀ predictions, Cached lib store faults attempt.cacheKey predictions →
        (service.classifyAudited engine lib (some store) faults request).1 =
            .ok (attempt.respond predictions true) ∧
          (service.classifyAudited engine lib (some store) faults request).2.2 = some store := by
  constructor
  · intro failure rejected
    simp only [InferenceService.classifyAudited, rejected]
    exact ⟨not_succeeds_error _, not_succeeds_error _⟩
  · intro attempt admitted
    refine ⟨?_, classify_of_corrupt uses admitted, ?_⟩
    · intro notCached
      rw [classify_of_notCached uses admitted notCached otherFaults]
    · intro predictions cached
      exact classify_of_cached uses admitted cached

end FailOpen

/-! ## The small service -/

/-- The predictions of the small service. -/
def smallPredictions : List (Prediction ℕ) :=
  [⟨"goldfish", 0, some "n01443537", some 1⟩]

theorem smallFloats_prints : ∀ score ≤ 1, smallFloats.Prints score := by
  intro score inside
  have isSmall : score = 0 ∨ score = 1 := by omega
  rcases isSmall with rfl | rfl
  · exact ⟨List.all_eq_true.mp rfl, List.append_ne_nil_of_right_ne_nil _ (List.cons_ne_nil _ _),
      rfl, rfl⟩
  · exact ⟨List.all_eq_true.mp rfl, List.append_ne_nil_of_right_ne_nil _ (List.cons_ne_nil _ _),
      rfl, rfl⟩

theorem wellFormed_smallPredictions : (payloadOf smallPredictions).WellFormed smallFloats := by
  apply wellFormed_payloadOf
  intro prediction isPrediction probability shown
  cases List.mem_singleton.mp isPrediction
  cases shown
  exact smallFloats_prints 1 (Nat.le_refl 1)

/-- A store that holds the predictions of the small service under every key. -/
def smallStore : Store :=
  fun _ => some (smallLibrary.dumps .spaced (payloadOf smallPredictions)).toUTF8

theorem cached_smallStore (key : String) :
    Cached smallLibrary smallStore ⟨false, false, false⟩ key smallPredictions :=
  ⟨rfl, _, reading_dumps wellFormed_smallPredictions, rfl⟩

/-- A session that fails every run. -/
def failingEngine : Engine Unit Unit Unit ℕ :=
  { smallEngine with run := fun _ _ _ => .error (.other "RuntimeError") }

/-- A store that holds the text of no value under every key. -/
def tornStore : Store :=
  fun _ => some "[".toUTF8

theorem corrupt_tornStore (key : String) :
    Corrupt smallLibrary tornStore ⟨false, false, false⟩ key := by
  refine ⟨rfl, ?_⟩
  simp only [tornStore, Library.reading, fromUTF8?_toUTF8]
  rfl

/-- Where the session fails, a torn value is deleted and the call raises as it does without a
cache, and an intact one is returned. -/
theorem classify_raises_failing :
    ∃ attempt, smallService.resolve failingEngine smallLibrary smallRequest = .ok attempt ∧
      (¬Succeeds (smallService.classifyAudited failingEngine smallLibrary (some tornStore)
          ⟨false, false, false⟩ smallRequest).1 ↔
        ¬Succeeds (smallService.classifyAudited failingEngine smallLibrary none
          ⟨false, false, false⟩ smallRequest).1) ∧
      (smallService.classifyAudited failingEngine smallLibrary (some tornStore)
        ⟨false, false, false⟩ smallRequest).2.2 =
          some (Function.update tornStore attempt.cacheKey none) ∧
      (smallService.classifyAudited failingEngine smallLibrary (some smallStore)
        ⟨false, false, false⟩ smallRequest).1 = .ok (attempt.respond smallPredictions true) := by
  have admits : ∃ attempt, smallService.resolve failingEngine smallLibrary smallRequest =
      .ok attempt := ⟨_, rfl⟩
  rcases admits with ⟨attempt, admitted⟩
  have torn := (classify_raises_iff smallService failingEngine smallLibrary tornStore
    ⟨false, false, false⟩ ⟨false, false, false⟩ smallRequest rfl).2 attempt admitted
  have intact := (classify_raises_iff smallService failingEngine smallLibrary smallStore
    ⟨false, false, false⟩ ⟨false, false, false⟩ smallRequest rfl).2 attempt admitted
  have isTorn := corrupt_tornStore attempt.cacheKey
  have raises := torn.1 (.inr (.inr (.inl isTorn.2)))
  have fails : ¬Succeeds (smallService.classifyAudited failingEngine smallLibrary none
      ⟨false, false, false⟩ smallRequest).1 := not_succeeds_error _
  refine ⟨attempt, admitted, raises, ?_, (intact.2.2 _ (cached_smallStore _)).1⟩
  rw [torn.2.1 isTorn]
  generalize (smallService.classifyAudited failingEngine smallLibrary (some tornStore)
    ⟨false, false, false⟩ smallRequest).1 = outcome at raises
  cases outcome with
  | error failure => rfl
  | ok response => exact absurd (succeeds_ok response) (raises.mpr fails)

/-- A stored answer is served where the model has begun to fail. -/
theorem classify_served_from_cache :
    ¬∀ (service : InferenceService Unit) (engine : Engine Unit Unit Unit ℕ) (lib : Library ℕ)
      (store : Store) (faults : Faults) (request : Request ℕ), request.useCache = true →
        (¬Succeeds (service.classifyAudited engine lib (some store) faults request).1 ↔
          ¬Succeeds (service.classifyAudited engine lib none faults request).1) := by
  intro always
  have admits : ∃ attempt, smallService.resolve failingEngine smallLibrary smallRequest =
      .ok attempt := ⟨_, rfl⟩
  rcases admits with ⟨attempt, admitted⟩
  have raises : ¬Succeeds (smallService.classifyAudited failingEngine smallLibrary none
      ⟨false, false, false⟩ smallRequest).1 := not_succeeds_error _
  have returns := classify_of_cached rfl admitted (cached_smallStore attempt.cacheKey)
  exact (always smallService failingEngine smallLibrary smallStore ⟨false, false, false⟩
    smallRequest rfl).mpr raises ⟨_, returns.1⟩

end VisionApi.Inference
