import VisionApi.Foundation.Text
import VisionApi.Inference.FailOpen
import Mathlib.Data.Set.Function

/-!
# Cache transparency

Requests run concurrently: each is suspended at its commands to Redis and at
the run of its model, while others proceed.  Whatever is served from the cache
is what an uncached run gives.

A call moves through reading, running and writing to its return; an event begins one,
resumes any of the suspended ones, or lets values vanish from the store.  A call that
no other interleaves with is `classifyAudited` (`exec_classify`), and without the cache
both models of the function agree (`classifyAudited_eq_classify`).

The invariant has two parts.  The store is sound: what is stored under the key of an
admitted attempt is read back as the predictions of that attempt.  And every call is
sound: its attempt is admitted, and what it is about to write are its predictions.  A
write by one call keeps the store sound for the others because the key determines the
image, the model and the options (`cacheKey_injective`): the parts of a key contain no
colon, and the digests of the images and texts that occur do not collide.

The predictions are represented in the text format only if their floats print; a
response from the cache is then the one of an uncached call but for the flag that
tells them apart.
-/

namespace VisionApi.Inference

open Foundation Models

variable {Session Tensor Logits Score : Type}

/-! ## Concurrent requests -/

/-- A `classify` call by the await it is suspended at. -/
inductive Call (Session Score : Type) where
  /-- At `get`. -/
  | reading (attempt : Attempt Session Score)
  /-- At `delete`, after a corrupt value. -/
  | deleting (attempt : Attempt Session Score)
  /-- At the run of the model. -/
  | running (attempt : Attempt Session Score)
  /-- At `set`. -/
  | storing (attempt : Attempt Session Score) (payload : Json Score)
      (response : Except Failure (Response Score))
  | returned (request : Request Score) (response : Except Failure (Response Score))

/-- The values in Redis and the calls so far. -/
structure Traffic (Session Score : Type) where
  store : Store
  calls : List (Call Session Score)

/-- A new request, the next step of a call, or the loss of some values. -/
inductive TrafficEvent (Score : Type) where
  | classify (request : Request Score)
  /-- The loop resumes a call, whose command may have failed. -/
  | resume (call : ℕ) (fails : Bool)
  /-- Values expire or are evicted. -/
  | vanish (gone : String → Bool)

/-- A call up to its first await. -/
def beginCall (service : InferenceService Session) (engine : Engine Session Tensor Logits Score)
    (lib : Library Score) (request : Request Score) : Call Session Score :=
  match service.resolve engine lib request with
  | .error failure => .returned request (.error failure)
  | .ok attempt => if request.useCache then .reading attempt else .running attempt

/-- A call from one await to the next, and the store after it. -/
def resumeCall (engine : Engine Session Tensor Logits Score) (lib : Library Score) (limit : ℤ)
    (store : Store) (fails : Bool) : Call Session Score → Option (Call Session Score × Store)
  | .reading attempt =>
      if fails then some (.running attempt, store)
      else
        match lib.reading (store attempt.cacheKey) with
        | .absent => some (.running attempt, store)
        | .corrupt => some (.deleting attempt, store)
        | .raises failure => some (.returned attempt.request (.error failure), store)
        | .payload value =>
            match usablePayload value with
            | none => some (.running attempt, store)
            | some payload =>
                some (.returned attempt.request (attempt.serveCached lib payload).response, store)
  | .deleting attempt =>
      some (.running attempt,
        if fails then store else Function.update store attempt.cacheKey none)
  | .running attempt =>
      let answer := attempt.run engine limit
      match answer.toStore with
      | none => some (.returned attempt.request answer.response, store)
      | some payload => some (.storing attempt payload answer.response, store)
  | .storing attempt payload response =>
      some (.returned attempt.request response,
        if fails then store
        else Function.update store attempt.cacheKey (some (lib.dumps .spaced payload).toUTF8))
  | .returned _ _ => none

/-- One event of the service with its requests in flight. -/
def trafficStep (service : InferenceService Session)
    (engine : Engine Session Tensor Logits Score) (lib : Library Score)
    (traffic : Traffic Session Score) : TrafficEvent Score → Option (Traffic Session Score)
  | .classify request =>
      some { traffic with calls := traffic.calls ++ [beginCall service engine lib request] }
  | .resume index fails =>
      match traffic.calls[index]? with
      | none => none
      | some call =>
          match resumeCall engine lib service.pillowLimit traffic.store fails call with
          | none => none
          | some (next, store) => some ⟨store, traffic.calls.set index next⟩
  | .vanish gone =>
      some { traffic with store := fun key => if gone key then none else traffic.store key }

/-! ## A call on its own -/

section Alone

variable {service : InferenceService Session} {engine : Engine Session Tensor Logits Score}
  {lib : Library Score} {store after : Store} {calls : List (Call Session Score)}
  {faults : Faults}

/-- The last call proceeds, and the others are unchanged. -/
theorem trafficStep_last {call next : Call Session Score} {fails : Bool}
    (resumed : resumeCall engine lib service.pillowLimit store fails call = some (next, after)) :
    trafficStep service engine lib ⟨store, calls ++ [call]⟩ (.resume calls.length fails) =
      some ⟨after, calls ++ [next]⟩ := by
  simp only [trafficStep, List.getElem?_concat_length, resumed, List.set_append_right _ _
    (Nat.le_refl _), Nat.sub_self, List.set_cons_zero]

/-- The call returns with the store that `conclude` gives. -/
def Concludes (service : InferenceService Session) (engine : Engine Session Tensor Logits Score)
    (lib : Library Score) (faults : Faults) (traffic : Traffic Session Score)
    (calls : List (Call Session Score)) (attempt : Attempt Session Score)
    (read : Except Failure (Option (Json Score)) × Option Store) : Prop :=
  ∃ events after, exec (trafficStep service engine lib) traffic events =
      some ⟨after, calls ++ [.returned attempt.request
        (attempt.conclude engine lib service.pillowLimit faults read).1]⟩ ∧
    (attempt.conclude engine lib service.pillowLimit faults read).2.2 = some after

theorem concludes_resume (fails : Bool) {call next : Call Session Score}
    {attempt : Attempt Session Score}
    {read : Except Failure (Option (Json Score)) × Option Store}
    (resumed : resumeCall engine lib service.pillowLimit store fails call = some (next, after))
    (rest : Concludes service engine lib faults ⟨after, calls ++ [next]⟩ calls attempt read) :
    Concludes service engine lib faults ⟨store, calls ++ [call]⟩ calls attempt read := by
  rcases rest with ⟨events, final, executed, isFinal⟩
  refine ⟨.resume calls.length fails :: events, final, ?_, isFinal⟩
  rw [exec, trafficStep_last resumed]
  exact executed

theorem concludes_running (attempt : Attempt Session Score) :
    Concludes service engine lib faults ⟨store, calls ++ [.running attempt]⟩ calls attempt
      (.ok none, some store) := by
  cases stores : (attempt.run engine service.pillowLimit).toStore with
  | none =>
      apply concludes_resume false
      · simp only [resumeCall, stores]
        rfl
      · refine ⟨[], store, rfl, ?_⟩
        simp only [Attempt.conclude, Attempt.answer, stores]
  | some payload =>
      apply concludes_resume false
      · simp only [resumeCall, stores]
        rfl
      · apply concludes_resume faults.set rfl
        refine ⟨[], _, rfl, ?_⟩
        simp only [Attempt.conclude, Attempt.answer, stores]
        rfl

theorem concludes_reading (attempt : Attempt Session Score) :
    Concludes service engine lib faults ⟨store, calls ++ [.reading attempt]⟩ calls attempt
      (lib.cacheGet (some store) faults attempt.cacheKey) := by
  cases fails : faults.get with
  | true =>
      simp only [Library.cacheGet, fails, if_true]
      exact concludes_resume true rfl (concludes_running attempt)
  | false =>
      simp only [Library.cacheGet, fails, Bool.false_eq_true, if_false]
      cases isReading : lib.reading (store attempt.cacheKey) with
      | absent =>
          apply concludes_resume false _ (concludes_running attempt)
          simp only [resumeCall, isReading, Bool.false_eq_true, if_false]
      | corrupt =>
          apply concludes_resume false
          · simp only [resumeCall, isReading, Bool.false_eq_true, if_false]
            rfl
          · exact concludes_resume faults.delete rfl (concludes_running attempt)
      | payload value =>
          simp only
          cases usable : usablePayload value with
          | none =>
              apply concludes_resume false _ (concludes_running attempt)
              simp only [resumeCall, isReading, usable, Bool.false_eq_true, if_false]
          | some payload =>
              apply concludes_resume false
              · simp only [resumeCall, isReading, usable, Bool.false_eq_true, if_false]
                rfl
              · refine ⟨[], store, rfl, ?_⟩
                simp only [Attempt.conclude, Attempt.answer, Attempt.serveCached]
                cases lib.rebuild payload <;> rfl
      | raises failure =>
          apply concludes_resume false
          · simp only [resumeCall, isReading, Bool.false_eq_true, if_false]
            rfl
          · exact ⟨[], store, rfl, rfl⟩

/-- A call that no other call interleaves with is `classifyAudited`. -/
theorem exec_classify (request : Request Score) :
    ∃ events after, exec (trafficStep service engine lib) ⟨store, calls⟩ events =
        some ⟨after, calls ++ [.returned request
          (service.classifyAudited engine lib (some store) faults request).1]⟩ ∧
      (service.classifyAudited engine lib (some store) faults request).2.2 = some after := by
  cases admitted : service.resolve engine lib request with
  | error failure =>
      simp only [InferenceService.classifyAudited, admitted]
      refine ⟨[.classify request], store, ?_, rfl⟩
      simp only [exec, trafficStep, beginCall, admitted]
      rfl
  | ok attempt =>
      simp only [InferenceService.classifyAudited, admitted]
      have isRequest := request_of_resolve admitted
      subst isRequest
      have concludes : Concludes service engine lib faults
          ⟨store, calls ++ [beginCall service engine lib attempt.request]⟩ calls attempt
          (attempt.readCache lib (some store) faults) := by
        simp only [beginCall, admitted, Attempt.readCache]
        split
        · exact concludes_reading attempt
        · exact concludes_running attempt
      rcases concludes with ⟨events, final, executed, isFinal⟩
      exact ⟨.classify attempt.request :: events, final, executed, isFinal⟩

end Alone

/-! ## Keys -/

/-- The digests in use do not collide, and are hexadecimal. -/
structure Digests (sha256 : Bytes → String) (images : Set Bytes) (texts : Set String) : Prop where
  images : Set.InjOn sha256 images
  texts : Set.InjOn (shortDigest sha256) texts
  hexadecimal : ∀ bytes, ':' ∉ (sha256 bytes).toList

/-- What is hashed for a request is among the given images and option texts. -/
def Request.Within (request : Request Score) (lib : Library Score) (images : Set Bytes)
    (texts : Set String) : Prop :=
  request.image ∈ images ∧
    lib.optionRepr (requestOptions request.topKResults request.includeProbabilities) ∈ texts

theorem sorted_requestOptions (topKResults : ℤ) (includeProbabilities : Bool) :
    ((requestOptions topKResults includeProbabilities : List (String × Json Score)).mergeSort
      fun left right => left.1 ≤ right.1) =
        [("include_probabilities", .bool includeProbabilities), ("top_k", .int topKResults)] := by
  simp [requestOptions, List.mergeSort, List.MergeSort.Internal.splitInTwo]

section Keys

variable {floats : Json.FloatText Score}
  {accept : List (String × Json Score) → Except Failure (Prediction Score)}
  {sha256 : Bytes → String} {images : Set Bytes} {texts : Set String}

/-- The text of the options determines them. -/
theorem optionRepr_injective {topK otherTopK : ℤ} {shown otherShown : Bool}
    (same : (Library.ofText floats accept sha256).optionRepr (requestOptions topK shown) =
      (Library.ofText floats accept sha256).optionRepr (requestOptions otherTopK otherShown)) :
    topK = otherTopK ∧ shown = otherShown := by
  have wellFormed : ∀ (number : ℤ) (flag : Bool), Json.WellFormed floats
      (.object [("include_probabilities", .bool flag), ("top_k", .int number)]) := by
    intro number flag
    apply Json.WellFormed.object
    · simp
    · intro member isMember
      simp only [List.mem_cons, List.not_mem_nil, or_false] at isMember
      rcases isMember with rfl | rfl
      · exact .bool flag
      · exact .int number
  simp only [Library.optionRepr, sorted_requestOptions] at same
  have sameValue := Json.dumps_injective (wellFormed topK shown) (wellFormed otherTopK otherShown)
    same
  simp only [Json.object.injEq, List.cons.injEq, Prod.mk.injEq, Json.bool.injEq, Json.int.injEq,
    true_and, and_true] at sameValue
  exact ⟨sameValue.2, sameValue.1⟩

theorem colon_notMem_value (backend : InferenceBackend) : ':' ∉ backend.value.toList := by
  cases backend <;> decide

/-- No part of a key has a colon. -/
theorem colon_notMem_keyParts (digests : Digests sha256 images texts) {image : Bytes}
    {name version : String} (nameFree : ':' ∉ name.toList) (versionFree : ':' ∉ version.toList)
    (backend : InferenceBackend) (options : List (String × Json Score)) :
    ∀ part ∈ (Library.ofText floats accept sha256).keyParts image name version backend.value
      options, ':' ∉ part.toList := by
  intro part isPart
  simp only [Library.keyParts, List.mem_cons, List.not_mem_nil, or_false] at isPart
  rcases isPart with rfl | rfl | rfl | rfl | rfl | rfl | rfl
  · decide
  · decide
  · exact nameFree
  · exact versionFree
  · exact colon_notMem_value backend
  · exact digests.hexadecimal image
  · intro isColon
    rw [shortDigest, String.toList_ofList] at isColon
    exact digests.hexadecimal _ (List.mem_of_mem_take isColon)

/-- The model of an attempt has no colon in its name or version. -/
def ColonFree (model : LoadedModel Session) : Prop :=
  ':' ∉ model.name.toList ∧ ':' ∉ model.version.toList

/-- Attempts with one key agree on everything that affects the result. -/
theorem cacheKey_injective (digests : Digests sha256 images texts)
    {service : InferenceService Session} {engine : Engine Session Tensor Logits Score}
    {first second : Attempt Session Score}
    (firstAdmitted :
      service.resolve engine (.ofText floats accept sha256) first.request = .ok first)
    (secondAdmitted :
      service.resolve engine (.ofText floats accept sha256) second.request = .ok second)
    (firstWithin : first.request.Within (.ofText floats accept sha256) images texts)
    (secondWithin : second.request.Within (.ofText floats accept sha256) images texts)
    (firstFree : ColonFree first.model) (secondFree : ColonFree second.model)
    (same : first.cacheKey = second.cacheKey) :
    first.request.image = second.request.image ∧ first.model.name = second.model.name ∧
      first.model.version = second.model.version ∧
      first.request.topKResults = second.request.topKResults ∧
      first.request.includeProbabilities = second.request.includeProbabilities := by
  rw [cacheKey_of_resolve firstAdmitted, cacheKey_of_resolve secondAdmitted] at same
  have parts := stringIntercalate_injective (by rfl)
    (colon_notMem_keyParts digests firstFree.1 firstFree.2 _ _)
    (colon_notMem_keyParts digests secondFree.1 secondFree.2 _ _) same
  simp only [Library.keyParts, List.cons.injEq, and_true, true_and] at parts
  rcases parts with ⟨sameName, sameVersion, _, sameDigest, sameOptions⟩
  have sameText := digests.texts firstWithin.2 secondWithin.2 sameOptions
  exact ⟨digests.images firstWithin.1 secondWithin.1 sameDigest, sameName, sameVersion,
    optionRepr_injective sameText⟩

end Keys

/-! ## What a run gives -/

section Runs

variable {engine : Engine Session Tensor Logits Score} {limit : ℤ} {attempt : Attempt Session Score}

/-- What the model of an attempt gives for its request. -/
def Attempt.predictions (attempt : Attempt Session Score)
    (engine : Engine Session Tensor Logits Score) (limit : ℤ) :
    Except Failure (List (Prediction Score)) :=
  predict engine limit attempt.model attempt.request.image attempt.request.topKResults
    attempt.request.includeProbabilities

/-- A run answers what the pipeline of one image gives. -/
theorem run_of_predictions {predictions : List (Prediction Score)}
    (predicted : attempt.predictions engine limit = .ok predictions) :
    attempt.run engine limit =
      ⟨.ok (attempt.respond predictions false), [attempt.audit predictions false .success none],
        if attempt.request.useCache then some (payloadOf predictions) else none⟩ := by
  rcases predict_ok_iff.mp predicted with ⟨logits, others, ran, decoded⟩
  simp only [Attempt.run, ran, Attempt.decodeFirst, decoded]

/-- A run that fails gives its failure and caches nothing. -/
theorem run_of_failure {failure : Failure}
    (failed : attempt.predictions engine limit = .error failure) :
    (attempt.run engine limit).response = .error failure ∧
      (attempt.run engine limit).toStore = none := by
  simp only [Attempt.predictions, predict] at failed
  simp only [Attempt.run]
  cases ran : runBatch engine limit attempt.model [attempt.request.image] with
  | error other =>
      rw [ran] at failed
      cases failed
      exact ⟨rfl, rfl⟩
  | ok rows =>
      rw [ran] at failed
      have undecoded : attempt.decodeFirst engine rows = .error failure := by
        cases rows with
        | nil => exact failed
        | cons logits others => exact failed
      simp only [undecoded, and_self]

theorem unitInterval_of_predictionsFor {model : LoadedModel Session} {includeProbabilities : Bool}
    {entries : List (Score × ℕ)} {predictions : List (Prediction Score)}
    (decoded : predictionsFor engine model includeProbabilities entries = .ok predictions) :
    ∀ prediction ∈ predictions, prediction.probability.all engine.unitInterval = true := by
  induction entries generalizing predictions with
  | nil =>
      cases decoded
      exact List.forall_mem_nil _
  | cons entry entries ih =>
      simp only [predictionsFor, bind_ok_iff] at decoded
      rcases decoded with ⟨prediction, isPrediction, rest, isRest, returned⟩
      cases returned
      rw [List.forall_mem_cons]
      constructor
      · rcases predictionFor_ok_iff.mp isPrediction with ⟨inside, _, _, _, _, rfl⟩
        exact inside
      · exact ih isRest

/-- Shown probabilities are in the unit interval. -/
theorem unitInterval_of_predictions {predictions : List (Prediction Score)}
    (predicted : attempt.predictions engine limit = .ok predictions) :
    ∀ prediction ∈ predictions, prediction.probability.all engine.unitInterval = true := by
  rcases predict_ok_iff.mp predicted with ⟨logits, _, _, decoded⟩
  simp only [decodeClassification, bind_ok_iff] at decoded
  rcases decoded with ⟨entries, _, decoded⟩
  exact unitInterval_of_predictionsFor decoded

end Runs

/-! ## The cache without its bytes -/

section Abstract

variable {service : InferenceService Session} {engine : Engine Session Tensor Logits Score}
  {lib : Library Score} {store : Store} {faults : Faults} {request : Request Score}

/-- What a cache has under a key is what Redis answers there. -/
def Represents (lib : Library Score) (store : Store) (faults : Faults) (key : String) :
    Option (List (Prediction Score)) → Prop
  | none => NotCached lib store faults key
  | some predictions => Cached lib store faults key predictions

/-- `classify` with a cache of predictions, from what an attempt works with. -/
theorem classify_of_resolve (cache : Cache Score) {attempt : Attempt Session Score}
    (admitted : service.resolve engine lib request = .ok attempt) :
    (service.classify engine cache request.image request.topKResults request.modelVersion
        request.backend request.includeProbabilities request.useCache).map Prod.fst =
      match if request.useCache then cache (cacheKey attempt.model request.image
          request.topKResults request.includeProbabilities) else none with
      | some predictions => .ok (attempt.respond predictions true).toClassificationResponse
      | none => (attempt.predictions engine service.pillowLimit).map fun predictions =>
          (attempt.respond predictions false).toClassificationResponse := by
  rcases resolve_ok_iff.mp admitted with ⟨metadata, model, valid, resolved, rfl⟩
  simp only [InferenceService.classify, valid, resolved, Except.mapError, bind, Except.bind]
  generalize (if request.useCache = true then cache (cacheKey model request.image
    request.topKResults request.includeProbabilities) else none) = held
  cases held with
  | some predictions => rfl
  | none =>
      simp only [Attempt.predictions]
      cases predict engine service.pillowLimit model request.image request.topKResults
          request.includeProbabilities with
      | error failure => rfl
      | ok predictions => rfl

/-- Where Redis answers what a cache of predictions has, the call with its records answers what
`classify` answers with that cache. -/
theorem classifyAudited_eq_classify (cache : Cache Score)
    (represents : request.useCache = true → ∀ attempt,
      service.resolve engine lib request = .ok attempt →
        Represents lib store faults attempt.cacheKey (cache (cacheKey attempt.model request.image
          request.topKResults request.includeProbabilities))) :
    (service.classifyAudited engine lib (some store) faults request).1.map
        Response.toClassificationResponse =
      (service.classify engine cache request.image request.topKResults request.modelVersion
        request.backend request.includeProbabilities request.useCache).map Prod.fst := by
  cases admitted : service.resolve engine lib request with
  | error failure =>
      simp only [InferenceService.classifyAudited, admitted]
      simp only [InferenceService.resolve, bind_error_iff, reduceCtorEq, and_false, exists_false,
        or_false] at admitted
      simp only [InferenceService.classify, bind, Except.bind]
      rcases admitted with invalid | ⟨metadata, valid, unresolved⟩
      · rw [invalid]
        rfl
      · rw [valid, unresolved]
        rfl
  | ok attempt =>
      rw [classify_of_resolve cache admitted]
      have uncached : (attempt.run engine service.pillowLimit).response.map
          Response.toClassificationResponse =
            (attempt.predictions engine service.pillowLimit).map fun predictions =>
              (attempt.respond predictions false).toClassificationResponse := by
        cases predicted : attempt.predictions engine service.pillowLimit with
        | error failure =>
            rw [(run_of_failure predicted).1]
            rfl
        | ok predictions =>
            rw [run_of_predictions predicted]
            rfl
      cases uses : request.useCache with
      | false =>
          have read : attempt.readCache lib (some store) faults = (.ok none, some store) := by
            simp only [Attempt.readCache, request_of_resolve admitted, uses, Bool.false_eq_true,
              if_false]
          rw [classify_response admitted read]
          exact uncached
      | true =>
          have answers := represents uses attempt admitted
          cases held : cache (cacheKey attempt.model request.image request.topKResults
              request.includeProbabilities) with
          | none =>
              rw [held] at answers
              rw [classify_of_notCached uses admitted answers faults, classify_disabled admitted]
              simpa [held] using uncached
          | some predictions =>
              rw [held] at answers
              rw [(classify_of_cached uses admitted answers).1]
              simp [Except.map]

end Abstract

/-! ## The invariant -/

/-- Floats in the unit interval print, and a dumped prediction is accepted back. -/
structure Transcribes (engine : Engine Session Tensor Logits Score)
    (floats : Json.FloatText Score)
    (accept : List (String × Json Score) → Except Failure (Prediction Score)) : Prop where
  prints : ∀ score, engine.unitInterval score = true → floats.Prints score
  accepts : ∀ prediction : Prediction Score,
    prediction.probability.all engine.unitInterval = true →
      accept (modelDump prediction) = .ok prediction

section Invariant

variable {service : InferenceService Session} {engine : Engine Session Tensor Logits Score}
  {floats : Json.FloatText Score}
  {accept : List (String × Json Score) → Except Failure (Prediction Score)}
  {sha256 : Bytes → String} {images : Set Bytes} {texts : Set String}

/-- A request among the given inputs that was admitted. -/
structure Admitted (service : InferenceService Session)
    (engine : Engine Session Tensor Logits Score) (lib : Library Score) (images : Set Bytes)
    (texts : Set String) (attempt : Attempt Session Score) : Prop where
  admitted : service.resolve engine lib attempt.request = .ok attempt
  within : attempt.request.Within lib images texts

/-- Every value holds what the model gives for the request of its key. -/
def StoreSound (service : InferenceService Session) (engine : Engine Session Tensor Logits Score)
    (lib : Library Score) (images : Set Bytes) (texts : Set String) (store : Store) : Prop :=
  ∀ key bytes, store key = some bytes → ∃ attempt predictions,
    Admitted service engine lib images texts attempt ∧ key = attempt.cacheKey ∧
    attempt.predictions engine service.pillowLimit = .ok predictions ∧
    bytes = (lib.dumps .spaced (payloadOf predictions)).toUTF8

/-- An answer from the cache is the answer without a cache, up to the flag. -/
def Transparent (service : InferenceService Session)
    (engine : Engine Session Tensor Logits Score) (lib : Library Score) (request : Request Score)
    (response : Except Failure (Response Score)) : Prop :=
  ∀ answer, response = .ok answer → answer.cached = true → ∀ faults,
    (service.classifyAudited engine lib none faults request).1 =
      .ok { answer with cached := false }

/-- What is known of a call at each await. -/
def CallSound (service : InferenceService Session) (engine : Engine Session Tensor Logits Score)
    (lib : Library Score) (images : Set Bytes) (texts : Set String) : Call Session Score → Prop
  | .reading attempt | .deleting attempt | .running attempt =>
      Admitted service engine lib images texts attempt
  | .storing attempt payload response =>
      Admitted service engine lib images texts attempt ∧ ∃ predictions,
        attempt.predictions engine service.pillowLimit = .ok predictions ∧
        payload = payloadOf predictions ∧ response = .ok (attempt.respond predictions false)
  | .returned request response => Transparent service engine lib request response

theorem transparent_of_uncached {lib : Library Score} {request : Request Score}
    {attempt : Attempt Session Score} {predictions : List (Prediction Score)} :
    Transparent service engine lib request (.ok (attempt.respond predictions false)) := by
  rintro answer ⟨⟩ cached
  cases cached

theorem transparent_of_error {lib : Library Score} {request : Request Score} {failure : Failure} :
    Transparent service engine lib request (.error failure) := by
  rintro answer ⟨⟩

theorem callSound_run {lib : Library Score} {attempt : Attempt Session Score} {store : Store}
    (isAdmitted : Admitted service engine lib images texts attempt)
    {fails : Bool} {next : Call Session Score} {after : Store}
    (resumed : resumeCall engine lib service.pillowLimit store fails (.running attempt) =
      some (next, after)) :
    CallSound service engine lib images texts next ∧ after = store := by
  simp only [resumeCall] at resumed
  cases predicted : attempt.predictions engine service.pillowLimit with
  | error failure =>
      rcases run_of_failure predicted with ⟨failed, nothing⟩
      simp only [nothing, failed, Option.some.injEq, Prod.mk.injEq] at resumed
      rcases resumed with ⟨rfl, rfl⟩
      exact ⟨transparent_of_error, rfl⟩
  | ok predictions =>
      simp only [run_of_predictions predicted] at resumed
      cases stores : attempt.request.useCache with
      | true =>
          simp only [stores, if_true, Option.some.injEq, Prod.mk.injEq] at resumed
          rcases resumed with ⟨rfl, rfl⟩
          exact ⟨⟨isAdmitted, predictions, predicted, rfl, rfl⟩, rfl⟩
      | false =>
          simp only [stores, Bool.false_eq_true, if_false, Option.some.injEq,
            Prod.mk.injEq] at resumed
          rcases resumed with ⟨rfl, rfl⟩
          exact ⟨transparent_of_uncached, rfl⟩

/-- What is stored under the key of an attempt is what its own model gives. -/
theorem predictions_of_stored (digests : Digests sha256 images texts)
    (keyed : service.models.Keyed)
    (colonFree : ∀ key model, service.models.models.get? key = some model → ColonFree model)
    {store : Store}
    (sound : StoreSound service engine (.ofText floats accept sha256) images texts store)
    {attempt : Attempt Session Score}
    (isAdmitted : Admitted service engine (.ofText floats accept sha256) images texts attempt)
    {bytes : ByteArray} (isStored : store attempt.cacheKey = some bytes) :
    ∃ predictions, attempt.predictions engine service.pillowLimit = .ok predictions ∧
      bytes = ((Library.ofText floats accept sha256).dumps .spaced
        (payloadOf predictions)).toUTF8 := by
  rcases sound _ _ isStored with ⟨origin, predictions, isOrigin, sameKey, predicted, isBytes⟩
  have model := get?_key_of_get keyed (get_of_getForBackend (model_of_resolve isAdmitted.admitted))
  have originModel :=
    get?_key_of_get keyed (get_of_getForBackend (model_of_resolve isOrigin.admitted))
  rcases cacheKey_injective digests isAdmitted.admitted isOrigin.admitted isAdmitted.within
    isOrigin.within (colonFree _ _ model) (colonFree _ _ originModel) sameKey with
    ⟨sameImage, sameName, sameVersion, sameTopK, sameShown⟩
  have sameModel : attempt.model = origin.model := by
    rw [LoadedModel.key, ← sameName, ← sameVersion] at originModel
    exact Option.some.inj (model.symm.trans originModel)
  refine ⟨predictions, ?_, isBytes⟩
  rw [Attempt.predictions, sameModel, sameImage, sameTopK, sameShown]
  exact predicted

/-- A hit answers what an uncached run answers. -/
theorem transparent_of_hit (transcribes : Transcribes engine floats accept)
    {attempt : Attempt Session Score}
    (isAdmitted : Admitted service engine (.ofText floats accept sha256) images texts attempt)
    {predictions : List (Prediction Score)}
    (predicted : attempt.predictions engine service.pillowLimit = .ok predictions) :
    Transparent service engine (.ofText floats accept sha256) attempt.request
      (attempt.serveCached (.ofText floats accept sha256) (payloadOf predictions)).response := by
  have rebuilt : (Library.ofText floats accept sha256).rebuild (payloadOf predictions) =
      .ok predictions := by
    apply rebuild_payloadOf
    intro prediction isPrediction
    exact transcribes.accepts prediction (unitInterval_of_predictions predicted _ isPrediction)
  simp only [Attempt.serveCached, rebuilt]
  rintro answer ⟨⟩ _ faults
  rw [classify_disabled isAdmitted.admitted, run_of_predictions predicted]
  rfl

theorem storeSound_erase {lib : Library Score} {store : Store}
    (sound : StoreSound service engine lib images texts store) (gone : String → Prop)
    [DecidablePred gone] :
    StoreSound service engine lib images texts fun key => if gone key then none else store key := by
  intro key bytes isStored
  simp only [Option.ite_none_left_eq_some] at isStored
  exact sound key bytes isStored.2

/-- Writing the predictions of an attempt under its key keeps the store sound. -/
theorem storeSound_update {lib : Library Score} {store : Store}
    (sound : StoreSound service engine lib images texts store) {attempt : Attempt Session Score}
    (isAdmitted : Admitted service engine lib images texts attempt)
    {predictions : List (Prediction Score)}
    (predicted : attempt.predictions engine service.pillowLimit = .ok predictions) :
    StoreSound service engine lib images texts (Function.update store attempt.cacheKey
      (some (lib.dumps .spaced (payloadOf predictions)).toUTF8)) := by
  intro key bytes isStored
  by_cases same : key = attempt.cacheKey
  · subst same
    rw [Function.update_self, Option.some.injEq] at isStored
    exact ⟨attempt, predictions, isAdmitted, rfl, predicted, isStored.symm⟩
  · rw [Function.update_of_ne same] at isStored
    exact sound key bytes isStored

/-- A call that proceeds stays sound, and so does the store. -/
theorem callSound_resume (digests : Digests sha256 images texts)
    (transcribes : Transcribes engine floats accept) (keyed : service.models.Keyed)
    (colonFree : ∀ key model, service.models.models.get? key = some model → ColonFree model)
    {store : Store}
    (storeSound : StoreSound service engine (.ofText floats accept sha256) images texts store)
    {call : Call Session Score}
    (callSound : CallSound service engine (.ofText floats accept sha256) images texts call)
    {fails : Bool} {next : Call Session Score} {after : Store}
    (resumed : resumeCall engine (.ofText floats accept sha256) service.pillowLimit store fails
      call = some (next, after)) :
    CallSound service engine (.ofText floats accept sha256) images texts next ∧
      StoreSound service engine (.ofText floats accept sha256) images texts after := by
  cases call with
  | reading attempt =>
      simp only [resumeCall] at resumed
      split at resumed
      · cases resumed
        exact ⟨callSound, storeSound⟩
      · cases stored : store attempt.cacheKey with
        | none =>
            simp only [stored, Library.reading] at resumed
            cases resumed
            exact ⟨callSound, storeSound⟩
        | some bytes =>
            rcases predictions_of_stored digests keyed colonFree storeSound callSound stored with
              ⟨predictions, predicted, rfl⟩
            have printed : (payloadOf predictions).WellFormed floats := by
              apply wellFormed_payloadOf
              intro prediction isPrediction probability shown
              have inside := unitInterval_of_predictions predicted prediction isPrediction
              rw [Option.mem_def.mp shown, Option.all_some] at inside
              exact transcribes.prints probability inside
            simp only [stored, reading_dumps printed] at resumed
            cases resumed
            exact ⟨transparent_of_hit transcribes callSound predicted, storeSound⟩
  | deleting attempt =>
      cases resumed
      refine ⟨callSound, ?_⟩
      split
      · exact storeSound
      · have erased := storeSound_erase storeSound fun key => key = attempt.cacheKey
        intro key bytes isStored
        apply erased key bytes
        rw [Function.update_apply] at isStored
        exact isStored
  | running attempt =>
      rcases callSound_run callSound resumed with ⟨nextSound, rfl⟩
      exact ⟨nextSound, storeSound⟩
  | storing attempt payload response =>
      rcases callSound with ⟨isAdmitted, predictions, predicted, rfl, rfl⟩
      cases resumed
      refine ⟨transparent_of_uncached, ?_⟩
      split
      · exact storeSound
      · exact storeSound_update storeSound isAdmitted predicted
  | returned request response => cases resumed

theorem callSound_begin {lib : Library Score} {request : Request Score}
    (within : request.Within lib images texts) :
    CallSound service engine lib images texts (beginCall service engine lib request) := by
  simp only [beginCall]
  split
  · exact transparent_of_error
  · rename_i attempt admitted
    have sameRequest := request_of_resolve admitted
    have isAdmitted : Admitted service engine lib images texts attempt := by
      constructor
      · rw [sameRequest]
        exact admitted
      · rw [sameRequest]
        exact within
    split
    · exact isAdmitted
    · exact isAdmitted

/-- Values and calls are sound. -/
structure TrafficSound (service : InferenceService Session)
    (engine : Engine Session Tensor Logits Score) (lib : Library Score) (images : Set Bytes)
    (texts : Set String) (traffic : Traffic Session Score) : Prop where
  store : StoreSound service engine lib images texts traffic.store
  calls : ∀ call ∈ traffic.calls, CallSound service engine lib images texts call

/-- The inputs of every request are among the given ones. -/
def InputsWithin (lib : Library Score) (images : Set Bytes) (texts : Set String)
    (_ : Traffic Session Score) (event : TrafficEvent Score) (_ : Traffic Session Score) : Prop :=
  ∀ request, event = .classify request → request.Within lib images texts

theorem trafficSound_step (digests : Digests sha256 images texts)
    (transcribes : Transcribes engine floats accept) (keyed : service.models.Keyed)
    (colonFree : ∀ key model, service.models.models.get? key = some model → ColonFree model)
    {before after : Traffic Session Score} {event : TrafficEvent Score}
    (sound : TrafficSound service engine (.ofText floats accept sha256) images texts before)
    (within : InputsWithin (.ofText floats accept sha256) images texts before event after)
    (stepped : trafficStep service engine (.ofText floats accept sha256) before event =
      some after) :
    TrafficSound service engine (.ofText floats accept sha256) images texts after := by
  cases event with
  | classify request =>
      cases stepped
      refine ⟨sound.store, ?_⟩
      intro call isCall
      rcases List.mem_append.mp isCall with earlier | new
      · exact sound.calls call earlier
      · cases List.mem_singleton.mp new
        exact callSound_begin (within request rfl)
  | resume index fails =>
      simp only [trafficStep] at stepped
      split at stepped
      · cases stepped
      · rename_i call isCall
        split at stepped
        · cases stepped
        · rename_i next store resumed
          cases stepped
          rcases callSound_resume digests transcribes keyed colonFree sound.store
            (sound.calls call (List.mem_of_getElem? isCall)) resumed with
            ⟨nextSound, storeSound⟩
          refine ⟨storeSound, ?_⟩
          intro other isOther
          rcases List.mem_or_eq_of_mem_set isOther with earlier | rfl
          · exact sound.calls other earlier
          · exact nextSound
  | vanish gone =>
      cases stepped
      exact ⟨storeSound_erase sound.store fun key => gone key = true, sound.calls⟩

end Invariant

/-- In every run from an empty store, in which values vanish and commands fail at any time, every
answer from the cache is the answer of the same request without a cache, up to the flag. -/
theorem cached_response_transparent {settings : Settings} (service : InferenceService Session)
    (engine : Engine Session Tensor Logits Score) (floats : Json.FloatText Score)
    (accept : List (String × Json Score) → Except Failure (Prediction Score))
    (sha256 : Bytes → String) (images : Set Bytes) (texts : Set String)
    (registered : Reachable registryStep ⟨settings, [], []⟩ service.models)
    (colonFree : ∀ key model, service.models.models.get? key = some model → ColonFree model)
    (transcribes : Transcribes engine floats accept) (digests : Digests sha256 images texts)
    (traffic : Traffic Session Score)
    (run : Run (trafficStep service engine (.ofText floats accept sha256))
      (InputsWithin (.ofText floats accept sha256) images texts) ⟨fun _ => none, []⟩ traffic)
    (request : Request Score) (answer : Response Score)
    (answered : .returned request (.ok answer) ∈ traffic.calls) (hit : answer.cached = true)
    (faults : Faults) :
    (service.classifyAudited engine (.ofText floats accept sha256) none faults request).1 =
      .ok { answer with cached := false } := by
  have sound : TrafficSound service engine (.ofText floats accept sha256) images texts traffic := by
    apply run.invariant
    · exact ⟨by rintro key bytes ⟨⟩, by rintro call ⟨⟩⟩
    · intro before event after sound within stepped
      exact trafficSound_step digests transcribes (keyed_of_reachable registered) colonFree sound
        within stepped
  exact sound.calls _ answered answer rfl hit faults

/-! ## A hit of the small service -/

theorem smallTranscribes : Transcribes smallEngine smallFloats smallPrediction := by
  constructor
  · intro score inside
    exact smallFloats_prints score (Nat.le_of_ble_eq_true inside)
  · rintro ⟨label, classId, wnid, probability⟩ inside
    cases wnid <;> cases probability with
    | none => rfl
    | some probability =>
        have small : probability ≤ 1 := Nat.le_of_ble_eq_true inside
        simp [smallPrediction, modelDump, Dict.get?, smallText, smallProbability, small]

theorem smallDigests : Digests smallDigest {[0]}
    {smallLibrary.optionRepr (requestOptions 1 true)} := by
  refine ⟨Set.injOn_singleton _ _, Set.injOn_singleton _ _, ?_⟩
  intro bytes
  rw [smallDigest]
  split <;> decide

/-- The attempt of the small request. -/
def smallAttempt : Attempt Unit ℕ where
  request := smallRequest
  metadata := ⟨"JPEG", 64, 64, "RGB", 1⟩
  model := smallModel
  imageSha256 := smallDigest [0]
  cacheKey := smallLibrary.buildKey [0] classifierName "v1" "onnx" (requestOptions 1 true)

/-- The store after the first request. -/
def filledStore : Store :=
  Function.update (fun _ => none) smallAttempt.cacheKey
    (some (smallLibrary.dumps .spaced (payloadOf smallPredictions)).toUTF8)

theorem reading_filledStore :
    smallLibrary.reading (filledStore smallAttempt.cacheKey) =
      .payload (payloadOf smallPredictions) := by
  rw [filledStore, Function.update_self]
  exact reading_dumps wellFormed_smallPredictions

/-- Runs of the small service on the small request. -/
abbrev SmallRun : Traffic Unit ℕ → Prop :=
  Run (trafficStep smallService smallEngine smallLibrary)
    (InputsWithin smallLibrary {[0]} {smallLibrary.optionRepr (requestOptions 1 true)})
    ⟨fun _ => none, []⟩

/-- The first request was answered by the model. -/
def firstCall : Call Unit ℕ :=
  .returned smallRequest (.ok (smallAttempt.respond smallPredictions false))

/-- The second request was answered from the cache. -/
def secondCall : Call Unit ℕ :=
  .returned smallRequest (.ok (smallAttempt.respond smallPredictions true))

theorem within_smallRequest (before after : Traffic Unit ℕ) :
    InputsWithin smallLibrary {[0]} {smallLibrary.optionRepr (requestOptions 1 true)} before
      (.classify smallRequest) after := by
  rintro request ⟨⟩
  exact ⟨rfl, rfl⟩

theorem within_resume (index : ℕ) (fails : Bool) (before after : Traffic Unit ℕ) :
    InputsWithin smallLibrary {[0]} {smallLibrary.optionRepr (requestOptions 1 true)} before
      (.resume index fails) after := by
  rintro request ⟨⟩

theorem smallRun_first : SmallRun ⟨filledStore, [firstCall]⟩ := by
  have begun : SmallRun ⟨fun _ => none, [.reading smallAttempt]⟩ :=
    .tail (.classify smallRequest) .refl rfl (within_smallRequest _ _)
  have missed : SmallRun ⟨fun _ => none, [.running smallAttempt]⟩ :=
    .tail (.resume 0 false) begun rfl (within_resume _ _ _ _)
  have ran : SmallRun ⟨fun _ => none, [.storing smallAttempt (payloadOf smallPredictions)
      (.ok (smallAttempt.respond smallPredictions false))]⟩ :=
    .tail (.resume 0 false) missed rfl (within_resume _ _ _ _)
  exact .tail (.resume 0 false) ran rfl (within_resume _ _ _ _)

theorem smallRun_second : SmallRun ⟨filledStore, [firstCall, secondCall]⟩ := by
  have begun : SmallRun ⟨filledStore, [firstCall, .reading smallAttempt]⟩ :=
    .tail (.classify smallRequest) smallRun_first rfl (within_smallRequest _ _)
  apply Run.tail (.resume 1 false) begun
  · simp only [trafficStep, List.getElem?_cons_succ, List.getElem?_cons_zero, resumeCall,
      reading_filledStore]
    rfl
  · exact within_resume _ _ _ _

/-- The second of two equal requests is answered from the cache, like the first. -/
theorem cached_response_transparent_small :
    ∃ answer : Response ℕ, answer.cached = true ∧ answer.predictions = smallPredictions ∧
      (smallService.classifyAudited smallEngine smallLibrary none ⟨false, false, false⟩
        smallRequest).1 = .ok { answer with cached := false } := by
  have registered : Reachable registryStep ⟨⟨[], .onnx, true⟩, [], []⟩ smallService.models :=
    .tail (.register smallModel true) .refl rfl trivial
  have colonFree : ∀ key model, smallService.models.models.get? key = some model →
      ColonFree model := by
    intro key model isModel
    simp only [smallService, Dict.get?, Option.ite_none_right_eq_some, Option.some.injEq] at isModel
    rw [← isModel.2]
    exact ⟨by decide, by decide⟩
  refine ⟨smallAttempt.respond smallPredictions true, rfl, rfl, ?_⟩
  exact cached_response_transparent smallService smallEngine smallFloats smallPrediction
    smallDigest _ _ registered colonFree smallTranscribes smallDigests _ smallRun_second
    smallRequest _ (by simp [secondCall]) rfl _

end VisionApi.Inference
