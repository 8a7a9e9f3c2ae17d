import VisionApi.Inference.Attempt

/-!
# One audit record per attempt

An attempt queues one record when it answers and one when the run of the model
fails.  Whatever raises outside the run leaves no record.

`AuditedOnce` is the property of a response and the records with it: one record, whose
status is that of the response.  `Answerable` is the condition under which an attempt
has it.  With a cached payload it is that the predictions can be rebuilt; without one,
that a run that returns has a first row and this row can be decoded.  A run that raises
is within the handler and always audited.

Each condition is an equivalence with the success of the function behind it, from one
prediction up to the list of them, and the theorem about the attempt puts these
together by the cases of its source.  The last part says what the one record names:
the model, the version and the variant of the request.
-/

namespace VisionApi.Inference

open Foundation Models

variable {Session Tensor Logits Score : Type}

/-- One record is queued, and its status tells whether the call returned. -/
def AuditedOnce (response : Except Failure (Response Score)) (records : List (AuditRecord Score)) :
    Prop :=
  ∃ record, records = [record] ∧ (record.status = .success ↔ Succeeds response) ∧
    (record.status = .failure ↔ ¬Succeeds response)

/-- A payload from which every prediction can be built. -/
def Rebuildable (lib : Library Score) (payload : Json Score) : Prop :=
  ∃ members value items, payload = .object members ∧
    Dict.get? members "predictions" = some value ∧ value.iterate = some items ∧
    ∀ item ∈ items, ∃ fields, item = .object fields ∧ Succeeds (lib.prediction fields)

/-- A class with a name, whose identifier can be looked up and whose probability, if it is shown, is
in the unit interval. -/
def Presentable (engine : Engine Session Tensor Logits Score) (model : LoadedModel Session)
    (includeProbabilities : Bool) (entry : Score × ℕ) : Prop :=
  (model.className? entry.2).isSome = true ∧ (model.wnid? entry.2).isSome = true ∧
    (shownProbability engine includeProbabilities entry.1).all engine.unitInterval = true

/-- Logits whose best classes can be presented. -/
def Decodable (engine : Engine Session Tensor Logits Score) (attempt : Attempt Session Score)
    (logits : Logits) : Prop :=
  ∃ entries, engine.topK (engine.softmax logits) attempt.request.topKResults = .ok entries ∧
    ∀ entry ∈ entries,
      Presentable engine attempt.model attempt.request.includeProbabilities entry

/-- What an attempt needs to answer after its cache read. -/
def Answerable (engine : Engine Session Tensor Logits Score) (lib : Library Score) (limit : ℤ)
    (attempt : Attempt Session Score) : Option (Json Score) → Prop
  | some payload => Rebuildable lib payload
  | none => ∀ rows, runBatch engine limit attempt.model [attempt.request.image] = .ok rows →
      ∃ logits others, rows = logits :: others ∧ Decodable engine attempt logits

/-! ## What raises -/

section Raises

variable {engine : Engine Session Tensor Logits Score} {lib : Library Score}
  {attempt : Attempt Session Score} {payload : Json Score}

/-- An item is rebuilt if it is an object that the model of predictions accepts. -/
theorem rebuildItem_succeeds_iff {item : Json Score} :
    Succeeds (lib.rebuildItem item) ↔
      ∃ fields, item = .object fields ∧ Succeeds (lib.prediction fields) := by
  cases item with
  | object members => simp [Library.rebuildItem]
  | null | bool | int | float | string | array => simp [Library.rebuildItem]

/-- A payload is rebuilt exactly if it is rebuildable. -/
theorem rebuild_succeeds_iff : Succeeds (lib.rebuild payload) ↔ Rebuildable lib payload := by
  constructor
  · intro succeeds
    cases payload with
    | object members =>
        simp only [Library.rebuild] at succeeds
        split at succeeds
        · exact absurd succeeds (not_succeeds_error _)
        · rename_i value isValue
          split at succeeds
          · exact absurd succeeds (not_succeeds_error _)
          · rename_i items isItems
            refine ⟨members, value, items, rfl, isValue, isItems, ?_⟩
            intro item isItem
            exact rebuildItem_succeeds_iff.mp (mapM_succeeds_iff.mp succeeds item isItem)
    | null | bool | int | float | string | array => exact absurd succeeds (not_succeeds_error _)
  · rintro ⟨members, value, items, rfl, isValue, isItems, each⟩
    simp only [Library.rebuild, isValue, isItems]
    apply mapM_succeeds_iff.mpr
    intro item isItem
    exact rebuildItem_succeeds_iff.mpr (each item isItem)

theorem predictionFor_succeeds_iff {model : LoadedModel Session} {includeProbabilities : Bool}
    {entry : Score × ℕ} :
    Succeeds (predictionFor engine model includeProbabilities entry) ↔
      Presentable engine model includeProbabilities entry := by
  simp only [Presentable, Option.isSome_iff_exists]
  constructor
  · rintro ⟨prediction, returned⟩
    rcases predictionFor_ok_iff.mp returned with ⟨inside, label, wnid, isLabel, isWnid, _⟩
    exact ⟨⟨label, isLabel⟩, ⟨wnid, isWnid⟩, inside⟩
  · rintro ⟨⟨label, isLabel⟩, ⟨wnid, isWnid⟩, inside⟩
    exact ⟨_, predictionFor_ok_iff.mpr ⟨inside, label, wnid, isLabel, isWnid, rfl⟩⟩

theorem predictionsFor_succeeds_iff {model : LoadedModel Session} {includeProbabilities : Bool}
    {entries : List (Score × ℕ)} :
    Succeeds (predictionsFor engine model includeProbabilities entries) ↔
      ∀ entry ∈ entries, Presentable engine model includeProbabilities entry := by
  induction entries with
  | nil => exact ⟨fun _ => List.forall_mem_nil _, fun _ => ⟨[], rfl⟩⟩
  | cons entry entries ih =>
      rw [predictionsFor, bind_succeeds_iff, List.forall_mem_cons, ← ih,
        ← predictionFor_succeeds_iff]
      constructor
      · rintro ⟨prediction, isPrediction, rest⟩
        rcases bind_succeeds_iff.mp rest with ⟨predictions, isPredictions, _⟩
        exact ⟨⟨prediction, isPrediction⟩, predictions, isPredictions⟩
      · rintro ⟨⟨prediction, isPrediction⟩, predictions, isPredictions⟩
        exact ⟨prediction, isPrediction, bind_succeeds_iff.mpr ⟨predictions, isPredictions, _, rfl⟩⟩

/-- Only the first row is looked at; there has to be one. -/
theorem decodeFirst_succeeds_iff {rows : List Logits} :
    Succeeds (attempt.decodeFirst engine rows) ↔
      ∃ logits others, rows = logits :: others ∧ Decodable engine attempt logits := by
  cases rows with
  | nil => simp [Attempt.decodeFirst, not_succeeds_error]
  | cons logits others =>
      simp [Attempt.decodeFirst, decodeClassification, bind_succeeds_iff, Decodable,
        predictionsFor_succeeds_iff]

end Raises

/-! ## The records of an attempt -/

section Records

variable {engine : Engine Session Tensor Logits Score} {lib : Library Score} {limit : ℤ}
  {attempt : Attempt Session Score}

/-- A cached payload is audited exactly when it can be rebuilt. -/
theorem serveCached_auditedOnce_iff {payload : Json Score} :
    AuditedOnce (attempt.serveCached lib payload).response
        (attempt.serveCached lib payload).records ↔ Rebuildable lib payload := by
  rw [← rebuild_succeeds_iff]
  simp only [Attempt.serveCached]
  cases lib.rebuild payload with
  | error failure => simp [AuditedOnce]
  | ok predictions => simp [AuditedOnce, Attempt.audit]

/-- A run is audited exactly when it raises or the first of its rows can be decoded. -/
theorem run_auditedOnce_iff :
    AuditedOnce (attempt.run engine limit).response (attempt.run engine limit).records ↔
      ∀ rows, runBatch engine limit attempt.model [attempt.request.image] = .ok rows →
        ∃ logits others, rows = logits :: others ∧ Decodable engine attempt logits := by
  simp only [Attempt.run, ← decodeFirst_succeeds_iff]
  cases runBatch engine limit attempt.model [attempt.request.image] with
  | error failure => simp [AuditedOnce, Attempt.audit]
  | ok rows =>
      simp only [Except.ok.injEq, forall_eq']
      cases attempt.decodeFirst engine rows with
      | error failure => simp [AuditedOnce]
      | ok predictions => simp [AuditedOnce, Attempt.audit]

theorem answer_auditedOnce_iff {cached : Option (Json Score)} :
    AuditedOnce (attempt.answer engine lib limit cached).response
        (attempt.answer engine lib limit cached).records ↔
      Answerable engine lib limit attempt cached := by
  cases cached with
  | none => exact run_auditedOnce_iff
  | some payload => exact serveCached_auditedOnce_iff

/-- A call that passes validation and resolution and whose cache read returns is audited exactly
once, with the status of its outcome, exactly when the attempt is answerable. -/
theorem classify_auditedOnce_iff (service : InferenceService Session)
    (engine : Engine Session Tensor Logits Score) (lib : Library Score)
    (cache : Option Store) (faults : Faults) (request : Request Score)
    (attempt : Attempt Session Score)
    (admitted : service.resolve engine lib request = .ok attempt)
    (cached : Option (Json Score)) (next : Option Store)
    (read : attempt.readCache lib cache faults = (.ok cached, next)) :
    AuditedOnce (service.classifyAudited engine lib cache faults request).1
        (service.classifyAudited engine lib cache faults request).2.1 ↔
      Answerable engine lib service.pillowLimit attempt cached := by
  simp only [InferenceService.classifyAudited, admitted, read, Attempt.conclude]
  exact answer_auditedOnce_iff

end Records

/-! ## What the records name -/

section Names

variable {engine : Engine Session Tensor Logits Score} {lib : Library Score} {limit : ℤ}
  {attempt : Attempt Session Score} {cached : Option (Json Score)}

/-- A record has the model of the attempt and the variant of its request. -/
theorem record_of_answer {record : AuditRecord Score}
    (isRecord : record ∈ (attempt.answer engine lib limit cached).records) :
    record.modelName = attempt.model.name ∧ record.modelVersion = attempt.model.version ∧
      record.variant = attempt.request.variant := by
  have ofAudit : ∃ predictions fromCache status code,
      record = attempt.audit predictions fromCache status code := by
    cases cached with
    | some payload =>
        simp only [Attempt.answer, Attempt.serveCached] at isRecord
        split at isRecord
        · cases isRecord
        · exact ⟨_, _, _, _, List.mem_singleton.mp isRecord⟩
    | none =>
        simp only [Attempt.answer, Attempt.run] at isRecord
        split at isRecord
        · exact ⟨_, _, _, _, List.mem_singleton.mp isRecord⟩
        · split at isRecord
          · cases isRecord
          · exact ⟨_, _, _, _, List.mem_singleton.mp isRecord⟩
  rcases ofAudit with ⟨_, _, _, _, rfl⟩
  exact ⟨rfl, rfl, rfl⟩

/-- A response has the model of the attempt, and one record goes with it. -/
theorem response_of_answer {response : Response Score}
    (answered : (attempt.answer engine lib limit cached).response = .ok response) :
    response.modelName = attempt.model.name ∧ response.modelVersion = attempt.model.version ∧
      ∃ record, (attempt.answer engine lib limit cached).records = [record] := by
  cases cached with
  | some payload =>
      simp only [Attempt.answer, Attempt.serveCached] at answered ⊢
      split at answered
      · cases answered
      · cases answered
        exact ⟨rfl, rfl, _, rfl⟩
  | none =>
      simp only [Attempt.answer, Attempt.run] at answered ⊢
      split at answered
      · cases answered
      · split at answered
        · cases answered
        · cases answered
          exact ⟨rfl, rfl, _, rfl⟩

end Names

/-- The first request of the small service is audited once. -/
theorem classify_auditedOnce_small :
    AuditedOnce
      (smallService.classifyAudited smallEngine smallLibrary (some fun _ => none)
        ⟨false, false, false⟩ smallRequest).1
      (smallService.classifyAudited smallEngine smallLibrary (some fun _ => none)
        ⟨false, false, false⟩ smallRequest).2.1 := by
  have admits : ∃ attempt, smallService.resolve smallEngine smallLibrary smallRequest =
      .ok attempt ∧ attempt.model = smallModel ∧ attempt.request = smallRequest :=
    ⟨_, rfl, rfl, rfl⟩
  rcases admits with ⟨attempt, admitted, isModel, isRequest⟩
  have read : attempt.readCache smallLibrary (some fun _ => none) ⟨false, false, false⟩ =
      (.ok none, some fun _ => none) := by
    rw [Attempt.readCache, isRequest]
    rfl
  apply (classify_auditedOnce_iff smallService smallEngine smallLibrary _ _ smallRequest attempt
    admitted none _ read).mpr
  intro rows ran
  rw [isModel, isRequest] at ran
  cases ran
  refine ⟨_, _, rfl, [(1, 0)], rfl, ?_⟩
  intro entry isEntry
  cases List.mem_singleton.mp isEntry
  rw [isModel]
  exact ⟨rfl, rfl, by rw [isRequest]; rfl⟩

/-- A probability that is not a number is found out after the run, and leaves no record. -/
theorem classify_misses_audit :
    ¬∀ (service : InferenceService Unit) (engine : Engine Unit Unit Unit ℕ)
      (lib : Library ℕ) (cache : Option Store) (faults : Faults) (request : Request ℕ)
      (attempt : Attempt Unit ℕ) (cached : Option (Json ℕ)) (next : Option Store),
      service.resolve engine lib request = .ok attempt →
        attempt.readCache lib cache faults = (.ok cached, next) →
        AuditedOnce (service.classifyAudited engine lib cache faults request).1
          (service.classifyAudited engine lib cache faults request).2.1 := by
  intro always
  rcases always smallService { smallEngine with unitInterval := fun _ => false } smallLibrary none
    ⟨false, false, false⟩ smallRequest _ _ _ rfl rfl with ⟨record, records, _⟩
  cases records

end VisionApi.Inference
