import VisionApi.Audit.Service
import VisionApi.Experiments.Routing
import VisionApi.RateLimit.Limiter

/-!
# The columns of the audit table

`_write` inserts a batch of records in one transaction, so a record that a
column refuses discards the others of its batch.  Of the texts in a record only
the correlation id is cut to the length of its column; the name of a variant,
the user, the version of the model and its class names come as they are.

A column refuses a text that is too long and a null where none is allowed.  Only
these two reasons are modelled: that a text has no NUL and encodes as UTF-8 is left
to the database driver, and the numbers of a record fit their columns.

Most columns can never be too narrow: the values of enumerations, the formats that
validation lets through, the error codes of the service and the names under which
the loaders register models.  What is left is the condition `Recordable`, on the user,
the variant, the version and the top label.  It is shown to be exact first for one
record and then for the endpoint, where the record is that of the request.
-/

namespace VisionApi.Audit

open Foundation Models Inference Experiments

variable {Session Tensor Logits Score : Type}

/-! ## Columns -/

/-- `String(limit)`. -/
def fits (limit : ℕ) (text : String) : Bool :=
  text.length ≤ limit

/-- A nullable `String(limit)`. -/
def fitsOrNull (limit : ℕ) (text : Option String) : Bool :=
  text.all (fits limit)

/-- The column `variant` holds a text or null. -/
def variantFits : Json Score → Bool
  | .null => true
  | .string text => fits 64 text
  | _ => false

/-- `TaskType.value` -/
def taskValue : TaskType → String
  | .classification => "classification"
  | .detection => "detection"
  | .embedding => "embedding"

/-- The text of a status. -/
def statusValue : Status → String
  | .success => "success"
  | .failure => "failure"

/-- `InferenceLog` accepts the fields of a record; the columns that are not null always have a
value. -/
def storable (record : AuditRecord Score) : Bool :=
  fits 64 record.correlationId && fitsOrNull 128 record.userId && fitsOrNull 32 record.userTier &&
    fits 128 record.modelName && fits 64 record.modelVersion && fits 32 record.backend.value &&
    fits 32 (taskValue record.task) && variantFits record.variant &&
    fits 16 (statusValue record.status) && fitsOrNull 64 record.errorCode &&
    fits 64 record.imageSha256 && fits 16 record.imageFormat && fitsOrNull 256 record.topLabel

/-- `_write`: the batch is committed if the columns accept every record of it. -/
def State.write (s : State (AuditRecord Score)) (batch : List (Record (AuditRecord Score))) :
    State (AuditRecord Score) :=
  s.finishWrite batch (batch.all fun record => storable record.fields)

/-- A record that never makes `_write` fail for others in its batch. -/
def Harmless (record : AuditRecord Score) : Prop :=
  ∀ (s : State (AuditRecord Score)) (ident : ℕ) (before after : List (Record (AuditRecord Score))),
    (∀ other ∈ before ++ after, storable other.fields = true) →
      (s.write (before ++ ⟨ident, record⟩ :: after)).stats.failed = s.stats.failed

/-! ## Where the texts come from -/

/-- The authenticated user of a request. -/
structure Principal where
  userId : String
  tier : RateLimit.UserTier

/-- What `CorrelationMiddleware` has: the header, whether it is blank, and a new `uuid4().hex`. -/
structure Correlation where
  incoming : Option String
  blank : Bool
  fresh : String
  fresh_length : fresh.length = 32

/-- `incoming[:64]`, or a new id. -/
def Correlation.id (correlation : Correlation) : String :=
  match correlation.incoming with
  | some incoming =>
      if incoming = "" || correlation.blank then correlation.fresh
      else String.ofList (incoming.toList.take 64)
  | none => correlation.fresh

/-- The parameters of `POST /classify`. -/
structure Parameters where
  chunks : List Bytes
  topK : ℤ
  modelVersion : Option String
  backend : Option InferenceBackend
  includeProbabilities : Bool
  useCache : Bool

/-- The query that the endpoint makes of its user and its parameters. -/
def Principal.query (principal : Principal) (correlation : Correlation)
    (parameters : Parameters) : Query where
  chunks := parameters.chunks
  topK := parameters.topK
  modelVersion := parameters.modelVersion
  backend := parameters.backend
  includeProbabilities := parameters.includeProbabilities
  useCache := parameters.useCache
  userId := principal.userId
  userTier := principal.tier.value
  correlationId := correlation.id

/-- Models are registered under the default names of the loaders. -/
def RegistersNamed (_ : ModelService Session) (event : RegistryEvent Session)
    (_ : ModelService Session) : Prop :=
  match event with
  | .register model _ => model.name ∈ [classifierName, detectorName, embedderName]
  | .setActive _ _ => True

/-- The libraries: `hexdigest` has 64 digits, and no exception that preprocessing raises has a
longer class name. -/
structure Bounded (engine : Engine Session Tensor Logits Score) (lib : Library Score) : Prop where
  digest : ∀ image, (lib.sha256 image).length = 64
  code : ∀ image imageSize failure, engine.pixels image imageSize = .error failure →
    failure.code.length ≤ 64

/-! ## What never overflows -/

/-- A text fits a column if it has no more characters. -/
theorem fits_iff {limit : ℕ} {text : String} : fits limit text = true ↔ text.length ≤ limit := by
  simp [fits]

theorem fits_correlation (correlation : Correlation) : fits 64 correlation.id = true := by
  rw [fits_iff, Correlation.id]
  have fresh : correlation.fresh.length ≤ 64 := by
    rw [correlation.fresh_length]
    omega
  split
  · split
    · exact fresh
    · rw [String.length_ofList]
      exact List.length_take_le _ _
  · exact fresh

theorem fits_tier (tier : RateLimit.UserTier) : fits 32 tier.value = true := by
  cases tier with
  | free | pro | enterprise => rfl

theorem fits_backend (backend : InferenceBackend) : fits 32 backend.value = true := by
  cases backend with
  | torch | onnx | onnxInt8 | tensorrt => rfl

theorem fits_task (task : TaskType) : fits 32 (taskValue task) = true := by
  cases task with
  | classification | detection | embedding => rfl

theorem fits_status (status : Status) : fits 16 (statusValue status) = true := by
  cases status with
  | success | failure => rfl

theorem fits_format {format : String} (supported : format ∈ supportedFormats) :
    fits 16 format = true := by
  simp only [supportedFormats, List.mem_cons, List.not_mem_nil, or_false] at supported
  rcases supported with rfl | rfl | rfl | rfl
  · rfl
  · rfl
  · rfl
  · rfl

theorem named_step {before after : ModelService Session} {event : RegistryEvent Session}
    (named : ∀ entry ∈ before.models, fits 128 entry.2.name = true)
    (admissible : RegistersNamed before event after)
    (stepped : registryStep before event = some after) :
    ∀ entry ∈ after.models, fits 128 entry.2.name = true := by
  intro entry isEntry
  rcases models_step stepped with ⟨model, makeActive, rfl, grown⟩ | same
  · rw [grown] at isEntry
    rcases Dict.mem_set isEntry with rfl | isOld
    · simp only [RegistersNamed, List.mem_cons, List.not_mem_nil, or_false] at admissible
      rcases admissible with isName | isName | isName
      · rw [isName]
        rfl
      · rw [isName]
        rfl
      · rw [isName]
        rfl
    · exact named entry isOld
  · rw [same] at isEntry
    exact named entry isEntry

/-- Models that the loaders register have names that fit. -/
theorem fits_name {settings : Settings} {service : ModelService Session}
    (reached : Run registryStep RegistersNamed ⟨settings, [], []⟩ service) {name : String}
    {version : Option String} {backend : Option InferenceBackend} {model : LoadedModel Session}
    (resolved : service.getForBackend name version backend = .ok model) :
    fits 128 model.name = true := by
  have named : ∀ entry ∈ service.models, fits 128 entry.2.name = true := by
    apply reached.invariant (List.forall_mem_nil _)
    intro before event after named admissible stepped
    exact named_step named admissible stepped
  have isModel := get?_key_of_get (keyed_of_reachable reached.reachable)
    (get_of_getForBackend resolved)
  exact named _ (Dict.mem_of_get? isModel)

theorem code_of_preprocess {engine : Engine Session Tensor Logits Score} {lib : Library Score}
    (bounded : Bounded engine lib) {limit imageSize : ℤ} {image : Bytes} {failure : Failure}
    (raised : preprocessImage engine limit imageSize image = .error failure) :
    failure.code.length ≤ 64 := by
  simp only [preprocessImage] at raised
  split at raised
  · cases raised
    decide
  · cases raised
    decide
  · cases raised
    decide
  · exact bounded.code _ _ _ raised

theorem code_of_runModel {engine : Engine Session Tensor Logits Score}
    {model : LoadedModel Session} {batch : List Tensor} {failure : Failure}
    (raised : runModel engine model batch = .error failure) : failure.code.length ≤ 64 := by
  simp only [runModel] at raised
  split at raised
  · cases raised
    decide
  · cases raised
  · cases raised
    decide

/-- The error code of a failed inference fits. -/
theorem fits_code {engine : Engine Session Tensor Logits Score} {lib : Library Score}
    (bounded : Bounded engine lib) {limit : ℤ} {model : LoadedModel Session} {image : Bytes}
    {failure : Failure} (failed : runBatch engine limit model [image] = .error failure) :
    fits 64 failure.code = true := by
  rw [fits_iff]
  rcases bind_error_iff.mp failed with unprepared | ⟨batch, prepared, raised⟩
  · rcases mapM_error_iff.mp unprepared with ⟨before, item, after, split, _, raised⟩
    exact code_of_preprocess bounded raised
  · split at raised
    · cases raised
      decide
    · exact code_of_runModel raised

/-! ## What has to fit -/

/-- The class that an attempt records: the first one of the cached predictions, or the class that
the model ranks first. -/
def TopLabel (engine : Engine Session Tensor Logits Score) (lib : Library Score) (limit : ℤ)
    (attempt : Attempt Session Score) : Option (Json Score) → String → Prop
  | some payload, label => ∃ prediction predictions,
      lib.rebuild payload = .ok (prediction :: predictions) ∧ label = prediction.label
  | none, label => ∃ logits others entry entries,
      runBatch engine limit attempt.model [attempt.request.image] = .ok (logits :: others) ∧
        engine.topK (engine.softmax logits) attempt.request.topKResults =
          .ok (entry :: entries) ∧
        attempt.model.className? entry.2 = some label

/-- The texts that nothing cuts: the user, the version of the model, the name of the variant and
the name of the class. -/
structure Recordable (engine : Engine Session Tensor Logits Score) (lib : Library Score) (limit : ℤ)
    (attempt : Attempt Session Score) (cached : Option (Json Score)) : Prop where
  user : fitsOrNull 128 attempt.request.userId = true
  version : fits 64 attempt.model.version = true
  variant : variantFits attempt.request.variant = true
  label : ∀ label, TopLabel engine lib limit attempt cached label → fits 256 label = true

/-- The fields of an attempt that always fit. -/
structure Regular (attempt : Attempt Session Score) : Prop where
  correlation : fits 64 attempt.request.correlationId = true
  tier : fitsOrNull 32 attempt.request.userTier = true
  name : fits 128 attempt.model.name = true
  digest : fits 64 attempt.imageSha256 = true
  format : fits 16 attempt.metadata.format = true

section Attempts

variable {engine : Engine Session Tensor Logits Score} {lib : Library Score} {limit : ℤ}
  {attempt : Attempt Session Score}

/-- The columns accept what a regular attempt records exactly when they accept the texts that
nothing cuts. -/
theorem storable_audit_iff (regular : Regular attempt) {predictions : List (Prediction Score)}
    {fromCache : Bool} {status : Status} {code : Option String}
    (codeFits : fitsOrNull 64 code = true) :
    storable (attempt.audit predictions fromCache status code) = true ↔
      fitsOrNull 128 attempt.request.userId = true ∧ fits 64 attempt.model.version = true ∧
        variantFits attempt.request.variant = true ∧
        fitsOrNull 256 (predictions.head?.map Prediction.label) = true := by
  simp only [storable, Attempt.audit, Bool.and_eq_true, regular.correlation, regular.tier,
    regular.name, regular.digest, regular.format, fits_backend, fits_task, fits_status, codeFits,
    true_and, and_true]
  tauto

theorem head_of_decode {logits : Logits} {others : List Logits}
    {predictions : List (Prediction Score)}
    (decoded : attempt.decodeFirst engine (logits :: others) = .ok predictions) {label : String} :
    (∃ prediction rest, predictions = prediction :: rest ∧ label = prediction.label) ↔
      ∃ entry entries, engine.topK (engine.softmax logits) attempt.request.topKResults =
          .ok (entry :: entries) ∧ attempt.model.className? entry.2 = some label := by
  rcases bind_ok_iff.mp decoded with ⟨ranked, isRanked, predicted⟩
  rw [isRanked]
  cases ranked with
  | nil =>
      cases predicted
      simp
  | cons entry entries =>
      rcases bind_ok_iff.mp predicted with ⟨prediction, isPrediction, rest⟩
      rcases bind_ok_iff.mp rest with ⟨predictions, _, ⟨⟩⟩
      rcases predictionFor_ok_iff.mp isPrediction with ⟨_, name, _, isName, _, rfl⟩
      constructor
      · rintro ⟨_, _, ⟨⟩, rfl⟩
        exact ⟨entry, entries, rfl, isName⟩
      · rintro ⟨_, _, ⟨⟩, isLabel⟩
        cases isName.symm.trans isLabel
        exact ⟨_, _, rfl, rfl⟩

/-- A top label fits exactly if the first prediction has a short label. -/
theorem fitsOrNull_head_iff {predictions : List (Prediction Score)} :
    fitsOrNull 256 (predictions.head?.map Prediction.label) = true ↔
      ∀ prediction rest, predictions = prediction :: rest → fits 256 prediction.label = true := by
  cases predictions with
  | nil => simp [fitsOrNull]
  | cons prediction rest => simp [fitsOrNull]

/-- The record of an attempt with given predictions is accepted exactly when the attempt is
recordable, if they show the labels of the attempt. -/
theorem storable_iff_recordable (regular : Regular attempt) {cached : Option (Json Score)}
    {predictions : List (Prediction Score)} {fromCache : Bool} {status : Status}
    {code : Option String} (codeFits : fitsOrNull 64 code = true)
    (shown : ∀ label, TopLabel engine lib limit attempt cached label ↔
      ∃ prediction rest, predictions = prediction :: rest ∧ label = prediction.label) :
    storable (attempt.audit predictions fromCache status code) = true ↔
      Recordable engine lib limit attempt cached := by
  rw [storable_audit_iff regular codeFits, fitsOrNull_head_iff]
  constructor
  · rintro ⟨user, version, variant, head⟩
    refine ⟨user, version, variant, ?_⟩
    intro label isTop
    rcases (shown label).mp isTop with ⟨prediction, rest, isHead, rfl⟩
    exact head prediction rest isHead
  · rintro ⟨user, version, variant, top⟩
    refine ⟨user, version, variant, ?_⟩
    intro prediction rest isHead
    exact top _ ((shown _).mpr ⟨prediction, rest, isHead, rfl⟩)

/-- What an attempt queues is accepted exactly when it queues nothing or is recordable. -/
theorem answer_storable_iff (bounded : Bounded engine lib) (regular : Regular attempt)
    {cached : Option (Json Score)} :
    (∀ record ∈ (attempt.answer engine lib limit cached).records, storable record = true) ↔
      (Answerable engine lib limit attempt cached →
        Recordable engine lib limit attempt cached) := by
  cases cached with
  | some payload =>
      simp only [Attempt.answer, Attempt.serveCached, Answerable, ← rebuild_succeeds_iff]
      cases rebuilt : lib.rebuild payload with
      | error failure => simp
      | ok predictions =>
          simp only [List.mem_singleton, forall_eq, succeeds_ok, true_imp_iff]
          apply storable_iff_recordable regular rfl
          intro label
          simp only [TopLabel, rebuilt, Except.ok.injEq]
  | none =>
      simp only [Attempt.answer, Attempt.run, Answerable, ← decodeFirst_succeeds_iff]
      cases ran : runBatch engine limit attempt.model [attempt.request.image] with
      | error failure =>
          have codeFits : fitsOrNull 64 (some failure.code) = true := fits_code bounded ran
          simp only [List.mem_singleton, forall_eq, reduceCtorEq, false_imp_iff, implies_true,
            true_imp_iff]
          apply storable_iff_recordable regular codeFits
          intro label
          simp [TopLabel, ran]
      | ok rows =>
          simp only [Except.ok.injEq, forall_eq']
          cases decoded : attempt.decodeFirst engine rows with
          | error failure => simp
          | ok predictions =>
              simp only [List.mem_singleton, forall_eq, succeeds_ok, true_imp_iff]
              apply storable_iff_recordable regular rfl
              intro label
              cases rows with
              | nil => cases decoded
              | cons logits others =>
                  rw [head_of_decode decoded]
                  simp [TopLabel, ran]

end Attempts

/-! ## Batches -/

/-- The columns accept a record exactly when it is harmless to the others in its batch. -/
theorem harmless_iff {record : AuditRecord Score} : Harmless record ↔ storable record = true := by
  constructor
  · intro harmless
    by_contra refused
    have alone := harmless (State.initial _) 0 [] [] (List.forall_mem_nil _)
    simp [State.write, State.finishWrite, refused] at alone
  · intro accepted s ident before after others
    have every : ((before ++ ⟨ident, record⟩ :: after).all fun other => storable other.fields) =
        true := by
      apply List.all_eq_true.mpr
      intro other isOther
      rcases List.mem_append.mp isOther with isBefore | isAfter
      · exact others other (List.mem_append_left _ isBefore)
      · rcases List.mem_cons.mp isAfter with rfl | isAfter
        · exact accepted
        · exact others other (List.mem_append_right _ isAfter)
    simp only [State.write, every, State.finishWrite, if_true]

/-! ## Requests -/

section Requests

variable {ops : FloatOps Score} {engine : Engine Session Tensor Logits Score}
  {lib : Library Score} {service : InferenceService Session} {settings : Settings}

theorem supported_of_validate {pillow : Pillow} {limit maxBytes maxPixels : ℤ} {data : Bytes}
    {metadata : ImageMetadata}
    (validated : validateImageUpload pillow limit data maxBytes maxPixels = .ok metadata) :
    metadata.format ∈ supportedFormats := by
  simp only [validateImageUpload, bind_ok_iff] at validated
  rcases validated with ⟨_, _, found, _, _, supported, _, _, ⟨⟩⟩
  exact validateFormat_ok_iff.mp supported

theorem regular_of_resolve (bounded : Bounded engine lib)
    (reached : Run registryStep RegistersNamed ⟨settings, [], []⟩ service.models)
    {request : Request Score} {attempt : Attempt Session Score}
    (correlation : fits 64 request.correlationId = true)
    (tier : fitsOrNull 32 request.userTier = true)
    (admitted : service.resolve engine lib request = .ok attempt) : Regular attempt := by
  rcases resolve_ok_iff.mp admitted with ⟨metadata, model, validated, resolved, rfl⟩
  refine ⟨correlation, tier, fits_name reached resolved, ?_, ?_⟩
  · rw [fits_iff, bounded.digest]
  · exact fits_format (supported_of_validate validated)

/-- What a classification queues is accepted exactly when the attempt is recordable wherever it
queues something. -/
theorem classify_storable_iff (bounded : Bounded engine lib)
    (reached : Run registryStep RegistersNamed ⟨settings, [], []⟩ service.models)
    {request : Request Score} {cache : Option Store} {faults : Faults}
    (correlation : fits 64 request.correlationId = true)
    (tier : fitsOrNull 32 request.userTier = true) :
    (∀ record ∈ (service.classifyAudited engine lib cache faults request).2.1,
        storable record = true) ↔
      ∀ attempt cached next, service.resolve engine lib request = .ok attempt →
        attempt.readCache lib cache faults = (.ok cached, next) →
        Answerable engine lib service.pillowLimit attempt cached →
        Recordable engine lib service.pillowLimit attempt cached := by
  simp only [InferenceService.classifyAudited]
  cases admitted : service.resolve engine lib request with
  | error failure => simp
  | ok attempt =>
      have regular := regular_of_resolve bounded reached correlation tier admitted
      rcases read : attempt.readCache lib cache faults with ⟨outcome, next⟩
      cases outcome with
      | error failure =>
          constructor
          · intro _ other cached rest same readOther
            cases same
            cases read.symm.trans readOther
          · intro _ record isRecord
            simp only [Attempt.conclude, read] at isRecord
            cases isRecord
      | ok cached =>
          simp only [Attempt.conclude, read]
          rw [answer_storable_iff bounded regular]
          constructor
          · intro recordable other found rest same readOther
            cases same
            cases read.symm.trans readOther
            exact recordable
          · intro each
            exact each attempt cached next rfl read

theorem recordable_iff {principal : Principal} {correlation : Correlation}
    {parameters : Parameters} {hashing : Hashing Score} {experiments : Registry ops}
    {allowBackendOverride : Bool} {image : Bytes} {attempt : Attempt Session Score} {limit : ℤ}
    {cached : Option (Json Score)}
    (asked : attempt.request = (principal.query correlation parameters).request hashing
      experiments allowBackendOverride image) :
    Recordable engine lib limit attempt cached ↔
      principal.userId.length ≤ 128 ∧ attempt.model.version.length ≤ 64 ∧
        variantFits ((principal.query correlation parameters).route hashing experiments).2 =
          true ∧
        ∀ label, TopLabel engine lib limit attempt cached label → label.length ≤ 256 := by
  have userFits : fitsOrNull 128 attempt.request.userId = true ↔ principal.userId.length ≤ 128 := by
    rw [asked]
    exact fits_iff
  have variantFits' : variantFits attempt.request.variant =
      variantFits ((principal.query correlation parameters).route hashing experiments).2 := by
    rw [asked]
    rfl
  constructor
  · intro recordable
    refine ⟨userFits.mp recordable.user, fits_iff.mp recordable.version, ?_, ?_⟩
    · exact variantFits'.symm.trans recordable.variant
    · intro label isTop
      exact fits_iff.mp (recordable.label label isTop)
  · rintro ⟨user, version, variant, top⟩
    refine ⟨userFits.mpr user, fits_iff.mpr version, variantFits'.trans variant, ?_⟩
    intro label isTop
    exact fits_iff.mpr (top label isTop)

end Requests

/-- Whatever experiments are loaded, what a request to classify an image queues is accepted by the
columns, and harmless to the other records of its batch, exactly when the user id, the version of
the model, the name of the variant and the recorded class name fit their columns. -/
theorem classifyImage_harmless_iff (ops : FloatOps Score) (settings : Settings)
    (service : InferenceService Session)
    (reached : Run registryStep RegistersNamed ⟨settings, [], []⟩ service.models)
    (later : ModelService Session) (engine : Engine Session Tensor Logits Score)
    (lib : Library Score) (bounded : Bounded engine lib) (hashing : Hashing Score)
    (experiments : Registry ops) (allowBackendOverride : Bool) (cache : Option Inference.Store)
    (faults : Faults) (principal : Principal) (correlation : Correlation)
    (parameters : Parameters) :
    (∀ record ∈ (classifyImage service later engine lib hashing experiments allowBackendOverride
        cache faults (principal.query correlation parameters)).2.1,
      storable record = true ∧ Harmless record) ↔
    ∀ image attempt cached next,
      readUpload service.limits.maxUploadBytes [] parameters.chunks = .ok image →
      service.resolve engine lib ((principal.query correlation parameters).request hashing
        experiments allowBackendOverride image) = .ok attempt →
      attempt.readCache lib cache faults = (.ok cached, next) →
      Answerable engine lib service.pillowLimit attempt cached →
        principal.userId.length ≤ 128 ∧ attempt.model.version.length ≤ 64 ∧
        variantFits ((principal.query correlation parameters).route hashing experiments).2 =
          true ∧
        ∀ label, TopLabel engine lib service.pillowLimit attempt cached label →
          label.length ≤ 256 := by
  simp only [harmless_iff, and_self]
  cases read : readUpload service.limits.maxUploadBytes [] parameters.chunks with
  | error error =>
      have raised : readUpload service.limits.maxUploadBytes []
          (principal.query correlation parameters).chunks = .error error := read
      simp [classifyImage, raised]
  | ok image =>
      have accepted : readUpload service.limits.maxUploadBytes []
          (principal.query correlation parameters).chunks = .ok image := read
      have correlationFits : fits 64 ((principal.query correlation parameters).request hashing
          experiments allowBackendOverride image).correlationId = true :=
        fits_correlation correlation
      have tierFits : fitsOrNull 32 ((principal.query correlation parameters).request hashing
          experiments allowBackendOverride image).userTier = true :=
        fits_tier principal.tier
      rw [classifyImage_records accepted,
        classify_storable_iff bounded reached correlationFits tierFits]
      constructor
      · intro recordable same attempt cached next isSame admitted found answerable
        cases isSame
        apply (recordable_iff (request_of_resolve admitted)).mp
        exact recordable attempt cached next admitted found answerable
      · intro bounds attempt cached next admitted found answerable
        apply (recordable_iff (request_of_resolve admitted)).mpr
        exact bounds image attempt cached next rfl admitted found answerable

/-- A correlation id that the client has sent. -/
def smallCorrelation : Correlation where
  incoming := some "c"
  blank := false
  fresh := "9f8b1c4e5d6a47f0b3c2a1908f7e6d5c"
  fresh_length := by decide

/-- The parameters of a short request. -/
def smallParameters : Parameters where
  chunks := [[0]]
  topK := 1
  modelVersion := none
  backend := none
  includeProbabilities := true
  useCache := true

theorem bounded_small : Bounded smallEngine smallLibrary := by
  constructor
  · intro image
    change (smallDigest image).length = 64
    rw [smallDigest]
    split
    · decide
    · decide
  · rintro _ _ _ ⟨⟩

theorem named_small :
    Run registryStep RegistersNamed ⟨⟨[], .onnx, true⟩, [], []⟩ smallService.models :=
  .tail (.register smallModel true) .refl rfl (List.mem_cons_self)

/-- The record of the small service is harmless. -/
theorem classifyImage_harmless_small :
    ∃ experiments, load smallOps (some (.ok smallFile)) (availableVersions smallService.models) =
        .ok experiments ∧
      ∀ record ∈ (classifyImage smallService smallService.models smallEngine smallLibrary
          smallHashing experiments false none ⟨false, false, false⟩
          (Principal.query ⟨"u", .free⟩ smallCorrelation smallParameters)).2.1,
        storable record = true ∧ Harmless record := by
  have loads : ∃ experiments served, load smallOps (some (.ok smallFile))
      (availableVersions smallService.models) = .ok experiments ∧
      (Query.route (Principal.query ⟨"u", .free⟩ smallCorrelation smallParameters) smallHashing
        experiments).2 = .string "control" ∧
      smallService.resolve smallEngine smallLibrary
        (Query.request (Principal.query ⟨"u", .free⟩ smallCorrelation smallParameters)
          smallHashing experiments false [0]) = .ok served ∧
      served.model = smallModel ∧
      served.readCache smallLibrary none ⟨false, false, false⟩ = (.ok none, none) :=
    ⟨_, _, rfl, rfl, rfl, rfl, rfl⟩
  rcases loads with ⟨experiments, served, loaded, routed, admits, isModel, noCache⟩
  refine ⟨experiments, loaded, ?_⟩
  apply (classifyImage_harmless_iff smallOps _ smallService named_small smallService.models
    smallEngine smallLibrary bounded_small smallHashing experiments false none
    ⟨false, false, false⟩ ⟨"u", .free⟩ smallCorrelation smallParameters).mpr
  intro image attempt cached next accepted admitted found _
  cases accepted
  cases admits.symm.trans admitted
  cases noCache.symm.trans found
  rw [isModel, routed]
  refine ⟨by decide, by decide, rfl, ?_⟩
  intro label isTop
  rcases isTop with ⟨_, _, _, _, ⟨⟩, isBest, isLabel⟩
  rw [isModel] at isLabel
  cases isBest
  cases isLabel
  decide

/-- One experiment whose variant has a name of 65 characters. -/
def longFile : Json ℕ :=
  .object [("experiments", .array [.object
    [("model_name", .string classifierName), ("name", .string "rollout"),
      ("variants", .array [.object
        [("name", .string (String.ofList (List.replicate 65 'a'))),
          ("model_version", .string "v1"), ("weight", .int 1)]])]])]

/-- The experiment is loaded, and the record that it leads to discards the others of its batch. -/
theorem classifyImage_long_variant :
    ∃ experiments record, load smallOps (some (.ok longFile))
        (availableVersions smallService.models) = .ok experiments ∧
      (classifyImage smallService smallService.models smallEngine smallLibrary smallHashing
        experiments false none ⟨false, false, false⟩
        (Principal.query ⟨"u", .free⟩ smallCorrelation smallParameters)).2.1 = [record] ∧
      storable record = false ∧ ¬Harmless record := by
  have loads : ∃ experiments record, load smallOps (some (.ok longFile))
        (availableVersions smallService.models) = .ok experiments ∧
      (classifyImage smallService smallService.models smallEngine smallLibrary smallHashing
        experiments false none ⟨false, false, false⟩
        (Principal.query ⟨"u", .free⟩ smallCorrelation smallParameters)).2.1 = [record] ∧
      record.variant = .string (String.ofList (List.replicate 65 'a')) := ⟨_, _, rfl, rfl, rfl⟩
  rcases loads with ⟨experiments, record, loaded, queued, isVariant⟩
  have refused : storable record = false := by
    have long : variantFits record.variant = false := by
      rw [isVariant]
      decide
    simp [storable, long]
  refine ⟨experiments, record, loaded, queued, refused, ?_⟩
  rw [harmless_iff, refused]
  exact Bool.false_ne_true

end VisionApi.Audit
