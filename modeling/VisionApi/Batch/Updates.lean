import VisionApi.Batch.Agreement

/-!
# Progress of a batch job

The loop of `process_batch` with what it publishes.  The handler of an item is
entered with the results and counters as they are when a statement raises, and
every item ends with an update that a client may read.

Each statement of the loop body may raise, and what was appended or counted before
stays.  `tryItem` therefore returns, with a failure, the state in which it was raised.
As the source appends the entry before it counts, and counts last, an item is counted
once: `tryItem_eq` and `processItem_eq` say what one round adds.

`Counts` is the loop invariant: the counters are the numbers of entries by status, and
the updates tell them after each entry.  `processItems_spec` carries it over all
items, whatever raises.
-/

namespace VisionApi.Batch

open Foundation Models Inference

variable {Session Tensor Logits Score Detected Similar : Type}

/-! ## The loop -/

/-- The `meta` of an update in state `PROGRESS`. -/
structure ProgressUpdate where
  totalItems : ℕ
  completedItems : ℕ
  failedItems : ℕ
  currentIndex : ℕ
deriving DecidableEq

/-- What the attempts on the items lead to: the response to the request at an index, and
`classify_many` on the image of the item there. -/
structure Attempts (Score : Type) where
  fetch : ℕ → String → Except Failure Fetched
  classifyMany : ℕ → Bytes → Except Failure (List (List (Prediction Score)))

/-- The variables of the loop, and the updates published so far. -/
structure Running (Score : Type) where
  results : List (ItemResult Score)
  completed : ℕ
  failed : ℕ
  updates : List ProgressUpdate

/-- `predictions[0]` -/
def firstPredictions : List (List (Prediction Score)) → Except Failure (List (Prediction Score))
  | first :: _ => .ok first
  | [] => .error (.other "IndexError: list index out of range")

/-- The summary of the predictions for an item, or what is raised. -/
def Attempts.outcome (maxBytes : ℤ) (attempts : Attempts Score) (index : ℕ) (item : BatchItem) :
    Except Failure (List (SummaryEntry Score)) := do
  let imageBytes ← fetchImage maxBytes (attempts.fetch index item.imageUrl)
  let predictions ← attempts.classifyMany index imageBytes
  let first ← firstPredictions predictions
  .ok (summarisePredictions first)

/-- The statements under `try`; an exception comes with the variables when it is raised. -/
def tryItem (maxBytes : ℤ) (attempts : Attempts Score) (index : ℕ) (item : BatchItem)
    (running : Running Score) : Except (Failure × Running Score) (Running Score) := do
  let imageBytes ← (fetchImage maxBytes (attempts.fetch index item.imageUrl)).mapError (·, running)
  let predictions ← (attempts.classifyMany index imageBytes).mapError (·, running)
  let first ← (firstPredictions predictions).mapError (·, running)
  let entry : ItemResult Score :=
    ⟨item.itemId, item.imageUrl, .succeeded, some (summarisePredictions first), none⟩
  let running := { running with results := running.results ++ [entry] }
  .ok { running with completed := running.completed + 1 }

/-- The handler: count the item as failed and append its entry. -/
def recordFailure (item : BatchItem) (failure : Failure) (running : Running Score) :
    Running Score :=
  let running := { running with failed := running.failed + 1 }
  { running with
    results := running.results ++
      [⟨item.itemId, item.imageUrl, .failed, none, some (describeError failure)⟩] }

/-- `self.update_state` after an item. -/
def publish (total index : ℕ) (running : Running Score) : Running Score :=
  { running with
    updates := running.updates ++ [⟨total, running.completed, running.failed, index + 1⟩] }

/-- One round of the loop, with the update at its end. -/
def processItem (maxBytes : ℤ) (attempts : Attempts Score) (total index : ℕ) (item : BatchItem)
    (running : Running Score) : Running Score :=
  match tryItem maxBytes attempts index item running with
  | .ok recorded => publish total index recorded
  | .error (failure, raised) => publish total index (recordFailure item failure raised)

/-- The loop over the items, of which the first has the given index. -/
def processItems (maxBytes : ℤ) (attempts : Attempts Score) (total : ℕ) :
    ℕ → List BatchItem → Running Score → Running Score
  | _, [], running => running
  | index, item :: rest, running =>
      processItems maxBytes attempts total (index + 1) rest
        (processItem maxBytes attempts total index item running)

/-- What the job returns and what it published. -/
structure BatchRun (Score : Type) where
  summary : BatchSummary Score
  updates : List ProgressUpdate

/-- `process_batch`, given what `classify_many` of the services leads to on each item. -/
def processBatchRun (host : Host Session Tensor Logits Score Detected Similar)
    (attempts : InferenceService Session → Attempts Score) (job : Job) :
    Except LoadError (BatchRun Score) := do
  let inference ← getServices host
  let running := processItems inference.limits.maxUploadBytes (attempts inference)
    job.items.length 0 job.items ⟨[], 0, 0, []⟩
  .ok ⟨⟨job.taskType, job.items.length, running.completed, running.failed, running.results⟩,
    running.updates⟩

/-! ## One item -/

/-- The entry of an item: its names, and a result or an error as the status says. -/
structure Describes (item : BatchItem) (entry : ItemResult Score) : Prop where
  itemId : entry.itemId = item.itemId
  imageUrl : entry.imageUrl = item.imageUrl
  exclusive : (entry.status = .succeeded ∧ entry.result.isSome ∧ entry.error = none) ∨
    (entry.status = .failed ∧ entry.result = none ∧ entry.error.isSome)

/-- The update that counts entries. -/
def countsOf (total : ℕ) (results : List (ItemResult Score)) : ProgressUpdate where
  totalItems := total
  completedItems := results.countP fun entry => entry.status = .succeeded
  failedItems := results.countP fun entry => entry.status = .failed
  currentIndex := results.length

/-- The counters and the updates count the entries, and there is one update for each. -/
structure Counts (total : ℕ) (running : Running Score) : Prop where
  completed : running.completed = running.results.countP fun entry => entry.status = .succeeded
  failed : running.failed = running.results.countP fun entry => entry.status = .failed
  updates : running.updates =
    (List.range running.results.length).map fun index =>
      countsOf total (running.results.take (index + 1))

section Items

variable {maxBytes : ℤ} {attempts : Attempts Score} {total index : ℕ} {item : BatchItem}
  {before after : Running Score}

/-- A statement under `try` that raises leaves the variables as they were; the entry and the
counter change only after all of them. -/
theorem tryItem_eq (maxBytes : ℤ) (attempts : Attempts Score) (index : ℕ) (item : BatchItem)
    (before : Running Score) :
    tryItem maxBytes attempts index item before =
      ((attempts.outcome maxBytes index item).mapError (·, before)).map fun summary =>
        { before with
          results := before.results ++
            [⟨item.itemId, item.imageUrl, .succeeded, some summary, none⟩]
          completed := before.completed + 1 } := by
  unfold tryItem Attempts.outcome
  cases fetchImage maxBytes (attempts.fetch index item.imageUrl) with
  | error failure => rfl
  | ok imageBytes =>
      simp only [Except.mapError, Except.bind, bind]
      cases attempts.classifyMany index imageBytes with
      | error failure => rfl
      | ok predictions =>
          simp only
          cases firstPredictions predictions with
          | error failure => rfl
          | ok first => rfl

/-- An item adds the entry of its outcome, counts it and publishes the counters. -/
theorem processItem_eq (maxBytes : ℤ) (attempts : Attempts Score) (total index : ℕ)
    (item : BatchItem) (before : Running Score) {entry : ItemResult Score}
    (isEntry : entry = itemResult item (attempts.outcome maxBytes index item)) :
    processItem maxBytes attempts total index item before =
      publish total index
        { before with
          results := before.results ++ [entry]
          completed := before.completed + if entry.status = .succeeded then 1 else 0
          failed := before.failed + if entry.status = .failed then 1 else 0 } := by
  rw [processItem, tryItem_eq, isEntry]
  cases attempts.outcome maxBytes index item with
  | error failure => rfl
  | ok summary => rfl

/-- The entry of an item has its id and its URL. -/
theorem itemResult_describes (item : BatchItem)
    (outcome : Except Failure (List (SummaryEntry Score))) :
    Describes item (itemResult item outcome) := by
  cases outcome with
  | error failure => exact ⟨rfl, rfl, Or.inr ⟨rfl, rfl, rfl⟩⟩
  | ok summary => exact ⟨rfl, rfl, Or.inl ⟨rfl, rfl, rfl⟩⟩

theorem countP_append_singleton {Item : Type} (hit : Item → Bool) (items : List Item)
    (last : Item) :
    (items ++ [last]).countP hit = items.countP hit + if hit last then 1 else 0 := by
  rw [List.countP_append, List.countP_singleton]

theorem counts_length (results : List (ItemResult Score)) :
    (results.countP fun entry => entry.status = .succeeded) +
      (results.countP fun entry => entry.status = .failed) = results.length := by
  induction results with
  | nil => rfl
  | cons entry rest ih =>
      rw [List.countP_cons, List.countP_cons, List.length_cons, ← ih]
      cases status : entry.status <;> simp <;> omega

theorem counts_publish (counts : Counts total before) (entry : ItemResult Score) :
    Counts total (publish total before.results.length
      { before with
        results := before.results ++ [entry]
        completed := before.completed + if entry.status = .succeeded then 1 else 0
        failed := before.failed + if entry.status = .failed then 1 else 0 }) := by
  have completed : before.completed + (if entry.status = .succeeded then 1 else 0) =
      (before.results ++ [entry]).countP fun entry => entry.status = .succeeded := by
    rw [countP_append_singleton, counts.completed]
    simp only [decide_eq_true_eq]
  have failed : before.failed + (if entry.status = .failed then 1 else 0) =
      (before.results ++ [entry]).countP fun entry => entry.status = .failed := by
    rw [countP_append_singleton, counts.failed]
    simp only [decide_eq_true_eq]
  have longer : (before.results ++ [entry]).length = before.results.length + 1 :=
    List.length_append
  refine ⟨completed, failed, ?_⟩
  simp only [publish, longer, List.range_succ, List.map_append, List.map_singleton]
  congr 1
  · rw [counts.updates]
    apply List.map_congr_left
    intro position isPosition
    rw [List.mem_range] at isPosition
    rw [List.take_append_of_le_length isPosition]
  · rw [List.take_of_length_le longer.le, countsOf, completed, failed, longer]

end Items

/-! ## The whole loop -/

section Loop

variable {maxBytes : ℤ} {attempts : Attempts Score} {total : ℕ}

/-- The entries of the items from an index on. -/
def entriesFrom (maxBytes : ℤ) (attempts : Attempts Score) : ℕ → List BatchItem →
    List (ItemResult Score)
  | _, [] => []
  | index, item :: rest =>
      itemResult item (attempts.outcome maxBytes index item) ::
        entriesFrom maxBytes attempts (index + 1) rest

variable (maxBytes attempts) in
theorem entriesFrom_describe (index : ℕ) (items : List BatchItem) :
    List.Forall₂ Describes items (entriesFrom maxBytes attempts index items) := by
  induction items generalizing index with
  | nil => exact .nil
  | cons item rest ih => exact .cons (itemResult_describes item _) (ih (index + 1))

variable (maxBytes attempts) in
/-- The loop adds the entries of its items in order, and counts and publishes them. -/
theorem processItems_spec (items : List BatchItem) {before : Running Score}
    (counts : Counts total before) :
    (processItems maxBytes attempts total before.results.length items before).results =
        before.results ++ entriesFrom maxBytes attempts before.results.length items ∧
      Counts total (processItems maxBytes attempts total before.results.length items before) := by
  induction items generalizing before with
  | nil => exact ⟨(List.append_nil _).symm, counts⟩
  | cons item rest ih =>
      have processed := processItem_eq maxBytes attempts total before.results.length item before rfl
      have next := counts_publish counts
        (itemResult item (attempts.outcome maxBytes before.results.length item))
      rw [← processed] at next
      have longer : (processItem maxBytes attempts total before.results.length item
          before).results.length = before.results.length + 1 := by
        rw [processed]
        exact List.length_append
      rcases ih next with ⟨together, counted⟩
      rw [longer] at together counted
      refine ⟨?_, counted⟩
      rw [processItems, together, processed]
      exact List.append_assoc _ [_] _

/-- No counter of a later update is below that of an earlier one. -/
structure NotAbove (earlier later : ProgressUpdate) : Prop where
  completedItems : earlier.completedItems ≤ later.completedItems
  failedItems : earlier.failedItems ≤ later.failedItems
  currentIndex : earlier.currentIndex ≤ later.currentIndex

theorem countsOf_notAbove (total : ℕ) {earlier later : List (ItemResult Score)}
    (extends' : earlier <+: later) : NotAbove (countsOf total earlier) (countsOf total later) :=
  ⟨extends'.sublist.countP_le, extends'.sublist.countP_le, extends'.length_le⟩

/-- Updates count the entries so far, which are at most all items. -/
theorem Counts.updates_sum {running : Running Score} (counts : Counts total running)
    (all : running.results.length = total) {update : ProgressUpdate}
    (isUpdate : update ∈ running.updates) :
    update.completedItems + update.failedItems = update.currentIndex ∧
      update.currentIndex ≤ update.totalItems ∧ update.totalItems = total := by
  rw [counts.updates] at isUpdate
  rcases List.mem_map.mp isUpdate with ⟨position, _, rfl⟩
  refine ⟨counts_length _, ?_, rfl⟩
  rw [countsOf, ← all]
  exact List.length_take_le' _ _

theorem Counts.updates_sorted {running : Running Score} (counts : Counts total running) :
    running.updates.Pairwise NotAbove := by
  rw [counts.updates, List.pairwise_map]
  apply (List.pairwise_lt_range (n := running.results.length)).imp
  intro earlier later isEarlier
  apply countsOf_notAbove
  exact List.take_prefix_take_left (by omega)

/-- What a run of a job guarantees whatever the attempts lead to. -/
structure Accounts (job : Job) (run : BatchRun Score) : Prop where
  entries : List.Forall₂ Describes job.items run.summary.results
  totalItems : run.summary.totalItems = job.items.length
  completedItems : run.summary.completedItems =
    run.summary.results.countP fun entry => entry.status = .succeeded
  failedItems : run.summary.failedItems =
    run.summary.results.countP fun entry => entry.status = .failed
  together : run.summary.completedItems + run.summary.failedItems = run.summary.totalItems
  updates : ∀ update ∈ run.updates,
    update.completedItems + update.failedItems = update.currentIndex ∧
      update.currentIndex ≤ update.totalItems ∧ update.totalItems = job.items.length
  sorted : run.updates.Pairwise NotAbove

end Loop

/-- A job whose services load returns and accounts for every item. -/
theorem processBatchRun_accounts (host : Host Session Tensor Logits Score Detected Similar)
    (attempts : InferenceService Session → Attempts Score) (job : Job)
    (loads : Succeeds (getServices host)) :
    ∃ run, processBatchRun host attempts job = .ok run ∧ Accounts job run := by
  rcases loads with ⟨inference, isInference⟩
  refine ⟨_, bind_ok_iff.mpr ⟨inference, isInference, rfl⟩, ?_⟩
  have initially : Counts job.items.length (⟨[], 0, 0, []⟩ : Running Score) := ⟨rfl, rfl, rfl⟩
  have describe := entriesFrom_describe inference.limits.maxUploadBytes (attempts inference) 0
    job.items
  rcases processItems_spec inference.limits.maxUploadBytes (attempts inference) job.items initially
    with ⟨together, counts⟩
  rw [List.nil_append] at together
  rw [List.length_nil] at together counts
  have all := together ▸ describe.length_eq.symm
  have sum := counts_length (processItems inference.limits.maxUploadBytes (attempts inference)
    job.items.length 0 job.items ⟨[], 0, 0, []⟩).results
  rw [← counts.completed, ← counts.failed, all] at sum
  exact ⟨together ▸ describe, rfl, counts.completed, counts.failed, sum,
    fun update isUpdate => counts.updates_sum all isUpdate, counts.updates_sorted⟩

theorem processBatchRun_accounts_unreachable : ∃ run,
    processBatchRun smallHost
        (fun _ => ⟨fun _ _ => .error .request, fun _ _ => .error (.other "")⟩)
        ⟨[smallItem, smallItem], .classification, []⟩ = .ok run ∧
      Accounts ⟨[smallItem, smallItem], .classification, []⟩ run :=
  processBatchRun_accounts smallHost _ _ ⟨_, rfl⟩

/-- What the worker attempts with its services. -/
def workerAttempts (host : Host Session Tensor Logits Score Detected Similar)
    (network : String → Except Failure Fetched) (job : Job) (inference : InferenceService Session) :
    Attempts Score where
  fetch := fun _ url => network url
  classifyMany := fun _ image =>
    inference.classifyMany host.engine [image] job.options.topK job.options.modelVersion true

theorem outcome_workerAttempts (host : Host Session Tensor Logits Score Detected Similar)
    (network : String → Except Failure Fetched) (job : Job) (inference : InferenceService Session)
    (index : ℕ) (item : BatchItem) :
    (workerAttempts host network job inference).outcome inference.limits.maxUploadBytes index item =
      attemptItem host.engine inference job.options (network item.imageUrl) := by
  unfold Attempts.outcome attemptItem
  congr 1
  funext image
  congr 1
  funext predictions
  cases predictions with
  | nil => rfl
  | cons first rest => rfl

theorem entriesFrom_workerAttempts (host : Host Session Tensor Logits Score Detected Similar)
    (network : String → Except Failure Fetched) (job : Job) (inference : InferenceService Session)
    (index : ℕ) (items : List BatchItem) :
    entriesFrom inference.limits.maxUploadBytes (workerAttempts host network job inference) index
        items =
      items.map fun item => itemResult item
        (attemptItem host.engine inference job.options (network item.imageUrl)) := by
  induction items generalizing index with
  | nil => rfl
  | cons item rest ih =>
      rw [entriesFrom, outcome_workerAttempts, ih (index + 1), List.map_cons]

/-- The summary of the run is the one that the entries of the items make up. -/
theorem processBatch_eq (host : Host Session Tensor Logits Score Detected Similar)
    (network : String → Except Failure Fetched) (job : Job) :
    processBatch host network job =
      (processBatchRun host (workerAttempts host network job) job).map BatchRun.summary := by
  unfold processBatch processBatchRun
  cases getServices host with
  | error failure => rfl
  | ok inference =>
      have initially : Counts job.items.length (⟨[], 0, 0, []⟩ : Running Score) := ⟨rfl, rfl, rfl⟩
      rcases processItems_spec inference.limits.maxUploadBytes
        (workerAttempts host network job inference) job.items initially with ⟨together, counts⟩
      rw [List.nil_append, entriesFrom_workerAttempts] at together
      rw [List.length_nil] at together counts
      change Except.ok _ = Except.ok _
      rw [counts.completed, counts.failed, together]

end VisionApi.Batch
