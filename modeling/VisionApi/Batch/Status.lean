import VisionApi.Batch.Updates
import VisionApi.Foundation.Run

/-!
# Status of a batch job

A job is known by its id.  Submitting it puts a message into the broker and no
record into the result backend; the worker stores records under the id, and these
expire.  The status endpoint reads the record of an id.

The record of an id is absent, or has a content, of which Celery derives the state: an
absent record and one that the worker has not begun are both `PENDING`.  The endpoint
tests for an unknown job by an empty status, which no content has
(`TaskMeta.status_ne`), so that its answer for an id that was never submitted is that
of a pending job.

A history submits jobs, updates and expires records and polls.  Expiry does not touch
the list of submitted ids, since what a client may ask for does not depend on it.
-/

namespace VisionApi.Batch

open Foundation Models Inference

variable {Score Time : Type}

/-! ## Records -/

/-- The value `process_batch` returns, with the times as it writes them. -/
structure BatchReport (Score : Type) where
  summary : BatchSummary Score
  startedAt : String
  finishedAt : String

/-- The meta a backend stores for a task: its state, and what goes with it. -/
inductive TaskMeta (Score : Type) where
  | pending
  | received
  | started
  | progress (update : ProgressUpdate)
  | retry
  | success (report : BatchReport Score)
  | failure
  | revoked

/-- The name of the state, which is `status` of the meta. -/
def TaskMeta.status : TaskMeta Score → String
  | .pending => "PENDING"
  | .received => "RECEIVED"
  | .started => "STARTED"
  | .progress _ => "PROGRESS"
  | .retry => "RETRY"
  | .success _ => "SUCCESS"
  | .failure => "FAILURE"
  | .revoked => "REVOKED"

/-- The record of an id. -/
inductive Record (Score : Type) where
  | absent
  | stored (content : TaskMeta Score)
  | expired

/-- The records by id. -/
abbrev Backend (Score : Type) := String → Record Score

/-- `get_task_meta` of Celery: an id without a record has the state of a pending task. -/
def Backend.getTaskMeta (backend : Backend Score) (jobId : String) : TaskMeta Score :=
  match backend jobId with
  | .stored content => content
  | .absent | .expired => .pending

/-! ## The endpoint -/

/-- The states that the endpoint reports. -/
inductive JobStatus where
  | pending
  | running
  | completed
  | failed
  | cancelled
deriving DecidableEq

/-- `_STATE_MAP` -/
def stateMap : Dict String JobStatus :=
  [("PENDING", .pending), ("RECEIVED", .pending), ("STARTED", .running), ("PROGRESS", .running),
    ("RETRY", .running), ("SUCCESS", .completed), ("FAILURE", .failed), ("REVOKED", .cancelled)]

/-- The answer of the endpoint. -/
structure StatusResponse (Score Time : Type) where
  jobId : String
  status : JobStatus
  task : TaskType
  totalItems : ℕ
  completedItems : ℕ
  failedItems : ℕ
  submittedAt : Time
  startedAt : Option Time := none
  finishedAt : Option Time := none
  results : Option (List (ItemResult Score)) := none
  error : Option String := none

/-- What the endpoint takes from Python: how a string is shown, and times. -/
structure Python (Time : Type) where
  repr : String → String
  now : Time
  fromisoformat : String → Option Time

/-- `_parse_time` of a value that is present. -/
def parseTime (python : Python Time) (value : String) : Time :=
  if value = "" then python.now else (python.fromisoformat value).getD python.now

/-- The error for a job that is not known. -/
def jobNotFoundError (message : String) (details : List (String × Detail)) : ApiError :=
  ⟨404, "job_not_found", message, details⟩

/-- The counters in `result.info`, or those of an empty dictionary. -/
def TaskMeta.counters : TaskMeta Score → ℕ × ℕ × ℕ
  | .progress update => (update.totalItems, update.completedItems, update.failedItems)
  | .success report =>
      (report.summary.totalItems, report.summary.completedItems, report.summary.failedItems)
  | _ => (0, 0, 0)

/-- `result.result or {}` where the state is that of a job that completed. -/
def TaskMeta.report : TaskMeta Score → Option (BatchReport Score)
  | .success report => some report
  | _ => none

/-- The answer for an id, from its record. -/
def getBatchStatus (python : Python Time) (backend : Backend Score) (jobId : String) :
    Except ApiError (StatusResponse Score Time) :=
  let result := backend.getTaskMeta jobId
  if result.status = "PENDING" ∧ (backend.getTaskMeta jobId).status = "" then
    .error (jobNotFoundError
      ("No job found with ID " ++ python.repr jobId ++ ". It may have expired.")
      [("job_id", .text jobId)])
  else
    let jobStatus := (stateMap.get? result.status).getD .pending
    let (totalItems, completedItems, failedItems) := result.counters
    match jobStatus with
    | .completed =>
        .ok
          { jobId := jobId
            status := jobStatus
            task := (result.report.map fun report => report.summary.task).getD .classification
            totalItems := totalItems
            completedItems := completedItems
            failedItems := failedItems
            submittedAt := (result.report.map fun report =>
              parseTime python report.startedAt).getD python.now
            startedAt := some ((result.report.map fun report =>
              parseTime python report.startedAt).getD python.now)
            finishedAt := some ((result.report.map fun report =>
              parseTime python report.finishedAt).getD python.now)
            results := some ((result.report.map fun report => report.summary.results).getD []) }
    | .failed =>
        .ok
          { jobId := jobId
            status := jobStatus
            task := .classification
            totalItems := totalItems
            completedItems := completedItems
            failedItems := failedItems
            submittedAt := python.now
            error := some "The job failed. Contact support with this job ID." }
    | _ =>
        .ok
          { jobId := jobId
            status := jobStatus
            task := .classification
            totalItems := totalItems
            completedItems := completedItems
            failedItems := failedItems
            submittedAt := python.now }

/-! ## Histories -/

/-- The jobs of a deployment: the ids that were handed out, the messages in the broker and the
records in the result backend. -/
structure Jobs (Score : Type) where
  submitted : List String
  queue : List (String × Job)
  backend : Backend Score

/-- Nothing was submitted yet. -/
def noJobs : Jobs Score where
  submitted := []
  queue := []
  backend := fun _ => .absent

/-- A submission, an update by the worker, an expiry or a poll. -/
inductive JobEvent (Score : Type) where
  | submit (payload : BatchRequest) (jobId : String)
  | update (jobId : String) (content : TaskMeta Score)
  | expire (jobId : String)
  | poll (jobId : String)

/-- Store one record. -/
def Backend.set (backend : Backend Score) (jobId : String) (record : Record Score) :
    Backend Score :=
  fun other => if other = jobId then record else backend other

/-- A request that is accepted is sent to the broker under a new id; a worker records the state of
a job it was sent; a record that is stored expires; the status endpoint only reads. -/
def jobsStep (limits : Limits) (jobs : Jobs Score) : JobEvent Score → Option (Jobs Score)
  | .submit payload jobId =>
      match submitBatch limits payload with
      | .ok job =>
          if jobId ∈ jobs.submitted then none
          else some { jobs with
            submitted := jobs.submitted ++ [jobId]
            queue := jobs.queue ++ [(jobId, job)] }
      | .error _ => none
  | .update jobId content =>
      if jobId ∈ jobs.submitted then
        some { jobs with backend := jobs.backend.set jobId (.stored content) }
      else none
  | .expire jobId =>
      match jobs.backend jobId with
      | .stored _ => some { jobs with backend := jobs.backend.set jobId .expired }
      | .absent | .expired => none
  | .poll _ => some jobs

/-- The endpoint raises that the job was not found. -/
def NotFound (python : Python Time) (backend : Backend Score) (jobId : String) : Prop :=
  ∃ message details,
    getBatchStatus python backend jobId = .error (jobNotFoundError message details)

/-- The endpoint tells an id that was never submitted from a job whose record has not expired. -/
structure Distinguishes (python : Python Time) (jobs : Jobs Score) (jobId : String) : Prop where
  unknown : jobId ∉ jobs.submitted → NotFound python jobs.backend jobId
  known : jobId ∈ jobs.submitted → jobs.backend jobId ≠ .expired →
    ¬NotFound python jobs.backend jobId

/-- What is expected of a step: a poll tells unknown ids from submitted ones. -/
def PollsDistinguish (python : Python Time) (before : Jobs Score) (event : JobEvent Score)
    (_ : Jobs Score) : Prop :=
  ∀ jobId, event = .poll jobId → Distinguishes python before jobId

/-- The step is no poll of an id that was not submitted before. -/
def PollsSubmitted (before : Jobs Score) (event : JobEvent Score) (_ : Jobs Score) : Prop :=
  ∀ jobId, event = .poll jobId → jobId ∈ before.submitted

theorem TaskMeta.status_ne (content : TaskMeta Score) : content.status ≠ "" := by
  cases content <;> simp [TaskMeta.status]

/-- The status of a task is never empty, so that the endpoint always answers. -/
theorem getBatchStatus_succeeds (python : Python Time) (backend : Backend Score)
    (jobId : String) : Succeeds (getBatchStatus python backend jobId) := by
  unfold getBatchStatus
  rw [if_neg fun both => (backend.getTaskMeta jobId).status_ne both.2]
  generalize (stateMap.get? (backend.getTaskMeta jobId).status).getD .pending = jobStatus
  cases jobStatus <;> exact succeeds_ok _

/-- No id is ever reported as not found. -/
theorem not_notFound (python : Python Time) (backend : Backend Score) (jobId : String) :
    ¬NotFound python backend jobId := by
  rintro ⟨message, details, raised⟩
  rcases getBatchStatus_succeeds python backend jobId with ⟨response, answered⟩
  cases raised.symm.trans answered

theorem distinguishes_iff (python : Python Time) (jobs : Jobs Score) (jobId : String) :
    Distinguishes python jobs jobId ↔ jobId ∈ jobs.submitted := by
  constructor
  · intro distinguishes
    by_contra unknown
    exact not_notFound python jobs.backend jobId (distinguishes.unknown unknown)
  · intro isSubmitted
    exact ⟨fun unknown => absurd isSubmitted unknown, fun _ _ => not_notFound _ _ _⟩

/-- All polls of a history tell unknown ids from submitted ones exactly if none is of an unknown
id. -/
theorem polls_distinguish_iff_submitted (python : Python Time) (limits : Limits)
    (events : List (JobEvent Score)) :
    EachStep (jobsStep limits) (PollsDistinguish python) noJobs events ↔
      EachStep (jobsStep limits) PollsSubmitted noJobs events := by
  apply eachStep_iff (fun _ => True) (fun _ => True)
  · intro before event after _ _ _
    apply forall_congr'
    intro jobId
    rw [distinguishes_iff]
  · intro _ _ _ _ _ _ _
    trivial
  · trivial
  · intro _ _
    trivial

/-- An id that was never submitted is reported as pending. -/
theorem unknown_job_pending :
    ¬EachStep (jobsStep smallHost.limits)
        (PollsDistinguish ⟨fun text => "'" ++ text ++ "'", (), fun _ => some ()⟩)
        (noJobs : Jobs ℕ) [.poll "no-such-job"] := by
  intro each
  have distinguishes := (each noJobs rfl).1 "no-such-job" rfl
  exact not_notFound _ _ _ (distinguishes.unknown List.not_mem_nil)

end VisionApi.Batch
