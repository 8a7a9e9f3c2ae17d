import VisionApi.Foundation.Run
import Mathlib.Data.Nat.Notation

/-!
# The audit service and its tasks

`AuditService` queues inference records and writes them in batches from a
background task.  The model follows the code between its await points: one
step of the system is a call made by some caller, or the event loop resuming
one suspended task up to its next suspension.  Any enabled task may be resumed
at any time, so a run is an arbitrary interleaving.

The two asyncio primitives are modelled from their documented behaviour on
CPython 3.12: `Queue.get` suspends on a future kept in `_getters` and is woken
by `put_nowait`, `Lock.acquire` queues behind `_waiters` in order.  The stop
event and the flush timer only decide when `asyncio.wait` returns in
`_collect`; since the timer may fire at any moment, a collecting writer may
always be resumed.
-/

namespace VisionApi.Audit

universe u

/-- The constructor arguments of `AuditService`; `enabled` is `session_factory is not None`. -/
structure Config where
  enabled : Bool
  queueSize : ℕ
  batchSize : ℕ

/-- The counters of the service. -/
structure AuditStats where
  queued : ℕ
  written : ℕ
  dropped : ℕ
  failed : ℕ
deriving DecidableEq

/-- The `**fields` dictionary of one `record` call.  `ident` is the identity of that
dictionary as an object: two calls with equal fields make two records. -/
structure Record (α : Type u) where
  ident : ℕ
  fields : α
deriving DecidableEq

/-- How the service is done with a record, as its counters have it. -/
inductive Outcome where
  | written
  | failed
  | dropped
deriving DecidableEq

/-- Progress of a `Queue.get` task that has no result yet. -/
inductive Pending where
  | created
  | waiting
  | woken
deriving DecidableEq

/-- The getter task of `_collect`. -/
inductive Getter (α : Type u) where
  | pending (progress : Pending)
  | finished (record : Record α)
  | cancelling (progress : Pending)
  | cancelled
  | collected
deriving DecidableEq

/-- The coroutine a `_drain` returns to: `flush`, called when `before` records had been
accepted, or `stop`. -/
inductive Caller where
  | flush (before : ℕ)
  | stop
deriving DecidableEq

/-- A task with the point it is suspended at and the local variables that survive it. -/
inductive Task (α : Type u) where
  /-- `_run`, not entered yet. -/
  | writerCreated
  /-- `_collect`, at `asyncio.wait`. -/
  | collecting (getter : ℕ)
  /-- `_run`, waiting for `_write_lock`. -/
  | acquiring (batch : List (Record α))
  /-- `_run`, in `_write` with the lock held. -/
  | writing (batch : List (Record α))
  | writerExited
  | getter (state : Getter α)
  /-- `flush`, waiting for `_write_lock`. -/
  | flushAcquiring (before : ℕ)
  /-- `stop`, waiting for the writer task. -/
  | stopAwaiting (writer : ℕ)
  /-- `_drain`, in the `_write` inside its loop or in the one after it. -/
  | draining (caller : Caller) (batch : List (Record α)) (inLoop : Bool)
  | returned (caller : Caller)
deriving DecidableEq

/-- The service, the tasks on the event loop, and the history of its records.  `accepted`
lists the records put in the queue, `settled` what became of the records that left the
service, `writes` the batches passed to `_write`. -/
structure State (α : Type u) where
  queue : List (Record α)
  getters : List ℕ
  locked : Bool
  waiters : List ℕ
  task : Option ℕ
  stopping : Bool
  stats : AuditStats
  tasks : List (Task α)
  accepted : List (Record α)
  settled : List (Outcome × Record α)
  writes : List (List (Record α))
deriving DecidableEq

/-- `AuditService.__init__`. -/
def State.initial (α : Type u) : State α where
  queue := []
  getters := []
  locked := false
  waiters := []
  task := none
  stopping := false
  stats := ⟨0, 0, 0, 0⟩
  tasks := []
  accepted := []
  settled := []
  writes := []

/-- A call from outside, or the event loop. -/
inductive Event (α : Type u) where
  | record (fields : α)
  | start
  | stop
  | flush
  /-- The loop resumes a task; `committed` resolves the session it may be waiting for. -/
  | resume (task : ℕ) (committed : Bool)

namespace State

variable {α : Type u}

/-- Replace a task. -/
def setTask (s : State α) (index : ℕ) (task : Task α) : State α :=
  { s with tasks := s.tasks.set index task }

/-- Add a task behind the others. -/
def spawn (s : State α) (task : Task α) : State α :=
  { s with tasks := s.tasks ++ [task] }

/-- Replace the queue. -/
def setQueue (s : State α) (queue : List (Record α)) : State α :=
  { s with queue := queue }

/-! ## `asyncio.Queue` -/

/-- `Queue._wakeup_next`: wake the first waiter whose future is not done. -/
def wakeupNext (s : State α) : List ℕ → State α
  | [] => { s with getters := [] }
  | waiter :: waiters =>
      match s.tasks[waiter]? with
      | some (.getter (.pending .waiting)) =>
          { s with getters := waiters }.setTask waiter (.getter (.pending .woken))
      | _ => wakeupNext s waiters

/-- `put_nowait` raises `QueueFull`; a size of zero is no limit. -/
def full (s : State α) (cfg : Config) : Bool :=
  0 < cfg.queueSize && cfg.queueSize ≤ s.queue.length

/-- `Queue.put_nowait`, failing with `QueueFull`. -/
def putNowait (s : State α) (cfg : Config) (record : Record α) : Option (State α) :=
  if s.full cfg then
    none
  else
    let s := { s with
      queue := s.queue ++ [record]
      accepted := s.accepted ++ [record] }
    some (s.wakeupNext s.getters)

/-- `Queue.get_nowait`, failing with `QueueEmpty`.  Nobody awaits `Queue.put`, so there is
no putter to wake. -/
def getNowait (s : State α) : Option (Record α × State α) :=
  match s.queue with
  | [] => none
  | record :: queue => some (record, s.setQueue queue)

/-- A getter is appended to `_getters`. -/
def addGetter (s : State α) (index : ℕ) : State α :=
  { s with getters := s.getters ++ [index] }

/-- The getter task entering or resuming `Queue.get`. -/
def resumeGet (s : State α) (index : ℕ) : State α :=
  match s.getNowait with
  | none => (s.addGetter index).setTask index (.getter (.pending .waiting))
  | some (record, s) => s.setTask index (.getter (.finished record))

/-- The getter task receiving `CancelledError`.  One that had already been woken hands the
wake-up on to the next getter. -/
def cancelGet (s : State α) (index : ℕ) (progress : Pending) : State α :=
  let s := s.setTask index (.getter .cancelled)
  match progress with
  | .created => s
  | .waiting => { s with getters := s.getters.erase index }
  | .woken => if s.queue.isEmpty then s else s.wakeupNext s.getters

/-! ## `asyncio.Lock` -/

/-- A newcomer gets the lock at once. -/
def lockFree (s : State α) : Bool :=
  !s.locked && s.waiters.isEmpty

/-- The lock is offered to the first waiter. -/
def lockOffered (s : State α) (index : ℕ) : Bool :=
  !s.locked && s.waiters.head? == some index

/-! ## `AuditService` -/

/-- Count a record that was queued. -/
def countQueued (s : State α) : State α :=
  { s with stats.queued := s.stats.queued + 1 }

/-- Make room by discarding the oldest record; an empty queue is ignored. -/
def dropOldest (s : State α) : State α :=
  match s.getNowait with
  | some (oldest, s) =>
      { s with
        stats.dropped := s.stats.dropped + 1
        settled := s.settled ++ [(.dropped, oldest)] }
  | none => s

/-- Queue a record; if the queue is full, drop the oldest one and try again. -/
def record (s : State α) (cfg : Config) (fields : α) : State α :=
  if !cfg.enabled then
    s
  else
    let record : Record α := ⟨s.accepted.length, fields⟩
    match s.putNowait cfg record with
    | some s => s.countQueued
    | none =>
        match s.dropOldest.putNowait cfg record with
        | some s => s.countQueued
        | none => s.dropOldest

/-- `_write` up to the commit. -/
def beginWrite (s : State α) (batch : List (Record α)) : State α :=
  { s with writes := s.writes ++ [batch] }

/-- `_write` once the session has committed or raised. -/
def finishWrite (s : State α) (batch : List (Record α)) (committed : Bool) : State α :=
  if committed then
    { s with
      stats.written := s.stats.written + batch.length
      settled := s.settled ++ batch.map fun record => (.written, record) }
  else
    { s with
      stats.failed := s.stats.failed + batch.length
      settled := s.settled ++ batch.map fun record => (.failed, record) }

/-- The `while len(batch) < batch_size` loop of `_collect`: the batch and the rest of the
queue. -/
def fillBatch (batchSize : ℕ) :
    List (Record α) → List (Record α) → List (Record α) × List (Record α)
  | [], batch => (batch, [])
  | record :: queue, batch =>
      if batch.length < batchSize then
        fillBatch batchSize queue (batch ++ [record])
      else
        (batch, record :: queue)

/-- `_collect` up to `asyncio.wait`. -/
def enterCollect (s : State α) (index : ℕ) : State α :=
  (s.spawn (.getter (.pending .created))).setTask index (.collecting s.tasks.length)

/-- The end of an iteration of `_run`. -/
def loop (s : State α) (index : ℕ) : State α :=
  if s.stopping then s.setTask index .writerExited else s.enterCollect index

/-- What `_collect` finds in its getter: the record it took, if any.  A getter that is still
pending is cancelled. -/
def takeResult (s : State α) (getter : ℕ) : List (Record α) × State α :=
  match s.tasks[getter]? with
  | some (.getter (.finished record)) => ([record], s.setTask getter (.getter .collected))
  | some (.getter (.pending progress)) => ([], s.setTask getter (.getter (.cancelling progress)))
  | _ => ([], s)

/-- `_run` with a batch from `_collect`, up to the commit or the wait for `_write_lock`. -/
def writeBatch (s : State α) (index : ℕ) (batch : List (Record α)) : State α :=
  if batch.isEmpty then
    s.loop index
  else if s.lockFree then
    ({ s with locked := true }.beginWrite batch).setTask index (.writing batch)
  else
    { s with waiters := s.waiters ++ [index] }.setTask index (.acquiring batch)

/-- `_run` from the return of `asyncio.wait`. -/
def resumeCollect (s : State α) (cfg : Config) (index getter : ℕ) : State α :=
  let (batch, s) := s.takeResult getter
  let (batch, queue) := fillBatch cfg.batchSize s.queue batch
  (s.setQueue queue).writeBatch index batch

/-- The `while` loop of `_drain`: the batch, the rest of the queue, and whether the batch is
written inside the loop. -/
def drainLoop (batchSize : ℕ) :
    List (Record α) → List (Record α) → List (Record α) × List (Record α) × Bool
  | [], batch => (batch, [], false)
  | record :: queue, batch =>
      if batchSize ≤ (batch ++ [record]).length then
        (batch ++ [record], queue, true)
      else
        drainLoop batchSize queue (batch ++ [record])

/-- `_drain` up to its next commit or its return. -/
def drain (s : State α) (cfg : Config) (index : ℕ) (caller : Caller) : State α :=
  let (batch, queue, inLoop) := drainLoop cfg.batchSize s.queue []
  if batch.isEmpty then
    (s.setQueue queue).setTask index (.returned caller)
  else
    ((s.setQueue queue).beginWrite batch).setTask index (.draining caller batch inLoop)

/-- Start the writer unless it is disabled or running. -/
def start (s : State α) (cfg : Config) : State α :=
  if !cfg.enabled || s.task.isSome then
    s
  else
    { s with task := some s.tasks.length }.spawn .writerCreated

/-- `AuditService.stop`, up to its first suspension. -/
def stop (s : State α) (cfg : Config) : State α :=
  match s.task with
  | some writer => { s with stopping := true }.spawn (.stopAwaiting writer)
  | none => (s.spawn (.returned .stop)).drain cfg s.tasks.length .stop

/-- `AuditService.flush`, up to its first suspension. -/
def flush (s : State α) (cfg : Config) : State α :=
  let caller := .flush s.accepted.length
  if s.lockFree then
    (s.spawn (.returned caller)).drain cfg s.tasks.length caller
  else
    { s with waiters := s.waiters ++ [s.tasks.length] }.spawn (.flushAcquiring s.accepted.length)

/-- `stop` is resumed when the writer it shields has finished. -/
def exited (s : State α) (writer : ℕ) : Bool :=
  match s.tasks[writer]? with
  | some .writerExited => true
  | _ => false

/-- The loop resumes the task at `index`, which is suspended as `task`. -/
def resume (s : State α) (cfg : Config) (index : ℕ) (committed : Bool) :
    Task α → Option (State α)
  | .writerCreated => some (s.enterCollect index)
  | .collecting getter => some (s.resumeCollect cfg index getter)
  | .acquiring batch =>
      if s.lockOffered index then
        some (({ s with locked := true, waiters := s.waiters.tail }.beginWrite batch).setTask index
          (.writing batch))
      else
        none
  | .writing batch => some ({ s.finishWrite batch committed with locked := false }.loop index)
  | .getter (.pending .created) | .getter (.pending .woken) => some (s.resumeGet index)
  | .getter (.cancelling progress) => some (s.cancelGet index progress)
  | .flushAcquiring before =>
      if s.lockOffered index then
        some ({ s with waiters := s.waiters.tail }.drain cfg index (.flush before))
      else
        none
  | .stopAwaiting writer =>
      if s.exited writer then
        some ({ s with task := none, stopping := false }.drain cfg index .stop)
      else
        none
  | .draining caller batch inLoop =>
      let s := s.finishWrite batch committed
      some (if inLoop then s.drain cfg index caller else s.setTask index (.returned caller))
  | .getter (.pending .waiting) | .getter _ | .writerExited | .returned _ => none

/-- One step of the system. -/
def step (cfg : Config) (s : State α) : Event α → Option (State α)
  | .record fields => some (s.record cfg fields)
  | .start => some (s.start cfg)
  | .stop => some (s.stop cfg)
  | .flush => some (s.flush cfg)
  | .resume index committed =>
      (s.tasks[index]?).bind fun task => s.resume cfg index committed task

/-- What resuming a task can do, one constructor for each point a task is suspended at. -/
inductive Resumed (cfg : Config) (s : State α) (index : ℕ) (committed : Bool) :
    Task α → State α → Prop where
  | enter : Resumed cfg s index committed .writerCreated (s.enterCollect index)
  | collect (getter : ℕ) :
      Resumed cfg s index committed (.collecting getter) (s.resumeCollect cfg index getter)
  | acquire (batch : List (Record α)) (offered : s.lockOffered index) :
      Resumed cfg s index committed (.acquiring batch)
        (({ s with locked := true, waiters := s.waiters.tail }.beginWrite batch).setTask index
          (.writing batch))
  | write (batch : List (Record α)) :
      Resumed cfg s index committed (.writing batch)
        ({ s.finishWrite batch committed with locked := false }.loop index)
  | get (progress : Pending) :
      Resumed cfg s index committed (.getter (.pending progress)) (s.resumeGet index)
  | cancel (progress : Pending) :
      Resumed cfg s index committed (.getter (.cancelling progress)) (s.cancelGet index progress)
  | flush (before : ℕ) (offered : s.lockOffered index) :
      Resumed cfg s index committed (.flushAcquiring before)
        ({ s with waiters := s.waiters.tail }.drain cfg index (.flush before))
  | stop (writer : ℕ) (exited : s.exited writer) :
      Resumed cfg s index committed (.stopAwaiting writer)
        ({ s with task := none, stopping := false }.drain cfg index .stop)
  | drainOn (caller : Caller) (batch : List (Record α)) :
      Resumed cfg s index committed (.draining caller batch true)
        ((s.finishWrite batch committed).drain cfg index caller)
  | drainEnd (caller : Caller) (batch : List (Record α)) :
      Resumed cfg s index committed (.draining caller batch false)
        ((s.finishWrite batch committed).setTask index (.returned caller))

theorem resumed_of_resume {cfg : Config} {s after : State α} {index : ℕ} {committed : Bool}
    {task : Task α} (taken : s.resume cfg index committed task = some after) :
    Resumed cfg s index committed task after := by
  cases task with
  | writerCreated =>
      simp only [resume, Option.some.injEq] at taken
      exact taken ▸ .enter
  | collecting getter =>
      simp only [resume, Option.some.injEq] at taken
      exact taken ▸ .collect getter
  | acquiring batch =>
      simp only [resume, Option.ite_none_right_eq_some, Option.some.injEq] at taken
      exact taken.2 ▸ .acquire batch taken.1
  | writing batch =>
      simp only [resume, Option.some.injEq] at taken
      exact taken ▸ .write batch
  | writerExited => simp [resume] at taken
  | getter state =>
      cases state with
      | pending progress =>
          cases progress with
          | waiting => simp [resume] at taken
          | created | woken =>
              simp only [resume, Option.some.injEq] at taken
              exact taken ▸ .get _
      | cancelling progress =>
          simp only [resume, Option.some.injEq] at taken
          exact taken ▸ .cancel progress
      | finished record => simp [resume] at taken
      | cancelled => simp [resume] at taken
      | collected => simp [resume] at taken
  | flushAcquiring before =>
      simp only [resume, Option.ite_none_right_eq_some, Option.some.injEq] at taken
      exact taken.2 ▸ .flush before taken.1
  | stopAwaiting writer =>
      simp only [resume, Option.ite_none_right_eq_some, Option.some.injEq] at taken
      exact taken.2 ▸ .stop writer taken.1
  | draining caller batch inLoop =>
      simp only [resume, Option.some.injEq] at taken
      cases inLoop with
      | true => exact taken ▸ .drainOn caller batch
      | false => exact taken ▸ .drainEnd caller batch
  | returned caller => simp [resume] at taken

/-- Everything a step can do: a call, or the loop resuming a task. -/
theorem step_cases {cfg : Config} {s after : State α} {event : Event α}
    (taken : s.step cfg event = some after) :
    (∃ fields, event = .record fields ∧ after = s.record cfg fields) ∨
      (event = .start ∧ after = s.start cfg) ∨
      (event = .stop ∧ after = s.stop cfg) ∨
      (event = .flush ∧ after = s.flush cfg) ∨
      ∃ index committed task, event = .resume index committed ∧
        s.tasks[index]? = some task ∧ Resumed cfg s index committed task after := by
  cases event with
  | record fields => exact .inl ⟨fields, rfl, by simpa [step] using taken.symm⟩
  | start => exact .inr (.inl ⟨rfl, by simpa [step] using taken.symm⟩)
  | stop => exact .inr (.inr (.inl ⟨rfl, by simpa [step] using taken.symm⟩))
  | flush => exact .inr (.inr (.inr (.inl ⟨rfl, by simpa [step] using taken.symm⟩)))
  | resume index committed =>
      simp only [step, Option.bind_eq_some_iff] at taken
      rcases taken with ⟨task, present, taken⟩
      exact .inr (.inr (.inr (.inr
        ⟨index, committed, task, rfl, present, resumed_of_resume taken⟩)))

end State

/-- The states of the service under every interleaving. -/
abbrev Reachable (α : Type u) (cfg : Config) : State α → Prop :=
  Foundation.Reachable (State.step cfg) (State.initial α)

end VisionApi.Audit
