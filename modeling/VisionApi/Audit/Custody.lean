import VisionApi.Audit.Service
import VisionApi.Foundation.Custody
import Mathlib.Data.List.Nodup

/-!
# The audit service conserves its records

Every step of the service is a sequence of moves of the custody ledger: a
record is accepted into the queue, taken by a getter, a writer or a `_drain`,
passed to `_write` in a batch, and settled as written, failed or dropped.  The
theorems of the ledger then hold of every interleaving.

The ledger of a state collects what its tasks hold.  When one task runs, the ledger
without it (`ledgerWithout`) does not change, so that an operation is described by
what its own task has in hand before and after.  For each operation of the service
there is one lemma with its moves, and `step_moves` puts them together.

An operation may perform several moves: resuming a collecting writer takes a record
from the queue for its getter, takes more until the batch is full, and passes the
batch on.
-/

namespace VisionApi.Audit

open Foundation

universe u

variable {α : Type u}

namespace Task

/-- Records a task has taken from the queue and not passed to `_write` yet. -/
def inHand : Task α → List (Record α)
  | .acquiring batch => batch
  | .getter (.finished record) => [record]
  | _ => []

/-- The batch a task has passed to `_write` and waits for. -/
def passed : Task α → List (Record α)
  | .writing batch => batch
  | .draining _ batch _ => batch
  | _ => []

end Task

namespace State

/-- The custody ledger of the service. -/
def ledger (s : State α) : Ledger (Record α) Outcome where
  accepted := s.accepted
  queue := s.queue
  inHand := heldBy Task.inHand s.tasks
  passed := heldBy Task.passed s.tasks
  deliveries := s.writes
  settled := s.settled

/-- The ledger with the holdings of one task left out. -/
def ledgerWithout (s : State α) (index : ℕ) : Ledger (Record α) Outcome :=
  { s.ledger with
    inHand := heldBy Task.inHand (s.tasks.eraseIdx index)
    passed := heldBy Task.passed (s.tasks.eraseIdx index) }

/-- Replacing a task changes the ledger by what the new one holds. -/
theorem ledger_setTask {s : State α} {index : ℕ} (inside : index < s.tasks.length)
    (task : Task α) :
    (s.setTask index task).ledger =
      { s.ledgerWithout index with
        inHand := (s.ledgerWithout index).inHand + ↑task.inHand
        passed := (s.ledgerWithout index).passed + ↑task.passed } := by
  simp only [ledger, ledgerWithout, setTask, heldBy_set _ inside]

/-- The ledger is that of the other tasks and what one task holds. -/
theorem ledger_eq_without {s : State α} {index : ℕ} {task : Task α}
    (present : s.tasks[index]? = some task) :
    s.ledger =
      { s.ledgerWithout index with
        inHand := (s.ledgerWithout index).inHand + ↑task.inHand
        passed := (s.ledgerWithout index).passed + ↑task.passed } := by
  simp only [ledger, ledgerWithout, heldBy_eq_others _ present]

/-- A task that holds nothing does not show in the ledger. -/
theorem ledgerWithout_eq {s : State α} {index : ℕ} {task : Task α}
    (present : s.tasks[index]? = some task) (noneInHand : task.inHand = [])
    (nonePassed : task.passed = []) : s.ledgerWithout index = s.ledger := by
  rw [ledger_eq_without present, noneInHand, nonePassed]
  simp

theorem ledger_setTask_idle {s : State α} {index : ℕ} (inside : index < s.tasks.length)
    {task : Task α} (noneInHand : task.inHand = []) (nonePassed : task.passed = []) :
    (s.setTask index task).ledger = s.ledgerWithout index := by
  rw [ledger_setTask inside, noneInHand, nonePassed]
  simp

/-- A task that begins with nothing does not change the ledger. -/
theorem ledger_spawn {s : State α} {task : Task α} (noneInHand : task.inHand = [])
    (nonePassed : task.passed = []) : (s.spawn task).ledger = s.ledger := by
  simp [ledger, spawn, noneInHand, nonePassed]

theorem ledgerWithout_spawn {s : State α} {index : ℕ} (inside : index < s.tasks.length)
    {task : Task α} (noneInHand : task.inHand = []) (nonePassed : task.passed = []) :
    (s.spawn task).ledgerWithout index = s.ledgerWithout index := by
  simp [ledgerWithout, ledger, spawn, List.eraseIdx_append_of_lt_length inside, noneInHand,
    nonePassed]

/-- Waking a getter moves no record. -/
theorem ledger_wakeupNext (s : State α) (waiters : List ℕ) :
    (s.wakeupNext waiters).ledger = s.ledger := by
  induction waiters with
  | nil => rfl
  | cons waiter waiters ih =>
      simp only [wakeupNext]
      split
      · rename_i waiting
        have present : ({ s with getters := waiters } : State α).tasks[waiter]? =
            some (.getter (.pending .waiting)) := waiting
        rw [ledger_setTask_idle (List.getElem?_eq_some_iff.mp present).1 rfl rfl,
          ledgerWithout_eq present rfl rfl]
        rfl
      · exact ih

/-! ## What the loops take from the queue -/

/-- A batch is filled from the front of the queue. -/
theorem fillBatch_split (batchSize : ℕ) (queue batch : List (Record α)) :
    ∃ taken, (fillBatch batchSize queue batch).1 = batch ++ taken ∧
      queue = taken ++ (fillBatch batchSize queue batch).2 := by
  induction queue generalizing batch with
  | nil => exact ⟨[], by simp [fillBatch]⟩
  | cons record queue ih =>
      simp only [fillBatch]
      split
      · rcases ih (batch ++ [record]) with ⟨taken, full, split⟩
        refine ⟨record :: taken, by simp [full], ?_⟩
        rw [List.cons_append, ← split]
      · exact ⟨[], by simp⟩

/-- A batch is filled up to its size. -/
theorem fillBatch_length {batchSize : ℕ} (queue : List (Record α)) {batch : List (Record α)}
    (bounded : batch.length ≤ batchSize) :
    (fillBatch batchSize queue batch).1.length ≤ batchSize := by
  induction queue generalizing batch with
  | nil => simpa [fillBatch] using bounded
  | cons record queue ih =>
      simp only [fillBatch]
      split
      · apply ih
        simp only [List.length_append, List.length_cons, List.length_nil]
        omega
      · exact bounded

/-- A drain takes from the front of the queue. -/
theorem drainLoop_split (batchSize : ℕ) (queue batch : List (Record α)) :
    ∃ taken, (drainLoop batchSize queue batch).1 = batch ++ taken ∧
      queue = taken ++ (drainLoop batchSize queue batch).2.1 := by
  induction queue generalizing batch with
  | nil => exact ⟨[], by simp [drainLoop]⟩
  | cons record queue ih =>
      simp only [drainLoop]
      split
      · exact ⟨[record], by simp⟩
      · rcases ih (batch ++ [record]) with ⟨taken, full, split⟩
        refine ⟨record :: taken, by simp [full], ?_⟩
        rw [List.cons_append, ← split]

theorem drainLoop_length {batchSize : ℕ} (queue : List (Record α)) {batch : List (Record α)}
    (bounded : batch.length < batchSize) :
    (drainLoop batchSize queue batch).1.length ≤ batchSize := by
  induction queue generalizing batch with
  | nil => simpa [drainLoop] using bounded.le
  | cons record queue ih =>
      simp only [drainLoop]
      split
      · simp only [List.length_append, List.length_cons, List.length_nil]
        omega
      · exact ih (by omega)

/-- `_drain` leaves its loop only when the queue is empty. -/
theorem drainLoop_rest {batchSize : ℕ} (queue batch : List (Record α))
    (outside : (drainLoop batchSize queue batch).2.2 = false) :
    (drainLoop batchSize queue batch).2.1 = [] := by
  induction queue generalizing batch with
  | nil => rfl
  | cons record queue ih =>
      simp only [drainLoop] at outside ⊢
      split at outside
      · simp at outside
      · rename_i small
        rw [if_neg small]
        exact ih _ outside

/-! ## Moves made by each part of a step -/

theorem ledger_loop {s : State α} {index : ℕ} (inside : index < s.tasks.length) :
    (s.loop index).ledger = s.ledgerWithout index := by
  simp only [loop]
  split
  · exact ledger_setTask_idle inside rfl rfl
  · have insideSpawned : index < (s.spawn (.getter (.pending .created))).tasks.length := by
      simp only [spawn, List.length_append]
      omega
    rw [enterCollect, ledger_setTask_idle insideSpawned rfl rfl,
      ledgerWithout_spawn inside rfl rfl]

/-- Passing a batch to `_write` is a move. -/
theorem writeBatch_moves {s : State α} {index maxBatch : ℕ} {batch : List (Record α)}
    (inside : index < s.tasks.length) (bounded : batch.length ≤ maxBatch) :
    Ledger.Moves maxBatch ((s.ledgerWithout index).addInHand ↑batch)
      (s.writeBatch index batch).ledger := by
  simp only [writeBatch]
  split
  · rename_i empty
    rw [List.isEmpty_iff.mp empty, ledger_loop inside]
    simpa [Ledger.addInHand] using Relation.ReflTransGen.refl
  · rename_i nonempty
    split
    · have passes := Ledger.moves_pass (s.ledgerWithout index)
        (fun empty => nonempty (List.isEmpty_iff.mpr empty)) bounded
      rw [ledger_setTask (s := beginWrite { s with locked := true } batch) inside]
      simpa [ledgerWithout, ledger, beginWrite, Task.inHand, Task.passed] using passes
    · rw [ledger_setTask (s := { s with waiters := s.waiters ++ [index] }) inside]
      simpa [ledgerWithout, ledger, Task.inHand, Task.passed, Ledger.addInHand] using
        Relation.ReflTransGen.refl

theorem takeResult_ledger (s : State α) (getter : ℕ) :
    s.ledger = (s.takeResult getter).2.ledger.addInHand ↑(s.takeResult getter).1 := by
  simp only [takeResult]
  split
  · rename_i record present
    rw [ledger_eq_without present,
      ledger_setTask_idle (List.getElem?_eq_some_iff.mp present).1 rfl rfl]
    simp [Task.inHand, Task.passed, Ledger.addInHand]
  · rename_i progress present
    rw [ledger_setTask_idle (List.getElem?_eq_some_iff.mp present).1 rfl rfl,
      ledgerWithout_eq present rfl rfl]
    simp [Ledger.addInHand]
  · simp [Ledger.addInHand]

@[simp]
theorem takeResult_queue (s : State α) (getter : ℕ) :
    (s.takeResult getter).2.queue = s.queue := by
  simp only [takeResult]
  split <;> rfl

theorem takeResult_length (s : State α) (getter : ℕ) : (s.takeResult getter).1.length ≤ 1 := by
  simp only [takeResult]
  split <;> simp

theorem takeResult_writer {s : State α} {index getter : ℕ}
    (present : s.tasks[index]? = some (.collecting getter)) :
    (s.takeResult getter).2.tasks[index]? = some (.collecting getter) := by
  have other : ∀ state, s.tasks[getter]? = some (.getter state) → getter ≠ index := by
    rintro state found rfl
    simp [present] at found
  simp only [takeResult]
  split
  · rename_i record found
    simpa [setTask, List.getElem?_set_ne (other _ found)] using present
  · rename_i progress found
    simpa [setTask, List.getElem?_set_ne (other _ found)] using present
  · exact present

/-- A writer that collects takes from the queue and passes a batch on. -/
theorem resumeCollect_moves {s : State α} {cfg : Config} {index getter : ℕ}
    (positive : 1 ≤ cfg.batchSize) (present : s.tasks[index]? = some (.collecting getter)) :
    Ledger.Moves cfg.batchSize s.ledger (s.resumeCollect cfg index getter).ledger := by
  have writer := takeResult_writer present
  have whole := takeResult_ledger s getter
  have single := takeResult_length s getter
  have sameQueue := takeResult_queue s getter
  simp only [resumeCollect, sameQueue]
  generalize (s.takeResult getter).1 = carried at whole single ⊢
  generalize (s.takeResult getter).2 = s₁ at writer whole ⊢
  have bounded := fillBatch_length s.queue (single.trans positive)
  obtain ⟨taken, filled, front⟩ := fillBatch_split cfg.batchSize s.queue carried
  generalize (fillBatch cfg.batchSize s.queue carried).1 = batch at bounded filled ⊢
  generalize (fillBatch cfg.batchSize s.queue carried).2 = rest at front ⊢
  have takes := Ledger.moves_take cfg.batchSize s.ledger taken rest front
  have writes := writeBatch_moves (s := s₁.setQueue rest)
    (List.getElem?_eq_some_iff.mp writer).1 bounded
  have joined : ({ s.ledger.addInHand ↑taken with queue := rest } : Ledger (Record α) Outcome) =
      ((s₁.setQueue rest).ledgerWithout index).addInHand ↑batch := by
    rw [ledgerWithout_eq (s := s₁.setQueue rest) writer rfl rfl, whole, filled]
    simp [Ledger.addInHand, ledger, setQueue, add_assoc]
  exact takes.trans (joined ▸ writes)

/-- A drain takes from the queue and passes a batch on. -/
theorem drain_moves {s : State α} {cfg : Config} {index : ℕ} (caller : Caller)
    (positive : 1 ≤ cfg.batchSize) (inside : index < s.tasks.length) :
    Ledger.Moves cfg.batchSize (s.ledgerWithout index) (s.drain cfg index caller).ledger := by
  have bounded : (drainLoop cfg.batchSize s.queue []).1.length ≤ cfg.batchSize :=
    drainLoop_length s.queue positive
  obtain ⟨taken, full, front⟩ := drainLoop_split cfg.batchSize s.queue []
  rw [List.nil_append] at full
  subst full
  simp only [drain]
  generalize (drainLoop cfg.batchSize s.queue []).1 = batch at bounded front ⊢
  generalize (drainLoop cfg.batchSize s.queue []).2.1 = rest at front ⊢
  have takes := Ledger.moves_take cfg.batchSize (s.ledgerWithout index) batch rest front
  apply takes.trans
  split
  · rename_i empty
    rw [ledger_setTask_idle (s := s.setQueue rest) inside rfl rfl, List.isEmpty_iff.mp empty]
    simpa [ledgerWithout, ledger, setQueue, Ledger.addInHand] using Relation.ReflTransGen.refl
  · rename_i nonempty
    have passes := Ledger.moves_pass { s.ledgerWithout index with queue := rest }
      (fun empty => nonempty (List.isEmpty_iff.mpr empty)) bounded
    rw [ledger_setTask (s := (s.setQueue rest).beginWrite batch) inside]
    simpa [ledgerWithout, ledger, beginWrite, setQueue, Task.inHand, Task.passed,
      Ledger.addInHand] using passes

/-- The end of a write settles the batch, as written or as failed. -/
theorem finishWrite_moves {s : State α} {index : ℕ} {task : Task α} (maxBatch : ℕ)
    (present : s.tasks[index]? = some task) (noneInHand : task.inHand = []) (committed : Bool) :
    Ledger.Moves maxBatch s.ledger
      ((s.finishWrite task.passed committed).ledgerWithout index) := by
  rw [ledger_eq_without present]
  refine .single ?_
  cases committed with
  | true =>
      have settle : Ledger.Move maxBatch _ _ := .settle
        { s.ledgerWithout index with
          inHand := (s.ledgerWithout index).inHand + ↑task.inHand
          passed := (s.ledgerWithout index).passed + ↑task.passed }
        task.passed (s.ledgerWithout index).passed .written (add_comm _ _)
      simpa [ledgerWithout, ledger, finishWrite, noneInHand] using settle
  | false =>
      have settle : Ledger.Move maxBatch _ _ := .settle
        { s.ledgerWithout index with
          inHand := (s.ledgerWithout index).inHand + ↑task.inHand
          passed := (s.ledgerWithout index).passed + ↑task.passed }
        task.passed (s.ledgerWithout index).passed .failed (add_comm _ _)
      simpa [ledgerWithout, ledger, finishWrite, noneInHand] using settle

theorem getNowait_nil {s : State α} (empty : s.queue = []) : s.getNowait = none := by
  simp [getNowait, empty]

theorem getNowait_cons {s : State α} {record : Record α} {queue : List (Record α)}
    (front : s.queue = record :: queue) : s.getNowait = some (record, s.setQueue queue) := by
  simp [getNowait, front]

theorem resumeGet_moves {s : State α} {index maxBatch : ℕ} {progress : Pending}
    (present : s.tasks[index]? = some (.getter (.pending progress))) :
    Ledger.Moves maxBatch s.ledger (s.resumeGet index).ledger := by
  have inside := (List.getElem?_eq_some_iff.mp present).1
  have whole := ledgerWithout_eq present rfl rfl
  simp only [resumeGet]
  cases front : s.queue with
  | nil =>
      rw [getNowait_nil front]
      simp only
      rw [ledger_setTask_idle (s := s.addGetter index) inside rfl rfl]
      change Ledger.Moves maxBatch s.ledger (s.ledgerWithout index)
      rw [whole]
  | cons record queue =>
      have takes := Ledger.moves_take maxBatch s.ledger [record] queue front
      rw [getNowait_cons front]
      simp only
      rw [ledger_setTask (s := s.setQueue queue) inside]
      change Ledger.Moves maxBatch s.ledger
        { s.ledgerWithout index with
          queue := queue
          inHand := (s.ledgerWithout index).inHand + ↑[record]
          passed := (s.ledgerWithout index).passed + ↑([] : List (Record α)) }
      rw [whole]
      simpa [Ledger.addInHand] using takes

theorem ledger_cancelGet {s : State α} {index : ℕ} {progress : Pending}
    (present : s.tasks[index]? = some (.getter (.cancelling progress))) :
    (s.cancelGet index progress).ledger = s.ledger := by
  have cancelled : (s.setTask index (.getter .cancelled)).ledger = s.ledger := by
    rw [ledger_setTask_idle (List.getElem?_eq_some_iff.mp present).1 rfl rfl,
      ledgerWithout_eq present rfl rfl]
  simp only [cancelGet]
  cases progress with
  | created => exact cancelled
  | waiting => exact cancelled
  | woken =>
      simp only
      split
      · exact cancelled
      · rw [ledger_wakeupNext, cancelled]

theorem putNowait_ledger {s after : State α} {cfg : Config} {record : Record α}
    (put : s.putNowait cfg record = some after) :
    after.ledger =
      { s.ledger with accepted := s.accepted ++ [record], queue := s.queue ++ [record] } := by
  simp only [putNowait] at put
  split at put
  · cases put
  · simp only [Option.some.injEq] at put
    rw [← put, ledger_wakeupNext]
    rfl

/-- The next record is a new object. -/
def Numbered (s : State α) : Prop :=
  ∀ record ∈ s.accepted, record.ident < s.accepted.length

theorem putNowait_moves {s after : State α} {cfg : Config} {maxBatch : ℕ} {fields : α}
    (numbered : s.Numbered)
    (put : s.putNowait cfg ⟨s.accepted.length, fields⟩ = some after) :
    Ledger.Moves maxBatch s.ledger after.ledger := by
  rw [putNowait_ledger put]
  refine .single (.accept s.ledger _ ?_)
  intro known
  exact absurd (numbered _ known) (lt_irrefl _)

theorem dropOldest_moves (s : State α) {maxBatch : ℕ} :
    Ledger.Moves maxBatch s.ledger s.dropOldest.ledger := by
  simp only [dropOldest]
  cases front : s.queue with
  | nil => rw [getNowait_nil front]
  | cons oldest queue =>
      rw [getNowait_cons front]
      exact .single (.discard s.ledger oldest queue .dropped front)

@[simp]
theorem accepted_dropOldest (s : State α) : s.dropOldest.accepted = s.accepted := by
  simp only [dropOldest, getNowait]
  cases s.queue <;> rfl

theorem record_moves {s : State α} (cfg : Config) {maxBatch : ℕ} (numbered : s.Numbered)
    (fields : α) : Ledger.Moves maxBatch s.ledger (s.record cfg fields).ledger := by
  unfold record
  split
  · exact .refl
  · simp only
    split
    · rename_i after put
      change Ledger.Moves maxBatch s.ledger after.ledger
      exact putNowait_moves numbered put
    · -- The queue is full: the oldest record makes room for the new one.
      apply (dropOldest_moves s).trans
      split
      · rename_i after put
        change Ledger.Moves maxBatch s.dropOldest.ledger after.ledger
        rw [← accepted_dropOldest s] at put
        exact putNowait_moves (by simpa [Numbered] using numbered) put
      · exact .refl

end State

/-- A batch waiting for the lock has a size that `_write` may be given. -/
def Task.Batched (maxBatch : ℕ) : Task α → Prop
  | .acquiring batch => batch ≠ [] ∧ batch.length ≤ maxBatch
  | _ => True

namespace State

/-- A resumed task makes moves only. -/
theorem Resumed.moves {s after : State α} {cfg : Config} {index : ℕ} {committed : Bool}
    {task : Task α} (positive : 1 ≤ cfg.batchSize)
    (batched : ∀ task ∈ s.tasks, task.Batched cfg.batchSize)
    (present : s.tasks[index]? = some task)
    (resumed : Resumed cfg s index committed task after) :
    Ledger.Moves cfg.batchSize s.ledger after.ledger := by
  have inside := (List.getElem?_eq_some_iff.mp present).1
  cases resumed with
  | enter =>
      have insideSpawned : index < (s.spawn (.getter (.pending .created))).tasks.length := by
        simp only [spawn, List.length_append]
        omega
      rw [enterCollect, ledger_setTask_idle insideSpawned rfl rfl,
        ledgerWithout_spawn inside rfl rfl, ledgerWithout_eq present rfl rfl]
  | collect getter => exact resumeCollect_moves positive present
  | acquire batch offered =>
      have fits : batch ≠ [] ∧ batch.length ≤ cfg.batchSize :=
        batched _ (List.mem_of_getElem? present)
      have passes := Ledger.moves_pass (s.ledgerWithout index) fits.1 fits.2
      rw [ledger_setTask
        (s := beginWrite { s with locked := true, waiters := s.waiters.tail } batch) inside,
        ledger_eq_without present]
      simpa [ledgerWithout, ledger, beginWrite, Task.inHand, Task.passed,
        Ledger.addInHand] using passes
  | write batch =>
      have settles := finishWrite_moves cfg.batchSize present rfl committed
      rwa [ledger_loop (s := { s.finishWrite batch committed with locked := false })
        (by cases committed <;> exact inside)]
  | get progress => exact resumeGet_moves present
  | cancel progress => rw [ledger_cancelGet present]
  | flush before offered =>
      have drains := drain_moves (s := { s with waiters := s.waiters.tail })
        (.flush before) positive inside
      rwa [ledgerWithout_eq (s := { s with waiters := s.waiters.tail }) present rfl rfl]
        at drains
  | stop writer exited =>
      have drains := drain_moves (s := { s with task := none, stopping := false })
        .stop positive inside
      rwa [ledgerWithout_eq (s := { s with task := none, stopping := false }) present rfl rfl]
        at drains
  | drainOn caller batch =>
      have settles := finishWrite_moves cfg.batchSize present rfl committed
      exact settles.trans (drain_moves caller positive (by cases committed <;> exact inside))
  | drainEnd caller batch =>
      have settles := finishWrite_moves cfg.batchSize present rfl committed
      rwa [ledger_setTask_idle (by cases committed <;> exact inside) rfl rfl]

/-- Every step of the service is a sequence of moves of its ledger. -/
theorem step_moves {s after : State α} {cfg : Config} {event : Event α}
    (positive : 1 ≤ cfg.batchSize) (numbered : s.Numbered)
    (batched : ∀ task ∈ s.tasks, task.Batched cfg.batchSize)
    (taken : s.step cfg event = some after) :
    Ledger.Moves cfg.batchSize s.ledger after.ledger := by
  have drainNew : ∀ caller, Ledger.Moves cfg.batchSize s.ledger
      ((s.spawn (.returned caller)).drain cfg s.tasks.length caller).ledger := by
    intro caller
    have present : (s.spawn (.returned caller)).tasks[s.tasks.length]? =
        some (.returned caller) := by simp [spawn]
    have drains := drain_moves caller positive (List.getElem?_eq_some_iff.mp present).1
    rwa [ledgerWithout_eq present rfl rfl, ledger_spawn rfl rfl] at drains
  rcases step_cases taken with ⟨fields, rfl, rfl⟩ | ⟨rfl, rfl⟩ | ⟨rfl, rfl⟩ | ⟨rfl, rfl⟩ |
    ⟨index, committed, task, rfl, present, resumed⟩
  · exact record_moves cfg numbered fields
  · simp only [start]
    split
    · exact .refl
    · rw [ledger_spawn rfl rfl]
      exact .refl
  · simp only [stop]
    split
    · rw [ledger_spawn rfl rfl]
      exact .refl
    · exact drainNew .stop
  · simp only [flush]
    split
    · exact drainNew _
    · rw [ledger_spawn rfl rfl]
      exact .refl
  · exact resumed.moves positive batched present

end State

end VisionApi.Audit
