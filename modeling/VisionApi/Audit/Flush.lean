import VisionApi.Audit.Conservation

/-!
# What `flush` waits for

`flush` takes and releases `_write_lock` once and drains the queue without it,
so a record that another task holds at that moment, or takes from the queue
while the drain suspends, may still be on its way when `flush` returns.  The
tasks that run `flush` are followed here from one step to the next, which gives
the exact condition under which a flush that returns is complete.

A task that runs `flush` carries the number of records accepted when it was called.
`Origin` lists where such a task can come from in one step, and all other steps leave
the flushing tasks as they are (`KeepsFlushes`), which is proved once for each
operation of the service.

A flush passes at the step in which its drain finds the queue empty and nothing to
write.  What it was to write then is settled, or is held by another task
(`held_of_passes`), and this is the exact condition for one return.  For whole runs,
`Covers` says of each flush on its way that what it has not yet seen settled is still
in the queue or in its own hands; it is kept as long as no other task takes a record
while a flush is on its way.
-/

namespace VisionApi.Audit

open Foundation

universe u

variable {α : Type u}

/-- The number of accepted records that a caller waits for, if it is a flush. -/
def Caller.flushing : Caller → Option ℕ
  | .flush before => some before
  | .stop => none

/-- For a task that runs `flush`, the number of records accepted before the call. -/
def Task.flushing : Task α → Option ℕ
  | .flushAcquiring before => some before
  | .draining caller _ _ => caller.flushing
  | .returned caller => caller.flushing
  | _ => none

namespace State

/-- The records held by tasks. -/
def held (s : State α) : List (Record α) :=
  s.tasks.flatMap fun task => task.inHand ++ task.passed

/-- The records held by tasks other than the one at `index`. -/
def heldElsewhere (s : State α) (index : ℕ) : List (Record α) :=
  (s.tasks.eraseIdx index).flatMap fun task => task.inHand ++ task.passed

/-- The first `before` records are all settled, and none is queued or held by a task. -/
def Complete (s : State α) (before : ℕ) : Prop :=
  ∀ record ∈ s.accepted.take before,
    record ∈ s.settled.map Prod.snd ∧ record ∉ s.queue ∧ record ∉ s.held

/-- The task that a step lets past the `_write_lock` of `flush`, with the number of records
accepted before its call. -/
def passes (s : State α) : Event α → Option (ℕ × ℕ)
  | .flush => if s.lockFree then some (s.tasks.length, s.accepted.length) else none
  | .resume index _ =>
      match s.tasks[index]? with
      | some (.flushAcquiring before) => some (index, before)
      | _ => none
  | _ => none

/-- The task that takes records off the queue in a step. -/
def taker (s : State α) : Event α → Option ℕ
  | .stop => if s.task.isNone then some s.tasks.length else none
  | .flush => if s.lockFree then some s.tasks.length else none
  | .resume index _ =>
      match s.tasks[index]? with
      | some (.collecting _) | some (.getter (.pending _)) | some (.flushAcquiring _)
      | some (.stopAwaiting _) | some (.draining _ _ true) => some index
      | _ => none
  | .record _ | .start => none

/-- When a flush passes the lock no other task holds an earlier record, and while it drains
no other task takes an earlier record off the queue. -/
structure Undisturbed (s : State α) (event : Event α) : Prop where
  passing : ∀ index before, s.passes event = some (index, before) →
    ∀ record ∈ s.accepted.take before, record ∉ s.heldElsewhere index
  draining : ∀ index before batch inLoop,
    s.tasks[index]? = some (.draining (.flush before) batch inLoop) →
      ∀ other, s.taker event = some other → other ≠ index →
        ∀ record ∈ s.queue, record ∉ s.accepted.take before

/-- A record in hand or on its way to the database. -/
theorem mem_held {s : State α} {record : Record α} :
    record ∈ s.held ↔ record ∈ s.ledger.inHand ∨ record ∈ s.ledger.passed := by
  rw [← Multiset.mem_add]
  change _ ↔ record ∈ heldBy Task.inHand s.tasks + heldBy Task.passed s.tasks
  rw [← heldBy_both]
  exact Multiset.mem_coe.symm

/-- A flush is complete exactly if what was accepted before it is settled. -/
theorem complete_iff {s : State α} {maxBatch before : ℕ} (sound : s.ledger.Sound maxBatch) :
    s.Complete before ↔
      ∀ record ∈ s.accepted.take before, record ∈ s.settled.map Prod.snd := by
  constructor
  · intro complete record early
    exact (complete record early).1
  · intro settled record early
    have nowhere := (sound.settled_iff (List.mem_of_mem_take early)).mp (settled record early)
    rw [mem_held, not_or]
    exact ⟨settled record early, nowhere⟩

/-! ## Tasks that run `flush` -/

/-- A step or a part of a step after which no further task runs `flush`. -/
def KeepsFlushes (s after : State α) : Prop :=
  ∀ (index : ℕ) (task : Task α), task.flushing.isSome → after.tasks[index]? = some task →
    s.tasks[index]? = some task

namespace KeepsFlushes

variable {s after last : State α}

theorem of_tasks (same : after.tasks = s.tasks) : KeepsFlushes s after := by
  intro index task _ found
  rwa [same] at found

theorem trans (first : KeepsFlushes s after) (second : KeepsFlushes after last) :
    KeepsFlushes s last :=
  fun index task flushing found => first index task flushing (second index task flushing found)

theorem of_same (second : KeepsFlushes after last) (same : after.tasks = s.tasks) :
    KeepsFlushes s last :=
  (of_tasks same).trans second

theorem setTask (index : ℕ) {task : Task α} (other : task.flushing = none) :
    KeepsFlushes s (s.setTask index task) := by
  intro position found flushing present
  simp only [State.setTask, List.getElem?_set] at present
  split at present
  · split at present
    · rw [← Option.some.inj present, other] at flushing
      simp at flushing
    · cases present
  · exact present

theorem spawn {task : Task α} (other : task.flushing = none) :
    KeepsFlushes s (s.spawn task) := by
  intro position found flushing present
  simp only [State.spawn, List.getElem?_append] at present
  split at present
  · exact present
  · have isNew := List.mem_singleton.mp (List.mem_of_getElem? present)
    rw [isNew, other] at flushing
    simp at flushing

theorem wakeupNext (waiters : List ℕ) : KeepsFlushes s (s.wakeupNext waiters) := by
  induction waiters with
  | nil => exact of_tasks rfl
  | cons waiter waiters ih =>
      simp only [State.wakeupNext]
      split
      · exact of_same (setTask waiter rfl) rfl
      · exact ih

theorem loop (index : ℕ) : KeepsFlushes s (s.loop index) := by
  simp only [State.loop]
  split
  · exact setTask index rfl
  · exact (spawn rfl).trans (setTask index rfl)

theorem takeResult (getter : ℕ) : KeepsFlushes s (s.takeResult getter).2 := by
  simp only [State.takeResult]
  split
  · exact setTask getter rfl
  · exact setTask getter rfl
  · exact of_tasks rfl

theorem writeBatch (index : ℕ) (batch : List (Record α)) :
    KeepsFlushes s (s.writeBatch index batch) := by
  simp only [State.writeBatch]
  split
  · exact loop index
  · split
    · exact of_same (setTask index rfl) rfl
    · exact of_same (setTask index rfl) rfl

theorem resumeCollect (cfg : Config) (index getter : ℕ) :
    KeepsFlushes s (s.resumeCollect cfg index getter) :=
  (takeResult getter).trans (of_same (writeBatch index _) rfl)

theorem resumeGet (index : ℕ) : KeepsFlushes s (s.resumeGet index) := by
  simp only [State.resumeGet, getNowait]
  split
  · exact of_same (setTask index rfl) rfl
  · rename_i taken
    split at taken
    · cases taken
    · simp only [Option.some.injEq, Prod.mk.injEq] at taken
      rw [← taken.2]
      exact of_same (setTask index rfl) rfl

theorem cancelGet (index : ℕ) (progress : Pending) :
    KeepsFlushes s (s.cancelGet index progress) := by
  have cancelled : KeepsFlushes s (s.setTask index (.getter .cancelled)) := setTask index rfl
  simp only [State.cancelGet]
  cases progress with
  | created => exact cancelled
  | waiting => exact cancelled.trans (of_tasks rfl)
  | woken =>
      simp only
      split
      · exact cancelled
      · exact cancelled.trans (wakeupNext _)

theorem putNowait {cfg : Config} {record : Record α} (put : s.putNowait cfg record = some after) :
    KeepsFlushes s after := by
  simp only [State.putNowait] at put
  split at put
  · cases put
  · simp only [Option.some.injEq] at put
    rw [← put]
    exact of_same (wakeupNext _) rfl

theorem dropOldest (s : State α) : KeepsFlushes s s.dropOldest := by
  simp only [State.dropOldest, getNowait]
  cases s.queue <;> exact of_tasks rfl

theorem record (s : State α) (cfg : Config) (fields : α) :
    KeepsFlushes s (s.record cfg fields) := by
  unfold State.record
  split
  · exact of_tasks rfl
  · simp only
    split
    · rename_i put
      exact (putNowait put).trans (of_tasks rfl)
    · split
      · rename_i put
        exact (dropOldest s).trans ((putNowait put).trans (of_tasks rfl))
      · exact dropOldest s

theorem start (s : State α) (cfg : Config) : KeepsFlushes s (s.start cfg) := by
  simp only [State.start]
  split
  · exact of_tasks rfl
  · exact of_same (spawn rfl) rfl

end KeepsFlushes

theorem finishWrite_tasks (s : State α) (batch : List (Record α)) (committed : Bool) :
    (s.finishWrite batch committed).tasks = s.tasks := by
  cases committed <;> rfl

theorem finishWrite_queue (s : State α) (batch : List (Record α)) (committed : Bool) :
    (s.finishWrite batch committed).queue = s.queue := by
  cases committed <;> rfl

/-- Once its commit has ended, a batch is settled. -/
theorem mem_settled_finishWrite {s : State α} {batch : List (Record α)} {committed : Bool}
    {record : Record α} :
    record ∈ (s.finishWrite batch committed).settled.map Prod.snd ↔
      record ∈ s.settled.map Prod.snd ∨ record ∈ batch := by
  cases committed <;> simp [finishWrite, List.map_map, Function.comp_def]

theorem drainLoop_cons_ne_nil (batchSize : ℕ) (record : Record α) (queue : List (Record α)) :
    (drainLoop batchSize (record :: queue) []).1 ≠ [] := by
  simp only [drainLoop]
  split
  · simp
  · obtain ⟨taken, full, _⟩ := drainLoop_split batchSize queue ([] ++ [record])
    rw [full]
    simp

/-- What a `_drain` does up to its next commit or its return. -/
theorem drain_cases (s : State α) (cfg : Config) (index : ℕ) (caller : Caller) :
    (s.drain cfg index caller).accepted = s.accepted ∧
      (s.drain cfg index caller).settled = s.settled ∧
      (((s.drain cfg index caller).queue = [] ∧ s.queue = [] ∧
          (s.drain cfg index caller).tasks = s.tasks.set index (.returned caller)) ∨
        ∃ batch inLoop, s.queue = batch ++ (s.drain cfg index caller).queue ∧
          (inLoop = false → (s.drain cfg index caller).queue = []) ∧
          (s.drain cfg index caller).tasks =
            s.tasks.set index (.draining caller batch inLoop)) := by
  have emptied : (drainLoop cfg.batchSize s.queue []).2.2 = false →
      (drainLoop cfg.batchSize s.queue []).2.1 = [] := drainLoop_rest s.queue []
  obtain ⟨taken, full, front⟩ := drainLoop_split cfg.batchSize s.queue []
  rw [List.nil_append] at full
  subst full
  have waiting : (drainLoop cfg.batchSize s.queue []).1 = [] → s.queue = [] := by
    intro none
    cases present : s.queue with
    | nil => rfl
    | cons record queue =>
        rw [present] at none
        exact absurd none (drainLoop_cons_ne_nil cfg.batchSize record queue)
  simp only [drain]
  generalize (drainLoop cfg.batchSize s.queue []).1 = batch at front waiting ⊢
  generalize (drainLoop cfg.batchSize s.queue []).2.1 = rest at front emptied ⊢
  generalize (drainLoop cfg.batchSize s.queue []).2.2 = inLoop at emptied ⊢
  split
  · rename_i none
    have idle := waiting (List.isEmpty_iff.mp none)
    have bare : rest = [] := by
      rw [idle] at front
      exact (List.append_eq_nil_iff.mp front.symm).2
    exact ⟨rfl, rfl, .inl ⟨bare, idle, rfl⟩⟩
  · exact ⟨rfl, rfl, .inr ⟨batch, inLoop, front, emptied, rfl⟩⟩

/-- How the task at `index` comes to run `flush` after a step. -/
inductive Origin (cfg : Config) (s : State α) (event : Event α) (after : State α) (index : ℕ) :
    Task α → Prop where
  | kept (task : Task α) (present : s.tasks[index]? = some task)
      (idle : s.taker event ≠ some index) : Origin cfg s event after index task
  | called : Origin cfg s event after index (.flushAcquiring s.accepted.length)
  | began (task : Task α) (base : State α) (before : ℕ)
      (passing : s.passes event = some (index, before))
      (inside : index < base.tasks.length) (sameOthers : base.tasks.eraseIdx index =
        s.tasks.eraseIdx index) (sameQueue : base.queue = s.queue)
      (sameSettled : base.settled = s.settled) (sameAccepted : base.accepted = s.accepted)
      (drained : after = base.drain cfg index (.flush before))
      (present : after.tasks[index]? = some task) : Origin cfg s event after index task
  | resumed (task : Task α) (caller : Caller) (batch : List (Record α)) (committed : Bool)
      (suspended : s.tasks[index]? = some (.draining caller batch true))
      (drained : after = (s.finishWrite batch committed).drain cfg index caller)
      (present : after.tasks[index]? = some task) : Origin cfg s event after index task
  | finished (caller : Caller) (batch : List (Record α)) (committed : Bool)
      (suspended : s.tasks[index]? = some (.draining caller batch false))
      (ended : after = (s.finishWrite batch committed).setTask index (.returned caller)) :
      Origin cfg s event after index (.returned caller)

theorem drain_others {s : State α} {cfg : Config} {index position : ℕ} {caller : Caller}
    {task : Task α} (other : position ≠ index)
    (present : (s.drain cfg index caller).tasks[position]? = some task) :
    s.tasks[position]? = some task := by
  obtain ⟨_, _, ⟨_, _, tasks⟩ | ⟨batch, inLoop, _, _, tasks⟩⟩ := drain_cases s cfg index caller
  · rwa [tasks, List.getElem?_set_ne other.symm] at present
  · rwa [tasks, List.getElem?_set_ne other.symm] at present

/-- The task that runs a `_drain` has returned to its caller or waits for a commit. -/
theorem drain_self {s : State α} {cfg : Config} {index : ℕ} {caller : Caller} {task : Task α}
    (inside : index < s.tasks.length)
    (present : (s.drain cfg index caller).tasks[index]? = some task) :
    (task = .returned caller ∧ s.queue = [] ∧ (s.drain cfg index caller).queue = []) ∨
      ∃ batch inLoop, task = .draining caller batch inLoop ∧
        s.queue = batch ++ (s.drain cfg index caller).queue ∧
        (inLoop = false → (s.drain cfg index caller).queue = []) := by
  obtain ⟨_, _, ⟨rest, idle, tasks⟩ | ⟨batch, inLoop, front, rest, tasks⟩⟩ :=
    drain_cases s cfg index caller
  · rw [tasks, List.getElem?_set_self inside] at present
    exact .inl ⟨(Option.some.inj present).symm, idle, rest⟩
  · rw [tasks, List.getElem?_set_self inside] at present
    exact .inr ⟨batch, inLoop, (Option.some.inj present).symm, front, rest⟩

theorem drain_emptied {s : State α} {cfg : Config} {index : ℕ} {caller other : Caller}
    {batch : List (Record α)} (inside : index < s.tasks.length)
    (present : (s.drain cfg index caller).tasks[index]? = some (.draining other batch false)) :
    (s.drain cfg index caller).queue = [] := by
  rcases drain_self inside present with ⟨ended, _⟩ | ⟨_, inLoop, same, _, emptied⟩
  · cases ended
  · cases same
    exact emptied rfl

/-- A drain goes on for the caller that began it. -/
theorem drain_flushing {s : State α} {cfg : Config} {index : ℕ} {caller : Caller} {task : Task α}
    (inside : index < s.tasks.length)
    (present : (s.drain cfg index caller).tasks[index]? = some task) :
    task.flushing = caller.flushing := by
  rcases drain_self inside present with ⟨rfl, _⟩ | ⟨batch, inLoop, rfl, _⟩ <;> rfl

theorem getElem?_spawn {s : State α} {task other : Task α} {position : ℕ}
    (present : (s.spawn task).tasks[position]? = some other) :
    (position < s.tasks.length ∧ s.tasks[position]? = some other) ∨
      (position = s.tasks.length ∧ other = task) := by
  simp only [spawn, List.getElem?_append] at present
  split at present
  · rename_i old
    exact .inl ⟨old, present⟩
  · rename_i new
    obtain ⟨first, _⟩ := List.getElem?_eq_some_iff.mp present
    rw [List.length_singleton] at first
    have isNew := List.mem_singleton.mp (List.mem_of_getElem? present)
    exact .inr ⟨by omega, isNew⟩

/-- Where the flushes after a resumed task come from. -/
theorem origin_of_resumed {cfg : Config} {s after : State α} {index position : ℕ}
    {committed : Bool} {task found : Task α} (present : s.tasks[index]? = some task)
    (resumed : Resumed cfg s index committed task after)
    (here : after.tasks[position]? = some found) (flushing : found.flushing.isSome) :
    Origin cfg s (.resume index committed) after position found := by
  have inside := (List.getElem?_eq_some_iff.mp present).1
  have keep : s.KeepsFlushes after → task.flushing = none →
      Origin cfg s (.resume index committed) after position found := by
    intro keeps other
    have old := keeps position found flushing here
    refine .kept found old ?_
    intro taking
    have same : index = position := by
      simp only [taker, present] at taking
      split at taking <;> simp_all
    subst same
    rw [present] at old
    rw [← Option.some.inj old, other] at flushing
    simp at flushing
  have elsewhere : position ≠ index → s.tasks[position]? = some found →
      Origin cfg s (.resume index committed) after position found := by
    intro apart old
    refine .kept found old ?_
    intro taking
    simp only [taker, present] at taking
    split at taking <;> simp_all
  cases resumed with
  | enter => exact keep ((KeepsFlushes.spawn rfl).trans (KeepsFlushes.setTask index rfl)) rfl
  | collect getter => exact keep (KeepsFlushes.resumeCollect cfg index getter) rfl
  | acquire batch offered => exact keep (.of_same (KeepsFlushes.setTask index rfl) rfl) rfl
  | write batch =>
      exact keep (.of_same (KeepsFlushes.loop index) (by cases committed <;> rfl)) rfl
  | get progress => exact keep (KeepsFlushes.resumeGet index) rfl
  | cancel progress => exact keep (KeepsFlushes.cancelGet index progress) rfl
  | flush before offered =>
      rcases eq_or_ne position index with rfl | apart
      · exact .began found { s with waiters := s.waiters.tail } before (by simp [passes, present])
          inside rfl rfl rfl rfl rfl here
      · exact elsewhere apart (drain_others (s := { s with waiters := s.waiters.tail }) apart here)
  | stop writer exited =>
      rcases eq_or_ne position index with rfl | apart
      · rw [drain_flushing (s := { s with task := none, stopping := false }) inside here]
          at flushing
        simp [Caller.flushing] at flushing
      · exact elsewhere apart
          (drain_others (s := { s with task := none, stopping := false }) apart here)
  | drainOn caller batch =>
      rcases eq_or_ne position index with rfl | apart
      · exact .resumed found caller batch committed present rfl here
      · exact elsewhere apart (by rw [← finishWrite_tasks s batch committed]
                                  exact drain_others apart here)
  | drainEnd caller batch =>
      simp only [setTask, finishWrite_tasks] at here
      rcases eq_or_ne position index with rfl | apart
      · rw [List.getElem?_set_self inside] at here
        rw [← Option.some.inj here]
        exact .finished caller batch committed present rfl
      · exact elsewhere apart (by rwa [List.getElem?_set_ne apart.symm] at here)

theorem origin_of_stop {cfg : Config} {s : State α} {position : ℕ} {found : Task α}
    (here : (s.stop cfg).tasks[position]? = some found) (flushing : found.flushing.isSome) :
    Origin cfg s .stop (s.stop cfg) position found := by
  cases writer : s.task with
  | some index =>
      have idle : s.taker .stop ≠ some position := by simp [taker, writer]
      simp only [stop, writer] at here ⊢
      exact .kept found (KeepsFlushes.spawn rfl position found flushing here) idle
  | none =>
      have acting : s.taker .stop = some s.tasks.length := by simp [taker, writer]
      simp only [stop, writer] at here ⊢
      rcases eq_or_ne position s.tasks.length with rfl | apart
      · rw [drain_flushing (by simp [spawn]) here] at flushing
        simp [Caller.flushing] at flushing
      · rcases getElem?_spawn (drain_others apart here) with ⟨_, old⟩ | ⟨same, _⟩
        · exact .kept found old (by rw [acting]; simpa using apart.symm)
        · exact absurd same apart

theorem origin_of_flush {cfg : Config} {s : State α} {position : ℕ} {found : Task α}
    (here : (s.flush cfg).tasks[position]? = some found) (flushing : found.flushing.isSome) :
    Origin cfg s .flush (s.flush cfg) position found := by
  simp only [flush] at here ⊢
  split at here
  · rename_i free
    have acting : s.taker .flush = some s.tasks.length := by simp [taker, free]
    rw [if_pos free]
    rcases eq_or_ne position s.tasks.length with rfl | apart
    · refine .began found (s.spawn (.returned (.flush s.accepted.length))) s.accepted.length
        (by simp [passes, free]) (by simp [spawn]) ?_ rfl rfl rfl rfl here
      simp [spawn, List.eraseIdx_append_of_length_le, List.eraseIdx_of_length_le]
    · rcases getElem?_spawn (drain_others apart here) with ⟨_, old⟩ | ⟨same, _⟩
      · exact .kept found old (by rw [acting]; simpa using apart.symm)
      · exact absurd same apart
  · rename_i busy
    have idle : s.taker .flush ≠ some position := by simp [taker, busy]
    rw [if_neg busy]
    rcases getElem?_spawn here with ⟨_, old⟩ | ⟨_, rfl⟩
    · exact .kept found old idle
    · exact .called

/-- Every task that runs `flush` after a step is accounted for. -/
theorem origin_of_step {cfg : Config} {s after : State α} {event : Event α} {position : ℕ}
    {found : Task α} (taken : s.step cfg event = some after)
    (here : after.tasks[position]? = some found) (flushing : found.flushing.isSome) :
    Origin cfg s event after position found := by
  rcases step_cases taken with ⟨fields, rfl, rfl⟩ | ⟨rfl, rfl⟩ | ⟨rfl, rfl⟩ | ⟨rfl, rfl⟩ |
    ⟨index, committed, task, rfl, present, resumed⟩
  · exact .kept found (KeepsFlushes.record s cfg fields position found flushing here)
      (by simp [taker])
  · exact .kept found (KeepsFlushes.start s cfg position found flushing here) (by simp [taker])
  · exact origin_of_stop here flushing
  · exact origin_of_flush here flushing
  · exact origin_of_resumed present resumed here flushing

/-! ## When a flush that returns is complete -/

/-- What every reachable state satisfies about its flushes. -/
structure FlushesWf (s : State α) : Prop where
  called : ∀ (index : ℕ) (task : Task α) (before : ℕ), s.tasks[index]? = some task →
    task.flushing = some before → before ≤ s.accepted.length
  emptied : ∀ (index before : ℕ) (batch : List (Record α)),
    s.tasks[index]? = some (.draining (.flush before) batch false) →
      ∀ record ∈ s.accepted.take before, record ∉ s.queue

/-- What was accepted before a call stays the same. -/
theorem take_accepted {s after : State α} {maxBatch before : ℕ}
    (moves : Ledger.Moves maxBatch s.ledger after.ledger) (called : before ≤ s.accepted.length) :
    after.accepted.take before = s.accepted.take before := by
  obtain ⟨more, grown⟩ : s.accepted <+: after.accepted := moves.accepted_grows
  rw [← grown, List.take_append_of_le_length called]

/-- A known record that waits in the queue has waited there before. -/
theorem mem_queue_of_moves {s after : State α} {maxBatch : ℕ} {record : Record α}
    (moves : Ledger.Moves maxBatch s.ledger after.ledger) (known : record ∈ s.accepted)
    (waiting : record ∈ after.queue) : record ∈ s.queue := by
  have origin : record ∈ s.queue ∨ record ∉ s.accepted := moves.mem_queue waiting
  rcases origin with old | new
  · exact old
  · exact absurd known new

/-- A flush passes the lock when it is called, or after it has waited for it. -/
theorem passes_cases {s : State α} {event : Event α} {index before : ℕ}
    (passing : s.passes event = some (index, before)) :
    (index = s.tasks.length ∧ before = s.accepted.length) ∨
      s.tasks[index]? = some (.flushAcquiring before) := by
  cases event with
  | record fields => simp [passes] at passing
  | start => simp [passes] at passing
  | stop => simp [passes] at passing
  | flush =>
      simp only [passes, Option.ite_none_right_eq_some, Option.some.injEq,
        Prod.mk.injEq] at passing
      exact Or.inl ⟨passing.2.1.symm, passing.2.2.symm⟩
  | resume task committed =>
      simp only [passes] at passing
      split at passing
      · rename_i waiting
        cases passing
        exact Or.inr waiting
      · cases passing

/-- A flush waits for no more records than were accepted. -/
theorem passes_le {s : State α} {event : Event α} {index before : ℕ} (wf : s.FlushesWf)
    (passing : s.passes event = some (index, before)) : before ≤ s.accepted.length := by
  rcases passes_cases passing with ⟨_, called⟩ | waiting
  · exact called.le
  · exact wf.called index _ before waiting rfl

/-- The tasks that flush stay well formed. -/
theorem FlushesWf.step {s after : State α} {cfg : Config} {event : Event α} {maxBatch : ℕ}
    (wf : s.FlushesWf) (moves : Ledger.Moves maxBatch s.ledger after.ledger)
    (taken : s.step cfg event = some after) : after.FlushesWf := by
  have grows : s.accepted.length ≤ after.accepted.length := moves.accepted_grows.length_le
  have called : ∀ (index : ℕ) (task : Task α) (before : ℕ), after.tasks[index]? = some task →
      task.flushing = some before → before ≤ s.accepted.length := by
    intro index task before present flushing
    cases origin_of_step taken present (by simp [flushing]) with
    | kept _ old => exact wf.called index task before old flushing
    | called => exact (Option.some.inj flushing).ge
    | began _ base call passing inside _ _ _ _ drained =>
        rw [drain_flushing inside (drained ▸ present)] at flushing
        exact Option.some.inj flushing ▸ passes_le wf passing
    | resumed _ caller batch committed suspended drained =>
        have inside := (List.getElem?_eq_some_iff.mp suspended).1
        rw [← finishWrite_tasks s batch committed] at inside
        rw [drain_flushing inside (drained ▸ present)] at flushing
        exact wf.called index _ before suspended flushing
    | finished caller batch committed suspended =>
        exact wf.called index _ before suspended flushing
  refine ⟨fun index task before present flushing =>
    (called index task before present flushing).trans grows,
    fun index before batch present record early waiting => ?_⟩
  have bound := called index _ before present rfl
  rw [take_accepted moves bound] at early
  have old := mem_queue_of_moves moves (List.mem_of_mem_take early) waiting
  cases origin_of_step taken present rfl with
  | kept _ suspended => exact wf.emptied index before batch suspended record early old
  | began _ base call passing inside _ _ _ _ drained =>
      rw [drained, drain_emptied inside (drained ▸ present)] at waiting
      cases waiting
  | resumed _ caller earlier committed suspended drained =>
      have inside := (List.getElem?_eq_some_iff.mp suspended).1
      rw [← finishWrite_tasks s earlier committed] at inside
      rw [drained, drain_emptied inside (drained ▸ present)] at waiting
      cases waiting

theorem flushesWf_initial : (State.initial α).FlushesWf where
  called := by simp [State.initial]
  emptied := by simp [State.initial]

theorem mem_heldElsewhere {s : State α} {index : ℕ} {record : Record α} :
    record ∈ s.heldElsewhere index ↔
      record ∈ (s.ledgerWithout index).inHand ∨ record ∈ (s.ledgerWithout index).passed := by
  rw [← Multiset.mem_add]
  change _ ↔ record ∈ heldBy Task.inHand _ + heldBy Task.passed _
  rw [← heldBy_both]
  exact Multiset.mem_coe.symm

/-- A flush at the lock holds nothing itself. -/
theorem held_of_passes {s : State α} {event : Event α} {index before : ℕ} {record : Record α}
    (passing : s.passes event = some (index, before)) (holding : record ∈ s.held) :
    record ∈ s.heldElsewhere index := by
  rcases passes_cases passing with ⟨isNew, _⟩ | waiting
  · rw [heldElsewhere, isNew, List.eraseIdx_of_length_le le_rfl]
    exact holding
  · rw [mem_heldElsewhere, ledgerWithout_eq waiting rfl rfl, ← mem_held]
    exact holding

/-- When a flush returns, the records of other tasks are untouched and no earlier record is
queued. -/
theorem returns {s after : State α} {cfg : Config} {event : Event α} {index before : ℕ}
    (wf : s.FlushesWf) (taken : s.step cfg event = some after)
    (running : s.tasks[index]? ≠ some (.returned (.flush before)))
    (returned : after.tasks[index]? = some (.returned (.flush before))) :
    after.heldElsewhere index = s.heldElsewhere index ∧
      before ≤ s.accepted.length ∧
      ∀ record ∈ s.accepted.take before, record ∉ after.queue := by
  cases origin_of_step taken returned rfl with
  | kept _ old => exact absurd old running
  | began _ base call passing inside sameOthers _ _ _ drained =>
      have flushing := drain_flushing inside (drained ▸ returned)
      simp only [Task.flushing, Caller.flushing, Option.some.injEq] at flushing
      obtain ⟨_, _, ⟨rest, _, tasks⟩ | ⟨batch, inLoop, _, _, tasks⟩⟩ :=
        drain_cases base cfg index (.flush call)
      · refine ⟨?_, flushing ▸ passes_le wf passing, ?_⟩
        · rw [heldElsewhere, drained, tasks, List.eraseIdx_set_eq, sameOthers, heldElsewhere]
        · rw [drained, rest]
          simp
      · rw [drained, tasks, List.getElem?_set_self inside] at returned
        cases returned
  | resumed _ caller batch committed suspended drained =>
      have inside := (List.getElem?_eq_some_iff.mp suspended).1
      rw [← finishWrite_tasks s batch committed] at inside
      have flushing := drain_flushing inside (drained ▸ returned)
      obtain ⟨_, _, ⟨rest, _, tasks⟩ | ⟨later, inLoop, _, _, tasks⟩⟩ :=
        drain_cases (s.finishWrite batch committed) cfg index caller
      · refine ⟨?_, wf.called index _ before suspended flushing.symm, ?_⟩
        · rw [heldElsewhere, drained, tasks, List.eraseIdx_set_eq, finishWrite_tasks,
            heldElsewhere]
        · rw [drained, rest]
          simp
      · rw [drained, tasks, List.getElem?_set_self inside] at returned
        cases returned
  | finished caller batch committed suspended ended =>
      refine ⟨?_, wf.called index _ before suspended rfl, fun record early => ?_⟩
      · rw [heldElsewhere, ended, setTask, finishWrite_tasks, List.eraseIdx_set_eq,
          heldElsewhere]
      · have gone := wf.emptied index before batch suspended record early
        rwa [ended, setTask, finishWrite_queue]

/-! ## Undisturbed flushes -/

/-- The first `before` records are settled, apart from those listed as pending. -/
def Settles (s : State α) (before : ℕ) (pending : List (Record α)) : Prop :=
  ∀ record ∈ s.accepted.take before, record ∈ s.settled.map Prod.snd ∨ record ∈ pending

/-- A flush past the lock still has to write what is left of the records before it. -/
def Covers (s : State α) : Task α → Prop
  | .draining (.flush before) batch true => s.Settles before (batch ++ s.queue)
  | .draining (.flush before) batch false => s.Settles before batch
  | .returned (.flush before) => s.Settles before []
  | _ => True

/-- Every flush past the lock is in charge of what is left to write. -/
def Covered (s : State α) : Prop :=
  ∀ (index : ℕ) (task : Task α), s.tasks[index]? = some task → s.Covers task

/-- A flush that drains on is covered if what it waits for was settled or in the queue. -/
theorem covers_drain {s : State α} {cfg : Config} {index before : ℕ} {task : Task α}
    (inside : index < s.tasks.length) (settles : s.Settles before s.queue)
    (present : (s.drain cfg index (.flush before)).tasks[index]? = some task) :
    (s.drain cfg index (.flush before)).Covers task := by
  obtain ⟨sameAccepted, sameSettled, _⟩ := drain_cases s cfg index (.flush before)
  rcases drain_self inside present with ⟨rfl, idle, _⟩ | ⟨batch, inLoop, rfl, front, rest⟩
  · intro record early
    rw [sameAccepted] at early
    rw [sameSettled]
    simpa [idle] using settles record early
  · cases inLoop with
    | true =>
        intro record early
        rw [sameAccepted] at early
        rw [sameSettled, ← front]
        exact settles record early
    | false =>
        intro record early
        rw [sameAccepted] at early
        rw [sameSettled]
        rw [rest rfl, List.append_nil] at front
        exact front ▸ settles record early

theorem queue_of_put {s after : State α} {cfg : Config} {record new : Record α}
    (put : s.putNowait cfg new = some after) (waiting : record ∈ s.queue) :
    record ∈ after.queue := by
  have grown : after.queue = s.queue ++ [new] := congrArg Ledger.queue (putNowait_ledger put)
  rw [grown]
  exact List.mem_append_left _ waiting

theorem queue_of_dropOldest {s : State α} {record : Record α} (waiting : record ∈ s.queue) :
    record ∈ s.dropOldest.queue ∨ record ∈ s.dropOldest.settled.map Prod.snd := by
  simp only [dropOldest]
  cases front : s.queue with
  | nil => simp [front] at waiting
  | cons oldest queue =>
      rw [getNowait_cons front]
      rw [front, List.mem_cons] at waiting
      rcases waiting with rfl | later
      · exact .inr (by simp)
      · exact .inl later

/-- A new record pushes out at most a record that is settled by that. -/
theorem queue_of_record {s : State α} {cfg : Config} {record : Record α} (fields : α)
    (waiting : record ∈ s.queue) :
    record ∈ (s.record cfg fields).queue ∨
      record ∈ (s.record cfg fields).settled.map Prod.snd := by
  unfold State.record
  split
  · exact .inl waiting
  · simp only
    split
    · rename_i after put
      have grown : record ∈ after.queue := queue_of_put put waiting
      exact .inl grown
    · split
      · rename_i after put
        have sameSettled : after.settled = s.dropOldest.settled :=
          congrArg Ledger.settled (putNowait_ledger put)
        rcases queue_of_dropOldest waiting with left | done
        · have grown : record ∈ after.queue := queue_of_put put left
          exact .inl grown
        · rw [← sameSettled] at done
          exact .inr done
      · exact queue_of_dropOldest waiting

/-- A step that takes nothing from the queue settles what it removes from it. -/
theorem queue_of_idle {s after : State α} {cfg : Config} {event : Event α}
    {record : Record α} (taken : s.step cfg event = some after) (idle : s.taker event = none)
    (waiting : record ∈ s.queue) :
    record ∈ after.queue ∨ record ∈ after.settled.map Prod.snd := by
  rcases step_cases taken with ⟨fields, rfl, rfl⟩ | ⟨rfl, rfl⟩ | ⟨rfl, rfl⟩ | ⟨rfl, rfl⟩ |
    ⟨index, committed, task, rfl, present, resumed⟩
  · exact queue_of_record fields waiting
  · left
    simp only [start]
    split <;> exact waiting
  · left
    simp only [taker, ite_eq_right_iff] at idle
    simp only [stop]
    split
    · exact waiting
    · rename_i none
      simp [none] at idle
  · left
    simp only [taker, ite_eq_right_iff] at idle
    simp only [flush]
    split
    · rename_i free
      exact absurd (idle free) (by simp)
    · exact waiting
  · left
    cases resumed with
    | enter => exact waiting
    | collect getter => simp [taker, present] at idle
    | acquire batch offered => exact waiting
    | write batch =>
        have inside := (List.getElem?_eq_some_iff.mp present).1
        rw [← finishWrite_tasks s batch committed] at inside
        have same := congrArg Ledger.queue
          (ledger_loop (s := { s.finishWrite batch committed with locked := false }) inside)
        change record ∈ (State.ledger _).queue
        rw [same]
        change record ∈ (s.finishWrite batch committed).queue
        rwa [finishWrite_queue]
    | get progress => simp [taker, present] at idle
    | cancel progress =>
        have same := congrArg Ledger.queue (ledger_cancelGet present)
        change record ∈ (State.ledger _).queue
        rw [same]
        exact waiting
    | flush before offered => simp [taker, present] at idle
    | stop writer exited => simp [taker, present] at idle
    | drainOn caller batch => simp [taker, present] at idle
    | drainEnd caller batch =>
        change record ∈ (s.finishWrite batch committed).queue
        rwa [finishWrite_queue]

/-- A flush that is not resumed stays covered in an undisturbed step. -/
theorem covers_kept {s after : State α} {cfg : Config} {event : Event α} {maxBatch index : ℕ}
    {task : Task α} (wf : s.FlushesWf) (moves : Ledger.Moves maxBatch s.ledger after.ledger)
    (undisturbed : s.Undisturbed event) (taken : s.step cfg event = some after)
    (present : s.tasks[index]? = some task) (idle : s.taker event ≠ some index)
    (covered : s.Covers task) : after.Covers task := by
  have more : ∀ record ∈ s.settled.map Prod.snd, record ∈ after.settled.map Prod.snd :=
    (moves.settled_grows.map Prod.snd).subset
  cases task with
  | draining caller batch inLoop =>
      cases caller with
      | stop => trivial
      | flush before =>
          have bound := wf.called index _ before present rfl
          cases inLoop with
          | true =>
              intro record early
              rw [take_accepted moves bound] at early
              rw [List.mem_append]
              rcases covered record early with done | pending
              · exact .inl (more record done)
              · rcases List.mem_append.mp pending with written | waiting
                · exact .inr (.inl written)
                · cases acting : s.taker event with
                  | none =>
                      rcases queue_of_idle taken acting waiting with left | done
                      · exact .inr (.inr left)
                      · exact .inl done
                  | some other =>
                      have apart : other ≠ index := fun same => idle (same ▸ acting)
                      exact absurd early (undisturbed.draining index before batch true present
                        other acting apart record waiting)
          | false =>
              intro record early
              rw [take_accepted moves bound] at early
              exact (covered record early).imp_left (more record)
  | returned caller =>
      cases caller with
      | stop => trivial
      | flush before =>
          intro record early
          rw [take_accepted moves (wf.called index _ before present rfl)] at early
          exact (covered record early).imp_left (more record)
  | _ => trivial

/-- An undisturbed step keeps every flush past the lock in charge of what is left to write. -/
theorem covered_step {s after : State α} {cfg : Config} {event : Event α} {maxBatch : ℕ}
    (sound : s.ledger.Sound maxBatch) (wf : s.FlushesWf)
    (moves : Ledger.Moves maxBatch s.ledger after.ledger)
    (covers : s.Covered)
    (undisturbed : s.Undisturbed event) (taken : s.step cfg event = some after) :
    after.Covered := by
  intro index task present
  have sorted : task.flushing = none ∨ task.flushing.isSome := by
    cases task.flushing <;> simp
  rcases sorted with other | flushing
  · simp only [Covers]
    split <;> simp_all [Task.flushing, Caller.flushing]
  · cases origin_of_step taken present flushing with
    | kept _ old idle =>
        exact covers_kept wf moves undisturbed taken old idle (covers index task old)
    | called => trivial
    | began _ base before passing inside sameOthers sameQueue sameSettled sameAccepted drained =>
        subst drained
        refine covers_drain inside ?_ present
        intro record early
        rw [sameAccepted] at early
        rw [sameSettled, sameQueue]
        have alone := undisturbed.passing index before passing record early
        have notHeld : record ∉ s.held := fun holding => alone (held_of_passes passing holding)
        rw [mem_held, not_or] at notHeld
        have done := sound.settled_iff (List.mem_of_mem_take early)
        by_cases waiting : record ∈ s.queue
        · exact .inr waiting
        · exact .inl (done.mpr ⟨waiting, notHeld⟩)
    | resumed _ caller batch committed suspended drained =>
        subst drained
        have inside := (List.getElem?_eq_some_iff.mp suspended).1
        rw [← finishWrite_tasks s batch committed] at inside
        cases caller with
        | stop =>
            rw [drain_flushing inside present] at flushing
            simp [Caller.flushing] at flushing
        | flush before =>
            refine covers_drain inside ?_ present
            intro record early
            have early : record ∈ s.accepted.take before := by
              cases committed <;> exact early
            rw [mem_settled_finishWrite, finishWrite_queue]
            have covered := covers index _ suspended record early
            rw [List.mem_append] at covered
            tauto
    | finished caller batch committed suspended ended =>
        subst ended
        cases caller with
        | stop => trivial
        | flush before =>
            intro record early
            have early : record ∈ s.accepted.take before := by
              cases committed <;> exact early
            exact .inl (mem_settled_finishWrite.mpr (covers index _ suspended record early))

end State

variable {cfg : Config} {s after : State α}

theorem Reachable.flushesWf (reached : Reachable α cfg s) (positive : 1 ≤ cfg.batchSize) :
    s.FlushesWf :=
  reached.invariant_of_reachable
    (fun state earlier => (show Reachable α cfg state from earlier).wf positive)
    State.flushesWf_initial
    fun _ _ _ wf _ flushes _ taken =>
      flushes.step (State.step_moves positive wf.numbered wf.batched taken) taken

/-- A flush that returns is complete exactly when no other task held an earlier record. -/
theorem Reachable.complete_iff (reached : Reachable α cfg s) (positive : 1 ≤ cfg.batchSize)
    {event : Event α} {index before : ℕ} (taken : s.step cfg event = some after)
    (running : s.tasks[index]? ≠ some (.returned (.flush before)))
    (returned : after.tasks[index]? = some (.returned (.flush before))) :
    after.Complete before ↔
      ∀ record ∈ s.accepted.take before, record ∉ s.heldElsewhere index := by
  have wf := reached.wf positive
  have later : Reachable α cfg after := reached.tail event taken trivial
  have sound := later.sound positive
  have moves := State.step_moves positive wf.numbered wf.batched taken
  obtain ⟨sameOthers, bound, gone⟩ :=
    State.returns (reached.flushesWf positive) taken running returned
  rw [State.complete_iff sound, State.take_accepted moves bound, ← sameOthers]
  refine forall₂_congr fun record early => ?_
  have known : record ∈ after.accepted := moves.accepted_grows.subset (List.mem_of_mem_take early)
  have placed := sound.settled_iff known
  rw [State.mem_heldElsewhere, State.ledgerWithout_eq returned rfl rfl, not_or]
  exact placed.trans (and_iff_right (gone record early))

/-- After a run of undisturbed steps every flush that returned is complete. -/
theorem complete_of_undisturbed (positive : 1 ≤ cfg.batchSize)
    (run : Run (State.step cfg) (fun before event _ => before.Undisturbed event)
      (State.initial α) s) {index before : ℕ}
    (returned : s.tasks[index]? = some (.returned (.flush before))) : s.Complete before := by
  have everywhere : ∀ state, Foundation.Reachable (State.step cfg) (State.initial α) state →
      state.Wf cfg ∧ state.ledger.Sound cfg.batchSize ∧ state.FlushesWf := by
    intro state reached
    have reached : Reachable α cfg state := reached
    exact ⟨reached.wf positive, reached.sound positive, reached.flushesWf positive⟩
  have covered : s.Covered := by
    have atStart : (State.initial α).Covered := by simp [State.Covered, State.initial]
    apply run.invariant_of_reachable everywhere atStart
    rintro before event after ⟨wf, sound, flushes⟩ _ covers undisturbed taken
    exact State.covered_step sound flushes
      (State.step_moves positive wf.numbered wf.batched taken) covers undisturbed taken
  have settles := covered index _ returned
  rw [State.complete_iff (everywhere s run.reachable).2.1]
  intro record early
  simpa using settles record early

/-- `flush` keeps its promise in every run in which no other task holds an earlier record when
it passes the lock or takes one while it drains; a flush that returns broke it exactly when
another task still held an earlier record. -/
theorem flush_complete (positive : 1 ≤ cfg.batchSize) :
    (∀ s : State α, Run (State.step cfg) (fun before event _ => before.Undisturbed event)
        (State.initial α) s →
      ∀ index before : ℕ, s.tasks[index]? = some (.returned (.flush before)) →
        s.Complete before) ∧
    ∀ (s : State α) (event : Event α) (after : State α) (index before : ℕ),
      Reachable α cfg s → s.step cfg event = some after →
      s.tasks[index]? ≠ some (.returned (.flush before)) →
      after.tasks[index]? = some (.returned (.flush before)) →
      (after.Complete before ↔
        ∀ record ∈ s.accepted.take before, record ∉ s.heldElsewhere index) :=
  ⟨fun _ run _ _ returned => complete_of_undisturbed positive run returned,
    fun _ _ _ _ _ reached taken running returned =>
      reached.complete_iff positive taken running returned⟩

/-- A flush that writes the queue itself, and one that waits for the commit of the writer. -/
theorem flush_complete_examples :
    (∃ s : State Char, s.tasks = [.returned (.flush 1)] ∧ s.Complete 1) ∧
      ∃ s : State Char, s.tasks[2]? = some (.returned (.flush 1)) ∧ s.Complete 1 := by
  have complete := @flush_complete Char ⟨true, 4, 2⟩ (by decide)
  constructor
  · have written : ∃ s, Run (State.step ⟨true, 4, 2⟩)
        (fun before event _ => State.Undisturbed before event) (State.initial Char) s ∧
        s.tasks = [.returned (.flush 1)] := by
      refine ⟨_, ((Run.refl.tail (.record 'a') rfl ?_).tail .flush rfl ?_).tail
        (.resume 0 true) rfl ?_, rfl⟩
      · exact ⟨by simp [State.passes], by simp [State.initial]⟩
      · refine ⟨?_, ?_⟩
        · rintro _ _ ⟨⟩ record _ holding
          cases holding
        · rintro _ _ _ _ ⟨⟩
      · refine ⟨?_, ?_⟩
        · rintro _ _ ⟨⟩
        · rintro _ _ _ _ _ _ ⟨⟩
    rcases written with ⟨s, run, tasks⟩
    exact ⟨s, tasks, complete.1 s run 0 1 (by rw [tasks]; rfl)⟩
  · have executed : ∃ s after, exec (State.step ⟨true, 4, 2⟩) (State.initial Char)
        [.start, .record 'a', .resume 0 true, .resume 1 true, .resume 0 true, .flush,
          .resume 0 true] = some s ∧
        State.step ⟨true, 4, 2⟩ s (.resume 2 true) = some after ∧
        s.tasks[2]? = some (.flushAcquiring 1) ∧
        after.tasks[2]? = some (.returned (.flush 1)) ∧ s.heldElsewhere 2 = [] :=
      ⟨_, _, rfl, rfl, rfl, rfl, rfl⟩
    rcases executed with ⟨s, after, executed, taken, waiting, returned, nothing⟩
    refine ⟨after, returned, (complete.2 s _ after 2 1 (reachable_exec .refl executed) taken
      (by simp [waiting]) returned).mpr ?_⟩
    simp [nothing]

/-- A record that the getter had taken is still there when `flush` returns. -/
theorem flush_misses_getter :
    ¬∀ (s : State Char) (index before : ℕ), Reachable Char ⟨true, 4, 2⟩ s →
      s.tasks[index]? = some (.returned (.flush before)) → s.Complete before := by
  intro always
  have executed : ∃ s, exec (State.step ⟨true, 4, 2⟩) (State.initial Char)
      [.start, .resume 0 true, .resume 1 true, .record 'a', .resume 1 true, .flush] = some s ∧
      s.tasks[2]? = some (.returned (.flush 1)) ∧ s.accepted = [⟨0, 'a'⟩] ∧
      (⟨0, 'a'⟩ : Record Char) ∈ s.held := ⟨_, rfl, rfl, rfl, by decide⟩
  rcases executed with ⟨s, executed, returned, accepted, held⟩
  have complete := always s 2 1 (reachable_exec .refl executed) returned ⟨0, 'a'⟩
    (by simp [accepted])
  exact complete.2.2 held

end VisionApi.Audit
