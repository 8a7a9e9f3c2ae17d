import VisionApi.Audit.Custody

/-!
# Nothing is lost, nothing is written twice

The counters of the service agree with the history of its records, and every
accepted record is in exactly one place in every reachable state: the queue, a
finished getter, a batch of a writer or of a `_drain`, or one of the three
counters.

`Wf` is the invariant of the state itself: records are numbered in the order of their
acceptance, the queue and the batches are bounded, and the counters are the tally of
what was settled.  Each operation of the service keeps it, and so does each step.
The custody ledger adds that nothing is lost.

A place is a position in the state, so that a record in two places would show up as
two places with the same record.  Listing all places gives a permutation of the
accepted records (`places_perm`), and since these are distinct, a record has exactly
one.
-/

namespace VisionApi.Audit

open Foundation

universe u

variable {α : Type u}

namespace State

/-- The records that left the service with one outcome. -/
def settledAs (s : State α) (outcome : Outcome) : List (Record α) :=
  (s.settled.filter fun entry => entry.1 = outcome).map Prod.snd

/-- The counters that the history of the records calls for. -/
def tally (s : State α) : AuditStats where
  queued := s.accepted.length
  written := (s.settledAs .written).length
  dropped := (s.settledAs .dropped).length
  failed := (s.settledAs .failed).length

/-- What every reachable state satisfies beside its sound ledger. -/
structure Wf (cfg : Config) (s : State α) : Prop where
  numbered : s.Numbered
  bounded : 1 ≤ cfg.queueSize → s.queue.length ≤ cfg.queueSize
  counted : s.stats = s.tally
  batched : ∀ task ∈ s.tasks, task.Batched cfg.batchSize

namespace Wf

variable {cfg : Config} {s : State α}

theorem setTask (wf : s.Wf cfg) (index : ℕ) {task : Task α} (ok : task.Batched cfg.batchSize) :
    (s.setTask index task).Wf cfg := by
  refine ⟨wf.numbered, wf.bounded, wf.counted, ?_⟩
  intro other otherMem
  rcases List.mem_or_eq_of_mem_set otherMem with old | rfl
  · exact wf.batched other old
  · exact ok

theorem spawn (wf : s.Wf cfg) (task : Task α) (ok : task.Batched cfg.batchSize) :
    (s.spawn task).Wf cfg := by
  refine ⟨wf.numbered, wf.bounded, wf.counted, ?_⟩
  intro other otherMem
  simp only [State.spawn, List.mem_append, List.mem_singleton] at otherMem
  rcases otherMem with old | rfl
  · exact wf.batched other old
  · exact ok

theorem setQueue (wf : s.Wf cfg) {queue : List (Record α)}
    (shorter : queue.length ≤ s.queue.length) : (s.setQueue queue).Wf cfg :=
  ⟨wf.numbered, fun positive => shorter.trans (wf.bounded positive), wf.counted, wf.batched⟩

theorem wakeupNext (wf : s.Wf cfg) (waiters : List ℕ) : (s.wakeupNext waiters).Wf cfg := by
  induction waiters with
  | nil => exact ⟨wf.numbered, wf.bounded, wf.counted, wf.batched⟩
  | cons waiter waiters ih =>
      simp only [State.wakeupNext]
      split
      · have popped : ({ s with getters := waiters } : State α).Wf cfg :=
          ⟨wf.numbered, wf.bounded, wf.counted, wf.batched⟩
        exact popped.setTask waiter trivial
      · exact ih

theorem beginWrite (wf : s.Wf cfg) (batch : List (Record α)) : (s.beginWrite batch).Wf cfg :=
  ⟨wf.numbered, wf.bounded, wf.counted, wf.batched⟩

theorem finishWrite (wf : s.Wf cfg) (batch : List (Record α)) (committed : Bool) :
    (s.finishWrite batch committed).Wf cfg := by
  refine ⟨?_, ?_, ?_, ?_⟩
  · cases committed <;> exact wf.numbered
  · cases committed <;> exact wf.bounded
  · cases committed <;>
      simp [State.finishWrite, tally, settledAs, wf.counted, List.filter_map, Function.comp_def]
  · cases committed <;> exact wf.batched

theorem loop (wf : s.Wf cfg) (index : ℕ) : (s.loop index).Wf cfg := by
  simp only [State.loop]
  split
  · exact wf.setTask index trivial
  · exact (wf.spawn (.getter (.pending .created)) trivial).setTask index trivial

theorem takeResult (wf : s.Wf cfg) (getter : ℕ) : (s.takeResult getter).2.Wf cfg := by
  simp only [State.takeResult]
  split
  · exact wf.setTask getter trivial
  · exact wf.setTask getter trivial
  · exact wf

theorem writeBatch (wf : s.Wf cfg) (index : ℕ) {batch : List (Record α)}
    (fits : batch.length ≤ cfg.batchSize) : (s.writeBatch index batch).Wf cfg := by
  simp only [State.writeBatch]
  split
  · exact wf.loop index
  · rename_i nonempty
    split
    · have locked : ({ s with locked := true } : State α).Wf cfg :=
        ⟨wf.numbered, wf.bounded, wf.counted, wf.batched⟩
      exact (locked.beginWrite batch).setTask index trivial
    · have waiting : ({ s with waiters := s.waiters ++ [index] } : State α).Wf cfg :=
        ⟨wf.numbered, wf.bounded, wf.counted, wf.batched⟩
      exact waiting.setTask index
        ⟨fun empty => nonempty (List.isEmpty_iff.mpr empty), fits⟩

theorem resumeCollect (wf : s.Wf cfg) (positive : 1 ≤ cfg.batchSize) (index getter : ℕ) :
    (s.resumeCollect cfg index getter).Wf cfg := by
  have single := takeResult_length s getter
  have sameQueue := takeResult_queue s getter
  have wfTaken := wf.takeResult getter
  obtain ⟨taken, _, front⟩ := fillBatch_split cfg.batchSize s.queue (s.takeResult getter).1
  have fits := fillBatch_length s.queue (single.trans positive)
  simp only [State.resumeCollect, sameQueue]
  refine Wf.writeBatch (wfTaken.setQueue ?_) index fits
  rw [sameQueue]
  have total := congrArg List.length front
  rw [List.length_append] at total
  omega

theorem drain (wf : s.Wf cfg) (index : ℕ) (caller : Caller) :
    (s.drain cfg index caller).Wf cfg := by
  obtain ⟨taken, _, front⟩ := drainLoop_split cfg.batchSize s.queue []
  have total := congrArg List.length front
  rw [List.length_append] at total
  have drained : (s.setQueue (drainLoop cfg.batchSize s.queue []).2.1).Wf cfg :=
    wf.setQueue (by omega)
  simp only [State.drain]
  split
  · exact drained.setTask index trivial
  · exact (drained.beginWrite _).setTask index trivial

theorem resumeGet (wf : s.Wf cfg) (index : ℕ) : (s.resumeGet index).Wf cfg := by
  simp only [State.resumeGet]
  cases front : s.queue with
  | nil =>
      rw [getNowait_nil front]
      have waiting : (s.addGetter index).Wf cfg :=
        ⟨wf.numbered, wf.bounded, wf.counted, wf.batched⟩
      exact waiting.setTask index trivial
  | cons record queue =>
      rw [getNowait_cons front]
      exact (wf.setQueue (by simp [front])).setTask index trivial

theorem cancelGet (wf : s.Wf cfg) (index : ℕ) (progress : Pending) :
    (s.cancelGet index progress).Wf cfg := by
  have cancelled : (s.setTask index (.getter .cancelled)).Wf cfg := wf.setTask index trivial
  simp only [State.cancelGet]
  cases progress with
  | created => exact cancelled
  | waiting => exact ⟨cancelled.numbered, cancelled.bounded, cancelled.counted, cancelled.batched⟩
  | woken =>
      simp only
      split
      · exact cancelled
      · exact cancelled.wakeupNext _

theorem dropOldest (wf : s.Wf cfg) : s.dropOldest.Wf cfg := by
  simp only [State.dropOldest]
  cases front : s.queue with
  | nil =>
      rw [getNowait_nil front]
      exact wf
  | cons oldest queue =>
      rw [getNowait_cons front]
      have shorter : (s.setQueue queue).Wf cfg := wf.setQueue (by simp [front])
      refine ⟨shorter.numbered, shorter.bounded, ?_, shorter.batched⟩
      simp [tally, settledAs, State.setQueue, wf.counted]

theorem putNowait (wf : s.Wf cfg) {fields : α} {after : State α}
    (put : s.putNowait cfg ⟨s.accepted.length, fields⟩ = some after) :
    after.countQueued.Wf cfg := by
  simp only [State.putNowait] at put
  split at put
  · cases put
  · rename_i room
    have below : 1 ≤ cfg.queueSize → s.queue.length < cfg.queueSize := by
      intro positive
      simp only [full, Bool.and_eq_true, decide_eq_true_eq, not_and, not_le] at room
      exact room positive
    simp only [Option.some.injEq] at put
    have counted : (State.countQueued { s with
        queue := s.queue ++ [⟨s.accepted.length, fields⟩]
        accepted := s.accepted ++ [⟨s.accepted.length, fields⟩] }).Wf cfg := by
      refine ⟨?_, ?_, ?_, wf.batched⟩
      · intro record recordMem
        simp only [State.countQueued, List.mem_append, List.mem_singleton] at recordMem
        simp only [State.countQueued, List.length_append, List.length_cons, List.length_nil]
        rcases recordMem with old | rfl
        · have := wf.numbered record old
          omega
        · simp
      · intro positive
        have := below positive
        simp only [State.countQueued, List.length_append, List.length_cons, List.length_nil]
        omega
      · simp [State.countQueued, tally, settledAs, wf.counted]
    have commutes : ∀ (waiters : List ℕ) (t : State α),
        (t.wakeupNext waiters).countQueued = t.countQueued.wakeupNext waiters := by
      intro waiters t
      induction waiters with
      | nil => rfl
      | cons waiter waiters ih =>
          simp only [State.wakeupNext]
          simp only [State.countQueued] at ih ⊢
          split
          · rfl
          · exact ih
    rw [← put, commutes]
    exact counted.wakeupNext _

theorem record (wf : s.Wf cfg) (fields : α) :
    (s.record cfg fields).Wf cfg := by
  unfold State.record
  split
  · exact wf
  · simp only
    split
    · rename_i after put
      exact wf.putNowait put
    · split
      · rename_i after put
        rw [← accepted_dropOldest s] at put
        exact wf.dropOldest.putNowait put
      · exact wf.dropOldest

/-- Whatever a resumed task does keeps the state well formed. -/
theorem resumed (wf : s.Wf cfg) (positive : 1 ≤ cfg.batchSize) {index : ℕ} {committed : Bool}
    {task : Task α} {after : State α} (resumed : Resumed cfg s index committed task after) :
    after.Wf cfg := by
  cases resumed with
  | enter => exact (wf.spawn (.getter (.pending .created)) trivial).setTask index trivial
  | collect getter => exact wf.resumeCollect positive index getter
  | acquire batch offered =>
      have locked : ({ s with locked := true, waiters := s.waiters.tail } : State α).Wf cfg :=
        ⟨wf.numbered, wf.bounded, wf.counted, wf.batched⟩
      exact (locked.beginWrite batch).setTask index trivial
  | write batch =>
      have finished := wf.finishWrite batch committed
      have released : ({ s.finishWrite batch committed with locked := false } : State α).Wf cfg :=
        ⟨finished.numbered, finished.bounded, finished.counted, finished.batched⟩
      exact released.loop index
  | get progress => exact wf.resumeGet index
  | cancel progress => exact wf.cancelGet index progress
  | flush before offered =>
      have acquired : ({ s with waiters := s.waiters.tail } : State α).Wf cfg :=
        ⟨wf.numbered, wf.bounded, wf.counted, wf.batched⟩
      exact acquired.drain index _
  | stop writer exited =>
      have stopped : ({ s with task := none, stopping := false } : State α).Wf cfg :=
        ⟨wf.numbered, wf.bounded, wf.counted, wf.batched⟩
      exact stopped.drain index _
  | drainOn caller batch => exact (wf.finishWrite batch committed).drain index caller
  | drainEnd caller batch => exact (wf.finishWrite batch committed).setTask index trivial

/-- Every step keeps the counters, the bound on the queue and the size of waiting batches. -/
theorem step (wf : s.Wf cfg) (positive : 1 ≤ cfg.batchSize) {event : Event α} {after : State α}
    (taken : s.step cfg event = some after) : after.Wf cfg := by
  rcases step_cases taken with ⟨fields, rfl, rfl⟩ | ⟨rfl, rfl⟩ | ⟨rfl, rfl⟩ | ⟨rfl, rfl⟩ |
    ⟨index, committed, task, rfl, present, resumed⟩
  · exact wf.record fields
  · simp only [State.start]
    split
    · exact wf
    · have started : ({ s with task := some s.tasks.length } : State α).Wf cfg :=
        ⟨wf.numbered, wf.bounded, wf.counted, wf.batched⟩
      exact started.spawn _ trivial
  · simp only [State.stop]
    split
    · have stopping : ({ s with stopping := true } : State α).Wf cfg :=
        ⟨wf.numbered, wf.bounded, wf.counted, wf.batched⟩
      exact stopping.spawn _ trivial
    · exact (wf.spawn (.returned .stop) trivial).drain _ _
  · simp only [State.flush]
    split
    · exact (wf.spawn (.returned _) trivial).drain _ _
    · have waiting : ({ s with waiters := s.waiters ++ [s.tasks.length] } : State α).Wf cfg :=
        ⟨wf.numbered, wf.bounded, wf.counted, wf.batched⟩
      exact waiting.spawn _ trivial
  · exact wf.resumed positive resumed

end Wf

/-- The service starts well formed. -/
theorem wf_initial (cfg : Config) : (State.initial α).Wf cfg where
  numbered := by simp [Numbered, State.initial]
  bounded := by simp [State.initial]
  counted := rfl
  batched := by simp [State.initial]

theorem sound_initial (maxBatch : ℕ) : (State.initial α).ledger.Sound maxBatch where
  distinct := List.nodup_nil
  conserved := rfl
  ordered := List.suffix_refl _
  delivered := le_refl _
  batched := by simp [State.initial, ledger]

end State

/-! ## Where the records are -/

/-- The places of the service a record can be in. -/
inductive Place where
  | queue
  | getter (task : ℕ)
  | writer (task : ℕ)
  | drain (task : ℕ)
  | counted (outcome : Outcome)
deriving DecidableEq

/-- The records held by the task at `index`, each with its place. -/
def Task.places (index : ℕ) : Task α → List (Place × Record α)
  | .getter (.finished record) => [(.getter index, record)]
  | .acquiring batch => batch.map fun record => (.writer index, record)
  | .writing batch => batch.map fun record => (.writer index, record)
  | .draining _ batch _ => batch.map fun record => (.drain index, record)
  | _ => []

/-- The places of a task hold what it has in hand or has passed on. -/
theorem Task.places_records (index : ℕ) (task : Task α) :
    (task.places index).map Prod.snd = task.inHand ++ task.passed := by
  cases task with
  | getter state => cases state <;> rfl
  | acquiring batch => simp [places, inHand, passed]
  | writing batch => simp [places, inHand, passed]
  | draining caller batch inLoop => simp [places, inHand, passed]
  | _ => rfl

namespace State

/-- The places of the records held by the tasks. -/
def heldPlaces (s : State α) : List (Place × Record α) :=
  s.tasks.zipIdx.flatMap fun entry => entry.1.places entry.2

/-- The directory of all records. -/
def places (s : State α) : List (Place × Record α) :=
  (s.queue.map fun record => (.queue, record)) ++ s.heldPlaces ++
    s.settled.map fun entry => (.counted entry.1, entry.2)

/-- All places of tasks hold what the tasks hold. -/
theorem heldPlaces_records (s : State α) :
    (s.heldPlaces.map Prod.snd : Multiset (Record α)) =
      heldBy Task.inHand s.tasks + heldBy Task.passed s.tasks := by
  have fromTasks : s.heldPlaces.map Prod.snd =
      s.tasks.flatMap fun task => task.inHand ++ task.passed := by
    simp only [heldPlaces, List.map_flatMap, Task.places_records]
    rw [← List.flatMap_map (f := Prod.fst)
      (g := fun task : Task α => task.inHand ++ task.passed), List.zipIdx_map_fst]
  rw [fromTasks, ← heldBy_both]
  rfl

/-- A sound ledger lists every accepted record in one place. -/
theorem places_perm {s : State α} {maxBatch : ℕ} (sound : s.ledger.Sound maxBatch) :
    (s.places.map Prod.snd).Perm s.accepted := by
  rw [← Multiset.coe_eq_coe]
  have conserved := sound.conserved
  simp only [ledger] at conserved
  rw [conserved]
  simp only [places, List.map_append, List.map_map, ← Multiset.coe_add, heldPlaces_records,
    Function.comp_def, List.map_id']
  abel

/-- The counters add up to the number of settled records. -/
theorem settled_length (s : State α) :
    s.settled.length = s.tally.written + s.tally.failed + s.tally.dropped := by
  simp only [tally, settledAs, List.length_map]
  induction s.settled with
  | nil => rfl
  | cons entry settled ih =>
      rcases entry with ⟨outcome, record⟩
      cases outcome <;> simp [ih] <;> omega

end State

variable {cfg : Config} {s : State α}

/-- Every reachable state is well formed. -/
theorem Reachable.wf (reached : Reachable α cfg s) (positive : 1 ≤ cfg.batchSize) : s.Wf cfg :=
  reached.invariant (State.wf_initial cfg) fun _ _ _ wf _ taken => wf.step positive taken

/-- The ledger is sound under every interleaving. -/
theorem Reachable.sound (reached : Reachable α cfg s) (positive : 1 ≤ cfg.batchSize) :
    s.ledger.Sound cfg.batchSize :=
  reached.invariant_of_reachable
    (fun state earlier => (show Reachable α cfg state from earlier).wf positive)
    (State.sound_initial cfg.batchSize)
    fun _ _ _ wf _ sound _ taken =>
      (State.step_moves positive wf.numbered wf.batched taken).sound sound

/-- No interleaving loses a record, holds it in two places or writes it twice. -/
theorem Reachable.conservation (reached : Reachable α cfg s) (queuePositive : 1 ≤ cfg.queueSize)
    (batchPositive : 1 ≤ cfg.batchSize) :
    (∀ record ∈ s.accepted, ∃! place, (place, record) ∈ s.places) ∧
      (∀ entry ∈ s.places, entry.2 ∈ s.accepted) ∧
      s.stats.queued =
        s.queue.length + s.heldPlaces.length + s.stats.written + s.stats.failed +
          s.stats.dropped ∧
      s.stats = s.tally ∧
      s.queue <:+ s.accepted ∧ s.queue.length ≤ cfg.queueSize ∧
      s.writes.flatten.Nodup ∧
      ∀ batch ∈ s.writes, batch ≠ [] ∧ batch.length ≤ cfg.batchSize := by
  have wf := reached.wf batchPositive
  have sound := reached.sound batchPositive
  have listed := State.places_perm sound
  refine ⟨fun record present => existsUnique_place listed sound.distinct present,
    fun entry present => listed.mem_iff.mp (List.mem_map_of_mem present), ?_, wf.counted,
    sound.ordered, wf.bounded queuePositive, sound.deliveries_nodup, sound.batched⟩
  have total := listed.length_eq
  have left := s.settled_length
  simp only [State.places, List.map_append, List.length_append, List.length_map] at total
  have queued : s.tally.queued = s.accepted.length := rfl
  rw [wf.counted]
  omega

/-- A writer that took two of three records while one had been dropped. -/
theorem conservation_full_queue :
    ∃ s : State Char,
      s.stats = ⟨3, 0, 1, 0⟩ ∧ s.writes = [[⟨1, 'b'⟩, ⟨2, 'c'⟩]] ∧
        (∀ record ∈ s.accepted, ∃! place, (place, record) ∈ s.places) := by
  have reached : ∃ s, exec (State.step ⟨true, 2, 2⟩) (State.initial Char)
      [.start, .record 'a', .record 'b', .record 'c', .resume 0 true, .resume 1 true,
        .resume 0 true] = some s ∧
      s.stats = ⟨3, 0, 1, 0⟩ ∧ s.writes = [[⟨1, 'b'⟩, ⟨2, 'c'⟩]] := ⟨_, rfl, rfl, rfl⟩
  rcases reached with ⟨s, executed, stats, writes⟩
  have reached : Reachable Char ⟨true, 2, 2⟩ s := reachable_exec .refl executed
  have everywhere := reached.conservation (by decide) (by decide)
  exact ⟨s, stats, writes, everywhere.1⟩

end VisionApi.Audit
