import VisionApi.RateLimit.Ledger
import VisionApi.Foundation.Run

/-!
# Many workers and one Redis

Workers share one clock.  Each check reads it and its script is executed any
time later, in any order.  A script that is executed after one with a later
time, or after its key has expired, may find less in the sorted set than was
admitted in the window it looks at.

The state of the cluster has the clock, the checks under way and the ledger of Redis with
the log of all that was admitted.  The limit is about the log: at no instant are more
requests of a caller in the last window than its tier allows.

A script breaks this exactly if it finds room although some window that its request falls
into is full (`Overlooks`).  `withinLimit_step_iff` is this for one event and `within_limit` for all
lists of events.  The second half gives an ordinary condition under which no script
overlooks anything: scripts that run within a second and in the order of their times.
-/

namespace VisionApi.RateLimit

open Foundation

/-! ## The system -/

/-- The shared clock, the checks that have read it and whose scripts have not run, and Redis. -/
structure Cluster where
  clock : ℕ
  pending : List Check
  ledger : Ledger

/-- A cluster that nobody has called. -/
def Cluster.initial : Cluster :=
  ⟨0, [], .initial⟩

/-- Time passes, a check reads the clock, or a script runs. -/
inductive Event where
  | tick (elapsed : ℕ)
  | send (caller : Caller) (monotonicNs : ℕ)
  | execute (position : ℕ)

/-- The effect of an event, if it is possible. -/
def step (settings : Settings) (s : Cluster) : Event → Option Cluster
  | .tick elapsed => some { s with clock := s.clock + elapsed }
  | .send caller monotonicNs =>
      some { s with pending := s.pending ++ [⟨caller, s.clock, monotonicNs⟩] }
  | .execute position =>
      match s.pending[position]? with
      | none => none
      | some check =>
          some { s with
            pending := s.pending.eraseIdx position
            ledger := perform settings s.clock s.ledger check }

/-- No window has more admitted requests of a caller than its limit. -/
def WithinLimit (settings : Settings) (s : Cluster) : Prop :=
  ∀ caller t, (admitted s.ledger.log caller t : ℤ) ≤ max 0 (settings.rateLimitFor caller.tier)

/-! ## One script -/

/-- The admitted requests of a caller later than the start of the window that ends at `now`. -/
def admittedSince (log : List Check) (caller : Caller) (now : ℕ) : ℕ :=
  log.countP fun check => check.caller = caller && now < check.nowMs + windowMs

/-- A script sees everything that was admitted since the start of its window, or enough of it to
reject. -/
def Sees (settings : Settings) (s : Cluster) (check : Check) : Prop :=
  admittedSince s.ledger.log check.caller check.nowMs ≤ counted s.clock s.ledger.redis check ∨
    settings.rateLimitFor check.caller.tier ≤ counted s.clock s.ledger.redis check

/-- A script finds room although a window with the time it carries is full. -/
def Overlooks (settings : Settings) (s : Cluster) (check : Check) : Prop :=
  (counted s.clock s.ledger.redis check : ℤ) < settings.rateLimitFor check.caller.tier ∧
    ∃ t, check.nowMs ≤ t ∧ t < check.nowMs + windowMs ∧
      settings.rateLimitFor check.caller.tier ≤ admitted s.ledger.log check.caller t

/-- What an event executes, if it does, satisfies a condition. -/
def Executes (condition : Cluster → Check → Prop) (s : Cluster) : Event → Prop
  | .execute position => ∀ check, s.pending[position]? = some check → condition s check
  | _ => True

theorem admitted_le_since (log : List Check) (caller : Caller) {now t : ℕ} (started : now ≤ t) :
    admitted log caller t ≤ admittedSince log caller now := by
  apply List.countP_mono_left
  intro check _
  simp only [Bool.and_eq_true, decide_eq_true_eq]
  rintro ⟨own, _, inWindow⟩
  exact ⟨own, by omega⟩

theorem not_overlooks_of_sees {settings : Settings} {s : Cluster} {check : Check}
    (sees : Sees settings s check) : ¬Overlooks settings s check := by
  rintro ⟨room, t, started, _, full⟩
  have since := admitted_le_since s.ledger.log check.caller started
  rcases sees with all | enough
  · omega
  · omega

section Step

variable {settings : Settings} {s : Cluster}

theorem withinLimit_perform_iff (within : WithinLimit settings s) (check : Check)
    (pending : List Check) :
    WithinLimit settings ⟨s.clock, pending, perform settings s.clock s.ledger check⟩ ↔
      ¬Overlooks settings s check := by
  by_cases allowed :
      (RateLimiter.check settings s.clock s.ledger.redis check).2.allowed = true
  · have room := allowed_iff.mp allowed
    have log := perform_log_of_allowed allowed
    constructor
    · rintro after ⟨_, t, started, inWindow, full⟩
      have bound := after check.caller t
      simp only [log, admitted_cons, started, inWindow, and_self, if_true] at bound
      omega
    · intro notOverlooked caller t
      simp only [log, admitted_cons]
      have before := within caller t
      split
      · rename_i counts
        rcases counts with ⟨rfl, started, inWindow⟩
        have notFull : ¬settings.rateLimitFor check.caller.tier ≤
            admitted s.ledger.log check.caller t :=
          fun full => notOverlooked ⟨room, t, started, inWindow, full⟩
        omega
      · omega
  · have log := perform_log_of_rejected allowed
    apply iff_of_true
    · intro caller t
      simp only [log]
      exact within caller t
    · rintro ⟨room, _⟩
      exact allowed (allowed_iff.mpr room)

/-- An event keeps the limit exactly if no script of it overlooks anything. -/
theorem withinLimit_step_iff (within : WithinLimit settings s) {event : Event} {next : Cluster}
    (enabled : step settings s event = some next) :
    WithinLimit settings next ↔ Executes (fun s check => ¬Overlooks settings s check) s event := by
  cases event with
  | tick elapsed =>
      cases enabled
      exact iff_of_true within trivial
  | send caller monotonicNs =>
      cases enabled
      exact iff_of_true within trivial
  | execute position =>
      simp only [step] at enabled
      split at enabled
      · cases enabled
      · rename_i check isPending
        cases enabled
        rw [withinLimit_perform_iff within check]
        simp [Executes, isPending]

end Step

theorem withinLimit_initial (settings : Settings) : WithinLimit settings .initial := by
  intro caller t
  exact le_max_left _ _

/-! ## Runs -/

/-- No limit is exceeded in a run whose scripts see what was admitted, and a run never exceeds a
limit exactly when none of its scripts overlooks a full window. -/
theorem within_limit (settings : Settings) :
    (∀ finish,
      Run (step settings) (fun before event _ => Executes (Sees settings) before event)
        .initial finish →
      WithinLimit settings finish) ∧
    ∀ events,
      EachStep (step settings) (fun _ _ next => WithinLimit settings next) .initial events ↔
        EachStep (step settings)
          (fun before event _ =>
            Executes (fun s check => ¬Overlooks settings s check) before event)
          .initial events := by
  constructor
  · intro finish run
    apply run.invariant (withinLimit_initial settings)
    intro before event next within sees enabled
    apply (withinLimit_step_iff within enabled).mpr
    cases event with
    | tick => trivial
    | send => trivial
    | execute position =>
        intro check isPending
        exact not_overlooks_of_sees (sees check isPending)
  · intro events
    apply eachStep_iff (WithinLimit settings) (fun _ => True) _ _ (withinLimit_initial settings)
      fun _ _ => trivial
    · intro before event next within _ enabled
      exact withinLimit_step_iff within enabled
    · intro before event next within _ enabled sees
      exact (withinLimit_step_iff within enabled).mpr sees

/-- A caller of the free tier. -/
def alice : Caller :=
  ⟨.free, "alice"⟩

/-- Of three requests in a second the limit of two admits the first two, whose entries the third
script finds. -/
theorem within_limit_third_rejected :
    ∃ finish, finish.pending = [] ∧
      finish.ledger.log = [⟨alice, 1500, 2⟩, ⟨alice, 1000, 1⟩] ∧
      WithinLimit { rateLimitFreeRpm := 2 } finish := by
  have sent : Run (step { rateLimitFreeRpm := 2 })
      (fun before event _ => Executes (Sees { rateLimitFreeRpm := 2 }) before event) .initial
      ⟨1900, [⟨alice, 1000, 1⟩, ⟨alice, 1500, 2⟩, ⟨alice, 1900, 3⟩], .initial⟩ :=
    (((((Run.refl.tail (.tick 1000) rfl trivial).tail (.send alice 1) rfl trivial).tail
      (.tick 500) rfl trivial).tail (.send alice 2) rfl trivial).tail
        (.tick 400) rfl trivial).tail (.send alice 3) rfl trivial
  have first := sent.tail (.execute 0) rfl (by
    rintro check ⟨⟩
    exact .inl (by decide))
  have second := first.tail (.execute 0) rfl (by
    rintro check ⟨⟩
    exact .inl (by decide))
  have third := second.tail (.execute 0) rfl (by
    rintro check ⟨⟩
    exact .inl (by decide))
  exact ⟨_, rfl, rfl, (within_limit { rateLimitFreeRpm := 2 }).1 _ third⟩

/-! ## An overtaken script -/

/-- Two requests are admitted; when they are leaving the window a third one reads the clock and is
overtaken by a fourth. -/
def overtaken : List Event :=
  [.tick 1000, .send alice 1, .send alice 2, .execute 0, .execute 0, .tick 59999, .send alice 3,
    .tick 1, .send alice 4, .execute 1, .execute 0]

/-- The fourth request trims what the third one would have counted, and both are admitted. -/
theorem overtaken_exceeds_limit :
    ¬∀ (settings : Settings) (events : List Event),
      EachStep (step settings) (fun _ _ next => WithinLimit settings next) .initial events := by
  intro always
  have each := always { rateLimitFreeRpm := 2 } overtaken
  have within := (((((((((((each _ rfl).2 _ rfl).2 _ rfl).2 _ rfl).2 _ rfl).2 _ rfl).2 _ rfl).2
    _ rfl).2 _ rfl).2 _ rfl).2 _ rfl).1 alice 60999
  revert within
  decide

/-! ## Prompt scripts -/

/-- The scripts of each caller run in the order of their times, within a second of them, and add
new members. -/
def Prompt (s : Cluster) : Event → Prop
  | .execute position => ∀ check, s.pending[position]? = some check →
      (∀ earlier < position, ∀ other, s.pending[earlier]? = some other →
        other.caller ≠ check.caller) ∧
        s.clock ≤ check.nowMs + 1000 ∧
        ∀ logged ∈ s.ledger.log, logged.caller = check.caller → logged.member ≠ check.member
  | _ => True

/-- Pending checks are in the order of their times, and none is older than what its caller has
executed. -/
structure InOrder (s : Cluster) : Prop where
  sorted : s.pending.Pairwise fun first second => first.nowMs ≤ second.nowMs
  read : ∀ check ∈ s.pending, check.nowMs ≤ s.clock
  tracks : ∀ caller, ∃ latest, latest ≤ s.clock ∧ Tracks caller latest s.ledger ∧
    ∀ check ∈ s.pending, check.caller = caller → latest ≤ check.nowMs

theorem inOrder_initial : InOrder .initial := by
  refine ⟨.nil, ?_, fun caller => ⟨0, Nat.zero_le _, tracks_initial caller 0, ?_⟩⟩
  · rintro check ⟨⟩
  · rintro check ⟨⟩

section Prompt

variable {settings : Settings} {s : Cluster}

/-- A prompt script counts all that was admitted since the start of its window. -/
theorem sees_of_prompt (inOrder : InOrder s) {check : Check} (isPending : check ∈ s.pending)
    (prompt : s.clock ≤ check.nowMs + 1000) : Sees settings s check := by
  rcases inOrder.tracks check.caller with ⟨latest, _, tracks, started⟩
  have order := started check isPending rfl
  left
  rw [tracks.counted_eq order prompt]
  apply List.countP_mono_left
  intro logged loggedMem
  simp only [Bool.and_eq_true, decide_eq_true_eq]
  rintro ⟨own, inWindow⟩
  exact ⟨own, (tracks.bounded logged loggedMem own).trans order, inWindow⟩

theorem inOrder_execute (inOrder : InOrder s) {position : ℕ} {check : Check}
    (isPending : s.pending[position]? = some check)
    (first : ∀ earlier < position, ∀ other, s.pending[earlier]? = some other →
      other.caller ≠ check.caller)
    (prompt : s.clock ≤ check.nowMs + 1000)
    (fresh : ∀ logged ∈ s.ledger.log, logged.caller = check.caller →
      logged.member ≠ check.member) :
    InOrder ⟨s.clock, s.pending.eraseIdx position,
      perform settings s.clock s.ledger check⟩ := by
  have inPending := List.mem_of_getElem? isPending
  have read := inOrder.read check inPending
  refine ⟨inOrder.sorted.sublist (List.eraseIdx_sublist _ _), ?_, ?_⟩
  · intro other otherMem
    exact inOrder.read other (List.mem_of_mem_eraseIdx otherMem)
  · intro caller
    rcases inOrder.tracks caller with ⟨latest, latestRead, tracks, started⟩
    by_cases own : caller = check.caller
    · subst own
      have order := started check inPending rfl
      refine ⟨check.nowMs, read, tracks_perform tracks order read prompt fresh, ?_⟩
      intro other otherMem sameCaller
      rcases List.mem_eraseIdx_iff_getElem?.mp otherMem with ⟨index, differs, isOther⟩
      rcases Nat.lt_or_gt_of_ne differs with earlier | later
      · exact absurd sameCaller (first index earlier other isOther)
      · rcases List.getElem?_eq_some_iff.mp isOther with ⟨inside, rfl⟩
        rcases List.getElem?_eq_some_iff.mp isPending with ⟨alsoInside, rfl⟩
        exact List.pairwise_iff_getElem.mp inOrder.sorted _ _ alsoInside inside later
    · refine ⟨latest, latestRead, tracks.frame own, ?_⟩
      intro other otherMem sameCaller
      exact started other (List.mem_of_mem_eraseIdx otherMem) sameCaller

theorem inOrder_step (inOrder : InOrder s) {event : Event} (prompt : Prompt s event)
    {next : Cluster} (enabled : step settings s event = some next) : InOrder next := by
  cases event with
  | tick elapsed =>
      cases enabled
      refine ⟨inOrder.sorted, ?_, ?_⟩
      · intro check isPending
        exact Nat.le_add_right_of_le (inOrder.read check isPending)
      · intro caller
        rcases inOrder.tracks caller with ⟨latest, read, tracks, started⟩
        exact ⟨latest, Nat.le_add_right_of_le read, tracks, started⟩
  | send caller monotonicNs =>
      cases enabled
      refine ⟨?_, ?_, ?_⟩
      · refine List.pairwise_append.mpr ⟨inOrder.sorted, List.pairwise_singleton _ _, ?_⟩
        intro earlier isPending sent isSent
        cases List.mem_singleton.mp isSent
        exact inOrder.read earlier isPending
      · intro check isPending
        rcases List.mem_append.mp isPending with earlier | isSent
        · exact inOrder.read check earlier
        · cases List.mem_singleton.mp isSent
          exact le_rfl
      · intro other
        rcases inOrder.tracks other with ⟨latest, read, tracks, started⟩
        refine ⟨latest, read, tracks, ?_⟩
        intro check isPending own
        rcases List.mem_append.mp isPending with earlier | isSent
        · exact started check earlier own
        · cases List.mem_singleton.mp isSent
          exact read
  | execute position =>
      simp only [step] at enabled
      split at enabled
      · cases enabled
      · rename_i check isPending
        cases enabled
        rcases prompt check isPending with ⟨first, inTime, fresh⟩
        exact inOrder_execute inOrder isPending first inTime fresh

/-- When scripts run promptly and in order they all see what was admitted, so that no limit is
exceeded. -/
theorem withinLimit_of_prompt {finish : Cluster}
    (run : Run (step settings) (fun before event _ => Prompt before event) .initial finish) :
    WithinLimit settings finish := by
  have both : InOrder finish ∧ WithinLimit settings finish := by
    apply run.invariant
    · exact ⟨inOrder_initial, withinLimit_initial settings⟩
    · rintro before event next ⟨inOrder, within⟩ prompt enabled
      refine ⟨inOrder_step inOrder prompt enabled, (withinLimit_step_iff within enabled).mpr ?_⟩
      cases event with
      | tick => trivial
      | send => trivial
      | execute position =>
          intro check isPending
          apply not_overlooks_of_sees
          exact sees_of_prompt inOrder (List.mem_of_getElem? isPending)
            (prompt check isPending).2.1
  exact both.2

end Prompt

end VisionApi.RateLimit
