import VisionApi.RateLimit.Ledger

/-!
# An exact sliding-window log

Checks whose scripts run at the times they carry, in order, are decided as by a
log of the admitted requests of each caller.

The log is the specification: a request is admitted if fewer than the limit were admitted
in the window before it, and the answer says how many are left.  `RefinesLog` states this
for a single check, from the reply alone.

The sequence is one of checks of any callers.  `tracks_after` carries the invariant of the
ledger over it for all callers at once, and the theorem is about each check of the
sequence, from what went before.  The answers to one caller depend on its own key only
(`decisionsOf_congr`).
-/

namespace VisionApi.RateLimit

open Foundation

/-- The ledger after a sequence of checks, each executed at the time it carries. -/
def after (settings : Settings) : Ledger → List Check → Ledger
  | s, [] => s
  | s, check :: checks => after settings (perform settings check.nowMs s check) checks

/-- The decisions on the checks of one caller in a sequence. -/
def decisionsOf (settings : Settings) (caller : Caller) :
    Redis → List Check → List RateLimitDecision
  | _, [] => []
  | redis, check :: checks =>
      let (next, decision) := RateLimiter.check settings check.nowMs redis check
      if check.caller = caller then decision :: decisionsOf settings caller next checks
      else decisionsOf settings caller next checks

/-- Times do not decrease, and no two checks add the same member. -/
structure Sequential (checks : List Check) : Prop where
  ordered : checks.Pairwise fun first second => first.nowMs ≤ second.nowMs
  distinct : (checks.map Check.member).Nodup

variable {settings : Settings}

theorem Sequential.tail {check : Check} {checks : List Check}
    (sequential : Sequential (check :: checks)) : Sequential checks :=
  ⟨(List.pairwise_cons.mp sequential.ordered).2, (List.nodup_cons.mp sequential.distinct).2⟩

theorem Sequential.head_le {check : Check} {checks : List Check}
    (sequential : Sequential (check :: checks)) {other : Check} (later : other ∈ checks) :
    check.nowMs ≤ other.nowMs :=
  (List.pairwise_cons.mp sequential.ordered).1 other later

theorem Sequential.head_ne {check : Check} {checks : List Check}
    (sequential : Sequential (check :: checks)) {other : Check} (later : other ∈ checks) :
    check.member ≠ other.member := by
  intro same
  apply (List.nodup_cons.mp sequential.distinct).1
  rw [same]
  exact List.mem_map_of_mem later

theorem mem_log_perform {clock : ℕ} {s : Ledger} {check logged : Check}
    (loggedMem : logged ∈ (perform settings clock s check).log) :
    logged = check ∨ logged ∈ s.log := by
  simp only [perform] at loggedMem
  split at loggedMem
  · exact List.mem_cons.mp loggedMem
  · exact .inr loggedMem

/-- Later checks are not logged by an earlier one. -/
theorem Sequential.fresh_perform {check : Check} {checks : List Check}
    (sequential : Sequential (check :: checks)) {s : Ledger} {clock : ℕ}
    (fresh : ∀ other ∈ check :: checks, ∀ logged ∈ s.log, logged.member ≠ other.member) :
    ∀ other ∈ checks, ∀ logged ∈ (perform settings clock s check).log,
      logged.member ≠ other.member := by
  intro other later logged loggedMem
  rcases mem_log_perform loggedMem with rfl | earlier
  · exact sequential.head_ne later
  · exact fresh other (List.mem_cons_of_mem _ later) logged earlier

theorem admitted_perform_of_allowed {s : Ledger} {check : Check}
    (allowed : (RateLimiter.check settings check.nowMs s.redis check).2.allowed = true) :
    admitted (perform settings check.nowMs s check).log check.caller check.nowMs =
      admitted s.log check.caller check.nowMs + 1 := by
  rw [perform_log_of_allowed allowed, admitted_cons_own le_rfl,
    if_pos (lt_add_windowMs check.nowMs)]

/-- One check at the time it carries keeps all callers tracked. -/
theorem tracks_step {s : Ledger} {latest : ℕ} (tracks : ∀ caller, Tracks caller latest s)
    {check : Check} (inOrder : latest ≤ check.nowMs)
    (fresh : ∀ logged ∈ s.log, logged.member ≠ check.member) (caller : Caller) :
    Tracks caller check.nowMs (perform settings check.nowMs s check) := by
  by_cases own : caller = check.caller
  · subst own
    exact tracks_perform (tracks _) inOrder le_rfl (by omega) fun logged loggedMem _ =>
      fresh logged loggedMem
  · exact ((tracks caller).frame own).mono inOrder

/-- After any checks in order, the sets of all callers count what was admitted. -/
theorem tracks_after {checks : List Check} (sequential : Sequential checks) {s : Ledger}
    {latest bound : ℕ} (tracks : ∀ caller, Tracks caller latest s) (start : latest ≤ bound)
    (inOrder : ∀ check ∈ checks, latest ≤ check.nowMs ∧ check.nowMs ≤ bound)
    (fresh : ∀ check ∈ checks, ∀ logged ∈ s.log, logged.member ≠ check.member)
    (caller : Caller) : Tracks caller bound (after settings s checks) := by
  induction checks generalizing s latest with
  | nil => exact (tracks caller).mono start
  | cons check checks ih =>
      have here := inOrder check List.mem_cons_self
      apply ih sequential.tail (tracks_step tracks here.1 (fresh check List.mem_cons_self)) here.2
      · intro other later
        exact ⟨sequential.head_le later, (inOrder other (List.mem_cons_of_mem _ later)).2⟩
      · exact sequential.fresh_perform fresh

theorem mem_log_after {checks : List Check} {s : Ledger} {logged : Check}
    (loggedMem : logged ∈ (after settings s checks).log) : logged ∈ checks ∨ logged ∈ s.log := by
  induction checks generalizing s with
  | nil => exact .inr loggedMem
  | cons check checks ih =>
      rcases ih loggedMem with later | earlier
      · exact .inl (List.mem_cons_of_mem _ later)
      · rcases mem_log_perform earlier with rfl | start
        · exact .inl List.mem_cons_self
        · exact .inr start

/-- What a caller has left is what is admitted of any further checks at the same instant. -/
theorem admitted_at_instant (settings : Settings) {checks : List Check}
    (sequential : Sequential checks) {s : Ledger} {now : ℕ} (tracks : ∀ caller, Tracks caller now s)
    (instant : ∀ check ∈ checks, check.nowMs = now)
    (fresh : ∀ check ∈ checks, ∀ logged ∈ s.log, logged.member ≠ check.member)
    (caller : Caller) :
    (decisionsOf settings caller s.redis checks).countP RateLimitDecision.allowed =
      min (settings.rateLimitFor caller.tier - admitted s.log caller now).toNat
        (checks.countP fun check => check.caller = caller) := by
  induction checks generalizing s with
  | nil => simp [decisionsOf]
  | cons check checks ih =>
      obtain rfl := instant check List.mem_cons_self
      have kept : ∀ other, Tracks other check.nowMs (perform settings check.nowMs s check) :=
        tracks_step tracks le_rfl (fresh check List.mem_cons_self)
      have next := ih sequential.tail kept
        (fun other later => instant other (List.mem_cons_of_mem _ later))
        (sequential.fresh_perform fresh)
      rw [perform_redis] at next
      by_cases own : check.caller = caller
      · subst own
        have counts := (tracks check.caller).counted_eq le_rfl (Nat.le_add_right check.nowMs 1000)
        by_cases allowed :
            (RateLimiter.check settings check.nowMs s.redis check).2.allowed = true
        · have below := allowed_iff.mp allowed
          rw [counts] at below
          rw [admitted_perform_of_allowed allowed] at next
          simp only [decisionsOf, if_true, List.countP_cons, allowed, next, decide_true]
          omega
        · have notBelow := mt allowed_iff.mpr allowed
          rw [counts] at notBelow
          rw [perform_log_of_rejected allowed] at next
          simp only [decisionsOf, if_true, List.countP_cons, allowed, next, decide_true]
          simp only [Bool.false_eq_true, if_false]
          omega
      · have unchanged : admitted (perform settings check.nowMs s check).log caller check.nowMs =
            admitted s.log caller check.nowMs := by
          simp only [perform]
          split
          · exact admitted_cons_other own
          · rfl
        rw [unchanged] at next
        simp [decisionsOf, own, next]

theorem decisionsOf_congr {caller : Caller} {first second : Redis}
    (same : first caller.key = second caller.key) (checks : List Check) :
    decisionsOf settings caller first checks = decisionsOf settings caller second checks := by
  induction checks generalizing first second with
  | nil => rfl
  | cons check checks ih =>
      by_cases own : check.caller = caller
      · subst own
        have decided : (RateLimiter.check settings check.nowMs first check).2 =
            (RateLimiter.check settings check.nowMs second check).2 := by
          simp only [RateLimiter.check, same]
        have stored : (RateLimiter.check settings check.nowMs first check).1 check.caller.key =
            (RateLimiter.check settings check.nowMs second check).1 check.caller.key := by
          simp only [RateLimiter.check, same, Function.update_self]
        simp only [decisionsOf, if_true, decided, ih stored]
      · have other := Ne.symm own
        have stored : (RateLimiter.check settings check.nowMs first check).1 caller.key =
            (RateLimiter.check settings check.nowMs second check).1 caller.key := by
          rw [check_frame settings _ _ other, check_frame settings _ _ other, same]
        simp only [decisionsOf, own, if_false, ih stored]

/-- What a check in a sequence has to do with the log of the admitted requests before it and the
decisions after it. -/
structure RefinesLog (settings : Settings) (past : List Check) (check : Check)
    (later : List Check) : Prop where
  admits_iff :
    (RateLimiter.check settings check.nowMs (after settings .initial past).redis
        check).2.allowed = true ↔
      (admitted (after settings .initial past).log check.caller check.nowMs : ℤ) <
        settings.rateLimitFor check.caller.tier
  remaining :
    (RateLimiter.check settings check.nowMs (after settings .initial past).redis
        check).2.allowed = true →
      0 ≤ (RateLimiter.check settings check.nowMs (after settings .initial past).redis
          check).2.remaining ∧
      ((∀ other ∈ later, other.nowMs = check.nowMs) →
        ((decisionsOf settings check.caller (after settings .initial (past ++ [check])).redis
            later).countP RateLimitDecision.allowed : ℤ) =
          min (RateLimiter.check settings check.nowMs (after settings .initial past).redis
              check).2.remaining
            (later.countP fun other => other.caller = check.caller))
  expiry : ∀ caller window t,
    (after settings .initial past).redis (Caller.key caller) = some window →
    live t (some window) = none → ∀ entry ∈ window.set.entries, entry.1 + windowMs ≤ t
  independent : ∀ caller, caller ≠ check.caller →
    decisionsOf settings caller (after settings .initial (past ++ [check])).redis later =
      decisionsOf settings caller (after settings .initial past).redis later

/-- The last check is performed after the others. -/
theorem after_append_singleton (s : Ledger) (past : List Check) (check : Check) :
    after settings s (past ++ [check]) =
      perform settings check.nowMs (after settings s past) check := by
  induction past generalizing s with
  | nil => rfl
  | cons first past ih => exact ih _

/-- What expires had left the window. -/
theorem Tracks.expiry {s : Ledger} {caller : Caller} {latest t : ℕ}
    (tracks : Tracks caller latest s) {window : Window}
    (isWindow : s.redis caller.key = some window) (expired : live t (some window) = none)
    {entry : ℕ × String} (entryMem : entry ∈ window.set.entries) : entry.1 + windowMs ≤ t := by
  rcases tracks.deadlines window isWindow with ⟨deadline, isDeadline, late⟩
  have bound := late entry entryMem
  simp only [live, isDeadline, Option.any_some, decide_eq_true_eq] at expired
  split at expired
  · omega
  · cases expired

/-- Sequential checks with distinct members are decided as by an exact sliding-window log. -/
theorem refines_log (settings : Settings) {past : List Check} {check : Check} {later : List Check}
    (sequential : Sequential (past ++ check :: later)) :
    RefinesLog settings past check later := by
  have ordered := List.pairwise_append.mp sequential.ordered
  have members := sequential.distinct
  rw [List.map_append, List.nodup_append] at members
  have pastSequential : Sequential past := ⟨ordered.1, members.1⟩
  have restSequential : Sequential (check :: later) := ⟨ordered.2.1, members.2.1⟩
  have pastFresh : ∀ other ∈ check :: later, ∀ logged ∈ (after settings .initial past).log,
      logged.member ≠ other.member := by
    intro other otherMem logged loggedMem
    rcases mem_log_after loggedMem with inPast | start
    · exact members.2.2 _ (List.mem_map_of_mem inPast) _ (List.mem_map_of_mem otherMem)
    · cases start
  have tracks : ∀ caller, Tracks caller check.nowMs (after settings .initial past) := by
    apply tracks_after pastSequential (fun caller => tracks_initial caller 0) (Nat.zero_le _)
    · intro other otherMem
      exact ⟨Nat.zero_le _, ordered.2.2 other otherMem check List.mem_cons_self⟩
    · rintro other _ logged ⟨⟩
  have counts := (tracks check.caller).counted_eq le_rfl (Nat.le_add_right check.nowMs 1000)
  refine ⟨?_, ?_, ?_, ?_⟩
  · rw [← counts]
    exact allowed_iff
  · intro allowed
    have below := allowed_iff.mp allowed
    have left := remaining_of_allowed allowed
    refine ⟨by omega, ?_⟩
    intro instant
    have kept : ∀ caller, Tracks caller check.nowMs
        (perform settings check.nowMs (after settings .initial past) check) :=
      tracks_step tracks le_rfl (pastFresh check List.mem_cons_self)
    have further := admitted_at_instant settings restSequential.tail kept instant
      (restSequential.fresh_perform pastFresh) check.caller
    rw [after_append_singleton, further, admitted_perform_of_allowed allowed, left, counts]
    omega
  · intro caller window t isWindow expired entry entryMem
    exact (tracks caller).expiry isWindow expired entryMem
  · intro caller other
    rw [after_append_singleton]
    apply decisionsOf_congr
    exact check_frame settings _ _ other

/-- Two callers; the second check of the first one is made a window after its first. -/
theorem refines_log_two_callers :
    RefinesLog {} [⟨⟨.free, "alice"⟩, 1000, 1⟩, ⟨⟨.pro, "bob"⟩, 1000, 2⟩]
      ⟨⟨.free, "alice"⟩, 61000, 3⟩ [⟨⟨.free, "alice"⟩, 61000, 4⟩] :=
  refines_log _ ⟨by decide, by decide⟩

end VisionApi.RateLimit
