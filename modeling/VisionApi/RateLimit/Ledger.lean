import VisionApi.RateLimit.Limiter

/-!
# The sorted set and the log of admitted requests

The ledger keeps every admitted request next to Redis.  As long as the scripts
of a caller run in the order of the times they carry, and within a second of
them, the sorted set of the caller counts what the log counts, although trims
and deadlines remove entries of both.

The connection is `Tracks`: at every later time the recent entries of the sorted set are
as many as the admitted requests of that window.  It speaks of later times only, because
entries that have left the window may still be in the set or may be gone, and both are
fine.  `tracks_perform` keeps it over a check of the caller, and `Tracks.frame` over the
checks of others.

The lemmas on single commands say how `recent` changes under each of them; the rest is
about the check as a whole and unfolds no command.
-/

namespace VisionApi.RateLimit

open Foundation

/-! ## Counting in a window -/

/-- The entries later than the start of the window that ends at `now`. -/
def recent (now : ℕ) : Option Window → ℕ
  | none => 0
  | some window => window.set.count fun score => now < score + windowMs

/-- The trim of the script. -/
def trim (now : ℕ) (value : Option Window) : Option Window :=
  zremrangebyscore 0 ((now : ℤ) - windowMs) value

/-- Trimming keeps the recent entries, and no key without entries remains. -/
theorem trim_some (now : ℕ) (window : Window) :
    trim now (some window) =
      if (window.set.keep fun score => now < score + windowMs).card = 0 then none
      else some ⟨window.set.keep fun score => now < score + windowMs, window.deadline⟩ := by
  have same : (fun score : ℕ => !((0 : ℤ) ≤ (score : ℤ) &&
      (score : ℤ) ≤ (now : ℤ) - windowMs)) = fun score => decide (now < score + windowMs) := by
    funext score
    by_cases inside : now < score + windowMs
    · have late : ¬((score : ℤ) ≤ (now : ℤ) - windowMs) := by omega
      simp [inside, late]
    · have early : (score : ℤ) ≤ (now : ℤ) - windowMs := by omega
      simp [inside, early]
  simp only [trim, zremrangebyscore, same]

/-- The script counts the entries after the start of the window. -/
theorem zcard_trim (now : ℕ) (value : Option Window) :
    zcard (trim now value) = recent now value := by
  cases value with
  | none => rfl
  | some window =>
      rw [trim_some, SortedSet.card_keep]
      split
      · rename_i nothing
        exact nothing.symm
      · exact SortedSet.card_keep _ _

/-- Trimming does not change what later windows count. -/
theorem recent_trim {now t : ℕ} (later : now ≤ t) (value : Option Window) :
    recent t (trim now value) = recent t value := by
  cases value with
  | none => rfl
  | some window =>
      have kept : (window.set.keep fun score => now < score + windowMs).count
          (fun score => t < score + windowMs) =
            window.set.count fun score => t < score + windowMs := by
        rw [SortedSet.count_keep]
        apply SortedSet.count_congr
        intro entry _
        rw [← Bool.decide_and, decide_eq_decide]
        omega
      rw [trim_some]
      split
      · rename_i nothing
        have nil := List.eq_nil_of_length_eq_zero nothing
        rw [recent, recent, ← kept]
        simp only [SortedSet.count, nil, List.countP_nil]
      · exact kept

/-- A new entry is counted by the windows it belongs to. -/
theorem recent_zadd {now t clock duration : ℕ} {member : String} {value : Option Window}
    (fresh : ∀ window, value = some window → ∀ entry ∈ window.set.entries, entry.2 ≠ member) :
    recent t (some (pexpire clock duration (zadd now member value))) =
      recent t value + if t < now + windowMs then 1 else 0 := by
  cases value with
  | none =>
      have noEntry : ∀ entry ∈ (SortedSet.empty : SortedSet ℕ String).entries,
          entry.2 ≠ member := by simp
      have added := SortedSet.count_insert now noEntry fun score => t < score + windowMs
      simpa [recent, zadd, pexpire] using added
  | some window =>
      have added := SortedSet.count_insert now (fresh window rfl)
        fun score => t < score + windowMs
      simpa [recent, zadd, pexpire] using added

/-- A value with some of the entries of another one and its deadline. -/
def Within (small large : Option Window) : Prop :=
  ∀ window, small = some window → ∃ whole, large = some whole ∧
    window.deadline = whole.deadline ∧ ∀ entry ∈ window.set.entries, entry ∈ whole.set.entries

/-- A key that has expired leaves nothing. -/
theorem live_within (clock : ℕ) (value : Option Window) : Within (live clock value) value := by
  intro window isLive
  cases value with
  | none => cases isLive
  | some whole =>
      simp only [live] at isLive
      split at isLive
      · cases isLive
      · cases isLive
        exact ⟨_, rfl, rfl, fun _ entryMem => entryMem⟩

/-- Trimming only removes. -/
theorem trim_within (now : ℕ) (value : Option Window) : Within (trim now value) value := by
  intro window isTrimmed
  cases value with
  | none => cases isTrimmed
  | some whole =>
      rw [trim_some] at isTrimmed
      split at isTrimmed
      · cases isTrimmed
      · cases isTrimmed
        exact ⟨_, rfl, rfl, fun _ entryMem => (SortedSet.mem_entries_keep.mp entryMem).1⟩

/-- Removing twice is removing. -/
theorem Within.trans {small middle large : Option Window} (first : Within small middle)
    (second : Within middle large) : Within small large := by
  intro window isSome
  rcases first window isSome with ⟨whole, isWhole, sameDeadline, entries⟩
  rcases second whole isWhole with ⟨larger, isLarger, alsoSame, alsoEntries⟩
  exact ⟨larger, isLarger, sameDeadline.trans alsoSame,
    fun entry entryMem => alsoEntries entry (entries entry entryMem)⟩

/-- An added set has the new entry and the old ones. -/
theorem mem_zadd {score : ℕ} {member : String} {value : Option Window} {entry : ℕ × String}
    (entryMem : entry ∈ (zadd score member value).set.entries) :
    entry = (score, member) ∨ ∃ window, value = some window ∧ entry ∈ window.set.entries := by
  cases value with
  | none =>
      rcases SortedSet.mem_entries_insert.mp entryMem with same | ⟨old, _⟩
      · exact .inl same
      · cases old
  | some window =>
      rcases SortedSet.mem_entries_insert.mp entryMem with same | ⟨old, _⟩
      · exact .inl same
      · exact .inr ⟨window, rfl, old⟩

/-! ## One check -/

section Check

variable {settings : Settings} {clock : ℕ} {redis : Redis} {check : Check}

/-- What a script counts at some time before it decides. -/
def counted (clock : ℕ) (redis : Redis) (check : Check) : ℕ :=
  recent check.nowMs (live clock (redis check.caller.key))

/-- A check is admitted exactly if it counts fewer than the limit. -/
theorem allowed_iff :
    (RateLimiter.check settings clock redis check).2.allowed = true ↔
      (counted clock redis check : ℤ) < settings.rateLimitFor check.caller.tier := by
  have card := zcard_trim check.nowMs (live clock (redis check.caller.key))
  simp only [trim] at card
  simp only [RateLimiter.check, slidingWindowScript, card, counted]
  split
  · rename_i below
    simp [decision, below]
  · rename_i notBelow
    split <;> simp [decision, notBelow]

theorem remaining_of_allowed
    (allowed : (RateLimiter.check settings clock redis check).2.allowed = true) :
    (RateLimiter.check settings clock redis check).2.remaining =
      settings.rateLimitFor check.caller.tier - (counted clock redis check + 1) := by
  have below := allowed_iff.mp allowed
  have card := zcard_trim check.nowMs (live clock (redis check.caller.key))
  simp only [trim] at card
  simp only [counted] at below
  simp [RateLimiter.check, slidingWindowScript, card, counted, below, decision]

theorem value_of_allowed
    (allowed : (RateLimiter.check settings clock redis check).2.allowed = true) :
    (RateLimiter.check settings clock redis check).1 check.caller.key =
      some (pexpire clock (windowMs + 1000) (zadd check.nowMs check.member
        (trim check.nowMs (live clock (redis check.caller.key))))) := by
  have below := allowed_iff.mp allowed
  have card := zcard_trim check.nowMs (live clock (redis check.caller.key))
  simp only [trim] at card
  simp only [counted] at below
  simp [RateLimiter.check, slidingWindowScript, card, below, trim]

/-- A rejected check leaves the set trimmed. -/
theorem value_of_rejected
    (rejected : ¬(RateLimiter.check settings clock redis check).2.allowed = true) :
    (RateLimiter.check settings clock redis check).1 check.caller.key =
      trim check.nowMs (live clock (redis check.caller.key)) := by
  rw [allowed_iff] at rejected
  have card := zcard_trim check.nowMs (live clock (redis check.caller.key))
  simp only [trim] at card
  simp only [counted] at rejected
  simp only [RateLimiter.check, slidingWindowScript, card, rejected, if_false,
    Function.update_self, trim]
  split <;> rfl

end Check

/-! ## The ledger -/

/-- Redis, and every admitted request with the time it carried, the latest first. -/
structure Ledger where
  redis : Redis
  log : List Check

/-- A ledger before the first check. -/
def Ledger.initial : Ledger :=
  ⟨fun _ => none, []⟩

/-- A check whose script is executed at `clock`. -/
def perform (settings : Settings) (clock : ℕ) (s : Ledger) (check : Check) : Ledger :=
  let (redis, decision) := RateLimiter.check settings clock s.redis check
  ⟨redis, if decision.allowed then check :: s.log else s.log⟩

/-- The admitted requests of a caller with a time in the window that ends at `t`. -/
def admitted (log : List Check) (caller : Caller) (t : ℕ) : ℕ :=
  log.countP fun check =>
    check.caller = caller && (check.nowMs ≤ t && t < check.nowMs + windowMs)

theorem lt_add_windowMs (now : ℕ) : now < now + windowMs :=
  Nat.lt_add_of_pos_right (by decide)

@[simp]
theorem perform_redis (settings : Settings) (clock : ℕ) (s : Ledger) (check : Check) :
    (perform settings clock s check).redis =
      (RateLimiter.check settings clock s.redis check).1 :=
  rfl

theorem perform_log_of_allowed {settings : Settings} {clock : ℕ} {s : Ledger} {check : Check}
    (allowed : (RateLimiter.check settings clock s.redis check).2.allowed = true) :
    (perform settings clock s check).log = check :: s.log := by
  simp [perform, allowed]

theorem perform_log_of_rejected {settings : Settings} {clock : ℕ} {s : Ledger} {check : Check}
    (rejected : ¬(RateLimiter.check settings clock s.redis check).2.allowed = true) :
    (perform settings clock s check).log = s.log := by
  simp [perform, rejected]

/-- A request is admitted in all the windows with the time it carries. -/
theorem admitted_cons (log : List Check) (check : Check) (caller : Caller) (t : ℕ) :
    admitted (check :: log) caller t = admitted log caller t +
      if check.caller = caller ∧ check.nowMs ≤ t ∧ t < check.nowMs + windowMs then 1 else 0 := by
  simp [admitted, List.countP_cons]

theorem admitted_cons_own {log : List Check} {check : Check} {t : ℕ} (started : check.nowMs ≤ t) :
    admitted (check :: log) check.caller t =
      admitted log check.caller t + if t < check.nowMs + windowMs then 1 else 0 := by
  simp [admitted_cons, started]

theorem admitted_cons_other {log : List Check} {check : Check} {caller : Caller} {t : ℕ}
    (other : check.caller ≠ caller) : admitted (check :: log) caller t = admitted log caller t := by
  simp [admitted_cons, other]

/-! ## Tracking -/

/-- The sorted set of a caller counts, in every window from `latest` on, what the log counts. -/
structure Tracks (caller : Caller) (latest : ℕ) (s : Ledger) : Prop where
  bounded : ∀ check ∈ s.log, check.caller = caller → check.nowMs ≤ latest
  counted : ∀ t, latest ≤ t → recent t (s.redis caller.key) = admitted s.log caller t
  members : ∀ window, s.redis caller.key = some window → ∀ entry ∈ window.set.entries,
    ∃ check ∈ s.log, check.caller = caller ∧ entry = (check.nowMs, check.member)
  deadlines : ∀ window, s.redis caller.key = some window →
    ∃ deadline, window.deadline = some deadline ∧
      ∀ entry ∈ window.set.entries, entry.1 + windowMs + 1000 ≤ deadline

variable {settings : Settings} {s : Ledger} {caller : Caller} {latest clock : ℕ}

theorem tracks_initial (caller : Caller) (latest : ℕ) : Tracks caller latest .initial := by
  refine ⟨?_, fun _ _ => rfl, ?_, ?_⟩
  · rintro check ⟨⟩
  · rintro window ⟨⟩
  · rintro window ⟨⟩

theorem Tracks.mono (tracks : Tracks caller latest s) {later : ℕ} (isLater : latest ≤ later) :
    Tracks caller later s where
  bounded := fun check checkMem own => (tracks.bounded check checkMem own).trans isLater
  counted := fun t after => tracks.counted t (isLater.trans after)
  members := tracks.members
  deadlines := tracks.deadlines

/-- A key has no entry of a current window left when it expires. -/
theorem Tracks.recent_live (tracks : Tracks caller latest s) {t : ℕ} (prompt : clock ≤ t + 1000) :
    recent t (live clock (s.redis caller.key)) = recent t (s.redis caller.key) := by
  cases isValue : s.redis caller.key with
  | none => rfl
  | some window =>
      rcases tracks.deadlines window isValue with ⟨deadline, isDeadline, late⟩
      simp only [live, isDeadline, Option.any_some, decide_eq_true_eq]
      split
      · rename_i expired
        have nothing : window.set.count (fun score => t < score + windowMs) = 0 := by
          apply SortedSet.count_eq_zero
          intro entry entryMem
          have bound := late entry entryMem
          simp only [decide_eq_true_eq]
          omega
        exact nothing.symm
      · rfl

/-- A script that runs within a second of the time it carries counts the admitted requests of its
window. -/
theorem Tracks.counted_eq {check : Check} (tracks : Tracks check.caller latest s)
    (inOrder : latest ≤ check.nowMs) (prompt : clock ≤ check.nowMs + 1000) :
    VisionApi.RateLimit.counted clock s.redis check =
      admitted s.log check.caller check.nowMs := by
  rw [VisionApi.RateLimit.counted, tracks.recent_live prompt, tracks.counted _ inOrder]

section Perform

variable {check : Check}

/-- What is left of the window after trimming counts the requests admitted since. -/
theorem Tracks.recent_trim_live (tracks : Tracks check.caller latest s)
    (inOrder : latest ≤ check.nowMs) (prompt : clock ≤ check.nowMs + 1000) {t : ℕ}
    (later : check.nowMs ≤ t) :
    recent t (trim check.nowMs (live clock (s.redis check.caller.key))) =
      admitted s.log check.caller t := by
  rw [recent_trim later, tracks.recent_live (by omega), tracks.counted t (by omega)]

theorem tracks_of_allowed (tracks : Tracks check.caller latest s) (inOrder : latest ≤ check.nowMs)
    (notEarly : check.nowMs ≤ clock) (prompt : clock ≤ check.nowMs + 1000)
    (fresh : ∀ other ∈ s.log, other.caller = check.caller → other.member ≠ check.member)
    (allowed : (RateLimiter.check settings clock s.redis check).2.allowed = true) :
    Tracks check.caller check.nowMs (perform settings clock s check) := by
  have value := value_of_allowed allowed
  have log := perform_log_of_allowed allowed
  have stored : ∀ window, trim check.nowMs (live clock (s.redis check.caller.key)) = some window →
      ∀ entry ∈ window.set.entries, ∃ other ∈ s.log,
        other.caller = check.caller ∧ entry = (other.nowMs, other.member) := by
    intro window isWindow entry entryMem
    rcases ((trim_within _ _).trans (live_within _ _)) window isWindow with
      ⟨whole, isWhole, _, entries⟩
    exact tracks.members whole isWhole entry (entries entry entryMem)
  refine ⟨?_, ?_, ?_, ?_⟩
  · rw [log]
    intro other otherMem own
    rcases List.mem_cons.mp otherMem with rfl | earlier
    · exact le_rfl
    · exact (tracks.bounded other earlier own).trans inOrder
  · intro t later
    rw [log, perform_redis, value, admitted_cons_own later, recent_zadd,
      tracks.recent_trim_live inOrder prompt later]
    intro window isWindow entry entryMem
    rcases stored window isWindow entry entryMem with ⟨other, otherMem, own, rfl⟩
    exact fresh other otherMem own
  · intro window isWindow entry entryMem
    rw [perform_redis, value] at isWindow
    cases isWindow
    rw [log]
    rcases mem_zadd entryMem with rfl | ⟨old, isOld, inOld⟩
    · exact ⟨check, List.mem_cons_self, rfl, rfl⟩
    · rcases stored old isOld entry inOld with ⟨other, otherMem, own, same⟩
      exact ⟨other, List.mem_cons_of_mem _ otherMem, own, same⟩
  · intro window isWindow
    rw [perform_redis, value] at isWindow
    cases isWindow
    refine ⟨clock + (windowMs + 1000), rfl, ?_⟩
    intro entry entryMem
    rcases mem_zadd entryMem with rfl | ⟨old, isOld, inOld⟩
    · omega
    · rcases stored old isOld entry inOld with ⟨other, otherMem, own, rfl⟩
      have bound := tracks.bounded other otherMem own
      omega

theorem tracks_of_rejected (tracks : Tracks check.caller latest s) (inOrder : latest ≤ check.nowMs)
    (prompt : clock ≤ check.nowMs + 1000)
    (rejected : ¬(RateLimiter.check settings clock s.redis check).2.allowed = true) :
    Tracks check.caller check.nowMs (perform settings clock s check) := by
  have within : Within (trim check.nowMs (live clock (s.redis check.caller.key)))
      (s.redis check.caller.key) := (trim_within _ _).trans (live_within _ _)
  have value := value_of_rejected rejected
  have log := perform_log_of_rejected rejected
  refine ⟨?_, ?_, ?_, ?_⟩
  · rw [log]
    exact (tracks.mono inOrder).bounded
  · intro t later
    rw [log, perform_redis, value]
    exact tracks.recent_trim_live inOrder prompt later
  · intro window isWindow entry entryMem
    rw [perform_redis, value] at isWindow
    rcases within window isWindow with ⟨whole, isWhole, _, entries⟩
    rw [log]
    exact tracks.members whole isWhole entry (entries entry entryMem)
  · intro window isWindow
    rw [perform_redis, value] at isWindow
    rcases within window isWindow with ⟨whole, isWhole, sameDeadline, entries⟩
    rcases tracks.deadlines whole isWhole with ⟨deadline, isDeadline, late⟩
    exact ⟨deadline, sameDeadline.trans isDeadline,
      fun entry entryMem => late entry (entries entry entryMem)⟩

/-- A check of the caller keeps the counts equal. -/
theorem tracks_perform (tracks : Tracks check.caller latest s)
    (inOrder : latest ≤ check.nowMs) (notEarly : check.nowMs ≤ clock)
    (prompt : clock ≤ check.nowMs + 1000)
    (fresh : ∀ other ∈ s.log, other.caller = check.caller → other.member ≠ check.member) :
    Tracks check.caller check.nowMs (perform settings clock s check) := by
  by_cases allowed : (RateLimiter.check settings clock s.redis check).2.allowed = true
  · exact tracks_of_allowed tracks inOrder notEarly prompt fresh allowed
  · exact tracks_of_rejected tracks inOrder prompt allowed

end Perform

/-- A check of another caller logs nothing of this one. -/
theorem mem_perform_log {check : Check} (other : caller ≠ check.caller) {clock : ℕ}
    {logged : Check} (own : logged.caller = caller) :
    logged ∈ (perform settings clock s check).log ↔ logged ∈ s.log := by
  simp only [perform]
  split
  · rw [List.mem_cons, or_iff_right]
    rintro rfl
    exact other own.symm
  · exact Iff.rfl

/-- A check of another caller changes nothing that is tracked. -/
theorem Tracks.frame (tracks : Tracks caller latest s) {check : Check}
    (other : caller ≠ check.caller) : Tracks caller latest (perform settings clock s check) := by
  have redis : (perform settings clock s check).redis caller.key = s.redis caller.key :=
    check_frame settings clock s.redis other
  have entries : ∀ logged, logged.caller = caller →
      (logged ∈ (perform settings clock s check).log ↔ logged ∈ s.log) := by
    intro logged own
    exact mem_perform_log other own
  have counts : ∀ t, admitted (perform settings clock s check).log caller t =
      admitted s.log caller t := by
    intro t
    simp only [perform]
    split
    · exact admitted_cons_other (Ne.symm other)
    · rfl
  refine ⟨?_, ?_, ?_, ?_⟩
  · intro logged loggedMem own
    exact tracks.bounded logged ((entries logged own).mp loggedMem) own
  · intro t later
    rw [redis, counts]
    exact tracks.counted t later
  · intro window isWindow entry entryMem
    rw [redis] at isWindow
    rcases tracks.members window isWindow entry entryMem with ⟨logged, loggedMem, own, same⟩
    exact ⟨logged, (entries logged own).mpr loggedMem, own, same⟩
  · intro window isWindow
    rw [redis] at isWindow
    exact tracks.deadlines window isWindow

end VisionApi.RateLimit
