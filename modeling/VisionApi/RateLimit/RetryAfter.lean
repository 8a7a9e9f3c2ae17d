import VisionApi.Foundation.Digits
import VisionApi.Foundation.Text
import VisionApi.RateLimit.SlidingLog

/-!
# The time to retry

A rejected caller is told after how many seconds the oldest request has left its
window.  The sorted set holds no more entries than the limit, so that by then
there is room for one, and it still holds every request of the window that was
admitted.

Beyond the counts, this needs the entries themselves: `Remembers` says that the set holds
the members of the admitted requests of the current window, and no more entries than the
limit.  It is kept by the checks of the caller and of others (`remembers_perform`,
`Remembers.frame`), and by induction after all of them (`remembers_after`).

The time to retry is truncated to whole seconds and one second is added, so it is never
too short and at most a second too long.  When it has passed the oldest entry is trimmed,
and if nothing else was admitted in between the count is below the limit
(`zcard_trimmed_lt`).
-/

namespace VisionApi.RateLimit

open Foundation

variable {settings : Settings} {caller : Caller} {latest now : ℕ} {s : Ledger}

/-! ## Members -/

theorem toList_toString (value : ℕ) : (toString value).toList = Nat.toDigits 10 value := by
  rw [Nat.toString_eq_repr, Nat.repr, String.toList_ofList]

theorem colon_notMem_toDigits (value : ℕ) : ':' ∉ Nat.toDigits 10 value := by
  intro isChar
  have isDigit := Nat.isDigit_of_mem_toDigits (by decide) (by decide) isChar
  cases isDigit

/-- The member of a request says which time it carries. -/
theorem nowMs_eq_of_member_eq {first second : Check} (same : first.member = second.member) :
    first.nowMs = second.nowMs := by
  have chars := congrArg String.toList same
  simp only [Check.member, String.toList_append, toList_toString, List.append_assoc] at chars
  have digits := (append_separator_injective (colon_notMem_toDigits _) (colon_notMem_toDigits _)
    chars).1
  have values := congrArg (Nat.ofDigitChars 10 · 0) digits
  simpa only [Nat.ofDigitChars_ten_toDigits] using values

/-! ## What the sorted set remembers -/

theorem Within.zcard_le {small large : Option Window} (within : Within small large) :
    zcard small ≤ zcard large := by
  cases small with
  | none => exact Nat.zero_le _
  | some window =>
      rcases within window rfl with ⟨whole, rfl, _, entries⟩
      exact SortedSet.card_le_of_subset entries

theorem mem_trim {value : Option Window} {window : Window}
    (isTrimmed : trim now value = some window) {entry : ℕ × String} :
    entry ∈ window.set.entries ↔ now < entry.1 + windowMs ∧
      ∃ whole, value = some whole ∧ entry ∈ whole.set.entries := by
  cases value with
  | none => cases isTrimmed
  | some whole =>
      rw [trim_some] at isTrimmed
      split at isTrimmed
      · cases isTrimmed
      · cases isTrimmed
        simp [SortedSet.mem_entries_keep, and_comm]

/-- A trimmed value with an entry in the window is still there. -/
theorem exists_trim {whole : Window} {entry : ℕ × String} (isEntry : entry ∈ whole.set.entries)
    (isRecent : now < entry.1 + windowMs) :
    ∃ window, trim now (some whole) = some window ∧ entry ∈ window.set.entries := by
  have kept : entry ∈ (whole.set.keep fun score => now < score + windowMs).entries :=
    SortedSet.mem_entries_keep.mpr ⟨isEntry, decide_eq_true isRecent⟩
  have nonempty : (whole.set.keep fun score => now < score + windowMs).card ≠ 0 := by
    intro none
    exact List.ne_nil_of_mem kept (List.eq_nil_of_length_eq_zero none)
  rw [trim_some, if_neg nonempty]
  exact ⟨_, rfl, kept⟩

/-- The sorted set of a caller holds admitted requests only, all of the current window, and no more
than the limit. -/
structure Remembers (settings : Settings) (caller : Caller) (latest : ℕ) (s : Ledger) : Prop where
  bounded : ∀ check ∈ s.log, check.caller = caller → check.nowMs ≤ latest
  members : ∀ window, s.redis caller.key = some window → ∀ entry ∈ window.set.entries,
    ∃ check ∈ s.log, check.caller = caller ∧ entry = (check.nowMs, check.member)
  deadlines : ∀ window, s.redis caller.key = some window →
    ∃ deadline, window.deadline = some deadline ∧
      ∀ entry ∈ window.set.entries, entry.1 + windowMs + 1000 ≤ deadline
  current : ∀ check ∈ s.log, check.caller = caller → latest < check.nowMs + windowMs →
    ∃ window, s.redis caller.key = some window ∧
      (check.nowMs, check.member) ∈ window.set.entries
  size : (zcard (s.redis caller.key) : ℤ) ≤ max 0 (settings.rateLimitFor caller.tier)

theorem remembers_initial (settings : Settings) (caller : Caller) (latest : ℕ) :
    Remembers settings caller latest .initial := by
  refine ⟨?_, ?_, ?_, ?_, le_max_left _ _⟩
  · rintro check ⟨⟩
  · rintro window ⟨⟩
  · rintro window ⟨⟩
  · rintro check ⟨⟩

theorem Remembers.mono (remembers : Remembers settings caller latest s) {later : ℕ}
    (isLater : latest ≤ later) : Remembers settings caller later s where
  bounded := fun check checkMem own => (remembers.bounded check checkMem own).trans isLater
  members := remembers.members
  deadlines := remembers.deadlines
  current := fun check checkMem own isRecent =>
    remembers.current check checkMem own (isLater.trans_lt isRecent)
  size := remembers.size

/-- What a script finds of its caller after the trim. -/
def trimmed (now : ℕ) (s : Ledger) (caller : Caller) : Option Window :=
  trim now (live now (s.redis caller.key))

/-- Trimming a key only removes. -/
theorem trimmed_within (now : ℕ) (s : Ledger) (caller : Caller) :
    Within (trimmed now s caller) (s.redis caller.key) :=
  (trim_within _ _).trans (live_within _ _)

/-- A script finds every request that was admitted in its window. -/
theorem Remembers.mem_trimmed (remembers : Remembers settings caller latest s)
    (inOrder : latest ≤ now) {logged : Check} (isLogged : logged ∈ s.log)
    (own : logged.caller = caller) (isRecent : now < logged.nowMs + windowMs) :
    ∃ window, trimmed now s caller = some window ∧
      (logged.nowMs, logged.member) ∈ window.set.entries := by
  rcases remembers.current logged isLogged own (inOrder.trans_lt isRecent) with
    ⟨whole, isWhole, isEntry⟩
  rcases remembers.deadlines whole isWhole with ⟨deadline, isDeadline, late⟩
  have notExpired : ¬deadline < now := by
    have bound := late _ isEntry
    dsimp only at bound
    omega
  rw [trimmed, isWhole, live, isDeadline, Option.any_some, if_neg (by simpa using notExpired)]
  exact exists_trim isEntry isRecent

/-- What is kept of a value with all its entries recorded is recorded too. -/
theorem Remembers.members_trimmed (remembers : Remembers settings caller latest s) {window : Window}
    (isWindow : trimmed now s caller = some window) {entry : ℕ × String}
    (isEntry : entry ∈ window.set.entries) :
    ∃ check ∈ s.log, check.caller = caller ∧ entry = (check.nowMs, check.member) := by
  rcases trimmed_within now s caller window isWindow with ⟨whole, isWhole, _, entries⟩
  exact remembers.members whole isWhole entry (entries entry isEntry)

theorem zcard_zadd_le (score : ℕ) (member : String) (value : Option Window) :
    (zadd score member value).set.card ≤ zcard value + 1 := by
  cases value with
  | none => exact SortedSet.card_insert_le _ _ _
  | some window => exact SortedSet.card_insert_le _ _ _

theorem mem_zadd_self (score : ℕ) (member : String) (value : Option Window) :
    (score, member) ∈ (zadd score member value).set.entries := by
  cases value with
  | none => exact SortedSet.mem_entries_insert.mpr (Or.inl rfl)
  | some window => exact SortedSet.mem_entries_insert.mpr (Or.inl rfl)

/-- Another entry stays in the set, or gives way to the same entry. -/
theorem mem_zadd_of_mem {score : ℕ} {member : String} {window : Window} {entry : ℕ × String}
    (isEntry : entry ∈ window.set.entries) (sameScore : entry.2 = member → entry.1 = score) :
    entry ∈ (zadd score member (some window)).set.entries := by
  apply SortedSet.mem_entries_insert.mpr
  by_cases same : entry.2 = member
  · left
    exact Prod.ext (sameScore same) same
  · right
    exact ⟨isEntry, same⟩

/-- An admitted request is remembered with what was there. -/
theorem remembers_admitted {check : Check}
    (remembers : Remembers settings check.caller latest s) (inOrder : latest ≤ check.nowMs)
    (allowed : (RateLimiter.check settings check.nowMs s.redis check).2.allowed = true) :
    Remembers settings check.caller check.nowMs (perform settings check.nowMs s check) := by
  have value : (perform settings check.nowMs s check).redis check.caller.key =
      some (pexpire check.nowMs (windowMs + 1000)
        (zadd check.nowMs check.member (trimmed check.nowMs s check.caller))) :=
    value_of_allowed allowed
  have log := perform_log_of_allowed allowed
  refine ⟨?_, ?_, ?_, ?_, ?_⟩
  · rw [log]
    intro other isLogged own
    rcases List.mem_cons.mp isLogged with rfl | earlier
    · exact le_rfl
    · exact (remembers.bounded other earlier own).trans inOrder
  · intro window isWindow entry isEntry
    rw [value] at isWindow
    cases isWindow
    rw [log]
    rcases mem_zadd isEntry with rfl | ⟨old, isOld, inOld⟩
    · exact ⟨check, List.mem_cons_self, rfl, rfl⟩
    · rcases remembers.members_trimmed isOld inOld with ⟨other, isLogged, own, same⟩
      exact ⟨other, List.mem_cons_of_mem _ isLogged, own, same⟩
  · intro window isWindow
    rw [value] at isWindow
    cases isWindow
    refine ⟨check.nowMs + (windowMs + 1000), rfl, ?_⟩
    intro entry isEntry
    rcases mem_zadd isEntry with rfl | ⟨old, isOld, inOld⟩
    · omega
    · rcases remembers.members_trimmed isOld inOld with ⟨other, isLogged, own, rfl⟩
      have bound := remembers.bounded other isLogged own
      omega
  · rw [log]
    intro other isLogged own isRecent
    refine ⟨_, value, ?_⟩
    rcases List.mem_cons.mp isLogged with rfl | earlier
    · exact mem_zadd_self _ _ _
    · rcases remembers.mem_trimmed inOrder earlier own isRecent with ⟨window, isWindow, isEntry⟩
      rw [isWindow]
      exact mem_zadd_of_mem isEntry nowMs_eq_of_member_eq
  · have below := allowed_iff.mp allowed
    rw [counted, ← zcard_trim] at below
    have grows := zcard_zadd_le check.nowMs check.member (trimmed check.nowMs s check.caller)
    rw [value]
    simp only [trimmed, zcard, pexpire] at *
    omega

/-- A rejected request leaves what is still in the window. -/
theorem remembers_rejected {check : Check}
    (remembers : Remembers settings check.caller latest s) (inOrder : latest ≤ check.nowMs)
    (rejected : ¬(RateLimiter.check settings check.nowMs s.redis check).2.allowed = true) :
    Remembers settings check.caller check.nowMs (perform settings check.nowMs s check) := by
  have within := trimmed_within check.nowMs s check.caller
  have value : (perform settings check.nowMs s check).redis check.caller.key =
      trimmed check.nowMs s check.caller := value_of_rejected rejected
  have log := perform_log_of_rejected rejected
  refine ⟨?_, ?_, ?_, ?_, ?_⟩
  · rw [log]
    exact (remembers.mono inOrder).bounded
  · intro window isWindow entry isEntry
    rw [value] at isWindow
    rw [log]
    exact remembers.members_trimmed isWindow isEntry
  · intro window isWindow
    rw [value] at isWindow
    rcases within window isWindow with ⟨whole, isWhole, sameDeadline, entries⟩
    rcases remembers.deadlines whole isWhole with ⟨deadline, isDeadline, late⟩
    exact ⟨deadline, sameDeadline.trans isDeadline,
      fun entry isEntry => late entry (entries entry isEntry)⟩
  · rw [log, value]
    intro other isLogged own isRecent
    exact remembers.mem_trimmed inOrder isLogged own isRecent
  · rw [value]
    exact (Int.ofNat_le.mpr within.zcard_le).trans remembers.size

/-- A script that runs at the time it carries keeps what its caller's set remembers. -/
theorem remembers_perform {check : Check} (remembers : Remembers settings check.caller latest s)
    (inOrder : latest ≤ check.nowMs) :
    Remembers settings check.caller check.nowMs (perform settings check.nowMs s check) := by
  by_cases allowed : (RateLimiter.check settings check.nowMs s.redis check).2.allowed = true
  · exact remembers_admitted remembers inOrder allowed
  · exact remembers_rejected remembers inOrder allowed

/-- A check of another caller changes nothing that is remembered. -/
theorem Remembers.frame (remembers : Remembers settings caller latest s) {check : Check}
    (other : caller ≠ check.caller) (clock : ℕ) :
    Remembers settings caller latest (perform settings clock s check) := by
  have redis : (perform settings clock s check).redis caller.key = s.redis caller.key :=
    check_frame settings clock s.redis other
  have entries : ∀ logged, logged.caller = caller →
      (logged ∈ (perform settings clock s check).log ↔ logged ∈ s.log) := by
    intro logged own
    exact mem_perform_log other own
  refine ⟨?_, ?_, ?_, ?_, ?_⟩
  · intro logged isLogged own
    exact remembers.bounded logged ((entries logged own).mp isLogged) own
  · intro window isWindow entry isEntry
    rw [redis] at isWindow
    rcases remembers.members window isWindow entry isEntry with ⟨logged, isLogged, own, same⟩
    exact ⟨logged, (entries logged own).mpr isLogged, own, same⟩
  · rw [redis]
    exact remembers.deadlines
  · rw [redis]
    intro logged isLogged own isRecent
    exact remembers.current logged ((entries logged own).mp isLogged) own isRecent
  · rw [redis]
    exact remembers.size

/-- In a sequence of checks under a clock that does not go back every caller is remembered. -/
theorem remembers_after {checks : List Check}
    (ordered : checks.Pairwise fun first second => first.nowMs ≤ second.nowMs)
    (remembers : Remembers settings caller latest s) {bound : ℕ} (start : latest ≤ bound)
    (inside : ∀ check ∈ checks, latest ≤ check.nowMs ∧ check.nowMs ≤ bound) :
    Remembers settings caller bound (after settings s checks) := by
  induction checks generalizing s latest with
  | nil => exact remembers.mono start
  | cons check checks ih =>
      have here := inside check List.mem_cons_self
      have step : Remembers settings caller check.nowMs
          (perform settings check.nowMs s check) := by
        by_cases own : caller = check.caller
        · subst own
          exact remembers_perform remembers here.1
        · exact (remembers.frame own _).mono here.1
      apply ih (List.pairwise_cons.mp ordered).2 step here.2
      intro other isLater
      exact ⟨(List.pairwise_cons.mp ordered).1 other isLater,
        (inside other (List.mem_cons_of_mem _ isLater)).2⟩

/-! ## A rejected check -/

/-- The time to retry that a check is given after the past ones. -/
def retryAfter (settings : Settings) (past : List Check) (check : Check) : ℤ :=
  (RateLimiter.check settings check.nowMs (after settings .initial past).redis
    check).2.retryAfterSeconds

/-- A rejected caller waits for the first entry of its set. -/
theorem retryAfterSeconds_of_rejected {check : Check}
    (positive : 1 ≤ settings.rateLimitFor check.caller.tier)
    (rejected : ¬(RateLimiter.check settings check.nowMs s.redis check).2.allowed = true) :
    ∃ window first, trimmed check.nowMs s check.caller = some window ∧
      window.set.first? = some first ∧
      (RateLimiter.check settings check.nowMs s.redis check).2.retryAfterSeconds =
        max 1 (((first.1 : ℤ) + windowMs - check.nowMs).tdiv 1000 + 1) := by
  have full := mt allowed_iff.mpr rejected
  rw [counted, ← zcard_trim] at full
  cases isTrimmed : trimmed check.nowMs s check.caller with
  | none =>
      rw [trimmed] at isTrimmed
      rw [isTrimmed, zcard] at full
      omega
  | some window =>
      rw [trimmed] at isTrimmed
      rw [isTrimmed] at full
      cases isFirst : window.set.first? with
      | none =>
          have nil : window.set.entries = [] := List.head?_eq_none_iff.mp isFirst
          rw [zcard, SortedSet.card, nil, List.length_nil] at full
          omega
      | some first =>
          refine ⟨window, first, rfl, isFirst, ?_⟩
          simp only [trim] at isTrimmed
          simp only [RateLimiter.check, slidingWindowScript, isTrimmed, if_neg full, zrangeFirst,
            isFirst, decision]
          rfl

/-- Nothing need be removed. -/
theorem Within.refl (value : Option Window) : Within value value := by
  intro window isWindow
  exact ⟨window, isWindow, rfl, fun _ isEntry => isEntry⟩

theorem decisionsOf_cons (redis : Redis) (check : Check) (checks : List Check) :
    decisionsOf settings caller redis (check :: checks) =
      if check.caller = caller then
        (RateLimiter.check settings check.nowMs redis check).2 ::
          decisionsOf settings caller (RateLimiter.check settings check.nowMs redis check).1 checks
      else
        decisionsOf settings caller (RateLimiter.check settings check.nowMs redis check).1 checks :=
  rfl

/-- Without an admission the set of a caller gets no new entry. -/
theorem after_within {checks : List Check}
    (rejected : ∀ decision ∈ decisionsOf settings caller s.redis checks,
      decision.allowed = false) :
    Within ((after settings s checks).redis caller.key) (s.redis caller.key) := by
  induction checks generalizing s with
  | nil => exact Within.refl _
  | cons check checks ih =>
      rw [decisionsOf_cons] at rejected
      by_cases own : check.caller = caller
      · subst own
        rw [if_pos rfl, List.forall_mem_cons] at rejected
        have value : (perform settings check.nowMs s check).redis check.caller.key =
            trimmed check.nowMs s check.caller :=
          value_of_rejected (by rw [rejected.1]; exact Bool.false_ne_true)
        have later := ih (s := perform settings check.nowMs s check) rejected.2
        rw [value] at later
        exact later.trans (trimmed_within _ _ _)
      · rw [if_neg own] at rejected
        have unchanged : (perform settings check.nowMs s check).redis caller.key =
            s.redis caller.key := check_frame settings check.nowMs s.redis (Ne.symm own)
        have later := ih (s := perform settings check.nowMs s check) rejected
        rw [unchanged] at later
        exact later

theorem after_append (s : Ledger) (past later : List Check) :
    after settings s (past ++ later) = after settings (after settings s past) later := by
  induction past generalizing s with
  | nil => rfl
  | cons check past ih => exact ih _

/-- A set without new entries is smaller when one of its entries has left the window. -/
theorem zcard_trimmed_lt {window : Window} (kept : Within (s.redis caller.key) (some window))
    {entry : ℕ × String} (isEntry : entry ∈ window.set.entries) (left : entry.1 + windowMs ≤ now) :
    zcard (trimmed now s caller) < window.set.card := by
  cases isLater : trimmed now s caller with
  | none => exact List.length_pos_of_mem isEntry
  | some later =>
      rcases ((trimmed_within now s caller).trans kept) later isLater with ⟨_, ⟨⟩, _, entries⟩
      apply SortedSet.card_lt_of_subset entries isEntry
      intro isStill
      have stillRecent := ((mem_trim isLater).mp isStill).1
      omega

/-- A rejected caller that comes back after the time to retry is admitted, and the time is at most
a second longer than the wait for the oldest request of its window. -/
theorem retry_after_sufficient (settings : Settings) {past between : List Check}
    {check next : Check}
    (ordered : (past ++ check :: (between ++ [next])).Pairwise
      fun first second => first.nowMs ≤ second.nowMs)
    (positive : 1 ≤ settings.rateLimitFor check.caller.tier)
    (rejected : (RateLimiter.check settings check.nowMs (after settings .initial past).redis
      check).2.allowed = false) :
    1 ≤ retryAfter settings past check ∧
      (next.caller = check.caller →
        check.nowMs + 1000 * retryAfter settings past check ≤ next.nowMs →
        (∀ decision ∈ decisionsOf settings check.caller
          (after settings .initial (past ++ [check])).redis between, decision.allowed = false) →
        (RateLimiter.check settings next.nowMs
          (after settings .initial (past ++ check :: between)).redis next).2.allowed = true) ∧
      ∃ oldest ∈ (after settings .initial past).log, oldest.caller = check.caller ∧
        check.nowMs < oldest.nowMs + windowMs ∧
        (∀ other ∈ (after settings .initial past).log, other.caller = check.caller →
          check.nowMs < other.nowMs + windowMs → oldest.nowMs ≤ other.nowMs) ∧
        1000 * retryAfter settings past check -
          ((oldest.nowMs : ℤ) + windowMs - check.nowMs) ≤ 1000 := by
  have parts := List.pairwise_append.mp ordered
  have remembers : Remembers settings check.caller check.nowMs (after settings .initial past) := by
    apply remembers_after parts.1 (remembers_initial settings check.caller 0) (Nat.zero_le _)
    intro other isPast
    exact ⟨Nat.zero_le _, parts.2.2 other isPast check List.mem_cons_self⟩
  have notAllowed := Bool.eq_false_iff.mp rejected
  rcases retryAfterSeconds_of_rejected positive notAllowed with
    ⟨window, first, isWindow, isFirst, seconds⟩
  have inWindow : first ∈ window.set.entries := List.mem_of_mem_head? isFirst
  have isRecent := ((mem_trim isWindow).mp inWindow).1
  have wait : ((first.1 : ℤ) + windowMs - check.nowMs).tdiv 1000 =
      ((first.1 : ℤ) + windowMs - check.nowMs) / 1000 :=
    Int.tdiv_eq_ediv_of_nonneg (by omega)
  rw [wait] at seconds
  have isRetry : retryAfter settings past check = _ := seconds
  refine ⟨?_, ?_, ?_⟩
  · rw [isRetry]
    exact le_max_left _ _
  · intro sameCaller late noAdmission
    have step : Remembers settings check.caller check.nowMs
        (perform settings check.nowMs (after settings .initial past) check) :=
      remembers_perform remembers le_rfl
    have value : (perform settings check.nowMs (after settings .initial past) check).redis
        check.caller.key = some window :=
      (value_of_rejected notAllowed).trans isWindow
    rw [after_append_singleton] at noAdmission
    have kept := after_within noAdmission
    rw [value] at kept
    have size := step.size
    rw [value, zcard, max_eq_right (by omega)] at size
    rw [after_append, allowed_iff, counted, ← zcard_trim, sameCaller]
    have gone : first.1 + windowMs ≤ next.nowMs := by
      rw [isRetry] at late
      omega
    have fewer := zcard_trimmed_lt kept inWindow gone
    rw [trimmed] at fewer
    exact (Int.ofNat_lt.mpr fewer).trans_le size
  · rcases remembers.members_trimmed isWindow inWindow with ⟨oldest, isLogged, own, same⟩
    refine ⟨oldest, isLogged, own, ?_, ?_, ?_⟩
    · rw [same] at isRecent
      exact isRecent
    · intro other isOther ownOther recentOther
      rcases remembers.mem_trimmed le_rfl isOther ownOther recentOther with
        ⟨alsoWindow, isAlso, isEntry⟩
      cases isAlso.symm.trans isWindow
      have least := SortedSet.score_le_of_first? isFirst isEntry
      rw [same] at least
      exact least
    · rw [isRetry, same]
      rw [same] at isRecent
      dsimp only at isRecent ⊢
      omega

/-- With one request a minute, a caller that is rejected half a second after its first request is
admitted a minute later. -/
theorem retry_after_one_request :
    (RateLimiter.check { rateLimitFreeRpm := 1 } 61500
      (after { rateLimitFreeRpm := 1 } .initial
        [⟨⟨.free, "alice"⟩, 1000, 1⟩, ⟨⟨.free, "alice"⟩, 1500, 2⟩]).redis
      ⟨⟨.free, "alice"⟩, 61500, 3⟩).2.allowed = true := by
  have ordered : ([⟨⟨.free, "alice"⟩, 1000, 1⟩] ++ ⟨⟨.free, "alice"⟩, 1500, 2⟩ ::
      ([] ++ [⟨⟨.free, "alice"⟩, 61500, 3⟩]) : List Check).Pairwise
        fun first second => first.nowMs ≤ second.nowMs := by decide
  have sufficient := retry_after_sufficient { rateLimitFreeRpm := 1 } ordered (by decide)
    (by decide)
  exact sufficient.2.1 rfl (by decide) (by decide)

end VisionApi.RateLimit
