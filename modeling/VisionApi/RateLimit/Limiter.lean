import VisionApi.Foundation.SortedSet
import VisionApi.Foundation.Store
import Mathlib.Data.String.Basic
import Mathlib.Data.Int.Notation
import Mathlib.Order.Lattice

/-!
# The rate limiter

`RateLimiter.check` runs one Lua script on a sorted set in Redis.  Times are in
milliseconds; a key has a deadline and is gone once the clock has passed it.
The script runs atomically at one instant of the clock of Redis, but trims and
counts with the time its caller has read.

Redis is a store from keys to windows, where a window is a sorted set with a deadline,
and each command of the script is a definition of its own.  The script is their sequence
as the source has it: trim, count, and either add and extend the deadline, or read the
oldest entry and reject.

A member of the set is made of the time and a monotonic counter.  Two checks with equal
members would count once, which the theorems that depend on it exclude by name.  Keys are
made of the tier and the user, and no two callers share one (`Caller.key_injective`), so
that a check changes nothing for others.
-/

namespace VisionApi.RateLimit

open Foundation

/-! ## Redis -/

/-- A sorted set with the time at which its key expires. -/
structure Window where
  set : SortedSet ℕ String
  deadline : Option ℕ

/-- The keys of Redis, with their windows. -/
abbrev Redis := Store String Window

/-- The value a command sees at some time. -/
def live (clock : ℕ) : Option Window → Option Window
  | none => none
  | some window =>
      if window.deadline.any (fun deadline => deadline < clock) then none else some window

/-- `ZREMRANGEBYSCORE`; a sorted set without members has no key. -/
def zremrangebyscore (low high : ℤ) : Option Window → Option Window
  | none => none
  | some window =>
      let kept := window.set.keep fun score => !(low ≤ (score : ℤ) && (score : ℤ) ≤ high)
      if kept.card = 0 then none else some ⟨kept, window.deadline⟩

/-- The number of entries, none for a key that is missing. -/
def zcard : Option Window → ℕ
  | none => 0
  | some window => window.set.card

/-- Add an entry, or move it to a new score. -/
def zadd (score : ℕ) (member : String) : Option Window → Window
  | none => ⟨SortedSet.empty.insert score member, none⟩
  | some window => ⟨window.set.insert score member, window.deadline⟩

/-- Set the deadline. -/
def pexpire (clock duration : ℕ) (window : Window) : Window :=
  { window with deadline := some (clock + duration) }

/-- `ZRANGE key 0 0 WITHSCORES`. -/
def zrangeFirst : Option Window → Option (ℕ × String)
  | none => none
  | some window => window.set.first?

/-! ## The script -/

/-- `{allowed, current_count, oldest_timestamp_ms}`. -/
structure Reply where
  allowed : Bool
  count : ℕ
  oldest : ℕ

/-- `_SLIDING_WINDOW_SCRIPT` on the value of its key. -/
def slidingWindowScript (clock now window : ℕ) (limit : ℤ) (member : String)
    (value : Option Window) : Option Window × Reply :=
  let trimmed := zremrangebyscore 0 ((now : ℤ) - window) (live clock value)
  let count := zcard trimmed
  if (count : ℤ) < limit then
    (some (pexpire clock (window + 1000) (zadd now member trimmed)), ⟨true, count + 1, 0⟩)
  else
    match zrangeFirst trimmed with
    | some (oldest, _) => (trimmed, ⟨false, count, oldest⟩)
    | none => (trimmed, ⟨false, count, 0⟩)

/-! ## `RateLimiter` -/

/-- The tiers of users. -/
inductive UserTier where
  | free
  | pro
  | enterprise
deriving DecidableEq

/-- The text of a tier. -/
def UserTier.value : UserTier → String
  | .free => "free"
  | .pro => "pro"
  | .enterprise => "enterprise"

/-- The rate limits of `Settings`. -/
structure Settings where
  rateLimitFreeRpm : ℤ := 10
  rateLimitProRpm : ℤ := 120
  rateLimitEnterpriseRpm : ℤ := 1200

/-- The limit of a tier. -/
def Settings.rateLimitFor (settings : Settings) : UserTier → ℤ
  | .free => settings.rateLimitFreeRpm
  | .pro => settings.rateLimitProRpm
  | .enterprise => settings.rateLimitEnterpriseRpm

/-- The length of the window in seconds. -/
def windowSeconds : ℕ := 60

/-- The length of the window in milliseconds. -/
def windowMs : ℕ := windowSeconds * 1000

/-- A user under a tier. -/
structure Caller where
  tier : UserTier
  userId : String
deriving DecidableEq

/-- The key of a caller. -/
def Caller.key (caller : Caller) : String :=
  "ratelimit:" ++ caller.tier.value ++ ":" ++ caller.userId

/-- One call of `check`: its caller and what it has read from the two clocks. -/
structure Check where
  caller : Caller
  nowMs : ℕ
  monotonicNs : ℕ
deriving DecidableEq

/-- The entry of a check. -/
def Check.member (check : Check) : String :=
  toString check.nowMs ++ ":" ++ toString check.monotonicNs

/-- What the caller is told. -/
structure RateLimitDecision where
  allowed : Bool
  limit : ℤ
  remaining : ℤ
  retryAfterSeconds : ℤ
deriving DecidableEq

/-- The decision on a reply; there is none without Redis or after a `RedisError`. -/
def decision (limit : ℤ) (nowMs : ℕ) : Option Reply → RateLimitDecision
  | none => ⟨true, limit, limit, 0⟩
  | some reply =>
      if reply.allowed then ⟨true, limit, limit - reply.count, 0⟩
      else
        ⟨false, limit, 0,
          max 1 (((reply.oldest : ℤ) + windowMs - nowMs).tdiv 1000 + 1)⟩

/-- `RateLimiter.check` with its script executed at `clock`. -/
def RateLimiter.check (settings : Settings) (clock : ℕ) (redis : Redis) (check : Check) :
    Redis × RateLimitDecision :=
  let limit := settings.rateLimitFor check.caller.tier
  let (value, reply) := slidingWindowScript clock check.nowMs windowMs limit check.member
    (redis check.caller.key)
  (Function.update redis check.caller.key value, decision limit check.nowMs (some reply))

/-! ## Callers have their own keys -/

theorem Caller.key_injective : Function.Injective Caller.key := by
  rintro ⟨tier, userId⟩ ⟨otherTier, otherId⟩ same
  have chars := congrArg String.toList same
  have tiers : tier = otherTier := by
    cases tier <;> cases otherTier <;>
      first | rfl | simp [Caller.key, UserTier.value] at chars
  subst tiers
  simp only [Caller.key, String.toList_append, List.append_cancel_left_eq] at chars
  rw [String.toList_injective chars]

/-- A check changes the key of its caller only. -/
theorem check_frame (settings : Settings) (clock : ℕ) (redis : Redis) {check : Check}
    {caller : Caller} (other : caller ≠ check.caller) :
    (RateLimiter.check settings clock redis check).1 caller.key = redis caller.key := by
  apply Function.update_of_ne
  intro same
  exact other (Caller.key_injective same)

end VisionApi.RateLimit
