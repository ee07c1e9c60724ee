import FeatureFlags.Duration

/-!
# Reconnecting with growing delays

A retry policy says how often in a row a source may fail and how long to wait before each attempt
to reconnect. The first attempt comes at once; from the second on the delay starts at the base and
grows by the factor each time, up to the maximum. With jitter, a delay is stretched by up to a
quarter. Delays never shrink until the count starts anew.
-/

namespace FeatureFlags

/-- How to reconnect. -/
structure RetryPolicy where
  /-- The failed attempts in a row that are tolerated. -/
  maxRetries : UInt32 := 5
  baseDelay : Duration := .ofMilliseconds 1000
  maxDelay : Duration := .ofMilliseconds 120000
  factor : Binary64 := .ofNat 2
  jitter : Bool := true

namespace RetryPolicy

instance : Inhabited RetryPolicy := ⟨{}⟩

/-- The delay before an attempt, without jitter; the first attempt has number 1. -/
def delay (policy : RetryPolicy) (attempt : Nat) : Duration :=
  if attempt ≤ 1 then .zero
  else
    let exponent := Nat.min (attempt - 2) 0x7FFFFFFF
    let growth := (policy.factor.max .one).pow exponent
    .ofSeconds ((policy.baseDelay.toSeconds.mul growth).min policy.maxDelay.toSeconds)

/-- The greatest part by which jitter stretches a delay. -/
def jitterFraction : Binary64 := Binary64.one.div (.ofNat 4)

/-- A delay stretched by a draw between 0 and 1. -/
def stretch (draw : Binary64) (delay : Duration) : Duration :=
  .ofSeconds ((Binary64.one.add (draw.mul jitterFraction)).mul delay.toSeconds)

end RetryPolicy

/-- The count of failures in a row, and the last delay. -/
structure Backoff where
  policy : RetryPolicy
  failures : Nat := 0
  lastDelay : Duration := .zero

namespace Backoff

/-- The count starts anew. -/
def reset (backoff : Backoff) : Backoff := { backoff with failures := 0, lastDelay := .zero }

/-- Counts a failure, and gives the delay before the next attempt unless there is to be none. The
count stops at the greatest number of 32 bits. -/
def next (backoff : Backoff) (draw : Binary64) : Option Duration × Backoff :=
  let failures := Nat.min (backoff.failures + 1) 0xFFFFFFFF
  let counted := { backoff with failures }
  if backoff.policy.maxRetries.toNat < failures then (none, counted)
  else
    let plain := backoff.policy.delay failures
    let stretched :=
      if backoff.policy.jitter && !plain.isZero then RetryPolicy.stretch draw plain else plain
    let delay := (stretched.min backoff.policy.maxDelay).max backoff.lastDelay
    (some delay, { counted with lastDelay := delay })

/-- Whether a wait comes to its end before it is cancelled, and the milliseconds that it takes. The
time of cancellation is counted from the start of the wait. -/
def wait (delay : Duration) (cancelAfter : Option Nat) : Bool × Nat :=
  let whole := delay.timerMilliseconds
  match cancelAfter with
  | none => (true, whole)
  | some t => if t = 0 ∨ t < whole then (false, Nat.min t whole) else (true, whole)

end Backoff

end FeatureFlags
