import FeatureFlags.Backoff

/-!
# The schedule of delays

An attempt asks for a delay of its own, which is stretched by the draw and cut at the maximum
(`RetryPolicy.wanted`). The delays of a row of attempts are those, where each is at least the one
before it (`RetryPolicy.delaysFrom`), so they are in order and within the maximum.

A failure is followed by such a delay as long as the policy tolerates it (`Backoff.next_eq_of_lt`),
and by none from then on (`next_of_le`). `Backoff.run` makes a list of calls and collects the answers
of those that ask for a delay. What a backoff answers to a row of failures is told by the failures
it has counted and the last delay (`run_failures`), and a reset brings it back to its start
(`run_of_fresh`).
-/

namespace FeatureFlags

/-! ## The delays of a policy -/

namespace RetryPolicy

/-- The delay that an attempt asks for. -/
def wanted (policy : RetryPolicy) (attempt : Nat) (draw : Binary64) : Duration :=
  let plain := policy.delay attempt
  (if policy.jitter && !plain.isZero then stretch draw plain else plain).min policy.maxDelay

/-- The delays of the attempts from a number on, each at least the last one. -/
def delaysFrom (policy : RetryPolicy) : Nat → Duration → List Binary64 → List Duration
  | _, _, [] => []
  | attempt, last, draw :: draws =>
    let delay := (policy.wanted attempt draw).max last
    delay :: policy.delaysFrom (attempt + 1) delay draws

variable (policy : RetryPolicy) (attempt : Nat) (last : Duration) (draws : List Binary64)

theorem nanoseconds_wanted_le (draw : Binary64) :
    (policy.wanted attempt draw).nanoseconds ≤ policy.maxDelay.nanoseconds := Nat.min_le_right _ _

/-- The first attempt comes at once. -/
theorem wanted_one (draw : Binary64) : policy.wanted 1 draw = .zero := by
  have undelayed : policy.delay 1 = .zero := if_pos (Nat.le_refl 1)
  rw [wanted, undelayed, Duration.isZero, Duration.zero, beq_self_eq_true, Bool.not_true,
    Bool.and_false, if_neg Bool.false_ne_true]
  exact congrArg Duration.mk (Nat.zero_min _)

theorem length_delaysFrom : (policy.delaysFrom attempt last draws).length = draws.length := by
  induction draws generalizing attempt last with
  | nil => rfl
  | cons draw draws ih => rw [delaysFrom, List.length_cons, ih, List.length_cons]

/-- Delays never shrink. -/
theorem pairwise_delaysFrom : (last :: policy.delaysFrom attempt last draws).Pairwise
    (fun d e => d.nanoseconds ≤ e.nanoseconds) := by
  induction draws generalizing attempt last with
  | nil => exact List.pairwise_singleton _ _
  | cons draw draws ih =>
    have grown : last.nanoseconds ≤ ((policy.wanted attempt draw).max last).nanoseconds :=
      Nat.le_max_right _ _
    have order := ih (attempt + 1) ((policy.wanted attempt draw).max last)
    refine List.pairwise_cons.2 ⟨?_, order⟩
    rintro later (_ | ⟨_, mem⟩)
    · exact grown
    · exact Nat.le_trans grown (List.rel_of_pairwise_cons order mem)

/-- No delay is above the maximum, unless the last one was. -/
theorem nanoseconds_le_of_mem_delaysFrom {delay : Duration}
    (within : last.nanoseconds ≤ policy.maxDelay.nanoseconds)
    (mem : delay ∈ policy.delaysFrom attempt last draws) :
    delay.nanoseconds ≤ policy.maxDelay.nanoseconds := by
  induction draws generalizing attempt last with
  | nil => cases mem
  | cons draw draws ih =>
    have bounded : ((policy.wanted attempt draw).max last).nanoseconds ≤
        policy.maxDelay.nanoseconds :=
      Nat.max_le.2 ⟨policy.nanoseconds_wanted_le attempt draw, within⟩
    obtain rfl | mem := List.mem_cons.1 mem
    · exact bounded
    · exact ih (attempt + 1) _ bounded mem

theorem eq_zero_of_head_delaysFrom {delay : Duration}
    (first : delay ∈ (policy.delaysFrom 1 .zero draws).head?) : delay = .zero := by
  cases draws with
  | nil => cases first
  | cons draw draws =>
    cases first
    rw [wanted_one]
    rfl

end RetryPolicy

/-! ## Calls of a backoff -/

/-- What a backoff is asked for. -/
inductive BackoffCall where
  /-- The delay after a failure, with the draw that may stretch it. -/
  | next (draw : Binary64)
  /-- To start anew. -/
  | reset

namespace Backoff

/-- Before any failure. -/
def start (policy : RetryPolicy) : Backoff := { policy }

/-- Makes the calls one after the other, and collects the answers to the failures. -/
def run : Backoff → List BackoffCall → List (Option Duration) × Backoff
  | backoff, [] => ([], backoff)
  | backoff, .next draw :: calls =>
    let (answer, backoff) := backoff.next draw
    let (answers, backoff) := backoff.run calls
    (answer :: answers, backoff)
  | backoff, .reset :: calls => backoff.reset.run calls

variable {backoff later : Backoff} {draw : Binary64} {delay : Duration}

/-! ## One failure -/

/-- A failure that the policy tolerates is counted, and followed by the delay that the attempt asks
for, or the last one where that is more. -/
theorem next_eq_of_not_lt
    (tolerated : ¬ backoff.policy.maxRetries.toNat < Nat.min (backoff.failures + 1) 0xFFFFFFFF)
    (draw : Binary64) :
    let failures := Nat.min (backoff.failures + 1) 0xFFFFFFFF
    let delay := (backoff.policy.wanted failures draw).max backoff.lastDelay
    backoff.next draw = (some delay, { backoff with failures, lastDelay := delay }) := by
  unfold next
  dsimp only
  rw [if_neg tolerated]
  rfl

theorem next_eq_of_lt (tolerated : backoff.failures < backoff.policy.maxRetries.toNat)
    (draw : Binary64) :
    let delay := (backoff.policy.wanted (backoff.failures + 1) draw).max backoff.lastDelay
    backoff.next draw =
      (some delay, { backoff with failures := backoff.failures + 1, lastDelay := delay }) := by
  have hmax : backoff.policy.maxRetries.toNat < 2 ^ 32 := backoff.policy.maxRetries.toNat_lt
  have hcount : Nat.min (backoff.failures + 1) 0xFFFFFFFF = backoff.failures + 1 :=
    Nat.min_eq_left (by omega)
  have answer := next_eq_of_not_lt (by rw [hcount]; omega) draw
  rwa [hcount] at answer

theorem next_of_lt (tolerated : backoff.failures < backoff.policy.maxRetries.toNat)
    (draw : Binary64) :
    ∃ delay, backoff.next draw =
      (some delay, { backoff with failures := backoff.failures + 1, lastDelay := delay }) :=
  ⟨_, next_eq_of_lt tolerated draw⟩

/-- A failure beyond those that the policy tolerates has no delay. -/
theorem next_of_exhausted
    (exhausted : backoff.policy.maxRetries.toNat < Nat.min (backoff.failures + 1) 0xFFFFFFFF)
    (draw : Binary64) :
    backoff.next draw =
      (none, { backoff with failures := Nat.min (backoff.failures + 1) 0xFFFFFFFF }) := by
  unfold next
  dsimp only
  rw [if_pos exhausted]

theorem next_of_le (spent : backoff.policy.maxRetries.toNat ≤ backoff.failures)
    (below : backoff.policy.maxRetries.toNat < 0xFFFFFFFF) (draw : Binary64) :
    backoff.next draw =
      (none, { backoff with failures := Nat.min (backoff.failures + 1) 0xFFFFFFFF }) :=
  next_of_exhausted (Nat.lt_min.2 ⟨Nat.lt_succ_of_le spent, below⟩) draw

theorem policy_next (backoff : Backoff) (draw : Binary64) :
    (backoff.next draw).2.policy = backoff.policy := by
  unfold next
  dsimp only
  split <;> rfl

/-- A delay is given for a failure that the policy tolerates, which is counted. -/
theorem next_eq_some (again : backoff.next draw = (some delay, later)) :
    ¬ backoff.policy.maxRetries.toNat < Nat.min (backoff.failures + 1) 0xFFFFFFFF ∧
      later.failures = Nat.min (backoff.failures + 1) 0xFFFFFFFF ∧
      later.policy = backoff.policy := by
  unfold next at again
  dsimp only at again
  split at again
  · cases again
  · rename_i tolerated
    cases again
    exact ⟨tolerated, rfl, rfl⟩

/-- No delay is given for a failure beyond those, which is counted too. -/
theorem next_eq_none (exhausted : backoff.next draw = (none, later)) :
    backoff.policy.maxRetries.toNat < Nat.min (backoff.failures + 1) 0xFFFFFFFF ∧
      later.failures = Nat.min (backoff.failures + 1) 0xFFFFFFFF ∧
      later.policy = backoff.policy := by
  unfold next at exhausted
  dsimp only at exhausted
  split at exhausted
  · rename_i spent
    cases exhausted
    exact ⟨spent, rfl, rfl⟩
  · cases exhausted

/-! ## A run -/

theorem run_next (backoff : Backoff) (draw : Binary64) (calls : List BackoffCall) :
    backoff.run (.next draw :: calls) =
      ((backoff.next draw).1 :: ((backoff.next draw).2.run calls).1,
        ((backoff.next draw).2.run calls).2) := rfl

theorem run_append (backoff : Backoff) (calls more : List BackoffCall) :
    backoff.run (calls ++ more) =
      ((backoff.run calls).1 ++ ((backoff.run calls).2.run more).1,
        ((backoff.run calls).2.run more).2) := by
  induction calls generalizing backoff with
  | nil => rfl
  | cons call calls ih =>
    cases call with
    | next draw =>
      rw [List.cons_append, run_next, run_next, ih]
      rfl
    | reset => exact ih backoff.reset

theorem policy_run (backoff : Backoff) (calls : List BackoffCall) :
    (backoff.run calls).2.policy = backoff.policy := by
  induction calls generalizing backoff with
  | nil => rfl
  | cons call calls ih =>
    cases call with
    | next draw => exact (ih _).trans (policy_next backoff draw)
    | reset => exact ih backoff.reset

/-- No calls, or calls of which the last is a reset. -/
def IsFresh (calls : List BackoffCall) : Prop := calls = [] ∨ calls.getLast? = some .reset

theorem run_of_fresh {calls : List BackoffCall} (fresh : IsFresh calls) (policy : RetryPolicy) :
    ((start policy).run calls).2 = start policy := by
  obtain rfl | last := fresh
  · rfl
  · obtain ⟨calls, rfl⟩ := List.getLast?_eq_some_iff.1 last
    rw [run_append]
    exact congrArg start (policy_run (start policy) calls)

/-- A row of failures is answered by the delays of the policy as long as the budget lasts, and then
by none. -/
theorem run_failures (backoff : Backoff)
    (budget : backoff.policy.maxRetries.toNat < 0xFFFFFFFF) (draws : List Binary64) :
    let left := backoff.policy.maxRetries.toNat - backoff.failures
    (backoff.run (draws.map .next)).1 =
      (backoff.policy.delaysFrom (backoff.failures + 1) backoff.lastDelay
        (draws.take left)).map some ++ List.replicate (draws.length - left) none := by
  induction draws generalizing backoff with
  | nil =>
    dsimp only
    rw [List.take_nil, List.length_nil, Nat.zero_sub]
    rfl
  | cons draw draws ih =>
    dsimp only
    rw [List.map_cons, run_next]
    obtain tolerated | spent :=
      Nat.lt_or_ge backoff.failures backoff.policy.maxRetries.toNat
    · have left : backoff.policy.maxRetries.toNat - backoff.failures =
          backoff.policy.maxRetries.toNat - (backoff.failures + 1) + 1 := by omega
      have later := ih { backoff with
        failures := backoff.failures + 1
        lastDelay := (backoff.policy.wanted (backoff.failures + 1) draw).max backoff.lastDelay }
        budget
      dsimp only at later
      rw [next_eq_of_lt tolerated draw, left, List.take_succ_cons, List.length_cons,
        Nat.add_sub_add_right]
      dsimp only
      rw [later]
      rfl
    · -- The count may stop at its greatest value, but that is beyond the budget.
      have still : backoff.policy.maxRetries.toNat ≤ Nat.min (backoff.failures + 1) 0xFFFFFFFF :=
        Nat.le_min.2 ⟨Nat.le_succ_of_le spent, Nat.le_of_lt budget⟩
      have later := ih { backoff with
        failures := Nat.min (backoff.failures + 1) 0xFFFFFFFF } budget
      dsimp only at later
      rw [next_of_le spent budget draw]
      dsimp only
      rw [later, Nat.sub_eq_zero_of_le still, Nat.sub_eq_zero_of_le spent]
      rfl

end Backoff

end FeatureFlags
