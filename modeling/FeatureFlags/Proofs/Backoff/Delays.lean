import FeatureFlags.Proofs.Backoff.Schedule
import FeatureFlags.Proofs.Binary64.Powers

/-!
# Growing delays within a budget

The delays of a policy are computed as numbers of seconds, and only a number that is not negative
and below 2⁶⁴ is a length of time (`Duration.IsLength`). Whatever the base delay and the factor are,
the seconds of a delay are no more than those of the maximum (`RetryPolicy.atMost_seconds`), and
jitter stretches them by at most a quarter, so that both are lengths of time if the maximum is one
of 64 bits of milliseconds (`isLength_seconds`, `isLength_stretchedSeconds`). The bounds are powers
of two with some bits to spare for the roundings on the way.

So a backoff always answers, and its answers are those of the schedule: as many delays as the policy
tolerates failures, from zero on, each at least the one before it and none above the maximum
(`Backoff.delays_grow_within_budget`).
-/

namespace FeatureFlags

open Binary64 (AtLeast AtMost)

namespace Duration

/-- Whether a number of seconds is a length of time that can be represented. -/
def IsLength (seconds : Binary64) : Prop :=
  seconds.negative = false ∧ seconds.lt (.ofNat 0x10000000000000000) = true

variable {x : Binary64} {d : Duration} {k : Nat}

theorem isLength_of_atMost (h : AtMost 1086 x) : IsLength x := by
  have bound : AtLeast 1087 (.ofNat 0x10000000000000000) :=
    AtLeast.ofNat (k := 64) (by decide) (by decide)
  refine ⟨h.negative_eq, Binary64.lt_iff.2 ⟨h.isNaN_eq (by decide), bound.isNaN_eq, ?_⟩⟩
  rw [Binary64.ordinal_of_negative_eq h.negative_eq,
    Binary64.ordinal_of_negative_eq bound.negative_eq]
  refine Int.ofNat_lt.2 ?_
  calc x.magnitude ≤ 1086 * Binary64.binade := h.magnitude_le
    _ < 1087 * Binary64.binade := by decide
    _ ≤ _ := bound.le_magnitude

/-! ## Seconds of a duration -/

theorem negative_toSeconds (d : Duration) : d.toSeconds.negative = false :=
  Binary64.negative_add rfl (Binary64.negative_div rfl rfl)

theorem atMost_rest (d : Duration) :
    AtMost 1054 ((Binary64.ofNat (d.nanoseconds % 1000000000)).div (.ofNat 1000000000)) := by
  have nanoseconds : AtMost 1053 (.ofNat (d.nanoseconds % 1000000000)) :=
    AtMost.ofNat ((Nat.mod_lt _ (by decide)).le.trans (by decide))
  have second : AtMost 1053 (.ofNat 1000000000) := AtMost.ofNat (by decide)
  have large : AtLeast 1023 (.ofNat 1000000000) := AtLeast.ofNat (k := 0) (by decide) (by decide)
  exact nanoseconds.div second (by decide) (by decide) large.oneUnits_le

theorem atMost_toSeconds (below : d.nanoseconds < 1000000000 * Nat.pow 2 k) (least : 31 ≤ k)
    (greatest : k ≤ 1000) : AtMost (k + 1025) d.toSeconds := by
  have whole : AtMost (k + 1023) (.ofNat (d.nanoseconds / 1000000000)) :=
    AtMost.ofNat (Nat.div_lt_of_lt_mul below).le
  exact whole.add (d.atMost_rest.mono (by omega)) (by omega)

/-- Rounding to whole nanoseconds keeps the bound up to one bit. -/
theorem nanoseconds_ofSeconds_lt (h : AtMost (k + 1023) x) :
    (ofSeconds x).nanoseconds < 1000000000 * Nat.pow 2 (k + 1) := by
  obtain ⟨e, exponent, one⟩ := Binary64.oneUnits_eq_pow
  have units : x.units ≤ Nat.pow 2 e * Nat.pow 2 k :=
    calc x.units ≤ Nat.pow 2 (k + 1022 + 52) := h.units_le
      _ = Nat.pow 2 (e + k) := by rw [show k + 1022 + 52 = e + k by omega]
      _ = Nat.pow 2 e * Nat.pow 2 k := Nat.pow_add 2 e k
  have quotient : x.units * 1000000000 / Nat.pow 2 e ≤ 1000000000 * Nat.pow 2 k := by
    refine Nat.div_le_of_le_mul ((Nat.mul_le_mul_right _ units).trans (Nat.le_of_eq ?_))
    rw [Nat.mul_comm 1000000000, Nat.mul_assoc]
  have rounded := Binary64.roundDiv_le (x.units * 1000000000) (Nat.pow 2 e)
  have twice : Nat.pow 2 (k + 1) = Nat.pow 2 k * 2 := Nat.pow_succ 2 k
  have pos : 0 < Nat.pow 2 k := Nat.two_pow_pos k
  rw [ofSeconds, one]
  dsimp only
  omega

end Duration

namespace RetryPolicy

/-- The seconds of the delay before an attempt from the second one on. -/
def seconds (policy : RetryPolicy) (attempt : Nat) : Binary64 :=
  (policy.baseDelay.toSeconds.mul
    ((policy.factor.max .one).pow (Nat.min (attempt - 2) 0x7FFFFFFF))).min
    policy.maxDelay.toSeconds

/-- The seconds of a delay stretched by a draw. -/
def stretchedSeconds (draw : Binary64) (delay : Duration) : Binary64 :=
  (Binary64.one.add (draw.mul jitterFraction)).mul delay.toSeconds

theorem delay_of_lt (policy : RetryPolicy) {attempt : Nat} (later : 1 < attempt) :
    policy.delay attempt = .ofSeconds (policy.seconds attempt) := if_neg (Nat.not_le.2 later)

variable {policy : RetryPolicy}

theorem atMost_seconds (longest : policy.maxDelay.milliseconds < 0x10000000000000000)
    (attempt : Nat) : AtMost 1080 (policy.seconds attempt) := by
  have below : policy.maxDelay.nanoseconds < 1000000000 * Nat.pow 2 55 := by
    rw [Duration.milliseconds] at longest
    have power : Nat.pow 2 55 = 36028797018963968 := rfl
    omega
  refine AtMost.min ?_ (Duration.atMost_toSeconds below (by decide) (by decide)) (by decide)
  refine Binary64.negative_mul (Duration.negative_toSeconds _) ?_
  exact (Binary64.atLeast_pow (b := 0) (Binary64.atLeast_max_one _) _).negative_eq

theorem isLength_seconds (longest : policy.maxDelay.milliseconds < 0x10000000000000000)
    (attempt : Nat) : Duration.IsLength (policy.seconds attempt) :=
  Duration.isLength_of_atMost ((atMost_seconds longest attempt).mono (by decide))

theorem nanoseconds_delay_lt (longest : policy.maxDelay.milliseconds < 0x10000000000000000)
    (attempt : Nat) : (policy.delay attempt).nanoseconds < 1000000000 * Nat.pow 2 58 := by
  obtain first | later := Nat.lt_or_ge 1 attempt |>.symm
  · rw [delay, if_pos first]
    decide
  · rw [delay_of_lt policy later]
    exact Duration.nanoseconds_ofSeconds_lt (k := 57) (atMost_seconds longest attempt)

theorem atMost_jitterFraction : AtMost 1021 jitterFraction :=
  ⟨by decide +kernel, by decide +kernel⟩

/-- A draw between 0 and 1 stretches a delay by a bounded part. -/
theorem atMost_part {draw : Binary64} (sign : draw.negative = false)
    (below : draw.lt .one = true) : AtMost 1022 (draw.mul jitterFraction) :=
  (Binary64.atMost_one.of_lt sign below).mul atMost_jitterFraction (by decide) (by decide)
    (by decide) (by decide) (by decide) (by decide)

theorem isLength_stretchedSeconds
    (longest : policy.maxDelay.milliseconds < 0x10000000000000000) (attempt : Nat)
    {draw : Binary64} (sign : draw.negative = false) (below : draw.lt .one = true) :
    Duration.IsLength (stretchedSeconds draw (policy.delay attempt)) := by
  have scale : AtMost 1025 (Binary64.one.add (draw.mul jitterFraction)) :=
    Binary64.atMost_one.add ((atMost_part sign below).mono (by decide)) (by decide)
  have plain : AtMost 1083 (policy.delay attempt).toSeconds :=
    Duration.atMost_toSeconds (nanoseconds_delay_lt longest attempt) (by decide) (by decide)
  exact Duration.isLength_of_atMost (scale.mul plain (by decide) (by decide) (by decide)
    (by decide) (by decide) (by decide))

end RetryPolicy

namespace Backoff

/-- Since its start or the last reset, a backoff answers to as many failures as the policy
tolerates with the delays of the policy, and to every later one with none. The first delay is zero,
they never shrink, and none is above the maximum. Every number of seconds that is made a delay on
the way is a length of time, whatever the draws between 0 and 1 are. -/
theorem delays_grow_within_budget (policy : RetryPolicy)
    (budget : policy.maxRetries.toNat < 0xFFFFFFFF)
    (longest : policy.maxDelay.milliseconds < 0x10000000000000000)
    (before : List BackoffCall) (fresh : IsFresh before) (draws : List Binary64) :
    let delays := policy.delaysFrom 1 .zero (draws.take policy.maxRetries.toNat)
    ((start policy).run (before ++ draws.map .next)).1 =
      ((start policy).run before).1 ++
        (delays.map some ++ List.replicate (draws.length - policy.maxRetries.toNat) none) ∧
    ((start policy).run before).2 = start policy ∧
    delays.length = min policy.maxRetries.toNat draws.length ∧
    (∀ delay ∈ delays.head?, delay = .zero) ∧
    delays.Pairwise (fun d e => d.nanoseconds ≤ e.nanoseconds) ∧
    (∀ delay ∈ delays, delay.nanoseconds ≤ policy.maxDelay.nanoseconds) ∧
    (∀ attempt, 1 < attempt →
      policy.delay attempt = .ofSeconds (policy.seconds attempt) ∧
      Duration.IsLength (policy.seconds attempt)) ∧
    ∀ attempt draw, draw.negative = false → draw.lt .one = true →
      RetryPolicy.stretch draw (policy.delay attempt) =
        .ofSeconds (RetryPolicy.stretchedSeconds draw (policy.delay attempt)) ∧
      Duration.IsLength (RetryPolicy.stretchedSeconds draw (policy.delay attempt)) := by
  intro delays
  have restarted := run_of_fresh fresh policy
  have answers := run_failures (start policy) budget draws
  refine ⟨?_, restarted, ?_, ?_, ?_, ?_, ?_, ?_⟩
  · rw [run_append, restarted]
    exact congrArg (((start policy).run before).1 ++ ·) answers
  · rw [policy.length_delaysFrom, List.length_take]
  · exact fun delay first => policy.eq_zero_of_head_delaysFrom _ first
  · exact (policy.pairwise_delaysFrom _ _ _).of_cons
  · exact fun delay mem => policy.nanoseconds_le_of_mem_delaysFrom _ _ _ (Nat.zero_le _) mem
  · exact fun attempt later =>
      ⟨policy.delay_of_lt later, RetryPolicy.isLength_seconds longest attempt⟩
  · exact fun attempt draw sign below =>
      ⟨rfl, RetryPolicy.isLength_stretchedSeconds longest attempt sign below⟩

/-- After a reset, a policy that tolerates two failures gives two delays again, though its factor is
no number. -/
theorem delays_grow_within_budget_after_reset :
    ∃ delay : Duration,
      ((start { maxRetries := 2, factor := .nan }).run
        [.next .zero, .reset, .next .zero, .next .zero, .next .zero]).1 =
        [some .zero, some .zero, some delay, none] ∧
      delay.nanoseconds ≤ 120000000000 := by
  obtain ⟨answers, -, -, first, -, bounds, -⟩ :=
    delays_grow_within_budget { maxRetries := 2, factor := .nan } (by decide) (by decide)
      [.next .zero, .reset] (.inr rfl) [.zero, .zero, .zero]
  obtain ⟨delay, hdelay⟩ : ∃ delay, RetryPolicy.delaysFrom { maxRetries := 2, factor := .nan } 1
      .zero [.zero, .zero] = [.zero, delay] := ⟨_, congrArg (· :: [_]) (first _ rfl)⟩
  have mem : delay ∈ RetryPolicy.delaysFrom { maxRetries := 2, factor := .nan } 1 .zero
      [.zero, .zero] := hdelay ▸ List.mem_cons_of_mem _ List.mem_cons_self
  refine ⟨delay, answers.trans ?_, bounds delay mem⟩
  change _ ++ ((RetryPolicy.delaysFrom _ 1 .zero [.zero, .zero]).map some ++ _) = _
  rw [hdelay]
  rfl

end Backoff

end FeatureFlags
