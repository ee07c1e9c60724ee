import FeatureFlags.Config.Basic
import FeatureFlags.Proofs.Backoff.Delays

/-!
# Reconnecting without a base delay

Whatever a base delay of zero is multiplied by, the delay stays zero, as long as the factor's power
is a double. An infinite power times zero is no number, and the smaller of that and the maximum is
the maximum. So a backoff without a base delay answers with zero up to the attempt whose power
overflows (`RetryPolicy.Overflows`), and with more from then on:

* `RetryPolicy.wanted_eq_zero_iff`: which attempts ask for no delay, with or without jitter. Jitter
  makes no delay zero that was not (`stretch_ne_zero`), by the lower bounds on the numbers of
  seconds.
* `Backoff.failures_run`: the failures that are counted are those after the last reset, up to the
  greatest number of 32 bits (`BackoffCall.streak`).
* `Backoff.IsPrompt.next`, `isPrompt_run`: the last delay is zero exactly if no attempt since the
  reset overflows, which one call preserves and so any calls do.
* `Backoff.next_after`: the answer to a failure after any calls.
* `RetryPolicy.not_overflows_of_le`, `overflows_of_two`: with a factor of 2 the 1026th attempt is
  the first that overflows, and with a smaller one no earlier attempt does.
-/

namespace FeatureFlags

open Binary64 (AtLeast AtMost)

namespace Binary64

variable {x : Binary64}

/-- The larger of 1 and a number that is not more than 2 is at most 2. -/
theorem atMost_max_one (small : (ofNat 2).lt x = false) : AtMost 1024 (x.max one) := by
  have one_le : AtMost 1024 one := atMost_one.mono (by decide)
  have two : AtMost 1024 (ofNat 2) := AtMost.ofNat (k := 1) (Nat.le_refl 2)
  have sign := (atLeast_max_one x).negative_eq
  unfold max at sign ⊢
  split
  · exact one_le
  rename_i number
  rw [if_neg number] at sign
  rw [isNaN_one, if_neg Bool.false_ne_true] at sign ⊢
  split
  · exact one_le
  rename_i large
  rw [if_neg large] at sign
  exact two.of_not_lt (by decide) sign number (by simp [small])

theorem nan_min (x : Binary64) : nan.min x = x := if_pos (by decide)

theorem zero_min (h : AtLeast 0 x) : zero.min x = zero := by
  have number : zero.isNaN = false := by decide
  have least : x.lt zero = false := by
    rw [Bool.eq_false_iff]
    intro less
    have order := (lt_iff.1 less).2.2
    rw [ordinal_of_negative_eq h.negative_eq] at order
    exact absurd order (by simp [zero, signedZero, ordinal])
  rw [min, number, h.isNaN_eq, least]
  rfl

end Binary64

namespace Duration

variable {d : Duration} {x : Binary64}

theorem eq_zero_iff : d = .zero ↔ d.nanoseconds = 0 := by
  rw [zero, Duration.mk.injEq]

theorem min_eq_zero_iff (d e : Duration) : d.min e = .zero ↔ d = .zero ∨ e = .zero := by
  simp only [eq_zero_iff, Duration.min]
  exact Nat.min_eq_zero_iff

theorem max_eq_zero_iff (d e : Duration) : d.max e = .zero ↔ d = .zero ∧ e = .zero := by
  simp only [eq_zero_iff, Duration.max]
  exact Nat.max_eq_zero_iff

theorem toSeconds_zero : Duration.zero.toSeconds = .zero := by decide +kernel

theorem ofSeconds_zero : ofSeconds .zero = .zero := by decide +kernel

theorem atLeast_rest (some : d.nanoseconds % 1000000000 ≠ 0) :
    AtLeast 993 ((Binary64.ofNat (d.nanoseconds % 1000000000)).div (.ofNat 1000000000)) := by
  have nanoseconds : AtLeast (0 + 1023) (.ofNat (d.nanoseconds % 1000000000)) :=
    AtLeast.ofNat (Nat.pos_of_ne_zero some) (by decide)
  have second : AtMost (30 + 1023) (.ofNat 1000000000) := AtMost.ofNat (by decide)
  have large : AtLeast (0 + 1023) (.ofNat 1000000000) := AtLeast.ofNat (by decide) (by decide)
  exact nanoseconds.div second (large.isZero_eq (by decide)) (by decide) (by decide) (by decide)
    (by decide) (by decide) (by decide)

/-- A duration that is not zero has at least 2⁻³⁰ seconds. -/
theorem atLeast_toSeconds_of_ne_zero (some : d ≠ .zero) : AtLeast 993 d.toSeconds := by
  have whole : AtLeast 0 (.ofNat (d.nanoseconds / 1000000000)) := AtLeast.zero_ofUnits _ _
  have rest := d.atMost_rest.atLeast_zero (by decide)
  refine whole.add rest ?_ (by decide) (by decide)
  by_cases none : d.nanoseconds / 1000000000 = 0
  · exact .inr (atLeast_rest fun nothing => some (eq_zero_iff.2 (by omega)))
  · have large : AtLeast (0 + 1023) (.ofNat (d.nanoseconds / 1000000000)) :=
      AtLeast.ofNat (Nat.pos_of_ne_zero none) (by decide)
    exact .inl (large.mono (by decide))

theorem atLeast_toSeconds (d : Duration) : AtLeast 0 d.toSeconds := by
  by_cases none : d = .zero
  · rw [none, toSeconds_zero]
    exact (AtMost.signedZero 0).atLeast_zero (by decide)
  · exact (atLeast_toSeconds_of_ne_zero none).mono (by decide)

/-- 2⁻³⁰ seconds are about a nanosecond. -/
theorem ofSeconds_ne_zero (h : AtLeast 993 x) : ofSeconds x ≠ .zero := by
  obtain ⟨e, exponent, one⟩ := Binary64.oneUnits_eq_pow
  obtain ⟨f, hf⟩ : ∃ f, e = 30 + f := ⟨e - 30, by omega⟩
  have units : Nat.pow 2 f ≤ x.units := by
    rw [show f = 992 + 52 by omega]
    exact AtLeast.le_units (k := 992) h
  have unit : Binary64.oneUnits = Nat.pow 2 30 * Nat.pow 2 f := by
    rw [one, hf]
    exact Nat.pow_add 2 30 f
  have least : Binary64.roundDiv (1000000000 * Nat.pow 2 f) (Nat.pow 2 30 * Nat.pow 2 f) ≤
      (ofSeconds x).nanoseconds := by
    rw [ofSeconds, unit, Nat.mul_comm 1000000000]
    exact Binary64.roundDiv_mono (Nat.mul_le_mul_right _ units)
  rw [Binary64.roundDiv_mul_right (c := Nat.pow 2 f) _ _ (Nat.two_pow_pos f)] at least
  intro none
  rw [none] at least
  exact absurd least (by decide)

end Duration

namespace RetryPolicy

variable {policy : RetryPolicy} {attempt n : Nat} {draw : Binary64}

/-- By how much the base delay is multiplied before an attempt. -/
def growth (policy : RetryPolicy) (attempt : Nat) : Binary64 :=
  (policy.factor.max .one).pow (Nat.min (attempt - 2) 0x7FFFFFFF)

/-- Whether the growth before an attempt is beyond all doubles. -/
def Overflows (policy : RetryPolicy) (attempt : Nat) : Prop :=
  1 < attempt ∧ (policy.growth attempt).isInfinite = true

/-- None of the attempts up to a number has a growth beyond the doubles, or there is no delay in any
case. -/
def Immediate (policy : RetryPolicy) (n : Nat) : Prop :=
  policy.maxDelay = .zero ∨ ∀ attempt ≤ n, ¬ policy.Overflows attempt

theorem Immediate.mono {m : Nat} (h : policy.Immediate n) (le : m ≤ n) : policy.Immediate m :=
  h.imp id fun none attempt within => none attempt (within.trans le)

theorem immediate_zero (policy : RetryPolicy) : policy.Immediate 0 :=
  .inr fun attempt within ⟨later, _⟩ => by omega

theorem immediate_succ : policy.Immediate (n + 1) ↔
    policy.Immediate n ∧ (policy.maxDelay = .zero ∨ ¬ policy.Overflows (n + 1)) := by
  constructor
  · exact fun h => ⟨h.mono (Nat.le_succ n), h.imp id fun none => none (n + 1) (Nat.le_refl _)⟩
  · rintro ⟨h | before, h | last⟩
    · exact .inl h
    · exact .inl h
    · exact .inl h
    · refine .inr fun attempt within => ?_
      rcases Nat.lt_or_eq_of_le within with less | rfl
      · exact before attempt (Nat.le_of_lt_succ less)
      · exact last

/-- A draw between 0 and 1. -/
def IsDraw (draw : Binary64) : Prop := draw.negative = false ∧ draw.lt .one = true

theorem atLeast_growth (policy : RetryPolicy) (attempt : Nat) : AtLeast 0 (policy.growth attempt) :=
  (Binary64.atLeast_pow (b := 0) (Binary64.atLeast_max_one _) _).mono (Nat.zero_le _)

theorem seconds_eq (policy : RetryPolicy) (attempt : Nat) : policy.seconds attempt =
    (policy.baseDelay.toSeconds.mul (policy.growth attempt)).min policy.maxDelay.toSeconds := rfl

/-- Zero times the growth is zero, unless the growth is infinite: then it is no number, and the
maximum is taken. -/
theorem seconds_of_undelayed (undelayed : policy.baseDelay = .zero) (attempt : Nat) :
    policy.seconds attempt =
      if (policy.growth attempt).isInfinite then policy.maxDelay.toSeconds else .zero := by
  rw [seconds_eq, undelayed, Duration.toSeconds_zero,
    Binary64.zero_mul_of_atLeast (policy.atLeast_growth attempt)]
  split
  · exact Binary64.nan_min _
  · exact Binary64.zero_min policy.maxDelay.atLeast_toSeconds

theorem delay_of_undelayed (undelayed : policy.baseDelay = .zero) :
    (¬ policy.Overflows attempt → policy.delay attempt = .zero) ∧
    (policy.Overflows attempt →
      policy.delay attempt = .ofSeconds policy.maxDelay.toSeconds) := by
  constructor
  · intro fits
    by_cases first : attempt ≤ 1
    · exact if_pos first
    · rw [delay_of_lt policy (by omega), seconds_of_undelayed undelayed,
        if_neg fun endless => fits ⟨by omega, endless⟩]
      exact Duration.ofSeconds_zero
  · rintro ⟨later, endless⟩
    rw [delay_of_lt policy later, seconds_of_undelayed undelayed, if_pos endless]

theorem stretch_ne_zero {delay : Duration} (some : delay ≠ .zero) (fair : IsDraw draw) :
    stretch draw delay ≠ .zero := by
  have part : AtLeast 0 (draw.mul jitterFraction) :=
    (atMost_part fair.1 fair.2).atLeast_zero (by decide)
  have one : AtLeast 1023 .one := Binary64.atLeast_one
  have scale : AtLeast 1023 (Binary64.one.add (draw.mul jitterFraction)) :=
    (one.mono (by decide)).add part (.inl one) (by decide) (by decide)
  have seconds : AtLeast 993 delay.toSeconds := Duration.atLeast_toSeconds_of_ne_zero some
  exact Duration.ofSeconds_ne_zero (scale.mul seconds (by decide) (by decide) (by decide)
    (by decide) (by decide))

/-- Without a base delay, an attempt asks for none as long as its growth is a double, and from then
on for a delay if the maximum allows for any. -/
theorem wanted_eq_zero_iff (undelayed : policy.baseDelay = .zero) (fair : IsDraw draw) :
    policy.wanted attempt draw = .zero ↔
      policy.maxDelay = .zero ∨ ¬ policy.Overflows attempt := by
  rw [wanted, Duration.min_eq_zero_iff, or_comm]
  refine or_congr_right' fun bounded => ?_
  obtain ⟨plain, longest⟩ : (¬ policy.Overflows attempt → policy.delay attempt = .zero) ∧
      (policy.Overflows attempt →
        policy.delay attempt = .ofSeconds policy.maxDelay.toSeconds) :=
    delay_of_undelayed undelayed
  by_cases overflows : policy.Overflows attempt
  · have some : policy.delay attempt ≠ .zero := by
      rw [longest overflows]
      exact Duration.ofSeconds_ne_zero (Duration.atLeast_toSeconds_of_ne_zero bounded)
    refine iff_of_false ?_ (not_not_intro overflows)
    split
    · exact stretch_ne_zero some fair
    · exact some
  · have none := plain overflows
    refine iff_of_true ?_ overflows
    rw [none]
    simp [Duration.isZero, Duration.zero]

/-- Up to the 1025th attempt a factor of at most 2 does not overflow. -/
theorem not_overflows_of_le (small : (Binary64.ofNat 2).lt policy.factor = false)
    (within : attempt ≤ 1025) : ¬ policy.Overflows attempt := by
  rintro ⟨later, endless⟩
  have least : Nat.min (attempt - 2) 0x7FFFFFFF ≤ attempt - 2 := Nat.min_le_left _ _
  rw [growth, Binary64.isInfinite_pow_of_le (Binary64.atMost_max_one small) (by omega)] at endless
  cases endless

/-- The factor 2 overflows from the 1026th attempt on. -/
theorem overflows_of_two (two : policy.factor = .ofNat 2) :
    policy.Overflows attempt ↔ 1026 ≤ attempt := by
  have larger : (Binary64.ofNat 2).max .one = .ofNat 2 := by decide +kernel
  rw [Overflows, growth, two, larger, Binary64.isInfinite_two_pow_iff]
  show _ ∧ 1024 ≤ min (attempt - 2) 0x7FFFFFFF ↔ _
  omega

end RetryPolicy

/-- Goes on counting the failures since the last reset. -/
def BackoffCall.count (failures : Nat) : BackoffCall → Nat
  | .next _ => failures + 1
  | .reset => 0

/-- How many failures stand at the end of some calls, after the last reset. -/
def BackoffCall.streak (calls : List BackoffCall) : Nat := calls.foldl count 0

theorem BackoffCall.streak_replicate (n : Nat) (draw : Binary64) :
    streak (List.replicate n (.next draw)) = n := by
  have counted (n k : Nat) : (List.replicate n (next draw)).foldl count k = k + n := by
    induction n generalizing k with
    | zero => rfl
    | succ n ih =>
      rw [List.replicate_succ, List.foldl_cons, ih]
      show k + 1 + n = k + (n + 1)
      omega
  exact (counted n 0).trans (Nat.zero_add n)

/-- Whether the draws of some calls lie between 0 and 1. -/
def BackoffCall.AreFair (calls : List BackoffCall) : Prop :=
  ∀ draw, .next draw ∈ calls → RetryPolicy.IsDraw draw

theorem BackoffCall.areFair_zeros (n : Nat) : AreFair (List.replicate n (next .zero)) := by
  intro draw mem
  cases List.eq_of_mem_replicate mem
  exact ⟨by decide, by decide +kernel⟩

namespace Backoff

variable {backoff : Backoff} {draw : Binary64} {delay : Duration} {calls : List BackoffCall}

/-- The answers are those to the failures, each after the calls before it. -/
theorem mem_run {answer : Option Duration} : answer ∈ (backoff.run calls).1 ↔
    ∃ before draw after, calls = before ++ .next draw :: after ∧
      answer = ((backoff.run before).2.next draw).1 := by
  constructor
  · intro mem
    induction calls generalizing backoff with
    | nil => cases mem
    | cons call calls ih =>
      cases call with
      | next draw =>
        rw [run_next] at mem
        rcases List.mem_cons.1 mem with rfl | mem
        · exact ⟨[], draw, calls, rfl, rfl⟩
        · obtain ⟨before, later, after, rfl, hanswer⟩ := ih mem
          exact ⟨.next draw :: before, later, after, rfl, hanswer⟩
      | reset =>
        obtain ⟨before, later, after, rfl, hanswer⟩ := ih mem
        exact ⟨.reset :: before, later, after, rfl, hanswer⟩
  · rintro ⟨before, draw, after, rfl, rfl⟩
    rw [run_append, run_next]
    exact List.mem_append_right _ List.mem_cons_self

theorem failures_next (backoff : Backoff) (draw : Binary64) :
    (backoff.next draw).2.failures = Nat.min (backoff.failures + 1) 0xFFFFFFFF := by
  unfold next
  dsimp only
  split <;> rfl

/-- The failures that are counted are those after the last reset. -/
theorem failures_run (policy : RetryPolicy) (calls : List BackoffCall) :
    ((start policy).run calls).2.failures = min (BackoffCall.streak calls) 0xFFFFFFFF := by
  have counted (calls : List BackoffCall) (backoff : Backoff) (n : Nat)
      (h : backoff.failures = min n 0xFFFFFFFF) : (backoff.run calls).2.failures =
        min (calls.foldl BackoffCall.count n) 0xFFFFFFFF := by
    induction calls generalizing backoff n with
    | nil => exact h
    | cons call calls ih =>
      cases call with
      | next draw =>
        refine ih (backoff.next draw).2 (n + 1) ?_
        rw [failures_next, h]
        show min (min n 0xFFFFFFFF + 1) 0xFFFFFFFF = _
        omega
      | reset => exact ih backoff.reset 0 rfl
  exact counted calls (start policy) 0 rfl

/-- Whether the last delay is zero is told by the failures that were answered with a delay. -/
def IsPrompt (backoff : Backoff) : Prop :=
  backoff.lastDelay = .zero ↔
    backoff.policy.Immediate (min backoff.failures backoff.policy.maxRetries.toNat)

theorem isPrompt_start (policy : RetryPolicy) : (start policy).IsPrompt :=
  iff_of_true rfl (policy.immediate_zero.mono (Nat.min_le_left 0 _))

theorem IsPrompt.next (prompt : backoff.IsPrompt) (undelayed : backoff.policy.baseDelay = .zero)
    (fair : RetryPolicy.IsDraw draw) : (backoff.next draw).2.IsPrompt := by
  have hcount : Nat.min (backoff.failures + 1) 0xFFFFFFFF =
    min (backoff.failures + 1) 0xFFFFFFFF := rfl
  have limit : backoff.policy.maxRetries.toNat < 0x100000000 := backoff.policy.maxRetries.toNat_lt
  by_cases exhausted :
      backoff.policy.maxRetries.toNat < Nat.min (backoff.failures + 1) 0xFFFFFFFF
  · rw [next_of_exhausted exhausted]
    unfold IsPrompt at prompt ⊢
    dsimp only
    rw [hcount] at exhausted ⊢
    rw [show min (min (backoff.failures + 1) 0xFFFFFFFF) backoff.policy.maxRetries.toNat =
      min backoff.failures backoff.policy.maxRetries.toNat by omega]
    exact prompt
  · rw [next_eq_of_not_lt exhausted]
    unfold IsPrompt at prompt ⊢
    dsimp only
    rw [hcount] at exhausted ⊢
    rw [Duration.max_eq_zero_iff, RetryPolicy.wanted_eq_zero_iff undelayed fair, prompt]
    rcases Nat.lt_or_ge backoff.failures 0xFFFFFFFF with below | stopped
    · rw [show min (backoff.failures + 1) 0xFFFFFFFF = backoff.failures + 1 by omega,
        Nat.min_eq_left (show backoff.failures + 1 ≤ backoff.policy.maxRetries.toNat by omega),
        Nat.min_eq_left (show backoff.failures ≤ backoff.policy.maxRetries.toNat by omega),
        RetryPolicy.immediate_succ, and_comm]
    · -- The count has stopped, so the attempt is one of those before.
      rw [show min (backoff.failures + 1) 0xFFFFFFFF = 0xFFFFFFFF by omega,
        show backoff.policy.maxRetries.toNat = 0xFFFFFFFF by omega,
        Nat.min_eq_right (show 0xFFFFFFFF ≤ backoff.failures from stopped), Nat.min_self]
      exact and_iff_right_of_imp fun none => none.imp id fun h => h _ (Nat.le_refl _)

theorem isPrompt_run (policy : RetryPolicy) (undelayed : policy.baseDelay = .zero)
    (fair : BackoffCall.AreFair calls) : ((start policy).run calls).2.IsPrompt := by
  have kept (backoff : Backoff) (hpolicy : backoff.policy = policy) (prompt : backoff.IsPrompt) :
      (backoff.run calls).2.IsPrompt := by
    induction calls generalizing backoff with
    | nil => exact prompt
    | cons call calls ih =>
      have later : BackoffCall.AreFair calls :=
        fun draw mem => fair draw (List.mem_cons_of_mem _ mem)
      cases call with
      | next draw =>
        refine ih later _ ((policy_next backoff draw).trans hpolicy) (prompt.next ?_ ?_)
        · rw [hpolicy, undelayed]
        · exact fair draw List.mem_cons_self
      | reset =>
        exact ih later backoff.reset hpolicy (isPrompt_start backoff.policy)
  exact kept (start policy) rfl (isPrompt_start policy)

/-- The answer to a failure after some calls. -/
theorem next_after (policy : RetryPolicy) (undelayed : policy.baseDelay = .zero)
    {before : List BackoffCall} (fair : BackoffCall.AreFair (before ++ [.next draw])) :
    let failures := min (BackoffCall.streak before + 1) 0xFFFFFFFF
    match (((start policy).run before).2.next draw).1 with
    | none => policy.maxRetries.toNat < failures
    | some delay =>
      failures ≤ policy.maxRetries.toNat ∧ (delay = .zero ↔ policy.Immediate failures) := by
  intro failures
  have hpolicy := policy_run (start policy) before
  have hfailures := failures_run policy before
  have prompt : ((start policy).run before).2.IsPrompt :=
    isPrompt_run policy undelayed fun draw mem => fair draw (List.mem_append_left _ mem)
  generalize ((start policy).run before).2 = backoff at *
  have hcount : Nat.min (backoff.failures + 1) 0xFFFFFFFF = failures := by
    rw [hfailures]
    show min (min (BackoffCall.streak before) 0xFFFFFFFF + 1) 0xFFFFFFFF = _
    omega
  replace hpolicy : backoff.policy = policy := hpolicy
  have later : (backoff.next draw).2.IsPrompt :=
    prompt.next (by rw [hpolicy, undelayed]) (fair draw (by simp))
  by_cases exhausted :
      backoff.policy.maxRetries.toNat < Nat.min (backoff.failures + 1) 0xFFFFFFFF
  · rw [next_of_exhausted exhausted]
    rwa [hcount, hpolicy] at exhausted
  · rw [next_eq_of_not_lt exhausted] at later ⊢
    unfold IsPrompt at later
    dsimp only at later ⊢
    rw [hcount, hpolicy] at exhausted later ⊢
    rw [Nat.min_eq_left (Nat.le_of_not_lt exhausted)] at later
    exact ⟨Nat.le_of_not_lt exhausted, later⟩

/-- After delays of zero only, a failure is answered with what its attempt asks for. -/
theorem next_of_immediate (policy : RetryPolicy) (undelayed : policy.baseDelay = .zero)
    {before : List BackoffCall} (fair : BackoffCall.AreFair before) {n : Nat}
    (streak : BackoffCall.streak before = n) (tolerated : n < policy.maxRetries.toNat)
    (prompt : policy.Immediate n) :
    (((start policy).run before).2.next draw).1 = some (policy.wanted (n + 1) draw) := by
  have limit : policy.maxRetries.toNat < 0x100000000 := policy.maxRetries.toNat_lt
  have hpolicy : ((start policy).run before).2.policy = policy := policy_run (start policy) before
  have hfailures : ((start policy).run before).2.failures = n := by
    rw [failures_run, streak]
    omega
  have kept := isPrompt_run policy undelayed fair
  generalize ((start policy).run before).2 = backoff at *
  unfold IsPrompt at kept
  rw [hpolicy, hfailures, Nat.min_eq_left (Nat.le_of_lt tolerated)] at kept
  rw [next_eq_of_lt (by rw [hfailures, hpolicy]; exact tolerated), hfailures, hpolicy,
    kept.2 prompt]
  exact congrArg (some ∘ Duration.mk) (Nat.max_zero _)

/-- A policy without a base delay never waits exactly if the growth is a double up to its last
attempt, or the maximum is zero. -/
theorem all_zero_iff (policy : RetryPolicy) (undelayed : policy.baseDelay = .zero) :
    (∀ calls, BackoffCall.AreFair calls →
      ∀ delay, some delay ∈ ((start policy).run calls).1 → delay = .zero) ↔
      policy.Immediate policy.maxRetries.toNat := by
  constructor
  · intro zeros
    by_contra late
    obtain ⟨bounded, attempt, within, overflows⟩ : policy.maxDelay ≠ .zero ∧
        ∃ attempt ≤ policy.maxRetries.toNat, policy.Overflows attempt := by
      simpa [RetryPolicy.Immediate] using late
    obtain ⟨last, rfl⟩ : ∃ n, attempt = n + 1 := ⟨attempt - 1, by have := overflows.1; omega⟩
    let before : List BackoffCall := List.replicate last (.next .zero)
    have fair : BackoffCall.AreFair (before ++ [.next .zero]) :=
      List.replicate_succ' ▸ BackoffCall.areFair_zeros (last + 1)
    have answer := next_after policy undelayed fair
    have mem : (((start policy).run before).2.next .zero).1 ∈
        ((start policy).run (before ++ [.next .zero])).1 := mem_run.2 ⟨_, _, _, rfl, rfl⟩
    have limit : policy.maxRetries.toNat < 0x100000000 := policy.maxRetries.toNat_lt
    rw [show BackoffCall.streak before = last from BackoffCall.streak_replicate last .zero,
      Nat.min_eq_left (show last + 1 ≤ 0xFFFFFFFF by omega)] at answer
    split at answer
    · omega
    · rename_i delay hdelay
      rcases answer.2.1 (zeros _ fair delay (hdelay ▸ mem)) with none | fits
      · exact bounded none
      · exact fits (last + 1) (Nat.le_refl _) overflows
  · intro immediate calls fair delay mem
    obtain ⟨before, draw, after, rfl, hanswer⟩ := mem_run.1 mem
    have upToHere : BackoffCall.AreFair (before ++ [.next draw]) :=
      fun d hd => fair d (by simp at hd ⊢; tauto)
    have answer := next_after policy undelayed upToHere
    rw [← hanswer] at answer
    exact answer.2.2 (immediate.mono answer.1)

end Backoff

namespace ResolverConfig

variable {config : ResolverConfig} {files : Files}

/-- A check is passed if what it refuses is not so, and the rest passes. -/
theorem refuse_eq_ok {p : Prop} [Decidable p] {e : ConfigError} {rest : Except ConfigError Unit} :
    (if p then (throw e : Except ConfigError PUnit) >>= fun _ => rest else rest) = .ok () ↔
      ¬ p ∧ rest = .ok () := by
  split
  · exact iff_of_false (fun refused => by cases refused) fun h => h.1 ‹p›
  · exact (and_iff_right ‹¬ p›).symm

theorem validate_eq_ok : config.validate files = .ok () ↔
    config.resolver ≠ .rpc ∧ config.socketPath.isSome = false ∧
      ¬ (config.offlineFlagSourcePath.isNone = true ∧ config.port = 0) ∧
      config.maxCacheSize.toNat ≤ cacheSizeLimit ∧
      config.retryBackoff.nanoseconds ≤ config.retryBackoffMax.nanoseconds ∧
      ¬ (config.pollInterval.isZero = true ∨ config.offlinePollInterval.isZero = true) ∧
      ∀ path ∈ config.certPath, (files path).isNone = false := by
  unfold validate
  dsimp only
  rw [refuse_eq_ok, refuse_eq_ok, refuse_eq_ok, refuse_eq_ok, refuse_eq_ok, refuse_eq_ok,
    Bool.not_eq_true, Nat.not_lt, Nat.not_lt]
  cases config.certPath with
  | none => simp [pure, Except.pure]
  | some path =>
    cases h : files path <;>
      simp [h, throw, throwThe, MonadExceptOf.throw, pure, Except.pure]

/-- A configuration that is accepted would be without a base delay too, with any number of
retries. -/
theorem validate_undelayed (accepted : config.validate files = .ok ()) (retries : UInt32) :
    { config with retryBackoff := .zero, maxEventStreamRetries := retries }.validate files =
      .ok () := by
  obtain ⟨served, socket, port, size, -, rest⟩ := validate_eq_ok.1 accepted
  exact validate_eq_ok.2 ⟨served, socket, port, size, Nat.zero_le _, rest⟩

end ResolverConfig

namespace Backoff

/-- Without a base delay, a backoff answers to the failures that the policy tolerates with zero as
long as the growth of the delays is a double, and with more from the first time on that it
overflows, unless the maximum is zero. So the policy never waits exactly if no growth overflows up
to its last attempt. With a factor of at most 2 it never does up to the 1025th attempt, and with the
factor 2, which all configurations have, it always does from the 1026th on. Configurations are
accepted without a base delay, whatever the number of retries is. -/
theorem zero_base_waits_past_overflow (policy : RetryPolicy)
    (undelayed : policy.baseDelay = .zero) :
    (∀ (before : List BackoffCall) (draw : Binary64), BackoffCall.AreFair (before ++ [.next draw]) →
      let failures := min (BackoffCall.streak before + 1) 0xFFFFFFFF
      match (((start policy).run before).2.next draw).1 with
      | none => policy.maxRetries.toNat < failures
      | some delay =>
        failures ≤ policy.maxRetries.toNat ∧ (delay = .zero ↔
          policy.maxDelay = .zero ∨ ∀ attempt ≤ failures, ¬ policy.Overflows attempt)) ∧
    ((∀ calls, BackoffCall.AreFair calls →
      ∀ delay, some delay ∈ ((start policy).run calls).1 → delay = .zero) ↔
        policy.maxDelay = .zero ∨
          ∀ attempt ≤ policy.maxRetries.toNat, ¬ policy.Overflows attempt) ∧
    ((Binary64.ofNat 2).lt policy.factor = false →
      ∀ attempt ≤ 1025, ¬ policy.Overflows attempt) ∧
    (policy.factor = .ofNat 2 → ∀ attempt, policy.Overflows attempt ↔ 1026 ≤ attempt) ∧
    (∀ (config : ResolverConfig) (files : Files) (retries : UInt32),
      config.validate files = .ok () →
      let hasty : ResolverConfig :=
        { config with retryBackoff := .zero, maxEventStreamRetries := retries }
      hasty.validate files = .ok () ∧ hasty.retryPolicy.baseDelay = .zero ∧
        hasty.retryPolicy.maxRetries = retries ∧ hasty.retryPolicy.factor = .ofNat 2) :=
  ⟨fun _ _ fair => next_after policy undelayed fair, all_zero_iff policy undelayed,
    fun small _ within => RetryPolicy.not_overflows_of_le small within,
    fun two _ => RetryPolicy.overflows_of_two two,
    fun _ _ retries accepted =>
      ⟨ResolverConfig.validate_undelayed accepted retries, rfl, rfl, rfl⟩⟩

/-- With the factor 2 and at most 1025 retries no delay is waited for, whatever the calls are. -/
theorem zero_base_prompt_1025 :
    let policy : RetryPolicy := { maxRetries := 1025, baseDelay := .zero }
    policy.baseDelay = .zero ∧ ∀ calls, BackoffCall.AreFair calls →
      ∀ delay, some delay ∈ ((start policy).run calls).1 → delay = .zero := by
  intro policy
  obtain ⟨-, allZero, small, -⟩ := zero_base_waits_past_overflow policy rfl
  exact ⟨rfl, allZero.2 (.inr (small (by decide +kernel)))⟩

/-- Without a base delay, the 1026th failure in a row is answered with the maximum. -/
theorem zero_base_waits_1026 :
    let policy : RetryPolicy :=
      { maxRetries := 1026, baseDelay := .zero, maxDelay := .ofMilliseconds 50, jitter := false }
    policy.baseDelay = .zero ∧ policy.factor.isFinite = true ∧ policy.factor.lt .one = false ∧
      some (.ofMilliseconds 50) ∈
        ((start policy).run (List.replicate 1026 (.next .zero))).1 ∧
      Duration.ofMilliseconds 50 ≠ .zero := by
  intro policy
  have overflows : policy.Overflows 1026 := (RetryPolicy.overflows_of_two rfl).2 (Nat.le_refl _)
  have late : policy.wanted 1026 .zero = .ofMilliseconds 50 := by
    rw [RetryPolicy.wanted, (RetryPolicy.delay_of_undelayed rfl).2 overflows]
    decide +kernel
  have prompt : policy.Immediate 1025 := .inr fun attempt within overflowed =>
    absurd ((RetryPolicy.overflows_of_two rfl).1 overflowed) (by omega)
  refine ⟨rfl, by decide +kernel, by decide +kernel,
    mem_run.2 ⟨List.replicate 1025 (.next .zero), .zero, [], List.replicate_succ', ?_⟩, by decide⟩
  rw [next_of_immediate policy rfl (BackoffCall.areFair_zeros 1025)
    (BackoffCall.streak_replicate 1025 .zero) (by decide) prompt, late]

end Backoff

end FeatureFlags
