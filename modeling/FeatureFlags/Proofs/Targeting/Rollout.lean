import FeatureFlags.Targeting.Rules
import Mathlib.Data.Nat.Count
import Mathlib.Order.Interval.Finset.Nat

/-!
# Rollouts in proportion to the weights

The ranges of the buckets of a rollout lie end to end: the range at a position goes from its `edge`,
the sum of the weights before it, up to the edge behind it. As long as the weights sum to a word of
32 bits, going through the buckets finds the one in whose range a point lies (`at?_eq_landing`), and
no other one holds the point (`landing_eq_iff`). So a targeting key is assigned to the bucket in
whose range its hash lies, and each bucket takes as many of the points as it weighs
(`select_in_proportion`).
-/

namespace FeatureFlags

namespace Bucket

/-- The sum of the weights. -/
def span : List Bucket → Nat
  | [] => 0
  | bucket :: rest => bucket.weight.toNat + span rest

/-- Where the range of the bucket at a position begins. -/
def edge (buckets : List Bucket) (i : Nat) : Nat := span (buckets.take i)

/-- The position of the bucket in whose range a point lies. -/
def landing : List Bucket → Nat → Nat
  | [], _ => 0
  | bucket :: rest, point =>
    if point < bucket.weight.toNat then 0 else landing rest (point - bucket.weight.toNat) + 1

variable {bucket : Bucket} {buckets rest : List Bucket} {i j point : Nat}

@[simp] theorem span_nil : span [] = 0 := rfl

@[simp] theorem span_cons : span (bucket :: rest) = bucket.weight.toNat + span rest := rfl

@[simp] theorem edge_zero : edge buckets 0 = 0 := rfl

@[simp] theorem edge_cons_succ :
    edge (bucket :: rest) (i + 1) = bucket.weight.toNat + edge rest i := rfl

theorem edge_length (buckets : List Bucket) : edge buckets buckets.length = span buckets := by
  rw [edge, List.take_length]

/-- The range at a position is as long as the bucket there weighs. -/
theorem edge_succ (inside : i < buckets.length) :
    edge buckets (i + 1) = edge buckets i + buckets[i].weight.toNat := by
  induction buckets generalizing i with
  | nil => cases inside
  | cons bucket rest ih =>
    cases i with
    | zero => simp
    | succ i =>
      rw [edge_cons_succ, edge_cons_succ, ih (Nat.lt_of_succ_lt_succ inside), Nat.add_assoc]
      rfl

theorem edge_mono (buckets : List Bucket) (h : i ≤ j) : edge buckets i ≤ edge buckets j := by
  induction buckets generalizing i j with
  | nil => simp [edge]
  | cons bucket rest ih =>
    cases i with
    | zero => simp
    | succ i =>
      cases j with
      | zero => omega
      | succ j =>
        simp only [edge_cons_succ]
        exact Nat.add_le_add_left (ih (by omega)) _

/-! ## Which range holds a point -/

theorem landing_lt_length (below : point < span buckets) :
    landing buckets point < buckets.length := by
  induction buckets generalizing point with
  | nil => simp at below
  | cons bucket rest ih =>
    rw [span_cons] at below
    unfold landing
    split
    · exact Nat.zero_lt_succ _
    · exact Nat.succ_lt_succ (ih (by omega))

/-- A point below the sum of the weights lies in exactly one range. -/
theorem landing_eq_iff (below : point < span buckets) :
    landing buckets point = i ↔ edge buckets i ≤ point ∧ point < edge buckets (i + 1) := by
  induction buckets generalizing point i with
  | nil => simp at below
  | cons bucket rest ih =>
    rw [span_cons] at below
    unfold landing
    cases i with
    | zero =>
      simp only [edge_zero, edge_cons_succ, Nat.zero_le, true_and, Nat.add_zero]
      split <;> simp [*]
    | succ i =>
      simp only [edge_cons_succ]
      split
      · omega
      · rw [Nat.add_right_cancel_iff, ih (by omega)]
        omega

/-- A point lies in the range of a bucket that has a weight. -/
theorem weight_ne_zero_of_landing (below : point < span buckets)
    (found : buckets[landing buckets point]? = some bucket) : bucket.weight ≠ 0 := by
  intro weightless
  obtain ⟨inside, rfl⟩ := List.getElem?_eq_some_iff.1 found
  obtain ⟨low, high⟩ := (landing_eq_iff below).1 rfl
  rw [edge_succ inside, weightless, UInt32.toNat_zero, Nat.add_zero] at high
  exact absurd low (Nat.not_le_of_lt high)

/-- A sum that is a word of 32 bits does not wrap. -/
theorem toNat_add_of_fits {x y : UInt32} (fits : x.toNat + y.toNat < UInt32.size) :
    (x + y).toNat = x.toNat + y.toNat := by
  rw [UInt32.toNat_add]
  exact Nat.mod_eq_of_lt fits

/-- Going through the buckets finds the one in whose range the point lies. -/
theorem at?_eq_landing (buckets : List Bucket) {point start : UInt32}
    (fits : start.toNat + span buckets < UInt32.size) (reached : start ≤ point) :
    at? point start buckets = buckets[landing buckets (point.toNat - start.toNat)]? := by
  induction buckets generalizing start with
  | nil => rfl
  | cons bucket rest ih =>
    rw [span_cons] at fits
    have stop : (start + bucket.weight).toNat = start.toNat + bucket.weight.toNat :=
      toNat_add_of_fits (by omega)
    rw [UInt32.le_iff_toNat_le] at reached
    simp only [at?, landing, UInt32.lt_iff_toNat_lt, stop]
    split
    · rw [if_pos (by omega)]
      rfl
    · rw [if_neg (by omega), List.getElem?_cons_succ, ih (by omega)
        (by rw [UInt32.le_iff_toNat_le]; omega), stop, Nat.sub_add_eq]

/-- If no range holds the point, then it lies behind all of them, even where their ends wrap. -/
theorem le_of_at?_eq_none {point start : UInt32} (reached : start ≤ point)
    (missed : at? point start buckets = none) :
    buckets.foldl (fun total bucket => total + bucket.weight) start ≤ point := by
  induction buckets generalizing start with
  | nil => exact reached
  | cons bucket rest ih =>
    simp only [at?] at missed
    split at missed
    · cases missed
    · exact ih (UInt32.not_lt.1 ‹_›) missed

theorem toNat_foldl_add (buckets : List Bucket) (start : UInt32)
    (fits : start.toNat + span buckets < UInt32.size) :
    (buckets.foldl (fun total bucket => total + bucket.weight) start).toNat =
      start.toNat + span buckets := by
  induction buckets generalizing start with
  | nil => rfl
  | cons bucket rest ih =>
    rw [span_cons] at fits
    have stop : (start + bucket.weight).toNat = start.toNat + bucket.weight.toNat :=
      toNat_add_of_fits (by omega)
    rw [List.foldl_cons, ih _ (by omega), stop, span_cons, Nat.add_assoc]

/-! ## How many points a range holds -/

/-- A range of points holds as many as it is long. -/
theorem count_range {low high n : Nat} (within : high ≤ n) :
    Nat.count (fun point => low ≤ point ∧ point < high) n = high - low := by
  have points : (Finset.range n).filter (fun point => low ≤ point ∧ point < high) =
      Finset.Ico low high := by
    ext point
    simp only [Finset.mem_filter, Finset.mem_range, Finset.mem_Ico]
    omega
  rw [Nat.count_eq_card_filter_range, points, Nat.card_Ico]

theorem count_congr {p q : Nat → Prop} [DecidablePred p] [DecidablePred q] {n : Nat}
    (h : ∀ point < n, p point ↔ q point) : Nat.count p n = Nat.count q n :=
  Nat.le_antisymm (Nat.count_mono_left fun point hp => (h point hp).1)
    (Nat.count_mono_left fun point hp => (h point hp).2)

/-- Of the points below the sum of the weights, as many land in a bucket as it weighs. -/
theorem count_landing (found : buckets[i]? = some bucket) :
    Nat.count (fun point => landing buckets point = i) (span buckets) = bucket.weight.toNat := by
  obtain ⟨inside, rfl⟩ := List.getElem?_eq_some_iff.1 found
  have within : edge buckets (i + 1) ≤ span buckets := by
    rw [← edge_length]
    exact edge_mono _ inside
  rw [count_congr fun point below => landing_eq_iff below, count_range within, edge_succ inside]
  omega

end Bucket

namespace Fractional

open Bucket (span edge landing)

variable {fractional : Fractional} {flagKey targetingKey : String} {context : EvaluationContext}

/-- The position of the bucket that a targeting key is assigned to. -/
def position (fractional : Fractional) (flagKey targetingKey : String) : Nat :=
  landing fractional.buckets
    ((fractional.hash flagKey targetingKey).toNat % span fractional.buckets)

theorem toNat_totalWeight (fits : span fractional.buckets < UInt32.size) :
    fractional.totalWeight.toNat = span fractional.buckets := by
  have sum := Bucket.toNat_foldl_add fractional.buckets 0 (by simpa)
  simpa [totalWeight] using sum

/-- A targeting key selects the variant of the bucket that it is assigned to. -/
theorem select_eq (flagKey : String) (positive : 0 < span fractional.buckets)
    (fits : span fractional.buckets < UInt32.size)
    (keyed : context.targetingKey = some targetingKey) :
    ∃ bucket, fractional.buckets[fractional.position flagKey targetingKey]? = some bucket ∧
      fractional.select flagKey context = .ok bucket.variant := by
  have total := toNat_totalWeight fits
  have nonzero : fractional.totalWeight ≠ 0 := by
    intro zero
    rw [zero] at total
    exact absurd total positive.ne
  have inside : fractional.position flagKey targetingKey < fractional.buckets.length :=
    Bucket.landing_lt_length (Nat.mod_lt _ positive)
  have found : Bucket.at? (fractional.hash flagKey targetingKey % fractional.totalWeight) 0
      fractional.buckets = _ := Bucket.at?_eq_landing fractional.buckets (by simpa) (by simp)
  rw [UInt32.toNat_mod, total, UInt32.toNat_zero, Nat.sub_zero] at found
  change _ = fractional.buckets[fractional.position flagKey targetingKey]? at found
  rw [List.getElem?_eq_getElem inside] at found ⊢
  refine ⟨_, rfl, ?_⟩
  simp only [select, keyed, if_neg nonzero, found]

theorem select_of_keyless (keyless : context.targetingKey = none) :
    fractional.select flagKey context =
      .error (.invalidContext "fractional rollout requires a targeting key") := by
  simp only [select, keyless]
  rfl

theorem select_of_weightless (weightless : span fractional.buckets = 0)
    (keyed : context.targetingKey = some targetingKey) :
    fractional.select flagKey context =
      .error (.rule "fractional buckets have zero total weight") := by
  have total : fractional.totalWeight.toNat = 0 :=
    (toNat_totalWeight (by rw [weightless]; decide)).trans weightless
  have zero : fractional.totalWeight = 0 := UInt32.toNat_inj.1 total
  simp only [select, keyed, zero, if_true]
  rfl

/-- There is always a bucket for a targeting key if there is any weight, even if the sum of the weights
wraps. -/
theorem error_of_select {error : TargetingError}
    (failed : fractional.select flagKey context = .error error) :
    error = .invalidContext "fractional rollout requires a targeting key" ∨
      error = .rule "fractional buckets have zero total weight" := by
  unfold select at failed
  split at failed
  · cases failed
    exact .inl rfl
  split at failed
  · cases failed
    exact .inr rfl
  · rename_i weight
    dsimp only at failed
    split at failed
    · cases failed
    · rename_i missed
      -- The point is a remainder, so it lies before the end of the last range.
      have behind := Bucket.le_of_at?_eq_none (UInt32.zero_le) missed
      exact absurd behind (UInt32.not_le.2 (UInt32.mod_lt _ (UInt32.pos_iff_ne_zero.2 weight)))

/-- The ranges of the buckets divide the points in proportion to the weights. A targeting key is
always assigned to the one bucket in whose range its hash lies, counted around the sum of the
weights, and that bucket has a weight; and a bucket is assigned as many points as it weighs. Without
a targeting key, or without any weight, there is nothing to select. -/
theorem select_in_proportion (fractional : Fractional) (flagKey : String) :
    let buckets := fractional.buckets
    let total := span buckets
    (∀ context : EvaluationContext, context.targetingKey = none →
      fractional.select flagKey context =
        .error (.invalidContext "fractional rollout requires a targeting key")) ∧
    (∀ (context : EvaluationContext) (targetingKey : String),
      context.targetingKey = some targetingKey → total = 0 →
        fractional.select flagKey context =
          .error (.rule "fractional buckets have zero total weight")) ∧
    (0 < total → total < UInt32.size →
      (∀ (context : EvaluationContext) (targetingKey : String),
        context.targetingKey = some targetingKey →
          let point := (fractional.hash flagKey targetingKey).toNat % total
          let i := landing buckets point
          ∃ bucket, buckets[i]? = some bucket ∧
            fractional.select flagKey context = .ok bucket.variant ∧ bucket.weight ≠ 0 ∧
              ∀ j, edge buckets j ≤ point ∧ point < edge buckets (j + 1) ↔ j = i) ∧
      ∀ i bucket, buckets[i]? = some bucket →
        Nat.count (fun point => landing buckets point = i) total = bucket.weight.toNat) := by
  intro buckets total
  refine ⟨fun context => select_of_keyless, fun context targetingKey keyed weightless =>
    select_of_weightless weightless keyed, fun positive fits => ⟨?_, fun i bucket =>
    Bucket.count_landing⟩⟩
  intro context targetingKey keyed point i
  have below : point < span buckets := Nat.mod_lt _ positive
  obtain ⟨bucket, found, selected⟩ := select_eq flagKey positive fits keyed
  refine ⟨bucket, found, selected, Bucket.weight_ne_zero_of_landing below found, fun j => ?_⟩
  rw [← Bucket.landing_eq_iff below]
  exact eq_comm

/-- A rollout with buckets that weigh nothing at both ends, and with variants in two places. -/
theorem select_in_proportion_zero_weights :
    let fractional : Fractional :=
      ⟨some "checkout", [⟨"on", 0⟩, ⟨"off", 3⟩, ⟨"on", 2⟩, ⟨"off", 0⟩]⟩
    let bert : EvaluationContext := { targetingKey := some "bert" }
    fractional.select "flag" bert = .ok "on" ∧
      fractional.select "flag" {} =
        .error (.invalidContext "fractional rollout requires a targeting key") ∧
      Nat.count (fun point => landing fractional.buckets point = 2) 5 = 2 ∧
      Nat.count (fun point => landing fractional.buckets point = 3) 5 = 0 := by
  intro fractional bert
  obtain ⟨keyless, -, proportional⟩ := select_in_proportion fractional "flag"
  obtain ⟨keyed, counted⟩ := proportional (by decide) (by decide)
  obtain ⟨bucket, found, selected, -⟩ := keyed bert "bert" rfl
  have third : landing fractional.buckets
      ((fractional.hash "flag" "bert").toNat % span fractional.buckets) = 2 := by decide +kernel
  rw [third] at found
  cases found
  exact ⟨selected, keyless {} rfl, counted 2 _ rfl, counted 3 _ rfl⟩

end Fractional

end FeatureFlags
