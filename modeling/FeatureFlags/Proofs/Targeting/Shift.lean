import FeatureFlags.Proofs.Targeting.Rollout

/-!
# Rollouts are sticky

Weight is shifted from the bucket behind a position to the bucket at the position. That moves the
edge between the two and no other (`edge_shift`), so the only points that land elsewhere than before
are those that the edge passes over (`landing_shift`). All other targeting keys stay where they are,
and who is in the first bucket of a rollout stays there when it grows (`shift_is_sticky`).
-/

namespace FeatureFlags

namespace Bucket

/-- Shifts weight from the bucket behind a position to the bucket at the position. -/
def shift (buckets : List Bucket) (i : Nat) (amount : UInt32) : List Bucket :=
  (buckets.modify i fun taker => { taker with weight := taker.weight + amount }).modify (i + 1)
    fun giver => { giver with weight := giver.weight - amount }

variable {bucket giver taker : Bucket} {buckets rest : List Bucket} {i point : Nat}
  {amount : UInt32}

theorem shift_cons_zero : shift (taker :: giver :: rest) 0 amount =
    { taker with weight := taker.weight + amount } ::
      { giver with weight := giver.weight - amount } :: rest := rfl

@[simp] theorem shift_cons_succ :
    shift (bucket :: rest) (i + 1) amount = bucket :: shift rest i amount := rfl

@[simp] theorem length_shift : (shift buckets i amount).length = buckets.length := by
  simp [shift]

/-- The variants stay in their places. -/
theorem variant_shift (buckets : List Bucket) (i : Nat) (amount : UInt32) (j : Nat) :
    (shift buckets i amount)[j]?.map (·.variant) = buckets[j]?.map (·.variant) := by
  simp only [shift, List.getElem?_modify]
  cases buckets[j]? with
  | none => rfl
  | some bucket => split <;> split <;> rfl

/-- A shift moves the edge between the two buckets. -/
theorem edge_shift (found : buckets[i + 1]? = some giver) (enough : amount ≤ giver.weight)
    (fits : span buckets < UInt32.size) (j : Nat) :
    edge (shift buckets i amount) j =
      edge buckets j + if j = i + 1 then amount.toNat else 0 := by
  induction buckets generalizing i j with
  | nil => cases found
  | cons taker rest ih =>
    rw [span_cons] at fits
    cases i with
    | zero =>
      cases rest with
      | nil => cases found
      | cons giver rest =>
        cases found
        rw [span_cons] at fits
        have lost : (giver.weight - amount).toNat = giver.weight.toNat - amount.toNat :=
          UInt32.toNat_sub_of_le _ _ enough
        rw [UInt32.le_iff_toNat_le] at enough
        have gained : (taker.weight + amount).toNat = taker.weight.toNat + amount.toNat :=
          toNat_add_of_fits (by omega)
        rw [shift_cons_zero]
        match j with
        | 0 => rfl
        | 1 => simp [gained]
        | j + 2 =>
          simp only [edge_cons_succ, gained, lost]
          split <;> omega
    | succ i =>
      cases j with
      | zero => simp
      | succ j =>
        simp only [shift_cons_succ, edge_cons_succ, Nat.add_right_cancel_iff]
        rw [ih found (by omega), Nat.add_assoc]

theorem span_shift (found : buckets[i + 1]? = some giver) (enough : amount ≤ giver.weight)
    (fits : span buckets < UInt32.size) : span (shift buckets i amount) = span buckets := by
  obtain ⟨inside, -⟩ := List.getElem?_eq_some_iff.1 found
  rw [← edge_length, edge_shift found enough fits, length_shift, edge_length, if_neg inside.ne',
    Nat.add_zero]

/-- The points that the edge passes over land in the bucket at the position, and all others where
they landed before. -/
theorem landing_shift (found : buckets[i + 1]? = some giver) (enough : amount ≤ giver.weight)
    (fits : span buckets < UInt32.size) (below : point < span buckets) :
    landing (shift buckets i amount) point =
      if edge buckets (i + 1) ≤ point ∧ point < edge buckets (i + 1) + amount.toNat then i
      else landing buckets point := by
  have below' : point < span (shift buckets i amount) := by rwa [span_shift found enough fits]
  obtain ⟨low, high⟩ := (landing_eq_iff below).1 rfl
  rw [landing_eq_iff below', edge_shift found enough fits, edge_shift found enough fits]
  split
  · rename_i passed
    have before := edge_mono buckets (Nat.le_add_right i 1)
    rw [if_neg (Nat.ne_of_lt (Nat.lt_succ_self i)), if_pos rfl]
    omega
  · rename_i missed
    split
    · rename_i behind
      rw [behind] at low high ⊢
      split <;> omega
    · split <;> omega

/-- A point that lands elsewhere after a shift moves from the bucket behind the position to the one
at the position. -/
theorem landing_shift_cases (found : buckets[i + 1]? = some giver)
    (enough : amount ≤ giver.weight) (fits : span buckets < UInt32.size)
    (below : point < span buckets) :
    landing (shift buckets i amount) point = landing buckets point ∨
      landing buckets point = i + 1 ∧ landing (shift buckets i amount) point = i := by
  rw [landing_shift found enough fits below]
  split
  · rename_i passed
    refine .inr ⟨(landing_eq_iff below).2 ⟨passed.1, ?_⟩, rfl⟩
    obtain ⟨inside, rfl⟩ := List.getElem?_eq_some_iff.1 found
    rw [UInt32.le_iff_toNat_le] at enough
    rw [edge_succ inside]
    omega
  · exact .inl rfl

/-- As many points move as weight is shifted. -/
theorem count_landing_shift (found : buckets[i + 1]? = some giver)
    (enough : amount ≤ giver.weight) (fits : span buckets < UInt32.size) :
    Nat.count (fun point => landing (shift buckets i amount) point ≠ landing buckets point)
      (span buckets) = amount.toNat := by
  obtain ⟨inside, rfl⟩ := List.getElem?_eq_some_iff.1 found
  rw [UInt32.le_iff_toNat_le] at enough
  have within : edge buckets (i + 1) + amount.toNat ≤ span buckets := by
    have behind := edge_mono buckets inside
    rw [edge_length, Nat.succ_eq_add_one, edge_succ inside] at behind
    omega
  have moved (point : Nat) (below : point < span buckets) :
      landing (shift buckets i amount) point ≠ landing buckets point ↔
        edge buckets (i + 1) ≤ point ∧ point < edge buckets (i + 1) + amount.toNat := by
    rw [landing_shift found enough fits below]
    split
    · rename_i passed
      refine iff_of_true (fun same => ?_) passed
      have low := ((landing_eq_iff below).1 same.symm).2
      omega
    · rename_i missed
      exact iff_of_false (fun differs => differs rfl) missed
  rw [count_congr moved, count_range within]
  omega

end Bucket

namespace Fractional

open Bucket (span landing)

variable {fractional : Fractional} {flagKey targetingKey : String} {context : EvaluationContext}

/-- Shifts weight from the bucket behind a position to the bucket at the position, under the same
seed. -/
def shift (fractional : Fractional) (i : Nat) (amount : UInt32) : Fractional :=
  { fractional with buckets := Bucket.shift fractional.buckets i amount }

/-- After a shift a targeting key still selects the variant that stands at its position. -/
theorem select_shift (flagKey : String) {i : Nat} {amount : UInt32} {giver : Bucket}
    (found : fractional.buckets[i + 1]? = some giver) (enough : amount ≤ giver.weight)
    (positive : 0 < span fractional.buckets) (fits : span fractional.buckets < UInt32.size)
    (keyed : context.targetingKey = some targetingKey) :
    ∃ bucket,
      fractional.buckets[(fractional.shift i amount).position flagKey targetingKey]? =
          some bucket ∧
        (fractional.shift i amount).select flagKey context = .ok bucket.variant := by
  have total : span (fractional.shift i amount).buckets = span fractional.buckets :=
    Bucket.span_shift found enough fits
  obtain ⟨shifted, there, selected⟩ : ∃ shifted,
      (fractional.shift i amount).buckets[(fractional.shift i amount).position flagKey
        targetingKey]? = some shifted ∧
      (fractional.shift i amount).select flagKey context = .ok shifted.variant :=
    select_eq flagKey (total ▸ positive) (total ▸ fits) keyed
  have variant := Bucket.variant_shift fractional.buckets i amount
    ((fractional.shift i amount).position flagKey targetingKey)
  rw [show (Bucket.shift fractional.buckets i amount)[_]? = some shifted from there,
    Option.map_some, eq_comm, Option.map_eq_some_iff] at variant
  obtain ⟨bucket, here, same⟩ := variant
  exact ⟨bucket, here, selected.trans (congrArg _ same.symm)⟩

/-- Shifting weight to the bucket at a position from the one behind it keeps the sum of the weights,
and every targeting key where it is, but for those that move from the bucket behind to the one at
the position. These hold as many of the points as weight is shifted. So a rollout with two buckets
never loses anybody from the first one when that grows. -/
theorem shift_is_sticky (fractional : Fractional) (i : Nat) (amount : UInt32) {giver : Bucket}
    (found : fractional.buckets[i + 1]? = some giver) (enough : amount ≤ giver.weight)
    (positive : 0 < span fractional.buckets) (fits : span fractional.buckets < UInt32.size) :
    let shifted := fractional.shift i amount
    let total := span fractional.buckets
    span shifted.buckets = total ∧
    (∀ (flagKey targetingKey : String) (context : EvaluationContext),
      context.targetingKey = some targetingKey →
        let before := fractional.position flagKey targetingKey
        let after := shifted.position flagKey targetingKey
        (∃ bucket, fractional.buckets[before]? = some bucket ∧
          fractional.select flagKey context = .ok bucket.variant) ∧
        (∃ bucket, fractional.buckets[after]? = some bucket ∧
          shifted.select flagKey context = .ok bucket.variant) ∧
        (after = before ∨ before = i + 1 ∧ after = i)) ∧
    (∀ point < total, landing shifted.buckets point = landing fractional.buckets point ∨
      landing fractional.buckets point = i + 1 ∧ landing shifted.buckets point = i) ∧
    Nat.count (fun point => landing shifted.buckets point ≠ landing fractional.buckets point)
      total = amount.toNat ∧
    ∀ first second, fractional.buckets = [first, second] →
      ∀ (flagKey : String) (context : EvaluationContext),
        fractional.select flagKey context = .ok first.variant →
          shifted.select flagKey context = .ok first.variant := by
  intro shifted total
  have sum : span shifted.buckets = total := Bucket.span_shift found enough fits
  have stays (flagKey targetingKey : String) :
      shifted.position flagKey targetingKey = fractional.position flagKey targetingKey ∨
        fractional.position flagKey targetingKey = i + 1 ∧
          shifted.position flagKey targetingKey = i := by
    have hash : shifted.hash flagKey targetingKey = fractional.hash flagKey targetingKey := rfl
    unfold position
    rw [hash, sum]
    exact Bucket.landing_shift_cases found enough fits (Nat.mod_lt _ positive)
  refine ⟨sum, fun flagKey targetingKey context keyed =>
      ⟨select_eq flagKey positive fits keyed, select_shift flagKey found enough positive fits keyed, stays _ _⟩,
    fun point => Bucket.landing_shift_cases found enough fits,
    Bucket.count_landing_shift found enough fits, ?_⟩
  intro first second two flagKey context chosen
  cases keyed : context.targetingKey with
  | none =>
    rw [select_of_keyless keyed] at chosen
    cases chosen
  | some targetingKey =>
    obtain ⟨bucket, here, selected⟩ := select_eq flagKey positive fits keyed
    obtain ⟨other, there, reselected⟩ :=
      select_shift flagKey found enough positive fits keyed
    have variant : bucket.variant = first.variant := Except.ok.inj (selected.symm.trans chosen)
    refine reselected.trans (congrArg _ ?_)
    obtain same | ⟨-, moved⟩ := stays flagKey targetingKey
    · rw [show (fractional.shift i amount).position flagKey targetingKey = _ from same, here] at there
      cases there
      exact variant
    · -- With two buckets, the one that takes is the first.
      rw [two] at found
      have taker : i = 0 := by
        match i, found with
        | 0, _ => rfl
      rw [show (fractional.shift i amount).position flagKey targetingKey = _ from moved, taker, two]
        at there
      cases there
      rfl

/-- A rollout grows from 10 to 25 of 100. -/
theorem shift_is_sticky_growing :
    let fractional : Fractional := ⟨none, [⟨"on", 10⟩, ⟨"off", 90⟩]⟩
    let grown := fractional.shift 0 15
    let bert : EvaluationContext := { targetingKey := some "bert" }
    grown.buckets.map (·.weight) = [25, 75] ∧
      Nat.count (fun point => landing grown.buckets point ≠ landing fractional.buckets point) 100 =
        15 ∧
      fractional.select "checkout" bert = .ok "on" ∧ grown.select "checkout" bert = .ok "on" ∧
      fractional.position "checkout" "uwe" = 1 ∧ grown.position "checkout" "uwe" = 0 := by
  intro fractional grown bert
  have found : fractional.buckets[1]? = some ⟨"off", 90⟩ := rfl
  obtain ⟨-, keyed, -, moved, stays⟩ :=
    shift_is_sticky fractional 0 15 found (by decide) (by decide) (by decide)
  have first : fractional.position "checkout" "bert" = 0 := by decide +kernel
  obtain ⟨⟨bucket, here, chosen⟩, -⟩ := keyed "checkout" "bert" bert rfl
  rw [first] at here
  cases here
  exact ⟨rfl, moved, chosen, stays _ _ rfl "checkout" bert chosen, by decide +kernel,
    by decide +kernel⟩

end Fractional

end FeatureFlags
