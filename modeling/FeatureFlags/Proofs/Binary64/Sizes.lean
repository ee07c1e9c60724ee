import FeatureFlags.Proofs.Binary64.Integers

/-!
# Sizes of doubles

The double of magnitude `k * binade` is the power of two of biased exponent `k`. `AtMost k x` says
that `x` is not negative and no greater than it, and `AtLeast k x` that `x` is a number or infinity
and no less. Each operation is given the power that bounds its result: the bounds of two factors add
up (`AtMost.mul`, `AtLeast.mul`), a sum needs one bit more than its terms (`AtMost.add`) and is
at least as large as each (`AtLeast.add`), and a quotient is no greater than its dividend if the
divisor is at least 1 (`AtMost.div`). Those of a product are exact, as rounding keeps powers of two
(`le_magnitudeOf`, `magnitudeOf_le_of_le`), and so is the lower bound of a quotient
(`AtLeast.div`); the others are a little larger than they need to be.

The smaller of two numbers is bounded as soon as one of them is, be the other infinite or NaN
(`AtMost.min`), and the larger of a number and 1 is at least 1 (`atLeast_max_one`).
-/

namespace FeatureFlags.Binary64

/-- Not negative, and at most the power of two with a biased exponent. -/
structure AtMost (k : Nat) (x : Binary64) : Prop where
  negative_eq : x.negative = false
  magnitude_le : x.magnitude ≤ k * binade

/-- A number or infinity that is at least the power of two with a biased exponent. -/
structure AtLeast (k : Nat) (x : Binary64) : Prop where
  negative_eq : x.negative = false
  le_magnitude : k * binade ≤ x.magnitude
  le_infinite : x.magnitude ≤ infinite

variable {x y : Binary64} {a b c k n d : Nat}

/-! ## Order and signs -/

/-- Numbers compare as they stand in the order of the doubles, and NaN is less than nothing. -/
theorem lt_iff :
    x.lt y = true ↔ x.isNaN = false ∧ y.isNaN = false ∧ x.ordinal < y.ordinal := by
  unfold lt compare?
  rw [← Int.compare_eq_lt]
  cases x.isNaN <;> cases y.isNaN <;> simp

theorem ordinal_of_negative_eq (hx : x.negative = false) : x.ordinal = x.magnitude := by
  rw [ordinal, hx]
  rfl

theorem negative_mul (hx : x.negative = false) (hy : y.negative = false) :
    (x.mul y).negative = false := by
  unfold mul
  rw [hx, hy]
  dsimp only
  split
  · rfl
  · split
    · split <;> rfl
    · rfl

theorem negative_div (hx : x.negative = false) (hy : y.negative = false) :
    (x.div y).negative = false := by
  unfold div
  rw [hx, hy]
  dsimp only
  repeat' split
  all_goals rfl

theorem signedUnits_of_negative_eq (hx : x.negative = false) : x.signedUnits = x.units := by
  rw [signedUnits, hx]
  rfl

theorem negative_add (hx : x.negative = false) (hy : y.negative = false) :
    (x.add y).negative = false := by
  have sum : ¬ x.signedUnits + y.signedUnits < 0 := by
    rw [signedUnits_of_negative_eq hx, signedUnits_of_negative_eq hy]
    omega
  unfold add
  split
  · rfl
  split
  · split
    · rfl
    · exact hx
  split
  · exact hy
  dsimp only
  split
  · rw [hx]
    rfl
  · exact decide_eq_false sum

/-! ## Powers of two -/

/-- A quotient of at least 2ᵏ⁺⁵¹ units has a magnitude of at least k 2⁵². -/
theorem le_magnitudeOf (h : Nat.pow 2 (k + 51) ≤ n / d) (pos : 1 ≤ k)
    (range : k ≤ 2047) : k * binade ≤ magnitudeOf n d := by
  have two_pos : 0 < Nat.pow 2 (k + 51) := Nat.two_pow_pos _
  have hlog : k + 51 ≤ Nat.log2 (n / d) := (Nat.le_log2 (by omega)).2 h
  have hself : Nat.pow 2 (Nat.log2 (n / d)) ≤ n / d := Nat.log2_self_le (by omega)
  unfold magnitudeOf
  dsimp only
  refine Nat.le_min.2 ⟨?_, Nat.mul_le_mul_right binade range⟩
  generalize hs : Nat.log2 (n / d) - 52 = s
  have hsteps : binade ≤ n / (d * Nat.pow 2 s) := by
    rw [← Nat.div_div_eq_div_mul]
    refine (Nat.le_div_iff_mul_le (Nat.two_pow_pos s)).2 ?_
    refine Nat.le_trans (Nat.le_of_eq ?_) hself
    rw [show Nat.log2 (n / d) = 52 + s by omega]
    exact (Nat.pow_add 2 52 s).symm
  calc k * binade ≤ (s + 1) * binade := Nat.mul_le_mul_right _ (by omega)
    _ = s * binade + binade := Nat.succ_mul s binade
    _ ≤ s * binade + roundDiv n (d * Nat.pow 2 s) :=
      Nat.add_le_add_left (hsteps.trans (le_roundDiv _ _)) _

/-- A quotient of at most 2ᵏ⁺⁵¹ units has a magnitude of at most k 2⁵². -/
theorem magnitudeOf_le_of_le (h : n ≤ d * Nat.pow 2 (k + 51)) (hd : 0 < d)
    (hk : 2 ≤ k) : magnitudeOf n d ≤ k * binade := by
  rcases Nat.lt_or_eq_of_le h with less | same
  · have hq : n / d < Nat.pow 2 (k + 51) := Nat.div_lt_of_lt_mul less
    refine (magnitudeOf_le hq (by omega)).trans ?_
    rw [Nat.add_sub_cancel]
  · obtain ⟨s, rfl⟩ : ∃ s, k = s + 1 := ⟨k - 1, by omega⟩
    have hpow : Nat.pow 2 (s + 1 + 51) = binade * Nat.pow 2 s := by
      rw [Nat.mul_comm, show s + 1 + 51 = s + 52 by omega]
      exact Nat.pow_add 2 s 52
    have hlog : Nat.log2 (n / d) - 52 = s := by
      rw [same, Nat.mul_div_cancel_left _ hd]
      have := Nat.log2_two_pow (n := s + 1 + 51)
      change Nat.log2 (Nat.pow 2 (s + 1 + 51)) = _ at this
      omega
    have hsteps : roundDiv n (d * Nat.pow 2 s) = binade := by
      have hsplit : n = binade * (d * Nat.pow 2 s) := by
        rw [same, hpow, Nat.mul_left_comm]
      rw [hsplit, roundDiv_of_dvd (Nat.dvd_mul_left ..)]
      exact Nat.mul_div_cancel binade (Nat.mul_pos hd (Nat.two_pow_pos s))
    unfold magnitudeOf
    dsimp only
    rw [hlog, hsteps, Nat.succ_mul]
    exact Nat.min_le_left _ _

theorem unitsAt_power (k : Nat) : unitsAt ((k + 1) * binade) = Nat.pow 2 (k + 52) := by
  rw [Nat.succ_mul, unitsAt_steps (.inr (Nat.le_refl _)) (by decide), Nat.mul_comm]
  exact (Nat.pow_add 2 k 52).symm

/-! ## Upper bounds -/

namespace AtMost

theorem mono (h : AtMost a x) (le : a ≤ b) : AtMost b x :=
  ⟨h.negative_eq, h.magnitude_le.trans (Nat.mul_le_mul_right _ le)⟩

/-- A number that is not negative has the bounds of the greater ones. -/
theorem of_lt (hy : AtMost k y) (hx : x.negative = false) (less : x.lt y = true) : AtMost k x := by
  obtain ⟨-, -, order⟩ := lt_iff.1 less
  rw [ordinal_of_negative_eq hx, ordinal_of_negative_eq hy.negative_eq] at order
  exact ⟨hx, (Int.ofNat_lt.1 order).le.trans hy.magnitude_le⟩

theorem magnitude_lt (h : AtMost k x) (range : k ≤ 2046) : x.magnitude < infinite :=
  Nat.lt_of_le_of_lt (h.magnitude_le.trans (Nat.mul_le_mul_right _ range)) (by decide)

theorem isNaN_eq (h : AtMost k x) (range : k ≤ 2046) : x.isNaN = false :=
  decide_eq_false (Nat.not_lt.2 (h.magnitude_lt range).le)

/-- A number that is not negative has the bounds of one that is not less. -/
theorem of_not_lt (hy : AtMost k y) (range : k ≤ 2046) (hx : x.negative = false)
    (number : ¬ x.isNaN = true) (least : ¬ y.lt x = true) : AtMost k x := by
  refine ⟨hx, Nat.le_trans ?_ hy.magnitude_le⟩
  by_contra greater
  refine least (lt_iff.2 ⟨hy.isNaN_eq range, by simpa using number, ?_⟩)
  rw [ordinal_of_negative_eq hx, ordinal_of_negative_eq hy.negative_eq]
  exact Int.ofNat_lt.2 (Nat.lt_of_not_le greater)

theorem isInfinite_eq (h : AtMost k x) (range : k ≤ 2046) : x.isInfinite = false :=
  beq_eq_false_iff_ne.2 (h.magnitude_lt range).ne

theorem units_le (h : AtMost (k + 1) x) : x.units ≤ Nat.pow 2 (k + 52) := by
  rw [← unitsAt_power]
  exact strictMono_unitsAt.monotone h.magnitude_le

/-- A quotient below a power of two of units is rounded to a double that is at most the power. -/
theorem ofUnits (below : n / d < Nat.pow 2 (k + 51)) (large : 2 ≤ k) :
    AtMost k (ofUnits false n d) := by
  refine ⟨rfl, (magnitudeOf_le below (by omega)).trans ?_⟩
  rw [Nat.add_sub_cancel]

theorem signedZero (k : Nat) : AtMost k (signedZero false) := ⟨rfl, Nat.zero_le _⟩

theorem ofNat (bound : n ≤ Nat.pow 2 k) : AtMost (k + 1023) (ofNat n) := by
  obtain ⟨e, exponent, one⟩ := oneUnits_eq_pow
  refine ⟨rfl, magnitudeOf_le_of_le ?_ Nat.one_pos (by omega)⟩
  rw [Nat.one_mul, one, show k + 1023 + 51 = k + e by omega]
  exact (Nat.mul_le_mul_right _ bound).trans (Nat.le_of_eq (Nat.pow_add 2 k e).symm)

theorem mul (hx : AtMost a x) (hy : AtMost b y) (ha : 1 ≤ a) (hb : 1 ≤ b)
    (rx : a ≤ 2046) (ry : b ≤ 2046) (sum : a + b ≤ c + 1023) (large : 2 ≤ c) :
    AtMost c (x.mul y) := by
  obtain ⟨e, exponent, one⟩ := oneUnits_eq_pow
  obtain ⟨a, rfl⟩ : ∃ i, a = i + 1 := ⟨a - 1, by omega⟩
  obtain ⟨b, rfl⟩ : ∃ i, b = i + 1 := ⟨b - 1, by omega⟩
  have product : x.units * y.units ≤ oneUnits * Nat.pow 2 (c + 51) :=
    calc x.units * y.units ≤ Nat.pow 2 (a + 52) * Nat.pow 2 (b + 52) :=
          Nat.mul_le_mul hx.units_le hy.units_le
      _ = Nat.pow 2 (a + 52 + (b + 52)) := (Nat.pow_add 2 (a + 52) (b + 52)).symm
      _ ≤ Nat.pow 2 (e + (c + 51)) := Nat.pow_le_pow_right (by decide) (by omega)
      _ = oneUnits * Nat.pow 2 (c + 51) := by
        rw [one]
        exact Nat.pow_add 2 e (c + 51)
  unfold Binary64.mul
  rw [hx.negative_eq, hy.negative_eq, hx.isNaN_eq rx, hy.isNaN_eq ry, hx.isInfinite_eq rx,
    hy.isInfinite_eq ry]
  exact ⟨rfl, magnitudeOf_le_of_le product (one ▸ Nat.two_pow_pos e) large⟩

theorem add (hx : AtMost (k + 1) x) (hy : AtMost (k + 1) y) (range : k < 2046) :
    AtMost (k + 3) (x.add y) := by
  have sum : x.units + y.units < Nat.pow 2 (k + 54) := by
    have hx := hx.units_le
    have hy := hy.units_le
    have pos := Nat.two_pow_pos (k + 52)
    have twice : Nat.pow 2 (k + 54) = Nat.pow 2 (k + 52) * 4 := Nat.pow_add 2 (k + 52) 2
    change 0 < Nat.pow 2 (k + 52) at pos
    omega
  unfold Binary64.add
  rw [hx.isNaN_eq range, hy.isNaN_eq range, hx.isInfinite_eq range, hy.isInfinite_eq range,
    signedUnits_of_negative_eq hx.negative_eq, signedUnits_of_negative_eq hy.negative_eq,
    hx.negative_eq, hy.negative_eq]
  simp only [Bool.or_self, Bool.and_self, Bool.false_eq_true, if_false]
  split
  · exact signedZero _
  · rw [decide_eq_false (by omega), ← Int.natCast_add, Int.natAbs_natCast]
    refine ofUnits ?_ (by omega)
    rw [Nat.div_one]
    exact sum

theorem div (hx : AtMost (k + 1) x) (hy : AtMost (b + 1) y) (rx : k < 2046) (ry : b < 2046)
    (large : oneUnits ≤ y.units) : AtMost (k + 2) (x.div y) := by
  obtain ⟨e, -, one⟩ := oneUnits_eq_pow
  have pos : 0 < oneUnits := one ▸ Nat.two_pow_pos e
  have nonzero : y.isZero = false := by
    refine beq_eq_false_iff_ne.2 fun zero => ?_
    have none : y.units = 0 := by
      change unitsAt y.magnitude = 0
      rw [zero]
      rfl
    omega
  have below : x.units * oneUnits / y.units < Nat.pow 2 (k + 2 + 51) :=
    calc x.units * oneUnits / y.units ≤ x.units * oneUnits / oneUnits :=
          Nat.div_le_div_left large pos
      _ = x.units := Nat.mul_div_cancel _ pos
      _ ≤ Nat.pow 2 (k + 52) := hx.units_le
      _ < Nat.pow 2 (k + 2 + 51) := Nat.pow_lt_pow_right (by decide) (by omega)
  unfold Binary64.div
  rw [hx.negative_eq, hy.negative_eq, hx.isNaN_eq rx, hy.isNaN_eq ry, hx.isInfinite_eq rx,
    hy.isInfinite_eq ry, nonzero]
  exact ofUnits below (by omega)

/-- The smaller of two numbers is no greater than the second one, be the first one NaN. -/
theorem min (hx : x.negative = false) (hy : AtMost k y) (range : k ≤ 2046) :
    AtMost k (x.min y) := by
  unfold Binary64.min
  rw [hy.isNaN_eq range]
  split
  · exact hy
  rename_i number
  rw [if_neg Bool.false_ne_true]
  split
  · exact hy
  rename_i small
  exact hy.of_not_lt range hx number small

end AtMost

/-! ## Lower bounds -/

theorem AtMost.atLeast_zero (h : AtMost k x) (range : k ≤ 2046) : AtLeast 0 x :=
  ⟨h.negative_eq, (Nat.zero_mul binade).trans_le (Nat.zero_le _), (h.magnitude_lt range).le⟩

theorem isInfinite_iff : x.isInfinite = true ↔ x.magnitude = infinite := beq_iff_eq

namespace AtLeast

theorem mono (h : AtLeast b x) (le : a ≤ b) : AtLeast a x :=
  ⟨h.negative_eq, (Nat.mul_le_mul_right _ le).trans h.le_magnitude, h.le_infinite⟩

theorem isNaN_eq (h : AtLeast k x) : x.isNaN = false :=
  decide_eq_false (Nat.not_lt.2 h.le_infinite)

theorem isZero_eq (h : AtLeast k x) (pos : 1 ≤ k) : x.isZero = false := by
  have hle := Nat.mul_le_mul_right binade pos
  have := h.le_magnitude
  exact beq_eq_false_iff_ne.2 (by unfold binade at *; omega)

theorem le_units (h : AtLeast (k + 1) x) : Nat.pow 2 (k + 52) ≤ x.units := by
  rw [← unitsAt_power]
  exact strictMono_unitsAt.monotone h.le_magnitude

theorem oneUnits_le (h : AtLeast 1023 x) : oneUnits ≤ x.units := by
  obtain ⟨e, exponent, one⟩ := oneUnits_eq_pow
  rw [one, show e = 1022 + 52 by omega]
  exact AtLeast.le_units (k := 1022) h

theorem infinity (h : k ≤ 2047) : AtLeast k (infinity false) :=
  ⟨rfl, Nat.mul_le_mul_right binade h, Nat.le_refl _⟩

theorem zero_ofUnits (n d : Nat) : AtLeast 0 (Binary64.ofUnits false n d) :=
  ⟨rfl, (Nat.zero_mul binade).trans_le (Nat.zero_le _), Nat.min_le_right _ _⟩

theorem ofUnits (h : Nat.pow 2 (k + 51) ≤ n / d) (pos : 1 ≤ k) (range : k ≤ 2047) :
    AtLeast k (ofUnits false n d) :=
  ⟨rfl, le_magnitudeOf h pos range, Nat.min_le_right _ _⟩

theorem mul (hx : AtLeast a x) (hy : AtLeast b y) (ha : 1 ≤ a) (hb : 1 ≤ b)
    (sum : c + 1023 ≤ a + b) (pos : 1 ≤ c) (range : c ≤ 2047) : AtLeast c (x.mul y) := by
  obtain ⟨e, exponent, one⟩ := oneUnits_eq_pow
  obtain ⟨a, rfl⟩ : ∃ i, a = i + 1 := ⟨a - 1, by omega⟩
  obtain ⟨b, rfl⟩ : ∃ i, b = i + 1 := ⟨b - 1, by omega⟩
  have product : Nat.pow 2 (c + 51) ≤ x.units * y.units / oneUnits := by
    rw [one]
    refine (Nat.le_div_iff_mul_le (Nat.two_pow_pos e)).2 ?_
    calc Nat.pow 2 (c + 51) * Nat.pow 2 e = Nat.pow 2 (c + 51 + e) := (Nat.pow_add 2 _ _).symm
      _ ≤ Nat.pow 2 (a + 52 + (b + 52)) := Nat.pow_le_pow_right (by decide) (by omega)
      _ = Nat.pow 2 (a + 52) * Nat.pow 2 (b + 52) := Nat.pow_add 2 _ _
      _ ≤ x.units * y.units := Nat.mul_le_mul hx.le_units hy.le_units
  unfold Binary64.mul
  rw [hx.negative_eq, hy.negative_eq, hx.isNaN_eq, hy.isNaN_eq, hx.isZero_eq (by omega),
    hy.isZero_eq (by omega)]
  simp only [Bool.or_self, Bool.false_eq_true, if_false, bne_self_eq_false]
  split
  · exact infinity range
  · exact ofUnits product pos range

theorem ofNat (h : Nat.pow 2 k ≤ n) (range : k ≤ 1024) : AtLeast (k + 1023) (ofNat n) := by
  obtain ⟨e, exponent, one⟩ := oneUnits_eq_pow
  refine ofUnits ?_ (by omega) (by omega)
  rw [Nat.div_one, one, show k + 1023 + 51 = k + e by omega]
  exact (Nat.le_of_eq (Nat.pow_add 2 k e)).trans (Nat.mul_le_mul_right _ h)

/-- A sum is at least as large as each of its terms. -/
theorem add (hx : AtLeast 0 x) (hy : AtLeast 0 y) (large : AtLeast k x ∨ AtLeast k y)
    (pos : 1 ≤ k) (range : k ≤ 2047) : AtLeast k (x.add y) := by
  obtain ⟨k, rfl⟩ : ∃ i, k = i + 1 := ⟨k - 1, by omega⟩
  have endless {z : Binary64} (hz : AtLeast 0 z) (h : z.isInfinite = true) : AtLeast (k + 1) z := by
    refine ⟨hz.negative_eq, ?_, hz.le_infinite⟩
    rw [isInfinite_iff.1 h]
    exact Nat.mul_le_mul_right binade range
  have sum : Nat.pow 2 (k + 52) ≤ x.units + y.units := by
    rcases large with h | h
    · exact h.le_units.trans (Nat.le_add_right _ _)
    · exact h.le_units.trans (Nat.le_add_left _ _)
  have two_pos : 0 < Nat.pow 2 (k + 52) := Nat.two_pow_pos _
  unfold Binary64.add
  rw [hx.isNaN_eq, hy.isNaN_eq, hx.negative_eq, hy.negative_eq,
    signedUnits_of_negative_eq hx.negative_eq, signedUnits_of_negative_eq hy.negative_eq]
  simp only [Bool.or_self, Bool.false_eq_true, if_false, bne_self_eq_false, Bool.and_false]
  split
  · exact endless hx ‹_›
  split
  · exact endless hy ‹_›
  rw [if_neg (by omega), decide_eq_false (by omega), ← Int.natCast_add, Int.natAbs_natCast]
  refine ofUnits ?_ pos range
  rw [Nat.div_one]
  exact sum

theorem div (hx : AtLeast a x) (hy : AtMost b y) (nonzero : y.isZero = false) (ha : 1 ≤ a)
    (hb : 1 ≤ b) (finite : b ≤ 2046) (quotient : c + b ≤ a + 1023) (pos : 1 ≤ c)
    (range : c ≤ 2047) : AtLeast c (x.div y) := by
  obtain ⟨e, exponent, one⟩ := oneUnits_eq_pow
  obtain ⟨a, rfl⟩ : ∃ i, a = i + 1 := ⟨a - 1, by omega⟩
  obtain ⟨b, rfl⟩ : ∃ i, b = i + 1 := ⟨b - 1, by omega⟩
  have units_pos : 0 < y.units := by
    have := strictMono_unitsAt (Nat.pos_of_ne_zero (beq_eq_false_iff_ne.1 nonzero))
    exact Nat.lt_of_le_of_lt (Nat.zero_le _) this
  have bound : Nat.pow 2 (c + 51) ≤ x.units * oneUnits / y.units := by
    rw [one]
    refine (Nat.le_div_iff_mul_le units_pos).2 ?_
    calc Nat.pow 2 (c + 51) * y.units ≤ Nat.pow 2 (c + 51) * Nat.pow 2 (b + 52) :=
          Nat.mul_le_mul_left _ hy.units_le
      _ = Nat.pow 2 (c + 51 + (b + 52)) := (Nat.pow_add 2 (c + 51) (b + 52)).symm
      _ ≤ Nat.pow 2 (a + 52 + e) := Nat.pow_le_pow_right (by decide) (by omega)
      _ = Nat.pow 2 (a + 52) * Nat.pow 2 e := Nat.pow_add 2 (a + 52) e
      _ ≤ x.units * Nat.pow 2 e := Nat.mul_le_mul_right _ hx.le_units
  unfold Binary64.div
  rw [hx.negative_eq, hy.negative_eq, hx.isNaN_eq, hy.isNaN_eq finite, hy.isInfinite_eq finite,
    nonzero]
  simp only [Bool.or_self, Bool.false_eq_true, if_false, bne_self_eq_false]
  split
  · exact infinity range
  · exact ofUnits bound pos range

end AtLeast

theorem magnitudeOf_zero (d : Nat) : magnitudeOf 0 d = 0 := by
  simp [magnitudeOf, roundDiv]

theorem ofUnits_zero (d : Nat) : ofUnits false 0 d = zero := by
  simp only [ofUnits, magnitudeOf_zero]
  rfl

/-- Zero times a number is zero, and zero times infinity is no number. -/
theorem zero_mul_of_atLeast (h : AtLeast 0 x) :
    zero.mul x = if x.isInfinite then nan else zero := by
  have zeros : zero.isNaN = false ∧ zero.isInfinite = false ∧ zero.isZero = true ∧
    zero.negative = false ∧ zero.units = 0 := by decide
  unfold mul
  rw [h.negative_eq, h.isNaN_eq]
  simp only [zeros, Bool.or_self, Bool.false_or, Bool.true_or, Bool.false_eq_true, if_false,
    if_true, bne_self_eq_false, Nat.zero_mul]
  split
  · rfl
  · exact ofUnits_zero oneUnits

/-! ## The number 1 -/

theorem atMost_one : AtMost 1023 one := AtMost.ofNat (k := 0) (Nat.le_refl 1)

theorem atLeast_one : AtLeast 1023 one := AtLeast.ofNat (k := 0) (Nat.le_refl 1) (Nat.zero_le _)

theorem isNaN_one : one.isNaN = false := atLeast_one.isNaN_eq

theorem ordinal_one_pos : 0 < one.ordinal := by
  have least := atLeast_one.le_magnitude
  rw [ordinal_of_negative_eq atLeast_one.negative_eq]
  unfold binade at least
  omega

/-- The larger of a number and 1 is at least 1, and 1 if the number is none. -/
theorem atLeast_max_one (x : Binary64) : AtLeast 1023 (x.max one) := by
  have least := atLeast_one
  unfold max
  split
  · exact least
  rename_i number
  rw [isNaN_one, if_neg Bool.false_ne_true]
  split
  · exact least
  rename_i large
  have pos := ordinal_one_pos
  have order : one.ordinal ≤ x.ordinal := by
    by_contra less
    exact large (lt_iff.2 ⟨by simpa using number, isNaN_one, by omega⟩)
  have sign : x.negative = false := by
    by_contra negative
    have below : x.ordinal = -(x.magnitude : Int) := if_pos (by simpa using negative)
    omega
  rw [ordinal_of_negative_eq sign, ordinal_of_negative_eq least.negative_eq] at order
  exact ⟨sign, least.le_magnitude.trans (by omega), by simpa [isNaN] using number⟩

end FeatureFlags.Binary64
