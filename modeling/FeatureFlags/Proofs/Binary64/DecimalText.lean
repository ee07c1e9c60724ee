import FeatureFlags.Binary64.Decimal
import FeatureFlags.Proofs.Binary64.Rounding
import Mathlib.Data.List.TakeWhile

/-!
# The text of a double

A decimal text spells a number (`spelt`). The text of a finite double spells, whatever its layout, a
number that rounds to the double (`exists_render_eq`). So two finite doubles with one text are
equal (`eq_of_render_eq`), the zeros being told apart by their signs.
-/

namespace FeatureFlags

open Text (decimalValue)

/-! ## Digits -/

namespace Text

theorem decimalValue_toDigits (n : Nat) : decimalValue (Nat.toDigits 10 n) = n :=
  Nat.ofDigitChars_ten_toDigits

theorem decimalValue_zero_cons (digits : List Char) :
    decimalValue ('0' :: digits) = decimalValue digits := rfl

theorem decimalValue_zeros_append (n : Nat) (digits : List Char) :
    decimalValue (List.replicate n '0' ++ digits) = decimalValue digits := by
  change Nat.ofDigitChars 10 _ 0 = Nat.ofDigitChars 10 _ 0
  rw [Nat.ofDigitChars_append, Nat.ofDigitChars_replicate_zero, Nat.mul_zero]

theorem decimalValue_append_zeros (digits : List Char) (n : Nat) :
    decimalValue (digits ++ List.replicate n '0') = 10 ^ n * decimalValue digits := by
  change Nat.ofDigitChars 10 _ 0 = 10 ^ n * Nat.ofDigitChars 10 _ 0
  rw [Nat.ofDigitChars_append, Nat.ofDigitChars_replicate_zero]

end Text

/-- Only decimal digits. -/
def AllDigits (cs : List Char) : Prop := ∀ c ∈ cs, c.isDigit = true

theorem allDigits_toDigits (n : Nat) : AllDigits (Nat.toDigits 10 n) := fun _ hc =>
  Nat.isDigit_of_mem_toDigits (by decide) (by decide) hc

theorem AllDigits.append {xs ys : List Char} (hx : AllDigits xs) (hy : AllDigits ys) :
    AllDigits (xs ++ ys) := fun c hc => (List.mem_append.1 hc).elim (hx c) (hy c)

theorem allDigits_zeros (n : Nat) : AllDigits (List.replicate n '0') := fun _ hc =>
  (List.mem_replicate.1 hc).2 ▸ rfl

/-- A numeral is its significant digits with zeros behind them. -/
theorem exists_toDigits_eq_significant (n : Nat) :
    ∃ zeros, Nat.toDigits 10 n = DecimalStyle.significant n ++ List.replicate zeros '0' := by
  generalize hdigits : Nat.toDigits 10 n = digits
  have zeros : (digits.reverse.takeWhile (· == '0')).reverse =
      List.replicate (digits.reverse.takeWhile (· == '0')).length '0' := by
    refine List.eq_replicate_iff.2 ⟨List.length_reverse, fun c hc => ?_⟩
    rw [List.mem_reverse] at hc
    simpa using List.mem_takeWhile_imp hc
  refine ⟨(digits.reverse.takeWhile (· == '0')).length, ?_⟩
  rw [DecimalStyle.significant, hdigits, ← zeros, ← List.reverse_append,
    List.takeWhile_append_dropWhile, List.reverse_reverse]

/-! ## Reading -/

namespace Binary64

/-- The decimal that a text without a sign spells. -/
def spelt (cs : List Char) : Decimal :=
  let whole := cs.takeWhile Char.isDigit
  let rest := cs.dropWhile Char.isDigit
  let (fraction, rest) := match rest with
    | '.' :: more => (more.takeWhile Char.isDigit, more.dropWhile Char.isDigit)
    | other => ([], other)
  ⟨decimalValue (whole ++ fraction),
    ((parseExponent? (rest.drop 1)).getD 0) - fraction.length⟩

theorem takeWhile_digits {digits : List Char} {c : Char} (hdigits : AllDigits digits)
    (hc : c.isDigit = false) (rest : List Char) :
    (digits ++ c :: rest).takeWhile Char.isDigit = digits ∧
      (digits ++ c :: rest).dropWhile Char.isDigit = c :: rest := by
  rw [List.takeWhile_append_of_pos hdigits, List.dropWhile_append_of_pos hdigits,
    List.takeWhile_cons_of_neg (by simp [hc]), List.dropWhile_cons_of_neg (by simp [hc]),
    List.append_nil]
  exact ⟨rfl, rfl⟩

theorem spelt_point {whole fraction : List Char} (hwhole : AllDigits whole)
    (hfraction : AllDigits fraction) :
    spelt (whole ++ '.' :: fraction) = ⟨decimalValue (whole ++ fraction), -fraction.length⟩ := by
  obtain ⟨htake, hdrop⟩ := takeWhile_digits hwhole (rfl : '.'.isDigit = false) fraction
  have htake' : fraction.takeWhile Char.isDigit = fraction := List.takeWhile_eq_self_iff.2 hfraction
  have hdrop' : fraction.dropWhile Char.isDigit = [] := List.dropWhile_eq_nil_iff.2 hfraction
  rw [spelt, htake, hdrop]
  simp only [htake', hdrop']
  simp [parseExponent?]

theorem spelt_exponent {whole : List Char} (hwhole : AllDigits whole) (exponent : List Char) :
    spelt (whole ++ 'e' :: exponent) =
      ⟨decimalValue whole, (parseExponent? exponent).getD 0⟩ := by
  obtain ⟨htake, hdrop⟩ := takeWhile_digits hwhole (rfl : 'e'.isDigit = false) exponent
  rw [spelt, htake, hdrop]
  simp

theorem spelt_point_exponent {whole fraction : List Char} (hwhole : AllDigits whole)
    (hfraction : AllDigits fraction) (exponent : List Char) :
    spelt (whole ++ '.' :: (fraction ++ 'e' :: exponent)) =
      ⟨decimalValue (whole ++ fraction), (parseExponent? exponent).getD 0 - fraction.length⟩ := by
  obtain ⟨htake, hdrop⟩ :=
    takeWhile_digits hwhole (rfl : '.'.isDigit = false) (fraction ++ 'e' :: exponent)
  obtain ⟨htake', hdrop'⟩ := takeWhile_digits hfraction (rfl : 'e'.isDigit = false) exponent
  rw [spelt, htake, hdrop]
  simp only [htake', hdrop']
  simp

/-- An exponent is read as it is written. -/
theorem parseExponent?_toDigits (negative plus : Bool) (n : Nat) :
    parseExponent? ((if negative then ['-'] else if plus then ['+'] else []) ++
      Nat.toDigits 10 n) = some (if negative then -(n : Int) else n) := by
  have digits : (Nat.toDigits 10 n).all Char.isDigit = true :=
    List.all_eq_true.2 (allDigits_toDigits n)
  have filled : (Nat.toDigits 10 n).isEmpty = false := by simp
  have value := Text.decimalValue_toDigits n
  unfold parseExponent?
  cases negative with
  | true => simp [digits, value]
  | false =>
    cases plus with
    | true => simp [digits, value]
    | false =>
      simp only [Bool.false_eq_true, if_false, List.nil_append]
      generalize Nat.toDigits 10 n = cs at *
      split
      · simp at digits
      · simp at digits
      · simp [digits, filled, value]

/-! ## Layouts -/

/-- The number that digits after the point spell. -/
theorem value_positional {digits : List Char} (hdigits : AllDigits digits) (point : Int) :
    (spelt (DecimalStyle.positional digits point)).value =
      decimalValue digits * 10 ^ (point - digits.length) := by
  unfold DecimalStyle.positional
  split
  · rename_i before
    have zeros := allDigits_zeros (-point).toNat
    have zero : AllDigits ['0'] := allDigits_zeros 1
    have read := spelt_point zero (zeros.append hdigits)
    rw [List.singleton_append] at read
    rw [read, Decimal.value, List.singleton_append, Text.decimalValue_zero_cons,
      Text.decimalValue_zeros_append]
    congr 2
    simp
    omega
  · rename_i after
    dsimp only
    obtain short | long := le_or_gt digits.length point.toNat
    · have zeros := hdigits.append (allDigits_zeros (point.toNat - digits.length))
      have read := spelt_point zeros (allDigits_zeros 1)
      rw [List.take_of_length_le short, List.drop_of_length_le short]
      simp only [List.isEmpty_nil, if_true]
      rw [List.replicate_one] at read
      rw [read, Decimal.value, List.append_assoc, ← List.replicate_succ',
        Text.decimalValue_append_zeros]
      have exponent : point - digits.length = ((point.toNat - digits.length : Nat) : Int) := by
        omega
      rw [exponent, zpow_natCast, Nat.cast_mul, Nat.cast_pow]
      simp
      ring
    · have whole : AllDigits (digits.take point.toNat) :=
        fun c hc => hdigits c (List.mem_of_mem_take hc)
      have fraction : AllDigits (digits.drop point.toNat) :=
        fun c hc => hdigits c (List.mem_of_mem_drop hc)
      have filled : (digits.drop point.toNat).isEmpty = false := by
        simpa using long
      have none : point.toNat - digits.length = 0 := by omega
      rw [filled, none, List.replicate_zero, List.append_nil]
      simp only [Bool.false_eq_true, if_false]
      rw [spelt_point whole fraction, List.take_append_drop, Decimal.value]
      congr 2
      simp
      omega

/-- The number that digits with an exponent spell. -/
theorem value_scientific (style : DecimalStyle) {digits : List Char} (hdigits : AllDigits digits)
    (filled : digits ≠ []) (point : Int) :
    (spelt (style.scientific digits point)).value =
      decimalValue digits * 10 ^ (point - digits.length) := by
  have exponent := parseExponent?_toDigits (decide (point - 1 < 0)) style.plus (point - 1).natAbs
  simp only [decide_eq_true_eq] at exponent
  unfold DecimalStyle.scientific
  dsimp only
  generalize (if point - 1 < 0 then ['-'] else if style.plus then ['+'] else []) ++
    Nat.toDigits 10 (point - 1).natAbs = written at exponent ⊢
  have read : (parseExponent? written).getD 0 = point - 1 := by
    rw [exponent, Option.getD_some]
    omega
  cases digits with
  | nil => exact absurd rfl filled
  | cons d rest =>
    cases rest with
    | nil =>
      rw [spelt_exponent hdigits, read, Decimal.value]
      simp
    | cons d' rest =>
      have first : AllDigits [d] := fun c hc => hdigits c (by simp at hc; simp [hc])
      have others : AllDigits (d' :: rest) := fun c hc => hdigits c (List.mem_cons_of_mem _ hc)
      have whole := spelt_point_exponent first others written
      simp only [List.cons_append, List.nil_append] at whole ⊢
      rw [whole, read, Decimal.value]
      congr 2
      simp
      ring

/-- A text that begins with digits and goes on with a point or an exponent. -/
def LaidOut (cs : List Char) : Prop :=
  ∃ whole mark rest, cs = whole ++ mark :: rest ∧ AllDigits whole ∧ whole ≠ [] ∧
    (mark = '.' ∨ mark = 'e') ∧ ∀ c ∈ rest, c.isDigit = true ∨ c ∈ ['.', 'e', '+', '-']

theorem laidOut_positional {digits : List Char} (hdigits : AllDigits digits)
    (filled : digits ≠ []) (point : Int) : LaidOut (DecimalStyle.positional digits point) := by
  unfold DecimalStyle.positional
  split
  · have others := (allDigits_zeros (-point).toNat).append hdigits
    exact ⟨['0'], '.', _, rfl, allDigits_zeros 1, by simp, .inl rfl,
      fun c hc => .inl (others c hc)⟩
  · rename_i after
    refine ⟨_, '.', _, rfl, ?_, ?_, .inl rfl, fun c hc => .inl ?_⟩
    · exact AllDigits.append (fun c hc => hdigits c (List.mem_of_mem_take hc)) (allDigits_zeros _)
    · simp [List.take_eq_nil_iff, filled]
      omega
    · split at hc
      · exact allDigits_zeros 1 c hc
      · exact hdigits c (List.mem_of_mem_drop hc)

theorem laidOut_scientific (style : DecimalStyle) {digits : List Char} (hdigits : AllDigits digits)
    (filled : digits ≠ []) (point : Int) : LaidOut (style.scientific digits point) := by
  have written : ∀ c ∈ (if point - 1 < 0 then ['-'] else if style.plus then ['+'] else []) ++
      Nat.toDigits 10 (point - 1).natAbs, c.isDigit = true ∨ c ∈ ['.', 'e', '+', '-'] := by
    intro c hc
    obtain hsign | hdigit := List.mem_append.1 hc
    · split at hsign
      · exact .inr (by simp_all)
      · split at hsign <;> simp_all
    · exact .inl (allDigits_toDigits _ c hdigit)
  unfold DecimalStyle.scientific
  dsimp only
  generalize (if point - 1 < 0 then ['-'] else if style.plus then ['+'] else []) ++
    Nat.toDigits 10 (point - 1).natAbs = exponent at written ⊢
  match digits, filled with
  | [d], _ => exact ⟨[d], 'e', exponent, rfl, hdigits, by simp, .inr rfl, written⟩
  | d :: d' :: rest, _ =>
    refine ⟨[d], '.', d' :: rest ++ 'e' :: exponent, rfl, ?_, by simp, .inl rfl, fun c hc => ?_⟩
    · exact fun c hc => hdigits c (by simp at hc; simp [hc])
    · obtain hfraction | hc := List.mem_append.1 hc
      · exact .inl (hdigits c (List.mem_cons_of_mem _ hfraction))
      · obtain rfl | hc := List.mem_cons.1 hc
        · exact .inr (by simp)
        · exact written c hc

/-! ## Texts -/

/-- The significant digits of a decimal, at the place of its point, spell the same number. -/
theorem value_significant {d : Decimal} (pos : d.digits ≠ 0) :
    AllDigits (DecimalStyle.significant d.digits) ∧ DecimalStyle.significant d.digits ≠ [] ∧
      (decimalValue (DecimalStyle.significant d.digits) : ℚ) *
        10 ^ (((Nat.toDigits 10 d.digits).length + d.exponent : Int) -
          (DecimalStyle.significant d.digits).length) = d.value := by
  obtain ⟨zeros, whole⟩ := exists_toDigits_eq_significant d.digits
  have value := Text.decimalValue_toDigits d.digits
  have digits := allDigits_toDigits d.digits
  rw [whole] at digits ⊢
  rw [whole, Text.decimalValue_append_zeros] at value
  refine ⟨fun c hc => digits c (List.mem_append_left _ hc), ?_, ?_⟩
  · intro none
    rw [none] at value
    exact pos value.symm
  · generalize DecimalStyle.significant d.digits = significant at value ⊢
    have exponent : ((significant ++ List.replicate zeros '0').length + d.exponent : Int) -
        significant.length = zeros + d.exponent := by
      simp
      ring
    rw [exponent, zpow_add₀ (by norm_num), zpow_natCast, ← mul_assoc, mul_comm (_ : ℚ) (10 ^ zeros),
      Decimal.value]
    congr 1
    exact_mod_cast value

theorem contains_zero {x : Binary64} (zero : x.magnitude = 0) : x.rounding.Contains 0 := by
  rw [rounding_eq, zero]
  change (_ : ℚ) ≤ _ ∧ _
  rw [zero_mul]
  exact ⟨le_of_eq Nat.cast_zero, Nat.cast_nonneg _⟩

/-- The text of a finite double is a sign and a text of a number that rounds to the double. -/
theorem exists_render_eq (style : DecimalStyle) {x : Binary64} (finite : x.isFinite = true) :
    ∃ body, style.render x = (if x.negative then ['-'] else []) ++ body ∧ LaidOut body ∧
      x.rounding.Contains (spelt body).value := by
  have bounded : x.magnitude < infinite := of_decide_eq_true finite
  have number : x.isNaN = false := decide_eq_false (Nat.lt_asymm bounded)
  have proper : x.isInfinite = false := beq_eq_false_iff_ne.2 (Nat.ne_of_lt bounded)
  unfold DecimalStyle.render
  simp only [number, proper, Bool.false_eq_true, if_false]
  split
  · rename_i zero
    have zero : x.magnitude = 0 := beq_iff_eq.1 zero
    refine ⟨_, rfl, ⟨['0'], '.', ['0'], rfl, allDigits_zeros 1, by simp, .inl rfl, ?_⟩, ?_⟩
    · exact fun c hc => .inl (allDigits_zeros 1 c hc)
    · have nothing : (spelt ['0', '.', '0']).value = 0 := by
        have read := spelt_point (allDigits_zeros 1) (allDigits_zeros 1)
        rw [List.replicate_one, List.singleton_append] at read
        rw [read, Decimal.value]
        exact zero_mul _
      exact nothing ▸ contains_zero zero
  · rename_i positive
    have positive : 0 < x.magnitude := Nat.pos_of_ne_zero fun zero => positive (beq_iff_eq.2 zero)
    obtain ⟨digits_ne_zero, contains⟩ := contains_shortest positive
    obtain ⟨hdigits, filled, value⟩ := value_significant digits_ne_zero
    refine ⟨_, rfl, ?_⟩
    split
    · refine ⟨laidOut_positional hdigits filled _, ?_⟩
      rwa [value_positional hdigits, value]
    · refine ⟨laidOut_scientific style hdigits filled _, ?_⟩
      rwa [value_scientific style hdigits filled, value]

theorem LaidOut.head {cs : List Char} (h : LaidOut cs) :
    ∃ c rest, cs = c :: rest ∧ c.isDigit = true := by
  obtain ⟨whole, mark, rest, rfl, hdigits, filled, -⟩ := h
  obtain ⟨c, whole, rfl⟩ := List.exists_cons_of_ne_nil filled
  exact ⟨c, whole ++ mark :: rest, rfl, hdigits c List.mem_cons_self⟩

/-- A sign can be told from what follows it. -/
theorem eq_of_signed_eq {negative negative' : Bool} {xs ys : List Char}
    (hx : ∃ c rest, xs = c :: rest ∧ c.isDigit = true)
    (hy : ∃ c rest, ys = c :: rest ∧ c.isDigit = true)
    (same : (if negative then ['-'] else []) ++ xs = (if negative' then ['-'] else []) ++ ys) :
    negative = negative' ∧ xs = ys := by
  obtain ⟨c, xs, rfl, hc⟩ := hx
  obtain ⟨d, ys, rfl, hd⟩ := hy
  cases negative <;> cases negative' <;> simp at same ⊢
  · exact same
  · rw [same.1] at hc
    cases hc
  · rw [← same.1] at hd
    cases hd
  · exact same

/-- Doubles with one text are equal. -/
theorem eq_of_render_eq {style : DecimalStyle} {x y : Binary64} (hx : x.isFinite = true)
    (hy : y.isFinite = true) (same : style.render x = style.render y) : x = y := by
  obtain ⟨xs, hxs, xs_laidOut, xs_contains⟩ := exists_render_eq style hx
  obtain ⟨ys, hys, ys_laidOut, ys_contains⟩ := exists_render_eq style hy
  rw [hxs, hys] at same
  obtain ⟨sign_eq, rfl⟩ := eq_of_signed_eq xs_laidOut.head ys_laidOut.head same
  have magnitude_eq := magnitude_eq_of_contains xs_contains ys_contains
  obtain ⟨negative, magnitude, bound⟩ := x
  obtain ⟨negative', magnitude', bound'⟩ := y
  cases sign_eq
  cases magnitude_eq
  rfl

end Binary64

end FeatureFlags
