import FeatureFlags.Proofs.Binary64.DecimalText
import FeatureFlags.Proofs.Outcomes
import FeatureFlags.Timestamp

/-!
# Timestamps written and read again

Every timestamp is read back from its text (`Timestamp.parse_text`). The numbers of the text are
padded with zeros, so where one of them ends does not depend on what it is; only a year outside of
the four digits has a sign, behind which any number of digits may stand.
-/

namespace FeatureFlags.Timestamp

open Outcome

/-! ## Padded numbers -/

theorem allDigits_padded (width n : Nat) : AllDigits (padded width n) :=
  (allDigits_zeros _).append (allDigits_toDigits n)

theorem decimalValue_padded (width n : Nat) : Text.decimalValue (padded width n) = n := by
  rw [padded, Text.decimalValue_zeros_append, Text.decimalValue_toDigits]

/-- A number that fits fills exactly its places. -/
theorem length_padded {width n : Nat} (pos : 0 < width) (fits : n < 10 ^ width) :
    (padded width n).length = width := by
  have short := (Nat.length_toDigits_le_iff (by decide) pos).2 fits
  simp [padded]
  omega

/-- A padded number begins with a digit. -/
theorem exists_padded_eq (width n : Nat) :
    ∃ c cs, padded width n = c :: cs ∧ c.isDigit = true := by
  have nonempty : padded width n ≠ [] := by simp [padded, Nat.toDigits_ne_nil]
  obtain ⟨c, cs, filled⟩ := List.exists_cons_of_ne_nil nonempty
  exact ⟨c, cs, filled, allDigits_padded width n c (filled ▸ List.mem_cons_self)⟩

theorem trimStart_cons {c : Char} (visible : Text.isBlank c = false) (rest : List Char) :
    Text.trimStart (c :: rest) = c :: rest := by
  simp [Text.trimStart, visible]

theorem isBlank_digit {c : Char} (digit : c.isDigit = true) : Text.isBlank c = false := by
  simp only [Char.isDigit, Bool.and_eq_true, decide_eq_true_eq] at digit
  change 48 ≤ c.toNat ∧ c.toNat ≤ 57 at digit
  simp [Text.isBlank]
  omega

theorem trimStart_padded (width n : Nat) (rest : List Char) :
    Text.trimStart (padded width n ++ rest) = padded width n ++ rest := by
  obtain ⟨c, cs, filled, digit⟩ := exists_padded_eq width n
  rw [filled, List.cons_append, trimStart_cons (isBlank_digit digit)]

/-- The digits of a padded number are read up to another character, if there are no more of them
than may be read. -/
theorem parseDigits_padded {width n : Nat} {most : Option Nat}
    (room : ∀ m ∈ most, (padded width n).length ≤ m) {c : Char} (other : c.isDigit = false)
    (rest : List Char) :
    parseDigits most (padded width n ++ c :: rest) = .ok (padded width n, c :: rest) := by
  have taken := (Binary64.takeWhile_digits (allDigits_padded width n) other rest).1
  obtain ⟨d, ds, filled, -⟩ := exists_padded_eq width n
  have dropped : (padded width n ++ c :: rest).drop (padded width n).length = c :: rest :=
    List.drop_left
  have kept {m : Nat} (hm : most = some m) : (padded width n).take m = padded width n :=
    List.take_of_length_le (room m hm)
  rw [filled, List.cons_append] at taken dropped ⊢
  rw [filled] at kept
  cases most with
  | none => simp only [parseDigits, taken, dropped]
  | some m => simp only [parseDigits, taken, kept rfl, dropped]

theorem parseField_padded {least greatest n : Nat} (lower : least ≤ n) (upper : n ≤ greatest)
    (fits : n < 100) {c : Char} (other : c.isDigit = false) (rest : List Char) :
    parseField least greatest (padded 2 n ++ c :: rest) = .ok (n, c :: rest) := by
  have room : ∀ m ∈ some 2, (padded 2 n).length ≤ m := by
    rintro m ⟨⟩
    exact (length_padded (by decide) fits).le
  rw [parseField, trimStart_padded, parseDigits_padded room other]
  simp [decimalValue_padded, lower, upper, bind, Except.bind, pure, Except.pure]

theorem parseMark_cons {mark : Char} (visible : Text.isBlank mark = false) (rest : List Char) :
    parseMark mark (mark :: rest) = .ok rest := by
  simp [parseMark, trimStart_cons visible]

/-! ## The parts of a text -/

theorem parseYear_render {year : Int} (lower : -262143 ≤ year) (upper : year ≤ 262142) {c : Char}
    (other : c.isDigit = false) (rest : List Char) :
    parseYear (renderYear year ++ c :: rest) = .ok (year, c :: rest) := by
  have size : year.natAbs < 0x80000000 := by omega
  unfold renderYear
  split
  · rename_i four
    have room : ∀ m ∈ some 4, (padded 4 year.toNat).length ≤ m := by
      rintro m ⟨⟩
      exact (length_padded (by decide) (by omega)).le
    obtain ⟨d, ds, filled, digit⟩ := exists_padded_eq 4 year.toNat
    have digits := parseDigits_padded room other rest
    have value := decimalValue_padded 4 year.toNat
    have noMinus : d ≠ '-' := by
      rintro rfl
      cases digit
    have noPlus : d ≠ '+' := by
      rintro rfl
      cases digit
    unfold parseYear
    rw [trimStart_padded]
    rw [filled, List.cons_append] at digits ⊢
    rw [filled] at value
    simp [noMinus, noPlus, digits, value, bind, Except.bind, pure, Except.pure]
    rw [if_pos (by omega), max_eq_left four.1]
  · have room : ∀ m ∈ (none : Option Nat), (padded 4 year.natAbs).length ≤ m := by simp
    have digits := parseDigits_padded room other rest
    have value := decimalValue_padded 4 year.natAbs
    unfold parseYear
    by_cases negative : year < 0
    · rw [if_pos negative, List.cons_append, trimStart_cons rfl]
      simp [digits, value, bind, Except.bind, pure, Except.pure]
      rw [abs_of_neg negative, if_pos (by omega), neg_neg]
    · rw [if_neg negative, List.cons_append, trimStart_cons rfl]
      simp [digits, value, bind, Except.bind, pure, Except.pure]
      rw [abs_of_nonneg (Int.not_lt.1 negative), if_pos (by omega)]

theorem parseFraction_padded {width n : Nat} (pos : 0 < width) (short : width ≤ 9)
    (fits : n < 10 ^ width) {c : Char} (other : c.isDigit = false) (rest : List Char) :
    parseFraction ('.' :: (padded width n ++ c :: rest)) =
      .ok (n * 10 ^ (9 - width), c :: rest) := by
  have length := length_padded pos fits
  have room : ∀ m ∈ some 9, (padded width n).length ≤ m := by
    rintro m ⟨⟩
    exact length.trans_le short
  refine bind_eq_ok.2 ⟨_, parseDigits_padded room other rest, ?_⟩
  simp [decimalValue_padded, length, other, pure, Except.pure]

theorem parseFraction_render {nanosecond : Nat} (fits : nanosecond < 1000000000) {c : Char}
    (other : c.isDigit = false) (noPoint : c ≠ '.') (rest : List Char) :
    parseFraction (renderFraction nanosecond ++ c :: rest) = .ok (nanosecond, c :: rest) := by
  unfold renderFraction
  split
  · rename_i zero
    rw [List.nil_append, parseFraction]
    · rw [zero]
    · simpa using noPoint
  split
  · rw [List.cons_append, parseFraction_padded (by decide) (by decide) (by omega) other]
    congr 2
    omega
  split
  · rw [List.cons_append, parseFraction_padded (by decide) (by decide) (by omega) other]
    congr 2
    omega
  · rw [List.cons_append, parseFraction_padded (by decide) (by decide) (by omega) other]
    congr 2
    omega

theorem ofLocal_universal (t : Timestamp) :
    ofLocal t.date t.hour t.minute t.second t.nanosecond 0 = .ok t := by
  simp [ofLocal, t.date_valid, t.hour_lt, t.minute_lt, t.second_le, t.nanosecond_lt]

/-- Behind a second stands its fraction or the letter of universal time. -/
theorem parseSecond_render {second : Nat} (upper : second ≤ 60) (nanosecond : Nat) :
    parseField 0 60 (padded 2 second ++ (renderFraction nanosecond ++ ['Z'])) =
      .ok (second, renderFraction nanosecond ++ ['Z']) := by
  obtain ⟨c, rest, behind, other⟩ : ∃ c rest, renderFraction nanosecond ++ ['Z'] = c :: rest ∧
      c.isDigit = false := by
    unfold renderFraction
    repeat' split
    all_goals exact ⟨_, _, rfl, rfl⟩
  rw [behind]
  exact parseField_padded (Nat.zero_le _) upper (by omega) other rest

theorem daysInMonth_le (year : Int) (month : Nat) : CalendarDay.daysInMonth year month ≤ 31 := by
  unfold CalendarDay.daysInMonth
  repeat' split
  all_goals decide

/-- A timestamp is read back from its characters. -/
theorem parseChars_render (t : Timestamp) : parseChars t.render = .ok t := by
  obtain ⟨yearLower, yearUpper, monthLower, monthUpper, dayLower, dayUpper⟩ := t.date_valid
  have dayUpper := dayUpper.trans (daysInMonth_le _ _)
  have hour := Nat.le_of_lt_succ t.hour_lt
  have minute := Nat.le_of_lt_succ t.minute_lt
  have second := t.second_le
  refine bind_eq_ok.2 ⟨_, parseYear_render yearLower yearUpper rfl _, ?_⟩
  refine bind_eq_ok.2 ⟨_, parseMark_cons rfl _, ?_⟩
  refine bind_eq_ok.2 ⟨_, parseField_padded monthLower monthUpper (by omega) rfl _, ?_⟩
  refine bind_eq_ok.2 ⟨_, parseMark_cons rfl _, ?_⟩
  refine bind_eq_ok.2 ⟨_, parseField_padded dayLower dayUpper (by omega) rfl _, ?_⟩
  refine bind_eq_ok.2 ⟨_, rfl, ?_⟩
  refine bind_eq_ok.2 ⟨_, parseField_padded (Nat.zero_le _) hour (by omega) rfl _, ?_⟩
  refine bind_eq_ok.2 ⟨_, parseMark_cons rfl _, ?_⟩
  refine bind_eq_ok.2 ⟨_, parseField_padded (Nat.zero_le _) minute (by omega) rfl _, ?_⟩
  refine bind_eq_ok.2 ⟨_, parseMark_cons rfl _, ?_⟩
  refine bind_eq_ok.2 ⟨_, parseSecond_render second t.nanosecond, ?_⟩
  refine bind_eq_ok.2 ⟨_, parseFraction_render t.nanosecond_lt rfl (by decide) [], ?_⟩
  dsimp only
  rw [if_neg (by decide)]
  refine bind_eq_ok.2 ⟨(0, []), rfl, ?_⟩
  have inRange : ¬(¬t.date.Valid ∨ 1440 ≤ (0 : Int).natAbs) := by simp [t.date_valid]
  dsimp only
  rw [if_neg (by decide), if_neg inRange]
  exact ofLocal_universal t

/-- A timestamp is read back from its text. -/
theorem parse_text (t : Timestamp) : parse t.text = .ok t := by
  rw [parse, text, String.toList_ofList, parseChars_render]

end FeatureFlags.Timestamp
