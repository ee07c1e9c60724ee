import FeatureFlags.Flag.Snapshot

/-!
# Equality up to the sign of zero

The equality of configurations treats both zeros alike. `unsigned` forgets the sign of zero
throughout a tree, a value, a flag or metadata, and two of them are equal in that sense exactly if
they are the same without it (`same_iff`). So everything that holds of equality holds of `same`, and
what does not depend on the sign of a zero is a function of the unsigned form.
-/

namespace FeatureFlags

/-! ## Numbers -/

namespace Double

/-- The number without the sign of a zero. -/
def unsigned (x : Double) : Double := if x.value.isZero then zero else x

theorem unsigned_of_isZero {x : Double} (h : x.value.isZero = true) : x.unsigned = zero := by
  unfold unsigned
  rw [if_pos h]

theorem unsigned_of_not_isZero {x : Double} (h : x.value.isZero = false) : x.unsigned = x := by
  unfold unsigned
  rw [h]
  rfl

end Double

namespace Binary64

theorem ordinal_eq_zero_iff (x : Binary64) : x.ordinal = 0 ↔ x.isZero = true := by
  simp only [ordinal, isZero, beq_iff_eq]
  split <;> omega

/-- Apart from the zeros, a number is determined by its place in the order. -/
theorem eq_of_ordinal {x y : Binary64} (h : x.ordinal = y.ordinal) (hx : x.isZero = false) :
    x = y := by
  obtain ⟨nx, mx, hmx⟩ := x
  obtain ⟨ny, my, hmy⟩ := y
  simp only [ordinal, isZero, beq_eq_false_iff_ne] at h hx
  have hm : mx = my := by split at h <;> split at h <;> omega
  have hn : nx = ny := by
    cases nx <;> cases ny
    · rfl
    · simp only [if_true, Bool.false_eq_true, if_false] at h
      omega
    · simp only [if_true, Bool.false_eq_true, if_false] at h
      omega
    · rfl
  cases hm
  cases hn
  rfl

end Binary64

namespace Double

@[simp] theorem unsigned_unsigned (x : Double) : x.unsigned.unsigned = x.unsigned := by
  cases h : x.value.isZero with
  | false => rw [unsigned_of_not_isZero h, unsigned_of_not_isZero h]
  | true =>
    rw [unsigned_of_isZero h]
    rfl

theorem ordinal_unsigned (x : Double) : x.unsigned.value.ordinal = x.value.ordinal := by
  cases h : x.value.isZero with
  | false => rw [unsigned_of_not_isZero h]
  | true => rw [unsigned_of_isZero h, (x.value.ordinal_eq_zero_iff).2 h]; rfl

theorem same_iff (x y : Double) : x.same y = true ↔ x.unsigned = y.unsigned := by
  unfold same
  rw [beq_iff_eq]
  constructor
  · intro h
    cases hx : x.value.isZero with
    | true =>
      have hy := (y.value.ordinal_eq_zero_iff).1 (h ▸ (x.value.ordinal_eq_zero_iff).2 hx)
      rw [unsigned_of_isZero hx, unsigned_of_isZero hy]
    | false =>
      obtain ⟨vx, fx⟩ := x
      obtain ⟨vy, fy⟩ := y
      cases Binary64.eq_of_ordinal h hx
      rfl
  · intro h
    rw [← ordinal_unsigned x, ← ordinal_unsigned y, h]

theorem isNaN_eq_false (x : Double) : x.value.isNaN = false := by
  have finite := x.finite
  simp only [Binary64.isFinite, decide_eq_true_eq] at finite
  simp only [Binary64.isNaN, decide_eq_false_iff_not]
  omega

/-- Doubles compare as their places in the order. -/
theorem compare?_eq (x y : Double) :
    x.value.compare? y.value = some (compare x.value.ordinal y.value.ordinal) := by
  simp only [Binary64.compare?, isNaN_eq_false, Bool.or_self, Bool.false_eq_true, if_false]

/-- The order does not look at the sign of a zero. -/
theorem compare?_unsigned (x y : Double) :
    x.value.compare? y.unsigned.value = x.value.compare? y.value := by
  rw [compare?_eq, compare?_eq, ordinal_unsigned]

end Double

namespace Json.Number

/-- The number without the sign of a zero. -/
def unsigned : Number → Number
  | integer n h => integer n h
  | double x => double x.unsigned

@[simp] theorem unsigned_unsigned (n : Number) : n.unsigned.unsigned = n.unsigned := by
  cases n <;> simp [unsigned]

theorem same_iff (m n : Number) : m.same n = true ↔ m.unsigned = n.unsigned := by
  cases m <;> cases n <;> simp [same, unsigned, Double.same_iff]

end Json.Number

/-! ## Trees -/

namespace Json

mutual

/-- The tree without the signs of zeros. -/
def unsigned : Json → Json
  | .number n => .number n.unsigned
  | .array xs => .array (unsignedItems xs)
  | .object xs => .object (unsignedMembers xs)
  | x => x
termination_by structural x => x

/-- The items without the signs of zeros. -/
def unsignedItems : List Json → List Json
  | [] => []
  | x :: xs => unsigned x :: unsignedItems xs
termination_by structural xs => xs

/-- The members without the signs of zeros. -/
def unsignedMembers : List (String × Json) → List (String × Json)
  | [] => []
  | (k, x) :: xs => (k, unsigned x) :: unsignedMembers xs
termination_by structural xs => xs

end

theorem unsignedItems_eq_map (xs : List Json) : unsignedItems xs = xs.map unsigned := by
  induction xs with
  | nil => rfl
  | cons x xs ih => simp only [unsignedItems, List.map_cons, ih]

theorem unsignedMembers_eq_mapValues (xs : Entries Json) :
    unsignedMembers xs = xs.mapValues unsigned := by
  induction xs with
  | nil => rfl
  | cons e xs ih =>
    obtain ⟨k, x⟩ := e
    simp only [unsignedMembers, ih, Entries.mapValues, List.map_cons]

mutual

theorem same_iff : ∀ x y : Json, same x y = true ↔ unsigned x = unsigned y
  | .null, y => by cases y <;> simp [same, unsigned]
  | .bool a, y => by cases y <;> simp [same, unsigned]
  | .number m, y => by cases y <;> simp [same, unsigned, Number.same_iff]
  | .string s, y => by cases y <;> simp [same, unsigned]
  | .array xs, y => by cases y <;> simp [same, unsigned, sameItems_iff xs]
  | .object xs, y => by cases y <;> simp [same, unsigned, sameMembers_iff xs]

theorem sameItems_iff : ∀ xs ys : List Json,
    sameItems xs ys = true ↔ unsignedItems xs = unsignedItems ys
  | [], ys => by cases ys <;> simp [sameItems, unsignedItems]
  | x :: xs, ys => by
    cases ys <;> simp [sameItems, unsignedItems, same_iff x, sameItems_iff xs]

theorem sameMembers_iff : ∀ xs ys : List (String × Json),
    sameMembers xs ys = true ↔ unsignedMembers xs = unsignedMembers ys
  | [], ys => by cases ys <;> simp [sameMembers, unsignedMembers]
  | (k, x) :: xs, ys => by
    cases ys <;> simp [sameMembers, unsignedMembers, same_iff x, sameMembers_iff xs, and_assoc]

end

mutual

@[simp] theorem unsigned_unsigned : ∀ x : Json, x.unsigned.unsigned = x.unsigned
  | .null => rfl
  | .bool b => rfl
  | .number n => by simp [unsigned]
  | .string s => rfl
  | .array xs => by simp [unsigned, unsignedItems_unsignedItems xs]
  | .object xs => by simp [unsigned, unsignedMembers_unsignedMembers xs]

theorem unsignedItems_unsignedItems : ∀ xs : List Json,
    unsignedItems (unsignedItems xs) = unsignedItems xs
  | [] => rfl
  | x :: xs => by simp [unsignedItems, unsigned_unsigned x, unsignedItems_unsignedItems xs]

theorem unsignedMembers_unsignedMembers : ∀ xs : List (String × Json),
    unsignedMembers (unsignedMembers xs) = unsignedMembers xs
  | [] => rfl
  | (k, x) :: xs => by
    simp [unsignedMembers, unsigned_unsigned x, unsignedMembers_unsignedMembers xs]

end

theorem same_unsigned_right (x y : Json) : x.same y.unsigned = x.same y := by
  rw [Bool.eq_iff_iff, same_iff, same_iff, unsigned_unsigned]

theorem same_unsigned_left (x y : Json) : x.unsigned.same y = x.same y := by
  rw [Bool.eq_iff_iff, same_iff, same_iff, unsigned_unsigned]

end Json

end FeatureFlags
