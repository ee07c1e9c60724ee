import FeatureFlags.Proofs.Json.Reading
import FeatureFlags.Proofs.Json.Rendering
import FeatureFlags.Proofs.Json.Views
import Mathlib.Data.List.TakeDrop

/-!
# Texts read back

A tree without doubles is read back from its text. The scanner finds the tree wherever its text
stands in a document (`scanValue_render`), so the text is a document of the tree with nothing behind
it (`Document.ofText_text`). If the tree is not nested deeper than a text may be, it is parsed into
the tree with its members in order (`parse_text`).
-/

namespace FeatureFlags.Json

/-! ## What a value ends at -/

/-- A text that begins with none of a value's characters: the end, or what separates or closes. -/
def EndsValue (rest : List Char) : Prop := ∀ c ∈ rest.head?, c = ',' ∨ c = ']' ∨ c = '\x7d'

theorem endsValue_nil : EndsValue [] := fun _ hc => by cases hc

theorem endsValue_items (xs : List Json) (rest : List Char) :
    EndsValue (renderItems xs ++ ']' :: rest) := by
  cases xs <;> intro c hc <;> cases hc <;> simp

theorem endsValue_members (ms : List (String × Json)) (rest : List Char) :
    EndsValue (renderMembers ms ++ '\x7d' :: rest) := by
  cases ms <;> intro c hc <;> cases hc <;> simp

/-! ## Integers -/

/-- The digits of a positive number have no zero in front. -/
theorem head_toDigits_ne_zero {n : Nat} (pos : n ≠ 0) : (Nat.toDigits 10 n).head? ≠ some '0' := by
  induction n using Nat.strongRecOn with
  | ind n ih =>
    by_cases small : n < 10
    · simpa [Nat.toDigits_of_lt_base small] using pos
    · obtain ⟨c, rest, filled, -⟩ := Number.head_toDigits (n / 10)
      have head := ih (n / 10) (by omega) (by omega)
      rw [filled] at head
      rw [Nat.toDigits_of_base_le (by decide) (Nat.not_lt.1 small), filled]
      exact head

theorem scanDigits_append {digits rest : List Char} (allDigits : AllDigits digits)
    (ends : EndsValue rest) : scanDigits (digits ++ rest) = (digits, rest) := by
  rw [scanDigits, List.span_eq_takeWhile_dropWhile, List.takeWhile_append_of_pos allDigits,
    List.dropWhile_append_of_pos allDigits]
  cases rest with
  | nil => simp
  | cons c rest =>
    have other : ¬ c.isDigit = true := by
      obtain rfl | rfl | rfl := ends c rfl <;> decide
    rw [List.takeWhile_cons_of_neg other, List.dropWhile_cons_of_neg other, List.append_nil]

/-- Digits with a sign name the integer that they are the digits of. -/
theorem toNumber?_integer {negative : Bool} {size : Nat} {n : Int} (inRange : InRange n)
    (value : n = if negative then -(size : Int) else size) (signed : negative = true → size ≠ 0) :
    (Numeral.mk negative (Nat.toDigits 10 size) none none).toNumber? =
      some (.integer n inRange) := by
  have unsigned : (negative && size == 0) = false := by
    cases negative <;> simp_all
  subst value
  simp [Numeral.toNumber?, Text.decimalValue_toDigits, inRange, unsigned]

/-- The digits of an integer are read up to where the value ends. -/
theorem scanNumeral_toDigits {negative : Bool} {size : Nat} {n : Int} (inRange : InRange n)
    (value : n = if negative then -(size : Int) else size) (signed : negative = true → size ≠ 0)
    {rest : List Char} (ends : EndsValue rest) :
    scanNumeral negative (Nat.toDigits 10 size ++ rest) = (.ok (.integer n inRange), rest) := by
  obtain ⟨c, more, filled, -⟩ := Number.head_toDigits size
  have noZero : ¬((Nat.toDigits 10 size).length ≠ 1 ∧ (Nat.toDigits 10 size).head? = some '0') := by
    rintro ⟨several, zero⟩
    by_cases pos : size = 0
    · exact several (by rw [pos, Nat.toDigits_zero]; rfl)
    · exact head_toDigits_ne_zero pos zero
  have scanned := scanDigits_append (allDigits_toDigits size) ends
  have number := toNumber?_integer inRange value signed
  rw [filled] at scanned noZero number
  rw [filled, scanNumeral, scanned]
  dsimp only
  rw [if_neg noZero]
  cases rest with
  | nil => simp [scanExponent, number]
  | cons d rest =>
    obtain rfl | rfl | rfl := ends d rfl <;> simp [scanExponent, number]

/-! ## Trees without doubles -/

mutual

/-- A tree whose numbers are integers. -/
def IsWhole : Json → Prop
  | .number (.double _) => False
  | .array xs => WholeItems xs
  | .object ms => WholeMembers ms
  | _ => True

/-- Items whose numbers are integers. -/
def WholeItems : List Json → Prop
  | [] => True
  | x :: xs => IsWhole x ∧ WholeItems xs

/-- Members whose numbers are integers. -/
def WholeMembers : List (String × Json) → Prop
  | [] => True
  | (_, x) :: ms => IsWhole x ∧ WholeMembers ms

end

theorem skipBlanks_cons {c : Char} (visible : isBlank c = false) (rest : List Char) :
    skipBlanks (c :: rest) = c :: rest := by
  simp [skipBlanks, visible]

/-- The first character of a value is no blank and no closing bracket. -/
theorem head_render {x : Json} {c : Char} {cs : List Char} (written : render x = c :: cs) :
    isBlank c = false ∧ c ≠ ']' := by
  obtain ⟨d, ds, hd, form⟩ := exists_render_eq x
  obtain ⟨rfl, -⟩ := List.cons.inj (written.symm.trans hd)
  have told (blank : formOf c = 6) : False := by
    rw [blank] at form
    cases x <;> cases form
  refine ⟨Bool.eq_false_iff.2 fun hblank => told ?_, fun hclose => told (by rw [hclose]; rfl)⟩
  simp only [isBlank, Bool.or_eq_true, beq_iff_eq] at hblank
  obtain ((rfl | rfl) | rfl) | rfl := hblank <;> rfl

theorem scanValue_scalar {c : Char} {rest : List Char} (fuel : Nat) (visible : isBlank c = false)
    (noArray : c ≠ '[') (noObject : c ≠ '\x7b') :
    scanValue (fuel + 1) (c :: rest) = scanScalar c rest := by
  simp [scanValue, skipBlanks_cons visible, noArray, noObject]

theorem scanValue_integer (fuel : Nat) {n : Int} (inRange : InRange n) {rest : List Char}
    (ends : EndsValue rest) :
    scanValue (fuel + 1) (Number.renderInt n ++ rest) =
      (.number (.ok (.integer n inRange)), rest) := by
  by_cases negative : n < 0
  · have value : n = if true = true then -(n.natAbs : Int) else n.natAbs := by
      rw [if_pos rfl]
      omega
    have scanned := scanNumeral_toDigits inRange value (by omega) ends
    simp only [Number.renderInt_eq, negative, decide_true, if_true, List.cons_append,
      List.nil_append]
    rw [scanValue_scalar fuel rfl (by decide) (by decide)]
    simp [scanScalar, scanned]
  · have value : n = if false = true then -(n.natAbs : Int) else n.natAbs := by
      rw [if_neg (by decide)]
      omega
    have scanned := scanNumeral_toDigits inRange value (by simp) ends
    obtain ⟨c, more, filled, digit⟩ := Number.head_toDigits n.natAbs
    have written : Number.renderInt n = c :: more := by
      simp [Number.renderInt_eq, negative, filled]
    have visible := (head_render (x := .number (.integer n inRange)) written).1
    have other {d : Char} (noDigit : d.isDigit = false) : c ≠ d := by
      rintro rfl
      exact absurd digit (by simp [noDigit])
    rw [filled, List.cons_append] at scanned
    rw [written, List.cons_append, scanValue_scalar fuel visible (other rfl) (other rfl)]
    simp [scanScalar, other (d := '"') rfl, other (d := '-') rfl, digit, scanned]

theorem scanValue_array {d : Char} (fuel : Nat) (visible : isBlank d = false) (more : d ≠ ']')
    (behind : List Char) : scanValue (fuel + 1) ('[' :: d :: behind) =
      (.array (scanItems fuel (d :: behind)).1 (scanItems fuel (d :: behind)).2.1,
        (scanItems fuel (d :: behind)).2.2) := by
  simp [scanValue, skipBlanks_cons (show isBlank '[' = false from rfl), skipBlanks_cons visible,
    more]

theorem scanValue_object (fuel : Nat) (behind : List Char) :
    scanValue (fuel + 1) ('\x7b' :: '"' :: behind) =
      (.object (scanMembers fuel ('"' :: behind)).1 (scanMembers fuel ('"' :: behind)).2.1,
        (scanMembers fuel ('"' :: behind)).2.2) := by
  simp [scanValue, skipBlanks_cons (show isBlank '\x7b' = false from rfl),
    skipBlanks_cons (show isBlank '"' = false from rfl)]

mutual

/-- Wherever the text of a tree stands, the tree is found there. -/
theorem scanValue_render (x : Json) (fuel : Nat) {rest : List Char} (whole : x.IsWhole)
    (ends : EndsValue rest) (enough : 2 * (render x).length ≤ fuel) :
    scanValue fuel (render x ++ rest) = (.ofJson x, rest) := by
  obtain ⟨c, cs, written, -⟩ := exists_render_eq x
  obtain ⟨fuel, rfl⟩ : ∃ less, fuel = less + 1 :=
    Nat.exists_eq_succ_of_ne_zero (by rw [written, List.length_cons] at enough; omega)
  match x with
  | .null => rfl
  | .bool true => rfl
  | .bool false => rfl
  | .number (.integer n inRange) => exact scanValue_integer fuel inRange ends
  | .string s =>
    have scanned := scanString_quoteJson s rest
    simp only [render, Text.quoteJson, List.cons_append, List.append_assoc, List.nil_append]
    rw [scanValue_scalar fuel rfl (by decide) (by decide)]
    simp [scanScalar, scanned, Draft.ofJson]
  | .array [] => rfl
  | .array (x :: xs) =>
    obtain ⟨d, ds, first, -⟩ := exists_render_eq x
    obtain ⟨visible, more⟩ := head_render first
    have items := scanItems_render (x :: xs) (List.cons_ne_nil x xs) whole rest fuel (by
      simp only [render, renderItems, List.length_cons, List.length_append, List.length_nil]
        at enough ⊢
      omega)
    simp only [renderItems, List.tail_cons, List.append_assoc] at items
    simp only [render, List.cons_append, List.append_assoc, List.nil_append]
    rw [first, List.cons_append] at items ⊢
    rw [scanValue_array fuel visible more, items]
    rfl
  | .object [] => rfl
  | .object ((k, x) :: ms) =>
    have members := scanMembers_render ((k, x) :: ms) (List.cons_ne_nil _ ms) whole rest
      fuel (by
        simp only [render, renderMembers, List.length_cons, List.length_append, List.length_nil]
          at enough ⊢
        omega)
    simp only [renderMembers, Text.quoteJson, List.tail_cons, List.cons_append, List.append_assoc]
      at members
    simp only [render, Text.quoteJson, List.cons_append, List.append_assoc, List.nil_append]
      at members ⊢
    rw [scanValue_object, members]
    rfl
termination_by structural x

/-- The items of an array are found up to its closing bracket. -/
theorem scanItems_render (xs : List Json) (nonempty : xs ≠ []) (whole : WholeItems xs)
    (rest : List Char) (fuel : Nat) (enough : 2 * (renderItems xs).length ≤ fuel + 1) :
    scanItems fuel ((renderItems xs).tail ++ ']' :: rest) = (Draft.ofItems xs, none, rest) := by
  match xs with
  | [] => exact absurd rfl nonempty
  | x :: xs =>
    simp only [renderItems, List.length_cons, List.length_append] at enough
    obtain ⟨c, cs, written, -⟩ := exists_render_eq x
    obtain ⟨fuel, rfl⟩ : ∃ less, fuel = less + 1 :=
      Nat.exists_eq_succ_of_ne_zero (by rw [written, List.length_cons] at enough; omega)
    have item := scanValue_render x fuel whole.1 (endsValue_items xs rest) (by omega)
    simp only [renderItems, List.tail_cons, List.append_assoc]
    rw [scanItems, item]
    match xs with
    | [] => simp [renderItems, skipBlanks, isBlank, Draft.ofItems]
    | y :: ys =>
      have items := scanItems_render (y :: ys) (List.cons_ne_nil y ys) whole.2 rest fuel (by omega)
      simp only [renderItems, List.tail_cons, List.append_assoc] at items
      simp [renderItems, skipBlanks, isBlank, Draft.ofItems, items]
termination_by structural xs

/-- The members of an object are found up to its closing brace. -/
theorem scanMembers_render (ms : List (String × Json)) (nonempty : ms ≠ [])
    (whole : WholeMembers ms) (rest : List Char) (fuel : Nat)
    (enough : 2 * (renderMembers ms).length ≤ fuel + 1) :
    scanMembers fuel ((renderMembers ms).tail ++ '\x7d' :: rest) =
      (Draft.ofMembers ms, none, rest) := by
  match ms with
  | [] => exact absurd rfl nonempty
  | (k, x) :: ms =>
    simp only [renderMembers, List.length_cons, List.length_append] at enough
    obtain ⟨fuel, rfl⟩ : ∃ less, fuel = less + 1 :=
      Nat.exists_eq_succ_of_ne_zero (by omega)
    have value := scanValue_render x fuel whole.1 (endsValue_members ms rest) (by omega)
    have name := scanString_quoteJson k
      (':' :: (render x ++ (renderMembers ms ++ '\x7d' :: rest)))
    simp only [renderMembers, Text.quoteJson, List.tail_cons, List.cons_append, List.append_assoc,
      List.nil_append]
    rw [scanMembers, skipBlanks_cons rfl]
    dsimp only
    rw [if_pos rfl, name]
    dsimp only
    rw [skipBlanks_cons rfl]
    dsimp only
    rw [if_pos rfl, value]
    match ms with
    | [] => simp [renderMembers, skipBlanks, isBlank, Draft.ofMembers, Draft.ofString]
    | (l, y) :: ms =>
      have members := scanMembers_render ((l, y) :: ms) (List.cons_ne_nil _ ms) whole.2 rest fuel
        (by omega)
      simp only [renderMembers, Text.quoteJson, List.tail_cons, List.cons_append,
        List.append_assoc, List.nil_append] at members
      simp [renderMembers, Text.quoteJson, skipBlanks, isBlank, Draft.ofMembers, Draft.ofString,
        members]
termination_by structural ms

end

/-- The text of a tree is a document of the tree, with nothing behind it. -/
theorem Document.ofText_text {x : Json} (whole : x.IsWhole) :
    Document.ofText x.text = ⟨.ofJson x, false⟩ := by
  have scanned := scanValue_render x (2 * (render x).length + 1) whole endsValue_nil (by omega)
  rw [List.append_nil] at scanned
  simp [Document.ofText, text, scanned, skipBlanks]

/-- What is read of the text of a tree. -/
theorem Reader.ofText_text {α : Type} {reader : Reader α} {x : Json} (whole : x.IsWhole) {v : α} :
    reader.ofText x.text = .ok v ↔ reader .whole (.ofJson x) = .ok v := by
  rw [ofText_eq_ok, Document.ofText_text whole]
  exact and_iff_left rfl

/-! ## Parsing -/

/-- A tree without doubles, nested no deeper than the given room. -/
def Fits (room : Nat) (x : Json) : Prop := x.IsWhole ∧ x.nesting ≤ room

theorem Fits.mono {room more : Nat} {x : Json} (h : x.Fits room) (le : room ≤ more) : x.Fits more :=
  ⟨h.1, h.2.trans le⟩

theorem fits_string {s : String} {room : Nat} : (Json.string s).Fits room :=
  ⟨trivial, Nat.zero_le _⟩

theorem fits_array {xs : List Json} {room : Nat} :
    (Json.array xs).Fits (room + 1) ↔ ∀ x ∈ xs, x.Fits room := by
  simp only [Fits, IsWhole, nesting, Nat.add_le_add_iff_right]
  induction xs with
  | nil => simp [WholeItems, nestingItems]
  | cons x xs ih =>
    rw [List.forall_mem_cons, ← ih, WholeItems, nestingItems, Nat.max_le]
    exact and_and_and_comm

theorem fits_object {ms : Entries Json} {room : Nat} :
    (Json.object ms).Fits (room + 1) ↔ ∀ e ∈ ms, e.2.Fits room := by
  simp only [Fits, IsWhole, nesting, Nat.add_le_add_iff_right]
  induction ms with
  | nil => simp [WholeMembers, nestingMembers]
  | cons e ms ih =>
    rw [List.forall_mem_cons, ← ih, WholeMembers, nestingMembers, Nat.max_le]
    exact and_and_and_comm

/-- The text of a tree that is not nested too deep is parsed into the tree in order. -/
theorem parse_text {x : Json} (fits : x.Fits 127) : parse x.text = .ok x.sorted :=
  (Reader.ofText_text fits.1).2 (Reader.faulty_eq_ok.2 (Draft.json_ofJson_of_admits x fits.2))

end FeatureFlags.Json
