import FeatureFlags.Json.Scan
import FeatureFlags.Proofs.Binary64.DecimalText

/-!
# The text of a tree

The text of a tree determines the tree, its members in their order (`eq_of_render_eq`). A quoted
text is read back as it was (`scanString_quoteJson`), so it ends where its closing quote stands; a
numeral ends where another character stands, and an array or object at its closing bracket. So
wherever a value stands in a document, its text tells the value and where it ends
(`render_append_inj`).
-/

namespace FeatureFlags.Json

open Binary64 (LaidOut)

/-! ## Quoted texts -/

theorem hexUnit?_control {n : Nat} (control : n < 32) :
    hexUnit? '0' '0' (Text.hexDigit (n / 16)) (Text.hexDigit n) = some n := by
  have all : ∀ n < 32, hexUnit? '0' '0' (Text.hexDigit (n / 16)) (Text.hexDigit n) = some n := by
    decide
  exact all n control

/-- A character is read as it is written, and what follows it after it. -/
theorem scanPieces_escapeJson (c : Char) (rest : List Char) :
    ∃ piece, scanPieces (Text.escapeJson c ++ rest) =
        (piece :: (scanPieces rest).1, (scanPieces rest).2) ∧
      ∀ close more, Piece.join close (piece :: more) = (Piece.join close more).map (c :: ·) := by
  have letter (c e : Char) (plain : e ≠ 'u') (names : escaped? e = some c) :
      scanPieces ('\\' :: e :: rest) =
        (.char c :: (scanPieces rest).1, (scanPieces rest).2) := by
    rw [scanPieces.eq_def]
    simp [plain, names]
  unfold Text.escapeJson
  split
  · subst_vars
    exact ⟨.char '"', letter '"' '"' (by decide) rfl, fun _ _ => rfl⟩
  split
  · subst_vars
    exact ⟨.char '\\', letter '\\' '\\' (by decide) rfl, fun _ _ => rfl⟩
  split
  · rename_i noQuote noBackslash visible
    refine ⟨.char c, ?_, fun _ _ => rfl⟩
    rw [List.singleton_append, scanPieces.eq_def]
    simp [noQuote, noBackslash, Nat.not_lt.2 visible]
  split
  · subst_vars
    exact ⟨.char '\n', letter '\n' 'n' (by decide) rfl, fun _ _ => rfl⟩
  split
  · subst_vars
    exact ⟨.char '\r', letter '\r' 'r' (by decide) rfl, fun _ _ => rfl⟩
  split
  · subst_vars
    exact ⟨.char '\t', letter '\t' 't' (by decide) rfl, fun _ _ => rfl⟩
  split
  · rename_i backspace
    have : c = '\x08' := Char.toNat_inj.1 backspace
    subst this
    exact ⟨.char '\x08', letter '\x08' 'b' (by decide) rfl, fun _ _ => rfl⟩
  split
  · rename_i formFeed
    have : c = '\x0c' := Char.toNat_inj.1 formFeed
    subst this
    exact ⟨.char '\x0c', letter '\x0c' 'f' (by decide) rfl, fun _ _ => rfl⟩
  · rename_i control _ _ _ _ _
    have control : c.toNat < 32 := Nat.not_le.1 control
    refine ⟨.unit c.toNat, ?_, fun close more => ?_⟩
    · simp only [List.cons_append, List.nil_append]
      rw [scanPieces.eq_def]
      simp [hexUnit?_control control]
    · have whole : Piece.isTrail c.toNat = false ∧ Piece.isLead c.toNat = false := by
        unfold Piece.isTrail Piece.isLead
        simp
        omega
      rw [Piece.join.eq_def]
      simp [whole]

/-- A quoted text is read back as it was, up to its closing quote. -/
theorem scanString_quoteJson (s : String) (rest : List Char) :
    scanString (s.toList.flatMap Text.escapeJson ++ '"' :: rest) = (.ok s, rest) := by
  have pieces : ∀ cs : List Char, ∃ pieces,
      scanPieces (cs.flatMap Text.escapeJson ++ '"' :: rest) = (pieces, .ok rest) ∧
        Piece.join none pieces = .ok cs := by
    intro cs
    induction cs with
    | nil => exact ⟨[], by rw [scanPieces.eq_def]; rfl, rfl⟩
    | cons c cs ih =>
      obtain ⟨pieces, hscan, hjoin⟩ := ih
      obtain ⟨piece, hpiece, hadd⟩ :=
        scanPieces_escapeJson c (cs.flatMap Text.escapeJson ++ '"' :: rest)
      refine ⟨piece :: pieces, ?_, ?_⟩
      · rw [List.flatMap_cons, List.append_assoc, hpiece, hscan]
      · rw [hadd, hjoin]
        rfl
  obtain ⟨pieces, hscan, hjoin⟩ := pieces s.toList
  rw [scanString, hscan]
  simp only [hjoin]
  simp [Except.map, Literal.ok]

theorem quoteJson_append_inj {s t : String} {r r' : List Char}
    (same : Text.quoteJson s ++ r = Text.quoteJson t ++ r') : s = t ∧ r = r' := by
  have hs := scanString_quoteJson s r
  have ht := scanString_quoteJson t r'
  simp only [Text.quoteJson, List.cons_append, List.append_assoc, List.nil_append,
    List.cons.injEq, true_and] at same
  rw [same, ht] at hs
  injection hs with literal rest
  injection literal with value
  injection value with text
  exact ⟨text.symm, rest.symm⟩

/-! ## Numerals -/

/-- The characters of a numeral. -/
def inNumeral (c : Char) : Bool := c.isDigit || c ∈ ['.', 'e', '+', '-']

/-- A text behind which a numeral does not go on. -/
def EndsNumeral (rest : List Char) : Prop := ∀ c ∈ rest.head?, inNumeral c = false

namespace Number

theorem head_toDigits (n : Nat) :
    ∃ c rest, Nat.toDigits 10 n = c :: rest ∧ c.isDigit = true := by
  obtain ⟨c, rest, filled⟩ := List.exists_cons_of_ne_nil (Nat.toDigits_ne_nil (n := n) (b := 10))
  exact ⟨c, rest, filled, allDigits_toDigits n c (filled ▸ List.mem_cons_self)⟩

theorem renderInt_eq (n : Int) :
    renderInt n = (if decide (n < 0) then ['-'] else []) ++ Nat.toDigits 10 n.natAbs := by
  simp [renderInt]

/-- The digits of an integer, with its sign, determine the integer. -/
theorem eq_of_renderInt_eq {m n : Int} (same : renderInt m = renderInt n) : m = n := by
  rw [renderInt_eq, renderInt_eq] at same
  obtain ⟨sign_eq, digits_eq⟩ :=
    Binary64.eq_of_signed_eq (head_toDigits m.natAbs) (head_toDigits n.natAbs) same
  have size_eq : m.natAbs = n.natAbs := by
    rw [← Text.decimalValue_toDigits m.natAbs, digits_eq, Text.decimalValue_toDigits]
  have sign_iff : m < 0 ↔ n < 0 := decide_eq_decide.1 sign_eq
  omega

/-- The text of a number is a sign and a text that consists of digits for an integer, and goes on
after its digits for a double. -/
theorem exists_render_eq (n : Number) :
    ∃ (negative : Bool) (body : List Char), n.render = (if negative then ['-'] else []) ++ body ∧
      (∃ c rest, body = c :: rest ∧ c.isDigit = true) ∧
      ((∃ value inRange, n = .integer value inRange) ∧ AllDigits body ∨
        (∃ value, n = .double value) ∧ LaidOut body) := by
  cases n with
  | integer value inRange =>
    exact ⟨_, _, renderInt_eq value, head_toDigits _, .inl ⟨⟨_, _, rfl⟩, allDigits_toDigits _⟩⟩
  | double value =>
    obtain ⟨body, written, laidOut, -⟩ := Binary64.exists_render_eq style value.finite
    exact ⟨value.value.negative, body, written, laidOut.head, .inr ⟨⟨_, rfl⟩, laidOut⟩⟩

theorem not_laidOut_of_allDigits {cs : List Char} (digits : AllDigits cs) : ¬ LaidOut cs := by
  rintro ⟨whole, mark, rest, rfl, -, -, hmark, -⟩
  have digit := digits mark (by simp)
  obtain rfl | rfl := hmark <;> cases digit

/-- The text of a number determines the number. -/
theorem eq_of_render_eq {m n : Number} (same : m.render = n.render) : m = n := by
  obtain ⟨_, xs, hm, xs_head, hxs⟩ := m.exists_render_eq
  obtain ⟨_, ys, hn, ys_head, hys⟩ := n.exists_render_eq
  obtain ⟨-, rfl⟩ := Binary64.eq_of_signed_eq xs_head ys_head (hm.symm.trans (same.trans hn))
  obtain ⟨⟨x, hx, rfl⟩, digits⟩ | ⟨⟨x, rfl⟩, laidOut⟩ := hxs <;>
    obtain ⟨⟨y, hy, rfl⟩, digits'⟩ | ⟨⟨y, rfl⟩, laidOut'⟩ := hys
  · cases eq_of_renderInt_eq same
    rfl
  · exact absurd laidOut' (not_laidOut_of_allDigits digits)
  · exact absurd laidOut (not_laidOut_of_allDigits digits')
  · have value_eq := Binary64.eq_of_render_eq x.finite y.finite same
    obtain ⟨x, hx⟩ := x
    obtain ⟨y, hy⟩ := y
    cases value_eq
    rfl

/-- A numeral consists of its characters and begins with a digit or a minus sign. -/
theorem render_characters (n : Number) :
    (∀ c ∈ n.render, inNumeral c = true) ∧
      ∃ c rest, n.render = c :: rest ∧ (c.isDigit = true ∨ c = '-') := by
  obtain ⟨negative, body, written, ⟨d, rest, filled, digit⟩, kind⟩ := n.exists_render_eq
  have characters : ∀ c ∈ body, inNumeral c = true := by
    intro c hc
    obtain ⟨-, digits⟩ | ⟨-, whole, mark, others, rfl, digits, -, hmark, hothers⟩ := kind
    · simp [inNumeral, digits c hc]
    · obtain hwhole | hc := List.mem_append.1 hc
      · simp [inNumeral, digits c hwhole]
      · obtain rfl | hrest := List.mem_cons.1 hc
        · obtain rfl | rfl := hmark <;> rfl
        · obtain hdigit | hmark := hothers c hrest
          · simp [inNumeral, hdigit]
          · simp [inNumeral, hmark]
  rw [written]
  cases negative with
  | false => exact ⟨characters, d, rest, filled, .inl digit⟩
  | true =>
    refine ⟨fun c hc => ?_, '-', body, rfl, .inr rfl⟩
    obtain rfl | hc := List.mem_cons.1 hc
    · rfl
    · exact characters c hc

/-- A numeral ends where another character stands. -/
theorem render_append_inj {m n : Number} {r s : List Char} (hr : EndsNumeral r)
    (hs : EndsNumeral s) (same : m.render ++ r = n.render ++ s) : m = n ∧ r = s := by
  have taken : ∀ (n : Number) {r : List Char}, EndsNumeral r →
      (n.render ++ r).takeWhile inNumeral = n.render := by
    intro n r hr
    rw [List.takeWhile_append_of_pos n.render_characters.1]
    cases r with
    | nil => simp
    | cons c r =>
      rw [List.takeWhile_cons_of_neg (by simp [hr c rfl]), List.append_nil]
  have text_eq : m.render = n.render := by
    rw [← taken m hr, ← taken n hs, same]
  rw [text_eq] at same
  exact ⟨eq_of_render_eq text_eq, List.append_cancel_left same⟩

end Number

/-! ## Trees -/

/-- The form of a tree, as the index of its constructor, by the first character of its text. -/
def formOf (c : Char) : Nat :=
  if inNumeral c then 2 else if c = 'n' then 0 else if c = 't' ∨ c = 'f' then 1
  else if c = '"' then 3 else if c = '[' then 4 else if c = '\x7b' then 5 else 6

theorem exists_render_eq (x : Json) : ∃ c rest, render x = c :: rest ∧ x.ctorIdx = formOf c := by
  match x with
  | .null => exact ⟨_, _, rfl, rfl⟩
  | .bool true => exact ⟨_, _, rfl, rfl⟩
  | .bool false => exact ⟨_, _, rfl, rfl⟩
  | .number n =>
    obtain ⟨characters, c, rest, written, -⟩ := n.render_characters
    have numeral : inNumeral c = true := characters c (written ▸ List.mem_cons_self)
    exact ⟨c, rest, written, (if_pos numeral).symm⟩
  | .string s => exact ⟨_, _, rfl, rfl⟩
  | .array [] => exact ⟨_, _, rfl, rfl⟩
  | .array (x :: xs) => exact ⟨_, _, rfl, rfl⟩
  | .object [] => exact ⟨_, _, rfl, rfl⟩
  | .object ((k, x) :: xs) => exact ⟨_, _, rfl, rfl⟩

/-- The first character of a text tells the form of the tree. -/
theorem ctorIdx_eq_of_render_eq {x y : Json} {r s : List Char}
    (same : render x ++ r = render y ++ s) : x.ctorIdx = y.ctorIdx := by
  obtain ⟨c, xs, hx, form⟩ := exists_render_eq x
  obtain ⟨d, ys, hy, form'⟩ := exists_render_eq y
  rw [hx, hy] at same
  obtain ⟨rfl, -⟩ := List.cons.inj same
  exact form.trans form'.symm

/-- No value begins with a closing bracket. -/
theorem render_append_ne_close (x : Json) (r s : List Char) : render x ++ r ≠ ']' :: s := by
  obtain ⟨c, xs, hx, form⟩ := exists_render_eq x
  rw [hx]
  intro same
  obtain ⟨rfl, -⟩ := List.cons.inj same
  cases x <;> cases form

theorem endsNumeral_nil : EndsNumeral [] := fun _ hc => by cases hc

theorem endsNumeral_items (xs : List Json) (r : List Char) :
    EndsNumeral (renderItems xs ++ ']' :: r) := by
  cases xs <;> intro c hc <;> cases hc <;> rfl

theorem endsNumeral_members (xs : List (String × Json)) (r : List Char) :
    EndsNumeral (renderMembers xs ++ '\x7d' :: r) := by
  cases xs <;> intro c hc <;> cases hc <;> rfl

mutual

/-- Wherever a value stands, its text tells the value and where it ends. -/
theorem render_append_inj (x y : Json) {r s : List Char} (hr : EndsNumeral r) (hs : EndsNumeral s)
    (same : render x ++ r = render y ++ s) : x = y ∧ r = s := by
  have form := ctorIdx_eq_of_render_eq same
  match x with
  | .null =>
    obtain rfl : y = .null := by cases y <;> first | rfl | cases form
    exact ⟨rfl, List.append_cancel_left same⟩
  | .bool b =>
    obtain ⟨b', rfl⟩ : ∃ b', y = .bool b' := by cases y <;> first | exact ⟨_, rfl⟩ | cases form
    cases b <;> cases b' <;> simp [render] at same <;> exact ⟨rfl, same⟩
  | .number n =>
    obtain ⟨n', rfl⟩ : ∃ n', y = .number n' := by cases y <;> first | exact ⟨_, rfl⟩ | cases form
    obtain ⟨rfl, rest⟩ := Number.render_append_inj hr hs same
    exact ⟨rfl, rest⟩
  | .string t =>
    obtain ⟨t', rfl⟩ : ∃ t', y = .string t' := by cases y <;> first | exact ⟨_, rfl⟩ | cases form
    obtain ⟨rfl, rest⟩ := quoteJson_append_inj same
    exact ⟨rfl, rest⟩
  | .array xs =>
    obtain ⟨ys, rfl⟩ : ∃ ys, y = .array ys := by cases y <;> first | exact ⟨_, rfl⟩ | cases form
    match xs, ys with
    | [], [] => exact ⟨rfl, List.append_cancel_left same⟩
    | [], y :: ys =>
      simp only [render, List.cons_append, List.append_assoc, List.cons.injEq, true_and] at same
      exact absurd same.symm (render_append_ne_close y _ _)
    | x :: xs, [] =>
      simp only [render, List.cons_append, List.append_assoc, List.cons.injEq, true_and] at same
      exact absurd same (render_append_ne_close x _ _)
    | x :: xs, y :: ys =>
      simp only [render, List.cons_append, List.append_assoc, List.nil_append, List.cons.injEq,
        true_and] at same
      obtain ⟨rfl, others⟩ :=
        render_append_inj x y (endsNumeral_items xs r) (endsNumeral_items ys s) same
      obtain ⟨rfl, rest⟩ := renderItems_append_inj xs ys others
      exact ⟨rfl, rest⟩
  | .object xs =>
    obtain ⟨ys, rfl⟩ : ∃ ys, y = .object ys := by cases y <;> first | exact ⟨_, rfl⟩ | cases form
    match xs, ys with
    | [], [] => exact ⟨rfl, List.append_cancel_left same⟩
    | [], (l, y) :: ys => simp [render, Text.quoteJson] at same
    | (k, x) :: xs, [] => simp [render, Text.quoteJson] at same
    | (k, x) :: xs, (l, y) :: ys =>
      simp only [render, List.cons_append, List.append_assoc, List.nil_append, List.cons.injEq,
        true_and] at same
      obtain ⟨rfl, value⟩ := quoteJson_append_inj same
      obtain ⟨rfl, others⟩ := render_append_inj x y (endsNumeral_members xs r)
        (endsNumeral_members ys s) (List.cons.inj value).2
      obtain ⟨rfl, rest⟩ := renderMembers_append_inj xs ys others
      exact ⟨rfl, rest⟩
termination_by structural x

/-- The items behind the first one are told up to the closing bracket. -/
theorem renderItems_append_inj (xs ys : List Json) {r s : List Char}
    (same : renderItems xs ++ ']' :: r = renderItems ys ++ ']' :: s) : xs = ys ∧ r = s := by
  match xs, ys with
  | [], [] => exact ⟨rfl, (List.cons.inj same).2⟩
  | [], y :: ys => simp [renderItems] at same
  | x :: xs, [] => simp [renderItems] at same
  | x :: xs, y :: ys =>
    simp only [renderItems, List.cons_append, List.append_assoc, List.cons.injEq, true_and] at same
    obtain ⟨rfl, others⟩ :=
      render_append_inj x y (endsNumeral_items xs r) (endsNumeral_items ys s) same
    obtain ⟨rfl, rest⟩ := renderItems_append_inj xs ys others
    exact ⟨rfl, rest⟩
termination_by structural xs

/-- The members behind the first one are told up to the closing brace. -/
theorem renderMembers_append_inj (xs ys : List (String × Json)) {r s : List Char}
    (same : renderMembers xs ++ '\x7d' :: r = renderMembers ys ++ '\x7d' :: s) :
    xs = ys ∧ r = s := by
  match xs, ys with
  | [], [] => exact ⟨rfl, (List.cons.inj same).2⟩
  | [], (l, y) :: ys => simp [renderMembers] at same
  | (k, x) :: xs, [] => simp [renderMembers] at same
  | (k, x) :: xs, (l, y) :: ys =>
    simp only [renderMembers, List.cons_append, List.append_assoc, List.cons.injEq,
      true_and] at same
    obtain ⟨rfl, value⟩ := quoteJson_append_inj same
    obtain ⟨rfl, others⟩ := render_append_inj x y (endsNumeral_members xs r)
      (endsNumeral_members ys s) (List.cons.inj value).2
    obtain ⟨rfl, rest⟩ := renderMembers_append_inj xs ys others
    exact ⟨rfl, rest⟩
termination_by structural xs

end

/-- The text of a tree determines the tree. -/
theorem eq_of_render_eq {x y : Json} (same : render x = render y) : x = y :=
  (render_append_inj x y endsNumeral_nil endsNumeral_nil (congrArg (· ++ []) same)).1

end FeatureFlags.Json
