import FeatureFlags.Text.Utf8
import Mathlib.Tactic.ByContra

/-!
# Bytes and texts

The bytes of a text determine it (`utf8_encode_inj`), and the order of texts by their characters is
that of their bytes (`utf8_encode_lt`): of two different characters the lower one has the bytes that
come first, at the latest in the last byte that the shorter of the two has.

Bytes of ASCII are a text as they are (`Utf8.decodeLossy_ascii`).
-/

namespace FeatureFlags

/-! ## Texts as bytes -/

theorem byteArray_toList_loop (bytes : ByteArray) (i : Nat) (done : List UInt8) :
    ByteArray.toList.loop bytes i done = done.reverse ++ bytes.data.toList.drop i := by
  fun_induction ByteArray.toList.loop bytes i done with
  | case1 i done inside ih =>
    rw [ih, List.reverse_cons, List.append_assoc, List.singleton_append]
    congr 1
    have bound : i < bytes.data.toList.length := inside
    rw [List.drop_eq_getElem_cons bound]
    congr 1
    exact getElem!_pos bytes.data i inside
  | case2 i done outside =>
    rw [List.drop_of_length_le (Nat.not_lt.1 outside), List.append_nil]

theorem utf8_encode_eq (s : String) : Utf8.encode s = s.toByteArray.data.toList := by
  change ByteArray.toList.loop s.toByteArray 0 [] = _
  rw [byteArray_toList_loop, List.reverse_nil, List.nil_append, List.drop_zero]

theorem utf8_encode_inj {s t : String} : Utf8.encode s = Utf8.encode t ↔ s = t := by
  refine ⟨fun same => ?_, fun h => h ▸ rfl⟩
  rw [utf8_encode_eq, utf8_encode_eq, Array.toList_inj] at same
  exact String.toByteArray_inj.1 (ByteArray.ext same)

theorem utf8_encode_flatMap (s : String) :
    Utf8.encode s = s.toList.flatMap String.utf8EncodeChar := by
  rw [utf8_encode_eq]
  calc s.toByteArray.data.toList = (String.ofList s.toList).toByteArray.data.toList := by
        rw [String.ofList_toList]
    _ = s.toList.flatMap String.utf8EncodeChar := by
        rw [String.toByteArray_ofList, List.utf8Encode, List.toList_data_toByteArray]

/-- The first bytes come before the others, whatever follows both. -/
def Precedes (p q : List UInt8) : Prop := ∀ xs ys, p ++ xs < q ++ ys

namespace Precedes

theorem of_lead {m n : Nat} (h : m < n) (hn : n < 256) (p q : List UInt8) :
    Precedes (UInt8.ofNat m :: p) (UInt8.ofNat n :: q) := by
  intro xs ys
  refine List.cons_lt_cons_iff.2 (.inl ?_)
  rw [UInt8.lt_iff_toNat_lt, UInt8.toNat_ofNat', UInt8.toNat_ofNat']
  omega

/-- A number is at first compared by all its bits but the last six. -/
theorem snoc {m n : Nat} (h : m < n) {p q : List UInt8} (below : m / 64 < n / 64 → Precedes p q)
    (same : m / 64 = n / 64 → p = q) :
    Precedes (p ++ [UInt8.ofNat (m % 64 + 128)]) (q ++ [UInt8.ofNat (n % 64 + 128)]) := by
  intro xs ys
  rw [List.append_assoc, List.append_assoc]
  obtain hlt | ⟨heq, hlast⟩ : m / 64 < n / 64 ∨ m / 64 = n / 64 ∧ m % 64 < n % 64 := by omega
  · exact below hlt _ _
  · rw [same heq]
    exact List.append_left_lt (of_lead (by omega) (by omega) [] [] xs ys)

end Precedes

/-- The bytes of the lower one of two characters precede those of the other one. -/
theorem precedes_utf8EncodeChar {c d : Char} (h : c < d) :
    Precedes (String.utf8EncodeChar c) (String.utf8EncodeChar d) := by
  have lt : c.val.toNat < d.val.toNat := h
  have bound : d.val.toNat < 0xD800 ∨ 0xDFFF < d.val.toNat ∧ d.val.toNat < 0x110000 := d.valid
  unfold String.utf8EncodeChar
  generalize c.val.toNat = m at *
  generalize d.val.toNat = n at *
  dsimp only
  have m₂ : m / 4096 = m / 64 / 64 := by omega
  have n₂ : n / 4096 = n / 64 / 64 := by omega
  have m₃ : m / 262144 = m / 64 / 64 / 64 := by omega
  have n₃ : n / 262144 = n / 64 / 64 / 64 := by omega
  rw [m₂, n₂, m₃, n₃]
  -- A character with fewer bytes has a lower first byte; with as many, the numbers are compared.
  split
  · split
    · exact .of_lead lt (by omega) _ _
    split
    · exact .of_lead (by omega) (by omega) _ _
    split
    · exact .of_lead (by omega) (by omega) _ _
    · exact .of_lead (by omega) (by omega) _ _
  split
  · split
    · omega
    split
    · exact .snoc (p := [_]) (q := [_]) lt (fun h => .of_lead (by omega) (by omega) _ _)
        fun h => by rw [h]
    split
    · exact .of_lead (by omega) (by omega) _ _
    · exact .of_lead (by omega) (by omega) _ _
  split
  · split
    · omega
    split
    · omega
    split
    · exact .snoc (p := [_, _]) (q := [_, _]) lt
        (fun h => .snoc (p := [_]) (q := [_]) h
          (fun h => .of_lead (by omega) (by omega) _ _) fun h => by rw [h])
        fun h => by rw [h]
    · exact .of_lead (by omega) (by omega) _ _
  · split
    · omega
    split
    · omega
    split
    · omega
    · exact .snoc (p := [_, _, _]) (q := [_, _, _]) lt
        (fun h => .snoc (p := [_, _]) (q := [_, _]) h
          (fun h => .snoc (p := [_]) (q := [_]) h
            (fun h => .of_lead (by omega) (by omega) _ _) fun h => by rw [h])
          fun h => by rw [h])
        fun h => by rw [h]

theorem flatMap_utf8EncodeChar_lt {xs ys : List Char} (h : xs < ys) :
    xs.flatMap String.utf8EncodeChar < ys.flatMap String.utf8EncodeChar := by
  induction ys generalizing xs with
  | nil => exact absurd h (List.not_lt_nil xs)
  | cons d ys ih =>
    cases xs with
    | nil =>
      obtain ⟨b, bs, hb⟩ := List.exists_cons_of_ne_nil (String.utf8EncodeChar_ne_nil (c := d))
      rw [List.flatMap_cons, hb]
      exact List.nil_lt_cons _ _
    | cons c xs =>
      rw [List.flatMap_cons, List.flatMap_cons]
      obtain hlt | ⟨rfl, hlt⟩ := List.cons_lt_cons_iff.1 h
      · exact precedes_utf8EncodeChar hlt _ _
      · exact List.append_left_lt (ih hlt)

/-- Texts are in the order of their bytes. -/
theorem utf8_encode_lt {s t : String} : Utf8.encode s < Utf8.encode t ↔ s < t := by
  have mono {s t : String} (h : s < t) : Utf8.encode s < Utf8.encode t := by
    rw [utf8_encode_flatMap, utf8_encode_flatMap]
    exact flatMap_utf8EncodeChar_lt (String.lt_iff.1 h)
  refine ⟨fun h => ?_, mono⟩
  by_contra hnot
  by_cases heq : t = s
  · rw [heq] at h
    exact List.lt_irrefl _ h
  · exact List.lt_asymm h (mono (Std.lt_of_le_of_ne (String.not_lt.1 hnot) heq))

/-! ## Bytes as texts -/

namespace Utf8

theorem decodeChars_ascii (bad : Option Char) {fuel : Nat} {bytes : List UInt8}
    (ascii : ∀ b ∈ bytes, b < 0x80) (enough : bytes.length ≤ fuel) :
    decodeChars bad fuel bytes = some (bytes.map fun b => Char.ofNat b.toNat) := by
  induction bytes generalizing fuel with
  | nil => cases fuel <;> rfl
  | cons b rest ih =>
    obtain ⟨low, ascii⟩ := List.forall_mem_cons.1 ascii
    cases fuel with
    | zero => cases enough
    | succ fuel =>
      have one : step b rest = .char (Char.ofNat b.toNat) 1 := if_pos low
      rw [decodeChars, one]
      show (decodeChars bad fuel rest).map _ = _
      rw [ih ascii (Nat.le_of_succ_le_succ enough)]
      rfl

/-- Each byte of ASCII is a character. -/
theorem decodeLossy_ascii {bytes : List UInt8} (ascii : ∀ b ∈ bytes, b < 0x80) :
    decodeLossy bytes = String.ofList (bytes.map fun b => Char.ofNat b.toNat) := by
  rw [decodeLossy, decodeChars_ascii _ ascii (Nat.le_refl _), Option.getD_some]

end Utf8

end FeatureFlags
