import FeatureFlags.Proofs.Dict
import FeatureFlags.Proofs.Outcomes

/-!
# Checking entries one by one

Entries are `Related` if they have the same names in the same order and their values are related
under each name; then so are the maps that they make (`Related.ofEntries`). `checked` replaces the
values of entries that are all accepted, or gives the name of the first one that is not.
-/

namespace FeatureFlags

open Outcome

namespace Entries

variable {α β ε : Type}

/-- Entries with the same names in the same order, whose values are related. -/
def Related (R : String → α → β → Prop) : Entries α → Entries β → Prop :=
  List.Forall₂ fun a b => a.1 = b.1 ∧ R a.1 a.2 b.2

variable {R : String → α → β → Prop} {xs : Entries α} {ys : Entries β}

theorem Related.names (h : Related R xs ys) : xs.map (·.1) = ys.map (·.1) := by
  induction h with
  | nil => rfl
  | cons hab _ ih => rw [List.map_cons, List.map_cons, hab.1, ih]

theorem Related.sorted (h : Related R xs ys) (hxs : xs.Sorted) : ys.Sorted := by
  have names : (ys.map (·.1)).Pairwise (· < ·) := h.names ▸ List.pairwise_map.2 hxs
  exact List.pairwise_map.1 names

theorem Related.get? (h : Related R xs ys) (name : String) :
    Option.Rel (R name) (xs.get? name) (ys.get? name) := by
  induction h with
  | nil => exact .none
  | @cons a b _ _ hab _ ih =>
    obtain ⟨k, x⟩ := a
    obtain ⟨l, y⟩ := b
    obtain ⟨rfl, hxy⟩ := hab
    unfold Entries.get?
    split
    · rename_i hname
      subst hname
      exact .some hxy
    · exact ih

/-- The map of entries that are related to sorted ones has related values. -/
theorem Related.ofEntries (h : Related R xs ys) (hxs : xs.Sorted) (name : String) :
    Option.Rel (R name) (xs.get? name) ((Dict.ofEntries ys).get? name) := by
  have inOrder : (Dict.ofEntries ys).get? name = ys.get? name :=
    congrArg (Entries.get? · name) (sort_eq_self (h.sorted hxs))
  rw [inOrder]
  exact h.get? name

theorem mapM_eq_ok_iff_related {f : String × α → Except ε (String × β)}
    (h : ∀ e b, f e = .ok b ↔ e.1 = b.1 ∧ R e.1 e.2 b.2) :
    xs.mapM f = .ok ys ↔ Related R xs ys := by
  simp only [mapM_eq_ok, h]
  rfl

/-- The entries with their values replaced, or the name of the first one that `f` refuses. -/
def checked (f : α → Option β) (xs : Entries α) : Except String (Dict β) := do
  let entries ← xs.mapM fun (name, x) =>
    match f x with
    | some value => .ok (name, value)
    | none => .error name
  return .ofEntries entries

variable {f : α → Option β}

theorem get?_of_checked (hxs : xs.Sorted) {d : Dict β} (h : xs.checked f = .ok d) (name : String) :
    Option.Rel (fun x b => f x = some b) (xs.get? name) (d.get? name) := by
  obtain ⟨ys, hys, hd⟩ := bind_eq_ok.1 h
  cases hd
  have related : Related (fun _ x b => f x = some b) xs ys :=
    (mapM_eq_ok_iff_related fun e b => by
      obtain ⟨k, x⟩ := e
      obtain ⟨l, b⟩ := b
      cases hx : f x <;> simp [hx]).1 hys
  exact related.ofEntries hxs name

/-- Checking the images of a map's values gives the map again if `f` takes each image back. -/
theorem checked_mapValues {g : β → α} (h : ∀ b, f (g b) = some b) (d : Dict β) :
    (d.entries.mapValues g).checked f = .ok d := by
  have back : (d.entries.mapValues g).mapM (fun (name, x) =>
      match f x with
      | some value => Except.ok (name, value)
      | none => .error name) = .ok d.entries := by
    rw [mapValues, List.mapM_map]
    refine mapM_eq_ok.2 (List.forall₂_same.2 fun e _ => ?_)
    simp [h]
  exact bind_eq_ok.2 ⟨_, back, by rw [Dict.ofEntries_entries]; rfl⟩

theorem checked_eq_error {name : String} (h : xs.checked f = .error name) :
    ∃ x, (name, x) ∈ xs ∧ f x = none := by
  obtain hmap | ⟨_, _, hpure⟩ := bind_eq_error.1 h
  · obtain ⟨before, ⟨k, x⟩, after, rfl, -, hx⟩ := mapM_eq_error.1 hmap
    cases hf : f x with
    | some b => simp [hf] at hx
    | none =>
      obtain rfl : k = name := by simpa [hf] using hx
      exact ⟨x, by simp, hf⟩
  · cases hpure

theorem exists_checked_iff :
    (∃ d, xs.checked f = .ok d) ↔ ∀ e ∈ xs, (f e.2).isSome = true := by
  have each (e : String × α) : (∃ b : String × β, (match f e.2 with
      | some value => Except.ok (e.1, value)
      | none => .error e.1) = .ok b) ↔ (f e.2).isSome = true := by
    cases f e.2 <;> simp
  simp only [← each]
  rw [← exists_mapM_iff]
  constructor
  · rintro ⟨d, hd⟩
    obtain ⟨ys, hys, -⟩ := bind_eq_ok.1 hd
    exact ⟨ys, hys⟩
  · rintro ⟨ys, hys⟩
    exact ⟨_, bind_eq_ok.2 ⟨ys, hys, rfl⟩⟩

end Entries

end FeatureFlags
