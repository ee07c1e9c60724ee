import FeatureFlags.Dict

/-!
# Lookups in finite maps

A `Dict` is determined by its lookups (`ext_get?`), so what an operation does is said by the lookups
in its result. Two maps are the same up to an equality of values that compares an image of them
exactly if the images of the maps are equal (`same_iff`).
-/

namespace FeatureFlags

variable {α β : Type}

namespace Entries

theorem get?_eq_none_of_lt {entries : Entries α} {name : String}
    (h : ∀ e ∈ entries, name < e.1) : entries.get? name = none := by
  induction entries with
  | nil => rfl
  | cons e rest ih =>
    obtain ⟨k, v⟩ := e
    have hne : name ≠ k := fun hk => String.lt_irrefl k (hk ▸ h _ List.mem_cons_self)
    simp only [get?, hne, if_false]
    exact ih fun e he => h e (List.mem_cons_of_mem _ he)

theorem mem_keys_iff {entries : Entries α} {name : String} :
    name ∈ entries.map (·.1) ↔ (entries.get? name).isSome = true := by
  induction entries with
  | nil => simp [get?]
  | cons e rest ih =>
    obtain ⟨k, v⟩ := e
    by_cases hk : name = k
    · simp [get?, hk]
    · simp only [List.map_cons, List.mem_cons, hk, false_or, get?, if_false]
      exact ih

/-- Each entry is found under its name if no two entries share a name. -/
theorem get?_of_mem_of_nodup {entries : Entries α} (h : (entries.map (·.1)).Nodup)
    {e : String × α} (he : e ∈ entries) : entries.get? e.1 = some e.2 := by
  induction entries with
  | nil => cases he
  | cons first rest ih =>
    obtain ⟨hfirst, hrest⟩ := List.nodup_cons.1 h
    rw [get?]
    obtain rfl | he := List.mem_cons.1 he
    · rw [if_pos rfl]
    · rw [if_neg fun heq => hfirst (List.mem_map.2 ⟨e, he, heq⟩), ih hrest he]

theorem nodup_of_sorted {entries : Entries α} (h : entries.Sorted) :
    (entries.map (·.1)).Nodup := by
  refine List.pairwise_map.2 (h.imp ?_)
  intro a b hlt heq
  exact String.lt_irrefl b.1 (heq ▸ hlt)

/-- Each entry of a sorted list is found under its name. -/
theorem get?_of_mem {entries : Entries α} (h : entries.Sorted) {name : String} {value : α}
    (hm : (name, value) ∈ entries) : entries.get? name = some value :=
  get?_of_mem_of_nodup (nodup_of_sorted h) hm

theorem mem_of_get? {entries : Entries α} {name : String} {value : α}
    (h : entries.get? name = some value) : (name, value) ∈ entries := by
  induction entries with
  | nil => cases h
  | cons e rest ih =>
    obtain ⟨k, v⟩ := e
    unfold get? at h
    split at h
    · rename_i hk
      cases h
      exact hk ▸ List.mem_cons_self
    · exact List.mem_cons_of_mem _ (ih h)

/-- Sorted lists with the same lookups are equal. -/
theorem ext_get? {xs ys : Entries α} (hx : xs.Sorted) (hy : ys.Sorted)
    (h : ∀ name, xs.get? name = ys.get? name) : xs = ys := by
  induction xs generalizing ys with
  | nil =>
    cases ys with
    | nil => rfl
    | cons e ys => exact absurd (h e.1) (by simp [get?])
  | cons x xs ih =>
    obtain ⟨k, v⟩ := x
    cases ys with
    | nil => exact absurd (h k) (by simp [get?])
    | cons y ys =>
      obtain ⟨l, w⟩ := y
      obtain ⟨hk, hxs⟩ := List.pairwise_cons.1 hx
      obtain ⟨hl, hys⟩ := List.pairwise_cons.1 hy
      -- Each of the two first names is found in the other list, so neither comes before the other.
      have hkl : k = l := Decidable.byContradiction fun hne => by
        have hmem : (k, v) ∈ (l, w) :: ys := mem_of_get? ((h k).symm.trans (by simp [get?]))
        have hmem' : (l, w) ∈ (k, v) :: xs := mem_of_get? ((h l).trans (by simp [get?]))
        rcases List.mem_cons.1 hmem with heq | hmem
        · exact hne (congrArg Prod.fst heq)
        rcases List.mem_cons.1 hmem' with heq | hmem'
        · exact hne (congrArg Prod.fst heq).symm
        exact String.lt_irrefl k (String.lt_trans (hk _ hmem') (hl _ hmem))
      subst hkl
      have hvw : v = w := by simpa [get?] using h k
      subst hvw
      rw [ih hxs hys fun name => ?_]
      by_cases hname : name = k
      · rw [hname, get?_eq_none_of_lt hk, get?_eq_none_of_lt hl]
      · simpa [get?, hname] using h name

theorem get?_mapValues (f : α → β) (entries : Entries α) (name : String) :
    (entries.mapValues f).get? name = (entries.get? name).map f := by
  induction entries with
  | nil => rfl
  | cons e rest ih =>
    obtain ⟨k, v⟩ := e
    unfold mapValues at ih ⊢
    simp only [List.map_cons, get?, ih]
    split <;> rfl

theorem get?_filter (entries : Entries α) (p : String → Bool) (name : String) :
    Entries.get? (entries.filter fun e => p e.1) name =
      if p name then entries.get? name else none := by
  induction entries with
  | nil => simp [get?]
  | cons e rest ih =>
    obtain ⟨k, v⟩ := e
    by_cases hk : name = k
    · subst hk
      cases hp : p name <;> simp [get?, hp, ih]
    · cases hp : p k <;> simp [get?, hp, hk, ih]

theorem mapValues_insert (f : α → β) (entries : Entries α) (name : String) (value : α) :
    (entries.insert name value).mapValues f = (entries.mapValues f).insert name (f value) := by
  induction entries with
  | nil => rfl
  | cons e rest ih =>
    obtain ⟨k, v⟩ := e
    unfold mapValues at ih ⊢
    simp only [insert, List.map_cons]
    split
    · rfl
    · split
      · rfl
      · rw [List.map_cons, ih]

theorem mapValues_foldl_insert (f : α → β) (entries sorted : Entries α) :
    (entries.foldl (fun sorted e => sorted.insert e.1 e.2) sorted).mapValues f =
      (entries.mapValues f).foldl (fun sorted e => sorted.insert e.1 e.2) (sorted.mapValues f) := by
  induction entries generalizing sorted with
  | nil => rfl
  | cons e rest ih => exact (ih _).trans (by rw [mapValues_insert]; rfl)

theorem mapValues_sort (f : α → β) (entries : Entries α) :
    entries.sort.mapValues f = (entries.mapValues f).sort :=
  mapValues_foldl_insert f entries []

theorem isSome_get?_foldl_insert (entries sorted : Entries α) (name : String) :
    ((entries.foldl (fun sorted e => sorted.insert e.1 e.2) sorted).get? name).isSome = true ↔
      name ∈ entries.map (·.1) ∨ (sorted.get? name).isSome = true := by
  induction entries generalizing sorted with
  | nil => simp
  | cons e rest ih =>
    simp only [List.foldl_cons, ih, get?_insert, List.map_cons, List.mem_cons]
    by_cases h : name = e.1 <;> simp [h]

theorem mem_of_mem_foldl_insert {entries sorted : Entries α} {e : String × α}
    (h : e ∈ entries.foldl (fun sorted e => sorted.insert e.1 e.2) sorted) :
    e ∈ entries ∨ e ∈ sorted := by
  induction entries generalizing sorted with
  | nil => exact .inr h
  | cons first rest ih =>
    obtain hrest | hinsert := ih h
    · exact .inl (List.mem_cons_of_mem _ hrest)
    · obtain rfl | hsorted := eq_or_mem_of_mem_insert hinsert
      · exact .inl List.mem_cons_self
      · exact .inr hsorted

theorem mem_of_mem_sort {entries : Entries α} {e : String × α} (h : e ∈ entries.sort) :
    e ∈ entries := (mem_of_mem_foldl_insert h).elim id fun hnil => by cases hnil

/-- Entries with distinct names are found after sorting as before. -/
theorem get?_sort_of_nodup {entries : Entries α} (h : (entries.map (·.1)).Nodup) (name : String) :
    entries.sort.get? name = entries.get? name := by
  cases hsort : entries.sort.get? name with
  | some value => exact (get?_of_mem_of_nodup h (mem_of_mem_sort (mem_of_get? hsort))).symm
  | none =>
    cases hget : entries.get? name with
    | none => rfl
    | some value =>
      have hfound : (entries.sort.get? name).isSome = true :=
        (isSome_get?_foldl_insert entries [] name).2 (.inl (mem_keys_iff.2 (by rw [hget]; rfl)))
      rw [hsort] at hfound
      cases hfound

/-- Entries that are in order stay as they are. -/
theorem sort_eq_self {entries : Entries α} (h : entries.Sorted) : entries.sort = entries :=
  ext_get? (sorted_sort entries) h (get?_sort_of_nodup (nodup_of_sorted h))

/-- What stands under a name, in the order of the entries. -/
def under (name : String) (entries : Entries α) : List α :=
  entries.filterMap fun e => if e.1 = name then some e.2 else none

theorem under_cons (name : String) (e : String × α) (rest : Entries α) :
    under name (e :: rest) = if e.1 = name then e.2 :: under name rest else under name rest := by
  unfold under
  split <;> simp [*]

theorem get?_eq_head?_under (entries : Entries α) (name : String) :
    entries.get? name = (entries.under name).head? := by
  induction entries with
  | nil => rfl
  | cons e rest ih =>
    obtain ⟨k, v⟩ := e
    by_cases hk : k = name
    · simp [get?, under_cons, hk]
    · simp [get?, under_cons, hk, Ne.symm hk, ih]

/-- In a sorted list each name occurs once. -/
theorem length_under_le_one {entries : Entries α} (h : entries.Sorted) (name : String) :
    (entries.under name).length ≤ 1 := by
  induction entries with
  | nil => exact Nat.zero_le 1
  | cons e rest ih =>
    obtain ⟨hlt, hrest⟩ := List.pairwise_cons.1 h
    rw [under_cons]
    split
    · rename_i hname
      have hnone := get?_eq_none_of_lt (hname ▸ hlt)
      rw [get?_eq_head?_under, List.head?_eq_none_iff] at hnone
      simp [hnone]
    · exact ih hrest

theorem get?_foldl_insert (entries sorted : Entries α) (name : String) :
    (entries.foldl (fun sorted e => sorted.insert e.1 e.2) sorted).get? name =
      (entries.under name).getLast?.or (sorted.get? name) := by
  induction entries generalizing sorted with
  | nil => rfl
  | cons e rest ih =>
    obtain ⟨k, v⟩ := e
    rw [List.foldl_cons, ih, get?_insert, under_cons]
    by_cases hk : k = name
    · simp only [hk, if_true, List.getLast?_cons, Option.some_or]
      cases (under name rest).getLast? <;> rfl
    · simp [hk, Ne.symm hk]

/-- Of several entries with one name the last one counts. -/
theorem get?_sort (entries : Entries α) (name : String) :
    entries.sort.get? name = (entries.under name).getLast? :=
  (get?_foldl_insert entries [] name).trans (by simp [get?])

end Entries

namespace Dict

/-- A map is determined by its lookups. -/
theorem ext_get? {d e : Dict α} (h : ∀ name, d.get? name = e.get? name) : d = e := by
  obtain ⟨xs, hx⟩ := d
  obtain ⟨ys, hy⟩ := e
  cases Entries.ext_get? hx hy h
  rfl

theorem mem_entries_iff {d : Dict α} {name : String} {value : α} :
    (name, value) ∈ d.entries ↔ d.get? name = some value :=
  ⟨Entries.get?_of_mem d.sorted, Entries.mem_of_get?⟩

theorem mem_keys_iff {d : Dict α} {name : String} : name ∈ d.keys ↔ (d.get? name).isSome = true :=
  Entries.mem_keys_iff

/-- The names are in order, and each stands there once. -/
theorem pairwise_keys (d : Dict α) : d.keys.Pairwise (· < ·) := List.pairwise_map.2 d.sorted

@[simp] theorem get?_mapValues (f : α → β) (d : Dict α) (name : String) :
    (d.mapValues f).get? name = (d.get? name).map f :=
  Entries.get?_mapValues f d.entries name

theorem ofEntries_entries (d : Dict α) : ofEntries d.entries = d := by
  obtain ⟨entries, sorted⟩ := d
  simp [ofEntries, Entries.sort_eq_self sorted]

theorem mem_keys_ofEntries {entries : Entries α} {name : String} :
    name ∈ (ofEntries entries).keys ↔ name ∈ entries.map (·.1) := by
  rw [mem_keys_iff]
  exact (Entries.isSome_get?_foldl_insert entries [] name).trans (by simp [Entries.get?])

/-- Where maps share a name, the overlay has the value of the second one. -/
@[simp] theorem get?_overlay (d other : Dict α) (name : String) :
    (d.overlay other).get? name = (other.get? name).or (d.get? name) := by
  obtain ⟨entries, sorted⟩ := other
  unfold overlay
  change (List.foldl _ d entries).get? name = (Entries.get? entries name).or _
  induction entries generalizing d with
  | nil => simp [Entries.get?]
  | cons e rest ih =>
    obtain ⟨k, v⟩ := e
    obtain ⟨hk, hrest⟩ := List.pairwise_cons.1 sorted
    rw [List.foldl_cons, ih _ hrest, get?_insert]
    by_cases hname : name = k
    · simp [hname, Entries.get?, Entries.get?_eq_none_of_lt hk]
    · simp [hname, Entries.get?]

theorem get?_foldl_erase (d : Dict α) (names : List String) (name : String) :
    (names.foldl Dict.erase d).get? name = if names.contains name then none else d.get? name := by
  induction names generalizing d with
  | nil => rfl
  | cons first names ih =>
    rw [List.foldl_cons, ih, get?_erase, List.contains_cons]
    by_cases h : name = first <;> simp [h]

/-- The entries under some names only. -/
def restrict (d : Dict α) (p : String → Bool) : Dict α :=
  ⟨d.entries.filter fun e => p e.1, d.sorted.sublist List.filter_sublist⟩

@[simp] theorem get?_restrict (d : Dict α) (p : String → Bool) (name : String) :
    (d.restrict p).get? name = if p name then d.get? name else none :=
  Entries.get?_filter d.entries p name

theorem mapValues_overlay (f : α → β) (d other : Dict α) :
    (d.overlay other).mapValues f = (d.mapValues f).overlay (other.mapValues f) := by
  refine ext_get? fun name => ?_
  simp only [get?_mapValues, get?_overlay]
  cases other.get? name <;> rfl

/-- Equality up to an image of the values is equality of the images. -/
theorem same_iff {eq : α → α → Bool} {f : α → β} (h : ∀ a b, eq a b = true ↔ f a = f b)
    (d e : Dict α) : d.same eq e = true ↔ d.mapValues f = e.mapValues f := by
  obtain ⟨xs, hx⟩ := d
  obtain ⟨ys, hy⟩ := e
  simp only [same, size, mapValues, Bool.and_eq_true, beq_iff_eq, mk.injEq]
  clear hx hy
  induction xs generalizing ys with
  | nil => cases ys <;> simp [Entries.mapValues]
  | cons x xs ih =>
    cases ys with
    | nil => simp [Entries.mapValues]
    | cons y ys =>
      have ih := ih ys
      simp only [Entries.mapValues] at ih
      simp only [List.length_cons, Nat.add_right_cancel_iff, List.zip_cons_cons, List.all_cons,
        Bool.and_eq_true, beq_iff_eq, h, Entries.mapValues, List.map_cons, List.cons.injEq,
        Prod.mk.injEq, ← ih]
      exact and_left_comm

end Dict

end FeatureFlags
