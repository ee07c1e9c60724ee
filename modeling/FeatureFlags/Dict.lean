/-!
# Finite maps keyed by texts

`Entries` are pairs of a name and a value in a list; `Entries.insert` keeps a list sorted by name.
A `Dict` is a sorted list of entries with distinct names, so it is determined by its lookups, and
going through it visits the names in the order of their characters, which is also the order of
their UTF-8 bytes.
-/

namespace FeatureFlags

/-- Names with values, in a list. -/
abbrev Entries (α : Type) := List (String × α)

namespace Entries

variable {α β : Type}

/-- In the order of their names, each name once. -/
def Sorted (entries : Entries α) : Prop := entries.Pairwise fun a b => a.1 < b.1

instance (entries : Entries α) : Decidable entries.Sorted :=
  inferInstanceAs (Decidable (entries.Pairwise _))

/-- The value of the first entry with the given name. -/
def get? (entries : Entries α) (name : String) : Option α :=
  match entries with
  | [] => none
  | (k, v) :: rest => if name = k then some v else get? rest name

/-- Puts an entry at its place, instead of one with the same name. -/
def insert (entries : Entries α) (name : String) (value : α) : Entries α :=
  match entries with
  | [] => [(name, value)]
  | (k, v) :: rest =>
    if name < k then (name, value) :: (k, v) :: rest
    else if name = k then (name, value) :: rest
    else (k, v) :: insert rest name value

/-- Drops the entries with the given name. -/
def erase (entries : Entries α) (name : String) : Entries α :=
  entries.filter fun e => e.1 != name

/-- The entries in the order of their names; of two with one name the last one counts. -/
def sort (entries : Entries α) : Entries α :=
  entries.foldl (fun sorted e => sorted.insert e.1 e.2) []

/-- The entries with their values replaced, under the same names. -/
def mapValues (f : α → β) (entries : Entries α) : Entries β := entries.map fun e => (e.1, f e.2)

theorem eq_or_mem_of_mem_insert {entries : Entries α} {name : String} {value : α}
    {e : String × α} (h : e ∈ entries.insert name value) :
    e = (name, value) ∨ e ∈ entries := by
  induction entries with
  | nil => simpa [insert] using h
  | cons entry rest ih =>
    obtain ⟨k, v⟩ := entry
    unfold insert at h
    split at h
    · simpa using h
    · split at h
      · rcases List.mem_cons.1 h with h | h
        · exact .inl h
        · exact .inr (List.mem_cons_of_mem _ h)
      · rcases List.mem_cons.1 h with h | h
        · exact .inr (List.mem_cons.2 (.inl h))
        · exact (ih h).imp id (List.mem_cons_of_mem _)

theorem sorted_insert {entries : Entries α} (h : entries.Sorted) (name : String) (value : α) :
    (entries.insert name value).Sorted := by
  induction entries with
  | nil => exact List.pairwise_singleton _ _
  | cons entry rest ih =>
    obtain ⟨k, v⟩ := entry
    obtain ⟨hk, hrest⟩ := List.pairwise_cons.1 h
    unfold insert
    split
    · rename_i hlt
      refine List.pairwise_cons.2 ⟨fun e he => ?_, h⟩
      rcases List.mem_cons.1 he with rfl | he
      · exact hlt
      · exact String.lt_trans hlt (hk e he)
    · rename_i hlt
      split
      · rename_i heq
        exact List.pairwise_cons.2 ⟨fun e he => heq ▸ hk e he, hrest⟩
      · rename_i hne
        refine List.pairwise_cons.2 ⟨fun e he => ?_, ih hrest⟩
        rcases eq_or_mem_of_mem_insert he with rfl | he
        · exact Std.lt_of_le_of_ne (String.not_lt.1 hlt) (Ne.symm hne)
        · exact hk e he

theorem sorted_foldl_insert {entries sorted : Entries α} (h : sorted.Sorted) :
    (entries.foldl (fun sorted e => sorted.insert e.1 e.2) sorted).Sorted := by
  induction entries generalizing sorted with
  | nil => exact h
  | cons e rest ih => exact ih (sorted_insert h e.1 e.2)

theorem sorted_sort (entries : Entries α) : entries.sort.Sorted :=
  sorted_foldl_insert List.Pairwise.nil

theorem sorted_erase {entries : Entries α} (h : entries.Sorted) (name : String) :
    (entries.erase name).Sorted :=
  h.sublist List.filter_sublist

theorem sorted_mapValues {entries : Entries α} (h : entries.Sorted) (f : α → β) :
    (entries.mapValues f).Sorted :=
  List.pairwise_map.2 h

@[simp] theorem get?_insert (entries : Entries α) (name other : String) (value : α) :
    (entries.insert name value).get? other =
      if other = name then some value else entries.get? other := by
  induction entries with
  | nil => rfl
  | cons entry rest ih =>
    obtain ⟨k, v⟩ := entry
    unfold insert
    split
    · rfl
    · split
      · rename_i heq
        subst heq
        by_cases h : other = name <;> simp [get?, h]
      · rename_i hne
        by_cases h : other = k
        · subst h
          simp [get?, Ne.symm hne]
        · simp [get?, h, ih]

@[simp] theorem get?_erase (entries : Entries α) (name other : String) :
    (entries.erase name).get? other = if other = name then none else entries.get? other := by
  induction entries with
  | nil => simp [erase, get?]
  | cons entry rest ih =>
    obtain ⟨k, v⟩ := entry
    unfold erase at ih ⊢
    by_cases hk : k = name
    · subst hk
      rw [List.filter_cons_of_neg (by simp), ih]
      by_cases h : other = k <;> simp [get?, h]
    · rw [List.filter_cons_of_pos (by simpa using hk)]
      by_cases h : other = k
      · subst h
        simp [get?, hk]
      · simp [get?, h, ih]

end Entries

/-- A finite map keyed by texts. -/
structure Dict (α : Type) where
  entries : Entries α
  sorted : entries.Sorted

namespace Dict

variable {α β : Type}

/-- No entries. -/
def empty : Dict α := ⟨[], List.Pairwise.nil⟩

instance : EmptyCollection (Dict α) := ⟨empty⟩

instance : Inhabited (Dict α) := ⟨empty⟩

instance [DecidableEq α] : DecidableEq (Dict α) := fun d e =>
  decidable_of_iff (d.entries = e.entries)
    ⟨fun h => by cases d; cases e; cases h; rfl, fun h => h ▸ rfl⟩

/-- The value under a name. -/
def get? (d : Dict α) (name : String) : Option α := d.entries.get? name

def contains (d : Dict α) (name : String) : Bool := (d.get? name).isSome

/-- Puts a value under a name. -/
def insert (d : Dict α) (name : String) (value : α) : Dict α :=
  ⟨d.entries.insert name value, Entries.sorted_insert d.sorted name value⟩

/-- Removes what is under a name. -/
def erase (d : Dict α) (name : String) : Dict α :=
  ⟨d.entries.erase name, Entries.sorted_erase d.sorted name⟩

/-- The map with the given entries; of two with one name the last one counts. -/
def ofEntries (entries : Entries α) : Dict α := ⟨entries.sort, Entries.sorted_sort entries⟩

/-- The entries of both maps, those of `other` where they share a name. -/
def overlay (d other : Dict α) : Dict α :=
  other.entries.foldl (fun d e => d.insert e.1 e.2) d

/-- The map with its values replaced. -/
def mapValues (f : α → β) (d : Dict α) : Dict β :=
  ⟨d.entries.mapValues f, Entries.sorted_mapValues d.sorted f⟩

/-- The names in their order. -/
def keys (d : Dict α) : List String := d.entries.map (·.1)

/-- The values in the order of their names. -/
def values (d : Dict α) : List α := d.entries.map (·.2)

def size (d : Dict α) : Nat := d.entries.length

def isEmpty (d : Dict α) : Bool := d.entries.isEmpty

/-- Equality up to an equality of values. -/
def same (eq : α → α → Bool) (d e : Dict α) : Bool :=
  d.size == e.size && (d.entries.zip e.entries).all fun (a, b) => a.1 == b.1 && eq a.2 b.2

@[simp] theorem get?_insert (d : Dict α) (name other : String) (value : α) :
    (d.insert name value).get? other = if other = name then some value else d.get? other :=
  Entries.get?_insert _ _ _ _

@[simp] theorem get?_erase (d : Dict α) (name other : String) :
    (d.erase name).get? other = if other = name then none else d.get? other :=
  Entries.get?_erase _ _ _

@[simp] theorem get?_empty (name : String) : (∅ : Dict α).get? name = none := rfl

end Dict

end FeatureFlags
