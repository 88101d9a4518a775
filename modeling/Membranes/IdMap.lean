import Membranes.MembraneId

/-!
# Maps from identifiers

`IdMap α` is a finite map from membrane identifiers, kept as a list of entries in ascending order of the
identifiers. That the order is strict is part of the type, so every identifier occurs once, `find?` sees
the whole map (`IdMap.ext_find?`), and walking over a map is walking in the order of creation.

The laws that other modules use describe each operation by what `find?` returns after it:
`find?_empty`, `find?_insert` and `find?_erase`.
-/

namespace Membranes

namespace MembraneId

theorem lt_iff_toNat_lt {a b : MembraneId} : a < b ↔ a.value.toNat < b.value.toNat :=
  UInt32.lt_iff_toNat_lt

theorem eq_iff_toNat_eq {a b : MembraneId} : a = b ↔ a.value.toNat = b.value.toNat := by
  cases a
  cases b
  simp [UInt32.toNat_inj]

theorem lt_trans {a b c : MembraneId} (hab : a < b) (hbc : b < c) : a < c := by
  rw [lt_iff_toNat_lt] at *
  omega

theorem ne_of_lt {a b : MembraneId} (h : a < b) : a ≠ b := by
  rw [lt_iff_toNat_lt] at h
  rw [Ne, eq_iff_toNat_eq]
  omega

theorem lt_of_not_lt_of_ne {a b : MembraneId} (h : ¬ a < b) (hne : a ≠ b) : b < a := by
  rw [lt_iff_toNat_lt] at *
  rw [Ne, eq_iff_toNat_eq] at hne
  omega

end MembraneId

/-- A finite map from membrane identifiers. -/
structure IdMap (α : Type) where
  /-- The entries in ascending order. -/
  entries : List (MembraneId × α)
  /-- Every identifier is smaller than those behind it. -/
  ascending : entries.Pairwise fun a b => a.1 < b.1
deriving DecidableEq

namespace IdMap

variable {α : Type}

/-! ### Operations -/

/-- The map without entries. -/
def empty : IdMap α := ⟨[], .nil⟩

instance : Inhabited (IdMap α) := ⟨empty⟩

/-- The number of entries. -/
def size (map : IdMap α) : Nat := map.entries.length

/-- The identifiers in ascending order. -/
def ids (map : IdMap α) : List MembraneId := map.entries.map (·.1)

/-- The values in ascending order of their identifiers. -/
def values (map : IdMap α) : List α := map.entries.map (·.2)

/-- The value of the first entry for an identifier. -/
def valueIn (id : MembraneId) : List (MembraneId × α) → Option α
  | [] => none
  | entry :: entries => if id = entry.1 then some entry.2 else valueIn id entries

/-- The value under an identifier. -/
def find? (map : IdMap α) (id : MembraneId) : Option α := valueIn id map.entries

/-- Whether there is a value under an identifier. -/
def contains (map : IdMap α) (id : MembraneId) : Bool := (map.find? id).isSome

/-- Entries with one more at its place, or with the one under the same identifier replaced. -/
def insertEntry (id : MembraneId) (value : α) : List (MembraneId × α) → List (MembraneId × α)
  | [] => [(id, value)]
  | entry :: entries =>
    if id < entry.1 then (id, value) :: entry :: entries
    else if id = entry.1 then (id, value) :: entries
    else entry :: insertEntry id value entries

theorem mem_insertEntry {id : MembraneId} {value : α} {entries : List (MembraneId × α)}
    {entry : MembraneId × α} (h : entry ∈ insertEntry id value entries) :
    entry = (id, value) ∨ entry ∈ entries := by
  induction entries with
  | nil => simpa [insertEntry] using h
  | cons first entries ih =>
    simp only [insertEntry] at h
    split at h
    · simpa using h
    · split at h
      · rcases List.mem_cons.mp h with h | h
        · exact .inl h
        · exact .inr (List.mem_cons_of_mem _ h)
      · rcases List.mem_cons.mp h with h | h
        · exact .inr (h ▸ List.mem_cons_self)
        · exact (ih h).imp_right (List.mem_cons_of_mem _)

theorem insertEntry_ascending {id : MembraneId} {value : α} {entries : List (MembraneId × α)}
    (h : entries.Pairwise fun a b => a.1 < b.1) :
    (insertEntry id value entries).Pairwise fun a b => a.1 < b.1 := by
  induction entries with
  | nil => simp [insertEntry]
  | cons first entries ih =>
    obtain ⟨hfirst, hrest⟩ := List.pairwise_cons.mp h
    simp only [insertEntry]
    split
    · rename_i hlt
      refine List.pairwise_cons.mpr ⟨?_, h⟩
      intro entry hentry
      rcases List.mem_cons.mp hentry with rfl | hentry
      · exact hlt
      · exact MembraneId.lt_trans hlt (hfirst entry hentry)
    · rename_i hnlt
      split
      · rename_i heq
        exact List.pairwise_cons.mpr ⟨fun entry hentry => heq ▸ hfirst entry hentry, hrest⟩
      · rename_i hne
        refine List.pairwise_cons.mpr ⟨?_, ih hrest⟩
        intro entry hentry
        rcases mem_insertEntry hentry with rfl | hentry
        · exact MembraneId.lt_of_not_lt_of_ne hnlt hne
        · exact hfirst entry hentry

/-- The map with a value under an identifier, in place of the one that may be there. -/
def insert (map : IdMap α) (id : MembraneId) (value : α) : IdMap α :=
  ⟨insertEntry id value map.entries, insertEntry_ascending map.ascending⟩

/-- The map without an identifier. -/
def erase (map : IdMap α) (id : MembraneId) : IdMap α :=
  ⟨map.entries.filter fun entry => entry.1 ≠ id, map.ascending.filter _⟩

/-! ### What `find?` returns -/

@[simp]
theorem find?_empty (id : MembraneId) : (empty : IdMap α).find? id = none := rfl

theorem valueIn_insertEntry (id : MembraneId) (value : α) (entries : List (MembraneId × α))
    (other : MembraneId) :
    valueIn other (insertEntry id value entries) =
      if other = id then some value else valueIn other entries := by
  induction entries with
  | nil => rfl
  | cons first entries ih =>
    simp only [insertEntry]
    split
    · rfl
    · split
      · rename_i heq
        simp only [valueIn]
        split <;> rename_i h
        · rfl
        · rw [if_neg (heq ▸ h)]
      · rename_i hne
        simp only [valueIn, ih]
        split <;> rename_i h
        · rw [if_neg fun e : other = id => hne (e ▸ h)]
        · rfl

/-- Inserting changes what is under one identifier. -/
theorem find?_insert (map : IdMap α) (id : MembraneId) (value : α) (other : MembraneId) :
    (map.insert id value).find? other = if other = id then some value else map.find? other :=
  valueIn_insertEntry id value map.entries other

theorem valueIn_filter (id : MembraneId) (entries : List (MembraneId × α)) (other : MembraneId) :
    valueIn other (entries.filter fun entry => entry.1 ≠ id) =
      if other = id then none else valueIn other entries := by
  induction entries with
  | nil => simp [valueIn]
  | cons first entries ih =>
    by_cases hfirst : first.1 = id
    · rw [List.filter_cons_of_neg (by simpa using hfirst), ih]
      simp only [valueIn, hfirst]
      split <;> rfl
    · rw [List.filter_cons_of_pos (by simpa using hfirst)]
      simp only [valueIn, ih]
      split <;> rename_i h
      · rw [if_neg fun e => hfirst (h ▸ e)]
      · rfl

/-- Erasing leaves nothing under one identifier and all else as it was. -/
theorem find?_erase (map : IdMap α) (id other : MembraneId) :
    (map.erase id).find? other = if other = id then none else map.find? other :=
  valueIn_filter id map.entries other

/-! ### Maps are determined by `find?` -/

theorem valueIn_eq_some_of_mem {entries : List (MembraneId × α)}
    (h : entries.Pairwise fun a b => a.1 < b.1) {entry : MembraneId × α} (hmem : entry ∈ entries) :
    valueIn entry.1 entries = some entry.2 := by
  induction entries with
  | nil => simp at hmem
  | cons first entries ih =>
    obtain ⟨hfirst, hrest⟩ := List.pairwise_cons.mp h
    rcases List.mem_cons.mp hmem with rfl | hmem
    · simp [valueIn]
    · have hne := (MembraneId.ne_of_lt (hfirst entry hmem)).symm
      simp [valueIn, hne, ih hrest hmem]

theorem mem_of_valueIn {id : MembraneId} {value : α} {entries : List (MembraneId × α)}
    (h : valueIn id entries = some value) : (id, value) ∈ entries := by
  induction entries with
  | nil => simp [valueIn] at h
  | cons first entries ih =>
    simp only [valueIn] at h
    split at h
    · rename_i heq
      obtain rfl : first.2 = value := by simpa using h
      exact heq ▸ List.mem_cons_self
    · exact List.mem_cons_of_mem _ (ih h)

/-- **The entries are exactly what `find?` finds.** -/
theorem mem_entries_iff {map : IdMap α} {id : MembraneId} {value : α} :
    (id, value) ∈ map.entries ↔ map.find? id = some value :=
  ⟨valueIn_eq_some_of_mem map.ascending, mem_of_valueIn⟩

/-- An identifier is listed exactly when there is a value under it. -/
theorem mem_ids_iff {map : IdMap α} {id : MembraneId} :
    id ∈ map.ids ↔ (map.find? id).isSome := by
  rw [Option.isSome_iff_exists]
  constructor
  · intro h
    obtain ⟨entry, hmem, rfl⟩ := List.mem_map.mp h
    exact ⟨entry.2, mem_entries_iff.mp hmem⟩
  · rintro ⟨value, h⟩
    exact List.mem_map.mpr ⟨(id, value), mem_entries_iff.mpr h, rfl⟩

theorem ids_ascending (map : IdMap α) : map.ids.Pairwise (· < ·) :=
  List.pairwise_map.mpr map.ascending

theorem entries_eq {xs ys : List (MembraneId × α)}
    (hx : xs.Pairwise fun a b => a.1 < b.1) (hy : ys.Pairwise fun a b => a.1 < b.1)
    (h : ∀ entry, entry ∈ xs ↔ entry ∈ ys) : xs = ys := by
  induction xs generalizing ys with
  | nil =>
    refine (List.eq_nil_iff_forall_not_mem.mpr fun entry hentry => ?_).symm
    simpa using (h entry).mpr hentry
  | cons x xs ih =>
    obtain ⟨hx', hxs⟩ := List.pairwise_cons.mp hx
    cases ys with
    | nil => simpa using (h x).mp List.mem_cons_self
    | cons y ys =>
      obtain ⟨hy', hys⟩ := List.pairwise_cons.mp hy
      have heq : x = y := by
        rcases List.mem_cons.mp ((h x).mp List.mem_cons_self) with heq | hmem
        · exact heq
        · rcases List.mem_cons.mp ((h y).mpr List.mem_cons_self) with heq | hmem'
          · exact heq.symm
          · exact absurd rfl (MembraneId.ne_of_lt (MembraneId.lt_trans (hx' y hmem') (hy' x hmem)))
      subst heq
      congr 1
      refine ih hxs hys fun entry => ⟨fun hentry => ?_, fun hentry => ?_⟩
      · rcases List.mem_cons.mp ((h entry).mp (List.mem_cons_of_mem _ hentry)) with rfl | hmem
        · exact absurd rfl (MembraneId.ne_of_lt (hx' entry hentry))
        · exact hmem
      · rcases List.mem_cons.mp ((h entry).mpr (List.mem_cons_of_mem _ hentry)) with rfl | hmem
        · exact absurd rfl (MembraneId.ne_of_lt (hy' entry hentry))
        · exact hmem

/-- **Two maps with the same values under all identifiers are equal.** -/
theorem ext_find? {a b : IdMap α} (h : ∀ id, a.find? id = b.find? id) : a = b := by
  have hentries : a.entries = b.entries := entries_eq a.ascending b.ascending fun entry => by
    rw [mem_entries_iff, mem_entries_iff, h entry.1]
  cases a
  cases b
  simpa using hentries

end IdMap

end Membranes
