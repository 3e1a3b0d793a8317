import ResourceQuery.Dict

/-!
# Laws of dictionaries

The entries of a dictionary ascend, so an entry is determined by its name, the first entry with a
property is the one with the least name, and collecting the entries gives the dictionary back.

## Main Definitions

- `Dict.erase`: a dictionary without the entry under a name.
- `Dict.overlay`: a dictionary with the entries of another written over its own.

## Main Statements

- `Dict.mem_entries_iff`: entries and lookups agree.
- `Dict.map_find?_entries_iff`: the first entry with a property.
- `Dict.ofList_entries`: a dictionary is collected from its entries.
- `Dict.get?_overlay`: what is written over another dictionary is found first.
-/

namespace ResourceQuery.Dict

variable {α : Type} {name other : String} {value : α}

/-! ### Entries -/

/-- **Entries and lookups agree**: under each name there is at most one entry. -/
theorem mem_entries_iff {d : Dict α} : (name, value) ∈ d.entries ↔ d.get? name = some value := by
  constructor
  · intro mem
    obtain ⟨before, after, split⟩ := List.append_of_mem mem
    refine List.lookup_eq_some_iff.mpr ⟨before, after, split, ?_⟩
    intro entry earlier
    have ascending := d.sorted
    rw [split, List.pairwise_append] at ascending
    have smaller : entry.1 < name := ascending.2.2 entry earlier _ List.mem_cons_self
    have different : name ≠ entry.1 := fun same => String.lt_irrefl name (same ▸ smaller)
    exact bne_iff_ne.mpr different
  · intro found
    obtain ⟨before, after, split, -⟩ := List.lookup_eq_some_iff.mp found
    rw [split]
    simp

/-- **The first entry with a property** is the one with the least name. -/
theorem map_find?_entries_iff {d : Dict α} {p : α → Bool} (stored : d.get? name = some value) :
    (d.entries.find? (fun entry => p entry.2)).map Prod.fst = some name
      ↔ p value = true ∧ ∀ earlier < name, ∀ v, d.get? earlier = some v → p v = false := by
  rw [Option.map_eq_some_iff]
  constructor
  · rintro ⟨⟨_, first⟩, found, rfl⟩
    cases stored.symm.trans (mem_entries_iff.mp (List.mem_of_find?_eq_some found))
    obtain ⟨holds, before, after, split, others⟩ := List.find?_eq_some_iff_append.mp found
    refine ⟨holds, fun earlier smaller v known => ?_⟩
    have ascending := d.sorted
    rw [split, List.pairwise_append, List.pairwise_cons] at ascending
    have mem := mem_entries_iff.mpr known
    rw [split, List.mem_append, List.mem_cons] at mem
    rcases mem with mem | same | mem
    · simpa using others _ mem
    · cases same
      exact absurd smaller (String.lt_irrefl _)
    · exact absurd (String.lt_trans smaller (ascending.2.1.1 _ mem)) (String.lt_irrefl _)
  · rintro ⟨holds, least⟩
    obtain ⟨before, after, split⟩ := List.append_of_mem (mem_entries_iff.mpr stored)
    refine ⟨(name, value),
      List.find?_eq_some_iff_append.mpr ⟨holds, before, after, split, ?_⟩, rfl⟩
    rintro ⟨earlier, v⟩ mem
    have ascending := d.sorted
    rw [split, List.pairwise_append] at ascending
    have smaller : earlier < name := ascending.2.2 _ mem _ List.mem_cons_self
    have known : d.get? earlier = some v := mem_entries_iff.mp (by rw [split]; simp [mem])
    simp [least earlier smaller v known]

/-! ### Erasing -/

/-- A dictionary without the entry under a name. -/
def erase (d : Dict α) (name : String) : Dict α :=
  ⟨d.entries.filter (fun entry => entry.1 ≠ name), d.sorted.filter _⟩

theorem get?_erase (d : Dict α) (name other : String) :
    (d.erase name).get? other = if other = name then none else d.get? other := by
  have same (value : α) : (d.erase name).get? other = some value
      ↔ other ≠ name ∧ d.get? other = some value := by
    rw [← mem_entries_iff, ← mem_entries_iff]
    simp [erase, and_comm]
  split
  · rename_i h
    exact Option.eq_none_iff_forall_ne_some.mpr (fun value found => ((same value).mp found).1 h)
  · rename_i h
    exact Option.ext (fun value => by rw [same value]; simp [h])

theorem mem_keys_of_mem_keys_erase {d : Dict α} (mem : other ∈ (d.erase name).keys) :
    other ∈ d.keys := by
  obtain ⟨entry, kept, rfl⟩ := List.mem_map.mp mem
  exact List.mem_map_of_mem (List.mem_filter.mp kept).1

/-! ### Collecting -/

theorem insertEntry_of_greater {entries : List (String × α)}
    (greater : ∀ entry ∈ entries, entry.1 < name) :
    insertEntry name value entries = entries ++ [(name, value)] := by
  induction entries with
  | nil => rfl
  | cons head rest ih =>
    obtain ⟨key, old⟩ := head
    rw [List.forall_mem_cons] at greater
    have after : ¬ name < key := fun less => String.lt_irrefl _ (String.lt_trans less greater.1)
    have different : name ≠ key := fun same => String.lt_irrefl key (same ▸ greater.1)
    rw [insertEntry, if_neg after, if_neg different, ih greater.2, List.cons_append]

/-- Entries that ascend are written one after the other. -/
theorem foldl_insert_entries (entries : List (String × α)) (d : Dict α)
    (ascending : (d.entries ++ entries).Pairwise (fun a b => a.1 < b.1)) :
    (entries.foldl (fun d e => d.insert e.1 e.2) d).entries = d.entries ++ entries := by
  induction entries generalizing d with
  | nil => simp
  | cons head rest ih =>
    have written : (d.insert head.1 head.2).entries = d.entries ++ [head] :=
      insertEntry_of_greater (fun entry mem =>
        (List.pairwise_append.mp ascending).2.2 entry mem head List.mem_cons_self)
    rw [List.foldl_cons, ih _ (by rw [written]; simpa using ascending), written]
    simp

/-- **A dictionary is collected from its entries.** -/
@[simp] theorem ofList_entries (d : Dict α) : ofList d.entries = d :=
  ext_entries (foldl_insert_entries d.entries empty d.sorted)

/-! ### Writing -/

theorem lookup_cons_eq_ite (key : String) (rest : List (String × α)) :
    List.lookup other ((key, value) :: rest)
      = if other = key then some value else rest.lookup other := by
  by_cases same : other = key
  · simp [same]
  · simp [List.lookup_cons, beq_false_of_ne same, same]

theorem lookup_insertEntry (entries : List (String × α)) :
    (insertEntry name value entries).lookup other
      = if other = name then some value else entries.lookup other := by
  induction entries with
  | nil => exact lookup_cons_eq_ite name []
  | cons head rest ih =>
    obtain ⟨key, old⟩ := head
    unfold insertEntry
    split
    · rw [lookup_cons_eq_ite]
    · split
      · rename_i replaced
        subst replaced
        rw [lookup_cons_eq_ite, lookup_cons_eq_ite]
        split <;> rfl
      · rename_i different
        rw [lookup_cons_eq_ite, lookup_cons_eq_ite, ih]
        by_cases same : other = key
        · simp [same, Ne.symm different]
        · simp [same]

theorem get?_insert (d : Dict α) (name other : String) (value : α) :
    (d.insert name value).get? other = if other = name then some value else d.get? other :=
  lookup_insertEntry d.entries

/-- A dictionary with the entries of another written over its own. -/
def overlay (d written : Dict α) : Dict α :=
  written.entries.foldl (fun d e => d.insert e.1 e.2) d

/-- **What is written over a dictionary is found first.** -/
theorem get?_overlay (d written : Dict α) (name : String) :
    (d.overlay written).get? name = (written.get? name).or (d.get? name) := by
  obtain ⟨entries, ascending⟩ := written
  unfold overlay
  change _ = (entries.lookup name).or _
  induction entries generalizing d with
  | nil => rfl
  | cons head rest ih =>
    obtain ⟨key, value⟩ := head
    rw [List.pairwise_cons] at ascending
    rw [List.foldl_cons, ih (d.insert key value) ascending.2, get?_insert, lookup_cons_eq_ite]
    by_cases same : name = key
    · -- No later entry has the same name, so the value just written stays.
      have absent : rest.lookup key = none :=
        List.lookup_eq_none_iff.mpr fun entry mem => bne_iff_ne.mpr fun again =>
          String.lt_irrefl key (again ▸ ascending.1 entry mem)
      simp [same, absent]
    · simp [same]

end ResourceQuery.Dict
