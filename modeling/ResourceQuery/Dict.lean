/-!
# Sorted dictionaries

A dictionary from names to values whose entries are kept in ascending order of their names.  Every
collection of named things in a schema or a snapshot is one, so two dictionaries with the same
content are equal and a walk over the entries always meets them in the same order.

## Main Definitions

- `Dict`: entries in strictly ascending order of their names.
- `Dict.get?`, `Dict.insert`, `Dict.ofList`: looking up, writing and collecting entries.

## Design Notes

Names are compared character by character, which is also the order of their encoded bytes.
-/

namespace ResourceQuery

universe u v

/-- A finite map from names to values, listed in strictly ascending order of the names. -/
structure Dict (α : Type u) where
  /-- The entries in ascending order. -/
  entries : List (String × α)
  /-- No name is listed twice, and the names ascend. -/
  sorted : entries.Pairwise (fun a b => a.1 < b.1)

namespace Dict

variable {α : Type u} {β : Type v}

theorem ext_entries {d e : Dict α} (h : d.entries = e.entries) : d = e := by
  cases d; cases e; simp_all

instance [DecidableEq α] : DecidableEq (Dict α) := fun d e =>
  if h : d.entries = e.entries then isTrue (ext_entries h)
  else isFalse (fun hde => h (hde ▸ rfl))

/-- The dictionary without entries. -/
def empty : Dict α := ⟨[], List.Pairwise.nil⟩

instance : Inhabited (Dict α) := ⟨empty⟩

instance : EmptyCollection (Dict α) := ⟨empty⟩

/-! ### Reading -/

/-- The value listed under a name. -/
def get? (d : Dict α) (name : String) : Option α :=
  d.entries.lookup name

/-- Is there an entry under this name. -/
def contains (d : Dict α) (name : String) : Bool :=
  (d.get? name).isSome

/-- The names in ascending order. -/
def keys (d : Dict α) : List String :=
  d.entries.map Prod.fst

/-- Does the dictionary have no entries. -/
def isEmpty (d : Dict α) : Bool :=
  d.entries.isEmpty

/-! ### Writing -/

/-- Write an entry into an ascending list, replacing the one of the same name. -/
def insertEntry (name : String) (value : α) : List (String × α) → List (String × α)
  | [] => [(name, value)]
  | (key, old) :: rest =>
    if name < key then (name, value) :: (key, old) :: rest
    else if name = key then (name, value) :: rest
    else (key, old) :: insertEntry name value rest

theorem fst_of_mem_insertEntry {name : String} {value : α} {entries : List (String × α)}
    {e : String × α} (h : e ∈ insertEntry name value entries) :
    e.1 = name ∨ e ∈ entries := by
  induction entries with
  | nil => simp_all [insertEntry]
  | cons head rest ih =>
    obtain ⟨key, old⟩ := head
    unfold insertEntry at h
    split at h
    · simp only [List.mem_cons] at h ⊢
      rcases h with rfl | h | h <;> simp_all
    · split at h
      · simp only [List.mem_cons] at h ⊢
        rcases h with rfl | h <;> simp_all
      · simp only [List.mem_cons] at h ⊢
        rcases h with rfl | h
        · simp
        · rcases ih h with h | h <;> simp_all

theorem pairwise_insertEntry {name : String} {value : α} {entries : List (String × α)}
    (h : entries.Pairwise (fun a b => a.1 < b.1)) :
    (insertEntry name value entries).Pairwise (fun a b => a.1 < b.1) := by
  induction entries with
  | nil => simp [insertEntry]
  | cons head rest ih =>
    obtain ⟨key, old⟩ := head
    rw [List.pairwise_cons] at h
    unfold insertEntry
    split
    · rename_i hlt
      refine List.pairwise_cons.mpr ⟨fun e he => ?_, List.pairwise_cons.mpr h⟩
      rcases List.mem_cons.mp he with rfl | he
      · exact hlt
      · exact String.lt_trans hlt (h.1 e he)
    · split
      · rename_i heq
        subst heq
        exact List.pairwise_cons.mpr h
      · rename_i hle hne
        refine List.pairwise_cons.mpr ⟨fun e he => ?_, ih h.2⟩
        rcases fst_of_mem_insertEntry he with heq | he
        · show key < e.1
          rw [heq]
          exact Std.lt_of_le_of_ne (Std.not_lt.mp hle) (fun hkey => hne hkey.symm)
        · exact h.1 e he

/-- Write an entry, replacing the one of the same name. -/
def insert (d : Dict α) (name : String) (value : α) : Dict α :=
  ⟨insertEntry name value d.entries, pairwise_insertEntry d.sorted⟩

/-- Collect entries written one after the other: of two with the same name the later stays. -/
def ofList (entries : List (String × α)) : Dict α :=
  entries.foldl (fun d e => d.insert e.1 e.2) empty

/-- Apply a function to every value. -/
def map (f : α → β) (d : Dict α) : Dict β :=
  ⟨d.entries.map (fun e => (e.1, f e.2)), by
    rw [List.pairwise_map]
    exact d.sorted⟩

end Dict

end ResourceQuery
