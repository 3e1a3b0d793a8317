import Mathlib.Data.List.Nodup
import Mathlib.Data.List.Perm.Subperm
import ResourceQuery.Compile.PushDown

/-!
# Free names

A column whose name is taken gets a number behind its name, the least that makes the name a free
one.  Names that end in digits themselves may be in the way, but only finitely many names are
taken, and different numbers make different names.

## Main Definitions

- `Compile.nameInEffect`: the name that a column has after a possible renaming.
- `Compile.namesInEffect`: the names that columns get one after the other.

## Main Statements

- `Compile.length_of_numbered_taken`: as many numbers are taken as there are taken names, at most.
- `Compile.freeName_not_mem`: as many tries as there are taken names always find a free one.
- `Compile.nodup_namesInEffect`: names given one after the other are new and different.
- `Compile.uniqueName_least_free`: what a name becomes, what is taken afterwards, and what follows
  for any sequence of names.
-/

namespace ResourceQuery.Compile

variable {taken : List String} {name : String}

/-! ### Numbers behind a name -/

/-- Numbers tell names apart. -/
theorem numbered_injective (name : String) : Function.Injective (fun i => name ++ natText i) := by
  intro i j same
  exact natText_injective (by simpa using same)

theorem natText_ne_empty (n : Nat) : natText n ≠ "" := by
  intro empty
  have digits : (natText n).toList = [] := by rw [empty]; rfl
  rw [natText, String.toList_ofList] at digits
  exact Nat.toDigits_ne_nil digits

/-- A number makes a name a different one. -/
theorem numbered_ne (name : String) (n : Nat) : name ++ natText n ≠ name := by
  simpa using natText_ne_empty n

/-- **Each number that is taken uses up a taken name.** -/
theorem length_of_numbered_taken {n : Nat} (used : ∀ i < n, name ++ natText i ∈ taken) :
    n ≤ taken.length := by
  have distinct : ((List.range n).map (fun i => name ++ natText i)).Nodup :=
    List.nodup_range.map (numbered_injective name)
  have sub : (List.range n).map (fun i => name ++ natText i) ⊆ taken := by
    intro other mem
    obtain ⟨i, hi, rfl⟩ := List.mem_map.mp mem
    exact used i (List.mem_range.mp hi)
  have fewer := (List.subperm_of_subset distinct sub).length_le
  simpa using fewer

/-- The name itself is taken besides. -/
theorem lt_length_of_numbered_taken {n : Nat} (mem : name ∈ taken)
    (used : ∀ i < n, name ++ natText i ∈ taken) : n < taken.length := by
  have others : ∀ i < n, name ++ natText i ∈ taken.erase name :=
    fun i lt => (List.mem_erase_of_ne (numbered_ne name i)).mpr (used i lt)
  have fewer := length_of_numbered_taken others
  rw [List.length_erase_of_mem mem] at fewer
  have := List.length_pos_of_mem mem
  omega

/-! ### The least free number -/

/-- If even the name found last is taken, then so is every name that was tried. -/
theorem mem_of_freeName_mem {tries suffix : Nat}
    (h : freeName taken name tries suffix ∈ taken) :
    ∀ i, suffix ≤ i → i ≤ suffix + tries → name ++ natText i ∈ taken := by
  induction tries generalizing suffix with
  | zero =>
    intro i le le'
    obtain rfl : i = suffix := by omega
    exact h
  | succ tries ih =>
    unfold freeName at h
    split at h
    · rename_i first
      intro i le le'
      by_cases same : i = suffix
      · rw [same]
        exact first
      · exact ih h i (by omega) (by omega)
    · contradiction

/-- The name that is found has a number, and the numbers before it are taken. -/
theorem exists_freeName_eq (taken : List String) (name : String) (tries suffix : Nat) :
    ∃ i, freeName taken name tries suffix = name ++ natText i
      ∧ ∀ k, suffix ≤ k → k < i → name ++ natText k ∈ taken := by
  induction tries generalizing suffix with
  | zero => exact ⟨suffix, rfl, fun k le lt => by omega⟩
  | succ tries ih =>
    unfold freeName
    split
    · rename_i first
      obtain ⟨i, found, before⟩ := ih (suffix + 1)
      refine ⟨i, found, fun k le lt => ?_⟩
      rcases Nat.eq_or_lt_of_le le with rfl | later
      · exact first
      · exact before k later lt
    · exact ⟨suffix, rfl, fun k le lt => by omega⟩

/-- **A free name is found**: one more name is tried than there are taken ones. -/
theorem freeName_not_mem (taken : List String) (name : String) :
    freeName taken name taken.length 0 ∉ taken := by
  intro h
  have tried := mem_of_freeName_mem h
  have fewer := @length_of_numbered_taken taken name (taken.length + 1)
    fun i lt => tried i (Nat.zero_le _) (by omega)
  omega

/-- **A name has its least free number.** -/
structure LeastFree (taken : List String) (name new : String) (suffix : Nat) : Prop where
  numbered : new = name ++ natText suffix
  free : new ∉ taken
  least : ∀ i < suffix, name ++ natText i ∈ taken

theorem exists_leastFree (taken : List String) (name : String) :
    ∃ suffix, LeastFree taken name (freeName taken name taken.length 0) suffix := by
  obtain ⟨i, found, before⟩ := exists_freeName_eq taken name taken.length 0
  exact ⟨i, found, freeName_not_mem taken name, fun k lt => before k (Nat.zero_le _) lt⟩

/-- There is only one least free number. -/
theorem LeastFree.unique {new new' : String} {i j : Nat} (h : LeastFree taken name new i)
    (h' : LeastFree taken name new' j) : new = new' := by
  obtain ⟨rfl, free, least⟩ := h
  obtain ⟨rfl, free', least'⟩ := h'
  rcases Nat.lt_trichotomy i j with lt | rfl | lt
  · exact absurd (least' i lt) free
  · rfl
  · exact absurd (least j lt) free'

/-! ### Names given one after the other -/

/-- **The name that a column has after a possible renaming.** -/
def nameInEffect (taken : List String) (name : String) : String :=
  (uniqueName taken name).1.getD name

/-- **The names that columns get one after the other**, each of which is taken from then on. -/
def namesInEffect (taken : List String) : List String → List String
  | [] => []
  | name :: rest => nameInEffect taken name :: namesInEffect (uniqueName taken name).2 rest

theorem uniqueName_of_mem (mem : name ∈ taken) :
    uniqueName taken name
      = (some (freeName taken name taken.length 0),
        freeName taken name taken.length 0 :: taken) := by
  rw [uniqueName, if_pos mem]

theorem uniqueName_of_not_mem (free : name ∉ taken) :
    uniqueName taken name = (none, name :: taken) := by
  rw [uniqueName, if_neg free]

/-- The name that a column gets is not taken, and is taken from then on. -/
theorem uniqueName_spec (taken : List String) (name : String) :
    nameInEffect taken name ∉ taken
      ∧ (uniqueName taken name).2 = nameInEffect taken name :: taken := by
  unfold nameInEffect
  by_cases mem : name ∈ taken
  · rw [uniqueName_of_mem mem]
    exact ⟨freeName_not_mem taken name, rfl⟩
  · rw [uniqueName_of_not_mem mem]
    exact ⟨mem, rfl⟩

/-- **Names given one after the other are new and different.** -/
theorem nodup_namesInEffect (taken names : List String) :
    (namesInEffect taken names).Nodup ∧ ∀ name ∈ namesInEffect taken names, name ∉ taken := by
  induction names generalizing taken with
  | nil => exact ⟨List.nodup_nil, nofun⟩
  | cons name rest ih =>
    obtain ⟨free, next⟩ := uniqueName_spec taken name
    rw [namesInEffect, next]
    obtain ⟨distinct, new⟩ := ih (nameInEffect taken name :: taken)
    refine ⟨List.nodup_cons.mpr ⟨fun mem => new _ mem List.mem_cons_self, distinct⟩, ?_⟩
    intro other mem
    rcases List.mem_cons.mp mem with rfl | mem
    · exact free
    · exact fun known => new other mem (List.mem_cons_of_mem _ known)

/-- **A name is kept if it is free and otherwise gets its least free number**, which is less than
the number of taken names.  Exactly the name in effect is taken besides, so names given one after
the other are different from each other and from all names taken before. -/
theorem uniqueName_least_free (taken : List String) (name : String) :
    ((uniqueName taken name).1 = none ↔ name ∉ taken)
      ∧ (∀ new, (uniqueName taken name).1 = some new
        ↔ name ∈ taken ∧ ∃ suffix < taken.length, LeastFree taken name new suffix)
      ∧ (∀ other, other ∈ (uniqueName taken name).2
        ↔ other = nameInEffect taken name ∨ other ∈ taken)
      ∧ ∀ names, (namesInEffect taken names).Nodup
        ∧ ∀ other ∈ namesInEffect taken names, other ∉ taken := by
  refine ⟨?_, fun new => ?_, fun other => ?_, nodup_namesInEffect taken⟩
  · by_cases mem : name ∈ taken
    · simp [uniqueName_of_mem mem, mem]
    · simp [uniqueName_of_not_mem mem, mem]
  · by_cases mem : name ∈ taken
    · obtain ⟨i, found⟩ := exists_leastFree taken name
      rw [uniqueName_of_mem mem, Option.some.injEq]
      constructor
      · rintro rfl
        exact ⟨mem, i, lt_length_of_numbered_taken mem found.least, found⟩
      · rintro ⟨-, j, -, least⟩
        exact found.unique least
    · simp [uniqueName_of_not_mem mem, mem]
  · rw [(uniqueName_spec taken name).2, List.mem_cons]

example : namesInEffect ["Id", "Name"] ["Id", "Id0", "Id", "Id00", "Title"]
    = ["Id0", "Id00", "Id1", "Id000", "Title"] := by
  decide +kernel

end ResourceQuery.Compile
