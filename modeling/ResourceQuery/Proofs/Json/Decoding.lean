import ResourceQuery.Json.Reading
import ResourceQuery.Proofs.Dict

/-!
# Readers that undo writers

What is written as a document is taken apart again part by part.  If the parts are read back, so
are lists, dictionaries and options of them.

## Main Definitions

- `Json.ReadsBack`: a reader of values undoes a writer.
- `Json.Reading.ReadsBack`: the same for a reader of what a text spells.

## Main Statements

- `Json.readsBack_int64`, `Json.readsBack_uint64`, `Json.readsBack_uint32`: integers.
- `Json.ReadsBack.list`, `Json.ReadsBack.dict`, `Json.ReadsBack.nullable`: collections.
-/

namespace ResourceQuery.Json

variable {α : Type}

/-- **A reader undoes a writer.** -/
def ReadsBack (read? : Json → Option α) (write : α → Json) : Prop :=
  ∀ a, read? (write a) = some a

/-- **A reader of what a text spells undoes a writer.** -/
def Reading.ReadsBack (read? : Reading → Option α) (write : α → Json) : Prop :=
  ∀ a, read? (.value (write a)) = some a

/-! ### Values of one kind -/

theorem readsBack_string : ReadsBack string? .string := fun _ => rfl

theorem readsBack_int64 : ReadsBack int64? ofInt64 := by
  intro n
  have low := n.le_toInt
  have high := n.toInt_lt
  have within : (-9223372036854775808 ≤ n.toInt && n.toInt ≤ 9223372036854775807) = true := by
    rw [Bool.and_eq_true, decide_eq_true_eq, decide_eq_true_eq]
    omega
  simp [int64?, intBetween?, ofInt64, int?, Option.filter, within]

theorem readsBack_uint64 : ReadsBack uint64? ofUInt64 := by
  intro n
  have high := n.toNat_lt
  have within : ((n.toNat : Int) ≤ 18446744073709551615) := by omega
  simp [uint64?, intBetween?, ofUInt64, int?, Option.filter, within]

theorem readsBack_uint32 : ReadsBack uint32? ofUInt32 := by
  intro n
  have high := n.toNat_lt
  have within : ((n.toNat : Int) ≤ 4294967295) := by omega
  simp [uint32?, intBetween?, ofUInt32, int?, Option.filter, within]

/-! ### Collections -/

theorem mapM_map_of_forall {β : Type} {read? : β → Option α} {write : α → β} {items : List α}
    (back : ∀ a ∈ items, read? (write a) = some a) : (items.map write).mapM read? = some items := by
  induction items with
  | nil => rfl
  | cons a rest ih =>
    rw [List.forall_mem_cons] at back
    rw [List.map_cons, List.mapM_cons, back.1, ih back.2]
    rfl

namespace ReadsBack

variable {read? : Json → Option α} {write : α → Json} (back : ReadsBack read? write)

include back

theorem list : ReadsBack (list? read?) (ofList write) := fun _ =>
  mapM_map_of_forall (fun a _ => back a)

theorem dict : ReadsBack (dict? read?) (ofDict write) := by
  intro d
  have entries : (d.entries.map (fun e => (e.1, write e.2))).mapM
      (fun m => do return (m.1, ← read? m.2)) = some d.entries :=
    mapM_map_of_forall (fun e _ => by simp [back e.2])
  show ((d.entries.map (fun e => (e.1, write e.2))).mapM
    (fun m => do return (m.1, ← read? m.2)) >>= fun entries => pure (Dict.ofList entries)) = _
  rw [entries]
  simp

/-- A value that may be null is read back if nothing else is written as null. -/
theorem nullable (notNull : ∀ a, write a ≠ .null) :
    ReadsBack (nullable? read?) (ofOption write)
  | none => rfl
  | some a => by
    show nullable? read? (write a) = some (some a)
    have value := back a
    unfold nullable?
    split
    · rename_i same
      exact absurd same (notNull a)
    · rw [value]
      rfl

end ReadsBack

/-! ### Members of an object -/

@[simp] theorem members?_object (members : List (String × Json)) :
    (object members).members? = some members := rfl

@[simp] theorem items?_array (items : List Json) : (array items).items? = some items := rfl

@[simp] theorem string?_string (s : String) : (string s).string? = some s := rfl

@[simp] theorem bool?_bool (b : Bool) : (bool b).bool? = some b := rfl

@[simp] theorem tag?_string (names : List String) (name : String) :
    (string name).tag? names = some name := rfl

theorem lookup_cons_eq_ite {β : Type} (name other : String) (b : β)
    (rest : List (String × β)) :
    ((other, b) :: rest).lookup name = if name = other then some b else rest.lookup name := by
  by_cases same : name = other
  · simp [same]
  · have different : (name == other) = false := beq_false_of_ne same
    simp [List.lookup_cons, same, different]

@[simp] theorem required?_cons (name other : String) (j : Json) (rest : List (String × Json))
    (read? : Json → Option α) :
    required? ((other, j) :: rest) name read?
      = if name = other then read? j else required? rest name read? := by
  by_cases same : name = other <;> simp [required?, lookup_cons_eq_ite, same]

@[simp] theorem defaulted?_nil (name : String) (default : α) (read? : Json → Option α) :
    defaulted? [] name default read? = some default := rfl

@[simp] theorem defaulted?_cons (name other : String) (j : Json) (rest : List (String × Json))
    (default : α) (read? : Json → Option α) :
    defaulted? ((other, j) :: rest) name default read?
      = if name = other then read? j else defaulted? rest name default read? := by
  by_cases same : name = other <;> simp [defaulted?, lookup_cons_eq_ite, same]

@[simp] theorem optional?_nil (name : String) (read? : Json → Option α) :
    optional? [] name read? = some none := rfl

@[simp] theorem optional?_cons (name other : String) (j : Json) (rest : List (String × Json))
    (read? : Json → Option α) :
    optional? ((other, j) :: rest) name read?
      = if name = other then nullable? read? j else optional? rest name read? :=
  defaulted?_cons ..

theorem lookup_memberOf (name other : String) (write : α → Json) (a? : Option α) :
    (memberOf name write a?).lookup other = if other = name then a?.map write else none := by
  cases a? <;> simp [memberOf, lookup_cons_eq_ite]

/-- A member that is written only if there is a value is read back. -/
theorem optional?_of_lookup {members : List (String × Json)} {name : String}
    {read? : Json → Option α} {write : α → Json} {a? : Option α} (back : ReadsBack read? write)
    (notNull : ∀ a, write a ≠ .null) (found : members.lookup name = a?.map write) :
    optional? members name read? = some a? := by
  unfold optional? defaulted?
  rw [found]
  cases a? with
  | none => rfl
  | some a => exact back.nullable notNull (some a)

namespace Reading

@[simp] theorem requiredPart?_cons (name other : String) (r : Reading)
    (rest : List (String × Reading)) (read? : Reading → Option α) :
    requiredPart? ((other, r) :: rest) name read?
      = if name = other then read? r else requiredPart? rest name read? := by
  by_cases same : name = other <;> simp [requiredPart?, lookup_cons_eq_ite, same]

@[simp] theorem defaultedPart?_nil (name : String) (default : α) (read? : Reading → Option α) :
    defaultedPart? [] name default read? = some default := rfl

@[simp] theorem defaultedPart?_cons (name other : String) (r : Reading)
    (rest : List (String × Reading)) (default : α) (read? : Reading → Option α) :
    defaultedPart? ((other, r) :: rest) name default read?
      = if name = other then read? r else defaultedPart? rest name default read? := by
  by_cases same : name = other <;> simp [defaultedPart?, lookup_cons_eq_ite, same]

@[simp] theorem required?_cons (name other : String) (j : Json) (rest : List (String × Reading))
    (read? : Json → Option α) :
    required? ((other, .value j) :: rest) name read?
      = if name = other then read? j else required? rest name read? :=
  requiredPart?_cons ..

@[simp] theorem defaulted?_nil (name : String) (default : α) (read? : Json → Option α) :
    defaulted? [] name default read? = some default := rfl

@[simp] theorem defaulted?_cons (name other : String) (j : Json) (rest : List (String × Reading))
    (default : α) (read? : Json → Option α) :
    defaulted? ((other, .value j) :: rest) name default read?
      = if name = other then read? j else defaulted? rest name default read? :=
  defaultedPart?_cons ..

@[simp] theorem optional?_cons (name other : String) (j : Json) (rest : List (String × Reading))
    (read? : Json → Option α) :
    optional? ((other, .value j) :: rest) name read?
      = if name = other then nullable? read? j else optional? rest name read? :=
  defaultedPart?_cons ..

@[simp] theorem optional?_nil (name : String) (read? : Json → Option α) :
    optional? [] name read? = some none := rfl

theorem ReadsBack.dict {read? : Reading → Option α} {write : α → Json}
    (back : ReadsBack read? write) : ReadsBack (Reading.dict? read?) (ofDict write) := by
  intro d
  have entries : (d.entries.map (fun e => (e.1, Reading.value (write e.2)))).mapM
      (fun m => do return (m.1, ← read? m.2)) = some d.entries :=
    mapM_map_of_forall (fun e _ => by simp [back e.2])
  show (((d.entries.map (fun e => (e.1, write e.2))).map (fun e => (e.1, Reading.value e.2))).mapM
    (fun m => do return (m.1, ← read? m.2)) >>= fun entries => pure (Dict.ofList entries)) = _
  rw [List.map_map]
  show ((d.entries.map (fun e => (e.1, Reading.value (write e.2)))).mapM
    (fun m => do return (m.1, ← read? m.2)) >>= _) = _
  rw [entries]
  simp

end Reading

end ResourceQuery.Json
