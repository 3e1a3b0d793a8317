import ResourceQuery.Json.Decode
import ResourceQuery.Sql.Value

/-!
# Identifiers of resources

## Main Definitions

- `ResourceId`: an integer or a text.
- `IdSet`: a finite set of identifiers, listed in ascending order.
-/

namespace ResourceQuery

/-- The identifier of a resource. -/
inductive ResourceId where
  | int (value : Int64)
  | string (value : String)
deriving DecidableEq, Inhabited

namespace ResourceId

/-- The value of a parameter that stands for an identifier. -/
def toValue : ResourceId → Sql.Value
  | int n => .int n
  | string s => .string s

/-- An identifier as a document. -/
def toJson : ResourceId → Json
  | int n => Json.ofInt64 n
  | string s => .string s

theorem toJson_ne_null (id : ResourceId) : id.toJson ≠ .null := by
  cases id <;> nofun

/-- The identifier of a document. -/
def ofJson? : Json → Option ResourceId
  | .string s => some (string s)
  | j => j.int64?.map int

/-- The order of identifiers: integers by value, then texts by their characters. -/
def Before : ResourceId → ResourceId → Prop
  | int a, int b => a.toInt < b.toInt
  | int _, string _ => True
  | string _, int _ => False
  | string a, string b => a < b

instance (a b : ResourceId) : Decidable (Before a b) := by
  cases a <;> cases b <;> simp only [Before] <;> infer_instance

theorem Before.trans {a b c : ResourceId} (hab : Before a b) (hbc : Before b c) : Before a c := by
  cases a <;> cases b <;> cases c <;> simp_all only [Before]
  · omega
  · exact String.lt_trans hab hbc

theorem before_of_not {a b : ResourceId} (h : ¬ Before a b) (hne : a ≠ b) : Before b a := by
  cases a <;> cases b <;> simp_all only [Before, not_true_eq_false, ne_eq, int.injEq,
    string.injEq, not_false_eq_true]
  · rename_i a b
    have : a.toInt ≠ b.toInt := fun heq => hne (Int64.toInt_inj.mp heq)
    omega
  · exact Std.lt_of_le_of_ne (Std.not_lt.mp h) (fun heq => hne heq.symm)

end ResourceId

/-- A finite set of identifiers, listed in ascending order. -/
structure IdSet where
  ids : List ResourceId
  sorted : ids.Pairwise ResourceId.Before

namespace IdSet

instance : DecidableEq IdSet := fun a b =>
  if h : a.ids = b.ids then isTrue (by cases a; cases b; simp_all)
  else isFalse (fun hab => h (hab ▸ rfl))

/-- The set without members. -/
def empty : IdSet := ⟨[], List.Pairwise.nil⟩

instance : Inhabited IdSet := ⟨empty⟩

/-- Insert an identifier into an ascending list. -/
def insertId (id : ResourceId) : List ResourceId → List ResourceId
  | [] => [id]
  | other :: rest =>
    if id.Before other then id :: other :: rest
    else if id = other then other :: rest
    else other :: insertId id rest

theorem mem_insertId {id other : ResourceId} {ids : List ResourceId}
    (h : other ∈ insertId id ids) : other = id ∨ other ∈ ids := by
  induction ids with
  | nil => simp_all [insertId]
  | cons head rest ih =>
    unfold insertId at h
    split at h
    · simpa using h
    · split at h
      · exact Or.inr h
      · rcases List.mem_cons.mp h with h | h
        · simp [h]
        · rcases ih h with h | h <;> simp [h]

theorem pairwise_insertId {id : ResourceId} {ids : List ResourceId}
    (h : ids.Pairwise ResourceId.Before) : (insertId id ids).Pairwise ResourceId.Before := by
  induction ids with
  | nil => simp [insertId]
  | cons head rest ih =>
    have hcons := List.pairwise_cons.mp h
    unfold insertId
    split
    · rename_i hlt
      refine List.pairwise_cons.mpr ⟨fun other hmem => ?_, h⟩
      rcases List.mem_cons.mp hmem with rfl | hmem
      · exact hlt
      · exact hlt.trans (hcons.1 other hmem)
    · split
      · exact h
      · rename_i hle hne
        refine List.pairwise_cons.mpr ⟨fun other hmem => ?_, ih hcons.2⟩
        rcases mem_insertId hmem with rfl | hmem
        · exact ResourceId.before_of_not hle hne
        · exact hcons.1 other hmem

/-- The set with one more member. -/
def insert (s : IdSet) (id : ResourceId) : IdSet :=
  ⟨insertId id s.ids, pairwise_insertId s.sorted⟩

/-- The set of the members of a list. -/
def ofList (ids : List ResourceId) : IdSet :=
  ids.foldl insert empty

/-- The members of a set that are not in another, in ascending order. -/
def without (s other : IdSet) : List ResourceId :=
  s.ids.filter (fun id => id ∉ other.ids)

/-- A set as a document. -/
def toJson (s : IdSet) : Json :=
  Json.ofList ResourceId.toJson s.ids

/-- The set of a document. -/
def ofJson? (j : Json) : Option IdSet := do
  return ofList (← Json.list? ResourceId.ofJson? j)

end IdSet

end ResourceQuery
