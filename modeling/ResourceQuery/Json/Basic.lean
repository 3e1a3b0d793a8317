import ResourceQuery.Binary64

/-!
# JSON values

Values as they stand in a document: the members of an object keep the order in which they were
written, and integers are kept apart from other numbers.

## Main Definitions

- `Json`: a value of a document.
- `Json.Number`: an integer of at most 64 bits or a finite double-precision number.
- `Json.sortMembers`: the same value with the members of every object in ascending order.
- `Json.alike`: equality of values that ignores the order of members.
-/

namespace ResourceQuery

/-- A number of a document.  Whole numbers of at most 64 bits that are written without point and
exponent are integers, all others double-precision numbers. -/
inductive Json.Number where
  /-- An integer from `-2 ^ 63` up to `2 ^ 64 - 1`. -/
  | int (value : Int) (bounds : -9223372036854775808 ≤ value ∧ value < 18446744073709551616)
  /-- A double-precision number. -/
  | float (value : Binary64) (finite : value.isFinite = true)
deriving DecidableEq

/-- A value of a document. -/
inductive Json where
  | null
  | bool (value : Bool)
  | number (value : Json.Number)
  | string (value : String)
  | array (items : List Json)
  | object (members : List (String × Json))

namespace Json

instance : Inhabited Json := ⟨null⟩

/-! ### Equality -/

mutual

/-- Are two values equal, the order of members included. -/
def beq : Json → Json → Bool
  | null, null => true
  | bool a, bool b => a = b
  | number a, number b => a = b
  | string a, string b => a = b
  | array a, array b => beqItems a b
  | object a, object b => beqMembers a b
  | _, _ => false

/-- Are two lists of values equal. -/
def beqItems : List Json → List Json → Bool
  | [], [] => true
  | a :: as, b :: bs => beq a b && beqItems as bs
  | _, _ => false

/-- Are two lists of members equal. -/
def beqMembers : List (String × Json) → List (String × Json) → Bool
  | [], [] => true
  | (k, a) :: as, (l, b) :: bs => k = l && beq a b && beqMembers as bs
  | _, _ => false

end

mutual

theorem eq_of_beq : (a b : Json) → beq a b = true → a = b
  | null, b, h => by cases b <;> simp_all [beq]
  | bool _, b, h => by cases b <;> simp_all [beq]
  | number _, b, h => by cases b <;> simp_all [beq]
  | string _, b, h => by cases b <;> simp_all [beq]
  | array as, b, h => by
    cases b with
    | array bs => exact congrArg array (eq_of_beqItems as bs (by simpa [beq] using h))
    | _ => simp [beq] at h
  | object as, b, h => by
    cases b with
    | object bs => exact congrArg object (eq_of_beqMembers as bs (by simpa [beq] using h))
    | _ => simp [beq] at h

theorem eq_of_beqItems : (as bs : List Json) → beqItems as bs = true → as = bs
  | [], bs, h => by cases bs <;> simp_all [beqItems]
  | a :: as, bs, h => by
    cases bs with
    | nil => simp [beqItems] at h
    | cons b bs =>
      simp only [beqItems, Bool.and_eq_true] at h
      rw [eq_of_beq a b h.1, eq_of_beqItems as bs h.2]

theorem eq_of_beqMembers : (as bs : List (String × Json)) → beqMembers as bs = true → as = bs
  | [], bs, h => by cases bs <;> simp_all [beqMembers]
  | (k, a) :: as, bs, h => by
    cases bs with
    | nil => simp [beqMembers] at h
    | cons b bs =>
      obtain ⟨l, b⟩ := b
      simp only [beqMembers, Bool.and_eq_true, decide_eq_true_eq] at h
      rw [h.1.1, eq_of_beq a b h.1.2, eq_of_beqMembers as bs h.2]

end

mutual

@[simp] theorem beq_refl : (a : Json) → beq a a = true
  | null => by simp [beq]
  | bool _ => by simp [beq]
  | number _ => by simp [beq]
  | string _ => by simp [beq]
  | array as => by simpa [beq] using beqItems_refl as
  | object as => by simpa [beq] using beqMembers_refl as

@[simp] theorem beqItems_refl : (as : List Json) → beqItems as as = true
  | [] => by simp [beqItems]
  | a :: as => by simp [beqItems, beq_refl a, beqItems_refl as]

@[simp] theorem beqMembers_refl : (as : List (String × Json)) → beqMembers as as = true
  | [] => by simp [beqMembers]
  | (k, a) :: as => by simp [beqMembers, beq_refl a, beqMembers_refl as]

end

instance : DecidableEq Json := fun a b =>
  if h : beq a b = true then isTrue (eq_of_beq a b h)
  else isFalse (fun hab => h (hab ▸ beq_refl a))

/-! ### Numbers -/

/-- An integer of 64 bits with sign. -/
def ofInt64 (n : Int64) : Json :=
  number (.int n.toInt ⟨n.le_toInt, by have := n.toInt_lt; omega⟩)

/-- An integer of 64 bits without sign. -/
def ofUInt64 (n : UInt64) : Json :=
  number (.int n.toNat ⟨by omega, by have := n.toNat_lt; omega⟩)

/-- An integer of 32 bits without sign. -/
def ofUInt32 (n : UInt32) : Json :=
  number (.int n.toNat ⟨by omega, by have := n.toNat_lt; omega⟩)

/-- The integer of a value. -/
def int? : Json → Option Int
  | number (.int n _) => some n
  | _ => none

/-- The integer of a value, if it is within the given bounds. -/
def intBetween? (low high : Int) (j : Json) : Option Int :=
  j.int?.filter (fun n => low ≤ n && n ≤ high)

/-- A value as an integer of 64 bits with sign. -/
def int64? (j : Json) : Option Int64 :=
  (j.intBetween? (-9223372036854775808) 9223372036854775807).map Int64.ofInt

/-- A value as an integer of 64 bits without sign. -/
def uint64? (j : Json) : Option UInt64 :=
  (j.intBetween? 0 18446744073709551615).map (fun n => UInt64.ofNat n.toNat)

/-- A value as an integer of 32 bits without sign. -/
def uint32? (j : Json) : Option UInt32 :=
  (j.intBetween? 0 4294967295).map (fun n => UInt32.ofNat n.toNat)

/-- The double-precision number of a number; integers are rounded. -/
def Number.toBinary64 : Number → Binary64
  | .int n _ => Binary64.ofInt n
  | .float x _ => x

/-! ### Normal forms -/

/-- Insert a member into a list in ascending order of the names, behind members of its own name. -/
def insertMember (name : String) (value : Json) : List (String × Json) → List (String × Json)
  | [] => [(name, value)]
  | (key, other) :: rest =>
    if name < key then (name, value) :: (key, other) :: rest
    else (key, other) :: insertMember name value rest

mutual

/-- The same value with the members of all objects in ascending order of their names. -/
def sortMembers : Json → Json
  | array items => array (sortItems items)
  | object members => object (sortFields members)
  | j => j

/-- Sort the members within every value of a list. -/
def sortItems : List Json → List Json
  | [] => []
  | j :: rest => sortMembers j :: sortItems rest

/-- Sort a list of members, and the members within their values. -/
def sortFields : List (String × Json) → List (String × Json)
  | [] => []
  | (name, j) :: rest => insertMember name (sortMembers j) (sortFields rest)

end

/-- The number without the sign of a negative zero. -/
def Number.unsignedZero : Number → Number
  | .float x h => if x.isZero then .float (Binary64.ofIndex 0) (by decide) else .float x h
  | n => n

mutual

/-- The same value with positive zeros only. -/
def unsignZeros : Json → Json
  | number n => number n.unsignedZero
  | array items => array (unsignItems items)
  | object members => object (unsignFields members)
  | j => j

/-- Make the zeros in a list of values positive. -/
def unsignItems : List Json → List Json
  | [] => []
  | j :: rest => unsignZeros j :: unsignItems rest

/-- Make the zeros in a list of members positive. -/
def unsignFields : List (String × Json) → List (String × Json)
  | [] => []
  | (name, j) :: rest => (name, unsignZeros j) :: unsignFields rest

end

/-- Do two values mean the same: neither the order of members nor the sign of a zero counts, but
an integer differs from every other number. -/
def alike (a b : Json) : Bool :=
  a.sortMembers.unsignZeros = b.sortMembers.unsignZeros

end Json

end ResourceQuery
