import ResourceQuery.Proofs.Json.Words

/-!
# Reading what was written

A written value is read as the value itself, unless it nests too deeply or holds a number that is
read as another one.  Integers never are.

## Main Definitions

- `Json.reread`: what a written value is read as.
- `Json.nesting`: how deeply arrays and objects are nested.
- `Json.numbers`: the numbers in a value.

## Main Statements

- `Json.ofText?_compact`, `Json.ofText?_pretty`: what the two written forms are read as.
- `Json.read?_compact_iff`: when a value is read back.
- `Json.reread_eq_value`: values without other numbers than integers are read back.
-/

namespace ResourceQuery.Json

open Token

/-! ### What is read -/

/-- What a written number is read as. -/
def Number.reread (n : Number) : Reading :=
  match n.word with
  | scalar value => .value value
  | _ => .unreadable

mutual

/-- **What a written value is read as**, inside a number of open arrays and objects. -/
def reread (level : Nat) : Json → Reading
  | number n => n.reread
  | array items =>
    if level < Reader.maxDepth then .ofItems (rereadItems (level + 1) items) else .unreadable
  | object members =>
    if level < Reader.maxDepth then .ofMembers (rereadMembers (level + 1) members) else .unreadable
  | j => .value j

/-- What each written value of a list is read as. -/
def rereadItems (level : Nat) : List Json → List Reading
  | [] => []
  | j :: rest => reread level j :: rereadItems level rest

/-- What each written member of a list is read as. -/
def rereadMembers (level : Nat) : List (String × Json) → List (Option String × Reading)
  | [] => []
  | (name, j) :: rest => (some name, reread level j) :: rereadMembers level rest

end

/-! ### The reader on written words -/

theorem Number.word_cases (n : Number) :
    (∃ value, n.word = scalar (.number value)) ∨ n.word = hugeNumber := by
  unfold Number.word Token.ofNumeral
  split
  · split
    · exact .inl ⟨_, rfl⟩
    · exact .inr rfl
  · exact .inr rfl

theorem tokens_eq_cons : (j : Json) → ∃ word rest, j.tokens = word :: rest ∧ word ≠ closeArray
  | .null => ⟨_, [], rfl, nofun⟩
  | .bool _ => ⟨_, [], rfl, nofun⟩
  | .string _ => ⟨_, [], rfl, nofun⟩
  | .number n => by
    refine ⟨n.word, [], rfl, ?_⟩
    rcases n.word_cases with ⟨value, word⟩ | word <;> simp [word]
  | .array items => ⟨openArray, commas (itemTokens items) ++ [closeArray], by simp [tokens], nofun⟩
  | .object members =>
    ⟨openObject, commas (memberTokens members) ++ [closeObject], by simp [tokens], nofun⟩

namespace Reader

/-- The first item of an array is taken like any value. -/
theorem step?_firstItem (stack : List Unclosed) {word : Token} (goesOn : word ≠ closeArray) :
    (firstItem stack).step? word = (value stack).step? word := by
  cases word <;> first | rfl | exact absurd rfl goesOn

end Reader

/-- The items of an array that holds any are read one after the other. -/
theorem foldlM_firstItem (stack : List Unclosed) (j : Json) (rest : List Json) :
    (commas (itemTokens (j :: rest))).foldlM Reader.step? (.firstItem stack)
      = (commas (itemTokens (j :: rest))).foldlM Reader.step? (.value stack) := by
  obtain ⟨word, more, first, goesOn⟩ := j.tokens_eq_cons
  have starts : ∃ more, commas (itemTokens (j :: rest)) = word :: more := by
    cases rest with
    | nil => exact ⟨more, by simp [itemTokens, commas, first]⟩
    | cons k rest => exact ⟨_, by simp only [itemTokens, commas, first, List.cons_append]; rfl⟩
  obtain ⟨more, starts⟩ := starts
  rw [starts, List.foldlM_cons, List.foldlM_cons, Reader.step?_firstItem stack goesOn]

/-- The members of an object that holds any are read one after the other. -/
theorem foldlM_firstMember (stack : List Unclosed) (member : String × Json)
    (rest : List (String × Json)) :
    (commas (memberTokens (member :: rest))).foldlM Reader.step? (.firstMember stack)
      = (commas (memberTokens (member :: rest))).foldlM Reader.step? (.member stack) := by
  have starts : ∃ more, commas (memberTokens (member :: rest))
      = scalar (.string member.1) :: more := by
    cases rest with
    | nil => exact ⟨_, by simp only [memberTokens, commas]; rfl⟩
    | cons other rest =>
      exact ⟨_, by simp only [memberTokens, commas, List.cons_append]; rfl⟩
  obtain ⟨more, starts⟩ := starts
  rw [starts]
  rfl

mutual

/-- **The words of a value are read as what it is read as.** -/
theorem foldlM_tokens : (j : Json) → (stack : List Unclosed) →
    j.tokens.foldlM Reader.step? (.value stack) = Reader.complete? (j.reread stack.length) stack
  | .null, _ => by simp [tokens, reread, Reader.step?, Reader.beginValue?]
  | .bool _, _ => by simp [tokens, reread, Reader.step?, Reader.beginValue?]
  | .string _, _ => by simp [tokens, reread, Reader.step?, Reader.beginValue?]
  | .number n, _ => by
    rcases n.word_cases with ⟨value, word⟩ | word <;>
      simp [tokens, reread, Number.reread, word, Reader.step?, Reader.beginValue?]
  | .array [], _ => by
    simp [tokens, itemTokens, commas, reread, rereadItems, Reader.step?, Reader.beginValue?,
      Reader.closeArray?, Reader.nested]
  | .array (j :: rest), stack => by
    have items := foldlM_itemTokens (j :: rest) (List.cons_ne_nil j rest) stack []
    rw [tokens, List.cons_append, List.foldlM_cons]
    show ((commas (itemTokens (j :: rest)) ++ [closeArray]).foldlM Reader.step?
      (.firstItem (.array [] :: stack))) = _
    rw [List.foldlM_append, foldlM_firstItem, items]
    simp [reread, Reader.step?, Reader.closeArray?, Reader.nested]
  | .object [], _ => by
    simp [tokens, memberTokens, commas, reread, rereadMembers, Reader.step?, Reader.beginValue?,
      Reader.closeObject?, Reader.nested]
  | .object (member :: rest), stack => by
    have members := foldlM_memberTokens (member :: rest) (List.cons_ne_nil member rest) stack []
    rw [tokens, List.cons_append, List.foldlM_cons]
    show ((commas (memberTokens (member :: rest)) ++ [closeObject]).foldlM Reader.step?
      (.firstMember (.object [] :: stack))) = _
    rw [List.foldlM_append, foldlM_firstMember, members]
    simp [reread, Reader.step?, Reader.closeObject?, Reader.nested]

theorem foldlM_itemTokens : (items : List Json) → items ≠ [] → (stack : List Unclosed) →
    (done : List Reading) →
    (commas (itemTokens items)).foldlM Reader.step? (.value (.array done :: stack))
      = some (.separator
        (.array ((rereadItems (stack.length + 1) items).reverse ++ done) :: stack))
  | [], nonempty, _, _ => absurd rfl nonempty
  | [j], _, stack, done => by
    rw [itemTokens, itemTokens, commas, foldlM_tokens j (.array done :: stack)]
    simp [rereadItems, Reader.complete?]
  | j :: k :: rest, _, stack, done => by
    have first := foldlM_tokens j (.array done :: stack)
    have later := foldlM_itemTokens (k :: rest) (List.cons_ne_nil k rest) stack
      (j.reread (stack.length + 1) :: done)
    rw [itemTokens, itemTokens, commas, ← itemTokens, List.foldlM_append, first]
    · simp only [List.length_cons, Reader.complete?, List.foldlM_cons, Reader.step?,
        Option.bind_eq_bind, Option.bind_some, later]
      simp [rereadItems]
    · simp

theorem foldlM_memberTokens : (members : List (String × Json)) → members ≠ [] →
    (stack : List Unclosed) → (done : List (Option String × Reading)) →
    (commas (memberTokens members)).foldlM Reader.step? (.member (.object done :: stack))
      = some (.separator
        (.object ((rereadMembers (stack.length + 1) members).reverse ++ done) :: stack))
  | [], nonempty, _, _ => absurd rfl nonempty
  | [(name, j)], _, stack, done => by
    have value := foldlM_tokens j (.member done (some name) :: stack)
    rw [memberTokens, memberTokens, commas]
    simp only [List.foldlM_cons, Reader.step?, Reader.beginMember?, Option.bind_eq_bind,
      Option.bind_some, value, List.length_cons, Reader.complete?]
    simp [rereadMembers]
  | (name, j) :: other :: rest, _, stack, done => by
    have value := foldlM_tokens j (.member done (some name) :: stack)
    have later := foldlM_memberTokens (other :: rest) (List.cons_ne_nil other rest) stack
      ((some name, j.reread (stack.length + 1)) :: done)
    rw [memberTokens, commas, List.foldlM_append]
    · simp only [List.foldlM_cons, Reader.step?, Reader.beginMember?, Option.bind_eq_bind,
        Option.bind_some, value, List.length_cons, Reader.complete?, later]
      simp [rereadMembers]
    · obtain ⟨other, k⟩ := other
      simp [memberTokens]

end

/-! ### Written forms -/

/-- A text that consists of the words of a value, and then nothing. -/
theorem ofText?_of_scans {text : String} {j : Json} {chars rest : List Char}
    (scans : Scans chars j.tokens) (delimits : Delimits rest) (blank : scan? rest = some [])
    (spelled : text.toList = chars ++ rest) : Reading.ofText? text = some (j.reread 0) := by
  have words : scan? text.toList = some j.tokens := by
    rw [spelled, scans rest delimits, blank]
    simp
  have read : j.tokens.foldlM Reader.step? (.value []) = some (.done (j.reread 0)) :=
    j.foldlM_tokens []
  rw [Reading.ofText?, words]
  show Reading.ofTokens? j.tokens = _
  rw [Reading.ofTokens?, read]
  rfl

/-- **What the compact form is read as.** -/
theorem ofText?_compact (j : Json) : Reading.ofText? j.compact = some (j.reread 0) :=
  ofText?_of_scans j.scans_compactChars delimits_nil (by rw [scan?]) (by simp [compact])

theorem read?_compact (j : Json) : read? j.compact = (j.reread 0).value? := by
  rw [Json.read?, ofText?_compact]
  rfl

/-- **What the indented form is read as**, with a line break at the end. -/
theorem ofText?_pretty (j : Json) : Reading.ofText? (j.pretty ++ "\n") = some (j.reread 0) := by
  have blank : isBlank '\n' = true := by decide
  have nothing : scan? ['\n'] = some [] := by rw [scan?_blank blank, scan?]
  exact ofText?_of_scans (j.scans_prettyChars 0) (delimits_of_isBlank blank []) nothing
    (by simp [pretty])

/-! ### Values that are read back -/

mutual

/-- How deeply arrays and objects are nested in a value. -/
def nesting : Json → Nat
  | array items => nestingItems items + 1
  | object members => nestingMembers members + 1
  | _ => 0

/-- The deepest nesting in a list of values. -/
def nestingItems : List Json → Nat
  | [] => 0
  | j :: rest => max (nesting j) (nestingItems rest)

/-- The deepest nesting in a list of members. -/
def nestingMembers : List (String × Json) → Nat
  | [] => 0
  | (_, j) :: rest => max (nesting j) (nestingMembers rest)

end

mutual

/-- The numbers in a value. -/
def numbers : Json → List Number
  | number n => [n]
  | array items => numbersItems items
  | object members => numbersMembers members
  | _ => []

/-- The numbers in a list of values. -/
def numbersItems : List Json → List Number
  | [] => []
  | j :: rest => numbers j ++ numbersItems rest

/-- The numbers in a list of members. -/
def numbersMembers : List (String × Json) → List Number
  | [] => []
  | (_, j) :: rest => numbers j ++ numbersMembers rest

end

theorem value?_ofItems (readings : List Reading) (items : List Json) :
    (Reading.ofItems readings).value? = some (.array items)
      ↔ readings.mapM Reading.value? = some items := by
  unfold Reading.ofItems
  split
  · rename_i found
    simp [found]
  · rename_i none
    simp [none, Reading.value?]

theorem value?_ofMembers (readings : List (Option String × Reading))
    (members : List (String × Json)) :
    (Reading.ofMembers readings).value? = some (.object members)
      ↔ readings.mapM Reading.memberValue? = some members := by
  unfold Reading.ofMembers
  split
  · rename_i found
    simp [found]
  · rename_i none
    split <;> simp [none, Reading.value?]

mutual

/-- **When a value is read back** inside a number of open arrays and objects. -/
theorem value?_reread_iff : (j : Json) → (level : Nat) → level ≤ Reader.maxDepth →
    ((j.reread level).value? = some j
      ↔ level + j.nesting ≤ Reader.maxDepth
        ∧ ∀ n ∈ j.numbers, n.reread.value? = some (.number n))
  | .null, level, bound => by simp [reread, nesting, numbers, bound]
  | .bool _, level, bound => by simp [reread, nesting, numbers, bound]
  | .string _, level, bound => by simp [reread, nesting, numbers, bound]
  | .number n, level, bound => by simp [reread, nesting, numbers, bound]
  | .array items, level, bound => by
    by_cases inside : level < Reader.maxDepth
    · rw [reread, if_pos inside, value?_ofItems, mapM_rereadItems_iff items (level + 1) inside]
      simp only [nesting, numbers]
      rw [show level + 1 + nestingItems items = level + (nestingItems items + 1) by omega]
    · simp only [reread, if_neg inside, nesting, Reading.value?, reduceCtorEq, false_iff]
      omega
  | .object members, level, bound => by
    by_cases inside : level < Reader.maxDepth
    · rw [reread, if_pos inside, value?_ofMembers,
        mapM_rereadMembers_iff members (level + 1) inside]
      simp only [nesting, numbers]
      rw [show level + 1 + nestingMembers members = level + (nestingMembers members + 1) by omega]
    · simp only [reread, if_neg inside, nesting, Reading.value?, reduceCtorEq, false_iff]
      omega

theorem mapM_rereadItems_iff : (items : List Json) → (level : Nat) → level ≤ Reader.maxDepth →
    ((rereadItems level items).mapM Reading.value? = some items
      ↔ level + nestingItems items ≤ Reader.maxDepth
        ∧ ∀ n ∈ numbersItems items, n.reread.value? = some (.number n))
  | [], level, bound => by simp [rereadItems, nestingItems, numbersItems, bound]
  | j :: rest, level, bound => by
    have first := value?_reread_iff j level bound
    have later := mapM_rereadItems_iff rest level bound
    have both : (rereadItems level (j :: rest)).mapM Reading.value? = some (j :: rest)
        ↔ (j.reread level).value? = some j
          ∧ (rereadItems level rest).mapM Reading.value? = some rest := by
      rw [rereadItems, List.mapM_cons]
      simp [Option.bind_eq_some_iff]
    rw [both, first, later]
    simp only [nestingItems, numbersItems, List.mem_append]
    grind

theorem mapM_rereadMembers_iff : (members : List (String × Json)) → (level : Nat) →
    level ≤ Reader.maxDepth →
    ((rereadMembers level members).mapM Reading.memberValue? = some members
      ↔ level + nestingMembers members ≤ Reader.maxDepth
        ∧ ∀ n ∈ numbersMembers members, n.reread.value? = some (.number n))
  | [], level, bound => by simp [rereadMembers, nestingMembers, numbersMembers, bound]
  | (name, j) :: rest, level, bound => by
    have first := value?_reread_iff j level bound
    have later := mapM_rereadMembers_iff rest level bound
    have both : (rereadMembers level ((name, j) :: rest)).mapM Reading.memberValue?
          = some ((name, j) :: rest)
        ↔ (j.reread level).value? = some j
          ∧ (rereadMembers level rest).mapM Reading.memberValue? = some rest := by
      rw [rereadMembers, List.mapM_cons]
      simp [Option.bind_eq_some_iff, Reading.memberValue?]
    rw [both, first, later]
    simp only [nestingMembers, numbersMembers, List.mem_append]
    grind

end

theorem value_of_value? {r : Reading} {j : Json} (read : r.value? = some j) : r = .value j := by
  cases r <;> cases read
  rfl

/-- A number by itself is read as it is inside of a document. -/
theorem Number.read?_text (n : Number) : Json.read? n.text = n.reread.value? := by
  have read := read?_compact (.number n)
  simpa only [compact, compactChars, String.ofList_toList, Json.reread] using read

/-- **Integers are read back.** -/
theorem Number.reread_int (n : Int) (bounds) :
    (Number.int n bounds).reread = .value (.number (.int n bounds)) := by
  have word : (Number.int n bounds).word = scalar (.number (.int n bounds)) := by
    simp only [Number.word, Number.text, ← Number.chars_intSpelling,
      Spelling.spelledNumeral?_chars, ofNumeral, Number.number?_int n bounds]
  rw [Number.reread, word]

/-- The double-precision numbers in a value, each in its written form, are read back. -/
def FloatsReadBack (j : Json) : Prop :=
  ∀ x finite, .float x finite ∈ j.numbers →
    read? (Number.text (.float x finite)) = some (.number (.float x finite))

theorem forall_numbers_iff (j : Json) :
    (∀ n ∈ j.numbers, n.reread.value? = some (.number n)) ↔ j.FloatsReadBack := by
  constructor
  · intro all x finite mem
    rw [Number.read?_text]
    exact all _ mem
  · intro floats n mem
    cases n with
    | int n bounds => rw [Number.reread_int]; rfl
    | float x finite => rw [← Number.read?_text]; exact floats x finite mem

/-- **When a value is read back from its compact form**: it must not nest too deeply, and its
double-precision numbers must be read back. -/
theorem read?_compact_iff (j : Json) :
    read? j.compact = some j ↔ j.nesting ≤ Reader.maxDepth ∧ j.FloatsReadBack := by
  rw [read?_compact, j.value?_reread_iff 0 (Nat.zero_le _), Nat.zero_add, forall_numbers_iff]

/-- A value that does not nest too deeply, and whose double-precision numbers are read back, is
read back. -/
theorem reread_eq_value {j : Json} (shallow : j.nesting ≤ Reader.maxDepth)
    (floats : j.FloatsReadBack) : j.reread 0 = .value j :=
  value_of_value? ((j.value?_reread_iff 0 (Nat.zero_le _)).mpr
    ⟨by omega, j.forall_numbers_iff.mpr floats⟩)

end ResourceQuery.Json
