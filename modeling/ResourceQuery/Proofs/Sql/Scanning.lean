import Mathlib.Data.List.Range
import ResourceQuery.Sql.Positional

/-!
# Reading placeholders into text

Statement text is put together from pieces, and afterwards read character by character to replace
the names of parameters.  This file says when the reader finds exactly the names that were written:
words of the language contain neither quotation marks nor at signs, and what follows a parameter
does not begin with a digit.

## Main Definitions

- `Parameter.IsNumbered`: the name of a parameter is an at sign, the letter `p` and digits.
- `Piece.Readable`: names can be found again in the text of pieces.
- `Rendered.place`, `Rendered.placeholderOf`: the number of a parameter, and how it is written.

## Main Statements

- `Piece.Readable.append`: readable pieces may follow each other.
- `Rendered.replaceNames_quote`: quoted text is left alone, whatever it contains.
- `Piece.positional_eq`: the reader turns the names of parameters into their placeholders.
- `Piece.eraseDups_places`: numbers are first used in ascending order.
-/

namespace ResourceQuery.Sql

/-- **The name of a parameter is an at sign, the letter `p` and digits.** -/
def Parameter.IsNumbered (p : Parameter) : Prop :=
  ∃ digits, digits ≠ [] ∧ (∀ d ∈ digits, d.isDigit = true) ∧ p.name.toList = '@' :: 'p' :: digits

/-! ### Readable pieces -/

namespace Piece

/-- A character that the reader passes over. -/
def isPlain (c : Char) : Bool :=
  c ≠ '\x27' && c ≠ '"' && c ≠ '@'

/-- The text of pieces does not begin with a digit. -/
def StartsClear : List Piece → Prop
  | [] => True
  | verbatim text :: rest =>
    match text.toList with
    | [] => StartsClear rest
    | c :: _ => c.isDigit = false
  | identifier _ :: _ => True
  | literal _ :: _ => True
  | param _ :: _ => True
  | newLine :: _ => True
  | indent :: rest => StartsClear rest
  | unindent :: rest => StartsClear rest

/-- **The names of parameters can be found again in the text of pieces**: words of the language
contain neither quotation marks nor at signs, and no parameter is followed by a digit. -/
def Readable : List Piece → Prop
  | [] => True
  | verbatim text :: rest => text.toList.all isPlain = true ∧ Readable rest
  | param _ :: rest => StartsClear rest ∧ Readable rest
  | _ :: rest => Readable rest

theorem StartsClear.append {xs ys : List Piece} (first : StartsClear xs) (second : StartsClear ys) :
    StartsClear (xs ++ ys) := by
  induction xs with
  | nil => exact second
  | cons piece rest ih =>
    cases piece with
    | verbatim text =>
      rw [List.cons_append, StartsClear]
      rw [StartsClear] at first
      split
      · rename_i empty
        rw [empty] at first
        exact ih first
      · rename_i c chars htext
        rw [htext] at first
        exact first
    | identifier name => trivial
    | literal text => trivial
    | param p => trivial
    | newLine => trivial
    | indent => exact ih first
    | unindent => exact ih first

/-- **Readable pieces may follow each other**, if those that follow do not begin with a digit. -/
theorem Readable.append {xs ys : List Piece} (first : Readable xs) (second : Readable ys)
    (clear : StartsClear ys) : Readable (xs ++ ys) := by
  induction xs with
  | nil => exact second
  | cons piece rest ih =>
    cases piece with
    | verbatim text => exact ⟨first.1, ih first.2⟩
    | param p => exact ⟨first.1.append clear, ih first.2⟩
    | identifier name => exact ih first
    | literal text => exact ih first
    | newLine => exact ih first
    | indent => exact ih first
    | unindent => exact ih first

end Piece

/-! ### The reader -/

namespace Rendered

variable {params : List (String × Value)}

/-- Plain text is left alone. -/
theorem replaceNames_plain {plain rest out : List Char} (isPlain : plain.all Piece.isPlain = true)
    (h : replaceNames params none rest = .ok out) :
    replaceNames params none (plain ++ rest) = .ok (plain ++ out) := by
  induction plain with
  | nil => exact h
  | cons c plain ih =>
    simp only [List.all_cons, Bool.and_eq_true, Piece.isPlain, decide_eq_true_eq] at isPlain
    obtain ⟨⟨⟨single, double⟩, at_⟩, others⟩ := isPlain
    rw [List.cons_append, replaceNames, if_neg (by simp [single, double]),
      if_neg (fun h => at_ h.1), ih others]
    rfl

/-- Inside quotes everything is left alone up to the mark that ends them; a doubled mark ends and
begins them at once. -/
theorem replaceNames_quoted {mark : Char} (isMark : mark = '\x27' ∨ mark = '"')
    {text rest out : List Char} (h : replaceNames params none rest = .ok out) :
    replaceNames params (some mark)
        (text.flatMap (fun c => if c = mark then [mark, mark] else [c]) ++ mark :: rest)
      = .ok (text.flatMap (fun c => if c = mark then [mark, mark] else [c]) ++ mark :: out) := by
  induction text with
  | nil =>
    rw [List.flatMap_nil, List.nil_append, List.nil_append, replaceNames, if_pos rfl, h]
    rfl
  | cons c text ih =>
    rw [List.flatMap_cons, List.append_assoc, List.append_assoc]
    by_cases same : c = mark
    · rw [if_pos same, List.cons_append, List.cons_append, replaceNames, if_pos rfl,
        List.nil_append, replaceNames, if_pos isMark, ih]
      rfl
    · rw [if_neg same, List.cons_append, List.nil_append, replaceNames, if_neg same, ih]
      rfl

/-- **Quoted text is left alone**, whatever it contains. -/
theorem replaceNames_quote {mark : Char} (isMark : mark = '\x27' ∨ mark = '"') (text : String)
    {rest out : List Char} (h : replaceNames params none rest = .ok out) :
    replaceNames params none (Piece.quote mark text ++ rest)
      = .ok (Piece.quote mark text ++ out) := by
  have split : ∀ more, Piece.quote mark text ++ more
      = mark :: (text.toList.flatMap (fun c => if c = mark then [mark, mark] else [c])
        ++ mark :: more) := by
    intro more
    simp [Piece.quote]
  rw [split, split, replaceNames, if_pos isMark, replaceNames_quoted isMark h]
  rfl

/-- **The name of a parameter is replaced**, if no digit follows it. -/
theorem replaceNames_name {p : Parameter} (numbered : p.IsNumbered) {rest out here : List Char}
    (clear : ∀ d ∈ rest.head?, d.isDigit = false) (bound : placeholder params p.name = .ok here)
    (h : replaceNames params none rest = .ok out) :
    replaceNames params none (p.name.toList ++ rest) = .ok (here ++ out) := by
  obtain ⟨digits, -, isDigit, name⟩ := numbered
  have ends : rest.takeWhile Char.isDigit = [] ∧ rest.dropWhile Char.isDigit = rest := by
    cases rest with
    | nil => exact ⟨rfl, rfl⟩
    | cons d rest => simp [clear d rfl]
  have taken : (digits ++ rest).takeWhile Char.isDigit = digits := by
    rw [List.takeWhile_append_of_pos isDigit, ends.1, List.append_nil]
  have dropped : (digits ++ rest).dropWhile Char.isDigit = rest := by
    rw [List.dropWhile_append_of_pos isDigit, ends.2]
  have same : String.ofList ('@' :: 'p' :: digits) = p.name := by
    rw [← name, String.ofList_toList]
  rw [name, List.cons_append, List.cons_append, replaceNames, if_neg (by decide),
    if_pos ⟨rfl, rfl⟩]
  simp only [List.tail_cons, taken, dropped, same, bound, h]
  rfl

end Rendered

/-! ### Registered parameters -/

namespace Piece

theorem lookup_isSome_iff {params : List (String × Value)} {name : String} :
    (params.lookup name).isSome = true ↔ name ∈ params.map Prod.fst := by
  induction params with
  | nil => simp
  | cons entry rest ih =>
    obtain ⟨key, value⟩ := entry
    by_cases same : name = key
    · simp [same]
    · have other : (name == key) = false := by simpa using same
      simp only [List.lookup_cons, other, ih, List.map_cons, List.mem_cons, same, false_or]

/-- A name after those that are known, unless it is one of them. -/
def addName (names : List String) (name : String) : List String :=
  if name ∈ names then names else names ++ [name]

/-- **A reference registers its name** unless it has a value already. -/
theorem map_fst_register (params : List (String × Value)) (p : Parameter) :
    (register params p).map Prod.fst = addName (params.map Prod.fst) p.name := by
  rw [register, addName]
  split
  · rename_i value found
    rw [if_pos (lookup_isSome_iff.mp (by rw [found]; rfl))]
  · rename_i missing
    have unknown : p.name ∉ params.map Prod.fst := fun known => by
      have found := lookup_isSome_iff.mpr known
      rw [missing] at found
      cases found
    rw [if_neg unknown, List.map_append, List.map_singleton]

theorem map_fst_foldl_register (refs : List Parameter) (params : List (String × Value)) :
    (refs.foldl register params).map Prod.fst
      = (refs.map Parameter.name).foldl addName (params.map Prod.fst) := by
  induction refs generalizing params with
  | nil => rfl
  | cons p rest ih => rw [List.foldl_cons, ih, map_fst_register, List.map_cons, List.foldl_cons]

/-- Names are added once, in order of first occurrence. -/
theorem foldl_addName (more names : List String) (distinct : names.Nodup) :
    more.foldl addName names = names ++ (more.removeAll names).eraseDups
      ∧ (more.foldl addName names).Nodup := by
  induction more generalizing names with
  | nil => simpa using distinct
  | cons name rest ih =>
    rw [List.foldl_cons, addName, List.cons_removeAll]
    by_cases known : name ∈ names
    · rw [if_pos known, if_neg (by simpa using known)]
      exact ih names distinct
    · have distinct' : (names ++ [name]).Nodup := by
        refine List.nodup_append.mpr ⟨distinct, List.pairwise_singleton _ _, ?_⟩
        intro other mem single hsingle same
        rw [List.mem_singleton.mp hsingle] at same
        exact known (same ▸ mem)
      obtain ⟨added, nodup⟩ := ih (names ++ [name]) distinct'
      have fewer : rest.removeAll (names ++ [name])
          = (rest.removeAll names).filter (fun other => !other == name) := by
        rw [List.removeAll, List.removeAll, List.filter_filter]
        refine List.filter_congr (fun other _ => ?_)
        by_cases same : other = name
        · simp [same]
        · simp [same]
      rw [if_neg known, if_pos (by simpa using known), List.eraseDups_cons, ← fewer]
      refine ⟨?_, nodup⟩
      rw [added, List.append_assoc]
      rfl

/-- **Names are registered in order of first reference**, each once. -/
theorem map_fst_params (pieces : List Piece) :
    (params pieces).map Prod.fst = ((references pieces).map Parameter.name).eraseDups
      ∧ ((params pieces).map Prod.fst).Nodup := by
  rw [params, map_fst_foldl_register]
  obtain ⟨names, nodup⟩ := foldl_addName ((references pieces).map Parameter.name) [] List.nodup_nil
  refine ⟨?_, nodup⟩
  rw [List.map_nil, names, List.removeAll_nil, List.nil_append]

/-- Every reference has a registered name. -/
theorem name_mem_params {pieces : List Piece} {p : Parameter} (mem : p ∈ references pieces) :
    p.name ∈ (params pieces).map Prod.fst := by
  rw [(map_fst_params pieces).1, List.mem_eraseDups]
  exact List.mem_map_of_mem mem

end Piece

/-! ### Placeholders -/

namespace Rendered

/-- The number of a name: its position among the names of the parameters, counted from one. -/
def place (r : Rendered) (name : String) : Nat :=
  (r.params.map Prod.fst).idxOf name + 1

/-- **How a parameter is written**: its number behind a dollar sign and, exactly if its registered
value is sent as text, the type behind two colons. -/
def placeholderOf (r : Rendered) (p : Parameter) : List Char :=
  '$' :: (natText (r.place p.name)).toList ++
    (match r.params.lookup p.name with
      | some (.cast _ type) => ("::" ++ type.typeName).toList
      | _ => [])

/-- A registered name has its placeholder. -/
theorem placeholder_eq {r : Rendered} {p : Parameter} (known : p.name ∈ r.params.map Prod.fst) :
    placeholder r.params p.name = .ok (r.placeholderOf p) := by
  obtain ⟨value, found⟩ := Option.isSome_iff_exists.mp (Piece.lookup_isSome_iff.mpr known)
  obtain ⟨entry, mem, name⟩ := List.mem_map.mp known
  have position : r.params.findIdx? (fun q => q.1 = p.name)
      = some ((r.params.map Prod.fst).idxOf p.name) := by
    rw [List.findIdx?_eq_some_of_exists ⟨entry, mem, by simpa using name⟩, List.idxOf,
      List.findIdx_map]
    rfl
  rw [placeholder, position, found, placeholderOf, place, found]
  cases value with
  | cast text type => simp [Rendered.castText]
  | null => rfl
  | bool b => rfl
  | int n => rfl
  | float x => rfl
  | string s => rfl

/-- The number of a registered name is the position of its entry. -/
theorem getElem?_place {r : Rendered} {name : String} (known : name ∈ r.params.map Prod.fst) :
    (r.params.map Prod.fst)[r.place name - 1]? = some name := by
  rw [place, Nat.add_sub_cancel]
  exact List.getElem?_idxOf known

end Rendered

/-! ### From pieces to placeholders -/

namespace Piece

/-- Text that begins with no digit as pieces begins with none when it is written. -/
theorem StartsClear.head {pieces : List Piece} (clear : StartsClear pieces)
    (numbered : ∀ p ∈ references pieces, p.IsNumbered) (depth : Nat) :
    ∀ d ∈ (charsFrom (fun p => p.name.toList) depth pieces).head?, d.isDigit = false := by
  induction pieces generalizing depth with
  | nil => simp [charsFrom]
  | cons piece rest ih =>
    cases piece with
    | verbatim text =>
      rw [charsFrom, charsOf]
      rw [StartsClear] at clear
      split at clear
      · rename_i empty
        rw [empty]
        exact ih clear numbered _
      · rename_i c chars htext
        rw [htext]
        simpa using clear
    | identifier name => simp [charsFrom, charsOf, quote]
    | literal text => simp [charsFrom, charsOf, quote]
    | param p =>
      obtain ⟨digits, -, -, name⟩ := numbered p (List.mem_cons_self ..)
      simp [charsFrom, charsOf, name]
    | newLine => simp [charsFrom, charsOf]
    | indent => exact ih clear numbered _
    | unindent => exact ih clear numbered _

theorem all_isPlain_indentation (depth : Nat) : (indentation depth).all isPlain = true := by
  simp [indentation, isPlain]

/-- **The reader finds the names that were written**, and changes nothing else. -/
theorem replaceNames_chars {params : List (String × Value)} {write : Parameter → List Char}
    {pieces : List Piece} (readable : Readable pieces)
    (numbered : ∀ p ∈ references pieces, p.IsNumbered)
    (bound : ∀ p ∈ references pieces, Rendered.placeholder params p.name = .ok (write p))
    (depth : Nat) :
    Rendered.replaceNames params none (charsFrom (fun p => p.name.toList) depth pieces)
      = .ok (charsFrom write depth pieces) := by
  induction pieces generalizing depth with
  | nil => rw [charsFrom, charsFrom, Rendered.replaceNames]
  | cons piece rest ih =>
    cases piece with
    | verbatim text =>
      exact Rendered.replaceNames_plain readable.1 (ih readable.2 numbered bound _)
    | identifier name =>
      exact Rendered.replaceNames_quote (.inr rfl) name (ih readable numbered bound _)
    | literal text =>
      exact Rendered.replaceNames_quote (.inl rfl) text (ih readable numbered bound _)
    | param p =>
      have later : ∀ q ∈ references rest, q ∈ references (param p :: rest) :=
        fun q mem => List.mem_cons_of_mem p mem
      have here : p ∈ references (param p :: rest) := List.mem_cons_self ..
      exact Rendered.replaceNames_name (numbered p here)
        (readable.1.head (fun q mem => numbered q (later q mem)) _) (bound p here)
        (ih readable.2 (fun q mem => numbered q (later q mem))
          (fun q mem => bound q (later q mem)) _)
    | newLine =>
      refine Rendered.replaceNames_plain ?_ (ih readable numbered bound _)
      rw [charsOf, List.all_cons, all_isPlain_indentation]
      rfl
    | indent => exact ih readable numbered bound _
    | unindent => exact ih readable numbered bound _

/-- **Names become placeholders.**  If the pieces are readable and all names are numbered, the text
with placeholders is the text in which every parameter is written as its placeholder. -/
theorem positional_eq {pieces : List Piece} (readable : Readable pieces)
    (numbered : ∀ p ∈ references pieces, p.IsNumbered) :
    (render pieces).positional
      = .ok (String.ofList (chars (render pieces).placeholderOf pieces)) := by
  have bound : ∀ p ∈ references pieces,
      Rendered.placeholder (render pieces).params p.name
        = .ok ((render pieces).placeholderOf p) := fun p mem =>
    Rendered.placeholder_eq (name_mem_params mem)
  have written := replaceNames_chars readable numbered bound 0
  rw [Rendered.positional]
  simp only [render, String.toList_ofList, chars] at written ⊢
  rw [written]
  rfl

/-! ### The order of the numbers -/

/-- Renaming injectively keeps the order of first occurrences. -/
theorem eraseDups_map {f : String → Nat} :
    ∀ names : List String, (∀ a ∈ names, ∀ b ∈ names, f a = f b → a = b) →
      (names.map f).eraseDups = names.eraseDups.map f
  | [], _ => rfl
  | name :: rest, injective => by
    have others : (rest.map f).filter (fun n => !n == f name)
        = (rest.filter (fun other => !other == name)).map f := by
      rw [List.filter_map]
      congr 1
      refine List.filter_congr (fun other mem => ?_)
      by_cases same : other = name
      · simp [same]
      · have differ : f other ≠ f name := fun h =>
          same (injective other (.tail _ mem) name (.head _) h)
        simp [same, differ]
    rw [List.map_cons, List.eraseDups_cons, List.eraseDups_cons, List.map_cons, others,
      eraseDups_map]
    intro a ha b hb
    exact injective a (.tail _ (List.mem_filter.mp ha).1) b (.tail _ (List.mem_filter.mp hb).1)
termination_by names => names.length
decreasing_by
  have := List.length_filter_le (fun other => !other == name) rest
  simp only [List.length_cons]
  omega

/-- **Numbers are first used in ascending order**, from one up to the number of parameters. -/
theorem eraseDups_places (pieces : List Piece) :
    ((references pieces).map (fun p => (render pieces).place p.name)).eraseDups
      = List.range' 1 (render pieces).params.length := by
  obtain ⟨names, nodup⟩ := map_fst_params pieces
  have injective : ∀ a ∈ (references pieces).map Parameter.name,
      ∀ b ∈ (references pieces).map Parameter.name,
      (render pieces).place a = (render pieces).place b → a = b := by
    intro a ha b hb same
    have known : ∀ c ∈ (references pieces).map Parameter.name,
        c ∈ (render pieces).params.map Prod.fst := fun c hc => by
      rw [render, names]
      exact List.mem_eraseDups.mpr hc
    have left := Rendered.getElem?_place (known a ha)
    rw [same, Rendered.getElem?_place (known b hb)] at left
    exact (Option.some.inj left).symm
  have split : (references pieces).map (fun p => (render pieces).place p.name)
      = ((references pieces).map Parameter.name).map (render pieces).place := by
    rw [List.map_map]
    rfl
  rw [split, eraseDups_map _ injective, ← names]
  refine List.ext_getElem (by simp [render]) (fun n h₁ h₂ => ?_)
  rw [List.getElem_map, List.getElem_range', Rendered.place]
  have index := nodup.idxOf_getElem n (by simpa using h₁)
  simp only [render]
  rw [index]
  omega

end Piece

end ResourceQuery.Sql
