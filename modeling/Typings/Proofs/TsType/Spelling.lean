import Typings.Proofs.Hint.Printing

/-! The pieces that the texts of types are made of, and what a text that goes on with them tells:
words, numbers, string literals, keys, and lists of other pieces.
-/

namespace Typings.TsType

open Text Hint

-----------------------------------------------------------------------------------------
-- Types that are spelled so that they can be told
-----------------------------------------------------------------------------------------

/-- The words of types that are no names. -/
def fixedWords : List String :=
  Primitive.all.map Primitive.keyword ++ ["true", "false"]

/-- A parameter is named by an identifier but `this`, and is not optional if it takes the rest. -/
structure SpelledParam (param : Param TsType) : Prop where
  identifier : isIdentifier param.name = true
  notThis : param.name ≠ "this"
  single : ¬ (param.optional = true ∧ param.rest = true)

/-- The names and numbers of a type are names and numbers, and a union has several members that are
no unions, all this but for what is inside its parts. A property may have any name, and a string any
value.
-/
def Spelled : TsType → Prop
  | .named name _ => IsPath name ∧ name ∉ fixedWords
  | .numberLiteral text => isNumberText text = true
  | .union members => 2 ≤ members.length ∧ ∀ member ∈ members, member.isUnion = false
  | .function params _ _ => ∀ param ∈ params, SpelledParam param
  | .object members =>
    ∀ key keyType valueType,
      .index key keyType valueType ∈ members → isIdentifier key = true
  | _ => True

/-- Every type inside is spelled as it should be. -/
def Legible (type : TsType) : Prop :=
  ∀ inner, Inside inner type → inner.Spelled

variable {type : TsType}

theorem legible_iff : type.Legible ↔ type.Spelled ∧ ∀ part ∈ type.parts, part.Legible := by
  constructor
  · intro legible
    exact ⟨legible type .self, fun part mem inner inside => legible inner (.part mem inside)⟩
  · rintro ⟨spelled, below⟩ inner (_ | ⟨mem, inside⟩)
    · exact spelled
    · exact below _ mem inner inside

theorem Legible.own (legible : type.Legible) : type.Spelled :=
  (legible_iff.mp legible).1

theorem Legible.part (legible : type.Legible) {part : TsType} (mem : part ∈ type.parts)
    : part.Legible :=
  (legible_iff.mp legible).2 part mem

/-- The alternatives of a legible type are legible, and there are some. -/
theorem Legible.alternatives (legible : type.Legible)
    : type.alternatives ≠ [] ∧ ∀ alternative ∈ type.alternatives, alternative.Legible := by
  cases type with
  | union members =>
      have spelled : 2 ≤ members.length ∧ ∀ member ∈ members, member.isUnion = false := legible.own
      refine ⟨?_, fun member mem => legible.part mem⟩
      rintro (rfl : members = [])
      cases spelled.1
  | _ => exact ⟨List.cons_ne_nil _ _, fun _ mem => List.mem_singleton.mp mem ▸ legible⟩

-----------------------------------------------------------------------------------------
-- What may follow a piece
-----------------------------------------------------------------------------------------

/-- Nothing follows, or something that begins with one of `chars`. -/
def HeadIn (chars rest : List Char) : Prop :=
  ∀ c ∈ rest.head?, c ∈ chars

/-- The characters that may follow a type. -/
def closers : List Char :=
  [',', '>', ')', ';', ']']

/-- The characters that may follow an alternative or the element of an array. -/
def breaks : List Char :=
  ' ' :: '[' :: closers

variable {chars others word other front rest later : List Char} {c d : Char}

theorem headIn_cons (mem : c ∈ chars) : HeadIn chars (c :: rest) := by
  rintro _ ⟨⟩
  exact mem

theorem headIn_nil (chars : List Char) : HeadIn chars [] :=
  nofun

theorem HeadIn.mono (head : HeadIn chars rest) (subset : chars ⊆ others) : HeadIn others rest :=
  fun c first => subset (head c first)

theorem breaks_of_closers (head : HeadIn closers rest) : HeadIn breaks rest :=
  head.mono fun _ mem => List.mem_cons_of_mem _ (List.mem_cons_of_mem _ mem)

/-- What holds of no character that may follow does not hold of the one that does. -/
theorem HeadIn.fails {p : Char → Bool} (head : HeadIn chars rest) (none : chars.any p = false)
    : ∀ c ∈ rest.head?, p c = false :=
  fun c first => Bool.eq_false_iff.mpr (List.any_eq_false.mp none c (head c first))

theorem not_mem_of_fails {p : Char → Bool} (holds : p c = true) (none : chars.any p = false)
    : c ∉ chars :=
  fun mem => List.any_eq_false.mp none c mem holds

/-- A text tells where the characters of one sort at its front end. -/
theorem eq_of_span {p : Char → Bool} (each : ∀ c ∈ word, p c = true)
    (eachOther : ∀ c ∈ other, p c = true) (ends : ∀ c ∈ rest.head?, p c = false)
    (endsLater : ∀ c ∈ later.head?, p c = false) (same : word ++ rest = other ++ later)
    : word = other ∧ rest = later := by
  obtain ⟨takes, _⟩ := span_of_head ends
  obtain ⟨takesLater, _⟩ := span_of_head endsLater
  have fronts := congrArg (List.takeWhile p) same
  rw [List.takeWhile_append_of_pos each, List.takeWhile_append_of_pos eachOther, takes,
    takesLater, List.append_nil, List.append_nil] at fronts
  subst fronts
  exact ⟨rfl, List.append_cancel_left same⟩

-----------------------------------------------------------------------------------------
-- Words
-----------------------------------------------------------------------------------------

/-- A path goes on with what names go on with, and with points. -/
def isPathChar (c : Char) : Bool :=
  isNameChar c || c == '.'

/-- An identifier, or several with points between them, all of one text. -/
def IsWord (word : List Char) : Prop :=
  (∃ c cs, word = c :: cs ∧ isNameStart c = true) ∧ ∀ c ∈ word, isPathChar c = true

theorem isWord_of_isIdentifier {name : String} (identifier : isIdentifier name = true)
    : IsWord name.toList := by
  obtain ⟨c, cs, split, starts, names⟩ := chars_of_isIdentifier identifier
  refine ⟨⟨c, cs, split, starts⟩, fun d mem => ?_⟩
  rw [split] at mem
  simp [isPathChar, names d mem]

theorem isWord_of_isPath {name : String} (path : IsPath name) : IsWord name.toList := by
  refine ⟨?_, fun c mem => by simpa [isPathChar] using mem_path path mem⟩
  rcases path with ⟨_ | ⟨first, segments⟩, nonempty, identifiers, rfl⟩
  · exact absurd rfl nonempty
  · obtain ⟨c, cs, split, starts, _⟩ := chars_of_isIdentifier (identifiers first List.mem_cons_self)
    rw [toList_intercalate_cons, split]
    exact ⟨c, _, rfl, starts⟩

/-- Only what begins a name begins an identifier. -/
theorem cons_ne_identifier {name : String} {back : List Char}
    (identifier : isIdentifier name = true) (noName : isNameStart c = false)
    : c :: front ≠ name.toList ++ back := by
  obtain ⟨d, ds, split, starts, _⟩ := chars_of_isIdentifier identifier
  rw [split]
  intro same
  cases (List.cons.inj same).1
  cases noName.symm.trans starts

/-- Names of parameters and keys are told by the colon or question mark behind them. -/
theorem identifier_unique {left right : String} (identifier : isIdentifier left = true)
    (otherIdentifier : isIdentifier right = true) (marked : HeadIn [':', '?'] rest)
    (otherMarked : HeadIn [':', '?'] later)
    (same : left.toList ++ rest = right.toList ++ later)
    : left = right ∧ rest = later := by
  obtain ⟨c, cs, split, _, names⟩ := chars_of_isIdentifier identifier
  obtain ⟨d, ds, otherSplit, _, otherNames⟩ := chars_of_isIdentifier otherIdentifier
  have unnamed : [':', '?'].any isNameChar = false := by decide
  obtain ⟨texts, rests⟩ :=
    eq_of_span (split ▸ names) (otherSplit ▸ otherNames) (marked.fails unnamed)
      (otherMarked.fails unnamed) same
  exact ⟨String.toList_inj.mp texts, rests⟩

-----------------------------------------------------------------------------------------
-- Numbers and strings
-----------------------------------------------------------------------------------------

/-- A digit or a minus sign begins a number. -/
def opensNumber (c : Char) : Bool :=
  c.isDigit || c == '-'

theorem exists_of_isNumberText {text : String} (numeric : isNumberText text = true)
    : ∃ c cs,
        text.toList = c :: cs ∧ opensNumber c = true ∧ ∀ d ∈ cs, Lexeme.isNumberChar d = true := by
  obtain ⟨c, cs, split, begins, more⟩ := begins_of_isNumberText numeric []
  refine ⟨c, cs, split, ?_, more⟩
  simp only [Lexeme.beginsNumber, Bool.or_eq_true, Bool.and_eq_true] at begins
  simpa [opensNumber] using begins.imp_right And.left

theorem number_unique {left right : String} (numeric : isNumberText left = true)
    (otherNumeric : isNumberText right = true) (ends : HeadIn breaks rest)
    (otherEnds : HeadIn breaks later) (same : left.toList ++ rest = right.toList ++ later)
    : left = right ∧ rest = later := by
  obtain ⟨c, cs, split, _, more⟩ := exists_of_isNumberText numeric
  obtain ⟨d, ds, otherSplit, _, otherMore⟩ := exists_of_isNumberText otherNumeric
  rw [split, otherSplit, List.cons_append, List.cons_append] at same
  obtain ⟨rfl, tails⟩ := List.cons.inj same
  have unnumbered : breaks.any Lexeme.isNumberChar = false := by decide
  obtain ⟨rfl, rests⟩ :=
    eq_of_span more otherMore (ends.fails unnumbered) (otherEnds.fails unnumbered) tails
  exact ⟨String.toList_inj.mp (split.trans otherSplit.symm), rests⟩

/-- What a character is escaped as begins no escape of another one. -/
theorem escape_unique (same : escape c ++ rest = escape d ++ later) : c = d ∧ rest = later := by
  unfold escape at same
  grind

theorem head_escape (c : Char) : (escape c).head? ≠ some '"' := by
  unfold escape
  split <;> simp_all

/-- Up to the closing quote the text of a string tells its value, by induction on both values. -/
theorem escaped_unique {cs ds : List Char}
    (same : cs.flatMap escape ++ '"' :: rest = ds.flatMap escape ++ '"' :: later)
    : cs = ds ∧ rest = later := by
  have open_ne {c : Char} {front back tail : List Char}
      (same : '"' :: tail = (escape c ++ front) ++ back)
      : False := by
    have heads := congrArg List.head? same
    have nonempty : escape c ≠ [] := by
      unfold escape
      split <;> simp
    rw [List.append_assoc, List.head?_append_of_ne_nil _ nonempty] at heads
    exact head_escape c heads.symm
  induction cs generalizing ds with
  | nil =>
      cases ds with
      | nil => exact ⟨rfl, (List.cons.inj same).2⟩
      | cons d ds => exact (open_ne same).elim
  | cons c cs ih =>
      cases ds with
      | nil => exact (open_ne same.symm).elim
      | cons d ds =>
          simp only [List.flatMap_cons, List.append_assoc] at same
          obtain ⟨rfl, tails⟩ := escape_unique same
          obtain ⟨rfl, rests⟩ := ih tails
          exact ⟨rfl, rests⟩

theorem toList_quote (value : String)
    : (quote value).toList = '"' :: (value.toList.flatMap escape ++ ['"']) :=
  String.toList_ofList

theorem quote_unique {left right : String}
    (same : (quote left).toList ++ rest = (quote right).toList ++ later)
    : left = right ∧ rest = later := by
  rw [toList_quote, toList_quote, List.cons_append, List.cons_append, List.append_assoc,
    List.append_assoc] at same
  obtain ⟨values, rests⟩ := escaped_unique (List.cons.inj same).2
  exact ⟨String.toList_inj.mp values, rests⟩

/-- Only what begins a name, or a quote, begins the key of a property. -/
theorem cons_ne_propertyKey {name : String} {back : List Char} (noName : isNameStart c = false)
    (noQuote : c ≠ '"')
    : c :: front ≠ (propertyKey name).toList ++ back := by
  unfold propertyKey
  split
  · rename_i identifier
    exact cons_ne_identifier identifier noName
  · rw [toList_quote]
    intro same
    exact noQuote (List.cons.inj same).1

/-- The key of a property tells its name, quoted or not. -/
theorem propertyKey_unique {left right : String} (marked : HeadIn [':', '?'] rest)
    (otherMarked : HeadIn [':', '?'] later)
    (same : (propertyKey left).toList ++ rest = (propertyKey right).toList ++ later)
    : left = right ∧ rest = later := by
  have quoted_ne {name value : String} {front back : List Char}
      (identifier : isIdentifier name = true)
      : (quote value).toList ++ front ≠ name.toList ++ back := by
    rw [toList_quote]
    exact cons_ne_identifier identifier (by decide)
  unfold propertyKey at same
  split at same
  · rename_i identifier
    split at same
    · rename_i otherIdentifier
      exact identifier_unique identifier otherIdentifier marked otherMarked same
    · exact absurd same.symm (quoted_ne identifier)
  · split at same
    · rename_i identifier
      exact absurd same (quoted_ne identifier)
    · exact quote_unique same

theorem optionalMark_unique {left right : Bool}
    (same : (optionalMark left).toList ++ ':' :: rest = (optionalMark right).toList ++ ':' :: later)
    : left = right ∧ rest = later := by
  cases left <;> cases right <;> simp_all [optionalMark]

theorem headIn_optionalMark (optional : Bool) (rest : List Char)
    : HeadIn [':', '?'] ((optionalMark optional).toList ++ ':' :: rest) := by
  cases optional with
  | false => exact headIn_cons List.mem_cons_self
  | true => exact headIn_cons (List.mem_cons_of_mem ':' List.mem_cons_self)

-----------------------------------------------------------------------------------------
-- Lists of pieces
-----------------------------------------------------------------------------------------

section lists

variable {α : Type}

/-- Behind a piece of a list stands the next one or what follows the list. -/
theorem follows_flatMap {follows : List Char → Prop} {text : α → List Char}
    (goesOn : ∀ piece rest, follows (text piece ++ rest)) (ends : follows rest) (pieces : List α)
    : follows (pieces.flatMap text ++ rest) := by
  cases pieces with
  | nil => exact ends
  | cons piece pieces =>
      rw [List.flatMap_cons, List.append_assoc]
      exact goesOn piece _

/-- A text tells a list of pieces if it tells each one, by induction on both lists. No piece begins
what follows the list.
-/
theorem flatMap_unique (follows : List Char → Prop) {text : α → List Char} {left right : List α}
    (unique
      : ∀ a ∈ left,
          ∀ b ∈ right,
            ∀ rest later,
              follows rest
              → follows later
              → text a ++ rest = text b ++ later
              → a = b ∧ rest = later)
    (goesOn : ∀ piece rest, follows (text piece ++ rest)) (ends : follows rest)
    (otherEnds : follows later) (apart : ∀ piece more, rest ≠ text piece ++ more)
    (otherApart : ∀ piece more, later ≠ text piece ++ more)
    (same : left.flatMap text ++ rest = right.flatMap text ++ later)
    : left = right ∧ rest = later := by
  induction left generalizing right with
  | nil =>
      cases right with
      | nil => exact ⟨rfl, same⟩
      | cons b right =>
          rw [List.flatMap_cons, List.append_assoc] at same
          exact absurd same (apart b _)
  | cons a left ih =>
      cases right with
      | nil =>
          rw [List.flatMap_cons, List.append_assoc] at same
          exact absurd same.symm (otherApart a _)
      | cons b right =>
          simp only [List.flatMap_cons, List.append_assoc] at same
          obtain ⟨rfl, tails⟩ :=
            unique a List.mem_cons_self b List.mem_cons_self _ _
              (follows_flatMap goesOn ends left) (follows_flatMap goesOn otherEnds right) same
          obtain ⟨rfl, rests⟩ :=
            ih (fun a listed b otherListed => unique a (List.mem_cons_of_mem _ listed) b
              (List.mem_cons_of_mem _ otherListed)) tails
          exact ⟨rfl, rests⟩

/-- A text tells pieces with separators between them if it tells each piece in front of a separator
and of what follows the list.
-/
theorem intercalate_unique {text : α → String} {separator : String} {mark : Char}
    {more : List Char} (isSeparator : separator.toList = mark :: more) (marks : mark ∈ chars)
    {a b : α} {left right : List α}
    (unique
      : ∀ first ∈ a :: left,
          ∀ second ∈ b :: right,
            ∀ rest later,
              HeadIn chars rest
              → HeadIn chars later
              → (text first).toList ++ rest = (text second).toList ++ later
              → first = second ∧ rest = later)
    (ends : HeadIn chars rest) (otherEnds : HeadIn chars later) (apart : rest.head? ≠ some mark)
    (otherApart : later.head? ≠ some mark)
    (same
      : (separator.intercalate ((a :: left).map text)).toList ++ rest
        = (separator.intercalate ((b :: right).map text)).toList ++ later)
    : a :: left = b :: right ∧ rest = later := by
  have separates (piece : α) (rest : List Char)
      : separator.toList ++ (text piece).toList ++ rest
        = mark :: (more ++ ((text piece).toList ++ rest)) := by
    rw [isSeparator, List.append_assoc, List.cons_append]
  have goesOn (piece : α) (rest : List Char)
      : HeadIn chars (separator.toList ++ (text piece).toList ++ rest) :=
    separates piece rest ▸ headIn_cons marks
  rw [List.map_cons, List.map_cons, toList_intercalate_cons, toList_intercalate_cons, separated,
    separated, List.flatMap_map, List.flatMap_map, List.append_assoc, List.append_assoc] at same
  obtain ⟨rfl, tails⟩ :=
    unique a List.mem_cons_self b List.mem_cons_self _ _ (follows_flatMap goesOn ends left)
      (follows_flatMap goesOn otherEnds right) same
  obtain ⟨rfl, rests⟩ := by
    refine flatMap_unique (HeadIn chars) ?_ goesOn ends otherEnds ?_ ?_ tails
    · intro first listed second otherListed rest later ends otherEnds same
      rw [List.append_assoc, List.append_assoc] at same
      exact unique first (List.mem_cons_of_mem _ listed) second
        (List.mem_cons_of_mem _ otherListed) rest later ends otherEnds
        (List.append_cancel_left same)
    · intro piece more same
      exact apart (by rw [same, separates, List.head?_cons])
    · intro piece more same
      exact otherApart (by rw [same, separates, List.head?_cons])
  exact ⟨rfl, rests⟩

end lists

end Typings.TsType
