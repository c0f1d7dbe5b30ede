import Typings.Json.Scalar

/-!
The tree of a JSON text. A text that fails somewhere still has a tree: it ends where the text
fails, with what is wrong there. So a reader that walks the tree from left to right meets the
first thing that is wrong, be it the text or the value.
-/

namespace Typings.Json

/-- What stands where a record names a field: a text, or a value of another kind. -/
inductive Key (α : Type) where
  | text (pieces : List Piece)
  | other (value : α)

/-- The tree of a text. Numbers and texts are kept as they are written; a list or a record may end
with a flaw in place of its bracket. -/
inductive Tree where
  | broken (cause : Malformed)
  | null
  | boolean (value : Bool)
  | number (value : Numeral)
  | text (pieces : List Piece)
  | list (items : List Tree) (flaw : Option Malformed)
  | record (fields : List (Key Tree × Tree)) (flaw : Option Malformed)

namespace Tree

/-- Fewer than `m` characters, where `n` is no more. -/
def widen {m n : Nat} (rest : Option (Below n)) (h : n ≤ m) : Option (Below m) :=
  rest.map fun cs => ⟨cs.1, Nat.lt_of_lt_of_le cs.2 h⟩

/-- The characters that may stand between the parts of a text. -/
def isSpace (c : Char) : Bool :=
  c == ' ' || c == '\t' || c == '\n' || c == '\r'

/-- A text without the space at its front. -/
def skip (cs : List Char) : UpTo cs.length :=
  match cs with
  | [] => ⟨[], by simp⟩
  | c :: cs =>
    if isSpace c then ⟨(skip cs).1, Nat.le_succ_of_le (skip cs).2⟩ else ⟨c :: cs, Nat.le_refl _⟩

/-- The literal `value`, of which `word` has to follow. -/
def literal (word : String) (value : Tree) (cs : List Char)
    : Tree × Option (Below (cs.length + 1)) :=
  if word.toList.isPrefixOf cs then
    (value, some ⟨cs.drop word.length, by rw [List.length_drop]; omega⟩)
  else (.broken (if cs.isPrefixOf word.toList then .endInValue else .noLiteral), none)

/-- The number at the front of a text. -/
def readNumber (cs : List Char) : Tree × Option (Below cs.length) :=
  match Numeral.read cs with
  | .error cause => (.broken cause, none)
  | .ok (value, rest) => (.number value, some rest)

/-- The text whose opening quote has been passed. -/
def readText (cs : List Char) : Tree × Option (Below (cs.length + 1)) :=
  match h : Piece.read cs with
  | .error cause => (.broken cause, none)
  | .ok (pieces, rest) => (.text pieces, some ⟨rest, Nat.lt_succ_of_le (Piece.length_read_le h)⟩)

/-- The value that begins with `c`, if it is neither a list nor a record. -/
def readScalar (c : Char) (cs : List Char) : Tree × Option (Below (cs.length + 1)) :=
  match c with
  | 'n' => literal "ull" .null cs
  | 't' => literal "rue" (.boolean true) cs
  | 'f' => literal "alse" (.boolean false) cs
  | '"' => readText cs
  | c => if c.isDigit || c == '-' then readNumber (c :: cs) else (.broken .noValue, none)

/-- The parts of a list or a record, what is wrong with its end, and what follows it. -/
structure Parts (n : Nat) (α : Type) where
  parts : List α
  flaw : Option Malformed
  rest : Option (Below n)

mutual
/-- The value at the front of a text, and what follows it unless the text fails. -/
def read (cs : List Char) : Tree × Option (Below cs.length) :=
  match skip cs with
  | ⟨[], _⟩ => (.broken .endInValue, none)
  | ⟨'[' :: rest, h⟩ =>
    let ⟨items, flaw, rest'⟩ := readItems rest
    (.list items flaw, widen rest' (by simp at h; omega))
  | ⟨'{' :: rest, h⟩ =>
    let ⟨fields, flaw, rest'⟩ := readFields rest
    (.record fields flaw, widen rest' (by simp at h; omega))
  | ⟨c :: rest, h⟩ =>
    let (tree, rest') := readScalar c rest
    (tree, widen rest' h)
termination_by 3 * cs.length
decreasing_by all_goals (simp only [List.length_cons] at h; omega)

/-- The items of a list whose opening bracket has been passed. -/
def readItems (cs : List Char) : Parts cs.length Tree :=
  match skip cs with
  | ⟨[], _⟩ => ⟨[], some .endInList, none⟩
  | ⟨']' :: rest, h⟩ => ⟨[], none, some ⟨rest, by simp at h; omega⟩⟩
  | ⟨c :: rest, h⟩ =>
    let ⟨items, flaw, rest'⟩ := readItem (c :: rest)
    ⟨items, flaw, widen rest' h⟩
termination_by 3 * cs.length + 2
decreasing_by all_goals (simp only [List.length_cons] at h ⊢; omega)

/-- The next item of a list and those after it. -/
def readItem (cs : List Char) : Parts cs.length Tree :=
  match read cs with
  | (item, none) => ⟨[item], none, none⟩
  | (item, some ⟨rest, h⟩) =>
    match skip rest with
    | ⟨[], _⟩ => ⟨[item], some .endInList, none⟩
    | ⟨']' :: rest₁, h₁⟩ => ⟨[item], none, some ⟨rest₁, by simp at h₁; omega⟩⟩
    | ⟨',' :: rest₁, h₁⟩ =>
      let ⟨rest₂, h₂⟩ := skip rest₁
      if rest₂.head? = some ']' then ⟨[item], some .trailingComma, none⟩
      else
        let ⟨items, flaw, rest₃⟩ := readItem rest₂
        ⟨item :: items, flaw, widen rest₃ (by simp at h₁; omega)⟩
    | ⟨_ :: _, _⟩ => ⟨[item], some .noCommaInList, none⟩
termination_by 3 * cs.length + 1
decreasing_by
  · omega
  · simp only [List.length_cons] at h₁
    omega

/-- The fields of a record whose opening brace has been passed. -/
def readFields (cs : List Char) : Parts cs.length (Key Tree × Tree) :=
  match skip cs with
  | ⟨[], _⟩ => ⟨[], some .endInRecord, none⟩
  | ⟨'}' :: rest, h⟩ => ⟨[], none, some ⟨rest, by simp at h; omega⟩⟩
  | ⟨c :: rest, h⟩ =>
    let ⟨fields, flaw, rest'⟩ := readField (c :: rest)
    ⟨fields, flaw, widen rest' h⟩
termination_by 3 * cs.length + 2
decreasing_by all_goals (simp only [List.length_cons] at h ⊢; omega)

/-- The next field of a record and those after it. -/
def readField (cs : List Char) : Parts cs.length (Key Tree × Tree) :=
  match cs with
  | [] => ⟨[], some .endInValue, none⟩
  | '"' :: cs =>
    match h : Piece.read cs with
    | .error cause => ⟨[], some cause, none⟩
    | .ok (pieces, rest) =>
      have := Piece.length_read_le h
      match skip rest with
      | ⟨[], _⟩ => ⟨[(.text pieces, .broken .endInRecord)], none, none⟩
      | ⟨':' :: rest₁, h₁⟩ =>
        match read rest₁ with
        | (value, none) => ⟨[(.text pieces, value)], none, none⟩
        | (value, some ⟨rest₂, h₂⟩) =>
          match skip rest₂ with
          | ⟨[], _⟩ => ⟨[(.text pieces, value)], some .endInRecord, none⟩
          | ⟨'}' :: rest₃, h₃⟩ =>
            ⟨[(.text pieces, value)], none, some ⟨rest₃, by simp at *; omega⟩⟩
          | ⟨',' :: rest₃, h₃⟩ =>
            let ⟨rest₄, h₄⟩ := skip rest₃
            if rest₄.head? = some '}' then
              ⟨[(.text pieces, value)], some .trailingComma, none⟩
            else
              let ⟨fields, flaw, rest₅⟩ := readField rest₄
              ⟨(.text pieces, value) :: fields, flaw, widen rest₅ (by simp at *; omega)⟩
          | ⟨_ :: _, _⟩ => ⟨[(.text pieces, value)], some .noCommaInRecord, none⟩
      | ⟨_ :: _, _⟩ => ⟨[(.text pieces, .broken .noColon)], none, none⟩
  | c :: cs => ⟨[(.other (read (c :: cs)).1, .broken .noKey)], none, none⟩
termination_by 3 * cs.length + 1
decreasing_by all_goals (simp only [List.length_cons] at *; omega)
end

/-- The tree of a whole text, and what is wrong behind it. -/
def ofText (text : String) : Tree × Option Malformed :=
  match read text.toList with
  | (tree, none) => (tree, none)
  | (tree, some ⟨rest, _⟩) =>
    match skip rest with
    | ⟨[], _⟩ => (tree, none)
    | ⟨_ :: _, _⟩ => (tree, some .trailing)

end Tree

end Typings.Json
