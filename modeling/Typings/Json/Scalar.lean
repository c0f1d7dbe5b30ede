import Typings.Json.Fault

/-!
Texts and numbers of JSON. Their grammar is read first and their values are formed afterwards, so
a value that is skipped need only follow the grammar.
-/

namespace Typings.Json

/-- At most `n` characters. -/
abbrev UpTo (n : Nat) := { cs : List Char // cs.length ≤ n }

/-- Fewer than `n` characters. -/
abbrev Below (n : Nat) := { cs : List Char // cs.length < n }

/-- A piece of a text: a character, or a unit of 16 bits that an escape gives. -/
inductive Piece where
  | char (c : Char)
  | unit (code : Nat)
deriving DecidableEq

namespace Piece

/-- The value of a hexadecimal digit. -/
def hexDigit? (c : Char) : Option Nat :=
  if c.isDigit then some (c.toNat - '0'.toNat)
  else if 'a' ≤ c && c ≤ 'f' then some (c.toNat - 'a'.toNat + 10)
  else if 'A' ≤ c && c ≤ 'F' then some (c.toNat - 'A'.toNat + 10)
  else none

/-- The unit of four hexadecimal digits. -/
def unit? (a b c d : Char) : Option Piece := do
  return .unit ((← hexDigit? a) * 4096 + (← hexDigit? b) * 256 + (← hexDigit? c) * 16
    + (← hexDigit? d))

/-- The character of a short escape. -/
def escape? : Char → Option Piece
  | '"' => some (.char '"')
  | '\\' => some (.char '\\')
  | '/' => some (.char '/')
  | 'b' => some (.char '\x08')
  | 'f' => some (.char '\x0c')
  | 'n' => some (.char '\n')
  | 'r' => some (.char '\r')
  | 't' => some (.char '\t')
  | _ => none

/-- A piece in front of those that are read after it. -/
def before (piece : Piece) (after : Except Malformed (List Piece × List Char))
    : Except Malformed (List Piece × List Char) :=
  after.map fun (pieces, rest) => (piece :: pieces, rest)

/-- The pieces of a text up to its closing quote, and what follows it. -/
def read : List Char → Except Malformed (List Piece × List Char)
  | [] => .error .endInText
  | '"' :: cs => .ok ([], cs)
  | '\\' :: 'u' :: a :: b :: c :: d :: cs =>
    match unit? a b c d with
    | none => .error .badEscape
    | some piece => piece.before (read cs)
  | '\\' :: 'u' :: _ => .error .endInText
  | '\\' :: c :: cs =>
    match escape? c with
    | none => .error .badEscape
    | some piece => piece.before (read cs)
  | ['\\'] => .error .endInText
  | c :: cs =>
    if c.toNat < 32 then .error .controlCharacter
    else before (.char c) (read cs)

/-- Whether a unit is the first of a surrogate pair. -/
def isHigh (code : Nat) : Bool :=
  decide (0xd800 ≤ code) && decide (code ≤ 0xdbff)

/-- Whether a unit is the second of a surrogate pair. -/
def isLow (code : Nat) : Bool :=
  decide (0xdc00 ≤ code) && decide (code ≤ 0xdfff)

/-- The characters of pieces. Surrogates have to come in pairs. -/
def chars : List Piece → Except Malformed (List Char)
  | [] => .ok []
  | .char c :: pieces => (chars pieces).map (c :: ·)
  | .unit high :: .unit low :: pieces =>
    if isLow high then .error .loneSurrogate
    else if isHigh high then
      if isLow low then
        (chars pieces).map
          (Char.ofNat ((high - 0xd800) * 1024 + (low - 0xdc00) + 0x10000) :: ·)
      else .error .loneSurrogate
    else (chars (.unit low :: pieces)).map (Char.ofNat high :: ·)
  | .unit code :: pieces =>
    if isLow code then .error .loneSurrogate
    else if isHigh code then .error .openSurrogate
    else (chars pieces).map (Char.ofNat code :: ·)

/-- The text of pieces. -/
def text (pieces : List Piece) : Except Malformed String :=
  (chars pieces).map String.ofList

theorem exists_of_before {piece : Piece} {after : Except Malformed (List Piece × List Char)}
    {pieces : List Piece} {rest : List Char} (h : before piece after = .ok (pieces, rest))
    : ∃ pieces, after = .ok (pieces, rest) := by
  cases after with
  | error e => simp [before, Except.map] at h
  | ok p =>
    simp only [before, Except.map, Except.ok.injEq, Prod.mk.injEq] at h
    exact ⟨p.1, by rw [← h.2]⟩

/-- Reading a text goes forward. -/
theorem length_read_le {cs rest : List Char} {pieces : List Piece}
    (h : read cs = .ok (pieces, rest))
    : rest.length ≤ cs.length := by
  fun_induction read cs generalizing pieces <;> try contradiction
  case case2 => cases h; simp
  all_goals
    rename_i ih
    obtain ⟨pieces, h⟩ := exists_of_before h
    have := ih h
    simp only [List.length_cons]
    omega

end Piece

namespace Numeral

/-- The value of a decimal digit. -/
def digit (c : Char) : Nat :=
  c.toNat - '0'.toNat

/-- The digits at the front of a text. At least one has to stand there. -/
def readDigits (cs : List Char) : Except Malformed (List Nat × Below cs.length) :=
  match cs with
  | [] => .error .endInValue
  | c :: cs =>
    if c.isDigit then
      .ok ((c :: cs.takeWhile Char.isDigit).map digit,
        ⟨cs.dropWhile Char.isDigit, Nat.lt_succ_of_le (List.dropWhile_suffix _).length_le⟩)
    else .error .badNumber

/-- The whole part of a number, which begins with a zero only if it is one. -/
def readWhole (cs : List Char) : Except Malformed (List Nat × Below cs.length) :=
  match cs with
  | '0' :: rest =>
    if rest.head?.any Char.isDigit then .error .badNumber else .ok ([0], ⟨rest, by simp⟩)
  | cs => readDigits cs

/-- The digits behind a point, if one stands next. -/
def readFraction (cs : List Char) : Except Malformed (Option (List Nat) × UpTo cs.length) :=
  match cs with
  | '.' :: rest =>
    match readDigits rest with
    | .error cause => .error cause
    | .ok (digits, ⟨rest, h⟩) => .ok (some digits, ⟨rest, by simp; omega⟩)
  | cs => .ok (none, ⟨cs, by simp⟩)

/-- The sign at the front of a text, which is a plus sign or none unless it says otherwise. -/
def readSign (cs : List Char) : Bool × UpTo cs.length :=
  match cs with
  | '-' :: rest => (true, ⟨rest, by simp⟩)
  | '+' :: rest => (false, ⟨rest, by simp⟩)
  | cs => (false, ⟨cs, by simp⟩)

/-- The sign and the digits of an exponent, if one stands next. -/
def readExponent (cs : List Char)
    : Except Malformed (Option (Bool × List Nat) × UpTo cs.length) :=
  match cs with
  | 'e' :: rest | 'E' :: rest =>
    let (negative, ⟨rest₁, h₁⟩) := readSign rest
    match readDigits rest₁ with
    | .error cause => .error cause
    | .ok (digits, ⟨rest₂, h₂⟩) => .ok (some (negative, digits), ⟨rest₂, by simp; omega⟩)
  | cs => .ok (none, ⟨cs, by simp⟩)

/-- The number without a sign at the front of a text. -/
def readUnsigned (negative : Bool) (cs : List Char)
    : Except Malformed (Numeral × Below cs.length) :=
  match readWhole cs with
  | .error cause => .error cause
  | .ok (whole, ⟨rest₁, h₁⟩) =>
    match readFraction rest₁ with
    | .error cause => .error cause
    | .ok (fraction, ⟨rest₂, h₂⟩) =>
      match readExponent rest₂ with
      | .error cause => .error cause
      | .ok (exponent, ⟨rest₃, h₃⟩) =>
        .ok (⟨negative, whole, fraction, exponent⟩, ⟨rest₃, by omega⟩)

/-- The number at the front of a text. -/
def read (cs : List Char) : Except Malformed (Numeral × Below cs.length) :=
  match cs with
  | '-' :: rest =>
    match readUnsigned true rest with
    | .error cause => .error cause
    | .ok (numeral, ⟨rest, h⟩) => .ok (numeral, ⟨rest, by simp; omega⟩)
  | cs => readUnsigned false cs

end Numeral

end Typings.Json
