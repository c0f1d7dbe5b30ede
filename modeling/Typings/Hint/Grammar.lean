import Typings.Hint.Fault
import Typings.Hint.Reference
import Typings.Hint.Scan
import Typings.TsType.Union

/-!
The grammar of hints, read from left to right with at most two tokens in view. Each reader
returns its value with the tokens that are left, and a proof that they are fewer (`Read`), by
which the readers end.
-/

namespace Typings

/-- A type as documentation writes it: with the marks of an optional and of a variable
parameter. -/
structure Hint where
  type : TsType
  optional : Bool
  variadic : Bool
deriving DecidableEq

namespace Hint

/-- A value read off the front of some tokens, with fewer than `bound` tokens left. -/
structure Read (bound : Nat) (α : Type) where
  value : α
  rest : List Token.Kind
  fewer : rest.length < bound

/-- A reader's answer. -/
abbrev Reading (bound : Nat) (α : Type) :=
  Except Fault (Read bound α)

/-- The same value where more tokens may be left. -/
def Read.widen {α : Type} {m n : Nat} (read : Read m α) (h : m ≤ n) : Read n α :=
  ⟨read.value, read.rest, Nat.lt_of_lt_of_le read.fewer h⟩

/-- A token more in front leaves room for as many tokens behind. -/
theorem length_lt_cons {token : Token.Kind} {rest rest₁ : List Token.Kind}
    (h : rest₁.length < rest.length + 1)
    : rest₁.length < (token :: rest).length + 1 :=
  Nat.lt_succ_of_lt h

/-- Whether a type ends before `ts`, so that a question mark in front of them stands alone. -/
def endsType : List Token.Kind → Bool
  | [] => true
  | t :: _ =>
    match t with
    | .comma | .rightParen | .rightAngle | .rightBrace | .pipe | .equals => true
    | _ => false

/-- Passes the token `wanted`, which has to stand next. -/
def expect {α : Type} {n : Nat} (wanted : Token.Kind) (value : α) (ts : List Token.Kind)
    (h : ts.length < n)
    : Reading n α :=
  match ts with
  | t :: rest =>
    if t = wanted then .ok ⟨value, rest, Nat.lt_of_succ_lt h⟩
    else .error (.expected wanted (t :: rest))
  | [] => .error (.expected wanted [])

/-- The marks behind an atom: brackets make an array of it, a question mark admits null, and an
exclamation mark says nothing new. -/
def readMarks {n : Nat} (type : TsType) (ts : List Token.Kind) (h : ts.length < n)
    : Read n TsType :=
  match ts with
  | .leftBracket :: .rightBracket :: rest =>
    readMarks (.array type) rest (Nat.lt_of_succ_lt (Nat.lt_of_succ_lt h))
  | .question :: rest => readMarks type.orNull rest (Nat.lt_of_succ_lt h)
  | .bang :: rest => readMarks type rest (Nat.lt_of_succ_lt h)
  | ts => ⟨type, ts, h⟩

/-- The mark of an optional parameter, behind its type. -/
def readOptional {n : Nat} (type : TsType) (variadic : Bool) (ts : List Token.Kind)
    (h : ts.length < n)
    : Read n Hint :=
  match ts with
  | .equals :: rest => ⟨⟨type, true, variadic⟩, rest, Nat.lt_of_succ_lt h⟩
  | ts => ⟨⟨type, false, variadic⟩, ts, h⟩

/-- The name that a token gives to a field of a record. -/
def fieldName? : Token.Kind → Option String
  | .name text => some text
  | .string value => some value
  | .number text => some text
  | .function => some "function"
  | .null => some "null"
  | .undefined => some "undefined"
  | .true => some "true"
  | .false => some "false"
  | _ => none

/-- An argument in the type of a function: the type of its receiver, the type that it constructs,
or a parameter. -/
inductive Argument where
  | receiver (type : TsType)
  | constructs (type : TsType)
  | param (hint : Hint)

namespace Argument

def receiver? : Argument → Option TsType
  | receiver type => some type
  | _ => none

def constructs? : Argument → Option TsType
  | constructs type => some type
  | _ => none

def param? : Argument → Option Hint
  | param hint => some hint
  | _ => none

/-- The parameter in place `index`. A variable one takes an array and is never optional. -/
def toParam (hint : Hint) (index : Nat) : Param TsType :=
  let name := "arg" ++ toString index
  if hint.variadic then ⟨name, .array hint.type, false, true⟩
  else ⟨name, hint.type, hint.optional, false⟩

/-- The parameters among the arguments, named by their places. -/
def params (arguments : List Argument) : List (Param TsType) :=
  (arguments.filterMap param?).mapIdx fun index hint => toParam hint index

/-- The function type with these arguments. Without a result of its own it returns what it
constructs, if that is said, or anything; of several receivers or constructed types the last
counts. -/
def functionType (arguments : List Argument) (result : Option TsType) : TsType :=
  .function (params arguments)
    (result.getD ((arguments.filterMap constructs?).getLast?.getD .any))
    (arguments.filterMap receiver?).getLast?

end Argument

mutual
/-- A type with its marks: three points before it, an equals sign behind it. -/
def readMarked (ts : List Token.Kind) : Reading ts.length Hint :=
  match ts with
  | .ellipsis :: rest =>
    if endsType rest then .ok (readOptional .any true rest (Nat.lt_succ_self _))
    else
      match readUnion rest with
      | .error fault => .error fault
      | .ok ⟨type, rest', h⟩ => .ok (readOptional type true rest' (Nat.lt_succ_of_lt h))
  | ts =>
    match readUnion ts with
    | .error fault => .error fault
    | .ok ⟨type, rest, h⟩ => .ok (readOptional type false rest h)
termination_by 8 * ts.length + 4

/-- A union, which a bar may open. -/
def readUnion (ts : List Token.Kind) : Reading ts.length TsType :=
  match ts with
  | .pipe :: rest =>
    match readChain rest with
    | .error fault => .error fault
    | .ok read => .ok (read.widen (Nat.le_succ _))
  | ts => readChain ts
termination_by 8 * ts.length + 3

/-- Alternatives with bars between them. -/
def readChain (ts : List Token.Kind) : Reading ts.length TsType :=
  match readOperand ts with
  | .error fault => .error fault
  | .ok ⟨type, rest₁, h₁⟩ =>
    match readAlternatives rest₁ with
    | .error fault => .error fault
    | .ok ⟨types, rest₂, h₂⟩ => .ok ⟨.unionOf (type :: types), rest₂, by omega⟩
termination_by 8 * ts.length + 2

/-- Further alternatives, each behind a bar. -/
def readAlternatives (ts : List Token.Kind) : Reading (ts.length + 1) (List TsType) :=
  match ts with
  | .pipe :: rest =>
    match readOperand rest with
    | .error fault => .error fault
    | .ok ⟨type, rest₁, h₁⟩ =>
      match readAlternatives rest₁ with
      | .error fault => .error fault
      | .ok ⟨types, rest₂, h₂⟩ => .ok ⟨type :: types, rest₂, by simp only [List.length_cons]; omega⟩
  | ts => .ok ⟨[], ts, by omega⟩
termination_by 8 * ts.length

/-- An alternative: an atom with the marks around it. A question mark that no type follows is
the unknown type. -/
def readOperand (ts : List Token.Kind) : Reading ts.length TsType :=
  match ts with
  | .question :: rest =>
    if endsType rest then .ok ⟨.any, rest, Nat.lt_succ_self _⟩
    else
      match readOperand rest with
      | .error fault => .error fault
      | .ok ⟨type, rest₁, h₁⟩ => .ok ⟨type.orNull, rest₁, Nat.lt_succ_of_lt h₁⟩
  | .bang :: rest =>
    match readOperand rest with
    | .error fault => .error fault
    | .ok read => .ok (read.widen (Nat.le_succ _))
  | ts =>
    match readAtom ts with
    | .error fault => .error fault
    | .ok ⟨type, rest₁, h₁⟩ => .ok (readMarks type rest₁ h₁)
termination_by 8 * ts.length + 1

/-- A type without marks around it. -/
def readAtom (ts : List Token.Kind) : Reading ts.length TsType :=
  match ts with
  | .star :: rest => .ok ⟨.any, rest, Nat.lt_succ_self _⟩
  | .null :: rest => .ok ⟨.primitive .null, rest, Nat.lt_succ_self _⟩
  | .undefined :: rest => .ok ⟨.primitive .undefined, rest, Nat.lt_succ_self _⟩
  | .true :: rest => .ok ⟨.booleanLiteral true, rest, Nat.lt_succ_self _⟩
  | .false :: rest => .ok ⟨.booleanLiteral false, rest, Nat.lt_succ_self _⟩
  | .string value :: rest => .ok ⟨.stringLiteral value, rest, Nat.lt_succ_self _⟩
  | .number text :: rest => .ok ⟨.numberLiteral text, rest, Nat.lt_succ_self _⟩
  | .leftParen :: rest =>
    match readUnion rest with
    | .error fault => .error fault
    | .ok ⟨type, rest₁, h₁⟩ => expect .rightParen type rest₁ (Nat.lt_succ_of_lt h₁)
  | .leftBrace :: rest =>
    match readFields rest with
    | .error fault => .error fault
    | .ok ⟨fields, rest₁, h₁⟩ => expect .rightBrace (.object fields) rest₁ h₁
  | .function :: .leftParen :: rest =>
    match readArguments rest with
    | .error fault => .error fault
    | .ok ⟨arguments, rest₁, h₁⟩ =>
      match expect .rightParen arguments rest₁ h₁ with
      | .error fault => .error fault
      | .ok ⟨arguments, rest₂, h₂⟩ =>
        match readResult rest₂ with
        | .error fault => .error fault
        | .ok ⟨result, rest₃, h₃⟩ =>
          .ok ⟨Argument.functionType arguments result, rest₃,
            by simp only [List.length_cons]; omega⟩
  | .function :: rest => .ok ⟨.reference "Function", rest, Nat.lt_succ_self _⟩
  | .name text :: rest =>
    match readTypeArguments rest with
    | .error fault => .error fault
    | .ok ⟨args, rest₁, h₁⟩ => .ok ⟨reference text args, rest₁, h₁⟩
  | ts => .error (.noType ts)
termination_by 8 * ts.length

/-- The arguments that a name is applied to, in angle brackets with or without a point before
them. -/
def readTypeArguments (ts : List Token.Kind) : Reading (ts.length + 1) (List TsType) :=
  match ts with
  | .dot :: .leftAngle :: rest | .leftAngle :: rest =>
    match readUnion rest with
    | .error fault => .error fault
    | .ok ⟨type, rest₁, h₁⟩ =>
      match readMoreTypes rest₁ with
      | .error fault => .error fault
      | .ok ⟨types, rest₂, h₂⟩ =>
        expect .rightAngle (type :: types) rest₂ (by simp only [List.length_cons]; omega)
  | ts => .ok ⟨[], ts, by omega⟩
termination_by 8 * ts.length

/-- Further types, each behind a comma. -/
def readMoreTypes (ts : List Token.Kind) : Reading (ts.length + 1) (List TsType) :=
  match ts with
  | .comma :: rest =>
    match readUnion rest with
    | .error fault => .error fault
    | .ok ⟨type, rest₁, h₁⟩ =>
      match readMoreTypes rest₁ with
      | .error fault => .error fault
      | .ok ⟨types, rest₂, h₂⟩ => .ok ⟨type :: types, rest₂, by simp only [List.length_cons]; omega⟩
  | ts => .ok ⟨[], ts, by omega⟩
termination_by 8 * ts.length

/-- The arguments of a function type up to its closing parenthesis, which may follow a comma. -/
def readArguments (ts : List Token.Kind) : Reading (ts.length + 1) (List Argument) :=
  match ts with
  | [] => .ok ⟨[], [], Nat.zero_lt_succ _⟩
  | .rightParen :: rest => .ok ⟨[], .rightParen :: rest, Nat.lt_succ_self _⟩
  | .name "this" :: .colon :: rest =>
    match readUnion rest with
    | .error fault => .error fault
    | .ok ⟨type, rest₁, h₁⟩ =>
      match readMoreArguments rest₁ with
      | .error fault => .error fault
      | .ok ⟨arguments, rest₂, h₂⟩ =>
        .ok ⟨.receiver type :: arguments, rest₂, by simp only [List.length_cons]; omega⟩
  | .name "new" :: .colon :: rest =>
    match readUnion rest with
    | .error fault => .error fault
    | .ok ⟨type, rest₁, h₁⟩ =>
      match readMoreArguments rest₁ with
      | .error fault => .error fault
      | .ok ⟨arguments, rest₂, h₂⟩ =>
        .ok ⟨.constructs type :: arguments, rest₂, by simp only [List.length_cons]; omega⟩
  | ts =>
    match readMarked ts with
    | .error fault => .error fault
    | .ok ⟨hint, rest₁, h₁⟩ =>
      match readMoreArguments rest₁ with
      | .error fault => .error fault
      | .ok ⟨arguments, rest₂, h₂⟩ =>
        .ok ⟨.param hint :: arguments, rest₂, by omega⟩
termination_by 8 * ts.length + 5

/-- What follows an argument: a comma and further arguments, or none. -/
def readMoreArguments (ts : List Token.Kind) : Reading (ts.length + 1) (List Argument) :=
  match ts with
  | .comma :: rest =>
    match readArguments rest with
    | .error fault => .error fault
    | .ok read => .ok (read.widen (Nat.le_succ _))
  | ts => .ok ⟨[], ts, by omega⟩
termination_by 8 * ts.length

/-- The result of a function type, behind a colon, if it is said. -/
def readResult (ts : List Token.Kind) : Reading (ts.length + 1) (Option TsType) :=
  match ts with
  | .colon :: rest =>
    match readOperand rest with
    | .error fault => .error fault
    | .ok ⟨type, rest₁, h₁⟩ => .ok ⟨some type, rest₁, Nat.lt_succ_of_lt (Nat.lt_succ_of_lt h₁)⟩
  | ts => .ok ⟨none, ts, by omega⟩
termination_by 8 * ts.length

/-- The fields of a record up to its closing brace, which may follow a comma. A field without a
type may hold anything. -/
def readFields (ts : List Token.Kind) : Reading (ts.length + 1) (List (Member TsType)) :=
  match ts with
  | [] => .ok ⟨[], [], Nat.zero_lt_succ _⟩
  | .rightBrace :: rest => .ok ⟨[], .rightBrace :: rest, Nat.lt_succ_self _⟩
  | token :: rest =>
    match fieldName? token with
    | none => .error (.noFieldName token rest)
    | some name =>
      match rest with
      | .colon :: rest =>
        match readMarked rest with
        | .error fault => .error fault
        | .ok ⟨hint, rest₁, h₁⟩ =>
          match readMoreFields rest₁ with
          | .error fault => .error fault
          | .ok ⟨fields, rest₂, h₂⟩ =>
            .ok ⟨.property name hint.type hint.optional :: fields, rest₂,
              by simp only [List.length_cons]; omega⟩
      | rest =>
        match readMoreFields rest with
        | .error fault => .error fault
        | .ok ⟨fields, rest₁, h₁⟩ =>
          .ok ⟨.property name .any false :: fields, rest₁, length_lt_cons h₁⟩
termination_by 8 * ts.length + 4

/-- What follows a field: a comma and further fields, or none. -/
def readMoreFields (ts : List Token.Kind) : Reading (ts.length + 1) (List (Member TsType)) :=
  match ts with
  | .comma :: rest =>
    match readFields rest with
    | .error fault => .error fault
    | .ok read => .ok (read.widen (Nat.le_succ _))
  | ts => .ok ⟨[], ts, by omega⟩
termination_by 8 * ts.length
end

/-- The hint that all of `ts` make. -/
def ofTokens (ts : List Token.Kind) : Except Fault Hint :=
  match readMarked ts with
  | .error fault => .error fault
  | .ok ⟨hint, [], _⟩ => .ok hint
  | .ok ⟨_, rest, _⟩ => .error (.trailing rest)

/-- The offset at which the last `left` of `tokens` begin, or `stop`, the end of their source. -/
def offsetOf (tokens : List Token) (left : Nat) (stop : Nat) : Nat :=
  match tokens.drop (tokens.length - left) with
  | [] => stop
  | token :: _ => token.start

/-- The hint that `source` holds. -/
def parse (source : String) : Except Error Hint :=
  let (tokens, stop) := Token.scanFrom 0 source.toList
  match ofTokens (tokens.map Token.kind) with
  | .ok hint => .ok hint
  | .error fault => .error ⟨fault.cause, offsetOf tokens fault.left stop⟩

/-- The type that `source` holds, without its marks. -/
def parseType (source : String) : Except Error TsType :=
  (parse source).map Hint.type

end Hint

end Typings
