import Typings.Hint.Grammar

/-! Phrases: the derivations by which the grammar of hints makes a row of tokens, each with the
tokens that it spells and with what it means. There is one kind of phrase for each rule.

* `Marked`: a union with `=` behind it or not, or `...` before a union that no bar opens, which
  may be left out
* `Union`: a chain, behind a bar or not
* `Chain`: operands with bars between them
* `Operand`: `?` alone, `?` or `!` before an operand, an atom with its marks, or the type of a
  function with its result, which takes the marks
* `Atom`: a single word, a union in parentheses, a record, the type of a function without a result,
  or a name with its arguments
-/

namespace Typings.Hint.Phrase

-----------------------------------------------------------------------------------------
-- Words
-----------------------------------------------------------------------------------------

/-- A token that is a type by itself. -/
inductive Word where
  | star | null | undefined | true | false
  | string (value : String)
  | number (text : String)

namespace Word

def token : Word → Token.Kind
  | star => .star
  | null => .null
  | undefined => .undefined
  | true => .true
  | false => .false
  | string value => .string value
  | number text => .number text

def type : Word → TsType
  | star => .any
  | null => .primitive .null
  | undefined => .primitive .undefined
  | true => .booleanLiteral Bool.true
  | false => .booleanLiteral Bool.false
  | string value => .stringLiteral value
  | number text => .numberLiteral text

end Word

/-- A token that names a field of a record: a name, a string, a number or a keyword. -/
inductive FieldName where
  | name (text : String)
  | string (value : String)
  | number (text : String)
  | function | null | undefined | true | false

namespace FieldName

def token : FieldName → Token.Kind
  | name text => .name text
  | string value => .string value
  | number text => .number text
  | function => .function
  | null => .null
  | undefined => .undefined
  | true => .true
  | false => .false

def text : FieldName → String
  | name text => text
  | string value => value
  | number text => text
  | function => "function"
  | null => "null"
  | undefined => "undefined"
  | true => "true"
  | false => "false"

end FieldName

/-- What may stand behind an atom, any number of times. -/
inductive Mark where
  | brackets | question | bang

namespace Mark

def tokens : List Mark → List Token.Kind
  | [] => []
  | brackets :: marks => .leftBracket :: .rightBracket :: tokens marks
  | question :: marks => .question :: tokens marks
  | bang :: marks => .bang :: tokens marks

theorem tokens_append (marks others : List Mark)
    : tokens (marks ++ others) = tokens marks ++ tokens others := by
  induction marks with
  | nil => rfl
  | cons mark marks ih => cases mark <;> simp [tokens, ih]

/-- A mark makes an array of a type, admits null, or says nothing new. -/
def on (type : TsType) : Mark → TsType
  | brackets => .array type
  | question => type.orNull
  | bang => type

end Mark

-----------------------------------------------------------------------------------------
-- Phrases
-----------------------------------------------------------------------------------------

mutual
inductive Marked where
  | plain (type : Union) (optional : Bool)
  | variadic (type : Chain) (optional : Bool)
  | anything (optional : Bool)

inductive Union where
  | of (bar : Bool) (chain : Chain)

inductive Chain where
  | of (first : Operand) (more : Alternatives)

/-- Further operands, each behind a bar. -/
inductive Alternatives where
  | none
  | bar (operand : Operand) (more : Alternatives)

inductive Operand where
  | unknown
  | nullable (operand : Operand)
  | definite (operand : Operand)
  | atom (atom : Atom) (marks : List Mark)
  | function (arguments : Arguments) (result : Operand)

inductive Atom where
  | word (word : Word)
  | group (type : Union)
  | record (fields : Fields)
  | functionName
  | function (arguments : Arguments)
  | name (text : String) (arguments : TypeArguments)

/-- Types between angle brackets, perhaps behind a point. -/
inductive TypeArguments where
  | none
  | angled (point : Bool) (first : Union) (more : Types)

/-- Further types, each behind a comma. -/
inductive Types where
  | none
  | comma (type : Union) (more : Types)

/-- Arguments with commas between them, and perhaps one at the end. -/
inductive Arguments where
  | none
  | some (first : Argument) (more : MoreArguments)

inductive MoreArguments where
  | none
  | trailing
  | comma (argument : Argument) (more : MoreArguments)

inductive Argument where
  | receiver (type : Union)
  | constructs (type : Union)
  | param (type : Marked)

/-- Fields with commas between them, and perhaps one at the end. -/
inductive Fields where
  | none
  | some (first : Field) (more : MoreFields)

inductive MoreFields where
  | none
  | trailing
  | comma (field : Field) (more : MoreFields)

inductive Field where
  | bare (name : FieldName)
  | typed (name : FieldName) (type : Marked)
end

/-- The token that is there or not. -/
def perhaps (token : Token.Kind) (present : Bool) : List Token.Kind :=
  if present then [token] else []

@[simp]
theorem perhaps_true (token : Token.Kind) : perhaps token true = [token] :=
  rfl

@[simp]
theorem perhaps_false (token : Token.Kind) : perhaps token false = [] :=
  rfl

-----------------------------------------------------------------------------------------
-- What phrases spell
-----------------------------------------------------------------------------------------

mutual
def Marked.tokens : Marked → List Token.Kind
  | .plain type optional => type.tokens ++ perhaps .equals optional
  | .variadic type optional => .ellipsis :: (type.tokens ++ perhaps .equals optional)
  | .anything optional => .ellipsis :: perhaps .equals optional

def Union.tokens : Union → List Token.Kind
  | .of bar chain => perhaps .pipe bar ++ chain.tokens

def Chain.tokens : Chain → List Token.Kind
  | .of first more => first.tokens ++ more.tokens

def Alternatives.tokens : Alternatives → List Token.Kind
  | .none => []
  | .bar operand more => .pipe :: (operand.tokens ++ more.tokens)

def Operand.tokens : Operand → List Token.Kind
  | .unknown => [.question]
  | .nullable operand => .question :: operand.tokens
  | .definite operand => .bang :: operand.tokens
  | .atom atom marks => atom.tokens ++ Mark.tokens marks
  | .function arguments result =>
    .function :: .leftParen :: (arguments.tokens ++ .rightParen :: .colon :: result.tokens)

def Atom.tokens : Atom → List Token.Kind
  | .word word => [word.token]
  | .group type => .leftParen :: (type.tokens ++ [.rightParen])
  | .record fields => .leftBrace :: (fields.tokens ++ [.rightBrace])
  | .functionName => [.function]
  | .function arguments => .function :: .leftParen :: (arguments.tokens ++ [.rightParen])
  | .name text arguments => .name text :: arguments.tokens

def TypeArguments.tokens : TypeArguments → List Token.Kind
  | .none => []
  | .angled point first more =>
    perhaps .dot point ++ .leftAngle :: (first.tokens ++ more.tokens ++ [.rightAngle])

def Types.tokens : Types → List Token.Kind
  | .none => []
  | .comma type more => .comma :: (type.tokens ++ more.tokens)

def Arguments.tokens : Arguments → List Token.Kind
  | .none => []
  | .some first more => first.tokens ++ more.tokens

def MoreArguments.tokens : MoreArguments → List Token.Kind
  | .none => []
  | .trailing => [.comma]
  | .comma argument more => .comma :: (argument.tokens ++ more.tokens)

def Argument.tokens : Argument → List Token.Kind
  | .receiver type => .name "this" :: .colon :: type.tokens
  | .constructs type => .name "new" :: .colon :: type.tokens
  | .param type => type.tokens

def Fields.tokens : Fields → List Token.Kind
  | .none => []
  | .some first more => first.tokens ++ more.tokens

def MoreFields.tokens : MoreFields → List Token.Kind
  | .none => []
  | .trailing => [.comma]
  | .comma field more => .comma :: (field.tokens ++ more.tokens)

def Field.tokens : Field → List Token.Kind
  | .bare name => [name.token]
  | .typed name type => name.token :: .colon :: type.tokens
end

-----------------------------------------------------------------------------------------
-- What phrases mean
-----------------------------------------------------------------------------------------

mutual
def Marked.hint : Marked → Hint
  | .plain type optional => ⟨type.type, optional, false⟩
  | .variadic type optional => ⟨type.type, optional, true⟩
  | .anything optional => ⟨.any, optional, true⟩

def Union.type : Union → TsType
  | .of _ chain => chain.type

def Chain.type : Chain → TsType
  | .of first more => .unionOf (first.type :: more.types)

def Alternatives.types : Alternatives → List TsType
  | .none => []
  | .bar operand more => operand.type :: more.types

def Operand.type : Operand → TsType
  | .unknown => .any
  | .nullable operand => operand.type.orNull
  | .definite operand => operand.type
  | .atom atom marks => marks.foldl Mark.on atom.type
  | .function arguments result => Hint.Argument.functionType arguments.list (some result.type)

def Atom.type : Atom → TsType
  | .word word => word.type
  | .group type => type.type
  | .record fields => .object fields.members
  | .functionName => .reference "Function"
  | .function arguments => Hint.Argument.functionType arguments.list none
  | .name text arguments => reference text arguments.types

def TypeArguments.types : TypeArguments → List TsType
  | .none => []
  | .angled _ first more => first.type :: more.list

def Types.list : Types → List TsType
  | .none => []
  | .comma type more => type.type :: more.list

def Arguments.list : Arguments → List Hint.Argument
  | .none => []
  | .some first more => first.argument :: more.list

def MoreArguments.list : MoreArguments → List Hint.Argument
  | .none | .trailing => []
  | .comma argument more => argument.argument :: more.list

def Argument.argument : Argument → Hint.Argument
  | .receiver type => .receiver type.type
  | .constructs type => .constructs type.type
  | .param type => .param type.hint

def Fields.members : Fields → List (Member TsType)
  | .none => []
  | .some first more => first.member :: more.members

def MoreFields.members : MoreFields → List (Member TsType)
  | .none | .trailing => []
  | .comma field more => field.member :: more.members

def Field.member : Field → Member TsType
  | .bare name => .property name.text .any false
  | .typed name type => .property name.text type.hint.type type.hint.optional
end

-----------------------------------------------------------------------------------------
-- Question marks that stand alone
-----------------------------------------------------------------------------------------

/-- The tokens right before which a question mark may stand alone. -/
def isEnd : Token.Kind → Bool
  | .finish | .comma | .rightParen | .rightAngle | .rightBrace | .pipe | .equals => true
  | _ => false

-- A phrase is apt before `rest` if each question mark alone in it comes right before an end.
mutual
def Marked.Apt : Marked → List Token.Kind → Prop
  | .plain type optional, rest => type.Apt (perhaps .equals optional ++ rest)
  | .variadic type optional, rest => type.Apt (perhaps .equals optional ++ rest)
  | .anything _, _ => True

def Union.Apt : Union → List Token.Kind → Prop
  | .of _ chain, rest => chain.Apt rest

def Chain.Apt : Chain → List Token.Kind → Prop
  | .of first more, rest => first.Apt (more.tokens ++ rest) ∧ more.Apt rest

def Alternatives.Apt : Alternatives → List Token.Kind → Prop
  | .none, _ => True
  | .bar operand more, rest => operand.Apt (more.tokens ++ rest) ∧ more.Apt rest

def Operand.Apt : Operand → List Token.Kind → Prop
  | .unknown, rest => rest.head?.any isEnd = true
  | .nullable operand, rest | .definite operand, rest => operand.Apt rest
  | .atom atom marks, rest => atom.Apt (Mark.tokens marks ++ rest)
  | .function arguments result, rest =>
    arguments.Apt (.rightParen :: .colon :: (result.tokens ++ rest)) ∧ result.Apt rest

def Atom.Apt : Atom → List Token.Kind → Prop
  | .word _, _ | .functionName, _ => True
  | .group type, rest => type.Apt (.rightParen :: rest)
  | .record fields, rest => fields.Apt (.rightBrace :: rest)
  | .function arguments, rest => arguments.Apt (.rightParen :: rest)
  | .name _ arguments, rest => arguments.Apt rest

def TypeArguments.Apt : TypeArguments → List Token.Kind → Prop
  | .none, _ => True
  | .angled _ first more, rest =>
    first.Apt (more.tokens ++ .rightAngle :: rest) ∧ more.Apt (.rightAngle :: rest)

def Types.Apt : Types → List Token.Kind → Prop
  | .none, _ => True
  | .comma type more, rest => type.Apt (more.tokens ++ rest) ∧ more.Apt rest

def Arguments.Apt : Arguments → List Token.Kind → Prop
  | .none, _ => True
  | .some first more, rest => first.Apt (more.tokens ++ rest) ∧ more.Apt rest

def MoreArguments.Apt : MoreArguments → List Token.Kind → Prop
  | .none, _ | .trailing, _ => True
  | .comma argument more, rest => argument.Apt (more.tokens ++ rest) ∧ more.Apt rest

def Argument.Apt : Argument → List Token.Kind → Prop
  | .receiver type, rest | .constructs type, rest => type.Apt rest
  | .param type, rest => type.Apt rest

def Fields.Apt : Fields → List Token.Kind → Prop
  | .none, _ => True
  | .some first more, rest => first.Apt (more.tokens ++ rest) ∧ more.Apt rest

def MoreFields.Apt : MoreFields → List Token.Kind → Prop
  | .none, _ | .trailing, _ => True
  | .comma field more, rest => field.Apt (more.tokens ++ rest) ∧ more.Apt rest

def Field.Apt : Field → List Token.Kind → Prop
  | .bare _, _ => True
  | .typed _ type, rest => type.Apt rest
end

end Typings.Hint.Phrase
