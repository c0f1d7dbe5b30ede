import Typings.Text.Visible

/-!
Tokens of a type hint, with the place where each stands in its text.
-/

namespace Typings

/-- What a token says. `finish` stands for the end of the text. -/
inductive Token.Kind where
  | name (text : String)
  | string (value : String)
  | number (text : String)
  | function | null | undefined | true | false
  | leftParen | rightParen | leftBrace | rightBrace | leftBracket | rightBracket
  | leftAngle | rightAngle | comma | colon | dot | ellipsis
  | question | bang | pipe | equals | star
  | finish
deriving DecidableEq

/-- A token, with the offsets in bytes of its first character and of what follows it. -/
structure Token where
  kind : Token.Kind
  start : Nat
  stop : Nat
deriving DecidableEq

namespace Token.Kind

/-- How messages name a token. -/
def label : Token.Kind → String
  | name text => "Ident(" ++ Text.visible text ++ ")"
  | string value => "StringLiteral(" ++ Text.visible value ++ ")"
  | number text => "NumberLiteral(" ++ Text.visible text ++ ")"
  | function => "Function"
  | null => "Null_"
  | undefined => "Undefined_"
  | true => "True_"
  | false => "False_"
  | leftParen => "LParen"
  | rightParen => "RParen"
  | leftBrace => "LBrace"
  | rightBrace => "RBrace"
  | leftBracket => "LBracket"
  | rightBracket => "RBracket"
  | leftAngle => "LAngle"
  | rightAngle => "RAngle"
  | comma => "Comma"
  | colon => "Colon"
  | dot => "Dot"
  | ellipsis => "DotDotDot"
  | question => "Question"
  | bang => "Bang"
  | pipe => "Pipe"
  | equals => "Eq"
  | star => "Star"
  | finish => "Eof"

/-- The token of a whole name: five words are keywords. -/
def ofName (text : String) : Token.Kind :=
  match text with
  | "function" => function
  | "null" => null
  | "undefined" => undefined
  | "true" => true
  | "false" => false
  | text => name text

/-- The token of a character that is always a token of its own. -/
def ofPunctuation? : Char → Option Token.Kind
  | '(' => some leftParen
  | ')' => some rightParen
  | '{' => some leftBrace
  | '}' => some rightBrace
  | '[' => some leftBracket
  | ']' => some rightBracket
  | '<' => some leftAngle
  | '>' => some rightAngle
  | ',' => some comma
  | ':' => some colon
  | '?' => some question
  | '!' => some bang
  | '|' => some pipe
  | '=' => some equals
  | '*' => some star
  | _ => none

end Token.Kind

end Typings
