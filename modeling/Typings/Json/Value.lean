import Typings.Json.Tree

/-!
Values of JSON, and their compact text: without space, with the fields of a record in the order of
their keys.
-/

namespace Typings.Json

/-- A value. The fields of a record are in the order of their keys, each key once. -/
inductive Value where
  | null
  | boolean (value : Bool)
  | number (value : Number)
  | text (value : String)
  | list (items : List Value)
  | record (fields : List (String × Value))

namespace Value

/-- Puts a field in its place. A later field takes the place of an earlier one with its key. -/
def insert (key : String) (value : Value) : List (String × Value) → List (String × Value)
  | [] => [(key, value)]
  | (k, v) :: fields =>
    if key < k then (key, value) :: (k, v) :: fields
    else if key = k then (key, value) :: fields
    else (k, v) :: insert key value fields

/-- The record of fields in any order. -/
def ofFields (fields : List (String × Value)) : Value :=
  .record (fields.foldl (fun sorted (key, value) => insert key value sorted) [])

/-- The hexadecimal digits of an escape of four. -/
def fourDigits (code : Nat) : List Char :=
  let digits := Nat.toDigits 16 code
  List.replicate (4 - digits.length) '0' ++ digits

/-- How one character stands in a text. -/
def escape (c : Char) : List Char :=
  match c with
  | '"' => ['\\', '"']
  | '\\' => ['\\', '\\']
  | '\x08' => ['\\', 'b']
  | '\x0c' => ['\\', 'f']
  | '\n' => ['\\', 'n']
  | '\r' => ['\\', 'r']
  | '\t' => ['\\', 't']
  | c => if c.toNat < 32 then '\\' :: 'u' :: fourDigits c.toNat else [c]

/-- A text as it is written. -/
def quote (text : String) : String :=
  String.ofList ('"' :: (text.toList.flatMap escape ++ ['"']))

mutual
/-- The compact text of a value. -/
def compact : Value → String
  | .null => "null"
  | .boolean value => if value then "true" else "false"
  | .number value => value.text
  | .text value => quote value
  | .list items => "[" ++ ",".intercalate (compactItems items) ++ "]"
  | .record fields => "\x7b" ++ ",".intercalate (compactFields fields) ++ "\x7d"

/-- The compact texts of the items of a list. -/
def compactItems : List Value → List String
  | [] => []
  | item :: items => compact item :: compactItems items

/-- The compact texts of the fields of a record. -/
def compactFields : List (String × Value) → List String
  | [] => []
  | (key, value) :: fields => (quote key ++ ":" ++ compact value) :: compactFields fields
end

end Value

end Typings.Json
