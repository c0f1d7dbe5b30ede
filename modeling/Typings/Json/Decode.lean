import Typings.Json.Value

/-!
Decoding: the value of a wanted shape that a JSON text holds. Decoders walk the tree of the text
from left to right and stop at the first fault. A record may also be given as the list of its
values; fields that nobody asked for are passed over.
-/

namespace Typings.Json

/-- The number of lists and records, one inside the other, that are one too many. -/
def maxDepth : Nat := 128

/-- What decodes a tree, given how much deeper it may still go. -/
abbrev Decoder (α : Type) :=
  Nat → Tree → Except Fault α

namespace Tree

mutual
/-- The first place where the text of a tree fails. -/
def flaw? : Tree → Option Malformed
  | .broken cause => some cause
  | .list items flaw => (flawOfItems? items).or flaw
  | .record fields flaw => (flawOfFields? fields).or flaw
  | _ => none

/-- The first place where the text of an item fails. -/
def flawOfItems? : List Tree → Option Malformed
  | [] => none
  | item :: items => (flaw? item).or (flawOfItems? items)

/-- The first place where the text of a field fails. -/
def flawOfFields? : List (Key Tree × Tree) → Option Malformed
  | [] => none
  | (_, value) :: fields => (flaw? value).or (flawOfFields? fields)
end

end Tree

namespace Decode

/-- Goes on unless the text has failed. -/
def whole (flaw : Option Malformed) : Except Fault Unit :=
  match flaw with
  | none => .ok ()
  | some cause => .error (.malformed cause)

/-- How much deeper one may go inside a list or a record. -/
def inside (room : Nat) : Except Fault Nat :=
  if room ≤ 1 then .error (.malformed .tooDeep) else .ok (room - 1)

/-- The text that pieces spell. -/
def spelled (pieces : List Piece) : Except Fault String :=
  (Piece.text pieces).mapError .malformed

/-- The text that names a field. -/
def key (name : Key Tree) : Except Fault String :=
  match name with
  | .text pieces => spelled pieces
  | .other _ => .error (.malformed .noKey)

/-- The number that a numeral stands for. -/
def number (numeral : Numeral) : Except Fault Number :=
  match numeral.toNumber with
  | none => .error (.malformed .numberTooGreat)
  | some value => .ok value

/-- What stands in the place of a wanted value. -/
def found (tree : Tree) : Except Fault Found :=
  match tree with
  | .broken cause => .error (.malformed cause)
  | .null => .ok .null
  | .boolean value => .ok (.boolean value)
  | .number numeral => (number numeral).map .number
  | .text pieces => (spelled pieces).map .text
  | .list .. => .ok .list
  | .record .. => .ok .record

/-- Refuses a tree that is not what is wanted. -/
def refuse {α : Type} (wanted : String) (tree : Tree) : Except Fault α :=
  match found tree with
  | .error fault => .error fault
  | .ok found => .error (.mismatch (.kind found wanted))

/-- A text. -/
def text : Decoder String
  | _, .text pieces => spelled pieces
  | _, tree => refuse "a string" tree

/-- A truth value. -/
def boolean : Decoder Bool
  | _, .boolean value => .ok value
  | _, tree => refuse "a boolean" tree

/-- Null, or what `decoder` decodes. -/
def orNull {α : Type} (decoder : Decoder α) : Decoder (Option α)
  | _, .null => .ok none
  | room, tree => (decoder room tree).map some

/-- A list of what `decoder` decodes. -/
def list {α : Type} (decoder : Decoder α) : Decoder (List α)
  | room, .list items flaw => do
    let room ← inside room
    let values ← items.mapM (decoder room)
    whole flaw
    return values
  | _, tree => refuse "a sequence" tree

mutual
/-- Any value. -/
def value (room : Nat) : Tree → Except Fault Value
  | .broken cause => .error (.malformed cause)
  | .null => .ok .null
  | .boolean value => .ok (.boolean value)
  | .number numeral => (number numeral).map .number
  | .text pieces => (spelled pieces).map .text
  | .list items flaw => do
    let values ← valuesOfItems (← inside room) items
    whole flaw
    return .list values
  | .record fields flaw => do
    let values ← valuesOfFields (← inside room) fields
    whole flaw
    return .ofFields values

/-- The values of the items of a list. -/
def valuesOfItems (room : Nat) : List Tree → Except Fault (List Value)
  | [] => .ok []
  | item :: items => do
    let first ← value room item
    return first :: (← valuesOfItems room items)

/-- The keys and values of the fields of a record. -/
def valuesOfFields (room : Nat) : List (Key Tree × Tree) → Except Fault (List (String × Value))
  | [] => .ok []
  | (name, tree) :: fields => do
    let name ← key name
    let first ← value room tree
    return (name, first) :: (← valuesOfFields room fields)
end

/-- One of some choices, by its name: a text, or a record that gives null to the name. -/
def choice {α : Type} (known : List (String × α)) : Decoder α :=
  let named (name : String) : Except Fault α :=
    match known.lookup name with
    | some value => .ok value
    | none => .error (.mismatch (.choice name (known.map Prod.fst)))
  fun room tree =>
    match tree with
    | .text pieces => do named (← spelled pieces)
    | .record ((name, content) :: others) flaw => do
      let _ ← inside room
      let value ← named (← key name)
      match content with
      | .null => pure ()
      | tree => refuse "unit" tree
      if others.isEmpty then whole flaw else .error (.malformed .noValue)
      return value
    | .record [] flaw => .error (.malformed (flaw.getD .noValue))
    | .broken cause => .error (.malformed cause)
    | _ => .error (.malformed .noValue)

/-- A field of a record of type `σ`: its key, whether it has to be there, and how its value is
put into the record. -/
structure Field (σ : Type) where
  key : String
  required : Bool
  update : Decoder (σ → σ)

namespace Field

/-- A field that may be left out. -/
def mayHave {σ α : Type} (key : String) (decoder : Decoder α) (put : σ → α → σ) : Field σ :=
  ⟨key, false, fun room tree => (decoder room tree).map fun value record => put record value⟩

/-- A field that has to be there. -/
def mustHave {σ α : Type} (key : String) (decoder : Decoder α) (put : σ → α → σ) : Field σ :=
  ⟨key, true, fun room tree => (decoder room tree).map fun value record => put record value⟩

end Field

/-- A record with its fields by name, and the keys that were there. -/
def byName {σ : Type} (fields : List (Field σ)) (room : Nat)
    : List (Key Tree × Tree) → List String → σ → Except Fault (σ × List String)
  | [], seen, record => .ok (record, seen)
  | (name, tree) :: rest, seen, record => do
    let name ← key name
    match fields.find? (·.key == name) with
    | none =>
      whole tree.flaw?
      byName fields room rest seen record
    | some field =>
      if seen.contains name then .error (.mismatch (.duplicate name))
      else
        let update ← field.update room tree
        byName fields room rest (name :: seen) (update record)

/-- A record as the list of its values, of which the first `index` have been passed. -/
def byPlace {σ : Type} (room : Nat) (flaw : Option Malformed) (wanted : String)
    : List (Field σ) → List Tree → Nat → σ → Except Fault σ
  | [], [], _, record => do
    whole flaw
    return record
  | [], _ :: _, _, _ => .error (.malformed .trailing)
  | field :: fields, [], index, record => do
    whole flaw
    if field.required then .error (.mismatch (.tooShort index wanted))
    else byPlace room flaw wanted fields [] (index + 1) record
  | field :: fields, item :: items, index, record => do
    let update ← field.update room item
    byPlace room flaw wanted fields items (index + 1) (update record)

/-- A record with the given name and fields, of which those that are left out are as in `empty`. -/
def record {σ : Type} (name : String) (fields : List (Field σ)) (empty : σ) : Decoder σ
  | room, .record entries flaw => do
    let (record, seen) ← byName fields (← inside room) entries [] empty
    whole flaw
    match fields.find? fun field => field.required && !seen.contains field.key with
    | some field => .error (.mismatch (.missing field.key))
    | none => return record
  | room, .list items flaw => do
    let wanted :=
      "struct " ++ name ++ " with " ++ toString fields.length
        ++ if fields.length = 1 then " element" else " elements"
    byPlace (← inside room) flaw wanted fields items 0 empty
  | _, tree => refuse ("struct " ++ name) tree

/-- What a whole text holds. -/
def ofText {α : Type} (decoder : Decoder α) (source : String) : Except Fault α := do
  let (tree, flaw) := Tree.ofText source
  let value ← decoder maxDepth tree
  whole flaw
  return value

end Decode

end Typings.Json
