import Typings.Hint.Grammar
import Typings.Hint.Namepath
import Typings.Hint.Template
import Typings.Noted
import Typings.Outline
import Typings.TsType.Params

/-!
The types that doclets document: those of values, of properties by their outline, of parameters
and results, of type parameters and of bases. A type that cannot be read is any type, and a warning
says so.
-/

namespace Typings.Doclet

/-! ### Hints -/

/-- The hint that says nothing. -/
def noHint : Hint :=
  ⟨.any, false, false⟩

/-- The hint that a text holds, or the one that says nothing. -/
def hintOfText (source : String) : Noted Hint :=
  match Hint.parse source with
  | .ok hint => pure hint
  | .error error => .warned (.badType source error) noHint

/-- The hint of several alternatives: their union, with the marks of any of them. -/
def hintOfUnion (hints : List Hint) : Hint :=
  if hints.isEmpty then noHint
  else
    ⟨.unionOf (hints.map Hint.type), hints.any Hint.optional, hints.any Hint.variadic⟩

/-- The hint of a documented type. -/
def hintOfType : Option (List String) → Noted Hint
  | none => pure noHint
  | some names => return hintOfUnion (← names.mapM hintOfText)

/-- A type that also admits null, if it is documented so. -/
def withNull (nullable : Option Bool) (type : TsType) : TsType :=
  if nullable = some true && type ≠ .any then type.orNull else type

/-- The hint of an entry, with the marks that the entry itself has. -/
def Entry.hint (entry : Entry) : Noted Hint := do
  let hint ← hintOfType entry.type
  return ⟨withNull entry.nullable hint.type, hint.optional || entry.optional,
    hint.variadic || entry.variadic⟩

/-! ### Outlines -/

/-- The type of one name of an outline, of which `members` are below it. Names below it make it an
object, whatever its own entry says. -/
def outlineType (outline : Outline) (members : List (Member TsType)) : Noted TsType :=
  match members, outline.entry with
  | [], none => pure .any
  | [], some entry => Hint.type <$> entry.hint
  | members, _ => pure (if outline.array then .array (.object members) else .object members)

/-- The member that one name of an outline makes. -/
def outlineMember (outline : Outline) (type : TsType) : Member TsType :=
  .property outline.name type outline.optional

mutual
/-- The type of one name of an outline. -/
def typeOfOutline : Outline → Noted TsType
  | ⟨name, entry, array, items⟩ => do
    outlineType ⟨name, entry, array, items⟩ (← membersOfOutline items)

/-- The members of the object with the names of an outline. -/
def membersOfOutline : List Outline → Noted (List (Member TsType))
  | [] => pure []
  | item :: items => do
    let type ← typeOfOutline item
    return outlineMember item type :: (← membersOfOutline items)
end

/-! ### Parameters and results -/

/-- The hint of a parameter in an outline. -/
def outlineHint (outline : Outline) : Noted Hint :=
  match outline.items, outline.entry with
  | [], some entry => entry.hint
  | _, entry => do
    let type ← typeOfOutline outline
    return ⟨type, outline.optional, (entry.map Entry.variadic).getD false⟩

/-- The name of the parameter at a position, counted from zero. What is no name is numbered. -/
def paramName (position : Nat) (name : String) : String :=
  if Text.isIdentifier name then name else "arg" ++ toString position

/-- The parameter that a hint describes. A variable one takes an array of the rest. -/
def paramOfHint (name : String) (hint : Hint) : Param TsType :=
  if hint.variadic then ⟨name, .array hint.type, false, true⟩
  else ⟨name, hint.type, hint.optional, false⟩

/-- The parameters in an outline, the first of them at a position. -/
def paramsFrom (position : Nat) : List Outline → Noted (List (Param TsType))
  | [] => pure []
  | item :: items => do
    let hint ← outlineHint item
    let params ← paramsFrom (position + 1) items
    return paramOfHint (paramName position item.name) hint :: params

/-- The parameters that entries document. -/
def paramsOf (entries : List Entry) : Noted (List (Param TsType)) := do
  let params ← paramsFrom 0 (Outline.ofEntries entries)
  return Param.optionalLast (Param.restLast params)

/-- The type of the result of a doclet. What has no documented result gives nothing. -/
def resultType (doclet : Doclet) : Noted TsType :=
  if doclet.returns.isEmpty then pure (.primitive .void)
  else do
    let hints ← doclet.returns.mapM fun outcome => hintOfType outcome.type
    return .unionOf (hints.map Hint.type)

/-! ### Values -/

/-- Whether a type is documented by some of `words` alone. -/
def isSaidBy (words : List String) : Option (List String) → Bool
  | none => false
  | some names => !names.isEmpty && names.all words.contains

/-- The type of the value that a doclet documents, apart from null. Properties make it an object
and parameters or results a function, if nothing else is said of it. -/
def plainType (doclet : Doclet) : Noted TsType :=
  if !doclet.properties.isEmpty
      && (doclet.type.isNone || isSaidBy ["Object", "object"] doclet.type) then
    .object <$> membersOfOutline (Outline.ofEntries doclet.properties)
  else if isSaidBy ["function", "Function"] doclet.type
      && (!doclet.params.isEmpty || !doclet.returns.isEmpty) then do
    let params ← paramsOf doclet.params
    return .function params (← doclet.resultType) none
  else Hint.type <$> hintOfType doclet.type

/-- The type of the value that a doclet documents. -/
def valueType (doclet : Doclet) : Noted TsType :=
  withNull doclet.nullable <$> doclet.plainType

/-! ### Type parameters and bases -/

/-- The type parameters that one template tag of the doclet `longname` declares. -/
def typeParamsOfTag (longname text : String) : Noted (List TypeParam) :=
  match Template.params text with
  | .ok params => pure params
  | .error error => .warned (.badTemplate text longname error) []

/-- The type parameters of a doclet. -/
def typeParams (doclet : Doclet) : Noted (List TypeParam) :=
  List.flatten <$> doclet.templates.mapM (typeParamsOfTag doclet.longname)

/-- The base that a name stands for. -/
def baseOfName (name : String) : Noted TsType :=
  match Hint.parseType name with
  | .ok type => pure type
  | .error error => .warned (.badBase name error) (.reference (Namepath.entityName name))

/-- The signature of the function that a doclet documents. -/
def signature (doclet : Doclet) : Noted Signature := do
  let typeParams ← doclet.typeParams
  let params ← paramsOf doclet.params
  return ⟨typeParams, params, some (← doclet.resultType)⟩

end Typings.Doclet
