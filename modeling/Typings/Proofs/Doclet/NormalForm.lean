import Typings.Proofs.Doclet.Pieces
import Typings.Proofs.Hint.NormalForm
import Typings.Proofs.TsType.Params

/-! All types that doclets document are in normal form, and so are the types in their pieces. -/

namespace Typings

open TsType Noted

-----------------------------------------------------------------------------------------
-- The types in a piece
-----------------------------------------------------------------------------------------

def Signature.types (signature : Signature) : List TsType :=
  signature.typeParams.flatMap TypeParam.types ++ signature.params.map Param.type
    ++ signature.result.toList

/-- The types of a declaration itself. Those of what stands in its body are not among them. -/
def Decl.types : Decl → List TsType
  | .function _ signature => signature.types
  | .interface _ typeParams bases _ => typeParams.flatMap TypeParam.types ++ bases
  | .alias _ typeParams type => typeParams.flatMap TypeParam.types ++ [type]
  | .class _ typeParams base interfaces _ =>
    typeParams.flatMap TypeParam.types ++ base.toList ++ interfaces
  | .variable _ _ type _ => type.toList
  | .enum .. | .namespace .. | .module .. => []

def ClassMember.types : ClassMember → List TsType
  | .constructor params => params.map Param.type
  | .property _ type .. => type.toList
  | .method _ signature .. => signature.types

def InterfaceMember.types : InterfaceMember → List TsType
  | .property _ type .. => [type]
  | .method _ signature .. => signature.types

def Piece.types : Piece → List TsType
  | .statement decl => decl.types
  | .classMember member => member.types
  | .interfaceMember member => member.types

namespace Doclet

-----------------------------------------------------------------------------------------
-- Hints and outlines
-----------------------------------------------------------------------------------------

theorem hintOfText_normal (source : String) : (hintOfText source).value.type.Normal := by
  unfold hintOfText
  split
  · rename_i accepted
    exact Hint.normal_of_parse accepted
  · exact normal_any

theorem hintOfUnion_normal {hints : List Hint} (each : ∀ hint ∈ hints, hint.type.Normal)
    : (hintOfUnion hints).type.Normal := by
  unfold hintOfUnion
  split
  · exact normal_any
  · rename_i some
    refine normal_unionOf (by simpa using some) ?_
    simpa using each

theorem hintOfType_normal (type : Option (List String)) : (hintOfType type).value.type.Normal := by
  cases type with
  | none => exact normal_any
  | some names =>
      refine hintOfUnion_normal ?_
      rw [mapM_value]
      simpa using fun name _ => hintOfText_normal name

theorem withNull_normal (nullable : Option Bool) {type : TsType} (normal : type.Normal)
    : (withNull nullable type).Normal := by
  unfold withNull
  split
  · exact normal.orNull
  · exact normal

theorem Entry.hint_normal (entry : Entry) : entry.hint.value.type.Normal :=
  withNull_normal entry.nullable (hintOfType_normal entry.type)

theorem outlineType_normal (outline : Outline) {members : List (Member TsType)}
    (each : ∀ member ∈ members, ∀ type ∈ member.types, type.Normal)
    : (outlineType outline members).value.Normal := by
  unfold outlineType
  split
  · exact normal_any
  · exact Entry.hint_normal _
  · rw [pure_value]
    split
    · exact normal_array (normal_object each)
    · exact normal_object each

mutual
theorem typeOfOutline_normal (outline : Outline) : (typeOfOutline outline).value.Normal := by
  obtain ⟨name, entry, array, items⟩ := outline
  rw [typeOfOutline]
  exact outlineType_normal _ (membersOfOutline_normal items)

theorem membersOfOutline_normal (items : List Outline)
    : ∀ member ∈ (membersOfOutline items).value, ∀ type ∈ member.types, type.Normal := by
  cases items with
  | nil =>
      rw [membersOfOutline]
      exact List.forall_mem_nil _
  | cons item items =>
      rw [membersOfOutline]
      refine List.forall_mem_cons.2 ⟨?_, membersOfOutline_normal items⟩
      simpa [outlineMember, Member.types] using typeOfOutline_normal item
end

-----------------------------------------------------------------------------------------
-- Parameters and results
-----------------------------------------------------------------------------------------

theorem outlineHint_normal (outline : Outline) : (outlineHint outline).value.type.Normal := by
  unfold outlineHint
  split
  · exact Entry.hint_normal _
  · exact typeOfOutline_normal outline

theorem paramOfHint_normal (name : String) {hint : Hint} (normal : hint.type.Normal)
    : (paramOfHint name hint).type.Normal := by
  unfold paramOfHint
  split
  · exact normal_array normal
  · exact normal

theorem paramsFrom_normal (position : Nat) (items : List Outline)
    : ∀ param ∈ (paramsFrom position items).value, param.type.Normal := by
  induction items generalizing position with
  | nil => exact List.forall_mem_nil _
  | cons item items ih =>
      exact List.forall_mem_cons.2 ⟨paramOfHint_normal _ (outlineHint_normal item), ih _⟩

theorem restLast_normal {params : List (Param TsType)} (each : ∀ param ∈ params, param.type.Normal)
    : ∀ param ∈ Param.restLast params, param.type.Normal := by
  induction params with
  | nil => exact List.forall_mem_nil _
  | cons param params ih =>
      obtain ⟨own, others⟩ := List.forall_mem_cons.1 each
      unfold Param.restLast
      split
      · exact List.forall_mem_cons.2 ⟨own, ih others⟩
      · split
        · exact List.forall_mem_cons.2 ⟨own, List.forall_mem_nil _⟩
        · exact List.forall_mem_cons.2 ⟨own, others⟩

theorem optionalLast_normal {params : List (Param TsType)}
    (each : ∀ param ∈ params, param.type.Normal)
    : ∀ param ∈ Param.optionalLast params, param.type.Normal := by
  induction params with
  | nil => exact List.forall_mem_nil _
  | cons param params ih =>
      obtain ⟨own, others⟩ := List.forall_mem_cons.1 each
      rw [Param.optionalLast_cons]
      refine List.forall_mem_cons.2 ⟨?_, ih others⟩
      split
      · exact own.orUndefined
      · exact own

theorem paramsOf_normal (entries : List Entry)
    : ∀ param ∈ (paramsOf entries).value, param.type.Normal :=
  optionalLast_normal (restLast_normal (paramsFrom_normal 0 _))

variable (doclet : Doclet)

theorem resultType_normal : doclet.resultType.value.Normal := by
  unfold resultType
  split
  · exact normal_primitive _
  · rename_i some
    refine normal_unionOf ?_ ?_
    · rw [mapM_value]
      simpa using some
    · rw [mapM_value]
      simpa using fun (outcome : Outcome) _ => hintOfType_normal outcome.type

-----------------------------------------------------------------------------------------
-- Values, type parameters and bases
-----------------------------------------------------------------------------------------

theorem plainType_normal : doclet.plainType.value.Normal := by
  unfold plainType
  split
  · exact normal_object (membersOfOutline_normal _)
  · split
    · exact normal_function (paramsOf_normal _) doclet.resultType_normal (by simp)
    · exact hintOfType_normal _

theorem valueType_normal : doclet.valueType.value.Normal :=
  withNull_normal _ doclet.plainType_normal

theorem typeParamsOfTag_normal (longname text : String)
    : ∀ param ∈ (typeParamsOfTag longname text).value, ∀ type ∈ param.types, type.Normal := by
  unfold typeParamsOfTag
  split
  · rename_i params accepted
    exact Hint.normal_of_template accepted
  · exact List.forall_mem_nil _

theorem typeParams_normal
    : ∀ param ∈ doclet.typeParams.value, ∀ type ∈ param.types, type.Normal := by
  intro param mem
  rw [typeParams, map_value, mapM_value] at mem
  obtain ⟨params, listed, mem⟩ := List.mem_flatten.1 mem
  obtain ⟨text, -, rfl⟩ := List.mem_map.1 listed
  exact typeParamsOfTag_normal _ _ param mem

theorem baseOfName_normal (name : String) : (baseOfName name).value.Normal := by
  unfold baseOfName
  split
  · rename_i accepted
    exact Hint.normal_of_parseType accepted
  · exact normal_reference _

theorem bases_normal (names : List String)
    : ∀ base ∈ (names.mapM baseOfName).value, base.Normal := by
  rw [mapM_value]
  simpa using fun name _ => baseOfName_normal name

theorem normal_of_typeParams {type : TsType}
    (mem : type ∈ doclet.typeParams.value.flatMap TypeParam.types)
    : type.Normal := by
  obtain ⟨param, listed, mem⟩ := List.mem_flatMap.1 mem
  exact doclet.typeParams_normal param listed type mem

theorem normal_of_params {entries : List Entry} {type : TsType}
    (mem : type ∈ (paramsOf entries).value.map Param.type)
    : type.Normal := by
  obtain ⟨param, listed, rfl⟩ := List.mem_map.1 mem
  exact paramsOf_normal entries param listed

theorem signature_normal : ∀ type ∈ doclet.signature.value.types, type.Normal := by
  intro type mem
  rw [Signature.types, List.mem_append, List.mem_append] at mem
  rcases mem with (mem | mem) | mem
  · exact doclet.normal_of_typeParams mem
  · exact normal_of_params mem
  · cases List.mem_singleton.1 mem
    exact doclet.resultType_normal

-----------------------------------------------------------------------------------------
-- Pieces
-----------------------------------------------------------------------------------------

theorem variableDecl_normal : ∀ type ∈ doclet.variableDecl.value.types, type.Normal := by
  unfold variableDecl
  split
  · exact List.forall_mem_nil _
  · simpa [Decl.types] using doclet.valueType_normal

theorem valuePiece_normal (body : Body)
    : ∀ type ∈ (doclet.valuePiece body).value.types, type.Normal := by
  cases body with
  | statements => exact doclet.variableDecl_normal
  | «class» | interface =>
      simpa [valuePiece, Piece.types, ClassMember.types, InterfaceMember.types]
        using doclet.valueType_normal

theorem functionPiece_normal (body : Body)
    : ∀ type ∈ (doclet.functionPiece body).value.types, type.Normal := by
  cases body <;> exact doclet.signature_normal

theorem classDecl_normal (pieces : List Piece)
    : ∀ type ∈ (doclet.classDecl pieces).value.types, type.Normal := by
  intro type mem
  have mem : type ∈ (doclet.typeParams.value.flatMap TypeParam.types
      ++ ((doclet.augments.take 1).mapM baseOfName).value.head?.toList) ++ [] := mem
  rw [List.append_nil, List.mem_append, Option.mem_toList] at mem
  rcases mem with mem | base
  · exact doclet.normal_of_typeParams mem
  · exact bases_normal _ type (List.mem_of_mem_head? base)

theorem interfaceDecl_normal (pieces : List Piece)
    : ∀ type ∈ (doclet.interfaceDecl pieces).value.types, type.Normal := by
  intro type mem
  rcases List.mem_append.1 mem with mem | mem
  · exact doclet.normal_of_typeParams mem
  · exact bases_normal _ type mem

theorem aliasDecl_normal : ∀ type ∈ doclet.aliasDecl.value.types, type.Normal := by
  intro type mem
  rcases List.mem_append.1 mem with mem | mem
  · exact doclet.normal_of_typeParams mem
  · cases List.mem_singleton.1 mem
    exact doclet.valueType_normal

variable {doclet} {nested : Bool} {body : Body} {pieces : List Piece} {piece : Piece}

/-- The types of what a doclet is declared as are in normal form. -/
theorem piece_normal (made : (doclet.piece nested body pieces).value = some piece)
    : ∀ type ∈ piece.types, type.Normal := by
  cases kind : doclet.kind
  all_goals
    simp only [Doclet.piece, kind] at made
  case «class» =>
    cases made
    exact doclet.classDecl_normal pieces
  case interface | mixin =>
    cases made
    exact doclet.interfaceDecl_normal pieces
  case «module» =>
    cases made
    cases nested <;> exact List.forall_mem_nil _
  case «namespace» =>
    cases made
    exact List.forall_mem_nil _
  case typedef =>
    cases made
    exact doclet.aliasDecl_normal
  case member | constant =>
    split at made
    · cases made
      exact List.forall_mem_nil _
    · cases made
      exact doclet.valuePiece_normal body
  case function | callback =>
    cases made
    exact doclet.functionPiece_normal body
  case package | event | file => cases made

/-- The types of what a class adds of its own are in normal form. -/
theorem details_normal (mem : piece ∈ doclet.leading ++ doclet.trailing)
    : ∀ type ∈ piece.types, type.Normal := by
  have params : ∀ member ∈ doclet.constructors.value, ∀ type ∈ member.types, type.Normal := by
    unfold constructors
    split
    · exact List.forall_mem_nil _
    · rintro _ (_ | ⟨_, ⟨⟩⟩) type mem
      exact normal_of_params mem
  rw [List.mem_append, leading, trailing] at mem
  split at mem
  · rcases mem with front | back
    · obtain ⟨member, listed, rfl⟩ := List.mem_map.1 front
      exact params member listed
    · rw [mapM_value, List.map_map] at back
      obtain ⟨item, -, rfl⟩ := List.mem_map.1 back
      rintro _ (_ | ⟨_, ⟨⟩⟩)
      exact typeOfOutline_normal item
  · simp at mem

end Doclet

end Typings
