import Typings.Proofs.TsType.Spelling

/-! The texts of types as lists of pieces, and the characters that they begin with, which tell the
sort of a type.
-/

namespace Typings.TsType

open Text
open Hint hiding optional

variable {type : TsType} {members : List TsType}

-----------------------------------------------------------------------------------------
-- Texts of types as pieces
-----------------------------------------------------------------------------------------

/-- The text of a type as the element of an array. -/
def operand (type : TsType) : String :=
  parenthesized (isFunction type || isUnion type) (render type)

theorem operand_eq_render (function : type.isFunction = false) (union : type.isUnion = false)
    : type.operand = type.render := by
  rw [operand, function, union]
  rfl

theorem toList_operand_array (element : TsType)
    : (operand (.array element)).toList = element.operand.toList ++ ['[', ']'] := by
  simp [operand, render, parenthesized, isFunction, isUnion]

theorem renderAlternatives_eq_map (flat : ∀ member ∈ members, member.isUnion = false)
    : renderAlternatives members = members.map operand := by
  induction members with
  | nil => rfl
  | cons member members ih =>
      rw [renderAlternatives, ih fun other mem => flat other (List.mem_cons_of_mem _ mem),
        List.map_cons, operand, flat member List.mem_cons_self, Bool.or_false]

/-- A type that is no function is written as its alternatives. -/
theorem render_eq_alternatives (legible : type.Legible) (value : type.isFunction = false)
    : type.render = " | ".intercalate (type.alternatives.map operand) := by
  cases union : type.isUnion with
  | false =>
      have alone : type.alternatives = [type] := by
        cases type with
        | union => cases union
        | _ => rfl
      simp [alone, operand_eq_render value union]
  | true =>
      cases type with
      | union members =>
          have spelled : 2 ≤ members.length ∧ ∀ member ∈ members, member.isUnion = false :=
            legible.own
          rw [render, renderAlternatives_eq_map spelled.2, alternatives]
      | _ => cases union

/-- The text of a parameter. -/
def paramText (param : Param TsType) : String :=
  (if param.rest then "..." else "") ++ param.name ++ optionalMark (param.optional && !param.rest)
    ++ ": " ++ render param.type

/-- The parameters of a function behind one for its receiver. -/
def signature (params : List (Param TsType)) (receiver : Option TsType) : List (Param TsType) :=
  (receiver.toList.map fun type => ⟨"this", type, false, false⟩) ++ params

theorem renderParams_eq_map (params : List (Param TsType))
    : renderParams params = params.map paramText := by
  induction params with
  | nil => rfl
  | cons param params ih =>
      obtain ⟨_, _, _, _⟩ := param
      rw [renderParams, ih]
      rfl

theorem renderReceiver_append (params : List (Param TsType)) (receiver : Option TsType)
    : renderReceiver receiver ++ renderParams params
      = (signature params receiver).map paramText := by
  rw [signature, List.map_append, renderParams_eq_map]
  cases receiver with
  | none => rfl
  | some type => simp [renderReceiver, paramText, optionalMark]

theorem toList_render_function (params : List (Param TsType)) (result : TsType)
    (receiver : Option TsType)
    : (render (.function params result receiver)).toList
      = '(' :: ((", ".intercalate ((signature params receiver).map paramText)).toList
        ++ (')' :: ' ' :: '=' :: '>' :: ' ' :: result.render.toList)) := by
  rw [render, renderReceiver_append]
  simp

/-- The text of a member of an object type. -/
def memberText : Member TsType → List Char
  | .property name type optional =>
    (propertyKey name).toList ++ ((optionalMark optional).toList
      ++ (':' :: ' ' :: (type.render.toList ++ [';', ' '])))
  | .index key keyType valueType =>
    '[' :: (key.toList ++ (':' :: ' ' :: (keyType.render.toList
      ++ (']' :: ':' :: ' ' :: (valueType.render.toList ++ [';', ' '])))))

theorem toList_renderMembers (members : List (Member TsType))
    : (renderMembers members).toList = members.flatMap memberText := by
  induction members with
  | nil => rfl
  | cons member members ih =>
      cases member <;> simp [renderMembers, memberText, ih]

theorem toList_render_object (members : List (Member TsType))
    : (render (.object members)).toList
      = '{' :: ((if members.isEmpty then [] else ' ' :: members.flatMap memberText) ++ ['}']) := by
  rw [render]
  split
  · rfl
  · simp [toList_renderMembers]

-----------------------------------------------------------------------------------------
-- What the text of a type begins with
-----------------------------------------------------------------------------------------

/-- The sorts of types that their first characters tell, but for arrays. -/
inductive Shape where
  | word | string | number | braces | parens | brackets
deriving DecidableEq

/-- The sort of a type. -/
def shape : TsType → Shape
  | .named .. | .primitive _ | .booleanLiteral _ => .word
  | .stringLiteral _ => .string
  | .numberLiteral _ => .number
  | .object _ => .braces
  | .union _ | .function .. => .parens
  | .array _ => .brackets

/-- The sort of type that a character begins. -/
def shapeOf (c : Char) : Shape :=
  if isNameStart c then .word
  else if opensNumber c then .number
  else if c = '"' then .string
  else if c = '{' then .braces
  else .parens

theorem shapeOf_of_isNameStart {c : Char} (starts : isNameStart c = true) : shapeOf c = .word :=
  if_pos starts

theorem shapeOf_of_opensNumber {c : Char} (numeric : opensNumber c = true)
    : shapeOf c = .number := by
  have noName : isNameStart c = false := by
    rw [Bool.eq_false_iff]
    intro starts
    rw [opensNumber, isDigit_of_isNameStart starts, Bool.false_or, beq_iff_eq] at numeric
    subst numeric
    exact absurd starts (by decide)
  rw [shapeOf, noName, if_neg Bool.false_ne_true, if_pos numeric]

/-- The word that a type begins with. -/
def word : TsType → String
  | .named name _ => name
  | .primitive kind => kind.keyword
  | .booleanLiteral value => if value then "true" else "false"
  | _ => ""

/-- The text of arguments. -/
def argsText (args : List TsType) : List Char :=
  if args.isEmpty then [] else '<' :: ((", ".intercalate (args.map render)).toList ++ ['>'])

theorem toList_operand_of_word (isWord : type.shape = .word)
    : type.operand.toList = type.word.toList ++ argsText type.parts := by
  cases type with
  | named name args =>
      rw [operand_eq_render rfl rfl, render, renderAll_eq_map, word, parts, argsText]
      cases args with
      | nil => simp
      | cons => simp
  | primitive kind =>
      rw [operand_eq_render rfl rfl, render, word, parts]
      simp [argsText]
  | booleanLiteral value =>
      rw [operand_eq_render rfl rfl, render, word, parts]
      simp [argsText]
  | _ => cases isWord

theorem isWord_word (legible : type.Legible) (isWord : type.shape = .word)
    : IsWord type.word.toList := by
  cases type with
  | named name args =>
      have spelled : IsPath name ∧ name ∉ fixedWords := legible.own
      exact isWord_of_isPath spelled.1
  | primitive kind => exact isWord_of_isIdentifier (isIdentifier_keyword kind)
  | booleanLiteral value =>
      cases value
      · exact isWord_of_isIdentifier (by decide)
      · exact isWord_of_isIdentifier (by decide)
  | _ => cases isWord

theorem toList_operand_of_parens (group : type.shape = .parens)
    : type.operand.toList = '(' :: (type.render.toList ++ [')']) := by
  have needed : (isFunction type || isUnion type) = true := by
    cases type <;> first | rfl | cases group
  simp [operand, needed, parenthesized]

theorem head_operand (legible : type.Legible) (noArray : type.shape ≠ .brackets)
    : ∃ c cs, type.operand.toList = c :: cs ∧ shapeOf c = type.shape := by
  cases shape : type.shape with
  | word =>
      obtain ⟨⟨c, cs, split, starts⟩, _⟩ := isWord_word legible shape
      rw [toList_operand_of_word shape, split]
      exact ⟨c, _, rfl, shapeOf_of_isNameStart starts⟩
  | string =>
      cases type with
      | stringLiteral value =>
          rw [operand_eq_render rfl rfl, render, toList_quote]
          exact ⟨'"', _, rfl, by decide⟩
      | _ => cases shape
  | number =>
      cases type with
      | numberLiteral text =>
          have numeric : isNumberText text = true := legible.own
          obtain ⟨c, cs, split, opens, _⟩ := exists_of_isNumberText numeric
          exact ⟨c, cs, split, shapeOf_of_opensNumber opens⟩
      | _ => cases shape
  | braces =>
      cases type with
      | object members =>
          rw [operand_eq_render rfl rfl, toList_render_object]
          exact ⟨'{', _, rfl, by decide⟩
      | _ => cases shape
  | parens =>
      rw [toList_operand_of_parens shape]
      exact ⟨'(', _, rfl, by decide⟩
  | brackets => exact absurd shape noArray

end Typings.TsType
