import Typings.Proofs.TsType.Texts

/-! Pieces of types with other types in them. Where the texts of these tell them, the text of the
piece tells the piece.
-/

namespace Typings.TsType

open Text
open Hint hiding optional

variable {type other : TsType} {rest later : List Char}

-----------------------------------------------------------------------------------------
-- Types that their texts tell
-----------------------------------------------------------------------------------------

/-- A type with the pairs of brackets behind it, and what follows them. -/
def wrap : TsType → List Char → TsType × List Char
  | type, '[' :: ']' :: rest => wrap (.array type) rest
  | type, rest => (type, rest)

/-- In front of what may follow a type, no other type has the text of this one. -/
def Told (type : TsType) : Prop :=
  ∀ other,
    other.Legible
    → ∀ rest later,
        HeadIn closers rest
        → HeadIn closers later
        → type.render.toList ++ rest = other.render.toList ++ later
        → type = other ∧ rest = later

/-- As the element of an array or an alternative of a union no other type has the text of this one,
but for the brackets that follow.
-/
def ToldOperand (type : TsType) : Prop :=
  ∀ other,
    other.Legible
    → ∀ rest later,
        HeadIn breaks rest
        → HeadIn breaks later
        → type.operand.toList ++ rest = other.operand.toList ++ later
        → wrap type rest = wrap other later

theorem wrap_of_head (type : TsType) (apart : rest.head? ≠ some '[')
    : wrap type rest = (type, rest) := by
  unfold wrap
  split
  · exact absurd rfl apart
  · rfl

-----------------------------------------------------------------------------------------
-- Words with their arguments
-----------------------------------------------------------------------------------------

theorem headIn_argsText (args : List TsType) (ends : HeadIn breaks rest)
    : HeadIn ('<' :: breaks) (argsText args ++ rest) := by
  unfold argsText
  split
  · exact ends.mono fun _ mem => List.mem_cons_of_mem _ mem
  · exact headIn_cons List.mem_cons_self

theorem args_unique {args others : List TsType} (told : ∀ arg ∈ args, Told arg)
    (legible : ∀ arg ∈ others, arg.Legible) (ends : HeadIn breaks rest)
    (otherEnds : HeadIn breaks later)
    (same : argsText args ++ rest = argsText others ++ later)
    : args = others ∧ rest = later := by
  have noAngle {rest front : List Char} (ends : HeadIn breaks rest) (same : rest = '<' :: front)
      : False := by
    subst same
    exact absurd (ends '<' rfl) (by decide)
  cases args with
  | nil =>
      cases others with
      | nil => exact ⟨rfl, same⟩
      | cons other others => exact (noAngle ends same).elim
  | cons arg args =>
      cases others with
      | nil => exact (noAngle otherEnds same.symm).elim
      | cons other others =>
          simp only [argsText, List.isEmpty_cons, Bool.false_eq_true, if_false, List.cons_append,
            List.append_assoc, List.cons.injEq, true_and] at same
          obtain ⟨sameArgs, tails⟩ :=
            intercalate_unique rfl List.mem_cons_self
              (fun first mem second otherMem rest later =>
                told first mem second (legible second otherMem) rest later)
              (headIn_cons (by decide)) (headIn_cons (by decide)) (by simp) (by simp) same
          exact ⟨sameArgs, by simpa using tails⟩

theorem keyword_injective {left right : Primitive} (same : left.keyword = right.keyword)
    : left = right := by
  cases left <;> cases right <;> first | rfl | exact absurd same (by decide)

theorem mem_fixedWords (isWord : type.shape = .word)
    (unnamed : ∀ name args, type ≠ .named name args)
    : type.word ∈ fixedWords := by
  cases type with
  | named name args => exact absurd rfl (unnamed name args)
  | primitive kind => cases kind <;> decide
  | booleanLiteral value => cases value <;> decide
  | _ => cases isWord

/-- The word and the arguments tell the type. -/
theorem eq_of_word (legible : type.Legible) (otherLegible : other.Legible)
    (isWord : type.shape = .word) (otherIsWord : other.shape = .word)
    (words : type.word = other.word) (args : type.parts = other.parts)
    : type = other := by
  have fixed {name : String} {args : List TsType} (legible : Legible (.named name args))
      : name ∉ fixedWords :=
    And.right (legible.own : IsPath name ∧ name ∉ fixedWords)
  cases type with
  | named name args =>
      cases other with
      | named => exact congrArg₂ TsType.named words ‹_›
      | primitive | booleanLiteral =>
          have mem := mem_fixedWords otherIsWord nofun
          rw [← words] at mem
          exact absurd mem (fixed legible)
      | _ => cases otherIsWord
  | primitive kind =>
      cases other with
      | named =>
          have mem := mem_fixedWords isWord nofun
          rw [words] at mem
          exact absurd mem (fixed otherLegible)
      | primitive otherKind => exact congrArg TsType.primitive (keyword_injective words)
      | booleanLiteral value => cases kind <;> cases value <;> exact absurd words (by decide)
      | _ => cases otherIsWord
  | booleanLiteral value =>
      cases other with
      | named =>
          have mem := mem_fixedWords isWord nofun
          rw [words] at mem
          exact absurd mem (fixed otherLegible)
      | primitive kind => cases kind <;> cases value <;> exact absurd words (by decide)
      | booleanLiteral otherValue =>
          cases value <;> cases otherValue <;> first | rfl | exact absurd words (by decide)
      | _ => cases otherIsWord
  | _ => cases isWord

theorem word_unique (legible : type.Legible) (otherLegible : other.Legible)
    (isWord : type.shape = .word) (otherIsWord : other.shape = .word)
    (told : ∀ part ∈ type.parts, Told part) (ends : HeadIn breaks rest)
    (otherEnds : HeadIn breaks later)
    (same : type.operand.toList ++ rest = other.operand.toList ++ later)
    : type = other ∧ rest = later := by
  rw [toList_operand_of_word isWord, toList_operand_of_word otherIsWord, List.append_assoc,
    List.append_assoc] at same
  have unpathed : ('<' :: breaks).any isPathChar = false := by decide
  obtain ⟨words, tails⟩ :=
    eq_of_span (isWord_word legible isWord).2 (isWord_word otherLegible otherIsWord).2
      ((headIn_argsText type.parts ends).fails unpathed)
      ((headIn_argsText other.parts otherEnds).fails unpathed) same
  obtain ⟨args, rests⟩ :=
    args_unique told (fun part mem => otherLegible.part mem) ends otherEnds tails
  exact ⟨eq_of_word legible otherLegible isWord otherIsWord (String.toList_inj.mp words) args,
    rests⟩

-----------------------------------------------------------------------------------------
-- Members of object types
-----------------------------------------------------------------------------------------

theorem close_ne_memberText (member : Member TsType) (front back : List Char)
    : '}' :: front ≠ memberText member ++ back := by
  cases member with
  | index => simp [memberText]
  | property name type isOptional =>
      rw [memberText, List.append_assoc]
      exact cons_ne_propertyKey (by decide) (by decide)

theorem member_unique {left right : Member TsType} (told : ∀ type ∈ left.types, Told type)
    (legible : ∀ type ∈ right.types, type.Legible)
    (identifier
      : ∀ key keyType valueType,
          left = .index key keyType valueType → isIdentifier key = true)
    (otherIdentifier
      : ∀ key keyType valueType,
          right = .index key keyType valueType → isIdentifier key = true)
    (same : memberText left ++ rest = memberText right ++ later)
    : left = right ∧ rest = later := by
  cases left with
  | property name type isOptional =>
      cases right with
      | index key keyType valueType =>
          simp only [memberText, List.append_assoc, List.cons_append] at same
          exact absurd same.symm (cons_ne_propertyKey (by decide) (by decide))
      | property otherName otherType otherOptional =>
          simp only [memberText, List.append_assoc, List.cons_append] at same
          obtain ⟨rfl, marks⟩ :=
            propertyKey_unique (headIn_optionalMark _ _) (headIn_optionalMark _ _) same
          obtain ⟨rfl, types⟩ := optionalMark_unique marks
          simp only [List.cons.injEq, true_and] at types
          obtain ⟨rfl, rests⟩ :=
            told type (by simp [Member.types]) otherType
              (legible otherType (by simp [Member.types])) _ _ (headIn_cons (by decide))
              (headIn_cons (by decide)) types
          exact ⟨rfl, by simpa using rests⟩
  | index key keyType valueType =>
      cases right with
      | property otherName otherType otherOptional =>
          simp only [memberText, List.append_assoc, List.cons_append] at same
          exact absurd same (cons_ne_propertyKey (by decide) (by decide))
      | index otherKey otherKeyType otherValueType =>
          simp only [memberText, List.append_assoc, List.cons_append, List.cons.injEq,
            true_and] at same
          obtain ⟨rfl, keys⟩ :=
            identifier_unique (identifier _ _ _ rfl) (otherIdentifier _ _ _ rfl)
              (headIn_cons (by decide)) (headIn_cons (by decide)) same
          simp only [List.cons.injEq, true_and] at keys
          obtain ⟨rfl, values⟩ :=
            told keyType (by simp [Member.types]) otherKeyType
              (legible otherKeyType (by simp [Member.types])) _ _ (headIn_cons (by decide))
              (headIn_cons (by decide)) keys
          simp only [List.cons.injEq, true_and] at values
          obtain ⟨rfl, rests⟩ :=
            told valueType (by simp [Member.types]) otherValueType
              (legible otherValueType (by simp [Member.types])) _ _ (headIn_cons (by decide))
              (headIn_cons (by decide)) values
          exact ⟨rfl, by simpa using rests⟩

theorem object_unique {others : List (Member TsType)} {members : List (Member TsType)}
    (legible : Legible (.object members)) (otherLegible : Legible (.object others))
    (told : ∀ part ∈ parts (.object members), Told part)
    (same : (render (.object members)).toList ++ rest = (render (.object others)).toList ++ later)
    : members = others ∧ rest = later := by
  have identifiers {members : List (Member TsType)} (legible : Legible (.object members))
      {member : Member TsType} (listed : member ∈ members) (key : String)
      (keyType valueType : TsType) (isIndex : member = .index key keyType valueType)
      : isIdentifier key = true :=
    legible.own key keyType valueType (isIndex ▸ listed)
  rw [toList_render_object, toList_render_object] at same
  cases members with
  | nil =>
      cases others with
      | nil => exact ⟨rfl, by simpa using same⟩
      | cons => simp at same
  | cons member members =>
      cases others with
      | nil => simp at same
      | cons other others =>
          simp only [List.isEmpty_cons, Bool.false_eq_true, if_false, List.cons_append,
            List.append_assoc, List.cons.injEq, true_and] at same
          obtain ⟨sameMembers, tails⟩ :=
            flatMap_unique (fun _ => True)
              (fun first listed second otherListed rest later _ _ =>
                member_unique
                  (fun type mem => told type (List.mem_flatMap.mpr ⟨first, listed, mem⟩))
                  (fun type mem =>
                    otherLegible.part (List.mem_flatMap.mpr ⟨second, otherListed, mem⟩))
                  (identifiers legible listed) (identifiers otherLegible otherListed))
              (fun _ _ => trivial) trivial trivial
              (fun piece => close_ne_memberText piece _) (fun piece => close_ne_memberText piece _)
              same
          exact ⟨sameMembers, by simpa using tails⟩

-----------------------------------------------------------------------------------------
-- Parameters
-----------------------------------------------------------------------------------------

theorem toList_paramText (param : Param TsType)
    : (paramText param).toList
      = (if param.rest then ['.', '.', '.'] else [])
        ++ (param.name.toList ++ ((optionalMark (param.optional && !param.rest)).toList
          ++ (':' :: ' ' :: param.type.render.toList))) := by
  rw [paramText]
  cases param.rest <;> simp

/-- A parameter of a function, or the one for its receiver. -/
structure Declared (param : Param TsType) : Prop where
  identifier : isIdentifier param.name = true
  single : ¬ (param.optional = true ∧ param.rest = true)

theorem Legible.declared {params : List (Param TsType)} {result : TsType}
    {receiver : Option TsType} (legible : Legible (.function params result receiver))
    : ∀ param ∈ signature params receiver, Declared param := by
  have spelled : ∀ param ∈ params, SpelledParam param := legible.own
  intro param listed
  rcases List.mem_append.mp listed with isReceiver | isParam
  · obtain ⟨type, _, rfl⟩ := List.mem_map.mp isReceiver
    have identifier : isIdentifier "this" = true := by decide
    exact ⟨identifier, by simp⟩
  · exact ⟨(spelled param isParam).identifier, (spelled param isParam).single⟩

theorem type_mem_parts {params : List (Param TsType)} {receiver : Option TsType}
    (result : TsType) {param : Param TsType} (listed : param ∈ signature params receiver)
    : param.type ∈ parts (.function params result receiver) := by
  rw [parts, List.mem_append, List.mem_cons, Option.mem_toList]
  rcases List.mem_append.mp listed with isReceiver | isParam
  · obtain ⟨type, mem, rfl⟩ := List.mem_map.mp isReceiver
    exact .inr (.inr (Option.mem_toList.mp mem))
  · exact .inl (List.mem_map_of_mem isParam)

/-- A receiver is told from the first parameter, as that is not named `this`. -/
theorem signature_injective {params others : List (Param TsType)}
    {receiver otherReceiver : Option TsType} (named : ∀ param ∈ params, param.name ≠ "this")
    (otherNamed : ∀ param ∈ others, param.name ≠ "this")
    (same : signature params receiver = signature others otherReceiver)
    : params = others ∧ receiver = otherReceiver := by
  cases receiver with
  | none =>
      cases otherReceiver with
      | none => exact ⟨same, rfl⟩
      | some type =>
          have split : params = ⟨"this", type, false, false⟩ :: others := same
          exact absurd rfl (named ⟨"this", type, false, false⟩ (by simp [split]))
  | some type =>
      cases otherReceiver with
      | none =>
          have split : ⟨"this", type, false, false⟩ :: params = others := same
          exact absurd rfl (otherNamed ⟨"this", type, false, false⟩ (by simp [← split]))
      | some otherType =>
          have split
              : (⟨"this", type, false, false⟩ : Param TsType) :: params
                = ⟨"this", otherType, false, false⟩ :: others :=
            same
          obtain ⟨receivers, rfl⟩ := List.cons.inj split
          cases receivers
          exact ⟨rfl, rfl⟩

theorem param_unique {left right : Param TsType} (declared : Declared left)
    (otherDeclared : Declared right) (told : Told left.type) (legible : right.type.Legible)
    (ends : HeadIn closers rest) (otherEnds : HeadIn closers later)
    (same : (paramText left).toList ++ rest = (paramText right).toList ++ later)
    : left = right ∧ rest = later := by
  obtain ⟨name, type, isOptional, isRest⟩ := left
  obtain ⟨otherName, otherType, otherOptional, otherIsRest⟩ := right
  obtain ⟨identifier, single⟩ := declared
  obtain ⟨otherIdentifier, otherSingle⟩ := otherDeclared
  dsimp only at identifier otherIdentifier single otherSingle told legible
  rw [toList_paramText, toList_paramText] at same
  cases isRest <;> cases otherIsRest
  · simp only [Bool.false_eq_true, if_false, Bool.not_false, Bool.and_true, List.nil_append,
      List.append_assoc, List.cons_append] at same
    obtain ⟨rfl, marks⟩ :=
      identifier_unique identifier otherIdentifier (headIn_optionalMark _ _)
        (headIn_optionalMark _ _) same
    obtain ⟨rfl, types⟩ := optionalMark_unique marks
    obtain ⟨rfl, rests⟩ :=
      told otherType legible rest later ends otherEnds (List.cons.inj types).2
    exact ⟨rfl, rests⟩
  · simp only [Bool.false_eq_true, if_false, if_true, List.nil_append, List.append_assoc,
      List.cons_append] at same
    exact absurd same.symm (cons_ne_identifier identifier (by decide))
  · simp only [Bool.false_eq_true, if_false, if_true, List.nil_append, List.append_assoc,
      List.cons_append] at same
    exact absurd same (cons_ne_identifier otherIdentifier (by decide))
  · have required : isOptional = false := by simpa using single
    have otherRequired : otherOptional = false := by simpa using otherSingle
    subst required otherRequired
    simp only [if_true, Bool.not_true, Bool.and_false, List.append_assoc, List.cons_append,
      List.nil_append, List.cons.injEq, true_and] at same
    obtain ⟨rfl, marks⟩ :=
      identifier_unique identifier otherIdentifier (headIn_optionalMark _ _)
        (headIn_optionalMark _ _) same
    obtain ⟨_, types⟩ := optionalMark_unique marks
    obtain ⟨rfl, rests⟩ :=
      told otherType legible rest later ends otherEnds (List.cons.inj types).2
    exact ⟨rfl, rests⟩

/-- A parenthesis closes a list of parameters where it does another one. -/
theorem params_unique {left right : List (Param TsType)} (declared : ∀ param ∈ left, Declared param)
    (otherDeclared : ∀ param ∈ right, Declared param) (told : ∀ param ∈ left, Told param.type)
    (legible : ∀ param ∈ right, param.type.Legible)
    (same
      : (", ".intercalate (left.map paramText)).toList ++ ')' :: rest
        = (", ".intercalate (right.map paramText)).toList ++ ')' :: later)
    : left = right ∧ rest = later := by
  have close_ne {param : Param TsType} {params : List (Param TsType)} {front back : List Char}
      (declared : Declared param)
      : ')' :: front ≠ (", ".intercalate ((param :: params).map paramText)).toList ++ back := by
    rw [List.map_cons, toList_intercalate_cons, toList_paramText, List.append_assoc,
      List.append_assoc, List.append_assoc]
    cases param.rest with
    | true => simp
    | false => exact cons_ne_identifier declared.identifier (by decide)
  cases left with
  | nil =>
      cases right with
      | nil => exact ⟨rfl, (List.cons.inj same).2⟩
      | cons param right =>
          exact absurd same (close_ne (otherDeclared param List.mem_cons_self))
  | cons param left =>
      cases right with
      | nil => exact absurd same.symm (close_ne (declared param List.mem_cons_self))
      | cons otherParam right =>
          obtain ⟨sameParams, tails⟩ :=
            intercalate_unique rfl List.mem_cons_self
              (fun first mem second otherMem rest later ends otherEnds same =>
                param_unique (declared first mem) (otherDeclared second otherMem)
                  (told first mem) (legible second otherMem) ends otherEnds same)
              (headIn_cons (by decide)) (headIn_cons (by decide)) (by simp) (by simp) same
          exact ⟨sameParams, (List.cons.inj tails).2⟩

end Typings.TsType
