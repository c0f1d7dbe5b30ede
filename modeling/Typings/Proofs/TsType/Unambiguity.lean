import Typings.Proofs.TsType.Telling

/-! The text of a type tells the type. What follows a type is never what a type goes on with, so the
parentheses around functions and unions are enough wherever a type may stand.
-/

namespace Typings.TsType

open Text
open Hint hiding optional

variable {type other : TsType} {rest later : List Char}

-----------------------------------------------------------------------------------------
-- Functions are told from types in parentheses
-----------------------------------------------------------------------------------------

/-- Whether a parameter list goes on behind its parenthesis, or ends there. -/
def opensParams (cs : List Char) : Bool :=
  (cs.head?.any fun c => c == '.' || c == ')')
    || ((cs.dropWhile isNameChar).head?.any fun c => c == ':' || c == '?')

theorem opensParams_params {params : List (Param TsType)}
    (declared : ∀ param ∈ params, Declared param) (rest : List Char)
    : opensParams ((", ".intercalate (params.map paramText)).toList ++ ')' :: rest) = true := by
  cases params with
  | nil => simp [opensParams]
  | cons param params =>
      rw [List.map_cons, toList_intercalate_cons, toList_paramText]
      cases isRest : param.rest with
      | true => simp [opensParams]
      | false =>
          obtain ⟨c, cs, split, _, names⟩ :=
            chars_of_isIdentifier (declared param List.mem_cons_self).identifier
          simp only [Bool.false_eq_true, if_false, List.nil_append, List.append_assoc,
            List.cons_append, opensParams, Bool.or_eq_true]
          right
          rw [List.dropWhile_append_of_pos (split ▸ names)]
          cases param.optional <;> simp [optionalMark, isNameChar, isLetter, isNumeral]

theorem not_opensParams_cons {c : Char} {cs : List Char} (noName : isNameChar c = false)
    (other : c ∉ ['.', ')', ':', '?'])
    : opensParams (c :: cs) = false := by
  simp_all [opensParams]

/-- What goes on with neither a colon nor a question mark is no parameter. -/
theorem not_opensParams_append {c : Char} {cs : List Char} (opens : c ∉ ['.', ')'])
    (marks : ∀ d ∈ c :: cs, d ∉ [':', '?']) (ends : HeadIn ('<' :: breaks) rest)
    : opensParams (c :: cs ++ rest) = false := by
  have unmarked : ∀ d ∈ ((c :: cs ++ rest).dropWhile isNameChar).head?, d ∉ [':', '?'] := by
    intro d first
    rw [List.dropWhile_append] at first
    split at first
    · have unnamed : ∀ d ∈ rest.head?, isNameChar d = false := ends.fails (by decide)
      rw [(span_of_head unnamed).2] at first
      have harmless := ends.fails (p := fun c => c == ':' || c == '?') (by decide) d first
      simpa using harmless
    · rename_i inside
      rw [List.head?_append_of_ne_nil _ (by simpa using inside)] at first
      exact marks d (List.dropWhile_subset _ (List.mem_of_mem_head? first))
  rw [opensParams, Bool.or_eq_false_iff]
  constructor
  · simpa using opens
  · generalize ((c :: cs ++ rest).dropWhile isNameChar).head? = first at unmarked
    cases first with
    | none => rfl
    | some d => simpa using unmarked d rfl

/-- Without the brackets behind it every type is of a sort that its first character tells. -/
theorem exists_base (legible : type.Legible) (ends : HeadIn breaks rest)
    : ∃ base more,
        base.Legible
        ∧ base.shape ≠ .brackets
        ∧ HeadIn breaks more
        ∧ type.operand.toList ++ rest = base.operand.toList ++ more
        ∧ wrap type rest = wrap base more := by
  induction type using parts_induction generalizing rest with
  | step type ih =>
      cases type with
      | array element =>
          have mem : element ∈ parts (.array element) := List.mem_singleton_self element
          obtain ⟨base, more, baseLegible, noArray, moreEnds, text, wraps⟩ :=
            ih element mem (legible.part mem)
              (headIn_cons (by decide) : HeadIn breaks ('[' :: ']' :: rest))
          refine ⟨base, more, baseLegible, noArray, moreEnds, ?_, wraps⟩
          rw [toList_operand_array, List.append_assoc]
          exact text
      | _ => exact ⟨_, rest, legible, nofun, ends, rfl, rfl⟩

theorem not_opensParams_operand (legible : type.Legible) (ends : HeadIn breaks rest)
    : opensParams (type.operand.toList ++ rest) = false := by
  obtain ⟨base, more, baseLegible, noArray, moreEnds, text, _⟩ := exists_base legible ends
  rw [text]
  cases shape : base.shape with
  | word =>
      obtain ⟨⟨c, cs, isWord, starts⟩, paths⟩ := isWord_word baseLegible shape
      rw [toList_operand_of_word shape, List.append_assoc]
      rw [isWord] at paths ⊢
      exact not_opensParams_append (not_mem_of_fails starts (by decide))
        (fun d mem => not_mem_of_fails (paths d mem) (by decide))
        (headIn_argsText base.parts moreEnds)
  | number =>
      cases base with
      | numberLiteral numeral =>
          have numeric : isNumberText numeral = true := baseLegible.own
          obtain ⟨c, cs, isNumber, opens, digits⟩ := exists_of_isNumberText numeric
          rw [operand_eq_render rfl rfl, render, isNumber]
          refine not_opensParams_append (not_mem_of_fails opens (by decide)) (fun d mem => ?_)
            (moreEnds.mono fun _ mem => List.mem_cons_of_mem _ mem)
          rcases List.mem_cons.mp mem with rfl | mem
          · exact not_mem_of_fails opens (by decide)
          · exact not_mem_of_fails (digits d mem) (by decide)
      | _ => cases shape
  | string =>
      cases base with
      | stringLiteral value =>
          rw [operand_eq_render rfl rfl, render, toList_quote]
          exact not_opensParams_cons (by decide) (by decide)
      | _ => cases shape
  | braces =>
      cases base with
      | object members =>
          rw [operand_eq_render rfl rfl, toList_render_object]
          exact not_opensParams_cons (by decide) (by decide)
      | _ => cases shape
  | parens =>
      rw [toList_operand_of_parens shape]
      exact not_opensParams_cons (by decide) (by decide)
  | brackets => exact absurd shape noArray

/-- A type that is no function begins with its first alternative. -/
theorem exists_first (legible : type.Legible) (value : type.isFunction = false)
    (ends : HeadIn closers rest)
    : ∃ (first : TsType) (more : List Char),
        first.Legible
        ∧ HeadIn breaks more
        ∧ type.render.toList ++ rest = first.operand.toList ++ more := by
  obtain ⟨nonempty, legibles⟩ := legible.alternatives
  have text := render_eq_alternatives legible value
  cases alternatives : type.alternatives with
  | nil => exact absurd alternatives nonempty
  | cons first others =>
      rw [alternatives] at legibles text
      rw [text, List.map_cons, toList_intercalate_cons, List.append_assoc]
      refine ⟨first, _, legibles first List.mem_cons_self, ?_, rfl⟩
      cases others with
      | nil => exact breaks_of_closers ends
      | cons other others => exact headIn_cons List.mem_cons_self

theorem not_opensParams_render (legible : type.Legible) (ends : HeadIn closers rest)
    : opensParams (type.render.toList ++ rest) = false := by
  cases function : type.isFunction with
  | true =>
      cases type with
      | function params result receiver =>
          rw [toList_render_function]
          exact not_opensParams_cons (by decide) (by decide)
      | _ => cases function
  | false =>
      obtain ⟨first, more, firstLegible, moreEnds, text⟩ := exists_first legible function ends
      rw [text]
      exact not_opensParams_operand firstLegible moreEnds

/-- Whether a text begins with a parameter list. -/
def opensFunction : List Char → Bool
  | '(' :: cs => opensParams cs
  | _ => false

theorem opensFunction_function {params : List (Param TsType)} {result : TsType}
    {receiver : Option TsType} (legible : Legible (.function params result receiver))
    (rest : List Char)
    : opensFunction ((render (.function params result receiver)).toList ++ rest) = true := by
  rw [toList_render_function, List.cons_append, List.append_assoc, List.cons_append]
  exact opensParams_params legible.declared _

theorem not_opensFunction (legible : type.Legible) (value : type.isFunction = false)
    (ends : HeadIn closers rest)
    : opensFunction (type.render.toList ++ rest) = false := by
  obtain ⟨first, more, firstLegible, moreEnds, text⟩ := exists_first legible value ends
  obtain ⟨base, last, baseLegible, noArray, _, baseText, _⟩ := exists_base firstLegible moreEnds
  rw [text, baseText]
  obtain ⟨c, cs, split, shapes⟩ := head_operand baseLegible noArray
  by_cases isParen : c = '('
  · subst isParen
    have group : base.shape = .parens := shapes.symm.trans (by decide)
    rw [toList_operand_of_parens group, List.cons_append, List.append_assoc]
    exact not_opensParams_render baseLegible (headIn_cons (by decide))
  · rw [split, List.cons_append]
    unfold opensFunction
    split
    · rename_i same
      exact absurd (List.cons.inj same).1 isParen
    · rfl

-----------------------------------------------------------------------------------------
-- All types
-----------------------------------------------------------------------------------------

theorem told_function {params : List (Param TsType)} {result : TsType} {receiver : Option TsType}
    (legible : Legible (.function params result receiver))
    (told : ∀ part ∈ parts (.function params result receiver), Told part)
    : Told (.function params result receiver) := by
  intro other otherLegible rest later ends otherEnds same
  have opens := opensFunction_function legible rest
  cases function : other.isFunction with
  | false =>
      rw [same, not_opensFunction otherLegible function otherEnds] at opens
      cases opens
  | true =>
      cases other with
      | function others otherResult otherReceiver =>
          rw [toList_render_function, toList_render_function] at same
          simp only [List.cons_append, List.append_assoc, List.cons.injEq, true_and] at same
          obtain ⟨signatures, tails⟩ :=
            params_unique legible.declared otherLegible.declared
              (fun param listed => told _ (type_mem_parts result listed))
              (fun param listed => otherLegible.part (type_mem_parts otherResult listed)) same
          simp only [List.cons.injEq, true_and] at tails
          have resultMem {params : List (Param TsType)} {result : TsType}
              {receiver : Option TsType}
              : result ∈ parts (.function params result receiver) := by
            simp [parts]
          obtain ⟨rfl, rests⟩ :=
            told result resultMem otherResult (otherLegible.part resultMem) rest later ends
              otherEnds tails
          have spelled : ∀ param ∈ params, SpelledParam param := legible.own
          have otherSpelled : ∀ param ∈ others, SpelledParam param := otherLegible.own
          obtain ⟨rfl, rfl⟩ :=
            signature_injective (fun param mem => (spelled param mem).notThis)
              (fun param mem => (otherSpelled param mem).notThis) signatures
          exact ⟨rfl, rests⟩
      | _ => cases function

/-- A legible type is told by its alternatives, as a union has several. -/
theorem eq_of_alternatives (legible : type.Legible) (otherLegible : other.Legible)
    (same : type.alternatives = other.alternatives)
    : type = other := by
  have alone {type : TsType} {members : List TsType} (legible : Legible (.union members))
      (same : members = [type])
      : False := by
    have spelled : 2 ≤ members.length ∧ ∀ member ∈ members, member.isUnion = false := legible.own
    simp [same] at spelled
  cases type with
  | union members =>
      cases other with
      | union others => exact congrArg TsType.union same
      | _ => exact (alone legible same).elim
  | _ =>
      cases other with
      | union others => exact (alone otherLegible same.symm).elim
      | _ => exact (List.cons.inj same).1

/-- A type that is no function is told if its alternatives are.
Witness: neither what follows a type nor the bar behind an alternative begins with a bracket.
-/
theorem told_of_alternatives (legible : type.Legible) (value : type.isFunction = false)
    (told : ∀ alternative ∈ type.alternatives, ToldOperand alternative)
    : Told type := by
  intro other otherLegible rest later ends otherEnds same
  cases function : other.isFunction with
  | true =>
      cases other with
      | function params result receiver =>
          have opens := opensFunction_function otherLegible later
          rw [← same, not_opensFunction legible value ends] at opens
          cases opens
      | _ => cases function
  | false =>
      obtain ⟨nonempty, _⟩ := legible.alternatives
      obtain ⟨otherNonempty, otherLegibles⟩ := otherLegible.alternatives
      rw [render_eq_alternatives legible value, render_eq_alternatives otherLegible function]
        at same
      have alternatives : type.alternatives = other.alternatives ∧ rest = later := by
        generalize type.alternatives = left at *
        generalize other.alternatives = right at *
        obtain ⟨first, left, rfl⟩ := List.exists_cons_of_ne_nil nonempty
        obtain ⟨second, right, rfl⟩ := List.exists_cons_of_ne_nil otherNonempty
        have noBracket {rest : List Char} (ends : HeadIn (' ' :: closers) rest)
            : rest.head? ≠ some '[' := by
          intro head
          exact absurd (ends '[' head) (by decide)
        have noSpace {rest : List Char} (ends : HeadIn closers rest) : rest.head? ≠ some ' ' := by
          intro head
          exact absurd (ends ' ' head) (by decide)
        have wider {rest : List Char} (ends : HeadIn (' ' :: closers) rest)
            : HeadIn breaks rest :=
          ends.mono (by decide)
        refine intercalate_unique rfl List.mem_cons_self ?_
          (ends.mono fun _ mem => List.mem_cons_of_mem ' ' mem)
          (otherEnds.mono fun _ mem => List.mem_cons_of_mem ' ' mem) (noSpace ends)
          (noSpace otherEnds) same
        intro first mem second otherMem rest later ends otherEnds same
        have wraps := told first mem second (otherLegibles second otherMem) rest later
          (wider ends) (wider otherEnds) same
        rw [wrap_of_head _ (noBracket ends), wrap_of_head _ (noBracket otherEnds)] at wraps
        exact Prod.mk.inj wraps
      exact ⟨eq_of_alternatives legible otherLegible alternatives.1, alternatives.2⟩

/-- Types that are no arrays are told by their operands if their parts are told, and they themselves
where they stand in parentheses.
-/
theorem base_unique (legible : type.Legible) (otherLegible : other.Legible)
    (noArray : type.shape ≠ .brackets) (otherNoArray : other.shape ≠ .brackets)
    (told : ∀ part ∈ type.parts, Told part) (group : type.shape = .parens → Told type)
    (ends : HeadIn breaks rest) (otherEnds : HeadIn breaks later)
    (same : type.operand.toList ++ rest = other.operand.toList ++ later)
    : type = other ∧ rest = later := by
  have shapes : type.shape = other.shape := by
    obtain ⟨c, cs, split, shape⟩ := head_operand legible noArray
    obtain ⟨d, ds, otherSplit, otherShape⟩ := head_operand otherLegible otherNoArray
    rw [split, otherSplit] at same
    rw [← shape, ← otherShape, (List.cons.inj same).1]
  cases shape : type.shape with
  | word =>
      exact word_unique legible otherLegible shape (shapes.symm.trans shape) told ends otherEnds
        same
  | parens =>
      rw [toList_operand_of_parens shape, toList_operand_of_parens (shapes.symm.trans shape),
        List.cons_append, List.cons_append, List.append_assoc, List.append_assoc] at same
      obtain ⟨rfl, tails⟩ :=
        group shape other otherLegible _ _ (headIn_cons (by decide)) (headIn_cons (by decide))
          (List.cons.inj same).2
      exact ⟨rfl, (List.cons.inj tails).2⟩
  | brackets => exact absurd shape noArray
  | string =>
      have otherShape := shapes.symm.trans shape
      cases type with
      | stringLiteral value =>
          cases other with
          | stringLiteral otherValue =>
              rw [operand_eq_render rfl rfl, operand_eq_render rfl rfl, render, render] at same
              obtain ⟨rfl, rests⟩ := quote_unique same
              exact ⟨rfl, rests⟩
          | _ => cases otherShape
      | _ => cases shape
  | number =>
      have otherShape := shapes.symm.trans shape
      cases type with
      | numberLiteral text =>
          cases other with
          | numberLiteral otherText =>
              rw [operand_eq_render rfl rfl, operand_eq_render rfl rfl, render, render] at same
              obtain ⟨rfl, rests⟩ :=
                number_unique legible.own otherLegible.own ends otherEnds same
              exact ⟨rfl, rests⟩
          | _ => cases otherShape
      | _ => cases shape
  | braces =>
      have otherShape := shapes.symm.trans shape
      cases type with
      | object members =>
          cases other with
          | object others =>
              rw [operand_eq_render rfl rfl, operand_eq_render rfl rfl] at same
              obtain ⟨rfl, rests⟩ := object_unique legible otherLegible told same
              exact ⟨rfl, rests⟩
          | _ => cases otherShape
      | _ => cases shape

theorem toldOperand_of_base (legible : type.Legible) (noArray : type.shape ≠ .brackets)
    (told : ∀ part ∈ type.parts, Told part) (group : type.shape = .parens → Told type)
    : ToldOperand type := by
  intro other otherLegible rest later ends otherEnds same
  obtain ⟨base, more, baseLegible, baseNoArray, moreEnds, text, wraps⟩ :=
    exists_base otherLegible otherEnds
  rw [text] at same
  obtain ⟨rfl, rfl⟩ :=
    base_unique legible baseLegible noArray baseNoArray told group ends moreEnds same
  exact wraps.symm

/-- The brackets of an array are among what follows its element. -/
theorem toldOperand_array {element : TsType} (told : ToldOperand element)
    : ToldOperand (.array element) := by
  intro other otherLegible rest later ends otherEnds same
  rw [toList_operand_array, List.append_assoc] at same
  exact told other otherLegible _ later (headIn_cons (by decide)) otherEnds same

/-- Every legible type is told by its text, and as an operand but for the brackets behind it, by
induction over its parts.
-/
theorem Legible.told (legible : type.Legible) : Told type ∧ ToldOperand type := by
  induction type using parts_induction with
  | step type ih =>
      have told : ∀ part ∈ type.parts, Told part := fun part mem =>
        (ih part mem (legible.part mem)).1
      have toldOperands : ∀ part ∈ type.parts, ToldOperand part := fun part mem =>
        (ih part mem (legible.part mem)).2
      -- A type in parentheses is told before its operand, any other type by its operand.
      have byText (noArray : type.shape ≠ .brackets) (own : Told type)
          : Told type ∧ ToldOperand type :=
        ⟨own, toldOperand_of_base legible noArray told fun _ => own⟩
      have byOperand (value : type.isFunction = false) (alone : type.alternatives = [type])
          (own : ToldOperand type)
          : Told type ∧ ToldOperand type :=
        ⟨told_of_alternatives legible value (by simpa [alone] using own), own⟩
      cases type with
      | function params result receiver => exact byText nofun (told_function legible told)
      | union members => exact byText nofun (told_of_alternatives legible rfl toldOperands)
      | array element =>
          have own := toldOperand_array (toldOperands element (List.mem_singleton_self element))
          exact byOperand rfl rfl own
      | named | primitive | stringLiteral | numberLiteral | booleanLiteral | object =>
          exact byOperand rfl rfl (toldOperand_of_base legible nofun told nofun)

/-- Two legible types have the same text only if they are the same type. -/
theorem render_eq_iff {left right : TsType} (legible : left.Legible)
    (otherLegible : right.Legible)
    : left.render = right.render ↔ left = right := by
  constructor
  · intro same
    have texts : left.render.toList ++ [] = right.render.toList ++ [] := by rw [same]
    exact (legible.told.1 right otherLegible [] [] (headIn_nil _) (headIn_nil _) texts).1
  · rintro rfl
    rfl

/-- A function that returns a union, and a union of which one member is a function. -/
theorem render_eq_iff_function
    : let nodes : TsType := .array (.named "Node" [])
      let left : TsType := .function [] (.union [.primitive .string, nodes]) none
      let right : TsType := .union [.function [] (.primitive .string) none, nodes]
      left.Legible
      ∧ right.Legible
      ∧ left.render = "() => string | Node[]"
      ∧ right.render = "(() => string) | Node[]"
      ∧ (left.render = right.render ↔ left = right) := by
  intro nodes left right
  have path : IsPath "Node" := isPath_of_isIdentifier (by decide)
  have spelledNode : Spelled (.named "Node" []) := ⟨path, by decide⟩
  have legibleString : Legible (.primitive .string) := legible_iff.mpr ⟨trivial, nofun⟩
  have legibleNodes : nodes.Legible :=
    legible_iff.mpr ⟨trivial, List.forall_mem_singleton.mpr (legible_iff.mpr ⟨spelledNode, nofun⟩)⟩
  have union {first : TsType} (legible : first.Legible) (single : first.isUnion = false)
      : Legible (.union [first, nodes]) :=
    legible_iff.mpr ⟨⟨Nat.le_refl 2, List.forall_mem_cons.mpr ⟨single, by decide⟩⟩,
      List.forall_mem_cons.mpr ⟨legible, List.forall_mem_singleton.mpr legibleNodes⟩⟩
  have function {result : TsType} (legible : result.Legible)
      : Legible (.function [] result none) :=
    legible_iff.mpr ⟨nofun, List.forall_mem_singleton.mpr legible⟩
  have legible : left.Legible := function (union legibleString rfl)
  have otherLegible : right.Legible := union (function legibleString) rfl
  exact ⟨legible, otherLegible, by decide +kernel, by decide +kernel,
    render_eq_iff legible otherLegible⟩

end Typings.TsType
