import Typings.Proofs.Hint.Namepaths
import Typings.Proofs.TsType.NormalForm
import Typings.TsType.Render

/-! Types whose text parses back to them.

The text of a type scans to the tokens of a phrase that means it. A type that is no union is
written as one atom with its brackets, a union as operands with bars between them, and so each
stands where the grammar looks for it.
-/

namespace Typings.Hint

open Phrase TsType

-----------------------------------------------------------------------------------------
-- Printable types
-----------------------------------------------------------------------------------------

/-- The words that are keywords of hints. -/
def keywords : List String :=
  ["function", "null", "undefined", "true", "false"]

/-- The names that a hint gives a meaning of their own. -/
def specialNames : List String :=
  primitiveNames.map Prod.fst ++ ["Array", "array", "Object", "Function", "Promise"]

/-- The types that the text of a hint can hold as they are written in TypeScript. -/
inductive Printable : TsType → Prop where
  | primitive (kind : Primitive) : Printable (.primitive kind)
  | boolean (value : Bool) : Printable (.booleanLiteral value)
  | string {value : String} (returns : '\r' ∉ value.toList) : Printable (.stringLiteral value)
  | number {text : String} (numeric : isNumberText text = true) : Printable (.numberLiteral text)
  | array {element : TsType} (inner : Printable element) : Printable (.array element)
  | named {name : String} {args : List TsType} (path : IsPath name) (plain : name ∉ keywords)
      (declared : name ∉ specialNames) (inner : ∀ arg ∈ args, Printable arg)
    : Printable (.named name args)
  | union {members : List TsType} (normal : NormalMembers members)
      (inner : ∀ member ∈ members, Printable member)
    : Printable (.union members)

-----------------------------------------------------------------------------------------
-- What a type is written as
-----------------------------------------------------------------------------------------

/-- The text of a type is an atom with marks behind it. -/
def WritesOperand (type : TsType) : Prop :=
  ∃ (atom : Atom) (marks : List Mark),
    Scans type.render (atom.tokens ++ Mark.tokens marks) ∧ marks.foldl Mark.on atom.type = type

/-- The text of a type is a union. -/
def WritesUnion (type : TsType) : Prop :=
  ∃ union : Phrase.Union, Scans type.render union.tokens ∧ union.type = type

variable {type element : TsType} {rest : List Char}

theorem WritesOperand.union (operand : WritesOperand type) (single : type.isUnion = false)
    : WritesUnion type := by
  obtain ⟨atom, marks, scans, means⟩ := operand
  refine ⟨.of false (.of (.atom atom marks) .none), ?_, ?_⟩
  · intro rest stop
    rw [scans rest stop]
    simp [Union.tokens, Chain.tokens, Operand.tokens, Alternatives.tokens]
  · rw [Union.type, Chain.type, Operand.type, Alternatives.types, means]
    apply unionOf_singleton_of_ne
    rintro members rfl
    cases single

theorem writesOperand_word (word : Word) (scans : Scans type.render [word.token])
    (means : word.type = type)
    : WritesOperand type :=
  ⟨.word word, [], scans, means⟩

theorem writesOperand_string {value : String} (returns : '\r' ∉ value.toList)
    : WritesOperand (.stringLiteral value) :=
  ⟨.word (.string value), [], scans_quote returns, rfl⟩

theorem writesOperand_number {text : String} (numeric : isNumberText text = true)
    : WritesOperand (.numberLiteral text) :=
  ⟨.word (.number text), [], scans_number numeric, rfl⟩

theorem isPath_of_isIdentifier {name : String} (identifier : Text.isIdentifier name = true)
    : IsPath name := by
  refine ⟨[name], by simp, ?_, by simp⟩
  rintro _ (_ | ⟨_, ⟨⟩⟩)
  exact identifier

theorem isIdentifier_keyword (kind : Primitive) : Text.isIdentifier kind.keyword = true := by
  cases kind <;> decide

theorem writesOperand_primitive (kind : Primitive) : WritesOperand (.primitive kind) := by
  have scans := scans_path (isPath_of_isIdentifier (isIdentifier_keyword kind))
  cases kind with
  | null => exact writesOperand_word .null scans rfl
  | undefined => exact writesOperand_word .undefined scans rfl
  | _ => exact ⟨.name _ .none, [], scans, by decide +kernel⟩

theorem writesOperand_boolean (value : Bool) : WritesOperand (.booleanLiteral value) := by
  cases value with
  | true => exact writesOperand_word .true (scans_path (isPath_of_isIdentifier (by decide))) rfl
  | false => exact writesOperand_word .false (scans_path (isPath_of_isIdentifier (by decide))) rfl

/-- An array is written behind its elements, which stand in parentheses if they are a union. -/
theorem writesOperand_array (union : WritesUnion element)
    (operand : element.isUnion = false → WritesOperand element)
    (value : element.isFunction = false)
    : WritesOperand (.array element) := by
  cases several : element.isUnion with
  | true =>
      obtain ⟨union, scans, means⟩ := union
      refine ⟨.group union, [.brackets], ?_, by rw [Atom.type, means]; rfl⟩
      intro rest stop
      have text : (render (.array element)).toList ++ rest
          = '(' :: (element.render.toList ++ ')' :: '[' :: ']' :: rest) := by
        simp [render, several, parenthesized]
      rw [text, kindsOf_punctuation rfl, scans _ (stops_cons (by decide)), kindsOf_punctuation rfl,
        kindsOf_punctuation rfl, kindsOf_punctuation rfl]
      simp [Atom.tokens, Mark.tokens]
  | false =>
      obtain ⟨atom, marks, scans, means⟩ := operand several
      refine ⟨atom, marks ++ [.brackets], ?_, by rw [List.foldl_append, means]; rfl⟩
      intro rest stop
      have text : (render (.array element)).toList ++ rest
          = element.render.toList ++ '[' :: ']' :: rest := by
        simp [render, several, value, parenthesized]
      rw [text, scans _ (stops_cons (by decide)), kindsOf_punctuation rfl,
        kindsOf_punctuation rfl, Mark.tokens_append]
      simp [Mark.tokens]

-----------------------------------------------------------------------------------------
-- Types that are named, and their arguments
-----------------------------------------------------------------------------------------

/-- A path without a meaning of its own names what it says. -/
theorem reference_of_declared {name : String} (path : IsPath name) (declared : name ∉ specialNames)
    (args : List TsType)
    : reference name args = .named name args := by
  simp only [specialNames, List.mem_append, List.mem_cons, not_or] at declared
  obtain ⟨unnamed, array, array', object, function, promise, -⟩ := declared
  have unknown : primitiveNames.lookup name = none := by
    rw [List.lookup_eq_none_iff]
    rintro pair mem
    rw [bne_iff_ne]
    rintro rfl
    exact unnamed (List.mem_map_of_mem mem)
  unfold reference
  split
  · simp_all
  · split
    all_goals first | contradiction | skip
    rw [entityName_of_path path]

theorem ofName_of_plain {name : String} (plain : name ∉ keywords)
    : Token.Kind.ofName name = .name name := by
  simp only [keywords, List.mem_cons, not_or] at plain
  unfold Token.Kind.ofName
  split
  all_goals simp_all

theorem stops_arguments (args : List TsType) (stop : Stops rest)
    : Stops (separated ", " (renderAll args) ++ rest) := by
  cases args with
  | nil => exact stop
  | cons => exact stops_cons (by decide)

theorem exists_types {args : List TsType} (writes : ∀ arg ∈ args, WritesUnion arg)
    : ∃ more : Types, more.list = args ∧ ∀ rest, Stops rest →
        kindsOf (separated ", " (renderAll args) ++ rest) = more.tokens ++ kindsOf rest := by
  induction args with
  | nil => exact ⟨.none, rfl, fun _ _ => rfl⟩
  | cons arg args ih =>
      obtain ⟨union, scans, means⟩ := writes arg (List.mem_cons_self ..)
      obtain ⟨more, list, later⟩ := ih fun other mem => writes other (List.mem_cons_of_mem _ mem)
      refine ⟨.comma union more, by rw [Types.list, means, list], ?_⟩
      intro rest stop
      have text : separated ", " (renderAll (arg :: args)) ++ rest
          = ',' :: ' ' :: (arg.render.toList ++ (separated ", " (renderAll args) ++ rest)) := by
        simp [separated, renderAll]
      rw [text, kindsOf_punctuation rfl, kindsOf_space, scans _ (stops_arguments args stop),
        later rest stop]
      simp [Types.tokens]

theorem writesOperand_named {name : String} {args : List TsType} (path : IsPath name)
    (plain : name ∉ keywords) (declared : name ∉ specialNames)
    (writes : ∀ arg ∈ args, WritesUnion arg)
    : WritesOperand (.named name args) := by
  have scans := scans_path path
  rw [ofName_of_plain plain] at scans
  cases args with
  | nil => exact ⟨.name name .none, [], scans, reference_of_declared path declared []⟩
  | cons arg args =>
      obtain ⟨union, first, means⟩ := writes arg (List.mem_cons_self ..)
      obtain ⟨more, list, later⟩ :=
        exists_types fun other mem => writes other (List.mem_cons_of_mem _ mem)
      refine ⟨.name name (.angled false union more), [], ?_, ?_⟩
      · intro rest stop
        have text : (render (.named name (arg :: args))).toList ++ rest
            = name.toList ++ '<' :: (arg.render.toList
              ++ (separated ", " (renderAll args) ++ '>' :: rest)) := by
          rw [render, List.isEmpty_cons, if_neg (by decide), renderAll]
          simp only [String.toList_append, toList_intercalate_cons]
          simp
        have close : Stops ('>' :: rest) := stops_cons (by decide)
        rw [text, scans _ (stops_cons (by decide)), kindsOf_punctuation rfl,
          first _ (stops_arguments args close), later _ close, kindsOf_punctuation rfl]
        simp [Atom.tokens, TypeArguments.tokens, Mark.tokens]
      · rw [Atom.type, TypeArguments.types, means, list]
        exact reference_of_declared path declared (arg :: args)

-----------------------------------------------------------------------------------------
-- Unions
-----------------------------------------------------------------------------------------

theorem stops_alternatives (members : List TsType) (stop : Stops rest)
    : Stops (separated " | " (renderAlternatives members) ++ rest) := by
  cases members with
  | nil => exact stop
  | cons => exact stops_cons (by decide)

theorem exists_alternatives {members : List TsType}
    (values : ∀ member ∈ members, member.isFunction = false)
    (writes : ∀ member ∈ members, WritesOperand member)
    : ∃ more : Alternatives, more.types = members ∧ ∀ rest, Stops rest →
        kindsOf (separated " | " (renderAlternatives members) ++ rest)
          = more.tokens ++ kindsOf rest := by
  induction members with
  | nil => exact ⟨.none, rfl, fun _ _ => rfl⟩
  | cons member members ih =>
      obtain ⟨atom, marks, scans, means⟩ := writes member (List.mem_cons_self ..)
      have value := values member (List.mem_cons_self ..)
      obtain ⟨more, types, later⟩ := ih (fun other mem => values other (List.mem_cons_of_mem _ mem))
        fun other mem => writes other (List.mem_cons_of_mem _ mem)
      refine ⟨.bar (.atom atom marks) more, by rw [Alternatives.types, Operand.type, means, types],
        ?_⟩
      intro rest stop
      have text : separated " | " (renderAlternatives (member :: members)) ++ rest
          = ' ' :: '|' :: ' ' :: (member.render.toList
            ++ (separated " | " (renderAlternatives members) ++ rest)) := by
        simp [separated, renderAlternatives, value, parenthesized]
      rw [text, kindsOf_space, kindsOf_punctuation rfl, kindsOf_space,
        scans _ (stops_alternatives members stop), later rest stop]
      simp [Alternatives.tokens, Operand.tokens]

theorem writesUnion_union {members : List TsType} (normal : NormalMembers members)
    (values : ∀ member ∈ members, member.isFunction = false)
    (writes : ∀ member ∈ members, WritesOperand member)
    : WritesUnion (.union members) := by
  have whole := normal.unionOf
  cases members with
  | nil => cases normal.several
  | cons first members =>
      obtain ⟨atom, marks, scans, means⟩ := writes first (List.mem_cons_self ..)
      have value := values first (List.mem_cons_self ..)
      obtain ⟨more, types, later⟩ :=
        exists_alternatives (fun other mem => values other (List.mem_cons_of_mem _ mem))
          fun other mem => writes other (List.mem_cons_of_mem _ mem)
      refine ⟨.of false (.of (.atom atom marks) more), ?_, ?_⟩
      · intro rest stop
        have text : (render (.union (first :: members))).toList
            = first.render.toList ++ separated " | " (renderAlternatives members) := by
          rw [render, renderAlternatives, toList_intercalate_cons, value, parenthesized,
            if_neg (by decide)]
        rw [text, List.append_assoc, scans _ (stops_alternatives members stop), later rest stop]
        simp [Union.tokens, Chain.tokens, Operand.tokens]
      · rw [Union.type, Chain.type, Operand.type, means, types, whole]

-----------------------------------------------------------------------------------------
-- All printable types
-----------------------------------------------------------------------------------------

theorem isUnion_eq_false (single : ∀ members, type ≠ .union members) : type.isUnion = false := by
  cases type with
  | union members => exact absurd rfl (single members)
  | _ => rfl

theorem Printable.isFunction (printable : Printable type) : type.isFunction = false := by
  cases printable <;> rfl

/-- A printable type is written as a union, and as an operand unless it is one. -/
theorem Printable.writes (printable : Printable type)
    : WritesUnion type ∧ (type.isUnion = false → WritesOperand type) := by
  have both {type : TsType} (single : type.isUnion = false) (operand : WritesOperand type)
      : WritesUnion type ∧ (type.isUnion = false → WritesOperand type) :=
    ⟨operand.union single, fun _ => operand⟩
  induction printable with
  | primitive kind => exact both rfl (writesOperand_primitive kind)
  | boolean value => exact both rfl (writesOperand_boolean value)
  | string returns => exact both rfl (writesOperand_string returns)
  | number numeric => exact both rfl (writesOperand_number numeric)
  | array inner ih => exact both rfl (writesOperand_array ih.1 ih.2 inner.isFunction)
  | named path plain declared _ ih =>
      exact both rfl (writesOperand_named path plain declared fun arg mem => (ih arg mem).1)
  | union normal inner ih =>
      have values := fun member mem => (inner member mem).isFunction
      have writes := fun member mem => (ih member mem).2 (isUnion_eq_false (normal.flat member mem))
      exact ⟨writesUnion_union normal values writes, nofun⟩

/-- The text of a printable type parses back to the type. -/
theorem parseType_render {type : TsType} (printable : Printable type)
    : parseType type.render = .ok type := by
  obtain ⟨union, scans, means⟩ := printable.writes.1
  have tokens : (Marked.plain union false).tokens
      = (Token.read type.render).map Token.kind := by
    have whole := scans [] stops_nil
    rw [List.append_nil, kindsOf_nil] at whole
    exact whole.symm
  have parsed : parse type.render = .ok ⟨type, false, false⟩ := by
    rw [parse_ok_iff, ← tokens, ofTokens_tokens, Marked.hint, means]
  rw [parseType, parsed]
  rfl

/-- Witness: an array of a named type with an argument, a negative number or a string that holds a
quote. -/
theorem parseType_render_array
    : let type : TsType := .array (.union [.named "geo.Point" [.primitive .number],
        .numberLiteral "-1.5", .stringLiteral "a\"b"])
      type.render = "(geo.Point<number> | -1.5 | \"a\\\"b\")[]"
      ∧ parseType type.render = .ok type := by
  intro type
  have path : IsPath "geo.Point" := ⟨["geo", "Point"], by decide, by decide, by decide +kernel⟩
  have point : Printable (.named "geo.Point" [.primitive .number]) :=
    .named path (by decide +kernel) (by decide +kernel) (by simpa using .primitive .number)
  have printable : Printable type := by
    refine .array (.union ⟨by decide, by decide +kernel, by simp⟩ ?_)
    simpa using ⟨point, .number (by decide +kernel), .string (by decide +kernel)⟩
  exact ⟨by decide +kernel, parseType_render printable⟩

end Typings.Hint
