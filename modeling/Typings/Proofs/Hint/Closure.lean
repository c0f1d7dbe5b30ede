import Typings.Proofs.Hint.Acceptance
import Typings.Proofs.TsType.NormalForm

/-! What a property of types has to be kept by, to hold of whatever a hint means: the ways in which
phrases make types of the types of their parts.
-/

namespace Typings.Hint

open Phrase TsType

/-- A property is kept by all that phrases make of types, as long as all their tokens are among some
that are allowed.
-/
structure Closed (allowed : Token.Kind → Prop) (P : TsType → Prop) : Prop where
  primitive : ∀ kind, P (.primitive kind)
  string : ∀ value, P (.stringLiteral value)
  number : ∀ text, P (.numberLiteral text)
  boolean : ∀ value, P (.booleanLiteral value)
  array : ∀ {element}, P element → P (.array element)
  object : ∀ {members}, (∀ member ∈ members, ∀ type ∈ member.types, P type) → P (.object members)
  function
    : ∀ {params result receiver},
      (∀ param ∈ params, P param.type)
      → P result
      → (∀ type ∈ receiver, P type)
      → P (.function params result receiver)
  union : ∀ {types}, types ≠ [] → (∀ type ∈ types, P type) → P (unionOf types)
  functionName : allowed .function ∨ allowed (.name "Function") → P (.reference "Function")
  named
    : ∀ {name args},
      allowed (.name name)
      → (∀ arg ∈ args, P arg)
      → P (.named (Namepath.entityName name) args)

/-- A property holds of the types of an argument. -/
def Argument.Each (P : TsType → Prop) : Argument → Prop
  | .receiver type | .constructs type => P type
  | .param hint => P hint.type

section closed

variable {allowed : Token.Kind → Prop} {P : TsType → Prop}

/-- What holds of the types of an argument holds of whatever the argument gives. -/
theorem Argument.Each.given {argument : Argument} (holds : argument.Each P)
    : (∀ type ∈ argument.receiver?, P type)
      ∧ (∀ type ∈ argument.constructs?, P type)
      ∧ ∀ hint ∈ argument.param?, P hint.type := by
  cases argument with
  | receiver | constructs | param =>
      simpa [Argument.receiver?, Argument.constructs?, Argument.param?, Argument.Each] using holds

namespace Closed

variable (closed : Closed allowed P)
include closed

theorem any : P .any :=
  closed.primitive .any

theorem orNull {type : TsType} (holds : P type) : P type.orNull :=
  closed.union (List.cons_ne_nil _ _) (by simpa using ⟨holds, closed.primitive .null⟩)

theorem getLast {types : List TsType} (each : ∀ type ∈ types, P type)
    : P (types.getLast?.getD .any) := by
  cases last : types.getLast? with
  | none => exact closed.any
  | some type => exact each type (List.mem_of_getLast? last)

theorem dictionary {args : List TsType} (each : ∀ arg ∈ args, P arg) : P (dictionary args) := by
  apply closed.object
  simpa [Member.types] using ⟨closed.primitive _, closed.getLast each⟩

theorem reference {name : String} (known : allowed (.name name)) {args : List TsType}
    (each : ∀ arg ∈ args, P arg)
    : P (reference name args) := by
  have element : P (args.head?.getD .any) := by
    cases args with
    | nil => exact closed.any
    | cons arg => exact each arg (List.mem_cons_self ..)
  unfold Hint.reference
  split
  · exact closed.primitive _
  · split
    · exact closed.array element
    · exact closed.array element
    · exact closed.any
    · exact closed.dictionary each
    · exact closed.functionName (.inr known)
    · have plain : Namepath.entityName "Promise" = "Promise" := by decide +kernel
      have promise : P (.named (Namepath.entityName "Promise") [.any]) :=
        closed.named known (by simpa using closed.any)
      rwa [plain] at promise
    · exact closed.named known each

theorem marks (marks : List Mark) {type : TsType} (holds : P type)
    : P (marks.foldl Mark.on type) := by
  induction marks generalizing type with
  | nil => exact holds
  | cons mark marks ih =>
      cases mark with
      | brackets => exact ih (closed.array holds)
      | question => exact ih (closed.orNull holds)
      | bang => exact ih holds

theorem toParam {hint : Hint} (index : Nat) (holds : P hint.type)
    : P (Argument.toParam hint index).type := by
  unfold Argument.toParam
  dsimp only
  split
  · exact closed.array holds
  · exact holds

theorem functionType {arguments : List Argument} {result : Option TsType}
    (each : ∀ argument ∈ arguments, argument.Each P) (ofResult : ∀ type ∈ result, P type)
    : P (Argument.functionType arguments result) := by
  have constructed : ∀ type ∈ arguments.filterMap Argument.constructs?, P type := by
    intro type mem
    obtain ⟨argument, listed, given⟩ := List.mem_filterMap.1 mem
    exact (each argument listed).given.2.1 type given
  have ofHints : ∀ hint ∈ arguments.filterMap Argument.param?, P hint.type := by
    intro hint mem
    obtain ⟨argument, listed, given⟩ := List.mem_filterMap.1 mem
    exact (each argument listed).given.2.2 hint given
  refine closed.function ?_ ?_ ?_
  · intro param mem
    obtain ⟨index, bound, rfl⟩ := List.mem_mapIdx.1 mem
    exact closed.toParam index (ofHints _ (List.getElem_mem bound))
  · cases result with
    | none => exact closed.getLast constructed
    | some type => exact ofResult type rfl
  · intro type last
    obtain ⟨argument, listed, given⟩ := List.mem_filterMap.1 (List.mem_of_getLast? last)
    exact (each argument listed).given.1 type given

theorem word (word : Word) : P word.type := by
  cases word with
  | star => exact closed.any
  | null | undefined => exact closed.primitive _
  | true | false => exact closed.boolean _
  | string value => exact closed.string value
  | number text => exact closed.number text

end Closed

end closed

-----------------------------------------------------------------------------------------
-- Phrases
-----------------------------------------------------------------------------------------

variable {allowed : Token.Kind → Prop} {P : TsType → Prop}

mutual
theorem Phrase.Marked.holds (closed : Closed allowed P) (phrase : Marked)
    (known : ∀ token ∈ phrase.tokens, allowed token)
    : P phrase.hint.type := by
  cases phrase with
  | plain type => exact type.holds closed (List.forall_mem_append.1 known).1
  | variadic type =>
      exact type.holds closed (List.forall_mem_append.1 (List.forall_mem_cons.1 known).2).1
  | anything => exact closed.any

theorem Phrase.Union.holds (closed : Closed allowed P) (phrase : Phrase.Union)
    (known : ∀ token ∈ phrase.tokens, allowed token)
    : P phrase.type := by
  obtain ⟨_, chain⟩ := phrase
  exact chain.holds closed (List.forall_mem_append.1 known).2

theorem Phrase.Chain.holds (closed : Closed allowed P) (phrase : Chain)
    (known : ∀ token ∈ phrase.tokens, allowed token)
    : P phrase.type := by
  obtain ⟨first, more⟩ := phrase
  obtain ⟨here, there⟩ := List.forall_mem_append.1 known
  exact closed.union (List.cons_ne_nil _ _)
    (List.forall_mem_cons.2 ⟨first.holds closed here, more.holds closed there⟩)

theorem Phrase.Alternatives.holds (closed : Closed allowed P) (phrase : Alternatives)
    (known : ∀ token ∈ phrase.tokens, allowed token)
    : ∀ type ∈ phrase.types, P type := by
  cases phrase with
  | none => nofun
  | bar operand more =>
      obtain ⟨here, there⟩ := List.forall_mem_append.1 (List.forall_mem_cons.1 known).2
      exact List.forall_mem_cons.2 ⟨operand.holds closed here, more.holds closed there⟩

theorem Phrase.Operand.holds (closed : Closed allowed P) (phrase : Operand)
    (known : ∀ token ∈ phrase.tokens, allowed token)
    : P phrase.type := by
  cases phrase with
  | unknown => exact closed.any
  | nullable operand =>
      exact closed.orNull (operand.holds closed (List.forall_mem_cons.1 known).2)
  | definite operand => exact operand.holds closed (List.forall_mem_cons.1 known).2
  | atom atom marks =>
      exact closed.marks marks (atom.holds closed (List.forall_mem_append.1 known).1)
  | function arguments result =>
      simp only [Operand.tokens, List.forall_mem_cons, List.forall_mem_append] at known
      obtain ⟨-, -, here, -, -, there⟩ := known
      exact closed.functionType (arguments.holds closed here)
        (by simpa using result.holds closed there)

theorem Phrase.Atom.holds (closed : Closed allowed P) (phrase : Atom)
    (known : ∀ token ∈ phrase.tokens, allowed token)
    : P phrase.type := by
  cases phrase with
  | word word => exact closed.word word
  | group type =>
      obtain ⟨here, -⟩ := List.forall_mem_append.1 (List.forall_mem_cons.1 known).2
      exact type.holds closed here
  | record fields =>
      obtain ⟨here, -⟩ := List.forall_mem_append.1 (List.forall_mem_cons.1 known).2
      exact closed.object (fields.holds closed here)
  | functionName => exact closed.functionName (.inl (known _ (List.mem_cons_self ..)))
  | function arguments =>
      simp only [Atom.tokens, List.forall_mem_cons, List.forall_mem_append] at known
      exact closed.functionType (arguments.holds closed known.2.2.1) nofun
  | name text arguments =>
      obtain ⟨own, there⟩ := List.forall_mem_cons.1 known
      exact closed.reference own (arguments.holds closed there)

theorem Phrase.TypeArguments.holds (closed : Closed allowed P) (phrase : TypeArguments)
    (known : ∀ token ∈ phrase.tokens, allowed token)
    : ∀ type ∈ phrase.types, P type := by
  cases phrase with
  | none => nofun
  | angled _ first more =>
      simp only [TypeArguments.tokens, List.forall_mem_cons, List.forall_mem_append] at known
      obtain ⟨-, -, ⟨here, there⟩, -⟩ := known
      exact List.forall_mem_cons.2 ⟨first.holds closed here, more.holds closed there⟩

theorem Phrase.Types.holds (closed : Closed allowed P) (phrase : Types)
    (known : ∀ token ∈ phrase.tokens, allowed token)
    : ∀ type ∈ phrase.list, P type := by
  cases phrase with
  | none => nofun
  | comma type more =>
      obtain ⟨here, there⟩ := List.forall_mem_append.1 (List.forall_mem_cons.1 known).2
      exact List.forall_mem_cons.2 ⟨type.holds closed here, more.holds closed there⟩

theorem Phrase.Arguments.holds (closed : Closed allowed P) (phrase : Arguments)
    (known : ∀ token ∈ phrase.tokens, allowed token)
    : ∀ argument ∈ phrase.list, argument.Each P := by
  cases phrase with
  | none => nofun
  | some first more =>
      obtain ⟨here, there⟩ := List.forall_mem_append.1 known
      exact List.forall_mem_cons.2 ⟨first.holds closed here, more.holds closed there⟩

theorem Phrase.MoreArguments.holds (closed : Closed allowed P) (phrase : MoreArguments)
    (known : ∀ token ∈ phrase.tokens, allowed token)
    : ∀ argument ∈ phrase.list, argument.Each P := by
  cases phrase with
  | none | trailing => nofun
  | comma argument more =>
      obtain ⟨here, there⟩ := List.forall_mem_append.1 (List.forall_mem_cons.1 known).2
      exact List.forall_mem_cons.2 ⟨argument.holds closed here, more.holds closed there⟩

theorem Phrase.Argument.holds (closed : Closed allowed P) (phrase : Phrase.Argument)
    (known : ∀ token ∈ phrase.tokens, allowed token)
    : phrase.argument.Each P := by
  cases phrase with
  | receiver type | constructs type =>
      exact type.holds closed (List.forall_mem_cons.1 (List.forall_mem_cons.1 known).2).2
  | param type => exact type.holds closed known

theorem Phrase.Fields.holds (closed : Closed allowed P) (phrase : Fields)
    (known : ∀ token ∈ phrase.tokens, allowed token)
    : ∀ member ∈ phrase.members, ∀ type ∈ member.types, P type := by
  cases phrase with
  | none => nofun
  | some first more =>
      obtain ⟨here, there⟩ := List.forall_mem_append.1 known
      exact List.forall_mem_cons.2 ⟨first.holds closed here, more.holds closed there⟩

theorem Phrase.MoreFields.holds (closed : Closed allowed P) (phrase : MoreFields)
    (known : ∀ token ∈ phrase.tokens, allowed token)
    : ∀ member ∈ phrase.members, ∀ type ∈ member.types, P type := by
  cases phrase with
  | none | trailing => nofun
  | comma field more =>
      obtain ⟨here, there⟩ := List.forall_mem_append.1 (List.forall_mem_cons.1 known).2
      exact List.forall_mem_cons.2 ⟨field.holds closed here, more.holds closed there⟩

theorem Phrase.Field.holds (closed : Closed allowed P) (phrase : Field)
    (known : ∀ token ∈ phrase.tokens, allowed token)
    : ∀ type ∈ phrase.member.types, P type := by
  cases phrase with
  | bare => simpa [Field.member, Member.types] using closed.any
  | typed _ type =>
      have holds := type.holds closed (List.forall_mem_cons.1 (List.forall_mem_cons.1 known).2).2
      simpa [Field.member, Member.types] using holds
end

/-- What is kept by all that phrases make of types holds of the type of every hint that is read. -/
theorem Closed.of_parse (closed : Closed allowed P) {source : String} {hint : Hint}
    (accepted : parse source = .ok hint) (known : ∀ token ∈ kinds source, allowed token)
    : P hint.type := by
  obtain ⟨phrase, derives, rfl⟩ := parse_ok_iff_meaning.1 accepted
  rw [derives.1] at known
  exact phrase.holds closed (List.forall_mem_append.1 known).1

end Typings.Hint
