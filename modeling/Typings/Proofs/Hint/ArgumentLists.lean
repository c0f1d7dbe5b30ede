import Mathlib.Data.List.Infix
import Typings.Proofs.Hint.Acceptance
import Typings.Proofs.TsType.Functions
import Typings.Proofs.TsType.Params

/-! The function types in a hint take their parameters from the argument lists in its derivation,
with the marks that are written there. So TypeScript allows them exactly if these lists are in
order. Not every list counts: a name keeps some of its arguments only, and of several receivers or
constructed types the last is kept.
-/

namespace Typings.Hint

open TsType Phrase Param

variable {params : List (Param TsType)}

/-- The arguments of a name that are part of the type it refers to: an array has the first, a
dictionary the last and a function none.
-/
def keptArguments {α : Type} (name : String) (args : List α) : List α :=
  match name with
  | "Array" | "array" => args.take 1
  | "Object" => args.getLast?.toList
  | "Function" => []
  | _ => args

theorem keptArguments_map {α β : Type} (f : α → β) (name : String) (args : List α)
    : keptArguments name (args.map f) = (keptArguments name args).map f := by
  unfold keptArguments
  split
  · exact List.map_take.symm
  · exact List.map_take.symm
  · rw [List.getLast?_map]
    cases args.getLast? <;> rfl
  · rfl
  · rfl

theorem mem_of_keptArguments {α : Type} {name : String} {args : List α} {arg : α}
    (kept : arg ∈ keptArguments name args)
    : arg ∈ args := by
  unfold keptArguments at kept
  split at kept
  · exact List.mem_of_mem_take kept
  · exact List.mem_of_mem_take kept
  · exact List.mem_of_getLast? (Option.mem_toList.1 kept)
  · cases kept
  · exact kept

theorem keptArguments_nil {α : Type} (name : String) : keptArguments name ([] : List α) = [] := by
  unfold keptArguments
  split <;> rfl

theorem holdsParams_dictionary (args : List TsType)
    : (dictionary args).HoldsParams params ↔ ∃ arg ∈ args.getLast?, arg.HoldsParams params := by
  cases last : args.getLast? <;> simp [dictionary, Member.types, last]

theorem holdsParams_head (args : List TsType)
    : (args.head?.getD .any).HoldsParams params ↔ ∃ arg ∈ args.take 1, arg.HoldsParams params := by
  cases args <;> simp

theorem holdsParams_reference (name : String) (args : List TsType)
    : (reference name args).HoldsParams params
      ↔ ∃ arg ∈ keptArguments name args, arg.HoldsParams params := by
  unfold reference
  split
  · simp [keptArguments_nil]
  · split
    · simpa [keptArguments] using holdsParams_head _
    · simpa [keptArguments] using holdsParams_head _
    · simp [keptArguments]
    · simpa [keptArguments] using holdsParams_dictionary _
    · simp [keptArguments]
    · simp [keptArguments]
    · unfold keptArguments
      split
      all_goals simp_all

/-- Whatever stands in the arguments of a function type stands in the type, but for receivers and
constructed types that are not the last, and constructed types beside a result.
-/
theorem holdsParams_functionType (arguments : List Argument) (result : Option TsType)
    : (Argument.functionType arguments result).HoldsParams params
      ↔ Argument.params arguments = params
        ∨ (∃ hint ∈ arguments.filterMap Argument.param?, hint.type.HoldsParams params)
        ∨ (result.getD ((arguments.filterMap Argument.constructs?).getLast?.getD .any)).HoldsParams
            params
        ∨ ∃ type ∈ (arguments.filterMap Argument.receiver?).getLast?, type.HoldsParams params := by
  have ofParams
      : (∃ param ∈ Argument.params arguments, param.type.HoldsParams params)
        ↔ ∃ hint ∈ arguments.filterMap Argument.param?, hint.type.HoldsParams params := by
    have ofHint (hint : Hint) (index : Nat)
        : (Argument.toParam hint index).type.HoldsParams params
          ↔ hint.type.HoldsParams params := by
      cases variadic : hint.variadic <;> simp [Argument.toParam, variadic]
    simp only [Argument.params, List.mem_mapIdx]
    constructor
    · rintro ⟨_, ⟨index, bound, rfl⟩, holds⟩
      exact ⟨_, List.getElem_mem bound, (ofHint _ index).1 holds⟩
    · rintro ⟨hint, mem, holds⟩
      obtain ⟨index, bound, rfl⟩ := List.getElem_of_mem mem
      exact ⟨_, ⟨index, bound, rfl⟩, (ofHint _ index).2 holds⟩
  rw [Argument.functionType, holdsParams_function, ofParams]

-----------------------------------------------------------------------------------------
-- The argument lists of a phrase
-----------------------------------------------------------------------------------------

/-- The type of an argument, whatever it is an argument for. -/
def Argument.type : Argument → TsType
  | .receiver type | .constructs type => type
  | .param hint => hint.type

def Argument.paramType? (argument : Argument) : Option TsType :=
  argument.param?.map Hint.type

/-- Whatever an argument gives is its type. -/
theorem Argument.type_given (argument : Argument)
    : (∀ type ∈ argument.paramType?, argument.type = type)
      ∧ (∀ type ∈ argument.constructs?, argument.type = type)
      ∧ ∀ type ∈ argument.receiver?, argument.type = type := by
  cases argument <;> simp [Argument.paramType?, param?, constructs?, receiver?, Argument.type]

/-- The argument lists of several function types. -/
abbrev ArgumentLists :=
  List (List Argument)

/-- A type or an argument, with the argument lists in it. -/
abbrev Listed (α : Type) :=
  α × ArgumentLists

/-- The types that `pick` finds among arguments. -/
def picked (pick : Argument → Option TsType) (inner : List (Listed Argument))
    : List (Listed TsType) :=
  inner.filterMap fun listed => (pick listed.1).map fun type => (type, listed.2)

/-- The argument lists of a function type: its own, those of its parameters, those of its result or
else of the last type that it constructs, and those of its last receiver.
-/
def functionLists (inner : List (Listed Argument)) (result : Option ArgumentLists)
    : ArgumentLists :=
  inner.map Prod.fst
    :: ((picked Argument.paramType? inner).flatMap Prod.snd
      ++ (result.getD ((picked Argument.constructs? inner).getLast?.toList.flatMap Prod.snd)
      ++ (picked Argument.receiver? inner).getLast?.toList.flatMap Prod.snd))

-- The argument lists of the function types in what a phrase means.
mutual
def Phrase.Marked.argumentLists : Marked → ArgumentLists
  | .plain type _ => type.argumentLists
  | .variadic type _ => type.argumentLists
  | .anything _ => []

def Phrase.Union.argumentLists : Phrase.Union → ArgumentLists
  | .of _ chain => chain.argumentLists

def Phrase.Chain.argumentLists : Chain → ArgumentLists
  | .of first more => first.argumentLists ++ more.argumentLists

def Phrase.Alternatives.argumentLists : Alternatives → ArgumentLists
  | .none => []
  | .bar operand more => operand.argumentLists ++ more.argumentLists

def Phrase.Operand.argumentLists : Operand → ArgumentLists
  | .unknown => []
  | .nullable operand | .definite operand => operand.argumentLists
  | .atom atom _ => atom.argumentLists
  | .function arguments result => functionLists arguments.inner (some result.argumentLists)

def Phrase.Atom.argumentLists : Atom → ArgumentLists
  | .word _ | .functionName => []
  | .group type => type.argumentLists
  | .record fields => fields.argumentLists
  | .function arguments => functionLists arguments.inner none
  | .name text arguments => (keptArguments text arguments.inner).flatMap Prod.snd

def Phrase.TypeArguments.inner : TypeArguments → List (Listed TsType)
  | .none => []
  | .angled _ first more => (first.type, first.argumentLists) :: more.inner

def Phrase.Types.inner : Types → List (Listed TsType)
  | .none => []
  | .comma type more => (type.type, type.argumentLists) :: more.inner

def Phrase.Arguments.inner : Arguments → List (Listed Hint.Argument)
  | .none => []
  | .some first more => (first.argument, first.argumentLists) :: more.inner

def Phrase.MoreArguments.inner : MoreArguments → List (Listed Hint.Argument)
  | .none | .trailing => []
  | .comma argument more => (argument.argument, argument.argumentLists) :: more.inner

def Phrase.Argument.argumentLists : Phrase.Argument → ArgumentLists
  | .receiver type | .constructs type => type.argumentLists
  | .param type => type.argumentLists

def Phrase.Fields.argumentLists : Fields → ArgumentLists
  | .none => []
  | .some first more => first.argumentLists ++ more.argumentLists

def Phrase.MoreFields.argumentLists : MoreFields → ArgumentLists
  | .none | .trailing => []
  | .comma field more => field.argumentLists ++ more.argumentLists

def Phrase.Field.argumentLists : Field → ArgumentLists
  | .bare _ => []
  | .typed _ type => type.argumentLists
end

mutual
theorem Phrase.TypeArguments.map_inner (phrase : TypeArguments)
    : phrase.inner.map Prod.fst = phrase.types := by
  cases phrase with
  | none => rfl
  | angled _ first more => exact congrArg (first.type :: ·) more.map_inner

theorem Phrase.Types.map_inner (phrase : Types) : phrase.inner.map Prod.fst = phrase.list := by
  cases phrase with
  | none => rfl
  | comma type more => exact congrArg (type.type :: ·) more.map_inner
end

mutual
theorem Phrase.Arguments.map_inner (phrase : Arguments)
    : phrase.inner.map Prod.fst = phrase.list := by
  cases phrase with
  | none => rfl
  | some first more => exact congrArg (first.argument :: ·) more.map_inner

theorem Phrase.MoreArguments.map_inner (phrase : MoreArguments)
    : phrase.inner.map Prod.fst = phrase.list := by
  cases phrase with
  | none | trailing => rfl
  | comma argument more => exact congrArg (argument.argument :: ·) more.map_inner
end

-----------------------------------------------------------------------------------------
-- Each list is that of a function type
-----------------------------------------------------------------------------------------

/-- The function types inside some types take the parameters among the arguments in these lists, and
each list is that of such a function type.
-/
def Accounts (lists : ArgumentLists) (types : List TsType) : Prop :=
  ∀ params, (∃ type ∈ types, type.HoldsParams params)
    ↔ ∃ arguments ∈ lists, Argument.params arguments = params

section accounts

variable {lists others : ArgumentLists} {types more : List TsType} {type : TsType}

theorem Accounts.nil : Accounts [] [] := by
  simp [Accounts]

theorem Accounts.append (first : Accounts lists types) (second : Accounts others more)
    : Accounts (lists ++ others) (types ++ more) := by
  intro params
  simp only [List.mem_append, or_and_right, exists_or]
  exact or_congr (first params) (second params)

theorem Accounts.cons (first : Accounts lists [type]) (second : Accounts others types)
    : Accounts (lists ++ others) (type :: types) :=
  first.append second

theorem Accounts.flatMap {inner : List (Listed TsType)}
    (each : ∀ listed ∈ inner, Accounts listed.2 [listed.1])
    : Accounts (inner.flatMap Prod.snd) (inner.map Prod.fst) := by
  induction inner with
  | nil => exact .nil
  | cons listed inner ih =>
      obtain ⟨own, others⟩ := List.forall_mem_cons.1 each
      exact own.cons (ih others)

/-- A type that holds the same function types has the same lists. -/
theorem Accounts.of_iff (known : Accounts lists types)
    (same : ∀ params, type.HoldsParams params ↔ ∃ part ∈ types, part.HoldsParams params)
    : Accounts lists [type] := by
  intro params
  simpa [same] using known params

theorem accounts_nil (none : ∀ params, ¬ type.HoldsParams params) : Accounts [] [type] := by
  simp [Accounts, none]

theorem accounts_any : Accounts [] [.any] :=
  accounts_nil fun _ => holdsParams_any

theorem Accounts.marks (known : Accounts lists [type]) (marks : List Mark)
    : Accounts lists [marks.foldl Mark.on type] := by
  induction marks generalizing type with
  | nil => exact known
  | cons mark marks ih =>
      cases mark with
      | brackets => exact ih (known.of_iff (by simp [Mark.on]))
      | question => exact ih (known.of_iff (by simp [Mark.on]))
      | bang => exact ih known

variable {inner : List (Listed TsType)} {arguments : List (Listed Argument)}

theorem Accounts.last (each : ∀ listed ∈ inner, Accounts listed.2 [listed.1])
    : Accounts (inner.getLast?.toList.flatMap Prod.snd) (inner.map Prod.fst).getLast?.toList := by
  rw [List.getLast?_map]
  cases last : inner.getLast? with
  | none => exact .nil
  | some listed => simpa using each listed (List.mem_of_getLast? last)

theorem accounts_reference (name : String) (each : ∀ listed ∈ inner, Accounts listed.2 [listed.1])
    : Accounts ((keptArguments name inner).flatMap Prod.snd)
        [reference name (inner.map Prod.fst)] := by
  refine (Accounts.flatMap fun listed kept => each listed (mem_of_keptArguments kept)).of_iff ?_
  intro params
  rw [holdsParams_reference, keptArguments_map]

theorem map_picked (pick : Argument → Option TsType)
    : (picked pick arguments).map Prod.fst = (arguments.map Prod.fst).filterMap pick := by
  simp [picked, List.map_filterMap, List.filterMap_map, Function.comp_def]

theorem Accounts.picked {pick : Argument → Option TsType}
    (own : ∀ argument, ∀ type ∈ pick argument, argument.type = type)
    (each : ∀ listed ∈ arguments, Accounts listed.2 [listed.1.type])
    : ∀ listed ∈ picked pick arguments, Accounts listed.2 [listed.1] := by
  intro listed mem
  obtain ⟨argument, among, found⟩ := List.mem_filterMap.1 mem
  obtain ⟨type, known, rfl⟩ := Option.map_eq_some_iff.1 found
  exact own argument.1 type known ▸ each argument among

/-- The result of a function type: the one that is said, or else the last type that is constructed,
or else anything.
-/
theorem accounts_result {result : Option (Listed TsType)}
    (each : ∀ listed ∈ inner, Accounts listed.2 [listed.1])
    (ofResult : ∀ listed ∈ result, Accounts listed.2 [listed.1])
    : Accounts ((result.map Prod.snd).getD (inner.getLast?.toList.flatMap Prod.snd))
        [(result.map Prod.fst).getD ((inner.map Prod.fst).getLast?.getD .any)] := by
  cases result with
  | some listed => exact ofResult listed rfl
  | none =>
      refine (Accounts.last each).of_iff fun params => ?_
      cases (inner.map Prod.fst).getLast? <;> simp

theorem accounts_functionType (result : Option (Listed TsType))
    (each : ∀ listed ∈ arguments, Accounts listed.2 [listed.1.type])
    (ofResult : ∀ listed ∈ result, Accounts listed.2 [listed.1])
    : Accounts (functionLists arguments (result.map Prod.snd))
        [Argument.functionType (arguments.map Prod.fst) (result.map Prod.fst)] := by
  have ofParams := Accounts.flatMap (Accounts.picked (fun argument => argument.type_given.1) each)
  have constructed := Accounts.picked (fun argument => argument.type_given.2.1) each
  have receivers := Accounts.last (Accounts.picked (fun argument => argument.type_given.2.2) each)
  have below := ofParams.append ((accounts_result constructed ofResult).append receivers)
  have hints : (arguments.map Prod.fst).filterMap Argument.paramType?
      = ((arguments.map Prod.fst).filterMap Argument.param?).map Hint.type :=
    List.map_filterMap.symm
  rw [map_picked, map_picked, map_picked, hints] at below
  intro params
  simp only [List.mem_cons, or_and_right, exists_or, exists_eq_left, holdsParams_functionType,
    functionLists]
  rw [← below params]
  simp [or_and_right, exists_or]

end accounts

-----------------------------------------------------------------------------------------
-- Phrases
-----------------------------------------------------------------------------------------

mutual
theorem Phrase.Marked.accounts (phrase : Marked)
    : Accounts phrase.argumentLists [phrase.hint.type] := by
  cases phrase with
  | plain type | variadic type => exact type.accounts
  | anything => exact accounts_any

theorem Phrase.Union.accounts (phrase : Phrase.Union)
    : Accounts phrase.argumentLists [phrase.type] := by
  obtain ⟨_, chain⟩ := phrase
  exact chain.accounts

theorem Phrase.Chain.accounts (phrase : Chain)
    : Accounts phrase.argumentLists [phrase.type] := by
  obtain ⟨first, more⟩ := phrase
  exact (first.accounts.cons more.accounts).of_iff fun _ => holdsParams_unionOf

theorem Phrase.Alternatives.accounts (phrase : Alternatives)
    : Accounts phrase.argumentLists phrase.types := by
  cases phrase with
  | none => exact .nil
  | bar operand more => exact operand.accounts.cons more.accounts

theorem Phrase.Operand.accounts (phrase : Operand)
    : Accounts phrase.argumentLists [phrase.type] := by
  cases phrase with
  | unknown => exact accounts_any
  | nullable operand => exact operand.accounts.of_iff (by simp [Operand.type])
  | definite operand => exact operand.accounts
  | atom atom marks => exact atom.accounts.marks marks
  | function arguments result =>
      have whole := accounts_functionType (some (result.type, result.argumentLists))
        arguments.accounts (by simpa using result.accounts)
      rwa [arguments.map_inner] at whole

theorem Phrase.Atom.accounts (phrase : Atom) : Accounts phrase.argumentLists [phrase.type] := by
  cases phrase with
  | word word => exact accounts_nil fun _ => by cases word <;> exact not_holdsParams nofun rfl
  | group type => exact type.accounts
  | record fields => exact fields.accounts.of_iff fun _ => holdsParams_object
  | functionName => exact accounts_nil fun _ => TsType.holdsParams_reference _
  | function arguments =>
      have whole := accounts_functionType none arguments.accounts nofun
      rwa [arguments.map_inner] at whole
  | name text arguments =>
      have whole := accounts_reference text arguments.accounts
      rwa [arguments.map_inner] at whole

theorem Phrase.TypeArguments.accounts (phrase : TypeArguments)
    : ∀ listed ∈ phrase.inner, Accounts listed.2 [listed.1] := by
  cases phrase with
  | none => nofun
  | angled _ first more => exact List.forall_mem_cons.2 ⟨first.accounts, more.accounts⟩

theorem Phrase.Types.accounts (phrase : Types)
    : ∀ listed ∈ phrase.inner, Accounts listed.2 [listed.1] := by
  cases phrase with
  | none => nofun
  | comma type more => exact List.forall_mem_cons.2 ⟨type.accounts, more.accounts⟩

theorem Phrase.Arguments.accounts (phrase : Arguments)
    : ∀ listed ∈ phrase.inner, Accounts listed.2 [listed.1.type] := by
  cases phrase with
  | none => nofun
  | some first more => exact List.forall_mem_cons.2 ⟨first.accounts, more.accounts⟩

theorem Phrase.MoreArguments.accounts (phrase : MoreArguments)
    : ∀ listed ∈ phrase.inner, Accounts listed.2 [listed.1.type] := by
  cases phrase with
  | none | trailing => nofun
  | comma argument more => exact List.forall_mem_cons.2 ⟨argument.accounts, more.accounts⟩

theorem Phrase.Argument.accounts (phrase : Phrase.Argument)
    : Accounts phrase.argumentLists [phrase.argument.type] := by
  cases phrase with
  | receiver type | constructs type | param type => exact type.accounts

theorem Phrase.Fields.accounts (phrase : Fields)
    : Accounts phrase.argumentLists (phrase.members.flatMap Member.types) := by
  cases phrase with
  | none => exact .nil
  | some first more => exact first.accounts.append more.accounts

theorem Phrase.MoreFields.accounts (phrase : MoreFields)
    : Accounts phrase.argumentLists (phrase.members.flatMap Member.types) := by
  cases phrase with
  | none | trailing => exact .nil
  | comma field more => exact field.accounts.append more.accounts

theorem Phrase.Field.accounts (phrase : Field)
    : Accounts phrase.argumentLists phrase.member.types := by
  cases phrase with
  | bare => exact accounts_any
  | typed _ type => exact type.accounts
end

-----------------------------------------------------------------------------------------
-- Argument lists in order
-----------------------------------------------------------------------------------------

/-- The parameters among the arguments of a function are marked in an order that TypeScript allows:
only the last is variable, and what follows an optional one is optional or variable.
-/
structure Argument.InOrder (arguments : List Argument) : Prop where
  variadic : ∀ hint ∈ (arguments.filterMap Argument.param?).dropLast, hint.variadic = false
  optional
    : (arguments.filterMap Argument.param?).Pairwise fun earlier later =>
        earlier.optional = true → later.optional = true ∨ later.variadic = true

section toParam

variable (hint : Hint) (index : Nat)

theorem rest_toParam : (Argument.toParam hint index).rest = hint.variadic := by
  cases variadic : hint.variadic <;> simp [Argument.toParam, variadic]

theorem optional_toParam
    : (Argument.toParam hint index).optional = (hint.optional && !hint.variadic) := by
  cases variadic : hint.variadic <;> simp [Argument.toParam, variadic]

theorem isRequired_toParam
    : (Argument.toParam hint index).isRequired = !(hint.optional || hint.variadic) := by
  rw [isRequired, rest_toParam, optional_toParam]
  cases hint.optional <;> cases hint.variadic <;> rfl

end toParam

theorem map_rest_params (arguments : List Argument)
    : (Argument.params arguments).map Param.rest
      = (arguments.filterMap Argument.param?).map Hint.variadic := by
  refine List.ext_getElem? fun place => ?_
  simp [Argument.params, rest_toParam, Function.comp_def]

/-- An argument list makes parameters that TypeScript allows exactly if it is in order. -/
theorem Argument.allowed_params_iff (arguments : List Argument)
    : Allowed (Argument.params arguments) ↔ Argument.InOrder arguments := by
  generalize marked : arguments.filterMap Argument.param? = hints
  have rest : RestIsLast (Argument.params arguments)
      ↔ ∀ hint ∈ hints.dropLast, hint.variadic = false := by
    rw [restIsLast_iff_marks, map_rest_params, marked, ← List.map_dropLast, List.forall_mem_map]
  have optional (last : ∀ hint ∈ hints.dropLast, hint.variadic = false)
      : OptionalsTrail (Argument.params arguments)
        ↔ hints.Pairwise fun earlier later =>
            earlier.optional = true → later.optional = true ∨ later.variadic = true := by
    have pair (i j : Nat) (first : i < hints.length) (second : j < hints.length) (before : i < j)
        : ((Argument.toParam hints[i] i).optional = true
            → (Argument.toParam hints[j] j).isRequired = false)
          ↔ (hints[i].optional = true → hints[j].optional = true ∨ hints[j].variadic = true) := by
      have bound : i < hints.dropLast.length := by
        rw [List.length_dropLast]
        omega
      have plain : hints[i].variadic = false := by
        rw [← List.getElem_dropLast bound]
        exact last _ (List.getElem_mem bound)
      cases later : hints[j].optional <;>
        simp [optional_toParam, isRequired_toParam, plain, later]
    simp only [OptionalsTrail, Argument.params, marked, List.pairwise_iff_getElem,
      List.length_mapIdx, List.getElem_mapIdx]
    exact ⟨fun trail i j first second before => (pair i j first second before).1
        (trail i j first second before),
      fun order i j first second before => (pair i j first second before).2
        (order i j first second before)⟩
  constructor
  · rintro ⟨restLast, trail⟩
    have last := rest.1 restLast
    exact ⟨marked ▸ last, marked ▸ (optional last).1 trail⟩
  · rintro ⟨last, order⟩
    rw [marked] at last order
    exact ⟨rest.2 last, (optional last).2 order⟩

/-- The function types at any depth of a hint that is read take the parameters of the argument lists
in its derivation that its type keeps. They are all as TypeScript allows them exactly if each of
these lists is in order.
-/
theorem parsed_functions_allowed_iff {source : String} {hint : Hint}
    (accepted : parse source = .ok hint)
    : ∃ phrase : Marked,
        phrase.Derives source
        ∧ phrase.hint = hint
        ∧ (∀ params, hint.type.HoldsParams params
            ↔ ∃ arguments ∈ phrase.argumentLists, Argument.params arguments = params)
        ∧ ((∀ params, hint.type.HoldsParams params → Allowed params)
            ↔ ∀ arguments ∈ phrase.argumentLists, Argument.InOrder arguments) := by
  obtain ⟨phrase, derives, rfl⟩ := parse_ok_iff_meaning.1 accepted
  have known : ∀ params, phrase.hint.type.HoldsParams params
      ↔ ∃ arguments ∈ phrase.argumentLists, Argument.params arguments = params := by
    simpa [Accounts] using phrase.accounts
  refine ⟨phrase, derives, rfl, known, ?_⟩
  simp only [known, ← Argument.allowed_params_iff]
  constructor
  · intro allowed arguments listed
    exact allowed _ ⟨arguments, listed, rfl⟩
  · rintro allowed _ ⟨arguments, listed, rfl⟩
    exact allowed arguments listed

/-- Witness: an optional argument before one that is not. -/
theorem parsed_functions_allowed_iff_optional
    : let source := "function(number=, string)"
      let params : List (Param TsType) :=
        [⟨"arg0", .primitive .number, true, false⟩, ⟨"arg1", .primitive .string, false, false⟩]
      let hint : Hint := ⟨.function params .any none, false, false⟩
      parse source = .ok hint
      ∧ ∃ phrase : Marked,
          phrase.Derives source
          ∧ phrase.hint = hint
          ∧ ¬ ∀ arguments ∈ phrase.argumentLists, Argument.InOrder arguments := by
  intro source params hint
  have accepted : parse source = .ok hint := by decide +kernel
  obtain ⟨phrase, derives, means, -, allowed⟩ := parsed_functions_allowed_iff accepted
  refine ⟨accepted, phrase, derives, means, fun order => ?_⟩
  have trail := (allowed.2 order params ⟨_, _, .self⟩).optional
  exact absurd trail (by decide)

end Typings.Hint
