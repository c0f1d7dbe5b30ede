import Typings.Proofs.Hint.NormalForm

/-! Hints that mean a declared type. They name it: nothing but parentheses, bars, exclamation marks
and further mentions of the same type stands around the name.
-/

namespace Typings.TsType

/-- A type is what a name declares. -/
def IsNamed (type : TsType) : Prop :=
  ∃ name args, type = .named name args

variable {type : TsType}

theorem IsNamed.ne_union (named : type.IsNamed) (members : List TsType)
    : type ≠ .union members := by
  obtain ⟨_, _, rfl⟩ := named
  exact nofun

theorem IsNamed.ne_array (named : type.IsNamed) (element : TsType) : type ≠ .array element := by
  obtain ⟨_, _, rfl⟩ := named
  exact nofun

theorem IsNamed.ne_null (named : type.IsNamed) : type ≠ .primitive .null := by
  obtain ⟨_, _, rfl⟩ := named
  exact nofun

end Typings.TsType

namespace Typings.Hint

open TsType Phrase

/-- A name with arguments means what it declares, if it is neither an array or object nor, without
arguments, a primitive type.
-/
def Declares (text : String) (args : List TsType) : Prop :=
  text ∉ ["Array", "array", "Object"] ∧ (args = [] → primitiveNames.lookup text = none)

variable {text : String} {args : List TsType} {type : TsType}

theorem reference_isNamed_of_undeclared (other : args = [] → primitiveNames.lookup text = none)
    : (reference text args).IsNamed ↔ text ∉ ["Array", "array", "Object"] := by
  unfold reference
  split
  next kind found => cases found.symm.trans (other rfl)
  next =>
    split
    · exact iff_of_false (by rintro ⟨_, _, ⟨⟩⟩) (by decide)
    · exact iff_of_false (by rintro ⟨_, _, ⟨⟩⟩) (by decide)
    · exact iff_of_false (by rintro ⟨_, _, ⟨⟩⟩) (by decide)
    · exact iff_of_false (by rintro ⟨_, _, ⟨⟩⟩) (by decide)
    · exact iff_of_true ⟨_, _, rfl⟩ (by decide)
    · exact iff_of_true ⟨_, _, rfl⟩ (by decide)
    next notUpper notLower notObject _ _ _ =>
      refine iff_of_true ⟨_, _, rfl⟩ ?_
      simpa using ⟨notUpper, notLower, notObject⟩

theorem reference_isNamed_iff : (reference text args).IsNamed ↔ Declares text args := by
  rw [Declares]
  by_cases other : args = [] → primitiveNames.lookup text = none
  · rw [reference_isNamed_of_undeclared other, and_iff_left other]
  · obtain ⟨rfl, known⟩ := Classical.not_imp.1 other
    obtain ⟨kind, found⟩ := Option.ne_none_iff_exists'.1 known
    have primitive : reference text [] = .primitive kind := by
      simp [reference, found]
    rw [primitive]
    exact iff_of_false (by rintro ⟨_, _, ⟨⟩⟩) fun declares => other declares.2

-- A phrase refers to a type if it is a mention of that type and of no other.
mutual
def Phrase.Marked.Refers (type : TsType) : Marked → Prop
  | .plain whole _ => whole.Refers type
  | .variadic chain _ => chain.Refers type
  | .anything _ => False

def Phrase.Union.Refers (type : TsType) : Phrase.Union → Prop
  | .of _ chain => chain.Refers type

def Phrase.Chain.Refers (type : TsType) : Chain → Prop
  | .of first more => first.Refers type ∧ more.Refer type

def Phrase.Alternatives.Refer (type : TsType) : Alternatives → Prop
  | .none => True
  | .bar operand more => operand.Refers type ∧ more.Refer type

def Phrase.Operand.Refers (type : TsType) : Operand → Prop
  | .unknown | .nullable _ | .function .. => False
  | .definite operand => operand.Refers type
  | .atom atom marks => atom.Refers type ∧ ∀ mark ∈ marks, mark = .bang

def Phrase.Atom.Refers (type : TsType) : Atom → Prop
  | .word _ | .record _ | .function _ => False
  | .group whole => whole.Refers type
  | .functionName => type = .reference "Function"
  | .name text arguments =>
    Declares text arguments.types ∧ type = reference text arguments.types
end

mutual
theorem Phrase.Marked.refers_iff (named : type.IsNamed) (phrase : Marked)
    : phrase.Refers type ↔ phrase.hint.type = type := by
  cases phrase with
  | plain whole => exact whole.refers_iff named
  | variadic chain => exact chain.refers_iff named
  | anything =>
      obtain ⟨_, _, rfl⟩ := named
      exact iff_of_false id nofun

theorem Phrase.Union.refers_iff (named : type.IsNamed) (phrase : Phrase.Union)
    : phrase.Refers type ↔ phrase.type = type := by
  obtain ⟨_, chain⟩ := phrase
  exact chain.refers_iff named

theorem Phrase.Chain.refers_iff (named : type.IsNamed) (phrase : Chain)
    : phrase.Refers type ↔ phrase.type = type := by
  obtain ⟨first, more⟩ := phrase
  have each : ∀ other ∈ first.type :: more.types, other.Normal :=
    List.forall_mem_cons.2 ⟨first.holds closed_normal fun _ _ => trivial,
      more.holds closed_normal fun _ _ => trivial⟩
  rw [Chain.Refers, Chain.type, unionOf_eq_iff named.ne_union (List.cons_ne_nil _ _) each,
    List.forall_mem_cons, first.refers_iff named, more.refer_iff named]

theorem Phrase.Alternatives.refer_iff (named : type.IsNamed) (phrase : Alternatives)
    : phrase.Refer type ↔ ∀ other ∈ phrase.types, other = type := by
  cases phrase with
  | none => exact iff_of_true trivial nofun
  | bar operand more =>
      rw [Alternatives.Refer, Alternatives.types, List.forall_mem_cons, operand.refers_iff named,
        more.refer_iff named]

theorem Phrase.Operand.refers_iff (named : type.IsNamed) (phrase : Operand)
    : phrase.Refers type ↔ phrase.type = type := by
  cases phrase with
  | unknown =>
      obtain ⟨_, _, rfl⟩ := named
      exact iff_of_false id nofun
  | nullable operand =>
      exact iff_of_false id
        (orNull_ne named.ne_union named.ne_null (operand.holds closed_normal fun _ _ => trivial))
  | definite operand => exact operand.refers_iff named
  | atom atom marks =>
      have normal : atom.type.Normal := atom.holds closed_normal fun _ _ => trivial
      rw [Operand.Refers, Operand.type, atom.refers_iff named,
        foldl_on_eq_iff named.ne_union named.ne_array named.ne_null marks normal]
  | function =>
      obtain ⟨_, _, rfl⟩ := named
      exact iff_of_false id nofun

theorem Phrase.Atom.refers_iff (named : type.IsNamed) (phrase : Atom)
    : phrase.Refers type ↔ phrase.type = type := by
  cases phrase with
  | word word =>
      obtain ⟨_, _, rfl⟩ := named
      exact iff_of_false id (by cases word <;> exact nofun)
  | group whole => exact whole.refers_iff named
  | record | function =>
      obtain ⟨_, _, rfl⟩ := named
      exact iff_of_false id nofun
  | functionName => exact eq_comm
  | name text arguments =>
      rw [Atom.Refers, Atom.type]
      constructor
      · rintro ⟨-, same⟩
        exact same.symm
      · rintro rfl
        exact ⟨reference_isNamed_iff.1 named, rfl⟩
end

mutual
theorem Phrase.Marked.isNamed_of_refers (phrase : Marked) (refers : phrase.Refers type)
    : type.IsNamed := by
  cases phrase with
  | plain whole => exact whole.isNamed_of_refers refers
  | variadic chain => exact chain.isNamed_of_refers refers
  | anything => exact refers.elim

theorem Phrase.Union.isNamed_of_refers (phrase : Phrase.Union) (refers : phrase.Refers type)
    : type.IsNamed := by
  obtain ⟨_, chain⟩ := phrase
  exact chain.isNamed_of_refers refers

theorem Phrase.Chain.isNamed_of_refers (phrase : Chain) (refers : phrase.Refers type)
    : type.IsNamed := by
  obtain ⟨first, _⟩ := phrase
  exact first.isNamed_of_refers refers.1

theorem Phrase.Operand.isNamed_of_refers (phrase : Operand) (refers : phrase.Refers type)
    : type.IsNamed := by
  cases phrase with
  | unknown | nullable | function => exact refers.elim
  | definite operand => exact operand.isNamed_of_refers refers
  | atom atom => exact atom.isNamed_of_refers refers.1

theorem Phrase.Atom.isNamed_of_refers (phrase : Atom) (refers : phrase.Refers type)
    : type.IsNamed := by
  cases phrase with
  | word | record | function => exact refers.elim
  | group whole => exact whole.isNamed_of_refers refers
  | functionName => exact ⟨_, _, refers⟩
  | name =>
      obtain ⟨declares, rfl⟩ := refers
      exact reference_isNamed_iff.2 declares
end

/-- A phrase means a declared type exactly if it refers to one. -/
theorem Phrase.Marked.isNamed_iff (phrase : Marked)
    : phrase.hint.type.IsNamed ↔ ∃ type, phrase.Refers type := by
  constructor
  · intro named
    exact ⟨_, (phrase.refers_iff named).2 rfl⟩
  · rintro ⟨type, refers⟩
    have named := phrase.isNamed_of_refers refers
    rwa [(phrase.refers_iff named).1 refers]

end Typings.Hint
