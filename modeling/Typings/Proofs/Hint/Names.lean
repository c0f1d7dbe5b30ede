import Typings.Proofs.Hint.Closure
import Typings.Proofs.Hint.Namepaths

/-! The names in the types of hints. Each is what a namepath in the text stands for, so it is an
entity name of TypeScript exactly if that namepath leads to a name.
-/

namespace Typings.Hint

open TsType Namepath

variable {allowed : String → Prop} {type : TsType}

/-- Every name at any depth inside a type is allowed. -/
def EachName (allowed : String → Prop) (type : TsType) : Prop :=
  ∀ name args, Inside (.named name args) type → allowed name

theorem eachName_of_parts (own : ∀ name args, type = .named name args → allowed name)
    (below : ∀ part ∈ type.parts, EachName allowed part)
    : EachName allowed type := by
  intro name args inside
  rcases inside_iff.1 inside with same | ⟨part, mem, inside⟩
  · exact own name args same.symm
  · exact below part mem name args inside

theorem eachName_of_unnamed (other : ∀ name args, type ≠ .named name args)
    (below : ∀ part ∈ type.parts, EachName allowed part)
    : EachName allowed type :=
  eachName_of_parts (fun name args same => absurd same (other name args)) below

theorem eachName_named {name : String} {args : List TsType} (own : allowed name)
    (each : ∀ arg ∈ args, EachName allowed arg)
    : EachName allowed (.named name args) := by
  refine eachName_of_parts ?_ each
  intro other others same
  rw [TsType.named.injEq] at same
  exact same.1 ▸ own

theorem eachName_unionOf {types : List TsType} (each : ∀ type ∈ types, EachName allowed type)
    : EachName allowed (unionOf types) := by
  intro name args inside
  obtain ⟨type, mem, inside⟩ := (inside_unionOf (by simp)).1 inside
  exact each type mem name args inside

/-- A namepath in the tokens of a hint. The keyword of functions is one too, where it is a type by
itself.
-/
def IsNamepath (source text : String) : Prop :=
  text = "Function" ∧ .function ∈ kinds source ∨ .name text ∈ kinds source

variable {source text : String}

theorem IsNamepath.written (among : IsNamepath source text) : Written text.toList := by
  rcases among with ⟨rfl, -⟩ | mem
  · exact .plain ⟨'F', rfl, by decide⟩ (inPath_of_names (List.all_eq_true.1 (by decide)))
  · exact written_of_mem mem

theorem closed_eachName
    : Closed (· ∈ kinds source)
        (EachName fun name => ∃ text, IsNamepath source text ∧ entityName text = name) where
  primitive _ := eachName_of_unnamed (by simp) (by simp [parts])
  string _ := eachName_of_unnamed (by simp) (by simp [parts])
  number _ := eachName_of_unnamed (by simp) (by simp [parts])
  boolean _ := eachName_of_unnamed (by simp) (by simp [parts])
  array holds := eachName_of_unnamed (by simp) (by simpa [parts] using holds)
  object each := eachName_of_unnamed (by simp) (forall_parts_object each)
  function ofParams ofResult ofReceiver :=
    eachName_of_unnamed (by simp) (forall_parts_function ofParams ofResult ofReceiver)
  union _ each := eachName_unionOf each
  functionName among := by
    refine eachName_named ⟨"Function", ?_, by decide +kernel⟩ (by simp)
    exact among.imp_left fun mem => ⟨rfl, mem⟩
  named mem each := eachName_named ⟨_, .inr mem, rfl⟩ each

/-- The name of a type at any depth of a hint is what a namepath in it stands for. It is made of
identifiers with points between them exactly if the namepath leads to a name: nothing is put in
front of a name that begins like a number, and a name that is missing stays so.
-/
theorem parsed_names_are_paths_iff {hint : Hint} {name : String} {args : List TsType}
    (accepted : parse source = .ok hint) (inside : Inside (.named name args) hint.type)
    : ∃ text, IsNamepath source text ∧ entityName text = name ∧ (IsPath name ↔ Leads text) := by
  have each := closed_eachName.of_parse accepted fun _ mem => mem
  obtain ⟨text, among, rfl⟩ := each name args inside
  exact ⟨text, among, rfl, isPath_entityName_iff among.written⟩

/-- Witness: a module whose name begins like a number. -/
theorem parsed_names_are_paths_iff_numeral
    : let source := "module:2fa~Token"
      parse source = .ok ⟨.reference "2fa.Token", false, false⟩ ∧ ¬ IsPath "2fa.Token" := by
  intro source
  have accepted : parse source = .ok ⟨.reference "2fa.Token", false, false⟩ := by
    decide +kernel
  have tokens : kinds source = [.name source, .finish] := by decide +kernel
  obtain ⟨text, among, names, iff⟩ := parsed_names_are_paths_iff accepted .self
  refine ⟨accepted, ?_⟩
  rw [iff]
  rcases among with ⟨rfl, -⟩ | mem
  · exact absurd names (by decide +kernel)
  · obtain rfl : text = source := by simpa [tokens] using mem
    intro leads
    have numeral : Text.isNameStart '2' = true := by
      simpa [source, Leads, isMemberMark, lastSegment] using leads
    exact absurd numeral (by decide)

end Typings.Hint
