import Typings.Proofs.Declarations.Merging
import Typings.Proofs.Hint.Referring

/-! The bases of classes and interfaces, and which names of bases stand for declared types. -/

namespace Typings

open Hint Phrase Noted

variable {base : TsType} {name owner : String} {names : List String}

/-- The bases of a declaration, all that stands behind `extends` and `implements`. -/
def Decl.bases : Decl → List TsType
  | .class _ _ base interfaces _ => base.toList ++ interfaces
  | .interface _ _ bases _ => bases
  | _ => []

def Piece.bases : Piece → List TsType
  | .statement decl => decl.bases
  | _ => []

namespace Doclet

/-- A name is fit for a base: it is no hint at all, or a hint that refers to a declared type. -/
def NamesBase (name : String) : Prop :=
  ∀ phrase : Marked, phrase.Derives name → ∃ type, phrase.Refers type

theorem baseOfName_isNamed_iff (name : String)
    : (baseOfName name).value.IsNamed ↔ NamesBase name := by
  unfold baseOfName
  cases read : parseType name with
  | ok type =>
      obtain ⟨hint, parsed, rfl⟩ := parseType_ok_iff.1 read
      obtain ⟨phrase, derives, rfl⟩ := parse_ok_iff_meaning.1 parsed
      change phrase.hint.type.IsNamed ↔ NamesBase name
      rw [phrase.isNamed_iff]
      constructor
      · intro refers other otherDerives
        rwa [Marked.derivation_unique otherDerives derives]
      · exact fun fit => fit phrase derives
  | error error =>
      refine iff_of_true ⟨_, _, rfl⟩ fun phrase derives => ?_
      have accepted := parse_ok_iff_meaning.2 ⟨phrase, derives, rfl⟩
      cases read.symm.trans (parseType_ok_iff.2 ⟨_, accepted, rfl⟩)

/-- A single name is fit for a base exactly if it declares a type. -/
theorem namesBase_iff_of_single {text : String} (single : kinds name = [.name text, .finish])
    : NamesBase name ↔ Declares text [] := by
  have derives : Marked.Derives (.plain (.of false (.of (.atom (.name text .none) []) .none)) false)
      name :=
    ⟨single, Marked.apt _ rfl⟩
  constructor
  · intro fit
    obtain ⟨type, ⟨⟨declares, -⟩, -⟩, -⟩ := fit _ derives
    exact declares
  · intro declares phrase other
    rw [Marked.derivation_unique other derives]
    exact ⟨reference text [], ⟨⟨declares, rfl⟩, nofun⟩, trivial⟩

example : NamesBase "module:base~Widget" := by
  have single : kinds "module:base~Widget" = [.name "module:base~Widget", .finish] := by
    decide +kernel
  exact (namesBase_iff_of_single single).2 ⟨by decide, fun _ => by decide⟩

theorem mem_bases_iff
    : base ∈ (names.mapM baseOfName).value ↔ ∃ name ∈ names, (baseOfName name).value = base := by
  rw [mapM_value, List.mem_map]

variable {doclet : Doclet} {nested : Bool} {body : Body} {pieces : List Piece} {piece : Piece}

theorem bases_valuePiece (doclet : Doclet) (body : Body)
    : (doclet.valuePiece body).value.bases = [] := by
  cases body with
  | «class» | interface => rfl
  | statements =>
      change doclet.variableDecl.value.bases = []
      unfold variableDecl
      split <;> rfl

/-- The bases of what a doclet is declared as are those that it names. -/
theorem bases_of_piece (made : (doclet.piece nested body pieces).value = some piece)
    (mem : base ∈ piece.bases)
    : ∃ name ∈ doclet.augments, (baseOfName name).value = base := by
  cases kind : doclet.kind
  all_goals
    simp only [Doclet.piece, kind] at made
  case «class» =>
    cases made
    have first : base ∈ ((doclet.augments.take 1).mapM baseOfName).value.head?.toList ++ [] := mem
    rw [List.append_nil, Option.mem_toList] at first
    obtain ⟨name, listed, same⟩ := mem_bases_iff.1 (List.mem_of_mem_head? first)
    exact ⟨name, List.mem_of_mem_take listed, same⟩
  case interface | mixin =>
    cases made
    exact mem_bases_iff.1 mem
  case «module» =>
    cases made
    cases nested <;> cases mem
  case «namespace» | typedef =>
    cases made
    cases mem
  case member | constant =>
    split at made
    · cases made
      cases mem
    · cases made
      rw [bases_valuePiece] at mem
      cases mem
  case function | callback =>
    cases made
    cases body <;> cases mem
  case package | event | file => cases made

end Doclet

namespace Forest

variable {doclets : List Doclet} {forest : Forest} {node : Node}

/-- The bases that the doclet of a node names are named by a doclet, as bases or as what it
implements or mixes in.
-/
theorem Sourced.augments (sourced : Sourced doclets forest) (found : forest.find? owner = some node)
    (mem : name ∈ node.doclet.augments)
    : ∃ doclet ∈ doclets, name ∈ doclet.augments ++ doclet.implements ++ doclet.mixes := by
  rcases sourced.origin found with ⟨doclet, listed, same⟩ | ⟨doclet, listed, helper, added, same⟩
  · obtain ⟨_, isDoclet⟩ := same.2
    rw [isDoclet] at mem
    exact ⟨doclet, listed, List.mem_append_left _ (List.mem_append_left _ mem)⟩
  · obtain ⟨_, isDoclet⟩ := same.2
    rw [isDoclet] at mem
    refine ⟨doclet, listed, ?_⟩
    rw [List.append_assoc]
    cases added with
    | interface => exact List.mem_append_right _ mem
    | «namespace» => cases mem

/-- The bases of all declarations are those that doclets name, and a name gives a declared type
exactly if it is fit for a base.
-/
theorem bases_named_iff (settings : Settings) (doclets : List Doclet)
    : (∀ names : List String, (∀ base ∈ (names.mapM Doclet.baseOfName).value, base.IsNamed)
        ↔ ∀ name ∈ names, Doclet.NamesBase name)
      ∧ ∀ part ∈ (declarations settings doclets).value.flatMap Decl.parts,
          ∀ base ∈ part.bases,
            ∃ doclet ∈ survivors settings doclets,
              ∃ name ∈ doclet.augments ++ doclet.implements ++ doclet.mixes,
                (Doclet.baseOfName name).value = base
                ∧ (base.IsNamed ↔ Doclet.NamesBase name) := by
  constructor
  · intro names
    rw [mapM_value, List.forall_mem_map]
    exact forall₂_congr fun name _ => Doclet.baseOfName_isNamed_iff name
  · intro part listed base mem
    obtain ⟨origin, listed⟩ := exists_mem_origins listed
    have sound : (ofDoclets settings doclets).Sound := ofDoclets_sound settings doclets
    have sourced : Sourced (survivors settings doclets) (ofDoclets settings doclets) :=
      sourced_ofDoclets settings doclets
    cases origin with
    | detail owner =>
        rw [origins] at listed
        obtain ⟨inner, -, gives⟩ := Branch.gives_of_mem_partsAll _ listed
        cases gives with
        | detail own =>
            cases part with
            | statement => cases Doclet.details_body own
            | classMember | interfaceMember => cases mem
    | doclet owner =>
        obtain ⟨node, found, _, _, made⟩ := exists_node_of_mem_origins sound listed
        obtain ⟨name, named, rfl⟩ := Doclet.bases_of_piece made mem
        obtain ⟨doclet, survives, names⟩ := sourced.augments found named
        exact ⟨doclet, survives, name, names, rfl, Doclet.baseOfName_isNamed_iff name⟩

/-- Witness: a class whose base has the name of arrays. -/
theorem bases_named_iff_array
    : let doclets : List Doclet :=
        [{ kind := .class, name := "A", longname := "A", augments := ["Array"] }]
      ¬ Doclet.NamesBase "Array"
      ∧ ∃ part ∈ (declarations {} doclets).value.flatMap Decl.parts,
          ∃ base ∈ part.bases, ¬ base.IsNamed ∧ base = (Doclet.baseOfName "Array").value := by
  intro doclets
  have kept : survivors {} doclets = doclets := by rfl
  have extended
      : ((declarations {} doclets).value.flatMap Decl.parts).any
          (fun part => part.bases.contains (.array .any)) = true := by
    decide +kernel
  obtain ⟨part, listed, mem⟩ := List.any_eq_true.1 extended
  have mem : .array .any ∈ part.bases := List.contains_iff_mem.1 mem
  obtain ⟨doclet, survives, name, named, same, iff⟩ :=
    (bases_named_iff {} doclets).2 part listed _ mem
  rw [kept] at survives
  obtain rfl := List.mem_singleton.1 survives
  obtain rfl : name = "Array" := by simpa using named
  have unnamed : ¬ TsType.IsNamed (.array .any) := fun is => is.ne_array _ rfl
  exact ⟨mt iff.2 unnamed, part, listed, _, mem, unnamed, same.symm⟩

end Forest

end Typings
