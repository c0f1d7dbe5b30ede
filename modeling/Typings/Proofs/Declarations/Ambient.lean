import Typings.Proofs.Declarations.Sources
import Typings.Proofs.Forest.Parentage

/-! The word `declare` opens the declarations of roots and no others. -/

namespace Typings

open Noted

namespace Doclet

variable {doclet : Doclet} {nested : Bool} {body : Body} {pieces : List Piece} {decl : Decl}

theorem head_variableDecl (doclet : Doclet) : doclet.variableDecl.value.head = doclet.head := by
  unfold variableDecl
  split <;> rfl

/-- A statement has the head of its doclet, unless that is a module nested in another one. -/
theorem head_of_piece (made : (doclet.piece nested body pieces).value = some (.statement decl))
    (kept : ¬ (doclet.kind = .module ∧ nested = true))
    : decl.head = doclet.head := by
  cases kind : doclet.kind
  all_goals
    simp only [Doclet.piece, kind] at made
  case «module» =>
    cases made
    cases nested with
    | true => exact absurd ⟨kind, rfl⟩ kept
    | false => rfl
  case member | constant =>
    split at made
    · cases made
      rfl
    · cases body with
      | statements =>
          cases made
          exact doclet.head_variableDecl
      | «class» | interface => cases made
  case function | callback =>
    cases body with
    | statements =>
        cases made
        rfl
    | «class» | interface => cases made
  case package | event | file => cases made
  all_goals
    cases made
    rfl

/-- A module in another one is a namespace that is not ambient, whatever it is a member of. -/
theorem not_ambient_of_nested (isModule : doclet.kind = .module)
    (made : (doclet.piece true body pieces).value = some (.statement decl))
    : decl.head.ambient = false := by
  simp only [Doclet.piece, isModule] at made
  cases made
  rfl

end Doclet

namespace Forest

variable {forest : Forest} {branch inner : Branch} {node : Node}

/-- What is in a branch below its own node stands under some node. -/
theorem place_of_below (limit : Nat)
    (inside : inner ∈ Branch.withinAll (forest.branch limit node).branches)
    : ∃ parent, inner.node ∈ forest.children parent := by
  induction limit generalizing node with
  | zero => simp [branch, Branch.withinAll] at inside
  | succ limit ih =>
      rw [branch, Branch.withinAll_eq, List.flatMap_map] at inside
      obtain ⟨child, listed, inside⟩ := List.mem_flatMap.1 inside
      rw [Branch.within_eq, List.mem_cons] at inside
      rcases inside with rfl | deeper
      · have own : (forest.branch limit child).node = child := by cases limit <;> rfl
        exact ⟨node.longname, own.symm ▸ listed⟩
      · exact ih deeper

/-- A statement is ambient if it declares a root, and not if it declares anything below one. -/
theorem ambient_of_makes (settings : Settings) {doclets : List Doclet} (plain : Plain doclets)
    {body : Body} {decl : Decl} (member : branch.node ∈ (ofDoclets settings doclets).nodes)
    (made : (branch.piece body).value = some (.statement decl))
    : (branch.node.place = .root → decl.head.ambient = true)
      ∧ ∀ parent, branch.node.place = .under parent → decl.head.ambient = false := by
  obtain ⟨root, under⟩ := memberof_of_place settings plain member
  rw [Branch.value_piece] at made
  constructor
  · intro place
    obtain ⟨free, unnested⟩ := root place
    have head := Doclet.head_of_piece made (by simp [unnested])
    simp [head, Doclet.head, free]
  · intro parent place
    by_cases nests : branch.node.doclet.kind = .module ∧ branch.node.nested = true
    · rw [nests.2] at made
      exact Doclet.not_ambient_of_nested nests.1 made
    · have head := Doclet.head_of_piece made nests
      simpa [head, Doclet.head, Option.isSome_iff_ne_none] using under parent place

/-- In the declarations of plain doclets those at the top are ambient, and no statement that stands
in a body at any depth is.
-/
theorem ambient_only_at_top (settings : Settings) {doclets : List Doclet} (plain : Plain doclets)
    : ∀ decl ∈ (declarations settings doclets).value,
        decl.head.ambient = true
        ∧ ∀ inner, .statement inner ∈ decl.entries.flatMap Piece.parts
            → inner.head.ambient = false := by
  intro decl declared
  obtain ⟨root, listed, made⟩ := exists_root_of_declared declared
  obtain ⟨node, isRoot, rfl⟩ := List.mem_map.1 listed
  obtain ⟨member, place⟩ := mem_roots.1 isRoot
  constructor
  · have own : ((ofDoclets settings doclets).whole node).node = node := node_whole _ node
    exact (ambient_of_makes settings plain (own.symm ▸ member) made).1 (own.symm ▸ place)
  · intro inner mem
    rcases Branch.makes_of_below _ made mem with detail | ⟨branch, inside, makes⟩
    · cases Doclet.details_body detail
    · obtain ⟨parent, child⟩ := place_of_below _ inside
      obtain ⟨childMember, childPlace⟩ := mem_children.1 child
      rcases makes with ⟨body, innerMade⟩ | detail
      · exact (ambient_of_makes settings plain childMember innerMade).2 parent childPlace
      · cases Doclet.details_body detail

/-- Witness: the namespace of a class in an enumeration comes among the roots, with a type in it. -/
theorem ambient_only_at_top_parked
    : let doclets : List Doclet :=
        [ { kind := .member, name := "E", longname := "E", enumerates := true },
          { kind := .typedef, name := "T", longname := "E.A.T", memberof := some "E.A" },
          { kind := .class, name := "A", longname := "E.A", memberof := some "E" } ]
      Plain doclets
      ∧ ∃ decl ∈ (declarations {} doclets).value,
          decl.head.ambient = true
          ∧ ∃ inner, .statement inner ∈ decl.entries.flatMap Piece.parts
              ∧ inner.head.ambient = false := by
  intro doclets
  have plain : Plain doclets := plain_of_short (by decide)
  have known : ((declarations {} doclets).value.any fun decl =>
      (decl.entries.flatMap Piece.parts).any fun part => part.statement?.isSome) = true := by
    decide +kernel
  obtain ⟨decl, declared, holds⟩ := List.any_eq_true.1 known
  obtain ⟨part, mem, isStatement⟩ := List.any_eq_true.1 holds
  obtain ⟨inner, found⟩ := Option.isSome_iff_exists.1 isStatement
  have whole : part = .statement inner := by
    cases part <;> cases found
    rfl
  obtain ⟨top, below⟩ := ambient_only_at_top {} plain decl declared
  exact ⟨plain, decl, declared, top, inner, whole ▸ mem, below inner (whole ▸ mem)⟩

end Forest

end Typings
