import Typings.Proofs.Declarations.Origins
import Typings.Proofs.Forest.Frames

/-! The interface beside a class, which declarations merge with that: both have one name, but only
the class has type parameters.
-/

namespace Typings

open Noted

namespace Doclet

variable {doclet : Doclet} {nested : Bool} {body : Body} {pieces : List Piece} {piece : Piece}

theorem interface_of_piece (isInterface : doclet.kind = .interface)
    (made : (doclet.piece nested body pieces).value = some piece)
    : ∃ bases members,
        piece = .statement (.interface doclet.head doclet.typeParams.value bases members) := by
  simp only [Doclet.piece, isInterface] at made
  cases made
  exact ⟨_, _, rfl⟩

theorem class_of_piece (isClass : doclet.kind = .class)
    (made : (doclet.piece nested body pieces).value = some piece)
    : ∃ base members,
        piece = .statement (.class doclet.head doclet.typeParams.value base [] members) := by
  simp only [Doclet.piece, isClass] at made
  cases made
  exact ⟨_, _, rfl⟩

/-- A doclet has no type parameters exactly if none of its template tags declares one. -/
theorem typeParams_eq_nil_iff (doclet : Doclet)
    : doclet.typeParams.value = []
      ↔ ∀ text ∈ doclet.templates, ∀ params, Template.params text = .ok params → params = [] := by
  rw [typeParams, map_value, mapM_value, List.flatten_eq_nil_iff, List.forall_mem_map]
  refine forall₂_congr fun text _ => ?_
  rw [typeParamsOfTag]
  cases Template.params text with
  | ok params => simp
  | error error => simp [warned]

end Doclet

namespace Forest

variable {doclets : List Doclet} {forest : Forest} {owner : String} {node : Node}

/-- An interface that is a helper carries what a class among the doclets inherits. -/
theorem Sourced.class_of_interface (sourced : Sourced doclets forest)
    (found : forest.find? (interfaceHelper owner) = some node)
    (role : node.role = some .interface)
    : ∃ doclet ∈ doclets,
        doclet.longname = owner
        ∧ doclet.kind = .class
        ∧ SameDoclet node (interfaceOf doclet) := by
  rcases sourced.origin found with ⟨_, _, same⟩ | ⟨doclet, listed, helper, added, same⟩
  · cases same.1.symm.trans role
  · cases added with
    | interface isClass =>
        have sameName : interfaceHelper doclet.longname = interfaceHelper owner :=
          same.longname_eq.symm.trans (longname_of_find? found)
        exact ⟨doclet, listed, interfaceHelper_injective sameName, isClass, same⟩
    | «namespace» _ _ => cases same.1.symm.trans role

/-- The interface that helps a class and the class itself are declared by one name, the interface
without type parameters. So these are the same for both exactly if no template tag of the class
declares one.
Witness: the doclet of the interface is made with the name of the class, but with none of its tags.
-/
theorem merged_typeParams (settings : Settings) (doclets : List Doclet)
    : let forest := ofDoclets settings doclets
      (∀ part ∈ (declarations settings doclets).value.flatMap Decl.parts,
        ∃ origin, (origin, part) ∈ forest.origins)
      ∧ ∀ owner node beside own,
          forest.find? (interfaceHelper owner) = some node
          → node.role = some .interface
          → (.doclet (interfaceHelper owner), beside) ∈ forest.origins
          → (.doclet owner, own) ∈ forest.origins
          → ∃ doclet ∈ survivors settings doclets,
              doclet.longname = owner
              ∧ doclet.kind = .class
              ∧ ∃ head bases members ownHead typeParams base ownMembers,
                  beside = .statement (.interface head [] bases members)
                  ∧ own = .statement (.class ownHead typeParams base [] ownMembers)
                  ∧ head.name = ownHead.name
                  ∧ ([] = typeParams
                    ↔ ∀ text ∈ doclet.templates,
                        ∀ params, Template.params text = .ok params → params = []) := by
  intro forest
  refine ⟨fun part => exists_mem_origins, ?_⟩
  intro owner node beside own helperFound role besideListed ownListed
  have sound : forest.Sound := ofDoclets_sound settings doclets
  have sourced : Sourced (survivors settings doclets) forest := sourced_ofDoclets settings doclets
  obtain ⟨doclet, listed, rfl, isClass, same⟩ := sourced.class_of_interface helperFound role
  obtain ⟨helper, found, _, _, besideMade⟩ := exists_node_of_mem_origins sound besideListed
  cases helperFound.symm.trans found
  obtain ⟨ownNode, ownFound, ownSame⟩ := sourced.own doclet listed
  obtain ⟨_, found, _, _, ownMade⟩ := exists_node_of_mem_origins sound ownListed
  cases ownFound.symm.trans found
  obtain ⟨bases, members, isBeside⟩ := Doclet.interface_of_piece same.kind_eq besideMade
  obtain ⟨base, ownMembers, isOwn⟩ :=
    Doclet.class_of_piece (ownSame.kind_eq.trans isClass) ownMade
  obtain ⟨_, helperDoclet⟩ := same.2
  obtain ⟨_, ownDoclet⟩ := ownSame.2
  rw [helperDoclet] at isBeside
  rw [ownDoclet] at isOwn
  refine ⟨doclet, listed, rfl, isClass, _, bases, members, _, doclet.typeParams.value, base,
    ownMembers, isBeside, isOwn, rfl, ?_⟩
  rw [eq_comm, Doclet.typeParams_eq_nil_iff]

/-- The interface beside a class with a type parameter has none. -/
theorem merged_typeParams_template
    : let owner : Doclet :=
        { kind := .class, name := "A", longname := "A", implements := ["B"],
          tags := [{ title := "template", value := some "T", text := some "T" }] }
      let forest := ofDoclets {} [owner]
      ∃ node beside own,
        forest.find? (interfaceHelper "A") = some node
        ∧ node.role = some .interface
        ∧ (.doclet (interfaceHelper "A"), beside) ∈ forest.origins
        ∧ (.doclet "A", own) ∈ forest.origins
        ∧ ∃ head bases members ownHead typeParams base ownMembers,
            beside = .statement (.interface head [] bases members)
            ∧ own = .statement (.class ownHead typeParams base [] ownMembers)
            ∧ head.name = ownHead.name
            ∧ [] ≠ typeParams := by
  intro owner forest
  have kept : survivors {} [owner] = [owner] := by rfl
  have helped : (forest.find? (interfaceHelper "A")).any (fun node => node.role == some .interface)
      = true := by
    decide +kernel
  obtain ⟨node, found, isInterface⟩ := (Option.any_eq_true _ _).1 helped
  have role : node.role = some .interface := by simpa using isInterface
  have besideDeclared : Origin.doclet (interfaceHelper "A") ∈ forest.origins.map Prod.fst := by
    decide +kernel
  have ownDeclared : Origin.doclet "A" ∈ forest.origins.map Prod.fst := by
    decide +kernel
  obtain ⟨⟨_, beside⟩, besideListed, rfl⟩ := List.mem_map.1 besideDeclared
  obtain ⟨⟨_, own⟩, ownListed, rfl⟩ := List.mem_map.1 ownDeclared
  obtain ⟨doclet, listed, -, -, head, bases, members, ownHead, typeParams, base, ownMembers,
    isBeside, isOwn, sameName, agrees⟩ :=
    (merged_typeParams {} [owner]).2 "A" node beside own found role besideListed ownListed
  refine ⟨node, beside, own, found, role, besideListed, ownListed, head, bases, members, ownHead,
    typeParams, base, ownMembers, isBeside, isOwn, sameName, fun same => ?_⟩
  rw [kept] at listed
  cases List.mem_singleton.1 listed
  have declared : Template.params "T" = .ok [⟨"T", none, none⟩] := by decide +kernel
  cases agrees.1 same "T" (by simp [owner, Doclet.templates]) _ declared

end Forest

end Typings
