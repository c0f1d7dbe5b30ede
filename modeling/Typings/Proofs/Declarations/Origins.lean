import Typings.Proofs.Declarations.Coverage
import Typings.Proofs.Declarations.Sources

/-! The nodes that the parts of declarations come from, at the top and in the bodies of others. -/

namespace Typings.Forest

open Branch Noted Relation

variable {settings : Settings} {doclets : List Doclet} {forest : Forest}
variable {name upper : String} {node root : Node} {body : Body} {part : Piece}

/-- What declares a doclet in a whole branch is what the node of the doclet is declared as. -/
theorem exists_node_of_mem_parts (sound : forest.Sound) (member : root ∈ forest.nodes)
    (listed : (.doclet name, part) ∈ (forest.whole root).parts body)
    : ∃ node,
        forest.find? name = some node
        ∧ ∃ body pieces, (node.doclet.piece node.nested body pieces).value = some part := by
  obtain ⟨branch, within, gives⟩ := gives_of_mem_parts _ listed
  obtain ⟨branchMember, -⟩ := whole_of_mem_within sound member within
  cases gives with
  | doclet made =>
      rw [value_piece] at made
      exact ⟨branch.node, find?_of_mem sound.distinct branchMember, _, _, made⟩

-----------------------------------------------------------------------------------------
-- All parts
-----------------------------------------------------------------------------------------

/-- Every part of the declarations has an origin. -/
theorem exists_mem_origins
    (mem : part ∈ (declarations settings doclets).value.flatMap Decl.parts)
    : ∃ origin, (origin, part) ∈ (ofDoclets settings doclets).origins := by
  obtain ⟨decl, declared, mem⟩ := List.mem_flatMap.1 mem
  obtain ⟨branch, isRoot, made⟩ := exists_root_of_declared declared
  have listed
      : .statement decl
        ∈ (pieces .statements (ofDoclets settings doclets).branches).value := by
    rw [value_pieces]
    exact List.mem_filterMap.2 ⟨branch, isRoot, made⟩
  exact exists_mem_partsAll _ listed mem

/-- Where nothing is warned about, all that has an origin is a part of the declarations. -/
theorem mem_parts_of_mem_origins {origin : Origin}
    (quiet : (ofDoclets settings doclets).statements.warnings = [])
    (listed : (origin, part) ∈ (ofDoclets settings doclets).origins)
    : part ∈ (declarations settings doclets).value.flatMap Decl.parts := by
  have all := List.mem_map_of_mem (f := Prod.snd) listed
  rwa [map_snd_origins quiet, ← value_declarations] at all

/-- What declares a doclet is what its node is declared as. -/
theorem exists_node_of_mem_origins (sound : forest.Sound)
    (listed : (.doclet name, part) ∈ forest.origins)
    : ∃ node,
        forest.find? name = some node
        ∧ ∃ body pieces, (node.doclet.piece node.nested body pieces).value = some part := by
  rw [origins, partsAll_eq, branches_eq, List.flatMap_map] at listed
  obtain ⟨root, isRoot, listed⟩ := List.mem_flatMap.1 listed
  exact exists_node_of_mem_parts sound (mem_roots.1 isRoot).1 listed

/-- A statement at any depth of the declarations declares a node. -/
theorem exists_node_of_statement {decl : Decl}
    (listed : .statement decl ∈ (declarations settings doclets).value.flatMap Decl.parts)
    : ∃ name node,
        (ofDoclets settings doclets).find? name = some node
        ∧ ∃ body pieces,
            (node.doclet.piece node.nested body pieces).value = some (.statement decl) := by
  obtain ⟨origin, listed⟩ := exists_mem_origins listed
  obtain ⟨inner, -, gives⟩ := gives_of_mem_partsAll _ listed
  obtain ⟨name, rfl⟩ := gives.exists_name
  exact ⟨name, exists_node_of_mem_origins (ofDoclets_sound settings doclets) listed⟩

-----------------------------------------------------------------------------------------
-- Parts in bodies
-----------------------------------------------------------------------------------------

/-- A statement in the body of a declaration, at some depth, declares a node that stands in the body
of a carried one.
-/
theorem exists_node_of_inside {decl inner : Decl}
    (declared : decl ∈ (declarations settings doclets).value)
    (mem : .statement inner ∈ decl.entries.flatMap Piece.parts)
    : let forest := ofDoclets settings doclets
      ∃ name node upper,
        forest.find? name = some node
        ∧ (∃ body pieces,
          (node.doclet.piece node.nested body pieces).value = some (.statement inner))
        ∧ forest.StandsInBody name upper
        ∧ forest.Carried upper := by
  intro forest
  have sound : forest.Sound := ofDoclets_sound settings doclets
  obtain ⟨branch, listed, made⟩ := exists_root_of_declared declared
  obtain ⟨root, isRoot, rfl⟩ := List.mem_map.1 listed
  change ((forest.whole root).piece .statements).value = _ at made
  obtain ⟨member, -⟩ := mem_roots.1 isRoot
  obtain ⟨origin, below⟩ := exists_mem_contents _ made mem
  rcases mem_contents.1 below with ⟨hasBody, ⟨-, detail⟩ | inside⟩
  · cases Doclet.details_body detail
  · rw [whole_eq sound member] at hasBody inside
    rw [partsAll_eq, List.flatMap_map] at inside
    obtain ⟨child, childMember, inside⟩ := List.mem_flatMap.1 inside
    obtain ⟨known, -⟩ := mem_children.1 childMember
    obtain ⟨name, rfl⟩ := origin_of_statement inside
    obtain ⟨node, found, piece⟩ := exists_node_of_mem_parts sound known inside
    have top : forest.StandsInBody child.longname root.longname :=
      ⟨standsUnder_of_mem_children sound childMember, root, find?_of_mem sound.distinct member,
        hasBody⟩
    have line := ((mem_parts_whole_iff sound known _).1 (List.mem_map_of_mem inside)).2
    rcases ReflTransGen.cases_head line with same | ⟨upper, first, rest⟩
    · exact ⟨name, node, root.longname, found, piece, same ▸ top, root, isRoot, .refl⟩
    · exact ⟨name, node, upper, found, piece, first, root, isRoot, rest.tail top⟩

/-- What stands in the body of a carried node is declared in the body of a declaration, if all that
is made for a body fits there.
-/
theorem exists_inside_of_node
    (fits : ∀ branch ∈ (ofDoclets settings doclets).branches.flatMap within, branch.Fits)
    (found : (ofDoclets settings doclets).find? name = some node)
    (declared : node.doclet.kind.isDeclared = true)
    (under : (ofDoclets settings doclets).StandsInBody name upper)
    (carried : (ofDoclets settings doclets).Carried upper)
    : ∃ decl ∈ (declarations settings doclets).value,
        ∃ piece ∈ decl.entries.flatMap Piece.parts,
          ∃ body pieces, (node.doclet.piece node.nested body pieces).value = some piece := by
  have sound := ofDoclets_sound settings doclets
  obtain ⟨root, isRoot, line⟩ := carried
  obtain ⟨member, -⟩ := mem_roots.1 isRoot
  have rootListed
      : (ofDoclets settings doclets).whole root ∈ (ofDoclets settings doclets).branches :=
    List.mem_map_of_mem isRoot
  obtain ⟨⟨_, part⟩, listed, rfl⟩ := List.mem_map.1
    ((mem_parts_whole_iff sound member .statements).2 ⟨⟨node, found, declared⟩, .head under line⟩)
  obtain ⟨sameNode, sameFound, body, pieces, made⟩ := exists_node_of_mem_parts sound member listed
  cases sameFound.symm.trans found
  obtain ⟨piece, rootMade⟩ := exists_piece listed
  obtain ⟨decl, isDeclared, rfl⟩ := exists_declared_of_root rootListed rootMade
  refine ⟨decl, isDeclared, part, ?_, body, pieces, made⟩
  rw [parts_eq rootMade, List.mem_cons, longname_whole] at listed
  rcases listed with own | inside
  · -- No node stands below itself.
    cases own
    have climb : ReflTransGen (ofDoclets settings doclets).StandsUnder upper root.longname :=
      line.lift id fun _ _ step => step.1
    exact absurd (.head' under.1 climb) sound.acyclic
  · have all := map_snd_contents rootMade fun inner listed =>
      fits inner (List.mem_flatMap.2 ⟨_, rootListed, listed⟩)
    rw [Piece.entries] at all
    exact all ▸ List.mem_map_of_mem inside

end Typings.Forest
