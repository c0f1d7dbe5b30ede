import Typings.Proofs.Declarations.Parts
import Typings.Proofs.Forest.Filtering

/-! The names that declarations declare, each with the names of what it stands in. Tighter settings
declare no name that looser settings do not.
-/

namespace Typings

-----------------------------------------------------------------------------------------
-- Paths of names
-----------------------------------------------------------------------------------------

/-- The name of a member of an interface. -/
def InterfaceMember.name : InterfaceMember → String
  | .property name .. | .method name .. => name

mutual
/-- The names that a declaration declares: its own, and what it holds below that. -/
def Decl.paths : Decl → List (List String)
  | .namespace head _ items => [head.name] :: (Decl.pathsAll items).map (head.name :: ·)
  | .module head items => [head.name] :: (Decl.pathsAll items).map (head.name :: ·)
  | .class head _ _ _ members =>
    [head.name] :: (members.filterMap ClassMember.name?).map fun name => [head.name, name]
  | .interface head _ _ members =>
    [head.name] :: members.map fun member => [head.name, member.name]
  | decl => [[decl.name]]

def Decl.pathsAll : List Decl → List (List String)
  | [] => []
  | decl :: decls => Decl.paths decl ++ Decl.pathsAll decls
end

/-- The names that a piece declares. -/
def Piece.paths : Piece → List (List String)
  | .statement decl => decl.paths
  | .classMember member => member.name?.toList.map fun name => [name]
  | .interfaceMember member => [[member.name]]

theorem Decl.pathsAll_eq (decls : List Decl)
    : Decl.pathsAll decls = (decls.map Piece.statement).flatMap Piece.paths := by
  induction decls with
  | nil => rfl
  | cons decl decls ih => simp [Decl.pathsAll, Piece.paths, ih]

/-- A declaration declares its own name, and what it holds below that. -/
theorem Decl.paths_eq (decl : Decl)
    : decl.paths = [decl.name] :: (decl.entries.flatMap Piece.paths).map (decl.name :: ·) := by
  cases decl with
  | «class» head _ _ _ members =>
      simp only [Decl.paths, Decl.entries, Decl.name, Decl.head, List.flatMap_map,
        List.filterMap_eq_flatMap_toList, List.map_flatMap, Piece.paths, List.map_map]
      rfl
  | interface head _ _ members =>
      simp only [Decl.paths, Decl.entries, Decl.name, Decl.head, Piece.paths,
        List.map_eq_flatMap, List.flatMap_assoc, List.flatMap_cons, List.flatMap_nil]
      rfl
  | «namespace» _ _ items | «module» _ items =>
      rw [Decl.paths, Decl.pathsAll_eq]
      rfl
  | function | «alias» | enum | «variable» => rfl

theorem Piece.Single.paths {piece : Piece} (single : piece.Single)
    : piece.paths = [[piece.name]] := by
  cases single with
  | statement empty =>
      rw [Piece.paths, Decl.paths_eq, empty]
      rfl
  | @classMember member name named => cases member <;> first | rfl | cases named
  | @interfaceMember member => cases member <;> rfl

/-- All that a piece declares is declared by another one, which fits the same body. -/
structure Piece.Within (piece other : Piece) : Prop where
  body_eq : other.body = piece.body
  paths_subset : piece.paths ⊆ other.paths

theorem Piece.Within.refl (piece : Piece) : piece.Within piece :=
  ⟨rfl, fun _ => id⟩

theorem Piece.paths_subset {few many : List Piece}
    (within : ∀ piece ∈ few, ∃ other ∈ many, piece.Within other)
    : few.flatMap Piece.paths ⊆ many.flatMap Piece.paths := by
  intro path listed
  obtain ⟨piece, member, inPiece⟩ := List.mem_flatMap.mp listed
  obtain ⟨other, otherMember, isWithin⟩ := within piece member
  exact List.mem_flatMap.mpr ⟨other, otherMember, isWithin.paths_subset inPiece⟩

namespace Doclet

open Noted

variable {doclet : Doclet} {nested : Bool} {body : Body} {pieces : List Piece} {piece : Piece}

/-- The name that a doclet is declared by. A module in another one is a namespace, and the name of
a member of a class or an interface is without brackets.
-/
def pieceName (doclet : Doclet) (nested : Bool) (body : Body) : String :=
  if doclet.kind = .module ∧ nested then Text.nameOf doclet.declaredName
  else if doclet.leavesClass ∨ body = .statements then doclet.declaredName
  else doclet.memberName.1

theorem name_variableDecl (doclet : Doclet)
    : doclet.variableDecl.value.name = doclet.declaredName := by
  unfold variableDecl
  split <;> rfl

theorem name_valuePiece (doclet : Doclet) (body : Body)
    : (doclet.valuePiece body).value.name
      = if body = .statements then doclet.declaredName else doclet.memberName.1 := by
  cases body with
  | statements => exact name_variableDecl doclet
  | «class» | interface => rfl

theorem name_functionPiece (doclet : Doclet) (body : Body)
    : (doclet.functionPiece body).value.name
      = if body = .statements then doclet.declaredName else doclet.memberName.1 := by
  cases body <;> rfl

theorem name_moduleDecl (doclet : Doclet) (nested : Bool) (pieces : List Piece)
    : (doclet.moduleDecl nested pieces).value.name
      = if nested then Text.nameOf doclet.declaredName else doclet.declaredName := by
  cases nested <;> rfl

theorem piece_name (made : (doclet.piece nested body pieces).value = some piece)
    : piece.name = doclet.pieceName nested body := by
  unfold pieceName
  cases kind : doclet.kind
  case member | constant =>
    rw [leavesClass_eq_false_of_value (by simp [kind])]
    simp only [Doclet.piece, kind] at made
    split at made
    · rename_i isEnum
      cases made
      simp [isEnum, Piece.name, Decl.name, Decl.head, enumDecl, head]
    · rename_i noEnum
      cases made
      simp [noEnum, name_valuePiece]
  case function | callback =>
    simp only [Doclet.piece, kind] at made
    cases made
    simp [kind, leavesClass, isEnum, Kind.isClassLike, Kind.isModuleLike, name_functionPiece]
  case «module» =>
    simp only [Doclet.piece, kind] at made
    cases made
    simp [kind, leavesClass, Kind.isModuleLike, Piece.name, name_moduleDecl]
  case package | event | file => simp [Doclet.piece, kind] at made
  all_goals
    simp only [Doclet.piece, kind] at made
    cases made
    simp only [leavesClass, kind, Kind.isClassLike, Kind.isModuleLike]
    rfl

/-- A doclet is declared with its name alone, or by that name above all that its pieces declare. -/
theorem piece_within {other : Doclet} {more : List Piece} {memberof : Option String}
    {scope : Option Scope} (same : other = { doclet with memberof, scope })
    (made : (doclet.piece nested body pieces).value = some piece)
    (inner : ∀ part ∈ pieces, ∃ outer ∈ more, part.Within outer)
    : ∃ outer, (other.piece nested body more).value = some outer ∧ piece.Within outer := by
  have declared := piece_isSome doclet nested body pieces
  have isDeclared : ((other.piece nested body more).value).isSome = true := by
    rw [piece_isSome, same, ← declared, made]
    rfl
  obtain ⟨outer, isOuter⟩ := Option.isSome_iff_exists.mp isDeclared
  have sameName : outer.name = piece.name := by
    rw [piece_name isOuter, piece_name made, same]
    rfl
  refine ⟨outer, isOuter, ?_, ?_⟩
  · rw [piece_body isOuter, piece_body made, same]
    rfl
  cases hasBody : doclet.kind.hasBody with
  | false =>
      have otherBody : other.kind.hasBody = false := same ▸ hasBody
      have alone := single_of_not_hasBody made hasBody
      have otherAlone := single_of_not_hasBody isOuter otherBody
      rw [alone.paths, otherAlone.paths, sameName]
      exact fun _ => id
  | true =>
      have otherBody : other.kind.hasBody = true := same ▸ hasBody
      obtain ⟨decl, isDecl, _, entries⟩ := piece_value_of_hasBody hasBody nested body pieces
      obtain ⟨last, isLast, _, lastEntries⟩ := piece_value_of_hasBody otherBody nested body more
      cases made.symm.trans isDecl
      cases isOuter.symm.trans isLast
      have sameDecl : last.name = decl.name := sameName
      rw [Piece.paths, Piece.paths, Decl.paths_eq, Decl.paths_eq, sameDecl]
      refine List.cons_subset_cons _ (List.map_subset _ (Piece.paths_subset fun part listed => ?_))
      rw [entries, List.mem_append, List.mem_append] at listed
      rw [lastEntries, same]
      rcases listed with (inFront | inner_part) | behind
      · exact ⟨part, List.mem_append_left _ (List.mem_append_left _ inFront), .refl part⟩
      · obtain ⟨known, fits⟩ := List.mem_filter.mp inner_part
        obtain ⟨outer, outerListed, within⟩ := inner part known
        refine ⟨outer, List.mem_append_left _ (List.mem_append_right _ ?_), within⟩
        exact List.mem_filter.mpr ⟨outerListed, by rw [within.body_eq]; exact fits⟩
      · exact ⟨part, List.mem_append_right _ behind, .refl part⟩

end Doclet

namespace Forest

open Branch

variable {few many : List Doclet} {forest larger : Forest}

-----------------------------------------------------------------------------------------
-- Fewer doclets
-----------------------------------------------------------------------------------------

section larger

variable (settled : Settled few forest) (there : Settled many larger) (plain : Plain many)
variable (distinct : (many.map Doclet.longname).Nodup) (sublist : few.Sublist many)

include settled there plain distinct sublist

/-- Nodes at a place are there among all doclets too, and what is declared for them is declared for
their counterparts, if that holds below them.
-/
theorem SettledUpTo.pieces_within {place : Place} {body : Body}
    (reached : ∀ node ∈ forest.standingAt place, node.longname ∈ forest.reachable)
    (below
      : ∀ node ∈ forest.standingAt place,
          ∀ more ∈ larger.nodes,
            Alike node more
            → ∀ piece,
                ((forest.whole node).piece body).value = some piece
                → ∃ other, ((larger.whole more).piece body).value = some other ∧ piece.Within other)
    : ∀ piece ∈ (pieces body ((forest.standingAt place).map forest.whole)).value,
        ∃ other ∈ (pieces body ((larger.standingAt place).map larger.whole)).value,
          piece.Within other := by
  intro piece listed
  rw [value_pieces] at listed ⊢
  obtain ⟨branch, branchListed, made⟩ := List.mem_filterMap.mp listed
  obtain ⟨node, member, rfl⟩ := List.mem_map.mp branchListed
  obtain ⟨known, isPlace⟩ := mem_standingAt.mp member
  obtain ⟨more, found, morePlace, alike⟩ :=
    settled.alike_of_sublist there plain distinct sublist (reached node member)
      (find?_of_mem settled.sound.distinct known)
  have moreKnown := mem_of_find? found
  obtain ⟨other, otherMade, within⟩ := below node member more moreKnown alike piece made
  refine ⟨other, List.mem_filterMap.mpr ⟨larger.whole more, ?_, otherMade⟩, within⟩
  exact List.mem_map_of_mem (mem_standingAt.mpr ⟨moreKnown, morePlace.trans isPlace⟩)

/-- What a reachable node is declared as is declared among all doclets too, by induction on the
nodes below it.
-/
theorem SettledUpTo.piece_within {node : Node} (member : node ∈ forest.nodes)
    (reached : node.longname ∈ forest.reachable)
    : ∀ more ∈ larger.nodes,
        Alike node more
        → ∀ body piece,
            ((forest.whole node).piece body).value = some piece
            → ∃ other,
                ((larger.whole more).piece body).value = some other ∧ piece.Within other := by
  induction node, member using settled.sound.children_induction with
  | step node member ih =>
    intro more moreMember alike body piece made
    rw [value_piece, whole_eq settled.sound member] at made
    rw [value_piece, whole_eq there.sound moreMember, alike.nested_eq]
    obtain ⟨memberof, scope, same⟩ := alike.doclet_eq
    have sameName : more.longname = node.longname := by rw [Node.longname, same]; rfl
    have sameKind : more.doclet.kind = node.doclet.kind := by rw [same]
    refine Doclet.piece_within same made ?_
    simp only [sameName, sameKind]
    have childReached : ∀ child ∈ forest.children node.longname,
        child.longname ∈ forest.reachable := fun child listed =>
      reachable_of_above settled.sound reached (standsUnder_of_mem_children settled.sound listed)
    exact settled.pieces_within there plain distinct sublist childReached
      fun child listed other otherMember childAlike =>
        ih child listed (childReached child listed) other otherMember childAlike _

/-- What is declared for some of the doclets is declared for all of them. -/
theorem SettledUpTo.paths_subset
    : Decl.pathsAll forest.statements.value ⊆ Decl.pathsAll larger.statements.value := by
  rw [Decl.pathsAll_eq, Decl.pathsAll_eq, value_statements, value_statements]
  have reached : ∀ root ∈ forest.standingAt .root, root.longname ∈ forest.reachable :=
    fun root listed => root_reachable settled.sound listed
  refine Piece.paths_subset (settled.pieces_within there plain distinct sublist reached ?_)
  intro root listed more moreMember alike
  exact settled.piece_within there plain distinct sublist (mem_standingAt.mp listed).1
    (reached root listed) more moreMember alike _

end larger

-----------------------------------------------------------------------------------------
-- Tighter settings
-----------------------------------------------------------------------------------------

/-- Tighter settings declare no name that looser settings do not, if the doclets that survive under
the tighter ones survive under the looser ones and those are plain.
Witness: a reachable node is there in the larger forest, at the same place and for the same doclet,
and a doclet is declared by the same name whatever stands in it.
-/
theorem paths_subset_of_tighter {tight loose : Settings} {doclets : List Doclet}
    (floor : loose.floor ≤ tight.floor)
    (keep : tight.keepPrivate = true → loose.keepPrivate = true)
    (plain : Plain (survivors loose doclets))
    (first : survivors tight doclets ⊆ survivors loose doclets)
    : Decl.pathsAll (declarations tight doclets).value
      ⊆ Decl.pathsAll (declarations loose doclets).value := by
  have sublist := survivors_sublist (fun _ => Settings.admits_mono floor keep) first
  have settled := settled_linkAll (fun doclet member => plain doclet (first member))
    (nodup_survivors tight doclets)
  have there := settled_linkAll plain (nodup_survivors loose doclets)
  rw [value_declarations, value_declarations]
  exact settled.paths_subset there plain (nodup_survivors loose doclets) sublist

/-- A class whose members have all levels of access, without those that are not public. -/
theorem paths_subset_of_tighter_class
    : let member (name : String) (access : Option Access) : Doclet :=
        { kind := .function, name := name, longname := "Svc#" ++ name, memberof := some "Svc",
          access := access }
      let doclets : List Doclet :=
        [ { kind := .class, name := "Svc", longname := "Svc" },
          member "a" (some .private), member "b" (some .package), member "c" (some .protected),
          member "d" (some .public), member "e" none ]
      Plain (survivors {} doclets)
      ∧ survivors { floor := .public } doclets ⊆ survivors {} doclets
      ∧ Decl.pathsAll (declarations { floor := .public } doclets).value
        = [["Svc"], ["Svc", "d"], ["Svc", "e"]]
      ∧ Decl.pathsAll (declarations { floor := .public } doclets).value
        ⊆ Decl.pathsAll (declarations {} doclets).value := by
  intro member doclets
  have plain : Plain (survivors {} doclets) := (plain_of_short (by decide)).survivors {}
  have first : survivors { floor := .public } doclets ⊆ survivors {} doclets :=
    survivors_subset_of_nodup (fun _ => Settings.admits_mono (by decide) (by decide)) (by decide)
  refine ⟨plain, first, by decide, paths_subset_of_tighter (by decide) (by decide) plain first⟩

/-- Without either condition tighter settings can declare a name more: that of a doclet that has
the longname of one that they leave out, or one in a namespace whose longname such a doclet takes.
-/
theorem paths_not_subset_of_tighter : let repeated : List Doclet :=
        [ { kind := .function, name := "f", longname := "x", access := some .private },
          { kind := .function, name := "g", longname := "x" } ]
      let reserved : List Doclet :=
        [ { kind := .function, name := "h", longname := "A$$namespace$helper",
            access := some .private },
          { kind := .class, name := "A", longname := "A" },
          { kind := .typedef, name := "T", longname := "A.T", memberof := some "A" } ]
      let tight : Settings := {}
      let loose : Settings := { keepPrivate := true }
      (Plain repeated
        ∧ ["g"] ∈ Decl.pathsAll (declarations tight repeated).value
        ∧ ["g"] ∉ Decl.pathsAll (declarations loose repeated).value)
      ∧ survivors tight reserved ⊆ survivors loose reserved
      ∧ ["A", "T"] ∈ Decl.pathsAll (declarations tight reserved).value
      ∧ ["A", "T"] ∉ Decl.pathsAll (declarations loose reserved).value := by
  intro repeated reserved tight loose
  refine ⟨⟨plain_of_short (by decide), by decide, by decide⟩, ?_, by decide, by decide⟩
  exact survivors_subset_of_nodup (fun _ => Settings.admits_mono (by decide) (by decide))
    (by decide)

end Forest

end Typings
