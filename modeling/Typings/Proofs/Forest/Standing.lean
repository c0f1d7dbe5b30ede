import Typings.Proofs.Forest.Linking
import Typings.Proofs.Forest.Survivors

/-! What a sound forest tells of a node by its parent, by the children of that, by the roots and by
its place. A forest is sound while it is linked, whatever doclets there are.
-/

namespace Typings.Forest

variable {forest : Forest} {name parent : String} {node : Node} {place : Place}

theorem mem_standingAt
    : node ∈ forest.standingAt place ↔ node ∈ forest.nodes ∧ node.place = place := by
  simp [standingAt]

theorem Sound.nodup_standingAt (sound : forest.Sound) (place : Place)
    : ((forest.standingAt place).map Node.longname).Nodup :=
  (List.filter_sublist.map _).nodup sound.distinct

theorem Sound.mem_standingAt_iff (sound : forest.Sound)
    : name ∈ (forest.standingAt place).map Node.longname
      ↔ ∃ node, forest.find? name = some node ∧ node.place = place := by
  constructor
  · intro listed
    obtain ⟨node, member, rfl⟩ := List.mem_map.mp listed
    obtain ⟨known, stands⟩ := mem_standingAt.mp member
    exact ⟨node, find?_of_mem sound.distinct known, stands⟩
  · rintro ⟨node, found, stands⟩
    exact List.mem_map.mpr
      ⟨node, mem_standingAt.mpr ⟨mem_of_find? found, stands⟩, longname_of_find? found⟩

/-- A node stands under another one if it is among the children of that, and only then. -/
theorem Sound.parent?_iff (sound : forest.Sound)
    : forest.parent? name = some parent
      ↔ name ∈ (forest.children parent).map Node.longname :=
  parent?_eq_some_iff.trans sound.mem_standingAt_iff.symm

theorem Sound.parent?_of_root (sound : forest.Sound)
    (root : name ∈ forest.roots.map Node.longname)
    : forest.parent? name = none := by
  obtain ⟨node, found, stands⟩ := sound.mem_standingAt_iff.mp root
  simp [parent?, found, stands]

/-- A node stands somewhere if it is a root or has a parent, and only then. -/
theorem Sound.stands_iff (sound : forest.Sound)
    : forest.stands name = true
      ↔ name ∈ forest.roots.map Node.longname
        ∨ ∃ parent, forest.parent? name = some parent := by
  rw [Forest.stands_iff, roots, sound.mem_standingAt_iff]
  simp only [parent?_eq_some_iff]
  constructor
  · rintro ⟨node, found, stands⟩
    cases place : node.place with
    | nowhere => exact absurd place stands
    | root => exact .inl ⟨node, found, place⟩
    | under parent => exact .inr ⟨parent, node, found, place⟩
  · rintro (⟨node, found, place⟩ | ⟨parent, node, found, place⟩) <;>
      exact ⟨node, found, by simp [place]⟩

theorem scattered_sound {doclets : List Doclet} (distinct : (doclets.map Doclet.longname).Nodup)
    : (scattered doclets).Sound where
  distinct := by simpa using distinct
  parents link := by simp [StandsUnder, parent?_scattered] at link
  grounded := ⟨fun _ => ⟨_, fun _ link => by simp [StandsUnder, parent?_scattered] at link⟩⟩

theorem Changes.sound {next : Forest} (changes : Changes forest next) (sound : forest.Sound)
    : next.Sound := by
  induction changes with
  | refl => exact sound
  | tail _ last ih => exact last.sound ih

theorem links_sound (settings : Settings) (doclets : List Doclet) (names linked : List String)
    : (linked.foldl (link names) (scattered (survivors settings doclets))).Sound :=
  (links_changes names _ linked).sound (scattered_sound (nodup_survivors settings doclets))

theorem ofDoclets_sound (settings : Settings) (doclets : List Doclet)
    : (ofDoclets settings doclets).Sound :=
  links_sound settings doclets _ _

end Typings.Forest
