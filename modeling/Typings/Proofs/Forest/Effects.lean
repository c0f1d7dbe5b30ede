import Typings.Proofs.Forest.Linking

/-! What putting several nodes to their places does to each node when nothing is in the way, and
when nothing is.
-/

namespace Typings.Forest

open Relation

variable {forest : Forest} {name other parent : String} {node : Node} {names : List String}

theorem above_of_free (free : forest.parent? name = none) : forest.above name = [name] := by
  simp [above, lineage, free]

-----------------------------------------------------------------------------------------
-- Nodes under one parent
-----------------------------------------------------------------------------------------

theorem attach_of_apart (loose : forest.stands name = false)
    (apart : name ∉ forest.above parent)
    : forest.attach parent name
      = forest.moveLast name fun node => settled node (.under parent) (some parent) := by
  simp [attach, loose, apart]

theorem attachAll_cons (forest : Forest) (parent name : String) (names : List String)
    : forest.attachAll parent (name :: names)
      = (forest.attach parent name).attachAll parent names := rfl

@[simp]
theorem has_attach (forest : Forest) (parent name other : String)
    : (forest.attach parent name).has other = forest.has other := by
  unfold attach
  split
  · rfl
  · split
    · rfl
    · rw [has, find?_moveLast (by simp)]
      split <;> simp [has]

@[simp]
theorem has_attachAll (forest : Forest) (parent : String) (names : List String) (other : String)
    : (forest.attachAll parent names).has other = forest.has other := by
  induction names generalizing forest with
  | nil => rfl
  | cons name names ih => rw [attachAll_cons, ih, has_attach]

/-- A node that is put under another one leads no line into what was not below it. -/
theorem reflTransGen_of_moveLast {place : Place} {memberof : Option String}
    (apart : ¬ ReflTransGen forest.StandsUnder parent name)
    (line
      : ReflTransGen (forest.moveLast name fun node => settled node place memberof).StandsUnder
          parent other)
    : ReflTransGen forest.StandsUnder parent other := by
  induction line with
  | refl => exact .refl
  | tail _ last ih =>
      rcases standsUnder_moveLast last with old | ⟨rfl, _⟩
      · exact ih.tail old
      · exact absurd ih apart

/-- What is above the parent stays the same when a node that is not there is put under it. -/
theorem mem_above_moveLast (sound : forest.Sound) (known : forest.has parent = true)
    (apart : name ∉ forest.above parent)
    : other
          ∈ (forest.moveLast name fun node => settled node (.under parent) (some parent)).above
            parent
      ↔ other ∈ forest.above parent := by
  have noLine : ¬ ReflTransGen forest.StandsUnder parent name :=
    fun line => apart ((mem_above_iff sound).mpr line)
  rw [mem_above_iff (sound.put known noLine _), mem_above_iff sound]
  refine ⟨reflTransGen_of_moveLast noLine, fun line => ?_⟩
  induction line with
  | refl => exact .refl
  | @tail middle upper earlier last ih =>
      refine ih.tail ?_
      obtain ⟨node, found, place⟩ := parent?_eq_some_iff.mp last
      refine parent?_eq_some_iff.mpr ⟨node, ?_, place⟩
      rw [find?_moveLast (by simp), if_neg, found]
      rintro rfl
      exact noLine earlier

/-- Attaching a node that stands nowhere puts it under its parent or, if it is above that, warns.
-/
theorem attach_effect (sound : forest.Sound) (known : forest.has parent = true)
    (loose : forest.stands name = false)
    : (forest.attach parent name).Sound
      ∧ (forest.attach parent name).has parent = true
      ∧ (∀ other, other ∈ (forest.attach parent name).above parent ↔ other ∈ forest.above parent)
      ∧ (∀ other,
          (forest.attach parent name).find? other
          = if other = name ∧ other ∉ forest.above parent then
              (forest.find? other).map fun node => settled node (.under parent) (some parent)
            else forest.find? other)
      ∧ (forest.attach parent name).warnings
        = forest.warnings
          ++ ([name].filter (· ∈ forest.above parent)).map (Warning.underItself · parent) := by
  by_cases inside : name ∈ forest.above parent
  · have refused : forest.attach parent name = forest.warn (.underItself name parent) := by
      simp [attach, loose, inside]
    have warnSound : (forest.warn (.underItself name parent)).Sound :=
      ⟨sound.distinct, sound.parents, sound.grounded⟩
    rw [refused]
    refine ⟨warnSound, known, fun other => ?_, fun other => ?_, by simp [inside]⟩
    · rw [mem_above_iff warnSound, mem_above_iff sound]
      rfl
    · rw [if_neg]
      · rfl
      · rintro ⟨rfl, outside⟩
        exact outside inside
  · have noLine : ¬ ReflTransGen forest.StandsUnder parent name :=
      fun line => inside ((mem_above_iff sound).mpr line)
    refine ⟨?_, by rw [has_attach, known], ?_⟩ <;> rw [attach_of_apart loose inside]
    · exact sound.put known noLine _
    · refine ⟨fun other => mem_above_moveLast sound known inside, fun other => ?_,
        by simp [inside]⟩
      rw [find?_moveLast (by simp)]
      by_cases isName : other = name
      · subst isName
        simp [inside]
      · simp [isName]

/-- Attaching a node keeps a forest sound, whether it is put there or not. -/
theorem attach_sound (sound : forest.Sound) (known : forest.has parent = true)
    : (forest.attach parent name).Sound := by
  cases stands : forest.stands name with
  | true =>
      rw [attach, if_pos stands]
      exact ⟨sound.distinct, sound.parents, sound.grounded⟩
  | false => exact (attach_effect sound known stands).1

/-- Attaching nodes that stand nowhere puts those under their parent that are not above it, and
warns of the others.
-/
theorem attachAll_effect (sound : forest.Sound) (known : forest.has parent = true)
    (distinct : names.Nodup) (loose : ∀ name ∈ names, forest.stands name = false)
    : (∀ other,
        (forest.attachAll parent names).find? other
        = if other ∈ names ∧ other ∉ forest.above parent then
            (forest.find? other).map fun node => settled node (.under parent) (some parent)
          else forest.find? other)
      ∧ (forest.attachAll parent names).warnings
        = forest.warnings
          ++ (names.filter (· ∈ forest.above parent)).map (Warning.underItself · parent) := by
  induction names generalizing forest with
  | nil => simp [attachAll]
  | cons name names ih =>
      obtain ⟨fresh, distinct⟩ := List.nodup_cons.mp distinct
      obtain ⟨nextSound, nextKnown, sameAbove, finds, warnings⟩ :=
        attach_effect sound known (loose name List.mem_cons_self)
      have nextLoose : ∀ other ∈ names, (forest.attach parent name).stands other = false := by
        intro other listed
        have different : ¬ (other = name ∧ other ∉ forest.above parent) :=
          fun both => fresh (both.1 ▸ listed)
        have otherLoose := loose other (List.mem_cons_of_mem _ listed)
        rw [stands, finds, if_neg different]
        exact otherLoose
      obtain ⟨restFinds, restWarnings⟩ := ih nextSound nextKnown distinct nextLoose
      simp only [sameAbove] at restFinds restWarnings
      rw [attachAll_cons]
      refine ⟨fun other => ?_, ?_⟩
      · rw [restFinds, finds]
        by_cases isName : other = name
        · subst isName
          simp [fresh]
        · simp [isName]
      · rw [restWarnings, warnings, List.append_assoc, ← List.map_append, ← List.filter_append]
        rfl

-----------------------------------------------------------------------------------------
-- Nodes among the roots
-----------------------------------------------------------------------------------------

@[simp]
theorem warnings_addRoots (forest : Forest) (names : List String)
    : (forest.addRoots names).warnings = forest.warnings := by
  induction names generalizing forest with
  | nil => rfl
  | cons name names ih =>
      refine (ih (forest.addRoot name)).trans ?_
      unfold addRoot
      split
      · rfl
      · simp

/-- Adding nodes that stand nowhere to the roots makes exactly these roots. -/
theorem find?_addRoots (distinct : names.Nodup)
    (loose : ∀ name ∈ names, forest.stands name = false) (other : String)
    : (forest.addRoots names).find? other
      = if other ∈ names then (forest.find? other).map fun node => settled node .root none
        else forest.find? other := by
  induction names generalizing forest with
  | nil => simp [addRoots]
  | cons name names ih =>
      obtain ⟨fresh, distinct⟩ := List.nodup_cons.mp distinct
      have moved : forest.addRoot name
          = forest.moveLast name fun node => settled node .root none := by
        simp [addRoot, loose name List.mem_cons_self]
      have rest : ∀ later ∈ names, (forest.addRoot name).stands later = false := by
        intro later member
        have different : later ≠ name := fun same => fresh (same ▸ member)
        have laterLoose := loose later (List.mem_cons_of_mem _ member)
        rw [moved, stands, find?_moveLast (by simp), if_neg different]
        exact laterLoose
      change ((forest.addRoot name).addRoots names).find? other = _
      rw [ih distinct rest, moved, find?_moveLast (by simp)]
      by_cases isName : other = name
      · subst isName
        simp [fresh]
      · simp [isName]

-----------------------------------------------------------------------------------------
-- Static members of an interface
-----------------------------------------------------------------------------------------

/-- A member of the namespace `container`, which stands there if it stood under `owner`. -/
def inContainer (owner container : String) (node : Node) : Node :=
  { node.withMemberof (some container) with
    place := if node.place = .under owner then .under container else node.place }

theorem settled_detached (node : Node) (place : Place) (memberof : Option String)
    : settled { node.withMemberof memberof with place := .nowhere } place memberof
      = { node.withMemberof memberof with place } := by
  unfold settled
  split <;> rfl

/-- A node can be taken from its place to any other node that stands nowhere. -/
theorem attach_detach {container : String} (free : forest.parent? container = none)
    (different : name ≠ container)
    : ((forest.detach name).attach container name).warnings = forest.warnings
      ∧ ∀ other,
          ((forest.detach name).attach container name).find? other
          = if other = name then
              (forest.find? other).map fun node =>
                settled { node with place := .nowhere } (.under container) (some container)
            else forest.find? other := by
  have detached (other : String)
      : (forest.detach name).find? other
        = if other = name then
            (forest.find? other).map fun node => { node with place := .nowhere }
          else forest.find? other :=
    find?_modify (by intro _; rfl)
  have loose : (forest.detach name).stands name = false := by
    rw [stands, detached, if_pos rfl]
    cases forest.find? name <;> rfl
  have detachedFree : (forest.detach name).parent? container = none := by
    rw [parent?, detached, if_neg (Ne.symm different)]
    exact free
  have moved
      : (forest.detach name).attach container name
        = (forest.detach name).moveLast name fun node =>
            settled node (.under container) (some container) :=
    attach_of_apart loose (by simpa [above_of_free detachedFree] using different)
  rw [moved]
  refine ⟨by rw [warnings_moveLast]; rfl, fun other => ?_⟩
  rw [find?_moveLast (by simp), detached]
  split
  · rw [Option.map_map]
    rfl
  · rfl

/-- A static member comes to its container without a warning as long as that stands nowhere. -/
theorem moveStatic_effect (owner : String) {container : String}
    (free : forest.parent? container = none) (different : name ≠ container)
    : (moveStatic owner container forest name).warnings = forest.warnings
      ∧ ∀ other,
          (moveStatic owner container forest name).find? other
          = if other = name then (forest.find? other).map (inContainer owner container)
            else forest.find? other := by
  have renamed (other : String)
      : (forest.modify name fun node => node.withMemberof (some container)).find? other
        = if other = name then (forest.find? other).map fun node =>
              node.withMemberof (some container)
          else forest.find? other :=
    find?_modify (by simp)
  have sameParent
      : (forest.modify name fun node => node.withMemberof (some container)).parent? name
        = forest.parent? name := by
    rw [parent?, parent?, renamed, if_pos rfl]
    cases forest.find? name <;> rfl
  have renamedFree
      : (forest.modify name fun node => node.withMemberof (some container)).parent? container
        = none := by
    rw [parent?, renamed, if_neg (Ne.symm different)]
    exact free
  unfold moveStatic
  dsimp only
  rw [sameParent]
  split
  · rename_i under
    obtain ⟨node, found, place⟩ := parent?_eq_some_iff.mp under
    obtain ⟨warnings, finds⟩ := attach_detach renamedFree different
    refine ⟨warnings, fun other => ?_⟩
    rw [finds, renamed]
    split
    · rename_i same
      subst same
      simp only [found, Option.map_some, settled_detached, inContainer, if_pos place]
    · rfl
  · rename_i elsewhere
    refine ⟨rfl, fun other => ?_⟩
    rw [renamed]
    split
    · rename_i same
      subst same
      cases found : forest.find? other with
      | none => rfl
      | some node =>
          have notUnder : node.place ≠ .under owner := fun place =>
            elsewhere (parent?_eq_some_iff.mpr ⟨node, found, place⟩)
          simp [inContainer, notUnder, Node.withMemberof]
    · rfl

theorem has_moveStatic (owner container : String) (known : forest.has other = true)
    : (moveStatic owner container forest name).has other = true := by
  have renamed := Changes.has (.single (.rename name container)) known
  unfold moveStatic
  dsimp only
  split
  · rw [has_attach]
    exact Changes.has (.single (.detach name)) renamed
  · exact renamed

/-- Static members come to their container one after the other, and nothing else changes. -/
theorem moveStatics_effect (owner : String) {container : String}
    (free : forest.parent? container = none) (distinct : names.Nodup)
    (different : container ∉ names)
    : (names.foldl (moveStatic owner container) forest).warnings = forest.warnings
      ∧ ∀ other,
          (names.foldl (moveStatic owner container) forest).find? other
          = if other ∈ names then (forest.find? other).map (inContainer owner container)
            else forest.find? other := by
  induction names generalizing forest with
  | nil => simp
  | cons name names ih =>
      obtain ⟨fresh, distinct⟩ := List.nodup_cons.mp distinct
      obtain ⟨notName, notNames⟩ := not_or.mp (List.mem_cons.not.mp different)
      obtain ⟨warnings, finds⟩ := moveStatic_effect owner free (Ne.symm notName)
      have nextFree : (moveStatic owner container forest name).parent? container = none := by
        rw [parent?, finds, if_neg notName]
        exact free
      obtain ⟨restWarnings, restFinds⟩ := ih nextFree distinct notNames
      refine ⟨restWarnings.trans warnings, fun other => ?_⟩
      rw [List.foldl_cons, restFinds, finds]
      by_cases isName : other = name
      · subst isName
        simp [fresh]
      · simp [isName]

end Typings.Forest
