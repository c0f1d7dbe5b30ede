import Typings.Proofs.Forest.Rows

/-! Two parts of a forest that have nothing to do with each other. What is done to a node on one
side is done to the part there as it would be in a forest of its own, and the rest stays as it is.
-/

namespace Typings.Forest

open Relation

/-- The forest `whole` is made of two others: its nodes on one side, in their order, are those of
`part`, and all others are those of `rest`. If the part is late, then its roots come after those of
the rest.
-/
structure Parted (side : String → Bool) (late : Prop) (whole part rest : Forest) : Prop where
  inside : whole.nodes.filter (fun node => side node.longname) = part.nodes
  outside : whole.nodes.filter (fun node => !side node.longname) = rest.nodes
  warnings : whole.warnings.Perm (rest.warnings ++ part.warnings)
  roots : late → whole.roots = rest.roots ++ part.roots
  sound : whole.Sound
  partSound : part.Sound
  restSound : rest.Sound

variable {side : String → Bool} {late : Prop} {whole part rest forest : Forest}
variable {name other parent owner container : String} {node : Node} {names own : List String}

-----------------------------------------------------------------------------------------
-- The nodes on one side
-----------------------------------------------------------------------------------------

section parted

variable (parted : Parted side late whole part rest)

include parted

/-- A node on one side is found where it is found in the part there. -/
theorem Parted.find?_eq (here : side name = true) : whole.find? name = part.find? name := by
  rw [find?, find?, ← parted.inside, List.find?_filter]
  congr 1
  funext node
  by_cases same : node.longname = name <;> simp [same, here]

theorem Parted.has_eq (here : side name = true) : whole.has name = part.has name := by
  rw [has, has, parted.find?_eq here]

theorem Parted.stands_eq (here : side name = true) : whole.stands name = part.stands name := by
  rw [stands, stands, parted.find?_eq here]

theorem Parted.parent?_eq (here : side name = true) : whole.parent? name = part.parent? name := by
  rw [parent?, parent?, parted.find?_eq here]

theorem Parted.memberof?_eq (here : side name = true)
    : whole.memberof? name = part.memberof? name := by
  rw [memberof?, memberof?, parted.find?_eq here]

/-- The nodes of the part are on its side, and those of the rest are not. -/
theorem Parted.here (known : part.has name = true) : side name = true := by
  obtain ⟨node, found⟩ := has_iff.mp known
  have listed := mem_of_find? found
  rw [← parted.inside] at listed
  exact longname_of_find? found ▸ (List.mem_filter.mp listed).2

theorem Parted.swap : Parted (fun name => !side name) False whole rest part where
  inside := parted.outside
  outside := by simpa using parted.inside
  warnings := parted.warnings.trans List.perm_append_comm
  roots := False.elim
  sound := parted.sound
  partSound := parted.restSound
  restSound := parted.partSound

theorem Parted.standingAt_eq (place : Place)
    : (whole.standingAt place).filter (fun node => side node.longname) = part.standingAt place := by
  rw [standingAt, standingAt, ← parted.inside, List.filter_comm]

theorem Parted.filter_roots : whole.roots.filter (fun node => side node.longname) = part.roots :=
  parted.standingAt_eq .root

theorem Parted.roots_eq_part (noRoots : rest.roots = []) : whole.roots = part.roots := by
  have outside := parted.swap.filter_roots.trans noRoots
  rw [← parted.filter_roots, eq_comm, List.filter_eq_self]
  intro node listed
  simpa using List.filter_eq_nil_iff.mp outside node listed

/-- A line of parents does not leave its side, by induction along the line. -/
theorem Parted.line_iff (here : side name = true)
    : ReflTransGen whole.StandsUnder name other ↔ ReflTransGen part.StandsUnder name other := by
  constructor
  · intro line
    induction line using ReflTransGen.head_induction_on with
    | refl => exact .refl
    | head under _ ih =>
        have below : part.StandsUnder _ _ := (parted.parent?_eq here).symm.trans under
        exact .head below (ih (parted.here (parted.partSound.parents below)))
  · intro line
    induction line using ReflTransGen.head_induction_on with
    | refl => exact .refl
    | head under _ ih =>
        exact .head ((parted.parent?_eq here).trans under)
          (ih (parted.here (parted.partSound.parents under)))

theorem Parted.contains_above_eq (here : side name = true) (other : String)
    : (whole.above name).contains other = (part.above name).contains other := by
  rw [Bool.eq_iff_iff, List.contains_iff_mem, List.contains_iff_mem, mem_above_iff parted.sound,
    mem_above_iff parted.partSound]
  exact parted.line_iff here

end parted

-----------------------------------------------------------------------------------------
-- Single changes on one side
-----------------------------------------------------------------------------------------

theorem Parted.warn (parted : Parted side late whole part rest) (warning : Warning)
    : Parted side late (whole.warn warning) (part.warn warning) rest where
  inside := parted.inside
  outside := parted.outside
  warnings := by
    rw [warnings_warn, warnings_warn, ← List.append_assoc]
    exact parted.warnings.append_right _
  roots := parted.roots
  sound := ⟨parted.sound.distinct, parted.sound.parents, parted.sound.grounded⟩
  partSound := ⟨parted.partSound.distinct, parted.partSound.parents, parted.partSound.grounded⟩
  restSound := parted.restSound

theorem Parted.add (parted : Parted side late whole part rest) (isHelper : IsHelper node)
    (here : side node.longname = true) (fresh : part.find? node.longname = none)
    : Parted side late (whole.add node) (part.add node) rest where
  inside := by simp [Forest.add, List.filter_append, here, parted.inside]
  outside := by simp [Forest.add, List.filter_append, here, parted.outside]
  warnings := parted.warnings
  roots isLate := by
    have elsewhere : node.place ≠ .root := by simp [isHelper.place_eq]
    simp only [Forest.roots]
    rw [standingAt_add elsewhere, standingAt_add elsewhere]
    exact parted.roots isLate
  sound := Change.sound (.add isHelper ((parted.find?_eq here).trans fresh)) parted.sound
  partSound := Change.sound (.add isHelper fresh) parted.partSound
  restSound := parted.restSound

theorem Parted.not_mem_rest (parted : Parted side late whole part rest) (here : side name = true)
    : ∀ node ∈ rest.nodes, node.longname ≠ name := by
  intro node listed same
  rw [← parted.outside, List.mem_filter, same, here] at listed
  cases listed.2

theorem Parted.modify (parted : Parted side late whole part rest) (here : side name = true)
    {change : Node → Node} (keeps : ∀ node, (change node).longname = node.longname)
    (stays
      : ∀ node, part.find? name = some node → ((change node).place = .root ↔ node.place = .root))
    (sound : (whole.modify name change).Sound) (partSound : (part.modify name change).Sound)
    : Parted side late (whole.modify name change) (part.modify name change) rest where
  inside := by
    change (changeIn name change whole.nodes).filter _ = changeIn name change part.nodes
    rw [filter_changeIn fun node _ _ => by rw [keeps], parted.inside]
  outside := by
    change (changeIn name change whole.nodes).filter _ = rest.nodes
    rw [filter_changeIn fun node _ _ => by rw [keeps], parted.outside]
    exact changeIn_of_not_mem (parted.not_mem_rest here)
  warnings := parted.warnings
  roots isLate := by
    simp only [Forest.roots]
    rw [standingAt_modify parted.sound.distinct (parted.find?_eq here ▸ stays),
      standingAt_modify parted.partSound.distinct stays]
    change changeIn name change whole.roots = rest.roots ++ changeIn name change part.roots
    rw [parted.roots isLate, changeIn, List.map_append]
    congr 1
    exact changeIn_of_not_mem fun node listed =>
      parted.not_mem_rest here node (mem_standingAt.mp listed).1
  sound := sound
  partSound := partSound
  restSound := parted.restSound

theorem Parted.moveLast (parted : Parted side late whole part rest) (here : side name = true)
    {change : Node → Node} (keeps : ∀ node, (change node).longname = node.longname)
    (loose : part.stands name = false)
    (sound : (whole.moveLast name change).Sound) (partSound : (part.moveLast name change).Sound)
    : Parted side late (whole.moveLast name change) (part.moveLast name change) rest := by
  cases found : part.find? name with
  | none => simpa [Forest.moveLast, parted.find?_eq here, found] using parted
  | some node =>
      have wholeFound := (parted.find?_eq here).trans found
      have name_eq := longname_of_find? found
      have nodeLoose : node.place ≠ .root := by
        intro place
        simp [stands, found, place] at loose
      refine ⟨?_, ?_, by simpa using parted.warnings, fun isLate => ?_, sound, partSound,
        parted.restSound⟩
      · rw [nodes_moveLast wholeFound, nodes_moveLast found, List.filter_append, without_eq_filter,
          parted.inside]
        simp [keeps, name_eq, here, without]
      · rw [nodes_moveLast wholeFound, List.filter_append, without_eq_filter, parted.outside,
          List.filter_eq_self.mpr fun other listed => by
            simpa using parted.not_mem_rest here other listed]
        simp [keeps, name_eq, here]
      · simp only [Forest.roots]
        rw [standingAt_moveLast parted.sound.distinct wholeFound nodeLoose,
          standingAt_moveLast parted.partSound.distinct found nodeLoose, ← List.append_assoc]
        exact congrArg (· ++ _) (parted.roots isLate)

theorem putBehind_append {helper : Node} {front back : List Node}
    (absent : ∀ node ∈ front, node.longname ≠ name)
    : putBehind name helper (front ++ back) = front ++ putBehind name helper back := by
  induction front with
  | nil => rfl
  | cons node front ih =>
      have different := absent node List.mem_cons_self
      have below := ih fun other listed => absent other (List.mem_cons_of_mem _ listed)
      simp [putBehind, different, below]

theorem Parted.addBehind (parted : Parted side late whole part rest) {helped helper : Node}
    (here : side helped.longname = true) (helperHere : side helper.longname = true)
    (found : part.find? helped.longname = some helped)
    (sound : (whole.addBehind helped helper).Sound)
    (partSound : (part.addBehind helped helper).Sound)
    : Parted side late (whole.addBehind helped helper) (part.addBehind helped helper) rest := by
  have wholeFound := (parted.find?_eq here).trans found
  have sides (nodes : List Node) (take : String → Bool)
      (alike : take helper.longname = take helped.longname)
      : ∀ node ∈ nodes, node.longname = helped.longname →
          take (Forest.beside helped helper).longname = take node.longname := by
    intro node _ same
    rw [longname_beside, same, alike]
  refine ⟨?_, ?_, parted.warnings, fun isLate => ?_, sound, partSound, parted.restSound⟩
  · rw [nodes_addBehind, nodes_addBehind,
      filter_putBehind (sides _ side (by rw [here, helperHere])), parted.inside]
    simp [helperHere]
  · rw [nodes_addBehind, filter_putBehind
      (sides _ (fun name => !side name) (by rw [here, helperHere])), parted.outside]
    simp [helperHere]
  · simp only [Forest.roots]
    rw [standingAt_addBehind parted.sound.distinct wholeFound,
      standingAt_addBehind parted.partSound.distinct found]
    split
    · refine (congrArg _ (parted.roots isLate)).trans (putBehind_append fun node listed => ?_)
      exact parted.not_mem_rest here node (mem_standingAt.mp listed).1
    · exact parted.roots isLate

-----------------------------------------------------------------------------------------
-- Putting nodes on one side to their places
-----------------------------------------------------------------------------------------

theorem Parted.addRoot (parted : Parted side late whole part rest) (here : side name = true)
    : Parted side late (whole.addRoot name) (part.addRoot name) rest := by
  have sound := (addRoot_changes whole name).sound parted.sound
  have partSound := (addRoot_changes part name).sound parted.partSound
  unfold Forest.addRoot at sound partSound ⊢
  rw [parted.stands_eq here] at sound ⊢
  split
  · exact parted
  · rename_i loose
    rw [if_neg loose] at sound partSound
    exact parted.moveLast here (by simp) (by simpa using loose) sound partSound

theorem Parted.addRoots (parted : Parted side late whole part rest)
    (here : ∀ name ∈ names, side name = true)
    : Parted side late (whole.addRoots names) (part.addRoots names) rest := by
  induction names generalizing whole part with
  | nil => exact parted
  | cons name names ih =>
      exact ih (parted.addRoot (here name List.mem_cons_self))
        fun other listed => here other (List.mem_cons_of_mem _ listed)

theorem Parted.attach (parted : Parted side late whole part rest) (here : side name = true)
    (known : part.has parent = true)
    : Parted side late (whole.attach parent name) (part.attach parent name) rest := by
  have parentHere := parted.here known
  have sound : (whole.attach parent name).Sound :=
    attach_sound parted.sound ((parted.has_eq parentHere).trans known)
  have partSound : (part.attach parent name).Sound := attach_sound parted.partSound known
  unfold Forest.attach at sound partSound ⊢
  rw [parted.stands_eq here, parted.contains_above_eq parentHere] at sound ⊢
  split
  · exact parted.warn _
  · rename_i loose
    rw [if_neg loose] at sound partSound
    split
    · exact parted.warn _
    · rename_i apart
      rw [if_neg apart] at sound partSound
      exact parted.moveLast here (by simp) (by simpa using loose) sound partSound

theorem Parted.attachAll (parted : Parted side late whole part rest)
    (here : ∀ name ∈ names, side name = true) (known : part.has parent = true)
    : Parted side late (whole.attachAll parent names) (part.attachAll parent names) rest := by
  induction names generalizing whole part with
  | nil => exact parted
  | cons name names ih =>
      exact ih (parted.attach (here name List.mem_cons_self) known)
        (fun other listed => here other (List.mem_cons_of_mem _ listed)) (by rwa [has_attach])

-----------------------------------------------------------------------------------------
-- The helpers of a doclet on one side
-----------------------------------------------------------------------------------------

/-- Helpers are on the side of those that they help. -/
def Closed (side : String → Bool) : Prop :=
  ∀ name, side (interfaceHelper name) = side name ∧ side (namespaceHelper name) = side name

theorem Closed.interface (closed : Closed side) (here : side name = true)
    : side (interfaceHelper name) = true :=
  (closed name).1.trans here

theorem Closed.namespace (closed : Closed side) (here : side name = true)
    : side (namespaceHelper name) = true :=
  (closed name).2.trans here

theorem Parted.addInterface (parted : Parted side late whole part rest) (closed : Closed side)
    {doclet : Doclet} (here : side doclet.longname = true)
    : (whole.addInterface doclet).2 = (part.addInterface doclet).2
      ∧ Parted side late (whole.addInterface doclet).1 (part.addInterface doclet).1 rest := by
  have helperHere : side (interfaceOf doclet).longname = true := closed.interface here
  unfold Forest.addInterface
  dsimp only
  rw [parted.has_eq helperHere]
  split
  · exact ⟨rfl, parted⟩
  · rename_i absent
    simp only [Bool.or_eq_true, not_or] at absent
    exact ⟨rfl, parted.add (.interface doclet) helperHere (find?_of_not_has absent.2)⟩

theorem Parted.moveStatic (parted : Parted side late whole part rest) (here : side name = true)
    (known : part.has container = true)
    : Parted side late (moveStatic owner container whole name)
        (moveStatic owner container part name) rest := by
  have renamed
      : Parted side late (whole.modify name fun node => node.withMemberof (some container))
          (part.modify name fun node => node.withMemberof (some container)) rest :=
    parted.modify here (by simp) (fun _ _ => Iff.rfl)
      (Change.sound (.rename name container) parted.sound)
      (Change.sound (.rename name container) parted.partSound)
  have renamedKnown := Changes.has (.single (.rename name container)) known
  unfold Forest.moveStatic
  dsimp only
  rw [renamed.parent?_eq here]
  split
  · rename_i under
    obtain ⟨other, otherFound, place⟩ := parent?_eq_some_iff.mp under
    have detached := Changes.has (.single (.detach name)) renamedKnown
    refine Parted.attach (renamed.modify here (fun _ => rfl) (fun node found => ?_)
      (Change.sound (.detach name) renamed.sound)
      (Change.sound (.detach name) renamed.partSound)) here detached
    cases found.symm.trans otherFound
    simp [place]
  · exact renamed

theorem Parted.foldl_moveStatic (parted : Parted side late whole part rest)
    (here : ∀ name ∈ names, side name = true) (known : part.has container = true)
    : Parted side late (names.foldl (Forest.moveStatic owner container) whole)
        (names.foldl (Forest.moveStatic owner container) part) rest := by
  induction names generalizing whole part with
  | nil => exact parted
  | cons name names ih =>
      exact ih (parted.moveStatic (here name List.mem_cons_self) known)
        (fun other listed => here other (List.mem_cons_of_mem _ listed)) (has_moveStatic _ _ known)

/-- No node among `names` that is on the other side is a member of `owner`. -/
def Strangers (side : String → Bool) (names : List String) (rest : Forest) (owner : String)
    : Prop :=
  ∀ name ∈ names, side name = false → rest.memberof? name ≠ some owner

/-- The static members of what is on one side are those in the part there. -/
theorem Parted.statics_eq (parted : Parted side late whole part rest)
    (same : names.filter side = own) (strangers : Strangers side names rest owner)
    : whole.statics names owner = part.statics own owner := by
  rw [Forest.statics, Forest.statics, ← same, List.filter_filter]
  refine List.filter_congr fun name listed => ?_
  cases nameHere : side name with
  | true => rw [parted.find?_eq nameHere, Bool.and_true]
  | false =>
      have otherHere : (!side name) = true := by simp [nameHere]
      have found := parted.swap.find?_eq otherHere
      rw [found, Bool.and_false]
      cases known : rest.find? name with
      | none => rfl
      | some node =>
          have apart := strangers name listed nameHere
          simp only [memberof?, known, Option.bind_some] at apart
          simp [apart]

theorem Parted.moveStatics (parted : Parted side late whole part rest) (closed : Closed side)
    (same : names.filter side = own) {doclet : Doclet} (here : side doclet.longname = true)
    (strangers : Strangers side names rest doclet.longname)
    : Parted side late (whole.moveStatics names doclet) (part.moveStatics own doclet) rest := by
  have containerHere := closed.namespace here
  have membersHere : ∀ name ∈ part.statics own doclet.longname, side name = true := by
    intro name listed
    have isOwn : name ∈ own := (List.mem_filter.mp listed).1
    rw [← same] at isOwn
    exact (List.mem_filter.mp isOwn).2
  unfold Forest.moveStatics
  dsimp only
  rw [parted.statics_eq same strangers, parted.has_eq containerHere]
  split
  · exact parted
  · split
    · rename_i known
      exact parted.foldl_moveStatic membersHere known
    · rename_i absent
      exact (parted.add (.namespace doclet doclet.scope) containerHere
        (find?_of_not_has absent)).foldl_moveStatic membersHere has_add

theorem Parted.addHelpers (parted : Parted side late whole part rest) (closed : Closed side)
    (same : names.filter side = own) {doclet : Doclet} (here : side doclet.longname = true)
    (strangers : Strangers side names rest doclet.longname)
    : (whole.addHelpers names doclet).2 = (part.addHelpers own doclet).2
      ∧ Parted side late (whole.addHelpers names doclet).1 (part.addHelpers own doclet).1 rest := by
  obtain ⟨interfaces, begun⟩ := parted.addInterface closed here
  have moved := begun.moveStatics closed same here strangers
  have containerHere := closed.namespace here
  unfold Forest.addHelpers
  dsimp only
  refine ⟨?_, moved⟩
  rw [interfaces, waitingNamespace, waitingNamespace, moved.has_eq containerHere,
    moved.stands_eq containerHere]

theorem addHelpers_here (closed : Closed side) {doclet : Doclet}
    (here : side doclet.longname = true)
    : ∀ name ∈ (forest.addHelpers names doclet).2, side name = true := by
  intro name listed
  rcases eq_of_mem_addHelpers listed with rfl | rfl
  · exact closed.interface here
  · exact closed.namespace here

-----------------------------------------------------------------------------------------
-- Linking on one side
-----------------------------------------------------------------------------------------

theorem Parted.companion (parted : Parted side late whole part rest) (closed : Closed side)
    (here : side node.longname = true) (found : part.find? node.longname = some node)
    (classLike : node.doclet.kind.isClassLike = true)
    : (whole.companion node).2 = (part.companion node).2
      ∧ Parted side late (whole.companion node).1 (part.companion node).1 rest := by
  have helperHere : side (namespaceOf node.doclet (some .static)).longname = true :=
    closed.namespace here
  have wholeFound := (parted.find?_eq here).trans found
  unfold Forest.companion
  dsimp only
  rw [parted.has_eq helperHere]
  refine ⟨rfl, ?_⟩
  split
  · exact parted
  · rename_i absent
    have fresh := find?_of_not_has absent
    split
    · exact parted.add (.namespace _ _) helperHere fresh
    · rename_i stands
      exact parted.addBehind here helperHere found
        (Change.sound (.beside wholeFound classLike stands
          ((parted.find?_eq helperHere).trans fresh)) parted.sound)
        (Change.sound (.beside found classLike stands fresh) parted.partSound)

theorem Parted.linkUnder (parted : Parted side late whole part rest) (closed : Closed side)
    (here : side node.longname = true) (found : part.find? node.longname = some node)
    {doclet : Doclet} (docletHere : side doclet.longname = true) {helpers : List String}
    (helpersHere : ∀ name ∈ helpers, side name = true)
    : Parted side late (whole.linkUnder node helpers doclet) (part.linkUnder node helpers doclet)
        rest := by
  have allHere : ∀ name ∈ helpers ++ [doclet.longname], side name = true := by
    intro name listed
    rcases List.mem_append.mp listed with helper | isDoclet
    · exact helpersHere name helper
    · exact List.mem_singleton.mp isDoclet ▸ docletHere
  unfold Forest.linkUnder
  split
  · rename_i moves
    obtain ⟨container, moved⟩ :=
      parted.companion closed here found (Bool.and_eq_true_iff.mp moves).1
    dsimp only
    rw [container]
    exact moved.attachAll allHere (has_companion found)
  · split
    · exact parted.addRoots helpersHere
    · dsimp only
      split
      · refine Parted.attachAll (parted.modify docletHere (fun _ => rfl) (fun _ _ => Iff.rfl)
          (Change.sound (.nest _) parted.sound) (Change.sound (.nest _) parted.partSound)) allHere
          (Changes.has (.single (.nest _)) (has_of_find? found))
      · exact parted.attachAll allHere (has_of_find? found)

/-- Linking what is on one side does the same to the part there, and nothing to the rest. -/
theorem Parted.link (parted : Parted side late whole part rest) (closed : Closed side)
    (same : names.filter side = own) (here : side name = true)
    (strangers : Strangers side names rest name)
    (parents
      : ∀ node,
          part.find? name = some node
          → ∀ upper,
              (part.addHelpers own node.doclet).1.memberof? name = some upper
              → side upper = true ∨ rest.has upper = false)
    : Parted side late (link names whole name) (link own part name) rest := by
  unfold Forest.link
  rw [parted.find?_eq here]
  cases found : part.find? name with
  | none => exact parted
  | some node =>
      have isName : node.doclet.longname = name := longname_of_find? found
      have nodeHere : side node.doclet.longname = true := isName ▸ here
      obtain ⟨helpers, helped⟩ :=
        parted.addHelpers closed same nodeHere (isName ▸ strangers)
      have helpersHere : ∀ helper ∈ (part.addHelpers own node.doclet).2, side helper = true :=
        addHelpers_here closed nodeHere
      have upperHere := parents node found
      dsimp only
      rw [helpers, helped.memberof?_eq here]
      generalize (whole.addHelpers names node.doclet).1 = wholeNext at *
      generalize part.addHelpers own node.doclet = partNext at *
      have allHere : ∀ other ∈ partNext.2 ++ [name], side other = true := by
        intro other listed
        rcases List.mem_append.mp listed with helper | isName
        · exact helpersHere other helper
        · rwa [List.mem_singleton.mp isName]
      cases names : partNext.1.memberof? name with
      | none => exact helped.addRoots allHere
      | some upper =>
          cases side_eq : side upper with
          | true =>
              simp only [helped.find?_eq side_eq]
              cases parentFound : partNext.1.find? upper with
              | none => exact helped.warn _
              | some parent =>
                  have isUpper := longname_of_find? parentFound
                  exact helped.linkUnder closed (isUpper ▸ side_eq) (isUpper ▸ parentFound) nodeHere
                    helpersHere
          | false =>
              have unlisted := (upperHere upper names).resolve_left (by simp [side_eq])
              have wholeAbsent : wholeNext.find? upper = none := by
                rw [helped.swap.find?_eq (by simp [side_eq])]
                exact find?_of_not_has (by simp [unlisted])
              have partAbsent : partNext.1.find? upper = none := by
                refine find?_of_not_has fun known => ?_
                exact nomatch (helped.here known).symm.trans side_eq
              simp only [wholeAbsent, partAbsent]
              exact helped.warn _

end Typings.Forest
