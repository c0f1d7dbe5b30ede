import Typings.Proofs.Arena.Changes
import Typings.Proofs.Forest.Survivors

/-! Linking doclets in an arena is linking them in the forest that it shows, one after the other and
from the first on.
-/

namespace Typings.Arena

open Forest (interfaceOf namespaceOf)

variable {names row : List String} {arena next start : Arena} {forest nextForest : Forest}
  {index child container parent : Nat} {indices : List Nat} {cell : Cell} {name owner key : String}

/-- The next arena keeps the longnames of cells, and shows the next forest. -/
structure Leads (names : List String) (arena next : Arena) (nextForest : Forest) : Prop where
  keeps : Keeps arena next
  shows : Shows names next nextForest

theorem Shows.leads (shows : Shows names arena forest) : Leads names arena arena forest :=
  ⟨.rfl, shows⟩

theorem Leads.trans {last : Arena} {lastForest : Forest}
    (first : Leads names arena next nextForest) (second : Leads names next last lastForest)
    : Leads names arena last lastForest :=
  ⟨first.keeps.trans second.keeps, second.shows⟩

/-- A line of steps, for cells on one side and for their longnames on the other, by induction on the
cells. What each step needs of the cells that are there at the start, it has later on.
-/
theorem foldl_leads {step : Arena → Nat → Arena} {change : Forest → String → Forest}
    (each
      : ∀ {arena forest index name},
          Keeps start arena
          → Shows names arena forest
          → arena.longname? index = some name
          → Leads names arena (step arena index) (change forest name))
    (keeps : Keeps start arena) (shows : Shows names arena forest)
    (alike : indices.map arena.longname? = row.map some)
    : Leads names arena (indices.foldl step arena) (row.foldl change forest) := by
  induction indices generalizing arena forest row with
  | nil =>
      cases List.map_eq_nil_iff.mp alike.symm
      exact shows.leads
  | cons index indices ih =>
      obtain ⟨name, row, rfl, named, rest⟩ := List.map_eq_cons_iff.mp alike.symm
      have first := each keeps shows named.symm
      rw [List.foldl_cons, List.foldl_cons]
      exact first.trans
        (ih (keeps.trans first.keeps) first.shows (first.keeps.map_longname? rest.symm))

-----------------------------------------------------------------------------------------
-- Putting cells to their places
-----------------------------------------------------------------------------------------

theorem Shows.pushRoots (shows : Shows names arena forest)
    (alike : indices.map arena.longname? = row.map some)
    : Leads names arena (arena.pushRoots indices) (forest.addRoots row) :=
  foldl_leads (fun _ shows named => ⟨(sameNames_pushRoot _ _).keeps, shows.pushRoot named⟩) .rfl
    shows alike

theorem Shows.attachAll (shows : Shows names arena forest)
    (ownerNamed : arena.longname? parent = some owner)
    (alike : indices.map arena.longname? = row.map some)
    : Leads names arena (arena.attachAll parent indices) (forest.attachAll owner row) :=
  foldl_leads
    (fun keeps shows named =>
      ⟨(sameNames_attach _ _ _).keeps, shows.attach (keeps parent owner ownerNamed) named⟩)
    .rfl shows alike

-----------------------------------------------------------------------------------------
-- Adding the helpers of a doclet
-----------------------------------------------------------------------------------------

theorem Shows.insertHelper (shows : Shows names arena forest) {helper : Node}
    (isHelper : Forest.IsHelper helper) (fresh : arena.lookup helper.longname = none)
    : Leads names arena (arena.insert helper.doclet helper.role).1 (forest.add helper)
      ∧ (arena.insert helper.doclet helper.role).1.longname? arena.cells.length
        = some helper.longname := by
  refine ⟨⟨keeps_insert _ _ _, ?_⟩, by rw [longname?_insert, if_pos rfl]; rfl⟩
  cases isHelper with
  | interface owner =>
      simpa [original?, interfaceOf] using shows.insert (some .interface) fresh
  | «namespace» owner scope =>
      simpa [original?, namespaceOf] using shows.insert (some .namespace) fresh

theorem Shows.mergeInterface (shows : Shows names arena forest) {owner : Doclet}
    (isClass : owner.kind = .class)
    : Leads names arena (arena.mergeInterface owner).1 (forest.addInterface owner).1
      ∧ (arena.mergeInterface owner).2.map (arena.mergeInterface owner).1.longname?
        = (forest.addInterface owner).2.map some := by
  have augments
      : (interfaceOf owner).doclet.augments.isEmpty
        = (owner.implements.isEmpty && owner.mixes.isEmpty) := by
    change (owner.implements ++ owner.mixes).isEmpty = _
    cases owner.implements <;> rfl
  unfold Arena.mergeInterface Forest.addInterface
  dsimp only
  rw [shows.lookup_isSome, augments, isClass]
  simp only [bne_self_eq_false, Bool.false_or]
  split
  · exact ⟨shows.leads, rfl⟩
  · rename_i absent
    have fresh : arena.lookup (interfaceOf owner).longname = none := by
      rw [← Option.not_isSome_iff_eq_none, shows.lookup_isSome]
      exact fun known => absent (Bool.or_eq_true_iff.mpr (.inr known))
    obtain ⟨leads, named⟩ := shows.insertHelper (.interface owner) fresh
    exact ⟨leads, congrArg ([·]) named⟩

/-- The longnames of cells that pass a test, picked by their place in the list. -/
theorem map_longname?_filter (arena : Arena) (test : Cell → Bool)
    : ((arena.cells.zipIdx.filter fun entry => test entry.1).map Prod.snd).map arena.longname?
      = (arena.cells.filter test).map fun cell => some cell.longname := by
  have unzip := List.zipIdx_map_fst 0 arena.cells
  conv => rhs; rw [← unzip, List.filter_map, List.map_map]
  rw [List.map_map]
  refine List.map_congr_left fun entry listed => ?_
  have found := List.mem_zipIdx_iff_getElem?.mp (List.mem_filter.mp listed).1
  exact longname?_of_cell found

/-- Names that pass a test, picked among cells that stand for doclets, by induction on the cells. -/
theorem map_filter_original? {test : Cell → Bool} {nameTest : String → Bool} {cells : List Cell}
    (alike
      : ∀ cell ∈ cells, test cell = (!cell.isHelper && nameTest cell.longname))
    : (cells.filter test).map (fun cell => some cell.longname)
      = ((cells.filterMap original?).filter nameTest).map some := by
  induction cells with
  | nil => rfl
  | cons cell cells ih =>
      obtain ⟨own, rest⟩ := List.forall_mem_cons.mp alike
      have tail := ih rest
      cases role : cell.role with
      | some role =>
          rw [List.filter_cons_of_neg (by simp [own, Cell.isHelper, role]),
            List.filterMap_cons_none (by rw [original?, role]), tail]
      | none =>
          have same : test cell = nameTest cell.longname := by simp [own, Cell.isHelper, role]
          rw [List.filterMap_cons_some (by rw [original?, role]), List.filter_cons,
            List.filter_cons, same]
          split
          · rw [List.map_cons, List.map_cons, tail]
          · exact tail

/-- The static members of a doclet are the same on both sides, cell by cell. -/
theorem Shows.map_statics (shows : Shows names arena forest) (owner : String)
    : (arena.statics owner).map arena.longname? = (forest.statics names owner).map some := by
  rw [Arena.statics, map_longname?_filter, Forest.statics, ← shows.originals]
  refine map_filter_original? fun cell listed => ?_
  obtain ⟨index, found⟩ := List.mem_iff_getElem?.mp listed
  rw [shows.find?_of_cell found, isStaticOf, Bool.and_assoc]
  rfl

theorem Shows.moveStatic (shows : Shows names arena forest) {index : Nat}
    (ownerNamed : arena.longname? index = some owner)
    (containerNamed : arena.longname? container = some key)
    (named : arena.longname? child = some name)
    : Leads names arena (Arena.moveStatic index container key arena child)
        (Forest.moveStatic owner key forest name) := by
  have renamed := shows.rename named key
  have same
      : SameNames arena (arena.modify child fun cell => cell.withMemberof (some key)) :=
    .modify child (by simp) (by simp)
  have ownerKept := same.keeps index owner ownerNamed
  have kept := same.keeps child name named
  unfold Arena.moveStatic Forest.moveStatic
  dsimp only
  have alike := renamed.parent?_eq_some_iff kept ownerKept
  by_cases under
      : (arena.modify child fun cell => cell.withMemberof (some key)).parent? child = some index
  · rw [if_pos under, if_pos (alike.mpr under)]
    have detached := sameNames_detach
      (arena.modify child fun cell => cell.withMemberof (some key)) index child
    have loose := renamed.detach ownerKept kept under
    have all := same.trans detached
    exact ⟨(all.trans (sameNames_attach _ _ _)).keeps,
      loose.attach (all.keeps container key containerNamed) (all.keeps child name named)⟩
  · rw [if_neg under, if_neg fun stood => under (alike.mp stood)]
    exact ⟨same.keeps, renamed⟩

/-- Static members move to a container one after the other. -/
theorem Shows.moveStatics (shows : Shows names arena forest) {index : Nat}
    (ownerNamed : arena.longname? index = some owner)
    (containerNamed : arena.longname? container = some key)
    (alike : indices.map arena.longname? = row.map some)
    : Leads names arena (indices.foldl (Arena.moveStatic index container key) arena)
        (row.foldl (Forest.moveStatic owner key) forest) :=
  foldl_leads
    (fun keeps shows named =>
      shows.moveStatic (keeps index owner ownerNamed) (keeps container key containerNamed) named)
    .rfl shows alike

theorem Shows.mergeNamespace (shows : Shows names arena forest) {owner : Doclet}
    (named : arena.longname? index = some owner.longname)
    (interfaceLike : owner.kind.isInterfaceLike = true)
    : Leads names arena (arena.mergeNamespace index owner)
        (forest.moveStatics names owner) := by
  have members := shows.map_statics owner.longname
  have empty
      : (arena.statics owner.longname).isEmpty
        = (forest.statics names owner.longname).isEmpty := by
    simpa using congrArg List.isEmpty members
  have known := shows.lookup_isSome (namespaceHelper owner.longname)
  unfold Arena.mergeNamespace Forest.moveStatics
  dsimp only
  rw [empty, interfaceLike]
  simp only [Bool.not_true, Bool.false_or]
  split
  · exact shows.leads
  · have helperName : (namespaceOf owner owner.scope).longname = namespaceHelper owner.longname :=
      rfl
    rw [helperName]
    cases listed : arena.lookup (namespaceHelper owner.longname) with
    | some container =>
        rw [if_pos (known ▸ listed ▸ rfl)]
        exact shows.moveStatics named ((shows.lookup_iff _ _).mp listed) members
    | none =>
        obtain ⟨added, containerNamed⟩ := shows.insertHelper (.namespace owner owner.scope) listed
        rw [if_neg (by rw [← known, listed]; nofun)]
        exact added.trans (added.shows.moveStatics (added.keeps _ _ named) containerNamed
          (added.keeps.map_longname? members))

theorem Shows.map_waitingNamespace (shows : Shows names arena forest) {owner : Doclet}
    (classLike : owner.kind.isClassLike = true)
    : (arena.waitingNamespace owner).map arena.longname?
      = (forest.waitingNamespace owner).map some := by
  have known := shows.lookup_isSome (namespaceHelper owner.longname)
  unfold Arena.waitingNamespace Forest.waitingNamespace
  dsimp only
  rw [classLike, ← known]
  cases listed : arena.lookup (namespaceHelper owner.longname) with
  | none => rfl
  | some helper =>
      have named := (shows.lookup_iff _ _).mp listed
      rw [shows.stands_eq named, Option.toList_some]
      cases stands : arena.placed helper <;> simp [stands, named]

/-- What is no class gets no interface. -/
theorem addInterface_of_ne {owner : Doclet} (other : owner.kind ≠ .class)
    : forest.addInterface owner = (forest, []) := by
  simp [Forest.addInterface, other]

theorem moveStatics_of_not {owner : Doclet} (other : owner.kind.isInterfaceLike = false)
    : forest.moveStatics names owner = forest := by
  simp [Forest.moveStatics, other]

theorem waitingNamespace_of_not {owner : Doclet} (other : owner.kind.isClassLike = false)
    : forest.waitingNamespace owner = [] := by
  simp [Forest.waitingNamespace, other]

theorem Shows.addHelpers (shows : Shows names arena forest) (owner : Doclet)
    (named : arena.longname? index = some owner.longname)
    : Leads names arena (arena.addHelpers index owner).1 (forest.addHelpers names owner).1
      ∧ (arena.addHelpers index owner).2.map (arena.addHelpers index owner).1.longname?
        = (forest.addHelpers names owner).2.map some := by
  have interfaces
      : Leads names arena
            (if owner.kind = .class then arena.mergeInterface owner else (arena, [])).1
            (forest.addInterface owner).1
        ∧ (if owner.kind = .class then arena.mergeInterface owner else (arena, [])).2.map
              (if owner.kind = .class then arena.mergeInterface owner else (arena, [])).1.longname?
          = (forest.addInterface owner).2.map some := by
    split
    · rename_i isClass
      exact shows.mergeInterface isClass
    · rename_i other
      rw [addInterface_of_ne other]
      exact ⟨shows.leads, rfl⟩
  unfold Arena.addHelpers Forest.addHelpers
  dsimp only
  generalize (if owner.kind = .class then arena.mergeInterface owner else (arena, []))
    = withInterface at interfaces ⊢
  obtain ⟨first, listed⟩ := interfaces
  have second
      : Leads names withInterface.1
          (if owner.kind.isInterfaceLike then withInterface.1.mergeNamespace index owner
            else withInterface.1)
          ((forest.addInterface owner).1.moveStatics names owner) := by
    split
    · rename_i interfaceLike
      exact first.shows.mergeNamespace (first.keeps _ _ named) interfaceLike
    · rename_i other
      rw [moveStatics_of_not (by simpa using other)]
      exact first.shows.leads
  generalize (if owner.kind.isInterfaceLike then withInterface.1.mergeNamespace index owner
      else withInterface.1) = withNamespace at second ⊢
  refine ⟨first.trans second, ?_⟩
  rw [List.map_append, List.map_append, second.keeps.map_longname? listed]
  congr 1
  split
  · rename_i classLike
    exact second.shows.map_waitingNamespace classLike
  · rename_i other
    rw [waitingNamespace_of_not (by simpa using other)]
    rfl

-----------------------------------------------------------------------------------------
-- Namespaces beside their owners
-----------------------------------------------------------------------------------------

/-- A new helper right behind the cell that it helps, which stands somewhere. -/
theorem Shows.insertBehind (shows : Shows names arena forest) {helper : Node}
    (isHelper : Forest.IsHelper helper) (fresh : arena.lookup helper.longname = none)
    (found : arena.cells[index]? = some cell) (stands : cell.placed = true)
    (sound : (forest.addBehind (arena.nodeOf cell) helper).Sound)
    : Leads names arena
          ((arena.insert helper.doclet helper.role).1.placeAfter index arena.cells.length)
          (forest.addBehind (arena.nodeOf cell) helper)
      ∧ ((arena.insert helper.doclet helper.role).1.placeAfter index
          arena.cells.length).longname? arena.cells.length
        = some helper.longname := by
  obtain ⟨⟨keeps, added⟩, named⟩ := shows.insertHelper isHelper fresh
  have kept := (sameNames_placeAfter (arena.insert helper.doclet helper.role).1 index
    arena.cells.length).keeps
  have anchorFound := cells_insert_of_cell found helper.doclet helper.role
  have ownFound
      : ∃ new,
          (arena.insert helper.doclet helper.role).1.cells[arena.cells.length]? = some new
          ∧ new.placed = false
          ∧ (arena.insert helper.doclet helper.role).1.nodeOf new = helper := by
    refine ⟨_, by rw [cells_insert, if_pos rfl], rfl, ?_⟩
    cases isHelper <;> rfl
  have nodeFound : forest.find? (arena.nodeOf cell).longname = some (arena.nodeOf cell) :=
    shows.find?_of_cell found
  have helped := shows.nodeOf_eq keeps found
  have absent := shows.find?_eq_none fresh
  refine ⟨⟨keeps.trans kept, ?_⟩, kept _ _ named⟩
  rw [← helped] at sound nodeFound ⊢
  generalize (arena.insert helper.doclet helper.role).1 = grown at *
  obtain ⟨new, newFound, loose, rfl⟩ := ownFound
  exact added.placeAfter sound shows.sound.distinct nodeFound absent anchorFound stands newFound
    loose

theorem Shows.companion (shows : Shows names arena forest)
    (found : arena.cells[index]? = some cell) (classLike : cell.doclet.kind.isClassLike = true)
    : Leads names arena (arena.companion index cell.doclet).1
          (forest.companion (arena.nodeOf cell)).1
      ∧ (arena.companion index cell.doclet).1.longname? (arena.companion index cell.doclet).2
        = some (forest.companion (arena.nodeOf cell)).2 := by
  have nodeFound : forest.find? (arena.nodeOf cell).longname = some (arena.nodeOf cell) :=
    shows.find?_of_cell found
  have sound : (forest.companion (arena.nodeOf cell)).1.Sound :=
    (Forest.companion_changes nodeFound classLike).sound shows.sound
  have known := shows.lookup_isSome (namespaceHelper cell.longname)
  have alike : cell.placed = true ↔ (arena.nodeOf cell).place ≠ .nowhere :=
    shows.placed_iff found
  have sameDoclet : (arena.nodeOf cell).doclet = cell.doclet := rfl
  have helperName
      : (namespaceOf cell.doclet (some .static)).longname = namespaceHelper cell.longname := rfl
  unfold Arena.companion
  unfold Forest.companion at sound ⊢
  rw [Doclet.Kind.isModuleLike_eq_false_of_isClassLike classLike, if_neg Bool.false_ne_true]
  dsimp only at sound ⊢
  rw [sameDoclet, helperName] at sound ⊢
  cases listed : arena.lookup (namespaceHelper cell.longname) with
  | some existing =>
      have present : forest.has (namespaceHelper cell.longname) = true := by
        rw [← known, listed]
        rfl
      rw [if_pos present]
      exact ⟨shows.leads, (shows.lookup_iff _ _).mp listed⟩
  | none =>
      have absent : ¬ forest.has (namespaceHelper cell.longname) = true := by
        rw [← known, listed]
        nofun
      let helper := namespaceOf cell.doclet (some .static)
      have anchorFound := cells_insert_of_cell found helper.doclet helper.role
      rw [if_neg absent] at sound ⊢
      dsimp only
      rw [placed_of_cell anchorFound]
      cases stands : cell.placed with
      | false =>
          have nowhere : (arena.nodeOf cell).place = .nowhere := by
            by_contra somewhere
            exact absurd (alike.mpr somewhere) (by simp [stands])
          rw [if_pos nowhere, if_neg Bool.false_ne_true]
          exact shows.insertHelper (.namespace cell.doclet (some .static)) listed
      | true =>
          rw [if_neg (alike.mp stands)] at sound ⊢
          rw [if_pos rfl]
          exact shows.insertBehind (.namespace cell.doclet (some .static)) listed found stands
            sound

-----------------------------------------------------------------------------------------
-- Linking one doclet, and one after the other
-----------------------------------------------------------------------------------------

theorem Shows.linkUnder (shows : Shows names arena forest)
    (found : arena.cells[parent]? = some cell)
    (helpers : indices.map arena.longname? = row.map some) {doclet : Doclet}
    (named : arena.longname? index = some doclet.longname)
    : Leads names arena (arena.linkUnder parent cell.doclet indices index doclet)
        (forest.linkUnder (arena.nodeOf cell) row doclet) := by
  have sameDoclet : (arena.nodeOf cell).doclet = cell.doclet := rfl
  have sameName : (arena.nodeOf cell).longname = cell.longname := rfl
  have all {next : Arena} (keeps : Keeps arena next)
      : (indices ++ [index]).map next.longname? = (row ++ [doclet.longname]).map some :=
    keeps.map_longname? (by simp [helpers, named])
  unfold Arena.linkUnder Forest.linkUnder
  dsimp only
  rw [sameDoclet, sameName]
  split
  · rename_i moves
    obtain ⟨made, containerNamed⟩ := shows.companion found (Bool.and_eq_true_iff.mp moves).1
    exact made.trans (made.shows.attachAll containerNamed (all made.keeps))
  · by_cases isEnum : cell.doclet.isEnum = true
    · rw [if_pos isEnum, if_pos isEnum, Doclet.isModuleLike_eq_false_of_isEnum isEnum,
        Bool.and_false, if_neg Bool.false_ne_true]
      exact shows.pushRoots helpers
    · rw [if_neg isEnum, if_neg isEnum]
      have flagged
          : Leads names arena
              (if doclet.kind.isModuleLike && cell.doclet.kind.isModuleLike then
                arena.modify index fun cell => { cell with nested := true } else arena)
              (if doclet.kind.isModuleLike && cell.doclet.kind.isModuleLike then
                forest.modify doclet.longname fun node => { node with nested := true }
              else forest) := by
        split
        · have same
              : SameNames arena (arena.modify index fun cell => { cell with nested := true }) :=
            .modify index (by intro _; rfl) (by intro _; rfl)
          exact ⟨same.keeps, shows.nest named⟩
        · exact shows.leads
      exact flagged.trans (flagged.shows.attachAll
        (flagged.keeps _ _ (longname?_of_cell found)) (all flagged.keeps))

/-- Linking one doclet in an arena is linking it in the forest that the arena shows. -/
theorem Shows.link (shows : Shows names arena forest)
    (named : arena.longname? index = some name)
    : Leads names arena (arena.link index) (Forest.link names forest name) := by
  obtain ⟨cell, found, rfl⟩ := longname?_eq_some_iff.mp named
  have sameDoclet : (arena.nodeOf cell).doclet = cell.doclet := rfl
  obtain ⟨helped, helpers⟩ := shows.addHelpers cell.doclet named
  unfold Arena.link Forest.link
  rw [found, shows.find?_of_cell found]
  dsimp only
  rw [sameDoclet]
  generalize arena.addHelpers index cell.doclet = next at helped helpers ⊢
  generalize forest.addHelpers names cell.doclet = nextForest at helped helpers ⊢
  have kept := helped.keeps _ _ named
  obtain ⟨own, ownFound, ownName⟩ := longname?_eq_some_iff.mp kept
  have memberof : nextForest.1.memberof? cell.longname = own.doclet.memberof := by
    rw [Forest.memberof?, ← ownName, helped.shows.find?_of_cell ownFound]
    rfl
  rw [memberof, ownFound, Option.bind_some]
  have all : (next.2 ++ [index]).map next.1.longname?
      = (nextForest.2 ++ [cell.longname]).map some := by
    simp [helpers, kept]
  cases own.doclet.memberof with
  | none => exact helped.trans (helped.shows.pushRoots all)
  | some memberof =>
      dsimp only
      cases listed : next.1.lookup memberof with
      | none =>
          rw [helped.shows.find?_eq_none listed]
          exact helped.trans ⟨.rfl, helped.shows.warn _⟩
      | some parent =>
          have parentNamed := (helped.shows.lookup_iff _ _).mp listed
          obtain ⟨owner, ownerFound, rfl⟩ := longname?_eq_some_iff.mp parentNamed
          rw [helped.shows.find?_of_cell ownerFound]
          dsimp only
          rw [ownerFound]
          exact helped.trans (helped.shows.linkUnder ownerFound helpers kept)

/-- Linking doclets one after the other. -/
theorem Shows.links (shows : Shows names arena forest)
    (alike : indices.map arena.longname? = row.map some)
    : Leads names arena (indices.foldl Arena.link arena) (row.foldl (Forest.link names) forest) :=
  foldl_leads (fun _ shows named => shows.link named) .rfl shows alike

-----------------------------------------------------------------------------------------
-- Before linking
-----------------------------------------------------------------------------------------

theorem shows_empty : Shows [] {} {} where
  sound := @Forest.scattered_sound [] .nil
  lookup_iff name index := by simp [lookup, longname?]
  finds name := rfl
  rows place _ := by cases place <;> rfl
  parents index parent under := by simp [parent?] at under
  originals := rfl
  warnings := rfl

/-- The first doclets of each longname that is not among `names`. -/
def others (names : List String) (doclets : List Doclet) : List Doclet :=
  (Forest.firsts doclets).filter fun doclet => !names.contains doclet.longname

theorem others_cons_of_mem {doclet : Doclet} (listed : doclet.longname ∈ names)
    (doclets : List Doclet)
    : others names (doclet :: doclets) = others names doclets := by
  rw [others, Forest.firsts, List.filter_cons_of_neg (by simpa using listed), List.filter_filter,
    others]
  refine List.filter_congr fun other _ => ?_
  by_cases same : other.longname = doclet.longname
  · simp [same, listed]
  · simp [same]

theorem others_cons_of_not_mem {doclet : Doclet} (fresh : doclet.longname ∉ names)
    (doclets : List Doclet)
    : others names (doclet :: doclets)
      = doclet :: others (names ++ [doclet.longname]) doclets := by
  rw [others, Forest.firsts, List.filter_cons_of_pos (by simpa using fresh), List.filter_filter,
    others]
  congr 1
  refine List.filter_congr fun other _ => ?_
  by_cases known : other.longname ∈ names <;> by_cases same : other.longname = doclet.longname <;>
    simp [known, same]

/-- Of further doclets those get a cell that are the first of a new longname, by induction on the
doclets.
-/
theorem Shows.addDoclets (shows : Shows names arena forest) (all : forest.longnames = names)
    (doclets : List Doclet)
    : Shows (names ++ (others names doclets).map Doclet.longname) (doclets.foldl addDoclet arena)
          { forest with
            nodes := forest.nodes ++ (others names doclets).map fun doclet => ({ doclet } : Node) }
      ∧ (doclets.foldl addDoclet arena).cells
        = arena.cells ++ (others names doclets).map fun doclet => ({ doclet } : Cell) := by
  induction doclets generalizing names arena forest with
  | nil => simpa [others, Forest.firsts] using shows
  | cons doclet doclets ih =>
      have known := shows.lookup_isSome doclet.longname
      rw [List.foldl_cons, addDoclet, known]
      by_cases listed : doclet.longname ∈ names
      · rw [if_pos (Forest.has_iff_mem.mpr (all ▸ listed)), others_cons_of_mem listed]
        exact ih shows all
      · have absent : ¬ forest.has doclet.longname = true := fun has =>
          listed (all ▸ Forest.has_iff_mem.mp has)
        rw [if_neg absent, others_cons_of_not_mem listed]
        have fresh : arena.lookup doclet.longname = none := by
          rw [← Option.not_isSome_iff_eq_none, known]
          exact absent
        have grown
            : Shows (names ++ [doclet.longname]) (arena.insert doclet none).1
                (forest.add { doclet }) :=
          shows.insert none fresh
        obtain ⟨added, cells⟩ := ih grown (by rw [Forest.longnames_add, all]; rfl)
        constructor
        · simpa [Forest.add] using added
        · rw [cells, List.map_cons]
          exact List.append_assoc _ _ _

theorem others_nil (doclets : List Doclet) : others [] doclets = Forest.firsts doclets := by
  simp [others]

/-- Before linking there is a cell for each survivor, in their order. -/
theorem cells_scattered (settings : Settings) (doclets : List Doclet)
    : (scattered settings doclets).cells
      = (Forest.survivors settings doclets).map fun doclet => ({ doclet } : Cell) := by
  have added := (shows_empty.addDoclets rfl (doclets.filter settings.admits)).2
  rw [others_nil] at added
  exact added

theorem shows_scattered (settings : Settings) (doclets : List Doclet)
    : Shows ((Forest.survivors settings doclets).map Doclet.longname) (scattered settings doclets)
        (Forest.scattered (Forest.survivors settings doclets)) := by
  have added := (shows_empty.addDoclets rfl (doclets.filter settings.admits)).1
  rw [others_nil] at added
  exact added

-----------------------------------------------------------------------------------------
-- Linking from the first doclet on
-----------------------------------------------------------------------------------------

/-- Linking the first doclets in an arena is linking them in the forest that the arena shows. -/
theorem linked_shows (settings : Settings) (doclets : List Doclet) {count : Nat}
    (inRange : count ≤ (scattered settings doclets).cells.length)
    : let names := (Forest.survivors settings doclets).map Doclet.longname
      Shows names ((List.range count).foldl link (scattered settings doclets))
        ((names.take count).foldl (Forest.link names)
          (Forest.scattered (Forest.survivors settings doclets))) := by
  intro names
  refine ((shows_scattered settings doclets).links ?_).shows
  have size : (scattered settings doclets).cells.length = names.length := by
    rw [cells_scattered, List.length_map, List.length_map]
  have named (index : Nat)
      : (scattered settings doclets).longname? index = names[index]? := by
    rw [longname?, cells_scattered, List.getElem?_map, List.getElem?_map, Option.map_map]
    rfl
  refine List.ext_getElem? fun index => ?_
  rw [List.getElem?_map, List.getElem?_map, List.getElem?_take]
  by_cases early : index < count
  · have listed : index < names.length := by omega
    simp [early, named, listed]
  · simp [early]

/-- The arena that doclets are linked in shows their forest. -/
theorem ofDoclets_shows (settings : Settings) (doclets : List Doclet)
    : Shows ((Forest.survivors settings doclets).map Doclet.longname) (ofDoclets settings doclets)
        (Forest.ofDoclets settings doclets) := by
  have all := linked_shows settings doclets (Nat.le_refl _)
  rw [cells_scattered, List.length_map] at all
  dsimp only at all
  rw [List.take_of_length_le (by simp)] at all
  rw [ofDoclets, cells_scattered, List.length_map]
  exact all

end Typings.Arena
