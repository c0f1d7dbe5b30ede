import Typings.Proofs.Forest.Located
import Typings.Proofs.Forest.Parting

/-! Doclets that are interleaved with others that have nothing to do with them are linked as they
are without those.
-/

namespace Typings

-----------------------------------------------------------------------------------------
-- Interleaved lists
-----------------------------------------------------------------------------------------

/-- The list `both` holds the items of two others, those of each in their order. -/
inductive Interleaves {α : Type} : List α → List α → List α → Prop
  | nil : Interleaves [] [] []
  | left {item : α} {left right both : List α} (rest : Interleaves left right both)
    : Interleaves (item :: left) right (item :: both)
  | right {item : α} {left right both : List α} (rest : Interleaves left right both)
    : Interleaves left (item :: right) (item :: both)

namespace Interleaves

variable {α β : Type} {left right both : List α}

theorem swap (interleaves : Interleaves left right both) : Interleaves right left both := by
  induction interleaves with
  | nil => exact .nil
  | left _ ih => exact .right ih
  | right _ ih => exact .left ih

theorem append (left right : List α) : Interleaves left right (left ++ right) := by
  induction left with
  | nil =>
      induction right with
      | nil => exact .nil
      | cons item right ih => exact .right ih
  | cons item left ih => exact .left ih

theorem filter (interleaves : Interleaves left right both) (test : α → Bool)
    : Interleaves (left.filter test) (right.filter test) (both.filter test) := by
  induction interleaves with
  | nil => exact .nil
  | @left item _ _ _ _ ih =>
      cases passes : test item with
      | true => simpa [List.filter_cons, passes] using ih.left
      | false => simpa [List.filter_cons, passes] using ih
  | @right item _ _ _ _ ih =>
      cases passes : test item with
      | true => simpa [List.filter_cons, passes] using ih.right
      | false => simpa [List.filter_cons, passes] using ih

theorem map (interleaves : Interleaves left right both) (f : α → β)
    : Interleaves (left.map f) (right.map f) (both.map f) := by
  induction interleaves with
  | nil => exact .nil
  | left _ ih => exact .left ih
  | right _ ih => exact .right ih

/-- A test that tells the items of the two lists apart gives the first one back. -/
theorem filter_eq_left (interleaves : Interleaves left right both) {test : α → Bool}
    (takes : ∀ item ∈ left, test item = true) (leaves : ∀ item ∈ right, test item = false)
    : both.filter test = left := by
  induction interleaves with
  | nil => rfl
  | left _ ih =>
      rw [List.filter_cons_of_pos (takes _ List.mem_cons_self),
        ih (fun item listed => takes item (List.mem_cons_of_mem _ listed)) leaves]
  | right _ ih =>
      rw [List.filter_cons_of_neg (by simp [leaves _ List.mem_cons_self]),
        ih takes fun item listed => leaves item (List.mem_cons_of_mem _ listed)]

end Interleaves

namespace Forest

variable {side : String → Bool} {late : Prop} {settings : Settings}
variable {left right both others mine : List Doclet} {names done otherDone : List String}
variable {whole part rest : Forest} {doclet other : Doclet} {name : String}

-----------------------------------------------------------------------------------------
-- Doclets that have nothing to do with each other
-----------------------------------------------------------------------------------------

/-- No doclet of one list has the longname of one of the other, or is a member of that. -/
def Unrelated (left right : List Doclet) : Prop :=
  ∀ doclet ∈ left,
    ∀ other ∈ right,
      doclet.longname ≠ other.longname
      ∧ doclet.memberof ≠ some other.longname
      ∧ other.memberof ≠ some doclet.longname

theorem Unrelated.swap (unrelated : Unrelated left right) : Unrelated right left := by
  intro other otherMember doclet member
  obtain ⟨different, noParent, noChild⟩ := unrelated doclet member other otherMember
  exact ⟨Ne.symm different, noChild, noParent⟩

theorem Unrelated.mono (unrelated : Unrelated left right) {few fewer : List Doclet}
    (subset : few ⊆ left) (otherSubset : fewer ⊆ right)
    : Unrelated few fewer :=
  fun doclet member other otherMember =>
    unrelated doclet (subset member) other (otherSubset otherMember)

/-- The first doclets of each longname stay without a longname that none of them has. -/
theorem filter_firsts_of_apart (apart : ∀ other ∈ others, other.longname ≠ name)
    : (firsts others).filter (fun other => other.longname != name) = firsts others :=
  List.filter_eq_self.mpr fun other listed => by
    simpa using apart other ((firsts_sublist _).subset listed)

/-- The first of each longname are the same when the doclets are interleaved with others that have
other longnames.
-/
theorem interleaves_firsts (interleaves : Interleaves left right both)
    (unrelated : Unrelated left right)
    : Interleaves (firsts left) (firsts right) (firsts both) := by
  induction interleaves with
  | nil => exact .nil
  | @left doclet left right both _ ih =>
      have below := (ih (unrelated.mono (List.subset_cons_self _ _) fun _ => id)).filter
        fun other => other.longname != doclet.longname
      rw [filter_firsts_of_apart fun other listed =>
        Ne.symm (unrelated doclet List.mem_cons_self other listed).1] at below
      exact .left below
  | @right doclet left right both _ ih =>
      have below := (ih (unrelated.mono (fun _ => id) (List.subset_cons_self _ _))).filter
        fun other => other.longname != doclet.longname
      rw [filter_firsts_of_apart fun other listed =>
        (unrelated other listed doclet List.mem_cons_self).1] at below
      exact .right below

theorem firsts_append (unrelated : Unrelated left right)
    : firsts (left ++ right) = firsts left ++ firsts right := by
  induction left with
  | nil => rfl
  | cons doclet left ih =>
      have below := ih (unrelated.mono (List.subset_cons_self _ _) fun _ => id)
      rw [List.cons_append, firsts, below, List.filter_append, filter_firsts_of_apart
        fun other listed => Ne.symm (unrelated doclet List.mem_cons_self other listed).1]
      rfl

theorem interleaves_survivors (settings : Settings) (interleaves : Interleaves left right both)
    (unrelated : Unrelated left right)
    : Interleaves (survivors settings left) (survivors settings right)
        (survivors settings both) :=
  interleaves_firsts (interleaves.filter settings.admits)
    (unrelated.mono List.filter_sublist.subset List.filter_sublist.subset)

theorem survivors_append (settings : Settings) (unrelated : Unrelated left right)
    : survivors settings (left ++ right) = survivors settings left ++ survivors settings right := by
  rw [survivors, List.filter_append]
  exact firsts_append (unrelated.mono List.filter_sublist.subset List.filter_sublist.subset)

/-- The doclets `mine` are on one side, with all that helps them, and `others` are on the other one.
Among `names` are the longnames of both, those of each in their order.
-/
structure Sides (side : String → Bool) (names : List String) (mine others : List Doclet)
    : Prop where
  closed : Closed side
  mine_eq : names.filter side = mine.map Doclet.longname
  others_eq : names.filter (fun name => !side name) = others.map Doclet.longname
  plain : Plain mine
  othersPlain : Plain others
  distinct : (mine.map Doclet.longname).Nodup
  othersDistinct : (others.map Doclet.longname).Nodup
  unrelated : Unrelated mine others

theorem Sides.swap (sides : Sides side names mine others)
    : Sides (fun name => !side name) names others mine where
  closed name := by simp [sides.closed name]
  mine_eq := sides.others_eq
  others_eq := by simpa using sides.mine_eq
  plain := sides.othersPlain
  othersPlain := sides.plain
  distinct := sides.othersDistinct
  othersDistinct := sides.distinct
  unrelated := sides.unrelated.swap

theorem Sides.here (sides : Sides side names mine others) (member : doclet ∈ mine)
    : side doclet.longname = true := by
  have listed := longname_mem member
  rw [← sides.mine_eq] at listed
  exact (List.mem_filter.mp listed).2

-----------------------------------------------------------------------------------------
-- What the nodes of unrelated doclets name
-----------------------------------------------------------------------------------------

/-- No doclet on the other side is a member of one on this side. -/
theorem Sides.strangers (sides : Sides side names mine others)
    (settled : SettledUpTo others otherDone rest) (member : doclet ∈ mine)
    : Strangers side names rest doclet.longname := by
  intro name listed elsewhere isMember
  have isOther : name ∈ others.map Doclet.longname := by
    rw [← sides.others_eq]
    exact List.mem_filter.mpr ⟨listed, by simp [elsewhere]⟩
  obtain ⟨other, otherMember, rfl⟩ := List.mem_map.mp isOther
  obtain ⟨node, found, own⟩ := settled.charted.own other otherMember
  obtain ⟨memberof, doclet_eq, named⟩ := own.doclet_eq
  have same : memberof = some doclet.longname := by
    simpa [memberof?, found, doclet_eq] using isMember
  cases named with
  | own _ => exact (sides.unrelated doclet member other otherMember).2.2 same
  | moved _ _ => exact sides.plain.namespaceHelper_ne member _ (Option.some.inj same)

/-- The parent that a doclet names once it has its helpers is on its side, or is not there. -/
theorem Sides.parents (sides : Sides side names mine others)
    (settled : SettledUpTo mine done part) (restSettled : SettledUpTo others otherDone rest)
    (member : doclet ∈ mine) (upTo : UpTo mine done doclet)
    : ∀ node,
        part.find? doclet.longname = some node
        → ∀ upper,
            (part.addHelpers (mine.map Doclet.longname) node.doclet).1.memberof? doclet.longname
                = some upper
            → side upper = true ∨ rest.has upper = false := by
  intro node found upper asked
  obtain ⟨start, startFound, isStart⟩ := settled.charted.own doclet member
  cases startFound.symm.trans found
  obtain ⟨memberof, doclet_eq, _⟩ := isStart.doclet_eq
  rw [doclet_eq] at asked
  obtain ⟨prepared, _⟩ := settled.charted.addHelpers settled.supplied settled.sound sides.plain
    sides.distinct member upTo memberof
  obtain ⟨own, ownFound, isOwn⟩ := prepared.charted.own doclet member
  obtain ⟨later, later_eq, named⟩ := isOwn.doclet_eq
  have same : later = some upper := by simpa [memberof?, ownFound, later_eq] using asked
  cases named with
  | moved link _ =>
      left
      rw [← Option.some.inj same]
      exact sides.closed.namespace (sides.here link.1)
  | own _ =>
      right
      rw [Bool.eq_false_iff]
      intro known
      obtain ⟨owner, ownerMember, belongs⟩ := restSettled.belongs known
      have noHelper := (sides.plain doclet member).2 upper same
      have isOwner : upper = owner.longname :=
        belongs.resolve_right fun helps => noHelper ⟨_, helps⟩
      exact (sides.unrelated doclet member owner ownerMember).2.1 (isOwner ▸ same)

-----------------------------------------------------------------------------------------
-- Linking one after the other
-----------------------------------------------------------------------------------------

/-- Linking a doclet links it in the part on its side. -/
theorem Parted.linkDoclet (parted : Parted side late whole part rest)
    (sides : Sides side names mine others) (settled : SettledUpTo mine done part)
    (restSettled : SettledUpTo others otherDone rest) (member : doclet ∈ mine)
    (upTo : UpTo mine done doclet)
    : Parted side late (Forest.link names whole doclet.longname)
        (Forest.link (mine.map Doclet.longname) part doclet.longname) rest :=
  parted.link sides.closed sides.mine_eq (sides.here member)
    (sides.strangers restSettled member)
    (sides.parents settled restSettled member upTo)

/-- Linking doclets of one side one after the other links them in the part there, by induction on
the doclets left.
-/
theorem Parted.links (parted : Parted side late whole part rest)
    (sides : Sides side names mine others) {front back : List Doclet} (split : mine = front ++ back)
    (settled : SettledUpTo mine (front.map Doclet.longname).reverse part)
    (restSettled : SettledUpTo others otherDone rest)
    : Parted side late
        ((back.map Doclet.longname).foldl (Forest.link names) whole)
        ((back.map Doclet.longname).foldl (Forest.link (mine.map Doclet.longname)) part)
        rest := by
  induction back generalizing front whole part with
  | nil => exact parted
  | cons doclet back ih =>
      have member : doclet ∈ mine := split ▸ List.mem_append_right _ List.mem_cons_self
      have upTo := upTo_of_split split sides.distinct
      have next := settled.link sides.plain sides.distinct member upTo
      have rest_split : mine = (front ++ [doclet]) ++ back := by simp [split]
      exact ih (parted.linkDoclet sides settled restSettled member upTo) rest_split
        (by simpa using next)

/-- Linking interleaved doclets links each of them in the part on its side, by induction on how they
are interleaved.
-/
theorem Parted.links_interleaved {leftBack rightBack bothBack : List Doclet}
    (interleaves : Interleaves leftBack rightBack bothBack)
    (parted : Parted side False whole part rest) (sides : Sides side names mine others)
    {leftFront rightFront : List Doclet}
    (split : mine = leftFront ++ leftBack) (otherSplit : others = rightFront ++ rightBack)
    (settled : SettledUpTo mine (leftFront.map Doclet.longname).reverse part)
    (restSettled : SettledUpTo others (rightFront.map Doclet.longname).reverse rest)
    : Parted side False
        ((bothBack.map Doclet.longname).foldl (Forest.link names) whole)
        ((leftBack.map Doclet.longname).foldl (Forest.link (mine.map Doclet.longname)) part)
        ((rightBack.map Doclet.longname).foldl (Forest.link (others.map Doclet.longname))
          rest) := by
  induction interleaves generalizing leftFront rightFront whole part rest with
  | nil => exact parted
  | @left doclet left _ _ _ ih =>
      have member : doclet ∈ mine := split ▸ List.mem_append_right _ List.mem_cons_self
      have upTo := upTo_of_split split sides.distinct
      have next := settled.link sides.plain sides.distinct member upTo
      have rest_split : mine = (leftFront ++ [doclet]) ++ left := by simp [split]
      exact ih (parted.linkDoclet sides settled restSettled member upTo) rest_split otherSplit
        (by simpa using next) restSettled
  | @right doclet _ right _ _ ih =>
      have member : doclet ∈ others := otherSplit ▸ List.mem_append_right _ List.mem_cons_self
      have upTo := upTo_of_split otherSplit sides.othersDistinct
      have next := restSettled.link sides.othersPlain sides.othersDistinct member upTo
      have linked := (parted.swap.linkDoclet sides.swap restSettled settled member upTo).swap
      simp only [Bool.not_not] at linked
      have rest_split : others = (rightFront ++ [doclet]) ++ right := by simp [otherSplit]
      exact ih linked split rest_split settled (by simpa using next)

-----------------------------------------------------------------------------------------
-- From the first doclet to the last
-----------------------------------------------------------------------------------------

/-- The longname of one of the doclets, of a helper of it, or of a helper of a helper. -/
inductive Stems (doclets : List Doclet) : String → Prop
  | doclet {doclet : Doclet} (member : doclet ∈ doclets) : Stems doclets doclet.longname
  | interface {name : String} (stems : Stems doclets name) : Stems doclets (interfaceHelper name)
  | namespace {name : String} (stems : Stems doclets name) : Stems doclets (namespaceHelper name)

open Classical in
/-- The side of what stems from the doclets. -/
noncomputable def sideOf (doclets : List Doclet) (name : String) : Bool :=
  decide (Stems doclets name)

theorem sideOf_iff : sideOf left name = true ↔ Stems left name := by
  simp [sideOf]

theorem stems_interfaceHelper_iff (plain : Plain left)
    : Stems left (interfaceHelper name) ↔ Stems left name := by
  refine ⟨fun stems => ?_, .interface⟩
  generalize helper_eq : interfaceHelper name = helper at stems
  cases stems with
  | doclet member => exact absurd helper_eq (plain.interfaceHelper_ne member _)
  | interface stems => exact interfaceHelper_injective helper_eq ▸ stems
  | «namespace» _ => exact absurd helper_eq (interfaceHelper_ne_namespaceHelper _ _)

theorem stems_namespaceHelper_iff (plain : Plain left)
    : Stems left (namespaceHelper name) ↔ Stems left name := by
  refine ⟨fun stems => ?_, .namespace⟩
  generalize helper_eq : namespaceHelper name = helper at stems
  cases stems with
  | doclet member => exact absurd helper_eq (plain.namespaceHelper_ne member _)
  | interface _ => exact absurd helper_eq.symm (interfaceHelper_ne_namespaceHelper _ _)
  | «namespace» stems => exact namespaceHelper_injective helper_eq ▸ stems

/-- A plain longname only stems from the doclet that has it. -/
theorem Stems.of_plain (stems : Stems left name) (plain : ¬ Reserved name)
    : ∃ doclet ∈ left, doclet.longname = name := by
  cases stems with
  | doclet member => exact ⟨_, member, rfl⟩
  | interface _ => exact absurd (reserved_interfaceHelper _) plain
  | «namespace» _ => exact absurd (reserved_namespaceHelper _) plain

theorem sides_of (interleaves : Interleaves left right both) (plain : Plain left)
    (rightPlain : Plain right) (unrelated : Unrelated left right)
    (distinct : (left.map Doclet.longname).Nodup)
    (rightDistinct : (right.map Doclet.longname).Nodup)
    : Sides (sideOf left) (both.map Doclet.longname) left right := by
  have takes : ∀ name ∈ left.map Doclet.longname, sideOf left name = true := by
    intro name listed
    obtain ⟨doclet, member, rfl⟩ := List.mem_map.mp listed
    exact sideOf_iff.mpr (.doclet member)
  have leaves : ∀ name ∈ right.map Doclet.longname, sideOf left name = false := by
    intro name listed
    obtain ⟨other, otherMember, rfl⟩ := List.mem_map.mp listed
    rw [Bool.eq_false_iff]
    intro stems
    obtain ⟨doclet, member, same⟩ :=
      (sideOf_iff.mp stems).of_plain (rightPlain other otherMember).1
    exact (unrelated doclet member other otherMember).1 same
  refine ⟨fun name => ?_, ?_, ?_, plain, rightPlain, distinct, rightDistinct, unrelated⟩
  · exact ⟨decide_eq_decide.mpr (stems_interfaceHelper_iff plain),
      decide_eq_decide.mpr (stems_namespaceHelper_iff plain)⟩
  · exact (interleaves.map _).filter_eq_left takes leaves
  · exact (interleaves.map _).swap.filter_eq_left (by simpa using leaves) (by simpa using takes)

/-- Before linking, the nodes of interleaved doclets are those of both lists. -/
theorem parted_scattered (interleaves : Interleaves left right both)
    (sides : Sides side (both.map Doclet.longname) left right)
    (distinct : (both.map Doclet.longname).Nodup)
    : Parted side False (scattered both) (scattered left) (scattered right) := by
  have nodes := interleaves.map fun doclet => ({ doclet } : Node)
  have takes : ∀ node ∈ (scattered left).nodes, side node.longname = true := by
    intro node listed
    obtain ⟨doclet, member, rfl⟩ := mem_nodes_scattered.mp listed
    exact sides.here member
  have leaves : ∀ node ∈ (scattered right).nodes, side node.longname = false := by
    intro node listed
    obtain ⟨doclet, member, rfl⟩ := mem_nodes_scattered.mp listed
    exact Bool.not_eq_true' _ ▸ sides.swap.here member
  refine ⟨?_, ?_, .nil, False.elim, scattered_sound distinct, scattered_sound sides.distinct,
    scattered_sound sides.othersDistinct⟩
  · exact nodes.filter_eq_left takes leaves
  · exact nodes.swap.filter_eq_left (fun node listed => by simp [leaves node listed])
      fun node listed => by simp [takes node listed]

/-- The forest of interleaved doclets is made of the forests of both lists. -/
theorem parted_linkAll (interleaves : Interleaves left right both)
    (sides : Sides side (both.map Doclet.longname) left right)
    (distinct : (both.map Doclet.longname).Nodup)
    : Parted side False (linkAll both) (linkAll left) (linkAll right) :=
  Parted.links_interleaved interleaves (parted_scattered interleaves sides distinct) sides
    (List.nil_append _).symm (List.nil_append _).symm (settled_scattered sides.distinct)
    (settled_scattered sides.othersDistinct)

/-- In the forest of doclets that follow others, the roots of those come first.
Witness: when the first ones are linked, no other node is a root, and later roots come behind.
-/
theorem roots_linkAll_append (sides : Sides side ((left ++ right).map Doclet.longname) left right)
    (distinct : ((left ++ right).map Doclet.longname).Nodup)
    : (linkAll (left ++ right)).roots = (linkAll left).roots ++ (linkAll right).roots := by
  have unlinked := settled_scattered sides.othersDistinct
  have first := (parted_scattered (.append left right) sides distinct).links sides
    (List.nil_append left).symm (settled_scattered sides.distinct) unlinked
  have noRoots : (scattered right).roots = [] := by
    refine List.filter_eq_nil_iff.mpr fun node listed => ?_
    obtain ⟨doclet, _, rfl⟩ := mem_nodes_scattered.mp listed
    exact nofun
  have second
      : Parted (fun name => !side name) True
          (((left.map Doclet.longname)).foldl (link ((left ++ right).map Doclet.longname))
            (scattered (left ++ right)))
          (scattered right) (linkAll left) :=
    { first.swap with
      roots := fun _ => by
        rw [noRoots, List.append_nil]
        exact first.roots_eq_part noRoots }
  have last := second.links sides.swap (List.nil_append right).symm unlinked
    (settled_linkAll sides.plain sides.distinct)
  have all := last.roots trivial
  rwa [← List.foldl_append, ← List.map_append] at all

/-- The forest of interleaved doclets is made of the forests of both lists. -/
theorem parted_ofDoclets (settings : Settings) (interleaves : Interleaves left right both)
    (plain : Plain left) (rightPlain : Plain right) (unrelated : Unrelated left right)
    : Parted (sideOf (survivors settings left)) False (ofDoclets settings both)
        (ofDoclets settings left) (ofDoclets settings right) := by
  have kept := interleaves_survivors settings interleaves unrelated
  have sides := sides_of kept (plain.survivors settings) (rightPlain.survivors settings)
    (unrelated.mono (fun _ => mem_of_mem_survivors) fun _ => mem_of_mem_survivors)
    (nodup_survivors settings left) (nodup_survivors settings right)
  exact parted_linkAll kept sides (nodup_survivors settings both)

theorem roots_ofDoclets_append (settings : Settings) (plain : Plain left)
    (rightPlain : Plain right) (unrelated : Unrelated left right)
    : (ofDoclets settings (left ++ right)).roots
      = (ofDoclets settings left).roots ++ (ofDoclets settings right).roots := by
  have sides := sides_of (.append (survivors settings left) (survivors settings right))
    (plain.survivors settings) (rightPlain.survivors settings)
    (unrelated.mono (fun _ => mem_of_mem_survivors) fun _ => mem_of_mem_survivors)
    (nodup_survivors settings left) (nodup_survivors settings right)
  have distinct := nodup_survivors settings (left ++ right)
  rw [survivors_append settings unrelated] at distinct
  rw [ofDoclets_eq, survivors_append settings unrelated]
  exact roots_linkAll_append sides distinct

end Forest

end Typings
