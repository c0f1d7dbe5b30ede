import Typings.Proofs.Forest.Lookup

/-! The doclets that a forest is made of: those that the settings admit, the first of each
longname.
-/

namespace Typings.Forest

/-- The doclets that come into the forest, in their order. -/
def survivors (settings : Settings) (doclets : List Doclet) : List Doclet :=
  firsts (doclets.filter settings.admits)

variable {settings : Settings} {doclets : List Doclet} {doclet : Doclet} {name : String}

theorem firsts_sublist (doclets : List Doclet) : (firsts doclets).Sublist doclets := by
  induction doclets with
  | nil => exact .slnil
  | cons doclet doclets ih => exact (List.filter_sublist.trans ih).cons_cons doclet

/-- No longname comes twice among the first doclets of each, by induction on the list. -/
theorem nodup_firsts (doclets : List Doclet)
    : ((firsts doclets).map Doclet.longname).Nodup := by
  induction doclets with
  | nil => exact .nil
  | cons doclet doclets ih =>
      refine List.nodup_cons.mpr ⟨?_, (List.filter_sublist.map _).nodup ih⟩
      intro again
      obtain ⟨other, member, same⟩ := List.mem_map.mp again
      simp [same] at member

theorem nodup_survivors (settings : Settings) (doclets : List Doclet)
    : ((survivors settings doclets).map Doclet.longname).Nodup :=
  nodup_firsts _

theorem admits_of_mem_survivors (member : doclet ∈ survivors settings doclets)
    : settings.admits doclet = true :=
  (List.mem_filter.mp ((firsts_sublist _).subset member)).2

theorem mem_of_mem_survivors (member : doclet ∈ survivors settings doclets) : doclet ∈ doclets :=
  (List.mem_filter.mp ((firsts_sublist _).subset member)).1

/-- Doclets with distinct longnames are all the first of their longname. -/
theorem firsts_of_nodup (distinct : (doclets.map Doclet.longname).Nodup)
    : firsts doclets = doclets := by
  induction doclets with
  | nil => rfl
  | cons doclet doclets ih =>
      obtain ⟨fresh, distinct⟩ := List.nodup_cons.mp distinct
      rw [firsts, ih distinct]
      congr 1
      refine List.filter_eq_self.mpr fun other member => ?_
      have different : other.longname ≠ doclet.longname := fun same =>
        fresh (same ▸ List.mem_map_of_mem member)
      simpa using different

theorem survivors_of_nodup (settings : Settings) (distinct : (doclets.map Doclet.longname).Nodup)
    : survivors settings doclets = doclets.filter settings.admits :=
  firsts_of_nodup ((List.filter_sublist.map _).nodup distinct)

/-- The order of doclets with distinct longnames does not matter for which of them survive. -/
theorem survivors_perm {others : List Doclet} (settings : Settings)
    (distinct : (doclets.map Doclet.longname).Nodup) (perm : others.Perm doclets)
    : (survivors settings others).Perm (survivors settings doclets) := by
  have otherDistinct : (others.map Doclet.longname).Nodup :=
    (perm.map Doclet.longname).nodup_iff.mpr distinct
  rw [survivors_of_nodup settings distinct, survivors_of_nodup settings otherDistinct]
  exact perm.filter _

/-- The first doclets of each longname that a test lets pass come in the same order among those that
a weaker test lets pass, by induction on the list. Those that `keep` leaves out have come before.
-/
theorem firsts_filter_sublist {tight loose : Doclet → Bool}
    (weaker : ∀ doclet, tight doclet = true → loose doclet = true) (keep : Doclet → Bool)
    (first : (firsts (doclets.filter tight)).filter keep ⊆ firsts (doclets.filter loose))
    : ((firsts (doclets.filter tight)).filter keep).Sublist
        ((firsts (doclets.filter loose)).filter keep) := by
  induction doclets generalizing keep with
  | nil => exact .slnil
  | cons doclet doclets ih =>
      cases also : loose doclet with
      | false =>
          have fails : ¬ tight doclet = true := fun passes => by simp [weaker _ passes] at also
          rw [List.filter_cons_of_neg fails, List.filter_cons_of_neg (by simp [also])] at first ⊢
          exact ih keep first
      | true =>
          rw [List.filter_cons_of_pos also, firsts] at first ⊢
          -- What is left has another longname than this doclet.
          have below
              : ((firsts (doclets.filter tight)).filter fun other =>
                    keep other && other.longname != doclet.longname).Sublist
                  ((firsts (doclets.filter loose)).filter fun other =>
                    keep other && other.longname != doclet.longname) := by
            refine ih _ fun other member => ?_
            obtain ⟨known, kept⟩ := List.mem_filter.mp member
            obtain ⟨isKept, different⟩ := Bool.and_eq_true_iff.mp kept
            have listed : other ∈ firsts ((doclet :: doclets).filter tight) := by
              rw [List.filter_cons]
              split
              · exact List.mem_cons_of_mem _ (List.mem_filter.mpr ⟨known, different⟩)
              · exact known
            rcases List.mem_cons.mp (first (List.mem_filter.mpr ⟨listed, isKept⟩)) with rfl | rest
            · simp at different
            · exact (List.mem_filter.mp rest).1
          cases passes : tight doclet with
          | true =>
              rw [List.filter_cons_of_pos passes, firsts, List.filter_cons, List.filter_cons,
                List.filter_filter, List.filter_filter]
              split
              · exact below.cons_cons doclet
              · exact below
          | false =>
              rw [List.filter_cons_of_neg (by simp [passes])] at first ⊢
              have apart
                  : (firsts (doclets.filter tight)).filter keep
                    = (firsts (doclets.filter tight)).filter fun other =>
                        keep other && other.longname != doclet.longname := by
                refine List.filter_congr fun other known => ?_
                cases isKept : keep other with
                | false => rfl
                | true =>
                    rcases List.mem_cons.mp (first (List.mem_filter.mpr ⟨known, isKept⟩))
                      with rfl | rest
                    · have admitted := List.mem_filter.mp ((firsts_sublist _).subset known)
                      exact absurd (passes.symm.trans admitted.2) nofun
                    · exact (List.mem_filter.mp rest).2.symm
              rw [apart, List.filter_cons, List.filter_filter]
              split
              · exact below.cons doclet
              · exact below

/-- If all survivors of the tighter settings survive the looser ones, then in the same order. -/
theorem survivors_sublist {tight loose : Settings}
    (looser : ∀ doclet, tight.admits doclet = true → loose.admits doclet = true)
    (first : survivors tight doclets ⊆ survivors loose doclets)
    : (survivors tight doclets).Sublist (survivors loose doclets) := by
  have all (kept : List Doclet) : kept.filter (fun _ => true) = kept := by simp
  rw [← all (survivors tight doclets), ← all (survivors loose doclets)]
  refine firsts_filter_sublist looser _ ?_
  rwa [all]

/-- Doclets with distinct longnames that survive tighter settings survive looser ones. -/
theorem survivors_subset_of_nodup {tight loose : Settings}
    (looser : ∀ doclet, tight.admits doclet = true → loose.admits doclet = true)
    (distinct : (doclets.map Doclet.longname).Nodup)
    : survivors tight doclets ⊆ survivors loose doclets := by
  rw [survivors_of_nodup tight distinct, survivors_of_nodup loose distinct]
  exact (List.monotone_filter_right doclets looser).subset

/-- Packages never come into a forest. -/
theorem kind_ne_package (member : doclet ∈ survivors settings doclets)
    : doclet.kind ≠ .package := by
  have admitted := admits_of_mem_survivors member
  simp only [Settings.admits, Bool.and_eq_true, bne_iff_ne] at admitted
  exact admitted.1.1

-----------------------------------------------------------------------------------------
-- Before linking
-----------------------------------------------------------------------------------------

@[simp]
theorem longnames_scattered (doclets : List Doclet)
    : (scattered doclets).longnames = doclets.map Doclet.longname := by
  simp [scattered, longnames, Node.longname, Function.comp_def]

theorem mem_nodes_scattered {node : Node}
    : node ∈ (scattered doclets).nodes ↔ ∃ doclet ∈ doclets, node = { doclet } := by
  simp [scattered, eq_comm]

theorem find?_scattered (distinct : (doclets.map Doclet.longname).Nodup)
    (member : doclet ∈ doclets)
    : (scattered doclets).find? doclet.longname = some { doclet } := by
  have listed : ({ doclet } : Node) ∈ (scattered doclets).nodes :=
    mem_nodes_scattered.mpr ⟨doclet, member, rfl⟩
  exact find?_of_mem (by simpa using distinct) listed

/-- No node stands under another one before linking. -/
theorem parent?_scattered (doclets : List Doclet) (name : String)
    : (scattered doclets).parent? name = none := by
  cases h : (scattered doclets).parent? name with
  | none => rfl
  | some parent =>
      obtain ⟨node, found, place⟩ := parent?_eq_some_iff.mp h
      obtain ⟨doclet, _, rfl⟩ := mem_nodes_scattered.mp (mem_of_find? found)
      cases place

end Typings.Forest
