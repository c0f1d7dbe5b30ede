import Mathlib.Logic.Relation
import Mathlib.Order.WellFounded
import Typings.Proofs.Forest.Lookup

/-! Lines of nodes in a sound forest, in which no node stands under itself and every parent is
there: following the parents ends at a node without one, before the limit of the walk does.
-/

namespace Typings.Forest

open Relation

/-- The node `name` stands right under the node `parent`. -/
def StandsUnder (forest : Forest) (name parent : String) : Prop :=
  forest.parent? name = some parent

/-- No two nodes have one longname, parents are nodes, and no line of parents goes on forever. -/
structure Sound (forest : Forest) : Prop where
  distinct : forest.longnames.Nodup
  parents : ∀ {name parent}, forest.StandsUnder name parent → forest.has parent = true
  grounded : WellFounded fun parent name => forest.StandsUnder name parent

variable {forest : Forest} {name other parent : String} {limit : Nat}

theorem StandsUnder.unique (left : forest.StandsUnder name parent)
    (right : forest.StandsUnder name other)
    : parent = other :=
  Option.some.inj (left.symm.trans right)

/-- Where a node is found as before, it stands under the same node. -/
theorem standsUnder_congr {next : Forest} (same : next.find? name = forest.find? name)
    : next.StandsUnder name parent ↔ forest.StandsUnder name parent := by
  rw [StandsUnder, StandsUnder, parent?, parent?, same]

theorem StandsUnder.has (under : forest.StandsUnder name parent) : forest.has name = true := by
  obtain ⟨node, found, _⟩ := parent?_eq_some_iff.mp under
  exact has_of_find? found

/-- No node of a sound forest stands under itself, since lines of parents end. -/
theorem Sound.acyclic (sound : forest.Sound) : ¬ TransGen forest.StandsUnder name name := by
  intro cycle
  exact sound.grounded.transGen.irrefl.irrefl name (transGen_swap.mpr cycle)

-----------------------------------------------------------------------------------------
-- A walk with a limit goes up the line of parents
-----------------------------------------------------------------------------------------

/-- A walk only meets what it starts from or what that stands under, by induction on its limit. -/
theorem reflTransGen_of_mem_lineage (member : other ∈ forest.lineage limit name)
    : ReflTransGen forest.StandsUnder name other := by
  induction limit generalizing name with
  | zero => cases member
  | succ limit ih =>
      rcases List.mem_cons.mp member with rfl | higher
      · exact .refl
      · cases h : forest.parent? name with
        | none => simp [h] at higher
        | some parent =>
            rw [h] at higher
            exact .head h (ih higher)

theorem nodup_lineage (sound : forest.Sound) : (forest.lineage limit name).Nodup := by
  induction limit generalizing name with
  | zero => exact .nil
  | succ limit ih =>
      cases h : forest.parent? name with
      | none => simp [lineage, h]
      | some parent =>
          simp only [lineage, h, List.nodup_cons]
          refine ⟨?_, ih⟩
          intro again
          exact sound.acyclic (.head' h (reflTransGen_of_mem_lineage again))

theorem lineage_subset_longnames (sound : forest.Sound) (known : name ∈ forest.longnames)
    (limit : Nat)
    : forest.lineage limit name ⊆ forest.longnames := by
  induction limit generalizing name with
  | zero => exact List.nil_subset _
  | succ limit ih =>
      cases h : forest.parent? name with
      | none => simpa [lineage, h] using known
      | some parent =>
          simp only [lineage, h]
          exact List.cons_subset.mpr ⟨known, ih (has_iff_mem.mp (sound.parents h))⟩

/-- A walk passes at most the nodes that there are, each of them once. -/
theorem length_lineage_le (sound : forest.Sound) (known : name ∈ forest.longnames)
    (limit : Nat)
    : (forest.lineage limit name).length ≤ forest.nodes.length := by
  have bound := (nodup_lineage sound).length_le_of_subset
    (lineage_subset_longnames sound known limit)
  simpa [longnames] using bound

/-- A walk that stays below its limit does not change with a higher one. -/
theorem lineage_succ_of_lt (short : (forest.lineage limit name).length < limit)
    : forest.lineage (limit + 1) name = forest.lineage limit name := by
  induction limit generalizing name with
  | zero => cases short
  | succ limit ih =>
      cases h : forest.parent? name with
      | none => simp [lineage, h]
      | some parent =>
          rw [lineage, h] at short
          have shorter : (forest.lineage limit parent).length < limit := by simpa using short
          rw [lineage, h, lineage, h]
          exact congrArg _ (ih shorter)

/-- All that a node stands under is above its parent, since the walk never meets its limit. -/
theorem above_eq (sound : forest.Sound) (name : String)
    : forest.above name
      = name :: match forest.parent? name with
        | some parent => forest.above parent
        | none => [] := by
  cases h : forest.parent? name with
  | none => simp [above, lineage, h]
  | some parent =>
      have known : name ∈ forest.longnames := has_iff_mem.mp (StandsUnder.has h)
      have bound := length_lineage_le sound known (forest.nodes.length + 1)
      simp only [lineage, h, List.length_cons] at bound
      have short : (forest.lineage forest.nodes.length parent).length < forest.nodes.length := by
        omega
      change forest.lineage (forest.nodes.length + 1) name
        = name :: forest.lineage (forest.nodes.length + 1) parent
      rw [lineage_succ_of_lt short, lineage, h]

theorem mem_above_iff (sound : forest.Sound)
    : other ∈ forest.above name ↔ ReflTransGen forest.StandsUnder name other := by
  constructor
  · exact reflTransGen_of_mem_lineage
  · intro line
    induction line using ReflTransGen.head_induction_on with
    | refl =>
        rw [above_eq sound]
        exact List.mem_cons_self
    | @head lower upper step _ ih =>
        rw [above_eq sound, show forest.parent? lower = some upper from step]
        exact List.mem_cons_of_mem _ ih

/-- The line of parents ends at a node without one, by induction along the line. -/
theorem exists_top (sound : forest.Sound) (name : String)
    : ∃ top,
        (forest.above name).getLast? = some top
        ∧ forest.parent? top = none
        ∧ ReflTransGen forest.StandsUnder name top := by
  induction name using sound.grounded.induction with
  | _ name ih =>
    rw [above_eq sound]
    cases h : forest.parent? name with
    | none => exact ⟨name, rfl, h, .refl⟩
    | some parent =>
        obtain ⟨top, last, free, line⟩ := ih parent h
        refine ⟨top, ?_, free, .head h line⟩
        simp only [List.getLast?_cons, last, Option.getD_some]

end Typings.Forest
