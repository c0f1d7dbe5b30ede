import Typings.Proofs.Doclet.TypeWarnings
import Typings.Proofs.Outline.Trie

/-! Entries that are documented as nullable. The type of such an entry admits null unless another
entry documents a property of it: then it is the type of an object with these properties, or of an
array of such objects, whatever the entry itself says.
-/

namespace Typings

/-- A type admits null if it is any type, null itself, or a union with null among its members. -/
def TsType.AdmitsNull (type : TsType) : Prop :=
  type = .any ∨ type = .primitive .null
    ∨ ∃ members, type = .union members ∧ .primitive .null ∈ members

theorem TsType.admitsNull_orNull (type : TsType) : type.orNull.AdmitsNull := by
  have listed : .primitive .null ∈ ([type, .primitive .null].flatMap alternatives).eraseDups := by
    simp [alternatives]
  rw [orNull, unionOf]
  split
  · rename_i alone
    rw [alone, List.mem_singleton] at listed
    exact .inr (.inl listed.symm)
  · exact .inr (.inr ⟨_, rfl, listed⟩)

namespace Doclet

open Outline

theorem admitsNull_withNull (type : TsType) : (withNull (some true) type).AdmitsNull := by
  by_cases anything : type = .any
  · simp [withNull, anything, TsType.AdmitsNull]
  · simpa [withNull, anything] using type.admitsNull_orNull

theorem value_typeOfOutline (outline : Outline)
    : (typeOfOutline outline).value
      = (outlineType outline (membersOfOutline outline.items).value).value := by
  obtain ⟨name, entry, array, items⟩ := outline
  rw [typeOfOutline]
  rfl

theorem value_membersOfOutline_eq_nil (items : List Outline)
    : (membersOfOutline items).value = [] ↔ items = [] := by
  cases items <;> simp [membersOfOutline]

/-- Of a name whose entry is nullable, the type admits null exactly if there are no names below
it. -/
theorem admitsNull_typeOfOutline_iff {outline : Outline} {entry : Entry}
    (own : outline.entry = some entry) (nullable : entry.nullable = some true)
    : (typeOfOutline outline).value.AdmitsNull ↔ outline.items = [] := by
  rw [value_typeOfOutline, ← value_membersOfOutline_eq_nil]
  generalize (membersOfOutline outline.items).value = members
  cases members with
  | nil =>
      simp [outlineType, own, Entry.hint, nullable, admitsNull_withNull]
  | cons =>
      cases array : outline.array <;> simp [outlineType, array, TsType.AdmitsNull, TsType.any]

/-- The type of a nullable entry, at any depth of its outline, admits null exactly if no other entry
documents something below it.
-/
theorem nullable_admits_iff {entries : List Entry} {node : Outline} {path : List String}
    {entry : Entry} (stands : StandsAt node (ofEntries entries) path)
    (own : node.entry = some entry) (nullable : entry.nullable = some true)
    : (typeOfOutline node).value.AdmitsNull
      ↔ ¬ ∃ other ∈ entries, path <+: pathOf other ∧ path ≠ pathOf other := by
  rw [admitsNull_typeOfOutline_iff own nullable]
  exact items_eq_nil_iff stands

/-- Witness: a nullable object inside another one, documented behind its property. -/
theorem nullable_admits_iff_object
    : let entry : Entry := { name := "o[].p", nullable := some true }
      let entries : List Entry := [{ name := "o[].p.q", type := some ["number"] }, entry]
      let node : Outline := ⟨"p", some entry, false, [⟨"q", some entries[0], false, []⟩]⟩
      StandsAt node (ofEntries entries) ["o", "p"]
      ∧ node.entry = some entry
      ∧ entry.nullable = some true
      ∧ ¬ (typeOfOutline node).value.AdmitsNull := by
  intro entry entries node
  have outer : steps entry.name = [⟨"o", true⟩, ⟨"p", false⟩] := by decide +kernel
  have inner : steps "o[].p.q" = [⟨"o", true⟩, ⟨"p", false⟩, ⟨"q", false⟩] := by decide +kernel
  have made : ofEntries entries = [⟨"o", none, true, [node]⟩] := by
    simp [ofEntries, entries, outer, inner, Outline.insert, update, bare, node]
  have stands : StandsAt node (ofEntries entries) ["o", "p"] := by
    rw [made]
    exact .under List.mem_cons_self (.here List.mem_cons_self)
  refine ⟨stands, rfl, rfl, fun admits => ?_⟩
  apply (nullable_admits_iff stands rfl rfl).mp admits
  exact ⟨entries[0], List.mem_cons_self, by decide +kernel⟩

end Typings.Doclet
