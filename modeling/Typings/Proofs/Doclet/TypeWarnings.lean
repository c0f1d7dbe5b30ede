import Typings.Doclet.Types

/-! Reading the types of a doclet warns about the syntax of types and about nothing else. -/

namespace Typings

variable {α β : Type} {kind : Warning.Kind}

@[simp]
theorem Noted.map_value (f : α → β) (noted : Noted α) : (f <$> noted).value = f noted.value := rfl

@[simp]
theorem Noted.map_warnings (f : α → β) (noted : Noted α)
    : (f <$> noted).warnings = noted.warnings :=
  List.append_nil _

theorem Noted.mapM_value (f : α → Noted β) (items : List α)
    : (items.mapM f).value = items.map fun item => (f item).value := by
  induction items with
  | nil => rfl
  | cons item items ih => simp [List.mapM_cons, ih]

theorem Noted.mapM_warnings (f : α → Noted β) (items : List α)
    : (items.mapM f).warnings = items.flatMap fun item => (f item).warnings := by
  induction items with
  | nil => rfl
  | cons item items ih => simp [List.mapM_cons, ih]

-----------------------------------------------------------------------------------------
-- Values about which all warnings are of one kind
-----------------------------------------------------------------------------------------

/-- All warnings about a value are of one kind. -/
def Noted.Only (kind : Warning.Kind) (noted : Noted α) : Prop :=
  ∀ warning ∈ noted.warnings, warning.kind = kind

theorem Noted.only_pure (value : α) : Only kind (pure value : Noted α) :=
  fun _ listed => absurd listed List.not_mem_nil

theorem Noted.only_warned {warning : Warning} (isKind : warning.kind = kind) (value : α)
    : Only kind (warned warning value) := by
  intro other listed
  cases List.mem_singleton.mp listed
  exact isKind

theorem Noted.Only.bind_value {noted : Noted α} {next : α → Noted β} (first : Only kind noted)
    (rest : Only kind (next noted.value))
    : Only kind (noted >>= next) := by
  intro warning listed
  rw [bind_warnings] at listed
  rcases List.mem_append.mp listed with early | late
  · exact first warning early
  · exact rest warning late

theorem Noted.Only.bind {noted : Noted α} {next : α → Noted β} (first : Only kind noted)
    (rest : ∀ value, Only kind (next value))
    : Only kind (noted >>= next) :=
  first.bind_value (rest noted.value)

theorem Noted.Only.map {noted : Noted α} (only : Only kind noted) (f : α → β)
    : Only kind (f <$> noted) := by
  intro warning listed
  rw [map_warnings] at listed
  exact only warning listed

theorem Noted.only_mapM_of_mem {f : α → Noted β} {items : List α}
    (each : ∀ item ∈ items, Only kind (f item))
    : Only kind (items.mapM f) := by
  induction items with
  | nil => exact only_pure []
  | cons item items ih =>
      obtain ⟨first, rest⟩ := List.forall_mem_cons.mp each
      rw [List.mapM_cons]
      exact first.bind fun _ => (ih rest).bind fun _ => only_pure _

theorem Noted.only_mapM {f : α → Noted β} (each : ∀ item, Only kind (f item)) (items : List α)
    : Only kind (items.mapM f) :=
  only_mapM_of_mem fun item _ => each item

-----------------------------------------------------------------------------------------
-- Types of values, parameters, results and bases
-----------------------------------------------------------------------------------------

namespace Doclet

open Noted

theorem hintOfText_only (source : String) : Only .typeSyntax (hintOfText source) := by
  unfold hintOfText
  split
  · exact only_pure _
  · exact only_warned rfl _

theorem hintOfType_only (type : Option (List String)) : Only .typeSyntax (hintOfType type) := by
  cases type with
  | none => exact only_pure _
  | some names => exact (only_mapM hintOfText_only names).bind fun _ => only_pure _

theorem Entry.hint_only (entry : Entry) : Only .typeSyntax entry.hint :=
  (hintOfType_only entry.type).bind fun _ => only_pure _

theorem outlineType_only (outline : Outline) (members : List (Member TsType))
    : Only .typeSyntax (outlineType outline members) := by
  unfold outlineType
  split
  · exact only_pure _
  · exact (Entry.hint_only _).map _
  · exact only_pure _

mutual
theorem typeOfOutline_only (outline : Outline) : Only .typeSyntax (typeOfOutline outline) := by
  obtain ⟨name, entry, array, items⟩ := outline
  rw [typeOfOutline]
  exact (membersOfOutline_only items).bind fun _ => outlineType_only _ _

theorem membersOfOutline_only (items : List Outline)
    : Only .typeSyntax (membersOfOutline items) := by
  cases items with
  | nil =>
      rw [membersOfOutline]
      exact only_pure _
  | cons item items =>
      rw [membersOfOutline]
      exact (typeOfOutline_only item).bind fun _ =>
        (membersOfOutline_only items).bind fun _ => only_pure _
end

theorem outlineHint_only (outline : Outline) : Only .typeSyntax (outlineHint outline) := by
  unfold outlineHint
  split
  · exact Entry.hint_only _
  · exact (typeOfOutline_only outline).bind fun _ => only_pure _

theorem paramsFrom_only (position : Nat) (items : List Outline)
    : Only .typeSyntax (paramsFrom position items) := by
  induction items generalizing position with
  | nil => exact only_pure _
  | cons item items ih =>
      exact (outlineHint_only item).bind fun _ => (ih (position + 1)).bind fun _ => only_pure _

theorem paramsOf_only (entries : List Entry) : Only .typeSyntax (paramsOf entries) :=
  (paramsFrom_only 0 _).bind fun _ => only_pure _

variable (doclet : Doclet)

theorem resultType_only : Only .typeSyntax doclet.resultType := by
  unfold resultType
  split
  · exact only_pure _
  · exact (only_mapM (fun _ => hintOfType_only _) _).bind fun _ => only_pure _

theorem plainType_only : Only .typeSyntax doclet.plainType := by
  unfold plainType
  split
  · exact (membersOfOutline_only _).map _
  · split
    · exact (paramsOf_only _).bind fun _ => (resultType_only doclet).bind fun _ => only_pure _
    · exact (hintOfType_only _).map _

theorem valueType_only : Only .typeSyntax doclet.valueType :=
  (plainType_only doclet).map _

theorem typeParamsOfTag_only (longname text : String)
    : Only .typeSyntax (typeParamsOfTag longname text) := by
  unfold typeParamsOfTag
  split
  · exact only_pure _
  · exact only_warned rfl _

theorem typeParams_only : Only .typeSyntax doclet.typeParams :=
  (only_mapM (typeParamsOfTag_only _) _).map _

theorem baseOfName_only (name : String) : Only .typeSyntax (baseOfName name) := by
  unfold baseOfName
  split
  · exact only_pure _
  · exact only_warned rfl _

theorem signature_only : Only .typeSyntax doclet.signature :=
  (typeParams_only doclet).bind fun _ => (paramsOf_only _).bind fun _ =>
    (resultType_only doclet).bind fun _ => only_pure _

end Doclet

end Typings
