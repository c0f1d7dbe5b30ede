import Typings.Proofs.TsType.Texts

/-! Texts of types on one line. A name that is no key, or the text of a number, can bring a line
feed into the text of a type, and nothing else can, as string literals are written with escapes.
-/

namespace Typings

-----------------------------------------------------------------------------------------
-- Texts without a line feed
-----------------------------------------------------------------------------------------

namespace Text

/-- A text without a line feed. -/
def Unbroken (text : String) : Prop :=
  '\n' ∉ text.toList

instance (text : String) : Decidable (Unbroken text) :=
  inferInstanceAs (Decidable ('\n' ∉ text.toList))

@[simp]
theorem unbroken_append {front back : String}
    : Unbroken (front ++ back) ↔ Unbroken front ∧ Unbroken back := by
  simp [Unbroken]

theorem unbroken_intercalate {separator : String} {texts : List String}
    (between : Unbroken separator) (each : ∀ text ∈ texts, Unbroken text)
    : Unbroken (separator.intercalate texts) := by
  cases texts with
  | nil => exact List.not_mem_nil
  | cons first texts =>
      rw [Unbroken, Hint.toList_intercalate_cons, List.mem_append, Hint.separated,
        List.mem_flatMap]
      rintro (mem | ⟨text, listed, mem⟩)
      · exact each first List.mem_cons_self mem
      · rcases List.mem_append.mp mem with mem | mem
        · exact between mem
        · exact each text (List.mem_cons_of_mem _ listed) mem

theorem not_mem_escape (c : Char) : '\n' ∉ escape c := by
  unfold escape
  split
  case h_6 =>
    rw [List.mem_singleton]
    rintro rfl
    contradiction
  all_goals decide

/-- A line feed in a string is written as an escape. -/
theorem unbroken_quote (text : String) : Unbroken (quote text) := by
  rw [Unbroken, TsType.toList_quote, List.mem_cons, List.mem_append, List.mem_flatMap]
  rintro (quoted | ⟨c, _, mem⟩ | quoted)
  · cases quoted
  · exact not_mem_escape c mem
  · exact absurd quoted (by decide)

theorem unbroken_of_isIdentifier {name : String} (identifier : isIdentifier name = true)
    : Unbroken name := by
  obtain ⟨c, cs, chars, -, names⟩ := Hint.chars_of_isIdentifier identifier
  rw [Unbroken, chars]
  intro mem
  exact absurd (names '\n' mem) (by decide)

theorem unbroken_propertyKey (name : String) : Unbroken (propertyKey name) := by
  unfold propertyKey
  split
  · rename_i identifier
    exact unbroken_of_isIdentifier identifier
  · exact unbroken_quote name

end Text

-----------------------------------------------------------------------------------------
-- Types
-----------------------------------------------------------------------------------------

/-- The name that a member of an object type shows as it is. That of a property is written as a
key.
-/
def Member.texts {α : Type} : Member α → List String
  | .property .. => []
  | .index key _ _ => [key]

namespace TsType

open Text

variable {type : TsType}

/-- The names and the number that a type shows as they are, but for those in its parts. -/
def texts : TsType → List String
  | .named name _ => [name]
  | .numberLiteral text => [text]
  | .function params _ _ => params.map Param.name
  | .object members => members.flatMap Member.texts
  | _ => []

/-- No name and no number in a type holds a line feed, at any depth. -/
def Unbroken (type : TsType) : Prop :=
  ∀ inner, Inside inner type → ∀ text ∈ inner.texts, Text.Unbroken text

theorem unbroken_iff
    : type.Unbroken
      ↔ (∀ text ∈ type.texts, Text.Unbroken text) ∧ ∀ part ∈ type.parts, part.Unbroken := by
  constructor
  · intro unbroken
    exact ⟨unbroken type .self, fun part mem inner inside => unbroken inner (.part mem inside)⟩
  · rintro ⟨own, below⟩ inner (_ | ⟨mem, inside⟩)
    · exact own
    · exact below _ mem inner inside

theorem unbroken_optionalMark (optional : Bool) : Text.Unbroken (optionalMark optional) := by
  cases optional <;> decide

theorem unbroken_parenthesized {text : String} (needed : Bool) (unbroken : Text.Unbroken text)
    : Text.Unbroken (parenthesized needed text) := by
  cases needed with
  | false => exact unbroken
  | true =>
      rw [parenthesized, if_pos rfl, unbroken_append, unbroken_append]
      exact ⟨⟨by decide, unbroken⟩, by decide⟩

theorem unbroken_paramText {param : Param TsType} (name : Text.Unbroken param.name)
    (type : Text.Unbroken param.type.render)
    : Text.Unbroken (paramText param) := by
  have dots : Text.Unbroken (if param.rest then "..." else "") := by
    cases param.rest <;> decide
  have colon : Text.Unbroken ": " := by decide
  simp [paramText, dots, name, unbroken_optionalMark, colon, type]

theorem unbroken_renderAlternatives {members : List TsType}
    (each : ∀ member ∈ members, Text.Unbroken member.render)
    : ∀ text ∈ renderAlternatives members, Text.Unbroken text := by
  induction members with
  | nil => exact List.forall_mem_nil _
  | cons member members ih =>
      obtain ⟨first, rest⟩ := List.forall_mem_cons.mp each
      exact List.forall_mem_cons.mpr ⟨unbroken_parenthesized _ first, ih rest⟩

theorem not_mem_memberText {member : Member TsType}
    (texts : ∀ text ∈ member.texts, Text.Unbroken text)
    (types : ∀ type ∈ member.types, Text.Unbroken type.render)
    : '\n' ∉ memberText member := by
  cases member with
  | property name type optional =>
      have key := unbroken_propertyKey name
      have mark := unbroken_optionalMark optional
      have below := types type List.mem_cons_self
      simp_all [memberText, Text.Unbroken]
  | index key keyType valueType =>
      have named := texts key List.mem_cons_self
      have first := types keyType List.mem_cons_self
      have second := types valueType (List.mem_cons_of_mem _ List.mem_cons_self)
      simp_all [memberText, Text.Unbroken]

/-- The text of a type is on one line if its names and numbers are, by induction on its parts. -/
theorem unbroken_render (unbroken : type.Unbroken) : Text.Unbroken type.render := by
  induction type using parts_induction with
  | step type ih =>
      obtain ⟨own, parts⟩ := unbroken_iff.mp unbroken
      have below (part : TsType) (mem : part ∈ type.parts) : Text.Unbroken part.render :=
        ih part mem (parts part mem)
      cases type with
      | named name args =>
          have comma : Text.Unbroken ", " := by decide
          rw [render, renderAll_eq_map]
          split
          · exact own name List.mem_cons_self
          · simp only [unbroken_append]
            refine ⟨⟨⟨own name List.mem_cons_self, by decide⟩, ?_⟩, by decide⟩
            exact unbroken_intercalate comma (List.forall_mem_map.mpr below)
      | primitive kind => cases kind <;> decide
      | stringLiteral value => exact unbroken_quote value
      | numberLiteral text => exact own text List.mem_cons_self
      | booleanLiteral value => cases value <;> decide
      | union members =>
          exact unbroken_intercalate (by decide) (unbroken_renderAlternatives below)
      | function params result receiver =>
          rw [render, renderReceiver_append]
          simp only [unbroken_append]
          refine ⟨⟨⟨by decide, unbroken_intercalate (by decide) ?_⟩, by decide⟩, ?_⟩
          · refine List.forall_mem_map.mpr fun param listed => ?_
            rcases List.mem_append.mp listed with typed | listed
            · obtain ⟨type, given, rfl⟩ := List.mem_map.mp typed
              have this : Text.Unbroken "this" := by decide
              exact unbroken_paramText this (below type (by simp_all [TsType.parts]))
            · exact unbroken_paramText (own _ (List.mem_map_of_mem listed))
                (below _ (List.mem_append_left _ (List.mem_map_of_mem listed)))
          · exact below result (by simp [TsType.parts])
      | object members =>
          have each (member : Member TsType) (listed : member ∈ members)
              : '\n' ∉ memberText member := by
            refine not_mem_memberText (fun text mem => own text ?_) fun part mem => below part ?_
            · exact List.mem_flatMap_of_mem listed mem
            · exact List.mem_flatMap_of_mem listed mem
          rw [Text.Unbroken, toList_render_object]
          split
          · decide
          · simpa using each
      | array element =>
          rw [render, unbroken_append]
          exact ⟨unbroken_parenthesized _ (below element List.mem_cons_self), by decide⟩

end TsType

end Typings
