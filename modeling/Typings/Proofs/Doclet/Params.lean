import Typings.Proofs.Doclet.TypeWarnings
import Typings.Proofs.Outline.Names
import Typings.Proofs.TsType.NormalForm
import Typings.Proofs.TsType.Params

/-! The parameters that entries document: there is one for each name that their dotted names begin
with. A rest parameter may still stand before others, if there are several; an optional one stands
before no parameter that has to be given; and a numbered name may be that of another parameter.
-/

namespace Typings.Doclet

open Param Outline Text

-----------------------------------------------------------------------------------------
-- Parameters as they are documented
-----------------------------------------------------------------------------------------

/-- The parameters of entries with the types and marks that each of them has by itself. -/
def resolved (entries : List Entry) : List (Param TsType) :=
  (ofEntries entries).mapIdx fun place item =>
    paramOfHint (paramName place item.name) (outlineHint item).value

/-- Which of the parameters of entries are documented as rest parameters. -/
def restMarks (entries : List Entry) : List Bool :=
  (ofEntries entries).map fun item => (outlineHint item).value.variadic

theorem value_paramsFrom (position : Nat) (items : List Outline)
    : (paramsFrom position items).value
      = items.mapIdx fun place item =>
          paramOfHint (paramName (position + place) item.name) (outlineHint item).value := by
  induction items generalizing position with
  | nil => rfl
  | cons item items ih =>
      rw [paramsFrom, List.mapIdx_cons]
      simp [ih, Nat.add_right_comm, Nat.add_assoc]

theorem value_paramsOf (entries : List Entry)
    : (paramsOf entries).value = optionalLast (restLast (resolved entries)) := by
  simp [paramsOf, value_paramsFrom, resolved]

theorem rest_paramOfHint (name : String) (hint : Hint)
    : (paramOfHint name hint).rest = hint.variadic := by
  cases variadic : hint.variadic <;> simp [paramOfHint, variadic]

theorem name_paramOfHint (name : String) (hint : Hint) : (paramOfHint name hint).name = name := by
  cases variadic : hint.variadic <;> simp [paramOfHint, variadic]

/-- A rest parameter is not documented as an optional one. -/
theorem exclusive_resolved {entries : List Entry} {param : Param TsType}
    (listed : param ∈ resolved entries) (rest : param.rest = true)
    : param.optional = false := by
  obtain ⟨place, bound, rfl⟩ := List.mem_mapIdx.1 listed
  rw [rest_paramOfHint] at rest
  simp [paramOfHint, rest]

theorem map_rest_resolved (entries : List Entry)
    : (resolved entries).map Param.rest = restMarks entries := by
  refine List.ext_getElem? fun place => ?_
  simp [resolved, restMarks, rest_paramOfHint, Function.comp_def]

/-- A parameter is called by the name that entries begin with, or is numbered. -/
theorem map_name_resolved (entries : List Entry)
    : (resolved entries).map Param.name = (rootNames entries).mapIdx paramName := by
  refine List.ext_getElem? fun place => ?_
  simp [resolved, ← map_name_ofEntries, name_paramOfHint, Function.comp_def]

-----------------------------------------------------------------------------------------
-- Rest parameters
-----------------------------------------------------------------------------------------

/-- No parameter but the last is a rest parameter exactly if at most one of those before the last is
documented so: the mark of a rest parameter stays in the last place, and behind another such mark.
-/
theorem rest_last_iff (entries : List Entry)
    : let params := (paramsOf entries).value
      let marks := restMarks entries
      (RestIsLast params ↔ marks.dropLast.count true ≤ 1)
      ∧ params.map Param.rest
        = marks.mapIdx fun place mark =>
            mark && (place + 1 == marks.length || (marks.take place).contains true) := by
  intro params marks
  have documented : marks = (resolved entries).map Param.rest := (map_rest_resolved entries).symm
  have same : params.map Param.rest = (restLast (resolved entries)).map Param.rest := by
    rw [← map_optionalLast Param.rest (fun _ => rfl) (restLast _), ← value_paramsOf]
  constructor
  · rw [restIsLast_iff_marks, same, ← restIsLast_iff_marks, restIsLast_restLast, documented,
      ← List.map_dropLast, List.count, List.countP_map]
    simp [Function.comp_def]
  · rw [same, map_rest_restLast, documented, List.length_map]

example
    : ¬ RestIsLast (paramsOf [{ name := "a", variadic := true }, { name := "b", variadic := true },
        { name := "c" }]).value := by
  decide +kernel

-----------------------------------------------------------------------------------------
-- Optional parameters
-----------------------------------------------------------------------------------------

theorem map_name_paramsOf (entries : List Entry)
    : (paramsOf entries).value.map Param.name = (rootNames entries).mapIdx paramName := by
  rw [value_paramsOf, map_optionalLast Param.name fun _ => rfl, map_name_restLast,
    map_name_resolved]

/-- There is one parameter for each name that entries begin with, in the order in which these are
first used. An optional parameter stands before none that has to be given: exactly the optional ones
before such a parameter lose their mark and admit undefined, and all other types stay. The mark of a
rest parameter is lost by the first one with others behind it, and by no other.
-/
theorem paramsOf_settled (entries : List Entry)
    : let params := (paramsOf entries).value
      params.map Param.name = (rootNames entries).mapIdx paramName
      ∧ params.length = (resolved entries).length
      ∧ OptionalsTrail params
      ∧ ∀ place before after,
          (resolved entries)[place]? = some before
          → params[place]? = some after
          → Settled ((resolved entries).take place) before after (params.drop (place + 1)) := by
  intro params
  have settled : ∀ place before after,
      (resolved entries)[place]? = some before
      → params[place]? = some after
      → Settled ((resolved entries).take place) before after (params.drop (place + 1)) := by
    intro place before after known made
    simp only [params, value_paramsOf] at made ⊢
    exact settled_passes (exclusive_resolved (List.mem_of_getElem? known)) known made
  have length : params.length = (resolved entries).length := by
    have made := congrArg List.length (map_name_paramsOf entries)
    rw [← map_name_resolved, List.length_map, List.length_map] at made
    exact made
  exact ⟨map_name_paramsOf entries, length, optionalsTrail_of_settled length settled, settled⟩

/-- Witness: an optional parameter before one that a property of it documents. -/
theorem paramsOf_settled_undefined
    : let entries : List Entry :=
        [{ name := "a", type := some ["string"], optional := true }, { name := "b[].c" },
          { name := "d", optional := true }, { name := "b" }]
      let before : Param TsType := ⟨"a", .primitive .string, true, false⟩
      let after : Param TsType :=
        ⟨"a", .union [.primitive .string, .primitive .undefined], false, false⟩
      (resolved entries)[0]? = some before
      ∧ (paramsOf entries).value[0]? = some after
      ∧ Settled [] before after ((paramsOf entries).value.drop 1) := by
  intro entries before after
  have known : (resolved entries)[0]? = some before := by decide +kernel
  have made : (paramsOf entries).value[0]? = some after := by decide +kernel
  exact ⟨known, made, (paramsOf_settled entries).2.2.2 0 before after known made⟩

-----------------------------------------------------------------------------------------
-- Names
-----------------------------------------------------------------------------------------

theorem isNameChar_of_isDigit {c : Char} (digit : c.isDigit = true) : isNameChar c = true := by
  have range : 48 ≤ c.toNat ∧ c.toNat ≤ 57 := Char.isDigit_iff_toNat.1 digit
  have ascii : c.toNat < 128 := by omega
  simp [isNameChar, isNumeral, ascii, digit]

theorem isIdentifier_numbered (place : Nat) : isIdentifier ("arg" ++ toString place) = true := by
  have digits : ∀ c ∈ Nat.toDigits 10 place, isNameChar c = true := fun c mem =>
    isNameChar_of_isDigit (Nat.isDigit_of_mem_toDigits (by decide) (by decide) mem)
  have chars : ("arg" ++ toString place).toList = 'a' :: 'r' :: 'g' :: Nat.toDigits 10 place := by
    rw [String.toList_append, Nat.toString_eq_repr, Nat.toList_repr]
    rfl
  rw [isIdentifier, chars]
  simpa using ⟨by decide, by decide, by decide, digits⟩

theorem numbered_injective {place other : Nat}
    (same : "arg" ++ toString place = "arg" ++ toString other)
    : place = other := by
  have digits : Nat.toDigits 10 place = Nat.toDigits 10 other := by
    simpa [Nat.toString_eq_repr, Nat.toList_repr] using congrArg String.toList same
  calc
    place = Nat.ofDigitChars 10 (Nat.toDigits 10 place) 0 := Nat.ofDigitChars_ten_toDigits.symm
    _ = Nat.ofDigitChars 10 (Nat.toDigits 10 other) 0 := by rw [digits]
    _ = other := Nat.ofDigitChars_ten_toDigits

theorem isIdentifier_paramName (place : Nat) (name : String)
    : isIdentifier (paramName place name) = true := by
  unfold paramName
  split
  · assumption
  · exact isIdentifier_numbered place

theorem paramName_of_identifier {name : String} (usable : isIdentifier name = true) (place : Nat)
    : paramName place name = name :=
  if_pos usable

theorem paramName_of_not_identifier {name : String} (odd : isIdentifier name = false) (place : Nat)
    : paramName place name = "arg" ++ toString place :=
  if_neg (by simp [odd])

/-- Names that are all different stay so exactly if none is numbered by what another is called. -/
theorem nodup_paramNames {names : List String} (distinct : names.Nodup)
    : (names.mapIdx paramName).Nodup
      ↔ ¬ ∃ (place : Nat) (name : String),
          names[place]? = some name
          ∧ isIdentifier name = false
          ∧ "arg" ++ toString place ∈ names := by
  constructor
  · rintro still ⟨place, name, known, odd, mem⟩
    obtain ⟨other, found⟩ := List.getElem?_of_mem mem
    have same : (names.mapIdx paramName)[place]? = (names.mapIdx paramName)[other]? := by
      rw [List.getElem?_mapIdx, List.getElem?_mapIdx, known, found, Option.map_some,
        Option.map_some, paramName_of_not_identifier odd,
        paramName_of_identifier (isIdentifier_numbered place)]
    have bound : place < (names.mapIdx paramName).length := by
      rw [List.length_mapIdx]
      exact (List.getElem?_eq_some_iff.1 known).1
    obtain rfl : place = other := (List.getElem?_inj bound still).1 same
    obtain rfl : name = "arg" ++ toString place := Option.some.inj (known.symm.trans found)
    rw [isIdentifier_numbered] at odd
    cases odd
  · intro apart
    refine List.pairwise_iff_getElem.2 fun i j boundI boundJ before same => ?_
    rw [List.getElem_mapIdx, List.getElem_mapIdx] at same
    rw [List.length_mapIdx] at boundI boundJ
    have differ := List.pairwise_iff_getElem.1 distinct i j boundI boundJ before
    have first := List.getElem?_eq_getElem boundI
    have second := List.getElem?_eq_getElem boundJ
    cases usable : isIdentifier names[i] <;> cases usable' : isIdentifier names[j]
    · rw [paramName_of_not_identifier usable, paramName_of_not_identifier usable'] at same
      exact Nat.ne_of_lt before (numbered_injective same)
    · rw [paramName_of_not_identifier usable, paramName_of_identifier usable'] at same
      exact apart ⟨i, names[i], first, usable, same ▸ List.mem_of_getElem? second⟩
    · rw [paramName_of_identifier usable, paramName_of_not_identifier usable'] at same
      exact apart ⟨j, names[j], second, usable', same ▸ List.mem_of_getElem? first⟩
    · rw [paramName_of_identifier usable, paramName_of_identifier usable'] at same
      exact differ same

/-- The names of parameters can be used as such. They are all different exactly if none is numbered
by a name that entries begin with.
-/
theorem paramNames_distinct_iff (entries : List Entry)
    : let names := (paramsOf entries).value.map Param.name
      (∀ name ∈ names, isIdentifier name = true)
      ∧ (names.Nodup
        ↔ ¬ ∃ (place : Nat) (name : String),
            (rootNames entries)[place]? = some name
            ∧ isIdentifier name = false
            ∧ "arg" ++ toString place ∈ rootNames entries) := by
  dsimp only
  rw [map_name_paramsOf]
  refine ⟨?_, nodup_paramNames (TsType.nodup_eraseDups _)⟩
  intro name mem
  obtain ⟨place, _, rfl⟩ := List.mem_mapIdx.1 mem
  exact isIdentifier_paramName _ _

/-- Witness: a name that no parameter can have is numbered, and so is called, in the documentation,
the next one.
-/
theorem paramNames_distinct_iff_numbered
    : let names := (paramsOf [{ name := "1" }, { name := "arg0" }]).value.map Param.name
      "arg0" ∈ names ∧ isIdentifier "arg0" = true ∧ ¬ names.Nodup := by
  intro names
  have mem : "arg0" ∈ names := by decide +kernel
  have usable := paramNames_distinct_iff [{ name := "1" }, { name := "arg0" }]
  refine ⟨mem, usable.1 "arg0" mem, fun distinct => usable.2.1 distinct ⟨0, "1", ?_⟩⟩
  decide +kernel

end Typings.Doclet
