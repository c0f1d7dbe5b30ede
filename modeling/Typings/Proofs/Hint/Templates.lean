import Typings.Proofs.Hint.TokenRows
import Typings.Proofs.Text.Words

/-! The bounds of type parameters. The text of a type between braces is read as a bound exactly if
its own braces match, those in its strings among them: the brace that ends a bound is found without
regard for strings.
-/

namespace Typings.Template

open Hint Text

variable {name source : String} {type : TsType} {cs : List Char}

theorem mem_identifier (identifier : isIdentifier name = true)
    : name.toList ≠ [] ∧ ∀ c ∈ name.toList, isNameChar c = true := by
  obtain ⟨c, cs, chars, -, names⟩ := chars_of_isIdentifier identifier
  rw [chars]
  exact ⟨List.cons_ne_nil c cs, names⟩

theorem not_mem_identifier {c : Char} (identifier : isIdentifier name = true)
    (other : isNameChar c = false)
    : c ∉ name.toList := by
  intro mem
  exact ne_of_isNameChar ((mem_identifier identifier).2 c mem) other rfl

-----------------------------------------------------------------------------------------
-- Names behind bounds
-----------------------------------------------------------------------------------------

theorem names_identifier (identifier : isIdentifier name = true)
    : names (' ' :: name.toList) = [name] := by
  obtain ⟨nonempty, chars⟩ := mem_identifier identifier
  have comma : ',' ∉ ' ' :: name.toList := by
    simpa using not_mem_identifier identifier (by decide)
  have word : firstWord? (' ' :: name.toList) = some name.toList :=
    firstWord?_name (by decide) nonempty chars
  simp [names, split_eq_singleton comma, word, identifier]

/-- The word that a brace belongs to ends before the next blank, and so the name behind that is none
of the names.
-/
theorem names_behind_brace (identifier : isIdentifier name = true)
    : names (cs ++ '}' :: ' ' :: name.toList) = names (cs ++ ['}']) := by
  have comma : ',' ∉ '}' :: ' ' :: name.toList := by
    simpa using not_mem_identifier identifier (by decide)
  obtain ⟨parts, last, whole⟩ := exists_split_append ',' cs
  have word : firstWord? (last ++ '}' :: ' ' :: name.toList) = firstWord? (last ++ ['}']) :=
    firstWord?_append (by decide) (by decide) last name.toList
  rw [names, names, whole _ comma, whole _ (by decide), List.filterMap_append,
    List.filterMap_append, List.filterMap_cons, List.filterMap_cons, word]

theorem params_bounded (identifier : isIdentifier name = true)
    : params ("\x7b" ++ source ++ "\x7d " ++ name)
      = match closeBrace 0 (source.toList ++ '}' :: ' ' :: name.toList) with
        | none => .error ⟨.openBound, 0⟩
        | some (inside, rest) =>
          match parseType (String.ofList inside) with
          | .error error => .error error
          | .ok bound => .ok (paramsWith (some bound) rest) := by
  have chars : ("\x7b" ++ source ++ "\x7d " ++ name).toList
      = '{' :: (source.toList ++ '}' :: ' ' :: name.toList) := by
    simp
  obtain ⟨nonempty, visible⟩ := mem_identifier identifier
  have trimmed : trim ('{' :: (source.toList ++ '}' :: ' ' :: name.toList))
      = '{' :: (source.toList ++ '}' :: ' ' :: name.toList) := by
    apply trim_eq_self
    · rintro _ ⟨⟩
      decide
    · intro c last
      have ends : name.toList.getLast? = some c := by
        have split : '{' :: (source.toList ++ '}' :: ' ' :: name.toList)
            = '{' :: (source.toList ++ ['}', ' ']) ++ name.toList := by
          simp
        rwa [split, List.getLast?_append_of_ne_nil _ nonempty] at last
      exact not_isBlank_of_isNameChar (visible c (List.mem_of_getLast? ends))
  rw [params, chars, trimmed]
  rfl

/-- If the name is read behind some brace, then that is the one behind the bound, or else one inside
of it, behind which the names do not depend on this one.
-/
theorem braced_or_cut (identifier : isIdentifier name = true)
    (read : params ("\x7b" ++ source ++ "\x7d " ++ name) = .ok [⟨name, some type, none⟩])
    : Braced 0 source.toList
      ∨ ∃ inside rest,
          closeBrace 0 source.toList = some (inside, rest) ∧ names (rest ++ ['}']) = [name] := by
  rw [params_bounded identifier] at read
  split at read
  · cases read
  next inside rest found =>
    obtain ⟨split, braced⟩ := closeBrace_eq_some_iff.1 found
    split at read
    · cases read
    next bound _ =>
      have only : names rest = [name] := by
        rw [Except.ok.injEq, paramsWith, List.map_eq_singleton_iff] at read
        obtain ⟨other, only, same⟩ := read
        cases same
        exact only
      have absent : '}' ∉ ' ' :: name.toList := by
        simpa using not_mem_identifier identifier (by decide)
      rcases List.append_eq_append_iff.1 split with ⟨back, rfl, more⟩ | ⟨back, whole, more⟩
      · cases back with
        | nil => exact .inl (by simpa using braced)
        | cons c back =>
            rw [(List.cons.inj more).2] at absent
            exact absurd (by simp) absent
      · cases back with
        | nil => exact .inl (by simpa [whole] using braced)
        | cons c back =>
            cases more
            refine .inr ⟨inside, back, closeBrace_eq_some_iff.2 ⟨whole, braced⟩, ?_⟩
            rwa [← names_behind_brace identifier]

-----------------------------------------------------------------------------------------
-- Bounds
-----------------------------------------------------------------------------------------

/-- The text of a type between braces is read as the bound of whatever name follows exactly if its
own braces match. They do unless a string in it has braces that do not.
-/
theorem bounds_read_iff (accepted : parseType source = .ok type)
    : ((∀ name, isIdentifier name = true
          → params ("\x7b" ++ source ++ "\x7d " ++ name) = .ok [⟨name, some type, none⟩])
        ↔ Braced 0 source.toList)
      ∧ ((∀ value, .string value ∈ kinds source → Braced 0 value.toList)
        → Braced 0 source.toList) := by
  refine ⟨⟨fun read => ?_, fun braced name identifier => ?_⟩, fun values => ?_⟩
  · -- two names, of which what stands behind a brace in the source can be only one
    have first := braced_or_cut (by decide) (read "a" (by decide))
    have second := braced_or_cut (by decide) (read "b" (by decide))
    rcases first with braced | ⟨inside, rest, found, only⟩
    · exact braced
    rcases second with braced | ⟨_, _, again, other⟩
    · exact braced
    cases found.symm.trans again
    exact absurd (only.symm.trans other) (by decide)
  · have cut : closeBrace 0 (source.toList ++ '}' :: ' ' :: name.toList)
        = some (source.toList, ' ' :: name.toList) :=
      closeBrace_eq_some_iff.2 ⟨rfl, braced⟩
    rw [params_bounded identifier, cut]
    simp only [String.ofList_toList, accepted, paramsWith, names_identifier identifier,
      List.map_singleton]
  · obtain ⟨hint, parsed, -⟩ := parseType_ok_iff.1 accepted
    have braced := (keptInRows_braced String.toList).of_parse parsed fun token mem value same =>
      values value (by rw [kinds_eq]; exact List.mem_append_left _ (same ▸ mem))
    rwa [← Braced.filter_iff, filter_kindsOf, Braced.filter_iff] at braced

/-- Witness: a brace in a string ends the bound that the string is. -/
theorem bounds_read_iff_string
    : let source := "\"\x7d\""
      parseType source = .ok (.stringLiteral "\x7d")
      ∧ ∃ name, isIdentifier name = true
          ∧ params ("\x7b" ++ source ++ "\x7d " ++ name)
            ≠ .ok [⟨name, some (.stringLiteral "\x7d"), none⟩] := by
  intro source
  have accepted : parseType source = .ok (.stringLiteral "\x7d") := by decide +kernel
  refine ⟨accepted, ?_⟩
  by_contra! all
  have braced := (bounds_read_iff accepted).1.1 all
  exact absurd braced.closes (by decide +kernel)

end Typings.Template
