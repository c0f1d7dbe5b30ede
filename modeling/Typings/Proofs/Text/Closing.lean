import Mathlib.Data.List.Basic
import Mathlib.Data.List.TakeWhile
import Typings.Text.Blank
import Typings.Text.Lines

/-!
The end of a comment in a text, and what cutting the text into lines and trimming the lines do to
it.
-/

namespace Typings

-----------------------------------------------------------------------------------------
-- The end of a comment
-----------------------------------------------------------------------------------------

/-- A text holds the characters that end a comment, an asterisk and a slash. -/
def Closes (cs : List Char) : Prop :=
  ['*', '/'] <:+: cs

instance (cs : List Char) : Decidable (Closes cs) :=
  inferInstanceAs (Decidable (_ <:+: cs))

variable {c : Char} {cs : List Char}

theorem closes_cons : Closes (c :: cs) ↔ c = '*' ∧ cs.head? = some '/' ∨ Closes cs := by
  have front : ['*', '/'] <+: c :: cs ↔ c = '*' ∧ cs.head? = some '/' := by
    cases cs <;> simp [eq_comm]
  rw [Closes, List.infix_cons_iff, front, Closes]

theorem not_closes_nil : ¬ Closes [] := by
  simp [Closes]

/-- The end of a comment does not reach over any other character. -/
theorem closes_append_cons (other : c ∉ ['*', '/']) (as bs : List Char)
    : Closes (as ++ c :: bs) ↔ Closes as ∨ Closes bs := by
  rw [List.mem_pair, not_or] at other
  induction as with
  | nil => simp [closes_cons, not_closes_nil, other.1]
  | cons a as ih =>
      rw [List.cons_append, closes_cons, closes_cons]
      simp only [ih, or_assoc]
      cases as <;> simp [other.2]

namespace Text

theorem eq_nil_of_lines_eq_nil (none : lines cs = []) : cs = [] := by
  unfold lines at none
  split at none
  · rfl
  · cases none
  · cases none
  · split at none <;> cases none

theorem head?_eq_slash_of_lines {line : List Char} {rest : List (List Char)}
    (cut : lines cs = line :: rest)
    : line.head? = some '/' ↔ cs.head? = some '/' := by
  unfold lines at cut
  split at cut
  · cases cut
  · cases cut; simp
  · cases cut; simp
  · split at cut <;> cases cut <;> simp

theorem exists_closes_lines (cs : List Char) : (∃ line ∈ lines cs, Closes line) ↔ Closes cs := by
  fun_induction lines cs with
  | case1 => simp [not_closes_nil]
  | case2 cs ih => simp [closes_cons, not_closes_nil, ih]
  | case3 cs ih => simp [closes_cons, not_closes_nil, ih]
  | case4 c cs _ _ none ih =>
      obtain rfl := eq_nil_of_lines_eq_nil none
      simp [closes_cons, not_closes_nil]
  | case5 c cs _ _ line rest cut ih =>
      rw [cut] at ih
      simp only [List.mem_cons, exists_eq_or_imp] at ih ⊢
      rw [closes_cons, closes_cons, head?_eq_slash_of_lines cut, ← ih, or_assoc]

theorem not_mem_of_mem_lines {line : List Char} (mem : line ∈ lines cs) : '\n' ∉ line := by
  fun_induction lines cs generalizing line with
  | case1 => cases mem
  | case2 cs ih =>
      rcases List.mem_cons.mp mem with rfl | later
      · exact List.not_mem_nil
      · exact ih later
  | case3 cs ih =>
      rcases List.mem_cons.mp mem with rfl | later
      · exact List.not_mem_nil
      · exact ih later
  | case4 c cs ordinary _ none ih =>
      obtain rfl := List.mem_singleton.mp mem
      simpa [eq_comm] using ordinary
  | case5 c cs ordinary _ first rest cut ih =>
      rw [cut] at ih
      rcases List.mem_cons.mp mem with rfl | later
      · rw [List.mem_cons, not_or]
        exact ⟨fun same => ordinary same.symm, ih List.mem_cons_self⟩
      · exact ih (List.mem_cons_of_mem _ later)

theorem exists_trimFront (cs : List Char)
    : ∃ blanks, cs = blanks ++ trimFront cs ∧ ∀ c ∈ blanks, isBlank c = true :=
  ⟨cs.takeWhile isBlank, List.takeWhile_append_dropWhile.symm,
    fun _ mem => List.mem_takeWhile_imp mem⟩

theorem exists_trimEnd (cs : List Char)
    : ∃ blanks, cs = trimEnd cs ++ blanks ∧ ∀ c ∈ blanks, isBlank c = true := by
  obtain ⟨blanks, whole, each⟩ := exists_trimFront cs.reverse
  refine ⟨blanks.reverse, ?_, fun c mem => each c (List.mem_reverse.mp mem)⟩
  rw [trimEnd, ← trimFront, ← List.reverse_append, ← whole, List.reverse_reverse]

theorem not_mem_blanks (blank : isBlank c = true) : c ∉ ['*', '/'] := by
  rw [List.mem_pair]
  rintro (rfl | rfl) <;> exact absurd blank (by decide)

/-- Blanks around a text make no difference to whether it ends a comment. -/
theorem closes_blanks_append {blanks : List Char} (each : ∀ c ∈ blanks, isBlank c = true)
    : Closes (blanks ++ cs) ↔ Closes cs := by
  induction blanks with
  | nil => rw [List.nil_append]
  | cons c blanks ih =>
      obtain ⟨first, rest⟩ := List.forall_mem_cons.mp each
      have cut := closes_append_cons (not_mem_blanks first) [] (blanks ++ cs)
      simpa [not_closes_nil, ih rest] using cut

theorem closes_append_blanks {blanks : List Char} (each : ∀ c ∈ blanks, isBlank c = true)
    : Closes (cs ++ blanks) ↔ Closes cs := by
  cases blanks with
  | nil => rw [List.append_nil]
  | cons c blanks =>
      obtain ⟨first, rest⟩ := List.forall_mem_cons.mp each
      have none : ¬ Closes blanks := by
        have alone : Closes (blanks ++ []) ↔ Closes [] := closes_blanks_append rest
        simpa [not_closes_nil] using alone
      simp [closes_append_cons (not_mem_blanks first), none]

theorem closes_trimEnd (cs : List Char) : Closes (trimEnd cs) ↔ Closes cs := by
  obtain ⟨blanks, whole, each⟩ := exists_trimEnd cs
  calc
    Closes (trimEnd cs) ↔ Closes (trimEnd cs ++ blanks) := (closes_append_blanks each).symm
    _ ↔ Closes cs := by rw [← whole]

theorem closes_trim (cs : List Char) : Closes (trim cs) ↔ Closes cs := by
  obtain ⟨blanks, whole, each⟩ := exists_trimFront cs
  calc
    Closes (trim cs) ↔ Closes (trimFront cs) := closes_trimEnd _
    _ ↔ Closes (blanks ++ trimFront cs) := (closes_blanks_append each).symm
    _ ↔ Closes cs := by rw [← whole]

theorem not_mem_of_mem_trimEnd {line : List Char} (mem : line ∈ lines cs)
    : '\n' ∉ trimEnd line := by
  obtain ⟨blanks, whole, -⟩ := exists_trimEnd line
  intro listed
  apply not_mem_of_mem_lines mem
  rw [whole]
  exact List.mem_append_left _ listed

end Text

end Typings
