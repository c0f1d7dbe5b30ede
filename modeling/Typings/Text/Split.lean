/-!
Cutting a text into the parts between separators.
-/

namespace Typings.Text

/-- The parts of a text before, between and after its separators. There is always at least one. -/
def split (separator : Char) : List Char → List (List Char)
  | [] => [[]]
  | c :: cs =>
    if c == separator then [] :: split separator cs
    else
      match split separator cs with
      | [] => [[c]]
      | part :: parts => (c :: part) :: parts

theorem split_ne_nil (separator : Char) (cs : List Char) : split separator cs ≠ [] := by
  cases cs with
  | nil => simp [split]
  | cons c cs =>
      simp only [split]
      split
      · simp
      · split <;> simp

theorem split_eq_splitOn (separator : Char) (cs : List Char)
    : split separator cs = cs.splitOn separator := by
  induction cs with
  | nil => rfl
  | cons c cs ih =>
      obtain ⟨part, parts, found⟩ := List.exists_cons_of_ne_nil (split_ne_nil separator cs)
      rw [split, List.splitOn_cons_eq_if_modifyHead, ← ih, found]
      rfl

end Typings.Text
