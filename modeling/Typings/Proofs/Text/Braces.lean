import Mathlib.Data.List.Count
import Mathlib.Data.List.Infix
import Typings.Hint.Template

/-! Braces that are closed in their order, and where the counting of braces cuts a text. -/

namespace Typings

/-- A text closes `depth` braces that are open before it and all that it opens itself, but none that
is not open.
-/
structure Braced (depth : Nat) (cs : List Char) : Prop where
  within : ∀ front, front <+: cs → front.count '}' ≤ depth + front.count '{'
  closes : cs.count '}' = depth + cs.count '{'

namespace Braced

variable {c : Char} {cs ds : List Char} {depth more : Nat}

theorem nil_iff : Braced depth [] ↔ depth = 0 := by
  constructor
  · intro braced
    simpa using braced.closes.symm
  · rintro rfl
    exact ⟨by simp, rfl⟩

/-- A character changes the number of open braces alike for all that may follow it. -/
theorem cons_iff
    (shift
      : ∀ back, (c :: back).count '}' + more + back.count '{'
          = back.count '}' + depth + (c :: back).count '{')
    : Braced depth (c :: cs) ↔ Braced more cs := by
  constructor
  · rintro ⟨within, closes⟩
    refine ⟨fun front here => ?_, by have := shift cs; omega⟩
    have longer := within (c :: front) ((List.prefix_cons_inj _).2 here)
    have := shift front
    omega
  · rintro ⟨within, closes⟩
    refine ⟨fun front here => ?_, by have := shift cs; omega⟩
    rcases List.prefix_cons_iff.1 here with rfl | ⟨back, rfl, later⟩
    · exact Nat.zero_le _
    · have shorter := within back later
      have := shift back
      omega

theorem open_iff : Braced depth ('{' :: cs) ↔ Braced (depth + 1) cs :=
  cons_iff fun back => by simp; omega

theorem close_iff : Braced (depth + 1) ('}' :: cs) ↔ Braced depth cs :=
  cons_iff fun back => by simp; omega

theorem other_iff (opens : c ≠ '{') (closes : c ≠ '}')
    : Braced depth (c :: cs) ↔ Braced depth cs :=
  cons_iff fun back => by
    rw [List.count_cons_of_ne opens, List.count_cons_of_ne closes]

theorem not_close : ¬ Braced 0 ('}' :: cs) := by
  intro braced
  exact absurd (braced.within ['}'] ⟨cs, rfl⟩) (by decide)

theorem append (front : Braced depth cs) (back : Braced more ds)
    : Braced (depth + more) (cs ++ ds) := by
  induction cs generalizing depth with
  | nil =>
      obtain rfl := nil_iff.1 front
      rwa [Nat.zero_add]
  | cons c cs ih =>
      rw [List.cons_append]
      by_cases opens : c = '{'
      · subst opens
        rw [open_iff] at front ⊢
        rw [Nat.add_right_comm]
        exact ih front
      by_cases closes : c = '}'
      · subst closes
        cases depth with
        | zero => exact absurd front not_close
        | succ depth =>
            rw [Nat.add_right_comm]
            rw [close_iff] at front ⊢
            exact ih front
      · rw [other_iff opens closes] at front ⊢
        exact ih front

/-- A text between braces. -/
theorem inBraces (braced : Braced 0 cs) : Braced 0 ('{' :: (cs ++ ['}'])) := by
  rw [open_iff, Nat.zero_add, ← Nat.zero_add 1]
  exact braced.append (close_iff.2 (nil_iff.2 rfl))

/-- Whether `c` opens or closes a brace. -/
def isBrace (c : Char) : Bool :=
  c == '{' || c == '}'

/-- Nothing but the braces of a text matters. -/
theorem filter_iff : Braced depth (cs.filter isBrace) ↔ Braced depth cs := by
  induction cs generalizing depth with
  | nil => rfl
  | cons c cs ih =>
      by_cases opens : c = '{'
      · subst opens
        rw [List.filter_cons_of_pos rfl, open_iff, open_iff, ih]
      by_cases closes : c = '}'
      · subst closes
        rw [List.filter_cons_of_pos rfl]
        cases depth with
        | zero => exact iff_of_false not_close not_close
        | succ depth => rw [close_iff, close_iff, ih]
      · rw [List.filter_cons_of_neg (by simp [isBrace, opens, closes]), other_iff opens closes, ih]

end Braced

namespace Template

variable {c : Char} {cs inside rest : List Char} {depth : Nat}

theorem closeBrace_other (opens : c ≠ '{') (closes : c ≠ '}')
    : closeBrace depth (c :: cs)
      = (closeBrace depth cs).map fun (front, back) => (c :: front, back) := by
  simp [closeBrace, opens]

/-- A text is cut at the brace in front of which all other open braces are closed. -/
theorem closeBrace_eq_some_iff
    : closeBrace depth cs = some (inside, rest)
      ↔ cs = inside ++ '}' :: rest ∧ Braced depth inside := by
  induction cs generalizing depth inside with
  | nil => simp [closeBrace]
  | cons c cs ih =>
      have cut {more : Nat} (shift : ∀ back, Braced depth (c :: back) ↔ Braced more back)
          (later : c = '}' → depth ≠ 0)
          : (closeBrace more cs).map (fun (front, back) => (c :: front, back)) = some (inside, rest)
            ↔ c :: cs = inside ++ '}' :: rest ∧ Braced depth inside := by
        rw [Option.map_eq_some_iff]
        constructor
        · rintro ⟨⟨front, back⟩, found, same⟩
          cases same
          obtain ⟨rfl, braced⟩ := ih.1 found
          exact ⟨rfl, (shift front).2 braced⟩
        · rintro ⟨same, braced⟩
          cases inside with
          | nil =>
              cases same
              exact absurd (Braced.nil_iff.1 braced) (later rfl)
          | cons d front =>
              cases same
              exact ⟨(front, rest), ih.2 ⟨rfl, (shift front).1 braced⟩, rfl⟩
      by_cases closes : c = '}'
      · subst closes
        cases depth with
        | zero =>
            cases inside with
            | nil => simp [closeBrace, Braced.nil_iff]
            | cons d front =>
                refine iff_of_false (by simp [closeBrace]) ?_
                rintro ⟨same, braced⟩
                cases same
                exact Braced.not_close braced
        | succ depth => exact cut (fun _ => Braced.close_iff) (fun _ => Nat.succ_ne_zero depth)
      by_cases opens : c = '{'
      · subst opens
        exact cut (fun _ => Braced.open_iff) (absurd · closes)
      · rw [closeBrace_other opens closes]
        exact cut (fun _ => Braced.other_iff opens closes) (absurd · closes)

end Template

end Typings
