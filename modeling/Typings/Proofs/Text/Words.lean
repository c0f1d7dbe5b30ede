import Typings.Proofs.Text.Closing
import Typings.Text.Identifier
import Typings.Text.Split

/-! Blanks and names, and how the parts and the words of a text depend on what stands behind it. -/

namespace Typings.Text

variable {c d separator : Char} {cs ds : List Char}

-----------------------------------------------------------------------------------------
-- Blanks
-----------------------------------------------------------------------------------------

/-- The code points of all blanks. -/
def blankCodes : List Nat :=
  [0x9, 0xa, 0xb, 0xc, 0xd, 0x20, 0x85, 0xa0, 0x1680, 0x2000, 0x2001, 0x2002, 0x2003, 0x2004,
    0x2005, 0x2006, 0x2007, 0x2008, 0x2009, 0x200a, 0x2028, 0x2029, 0x202f, 0x205f, 0x3000]

theorem mem_blankCodes (blank : isBlank c = true) : c.toNat ∈ blankCodes := by
  unfold isBlank at blank
  split at blank
  · simp only [Bool.or_eq_true, beq_iff_eq, Bool.and_eq_true, decide_eq_true_eq] at blank
    rcases blank with rfl | within
    · decide
    · simp only [blankCodes, List.mem_cons, List.not_mem_nil, or_false]
      omega
  · obtain ⟨range, listed, within⟩ := inRanges_iff.1 blank
    simp only [blankRanges, List.mem_cons, List.not_mem_nil, or_false] at listed
    simp only [blankCodes, List.mem_cons, List.not_mem_nil, or_false]
    rcases listed with rfl | rfl | rfl | rfl | rfl | rfl | rfl | rfl
    all_goals
      dsimp only at within
      omega

/-- No blank belongs to a name. -/
theorem not_isBlank_of_isNameChar (name : isNameChar c = true) : isBlank c = false := by
  have none : ∀ code ∈ blankCodes, isNameChar (Char.ofNat code) = false := by decide +kernel
  rw [Bool.eq_false_iff]
  intro blank
  have other := none c.toNat (mem_blankCodes blank)
  rw [Char.ofNat_toNat, name] at other
  cases other

/-- A text that neither begins nor ends with a blank stays as it is. -/
theorem trim_eq_self (first : ∀ c ∈ cs.head?, isBlank c = false)
    (last : ∀ c ∈ cs.getLast?, isBlank c = false)
    : trim cs = cs := by
  have kept {ds : List Char} (first : ∀ c ∈ ds.head?, isBlank c = false)
      : ds.dropWhile isBlank = ds := by
    cases ds with
    | nil => rfl
    | cons d ds => exact List.dropWhile_cons_of_neg (by simp [first d rfl])
  rw [trim, trimFront, kept first, trimEnd, kept (by rwa [List.head?_reverse]),
    List.reverse_reverse]

-----------------------------------------------------------------------------------------
-- Parts and words
-----------------------------------------------------------------------------------------

theorem split_eq_singleton (absent : separator ∉ cs) : split separator cs = [cs] := by
  induction cs with
  | nil => rfl
  | cons c cs ih =>
      rw [List.mem_cons, not_or] at absent
      have other : (c == separator) = false := by simpa using Ne.symm absent.1
      rw [split, other, ih absent.2]
      rfl

/-- What holds no separator goes to the last part of what stands before it. -/
theorem exists_split_append (separator : Char) (cs : List Char)
    : ∃ parts last,
        ∀ ds, separator ∉ ds → split separator (cs ++ ds) = parts ++ [last ++ ds] := by
  induction cs with
  | nil => exact ⟨[], [], fun ds absent => split_eq_singleton absent⟩
  | cons c cs ih =>
      obtain ⟨parts, last, whole⟩ := ih
      by_cases cut : c = separator
      · subst cut
        refine ⟨[] :: parts, last, fun ds absent => ?_⟩
        rw [List.cons_append, split, if_pos (beq_self_eq_true c), whole ds absent]
        rfl
      · have other : (c == separator) = false := by simpa using cut
        cases parts with
        | nil =>
            refine ⟨[], c :: last, fun ds absent => ?_⟩
            rw [List.cons_append, split, other, whole ds absent]
            rfl
        | cons part parts =>
            refine ⟨(c :: part) :: parts, last, fun ds absent => ?_⟩
            rw [List.cons_append, split, other, whole ds absent]
            rfl

theorem trimFront_append (visible : isBlank c = false) (cs ds : List Char)
    : trimFront (cs ++ c :: ds) = trimFront cs ++ c :: ds := by
  induction cs with
  | nil => simp [trimFront, visible]
  | cons d cs ih =>
      simp only [trimFront, List.cons_append, List.dropWhile_cons] at ih ⊢
      split
      · exact ih
      · rfl

/-- Behind a blank nothing belongs to the first word, if there is one before the blank. -/
theorem firstWord?_append (visible : isBlank c = false) (blank : isBlank d = true)
    (cs ds : List Char)
    : firstWord? (cs ++ c :: d :: ds) = firstWord? (cs ++ [c]) := by
  have word (front : List Char)
      : (front ++ c :: d :: ds).takeWhile (fun c => !isBlank c)
        = (front ++ [c]).takeWhile fun c => !isBlank c := by
    induction front with
    | nil => simp [visible, blank]
    | cons other front ih => simp only [List.cons_append, List.takeWhile_cons, ih]
  rw [firstWord?, firstWord?, trimFront_append visible, trimFront_append visible, word]

/-- A name behind a blank is the first word. -/
theorem firstWord?_name (blank : isBlank d = true) (nonempty : cs ≠ [])
    (names : ∀ c ∈ cs, isNameChar c = true)
    : firstWord? (d :: cs) = some cs := by
  have visible : ∀ c ∈ cs, isBlank c = false :=
    fun c mem => not_isBlank_of_isNameChar (names c mem)
  have whole : cs.takeWhile (fun c => !isBlank c) = cs :=
    List.takeWhile_eq_self_iff.2 (by simpa using visible)
  have trimmed : trimFront (d :: cs) = cs := by
    cases cs with
    | nil => exact absurd rfl nonempty
    | cons c cs => simp [trimFront, blank, visible c (List.mem_cons_self ..)]
  unfold firstWord?
  rw [trimmed, whole]
  split
  · exact absurd rfl nonempty
  · rfl

end Typings.Text
