import Typings.Proofs.Hint.Quotation

/-! What a property of rows of tokens has to be kept by, to hold of whatever a phrase spells: the
ways in which phrases put the tokens of their parts together.
-/

namespace Typings.Hint

open Phrase

/-- A property of rows is kept wherever phrases put them together, as long as all their tokens are
among some that are allowed. Braces stand around a row, and a colon has one behind it.
-/
structure KeptInRows (allowed : Token.Kind → Prop) (P : List Token.Kind → Prop) : Prop where
  nil : P []
  single
    : ∀ {token}, allowed token → token ∉ [.leftBrace, .rightBrace, .colon] → P [token]
  append : ∀ {ts us}, P ts → P us → P (ts ++ us)
  colon : ∀ {ts}, ts ≠ [] → P ts → P (.colon :: ts)
  braces : ∀ {ts}, P ts → P (.leftBrace :: (ts ++ [.rightBrace]))

-----------------------------------------------------------------------------------------
-- Phrases that are never empty
-----------------------------------------------------------------------------------------

theorem Phrase.Operand.tokens_ne_nil (phrase : Operand) : phrase.tokens ≠ [] := by
  intro none
  have opens := phrase.opens []
  rw [none] at opens
  cases opens

theorem Phrase.Union.tokens_ne_nil (phrase : Phrase.Union) : phrase.tokens ≠ [] := by
  intro none
  have opens := phrase.opens []
  rw [none] at opens
  cases opens

theorem Phrase.Marked.tokens_ne_nil (phrase : Marked) : phrase.tokens ≠ [] := by
  intro none
  have opens := phrase.opens []
  rw [none] at opens
  cases opens

-----------------------------------------------------------------------------------------
-- What phrases spell
-----------------------------------------------------------------------------------------

variable {allowed : Token.Kind → Prop} {P : List Token.Kind → Prop}

namespace KeptInRows

variable (kept : KeptInRows allowed P) {ts us : List Token.Kind} {token : Token.Kind}

include kept

theorem cons (known : allowed token) (other : token ∉ [.leftBrace, .rightBrace, .colon])
    (rest : P ts)
    : P (token :: ts) :=
  kept.append (kept.single known other) rest

theorem perhaps (present : Bool) (known : ∀ other ∈ perhaps token present, allowed other)
    (other : token ∉ [.leftBrace, .rightBrace, .colon])
    : P (perhaps token present) := by
  cases present with
  | false => exact kept.nil
  | true => exact kept.single (known token (List.mem_singleton_self token)) other

theorem marks (marks : List Mark) (known : ∀ token ∈ Mark.tokens marks, allowed token)
    : P (Mark.tokens marks) := by
  induction marks with
  | nil => exact kept.nil
  | cons mark marks ih =>
      cases mark with
      | brackets =>
          simp only [Mark.tokens, List.forall_mem_cons] at known
          exact kept.cons known.1 (by decide) (kept.cons known.2.1 (by decide) (ih known.2.2))
      | question | bang =>
          obtain ⟨first, rest⟩ := List.forall_mem_cons.1 known
          exact kept.cons first (by decide) (ih rest)

theorem fieldName (name : FieldName) (known : allowed name.token) : P [name.token] := by
  cases name with
  | _ => exact kept.single known (by simp [FieldName.token])

theorem word (word : Word) (known : allowed word.token) : P [word.token] := by
  cases word with
  | _ => exact kept.single known (by simp [Word.token])

end KeptInRows

mutual
theorem Phrase.Marked.kept (kept : KeptInRows allowed P) (phrase : Marked)
    (known : ∀ token ∈ phrase.tokens, allowed token)
    : P phrase.tokens := by
  cases phrase with
  | plain type optional =>
      obtain ⟨here, there⟩ := List.forall_mem_append.1 known
      exact kept.append (type.kept kept here) (kept.perhaps optional there (by decide))
  | variadic type optional =>
      obtain ⟨points, rest⟩ := List.forall_mem_cons.1 known
      obtain ⟨here, there⟩ := List.forall_mem_append.1 rest
      exact kept.cons points (by decide)
        (kept.append (type.kept kept here) (kept.perhaps optional there (by decide)))
  | anything optional =>
      obtain ⟨points, rest⟩ := List.forall_mem_cons.1 known
      exact kept.cons points (by decide) (kept.perhaps optional rest (by decide))

theorem Phrase.Union.kept (kept : KeptInRows allowed P) (phrase : Phrase.Union)
    (known : ∀ token ∈ phrase.tokens, allowed token)
    : P phrase.tokens := by
  obtain ⟨bar, chain⟩ := phrase
  obtain ⟨here, there⟩ := List.forall_mem_append.1 known
  exact kept.append (kept.perhaps bar here (by decide)) (chain.kept kept there)

theorem Phrase.Chain.kept (kept : KeptInRows allowed P) (phrase : Chain)
    (known : ∀ token ∈ phrase.tokens, allowed token)
    : P phrase.tokens := by
  obtain ⟨first, more⟩ := phrase
  obtain ⟨here, there⟩ := List.forall_mem_append.1 known
  exact kept.append (first.kept kept here) (more.kept kept there)

theorem Phrase.Alternatives.kept (kept : KeptInRows allowed P) (phrase : Alternatives)
    (known : ∀ token ∈ phrase.tokens, allowed token)
    : P phrase.tokens := by
  cases phrase with
  | none => exact kept.nil
  | bar operand more =>
      obtain ⟨bar, rest⟩ := List.forall_mem_cons.1 known
      obtain ⟨here, there⟩ := List.forall_mem_append.1 rest
      exact kept.cons bar (by decide)
        (kept.append (operand.kept kept here) (more.kept kept there))

theorem Phrase.Operand.kept (kept : KeptInRows allowed P) (phrase : Operand)
    (known : ∀ token ∈ phrase.tokens, allowed token)
    : P phrase.tokens := by
  cases phrase with
  | unknown => exact kept.single (known _ (List.mem_cons_self ..)) (by decide)
  | nullable operand | definite operand =>
      obtain ⟨mark, rest⟩ := List.forall_mem_cons.1 known
      exact kept.cons mark (by decide) (operand.kept kept rest)
  | atom atom marks =>
      obtain ⟨here, there⟩ := List.forall_mem_append.1 known
      exact kept.append (atom.kept kept here) (kept.marks marks there)
  | function arguments result =>
      simp only [Operand.tokens, List.forall_mem_cons, List.forall_mem_append] at known
      obtain ⟨word, opens, here, closes, -, there⟩ := known
      refine kept.cons word (by decide) (kept.cons opens (by decide) ?_)
      refine kept.append (arguments.kept kept here) (kept.cons closes (by decide) ?_)
      exact kept.colon result.tokens_ne_nil (result.kept kept there)

theorem Phrase.Atom.kept (kept : KeptInRows allowed P) (phrase : Atom)
    (known : ∀ token ∈ phrase.tokens, allowed token)
    : P phrase.tokens := by
  cases phrase with
  | word word => exact kept.word word (known _ (List.mem_cons_self ..))
  | group type =>
      simp only [Atom.tokens, List.forall_mem_cons, List.forall_mem_append] at known
      obtain ⟨opens, here, closes, -⟩ := known
      exact kept.cons opens (by decide)
        (kept.append (type.kept kept here) (kept.single closes (by decide)))
  | record fields =>
      obtain ⟨-, rest⟩ := List.forall_mem_cons.1 known
      exact kept.braces (fields.kept kept (List.forall_mem_append.1 rest).1)
  | functionName => exact kept.single (known _ (List.mem_cons_self ..)) (by decide)
  | function arguments =>
      simp only [Atom.tokens, List.forall_mem_cons, List.forall_mem_append] at known
      obtain ⟨word, opens, here, closes, -⟩ := known
      refine kept.cons word (by decide) (kept.cons opens (by decide) ?_)
      exact kept.append (arguments.kept kept here) (kept.single closes (by decide))
  | name text arguments =>
      obtain ⟨name, rest⟩ := List.forall_mem_cons.1 known
      exact kept.cons name (by simp) (arguments.kept kept rest)

theorem Phrase.TypeArguments.kept (kept : KeptInRows allowed P) (phrase : TypeArguments)
    (known : ∀ token ∈ phrase.tokens, allowed token)
    : P phrase.tokens := by
  cases phrase with
  | none => exact kept.nil
  | angled point first more =>
      simp only [TypeArguments.tokens, List.forall_mem_cons, List.forall_mem_append] at known
      obtain ⟨dot, opens, ⟨here, there⟩, closes, -⟩ := known
      refine kept.append (kept.perhaps point dot (by decide)) (kept.cons opens (by decide) ?_)
      exact kept.append (kept.append (first.kept kept here) (more.kept kept there))
        (kept.single closes (by decide))

theorem Phrase.Types.kept (kept : KeptInRows allowed P) (phrase : Types)
    (known : ∀ token ∈ phrase.tokens, allowed token)
    : P phrase.tokens := by
  cases phrase with
  | none => exact kept.nil
  | comma type more =>
      obtain ⟨comma, rest⟩ := List.forall_mem_cons.1 known
      obtain ⟨here, there⟩ := List.forall_mem_append.1 rest
      exact kept.cons comma (by decide) (kept.append (type.kept kept here) (more.kept kept there))

theorem Phrase.Arguments.kept (kept : KeptInRows allowed P) (phrase : Arguments)
    (known : ∀ token ∈ phrase.tokens, allowed token)
    : P phrase.tokens := by
  cases phrase with
  | none => exact kept.nil
  | some first more =>
      obtain ⟨here, there⟩ := List.forall_mem_append.1 known
      exact kept.append (first.kept kept here) (more.kept kept there)

theorem Phrase.MoreArguments.kept (kept : KeptInRows allowed P) (phrase : MoreArguments)
    (known : ∀ token ∈ phrase.tokens, allowed token)
    : P phrase.tokens := by
  cases phrase with
  | none => exact kept.nil
  | trailing => exact kept.single (known _ (List.mem_cons_self ..)) (by decide)
  | comma argument more =>
      obtain ⟨comma, rest⟩ := List.forall_mem_cons.1 known
      obtain ⟨here, there⟩ := List.forall_mem_append.1 rest
      exact kept.cons comma (by decide)
        (kept.append (argument.kept kept here) (more.kept kept there))

theorem Phrase.Argument.kept (kept : KeptInRows allowed P) (phrase : Phrase.Argument)
    (known : ∀ token ∈ phrase.tokens, allowed token)
    : P phrase.tokens := by
  cases phrase with
  | receiver type | constructs type =>
      obtain ⟨name, rest⟩ := List.forall_mem_cons.1 known
      refine kept.cons name (by decide) (kept.colon type.tokens_ne_nil ?_)
      exact type.kept kept (List.forall_mem_cons.1 rest).2
  | param type => exact type.kept kept known

theorem Phrase.Fields.kept (kept : KeptInRows allowed P) (phrase : Fields)
    (known : ∀ token ∈ phrase.tokens, allowed token)
    : P phrase.tokens := by
  cases phrase with
  | none => exact kept.nil
  | some first more =>
      obtain ⟨here, there⟩ := List.forall_mem_append.1 known
      exact kept.append (first.kept kept here) (more.kept kept there)

theorem Phrase.MoreFields.kept (kept : KeptInRows allowed P) (phrase : MoreFields)
    (known : ∀ token ∈ phrase.tokens, allowed token)
    : P phrase.tokens := by
  cases phrase with
  | none => exact kept.nil
  | trailing => exact kept.single (known _ (List.mem_cons_self ..)) (by decide)
  | comma field more =>
      obtain ⟨comma, rest⟩ := List.forall_mem_cons.1 known
      obtain ⟨here, there⟩ := List.forall_mem_append.1 rest
      exact kept.cons comma (by decide) (kept.append (field.kept kept here) (more.kept kept there))

theorem Phrase.Field.kept (kept : KeptInRows allowed P) (phrase : Field)
    (known : ∀ token ∈ phrase.tokens, allowed token)
    : P phrase.tokens := by
  cases phrase with
  | bare name => exact kept.fieldName name (known _ (List.mem_cons_self ..))
  | typed name type =>
      obtain ⟨own, rest⟩ := List.forall_mem_cons.1 known
      refine kept.append (kept.fieldName name own) (kept.colon type.tokens_ne_nil ?_)
      exact type.kept kept (List.forall_mem_cons.1 rest).2
end

-----------------------------------------------------------------------------------------
-- The tokens of hints
-----------------------------------------------------------------------------------------

theorem keptInRows_braced (inner : String → List Char)
    : KeptInRows (fun token => ∀ value, token = .string value → Braced 0 (inner value))
        (fun ts => Braced 0 (ts.flatMap (bracesWith inner))) where
  nil := Braced.nil_iff.2 rfl
  single := by
    intro token values other
    rw [List.flatMap_singleton]
    cases token with
    | string value => exact values value rfl
    | leftBrace | rightBrace => simp at other
    | _ => exact Braced.nil_iff.2 rfl
  append front back := by
    rw [List.flatMap_append]
    exact front.append back
  colon _ braced := braced
  braces braced := by
    rw [List.flatMap_cons, List.flatMap_append]
    exact braced.inBraces

theorem keptInRows_getLast : KeptInRows (fun _ => True) (fun ts => ts.getLast? ≠ some .colon) where
  nil := nofun
  single := by
    rintro token - other last
    cases last
    simp at other
  append front back := by
    rw [List.getLast?_append, ne_eq, Option.or_eq_some_iff]
    rintro (last | ⟨-, last⟩)
    · exact back last
    · exact front last
  colon some rest := by rwa [List.getLast?_cons_of_ne_nil some]
  braces _ := by
    rw [← List.cons_append, List.getLast?_concat]
    nofun

variable {source : String} {hint : Hint}

/-- What is read from a text is what a phrase means that spells its tokens. -/
theorem parse_ok_iff_spelled
    : parse source = .ok hint
      ↔ ∃ phrase : Marked, phrase.tokens = kindsOf source.toList ∧ phrase.hint = hint := by
  rw [parse_ok_iff_meaning]
  exact exists_congr fun phrase => and_congr_left' Marked.derives_iff

theorem KeptInRows.of_parse (kept : KeptInRows allowed P) (accepted : parse source = .ok hint)
    (known : ∀ token ∈ kindsOf source.toList, allowed token)
    : P (kindsOf source.toList) := by
  obtain ⟨phrase, spells, -⟩ := parse_ok_iff_spelled.1 accepted
  rw [← spells] at known ⊢
  exact phrase.kept kept known

end Typings.Hint
