import Typings.Proofs.Hint.Soundness
import Typings.Proofs.Hint.Unambiguity

/-! A text is accepted exactly if its tokens are derived by the grammar of hints, and then by one
derivation, whose meaning is the hint that is read.

Soundness gives a derivation of what is accepted, completeness has what is derived accepted, and
unambiguity leaves one derivation. The grammar lets a question mark stand alone only before an end,
which no phrase before an end can break.
-/

namespace Typings.Hint

open Phrase

-----------------------------------------------------------------------------------------
-- Question marks that stand alone
-----------------------------------------------------------------------------------------

section apt

variable {rest : List Token.Kind}

theorem head_end_perhaps (optional : Bool) (ends : rest.head?.any isEnd = true)
    : (perhaps .equals optional ++ rest).head?.any isEnd = true := by
  cases optional with
  | true => rfl
  | false => exact ends

theorem Phrase.Alternatives.head_end (more : Alternatives) (ends : rest.head?.any isEnd = true)
    : (more.tokens ++ rest).head?.any isEnd = true := by
  cases more with
  | none => exact ends
  | bar => rfl

theorem Phrase.Types.head_end (more : Types) (ends : rest.head?.any isEnd = true)
    : (more.tokens ++ rest).head?.any isEnd = true := by
  cases more with
  | none => exact ends
  | comma => rfl

theorem Phrase.MoreArguments.head_end (more : MoreArguments) (ends : rest.head?.any isEnd = true)
    : (more.tokens ++ rest).head?.any isEnd = true := by
  cases more with
  | none => exact ends
  | trailing | comma => rfl

theorem Phrase.MoreFields.head_end (more : MoreFields) (ends : rest.head?.any isEnd = true)
    : (more.tokens ++ rest).head?.any isEnd = true := by
  cases more with
  | none => exact ends
  | trailing | comma => rfl

end apt

-- An atom closes what it holds, so it is apt before anything.
mutual
theorem Phrase.Marked.apt (phrase : Marked) {rest : List Token.Kind}
    (ends : rest.head?.any isEnd = true)
    : phrase.Apt rest := by
  cases phrase with
  | plain type optional | variadic type optional => exact type.apt (head_end_perhaps optional ends)
  | anything => trivial

theorem Phrase.Union.apt (phrase : Phrase.Union) {rest : List Token.Kind}
    (ends : rest.head?.any isEnd = true)
    : phrase.Apt rest := by
  obtain ⟨_, chain⟩ := phrase
  exact chain.apt ends

theorem Phrase.Chain.apt (phrase : Chain) {rest : List Token.Kind}
    (ends : rest.head?.any isEnd = true)
    : phrase.Apt rest := by
  obtain ⟨first, more⟩ := phrase
  exact ⟨first.apt (more.head_end ends), more.apt ends⟩

theorem Phrase.Alternatives.apt (phrase : Alternatives) {rest : List Token.Kind}
    (ends : rest.head?.any isEnd = true)
    : phrase.Apt rest := by
  cases phrase with
  | none => trivial
  | bar operand more => exact ⟨operand.apt (more.head_end ends), more.apt ends⟩

theorem Phrase.Operand.apt (phrase : Operand) {rest : List Token.Kind}
    (ends : rest.head?.any isEnd = true)
    : phrase.Apt rest := by
  cases phrase with
  | unknown => exact ends
  | nullable operand | definite operand => exact operand.apt ends
  | atom atom => exact atom.apt _
  | function arguments result => exact ⟨arguments.apt rfl, result.apt ends⟩

theorem Phrase.Atom.apt (phrase : Atom) (rest : List Token.Kind) : phrase.Apt rest := by
  cases phrase with
  | word | functionName => trivial
  | group type => exact type.apt rfl
  | record fields => exact fields.apt rfl
  | function arguments => exact arguments.apt rfl
  | name _ arguments => exact arguments.apt rest

theorem Phrase.TypeArguments.apt (phrase : TypeArguments) (rest : List Token.Kind)
    : phrase.Apt rest := by
  cases phrase with
  | none => trivial
  | angled _ first more => exact ⟨first.apt (more.head_end rfl), more.apt rfl⟩

theorem Phrase.Types.apt (phrase : Types) {rest : List Token.Kind}
    (ends : rest.head?.any isEnd = true)
    : phrase.Apt rest := by
  cases phrase with
  | none => trivial
  | comma type more => exact ⟨type.apt (more.head_end ends), more.apt ends⟩

theorem Phrase.Arguments.apt (phrase : Arguments) {rest : List Token.Kind}
    (ends : rest.head?.any isEnd = true)
    : phrase.Apt rest := by
  cases phrase with
  | none => trivial
  | some first more => exact ⟨first.apt (more.head_end ends), more.apt ends⟩

theorem Phrase.MoreArguments.apt (phrase : MoreArguments) {rest : List Token.Kind}
    (ends : rest.head?.any isEnd = true)
    : phrase.Apt rest := by
  cases phrase with
  | none | trailing => trivial
  | comma argument more => exact ⟨argument.apt (more.head_end ends), more.apt ends⟩

theorem Phrase.Argument.apt (phrase : Phrase.Argument) {rest : List Token.Kind}
    (ends : rest.head?.any isEnd = true)
    : phrase.Apt rest := by
  cases phrase with
  | receiver type | constructs type | param type => exact type.apt ends

theorem Phrase.Fields.apt (phrase : Fields) {rest : List Token.Kind}
    (ends : rest.head?.any isEnd = true)
    : phrase.Apt rest := by
  cases phrase with
  | none => trivial
  | some first more => exact ⟨first.apt (more.head_end ends), more.apt ends⟩

theorem Phrase.MoreFields.apt (phrase : MoreFields) {rest : List Token.Kind}
    (ends : rest.head?.any isEnd = true)
    : phrase.Apt rest := by
  cases phrase with
  | none | trailing => trivial
  | comma field more => exact ⟨field.apt (more.head_end ends), more.apt ends⟩

theorem Phrase.Field.apt (phrase : Field) {rest : List Token.Kind}
    (ends : rest.head?.any isEnd = true)
    : phrase.Apt rest := by
  cases phrase with
  | bare => trivial
  | typed _ type => exact type.apt ends
end

-----------------------------------------------------------------------------------------
-- Derivations of a text
-----------------------------------------------------------------------------------------

/-- The tokens of `source`, its end among them, without their places. -/
def kinds (source : String) : List Token.Kind :=
  (Token.scan source).map Token.kind

/-- A phrase derives the tokens of a text: it spells those before the end, and each question mark
alone in it stands right before an end. -/
def Phrase.Marked.Derives (phrase : Marked) (source : String) : Prop :=
  kinds source = phrase.tokens ++ [.finish] ∧ phrase.Apt [.finish]

variable {source : String}

theorem kinds_eq (source : String)
    : kinds source = (Token.read source).map Token.kind ++ [.finish] := by
  rw [kinds, Token.scan, List.map_append]
  rfl

theorem Phrase.Marked.derives_iff {phrase : Marked}
    : phrase.Derives source ↔ phrase.tokens = (Token.read source).map Token.kind := by
  rw [Marked.Derives, kinds_eq]
  constructor
  · rintro ⟨same, -⟩
    exact (List.append_cancel_right same).symm
  · intro same
    exact ⟨by rw [same], phrase.apt rfl⟩

theorem parse_eq (source : String)
    : parse source
      = match ofTokens ((Token.read source).map Token.kind) with
        | .ok hint => .ok hint
        | .error fault =>
            .error ⟨fault.cause,
              offsetOf (Token.read source) fault.left (Token.scanFrom 0 source.toList).2⟩ := rfl

theorem parse_ok_iff {hint : Hint}
    : parse source = .ok hint ↔ ofTokens ((Token.read source).map Token.kind) = .ok hint := by
  rw [parse_eq]
  cases ofTokens ((Token.read source).map Token.kind) with
  | ok => simp
  | error => simp

/-- What is read from a text is what a derivation of it means. -/
theorem parse_ok_iff_meaning {hint : Hint}
    : parse source = .ok hint ↔ ∃ phrase : Marked, phrase.Derives source ∧ phrase.hint = hint := by
  rw [parse_ok_iff]
  constructor
  · intro accepted
    obtain ⟨phrase, spells, means⟩ := exists_phrase_of_ofTokens accepted
    exact ⟨phrase, Marked.derives_iff.2 spells, means⟩
  · rintro ⟨phrase, derives, rfl⟩
    rw [← Marked.derives_iff.1 derives]
    exact ofTokens_tokens phrase

theorem parseType_ok_iff {type : TsType}
    : parseType source = .ok type ↔ ∃ hint, parse source = .ok hint ∧ hint.type = type := by
  rw [parseType]
  cases parse source with
  | error => simp [Except.map]
  | ok => simp [Except.map]

theorem Phrase.Marked.derivation_unique {p q : Marked} (first : p.Derives source)
    (second : q.Derives source)
    : p = q := by
  have same := (derives_iff.1 first).trans (derives_iff.1 second).symm
  rw [← List.append_nil p.tokens, ← List.append_nil q.tokens] at same
  exact (p.unique q rfl rfl same).1

/-- A text is accepted exactly if its tokens have a derivation. There is at most one, and what is
read is what it means. -/
theorem parse_iff_derivable (source : String)
    : ((∃ hint, parse source = .ok hint) ↔ ∃ phrase : Marked, phrase.Derives source)
      ∧ (∀ p q : Marked, p.Derives source → q.Derives source → p = q)
      ∧ ∀ hint, parse source = .ok hint ↔ ∃ phrase : Marked, phrase.Derives source
          ∧ phrase.hint = hint := by
  refine ⟨⟨?_, ?_⟩, fun _ _ => Marked.derivation_unique, fun _ => parse_ok_iff_meaning⟩
  · rintro ⟨_, accepted⟩
    obtain ⟨phrase, derives, -⟩ := parse_ok_iff_meaning.1 accepted
    exact ⟨phrase, derives⟩
  · rintro ⟨phrase, derives⟩
    exact ⟨_, parse_ok_iff_meaning.2 ⟨phrase, derives, rfl⟩⟩

/-- Witness: the one derivation of a question mark alone, beside a name with an argument. -/
theorem parse_iff_derivable_unknown
    : let name (text : String) (arguments : TypeArguments) : Operand :=
        .atom (.name text arguments) []
      let argument : Phrase.Union := .of false (.of (name "b" .none) .none)
      let whole : Marked :=
        .plain (.of false (.of .unknown (.bar (name "a" (.angled true argument .none)) .none))) true
      whole.Derives "?|a.<b>=" ∧ ∀ p : Marked, p.Derives "?|a.<b>=" → p = whole := by
  intro name argument whole
  have derives : whole.Derives "?|a.<b>=" := ⟨by decide +kernel, whole.apt rfl⟩
  exact ⟨derives, fun p other => (parse_iff_derivable "?|a.<b>=").2.1 p whole other derives⟩

end Typings.Hint
