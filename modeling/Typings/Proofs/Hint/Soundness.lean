import Typings.Proofs.Hint.Phrase

/-! Whatever the readers of hints accept is spelled by a phrase that means what they return. -/

namespace Typings.Hint

open Phrase

-----------------------------------------------------------------------------------------
-- Marks
-----------------------------------------------------------------------------------------

/-- No mark begins `ts`. -/
def Unmarked (ts : List Token.Kind) : Prop :=
  ∀ marks rest, Mark.tokens marks ++ rest = ts → marks = []

theorem unmarked_of_endsType {ts : List Token.Kind} (ends : endsType ts = true) : Unmarked ts := by
  rintro (_ | ⟨_ | _, _⟩) rest rfl
  · rfl
  all_goals simp [Mark.tokens, endsType] at ends

variable {n : Nat} {ts : List Token.Kind}

/-- The marks that are read are all that there are, by induction on them. -/
theorem readMarks_spelled (type : TsType) (ts : List Token.Kind) (h : ts.length < n)
    : ∃ marks,
        Mark.tokens marks ++ (readMarks type ts h).rest = ts
        ∧ marks.foldl Mark.on type = (readMarks type ts h).value
        ∧ Unmarked (readMarks type ts h).rest := by
  fun_induction readMarks type ts h with
  | case1 type rest h ih =>
      obtain ⟨marks, spelled, meant, unmarked⟩ := ih
      exact ⟨.brackets :: marks, by simp [Mark.tokens, spelled], meant, unmarked⟩
  | case2 type rest h ih =>
      obtain ⟨marks, spelled, meant, unmarked⟩ := ih
      exact ⟨.question :: marks, by simp [Mark.tokens, spelled], meant, unmarked⟩
  | case3 type rest h ih =>
      obtain ⟨marks, spelled, meant, unmarked⟩ := ih
      exact ⟨.bang :: marks, by simp [Mark.tokens, spelled], meant, unmarked⟩
  | case4 type ts h noBrackets noQuestion noBang =>
      refine ⟨[], rfl, rfl, ?_⟩
      rintro (_ | ⟨_ | _, _⟩) rest spelled
      · rfl
      all_goals subst spelled
      · exact (noBrackets _ h rfl HEq.rfl).elim
      · exact (noQuestion _ h rfl HEq.rfl).elim
      · exact (noBang _ h rfl HEq.rfl).elim

theorem readMarks_of_unmarked {type : TsType} (h : ts.length < n) (unmarked : Unmarked ts)
    : readMarks type ts h = ⟨type, ts, h⟩ := by
  unfold readMarks
  split
  · exact absurd (unmarked [.brackets] _ rfl) nofun
  · exact absurd (unmarked [.question] _ rfl) nofun
  · exact absurd (unmarked [.bang] _ rfl) nofun
  · rfl

theorem readOptional_spelled (type : TsType) (variadic : Bool) (h : ts.length < n)
    : ∃ optional,
        perhaps .equals optional ++ (readOptional type variadic ts h).rest = ts
        ∧ (readOptional type variadic ts h).value = ⟨type, optional, variadic⟩ := by
  unfold readOptional
  split
  · exact ⟨true, rfl, rfl⟩
  · exact ⟨false, rfl, rfl⟩

theorem eq_of_expect {α : Type} {wanted : Token.Kind} {value : α} {h : ts.length < n}
    {read : Read n α} (accepted : expect wanted value ts h = .ok read)
    : read.value = value ∧ ts = wanted :: read.rest := by
  unfold expect at accepted
  split at accepted
  · split at accepted
    · rename_i same
      cases accepted
      exact ⟨rfl, by rw [same]⟩
    · cases accepted
  · cases accepted

theorem eq_token_of_fieldName? {token : Token.Kind} {text : String}
    (named : fieldName? token = some text)
    : ∃ name : FieldName, name.token = token ∧ name.text = text := by
  cases token
  case name text => cases named; exact ⟨.name _, rfl, rfl⟩
  case string value => cases named; exact ⟨.string _, rfl, rfl⟩
  case number text => cases named; exact ⟨.number _, rfl, rfl⟩
  case function => cases named; exact ⟨.function, rfl, rfl⟩
  case null => cases named; exact ⟨.null, rfl, rfl⟩
  case undefined => cases named; exact ⟨.undefined, rfl, rfl⟩
  case true => cases named; exact ⟨.true, rfl, rfl⟩
  case false => cases named; exact ⟨.false, rfl, rfl⟩
  all_goals cases named

-----------------------------------------------------------------------------------------
-- What a reader accepts
-----------------------------------------------------------------------------------------

/-- A value that is read off the front of `ts` is what a phrase means that spells that front. -/
def Spelled {α β : Type} (tokens : α → List Token.Kind) (meaning : α → β) (ts : List Token.Kind)
    (reading : Reading n β)
    : Prop :=
  ∀ read,
    reading = .ok read → ∃ phrase, tokens phrase ++ read.rest = ts ∧ meaning phrase = read.value

/-- An operand is read with all its marks. -/
def SpelledOperand (ts : List Token.Kind) : Prop :=
  ∀ read,
    readOperand ts = .ok read
    → ∃ phrase : Operand,
        phrase.tokens ++ read.rest = ts ∧ phrase.type = read.value ∧ Unmarked read.rest

/-- Whatever the readers accept of fewer than `n` tokens is spelled by a phrase. -/
structure SpelledBelow (n : Nat) : Prop where
  marked : ∀ {ts}, ts.length < n → Spelled Marked.tokens Marked.hint ts (readMarked ts)
  union : ∀ {ts}, ts.length < n → Spelled Union.tokens Union.type ts (readUnion ts)
  chain : ∀ {ts}, ts.length < n → Spelled Chain.tokens Chain.type ts (readChain ts)
  alternatives
    : ∀ {ts},
        ts.length < n → Spelled Alternatives.tokens Alternatives.types ts (readAlternatives ts)
  operand : ∀ {ts}, ts.length < n → SpelledOperand ts
  moreTypes : ∀ {ts}, ts.length < n → Spelled Types.tokens Types.list ts (readMoreTypes ts)
  arguments
    : ∀ {ts}, ts.length < n → Spelled Arguments.tokens Arguments.list ts (readArguments ts)
  moreArguments
    : ∀ {ts},
        ts.length < n → Spelled MoreArguments.tokens MoreArguments.list ts (readMoreArguments ts)
  fields : ∀ {ts}, ts.length < n → Spelled Fields.tokens Fields.members ts (readFields ts)
  moreFields
    : ∀ {ts}, ts.length < n → Spelled MoreFields.tokens MoreFields.members ts (readMoreFields ts)

section step

variable (below : SpelledBelow n) (short : ts.length ≤ n)

include below short

theorem readTypeArguments_spelled
    : Spelled TypeArguments.tokens TypeArguments.types ts (readTypeArguments ts) := by
  intro read accepted
  unfold readTypeArguments at accepted
  split at accepted
  case h_3 =>
    cases accepted
    exact ⟨.none, rfl, rfl⟩
  -- with a point and without one
  all_goals
    rename_i rest
    split at accepted
    · cases accepted
    · rename_i type rest₁ h₁ first
      split at accepted
      · cases accepted
      · rename_i types rest₂ h₂ second
        simp only [List.length_cons] at short
        obtain ⟨union, unionSpelled, rfl⟩ := below.union (by omega) _ first
        obtain ⟨more, moreSpelled, rfl⟩ := below.moreTypes (by omega) _ second
        obtain ⟨value, rfl⟩ := eq_of_expect accepted
        have spelled (point : Bool) : (TypeArguments.angled point union more).tokens ++ read.rest
            = perhaps .dot point ++ .leftAngle :: rest := by
          simp [TypeArguments.tokens, ← unionSpelled, ← moreSpelled]
        first
        | exact ⟨.angled true union more, spelled true, value.symm⟩
        | exact ⟨.angled false union more, spelled false, value.symm⟩

theorem readMoreTypes_spelled : Spelled Types.tokens Types.list ts (readMoreTypes ts) := by
  intro read accepted
  unfold readMoreTypes at accepted
  split at accepted
  · rename_i rest
    split at accepted
    · cases accepted
    · rename_i type rest₁ h₁ first
      split at accepted
      · cases accepted
      · rename_i types rest₂ h₂ second
        cases accepted
        simp only [List.length_cons] at short
        obtain ⟨union, unionSpelled, rfl⟩ := below.union (by omega) _ first
        obtain ⟨more, moreSpelled, rfl⟩ := below.moreTypes (by omega) _ second
        refine ⟨.comma union more, ?_, rfl⟩
        rw [Types.tokens, List.cons_append, List.append_assoc, moreSpelled, unionSpelled]
  · cases accepted
    exact ⟨.none, rfl, rfl⟩

/-- The result of a function type is an operand behind a colon, or nothing at all. -/
theorem readResult_spelled {read : Read (ts.length + 1) (Option TsType)}
    (accepted : readResult ts = .ok read)
    : read.value = none ∧ read.rest = ts
      ∨ ∃ phrase : Operand,
          .colon :: (phrase.tokens ++ read.rest) = ts
          ∧ some phrase.type = read.value
          ∧ Unmarked read.rest := by
  unfold readResult at accepted
  split at accepted
  · rename_i rest
    split at accepted
    · cases accepted
    · rename_i type rest₁ h₁ first
      cases accepted
      simp only [List.length_cons] at short
      obtain ⟨operand, spelled, rfl, unmarked⟩ := below.operand (by omega) _ first
      exact .inr ⟨operand, congrArg _ spelled, rfl, unmarked⟩
  · cases accepted
    exact .inl ⟨rfl, rfl⟩

/-- An atom is read without marks, but for the type of a function with a result, which has taken
them all.
-/
theorem readAtom_spelled {read : Read ts.length TsType} (accepted : readAtom ts = .ok read)
    : ∃ phrase : Operand,
        phrase.tokens ++ read.rest = ts
        ∧ phrase.type = read.value
        ∧ ((∃ atom, phrase = .atom atom []) ∨ Unmarked read.rest) := by
  unfold readAtom at accepted
  split at accepted
  · cases accepted
    exact ⟨.atom (.word .star) [], rfl, rfl, .inl ⟨_, rfl⟩⟩
  · cases accepted
    exact ⟨.atom (.word .null) [], rfl, rfl, .inl ⟨_, rfl⟩⟩
  · cases accepted
    exact ⟨.atom (.word .undefined) [], rfl, rfl, .inl ⟨_, rfl⟩⟩
  · cases accepted
    exact ⟨.atom (.word .true) [], rfl, rfl, .inl ⟨_, rfl⟩⟩
  · cases accepted
    exact ⟨.atom (.word .false) [], rfl, rfl, .inl ⟨_, rfl⟩⟩
  · cases accepted
    exact ⟨.atom (.word (.string _)) [], rfl, rfl, .inl ⟨_, rfl⟩⟩
  · cases accepted
    exact ⟨.atom (.word (.number _)) [], rfl, rfl, .inl ⟨_, rfl⟩⟩
  · rename_i rest
    split at accepted
    · cases accepted
    · rename_i type rest₁ h₁ first
      simp only [List.length_cons] at short
      obtain ⟨union, spelled, meant⟩ := below.union (by omega) _ first
      obtain ⟨value, rfl⟩ := eq_of_expect accepted
      refine ⟨.atom (.group union) [], ?_, meant.trans value.symm, .inl ⟨_, rfl⟩⟩
      simpa [Operand.tokens, Atom.tokens, Mark.tokens] using spelled
  · rename_i rest
    split at accepted
    · cases accepted
    · rename_i members rest₁ h₁ first
      simp only [List.length_cons] at short
      obtain ⟨fields, spelled, rfl⟩ := below.fields (by omega) _ first
      obtain ⟨value, rfl⟩ := eq_of_expect accepted
      refine ⟨.atom (.record fields) [], ?_, value.symm, .inl ⟨_, rfl⟩⟩
      simpa [Operand.tokens, Atom.tokens, Mark.tokens] using spelled
  · rename_i rest
    split at accepted
    · cases accepted
    · rename_i list rest₁ h₁ first
      split at accepted
      · cases accepted
      · rename_i sameList rest₂ h₂ closed
        simp only [List.length_cons] at short
        obtain ⟨arguments, spelled, rfl⟩ := below.arguments (by omega) _ first
        obtain ⟨rfl, rfl⟩ := eq_of_expect closed
        split at accepted
        · cases accepted
        · rename_i result rest₃ h₃ second
          cases accepted
          rcases readResult_spelled below (by omega) second with
            ⟨rfl, unread⟩ | ⟨operand, resultSpelled, rfl, unmarked⟩
          · refine ⟨.atom (.function arguments) [], ?_, rfl, .inl ⟨_, rfl⟩⟩
            simpa [Operand.tokens, Atom.tokens, Mark.tokens, ← unread] using spelled
          · refine ⟨.function arguments operand, ?_, rfl, .inr unmarked⟩
            simpa [Operand.tokens, resultSpelled] using spelled
  · cases accepted
    exact ⟨.atom .functionName [], rfl, rfl, .inl ⟨_, rfl⟩⟩
  · rename_i text rest
    split at accepted
    · cases accepted
    · rename_i args rest₁ h₁ first
      cases accepted
      simp only [List.length_cons] at short
      obtain ⟨arguments, spelled, rfl⟩ := readTypeArguments_spelled below (by omega) _ first
      refine ⟨.atom (.name text arguments) [], ?_, rfl, .inl ⟨_, rfl⟩⟩
      simpa [Operand.tokens, Atom.tokens, Mark.tokens] using spelled
  · cases accepted

theorem readOperand_spelled : SpelledOperand ts := by
  intro read accepted
  unfold readOperand at accepted
  split at accepted
  · rename_i rest
    split at accepted
    · rename_i ends
      cases accepted
      exact ⟨.unknown, rfl, rfl, unmarked_of_endsType ends⟩
    · split at accepted
      · cases accepted
      · rename_i type rest₁ h₁ first
        cases accepted
        simp only [List.length_cons] at short
        obtain ⟨operand, spelled, rfl, unmarked⟩ := below.operand (by omega) _ first
        exact ⟨.nullable operand, congrArg _ spelled, rfl, unmarked⟩
  · rename_i rest
    split at accepted
    · cases accepted
    · rename_i first
      cases accepted
      simp only [List.length_cons] at short
      obtain ⟨operand, spelled, meant, unmarked⟩ := below.operand (by omega) _ first
      exact ⟨.definite operand, congrArg _ spelled, meant, unmarked⟩
  · split at accepted
    · cases accepted
    · rename_i type rest₁ h₁ first
      cases accepted
      obtain ⟨operand, spelled, rfl, isAtom⟩ := readAtom_spelled below short first
      rcases isAtom with ⟨atom, rfl⟩ | unmarked
      · obtain ⟨marks, marksSpelled, meant, unmarked⟩ := readMarks_spelled _ rest₁ h₁
        refine ⟨.atom atom marks, ?_, meant, unmarked⟩
        rw [Operand.tokens, Mark.tokens, List.append_nil] at spelled
        rw [Operand.tokens, List.append_assoc]
        exact (congrArg (atom.tokens ++ ·) marksSpelled).trans spelled
      · rw [readMarks_of_unmarked h₁ unmarked]
        exact ⟨operand, spelled, rfl, unmarked⟩

theorem readAlternatives_spelled
    : Spelled Alternatives.tokens Alternatives.types ts (readAlternatives ts) := by
  intro read accepted
  unfold readAlternatives at accepted
  split at accepted
  · rename_i rest
    split at accepted
    · cases accepted
    · rename_i type rest₁ h₁ first
      split at accepted
      · cases accepted
      · rename_i types rest₂ h₂ second
        cases accepted
        simp only [List.length_cons] at short
        obtain ⟨operand, operandSpelled, rfl, _⟩ := below.operand (by omega) _ first
        obtain ⟨more, moreSpelled, rfl⟩ := below.alternatives (by omega) _ second
        refine ⟨.bar operand more, ?_, rfl⟩
        rw [Alternatives.tokens, List.cons_append, List.append_assoc, moreSpelled, operandSpelled]
  · cases accepted
    exact ⟨.none, rfl, rfl⟩

theorem readChain_spelled : Spelled Chain.tokens Chain.type ts (readChain ts) := by
  intro read accepted
  unfold readChain at accepted
  split at accepted
  · cases accepted
  · rename_i type rest₁ h₁ first
    split at accepted
    · cases accepted
    · rename_i types rest₂ h₂ second
      cases accepted
      obtain ⟨operand, operandSpelled, rfl, _⟩ := readOperand_spelled below short _ first
      obtain ⟨more, moreSpelled, rfl⟩ := below.alternatives (by omega) _ second
      refine ⟨.of operand more, ?_, rfl⟩
      rw [Chain.tokens, List.append_assoc, moreSpelled, operandSpelled]

theorem readUnion_spelled : Spelled Union.tokens Union.type ts (readUnion ts) := by
  intro read accepted
  unfold readUnion at accepted
  split at accepted
  · rename_i rest
    split at accepted
    · cases accepted
    · rename_i first
      cases accepted
      simp only [List.length_cons] at short
      obtain ⟨chain, spelled, meant⟩ := below.chain (by omega) _ first
      exact ⟨.of true chain, congrArg _ spelled, meant⟩
  · obtain ⟨chain, spelled, meant⟩ := readChain_spelled below short _ accepted
    exact ⟨.of false chain, spelled, meant⟩

theorem readMarked_spelled : Spelled Marked.tokens Marked.hint ts (readMarked ts) := by
  intro read accepted
  unfold readMarked at accepted
  split at accepted
  · rename_i rest
    simp only [List.length_cons] at short
    split at accepted
    · cases accepted
      obtain ⟨optional, spelled, meant⟩ :=
        readOptional_spelled .any true (Nat.lt_succ_self rest.length)
      exact ⟨.anything optional, congrArg _ spelled, by rw [Marked.hint, meant]⟩
    · rename_i notEnd
      split at accepted
      · cases accepted
      · rename_i type rest₁ h₁ first
        cases accepted
        obtain ⟨⟨bar, chain⟩, unionSpelled, rfl⟩ := below.union (by omega) _ first
        obtain ⟨optional, spelled, meant⟩ := readOptional_spelled _ true (Nat.lt_succ_of_lt h₁)
        cases bar with
        | true =>
            rw [← unionSpelled] at notEnd
            exact absurd rfl notEnd
        | false =>
            refine ⟨.variadic chain optional, ?_, by rw [Marked.hint, meant, Union.type]⟩
            rw [Marked.tokens, List.cons_append, List.append_assoc, spelled]
            exact congrArg _ unionSpelled
  · split at accepted
    · cases accepted
    · rename_i type rest₁ h₁ first
      cases accepted
      obtain ⟨union, unionSpelled, rfl⟩ := readUnion_spelled below short _ first
      obtain ⟨optional, spelled, meant⟩ := readOptional_spelled _ false h₁
      refine ⟨.plain union optional, ?_, by rw [Marked.hint, meant]⟩
      rw [Marked.tokens, List.append_assoc, spelled, unionSpelled]

theorem readArguments_spelled
    : Spelled Arguments.tokens Arguments.list ts (readArguments ts) := by
  intro read accepted
  unfold readArguments at accepted
  split at accepted
  · cases accepted
    exact ⟨.none, rfl, rfl⟩
  · cases accepted
    exact ⟨.none, rfl, rfl⟩
  case h_5 =>
    split at accepted
    · cases accepted
    · rename_i hint rest₁ h₁ first
      split at accepted
      · cases accepted
      · rename_i arguments rest₂ h₂ second
        cases accepted
        obtain ⟨marked, markedSpelled, rfl⟩ := readMarked_spelled below short _ first
        obtain ⟨more, moreSpelled, rfl⟩ := below.moreArguments (by omega) _ second
        refine ⟨.some (.param marked) more, ?_, rfl⟩
        rw [Arguments.tokens, Argument.tokens, List.append_assoc, moreSpelled, markedSpelled]
  -- the receiver and what is constructed
  all_goals
    rename_i rest
    split at accepted
    · cases accepted
    · rename_i type rest₁ h₁ first
      split at accepted
      · cases accepted
      · rename_i arguments rest₂ h₂ second
        cases accepted
        simp only [List.length_cons] at short
        obtain ⟨union, unionSpelled, rfl⟩ := below.union (by omega) _ first
        obtain ⟨more, moreSpelled, rfl⟩ := below.moreArguments (by omega) _ second
        have spelled : union.tokens ++ more.tokens ++ rest₂ = rest := by
          rw [List.append_assoc, moreSpelled, unionSpelled]
        first
        | exact ⟨.some (.receiver union) more, congrArg _ (congrArg _ spelled), rfl⟩
        | exact ⟨.some (.constructs union) more, congrArg _ (congrArg _ spelled), rfl⟩

theorem readMoreArguments_spelled
    : Spelled MoreArguments.tokens MoreArguments.list ts (readMoreArguments ts) := by
  intro read accepted
  unfold readMoreArguments at accepted
  split at accepted
  · rename_i rest
    split at accepted
    · cases accepted
    · rename_i first
      cases accepted
      simp only [List.length_cons] at short
      obtain ⟨arguments, spelled, meant⟩ := below.arguments (by omega) _ first
      cases arguments with
      | none => exact ⟨.trailing, congrArg _ spelled, meant⟩
      | some argument more => exact ⟨.comma argument more, congrArg _ spelled, meant⟩
  · cases accepted
    exact ⟨.none, rfl, rfl⟩

theorem readFields_spelled : Spelled Fields.tokens Fields.members ts (readFields ts) := by
  intro read accepted
  unfold readFields at accepted
  split at accepted
  · cases accepted
    exact ⟨.none, rfl, rfl⟩
  · cases accepted
    exact ⟨.none, rfl, rfl⟩
  · rename_i token rest _
    split at accepted
    · cases accepted
    · rename_i text named
      obtain ⟨name, rfl, rfl⟩ := eq_token_of_fieldName? named
      split at accepted
      · rename_i rest
        split at accepted
        · cases accepted
        · rename_i hint rest₁ h₁ first
          split at accepted
          · cases accepted
          · rename_i fields rest₂ h₂ second
            cases accepted
            simp only [List.length_cons] at short
            obtain ⟨marked, markedSpelled, rfl⟩ := below.marked (by omega) _ first
            obtain ⟨more, moreSpelled, rfl⟩ := below.moreFields (by omega) _ second
            refine ⟨.some (.typed name marked) more, ?_, rfl⟩
            rw [Fields.tokens, Field.tokens, List.append_assoc, moreSpelled, List.cons_append,
              List.cons_append, markedSpelled]
      · split at accepted
        · cases accepted
        · rename_i fields rest₁ h₁ first
          cases accepted
          simp only [List.length_cons] at short
          obtain ⟨more, moreSpelled, rfl⟩ := below.moreFields (by omega) _ first
          refine ⟨.some (.bare name) more, ?_, rfl⟩
          rw [Fields.tokens, Field.tokens, List.append_assoc, moreSpelled, List.singleton_append]

theorem readMoreFields_spelled
    : Spelled MoreFields.tokens MoreFields.members ts (readMoreFields ts) := by
  intro read accepted
  unfold readMoreFields at accepted
  split at accepted
  · rename_i rest
    split at accepted
    · cases accepted
    · rename_i first
      cases accepted
      simp only [List.length_cons] at short
      obtain ⟨fields, spelled, meant⟩ := below.fields (by omega) _ first
      cases fields with
      | none => exact ⟨.trailing, congrArg _ spelled, meant⟩
      | some field more => exact ⟨.comma field more, congrArg _ spelled, meant⟩
  · cases accepted
    exact ⟨.none, rfl, rfl⟩

end step

/-- Whatever the readers accept is spelled by a phrase, by induction on the number of tokens. -/
theorem spelledBelow (n : Nat) : SpelledBelow n := by
  induction n with
  | zero => constructor <;> intro ts short <;> exact absurd short (Nat.not_lt_zero _)
  | succ n ih =>
      constructor <;> intro ts short <;> replace short := Nat.le_of_lt_succ short
      · exact readMarked_spelled ih short
      · exact readUnion_spelled ih short
      · exact readChain_spelled ih short
      · exact readAlternatives_spelled ih short
      · exact readOperand_spelled ih short
      · exact readMoreTypes_spelled ih short
      · exact readArguments_spelled ih short
      · exact readMoreArguments_spelled ih short
      · exact readFields_spelled ih short
      · exact readMoreFields_spelled ih short

/-- A hint that is read off some tokens is what a phrase means that spells all of them. -/
theorem exists_phrase_of_ofTokens {hint : Hint} (accepted : ofTokens ts = .ok hint)
    : ∃ phrase : Marked, phrase.tokens = ts ∧ phrase.hint = hint := by
  unfold ofTokens at accepted
  split at accepted
  · cases accepted
  · rename_i first
    cases accepted
    obtain ⟨phrase, spelled, meant⟩ :=
      (spelledBelow _).marked (Nat.lt_succ_self ts.length) _ first
    exact ⟨phrase, by simpa using spelled, meant⟩
  · cases accepted

end Typings.Hint
