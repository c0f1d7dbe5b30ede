import Typings.Proofs.Hint.Completeness

/-! Two phrases that spell the front of the same tokens are the same, where both end there. So no
row of tokens has two derivations.
-/

namespace Typings.Hint

open Phrase

variable {r s : List Token.Kind}

-----------------------------------------------------------------------------------------
-- Words, marks and what may be left out
-----------------------------------------------------------------------------------------

theorem Phrase.Word.token_injective {v w : Word} (same : v.token = w.token) : v = w := by
  cases v <;> cases w <;> simp_all [Word.token]

theorem Phrase.FieldName.token_injective {v w : FieldName} (same : v.token = w.token) : v = w := by
  cases v <;> cases w <;> simp_all [FieldName.token]

/-- No atom but a word begins with the token of one. -/
theorem Phrase.Word.token_ne (word : Word)
    : word.token ≠ .leftParen ∧ word.token ≠ .leftBrace ∧ word.token ≠ .function
      ∧ ∀ text, word.token ≠ .name text := by
  cases word <;> simp [Word.token]

theorem Phrase.FieldName.token_ne (name : FieldName) : name.token ≠ .rightBrace := by
  cases name <;> simp [FieldName.token]

theorem Phrase.Mark.unique {marks others : List Mark} (endsR : endsType r = true)
    (endsS : endsType s = true) (same : Mark.tokens marks ++ r = Mark.tokens others ++ s)
    : marks = others ∧ r = s := by
  induction marks generalizing others with
  | nil =>
      cases others with
      | nil => exact ⟨rfl, same⟩
      | cons mark others =>
          simp only [Mark.tokens, List.nil_append] at same
          subst same
          cases mark <;> cases endsR
  | cons mark marks ih =>
      cases others with
      | nil =>
          simp only [Mark.tokens, List.nil_append] at same
          subst same
          cases mark <;> cases endsS
      | cons other others =>
          cases mark <;> cases other
          all_goals first | simp [Mark.tokens] at same; done | skip
          all_goals
            simp only [Mark.tokens, List.cons_append, List.cons.injEq, true_and] at same
            obtain ⟨rfl, rfl⟩ := ih same
            exact ⟨rfl, rfl⟩

theorem perhaps_unique {p q : Bool} (endsR : endsMarked r = true) (endsS : endsMarked s = true)
    (same : perhaps .equals p ++ r = perhaps .equals q ++ s)
    : p = q ∧ r = s := by
  cases p <;> cases q
  · exact ⟨rfl, same⟩
  · rw [show r = .equals :: s from same] at endsR
    cases endsR
  · rw [← show .equals :: r = s from same] at endsS
    cases endsS
  · exact ⟨rfl, (List.cons.inj same).2⟩

theorem Phrase.Argument.opens (argument : Phrase.Argument) (rest : List Token.Kind)
    : opensMarked (argument.tokens ++ rest) = true := by
  cases argument with
  | receiver | constructs => rfl
  | param type => exact type.opens rest

theorem Phrase.Atom.not_closed (atom : Atom) {marks : List Mark} (closed : opensAtom s = false)
    (same : (Operand.atom atom marks).tokens ++ r = s) : False := by
  have opens := atom.opens (Mark.tokens marks ++ r)
  rw [← List.append_assoc, ← Operand.tokens, same, closed] at opens
  cases opens

/-- An atom that ends and begins like a function with arguments is one. -/
theorem Phrase.Atom.of_function (atom : Atom) (ends : endsAtom r = true)
    (same : atom.tokens ++ r = .function :: .leftParen :: s)
    : ∃ arguments, atom = .function arguments ∧ arguments.tokens ++ .rightParen :: r = s := by
  cases atom with
  | word word => simp [Atom.tokens, word.token_ne] at same
  | group | record | name => simp [Atom.tokens] at same
  | functionName =>
      rw [show r = _ from (List.cons.inj same).2] at ends
      cases ends
  | function arguments =>
      refine ⟨arguments, rfl, ?_⟩
      simpa [Atom.tokens] using same

theorem Phrase.Argument.not_closed (argument : Phrase.Argument) (closed : opensMarked s = false)
    (same : argument.tokens ++ r = s) : False := by
  have opens := argument.opens r
  rw [same, closed] at opens
  cases opens

theorem Phrase.Field.not_closed (field : Field) (same : field.tokens ++ r = .rightBrace :: s)
    : False := by
  cases field with
  | bare name | typed name => exact name.token_ne (List.cons.inj same).1

-----------------------------------------------------------------------------------------
-- All phrases
-----------------------------------------------------------------------------------------

mutual
theorem Phrase.Marked.unique (p q : Marked) {r s : List Token.Kind} (endsR : endsMarked r = true)
    (endsS : endsMarked s = true) (same : p.tokens ++ r = q.tokens ++ s)
    : p = q ∧ r = s := by
  cases p with
  | plain type optional =>
      have opens := type.opens (perhaps .equals optional ++ r)
      cases q with
      | plain other perhapsOther =>
          simp only [Marked.tokens, List.append_assoc] at same
          obtain ⟨rfl, after⟩ := type.unique other (endsUnion_perhaps _ endsR)
            (endsUnion_perhaps _ endsS) same
          obtain ⟨rfl, rfl⟩ := perhaps_unique endsR endsS after
          exact ⟨rfl, rfl⟩
      | variadic | anything =>
          simp only [Marked.tokens, List.append_assoc, List.cons_append] at same
          rw [same] at opens
          cases opens
  | variadic type optional =>
      cases q with
      | plain other perhapsOther =>
          have opens := other.opens (perhaps .equals perhapsOther ++ s)
          simp only [Marked.tokens, List.append_assoc, List.cons_append] at same
          rw [← same] at opens
          cases opens
      | variadic other perhapsOther =>
          simp only [Marked.tokens, List.append_assoc, List.cons_append, List.cons.injEq,
            true_and] at same
          obtain ⟨rfl, after⟩ := type.unique other (endsUnion_perhaps _ endsR)
            (endsUnion_perhaps _ endsS) same
          obtain ⟨rfl, rfl⟩ := perhaps_unique endsR endsS after
          exact ⟨rfl, rfl⟩
      | anything perhapsOther =>
          have opens := type.opens (perhaps .equals optional ++ r)
          simp only [Marked.tokens, List.append_assoc, List.cons_append, List.cons.injEq,
            true_and] at same
          rw [same] at opens
          exact absurd (endsType_of_endsUnion (endsUnion_perhaps _ endsS))
            (not_endsType_of_opens opens)
  | anything optional =>
      cases q with
      | plain other perhapsOther =>
          have opens := other.opens (perhaps .equals perhapsOther ++ s)
          simp only [Marked.tokens, List.append_assoc, List.cons_append] at same
          rw [← same] at opens
          cases opens
      | variadic other perhapsOther =>
          have opens := other.opens (perhaps .equals perhapsOther ++ s)
          simp only [Marked.tokens, List.append_assoc, List.cons_append, List.cons.injEq,
            true_and] at same
          rw [← same] at opens
          exact absurd (endsType_of_endsUnion (endsUnion_perhaps _ endsR))
            (not_endsType_of_opens opens)
      | anything perhapsOther =>
          simp only [Marked.tokens, List.cons_append, List.cons.injEq, true_and] at same
          obtain ⟨rfl, rfl⟩ := perhaps_unique endsR endsS same
          exact ⟨rfl, rfl⟩
termination_by structural p

theorem Phrase.Union.unique (p q : Phrase.Union) {r s : List Token.Kind}
    (endsR : endsUnion r = true) (endsS : endsUnion s = true)
    (same : p.tokens ++ r = q.tokens ++ s)
    : p = q ∧ r = s := by
  obtain ⟨bar, chain⟩ := p
  obtain ⟨otherBar, other⟩ := q
  have opens := chain.opens r
  have otherOpens := other.opens s
  cases bar <;> cases otherBar
  · obtain ⟨rfl, rfl⟩ := chain.unique other endsR endsS same
    exact ⟨rfl, rfl⟩
  · rw [show chain.tokens ++ r = .pipe :: (other.tokens ++ s) from same] at opens
    cases opens
  · rw [← show .pipe :: (chain.tokens ++ r) = other.tokens ++ s from same] at otherOpens
    cases otherOpens
  · obtain ⟨rfl, rfl⟩ := chain.unique other endsR endsS (List.cons.inj same).2
    exact ⟨rfl, rfl⟩
termination_by structural p

theorem Phrase.Chain.unique (p q : Chain) {r s : List Token.Kind} (endsR : endsUnion r = true)
    (endsS : endsUnion s = true) (same : p.tokens ++ r = q.tokens ++ s)
    : p = q ∧ r = s := by
  obtain ⟨first, more⟩ := p
  obtain ⟨other, others⟩ := q
  simp only [Chain.tokens, List.append_assoc] at same
  obtain ⟨rfl, after⟩ := first.unique other (endsType_alternatives more endsR)
    (endsType_alternatives others endsS) same
  obtain ⟨rfl, rfl⟩ := more.unique others endsR endsS after
  exact ⟨rfl, rfl⟩
termination_by structural p

theorem Phrase.Alternatives.unique (p q : Alternatives) {r s : List Token.Kind}
    (endsR : endsUnion r = true) (endsS : endsUnion s = true)
    (same : p.tokens ++ r = q.tokens ++ s)
    : p = q ∧ r = s := by
  cases p with
  | none =>
      cases q with
      | none => exact ⟨rfl, same⟩
      | bar =>
          rw [Alternatives.tokens.eq_1, List.nil_append] at same
          subst same
          cases endsR
  | bar operand more =>
      cases q with
      | none =>
          rw [Alternatives.tokens.eq_1, List.nil_append] at same
          subst same
          cases endsS
      | bar other others =>
          simp only [Alternatives.tokens, List.append_assoc, List.cons_append, List.cons.injEq,
            true_and] at same
          obtain ⟨rfl, after⟩ := operand.unique other (endsType_alternatives more endsR)
            (endsType_alternatives others endsS) same
          obtain ⟨rfl, rfl⟩ := more.unique others endsR endsS after
          exact ⟨rfl, rfl⟩
termination_by structural p

theorem Phrase.Operand.unique (p q : Operand) {r s : List Token.Kind} (endsR : endsType r = true)
    (endsS : endsType s = true) (same : p.tokens ++ r = q.tokens ++ s)
    : p = q ∧ r = s := by
  cases p with
  | unknown =>
      cases q with
      | unknown => exact ⟨rfl, (List.cons.inj same).2⟩
      | nullable other =>
          rw [show r = _ from (List.cons.inj same).2] at endsR
          exact absurd endsR (not_endsType_of_opens (other.opens s))
      | definite | function => simp [Operand.tokens] at same
      | atom other marks => exact (other.not_closed rfl same.symm).elim
  | nullable operand =>
      cases q with
      | unknown =>
          rw [← show _ = s from (List.cons.inj same).2] at endsS
          exact absurd endsS (not_endsType_of_opens (operand.opens r))
      | nullable other =>
          obtain ⟨rfl, rfl⟩ := operand.unique other endsR endsS (List.cons.inj same).2
          exact ⟨rfl, rfl⟩
      | definite | function => simp [Operand.tokens] at same
      | atom other marks => exact (other.not_closed rfl same.symm).elim
  | definite operand =>
      cases q with
      | unknown | nullable | function => simp [Operand.tokens] at same
      | definite other =>
          obtain ⟨rfl, rfl⟩ := operand.unique other endsR endsS (List.cons.inj same).2
          exact ⟨rfl, rfl⟩
      | atom other marks => exact (other.not_closed rfl same.symm).elim
  | atom atom marks =>
      cases q with
      | unknown | nullable | definite => exact (atom.not_closed rfl same).elim
      | atom other others =>
          simp only [Operand.tokens, List.append_assoc] at same
          obtain ⟨rfl, after⟩ := atom.unique other (endsAtom_marks marks endsR)
            (endsAtom_marks others endsS) same
          obtain ⟨rfl, rfl⟩ := Mark.unique endsR endsS after
          exact ⟨rfl, rfl⟩
      | function arguments result =>
          simp only [Operand.tokens, List.append_assoc, List.cons_append] at same
          exact (atom.no_result arguments (endsAtom_marks marks endsR) same).elim
  | function arguments result =>
      cases q with
      | unknown | nullable | definite => simp [Operand.tokens] at same
      | atom other others =>
          simp only [Operand.tokens, List.append_assoc, List.cons_append] at same
          have ends := endsAtom_marks others endsS
          obtain ⟨otherArguments, rfl, after⟩ := other.of_function ends same.symm
          have colon := (arguments.unique otherArguments after.symm).2
          rw [← colon] at ends
          cases ends
      | function otherArguments other =>
          simp only [Operand.tokens, List.append_assoc, List.cons_append, List.cons.injEq,
            true_and] at same
          obtain ⟨rfl, after⟩ := arguments.unique otherArguments same
          obtain ⟨rfl, rfl⟩ := result.unique other endsR endsS (List.cons.inj after).2
          exact ⟨rfl, rfl⟩
termination_by structural p

/-- An atom that ends is no function whose result stands behind it. -/
theorem Phrase.Atom.no_result (p : Atom) (arguments : Arguments) {r s : List Token.Kind}
    (endsR : endsAtom r = true)
    (same : p.tokens ++ r
      = .function :: .leftParen :: (arguments.tokens ++ .rightParen :: .colon :: s))
    : False := by
  cases p with
  | word word => simp [Atom.tokens, word.token_ne] at same
  | group | record | name => simp [Atom.tokens] at same
  | functionName =>
      rw [Atom.tokens, List.singleton_append] at same
      rw [show r = _ from (List.cons.inj same).2] at endsR
      cases endsR
  | function own =>
      simp only [Atom.tokens, List.append_assoc, List.cons_append, List.nil_append,
        List.cons.injEq, true_and] at same
      rw [(own.unique arguments same).2] at endsR
      cases endsR
termination_by structural p

theorem Phrase.Atom.unique (p q : Atom) {r s : List Token.Kind} (endsR : endsAtom r = true)
    (endsS : endsAtom s = true) (same : p.tokens ++ r = q.tokens ++ s)
    : p = q ∧ r = s := by
  cases p with
  | word word =>
      cases q with
      | word other =>
          obtain ⟨token, rfl⟩ := List.cons.inj same
          exact ⟨congrArg _ (Word.token_injective token), rfl⟩
      | group | record | functionName | function | name =>
          simp [Atom.tokens, word.token_ne] at same
  | group type =>
      cases q with
      | word other => simp [Atom.tokens, other.token_ne.1.symm] at same
      | record | functionName | function | name => simp [Atom.tokens] at same
      | group other =>
          simp only [Atom.tokens, List.append_assoc, List.cons_append, List.nil_append,
            List.cons.injEq, true_and] at same
          obtain ⟨rfl, after⟩ := type.unique other rfl rfl same
          exact ⟨rfl, (List.cons.inj after).2⟩
  | record fields =>
      cases q with
      | word other => simp [Atom.tokens, other.token_ne.2.1.symm] at same
      | group | functionName | function | name => simp [Atom.tokens] at same
      | record others =>
          simp only [Atom.tokens, List.append_assoc, List.cons_append, List.nil_append,
            List.cons.injEq, true_and] at same
          obtain ⟨rfl, rfl⟩ := fields.unique others same
          exact ⟨rfl, rfl⟩
  | functionName =>
      cases q with
      | word other => simp [Atom.tokens, other.token_ne.2.2.1.symm] at same
      | group | record | name => simp [Atom.tokens] at same
      | functionName => exact ⟨rfl, (List.cons.inj same).2⟩
      | function arguments =>
          rw [show r = _ from (List.cons.inj same).2] at endsR
          cases endsR
  | function arguments =>
      cases q with
      | word other => simp [Atom.tokens, other.token_ne.2.2.1.symm] at same
      | group | record | name => simp [Atom.tokens] at same
      | functionName =>
          rw [← show _ = s from (List.cons.inj same).2] at endsS
          cases endsS
      | function others =>
          simp only [Atom.tokens, List.append_assoc, List.cons_append, List.nil_append,
            List.cons.injEq, true_and] at same
          obtain ⟨rfl, rfl⟩ := arguments.unique others same
          exact ⟨rfl, rfl⟩
  | name text arguments =>
      cases q with
      | word other => simp [Atom.tokens, (other.token_ne.2.2.2 text).symm] at same
      | group | record | functionName | function => simp [Atom.tokens] at same
      | name otherText others =>
          obtain ⟨text, after⟩ := List.cons.inj same
          obtain ⟨rfl, rfl⟩ := arguments.unique others endsR endsS after
          cases text
          exact ⟨rfl, rfl⟩
termination_by structural p

theorem Phrase.TypeArguments.unique (p q : TypeArguments) {r s : List Token.Kind}
    (endsR : endsAtom r = true) (endsS : endsAtom s = true)
    (same : p.tokens ++ r = q.tokens ++ s)
    : p = q ∧ r = s := by
  cases p with
  | none =>
      cases q with
      | none => exact ⟨rfl, same⟩
      | angled point other others =>
          rw [show r = _ from same] at endsR
          cases point <;> cases endsR
  | angled point first more =>
      cases q with
      | none =>
          rw [← show _ = s from same] at endsS
          cases point <;> cases endsS
      | angled otherPoint other others =>
          simp only [TypeArguments.tokens, List.append_assoc, List.cons_append,
            List.nil_append] at same
          obtain ⟨rfl, inner⟩ : point = otherPoint
              ∧ first.tokens ++ (more.tokens ++ .rightAngle :: r)
                = other.tokens ++ (others.tokens ++ .rightAngle :: s) := by
            cases point <;> cases otherPoint <;> simp_all
          obtain ⟨rfl, after⟩ := first.unique other (endsUnion_types more) (endsUnion_types others)
            inner
          obtain ⟨rfl, rfl⟩ := more.unique others after
          exact ⟨rfl, rfl⟩
termination_by structural p

theorem Phrase.Types.unique (p q : Types) {r s : List Token.Kind}
    (same : p.tokens ++ .rightAngle :: r = q.tokens ++ .rightAngle :: s)
    : p = q ∧ r = s := by
  cases p with
  | none =>
      cases q with
      | none => exact ⟨rfl, (List.cons.inj same).2⟩
      | comma => simp [Types.tokens] at same
  | comma type more =>
      cases q with
      | none => simp [Types.tokens] at same
      | comma other others =>
          simp only [Types.tokens, List.append_assoc, List.cons_append, List.cons.injEq,
            true_and] at same
          obtain ⟨rfl, after⟩ := type.unique other (endsUnion_types more) (endsUnion_types others)
            same
          obtain ⟨rfl, rfl⟩ := more.unique others after
          exact ⟨rfl, rfl⟩
termination_by structural p

theorem Phrase.Arguments.unique (p q : Arguments) {r s : List Token.Kind}
    (same : p.tokens ++ .rightParen :: r = q.tokens ++ .rightParen :: s)
    : p = q ∧ r = s := by
  cases p with
  | none =>
      cases q with
      | none => exact ⟨rfl, (List.cons.inj same).2⟩
      | some other others =>
          simp only [Arguments.tokens, List.append_assoc, List.nil_append] at same
          exact (other.not_closed rfl same.symm).elim
  | some first more =>
      cases q with
      | none =>
          simp only [Arguments.tokens, List.append_assoc, List.nil_append] at same
          exact (first.not_closed rfl same).elim
      | some other others =>
          simp only [Arguments.tokens, List.append_assoc] at same
          obtain ⟨rfl, after⟩ := first.unique other (endsMarked_moreArguments more)
            (endsMarked_moreArguments others) same
          obtain ⟨rfl, rfl⟩ := more.unique others after
          exact ⟨rfl, rfl⟩
termination_by structural p

theorem Phrase.MoreArguments.unique (p q : MoreArguments) {r s : List Token.Kind}
    (same : p.tokens ++ .rightParen :: r = q.tokens ++ .rightParen :: s)
    : p = q ∧ r = s := by
  cases p with
  | none =>
      cases q with
      | none => exact ⟨rfl, (List.cons.inj same).2⟩
      | trailing | comma => simp [MoreArguments.tokens] at same
  | trailing =>
      cases q with
      | none => simp [MoreArguments.tokens] at same
      | trailing =>
          simp only [MoreArguments.tokens, List.cons_append, List.nil_append, List.cons.injEq,
            true_and] at same
          exact ⟨rfl, same⟩
      | comma other others =>
          simp only [MoreArguments.tokens, List.append_assoc, List.cons_append, List.nil_append,
            List.cons.injEq, true_and] at same
          exact (other.not_closed rfl same.symm).elim
  | comma argument more =>
      cases q with
      | none => simp [MoreArguments.tokens] at same
      | trailing =>
          simp only [MoreArguments.tokens, List.append_assoc, List.cons_append, List.nil_append,
            List.cons.injEq, true_and] at same
          exact (argument.not_closed rfl same).elim
      | comma other others =>
          simp only [MoreArguments.tokens, List.append_assoc, List.cons_append, List.cons.injEq,
            true_and] at same
          obtain ⟨rfl, after⟩ := argument.unique other (endsMarked_moreArguments more)
            (endsMarked_moreArguments others) same
          obtain ⟨rfl, rfl⟩ := more.unique others after
          exact ⟨rfl, rfl⟩
termination_by structural p

theorem Phrase.Argument.unique (p q : Phrase.Argument) {r s : List Token.Kind}
    (endsR : endsMarked r = true) (endsS : endsMarked s = true)
    (same : p.tokens ++ r = q.tokens ++ s)
    : p = q ∧ r = s := by
  cases p with
  | receiver type =>
      cases q with
      | receiver other =>
          simp only [Argument.tokens, List.cons_append, List.cons.injEq, true_and] at same
          obtain ⟨rfl, rfl⟩ := type.unique other (endsUnion_of_endsMarked endsR)
            (endsUnion_of_endsMarked endsS) same
          exact ⟨rfl, rfl⟩
      | constructs => simp [Argument.tokens] at same
      | param other => exact (other.not_labelled endsS same.symm).elim
  | constructs type =>
      cases q with
      | receiver => simp [Argument.tokens] at same
      | constructs other =>
          simp only [Argument.tokens, List.cons_append, List.cons.injEq, true_and] at same
          obtain ⟨rfl, rfl⟩ := type.unique other (endsUnion_of_endsMarked endsR)
            (endsUnion_of_endsMarked endsS) same
          exact ⟨rfl, rfl⟩
      | param other => exact (other.not_labelled endsS same.symm).elim
  | param type =>
      cases q with
      | receiver | constructs => exact (type.not_labelled endsR same).elim
      | param other =>
          obtain ⟨rfl, rfl⟩ := type.unique other endsR endsS same
          exact ⟨rfl, rfl⟩
termination_by structural p

theorem Phrase.Fields.unique (p q : Fields) {r s : List Token.Kind}
    (same : p.tokens ++ .rightBrace :: r = q.tokens ++ .rightBrace :: s)
    : p = q ∧ r = s := by
  cases p with
  | none =>
      cases q with
      | none => exact ⟨rfl, (List.cons.inj same).2⟩
      | some other others =>
          simp only [Fields.tokens, List.append_assoc, List.nil_append] at same
          exact (other.not_closed same.symm).elim
  | some first more =>
      cases q with
      | none =>
          simp only [Fields.tokens, List.append_assoc, List.nil_append] at same
          exact (first.not_closed same).elim
      | some other others =>
          simp only [Fields.tokens, List.append_assoc] at same
          obtain ⟨rfl, after⟩ := first.unique other (endsMarked_moreFields more)
            (endsMarked_moreFields others) same
          obtain ⟨rfl, rfl⟩ := more.unique others after
          exact ⟨rfl, rfl⟩
termination_by structural p

theorem Phrase.MoreFields.unique (p q : MoreFields) {r s : List Token.Kind}
    (same : p.tokens ++ .rightBrace :: r = q.tokens ++ .rightBrace :: s)
    : p = q ∧ r = s := by
  cases p with
  | none =>
      cases q with
      | none => exact ⟨rfl, (List.cons.inj same).2⟩
      | trailing | comma => simp [MoreFields.tokens] at same
  | trailing =>
      cases q with
      | none => simp [MoreFields.tokens] at same
      | trailing =>
          simp only [MoreFields.tokens, List.cons_append, List.nil_append, List.cons.injEq,
            true_and] at same
          exact ⟨rfl, same⟩
      | comma other others =>
          simp only [MoreFields.tokens, List.append_assoc, List.cons_append, List.nil_append,
            List.cons.injEq, true_and] at same
          exact (other.not_closed same.symm).elim
  | comma field more =>
      cases q with
      | none => simp [MoreFields.tokens] at same
      | trailing =>
          simp only [MoreFields.tokens, List.append_assoc, List.cons_append, List.nil_append,
            List.cons.injEq, true_and] at same
          exact (field.not_closed same).elim
      | comma other others =>
          simp only [MoreFields.tokens, List.append_assoc, List.cons_append, List.cons.injEq,
            true_and] at same
          obtain ⟨rfl, after⟩ := field.unique other (endsMarked_moreFields more)
            (endsMarked_moreFields others) same
          obtain ⟨rfl, rfl⟩ := more.unique others after
          exact ⟨rfl, rfl⟩
termination_by structural p

theorem Phrase.Field.unique (p q : Field) {r s : List Token.Kind} (endsR : endsMarked r = true)
    (endsS : endsMarked s = true) (same : p.tokens ++ r = q.tokens ++ s)
    : p = q ∧ r = s := by
  cases p with
  | bare name =>
      cases q with
      | bare other =>
          obtain ⟨token, rfl⟩ := List.cons.inj same
          exact ⟨congrArg _ (FieldName.token_injective token), rfl⟩
      | typed other type =>
          rw [show r = _ from (List.cons.inj same).2] at endsR
          cases endsR
  | typed name type =>
      cases q with
      | bare other =>
          rw [← show _ = s from (List.cons.inj same).2] at endsS
          cases endsS
      | typed otherName other =>
          obtain ⟨token, after⟩ := List.cons.inj same
          obtain ⟨rfl, rfl⟩ := type.unique other endsR endsS (List.cons.inj after).2
          exact ⟨congrArg (Field.typed · _) (FieldName.token_injective token), rfl⟩
termination_by structural p
end

end Typings.Hint
