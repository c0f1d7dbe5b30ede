import Typings.Proofs.Hint.Phrase

/-! The readers of hints accept every phrase, and return what it means. -/

namespace Typings.Hint

open Phrase

-----------------------------------------------------------------------------------------
-- What follows a phrase
-----------------------------------------------------------------------------------------

/-- A union ends before some tokens: a type does, and no bar goes on with it. -/
def endsUnion : List Token.Kind → Bool
  | .pipe :: _ => false
  | ts => endsType ts

/-- A type with its marks ends before some tokens. -/
def endsMarked : List Token.Kind → Bool
  | .equals :: _ => false
  | ts => endsUnion ts

/-- An atom ends before some tokens: nothing that it could take begins them. -/
def endsAtom : List Token.Kind → Bool
  | .leftParen :: _ | .leftAngle :: _ | .dot :: _ | .colon :: _ => false
  | _ => true

/-- An atom may begin with the first of some tokens. -/
def opensAtom : List Token.Kind → Bool
  | [] => false
  | t :: _ =>
    match t with
    | .star | .null | .undefined | .true | .false | .string _ | .number _ | .leftParen | .leftBrace
    | .function | .name _ => true
    | _ => false

/-- An operand may begin with the first of some tokens. -/
def opensOperand : List Token.Kind → Bool
  | .question :: _ | .bang :: _ => true
  | ts => opensAtom ts

/-- A union may begin with the first of some tokens. -/
def opensUnion : List Token.Kind → Bool
  | .pipe :: _ => true
  | ts => opensOperand ts

/-- A type with its marks may begin with the first of some tokens. -/
def opensMarked : List Token.Kind → Bool
  | .ellipsis :: _ => true
  | ts => opensUnion ts

variable {rest ts : List Token.Kind} {token : Token.Kind}

theorem endsType_of_endsUnion (ends : endsUnion rest = true) : endsType rest = true := by
  unfold endsUnion at ends
  split at ends
  · cases ends
  · exact ends

theorem endsUnion_of_endsMarked (ends : endsMarked rest = true) : endsUnion rest = true := by
  unfold endsMarked at ends
  split at ends
  · cases ends
  · exact ends

theorem endsAtom_of_endsType (ends : endsType rest = true) : endsAtom rest = true := by
  unfold endsAtom
  split
  all_goals first | rfl | cases ends

/-- No operand begins where a type ends. -/
theorem not_endsType_of_opens (opens : opensOperand ts = true) : ¬ endsType ts = true := by
  intro ends
  unfold endsType at ends
  split at ends
  · cases opens
  · split at ends
    all_goals first | cases opens | cases ends

theorem endsAtom_marks (marks : List Mark) (ends : endsType rest = true)
    : endsAtom (Mark.tokens marks ++ rest) = true := by
  rcases marks with _ | ⟨_ | _, _⟩
  · exact endsAtom_of_endsType ends
  all_goals rfl

theorem Phrase.Atom.opens (atom : Phrase.Atom) (rest : List Token.Kind)
    : opensAtom (atom.tokens ++ rest) = true := by
  cases atom with
  | word word => cases word <;> rfl
  | group | record | functionName | function | name => rfl

theorem Phrase.Operand.opens (operand : Operand) (rest : List Token.Kind)
    : opensOperand (operand.tokens ++ rest) = true := by
  cases operand with
  | unknown | nullable | definite | function => rfl
  | atom atom marks =>
      rw [Operand.tokens, List.append_assoc]
      have opens := atom.opens (Mark.tokens marks ++ rest)
      unfold opensOperand
      split
      · rfl
      · rfl
      · exact opens

theorem Phrase.Chain.opens (chain : Chain) (rest : List Token.Kind)
    : opensOperand (chain.tokens ++ rest) = true := by
  obtain ⟨first, more⟩ := chain
  rw [Chain.tokens, List.append_assoc]
  exact first.opens _

theorem Phrase.Union.opens (union : Phrase.Union) (rest : List Token.Kind)
    : opensUnion (union.tokens ++ rest) = true := by
  obtain ⟨bar, chain⟩ := union
  cases bar with
  | true => rfl
  | false =>
      have opens := chain.opens rest
      unfold opensUnion
      split
      · rfl
      · exact opens

theorem Phrase.Marked.opens (marked : Marked) (rest : List Token.Kind)
    : opensMarked (marked.tokens ++ rest) = true := by
  cases marked with
  | variadic | anything => rfl
  | plain type optional =>
      rw [Marked.tokens, List.append_assoc]
      have opens := type.opens (perhaps .equals optional ++ rest)
      unfold opensMarked
      split
      · rfl
      · exact opens

theorem endsType_alternatives (more : Alternatives) (ends : endsUnion rest = true)
    : endsType (more.tokens ++ rest) = true := by
  cases more with
  | none => exact endsType_of_endsUnion ends
  | bar => rfl

theorem endsUnion_types (more : Types) : endsUnion (more.tokens ++ .rightAngle :: rest) = true := by
  cases more <;> rfl

theorem endsMarked_moreArguments (more : MoreArguments)
    : endsMarked (more.tokens ++ .rightParen :: rest) = true := by
  cases more <;> rfl

theorem endsMarked_moreFields (more : MoreFields)
    : endsMarked (more.tokens ++ .rightBrace :: rest) = true := by
  cases more <;> rfl

theorem endsUnion_perhaps (optional : Bool) (ends : endsMarked rest = true)
    : endsUnion (perhaps .equals optional ++ rest) = true := by
  cases optional with
  | true => rfl
  | false => exact endsUnion_of_endsMarked ends

-----------------------------------------------------------------------------------------
-- What a reader returns
-----------------------------------------------------------------------------------------

/-- A reader returns a value and leaves `rest`. -/
def Returns {α : Type} {n : Nat} (reading : Reading n α) (value : α) (rest : List Token.Kind)
    : Prop :=
  ∃ fewer, reading = .ok ⟨value, rest, fewer⟩

theorem readMarks_tokens {n : Nat} (marks : List Mark) (type : TsType)
    (ends : endsType rest = true) (h : (Mark.tokens marks ++ rest).length < n)
    : ∃ fewer,
        readMarks type (Mark.tokens marks ++ rest) h = ⟨marks.foldl Mark.on type, rest, fewer⟩ := by
  induction marks generalizing type with
  | nil =>
      unfold readMarks
      split
      all_goals first | exact ⟨h, rfl⟩ | simp_all [Mark.tokens, endsType]
  | cons mark marks ih =>
      cases mark with
      | brackets => exact ih (.array type) (Nat.lt_of_succ_lt (Nat.lt_of_succ_lt h))
      | question => exact ih type.orNull (Nat.lt_of_succ_lt h)
      | bang => exact ih type (Nat.lt_of_succ_lt h)

theorem readOptional_perhaps {n : Nat} (type : TsType) (variadic optional : Bool)
    (ends : endsMarked rest = true) (h : (perhaps .equals optional ++ rest).length < n)
    : ∃ fewer,
        readOptional type variadic (perhaps .equals optional ++ rest) h
        = ⟨⟨type, optional, variadic⟩, rest, fewer⟩ := by
  cases optional with
  | true => exact ⟨Nat.lt_of_succ_lt h, rfl⟩
  | false =>
      unfold readOptional
      split
      · simp_all [endsMarked]
      · exact ⟨h, rfl⟩

@[simp]
theorem expect_same {α : Type} {n : Nat} (value : α) (h : (token :: rest).length < n)
    : expect token value (token :: rest) h = .ok ⟨value, rest, Nat.lt_of_succ_lt h⟩ :=
  if_pos rfl

-----------------------------------------------------------------------------------------
-- What each reader makes of what the others return
-----------------------------------------------------------------------------------------

section steps

variable {rest₁ rest₂ rest₃ : List Token.Kind} {type : TsType} {types : List TsType} {hint : Hint}
variable {fields : List (Member TsType)} {arguments : List Argument} {result : Option TsType}

theorem readMarked_anything (optional : Bool) (ends : endsMarked rest = true)
    : Returns (readMarked (.ellipsis :: (perhaps .equals optional ++ rest)))
        ⟨.any, optional, true⟩ rest := by
  obtain ⟨fewer, read⟩ := readOptional_perhaps .any true optional ends (Nat.lt_succ_self _)
  refine ⟨fewer, ?_⟩
  rw [readMarked, if_pos (endsType_of_endsUnion (endsUnion_perhaps optional ends))]
  exact congrArg Except.ok read

theorem readMarked_variadic {optional : Bool} (opens : opensOperand ts = true)
    (first : Returns (readUnion ts) type (perhaps .equals optional ++ rest))
    (ends : endsMarked rest = true)
    : Returns (readMarked (.ellipsis :: ts)) ⟨type, optional, true⟩ rest := by
  obtain ⟨fewer, read⟩ := first
  obtain ⟨fewer', marked⟩ :=
    readOptional_perhaps type true optional ends (Nat.lt_succ_of_lt fewer)
  refine ⟨fewer', ?_⟩
  rw [readMarked, if_neg (not_endsType_of_opens opens), read]
  exact congrArg Except.ok marked

theorem readMarked_plain {optional : Bool} (opens : opensUnion ts = true)
    (first : Returns (readUnion ts) type (perhaps .equals optional ++ rest))
    (ends : endsMarked rest = true)
    : Returns (readMarked ts) ⟨type, optional, false⟩ rest := by
  obtain ⟨fewer, read⟩ := first
  obtain ⟨fewer', marked⟩ := readOptional_perhaps type false optional ends fewer
  refine ⟨fewer', ?_⟩
  unfold readMarked
  split
  · cases opens
  · rw [read]
    exact congrArg Except.ok marked

theorem readUnion_bar (first : Returns (readChain ts) type rest)
    : Returns (readUnion (.pipe :: ts)) type rest := by
  obtain ⟨fewer, read⟩ := first
  refine ⟨Nat.lt_succ_of_lt fewer, ?_⟩
  rw [readUnion, read]
  rfl

theorem readUnion_chain (opens : opensOperand ts = true) (first : Returns (readChain ts) type rest)
    : Returns (readUnion ts) type rest := by
  unfold readUnion
  split
  · cases opens
  · exact first

theorem readChain_alternatives (first : Returns (readOperand ts) type rest₁)
    (second : Returns (readAlternatives rest₁) types rest₂)
    : Returns (readChain ts) (.unionOf (type :: types)) rest₂ := by
  obtain ⟨fewer₁, read₁⟩ := first
  obtain ⟨fewer₂, read₂⟩ := second
  refine ⟨by omega, ?_⟩
  rw [readChain, read₁]
  dsimp only
  rw [read₂]

theorem readAlternatives_none (ends : endsUnion rest = true)
    : Returns (readAlternatives rest) [] rest := by
  unfold readAlternatives
  split
  · cases ends
  · exact ⟨Nat.lt_succ_self _, rfl⟩

theorem readAlternatives_bar (first : Returns (readOperand ts) type rest₁)
    (second : Returns (readAlternatives rest₁) types rest₂)
    : Returns (readAlternatives (.pipe :: ts)) (type :: types) rest₂ := by
  obtain ⟨fewer₁, read₁⟩ := first
  obtain ⟨fewer₂, read₂⟩ := second
  refine ⟨by simp only [List.length_cons]; omega, ?_⟩
  rw [readAlternatives, read₁]
  dsimp only
  rw [read₂]

theorem readOperand_unknown (ends : endsType rest = true)
    : Returns (readOperand (.question :: rest)) .any rest := by
  refine ⟨Nat.lt_succ_self _, ?_⟩
  rw [readOperand, if_pos ends]

theorem readOperand_question (opens : opensOperand ts = true)
    (first : Returns (readOperand ts) type rest)
    : Returns (readOperand (.question :: ts)) type.orNull rest := by
  obtain ⟨fewer, read⟩ := first
  refine ⟨Nat.lt_succ_of_lt fewer, ?_⟩
  rw [readOperand, if_neg (not_endsType_of_opens opens), read]

theorem readOperand_bang (first : Returns (readOperand ts) type rest)
    : Returns (readOperand (.bang :: ts)) type rest := by
  obtain ⟨fewer, read⟩ := first
  refine ⟨Nat.lt_succ_of_lt fewer, ?_⟩
  rw [readOperand, read]
  rfl

theorem readOperand_atom (marks : List Mark) (opens : opensAtom ts = true)
    (first : Returns (readAtom ts) type (Mark.tokens marks ++ rest)) (ends : endsType rest = true)
    : Returns (readOperand ts) (marks.foldl Mark.on type) rest := by
  obtain ⟨fewer, read⟩ := first
  obtain ⟨fewer', marked⟩ := readMarks_tokens marks type ends fewer
  refine ⟨fewer', ?_⟩
  unfold readOperand
  split
  · cases opens
  · cases opens
  · rw [read]
    exact congrArg Except.ok marked

theorem readAtom_word (word : Word)
    : Returns (readAtom (word.token :: rest)) word.type rest := by
  refine ⟨Nat.lt_succ_self _, ?_⟩
  cases word <;> rw [Word.token, readAtom, Word.type]

theorem readAtom_group (first : Returns (readUnion ts) type (.rightParen :: rest))
    : Returns (readAtom (.leftParen :: ts)) type rest := by
  obtain ⟨fewer, read⟩ := first
  refine ⟨?_, ?_⟩
  · simp only [List.length_cons] at fewer ⊢
    omega
  · rw [readAtom, read]
    exact expect_same _ _

theorem readAtom_record (first : Returns (readFields ts) fields (.rightBrace :: rest))
    : Returns (readAtom (.leftBrace :: ts)) (.object fields) rest := by
  obtain ⟨fewer, read⟩ := first
  refine ⟨?_, ?_⟩
  · simp only [List.length_cons] at fewer ⊢
    omega
  · rw [readAtom, read]
    exact expect_same _ _

theorem readAtom_functionName (ends : endsAtom rest = true)
    : Returns (readAtom (.function :: rest)) (.reference "Function") rest := by
  refine ⟨Nat.lt_succ_self _, ?_⟩
  rw [readAtom]
  rintro after rfl
  cases ends

theorem readAtom_function (first : Returns (readArguments ts) arguments (.rightParen :: rest₁))
    (second : Returns (readResult rest₁) result rest₂)
    : Returns (readAtom (.function :: .leftParen :: ts))
        (Argument.functionType arguments result) rest₂ := by
  obtain ⟨fewer₁, read₁⟩ := first
  obtain ⟨fewer₂, read₂⟩ := second
  refine ⟨?_, ?_⟩
  · simp only [List.length_cons] at fewer₁ ⊢
    omega
  · rw [readAtom, read₁]
    simp only [expect_same]
    rw [read₂]

theorem readAtom_name (text : String) (first : Returns (readTypeArguments ts) types rest)
    : Returns (readAtom (.name text :: ts)) (reference text types) rest := by
  obtain ⟨fewer, read⟩ := first
  refine ⟨fewer, ?_⟩
  rw [readAtom, read]

theorem readTypeArguments_none (ends : endsAtom rest = true)
    : Returns (readTypeArguments rest) [] rest := by
  unfold readTypeArguments
  split
  · cases ends
  · cases ends
  · exact ⟨Nat.lt_succ_self _, rfl⟩

theorem readTypeArguments_angled (point : Bool) (first : Returns (readUnion ts) type rest₁)
    (second : Returns (readMoreTypes rest₁) types (.rightAngle :: rest₂))
    : Returns (readTypeArguments (perhaps .dot point ++ .leftAngle :: ts)) (type :: types)
        rest₂ := by
  obtain ⟨fewer₁, read₁⟩ := first
  obtain ⟨fewer₂, read₂⟩ := second
  simp only [List.length_cons] at fewer₂
  cases point
  all_goals
    dsimp only [perhaps_true, perhaps_false, List.nil_append, List.cons_append]
    refine ⟨by simp only [List.length_cons]; omega, ?_⟩
    rw [readTypeArguments, read₁]
    dsimp only
    rw [read₂]
    exact expect_same _ _

theorem readMoreTypes_none
    : Returns (readMoreTypes (.rightAngle :: rest)) [] (.rightAngle :: rest) := by
  refine ⟨Nat.lt_succ_self _, ?_⟩
  rw [readMoreTypes]
  rintro _ ⟨⟩

theorem readMoreTypes_comma (first : Returns (readUnion ts) type rest₁)
    (second : Returns (readMoreTypes rest₁) types rest₂)
    : Returns (readMoreTypes (.comma :: ts)) (type :: types) rest₂ := by
  obtain ⟨fewer₁, read₁⟩ := first
  obtain ⟨fewer₂, read₂⟩ := second
  refine ⟨by simp only [List.length_cons]; omega, ?_⟩
  rw [readMoreTypes, read₁]
  dsimp only
  rw [read₂]

theorem readResult_none (ends : endsAtom rest = true) : Returns (readResult rest) none rest := by
  unfold readResult
  split
  · cases ends
  · exact ⟨Nat.lt_succ_self _, rfl⟩

theorem readResult_colon (first : Returns (readOperand ts) type rest)
    : Returns (readResult (.colon :: ts)) (some type) rest := by
  obtain ⟨fewer, read⟩ := first
  refine ⟨by simp only [List.length_cons]; omega, ?_⟩
  rw [readResult, read]

/-- The receiver of a function and what it constructs are read alike, behind their own words. -/
theorem readArguments_labelled {word : String} {label : TsType → Argument}
    (known : word = "this" ∧ label = .receiver ∨ word = "new" ∧ label = .constructs)
    (first : Returns (readUnion ts) type rest₁)
    (second : Returns (readMoreArguments rest₁) arguments rest₂)
    : Returns (readArguments (.name word :: .colon :: ts)) (label type :: arguments) rest₂ := by
  obtain ⟨fewer₁, read₁⟩ := first
  obtain ⟨fewer₂, read₂⟩ := second
  refine ⟨by simp only [List.length_cons]; omega, ?_⟩
  rcases known with ⟨rfl, rfl⟩ | ⟨rfl, rfl⟩
  all_goals
    rw [readArguments, read₁]
    dsimp only
    rw [read₂]

theorem readArguments_param (opens : opensMarked ts = true)
    (unlabelled : ∀ text after, ts ≠ .name text :: .colon :: after)
    (first : Returns (readMarked ts) hint rest₁)
    (second : Returns (readMoreArguments rest₁) arguments rest₂)
    : Returns (readArguments ts) (.param hint :: arguments) rest₂ := by
  obtain ⟨fewer₁, read₁⟩ := first
  obtain ⟨fewer₂, read₂⟩ := second
  refine ⟨by omega, ?_⟩
  unfold readArguments
  split
  · cases opens
  · cases opens
  · exact absurd rfl (unlabelled _ _)
  · exact absurd rfl (unlabelled _ _)
  · rw [read₁]
    dsimp only
    rw [read₂]

theorem readArguments_none
    : Returns (readArguments (.rightParen :: rest)) [] (.rightParen :: rest) := by
  refine ⟨Nat.lt_succ_self _, ?_⟩
  rw [readArguments]

theorem readMoreArguments_none
    : Returns (readMoreArguments (.rightParen :: rest)) [] (.rightParen :: rest) := by
  refine ⟨Nat.lt_succ_self _, ?_⟩
  rw [readMoreArguments]
  rintro _ ⟨⟩

theorem readMoreArguments_comma (first : Returns (readArguments ts) arguments rest)
    : Returns (readMoreArguments (.comma :: ts)) arguments rest := by
  obtain ⟨fewer, read⟩ := first
  refine ⟨Nat.lt_succ_of_lt fewer, ?_⟩
  rw [readMoreArguments, read]
  rfl

theorem readFields_none : Returns (readFields (.rightBrace :: rest)) [] (.rightBrace :: rest) := by
  refine ⟨Nat.lt_succ_self _, ?_⟩
  rw [readFields]

theorem readFields_bare (name : FieldName) (ends : endsAtom ts = true)
    (first : Returns (readMoreFields ts) fields rest)
    : Returns (readFields (name.token :: ts)) (.property name.text .any false :: fields) rest := by
  obtain ⟨fewer, read⟩ := first
  refine ⟨by simp only [List.length_cons]; omega, ?_⟩
  cases name
  all_goals
    unfold readFields
    dsimp only [FieldName.token, fieldName?]
    split
    · cases ends
    · rw [read]
      rfl

theorem readFields_typed (name : FieldName) (first : Returns (readMarked ts) hint rest₁)
    (second : Returns (readMoreFields rest₁) fields rest₂)
    : Returns (readFields (name.token :: .colon :: ts))
        (.property name.text hint.type hint.optional :: fields) rest₂ := by
  obtain ⟨fewer₁, read₁⟩ := first
  obtain ⟨fewer₂, read₂⟩ := second
  refine ⟨by simp only [List.length_cons]; omega, ?_⟩
  cases name
  all_goals
    unfold readFields
    dsimp only [FieldName.token, fieldName?]
    rw [read₁]
    dsimp only
    rw [read₂]
    rfl

theorem readMoreFields_none
    : Returns (readMoreFields (.rightBrace :: rest)) [] (.rightBrace :: rest) := by
  refine ⟨Nat.lt_succ_self _, ?_⟩
  rw [readMoreFields]
  rintro _ ⟨⟩

theorem readMoreFields_comma (first : Returns (readFields ts) fields rest)
    : Returns (readMoreFields (.comma :: ts)) fields rest := by
  obtain ⟨fewer, read⟩ := first
  refine ⟨Nat.lt_succ_of_lt fewer, ?_⟩
  rw [readMoreFields, read]
  rfl

end steps

-----------------------------------------------------------------------------------------
-- All phrases
-----------------------------------------------------------------------------------------

/-- An operand that begins with a name and a colon would have to end before the colon. -/
theorem Phrase.Operand.not_labelled (operand : Operand) (ends : endsType rest = true)
    {text : String} (labelled : operand.tokens ++ rest = .name text :: .colon :: ts)
    : False := by
  cases operand with
  | unknown | nullable | definite | function => simp [Operand.tokens] at labelled
  | atom atom marks =>
      rw [Operand.tokens, List.append_assoc] at labelled
      have ends := endsAtom_marks marks ends
      cases atom with
      | word word => cases word <;> simp [Atom.tokens, Word.token] at labelled
      | group | record | functionName | function => simp [Atom.tokens] at labelled
      | name _ arguments =>
          rw [Atom.tokens, List.cons_append] at labelled
          have colon := (List.cons.inj labelled).2
          rcases arguments with _ | ⟨_ | _, _, _⟩
          · rw [TypeArguments.tokens, List.nil_append] at colon
            rw [colon] at ends
            cases ends
          all_goals simp [TypeArguments.tokens] at colon

theorem Phrase.Marked.not_labelled (marked : Marked) (ends : endsMarked rest = true)
    {text : String} (labelled : marked.tokens ++ rest = .name text :: .colon :: ts)
    : False := by
  cases marked with
  | variadic | anything => simp [Marked.tokens] at labelled
  | plain type optional =>
      rcases type with ⟨_ | _, first, more⟩
      · have first_labelled : first.tokens ++ (more.tokens ++ (perhaps .equals optional ++ rest))
            = .name text :: .colon :: ts := by
          simpa [Marked.tokens, Union.tokens, Chain.tokens] using labelled
        exact first.not_labelled (endsType_alternatives more (endsUnion_perhaps optional ends))
          first_labelled
      · simp [Marked.tokens, Union.tokens] at labelled

mutual
theorem Phrase.Marked.returns (phrase : Marked) {rest : List Token.Kind}
    (ends : endsMarked rest = true)
    : Returns (readMarked (phrase.tokens ++ rest)) phrase.hint rest := by
  cases phrase with
  | plain type optional =>
      rw [Marked.tokens, List.append_assoc, Marked.hint]
      exact readMarked_plain (type.opens _) (type.returns (endsUnion_perhaps optional ends)) ends
  | variadic type optional =>
      rw [Marked.tokens, List.cons_append, List.append_assoc, Marked.hint]
      have first := type.returns (endsUnion_perhaps optional ends)
      exact readMarked_variadic (type.opens _) (readUnion_chain (type.opens _) first) ends
  | anything optional =>
      rw [Marked.tokens, List.cons_append, Marked.hint]
      exact readMarked_anything optional ends

theorem Phrase.Union.returns (phrase : Phrase.Union) {rest : List Token.Kind}
    (ends : endsUnion rest = true)
    : Returns (readUnion (phrase.tokens ++ rest)) phrase.type rest := by
  obtain ⟨bar, chain⟩ := phrase
  have first := chain.returns ends
  cases bar with
  | true => exact readUnion_bar first
  | false => exact readUnion_chain (chain.opens _) first

theorem Phrase.Chain.returns (phrase : Chain) {rest : List Token.Kind}
    (ends : endsUnion rest = true)
    : Returns (readChain (phrase.tokens ++ rest)) phrase.type rest := by
  obtain ⟨first, more⟩ := phrase
  rw [Chain.tokens, List.append_assoc, Chain.type]
  exact readChain_alternatives (first.returns (endsType_alternatives more ends)) (more.returns ends)

theorem Phrase.Alternatives.returns (phrase : Alternatives) {rest : List Token.Kind}
    (ends : endsUnion rest = true)
    : Returns (readAlternatives (phrase.tokens ++ rest)) phrase.types rest := by
  cases phrase with
  | none => exact readAlternatives_none ends
  | bar operand more =>
      rw [Alternatives.tokens, List.cons_append, List.append_assoc, Alternatives.types]
      exact readAlternatives_bar (operand.returns (endsType_alternatives more ends))
        (more.returns ends)

theorem Phrase.Operand.returns (phrase : Operand) {rest : List Token.Kind}
    (ends : endsType rest = true)
    : Returns (readOperand (phrase.tokens ++ rest)) phrase.type rest := by
  cases phrase with
  | unknown => exact readOperand_unknown ends
  | nullable operand => exact readOperand_question (operand.opens _) (operand.returns ends)
  | definite operand => exact readOperand_bang (operand.returns ends)
  | atom atom marks =>
      rw [Operand.tokens, List.append_assoc, Operand.type]
      exact readOperand_atom marks (atom.opens _) (atom.returns (endsAtom_marks marks ends)) ends
  | function arguments result =>
      rw [Operand.tokens, List.cons_append, List.cons_append, List.append_assoc, List.cons_append,
        List.cons_append, Operand.type]
      exact readOperand_atom [] rfl
        (readAtom_function arguments.returns (readResult_colon (result.returns ends))) ends

theorem Phrase.Atom.returns (phrase : Atom) {rest : List Token.Kind}
    (ends : endsAtom rest = true)
    : Returns (readAtom (phrase.tokens ++ rest)) phrase.type rest := by
  cases phrase with
  | word word => exact readAtom_word word
  | group type =>
      rw [Atom.tokens, List.cons_append, List.append_assoc, Atom.type]
      exact readAtom_group (type.returns rfl)
  | record fields =>
      rw [Atom.tokens, List.cons_append, List.append_assoc, Atom.type]
      exact readAtom_record fields.returns
  | functionName => exact readAtom_functionName ends
  | function arguments =>
      rw [Atom.tokens, List.cons_append, List.cons_append, List.append_assoc, Atom.type]
      exact readAtom_function arguments.returns (readResult_none ends)
  | name text arguments => exact readAtom_name text (arguments.returns ends)

theorem Phrase.TypeArguments.returns (phrase : TypeArguments) {rest : List Token.Kind}
    (ends : endsAtom rest = true)
    : Returns (readTypeArguments (phrase.tokens ++ rest)) phrase.types rest := by
  cases phrase with
  | none => exact readTypeArguments_none ends
  | angled point first more =>
      rw [TypeArguments.tokens, List.append_assoc, List.cons_append, List.append_assoc,
        List.append_assoc, TypeArguments.types]
      exact readTypeArguments_angled point (first.returns (endsUnion_types more)) more.returns

theorem Phrase.Types.returns (phrase : Types) {rest : List Token.Kind}
    : Returns (readMoreTypes (phrase.tokens ++ .rightAngle :: rest)) phrase.list
        (.rightAngle :: rest) := by
  cases phrase with
  | none => exact readMoreTypes_none
  | comma type more =>
      rw [Types.tokens, List.cons_append, List.append_assoc, Types.list]
      exact readMoreTypes_comma (type.returns (endsUnion_types more)) more.returns

theorem Phrase.Arguments.returns (phrase : Arguments) {rest : List Token.Kind}
    : Returns (readArguments (phrase.tokens ++ .rightParen :: rest)) phrase.list
        (.rightParen :: rest) := by
  cases phrase with
  | none => exact readArguments_none
  | some first more =>
      rw [Arguments.tokens, List.append_assoc, Arguments.list]
      exact first.returns (endsMarked_moreArguments more) more.returns

theorem Phrase.MoreArguments.returns (phrase : MoreArguments) {rest : List Token.Kind}
    : Returns (readMoreArguments (phrase.tokens ++ .rightParen :: rest)) phrase.list
        (.rightParen :: rest) := by
  cases phrase with
  | none => exact readMoreArguments_none
  | trailing => exact readMoreArguments_comma readArguments_none
  | comma argument more =>
      rw [MoreArguments.tokens, List.cons_append, List.append_assoc, MoreArguments.list]
      exact readMoreArguments_comma
        (argument.returns (endsMarked_moreArguments more) more.returns)

/-- An argument is read in front of those that follow it. -/
theorem Phrase.Argument.returns (phrase : Phrase.Argument) {after rest : List Token.Kind}
    {arguments : List Hint.Argument} (ends : endsMarked after = true)
    (more : Returns (readMoreArguments after) arguments rest)
    : Returns (readArguments (phrase.tokens ++ after)) (phrase.argument :: arguments) rest := by
  cases phrase with
  | receiver type =>
      exact readArguments_labelled (.inl ⟨rfl, rfl⟩)
        (type.returns (endsUnion_of_endsMarked ends)) more
  | constructs type =>
      exact readArguments_labelled (.inr ⟨rfl, rfl⟩)
        (type.returns (endsUnion_of_endsMarked ends)) more
  | param type =>
      exact readArguments_param (type.opens _) (fun _ _ => type.not_labelled ends)
        (type.returns ends) more

theorem Phrase.Fields.returns (phrase : Fields) {rest : List Token.Kind}
    : Returns (readFields (phrase.tokens ++ .rightBrace :: rest)) phrase.members
        (.rightBrace :: rest) := by
  cases phrase with
  | none => exact readFields_none
  | some first more =>
      rw [Fields.tokens, List.append_assoc, Fields.members]
      exact first.returns (endsMarked_moreFields more) more.returns

theorem Phrase.MoreFields.returns (phrase : MoreFields) {rest : List Token.Kind}
    : Returns (readMoreFields (phrase.tokens ++ .rightBrace :: rest)) phrase.members
        (.rightBrace :: rest) := by
  cases phrase with
  | none => exact readMoreFields_none
  | trailing => exact readMoreFields_comma readFields_none
  | comma field more =>
      rw [MoreFields.tokens, List.cons_append, List.append_assoc, MoreFields.members]
      exact readMoreFields_comma (field.returns (endsMarked_moreFields more) more.returns)

/-- A field is read in front of those that follow it. -/
theorem Phrase.Field.returns (phrase : Field) {after rest : List Token.Kind}
    {fields : List (Member TsType)} (ends : endsMarked after = true)
    (more : Returns (readMoreFields after) fields rest)
    : Returns (readFields (phrase.tokens ++ after)) (phrase.member :: fields) rest := by
  cases phrase with
  | bare name =>
      exact readFields_bare name
        (endsAtom_of_endsType (endsType_of_endsUnion (endsUnion_of_endsMarked ends))) more
  | typed name type => exact readFields_typed name (type.returns ends) more
end

/-- All the tokens that a phrase spells make the hint that it means. -/
theorem ofTokens_tokens (phrase : Marked) : ofTokens phrase.tokens = .ok phrase.hint := by
  have whole : Returns (readMarked (phrase.tokens ++ [])) phrase.hint [] := phrase.returns rfl
  rw [List.append_nil] at whole
  obtain ⟨_, read⟩ := whole
  rw [ofTokens, read]

end Typings.Hint
