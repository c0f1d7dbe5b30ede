import Typings.Proofs.Hint.NormalForm
import Typings.Proofs.Hint.TokenRows
import Typings.Proofs.Hint.TrailingBrace

/-! The colon behind the name of a field. A blank behind it makes no difference, unless the name is
the kind of a path: that is joined to what follows its colon, so the field has another name.
-/

namespace Typings.Hint

open Text Lexeme Phrase TsType Braced

variable {name source text : String} {hint : Hint} {c : Char} {cs rest : List Char}

-----------------------------------------------------------------------------------------
-- The tokens of a field
-----------------------------------------------------------------------------------------

theorem kindsOf_name (identifier : isIdentifier name = true)
    : kindsOf (name.toList ++ rest)
      = Token.Kind.ofName (String.ofList (spanNamepath (name.toList ++ rest)).1)
        :: kindsOf (spanNamepath (name.toList ++ rest)).2 := by
  obtain ⟨c, cs, chars, starts, -⟩ := chars_of_isIdentifier identifier
  rw [chars, List.cons_append, kindsOf_cons (lexeme_of_isNameStart starts)]
  rfl

theorem kindsOf_field (identifier : isIdentifier name = true)
    (apart : ¬ Joined name.toList (':' :: rest))
    : kindsOf (name.toList ++ ':' :: rest) = Token.Kind.ofName name :: .colon :: kindsOf rest := by
  obtain ⟨_, _, chars, -, names⟩ := chars_of_isIdentifier identifier
  rw [← chars] at names
  have colon : Token.Kind.ofPunctuation? ':' = some .colon := rfl
  have ends : ∀ c ∈ (':' :: rest).head?, isNameChar c = false := by
    rintro _ ⟨⟩
    decide
  rw [kindsOf_name identifier, spanNamepath_apart names ends apart, spanPath_colon, List.append_nil,
    String.ofList_toList, kindsOf_punctuation colon]

theorem ofName_of_colon (colon : ':' ∈ text.toList) : Token.Kind.ofName text = .name text := by
  unfold Token.Kind.ofName
  split
  all_goals first | rfl | exact absurd colon (by decide)

/-- The name that is joined to what follows its colon is another name. -/
theorem exists_joined (identifier : isIdentifier name = true) (kind : name.toList ∈ pathKinds)
    (visible : isBlank c = false)
    : ∃ text ts, kindsOf (name.toList ++ ':' :: c :: cs) = .name text :: ts ∧ text ≠ name := by
  obtain ⟨_, _, chars, -, names⟩ := chars_of_isIdentifier identifier
  rw [← chars] at names
  rw [kindsOf_name identifier, spanNamepath_joined kind visible]
  generalize (spanPath (name.toList == "module".toList) (c :: cs)) = path
  have colon : ':' ∈ (String.ofList (name.toList ++ ':' :: path.1)).toList := by simp
  refine ⟨_, _, congrArg (· :: _) (ofName_of_colon colon), ?_⟩
  intro same
  rw [same] at colon
  exact absurd (names ':' colon) (by decide)

/-- A keyword names a field like any other name. -/
theorem exists_fieldName (name : String)
    : ∃ field : FieldName, field.token = Token.Kind.ofName name ∧ field.text = name := by
  unfold Token.Kind.ofName
  split
  · exact ⟨.function, rfl, rfl⟩
  · exact ⟨.null, rfl, rfl⟩
  · exact ⟨.undefined, rfl, rfl⟩
  · exact ⟨.true, rfl, rfl⟩
  · exact ⟨.false, rfl, rfl⟩
  · exact ⟨.name name, rfl, rfl⟩

-----------------------------------------------------------------------------------------
-- Records of one field
-----------------------------------------------------------------------------------------

/-- A name, a colon and the tokens of a hint make a record of one field. -/
theorem parse_field (accepted : parse source = .ok hint)
    (tokens
      : kindsOf text.toList
        = .leftBrace :: Token.Kind.ofName name :: .colon
          :: (kindsOf source.toList ++ [.rightBrace]))
    : parse text = .ok ⟨.object [.property name hint.type hint.optional], false, false⟩ := by
  obtain ⟨phrase, spells, rfl⟩ := parse_ok_iff_spelled.1 accepted
  obtain ⟨field, token, rfl⟩ := exists_fieldName name
  refine parse_ok_iff_spelled.2
    ⟨.plain (.of false (.of (.atom (.record (.some (.typed field phrase) .none)) []) .none)) false,
      ?_, ?_⟩
  · rw [tokens, ← token, ← spells]
    simp [Marked.tokens, Union.tokens, Chain.tokens, Operand.tokens, Atom.tokens, Fields.tokens,
      Field.tokens, MoreFields.tokens, Alternatives.tokens, Mark.tokens]
  · have single : unionOf [.object [.property field.text phrase.hint.type phrase.hint.optional]]
        = .object [.property field.text phrase.hint.type phrase.hint.optional] :=
      unionOf_singleton_of_ne fun members same => TsType.noConfusion same
    rw [← single]
    rfl

/-- A record with other alternatives or marks means an object exactly if they change nothing. -/
theorem members_of_record {fields : Fields} {marks : List Mark} {more : Alternatives}
    {members : List (Member TsType)}
    (type : unionOf (marks.foldl Mark.on (.object fields.members) :: more.types) = .object members)
    : fields.members = members := by
  have normal : Normal (.object fields.members) :=
    (Atom.record fields).holds closed_normal fun _ _ => trivial
  have each : ∀ other ∈ marks.foldl Mark.on (.object fields.members) :: more.types, other.Normal :=
    List.forall_mem_cons.2
      ⟨closed_normal.marks marks normal, more.holds closed_normal fun _ _ => trivial⟩
  have noUnion : ∀ others, TsType.object members ≠ .union others := nofun
  have first : marks.foldl Mark.on (.object fields.members) = .object members :=
    (unionOf_eq_iff noUnion (List.cons_ne_nil _ _) each).1 type _ (List.mem_cons_self ..)
  have same := ((foldl_on_eq_iff noUnion nofun nofun marks normal).1 first).1
  rwa [TsType.object.injEq] at same

/-- A record that begins with a name begins with a field of that name. -/
theorem first_field {phrase : Marked} {ts : List Token.Kind} {members : List (Member TsType)}
    (tokens : phrase.tokens = .leftBrace :: .name text :: ts)
    (type : phrase.hint.type = .object members)
    : ∃ type optional later, members = .property text type optional :: later := by
  cases phrase with
  | variadic | anything => cases tokens
  | plain union optional =>
      obtain ⟨bar, first, more⟩ := union
      cases bar with
      | true => cases tokens
      | false =>
          cases first with
          | unknown | nullable | definite | function => cases tokens
          | atom atom marks =>
              cases atom with
              | word word => cases word <;> cases tokens
              | group | functionName | function | name => cases tokens
              | record fields =>
                  cases fields with
                  | none => cases tokens
                  | some field later =>
                      obtain rfl := members_of_record type
                      cases field with
                      | bare other | typed other =>
                          cases other <;> cases tokens
                          exact ⟨_, _, _, rfl⟩

-----------------------------------------------------------------------------------------
-- Strings that stay open
-----------------------------------------------------------------------------------------

/-- The brace that should close the record is lost in a string that stays open. -/
theorem rejected_of_open {front : List Char} (accepted : parse source = .ok hint)
    (stays : ¬ Settled source.toList) (inner : ∀ c ∈ front, isInner c = true)
    (chars : text.toList = '{' :: (front ++ (source.toList ++ ['}']))) (type : TsType)
    : parseType text ≠ .ok type := by
  intro typed
  obtain ⟨other, read, -⟩ := parseType_ok_iff.1 typed
  have braced {source : String} {hint : Hint} (accepted : parse source = .ok hint)
      : Braced 0 ((Place.outside.unquoted source.toList).filter isBrace) := by
    rw [← braces_kindsOf]
    exact (keptInRows_braced fun _ => []).of_parse accepted fun _ _ _ _ => Braced.nil_iff.2 rfl
  have lost : (Place.outside.after source.toList).unquoted ['}'] = [] := by
    rw [Settled] at stays
    cases place : Place.outside.after source.toList with
    | outside => exact absurd place stays
    | inside | escaped => rfl
  have own := (braced accepted).closes
  have whole := (braced read).closes
  have plain : ∀ c ∈ '{' :: front, isQuote c = false := by
    refine List.forall_mem_cons.2 ⟨rfl, fun c mem => ?_⟩
    have each := inner c mem
    simp_all [isInner]
  have opens : ('{' :: front).filter isBrace = ['{'] := by
    rw [List.filter_cons_of_pos rfl, List.cons_inj_right, List.filter_eq_nil_iff]
    intro c mem
    have each := inner c mem
    simp_all [isInner]
  obtain ⟨place, unquoted⟩ := Place.outside_of_plain plain
  rw [chars, ← List.cons_append, Place.unquoted_append, place, unquoted, Place.unquoted_append,
    lost, List.append_nil, List.filter_append, opens] at whole
  simp at whole
  omega

-----------------------------------------------------------------------------------------
-- Blanks behind colons
-----------------------------------------------------------------------------------------

theorem parse_apart (identifier : isIdentifier name = true) (accepted : parse source = .ok hint)
    (settled : Settled source.toList) (chars : text.toList = '{' :: (name.toList ++ ':' :: rest))
    (apart : ¬ Joined name.toList (':' :: rest))
    (same : kindsOf rest = kindsOf (source.toList ++ ['}']))
    : parse text = .ok ⟨.object [.property name hint.type hint.optional], false, false⟩ := by
  have last : source.toList.getLast? ≠ some ':' := fun colon =>
    keptInRows_getLast.of_parse accepted (fun _ _ => trivial) (getLast_kindsOf settled colon)
  have brace : Token.Kind.ofPunctuation? '{' = some .leftBrace := rfl
  apply parse_field accepted
  rw [chars, kindsOf_punctuation brace, kindsOf_field identifier apart, same,
    kindsOf_append_brace settled last]

/-- A field that is joined to what follows its colon has another name. -/
theorem ne_of_joined (identifier : isIdentifier name = true) (kind : name.toList ∈ pathKinds)
    (visible : isBlank c = false) (chars : text.toList = '{' :: (name.toList ++ ':' :: c :: cs))
    {type : TsType} {optional : Bool} {later : List (Member TsType)}
    : parseType text ≠ .ok (.object (.property name type optional :: later)) := by
  intro read
  obtain ⟨hint, parsed, meaning⟩ := parseType_ok_iff.1 read
  obtain ⟨phrase, spells, rfl⟩ := parse_ok_iff_spelled.1 parsed
  obtain ⟨other, ts, tokens, differs⟩ := exists_joined identifier kind visible
  have brace : Token.Kind.ofPunctuation? '{' = some .leftBrace := rfl
  rw [chars, kindsOf_punctuation brace, tokens] at spells
  obtain ⟨_, _, _, same⟩ := first_field spells meaning
  cases same
  exact differs rfl

/-- A name is joined to the text of a type exactly if no blank begins that. -/
theorem joined_brace_iff
    : Joined cs (':' :: (rest ++ ['}']))
      ↔ cs ∈ pathKinds ∧ ∀ c ∈ rest.head?, isBlank c = false := by
  have brace : isBlank '}' = false := by decide
  cases rest <;> simp [Joined, brace]

/-- A blank behind its colon parts the name of a field from what follows. -/
theorem not_joined_space : ¬ Joined cs (':' :: ' ' :: rest) := by
  rintro ⟨-, _, _, same, visible⟩
  cases same
  exact absurd visible (by decide)

section texts

variable {tight spaced : String} (identifier : isIdentifier name = true)
  (accepted : parse source = .ok hint)

include identifier accepted

theorem rejected_field (between : List Char) (stays : ¬ Settled source.toList)
    (inner : between.all isInner = true)
    (chars : text.toList = '{' :: (name.toList ++ (between ++ (source.toList ++ ['}']))))
    (type : TsType)
    : parseType text ≠ .ok type := by
  have names : ∀ c ∈ name.toList, isInner c = true := by
    obtain ⟨_, _, chars, -, names⟩ := chars_of_isIdentifier identifier
    rw [chars]
    exact fun c mem => isInner_of_isNameChar (names c mem)
  rw [← List.append_assoc] at chars
  have front := List.forall_mem_append.2 ⟨names, List.all_eq_true.1 inner⟩
  exact rejected_of_open accepted stays front chars type

/-- The two fields are alike exactly if the name is not joined to what follows its colon. -/
theorem alike_iff_not_joined (settled : Settled source.toList)
    (tightChars : tight.toList = '{' :: (name.toList ++ ':' :: (source.toList ++ ['}'])))
    (read : parse spaced = .ok ⟨.object [.property name hint.type hint.optional], false, false⟩)
    : (∀ type, parseType tight = .ok type ↔ parseType spaced = .ok type)
      ↔ ¬ Joined name.toList (':' :: (source.toList ++ ['}'])) := by
  constructor
  · rintro alike ⟨kind, c, cs, follows, visible⟩
    rw [follows] at tightChars
    exact ne_of_joined identifier kind visible tightChars
      ((alike _).2 (parseType_ok_iff.2 ⟨_, read, rfl⟩))
  · intro apart type
    rw [parseType, parseType, read,
      parse_apart identifier accepted settled tightChars apart rfl]

end texts

/-- A blank behind the colon of a field makes no difference, unless the name of the field is the
kind of a path, and what follows is no blank and leaves no string open. With the blank, the field
has its name and what follows is its type; a string that stays open has both rejected.
-/
theorem field_spacing_iff (identifier : isIdentifier name = true)
    (accepted : parse source = .ok hint)
    : let tight := "\x7b" ++ name ++ ":" ++ source ++ "\x7d"
      let spaced := "\x7b" ++ name ++ ": " ++ source ++ "\x7d"
      ((∀ type, parseType tight = .ok type ↔ parseType spaced = .ok type)
        ↔ name.toList ∉ pathKinds
          ∨ (∃ c ∈ source.toList.head?, isBlank c = true)
          ∨ ¬ Settled source.toList)
      ∧ (Settled source.toList
        → parseType spaced = .ok (.object [.property name hint.type hint.optional]))
      ∧ (¬ Settled source.toList → ∀ type, parseType spaced ≠ .ok type) := by
  intro tight spaced
  have tightChars : tight.toList = '{' :: (name.toList ++ ':' :: (source.toList ++ ['}'])) := by
    simp [tight]
  have spacedChars
      : spaced.toList = '{' :: (name.toList ++ ':' :: ' ' :: (source.toList ++ ['}'])) := by
    simp [spaced]
  by_cases settled : Settled source.toList
  · have read :=
      parse_apart identifier accepted settled spacedChars not_joined_space kindsOf_space
    have alike := alike_iff_not_joined identifier accepted settled tightChars read
    refine ⟨?_, fun _ => parseType_ok_iff.2 ⟨_, read, rfl⟩, absurd settled⟩
    rw [alike, joined_brace_iff, not_and_or]
    simp [settled]
  · have tightRejected := rejected_field identifier accepted [':'] settled (by decide) tightChars
    have spacedRejected :=
      rejected_field identifier accepted [':', ' '] settled (by decide) spacedChars
    refine ⟨⟨fun _ => .inr (.inr settled), fun _ type => ?_⟩, (absurd · settled),
      fun _ => spacedRejected⟩
    exact iff_of_false (tightRejected type) (spacedRejected type)

/-- The kind of a path is no name of a field if no blank stands behind the colon. -/
theorem spacing_matters
    : ¬ ∀ (name source : String) (hint : Hint),
        isIdentifier name = true
        → parse source = .ok hint
        → ∀ type, parseType ("\x7b" ++ name ++ ":" ++ source ++ "\x7d") = .ok type
            ↔ parseType ("\x7b" ++ name ++ ": " ++ source ++ "\x7d") = .ok type := by
  intro alike
  have accepted : parse "string" = .ok ⟨.primitive .string, false, false⟩ := by decide +kernel
  have spaced
      : parseType ("\x7b" ++ "module" ++ ": " ++ "string" ++ "\x7d")
        = .ok (.object [.property "module" (.primitive .string) false]) := by
    decide +kernel
  have tight
      : parseType ("\x7b" ++ "module" ++ ":" ++ "string" ++ "\x7d")
        = .ok (.object [.property "module:string" .any false]) := by
    decide +kernel
  have same := (alike "module" "string" _ (by decide) accepted _).2 spaced
  rw [tight] at same
  simp at same

/-- Witness: a field that is named like the kind of a path. -/
theorem field_spacing_iff_module
    : let name := "module"
      let source := "string"
      isIdentifier name = true
      ∧ parse source = .ok ⟨.primitive .string, false, false⟩
      ∧ parseType ("\x7b" ++ name ++ ": " ++ source ++ "\x7d")
        = .ok (.object [.property name (.primitive .string) false])
      ∧ parseType ("\x7b" ++ name ++ ":" ++ source ++ "\x7d")
        ≠ .ok (.object [.property name (.primitive .string) false]) := by
  intro name source
  have identifier : isIdentifier name = true := by decide
  have accepted : parse source = .ok ⟨.primitive .string, false, false⟩ := by decide +kernel
  have settled : Settled source.toList := by
    rw [Settled]
    decide +kernel
  obtain ⟨alike, read, -⟩ := field_spacing_iff identifier accepted
  refine ⟨identifier, accepted, read settled, fun joined => ?_⟩
  have same : ∀ type, parseType ("\x7b" ++ name ++ ":" ++ source ++ "\x7d") = .ok type
      ↔ parseType ("\x7b" ++ name ++ ": " ++ source ++ "\x7d") = .ok type := by
    intro type
    rw [joined, read settled]
  rcases alike.1 same with other | ⟨c, first, blank⟩ | stays
  · exact absurd (by decide) other
  · have head : source.toList.head? = some 's' := by decide
    cases head.symm.trans first
    exact absurd blank (by decide)
  · exact stays settled

end Typings.Hint
