import Typings.Doclet.Types
import Typings.Proofs.Hint.TokenRows
import Typings.Proofs.Hint.TrailingBrace

/-! Texts that end inside a string. Nothing tells them apart from the text in which the string is
closed at the end: both have the same tokens, so they are read alike.
-/

namespace Typings.Hint

open Text Lexeme Phrase

variable {c mark : Char} {cs body tail : List Char} {l : Lexeme}

/-- Some string opens or closes in a text. -/
def HasQuote (cs : List Char) : Prop :=
  ∃ c ∈ cs, isQuote c = true

theorem not_hasQuote_nil : ¬ HasQuote [] := by
  rintro ⟨_, mem, _⟩
  cases mem

theorem hasQuote_of_not_settled (opens : ¬ Settled cs) : HasQuote cs := by
  by_contra none
  refine opens (Place.outside_of_plain fun c mem => ?_).1
  rw [Bool.eq_false_iff]
  exact fun quote => none ⟨c, mem, quote⟩

-----------------------------------------------------------------------------------------
-- More behind a string
-----------------------------------------------------------------------------------------

theorem not_pathGoesOn_of_isQuote (inModule : Bool) (quote : isQuote c = true)
    : pathGoesOn inModule c cs = false := by
  have either : c = '"' ∨ c = '\'' := by simpa [isQuote] using quote
  rw [Bool.eq_false_iff, ne_eq, pathGoesOn_iff]
  rcases either with rfl | rfl <;> simp [show isNameChar '"' = false by decide,
    show isNameChar '\'' = false by decide]

theorem span_append_tail {p : Char → Bool} (later : HasQuote (cs.dropWhile p)) (tail : List Char)
    : (cs ++ tail).takeWhile p = cs.takeWhile p
      ∧ (cs ++ tail).dropWhile p = cs.dropWhile p ++ tail := by
  induction cs with
  | nil => exact absurd later not_hasQuote_nil
  | cons c cs ih =>
      simp only [List.cons_append, List.takeWhile_cons, List.dropWhile_cons] at later ⊢
      split at later
      next goesOn =>
        simp only [if_pos goesOn]
        exact ⟨congrArg (c :: ·) (ih later).1, (ih later).2⟩
      next ends =>
        simp only [if_neg ends, List.cons_append, and_self]

theorem any_head?_append_tail {p : Char → Bool} (nonempty : cs ≠ []) (tail : List Char)
    : (cs ++ tail).head?.any p = cs.head?.any p := by
  obtain ⟨c, cs, rfl⟩ := List.exists_cons_of_ne_nil nonempty
  rfl

theorem beginsNumber_append_tail (nonempty : cs ≠ []) (tail : List Char)
    : beginsNumber c (cs ++ tail) = beginsNumber c cs := by
  rw [beginsNumber, any_head?_append_tail nonempty, beginsNumber]

/-- A path that ends before a string ends there whatever follows that. -/
theorem spanPath_append_tail (inModule : Bool) (later : HasQuote (spanPath inModule cs).2)
    (tail : List Char)
    : spanPath inModule (cs ++ tail)
      = ((spanPath inModule cs).1, (spanPath inModule cs).2 ++ tail) := by
  induction cs generalizing inModule with
  | nil => exact absurd later not_hasQuote_nil
  | cons c cs ih =>
      have same : pathGoesOn inModule c (cs ++ tail) = pathGoesOn inModule c cs := by
        by_cases last : cs = []
        · subst last
          rw [spanPath] at later
          split at later
          · exact absurd later not_hasQuote_nil
          · obtain ⟨_, mem, quote⟩ := later
            obtain rfl := List.mem_singleton.1 mem
            rw [not_pathGoesOn_of_isQuote inModule quote, not_pathGoesOn_of_isQuote inModule quote]
        · rw [pathGoesOn, any_head?_append_tail last, pathGoesOn]
      rw [List.cons_append, spanPath, same, spanPath]
      rw [spanPath] at later
      split at later
      next goesOn =>
        rw [if_pos goesOn, if_pos goesOn, ih _ later]
      next ends =>
        rw [if_neg ends, if_neg ends]
        rfl

/-- A namepath that ends before a string ends there whatever follows that. -/
theorem spanNamepath_append_tail (later : HasQuote (spanNamepath cs).2) (tail : List Char)
    : spanNamepath (cs ++ tail) = ((spanNamepath cs).1, (spanNamepath cs).2 ++ tail) := by
  obtain ⟨word, rest, rfl, names, ends⟩ := exists_word cs
  rw [List.append_assoc]
  by_cases joined : Joined word rest
  · obtain ⟨kind, c, cs, rfl, visible⟩ := joined
    rw [spanNamepath_joined kind visible] at later
    have path := spanPath_append_tail (word == "module".toList) later tail
    rw [List.cons_append, List.cons_append, spanNamepath_joined kind visible, ← List.cons_append,
      path, spanNamepath_joined kind visible]
  · rw [spanNamepath_apart names ends joined] at later
    have nonempty : rest ≠ [] := by
      rintro rfl
      exact not_hasQuote_nil later
    have stillEnds : ∀ c ∈ (rest ++ tail).head?, isNameChar c = false := by
      rwa [List.head?_append_of_ne_nil _ nonempty]
    have stillApart : ¬ Joined word (rest ++ tail) := by
      rintro ⟨kind, c, cs, same, visible⟩
      rcases rest with _ | ⟨d, _ | ⟨e, rest⟩⟩
      · exact nonempty rfl
      · cases same
        rw [spanPath_colon] at later
        obtain ⟨_, mem, quote⟩ := later
        cases List.mem_singleton.1 mem
        cases quote
      · cases same
        exact joined ⟨kind, c, rest, rfl, visible⟩
    rw [spanNamepath_apart names stillEnds stillApart, spanPath_append_tail false later,
      spanNamepath_apart names ends joined]

/-- A token before a string stays as it is, whatever follows that. -/
theorem lexeme_append_tail (found : lexeme? c cs = some l) (later : HasQuote l.rest)
    (tail : List Char)
    : lexeme? c (cs ++ tail) = some ⟨l.kind, l.taken, l.rest ++ tail⟩ := by
  cases begins_of_lexeme found with
  | punctuation mark => rw [lexeme?, mark]
  | point point =>
      subst point
      change some (Lexeme.point (cs ++ tail)) = some _
      rw [Option.some.injEq]
      revert later
      fun_cases Lexeme.point cs with
      | case1 => exact fun _ => rfl
      | case2 rest other =>
          intro later
          unfold Lexeme.point
          split
          next same =>
            rcases cs with _ | ⟨d, _ | ⟨e, cs⟩⟩ <;> cases same
            · exact absurd later not_hasQuote_nil
            · obtain ⟨_, mem, quote⟩ := later
              cases List.mem_singleton.1 mem
              cases quote
            · exact absurd rfl (other cs)
          next => rfl
  | string quote =>
      rw [string] at later ⊢
      rcases closed : spanString c cs with ⟨body, _ | rest⟩
      · rw [closed] at later
        exact absurd later not_hasQuote_nil
      · rw [lexeme_of_isQuote quote, string_closed (spanString_append quote closed tail)]
  | number begins =>
      obtain ⟨takes, drops⟩ := span_append_tail later tail
      have nonempty : cs ≠ [] := by
        rintro rfl
        exact not_hasQuote_nil later
      rw [lexeme_of_beginsNumber (by rwa [beginsNumber_append_tail nonempty])]
      simp [number, takes, drops]
  | name starts =>
      have span := spanNamepath_append_tail later tail
      rw [lexeme_of_isNameStart starts, namepath, ← List.cons_append, span]
      rfl

-----------------------------------------------------------------------------------------
-- The string that stays open
-----------------------------------------------------------------------------------------

/-- Behind a token that is no open string, a text is at the place that its rest leads to. -/
theorem after_token (found : lexeme? c cs = some l)
    (closed : isQuote c = true → (spanString c cs).2 ≠ none)
    : Place.outside.after (c :: cs) = Place.outside.after l.rest := by
  rcases lexeme_cases found with ⟨quote, rfl⟩ | plain
  · have first : Place.outside.next c = .inside c := by
      rw [Place.next, if_pos quote]
    obtain ⟨leads, -⟩ := Place.inside_spanString quote cs
    rcases span : spanString c cs with ⟨body, _ | rest⟩
    · exact absurd (congrArg Prod.snd span) (closed quote)
    · rw [span] at leads
      rw [string_closed span, Place.after, List.foldl_cons, first, ← Place.after]
      exact (leads rest rfl).1
  · rw [← taken_append_rest found, Place.after_append, (Place.outside_of_plain plain.unquoted).1]

/-- A text that ends inside a string: `mark` opens that string, and all of `body` behind it is in
the string. The tokens before it are `row`, whatever is put behind the text.
-/
structure EndsInside (cs : List Char) (row : List Token.Kind) (mark : Char) (body : List Char)
    : Prop where
  suffix : mark :: body <:+ cs
  quote : isQuote mark = true
  unclosed : (spanString mark body).2 = none
  after_eq : Place.outside.after cs = (Place.inside mark).after body
  kindsOf_append : ∀ tail, kindsOf (cs ++ tail) = row ++ kindsOf (mark :: (body ++ tail))

/-- A text that leaves a string open ends inside one, by induction on its tokens. -/
theorem exists_endsInside (opens : ¬ Settled cs)
    : ∃ row mark body, EndsInside cs row mark body := by
  induction cs using scan_induction with
  | nil => exact absurd rfl opens
  | @skip c cs nothing ih =>
      have inner := isInner_of_skip nothing
      have first : Place.outside.after (c :: cs) = Place.outside.after cs := by
        rw [Place.after, List.foldl_cons, ← Place.after]
        simp_all [isInner, Place.next]
      rw [Settled, first] at opens
      have nonempty : cs ≠ [] := by
        rintro rfl
        exact opens rfl
      obtain ⟨row, mark, body, ends⟩ := ih opens
      refine ⟨row, mark, body, ends.suffix.trans (List.suffix_cons c cs), ends.quote,
        ends.unclosed, first.trans ends.after_eq, fun tail => ?_⟩
      have same := beginsNumber_append_tail (c := c) nonempty tail
      rw [List.cons_append, kindsOf_skip (lexeme_append_none nothing same), ends.kindsOf_append]
  | @token c cs l found ih =>
      by_cases last : isQuote c = true ∧ (spanString c cs).2 = none
      · obtain ⟨quote, unclosed⟩ := last
        refine ⟨[], c, cs, List.suffix_refl _, quote, unclosed, ?_, fun _ => rfl⟩
        rw [Place.after, List.foldl_cons, Place.next, if_pos quote, ← Place.after]
      · have first := after_token found fun quote unclosed => last ⟨quote, unclosed⟩
        rw [Settled, first] at opens
        obtain ⟨row, mark, body, ends⟩ := ih opens
        have suffix : l.rest <:+ c :: cs := ⟨l.taken, taken_append_rest found⟩
        refine ⟨l.kind :: row, mark, body, ends.suffix.trans suffix, ends.quote, ends.unclosed,
          first.trans ends.after_eq, fun tail => ?_⟩
        have same := lexeme_append_tail found (hasQuote_of_not_settled opens) tail
        rw [List.cons_append, kindsOf_cons same, ends.kindsOf_append]
        rfl

-----------------------------------------------------------------------------------------
-- The string closed
-----------------------------------------------------------------------------------------

/-- A text with the string closed in which it ends, if there is one. A backslash at the end, which
would take the mark into the string, is dropped.
-/
def closing (cs : List Char) : List Char :=
  match Place.outside.after cs with
  | .outside => cs
  | .inside mark => cs ++ [mark]
  | .escaped mark => cs.dropLast ++ [mark]

/-- A string goes on behind a character that neither escapes what follows nor is its mark. -/
theorem inside_next (differs : c ≠ mark) (plain : c ≠ '\\')
    : (Place.inside mark).next c = .inside mark := by
  simp [Place.next, differs, plain]

/-- A character that does not close a string either goes on with it, or is a backslash at the end.
-/
theorem plain_of_stays (stays : (Place.inside mark).after (c :: cs) = .inside mark)
    (other : ∀ d ds, c = '\\' → cs = d :: ds → False)
    : c ≠ '\\' := by
  rintro rfl
  cases cs with
  | nil => cases stays
  | cons d ds => exact other d ds rfl rfl

/-- Inside a string that is not closed, only a backslash escapes what follows. -/
theorem after_of_unclosed (unclosed : (spanString mark cs).2 = none)
    : (Place.inside mark).after cs = .inside mark
      ∨ (Place.inside mark).after cs = .escaped mark := by
  fun_induction spanString mark cs with
  | case1 => exact .inl rfl
  | case2 c cs body rest found ih =>
      rw [found] at ih
      exact ih unclosed
  | case3 c cs other same => cases unclosed
  | case4 c cs other differs body rest found ih =>
      rw [found] at ih
      by_cases plain : c = '\\'
      · subst plain
        cases cs with
        | nil => exact .inr rfl
        | cons d ds => exact absurd rfl (other d ds rfl)
      · rw [Place.after, List.foldl_cons, inside_next (by simpa using differs) plain]
        exact ih unclosed

section inside

variable (unclosed : (spanString mark cs).2 = none)
  (stays : (Place.inside mark).after cs = .inside mark)

include unclosed stays

/-- What is put behind a string that stays open goes on with the string. -/
theorem spanString_append_inside (tail : List Char)
    : spanString mark (cs ++ tail)
      = (cs ++ (spanString mark tail).1, (spanString mark tail).2) := by
  fun_induction spanString mark cs with
  | case1 => rfl
  | case2 c cs body rest found ih =>
      rw [found] at ih
      rw [List.cons_append, List.cons_append, spanString, ih unclosed stays]
      rfl
  | case3 c cs other same => cases unclosed
  | case4 c cs other differs body rest found ih =>
      have plain := plain_of_stays stays other
      rw [found] at ih
      rw [Place.after, List.foldl_cons, inside_next (by simpa using differs) plain] at stays
      rw [List.cons_append, spanString, if_neg differs, ih unclosed stays]
      · rfl
      · exact fun _ _ same => absurd same plain

theorem unescape_append_inside (tail : List Char)
    : unescape (cs ++ tail) = unescape cs ++ unescape tail := by
  fun_induction spanString mark cs with
  | case1 => rfl
  | case2 c cs body rest found ih =>
      rw [found] at ih
      rw [List.cons_append, List.cons_append, unescape, unescape, ih unclosed stays]
      split <;> rfl
  | case3 c cs other same => cases unclosed
  | case4 c cs other differs body rest found ih =>
      have plain := plain_of_stays stays other
      rw [found] at ih
      rw [Place.after, List.foldl_cons, inside_next (by simpa using differs) plain] at stays
      rw [List.cons_append, unescape, unescape, ih unclosed stays]
      · rfl
      all_goals simp [plain]

end inside

theorem kindsOf_string (quote : isQuote mark = true) (cs : List Char)
    : kindsOf (mark :: cs)
      = .string (String.ofList (unescape (spanString mark cs).1))
        :: kindsOf ((spanString mark cs).2.getD []) := by
  rw [kindsOf_cons (lexeme_of_isQuote quote), string]
  rcases spanString mark cs with ⟨body, _ | rest⟩ <;> rfl

/-- What neither adds to a string that it is put behind nor makes a token. -/
def Idle (mark : Char) (tail : List Char) : Prop :=
  unescape (spanString mark tail).1 = [] ∧ (spanString mark tail).2.getD [] = []

theorem spanString_backslash (quote : isQuote mark = true)
    : spanString mark ['\\'] = (['\\'], none) := by
  have either : mark = '"' ∨ mark = '\'' := by simpa [isQuote] using quote
  rcases either with rfl | rfl <;> rfl

theorem idle_of_isQuote (quote : isQuote mark = true)
    : Idle mark [] ∧ Idle mark [mark] ∧ Idle mark ['\\'] := by
  have either : mark = '"' ∨ mark = '\'' := by simpa [isQuote] using quote
  rcases either with rfl | rfl
  · exact ⟨⟨rfl, rfl⟩, ⟨rfl, rfl⟩, rfl, rfl⟩
  · exact ⟨⟨rfl, rfl⟩, ⟨rfl, rfl⟩, rfl, rfl⟩

/-- The last token of a text that ends inside a string holds all that follows the mark. -/
theorem EndsInside.kindsOf_eq {row : List Token.Kind} (ends : EndsInside cs row mark body)
    (stays : Place.outside.after cs = .inside mark) (idle : Idle mark tail)
    : kindsOf (cs ++ tail) = row ++ [.string (String.ofList (unescape body))] := by
  have inside := ends.after_eq.symm.trans stays
  rw [ends.kindsOf_append, kindsOf_string ends.quote,
    spanString_append_inside ends.unclosed inside, unescape_append_inside ends.unclosed inside,
    idle.1, idle.2, List.append_nil, kindsOf_nil]

theorem EndsInside.mark_eq {row : List Token.Kind} {other : Char}
    (ends : EndsInside cs row mark body) (stays : Place.outside.after cs = .inside other)
    : mark = other := by
  rw [ends.after_eq] at stays
  rcases after_of_unclosed ends.unclosed with inside | escaped
  · cases inside.symm.trans stays
    rfl
  · cases escaped.symm.trans stays

theorem settled_concat (quote : isQuote mark = true) (stays : Place.outside.after cs = .inside mark)
    : Settled (cs ++ [mark]) := by
  have slash : mark ≠ '\\' := by
    rintro rfl
    exact absurd quote (by decide)
  rw [Settled, Place.after_append, stays]
  simp [Place.after, Place.next, slash]

theorem eq_of_next_eq_escaped {place : Place} (escapes : place.next c = .escaped mark)
    : place = .inside mark ∧ c = '\\' := by
  cases place with
  | outside =>
      rw [Place.next] at escapes
      split at escapes <;> cases escapes
  | inside other =>
      rw [Place.next] at escapes
      split at escapes
      · rename_i slash
        cases escapes
        exact ⟨rfl, by simpa using slash⟩
      · split at escapes <;> cases escapes
  | escaped other => cases escapes

/-- A text that leaves a string open has the tokens of the text with that string closed. The last of
them is the string, which holds all that follows its mark.
-/
theorem kindsOf_closing (opens : ¬ Settled cs)
    : Settled (closing cs)
      ∧ kindsOf (closing cs) = kindsOf cs
      ∧ ∃ row mark body,
          mark :: body <:+ cs
          ∧ isQuote mark = true
          ∧ (spanString mark body).2 = none
          ∧ kindsOf cs = row ++ [.string (String.ofList (unescape body))] := by
  cases place : Place.outside.after cs with
  | outside => exact absurd place opens
  | inside mark =>
      obtain ⟨row, other, body, ends⟩ := exists_endsInside opens
      obtain rfl := ends.mark_eq place
      obtain ⟨nothing, close, -⟩ := idle_of_isQuote ends.quote
      have kinds := ends.kindsOf_eq place nothing
      rw [List.append_nil] at kinds
      rw [closing, place]
      exact ⟨settled_concat ends.quote place, (ends.kindsOf_eq place close).trans kinds.symm,
        row, other, body, ends.suffix, ends.quote, ends.unclosed, kinds⟩
  | escaped mark =>
      -- before the backslash at the end the text is inside of the string
      have nonempty : cs ≠ [] := by
        rintro rfl
        cases place
      obtain ⟨front, last, rfl⟩ := List.eq_nil_or_concat' cs |>.resolve_left nonempty
      rw [Place.after_append] at place
      obtain ⟨inside, rfl⟩ := eq_of_next_eq_escaped place
      have frontOpens : ¬ Settled front := by
        rw [Settled, inside]
        intro same
        cases same
      obtain ⟨row, other, body, ends⟩ := exists_endsInside frontOpens
      obtain rfl := ends.mark_eq inside
      obtain ⟨-, close, escape⟩ := idle_of_isQuote ends.quote
      have kinds := ends.kindsOf_eq inside escape
      have stays := ends.after_eq.symm.trans inside
      have closed : closing (front ++ ['\\']) = front ++ [other] := by
        rw [closing, Place.after_append, place, List.dropLast_concat]
      rw [closed]
      refine ⟨settled_concat ends.quote inside, (ends.kindsOf_eq inside close).trans kinds.symm,
        row, other, body ++ ['\\'], ?_, ends.quote, ?_, ?_⟩
      · exact (List.suffix_append_inj_of_length_eq rfl).2 ⟨ends.suffix, rfl⟩
      · rw [spanString_append_inside ends.unclosed stays, spanString_backslash ends.quote]
      · rw [unescape_append_inside ends.unclosed stays]
        exact kinds.trans (by simp [unescape])

-----------------------------------------------------------------------------------------
-- Reading a text that leaves a string open
-----------------------------------------------------------------------------------------

/-- Texts with the same tokens mean the same. -/
theorem parse_congr {source other : String} {hint : Hint}
    (same : kindsOf source.toList = kindsOf other.toList)
    : parse source = .ok hint ↔ parse other = .ok hint := by
  rw [parse_ok_iff_spelled, parse_ok_iff_spelled, same]

/-- A text that leaves a string open is rejected exactly if the text with that string closed has no
derivation, and is else read as that. Its last token is the string, which holds all that follows the
mark. Where such a text documents a type, any type and a warning come of it only if it is rejected.
-/
theorem open_rejected_iff {source : String} (opens : ¬ Settled source.toList)
    : let closed := String.ofList (closing source.toList)
      Settled closed.toList
      ∧ (∃ row mark body,
          mark :: body <:+ source.toList
          ∧ isQuote mark = true
          ∧ (spanString mark body).2 = none
          ∧ kindsOf source.toList = row ++ [.string (String.ofList (unescape body))])
      ∧ (∀ hint, parse source = .ok hint ↔ parse closed = .ok hint)
      ∧ ((∃ error,
            parse source = .error error
            ∧ Doclet.hintOfText source = .warned (.badType source error) Doclet.noHint)
          ↔ ¬ ∃ phrase : Marked, phrase.Derives closed) := by
  intro closed
  obtain ⟨settled, same, swallows⟩ := kindsOf_closing opens
  have chars : closed.toList = closing source.toList := String.toList_ofList
  rw [← chars] at settled same
  have alike (hint : Hint) : parse source = .ok hint ↔ parse closed = .ok hint :=
    parse_congr same.symm
  refine ⟨settled, swallows, alike, ?_⟩
  rw [← (parse_iff_derivable closed).1]
  constructor
  · rintro ⟨error, rejected, -⟩ ⟨hint, accepted⟩
    rw [(alike hint).2 accepted] at rejected
    cases rejected
  · intro underivable
    cases read : parse source with
    | ok hint => exact absurd ⟨hint, (alike hint).1 read⟩ underivable
    | error error => exact ⟨error, rfl, by rw [Doclet.hintOfText, read]⟩

/-- An open string behind a bar is a type, which swallows the next bar. -/
theorem open_rejected_iff_bar
    : let source := "number|\"a|b"
      ¬ Settled source.toList
      ∧ closing source.toList = "number|\"a|b\"".toList
      ∧ parse source = .ok ⟨.union [.primitive .number, .stringLiteral "a|b"], false, false⟩
      ∧ parse "number|\"a|b\"" = parse source
      ∧ ∃ phrase : Marked, phrase.Derives "number|\"a|b\"" := by
  intro source
  have opens : ¬ Settled source.toList := by
    rw [Settled]
    decide
  have closed : closing source.toList = "number|\"a|b\"".toList := by decide
  obtain ⟨-, -, alike, rejected⟩ := open_rejected_iff opens
  rw [closed, String.ofList_toList] at alike rejected
  have read
      : parse source = .ok ⟨.union [.primitive .number, .stringLiteral "a|b"], false, false⟩ := by
    decide +kernel
  refine ⟨opens, closed, read, ((alike _).1 read).trans read.symm, ?_⟩
  by_contra underivable
  obtain ⟨error, isError, -⟩ := rejected.2 underivable
  cases read.symm.trans isError

end Typings.Hint
