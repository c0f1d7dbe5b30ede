import Typings.Proofs.Hint.Quotation

/-! How a text scans that a colon ends, or that a brace stands behind. Behind a text that leaves no
string open and ends with no colon, a brace is a token of its own.
-/

namespace Typings.Hint

open Text Lexeme

variable {c mark : Char} {cs ds word rest : List Char} {l : Lexeme}

-----------------------------------------------------------------------------------------
-- Namepaths and colons
-----------------------------------------------------------------------------------------

/-- The kind of a path is joined to what follows it behind a colon, if no blank does. -/
def Joined (word rest : List Char) : Prop :=
  word ∈ pathKinds ∧ ∃ c cs, rest = ':' :: c :: cs ∧ isBlank c = false

/-- A path ends before a colon. -/
theorem spanPath_colon (cs : List Char) : spanPath false (':' :: cs) = ([], ':' :: cs) := by
  have other : isNameChar ':' = false := by decide
  rw [spanPath, if_neg]
  rw [pathGoesOn_iff]
  simp [other]

theorem spanNamepath_joined (kind : word ∈ pathKinds) (visible : isBlank c = false) (cs : List Char)
    : spanNamepath (word ++ ':' :: c :: cs)
      = (word ++ ':' :: (spanPath (word == "module".toList) (c :: cs)).1,
          (spanPath (word == "module".toList) (c :: cs)).2) := by
  have words : ∀ word ∈ pathKinds, word.all isNameChar = true := by decide
  have names := List.all_eq_true.1 (words word kind)
  have colon : isNameChar ':' = false := by decide
  unfold spanNamepath
  rw [List.takeWhile_append_of_pos names, List.dropWhile_append_of_pos names,
    List.takeWhile_cons_of_neg (by simp [colon]), List.dropWhile_cons_of_neg (by simp [colon]),
    List.append_nil]
  simp [kind, visible]

theorem spanNamepath_apart (names : ∀ c ∈ word, isNameChar c = true)
    (ends : ∀ c ∈ rest.head?, isNameChar c = false) (apart : ¬ Joined word rest)
    : spanNamepath (word ++ rest)
      = (word ++ (spanPath false rest).1, (spanPath false rest).2) := by
  obtain ⟨takes, drops⟩ := span_of_head ends
  unfold spanNamepath
  rw [List.takeWhile_append_of_pos names, List.dropWhile_append_of_pos names, takes, drops,
    List.append_nil]
  dsimp only
  split
  next c cs =>
    have unknown : ¬ (pathKinds.contains word && !isBlank c) = true := by
      rw [Bool.and_eq_true, List.contains_iff_mem, Bool.not_eq_true']
      rintro ⟨kind, visible⟩
      exact apart ⟨kind, c, cs, rfl, visible⟩
    rw [if_neg unknown, spanPath_colon, List.append_nil]
  next => rfl

/-- A text is a word and what follows it. -/
theorem exists_word (cs : List Char)
    : ∃ word rest,
        cs = word ++ rest
        ∧ (∀ c ∈ word, isNameChar c = true)
        ∧ ∀ c ∈ rest.head?, isNameChar c = false := by
  refine ⟨cs.takeWhile isNameChar, cs.dropWhile isNameChar,
    List.takeWhile_append_dropWhile.symm, fun _ mem => List.mem_takeWhile_imp mem, ?_⟩
  intro c first
  have fails := List.head?_dropWhile_not isNameChar cs
  rw [first] at fails
  simpa using fails

/-- No colon ends a namepath that the text ends with. -/
theorem getLast_spanNamepath (all : (spanNamepath cs).2 = [])
    : cs.getLast? ≠ some ':' := by
  intro last
  obtain ⟨word, rest, rfl, names, ends⟩ := exists_word cs
  by_cases joined : Joined word rest
  · obtain ⟨kind, c, cs, rfl, visible⟩ := joined
    rw [spanNamepath_joined kind visible] at all
    have whole := spanPath_append (word == "module".toList) (c :: cs)
    rw [all, List.append_nil] at whole
    have path := inPath_spanPath (word == "module".toList) (c :: cs)
    rw [whole] at path
    have mem : ':' ∈ c :: cs := by
      apply List.mem_of_getLast?
      simpa [List.getLast?_append] using last
    exact colon_not_mem path mem
  · rw [spanNamepath_apart names ends joined] at all
    have whole := spanPath_append false rest
    rw [all, List.append_nil] at whole
    have path := inPath_spanPath false rest
    rw [whole] at path
    exact colon_not_mem (inPath_append names path) (List.mem_of_getLast? last)

-----------------------------------------------------------------------------------------
-- A brace behind a token
-----------------------------------------------------------------------------------------

theorem span_append_brace {p : Char → Bool} (other : p '}' = false) (cs : List Char)
    : (cs ++ ['}']).takeWhile p = cs.takeWhile p
      ∧ (cs ++ ['}']).dropWhile p = cs.dropWhile p ++ ['}'] := by
  induction cs with
  | nil => simp [other]
  | cons c cs ih =>
      simp only [List.cons_append, List.takeWhile_cons, List.dropWhile_cons]
      split
      · exact ⟨congrArg (c :: ·) ih.1, ih.2⟩
      · exact ⟨rfl, rfl⟩

theorem any_head?_append_brace {p : Char → Bool} (other : p '}' = false)
    : (cs ++ ['}']).head?.any p = cs.head?.any p := by
  cases cs with
  | nil => simpa using other
  | cons => rfl

theorem beginsNumber_append_brace : beginsNumber c (cs ++ ['}']) = beginsNumber c cs := by
  rw [beginsNumber, any_head?_append_brace (by decide), beginsNumber]

theorem spanPath_append_brace (inModule : Bool) (cs : List Char)
    : spanPath inModule (cs ++ ['}'])
      = ((spanPath inModule cs).1, (spanPath inModule cs).2 ++ ['}']) := by
  induction cs generalizing inModule with
  | nil =>
      have ends : pathGoesOn inModule '}' [] = false := by cases inModule <;> decide
      simp [spanPath, ends]
  | cons c cs ih =>
      have same : pathGoesOn inModule c (cs ++ ['}']) = pathGoesOn inModule c cs := by
        rw [pathGoesOn, any_head?_append_brace (by decide), pathGoesOn]
      rw [List.cons_append, spanPath, same, spanPath]
      split
      · rw [ih]
      · rfl

theorem spanNamepath_append_brace (last : cs.getLast? ≠ some ':')
    : spanNamepath (cs ++ ['}']) = ((spanNamepath cs).1, (spanNamepath cs).2 ++ ['}']) := by
  obtain ⟨word, rest, rfl, names, ends⟩ := exists_word cs
  rw [List.append_assoc]
  by_cases joined : Joined word rest
  · obtain ⟨kind, c, cs, rfl, visible⟩ := joined
    have path := spanPath_append_brace (word == "module".toList) (c :: cs)
    rw [List.cons_append, List.cons_append, spanNamepath_joined kind visible, ← List.cons_append,
      path, spanNamepath_joined kind visible]
  · have stillEnds : ∀ c ∈ (rest ++ ['}']).head?, isNameChar c = false := by
      cases rest with
      | nil =>
          rintro _ ⟨⟩
          decide
      | cons => exact ends
    have stillApart : ¬ Joined word (rest ++ ['}']) := by
      rintro ⟨kind, c, cs, same, visible⟩
      rcases rest with _ | ⟨d, _ | ⟨e, rest⟩⟩
      · cases same
      · cases same
        exact last List.getLast?_concat
      · cases same
        exact joined ⟨kind, c, rest, rfl, visible⟩
    rw [spanNamepath_apart names stillEnds stillApart, spanPath_append_brace,
      spanNamepath_apart names ends joined]

theorem spanString_append (quote : isQuote mark = true) {body : List Char}
    (closed : spanString mark cs = (body, some rest)) (ds : List Char)
    : spanString mark (cs ++ ds) = (body, some (rest ++ ds)) := by
  have slash : '\\' ≠ mark := by
    rintro rfl
    exact absurd quote (by decide)
  fun_induction spanString mark cs generalizing body with
  | case1 => cases closed
  | case2 c cs front back found ih =>
      cases closed
      rw [List.cons_append, List.cons_append, spanString, ih found]
  | case3 c cs other same =>
      cases closed
      obtain rfl : c = mark := by simpa using same
      rw [List.cons_append, spanString, if_pos same]
      rintro _ _ rfl
      exact absurd rfl slash
  | case4 c cs other differs front back found ih =>
      cases closed
      rw [List.cons_append, spanString, if_neg differs, ih found]
      -- a backslash at the end leaves the string open
      rintro d es rfl same
      cases cs with
      | nil => cases found
      | cons e cs => exact other e cs rfl rfl

theorem string_closed {body : List Char} (closed : spanString mark cs = (body, some rest))
    : string mark cs
      = ⟨.string (String.ofList (unescape body)), mark :: (body ++ [mark]), rest⟩ := by
  rw [string, closed]

theorem lexeme_of_isQuote (quote : isQuote c = true) : lexeme? c cs = some (string c cs) := by
  have either : c = '"' ∨ c = '\'' := by simpa [isQuote] using quote
  rcases either with rfl | rfl <;> rfl

/-- A token with a brace behind it stays as it is. -/
theorem lexeme_append_brace (found : lexeme? c cs = some l)
    (closed : isQuote c = true → ∃ body rest, spanString c cs = (body, some rest))
    (last : (c :: cs).getLast? ≠ some ':')
    : lexeme? c (cs ++ ['}']) = some ⟨l.kind, l.taken, l.rest ++ ['}']⟩ := by
  cases begins_of_lexeme found with
  | punctuation mark => rw [lexeme?, mark]
  | point point =>
      subst point
      change some (Lexeme.point (cs ++ ['}'])) = some _
      rw [Option.some.injEq]
      fun_cases Lexeme.point cs with
      | case1 => rfl
      | case2 rest other =>
          unfold Lexeme.point
          split
          next same =>
            rcases cs with _ | ⟨d, _ | ⟨e, cs⟩⟩ <;> cases same
            exact absurd rfl (other cs)
          next => rfl
  | string quote =>
      obtain ⟨body, rest, closed⟩ := closed quote
      rw [lexeme_of_isQuote quote, string_closed closed,
        string_closed (spanString_append quote closed ['}'])]
  | number begins =>
      rw [lexeme_of_beginsNumber (by rwa [beginsNumber_append_brace])]
      obtain ⟨takes, drops⟩ := span_append_brace (p := isNumberChar) (by decide) cs
      simp [number, takes, drops]
  | name starts =>
      have span := spanNamepath_append_brace last
      rw [lexeme_of_isNameStart starts, namepath, ← List.cons_append, span]
      rfl

/-- What begins no token begins none in front of more, unless that makes a number of it. -/
theorem lexeme_append_none (nothing : lexeme? c cs = none)
    (same : beginsNumber c (cs ++ ds) = beginsNumber c cs)
    : lexeme? c (cs ++ ds) = none := by
  cases found : lexeme? c (cs ++ ds) with
  | none => rfl
  | some l =>
      cases begins_of_lexeme found with
      | punctuation mark =>
          rw [lexeme?, mark] at nothing
          cases nothing
      | point point =>
          subst point
          cases nothing
      | string quote => cases (lexeme_of_isQuote quote).symm.trans nothing
      | number begins =>
          rw [same] at begins
          cases (lexeme_of_beginsNumber begins).symm.trans nothing
      | name starts => cases (lexeme_of_isNameStart starts).symm.trans nothing

-----------------------------------------------------------------------------------------
-- A brace behind a text
-----------------------------------------------------------------------------------------

/-- A text leaves no string open. -/
def Settled (cs : List Char) : Prop :=
  Place.outside.after cs = .outside

/-- Behind a token that is cut off a text that leaves no string open, none is open. -/
theorem Settled.token (settled : Settled (c :: cs)) (found : lexeme? c cs = some l)
    : Settled l.rest ∧ (isQuote c = true → ∃ body rest, spanString c cs = (body, some rest)) := by
  rcases lexeme_cases found with ⟨quote, rfl⟩ | plain
  · have first : Place.outside.next c = .inside c := by
      rw [Place.next, if_pos quote]
    rw [Settled, Place.after, List.foldl_cons, first, ← Place.after] at settled
    obtain ⟨leads, stays⟩ := Place.inside_spanString quote cs
    rcases closed : spanString c cs with ⟨body, _ | rest⟩
    · rw [closed] at stays
      exact absurd settled (stays rfl).1
    · rw [closed] at leads
      rw [string_closed closed]
      exact ⟨(leads rest rfl).1.symm.trans settled, fun _ => ⟨body, rest, rfl⟩⟩
  · constructor
    · rwa [Settled, ← taken_append_rest found, Place.after_append,
        (Place.outside_of_plain plain.unquoted).1] at settled
    · intro quote
      obtain ⟨d, ds, taken⟩ := List.exists_cons_of_ne_nil (taken_ne_nil found)
      have whole := taken_append_rest found
      rw [taken, List.cons_append] at whole
      obtain rfl := (List.cons.inj whole).1
      have unquoted := plain.unquoted d (by simp [taken])
      rw [quote] at unquoted
      cases unquoted

theorem Settled.skip (settled : Settled (c :: cs)) (nothing : lexeme? c cs = none)
    : Settled cs := by
  have inner := isInner_of_skip nothing
  have first : Place.outside.next c = .outside := by
    simp_all [isInner, Place.next]
  rwa [Settled, Place.after, List.foldl_cons, first] at settled

/-- Only the token of a colon ends with one at the end of a text. -/
theorem getLast_lexeme (found : lexeme? c cs = some l) (all : l.rest = [])
    (settled : Settled (c :: cs)) (last : (c :: cs).getLast? = some ':')
    : l.kind = .colon := by
  have whole := taken_append_rest found
  rw [all, List.append_nil] at whole
  cases begins_of_lexeme found with
  | punctuation mark =>
      cases all
      cases last
      cases mark
      rfl
  | point =>
      rw [← whole] at last
      unfold Lexeme.point at last
      split at last <;> cases last
  | string quote =>
      obtain ⟨-, closed⟩ := settled.token found
      obtain ⟨body, rest, closed⟩ := closed quote
      rw [string_closed closed] at whole
      rw [← whole, ← List.cons_append, List.getLast?_concat] at last
      cases last
      cases quote
  | number begins =>
      have mem := List.mem_of_getLast? last
      rw [← whole] at mem
      rcases List.mem_cons.1 mem with rfl | later
      · simp [beginsNumber] at begins
      · exact absurd (List.mem_takeWhile_imp later) (by decide)
  | name starts => exact absurd last (getLast_spanNamepath all)

/-- The last characters of a text are those of what is left behind its first token. -/
theorem getLast_token (found : lexeme? c cs = some l) (more : l.rest ≠ [])
    : (c :: cs).getLast? = l.rest.getLast? := by
  rw [← taken_append_rest found, List.getLast?_append_of_ne_nil _ more]

/-- Behind a text that leaves no string open and ends with no colon, a brace is a token by itself.
-/
theorem kindsOf_append_brace (settled : Settled cs) (last : cs.getLast? ≠ some ':')
    : kindsOf (cs ++ ['}']) = kindsOf cs ++ [.rightBrace] := by
  induction cs using scan_induction with
  | nil =>
      have brace : Token.Kind.ofPunctuation? '}' = some .rightBrace := rfl
      rw [List.nil_append, kindsOf_punctuation brace, kindsOf_nil]
      rfl
  | @skip c cs nothing ih =>
      have skips := lexeme_append_none nothing beginsNumber_append_brace
      rw [List.cons_append, kindsOf_skip skips, kindsOf_skip nothing]
      refine ih (settled.skip nothing) ?_
      rintro colon
      exact last (by rw [List.getLast?_cons, colon]; rfl)
  | @token c cs l found ih =>
      obtain ⟨later, closed⟩ := settled.token found
      have whole := kindsOf_cons (lexeme_append_brace found closed last)
      rw [List.cons_append, whole, kindsOf_cons found, ih later]
      · rfl
      · intro colon
        rw [getLast_token found (by rintro none; simp [none] at colon)] at last
        exact last colon

/-- A text that leaves no string open and ends with a colon ends with the token of one. -/
theorem getLast_kindsOf (settled : Settled cs) (last : cs.getLast? = some ':')
    : (kindsOf cs).getLast? = some .colon := by
  induction cs using scan_induction with
  | nil => cases last
  | @skip c cs nothing ih =>
      rw [kindsOf_skip nothing]
      refine ih (settled.skip nothing) ?_
      cases cs with
      | nil =>
          cases last
          cases nothing
      | cons d ds => rwa [List.getLast?_cons_cons] at last
  | @token c cs l found ih =>
      obtain ⟨later, closed⟩ := settled.token found
      rw [kindsOf_cons found]
      by_cases more : l.rest = []
      · rw [more, kindsOf_nil, getLast_lexeme found more settled last]
        rfl
      · have behind := ih later (by rw [← getLast_token found more, last])
        rw [List.getLast?_cons, behind]
        rfl

end Typings.Hint
