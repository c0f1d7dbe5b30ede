import Typings.Proofs.Hint.Namepaths
import Typings.Proofs.Text.Braces

/-! Strings in the text of a hint, told apart from all else by one pass over its characters, and the
braces of a text beside those of its tokens.
-/

namespace Typings.Hint

open Text Lexeme Braced

variable {c mark : Char} {cs ds rest : List Char} {l : Lexeme}

/-- Induction on a text as it is scanned: it is empty, or a character is skipped, or a token is cut
off its front.
-/
theorem scan_induction {P : List Char → Prop} (nil : P [])
    (skip : ∀ {c cs}, lexeme? c cs = none → P cs → P (c :: cs))
    (token : ∀ {c cs l}, lexeme? c cs = some l → P l.rest → P (c :: cs)) (cs : List Char)
    : P cs :=
  Token.scanFrom.induct (motive := fun _ cs => P cs) (fun _ => nil)
    (fun _ _ _ nothing ih => skip nothing ih) (fun _ _ _ _ found _ _ _ ih => token found ih) 0 cs

/-- The marks that strings stand between. -/
def isQuote (c : Char) : Bool :=
  c == '"' || c == '\''

/-- Which token `c` begins in front of `cs`. -/
inductive Begins (c : Char) (cs : List Char) : Lexeme → Prop where
  | punctuation {kind : Token.Kind} (mark : Token.Kind.ofPunctuation? c = some kind)
    : Begins c cs ⟨kind, [c], cs⟩
  | point (point : c = '.') : Begins c cs (.point cs)
  | string (quote : isQuote c = true) : Begins c cs (.string c cs)
  | number (begins : beginsNumber c cs = true) : Begins c cs (.number c cs)
  | name (starts : isNameStart c = true) : Begins c cs (.namepath (c :: cs))

theorem begins_of_lexeme (found : lexeme? c cs = some l) : Begins c cs l := by
  unfold lexeme? at found
  split at found
  next mark =>
    cases found
    exact .punctuation mark
  next =>
    split at found
    next point =>
      cases found
      exact .point (by simpa using point)
    next =>
      split at found
      next quote =>
        cases found
        exact .string quote
      next =>
        split at found
        next begins =>
          cases found
          exact .number begins
        next =>
          split at found
          next starts =>
            cases found
            exact .name starts
          next => cases found

-----------------------------------------------------------------------------------------
-- Places
-----------------------------------------------------------------------------------------

/-- Where a character stands: outside of strings, in a string that `mark` has opened, or there
behind a backslash.
-/
inductive Place where
  | outside
  | inside (mark : Char)
  | escaped (mark : Char)
deriving DecidableEq

namespace Place

/-- The place behind a character. -/
def next : Place → Char → Place
  | outside, c => if isQuote c then inside c else outside
  | inside mark, c => if c == '\\' then escaped mark else if c == mark then outside else inside mark
  | escaped mark, _ => inside mark

/-- The place behind a text. -/
def after (place : Place) (cs : List Char) : Place :=
  cs.foldl next place

/-- The characters of a text that stand outside of strings. -/
def unquoted : Place → List Char → List Char
  | _, [] => []
  | outside, c :: cs =>
    if isQuote c then unquoted (inside c) cs else c :: unquoted outside cs
  | place, c :: cs => unquoted (place.next c) cs

variable {place : Place}

theorem after_append : place.after (cs ++ ds) = (place.after cs).after ds :=
  List.foldl_append

theorem unquoted_append
    : place.unquoted (cs ++ ds) = place.unquoted cs ++ (place.after cs).unquoted ds := by
  fun_induction unquoted place cs with
  | case1 place => rfl
  | case2 c cs quote ih =>
      rw [List.cons_append, unquoted, if_pos quote, ih, after, after, List.foldl_cons, next,
        if_pos quote]
  | case3 c cs plain ih =>
      rw [List.cons_append, unquoted, if_neg plain, ih, after, after, List.foldl_cons, next,
        if_neg plain]
      rfl
  | case4 place c cs within ih =>
      rw [List.cons_append, unquoted, ih]
      · rfl
      · exact within

/-- Outside of strings, what has no quotation marks stays outside. -/
theorem outside_of_plain (plain : ∀ c ∈ cs, isQuote c = false)
    : outside.after cs = outside ∧ outside.unquoted cs = cs := by
  induction cs with
  | nil => exact ⟨rfl, rfl⟩
  | cons c cs ih =>
      obtain ⟨first, rest⟩ := List.forall_mem_cons.1 plain
      obtain ⟨place, chars⟩ := ih rest
      rw [after, List.foldl_cons, next, unquoted, first]
      exact ⟨place, congrArg (c :: ·) chars⟩

/-- A string that is closed leads outside, and one that is not never does. -/
theorem inside_spanString (quote : isQuote mark = true) (cs : List Char)
    : (∀ rest, (spanString mark cs).2 = some rest
        → (inside mark).after cs = outside.after rest
          ∧ (inside mark).unquoted cs = outside.unquoted rest)
      ∧ ((spanString mark cs).2 = none
        → (inside mark).after cs ≠ outside ∧ (inside mark).unquoted cs = []) := by
  have slash : '\\' ≠ mark := by
    rintro rfl
    exact absurd quote (by decide)
  fun_induction spanString mark cs with
  | case1 => simp [after, unquoted]
  | case2 c cs body rest found ih => simpa [found, after, unquoted, next] using ih
  | case3 c cs other same =>
      obtain rfl : c = mark := by simpa using same
      have first : (inside c).next c = outside := by
        simp [next, slash.symm]
      simp [after, unquoted, first]
  | case4 c cs other differs body rest found ih =>
      have differs : c ≠ mark := by simpa using differs
      by_cases escapes : c = '\\'
      · subst escapes
        -- a backslash at the end
        cases cs with
        | nil =>
            cases found
            simp [after, unquoted, next]
        | cons d ds => exact absurd rfl (other d ds rfl)
      · have stays : (inside mark).next c = inside mark := by
          simp [next, escapes, differs]
        simpa [found, after, unquoted, stays] using ih

end Place

-----------------------------------------------------------------------------------------
-- Strings among tokens
-----------------------------------------------------------------------------------------

/-- The braces that a token stands for. Those that a string holds are read off its value by `inner`.
-/
def bracesWith (inner : String → List Char) : Token.Kind → List Char
  | .leftBrace => ['{']
  | .rightBrace => ['}']
  | .string value => inner value
  | _ => []

/-- A token that is no string has no quotation marks, and no braces but its own. -/
structure Plain (kind : Token.Kind) (taken : List Char) : Prop where
  noString : ∀ value, kind ≠ .string value
  unquoted : ∀ c ∈ taken, isQuote c = false
  braces : ∀ inner, bracesWith inner kind = taken.filter isBrace

/-- Characters that are neither quotation marks nor braces. -/
def isInner (c : Char) : Bool :=
  !isQuote c && !isBrace c

theorem plain_of_inner {kind : Token.Kind} (noString : ∀ value, kind ≠ .string value)
    (none : ∀ inner, bracesWith inner kind = []) (inner : ∀ c ∈ cs, isInner c = true)
    : Plain kind cs where
  noString := noString
  unquoted c mem := by
    have each := inner c mem
    simp_all [isInner]
  braces values := by
    rw [none, eq_comm, List.filter_eq_nil_iff]
    intro c mem
    have each := inner c mem
    simp_all [isInner]

theorem isInner_of_isNameChar (name : isNameChar c = true) : isInner c = true := by
  have double : c ≠ '"' := ne_of_isNameChar name (by decide)
  have single : c ≠ '\'' := ne_of_isNameChar name (by decide)
  have opens : c ≠ '{' := ne_of_isNameChar name (by decide)
  have closes : c ≠ '}' := ne_of_isNameChar name (by decide)
  simp [isInner, isQuote, isBrace, double, single, opens, closes]

theorem isInner_of_isNumberChar (number : isNumberChar c = true) : isInner c = true := by
  have other {d : Char} (none : isNumberChar d = false) : c ≠ d := by
    rintro rfl
    rw [number] at none
    cases none
  have double : c ≠ '"' := other (by decide)
  have single : c ≠ '\'' := other (by decide)
  have opens : c ≠ '{' := other (by decide)
  have closes : c ≠ '}' := other (by decide)
  simp [isInner, isQuote, isBrace, double, single, opens, closes]

theorem isInner_of_inPath {inModule : Bool} (path : InPath inModule cs)
    : ∀ c ∈ cs, isInner c = true := by
  induction cs generalizing inModule with
  | nil => nofun
  | cons c cs ih =>
      obtain ⟨goesOn, rest⟩ := path
      refine List.forall_mem_cons.2 ⟨?_, ih rest⟩
      rcases pathGoesOn_iff.1 goesOn with name | ⟨separator, -⟩ | ⟨-, slash⟩
      · exact isInner_of_isNameChar name
      · simp only [List.mem_cons, List.not_mem_nil, or_false] at separator
        rcases separator with rfl | rfl | rfl <;> decide
      · simp only [List.mem_cons, List.not_mem_nil, or_false] at slash
        rcases slash with rfl | rfl | rfl <;> decide

theorem isInner_of_written (written : Written cs) : ∀ c ∈ cs, isInner c = true := by
  cases written with
  | plain _ path => exact isInner_of_inPath path
  | @kind word path known inPath =>
      have words : ∀ word ∈ pathKinds, (word ++ [':']).all isInner = true := by decide
      rw [List.append_cons]
      exact List.forall_mem_append.2
        ⟨List.all_eq_true.1 (words word known), isInner_of_inPath inPath⟩

theorem plain_punctuation {kind : Token.Kind} (mark : Token.Kind.ofPunctuation? c = some kind)
    : Plain kind [c] := by
  unfold Token.Kind.ofPunctuation? at mark
  split at mark
  all_goals cases mark
  all_goals exact ⟨nofun, List.forall_mem_singleton.2 rfl, fun _ => rfl⟩

theorem plain_ofName (text : String) (inner : ∀ c ∈ cs, isInner c = true)
    : Plain (Token.Kind.ofName text) cs := by
  unfold Token.Kind.ofName
  split
  all_goals exact plain_of_inner nofun (fun _ => rfl) inner

/-- Only a quotation mark begins a string. -/
theorem lexeme_cases (found : lexeme? c cs = some l)
    : isQuote c = true ∧ l = string c cs ∨ Plain l.kind l.taken := by
  cases begins_of_lexeme found with
  | punctuation mark => exact .inr (plain_punctuation mark)
  | point =>
      right
      unfold point
      split
      · exact plain_of_inner nofun (fun _ => rfl) (List.all_eq_true.1 rfl)
      · exact plain_of_inner nofun (fun _ => rfl) (List.all_eq_true.1 rfl)
  | string quote => exact .inl ⟨quote, rfl⟩
  | number begins =>
      refine .inr (plain_of_inner nofun (fun _ => rfl) (List.forall_mem_cons.2 ⟨?_, ?_⟩))
      · simp only [beginsNumber, Bool.or_eq_true, Bool.and_eq_true, beq_iff_eq] at begins
        rcases begins with digit | ⟨rfl, -⟩
        · exact isInner_of_isNumberChar (by simp [isNumberChar, Char.isAlphanum, digit])
        · decide
      · exact fun d mem => isInner_of_isNumberChar (List.mem_takeWhile_imp mem)
  | name starts => exact .inr (plain_ofName _ (isInner_of_written (written_spanNamepath starts)))

/-- What begins no token is neither a quotation mark nor a brace. -/
theorem isInner_of_skip (nothing : lexeme? c cs = none) : isInner c = true := by
  rw [isInner, Bool.and_eq_true, Bool.not_eq_true', Bool.not_eq_true']
  constructor
  · rw [Bool.eq_false_iff]
    intro quote
    have either : c = '"' ∨ c = '\'' := by simpa [isQuote] using quote
    rcases either with rfl | rfl <;> cases nothing
  · rw [Bool.eq_false_iff]
    intro brace
    have either : c = '{' ∨ c = '}' := by simpa [isBrace] using brace
    rcases either with rfl | rfl <;> cases nothing

-----------------------------------------------------------------------------------------
-- The braces of a text
-----------------------------------------------------------------------------------------

/-- Escapes stand for no braces and are written without them. -/
theorem filter_unescape (cs : List Char) : (unescape cs).filter isBrace = cs.filter isBrace := by
  fun_induction unescape cs with
  | case1 => rfl
  | case2 => rfl
  | case3 c cs d escape ih =>
      have none : isBrace c = false ∧ isBrace d = false := by
        unfold escaped? at escape
        split at escape
        all_goals cases escape
        all_goals decide
      have slash : isBrace '\\' = false := by decide
      simp [slash, none.1, none.2, ih]
  | case4 c cs _ ih => simp only [List.filter_cons, ih]
  | case5 c cs _ _ ih => simp only [List.filter_cons, ih]

/-- A token has the braces of its characters, if those of a string are those of its value. -/
theorem filter_braces (found : lexeme? c cs = some l)
    : (bracesWith String.toList l.kind).filter isBrace = l.taken.filter isBrace := by
  rcases lexeme_cases found with ⟨quote, rfl⟩ | plain
  · have mark : isBrace c = false := by
      have either : c = '"' ∨ c = '\'' := by simpa [isQuote] using quote
      rcases either with rfl | rfl <;> decide
    unfold string
    rcases spanString c cs with ⟨body, _ | rest⟩
    · simp [bracesWith, filter_unescape, mark]
    · simp [bracesWith, filter_unescape, mark]
  · rw [plain.braces, List.filter_filter]
    simp

/-- The braces of a text are those of its tokens, if strings keep theirs. -/
theorem filter_kindsOf (cs : List Char)
    : ((kindsOf cs).flatMap (bracesWith String.toList)).filter isBrace = cs.filter isBrace := by
  induction cs using scan_induction with
  | nil => rw [kindsOf_nil]; rfl
  | skip nothing ih =>
      have inner := isInner_of_skip nothing
      rw [kindsOf_skip nothing, ih, List.filter_cons_of_neg]
      simp_all [isInner]
  | token found ih =>
      rw [kindsOf_cons found, List.flatMap_cons, List.filter_append, filter_braces found, ih,
        ← List.filter_append, taken_append_rest found]

/-- The braces of a text outside of strings are those of its tokens, if strings have none. -/
theorem braces_kindsOf (cs : List Char)
    : (kindsOf cs).flatMap (bracesWith fun _ => [])
      = (Place.outside.unquoted cs).filter isBrace := by
  induction cs using scan_induction with
  | nil => rw [kindsOf_nil]; rfl
  | skip nothing ih =>
      have inner := isInner_of_skip nothing
      simp only [isInner, Bool.and_eq_true, Bool.not_eq_true'] at inner
      rw [kindsOf_skip nothing, ih, Place.unquoted, if_neg (by simp [inner.1]),
        List.filter_cons_of_neg (by simp [inner.2])]
  | @token c cs l found ih =>
      rw [kindsOf_cons found, List.flatMap_cons]
      rcases lexeme_cases found with ⟨quote, rfl⟩ | plain
      · rw [Place.unquoted, if_pos quote]
        rw [string] at ih ⊢
        obtain ⟨closed, stays⟩ := Place.inside_spanString quote cs
        revert ih closed stays
        rcases spanString c cs with ⟨body, _ | rest⟩
        · intro ih closed stays
          simp [bracesWith, (stays rfl).2]
        · intro ih closed stays
          simp_all [bracesWith, (closed rest rfl).2]
      · obtain ⟨place, chars⟩ := Place.outside_of_plain plain.unquoted
        rw [← taken_append_rest found, Place.unquoted_append, place, chars, plain.braces, ih,
          List.filter_append]

end Typings.Hint
