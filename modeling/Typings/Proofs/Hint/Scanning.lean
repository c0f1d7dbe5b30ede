import Typings.Proofs.Hint.Acceptance
import Typings.Text.Quoted

/-! How the texts of words scan: in front of what no word goes on with, a word scans to its own
tokens and leaves the rest alone.
-/

namespace Typings.Hint

open Text Lexeme

-----------------------------------------------------------------------------------------
-- Tokens without their places
-----------------------------------------------------------------------------------------

/-- The kinds of the tokens that `cs` scans to. -/
def kindsOf (cs : List Char) : List Token.Kind :=
  (Token.scanFrom 0 cs).1.map Token.kind

variable {c : Char} {cs rest : List Char}

/-- Where a text begins makes no difference to the kinds of its tokens. -/
theorem map_kind_scanFrom (offset : Nat) (cs : List Char)
    : (Token.scanFrom offset cs).1.map Token.kind = kindsOf cs := by
  rw [kindsOf]
  generalize 0 = start
  fun_induction Token.scanFrom offset cs generalizing start with
  | case1 => rw [Token.scanFrom]
  | case2 offset c cs none ih =>
      rw [Token.scanFrom]
      split
      · exact ih _
      · simp_all
  | case3 offset c cs l some tokens stop same ih =>
      rw [same] at ih
      rw [Token.scanFrom.eq_def start]
      dsimp only
      split
      · simp_all
      · rename_i l' some'
        obtain rfl := Option.some.inj (some.symm.trans some')
        exact congrArg (l.kind :: ·) (ih _)

@[simp]
theorem kindsOf_nil : kindsOf [] = [] := by
  rw [kindsOf, Token.scanFrom]
  rfl

theorem kindsOf_cons {l : Lexeme} (found : lexeme? c cs = some l)
    : kindsOf (c :: cs) = l.kind :: kindsOf l.rest := by
  rw [kindsOf, Token.scanFrom]
  split
  · simp_all
  · rename_i l' found'
    obtain rfl := Option.some.inj (found.symm.trans found')
    exact congrArg (l.kind :: ·) (map_kind_scanFrom _ _)

theorem kindsOf_skip (nothing : lexeme? c cs = none) : kindsOf (c :: cs) = kindsOf cs := by
  rw [kindsOf, Token.scanFrom]
  split
  · exact map_kind_scanFrom _ _
  · simp_all

theorem kindsOf_punctuation {kind : Token.Kind} (mark : Token.Kind.ofPunctuation? c = some kind)
    : kindsOf (c :: cs) = kind :: kindsOf cs := by
  have found : lexeme? c cs = some ⟨kind, [c], cs⟩ := by
    rw [lexeme?, mark]
  exact kindsOf_cons found

@[simp]
theorem kindsOf_space : kindsOf (' ' :: cs) = kindsOf cs := by
  apply kindsOf_skip
  have starts : isNameStart ' ' = false := by decide
  simp [lexeme?, Token.Kind.ofPunctuation?, beginsNumber, starts]

-----------------------------------------------------------------------------------------
-- Where words end
-----------------------------------------------------------------------------------------

/-- The characters that may stand behind a word in the text of a type. -/
def stops : List Char :=
  ['<', '>', ',', ' ', '[', ')']

/-- Nothing follows, or something that no word goes on with. -/
def Stops (rest : List Char) : Prop :=
  ∀ c ∈ rest.head?, c ∈ stops

/-- In front of a stop, `text` scans to the tokens `ts`. -/
def Scans (text : String) (ts : List Token.Kind) : Prop :=
  ∀ rest, Stops rest → kindsOf (text.toList ++ rest) = ts ++ kindsOf rest

theorem stops_nil : Stops [] :=
  nofun

theorem stops_cons (stop : c ∈ stops) : Stops (c :: rest) := by
  rintro _ ⟨⟩
  exact stop

theorem isNameChar_of_stop (stop : c ∈ stops) : isNameChar c = false := by
  simp only [stops, List.mem_cons, List.not_mem_nil, or_false] at stop
  rcases stop with rfl | rfl | rfl | rfl | rfl | rfl <;> decide

theorem isNumberChar_of_stop (stop : c ∈ stops) : isNumberChar c = false := by
  simp only [stops, List.mem_cons, List.not_mem_nil, or_false] at stop
  rcases stop with rfl | rfl | rfl | rfl | rfl | rfl <;> decide

theorem ne_of_stop {d : Char} (stop : c ∈ stops) (other : d ∉ stops) : c ≠ d := by
  rintro rfl
  exact other stop

/-- What does not hold of the first character takes nothing off the front. -/
theorem span_of_head {p : Char → Bool} (none : ∀ c ∈ rest.head?, p c = false)
    : rest.takeWhile p = [] ∧ rest.dropWhile p = rest := by
  cases rest with
  | nil => exact ⟨rfl, rfl⟩
  | cons c cs =>
      have fails := none c rfl
      exact ⟨List.takeWhile_cons_of_neg (by simp [fails]),
        List.dropWhile_cons_of_neg (by simp [fails])⟩

-----------------------------------------------------------------------------------------
-- Characters that begin names
-----------------------------------------------------------------------------------------

theorem ne_of_isNameChar {d : Char} (name : isNameChar c = true) (other : isNameChar d = false)
    : c ≠ d := by
  rintro rfl
  rw [name] at other
  cases other

theorem not_punctuation_of_isNameStart (starts : isNameStart c = true)
    : Token.Kind.ofPunctuation? c = none := by
  unfold Token.Kind.ofPunctuation?
  split
  all_goals first | rfl | exact absurd starts (by decide)

theorem isDigit_of_isNameStart (starts : isNameStart c = true) : c.isDigit = false := by
  rw [Bool.eq_false_iff]
  intro digit
  have range : 48 ≤ c.toNat ∧ c.toNat ≤ 57 := Char.isDigit_iff_toNat.1 digit
  have ascii : c.toNat < 128 := by omega
  have underscore : c ≠ '_' := by rintro rfl; cases digit
  have dollar : c ≠ '$' := by rintro rfl; cases digit
  have letter : c.isAlpha = true := by
    simpa [isNameStart, isLetter, ascii, underscore, dollar] using starts
  have ranges : (65 ≤ c.val ∧ c.val ≤ 90) ∨ (97 ≤ c.val ∧ c.val ≤ 122) := by
    rcases Bool.or_eq_true_iff.1 letter with upper | lower
    · exact .inl (of_decide_eq_true upper)
    · exact .inr ((Bool.and_eq_true_iff.1 lower).imp of_decide_eq_true of_decide_eq_true)
  simp only [UInt32.le_iff_toNat_le] at ranges
  change (65 ≤ c.toNat ∧ c.toNat ≤ 90) ∨ (97 ≤ c.toNat ∧ c.toNat ≤ 122) at ranges
  omega

theorem lexeme_of_isNameStart (starts : isNameStart c = true)
    : lexeme? c cs = some (namepath (c :: cs)) := by
  have name := isNameChar_of_isNameStart starts
  have dot : c ≠ '.' := ne_of_isNameChar name (by decide)
  have double : c ≠ '"' := ne_of_isNameChar name (by decide)
  have single : c ≠ '\'' := ne_of_isNameChar name (by decide)
  have minus : c ≠ '-' := ne_of_isNameChar name (by decide)
  simp [lexeme?, not_punctuation_of_isNameStart starts, dot, double, single, beginsNumber, minus,
    isDigit_of_isNameStart starts, starts]

-----------------------------------------------------------------------------------------
-- Texts with separators between them
-----------------------------------------------------------------------------------------

/-- Texts, each behind a separator. -/
def separated (separator : String) (texts : List String) : List Char :=
  texts.flatMap fun text => separator.toList ++ text.toList

theorem toList_intercalate_cons (separator first : String) (texts : List String)
    : (separator.intercalate (first :: texts)).toList
      = first.toList ++ separated separator texts := by
  induction texts generalizing first with
  | nil => simp [separated]
  | cons second texts ih =>
      rw [String.intercalate_cons_cons, String.toList_append, String.toList_append, ih]
      simp [separated]

-----------------------------------------------------------------------------------------
-- Names
-----------------------------------------------------------------------------------------

/-- Identifiers with points between them. -/
def IsPath (name : String) : Prop :=
  ∃ segments : List String,
    segments ≠ [] ∧ (∀ segment ∈ segments, isIdentifier segment = true)
    ∧ name = ".".intercalate segments

theorem chars_of_isIdentifier {text : String} (identifier : isIdentifier text = true)
    : ∃ c cs, text.toList = c :: cs ∧ isNameStart c = true
        ∧ ∀ d ∈ c :: cs, isNameChar d = true := by
  unfold isIdentifier at identifier
  split at identifier
  · cases identifier
  · rename_i c cs chars
    simp only [Bool.and_eq_true, List.all_eq_true] at identifier
    obtain ⟨starts, later⟩ := identifier
    refine ⟨c, cs, chars, starts, ?_⟩
    rintro d (_ | ⟨_, mem⟩)
    · exact isNameChar_of_isNameStart starts
    · exact later d mem

theorem not_goesOn_of_stop (stop : c ∈ stops) : pathGoesOn false c cs = false := by
  have point : c ≠ '.' := ne_of_stop stop (by decide)
  have tilde : c ≠ '~' := ne_of_stop stop (by decide)
  have hash : c ≠ '#' := ne_of_stop stop (by decide)
  simp [pathGoesOn, isNameChar_of_stop stop, point, tilde, hash]

theorem spanPath_of_stops (stop : Stops rest) : spanPath false rest = ([], rest) := by
  cases rest with
  | nil => rfl
  | cons c cs => rw [spanPath, if_neg (by simp [not_goesOn_of_stop (stop c rfl)])]

theorem spanPath_cons (goesOn : pathGoesOn false c cs = true)
    : spanPath false (c :: cs) = (c :: (spanPath false cs).1, (spanPath false cs).2) := by
  rw [spanPath, if_pos goesOn, Bool.false_and, Bool.false_and]

theorem spanPath_nameChars (names : ∀ c ∈ cs, isNameChar c = true) (rest : List Char)
    : spanPath false (cs ++ rest) = (cs ++ (spanPath false rest).1, (spanPath false rest).2) := by
  induction cs with
  | nil => rfl
  | cons c cs ih =>
      have goesOn : pathGoesOn false c (cs ++ rest) = true := by
        simp [pathGoesOn, names c (List.mem_cons_self ..)]
      rw [List.cons_append, spanPath_cons goesOn,
        ih fun d mem => names d (List.mem_cons_of_mem c mem)]
      rfl

theorem spanPath_separated {segments : List String}
    (identifiers : ∀ segment ∈ segments, isIdentifier segment = true) (stop : Stops rest)
    : spanPath false (separated "." segments ++ rest) = (separated "." segments, rest) := by
  induction segments with
  | nil => exact spanPath_of_stops stop
  | cons segment segments ih =>
      obtain ⟨c, cs, chars, starts, names⟩ :=
        chars_of_isIdentifier (identifiers segment (List.mem_cons_self ..))
      have goesOn : pathGoesOn false '.' (c :: cs ++ (separated "." segments ++ rest)) = true := by
        simp [pathGoesOn, starts]
      have split : separated "." (segment :: segments) ++ rest
          = '.' :: (c :: cs ++ (separated "." segments ++ rest)) := by
        simp [separated, chars]
      rw [split, spanPath_cons goesOn, spanPath_nameChars names,
        ih fun other mem => identifiers other (List.mem_cons_of_mem segment mem)]
      simp [separated, chars]

/-- Behind the first segment of a path stands a point or a stop. -/
theorem head_separated (segments : List String) (stop : Stops rest)
    : ∀ c ∈ (separated "." segments ++ rest).head?, isNameChar c = false ∧ c ≠ ':' := by
  intro c head
  cases segments with
  | nil => exact ⟨isNameChar_of_stop (stop c head), ne_of_stop (stop c head) (by decide)⟩
  | cons =>
      cases head
      decide

theorem spanNamepath_path {first : String} {segments : List String}
    (identifiers : ∀ segment ∈ first :: segments, isIdentifier segment = true) (stop : Stops rest)
    : spanNamepath (first.toList ++ (separated "." segments ++ rest))
      = (first.toList ++ separated "." segments, rest) := by
  obtain ⟨c, cs, chars, -, names⟩ :=
    chars_of_isIdentifier (identifiers first (List.mem_cons_self ..))
  have later := spanPath_separated
    (fun segment mem => identifiers segment (List.mem_cons_of_mem first mem)) stop
  have head := head_separated segments stop
  generalize separated "." segments = path at later head
  obtain ⟨takes, drops⟩ := span_of_head fun c first => (head c first).1
  rw [← chars] at names
  unfold spanNamepath
  rw [List.takeWhile_append_of_pos names, List.dropWhile_append_of_pos names, takes, drops,
    List.append_nil]
  dsimp only
  split
  · rename_i colon
    rw [colon] at head
    exact absurd rfl (head _ rfl).2
  · rw [later]

theorem scans_path {name : String} (path : IsPath name)
    : Scans name [Token.Kind.ofName name] := by
  rcases path with ⟨_ | ⟨first, segments⟩, nonempty, identifiers, rfl⟩
  · exact absurd rfl nonempty
  intro rest stop
  obtain ⟨c, cs, chars, starts, -⟩ :=
    chars_of_isIdentifier (identifiers first (List.mem_cons_self ..))
  have span := spanNamepath_path identifiers stop
  have text := toList_intercalate_cons "." first segments
  rw [text, List.append_assoc]
  rw [chars] at span text ⊢
  rw [List.cons_append, kindsOf_cons (lexeme_of_isNameStart starts), namepath]
  rw [← List.cons_append, span, ← text]
  dsimp only
  rw [String.ofList_toList]
  rfl

-----------------------------------------------------------------------------------------
-- Numbers
-----------------------------------------------------------------------------------------

/-- A digit, and then ASCII letters, digits and points. -/
def isUnsigned : List Char → Bool
  | [] => false
  | c :: cs => c.isDigit && cs.all isNumberChar

/-- The text of a number, perhaps behind a minus sign. -/
def isNumberText (text : String) : Bool :=
  isUnsigned text.toList || (text.toList.head? == some '-' && isUnsigned text.toList.tail)

theorem exists_of_isUnsigned (unsigned : isUnsigned cs = true)
    : ∃ d ds, cs = d :: ds ∧ d.isDigit = true ∧ ∀ e ∈ ds, isNumberChar e = true := by
  unfold isUnsigned at unsigned
  split at unsigned
  · cases unsigned
  · rename_i d ds
    simp only [Bool.and_eq_true, List.all_eq_true] at unsigned
    exact ⟨d, ds, rfl, unsigned⟩

theorem begins_of_isNumberText {text : String} (numeric : isNumberText text = true)
    (rest : List Char)
    : ∃ c cs, text.toList = c :: cs ∧ beginsNumber c (cs ++ rest) = true
        ∧ ∀ d ∈ cs, isNumberChar d = true := by
  rw [isNumberText, Bool.or_eq_true, Bool.and_eq_true] at numeric
  rcases numeric with unsigned | ⟨minus, unsigned⟩
  · obtain ⟨c, cs, chars, digit, more⟩ := exists_of_isUnsigned unsigned
    exact ⟨c, cs, chars, by simp [beginsNumber, digit], more⟩
  · cases chars : text.toList with
    | nil => simp [chars] at minus
    | cons c cs =>
        simp only [chars, List.head?_cons, beq_iff_eq, Option.some.injEq] at minus
        rw [chars, List.tail_cons] at unsigned
        obtain ⟨d, ds, rfl, digit, more⟩ := exists_of_isUnsigned unsigned
        refine ⟨c, d :: ds, rfl, by simp [beginsNumber, minus, digit], ?_⟩
        exact List.forall_mem_cons.2 ⟨by simp [isNumberChar, Char.isAlphanum, digit], more⟩

theorem lexeme_of_beginsNumber (begins : beginsNumber c cs = true)
    : lexeme? c cs = some (number c cs) := by
  have numeric : c.isDigit = true ∨ c = '-' := by
    simp only [beginsNumber, Bool.or_eq_true, Bool.and_eq_true, beq_iff_eq] at begins
    exact begins.imp id And.left
  have mark : Token.Kind.ofPunctuation? c = none := by
    unfold Token.Kind.ofPunctuation?
    split
    all_goals first | rfl | exact absurd numeric (by decide)
  have point : c ≠ '.' := by rintro rfl; exact absurd numeric (by decide)
  have double : c ≠ '"' := by rintro rfl; exact absurd numeric (by decide)
  have single : c ≠ '\'' := by rintro rfl; exact absurd numeric (by decide)
  simp [lexeme?, mark, point, double, single, begins]

theorem scans_number {text : String} (numeric : isNumberText text = true)
    : Scans text [.number text] := by
  intro rest stop
  obtain ⟨c, cs, chars, begins, more⟩ := begins_of_isNumberText numeric rest
  obtain ⟨takes, drops⟩ := span_of_head fun c first => isNumberChar_of_stop (stop c first)
  rw [chars, List.cons_append, kindsOf_cons (lexeme_of_beginsNumber begins), number,
    List.takeWhile_append_of_pos more, List.dropWhile_append_of_pos more, takes, drops,
    List.append_nil, ← chars, String.ofList_toList]
  rfl

-----------------------------------------------------------------------------------------
-- Strings
-----------------------------------------------------------------------------------------

/-- A character is escaped by a backslash, or stands for itself. -/
theorem escape_cases (c : Char)
    : (∃ d, escape c = ['\\', d] ∧ (c ≠ '\r' → escaped? d = some c))
      ∨ (escape c = [c] ∧ c ≠ '\\' ∧ c ≠ '"') := by
  unfold escape
  split
  all_goals first
    | exact .inl ⟨_, rfl, fun _ => rfl⟩
    | exact .inl ⟨_, rfl, fun other => absurd rfl other⟩
    | exact .inr ⟨rfl, by assumption, by assumption⟩

theorem spanString_escaped (cs rest : List Char)
    : spanString '"' (cs.flatMap escape ++ '"' :: rest) = (cs.flatMap escape, some rest) := by
  induction cs with
  | nil => rfl
  | cons c cs ih =>
      rw [List.flatMap_cons, List.append_assoc]
      rcases escape_cases c with ⟨d, escaped, -⟩ | ⟨itself, slash, mark⟩
      · rw [escaped, List.cons_append, List.singleton_append, spanString, ih]
        rfl
      · rw [itself, List.singleton_append, spanString, if_neg (by simpa using mark), ih]
        · rfl
        · rintro _ _ rfl
          exact absurd rfl slash

/-- What an escaped character reads as. The escape of a carriage return is none that the scanner
knows, and so its two characters stay.
-/
def reread (c : Char) : List Char :=
  if c = '\r' then ['\\', 'r'] else [c]

theorem unescape_escaped (cs : List Char) : unescape (cs.flatMap escape) = cs.flatMap reread := by
  induction cs with
  | nil => rfl
  | cons c cs ih =>
      rw [List.flatMap_cons, List.flatMap_cons, ← ih]
      by_cases returns : c = '\r'
      · subst returns
        change unescape ('\\' :: 'r' :: cs.flatMap escape) = _
        rw [unescape]
        rfl
      · rw [reread, if_neg returns, List.singleton_append]
        rcases escape_cases c with ⟨d, escaped, stands⟩ | ⟨itself, slash, -⟩
        · rw [escaped, List.cons_append, List.singleton_append, unescape, stands returns]
        · rw [itself, List.singleton_append, unescape]
          · rintro rfl
            exact absurd rfl slash
          · rintro _ _ rfl
            exact absurd rfl slash

/-- A text reads as itself unless there is a carriage return in it. -/
theorem flatMap_reread_eq_iff {cs : List Char} : cs.flatMap reread = cs ↔ '\r' ∉ cs := by
  constructor
  · intro same
    rw [← same, List.mem_flatMap]
    rintro ⟨c, -, mem⟩
    unfold reread at mem
    split at mem
    · simp at mem
    · rename_i other
      exact other (List.mem_singleton.1 mem).symm
  · intro absent
    induction cs with
    | nil => rfl
    | cons c cs ih =>
        rw [List.mem_cons, not_or] at absent
        obtain ⟨other, absent⟩ := absent
        rw [List.flatMap_cons, ih absent, reread, if_neg (Ne.symm other)]
        rfl

theorem scans_quote {value : String} (returns : '\r' ∉ value.toList)
    : Scans (quote value) [.string value] := by
  intro rest _
  have found : lexeme? '"' (value.toList.flatMap escape ++ '"' :: rest)
      = some (string '"' (value.toList.flatMap escape ++ '"' :: rest)) := rfl
  rw [quote, String.toList_ofList, List.cons_append, List.append_assoc, List.singleton_append,
    kindsOf_cons found, string, spanString_escaped]
  dsimp only
  rw [unescape_escaped, flatMap_reread_eq_iff.2 returns, String.ofList_toList]
  rfl

end Typings.Hint
