import Typings.Hint.Scan

/-! The tokens of a source cut it up: each covers the text that it is written with, one after the
other, and no token begins with a character between them.
-/

namespace Typings.Token

open Text

-----------------------------------------------------------------------------------------
-- How tokens are written
-----------------------------------------------------------------------------------------

/-- The text that a token is written with. A string has many such texts, and the end of a source
none.
-/
def Kind.spelling? : Token.Kind → Option String
  | .name text | .number text => some text
  | .string _ | .finish => none
  | .function => some "function"
  | .null => some "null"
  | .undefined => some "undefined"
  | .true => some "true"
  | .false => some "false"
  | .leftParen => some "("
  | .rightParen => some ")"
  | .leftBrace => some (String.singleton '{')
  | .rightBrace => some (String.singleton '}')
  | .leftBracket => some "["
  | .rightBracket => some "]"
  | .leftAngle => some "<"
  | .rightAngle => some ">"
  | .comma => some ","
  | .colon => some ":"
  | .dot => some "."
  | .ellipsis => some "..."
  | .question => some "?"
  | .bang => some "!"
  | .pipe => some "|"
  | .equals => some "="
  | .star => some "*"

/-- A token can be written with the characters `text`. A string stands behind a quotation mark, and
before the same mark unless that is missing.
-/
inductive Kind.Spells : Token.Kind → List Char → Prop
  | itself {kind text} (spelling : kind.spelling? = some (String.ofList text)) : Spells kind text
  | quoted {mark : Char} {body last} (isMark : mark = '"' ∨ mark = '\'')
    (isLast : last = [mark] ∨ last = [])
    : Spells (.string (String.ofList (Lexeme.unescape body))) (mark :: (body ++ last))

variable {c : Char} {cs text : List Char} {kind : Token.Kind}

theorem Kind.Spells.ne_finish (spells : kind.Spells text) : kind ≠ .finish := by
  rintro rfl
  cases spells with
  | itself spelling => cases spelling

theorem spelling?_ofName (text : String) : (Kind.ofName text).spelling? = some text := by
  unfold Kind.ofName
  split <;> rfl

theorem spelling?_ofPunctuation? (mark : Kind.ofPunctuation? c = some kind)
    : kind.spelling? = some (String.ofList [c]) := by
  unfold Kind.ofPunctuation? at mark
  split at mark
  all_goals
    cases mark
    try rfl

theorem spells_point (cs : List Char)
    : (Lexeme.point cs).kind.Spells (Lexeme.point cs).taken := by
  unfold Lexeme.point
  split <;> exact .itself rfl

theorem spells_string (isMark : c = '"' ∨ c = '\'') (cs : List Char)
    : (Lexeme.string c cs).kind.Spells (Lexeme.string c cs).taken := by
  unfold Lexeme.string
  rcases Lexeme.spanString c cs with ⟨body, rest⟩
  cases rest with
  | some rest => exact .quoted isMark (.inl rfl)
  | none =>
      have unclosed
          : Kind.Spells (.string (String.ofList (Lexeme.unescape body))) (c :: (body ++ [])) :=
        .quoted isMark (.inr rfl)
      simpa using unclosed

/-- What is cut off as a token is how that token can be written. -/
theorem spells_of_lexeme? {l : Lexeme} (found : lexeme? c cs = some l) : l.kind.Spells l.taken := by
  unfold lexeme? at found
  split at found
  · rename_i kind mark
    cases found
    exact .itself (spelling?_ofPunctuation? mark)
  · split at found
    · cases found
      exact spells_point cs
    · split at found
      · rename_i isMark
        cases found
        exact spells_string (by simpa using isMark) cs
      · split at found
        · cases found
          exact .itself rfl
        · split at found
          · cases found
            exact .itself (spelling?_ofName _)
          · cases found

-----------------------------------------------------------------------------------------
-- Where tokens begin
-----------------------------------------------------------------------------------------

/-- The characters that begin a token whatever follows them, apart from those of names and numbers.
-/
def marks : List Char :=
  ['(', ')', '{', '}', '[', ']', '<', '>', ',', ':', '?', '!', '|', '=', '*', '.', '"', '\'']

/-- Whether a token begins with `c` when `cs` follows. -/
def begins (c : Char) (cs : List Char) : Bool :=
  marks.contains c || Lexeme.beginsNumber c cs || isNameStart c

/-- Where no token is cut off none begins. -/
theorem begins_eq_false (none : lexeme? c cs = none) : begins c cs = false := by
  have known : ∀ mark ∈ marks,
      (Kind.ofPunctuation? mark).isSome = true ∨ mark = '.' ∨ mark = '"' ∨ mark = '\'' := by
    simp [marks, Kind.ofPunctuation?]
  unfold lexeme? at none
  split at none
  · cases none
  · rename_i noPunctuation
    split at none
    · cases none
    · rename_i noPoint
      split at none
      · cases none
      · rename_i noQuote
        split at none
        · cases none
        · rename_i noNumber
          split at none
          · cases none
          · rename_i noName
            have noMark : c ∉ marks := by
              intro listed
              rcases known c listed with punctuation | rfl | rfl | rfl
              · simp [noPunctuation] at punctuation
              · exact noPoint rfl
              · exact noQuote rfl
              · exact noQuote rfl
            simp [begins, noMark, noNumber, noName]

-----------------------------------------------------------------------------------------
-- Tokens one after the other
-----------------------------------------------------------------------------------------

/-- The tokens cut up the text `cs` at `offset`: each stands where it is written, and no token
begins with a character that is skipped.
-/
inductive Tiles : Nat → List Char → List Token → Prop
  | finish {offset} : Tiles offset [] []
  | skip {offset c cs tokens} (idle : begins c cs = false)
    (later : Tiles (offset + c.utf8Size) cs tokens)
    : Tiles offset (c :: cs) tokens
  | token {offset cs tokens text} {kind : Kind} (nonempty : text ≠ []) (spells : kind.Spells text)
    (later : Tiles (offset + byteSize text) cs tokens)
    : Tiles offset (text ++ cs) (⟨kind, offset, offset + byteSize text⟩ :: tokens)

variable {offset : Nat} {tokens : List Token} {token : Token}

/-- Scanning cuts a text up, by induction on the tokens that are cut off. -/
theorem tiles_scanFrom (offset : Nat) (cs : List Char)
    : Tiles offset cs (scanFrom offset cs).1 := by
  fun_induction scanFrom offset cs with
  | case1 => exact .finish
  | case2 offset c cs none ih => exact .skip (begins_eq_false none) ih
  | case3 offset c cs l found tokens stop same ih =>
      rw [same] at ih
      rw [← Lexeme.taken_append_rest found]
      exact .token (Lexeme.taken_ne_nil found) (spells_of_lexeme? found) ih

theorem byteSize_eq (cs : List Char) : byteSize cs = (String.ofList cs).utf8ByteSize := by
  induction cs with
  | nil => rfl
  | cons c cs ih =>
      rw [byteSize, ih, String.ofList_cons, String.utf8ByteSize_append,
        String.utf8ByteSize_singleton]

theorem byteSize_append (left right : List Char)
    : byteSize (left ++ right) = byteSize left + byteSize right := by
  rw [byteSize_eq, String.ofList_append, String.utf8ByteSize_append, byteSize_eq, byteSize_eq]

/-- Scanning ends behind the last byte of a text. -/
theorem stop_scanFrom (offset : Nat) (cs : List Char)
    : (scanFrom offset cs).2 = offset + byteSize cs := by
  fun_induction scanFrom offset cs with
  | case1 => rfl
  | case2 offset c cs _ ih => rw [ih, byteSize, Nat.add_assoc]
  | case3 offset c cs l found tokens stop same ih =>
      rw [same] at ih
      rw [← Lexeme.taken_append_rest found, byteSize_append, ← Nat.add_assoc]
      exact ih

/-- The end of a source stands at the length of that in bytes. -/
theorem stop_source (source : String)
    : (scanFrom 0 source.toList).2 = source.utf8ByteSize := by
  rw [stop_scanFrom, byteSize_eq, String.ofList_toList, Nat.zero_add]

theorem scan_eq (source : String)
    : scan source
      = read source ++ [⟨.finish, source.utf8ByteSize, source.utf8ByteSize⟩] := by
  rw [← stop_source]
  rfl

theorem Tiles.offset_le (tiles : Tiles offset cs tokens) (listed : token ∈ tokens)
    : offset ≤ token.start := by
  induction tiles with
  | finish => cases listed
  | skip _ _ ih => exact Nat.le_of_add_right_le (ih listed)
  | token _ _ _ ih =>
      rcases List.mem_cons.mp listed with rfl | later
      · exact Nat.le_refl _
      · exact Nat.le_of_add_right_le (ih later)

/-- Every token ends before the next one starts. -/
theorem Tiles.pairwise (tiles : Tiles offset cs tokens)
    : tokens.Pairwise fun earlier later => earlier.stop ≤ later.start := by
  induction tiles with
  | finish => exact .nil
  | skip _ _ ih => exact ih
  | token _ _ later ih => exact .cons (fun _ listed => later.offset_le listed) ih

theorem byteSize_pos (nonempty : cs ≠ []) : 0 < byteSize cs := by
  cases cs with
  | nil => exact absurd rfl nonempty
  | cons c cs => exact Nat.add_pos_left c.utf8Size_pos _

/-- Every token starts before the next one. -/
theorem Tiles.starts (tiles : Tiles offset cs tokens)
    : tokens.Pairwise fun earlier later => earlier.start < later.start := by
  induction tiles with
  | finish => exact .nil
  | skip _ _ ih => exact ih
  | token nonempty _ later ih =>
      refine .cons (fun _ listed => ?_) ih
      exact Nat.lt_of_lt_of_le (Nat.lt_add_of_pos_right (byteSize_pos nonempty))
        (later.offset_le listed)

/-- Every token covers what it is written with. -/
theorem Tiles.covers (tiles : Tiles offset cs tokens) (listed : token ∈ tokens)
    : ∃ before text after,
        cs = before ++ text ++ after
        ∧ text ≠ []
        ∧ token.kind.Spells text
        ∧ token.start = offset + byteSize before
        ∧ token.stop = offset + byteSize (before ++ text) := by
  induction tiles with
  | finish => cases listed
  | @skip offset c cs tokens _ _ ih =>
      obtain ⟨before, text, after, rfl, nonempty, spells, start, stop⟩ := ih listed
      refine ⟨c :: before, text, after, rfl, nonempty, spells, ?_, ?_⟩
      · rw [start, byteSize, Nat.add_assoc]
      · rw [stop, List.cons_append, byteSize, Nat.add_assoc]
  | @token offset cs tokens text kind nonempty spells _ ih =>
      rcases List.mem_cons.mp listed with rfl | later
      · exact ⟨[], text, cs, rfl, nonempty, spells, rfl, rfl⟩
      · obtain ⟨before, other, after, rfl, otherNonempty, otherSpells, start, stop⟩ := ih later
        refine ⟨text ++ before, other, after, by simp, otherNonempty, otherSpells, ?_, ?_⟩
        · rw [start, byteSize_append, Nat.add_assoc]
        · rw [stop, List.append_assoc, byteSize_append text, Nat.add_assoc]

/-- A token begins with no character that all tokens leave out, by induction on the tokens. -/
theorem Tiles.idle (tiles : Tiles offset cs tokens) {before after : List Char}
    (split : cs = before ++ c :: after)
    (outside
      : ∀ token ∈ tokens,
          ¬ (token.start ≤ offset + byteSize before ∧ offset + byteSize before < token.stop))
    : begins c after = false := by
  induction tiles generalizing before with
  | finish => simp at split
  | @skip offset first cs tokens idle _ ih =>
      cases before with
      | nil =>
          obtain ⟨rfl, rfl⟩ := List.cons.inj split
          exact idle
      | cons other before =>
          obtain ⟨rfl, rest⟩ := List.cons.inj split
          refine ih rest fun token listed => ?_
          rw [Nat.add_assoc]
          exact outside token listed
  | @token offset cs tokens text kind _ _ _ ih =>
      -- What stands behind the text of the token is left out by the later ones.
      have behind {later : List Char} (same : before = text ++ later)
          (rest : cs = later ++ c :: after)
          : begins c after = false := by
        subst same
        refine ih rest fun token listed => ?_
        rw [Nat.add_assoc, ← byteSize_append]
        exact outside token (List.mem_cons_of_mem _ listed)
      rcases List.append_eq_append_iff.mp split with ⟨later, same, rest⟩ | ⟨inner, same, rest⟩
      · exact behind same rest
      · cases inner with
        | nil =>
            have whole : before = text ++ [] := by simp [same]
            exact behind whole rest.symm
        | cons first inner =>
            have positive := first.utf8Size_pos
            refine absurd ⟨Nat.le_add_right _ _, ?_⟩ (outside _ List.mem_cons_self)
            simp only [same, byteSize_append, byteSize]
            omega

-----------------------------------------------------------------------------------------
-- The tokens of a source
-----------------------------------------------------------------------------------------

/-- No two tokens of a source start at one place, its end included. -/
theorem starts_scan (source : String)
    : (scan source).Pairwise fun earlier later => earlier.start < later.start := by
  have tiles : Tiles 0 source.toList (read source) := tiles_scanFrom 0 source.toList
  rw [scan_eq]
  refine List.pairwise_append.2 ⟨tiles.starts, List.pairwise_singleton .., ?_⟩
  intro token listed last isLast
  cases List.mem_singleton.1 isLast
  obtain ⟨before, text, after, split, nonempty, -, start, -⟩ := tiles.covers listed
  have size := byteSize_eq source.toList
  rw [String.ofList_toList, split, byteSize_append, byteSize_append] at size
  have positive := byteSize_pos nonempty
  dsimp only
  omega

/-- The token stands in the source as `text`: its offsets are those of the two ends of the text,
which lie between characters.
-/
def Covers (source : String) (token : Token) (text : String) : Prop :=
  ∃ before after,
    source = before ++ text ++ after
    ∧ token.start = before.utf8ByteSize
    ∧ token.stop = (before ++ text).utf8ByteSize

/-- The tokens of a source end with its end, which is the only one. Each of the others covers a text
that it can be written with, and the next one starts where it ends or later. No token begins with a
character that none of them covers, be it a blank or not.
-/
theorem scan_partitions (source : String)
    : ∃ tokens,
        scan source = tokens ++ [⟨.finish, source.utf8ByteSize, source.utf8ByteSize⟩]
        ∧ (∀ token ∈ tokens,
            token.kind ≠ .finish
            ∧ ∃ text, text ≠ "" ∧ token.kind.Spells text.toList ∧ token.Covers source text)
        ∧ tokens.Pairwise (fun earlier later => earlier.stop ≤ later.start)
        ∧ ∀ before c after,
            source = before ++ String.singleton c ++ after
            → (∀ token ∈ tokens,
                ¬ (token.start ≤ before.utf8ByteSize ∧ before.utf8ByteSize < token.stop))
            → begins c after.toList = false := by
  have tiles : Tiles 0 source.toList (read source) := tiles_scanFrom 0 source.toList
  refine ⟨read source, scan_eq source, ?_, tiles.pairwise, ?_⟩
  · intro token listed
    obtain ⟨before, text, after, split, nonempty, spells, start, stop⟩ := tiles.covers listed
    refine ⟨spells.ne_finish, String.ofList text, by simpa using nonempty, by simpa using spells,
      String.ofList before, String.ofList after, ?_, ?_, ?_⟩
    · rw [← String.ofList_append, ← String.ofList_append, ← split, String.ofList_toList]
    · rw [start, byteSize_eq, Nat.zero_add]
    · rw [stop, byteSize_eq, String.ofList_append, Nat.zero_add]
  · intro before c after split outside
    have chars : source.toList = before.toList ++ c :: after.toList := by simp [split]
    refine tiles.idle chars ?_
    simpa [byteSize_eq] using outside

/-- Witness: a string that is never closed, behind a name and a character that begins no token. -/
theorem scan_partitions_unclosed
    : let source := "a; 'é"
      scan source = [⟨.name "a", 0, 1⟩, ⟨.string "é", 3, 6⟩, ⟨.finish, 6, 6⟩]
      ∧ (∃ text, text ≠ "" ∧ (Kind.string "é").Spells text.toList
          ∧ Covers source ⟨.string "é", 3, 6⟩ text)
      ∧ begins ';' " 'é".toList = false := by
  intro source
  have scanned : scan source = [⟨.name "a", 0, 1⟩, ⟨.string "é", 3, 6⟩] ++ [⟨.finish, 6, 6⟩] := by
    decide +kernel
  obtain ⟨tokens, whole, covered, -, gaps⟩ := scan_partitions source
  obtain rfl := List.append_cancel_right (whole.symm.trans scanned)
  refine ⟨scanned, (covered ⟨.string "é", 3, 6⟩ (by simp)).2, gaps "a" ';' " 'é" (by decide) ?_⟩
  have size : "a".utf8ByteSize = 1 := by decide
  simp [size]

end Typings.Token
