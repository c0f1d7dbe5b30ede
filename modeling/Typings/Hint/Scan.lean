import Typings.Hint.Token
import Typings.Text.Blank
import Typings.Text.Identifier

/-!
Scanning the text of a hint into tokens. `lexeme?` cuts one token off the front of a text,
without losing a character (`Lexeme.taken_append_rest`); a character that begins no token, blank
or not, is skipped.
-/

namespace Typings

open Text

/-- A token cut off the front of a text, with its characters and what follows them. -/
structure Lexeme where
  kind : Token.Kind
  taken : List Char
  rest : List Char

namespace Lexeme

/-- A number goes on with ASCII letters, digits and points. -/
def isNumberChar (c : Char) : Bool :=
  c.isAlphanum || c == '.'

/-- A digit begins a number, and so does a minus sign before a digit. -/
def beginsNumber (c : Char) (cs : List Char) : Bool :=
  c.isDigit || (c == '-' && cs.head?.any Char.isDigit)

/-- The number whose first character is `c`. -/
def number (c : Char) (cs : List Char) : Lexeme :=
  let taken := c :: cs.takeWhile isNumberChar
  ⟨.number (String.ofList taken), taken, cs.dropWhile isNumberChar⟩

/-- Whether a name goes on with `c`, when `cs` follows. The separators of a path need a name
behind them; slashes, hyphens and at signs belong to the path of a module. -/
def pathGoesOn (inModule : Bool) (c : Char) (cs : List Char) : Bool :=
  isNameChar c || ((c == '.' || c == '~' || c == '#') && cs.head?.any isNameStart)
    || (inModule && (c == '/' || c == '-' || c == '@'))

/-- Cuts a text where the path of names at its front ends. The path of a module ends at its first
member. -/
def spanPath (inModule : Bool) : List Char → List Char × List Char
  | [] => ([], [])
  | c :: cs =>
    if pathGoesOn inModule c cs then
      let (path, rest) := spanPath (inModule && c != '~' && c != '#') cs
      (c :: path, rest)
    else ([], c :: cs)

/-- The words that a colon may join to the path behind it. -/
def pathKinds : List (List Char) :=
  ["module".toList, "external".toList, "event".toList]

/-- Cuts a text where the namepath at its front ends. -/
def spanNamepath (cs : List Char) : List Char × List Char :=
  let word := cs.takeWhile isNameChar
  match cs.dropWhile isNameChar with
  | ':' :: c :: rest =>
    if pathKinds.contains word && !isBlank c then
      let (path, rest) := spanPath (word == "module".toList) (c :: rest)
      (word ++ ':' :: path, rest)
    else (word, ':' :: c :: rest)
  | rest =>
    let (path, rest) := spanPath false rest
    (word ++ path, rest)

/-- The name or keyword at the front of `cs`. -/
def namepath (cs : List Char) : Lexeme :=
  let (taken, rest) := spanNamepath cs
  ⟨.ofName (String.ofList taken), taken, rest⟩

/-- Cuts a text at the first `mark` that no backslash stands before: what stands in front of it,
and what follows it, if there is such a mark. -/
def spanString (mark : Char) : List Char → List Char × Option (List Char)
  | [] => ([], none)
  | '\\' :: c :: cs =>
    let (body, rest) := spanString mark cs
    ('\\' :: c :: body, rest)
  | c :: cs =>
    if c == mark then ([], some cs)
    else
      let (body, rest) := spanString mark cs
      (c :: body, rest)

/-- The character that an escape stands for. -/
def escaped? : Char → Option Char
  | 'n' => some '\n'
  | 't' => some '\t'
  | '\\' => some '\\'
  | '"' => some '"'
  | '\'' => some '\''
  | _ => none

/-- The value of the body of a string: escapes are decoded, an unknown one stands for itself, and
a backslash at the very end stands for nothing. -/
def unescape : List Char → List Char
  | [] => []
  | ['\\'] => []
  | '\\' :: c :: cs =>
    match escaped? c with
    | some d => d :: unescape cs
    | none => '\\' :: c :: unescape cs
  | c :: cs => c :: unescape cs

/-- The string that `mark` opens. One that is never closed reaches to the end of the text. -/
def string (mark : Char) (cs : List Char) : Lexeme :=
  let (body, rest) := spanString mark cs
  let kind := .string (String.ofList (unescape body))
  match rest with
  | some rest => ⟨kind, mark :: (body ++ [mark]), rest⟩
  | none => ⟨kind, mark :: body, []⟩

/-- The token that a point begins. -/
def point : List Char → Lexeme
  | '.' :: '.' :: rest => ⟨.ellipsis, ['.', '.', '.'], rest⟩
  | rest => ⟨.dot, ['.'], rest⟩

end Lexeme

/-- The token at the front of `c :: cs`, if `c` begins one. -/
def lexeme? (c : Char) (cs : List Char) : Option Lexeme :=
  match Token.Kind.ofPunctuation? c with
  | some kind => some ⟨kind, [c], cs⟩
  | none =>
    if c == '.' then some (.point cs)
    else if c == '"' || c == '\'' then some (.string c cs)
    else if Lexeme.beginsNumber c cs then some (.number c cs)
    else if isNameStart c then some (.namepath (c :: cs))
    else none

namespace Lexeme

theorem spanPath_append (inModule : Bool) (cs : List Char)
    : (spanPath inModule cs).1 ++ (spanPath inModule cs).2 = cs := by
  induction cs generalizing inModule with
  | nil => rfl
  | cons c cs ih =>
    unfold spanPath
    split
    · simp [ih]
    · rfl

theorem spanNamepath_append (cs : List Char)
    : (spanNamepath cs).1 ++ (spanNamepath cs).2 = cs := by
  have whole : cs.takeWhile isNameChar ++ cs.dropWhile isNameChar = cs :=
    List.takeWhile_append_dropWhile
  unfold spanNamepath
  dsimp only
  split
  · rename_i c rest h
    rw [h] at whole
    split
    · simp [spanPath_append, whole]
    · exact whole
  · simp [spanPath_append, whole]

theorem spanString_append (mark : Char) (cs : List Char)
    : (spanString mark cs).1 ++ ((spanString mark cs).2.map (mark :: ·)).getD [] = cs := by
  fun_induction spanString mark cs with
  | case1 => rfl
  | case2 c cs body rest h ih => simp_all
  | case3 c cs _ h => simp_all
  | case4 c cs _ h body rest h' ih => simp_all

/-- A name is at least one character long. -/
theorem spanNamepath_ne_nil {c : Char} (cs : List Char) (h : isNameStart c = true)
    : (spanNamepath (c :: cs)).1 ≠ [] := by
  have first : isNameChar c = true := isNameChar_of_isNameStart h
  unfold spanNamepath
  simp only [List.takeWhile_cons, first, if_true]
  split
  · split <;> simp
  · simp

/-- Cutting off a token loses no character. -/
theorem taken_append_rest {c : Char} {cs : List Char} {l : Lexeme} (h : lexeme? c cs = some l)
    : l.taken ++ l.rest = c :: cs := by
  unfold lexeme? at h
  split at h
  · cases h; rfl
  · split at h
    · rename_i hc
      cases h
      simp only [beq_iff_eq] at hc
      subst hc
      unfold point
      split <;> rfl
    · split at h
      · cases h
        have whole := spanString_append c cs
        revert whole
        unfold string
        rcases spanString c cs with ⟨body, _ | rest⟩ <;> simp
      · split at h
        · cases h
          simp [number, List.takeWhile_append_dropWhile]
        · split at h
          · cases h
            exact spanNamepath_append _
          · simp at h

/-- A token is at least one character long. -/
theorem taken_ne_nil {c : Char} {cs : List Char} {l : Lexeme} (h : lexeme? c cs = some l)
    : l.taken ≠ [] := by
  unfold lexeme? at h
  split at h
  · cases h; simp
  · split at h
    · cases h
      unfold point
      split <;> simp
    · split at h
      · cases h
        unfold string
        rcases spanString c cs with ⟨body, _ | rest⟩ <;> simp
      · split at h
        · cases h; simp [number]
        · split at h
          · rename_i hc
            cases h
            exact spanNamepath_ne_nil cs hc
          · simp at h

theorem length_rest_lt {c : Char} {cs : List Char} {l : Lexeme} (h : lexeme? c cs = some l)
    : l.rest.length < (c :: cs).length := by
  have whole := congrArg List.length (taken_append_rest h)
  have some := List.length_pos_iff.2 (taken_ne_nil h)
  simp only [List.length_append] at whole
  omega

end Lexeme

namespace Token

/-- The number of bytes of a text in UTF-8. -/
def byteSize : List Char → Nat
  | [] => 0
  | c :: cs => c.utf8Size + byteSize cs

/-- The tokens of a text that begins `offset` bytes into its source, and the offset at which it
ends. -/
def scanFrom (offset : Nat) : List Char → List Token × Nat
  | [] => ([], offset)
  | c :: cs =>
    match _h : lexeme? c cs with
    | none => scanFrom (offset + c.utf8Size) cs
    | some l =>
      let (tokens, stop) := scanFrom (offset + byteSize l.taken) l.rest
      (⟨l.kind, offset, offset + byteSize l.taken⟩ :: tokens, stop)
  termination_by cs => cs.length
  decreasing_by
    · simp
    · exact Lexeme.length_rest_lt ‹_›

/-- The tokens of `source`, without its end. -/
def read (source : String) : List Token :=
  (scanFrom 0 source.toList).1

/-- The tokens of `source`, with its end as the last. -/
def scan (source : String) : List Token :=
  let (tokens, stop) := scanFrom 0 source.toList
  tokens ++ [⟨.finish, stop, stop⟩]

end Token

end Typings
