import Typings.Decl.Layout
import Typings.Doclet.Comment
import Typings.Proofs.Text.Closing

/-!
The texts of a doclet stand in its comment as they are: the lines of the comment hold what ends a
comment exactly if one of the texts does, and nothing in the texts is escaped. Descriptions and
examples are cut into lines, names and default values are not.
-/

namespace Typings

namespace Doclet

open Text

-----------------------------------------------------------------------------------------
-- The texts in a comment
-----------------------------------------------------------------------------------------

/-- The texts that the lines for an entry show as they are: its name and, if it may be left out, its
default value. Without a description there are no such lines.
-/
def Entry.labelTexts (entry : Entry) : List String :=
  if (spoken entry.description).isNone then []
  else entry.name :: if entry.optional then (entry.defaultValue.map defaultText).toList else []

/-- The entries that a comment may describe. -/
def commentEntries (doclet : Doclet) : List Entry :=
  (if doclet.isEnum then [] else doclet.properties) ++ doclet.params

/-- The texts that a comment shows as they are. -/
def labelTexts (doclet : Doclet) : List String :=
  doclet.commentEntries.flatMap Entry.labelTexts

/-- The texts that a comment shows line by line. -/
def bodyTexts (doclet : Doclet) : List String :=
  ((spoken doclet.description).or (spoken doclet.classDescription)).toList
    ++ doclet.examples
    ++ doclet.commentEntries.flatMap (fun entry => (spoken entry.description).toList)
    ++ doclet.returns.flatMap fun outcome => (spoken outcome.description).toList

theorem spoken_spoken (description : Option String)
    : spoken (spoken description) = spoken description := by
  simp [spoken, Option.filter_filter]

theorem spoken_or_spoken (first second : Option String)
    : spoken ((spoken first).or (spoken second)) = (spoken first).or (spoken second) := by
  cases said : spoken first with
  | none => rw [Option.none_or, spoken_spoken]
  | some text => rw [Option.some_or, ← said, spoken_spoken]

/-- One of some texts has a property. -/
def Somewhere (P : List Char → Prop) (texts : List String) : Prop :=
  ∃ text ∈ texts, P text.toList

instance (P : List Char → Prop) [DecidablePred P] (texts : List String)
    : Decidable (Somewhere P texts) :=
  inferInstanceAs (Decidable (∃ text ∈ texts, P text.toList))

section somewhere

variable {P Q : List Char → Prop} {α : Type}

@[simp]
theorem somewhere_nil : ¬ Somewhere P [] := by
  simp [Somewhere]

@[simp]
theorem somewhere_cons (text : String) (texts : List String)
    : Somewhere P (text :: texts) ↔ P text.toList ∨ Somewhere P texts := by
  simp [Somewhere]

@[simp]
theorem somewhere_append (texts others : List String)
    : Somewhere P (texts ++ others) ↔ Somewhere P texts ∨ Somewhere P others := by
  simp [Somewhere, or_and_right, exists_or]

theorem somewhere_flatMap (lines : α → List String) (items : List α)
    : Somewhere P (items.flatMap lines) ↔ ∃ item ∈ items, Somewhere P (lines item) := by
  simp only [Somewhere, List.mem_flatMap]
  constructor
  · rintro ⟨text, ⟨item, mem, listed⟩, holds⟩
    exact ⟨item, mem, text, listed, holds⟩
  · rintro ⟨item, mem, text, listed, holds⟩
    exact ⟨text, ⟨item, mem, listed⟩, holds⟩

end somewhere

-----------------------------------------------------------------------------------------
-- From texts to lines
-----------------------------------------------------------------------------------------

/-- Neither a part of the end of a comment nor a line feed. -/
def harmless (c : Char) : Bool :=
  c != '*' && c != '/' && c != '\n'

/-- A property of texts that passes from the texts in a comment to its lines: it does not reach over
what a comment puts between texts, and what it says of the lines of a text is said of the whole text
by `Q`.
-/
structure Passes (P Q : List Char → Prop) : Prop where
  nil : ¬ P []
  cut : ∀ {c}, harmless c = true → ∀ as bs, P (as ++ c :: bs) ↔ P as ∨ P bs
  lines : ∀ cs, (∃ line ∈ lines cs, P (trimEnd line)) ↔ Q cs
  trim : ∀ cs, Q (trim cs) ↔ Q cs

theorem passes_closes : Passes Closes Closes where
  nil := not_closes_nil
  cut other as bs := closes_append_cons (by simp_all [harmless]) as bs
  lines cs := by simp only [closes_trimEnd, exists_closes_lines]
  trim := closes_trim

theorem passes_lineFeed : Passes ('\n' ∈ ·) fun _ => False where
  nil := List.not_mem_nil
  cut := by
    intro c other as bs
    have apart : '\n' ≠ c := by
      rintro rfl
      cases other
    simp [apart]
  lines cs := by
    rw [iff_false]
    rintro ⟨line, mem, listed⟩
    exact not_mem_of_mem_trimEnd mem listed
  trim _ := Iff.rfl

namespace Passes

variable {P Q : List Char → Prop} (passes : Passes P Q)
include passes

theorem somewhere_trimmedLines (cs : List Char) : Somewhere P (trimmedLines cs) ↔ Q cs := by
  rw [← passes.lines]
  simp [Somewhere, trimmedLines]

/-- Words that a comment puts before or between texts make no difference. -/
theorem word_append (word : List Char) (each : word.all harmless = true) (bs : List Char)
    : P (word ++ bs) ↔ P bs := by
  induction word with
  | nil => rw [List.nil_append]
  | cons c word ih =>
      obtain ⟨first, rest⟩ := Bool.and_eq_true_iff.mp each
      simpa [passes.nil, ih rest] using passes.cut first [] (word ++ bs)

theorem not_word (word : List Char) (each : word.all harmless = true) : ¬ P word := by
  simpa [passes.nil] using passes.word_append word each []

theorem between (c : Char) (word : List Char) (each : (c :: word).all harmless = true)
    (as bs : List Char)
    : P (as ++ (c :: word ++ bs)) ↔ P as ∨ P bs := by
  obtain ⟨first, rest⟩ := Bool.and_eq_true_iff.mp each
  rw [List.cons_append, passes.cut first, passes.word_append word rest]

theorem label {entry : Entry} (described : (spoken entry.description).isSome = true)
    : P entry.label.toList ↔ Somewhere P entry.labelTexts := by
  have bracketed (text : List Char) : P ('[' :: (text ++ [']'])) ↔ P text := by
    have opened := passes.word_append ['['] (by decide) (text ++ [']'])
    have closed := passes.between ']' [] (by decide) text []
    simpa [passes.nil] using opened.trans closed
  have defaulted (name value : List Char)
      : P (name ++ (' ' :: '=' :: ' ' :: value)) ↔ P name ∨ P value :=
    passes.between ' ' ['=', ' '] (by decide) name value
  have shown : (spoken entry.description).isNone = false := by
    simpa using described
  unfold Entry.label Entry.labelTexts
  rw [shown]
  cases entry.optional with
  | false => simp
  | true =>
      cases entry.defaultValue with
      | none => simpa using bracketed entry.name.toList
      | some value =>
          have both := bracketed
            (entry.name.toList ++ (' ' :: '=' :: ' ' :: (defaultText value).toList))
          rw [defaulted] at both
          simpa using both

theorem somewhere_paragraph {tag : String}
    (apart : ∀ line, P (tag.toList ++ line) ↔ P tag.toList ∨ P line) (text : String)
    : Somewhere P (paragraph tag text) ↔ P tag.toList ∨ Q text.toList := by
  rw [← passes.trim, ← passes.somewhere_trimmedLines, paragraph]
  cases trimmedLines (Text.trim text.toList) with
  | nil => simp
  | cons line lines => simp [apart, or_assoc]

theorem somewhere_taggedLines (tag : String) (word : tag.toList.all harmless = true)
    (description : Option String)
    : Somewhere P (taggedLines tag description) ↔ Somewhere Q (spoken description).toList := by
  have silent := passes.not_word tag.toList word
  rw [taggedLines]
  cases spoken description with
  | none => simp
  | some text =>
      dsimp only
      rw [passes.somewhere_paragraph fun line => by simp [passes.word_append _ word, silent]]
      simp [silent]

theorem somewhere_entryLines (tag : String) (word : tag.toList.all harmless = true) (entry : Entry)
    : Somewhere P (entry.lines tag)
      ↔ Somewhere Q (spoken entry.description).toList ∨ Somewhere P entry.labelTexts := by
  have opened (rest : List Char) : P (tag.toList ++ (' ' :: rest)) ↔ P rest := by
    have blank := passes.word_append [' '] (by decide) rest
    exact (passes.word_append _ word _).trans blank
  have apart (line : List Char)
      : P ((tag ++ " " ++ entry.label ++ " - ").toList ++ line)
        ↔ P entry.label.toList ∨ P line := by
    have spaced := passes.between ' ' ['-', ' '] (by decide) entry.label.toList line
    simpa using (opened _).trans spaced
  have alone : P (tag ++ " " ++ entry.label ++ " - ").toList ↔ P entry.label.toList := by
    simpa [passes.nil] using apart []
  rw [Entry.lines, taggedLines]
  cases described : spoken entry.description with
  | none => simp [Entry.labelTexts, described]
  | some text =>
      dsimp only
      rw [passes.somewhere_paragraph (fun line => by rw [apart, alone]), alone,
        passes.label (by rw [described]; rfl), or_comm]
      simp

theorem somewhere_exampleLines (text : String)
    : Somewhere P (exampleLines text) ↔ Somewhere Q [text] := by
  have silent := passes.not_word "@example".toList (by decide)
  rw [exampleLines, somewhere_cons, passes.somewhere_trimmedLines]
  simp only [silent, false_or, somewhere_cons, somewhere_nil, or_false]

/-- The lines of a comment have such a property exactly if one of the texts in it has. -/
theorem somewhere_commentLines (doclet : Doclet)
    : Somewhere P doclet.commentLines
      ↔ Somewhere Q doclet.bodyTexts ∨ Somewhere P doclet.labelTexts := by
  have description := passes.somewhere_taggedLines "" (by decide)
    ((spoken doclet.description).or (spoken doclet.classDescription))
  rw [spoken_or_spoken] at description
  have examples
      : Somewhere P (doclet.examples.flatMap exampleLines) ↔ Somewhere Q doclet.examples := by
    simp only [somewhere_flatMap, passes.somewhere_exampleLines]
    simp [Somewhere]
  have entries (tag : String) (word : tag.toList.all harmless = true) (listed : List Entry)
      : Somewhere P (listed.flatMap (Entry.lines tag))
        ↔ Somewhere Q (listed.flatMap fun entry => (spoken entry.description).toList)
          ∨ Somewhere P (listed.flatMap Entry.labelTexts) := by
    simp only [somewhere_flatMap, passes.somewhere_entryLines tag word, and_or_left, exists_or]
  have returns
      : Somewhere P
          (doclet.returns.flatMap fun outcome => taggedLines "@returns " outcome.description)
        ↔ Somewhere Q
            (doclet.returns.flatMap fun outcome => (spoken outcome.description).toList) := by
    simp only [somewhere_flatMap, passes.somewhere_taggedLines "@returns " (by decide)]
  rw [commentLines, bodyTexts, labelTexts, commentEntries]
  simp only [somewhere_append, List.flatMap_append, description, examples, returns,
    entries "@property" (by decide), entries "@param" (by decide)]
  simp only [or_assoc, or_comm, or_left_comm]

end Passes

end Doclet

-----------------------------------------------------------------------------------------
-- The printed comment
-----------------------------------------------------------------------------------------

/-- What stands before a line at some depth. -/
def Indent.margin (indent : Indent) (depth : Nat) : String :=
  String.join (List.replicate depth indent.unit)

theorem Indent.mem_margin {indent : Indent} {depth : Nat} {c : Char}
    (mem : c ∈ (indent.margin depth).toList)
    : c = ' ' ∨ c = '\t' := by
  have inside : c ∈ indent.unit.toList := by
    simp only [margin, String.toList_join, List.mem_flatMap, List.mem_replicate] at mem
    obtain ⟨_, ⟨-, rfl⟩, inside⟩ := mem
    exact inside
  unfold Indent.unit at inside
  split at inside
  · exact .inr (by simpa using inside)
  · rw [String.toList_ofList] at inside
    exact .inl (List.eq_of_mem_replicate inside)

namespace Layout

/-- The text of lines. -/
def text (lines : List String) : String :=
  String.join (lines.map (· ++ "\n"))

/-- The lines of a text are cut where it was put together. -/
theorem splitOn_text {lines : List String} (single : ∀ line ∈ lines, '\n' ∉ line.toList)
    : (text lines).toList.splitOn '\n' = lines.map String.toList ++ [[]] := by
  induction lines with
  | nil => rfl
  | cons line lines ih =>
      obtain ⟨first, rest⟩ := List.forall_mem_cons.mp single
      have cut : (text (line :: lines)).toList = line.toList ++ '\n' :: (text lines).toList := by
        simp [text]
      rw [cut, List.splitOn_append_cons_self_of_not_mem first, ih rest]
      rfl

/-- The line of a comment for one of its texts. -/
def commentLine (line : String) : String :=
  if line.isEmpty then " *" else " * " ++ line

theorem comment_some {lines : Comment} (some : lines ≠ [])
    : comment (.some lines) = "/**" :: lines.map commentLine ++ [" */"] := by
  cases lines with
  | nil => exact absurd rfl some
  | cons line lines => rfl

theorem prefix_commentLine (line : String)
    : " *".toList <+: (commentLine line).toList := by
  unfold commentLine
  split
  · exact List.prefix_rfl
  · exact ⟨' ' :: line.toList, by simp⟩

theorem closes_commentLine (line : String)
    : Closes (commentLine line).toList ↔ Closes line.toList := by
  unfold commentLine
  split
  next empty =>
    obtain rfl : line = "" := by simpa using empty
    simp [closes_cons]
  next => simp [closes_cons]

theorem not_mem_commentLine {line : String} (single : '\n' ∉ line.toList)
    : '\n' ∉ (commentLine line).toList := by
  unfold commentLine
  split
  · decide
  · simpa using single

/-- A printed text is one comment with a margin: it is cut into a first and a last line and the
lines of a body, each of which starts as such a line does. What ends a comment stands only in the
last line.
-/
structure IsBlock (margin : String) (body : List String) (printed : String) : Prop where
  cut
    : printed.toList.splitOn '\n'
      = ((margin ++ "/**") :: body ++ [margin ++ " */"]).map String.toList ++ [[]]
  starts : ∀ line ∈ body, (margin ++ " *").toList <+: line.toList
  opens : ¬ Closes (margin ++ "/**").toList
  inside : ∀ line ∈ body, ¬ Closes line.toList

theorem isBlock_comment {lines : Comment} (some : lines ≠ [])
    (single : ∀ line ∈ lines, '\n' ∉ line.toList) (inside : ∀ line ∈ lines, ¬ Closes line.toList)
    (indent : Indent) (depth : Nat)
    : IsBlock (indent.margin depth) (lines.map fun line => indent.margin depth ++ commentLine line)
        (text ((comment (.some lines)).map (indent.margin depth ++ ·))) := by
  have blank : ∀ c ∈ (indent.margin depth).toList, Text.isBlank c = true := by
    intro c mem
    rcases Indent.mem_margin mem with rfl | rfl <;> decide
  have apart : '\n' ∉ (indent.margin depth).toList := by
    intro mem
    rcases Indent.mem_margin mem with same | same <;> exact absurd same (by decide)
  have whole : ∀ line ∈ "/**" :: lines.map commentLine ++ [" */"], '\n' ∉ line.toList := by
    simp only [List.forall_mem_append, List.forall_mem_cons, List.forall_mem_map]
    refine ⟨⟨by decide, fun line mem => not_mem_commentLine (single line mem)⟩, by decide, ?_⟩
    exact fun _ mem => absurd mem List.not_mem_nil
  rw [comment_some some]
  refine ⟨?_, ?_, ?_, ?_⟩
  · rw [splitOn_text]
    · simp
    · simp only [List.forall_mem_map, String.toList_append]
      intro line mem
      rw [List.mem_append, not_or]
      exact ⟨apart, whole line mem⟩
  · simp only [List.forall_mem_map, String.toList_append]
    intro line mem
    exact (List.prefix_append_right_inj _).mpr (prefix_commentLine line)
  · rw [String.toList_append, Text.closes_blanks_append blank]
    simp [closes_cons, not_closes_nil]
  · simp only [List.forall_mem_map, String.toList_append]
    intro line mem
    rw [Text.closes_blanks_append blank, closes_commentLine]
    exact inside line mem

end Layout

-----------------------------------------------------------------------------------------
-- Texts that stay in their comment
-----------------------------------------------------------------------------------------

namespace Doclet

/-- The lines of a comment carry some texts: they hold what ends a comment exactly if one of the
texts does. The labels among the texts are not cut into lines. As long as none of them holds a line
feed, no line of the comment does, and if also no text ends a comment, the printed comment is one at
any depth.
-/
structure Carries (texts labels : List String) (lines : Comment) : Prop where
  closes : Somewhere Closes lines ↔ Somewhere Closes (texts ++ labels)
  single : (∀ label ∈ labels, '\n' ∉ label.toList) → ∀ line ∈ lines, '\n' ∉ line.toList
  sealed
    : (∀ label ∈ labels, '\n' ∉ label.toList)
      → ¬ Somewhere Closes (texts ++ labels)
      → ∀ (indent : Indent) (depth : Nat),
        ∃ body,
          body.length = lines.length
          ∧ Layout.IsBlock (indent.margin depth) body
            (Layout.text ((Layout.comment (some lines)).map (indent.margin depth ++ ·)))

theorem carries_of_somewhere {texts labels : List String} {lines : Comment} (some : lines ≠ [])
    (passed
      : ∀ {P Q : List Char → Prop},
        Passes P Q → (Somewhere P lines ↔ Somewhere Q texts ∨ Somewhere P labels))
    : Carries texts labels lines := by
  have closes : Somewhere Closes lines ↔ Somewhere Closes (texts ++ labels) := by
    rw [somewhere_append, passed passes_closes]
  have single (apart : ∀ label ∈ labels, '\n' ∉ label.toList)
      : ∀ line ∈ lines, '\n' ∉ line.toList := by
    intro line mem listed
    rcases (passed passes_lineFeed).mp ⟨line, mem, listed⟩ with ⟨_, -, never⟩ | ⟨label, mem, has⟩
    · exact never
    · exact apart label mem has
  refine ⟨closes, single, ?_⟩
  intro apart unended indent depth
  have inside : ∀ line ∈ lines, ¬ Closes line.toList := fun line mem ends =>
    unended (closes.mp ⟨line, mem, ends⟩)
  exact ⟨_, List.length_map _, Layout.isBlock_comment some (single apart) inside indent depth⟩

theorem eq_of_commentOf {lines built : Comment} (present : commentOf lines = some built)
    : lines = built ∧ built ≠ [] := by
  cases lines with
  | nil => cases present
  | cons line lines => cases present; exact ⟨rfl, List.cons_ne_nil _ _⟩

/-- A comment carries the texts that it shows of its doclet, and the comment on a description
carries the description. Nothing in them is escaped.
-/
theorem comments_carry_texts (doclet : Doclet) (description : Option String)
    : (∀ lines,
        doclet.declComment = some lines → Carries doclet.bodyTexts doclet.labelTexts lines)
      ∧ ∀ lines,
        descriptionComment description = some lines
        → Carries (spoken description).toList [] lines := by
  constructor
  · intro lines built
    rw [declComment] at built
    split at built
    · cases built
    · obtain ⟨rfl, some⟩ := eq_of_commentOf built
      exact carries_of_somewhere some fun passes => passes.somewhere_commentLines doclet
  · intro lines built
    obtain ⟨rfl, some⟩ := eq_of_commentOf built
    refine carries_of_somewhere some fun passes => ?_
    simpa using passes.somewhere_taggedLines "" (by decide) description

/-- Witness: a description of two lines, by itself and before the label of an entry that has an
asterisk as its default value.
-/
theorem comments_carry_texts_param
    : let doclet : Doclet :=
        { kind := .function, name := "f", longname := "f", comment := "/** Adds. */",
          description := some "Adds.\n Twice.",
          params :=
            [{ name := "x", description := some "what", optional := true,
               defaultValue := some (.text "*") }] }
      (doclet.declComment = some ["Adds.", " Twice.", "@param [x = *] - what"]
        ∧ ∃ body,
            Layout.IsBlock "\t" body
              "\t/**\n\t * Adds.\n\t *  Twice.\n\t * @param [x = *] - what\n\t */\n")
      ∧ descriptionComment doclet.description = some ["Adds.", " Twice."]
      ∧ ∃ body, Layout.IsBlock "" body "/**\n * Adds.\n *  Twice.\n */\n" := by
  intro doclet
  have declared
      : doclet.declComment = some ["Adds.", " Twice.", "@param [x = *] - what"] := by
    decide +kernel
  have described : descriptionComment doclet.description = some ["Adds.", " Twice."] := by
    decide +kernel
  obtain ⟨ofDoclet, ofDescription⟩ := comments_carry_texts doclet doclet.description
  obtain ⟨body, -, block⟩ :=
    (ofDoclet _ declared).sealed (by decide +kernel) (by decide +kernel) { tabs := true } 1
  obtain ⟨others, -, alone⟩ :=
    (ofDescription _ described).sealed (by decide +kernel) (by decide +kernel) {} 0
  exact ⟨⟨declared, body, block⟩, described, others, alone⟩

/-- A description may end the comment that it stands in, and a default value may break its line. -/
theorem comment_not_kept
    : (¬ ∀ (doclet : Doclet) (lines : Comment),
          doclet.declComment = some lines → ∀ line ∈ lines, ¬ Closes line.toList)
      ∧ ¬ ∀ (doclet : Doclet) (lines : Comment),
          doclet.declComment = some lines → ∀ line ∈ lines, '\n' ∉ line.toList := by
  constructor
  · intro kept
    have built
        : declComment
            { kind := .function, name := "f", longname := "f", comment := "/** a */",
              description := some "a */ b" }
          = some ["a */ b"] := by
      decide +kernel
    have unended := kept _ _ built "a */ b" List.mem_cons_self
    exact unended ⟨['a', ' '], [' ', 'b'], rfl⟩
  · intro kept
    have built
        : declComment
            { kind := .function, name := "f", longname := "f", comment := "/** a */",
              params :=
                [{ name := "x", description := some "d", optional := true,
                   defaultValue := some (.text "1\n2") }] }
          = some ["@param [x = 1\n2] - d"] := by
      decide +kernel
    have unbroken := kept _ _ built "@param [x = 1\n2] - d" List.mem_cons_self
    exact unbroken (by decide)

end Doclet
end Typings
