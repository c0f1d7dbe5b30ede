import Typings.Decl.Printer
import Typings.Proofs.Doclet.Comments
import Typings.Proofs.TsType.Unbroken

/-! What a step of a printer writes: some lines behind the margin of the level, and nothing else.
The level is the same before and after, whatever is written in between.
-/

namespace Typings

namespace Layout

variable {lines more : List String} {unit header : String}

theorem text_append (lines more : List String)
    : text (lines ++ more) = text lines ++ text more := by
  simp [text]

theorem text_flatMap {α : Type} (lines : α → List String) (items : List α)
    : text (items.flatMap lines) = String.join (items.map fun item => text (lines item)) := by
  induction items with
  | nil => rfl
  | cons item items ih => rw [List.flatMap_cons, text_append, ih, List.map_cons, String.join_cons]

/-- The lines of a block: a header, the lines of its body one unit further in, and a closing brace.
-/
def block (unit header : String) (body : List String) : List String :=
  (header ++ " \x7b") :: body.map (unit ++ ·) ++ ["\x7d"]

/-- No line holds a line feed itself. -/
def Whole (lines : List String) : Prop :=
  ∀ line ∈ lines, Text.Unbroken line

theorem whole_singleton {line : String} (unbroken : Text.Unbroken line) : Whole [line] :=
  List.forall_mem_singleton.mpr unbroken

theorem Whole.append (whole : Whole lines) (others : Whole more) : Whole (lines ++ more) :=
  List.forall_mem_append.mpr ⟨whole, others⟩

theorem whole_comment {note : Option Comment} (texts : ∀ text ∈ note.getD [], Text.Unbroken text)
    : Whole (comment note) := by
  rcases note with _ | _ | ⟨line, lines⟩
  · exact List.forall_mem_nil _
  · exact List.forall_mem_nil _
  · rw [comment_some (List.cons_ne_nil _ _)]
    refine Whole.append (List.forall_mem_cons.mpr ⟨by decide, ?_⟩) (whole_singleton (by decide))
    exact List.forall_mem_map.mpr fun line listed => not_mem_commentLine (texts line listed)

theorem whole_block (plain : Text.Unbroken unit) (opens : Text.Unbroken header)
    (whole : Whole lines)
    : Whole (block unit header lines) := by
  have brace : Text.Unbroken (header ++ " \x7b") :=
    Text.unbroken_append.mpr ⟨opens, by decide⟩
  have body : Whole (lines.map (unit ++ ·)) :=
    List.forall_mem_map.mpr fun line listed =>
      Text.unbroken_append.mpr ⟨plain, whole line listed⟩
  exact Whole.append (List.forall_mem_cons.mpr ⟨brace, body⟩) (whole_singleton (by decide))

end Layout

theorem Indent.unbroken_unit (indent : Indent) : Text.Unbroken indent.unit := by
  unfold Indent.unit
  split
  · decide
  · simp [Text.Unbroken]

theorem Indent.margin_zero (indent : Indent) : indent.margin 0 = "" := rfl

theorem Indent.margin_succ (indent : Indent) (depth : Nat)
    : indent.margin (depth + 1) = indent.margin depth ++ indent.unit := by
  simp [margin, List.replicate_succ']

namespace Printer

open Layout (Whole text)

variable {indent : Indent} {first second step body : Printer → Printer}
  {lines more : List String} {P Q : Prop}

@[simp]
theorem indent_write (printer : Printer) (text : String)
    : (printer.write text).indent = printer.indent := rfl

@[simp]
theorem level_write (printer : Printer) (text : String)
    : (printer.write text).level = printer.level := rfl

@[simp]
theorem output_write (printer : Printer) (text : String)
    : (printer.write text).output = printer.output ++ text := rfl

theorem write_empty (printer : Printer) : printer.write "" = printer := by
  simp [write]

theorem write_write (printer : Printer) (front back : String)
    : (printer.write front).write back = printer.write (front ++ back) := by
  simp [write, String.append_assoc]

theorem foldl_write (printer : Printer) (texts : List String)
    : texts.foldl write printer = printer.write (String.join texts) := by
  induction texts generalizing printer with
  | nil => exact (write_empty printer).symm
  | cons text texts ih => rw [List.foldl_cons, ih, write_write, String.join_cons]

/-- A line is written behind the margin of the level. -/
theorem line_eq (printer : Printer) (text : String)
    : printer.line text
      = printer.write (printer.indent.margin printer.level ++ text ++ "\n") := by
  rw [line, writeMargin, foldl_write, write_write, write_write, Indent.margin,
    String.append_assoc]

@[simp]
theorem indent_line (printer : Printer) (text : String)
    : (printer.line text).indent = printer.indent := by
  rw [line_eq, indent_write]

@[simp]
theorem level_line (printer : Printer) (text : String)
    : (printer.line text).level = printer.level := by
  rw [line_eq, level_write]

-----------------------------------------------------------------------------------------
-- The lines of a step
-----------------------------------------------------------------------------------------

/-- A step of a printer writes some lines, each behind the margin of the level that the printer is
at. It changes nothing else, so that it ends at that level.
-/
def Writes (indent : Indent) (step : Printer → Printer) (lines : List String) : Prop :=
  ∀ printer : Printer,
    printer.indent = indent
    → step printer = printer.write (text (lines.map (indent.margin printer.level ++ ·)))

theorem Writes.level_eq (writes : Writes indent step lines) {printer : Printer}
    (same : printer.indent = indent)
    : (step printer).level = printer.level := by
  rw [writes printer same, level_write]

theorem writes_nothing : Writes indent id [] :=
  fun printer _ => (write_empty printer).symm

/-- What two steps write, one after the other. The second begins at the level of the first. -/
theorem Writes.trans (writes : Writes indent first lines) (others : Writes indent second more)
    : Writes indent (fun printer => second (first printer)) (lines ++ more) := by
  intro printer same
  dsimp only
  rw [writes printer same]
  refine (others (printer.write _) same).trans ?_
  rw [write_write, level_write, List.map_append, Layout.text_append]

theorem writes_line (text : String) : Writes indent (·.line text) [text] := by
  rintro printer rfl
  simp [line_eq, Layout.text]

theorem writes_comment (note : Option Comment)
    : Writes indent (·.comment note) (Layout.comment note) := by
  have each (lines : List String) : Writes indent (lines.foldl line ·) lines := by
    induction lines with
    | nil => exact writes_nothing
    | cons text lines ih => exact (writes_line text).trans ih
  exact each _

/-- What a block writes: its body stands one unit further in, and behind its brace the level is what
it was before its header.
-/
theorem Writes.block (header : String) (writes : Writes indent body lines)
    : Writes indent (·.block header body) (Layout.block indent.unit header lines) := by
  intro printer same
  let opened := printer.line (header ++ " \x7b")
  have indent_eq : opened.indent = indent := (indent_line ..).trans same
  have level_eq : opened.level = printer.level := level_line ..
  have inside
      : body opened.deeper
        = opened.deeper.write (text (lines.map (indent.margin (opened.level + 1) ++ ·))) :=
    writes opened.deeper indent_eq
  have back
      : (body opened.deeper).shallower
        = opened.write (text (lines.map (indent.margin (opened.level + 1) ++ ·))) := by
    rw [inside]
    rfl
  calc printer.block header body
    _ = (opened.write (text (lines.map (indent.margin (opened.level + 1) ++ ·)))).line "\x7d" :=
      congrArg (line · "\x7d") back
    _ = _ := by
      simp [opened, line_eq, same, write_write, Layout.block, Layout.text, Indent.margin_succ,
        Function.comp_def, String.append_assoc]

-----------------------------------------------------------------------------------------
-- Steps that write whole lines
-----------------------------------------------------------------------------------------

/-- A step of a printer writes some lines, and under a condition none of them holds a line feed. -/
def Prints (indent : Indent) (step : Printer → Printer) (fits : Prop) : Prop :=
  ∃ lines, Writes indent step lines ∧ (fits → Whole lines)

theorem Prints.mono (prints : Prints indent step P) (fits : Q → P) : Prints indent step Q := by
  obtain ⟨lines, writes, whole⟩ := prints
  exact ⟨lines, writes, fun holds => whole (fits holds)⟩

theorem Prints.trans (prints : Prints indent first P) (others : Prints indent second Q)
    : Prints indent (fun printer => second (first printer)) (P ∧ Q) := by
  obtain ⟨lines, writes, whole⟩ := prints
  obtain ⟨more, writesMore, wholeMore⟩ := others
  exact ⟨lines ++ more, writes.trans writesMore,
    fun fits => (whole fits.1).append (wholeMore fits.2)⟩

theorem prints_nothing : Prints indent id P :=
  ⟨[], writes_nothing, fun _ => List.forall_mem_nil _⟩

theorem prints_line (text : String) : Prints indent (·.line text) (Text.Unbroken text) :=
  ⟨[text], writes_line text, Layout.whole_singleton⟩

theorem prints_comment (note : Option Comment)
    : Prints indent (·.comment note) (∀ text ∈ note.getD [], Text.Unbroken text) :=
  ⟨Layout.comment note, writes_comment note, Layout.whole_comment⟩

theorem Prints.block {header : String} (prints : Prints indent body P)
    : Prints indent (·.block header body) (Text.Unbroken header ∧ P) := by
  obtain ⟨lines, writes, whole⟩ := prints
  exact ⟨_, writes.block header,
    fun fits => Layout.whole_block indent.unbroken_unit fits.1 (whole fits.2)⟩

/-- Steps for all of some items, one after the other. -/
theorem prints_foldl {α : Type} {step : Printer → α → Printer} {fits : α → Prop}
    (each : ∀ item, Prints indent (step · item) (fits item)) (items : List α)
    : Prints indent (items.foldl step ·) (∀ item ∈ items, fits item) := by
  induction items with
  | nil => exact prints_nothing
  | cons item items ih =>
      exact ((each item).trans ih).mono List.forall_mem_cons.mp

end Printer

end Typings
