import Typings.Proofs.Declarations.Parts
import Typings.Proofs.Declarations.Printer
import Typings.Proofs.Doclet.NormalForm

/-! Declarations are printed line by line, and each is printed as it would be alone, but behind the
margin of the level that the printer is at. As long as none of the texts that they show as they are
holds a line feed, a text is cut into just the lines that were written, and the text of a module or
namespace is made of the texts of what stands in it.
-/

namespace Typings

open Text

-----------------------------------------------------------------------------------------
-- Texts in declarations
-----------------------------------------------------------------------------------------

def Signature.texts (signature : Signature) : List String :=
  signature.typeParams.map TypeParam.name ++ signature.params.map Param.name

def Literal.texts : Literal → List String
  | .number text => [text]
  | .string _ | .boolean _ => []

/-- The lines of a comment and the names and numbers that a declaration shows as they are. Those of
what stands in its body are not among them.
-/
def Decl.texts (decl : Decl) : List String :=
  decl.name :: decl.head.comment.getD [] ++
    match decl with
    | .function _ signature => signature.texts
    | .interface _ typeParams .. | .alias _ typeParams _ | .class _ typeParams .. =>
      typeParams.map TypeParam.name
    | .enum _ _ members => members.flatMap fun member => member.value.toList.flatMap Literal.texts
    | .variable _ _ _ value => value.toList.flatMap Literal.texts
    | .namespace .. | .module .. => []

def ClassMember.texts : ClassMember → List String
  | .constructor params => params.map Param.name
  | .property _ _ _ _ _ comment => comment.getD []
  | .method _ signature _ _ comment => signature.texts ++ comment.getD []

def InterfaceMember.texts : InterfaceMember → List String
  | .property _ _ _ _ comment => comment.getD []
  | .method _ signature _ comment => signature.texts ++ comment.getD []

/-- The texts that a piece shows as they are. Names of members are not among them, as they are
written as keys.
-/
def Piece.texts : Piece → List String
  | .statement decl => decl.texts
  | .classMember member => member.texts
  | .interfaceMember member => member.texts

/-- No name, number or comment line in some texts and types holds a line feed. -/
structure OneLined (texts : List String) (types : List TsType) : Prop where
  texts : ∀ text ∈ texts, Unbroken text
  types : ∀ type ∈ types, type.Unbroken

/-- No name, number or comment line in a declaration holds a line feed, at any depth. -/
def Decl.Unbroken (decl : Decl) : Prop :=
  ∀ part ∈ decl.parts, OneLined part.texts part.types

theorem Decl.unbroken_iff {decl : Decl}
    : decl.Unbroken
      ↔ OneLined decl.texts decl.types
        ∧ ∀ entry ∈ decl.entries, ∀ part ∈ entry.parts, OneLined part.texts part.types := by
  rw [Decl.Unbroken, Decl.parts_eq, List.forall_mem_cons, List.forall_mem_flatMap]
  rfl

/-- The name of a declaration and the lines of its comment. -/
theorem Decl.Unbroken.head {decl : Decl} (unbroken : decl.Unbroken)
    : Text.Unbroken decl.name ∧ ∀ line ∈ decl.head.comment.getD [], Text.Unbroken line := by
  have shown := (Decl.unbroken_iff.mp unbroken).1.texts
  exact List.forall_mem_cons.mp (List.forall_mem_append.mp shown).1

theorem Decl.Unbroken.statement {decl inner : Decl} (unbroken : decl.Unbroken)
    (listed : .statement inner ∈ decl.entries)
    : inner.Unbroken :=
  (Decl.unbroken_iff.mp unbroken).2 (.statement inner) listed

-----------------------------------------------------------------------------------------
-- Texts on one line
-----------------------------------------------------------------------------------------

theorem TypeParam.unbroken_render {param : TypeParam} (name : Text.Unbroken param.name)
    (types : ∀ type ∈ param.types, type.Unbroken)
    : Text.Unbroken param.render := by
  obtain ⟨_, bound, fallback⟩ := param
  have limits : ∀ type ∈ bound, Text.Unbroken type.render := fun type given =>
    TsType.unbroken_render (types type (by simp_all [TypeParam.types]))
  have falls : ∀ type ∈ fallback, Text.Unbroken type.render := fun type given =>
    TsType.unbroken_render (types type (by simp_all [TypeParam.types]))
  cases bound <;> cases fallback <;> simp_all [TypeParam.render, Text.Unbroken]

theorem TypeParam.unbroken_renderList {params : List TypeParam}
    (names : ∀ text ∈ params.map TypeParam.name, Text.Unbroken text)
    (types : ∀ type ∈ params.flatMap TypeParam.types, type.Unbroken)
    : Text.Unbroken (TypeParam.renderList params) := by
  have inside : Text.Unbroken (", ".intercalate (params.map TypeParam.render)) := by
    refine unbroken_intercalate (by decide) (List.forall_mem_map.mpr fun param listed => ?_)
    exact TypeParam.unbroken_render (List.forall_mem_map.mp names param listed)
      fun type mem => types type (List.mem_flatMap_of_mem listed mem)
  unfold TypeParam.renderList
  split
  · decide
  · simp_all [Text.Unbroken]

theorem TsType.unbroken_renderParamList {params : List (Param TsType)}
    (names : ∀ text ∈ params.map Param.name, Text.Unbroken text)
    (types : ∀ type ∈ params.map Param.type, type.Unbroken)
    : Text.Unbroken (TsType.renderParamList params) := by
  have inside : Text.Unbroken (", ".intercalate (TsType.renderParams params)) := by
    rw [TsType.renderParams_eq_map]
    refine unbroken_intercalate (by decide) (List.forall_mem_map.mpr fun param listed => ?_)
    exact TsType.unbroken_paramText (List.forall_mem_map.mp names param listed)
      (TsType.unbroken_render (List.forall_mem_map.mp types param listed))
  simp_all [TsType.renderParamList, Text.Unbroken]

namespace Layout

variable {head : Decl.Head}

theorem unbroken_literal (value : Literal) (texts : ∀ text ∈ value.texts, Text.Unbroken text)
    : Text.Unbroken (literal value) := by
  cases value with
  | string value => exact unbroken_quote value
  | number text => exact texts text List.mem_cons_self
  | boolean value => cases value <;> decide

theorem unbroken_annotated {type : Option TsType} (types : ∀ given ∈ type.toList, given.Unbroken)
    : Text.Unbroken (annotated type) := by
  cases type with
  | none => decide
  | some type =>
      have rendered := TsType.unbroken_render (types type List.mem_cons_self)
      simp_all [annotated, Text.Unbroken]

theorem unbroken_signature {called : Signature} (fits : OneLined called.texts called.types)
    : Text.Unbroken (signature called) := by
  obtain ⟨texts, types⟩ := fits
  simp only [Signature.texts, Signature.types, List.forall_mem_append] at texts types
  simp only [signature, unbroken_append]
  exact ⟨⟨TypeParam.unbroken_renderList texts.1 types.1.1,
    TsType.unbroken_renderParamList texts.2 types.1.2⟩, unbroken_annotated types.2⟩

theorem unbroken_modifiers (m : Modifiers) (readonly : Bool)
    : Text.Unbroken (modifiers m readonly) := by
  obtain ⟨visibility, static⟩ := m
  rcases visibility with _ | _ | _ | _ <;> cases static <;> cases readonly <;> decide

theorem unbroken_clause (word : String) {types : List TsType} (plain : Text.Unbroken word)
    (each : ∀ type ∈ types, type.Unbroken)
    : Text.Unbroken (clause word types) := by
  unfold clause
  split
  · decide
  · rw [unbroken_append]
    refine ⟨plain, unbroken_intercalate (by decide) (List.forall_mem_map.mpr fun type listed => ?_)⟩
    exact TsType.unbroken_render (each type listed)

theorem unbroken_opening (keyword : String) (plain : Text.Unbroken keyword)
    (name : Text.Unbroken head.name)
    : Text.Unbroken (opening head keyword) := by
  unfold opening
  split <;> simp_all [Text.Unbroken]

theorem unbroken_initial (constant : Bool) {type : Option TsType} {value : Option Literal}
    (texts : ∀ text ∈ value.toList.flatMap Literal.texts, Text.Unbroken text)
    (types : ∀ given ∈ type.toList, given.Unbroken)
    : Text.Unbroken (initial constant type value) := by
  have typed := unbroken_annotated types
  cases value with
  | none => exact typed
  | some value =>
      have given := unbroken_literal value (by simpa using texts)
      cases constant <;> simp_all [initial, Text.Unbroken]

theorem unbroken_enumMember {member : EnumMember}
    (texts : ∀ text ∈ member.value.toList.flatMap Literal.texts, Text.Unbroken text)
    : Text.Unbroken (enumMember member) := by
  obtain ⟨name, value⟩ := member
  have key := unbroken_propertyKey name
  cases value with
  | none => simp_all [enumMember, Text.Unbroken]
  | some value =>
      have given := unbroken_literal value (by simpa using texts)
      simp_all [enumMember, Text.Unbroken]

end Layout

-----------------------------------------------------------------------------------------
-- What a declaration writes
-----------------------------------------------------------------------------------------

namespace Printer

open Layout

variable {indent : Indent} {head : Decl.Head}

theorem prints_classMember (member : ClassMember)
    : Prints indent (·.classMember member) (OneLined member.texts member.types) := by
  cases member with
  | constructor params =>
      refine (prints_line _).mono fun fits => ?_
      obtain ⟨texts, types⟩ := fits
      have called := TsType.unbroken_renderParamList texts types
      simp_all [Text.Unbroken]
  | property name type optional readonly m note =>
      refine ((prints_comment note).trans (prints_line _)).mono fun fits => ?_
      obtain ⟨texts, types⟩ := fits
      refine ⟨texts, ?_⟩
      have words := unbroken_modifiers m readonly
      have key := unbroken_propertyKey name
      have mark := TsType.unbroken_optionalMark optional
      have typed := unbroken_annotated types
      simp_all [Text.Unbroken]
  | method name called optional m note =>
      refine ((prints_comment note).trans (prints_line _)).mono fun fits => ?_
      obtain ⟨texts, types⟩ := fits
      obtain ⟨own, noted⟩ := List.forall_mem_append.mp texts
      refine ⟨noted, ?_⟩
      have words := unbroken_modifiers m false
      have key := unbroken_propertyKey name
      have mark := TsType.unbroken_optionalMark optional
      have call := unbroken_signature ⟨own, types⟩
      simp_all [Text.Unbroken]

theorem prints_interfaceMember (member : InterfaceMember)
    : Prints indent (·.interfaceMember member) (OneLined member.texts member.types) := by
  cases member with
  | property name type optional readonly note =>
      refine ((prints_comment note).trans (prints_line _)).mono fun fits => ?_
      obtain ⟨texts, types⟩ := fits
      refine ⟨texts, ?_⟩
      have key := unbroken_propertyKey name
      have mark := TsType.unbroken_optionalMark optional
      have typed := TsType.unbroken_render (types type List.mem_cons_self)
      cases readonly <;> simp_all [Text.Unbroken]
  | method name called optional note =>
      refine ((prints_comment note).trans (prints_line _)).mono fun fits => ?_
      obtain ⟨texts, types⟩ := fits
      obtain ⟨own, noted⟩ := List.forall_mem_append.mp texts
      refine ⟨noted, ?_⟩
      have key := unbroken_propertyKey name
      have mark := TsType.unbroken_optionalMark optional
      have call := unbroken_signature ⟨own, types⟩
      simp_all [Text.Unbroken]

theorem prints_enumMembers (members : List EnumMember)
    : Prints indent (·.enumMembers members)
        (∀ text ∈ members.flatMap fun member => member.value.toList.flatMap Literal.texts,
          Text.Unbroken text) := by
  induction members with
  | nil => exact prints_nothing
  | cons member members ih =>
      cases members with
      | nil =>
          refine (prints_line _).mono fun texts => unbroken_enumMember ?_
          simpa using texts
      | cons next members =>
          refine ((prints_line _).trans ih).mono fun texts => ?_
          rw [List.flatMap_cons, List.forall_mem_append] at texts
          have comma : Text.Unbroken "," := by decide
          exact ⟨unbroken_append.mpr ⟨unbroken_enumMember texts.1, comma⟩, texts.2⟩

/-- A declaration that holds no others, below its comment. -/
theorem prints_simple (item : Decl) : Prints indent (·.simple item) item.Unbroken := by
  -- What the condition says of the texts and types of the declaration and of its entries.
  have shown (unbroken : item.Unbroken) :=
    (Decl.unbroken_iff.mp unbroken).imp_left fun fits =>
      And.intro (List.forall_mem_append.mp fits.texts).2 fits.types
  cases item with
  | function head called =>
      refine (prints_line _).mono fun unbroken => ?_
      obtain ⟨⟨texts, types⟩, -⟩ := shown unbroken
      have opens : Text.Unbroken (opening head "function") :=
        unbroken_opening _ (by decide) unbroken.head.1
      have call := unbroken_signature ⟨texts, types⟩
      simp_all [Text.Unbroken]
  | interface head typeParams bases members =>
      refine (prints_foldl prints_interfaceMember members).block.mono fun unbroken => ?_
      obtain ⟨⟨texts, types⟩, entries⟩ := shown unbroken
      obtain ⟨bounds, extended⟩ := List.forall_mem_append.mp types
      have opens : Text.Unbroken (opening head "interface") :=
        unbroken_opening _ (by decide) unbroken.head.1
      have params := TypeParam.unbroken_renderList texts bounds
      have parents := unbroken_clause " extends " (by decide) extended
      refine ⟨unbroken_append.mpr ⟨unbroken_append.mpr ⟨opens, params⟩, parents⟩, ?_⟩
      exact fun member listed =>
        entries (.interfaceMember member) (List.mem_map_of_mem listed) _ List.mem_cons_self
  | «alias» head typeParams type =>
      refine (prints_line _).mono fun unbroken => ?_
      obtain ⟨⟨texts, types⟩, -⟩ := shown unbroken
      obtain ⟨bounds, aliased⟩ := List.forall_mem_append.mp types
      have opens : Text.Unbroken (opening head "type") :=
        unbroken_opening _ (by decide) unbroken.head.1
      have params := TypeParam.unbroken_renderList texts bounds
      have shown := TsType.unbroken_render (aliased type List.mem_cons_self)
      simp_all [Text.Unbroken]
  | «class» head typeParams base interfaces members =>
      refine (prints_foldl prints_classMember members).block.mono fun unbroken => ?_
      obtain ⟨⟨texts, types⟩, entries⟩ := shown unbroken
      obtain ⟨front, implemented⟩ := List.forall_mem_append.mp types
      obtain ⟨bounds, extended⟩ := List.forall_mem_append.mp front
      have opens : Text.Unbroken (opening head "class") :=
        unbroken_opening _ (by decide) unbroken.head.1
      have params := TypeParam.unbroken_renderList texts bounds
      have parent := unbroken_clause " extends " (by decide) extended
      have parents := unbroken_clause " implements " (by decide) implemented
      have named := unbroken_append.mpr ⟨unbroken_append.mpr ⟨opens, params⟩, parent⟩
      refine ⟨unbroken_append.mpr ⟨named, parents⟩, ?_⟩
      exact fun member listed =>
        entries (.classMember member) (List.mem_map_of_mem listed) _ List.mem_cons_self
  | enum head constant members =>
      refine (prints_enumMembers members).block.mono fun unbroken => ?_
      obtain ⟨⟨texts, -⟩, -⟩ := shown unbroken
      exact ⟨unbroken_opening _ (by cases constant <;> decide) unbroken.head.1, texts⟩
  | «variable» head constant type value =>
      refine (prints_line _).mono fun unbroken => ?_
      obtain ⟨⟨texts, types⟩, -⟩ := shown unbroken
      have opens : Text.Unbroken (opening head (if constant then "const" else "var")) :=
        unbroken_opening _ (by cases constant <;> decide) unbroken.head.1
      have shown := unbroken_initial constant texts types
      simp_all [Text.Unbroken]
  | «namespace» | «module» => exact prints_nothing

/-- What stands in a namespace is a nested namespace alone, without a comment, which joins its name.
-/
def Collapses (items : List Decl) : Prop :=
  ∃ head inner, items = [.namespace head true inner] ∧ head.comment = none

theorem collapsed_of_collapses (printer : Printer) (header : String) (inner : List Decl)
    (bare : head.comment = none)
    : printer.collapsed header [.namespace head true inner]
      = printer.collapsed (header ++ "." ++ head.name) inner := by
  rw [collapsed]
  simp [bare]

theorem collapsed_of_not_collapses (printer : Printer) (header : String) {items : List Decl}
    (some : items ≠ []) (apart : ¬ Collapses items)
    : printer.collapsed header items = printer.block header (·.items items) := by
  cases items with
  | nil => exact absurd rfl some
  | cons item items =>
      simp only [Printer.items]
      cases item with
      | «namespace» head nested inner =>
          rw [collapsed, if_neg]
          simp only [Bool.and_eq_true, List.isEmpty_iff, Option.isNone_iff_eq_none]
          rintro ⟨⟨rfl, rfl⟩, bare⟩
          exact apart ⟨head, inner, rfl, bare⟩
      | _ => rw [collapsed]; nofun

theorem prints_empty (header : String)
    : Prints indent (·.line (header ++ " \x7b \x7d")) (Text.Unbroken header) :=
  (prints_line _).mono fun opens => unbroken_append.mpr ⟨opens, by decide⟩

mutual
/-- Every declaration writes its lines and restores the level, whatever stands in it. -/
theorem prints_item (indent : Indent) (item : Decl)
    : Prints indent (·.item item) item.Unbroken := by
  cases item with
  | «namespace» head nested items =>
      simp only [Printer.item]
      refine ((prints_comment head.comment).trans
        (prints_collapsed indent (opening head "namespace") items)).mono fun unbroken => ?_
      obtain ⟨name, noted⟩ := unbroken.head
      exact ⟨noted, unbroken_opening _ (by decide) name,
        fun item listed => unbroken.statement (List.mem_map_of_mem listed)⟩
  | «module» head items =>
      have opens : Text.Unbroken (opening { head with name := quote head.name } "module") :=
        unbroken_opening _ (by decide) (unbroken_quote head.name)
      cases items with
      | nil =>
          refine ((prints_comment head.comment).trans (prints_empty _)).mono fun unbroken => ?_
          exact ⟨unbroken.head.2, opens⟩
      | cons item items =>
          refine ((prints_comment head.comment).trans
            (prints_items indent (item :: items)).block).mono fun unbroken => ?_
          exact ⟨unbroken.head.2, opens,
            fun item listed => unbroken.statement (List.mem_map_of_mem listed)⟩
  | _ =>
      simp only [Printer.item]
      refine ((prints_comment _).trans (prints_simple _)).mono fun unbroken => ?_
      exact ⟨unbroken.head.2, unbroken⟩

theorem prints_items (indent : Indent) (items : List Decl)
    : Prints indent (·.items items) (∀ item ∈ items, item.Unbroken) := by
  cases items with
  | nil => exact prints_nothing
  | cons item items =>
      exact ((prints_item indent item).trans (prints_items indent items)).mono
        List.forall_mem_cons.mp

theorem prints_collapsed (indent : Indent) (header : String) (items : List Decl)
    : Prints indent (·.collapsed header items)
        (Text.Unbroken header ∧ ∀ item ∈ items, item.Unbroken) := by
  by_cases collapses : Collapses items
  · obtain ⟨head, inner, rfl, bare⟩ := collapses
    simp only [collapsed_of_collapses _ _ _ bare]
    refine (prints_collapsed indent (header ++ "." ++ head.name) inner).mono fun fits => ?_
    obtain ⟨opens, each⟩ := fits
    have unbroken := each _ List.mem_cons_self
    have point : Text.Unbroken "." := by decide
    refine ⟨unbroken_append.mpr ⟨unbroken_append.mpr ⟨opens, point⟩, unbroken.head.1⟩, ?_⟩
    exact fun item listed => unbroken.statement (List.mem_map_of_mem listed)
  · cases items with
    | nil => exact (prints_empty header).mono And.left
    | cons item items =>
        simp only [collapsed_of_not_collapses _ _ (List.cons_ne_nil _ _) collapses]
        exact (prints_items indent (item :: items)).block
end

/-- A printer ends a declaration at the level at which it began it. -/
theorem level_item (printer : Printer) (item : Decl)
    : (printer.item item).level = printer.level := by
  obtain ⟨lines, writes, -⟩ := prints_item printer.indent item
  exact writes.level_eq rfl

end Printer

-----------------------------------------------------------------------------------------
-- Texts and their lines
-----------------------------------------------------------------------------------------

namespace Layout

open Printer (Collapses Writes)

variable {indent : Indent} {lines : List String}

/-- The lines of a text, each of which ends with a line feed. -/
def linesOf (text : String) : List String :=
  ((text.toList.splitOn '\n').dropLast).map String.ofList

theorem linesOf_text (whole : Whole lines) : linesOf (text lines) = lines := by
  rw [linesOf, splitOn_text whole, List.dropLast_concat, List.map_map]
  simp

/-- A declaration that is printed alone stands behind no margin. -/
theorem render_of_writes {item : Decl} (writes : Writes indent (·.item item) lines)
    : item.render indent = text lines := by
  have printed := congrArg Printer.output (writes { indent } rfl)
  simpa [Decl.render, Indent.margin_zero] using printed

/-- A declaration writes the lines of its text, behind the margin of the level where it stands. -/
theorem writes_item (indent : Indent) {item : Decl} (unbroken : item.Unbroken)
    : Writes indent (·.item item) (linesOf (item.render indent)) := by
  obtain ⟨lines, writes, whole⟩ := Printer.prints_item indent item
  rw [render_of_writes writes, linesOf_text (whole unbroken)]
  exact writes

theorem writes_items (indent : Indent) {items : List Decl}
    (each : ∀ item ∈ items, item.Unbroken)
    : Writes indent (·.items items) (items.flatMap fun item => linesOf (item.render indent)) := by
  induction items with
  | nil => exact Printer.writes_nothing
  | cons item items ih =>
      obtain ⟨first, rest⟩ := List.forall_mem_cons.mp each
      exact (writes_item indent first).trans (ih rest)

/-- At its first level a printer writes a declaration as if it were alone. -/
theorem spaced_eq (indent : Indent) (output : String) (decl : Decl)
    : ({ indent, output : Printer }.spaced decl)
      = { indent, output := output ++ (decl.render indent ++ "\n") } := by
  obtain ⟨lines, writes, -⟩ := Printer.prints_item indent decl
  rw [render_of_writes writes]
  have printed := writes { indent, output } rfl
  dsimp only at printed
  rw [Printer.spaced, printed]
  simp [Indent.margin_zero, Printer.write, String.append_assoc]

/-- Declarations are printed by one printer as they would be by one for each, as each of them leaves
it at its first level.
-/
theorem renderAll_eq (indent : Indent) (decls : List Decl)
    : Decl.renderAll indent decls
      = String.join (decls.map fun decl => decl.render indent ++ "\n") := by
  have run (output : String)
      : (decls.foldl Printer.spaced { indent, output }).output
        = output ++ String.join (decls.map fun decl => decl.render indent ++ "\n") := by
    induction decls generalizing output with
    | nil => simp
    | cons decl decls ih =>
        rw [List.foldl_cons, spaced_eq, ih, List.map_cons, String.join_cons, String.append_assoc]
  exact (run "").trans (String.empty_append)

theorem renderAll_append (indent : Indent) (front back : List Decl)
    : Decl.renderAll indent (front ++ back)
      = Decl.renderAll indent front ++ Decl.renderAll indent back := by
  simp [renderAll_eq]

/-- The text of something with a body: its comment, its header, the lines of each item as that is
printed alone, one unit further in, and a closing brace.
-/
def framed (indent : Indent) (note : Option Comment) (header : String) (items : List Decl)
    : String :=
  text (comment note) ++ text [header ++ " \x7b"]
    ++ String.join (items.map fun item =>
      text ((linesOf (item.render indent)).map (indent.unit ++ ·)))
    ++ text ["\x7d"]

theorem render_of_block {item : Decl} {note : Option Comment} {header : String}
    {items : List Decl} (each : ∀ item ∈ items, item.Unbroken)
    (printed
      : ∀ printer : Printer,
          printer.item item = (printer.comment note).block header (·.items items))
    : item.render indent = framed indent note header items := by
  have writes := (Printer.writes_comment note).trans ((writes_items indent each).block header)
  simp only [← printed] at writes
  rw [render_of_writes writes, block, framed, List.map_flatMap, ← List.singleton_append]
  simp only [text_append, text_flatMap, String.append_assoc]

/-- Declarations are printed one after the other, each with a blank line behind it. A module with a
body, and a namespace whose name is not joined by another, is printed as the text of its items
printed alone, one unit further in.
Witness: whatever is printed restores the level, and stands behind the margin of that.
-/
theorem rendering_composes (indent : Indent)
    : (∀ front back : List Decl,
        Decl.renderAll indent (front ++ back)
        = Decl.renderAll indent front ++ Decl.renderAll indent back)
      ∧ (∀ decl : Decl, Decl.renderAll indent [decl] = decl.render indent ++ "\n")
      ∧ ∀ (head : Decl.Head) (items : List Decl),
          items ≠ []
          → (∀ item ∈ items, item.Unbroken)
          → (Decl.module head items).render indent
              = framed indent head.comment
                  (opening { head with name := quote head.name } "module") items
            ∧ ∀ nested,
                ¬ Collapses items
                → (Decl.namespace head nested items).render indent
                  = framed indent head.comment (opening head "namespace") items := by
  refine ⟨renderAll_append indent, fun decl => by simp [renderAll_eq],
    fun head items some each => ⟨?inModule, fun nested apart => ?inNamespace⟩⟩
  case inModule =>
    refine render_of_block each fun printer => ?_
    rw [Printer.item, if_neg (by simpa using some)]
  case inNamespace =>
    refine render_of_block each fun printer => ?_
    rw [Printer.item, Printer.collapsed_of_not_collapses _ _ some apart]

/-- Witness: a comment, a function and a namespace in a module. -/
theorem rendering_composes_shapes
    : let items : List Decl :=
        [ .function ⟨"area", false, some ["Measures.", ""]⟩
            ⟨[], [⟨"shape", .named "Set" [.primitive .string], false, false⟩], none⟩,
          .namespace ⟨"units", false, none⟩ true
            [.variable ⟨"inch", false, none⟩ true none (some (.number "2.54"))] ]
      items ≠ []
      ∧ (∀ item ∈ items, item.Unbroken)
      ∧ ¬ Collapses items
      ∧ (Decl.module ⟨"shapes", true, some ["Shapes."]⟩ items).render {}
        = "/**\n * Shapes.\n */\ndeclare module \"shapes\" \x7b\n"
          ++ "    /**\n     * Measures.\n     *\n     */\n    function area(shape: Set<string>);\n"
          ++ "    namespace units \x7b\n        const inch = 2.54;\n    \x7d\n\x7d\n"
      ∧ (Decl.namespace ⟨"shapes", true, none⟩ false items).render {}
        = framed {} none "declare namespace shapes" items := by
  intro items
  have typed : TsType.Unbroken (.named "Set" [.primitive .string]) :=
    TsType.unbroken_iff.mpr ⟨by decide, List.forall_mem_singleton.mpr
      (TsType.unbroken_iff.mpr ⟨nofun, nofun⟩)⟩
  have each : ∀ item ∈ items, item.Unbroken := by
    have parts : items.flatMap Decl.parts = items.map .statement ++ items.flatMap Decl.entries :=
      rfl
    refine List.forall_mem_flatMap.mp (parts ▸ ?_)
    refine List.forall_mem_cons.mpr ⟨⟨by decide, List.forall_mem_singleton.mpr typed⟩, ?_⟩
    refine List.forall_mem_cons.mpr ⟨⟨by decide, nofun⟩, ?_⟩
    exact List.forall_mem_singleton.mpr ⟨by decide, nofun⟩
  have apart : ¬ Collapses items := by
    rintro ⟨_, _, same, _⟩
    cases (List.cons.inj same).2
  have composes := (rendering_composes {}).2.2
  obtain ⟨inModule, _⟩ := composes ⟨"shapes", true, some ["Shapes."]⟩ items (by simp [items]) each
  obtain ⟨_, inNamespace⟩ := composes ⟨"shapes", true, none⟩ items (by simp [items]) each
  refine ⟨List.cons_ne_nil _ _, each, apart, ?_, ?_⟩
  · rw [inModule]
    decide +kernel
  · exact inNamespace false apart

end Layout

end Typings
