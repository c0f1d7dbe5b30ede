import Typings.Proofs.Declarations.Modules

/-! The names of namespaces that stand for modules. A module in another one has to become a
namespace, with a name made of its own. An underscore goes before an ASCII digit, as no identifier
begins with one, but not before any other numeral.
-/

namespace Typings

-----------------------------------------------------------------------------------------
-- Names made of texts
-----------------------------------------------------------------------------------------

namespace Text

variable {c : Char} {cs : List Char} {text : String}

/-- The character of a name that stands for `c`. -/
def nameCharOf (c : Char) : Char :=
  if isNameChar c then c else '_'

theorem isNameChar_nameCharOf (c : Char) : isNameChar (nameCharOf c) = true := by
  unfold nameCharOf
  split
  · assumption
  · decide

theorem nameCharOf_eq_self (goesOn : isNameChar c = true) : nameCharOf c = c :=
  if_pos goesOn

theorem nameCharOf_eq_underscore (odd : isNameChar c = false) : nameCharOf c = '_' :=
  if_neg (by simp [odd])

theorem nameOf_of_nil (chars : text.toList = []) : nameOf text = "_" := by
  rw [nameOf, chars]
  rfl

theorem nameOf_of_cons (chars : text.toList = c :: cs)
    : nameOf text
      = if (nameCharOf c).isDigit then String.ofList ('_' :: (c :: cs).map nameCharOf)
        else String.ofList (nameCharOf c :: cs.map nameCharOf) := by
  rw [nameOf, chars]
  rfl

/-- Of what is put together of such characters, only the first decides whether it can be used. -/
theorem isIdentifier_ofList_map (c : Char) (cs : List Char)
    : isIdentifier (String.ofList (c :: cs.map nameCharOf)) = isNameStart c := by
  have names : (cs.map nameCharOf).all isNameChar = true := by simp [isNameChar_nameCharOf]
  rw [isIdentifier, String.toList_ofList]
  dsimp only
  rw [names, Bool.and_true]

/-- A numeral that is no letter is all that a name goes on with but does not begin with. -/
theorem isNameStart_iff_of_isNameChar (goesOn : isNameChar c = true)
    : isNameStart c = true ↔ ¬ (isNumeral c = true ∧ isLetter c = false) := by
  constructor
  · rintro starts ⟨numeral, noLetter⟩
    simp only [isNameStart, noLetter, Bool.false_or, Bool.or_eq_true, beq_iff_eq] at starts
    rcases starts with rfl | rfl <;> exact absurd numeral (by decide)
  · intro other
    by_contra noStart
    simp only [isNameStart, Bool.or_eq_true, not_or, Bool.not_eq_true] at noStart
    obtain ⟨⟨noLetter, noUnderscore⟩, noDollar⟩ := noStart
    refine other ⟨?_, noLetter⟩
    simpa [isNameChar, noLetter, noUnderscore, noDollar] using goesOn

/-- A text begins with a numeral that is neither a letter nor an ASCII digit. -/
def OpensOnNumeral (text : String) : Prop :=
  ∃ c ∈ text.toList.head?, isNumeral c = true ∧ isLetter c = false ∧ c.isDigit = false

/-- The name made of a text is an identifier, unless the text begins with a numeral that no
underscore is put before.
-/
theorem isIdentifier_nameOf (text : String)
    : isIdentifier (nameOf text) = true ↔ ¬ OpensOnNumeral text := by
  have underscore : isNameStart '_' = true := by decide
  unfold OpensOnNumeral
  -- The name begins with an underscore, or with the first character of the text itself.
  cases chars : text.toList with
  | nil =>
      rw [nameOf_of_nil chars]
      simpa using (by decide : isIdentifier "_" = true)
  | cons c cs =>
      rw [nameOf_of_cons chars]
      cases goesOn : isNameChar c with
      | false =>
          have noNumeral : isNumeral c = false := by
            simp only [isNameChar, Bool.or_eq_false_iff] at goesOn
            exact goesOn.1.1.2
          rw [nameCharOf_eq_underscore goesOn, if_neg (by decide), isIdentifier_ofList_map]
          simp [underscore, noNumeral]
      | true =>
          rw [nameCharOf_eq_self goesOn]
          cases digit : c.isDigit with
          | true =>
              rw [if_pos rfl, isIdentifier_ofList_map]
              simp [underscore, digit]
          | false =>
              rw [if_neg (by decide), isIdentifier_ofList_map, isNameStart_iff_of_isNameChar goesOn]
              simp [digit]

example : nameOf "my-pkg/sub" = "my_pkg_sub" := by decide +kernel

end Text

-----------------------------------------------------------------------------------------
-- Pieces that are namespaces
-----------------------------------------------------------------------------------------

namespace Doclet

variable {doclet : Doclet} {nested : Bool} {body : Body} {pieces : List Piece}

/-- The head of the namespace that stands for a module in another one. -/
def nestedHead (doclet : Doclet) : Decl.Head :=
  ⟨Text.nameOf doclet.declaredName, false, doclet.declComment⟩

theorem isIdentifier_nestedHead (doclet : Doclet)
    : Text.isIdentifier doclet.nestedHead.name = true
      ↔ ¬ Text.OpensOnNumeral doclet.declaredName :=
  Text.isIdentifier_nameOf doclet.declaredName

theorem piece_of_nested (isModule : doclet.kind = .module) (body : Body) (pieces : List Piece)
    : ∃ items,
        (doclet.piece true body pieces).value
          = some (.statement (.namespace doclet.nestedHead true items)) := by
  simp only [Doclet.piece, isModule]
  exact ⟨_, rfl⟩

/-- A namespace is declared by one, or it stands for a nested module. -/
theorem head_of_namespace {head : Decl.Head} {flag : Bool} {items : List Decl}
    (made
      : (doclet.piece nested body pieces).value = some (.statement (.namespace head flag items)))
    : doclet.kind = .namespace ∧ head = doclet.head
      ∨ doclet.kind = .module ∧ nested = true ∧ head = doclet.nestedHead := by
  rcases decl_of_statements made rfl with ⟨isModule, same⟩ | ⟨isNamespace, same⟩
  · cases nested with
    | true =>
        cases same
        exact .inr ⟨isModule, rfl, rfl⟩
    | false => cases same
  · cases same
    exact .inl ⟨isNamespace, rfl⟩

end Doclet

namespace Forest

open Text

variable {settings : Settings} {doclets : List Doclet} {forest : Forest}
variable {doclet : Doclet} {name : String} {node : Node} {part : Piece}

/-- The node of a doclet is that of a module or namespace within another one. -/
def Nested (forest : Forest) (name : String) : Prop :=
  ∃ node, forest.find? name = some node ∧ node.nested = true

theorem SameDoclet.nestedHead_eq (same : SameDoclet node { doclet })
    : node.doclet.nestedHead = doclet.nestedHead := by
  obtain ⟨_, isDoclet⟩ := same.2
  rw [isDoclet]
  rfl

/-- Of plain doclets those are nested that are members of modules and namespaces, or come to the
namespace of an interface.
-/
theorem nested_iff (plain : Plain doclets) (member : doclet ∈ survivors settings doclets)
    : (ofDoclets settings doclets).Nested doclet.longname
      ↔ Nests (survivors settings doclets) doclet := by
  obtain ⟨node, found, isOwn⟩ := (settled_ofDoclets settings plain).charted.own doclet member
  have linked : doclet.longname ∈ ((survivors settings doclets).map Doclet.longname).reverse :=
    longname_mem_reverse member
  calc
    (ofDoclets settings doclets).Nested doclet.longname
    _ ↔ node.nested = true := by simp [Nested, found]
    _ ↔ _ ∧ Nests (survivors settings doclets) doclet := isOwn.nested_iff
    _ ↔ Nests (survivors settings doclets) doclet := and_iff_right linked

/-- A nested module is declared as a namespace. -/
theorem part_of_nested (member : doclet ∈ survivors settings doclets)
    (isModule : doclet.kind = .module)
    (nested : (ofDoclets settings doclets).Nested doclet.longname)
    (listed : (.doclet doclet.longname, part) ∈ (ofDoclets settings doclets).origins)
    : ∃ items, part = .statement (.namespace doclet.nestedHead true items) := by
  obtain ⟨node, found, isNested⟩ := nested
  obtain ⟨other, otherFound, body, pieces, made⟩ :=
    exists_node_of_mem_origins (ofDoclets_sound settings doclets) listed
  cases otherFound.symm.trans found
  obtain ⟨own, ownFound, same⟩ := (sourced_ofDoclets settings doclets).own doclet member
  cases ownFound.symm.trans found
  obtain ⟨items, isNamespace⟩ :=
    Doclet.piece_of_nested (same.kind_eq.trans isModule) body pieces
  rw [isNested, isNamespace, same.nestedHead_eq] at made
  cases made
  exact ⟨items, rfl⟩

/-- A namespace at any depth of the declarations is declared by a namespace, or stands for a nested
module.
-/
theorem origin_of_namespace {head : Decl.Head} {flag : Bool} {items : List Decl}
    (listed
      : .statement (.namespace head flag items)
        ∈ (declarations settings doclets).value.flatMap Decl.parts)
    : (∃ name node,
        (ofDoclets settings doclets).find? name = some node
        ∧ node.doclet.kind = .namespace
        ∧ head = node.doclet.head)
      ∨ ∃ doclet ∈ survivors settings doclets,
          doclet.kind = .module
          ∧ (ofDoclets settings doclets).Nested doclet.longname
          ∧ head = doclet.nestedHead := by
  obtain ⟨name, node, found, body, pieces, made⟩ := exists_node_of_statement listed
  rcases Doclet.head_of_namespace made with ⟨isNamespace, same⟩ | ⟨isModule, isNested, same⟩
  · exact .inl ⟨name, node, found, isNamespace, same⟩
  · obtain ⟨doclet, member, rfl, isDoclet⟩ :=
      (sourced_ofDoclets settings doclets).doclet_of_module found isModule
    exact .inr ⟨doclet, member, isDoclet.kind_eq.symm.trans isModule, ⟨node, found, isNested⟩,
      same.trans isDoclet.nestedHead_eq⟩

-----------------------------------------------------------------------------------------
-- All names of nested modules
-----------------------------------------------------------------------------------------

/-- The name made of a text is an identifier exactly if the text does not begin with a numeral that
is neither a letter nor an ASCII digit. What a nested module is declared as is a namespace with such
a name, and no other namespace stands for a module.
Witness: of the characters that a name goes on with, those numerals alone do not begin one.
-/
theorem nested_names_usable_iff (settings : Settings) (doclets : List Doclet)
    : let kept := survivors settings doclets
      let forest := ofDoclets settings doclets
      (∀ text, isIdentifier (nameOf text) = true ↔ ¬ OpensOnNumeral text)
      ∧ (∀ doclet ∈ kept,
          doclet.kind = .module
          → (Plain doclets → (forest.Nested doclet.longname ↔ Nests kept doclet))
            ∧ (forest.Nested doclet.longname
              → ∀ part,
                  (.doclet doclet.longname, part) ∈ forest.origins
                  → (∃ items, part = .statement (.namespace doclet.nestedHead true items))
                    ∧ (isIdentifier part.name = true ↔ ¬ OpensOnNumeral doclet.declaredName)))
      ∧ ∀ head flag items,
          .statement (.namespace head flag items)
            ∈ (declarations settings doclets).value.flatMap Decl.parts
          → (∃ name node,
              forest.find? name = some node
              ∧ node.doclet.kind = .namespace
              ∧ head = node.doclet.head)
            ∨ ∃ doclet ∈ kept,
                doclet.kind = .module
                ∧ forest.Nested doclet.longname
                ∧ head = doclet.nestedHead
                ∧ (isIdentifier head.name = true ↔ ¬ OpensOnNumeral doclet.declaredName) := by
  intro kept forest
  refine ⟨isIdentifier_nameOf, ?_, ?_⟩
  · intro doclet member isModule
    refine ⟨fun plain => nested_iff plain member, fun nested part listed => ?_⟩
    obtain ⟨items, rfl⟩ := part_of_nested member isModule nested listed
    exact ⟨⟨items, rfl⟩, doclet.isIdentifier_nestedHead⟩
  · intro head flag items listed
    refine (origin_of_namespace listed).imp_right ?_
    rintro ⟨doclet, member, isModule, nested, rfl⟩
    exact ⟨doclet, member, isModule, nested, rfl, doclet.isIdentifier_nestedHead⟩

/-- A module in another one whose name begins with a superscript two keeps that in front. -/
theorem nested_names_usable_iff_superscript
    : let outer : Doclet := { kind := .module, name := "lib", longname := "module:lib" }
      let inner : Doclet :=
        { kind := .module, name := "²d", longname := "module:lib/²d",
          memberof := some "module:lib" }
      let doclets := [outer, inner]
      Plain doclets
      ∧ ∃ head items,
          .statement (.namespace head true items)
            ∈ (declarations {} doclets).value.flatMap Decl.parts
          ∧ head.name = "²d"
          ∧ isIdentifier head.name = false := by
  intro outer inner doclets
  have plain : Plain doclets := plain_of_short (by decide)
  have kept : survivors {} doclets = doclets := by rfl
  have member : inner ∈ doclets := by simp [doclets]
  have nests : Nests doclets inner := ⟨rfl, outer, ⟨by simp [doclets], rfl⟩, .inl rfl⟩
  have numeral : OpensOnNumeral inner.declaredName :=
    ⟨'²', by decide +kernel, by decide +kernel⟩
  obtain ⟨-, modules, -⟩ := nested_names_usable_iff {} doclets
  rw [kept] at modules
  obtain ⟨nested, declared⟩ := modules inner member rfl
  have quiet : (ofDoclets {} doclets).statements.warnings = [] := by decide +kernel
  have declares : .doclet inner.longname ∈ (ofDoclets {} doclets).origins.map Prod.fst := by
    decide +kernel
  obtain ⟨⟨_, part⟩, listed, rfl⟩ := List.mem_map.1 declares
  obtain ⟨⟨items, rfl⟩, usable⟩ := declared ((nested plain).2 nests) part listed
  have name : inner.nestedHead.name = "²d" := by decide +kernel
  have unusable : ¬ isIdentifier inner.nestedHead.name = true :=
    fun identifier => usable.1 identifier numeral
  exact ⟨plain, inner.nestedHead, items, mem_parts_of_mem_origins quiet listed, name,
    by simpa using unusable⟩

end Forest

end Typings
