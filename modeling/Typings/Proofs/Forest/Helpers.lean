import Typings.Proofs.Forest.Effects
import Typings.Proofs.Forest.Survivors

/-! The longnames of helpers, and what doclets look like that leave these to the helpers. -/

namespace Typings.Forest

open Relation

-----------------------------------------------------------------------------------------
-- Longnames of helpers
-----------------------------------------------------------------------------------------

theorem interfaceHelper_injective {left right : String}
    (same : interfaceHelper left = interfaceHelper right)
    : left = right := by
  simpa [interfaceHelper] using same

theorem namespaceHelper_injective {left right : String}
    (same : namespaceHelper left = namespaceHelper right)
    : left = right := by
  simpa [namespaceHelper] using same

/-- No interface has the longname of a namespace. They differ in their last characters. -/
theorem interfaceHelper_ne_namespaceHelper (left right : String)
    : interfaceHelper left ≠ namespaceHelper right := by
  intro same
  have ends := congrArg (fun name : String => name.toList.reverse.take 11) same
  simp [interfaceHelper, namespaceHelper] at ends

/-- A longname that ends like that of a helper. -/
def Reserved (name : String) : Prop :=
  ∃ owner, name = interfaceHelper owner ∨ name = namespaceHelper owner

theorem reserved_interfaceHelper (owner : String) : Reserved (interfaceHelper owner) :=
  ⟨owner, .inl rfl⟩

theorem reserved_namespaceHelper (owner : String) : Reserved (namespaceHelper owner) :=
  ⟨owner, .inr rfl⟩

theorem not_reserved_of_length_lt {name : String} (short : name.length < 18) : ¬ Reserved name := by
  have interfaceSuffix : "$$interface$helper".length = 18 := by decide
  have namespaceSuffix : "$$namespace$helper".length = 18 := by decide
  rintro ⟨owner, rfl | rfl⟩
  · rw [interfaceHelper, String.length_append] at short
    omega
  · rw [namespaceHelper, String.length_append] at short
    omega

/-- `name` is the longname of `owner` or of one of its helpers. -/
def Belongs (name owner : String) : Prop :=
  name = owner ∨ name = interfaceHelper owner ∨ name = namespaceHelper owner

/-- What belongs to two names belongs to one, as neither ends like a helper. -/
theorem Belongs.unique {name left right : String} (leftPlain : ¬ Reserved left)
    (rightPlain : ¬ Reserved right) (toLeft : Belongs name left) (toRight : Belongs name right)
    : left = right := by
  rcases toLeft with rfl | rfl | rfl <;> rcases toRight with same | same | same
  · exact same
  · exact absurd (same ▸ reserved_interfaceHelper right) leftPlain
  · exact absurd (same ▸ reserved_namespaceHelper right) leftPlain
  · exact absurd (same ▸ reserved_interfaceHelper left) rightPlain
  · exact interfaceHelper_injective same
  · exact absurd same (interfaceHelper_ne_namespaceHelper left right)
  · exact absurd (same ▸ reserved_namespaceHelper left) rightPlain
  · exact absurd same.symm (interfaceHelper_ne_namespaceHelper right left)
  · exact namespaceHelper_injective same

-----------------------------------------------------------------------------------------
-- Doclets and what they are members of
-----------------------------------------------------------------------------------------

/-- No doclet has a longname like a helper, or names a parent like one. -/
def Plain (doclets : List Doclet) : Prop :=
  ∀ doclet ∈ doclets,
    ¬ Reserved doclet.longname ∧ ∀ parent, doclet.memberof = some parent → ¬ Reserved parent

theorem plain_of_short {doclets : List Doclet}
    (short
      : ∀ doclet ∈ doclets,
          doclet.longname.length < 18 ∧ ∀ parent ∈ doclet.memberof, parent.length < 18)
    : Plain doclets := by
  intro doclet member
  obtain ⟨own, parents⟩ := short doclet member
  exact ⟨not_reserved_of_length_lt own, fun parent names =>
    not_reserved_of_length_lt (parents parent names)⟩

/-- The doclet `parent` is among `doclets`, and `doclet` is a member of it. -/
def MemberOf (doclets : List Doclet) (doclet parent : Doclet) : Prop :=
  parent ∈ doclets ∧ doclet.memberof = some parent.longname

variable {settings : Settings} {doclets : List Doclet} {doclet parent other : Doclet}

theorem Plain.survivors (plain : Plain doclets) (settings : Settings)
    : Plain (survivors settings doclets) :=
  fun doclet member => plain doclet (mem_of_mem_survivors member)

theorem eq_of_longname_eq (distinct : (doclets.map Doclet.longname).Nodup)
    (member : doclet ∈ doclets) (otherMember : other ∈ doclets)
    (same : doclet.longname = other.longname)
    : doclet = other :=
  List.inj_on_of_nodup_map distinct member otherMember same

theorem MemberOf.unique (distinct : (doclets.map Doclet.longname).Nodup)
    (left : MemberOf doclets doclet parent) (right : MemberOf doclets doclet other)
    : parent = other :=
  eq_of_longname_eq distinct left.1 right.1 (Option.some.inj (left.2.symm.trans right.2))

/-- The doclet goes to the namespace of its parent: the body of the parent cannot hold it. -/
def GoesBeside (parent doclet : Doclet) : Prop :=
  parent.kind.isClassLike = true ∧ doclet.leavesClass = true
  ∨ parent.kind.isInterfaceLike = true ∧ doclet.isStatic = true

end Typings.Forest
