import Typings.TsType.Params

/-! Types in which every union is in normal form: it has at least two members, all different, and
none of them is a union. Building a union of such types makes such a type.
-/

namespace Typings

/-- The types of a member of an object type. -/
def Member.types : Member TsType → List TsType
  | .property _ type _ => [type]
  | .index _ keyType valueType => [keyType, valueType]

/-- The types that bound a type parameter and that it falls back to. -/
def TypeParam.types (param : TypeParam) : List TsType :=
  param.bound.toList ++ param.fallback.toList

namespace TsType

-----------------------------------------------------------------------------------------
-- Types inside a type
-----------------------------------------------------------------------------------------

/-- The types of which a type is made. -/
def parts : TsType → List TsType
  | .named _ args => args
  | .union members => members
  | .function params result receiver => params.map Param.type ++ result :: receiver.toList
  | .object members => members.flatMap Member.types
  | .array element => [element]
  | .primitive _ | .stringLiteral _ | .numberLiteral _ | .booleanLiteral _ => []

/-- A type stands at some depth inside another, or is that type. -/
inductive Inside (inner : TsType) : TsType → Prop where
  | self : Inside inner inner
  | part {outer part : TsType} (mem : part ∈ outer.parts) (below : Inside inner part)
    : Inside inner outer

theorem sizeOf_lt_of_mem_parts {type part : TsType} (mem : part ∈ type.parts)
    : sizeOf part < sizeOf type := by
  cases type with
  | named name args =>
      have listed : part ∈ args := mem
      have below := List.sizeOf_lt_of_mem listed
      simp only [named.sizeOf_spec]
      omega
  | union members =>
      have listed : part ∈ members := mem
      have below := List.sizeOf_lt_of_mem listed
      simp only [union.sizeOf_spec]
      omega
  | function params result receiver =>
      rw [parts, List.mem_append, List.mem_map, List.mem_cons, Option.mem_toList] at mem
      simp only [function.sizeOf_spec]
      rcases mem with ⟨param, listed, rfl⟩ | rfl | rfl
      · have below := List.sizeOf_lt_of_mem listed
        obtain ⟨_, _, _, _⟩ := param
        simp only [Param.mk.sizeOf_spec] at below
        dsimp only
        omega
      · omega
      · simp only [Option.some.sizeOf_spec]
        omega
  | object members =>
      obtain ⟨member, listed, mem⟩ := List.mem_flatMap.mp mem
      have below := List.sizeOf_lt_of_mem listed
      simp only [object.sizeOf_spec]
      cases member with
      | property =>
          cases List.mem_singleton.mp mem
          simp only [Member.property.sizeOf_spec] at below
          omega
      | index =>
          simp only [Member.types, List.mem_cons, List.not_mem_nil, or_false] at mem
          simp only [Member.index.sizeOf_spec] at below
          rcases mem with rfl | rfl <;> omega
  | array element =>
      cases List.mem_singleton.mp mem
      simp only [array.sizeOf_spec]
      omega
  | primitive _ | stringLiteral _ | numberLiteral _ | booleanLiteral _ => cases mem

section parts

variable {P : TsType → Prop} {inner type : TsType} {types : List TsType}

theorem forall_parts_object {members : List (Member TsType)}
    (each : ∀ member ∈ members, ∀ type ∈ member.types, P type)
    : ∀ part ∈ (object members).parts, P part := by
  intro part mem
  obtain ⟨member, listed, mem⟩ := List.mem_flatMap.1 mem
  exact each member listed part mem

theorem forall_parts_function {params : List (Param TsType)} {receiver : Option TsType}
    (ofParams : ∀ param ∈ params, P param.type) (ofResult : P type)
    (ofReceiver : ∀ type ∈ receiver, P type)
    : ∀ part ∈ (function params type receiver).parts, P part := by
  intro part mem
  rw [parts, List.mem_append, List.mem_map, List.mem_cons, Option.mem_toList] at mem
  rcases mem with ⟨param, listed, rfl⟩ | rfl | mem
  · exact ofParams param listed
  · exact ofResult
  · exact ofReceiver part mem

theorem inside_iff : Inside inner type ↔ inner = type ∨ ∃ part ∈ type.parts, Inside inner part := by
  constructor
  · rintro (_ | ⟨mem, below⟩)
    · exact .inl rfl
    · exact .inr ⟨_, mem, below⟩
  · rintro (rfl | ⟨part, mem, below⟩)
    · exact .self
    · exact .part mem below

theorem inside_alternatives (single : ∀ members, inner ≠ .union members)
    : (∃ alternative ∈ type.alternatives, Inside inner alternative) ↔ Inside inner type := by
  cases type with
  | union members =>
      rw [inside_iff]
      simp [alternatives, parts, single members]
  | _ => simp [alternatives]

/-- A union keeps whatever is inside the types it is made of, other unions apart. -/
theorem inside_unionOf (single : ∀ members, inner ≠ .union members)
    : Inside inner (unionOf types) ↔ ∃ type ∈ types, Inside inner type := by
  have members
      : (∃ member ∈ (types.flatMap alternatives).eraseDups, Inside inner member)
        ↔ ∃ type ∈ types, Inside inner type := by
    constructor
    · rintro ⟨member, mem, inside⟩
      obtain ⟨type, listed, mem⟩ := List.mem_flatMap.1 (List.mem_eraseDups.1 mem)
      exact ⟨type, listed, (inside_alternatives single).1 ⟨member, mem, inside⟩⟩
    · rintro ⟨type, listed, inside⟩
      obtain ⟨member, mem, inside⟩ := (inside_alternatives single).2 inside
      exact ⟨member, List.mem_eraseDups.2 (List.mem_flatMap.2 ⟨type, listed, mem⟩), inside⟩
  rw [← members, unionOf]
  split
  · rename_i alone
    simp [alone]
  · rw [inside_iff]
    simp [parts, single]

end parts

/-- What holds of a type if it holds of its parts holds of every type. -/
theorem parts_induction {motive : TsType → Prop}
    (step : ∀ type, (∀ part ∈ type.parts, motive part) → motive type) (type : TsType)
    : motive type := by
  induction size : sizeOf type using Nat.strongRecOn generalizing type with
  | ind size ih =>
      refine step type fun part mem => ih (sizeOf part) ?_ part rfl
      exact size ▸ sizeOf_lt_of_mem_parts mem

/-- The members of a union in normal form. -/
structure NormalMembers (members : List TsType) : Prop where
  several : 2 ≤ members.length
  distinct : members.Nodup
  flat : ∀ member ∈ members, ∀ others, member ≠ .union others

/-- Every union at any depth inside a type is in normal form. -/
def Normal (type : TsType) : Prop :=
  ∀ members, Inside (.union members) type → NormalMembers members

variable {type : TsType} {types : List TsType}

theorem normal_iff
    : type.Normal
      ↔ (∀ members, type = .union members → NormalMembers members)
        ∧ ∀ part ∈ type.parts, part.Normal := by
  constructor
  · intro normal
    constructor
    · rintro members rfl
      exact normal members .self
    · intro part mem members inside
      exact normal members (.part mem inside)
  · rintro ⟨own, below⟩ members (_ | ⟨mem, inside⟩)
    · exact own members rfl
    · exact below _ mem members inside

theorem normal_of_parts (single : ∀ members, type ≠ .union members)
    (below : ∀ part ∈ type.parts, part.Normal)
    : type.Normal :=
  normal_iff.2 ⟨fun members same => absurd same (single members), below⟩

theorem normal_primitive (kind : Primitive) : Normal (.primitive kind) :=
  normal_of_parts nofun nofun

theorem normal_any : Normal .any :=
  normal_primitive .any

theorem normal_named {name : String} (below : ∀ type ∈ types, type.Normal)
    : Normal (.named name types) :=
  normal_of_parts nofun below

theorem normal_reference (name : String) : Normal (.reference name) :=
  normal_named nofun

theorem normal_array (below : type.Normal) : Normal (.array type) :=
  normal_of_parts nofun (by simpa [parts] using below)

theorem normal_object {members : List (Member TsType)}
    (below : ∀ member ∈ members, ∀ type ∈ member.types, type.Normal)
    : Normal (.object members) :=
  normal_of_parts nofun (forall_parts_object below)

theorem normal_function {params : List (Param TsType)} {receiver : Option TsType}
    (ofParams : ∀ param ∈ params, param.type.Normal) (ofResult : type.Normal)
    (ofReceiver : ∀ type ∈ receiver, type.Normal)
    : Normal (.function params type receiver) :=
  normal_of_parts nofun (forall_parts_function ofParams ofResult ofReceiver)

-----------------------------------------------------------------------------------------
-- Unions
-----------------------------------------------------------------------------------------

/-- What a type in normal form contributes to a union is in normal form, and no union. -/
theorem Normal.alternatives (normal : type.Normal)
    : ∀ alternative ∈ type.alternatives,
        alternative.Normal ∧ ∀ members, alternative ≠ .union members := by
  intro alternative mem
  cases type with
  | union members =>
      obtain ⟨own, below⟩ := normal_iff.1 normal
      exact ⟨below alternative mem, (own members rfl).flat alternative mem⟩
  | _ =>
      cases List.mem_singleton.1 mem
      exact ⟨normal, nofun⟩

theorem Normal.alternatives_ne_nil (normal : type.Normal) : type.alternatives ≠ [] := by
  cases type with
  | union members =>
      have several := (normal_iff.1 normal).1 members rfl |>.several
      rintro nothing
      rw [TsType.alternatives] at nothing
      simp [nothing] at several
  | _ => exact List.cons_ne_nil _ _

theorem nodup_eraseDups {α : Type} [BEq α] [LawfulBEq α] (items : List α)
    : items.eraseDups.Nodup := by
  cases items with
  | nil => exact List.nodup_nil
  | cons item items =>
      rw [List.eraseDups_cons, List.nodup_cons]
      refine ⟨?_, nodup_eraseDups _⟩
      rw [List.mem_eraseDups, List.mem_filter]
      simp
  termination_by items.length
  decreasing_by
    exact Nat.lt_succ_of_le (List.length_filter_le _ _)

/-- The union of types in normal form is in normal form, if there are any. -/
theorem normal_unionOf (some : types ≠ []) (each : ∀ type ∈ types, type.Normal)
    : (unionOf types).Normal := by
  have alternatives : ∀ member ∈ (types.flatMap TsType.alternatives).eraseDups,
      member.Normal ∧ ∀ members, member ≠ .union members := by
    intro member mem
    obtain ⟨type, listed, mem⟩ := List.mem_flatMap.1 (List.mem_eraseDups.1 mem)
    exact (each type listed).alternatives member mem
  have nonempty : (types.flatMap TsType.alternatives).eraseDups ≠ [] := by
    obtain ⟨type, types, rfl⟩ := List.exists_cons_of_ne_nil some
    obtain ⟨member, mem⟩ := List.exists_mem_of_ne_nil _
      (each type (List.mem_cons_self ..)).alternatives_ne_nil
    have listed : member ∈ (type :: types).flatMap TsType.alternatives :=
      List.mem_flatMap.2 ⟨type, List.mem_cons_self .., mem⟩
    exact List.ne_nil_of_mem (List.mem_eraseDups.2 listed)
  have distinct := nodup_eraseDups (types.flatMap TsType.alternatives)
  rw [unionOf]
  split
  · rename_i member alone
    exact (alternatives member (by rw [alone]; exact List.mem_singleton_self member)).1
  · rename_i members several
    refine normal_iff.2 ⟨?_, fun member mem => (alternatives member mem).1⟩
    rintro _ ⟨⟩
    refine ⟨?_, distinct, fun member mem => (alternatives member mem).2⟩
    generalize (types.flatMap TsType.alternatives).eraseDups = members at nonempty several
    rcases members with _ | ⟨member, _ | ⟨other, members⟩⟩
    · exact absurd rfl nonempty
    · exact absurd rfl (several member)
    · exact Nat.le_add_left 2 _

theorem flatMap_alternatives {members : List TsType}
    (flat : ∀ member ∈ members, ∀ others, member ≠ .union others)
    : members.flatMap TsType.alternatives = members := by
  induction members with
  | nil => rfl
  | cons member members ih =>
      have own : member.alternatives = [member] := by
        cases member with
        | union others => exact absurd rfl (flat _ (List.mem_cons_self ..) others)
        | _ => rfl
      rw [List.flatMap_cons, own, ih fun other mem => flat other (List.mem_cons_of_mem _ mem)]
      rfl

theorem eraseDups_of_nodup (distinct : types.Nodup) : types.eraseDups = types := by
  induction types with
  | nil => rfl
  | cons type types ih =>
      obtain ⟨fresh, distinct⟩ := List.nodup_cons.1 distinct
      have others : types.filter (fun other => !other == type) = types := by
        rw [List.filter_eq_self]
        rintro other mem
        simp only [Bool.not_eq_true', beq_eq_false_iff_ne]
        rintro rfl
        exact fresh mem
      rw [List.eraseDups_cons, others, ih distinct]

/-- The union of the members of one in normal form is that union. -/
theorem NormalMembers.unionOf {members : List TsType} (normal : NormalMembers members)
    : unionOf members = .union members := by
  rw [TsType.unionOf, flatMap_alternatives normal.flat, eraseDups_of_nodup normal.distinct]
  split
  · have several := normal.several
    simp at several
  · rfl

/-- A union is a type that is no union exactly if all the types it is made of are that type. -/
theorem unionOf_eq_iff (single : ∀ members, type ≠ .union members) (some : types ≠ [])
    (each : ∀ type ∈ types, type.Normal)
    : unionOf types = type ↔ ∀ other ∈ types, other = type := by
  constructor
  · intro same other listed
    have only : ∀ alternative ∈ other.alternatives, alternative = type := by
      intro alternative mem
      have kept : alternative ∈ (types.flatMap TsType.alternatives).eraseDups :=
        List.mem_eraseDups.2 (List.mem_flatMap.2 ⟨other, listed, mem⟩)
      rw [TsType.unionOf] at same
      split at same
      · rename_i alone
        rw [alone, List.mem_singleton, same] at kept
        exact kept
      · exact absurd same.symm (single _)
    cases other with
    | union members =>
        have normal := (normal_iff.1 (each _ listed)).1 members rfl
        obtain ⟨several, distinct, -⟩ := normal
        rcases members with _ | ⟨first, _ | ⟨second, members⟩⟩
        · cases several
        · simp at several
        · have first : first = type := only _ (by simp [TsType.alternatives])
          have second : second = type := only _ (by simp [TsType.alternatives])
          simp [first, second] at distinct
    | _ => exact only _ (List.mem_singleton_self _)
  · intro same
    have flat : types.flatMap TsType.alternatives = types :=
      flatMap_alternatives fun other mem => (same other mem).symm ▸ single
    obtain ⟨first, rest, rfl⟩ := List.exists_cons_of_ne_nil some
    obtain ⟨rfl, same⟩ := List.forall_mem_cons.1 same
    have others : rest.filter (fun other => !other == first) = [] := by
      simpa [List.filter_eq_nil_iff] using same
    rw [TsType.unionOf, flat, List.eraseDups_cons, others]
    rfl

theorem Normal.orNull (normal : type.Normal) : type.orNull.Normal :=
  normal_unionOf (List.cons_ne_nil _ _) (by simpa using ⟨normal, normal_primitive .null⟩)

theorem Normal.orUndefined (normal : type.Normal) : type.orUndefined.Normal :=
  normal_unionOf (List.cons_ne_nil _ _) (by simpa using ⟨normal, normal_primitive .undefined⟩)

theorem orNull_ne (single : ∀ members, type ≠ .union members) (other : type ≠ .primitive .null)
    {inner : TsType} (normal : inner.Normal)
    : inner.orNull ≠ type := by
  rw [TsType.orNull, ne_eq, unionOf_eq_iff single (List.cons_ne_nil _ _)]
  · intro same
    exact other (same _ (by simp)).symm
  · simpa using ⟨normal, normal_primitive .null⟩

end TsType

end Typings
