import Mathlib.Data.List.Basic
import Mathlib.Data.List.Induction
import Typings.Proofs.TsType.NormalForm

/-! Unions as sets in the order of first appearance. What a union is made of may be united in part
before: neither its members nor their order depend on that.
-/

namespace Typings.TsType

-----------------------------------------------------------------------------------------
-- First appearances
-----------------------------------------------------------------------------------------

/-- The items of `all`, each once, in the order in which they first appear there. -/
structure FirstAppearances {α : Type} [BEq α] (items all : List α) : Prop where
  mem_iff : ∀ item, item ∈ items ↔ item ∈ all
  once : items.Nodup
  inOrder : items.Pairwise fun item later => all.idxOf item < all.idxOf later

variable {α : Type} [BEq α] [LawfulBEq α]

theorem eraseDups_concat_of_mem {item : α} {items : List α} (old : item ∈ items)
    : (items ++ [item]).eraseDups = items.eraseDups := by
  rw [List.eraseDups_append]
  simp [List.cons_removeAll, old]

theorem eraseDups_concat_of_not_mem {item : α} {items : List α} (new : item ∉ items)
    : (items ++ [item]).eraseDups = items.eraseDups ++ [item] := by
  rw [List.eraseDups_append]
  simp [List.cons_removeAll, new, List.eraseDups_cons]

/-- Each item that comes last is dropped or comes last, by induction on the list from its end. -/
theorem inOrder_eraseDups (items : List α)
    : items.eraseDups.Pairwise fun item later => items.idxOf item < items.idxOf later := by
  induction items using List.reverseRecOn with
  | nil => exact .nil
  | append_singleton items last ih =>
      have before
          : items.eraseDups.Pairwise fun item later =>
              (items ++ [last]).idxOf item < (items ++ [last]).idxOf later := by
        refine ih.imp_of_mem fun {item later} itemMem laterMem less => ?_
        rwa [List.idxOf_append_of_mem (List.mem_eraseDups.mp itemMem),
          List.idxOf_append_of_mem (List.mem_eraseDups.mp laterMem)]
      by_cases old : last ∈ items
      · rwa [eraseDups_concat_of_mem old]
      · rw [eraseDups_concat_of_not_mem old, List.pairwise_append]
        refine ⟨before, List.pairwise_singleton _ _, fun item itemMem later laterMem => ?_⟩
        obtain rfl := List.mem_singleton.mp laterMem
        have itemOld := List.mem_eraseDups.mp itemMem
        rw [List.idxOf_append_of_mem itemOld, List.idxOf_append_of_notMem old, List.idxOf_cons_self]
        exact List.idxOf_lt_length_of_mem itemOld

theorem firstAppearances_eraseDups (items : List α) : FirstAppearances items.eraseDups items where
  mem_iff _ := List.mem_eraseDups
  once := nodup_eraseDups items
  inOrder := inOrder_eraseDups items

/-- Repetitions may be dropped in each of two parts before they are dropped in the whole, by
induction on the second part from its end.
-/
theorem eraseDups_append_eraseDups (items others : List TsType)
    : (items.eraseDups ++ others.eraseDups).eraseDups = (items ++ others).eraseDups := by
  induction others using List.reverseRecOn with
  | nil =>
      rw [List.eraseDups_nil, List.append_nil, List.append_nil]
      exact eraseDups_of_nodup (nodup_eraseDups items)
  | append_singleton others last ih =>
      rw [← List.append_assoc]
      by_cases old : last ∈ others
      · rw [eraseDups_concat_of_mem old, ih,
          eraseDups_concat_of_mem (List.mem_append_right _ old)]
      · rw [eraseDups_concat_of_not_mem old, ← List.append_assoc]
        by_cases early : last ∈ items
        · rw [eraseDups_concat_of_mem (List.mem_append_left _ (List.mem_eraseDups.mpr early)), ih,
            eraseDups_concat_of_mem (List.mem_append_left _ early)]
        · rw [eraseDups_concat_of_not_mem (by simp [early, old]), ih,
            eraseDups_concat_of_not_mem (by simp [early, old])]

-----------------------------------------------------------------------------------------
-- Unions of unions
-----------------------------------------------------------------------------------------

variable {type : TsType} {types others : List TsType}

/-- What types in normal form contribute to a union are no unions. -/
theorem flat_alternatives (each : ∀ type ∈ types, type.Normal)
    : ∀ member ∈ types.flatMap alternatives, ∀ members, member ≠ .union members := by
  intro member mem
  obtain ⟨type, listed, mem⟩ := List.mem_flatMap.mp mem
  exact ((each type listed).alternatives member mem).2

/-- A union contributes to another one what it is made of, also if it collapses to one type. -/
theorem alternatives_unionOf (each : ∀ type ∈ types, type.Normal)
    : (unionOf types).alternatives = (types.flatMap alternatives).eraseDups := by
  rw [unionOf]
  split
  · rename_i member alone
    have listed : member ∈ types.flatMap alternatives :=
      List.mem_eraseDups.mp (alone ▸ List.mem_singleton_self member)
    rw [alone]
    cases member with
    | union members => exact absurd rfl (flat_alternatives each _ listed members)
    | _ => rfl
  · rfl

theorem unionOf_append (each : ∀ type ∈ types, type.Normal)
    (eachOther : ∀ type ∈ others, type.Normal)
    : unionOf (types ++ others) = unionOf [unionOf types, unionOf others] := by
  rw [unionOf, unionOf]
  simp only [List.flatMap_cons, List.flatMap_nil, List.append_nil, List.flatMap_append,
    alternatives_unionOf each, alternatives_unionOf eachOther, eraseDups_append_eraseDups]

theorem Normal.unionOf_singleton (normal : type.Normal) : unionOf [type] = type := by
  cases type with
  | union members =>
      have own := (normal_iff.mp normal).1 members rfl
      have same : unionOf [.union members] = unionOf members := by
        rw [unionOf, unionOf, flatMap_alternatives own.flat, List.flatMap_cons,
          List.flatMap_nil, List.append_nil, TsType.alternatives]
      rw [same, own.unionOf]
  | _ =>
      refine unionOf_singleton_of_ne fun members same => ?_
      cases same

/-- Types in normal form may be united in two parts. The members of their union are what they
contribute, each once and in the order of first appearance, and a type in normal form is the union
of itself alone.
-/
theorem unionOf_gathers {types others : List TsType} (each : ∀ type ∈ types, type.Normal)
    (eachOther : ∀ type ∈ others, type.Normal)
    : unionOf (types ++ others) = unionOf [unionOf types, unionOf others]
      ∧ FirstAppearances (unionOf types).alternatives (types.flatMap alternatives)
      ∧ ∀ type : TsType, type.Normal → unionOf [type] = type := by
  refine ⟨unionOf_append each eachOther, ?_, fun _ normal => normal.unionOf_singleton⟩
  rw [alternatives_unionOf each]
  exact firstAppearances_eraseDups _

/-- Two equal types that collapse to one, and a union that has it again. -/
theorem unionOf_gathers_collapsed
    : let string := TsType.primitive .string
      let nullable := TsType.union [.primitive .null, string]
      let types := [string, string]
      let others := [nullable, .primitive .number]
      (∀ type ∈ types, type.Normal)
      ∧ (∀ type ∈ others, type.Normal)
      ∧ unionOf types = string
      ∧ unionOf [unionOf types, unionOf others]
        = .union [string, .primitive .null, .primitive .number]
      ∧ unionOf (types ++ others) = unionOf [unionOf types, unionOf others]
      ∧ FirstAppearances (unionOf types).alternatives (types.flatMap alternatives)
      ∧ unionOf [nullable] = nullable := by
  intro string nullable types others
  have nullableNormal : nullable.Normal := by
    refine normal_iff.mpr ⟨fun members same => ?_, by
      simp [nullable, string, parts, normal_primitive]⟩
    obtain rfl := union.inj same
    exact ⟨by decide, by simp [string], by simp [string]⟩
  have each : ∀ type ∈ types, type.Normal := by simp [types, string, normal_primitive]
  have eachOther : ∀ type ∈ others, type.Normal := by
    simp [others, nullableNormal, normal_primitive]
  obtain ⟨united, members, single⟩ := unionOf_gathers each eachOther
  exact ⟨each, eachOther, by decide +kernel, by decide +kernel, united, members,
    single nullable nullableNormal⟩

end Typings.TsType
