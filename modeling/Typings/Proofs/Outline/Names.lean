import Typings.Outline

/-! The names of an outline. Its entries are put in one after the other, each below the name that
its own name begins with; so the outline has these names once each, in the order in which they are
first used.
-/

namespace Typings.Outline

open Doclet (Entry)

/-- The part of a dotted name before its first dot, without the brackets behind it. -/
def rootName (name : String) : String :=
  (Step.ofPart (name.toList.takeWhile (· != '.'))).name

/-- The names under which entries are put in an outline, each once and the first used first. -/
def rootNames (entries : List Entry) : List String :=
  (entries.map fun entry => rootName entry.name).eraseDups

theorem head?_split (separator : Char) (cs : List Char)
    : (Text.split separator cs).head? = some (cs.takeWhile (· != separator)) := by
  induction cs with
  | nil => rfl
  | cons c cs ih =>
      rw [Text.split]
      by_cases ends : c = separator
      · simp [ends]
      · obtain ⟨part, parts, split⟩ := List.exists_cons_of_ne_nil (Text.split_ne_nil separator cs)
        rw [split, List.head?_cons, Option.some.injEq] at ih
        simp [ends, split, ih]

theorem exists_steps (name : String)
    : ∃ first more, steps name = first :: more ∧ first.name = rootName name := by
  obtain ⟨part, parts, split⟩ := List.exists_cons_of_ne_nil (Text.split_ne_nil '.' name.toList)
  have head := head?_split '.' name.toList
  rw [split, List.head?_cons, Option.some.injEq] at head
  exact ⟨_, _, by rw [steps, split]; rfl, by rw [rootName, head]⟩

theorem map_name_update {name : String} {change : Outline → Outline}
    (keeps : ∀ item, (change item).name = item.name) (items : List Outline)
    : (update name change items).map Outline.name
      = items.map Outline.name ++ [name].removeAll (items.map Outline.name) := by
  induction items with
  | nil => simp [update, keeps, bare]
  | cons item items ih =>
      unfold update
      split
      · rename_i same
        simp [keeps, same, List.cons_removeAll]
      · rename_i other
        have other : name ≠ item.name := fun same => other same.symm
        simp [ih, List.removeAll_cons, other]

/-- An entry is put below the first part of its name, which comes last if it is new. -/
theorem map_name_insert (entry : Entry) (items : List Outline)
    : (insert entry (steps entry.name) items).map Outline.name
      = items.map Outline.name ++ [rootName entry.name].removeAll (items.map Outline.name) := by
  obtain ⟨first, more, found, root⟩ := exists_steps entry.name
  rw [found, ← root]
  cases more with
  | nil | cons =>
      unfold insert
      apply map_name_update
      exact fun _ => rfl

theorem eraseDups_concat (names : List String) (name : String)
    : (names ++ [name]).eraseDups = names.eraseDups ++ [name].removeAll names.eraseDups := by
  rw [List.eraseDups_append]
  by_cases known : name ∈ names <;> simp [List.cons_removeAll, List.eraseDups_cons, known]

/-- By induction on the entries, of which `earlier` have been put in. -/
theorem map_name_foldl (entries earlier : List Entry) {items : List Outline}
    (names : items.map Outline.name = rootNames earlier)
    : (entries.foldl (fun items entry => insert entry (steps entry.name) items) items).map
          Outline.name
        = rootNames (earlier ++ entries) := by
  induction entries generalizing earlier items with
  | nil => simpa using names
  | cons entry entries ih =>
      rw [List.foldl_cons, List.append_cons]
      refine ih (earlier ++ [entry]) ?_
      rw [map_name_insert, names, rootNames, rootNames, List.map_append, List.map_singleton,
        eraseDups_concat]

theorem map_name_ofEntries (entries : List Entry)
    : (ofEntries entries).map Outline.name = rootNames entries :=
  map_name_foldl entries [] rfl

example
    : (ofEntries [{ name := "items[].id" }, { name := "done" }, { name := "items" }]).map name
      = ["items", "done"] := by
  decide +kernel

end Typings.Outline
