import Mathlib.Data.List.Induction
import Typings.Proofs.Outline.Names

/-! The outline of a list of entries is the trie of their dotted names. What is put in below one
name depends only on the entries that lead through it; so, by induction along a path, each name of
the outline tells which entries lead there, which of them end there, and in which order they came.
-/

namespace Typings.Outline

open Doclet (Entry)

-----------------------------------------------------------------------------------------
-- Paths
-----------------------------------------------------------------------------------------

/-- The parts of the dotted name of an entry. -/
def parts (entry : Entry) : List (List Char) :=
  entry.name.toList.splitOn '.'

/-- What stands behind the name of an array. -/
def arrayMark : List Char :=
  ['[', ']']

/-- The name in a part, without one pair of brackets at its end. -/
def nameIn (part : List Char) : String :=
  String.ofList (if arrayMark <:+ part then part.take (part.length - 2) else part)

/-- The path that the dotted name of an entry writes. -/
def pathOf (entry : Entry) : List String :=
  (parts entry).map nameIn

theorem steps_eq_map_parts (entry : Entry) : steps entry.name = (parts entry).map Step.ofPart := by
  rw [steps, Text.split_eq_splitOn, parts]

theorem ofPart_eq (part : List Char)
    : Step.ofPart part = ⟨nameIn part, decide (arrayMark <:+ part)⟩ := by
  rw [Step.ofPart, nameIn, ← arrayMark]
  simp only [List.isSuffixOf_iff_suffix]
  split <;> simp_all

theorem name_ofPart : Step.name ∘ Step.ofPart = nameIn :=
  funext fun part => congrArg Step.name (ofPart_eq part)

/-- The name behind `path` in a longer path that begins with it. -/
def next? : List String → List String → Option String
  | [], whole => whole.head?
  | name :: path, other :: whole => if other = name then next? path whole else none
  | _ :: _, [] => none

theorem next?_eq_some_iff {path whole : List String} {name : String}
    : next? path whole = some name ↔ path ++ [name] <+: whole := by
  induction path generalizing whole with
  | nil => cases whole <;> simp [next?, eq_comm]
  | cons first path ih =>
      cases whole with
      | nil => simp [next?]
      | cons other whole =>
          rw [next?, List.cons_append, List.cons_prefix_cons]
          by_cases same : other = first
          · rw [if_pos same, ih]
            simp [same]
          · rw [if_neg same]
            simp [Ne.symm same]

theorem head?_of_next? {first name : String} {path whole : List String}
    (mentions : next? (first :: path) whole = some name)
    : whole.head? = some first := by
  obtain ⟨more, rfl⟩ := next?_eq_some_iff.mp mentions
  rfl

-----------------------------------------------------------------------------------------
-- Rows of steps
-----------------------------------------------------------------------------------------

/-- The steps that are left to an entry. -/
structure Row where
  steps : List Step
  entry : Entry

namespace Row

def path (row : Row) : List String :=
  row.steps.map Step.name

/-- What is left of a row behind a first step with this name, if there is more. -/
def enter? (name : String) : Row → Option Row
  | ⟨step :: more, entry⟩ => if step.name = name ∧ more ≠ [] then some ⟨more, entry⟩ else none
  | ⟨[], _⟩ => none

/-- The entry that a row leads to, if it ends at a path. -/
def endsAt? (path : List String) (row : Row) : Option Entry :=
  if row.path = path then some row.entry else none

/-- A row has a step with brackets at a path, and goes on behind it. -/
def BracketsAt (row : Row) (path : List String) : Prop :=
  ∃ before step after,
    row.steps = before ++ step :: after
    ∧ after ≠ []
    ∧ (before ++ [step]).map Step.name = path
    ∧ step.brackets = true

variable {row : Row} {name : String} {path : List String}

theorem next?_enter (name : String) (path : List String) (row : Row)
    : ((row.enter? name).bind fun left => next? path left.path)
      = next? (name :: path) row.path := by
  rcases row with ⟨_ | ⟨step, more⟩, entry⟩
  · rfl
  · by_cases same : step.name = name
    · rcases more with _ | ⟨next, more⟩
      · cases path <;> simp [enter?, Row.path, next?]
      · simp [enter?, Row.path, next?, same]
    · simp [enter?, Row.path, next?, same]

theorem endsAt?_enter (nonempty : path ≠ []) (name : String) (row : Row)
    : (row.enter? name).bind (endsAt? path) = row.endsAt? (name :: path) := by
  rcases row with ⟨_ | ⟨step, more⟩, entry⟩
  · rfl
  · by_cases same : step.name = name
    · rcases more with _ | ⟨next, more⟩
      · simp [enter?, endsAt?, Row.path, nonempty.symm]
      · simp [enter?, endsAt?, Row.path, same]
    · simp [enter?, endsAt?, Row.path, same]

theorem bracketsAt_enter (nonempty : path ≠ [])
    : (∃ left ∈ row.enter? name, left.BracketsAt path) ↔ row.BracketsAt (name :: path) := by
  rcases row with ⟨_ | ⟨first, more⟩, entry⟩
  · simp [enter?, BracketsAt]
  constructor
  · rintro ⟨left, entered, before, step, after, split, further, leads, brackets⟩
    obtain ⟨⟨same, -⟩, left_eq⟩ := Option.ite_none_right_eq_some.1 entered
    obtain rfl := Option.some.inj left_eq
    refine ⟨first :: before, step, after, congrArg (first :: ·) split, further, ?_, brackets⟩
    rw [List.cons_append, List.map_cons, same, leads]
  · rintro ⟨before, step, after, split, further, leads, brackets⟩
    cases before with
    | nil => simp [nonempty.symm] at leads
    | cons other before =>
        obtain ⟨rfl, rfl⟩ := List.cons.inj split
        obtain ⟨same, leads⟩ := List.cons.inj leads
        refine ⟨⟨before ++ step :: after, entry⟩, ?_, before, step, after, rfl, further, leads,
          brackets⟩
        exact if_pos ⟨same, by simp⟩

/-- A row has brackets at its first step exactly if more follows. -/
theorem bracketsAt_singleton {step : Step} {more : List Step} {entry : Entry}
    : BracketsAt ⟨step :: more, entry⟩ [name]
      ↔ step.name = name ∧ more ≠ [] ∧ step.brackets = true := by
  constructor
  · rintro ⟨_ | ⟨first, before⟩, step, after, split, further, leads, brackets⟩
    · obtain ⟨rfl, rfl⟩ := List.cons.inj split
      exact ⟨List.head_eq_of_cons_eq leads, further, brackets⟩
    · simp at leads
  · rintro ⟨same, further, brackets⟩
    exact ⟨[], step, more, rfl, further, by simp [same], brackets⟩

/-- A row that begins with another name neither ends at a name nor leads through it. -/
theorem passes_of_head (other : row.path.head? ≠ some name)
    : row.endsAt? [name] = none ∧ ¬ row.BracketsAt [name] ∧ row.enter? name = none := by
  rcases row with ⟨_ | ⟨step, more⟩, entry⟩
  · exact ⟨rfl, by simp [BracketsAt], rfl⟩
  · have differ : step.name ≠ name := by simpa [Row.path] using other
    simp [endsAt?, Row.path, bracketsAt_singleton, enter?, differ]

end Row

section ordered

variable {α : Type} {mention : α → Option String}

/-- Names stand in the order of the rows that are the first to mention them. -/
def Ordered (mention : α → Option String) (rows : List α) (names : List String) : Prop :=
  names.Pairwise fun earlier later =>
    rows.findIdx (mention · = some earlier) < rows.findIdx (mention · = some later)

theorem Ordered.nodup {rows : List α} {names : List String} (ordered : Ordered mention rows names)
    : names.Nodup := by
  apply ordered.imp
  rintro earlier later before rfl
  exact Nat.lt_irrefl _ before

theorem ordered_names (mention : α → Option String) (rows : List α)
    : Ordered mention rows (rows.filterMap mention).eraseDups := by
  induction rows using List.reverseRecOn with
  | nil => exact .nil
  | append_singleton rows row ih =>
      have known (name : String) (mem : name ∈ (rows.filterMap mention).eraseDups)
          : rows.findIdx (mention · = some name) < rows.length := by
        obtain ⟨row, listed, names⟩ := List.mem_filterMap.mp (List.mem_eraseDups.mp mem)
        exact List.findIdx_lt_length_of_exists ⟨row, listed, decide_eq_true names⟩
      have kept : Ordered mention (rows ++ [row]) (rows.filterMap mention).eraseDups := by
        apply ih.imp_of_mem
        intro earlier later first second before
        rwa [List.findIdx_append, List.findIdx_append, if_pos (known _ first),
          if_pos (known _ second)]
      rw [List.filterMap_append]
      cases mentions : mention row with
      | none => simpa [mentions] using kept
      | some name =>
          rw [List.filterMap_cons_some mentions, List.filterMap_nil, eraseDups_concat]
          by_cases listed : name ∈ (rows.filterMap mention).eraseDups
          · simpa [List.cons_removeAll, listed] using kept
          · refine List.pairwise_append.mpr ⟨kept, ?_, ?_⟩
            · simp [List.cons_removeAll, listed]
            · intro earlier first later second
              obtain rfl : later = name := by simpa [List.cons_removeAll, listed] using second
              have new : ¬ rows.findIdx (mention · = some later) < rows.length := by
                rw [List.findIdx_lt_length]
                rintro ⟨other, mem, names⟩
                exact listed (List.mem_eraseDups.mpr
                  (List.mem_filterMap.mpr ⟨other, mem, of_decide_eq_true names⟩))
              rw [List.findIdx_append, List.findIdx_append, if_pos (known _ first), if_neg new]
              exact Nat.lt_add_left _ (known _ first)

end ordered

-----------------------------------------------------------------------------------------
-- Tries
-----------------------------------------------------------------------------------------

/-- The first entry to which a row leads by just this path. -/
def entryAt? (path : List String) (rows : List Row) : Option Entry :=
  (rows.filterMap (Row.endsAt? path)).head?

mutual
/-- Rows make items: one for each name that they begin with, in the order of its first use. -/
inductive Makes : List Row → List Outline → Prop
  | of {rows : List Row} {items : List Outline}
    (names : items.map Outline.name = (rows.filterMap fun row => row.path.head?).eraseDups)
    (fits : ∀ item ∈ items, Fits rows item)
    : Makes rows items

/-- An item fits rows: it has the first entry that ends there, what the other rows make of their
further steps below it, and is an array if one of these has brackets there.
-/
inductive Fits : List Row → Outline → Prop
  | of {rows : List Row} {item : Outline}
    (entry : item.entry = entryAt? [item.name] rows)
    (array : item.array = true ↔ ∃ row ∈ rows, row.BracketsAt [item.name])
    (below : Makes (rows.filterMap (Row.enter? item.name)) item.items)
    : Fits rows item
end

variable {rows : List Row} {row : Row} {items : List Outline} {item : Outline} {name : String}

theorem makes_nil : Makes [] [] :=
  .of rfl nofun

/-- A row that begins with another name changes nothing about an item. -/
theorem Fits.other (fits : Fits rows item) (other : row.path.head? ≠ some item.name)
    : Fits (rows ++ [row]) item := by
  obtain ⟨entry, array, below⟩ := fits
  obtain ⟨ends, brackets, enters⟩ := Row.passes_of_head other
  constructor
  · rw [entry, entryAt?, entryAt?, List.filterMap_append, List.filterMap_cons_none ends,
      List.filterMap_nil, List.append_nil]
  · rw [array]
    simp [or_and_right, exists_or, brackets]
  · rw [List.filterMap_append, List.filterMap_cons_none enters, List.filterMap_nil,
      List.append_nil]
    exact below

/-- A name with which no row begins has nothing yet. -/
theorem fits_bare (new : ∀ row ∈ rows, row.path.head? ≠ some name) : Fits rows (bare name) := by
  induction rows using List.reverseRecOn with
  | nil => exact .of rfl (by simp [bare]) makes_nil
  | append_singleton rows row ih =>
      apply Fits.other
      · exact ih fun other mem => new other (List.mem_append_left _ mem)
      · exact new row (by simp)

/-- What an entry changes about the item with the name of its first step. -/
def place (entry : Entry) (step : Step) (more : List Step) (item : Outline) : Outline :=
  if more = [] then { item with entry := item.entry.or (some entry) }
  else { item with array := item.array || step.brackets, items := insert entry more item.items }

theorem insert_cons (entry : Entry) (step : Step) (more : List Step) (items : List Outline)
    : insert entry (step :: more) items = update step.name (place entry step more) items := by
  cases more <;> rfl

theorem name_place (entry : Entry) (step : Step) (more : List Step) (item : Outline)
    : (place entry step more item).name = item.name := by
  unfold place
  split <;> rfl

theorem Fits.place {step : Step} {more : List Step} {entry : Entry} (fits : Fits rows item)
    (same : step.name = item.name)
    (inserted : ∀ {rows items}, Makes rows items → more ≠ []
      → Makes (rows ++ [⟨more, entry⟩]) (insert entry more items))
    : Fits (rows ++ [⟨step :: more, entry⟩]) (place entry step more item) := by
  obtain ⟨ends, array, below⟩ := fits
  by_cases last : more = []
  · subst last
    rw [Outline.place, if_pos rfl]
    constructor
    · dsimp only
      rw [ends, entryAt?, entryAt?, List.filterMap_append, List.head?_append]
      simp [Row.endsAt?, Row.path, same]
    · simpa [or_and_right, exists_or, Row.bracketsAt_singleton] using array
    · simpa [Row.enter?] using below
  · rw [Outline.place, if_neg last]
    constructor
    · dsimp only
      rw [ends, entryAt?, entryAt?, List.filterMap_append, List.head?_append]
      simp [Row.endsAt?, Row.path, last]
    · simp [or_and_right, exists_or, Row.bracketsAt_singleton, array, last, same]
    · simpa [Row.enter?, same, last] using inserted below last

/-- An item after a change was there before, or is the changed one. -/
theorem mem_update {change : Outline → Outline} (distinct : (items.map Outline.name).Nodup)
    (mem : item ∈ update name change items)
    : (item ∈ items ∧ item.name ≠ name)
      ∨ ∃ old, item = change old ∧ old.name = name
        ∧ (old ∈ items ∨ old = bare name ∧ name ∉ items.map Outline.name) := by
  induction items with
  | nil =>
      rw [update, List.mem_singleton] at mem
      exact .inr ⟨bare name, mem, rfl, .inr ⟨rfl, by simp⟩⟩
  | cons first items ih =>
      rw [List.map_cons, List.nodup_cons] at distinct
      rw [update] at mem
      split at mem
      · rename_i same
        rcases List.mem_cons.mp mem with rfl | later
        · exact .inr ⟨first, rfl, same, .inl List.mem_cons_self⟩
        · refine .inl ⟨List.mem_cons_of_mem _ later, ?_⟩
          rintro rfl
          exact distinct.1 (same ▸ List.mem_map_of_mem later)
      · rename_i other
        rcases List.mem_cons.mp mem with rfl | later
        · exact .inl ⟨List.mem_cons_self, other⟩
        · rcases ih distinct.2 later with ⟨kept, differs⟩ | ⟨old, changed, named, found⟩
          · exact .inl ⟨List.mem_cons_of_mem _ kept, differs⟩
          · refine .inr ⟨old, changed, named, ?_⟩
            rcases found with kept | ⟨new, missing⟩
            · exact .inl (List.mem_cons_of_mem _ kept)
            · refine .inr ⟨new, ?_⟩
              rw [List.map_cons, List.mem_cons]
              rintro (same | listed)
              · exact other same.symm
              · exact missing listed

/-- The entry of one more row is put below the names of its steps. -/
theorem Makes.insert {steps : List Step} {entry : Entry} (known : Makes rows items)
    (nonempty : steps ≠ [])
    : Makes (rows ++ [⟨steps, entry⟩]) (insert entry steps items) := by
  induction steps generalizing rows items with
  | nil => exact absurd rfl nonempty
  | cons step more ih =>
      obtain ⟨names, fits⟩ := known
      have distinct : (items.map Outline.name).Nodup := names ▸ (ordered_names _ rows).nodup
      rw [insert_cons]
      constructor
      · rw [map_name_update (name_place entry step more), names, ← eraseDups_concat,
          List.filterMap_append]
        rfl
      · intro item mem
        rcases mem_update distinct mem with ⟨kept, differs⟩ | ⟨old, rfl, named, found⟩
        · apply (fits item kept).other
          simpa [Row.path] using differs.symm
        · apply Fits.place _ named.symm ih
          rcases found with kept | ⟨rfl, missing⟩
          · exact fits old kept
          · apply fits_bare
            rw [names, List.mem_eraseDups] at missing
            intro row listed begins
            exact missing (List.mem_filterMap.mpr ⟨row, listed, begins⟩)

-----------------------------------------------------------------------------------------
-- Names at a path
-----------------------------------------------------------------------------------------

/-- An item that stands at a path of names, each below the one before it. -/
inductive StandsAt (node : Outline) : List Outline → List String → Prop
  | here {items : List Outline} (mem : node ∈ items) : StandsAt node items [node.name]
  | under {items : List Outline} {item : Outline} {path : List String} (mem : item ∈ items)
    (stands : StandsAt node item.items path)
    : StandsAt node items (item.name :: path)

variable {node : Outline} {path : List String}

theorem StandsAt.path_ne_nil (stands : StandsAt node items path) : path ≠ [] := by
  cases stands <;> simp

/-- What rows make of an item at a path is what all of them say about that path. -/
theorem Makes.of_standsAt (known : Makes rows items) (stands : StandsAt node items path)
    : node.entry = entryAt? path rows
      ∧ (node.array = true ↔ ∃ row ∈ rows, row.BracketsAt path)
      ∧ node.items.map Outline.name
          = (rows.filterMap fun row => next? path row.path).eraseDups := by
  induction stands generalizing rows with
  | here mem =>
      obtain ⟨-, fits⟩ := known
      obtain ⟨entry, array, ⟨names, -⟩⟩ := fits node mem
      refine ⟨entry, array, ?_⟩
      rw [names, List.filterMap_filterMap]
      simp only [← Row.next?_enter]
      rfl
  | under mem stands ih =>
      obtain ⟨-, fits⟩ := known
      obtain ⟨-, -, below⟩ := fits _ mem
      obtain ⟨entry, array, names⟩ := ih below
      have nonempty := stands.path_ne_nil
      refine ⟨?_, ?_, ?_⟩
      · rw [entry, entryAt?, entryAt?, List.filterMap_filterMap]
        simp only [Row.endsAt?_enter nonempty]
      · rw [array]
        simp only [List.mem_filterMap, ← Row.bracketsAt_enter nonempty]
        constructor
        · rintro ⟨left, ⟨row, listed, enters⟩, brackets⟩
          exact ⟨row, listed, left, enters, brackets⟩
        · rintro ⟨row, listed, left, enters, brackets⟩
          exact ⟨left, ⟨row, listed, enters⟩, brackets⟩
      · rw [names, List.filterMap_filterMap]
        simp only [Row.next?_enter]

theorem Makes.names (known : Makes rows items)
    : items.map Outline.name = (rows.filterMap fun row => row.path.head?).eraseDups := by
  obtain ⟨names, -⟩ := known
  exact names

theorem Makes.fits (known : Makes rows items) : ∀ item ∈ items, Fits rows item := by
  obtain ⟨-, fits⟩ := known
  exact fits

theorem Makes.exists_named (known : Makes rows items)
    : (∃ item ∈ items, item.name = name) ↔ ∃ row ∈ rows, row.path.head? = some name := by
  rw [← List.mem_map, known.names, List.mem_eraseDups, List.mem_filterMap]

/-- Some item stands at a path exactly if some row mentions its last name behind the others. -/
theorem Makes.exists_standsAt (known : Makes rows items) (path : List String) (name : String)
    : (∃ node, StandsAt node items (path ++ [name]))
      ↔ ∃ row ∈ rows, next? path row.path = some name := by
  induction path generalizing rows items with
  | nil =>
      refine Iff.trans ?_ known.exists_named
      constructor
      · rintro ⟨node, stands⟩
        cases stands with
        | here mem => exact ⟨node, mem, rfl⟩
        | under _ stands => cases stands
      · rintro ⟨node, mem, rfl⟩
        exact ⟨node, .here mem⟩
  | cons first path ih =>
      have fits := known.fits
      have deeper (item : Outline) (mem : item ∈ items)
          : (∃ node, StandsAt node item.items (path ++ [name]))
            ↔ ∃ row ∈ rows, next? (item.name :: path) row.path = some name := by
        obtain ⟨-, -, below⟩ := fits item mem
        simp only [ih below, List.mem_filterMap, ← Row.next?_enter, Option.bind_eq_some_iff]
        constructor
        · rintro ⟨left, ⟨row, listed, enters⟩, mentions⟩
          exact ⟨row, listed, left, enters, mentions⟩
        · rintro ⟨row, listed, left, enters, mentions⟩
          exact ⟨left, ⟨row, listed, enters⟩, mentions⟩
      constructor
      · rintro ⟨node, stands⟩
        rw [List.cons_append] at stands
        generalize rest : path ++ [name] = more at stands deeper
        cases stands with
        | here => simp at rest
        | under mem stands => exact (deeper _ mem).mp ⟨node, stands⟩
      · rintro ⟨row, listed, mentions⟩
        obtain ⟨item, mem, rfl⟩ := known.exists_named.mpr ⟨row, listed, head?_of_next? mentions⟩
        obtain ⟨node, stands⟩ := (deeper item mem).mpr ⟨row, listed, mentions⟩
        exact ⟨node, .under mem stands⟩

-----------------------------------------------------------------------------------------
-- The outline of entries
-----------------------------------------------------------------------------------------

def rowOf (entry : Entry) : Row :=
  ⟨steps entry.name, entry⟩

theorem steps_ne_nil (name : String) : steps name ≠ [] := by
  simpa [steps] using Text.split_ne_nil '.' name.toList

/-- By induction on the entries, of which the last is put in last. -/
theorem makes_ofEntries (entries : List Entry) : Makes (entries.map rowOf) (ofEntries entries) := by
  induction entries using List.reverseRecOn with
  | nil => exact makes_nil
  | append_singleton entries entry ih =>
      rw [ofEntries, List.foldl_append, List.map_append]
      exact ih.insert (steps_ne_nil entry.name)

/-- The items right below a path, or all at the top. -/
def SiblingsAt (roots : List Outline) (path : List String) (items : List Outline) : Prop :=
  path = [] ∧ items = roots ∨ ∃ node, StandsAt node roots path ∧ items = node.items

/-- An entry has a part with brackets at a path, and further parts behind it. -/
def BracketsIn (entry : Entry) (path : List String) : Prop :=
  ∃ before part after,
    parts entry = before ++ part :: after
    ∧ after ≠ []
    ∧ (before ++ [part]).map nameIn = path
    ∧ arrayMark <:+ part

theorem path_rowOf (entry : Entry) : (rowOf entry).path = pathOf entry := by
  rw [Row.path, rowOf, steps_eq_map_parts, List.map_map, name_ofPart, pathOf]

theorem bracketsAt_rowOf {entry : Entry}
    : (rowOf entry).BracketsAt path ↔ BracketsIn entry path := by
  rw [Row.BracketsAt, rowOf, steps_eq_map_parts, BracketsIn]
  constructor
  · rintro ⟨before, step, after, split, further, leads, marked⟩
    obtain ⟨front, back, whole, rfl, rest⟩ := List.map_eq_append_iff.mp split
    obtain ⟨part, more, rfl, rfl, rfl⟩ := List.map_eq_cons_iff.mp rest
    refine ⟨front, part, more, whole, by simpa using further, ?_, ?_⟩
    · simpa [name_ofPart, ofPart_eq] using leads
    · simpa [ofPart_eq] using marked
  · rintro ⟨before, part, after, split, further, leads, marked⟩
    refine ⟨before.map Step.ofPart, Step.ofPart part, after.map Step.ofPart, ?_, ?_, ?_, ?_⟩
    · rw [split, List.map_append, List.map_cons]
    · simpa using further
    · simpa [name_ofPart, ofPart_eq] using leads
    · simpa [ofPart_eq] using marked

variable {entries : List Entry}

/-- The entries that lead behind a path are the ones that put the names there. -/
theorem map_name_siblings (siblings : SiblingsAt (ofEntries entries) path items)
    : items.map Outline.name
      = (entries.filterMap fun entry => next? path (pathOf entry)).eraseDups := by
  have known := makes_ofEntries entries
  have rows : ((entries.map rowOf).filterMap fun row => next? path row.path)
      = entries.filterMap fun entry => next? path (pathOf entry) := by
    rw [List.filterMap_map]
    simp only [Function.comp_def, path_rowOf]
  rw [← rows]
  rcases siblings with ⟨rfl, rfl⟩ | ⟨node, stands, rfl⟩
  · exact known.names
  · exact (known.of_standsAt stands).2.2

theorem ordered_siblings (siblings : SiblingsAt (ofEntries entries) path items)
    : Ordered (fun entry => next? path (pathOf entry)) entries (items.map Outline.name) := by
  rw [map_name_siblings siblings]
  exact ordered_names _ entries

/-- There is nothing below a path exactly if no entry leads further. -/
theorem items_eq_nil_iff (stands : StandsAt node (ofEntries entries) path)
    : node.items = [] ↔ ¬ ∃ entry ∈ entries, path <+: pathOf entry ∧ path ≠ pathOf entry := by
  have names := map_name_siblings (.inr ⟨node, stands, rfl⟩)
  have further (whole : List String)
      : path <+: whole ∧ path ≠ whole ↔ ∃ name, path ++ [name] <+: whole := by
    constructor
    · rintro ⟨⟨_ | ⟨name, more⟩, rfl⟩, longer⟩
      · simp at longer
      · exact ⟨name, by simp⟩
    · rintro ⟨name, more, rfl⟩
      simp
  calc
    node.items = [] ↔ ∀ name, name ∉ node.items.map Outline.name := by
      rw [← List.eq_nil_iff_forall_not_mem, List.map_eq_nil_iff]
    _ ↔ ∀ name, ¬ ∃ entry ∈ entries, path ++ [name] <+: pathOf entry := by
      simp only [names, List.mem_eraseDups, List.mem_filterMap, next?_eq_some_iff]
    _ ↔ ¬ ∃ entry ∈ entries, path <+: pathOf entry ∧ path ≠ pathOf entry := by
      simp only [further]
      grind

theorem entryAt?_map_rowOf (path : List String) (entries : List Entry)
    : entryAt? path (entries.map rowOf) = entries.find? fun entry => pathOf entry = path := by
  rw [entryAt?, List.filterMap_map, List.head?_filterMap, ← List.findSome?_guard]
  congr 1
  funext entry
  simp only [Function.comp_apply, Row.endsAt?, path_rowOf, Option.guard, decide_eq_true_eq]
  rfl

/-- Items are the trie of the paths that entries write. Siblings have different names and stand in
the order of the entries that are the first to lead through them. An item stands at a path exactly
if an entry leads there; it has the first entry that ends there, and is an array exactly if some
entry has brackets there and leads further.
-/
structure IsTrie (entries : List Entry) (roots : List Outline) : Prop where
  distinct : ∀ path items, SiblingsAt roots path items → (items.map Outline.name).Nodup
  stands : ∀ path, (∃ node, StandsAt node roots path)
    ↔ path ≠ [] ∧ ∃ entry ∈ entries, path <+: pathOf entry
  entry : ∀ path node, StandsAt node roots path
    → node.entry = entries.find? fun entry => pathOf entry = path
  ordered : ∀ path items, SiblingsAt roots path items
    → items.Pairwise fun earlier later =>
        entries.findIdx (fun entry => path ++ [earlier.name] <+: pathOf entry)
          < entries.findIdx fun entry => path ++ [later.name] <+: pathOf entry
  array : ∀ path node, StandsAt node roots path
    → (node.array = true ↔ ∃ entry ∈ entries, BracketsIn entry path)

/-- The outline of entries is the trie of their paths, in whatever order they are listed. -/
theorem isTrie_ofEntries (entries : List Entry) : IsTrie entries (ofEntries entries) := by
  have known := makes_ofEntries entries
  constructor
  case distinct =>
    intro path items siblings
    exact (ordered_siblings siblings).nodup
  case stands =>
    intro path
    rcases List.eq_nil_or_concat path with rfl | ⟨init, last, rfl⟩
    · simp only [ne_eq, not_true_eq_false, false_and, iff_false]
      rintro ⟨node, stands⟩
      exact stands.path_ne_nil rfl
    · rw [List.concat_eq_append, known.exists_standsAt]
      simp [next?_eq_some_iff, path_rowOf]
  case entry =>
    intro path node stands
    rw [(known.of_standsAt stands).1, entryAt?_map_rowOf]
  case ordered =>
    intro path items siblings
    have ordered := List.pairwise_map.mp (ordered_siblings siblings)
    simpa only [next?_eq_some_iff] using ordered
  case array =>
    intro path node stands
    rw [(known.of_standsAt stands).2.1]
    simp [bracketsAt_rowOf]

end Typings.Outline
