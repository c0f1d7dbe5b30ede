import Typings.Toml.Scalar

/-!
Tables of TOML, and the rules by which a document fills them. A table is opened once by a header of
its own. What a header passes on its way to its table is there by implication, and may be opened
later; dotted keys fill tables of their own, and what is written in one piece cannot be added to.
-/

namespace Typings.Toml

/-- How a table came to be, and where it stands if it is in one place: by a header, on the way to a
table below it, by dotted keys, or in one piece. -/
inductive Form where
  | opened (header : Span)
  | implied
  | dotted
  | inline (span : Span)
deriving DecidableEq

/-- A value. The elements of a list of tables are opened by headers. -/
inductive Value where
  | scalar (span : Span) (content : Scalar)
  | list (span : Span) (items : List Value)
  | table (form : Form) (entries : List (Key × Value))
  | tables (elements : List (Span × List (Key × Value)))

/-- The entries of a table, by their keys. -/
abbrev Entries := List (Key × Value)

namespace Entries

/-- The value under a name. -/
def valueOf? (name : String) (entries : Entries) : Option Value :=
  (List.find? (fun entry => entry.1.name == name) entries).map Prod.snd

/-- The entries with another value under a name that they have. -/
def replace (name : String) (value : Value) (entries : Entries) : Entries :=
  entries.map fun (key, former) => (key, if key.name == name then value else former)

/-- The entries without the one under a name. -/
def remove (name : String) (entries : Entries) : Entries :=
  entries.filter fun entry => entry.1.name != name

/-- The entries with one for a new key. -/
def add (key : Key) (value : Value) (entries : Entries) : Option Entries :=
  if (entries.valueOf? key.name).isSome then none else some (entries ++ [(key, value)])

/-- Adds a value under a dotted key. The last table on the way has to be one that dotted keys fill,
and none on the way may be opened by a header. -/
def addDotted (value : Value) : List Key → Entries → Option Entries
  | [], _ => none
  | [key], entries => entries.add key value
  | key :: next :: keys, entries =>
    match entries.valueOf? key.name with
    | none => do
      let inner ← addDotted value (next :: keys) []
      return entries ++ [(key, .table .dotted inner)]
    | some (.table form inner) =>
      if form = .dotted || (form = .implied && !keys.isEmpty) then do
        let inner ← addDotted value (next :: keys) inner
        return entries.replace key.name (.table form inner)
      else none
    | some (.tables elements) =>
      match elements.reverse with
      | (header, last) :: others =>
        if keys.isEmpty then none
        else do
          let last ← addDotted value (next :: keys) last
          return entries.replace key.name (.tables (others.reverse ++ [(header, last)]))
      | [] => none
    | some _ => none

/-- Makes `change` to the table at a path, which leads through the last element of each list of
tables. Tables that are not there yet are there by implication. -/
def changeAt (change : Entries → Option Entries) : List Key → Entries → Option Entries
  | [], entries => change entries
  | key :: keys, entries =>
    match entries.valueOf? key.name with
    | none => do
      let inner ← changeAt change keys []
      return entries ++ [(key, .table .implied inner)]
    | some (.table (.inline _) _) => none
    | some (.table form inner) => do
      let inner ← changeAt change keys inner
      return entries.replace key.name (.table form inner)
    | some (.tables elements) =>
      match elements.reverse with
      | (header, last) :: others => do
        let last ← changeAt change keys last
        return entries.replace key.name (.tables (others.reverse ++ [(header, last)]))
      | [] => none
    | some _ => none

/-- Opens the table with a key by a header. It comes behind the tables that are there. -/
def openTable (header : Span) (key : Key) (entries : Entries) : Option Entries :=
  match entries.valueOf? key.name with
  | none => some (entries ++ [(key, .table (.opened header) [])])
  | some (.table .implied inner) =>
    some (entries.remove key.name ++ [(key, .table (.opened header) inner)])
  | some _ => none

/-- Opens a further element of the list of tables with a key. -/
def openElement (header : Span) (key : Key) (entries : Entries) : Option Entries :=
  match entries.valueOf? key.name with
  | none => some (entries ++ [(key, .tables [(header, [])])])
  | some (.tables elements) =>
    some (entries.replace key.name (.tables (elements ++ [(header, [])])))
  | some _ => none

/-- Makes `change` to the entry at the end of a path. -/
def changeEntry (change : Key → Entries → Option Entries) (path : List Key) (entries : Entries)
    : Option Entries :=
  match path.getLast? with
  | none => none
  | some key => changeAt (change key) path.dropLast entries

end Entries

/-! ### Places -/

/-- Whether a value is written under the header of its table, and not opened by one of its own. -/
def Value.isWrittenOut : Value → Bool
  | .table (.opened _) _ | .table .implied _ | .tables _ => false
  | _ => true

/-- Where a table with a header stands: its header, and on to what is written under it. -/
def tableSpan (header : Span) (entries : Entries) : Span :=
  if entries.any fun entry => entry.2.isWrittenOut then header.onward else header

/-- Where a value stands, if it is in one place. -/
def Value.span? : Value → Option Span
  | .scalar span _ | .list span _ | .table (.inline span) _ => some span
  | .table (.opened header) entries | .tables [(header, entries)] =>
    some (tableSpan header entries)
  | .tables ((header, _) :: _) => some header.onward
  | .table _ _ | .tables [] => none

end Typings.Toml
