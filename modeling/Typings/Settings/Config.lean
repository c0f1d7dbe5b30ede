import Typings.Settings
import Typings.Toml.Document
import Typings.Toml.Mismatch

/-!
Settings from a configuration file: the table `emit` of a TOML document, which takes the floor of
access, whether private doclets are kept, the destination and the file name. Nothing else may stand
in the document.
-/

namespace Typings.Settings

open Toml

/-- The name of the file that is read if no other is named. -/
def configFile : String := "dtsdoc.toml"

/-- What is wrong with the text of a configuration: it is no document, or a value in it, which the
excerpt shows, is not the wanted one. -/
inductive ConfigFault where
  | malformed
  | mismatch (excerpt : String) (cause : Mismatch)
deriving DecidableEq

/-- The wording of a fault. -/
def ConfigFault.message : ConfigFault → String
  | malformed => "not a TOML document"
  | mismatch excerpt cause => excerpt ++ cause.message ++ "\n"

/-- The level of access with a name. -/
def namedAccess (place : Span) (name : String) : Except Misfit Access :=
  match Access.ofName? name with
  | some level => .ok level
  | none => .error ⟨place, .choice name (Access.all.map Access.name)⟩

/-- Whether a value says nothing, as it should behind the name of a choice. -/
def checkVoid (place : Span) (value : Value) : Except Misfit Unit :=
  match value with
  | .list _ [] | .table _ [] => .ok ()
  | .list .. | .tables _ => value.misfit place .filledList
  | .table .. => value.misfit place .filledTable
  | .scalar _ content => value.misfit place (.noTable content.noun)

/-- A level of access: its name, or a table with nothing behind its name. -/
def readAccess (place : Span) (value : Value) : Except Misfit Access :=
  match value with
  | .scalar span (.text name) => namedAccess span name
  | .table _ [] => value.misfit place .emptyChoice
  | .table _ [(key, content)] => do
    let level ← namedAccess (value.spanIn place) key.name
    checkVoid (value.spanIn place) content
    return level
  | .table .. => value.misfit place .manyChoices
  | _ => value.misfit place .noChoice

/-- A truth value. -/
def readFlag (place : Span) (value : Value) : Except Misfit Bool :=
  match value with
  | .scalar _ (.boolean flag) => .ok flag
  | _ => value.misfit place (.kind value.found "a boolean")

/-- A text. -/
def readText (place : Span) (value : Value) : Except Misfit String :=
  match value with
  | .scalar _ (.text text) => .ok text
  | _ => value.misfit place (.kind value.found "a string")

/-- The fields of the table, in the order in which a list may give their values instead. -/
def fieldNames : List String :=
  ["access", "private", "destination", "out_file"]

/-- The settings with one field as a configuration has it. -/
def withField (settings : Settings) (key : Key) (value : Value) : Except Misfit Settings := do
  if key.name = "access" then return { settings with floor := ← readAccess key.span value }
  else if key.name = "private" then
    return { settings with keepPrivate := ← readFlag key.span value }
  else if key.name = "destination" then
    return { settings with destination := .ofText (← readText key.span value) }
  else if key.name = "out_file" then
    return { settings with fileName := some (← readText key.span value) }
  else throw ⟨key.span, .unknownKey key.name fieldNames⟩

/-- The wording of the table. -/
def sectionLabel : String := "struct EmitConfig"

/-- The settings that a list gives in place of the table. -/
def ofList (span : Span) (items : List Value) : Except Misfit Settings := do
  let fields := fieldNames.zip items
  let settings ← fields.foldlM (fun settings (name, item) => withField settings ⟨name, span⟩ item) {}
  if items.length < fieldNames.length then
    throw ⟨span, .tooShort items.length (sectionLabel ++ " with 4 elements")⟩
  return settings

/-- The name of the only field of a moment. -/
def momentField : String := "$__toml_private_datetime"

/-- The settings that the value of `emit` gives, which is a table or the list of its values. -/
def ofSection (place : Span) (value : Value) : Except Misfit Settings :=
  match value with
  | .table _ entries =>
    entries.foldlM (fun settings (key, value) => withField settings key value) {}
  | .list span items => ofList span items
  | .tables elements =>
    ofList (value.spanIn place)
      (elements.map fun (header, entries) => .table (.opened header) entries)
  | .scalar span .moment => .error ⟨span, .unknownKey momentField fieldNames⟩
  | .scalar .. => value.misfit place (.kind value.found sectionLabel)

/-- The settings that the entries of a document give. -/
def ofEntries (entries : Entries) : Except Misfit Settings :=
  entries.foldlM
    (fun _ (key, value) =>
      if key.name = "emit" then ofSection key.span value
      else .error ⟨key.span, .unknownKey key.name ["emit"]⟩)
    {}

/-- The settings that the text of a configuration gives. -/
def ofConfig (text : String) : Except ConfigFault Settings :=
  match Toml.parse? text with
  | none => .error .malformed
  | some entries =>
    (ofEntries entries).mapError fun misfit => .mismatch (misfit.span.excerpt text) misfit.cause

end Typings.Settings
