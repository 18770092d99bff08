import HandleAlloc.Settings
import HandleAlloc.Toml.Document
/-!
# Settings from documents

The settings in a TOML document stand in the sections `general` and `persistent`. What is
missing takes its default, and what is unknown is passed over.
-/

namespace HandleAlloc

open Toml

/-- The fields that a section gives. It may be a table, an array with the fields in a fixed
order, or a moment, which has no fields. -/
def sectionFields? (order : List String) : Node → Option Entries
  | .table _ entries => some entries
  | .array items => some (order.zip items)
  | .moment => some []
  | _ => none

/-- A field, or its default if it is missing; nothing if it is of another type. -/
def fieldOr? {α : Type} (entries : Entries) (name : String) (read? : Node → Option α)
    (default : α) : Option α :=
  match entries.lookup name with
  | some node => read? node
  | none => some default

def HeapSettings.ofNode? (node : Node) : Option HeapSettings := do
  let entries ← sectionFields? ["name", "total_size", "validate_headers"] node
  let default : HeapSettings := {}
  return {
    name := ← fieldOr? entries "name" Node.text? default.name
    totalSize := ← fieldOr? entries "total_size" Node.natural? default.totalSize
    validateHeaders := ← fieldOr? entries "validate_headers" Node.flag? default.validateHeaders }

def ArenaSettings.ofNode? (node : Node) : Option ArenaSettings := do
  let entries ← sectionFields? ["name", "page_size", "max_pages", "validate_headers"] node
  let default : ArenaSettings := {}
  return {
    name := ← fieldOr? entries "name" Node.text? default.name
    pageSize := ← fieldOr? entries "page_size" Node.natural? default.pageSize
    maxPages := ← fieldOr? entries "max_pages" (·.natural?.map some) default.maxPages
    validateHeaders := ← fieldOr? entries "validate_headers" Node.flag? default.validateHeaders }

namespace Settings

/-- The settings that the top level of a document gives. -/
def ofEntries? (entries : Entries) : Option Settings := do
  return {
    general := ← fieldOr? entries "general" HeapSettings.ofNode? {}
    persistent := ← fieldOr? entries "persistent" ArenaSettings.ofNode? {} }

/-- What reads settings out of the text of a document: the settings, or the reason it has against
the text if it gives one. -/
abbrev Reader : Type := String → Except (Option String) Settings

/-- The reader of TOML documents, which gives no reasons. -/
def tomlReader : Reader := fun text =>
  match (parse? text).bind ofEntries? with
  | some settings => .ok settings
  | none => .error none

/-- Reads settings from the text of a document, and checks them. -/
def ofText {σ : Type} (text : String) (reader : Reader := tomlReader) : Action σ Settings :=
  match reader text with
  | .error reason => Action.fail (.invalidSettings (.unparsable reason))
  | .ok settings => do
    settings.check
    return settings

/-- What the system says about a path where there is no file. -/
def noSuchFile : String := "No such file or directory (os error 2)"

/-- Reads settings from the contents of the file at a path. Where the system gives no contents,
`refusal` is its reason. -/
def ofFile {σ : Type} (path : String) (contents : Option ByteArray) (refusal : String := noSuchFile)
    (reader : Reader := tomlReader) : Action σ Settings :=
  match contents with
  | none => Action.fail (.invalidSettings (.unreadable path (.refused refusal)))
  | some bytes =>
    match String.fromUTF8? bytes with
    | none => Action.fail (.invalidSettings (.unreadable path .notUtf8))
    | some text => ofText text reader

end Settings

end HandleAlloc
