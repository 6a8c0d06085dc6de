import TypedObject.Json
import TypedObject.Message.Codec
import TypedObject.Settings.Level
import TypedObject.Text.Quoted
import TypedObject.Toml.Document
import TypedObject.Toml.Written

/-!
# Settings

What a user may set in a file.  A setting that the file does not name has its default, and what
else the file names does not matter.
-/

namespace TypedObject

inductive OutputFormat where
  | text
  | json
  deriving DecidableEq, Repr

def OutputFormat.name : OutputFormat → String
  | text => "text"
  | json => "json"

def OutputFormat.ofName? (name : String) : Option OutputFormat :=
  [text, json].find? fun format => format.name = name

structure Settings where
  format : OutputFormat := .text
  maximum : Nat := Message.defaultMaximum
  /-- The name of a log level, which need not be one. -/
  logLevel : String := "warn"
  deriving DecidableEq, Repr

namespace Settings

/-- A format is named by a string, or by the only key of a table, with an empty table or an empty
array as its value. -/
def formatOf? : Toml.Value → Option OutputFormat
  | .string name => OutputFormat.ofName? name
  | .table _ [(name, .table _ [])] => OutputFormat.ofName? name
  | .table _ [(name, .array [])] => OutputFormat.ofName? name
  | _ => none

def sizeOf? : Toml.Value → Option Nat
  | .integer number => if number < 0 then none else some number.toNat
  | _ => none

def nameOf? : Toml.Value → Option String
  | .string name => some name
  | _ => none

/-- A setting in a table, or its default. -/
def read {α : Type} (entries : Toml.Entries) (key : String) (default : α)
    (of? : Toml.Value → Option α) : Option α :=
  match entries.lookup key with
  | none => some default
  | some value => of? value

def ofText? (text : String) : Option Settings := do
  let entries ← Toml.Document.parse? text
  let default : Settings := {}
  return {
    format := ← read entries "format" default.format formatOf?
    maximum := ← read entries "max_message_size" default.maximum sizeOf?
    logLevel := ← read entries "log_level" default.logLevel nameOf? }

def level? (settings : Settings) : Option LogLevel := LogLevel.ofText? settings.logLevel

def levelMessage (settings : Settings) : String :=
  "invalid log level " ++ Text.quoted settings.logLevel

def json (settings : Settings) : Json :=
  .object [
    ("format", .string settings.format.name),
    ("max_message_size", .number settings.maximum),
    ("log_level", .string settings.logLevel)]

def toml (settings : Settings) : String :=
  "format = " ++ Toml.Written.string settings.format.name ++ "\n" ++
    "max_message_size = " ++ toString settings.maximum ++ "\n" ++
    "log_level = " ++ Toml.Written.string settings.logLevel ++ "\n"

end Settings

end TypedObject
