import TypedObject.Command.Arguments
import TypedObject.Files.Access
import TypedObject.Report.Message
import TypedObject.Report.Registry
import TypedObject.Report.Size
import TypedObject.Sample

/-!
# Running a command

A command reads and writes files, writes text, and may fail.  The text written before a failure
stays.
-/

namespace TypedObject.Command

def version : String := "0.1.0"

inductive Failure where
  | reading (path : String)
  | readingSettings (path : String)
  | parsingSettings (path : String)
  | level (settings : Settings)
  | creating (path : String)
  | writing (path : String)
  | report (cause : ReportError)
  | sample (cause : SchemaError)
  | sending (cause : MessageError)

/-- The wording of a failure, from the outermost step to the cause as far as it is known. -/
def Failure.chain : Failure → List String
  | reading path => ["reading " ++ path]
  | readingSettings path => ["reading config " ++ path]
  | parsingSettings path => ["parsing config " ++ path]
  | level settings => [settings.levelMessage]
  | creating path => ["creating " ++ path]
  | writing path => ["writing " ++ path]
  | report cause => cause.chain
  | sample cause => [cause.message]
  | sending cause => [cause.message]

def Failure.outermost (failure : Failure) : String := failure.chain.headD ""

/-- What a command does: it has the files at hand, writes text, and may fail. -/
abbrev Running (m : Type → Type) := ExceptT Failure (StateT String m)

variable {m : Type → Type} [Monad m]

def say (line : String) : Running m Unit := modify fun output => output ++ line ++ "\n"

def onFiles {α : Type} (action : m α) : Running m α := ExceptT.lift (StateT.lift action)

/-- Goes on with the result, or fails with the failure that belongs to the error. -/
def orFail {α ε : Type} (failure : ε → Failure) : Except ε α → Running m α
  | .ok result => pure result
  | .error error => throw (failure error)

def contentOf (files : FileAccess m) (path : String) : Running m Bytes := do
  match ← onFiles (files.read? path) with
  | some content => return content
  | none => throw (.reading path)

def present (settings : Settings) (json : Json) (lines : List String) : Running m Unit :=
  match settings.format with
  | .json => say json.pretty
  | .text => lines.forM say

def settingsOf (files : FileAccess m) (invocation : Invocation) : Running m Settings := do
  let settings ← match invocation.config? with
    | none => pure {}
    | some path => do
      match (← onFiles (files.read? path)).bind Bytes.toText? with
      | none => throw (.readingSettings path)
      | some text =>
        match Settings.ofText? text with
        | none => throw (.parsingSettings path)
        | some settings => pure settings
  let settings := { settings with format := invocation.format?.getD settings.format }
  if !invocation.isVerbose && settings.level?.isNone then throw (.level settings)
  return settings

def writeTo (files : FileAccess m) (directory name : String) (content : Bytes) :
    Running m Unit := do
  let path := FileAccess.join directory name
  unless ← onFiles (files.write path content) do throw (.writing path)
  say ("✓ wrote " ++ path)

def perform (files : FileAccess m) (settings : Settings) : Task → Running m Unit
  | .registry path => do
    let report ← orFail .report (RegistryReport.ofBytes (← contentOf files path))
    present settings report.json report.lines
  | .size registry schema data => do
    let registry ← contentOf files registry
    let data ← contentOf files data
    let report ← orFail .report (SizeReport.ofBytes registry schema data)
    present settings report.json report.lines
  | .message path => do
    let content ← contentOf files path
    let report ← orFail .report (MessageReport.ofBytes settings.maximum content)
    present settings report.json report.lines
  | .sample directory => do
    let registry ← orFail .sample Sample.registry
    let message ← orFail .sending
      (Message.encode Message.defaultMaximum (.registry registry.encode))
    unless ← onFiles (files.makeDirectory directory) do throw (.creating directory)
    writeTo files directory "registry.bin" registry.encode
    writeTo files directory "user.bin" (Sample.user "alice" 30 ["admin", "ops"]).encode
    writeTo files directory "message.bin" message
    say ("  registry " ++ registry.reference.toHex)
  | .config =>
    match settings.format with
    | .json => say settings.json.pretty
    | .text => modify fun output => output ++ settings.toml

inductive Outcome where
  | misused
  | help (name? : Option Name)
  /-- The command wrote text, and it may have failed. -/
  | finished (output : String) (failure? : Option Failure)

def Outcome.code : Outcome → Nat
  | misused => 2
  | help _ | finished _ none => 0
  | finished _ (some _) => 1

def Outcome.output : Outcome → String
  | misused => ""
  | help name? => (Help.page name?).text
  | finished output _ => output

/-- The first line of a text.  A carriage return at its end belongs to the line break. -/
def firstLine (text : String) : String :=
  let line := text.toList.takeWhile (· ≠ '\n')
  String.ofList (if line.getLast? = some '\r' then line.dropLast else line)

def Outcome.errorLine? : Outcome → Option String
  | finished _ (some failure) => some (firstLine ("Error: " ++ failure.outermost))
  | _ => none

def run (files : FileAccess m) (arguments : List String) : m Outcome := do
  match Request.ofArguments? arguments with
  | none => return .misused
  | some (.help name?) => return .help name?
  | some .version => return .finished ("cxo " ++ version ++ "\n") none
  | some (.run invocation) =>
    let task : Running m Unit := do
      perform files (← settingsOf files invocation) invocation.task
    match ← task.run.run "" with
    | (.ok (), output) => return .finished output none
    | (.error failure, output) => return .finished output (some failure)

end TypedObject.Command
