import TypedObject.Command.Help
import TypedObject.Settings.Basic

/-!
# Command line arguments

The command line has two levels.  The first names a command, and the second belongs to the
command.  The options that say how to run may stand on either level, and those of the second
level win.  Arguments are read from left to right, and a request for help or for the version is
granted at once, whatever comes after it.
-/

namespace TypedObject.Command

inductive Task where
  | registry (path : String)
  | size (registry schema data : String)
  | message (path : String)
  | sample (directory : String)
  | config
  deriving DecidableEq, Repr

/-- What to do and how. -/
structure Invocation where
  task : Task
  isVerbose : Bool
  format? : Option OutputFormat
  config? : Option String
  deriving DecidableEq, Repr

/-- What a command line asks for. -/
inductive Request where
  | run (invocation : Invocation)
  | help (name? : Option Name)
  | version
  deriving DecidableEq, Repr

/-- The form of one argument. -/
inductive Argument where
  | endOfOptions
  | long (name : String) (value? : Option String)
  | short (letters : List Char)
  | word (text : String)
  deriving DecidableEq, Repr

def Argument.ofText (text : String) : Argument :=
  match text.toList with
  | ['-', '-'] => .endOfOptions
  | '-' :: '-' :: option =>
    let name := String.ofList (option.takeWhile (· ≠ '='))
    match option.dropWhile (· ≠ '=') with
    | [] => .long name none
    | _ :: value => .long name (some (String.ofList value))
  | '-' :: letter :: letters => .short (letter :: letters)
  | _ => .word text

structure Level where
  /-- The options with a value, each with the test that its values pass. -/
  options : List (String × (String → Bool))
  hasVersion : Bool
  /-- The number of words of the command, or none if the next word is the command. -/
  words? : Option Nat

structure Given where
  isVerbose : Bool := false
  values : List (String × String) := []
  words : List String := []

def Given.value? (given : Given) (option : String) : Option String := given.values.lookup option

inductive Ending where
  | refused
  | help
  | version
  | complete (given : Given)
  /-- A word that has to be a command, and what comes after it.  What was given before it may
  still be refused. -/
  | command (given : Given) (isGood : Bool) (name : String) (rest : List String)

def Level.readLetters (level : Level) (given : Given) : List Char → Ending
  | [] => .complete given
  | 'v' :: letters =>
    if given.isVerbose then .refused else level.readLetters { given with isVerbose := true } letters
  | 'h' :: _ => .help
  | 'V' :: _ => if level.hasVersion then .version else .refused
  | _ => .refused

def Level.readFlag (level : Level) (given : Given) (name : String) : Ending :=
  if name = "verbose" then level.readLetters given ['v']
  else if name = "help" then .help
  else if name = "version" then level.readLetters given ['V']
  else .refused

def Level.addWords? (level : Level) (given : Given) (words : List String) : Option Given :=
  let words := given.words ++ words
  if words.length ≤ level.words?.getD 0 ∧ "" ∉ words then some { given with words } else none

/-- Reads one level.  The value of an option in an argument of its own is looked at with the next
argument, unless that is a command: `isGood` tells whether the last one is allowed. -/
def Level.read (level : Level) (given : Given) (isGood : Bool) : List String → Ending
  | [] => if isGood then .complete given else .refused
  | argument :: rest =>
    match Argument.ofText argument with
    | .word text =>
      match level.words?, level.addWords? given [text] with
      | none, _ => .command given isGood text rest
      | some _, some given => if isGood then level.read given true rest else .refused
      | some _, none => .refused
    | .endOfOptions =>
      match level.words?, level.addWords? given rest with
      | some _, some given => if isGood then .complete given else .refused
      | _, _ => .refused
    | .short letters =>
      if isGood then
        match level.readLetters given letters with
        | .complete given => level.read given true rest
        | ending => ending
      else .refused
    | .long name value? =>
      if isGood then
        match level.options.lookup name, value? with
        | none, none =>
          match level.readFlag given name with
          | .complete given => level.read given true rest
          | ending => ending
        | none, some _ => .refused
        | some test, some value =>
          if (given.value? name).isNone && test value then
            level.read { given with values := (name, value) :: given.values } true rest
          else .refused
        | some test, none =>
          match rest with
          | [] => .refused
          | value :: rest =>
            match Argument.ofText value with
            | .word _ =>
              level.read { given with values := (name, value) :: given.values }
                ((given.value? name).isNone && test value) rest
            | _ => .refused
      else .refused

def isPath (text : String) : Bool := text ≠ ""

def sharedOptions : List (String × (String → Bool)) :=
  [("format", fun name => (OutputFormat.ofName? name).isSome), ("config", isPath)]

def firstLevel : Level := ⟨sharedOptions, true, none⟩

def secondLevel? : (name : Name) → Option Level
  | .registry => some ⟨sharedOptions, false, some 1⟩
  | .size =>
    some ⟨("registry", isPath) :: ("schema", fun _ => true) :: sharedOptions, false, some 1⟩
  | .message => some ⟨sharedOptions, false, some 1⟩
  | .sample => some ⟨sharedOptions, false, some 1⟩
  | .config => some ⟨sharedOptions, false, some 0⟩
  | .help => none

def task? (name : Name) (given : Given) : Option Task :=
  match name, given.words with
  | .registry, [path] => some (.registry path)
  | .size, [data] => do return .size (← given.value? "registry") (← given.value? "schema") data
  | .message, [path] => some (.message path)
  | .sample, [] => some (.sample ".")
  | .sample, [directory] => some (.sample directory)
  | .config, [] => some .config
  | _, _ => none

/-- The help that is asked for by the words after the command for help: at most one, which names a
command. -/
def helpOf? : (words : List String) → Option Request
  | [] => some (.help none)
  | [text] => do return .help (← Name.ofText? text)
  | _ => none

def requestOf? (before : Given) (isGood : Bool) (name : Name) (rest : List String) :
    Option Request := do
  let level ← secondLevel? name
  match level.read {} true rest with
  | .help => return .help name
  | .complete given =>
    guard isGood
    let task ← task? name given
    let value? := fun (option : String) => given.value? option <|> before.value? option
    return .run {
      task
      isVerbose := given.isVerbose || before.isVerbose
      format? := value? "format" >>= OutputFormat.ofName?
      config? := value? "config" }
  | _ => none

def Request.ofArguments? (arguments : List String) : Option Request :=
  match firstLevel.read {} true arguments with
  | .help => some (.help none)
  | .version => some .version
  | .command given isGood text rest =>
    match Name.ofText? text with
    | none => none
    | some .help => helpOf? rest
    | some name => requestOf? given isGood name rest
  | _ => none

end TypedObject.Command
