import TypedObject.Text.Column

/-!
# Help

A page of help tells what the program or one of its commands is for, how it is used, and what may
stand on its command line.  The explanations in one listing begin in one column.
-/

namespace TypedObject.Command

inductive Name where
  | registry
  | size
  | message
  | sample
  | config
  | help
  deriving DecidableEq, Repr

namespace Name

def all : List Name := [registry, size, message, sample, config, help]

def text : Name → String
  | registry => "registry"
  | size => "size"
  | message => "message"
  | sample => "sample"
  | config => "config"
  | help => "help"

def ofText? (text : String) : Option Name := all.find? fun name => name.text = text

def purpose : Name → String
  | registry => "Decode an encoded registry and list its schemas"
  | size => "Measure encoded data against a registered schema"
  | message => "Decode a node message"
  | sample => "Write the built-in sample registry and a sample object"
  | config => "Print the effective configuration"
  | help => "Print this message or the help of the given subcommand(s)"

end Name

namespace Help

/-- Something that may stand on a command line, and what it is for. -/
structure Entry where
  label : String
  purpose : String

structure Listing where
  title : String
  entries : List Entry

structure Page where
  purpose : String
  usage : String
  listings : List Listing

def Listing.text (listing : Listing) : String :=
  let width := Text.width (listing.entries.map Entry.label)
  "\n" ++ listing.title ++ ":\n" ++ String.join (listing.entries.map fun entry =>
    "  " ++ Text.padded width entry.label ++ "  " ++ entry.purpose ++ "\n")

def Page.text (page : Page) : String :=
  page.purpose ++ "\n\nUsage: cxo" ++ page.usage ++ "\n" ++
    String.join (page.listings.map Listing.text)

def verbose : Entry :=
  ⟨"-v, --verbose", "Log at debug level regardless of the configured level"⟩

def format : Entry :=
  ⟨"    --format <FORMAT>",
    "Output format; overrides the config file [possible values: text, json]"⟩

def config : Entry := ⟨"    --config <CONFIG>", "TOML configuration file"⟩

def help : Entry := ⟨"-h, --help", "Print help"⟩

def version : Entry := ⟨"-V, --version", "Print version"⟩

def registry : Entry :=
  ⟨"    --registry <REGISTRY>", "File holding a canonical registry encoding"⟩

def schema : Entry := ⟨"    --schema <SCHEMA>", "Registered schema name"⟩

/-- The options of a command: its own before those that every command has. -/
def options (own : List Entry) : Listing := ⟨"Options", own ++ [verbose, format, config, help]⟩

def words (label purpose : String) : Listing := ⟨"Arguments", [⟨label, purpose⟩]⟩

def ofCommand (name : Name) : Page :=
  let page := fun usage listings => (⟨name.purpose, " " ++ name.text ++ usage, listings⟩ : Page)
  match name with
  | .registry =>
    page " [OPTIONS] <PATH>" [
      words "<PATH>" "File holding a canonical registry encoding", options []]
  | .size =>
    page " [OPTIONS] --registry <REGISTRY> --schema <SCHEMA> <DATA>" [
      words "<DATA>" "File holding the encoded value", options [registry, schema]]
  | .message =>
    page " [OPTIONS] <PATH>" [words "<PATH>" "File holding one encoded message", options []]
  | .sample => page " [OPTIONS] [DIR]" [words "[DIR]" "Output directory [default: .]", options []]
  | .config => page " [OPTIONS]" [options []]
  | .help => page " [COMMAND]..." [words "[COMMAND]..." "Print help for the subcommand(s)"]

def overview : Page where
  purpose := "CXO: inspect schema registries, encoded data and node messages"
  usage := " [OPTIONS] <COMMAND>"
  listings := [
    ⟨"Commands", Name.all.map fun name => ⟨name.text, name.purpose⟩⟩,
    ⟨"Options", [verbose, format, config, help, version]⟩]

def page (name? : Option Name) : Page := name?.elim overview ofCommand

end Help

end TypedObject.Command
