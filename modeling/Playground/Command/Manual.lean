import Playground.Command.Arguments

/-!
# The manual

The page that each request for help prints. Every entry of a list starts in the column
after the widest name of its list.
-/

namespace Playground.Command

/-- An entry of the manual: a name and what it stands for. -/
structure ManualEntry where
  name : String
  text : String

/-- The lines of a list of entries. -/
def entryLines (entries : List ManualEntry) : List String :=
  let width := (entries.map fun entry => entry.name.length).foldl max 0
  entries.map fun entry =>
    "  " ++ entry.name ++ String.ofList (List.replicate (width - entry.name.length) ' ') ++
      "  " ++ entry.text

/-- The entry of the option that names the settings file. -/
def configEntry : ManualEntry := ⟨"    --config <CONFIG>", "Engine settings (JSON)"⟩

/-- The entry of the option that asks for JSON. -/
def jsonEntry : ManualEntry := ⟨"    --json", "Print results as JSON"⟩

/-- The entry of the option that asks for a log. -/
def verboseEntry : ManualEntry := ⟨"-v, --verbose...", "Log engine activity to stderr"⟩

/-- The entry of the option that asks for help. -/
def helpEntry : ManualEntry := ⟨"-h, --help", "Print help"⟩

namespace Topic

/-- What a command is for. -/
def summary : Topic → String
  | .program => ""
  | .run => "Run a program file and print its console output"
  | .preview => "Assemble a markup document with its stylesheet and script inlined"
  | .sample => "Print the starter buffers for a language"
  | .help => "Print this message or the help of the given subcommand(s)"

/-- The form of the command line. -/
def usage : Topic → String
  | .program => "codepad [OPTIONS] <COMMAND>"
  | .run => "codepad run [OPTIONS] <FILE>"
  | .preview => "codepad preview [OPTIONS] <STRUCTURE>"
  | .sample => "codepad sample [OPTIONS] <LANGUAGE>"
  | .help => "codepad help [COMMAND]..."

/-- The commands. -/
def commandEntries : List ManualEntry :=
  [⟨"run", run.summary⟩, ⟨"preview", preview.summary⟩, ⟨"sample", sample.summary⟩,
    ⟨"help", help.summary⟩]

/-- The operands. -/
def operandEntries : Topic → List ManualEntry
  | .program => []
  | .run => [⟨"<FILE>", ""⟩]
  | .preview => [⟨"<STRUCTURE>", ""⟩]
  | .sample => [⟨"<LANGUAGE>", ""⟩]
  | .help => [⟨"[COMMAND]...", "Print help for the subcommand(s)"⟩]

/-- The options, in the order in which the manual lists them. -/
def optionEntries : Topic → List ManualEntry
  | .program => [configEntry, jsonEntry, verboseEntry, helpEntry, ⟨"-V, --version", "Print version"⟩]
  | .run =>
    [configEntry,
      ⟨"    --language <LANGUAGE>",
        "Language identifier; inferred from the extension when omitted"⟩,
      jsonEntry, verboseEntry, helpEntry]
  | .preview =>
    [configEntry, ⟨"    --style <STYLE>", ""⟩, ⟨"    --behavior <BEHAVIOR>", ""⟩, jsonEntry,
      verboseEntry, ⟨"    --watch", "Keep re-rendering as the files change"⟩,
      ⟨"    --frame <FRAME>",
        "Wrap the document in a sandboxed frame page (desktop, tablet or mobile)"⟩,
      helpEntry]
  | .sample => [configEntry, jsonEntry, verboseEntry, helpEntry]
  | .help => []

/-- A titled list of entries, after an empty line. -/
def titled (title : String) (entries : List ManualEntry) : List String :=
  if entries.isEmpty then [] else "" :: title :: entryLines entries

/-- The page of a topic. -/
def page (topic : Topic) : String :=
  let summary := if topic.summary.isEmpty then [] else [topic.summary, ""]
  let commands := if topic = .program then commandEntries else []
  "\n".intercalate (summary ++ ["Usage: " ++ topic.usage] ++ titled "Commands:" commands ++
    titled "Arguments:" topic.operandEntries ++ titled "Options:" topic.optionEntries) ++ "\n"

end Topic

end Playground.Command
