import Playground.Command.Manual
import Playground.Command.Watch

/-!
# Executing commands

Settings are read first. A program's language is found before the program is read. A
command that watches its files is started here and driven from outside.
-/

namespace Playground.Command

open Script (Source)

/-- The version of the program. -/
def programVersion : String := "0.1.0"

/-- What a fault of the settings is called. -/
def describeFault : JsonFault → String
  | .malformed => "malformed JSON"
  | .truncated => "unexpected end of JSON"
  | .mismatched => "unexpected type or value"

/-- The settings of an invocation. -/
def loadSettings (view : FileView) : Option String → Except ErrorReport Settings
  | none => .ok {}
  | some path =>
    let heading := "loading config from " ++ path
    match view.read path with
    | .error fault =>
      .error ⟨heading, ["failed to read config file: " ++ fault.message, fault.message]⟩
    | .ok source =>
      match Settings.ofJsonText source.plainText with
      | .ok settings => .ok settings
      | .error fault =>
        .error ⟨heading, ["invalid config: " ++ describeFault fault, describeFault fault]⟩

/-- The language of a program file: the one that is named, or else the one that the
extension stands for. -/
def languageName (file : String) : Option String → Except ErrorReport String
  | some name => .ok name
  | none =>
    match Language.ofExtension? (extension file) with
    | some language => .ok language.id
    | none => .error ⟨"cannot infer the language of " ++ file ++ "; pass --language", []⟩

/-- The report of a run that may have been refused. -/
def reportResult (result : Engine.RunResult) (json : Bool) : Report :=
  match result.outcome with
  | .ok outcome => .ofOutcome outcome json
  | .error panic => .ofError ⟨panic.message?.getD "", []⟩

/-- Runs a program file. -/
def runFile (engine : Engine) (view : FileView) (file : String) (language : Option String)
    (json : Bool) : Except ErrorReport Report := do
  let name ← languageName file language
  let source ← view.load file
  return reportResult (engine.runDeclared name (.ofProgram source) .forwarding) json

/-- Assembles a page. -/
def previewPage (engine : Engine) (view : FileView) (files : PageFiles)
    (frame : Option Viewport) (json : Bool) : Except ErrorReport Report := do
  let buffers ← view.loadPage files
  let result := engine.run .html buffers .forwarding
  match result.outcome, frame with
  | .ok (.document document), some viewport =>
    if json then return reportResult result json
    else return .success (document.framed viewport ++ "\n")
  | _, _ => return reportResult result json

/-- The text of the sample buffers of a language. Several buffers are headed by their file
names. -/
def sampleText (buffers : Buffers) : String :=
  String.join (buffers.entries.map fun (role, source) =>
    let heading := if 1 < buffers.size then "// " ++ role.fileName ++ "\n" else ""
    heading ++ source.plainText ++ "\n")

/-- Prints the sample buffers of a language. -/
def printSample (name : String) : Except ErrorReport Report :=
  match Language.ofName name with
  | .ok language => .ok (.success (sampleText language.sample))
  | .error unknown => .error ⟨unknown.message, []⟩

/-- What a command comes to: a report, or a watch that goes on after its first page. -/
inductive Started where
  | finished (report : Report)
  | watching (page : String) (watch : Watch)

/-- Starts an invocation on an engine. -/
def Invocation.startOn (invocation : Invocation) (engine : Engine) (view : FileView) :
    Except ErrorReport Started := do
  match invocation.action with
  | .run file language =>
    return .finished (← runFile engine view file language invocation.json)
  | .preview files true frame =>
    let (page, watch) ← Watch.start engine view files frame
    return .watching page watch
  | .preview files false frame =>
    return .finished (← previewPage engine view files frame invocation.json)
  | .sample language => return .finished (← printSample language)

/-- Starts an invocation: its settings are read, and an engine is made for them. -/
def Invocation.start (invocation : Invocation) (view : FileView) :
    Except ErrorReport Started := do
  let settings ← loadSettings view invocation.config
  match Engine.ofSettings settings with
  | .ok engine => invocation.startOn engine view
  | .error excess => return .finished (.aborted excess.message)

/-- The report of arguments that ask for no command. -/
def Stop.report : Stop → Report
  | .help topic => .success topic.page
  | .version => .success ("codepad " ++ programVersion ++ "\n")
  | .misuse => .misuse

/-- Starts the command that arguments ask for. -/
def start (view : FileView) (arguments : List String) : Started :=
  match Invocation.ofArguments arguments with
  | .error stop => .finished stop.report
  | .ok invocation =>
    match invocation.start view with
    | .ok started => started
    | .error error => .finished (.ofError error)

end Playground.Command
