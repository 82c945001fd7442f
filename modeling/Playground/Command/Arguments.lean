import Playground.Markup.Viewport

/-!
# Command line arguments

Arguments are read from left to right. Options that belong to every command may stand
before or after the name of the command; an option with a value takes it after `=` or
from the next argument. A request for help or for the version is answered as soon as it
is met, and so is the first misuse.
-/

namespace Playground.Command

/-- The pages of the manual. -/
inductive Topic where
  | program
  | run
  | preview
  | sample
  | help
  deriving DecidableEq, Repr

/-- The files of a page. -/
structure PageFiles where
  layout : String
  style : Option String
  behavior : Option String
  deriving DecidableEq, Repr

/-- What a command does. -/
inductive Action where
  /-- Runs a program file. -/
  | run (file : String) (language : Option String)
  /-- Assembles a page, and goes on doing so while its files change. -/
  | preview (files : PageFiles) (watch : Bool) (frame : Option Viewport)
  /-- Prints the sample buffers of a language. -/
  | sample (language : String)
  deriving DecidableEq, Repr

/-- A command with the options that belong to every command. -/
structure Invocation where
  config : Option String
  json : Bool
  action : Action
  deriving DecidableEq, Repr

/-- Why reading arguments stops early. -/
inductive Stop where
  | help (topic : Topic)
  | version
  | misuse
  deriving DecidableEq, Repr

/-- An option. -/
inductive OptionName where
  | config
  | json
  | verbose
  | language
  | style
  | behavior
  | watch
  | frame
  | help
  | version
  deriving DecidableEq, Repr

namespace OptionName

/-- The name after two dashes. -/
def long : OptionName → String
  | .config => "config"
  | .json => "json"
  | .verbose => "verbose"
  | .language => "language"
  | .style => "style"
  | .behavior => "behavior"
  | .watch => "watch"
  | .frame => "frame"
  | .help => "help"
  | .version => "version"

/-- The letter after one dash. -/
def short? : OptionName → Option Char
  | .verbose => some 'v'
  | .help => some 'h'
  | .version => some 'V'
  | _ => none

/-- Whether an option has a value. -/
def takesValue : OptionName → Bool
  | .config | .language | .style | .behavior | .frame => true
  | _ => false

end OptionName

/-- The options that are known at one place of the command line. -/
structure Level where
  topic : Topic
  options : List OptionName
  /-- Whether the operand is a path, which may not be empty. -/
  operandIsPath : Bool

/-- The options of every command. -/
def commonOptions : List OptionName := [.config, .json, .verbose, .help]

namespace Level

/-- Before the name of a command. -/
def program : Level := ⟨.program, .version :: commonOptions, false⟩

/-- After `run`. -/
def run : Level := ⟨.run, .language :: commonOptions, true⟩

/-- After `preview`. -/
def preview : Level := ⟨.preview, [.style, .behavior, .watch, .frame] ++ commonOptions, true⟩

/-- After `sample`. -/
def sample : Level := ⟨.sample, commonOptions, false⟩

end Level

/-- What has been given at one place of the command line. -/
structure Given where
  config : Option String := none
  json : Bool := false
  language : Option String := none
  style : Option String := none
  behavior : Option String := none
  watch : Bool := false
  frame : Option Viewport := none
  operand : Option String := none

/-- A value that may be given once. -/
def once {α : Type} (held : Option α) (value : α) : Except Stop (Option α) :=
  if held.isSome then .error .misuse else .ok (some value)

/-- A path that may be given once. -/
def oncePath (held : Option String) (path : String) : Except Stop (Option String) :=
  if path.isEmpty then .error .misuse else once held path

namespace Given

/-- Notes an option that has a value. -/
def withValue (given : Given) (option : OptionName) (value : String) : Except Stop Given :=
  match option with
  | .config => do return { given with config := ← oncePath given.config value }
  | .language => do return { given with language := ← once given.language value }
  | .style => do return { given with style := ← oncePath given.style value }
  | .behavior => do return { given with behavior := ← oncePath given.behavior value }
  | .frame =>
    match Viewport.ofName value with
    | .ok viewport => do return { given with frame := ← once given.frame viewport }
    | .error _ => .error .misuse
  | _ => .error .misuse

/-- Notes an option that has no value. Only verbosity may be asked for more than once. -/
def withFlag (level : Level) (given : Given) (option : OptionName) : Except Stop Given :=
  match option with
  | .json => if given.json then .error .misuse else .ok { given with json := true }
  | .watch => if given.watch then .error .misuse else .ok { given with watch := true }
  | .verbose => .ok given
  | .help => .error (.help level.topic)
  | .version => .error .version
  | _ => .error .misuse

/-- Notes the operand. -/
def withOperand (level : Level) (given : Given) (operand : String) : Except Stop Given := do
  let held ←
    if level.operandIsPath then oncePath given.operand operand else once given.operand operand
  return { given with operand := held }

end Given

/-- What an argument is by its dashes. -/
inductive Shape where
  /-- Everything after it is an operand. -/
  | escape
  | long (name : String) (value : Option String)
  | short (letters : List Char)
  | operand
  deriving DecidableEq, Repr

/-- The name of a long option and its value after `=`. -/
def Shape.ofLong (characters : List Char) : Shape :=
  match characters.dropWhile (· != '=') with
  | [] => .long (String.ofList characters) none
  | _ :: value =>
    .long (String.ofList (characters.takeWhile (· != '='))) (some (String.ofList value))

/-- What an argument is by its dashes. -/
def Shape.of (argument : String) : Shape :=
  match argument.toList with
  | ['-', '-'] => .escape
  | '-' :: '-' :: rest => .ofLong rest
  | ['-'] => .operand
  | '-' :: letters => .short letters
  | _ => .operand

/-- Whether an argument can be the value of the option before it. -/
def isValue (argument : String) : Bool :=
  Shape.of argument == .operand

namespace Level

/-- Notes options that are written as letters after one dash. -/
def readLetters (level : Level) (given : Given) : List Char → Except Stop Given
  | [] => .ok given
  | letter :: rest =>
    match level.options.find? (·.short? == some letter) with
    | none => .error .misuse
    | some option => do
      let given ← given.withFlag level option
      level.readLetters given rest

/-- Notes a long option: what is given then, and the arguments after the option and its
value. -/
def readLong (level : Level) (given : Given) (name : String) (value : Option String)
    (rest : List String) : Except Stop (Given × List String) :=
  match level.options.find? (·.long == name) with
  | none => .error .misuse
  | some option =>
    if option.takesValue then
      match value, rest with
      | some value, rest => do return (← given.withValue option value, rest)
      | none, next :: more =>
        if isValue next then do return (← given.withValue option next, more)
        else .error .misuse
      | none, [] => .error .misuse
    else if value.isSome then .error .misuse
    else do return (← given.withFlag level option, rest)

/-- A long option consumes no more than the arguments after it. -/
theorem length_readLong_le {level : Level} {given next : Given} {name : String}
    {value : Option String} {rest more : List String}
    (read : level.readLong given name value rest = .ok (next, more)) :
    more.length ≤ rest.length := by
  have ok_of {α β : Type} {first : Except Stop α} {second : α → β} {result : β}
      (bound : (do return second (← first) : Except Stop β) = .ok result) :
      ∃ value, result = second value := by
    cases first with
    | error stop => exact nomatch bound
    | ok value => exact ⟨value, by injection bound with same; exact same.symm⟩
  unfold readLong at read
  split at read
  · exact nomatch read
  · split at read
    · split at read
      · obtain ⟨_, same⟩ := ok_of read
        simp only [Prod.mk.injEq] at same
        simp [same.2]
      · split at read
        · obtain ⟨_, same⟩ := ok_of read
          simp only [Prod.mk.injEq] at same
          simp [same.2]
        · exact nomatch read
      · exact nomatch read
    · split at read
      · exact nomatch read
      · obtain ⟨_, same⟩ := ok_of read
        simp only [Prod.mk.injEq] at same
        simp [same.2]

/-- Notes operands. -/
def readOperands (level : Level) (given : Given) : List String → Except Stop Given
  | [] => .ok given
  | operand :: rest => do
    let given ← given.withOperand level operand
    level.readOperands given rest

/-- Notes all arguments of a command. -/
def readAll (level : Level) (given : Given) (arguments : List String) : Except Stop Given :=
  match arguments with
  | [] => .ok given
  | argument :: rest =>
    match Shape.of argument with
    | .escape => level.readOperands given rest
    | .operand =>
      match given.withOperand level argument with
      | .error stop => .error stop
      | .ok given => level.readAll given rest
    | .short letters =>
      match level.readLetters given letters with
      | .error stop => .error stop
      | .ok given => level.readAll given rest
    | .long name value =>
      match _ : level.readLong given name value rest with
      | .error stop => .error stop
      | .ok (given, more) => level.readAll given more
termination_by arguments.length
decreasing_by
  · simp
  · simp
  · have := length_readLong_le ‹_›
    simp only [List.length_cons]
    omega

end Level

/-- The operand, which has to be given. -/
def Given.required (given : Given) : Except Stop String :=
  match given.operand with
  | some operand => .ok operand
  | none => .error .misuse

/-- A command with the common options of both places; what is given after the name of the
command comes first. -/
def invocation (outer inner : Given) (action : Action) : Invocation :=
  ⟨inner.config <|> outer.config, inner.json || outer.json, action⟩

/-- Reads the arguments after the name of a command. -/
def readCommand (outer : Given) (name : String) (arguments : List String) :
    Except Stop Invocation :=
  match name with
  | "run" => do
    let inner ← Level.run.readAll {} arguments
    return invocation outer inner (.run (← inner.required) inner.language)
  | "preview" => do
    let inner ← Level.preview.readAll {} arguments
    let files : PageFiles := ⟨← inner.required, inner.style, inner.behavior⟩
    return invocation outer inner (.preview files inner.watch inner.frame)
  | "sample" => do
    let inner ← Level.sample.readAll {} arguments
    return invocation outer inner (.sample (← inner.required))
  | "help" =>
    match arguments with
    | [] => .error (.help .program)
    | ["run"] => .error (.help .run)
    | ["preview"] => .error (.help .preview)
    | ["sample"] => .error (.help .sample)
    | ["help"] => .error (.help .help)
    | _ => .error .misuse
  | _ => .error .misuse

/-- Reads the arguments before the name of a command, and the command. -/
def readProgram (given : Given) (arguments : List String) : Except Stop Invocation :=
  match arguments with
  | [] => .error .misuse
  | argument :: rest =>
    match Shape.of argument with
    | .escape => .error .misuse
    | .operand => readCommand given argument rest
    | .short letters =>
      match Level.program.readLetters given letters with
      | .error stop => .error stop
      | .ok given => readProgram given rest
    | .long name value =>
      match _ : Level.program.readLong given name value rest with
      | .error stop => .error stop
      | .ok (given, more) => readProgram given more
termination_by arguments.length
decreasing_by
  · simp
  · have := Level.length_readLong_le ‹_›
    simp only [List.length_cons]
    omega

/-- The command that arguments ask for. -/
def Invocation.ofArguments (arguments : List String) : Except Stop Invocation :=
  readProgram {} arguments

end Playground.Command
