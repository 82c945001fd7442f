import Playground.Buffers
import Playground.Engine.RunState
import Playground.Erasure.Program
import Playground.Outcome
import Playground.Preview.Scheduler
import Playground.Samples
import Playground.Script.Evaluation

/-!
# The engine

The engine runs programs, assembles pages and schedules previews. At most one program runs
at a time. A run never fails: whatever happens in it is an outcome, except that evaluating
inside a live capture session is refused.
-/

namespace Playground

open Console (Writer Sink Panic)
open Script (Source Limits)

/-- The engine of one editor. -/
structure Engine where
  settings : Settings
  state : RunState
  scheduler : Preview.Scheduler

/-- A request to run a program: its language and the buffers at the time of the request. -/
structure ExecutionRequest where
  language : Language
  buffers : Buffers

/-- What switching languages gives: the new buffers, and the document of a page. -/
structure LanguageSwitch where
  buffers : Buffers
  preview : Option Document

/-- Why an engine cannot be made. -/
inductive EngineFault where
  /-- No clock is running that previews could wait on. -/
  | noClock
  /-- The settings ask for a preview channel that cannot be made. -/
  | excessiveCapacity (excess : Preview.ExcessiveCapacity)
  deriving DecidableEq, Repr

/-- The program without its types, or the outcome that reports why it is rejected. A
script has no types. -/
def Script.Source.withoutTypes : Source → Except Outcome Source
  | .script statements => .ok (.script statements)
  | .text source =>
    match eraseTypes source with
    | .ok erased => .ok (.text erased)
    | .error report => .error (.failure .transpile report.display)

namespace Engine

/-- An idle engine, on a clock that runs. -/
def ofSettings (settings : Settings) : Except Preview.ExcessiveCapacity Engine :=
  match Preview.Scheduler.ofSettings settings with
  | .ok scheduler => .ok ⟨settings, .idle, scheduler⟩
  | .error excess => .error excess

/-- Makes an engine. Previews wait on a clock, so there is no engine without one. -/
def create (settings : Settings) (clockRuns : Bool) : Except EngineFault Engine :=
  if clockRuns then
    match ofSettings settings with
    | .ok engine => .ok engine
    | .error excess => .error (.excessiveCapacity excess)
  else .error .noClock

/-- The document of the page that buffers hold. -/
def previewNow (engine : Engine) (buffers : Buffers) : Document :=
  engine.settings.markup.assemble buffers.page

/-- The outcome of evaluating a program. -/
def evaluate (engine : Engine) (program : Source) : Writer Outcome := fun sink =>
  match Script.evaluate (.ofSettings engine.settings.execution) program sink with
  | (.error panic, after) => (.error panic, after)
  | (.ok (.ok lines), after) => (.ok (.output lines), after)
  | (.ok (.error fault), after) => (.ok (.failure .runtime fault.message), after)

/-- The outcome of a run that nothing stands in the way of. -/
def runPipeline (engine : Engine) (language : Language) (buffers : Buffers) : Writer Outcome :=
  match language.pipeline with
  | .direct => engine.evaluate (buffers.source .program)
  | .transpile =>
    match (buffers.source .program).withoutTypes with
    | .ok program => engine.evaluate program
    | .error outcome => fun sink => (.ok outcome, sink)
  | .markup => fun sink => (.ok (.document (engine.previewNow buffers)), sink)
  | .unsupported => fun sink => (.ok (.unsupported language.id), sink)

/-- What a run leaves behind: its outcome, unless it was refused, the engine, and the
console. -/
structure RunResult where
  outcome : Except Panic Outcome
  engine : Engine
  sink : Sink

/-- Runs a program of a language. -/
def run (engine : Engine) (language : Language) (buffers : Buffers) (sink : Sink) : RunResult :=
  if !language.pipeline.isSupported then ⟨.ok (.unsupported language.id), engine, sink⟩
  else
    match engine.state.tryBegin? with
    | none => ⟨.ok .alreadyRunning, engine, sink⟩
    | some entered =>
      let (outcome, after) := engine.runPipeline language buffers sink
      ⟨outcome, { engine with state := entered.finish }, after⟩

/-- Runs a program of a language that is given by name. -/
def runDeclared (engine : Engine) (name : String) (buffers : Buffers) (sink : Sink) :
    RunResult :=
  match Language.ofName name with
  | .ok language => engine.run language buffers sink
  | .error _ => ⟨.ok (.unsupported (Text.trim name)), engine, sink⟩

/-- Runs the program of a request. -/
def execute (engine : Engine) (request : ExecutionRequest) (sink : Sink) : RunResult :=
  engine.run request.language request.buffers sink

/-- The engine while a run is in flight on another thread. -/
def occupied (engine : Engine) : Engine :=
  { engine with state := .running }

/-- Schedules a preview of the page that buffers hold: its generation, and the engine
afterwards. -/
def onEdit (engine : Engine) (target : String) (buffers : Buffers) : Nat × Engine :=
  let (generation, scheduler) := engine.scheduler.schedule target buffers.page
  (generation, { engine with scheduler := scheduler })

/-- Cancels the pending preview of a page: whether there was one, and the engine
afterwards. -/
def cancel (engine : Engine) (target : String) : Bool × Engine :=
  let (cancelled, scheduler) := engine.scheduler.cancel target
  (cancelled, { engine with scheduler := scheduler })

/-- Whether a page has a pending preview. -/
def isPreviewPending (engine : Engine) (target : String) : Bool :=
  engine.scheduler.isPending target

/-- Lets time pass. -/
def advance (engine : Engine) (milliseconds : Nat) : Engine :=
  { engine with scheduler := engine.scheduler.advance milliseconds }

/-- The buffers that an editor starts from. -/
def reset (_ : Engine) (language : Language) : Buffers :=
  language.sample

/-- Cancels the pending preview of a page and starts over with another language. -/
def switchLanguage (engine : Engine) (target : String) (language : Language) :
    LanguageSwitch × Engine :=
  let (_, after) := engine.cancel target
  let buffers := engine.reset language
  let preview :=
    if language.pipeline = .markup then some (engine.previewNow buffers) else none
  (⟨buffers, preview⟩, after)

end Engine

end Playground
