import Mathlib.Data.List.Induction
import Playground.Console

/-!
# Capture sessions follow their history

The code of a thread begins sessions, emits lines, ends sessions and captures bodies, in any order.
What is refused is caught, so the thread goes on. `Live` and `Opened` say from the actions alone
whether a session is live and what was done since it was begun. A session that is live changes only
by the lines that are emitted into it (`after_of_buffering`), and without one the thread is as it
was at the start (`after_of_not_live`), so every ending puts the sink back that the session found.
-/

namespace Playground.Console

/-- What the code of a thread does with its console. -/
inductive Action where
  | begin
  | emit (line : String)
  | finish
  | drop
  /-- Captures a body, which does some actions and then ends or is left early. A refusal that
  leaves the body stands among its actions and in its ending. -/
  | withCapture (body : List Action) (ending : Except Panic Unit)

namespace Action

/-- The line that an action emits. What a captured body emits is not emitted by the capture. -/
def emitted? : Action → Option String
  | .emit line => some line
  | .begin | .finish | .drop | .withCapture .. => none

/-- Whether an action asks for a session of its own. -/
def opens : Action → Bool
  | .begin | .withCapture .. => true
  | .emit _ | .finish | .drop => false

/-- Whether an action ends the session that was begun. -/
def ends : Action → Bool
  | .finish | .drop => true
  | .begin | .emit _ | .withCapture .. => false

end Action

/-- What an action comes to. -/
inductive Answer where
  | done
  | captured (lines : List String)
  /-- There was no session to end. -/
  | nothing
  | panicked (panic : Panic)
  deriving DecidableEq, Repr

/-- A thread: its sink, and the session that its code holds. -/
structure Thread where
  sink : Sink
  session : Option CaptureSession
  deriving DecidableEq, Repr

namespace Thread

/-- A thread that has done nothing. -/
def start : Thread := ⟨.forwarding, none⟩

/-- A thread in a body that is captured, before the body has done anything. -/
def captive : Thread := ⟨.buffering [], none⟩

mutual

/-- What an action comes to, and the thread afterwards. -/
def perform (thread : Thread) : Action → Answer × Thread
  | .begin =>
    match thread.sink.begin with
    | .ok (session, sink) => (.done, ⟨sink, some session⟩)
    | .error panic => (.panicked panic, thread)
  | .emit line => (.done, { thread with sink := thread.sink.emit line })
  | .finish =>
    match thread.session with
    | some session => (.captured (session.finish thread.sink).1, ⟨(session.finish thread.sink).2, none⟩)
    | none => (.nothing, thread)
  | .drop =>
    match thread.session with
    | some session => (.done, ⟨session.drop thread.sink, none⟩)
    | none => (.nothing, thread)
  | .withCapture body ending =>
    match withCapture (fun sink => (ending, (after ⟨sink, none⟩ body).sink)) thread.sink with
    | (.ok ((), lines), sink) => (.captured lines, { thread with sink := sink })
    | (.error panic, sink) => (.panicked panic, { thread with sink := sink })

/-- The thread after some actions. -/
def after (thread : Thread) : List Action → Thread
  | [] => thread
  | action :: rest => after (thread.perform action).2 rest

end

end Thread

/-- What was emitted into the session in place by some actions. -/
def emittedBy (actions : List Action) : List String :=
  actions.filterMap Action.emitted?

theorem emittedBy_append (first second : List Action) :
    emittedBy (first ++ second) = emittedBy first ++ emittedBy second :=
  List.filterMap_append

/-- A session is live: one was begun, and none was ended since. -/
def Live (actions : List Action) : Prop :=
  ∃ earlier since, actions = earlier ++ .begin :: since ∧ ∀ action ∈ since, action.ends = false

/-- The session that is begun after `earlier` is its own, and it is live after `since`. -/
structure Opened (earlier since : List Action) : Prop where
  fresh : ¬Live earlier
  kept : ∀ action ∈ since, action.ends = false

variable {actions earlier since : List Action} {action : Action} {thread : Thread}

/-! ## Live sessions -/

theorem not_live_nil : ¬Live [] := by
  rintro ⟨earlier, since, split, _⟩
  simp at split

/-- Beginning makes a session live, and only its ending makes it not live. -/
theorem live_concat_iff :
    Live (actions ++ [action]) ↔ action = .begin ∨ Live actions ∧ action.ends = false := by
  constructor
  · rintro ⟨earlier, since, split, kept⟩
    obtain rfl | ⟨between, last, rfl⟩ := List.eq_nil_or_concat since
    · exact .inl (List.append_inj' split rfl |>.2 |> List.singleton_inj.mp)
    · rw [List.concat_eq_append, ← List.cons_append, ← List.append_assoc] at split
      obtain ⟨rfl, same⟩ := List.append_inj' split rfl
      obtain rfl := List.singleton_inj.mp same
      exact .inr ⟨⟨earlier, between, rfl, fun other member => kept other (by simp [member])⟩,
        kept action (by simp)⟩
  · rintro (rfl | ⟨⟨earlier, since, rfl, kept⟩, keeps⟩)
    · exact ⟨actions, [], rfl, by simp⟩
    · refine ⟨earlier, since ++ [action], by simp, fun other member => ?_⟩
      rcases List.mem_append.mp member with before | last
      · exact kept other before
      · rw [List.mem_singleton.mp last]
        exact keeps

theorem not_live_concat_of_ends (ends : action.ends = true) : ¬Live (actions ++ [action]) := by
  rw [live_concat_iff]
  rintro (rfl | ⟨_, keeps⟩)
  · simp [Action.ends] at ends
  · simp [keeps] at ends

theorem Opened.live (opened : Opened earlier since) : Live (earlier ++ .begin :: since) :=
  ⟨earlier, since, rfl, opened.kept⟩

theorem Opened.concat (opened : Opened earlier since) (keeps : action.ends = false) :
    Opened earlier (since ++ [action]) where
  fresh := opened.fresh
  kept other member := by
    rcases List.mem_append.mp member with before | last
    · exact opened.kept other before
    · rw [List.mem_singleton.mp last]
      exact keeps

/-! ## What a thread keeps -/

namespace Thread

theorem after_append (thread : Thread) (first second : List Action) :
    thread.after (first ++ second) = (thread.after first).after second := by
  induction first generalizing thread with
  | nil => rfl
  | cons action rest inductionHypothesis => exact inductionHypothesis _

/-- A thread that is capturing refuses to open another session, and stays as it is. -/
theorem perform_of_opens {lines : List String} (captures : thread.sink = .buffering lines)
    (opens : action.opens) : thread.perform action = (.panicked .reentrantCapture, thread) := by
  obtain ⟨sink, session⟩ := thread
  subst captures
  cases action with
  | begin => rfl
  | withCapture body ending => rfl
  | emit | finish | drop => simp [Action.opens] at opens

/-- While a session cannot be ended, only the emitted lines change it. -/
theorem after_of_buffering {session : Option CaptureSession}
    (kept : session = none ∨ ∀ action ∈ actions, action.ends = false) (lines : List String) :
    after ⟨.buffering lines, session⟩ actions =
      ⟨.buffering (lines ++ emittedBy actions), session⟩ := by
  induction actions generalizing lines with
  | nil => simp [after, emittedBy]
  | cons action rest inductionHypothesis =>
    have following := inductionHypothesis (kept.imp_right fun calm other member =>
      calm other (List.mem_cons_of_mem action member))
    cases action with
    | emit line =>
      rw [after, perform, Sink.emit, following, List.append_assoc]
      rfl
    | begin | withCapture body ending =>
      rw [after, perform_of_opens rfl rfl, following]
      rfl
    | finish | drop =>
      rcases kept with rfl | calm
      · exact following lines
      · simp [Action.ends] at calm

end Thread

/-- What a capture of a body comes to. -/
def captureAnswer (body : List Action) : Except Panic Unit → Answer
  | .ok () => .captured (emittedBy body)
  | .error panic => .panicked panic

open Thread

/-- Without a live session a body is captured, and the thread is as it was. -/
theorem perform_withCapture (body : List Action) (ending : Except Panic Unit) :
    start.perform (.withCapture body ending) = (captureAnswer body ending, start) := by
  have written : after ⟨.buffering [], none⟩ body = ⟨.buffering ([] ++ emittedBy body), none⟩ :=
    after_of_buffering (.inl rfl) []
  simp only [start, perform, withCapture, Sink.begin, written]
  cases ending <;> rfl

/-- Where a thread is after some actions: at its start, or in a session of its own that holds
the lines emitted since. -/
inductive Stands : List Action → Thread → Prop where
  | idle {actions : List Action} (quiet : ¬Live actions) : Stands actions start
  | live {earlier since : List Action} (opened : Opened earlier since) :
      Stands (earlier ++ .begin :: since)
        ⟨.buffering (emittedBy since), some ⟨some start.sink⟩⟩

/-- Every action keeps a thread where its history says that it is. -/
theorem Stands.step (stands : Stands actions thread) (action : Action) :
    Stands (actions ++ [action]) (thread.perform action).2 := by
  cases stands with
  | idle quiet =>
    have still (other : action ≠ .begin) : Stands (actions ++ [action]) start :=
      .idle fun live => (live_concat_iff.mp live).elim other fun before => quiet before.1
    cases action with
    | begin => exact .live ⟨quiet, by simp⟩
    | emit | finish | drop => exact still (by simp)
    | withCapture body ending =>
      rw [perform_withCapture]
      exact still (by simp)
  | @live earlier since opened =>
    by_cases ends : action.ends
    · have ended := @not_live_concat_of_ends (earlier ++ .begin :: since) action ends
      cases action with
      | finish | drop => exact .idle ended
      | begin | emit | withCapture => simp [Action.ends] at ends
    · have keeps : action.ends = false := by simpa using ends
      have stands := Stands.live (opened.concat keeps)
      rw [emittedBy_append, ← after_of_buffering (.inr (by simpa using keeps)),
        ← List.cons_append, ← List.append_assoc] at stands
      exact stands

theorem stands_after (actions : List Action) : Stands actions (start.after actions) := by
  induction actions using List.reverseRecOn with
  | nil => exact .idle not_live_nil
  | append_singleton actions action inductionHypothesis =>
    rw [after_append]
    exact inductionHypothesis.step action

/-- Without a live session the thread is as it was at the start. -/
theorem after_of_not_live (quiet : ¬Live actions) : start.after actions = start := by
  have stands := stands_after actions
  generalize start.after actions = thread at stands ⊢
  cases stands with
  | idle => rfl
  | live opened => exact absurd opened.live quiet

/-- The live session is the first that was begun since the last one ended. -/
theorem Live.exists_opened (live : Live actions) :
    ∃ earlier since, actions = earlier ++ .begin :: since ∧ Opened earlier since := by
  have stands := stands_after actions
  generalize start.after actions = thread at stands
  cases stands with
  | idle quiet => exact absurd live quiet
  | live opened => exact ⟨_, _, rfl, opened⟩

/-- The thread while a session of its own is live. -/
theorem after_of_opened (opened : Opened earlier since) :
    start.after (earlier ++ .begin :: since) =
      ⟨.buffering (emittedBy since), some ⟨some (start.after earlier).sink⟩⟩ := by
  rw [after_append, after_of_not_live opened.fresh]
  exact after_of_buffering (.inr opened.kept) []

/-- What a thread shows after some actions, and what its next action comes to. -/
structure CaptureHistory (actions : List Action) : Prop where
  isCapturing : (start.after actions).sink.isCapturing = true ↔ Live actions
  /-- Ending a session gives the lines that were emitted since it was begun, unless it is dropped,
  and the thread is as it was before. -/
  ended : ∀ earlier since, actions = earlier ++ .begin :: since → Opened earlier since →
    (start.after actions).perform .finish = (.captured (emittedBy since), start.after earlier) ∧
      (start.after actions).perform .drop = (.done, start.after earlier)
  /-- A live session is not disturbed by another that is asked for. -/
  refused : Live actions → ∀ action, action.opens = true →
    (start.after actions).perform action = (.panicked .reentrantCapture, start.after actions)
  begun : ¬Live actions → ((start.after actions).perform .begin).1 = .done
  /-- A capture gives the lines of its body, or the panic that left it, and the thread is as it
  was before. -/
  captured : ¬Live actions → ∀ body ending,
    (start.after actions).perform (.withCapture body ending) =
      (captureAnswer body ending, start.after actions)
  /-- All through a body a session is live that holds the lines of the body so far, and another
  that is asked for does not disturb it. -/
  within : ∀ done : List Action, (captive.after done).sink = .buffering (emittedBy done) ∧
    ∀ action : Action, action.opens = true →
      (captive.after done).perform action = (.panicked .reentrantCapture, captive.after done)

/-- Every sequence of actions of a thread has a capture history. -/
theorem captureHistory_of_actions (actions : List Action) : CaptureHistory actions where
  isCapturing := by
    by_cases live : Live actions
    · obtain ⟨earlier, since, rfl, opened⟩ := live.exists_opened
      simp [after_of_opened opened, Sink.isCapturing, live]
    · rw [after_of_not_live live]
      simp [start, Sink.isCapturing, live]
  ended earlier since split opened := by
    have idle := after_of_not_live opened.fresh
    rw [split, after_of_opened opened, idle]
    exact ⟨rfl, rfl⟩
  refused live action opens := by
    obtain ⟨earlier, since, rfl, opened⟩ := live.exists_opened
    exact perform_of_opens (congrArg Thread.sink (after_of_opened opened)) opens
  begun quiet := by
    rw [after_of_not_live quiet]
    rfl
  captured quiet body ending := by
    rw [after_of_not_live quiet, perform_withCapture]
  within done := by
    have written : captive.after done = ⟨.buffering (emittedBy done), none⟩ :=
      after_of_buffering (.inl rfl) []
    exact ⟨congrArg Thread.sink written,
      fun action opens => perform_of_opens (congrArg Thread.sink written) opens⟩

/-- A capture is refused inside a session, and its body is not run. -/
example : (start.after [.emit "before", .begin, .emit "one", .withCapture [.emit "lost"] (.ok ()),
    .begin, .emit "two"]).perform .finish = (.captured ["one", "two"], start) := by
  decide

end Playground.Console
