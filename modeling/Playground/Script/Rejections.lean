/-!
# Unhandled rejections

A promise that is rejected while nothing handles it is noted under its key; the note is
struck out when a handler is attached later. Asking for the earliest note clears the log.
-/

namespace Playground.Script

/-- The keys and messages of rejections that nothing handles, in the order in which they
were noted. -/
structure RejectionLog where
  entries : List (Nat × String)
  deriving DecidableEq, Repr

namespace RejectionLog

/-- The empty log. -/
def empty : RejectionLog := ⟨[]⟩

/-- Notes a rejection. -/
def note (log : RejectionLog) (key : Nat) (message : String) : RejectionLog :=
  ⟨log.entries ++ [(key, message)]⟩

/-- Strikes out the notes of a promise. -/
def strike (log : RejectionLog) (key : Nat) : RejectionLog :=
  ⟨log.entries.filter fun entry => entry.1 != key⟩

/-- The earliest message, and the cleared log. -/
def take (log : RejectionLog) : Option String × RejectionLog :=
  (log.entries.head?.map Prod.snd, empty)

end RejectionLog

end Playground.Script
