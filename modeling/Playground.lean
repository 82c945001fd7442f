import Playground.Main
import Playground.Proofs.Erasure.BracketPairs
import Playground.Proofs.Erasure.NonNullMarks
import Playground.Proofs.Erasure.Juxtaposition
import Playground.Proofs.Erasure.LineEnding
import Playground.Proofs.Erasure.Tiling
import Playground.Proofs.Erasure.Untouched
import Playground.Proofs.Preview.Debounce
import Playground.Text.Uppercase
import Playground.Proofs.Erasure.Conditional.Expression
import Playground.Proofs.Erasure.Conditional.Reading
import Playground.Proofs.Erasure.Conditional.Symbols
import Playground.Proofs.Erasure.BracketMatching
import Playground.Proofs.Erasure.Conditional.Simple
import Playground.Proofs.Erasure.Conditional.Walk
import Playground.Proofs.Erasure.Conditional
import Playground.Proofs.Preview.Interleaving
import Playground.Proofs.Preview.NewestRender
import Playground.Proofs.Engine.Isolation
import Playground.Proofs.Preview.PublicationOrder
import Playground.Proofs.Engine.Contention
import Playground.Proofs.Script.Quiescence
import Playground.Proofs.Script.VirtualTime
import Playground.Proofs.Script.FaultMessage
import Playground.Proofs.Console.Capture
import Playground.Proofs.Settings.RoundTrip
import Playground.Proofs.Erasure.TypeGrammar
import Playground.Proofs.Command.WatchConvergence
import Playground.Proofs.Erasure.Typed.Variables
import Playground.Proofs.Erasure.Typed.Functions
import Playground.Proofs.Erasure.Typed.Classes
import Playground.Proofs.Erasure.Typed.Chains
import Playground.Proofs.Erasure.Typed.Calls
import Playground.Proofs.Erasure.Typed.GenericHeads
import Playground.Proofs.Erasure.ParameterProperties
import Playground.Proofs.Erasure.StringLiterals
import Playground.Proofs.Erasure.Typed.Specifiers
import Playground.Proofs.Erasure.Enumeration.Members
import Playground.Proofs.Erasure.Enumeration.Siblings
import Playground.Proofs.Erasure.Enumeration.Lines
import Playground.Proofs.Erasure.Trackers
import Playground.Proofs.Erasure.ErrorPlaces
import Playground.Proofs.Script.JobBudget
import Playground.Proofs.Script.Intervals
import Playground.Proofs.Script.RejectionLog
import Playground.Proofs.Markup.Assembly
import Playground.Proofs.Markup.Framing
import Playground.Proofs.Settings.AnyOrder
import Playground.Proofs.Erasure.MakesProgress
import Playground.Proofs.Erasure.TypeBalance
import Playground.Proofs.Buffers.InsertionOrder
