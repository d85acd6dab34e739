import ConstraintNet.ArcQueue
import ConstraintNet.Binary64
import ConstraintNet.Binary64.Decimal
import ConstraintNet.Binary64.Shortest
import ConstraintNet.CommandLine.Arguments
import ConstraintNet.CommandLine.Command
import ConstraintNet.CommandLine.Reply
import ConstraintNet.Constraint
import ConstraintNet.Domain
import ConstraintNet.Engine
import ConstraintNet.Error
import ConstraintNet.Folder
import ConstraintNet.Journal
import ConstraintNet.JsonToken
import ConstraintNet.JsonValue
import ConstraintNet.KeyStream
import ConstraintNet.Main
import ConstraintNet.Network
import ConstraintNet.NetworkText.Lexeme
import ConstraintNet.NetworkText.Reader
import ConstraintNet.NetworkText.Writer
import ConstraintNet.Ordering
import ConstraintNet.Proofs.AcceptedText
import ConstraintNet.Proofs.Accounting
import ConstraintNet.Proofs.Alike
import ConstraintNet.Proofs.AllowedPairs
import ConstraintNet.Proofs.ArcConsistency
import ConstraintNet.Proofs.ArcQueue
import ConstraintNet.Proofs.Assignment
import ConstraintNet.Proofs.BacktrackFree
import ConstraintNet.Proofs.Choice
import ConstraintNet.Proofs.Coherence
import ConstraintNet.Proofs.Confluence
import ConstraintNet.Proofs.Counters
import ConstraintNet.Proofs.Decision
import ConstraintNet.Proofs.Depth
import ConstraintNet.Proofs.Description
import ConstraintNet.Proofs.Domination
import ConstraintNet.Proofs.Draining
import ConstraintNet.Proofs.FaultLine
import ConstraintNet.Proofs.FixedPoint
import ConstraintNet.Proofs.Forest
import ConstraintNet.Proofs.FullPass
import ConstraintNet.Proofs.Grammar
import ConstraintNet.Proofs.GreatestFamily
import ConstraintNet.Proofs.IncrementalPropagation
import ConstraintNet.Proofs.Lexicographic
import ConstraintNet.Proofs.Lifecycle
import ConstraintNet.Proofs.Lockstep
import ConstraintNet.Proofs.Lookups
import ConstraintNet.Proofs.MirroredSearch
import ConstraintNet.Proofs.Narrowing
import ConstraintNet.Proofs.NodeInvariant
import ConstraintNet.Proofs.ParallelConstraints
import ConstraintNet.Proofs.Propagation
import ConstraintNet.Proofs.PropagationContract
import ConstraintNet.Proofs.Puzzle.Draws
import ConstraintNet.Proofs.Puzzle.ExactArithmetic
import ConstraintNet.Proofs.Puzzle.Langford
import ConstraintNet.Proofs.Puzzle.Queens
import ConstraintNet.Proofs.Puzzle.Satisfaction
import ConstraintNet.Proofs.Puzzle.SimpleNetworks
import ConstraintNet.Proofs.Puzzle.Sudoku
import ConstraintNet.Proofs.Puzzle.Tightness
import ConstraintNet.Proofs.QueueRequests
import ConstraintNet.Proofs.Relisting
import ConstraintNet.Proofs.RenamedPropagation
import ConstraintNet.Proofs.Renaming
import ConstraintNet.Proofs.Revision
import ConstraintNet.Proofs.RevisionAgreement
import ConstraintNet.Proofs.SearchRuns
import ConstraintNet.Proofs.SmallerTrees
import ConstraintNet.Proofs.Solver
import ConstraintNet.Proofs.StrongestPolicy
import ConstraintNet.Proofs.Support
import ConstraintNet.Proofs.Tallies
import ConstraintNet.Proofs.Unwinding
import ConstraintNet.Proofs.UseOrder
import ConstraintNet.Proofs.Visits
import ConstraintNet.Proofs.WrittenText
import ConstraintNet.Propagation
import ConstraintNet.Propagation.ArcConsistency
import ConstraintNet.Propagation.ForwardChecking
import ConstraintNet.Propagation.Revision
import ConstraintNet.Puzzle.Error
import ConstraintNet.Puzzle.Langford
import ConstraintNet.Puzzle.Queens
import ConstraintNet.Puzzle.RandomNetwork
import ConstraintNet.Puzzle.Sudoku
import ConstraintNet.Search
import ConstraintNet.Session
import ConstraintNet.Settings
import ConstraintNet.Settings.Reader
import ConstraintNet.Statistics
import ConstraintNet.Statistics.Table
import ConstraintNet.Text.Blank
import ConstraintNet.Text.CharLiteral
import ConstraintNet.Text.Hidden
import ConstraintNet.Total
import ConstraintNet.Value
