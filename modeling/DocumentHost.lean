import DocumentHost.Arena
import DocumentHost.CommandLine.Arguments
import DocumentHost.CommandLine.Explanation
import DocumentHost.CommandLine.Perform
import DocumentHost.CommandLine.Snapshot
import DocumentHost.Config.Basic
import DocumentHost.Config.Storage
import DocumentHost.Decimal.Literal
import DocumentHost.Decimal.Shortest
import DocumentHost.Digest
import DocumentHost.Error
import DocumentHost.ErrorReport
import DocumentHost.Files.Path
import DocumentHost.Files.Resolve
import DocumentHost.Files.Settings
import DocumentHost.Files.Tree
import DocumentHost.Host.Compile
import DocumentHost.Host.Context
import DocumentHost.Host.Descriptor
import DocumentHost.Host.Execute
import DocumentHost.Host.Inspection
import DocumentHost.Host.Observer
import DocumentHost.Host.Reclaim
import DocumentHost.Host.Source
import DocumentHost.Host.Values
import DocumentHost.Host.World
import DocumentHost.Instant
import DocumentHost.Json.Printer
import DocumentHost.Json.Reader
import DocumentHost.Json.Record
import DocumentHost.Json.Value
import DocumentHost.Language.Adapter
import DocumentHost.Language.Echo
import DocumentHost.Language.Index
import DocumentHost.Language.Registry
import DocumentHost.Main
import DocumentHost.Mini.Code
import DocumentHost.Mini.Interpreter
import DocumentHost.Mini.Language
import DocumentHost.Mini.Mistake
import DocumentHost.Mini.Outline
import DocumentHost.Mini.Program
import DocumentHost.Mini.Reader
import DocumentHost.NameTable
import DocumentHost.Options.Basic
import DocumentHost.Options.Key
import DocumentHost.Options.Record
import DocumentHost.Proofs.Arena
import DocumentHost.Proofs.Config.Loading
import DocumentHost.Proofs.Config.Storing
import DocumentHost.Proofs.Context.Course
import DocumentHost.Proofs.Context.Life
import DocumentHost.Proofs.Context.Operations
import DocumentHost.Proofs.Context.Reentry
import DocumentHost.Proofs.Descriptor.Fetching
import DocumentHost.Proofs.Descriptor.Filing
import DocumentHost.Proofs.Descriptor.Growth
import DocumentHost.Proofs.Descriptor.Invalidity
import DocumentHost.Proofs.Descriptor.Judging
import DocumentHost.Proofs.Descriptor.Later
import DocumentHost.Proofs.Descriptor.Links
import DocumentHost.Proofs.Descriptor.Listing
import DocumentHost.Proofs.Descriptor.Memory
import DocumentHost.Proofs.Descriptor.OnePerName
import DocumentHost.Proofs.Descriptor.Rereading
import DocumentHost.Proofs.Descriptor.Sources
import DocumentHost.Proofs.Descriptor.Tended
import DocumentHost.Proofs.Descriptor.Tending
import DocumentHost.Proofs.Descriptor.Verdict
import DocumentHost.Proofs.Files.Below
import DocumentHost.Proofs.Files.Following
import DocumentHost.Proofs.Files.Pieces
import DocumentHost.Proofs.Files.Resolving
import DocumentHost.Proofs.Files.Rewriting
import DocumentHost.Proofs.Files.Writing
import DocumentHost.Proofs.Host.Abreast
import DocumentHost.Proofs.Host.Agreement
import DocumentHost.Proofs.Host.Aside
import DocumentHost.Proofs.Host.Beside
import DocumentHost.Proofs.Host.Binding
import DocumentHost.Proofs.Host.Brackets
import DocumentHost.Proofs.Host.Changes
import DocumentHost.Proofs.Host.Checking
import DocumentHost.Proofs.Host.Compilation
import DocumentHost.Proofs.Host.Compiling
import DocumentHost.Proofs.Host.Composing
import DocumentHost.Proofs.Host.Dividing
import DocumentHost.Proofs.Host.EagerAndLazy
import DocumentHost.Proofs.Host.Entering
import DocumentHost.Proofs.Host.Evaluation
import DocumentHost.Proofs.Host.ExactPositions
import DocumentHost.Proofs.Host.Execution
import DocumentHost.Proofs.Host.Failing
import DocumentHost.Proofs.Host.FirstCompilation
import DocumentHost.Proofs.Host.Forgetting
import DocumentHost.Proofs.Host.InFlow
import DocumentHost.Proofs.Host.Keeping
import DocumentHost.Proofs.Host.KnownTags
import DocumentHost.Proofs.Host.LikePieces
import DocumentHost.Proofs.Host.Lockstep
import DocumentHost.Proofs.Host.Merging
import DocumentHost.Proofs.Host.Mirroring
import DocumentHost.Proofs.Host.Mistakes
import DocumentHost.Proofs.Host.Oblivion
import DocumentHost.Proofs.Host.Observing
import DocumentHost.Proofs.Host.Obtaining
import DocumentHost.Proofs.Host.Optimising
import DocumentHost.Proofs.Host.Planting
import DocumentHost.Proofs.Host.Preparing
import DocumentHost.Proofs.Host.Programs
import DocumentHost.Proofs.Host.Quiet
import DocumentHost.Proofs.Host.RawExecution
import DocumentHost.Proofs.Host.RawWalk
import DocumentHost.Proofs.Host.Recording
import DocumentHost.Proofs.Host.Releasing
import DocumentHost.Proofs.Host.Serving
import DocumentHost.Proofs.Host.SharedNames
import DocumentHost.Proofs.Host.SideBySide
import DocumentHost.Proofs.Host.Sourcing
import DocumentHost.Proofs.Host.SownTwins
import DocumentHost.Proofs.Host.SplitParts
import DocumentHost.Proofs.Host.Stages
import DocumentHost.Proofs.Host.Surroundings
import DocumentHost.Proofs.Host.Transparency
import DocumentHost.Proofs.Host.Twins
import DocumentHost.Proofs.Json.Editions
import DocumentHost.Proofs.Json.Lexemes
import DocumentHost.Proofs.Json.Rereading
import DocumentHost.Proofs.Language.Answering
import DocumentHost.Proofs.Language.MiniSegments
import DocumentHost.Proofs.Language.Registrations
import DocumentHost.Proofs.Language.Settled
import DocumentHost.Proofs.Language.StickyTags
import DocumentHost.Proofs.Language.Swaying
import DocumentHost.Proofs.Language.Univocal
import DocumentHost.Proofs.Mini.Completeness
import DocumentHost.Proofs.Mini.Concatenation
import DocumentHost.Proofs.Mini.Faults
import DocumentHost.Proofs.Mini.GeneratedCode
import DocumentHost.Proofs.Mini.Grammar
import DocumentHost.Proofs.Mini.Joining
import DocumentHost.Proofs.Mini.Lexeme
import DocumentHost.Proofs.Mini.Lexing
import DocumentHost.Proofs.Mini.MistakePlaces
import DocumentHost.Proofs.Mini.MistakenLines
import DocumentHost.Proofs.Mini.Passing
import DocumentHost.Proofs.Mini.Reading
import DocumentHost.Proofs.Mini.Rendering
import DocumentHost.Proofs.Mini.Running
import DocumentHost.Proofs.Mini.Soundness
import DocumentHost.Proofs.Mini.Summing
import DocumentHost.Proofs.NameTable
import DocumentHost.Proofs.Options.Framing
import DocumentHost.Proofs.Options.Key
import DocumentHost.Proofs.Outcome
import DocumentHost.Proofs.Running.Carrying
import DocumentHost.Proofs.Running.Documents
import DocumentHost.Proofs.Running.Endings
import DocumentHost.Proofs.Running.MiniHosts
import DocumentHost.Proofs.Running.Moments
import DocumentHost.Proofs.Running.Work
import DocumentHost.Proofs.Script
import DocumentHost.Proofs.Segment.Division
import DocumentHost.Proofs.Segment.Foremost
import DocumentHost.Proofs.Segment.NormalForm
import DocumentHost.Proofs.Segment.Parts
import DocumentHost.Proofs.Segment.Passes
import DocumentHost.Proofs.Segment.Splitting
import DocumentHost.Proofs.Segment.Tracking
import DocumentHost.Proofs.Text.Encoding
import DocumentHost.Proofs.Text.Occurrence
import DocumentHost.Proofs.Text.Position
import DocumentHost.Script
import DocumentHost.Segment.Compiled
import DocumentHost.Segment.Merging
import DocumentHost.Segment.Piece
import DocumentHost.Segment.Raw
import DocumentHost.Text.Blank
import DocumentHost.Text.Encoding
import DocumentHost.Text.Hidden
import DocumentHost.Text.Position
import DocumentHost.Text.Quoted
import DocumentHost.Text.Search
