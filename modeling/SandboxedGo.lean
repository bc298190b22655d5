import SandboxedGo.Decimal.Scientific
import SandboxedGo.Decimal.Reader
import SandboxedGo.Text.CharClass.Words
import SandboxedGo.Text.CharClass.Display
import SandboxedGo.Text.CharClass.Casing
import SandboxedGo.Text.Character
import SandboxedGo.Text.Case
import SandboxedGo.Text.Utf8
import SandboxedGo.Text.Quoted
import SandboxedGo.Source.Token
import SandboxedGo.Source.Fault
import SandboxedGo.Source.Lexer
import SandboxedGo.Source.Tree
import SandboxedGo.Source.Parser
import SandboxedGo.Json
import SandboxedGo.Table
import SandboxedGo.Library.Catalog
import SandboxedGo.Text.Search
import SandboxedGo.Value
import SandboxedGo.Types.NumberWidth
import SandboxedGo.Walk
import SandboxedGo.Store
import SandboxedGo.Machine
import SandboxedGo.Store.Contents
import SandboxedGo.Format.FloatText
import SandboxedGo.Store.Boundary
import SandboxedGo.Types.Resolution
import SandboxedGo.Eval.Evaluator
import SandboxedGo.Eval.Computation
import SandboxedGo.Eval.Basic
import SandboxedGo.Eval.Conversion
import SandboxedGo.Eval.ZeroValue
import SandboxedGo.Eval.DynamicType
import SandboxedGo.Eval.Operators
import SandboxedGo.Eval.Call
import SandboxedGo.Eval.Methods
import SandboxedGo.Format.Layout
import SandboxedGo.Format.Printing
import SandboxedGo.Library.Arguments
import SandboxedGo.Library.Fmt
import SandboxedGo.Library.Strings
import SandboxedGo.Library.Strconv
import SandboxedGo.Library.Math
import SandboxedGo.Library.Errors
import SandboxedGo.Library.Unicode
import SandboxedGo.Library.Sort
import SandboxedGo.Library.Json
import SandboxedGo.Library.Call
import SandboxedGo.Eval.Builtins
import SandboxedGo.Eval.TypeOperands
import SandboxedGo.Eval.Perform
import SandboxedGo.Eval.Literals
import SandboxedGo.Eval.Expressions
import SandboxedGo.Eval.Assignment
import SandboxedGo.Eval.Statements
import SandboxedGo.Run
import SandboxedGo.OutputBuffer
import SandboxedGo.Text.Digits
import SandboxedGo.Interpreter
import SandboxedGo.Submission.Scan
import SandboxedGo.Submission.ByteScan
import SandboxedGo.Submission.Policy
import SandboxedGo.Submission.HostCalls
import SandboxedGo.Digest
import SandboxedGo.Execution.Interpreted
import SandboxedGo.Artifact.Cache
import SandboxedGo.Duration
import SandboxedGo.Settings
import SandboxedGo.Logging
import SandboxedGo.Artifact.Compiler
import SandboxedGo.Artifact.Traffic
import SandboxedGo.Toml
import SandboxedGo.Toml.Scalar
import SandboxedGo.Toml.Reader
import SandboxedGo.Settings.Reader
import SandboxedGo.FailureReport
import SandboxedGo.Execution.Failure
import SandboxedGo.Bridge
import SandboxedGo.Sandbox
import SandboxedGo.Proofs.Halting
import SandboxedGo.Proofs.Visible
import SandboxedGo.Proofs.Limits
import SandboxedGo.Proofs.Names
import SandboxedGo.Proofs.Literals
import SandboxedGo.Proofs.Lexing
import SandboxedGo.Proofs.SharedTokens
import SandboxedGo.Proofs.ImportPaths
import SandboxedGo.Proofs.ParserSteps
import SandboxedGo.Proofs.ImportClauses
import SandboxedGo.Proofs.HiddenAlias
import SandboxedGo.Proofs.Following
import SandboxedGo.Proofs.Building
import SandboxedGo.Proofs.BuildingSlices
import SandboxedGo.Proofs.TextSizes
import SandboxedGo.Proofs.UnaskedTexts
import SandboxedGo.Proofs.AllocationCap
import SandboxedGo.Proofs.Traversals
import SandboxedGo.Proofs.TypeResolution
import SandboxedGo.Proofs.TreeLevels
import SandboxedGo.Proofs.DeepChains
import SandboxedGo.Proofs.NestingBound
import SandboxedGo.Proofs.CacheTraffic
import SandboxedGo.Proofs.CacheAccounts
import SandboxedGo.Proofs.LeastRecentlyUsed
import SandboxedGo.Proofs.Lookahead
import SandboxedGo.Proofs.Gaps
import SandboxedGo.Proofs.GapSteps
import SandboxedGo.Proofs.FaithfulRenaming
import SandboxedGo.Proofs.SharedTexts
import SandboxedGo.Proofs.QuotedTexts
import SandboxedGo.Proofs.PointedVariables
import SandboxedGo.Proofs.ValueSemantics
import SandboxedGo.Proofs.LaidOutPrograms
import SandboxedGo.Proofs.TightenedPolicies
import SandboxedGo.Proofs.HostBoundary
import SandboxedGo.Proofs.Marshalling
import SandboxedGo.Proofs.StrayJumps
import SandboxedGo.Proofs.FencedPrograms
import SandboxedGo.Proofs.RenamedPieces
import SandboxedGo.Proofs.StepBudget
import SandboxedGo.Proofs.HostBindings
import SandboxedGo.Proofs.PrecedenceClimbing
import SandboxedGo.Proofs.GrammarProgress
import SandboxedGo.Proofs.WrittenWords
import SandboxedGo.Proofs.EntryPoints
import SandboxedGo.Proofs.TokenPlaces
import SandboxedGo.Proofs.IntegerTexts
import SandboxedGo.Proofs.IntegerLiterals
import SandboxedGo.Proofs.Courses
import SandboxedGo.Proofs.CallBooks
import SandboxedGo.Proofs.RecoveredPanics
import SandboxedGo.Proofs.LateWrapping
import SandboxedGo.Proofs.TupleAssignments
import SandboxedGo.Proofs.NarrowVariables
import SandboxedGo.Proofs.IntegerOperators
import SandboxedGo.Proofs.MapTurns
import SandboxedGo.Proofs.AppendedSlices
import SandboxedGo.Proofs.StoredValues
import SandboxedGo.Proofs.LoopVariables
import SandboxedGo.Proofs.ConvertedTexts
import SandboxedGo.Proofs.SlicedTexts
import SandboxedGo.Proofs.SpareCapacity
import SandboxedGo.Proofs.PromotedFields
import SandboxedGo.Proofs.ListedFields
import SandboxedGo.Proofs.PromotedWrites
import SandboxedGo.Proofs.WrappedOperands
import SandboxedGo.Proofs.IndentedDocuments
import SandboxedGo.Proofs.StableSorting
import SandboxedGo.Proofs.SearchedPlaces
import SandboxedGo.Proofs.JoinedPieces
import SandboxedGo.Proofs.CapturedStreams
import SandboxedGo.Proofs.PoolAccounts
import SandboxedGo.Proofs.MemoryPages
import SandboxedGo.Proofs.PlacedPoints
import SandboxedGo.Proofs.PassedLiterals
import SandboxedGo.Proofs.MatchedBraces
import SandboxedGo.Proofs.WholeLines
import SandboxedGo.Proofs.CutDeclarations
import SandboxedGo.Proofs.ByteOffsets
import SandboxedGo.Proofs.ScannedBytes
import SandboxedGo.Proofs.ScannedSpans
