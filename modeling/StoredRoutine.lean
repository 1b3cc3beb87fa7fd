import StoredRoutine.Batch.Load
import StoredRoutine.Batch.Run
import StoredRoutine.Binary64
import StoredRoutine.Catalogue.Application
import StoredRoutine.Catalogue.Function
import StoredRoutine.Catalogue.Module
import StoredRoutine.Cause
import StoredRoutine.CommandLine.Arguments
import StoredRoutine.CommandLine.Course
import StoredRoutine.CommandLine.Run
import StoredRoutine.Decimal
import StoredRoutine.DocBlock
import StoredRoutine.Encoding
import StoredRoutine.EnvFile.Parser
import StoredRoutine.EnvFile.Reading
import StoredRoutine.FileTree.Access
import StoredRoutine.FileTree.Basic
import StoredRoutine.FileTree.Glob
import StoredRoutine.Json.Basic
import StoredRoutine.Json.Reading
import StoredRoutine.Literal
import StoredRoutine.Log.Logging
import StoredRoutine.Log.Record
import StoredRoutine.Log.Setup
import StoredRoutine.Log.Template
import StoredRoutine.MadeError
import StoredRoutine.Main
import StoredRoutine.NamePolicy
import StoredRoutine.OrderedMap
import StoredRoutine.Parameter
import StoredRoutine.Placeholder
import StoredRoutine.Proofs.AppendedScripts
import StoredRoutine.Proofs.AtomicWrites
import StoredRoutine.Proofs.BatchAccounting
import StoredRoutine.Proofs.BatchLoop
import StoredRoutine.Proofs.BindMarkers
import StoredRoutine.Proofs.Boundaries
import StoredRoutine.Proofs.BreakSpellings
import StoredRoutine.Proofs.CarriageReturns
import StoredRoutine.Proofs.CaseVariants
import StoredRoutine.Proofs.ColumnTypes
import StoredRoutine.Proofs.Conflicts
import StoredRoutine.Proofs.CourseSteps
import StoredRoutine.Proofs.DataModel
import StoredRoutine.Proofs.DatabaseImages
import StoredRoutine.Proofs.DatabaseOperations
import StoredRoutine.Proofs.DocumentedParameters
import StoredRoutine.Proofs.DocumentedTypes
import StoredRoutine.Proofs.DurableDatabases
import StoredRoutine.Proofs.Encodings
import StoredRoutine.Proofs.ExitCodes
import StoredRoutine.Proofs.FragmentsByLine
import StoredRoutine.Proofs.GivenOrder
import StoredRoutine.Proofs.GroupedLines
import StoredRoutine.Proofs.JoinedStatements
import StoredRoutine.Proofs.JsonReading
import StoredRoutine.Proofs.JsonTokens
import StoredRoutine.Proofs.LeftmostLongest
import StoredRoutine.Proofs.LineEndings
import StoredRoutine.Proofs.ListedPaths
import StoredRoutine.Proofs.LiteralReading
import StoredRoutine.Proofs.Loading
import StoredRoutine.Proofs.MarkedPlaceholders
import StoredRoutine.Proofs.MetadataDocument
import StoredRoutine.Proofs.MetadataWrites
import StoredRoutine.Proofs.OrderedMap
import StoredRoutine.Proofs.Outcome
import StoredRoutine.Proofs.ParameterAgreement
import StoredRoutine.Proofs.ParameterNames
import StoredRoutine.Proofs.PayloadText
import StoredRoutine.Proofs.PhysicalLines
import StoredRoutine.Proofs.PlaceholderScan
import StoredRoutine.Proofs.QuietSessions
import StoredRoutine.Proofs.Reading
import StoredRoutine.Proofs.Records
import StoredRoutine.Proofs.RenderedDocBlock
import StoredRoutine.Proofs.RepeatedRuns
import StoredRoutine.Proofs.Resolution
import StoredRoutine.Proofs.Rules
import StoredRoutine.Proofs.RunBatches
import StoredRoutine.Proofs.RunEndings
import StoredRoutine.Proofs.RunPlanning
import StoredRoutine.Proofs.RunStages
import StoredRoutine.Proofs.ScratchLives
import StoredRoutine.Proofs.ScratchOpening
import StoredRoutine.Proofs.ScriptRuns
import StoredRoutine.Proofs.Separation
import StoredRoutine.Proofs.SessionChanges
import StoredRoutine.Proofs.SnakeCaseNames
import StoredRoutine.Proofs.Stages
import StoredRoutine.Proofs.StatementLines
import StoredRoutine.Proofs.Substitution
import StoredRoutine.Proofs.TreeChanges
import StoredRoutine.Proofs.Trimming
import StoredRoutine.Proofs.VolatileLives
import StoredRoutine.Proofs.WholeRuns
import StoredRoutine.Proofs.WrittenMetadata
import StoredRoutine.Proofs.WrittenPaths
import StoredRoutine.Routine.Load
import StoredRoutine.Routine.Metadata
import StoredRoutine.Scratch.Basic
import StoredRoutine.Scratch.Connection
import StoredRoutine.Scratch.Database
import StoredRoutine.Scratch.Embedded
import StoredRoutine.Scratch.Image
import StoredRoutine.Scratch.Sql.Definition
import StoredRoutine.Scratch.Sql.Reading
import StoredRoutine.Scratch.Sql.Statement
import StoredRoutine.Scratch.Sql.Token
import StoredRoutine.Scratch.Table
import StoredRoutine.Script
import StoredRoutine.Session
import StoredRoutine.Settings
import StoredRoutine.Task
import StoredRoutine.Text.Basic
import StoredRoutine.Text.CaseMapping
import StoredRoutine.Text.Quoted
import StoredRoutine.Text.Word
