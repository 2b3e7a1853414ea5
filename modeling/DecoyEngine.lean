import DecoyEngine.Checksums
import DecoyEngine.Data.Aes
import DecoyEngine.Data.Ascending
import DecoyEngine.Data.Batches
import DecoyEngine.Data.BudgetedPrefix
import DecoyEngine.Data.ByteFrames
import DecoyEngine.Data.BytesText
import DecoyEngine.Data.Calendar
import DecoyEngine.Data.Checked
import DecoyEngine.Data.CumulativeTable
import DecoyEngine.Data.Decimal
import DecoyEngine.Data.DecimalReader
import DecoyEngine.Data.DecimalText
import DecoyEngine.Data.Dict
import DecoyEngine.Data.DigitText
import DecoyEngine.Data.Double
import DecoyEngine.Data.Feistel
import DecoyEngine.Data.FirstHit
import DecoyEngine.Data.FlatJson
import DecoyEngine.Data.GreedyOrder
import DecoyEngine.Data.Gregorian
import DecoyEngine.Data.Grid
import DecoyEngine.Data.IntDouble
import DecoyEngine.Data.IsoTime
import DecoyEngine.Data.Json
import DecoyEngine.Data.JsonPath
import DecoyEngine.Data.Luhn
import DecoyEngine.Data.Numerals
import DecoyEngine.Data.PieceQueue
import DecoyEngine.Data.PyRepr
import DecoyEngine.Data.Regex
import DecoyEngine.Data.RegexLanguage
import DecoyEngine.Data.RegexRun
import DecoyEngine.Data.RowLoop
import DecoyEngine.Data.SortedRuns
import DecoyEngine.Data.SpanSweep
import DecoyEngine.Data.Splice
import DecoyEngine.Data.Sql
import DecoyEngine.Data.Text
import DecoyEngine.Data.TextLines
import DecoyEngine.Data.TextSplit
import DecoyEngine.Data.Vocabulary
import DecoyEngine.DeclaredCasting.Accounts
import DecoyEngine.DeclaredCasting.Boundary
import DecoyEngine.DeclaredCasting.Cobol
import DecoyEngine.DeclaredCasting.CobolPacked
import DecoyEngine.DeclaredCasting.CobolRoundTrip
import DecoyEngine.DeclaredCasting.Conservation
import DecoyEngine.DeclaredCasting.Evidence
import DecoyEngine.DeclaredCasting.History
import DecoyEngine.DeclaredCasting.Ledger
import DecoyEngine.DeclaredCasting.NumberGrammar
import DecoyEngine.DeclaredCasting.NumberPlain
import DecoyEngine.DeclaredCasting.NumberRoundTrip
import DecoyEngine.DeclaredCasting.NumberText
import DecoyEngine.DeclaredCasting.Numeric
import DecoyEngine.DeclaredCasting.OutputFormats
import DecoyEngine.DeclaredCasting.OutputInverse
import DecoyEngine.DeclaredCasting.OutputInverseLaw
import DecoyEngine.DeclaredCasting.OutputMarks
import DecoyEngine.DeclaredCasting.OutputReadBack
import DecoyEngine.DeclaredCasting.OutputWidth
import DecoyEngine.DeclaredCasting.Quarantine
import DecoyEngine.DeclaredCasting.QuarantineCleanup
import DecoyEngine.DeclaredCasting.QuarantineCodec
import DecoyEngine.DeclaredCasting.QuarantineLayout
import DecoyEngine.DeclaredCasting.QuarantineReadBack
import DecoyEngine.DeclaredCasting.QuarantineReader
import DecoyEngine.DeclaredCasting.Rows
import DecoyEngine.DeclaredCasting.Stream
import DecoyEngine.DeclaredCasting.StreamRun
import DecoyEngine.DeclaredCasting.WholeRun
import DecoyEngine.Detection.AsciiValidators
import DecoyEngine.Detection.NativeDetectors
import DecoyEngine.Detection.NativeScan
import DecoyEngine.Detection.NativeScanParity
import DecoyEngine.Detection.NativeStreetParity
import DecoyEngine.Detection.NativeValidatorParity
import DecoyEngine.Detection.Patterns
import DecoyEngine.Detection.RedactionCoverage
import DecoyEngine.Detection.Spans
import DecoyEngine.Detection.TextMask
import DecoyEngine.Detection.TextMaskAgreement
import DecoyEngine.Detection.TextMaskRoutes
import DecoyEngine.Detection.Validators
import DecoyEngine.Detection.Verdicts
import DecoyEngine.Determinism.Derive
import DecoyEngine.Determinism.NativeBatch
import DecoyEngine.Determinism.NativeBatchParity
import DecoyEngine.Determinism.NativeBatchRanges
import DecoyEngine.Determinism.NativeBatchSchedule
import DecoyEngine.Execution.CarryAlias
import DecoyEngine.Execution.CarryLaw
import DecoyEngine.Execution.CarryReads
import DecoyEngine.Execution.Categorical
import DecoyEngine.Execution.ChunkJoin
import DecoyEngine.Execution.ChunkedCarry
import DecoyEngine.Execution.ChunkedMasking
import DecoyEngine.Execution.ColumnAccess
import DecoyEngine.Execution.ErroredParents
import DecoyEngine.Execution.FkIntColumns
import DecoyEngine.Execution.FkJoinTokens
import DecoyEngine.Execution.FkKeys
import DecoyEngine.Execution.FkResolve
import DecoyEngine.Execution.MultiParent
import DecoyEngine.Execution.Nested
import DecoyEngine.Execution.NestedLaw
import DecoyEngine.Execution.NestedMasking
import DecoyEngine.Execution.NestedWriteback
import DecoyEngine.Execution.OutOfCore.ExternalSort
import DecoyEngine.Execution.OutOfCore.FkChunks
import DecoyEngine.Execution.OutOfCore.FkChunksLaw
import DecoyEngine.Execution.OutOfCore.JoinCursors
import DecoyEngine.Execution.OutOfCore.JoinCursorsGuard
import DecoyEngine.Execution.OutOfCore.JoinCursorsLaw
import DecoyEngine.Execution.OutOfCore.KeyJoin
import DecoyEngine.Execution.OutOfCore.KeyRelation
import DecoyEngine.Execution.OutOfCore.MergedRelation
import DecoyEngine.Execution.OutOfCore.RunMerge
import DecoyEngine.Execution.OutOfCore.SortedOutput
import DecoyEngine.Execution.OutOfCore.SorterBound
import DecoyEngine.Execution.OutOfCore.SorterMemory
import DecoyEngine.Execution.OutOfCore.SorterSteps
import DecoyEngine.Execution.OutputSink
import DecoyEngine.Execution.OutputSinkCasts
import DecoyEngine.Execution.OutputSinkGroups
import DecoyEngine.Execution.OutputSinkLaw
import DecoyEngine.Execution.OutputSinkSchema
import DecoyEngine.Execution.ParentMap
import DecoyEngine.Execution.SequentialOrder
import DecoyEngine.Execution.Tokenize
import DecoyEngine.Execution.TopCode
import DecoyEngine.Execution.TopCodeLaw
import DecoyEngine.Execution.WorkOrder
import DecoyEngine.Execution.WorkOrdering
import DecoyEngine.Generation.BudgetLedger
import DecoyEngine.Generation.CanonicalParity
import DecoyEngine.Generation.Canonicalize
import DecoyEngine.Generation.PoolSampler
import DecoyEngine.Generation.Streamed
import DecoyEngine.Generation.StreamedBudget
import DecoyEngine.Generation.StreamedLaw
import DecoyEngine.Generation.Window
import DecoyEngine.Generation.WindowRead
import DecoyEngine.Generation.WindowRows
import DecoyEngine.Io.BoundedReader
import DecoyEngine.Io.CsvBlocks
import DecoyEngine.Io.CsvFields
import DecoyEngine.Io.CsvFieldsLaw
import DecoyEngine.Io.CsvFramer
import DecoyEngine.Io.CsvFraming
import DecoyEngine.Io.CsvMachine
import DecoyEngine.NpiGrammar
import DecoyEngine.Planning.Compiled
import DecoyEngine.Planning.RoundTrip
import DecoyEngine.Planning.SeedEnvelope
import DecoyEngine.Planning.Serialize
import DecoyEngine.Planning.Types
import DecoyEngine.Profile.FixedWidth
import DecoyEngine.Profile.FixedWidthRoundTrip
import DecoyEngine.Reasons.Record
import DecoyEngine.Relationships.Graph
import DecoyEngine.Relationships.GraphOrdering
import DecoyEngine.Relationships.Kahn
import DecoyEngine.Relationships.Namespace
import DecoyEngine.RowQuarantine
import DecoyEngine.Subset.Closure
import DecoyEngine.Subset.EdgeIds
import DecoyEngine.Subset.LeastClosure
import DecoyEngine.Subset.RangeBounds
import DecoyEngine.Subset.Sample
import DecoyEngine.Transforms.BucketPerturb
import DecoyEngine.Transforms.Ff1
import DecoyEngine.Transforms.Ff1Permutation
import DecoyEngine.Transforms.Fpe
import DecoyEngine.Transforms.FpeChecksum
import DecoyEngine.Transforms.FpeChecksumValidity
import DecoyEngine.Transforms.FpeNative
import DecoyEngine.Transforms.FpeNativeParity
import DecoyEngine.Transforms.FpeRoundTrip
import DecoyEngine.Transforms.FpeUnmask
import DecoyEngine.Transforms.GeoGeneralize
import DecoyEngine.Transforms.GroupedSeries
import DecoyEngine.Transforms.GroupedSeriesLaw
import DecoyEngine.Transforms.GroupedSeriesRuns
import DecoyEngine.Validators.FkValidators
import DecoyEngine.Validators.FkValidatorsLaw
import DecoyEngine.Vault
import DecoyEngine.VaultRoundTrip
