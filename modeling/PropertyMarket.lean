import PropertyMarket.Assistant
import PropertyMarket.Execution
import PropertyMarket.Legend.Memory
import PropertyMarket.Legend.Stored
import PropertyMarket.Proofs.Outcome
import PropertyMarket.Proofs.Fields
import PropertyMarket.Proofs.Availability
import PropertyMarket.Proofs.ComparisonColumns
import PropertyMarket.Proofs.Compiled
import PropertyMarket.Proofs.Reads
import PropertyMarket.Proofs.Checked
import PropertyMarket.Proofs.LooseIntent
import PropertyMarket.Proofs.Buckets
import PropertyMarket.Proofs.Quantile
import PropertyMarket.Proofs.MemoryLegend
import PropertyMarket.Proofs.Request
import PropertyMarket.Proofs.Pieces
import PropertyMarket.Proofs.Erasure
import PropertyMarket.Proofs.NonInterference
import PropertyMarket.Proofs.PercentText
import PropertyMarket.Proofs.References
import PropertyMarket.Proofs.AllowList
import PropertyMarket.Proofs.Rounding
import PropertyMarket.Proofs.Nearest
import PropertyMarket.Proofs.Cell
import PropertyMarket.Proofs.Meaning
import PropertyMarket.Proofs.StoredLegend
import PropertyMarket.Proofs.SuppliedBreaks
import PropertyMarket.Proofs.Percent
import PropertyMarket.Proofs.Overflow
import PropertyMarket.Proofs.PercentRange
import PropertyMarket.Proofs.RowKeys
import PropertyMarket.Proofs.KeyOrder
import PropertyMarket.Proofs.YearlyPlaces
import PropertyMarket.Proofs.YearlyRows
import PropertyMarket.Proofs.YearlyJoin
import PropertyMarket.Proofs.YearlyLag
import PropertyMarket.Proofs.Regression
import PropertyMarket.Proofs.BestLine
import PropertyMarket.Proofs.SlopeRows
import PropertyMarket.Proofs.SlopeJoin
import PropertyMarket.Proofs.LatestWindow
import PropertyMarket.Proofs.Schedules
import PropertyMarket.Proofs.LegendSchedules
import PropertyMarket.Proofs.Leniency
import PropertyMarket.Proofs.Replies
import PropertyMarket.Proofs.StoredScope
import PropertyMarket.Proofs.SignificantDigits
import PropertyMarket.Proofs.LegendSources
import PropertyMarket.Proofs.Strictness
import PropertyMarket.Proofs.Confidence
import PropertyMarket.Proofs.Pages
import PropertyMarket.Proofs.Entries
import PropertyMarket.Proofs.CellEntries
import PropertyMarket.Proofs.PickedLines
import PropertyMarket.Proofs.RollupPages
import PropertyMarket.Proofs.DeltaPages
import PropertyMarket.Proofs.Refusals
import PropertyMarket.Proofs.Acceptance
import PropertyMarket.Proofs.OperatorLaws
import PropertyMarket.Proofs.DerivedReads
import PropertyMarket.Proofs.QuantileCounts
import PropertyMarket.Proofs.GroupedColumns
import PropertyMarket.Proofs.QuantileLaws
import PropertyMarket.Proofs.SlopeLaws
import PropertyMarket.Proofs.Reshaping
import PropertyMarket.Proofs.ReadBack
import PropertyMarket.Proofs.Executions
import PropertyMarket.Proofs.WrittenDigits
import PropertyMarket.Proofs.BucketLabels
import PropertyMarket.Proofs.ShortestDigits
import PropertyMarket.Proofs.ProducedLabels
import PropertyMarket.Proofs.SaleGroups
