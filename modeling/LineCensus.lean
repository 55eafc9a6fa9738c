import LineCensus.FileSystem.Tree
import LineCensus.Glob.Denotation
import LineCensus.Main
import LineCensus.Report.Reader
import LineCensus.Scan.View
import LineCensus.Proofs.Classify.BlockFlag
import LineCensus.Proofs.Classify.Stateless
import LineCensus.Proofs.Classify.Concatenation
import LineCensus.Proofs.Classify.RegionTags
import LineCensus.Proofs.Path.Below
import LineCensus.Proofs.FileSystem.Lawful
import LineCensus.Proofs.Scan.Visited
import LineCensus.Proofs.Scan.Trace
import LineCensus.Proofs.Scan.Candidates
import LineCensus.Proofs.Scan.Accounts
import LineCensus.Proofs.Scan.Counters
import LineCensus.Proofs.Scan.Agreement
import LineCensus.Proofs.Scan.Congruence
import LineCensus.Proofs.Scan.Limit
import LineCensus.Proofs.Path.Components
import LineCensus.Proofs.Scan.Order
import LineCensus.Proofs.Tally.Merge
import LineCensus.Proofs.Tally.Rows
import LineCensus.Proofs.Scan.Verbose
import LineCensus.Proofs.Scan.Decomposition
import LineCensus.Proofs.Text.Lines
import LineCensus.Proofs.Text.Utf8
import LineCensus.Proofs.Scan.Narrowing
import LineCensus.Proofs.Scan.Places
import LineCensus.Proofs.Scan.Reading
import LineCensus.Proofs.Scan.Depth
import LineCensus.Proofs.Scan.Pruning
import LineCensus.Proofs.Scan.Filtering
import LineCensus.Proofs.Scan.Balance
import LineCensus.Proofs.Text.Words
import LineCensus.Proofs.Decimal.Digits
import LineCensus.Proofs.Report.Views
import LineCensus.Proofs.CommandLine.Run
import LineCensus.Proofs.Scan.Errors
import LineCensus.Proofs.Text.Breaks
import LineCensus.Proofs.Text.Joining
import LineCensus.Proofs.Scan.Stepwise
import LineCensus.Proofs.Scan.Termination
import LineCensus.Proofs.Text.Trim
import LineCensus.Proofs.Classify.Indentation
import LineCensus.Proofs.Classify.BlockSpan
import LineCensus.Proofs.Scan.RootLevel
import LineCensus.Proofs.Scan.Failures
import LineCensus.Proofs.Language.Extensions
import LineCensus.Proofs.Path.LastName
import LineCensus.Proofs.Language.FileNames
import LineCensus.Proofs.Report.ReadBack
import LineCensus.Proofs.Tally.Capacity
import LineCensus.Proofs.Meter.Progress
import LineCensus.Proofs.Text.Style
import LineCensus.Proofs.Report.Colours
import LineCensus.Proofs.Glob.Placement
import LineCensus.Proofs.Glob.Search
import LineCensus.Proofs.Glob.Language
import LineCensus.Proofs.Scan.Patterns
import LineCensus.Proofs.Classify.RegionMask
import LineCensus.Proofs.Report.Layout
import LineCensus.Proofs.CommandLine.Reading
import LineCensus.Proofs.CommandLine.Spelling
