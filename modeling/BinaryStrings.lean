import BinaryStrings.Main
import BinaryStrings.Proofs.CommandLine.Agreement
import BinaryStrings.Proofs.CommandLine.Serving
import BinaryStrings.Proofs.CommandLine.TextOutput
import BinaryStrings.Proofs.Console.JsonOutput
import BinaryStrings.Proofs.Extraction.Complete
import BinaryStrings.Proofs.Extraction.LeastLength
import BinaryStrings.Proofs.Extraction.Padding
import BinaryStrings.Proofs.Extraction.Sections
import BinaryStrings.Proofs.Extraction.Threads
import BinaryStrings.Proofs.Image.Candidates
import BinaryStrings.Proofs.Likely.Shares
import BinaryStrings.Proofs.Pattern.NestedRepetition
import BinaryStrings.Proofs.Report.Determined
import BinaryStrings.Proofs.Report.Selecting
import BinaryStrings.Proofs.Scan.Places
import BinaryStrings.Proofs.Scan.Spans
import BinaryStrings.Proofs.Server.Detection
import BinaryStrings.Proofs.Server.Interleaving
import BinaryStrings.Proofs.Server.Isolation
import BinaryStrings.Proofs.Server.Lookup
import BinaryStrings.Proofs.Server.Paging
import BinaryStrings.Proofs.Server.RecentReports
import BinaryStrings.Proofs.Server.ResponseSize
import BinaryStrings.Proofs.Server.Search
import BinaryStrings.Proofs.Server.SectionSummary
import BinaryStrings.Proofs.Server.SharedData
import BinaryStrings.Proofs.Server.SpelledAddress
import BinaryStrings.Proofs.Settings.Defaults
import BinaryStrings.Proofs.Settings.Persistence
import BinaryStrings.Server.StandIn
