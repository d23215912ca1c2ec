import QueryLint.Disk.Listing
import QueryLint.Disk.System
import QueryLint.Main
import QueryLint.Proofs.ClauseGrammar
import QueryLint.Proofs.CrashFree
import QueryLint.Proofs.Outcome
import QueryLint.Proofs.StringTracking
import QueryLint.Settings.Json
import QueryLint.Proofs.LetterCase
import QueryLint.Proofs.LeadingRun
import QueryLint.Proofs.Layout
import QueryLint.Proofs.Batch
import QueryLint.Proofs.DiskPaths
import QueryLint.Proofs.ReportFiles
import QueryLint.Proofs.ReportFormat
import QueryLint.Proofs.TokenTexts
import QueryLint.Proofs.SettingsFile
import QueryLint.Proofs.MatchedParens
import QueryLint.Proofs.NestingDepth
import QueryLint.Proofs.DiskRelations
import QueryLint.Proofs.ExitCode
import QueryLint.Proofs.LiteralContents
import QueryLint.Proofs.Strictness
import QueryLint.Proofs.LiveParens
import QueryLint.Proofs.NestingFormula
import QueryLint.Proofs.NonEmptyQueries
import QueryLint.Proofs.SubqueryList
import QueryLint.Proofs.EarlyFailure
import QueryLint.Proofs.HiddenParens
import QueryLint.Proofs.SubqueryNesting
import QueryLint.Proofs.Malformed
import QueryLint.Proofs.WholeWords
import QueryLint.Proofs.BalanceRules
import QueryLint.Proofs.QuerySplitting
import QueryLint.Proofs.SplitModes
import QueryLint.Proofs.Octets
import QueryLint.Proofs.ParenSearch
import QueryLint.Proofs.SkippedFiles
import QueryLint.Proofs.DirectoryReading
import QueryLint.Proofs.SetOperands
