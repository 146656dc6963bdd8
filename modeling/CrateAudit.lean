import CrateAudit.Analysis
import CrateAudit.Announcer
import CrateAudit.Command.Arguments
import CrateAudit.Command.Outcome
import CrateAudit.Command.Request
import CrateAudit.Command.Run
import CrateAudit.Data.Calendar
import CrateAudit.Data.Json
import CrateAudit.Data.Moment
import CrateAudit.Data.Value
import CrateAudit.FaultWords
import CrateAudit.Fix.Assessment
import CrateAudit.Fix.Edit
import CrateAudit.Fix.Parenthesis
import CrateAudit.Fix.Plan
import CrateAudit.Guidance
import CrateAudit.Guidance.Standard
import CrateAudit.Interpreter
import CrateAudit.Main
import CrateAudit.Notice
import CrateAudit.Number.Binary64
import CrateAudit.Number.Integer
import CrateAudit.Number.Places
import CrateAudit.Number.Shortest
import CrateAudit.Project.Configuration
import CrateAudit.Project.Discovery
import CrateAudit.Project.Disk
import CrateAudit.Project.Fixing
import CrateAudit.Project.Path
import CrateAudit.Project.Pool
import CrateAudit.Project.Scan
import CrateAudit.Project.Tree
import CrateAudit.Project.Visits
import CrateAudit.Proofs.AcceptedSettings
import CrateAudit.Proofs.Accounting
import CrateAudit.Proofs.Agreement
import CrateAudit.Proofs.AuditedFiles
import CrateAudit.Proofs.BlankedCode
import CrateAudit.Proofs.BlockEnds
import CrateAudit.Proofs.CodeText
import CrateAudit.Proofs.Consoles
import CrateAudit.Proofs.Convergence
import CrateAudit.Proofs.CustomRules
import CrateAudit.Proofs.Deletion
import CrateAudit.Proofs.DependencyForms
import CrateAudit.Proofs.DescribedRules
import CrateAudit.Proofs.Discarding
import CrateAudit.Proofs.Discards
import CrateAudit.Proofs.DiscoveredFiles
import CrateAudit.Proofs.Disks
import CrateAudit.Proofs.Edits
import CrateAudit.Proofs.EnabledKinds
import CrateAudit.Proofs.Enclosing
import CrateAudit.Proofs.ExactEdits
import CrateAudit.Proofs.Exactness
import CrateAudit.Proofs.FailedWrites
import CrateAudit.Proofs.Findings
import CrateAudit.Proofs.InertValues
import CrateAudit.Proofs.Interludes
import CrateAudit.Proofs.KindFilters
import CrateAudit.Proofs.Lines
import CrateAudit.Proofs.ManifestComments
import CrateAudit.Proofs.Matches
import CrateAudit.Proofs.Merging
import CrateAudit.Proofs.NearestSettings
import CrateAudit.Proofs.NestedItems
import CrateAudit.Proofs.NumberedLines
import CrateAudit.Proofs.OpenedBlocks
import CrateAudit.Proofs.Outcomes
import CrateAudit.Proofs.OutermostCalls
import CrateAudit.Proofs.PartnerCounts
import CrateAudit.Proofs.Partners
import CrateAudit.Proofs.Places
import CrateAudit.Proofs.Planning
import CrateAudit.Proofs.PooledAudit
import CrateAudit.Proofs.PublicFunctions
import CrateAudit.Proofs.RawLines
import CrateAudit.Proofs.Reaching
import CrateAudit.Proofs.ReadSettings
import CrateAudit.Proofs.RepairedText
import CrateAudit.Proofs.Repairing
import CrateAudit.Proofs.ReportCounts
import CrateAudit.Proofs.ReportDates
import CrateAudit.Proofs.ReportOrder
import CrateAudit.Proofs.ReportedCalls
import CrateAudit.Proofs.ReturnMarkers
import CrateAudit.Proofs.Search
import CrateAudit.Proofs.SecondLook
import CrateAudit.Proofs.SeenCalls
import CrateAudit.Proofs.SharedLines
import CrateAudit.Proofs.ShownPaths
import CrateAudit.Proofs.Splicing
import CrateAudit.Proofs.StableMerges
import CrateAudit.Proofs.Statuses
import CrateAudit.Proofs.TestScopes
import CrateAudit.Proofs.Tokenisation
import CrateAudit.Proofs.Trials
import CrateAudit.Proofs.TypedSettings
import CrateAudit.Proofs.UnderscoreParameters
import CrateAudit.Proofs.Utf8
import CrateAudit.Proofs.WrittenParameters
import CrateAudit.Proofs.WrittenPlaces
import CrateAudit.Regex.Basic
import CrateAudit.Regex.Matching
import CrateAudit.Regex.Reading
import CrateAudit.Repair
import CrateAudit.Report.Document
import CrateAudit.Report.Markdown
import CrateAudit.Report.Terminal
import CrateAudit.Report.Wording
import CrateAudit.Rule
import CrateAudit.Rust.Block
import CrateAudit.Rust.CodeContext
import CrateAudit.Rust.FunctionSpan
import CrateAudit.Rust.Lexing
import CrateAudit.Rust.Signature
import CrateAudit.Rust.Token
import CrateAudit.Rust.Walk
import CrateAudit.Scan.Docs
import CrateAudit.Scan.Manifest
import CrateAudit.Scan.Numbered
import CrateAudit.Scan.RustFile
import CrateAudit.Scan.TestScope
import CrateAudit.Services
import CrateAudit.Settings
import CrateAudit.Source
import CrateAudit.Summary
import CrateAudit.Text.Alphanumeric
import CrateAudit.Text.Blank
import CrateAudit.Text.Digit
import CrateAudit.Text.Encoding
import CrateAudit.Text.Flips
import CrateAudit.Text.LetterCase
import CrateAudit.Text.Lines
import CrateAudit.Text.Printable
import CrateAudit.Text.Quoted
import CrateAudit.Text.Search
import CrateAudit.Toml.Document
import CrateAudit.Toml.Number
import CrateAudit.Toml.Text
import CrateAudit.Violation
