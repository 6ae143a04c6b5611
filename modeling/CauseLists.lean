import CauseLists.Artefact.Basic
import CauseLists.Artefact.Form
import CauseLists.Authorization
import CauseLists.Bundled.Libraries
import CauseLists.Bundled.Markup.Reader
import CauseLists.Bundled.Markup.Scalar
import CauseLists.Bundled.Regex.Class
import CauseLists.Bundled.Regex.Escape
import CauseLists.Bundled.Regex.Reader
import CauseLists.Bundled.Schema.Basic
import CauseLists.Bundled.Schema.Check
import CauseLists.Calendar.Date
import CauseLists.Calendar.Instant
import CauseLists.Calendar.Rfc3339
import CauseLists.CommandLine.Arguments
import CauseLists.CommandLine.Command
import CauseLists.CommandLine.Run
import CauseLists.Decimal.Binary64
import CauseLists.Decimal.Shortest
import CauseLists.Digest
import CauseLists.Disk
import CauseLists.Envelope.Acceptance
import CauseLists.Envelope.Basic
import CauseLists.Envelope.File
import CauseLists.Envelope.Form
import CauseLists.Envelope.Words
import CauseLists.FieldPath.Basic
import CauseLists.FieldPath.Form
import CauseLists.FieldPath.Walk
import CauseLists.Format
import CauseLists.Inspection.Check
import CauseLists.Inspection.Finding
import CauseLists.Inspection.Verdict
import CauseLists.Json.Basic
import CauseLists.Json.Form
import CauseLists.Json.Parser
import CauseLists.Json.Printer
import CauseLists.Ledger
import CauseLists.Libraries
import CauseLists.ListType
import CauseLists.Main
import CauseLists.Markup.Node
import CauseLists.Pattern.Basic
import CauseLists.Pattern.CharSet
import CauseLists.Pattern.Expr
import CauseLists.Payload.Store
import CauseLists.Proofs.Artefact.Calls
import CauseLists.Proofs.Artefact.Lifecycle
import CauseLists.Proofs.Authorization
import CauseLists.Proofs.Calendar.Days
import CauseLists.Proofs.Calendar.DaysLater
import CauseLists.Proofs.Calendar.Order
import CauseLists.Proofs.Calendar.Reading
import CauseLists.Proofs.Calendar.Spelling
import CauseLists.Proofs.Calendar.Texts
import CauseLists.Proofs.CommandLine.Chains
import CauseLists.Proofs.Disk
import CauseLists.Proofs.Envelope.Acceptance
import CauseLists.Proofs.Envelope.Canonical
import CauseLists.Proofs.Envelope.Defects
import CauseLists.Proofs.Envelope.Words
import CauseLists.Proofs.FieldPath.Changes
import CauseLists.Proofs.FieldPath.Endings
import CauseLists.Proofs.FieldPath.Extraction
import CauseLists.Proofs.FieldPath.Grammar
import CauseLists.Proofs.FieldPath.Locations
import CauseLists.Proofs.FieldPath.Order
import CauseLists.Proofs.FieldPath.Pointers
import CauseLists.Proofs.FieldPath.Reach
import CauseLists.Proofs.FieldPath.Removal
import CauseLists.Proofs.FieldPath.Resolution
import CauseLists.Proofs.FieldPath.Writing
import CauseLists.Proofs.Format
import CauseLists.Proofs.Inspection.Controls
import CauseLists.Proofs.Inspection.Coverage
import CauseLists.Proofs.Inspection.Joined
import CauseLists.Proofs.Inspection.Modes
import CauseLists.Proofs.Inspection.Passing
import CauseLists.Proofs.Inspection.Removal
import CauseLists.Proofs.Inspection.Report
import CauseLists.Proofs.Inspection.Truth
import CauseLists.Proofs.Json.Controls
import CauseLists.Proofs.Json.Keys
import CauseLists.Proofs.Ledger.Changes
import CauseLists.Proofs.Ledger.Clients
import CauseLists.Proofs.Ledger.Coherence
import CauseLists.Proofs.Ledger.Current
import CauseLists.Proofs.Ledger.Effects
import CauseLists.Proofs.Ledger.Permanence
import CauseLists.Proofs.Ledger.Replies
import CauseLists.Proofs.Ledger.Retiring
import CauseLists.Proofs.Ledger.Runs
import CauseLists.Proofs.Ledger.Steps
import CauseLists.Proofs.ListType
import CauseLists.Proofs.Listing
import CauseLists.Proofs.Naming
import CauseLists.Proofs.Pattern.Anchoring
import CauseLists.Proofs.Pattern.Languages
import CauseLists.Proofs.Pattern.Letters
import CauseLists.Proofs.Pattern.Matching
import CauseLists.Proofs.Pattern.Rows
import CauseLists.Proofs.Pattern.Syntax
import CauseLists.Proofs.Payload.Blobs
import CauseLists.Proofs.Payload.Folder
import CauseLists.Proofs.Payload.Retrieval
import CauseLists.Proofs.Payload.Steps
import CauseLists.Proofs.Postcode
import CauseLists.Proofs.Publication.Attempts
import CauseLists.Proofs.Publication.Retries
import CauseLists.Proofs.Publication.Stages
import CauseLists.Proofs.Publication.Stored
import CauseLists.Proofs.Publication.Traces
import CauseLists.Proofs.Publication.Vetting
import CauseLists.Proofs.Results
import CauseLists.Proofs.RuleSet.Compilation
import CauseLists.Proofs.RuleSet.Folder
import CauseLists.Proofs.RuleSet.Registry
import CauseLists.Proofs.Schema.Places
import CauseLists.Proofs.Settings
import CauseLists.Proofs.Supersession.Alone
import CauseLists.Proofs.Supersession.Commits
import CauseLists.Proofs.Supersession.Decisions
import CauseLists.Proofs.Supersession.Due
import CauseLists.Proofs.Supersession.Growth
import CauseLists.Proofs.Supersession.Guards
import CauseLists.Proofs.Supersession.Interleaving
import CauseLists.Proofs.Supersession.Locks
import CauseLists.Proofs.Supersession.ManualUploads
import CauseLists.Proofs.Supersession.Nesting
import CauseLists.Proofs.Supersession.Serial
import CauseLists.Proofs.Supersession.Slots
import CauseLists.Proofs.Supersession.Sweeps
import CauseLists.Proofs.Supersession.Traffic
import CauseLists.Proofs.Supersession.Turns
import CauseLists.Proofs.Supersession.Visits
import CauseLists.Proofs.Tables
import CauseLists.Proofs.Text.Case
import CauseLists.Proofs.Text.Hexadecimal
import CauseLists.Proofs.Text.Numeral
import CauseLists.Proofs.Text.Trimming
import CauseLists.Proofs.Text.Utf8
import CauseLists.Publication.Retry
import CauseLists.Publication.Service
import CauseLists.RuleSet.Basic
import CauseLists.RuleSet.Catalogue
import CauseLists.RuleSet.Compile
import CauseLists.RuleSet.Registry
import CauseLists.RuleSet.Summary
import CauseLists.RuleSet.Written
import CauseLists.Schema
import CauseLists.Settings
import CauseLists.Supersession.Archive
import CauseLists.Supersession.Engine
import CauseLists.Supersession.KeyLocks
import CauseLists.Table
import CauseLists.Text.Blank
import CauseLists.Text.CaseTable
import CauseLists.Text.Numeral
import CauseLists.Text.Utf8
import CauseLists.Text.WordTable
