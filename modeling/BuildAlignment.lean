import BuildAlignment.Alignment.Adjustment
import BuildAlignment.Alignment.Aligner
import BuildAlignment.Alignment.Exclusion
import BuildAlignment.Alignment.ProjectVersion
import BuildAlignment.Alignment.Request
import BuildAlignment.Alignment.Response
import BuildAlignment.Barrier
import BuildAlignment.Barrier.Combined
import BuildAlignment.Barrier.Registration
import BuildAlignment.Barrier.Staging
import BuildAlignment.BuildDescription
import BuildAlignment.BuildRun
import BuildAlignment.CommandLine.Arguments
import BuildAlignment.CommandLine.Commands
import BuildAlignment.Coordinate
import BuildAlignment.Error
import BuildAlignment.Failure
import BuildAlignment.Files
import BuildAlignment.Files.Location
import BuildAlignment.Files.Tree
import BuildAlignment.Json
import BuildAlignment.Json.Escape
import BuildAlignment.Json.Printer
import BuildAlignment.Json.Problem
import BuildAlignment.Json.Reader
import BuildAlignment.Json.Token
import BuildAlignment.Keyed
import BuildAlignment.ModulePath
import BuildAlignment.ModuleTree
import BuildAlignment.ModuleTree.JsonForm
import BuildAlignment.ModuleTree.Lookup
import BuildAlignment.Report
import BuildAlignment.Rule
import BuildAlignment.Rule.Problem
import BuildAlignment.Settings
import BuildAlignment.Settings.Property
import BuildAlignment.Settings.TomlForm
import BuildAlignment.Text.Blank
import BuildAlignment.Text.Bytes
import BuildAlignment.Text.Distance
import BuildAlignment.Text.Fields
import BuildAlignment.Text.Number
import BuildAlignment.Toml
import BuildAlignment.Toml.Document
import BuildAlignment.Toml.Reader
import BuildAlignment.Toml.Scalar
import BuildAlignment.Toml.Text
import BuildAlignment.Toml.Token
import BuildAlignment.VersionTable
import BuildAlignment.Version.Counter
import BuildAlignment.Version.Kind
import BuildAlignment.Version.Preview
import BuildAlignment.Version.Suffix
import BuildAlignment.Main
import BuildAlignment.Proofs.Keyed
import BuildAlignment.Proofs.Sequence
import BuildAlignment.Proofs.Text.Fields
import BuildAlignment.Proofs.Text.Spelling
import BuildAlignment.Proofs.Coordinate
import BuildAlignment.Proofs.ModuleTree.JsonForm
import BuildAlignment.Proofs.ModulePath
import BuildAlignment.Proofs.Json.Escape
import BuildAlignment.Proofs.Json.RoundTrip
import BuildAlignment.Proofs.ModuleTree.Location
import BuildAlignment.Proofs.ModuleTree.Built
import BuildAlignment.Proofs.Alignment.Assembly
import BuildAlignment.Proofs.Alignment.Changes
import BuildAlignment.Proofs.Alignment.Exclusion
import BuildAlignment.Proofs.Alignment.Overrides
import BuildAlignment.Proofs.Barrier.Admission
import BuildAlignment.Proofs.Barrier.KeptErrors
import BuildAlignment.Proofs.Barrier.Publishing
import BuildAlignment.Proofs.Barrier.Session
import BuildAlignment.Proofs.Barrier.Phases
import BuildAlignment.Proofs.Barrier.Failure
import BuildAlignment.Proofs.Barrier.Collected
import BuildAlignment.Proofs.Barrier.Acceptance
import BuildAlignment.Proofs.Barrier.RegistrationOrder
import BuildAlignment.Proofs.Barrier.Completion
import BuildAlignment.Proofs.Barrier.RootGroup
import BuildAlignment.Proofs.Barrier.Staged
import BuildAlignment.Proofs.Barrier.Recorded
import BuildAlignment.Proofs.Barrier.Replacements
import BuildAlignment.Proofs.Barrier.Questions
import BuildAlignment.Proofs.Barrier.Published
import BuildAlignment.Proofs.Barrier.Earlier
import BuildAlignment.Proofs.Version.Cut
import BuildAlignment.Proofs.Barrier.Calls
import BuildAlignment.Proofs.Barrier.Progress
import BuildAlignment.Proofs.Barrier.Endings
import BuildAlignment.Proofs.BuildDescription
import BuildAlignment.Proofs.Barrier.Independence
import BuildAlignment.Proofs.Barrier.DisabledSeeding
import BuildAlignment.Proofs.Barrier.Renewal
import BuildAlignment.Proofs.Barrier.SecondRun
import BuildAlignment.Proofs.Version.Counter
import BuildAlignment.Proofs.Version.Suffix
import BuildAlignment.Proofs.Version.Snapshot
import BuildAlignment.Proofs.Version.Repetition
import BuildAlignment.Proofs.Version.Candidates
import BuildAlignment.Proofs.Version.Runs
import BuildAlignment.Proofs.Settings
import BuildAlignment.Proofs.Version.Preview
import BuildAlignment.Proofs.Barrier.Counting
import BuildAlignment.Proofs.Barrier.Parallel
import BuildAlignment.Proofs.Barrier.Unasked
import BuildAlignment.Proofs.Barrier.OwnerScope
import BuildAlignment.Proofs.Barrier.Legible
import BuildAlignment.Proofs.Rule.Grammar
import BuildAlignment.Proofs.Rule.Display
import BuildAlignment.Proofs.Rule.Batch
import BuildAlignment.Proofs.ModuleTree.Arranged
import BuildAlignment.Proofs.ModuleTree.Lookup
import BuildAlignment.Proofs.ModulePath.Nested
import BuildAlignment.Proofs.BuildDescription.Tree
import BuildAlignment.Proofs.Settings.Reading
import BuildAlignment.Proofs.Settings.Property
import BuildAlignment.Proofs.Text.Distance
import BuildAlignment.Proofs.ModuleTree.Suggestions
