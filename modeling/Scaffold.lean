import Scaffold.Main
import Scaffold.Manifest.Reader
import Scaffold.Proofs.Disk.Parts
import Scaffold.Proofs.Disk.Walk
import Scaffold.Proofs.Disk.Lookup
import Scaffold.Proofs.Disk.Change
import Scaffold.Proofs.Disk.Earlier
import Scaffold.Proofs.Output.Step
import Scaffold.Proofs.Output.Run
import Scaffold.Proofs.Output.Write
import Scaffold.Proofs.Project.Loaded
import Scaffold.Proofs.Output.Target
import Scaffold.Proofs.Plan.Names
import Scaffold.Proofs.Output.Layout
import Scaffold.Proofs.Output.Settled
import Scaffold.Proofs.Output.HandOwned
import Scaffold.Proofs.Output.Interrupted
import Scaffold.Proofs.Json.RoundTrip
import Scaffold.Proofs.Text.Digits
import Scaffold.Proofs.Text.Newlines
import Scaffold.Proofs.Time.Calendar
import Scaffold.Proofs.Time.RoundTrip
import Scaffold.Proofs.Ledger.RoundTrip
import Scaffold.Proofs.Output.Again
import Scaffold.Proofs.Output.DryRun
import Scaffold.Proofs.Output.Compare
import Scaffold.Proofs.Output.Chronicle
import Scaffold.Proofs.Output.Overwritten
import Scaffold.Proofs.Output.Traced
import Scaffold.Proofs.Output.Ledger
import Scaffold.Proofs.Output.Alarm
import Scaffold.Proofs.Disk.Components
import Scaffold.Proofs.Disk.Film
import Scaffold.Proofs.Disk.Named
import Scaffold.Proofs.Disk.Below
import Scaffold.Proofs.Disk.Tree
import Scaffold.Proofs.Disk.Ancestors
import Scaffold.Proofs.GoModule.Nearest
import Scaffold.Proofs.Output.Confined
import Scaffold.Proofs.Descriptor.Violation
import Scaffold.Proofs.Manifest.RoundTrip
import Scaffold.Proofs.Naming.Plural
import Scaffold.Proofs.Plan.Writable
import Scaffold.Proofs.Template.Kinds
import Scaffold.Proofs.Template.Contained
import Scaffold.Proofs.Template.Listed
import Scaffold.Proofs.Plan.Shipped
import Scaffold.Proofs.Text.Split
import Scaffold.Proofs.Plan.Form
import Scaffold.Proofs.Plan.Reading
import Scaffold.Proofs.Plan.Lines
import Scaffold.Proofs.Plan.Scheduler
import Scaffold.Proofs.Plan.Constants
import Scaffold.Proofs.Plan.Packages
import Scaffold.Proofs.Descriptor.RoundTrip
import Scaffold.Proofs.Project.ReadBack
import Scaffold.Proofs.Plan.ImportNames
import Scaffold.Proofs.Plan.Answers
import Scaffold.Proofs.Plan.Literals
import Scaffold.Proofs.Plan.Locality
import Scaffold.Proofs.Plan.Overrides
import Scaffold.Proofs.Plan.Comments
import Scaffold.Proofs.Diff.Leads
import Scaffold.Proofs.Diff.Tidy
import Scaffold.Proofs.Diff.Search
import Scaffold.Proofs.Diff.Patch
import Scaffold.Proofs.Diff.Hunks
import Scaffold.Proofs.Diff.Unified
import Scaffold.Proofs.Output.Patched
import Scaffold.Proofs.Output.Accepted
import Scaffold.Proofs.Text.Trim
import Scaffold.Proofs.Project.ModuleRoot
import Scaffold.Proofs.Naming.Ascii
import Scaffold.Proofs.Naming.Keywords
import Scaffold.Proofs.Naming.Spaced
import Scaffold.Proofs.Naming.Slices
import Scaffold.Proofs.Plan.Declared
import Scaffold.Proofs.Naming.Segments
import Scaffold.Proofs.Naming.Joined
import Scaffold.Proofs.CommandLine.PhaseText
import Scaffold.Proofs.GoModule.Directive
