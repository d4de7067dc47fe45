import LineSpec.Main
import LineSpec.Spec.Printer
import LineSpec.Proofs.Match.Wildcard
import LineSpec.Proofs.Match.Extent
import LineSpec.Proofs.Spec.Partition
import LineSpec.Proofs.Template.Decomposition
import LineSpec.Proofs.Spec.Fault
import LineSpec.Proofs.Spec.Succession
import LineSpec.Proofs.Check.Count
import LineSpec.Proofs.Check.Return
import LineSpec.Proofs.Match.Sequence
import LineSpec.Proofs.Match.Rendering
import LineSpec.Proofs.Text.Written
import LineSpec.Proofs.Tree.Order
import LineSpec.Proofs.Tree.Change
import LineSpec.Proofs.Tree.Selection
import LineSpec.Proofs.Check.Contribution
import LineSpec.Proofs.Spec.RoundTrip
import LineSpec.Proofs.Command.Session
import LineSpec.Proofs.Tree.Growth
import LineSpec.Proofs.Command.Setup
import LineSpec.Proofs.Command.Render
import LineSpec.Proofs.Check.Refusal
import LineSpec.Proofs.Check.Success
import LineSpec.Proofs.Command.Check
import LineSpec.Check.Pool
import LineSpec.Proofs.Match.Blame
import LineSpec.Proofs.Check.Schedule
import LineSpec.Proofs.Report.Place
import LineSpec.Proofs.Report.Layout
import LineSpec.Proofs.Command.Rendered
import LineSpec.Proofs.Json.Literal
import LineSpec.Proofs.Json.RoundTrip
import LineSpec.Proofs.Settings.RoundTrip
import LineSpec.Proofs.Tree.Directories
import LineSpec.Proofs.Settings.Saving
import LineSpec.Proofs.Command.Init
import LineSpec.Proofs.Settings.Outcome
import LineSpec.Proofs.Text.Fragment
import LineSpec.Proofs.Spec.Plain
import LineSpec.Proofs.Report.Plain
import LineSpec.Proofs.Tree.Spelling
import LineSpec.Proofs.Check.Plain
import LineSpec.Proofs.Check.Summary
import LineSpec.Proofs.Command.Arguments
import LineSpec.Proofs.Command.Telling
import LineSpec.Proofs.Command.Dealing
import LineSpec.Proofs.Command.Diagnosis
import LineSpec.Proofs.Match.Redundancy
import LineSpec.Proofs.Tree.Making
import LineSpec.Proofs.Command.Effect
import LineSpec.Proofs.Match.Surplus
import LineSpec.Proofs.Match.Extension
import LineSpec.Proofs.Template.Agreement
import LineSpec.Proofs.Command.Inspection
import LineSpec.Proofs.Variables.Precedence
import LineSpec.Spec.Cursor
import LineSpec.Proofs.Spec.Progress
import LineSpec.Proofs.Check.Walk
import LineSpec.Proofs.Check.Below
import LineSpec.Proofs.Match.Parting
