import SliceLint.Main
import SliceLint.Proofs.Engine.Snippet
import SliceLint.Proofs.Project.Completion
import SliceLint.Proofs.Project.Restriction
import SliceLint.Proofs.Project.Severity
import SliceLint.Proofs.Rule.ImportCycle
import SliceLint.Proofs.Config.Settings
import SliceLint.Proofs.Engine.Failure
import SliceLint.Proofs.Engine.Restatement
import SliceLint.Proofs.Project.RuleSettings
import SliceLint.Proofs.Disk.Place
import SliceLint.Proofs.Project.Selection
import SliceLint.Proofs.Project.Numbering
import SliceLint.Proofs.Report.JsonReading
import SliceLint.Proofs.Report.RoundTrip
import SliceLint.Proofs.Disk.Change
import SliceLint.Proofs.Command.Check
import SliceLint.Proofs.Disk.ReadBack
import SliceLint.Proofs.Rule.SliceNames
import SliceLint.Proofs.Rule.TypeImport
import SliceLint.Proofs.Rule.ImportTarget
import SliceLint.Proofs.Engine.Dispatch
import SliceLint.Proofs.Hierarchy.Acceptance
import SliceLint.Proofs.Rule.ImportSpelling
import SliceLint.Proofs.Path.Containment
import SliceLint.Proofs.Path.Extension
import SliceLint.Proofs.Disk.Walk
import SliceLint.Proofs.Project.DiscoveredFiles
import SliceLint.Proofs.Project.GivenFiles
import SliceLint.Proofs.Project.Exclusion
import SliceLint.Proofs.Config.Acceptance
import SliceLint.Proofs.Rule.LiteralStyle
import SliceLint.Proofs.Rule.StyleFamily
import SliceLint.Proofs.Rule.InjectedAccessor
import SliceLint.Proofs.Rule.ComponentShape
import SliceLint.Proofs.Config.NormalForm
import SliceLint.Proofs.Report.GroupedList
import SliceLint.Proofs.Rule.ApiModule
import SliceLint.Proofs.Project.ListedLines
import SliceLint.Proofs.Source.FirstFault
