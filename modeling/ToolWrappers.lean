import ToolWrappers.Main
import ToolWrappers.Proofs.Correspondence
import ToolWrappers.Proofs.DocumentationText
import ToolWrappers.Proofs.Placement
import ToolWrappers.Proofs.WrapperText
import ToolWrappers.Proofs.LineByLine
import ToolWrappers.Proofs.Renumbering
import ToolWrappers.Proofs.Concatenation
import ToolWrappers.Proofs.FirstProblem
import ToolWrappers.Proofs.Scoping
import ToolWrappers.Proofs.DocumentedNames
import ToolWrappers.Proofs.ScriptLines
import ToolWrappers.Proofs.PercentSigns
import ToolWrappers.Proofs.Signatures
import ToolWrappers.Proofs.SampleRuns
import ToolWrappers.Proofs.Replay
import ToolWrappers.Proofs.Cache
import ToolWrappers.Proofs.PackageTree
import ToolWrappers.Proofs.InstalledFiles
import ToolWrappers.Proofs.UpdatedPackage
import ToolWrappers.Proofs.Footprints
import ToolWrappers.Proofs.Settled
import ToolWrappers.Proofs.Repetition
import ToolWrappers.Proofs.ItemScan
import ToolWrappers.Proofs.SafeFixups
import ToolWrappers.Proofs.ExampleNames
import ToolWrappers.Proofs.Exclusions
import ToolWrappers.Proofs.PrintedDefinitions
import ToolWrappers.Proofs.DistinctFormals
import ToolWrappers.Proofs.FormalsReadBack
import ToolWrappers.Proofs.DocstringEnds
import ToolWrappers.Proofs.ClosingDelimiters
import ToolWrappers.Proofs.ByteOrder
import ToolWrappers.Proofs.WrittenFiles
import ToolWrappers.Proofs.ExactCopies
import ToolWrappers.Proofs.ArgumentValues
import ToolWrappers.Proofs.WholeFlags
import ToolWrappers.Proofs.RuleOrder
import ToolWrappers.Proofs.DefinitionKeyword
import ToolWrappers.Proofs.ArchiveNames
import ToolWrappers.Proofs.TestLabels
import ToolWrappers.Proofs.BannerParts
