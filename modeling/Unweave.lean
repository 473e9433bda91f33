import Unweave.Main
import Unweave.Proofs.Reach
import Unweave.Proofs.Trees
import Unweave.Proofs.TypeSets
import Unweave.Proofs.WalkClosure
import Unweave.Solution.Draft
import Unweave.Tree.Build
import Unweave.Workspace
import Unweave.Proofs.Sites
import Unweave.Proofs.Identity
import Unweave.Proofs.Remains
import Unweave.Proofs.Completeness
import Unweave.Proofs.Tidy
import Unweave.Proofs.Runs
import Unweave.Proofs.Conservation
import Unweave.Proofs.Settled
import Unweave.Proofs.Repacking
import Unweave.Proofs.Transactions
import Unweave.Proofs.PackageKeys
import Unweave.Proofs.Passes
import Unweave.Proofs.Interruption
import Unweave.Proofs.Cohesion
import Unweave.Proofs.Outlines
import Unweave.Proofs.Detaching
import Unweave.Proofs.Acceptance
import Unweave.Proofs.Protected
import Unweave.Proofs.Chores
import Unweave.Proofs.CleanSolutions
import Unweave.Proofs.Independence
import Unweave.Proofs.Merging
import Unweave.Proofs.JsonText
import Unweave.Proofs.Decoding
import Unweave.Proofs.TreeFormat
import Unweave.Proofs.SolutionFormat
import Unweave.Proofs.Rewriting
import Unweave.Proofs.SharedFile
import Unweave.Proofs.LibraryGroups
import Unweave.Proofs.LooseEnds
import Unweave.Proofs.TypeNames
import Unweave.Proofs.ExtensionGroups
import Unweave.Proofs.MemberOwners
import Unweave.Proofs.Removal
import Unweave.Proofs.UsingScopes
import Unweave.Proofs.SharedIds
import Unweave.Proofs.ChoreOrder
import Unweave.Proofs.KeyContents
import Unweave.Proofs.SameTypes
import Unweave.Proofs.TypeReports
import Unweave.Proofs.Building
import Unweave.Proofs.Numbers
import Unweave.Proofs.References
import Unweave.Proofs.Paths
import Unweave.Proofs.Confinement
import Unweave.Proofs.Overwriting
import Unweave.Proofs.Batches
import Unweave.Proofs.ContainerUsings
import Unweave.Proofs.OpenFrames
import Unweave.Proofs.Moves
import Unweave.Proofs.Survivors
import Unweave.Proofs.Shrinking
import Unweave.Proofs.SortedSets
import Unweave.Proofs.Slots
import Unweave.Proofs.Ink
import Unweave.Proofs.Wording
import Unweave.Proofs.Takings
