import Mender.CodeFiles.Survey
import Mender.Codemod.Definition
import Mender.Documentation.Pages
import Mender.Main
import Mender.Timer
import Mender.Proofs.Sql.Lookups
import Mender.Proofs.Sql.Leaves
import Mender.Proofs.Sql.Calls
import Mender.Proofs.Sql.Frame
import Mender.Proofs.Run.Trial
import Mender.Proofs.Findings
import Mender.Proofs.Run.Schedules
import Mender.Proofs.Codemod.Imports
import Mender.Proofs.Import.Comments
import Mender.Proofs.Codemod.Leaks
import Mender.Proofs.Codemod.LastUses
import Mender.Proofs.Codemod.Nesting
import Mender.Proofs.Codemod.ChangeSets
import Mender.Proofs.Codemod.Remedies
import Mender.Proofs.Codemod.MovedDefaults
import Mender.Proofs.Diff.AddedLines
import Mender.Proofs.Codemod.Receivers
import Mender.Proofs.Scope.Imported
import Mender.Proofs.Run.Reports
import Mender.Proofs.Codemod.Circles
import Mender.Proofs.Project.Traces
import Mender.Proofs.Import.Removal
import Mender.Proofs.Infer
import Mender.Proofs.Syntax.Positions
