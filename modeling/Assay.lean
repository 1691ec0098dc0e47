import Assay.Main
import Assay.Proofs.Check.Exit
import Assay.Proofs.Command.Arguments
import Assay.Proofs.Command.Limits
import Assay.Proofs.Command.Session
import Assay.Proofs.Discovery.Order
import Assay.Proofs.Pool.Draining
import Assay.Proofs.Report.Document
import Assay.Proofs.Run.Bounds
import Assay.Proofs.Run.Interleaving
import Assay.Proofs.Run.Reporting
import Assay.Proofs.Run.Rerun
import Assay.Proofs.Run.Sequential
import Assay.Proofs.Run.Survival
import Assay.Proofs.Scratch.Lifecycle
import Assay.Script.Plan
import Assay.Proofs.Check.Parts
import Assay.Proofs.Run.Setup
import Assay.Proofs.Pool.Steps
import Assay.Proofs.Run.Commands
import Assay.Proofs.Run.Confinement
import Assay.Proofs.Report.Captured
import Assay.Proofs.Config.Fields
import Assay.Proofs.Discovery.Suites
import Assay.Proofs.Check.Mismatch
import Assay.Proofs.Report.Agreement
import Assay.Proofs.Config.Anchoring
