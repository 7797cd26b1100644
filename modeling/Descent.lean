import Descent.Loop
import Descent.Main
import Descent.Session
import Descent.Proofs.DepthLimit
import Descent.Proofs.Refusal
import Descent.Proofs.Translation
import Descent.Proofs.WellBehaved
import Descent.Proofs.Provenance
import Descent.Proofs.Attempt
import Descent.Proofs.Walk
import Descent.Proofs.Placement
import Descent.Proofs.Nesting
import Descent.Proofs.Termination
import Descent.Proofs.Balance
import Descent.Proofs.Decision
import Descent.Proofs.Separation
import Descent.Proofs.Fields
import Descent.Proofs.MaximalRun
import Descent.Proofs.Number
import Descent.Proofs.TokenPatterns
import Descent.Proofs.Rendering
import Descent.Proofs.LineAndColumn
import Descent.Proofs.Bytes
import Descent.Proofs.Window
import Descent.Proofs.Journal
import Descent.Proofs.Anchoring
import Descent.Proofs.Rounding
import Descent.Proofs.Batch
