import Prune.Main
import Prune.Proofs.Idle
import Prune.Proofs.OnlyCandidates
import Prune.Proofs.Resumption
import Prune.Proofs.StaleBackups
import Prune.Rehearsal
import Prune.Proofs.Startup
import Prune.Proofs.Accounting
import Prune.Proofs.Rendering
import Prune.Proofs.Directives
import Prune.Proofs.NoRevert
import Prune.Proofs.Positions
import Prune.Proofs.LineStability
import Prune.Proofs.ResumePosition
import Prune.Proofs.Sentinel
