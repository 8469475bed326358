import Reckoner.Main
import Reckoner.Store.Fault
import Reckoner.Store.Memory
import Reckoner.Worker.Failure
import Reckoner.Proofs.Database.Persistence
import Reckoner.Proofs.Formula.Borrowing
import Reckoner.Proofs.Formula.Composition
import Reckoner.Proofs.Formula.Execution
import Reckoner.Proofs.Formula.Literals
import Reckoner.Proofs.Formula.Segmentation
import Reckoner.Proofs.Http.Isolation
import Reckoner.Proofs.Rpc.Refinement
import Reckoner.Proofs.Scheduler.Atomicity
import Reckoner.Proofs.Scheduler.Commutation
import Reckoner.Proofs.Scheduler.Completion
import Reckoner.Proofs.Scheduler.Draining
import Reckoner.Proofs.Scheduler.Finiteness
import Reckoner.Proofs.Scheduler.History
import Reckoner.Proofs.Scheduler.Lifecycle
import Reckoner.Proofs.Scheduler.Once
import Reckoner.Proofs.Scheduler.Resolution
import Reckoner.Proofs.Scheduler.Serialisation
import Reckoner.Proofs.Service.Ownership
import Reckoner.Proofs.Wire.Delimitation
import Reckoner.Proofs.Worker.Accounting
import Reckoner.Proofs.Worker.Notices
