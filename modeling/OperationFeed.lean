import OperationFeed.Config.Reading
import OperationFeed.Executor.Timer
import OperationFeed.Session.Basic
import OperationFeed.Wait.Room
import OperationFeed.Proofs.Effect
import OperationFeed.Proofs.Metadata
import OperationFeed.Proofs.Feed.Core
import OperationFeed.Proofs.Feed.Stream
import OperationFeed.Proofs.Executor.Moves
import OperationFeed.Proofs.Feed.Waiting
import OperationFeed.Proofs.Run.Actions
import OperationFeed.Proofs.Run.Basic
import OperationFeed.Proofs.Run.Allocation
import OperationFeed.Proofs.Run.Stream
import OperationFeed.Proofs.Run.History
import OperationFeed.Proofs.Run.Numbering
import OperationFeed.Proofs.Run.Ledger
import OperationFeed.Proofs.Run.Waiting
import OperationFeed.Proofs.Run.Reads
import OperationFeed.Proofs.Run.Idle
import OperationFeed.Proofs.Run.Outcomes
import OperationFeed.Proofs.Run.Checkpoints
import OperationFeed.Proofs.Run.Points
import OperationFeed.Proofs.Run.Cuts
import OperationFeed.Proofs.Run.WakeUps
import OperationFeed.Proofs.Run.Consumption
import OperationFeed.Proofs.Run.Beside
import OperationFeed.Proofs.Session.Runs
import OperationFeed.Proofs.Fragment
import OperationFeed.Proofs.Session.Reconstruction
import OperationFeed.Proofs.Run.Spacing
import OperationFeed.Proofs.Run.Turns
import OperationFeed.Proofs.Run.Draining
import OperationFeed.Proofs.Run.Closing
import OperationFeed.Proofs.Session.Closing
import OperationFeed.Proofs.Feed.Faults
import OperationFeed.Proofs.Run.Errors
import OperationFeed.Proofs.Session.Failures
import OperationFeed.Proofs.Executor.Alike
import OperationFeed.Proofs.Feed.Facades
import OperationFeed.Proofs.Session.Facades
import OperationFeed.Proofs.Run.Reordering
import OperationFeed.Proofs.Attribute.Lifecycle
import OperationFeed.Proofs.Wait.Generations
import OperationFeed.Proofs.Fragment.Rounds
import OperationFeed.Proofs.Fragment.Coverage
import OperationFeed.Proofs.Fragment.Hiding
import OperationFeed.Proofs.Fragment.Splitting
import OperationFeed.Proofs.Fragment.LastRecords
import OperationFeed.Proofs.Attribute.Composition
import OperationFeed.Proofs.Log.Histories
import OperationFeed.Proofs.Session.LookUps
import OperationFeed.Proofs.Session.Traffic
import OperationFeed.Proofs.Metadata.Histories
import OperationFeed.Proofs.Fault.Families
import OperationFeed.Proofs.Executor.Completions
