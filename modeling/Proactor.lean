import Proactor.Question
import Proactor.Simulation.Report
import Proactor.Simulation.Activity
import Proactor.Proofs.Exchange
import Proactor.Proofs.Registration
import Proactor.Proofs.Outstanding
import Proactor.Proofs.Lending
import Proactor.Proofs.Conservation
import Proactor.Proofs.Arming
import Proactor.Proofs.Attendance
import Proactor.Proofs.DataTransfers
import Proactor.Proofs.Invariant
import Proactor.Proofs.KernelCalls
import Proactor.Proofs.ReadStream
import Proactor.Proofs.WriteStream
import Proactor.Proofs.Overwriting
import Proactor.Proofs.Panics
import Proactor.Proofs.Ordering
import Proactor.Proofs.Handover
import Proactor.Proofs.Rejecting
import Proactor.Proofs.Shutdown
import Proactor.Proofs.Alike
import Proactor.Proofs.Separation
import Proactor.Proofs.Release
import Proactor.Proofs.Lifetime
import Proactor.Proofs.Endings
import Proactor.Proofs.Chronicle
import Proactor.Proofs.Progress
import Proactor.Proofs.Closing
import Proactor.Proofs.Aftermath
import Proactor.Proofs.Refusal
import Proactor.Proofs.Offering
import Proactor.Proofs.Acceptance
import Proactor.Proofs.Ownership
import Proactor.Proofs.Batching
import Proactor.Proofs.Inert
import Proactor.Proofs.Polling
import Proactor.Proofs.Trials
import Proactor.Proofs.Attempts
import Proactor.Proofs.Transcripts
import Proactor.Proofs.Matching
import Proactor.Proofs.Spurious
import Proactor.Proofs.Keys
import Proactor.Proofs.EndOfStream
import Proactor.Proofs.Replies
import Proactor.Proofs.Rearming
import Proactor.Proofs.Notifications
import Proactor.Proofs.Draining
