import Postal.Event.Log
import Postal.Event.Trace
import Postal.Latch
import Postal.Main
import Postal.Phase.Json
import Postal.Report.Audit
import Postal.Semaphore.Sleepers
import Postal.Slot.Callers
import Postal.Event.Json
import Postal.Proofs.Close
import Postal.Proofs.Report
import Postal.Proofs.Wake
import Postal.Proofs.Grants
import Postal.Proofs.Adverts
import Postal.Proofs.Cycle
import Postal.Proofs.Weighing
import Postal.Proofs.Admission
import Postal.Proofs.Returns
import Postal.Proofs.Fulfilment
import Postal.Proofs.Settings
import Postal.Proofs.Variables
import Postal.Proofs.Idle
import Postal.Proofs.Hangup
import Postal.Proofs.Handover
import Postal.Proofs.Roundtrip
import Postal.Proofs.Chronicle
import Postal.Proofs.Occupancy
import Postal.Proofs.Attempts
import Postal.Proofs.Queue
import Postal.Proofs.Contention
import Postal.Proofs.Packages
import Postal.Proofs.Recent
import Postal.Proofs.Lines
