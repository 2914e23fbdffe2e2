import QosControl.CommandLine
import QosControl.Expectation
import QosControl.Main
import QosControl.Proofs.BackReferences
import QosControl.Scenario
import QosControl.Proofs.ProfileNumbers
import QosControl.Proofs.ObjectSections
import QosControl.Proofs.Rebuild
import QosControl.Proofs.Checked
import QosControl.Proofs.Coverage
import QosControl.Proofs.Ledger
import QosControl.Proofs.Balance
import QosControl.Proofs.Tracking
import QosControl.Proofs.Runs
import QosControl.Proofs.Layout
import QosControl.Proofs.Teardown
import QosControl.Proofs.Bindings
import QosControl.Proofs.FastPath
import QosControl.Proofs.Shadowing
import QosControl.Proofs.Locality
import QosControl.Proofs.Validity
import QosControl.Proofs.Retry
import QosControl.Proofs.ListOrder
import QosControl.Proofs.QueueTable
import QosControl.Proofs.Respelling
import QosControl.Proofs.PortHeader
import QosControl.Proofs.PipeProfiles
import QosControl.Proofs.QueueTargets
import QosControl.Proofs.Thresholds
import QosControl.Proofs.Announcements
import QosControl.Proofs.FanOut
import QosControl.Proofs.Users
import QosControl.Proofs.IndexRuns
import QosControl.Proofs.RateTexts
import QosControl.Proofs.DscpGroups
import QosControl.Proofs.DropPrecedences
