import SharedFetch.Main
import SharedFetch.Proofs.Forwarding
import SharedFetch.Proofs.Host.Activity
import SharedFetch.Proofs.Host.Bounds
import SharedFetch.Proofs.Host.Delivery
import SharedFetch.Proofs.Host.Integrity
import SharedFetch.Proofs.Host.Isolation
import SharedFetch.Proofs.Host.Lifecycle
import SharedFetch.Proofs.Host.Progress
import SharedFetch.Proofs.Host.Provenance
import SharedFetch.Proofs.Host.Restart
import SharedFetch.Proofs.Host.Schedule
import SharedFetch.Proofs.Host.Settlement
import SharedFetch.Proofs.Host.SingleOwnership
import SharedFetch.Proofs.Host.Stop
import SharedFetch.Proofs.Host.Telemetry
import SharedFetch.Proofs.Host.Verdict
import SharedFetch.Proofs.Parts
import SharedFetch.Proofs.Pipeline.FanOut
import SharedFetch.Proofs.Pipeline.Refinement
import SharedFetch.Proofs.Settings
import SharedFetch.Proofs.WaitersHistory
import SharedFetch.Proofs.Workers.Conservation
import SharedFetch.Scenario.Coordinator
import SharedFetch.Scenario.Download
import SharedFetch.Scenario.Host
import SharedFetch.Scenario.Intake
import SharedFetch.Scenario.Metrics
import SharedFetch.Scenario.Parts
import SharedFetch.Scenario.Workers
