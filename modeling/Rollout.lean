import Rollout.Health
import Rollout.Main
import Rollout.Metrics.Text
import Rollout.Notice.Slack
import Rollout.Proofs.Run.Charter
import Rollout.Proofs.Run.Barrier
import Rollout.Proofs.Engine.Crew
import Rollout.Proofs.Engine.CallHistory
import Rollout.Proofs.Engine.Exclusion
import Rollout.Proofs.Orchestrator.Acceptance
import Rollout.Proofs.Orchestrator.TaskTraces
import Rollout.Proofs.Orchestrator.Finality
import Rollout.Proofs.Orchestrator.Reversal
import Rollout.Proofs.Orchestrator.Compensation
import Rollout.Proofs.Run.Permanence
import Rollout.Proofs.Orchestrator.Accomplished
import Rollout.Proofs.Engine.Supervision
import Rollout.Proofs.Engine.Blocks
import Rollout.Proofs.Engine.Cancellation
import Rollout.Proofs.Engine.GatedAttempts
import Rollout.Proofs.Engine.Probing
import Rollout.Proofs.Run.Refusal
import Rollout.Proofs.Run.Serial
import Rollout.Proofs.Run.Suspension
import Rollout.Proofs.Run.Departures
import Rollout.Proofs.Run.Laps
import Rollout.Proofs.Run.Projection
import Rollout.Proofs.Run.Records
import Rollout.Proofs.Metrics.Gauge
import Rollout.Proofs.Orchestrator.Lifecycle
import Rollout.Proofs.Orchestrator.Verdict
import Rollout.Proofs.Topology.Offences
import Rollout.Proofs.Config.Startable
import Rollout.Proofs.Plan.Mirror
import Rollout.Proofs.Plan.Unchecked
import Rollout.Proofs.Run.Fulfilment
import Rollout.Proofs.Orchestrator.AttemptCounts
import Rollout.Proofs.Orchestrator.MetricsAndNotices
import Rollout.Proofs.Application.Rehearsed
import Rollout.Proofs.Notice.Lines
import Rollout.Proofs.Wire.RoundTrip
