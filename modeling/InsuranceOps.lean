import InsuranceOps.ConcurrentAppend
import InsuranceOps.TamperEvidence
import InsuranceOps.AbsorbingStates
import InsuranceOps.UniqueConstraints
import InsuranceOps.Progress
import InsuranceOps.Outcomes
import InsuranceOps.Dispatch
import InsuranceOps.Replay
import InsuranceOps.Resolution
import InsuranceOps.Redelivery
import InsuranceOps.LossWindows
import InsuranceOps.SingleCopy
import InsuranceOps.VisibilityTimeout
import InsuranceOps.PoisonTasks
import InsuranceOps.Durability
import InsuranceOps.FinishedRuns
import InsuranceOps.UndisturbedRequests
import InsuranceOps.Decisions
import InsuranceOps.LostUpdates
import InsuranceOps.HumanOutputs
import InsuranceOps.FailingPushes
import InsuranceOps.StepOrder
import InsuranceOps.RedisFlush
import InsuranceOps.TwoStarts
import InsuranceOps.DueTasks
import InsuranceOps.StoredPayload
import InsuranceOps.ReviewFlags
import InsuranceOps.RateLimit
import InsuranceOps.EventBytes
import InsuranceOps.WorkerLoop
import InsuranceOps.ReaperPass
import InsuranceOps.Maturing
import InsuranceOps.CanonicalForm
import InsuranceOps.RoutingOrder
import InsuranceOps.Redaction
import InsuranceOps.Ingestion
import InsuranceOps.DocumentOrder
import InsuranceOps.StrayValues
import InsuranceOps.WindowCap
import InsuranceOps.EventPages
import InsuranceOps.EscalationPages
import InsuranceOps.Library.BitFields
import InsuranceOps.Uuid7
import InsuranceOps.Actors
import InsuranceOps.HandOver
import InsuranceOps.Library.Files
import InsuranceOps.Library.Lexemes
import InsuranceOps.Library.Occurrences
import InsuranceOps.MigrationCalls
import InsuranceOps.PayloadStore
import InsuranceOps.Confined
import InsuranceOps.References
import InsuranceOps.TaskOrder
import InsuranceOps.Documents
import InsuranceOps.Access
import InsuranceOps.Transitions
