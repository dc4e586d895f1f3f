import ExecutorService.Api
import ExecutorService.ApiRequests
import ExecutorService.Artifacts
import ExecutorService.CodecRoundTrip
import ExecutorService.CommandCalls
import ExecutorService.Confinement
import ExecutorService.Continuations
import ExecutorService.Cursors
import ExecutorService.Datetimes
import ExecutorService.Dispatcher
import ExecutorService.Downloads
import ExecutorService.Drain
import ExecutorService.Endings
import ExecutorService.FileTrees
import ExecutorService.JournalDelivery
import ExecutorService.JournalFollowers
import ExecutorService.JsonLines
import ExecutorService.Keyset
import ExecutorService.LeaseFencing
import ExecutorService.Numbering
import ExecutorService.OperatorCalls
import ExecutorService.OperatorIntent
import ExecutorService.OutboxOrder
import ExecutorService.OutputLogs
import ExecutorService.Pagination
import ExecutorService.ReadModels
import ExecutorService.RepeatedSeals
import ExecutorService.RoundTrips
import ExecutorService.RunRotation
import ExecutorService.SealedResults
import ExecutorService.ShapeChanges
import ExecutorService.ShapeHistories
import ExecutorService.Shapes
import ExecutorService.StartEvents
import ExecutorService.StorageRoot
import ExecutorService.Submissions
import ExecutorService.TenantIsolation
import ExecutorService.Materializations
import ExecutorService.Progress
import ExecutorService.QuietParts
import ExecutorService.Knowledge
import ExecutorService.RunSteps
import ExecutorService.SingleRuns
import ExecutorService.MultiRuns
import ExecutorService.Deployments
import ExecutorService.DeploymentRuns
import ExecutorService.StepEvents
import ExecutorService.Traces
import ExecutorService.Regularity
import ExecutorService.KeptRows
import ExecutorService.Successes
import ExecutorService.AttemptNumbers
import ExecutorService.Retries
import ExecutorService.JournalSightings
