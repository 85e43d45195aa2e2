import AwaQueue.Library.Machine
import AwaQueue.Library.Select
import AwaQueue.Lane.Tables
import AwaQueue.Lane.Protocol
import AwaQueue.Lane.Invariant
import AwaQueue.Lane.Stability
import AwaQueue.Lane.Segments
import AwaQueue.Lane.Writers
import AwaQueue.Lane.Commits
import AwaQueue.Lane.Claims
import AwaQueue.Lane.Safety
import AwaQueue.Library.Tally
import AwaQueue.Attempt.Tables
import AwaQueue.Attempt.Protocol
import AwaQueue.Attempt.Invariant
import AwaQueue.Attempt.Stability
import AwaQueue.Attempt.Closures
import AwaQueue.Attempt.Statements
import AwaQueue.Attempt.Commits
import AwaQueue.Attempt.Gates
import AwaQueue.Attempt.Safety
import AwaQueue.Attempt.Dispositions
import AwaQueue.Terminal.Rows
import AwaQueue.Terminal.Store
import AwaQueue.Terminal.Invariant
import AwaQueue.Terminal.Completion
import AwaQueue.Terminal.Hydration
import AwaQueue.Terminal.Keys
import AwaQueue.Ring.Protocol
import AwaQueue.Ring.Ledger
import AwaQueue.Transition.Cluster
import AwaQueue.Transition.Routing
import AwaQueue.Transition.Stranding
import AwaQueue.Transition.Handoff
import AwaQueue.Library.Account
import AwaQueue.Counters.Tables
import AwaQueue.Counters.Conservation
import AwaQueue.FollowUp.Finalizer
import AwaQueue.FollowUp.ExactlyOnce
import AwaQueue.Unique.Claims
import AwaQueue.Unique.Rescue
import AwaQueue.Callback.Protocol
import AwaQueue.Callback.Invariant
import AwaQueue.Callback.Steps
import AwaQueue.Callback.Safety
import AwaQueue.Callback.Resolution
import AwaQueue.Lane.Aging
import AwaQueue.Terminal.Payload
import AwaQueue.Progress.Flush
import AwaQueue.Cron.Tables
import AwaQueue.Cron.FireTimes
import AwaQueue.Cron.Evaluation
import AwaQueue.Cron.Reconciliation
import AwaQueue.Cron.Writers
import AwaQueue.Cron.Certificate
import AwaQueue.Cron.Agreement
import AwaQueue.Cron.Retirement
import AwaQueue.Library.Buckets
import AwaQueue.Lane.Effects
import AwaQueue.Enqueue.Producers
import AwaQueue.Enqueue.Order
import AwaQueue.Library.Sweep
import AwaQueue.Attempt.Coverage
import AwaQueue.Cron.LatestDue
import AwaQueue.Enqueue.Stripes
import AwaQueue.Dispatch.Pool
import AwaQueue.Dispatch.Rate
import AwaQueue.Copy.Staging
import AwaQueue.Copy.Storage
import AwaQueue.Batch.Once
import AwaQueue.Counts.LoadJob
import AwaQueue.Counts.Numbers
import AwaQueue.Prune.Carry
import AwaQueue.Cancel.Outcome
import AwaQueue.Unique.Key
import AwaQueue.Enqueue.Reservation
import AwaQueue.Maintenance.Cursor
import AwaQueue.Maintenance.Branches
import AwaQueue.Completion.Batcher
