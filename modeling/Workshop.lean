import Workshop.Execution.Production
import Workshop.Installation
import Workshop.Main
import Workshop.Quantity.Exact
import Workshop.Proofs.Execution.ActiveWave
import Workshop.Proofs.Execution.Calls
import Workshop.Proofs.Execution.WaveOrder
import Workshop.Proofs.Quantity.Ordered
import Workshop.Proofs.Explosion.Shape
import Workshop.Proofs.Execution.Progress
import Workshop.Proofs.Execution.Wedge
import Workshop.Proofs.Execution.AssemblyWaits
import Workshop.Proofs.Schedule.Replay
import Workshop.Proofs.Schedule.DailyCapacity
import Workshop.Proofs.Store.Keys
import Workshop.Proofs.Store.GuardedDates
import Workshop.Proofs.Store.Reading
import Workshop.Proofs.Schedule.Answers
import Workshop.Proofs.Execution.Interleaving
import Workshop.Proofs.Execution.Release
import Workshop.Proofs.Quantity.Zero
import Workshop.Proofs.Calendar.WrittenInstant
import Workshop.Proofs.Store.ExecutionRecords
import Workshop.Proofs.Execution.Outcomes
import Workshop.Proofs.Execution.Recording
import Workshop.Proofs.Schedule.Arrangement
import Workshop.Proofs.Schedule.EarlierWork
import Workshop.Proofs.Quantity.Rounding
import Workshop.Proofs.Quantity.Places
import Workshop.Proofs.Quantity.Accumulation
import Workshop.Proofs.Quantity.BinaryAccumulation
import Workshop.Proofs.Quantity.Summing
import Workshop.Proofs.Calendar.WrittenDate
import Workshop.Proofs.Schedule.SecondRun
import Workshop.Proofs.Schedule.Verdict
import Workshop.Proofs.Schedule.Horizon
import Workshop.Proofs.Schedule.OtherOrders
import Workshop.Proofs.Execution.Refusals
import Workshop.Proofs.Store.LedgerEntries
import Workshop.Proofs.Execution.RebuiltLedger
import Workshop.Proofs.Execution.Lifecycle
import Workshop.Proofs.Execution.Quantities
import Workshop.Proofs.Execution.History
import Workshop.Proofs.Store.BookedHours
import Workshop.Proofs.Store.AvailabilityRates
import Workshop.Proofs.Execution.Rebooking
import Workshop.Proofs.Execution.Freshness
import Workshop.Proofs.Schedule.Reasons
import Workshop.Proofs.Store.StatusWords
import Workshop.Proofs.Store.CommutingWrites
import Workshop.Proofs.Schedule.Unscheduling
import Workshop.Proofs.Explosion.Arrival
import Workshop.Proofs.Explosion.Circles
import Workshop.Proofs.Explosion.Layout
import Workshop.Proofs.Store.WrittenRows
import Workshop.Proofs.Calendar.WorkingDays
import Workshop.Proofs.Execution.Rescan
