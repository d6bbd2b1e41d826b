import CryptoRadar.Alerts.AtMostOnce
import CryptoRadar.Alerts.Keys
import CryptoRadar.Alerts.Store
import CryptoRadar.Benchmark.NumberWords
import CryptoRadar.Benchmark.Results
import CryptoRadar.Benchmark.Runs
import CryptoRadar.Benchmark.ScanBudget
import CryptoRadar.Calibration.Domain
import CryptoRadar.Calibration.Metrics
import CryptoRadar.Calibration.Newton
import CryptoRadar.Clock.Bound
import CryptoRadar.Clock.FailsClosed
import CryptoRadar.Clock.Reference
import CryptoRadar.Clock.Steps
import CryptoRadar.Clock.Window
import CryptoRadar.Costs.Agreement
import CryptoRadar.Costs.Completeness
import CryptoRadar.Costs.Domain
import CryptoRadar.Costs.LowerBound
import CryptoRadar.Costs.Monotone
import CryptoRadar.Costs.RoundTrip
import CryptoRadar.Experiments.Domain
import CryptoRadar.Integrity.Buckets
import CryptoRadar.Integrity.Depth
import CryptoRadar.Integrity.FailsClosed
import CryptoRadar.Invocation.Budget
import CryptoRadar.Invocation.Expiry
import CryptoRadar.Invocation.Fencing
import CryptoRadar.Invocation.Store
import CryptoRadar.Invocation.Transitions
import CryptoRadar.L2.Hours
import CryptoRadar.L2.Ready
import CryptoRadar.L2.Structure
import CryptoRadar.L2.Suffix
import CryptoRadar.L2.Tail
import CryptoRadar.L2.Used
import CryptoRadar.Lib.Alike
import CryptoRadar.Lib.Best
import CryptoRadar.Lib.Calendar
import CryptoRadar.Lib.CalendarOrder
import CryptoRadar.Lib.CalendarText
import CryptoRadar.Lib.Decimal
import CryptoRadar.Lib.DecimalExact
import CryptoRadar.Lib.DecimalHeld
import CryptoRadar.Lib.DecimalNearest
import CryptoRadar.Lib.DecimalText
import CryptoRadar.Lib.DecimalThread
import CryptoRadar.Lib.DecimalUnits
import CryptoRadar.Lib.DecimalValue
import CryptoRadar.Lib.Dict
import CryptoRadar.Lib.Double
import CryptoRadar.Lib.Elimination
import CryptoRadar.Lib.ExactNumber
import CryptoRadar.Lib.HashChain
import CryptoRadar.Lib.IsoTime
import CryptoRadar.Lib.Json
import CryptoRadar.Lib.JsonForm
import CryptoRadar.Lib.JsonLoaded
import CryptoRadar.Lib.JsonRead
import CryptoRadar.Lib.JsonText
import CryptoRadar.Lib.Lines
import CryptoRadar.Lib.Number
import CryptoRadar.Lib.Offers
import CryptoRadar.Lib.Program
import CryptoRadar.Lib.Runtime
import CryptoRadar.Lib.Sha256
import CryptoRadar.Lib.Slices
import CryptoRadar.Lib.SlotRun
import CryptoRadar.Lib.Sorting
import CryptoRadar.Microstructure.Book
import CryptoRadar.Microstructure.FairFill
import CryptoRadar.Notifications.OnePush
import CryptoRadar.Outbox.Lifecycle
import CryptoRadar.Outbox.Store
import CryptoRadar.Outcomes.Domain
import CryptoRadar.Outcomes.Exactness
import CryptoRadar.Outcomes.Labeler
import CryptoRadar.Outcomes.Labels
import CryptoRadar.Outcomes.NotBefore
import CryptoRadar.Outcomes.Store
import CryptoRadar.Paper.Admission
import CryptoRadar.Paper.Domain
import CryptoRadar.Paper.ExitChoice
import CryptoRadar.Paper.Settled
import CryptoRadar.Paper.Sound
import CryptoRadar.Paper.SpotText
import CryptoRadar.Paper.Store
import CryptoRadar.Pilot.Admission
import CryptoRadar.Pilot.EnvelopeText
import CryptoRadar.Pilot.LockLife
import CryptoRadar.PrivateRead.Nonces
import CryptoRadar.PrivateRead.Parameters
import CryptoRadar.PrivateRead.Reader
import CryptoRadar.Registry.Format
import CryptoRadar.Registry.Holdout
import CryptoRadar.Risk.CashBuffer
import CryptoRadar.Risk.Maximal
import CryptoRadar.Risk.Passes
import CryptoRadar.Scheduler.Atomic
import CryptoRadar.Scheduler.Backpressure
import CryptoRadar.Scheduler.Bounded
import CryptoRadar.Scheduler.Ceilings
import CryptoRadar.Scheduler.Consistency
import CryptoRadar.Scheduler.Histories
import CryptoRadar.Scheduler.Lives
import CryptoRadar.Scheduler.Records
import CryptoRadar.Scheduler.Slot
import CryptoRadar.Scheduler.Told
import CryptoRadar.Tradeability.Refinement
import CryptoRadar.Tradeability.Scenarios
import CryptoRadar.Tradeability.ThinBook
import CryptoRadar.Trend.Appended
import CryptoRadar.Trend.Audit
import CryptoRadar.Trend.Booked
import CryptoRadar.Trend.Books
import CryptoRadar.Trend.Canonical
import CryptoRadar.Trend.CatchUp
import CryptoRadar.Trend.CatchUpFile
import CryptoRadar.Trend.Encoding
import CryptoRadar.Trend.Extend
import CryptoRadar.Trend.Finality
import CryptoRadar.Trend.Format
import CryptoRadar.Trend.KrakenCatchUp
import CryptoRadar.Trend.Lookahead
import CryptoRadar.Trend.NoBorrowing
import CryptoRadar.Trend.Plan
import CryptoRadar.Trend.Python
import CryptoRadar.Trend.Recorded
import CryptoRadar.Trend.Resume
import CryptoRadar.Trend.RoundTrip
import CryptoRadar.Trend.SameAccounting
import CryptoRadar.Trend.SelfFinancing
import CryptoRadar.Trend.Simulation
import CryptoRadar.Trend.TaxLots
import CryptoRadar.Trend.Tip
import CryptoRadar.Worker.Advance
import CryptoRadar.Worker.Breaker
import CryptoRadar.Worker.Domain
import CryptoRadar.Worker.Flight
import CryptoRadar.Worker.Journal
import CryptoRadar.Worker.Kept
import CryptoRadar.Worker.Operations
import CryptoRadar.Worker.Sections
