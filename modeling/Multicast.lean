import Multicast.Channel.Scenario
import Multicast.Cursor
import Multicast.Demo.Scenario
import Multicast.Log.Text
import Multicast.Main
import Multicast.Metrics.Report
import Multicast.Queue.Scenario
import Multicast.Registry.Samples
import Multicast.Registry.Scenario
import Multicast.Settings
import Multicast.Uuid
import Multicast.Proofs.Cursor.Greatest
import Multicast.Proofs.Heap.LeastFirst
import Multicast.Proofs.Heap.Capacity
import Multicast.Proofs.Heap.Repair
import Multicast.Proofs.Queue.Conservation
import Multicast.Proofs.Queue.Wakeup
import Multicast.Proofs.Queue.DrainOrder
import Multicast.Proofs.Queue.Shutdown
import Multicast.Proofs.Queue.Overtaking
import Multicast.Proofs.Queue.Closing
import Multicast.Proofs.Queue.Scenario
import Multicast.Proofs.Registry.Lane
import Multicast.Proofs.Registry.Account
import Multicast.Proofs.Registry.InOrder
import Multicast.Proofs.Registry.Membership
import Multicast.Proofs.Registry.Routing
import Multicast.Proofs.Registry.Run
import Multicast.Proofs.Registry.RemovedForGood
import Multicast.Proofs.Registry.CatchUp
import Multicast.Proofs.Registry.StoppedForGood
import Multicast.Proofs.Registry.LastWrite
import Multicast.Proofs.Registry.CompleteStop
import Multicast.Proofs.Registry.Timetable
import Multicast.Proofs.Registry.Enrolment
import Multicast.Proofs.Isolation.Isolated
import Multicast.Proofs.Traffic.Conserved
import Multicast.Proofs.Traffic.Filtered
import Multicast.Proofs.Traffic.Cancelled
import Multicast.Proofs.Traffic.PingFrames
import Multicast.Proofs.Traffic.Milestones
import Multicast.Proofs.Traffic.Backfills
import Multicast.Proofs.Registry.Series
import Multicast.Proofs.Registry.TwoSeries
import Multicast.Proofs.Registry.Sweeping
import Multicast.Proofs.Registry.Scenario
import Multicast.Proofs.Settings.Outcome
import Multicast.Proofs.Settings.Spelling
import Multicast.Proofs.Channel.Lossless
import Multicast.Proofs.Channel.Scenario
import Multicast.Proofs.Demo.Delivered
