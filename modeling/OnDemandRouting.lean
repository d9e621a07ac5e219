import OnDemandRouting.Lib.Trace
import OnDemandRouting.Lib.Walk
import OnDemandRouting.Lib.KeyedList
import OnDemandRouting.Lib.Buffer
import OnDemandRouting.Lib.Charge
import OnDemandRouting.Lib.Stdio
import OnDemandRouting.Lib.LinkedList
import OnDemandRouting.Lib.Post
import OnDemandRouting.Lib.Register
import OnDemandRouting.Lib.Related
import OnDemandRouting.Model.Frame
import OnDemandRouting.Model.Wire
import OnDemandRouting.Model.RoutingTable
import OnDemandRouting.Model.Interfaces
import OnDemandRouting.Model.Node
import OnDemandRouting.Model.PendingHeap
import OnDemandRouting.Model.Send
import OnDemandRouting.Model.PeerMsg
import OnDemandRouting.Model.Text
import OnDemandRouting.Model.EthernetMsg
import OnDemandRouting.Model.RouteHeap
import OnDemandRouting.Model.Network
import OnDemandRouting.Model.Machine
import OnDemandRouting.Model.Apps
import OnDemandRouting.Model.Wiring
import OnDemandRouting.Proofs.Representation
import OnDemandRouting.Proofs.QueueHeap
import OnDemandRouting.Proofs.Broadcast
import OnDemandRouting.Proofs.WireCodec
import OnDemandRouting.Proofs.Transparency
import OnDemandRouting.Proofs.HandlerSpec
import OnDemandRouting.Proofs.Delivery
import OnDemandRouting.Proofs.MessageBalance
import OnDemandRouting.Proofs.NetworkStep
import OnDemandRouting.Proofs.Frames
import OnDemandRouting.Proofs.ByteOrder
import OnDemandRouting.Proofs.Progress
import OnDemandRouting.Proofs.Freshness
import OnDemandRouting.Proofs.Provenance
import OnDemandRouting.Proofs.Solicited
import OnDemandRouting.Proofs.HopCounts
import OnDemandRouting.Proofs.LoopFree
import OnDemandRouting.Proofs.SelfRoute
import OnDemandRouting.Proofs.Relay
import OnDemandRouting.Proofs.Suppression
import OnDemandRouting.Proofs.UniqueRoutes
import OnDemandRouting.Proofs.Waiting
import OnDemandRouting.Proofs.TableHeap
import OnDemandRouting.Proofs.Removal
import OnDemandRouting.Proofs.EntryFate
import OnDemandRouting.Proofs.Rediscovery
import OnDemandRouting.Proofs.QueuedFrame
import OnDemandRouting.Proofs.ArrivalOrder
import OnDemandRouting.Proofs.Ports
import OnDemandRouting.Proofs.BroadcastIds
import OnDemandRouting.Proofs.Conservation
import OnDemandRouting.Proofs.Survival
import OnDemandRouting.Proofs.Discovery
import OnDemandRouting.Proofs.Flood
import OnDemandRouting.Proofs.FloodBound
import OnDemandRouting.Proofs.OneMessage
import OnDemandRouting.Proofs.ShortestRoute
import OnDemandRouting.Proofs.Completion
import OnDemandRouting.Proofs.Forced
import OnDemandRouting.Proofs.ForcedRun
import OnDemandRouting.Proofs.Sizes
import OnDemandRouting.Proofs.Machine
import OnDemandRouting.Proofs.MachineRun
import OnDemandRouting.Proofs.Apps
import OnDemandRouting.Proofs.AppsRun
import OnDemandRouting.Proofs.Replies
