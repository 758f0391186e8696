import PessiStreamer.Base.Acyclic
import PessiStreamer.Base.Channel
import PessiStreamer.Base.CircularBuffer
import PessiStreamer.Base.Codec
import PessiStreamer.Base.Effect
import PessiStreamer.Base.Flooding
import PessiStreamer.Base.Format
import PessiStreamer.Base.Guard
import PessiStreamer.Base.InOrder
import PessiStreamer.Base.LastWord
import PessiStreamer.Base.Losses
import PessiStreamer.Base.Map
import PessiStreamer.Base.Panic
import PessiStreamer.Base.Selection
import PessiStreamer.Base.Sending
import PessiStreamer.Base.Transition
import PessiStreamer.Common.Neighbours
import PessiStreamer.Common.Packet
import PessiStreamer.Common.Wire
import PessiStreamer.Reliable.Acknowledgement
import PessiStreamer.Reliable.Broadcast
import PessiStreamer.Reliable.Life
import PessiStreamer.Reliable.Network
import PessiStreamer.Reliable.Resolution
import PessiStreamer.Reliable.Socket
import PessiStreamer.Reliable.Transition
import PessiStreamer.Reliable.Wire
import PessiStreamer.Bootstrapper.Exchange
import PessiStreamer.Server.State
import PessiStreamer.Server.Streaming
import PessiStreamer.Server.Subscriptions
import PessiStreamer.Node.Averages
import PessiStreamer.Node.Calm
import PessiStreamer.Node.Change
import PessiStreamer.Node.Delivery
import PessiStreamer.Node.Exact
import PessiStreamer.Node.FailedRequests
import PessiStreamer.Node.Failover
import PessiStreamer.Node.Forwarding
import PessiStreamer.Node.Frames
import PessiStreamer.Node.GivingUp
import PessiStreamer.Node.Handle
import PessiStreamer.Node.Isolation
import PessiStreamer.Node.Knowledge
import PessiStreamer.Node.Line
import PessiStreamer.Node.Listed
import PessiStreamer.Node.Locks
import PessiStreamer.Node.Names
import PessiStreamer.Node.Passing
import PessiStreamer.Node.Ping
import PessiStreamer.Node.Queue
import PessiStreamer.Node.Race
import PessiStreamer.Node.Reception
import PessiStreamer.Node.Routing
import PessiStreamer.Node.Rules
import PessiStreamer.Node.SelfBlocking
import PessiStreamer.Node.Sent
import PessiStreamer.Node.Service
import PessiStreamer.Node.Silence
import PessiStreamer.Node.State
import PessiStreamer.Node.Subscribers
import PessiStreamer.Node.Sweeps
import PessiStreamer.Node.Tasks
import PessiStreamer.Node.Update
import PessiStreamer.Client.Averages
import PessiStreamer.Client.Clicks
import PessiStreamer.Client.Display
import PessiStreamer.Client.Handle
import PessiStreamer.Client.Knowledge
import PessiStreamer.Client.Pings
import PessiStreamer.Client.Player
import PessiStreamer.Client.Requests
import PessiStreamer.Client.Sources
import PessiStreamer.Client.State
import PessiStreamer.System.Advertisement
import PessiStreamer.System.Agreement
import PessiStreamer.System.Arrival
import PessiStreamer.System.Audience
import PessiStreamer.System.Authenticity
import PessiStreamer.System.Averages
import PessiStreamer.System.Clientele
import PessiStreamer.System.Commands
import PessiStreamer.System.Fanout
import PessiStreamer.System.Flood
import PessiStreamer.System.Ghosts
import PessiStreamer.System.Handover
import PessiStreamer.System.Hops
import PessiStreamer.System.Host
import PessiStreamer.System.Inventory
import PessiStreamer.System.Loops
import PessiStreamer.System.Losses
import PessiStreamer.System.Neighbours
import PessiStreamer.System.Outsider
import PessiStreamer.System.Overlay
import PessiStreamer.System.Provision
import PessiStreamer.System.Reciprocity
import PessiStreamer.System.RoundTrips
import PessiStreamer.System.Selection
import PessiStreamer.System.Streams
import PessiStreamer.System.Tasks
import PessiStreamer.System.Viewing
import PessiStreamer.System.Words
