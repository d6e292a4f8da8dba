import IpStack.SeqNum
import IpStack.Packet
import IpStack.Tcb
import IpStack.Stream
import IpStack.Poll
import IpStack.Flow
import IpStack.Pass
import IpStack.StateMachine
import IpStack.Inflight
import IpStack.SendData
import IpStack.Window
import IpStack.Outbox
import IpStack.Demux
import IpStack.Loop
import IpStack.Delivery
import IpStack.Routing
import IpStack.Readiness
import IpStack.Relay
import IpStack.Stack
import IpStack.Transfer
import IpStack.DataSegments
