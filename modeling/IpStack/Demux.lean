import IpStack.Outbox

/-!
The demultiplexer of lib.rs: the loop in the task `IpStack::new` spawns. One branch of its
`select!` reads a packet from the device and hands it to the inbox its network tuple names; on a
tuple not in the flow table it creates a flow and emits an Accept event. The other takes the
oldest packet on the shared outbox and writes it to the device, unless it is a TTL-0 sentinel,
which removes the entry of the flow it names. The device and the streams are the environment: a
read yields a parsed packet or a parse error, the consumer may drop a stream or the `IpStack`
handle, a live TCP stream puts packets built by `create_rev_packet` with `TTL` on the outbox, and
an accepted UDP stream's datagram, a sentinel or not, goes through the outbox branch (udp.rs is
absent: the model keeps the tuple the datagram names and whether its TTL is 0). A flow is named
by its inbox. Nothing in the TCP stream sends the sentinel: its `Drop` signals a
`destroy_messenger` that is never installed. So a TCP entry is never removed; a UDP entry may be.
-/

namespace IpStack

/-- Modelled from the spec: `NetworkTuple` (packet.rs is absent), the key of the flow table. -/
structure NetworkTuple where
  addrs : FlowAddrs
  tcp : Bool
deriving DecidableEq, Repr

/-- Modelled from the spec: `NetworkPacket::reverse_network_tuple`, the tuple of a packet read
from the other side: its destination as source. -/
def NetworkPacket.reverseNetworkTuple (p : NetworkPacket) : NetworkTuple :=
  match p.ip with
  | .ipv4 src dst .. => ⟨.v4 ⟨dst, p.transport.destinationPort⟩ ⟨src, p.transport.sourcePort⟩, true⟩
  | .ipv6 src dst .. => ⟨.v6 ⟨dst, p.transport.destinationPort⟩ ⟨src, p.transport.sourcePort⟩, true⟩

@[simp] theorem NetworkPacket.reverseNetworkTuple_tcp (p : NetworkPacket) : p.reverseNetworkTuple.tcp = true := by
  unfold NetworkPacket.reverseNetworkTuple; split <;> rfl

/-- What `parse_packet` makes of a device read: a TCP or UDP packet with its source and
destination, or a packet the stack does not terminate. -/
inductive TunPacket
  | tcp (addrs : FlowAddrs) (seg : TcpSegment)
  | udp (addrs : FlowAddrs) (payload : List UInt8)
  | raw (bytes : List UInt8)
deriving DecidableEq, Repr

/-- A stream `accept` hands to the consumer. -/
inductive IpStackStream
  | tcp (inbox : Nat) (addrs : FlowAddrs)
  | udp (inbox : Nat) (addrs : FlowAddrs)
  | rawPacket
deriving DecidableEq, Repr

/-- The state of the demultiplexer task and of the channels around it. -/
structure Demux where
  /-- `streams`: each tuple with the inbox its sender feeds. -/
  streams : List (NetworkTuple × Nat)
  /-- The inboxes whose stream, which holds the receiving end, has not been dropped. -/
  live : List Nat
  /-- The inbox the next flow gets. -/
  next : Nat
  /-- The packets live inboxes have received. -/
  delivered : List (Nat × TunPacket)
  /-- `accept_sender`'s history, and whether `accept_receiver` is still held. -/
  accepted : List IpStackStream
  acceptOpen : Bool
  /-- `pkt_receiver`'s queue: the packets the flows have put on the shared outbox. -/
  outbox : List NetworkPacket
  /-- The TCP segments the task has written to the device. -/
  written : List NetworkPacket
  /-- Whether the task still runs: a failed accept or device write ends it (the `?`s). -/
  running : Bool
deriving DecidableEq, Repr

namespace Demux

def init : Demux := ⟨[], [], 0, [], [], true, [], [], true⟩

/-- `entry.get().send(packet)`: a dropped inbox refuses the packet, and the failure is only
logged. -/
def sendInbox (d : Demux) (i : Nat) (p : TunPacket) : Demux :=
  if i ∈ d.live then { d with delivered := d.delivered ++ [(i, p)] } else d

/-- `accept_sender.send(stream)?`: with the receiver gone the task ends. -/
def emitAccept (d : Demux) (st : IpStackStream) : Demux :=
  if d.acceptOpen then { d with accepted := d.accepted ++ [st] } else { d with running := false }

/-- `entry.insert(stream.stream_sender())` for a new flow, whose inbox is live. -/
def register (d : Demux) (k : NetworkTuple) : Demux :=
  { d with streams := (k, d.next) :: d.streams, live := d.next :: d.live, next := d.next + 1 }

/-- The device branch of the loop, on what `parse_packet` returned. `iss` is the initial sequence
number `Tcb::new` picks for a new TCP flow. -/
def onRead (mtu : UInt16) (iss : SeqNum) (d : Demux) : Option TunPacket → Demux
  | none => d
  | some (.raw _) => d.emitAccept .rawPacket
  | some (.tcp addrs seg) =>
    match d.streams.lookup ⟨addrs, true⟩ with
    | some i => d.sendInbox i (.tcp addrs seg)
    | none =>
      match IpStackTcpStream.new addrs seg.header mtu iss with
      | (.ok _, pkts) => ({ d with outbox := d.outbox ++ pkts }.register ⟨addrs, true⟩).emitAccept (.tcp d.next addrs)
      | (.error _, pkts) => { d with outbox := d.outbox ++ pkts }
  | some (.udp addrs pl) =>
    match d.streams.lookup ⟨addrs, false⟩ with
    | some i => d.sendInbox i (.udp addrs pl)
    | none => (d.register ⟨addrs, false⟩).emitAccept (.udp d.next addrs)

/-- `streams.remove(&packet.reverse_network_tuple())`, on a sentinel. -/
def remove (d : Demux) (k : NetworkTuple) : Demux :=
  { d with streams := d.streams.filter (·.1 != k) }

/-- The outbox branch, on the packet `pkt_receiver` yielded: the sentinel removes the entry of
the flow it names; any other packet is written to the device, and a failed write ends the task. -/
def onRecv (d : Demux) (p : NetworkPacket) (writeOk : Bool) : Demux :=
  if p.ip.ttl = 0 then d.remove p.reverseNetworkTuple
  else if writeOk then { d with written := d.written ++ [p] } else { d with running := false }

/-- The outbox branch on a datagram of the UDP stream of `a`: the sentinel removes its entry;
another datagram is written to the device, and a failed write ends the task. -/
def onRecvUdp (d : Demux) (a : FlowAddrs) (ttlZero writeOk : Bool) : Demux :=
  if ttlZero then d.remove ⟨a, false⟩ else if writeOk then d else { d with running := false }

@[simp] theorem sendInbox_streams (d : Demux) (i : Nat) (p : TunPacket) : (d.sendInbox i p).streams = d.streams := by
  unfold sendInbox; split <;> rfl

@[simp] theorem emitAccept_streams (d : Demux) (st : IpStackStream) : (d.emitAccept st).streams = d.streams := by
  unfold emitAccept; split <;> rfl

@[simp] theorem register_streams (d : Demux) (k : NetworkTuple) :
    (d.register k).streams = (k, d.next) :: d.streams := rfl

end Demux

/-- One step of the demultiplexer or of its environment. -/
inductive DemuxStep (mtu : UInt16) : Demux → Demux → Prop
  | read {d : Demux} (p : Option TunPacket) (iss : SeqNum) (h : d.running) :
      DemuxStep mtu d (d.onRead mtu iss p)
  | recv {d : Demux} {p : NetworkPacket} {rest : List NetworkPacket} (writeOk : Bool) (h : d.running)
      (hq : d.outbox = p :: rest) : DemuxStep mtu d ({ d with outbox := rest }.onRecv p writeOk)
  | udpRecv {d : Demux} {i : Nat} {a : FlowAddrs} (ttlZero writeOk : Bool) (h : d.running)
      (hu : IpStackStream.udp i a ∈ d.accepted) : DemuxStep mtu d (d.onRecvUdp a ttlZero writeOk)
  | dropStream {d : Demux} (i : Nat) : DemuxStep mtu d { d with live := d.live.erase i }
  | streamSends {d : Demux} {i : Nat} (p : NetworkPacket) (h : i ∈ d.live) (hk : ∃ a, (⟨a, true⟩, i) ∈ d.streams)
      (ht : p.ip.ttl = TTL) : DemuxStep mtu d { d with outbox := d.outbox ++ [p] }
  | dropIpStack {d : Demux} : DemuxStep mtu d { d with acceptOpen := false }

inductive DemuxRun (mtu : UInt16) : Demux → Demux → Prop
  | refl (d : Demux) : DemuxRun mtu d d
  | tail {d d' d'' : Demux} : DemuxRun mtu d d' → DemuxStep mtu d' d'' → DemuxRun mtu d d''

namespace IpStackTcpStream

theorem new_ttl (addrs : FlowAddrs) (h : TcpHeader) (mtu : UInt16) (iss : SeqNum) :
    ∀ p ∈ (new addrs h mtu iss).2, p.ip.ttl = TTL := by
  unfold new; split
  · simp
  · split <;> simp

end IpStackTcpStream

def IpStackStream.tcpAddrs : IpStackStream → Option FlowAddrs
  | .tcp _ a => some a
  | _ => none

/-- What every run from the start keeps: the outbox holds only packets with `TTL`, so the task
never takes a sentinel from it. -/
structure DemuxInv (d : Demux) : Prop where
  ttl : ∀ p ∈ d.outbox, p.ip.ttl = TTL

namespace DemuxInv

variable {d : Demux}

theorem init : DemuxInv Demux.init := ⟨by simp [Demux.init]⟩

theorem pushOutbox (hi : DemuxInv d) {pkts : List NetworkPacket} (hp : ∀ p ∈ pkts, p.ip.ttl = TTL) :
    DemuxInv { d with outbox := d.outbox ++ pkts } :=
  ⟨fun p h => (List.mem_append.mp h).elim (hi.ttl p) (hp p)⟩

theorem onRead (hi : DemuxInv d) (mtu : UInt16) (iss : SeqNum) (p : Option TunPacket) :
    DemuxInv (d.onRead mtu iss p) := by
  have hs : ∀ i p, DemuxInv (d.sendInbox i p) := fun _ _ => by
    unfold Demux.sendInbox; split <;> exact ⟨hi.ttl⟩
  have ha : ∀ (d' : Demux) st, DemuxInv d' → DemuxInv (d'.emitAccept st) := fun _ _ h => by
    unfold Demux.emitAccept; split <;> exact ⟨h.ttl⟩
  rcases p with _ | ⟨addrs, seg⟩ | ⟨addrs, pl⟩ | b <;> simp only [Demux.onRead]
  · exact hi
  · split
    · exact hs _ _
    have hp := IpStackTcpStream.new_ttl addrs seg.header mtu iss
    split <;> rename_i hn <;> rw [hn] at hp
    · exact ha _ _ ⟨(hi.pushOutbox hp).ttl⟩
    · exact hi.pushOutbox hp
  · split
    · exact hs _ _
    · exact ha _ _ ⟨hi.ttl⟩
  · exact ha _ _ hi

end DemuxInv

section Runs

variable {mtu : UInt16} {d d' : Demux}

theorem DemuxStep.inv (hi : DemuxInv d) (h : DemuxStep mtu d d') : DemuxInv d' := by
  cases h with
  | read p iss _ => exact hi.onRead mtu iss p
  | @recv p rest ok _ hq =>
    have ht : ∀ q ∈ rest, q.ip.ttl = TTL := fun q h => hi.ttl q (by simp [hq, h])
    unfold Demux.onRecv Demux.remove; split_ifs <;> exact ⟨ht⟩
  | udpRecv ttlZero ok _ _ => unfold Demux.onRecvUdp Demux.remove; split_ifs <;> exact ⟨hi.ttl⟩
  | dropStream i => exact ⟨hi.ttl⟩
  | streamSends p _ _ ht => exact hi.pushOutbox (by simpa using ht)
  | dropIpStack => exact ⟨hi.ttl⟩

theorem DemuxRun.inv {d₀ : Demux} (h : DemuxRun mtu d₀ d) (hi : DemuxInv d₀) : DemuxInv d := by
  induction h with
  | refl => exact hi
  | tail _ hs ih => exact hs.inv ih

end Runs

end IpStack
