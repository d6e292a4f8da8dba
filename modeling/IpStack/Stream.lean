import IpStack.Tcb

/-!
The state of an `IpStackTcpStream` and the two helpers every poll uses: the payload bound
`calculate_payload_max_len` and the segment builder `create_rev_packet`. The channels a stream
owns are kept as data: `stream_receiver` as the list of packets waiting in the inbox, and
`up_packet_sender` as the history of packets this flow has put on the shared outbox together
with whether the demultiplexer still receives. Wakers are left out; they schedule polls and
carry no data the flow reads.
-/

namespace IpStack

open TcpFlags

inductive Shutdown
  | ready
  | pending
  | none
deriving DecidableEq, Repr

/-- The `std::io::ErrorKind`s the flow returns. -/
inductive ErrorKind
  | invalidInput
  | unexpectedEof
  | notConnected
  | connectionAborted
  | connectionReset
  | timedOut
  | connectionRefused
  | other
deriving DecidableEq, Repr

/-- A packet on the outbox. `resend` marks the packets `poll_flush` retransmits; the channel
carries only the packet, the mark keeps the history readable. -/
structure Sent where
  packet : NetworkPacket
  resend : Bool
deriving DecidableEq, Repr

/-- This flow's end of `up_packet_sender`: what it has sent, oldest first, and whether the
demultiplexer has dropped the receiving end. -/
structure Outbox where
  sent : List Sent
  closed : Bool
deriving DecidableEq, Repr

structure IpStackTcpStream where
  addrs : FlowAddrs
  streamReceiver : List TcpSegment
  upPacketSender : Outbox
  packetToSend : Option NetworkPacket
  tcb : Tcb
  mtu : UInt16
  shutdown : Shutdown
deriving DecidableEq, Repr

namespace IpStackTcpStream

/-- `self.up_packet_sender.send(packet)`, which fails once the receiving end is gone. -/
def send (s : IpStackTcpStream) (p : NetworkPacket) (resend : Bool) :
    Except ErrorKind IpStackTcpStream :=
  if s.upPacketSender.closed then .error .unexpectedEof
  else .ok { s with upPacketSender := { s.upPacketSender with sent := s.upPacketSender.sent ++ [⟨p, resend⟩] } }

def calculatePayloadMaxLen (s : IpStackTcpStream) (ipHeaderSize tcpHeaderSize : Nat) : Nat :=
  min s.tcb.sendWindow.toNat (s.mtu.toNat - (ipHeaderSize + tcpHeaderSize))

/-- The TCP header `create_rev_packet` writes: ports swapped, `seq` unless one is given, the
flow's `ack` and receive window, and the requested flags. -/
def revHeader (s : IpStackTcpStream) (flags : UInt8) (seq : Option SeqNum) : TcpHeader where
  sourcePort := s.addrs.dstPort
  destinationPort := s.addrs.srcPort
  sequenceNumber := (seq.getD s.tcb.seq).val
  acknowledgmentNumber := s.tcb.ack.val
  windowSize := s.tcb.recvWindow
  syn := flags &&& SYN != 0
  ack := flags &&& ACK != 0
  rst := flags &&& RST != 0
  fin := flags &&& FIN != 0
  psh := flags &&& PSH != 0

/-- `create_rev_packet`: the payload is cut to `calculate_payload_max_len`, and the IP length
field is set through etherparse's checked setters, which refuse a length that does not fit. -/
def createRevPacket (s : IpStackTcpStream) (flags ttl : UInt8) (seq : Option SeqNum)
    (payload : List UInt8) : Except ErrorKind NetworkPacket :=
  match s.addrs with
  | .v4 src dst =>
    let payload := payload.take (s.calculatePayloadMaxLen 20 TcpHeader.headerLen)
    let len := payload.length + TcpHeader.headerLen
    if 65535 - 20 < len then .error .invalidInput
    else .ok ⟨.ipv4 dst.ip src.ip ttl len.toUInt16 true, s.revHeader flags seq, payload⟩
  | .v6 src dst =>
    let payload := payload.take (s.calculatePayloadMaxLen 40 TcpHeader.headerLen)
    let len := payload.length + TcpHeader.headerLen
    if 65535 < len then .error .invalidInput
    else .ok ⟨.ipv6 dst.ip src.ip ttl len.toUInt16, s.revHeader flags seq, payload⟩

/-- The stream `new` returns for a SYN: state `Listen`, `ack` one past the peer's sequence
number, nothing queued. -/
def listen (addrs : FlowAddrs) (peerSeq : UInt32) (mtu : UInt16) (iss : SeqNum) :
    IpStackTcpStream where
  addrs := addrs
  streamReceiver := []
  upPacketSender := ⟨[], false⟩
  packetToSend := none
  tcb := Tcb.new (⟨peerSeq⟩ + 1) iss
  mtu := mtu
  shutdown := .none

/-- `IpStackTcpStream::new`. A first segment without SYN is refused; unless it is a RST, a
RST+ACK is sent first. `iss` is the initial sequence number `Tcb::new` picks. -/
def new (addrs : FlowAddrs) (tcp : TcpHeader) (mtu : UInt16) (iss : SeqNum) :
    Except ErrorKind IpStackTcpStream × List NetworkPacket :=
  let stream := listen addrs tcp.sequenceNumber mtu iss
  if tcp.syn then (.ok stream, [])
  else if !tcp.rst then
    match stream.createRevPacket (RST ||| ACK) TTL none [] with
    | .error e => (.error e, [])
    | .ok pkt => (.error .connectionRefused, [pkt])
  else (.error .connectionRefused, [])

end IpStackTcpStream

end IpStack
