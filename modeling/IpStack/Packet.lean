import IpStack.SeqNum

/-!
The packet records the TCP flow engine reads from its inbox and builds for the outbox: the
fields of etherparse's TCP, IPv4 and IPv6 headers that `create_rev_packet` sets, and the
flag byte `TcpHeaderWrapper::flags` computes. Checksums are left out: nothing in the flow
reads them back. A flow's two addresses come from one IP header, so `FlowAddrs` has no
mixed-family case; that is the `unreachable!()` arm of `create_rev_packet`.
-/

namespace IpStack

namespace TcpFlags

/-- TCP flag bits of `crate::packet::tcp_flags` (packet.rs is not in the snapshot): the bit
positions of the TCP header's flag byte. -/
def FIN : UInt8 := 0x01
def SYN : UInt8 := 0x02
def RST : UInt8 := 0x04
def PSH : UInt8 := 0x08
def ACK : UInt8 := 0x10
def URG : UInt8 := 0x20
def ECE : UInt8 := 0x40
def CWR : UInt8 := 0x80

end TcpFlags

open TcpFlags

/-- `TTL` of lib.rs on Unix hosts. -/
def TTL : UInt8 := 64

structure SocketAddrV4 where
  ip : BitVec 32
  port : UInt16
deriving DecidableEq, Repr

structure SocketAddrV6 where
  ip : BitVec 128
  port : UInt16
deriving DecidableEq, Repr

/-- The `src_addr` and `dst_addr` of a flow. -/
inductive FlowAddrs
  | v4 (src dst : SocketAddrV4)
  | v6 (src dst : SocketAddrV6)
deriving DecidableEq, Repr

namespace FlowAddrs

def srcPort : FlowAddrs → UInt16
  | v4 src _ => src.port
  | v6 src _ => src.port

def dstPort : FlowAddrs → UInt16
  | v4 _ dst => dst.port
  | v6 _ dst => dst.port

end FlowAddrs

/-- The fields of etherparse's `TcpHeader` that the flow reads or writes. -/
structure TcpHeader where
  sourcePort : UInt16
  destinationPort : UInt16
  sequenceNumber : UInt32
  acknowledgmentNumber : UInt32
  windowSize : UInt16
  cwr : Bool := false
  ece : Bool := false
  urg : Bool := false
  ack : Bool := false
  psh : Bool := false
  rst : Bool := false
  syn : Bool := false
  fin : Bool := false
deriving DecidableEq, Repr

/-- Modelled from the spec: `TcpHeaderWrapper::flags` (packet.rs is absent), the flag byte of
a header. -/
def TcpHeader.flags (h : TcpHeader) : UInt8 :=
  (if h.cwr then CWR else 0) ||| (if h.ece then ECE else 0) ||| (if h.urg then URG else 0) |||
    (if h.ack then ACK else 0) ||| (if h.psh then PSH else 0) ||| (if h.rst then RST else 0) |||
    (if h.syn then SYN else 0) ||| (if h.fin then FIN else 0)

/-- etherparse's `TcpHeader::header_len` for a header without options. -/
def TcpHeader.headerLen : Nat := 20

/-- The IP header of a built packet. `payloadLen` is the length the header announces for what
follows it (the TCP header and the data). -/
inductive IpHeader
  | ipv4 (source destination : BitVec 32) (timeToLive : UInt8) (payloadLen : UInt16)
      (dontFragment : Bool)
  | ipv6 (source destination : BitVec 128) (hopLimit : UInt8) (payloadLength : UInt16)
deriving DecidableEq, Repr

namespace IpHeader

def headerLen : IpHeader → Nat
  | ipv4 .. => 20
  | ipv6 .. => 40

def ttl : IpHeader → UInt8
  | ipv4 _ _ t _ _ => t
  | ipv6 _ _ t _ => t

def payloadLenField : IpHeader → UInt16
  | ipv4 _ _ _ n _ => n
  | ipv6 _ _ _ n => n

end IpHeader

/-- A packet the flow puts on the outbox: `NetworkPacket` with a TCP transport header. -/
structure NetworkPacket where
  ip : IpHeader
  transport : TcpHeader
  payload : List UInt8
deriving DecidableEq, Repr

namespace NetworkPacket

def seq (p : NetworkPacket) : SeqNum := ⟨p.transport.sequenceNumber⟩

def ack (p : NetworkPacket) : SeqNum := ⟨p.transport.acknowledgmentNumber⟩

/-- The flag byte of the packet's TCP header. -/
def flags (p : NetworkPacket) : UInt8 := p.transport.flags

end NetworkPacket

/-- An inbound segment as `poll_read` sees it: the TCP header of a packet from the flow's inbox
and its payload. -/
structure TcpSegment where
  header : TcpHeader
  payload : List UInt8
deriving DecidableEq, Repr

end IpStack
