import IpStack.Stream

/-!
The polls of `IpStackTcpStream`: `poll_flush`, `poll_write`, and one pass of the `loop` in
`poll_read`. A pass either loops again, returns from `poll_read`, or panics. The idle timer is
an input of the pass (`fire`: the timeout future is ready when the pass polls it) and
`reset_timeout` has no effect in the model; `cap` is `buf.remaining()`. The inbox never reports
a closed channel, since the stream owns a sender of it (`stream_sender`).
-/

namespace IpStack

open TcpFlags

/-- The two panics a poll can reach: `poll_flush`'s and the assertion of `ReadBuf::put_slice`. -/
inductive PanicSite
  | flushEntryMissing
  | putSliceOverflow
deriving DecidableEq, Repr

/-- What a poll returns (`Ready(Ok)`, `Ready(Err)` or `Pending`), or where it panicked. -/
inductive Outcome (α : Type)
  | ok (a : α)
  | err (e : ErrorKind)
  | pending
  | panic (site : PanicSite)
deriving DecidableEq, Repr

/-- How one pass of the `poll_read` loop ends. `filled` holds the bytes it put in the buffer. -/
inductive ReadStep
  | next (s : IpStackTcpStream)
  | done (s : IpStackTcpStream) (filled : List UInt8) (r : Outcome Unit)
  | panic (site : PanicSite)
deriving DecidableEq, Repr

namespace IpStackTcpStream

@[simp] def withTcb (s : IpStackTcpStream) (t : Tcb) : IpStackTcpStream := { s with tcb := t }

@[simp] def fail (s : IpStackTcpStream) (e : ErrorKind) : ReadStep := .done s [] (.err e)

/-- Queues `packet_to_send` built by `create_rev_packet(flags)` and loops again with `t`. -/
def queue (s : IpStackTcpStream) (flags : UInt8) (t : Tcb) : ReadStep :=
  match s.createRevPacket flags TTL none [] with
  | .error e => s.fail e
  | .ok p => .next { s with packetToSend := some p, tcb := t }

def pollFlush (s : IpStackTcpStream) : IpStackTcpStream × Outcome Unit :=
  if s.tcb.state ≠ .established then (s, .err .notConnected) else
  match s.tcb.retransmission with
  | none => (s, .ok ())
  | some sq =>
    let s := s.withTcb { s.tcb with retransmission := none }
    match s.tcb.inflightPackets.find? (·.seq == sq) with
    | none => (s, .panic .flushEntryMissing)
    | some p =>
      match s.createRevPacket (PSH ||| ACK) TTL (some p.seq) p.payload with
      | .error e => (s, .err e)
      | .ok pkt =>
        match s.send pkt true with
        | .error e => (s, .err e)
        | .ok s => (s, .ok ())

/-- Lines 185–190 and 392–397: a pending retransmission is flushed first. -/
def flushPending (s : IpStackTcpStream) : IpStackTcpStream × Outcome Unit :=
  if s.tcb.retransmission.isSome then s.pollFlush else (s, .ok ())

def pollWrite (s : IpStackTcpStream) (buf : List UInt8) : IpStackTcpStream × Outcome Nat :=
  if s.tcb.state ≠ .established then (s, .err .notConnected) else
  if s.tcb.sendWindow.toNat < s.tcb.avgSendWindow / 2 ∨ s.tcb.isSendBufferFull then (s, .pending) else
  match s.flushPending with
  | (s, .panic site) => (s, .panic site)
  | (s, .pending) => (s, .pending)
  | (s, _) =>
    match s.createRevPacket (PSH ||| ACK) TTL none buf with
    | .error e => (s, .err e)
    | .ok packet =>
      let seq := s.tcb.seq
      match s.send packet false with
      | .error e => (s, .err e)
      | .ok s => (s.withTcb (s.tcb.addInflightPacket seq packet.payload), .ok packet.payload.length)

/-- Lines 294–297: `poll_flush`, then `Pending` if it is pending, else the next pass. -/
def flushThenLoop (s : IpStackTcpStream) : ReadStep :=
  match s.pollFlush with
  | (_, .panic site) => .panic site
  | (s, .pending) => .done s [] .pending
  | (s, _) => .next s

/-- The dispatch of an inbound segment in state `Established` (lines 274–350). -/
def onEstablished (s : IpStackTcpStream) (h : TcpHeader) (payload : List UInt8) : ReadStep :=
  let incomingAck : SeqNum := ⟨h.acknowledgmentNumber⟩
  if h.flags = ACK then
    match s.tcb.checkPktType h payload with
    | .windowUpdate => .next (s.withTcb (s.tcb.changeSendWindow h.windowSize))
    | .invalid => .next s
    | .keepAlive =>
      let s := s.withTcb ((s.tcb.changeLastAck incomingAck).changeSendWindow h.windowSize)
      s.queue ACK s.tcb
    | .retransmissionRequest =>
      (s.withTcb { s.tcb.changeSendWindow h.windowSize with retransmission := some incomingAck }).flushThenLoop
    | .newPacket =>
      .next (s.withTcb (((s.tcb.changeLastAck incomingAck).addUnorderedPacket
        ⟨h.sequenceNumber⟩ payload).changeSendWindow h.windowSize))
    | .ack => .next (s.withTcb ((s.tcb.changeLastAck incomingAck).changeSendWindow h.windowSize))
  else if h.flags = FIN ||| ACK then
    let s := s.withTcb (s.tcb.addAck 1)
    s.queue ACK (s.tcb.changeState (.finWait1 true))
  else if h.flags = PSH ||| ACK then
    if s.tcb.checkPktType h payload ≠ .newPacket then .next s else
    let s := s.withTcb (s.tcb.changeLastAck incomingAck)
    if payload = [] ∨ s.tcb.ack ≠ ⟨h.sequenceNumber⟩ then .next s else
    .next (s.withTcb ((s.tcb.changeSendWindow h.windowSize).addUnorderedPacket ⟨h.sequenceNumber⟩ payload))
  else .next s

/-- The handling of a segment taken from the inbox (lines 252–371). -/
def onSegment (s : IpStackTcpStream) (seg : TcpSegment) : ReadStep :=
  let h := seg.header
  let incomingAck : SeqNum := ⟨h.acknowledgmentNumber⟩
  if h.flags &&& RST ≠ 0 then
    .done { s with tcb := s.tcb.changeState .closed, shutdown := .ready } [] (.err .connectionReset)
  else if s.tcb.checkPktType h seg.payload = .invalid then .next s
  else match s.tcb.state with
  | .synReceived =>
    if h.flags = ACK then
      .next (s.withTcb (((s.tcb.changeLastAck incomingAck).changeSendWindow h.windowSize).changeState .established))
    else .next s
  | .established => s.onEstablished h seg.payload
  | .finWait1 false =>
    if h.flags = ACK then
      .next (s.withTcb (((s.tcb.changeLastAck incomingAck).addAck 1).changeState (.finWait2 true)))
    else if h.flags = FIN ||| ACK then
      let s := s.withTcb (s.tcb.addAck 1)
      s.queue ACK ((s.tcb.changeSendWindow h.windowSize).changeState (.finWait2 true))
    else .next s
  | .finWait2 true =>
    if h.flags = ACK then .next (s.withTcb (s.tcb.changeState (.finWait2 false)))
    else if h.flags = FIN ||| ACK then s.queue ACK (s.tcb.changeState (.finWait2 false))
    else .next s
  | _ => .next s

/-- Lines 227–235: the data stored from `ack` is acknowledged and copied into the buffer. -/
def deliver (s : IpStackTcpStream) (cap : Nat) (b : List UInt8) : ReadStep :=
  if 2 ^ 32 ≤ b.length then s.fail .other else
  let s := s.withTcb (s.tcb.addAck (OfNat.ofNat b.length))
  if cap < b.length then .panic .putSliceOverflow else
  match s.createRevPacket ACK TTL none [] with
  | .error e => .done s b (.err e)
  | .ok p =>
    match s.send p false with
    | .error e => .done s b (.err e)
    | .ok s => .done s b (.ok ())

/-- Lines 236–375 after the drain: our FIN when due, else the next inbox segment. -/
def afterDelivery (s : IpStackTcpStream) : ReadStep :=
  if s.tcb.state = .finWait1 true then
    s.queue (FIN ||| ACK) ((s.tcb.addSeqOne.addAck 1).changeState (.finWait2 true))
  else if s.shutdown = .pending ∧ s.tcb.state = .established ∧ s.tcb.lastAck = s.tcb.seq then
    s.queue (FIN ||| ACK) (s.tcb.addSeqOne.changeState (.finWait1 false))
  else match s.streamReceiver with
  | [] => .done s [] .pending
  | seg :: rest => onSegment { s with streamReceiver := rest } seg

/-- Lines 195–235: the early returns, the window refresh, the timer, the SYN+ACK, the drain. -/
def afterSend (rbs : Nat) (fire : Bool) (cap : Nat) (s : IpStackTcpStream) : ReadStep :=
  if s.tcb.state = .closed then .done { s with shutdown := .ready } [] (.ok ())
  else if s.tcb.state = .finWait2 false then
    .done { s with tcb := s.tcb.changeState .closed, shutdown := .ready } [] (.err .connectionAborted)
  else
  let s := s.withTcb (s.tcb.changeRecvWindow (s.tcb.getAvailableReadBufferSize rbs).toUInt16)
  if fire then
    match s.createRevPacket (RST ||| ACK) TTL none [] with
    | .error e => s.fail e
    | .ok p =>
      match s.send p false with
      | .error e => s.fail e
      | .ok s => .done { s with tcb := s.tcb.changeState .closed, shutdown := .ready } [] (.err .timedOut)
  else if s.tcb.state = .listen then s.queue (SYN ||| ACK) (s.tcb.addSeqOne.changeState .synReceived)
  else
  let (b, t) := s.tcb.getUnorderedPackets
  let s := s.withTcb t
  match b, s.shutdown with
  | some b, .none => s.deliver cap b
  | _, _ => s.afterDelivery

/-- Lines 192–194: the segment left in `packet_to_send` by the previous pass is sent. -/
def sendQueued (s : IpStackTcpStream) : Except ErrorKind IpStackTcpStream :=
  match s.packetToSend with
  | none => .ok s
  | some p => { s with packetToSend := none }.send p false

/-- One pass of the `loop` in `poll_read` (lines 184–376). -/
def readIter (rbs : Nat) (fire : Bool) (cap : Nat) (s : IpStackTcpStream) : ReadStep :=
  match s.flushPending with
  | (_, .panic site) => .panic site
  | (s, .pending) => .done s [] .pending
  | (s, _) =>
    match s.sendQueued with
    | .error e => ({ s with packetToSend := none } : IpStackTcpStream).fail e
    | .ok s => afterSend rbs fire cap s

end IpStackTcpStream

end IpStack
