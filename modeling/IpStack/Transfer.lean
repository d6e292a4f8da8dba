import IpStack.Stack
import IpStack.Delivery

/-!
Bytes end to end through the stack. Inside the stack each TCP flow runs the flow model from the
stream `IpStackTcpStream::new` built from the flow's SYN, and the segments that reach its inbox
are exactly those the task's device branch handed to it, in order. So what a single flow
guarantees carries over to the whole stack, in both directions: the consumer of a flow reads a
prefix of the stream whose segments the device delivered for it, counted from the SYN's sequence
number, and every data segment the device received for the flow's peer carries what the consumer
wrote, at its offset from the initial sequence number `Tcb::new` picked.
-/

namespace IpStack

open TcpFlags

theorem listen_ack (addrs : FlowAddrs) (peerSeq : UInt32) (mtu : UInt16) (iss : SeqNum) :
    (IpStackTcpStream.listen addrs peerSeq mtu iss).tcb.ack = (⟨peerSeq⟩ : SeqNum).addNat 1 := rfl

/-- The consumer of each TCP flow reads the stream the device delivered for it: counted from the
sequence number of the SYN `new` built the flow from, a peer sending `B` in data-phase segments
without FIN is read as a prefix of `B`, and acknowledged one past the SYN plus its length. -/
theorem consumer_reads_device_stream {rbs : Nat} {mtu : UInt16} {st : Stack} (h : StackRun rbs mtu Stack.init st)
    {i : Nat} {w : World} (hw : (i, w) ∈ st.flows) :
    (∃ syn iss, FedBy rbs mtu st.demux.delivered i syn iss w) ∧
    ∀ syn iss, FedBy rbs mtu st.demux.delivered i syn iss w → ∀ B : List UInt8, B.length < 2 ^ 32 →
      (∀ a seg, (i, TunPacket.tcp a seg) ∈ st.demux.delivered →
        PeerSegment ⟨syn.sequenceNumber⟩ B seg ∧ seg.header.fin = false) →
      w.delivered <+: B ∧ (w.stream.shutdown = .none →
        w.stream.tcb.ack = (⟨syn.sequenceNumber⟩ : SeqNum).addNat (1 + w.delivered.length)) := by
  refine ⟨h.inv.2.fed _ hw, fun syn iss hf B hB hd => ?_⟩
  obtain ⟨es, hr, ha⟩ := hf.run
  have hs := hr.recvState hB ⟨_, _, _, _, rfl⟩ (listen_ack _ _ _ _) fun seg hm =>
    let ⟨a, hm'⟩ := mem_inboxSegments.mp (ha ▸ hm); hd a seg hm'
  exact ⟨hs.read, hs.inv.ack⟩

/-- A SYN at 100, then "ab" delivered in reverse order: one read returns both bytes. -/
theorem consumer_reads_device_stream_reordered : ∃ st w syn, StackRun 64 1500 Stack.init st ∧ (0, w) ∈ st.flows ∧
    syn.sequenceNumber = 100 ∧ FedBy 64 1500 st.demux.delivered 0 syn 0 w ∧ w.delivered = [97, 98] ∧
    w.delivered <+: [97, 98] ∧ (w.stream.shutdown = .none →
      w.stream.tcb.ack = (⟨syn.sequenceNumber⟩ : SeqNum).addNat (1 + w.delivered.length)) := by
  let addrs : FlowAddrs := .v4 ⟨0x0a000001, 1234⟩ ⟨0x0a000002, 80⟩
  let hdr (sq : UInt32) (syn : Bool) : TcpHeader :=
    { sourcePort := 1234, destinationPort := 80, sequenceNumber := sq, acknowledgmentNumber := 1,
      windowSize := 1000, syn := syn, ack := !syn }
  let seg (sq : UInt32) (pl : List UInt8) : TcpSegment := ⟨hdr sq false, pl⟩
  let dev (s : TcpSegment) : StackInput := .read (some (.tcp addrs s)) 0
  let flowIns : List Input := [.read 100, .pass false, .pass false, .arrive (seg 101 []), .read 100, .pass false,
    .pass false, .arrive (seg 102 [98]), .arrive (seg 101 [97]), .read 100, .pass false, .pass false, .pass false]
  let ins : List StackInput := [dev ⟨hdr 100 true, []⟩, .flow 0 (.read 100), .flow 0 (.pass false),
    .flow 0 (.pass false), dev (seg 101 []), .flow 0 (.read 100), .flow 0 (.pass false),
    .flow 0 (.pass false), dev (seg 102 [98]), dev (seg 101 [97]), .flow 0 (.read 100),
    .flow 0 (.pass false), .flow 0 (.pass false), .flow 0 (.pass false)]
  have h : ((Stack.init.execAll 64 1500 ins).bind fun st => (st.flows.lookup 0).bind fun w =>
      ((World.init (IpStackTcpStream.listen addrs 100 1500 0)).execAll 64 flowIns).map fun r =>
        decide (r.2 = w ∧ w.stream.addrs = addrs ∧ w.delivered = [97, 98] ∧
          r.1.filterMap Event.arrival = inboxSegments st.demux.delivered 0) &&
        (inboxSegments st.demux.delivered 0).all fun s => decide (PeerSegment ⟨100⟩ [97, 98] s ∧ s.header.fin = false)) =
      some true := by decide
  obtain ⟨st, hx, h⟩ := Option.bind_eq_some.mp h
  obtain ⟨w, hl, h⟩ := Option.bind_eq_some.mp h
  obtain ⟨⟨es, w'⟩, hf, h⟩ := Option.map_eq_some'.mp h
  simp only [Bool.and_eq_true, decide_eq_true_eq, List.all_eq_true] at h
  obtain ⟨⟨rfl, ha, hd, harr⟩, hp⟩ := h
  have hr := Stack.execAll_sound hx
  have hm := mem_of_lookup hl
  have hfed : FedBy 64 1500 st.demux.delivered 0 (hdr 100 true) 0 w' :=
    ⟨_, es, by rw [ha]; rfl, World.execAll_sound hf, harr⟩
  exact ⟨st, w', hdr 100 true, hr, hm, rfl, hfed, hd, (consumer_reads_device_stream hr hm).2 _ _ hfed [97, 98]
    (by decide) fun a s hs => hp s (mem_inboxSegments.mpr ⟨a, hs⟩)⟩

/-- The device gets what the consumer of each TCP flow wrote: each PSH+ACK segment for the peer
carries written bytes at their offset from the ISS of the flow's `new`, and a FIN+ACK sits past them. -/
theorem device_gets_written_bytes {rbs : Nat} {mtu : UInt16} {st : Stack} (h : StackRun rbs mtu Stack.init st)
    {i : Nat} {w : World} (hw : (i, w) ∈ st.flows) :
    (∃ syn iss, FedBy rbs mtu st.demux.delivered i syn iss w) ∧
    ∀ syn iss, FedBy rbs mtu st.demux.delivered i syn iss w → ∀ p ∈ toPeer ⟨w.stream.addrs, true⟩ st.demux.written,
      (p.flags = PSH ||| ACK → DataAt iss w.written p.seq p.payload) ∧
      (p.flags = FIN ||| ACK → p.seq = iss.addNat (1 + w.written.length)) := by
  have hi := h.inv.2
  refine ⟨hi.fed _ hw, fun syn iss hf p hp => ?_⟩
  obtain ⟨pre, hpre, hx, -⟩ := hi.relayed _ hw
  obtain ⟨es, hr, -⟩ := hf.run
  have hsd := hr.sendData ⟨_, _, _, _, rfl⟩
  rcases List.mem_append.mp (hx.subset hp) with hp | hp
  · -- a refusal sent before the flow existed carries neither data nor FIN
    have hf := hpre p hp
    exact ⟨fun h => absurd (h.symm.trans hf) (by decide), fun h => absurd (h.symm.trans hf) (by decide)⟩
  · obtain ⟨x, hx, rfl⟩ := List.mem_map.mp hp
    exact ⟨(hsd.sent x hx).1, fun h => ((hsd.sent x hx).2 h).1⟩

/-- "HE" written, the first byte acknowledged twice: the device gets "HE" at 1 and the resent "E"
at 2. -/
theorem device_gets_written_bytes_resent : ∃ st w syn, StackRun 64 1500 Stack.init st ∧ (0, w) ∈ st.flows ∧
    FedBy 64 1500 st.demux.delivered 0 syn 0 w ∧ w.written = [72, 69] ∧
    (toPeer ⟨w.stream.addrs, true⟩ st.demux.written).map (fun p => (p.flags, p.seq, p.payload)) =
      [(SYN ||| ACK, ⟨0⟩, []), (PSH ||| ACK, ⟨1⟩, [72, 69]), (PSH ||| ACK, ⟨2⟩, [69])] ∧
    ∀ p ∈ toPeer ⟨w.stream.addrs, true⟩ st.demux.written,
      (p.flags = PSH ||| ACK → DataAt ⟨0⟩ w.written p.seq p.payload) ∧
      (p.flags = FIN ||| ACK → p.seq = (⟨0⟩ : SeqNum).addNat (1 + w.written.length)) := by
  let addrs : FlowAddrs := .v4 ⟨0x0a000001, 1234⟩ ⟨0x0a000002, 80⟩
  let hdr (sq a : UInt32) (syn : Bool) : TcpHeader :=
    { sourcePort := 1234, destinationPort := 80, sequenceNumber := sq, acknowledgmentNumber := a,
      windowSize := 1000, syn := syn, ack := !syn }
  let dev (h : TcpHeader) : StackInput := .read (some (.tcp addrs ⟨h, []⟩)) 0
  let flowIns : List Input := [.read 100, .pass false, .pass false, .arrive ⟨hdr 101 1 false, []⟩, .read 100,
    .pass false, .pass false, .write [72, 69], .arrive ⟨hdr 101 2 false, []⟩, .arrive ⟨hdr 101 2 false, []⟩,
    .read 100, .pass false, .pass false]
  let ins : List StackInput := [dev (hdr 100 0 true), .flow 0 (.read 100), .flow 0 (.pass false),
    .flow 0 (.pass false), .recv true, dev (hdr 101 1 false), .flow 0 (.read 100), .flow 0 (.pass false),
    .flow 0 (.pass false), .flow 0 (.write [72, 69]), .recv true, dev (hdr 101 2 false), dev (hdr 101 2 false),
    .flow 0 (.read 100), .flow 0 (.pass false), .flow 0 (.pass false), .recv true]
  have h : ((Stack.init.execAll 64 1500 ins).bind fun st => (st.flows.lookup 0).bind fun w =>
      ((World.init (IpStackTcpStream.listen addrs 100 1500 0)).execAll 64 flowIns).map fun r =>
        decide (r.2 = w ∧ w.stream.addrs = addrs ∧ w.written = [72, 69] ∧
          r.1.filterMap Event.arrival = inboxSegments st.demux.delivered 0 ∧
          (toPeer ⟨w.stream.addrs, true⟩ st.demux.written).map (fun p => (p.flags, p.seq, p.payload)) =
            [(SYN ||| ACK, ⟨0⟩, []), (PSH ||| ACK, ⟨1⟩, [72, 69]), (PSH ||| ACK, ⟨2⟩, [69])])) =
      some true := by decide
  obtain ⟨st, hx, h⟩ := Option.bind_eq_some.mp h
  obtain ⟨w, hl, h⟩ := Option.bind_eq_some.mp h
  obtain ⟨⟨es, w'⟩, hf, h⟩ := Option.map_eq_some'.mp h
  simp only [decide_eq_true_eq] at h
  obtain ⟨rfl, ha, hw, harr, hdev⟩ := h
  have hr := Stack.execAll_sound hx
  have hm := mem_of_lookup hl
  have hfed : FedBy 64 1500 st.demux.delivered 0 (hdr 100 0 true) ⟨0⟩ w' :=
    ⟨_, es, by rw [ha]; rfl, World.execAll_sound hf, harr⟩
  exact ⟨st, w', hdr 100 0 true, hr, hm, hfed, hw, hdev, (device_gets_written_bytes hr hm).2 _ _ hfed⟩

end IpStack
