import IpStack.Relay
import IpStack.Routing

/-!
The stack as a whole: the demultiplexer task of lib.rs and the TCP flows it creates, each a
`World` of the flow model, running interleaved. A segment the device delivers for a live flow
arrives in that flow's inbox, and nothing else reaches it; a SYN on a new tuple starts the flow of
the next inbox; every segment a flow sends goes on the shared outbox at once, since
`up_packet_sender` is a clone of the task's `pkt_sender`, whose receiving end is dropped only when
the task ends; a flow whose `poll_read` panicked is dropped with its task. A UDP stream's datagram
goes through the outbox branch as in the demultiplexer model; raw streams send nothing here (the
raw packet type is absent).

Every step of the stack is a run of the demultiplexer model, so its invariants carry over. Each
flow is at the end of a run of the flow model in which the segments that reached its inbox are the
TCP segments the task handed to that inbox, in order. What the device receives for each flow's peer
is, after the RST+ACK refusals sent to that peer before the flow existed, what the flow sent, in
the order sent.
-/

namespace IpStack

open TcpFlags

/-- The packets of `ps` addressed to the peer whose tuple is `k`, in order. -/
def toPeer (k : NetworkTuple) (ps : List NetworkPacket) : List NetworkPacket :=
  ps.filter (·.reverseNetworkTuple = k)

@[simp] theorem toPeer_append (k : NetworkTuple) (ps qs : List NetworkPacket) :
    toPeer k (ps ++ qs) = toPeer k ps ++ toPeer k qs := List.filter_append _ _

theorem toPeer_eq_nil {k : NetworkTuple} {ps : List NetworkPacket} (h : ∀ p ∈ ps, p.reverseNetworkTuple ≠ k) :
    toPeer k ps = [] :=
  List.filter_eq_nil_iff.mpr fun p hp => by simpa using h p hp

theorem toPeer_eq_self {k : NetworkTuple} {ps : List NetworkPacket} (h : ∀ p ∈ ps, p.reverseNetworkTuple = k) :
    toPeer k ps = ps :=
  List.filter_eq_self.mpr fun p hp => by simpa using h p hp

/-- A segment put in a flow's inbox, as `Step.arrive` does. -/
def World.arrive (w : World) (seg : TcpSegment) : World :=
  { w with stream := { w.stream with streamReceiver := w.stream.streamReceiver ++ [seg] } }

/-- Whether a flow takes a step with event `e` by itself inside the stack: segments arrive only from
the task, and the outbox closes only when the task has ended. -/
def Event.fromFlow (running : Bool) : Event → Bool
  | .segmentArrived _ => false
  | .outboxClosed => !running
  | _ => true

theorem Event.arrival_of_fromFlow {running : Bool} {e : Event} (h : e.fromFlow running) : e.arrival = none := by
  cases e <;> simp_all [Event.fromFlow, Event.arrival]

/-- The TCP segments the task handed to inbox `i`, in the order handed. -/
def inboxSegments (dl : List (Nat × TunPacket)) (i : Nat) : List TcpSegment :=
  dl.filterMap fun
    | (j, .tcp _ seg) => if j = i then some seg else none
    | _ => none

@[simp] theorem inboxSegments_append_tcp (dl : List (Nat × TunPacket)) (i j : Nat) (a : FlowAddrs)
    (seg : TcpSegment) : inboxSegments (dl ++ [(j, .tcp a seg)]) i = inboxSegments dl i ++ if j = i then [seg] else [] := by
  by_cases h : j = i <;> simp [inboxSegments, h]

theorem inboxSegments_append_of_ne (dl : List (Nat × TunPacket)) {i j : Nat} {p : TunPacket}
    (h : j ≠ i ∨ ∀ a seg, p ≠ .tcp a seg) : inboxSegments (dl ++ [(j, p)]) i = inboxSegments dl i := by
  rcases p with ⟨a, seg⟩ | _ | _
  · rw [inboxSegments_append_tcp, if_neg (h.resolve_right fun h' => h' a seg rfl), List.append_nil]
  all_goals simp [inboxSegments]

theorem inboxSegments_eq_nil {dl : List (Nat × TunPacket)} {i : Nat} (h : ∀ x ∈ dl, x.1 ≠ i) :
    inboxSegments dl i = [] :=
  List.filterMap_eq_nil_iff.mpr fun ⟨j, p⟩ hx => by
    rcases p with ⟨a, seg⟩ | _ | _ <;> simp [h _ hx]

theorem mem_inboxSegments {dl : List (Nat × TunPacket)} {i : Nat} {seg : TcpSegment} :
    seg ∈ inboxSegments dl i ↔ ∃ a, (i, TunPacket.tcp a seg) ∈ dl := by
  refine ⟨fun h => ?_, fun ⟨a, h⟩ => List.mem_filterMap.mpr ⟨_, h, by simp⟩⟩
  obtain ⟨⟨j, p⟩, hx, h⟩ := List.mem_filterMap.mp h
  rcases p with ⟨a, s⟩ | _ | _ <;> simp at h
  obtain ⟨rfl, rfl⟩ := h
  exact ⟨a, hx⟩

namespace IpStackTcpStream

theorem new_ok {addrs : FlowAddrs} {h : TcpHeader} {mtu : UInt16} {iss : SeqNum} {s : IpStackTcpStream}
    {pkts : List NetworkPacket} (hn : new addrs h mtu iss = (.ok s, pkts)) :
    s = listen addrs h.sequenceNumber mtu iss ∧ pkts = [] := by
  unfold new at hn
  split at hn
  · cases hn; exact ⟨rfl, rfl⟩
  · split at hn <;> simp_all [createRevPacket_eq]

theorem new_refusals (addrs : FlowAddrs) (h : TcpHeader) (mtu : UInt16) (iss : SeqNum) :
    ∀ p ∈ (new addrs h mtu iss).2, p.flags = RST ||| ACK ∧ p.reverseNetworkTuple = ⟨addrs, true⟩ := by
  unfold new
  split
  · simp
  · split
    · simp only [createRevPacket_eq, List.mem_singleton, forall_eq]
      exact ⟨revPacket_flags_of _ _ _ (by simp), by simp [listen]⟩
    · simp

end IpStackTcpStream

/-- The flow of inbox `i` is at `w` after a run from the stream `new` built from the SYN header
`syn` with `mtu` and `iss`, in which its inbox received the TCP segments `dl` hands to inbox `i`. -/
def FedBy (rbs : Nat) (mtu : UInt16) (dl : List (Nat × TunPacket)) (i : Nat) (syn : TcpHeader) (iss : SeqNum)
    (w : World) : Prop :=
  ∃ s es, IpStackTcpStream.new w.stream.addrs syn mtu iss = (.ok s, []) ∧ Run rbs (World.init s) es w ∧
    es.filterMap Event.arrival = inboxSegments dl i

namespace FedBy

variable {rbs : Nat} {mtu : UInt16} {dl dl' : List (Nat × TunPacket)} {i : Nat} {syn : TcpHeader} {iss : SeqNum}
  {w w' : World} {e : Event}

theorem run (h : FedBy rbs mtu dl i syn iss w) :
    ∃ es, Run rbs (World.init (IpStackTcpStream.listen w.stream.addrs syn.sequenceNumber mtu iss)) es w ∧
      es.filterMap Event.arrival = inboxSegments dl i :=
  let ⟨_, es, hn, hr, hf⟩ := h
  (IpStackTcpStream.new_ok hn).1 ▸ ⟨es, hr, hf⟩

theorem reachable (h : FedBy rbs mtu dl i syn iss w) : Reachable rbs w :=
  let ⟨es, hr, _⟩ := h.run; ⟨_, es, ⟨_, _, _, _, rfl⟩, hr⟩

theorem congr (h : FedBy rbs mtu dl i syn iss w) (he : inboxSegments dl' i = inboxSegments dl i) :
    FedBy rbs mtu dl' i syn iss w :=
  let ⟨s, es, hn, hr, hf⟩ := h
  ⟨s, es, hn, hr, hf.trans he.symm⟩

theorem start (hf : ∀ x ∈ dl, x.1 ≠ i) {addrs : FlowAddrs} {s : IpStackTcpStream} {pkts : List NetworkPacket}
    (hn : IpStackTcpStream.new addrs syn mtu iss = (.ok s, pkts)) : FedBy rbs mtu dl i syn iss (World.init s) := by
  obtain ⟨rfl, rfl⟩ := IpStackTcpStream.new_ok hn
  exact ⟨_, [], hn, .refl _, (inboxSegments_eq_nil hf).symm⟩

theorem step (h : FedBy rbs mtu dl i syn iss w) (hs : Step rbs w e w') (he : e.arrival = none) :
    FedBy rbs mtu dl i syn iss w' :=
  let ⟨s, es, hn, hr, hf⟩ := h
  ⟨s, es ++ [e], (hs.appends h.reachable).1 ▸ hn, hr.tail hs, by simp [List.filterMap_append, hf, he]⟩

theorem arrive (h : FedBy rbs mtu dl i syn iss w) (hm : w.mode ≠ .crashed) (a : FlowAddrs) (seg : TcpSegment) :
    FedBy rbs mtu (dl ++ [(i, .tcp a seg)]) i syn iss (w.arrive seg) :=
  let ⟨s, es, hn, hr, hf⟩ := h
  ⟨s, es ++ [.segmentArrived seg], hn, hr.tail (.arrive seg hm), by simp [List.filterMap_append, hf, Event.arrival]⟩

end FedBy


/-- The demultiplexer task and the world of each TCP flow it created, by inbox. -/
structure Stack where
  demux : Demux
  flows : List (Nat × World)
deriving DecidableEq, Repr

namespace Stack

def init : Stack := ⟨Demux.init, []⟩

/-- `fs` with the flow of inbox `i` set to `w`. -/
def setFlow (fs : List (Nat × World)) (i : Nat) (w : World) : List (Nat × World) :=
  fs.map fun f => if f.1 = i then (i, w) else f

/-- The flows after the task sent `seg` to inbox `i`: a live flow finds it in its inbox. -/
def arriveAt (st : Stack) (i : Nat) (seg : TcpSegment) : List (Nat × World) :=
  match st.flows.lookup i with
  | some w => if i ∈ st.demux.live then setFlow st.flows i (w.arrive seg) else st.flows
  | none => st.flows

/-- The device branch of the loop and what it does to the flows: a TCP segment for a known tuple
goes to its inbox, and a SYN on a new tuple starts the flow of the next inbox. -/
def onRead (st : Stack) (mtu : UInt16) (iss : SeqNum) : Option TunPacket → Stack
  | some (.tcp addrs seg) =>
    match st.demux.streams.lookup ⟨addrs, true⟩ with
    | some i => ⟨st.demux.sendInbox i (.tcp addrs seg), st.arriveAt i seg⟩
    | none =>
      match IpStackTcpStream.new addrs seg.header mtu iss with
      | (.ok s, pkts) =>
        ⟨({ st.demux with outbox := st.demux.outbox ++ pkts }.register ⟨addrs, true⟩).emitAccept
            (.tcp st.demux.next addrs),
          (st.demux.next, World.init s) :: st.flows⟩
      | (.error _, pkts) => ⟨{ st.demux with outbox := st.demux.outbox ++ pkts }, st.flows⟩
  | p => ⟨st.demux.onRead mtu iss p, st.flows⟩

/-- The stack after the flow of inbox `i` stepped from `w` to `w'`: what it sent meanwhile is on
the outbox, and a flow whose `poll_read` panicked is dropped with its task. -/
def afterFlow (st : Stack) (i : Nat) (w w' : World) : Stack :=
  ⟨{ st.demux with
      outbox := st.demux.outbox ++
        (w'.stream.upPacketSender.sent.drop w.stream.upPacketSender.sent.length).map (·.packet),
      live := if w'.mode = .crashed then st.demux.live.erase i else st.demux.live },
    setFlow st.flows i w'⟩

theorem onRead_demux (st : Stack) (mtu : UInt16) (iss : SeqNum) (p : Option TunPacket) :
    (st.onRead mtu iss p).demux = st.demux.onRead mtu iss p := by
  rcases p with _ | ⟨addrs, seg⟩ | _ | _ <;> simp only [onRead, Demux.onRead]
  generalize st.demux.streams.lookup ⟨addrs, true⟩ = o
  generalize IpStackTcpStream.new addrs seg.header mtu iss = n
  rcases o with _ | i
  · rcases n with ⟨_ | _, pkts⟩ <;> rfl
  · rfl

theorem map_fst_setFlow (fs : List (Nat × World)) (i : Nat) (w : World) :
    (setFlow fs i w).map Prod.fst = fs.map Prod.fst := by
  simp only [setFlow, List.map_map]
  exact List.map_congr_left fun f _ => by by_cases h : f.1 = i <;> simp [h]

theorem mem_setFlow {fs : List (Nat × World)} {i : Nat} {w : World} {f : Nat × World} (h : f ∈ setFlow fs i w) :
    f = (i, w) ∨ (f ∈ fs ∧ f.1 ≠ i) := by
  obtain ⟨g, hg, rfl⟩ := List.mem_map.mp h
  by_cases hi : g.1 = i
  · exact .inl (if_pos hi)
  · rw [if_neg hi]; exact .inr ⟨hg, hi⟩

theorem forall_setFlow {P : Nat × World → Prop} {fs : List (Nat × World)} {i : Nat} {w : World} (h₁ : P (i, w))
    (h₂ : ∀ f ∈ fs, f.1 ≠ i → P f) : ∀ f ∈ setFlow fs i w, P f := fun f hf =>
  (mem_setFlow hf).elim (fun h => h ▸ h₁) fun ⟨h, hne⟩ => h₂ f h hne

end Stack

/-- One step of the stack: the task reads the device or takes a packet off the outbox, a live flow
takes a step of the flow model, or the consumer drops a stream or the `IpStack`. -/
inductive StackStep (rbs : Nat) (mtu : UInt16) : Stack → Stack → Prop
  | read {st : Stack} (p : Option TunPacket) (iss : SeqNum) (h : st.demux.running) :
      StackStep rbs mtu st (st.onRead mtu iss p)
  | recv {st : Stack} {p : NetworkPacket} {rest : List NetworkPacket} (writeOk : Bool) (h : st.demux.running)
      (hq : st.demux.outbox = p :: rest) :
      StackStep rbs mtu st ⟨{ st.demux with outbox := rest }.onRecv p writeOk, st.flows⟩
  | udpRecv {st : Stack} {i : Nat} {a : FlowAddrs} (ttlZero writeOk : Bool) (h : st.demux.running)
      (hu : IpStackStream.udp i a ∈ st.demux.accepted) :
      StackStep rbs mtu st ⟨st.demux.onRecvUdp a ttlZero writeOk, st.flows⟩
  | flow {st : Stack} {i : Nat} {w w' : World} {e : Event} (hf : st.flows.lookup i = some w)
      (hl : i ∈ st.demux.live) (h : Step rbs w e w') (he : e.fromFlow st.demux.running) :
      StackStep rbs mtu st (st.afterFlow i w w')
  | dropStream {st : Stack} (i : Nat) :
      StackStep rbs mtu st ⟨{ st.demux with live := st.demux.live.erase i }, st.flows⟩
  | dropIpStack {st : Stack} : StackStep rbs mtu st ⟨{ st.demux with acceptOpen := false }, st.flows⟩

inductive StackRun (rbs : Nat) (mtu : UInt16) : Stack → Stack → Prop
  | refl (st : Stack) : StackRun rbs mtu st st
  | tail {st st' st'' : Stack} : StackRun rbs mtu st st' → StackStep rbs mtu st' st'' → StackRun rbs mtu st st''

/-- What the device, the consumer or a flow does next. -/
inductive StackInput
  | read (p : Option TunPacket) (iss : SeqNum)
  | recv (writeOk : Bool)
  | udpRecv (i : Nat) (a : FlowAddrs) (ttlZero writeOk : Bool)
  | flow (i : Nat) (input : Input)
  | dropStream (i : Nat)
  | dropIpStack
deriving DecidableEq, Repr

namespace Stack

/-- The step an input causes, computed; `none` when it is not possible. -/
def exec (rbs : Nat) (mtu : UInt16) (st : Stack) : StackInput → Option Stack
  | .read p iss => if st.demux.running then some (st.onRead mtu iss p) else none
  | .recv ok =>
    match st.demux.running, st.demux.outbox with
    | true, p :: rest => some ⟨{ st.demux with outbox := rest }.onRecv p ok, st.flows⟩
    | _, _ => none
  | .udpRecv i a z ok =>
    if st.demux.running ∧ IpStackStream.udp i a ∈ st.demux.accepted then
      some ⟨st.demux.onRecvUdp a z ok, st.flows⟩ else none
  | .flow i input =>
    match st.flows.lookup i with
    | some w => if i ∈ st.demux.live then
        (w.exec rbs input).bind fun r => if r.1.fromFlow st.demux.running then some (st.afterFlow i w r.2) else none
      else none
    | none => none
  | .dropStream i => some ⟨{ st.demux with live := st.demux.live.erase i }, st.flows⟩
  | .dropIpStack => some ⟨{ st.demux with acceptOpen := false }, st.flows⟩

def execAll (rbs : Nat) (mtu : UInt16) : Stack → List StackInput → Option Stack
  | st, [] => some st
  | st, i :: is => (st.exec rbs mtu i).bind fun st' => execAll rbs mtu st' is

theorem exec_sound {rbs : Nat} {mtu : UInt16} {st st' : Stack} {i : StackInput} (h : st.exec rbs mtu i = some st') :
    StackStep rbs mtu st st' := by
  cases i with
  | read p iss => simp only [exec] at h; split at h <;> cases h; exact .read p iss ‹_›
  | recv ok => simp only [exec] at h; split at h <;> cases h; exact .recv ok ‹_› ‹_›
  | udpRecv i a z ok =>
    simp only [exec] at h; split at h <;> cases h; rename_i hc; exact .udpRecv z ok hc.1 hc.2
  | flow i input =>
    simp only [exec] at h
    split at h
    · split at h
      · obtain ⟨⟨e, w'⟩, he, h⟩ := Option.bind_eq_some.mp h
        split at h <;> cases h
        exact .flow ‹_› ‹_› (World.exec_sound he) ‹_›
      · cases h
    · cases h
  | dropStream i => cases h; exact .dropStream i
  | dropIpStack => cases h; exact .dropIpStack

theorem run_cons {rbs : Nat} {mtu : UInt16} {st st' st'' : Stack} (h : StackStep rbs mtu st st')
    (hr : StackRun rbs mtu st' st'') : StackRun rbs mtu st st'' := by
  induction hr with
  | refl => exact .tail (.refl _) h
  | tail _ hs ih => exact ih.tail hs

theorem execAll_sound {rbs : Nat} {mtu : UInt16} {st st' : Stack} {is : List StackInput}
    (h : st.execAll rbs mtu is = some st') : StackRun rbs mtu st st' := by
  induction is generalizing st with
  | nil => cases h; exact .refl _
  | cons i is ih =>
    obtain ⟨st₁, h₁, h₂⟩ := Option.bind_eq_some.mp h
    exact run_cons (exec_sound h₁) (ih h₂)

end Stack

section Refinement

variable {mtu : UInt16} {d d' d'' : Demux}

theorem DemuxRun.single (h : DemuxStep mtu d d') : DemuxRun mtu d d' := .tail (.refl d) h

theorem DemuxRun.trans (h₁ : DemuxRun mtu d d') (h₂ : DemuxRun mtu d' d'') : DemuxRun mtu d d'' := by
  induction h₂ with
  | refl => exact h₁
  | tail _ hs ih => exact ih.tail hs

theorem DemuxRun.sends {i : Nat} (hi : i ∈ d.live) (hk : ∃ a, (⟨a, true⟩, i) ∈ d.streams) (ps : List NetworkPacket)
    (ht : ∀ p ∈ ps, p.ip.ttl = TTL) :
    DemuxRun mtu d { d with outbox := d.outbox ++ ps } := by
  induction ps using List.reverseRecOn with
  | nil => rw [List.append_nil]; exact .refl d
  | append_singleton ps p ih =>
    rw [← List.append_assoc]
    exact (ih fun q hq => ht q (List.mem_append_left _ hq)).tail
      (DemuxStep.streamSends (d := { d with outbox := d.outbox ++ ps }) p hi hk (ht p (by simp)))

end Refinement

/-- What the device has received for the peer of flow `w` is a prefix of some refusals `pre` and the
flow's segments, and while the task runs it and the outbox hold exactly those. -/
def Relayed (d : Demux) (w : World) : Prop :=
  ∃ pre, (∀ p ∈ pre, p.flags = RST ||| ACK) ∧
    toPeer ⟨w.stream.addrs, true⟩ d.written <+: pre ++ w.stream.upPacketSender.sent.map (·.packet) ∧
    (d.running → toPeer ⟨w.stream.addrs, true⟩ (d.written ++ d.outbox) = pre ++ w.stream.upPacketSender.sent.map (·.packet))

namespace Relayed

variable {d d' : Demux} {w : World}

theorem congr (h : Relayed d w) (h₁ : d'.written = d.written) (h₂ : d'.outbox = d.outbox)
    (h₃ : d'.running → d.running) : Relayed d' w := by
  obtain ⟨pre, hf, hp, he⟩ := h
  exact ⟨pre, hf, h₁ ▸ hp, fun hr => h₁ ▸ h₂ ▸ he (h₃ hr)⟩

theorem other (h : Relayed d w) {ps : List NetworkPacket}
    (hp : ∀ p ∈ ps, p.reverseNetworkTuple ≠ ⟨w.stream.addrs, true⟩) : Relayed { d with outbox := d.outbox ++ ps } w := by
  obtain ⟨pre, hf, hx, he⟩ := h
  exact ⟨pre, hf, hx, fun hr => by rw [← List.append_assoc, toPeer_append, toPeer_eq_nil hp, List.append_nil]; exact he hr⟩

theorem sends (h : Relayed d w) {w' : World} (ha : w'.stream.addrs = w.stream.addrs) {N : List Sent}
    (hN : w'.stream.upPacketSender.sent = w.stream.upPacketSender.sent ++ N)
    (hk : ∀ x ∈ N, x.packet.reverseNetworkTuple = ⟨w.stream.addrs, true⟩) :
    Relayed { d with outbox := d.outbox ++ N.map (·.packet) } w' := by
  obtain ⟨pre, hf, hx, he⟩ := h
  have hs : toPeer ⟨w.stream.addrs, true⟩ (N.map (·.packet)) = N.map (·.packet) :=
    toPeer_eq_self fun p hp => by obtain ⟨x, hx, rfl⟩ := List.mem_map.mp hp; exact hk x hx
  refine ⟨pre, hf, ?_, fun hr => ?_⟩
  · rw [ha, hN, List.map_append, ← List.append_assoc]; exact hx.trans (List.prefix_append _ _)
  · rw [ha, hN, List.map_append, ← List.append_assoc pre, ← he hr]
    simp only [toPeer_append, hs, List.append_assoc]

theorem write (h : Relayed d w) {p : NetworkPacket} {rest : List NetworkPacket} (hq : d.outbox = p :: rest)
    (hr : d.running) : Relayed { d with outbox := rest, written := d.written ++ [p] } w := by
  obtain ⟨pre, hf, -, he⟩ := h
  have he := he hr
  rw [hq] at he
  refine ⟨pre, hf, ?_, fun _ => ?_⟩
  · rw [← he, show d.written ++ p :: rest = d.written ++ [p] ++ rest by simp, toPeer_append _ (d.written ++ [p]) rest]
    exact List.prefix_append _ _
  · simpa using he

theorem stop (h : Relayed d w) (rest : List NetworkPacket) : Relayed { d with outbox := rest, running := false } w := by
  obtain ⟨pre, hf, hx, -⟩ := h
  exact ⟨pre, hf, hx, fun h => Bool.false_ne_true h |>.elim⟩

end Relayed

/-- What every run of the stack from the start keeps. -/
structure StackInv (rbs : Nat) (mtu : UInt16) (st : Stack) : Prop where
  inboxes : (st.flows.map Prod.fst).Nodup
  fresh : ∀ f ∈ st.flows, f.1 < st.demux.next
  liveNodup : st.demux.live.Nodup
  liveFresh : ∀ i ∈ st.demux.live, i < st.demux.next
  deliveredFresh : ∀ x ∈ st.demux.delivered, x.1 < st.demux.next
  fed : ∀ f ∈ st.flows, ∃ syn iss, FedBy rbs mtu st.demux.delivered f.1 syn iss f.2
  alive : ∀ f ∈ st.flows, f.1 ∈ st.demux.live → f.2.mode ≠ .crashed
  filed : ∀ f ∈ st.flows, st.demux.streams.lookup ⟨f.2.stream.addrs, true⟩ = some f.1
  refused : ∀ p ∈ st.demux.written ++ st.demux.outbox,
    st.demux.streams.lookup p.reverseNetworkTuple = none → p.flags = RST ||| ACK
  relayed : ∀ f ∈ st.flows, Relayed st.demux f.2

namespace StackInv

variable {rbs : Nat} {mtu : UInt16} {st : Stack}

theorem init : StackInv rbs mtu Stack.init := by
  constructor <;> simp [Stack.init, Demux.init]

theorem reach (hi : StackInv rbs mtu st) : ∀ f ∈ st.flows, Reachable rbs f.2 := fun f hf =>
  let ⟨_, _, h⟩ := hi.fed f hf; h.reachable

theorem congr (hi : StackInv rbs mtu st) {d : Demux} (h₁ : d.streams = st.demux.streams) (h₂ : d.live = st.demux.live)
    (h₃ : d.next = st.demux.next) (h₄ : d.written = st.demux.written) (h₅ : d.outbox = st.demux.outbox)
    (h₆ : d.running → st.demux.running) (h₇ : d.delivered = st.demux.delivered) : StackInv rbs mtu ⟨d, st.flows⟩ where
  inboxes := hi.inboxes
  fresh f hf := h₃ ▸ hi.fresh f hf
  liveNodup := h₂ ▸ hi.liveNodup
  liveFresh i h := h₃ ▸ hi.liveFresh i (h₂ ▸ h)
  deliveredFresh x h := h₃ ▸ hi.deliveredFresh x (h₇ ▸ h)
  fed f hf := h₇ ▸ hi.fed f hf
  alive f hf h := hi.alive f hf (h₂ ▸ h)
  filed f hf := h₁ ▸ hi.filed f hf
  refused p hp h := hi.refused p (h₄ ▸ h₅ ▸ hp) (h₁ ▸ h)
  relayed f hf := (hi.relayed f hf).congr h₄ h₅ h₆

theorem emitAccept (hi : StackInv rbs mtu st) (a : IpStackStream) : StackInv rbs mtu ⟨st.demux.emitAccept a, st.flows⟩ := by
  unfold Demux.emitAccept; split
  · exact hi.congr rfl rfl rfl rfl rfl id rfl
  · exact hi.congr rfl rfl rfl rfl rfl (fun h => by simp at h) rfl

theorem deliveredFresh_append (hi : StackInv rbs mtu st) {i : Nat} (hl : i ∈ st.demux.live) (p : TunPacket) :
    ∀ x ∈ st.demux.delivered ++ [(i, p)], x.1 < st.demux.next := fun x hx =>
  (List.mem_append.mp hx).elim (hi.deliveredFresh x) fun h => by
    rw [List.mem_singleton.mp h]; exact hi.liveFresh i hl

theorem sendInbox (hi : StackInv rbs mtu st) {i : Nat} {p : TunPacket}
    (hp : ∀ f ∈ st.flows, i ≠ f.1 ∨ ∀ a seg, p ≠ .tcp a seg) : StackInv rbs mtu ⟨st.demux.sendInbox i p, st.flows⟩ := by
  unfold Demux.sendInbox; split
  · exact { hi with
      deliveredFresh := hi.deliveredFresh_append ‹_› p
      fed := fun f hf => let ⟨syn, iss, h⟩ := hi.fed f hf; ⟨syn, iss, h.congr (inboxSegments_append_of_ne _ (hp f hf))⟩ }
  · exact hi

theorem lookup_of_register {d : Demux} {k x : NetworkTuple} (h : (d.register k).streams.lookup x = none) :
    d.streams.lookup x = none := by
  simp only [Demux.register, List.lookup_cons] at h
  split at h
  · cases h
  · exact h

theorem register (hi : StackInv rbs mtu st) {k : NetworkTuple} (hk : st.demux.streams.lookup k = none) :
    StackInv rbs mtu ⟨st.demux.register k, st.flows⟩ where
  inboxes := hi.inboxes
  fresh f hf := Nat.lt_succ_of_lt (hi.fresh f hf)
  liveNodup := List.nodup_cons.mpr ⟨fun h => Nat.lt_irrefl _ (hi.liveFresh _ h), hi.liveNodup⟩
  liveFresh i h := by
    rcases List.mem_cons.mp h with rfl | h
    · exact Nat.lt_succ_self _
    · exact Nat.lt_succ_of_lt (hi.liveFresh i h)
  deliveredFresh x h := Nat.lt_succ_of_lt (hi.deliveredFresh x h)
  fed := hi.fed
  alive f hf h := by
    rcases List.mem_cons.mp h with h | h
    · exact absurd h (hi.fresh f hf).ne
    · exact hi.alive f hf h
  filed f hf := RouteInv.lookup_register hk (hi.filed f hf)
  refused p hp h := hi.refused p hp (lookup_of_register h)
  relayed f hf := (hi.relayed f hf).congr rfl rfl id

theorem refuse (hi : StackInv rbs mtu st) {addrs : FlowAddrs} (hk : st.demux.streams.lookup ⟨addrs, true⟩ = none)
    {pkts : List NetworkPacket} (hp : ∀ p ∈ pkts, p.flags = RST ||| ACK ∧ p.reverseNetworkTuple = ⟨addrs, true⟩) :
    StackInv rbs mtu ⟨{ st.demux with outbox := st.demux.outbox ++ pkts }, st.flows⟩ :=
  { hi with
    refused := fun p h hn => by
      rcases List.mem_append.mp (List.append_assoc _ _ _ ▸ h) with h | h
      · exact hi.refused p h hn
      · exact (hp p h).1
    relayed := fun f hf => (hi.relayed f hf).other fun p h he => by
      have := hi.filed f hf
      rw [← he, (hp p h).2, hk] at this
      cases this }

theorem start (hi : StackInv rbs mtu st) {addrs : FlowAddrs} (hk : st.demux.streams.lookup ⟨addrs, true⟩ = none)
    {syn : TcpHeader} {iss : SeqNum} {s : IpStackTcpStream} {pkts : List NetworkPacket}
    (hn : IpStackTcpStream.new addrs syn mtu iss = (.ok s, pkts)) :
    StackInv rbs mtu ⟨st.demux.register ⟨addrs, true⟩, (st.demux.next, World.init s) :: st.flows⟩ := by
  obtain ⟨rfl, rfl⟩ := IpStackTcpStream.new_ok hn
  have hg := hi.register hk
  refine { hg with
    inboxes := List.nodup_cons.mpr ⟨fun h => by
      obtain ⟨f, hf, he⟩ := List.mem_map.mp h; exact (hi.fresh f hf).ne he, hi.inboxes⟩
    fresh := List.forall_mem_cons.mpr ⟨Nat.lt_succ_self _, hg.fresh⟩
    fed := List.forall_mem_cons.mpr ⟨⟨syn, iss, .start (fun x hx => (hi.deliveredFresh x hx).ne) hn⟩, hg.fed⟩
    alive := List.forall_mem_cons.mpr ⟨fun _ => by simp [World.init], hg.alive⟩
    filed := List.forall_mem_cons.mpr ⟨by simp [Demux.register, List.lookup_cons, World.init, IpStackTcpStream.listen],
      hg.filed⟩
    relayed := List.forall_mem_cons.mpr ⟨⟨toPeer ⟨addrs, true⟩ (st.demux.written ++ st.demux.outbox),
      fun p hp => ?_, ?_, fun _ => ?_⟩, hg.relayed⟩ }
  · obtain ⟨hp, he⟩ := List.mem_filter.mp hp
    exact hi.refused p hp (by rw [of_decide_eq_true he]; exact hk)
  · simp only [World.init, IpStackTcpStream.listen, List.map_nil, List.append_nil, toPeer_append]
    exact List.prefix_append _ _
  · simp [World.init, IpStackTcpStream.listen, Demux.register]

theorem arrive (hi : StackInv rbs mtu st) {i : Nat} {w : World} (hw : st.flows.lookup i = some w) (hl : i ∈ st.demux.live)
    (addrs : FlowAddrs) (seg : TcpSegment) :
    StackInv rbs mtu ⟨st.demux.sendInbox i (.tcp addrs seg), Stack.setFlow st.flows i (w.arrive seg)⟩ := by
  have hm := mem_of_lookup hw
  simp only [Demux.sendInbox, if_pos hl]
  exact { hi with
    inboxes := (Stack.map_fst_setFlow _ _ _).symm ▸ hi.inboxes
    fresh := Stack.forall_setFlow (hi.fresh (i, w) hm) fun f hf _ => hi.fresh f hf
    deliveredFresh := hi.deliveredFresh_append hl _
    fed := Stack.forall_setFlow
      (let ⟨syn, iss, h⟩ := hi.fed _ hm; ⟨syn, iss, h.arrive (hi.alive _ hm hl) addrs seg⟩) fun f hf hne =>
        let ⟨syn, iss, h⟩ := hi.fed f hf; ⟨syn, iss, h.congr (inboxSegments_append_of_ne _ (.inl (Ne.symm hne)))⟩
    alive := Stack.forall_setFlow (hi.alive (i, w) hm) fun f hf _ => hi.alive f hf
    filed := Stack.forall_setFlow (hi.filed (i, w) hm) fun f hf _ => hi.filed f hf
    relayed := Stack.forall_setFlow (hi.relayed (i, w) hm) fun f hf _ => hi.relayed f hf }

theorem deliver (hi : StackInv rbs mtu st) (i : Nat) {addrs : FlowAddrs} (seg : TcpSegment) :
    StackInv rbs mtu ⟨st.demux.sendInbox i (.tcp addrs seg), st.arriveAt i seg⟩ := by
  unfold Stack.arriveAt
  split
  · split
    · exact hi.arrive ‹_› ‹_› addrs seg
    · simp only [Demux.sendInbox, if_neg ‹_›]; exact hi
  · rename_i hn
    exact hi.sendInbox fun f hf => .inl fun he => by
      have := List.lookup_eq_none_iff.mp hn f hf
      simp [he] at this

theorem onRead (hi : StackInv rbs mtu st) (iss : SeqNum) (p : Option TunPacket) :
    StackInv rbs mtu (st.onRead mtu iss p) := by
  rcases p with _ | ⟨addrs, seg⟩ | ⟨addrs, pl⟩ | b
  · exact hi
  · simp only [Stack.onRead]
    split
    · exact hi.deliver _ seg
    rename_i hk
    split
    · rename_i s pkts hn
      obtain ⟨-, rfl⟩ := IpStackTcpStream.new_ok hn
      simp only [List.append_nil]
      exact (hi.start hk hn).emitAccept _
    · rename_i pkts hn
      have := IpStackTcpStream.new_refusals addrs seg.header mtu iss
      rw [hn] at this
      exact hi.refuse hk this
  · simp only [Stack.onRead, Demux.onRead]
    split
    · exact hi.sendInbox fun _ _ => .inr fun _ _ h => by cases h
    · exact (hi.register ‹_›).emitAccept _
  · exact hi.emitAccept _

theorem recv (hi : StackInv rbs mtu st) (hd : DemuxInv st.demux) (hr : st.demux.running) {p : NetworkPacket}
    {rest : List NetworkPacket} (hq : st.demux.outbox = p :: rest) (ok : Bool) :
    StackInv rbs mtu ⟨{ st.demux with outbox := rest }.onRecv p ok, st.flows⟩ := by
  have ht := hd.ttl p (by simp [hq])
  have hmem : ∀ x ∈ st.demux.written ++ rest ++ [p], x ∈ st.demux.written ++ st.demux.outbox := fun x hx => by
    rw [hq]; simp only [List.mem_append, List.mem_cons, List.mem_singleton] at hx ⊢; tauto
  unfold Demux.onRecv
  rw [if_neg (by rw [ht]; decide)]
  split
  · exact { hi with
      refused := fun x hx => hi.refused x (hmem x (by simp only [List.mem_append] at hx ⊢; tauto))
      relayed := fun f hf => (hi.relayed f hf).write hq hr }
  · exact { hi with
      refused := fun x hx => hi.refused x (hmem x (List.mem_append_left _ hx))
      relayed := fun f hf => (hi.relayed f hf).stop rest }

theorem flow (hi : StackInv rbs mtu st) {i : Nat} {w w' : World} {e : Event} (hf : st.flows.lookup i = some w)
    (hs : Step rbs w e w') (he : e.arrival = none) : StackInv rbs mtu (st.afterFlow i w w') := by
  have hm := mem_of_lookup hf
  obtain ⟨ha, N, hN, hk⟩ := hs.appends (hi.reach _ hm)
  have hdrop : w'.stream.upPacketSender.sent.drop w.stream.upPacketSender.sent.length = N := by
    rw [hN, List.drop_left]
  have hown : ∀ f ∈ st.flows, f.1 ≠ i → ∀ p ∈ N.map (·.packet), p.reverseNetworkTuple ≠ ⟨f.2.stream.addrs, true⟩ :=
    fun f hf hne p hp he => by
      obtain ⟨x, hx, rfl⟩ := List.mem_map.mp hp
      have := hi.filed f hf
      rw [← he, hk x hx, hi.filed _ hm] at this
      exact hne (Option.some.inj this).symm
  have hlive : ∀ j, j ∈ (if w'.mode = .crashed then st.demux.live.erase i else st.demux.live) → j ∈ st.demux.live := by
    intro j hj; split at hj
    · exact List.mem_of_mem_erase hj
    · exact hj
  unfold Stack.afterFlow
  rw [hdrop]
  refine ⟨(Stack.map_fst_setFlow _ _ _).symm ▸ hi.inboxes,
    Stack.forall_setFlow (hi.fresh (i, w) hm) fun f hf _ => hi.fresh f hf, ?_, fun j hj => hi.liveFresh j (hlive j hj),
    hi.deliveredFresh,
    Stack.forall_setFlow (let ⟨syn, iss, h⟩ := hi.fed _ hm; ⟨syn, iss, h.step hs he⟩) fun f hf _ => hi.fed f hf, ?_,
    Stack.forall_setFlow (ha ▸ hi.filed (i, w) hm) fun f hf _ => hi.filed f hf, ?_,
    Stack.forall_setFlow (((hi.relayed (i, w) hm).sends ha hN hk).congr rfl rfl id)
      fun f hf hne => ((hi.relayed f hf).other (hown f hf hne)).congr rfl rfl id⟩
  · split
    · exact hi.liveNodup.erase i
    · exact hi.liveNodup
  · refine Stack.forall_setFlow (fun h => ?_) fun f hf _ h => hi.alive f hf (hlive _ h)
    split at h
    · exact absurd rfl ((hi.liveNodup.mem_erase_iff).mp h).1
    · assumption
  · intro p hp hn
    rcases List.mem_append.mp (List.append_assoc _ _ _ ▸ hp) with hp | hp
    · exact hi.refused p hp hn
    · obtain ⟨x, hx, rfl⟩ := List.mem_map.mp hp
      rw [hk x hx, hi.filed _ hm] at hn
      cases hn

theorem onRecvUdp (hi : StackInv rbs mtu st) (a : FlowAddrs) (ttlZero ok : Bool) :
    StackInv rbs mtu ⟨st.demux.onRecvUdp a ttlZero ok, st.flows⟩ := by
  unfold Demux.onRecvUdp; split_ifs
  · have hl : ∀ k : NetworkTuple, k.tcp = true →
        (st.demux.remove ⟨a, false⟩).streams.lookup k = st.demux.streams.lookup k :=
      fun k hk => lookup_filter_ne (by rintro rfl; cases hk)
    exact { hi with
      filed := fun f hf => (hl _ rfl).trans (hi.filed f hf)
      refused := fun p hp h => hi.refused p hp ((hl _ p.reverseNetworkTuple_tcp).symm.trans h)
      relayed := fun f hf => (hi.relayed f hf).congr rfl rfl id }
  · exact hi
  · exact hi.congr rfl rfl rfl rfl rfl (fun h => by simp at h) rfl

theorem dropStream (hi : StackInv rbs mtu st) (i : Nat) :
    StackInv rbs mtu ⟨{ st.demux with live := st.demux.live.erase i }, st.flows⟩ :=
  { hi with
    liveNodup := hi.liveNodup.erase i
    liveFresh := fun j h => hi.liveFresh j (List.mem_of_mem_erase h)
    alive := fun f hf h => hi.alive f hf (List.mem_of_mem_erase h)
    relayed := fun f hf => (hi.relayed f hf).congr rfl rfl id }

end StackInv

section Runs

variable {rbs : Nat} {mtu : UInt16} {st st' : Stack}

/-- Each step of the stack is a run of the demultiplexer model. -/
theorem StackStep.demux (hi : StackInv rbs mtu st) (h : StackStep rbs mtu st st') :
    DemuxRun mtu st.demux st'.demux := by
  cases h with
  | read p iss h => rw [Stack.onRead_demux]; exact .single (.read p iss h)
  | recv ok h hq => exact .single (.recv ok h hq)
  | udpRecv z ok h hu => exact .single (.udpRecv z ok h hu)
  | @flow i w w' e hf hl hs _ =>
    have hm := mem_of_lookup hf
    have hw' : Reachable rbs w' := (hi.reach _ hm).step hs
    let N := (w'.stream.upPacketSender.sent.drop w.stream.upPacketSender.sent.length).map (·.packet)
    have hsends : DemuxRun mtu st.demux { st.demux with outbox := st.demux.outbox ++ N } :=
      DemuxRun.sends hl ⟨_, mem_of_lookup (hi.filed _ hm)⟩ N fun p hp => by
        obtain ⟨x, hx, rfl⟩ := List.mem_map.mp hp
        exact hw'.sent_ttl x (List.mem_of_mem_drop hx)
    unfold Stack.afterFlow; split
    · exact hsends.tail (.dropStream i)
    · exact hsends
  | dropStream i => exact .single (.dropStream i)
  | dropIpStack => exact .single .dropIpStack

theorem StackStep.inv (hd : DemuxInv st.demux) (hi : StackInv rbs mtu st) (h : StackStep rbs mtu st st') :
    StackInv rbs mtu st' := by
  cases h with
  | read p iss _ => exact hi.onRead iss p
  | recv ok h hq => exact hi.recv hd h hq ok
  | udpRecv z ok _ _ => exact hi.onRecvUdp _ z ok
  | flow hf _ hs he => exact hi.flow hf hs (Event.arrival_of_fromFlow he)
  | dropStream i => exact hi.dropStream i
  | dropIpStack => exact hi.congr rfl rfl rfl rfl rfl id rfl

/-- Every run of the stack is a run of the demultiplexer model, and keeps the invariant. -/
theorem StackRun.inv (h : StackRun rbs mtu Stack.init st) : DemuxRun mtu Demux.init st.demux ∧ StackInv rbs mtu st := by
  induction h with
  | refl => exact ⟨.refl _, .init⟩
  | tail _ hs ih => exact ⟨ih.1.trans (hs.demux ih.2), hs.inv (ih.1.inv .init) ih.2⟩

end Runs

/-- The stack carries each TCP flow's segments to the device in the order sent, none lost,
duplicated or invented: after the refusals `pre` sent to its peer before the flow existed. -/
theorem flow_segments_reach_device {rbs : Nat} {mtu : UInt16} {st : Stack} (h : StackRun rbs mtu Stack.init st)
    {i : Nat} {w : World} (hw : (i, w) ∈ st.flows) :
    st.demux.streams.lookup ⟨w.stream.addrs, true⟩ = some i ∧
    (∀ x ∈ w.stream.upPacketSender.sent, x.packet.reverseNetworkTuple = ⟨w.stream.addrs, true⟩) ∧
    ∃ pre, (∀ p ∈ pre, p.flags = RST ||| ACK) ∧
      toPeer ⟨w.stream.addrs, true⟩ st.demux.written <+: pre ++ w.stream.upPacketSender.sent.map (·.packet) ∧
      (st.demux.running → toPeer ⟨w.stream.addrs, true⟩ (st.demux.written ++ st.demux.outbox) =
        pre ++ w.stream.upPacketSender.sent.map (·.packet)) :=
  have hi := h.inv.2
  ⟨hi.filed _ hw, (hi.reach _ hw).relays.sent, hi.relayed _ hw⟩

/-- A SYN starts the flow of inbox 0, whose SYN+ACK the task writes to the device. -/
theorem flow_segments_reach_device_handshake : ∃ st w, StackRun 64 1500 Stack.init st ∧ (0, w) ∈ st.flows ∧
    st.demux.written.map NetworkPacket.flags = [SYN ||| ACK] ∧
    st.demux.streams.lookup ⟨w.stream.addrs, true⟩ = some 0 := by
  let syn : TcpSegment :=
    ⟨{ sourcePort := 1234, destinationPort := 80, sequenceNumber := 100,
       acknowledgmentNumber := 0, windowSize := 1000, syn := true }, []⟩
  let ins : List StackInput := [.read (some (.tcp (.v4 ⟨0x0a000001, 1234⟩ ⟨0x0a000002, 80⟩) syn)) 0,
    .flow 0 (.read 100), .flow 0 (.pass false), .flow 0 (.pass false), .recv true]
  have h : (Stack.init.execAll 64 1500 ins).map (fun st =>
      decide (st.demux.written.map NetworkPacket.flags = [SYN ||| ACK]) && (st.flows.lookup 0).isSome) =
      some true := by decide
  obtain ⟨st, hx, hf⟩ := Option.map_eq_some'.mp h
  simp only [Bool.and_eq_true, decide_eq_true_eq, Option.isSome_iff_exists] at hf
  obtain ⟨hw, w, hl⟩ := hf
  have hr := Stack.execAll_sound hx
  have hm := mem_of_lookup hl
  exact ⟨st, w, hr, hm, hw, (flow_segments_reach_device hr hm).1⟩

end IpStack
