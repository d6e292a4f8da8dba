import IpStack.Demux

/-!
Routing in the demultiplexer of lib.rs. The flow table is only extended under a tuple it does not
hold, with the next inbox, and only a UDP stream's sentinel removes an entry. So in every run each
tuple has at most one entry and each inbox at most one tuple, and no inbox is used twice. Every
packet handed to an inbox is one whose tuple the table files under that inbox, unless it is a
datagram of a UDP flow whose entry was removed since; each inbox gets the packets of one tuple
only; and each TCP tuple is accepted once at most, under the inbox the table files it under.
-/

namespace IpStack

/-- Modelled from the spec: `NetworkPacket::network_tuple` (packet.rs is absent), the key under
which the device branch looks up a parsed packet; a raw packet has none. -/
def TunPacket.networkTuple : TunPacket → Option NetworkTuple
  | .tcp addrs _ => some ⟨addrs, true⟩
  | .udp addrs _ => some ⟨addrs, false⟩
  | .raw _ => none

/-- Inbox `i` is the one the table files `k` under, or `k` is a UDP tuple whose entry a sentinel
has removed: then no entry has inbox `i`, and none will, since new entries take `next`. -/
def Filed (d : Demux) (k : NetworkTuple) (i : Nat) : Prop :=
  d.streams.lookup k = some i ∨ k.tcp = false ∧ i < d.next ∧ i ∉ d.streams.map Prod.snd

theorem lookup_filter_ne {l : List (NetworkTuple × Nat)} {k k' : NetworkTuple} (h : k ≠ k') :
    (l.filter (·.1 != k')).lookup k = l.lookup k := by
  induction l with
  | nil => rfl
  | cons e l ih =>
    obtain ⟨k₀, v⟩ := e
    by_cases he : k₀ = k'
    · subst he
      have : (k == k₀) = false := by simp [h]
      simp [List.filter_cons, List.lookup_cons, this, ih]
    · simp [List.filter_cons, he, List.lookup_cons, ih]

/-- The routing invariant of the demultiplexer. -/
structure RouteInv (d : Demux) : Prop where
  keys : (d.streams.map Prod.fst).Nodup
  inboxes : (d.streams.map Prod.snd).Nodup
  fresh : ∀ e ∈ d.streams, e.2 < d.next
  routed : ∀ e ∈ d.delivered, ∃ k, e.2.networkTuple = some k ∧ Filed d k e.1
  owner : ∀ e ∈ d.delivered, ∀ e' ∈ d.delivered, e.1 = e'.1 → e.2.networkTuple = e'.2.networkTuple
  tcp : ∀ i a, IpStackStream.tcp i a ∈ d.accepted → d.streams.lookup ⟨a, true⟩ = some i
  udp : ∀ i a, IpStackStream.udp i a ∈ d.accepted → Filed d ⟨a, false⟩ i
  once : (d.accepted.filterMap IpStackStream.tcpAddrs).Nodup

namespace Filed

variable {d d' : Demux} {k k' : NetworkTuple} {i : Nat}

theorem congr (h : Filed d k i) (h₁ : d'.streams = d.streams) (h₂ : d'.next = d.next) : Filed d' k i := by
  unfold Filed; rw [h₁, h₂]; exact h

theorem unique (hi : RouteInv d) (h : Filed d k i) (h' : d.streams.lookup k' = some i) : k = k' := by
  rcases h with h | ⟨-, -, hs⟩
  · have := List.inj_on_of_nodup_map hi.inboxes (mem_of_lookup h) (mem_of_lookup h') rfl
    exact (Prod.mk.inj this).1
  · exact absurd (List.mem_map_of_mem Prod.snd (mem_of_lookup h')) hs

end Filed

namespace RouteInv

variable {d : Demux}

theorem init : RouteInv Demux.init := by
  constructor <;> simp [Demux.init]

theorem congr {d' : Demux} (hi : RouteInv d) (h₁ : d'.streams = d.streams) (h₂ : d'.next = d.next)
    (h₃ : d'.delivered = d.delivered) (h₄ : d'.accepted = d.accepted) : RouteInv d' where
  keys := h₁ ▸ hi.keys
  inboxes := h₁ ▸ hi.inboxes
  fresh := h₁ ▸ h₂ ▸ hi.fresh
  routed e he := let ⟨k, h, hf⟩ := hi.routed e (h₃ ▸ he); ⟨k, h, hf.congr h₁ h₂⟩
  owner := h₃ ▸ hi.owner
  tcp := h₁ ▸ h₄ ▸ hi.tcp
  udp i a h := (hi.udp i a (h₄ ▸ h)).congr h₁ h₂
  once := h₄ ▸ hi.once

theorem outbox (hi : RouteInv d) (o : List NetworkPacket) : RouteInv { d with outbox := o } :=
  hi.congr rfl rfl rfl rfl

theorem sendInbox (hi : RouteInv d) {i : Nat} {p : TunPacket} {k : NetworkTuple} (hk : p.networkTuple = some k)
    (hl : d.streams.lookup k = some i) : RouteInv (d.sendInbox i p) := by
  have hnew : ∀ e ∈ d.delivered, e.1 = i → e.2.networkTuple = some k := fun e he hei => by
    obtain ⟨k', h', hf⟩ := hi.routed e he
    have hf' : Filed d k' i := hei ▸ hf
    rw [h', hf'.unique hi hl]
  unfold Demux.sendInbox; split
  · refine { hi with routed := fun e he => ?_, owner := fun e he e' he' hee => ?_ }
    · rcases List.mem_append.mp he with he | he
      · exact hi.routed e he
      · rw [List.mem_singleton.mp he]; exact ⟨k, hk, .inl hl⟩
    · rcases List.mem_append.mp he with he | he <;> rcases List.mem_append.mp he' with he' | he'
      · exact hi.owner e he e' he' hee
      · rw [List.mem_singleton.mp he'] at hee ⊢; rw [hnew e he hee, hk]
      · rw [List.mem_singleton.mp he] at hee ⊢; rw [hnew e' he' hee.symm, hk]
      · rw [List.mem_singleton.mp he, List.mem_singleton.mp he']
  · exact hi

theorem lookup_register {k k' : NetworkTuple} {i : Nat} (hk : d.streams.lookup k = none)
    (h : d.streams.lookup k' = some i) : (d.register k).streams.lookup k' = some i := by
  have hne : (k' == k) = false := beq_false_of_ne fun e => by rw [e, hk] at h; cases h
  simp [Demux.register, List.lookup_cons, hne, h]

theorem Filed.register {k k' : NetworkTuple} {i : Nat} (hk : d.streams.lookup k = none)
    (h : Filed d k' i) : Filed (d.register k) k' i := by
  rcases h with h | ⟨ht, hn, hs⟩
  · exact .inl (lookup_register hk h)
  · refine .inr ⟨ht, Nat.lt_succ_of_lt hn, fun hm => ?_⟩
    rcases List.mem_cons.mp hm with he | hm
    · exact absurd he hn.ne
    · exact hs hm

theorem register (hi : RouteInv d) {k : NetworkTuple} (hk : d.streams.lookup k = none) :
    RouteInv (d.register k) where
  keys := by
    refine List.nodup_cons.mpr ⟨fun hm => ?_, hi.keys⟩
    obtain ⟨e, he, rfl⟩ := List.mem_map.mp hm
    simpa using List.lookup_eq_none_iff.mp hk e he
  inboxes := List.nodup_cons.mpr ⟨fun hm => by
    obtain ⟨e, he, h⟩ := List.mem_map.mp hm; have := hi.fresh e he; simp at h; omega, hi.inboxes⟩
  fresh e he := by
    rcases List.mem_cons.mp he with rfl | he
    · simp [Demux.register]
    · have := hi.fresh e he; simp [Demux.register]; omega
  routed e he := let ⟨k', h₁, h₂⟩ := hi.routed e he; ⟨k', h₁, Filed.register hk h₂⟩
  owner := hi.owner
  tcp i a h := lookup_register hk (hi.tcp i a h)
  udp i a h := Filed.register hk (hi.udp i a h)
  once := hi.once

theorem not_accepted (hi : RouteInv d) {a : FlowAddrs} (h : d.streams.lookup ⟨a, true⟩ = none) :
    a ∉ d.accepted.filterMap IpStackStream.tcpAddrs := fun ha => by
  obtain ⟨st, hst, he⟩ := List.mem_filterMap.mp ha
  cases st with
  | tcp i a' =>
    simp only [IpStackStream.tcpAddrs, Option.some.injEq] at he; subst he
    rw [hi.tcp i a' hst] at h; cases h
  | _ => simp [IpStackStream.tcpAddrs] at he

theorem emitAccept (hi : RouteInv d) (st : IpStackStream)
    (ht : ∀ i a, st = .tcp i a → d.streams.lookup ⟨a, true⟩ = some i ∧ a ∉ d.accepted.filterMap IpStackStream.tcpAddrs)
    (hu : ∀ i a, st = .udp i a → d.streams.lookup ⟨a, false⟩ = some i) : RouteInv (d.emitAccept st) := by
  unfold Demux.emitAccept; split
  · refine { hi with tcp := fun i a h => ?_, udp := fun i a h => ?_, once := ?_ }
    · rcases List.mem_append.mp h with h | h
      · exact hi.tcp i a h
      · exact (ht i a (List.mem_singleton.mp h).symm).1
    · rcases List.mem_append.mp h with h | h
      · exact hi.udp i a h
      · exact .inl (hu i a (List.mem_singleton.mp h).symm)
    · rw [List.filterMap_append, List.nodup_append]
      refine ⟨hi.once, by cases st <;> simp [IpStackStream.tcpAddrs], ?_⟩
      cases st with
      | tcp i a =>
        intro x hx hx'
        simp only [IpStackStream.tcpAddrs, List.filterMap_cons, List.filterMap_nil, List.mem_singleton] at hx'
        exact (ht i a rfl).2 (hx' ▸ hx)
      | _ => simp [IpStackStream.tcpAddrs]
  · exact hi.congr rfl rfl rfl rfl

theorem registerAccept (hi : RouteInv d) {k : NetworkTuple} (hk : d.streams.lookup k = none)
    (st : IpStackStream) (ht : ∀ i a, st = .tcp i a → k = ⟨a, true⟩ ∧ i = d.next)
    (hu : ∀ i a, st = .udp i a → k = ⟨a, false⟩ ∧ i = d.next) : RouteInv ((d.register k).emitAccept st) :=
  (hi.register hk).emitAccept st
    (fun i a h => by
      obtain ⟨rfl, rfl⟩ := ht i a h
      exact ⟨by simp [Demux.register], hi.not_accepted hk⟩)
    (fun i a h => by obtain ⟨rfl, rfl⟩ := hu i a h; simp [Demux.register])

theorem onRead (hi : RouteInv d) (mtu : UInt16) (iss : SeqNum) (p : Option TunPacket) :
    RouteInv (d.onRead mtu iss p) := by
  rcases p with _ | ⟨addrs, seg⟩ | ⟨addrs, pl⟩ | b
  · exact hi
  · simp only [Demux.onRead]
    split
    · exact hi.sendInbox rfl ‹_›
    rename_i hl
    split
    · rename_i pkts _
      exact (hi.outbox (d.outbox ++ pkts)).registerAccept hl (.tcp d.next addrs)
        (fun i a h => by cases h; exact ⟨rfl, rfl⟩) (fun i a h => by cases h)
    · exact hi.congr rfl rfl rfl rfl
  · simp only [Demux.onRead]
    split
    · exact hi.sendInbox rfl ‹_›
    · exact hi.registerAccept ‹_› (.udp d.next addrs) (fun i a h => by cases h)
        (fun i a h => by cases h; exact ⟨rfl, rfl⟩)
  · exact hi.emitAccept _ (fun i a h => by cases h) (fun i a h => by cases h)

theorem Filed.remove (hi : RouteInv d) {k k' : NetworkTuple} {i : Nat} (hk' : k'.tcp = false)
    (h : Filed d k i) : Filed (d.remove k') k i := by
  rcases h with h | ⟨ht, hn, hs⟩
  · by_cases he : k = k'
    · subst he
      refine .inr ⟨hk', hi.fresh _ (mem_of_lookup h), fun hm => ?_⟩
      obtain ⟨e, he, hei⟩ := List.mem_map.mp hm
      obtain ⟨he, hne⟩ := List.mem_filter.mp he
      have := List.inj_on_of_nodup_map hi.inboxes he (mem_of_lookup h) hei
      simp [this] at hne
    · exact .inl ((lookup_filter_ne he).trans h)
  · exact .inr ⟨ht, hn, fun hm => hs (List.map_subset _ (List.filter_sublist _).subset hm)⟩

theorem remove (hi : RouteInv d) {k : NetworkTuple} (hk : k.tcp = false) : RouteInv (d.remove k) where
  keys := ((List.filter_sublist _).map _).nodup hi.keys
  inboxes := ((List.filter_sublist _).map _).nodup hi.inboxes
  fresh e he := hi.fresh e (List.mem_of_mem_filter he)
  routed e he := let ⟨k', h₁, h₂⟩ := hi.routed e he; ⟨k', h₁, Filed.remove hi hk h₂⟩
  owner := hi.owner
  tcp i a h := (lookup_filter_ne fun he => by simp [← he] at hk).trans (hi.tcp i a h)
  udp i a h := Filed.remove hi hk (hi.udp i a h)
  once := hi.once

theorem onRecvUdp (hi : RouteInv d) (a : FlowAddrs) (ttlZero ok : Bool) : RouteInv (d.onRecvUdp a ttlZero ok) := by
  unfold Demux.onRecvUdp; split_ifs
  · exact hi.remove rfl
  · exact hi
  · exact hi.congr rfl rfl rfl rfl

end RouteInv

section Runs

variable {mtu : UInt16} {d d' : Demux}

/-- A step keeps the routing invariant: the outbox never yields a sentinel, and only a UDP
stream's removes an entry. -/
theorem DemuxStep.route (hd : DemuxInv d) (hi : RouteInv d) (h : DemuxStep mtu d d') : RouteInv d' := by
  cases h with
  | read p iss _ => exact hi.onRead mtu iss p
  | @recv p rest ok _ hq =>
    have hp := hd.ttl p (by simp [hq])
    unfold Demux.onRecv
    rw [if_neg (by rw [hp]; decide)]
    split <;> exact hi.congr rfl rfl rfl rfl
  | udpRecv ttlZero ok _ _ => exact hi.onRecvUdp _ ttlZero ok
  | dropStream i => exact hi.congr rfl rfl rfl rfl
  | streamSends p _ _ _ => exact hi.congr rfl rfl rfl rfl
  | dropIpStack => exact hi.congr rfl rfl rfl rfl

theorem DemuxRun.route (h : DemuxRun mtu Demux.init d) : RouteInv d := by
  induction h with
  | refl => exact .init
  | tail hr st ih => exact st.route (hr.inv .init) ih

end Runs

/-- The flow table routes every packet to its own flow: tuples and inboxes are filed once, every
delivery goes to the inbox its tuple is filed under (or was, for a removed UDP entry), each inbox
gets one tuple's packets, and Accept events name their tuple's inbox, each TCP tuple once. -/
theorem packets_routed_by_tuple {mtu : UInt16} {d : Demux} (h : DemuxRun mtu Demux.init d) :
    (d.streams.map Prod.fst).Nodup ∧ (d.streams.map Prod.snd).Nodup ∧
    (∀ i p, (i, p) ∈ d.delivered → ∃ k, p.networkTuple = some k ∧ Filed d k i) ∧
    (∀ i p q, (i, p) ∈ d.delivered → (i, q) ∈ d.delivered → p.networkTuple = q.networkTuple) ∧
    (∀ i a, IpStackStream.tcp i a ∈ d.accepted → d.streams.lookup ⟨a, true⟩ = some i) ∧
    (∀ i a, IpStackStream.udp i a ∈ d.accepted → Filed d ⟨a, false⟩ i) ∧
    (d.accepted.filterMap IpStackStream.tcpAddrs).Nodup :=
  let hi := h.route
  ⟨hi.keys, hi.inboxes, fun i p he => hi.routed (i, p) he, fun _ _ _ hp hq => hi.owner _ hp _ hq rfl,
    hi.tcp, hi.udp, hi.once⟩

/-- A UDP flow's sentinel removes its entry; the next datagram on the tuple opens inbox 1, and the
first datagram stays filed under inbox 0. -/
theorem packets_routed_by_tuple_udp_reopened : ∃ d, DemuxRun 1500 Demux.init d ∧
    d.delivered.map Prod.fst = [0] ∧ d.accepted.length = 2 ∧ d.streams.map Prod.snd = [1] ∧
    ∀ i p, (i, p) ∈ d.delivered → ∃ k, p.networkTuple = some k ∧ Filed d k i := by
  let a : FlowAddrs := .v4 ⟨0x0a000001, 5353⟩ ⟨0x0a000002, 53⟩
  let p : Option TunPacket := some (.udp a [1])
  let d₁ := Demux.init.onRead 1500 0 p
  let d₂ := d₁.onRead 1500 0 p
  have h₁ : DemuxStep 1500 Demux.init d₁ := .read p 0 rfl
  have h₂ : DemuxStep 1500 d₁ d₂ := .read p 0 rfl
  have h₃ : DemuxStep 1500 d₂ (d₂.onRecvUdp a true true) := .udpRecv (i := 0) true true rfl (by decide)
  have h₄ : DemuxStep 1500 (d₂.onRecvUdp a true true) ((d₂.onRecvUdp a true true).onRead 1500 0 p) :=
    .read p 0 rfl
  have h := ((((DemuxRun.refl _).tail h₁).tail h₂).tail h₃).tail h₄
  exact ⟨_, h, by decide, by decide, by decide, (packets_routed_by_tuple h).2.2.1⟩

end IpStack
