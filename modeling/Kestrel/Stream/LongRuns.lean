import Kestrel.Stream.Safety

/-! # Long runs of the data plane

Sequence numbers are 32-bit counters that are compared as they are. Until they run out, every
packet has a number of its own: it is accepted once, and acknowledgments name what has arrived.
After `2^32` packets the counters start again, and the first packet is taken for a new one.
-/

namespace Kestrel

namespace ReceiveBuffer

variable {b : ReceiveBuffer} {q : ℕ}

theorem accepts_iff_not_recorded (hf : b.finReached = false) :
    b.accepts q = true ↔ ¬ b.Recorded q := by
  rw [accepts_iff, Recorded, not_or, Nat.not_lt, Option.eq_none_iff_forall_ne_some]
  simp [hf]

theorem recorded_of_reassemble (h : b.reassemble.2.2.Recorded q) : b.Recorded q := by
  refine reassemble_rule (P := fun c => ∀ q, c.Recorded q → b.Recorded q) ?_ ?_ (fun _ h => h) q h
  · rintro c p c' hc hp k hk
    obtain ⟨hf, rfl⟩ := tryPopNextContiguous_eq_some.mp hp
    have hbuffered := (SortedMap.first_eq_some_iff.mp hf).1
    apply hc
    rcases hk with hk | ⟨y, hy⟩
    · have hle : (c.nextSequence + 1) % u32Size ≤ c.nextSequence + 1 := Nat.mod_le _ _
      dsimp only at hk
      rcases Nat.lt_or_ge k c.nextSequence with hlt | hge
      · exact Or.inl hlt
      · obtain rfl : k = c.nextSequence := by omega
        exact Or.inr ⟨p, hbuffered⟩
    · rw [SortedMap.getElem?_erase] at hy
      split at hy
      · cases hy
      · exact Or.inr ⟨y, hy⟩
  · rintro c hc k (hk | ⟨y, hy⟩)
    · exact hc k (Or.inl hk)
    · simp at hy

theorem reassemble_single {p : Bytes} (hf : b.finReached = false)
    (hr : b.received = (∅ : Std.ExtTreeMap ℕ PacketOrFin).insert b.nextSequence (.push p)) :
    b.reassemble = (some [p], false,
      { b with nextSequence := (b.nextSequence + 1) % u32Size, received := ∅ }) := by
  have hsize : b.received.size = 1 := by
    rw [hr, Std.ExtTreeMap.size_insert]
    simp
  have herase : b.received.erase b.nextSequence = ∅ := by
    ext q
    rw [hr, SortedMap.getElem?_erase, SortedMap.getElem?_insert]
    split
    · simp
    · simp
  have hpop : b.tryPopNextContiguous = some (.push p,
      { b with nextSequence := (b.nextSequence + 1) % u32Size, received := ∅ }) := by
    refine tryPopNextContiguous_eq_some.mpr ⟨SortedMap.first_eq_some_iff.mpr ⟨?_, ?_⟩, ?_⟩
    · rw [hr, SortedMap.getElem?_insert, if_pos rfl]
    · intro q y hq
      rw [hr, SortedMap.getElem?_insert] at hq
      split at hq
      · rename_i heq
        exact heq.le
      · simp at hq
    · rw [herase]
  rw [reassemble, if_neg (by simp [hf]), hsize, reassembleLoop, hpop]
  rfl

end ReceiveBuffer

namespace DataPlane

variable {S R : Type} {w w' : DataPlane S R} {e : Event} {ls : List Event}

/-- A PUSH frame with this number was delivered to the receiver. -/
def Arrived (ls : List Event) (q : ℕ) : Prop :=
  ∃ header payload, .receivePush (.push header payload) ∈ ls ∧ header.sequenceNumber = q

/-- The number of payloads that a step hands to the user. -/
def handed (w : DataPlane S R) : Event → ℕ
  | .reassemble => (w.receiver.reassemble.1.getD []).length
  | _ => 0

/-- What sequence numbers are for, in one step of a run: the counters do not overflow, the next
number has not been given yet, a packet is accepted exactly if its number has not arrived before,
an acknowledgment names what has arrived, and takes out of flight what it names. -/
structure Unambiguous (ls : List Event) (w : DataPlane S R) (e : Event) (w' : DataPlane S R) :
    Prop where
  counter_eq : w'.sender.sequenceNumberCounter + w.packets =
    w.sender.sequenceNumberCounter + w'.packets
  allocated : w'.sender.nextSequenceNumber.1 = w'.packets
  next_eq : w'.receiver.recvBuffer.nextSequence =
    w.receiver.recvBuffer.nextSequence + w.handed e
  accepted : ∀ header payload, e = .receivePush (.push header payload) →
    ((w.receiver.receivePush header.sequenceNumber payload).1 = true ↔
      ¬ Arrived ls header.sequenceNumber)
  named : ∀ peerCid timestamp header payload, e = .sendAck peerCid timestamp →
    ackFrame w.receiver peerCid timestamp = .ack header payload →
      ∀ q, AckNames header.recvNextSequence (decodeSackRanges payload) q ↔ Arrived ls q
  removed : ∀ header payload now c, e = .handleAck (.ack header payload) now c →
    ∀ q, w'.sender.retransmissionManager.sackManager.info? q =
      if AckNames header.recvNextSequence (decodeSackRanges payload) q then none
      else w.sender.retransmissionManager.sackManager.info? q

theorem arrived_append {q : ℕ} : Arrived (ls ++ [e]) q ↔ Arrived ls q ∨ Arrived [e] q := by
  simp only [Arrived, List.mem_append, or_and_right, exists_or]

theorem not_arrived_of_ne {q : ℕ} (h : ∀ f, e ≠ .receivePush f) : ¬ Arrived [e] q := by
  rintro ⟨header, payload, hm, -⟩
  exact h _ (List.mem_singleton.mp hm).symm

/-- A data plane whose packets may carry nothing: it never cuts any. -/
structure Silent (w : DataPlane S R) : Prop where
  payload_zero : w.sender.config.connection.maxPayloadSize = 0
  packetized : w.sender.packetized = []
  counter_eq : w.sender.sequenceNumberCounter = 0
  kept : ∀ q i, ¬ w.sender.retransmissionManager.Keeps q i
  pushes : w.pushes = []
  received : ∀ q : ℕ, w.receiver.recvBuffer.received[q]? = none
  next_eq : w.receiver.recvBuffer.nextSequence = 0
  no_fin : w.receiver.recvBuffer.finReached = false

/-- What both kinds of data plane have in common: the counter counts the packets, and the receiver
follows the sender. -/
structure Counted (w : DataPlane S R) : Prop where
  counter_eq : w.sender.sequenceNumberCounter = w.packets
  follows : w.receiver.recvBuffer.Follows w.items
  no_fin : w.receiver.recvBuffer.finReached = false

theorem Safe.counted (h : w.Safe) : w.Counted := ⟨h.counter_eq, h.follows, h.no_fin⟩

theorem Silent.counted (h : w.Silent) : w.Counted where
  counter_eq := by rw [packets, h.packetized, h.counter_eq, List.length_nil]
  follows := by
    refine ⟨fun q x hq => ?_, fun q x hq => ?_, ?_, fun hf => ?_⟩
    · rw [h.received] at hq
      cases hq
    · rw [h.received] at hq
      cases hq
    · rw [h.next_eq]
      exact Nat.zero_le _
    · rw [h.no_fin] at hf
      cases hf
  no_fin := h.no_fin

theorem Silent.reassemble (h : w.Silent) :
    w.receiver.recvBuffer.reassemble = (none, false, w.receiver.recvBuffer) := by
  have hsize : w.receiver.recvBuffer.received.size = 0 :=
    SortedMap.size_eq_zero_iff.mpr h.received
  rw [ReceiveBuffer.reassemble, if_neg (by simp [h.no_fin]), hsize]
  rfl

theorem silent_start (sendConfig recvConfig : Config) (s : S) (r : R)
    (h : sendConfig.connection.maxPayloadSize = 0) :
    (start sendConfig recvConfig s r).Silent where
  payload_zero := h
  packetized := rfl
  counter_eq := rfl
  kept q i := by
    rintro (hk | hk)
    · simp [start, ReliabilityLayer.new, RetransmissionManager.new] at hk
    · simp [start, ReliabilityLayer.new, RetransmissionManager.new] at hk
  pushes := rfl
  received q := by simp [start, ReliabilityLayer.new, ReceiveBuffer.new]
  next_eq := rfl
  no_fin := rfl

variable [CongestionControl S]

theorem Silent.step (h : w.Silent) (hs : Step w e w') : w'.Silent := by
  cases hs with
  | write buf => exact { h with }
  | packetize peerCid window now start =>
    obtain ⟨chunks, b', hp, he⟩ :=
      ReliabilityLayer.packetizeStreamData_eq (l := w.sender) peerCid window now start
    have hnil : chunks = [] := by
      by_contra hne
      obtain ⟨p, hm⟩ := List.exists_mem_of_ne_nil chunks hne
      have hfit := hp.fits p hm
      have hzero : (w.sender.packetizerContext peerCid window now start).maxPayloadSize = 0 :=
        h.payload_zero
      omega
    subst hnil
    rw [he]
    exact { h with
      packetized := by simp [h.packetized]
      pushes := by simp [h.pushes, pushFrames] }
  | receivePush header payload hf =>
    rw [h.pushes] at hf
    cases hf
  | reassemble =>
    have hre := h.reassemble
    refine { h with received := ?_, next_eq := ?_, no_fin := ?_ }
    all_goals
      dsimp only [ReliabilityLayer.reassemble]
      rw [hre]
    · exact h.received
    · exact h.next_eq
    · exact h.no_fin
  | sendAck peerCid timestamp => exact { h with }
  | handleAck header payload hf now c =>
    obtain ⟨r, cc, he⟩ := ReliabilityLayer.handleAck_eq (l := w.sender) header.recvNextSequence
      (decodeSackRanges payload) now c
    have hnone (q : ℕ) (i : RetransmissionFrameInfo) :
        ¬ (w.sender.retransmissionManager.processAck header.recvNextSequence
          (decodeSackRanges payload) now c).2.Keeps q i :=
      fun hk => h.kept q i (RetransmissionManager.keeps_of_processAck hk)
    have hframes : (w.sender.retransmissionManager.processAck header.recvNextSequence
        (decodeSackRanges payload) now c).1.framesToRetransmit = [] := by
      refine List.eq_nil_iff_forall_not_mem.mpr fun f hf => ?_
      obtain ⟨q, i, hi, -⟩ := RetransmissionManager.rebuilds_processAck hf
      exact hnone q i hi
    rw [he]
    exact { h with kept := hnone, pushes := by simp [h.pushes, hframes] }
  | timeout now c =>
    obtain ⟨r, cc, he⟩ := ReliabilityLayer.checkRetransmissions_eq (l := w.sender) now c
    have hnone (q : ℕ) (i : RetransmissionFrameInfo) :
        ¬ (w.sender.retransmissionManager.checkForRetransmissions w.sender.rtoEstimator.rto now
          c).2.Keeps q i :=
      fun hk => h.kept q i (RetransmissionManager.keeps_of_checkForRetransmissions hk)
    have hframes : (w.sender.retransmissionManager.checkForRetransmissions
        w.sender.rtoEstimator.rto now c).1 = [] := by
      refine List.eq_nil_iff_forall_not_mem.mpr fun f hf => ?_
      obtain ⟨q, i, hi, -⟩ := RetransmissionManager.rebuilds_checkForRetransmissions hf
      exact hnone q i hi
    rw [he]
    exact { h with kept := hnone, pushes := by simp [h.pushes, hframes] }

variable {sendConfig recvConfig : Config} {s : S} {r : R}

/-- Until the numbers run out, the counter counts the packets and the receiver follows. -/
theorem counted (h : (system sendConfig recvConfig s r).Reachable w)
    (hlen : w.packets < u32Size) : w.Counted := by
  rcases Nat.eq_zero_or_pos sendConfig.connection.maxPayloadSize with hzero | hpos
  · refine Silent.counted ?_
    clear hlen
    induction h with
    | init h =>
      cases h
      exact silent_start sendConfig recvConfig s r hzero
    | step _ hs ih => exact ih.step hs
  · exact ((safe_invariant hpos).holds (reachable_bounded h hlen)).counted

theorem recorded_step (hw : w.Counted) (hlen : w.packets < u32Size) (hs : Step w e w') (q : ℕ) :
    w'.receiver.recvBuffer.Recorded q ↔ w.receiver.recvBuffer.Recorded q ∨ Arrived [e] q := by
  have hquiet (he : ∀ f, e ≠ .receivePush f) (hb : w'.receiver.recvBuffer = w.receiver.recvBuffer) :
      w'.receiver.recvBuffer.Recorded q ↔ w.receiver.recvBuffer.Recorded q ∨ Arrived [e] q := by
    rw [hb, or_iff_left (not_arrived_of_ne he)]
  cases hs with
  | receivePush header payload hf =>
    have hone : Arrived [.receivePush (.push header payload)] q ↔ q = header.sequenceNumber := by
      constructor
      · rintro ⟨header', payload', hm, rfl⟩
        cases List.mem_singleton.mp hm
        rfl
      · rintro rfl
        exact ⟨header, payload, List.mem_singleton.mpr rfl, rfl⟩
    rw [hone]
    dsimp only [ReliabilityLayer.receivePush]
    rw [ReliabilityLayer.receive_recvBuffer]
    cases ha : w.receiver.recvBuffer.accepts header.sequenceNumber with
    | true => rw [ReceiveBuffer.recorded_receive_iff ha, or_comm]
    | false =>
      have hrec : w.receiver.recvBuffer.Recorded header.sequenceNumber := by
        by_contra hn
        rw [(ReceiveBuffer.accepts_iff_not_recorded hw.no_fin).mpr hn] at ha
        cases ha
      rw [ReceiveBuffer.receive_of_not_accepts ha]
      exact ⟨Or.inl, fun h => h.elim id fun hq => hq ▸ hrec⟩
  | reassemble =>
    have hr := hw.follows.reassembled (length_items (w := w) ▸ hlen)
    have hfin : w.receiver.recvBuffer.reassemble.2.1 = false := no_fin_reassemble hr
    rw [or_iff_left (not_arrived_of_ne (by simp))]
    exact ⟨ReceiveBuffer.recorded_of_reassemble, hr.recorded hfin q⟩
  | write buf => exact hquiet (by simp) rfl
  | packetize peerCid window now start => exact hquiet (by simp) rfl
  | sendAck peerCid timestamp => exact hquiet (by simp) rfl
  | handleAck header payload hf now c => exact hquiet (by simp) rfl
  | timeout now c => exact hquiet (by simp) rfl

theorem recorded_iff_arrived (h : (system sendConfig recvConfig s r).Run ls w)
    (hlen : w.packets < u32Size) (q : ℕ) :
    w.receiver.recvBuffer.Recorded q ↔ Arrived ls q := by
  induction h with
  | init h =>
    cases h
    simp [Arrived, ReceiveBuffer.Recorded, start, ReliabilityLayer.new, ReceiveBuffer.new]
  | step hr hs ih =>
    have hlen₀ := hs.packets_le.trans_lt hlen
    rw [recorded_step (counted hr.reachable hlen₀) hlen₀ hs, arrived_append, ih hlen₀]

theorem next_eq_add_handed (hw : w.Counted) (hlen : w.packets < u32Size) (hs : Step w e w') :
    w'.receiver.recvBuffer.nextSequence = w.receiver.recvBuffer.nextSequence + w.handed e := by
  cases hs with
  | reassemble =>
    have hr := hw.follows.reassembled (length_items (w := w) ▸ hlen)
    have hpay := congrArg List.length hr.payloads_eq
    have hle := hw.follows.next_le
    have hle' := hr.follows.next_le
    rw [payloads_take_items, payloads_take_items, List.length_append, List.length_take,
      List.length_take] at hpay
    rw [length_items, packets] at hle hle'
    have hnext : w.receiver.recvBuffer.reassemble.2.2.nextSequence =
        w.receiver.recvBuffer.nextSequence +
          (w.receiver.recvBuffer.reassemble.1.getD []).length := by omega
    exact hnext
  | receivePush header payload hf =>
    dsimp only [ReliabilityLayer.receivePush, handed]
    rw [ReliabilityLayer.receive_recvBuffer, ReceiveBuffer.receive_nextSequence]
    rfl
  | write | packetize | sendAck | handleAck | timeout => rfl

/-- As long as fewer than `2^32` packets have been cut, sequence numbers do what they are for. -/
theorem numbers_unambiguous (h : (system sendConfig recvConfig s r).Run ls w) (hs : Step w e w')
    (hlen : w'.packets < u32Size) : Unambiguous ls w e w' := by
  have hlen₀ := hs.packets_le.trans_lt hlen
  have hw := counted h.reachable hlen₀
  have hw' := counted (h.reachable.step hs) hlen
  have harr := recorded_iff_arrived h hlen₀
  constructor
  · rw [hw.counter_eq, hw'.counter_eq, Nat.add_comm]
  · exact hw'.counter_eq
  · exact next_eq_add_handed hw hlen₀ hs
  · rintro header payload rfl
    rw [← harr, ← ReceiveBuffer.accepts_iff_not_recorded hw.no_fin,
      ReliabilityLayer.receivePush]
    cases ha : w.receiver.recvBuffer.accepts header.sequenceNumber with
    | true => rw [ReliabilityLayer.receive_eq_of_accepts ha]
    | false => rw [ReliabilityLayer.receive_eq_of_not_accepts ha]
  · rintro peerCid timestamp header payload - hf q
    rw [← harr]
    refine ackNames_ackFrame hf (fun k x hk => ?_) q
    have hi := (List.getElem?_eq_some_iff.mp (hw.follows.buffered k x hk)).1
    rw [length_items] at hi
    omega
  · rintro header payload now c rfl q
    cases hs with
    | handleAck _ _ hf =>
      obtain ⟨r, cc, he⟩ := ReliabilityLayer.handleAck_eq (l := w.sender) header.recvNextSequence
        (decodeSackRanges payload) now c
      rw [he]
      exact SackManager.info?_processAck ..

section Sample

/-- The second packet arrives, and the acknowledgment of the first one does. -/
theorem numbers_unambiguous_sample :
    (∃ w', Step sampleAnswered (.receivePush (.newPush 1 1 0 256 0 [9])) w' ∧
      Unambiguous sampleEvents sampleAnswered (.receivePush (.newPush 1 1 0 256 0 [9])) w') ∧
    ∃ w', Step sampleAnswered (.handleAck (.newAck 1 1 256 [] 0) 100 ⟨0, 1, 1, 2, 0, 256⟩) w' ∧
      Unambiguous sampleEvents sampleAnswered
        (.handleAck (.newAck 1 1 256 [] 0) 100 ⟨0, 1, 1, 2, 0, 256⟩) w' := by
  constructor
  · have hs := Step.receivePush sampleAnswered ⟨.push, 1, 1, 256, 0, 1, 0⟩ [9] (by decide)
    exact ⟨_, hs, numbers_unambiguous run_sampleEvents hs (by decide)⟩
  · obtain ⟨w', hs, -, -, hlen⟩ := step_sampleAnswered
    exact ⟨w', hs, numbers_unambiguous run_sampleEvents hs (by rw [hlen]; decide)⟩

/-- Packets of one byte. After the first acknowledgment the controller is out of its slow start. -/
def byteConfig : Config :=
  { congestionControl := { initialCwndPackets := 1, initialSsthresh := 0 }
    connection := { maxPayloadSize := 1 } }

def byteSystem : TransitionSystem (DataPlane Vegas Vegas) Event :=
  system byteConfig byteConfig (Vegas.new byteConfig) (Vegas.new byteConfig)

/-- A send buffer in which one byte waits, or none. -/
def byteBuffer (waiting : Bool) : SendBuffer :=
  if waiting then ⟨[[7]], 1, 1048576⟩ else ⟨[], 0, 1048576⟩

/-- The controller permits a packet, and round trips of no time at all do not change that. -/
structure Calm (v : Vegas) : Prop where
  threshold : v.slowStartThreshold = 0
  pos : 0 < v.congestionWindow
  slow : v.state = .slowStart → v.congestionWindow = 1

theorem Calm.onAck {v : Vegas} (h : Calm v) : Calm (v.onAck 0) := by
  unfold Vegas.onAck
  cases hs : v.state with
  | slowStart =>
    have hpos : 0 < (1 + 1) % u32Size := by decide
    dsimp only
    rw [h.slow hs, h.threshold]
    exact ⟨rfl, hpos, fun hslow => by cases hslow⟩
  | congestionAvoidance =>
    have hnone : Vegas.diffPackets { v with minRtt := min v.minRtt 0, lastRtt := 0 }
        (min v.minRtt 0) 0 = none := by
      rw [Nat.min_zero, Vegas.diffPackets, if_pos rfl]
    dsimp only
    rw [hs] at hnone
    rw [hnone]
    exact ⟨h.threshold, h.pos, fun hslow => by cases hslow⟩

theorem Calm.takeSamples {l : ReliabilityLayer Vegas} {samples : List Duration}
    (h : Calm l.congestionControl) (hs : ∀ x ∈ samples, x = 0) :
    Calm (l.takeSamples samples).congestionControl := by
  induction samples generalizing l with
  | nil => exact h
  | cons x samples ih =>
    have hx := hs x List.mem_cons_self
    subst hx
    exact ih h.onAck fun y hy => hs y (List.mem_cons_of_mem _ hy)

/-- So many bytes have been sent, each in a packet of its own, and all have been handed over. The
first packet is still on the network. -/
structure Carried (n : ℕ) (ls : List Event) (w : DataPlane Vegas Vegas) : Prop where
  run : byteSystem.Run ls w
  config_eq : w.sender.config = byteConfig
  waiting : w.sender.sendBuffer = byteBuffer false
  counter_eq : w.sender.sequenceNumberCounter = n % u32Size
  calm : Calm w.sender.congestionControl
  inFlight : ∀ q i, w.sender.retransmissionManager.sackManager.info? q = some i → q < n
  next_eq : w.receiver.recvBuffer.nextSequence = n % u32Size
  received : w.receiver.recvBuffer.received = ∅
  no_fin : w.receiver.recvBuffer.finReached = false
  packets_eq : w.packets = n
  delivered_eq : w.delivered = w.accepted
  first : 0 < n → ∃ header, Frame.push header [7] ∈ w.pushes ∧
    .receivePush (.push header [7]) ∈ ls ∧ header.sequenceNumber = 0

variable {n : ℕ} {w : DataPlane Vegas Vegas}

theorem packetizeLoop_byte {c : PacketizerContext} (hc : c.maxPayloadSize = 1) (counter : ℕ) :
    packetizeLoop c 1 (byteBuffer true) counter =
      ([c.frame counter [7]], byteBuffer false, nextSeq counter) := by
  have hchunk : (byteBuffer true).createChunk c.maxPayloadSize = (some [7], byteBuffer false) := by
    rw [hc]
    rfl
  rw [packetizeLoop, if_neg (by decide), hchunk]
  rfl

/-- The byte that waits goes out in one packet. -/
theorem packetizeStreamData_byte {l : ReliabilityLayer Vegas} (hc : l.config = byteConfig)
    (hb : l.sendBuffer = byteBuffer true) (hcalm : Calm l.congestionControl)
    (hq : ∀ q, l.retransmissionManager.sackManager.info? q = none) :
    ∃ header, header.sequenceNumber = l.sequenceNumberCounter ∧
      l.packetizeStreamData 1 1 0 0 none = ([.push header [7]],
        { l with
          sendBuffer := byteBuffer false
          sequenceNumberCounter := nextSeq l.sequenceNumberCounter
          packetized := l.packetized ++ [[7]]
          retransmissionManager :=
            l.retransmissionManager.addInFlightPacket (.push header [7]) 0 }) := by
  let c := l.packetizerContext 1 1 0 0
  have hsize : c.inFlightCount = 0 := by
    refine SortedMap.size_eq_zero_iff.mpr fun q => ?_
    have hnone := hq q
    rwa [SackManager.info?, Option.map_eq_none_iff] at hnone
  have hcwnd : 0 < c.congestionWindow := hcalm.pos
  have hpermit : c.permit = 1 := by
    have hwindow : c.peerRecvWindow = 1 := rfl
    rw [PacketizerContext.permit, hsize, hwindow, Nat.zero_mod, Nat.sub_zero, Nat.sub_zero]
    exact Nat.min_eq_right hcwnd
  have hmax : c.maxPayloadSize = 1 := by
    change l.config.connection.maxPayloadSize = 1
    rw [hc]
    rfl
  obtain ⟨header, hframe, hseq⟩ : ∃ header : ShortHeader,
      c.frame l.sequenceNumberCounter [7] = .push header [7] ∧
        header.sequenceNumber = l.sequenceNumberCounter := ⟨_, rfl, rfl⟩
  refine ⟨header, hseq, ?_⟩
  have hpacketize : packetize c l.sendBuffer l.sequenceNumberCounter none =
      ([.push header [7]], byteBuffer false, nextSeq l.sequenceNumberCounter) := by
    rw [packetize, hpermit, hb, packetizeLoop_byte hmax, hframe]
    rfl
  rw [ReliabilityLayer.packetizeStreamData, hpacketize]
  rfl

/-- One more byte is written, sent and handed over. -/
theorem Carried.carry (h : Carried n ls w)
    (hq : ∀ q, w.sender.retransmissionManager.sackManager.info? q = none) :
    ∃ ls' w', Carried (n + 1) ls' w' := by
  have hwrite : w.sender.writeToStream [7] =
      (1, { w.sender with sendBuffer := byteBuffer true }) := by
    rw [ReliabilityLayer.writeToStream, h.waiting]
    rfl
  obtain ⟨header, hseq, hcut⟩ := packetizeStreamData_byte
    (l := { w.sender with sendBuffer := byteBuffer true }) h.config_eq rfl h.calm hq
  have hwritten := h.run.step (Step.write w [7])
  rw [hwrite] at hwritten
  have hsent := hwritten.step (Step.packetize _ 1 1 0 0)
  dsimp only at hsent
  rw [hcut] at hsent
  have hcame := hsent.step (Step.receivePush _ header [7] (by simp))
  have hnext : w.receiver.recvBuffer.nextSequence = header.sequenceNumber := by
    rw [hseq, h.next_eq]
    exact h.counter_eq.symm
  have hacc : w.receiver.recvBuffer.accepts header.sequenceNumber = true := by
    rw [ReceiveBuffer.accepts_iff, h.received]
    exact ⟨h.no_fin, hnext.le, by simp⟩
  dsimp only [ReliabilityLayer.receivePush] at hcame
  rw [ReliabilityLayer.receive_eq_of_accepts hacc] at hcame
  have hhanded := hcame.step (Step.reassemble _)
  have hre := ReceiveBuffer.reassemble_single (p := [7])
    (b := { w.receiver.recvBuffer with
      received := w.receiver.recvBuffer.received.insert header.sequenceNumber (.push [7]) })
    h.no_fin (by rw [h.received, hnext])
  dsimp only [ReliabilityLayer.reassemble, ReliabilityLayer.onAccepted] at hhanded
  rw [hre] at hhanded
  have hmod : (n % u32Size + 1) % u32Size = (n + 1) % u32Size := Nat.mod_add_mod n u32Size 1
  refine ⟨_, _, hhanded, h.config_eq, rfl, ?_, h.calm, ?_, ?_, rfl, h.no_fin, ?_, ?_, ?_⟩
  · dsimp only
    rw [h.counter_eq, nextSeq, hmod]
  · rintro q i hk
    dsimp only at hk
    rw [RetransmissionManager.info?_addInFlightPacket_push, hq] at hk
    split at hk
    · rename_i heq
      have hle : n % u32Size ≤ n := Nat.mod_le _ _
      have hcount := h.counter_eq
      dsimp only at hseq
      omega
    · cases hk
  · dsimp only
    rw [h.next_eq, hmod]
  · have hlen : w.sender.packetized.length = n := h.packets_eq
    simp [packets, hlen]
  · simp [h.delivered_eq]
  · rintro -
    rcases Nat.eq_zero_or_pos n with rfl | hpos
    · exact ⟨header, by simp, by simp, hseq.trans h.counter_eq⟩
    · obtain ⟨header₀, hm, hl, hzero⟩ := h.first hpos
      exact ⟨header₀, by simp [hm], by simp [hl], hzero⟩

theorem handleAck_byte {l : ReliabilityLayer Vegas} {m : ℕ} (hcalm : Calm l.congestionControl)
    (hnamed : ∀ q i, l.retransmissionManager.sackManager.info? q = some i → q < m)
    (rs : List SackRange) (c : RetransmissionContext) :
    (∀ q, (l.retransmissionManager.processAck m rs 0 c).2.sackManager.info? q = none) ∧
      ∃ r cc, Calm cc ∧ l.handleAck m rs 0 c = ([],
        { l with
          retransmissionManager := (l.retransmissionManager.processAck m rs 0 c).2
          rtoEstimator := r, congestionControl := cc }) := by
  have hnone (q : ℕ) :
      (l.retransmissionManager.sackManager.processAck m rs 0 c).2.info? q = none := by
    rw [SackManager.info?_processAck]
    split
    · rfl
    · rename_i hn
      refine Option.eq_none_iff_forall_ne_some.mpr fun i hi => ?_
      exact hn (Or.inl (hnamed q i hi))
  have hframes : (l.retransmissionManager.processAck m rs 0 c).1.framesToRetransmit = [] := by
    refine List.eq_nil_iff_forall_not_mem.mpr fun f hf => ?_
    obtain ⟨q, i, hi, -⟩ :=
      SackManager.rebuilds_processAck (m := l.retransmissionManager.sackManager) hf
    rw [hnone q] at hi
    cases hi
  have hsamples : ∀ x ∈ (l.retransmissionManager.processAck m rs 0 c).1.rttSamples, x = 0 := by
    intro x hx
    obtain ⟨p, -, rfl⟩ := List.mem_map.mp hx
    exact Nat.zero_sub _
  refine ⟨hnone, ?_⟩
  unfold ReliabilityLayer.handleAck
  generalize l.retransmissionManager.processAck m rs 0 c = result at hframes hsamples ⊢
  obtain ⟨result, manager⟩ := result
  have hcalm' := Calm.takeSamples (l := { l with retransmissionManager := manager }) hcalm hsamples
  obtain ⟨r, cc, he⟩ := ReliabilityLayer.takeSamples_eq
    (l := { l with retransmissionManager := manager }) result.rttSamples
  dsimp only at hframes hcalm' ⊢
  rw [he] at hcalm'
  rw [hframes, he]
  exact ⟨r, cc, hcalm', rfl⟩

theorem Carried.acknowledge (h : Carried n ls w) (hn : n < u32Size) :
    ∃ ls' w', Carried n ls' w' ∧
      ∀ q, w'.sender.retransmissionManager.sackManager.info? q = none := by
  obtain ⟨header, payload, hf, hnext⟩ : ∃ header payload,
      ackFrame w.receiver 1 0 = .ack header payload ∧
        header.recvNextSequence = w.receiver.recvBuffer.nextSequence := ⟨_, _, rfl, rfl⟩
  rw [h.next_eq, Nat.mod_eq_of_lt hn] at hnext
  have hasked := h.run.step (Step.sendAck w 1 0)
  rw [hf] at hasked
  have hacked := hasked.step (Step.handleAck _ header payload (by simp) 0 ⟨0, 0, 0, 0, 0, 0⟩)
  obtain ⟨hnone, r, cc, hcalm, he⟩ := handleAck_byte (l := w.sender)
    (m := header.recvNextSequence) h.calm (fun q i hi => hnext ▸ h.inFlight q i hi)
    (decodeSackRanges payload) ⟨0, 0, 0, 0, 0, 0⟩
  dsimp only at hacked
  rw [he] at hacked
  refine ⟨_, _, ⟨hacked, h.config_eq, h.waiting, h.counter_eq, hcalm, ?_, h.next_eq, h.received,
    h.no_fin, h.packets_eq, h.delivered_eq, ?_⟩, hnone⟩
  · intro q i hi
    dsimp only at hi
    rw [hnone q] at hi
    cases hi
  · intro hpos
    obtain ⟨header₀, hm, hl, hzero⟩ := h.first hpos
    exact ⟨header₀, by simp [hm], by simp [hl], hzero⟩

theorem exists_carried (n : ℕ) (hn : n < u32Size) : ∃ ls w, Carried n ls w ∧
    ∀ q, w.sender.retransmissionManager.sackManager.info? q = none := by
  induction n with
  | zero =>
    refine ⟨[], _, ⟨.init rfl, rfl, rfl, rfl, ⟨rfl, by decide, fun _ => rfl⟩, ?_, rfl, rfl, rfl,
      rfl, rfl, fun h => absurd h (lt_irrefl 0)⟩, ?_⟩
    · intro q i hi
      simp [start, ReliabilityLayer.new, RetransmissionManager.new] at hi
    · intro q
      simp [start, ReliabilityLayer.new, RetransmissionManager.new]
  | succ n ih =>
    obtain ⟨ls, w, h, hq⟩ := ih (by omega)
    obtain ⟨ls', w', h'⟩ := h.carry hq
    exact h'.acknowledge hn

/-- After `2^32` packets both counters are back at zero, and the first packet, which was handed
over long ago, is accepted as a new one. -/
theorem old_packet_accepted : ∃ ls w, ∃ w' : DataPlane Vegas Vegas, ∃ header : ShortHeader,
    byteSystem.Run ls w ∧ Step w (.receivePush (.push header [7])) w' ∧ w.packets = u32Size ∧
      w.sender.sequenceNumberCounter = 0 ∧ w.receiver.recvBuffer.nextSequence = 0 ∧
      w.delivered = w.accepted ∧ Arrived ls header.sequenceNumber ∧
      (w.receiver.receivePush header.sequenceNumber [7]).1 = true ∧
      ¬ Unambiguous ls w (.receivePush (.push header [7])) w' := by
  obtain ⟨ls₀, w₀, h₀, hq⟩ := exists_carried (u32Size - 1) (by decide)
  obtain ⟨ls, w, h⟩ := h₀.carry hq
  obtain ⟨header, hm, hl, hzero⟩ := h.first (Nat.succ_pos _)
  have hnext : w.receiver.recvBuffer.nextSequence = 0 := h.next_eq
  have hacc : w.receiver.recvBuffer.accepts header.sequenceNumber = true := by
    rw [ReceiveBuffer.accepts_iff, h.received, hnext]
    exact ⟨h.no_fin, Nat.zero_le _, by simp⟩
  have hagain : (w.receiver.receivePush header.sequenceNumber [7]).1 = true := by
    rw [ReliabilityLayer.receivePush, ReliabilityLayer.receive_eq_of_accepts hacc]
  have harrived : Arrived ls header.sequenceNumber := ⟨header, [7], hl, rfl⟩
  refine ⟨ls, w, _, header, h.run, .receivePush w header [7] hm, h.packets_eq, h.counter_eq, hnext,
    h.delivered_eq, harrived, hagain, fun hu => ?_⟩
  exact (hu.accepted header [7] rfl).mp hagain harrived

end Sample

end DataPlane

end Kestrel
