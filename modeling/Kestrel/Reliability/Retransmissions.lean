import Kestrel.Reliability.Layer
import Kestrel.Lib.Transition

/-! # Faithful retransmissions

Whatever a layer does, a frame it sends again carries what the frame tracked under its number
carried, and no acknowledgment since then has named that number.
-/

namespace Kestrel

namespace Frame

def payload : Frame → Bytes
  | .push _ payload | .ack _ payload => payload
  | _ => []

def challengeData : Frame → Option ℕ
  | .pathChallenge _ data | .pathResponse _ data => some data
  | _ => none

/-- The number under which a frame is tracked; ACK and PING frames are not tracked, and SYN and
SYN-ACK frames have no number. -/
def trackedNumber : Frame → Option ℕ
  | .push h _ | .fin h | .pathChallenge h _ | .pathResponse h _ => some h.sequenceNumber
  | .ack .. | .ping _ | .syn _ | .synAck _ => none

/-- The same kind, number, payload and challenge; the rest of the header may differ. -/
structure SameContent (g f : Frame) : Prop where
  frameType_eq : g.frameType = f.frameType
  sequenceNumber_eq : g.sequenceNumber = f.sequenceNumber
  payload_eq : g.payload = f.payload
  challengeData_eq : g.challengeData = f.challengeData

theorem sameContent_reconstructFrame {f : Frame} {q : ℕ} {i : RetransmissionFrameInfo}
    (hq : f.trackedNumber = some q) (hi : RetransmissionFrameInfo.fromFrame f = some i)
    (c : RetransmissionContext) (now : Instant) : SameContent (i.reconstructFrame c now) f := by
  cases f with
  | push | fin | pathChallenge | pathResponse =>
    cases hi
    exact ⟨rfl, rfl, rfl, rfl⟩
  | ack | ping | syn | synAck => cases hq

theorem trackedNumber_of_sequenceNumber {f : Frame} {q : ℕ} {i : RetransmissionFrameInfo}
    (hq : f.sequenceNumber = some q) (hi : RetransmissionFrameInfo.fromFrame f = some i) :
    f.trackedNumber = some q := by
  cases f <;> first | exact hq | cases hi

theorem sequenceNumber_of_trackedNumber {f : Frame} {q : ℕ} (hq : f.trackedNumber = some q) :
    f.sequenceNumber = some q := by
  cases f <;> first | exact hq | cases hq

end Frame

namespace SimpleRetransmissionManager

variable {m : SimpleRetransmissionManager}

theorem not_ackNames_of_info? {n q : ℕ} {rs : List SackRange} {i : RetransmissionFrameInfo}
    (h : ((m.acknowledgeUpTo n).2.acknowledgeSackRanges rs).2.info? q = some i) :
    ¬ AckNames n rs q := by
  have hrange := SortedMap.takeAll_snd (m.acknowledgeUpTo n).2.inFlightSimple
    (rs.flatMap SackRange.seqs)
  have hupto := SortedMap.takeAll_snd m.inFlightSimple
    (m.inFlightSimple.keys.takeWhile (· < n))
  rw [info?, acknowledgeSackRanges] at h
  dsimp only at h
  rw [hrange, SortedMap.getElem?_eraseAll] at h
  rintro (hn | ⟨r, hr, hq⟩)
  · split at h
    · cases h
    · rw [acknowledgeUpTo] at h
      dsimp only at h
      rw [hupto, SortedMap.getElem?_eraseAll] at h
      split at h
      · cases h
      · rename_i hk
        obtain ⟨p, hp, -⟩ := Option.map_eq_some_iff.mp h
        apply hk
        rw [SortedMap.mem_takeWhile_lt (SortedMap.keys_sorted _), SortedMap.mem_keys]
        exact ⟨hn, p, hp⟩
  · rw [if_pos (List.mem_flatMap.mpr ⟨r, hr, hq⟩)] at h
    cases h

end SimpleRetransmissionManager

namespace RetransmissionManager

variable {m : RetransmissionManager}

theorem not_ackNames_of_keeps {n q : ℕ} {rs : List SackRange} {now : Instant}
    {c : RetransmissionContext} {i : RetransmissionFrameInfo}
    (h : (m.processAck n rs now c).2.Keeps q i) : ¬ AckNames n rs q := by
  rcases h with h | h
  · intro hn
    rw [processAck, SackManager.info?_processAck, if_pos hn] at h
    cases h
  · exact SimpleRetransmissionManager.not_ackNames_of_info? h

end RetransmissionManager

/-- What a layer was told about the numbers it sends. -/
inductive TrackEvent where
  | tracked (frame : Frame)
  | acknowledged (recvNextSeq : ℕ) (sackRanges : List SackRange)
  deriving DecidableEq, Repr

/-- A layer with what it was told so far, in order. -/
structure LayerRun (C : Type) where
  layer : ReliabilityLayer C
  events : List TrackEvent

namespace LayerRun

inductive Op where
  | write (buf : Bytes)
  | packetize (peerCid window : ℕ) (now start : Instant) (prependFrame : Option Frame)
  | packetizeZeroRtt (peerCid window : ℕ) (now start : Instant) (synAckFrame : Frame)
      (maxPacketSize : ℕ)
  | nextSequenceNumber
  | track (frame : Frame) (now : Instant)
  | handleAck (recvNextSeq : ℕ) (sackRanges : List SackRange) (now : Instant)
      (context : RetransmissionContext)
  | checkRetransmissions (now : Instant) (context : RetransmissionContext)
  | clear
  | receive (sequenceNumber : ℕ) (packet : PacketOrFin)
  | reassemble
  | ackSent

variable {C : Type} [CongestionControl C] (w : LayerRun C)

/-- Carries out an operation; returns the frames to send again. -/
def apply : Op → List Frame × LayerRun C
  | .write buf => ([], { w with layer := (w.layer.writeToStream buf).2 })
  | .packetize peerCid window now start prependFrame =>
    let (frames, layer) := w.layer.packetizeStreamData peerCid window now start prependFrame
    ([], { layer, events := w.events ++ frames.map .tracked })
  | .packetizeZeroRtt peerCid window now start synAckFrame maxPacketSize =>
    match w.layer.packetizeZeroRttStreamData peerCid window now start synAckFrame maxPacketSize with
    | some (packets, layer) => ([], { layer, events := w.events ++ packets.flatten.map .tracked })
    | none => ([], w)
  | .nextSequenceNumber => ([], { w with layer := w.layer.nextSequenceNumber.2 })
  | .track frame now =>
    ([], { layer := w.layer.trackFrameInFlight frame now, events := w.events ++ [.tracked frame] })
  | .handleAck recvNextSeq sackRanges now context =>
    let (frames, layer) := w.layer.handleAck recvNextSeq sackRanges now context
    (frames, { layer, events := w.events ++ [.acknowledged recvNextSeq sackRanges] })
  | .checkRetransmissions now context =>
    let (frames, layer) := w.layer.checkRetransmissions now context
    (frames, { w with layer })
  | .clear => ([], { w with layer := w.layer.clearInFlightPackets })
  | .receive sequenceNumber packet =>
    ([], { w with layer := (w.layer.receive sequenceNumber packet).2 })
  | .reassemble => ([], { w with layer := w.layer.reassemble.2.2 })
  | .ackSent => ([], { w with layer := w.layer.onAckSent })

def system (config : Config) (cc : C) : TransitionSystem (LayerRun C) Op where
  init w := w = ⟨.new config cc, []⟩
  step w op w' := (w.apply op).2 = w'

def numbers : List ℕ := w.events.filterMap fun
  | .tracked frame => frame.trackedNumber
  | .acknowledged .. => none

/-- The frame was tracked under the number, and no acknowledgment since then named it. -/
def Outstanding (f : Frame) (q : ℕ) : Prop :=
  ∃ before after, w.events = before ++ .tracked f :: after ∧ f.trackedNumber = some q ∧
    ∀ n rs, .acknowledged n rs ∈ after → ¬ AckNames n rs q

/-- Whatever is kept was stored from a frame that is outstanding. -/
def Sound : Prop :=
  ∀ q i, w.layer.retransmissionManager.Keeps q i →
    ∃ f, w.Outstanding f q ∧ RetransmissionFrameInfo.fromFrame f = some i

variable {w}

omit [CongestionControl C] in
theorem Outstanding.append {f : Frame} {q : ℕ} (h : w.Outstanding f q) (layer : ReliabilityLayer C)
    {more : List TrackEvent} (hm : ∀ n rs, .acknowledged n rs ∈ more → ¬ AckNames n rs q) :
    Outstanding ⟨layer, w.events ++ more⟩ f q := by
  obtain ⟨before, after, he, hq, ha⟩ := h
  refine ⟨before, after ++ more, ?_, hq, ?_⟩
  · dsimp only
    rw [he, List.append_assoc, List.cons_append]
  · intro n rs hn
    rcases List.mem_append.mp hn with hn | hn
    · exact ha n rs hn
    · exact hm n rs hn

omit [CongestionControl C] in
theorem outstanding_tracked {frames : List Frame} {f : Frame} {q : ℕ} (hf : f ∈ frames)
    (hq : f.trackedNumber = some q) (layer : ReliabilityLayer C) (events : List TrackEvent) :
    Outstanding ⟨layer, events ++ frames.map .tracked⟩ f q := by
  obtain ⟨before, after, rfl⟩ := List.append_of_mem hf
  refine ⟨events ++ before.map .tracked, after.map .tracked, ?_, hq, ?_⟩
  · simp
  · intro n rs hn
    obtain ⟨g, -, hg⟩ := List.mem_map.mp hn
    cases hg

omit [CongestionControl C] in
theorem Sound.track (h : w.Sound) {layer : ReliabilityLayer C} (frames : List Frame) (now : Instant)
    (hl : layer.retransmissionManager = w.layer.retransmissionManager.addAll frames now) :
    Sound ⟨layer, w.events ++ frames.map .tracked⟩ := by
  intro q i hk
  dsimp only at hk
  rw [hl] at hk
  rcases RetransmissionManager.keeps_addAll hk with hk | ⟨f, hf, hq, hi⟩
  · obtain ⟨f, ho, hi⟩ := h q i hk
    refine ⟨f, ho.append layer ?_, hi⟩
    intro n rs hn
    obtain ⟨g, -, hg⟩ := List.mem_map.mp hn
    cases hg
  · exact ⟨f, outstanding_tracked hf (Frame.trackedNumber_of_sequenceNumber hq hi) _ _, hi⟩

omit [CongestionControl C] in
theorem Sound.of_keeps (h : w.Sound) {layer : ReliabilityLayer C}
    (hk : ∀ q i, layer.retransmissionManager.Keeps q i → w.layer.retransmissionManager.Keeps q i) :
    Sound { w with layer } :=
  fun q i hi => h q i (hk q i hi)

theorem Sound.apply (h : w.Sound) (op : Op) : (w.apply op).2.Sound := by
  cases op with
  | write buf => exact h.of_keeps fun _ _ hk => hk
  | packetize peerCid window now start prependFrame =>
    apply h.track _ now
    rw [ReliabilityLayer.trackAll_eq]
  | packetizeZeroRtt peerCid window now start synAckFrame maxPacketSize =>
    rw [LayerRun.apply]
    split
    · rename_i packets layer heq
      apply h.track _ now
      rw [ReliabilityLayer.packetizeZeroRttStreamData] at heq
      obtain ⟨packets', -, he⟩ := Option.map_eq_some_iff.mp heq
      cases he
      rw [ReliabilityLayer.trackAll_eq]
    · exact h
  | nextSequenceNumber => exact h.of_keeps fun _ _ hk => hk
  | track frame now => exact h.track [frame] now rfl
  | handleAck n rs now c =>
    obtain ⟨r, cc, he⟩ := ReliabilityLayer.handleAck_eq (l := w.layer) n rs now c
    rw [LayerRun.apply, he]
    intro q i hk
    obtain ⟨f, ho, hi⟩ := h q i (RetransmissionManager.keeps_of_processAck hk)
    refine ⟨f, ho.append _ ?_, hi⟩
    intro n' rs' hn
    cases List.mem_singleton.mp hn
    exact RetransmissionManager.not_ackNames_of_keeps hk
  | checkRetransmissions now c =>
    obtain ⟨r, cc, he⟩ := ReliabilityLayer.checkRetransmissions_eq (l := w.layer) now c
    rw [LayerRun.apply, he]
    exact h.of_keeps fun q i hk => RetransmissionManager.keeps_of_checkForRetransmissions (c := c) hk
  | clear =>
    rintro q i (hk | hk) <;>
      simp [LayerRun.apply, ReliabilityLayer.clearInFlightPackets, RetransmissionManager.clear] at hk
  | receive q p =>
    apply h.of_keeps
    intro k i hk
    cases ha : w.layer.recvBuffer.accepts q with
    | false => rwa [ReliabilityLayer.receive_eq_of_not_accepts ha] at hk
    | true =>
      rw [ReliabilityLayer.receive_eq_of_accepts ha] at hk
      exact hk
  | reassemble => exact h.of_keeps fun _ _ hk => hk
  | ackSent => exact h.of_keeps fun _ _ hk => hk

variable {config : Config} {cc : C}

theorem sound (h : (system config cc).Reachable w) : w.Sound := by
  have hinv : (system config cc).Invariant Sound :=
    { init := by
        rintro _ rfl q i (hk | hk) <;>
          simp [ReliabilityLayer.new, RetransmissionManager.new] at hk
      step := by
        rintro w op _ - hw rfl
        exact hw.apply op }
  exact hinv.holds h

theorem rebuilds_apply {op : Op} {g : Frame} (h : g ∈ (w.apply op).1) :
    ∃ q i c now, (w.apply op).2.layer.retransmissionManager.Keeps q i ∧
      g = i.reconstructFrame c now := by
  cases op with
  | handleAck n rs now c =>
    obtain ⟨r, cc, he⟩ := ReliabilityLayer.handleAck_eq (l := w.layer) n rs now c
    rw [LayerRun.apply, he] at h ⊢
    obtain ⟨q, i, hk, hg⟩ := RetransmissionManager.rebuilds_processAck h
    exact ⟨q, i, c, now, hk, hg⟩
  | checkRetransmissions now c =>
    obtain ⟨r, cc, he⟩ := ReliabilityLayer.checkRetransmissions_eq (l := w.layer) now c
    rw [LayerRun.apply, he] at h ⊢
    obtain ⟨q, i, hk, hg⟩ := RetransmissionManager.rebuilds_checkForRetransmissions h
    exact ⟨q, i, c, now, hk, hg⟩
  | packetizeZeroRtt peerCid window now start synAckFrame maxPacketSize =>
    rw [LayerRun.apply] at h
    split at h <;> cases h
  | _ => cases h

theorem eq_of_nodup_filterMap {α β : Type*} {φ : α → Option β} {l : List α}
    (h : (l.filterMap φ).Nodup) {x y : α} {q : β} (hx : x ∈ l) (hy : y ∈ l) (hxq : φ x = some q)
    (hyq : φ y = some q) : x = y := by
  induction l with
  | nil => cases hx
  | cons a l ih =>
    have hmem {z : α} (hz : z ∈ l) (hzq : φ z = some q) : q ∈ l.filterMap φ :=
      List.mem_filterMap.mpr ⟨z, hz, hzq⟩
    cases ha : φ a with
    | none =>
      rw [List.filterMap_cons_none ha] at h
      have hne {z : α} (hz : z ∈ a :: l) (hzq : φ z = some q) : z ∈ l := by
        rcases List.mem_cons.mp hz with rfl | hz
        · rw [ha] at hzq
          cases hzq
        · exact hz
      exact ih h (hne hx hxq) (hne hy hyq)
    | some b =>
      rw [List.filterMap_cons_some ha, List.nodup_cons] at h
      rcases List.mem_cons.mp hx with rfl | hx'
      · rcases List.mem_cons.mp hy with rfl | hy'
        · rfl
        · rw [ha] at hxq
          cases hxq
          exact absurd (hmem hy' hyq) h.1
      · rcases List.mem_cons.mp hy with rfl | hy'
        · rw [ha] at hyq
          cases hyq
          exact absurd (hmem hx' hxq) h.1
        · exact ih h.2 hx' hy'

/-- In every run in which no number is tracked twice, a frame sent again has the content of the
frame tracked under its number, and no acknowledgment processed since then named that number. -/
theorem retransmissions_faithful (h : (system config cc).Reachable w) (op : Op)
    (honce : (w.apply op).2.numbers.Nodup) {g : Frame} (hg : g ∈ (w.apply op).1) :
    ∃ f q, g.sequenceNumber = some q ∧ (w.apply op).2.Outstanding f q ∧ g.SameContent f ∧
      ∀ f', .tracked f' ∈ (w.apply op).2.events → f'.trackedNumber = some q → f' = f := by
  obtain ⟨q, i, c, now, hk, rfl⟩ := rebuilds_apply hg
  obtain ⟨f, ho, hi⟩ := (sound h).apply op q i hk
  have hout := ho
  obtain ⟨before, after, he, hq, -⟩ := ho
  have hsame := Frame.sameContent_reconstructFrame hq hi c now
  refine ⟨f, q, ?_, hout, hsame, ?_⟩
  · rw [hsame.sequenceNumber_eq, Frame.sequenceNumber_of_trackedNumber hq]
  · intro f' hf' hq'
    have hf : TrackEvent.tracked f ∈ (w.apply op).2.events := by
      rw [he]
      simp
    have heq := eq_of_nodup_filterMap honce hf' hf hq' hq
    cases heq
    rfl

section Sample

def samplePush : Frame := .newPush 2 0 0 9 0 [7]

def sampleContext : RetransmissionContext := ⟨0, 2, 1, 1, 0, 9⟩

/-- A layer that has tracked a PUSH after some operations. -/
def sampleTracked (ops : List Op) : LayerRun Vegas :=
  (ops ++ [Op.track samplePush 0]).foldl (fun w op => (w.apply op).2) ⟨.new {} (.new {}), []⟩

theorem sampleTracked_reachable (ops : List Op) :
    (system {} (Vegas.new {})).Reachable (sampleTracked ops) := by
  have hrun (w : LayerRun Vegas) (ops : List Op) (h : (system {} (Vegas.new {})).Reachable w) :
      (system {} (Vegas.new {})).Reachable (ops.foldl (fun w op => (w.apply op).2) w) := by
    induction ops generalizing w with
    | nil => exact h
    | cons op ops ih => exact ih _ (.step h rfl)
  exact hrun _ _ (.init rfl)

/-- After the timeout the PUSH is sent again. -/
theorem retransmissions_faithful_sample :
    ∃ g, g ∈ ((sampleTracked []).apply (.checkRetransmissions 2000000000 sampleContext)).1 ∧
      ∃ f q, g.sequenceNumber = some q ∧
        ((sampleTracked []).apply (.checkRetransmissions 2000000000 sampleContext)).2.Outstanding f q ∧
        g.SameContent f ∧ ∀ f', .tracked f' ∈
          ((sampleTracked []).apply (.checkRetransmissions 2000000000 sampleContext)).2.events →
            f'.trackedNumber = some q → f' = f := by
  have hg : (.newPush 2 0 0 9 2000 [7] : Frame) ∈
      ((sampleTracked []).apply (.checkRetransmissions 2000000000 sampleContext)).1 := by
    decide
  exact ⟨_, hg, retransmissions_faithful (sampleTracked_reachable []) _ (by decide) hg⟩

/-- An acknowledgment that named the number before it was tracked does not prevent that. -/
theorem early_ack_ignored : ∃ (w : LayerRun Vegas) (op : Op) (g : Frame) (q n : ℕ)
    (rs : List SackRange), (system {} (Vegas.new {})).Reachable w ∧ (w.apply op).2.numbers.Nodup ∧
      g ∈ (w.apply op).1 ∧ g.sequenceNumber = some q ∧ .acknowledged n rs ∈ w.events ∧
        AckNames n rs q :=
  ⟨sampleTracked [.handleAck 1 [] 0 sampleContext], .checkRetransmissions 2000000000 sampleContext,
    .newPush 2 0 0 9 2000 [7], 0, 1, [], sampleTracked_reachable _, by decide, by decide, rfl,
    by decide, by decide⟩

end Sample

end LayerRun

end Kestrel
