import Kestrel.Reliability.Retransmissions
import Kestrel.Reliability.Acknowledgment

/-! # Retries

A frame that is not sent at best effort is kept under its number, and a check sends it again when
it is due: a frame of the selective acknowledgment manager whenever the timeout has passed, another
one after its interval while it has retries left. The second manager takes interval and retries
from the built-in mode of the frame, whatever the configuration says.
-/

namespace Kestrel

open Std (ExtTreeMap)

namespace RetransmissionFrameInfo

/-- The description of a frame that has this number. -/
structure HasNumber (i : RetransmissionFrameInfo) (q : ℕ) : Prop where
  sequenceNumber_eq : i.sequenceNumber = q
  ne_syn : i.frameType ≠ .syn
  ne_synAck : i.frameType ≠ .synAck

theorem hasNumber_fromFrame {f : Frame} {q : ℕ} {i : RetransmissionFrameInfo}
    (hq : f.sequenceNumber = some q) (hi : fromFrame f = some i) : i.HasNumber q := by
  cases f with
  | push | fin | pathChallenge | pathResponse =>
    cases hq
    cases hi
    constructor <;> simp
  | ack | ping => cases hi
  | syn | synAck => cases hq

theorem HasNumber.sequenceNumber {i : RetransmissionFrameInfo} {q : ℕ} (h : i.HasNumber q)
    (c : RetransmissionContext) (now : Instant) :
    (i.reconstructFrame c now).sequenceNumber = some q := by
  have hq := congrArg some h.sequenceNumber_eq
  unfold reconstructFrame
  cases ht : i.frameType with
  | push | fin | pathChallenge | pathResponse => exact hq
  | syn => exact absurd ht h.ne_syn
  | synAck => exact absurd ht h.ne_synAck

/-- The frames are rebuilt, one for each of these numbers, from what is kept under them. -/
def Rebuilt (kept : ℕ → Option RetransmissionFrameInfo) (c : RetransmissionContext) (now : Instant)
    (numbers : List ℕ) (frames : List Frame) : Prop :=
  List.Forall₂ (fun q g => ∃ i, kept q = some i ∧ g = i.reconstructFrame c now) numbers frames

theorem Rebuilt.kept_of_mem {kept : ℕ → Option RetransmissionFrameInfo}
    {c : RetransmissionContext} {now : Instant} {numbers : List ℕ} {frames : List Frame}
    (h : Rebuilt kept c now numbers frames) {q : ℕ} (hq : q ∈ numbers) :
    ∃ i, kept q = some i := by
  induction h with
  | nil => cases hq
  | cons hg _ ih =>
    rcases List.mem_cons.mp hq with rfl | hq
    · obtain ⟨i, hi, -⟩ := hg
      exact ⟨i, hi⟩
    · exact ih hq

end RetransmissionFrameInfo

namespace Frame

instance (g f : Frame) : Decidable (g.SameContent f) :=
  decidable_of_iff (g.frameType = f.frameType ∧ g.sequenceNumber = f.sequenceNumber ∧
      g.payload = f.payload ∧ g.challengeData = f.challengeData)
    ⟨fun ⟨ht, hs, hp, hd⟩ => ⟨ht, hs, hp, hd⟩, fun ⟨ht, hs, hp, hd⟩ => ⟨ht, hs, hp, hd⟩⟩

/-- One of the frames has the content of this frame. -/
def SentIn (f : Frame) (frames : List Frame) : Prop := ∃ g ∈ frames, g.SameContent f

instance (f : Frame) : DecidablePred f.SentIn := fun frames =>
  inferInstanceAs (Decidable (∃ g ∈ frames, g.SameContent f))

variable {f : Frame} {q : ℕ} {i : RetransmissionFrameInfo}

@[simp] theorem sentIn_nil : ¬ f.SentIn [] := by simp [SentIn]

theorem sentIn_append {l l' : List Frame} : f.SentIn (l ++ l') ↔ f.SentIn l ∨ f.SentIn l' := by
  simp [SentIn, or_and_right, exists_or]

/-- A frame is among the rebuilt ones exactly when its number is. -/
theorem sentIn_iff_mem {kept : ℕ → Option RetransmissionFrameInfo} {c : RetransmissionContext}
    {now : Instant} {numbers : List ℕ} {frames : List Frame}
    (hkept : ∀ k j, kept k = some j → j.HasNumber k) (hq : f.trackedNumber = some q)
    (hi : RetransmissionFrameInfo.fromFrame f = some i) (hj : ∀ j, kept q = some j → j = i)
    (h : RetransmissionFrameInfo.Rebuilt kept c now numbers frames) :
    f.SentIn frames ↔ q ∈ numbers := by
  induction h with
  | nil => simp
  | @cons k g numbers frames hg _ ih =>
    obtain ⟨j, hk, rfl⟩ := hg
    have hsame : (j.reconstructFrame c now).SameContent f ↔ q = k := by
      constructor
      · intro hs
        have hn := hs.sequenceNumber_eq
        rw [(hkept k j hk).sequenceNumber, sequenceNumber_of_trackedNumber hq] at hn
        exact (Option.some.inj hn).symm
      · rintro rfl
        rw [hj j hk]
        exact sameContent_reconstructFrame hq hi c now
    rw [List.mem_cons, ← ih, ← hsame]
    simp [SentIn]

end Frame

namespace SackManager

variable {m : SackManager} {q : ℕ}

/-- The numbers of the packets that were sent longer than the timeout ago. -/
def lateNumbers (m : SackManager) (rto : Duration) (now : Instant) : List ℕ :=
  (m.inFlightPackets.toList.filter fun e => decide (now - e.2.lastSentAt > rto)).map Prod.fst

theorem mem_lateNumbers {rto : Duration} {now : Instant} : q ∈ m.lateNumbers rto now ↔
    ∃ p, m.inFlightPackets[q]? = some p ∧ now - p.lastSentAt > rto := by
  simp [lateNumbers, SortedMap.mem_selected]

theorem rebuilt_checkForRto (m : SackManager) (rto : Duration) (now : Instant)
    (c : RetransmissionContext) : RetransmissionFrameInfo.Rebuilt m.info? c now
      (m.lateNumbers rto now) (m.checkForRto rto now c).1 := by
  refine (SortedMap.forall₂_selected _ _ _).imp ?_
  rintro q g ⟨p, hp, -, rfl⟩
  exact ⟨p.frameInfo, by rw [info?, hp]; rfl, rfl⟩

theorem getElem?_checkForRto (m : SackManager) (rto : Duration) (now : Instant)
    (c : RetransmissionContext) (q : ℕ) : (m.checkForRto rto now c).2.inFlightPackets[q]? =
      m.inFlightPackets[q]?.map fun p =>
        if now - p.lastSentAt > rto then { p with lastSentAt := now } else p := by
  simp [checkForRto]

theorem getElem?_addInFlightPacket_of_ne {f : Frame} (h : f.trackedNumber ≠ some q)
    (now : Instant) : (m.addInFlightPacket f now).inFlightPackets[q]? = m.inFlightPackets[q]? := by
  unfold addInFlightPacket
  split
  · rename_i seq i hs hi
    have hne : seq ≠ q := by
      rintro rfl
      exact h (Frame.trackedNumber_of_sequenceNumber hs hi)
    rw [SortedMap.getElem?_insert, if_neg hne]
  · rfl

theorem getElem?_addInFlightPacket {f : Frame} {i : RetransmissionFrameInfo}
    (hq : f.trackedNumber = some q) (hi : RetransmissionFrameInfo.fromFrame f = some i)
    (now : Instant) : (m.addInFlightPacket f now).inFlightPackets[q]? = some ⟨now, i, 0⟩ := by
  rw [addInFlightPacket, Frame.sequenceNumber_of_trackedNumber hq, hi]
  simp

end SackManager

/-- What a check leaves of a packet. -/
def SimpleInFlightPacket.checked (p : SimpleInFlightPacket) (now : Instant) :
    Option SimpleInFlightPacket :=
  if now - p.lastSentAt ≥ p.retryInterval then
    if p.retryCount < p.maxRetries then
      some { p with lastSentAt := now, retryCount := p.retryCount + 1 }
    else none
  else some p

namespace SimpleRetransmissionManager

variable {m : SimpleRetransmissionManager} {q : ℕ}

/-- The numbers of the packets whose interval is over and that have retries left. -/
def retriedNumbers (m : SimpleRetransmissionManager) (now : Instant) : List ℕ :=
  (m.inFlightSimple.toList.filter fun e => decide (now - e.2.lastSentAt ≥ e.2.retryInterval) &&
    decide (e.2.retryCount < e.2.maxRetries)).map Prod.fst

theorem mem_retriedNumbers {now : Instant} : q ∈ m.retriedNumbers now ↔
    ∃ p, m.inFlightSimple[q]? = some p ∧ now - p.lastSentAt ≥ p.retryInterval ∧
      p.retryCount < p.maxRetries := by
  simp [retriedNumbers, SortedMap.mem_selected]

theorem rebuilt_checkForRetransmissions (m : SimpleRetransmissionManager) (now : Instant)
    (c : RetransmissionContext) : RetransmissionFrameInfo.Rebuilt m.info? c now
      (m.retriedNumbers now) (m.checkForRetransmissions now c).1 := by
  refine (SortedMap.forall₂_selected _ _ _).imp ?_
  rintro q g ⟨p, hp, -, rfl⟩
  exact ⟨p.frameInfo, by rw [info?, hp]; rfl, rfl⟩

theorem getElem?_checkForRetransmissions (m : SimpleRetransmissionManager) (now : Instant)
    (c : RetransmissionContext) (q : ℕ) :
    (m.checkForRetransmissions now c).2.inFlightSimple[q]? =
      m.inFlightSimple[q]?.bind (·.checked now) := by
  rw [checkForRetransmissions]
  dsimp only
  simp only [SortedMap.getElem?_eraseAll, ExtTreeMap.getElem?_map, SortedMap.mem_selected]
  cases hp : m.inFlightSimple[q]? with
  | none => simp
  | some p =>
    by_cases hd : now - p.lastSentAt ≥ p.retryInterval
    · by_cases hr : p.retryCount < p.maxRetries <;> simp [SimpleInFlightPacket.checked, hd, hr]
    · simp [SimpleInFlightPacket.checked, hd]

theorem getElem?_addPacket_of_ne {f : Frame} (h : f.trackedNumber ≠ some q) (now : Instant) :
    (m.addPacket f now).inFlightSimple[q]? = m.inFlightSimple[q]? := by
  unfold addPacket
  split
  · rename_i seq n d i hs _ hi
    have hne : seq ≠ q := by
      rintro rfl
      exact h (Frame.trackedNumber_of_sequenceNumber hs hi)
    rw [SortedMap.getElem?_insert, if_neg hne]
  · rfl

theorem getElem?_addPacket {f : Frame} {i : RetransmissionFrameInfo} {n : ℕ} {d : Duration}
    (hq : f.trackedNumber = some q) (hi : RetransmissionFrameInfo.fromFrame f = some i)
    (hm : f.reliabilityMode = .simpleRetransmit n d) (now : Instant) :
    (m.addPacket f now).inFlightSimple[q]? = some ⟨i, now, 0, n, d⟩ := by
  rw [addPacket, Frame.sequenceNumber_of_trackedNumber hq, hm, hi]
  simp

end SimpleRetransmissionManager

namespace RetransmissionManager

inductive Op where
  | addInFlightPacket (frame : Frame) (now : Instant)
  | processAck (recvNextSeq : ℕ) (sackRanges : List SackRange) (now : Instant)
      (context : RetransmissionContext)
  | checkForRetransmissions (rto : Duration) (now : Instant) (context : RetransmissionContext)
  | onAckElicitingPacketReceived
  | onAckSent
  | clear
  deriving DecidableEq, Repr

namespace Op

/-- When the operation takes place; the others send nothing. -/
def time : Op → Instant
  | .addInFlightPacket _ now | .processAck _ _ now _ | .checkForRetransmissions _ now _ => now
  | .onAckElicitingPacketReceived | .onAckSent | .clear => 0

/-- Nothing is kept under the number any more. -/
def Settles (q : ℕ) : Op → Prop
  | .processAck recvNextSeq sackRanges _ _ => AckNames recvNextSeq sackRanges q
  | .clear => True
  | _ => False

instance (q : ℕ) : DecidablePred (Settles q)
  | .processAck recvNextSeq sackRanges _ _ =>
    inferInstanceAs (Decidable (AckNames recvNextSeq sackRanges q))
  | .clear => .isTrue trivial
  | .addInFlightPacket .. => .isFalse id
  | .checkForRetransmissions .. => .isFalse id
  | .onAckElicitingPacketReceived => .isFalse id
  | .onAckSent => .isFalse id

/-- No other frame is kept under the number. -/
def Spares (q : ℕ) : Op → Prop
  | .addInFlightPacket frame _ => frame.trackedNumber ≠ some q
  | _ => True

end Op

variable (m : RetransmissionManager)

def apply : Op → List Frame × RetransmissionManager
  | .addInFlightPacket frame now => ([], m.addInFlightPacket frame now)
  | .processAck recvNextSeq sackRanges now context =>
    ((m.processAck recvNextSeq sackRanges now context).1.framesToRetransmit,
      (m.processAck recvNextSeq sackRanges now context).2)
  | .checkForRetransmissions rto now context => m.checkForRetransmissions rto now context
  | .onAckElicitingPacketReceived => ([], m.onAckElicitingPacketReceived)
  | .onAckSent => ([], m.onAckSent)
  | .clear => ([], m.clear)

def system (config : Config) : TransitionSystem RetransmissionManager Op where
  init m := m = .new config
  step m op m' := (m.apply op).2 = m'

/-- What is kept under a number has that number. -/
def KeepsNumbers : Prop := ∀ q i, m.Keeps q i → i.HasNumber q

variable {m}

theorem KeepsNumbers.apply (h : m.KeepsNumbers) (op : Op) : (m.apply op).2.KeepsNumbers := by
  intro q i hk
  cases op with
  | addInFlightPacket f now =>
    rcases keeps_addInFlightPacket hk with hk | ⟨hq, hi⟩
    · exact h q i hk
    · exact RetransmissionFrameInfo.hasNumber_fromFrame hq hi
  | processAck n rs now c => exact h q i (keeps_of_processAck hk)
  | checkForRetransmissions rto now c =>
    exact h q i (keeps_of_checkForRetransmissions (c := c) hk)
  | onAckElicitingPacketReceived | onAckSent => exact h q i hk
  | clear =>
    rcases hk with hk | hk
    · rw [RetransmissionManager.apply, clear, SackManager.info?_clear] at hk
      cases hk
    · rw [RetransmissionManager.apply, clear, SimpleRetransmissionManager.info?_clear] at hk
      cases hk

theorem config_apply (op : Op) : (m.apply op).2.config = m.config := by
  cases op with
  | addInFlightPacket f now =>
    rw [RetransmissionManager.apply, addInFlightPacket]
    dsimp only
    split <;> rfl
  | _ => rfl

variable {config : Config}

theorem keepsNumbers (h : (system config).Reachable m) : m.KeepsNumbers := by
  have hinv : (system config).Invariant KeepsNumbers :=
    { init := by
        rintro _ rfl q i (hk | hk)
        · rw [new, SackManager.info?_new] at hk
          cases hk
        · rw [new, SimpleRetransmissionManager.info?_new] at hk
          cases hk
      step := by
        rintro m op _ - hm rfl
        exact hm.apply op }
  exact hinv.holds h

theorem config_eq (h : (system config).Reachable m) : m.config = config := by
  have hinv : (system config).Invariant fun m => m.config = config :=
    { init := by
        rintro _ rfl
        rfl
      step := by
        rintro m op _ - hm rfl
        rw [config_apply, hm] }
  exact hinv.holds h

end RetransmissionManager

/-- When a frame was sent last, how often it was sent again, and whether this is over. -/
structure Attempts where
  lastSentAt : Instant
  count : ℕ
  settled : Bool
  deriving DecidableEq, Repr

namespace Attempts

/-- A check has to send the frame again. -/
def Due (a : Attempts) : ReliabilityMode → Duration → Instant → Prop
  | .reliable, rto, now => a.settled = false ∧ now - a.lastSentAt > rto
  | .simpleRetransmit maxRetries retryInterval, _, now =>
    a.settled = false ∧ now - a.lastSentAt ≥ retryInterval ∧ a.count < maxRetries
  | .bestEffort, _, _ => False

/-- An operation that sends the frame again is an attempt. -/
def next (a : Attempts) (f : Frame) (q : ℕ) (op : RetransmissionManager.Op)
    (frames : List Frame) : Attempts :=
  if op.Settles q then { a with settled := true }
  else if f.SentIn frames then { a with lastSentAt := op.time, count := a.count + 1 }
  else a

end Attempts

structure TrackedFrame where
  manager : RetransmissionManager
  attempts : Attempts

namespace TrackedFrame

/-- Carries out an operation while a frame is kept under a number. -/
def apply (w : TrackedFrame) (f : Frame) (q : ℕ) (op : RetransmissionManager.Op) : TrackedFrame :=
  let (frames, manager) := w.manager.apply op
  ⟨manager, w.attempts.next f q op frames⟩

/-- All runs that follow the adding of a frame, until another frame is kept under its number. -/
def system (m : RetransmissionManager) (f : Frame) (q : ℕ) (now : Instant) :
    TransitionSystem TrackedFrame RetransmissionManager.Op where
  init w := w = ⟨m.addInFlightPacket f now, ⟨now, 0, false⟩⟩
  step w op w' := op.Spares q ∧ w.apply f q op = w'

end TrackedFrame

namespace RetransmissionManager

/-- The frame is kept under a number of its own, and the checks of every run send it again exactly
when the configuration says so. -/
def MakesReliable (m : RetransmissionManager) (f : Frame) (now : Instant) : Prop :=
  ∃ q i, RetransmissionFrameInfo.fromFrame f = some i ∧ (∀ j, ¬ m.Keeps q j) ∧
    (m.addInFlightPacket f now).Keeps q i ∧
    ∀ w, (TrackedFrame.system m f q now).Reachable w → ∀ rto t c,
      f.SentIn (w.manager.checkForRetransmissions rto t c).1 ↔
        w.attempts.Due (f.reliabilityModeWithConfig m.config) rto t

/-- What is kept under a number after these attempts. -/
inductive KeptAs (m : RetransmissionManager) (q : ℕ) (i : RetransmissionFrameInfo) :
    ReliabilityMode → Attempts → Prop where
  | settled {mode : ReliabilityMode} {last : Instant} {count : ℕ}
    (hsack : m.sackManager.inFlightPackets[q]? = none)
    (hsimple : m.simpleRetxManager.inFlightSimple[q]? = none) :
    KeptAs m q i mode ⟨last, count, true⟩
  | reliable {last : Instant} {count skipped : ℕ}
    (hsack : m.sackManager.inFlightPackets[q]? = some ⟨last, i, skipped⟩)
    (hsimple : m.simpleRetxManager.inFlightSimple[q]? = none) :
    KeptAs m q i .reliable ⟨last, count, false⟩
  | simple {last : Instant} {count n : ℕ} {d : Duration}
    (hsack : m.sackManager.inFlightPackets[q]? = none)
    (hsimple : m.simpleRetxManager.inFlightSimple[q]? = some ⟨i, last, count, n, d⟩) :
    KeptAs m q i (.simpleRetransmit n d) ⟨last, count, false⟩
  | exhausted {last : Instant} {count n : ℕ} {d : Duration}
    (hsack : m.sackManager.inFlightPackets[q]? = none)
    (hsimple : m.simpleRetxManager.inFlightSimple[q]? = none) (hn : n ≤ count) :
    KeptAs m q i (.simpleRetransmit n d) ⟨last, count, false⟩

variable {m : RetransmissionManager} {f : Frame} {q : ℕ} {i : RetransmissionFrameInfo}
  {mode : ReliabilityMode} {a : Attempts}

theorem KeptAs.info_eq (h : m.KeptAs q i mode a) {j : RetransmissionFrameInfo}
    (hj : m.Keeps q j) : j = i := by
  cases h with
  | settled hsack hsimple | exhausted hsack hsimple | reliable hsack hsimple
  | simple hsack hsimple =>
    simp [Keeps, SackManager.info?, SimpleRetransmissionManager.info?, hsack, hsimple] at hj <;>
      exact hj.symm

theorem sentIn_sack {numbers : List ℕ} {frames : List Frame} {c : RetransmissionContext}
    {now : Instant} (hm : m.KeepsNumbers) (hk : m.KeptAs q i mode a)
    (hq : f.trackedNumber = some q) (hi : RetransmissionFrameInfo.fromFrame f = some i)
    (h : RetransmissionFrameInfo.Rebuilt m.sackManager.info? c now numbers frames) :
    f.SentIn frames ↔ q ∈ numbers :=
  Frame.sentIn_iff_mem (fun k j hj => hm k j (Or.inl hj)) hq hi
    (fun _ hj => hk.info_eq (Or.inl hj)) h

theorem sentIn_simple {numbers : List ℕ} {frames : List Frame} {c : RetransmissionContext}
    {now : Instant} (hm : m.KeepsNumbers) (hk : m.KeptAs q i mode a)
    (hq : f.trackedNumber = some q) (hi : RetransmissionFrameInfo.fromFrame f = some i)
    (h : RetransmissionFrameInfo.Rebuilt m.simpleRetxManager.info? c now numbers frames) :
    f.SentIn frames ↔ q ∈ numbers :=
  Frame.sentIn_iff_mem (fun k j hj => hm k j (Or.inr hj)) hq hi
    (fun _ hj => hk.info_eq (Or.inr hj)) h

theorem KeptAs.sentIn_checkForRetransmissions (h : m.KeptAs q i mode a) (hm : m.KeepsNumbers)
    (hq : f.trackedNumber = some q) (hi : RetransmissionFrameInfo.fromFrame f = some i)
    (rto : Duration) (now : Instant) (c : RetransmissionContext) :
    f.SentIn (m.checkForRetransmissions rto now c).1 ↔ a.Due mode rto now := by
  have hsent : f.SentIn (m.checkForRetransmissions rto now c).1 ↔
      q ∈ m.sackManager.lateNumbers rto now ∨ q ∈ m.simpleRetxManager.retriedNumbers now := by
    rw [← sentIn_sack hm h hq hi (SackManager.rebuilt_checkForRto _ rto now c),
      ← sentIn_simple hm h hq hi
        (SimpleRetransmissionManager.rebuilt_checkForRetransmissions _ now c)]
    exact Frame.sentIn_append
  rw [hsent, SackManager.mem_lateNumbers, SimpleRetransmissionManager.mem_retriedNumbers]
  cases h with
  | @settled mode _ _ hsack hsimple => cases mode <;> simp [hsack, hsimple, Attempts.Due]
  | reliable hsack hsimple => simp [hsack, hsimple, Attempts.Due]
  | simple hsack hsimple => simp [hsack, hsimple, Attempts.Due]
  | exhausted hsack hsimple hn => simp [hsack, hsimple, Attempts.Due, hn]

theorem KeptAs.congr {m' : RetransmissionManager} (h : m.KeptAs q i mode a)
    (hsack : m'.sackManager.inFlightPackets[q]? = m.sackManager.inFlightPackets[q]?)
    (hsimple : m'.simpleRetxManager.inFlightSimple[q]? = m.simpleRetxManager.inFlightSimple[q]?) :
    m'.KeptAs q i mode a := by
  cases h with
  | settled hs hr => exact .settled (hsack.trans hs) (hsimple.trans hr)
  | reliable hs hr => exact .reliable (hsack.trans hs) (hsimple.trans hr)
  | simple hs hr => exact .simple (hsack.trans hs) (hsimple.trans hr)
  | exhausted hs hr hn => exact .exhausted (hsack.trans hs) (hsimple.trans hr) hn

theorem KeptAs.settle {m' : RetransmissionManager} (h : m.KeptAs q i mode a)
    (hsack : m'.sackManager.inFlightPackets[q]? = none)
    (hsimple : m'.simpleRetxManager.inFlightSimple[q]? = none) :
    m'.KeptAs q i mode { a with settled := true } := by
  cases h <;> exact .settled hsack hsimple

theorem KeptAs.addInFlightPacket {g : Frame} (h : m.KeptAs q i mode a)
    (hg : g.trackedNumber ≠ some q) (now : Instant) :
    (m.addInFlightPacket g now).KeptAs q i mode a := by
  unfold RetransmissionManager.addInFlightPacket
  split
  · exact h.congr (SackManager.getElem?_addInFlightPacket_of_ne hg now) rfl
  · exact h.congr rfl (SimpleRetransmissionManager.getElem?_addPacket_of_ne hg now)
  · exact h

theorem KeptAs.processAck (h : m.KeptAs q i mode a) (hm : m.KeepsNumbers)
    (hq : f.trackedNumber = some q) (hi : RetransmissionFrameInfo.fromFrame f = some i) (n : ℕ)
    (rs : List SackRange) (now : Instant) (c : RetransmissionContext) :
    (m.processAck n rs now c).2.KeptAs q i mode
      (a.next f q (.processAck n rs now c) (m.processAck n rs now c).1.framesToRetransmit) := by
  obtain ⟨resent, hacks⟩ := m.sackManager.acksExactly n rs now c
  have hsimple : (m.processAck n rs now c).2.simpleRetxManager.inFlightSimple[q]? =
      if AckNames n rs q then none else m.simpleRetxManager.inFlightSimple[q]? :=
    SimpleRetransmissionManager.getElem?_acknowledge
  have hsack : (m.processAck n rs now c).2.sackManager = (m.sackManager.processAck n rs now c).2 :=
    rfl
  by_cases hn : AckNames n rs q
  · rw [Attempts.next, if_pos (show Op.Settles q (.processAck n rs now c) from hn)]
    apply h.settle
    · rw [hsack, hacks.removed q hn]
    · rw [hsimple, if_pos hn]
  · rw [Attempts.next, if_neg (show ¬ Op.Settles q (.processAck n rs now c) from hn)]
    rw [if_neg hn] at hsimple
    obtain ⟨skipped, hkept⟩ := hacks.kept q hn
    rw [← hsack] at hkept
    have hrebuilt : RetransmissionFrameInfo.Rebuilt m.sackManager.info? c now resent
        (m.processAck n rs now c).1.framesToRetransmit := by
      refine hacks.frames_eq.imp ?_
      rintro k g ⟨-, p, hp, hg⟩
      exact ⟨p.frameInfo, by rw [SackManager.info?, hp]; rfl, hg⟩
    have hsent := sentIn_sack hm h hq hi hrebuilt
    -- Without a packet of the first manager nothing is sent again.
    have hnone (hs : m.sackManager.inFlightPackets[q]? = none) : q ∉ resent := by
      intro hr
      obtain ⟨j, hj⟩ := hrebuilt.kept_of_mem hr
      simp [SackManager.info?, hs] at hj
    cases h with
    | settled hs hr =>
      rw [hs] at hkept
      rw [if_neg (hsent.not.mpr (hnone hs))]
      exact .settled hkept (hsimple.trans hr)
    | reliable hs hr =>
      rw [hs, Option.map_some] at hkept
      by_cases hin : q ∈ resent
      · rw [if_pos (hsent.mpr hin)]
        rw [if_pos hin] at hkept
        exact .reliable hkept (hsimple.trans hr)
      · rw [if_neg (hsent.not.mpr hin)]
        rw [if_neg hin] at hkept
        exact .reliable hkept (hsimple.trans hr)
    | simple hs hr =>
      rw [hs] at hkept
      rw [if_neg (hsent.not.mpr (hnone hs))]
      exact .simple hkept (hsimple.trans hr)
    | exhausted hs hr hn =>
      rw [hs] at hkept
      rw [if_neg (hsent.not.mpr (hnone hs))]
      exact .exhausted hkept (hsimple.trans hr) hn

theorem KeptAs.checkForRetransmissions (h : m.KeptAs q i mode a) (hm : m.KeepsNumbers)
    (hq : f.trackedNumber = some q) (hi : RetransmissionFrameInfo.fromFrame f = some i)
    (rto : Duration) (now : Instant) (c : RetransmissionContext) :
    (m.checkForRetransmissions rto now c).2.KeptAs q i mode
      (a.next f q (.checkForRetransmissions rto now c)
        (m.checkForRetransmissions rto now c).1) := by
  have hsent := h.sentIn_checkForRetransmissions hm hq hi rto now c
  have hsack : (m.checkForRetransmissions rto now c).2.sackManager.inFlightPackets[q]? =
      m.sackManager.inFlightPackets[q]?.map fun p =>
        if now - p.lastSentAt > rto then { p with lastSentAt := now } else p :=
    SackManager.getElem?_checkForRto _ rto now c q
  have hsimple : (m.checkForRetransmissions rto now c).2.simpleRetxManager.inFlightSimple[q]? =
      m.simpleRetxManager.inFlightSimple[q]?.bind (·.checked now) :=
    SimpleRetransmissionManager.getElem?_checkForRetransmissions _ now c q
  rw [Attempts.next, if_neg (show ¬ Op.Settles q (.checkForRetransmissions rto now c) from id)]
  cases h with
  | @settled mode last count hs hr =>
    have hdue : ¬ Attempts.Due ⟨last, count, true⟩ mode rto now := by
      cases mode <;> simp [Attempts.Due]
    rw [if_neg (hsent.not.mpr hdue)]
    rw [hs] at hsack
    rw [hr] at hsimple
    exact .settled hsack hsimple
  | @reliable last count skipped hs hr =>
    rw [hs, Option.map_some] at hsack
    rw [hr] at hsimple
    dsimp only at hsack
    by_cases hlate : now - last > rto
    · rw [if_pos (hsent.mpr ⟨rfl, hlate⟩)]
      rw [if_pos hlate] at hsack
      exact .reliable hsack hsimple
    · rw [if_neg (hsent.not.mpr fun hdue => hlate hdue.2)]
      rw [if_neg hlate] at hsack
      exact .reliable hsack hsimple
  | @simple last count n d hs hr =>
    rw [hs] at hsack
    rw [hr, Option.bind_some, SimpleInFlightPacket.checked] at hsimple
    dsimp only at hsimple
    by_cases hover : now - last ≥ d
    · rw [if_pos hover] at hsimple
      by_cases hleft : count < n
      · rw [if_pos (hsent.mpr ⟨rfl, hover, hleft⟩)]
        rw [if_pos hleft] at hsimple
        exact .simple hsack hsimple
      · rw [if_neg (hsent.not.mpr fun hdue => hleft hdue.2.2)]
        rw [if_neg hleft] at hsimple
        exact .exhausted hsack hsimple (not_lt.mp hleft)
    · rw [if_neg (hsent.not.mpr fun hdue => hover hdue.2.1)]
      rw [if_neg hover] at hsimple
      exact .simple hsack hsimple
  | exhausted hs hr hn =>
    rw [if_neg (hsent.not.mpr fun hdue => absurd hdue.2.2 (not_lt.mpr hn))]
    rw [hs] at hsack
    rw [hr] at hsimple
    exact .exhausted hsack hsimple hn

theorem KeptAs.apply (h : m.KeptAs q i mode a) (hm : m.KeepsNumbers)
    (hq : f.trackedNumber = some q) (hi : RetransmissionFrameInfo.fromFrame f = some i) {op : Op}
    (hop : op.Spares q) :
    (m.apply op).2.KeptAs q i mode (a.next f q op (m.apply op).1) := by
  -- An operation that sends nothing and settles nothing is no attempt.
  have hquiet (op : Op) (hs : ¬ op.Settles q) : a.next f q op [] = a := by
    rw [Attempts.next, if_neg hs, if_neg Frame.sentIn_nil]
  cases op with
  | addInFlightPacket g now =>
    have hn := hquiet (.addInFlightPacket g now) id
    rw [RetransmissionManager.apply, hn]
    exact h.addInFlightPacket hop now
  | processAck n rs now c => exact h.processAck hm hq hi n rs now c
  | checkForRetransmissions rto now c => exact h.checkForRetransmissions hm hq hi rto now c
  | onAckElicitingPacketReceived =>
    have hn := hquiet .onAckElicitingPacketReceived id
    rw [RetransmissionManager.apply, hn]
    exact h.congr rfl rfl
  | onAckSent =>
    have hn := hquiet .onAckSent id
    rw [RetransmissionManager.apply, hn]
    exact h.congr rfl rfl
  | clear =>
    rw [Attempts.next, if_pos (show Op.Settles q .clear from trivial)]
    apply h.settle
    · simp [RetransmissionManager.apply, clear, SackManager.clear]
    · simp [RetransmissionManager.apply, clear, SimpleRetransmissionManager.clear]

/-- The mode as which a frame is kept. -/
def keptMode (config : Config) (f : Frame) : ReliabilityMode :=
  match f.reliabilityModeWithConfig config with
  | .simpleRetransmit _ _ => f.reliabilityMode
  | mode => mode

/-- A new frame is kept by the manager that its mode asks for. -/
theorem addInFlightPacket_cases (hq : f.trackedNumber = some q)
    (hi : RetransmissionFrameInfo.fromFrame f = some i)
    (hmode : f.reliabilityModeWithConfig m.config ≠ .bestEffort) (now : Instant) :
    keptMode m.config f = .reliable ∧
        (m.addInFlightPacket f now).sackManager.inFlightPackets[q]? = some ⟨now, i, 0⟩ ∧
        (m.addInFlightPacket f now).simpleRetxManager = m.simpleRetxManager ∨
      ∃ n d, keptMode m.config f = .simpleRetransmit n d ∧
        (m.addInFlightPacket f now).sackManager = m.sackManager ∧
        (m.addInFlightPacket f now).simpleRetxManager.inFlightSimple[q]? =
          some ⟨i, now, 0, n, d⟩ := by
  rw [addInFlightPacket, keptMode]
  cases hc : f.reliabilityModeWithConfig m.config with
  | reliable => exact Or.inl ⟨rfl, SackManager.getElem?_addInFlightPacket hq hi now, rfl⟩
  | simpleRetransmit n d =>
    -- A frame with a number that the second manager keeps has a built-in number of retries.
    obtain ⟨n', d', hf⟩ : ∃ n' d', f.reliabilityMode = .simpleRetransmit n' d' := by
      cases f with
      | push h p =>
        rw [Frame.reliabilityModeWithConfig_push] at hc
        cases hc
      | fin | pathChallenge | pathResponse => exact ⟨_, _, rfl⟩
      | ack | ping | syn | synAck => cases hq
    exact Or.inr ⟨n', d', hf, rfl, SimpleRetransmissionManager.getElem?_addPacket hq hi hf now⟩
  | bestEffort => exact absurd hc hmode

theorem keeps_addInFlightPacket_self (hq : f.trackedNumber = some q)
    (hi : RetransmissionFrameInfo.fromFrame f = some i)
    (hmode : f.reliabilityModeWithConfig m.config ≠ .bestEffort) (now : Instant) :
    (m.addInFlightPacket f now).Keeps q i := by
  rcases addInFlightPacket_cases hq hi hmode now with ⟨-, hs, -⟩ | ⟨n, d, -, -, hr⟩
  · exact Or.inl (by rw [SackManager.info?, hs]; rfl)
  · exact Or.inr (by rw [SimpleRetransmissionManager.info?, hr]; rfl)

theorem keptAs_addInFlightPacket (hq : f.trackedNumber = some q)
    (hi : RetransmissionFrameInfo.fromFrame f = some i) (hfree : ∀ j, ¬ m.Keeps q j)
    (hmode : f.reliabilityModeWithConfig m.config ≠ .bestEffort) (now : Instant) :
    (m.addInFlightPacket f now).KeptAs q i (keptMode m.config f) ⟨now, 0, false⟩ := by
  have hsack : m.sackManager.inFlightPackets[q]? = none := by
    rw [Option.eq_none_iff_forall_ne_some]
    intro p hp
    exact hfree p.frameInfo (Or.inl (by rw [SackManager.info?, hp]; rfl))
  have hsimple : m.simpleRetxManager.inFlightSimple[q]? = none := by
    rw [Option.eq_none_iff_forall_ne_some]
    intro p hp
    exact hfree p.frameInfo (Or.inr (by rw [SimpleRetransmissionManager.info?, hp]; rfl))
  rcases addInFlightPacket_cases hq hi hmode now with ⟨hk, hs, hr⟩ | ⟨n, d, hk, hs, hr⟩
  · rw [hk]
    exact .reliable hs (hr ▸ hsimple)
  · rw [hk]
    exact .simple (hs ▸ hsack) hr

end RetransmissionManager

namespace TrackedFrame

open RetransmissionManager

variable {m : RetransmissionManager} {f : Frame} {q : ℕ} {i : RetransmissionFrameInfo}
  {now : Instant} {w : TrackedFrame}

/-- In every run the frame stays kept as it was, or is settled or given up. -/
theorem keptAs (hm : m.KeepsNumbers) (hq : f.trackedNumber = some q)
    (hi : RetransmissionFrameInfo.fromFrame f = some i) (hfree : ∀ j, ¬ m.Keeps q j)
    (hmode : f.reliabilityModeWithConfig m.config ≠ .bestEffort)
    (h : (system m f q now).Reachable w) :
    w.manager.KeepsNumbers ∧ w.manager.KeptAs q i (keptMode m.config f) w.attempts := by
  have hinv : (system m f q now).Invariant fun w =>
      w.manager.KeepsNumbers ∧ w.manager.KeptAs q i (keptMode m.config f) w.attempts :=
    { init := by
        rintro _ rfl
        exact ⟨hm.apply (.addInFlightPacket f now),
          keptAs_addInFlightPacket hq hi hfree hmode now⟩
      step := by
        rintro w op _ - ⟨hn, hk⟩ ⟨hop, rfl⟩
        exact ⟨hn.apply op, hk.apply hn hq hi hop⟩ }
  exact hinv.holds h

theorem sentIn_iff_due (hm : m.KeepsNumbers) (hq : f.trackedNumber = some q)
    (hi : RetransmissionFrameInfo.fromFrame f = some i) (hfree : ∀ j, ¬ m.Keeps q j)
    (hmode : f.reliabilityModeWithConfig m.config ≠ .bestEffort)
    (h : (system m f q now).Reachable w) (rto : Duration) (t : Instant)
    (c : RetransmissionContext) : f.SentIn (w.manager.checkForRetransmissions rto t c).1 ↔
      w.attempts.Due (keptMode m.config f) rto t := by
  obtain ⟨hn, hk⟩ := keptAs hm hq hi hfree hmode h
  exact hk.sentIn_checkForRetransmissions hn hq hi rto t c

/-- A frame that is checked after every interval is sent again as often as its mode allows. -/
theorem exists_count {n : ℕ} {d : Duration}
    (hdue : ∀ w, (system m f q now).Reachable w → ∀ rto t c,
      f.SentIn (w.manager.checkForRetransmissions rto t c).1 ↔
        w.attempts.Due (.simpleRetransmit n d) rto t) {k : ℕ} (hk : k ≤ n) :
    ∃ w, (system m f q now).Reachable w ∧ w.attempts.settled = false ∧ w.attempts.count = k := by
  induction k with
  | zero => exact ⟨_, .init rfl, rfl, rfl⟩
  | succ k ih =>
    obtain ⟨w, hw, hs, hc⟩ := ih (by omega)
    let c : RetransmissionContext := ⟨0, 0, 0, 0, 0, 0⟩
    let t := w.attempts.lastSentAt + d
    let op : Op := .checkForRetransmissions 0 t c
    have hsent : f.SentIn (w.manager.checkForRetransmissions 0 t c).1 :=
      (hdue w hw 0 t c).mpr ⟨hs, (Nat.add_sub_cancel_left ..).ge, hc ▸ hk⟩
    have hnext : (w.apply f q op).attempts =
        { w.attempts with lastSentAt := t, count := w.attempts.count + 1 } := by
      rw [TrackedFrame.apply, RetransmissionManager.apply]
      dsimp only
      rw [Attempts.next, if_neg (show ¬ Op.Settles q op from id), if_pos hsent]
      rfl
    refine ⟨w.apply f q op, .step (i := op) hw ⟨trivial, rfl⟩, ?_⟩
    rw [hnext]
    exact ⟨hs, congrArg (· + 1) hc⟩

/-- Two schedules that every run obeys are the same, unless neither has any retries. -/
theorem schedule_unique {n n' : ℕ} {d d' : Duration} (hn' : 0 < n')
    (hdue : ∀ w, (system m f q now).Reachable w → ∀ rto t c,
      f.SentIn (w.manager.checkForRetransmissions rto t c).1 ↔
        w.attempts.Due (.simpleRetransmit n d) rto t)
    (hdue' : ∀ w, (system m f q now).Reachable w → ∀ rto t c,
      f.SentIn (w.manager.checkForRetransmissions rto t c).1 ↔
        w.attempts.Due (.simpleRetransmit n' d') rto t) : n = n' ∧ d = d' := by
  let c : RetransmissionContext := ⟨0, 0, 0, 0, 0, 0⟩
  have hiff {w : TrackedFrame} (hw : (system m f q now).Reachable w) (t : Instant) :
      w.attempts.Due (.simpleRetransmit n d) 0 t ↔ w.attempts.Due (.simpleRetransmit n' d') 0 t :=
    (hdue w hw 0 t c).symm.trans (hdue' w hw 0 t c)
  have hfirst {t : Instant} : (t - now ≥ d ∧ 0 < n) ↔ (t - now ≥ d' ∧ 0 < n') := by
    have h := hiff (.init rfl) t
    simpa only [Attempts.Due, true_and] using h
  obtain ⟨hd, hn⟩ : d ≤ d' ∧ 0 < n := by
    have h := (hfirst (t := now + d')).mpr ⟨(Nat.add_sub_cancel_left ..).ge, hn'⟩
    rwa [Nat.add_sub_cancel_left] at h
  obtain ⟨hd', -⟩ : d' ≤ d ∧ 0 < n' := by
    have h := (hfirst (t := now + d)).mp ⟨(Nat.add_sub_cancel_left ..).ge, hn⟩
    rwa [Nat.add_sub_cancel_left] at h
  refine ⟨le_antisymm ?_ ?_, le_antisymm hd hd'⟩
  · -- After all the retries of the second schedule the first one has none left.
    obtain ⟨w, hw, hs, hc⟩ := exists_count hdue' le_rfl
    by_contra! hlt
    have h := (hiff hw (w.attempts.lastSentAt + d)).mp
      ⟨hs, (Nat.add_sub_cancel_left ..).ge, hc ▸ hlt⟩
    exact absurd hc h.2.2.ne
  · obtain ⟨w, hw, hs, hc⟩ := exists_count hdue le_rfl
    by_contra! hlt
    have h := (hiff hw (w.attempts.lastSentAt + d')).mpr
      ⟨hs, (Nat.add_sub_cancel_left ..).ge, hc ▸ hlt⟩
    exact absurd hc h.2.2.ne

end TrackedFrame

namespace RetransmissionManager

variable {config : Config} {m : RetransmissionManager} {f : Frame}

/-- A frame that is not sent at best effort is made reliable exactly when it has a number that is
not in use and the configuration does not change its built-in interval and retries. -/
theorem makesReliable_iff (hm : (system config).Reachable m)
    (hmode : f.reliabilityModeWithConfig config ≠ .bestEffort) (now : Instant) :
    m.MakesReliable f now ↔
      (∃ q, f.trackedNumber = some q ∧ ∀ i, ¬ m.Keeps q i) ∧
        (f.reliabilityModeWithConfig config = .reliable ∨
          f.reliabilityModeWithConfig config = f.reliabilityMode) := by
  have hnumbers := keepsNumbers hm
  obtain rfl := config_eq hm
  constructor
  · rintro ⟨q, i, hi, hfree, hk, hdue⟩
    obtain ⟨hs, -⟩ := (keeps_addInFlightPacket hk).resolve_left (hfree i)
    have hq := Frame.trackedNumber_of_sequenceNumber hs hi
    refine ⟨⟨q, hq, hfree⟩, ?_⟩
    have hkept (w : TrackedFrame) (hw : (TrackedFrame.system m f q now).Reachable w)
        (rto : Duration) (t : Instant) (c : RetransmissionContext) :=
      TrackedFrame.sentIn_iff_due hnumbers hq hi hfree hmode hw rto t c
    cases hc : f.reliabilityModeWithConfig m.config with
    | reliable => exact Or.inl rfl
    | bestEffort => exact absurd hc hmode
    | simpleRetransmit n d =>
      right
      rw [keptMode, hc] at hkept
      rw [hc] at hdue
      cases f with
      | push h p =>
        rw [Frame.reliabilityModeWithConfig_push] at hc
        cases hc
      | fin | pathChallenge | pathResponse =>
        obtain ⟨rfl, rfl⟩ := TrackedFrame.schedule_unique (by omega) hdue hkept
        rfl
      | ack | ping | syn | synAck => cases hq
  · rintro ⟨⟨q, hq, hfree⟩, hc⟩
    obtain ⟨i, hi⟩ : ∃ i, RetransmissionFrameInfo.fromFrame f = some i := by
      cases f with
      | push | fin | pathChallenge | pathResponse => exact ⟨_, rfl⟩
      | ack | ping | syn | synAck => cases hq
    have hkept : keptMode m.config f = f.reliabilityModeWithConfig m.config := by
      rcases hc with hc | hc
      · rw [keptMode, hc]
      · rw [keptMode]
        split
        · exact hc.symm
        · rfl
    refine ⟨q, i, hi, hfree, keeps_addInFlightPacket_self hq hi hmode now, ?_⟩
    intro w hw rto t c
    rw [← hkept]
    exact TrackedFrame.sentIn_iff_due hnumbers hq hi hfree hmode hw rto t c

section Sample

def sampleFin : Frame := .newFin 1 5 0 0 0

/-- Two PUSH frames and a FIN have been kept, and the first is acknowledged. -/
def sampleOps : List Op :=
  [.addInFlightPacket (.newPush 1 0 0 256 0 [7]) 0, .addInFlightPacket (.newPush 1 3 0 256 0 [8]) 1,
    .addInFlightPacket (.newFin 1 4 0 0 0) 2, .processAck 1 [] 3 ⟨0, 1, 1, 2, 0, 256⟩]

theorem run_after (config : Config) (ops : List Op) :
    (system config).Run ops (ops.foldl (fun m op => (m.apply op).2) (new config)) := by
  induction ops using List.reverseRecOn with
  | nil => exact .init rfl
  | append_singleton ops op ih =>
    refine .step ih ?_
    simp [system]

/-- With the default configuration a FIN is sent again as configured, beside a PUSH and a FIN of
other numbers. -/
theorem makesReliable_sample : ∃ m, (system {}).Run sampleOps m ∧ m.sackManager.info? 0 = none ∧
    m.sackManager.info? 3 ≠ none ∧ m.simpleRetxManager.info? 4 ≠ none ∧
      m.MakesReliable sampleFin 10 := by
  obtain ⟨m, hr, hgone, hpush, hfin, hsack, hsimple⟩ : ∃ m, (system {}).Run sampleOps m ∧
      m.sackManager.info? 0 = none ∧ m.sackManager.info? 3 ≠ none ∧
        m.simpleRetxManager.info? 4 ≠ none ∧ m.sackManager.info? 5 = none ∧
          m.simpleRetxManager.info? 5 = none := ⟨_, run_after {} sampleOps, by decide⟩
  refine ⟨m, hr, hgone, hpush, hfin, ?_⟩
  refine (makesReliable_iff hr.reachable (by decide) 10).mpr ⟨⟨5, rfl, ?_⟩, Or.inr rfl⟩
  simp [Keeps, hsack, hsimple]

/-- A configuration under which control frames are sent again only once. -/
def oneRetry : Config := { reliability := { controlFrameMaxRetries := 1 } }

/-- A FIN that has been sent again once. -/
def retriedFin : TrackedFrame :=
  TrackedFrame.apply ⟨(new oneRetry).addInFlightPacket sampleFin 0, ⟨0, 0, false⟩⟩ sampleFin 5
    (.checkForRetransmissions 0 (Duration.fromMillis 500) ⟨0, 1, 1, 2, 0, 0⟩)

/-- A SYN is not kept at all, and a FIN is sent again more often than configured. -/
theorem configured_retries_ignored :
    (Frame.newSyn 1 2 0).reliabilityModeWithConfig {} ≠ .bestEffort ∧
      ¬ (new {}).MakesReliable (.newSyn 1 2 0) 0 ∧
      sampleFin.reliabilityModeWithConfig oneRetry ≠ .bestEffort ∧
      ¬ (new oneRetry).MakesReliable sampleFin 0 := by
  refine ⟨by decide, ?_, by decide, ?_⟩
  · rintro ⟨q, i, -, hfree, hk, -⟩
    rw [addInFlightPacket_of_sequenceNumber rfl] at hk
    exact hfree i hk
  · rintro ⟨q, i, hi, hfree, hk, hdue⟩
    obtain ⟨hq, -⟩ := (keeps_addInFlightPacket hk).resolve_left (hfree i)
    obtain rfl : 5 = q := Option.some.inj hq
    have hreach : (TrackedFrame.system (new oneRetry) sampleFin 5 0).Reachable retriedFin :=
      .step (i := .checkForRetransmissions 0 (Duration.fromMillis 500) ⟨0, 1, 1, 2, 0, 0⟩)
        (.init rfl) ⟨trivial, rfl⟩
    have hsent : sampleFin.SentIn (retriedFin.manager.checkForRetransmissions 0
        (Duration.fromMillis 1000) ⟨0, 1, 1, 2, 0, 0⟩).1 := by
      decide
    have hleft := ((hdue retriedFin hreach _ _ _).mp hsent).2.2
    have hcount : retriedFin.attempts.count = 1 := by decide
    rw [hcount] at hleft
    exact absurd hleft (by decide)

end Sample

end RetransmissionManager

end Kestrel
