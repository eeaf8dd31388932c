import Kestrel.Endpoint.Numbering

/-! # Conservation of bytes

The bytes a send buffer took are the payloads cut off it, in the order of their numbers, followed
by the bytes that still wait. Nothing an endpoint does loses a byte or changes the order.
-/

namespace Kestrel

/-- The payload that got a number, if any. -/
def Numbered.payload? : Numbered → Option Bytes
  | .push payload => some payload
  | .fin .. | .pathChallenge _ => none

@[simp] theorem filterMap_payload?_map_push (chunks : List Bytes) :
    (chunks.map Numbered.push).filterMap Numbered.payload? = chunks := by
  induction chunks with
  | nil => rfl
  | cons p chunks ih => exact congrArg (p :: ·) ih

namespace Endpoint

variable {C : Type} {t : Tick} {l : Label} {e e' : Endpoint C}

structure Conserved (e : Endpoint C) : Prop where
  packetized_eq : e.reliability.packetized = e.history.numbered.filterMap Numbered.payload?
  written_eq : 1 ≤ e.reliability.config.connection.maxPayloadSize →
    e.history.written = e.reliability.packetized.flatten ++ e.reliability.sendBuffer.bytes

theorem Conserved.createFin (h : e.Conserved) : (e.createFin t).2.Conserved := by
  unfold Endpoint.createFin
  split
  · constructor
    · dsimp only [ReliabilityLayer.nextSequenceNumber, ReliabilityLayer.trackFrameInFlight]
      rw [List.filterMap_append, h.packetized_eq]
      exact (List.append_nil _).symm
    · exact h.written_eq
  · exact h

theorem Conserved.write (h : e.Conserved) (data : Bytes) : (e.writeToStream data).Conserved := by
  constructor
  · exact h.packetized_eq
  · intro hm
    have hw := h.written_eq hm
    dsimp only [writeToStream, ReliabilityLayer.writeToStream]
    rw [hw, SendBuffer.bytes_writeToStream, List.append_assoc]

variable [CongestionControl C]

theorem Conserved.cut (h : e.Conserved) {chunks : List Bytes} {b : SendBuffer}
    (hp : Packetized (e.packetizerContext t) e.reliability.sendBuffer chunks b) :
    (e.cut t chunks b).Conserved := by
  constructor
  · dsimp only [Endpoint.cut]
    rw [List.filterMap_append, filterMap_payload?_map_push, h.packetized_eq]
  · intro hm
    have hw := h.written_eq hm
    have hb := hp.bytes_eq hm
    dsimp only [Endpoint.cut]
    rw [hw, hb, List.flatten_append, List.append_assoc]

theorem Act.conserved (h : Act t l e e') (hc : e.Conserved) : e'.Conserved := by
  cases h with
  | challenge a n hs hl =>
    constructor
    · dsimp only [emit, numberChallenge, ReliabilityLayer.nextSequenceNumber]
      rw [List.filterMap_append, hc.packetized_eq]
      exact (List.append_nil _).symm
    · exact hc.written_eq
  | write data hl => exact hc.write data
  | packetize chunks b lead bs hs hp hlead hb =>
    have hf := (hc.cut hp).createFin (t := t)
    exact ⟨hf.packetized_eq, hf.written_eq⟩
  | receive f a q p hl hf hs =>
    cases ha : e.reliability.recvBuffer.accepts q with
    | false =>
      rw [ReliabilityLayer.receive_eq_of_not_accepts ha]
      exact hc
    | true =>
      rw [ReliabilityLayer.receive_eq_of_accepts ha]
      exact ⟨hc.packetized_eq, hc.written_eq⟩
  | sendEof hl =>
    unfold Endpoint.sendEof
    split <;> exact ⟨hc.packetized_eq, hc.written_eq⟩
  | _ => exact ⟨hc.packetized_eq, hc.written_eq⟩

omit [CongestionControl C] in
theorem Created.conserved (h : e.Created) : e.Conserved := by
  have hnew (s : ConnectionState) (config : Config) (a : SocketAddr) (cid peer : ℕ) (cc : C)
      (now : Instant) : (newIn s config a cid peer cc now).Conserved := ⟨rfl, fun _ => rfl⟩
  cases h with
  | client config a cid cc data t =>
    cases data with
    | none => exact ⟨rfl, fun _ => rfl⟩
    | some data =>
      have hw := (hnew .connecting config a cid 0 cc t.now).write data
      exact ⟨hw.packetized_eq, hw.written_eq⟩
  | server config a cid peer cc t => exact ⟨rfl, fun _ => rfl⟩

end Endpoint

namespace Machine

open Endpoint

variable {C : Type} [CongestionControl C] {m : Machine C}

/-- In every run the bytes the send buffer took are the payloads cut off it and the bytes that
wait. -/
theorem conserved (h : (system C).Reachable m) : m.endpoint.Conserved := by
  have hinv : (system C).Invariant fun m => m.endpoint.Conserved :=
    invariant (fun e he => he.conserved) (fun t l e e' hc ha => ha.conserved hc)
      (fun t e hc => by
        obtain ⟨_, _, hd⟩ := deliver_eq (t := t) (e := e)
        rw [hd]
        exact ⟨hc.packetized_eq, hc.written_eq⟩)
      (fun e f hc => ⟨hc.packetized_eq, hc.written_eq⟩)
  exact hinv.holds h

end Machine

end Kestrel
