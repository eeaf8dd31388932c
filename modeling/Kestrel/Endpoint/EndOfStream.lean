import Kestrel.Endpoint.Settled
import Kestrel.Lib.Fifo

/-! # The end of the peer's stream

A FIN ends what the peer sends. It is taken out of the receive buffer only after everything before
it, and the change of state follows then or, in some states, when it arrives. The user's stream is
ended after all of it was handed over, or by a close.
-/

namespace Kestrel

/-- What the frames of a run have brought, with the numbers. -/
def offered (ls : List Label) : List (ℕ × PacketOrFin) :=
  ls.filterMap fun
    | .frame _ f _ => f.item?
    | _ => none

theorem offered_append (ls : List Label) (l : Label) :
    offered ls ⊆ offered (ls ++ [l]) := by
  unfold offered
  rw [List.filterMap_append]
  exact List.subset_append_left _ _

theorem mem_offered_frame {f : Frame} {q : ℕ} {p : PacketOrFin} (hf : f.item? = some (q, p))
    (ls : List Label) (t : Tick) (a : SocketAddr) :
    (q, p) ∈ offered (ls ++ [.frame t f a]) := by
  simp [offered, hf]

namespace ReceiveBuffer

variable {b : ReceiveBuffer}

theorem fin_reassemble {q : ℕ} (h : b.received[q]? = some .fin) :
    b.reassemble.2.2.finReached = true ∨ b.reassemble.2.2.received[q]? = some .fin := by
  unfold reassemble
  split
  · exact Or.inr h
  · generalize hl : reassembleLoop b.received.size b = r
    obtain ⟨data, finSeen, b'⟩ := r
    have hpop (d : List Bytes) (c : ReceiveBuffer) (p : Bytes) (c' : ReceiveBuffer)
        (hc : c.received[q]? = some .fin) (hp : c.tryPopNextContiguous = some (.push p, c')) :
        c'.received[q]? = some .fin := by
      obtain ⟨hf, rfl⟩ := tryPopNextContiguous_eq_some.mp hp
      have hn := (SortedMap.first_eq_some_iff.mp hf).1
      dsimp only
      rw [SortedMap.getElem?_erase, if_neg]
      · exact hc
      · rintro rfl
        rw [hc] at hn
        cases hn
    rcases reassembleLoop_rule (fun _ c => c.received[q]? = some .fin) hpop (d := []) h hl with
      ⟨-, hc⟩ | ⟨-, b₁, b₂, -, -, rfl⟩
    · exact Or.inr hc
    · exact Or.inl rfl

theorem reassemble_of_empty (h : b.received = ∅) : b.reassemble = (none, false, b) := by
  unfold reassemble
  split
  · rfl
  · rw [h, Std.ExtTreeMap.size_empty]
    rfl

/-- Reassembly goes through the numbers one by one: what it takes out was kept under them, and so
was a FIN that ends it. -/
theorem reassemble_in_order {n : ℕ} (hf : b.finReached = false)
    (hn : b.nextSequence = n % u32Size) :
    (∀ (q : ℕ) (p : PacketOrFin), b.reassemble.2.2.received[q]? = some p →
        b.received[q]? = some p) ∧
      (∀ (i : ℕ) (p : Bytes), (b.reassemble.1.getD [])[i]? = some p →
        b.received[(n + i) % u32Size]? = some (.push p)) ∧
      (b.reassemble.2.1 = false →
        b.reassemble.2.2.nextSequence = (n + (b.reassemble.1.getD []).length) % u32Size) ∧
      (b.reassemble.2.1 = true →
        b.received[(n + (b.reassemble.1.getD []).length) % u32Size]? = some .fin) := by
  rw [reassemble, hf, if_neg Bool.false_ne_true]
  generalize hl : reassembleLoop b.received.size b = r
  obtain ⟨data, finSeen, b'⟩ := r
  have hdata : (if data.isEmpty = true then none else some data : Option (List Bytes)).getD [] =
      data := by
    split
    · exact (List.isEmpty_iff.mp ‹_›).symm
    · rfl
  dsimp only
  rw [hdata]
  let Inv (d : List Bytes) (c : ReceiveBuffer) : Prop :=
    (∀ (q : ℕ) (p : PacketOrFin), c.received[q]? = some p → b.received[q]? = some p) ∧
      (∀ (i : ℕ) (p : Bytes), d[i]? = some p → b.received[(n + i) % u32Size]? = some (.push p)) ∧
      c.nextSequence = (n + d.length) % u32Size
  have hpop (c : ReceiveBuffer) (x : PacketOrFin) (c' : ReceiveBuffer)
      (hc : ∀ (q : ℕ) (p : PacketOrFin), c.received[q]? = some p → b.received[q]? = some p)
      (hp : c.tryPopNextContiguous = some (x, c')) :
      (∀ (q : ℕ) (p : PacketOrFin), c'.received[q]? = some p → b.received[q]? = some p) ∧
        b.received[c.nextSequence]? = some x ∧
          c'.nextSequence = (c.nextSequence + 1) % u32Size := by
    obtain ⟨hfirst, rfl⟩ := tryPopNextContiguous_eq_some.mp hp
    refine ⟨fun q p hq => hc q p ?_, hc _ _ (SortedMap.first_eq_some_iff.mp hfirst).1, rfl⟩
    dsimp only at hq
    rw [SortedMap.getElem?_erase] at hq
    split at hq
    · cases hq
    · exact hq
  have hstep (d : List Bytes) (c : ReceiveBuffer) (p : Bytes) (c' : ReceiveBuffer) (h : Inv d c)
      (hp : c.tryPopNextContiguous = some (.push p, c')) : Inv (d ++ [p]) c' := by
    obtain ⟨hc, hd, hnext⟩ := h
    obtain ⟨hc', hx, hnext'⟩ := hpop c _ c' hc hp
    rw [hnext] at hx hnext'
    refine ⟨hc', fun i p' hi => ?_, ?_⟩
    · rcases Fifo.getElem?_concat_eq_some.mp hi with hi | ⟨rfl, rfl⟩
      · exact hd i p' hi
      · exact hx
    · rw [hnext', List.length_append, List.length_singleton, Nat.mod_add_mod, Nat.add_assoc]
  have hstart : Inv [] b := ⟨fun _ _ h => h, by simp, hn⟩
  rcases reassembleLoop_rule Inv hstep hstart hl with ⟨rfl, hc, hd, hnext⟩ |
    ⟨rfl, b₁, b₂, ⟨hc, hd, hnext⟩, hp, rfl⟩
  · exact ⟨hc, hd, fun _ => hnext, by simp⟩
  · obtain ⟨-, hx, -⟩ := hpop b₁ _ b₂ hc hp
    rw [hnext] at hx
    exact ⟨by simp, hd, by simp, fun _ => hx⟩

end ReceiveBuffer

namespace ConnectionState

/-- The states a connection can be in after the peer's FIN was reached in order. -/
def AfterFin (s : ConnectionState) : Prop :=
  s = finWait ∨ s = closing ∨ s = closingWait ∨ s = closed

theorem AfterFin.gracefulShutdown {s : ConnectionState} (h : s.AfterFin) :
    s.gracefulShutdown.AfterFin := by
  rcases h with rfl | rfl | rfl | rfl <;> simp [ConnectionState.gracefulShutdown, clone, AfterFin]

end ConnectionState

namespace Endpoint

variable {C : Type} {t : Tick} {l : Label} {e e' : Endpoint C}

theorem AfterFin_arrival {s : ConnectionState} (h : s.AfterFin) : (arrival s).AfterFin := by
  rcases h with rfl | rfl | rfl | rfl <;> simp [arrival, ConnectionState.AfterFin]

theorem AfterFin_consumption {s : ConnectionState} (h : s.AfterFin) :
    (consumption s).AfterFin := by
  rcases h with rfl | rfl | rfl | rfl <;> simp [consumption, ConnectionState.AfterFin]

/-- A FIN has been received and waits for what comes before it, or was reached. -/
def FinReceived (e : Endpoint C) : Prop :=
  e.reliability.recvBuffer.finReached = true ∨
    ∃ q : ℕ, e.reliability.recvBuffer.received[q]? = some .fin

/-- The peer's FIN has ended its stream in the state of the connection. -/
def FinTaken (e : Endpoint C) : Prop := e.state = .finWait ∨ e.state = .closingWait

@[simp] theorem createFin_recvBuffer :
    (e.createFin t).2.reliability.recvBuffer = e.reliability.recvBuffer := by
  unfold createFin
  split <;> rfl

@[simp] theorem createFin_txToStream : (e.createFin t).2.txToStream = e.txToStream := by
  unfold createFin
  split <;> rfl

@[simp] theorem createFin_timing : (e.createFin t).2.timing = e.timing := by
  unfold createFin
  split <;> rfl

@[simp] theorem createFin_toStream : (e.createFin t).2.toStream = e.toStream := by
  unfold createFin
  split <;> rfl

variable [CongestionControl C]

theorem Act.recvBuffer (h : Act t l e e') :
    e'.reliability.recvBuffer = e.reliability.recvBuffer ∨
      ∃ f a q p, l = .frame t f a ∧ f.item? = some (q, p) ∧
        e'.reliability.recvBuffer = (e.reliability.recvBuffer.receive q p).2 := by
  cases h with
  | receive f a q p hl hf hs =>
    exact Or.inr ⟨f, a, q, p, hl, hf, ReliabilityLayer.receive_recvBuffer q p⟩
  | packetize chunks b lead bs hs hp hlead hb => exact Or.inl createFin_recvBuffer
  | sendEof hl =>
    unfold Endpoint.sendEof
    split <;> exact Or.inl rfl
  | _ => exact Or.inl rfl

theorem Act.finReached_eq (h : Act t l e e') :
    e'.reliability.recvBuffer.finReached = e.reliability.recvBuffer.finReached := by
  rcases h.recvBuffer with hb | ⟨f, a, q, p, -, -, hb⟩
  · rw [hb]
  · rw [hb, ReceiveBuffer.receive_finReached]

theorem Act.toStream_eq (h : Act t l e e') : e'.toStream = e.toStream := by
  cases h with
  | packetize chunks b lead bs hs hp hlead hb => exact createFin_toStream
  | sendEof hl =>
    unfold Endpoint.sendEof
    split <;> rfl
  | _ => rfl

/-- A connection that has reached the FIN does not go back. -/
theorem Act.afterFin (h : Act t l e e') (hs : e.state.AfterFin) : e'.state.AfterFin := by
  have hne (s : ConnectionState) (hn : ¬ s.AfterFin) (he : e.state = s) : False :=
    hn (he ▸ hs)
  cases h with
  | challenge a n he hl => exact (hne _ (by simp [ConnectionState.AfterFin]) he).elim
  | establish header a hl he => exact (hne _ (by simp [ConnectionState.AfterFin]) he).elim
  | accept data hl he => exact (hne _ (by simp [ConnectionState.AfterFin]) he).elim
  | pathValidated header challenge a n hl he =>
    exact (hne _ (by simp [ConnectionState.AfterFin]) he).elim
  | validationTimeout he =>
    rcases hs with hs | hs | hs | hs <;> rw [hs] at he <;> cases he
  | finArrived header a hl hr => exact AfterFin_arrival hs
  | finReached hl hr => exact AfterFin_consumption hs
  | shutdown hl => exact hs.gracefulShutdown
  | packetize chunks b lead bs hp hb hlead hf =>
    change ((e.cut t chunks b).createFin t).2.state.AfterFin
    rw [createFin_state]
    exact hs
  | sendEof hl =>
    unfold Endpoint.sendEof
    split <;> exact hs
  | forceClose hl => exact Or.inr (Or.inr (Or.inr rfl))
  | close hc => exact Or.inr (Or.inr (Or.inr rfl))
  | _ => exact hs

/-- Only a FIN that arrives or is reached makes the state say that the peer has finished. -/
theorem Act.finTaken (h : Act t l e e') (hs : e'.FinTaken) :
    e.FinTaken ∨
      (∃ header a, l = .frame t (.fin header) a ∧ e.state ≠ .established ∧
        e.reliability.recvBuffer.received[header.sequenceNumber]? = some .fin) ∨
      (∃ t, l = .followUp t) ∧ e.reliability.recvBuffer.finReached = true := by
  cases h with
  | challenge a n he hl => simp [FinTaken, emit] at hs
  | establish header a hl he => simp [FinTaken] at hs
  | accept data hl he => simp [FinTaken] at hs
  | pathValidated header challenge a n hl he => simp [FinTaken] at hs
  | validationTimeout he => simp [FinTaken] at hs
  | finArrived header a hl hr =>
    right
    left
    refine ⟨header, a, hl, fun he => ?_, hr⟩
    simp [FinTaken, he, arrival] at hs
  | finReached hl hr => exact Or.inr (Or.inr ⟨⟨t, hl⟩, hr⟩)
  | shutdown hl =>
    left
    unfold FinTaken beginGracefulShutdown at *
    cases he : e.state <;>
      simp [he, ConnectionState.gracefulShutdown, ConnectionState.clone] at hs ⊢
  | packetize chunks b lead bs hp hb hlead hf =>
    left
    unfold FinTaken at *
    rwa [show (((e.cut t chunks b).createFin t).2.emit t bs).state = e.state from
      createFin_state] at hs
  | sendEof hl =>
    left
    unfold Endpoint.sendEof at hs
    split at hs <;> exact hs
  | forceClose hl => simp [FinTaken] at hs
  | close hc => simp [FinTaken, release] at hs
  | _ => exact Or.inl hs

theorem Act.finReceived (h : Act t l e e') (hi : e.FinTaken → e.FinReceived)
    (hs : e'.FinTaken) : e'.FinReceived := by
  have hkeep : e.FinReceived → e'.FinReceived := by
    rintro (hr | ⟨q, hq⟩)
    · exact Or.inl (h.finReached_eq.trans hr)
    · right
      rcases h.recvBuffer with hb | ⟨f, a, k, p, -, -, hb⟩
      · exact ⟨q, by rw [hb, hq]⟩
      · exact ⟨q, by rw [hb, ReceiveBuffer.receive_keeps hq]⟩
  apply hkeep
  rcases h.finTaken hs with hs | ⟨header, a, -, -, hr⟩ | ⟨-, hr⟩
  · exact hi hs
  · exact Or.inr ⟨_, hr⟩
  · exact Or.inl hr

omit [CongestionControl C] in
theorem FinReceived.deliver (h : e.FinReceived) (t : Tick) : (e.deliver t).2.FinReceived := by
  obtain ⟨data, held, hd⟩ := deliver_eq (t := t) (e := e)
  rw [hd]
  rcases h with hr | ⟨q, hq⟩
  · left
    exact ReceiveBuffer.reassemble_fin.1.trans (by rw [hr, Bool.true_or])
  · rcases ReceiveBuffer.fin_reassemble hq with hr | hq
    · exact Or.inl hr
    · exact Or.inr ⟨q, hq⟩

/-- Nothing has been received before the SYN-ACK. -/
def NothingReceived (e : Endpoint C) : Prop :=
  e.reliability.recvBuffer.received = ∅ ∧ e.reliability.recvBuffer.finReached = false

theorem Act.nothingReceived (h : Act t l e e') (hi : e.state = .connecting → e.NothingReceived)
    (hs : e'.state = .connecting) : e'.NothingReceived := by
  have hc := h.connecting hs
  have hu := hi hc
  cases h with
  | receive f a q p hl hf htakes =>
    rw [hc] at htakes
    cases p <;> cases htakes
  | packetize chunks b lead bs hp hb hlead hf =>
    unfold NothingReceived
    change ((e.cut t chunks b).createFin t).2.reliability.recvBuffer.received = ∅ ∧
      ((e.cut t chunks b).createFin t).2.reliability.recvBuffer.finReached = false
    rw [createFin_recvBuffer]
    exact hu
  | sendEof hl =>
    unfold Endpoint.sendEof
    split <;> exact hu
  | _ => exact hu

omit [CongestionControl C] in
theorem NothingReceived.deliver (h : e.NothingReceived) (t : Tick) :
    (e.deliver t).2.NothingReceived := by
  obtain ⟨data, held, hd⟩ := deliver_eq (t := t) (e := e)
  rw [hd]
  unfold NothingReceived ReliabilityLayer.reassemble
  dsimp only
  rw [ReceiveBuffer.reassemble_of_empty h.1]
  exact h

omit [CongestionControl C] in
theorem Created.nothingReceived (h : e.Created) : e.NothingReceived := by
  cases h with
  | client config a cid cc data t => cases data <;> exact ⟨rfl, rfl⟩
  | server config a cid peer cc t => exact ⟨rfl, rfl⟩

/-- If the FIN was reached, the state says so. -/
def Agrees (e : Endpoint C) : Prop :=
  e.reliability.recvBuffer.finReached = true → e.state.AfterFin

theorem Act.agrees (h : Act t l e e') (hi : e.Agrees) : e'.Agrees := fun hr =>
  h.afterFin (hi (h.finReached_eq ▸ hr))

omit [CongestionControl C] in
/-- Reaching the FIN changes the state in every state but those of a path validation. -/
theorem Agrees.finTransition (h : e.Agrees) (hc : e.state = .connecting → e.NothingReceived)
    (hv : e.state.isValidatingPath = true → e.reliability.reassemble.2.1 = false) :
    ((e.deliver t).2.finTransition (e.deliver t).1).Agrees := by
  obtain ⟨data, held, hd⟩ := deliver_eq (t := t) (e := e)
  have hstate : (e.deliver t).2.state = e.state := by rw [hd]
  have hspec := (ReceiveBuffer.reassemble_fin (b := e.reliability.recvBuffer)).1
  have hbuf : (e.deliver t).2.reliability.recvBuffer =
      e.reliability.recvBuffer.reassemble.2.2 := by
    rw [hd]
    rfl
  have hseen : (e.deliver t).1 = e.reliability.recvBuffer.reassemble.2.1 := by
    rw [hd]
    rfl
  intro hr
  rw [finTransition_eq] at hr ⊢
  dsimp only at hr ⊢
  rw [hbuf, hspec, Bool.or_eq_true] at hr
  rw [hstate, hseen]
  split
  · rename_i hs
    cases hst : e.state with
    | connecting =>
      rw [ReceiveBuffer.reassemble_of_empty (hc hst).1] at hs
      cases hs
    | validatingPath a n c =>
      have hno := hv (by rw [hst]; rfl)
      exact absurd (hs.symm.trans hno) (by simp)
    | _ => simp [consumption, ConnectionState.AfterFin]
  · rename_i hs
    exact h (hr.resolve_right hs)

/-- The end of the user's stream is due only after the FIN was reached. -/
def EofDue (e : Endpoint C) : Prop :=
  e.timing.finPendingEof = true → e.reliability.recvBuffer.finReached = true

theorem Act.eofDue (h : Act t l e e') (hi : e.EofDue) : e'.EofDue := by
  intro hp
  rw [h.finReached_eq]
  apply hi
  cases h with
  | packetize chunks b lead bs hs hb hlead hf =>
    change ((e.cut t chunks b).createFin t).2.timing.finPendingEof = true at hp
    rw [createFin_timing] at hp
    exact hp
  | sendEof hl =>
    unfold Endpoint.sendEof at hp
    split at hp
    · cases hp
    · exact hp
  | _ => exact hp

omit [CongestionControl C] in
theorem EofDue.deliver (h : e.EofDue) (t : Tick) : (e.deliver t).2.EofDue := by
  obtain ⟨data, held, hd⟩ := deliver_eq (t := t) (e := e)
  have hspec := (ReceiveBuffer.reassemble_fin (b := e.reliability.recvBuffer)).1
  rw [hd]
  intro hp
  dsimp only [ReliabilityLayer.reassemble] at hp ⊢
  rw [hspec, Bool.or_eq_true]
  rw [Bool.or_eq_true] at hp
  exact hp.imp_left h

theorem Act.held (h : Act t l e e') (he : e'.txToStream = true) : e.txToStream = true := by
  cases h with
  | packetize chunks b lead bs hs hb hlead hf =>
    change ((e.cut t chunks b).createFin t).2.txToStream = true at he
    rw [createFin_txToStream] at he
    exact he
  | endStream hl hs hb => cases he
  | close hc => cases he
  | sendEof hl =>
    unfold Endpoint.sendEof at he
    split at he
    · cases he
    · exact he
  | _ => exact he

/-- Besides a close command, only the end of the connection and the end of the peer's stream make
the endpoint let go of the user's stream. -/
theorem Act.letGo (h : Act t l e e') (hl : l ≠ .command t .close) (hi : e.EofDue)
    (he : e.txToStream = false →
      e.state = .closed ∨ l = .followUp t ∧ e.reliability.recvBuffer.finReached = true)
    (he' : e'.txToStream = false) :
    e'.state = .closed ∨ l = .followUp t ∧ e'.reliability.recvBuffer.finReached = true := by
  have hkeep (hx : e.txToStream = false) : e'.state = .closed ∨
      l = .followUp t ∧ e'.reliability.recvBuffer.finReached = true := by
    rw [h.finReached_eq]
    exact (he hx).imp_left h.closed
  cases h with
  | packetize chunks b lead bs hs hb hlead hf =>
    apply hkeep
    change ((e.cut t chunks b).createFin t).2.txToStream = false at he'
    rw [createFin_txToStream] at he'
    exact he'
  | endStream hc hs hb => exact absurd hc hl
  | close hc => exact Or.inl rfl
  | sendEof hf =>
    unfold Endpoint.sendEof at he' hkeep ⊢
    split
    · rename_i hp
      rw [Bool.and_eq_true, Bool.and_eq_true] at hp
      exact Or.inr ⟨hf, hi hp.1.1⟩
    · rename_i hp
      rw [if_neg hp] at he' hkeep
      exact hkeep he'
  | _ => exact hkeep he'

/-- What was received is what the run offered; what was taken out has the numbers from zero on, a
FIN the next one, and went to the user's stream as long as it is held. -/
structure HandedOver (ls : List Label) (e : Endpoint C) (taken : List Bytes) : Prop where
  buffered : ∀ (q : ℕ) (p : PacketOrFin),
    e.reliability.recvBuffer.received[q]? = some p → (q, p) ∈ offered ls
  taken_mem : ∀ i p, taken[i]? = some p → (i % u32Size, .push p) ∈ offered ls
  next_eq : e.reliability.recvBuffer.finReached = false →
    e.reliability.recvBuffer.nextSequence = taken.length % u32Size
  fin_mem : e.reliability.recvBuffer.finReached = true →
    (taken.length % u32Size, .fin) ∈ offered ls
  stream_eq : e.txToStream = true → e.toStream.flatten = taken

omit [CongestionControl C] in
theorem HandedOver.mono {ls ls' : List Label} {taken : List Bytes} (h : HandedOver ls e taken)
    (hl : offered ls ⊆ offered ls') : HandedOver ls' e taken where
  buffered q p hq := hl (h.buffered q p hq)
  taken_mem i p hi := hl (h.taken_mem i p hi)
  next_eq := h.next_eq
  fin_mem hf := hl (h.fin_mem hf)
  stream_eq := h.stream_eq

omit [CongestionControl C] in
theorem Created.handedOver (h : e.Created) : HandedOver [] e [] := by
  obtain ⟨hempty, hno⟩ := h.nothingReceived
  constructor
  · simp [hempty]
  · simp
  · intro _
    cases h with
    | client config a cid cc data t => cases data <;> rfl
    | server config a cid peer cc t => rfl
  · intro hf
    rw [hno] at hf
    cases hf
  · intro _
    cases h with
    | client config a cid cc data t => cases data <;> rfl
    | server config a cid peer cc t => rfl

theorem HandedOver.act {ls : List Label} {taken : List Bytes} (hi : HandedOver ls e taken)
    (h : Act t l e e')
    (hl : ∀ f a q p, l = .frame t f a → f.item? = some (q, p) → (q, p) ∈ offered ls) :
    HandedOver ls e' taken := by
  have hfin := h.finReached_eq
  have hnext : e'.reliability.recvBuffer.nextSequence =
      e.reliability.recvBuffer.nextSequence := by
    rcases h.recvBuffer with hb | ⟨f, a, q, p, -, -, hb⟩
    · rw [hb]
    · rw [hb, ReceiveBuffer.receive_nextSequence]
  constructor
  · intro q p hq
    rcases h.recvBuffer with hb | ⟨f, a, k, x, hf, hx, hb⟩
    · rw [hb] at hq
      exact hi.buffered q p hq
    · rw [hb] at hq
      rcases ReceiveBuffer.receive_getElem? hq with hq | ⟨rfl, rfl, -⟩
      · exact hi.buffered q p hq
      · exact hl f a _ _ hf hx
  · exact hi.taken_mem
  · rw [hfin, hnext]
    exact hi.next_eq
  · rw [hfin]
    exact hi.fin_mem
  · intro he
    rw [h.toStream_eq]
    exact hi.stream_eq (h.held he)

omit [CongestionControl C] in
theorem deliver_stream (h : (e.deliver t).2.txToStream = true) : e.txToStream = true ∧
    (e.deliver t).2.toStream.flatten =
      e.toStream.flatten ++ e.reliability.recvBuffer.reassemble.1.getD [] := by
  unfold Endpoint.deliver ReliabilityLayer.reassemble at h ⊢
  dsimp only at h ⊢
  split at h
  · rename_i hn
    rw [if_pos hn]
    have he : e.txToStream = true := h
    rw [he, Bool.not_true, Bool.or_false] at hn
    rw [List.isEmpty_iff.mp hn, List.append_nil]
    exact ⟨he, rfl⟩
  · rename_i hn
    rw [if_neg hn]
    simp only [Bool.or_eq_true, Bool.not_eq_true', not_or, Bool.not_eq_false] at hn
    split at h
    · rename_i ho
      rw [if_pos ho]
      simp [hn.2]
    · cases h

omit [CongestionControl C] in
theorem streamOpen_of_deliver (he : e.txToStream = true) (h : (e.deliver t).2.txToStream = false) :
    t.streamOpen = false := by
  unfold Endpoint.deliver at h
  dsimp only at h
  split at h
  · rw [he] at h
    cases h
  · split at h
    · rw [he] at h
      cases h
    · rename_i ho
      exact Bool.eq_false_iff.mpr ho

omit [CongestionControl C] in
theorem HandedOver.deliver {ls : List Label} {taken : List Bytes} (h : HandedOver ls e taken) :
    ∃ taken', HandedOver ls (e.deliver t).2 taken' := by
  have hstream := deliver_stream (t := t) (e := e)
  obtain ⟨data, held, hd⟩ := deliver_eq (t := t) (e := e)
  rw [hd] at hstream ⊢
  have hspec := (ReceiveBuffer.reassemble_fin (b := e.reliability.recvBuffer)).1
  refine ⟨taken ++ e.reliability.recvBuffer.reassemble.1.getD [], ?_⟩
  cases hf : e.reliability.recvBuffer.finReached with
  | true =>
    have hr : e.reliability.recvBuffer.reassemble = (none, false, e.reliability.recvBuffer) :=
      if_pos hf
    dsimp only [ReliabilityLayer.reassemble] at hstream ⊢
    rw [hr] at hstream ⊢
    rw [Option.getD_none, List.append_nil] at hstream ⊢
    refine { h with stream_eq := fun he => ?_ }
    obtain ⟨he, hs⟩ := hstream he
    exact hs.trans (h.stream_eq he)
  | false =>
    obtain ⟨hbuf, htaken, hnext, hfin⟩ := ReceiveBuffer.reassemble_in_order hf (h.next_eq hf)
    rw [hf, Bool.false_or] at hspec
    constructor
    · exact fun q p hq => h.buffered q p (hbuf q p hq)
    · intro i p hi
      rcases lt_or_ge i taken.length with hlt | hge
      · rw [List.getElem?_append_left hlt] at hi
        exact h.taken_mem i p hi
      · rw [List.getElem?_append_right hge] at hi
        have hm := h.buffered _ _ (htaken _ p hi)
        rwa [Nat.add_sub_cancel' hge] at hm
    · intro hn
      rw [List.length_append]
      exact hnext (hspec.symm.trans hn)
    · intro hn
      rw [List.length_append]
      exact h.buffered _ _ (hfin (hspec.symm.trans hn))
    · intro he
      obtain ⟨he, hs⟩ := hstream he
      rw [← h.stream_eq he]
      exact hs

theorem Act.established (header : ShortHeader) (h : Act t l e e')
    (hl : l = .frame t (.fin header) e.remoteAddr) (hs : e.state = .established) :
    e'.state = .established ∧ e'.remoteAddr = e.remoteAddr := by
  subst hl
  have hne (s : ConnectionState) (hn : s ≠ .established) (he : e.state = s) : False :=
    hn (he ▸ hs)
  cases h with
  | challenge a n he hl =>
    rcases hl with ⟨f, hl, ha⟩ | hl
    · cases hl
      exact absurd rfl ha
    · cases hl
  | pathValidated header challenge a n hl he => cases hl
  | validationTimeout he =>
    rw [hs] at he
    cases he
  | finArrived header a hl hr => simp [hs, arrival]
  | packetize chunks b lead bs hp hb hlead hf => cases hp
  | establish header a hl he => cases hl
  | accept data hl he => cases hl
  | finReached hl hr => cases hl
  | shutdown hl => cases hl
  | endStream hl he hb => cases hl
  | forceClose hl => cases hl
  | sendEof hl => cases hl
  | close hc =>
    rcases hc with hc | ⟨hc, -⟩ | ⟨hc, -⟩
    · exact (hne _ (by simp) hc).elim
    · cases hc
    · cases hc
  | _ => exact ⟨hs, rfl⟩

omit [CongestionControl C] in
/-- A shutdown lets go of the user's stream before the connection is closed only if nothing has
been sent yet and nothing waits. -/
theorem letGo_shutdown (he : e.txToStream = true) (he' : e.shutdown.txToStream = false) :
    e.shutdown.state = .closed ∨
      e.state = .synReceived ∧ e.reliability.isSendBufferEmpty = true := by
  rcases shutdown_cases (e := e) with ⟨-, h⟩ | ⟨hs, hb, -⟩ | ⟨-, -, h⟩
  · rw [h] at he' ⊢
    unfold shutdownGracefully at he' ⊢
    dsimp only at he' ⊢
    split
    · rename_i hc
      exact Or.inl hc
    · rename_i hc
      rw [if_neg hc] at he'
      exact absurd (he.symm.trans he') (by simp)
  · exact Or.inr ⟨hs, hb⟩
  · rw [h]
    exact Or.inl rfl

theorem letGo_close (he : e.txToStream = true)
    (he' : (Outcome.last (e.close t)).txToStream = false) :
    (Outcome.last (e.close t)).state = .closed ∨
      e.state = .synReceived ∧ e.reliability.isSendBufferEmpty = true := by
  have hsend : (Outcome.last (e.shutdown.packetizeAndSend t)).txToStream =
      e.shutdown.txToStream := by
    obtain ⟨chunks, b, bs, hp, -, h⟩ := packetizeAndSend_eq (t := t) (e := e.shutdown)
    rw [h, last_sending]
    exact createFin_txToStream
  unfold Endpoint.close at he' ⊢
  dsimp only at he' ⊢
  split
  · rename_i hc
    exact Or.inl hc
  · rename_i hc
    rw [if_neg hc, hsend] at he'
    exact Or.inr ((letGo_shutdown he he').resolve_left hc)

end Endpoint

namespace Machine

open Endpoint

variable {C : Type} [CongestionControl C] {m m' : Machine C} {l : Label} {ls : List Label}

/-- In this step the FIN is not reached while a path is validated. -/
def ReachedOutsideValidation (m : Machine C) : Label → Prop
  | .followUp _ =>
    m.endpoint.state.isValidatingPath = true → m.endpoint.reliability.reassemble.2.1 = false
  | _ => True

theorem nothingReceived (h : (system C).Reachable m) (hs : m.endpoint.state = .connecting) :
    m.endpoint.NothingReceived := by
  have hinv : (system C).Invariant fun m =>
      m.endpoint.state = .connecting → m.endpoint.NothingReceived :=
    invariant (P := fun e => e.state = .connecting → e.NothingReceived)
      (fun e he _ => he.nothingReceived)
      (fun t l e e' hu ha => ha.nothingReceived hu)
      (fun t e hu hs => by
        have hstate : (e.deliver t).2.state = e.state := by
          obtain ⟨_, _, hd⟩ := deliver_eq (t := t) (e := e)
          rw [hd]
        exact (hu (hstate ▸ hs)).deliver t)
      (fun e f hu => hu)
  exact hinv.holds h hs

theorem finReceived (h : (system C).Reachable m) (hs : m.endpoint.FinTaken) :
    m.endpoint.FinReceived := by
  have hinv : (system C).Invariant fun m => m.endpoint.FinTaken → m.endpoint.FinReceived :=
    invariant (P := fun e => e.FinTaken → e.FinReceived)
      (fun e he hs => by
        rcases hs with hs | hs <;> rcases he.opening with ho | ho <;> rw [hs] at ho <;> cases ho)
      (fun t l e e' hr ha => ha.finReceived hr)
      (fun t e hr hs => by
        have hstate : (e.deliver t).2.state = e.state := by
          obtain ⟨_, _, hd⟩ := deliver_eq (t := t) (e := e)
          rw [hd]
        unfold FinTaken at hs
        rw [hstate] at hs
        exact (hr hs).deliver t)
      (fun e f hr => hr)
  exact hinv.holds h hs

theorem eofDue (h : (system C).Reachable m) : m.endpoint.EofDue := by
  have hinv : (system C).Invariant fun m => m.endpoint.EofDue :=
    invariant
      (fun e he => by
        cases he with
        | client config a cid cc data t => cases data <;> exact fun h => nomatch h
        | server config a cid peer cc t => exact fun h => nomatch h)
      (fun t l e e' hi ha => ha.eofDue hi)
      (fun t e hi => hi.deliver t)
      (fun e f hi => hi)
  exact hinv.holds h

/-- A step that reaches the FIN only outside of a path validation keeps state and FIN agreed. -/
theorem agrees_step (hr : (system C).Reachable m) (hi : m.endpoint.Agrees)
    (hn : m.next l = some m') (hv : ReachedOutsideValidation m l) : m'.endpoint.Agrees := by
  have hopen (hl : ∀ t, l ≠ .followUp t) : m'.endpoint.Agrees := by
    rcases acts_of_next hn with ⟨t, -, ha⟩ | ⟨id, now, -, rfl⟩ | ⟨id, -, rfl⟩
    · have hm : (m.opening l).Agrees := by
        cases l with
        | followUp t => exact absurd rfl (hl t)
        | _ => exact hi
      exact ha.preserves (fun e e' he ha => ha.agrees he) hm
    · exact hi
    · exact hi
  cases l with
  | followUp t =>
    simp only [next, Option.ite_none_right_eq_some, Option.some.injEq] at hn
    rw [← hn.2]
    have hfin : ((m.endpoint.deliver t).2.finTransition (m.endpoint.deliver t).1).Agrees :=
      hi.finTransition (nothingReceived hr) hv
    exact (acts_afterFin (t := t) rfl).preserves (fun e e' he ha => ha.agrees he) hfin
  | _ => exact hopen (by simp)

theorem agrees (h : (systemWith (C := C) ReachedOutsideValidation).Reachable m) :
    m.endpoint.Agrees := by
  have hinv : (systemWith (C := C) ReachedOutsideValidation).Invariant fun m =>
      m.endpoint.Agrees :=
    { init := fun m hm hr => by
        rw [hm.2.nothingReceived.2] at hr
        cases hr
      step := fun m l m' hr hm hs => agrees_step hr.of_restrict hm hs.1 hs.2 }
  exact hinv.holds h

theorem handedOver (h : (system C).Run ls m) : ∃ taken, HandedOver ls m.endpoint taken := by
  induction h with
  | init h => exact ⟨[], h.2.handedOver⟩
  | @step ls m m' l _ hs ih =>
    obtain ⟨taken, hi⟩ := ih
    have hold : HandedOver (ls ++ [l]) m.endpoint taken := hi.mono (offered_append ls l)
    rcases acts_of_next hs with ⟨t, -, ha⟩ | ⟨id, now, -, rfl⟩ | ⟨id, -, rfl⟩
    · obtain ⟨taken', hm⟩ : ∃ taken', HandedOver (ls ++ [l]) (m.opening l) taken' := by
        cases l with
        | followUp t => exact hold.deliver
        | _ => exact ⟨taken, hold⟩
      have hact (e e' : Endpoint C) (he : HandedOver (ls ++ [l]) e taken') (ha : Act t l e e') :
          HandedOver (ls ++ [l]) e' taken' := by
        apply he.act ha
        rintro f a q p rfl hf
        exact mem_offered_frame hf ls t a
      exact ⟨taken', ha.preserves hact hm⟩
    · exact ⟨taken, { hold with }⟩
    · exact ⟨taken, { hold with }⟩

/-- The FIN was reached, and the user's stream was given what the run brought under the numbers
before it, from zero on. -/
structure StreamComplete (ls : List Label) (e : Endpoint C) : Prop where
  reached : e.reliability.recvBuffer.finReached = true
  delivered : ∀ i p, e.toStream.flatten[i]? = some p → (i % u32Size, .push p) ∈ offered ls
  fin : (e.toStream.flatten.length % u32Size, .fin) ∈ offered ls

/-- How the FIN, the state and the end of the user's stream go together. -/
structure FinConsumption (ls : List Label) (m : Machine C) : Prop where
  agrees : (systemWith (C := C) ReachedOutsideValidation).Run ls m →
    m.endpoint.reliability.recvBuffer.finReached = true → m.endpoint.state.AfterFin
  received : m.endpoint.FinTaken → m.endpoint.FinReceived
  waits : ∀ l m', m.next l = some m' → m.endpoint.state = .established →
    m'.endpoint.state = .finWait →
      (∃ t, l = .followUp t) ∧ m'.endpoint.reliability.recvBuffer.finReached = true ∨
        ∃ t header a, l = .frame t (.fin header) a ∧ a ≠ m.endpoint.remoteAddr
  ended : ∀ l m', m.next l = some m' → m.endpoint.txToStream = true →
    m'.endpoint.txToStream = false →
      StreamComplete (ls ++ [l]) m'.endpoint ∨ (∃ t, l = .followUp t ∧ t.streamOpen = false) ∨
        m'.endpoint.state = .closed ∨
          (∃ t, l = .command t .close) ∧ m.endpoint.state = .synReceived ∧
            m.endpoint.reliability.isSendBufferEmpty = true

/-- From the established state a step leads to the state of a finished peer when it reaches the
FIN, or with a FIN from another address. -/
theorem waits (hn : m.next l = some m') (hs : m.endpoint.state = .established)
    (hs' : m'.endpoint.state = .finWait) :
    (∃ t, l = .followUp t) ∧ m'.endpoint.reliability.recvBuffer.finReached = true ∨
      ∃ t header a, l = .frame t (.fin header) a ∧ a ≠ m.endpoint.remoteAddr := by
  rcases acts_of_next hn with ⟨t, -, ha⟩ | ⟨id, now, -, rfl⟩ | ⟨id, -, rfl⟩
  · have hopen : (m.opening l).state = .established := by
      cases l with
      | followUp t =>
        obtain ⟨_, _, hd⟩ := deliver_eq (t := t) (e := m.endpoint)
        unfold opening
        dsimp only
        rw [hd]
        exact hs
      | _ => exact hs
    by_cases hfin : ∃ header a, l = .frame t (.fin header) a
    · obtain ⟨header, a, rfl⟩ := hfin
      right
      refine ⟨t, header, a, rfl, fun haddr => ?_⟩
      have hstay := ha.preserves
        (P := fun e => e.state = .established ∧ e.remoteAddr = m.endpoint.remoteAddr)
        (fun e e' he ha => by
          have hk := ha.established header (by rw [haddr, he.2]) he.1
          exact ⟨hk.1, hk.2.trans he.2⟩) ⟨hs, rfl⟩
      rw [hs'] at hstay
      cases hstay.1
    · left
      have htaken := ha.preserves
        (P := fun e => e.FinTaken → (∃ t, l = .followUp t) ∧
          e.reliability.recvBuffer.finReached = true)
        (fun e e' he ha hf => by
          rw [ha.finReached_eq]
          rcases ha.finTaken hf with hf | ⟨header, a, hl, -⟩ | hr
          · exact he hf
          · exact absurd ⟨header, a, hl⟩ hfin
          · exact hr)
        (fun hf => by rcases hf with hf | hf <;> rw [hopen] at hf <;> cases hf)
      exact htaken (Or.inl hs')
  · exact absurd (hs.symm.trans hs') (by simp)
  · exact absurd (hs.symm.trans hs') (by simp)

/-- The user's stream is let go when it is complete, when it no longer listens, when the connection
is closed, or by a close before anything was sent. -/
theorem ended (h : (system C).Run ls m) (hn : m.next l = some m')
    (he : m.endpoint.txToStream = true) (he' : m'.endpoint.txToStream = false) :
    StreamComplete (ls ++ [l]) m'.endpoint ∨ (∃ t, l = .followUp t ∧ t.streamOpen = false) ∨
      m'.endpoint.state = .closed ∨
        (∃ t, l = .command t .close) ∧ m.endpoint.state = .synReceived ∧
          m.endpoint.reliability.isSendBufferEmpty = true := by
  have hletGo {t : Tick} {e : Endpoint C} (hl : l ≠ .command t .close) (hdue : e.EofDue)
      (hx : e.txToStream = true) (ha : Acts t l e m'.endpoint) : m'.endpoint.state = .closed ∨
        l = .followUp t ∧ m'.endpoint.reliability.recvBuffer.finReached = true := by
    have hp := ha.preserves
      (P := fun e => e.EofDue ∧ (e.txToStream = false → e.state = .closed ∨
        l = .followUp t ∧ e.reliability.recvBuffer.finReached = true))
      (fun e e' he ha => ⟨ha.eofDue he.1, ha.letGo hl he.1 he.2⟩)
      ⟨hdue, fun hn => by rw [hx] at hn; cases hn⟩
    exact hp.2 he'
  have hdue := eofDue h.reachable
  have hother (hf : ∀ t, l ≠ .followUp t) (hc : ∀ t, l ≠ .command t .close) :
      m'.endpoint.state = .closed := by
    rcases acts_of_next hn with ⟨t, -, ha⟩ | ⟨id, now, -, rfl⟩ | ⟨id, -, rfl⟩
    · have hopen : m.opening l = m.endpoint := by
        cases l with
        | followUp t => exact absurd rfl (hf t)
        | _ => rfl
      rw [hopen] at ha
      rcases hletGo (hc t) hdue he ha with hs | ⟨hl, -⟩
      · exact hs
      · exact absurd hl (hf t)
    · exact absurd (he.symm.trans he') (by simp)
    · exact absurd (he.symm.trans he') (by simp)
  cases l with
  | followUp t =>
    obtain ⟨taken, hi⟩ := handedOver h
    obtain ⟨taken', hd⟩ := (hi.mono (offered_append ls (.followUp t))).deliver (t := t)
    simp only [next, Option.ite_none_right_eq_some, Option.some.injEq] at hn
    have ha : Acts t (.followUp t) (m.endpoint.deliver t).2 m'.endpoint := by
      rw [← hn.2]
      exact acts_followUp rfl
    cases hx : (m.endpoint.deliver t).2.txToStream with
    | false => exact Or.inr (Or.inl ⟨t, rfl, streamOpen_of_deliver he hx⟩)
    | true =>
      rcases hletGo (by simp) (hdue.deliver t) hx ha with hs | ⟨-, hr⟩
      · exact Or.inr (Or.inr (Or.inl hs))
      · have hsame := ha.preserves
          (P := fun e => e.reliability.recvBuffer.finReached =
              (m.endpoint.deliver t).2.reliability.recvBuffer.finReached ∧
            e.toStream = (m.endpoint.deliver t).2.toStream)
          (fun e e' he ha => ⟨ha.finReached_eq.trans he.1, ha.toStream_eq.trans he.2⟩) ⟨rfl, rfl⟩
        have hstream : m'.endpoint.toStream.flatten = taken' := by
          rw [hsame.2]
          exact hd.stream_eq hx
        left
        constructor
        · exact hr
        · rw [hstream]
          exact hd.taken_mem
        · rw [hstream]
          exact hd.fin_mem (hsame.1.symm.trans hr)
  | command t c =>
    cases c with
    | close =>
      simp only [next, Option.ite_none_right_eq_some, Option.some.injEq] at hn
      rw [← hn.2, settle_endpoint] at he' ⊢
      rcases letGo_close he he' with hs | hs
      · exact Or.inr (Or.inr (Or.inl hs))
      · exact Or.inr (Or.inr (Or.inr ⟨⟨t, rfl⟩, hs⟩))
    | sendData | migrate => exact Or.inr (Or.inr (Or.inl (hother (by simp) (by simp))))
  | _ => exact Or.inr (Or.inr (Or.inl (hother (by simp) (by simp))))

/-- The FIN is waited for and handed on in order, in every run. -/
theorem fin_consumption (h : (system C).Run ls m) : FinConsumption ls m where
  agrees hv := agrees hv.reachable
  received := finReceived h.reachable
  waits _ _ hn hs hs' := waits hn hs hs'
  ended _ _ hn he he' := ended h hn he he'

section Sample

/-- A client that gets a FIN before the payload it follows. -/
def finFirst : List Label :=
  [.begin (tick 0), .frame (tick 1) (.newSynAck 1 2 1) 80, .followUp (tick 1),
    .frame (tick 2) (.newFin 1 1 0 0 32) 80, .followUp (tick 2)]

/-- The payload before that FIN. -/
def payloadLater : List Label :=
  [.frame (tick 4) (.newPush 1 0 0 32 0 [7]) 80, .followUp (tick 4)]

/-- After the payload the stream ends, and the state says so. -/
theorem fin_consumption_sample : ∃ m : Machine Vegas,
    m.endpoint.state = .finWait ∧ m.endpoint.txToStream = false ∧
      FinConsumption (finFirst ++ payloadLater) m := by
  obtain ⟨m, hr, hs, he⟩ : ∃ m, (system Vegas).Run (finFirst ++ payloadLater) m ∧
      m.endpoint.state = .finWait ∧ m.endpoint.txToStream = false :=
    TransitionSystem.exists_run_of_foldlM _ tinyClient_created (by decide)
  exact ⟨m, hs, he, fin_consumption hr⟩

/-- A client that starts to validate a path before that payload comes is still established when it
has the whole stream. One that closes takes the FIN for the end of the peer's stream as soon as it
arrives. One that closes before it has sent anything ends the user's stream without any FIN. -/
theorem fin_state_disagrees :
    (∃ m, (system Vegas).Run (finFirst ++
        [.command (tick 3) (.migrate 81 .detached), .followUp (tick 3)] ++ payloadLater ++
        [.frame (tick 5) (.newPathResponse 1 0 0 0) 81, .followUp (tick 5)]) m ∧
      m.phase = .waiting ∧ m.endpoint.reliability.recvBuffer.finReached = true ∧
        m.endpoint.state = .established) ∧
    (∃ m, (system Vegas).Run [.begin (tick 0), .frame (tick 1) (.newSynAck 1 2 1) 80,
        .followUp (tick 1), .command (tick 2) .close, .followUp (tick 2),
        .frame (tick 3) (.newFin 1 1 0 0 32) 80, .followUp (tick 3)] m ∧
      m.phase = .waiting ∧ m.endpoint.state = .closingWait ∧
        m.endpoint.reliability.recvBuffer.finReached = false) ∧
    ∃ m, (system Vegas).Run [.begin (tick 0), .command (tick 1) .close, .followUp (tick 1)] m ∧
      m.phase = .finished ∧ m.endpoint.txToStream = false ∧
        m.endpoint.reliability.recvBuffer.finReached = false := by
  refine ⟨?_, ?_, ?_⟩
  · exact TransitionSystem.exists_run_of_foldlM _ tinyClient_created (by decide)
  · exact TransitionSystem.exists_run_of_foldlM _ tinyClient_created (by decide)
  · exact TransitionSystem.exists_run_of_foldlM _ tinyClient_created (by decide)

end Sample

end Machine

end Kestrel
