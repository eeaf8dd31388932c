import Kestrel.Endpoint.Conservation

/-! # The FIN comes last

A FIN is created when the endpoint closes and sends what it can. If what waits then fits into the
windows, and nothing is packetized after it, the FIN is the last number of the stream.
-/

namespace Kestrel

def Numbered.isFin : Numbered → Bool
  | .fin .. => true
  | _ => false

namespace Endpoint

variable {C : Type} {t : Tick} {l : Label} {e e' : Endpoint C}

/-- A FIN has been given a number. -/
def hasFin (e : Endpoint C) : Bool := e.history.numbered.any Numbered.isFin

/-- The connection is being closed. -/
def Ending (e : Endpoint C) : Prop :=
  e.state = .closing ∨ e.state = .closingWait ∨ e.state = .closed

/-- The number of the FIN, with what had been written and what was still waiting. -/
def FinAt (e : Endpoint C) (q : ℕ) (written waiting : Bytes) : Prop :=
  e.history.numbered[q]? = some (.fin written waiting)

/-- A FIN was created with nothing waiting, has the last number, and every byte written before
it is in a payload with a smaller one. -/
structure FinLast (e : Endpoint C) : Prop where
  empty : ∀ q b w, e.FinAt q b w → w = []
  last : ∀ q b w, e.FinAt q b w → q + 1 = e.history.numbered.length
  written : ∀ q b w, e.FinAt q b w → e.reliability.packetized.flatten = b
  ending : ∀ q b w, e.FinAt q b w → e.Ending

theorem FinAt.hasFin {q : ℕ} {b w : Bytes} (h : e.FinAt q b w) : e.hasFin = true :=
  List.any_eq_true.mpr ⟨_, List.mem_of_getElem? h, rfl⟩

theorem hasFin_eq_true (h : e.hasFin = true) : ∃ q b w, e.FinAt q b w := by
  obtain ⟨x, hx, hf⟩ := List.any_eq_true.mp h
  obtain ⟨q, hq⟩ := List.mem_iff_getElem?.mp hx
  cases x with
  | fin b w => exact ⟨q, b, w, hq⟩
  | _ => cases hf

theorem finLast_of_not_hasFin (h : e.hasFin = false) : e.FinLast := by
  have hno (q : ℕ) (b w : Bytes) : ¬ e.FinAt q b w := by
    intro hf
    rw [hf.hasFin] at h
    cases h
  constructor
  · exact fun q b w hf => absurd hf (hno q b w)
  · exact fun q b w hf => absurd hf (hno q b w)
  · exact fun q b w hf => absurd hf (hno q b w)
  · exact fun q b w hf => absurd hf (hno q b w)

theorem FinLast.hasFin_eq_false (h : e.FinLast) (hs : ¬ e.Ending) : e.hasFin = false := by
  rw [Bool.eq_false_iff]
  intro hf
  obtain ⟨q, b, w, hf⟩ := hasFin_eq_true hf
  exact hs (h.ending q b w hf)

theorem FinLast.of_same (h : e.FinLast) (hn : e'.history.numbered = e.history.numbered)
    (hp : e'.reliability.packetized = e.reliability.packetized) (hs : e.Ending → e'.Ending) :
    e'.FinLast := by
  have hat {q : ℕ} {b w : Bytes} (hf : e'.FinAt q b w) : e.FinAt q b w := by
    rw [FinAt, hn] at hf
    exact hf
  constructor
  · exact fun q b w hf => h.empty q b w (hat hf)
  · intro q b w hf
    rw [hn]
    exact h.last q b w (hat hf)
  · intro q b w hf
    rw [hp]
    exact h.written q b w (hat hf)
  · exact fun q b w hf => hs (h.ending q b w (hat hf))

/-- The first FIN, created with nothing waiting. -/
theorem FinLast.createFin (hno : e.hasFin = false) (hc : e.Conserved)
    (hb : e.state = .closing → 1 ≤ e.reliability.config.connection.maxPayloadSize ∧
      e.reliability.sendBuffer.bytes = []) : (e.createFin t).2.FinLast := by
  unfold Endpoint.createFin
  split
  · rename_i hs
    obtain ⟨hm, hempty⟩ := hb hs.1
    have hw := hc.written_eq hm
    rw [hempty, List.append_nil] at hw
    have hat {q : ℕ} {b w : Bytes} (hf : (e.history.numbered ++
        [.fin e.history.written e.reliability.sendBuffer.bytes])[q]? = some (.fin b w)) :
        q = e.history.numbered.length ∧ b = e.history.written ∧ w = [] := by
      rcases lt_or_ge q e.history.numbered.length with hlt | hge
      · rw [List.getElem?_append_left hlt] at hf
        have hfin : e.FinAt q b w := hf
        rw [hfin.hasFin] at hno
        cases hno
      · rw [List.getElem?_append_right hge, List.getElem?_singleton] at hf
        split at hf
        · cases hf
          exact ⟨by omega, rfl, hempty⟩
        · cases hf
    constructor
    · exact fun q b w hf => (hat hf).2.2
    · intro q b w hf
      have hq := (hat hf).1
      dsimp only
      rw [hq, List.length_append, List.length_singleton]
    · intro q b w hf
      have hb := (hat hf).2.1
      rw [hb, hw]
      rfl
    · exact fun q b w hf => Or.inl hs.1
  · exact finLast_of_not_hasFin hno

variable [CongestionControl C]

/-- What waits fits into the windows when the FIN is created; after that nothing waits or may be
sent, and the FIN is not created again. -/
def FinFits (t : Tick) (e : Endpoint C) : Prop :=
  if e.hasFin = true then
    ((e.packetizerContext t).permit = 0 ∨ e.reliability.sendBuffer.bytes = []) ∧
      (e.state = .closing → e.reliability.hasFinInFlight = true)
  else
    e.state = .closing → 1 ≤ e.reliability.config.connection.maxPayloadSize ∧
      SendBuffer.packetsOf e.reliability.config.connection.maxPayloadSize
        e.reliability.sendBuffer.streamBuffer ≤ (e.packetizerContext t).permit

instance : Decidable (FinFits t e) := by
  unfold FinFits
  infer_instance

theorem hasFin_cut {chunks : List Bytes} {b : SendBuffer} (h : e.hasFin = false) :
    (e.cut t chunks b).hasFin = false := by
  unfold hasFin cut at *
  dsimp only
  rw [List.any_append, h, List.any_map, Bool.false_or, List.any_eq_false]
  intro p _ hp
  cases hp

theorem chunks_eq_nil {chunks : List Bytes} {b : SendBuffer}
    (hp : Packetized (e.packetizerContext t) e.reliability.sendBuffer chunks b)
    (h : (e.packetizerContext t).permit = 0 ∨ e.reliability.sendBuffer.bytes = []) :
    chunks = [] := by
  rcases h with h | h
  · exact List.eq_nil_of_length_eq_zero (Nat.le_zero.mp (h ▸ hp.length_le))
  · cases chunks with
    | nil => rfl
    | cons p chunks =>
      obtain ⟨hpos, hle⟩ := hp.fits p (List.mem_cons_self ..)
      have hb := hp.bytes_eq (hpos.trans_le hle)
      rw [h, List.flatten_cons, List.append_assoc] at hb
      have hnil := (List.append_eq_nil_iff.mp hb.symm).1
      rw [hnil] at hpos
      exact absurd hpos (lt_irrefl 0)

theorem FinLast.packetize (h : e.FinLast) (hc : e.Conserved) (hfit : FinFits t e)
    {chunks : List Bytes} {b : SendBuffer}
    (hp : Packetized (e.packetizerContext t) e.reliability.sendBuffer chunks b) :
    ((e.cut t chunks b).createFin t).2.FinLast := by
  unfold FinFits at hfit
  split at hfit
  · have hnil := chunks_eq_nil hp hfit.1
    subst hnil
    have hsame : ((e.cut t [] b).createFin t).2 = e.cut t [] b := by
      have hno : ¬ ((e.cut t [] b).state = .closing ∧
          (e.cut t [] b).reliability.hasFinInFlight = false) := by
        rintro ⟨hs, hf⟩
        have hf' : e.reliability.hasFinInFlight = false := hf
        rw [hfit.2 hs] at hf'
        cases hf'
      rw [Endpoint.createFin, if_neg hno]
    rw [hsame]
    exact h.of_same (List.append_nil _) (List.append_nil _) id
  · rename_i hno
    rw [Bool.not_eq_true] at hno
    refine FinLast.createFin (hasFin_cut hno) (hc.cut hp) fun hs => ?_
    obtain ⟨hm, hle⟩ := hfit hs
    exact ⟨hm, (hp.bytes_eq_nil hm).mpr hle⟩

/-- A connection that is being closed goes on being closed. -/
theorem Act.ending (h : Act t l e e') (he : e.Ending) : e'.Ending := by
  have hne (s : ConnectionState) (hs : s ≠ .closing ∧ s ≠ .closingWait ∧ s ≠ .closed)
      (h : e.state = s) : False := by
    rcases he with he | he | he <;> rw [he] at h <;> subst h <;> simp at hs
  cases h with
  | challenge a n hs hl => exact (hne _ (by simp) hs).elim
  | establish header a hl hs => exact (hne _ (by simp) hs).elim
  | accept data hl hs => exact (hne _ (by simp) hs).elim
  | pathValidated header challenge a n hl hs => exact (hne _ (by simp) hs).elim
  | validationTimeout hs =>
    rcases he with he | he | he <;> rw [he] at hs <;> cases hs
  | finArrived header a hl hr =>
    unfold Ending
    dsimp only
    rcases he with he | he | he <;> simp [he, arrival]
  | finReached hl hr =>
    unfold Ending
    dsimp only
    rcases he with he | he | he <;> simp [he, consumption]
  | shutdown hl =>
    unfold Ending
    dsimp only [beginGracefulShutdown]
    rcases he with he | he | he <;>
      simp [he, ConnectionState.gracefulShutdown, ConnectionState.clone]
  | packetize chunks b lead bs hs hp hlead hb =>
    unfold Ending
    change ((e.cut t chunks b).createFin t).2.state = _ ∨
      ((e.cut t chunks b).createFin t).2.state = _ ∨ ((e.cut t chunks b).createFin t).2.state = _
    rw [createFin_state]
    exact he
  | sendEof hl =>
    unfold Endpoint.sendEof
    split <;> exact he
  | forceClose hl => exact Or.inr (Or.inr rfl)
  | close hs => exact Or.inr (Or.inr rfl)
  | _ => exact he

/-- Outside of closing and following up nothing is packetized after a FIN. -/
theorem Act.finLast (h : Act t l e e') (hl : ∀ t, l ≠ .followUp t ∧ l ≠ .command t .close)
    (he : e.FinLast) : e'.FinLast := by
  have hend := h.ending
  cases h with
  | challenge a n hs hc =>
    have hno : e.hasFin = false := by
      apply he.hasFin_eq_false
      rintro (h | h | h) <;> rw [hs] at h <;> cases h
    apply finLast_of_not_hasFin
    change (e.history.numbered ++ [Numbered.pathChallenge t.challenge]).any Numbered.isFin = false
    rw [List.any_append]
    exact (Bool.or_eq_false_iff.mpr ⟨hno, rfl⟩)
  | packetize chunks b lead bs hs hp hlead hb =>
    have hstate : e.state = .connecting ∨ e.state = .established := by
      unfold Label.PacketizesIn at hs
      split at hs
      · exact Or.inl hs
      · exact Or.inr hs
      · exact Or.inr hs
      · exact absurd rfl (hl _).2
      · exact absurd rfl (hl _).1
      · exact hs.elim
    have hno : e.hasFin = false := by
      apply he.hasFin_eq_false
      rintro (h | h | h) <;> rw [h] at hstate <;> simp at hstate
    have hclosing : (e.cut t chunks b).state ≠ .closing := by
      change e.state ≠ .closing
      rcases hstate with h | h <;> rw [h] <;> decide
    rw [createFin_of_not_closing hclosing]
    exact finLast_of_not_hasFin (hasFin_cut (t := t) (b := b) hno)
  | receive f a q p _ hf hs =>
    refine he.of_same rfl ?_ hend
    cases ha : e.reliability.recvBuffer.accepts q with
    | false => rw [ReliabilityLayer.receive_eq_of_not_accepts ha]
    | true =>
      rw [ReliabilityLayer.receive_eq_of_accepts ha]
      rfl
  | sendEof hs => exact absurd hs (hl t).1
  | _ => exact he.of_same rfl rfl hend

omit [CongestionControl C] in
theorem shutdown_keeps : e.shutdown.Ending ∧ e.shutdown.history = e.history ∧
    e.shutdown.reliability.packetized = e.reliability.packetized := by
  have hgrace (e : Endpoint C) : e.shutdownGracefully.Ending ∧
      e.shutdownGracefully.history = e.history ∧
        e.shutdownGracefully.reliability.packetized = e.reliability.packetized := by
    unfold shutdownGracefully beginGracefulShutdown Ending
    cases e.state <;>
      simp [ConnectionState.gracefulShutdown, ConnectionState.clone, release,
        ReliabilityLayer.clearInFlightPackets]
  rcases shutdown_cases (e := e) with ⟨-, he⟩ | ⟨-, -, he⟩ | ⟨-, -, he⟩
  · rw [he]
    exact hgrace e
  · rw [he]
    exact hgrace _
  · rw [he]
    exact ⟨Or.inr (Or.inr rfl), rfl, rfl⟩

theorem FinLast.close (h : e.FinLast) (hc : e.Conserved)
    (hfit : e.shutdown.state ≠ .closed → FinFits t e.shutdown) :
    (Outcome.last (e.close t)).FinLast := by
  obtain ⟨hend, hhist, hpack⟩ := shutdown_keeps (e := e)
  have hs : e.shutdown.FinLast := h.of_same (by rw [hhist]) hpack fun _ => hend
  have hsc : e.shutdown.Conserved :=
    (acts_shutdown (t := t) (l := .command t .close) rfl).preserves
      (fun _ _ hc ha => ha.conserved hc) hc
  unfold Endpoint.close
  dsimp only
  split
  · exact hs
  · rename_i hne
    obtain ⟨chunks, b, bs, hp, -, he⟩ := packetizeAndSend_eq (t := t) (e := e.shutdown)
    rw [he, last_sending]
    exact (hs.packetize hsc (hfit hne) hp).of_same rfl rfl id

omit [CongestionControl C] in
theorem FinLast.shouldClose (h : e.FinLast) : e.sendEof.shouldClose.2.FinLast := by
  have heof : e.sendEof.FinLast := by
    unfold Endpoint.sendEof
    split
    · exact h.of_same rfl rfl id
    · exact h
  unfold Endpoint.shouldClose
  split
  · rw [transitionTo_eq, if_pos (by cases e.sendEof.state <;> rfl)]
    exact heof.of_same rfl rfl fun _ => Or.inr (Or.inr rfl)
  · exact heof

theorem FinLast.packetizeIfOpen (h : e.FinLast) (hc : e.Conserved)
    (hfit : e.state = .closing → FinFits t e) :
    (Outcome.last (e.packetizeIfOpen t)).FinLast := by
  have hsend (hs : e.state = .closing ∨ ¬ e.Ending) :
      (Outcome.last (e.packetizeAndSend t)).FinLast := by
    obtain ⟨chunks, b, bs, hp, -, he⟩ := packetizeAndSend_eq (t := t) (e := e)
    rw [he, last_sending]
    refine FinLast.of_same (h.packetize hc ?_ hp) rfl rfl id
    rcases hs with hs | hs
    · exact hfit hs
    · rw [FinFits, if_neg (by rw [h.hasFin_eq_false hs]; decide)]
      exact fun hcl => absurd (Or.inl hcl) hs
  unfold Endpoint.packetizeIfOpen
  split
  · rename_i hs
    exact hsend (Or.inr (by simp [Ending, hs]))
  · rename_i hs
    exact hsend (Or.inr (by simp [Ending, hs]))
  · rename_i hs
    exact hsend (Or.inl hs)
  · exact h

theorem FinLast.followUp (h : e.FinLast) (hc : e.Conserved)
    (hfit : e.state = .closing → e.reliability.reassemble.2.1 = false → FinFits t e) :
    (Machine.resume (e.followUp t)).endpoint.FinLast := by
  obtain ⟨data, held, hd⟩ := deliver_eq (t := t) (e := e)
  have hdeliver : (e.deliver t).2.FinLast := by
    rw [hd]
    exact h.of_same rfl rfl id
  have hdc : (e.deliver t).2.Conserved := by
    rw [hd]
    exact ⟨hc.packetized_eq, hc.written_eq⟩
  have hfin : ((e.deliver t).2.finTransition (e.deliver t).1).FinLast := by
    rw [finTransition_eq]
    refine hdeliver.of_same rfl rfl fun hend => ?_
    unfold Ending
    dsimp only
    split
    · rcases hend with hs | hs | hs <;> simp [hs, consumption]
    · exact hend
  have hfc : ((e.deliver t).2.finTransition (e.deliver t).1).Conserved := by
    rw [finTransition_eq]
    exact ⟨hdc.packetized_eq, hdc.written_eq⟩
  have hopen := hfin.packetizeIfOpen hfc (t := t) (fun hs => ?_)
  · unfold Endpoint.followUp
    dsimp only
    generalize ((e.deliver t).2.finTransition (e.deliver t).1).packetizeIfOpen t = x at hopen
    cases x with
    | error r => exact hopen
    | ok e' => exact hopen.shouldClose
  · rw [finTransition_eq, hd] at hs ⊢
    dsimp only at hs ⊢
    cases hseen : e.reliability.reassemble.2.1 with
    | true =>
      rw [hseen] at hs
      cases hst : e.state <;> simp [hst, consumption] at hs
    | false =>
      rw [hseen] at hs
      -- Reassembly changes neither what waits nor the windows.
      exact hfit hs hseen

end Endpoint

namespace Machine

open Endpoint

variable {C : Type} [CongestionControl C] {m m' : Machine C} {l : Label}

/-- In a step that packetizes while the connection is being closed, the FIN fits. -/
def FinFitsStep (m : Machine C) : Label → Prop
  | .command t .close =>
    m.endpoint.shutdown.state ≠ .closed → FinFits t m.endpoint.shutdown
  | .followUp t =>
    m.endpoint.state = .closing → m.endpoint.reliability.reassemble.2.1 = false →
      FinFits t m.endpoint
  | _ => True

instance : Decidable (FinFitsStep m l) := by
  unfold FinFitsStep
  split <;> infer_instance

theorem finLast_step (hc : m.endpoint.Conserved) (h : m.endpoint.FinLast)
    (hn : m.next l = some m') (hfit : FinFitsStep m l) : m'.endpoint.FinLast := by
  have hother (hl : ∀ t, l ≠ .followUp t ∧ l ≠ .command t .close) : m'.endpoint.FinLast := by
    rcases acts_of_next hn with ⟨t, -, ha⟩ | ⟨id, now, -, rfl⟩ | ⟨id, -, rfl⟩
    · have hopen : (m.opening l).FinLast := by
        cases l with
        | followUp t => exact absurd rfl (hl t).1
        | _ => exact h
      exact ha.preserves (fun e e' he ha => ha.finLast hl he) hopen
    · exact h.of_same rfl rfl (fun h => h)
    · exact h.of_same rfl rfl (fun h => h)
  cases l with
  | followUp t =>
    simp only [next, Option.ite_none_right_eq_some, Option.some.injEq] at hn
    rw [← hn.2]
    exact h.followUp hc hfit
  | command t c =>
    cases c with
    | close =>
      simp only [next, Option.ite_none_right_eq_some, Option.some.injEq] at hn
      rw [← hn.2, settle_endpoint]
      exact h.close hc hfit
    | sendData | migrate => exact hother (by simp)
  | _ => exact hother (by simp)

omit [CongestionControl C] in
theorem finLast_created {e : Endpoint C} (h : e.Created) : e.FinLast := by
  apply finLast_of_not_hasFin
  cases h with
  | client config a cid cc data t => cases data <;> rfl
  | server config a cid peer cc t => rfl

theorem finLast (h : (systemWith (C := C) FinFitsStep).Reachable m) : m.endpoint.FinLast := by
  have hinv : (systemWith (C := C) FinFitsStep).Invariant fun m => m.endpoint.FinLast :=
    { init := fun m hm => finLast_created hm.2
      step := fun m l m' hr hm hs => finLast_step (conserved hr.of_restrict) hm hs.1 hs.2 }
  exact hinv.holds h

/-- Every FIN was created with nothing waiting, there is at most one, every PUSH that was sent has
a smaller number, and the payloads with smaller numbers are what had been written. -/
structure FinIsLast (e : Endpoint C) : Prop where
  empty : ∀ q b w, e.FinAt q b w → w = []
  unique : ∀ q b w q' b' w', e.FinAt q b w → e.FinAt q' b' w' → q = q'
  before : ∀ q b w, e.FinAt q b w → ∀ f ∈ e.framesSent, ∀ k p, f.item? = some (k, .push p) → k < q
  complete : ∀ q b w, e.FinAt q b w →
    ((e.history.numbered.take q).filterMap Numbered.payload?).flatten = b

/-- In every run in which the FIN always fits, the FIN is the last number of the stream. -/
theorem fin_is_last (h : (systemWith (C := C) FinFitsStep).Reachable m)
    (hlen : m.endpoint.history.numbered.length < u32Size) : FinIsLast m.endpoint := by
  have hfin := finLast h
  have hnum := numbering h.of_restrict hlen
  have hcons := conserved h.of_restrict
  constructor
  · exact hfin.empty
  · intro q b w q' b' w' hq hq'
    have hl := hfin.last q b w hq
    have hl' := hfin.last q' b' w' hq'
    omega
  · intro q b w hq f hf k p hk
    obtain ⟨x, hx, hp⟩ := hnum.sent f hf k _ hk
    have hl := hfin.last q b w hq
    have hlt := (List.getElem?_eq_some_iff.mp hx).1
    have hne : k ≠ q := by
      rintro rfl
      rw [hq] at hx
      cases hx
      cases hp
    omega
  · intro q b w hq
    have hall : m.endpoint.history.numbered = m.endpoint.history.numbered.take q ++ [.fin b w] := by
      have hlast := List.take_add_one (l := m.endpoint.history.numbered) (i := q)
      rw [hq, hfin.last q b w hq, List.take_length] at hlast
      exact hlast
    have hpack := hcons.packetized_eq
    rw [hall, List.filterMap_append] at hpack
    rw [← hfin.written q b w hq, hpack]
    exact congrArg List.flatten (List.append_nil _).symm

section Sample

/-- A client that sends a byte and closes while it is in flight. -/
theorem fin_is_last_sample : ∃ m : Machine Vegas,
    m.endpoint.history.numbered = [.push [7], .fin [7] []] ∧ FinIsLast m.endpoint := by
  obtain ⟨m, hr, hn⟩ : ∃ m, (systemWith (C := Vegas) FinFitsStep).Run
      [.begin (tick 0), .frame (tick 1) (.newSynAck 1 2 1) 80, .followUp (tick 1),
        .command (tick 2) (.sendData [7]), .followUp (tick 2), .command (tick 3) .close] m ∧
      m.endpoint.history.numbered = [.push [7], .fin [7] []] :=
    TransitionSystem.exists_restrict_run_of_foldlM _ tinyClient_created (by decide)
  refine ⟨m, hn, fin_is_last hr.reachable ?_⟩
  rw [hn]
  decide

/-- When it closes with a byte more than the window takes, the FIN comes before that byte. -/
theorem fin_before_push : ∃ m : Machine Vegas, (system Vegas).Reachable m ∧
    m.endpoint.history.numbered = [.push [7], .fin [7, 8] [8], .push [8]] ∧
      ¬ FinIsLast m.endpoint := by
  obtain ⟨m, m', hr, hn, hp⟩ := exists_step
    [.begin (tick 0), .frame (tick 1) (.newSynAck 1 2 1) 80, .followUp (tick 1),
      .command (tick 2) (.sendData [7, 8]), .followUp (tick 2), .command (tick 3) .close,
      .followUp (tick 3), .frame (tick 4) (.newAck 1 1 256 [] 0) 80] (.followUp (tick 4))
    (fun _ (m : Machine Vegas) =>
      m.endpoint.history.numbered = [.push [7], .fin [7, 8] [8], .push [8]])
    tinyClient_created (by decide)
  refine ⟨m', hr.reachable.step hn, hp, fun h => ?_⟩
  have hfin : m'.endpoint.FinAt 1 [7, 8] [8] := by
    rw [FinAt, hp]
    rfl
  have hnil := h.empty 1 _ _ hfin
  cases hnil

end Sample

end Machine

end Kestrel
