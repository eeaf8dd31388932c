import Kestrel.Endpoint.Interference
import Kestrel.Stream.Session

/-! # The end of a stream

When a read reports the end of the stream, everything that was handed over has been read. The end
is a FIN of the peer, unless the connection is closed, the loop has ended, or the user has closed
the stream or let go of it.
-/

namespace Kestrel

namespace Endpoint

variable {C : Type} {t : Tick} {l : Label} {e e' : Endpoint C}

/-- The payloads that have a number have bytes. -/
def FullPushes (e : Endpoint C) : Prop := ∀ b, .push b ∈ e.history.numbered → b ≠ []

theorem FullPushes.createFin (h : e.FullPushes) : (e.createFin t).2.FullPushes := by
  unfold Endpoint.createFin
  split
  · intro b hb
    rcases List.mem_append.mp hb with hb | hb
    · exact h b hb
    · cases List.mem_singleton.mp hb
  · exact h

theorem Created.held (h : e.Created) : e.txToStream = true := by
  cases h with
  | client config a cid cc data t => cases data <;> rfl
  | server config a cid peer cc t => rfl

theorem toStream_deliver_of_not_held (h : e.txToStream = false) :
    (e.deliver t).2.toStream = e.toStream := by
  unfold Endpoint.deliver
  dsimp only
  split
  · rfl
  · rename_i hn
    simp [h] at hn

variable [CongestionControl C]

theorem Act.fullPushes (h : Act t l e e') (hi : e.FullPushes) : e'.FullPushes := by
  cases h with
  | challenge a n hs hl =>
    intro b hb
    rcases List.mem_append.mp hb with hb | hb
    · exact hi b hb
    · cases List.mem_singleton.mp hb
  | packetize chunks b lead bs hs hp hlead hb =>
    have hcut : (e.cut t chunks b).FullPushes := by
      intro c hc
      rcases List.mem_append.mp hc with hc | hc
      · exact hi c hc
      · obtain ⟨chunk, hchunk, hpush⟩ := List.mem_map.mp hc
        cases hpush
        exact List.length_pos_iff.mp (hp.fits c hchunk).1
    exact hcut.createFin
  | sendEof hl =>
    unfold Endpoint.sendEof
    split <;> exact hi
  | _ => exact hi

theorem Act.layer_config_eq (h : Act t l e e') : e'.reliability.config = e.reliability.config := by
  cases h with
  | packetize chunks b lead bs hs hp hlead hb =>
    change ((e.cut t chunks b).createFin t).2.reliability.config = _
    unfold Endpoint.createFin
    split <;> rfl
  | receive f a q p hl hf hs =>
    cases ha : e.reliability.recvBuffer.accepts q with
    | false => rw [ReliabilityLayer.receive_eq_of_not_accepts ha]
    | true =>
      rw [ReliabilityLayer.receive_eq_of_accepts ha]
      rfl
  | sendEof hl =>
    unfold Endpoint.sendEof
    split <;> rfl
  | _ => rfl

end Endpoint

namespace Machine

open Endpoint

variable {C : Type} [CongestionControl C] {m m' : Machine C} {l : Label}

theorem fullPushes (h : (system C).Reachable m) : m.endpoint.FullPushes := by
  have hinv : (system C).Invariant fun m => m.endpoint.FullPushes :=
    invariant (P := FullPushes)
      (fun e he b hb => by rw [he.empty.1] at hb; cases hb)
      (fun t l e e' hi ha => ha.fullPushes hi)
      (fun t e hi => by
        obtain ⟨data, held, hd⟩ := deliver_eq (t := t) (e := e)
        rw [hd]
        exact hi)
      (fun e f hi => hi)
  exact hinv.holds h

theorem layer_config_of_next (h : m.next l = some m') :
    m'.endpoint.reliability.config = m.endpoint.reliability.config := by
  rcases acts_of_next h with ⟨t, -, ha⟩ | ⟨id, now, -, rfl⟩ | ⟨id, -, rfl⟩
  · have hopen : (m.opening l).reliability.config = m.endpoint.reliability.config := by
      cases l with
      | followUp t =>
        obtain ⟨data, held, hd⟩ := deliver_eq (t := t) (e := m.endpoint)
        rw [opening, hd]
        rfl
      | _ => rfl
    exact ha.preserves
      (P := fun e => e.reliability.config = m.endpoint.reliability.config)
      (fun e e' he ha => ha.layer_config_eq.trans he) hopen
  · rfl
  · rfl

theorem toStream_of_not_held (h : m.next l = some m') (he : m.endpoint.txToStream = false) :
    m'.endpoint.toStream = m.endpoint.toStream := by
  rcases acts_of_next h with ⟨t, -, ha⟩ | ⟨id, now, -, rfl⟩ | ⟨id, -, rfl⟩
  · have hopen : (m.opening l).toStream = m.endpoint.toStream := by
      cases l with
      | followUp t => exact toStream_deliver_of_not_held he
      | _ => rfl
    exact ha.preserves (P := fun e => e.toStream = m.endpoint.toStream)
      (fun e e' he ha => ha.toStream_eq.trans he) hopen
  · rfl
  · rfl

end Machine

namespace Link

open Endpoint

variable {S R : Type} {x : Link S R}

theorem EndsAtFin.mono {e₁ e₂ : Endpoint S} {e : Endpoint R} (h : EndsAtFin e₁ e)
    (hn : e₁.history.numbered <+: e₂.history.numbered)
    (hc : e₂.reliability.config = e₁.reliability.config) : EndsAtFin e₂ e := by
  obtain ⟨k, written, waiting, hfin, hgiven, hbytes⟩ := h
  obtain ⟨more, hmore⟩ := hn
  have hk : k < e₁.history.numbered.length := (List.getElem?_eq_some_iff.mp hfin).1
  refine ⟨k, written, waiting, ?_, ?_, by rwa [hc]⟩
  · rw [FinAt, ← hmore, List.getElem?_append_left hk]
    exact hfin
  · rw [← hmore, List.take_append_of_le_length hk.le]
    exact hgiven

variable [CongestionControl S] [CongestionControl R]

theorem chunk_ne_nil (h : (system S R).Reachable x)
    (hlen : x.sender.endpoint.history.numbered.length < u32Size) :
    ∀ c ∈ x.receiver.endpoint.toStream.flatten, c ≠ [] := by
  intro c hc
  obtain ⟨n, -, -, hs, -⟩ := (inSequence h hlen).given
  rw [hs] at hc
  obtain ⟨y, hy, hp⟩ := List.mem_filterMap.mp hc
  cases y with
  | push b =>
    cases hp
    exact Machine.fullPushes (reachable_parts h).1 c (List.mem_of_mem_take hy)
  | _ => cases hp

end Link

namespace Reader

variable {r : Reader}

/-- Chunks that all have bytes hide nothing. -/
theorem undelivered_of_ready_nil (h : ∀ c ∈ r.chunks, c ≠ []) {remaining : ℕ}
    (hpos : 0 < remaining) (hr : (r.pollRead remaining).1 = .ready []) : r.undelivered = [] := by
  have hreach : ReachesByte r.readBuffer r.rxFromEndpoint := by
    have hnone : leadingEmpty (r.readBuffer ++ r.rxFromEndpoint.flatten) = 0 := by
      change leadingEmpty r.chunks = 0
      cases hc : r.chunks with
      | nil => rfl
      | cons c cs =>
        have hne := h c (by rw [hc]; exact List.mem_cons_self)
        simp [leadingEmpty, hne]
    rw [ReachesByte, hnone]
    exact ⟨Nat.zero_le _, fun i _ => Nat.zero_le _⟩
  exact (faithful_iff hpos).mpr (fun _ => hreach) (Or.inr hr)

/-- Only a closed channel makes a read report the end of the stream. -/
theorem closed_of_ready_nil {remaining : ℕ} (hr : (r.pollRead remaining).1 = .ready []) :
    r.closed = true := by
  have hloop (closed : Bool) (rx : List (List Bytes)) (readBuffer : List Bytes)
      (h : (pollLoop remaining closed readBuffer rx).1 = .ready []) : closed = true := by
    induction rx generalizing readBuffer with
    | nil =>
      by_cases hf : (takeFront remaining readBuffer).1 = []
      · rw [pollLoop_nil_of_nil hf] at h
        cases closed with
        | true => rfl
        | false => cases h
      · rw [pollLoop_of_ne_nil hf] at h
        exact absurd (ReadPoll.ready.inj h) hf
    | cons batch rx ih =>
      by_cases hf : (takeFront remaining readBuffer).1 = []
      · rw [pollLoop_cons_of_nil hf] at h
        exact ih _ h
      · rw [pollLoop_of_ne_nil hf] at h
        exact absurd (ReadPoll.ready.inj h) hf
  exact hloop _ _ _ hr

end Reader

namespace Session

open Endpoint

variable {S R : Type} [CongestionControl S] [CongestionControl R] {x x' : Session S R}

/-- Why the receiver has let go of its user's stream in a run: it has reached a FIN of the sender,
the connection is closed, the user no longer listened, or closed it before anything was written. -/
inductive Ended (es : List Event) (x : Session S R) : Prop where
  | fin (h : Link.EndsAtFin x.sender.endpoint x.receiver.endpoint)
  | closed (h : x.receiver.endpoint.state = .closed)
  | dropped (t : Tick) (h : .receiver (.step (.followUp t)) ∈ es) (ht : t.streamOpen = false)
  | closing (before after : List Event) (t : Tick) (z : Session S R)
      (h : es = before ++ .receiver (.step (.command t .close)) :: after)
      (hz : (system S R).Run before z) (hs : z.receiver.endpoint.state = .synReceived)
      (hb : z.receiver.endpoint.reliability.isSendBufferEmpty = true)

theorem link?_receiver {e : Event} {l : Label} (h : e.link? = some (.receiver l)) :
    e = .receiver (.step l) := by
  cases e with
  | sender e =>
    obtain ⟨l', -, hl⟩ := Option.map_eq_some_iff.mp h
    cases hl
  | receiver e =>
    obtain ⟨l', hl, heq⟩ := Option.map_eq_some_iff.mp h
    cases heq
    cases e with
    | step l' =>
      cases hl
      rfl
    | _ => cases hl

theorem Ended.mono {es : List Event} (h : Ended es x) (e : Event)
    (hnum : x.sender.endpoint.history.numbered <+: x'.sender.endpoint.history.numbered)
    (hconfig : x'.sender.endpoint.reliability.config = x.sender.endpoint.reliability.config)
    (hstream : x'.receiver.endpoint.toStream = x.receiver.endpoint.toStream)
    (hclosed : x.receiver.endpoint.state = .closed → x'.receiver.endpoint.state = .closed) :
    Ended (es ++ [e]) x' := by
  cases h with
  | fin h =>
    obtain ⟨k, written, waiting, hfin, hgiven, hbytes⟩ := h.mono hnum hconfig
    exact .fin ⟨k, written, waiting, hfin, by rw [hstream]; exact hgiven,
      by rw [hstream]; exact hbytes⟩
  | closed h => exact .closed (hclosed h)
  | dropped t h ht => exact .dropped t (List.mem_append_left _ h) ht
  | closing before after t z h hz hs hb =>
    exact .closing before (after ++ [e]) t z (by rw [h]; simp) hz hs hb

/-- A receiver that has let go of its user's stream had a reason to. -/
theorem ended {es : List Event} (h : (system S R).Run es x)
    (hlen : x.sender.endpoint.history.numbered.length < u32Size)
    (he : x.receiver.endpoint.txToStream = false) : Ended es x := by
  induction h with
  | init h =>
    rw [Host.endpoint, h.receiver.writer.2.1.held] at he
    cases he
  | @step es x x' e hr hn ih =>
    obtain ⟨y, hy, hxy⟩ := exists_abstracts hr.reachable
    -- what the event does to the link: nothing, or a step of one of its ends
    cases hlink : e.link? with
    | none =>
      have hxy' := follows.stay _ _ _ _ hxy hn hlink
      have hs : x'.sender.endpoint = x.sender.endpoint :=
        congrArg Machine.endpoint (hxy'.sender.symm.trans hxy.sender)
      have hr' : x'.receiver.endpoint = x.receiver.endpoint :=
        congrArg Machine.endpoint (hxy'.receiver.symm.trans hxy.receiver)
      rw [hs] at hlen
      rw [hr'] at he
      refine (ih hlen he).mono e ?_ ?_ ?_ ?_
      · rw [hs]
      · rw [hs]
      · rw [hr']
      · rw [hr']
        exact id
    | some i =>
      obtain ⟨y', hstep, hxy'⟩ := follows.step _ _ _ _ i hxy hn hlink
      obtain ⟨hy', -⟩ := hstep
      have hrec (hy : y'.receiver = y.receiver) : x'.receiver.endpoint = x.receiver.endpoint :=
        congrArg Machine.endpoint (hxy'.receiver.symm.trans (hy.trans hxy.receiver))
      have hsend (hy : y'.sender = y.sender) : x'.sender.endpoint = x.sender.endpoint :=
        congrArg Machine.endpoint (hxy'.sender.symm.trans (hy.trans hxy.sender))
      cases i with
      | sender l =>
        obtain ⟨-, m, hm, rfl⟩ := Link.next_sender.mp hy'
        obtain rfl := hxy'.sender
        rw [hxy.sender] at hm
        rw [hrec rfl] at he
        have hnum := Machine.numbered_mono hm
        refine (ih (lt_of_le_of_lt hnum.length_le hlen) he).mono e hnum
          (Machine.layer_config_of_next hm) ?_ ?_
        · rw [hrec rfl]
        · rw [hrec rfl]
          exact id
      | receiver l =>
        have hnext := hy'
        obtain ⟨-, m, hm, rfl⟩ := Link.next_receiver.mp hy'
        obtain rfl := hxy'.receiver
        rw [hxy.receiver] at hm
        have hlen' := hlen
        rw [hsend rfl] at hlen
        cases hx : x.receiver.endpoint.txToStream with
        | false =>
          refine (ih hlen hx).mono e ?_ ?_ (Machine.toStream_of_not_held hm hx)
            (Machine.closed_of_next hm)
          · rw [hsend rfl]
          · rw [hsend rfl]
        | true =>
          have hhere : e = .receiver (.step l) := link?_receiver hlink
          have hlast : e ∈ es ++ [e] := List.mem_append_right _ (List.mem_singleton_self e)
          have hleny : y.sender.endpoint.history.numbered.length < u32Size := by
            rw [hxy.sender]
            exact hlen
          have hheld : y.receiver.endpoint.txToStream = true := by
            rw [hxy.receiver]
            exact hx
          have hend (hopen : ∀ t, l = .followUp t → t.streamOpen = true)
              (hreached : x'.receiver.endpoint.reliability.recvBuffer.finReached = true) :
              Ended (es ++ [e]) x' := by
            have hfin := Link.endsAtFin_of_reached hy hleny hnext hheld hopen hreached
            have hs : y.sender.endpoint = x'.sender.endpoint :=
              congrArg Machine.endpoint hxy'.sender
            exact .fin (hs ▸ hfin)
          obtain ⟨ls, hrun⟩ := (Link.reachable_parts hy).2.exists_run
          rw [hxy.receiver] at hrun
          by_cases hopen : ∀ t, l = .followUp t → t.streamOpen = true
          · rcases Machine.ended hrun hm hx he with hc | ⟨t, rfl, ht⟩ | hs | ⟨⟨t, rfl⟩, hs, hb⟩
            · exact hend hopen hc.reached
            · exact .dropped t (hhere ▸ hlast) ht
            · exact .closed hs
            · exact .closing es [] t x (by rw [hhere]) hr hs hb
          · push Not at hopen
            obtain ⟨t, rfl, ht⟩ := hopen
            exact .dropped t (hhere ▸ hlast) (by simpa using ht)

/-- The end of the stream is reported only when everything that was handed over has been read, and
for a reason. -/
theorem end_of_stream {es : List Event} (h : (system S R).Run es x)
    (hlen : x.sender.endpoint.history.numbered.length < u32Size) {remaining : ℕ}
    (hpos : 0 < remaining)
    (he : (x.receiver.reading.reader.pollRead remaining).1 = .ready []) :
    x.receiver.reading.returned = x.receiver.endpoint.toStream.flatten.flatten ∧
      (Ended es x ∨ x.receiver.writer.isClosed = true) := by
  obtain ⟨y, hlink, hxy⟩ := exists_abstracts h.reachable
  have hleny : y.sender.endpoint.history.numbered.length < u32Size := by
    rw [hxy.sender]
    exact hlen
  have hchunks : ∀ c ∈ x.receiver.reading.reader.chunks, c ≠ [] := by
    intro c hc
    rcases hxy.soundReceiver.chunks c hc with hc | hc
    · refine Link.chunk_ne_nil hlink hleny c ?_
      rw [hxy.receiver]
      exact hc
    · exact hc
  have hread := hxy.soundReceiver.reading
  rw [Reader.undelivered_of_ready_nil hchunks hpos he, List.append_nil] at hread
  refine ⟨hread, ?_⟩
  rcases hxy.soundReceiver.closed (Reader.closed_of_ready_nil he) with hx | hx
  · exact Or.inl (ended h hlen hx)
  · exact Or.inr hx

section Sample

open Machine Link

/-- The client closes while one of its bytes still waits, and the server gets its FIN. -/
def farewell : List Event :=
  conversation ++
    [.sender (.user .pollShutdown), .sender (.step (.command (tick 6) .close)),
      .sender (.step (.followUp (tick 6)))] ++
    toServer ⟨80, [.newFin 2 1 0 1 256]⟩ 2 ++
    [.receiver (.step (.frame (tick 7) (.newFin 2 1 0 1 256) 81)),
      .receiver (.step (.followUp (tick 7)))]

/-- The server's user has read the byte that was sent when the read reports the end. -/
theorem end_of_stream_sample : ∃ x : Session Vegas Vegas, (system Vegas Vegas).Run farewell x ∧
    x.receiver.reading.returned = [7] ∧ x.sender.endpoint.FinAt 1 [7, 8] [8] ∧
      x.receiver.reading.returned = x.receiver.endpoint.toStream.flatten.flatten ∧
        Ended farewell x := by
  obtain ⟨x, hr, hread, hnum, hlen, he, hopen⟩ : ∃ x : Session Vegas Vegas,
      (system Vegas Vegas).Run farewell x ∧ x.receiver.reading.returned = [7] ∧
        x.sender.endpoint.history.numbered = [.push [7], .fin [7, 8] [8]] ∧
          x.sender.endpoint.history.numbered.length < u32Size ∧
            (x.receiver.reading.reader.pollRead 10).1 = .ready [] ∧
              x.receiver.writer.isClosed = false :=
    TransitionSystem.exists_restrict_run_of_foldlM _ tinySession_created (by decide +kernel)
  obtain ⟨hall, hend⟩ := end_of_stream hr hlen (by decide) he
  refine ⟨x, hr, hread, by rw [FinAt, hnum]; rfl, hall, ?_⟩
  exact hend.resolve_right (by rw [hopen]; exact Bool.false_ne_true)

end Sample

end Session

end Kestrel
