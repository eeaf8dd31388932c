import Kestrel.Endpoint.Numbering

/-! # Migration to a validated path

The peer's address changes only when a response arrives from the new address that answers the
challenge sent there. Any other response changes no address; at most it starts the validation of
the path it came over, as any frame from a new address does.
-/

namespace Kestrel

/-- A step that may start the validation of a path, for a peer at an address. -/
def Label.Challenges (l : Label) (r : SocketAddr) : Prop :=
  (∃ t f a, l = .frame t f a ∧ a ≠ r) ∨ ∃ t a n, l = .command t (.migrate a n)

namespace Endpoint

variable {C : Type} {t : Tick} {l : Label} {e e' : Endpoint C} {a : SocketAddr} {c : ℕ}

/-- A challenge with a value was sent to an address. -/
def Challenged (e : Endpoint C) (a : SocketAddr) (c : ℕ) : Prop :=
  ∃ header, (⟨a, [.pathChallenge header c]⟩ : FrameBatch) ∈ e.sent

/-- The address under validation was sent its challenge. -/
def Issued (e : Endpoint C) : Prop :=
  ∀ a c n, e.state = .validatingPath a c n → e.Challenged a c

/-- The response answers the current challenge: that of the running validation, or the one that
its own arrival from a new address gives rise to. -/
def Answers (t : Tick) (e : Endpoint C) (c : ℕ) (a : SocketAddr) : Prop :=
  (∃ n, e.state = .validatingPath a c n) ∨
    e.state = .established ∧ a ≠ e.remoteAddr ∧ c = t.challenge

/-- The endpoint after it has moved to an address, which it tells the socket. -/
structure MovesTo (e : Endpoint C) (a : SocketAddr) (e' : Endpoint C) : Prop where
  remoteAddr_eq : e'.remoteAddr = a
  socketCommands_eq : e'.socketCommands = e.socketCommands ++ [.updateAddr e.localCid a]
  state_eq : e'.state = .established

/-- The endpoint after a frame that has not moved it: its state changes only if the path that the
frame came over is to be validated. -/
structure Stays (t : Tick) (e : Endpoint C) (a : SocketAddr) (e' : Endpoint C) : Prop where
  remoteAddr_eq : e'.remoteAddr = e.remoteAddr
  socketCommands_eq : e'.socketCommands = e.socketCommands
  state_eq : e'.state =
    if a ≠ e.remoteAddr ∧ e.state = .established then
      .validatingPath a t.challenge (some .detached)
    else e.state

theorem Challenged.mono (h : e.Challenged a c) (hs : e.sent <+: e'.sent) : e'.Challenged a c := by
  obtain ⟨header, hm⟩ := h
  exact ⟨header, hs.subset hm⟩

theorem Issued.of_validating (h : e.Issued)
    (hv : e'.state.isValidatingPath = true → e'.state = e.state) (hs : e.sent <+: e'.sent) :
    e'.Issued := by
  intro a c n hstate
  have hsame := hv (by rw [hstate]; rfl)
  exact (h a c n (hsame ▸ hstate)).mono hs

section Path

/-- A response that does not answer the running validation is ignored; one that does moves the
connection. -/
theorem handlePathResponseFrame_cases (c : ℕ) (a : SocketAddr) :
    (∃ n, e.state = .validatingPath a c n ∧ e.handlePathResponseFrame c a = .ok { e with
        state := .established
        remoteAddr := a
        socketCommands := e.socketCommands ++ [.updateAddr e.localCid a] }) ∨
      (∀ n, e.state ≠ .validatingPath a c n) ∧ e.handlePathResponseFrame c a = .ok e := by
  unfold handlePathResponseFrame
  cases hs : e.state with
  | validatingPath newAddr challenge n =>
    simp only [ConnectionState.clone]
    split
    · rename_i hm
      obtain ⟨rfl, rfl⟩ := hm
      left
      refine ⟨n, rfl, ?_⟩
      rw [completePathValidation_eq, if_pos (by rw [hs]; rfl)]
      simp [bind, Except.bind, pure, Except.pure]
    · rename_i hm
      right
      refine ⟨?_, rfl⟩
      rintro n' he
      cases he
      exact hm ⟨rfl, rfl⟩
  | _ => exact Or.inr ⟨by simp, rfl⟩

/-- The check of the path leaves the endpoint alone or starts a validation, which fails if the
challenge cannot be sent. -/
theorem checkPathMigration_cases (t : Tick) (e : Endpoint C) (a : SocketAddr) :
    (¬ (a ≠ e.remoteAddr ∧ e.state = .established) ∧ e.checkPathMigration t a = .ok e) ∨
      (a ≠ e.remoteAddr ∧ e.state = .established) ∧ ∃ e',
        e'.state = .validatingPath a t.challenge (some .detached) ∧
        e'.remoteAddr = e.remoteAddr ∧ e'.localCid = e.localCid ∧
        e'.socketCommands = e.socketCommands ∧ e.sent <+: e'.sent ∧
        (e.checkPathMigration t a = .ok e' ∧ e'.Challenged a t.challenge ∨
          ∃ err, e.checkPathMigration t a = .error (err, e')) := by
  unfold checkPathMigration
  split
  · rename_i h
    right
    refine ⟨h, ?_⟩
    rw [startPathValidation_eq, if_pos h.2]
    simp only [bind, Except.bind, sendFrameTo, sendBatch]
    by_cases ho : t.senderOpen = true
    · rw [if_pos ho]
      refine ⟨_, ?_, ?_, ?_, ?_, ?_, Or.inl ⟨rfl, ?_⟩⟩
      · rfl
      · rfl
      · rfl
      · rfl
      · exact List.prefix_append _ _
      · exact ⟨_, List.mem_append_right _ (List.mem_singleton.mpr rfl)⟩
    · rw [if_neg ho]
      refine ⟨_, ?_, ?_, ?_, ?_, ?_, Or.inr ⟨_, rfl⟩⟩
      · rfl
      · rfl
      · rfl
      · rfl
      · exact List.prefix_rfl
  · rename_i h
    exact Or.inl ⟨h, rfl⟩

end Path

@[simp] theorem createFin_path (t : Tick) (e : Endpoint C) :
    (e.createFin t).2.remoteAddr = e.remoteAddr ∧
      (e.createFin t).2.socketCommands = e.socketCommands ∧ (e.createFin t).2.sent = e.sent := by
  unfold createFin
  split <;> exact ⟨rfl, rfl, rfl⟩

@[simp] theorem sendEof_path (e : Endpoint C) :
    e.sendEof.remoteAddr = e.remoteAddr ∧ e.sendEof.socketCommands = e.socketCommands ∧
      e.sendEof.sent = e.sent ∧ e.sendEof.state = e.state := by
  unfold sendEof
  split <;> exact ⟨rfl, rfl, rfl, rfl⟩

theorem deliver_path (t : Tick) (e : Endpoint C) :
    (e.deliver t).2.remoteAddr = e.remoteAddr ∧
      (e.deliver t).2.socketCommands = e.socketCommands ∧ (e.deliver t).2.sent = e.sent ∧
      (e.deliver t).2.state = e.state := by
  obtain ⟨data, held, hd⟩ := deliver_eq (t := t) (e := e)
  rw [hd]
  exact ⟨rfl, rfl, rfl, rfl⟩

variable [CongestionControl C]

theorem Act.sent_mono (h : Act t l e e') : e.sent <+: e'.sent := by
  cases h with
  | packetize chunks b lead bs hs hp hlead hb =>
    change e.sent <+: ((e.cut t chunks b).createFin t).2.sent ++ _
    rw [(createFin_path t _).2.2]
    exact List.prefix_append _ _
  | sendEof hl =>
    rw [(sendEof_path e).2.2.1]
  | challenge | acknowledge | control | resend => exact List.prefix_append _ _
  | _ => exact List.prefix_rfl

theorem Acts.sent_mono (h : Acts t l e e') : e.sent <+: e'.sent :=
  h.preserves (P := fun e' => e.sent <+: e'.sent) (fun _ _ hp ha => hp.trans ha.sent_mono)
    (List.prefix_refl _)

omit [CongestionControl C] in
theorem sent_created (h : e.Created) : e.sent = [] := by
  cases h with
  | client config remoteAddr localCid cc initialData t => cases initialData <;> rfl
  | server => rfl

theorem Act.path (h : Act t l e e')
    (hl : ∀ header c a, l ≠ .frame t (.pathResponse header c) a) :
    e'.remoteAddr = e.remoteAddr ∧ e'.socketCommands = e.socketCommands := by
  cases h with
  | pathValidated header challenge a n hl' hs => exact absurd hl' (hl _ _ _)
  | packetize chunks b lead bs hs hp hlead hb =>
    change ((e.cut t chunks b).createFin t).2.remoteAddr = _ ∧
      ((e.cut t chunks b).createFin t).2.socketCommands = _
    rw [(createFin_path t _).1, (createFin_path t _).2.1]
    exact ⟨rfl, rfl⟩
  | sendEof hl' => exact ⟨(sendEof_path e).1, (sendEof_path e).2.1⟩
  | _ => exact ⟨rfl, rfl⟩

/-- Only a step that may start a validation leads to a validation that did not run before. -/
theorem Act.validating (h : Act t l e e') (hl : ¬ l.Challenges e.remoteAddr) :
    e'.state.isValidatingPath = true → e'.state = e.state := by
  intro hv
  cases h with
  | challenge a n hs hl' =>
    rcases hl' with ⟨f, rfl, ha⟩ | rfl
    · exact absurd (Or.inl ⟨t, f, a, rfl, ha⟩) hl
    · exact absurd (Or.inr ⟨t, a, n, rfl⟩) hl
  | packetize chunks b lead bs hs hp hlead hb =>
    change ((e.cut t chunks b).createFin t).2.state = _
    rw [createFin_state]
    rfl
  | sendEof hl' => exact (sendEof_path e).2.2.2
  | finArrived header a hl' hr =>
    dsimp only at hv ⊢
    revert hv
    cases e.state <;> simp [arrival, ConnectionState.isValidatingPath]
  | finReached hl' hr =>
    dsimp only at hv ⊢
    revert hv
    cases e.state <;> simp [consumption, ConnectionState.isValidatingPath]
  | shutdown hl' =>
    dsimp only [beginGracefulShutdown] at hv ⊢
    revert hv
    cases e.state <;>
      simp [ConnectionState.gracefulShutdown, ConnectionState.clone, ConnectionState.isValidatingPath]
  | establish | accept | pathValidated | validationTimeout | forceClose | close => cases hv
  | _ => rfl

theorem Acts.path (h : Acts t l e e')
    (hl : ∀ header c a, l ≠ .frame t (.pathResponse header c) a) :
    e'.remoteAddr = e.remoteAddr ∧ e'.socketCommands = e.socketCommands := by
  apply h.preserves (P := fun e' => e'.remoteAddr = e.remoteAddr ∧
    e'.socketCommands = e.socketCommands)
  · rintro e₁ e₂ ⟨hr, hs⟩ ha
    rw [(ha.path hl).1, (ha.path hl).2]
    exact ⟨hr, hs⟩
  · exact ⟨rfl, rfl⟩

theorem Issued.acts (h : e.Issued) (ha : Acts t l e e') (hl : ¬ l.Challenges e.remoteAddr)
    (hr : ∀ header c a, l ≠ .frame t (.pathResponse header c) a) : e'.Issued := by
  have hp := ha.preserves (P := fun e' => e'.remoteAddr = e.remoteAddr ∧ e'.Issued) (by
    rintro e₁ e₂ ⟨haddr, hi⟩ ha
    exact ⟨(ha.path hr).1.trans haddr, hi.of_validating (ha.validating (haddr ▸ hl)) ha.sent_mono⟩)
    ⟨rfl, h⟩
  exact hp.2

theorem Issued.processFrame (h : e.Issued) {f : Frame} (hok : e.processFrame t f a = .ok e') :
    e'.Issued := by
  -- without a path frame the address does not matter, so it may as well be the peer's
  have hacts (f : Frame) (hsame : e.processFrame t f a = e.processFrame t f e.remoteAddr)
      (hr : ∀ header c, f ≠ .pathResponse header c) (hok : e.processFrame t f a = .ok e') :
      e'.Issued := by
    have hlast : Outcome.last (e.processFrame t f e.remoteAddr) = e' := by
      rw [← hsame, hok]
      rfl
    rw [← hlast]
    apply h.acts (acts_processFrame rfl)
    · rintro (⟨t, f, a, he, ha⟩ | ⟨t, a, n, he⟩)
      · cases he
        exact ha rfl
      · cases he
    · rintro header c a he
      cases he
      exact hr _ _ rfl
  cases f with
  | pathResponse header c =>
    change e.handlePathResponseFrame c a = .ok e' at hok
    rcases handlePathResponseFrame_cases (e := e) c a with ⟨n, -, he⟩ | ⟨-, he⟩
    · rw [he] at hok
      cases hok
      intro a c n hs
      cases hs
    · rw [he] at hok
      cases hok
      exact h
  | pathChallenge header c =>
    change e.handlePathChallengeFrame t header c a = .ok e' at hok
    unfold handlePathChallengeFrame at hok
    split at hok
    · cases hok
      exact h
    · rw [sendPathResponse, sendFrameTo_eq] at hok
      rw [eq_of_sending_eq_ok hok]
      exact h.of_validating (fun _ => rfl) (List.prefix_append _ _)
  | push | ack | ping | fin | syn | synAck => exact hacts _ rfl (by simp) hok

theorem Issued.routeFrame (h : e.Issued) {f : Frame} (hok : e.routeFrame t f a = .ok e') :
    e'.Issued := by
  have hr : Issued { e with timing := e.timing.onPacketReceived t.now } := h
  rw [Endpoint.routeFrame] at hok
  rcases checkPathMigration_cases t { e with timing := e.timing.onPacketReceived t.now } a with
    ⟨-, hc⟩ | ⟨-, e₁, hs, -, -, -, -, hc⟩
  · rw [hc] at hok
    exact hr.processFrame hok
  · rcases hc with ⟨hc, hch⟩ | ⟨err, hc⟩ <;> rw [hc] at hok
    · have hi : e₁.Issued := by
        intro a' c n hs'
        rw [hs] at hs'
        cases hs'
        exact hch
      exact hi.processFrame hok
    · cases hok

theorem Issued.handleStreamCommand (h : e.Issued) {cmd : StreamCommand}
    (hok : e.handleStreamCommand t cmd = .ok e') : e'.Issued := by
  have hacts (hm : ∀ a n, cmd ≠ .migrate a n) : e'.Issued := by
    have ha := acts_handleStreamCommand (t := t) (e := e) (l := .command t cmd) rfl
    rw [hok] at ha
    apply h.acts ha
    · rintro (⟨t, f, a, he, -⟩ | ⟨t, a, n, he⟩) <;> cases he
      exact hm a n rfl
    · simp
  cases cmd with
  | sendData | close => exact hacts (by simp)
  | migrate a n =>
    change e.migrate t a n = .ok e' at hok
    unfold migrate at hok
    rw [startPathValidation_eq] at hok
    split at hok
    · rename_i heq
      split at heq
      · cases heq
      · cases heq
        cases hok
        exact h
    · rename_i heq
      split at heq
      · cases heq
        simp only [sendFrameTo, sendBatch] at hok
        split at hok
        · cases hok
          intro a' c n' hs
          cases hs
          exact ⟨_, List.mem_append_right _ (List.mem_singleton.mpr rfl)⟩
        · cases hok
      · cases heq

/-- A response moves the connection only if it answers the current challenge. -/
theorem routeFrame_pathResponse (header : ShortHeader) :
    e.Answers t c a ∧ MovesTo e a (Outcome.last (e.routeFrame t (.pathResponse header c) a)) ∧
        (e.Issued → (Outcome.last (e.routeFrame t (.pathResponse header c) a)).Challenged a c) ∨
      Stays t e a (Outcome.last (e.routeFrame t (.pathResponse header c) a)) := by
  rw [Endpoint.routeFrame]
  rcases checkPathMigration_cases t { e with timing := e.timing.onPacketReceived t.now } a with
    ⟨hno, hc⟩ | ⟨hyes, e₁, hs, hr, hcid, hcmd, -, hc⟩
  · rw [hc]
    change _ ∧ MovesTo e a (Outcome.last (handlePathResponseFrame _ c a)) ∧
      (_ → (Outcome.last (handlePathResponseFrame _ c a)).Challenged a c) ∨
        Stays t e a (Outcome.last (handlePathResponseFrame _ c a))
    rcases handlePathResponseFrame_cases
        (e := { e with timing := e.timing.onPacketReceived t.now }) c a with ⟨n, hn, he⟩ | ⟨-, he⟩
    · rw [he]
      left
      refine ⟨Or.inl ⟨n, hn⟩, ⟨rfl, rfl, rfl⟩, fun hi => ?_⟩
      exact (hi a c n hn).mono List.prefix_rfl
    · rw [he]
      right
      exact ⟨rfl, rfl, (if_neg hno).symm⟩
  · have hstay : Stays t e a e₁ := by
      refine ⟨hr, hcmd, ?_⟩
      rw [hs]
      exact (if_pos hyes).symm
    rcases hc with ⟨hc, hch⟩ | ⟨err, hc⟩ <;> rw [hc]
    · change _ ∧ MovesTo e a (Outcome.last (handlePathResponseFrame _ c a)) ∧
        (_ → (Outcome.last (handlePathResponseFrame _ c a)).Challenged a c) ∨
          Stays t e a (Outcome.last (handlePathResponseFrame _ c a))
      rcases handlePathResponseFrame_cases (e := e₁) c a with ⟨n, hn, he⟩ | ⟨-, he⟩
      · rw [he]
        left
        rw [hs] at hn
        cases hn
        refine ⟨Or.inr ⟨hyes.2, hyes.1, rfl⟩, ⟨rfl, ?_, rfl⟩, fun _ => ?_⟩
        · change e₁.socketCommands ++ [.updateAddr e₁.localCid a] = _
          rw [hcmd, hcid]
        · exact hch.mono List.prefix_rfl
      · rw [he]
        exact Or.inr hstay
    · exact Or.inr hstay

omit [CongestionControl C] in
theorem Created.issued (h : e.Created) : e.Issued := by
  intro a c n hs
  cases h with
  | client config remoteAddr localCid cc initialData t =>
    cases initialData <;> cases hs
  | server => cases hs

end Endpoint

namespace Machine

open Endpoint

variable {C : Type} [CongestionControl C] {m m' : Machine C} {l : Label}

/-- An endpoint that has not failed has sent the challenge of the running validation. -/
theorem issued (h : (system C).Reachable m) (hf : ∀ err, m.phase ≠ .failed err) :
    m.endpoint.Issued := by
  have hinv : (system C).Invariant fun m =>
      (∀ err, m.phase ≠ .failed err) → m.endpoint.Issued := by
    constructor
    · intro m hm _
      exact hm.2.issued
    · intro m l m' _ hi hn hf
      change m.next l = some m' at hn
      cases l with
      | begin t | poll t =>
        simp only [next, Option.ite_none_right_eq_some, Option.some.injEq] at hn
        have he := hi (by simp [hn.1])
        rw [← hn.2, settle_endpoint]
        have hq (r : SocketAddr) :
            ¬ Label.Challenges (.begin t) r ∧ ¬ Label.Challenges (.poll t) r := by
          simp [Label.Challenges]
        first
          | exact he.acts (acts_begin rfl) (hq _).1 (by simp)
          | exact he.acts (acts_checkAllTimeouts rfl) (hq _).2 (by simp)
      | frame t f a =>
        simp only [next, Option.ite_none_right_eq_some, Option.some.injEq] at hn
        have he := hi (by rcases hn.1 with hw | hw <;> simp [hw])
        rw [← hn.2] at hf ⊢
        cases hx : m.endpoint.routeFrame t f a with
        | ok e' => exact he.routeFrame hx
        | error r =>
          rw [hx] at hf
          exact absurd rfl (hf _)
      | command t c =>
        simp only [next, Option.ite_none_right_eq_some, Option.some.injEq] at hn
        have he := hi (by rcases hn.1 with hw | hw <;> simp [hw])
        rw [← hn.2] at hf ⊢
        cases hx : m.endpoint.handleStreamCommand t c with
        | ok e' => exact he.handleStreamCommand hx
        | error r =>
          rw [hx] at hf
          exact absurd rfl (hf _)
      | followUp t =>
        simp only [next, Option.ite_none_right_eq_some, Option.some.injEq] at hn
        have he := hi (by rcases hn.1 with hw | hw | hw <;> simp [hw])
        obtain ⟨haddr, -, hsent, hstate⟩ := deliver_path t m.endpoint
        have hd : Issued (m.endpoint.deliver t).2 :=
          he.of_validating (fun _ => hstate) (by rw [hsent])
        rw [← hn.2]
        exact hd.acts (acts_followUp rfl) (by simp [Label.Challenges]) (by simp)
      | fire id now =>
        simp only [next, Option.some.injEq] at hn
        rw [← hn] at hf ⊢
        exact hi hf
      | dropReplaced id =>
        simp only [next, Option.some.injEq] at hn
        rw [← hn] at hf ⊢
        exact hi hf
  exact hinv.holds h hf

/-- A step that moves the connection, or tells the socket to, takes a response from the new address
that answers the current challenge, which was sent there. Any other response leaves the address and
the socket alone, and the state as any frame from that address does. -/
theorem path_migration_authenticated (h : (system C).Reachable m) (hn : m.next l = some m') :
    (m'.endpoint.remoteAddr ≠ m.endpoint.remoteAddr ∨
        m'.endpoint.socketCommands ≠ m.endpoint.socketCommands →
      ∃ t header c a, l = .frame t (.pathResponse header c) a ∧ m.endpoint.Answers t c a ∧
        m'.endpoint.Challenged a c ∧ MovesTo m.endpoint a m'.endpoint) ∧
    ∀ t header c a, l = .frame t (.pathResponse header c) a → ¬ m.endpoint.Answers t c a →
      Stays t m.endpoint a m'.endpoint := by
  by_cases hl : ∃ t header c a, l = .frame t (.pathResponse header c) a
  · obtain ⟨t, header, c, a, rfl⟩ := hl
    simp only [next, Option.ite_none_right_eq_some, Option.some.injEq] at hn
    have hi := issued h (by rcases hn.1 with hw | hw <;> simp [hw])
    rw [← hn.2, settle_endpoint]
    rcases routeFrame_pathResponse (t := t) (e := m.endpoint) (a := a) (c := c) header with
      ⟨hans, hm, hch⟩ | hs
    · constructor
      · intro _
        exact ⟨t, header, c, a, rfl, hans, hch hi, hm⟩
      · rintro t' header' c' a' he hno
        cases he
        exact absurd hans hno
    · constructor
      · rintro (hne | hne)
        · exact absurd hs.remoteAddr_eq hne
        · exact absurd hs.socketCommands_eq hne
      · rintro t' header' c' a' he -
        cases he
        exact hs
  · have hsame : m'.endpoint.remoteAddr = m.endpoint.remoteAddr ∧
        m'.endpoint.socketCommands = m.endpoint.socketCommands := by
      rcases acts_of_next hn with ⟨t, -, ha⟩ | ⟨id, now, -, rfl⟩ | ⟨id, -, rfl⟩
      · have hopen : (m.opening l).remoteAddr = m.endpoint.remoteAddr ∧
            (m.opening l).socketCommands = m.endpoint.socketCommands := by
          cases l with
          | followUp t => exact ⟨(deliver_path t _).1, (deliver_path t _).2.1⟩
          | _ => exact ⟨rfl, rfl⟩
        have hpath := ha.path fun header c a he => hl ⟨t, header, c, a, he⟩
        exact ⟨hpath.1.trans hopen.1, hpath.2.trans hopen.2⟩
      · exact ⟨rfl, rfl⟩
      · exact ⟨rfl, rfl⟩
    constructor
    · rintro (hne | hne)
      · exact absurd hsame.1 hne
      · exact absurd hsame.2 hne
    · rintro t header c a he -
      exact absurd ⟨t, header, c, a, he⟩ hl

section Sample

/-- An established client hears from another address and validates it. -/
def movingRun : List Label :=
  [.begin (tick 0), .frame (tick 1) (.newSynAck 1 2 1) 80,
    .frame (tick 2) (.ping ⟨.ping, 1, 0, 256, 0, 0, 0⟩) 81]

/-- The answer from there moves it. -/
theorem path_migration_authenticated_sample : ∃ m m' : Machine Vegas,
    m.next (.frame (tick 3) (.newPathResponse 1 0 0 0) 81) = some m' ∧
      m.endpoint.remoteAddr = 80 ∧ m'.endpoint.Challenged 81 0 ∧
        MovesTo m.endpoint 81 m'.endpoint := by
  obtain ⟨m, m', hr, hn, hfrom, hto⟩ := exists_step movingRun
    (.frame (tick 3) (.newPathResponse 1 0 0 0) 81)
    (fun m m' => m.endpoint.remoteAddr = 80 ∧ m'.endpoint.remoteAddr = 81)
    tinyClient_created (by decide)
  obtain ⟨t, header, c, a, he, -, hch, hm⟩ :=
    (path_migration_authenticated hr.reachable hn).1 (Or.inl (by rw [hfrom, hto]; decide))
  cases he
  exact ⟨m, m', hn, hfrom, hch, hm⟩

/-- After the validation has ended a response with another value, from yet another address, starts
the validation of that one. -/
theorem response_starts_validation : ∃ m m' : Machine Vegas, (system Vegas).Reachable m ∧
    m.next (.frame (tick 4) (.newPathResponse 1 0 0 9) 82) = some m' ∧
      m.endpoint.state = .established ∧ m.endpoint.remoteAddr = 81 ∧
        (¬ ∃ c, m.endpoint.Challenged 82 c) ∧ m'.endpoint.state ≠ m.endpoint.state := by
  obtain ⟨m, m', hr, hn, hs, ha, hch, hs'⟩ := exists_step
    (movingRun ++ [.frame (tick 3) (.newPathResponse 1 0 0 0) 81])
    (.frame (tick 4) (.newPathResponse 1 0 0 9) 82)
    (fun m m' => m.endpoint.state = .established ∧ m.endpoint.remoteAddr = 81 ∧
      (∀ b ∈ m.endpoint.sent, b.remoteAddr ≠ 82) ∧
        m'.endpoint.state = .validatingPath 82 0 (some .detached))
    tinyClient_created (by decide)
  refine ⟨m, m', hr.reachable, hn, hs, ha, ?_, ?_⟩
  · rintro ⟨c, header, hm⟩
    exact hch _ hm rfl
  · rw [hs, hs']
    simp

end Sample

end Machine

end Kestrel
