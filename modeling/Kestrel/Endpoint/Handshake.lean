import Kestrel.Endpoint.Closing
import Kestrel.Endpoint.Migration

/-! # The handshake over a lossy network

A client, the server endpoints that its SYNs create, and the frames in transit between them, which
may be lost, duplicated and delivered in any order. Neither side keeps a SYN or a SYN-ACK for
retransmission, so the handshake goes on exactly as long as the network does not lose the last one.
-/

namespace Kestrel

def Frame.isSyn : Frame → Bool
  | .syn _ => true
  | _ => false

def Frame.isSynAck : Frame → Bool
  | .synAck _ => true
  | _ => false

/-- A step that takes a frame from the network. -/
def Label.takesFrame : Label → Bool
  | .frame .. => true
  | _ => false

namespace Machine

variable {C : Type} (m m' : Machine C)

def newFrames : List Frame := m'.endpoint.framesSent.drop m.endpoint.framesSent.length

/-- The step takes the first data of the server's user, which accepts the connection. -/
def accepts : Label → Bool
  | .command _ (.sendData _) => m.endpoint.state = .synReceived ∧ m'.phase = .commands
  | _ => false

/-- A SYN or SYN-ACK is kept for retransmission. -/
def Tracks : Prop :=
  ∃ q i, m.endpoint.reliability.retransmissionManager.Keeps q i ∧
    (i.frameType = .syn ∨ i.frameType = .synAck)

end Machine

/-- A server endpoint, and whether its user has accepted the connection. -/
structure Server (C : Type) where
  machine : Machine C
  accepted : Bool

inductive Way where
  | toServer
  | toClient
  deriving DecidableEq, Repr

structure Handshake (C : Type) where
  client : Machine C
  servers : List (Server C)
  toServer : List Frame
  toClient : List Frame

/-- What can happen next: a step of the client or of a server endpoint that takes no frame, the
arrival of a frame by its place in transit, and what the network does to one. -/
inductive HandshakeEvent where
  | client (l : Label)
  | server (k : ℕ) (l : Label)
  | connect (i cid : ℕ) (t : Tick) (srcAddr : SocketAddr)
  | toServer (i k : ℕ) (t : Tick) (srcAddr : SocketAddr)
  | toClient (i : ℕ) (t : Tick) (srcAddr : SocketAddr)
  | lose (w : Way) (i : ℕ)
  | duplicate (w : Way) (i : ℕ)
  deriving DecidableEq, Repr

namespace Handshake

variable {C : Type} (s : Handshake C)

/-- The frames in transit one way are changed. -/
def mapTransit (f : List Frame → List Frame) : Way → Handshake C
  | .toServer => { s with toServer := f s.toServer }
  | .toClient => { s with toClient := f s.toClient }

def remove (w : Way) (i : ℕ) : Handshake C := s.mapTransit (·.eraseIdx i) w

/-- A SYN or a SYN-ACK is on its way. -/
def Pending : Prop := s.toServer.any Frame.isSyn = true ∨ s.toClient.any Frame.isSynAck = true

instance : Decidable s.Pending := inferInstanceAs (Decidable (_ ∨ _))

/-- The client waits for its SYN-ACK, and every server endpoint that exists has accepted. -/
def Awaits : Prop :=
  s.client.Running ∧ s.client.endpoint.state = .connecting ∧
    ∀ server ∈ s.servers, server.accepted = true

instance : Decidable s.Awaits := inferInstanceAs (Decidable (_ ∧ _ ∧ _))

/-- The handshake can still succeed: a SYN or SYN-ACK is on its way or will be sent again, unless
the client's connection timer has fired. -/
def Survives : Prop :=
  s.Awaits → .connectionTimeout ∉ s.client.endpoint.timing.timerManager.timeoutRx →
    s.Pending ∨ s.client.Tracks ∨ ∃ server ∈ s.servers, server.machine.Tracks

/-- The loss of a frame leaves a SYN or SYN-ACK on its way if one is needed. -/
def Spares (w : Way) (i : ℕ) : Prop := s.Awaits → (s.remove w i).Pending

instance (w : Way) (i : ℕ) : Decidable (s.Spares w i) := inferInstanceAs (Decidable (_ → _))

variable [CongestionControl C]

def stepClient (l : Label) : Option (Handshake C) :=
  (s.client.next l).map fun m =>
    { s with client := m, toServer := s.toServer ++ s.client.newFrames m }

def stepServer (k : ℕ) (l : Label) : Option (Handshake C) := do
  let server ← s.servers[k]?
  let m ← server.machine.next l
  return { s with
    servers := s.servers.set k ⟨m, server.accepted || server.machine.accepts m l⟩
    toClient := s.toClient ++ server.machine.newFrames m }

variable (config : Config) (cc : C)

/-- A SYN creates an endpoint of its own, whatever endpoints there are, if the server speaks its
version of the protocol. -/
def handleNewConnection (header : LongHeader) (cid : ℕ) (t : Tick) (srcAddr : SocketAddr) :
    Handshake C :=
  if header.protocolVersion = config.protocolVersion then
    { s with
      servers := s.servers ++
        [⟨⟨.newServer config srcAddr cid header.sourceCid cc t, .created⟩, false⟩] }
  else s

def next : HandshakeEvent → Option (Handshake C)
  | .client l => if l.takesFrame then none else s.stepClient l
  | .server k l => if l.takesFrame then none else s.stepServer k l
  | .connect i cid t srcAddr =>
    match s.toServer[i]? with
    | some (.syn header) =>
      some ((s.remove .toServer i).handleNewConnection config cc header cid t srcAddr)
    | _ => none
  | .toServer i k t srcAddr => do
    let f ← s.toServer[i]?
    if f.isSyn then none else (s.remove .toServer i).stepServer k (.frame t f srcAddr)
  | .toClient i t srcAddr => do
    let f ← s.toClient[i]?
    (s.remove .toClient i).stepClient (.frame t f srcAddr)
  | .lose w i => some (s.remove w i)
  | .duplicate w i => some (s.mapTransit (fun fs => fs ++ fs[i]?.toList) w)

def Created : Prop :=
  (∃ config remoteAddr cid cc data t,
    s.client = ⟨.newClient config remoteAddr cid cc data t, .created⟩) ∧
  s.servers = [] ∧ s.toServer = [] ∧ s.toClient = []

def system : TransitionSystem (Handshake C) HandshakeEvent :=
  .ofNext Created fun s ev => s.next config cc ev

/-- The network loses no SYN or SYN-ACK that is the last one, by dropping it or because the server
does not speak its version. -/
def KeepsLast (config : Config) (s : Handshake C) : HandshakeEvent → Prop
  | .lose w i => s.Spares w i
  | .connect i _ _ _ =>
    match s.toServer[i]? with
    | some (.syn header) =>
      header.protocolVersion = config.protocolVersion ∨ s.Spares .toServer i
    | _ => True
  | _ => True

instance (config : Config) (s : Handshake C) (ev : HandshakeEvent) :
    Decidable (s.KeepsLast config ev) := by
  unfold KeepsLast
  split
  · infer_instance
  · split <;> infer_instance
  · infer_instance

/-- The runs in which the network never loses the last SYN or SYN-ACK. -/
def systemKeeping : TransitionSystem (Handshake C) HandshakeEvent :=
  (system config cc).restrict fun s ev _ => s.KeepsLast config ev

end Handshake

namespace Machine

open Endpoint

variable {C : Type} {m m' : Machine C} {l : Label} {t : Tick} {e : Endpoint C}

theorem mem_newFrames {fs : List Frame} {f : Frame}
    (h : m'.endpoint.framesSent = m.endpoint.framesSent ++ fs) (hf : f ∈ fs) :
    f ∈ m.newFrames m' := by
  rw [newFrames, h, List.drop_left]
  exact hf

theorem framesSent_of_sending {phase : Phase} {bs : List FrameBatch}
    (hr : (settle phase (sending t e bs)).Running) :
    (settle phase (sending t e bs)).endpoint.framesSent =
      e.framesSent ++ bs.flatMap (·.frames) := by
  unfold sending at hr ⊢
  split at hr
  · rename_i h
    rw [if_pos h]
    rcases h with h | rfl
    · change (e.emit t bs).framesSent = _
      rw [emit_of_senderOpen h]
      simp [framesSent]
    · simp [settle]
  · simp [settle, Running] at hr

variable [CongestionControl C]

theorem connecting_of_next (h : m.next l = some m') (hc : m'.endpoint.state = .connecting) :
    m.endpoint.state = .connecting := by
  rcases acts_of_next h with ⟨t, -, ha⟩ | ⟨id, now, -, rfl⟩ | ⟨id, -, rfl⟩
  · have hopen : (m.opening l).state = m.endpoint.state := by
      cases l with
      | followUp t => exact (deliver_path t _).2.2.2
      | _ => rfl
    rw [← hopen]
    by_contra hne
    refine ha.preserves (P := fun e => e.state ≠ .connecting) ?_ hne hc
    intro e₁ e₂ hne ha hc
    exact hne (ha.connecting hc)
  · exact hc
  · exact hc

theorem syn_of_begin (h : m.next (.begin t) = some m') (hc : m.endpoint.state = .connecting)
    (hr : m'.Running) : (m.newFrames m').any Frame.isSyn = true := by
  simp only [next, Option.ite_none_right_eq_some, Option.some.injEq] at h
  obtain ⟨-, rfl⟩ := h
  obtain ⟨chunks, b, hp, he⟩ := packetizeStream_eq (t := t) (e := m.endpoint)
  have hb : m.endpoint.begin t = m.endpoint.sendInitialSyn t := by
    rw [Endpoint.begin, hc]
  rw [hb, sendInitialSyn, he] at hr ⊢
  dsimp only at hr ⊢
  rw [List.any_eq_true]
  refine ⟨m.endpoint.createSynFrame, ?_, rfl⟩
  split at hr
  · rename_i hsize
    rw [if_pos hsize]
    rw [sendRawFrames_eq] at hr ⊢
    have hsent := framesSent_of_sending hr
    rw [frames_batches] at hsent
    exact mem_newFrames hsent (by simp)
  · simp [settle, Running] at hr

theorem framesSent_of_sendZeroRttPackets {phase : Phase}
    (hr : (settle phase (e.sendZeroRttPackets t)).Running) : ∃ fs,
      (settle phase (e.sendZeroRttPackets t)).endpoint.framesSent =
        e.framesSent ++ e.createSynAckFrame :: fs := by
  unfold sendZeroRttPackets at hr ⊢
  split at hr
  · rename_i packets reliability heq
    obtain ⟨chunks, b, hp, hf, rfl⟩ :=
      ReliabilityLayer.packetizeZeroRttStreamData_eq (by rfl) heq
    rw [sendPackets_eq] at hr ⊢
    have hsent := framesSent_of_sending hr
    rw [frames_batches] at hsent
    exact ⟨_, hsent.trans (congrArg (e.framesSent ++ ·) hf)⟩
  · simp [settle, Running] at hr

theorem synAck_of_accepts (h : m.next l = some m') (ha : m.accepts m' l = true) :
    (m.newFrames m').any Frame.isSynAck = true := by
  unfold accepts at ha
  split at ha
  · rename_i t data
    rw [decide_eq_true_eq] at ha
    obtain ⟨hs, hphase⟩ := ha
    simp only [next, Option.ite_none_right_eq_some, Option.some.injEq] at h
    obtain ⟨-, rfl⟩ := h
    have hsend : m.endpoint.handleStreamCommand t (.sendData data) =
        (writeToStream { m.endpoint with state := .established } data).sendZeroRttPackets t := by
      change m.endpoint.sendData t data = _
      rw [sendData, if_pos hs, transitionTo_eq, if_pos (by rw [hs]; rfl)]
      rfl
    rw [hsend] at hphase ⊢
    obtain ⟨fs, hsent⟩ := framesSent_of_sendZeroRttPackets (Or.inr (Or.inr (Or.inl hphase)))
    exact List.any_eq_true.mpr ⟨_, mem_newFrames hsent List.mem_cons_self, rfl⟩
  · cases ha

theorem not_connecting_of_synAck {header : LongHeader} {a : SocketAddr}
    (h : m.next (.frame t (.synAck header) a) = some m') (hr : m'.Running) :
    m'.endpoint.state ≠ .connecting := by
  intro hc
  have hcon := connecting_of_next h hc
  simp only [next, Option.ite_none_right_eq_some, Option.some.injEq] at h
  obtain ⟨-, rfl⟩ := h
  set e := { m.endpoint with timing := m.endpoint.timing.onPacketReceived t.now } with he
  set e₁ : Endpoint C := { e with
    timing := e.timing.cancelTimer .connectionTimeout
    state := .established
    peerCid := header.sourceCid } with he₁
  have hroute : m.endpoint.routeFrame t (.synAck header) a =
      if !e₁.reliability.isSendBufferEmpty then e₁.packetizeAndSend t
      else e₁.sendStandaloneAck t := by
    have hpath : e.checkPathMigration t a = .ok e := if_neg (by rw [he]; simp [hcon])
    change e.checkPathMigration t a >>= (fun e => e.processFrame t (.synAck header) a) = _
    rw [hpath]
    change e.handleSynAckFrame t header = _
    unfold handleSynAckFrame
    rw [hcon]
    dsimp only
    rw [transitionTo_eq, if_pos (by rfl)]
    rfl
  have hacts : Acts t (.frame t (.synAck header) a) e₁
      (Outcome.last (m.endpoint.routeFrame t (.synAck header) a)) := by
    rw [hroute]
    split
    · exact acts_packetizeAndSend rfl
    · exact acts_sendStandaloneAck
  rw [settle_endpoint] at hc
  refine hacts.preserves (P := fun e => e.state ≠ .connecting) ?_ (by simp [he₁]) hc
  intro e₂ e₃ hne ha hc
  exact hne (ha.connecting hc)

end Machine

namespace Handshake

open Machine

variable {C : Type} {s s' : Handshake C} {k : ℕ} {l : Label}

theorem Pending.mono (h : s.Pending) (hs : s.toServer ⊆ s'.toServer)
    (hc : s.toClient ⊆ s'.toClient) : s'.Pending := by
  simp only [Pending, List.any_eq_true] at h ⊢
  rcases h with ⟨f, hf, hp⟩ | ⟨f, hf, hp⟩
  · exact Or.inl ⟨f, hs hf, hp⟩
  · exact Or.inr ⟨f, hc hf, hp⟩

theorem any_eraseIdx {p : Frame → Bool} {fs : List Frame} {i : ℕ} {f : Frame}
    (hf : fs[i]? = some f) (hp : p f = false) (h : fs.any p = true) :
    (fs.eraseIdx i).any p = true := by
  obtain ⟨g, hg, hpg⟩ := List.any_eq_true.mp h
  obtain ⟨j, hj⟩ := List.mem_iff_getElem?.mp hg
  refine List.any_eq_true.mpr ⟨g, ?_, hpg⟩
  rw [List.mem_eraseIdx_iff_getElem?]
  refine ⟨j, ?_, hj⟩
  rintro rfl
  rw [hf] at hj
  cases hj
  rw [hp] at hpg
  cases hpg

variable [CongestionControl C]

theorem pending_of_stepClient (h : s.stepClient l = some s') (hp : s.Awaits → s.Pending)
    (hl : ∀ t header a, l ≠ .frame t (.synAck header) a) (ha : s'.Awaits) : s'.Pending := by
  obtain ⟨m, hm, rfl⟩ := Option.map_eq_some_iff.mp h
  obtain ⟨hr, hc, hall⟩ := ha
  have hcon := connecting_of_next hm hc
  rcases running_of_next hm hr with hrun | ⟨t, rfl⟩
  · exact (hp ⟨hrun, hcon, hall⟩).mono (List.subset_append_left _ _) (List.Subset.refl _)
  · left
    rw [List.any_append, syn_of_begin hm hcon hr, Bool.or_true]

theorem pending_of_stepServer (h : s.stepServer k l = some s') (hp : s.Awaits → s.Pending)
    (ha : s'.Awaits) : s'.Pending := by
  obtain ⟨server, hserver, h⟩ := Option.bind_eq_some_iff.mp h
  obtain ⟨m, hm, h⟩ := Option.bind_eq_some_iff.mp h
  cases h
  obtain ⟨hr, hc, hall⟩ := ha
  have hlt : k < s.servers.length := (List.getElem?_eq_some_iff.mp hserver).1
  have hnew := hall _ (List.mem_set hlt _)
  rw [Bool.or_eq_true] at hnew
  rcases hnew with hold | hacc
  · -- the endpoint that steps had accepted before, so all had
    have hall' : ∀ x ∈ s.servers, x.accepted = true := by
      intro x hx
      obtain ⟨j, hj⟩ := List.mem_iff_getElem?.mp hx
      by_cases hjk : j = k
      · subst hjk
        rw [hserver] at hj
        cases hj
        exact hold
      · refine hall x (List.mem_iff_getElem?.mpr ⟨j, ?_⟩)
        rw [List.getElem?_set_ne (Ne.symm hjk)]
        exact hj
    exact (hp ⟨hr, hc, hall'⟩).mono (List.Subset.refl _) (List.subset_append_left _ _)
  · right
    rw [List.any_append, synAck_of_accepts hm hacc, Bool.or_true]

/-- As long as the network does not lose the last one, a SYN or SYN-ACK is on its way to a client
that waits and a server that has accepted. -/
theorem pending {config : Config} {cc : C} (h : (systemKeeping config cc).Reachable s)
    (ha : s.Awaits) : s.Pending := by
  have hinv : (systemKeeping config cc).Invariant fun s => s.Awaits → s.Pending := by
    constructor
    · rintro s ⟨⟨config, remoteAddr, cid, cc, data, t, hcl⟩, -⟩ ⟨hr, -⟩
      rw [hcl] at hr
      simp [Running] at hr
    · rintro s ev s' - hp ⟨hn, hk⟩ ha
      change s.next config cc ev = some s' at hn
      cases ev with
      | client l =>
        simp only [next, Option.ite_none_left_eq_some, Bool.not_eq_true] at hn
        refine pending_of_stepClient hn.2 hp ?_ ha
        rintro t header a rfl
        exact absurd hn.1 (by simp [Label.takesFrame])
      | server k l =>
        simp only [next, Option.ite_none_left_eq_some] at hn
        exact pending_of_stepServer hn.2 hp ha
      | connect i cid t a =>
        simp only [next] at hn
        simp only [KeepsLast] at hk
        split at hn
        · rename_i header hf
          rw [hf] at hk
          cases hn
          unfold handleNewConnection at ha ⊢
          split at ha
          · -- the new endpoint has not accepted
            exact absurd (ha.2.2 _ (List.mem_append_right _ (List.mem_singleton_self _))) (by simp)
          · rename_i hv
            rw [if_neg hv]
            exact hk.resolve_left hv ha
        · cases hn
      | toServer i k t a =>
        obtain ⟨f, hf, hn⟩ := Option.bind_eq_some_iff.mp hn
        simp only [Option.ite_none_left_eq_some, Bool.not_eq_true] at hn
        refine pending_of_stepServer hn.2 (fun ha => ?_) ha
        rcases hp ha with hsyn | hack
        · exact Or.inl (any_eraseIdx hf hn.1 hsyn)
        · exact Or.inr hack
      | toClient i t a =>
        obtain ⟨f, hf, hn⟩ := Option.bind_eq_some_iff.mp hn
        have hne (header : LongHeader) : f ≠ .synAck header := by
          rintro rfl
          obtain ⟨m, hm, rfl⟩ := Option.map_eq_some_iff.mp hn
          exact not_connecting_of_synAck hm ha.1 ha.2.1
        refine pending_of_stepClient hn (fun ha => ?_) ?_ ha
        · rcases hp ha with hsyn | hack
          · exact Or.inl hsyn
          · refine Or.inr (any_eraseIdx hf ?_ hack)
            cases f <;> first | rfl | exact absurd rfl (hne _)
        · rintro t header a he
          cases he
          exact hne header rfl
      | lose w i =>
        cases hn
        cases w <;> exact hk ha
      | duplicate w i =>
        cases hn
        cases w
        · exact (hp ha).mono (List.subset_append_left _ _) (List.Subset.refl _)
        · exact (hp ha).mono (List.Subset.refl _) (List.subset_append_left _ _)
  exact hinv.holds h ha

/-- The handshake survives as long as the network does not lose the last SYN or SYN-ACK. -/
theorem handshake_survives {config : Config} {cc : C} (h : (systemKeeping config cc).Reachable s) :
    s.Survives := by
  intro ha _
  exact Or.inl (pending h ha)

section Sample

def tinyHandshake : Handshake Vegas := ⟨tinyClient, [], [], []⟩

theorem tinyHandshake_created : tinyHandshake.Created :=
  ⟨⟨tinyConfig, 80, 1, Vegas.new tinyConfig, none, tick 0, rfl⟩, rfl, rfl, rfl⟩

/-- The server accepts, and one of two SYN-ACKs is lost. -/
def lossyRun : List HandshakeEvent :=
  [.client (.begin (tick 0)), .duplicate .toServer 0, .lose .toServer 1,
    .connect 0 2 (tick 1) 80, .server 0 (.begin (tick 1)),
    .server 0 (.command (tick 1) (.sendData [7])), .duplicate .toClient 0, .lose .toClient 0]

theorem handshake_survives_sample : ∃ s : Handshake Vegas,
    (s.client.endpoint.state = .connecting ∧ s.servers.map (·.accepted) = [true]) ∧ s.Survives := by
  have hrun : ∃ s, (systemKeeping tinyConfig (Vegas.new tinyConfig)).Run lossyRun s ∧
      s.client.endpoint.state = .connecting ∧ s.servers.map (·.accepted) = [true] :=
    TransitionSystem.exists_restrict_run_of_foldlM lossyRun tinyHandshake_created (by decide)
  obtain ⟨s, hr, hs⟩ := hrun
  exact ⟨s, hs, handshake_survives hr.reachable⟩

/-- The client sends its SYN once; when that is lost, nothing is left of the handshake. -/
theorem handshake_lost : ∃ s : Handshake Vegas,
    (system tinyConfig (Vegas.new tinyConfig)).Reachable s ∧ ¬ s.Survives := by
  have hrun : ∃ s, (system tinyConfig (Vegas.new tinyConfig)).Run
      [.client (.begin (tick 0)), .lose .toServer 0] s ∧
        s.Awaits ∧ s.client.endpoint.timing.timerManager.timeoutRx = [] ∧ ¬ s.Pending ∧
          s.servers = [] ∧ s.client.endpoint.reliability.isInFlightEmpty = true :=
    TransitionSystem.exists_run_of_foldlM _ tinyHandshake_created (by decide)
  obtain ⟨s, hr, ha, ht, hp, hs, hi⟩ := hrun
  refine ⟨s, hr.reachable, fun hsurv => ?_⟩
  rcases hsurv ha (by rw [ht]; simp) with hpend | ⟨q, i, hk, -⟩ | ⟨server, hm, -⟩
  · exact hp hpend
  · exact RetransmissionManager.isAllInFlightEmpty_iff.mp hi q i hk
  · rw [hs] at hm
    cases hm

end Sample

end Handshake

end Kestrel
