import Kestrel.Endpoint.Handshake
import Kestrel.Endpoint.Legibility

/-! # Agreement on connection identifiers

A server endpoint takes its peer's CID from the SYN that creates it, and the client takes its peer's
from a SYN-ACK. Although the network loses, duplicates and reorders these frames, and every copy of
a SYN creates an endpoint of its own, the two sides always agree: each server endpoint has the CID
of the client, and a client that is connected has the CID of an endpoint whose user has accepted.
-/

namespace Kestrel

namespace ConnectionState

/-- The states in which a client has heard from its server and may still write. -/
def connected : ConnectionState → Bool
  | established | validatingPath .. | finWait => true
  | _ => false

end ConnectionState

section Mono

variable {own : Identity} {named : Prop} {peers : ℕ → Prop} (hnamed : own.named → named)
  (hpeers : ∀ cid, own.peers cid → peers cid)
include hnamed hpeers

theorem Frame.SentBy.mono {f : Frame} (h : f.SentBy own) :
    f.SentBy ⟨own.config, own.localCid, named, peers⟩ :=
  { h with
    origin := fun cid hc => (h.origin cid hc).imp_right hnamed
    destination := hpeers _ h.destination }

theorem Endpoint.Plain.mono {C : Type} {e : Endpoint C} (h : e.Plain own)
    (hwidth : ∀ cid, peers cid → cid < u32Size) :
    e.Plain ⟨own.config, own.localCid, named, peers⟩ :=
  { h with
    width := hwidth
    peerCid := hpeers _ h.peerCid
    sent := fun f hf => (h.sent f hf).mono hnamed hpeers }

end Mono

namespace Endpoint

variable {C : Type} {t : Tick} {l : Label} {known : ℕ → Prop} {e e' : Endpoint C}

/-- An endpoint of a client that, once it is connected, has one of the known CIDs for its peer. -/
structure Acquainted (known : ℕ → Prop) (e : Endpoint C) : Prop where
  state_ne : e.state ≠ .synReceived
  peerCid : e.state.connected = true → known e.peerCid

theorem Acquainted.mono (h : e.Acquainted known) {known' : ℕ → Prop}
    (hk : ∀ cid, known cid → known' cid) : e.Acquainted known' :=
  ⟨h.state_ne, fun hc => hk _ (h.peerCid hc)⟩

theorem Acquainted.congr (h : e.Acquainted known) (hs : e'.state = e.state)
    (hp : e'.peerCid = e.peerCid) : e'.Acquainted known :=
  ⟨hs ▸ h.state_ne, fun hc => hp ▸ h.peerCid (hs ▸ hc)⟩

theorem Acquainted.of_connected (hs : e.state.connected = true) (hk : known e.peerCid) :
    e.Acquainted known := by
  refine ⟨fun hc => ?_, fun _ => hk⟩
  rw [hc] at hs
  cases hs

variable [CongestionControl C]

theorem sendZeroRttPackets_ok_or (e : Endpoint C) :
    (∃ e', e.sendZeroRttPackets t = .ok e') ∨
      (Outcome.last (e.sendZeroRttPackets t)).framesSent = e.framesSent := by
  unfold sendZeroRttPackets
  split
  · rw [sendPackets_eq]
    unfold sending
    split
    · exact Or.inl ⟨_, rfl⟩
    · exact Or.inr rfl
  · exact Or.inr rfl

/-- Only a SYN-ACK makes a client connected, and nothing else changes the CID of its peer. -/
theorem Act.acquainted (h : Act t l e e') (he : e.Acquainted known)
    (hl : ∀ header a, l = .frame t (.synAck header) a → known header.sourceCid) :
    e'.Acquainted known := by
  obtain ⟨hne, hp⟩ := he
  cases h with
  | challenge a n hs _ => exact .of_connected rfl (hp (by rw [hs]; rfl))
  | establish header a hl' _ => exact .of_connected rfl (hl header a hl')
  | accept data _ hs => exact absurd hs hne
  | pathValidated header challenge a n _ hs => exact .of_connected rfl (hp (by rw [hs]; rfl))
  | validationTimeout hs =>
    refine .of_connected rfl (hp ?_)
    cases hstate : e.state <;> simp [hstate, ConnectionState.isValidatingPath] at hs
    rfl
  | finArrived header a _ _ =>
    constructor
    · cases hs : e.state <;> simp [arrival, hs] at hne ⊢
    · intro hc
      apply hp
      cases hs : e.state <;> simp [arrival, hs, ConnectionState.connected] at hne hc ⊢
  | finReached _ _ =>
    constructor
    · cases hs : e.state <;> simp [consumption, hs] at hne ⊢
    · intro hc
      apply hp
      cases hs : e.state <;> simp [consumption, hs, ConnectionState.connected] at hne hc ⊢
  | shutdown _ =>
    constructor
    · cases hs : e.state <;>
        simp [beginGracefulShutdown, ConnectionState.gracefulShutdown, ConnectionState.clone, hs]
          at hne ⊢
    · intro hc
      cases hs : e.state <;>
        simp [beginGracefulShutdown, ConnectionState.gracefulShutdown, ConnectionState.clone,
          ConnectionState.connected, hs] at hc
  | forceClose _ | close _ => exact ⟨(fun hc => by cases hc), (fun hc => by cases hc)⟩
  | packetize chunks b lead bs _ _ _ _ =>
    refine Acquainted.congr ⟨hne, hp⟩ createFin_state ?_
    change ((e.cut t chunks b).createFin t).2.peerCid = _
    unfold createFin
    split <;> rfl
  | sendEof _ =>
    refine Acquainted.congr ⟨hne, hp⟩ ?_ ?_
    · unfold Endpoint.sendEof
      split <;> rfl
    · unfold Endpoint.sendEof
      split <;> rfl
  | _ => exact ⟨hne, hp⟩

end Endpoint

theorem Machine.acquainted_of_next {C : Type} [CongestionControl C] {m m' : Machine C} {l : Label}
    {known : ℕ → Prop} (hm : m.endpoint.Acquainted known)
    (hl : ∀ t f a, l = .frame t f a → f.Introduces known) (h : m.next l = some m') :
    m'.endpoint.Acquainted known := by
  rcases acts_of_next h with ⟨t, -, ha⟩ | ⟨id, now, -, rfl⟩ | ⟨id, -, rfl⟩
  · have hopen : (m.opening l).Acquainted known := by
      cases l with
      | followUp t =>
        obtain ⟨data, held, hd⟩ := Endpoint.deliver_eq (t := t) (e := m.endpoint)
        change (m.endpoint.deliver t).2.Acquainted known
        rw [hd]
        exact ⟨hm.state_ne, hm.peerCid⟩
      | _ => exact hm
    refine ha.preserves (fun e₁ e₂ he ha => ha.acquainted he fun header a hf => ?_) hopen
    exact hl _ _ _ hf header rfl
  · exact ⟨hm.state_ne, hm.peerCid⟩
  · exact ⟨hm.state_ne, hm.peerCid⟩

namespace HandshakeEvent

def tick? : HandshakeEvent → Option Tick
  | .client l | .server _ l => l.tick?
  | .connect _ _ t _ | .toServer _ _ t _ | .toClient _ t _ => some t
  | .lose .. | .duplicate .. => none

/-- The CID that a new endpoint is given. -/
def newCid? : HandshakeEvent → Option ℕ
  | .connect _ cid _ _ => some cid
  | _ => none

/-- The random numbers of an event have the widths of their types. -/
def Typed (ev : HandshakeEvent) : Prop :=
  (∀ t ∈ ev.tick?, t.challenge < 256 ^ 8) ∧ ∀ cid ∈ ev.newCid?, cid < u32Size

instance (ev : HandshakeEvent) : Decidable ev.Typed := inferInstanceAs (Decidable (_ ∧ _))

end HandshakeEvent

namespace Server

variable {C : Type}

/-- The identity of a server endpoint, which may name itself once its user has accepted. -/
def identity (config : Config) (clientCid : ℕ) (server : Server C) : Identity :=
  ⟨config, server.machine.endpoint.localCid, server.accepted = true, (· = clientCid)⟩

/-- A server endpoint of a connection with the client. -/
structure Answers (config : Config) (clientCid : ℕ) (server : Server C) : Prop where
  plain : server.machine.endpoint.Plain (server.identity config clientCid)
  heard : server.machine.endpoint.state ≠ .connecting

end Server

namespace Machine

open Endpoint

variable {C : Type} [CongestionControl C] {m m' : Machine C} {l : Label} {config : Config}
  {clientCid : ℕ}

theorem framesSent_of_not_accepts {t : Tick} {data : Bytes}
    (h : m.next (.command t (.sendData data)) = some m') (hs : m.endpoint.state = .synReceived)
    (ha : m.accepts m' (.command t (.sendData data)) = false) :
    m'.endpoint.framesSent = m.endpoint.framesSent := by
  have hphase : m'.phase ≠ .commands := by
    intro hc
    rw [accepts, decide_eq_false_iff_not] at ha
    exact ha ⟨hs, hc⟩
  simp only [next, Option.ite_none_right_eq_some, Option.some.injEq] at h
  obtain ⟨-, rfl⟩ := h
  have hsend : m.endpoint.handleStreamCommand t (.sendData data) =
      (writeToStream { m.endpoint with state := .established } data).sendZeroRttPackets t := by
    change m.endpoint.sendData t data = _
    rw [sendData, if_pos hs, transitionTo_eq, if_pos (by rw [hs]; rfl)]
    rfl
  rw [hsend] at hphase ⊢
  rcases sendZeroRttPackets_ok_or (t := t)
    (writeToStream { m.endpoint with state := .established } data) with ⟨e', he⟩ | hsent
  · rw [he] at hphase
    exact absurd rfl hphase
  · rw [settle_endpoint, hsent]
    rfl

end Machine

theorem Server.Answers.next {C : Type} [CongestionControl C] {config : Config} {clientCid : ℕ}
    {server : Server C} {m : Machine C} {l : Label} (h : server.Answers config clientCid)
    (hl : l.Typed) (hsyn : ∀ t header a, l ≠ .frame t (.syn header) a)
    (hp : ∀ t f a, l = .frame t f a → f.Introduces (· = clientCid))
    (hn : server.machine.next l = some m) :
    m.endpoint.localCid = server.machine.endpoint.localCid ∧
      Server.Answers config clientCid ⟨m, server.accepted || server.machine.accepts m l⟩ := by
  obtain ⟨hplain, hheard⟩ := h
  -- what a step sends is the endpoint's, whether or not it may name itself
  have hstep (named : Prop) (hnamed : server.accepted = true → named)
      (hnames : server.machine.Names l → named) :
      m.endpoint.Plain ⟨config, server.machine.endpoint.localCid, named, (· = clientCid)⟩ :=
    Machine.plain_step (hplain.mono hnamed (fun _ hc => hc) hplain.width)
      ⟨hl, hnames, fun hc => absurd hc hheard, hp⟩ hn
  have hlocal := (hstep True (fun _ => trivial) (fun _ => trivial)).localCid_eq
  refine ⟨hlocal, ?_, fun hc => hheard (Machine.connecting_of_next hn hc)⟩
  rw [identity]
  dsimp only
  rw [hlocal]
  by_cases hnames : server.machine.Names l
  · cases l with
    | begin t => exact absurd hnames hheard
    | frame t f a =>
      cases f with
      | syn header => exact absurd rfl (hsyn t header a)
      | _ => exact absurd hnames id
    | command t c =>
      cases c with
      | sendData data =>
        cases ha : server.machine.accepts m (.command t (.sendData data)) with
        | true =>
          rw [Bool.or_true]
          exact hstep _ (fun _ => rfl) fun _ => rfl
        | false =>
          rw [Bool.or_false]
          have hsent := Machine.framesSent_of_not_accepts hn hnames ha
          exact { hstep True (fun _ => trivial) (fun _ => trivial) with
            sent := fun f hf => hplain.sent f (hsent ▸ hf) }
      | _ => exact absurd hnames id
    | _ => exact absurd hnames id
  · exact hstep _ (fun ha => by rw [ha, Bool.true_or]) fun hc => absurd hc hnames

namespace Handshake

open Machine Endpoint

variable {C : Type} {s s' : Handshake C} {clientConfig config : Config} {clientCid k : ℕ}
  {l : Label}

/-- The CID of a server endpoint whose user has accepted. -/
def Accepted (s : Handshake C) (cid : ℕ) : Prop :=
  ∃ server ∈ s.servers, server.accepted = true ∧ server.machine.endpoint.localCid = cid

/-- Where the client sends: to a server endpoint, or to nobody in particular before it has heard
from one. -/
def Addressee (s : Handshake C) (cid : ℕ) : Prop := cid = 0 ∨ s.Accepted cid

/-- Both sides agree on the connection identifiers, and so do the frames in transit. -/
structure Agreed (s : Handshake C) : Prop where
  server_peerCid : ∀ server ∈ s.servers,
    server.machine.endpoint.peerCid = s.client.endpoint.localCid
  client_peerCid : s.client.endpoint.state.connected = true →
    s.Accepted s.client.endpoint.peerCid
  toServer : ∀ f ∈ s.toServer, s.Addressee f.destinationCid ∧
    ∀ cid, f.sourceCid = some cid → cid = s.client.endpoint.localCid
  toClient : ∀ f ∈ s.toClient, f.destinationCid = s.client.endpoint.localCid ∧
    ∀ cid, f.sourceCid = some cid → s.Accepted cid

/-- All that the endpoints are and that is in transit belongs to a connection of the client with one
of the server endpoints. -/
structure Agreeing (clientConfig config : Config) (clientCid : ℕ) (s : Handshake C) : Prop where
  client : s.client.endpoint.Plain ⟨clientConfig, clientCid, True, s.Addressee⟩
  acquainted : s.client.endpoint.Acquainted s.Accepted
  servers : ∀ server ∈ s.servers, server.Answers config clientCid
  toServer : ∀ f ∈ s.toServer, f.SentBy ⟨clientConfig, clientCid, True, s.Addressee⟩
  toClient : ∀ f ∈ s.toClient, ∃ server ∈ s.servers, f.SentBy (server.identity config clientCid)

theorem Agreeing.agreed (h : s.Agreeing clientConfig config clientCid) : s.Agreed where
  server_peerCid server hs := (h.servers server hs).plain.peerCid.trans h.client.localCid_eq.symm
  client_peerCid := h.acquainted.peerCid
  toServer f hf := by
    have hsent := h.toServer f hf
    exact ⟨hsent.destination,
      fun cid hc => (hsent.origin cid hc).1.trans h.client.localCid_eq.symm⟩
  toClient f hf := by
    obtain ⟨server, hs, hsent⟩ := h.toClient f hf
    refine ⟨hsent.destination.trans h.client.localCid_eq.symm, fun cid hc => ?_⟩
    obtain ⟨hcid, haccepted⟩ := hsent.origin cid hc
    exact ⟨server, hs, haccepted, hcid.symm⟩

theorem Agreeing.created (h : s.Created) (hi : s.client.endpoint.Identified) (config : Config) :
    s.Agreeing s.client.endpoint.config config s.client.endpoint.localCid := by
  obtain ⟨⟨clientConfig, remoteAddr, cid, cc, data, t, hc⟩, hservers, hts, htc⟩ := h
  have hcreated : s.client.endpoint.Created := by
    rw [hc]
    exact .client ..
  have hpeer : s.client.endpoint.peerCid = 0 := by
    rw [hc]
    cases data <;> rfl
  have hstate : s.client.endpoint.state = .connecting := by
    rw [hc]
    cases data <;> rfl
  refine ⟨plain_created hcreated hi ?_ (Or.inl hpeer), ⟨?_, ?_⟩, ?_, ?_, ?_⟩
  · rintro cid (rfl | ⟨server, hs, -⟩)
    · decide
    · rw [hservers] at hs
      cases hs
  · rw [hstate]
    nofun
  · rw [hstate]
    nofun
  all_goals simp [hservers, hts, htc]

theorem Agreeing.mapTransit (h : s.Agreeing clientConfig config clientCid)
    {f : List Frame → List Frame} (hf : ∀ fs, f fs ⊆ fs) (w : Way) :
    (s.mapTransit f w).Agreeing clientConfig config clientCid := by
  cases w with
  | toServer => exact { h with toServer := fun g hg => h.toServer g (hf _ hg) }
  | toClient => exact { h with toClient := fun g hg => h.toClient g (hf _ hg) }

theorem Agreeing.remove (h : s.Agreeing clientConfig config clientCid) (w : Way) (i : ℕ) :
    (s.remove w i).Agreeing clientConfig config clientCid :=
  h.mapTransit (fun _ => List.eraseIdx_subset) w

/-- No server endpoint disappears, changes its CID or takes back its user's consent. -/
def Grows (s : Handshake C) (servers : List (Server C)) : Prop :=
  ∀ server ∈ s.servers, ∃ server' ∈ servers,
    server'.machine.endpoint.localCid = server.machine.endpoint.localCid ∧
      (server.accepted = true → server'.accepted = true)

theorem Grows.accepted {servers : List (Server C)} {toClient : List Frame} {cid : ℕ}
    (hg : s.Grows servers) (h : s.Accepted cid) : Accepted { s with servers, toClient } cid := by
  obtain ⟨server, hs, haccepted, hcid⟩ := h
  obtain ⟨server', hs', hlocal, hmono⟩ := hg server hs
  exact ⟨server', hs', hmono haccepted, hlocal.trans hcid⟩

/-- The agreement is kept when the server endpoints grow and all they send is theirs. -/
theorem Agreeing.grow (h : s.Agreeing clientConfig config clientCid) {servers : List (Server C)}
    {toClient : List Frame} (hg : s.Grows servers)
    (ha : ∀ server ∈ servers, server.Answers config clientCid)
    (hf : ∀ f ∈ toClient, f ∈ s.toClient ∨
      ∃ server ∈ servers, f.SentBy (server.identity config clientCid)) :
    Agreeing clientConfig config clientCid { s with servers, toClient } := by
  have haddressee (cid : ℕ) (hc : s.Addressee cid) : Addressee { s with servers, toClient } cid :=
    hc.imp_right hg.accepted
  constructor
  · refine h.client.mono id haddressee ?_
    rintro cid (rfl | ⟨server, hs, -, rfl⟩)
    · decide
    · exact (ha server hs).plain.localCid_lt
  · exact h.acquainted.mono fun _ => hg.accepted
  · exact ha
  · exact fun f hf => (h.toServer f hf).mono id haddressee
  · intro f hf'
    rcases hf f hf' with hold | hnew
    · obtain ⟨server, hs, hsent⟩ := h.toClient f hold
      obtain ⟨server', hs', hlocal, hmono⟩ := hg server hs
      refine ⟨server', hs', ?_⟩
      rw [Server.identity, hlocal]
      exact hsent.mono hmono fun _ hc => hc
    · exact hnew

theorem Agreeing.handleNewConnection (h : s.Agreeing clientConfig config clientCid)
    (hv : config.protocolVersion < 256) {header : LongHeader} {cid : ℕ} (hcid : cid < u32Size)
    (hh : header.sourceCid = clientCid) (cc : C) (t : Tick) (a : SocketAddr) :
    (s.handleNewConnection config cc header cid t a).Agreeing clientConfig config clientCid := by
  unfold Handshake.handleNewConnection
  split
  · have hwidth : clientCid < u32Size := h.client.localCid_lt
    refine h.grow (fun server hs => ?_) (fun server hs => ?_) fun f hf => Or.inl hf
    · exact ⟨server, List.mem_append_left _ hs, rfl, id⟩
    · rcases List.mem_append.mp hs with hold | hnew
      · exact h.servers server hold
      · rw [List.mem_singleton.mp hnew]
        exact ⟨plain_created (.server ..) ⟨hv, hcid, hh ▸ hwidth⟩ (fun c hc => hc ▸ hwidth) hh,
          nofun⟩
  · exact h

variable [CongestionControl C]

theorem Agreeing.stepClient (h : s.Agreeing clientConfig config clientCid) (hl : l.Typed)
    (hp : ∀ t f a, l = .frame t f a → f.Introduces s.Accepted) (hn : s.stepClient l = some s') :
    s'.Agreeing clientConfig config clientCid := by
  obtain ⟨m, hm, rfl⟩ := Option.map_eq_some_iff.mp hn
  have hsuits : s.client.Suits ⟨clientConfig, clientCid, True, s.Addressee⟩ l :=
    ⟨hl, fun _ => trivial, fun _ => Or.inl rfl,
      fun t f a he header hf => Or.inr (hp t f a he header hf)⟩
  have hclient := plain_step h.client hsuits hm
  refine { h with
    client := hclient
    acquainted := acquainted_of_next h.acquainted hp hm
    toServer := fun f hf => ?_ }
  rcases List.mem_append.mp hf with hf | hf
  · exact h.toServer f hf
  · exact hclient.sent f (List.mem_of_mem_drop hf)

theorem Agreeing.stepServer (h : s.Agreeing clientConfig config clientCid) (hl : l.Typed)
    (hsyn : ∀ t header a, l ≠ .frame t (.syn header) a)
    (hp : ∀ t f a, l = .frame t f a → f.Introduces (· = clientCid))
    (hn : s.stepServer k l = some s') : s'.Agreeing clientConfig config clientCid := by
  obtain ⟨server, hserver, hn⟩ := Option.bind_eq_some_iff.mp hn
  obtain ⟨m, hm, hn⟩ := Option.bind_eq_some_iff.mp hn
  cases hn
  have hlt : k < s.servers.length := (List.getElem?_eq_some_iff.mp hserver).1
  obtain ⟨hlocal, hanswers⟩ :=
    (h.servers server (List.mem_of_getElem? hserver)).next hl hsyn hp hm
  have hnew := List.mem_set hlt (⟨m, server.accepted || server.machine.accepts m l⟩ : Server C)
  refine h.grow (fun x hx => ?_) (fun x hx => ?_) fun f hf => ?_
  · obtain ⟨j, hj⟩ := List.mem_iff_getElem?.mp hx
    by_cases hjk : j = k
    · subst hjk
      rw [hserver] at hj
      cases hj
      exact ⟨_, hnew, hlocal, fun ha => by rw [ha, Bool.true_or]⟩
    · refine ⟨x, List.mem_iff_getElem?.mpr ⟨j, ?_⟩, rfl, id⟩
      rw [List.getElem?_set_ne (Ne.symm hjk)]
      exact hj
  · rcases List.mem_or_eq_of_mem_set hx with hold | rfl
    · exact h.servers x hold
    · exact hanswers
  · rcases List.mem_append.mp hf with hold | hsent
    · exact Or.inl hold
    · exact Or.inr ⟨_, hnew, hanswers.plain.sent f (List.mem_of_mem_drop hsent)⟩

/-- Every step keeps the agreement, as a frame that arrives is one that the other side has sent. -/
theorem Agreeing.next (h : s.Agreeing clientConfig config clientCid)
    (hv : config.protocolVersion < 256) {cc : C} {ev : HandshakeEvent} (hev : ev.Typed)
    (hn : s.next config cc ev = some s') : s'.Agreeing clientConfig config clientCid := by
  obtain ⟨hchallenge, hcid⟩ := hev
  have hlocal {l : Label} (ht : ∀ t ∈ l.tick?, t.challenge < 256 ^ 8)
      (hl : ¬ l.takesFrame = true) : l.Typed ∧ ∀ t f a, l ≠ .frame t f a := by
    cases l with
    | frame t f a => exact absurd rfl hl
    | _ => exact ⟨⟨trivial, ht⟩, nofun⟩
  cases ev with
  | client l =>
    simp only [Handshake.next, Option.ite_none_left_eq_some] at hn
    obtain ⟨hl, hne⟩ := hlocal hchallenge hn.1
    exact h.stepClient hl (fun t f a he => absurd he (hne t f a)) hn.2
  | server k l =>
    simp only [Handshake.next, Option.ite_none_left_eq_some] at hn
    obtain ⟨hl, hne⟩ := hlocal hchallenge hn.1
    exact h.stepServer hl (fun t header a => hne t _ a)
      (fun t f a he => absurd he (hne t f a)) hn.2
  | connect i cid t a =>
    simp only [Handshake.next] at hn
    split at hn
    · rename_i header hf
      cases hn
      have hsent := h.toServer _ (List.mem_of_getElem? hf)
      exact (h.remove .toServer i).handleNewConnection hv (hcid cid rfl)
        (hsent.origin header.sourceCid rfl).1 cc t a
    · cases hn
  | toServer i k t a =>
    obtain ⟨f, hf, hn⟩ := Option.bind_eq_some_iff.mp hn
    simp only [Option.ite_none_left_eq_some, Bool.not_eq_true] at hn
    have hsent := h.toServer f (List.mem_of_getElem? hf)
    have hl : (Label.frame t f a).Typed := ⟨hsent.fits, hchallenge⟩
    refine (h.remove .toServer i).stepServer hl ?_ ?_ hn.2
    · rintro t' header a' he
      cases he
      cases hn.1
    · rintro t' f' a' he header rfl
      cases he
      exact (hsent.origin header.sourceCid rfl).1
  | toClient i t a =>
    obtain ⟨f, hf, hn⟩ := Option.bind_eq_some_iff.mp hn
    obtain ⟨server, hs, hsent⟩ := h.toClient f (List.mem_of_getElem? hf)
    have hl : (Label.frame t f a).Typed := ⟨hsent.fits, hchallenge⟩
    refine (h.remove .toClient i).stepClient hl ?_ hn
    rintro t' f' a' he header rfl
    cases he
    obtain ⟨hcid, haccepted⟩ := hsent.origin header.sourceCid rfl
    exact ⟨server, hs, haccepted, hcid.symm⟩
  | lose w i =>
    cases hn
    exact h.remove w i
  | duplicate w i =>
    cases hn
    refine h.mapTransit (fun fs f hf => ?_) w
    rcases List.mem_append.mp hf with hf | hf
    · exact hf
    · exact List.mem_of_getElem? (Option.mem_toList.mp hf)

def typedSystem (config : Config) (cc : C) : TransitionSystem (Handshake C) HandshakeEvent :=
  (TransitionSystem.ofNext (fun s => s.Created ∧ s.client.endpoint.Identified)
    fun s ev => s.next config cc ev).restrict fun _ ev _ => ev.Typed

/-- However the network treats the frames and however many endpoints the SYNs create, both sides
agree on the connection identifiers, and a client is connected only to an endpoint that has
accepted. -/
theorem cids_agree {cc : C} (h : (typedSystem config cc).Reachable s)
    (hv : config.protocolVersion < 256) : s.Agreed := by
  have hagreeing : ∃ clientConfig clientCid, s.Agreeing clientConfig config clientCid := by
    induction h with
    | init h => exact ⟨_, _, Agreeing.created h.1 h.2 config⟩
    | step _ hn ih =>
      obtain ⟨clientConfig, clientCid, ha⟩ := ih
      exact ⟨clientConfig, clientCid, ha.next hv hn.2 hn.1⟩
  obtain ⟨clientConfig, clientCid, ha⟩ := hagreeing
  exact ha.agreed

section Sample

/-- Two copies of a SYN create two endpoints, the second of which accepts, and its SYN-ACK arrives
twice. -/
def agreeingRun : List HandshakeEvent :=
  [.client (.begin (tick 0)), .duplicate .toServer 0, .connect 0 2 (tick 1) 80,
    .connect 0 3 (tick 1) 80, .server 1 (.begin (tick 1)),
    .server 1 (.command (tick 1) (.sendData [7])), .duplicate .toClient 0,
    .toClient 0 (tick 2) 80, .toClient 0 (tick 2) 80]

theorem cids_agree_sample : ∃ s : Handshake Vegas,
    (s.client.endpoint.state = .established ∧ s.servers.map (·.accepted) = [false, true]) ∧
      s.Agreed := by
  have hinit : tinyHandshake.Created ∧ tinyHandshake.client.endpoint.Identified :=
    ⟨tinyHandshake_created, by decide, by decide, by decide⟩
  have hrun : ∃ s, (typedSystem tinyConfig (Vegas.new tinyConfig)).Run agreeingRun s ∧
      s.client.endpoint.state = .established ∧ s.servers.map (·.accepted) = [false, true] :=
    TransitionSystem.exists_restrict_run_of_foldlM agreeingRun hinit (by decide)
  obtain ⟨s, hr, hs⟩ := hrun
  exact ⟨s, hs, cids_agree hr.reachable (by decide)⟩

end Sample

end Handshake

end Kestrel
