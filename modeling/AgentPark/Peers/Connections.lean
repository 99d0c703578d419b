import AgentPark.Lib.Dict
import AgentPark.Lib.Execution
import Mathlib.Algebra.Order.Ring.Unbundled.Rat

/-!
# Connections to peers

`PeerConnections` keeps one link for each peer.  A new link removes the old one first, and waits for
its connection to close before it stores itself; a negotiation waits for the connection and the
coordinator.  At each of these points other calls go on, and each of them may raise.

* `Apart` is the condition on a step under which no link is displaced: a `connect` or an `accept`
  starts while no other one for its peer is going on.  The service runs both under `signal_lock`.
-/

namespace AgentPark.Peers

open Lib

/-! ### Signals -/

inductive SignalKind where
  | connect
  | offer
  | answer
deriving DecidableEq

/-- `Signal`; its `sdp` goes to the connection alone. -/
structure Signal where
  kind : SignalKind
  sessionId : String
  target : String
  publicKey : String
  expiresAt : Int
  signature : String
deriving DecidableEq

/-- `PortalIceCandidate` -/
structure PortalIceCandidate where
  sessionId : String
  target : String
  publicKey : String
  expiresAt : Int
  signature : String
  sequence : Nat
  candidate : Option String
deriving DecidableEq

/-- `PORTAL_SIGNAL` -/
inductive PortalSignal where
  | signal (signal : Signal)
  | candidate (candidate : PortalIceCandidate)
deriving DecidableEq

namespace PortalSignal

def target : PortalSignal → String
  | signal s => s.target
  | candidate c => c.target

def publicKey : PortalSignal → String
  | signal s => s.publicKey
  | candidate c => c.publicKey

def expiresAt : PortalSignal → Int
  | signal s => s.expiresAt
  | candidate c => c.expiresAt

end PortalSignal

/-- The own identity, and what the cryptography says. -/
structure Identity where
  peerId : String
  /-- `verify` accepts the signature. -/
  verified : PortalSignal → Bool
  /-- `peer_id` -/
  peerOf : String → String

/-- `SIGNAL_TTL_SECONDS + SIGNAL_CLOCK_SKEW_SECONDS` -/
def signalLifetime : ℚ := 120 + 5

/-- `verify_signal` -/
def verifySignal (identity : Identity) (signal : PortalSignal) (now : ℚ) : Option String :=
  if signal.target ≠ identity.peerId ∨
      ¬ (0 < signal.expiresAt - now ∧ signal.expiresAt - now ≤ signalLifetime) then none
  else if identity.verified signal then some (identity.peerOf signal.publicKey)
  else none

/-- `PortalIceOrder` -/
structure PortalIceOrder where
  binding : Option (String × String) := none
  sequence : Nat := 0
  complete : Bool := false
deriving DecidableEq

/-- `PortalIceOrder.accept` -/
def PortalIceOrder.accept (order : PortalIceOrder) : PortalSignal → Option PortalIceOrder
  | .signal signal =>
    if signal.kind ≠ .offer ∨ order.binding ≠ none then none
    else some { order with binding := some (signal.target, signal.sessionId) }
  | .candidate candidate =>
    if order.binding ≠ some (candidate.target, candidate.sessionId) then none
    else if order.complete ∨ candidate.sequence ≠ order.sequence then none
    else
      some { order with
        sequence := order.sequence + 1
        complete := candidate.candidate.isNone }

/-! ### Links -/

inductive ConnectionState where
  | new
  | connecting
  | connected
  | disconnected
  | failed
  | closed
deriving DecidableEq

inductive SignalingState where
  | stable
  | haveLocalOffer
  | haveRemoteOffer
  | closed
deriving DecidableEq

/-- `Link` with its connection, which is made for it alone.  `closed`: its `close()` has been called;
what a `close()` that raises leaves behind is the connection's own. -/
structure Link where
  peer : String
  sessionId : String
  createdAt : ℚ
  /-- Whether the channel is closed, where there is one. -/
  channel : Option Bool := none
  portal : Bool := false
  portalIce : Option PortalIceOrder := none
  closed : Bool := false
deriving DecidableEq

/-- Close the channel and the connection. -/
def Link.close (link : Link) : Link :=
  { link with channel := link.channel.map fun _ => true, closed := true }

/-- The key of a signal in `seen`. -/
structure SignalKey where
  peer : String
  kind : SignalKind
  sessionId : String
deriving DecidableEq

/-- A signal that has passed the check for a replay. -/
structure Acted where
  key : SignalKey
  expiresAt : Int
  now : ℚ

/-- `PeerConnections`.  The links that were made have numbers; `links` has those that are stored.
`clock`, `acted` and `applied` only watch: the time, the signals that were acted upon and the
candidates that were taken for a link. -/
structure Connections where
  links : List (String × Nat) := []
  seen : List (SignalKey × Int) := []
  made : List Link := []
  clock : ℚ := 0
  acted : List Acted := []
  applied : List (Nat × Nat) := []

/-- What a call reads from its surroundings between two points where it waits.  `arrived` and `now`
are `time.time()` in `verify_signal` and in `accept`; `connection` and `signaling` are the states of
the peer's connection while it is not closed; `fresh`: the ICE servers can be listed; `session` is
`uuid.uuid4().hex`. -/
structure Readings where
  arrived : ℚ
  now : ℚ
  monotonic : ℚ
  connection : ConnectionState
  signaling : SignalingState
  /-- There is a grant, or the remote directory allows the connection. -/
  allowed : Bool
  fresh : Bool
  session : String

/-- What a negotiation waits for. -/
inductive Await where
  | createOffer
  | createAnswer
  | setLocalDescription
  | setRemoteDescription
  | sendSignal
deriving DecidableEq

/-- What follows when the old connection has closed. -/
inductive AfterRemove where
  | return
  /-- `close` goes on with these peers. -/
  | close (rest : List String)
  /-- `new` makes the link: for an offer, or for the answer to one. -/
  | new (peer : String) (sessionId : String) (answers : Option (Signal × Bool))
deriving DecidableEq

/-- Where a call waits. -/
inductive Pause where
  | done
  | removing (link : Nat) (after : AfterRemove)
  /-- `connect` asks the other side for an offer. -/
  | asking (peer : String)
  | negotiating (peer : String) (link : Nat) (current : Await) (rest : List Await)
  /-- The negotiation has failed and its connection closes. -/
  | releasing (peer : String) (link : Nat)
  | applying (peer : String) (link : Nat)
deriving DecidableEq

/-! ### Calls -/

namespace Connections

variable (c : Connections)

def modify (n : Nat) (f : Link → Link) : Connections := { c with made := c.made.modify n f }

/-- What a popped link is waited for: its channel is closed and `close()` called. -/
def pop (peer : String) (n : Nat) : Connections :=
  { c with links := dictErase c.links peer }.modify n Link.close

/-- `remove` -/
def remove (peer : String) : Connections × Pause :=
  match c.links.lookup peer with
  | some n => (c.pop peer n, .removing n .return)
  | none => (c, .done)

/-- The loop of `close` over the peers that had a link when it began. -/
def closeRest (c : Connections) : List String → Connections × Pause
  | [] => (c, .done)
  | peer :: rest =>
    match c.links.lookup peer with
    | some n => (c.pop peer n, .removing n (.close rest))
    | none => closeRest c rest

/-- `close` -/
def close : Connections × Pause := c.closeRest (c.links.map Prod.fst)

/-- The link that `new` makes, with what `connect` and `accept` do to it before they wait. -/
def freshLink (r : Readings) (peer sessionId : String) : Option (Signal × Bool) → Link
  | none => { peer, sessionId, createdAt := r.monotonic, channel := some false }
  | some (signal, portal) =>
    { peer, sessionId, createdAt := r.monotonic, portal
      portalIce := if portal then PortalIceOrder.accept {} (.signal signal) else none }

/-- What an offer or an answer to one waits for. -/
def negotiation (peer : String) (n : Nat) : Option (Signal × Bool) → Pause
  | none => .negotiating peer n .createOffer [.setLocalDescription, .sendSignal]
  | some _ =>
    .negotiating peer n .setRemoteDescription [.createAnswer, .setLocalDescription, .sendSignal]

/-- `new` behind the removal, and the begin of the negotiation. -/
def create (r : Readings) (peer sessionId : String) (answers : Option (Signal × Bool)) :
    Connections × Pause :=
  if r.fresh then
    ({ c with
        links := dictSet c.links peer c.made.length
        made := c.made ++ [freshLink r peer sessionId answers] },
      negotiation peer c.made.length answers)
  else (c, .done)

/-- `new` -/
def new (r : Readings) (peer sessionId : String) (answers : Option (Signal × Bool)) :
    Connections × Pause :=
  match c.links.lookup peer with
  | some n => (c.pop peer n, .removing n (.new peer sessionId answers))
  | none => c.create r peer sessionId answers

/-- `link.pc.connectionState` -/
def connectionState (r : Readings) (n : Nat) : ConnectionState :=
  if (c.made[n]?).any Link.closed then .closed else r.connection

/-- `link.pc.signalingState` -/
def signalingState (r : Readings) (n : Nat) : SignalingState :=
  if (c.made[n]?).any Link.closed then .closed else r.signaling

/-- `connect` leaves the link that is there alone. -/
def keeps (r : Readings) (peer : String) : Bool :=
  match c.links.lookup peer with
  | some n =>
    let state := c.connectionState r n
    state ≠ .closed && state ≠ .failed &&
      ((c.made[n]?).any (fun link => r.monotonic - link.createdAt < 40) || state = .connected)
  | none => false

/-- `connect` -/
def connect (identity : Identity) (r : Readings) (peer : String) : Connections × Pause :=
  if ¬ r.allowed then (c, .done)
  else if c.keeps r peer then (c, .done)
  else if peer < identity.peerId then (c, .asking peer)
  else c.new r peer r.session none

/-- A candidate in `accept`. -/
def acceptCandidate (peer : String) (candidate : PortalIceCandidate) : Connections × Pause :=
  match c.links.lookup peer with
  | none => (c, .done)
  | some n =>
    match (c.made[n]?).bind fun link => if link.portal then link.portalIce else none with
    | none => (c, .done)
    | some order =>
      match order.accept (.candidate candidate) with
      | none => (c, .done)
      | some order =>
        ({ c.modify n fun link => { link with portalIce := some order } with
            applied := c.applied ++ [(n, candidate.sequence)] },
          .applying peer n)

/-- `self.seen` without what has expired. -/
def fresher (now : ℚ) : Connections :=
  { c with seen := c.seen.filter fun entry => now < entry.2 }

/-- An offer in `accept`. -/
def acceptOffer (identity : Identity) (r : Readings) (peer : String) (signal : Signal)
    (portal : Bool) : Connections × Pause :=
  if ¬ portal ∧ identity.peerId < peer then (c, .done)
  else if (c.links.lookup peer).any fun n => c.connectionState r n = .connected then (c, .done)
  else c.new r peer signal.sessionId (some (signal, portal))

/-- An answer in `accept`. -/
def acceptAnswer (r : Readings) (peer : String) (signal : Signal) : Connections × Pause :=
  match c.links.lookup peer with
  | none => (c, .done)
  | some n =>
    if (c.made[n]?).any (fun link => link.sessionId = signal.sessionId) ∧
        c.signalingState r n = .haveLocalOffer then
      (c, .negotiating peer n .setRemoteDescription [])
    else (c, .done)

/-- `accept` behind the check for a replay. -/
def acceptFresh (identity : Identity) (r : Readings) (peer : String) (signal : Signal)
    (portal : Bool) : Connections × Pause :=
  match signal.kind with
  | .connect =>
    if peer < identity.peerId then (c, .done) else c.connect identity r peer
  | .offer => c.acceptOffer identity r peer signal portal
  | .answer => c.acceptAnswer r peer signal

/-- A signal in `accept`, from a peer that may send it. -/
def acceptSignal (identity : Identity) (r : Readings) (peer : String) (signal : Signal)
    (portal : Bool) : Connections × Pause :=
  let key : SignalKey := ⟨peer, signal.kind, signal.sessionId⟩
  let c := c.fresher r.now
  if (c.seen.lookup key).isSome then (c, .done)
  else
    { c with
        seen := dictSet c.seen key signal.expiresAt
        acted := c.acted ++ [Acted.mk key signal.expiresAt r.now] }.acceptFresh
      identity r peer signal portal

/-- `accept` -/
def accept (identity : Identity) (r : Readings) (signal : PortalSignal) (portal : Bool) :
    Connections × Pause :=
  match verifySignal identity signal r.arrived, signal with
  | none, _ => (c, .done)
  | some peer, .candidate candidate =>
    if portal then c.acceptCandidate peer candidate else (c, .done)
  | some peer, .signal signal =>
    if ¬ portal ∧ ¬ r.allowed then (c, .done)
    else c.acceptSignal identity r peer signal portal

/-- `_negotiation` when what it waits for raises. -/
def release (peer : String) (n : Nat) : Connections × Pause :=
  ({ c with
      links := if c.links.lookup peer = some n then dictErase c.links peer else c.links }.modify n
        Link.close,
    .releasing peer n)

/-- What a call waits for has ended, well or with an exception. -/
def resume (r : Readings) (ok : Bool) : Pause → Connections × Pause
  | .done => (c, .done)
  | .removing _ after =>
    if ok then
      match after with
      | .return => (c, .done)
      | .close rest => c.closeRest rest
      | .new peer sessionId answers => c.create r peer sessionId answers
    else (c, .done)
  | .asking _ => (c, .done)
  | .negotiating peer n _ rest =>
    if ok then
      match rest with
      | [] => (c, .done)
      | next :: rest => (c, .negotiating peer n next rest)
    else c.release peer n
  | .releasing _ _ => (c, .done)
  | .applying _ _ => (c, .done)

end Connections

/-- The data and the calls, in the order in which they began. -/
structure Network where
  connections : Connections
  calls : List Pause

/-- No link and no call yet. -/
def Network.empty : Network where
  connections := {}
  calls := []

/-- What can happen: a call begins, or goes on; the other side opens a channel. -/
inductive ConnectionAction where
  | connect (peer : String) (r : Readings)
  | accept (signal : PortalSignal) (portal : Bool) (r : Readings)
  | remove (peer : String)
  | close
  | resume (call : Nat) (ok : Bool) (r : Readings)
  | datachannel (link : Nat)

def Network.begin (s : Network) (result : Connections × Pause) : Network where
  connections := result.1
  calls := s.calls ++ [result.2]

/-- The steps of any number of calls. -/
def connectionStep (identity : Identity) (s : Network) : ConnectionAction → Option Network
  | .connect peer r => some (s.begin (s.connections.connect identity r peer))
  | .accept signal portal r =>
    if s.connections.clock ≤ r.arrived ∧ r.arrived ≤ r.now then
      some (s.begin ({ s.connections with clock := r.now }.accept identity r signal portal))
    else none
  | .remove peer => some (s.begin (s.connections.remove peer))
  | .close => some (s.begin s.connections.close)
  | .resume call ok r =>
    match s.calls[call]? with
    | none => none
    | some pause =>
      let result := s.connections.resume r ok pause
      some { connections := result.1, calls := s.calls.set call result.2 }
  | .datachannel n =>
    some { s with connections := s.connections.modify n fun link =>
      { link with channel := link.channel.or (some false) } }

/-! ### What is kept of the data -/

/-- Every link is closed or the one stored for its peer. -/
structure Linked (c : Connections) : Prop where
  nodup : (c.links.map Prod.fst).Nodup
  named : ∀ peer n, c.links.lookup peer = some n → ∃ link, c.made[n]? = some link ∧ link.peer = peer
  settled : ∀ n link, c.made[n]? = some link →
    link.closed = true ∨ c.links.lookup link.peer = some n

/-- A signal that was acted upon is remembered until it expires. -/
structure Watched (c : Connections) : Prop where
  remembered : ∀ a ∈ c.acted, c.clock < a.expiresAt → c.seen.lookup a.key = some a.expiresAt
  once : c.acted.Pairwise fun earlier later =>
    earlier.key = later.key → (earlier.expiresAt : ℚ) ≤ later.now

/-- A candidate that was taken is behind the order of its link. -/
structure Ordered (c : Connections) : Prop where
  taken : ∀ entry ∈ c.applied, ∃ link order, c.made[entry.1]? = some link ∧
    link.portalIce = some order ∧ entry.2 < order.sequence
  once : c.applied.Nodup

structure Tidy (c : Connections) : Prop where
  linked : Linked c
  watched : Watched c
  ordered : Ordered c

section

variable {c : Connections} {peer : String} {n : Nat}

theorem getElem?_modify (f : Link → Link) (m : Nat) :
    (c.modify n f).made[m]? = (c.made[m]?).map fun link => if n = m then f link else link :=
  List.getElem?_modify f n c.made m

theorem Linked.modify (linked : Linked c) {f : Link → Link} (peers : ∀ link, (f link).peer = link.peer)
    (closed : ∀ link, link.closed = true → (f link).closed = true) : Linked (c.modify n f) := by
  refine ⟨linked.nodup, ?_, ?_⟩
  · intro peer m found
    obtain ⟨link, isLink, isPeer⟩ := linked.named peer m found
    rw [getElem?_modify, isLink, Option.map_some]
    refine ⟨_, rfl, ?_⟩
    split
    · rw [peers, isPeer]
    · exact isPeer
  · intro m link isLink
    rw [getElem?_modify] at isLink
    obtain ⟨old, isOld, rfl⟩ := Option.map_eq_some_iff.mp isLink
    have before := linked.settled m old isOld
    split
    · rw [peers]
      exact before.imp_left (closed old)
    · exact before

theorem Ordered.modify (ordered : Ordered c) {f : Link → Link}
    (ice : ∀ link, (f link).portalIce = link.portalIce) : Ordered (c.modify n f) := by
  refine ⟨?_, ordered.once⟩
  intro entry mem
  obtain ⟨link, order, isLink, isOrder, behind⟩ := ordered.taken entry mem
  rw [getElem?_modify, isLink, Option.map_some]
  refine ⟨_, order, rfl, ?_, behind⟩
  split
  · rw [ice, isOrder]
  · exact isOrder

theorem Tidy.modify (tidy : Tidy c) {f : Link → Link} (peers : ∀ link, (f link).peer = link.peer)
    (closed : ∀ link, link.closed = true → (f link).closed = true)
    (ice : ∀ link, (f link).portalIce = link.portalIce) : Tidy (c.modify n f) :=
  ⟨tidy.linked.modify peers closed, ⟨tidy.watched.remembered, tidy.watched.once⟩,
    tidy.ordered.modify ice⟩

theorem Linked.pop (linked : Linked c) (found : c.links.lookup peer = some n) :
    Linked (c.pop peer n) := by
  have after (other : String) : (c.pop peer n).links.lookup other =
      if other = peer then none else c.links.lookup other := lookup_dictErase _ _ _
  have closing : Linked (c.modify n Link.close) := linked.modify (fun _ => rfl) fun _ _ => rfl
  refine ⟨nodup_dictErase linked.nodup peer, ?_, ?_⟩
  · intro other m isStored
    rw [after] at isStored
    split at isStored
    · cases isStored
    · exact closing.named other m isStored
  · intro m link isLink
    rw [after]
    split
    · -- The link of the peer is the one that is closed here.
      rename_i isPeer
      rcases closing.settled m link isLink with closed | stored
      · exact .inl closed
      · rw [isPeer] at stored
        cases found.symm.trans stored
        change (c.modify n Link.close).made[n]? = some link at isLink
        rw [getElem?_modify] at isLink
        obtain ⟨old, -, rfl⟩ := Option.map_eq_some_iff.mp isLink
        rw [if_pos rfl]
        exact .inl rfl
    · exact closing.settled m link isLink

theorem Tidy.pop (tidy : Tidy c) (found : c.links.lookup peer = some n) : Tidy (c.pop peer n) := by
  have closing : Ordered (c.modify n Link.close) := tidy.ordered.modify fun _ => rfl
  exact ⟨tidy.linked.pop found, ⟨tidy.watched.remembered, tidy.watched.once⟩,
    ⟨closing.taken, closing.once⟩⟩

theorem Tidy.release (tidy : Tidy c) : Tidy (c.release peer n).1 := by
  unfold Connections.release
  split
  · rename_i stored
    exact tidy.pop stored
  · exact tidy.modify (fun _ => rfl) (fun _ _ => rfl) fun _ => rfl

theorem Tidy.store (tidy : Tidy c) (absent : c.links.lookup peer = none) {link : Link}
    (isPeer : link.peer = peer) : Tidy { c with
      links := dictSet c.links peer c.made.length
      made := c.made ++ [link] } := by
  have old : ∀ {m : Nat} {made : Link}, c.made[m]? = some made →
      (c.made ++ [link])[m]? = some made := by
    intro m made isMade
    obtain ⟨lt, -⟩ := List.getElem?_eq_some_iff.mp isMade
    rw [List.getElem?_append_left lt, isMade]
  refine ⟨⟨nodup_dictSet tidy.linked.nodup _ _, ?_, ?_⟩,
    ⟨tidy.watched.remembered, tidy.watched.once⟩, ⟨?_, tidy.ordered.once⟩⟩
  · intro other m isStored
    dsimp only at isStored
    rw [lookup_dictSet] at isStored
    split at isStored
    · rename_i same
      cases isStored
      refine ⟨link, ?_, isPeer.trans same.symm⟩
      exact List.getElem?_concat_length
    · obtain ⟨made, isMade, isOther⟩ := tidy.linked.named other m isStored
      exact ⟨made, old isMade, isOther⟩
  · intro m made isMade
    dsimp only at isMade ⊢
    rw [lookup_dictSet]
    rcases Nat.lt_trichotomy m c.made.length with lt | rfl | gt
    · rw [List.getElem?_append_left lt] at isMade
      rcases tidy.linked.settled m made isMade with closed | stored
      · exact .inl closed
      · rw [if_neg, stored]
        · exact .inr rfl
        · intro same
          rw [same, absent] at stored
          cases stored
    · rw [List.getElem?_concat_length] at isMade
      cases isMade
      exact .inr (if_pos isPeer)
    · rw [List.getElem?_eq_none (by rw [List.length_append]; exact gt)] at isMade
      cases isMade
  · intro entry mem
    obtain ⟨made, order, isMade, isOrder, behind⟩ := tidy.ordered.taken entry mem
    exact ⟨made, order, old isMade, isOrder, behind⟩

theorem Tidy.act (tidy : Tidy c) {a : Acted} (absent : c.seen.lookup a.key = none)
    (isNow : a.now = c.clock) : Tidy { c with
      seen := dictSet c.seen a.key a.expiresAt
      acted := c.acted ++ [a] } := by
  have expired : ∀ earlier ∈ c.acted, earlier.key = a.key → (earlier.expiresAt : ℚ) ≤ a.now := by
    intro earlier mem same
    by_contra later
    rw [isNow, not_le] at later
    have remembered := tidy.watched.remembered earlier mem later
    rw [same, absent] at remembered
    cases remembered
  refine ⟨⟨tidy.linked.nodup, tidy.linked.named, tidy.linked.settled⟩, ⟨?_, ?_⟩,
    ⟨tidy.ordered.taken, tidy.ordered.once⟩⟩
  · intro earlier mem live
    dsimp only at live ⊢
    rw [lookup_dictSet]
    rcases List.mem_append.mp mem with old | new
    · rw [if_neg]
      · exact tidy.watched.remembered earlier old live
      · intro same
        have := expired earlier old same
        rw [isNow] at this
        exact absurd live (not_lt.mpr this)
    · rw [List.mem_singleton.mp new, if_pos rfl]
  · dsimp only
    rw [List.pairwise_append]
    refine ⟨tidy.watched.once, List.pairwise_singleton _ _, ?_⟩
    intro earlier mem later isLater same
    rw [List.mem_singleton.mp isLater] at same ⊢
    exact expired earlier mem same

theorem Tidy.tick (tidy : Tidy c) {now : ℚ} (le : c.clock ≤ now) :
    Tidy { c with clock := now } := by
  refine ⟨⟨tidy.linked.nodup, tidy.linked.named, tidy.linked.settled⟩, ⟨?_, tidy.watched.once⟩,
    ⟨tidy.ordered.taken, tidy.ordered.once⟩⟩
  intro a mem live
  exact tidy.watched.remembered a mem (lt_of_le_of_lt le live)

theorem Tidy.fresher (tidy : Tidy c) : Tidy (c.fresher c.clock) := by
  refine ⟨⟨tidy.linked.nodup, tidy.linked.named, tidy.linked.settled⟩, ⟨?_, tidy.watched.once⟩,
    ⟨tidy.ordered.taken, tidy.ordered.once⟩⟩
  intro a mem live
  exact lookup_filter_of_pos (tidy.watched.remembered a mem live) (by exact decide_eq_true live)

theorem Tidy.take (tidy : Tidy c) {link : Link} {order : PortalIceOrder}
    (isLink : c.made[n]? = some link) (isOrder : link.portalIce = some order)
    {next : PortalIceOrder} (isNext : next.sequence = order.sequence + 1) :
    Tidy { c.modify n fun link => { link with portalIce := some next } with
      applied := c.applied ++ [(n, order.sequence)] } := by
  have linked : Linked (c.modify n fun link => { link with portalIce := some next }) :=
    tidy.linked.modify (fun _ => rfl) fun _ closed => closed
  have after (m : Nat) : (c.modify n fun link => { link with portalIce := some next }).made[m]? =
      (c.made[m]?).map fun link => if n = m then { link with portalIce := some next } else link :=
    getElem?_modify _ _
  refine ⟨⟨linked.nodup, linked.named, linked.settled⟩,
    ⟨tidy.watched.remembered, tidy.watched.once⟩, ⟨?_, ?_⟩⟩
  · intro entry mem
    dsimp only
    rw [after]
    rcases List.mem_append.mp mem with old | new
    · obtain ⟨made, before, isMade, isBefore, behind⟩ := tidy.ordered.taken entry old
      rw [isMade, Option.map_some]
      by_cases same : n = entry.1
      · rw [if_pos same]
        rw [same, isMade] at isLink
        cases isLink
        cases isOrder.symm.trans isBefore
        exact ⟨_, next, rfl, rfl, by omega⟩
      · rw [if_neg same]
        exact ⟨made, before, rfl, isBefore, behind⟩
    · rw [List.mem_singleton.mp new, isLink, Option.map_some, if_pos rfl]
      exact ⟨_, next, rfl, rfl, by dsimp only; omega⟩
  · dsimp only
    rw [List.nodup_append]
    refine ⟨tidy.ordered.once, List.nodup_singleton _, ?_⟩
    intro entry mem other isOther same
    rw [List.mem_singleton.mp isOther] at same
    subst same
    obtain ⟨made, before, isMade, isBefore, behind⟩ := tidy.ordered.taken _ mem
    cases isLink.symm.trans isMade
    cases isOrder.symm.trans isBefore
    exact absurd behind (Nat.lt_irrefl _)

end

/-! ### What a call does -/

/-- The peer of a `connect` or an `accept` that is going on. -/
def Pause.peer : Pause → Option String
  | .removing _ (.new peer _ _) => some peer
  | .asking peer => some peer
  | .negotiating peer _ _ _ => some peer
  | .releasing peer _ => some peer
  | .applying peer _ => some peer
  | _ => none

/-- What a call for a peer, or for none, comes to: only for this peer a link is stored, and there is
none while `new` waits. -/
structure Proper (peer : Option String) (c : Connections) (result : Connections × Pause) : Prop where
  tidy : Tidy result.1
  own : ∀ other, result.2.peer = some other → peer = some other
  free : ∀ other, peer ≠ some other → c.links.lookup other = none →
    result.1.links.lookup other = none
  cleared : ∀ n other sessionId answers, result.2 = .removing n (.new other sessionId answers) →
    result.1.links.lookup other = none

section

variable {c : Connections} {peer : Option String} {identity : Identity} {r : Readings}

theorem proper_done (tidy : Tidy c) : Proper peer c (c, .done) where
  tidy := tidy
  own _ isPeer := nomatch isPeer
  free _ _ absent := absent
  cleared _ _ _ _ same := nomatch same

theorem proper_wait (tidy : Tidy c) {pause : Pause} (isPeer : pause.peer = peer)
    (waits : ∀ n after, pause ≠ .removing n after) : Proper peer c (c, pause) where
  tidy := tidy
  own _ isOther := isPeer.symm.trans isOther
  free _ _ absent := absent
  cleared n _ _ _ same := absurd same (waits n _)

theorem lookup_pop (name other : String) (n : Nat) : (c.pop name n).links.lookup other =
    if other = name then none else c.links.lookup other :=
  lookup_dictErase _ _ _

theorem proper_pop (tidy : Tidy c) {name : String} {n : Nat} (found : c.links.lookup name = some n)
    {after : AfterRemove} (own : ∀ other sessionId answers, after = .new other sessionId answers →
      other = name ∧ peer = some name) : Proper peer c (c.pop name n, .removing n after) where
  tidy := tidy.pop found
  own other isOther := by
    cases after with
    | new new sessionId answers =>
      cases isOther
      obtain ⟨rfl, isPeer⟩ := own _ _ _ rfl
      exact isPeer
    | «return» => cases isOther
    | close rest => cases isOther
  free other _ absent := by
    rw [lookup_pop, absent, ite_self]
  cleared m other sessionId answers same := by
    cases same
    rw [lookup_pop, if_pos (own _ _ _ rfl).1]

theorem proper_remove (tidy : Tidy c) (name : String) : Proper peer c (c.remove name) := by
  unfold Connections.remove
  split
  · rename_i n found
    exact proper_pop tidy found fun _ _ _ same => nomatch same
  · exact proper_done tidy

theorem proper_closeRest (tidy : Tidy c) (peers : List String) :
    Proper peer c (c.closeRest peers) := by
  induction peers with
  | nil => exact proper_done tidy
  | cons name rest ih =>
    unfold Connections.closeRest
    split
    · rename_i n found
      exact proper_pop tidy found fun _ _ _ same => nomatch same
    · exact ih

theorem proper_create (tidy : Tidy c) {name : String} (absent : c.links.lookup name = none)
    (sessionId : String) (answers : Option (Signal × Bool)) :
    Proper (some name) c (c.create r name sessionId answers) := by
  unfold Connections.create
  split
  · have isPeer : (Connections.freshLink r name sessionId answers).peer = name := by
      cases answers with
      | none => rfl
      | some offer => rfl
    have waits : (Connections.negotiation name c.made.length answers).peer = some name ∧
        ∀ n after, Connections.negotiation name c.made.length answers ≠ .removing n after := by
      cases answers with
      | none => exact ⟨rfl, fun _ _ same => nomatch same⟩
      | some offer => exact ⟨rfl, fun _ _ same => nomatch same⟩
    refine ⟨tidy.store absent isPeer, fun other isOther => waits.1.symm.trans isOther, ?_,
      fun n _ _ _ same => absurd same (waits.2 n _)⟩
    intro other notPeer notThere
    dsimp only
    rw [lookup_dictSet, if_neg fun same => notPeer (congrArg some same.symm), notThere]
  · exact proper_done tidy

theorem proper_new (tidy : Tidy c) (name sessionId : String) (answers : Option (Signal × Bool)) :
    Proper (some name) c (c.new r name sessionId answers) := by
  unfold Connections.new
  split
  · rename_i n found
    refine proper_pop tidy found ?_
    intro other _ _ same
    cases same
    exact ⟨rfl, rfl⟩
  · rename_i absent
    exact proper_create tidy absent sessionId answers

theorem proper_connect (tidy : Tidy c) (name : String) :
    Proper (some name) c (c.connect identity r name) := by
  unfold Connections.connect
  split
  · exact proper_done tidy
  · split
    · exact proper_done tidy
    · split
      · exact proper_wait tidy rfl fun _ _ same => nomatch same
      · exact proper_new tidy name r.session none

theorem proper_acceptCandidate (tidy : Tidy c) (name : String) (candidate : PortalIceCandidate) :
    Proper (some name) c (c.acceptCandidate name candidate) := by
  unfold Connections.acceptCandidate
  split
  · exact proper_done tidy
  · rename_i n _
    split
    · exact proper_done tidy
    · rename_i order isOrder
      split
      · exact proper_done tidy
      · rename_i next accepted
        obtain ⟨link, isLink, found⟩ := Option.bind_eq_some_iff.mp isOrder
        have ice : link.portalIce = some order := (Option.ite_none_right_eq_some.mp found).2
        obtain ⟨same, isNext⟩ : candidate.sequence = order.sequence ∧
            next.sequence = order.sequence + 1 := by
          unfold PortalIceOrder.accept at accepted
          dsimp only at accepted
          split at accepted
          · cases accepted
          · split at accepted
            · cases accepted
            · rename_i _ inOrder
              cases accepted
              exact ⟨not_not.mp (not_or.mp inOrder).2, rfl⟩
        have taken := tidy.take isLink ice isNext
        rw [← same] at taken
        exact ⟨taken, fun _ isPeer => isPeer, fun _ _ absent => absent,
          fun _ _ _ _ same => nomatch same⟩

theorem proper_acceptFresh (tidy : Tidy c) (name : String) (signal : Signal) (portal : Bool) :
    Proper (some name) c (c.acceptFresh identity r name signal portal) := by
  unfold Connections.acceptFresh
  split
  · split
    · exact proper_done tidy
    · exact proper_connect tidy name
  · unfold Connections.acceptOffer
    split
    · exact proper_done tidy
    · split
      · exact proper_done tidy
      · exact proper_new tidy name signal.sessionId _
  · unfold Connections.acceptAnswer
    split
    · exact proper_done tidy
    · split
      · exact proper_wait tidy rfl fun _ _ same => nomatch same
      · exact proper_done tidy

theorem proper_acceptSignal (tidy : Tidy c) (name : String) (signal : Signal) (portal : Bool)
    (isNow : c.clock = r.now) : Proper (some name) c (c.acceptSignal identity r name signal portal) := by
  have fresher : Tidy (c.fresher r.now) := by
    rw [← isNow]
    exact tidy.fresher
  unfold Connections.acceptSignal
  dsimp only
  split
  · have stays : Proper (some name) (c.fresher r.now) (c.fresher r.now, .done) :=
      proper_done fresher
    exact ⟨stays.tidy, stays.own, stays.free, stays.cleared⟩
  · rename_i unseen
    rw [Bool.not_eq_true, Option.isSome_eq_false_iff, Option.isNone_iff_eq_none] at unseen
    have acts := @proper_acceptFresh _ identity r
      (@Tidy.act _ fresher ⟨⟨name, signal.kind, signal.sessionId⟩, signal.expiresAt, r.now⟩ unseen
        isNow.symm) name signal portal
    exact ⟨acts.tidy, acts.own, acts.free, acts.cleared⟩

theorem proper_accept (tidy : Tidy c) (signal : PortalSignal) (portal : Bool)
    (isNow : c.clock = r.now) :
    Proper (some (identity.peerOf signal.publicKey)) c (c.accept identity r signal portal) := by
  have verified : ∀ name, verifySignal identity signal r.arrived = some name →
      name = identity.peerOf signal.publicKey := by
    intro name verifies
    unfold verifySignal at verifies
    split at verifies
    · cases verifies
    · exact (Option.some.inj (Option.ite_none_right_eq_some.mp verifies).2).symm
  unfold Connections.accept
  split
  · exact proper_done tidy
  · rename_i name candidate verifies
    rw [← verified name verifies]
    split
    · exact proper_acceptCandidate tidy name candidate
    · exact proper_done tidy
  · rename_i name signal verifies
    rw [← verified name verifies]
    split
    · exact proper_done tidy
    · exact proper_acceptSignal tidy name signal portal isNow

theorem proper_release (tidy : Tidy c) (name : String) (n : Nat) :
    Proper (some name) c (c.release name n) := by
  refine ⟨tidy.release, fun _ isPeer => isPeer, ?_, fun _ _ _ _ same => nomatch same⟩
  intro other _ absent
  change List.lookup other (ite _ _ _) = none
  split
  · rw [lookup_dictErase, absent, ite_self]
  · exact absent

theorem proper_resume (tidy : Tidy c) {pause : Pause} {ok : Bool}
    (cleared : ∀ n name sessionId answers, pause = .removing n (.new name sessionId answers) →
      c.links.lookup name = none) : Proper pause.peer c (c.resume r ok pause) := by
  cases pause with
  | done => exact proper_done tidy
  | removing n after =>
    cases ok with
    | false => exact proper_done tidy
    | true =>
      cases after with
      | «return» => exact proper_done tidy
      | close rest => exact proper_closeRest tidy rest
      | new name sessionId answers =>
        exact proper_create tidy (cleared n name sessionId answers rfl) sessionId answers
  | asking name => exact proper_done tidy
  | negotiating name n current rest =>
    cases ok with
    | false => exact proper_release tidy name n
    | true =>
      cases rest with
      | nil => exact proper_done tidy
      | cons next rest => exact proper_wait tidy rfl fun _ _ same => nomatch same
  | releasing name n => exact proper_done tidy
  | applying name n => exact proper_done tidy

end

/-! ### After every run -/

/-- A `connect` or an `accept` starts while no other one for its peer is going on. -/
def Apart (identity : Identity) (s : Network) : ConnectionAction → Prop
  | .connect peer _ => ∀ call ∈ s.calls, call.peer ≠ some peer
  | .accept signal _ _ => ∀ call ∈ s.calls, call.peer ≠ some (identity.peerOf signal.publicKey)
  | _ => True

instance (identity : Identity) (s : Network) :
    (action : ConnectionAction) → Decidable (Apart identity s action)
  | .connect peer _ => inferInstanceAs (Decidable (∀ call ∈ s.calls, call.peer ≠ some peer))
  | .accept signal _ _ => inferInstanceAs
      (Decidable (∀ call ∈ s.calls, call.peer ≠ some (identity.peerOf signal.publicKey)))
  | .remove _ | .close | .resume _ _ _ | .datachannel _ => .isTrue trivial

/-- The data is tidy, no two calls are for one peer, and a `new` that waits has no link. -/
structure Separate (s : Network) : Prop where
  tidy : Tidy s.connections
  alone : ∀ (i j : Nat) peer, (s.calls[i]?).bind Pause.peer = some peer →
    (s.calls[j]?).bind Pause.peer = some peer → i = j
  cleared : ∀ (i : Nat) n peer sessionId answers,
    s.calls[i]? = some (.removing n (.new peer sessionId answers)) →
      s.connections.links.lookup peer = none

theorem separate_empty : Separate .empty where
  tidy := ⟨⟨List.nodup_nil, nofun, nofun⟩, ⟨nofun, List.Pairwise.nil⟩, ⟨nofun, List.nodup_nil⟩⟩
  alone _ _ _ found := nomatch found
  cleared _ _ _ _ _ found := nomatch found

section

variable {s : Network} {identity : Identity}

theorem Separate.replace (separate : Separate s) {peer : Option String}
    {result : Connections × Pause} (proper : Proper peer s.connections result) {n : Nat}
    {calls : List Pause} (here : calls[n]? = some result.2)
    (others : ∀ i call, i ≠ n → calls[i]? = some call → s.calls[i]? = some call)
    (apart : ∀ i name, i ≠ n → peer = some name → (s.calls[i]?).bind Pause.peer ≠ some name) :
    Separate ⟨result.1, calls⟩ := by
  have other : ∀ {i : Nat} {name : String}, i ≠ n → (calls[i]?).bind Pause.peer = some name →
      (s.calls[i]?).bind Pause.peer = some name := by
    intro i name ne isPeer
    obtain ⟨call, isCall, isPeer⟩ := Option.bind_eq_some_iff.mp isPeer
    rw [others i call ne isCall, Option.bind_some, isPeer]
  have own : ∀ {name : String}, (calls[n]?).bind Pause.peer = some name → peer = some name := by
    intro name isPeer
    rw [here, Option.bind_some] at isPeer
    exact proper.own name isPeer
  refine ⟨proper.tidy, ?_, ?_⟩
  · intro i j name left right
    by_cases isN : i = n
    · subst isN
      by_cases isOther : j = i
      · exact isOther.symm
      · exact absurd (other isOther right) (apart j name isOther (own left))
    · by_cases isN' : j = n
      · subst isN'
        exact absurd (other isN left) (apart i name isN (own right))
      · exact separate.alone i j name (other isN left) (other isN' right)
  · intro i m name sessionId answers waits
    by_cases isN : i = n
    · subst isN
      exact proper.cleared m name sessionId answers (Option.some.inj (here.symm.trans waits))
    · have before := others i _ isN waits
      refine proper.free name (fun isPeer => ?_) (separate.cleared i m name sessionId answers before)
      apply apart i name isN isPeer
      rw [before]
      rfl

theorem Separate.begin (separate : Separate s) {peer : Option String}
    {result : Connections × Pause} (proper : Proper peer s.connections result)
    (apart : ∀ call ∈ s.calls, ∀ name, peer = some name → call.peer ≠ some name) :
    Separate (s.begin result) := by
  refine @Separate.replace _ separate peer result proper s.calls.length (s.calls ++ [result.2])
    List.getElem?_concat_length ?_ ?_
  · intro i call ne isCall
    rcases Nat.lt_or_gt_of_ne ne with lt | gt
    · rw [List.getElem?_append_left lt] at isCall
      exact isCall
    · rw [List.getElem?_eq_none (by rw [List.length_append]; exact gt)] at isCall
      cases isCall
  · intro i name _ isPeer bound
    obtain ⟨call, isCall, isName⟩ := Option.bind_eq_some_iff.mp bound
    exact apart call (List.mem_of_getElem? isCall) name isPeer isName

/-- A step that begins no second call for a peer keeps the calls separate. -/
theorem Separate.step (separate : Separate s) {action : ConnectionAction} {t : Network}
    (stepped : connectionStep identity s action = some t) (apart : Apart identity s action) :
    Separate t := by
  cases action with
  | connect peer r =>
    cases stepped
    refine separate.begin (proper_connect separate.tidy peer) ?_
    intro call mem name isPeer isName
    cases isPeer
    exact apart call mem isName
  | accept signal portal r =>
    obtain ⟨⟨arrives, later⟩, same⟩ := Option.ite_none_right_eq_some.mp stepped
    cases same
    have le : s.connections.clock ≤ r.now := arrives.trans later
    have ticked : Separate { s with connections := { s.connections with clock := r.now } } :=
      ⟨separate.tidy.tick le, separate.alone, separate.cleared⟩
    have proper := @proper_accept _ identity r ticked.tidy signal portal rfl
    refine ticked.begin proper ?_
    intro call mem name isPeer isName
    cases isPeer
    exact apart call mem isName
  | remove peer =>
    cases stepped
    exact @Separate.begin _ separate none _ (proper_remove separate.tidy peer)
      fun _ _ _ isPeer => nomatch isPeer
  | close =>
    cases stepped
    exact @Separate.begin _ separate none _ (proper_closeRest separate.tidy _)
      fun _ _ _ isPeer => nomatch isPeer
  | resume n ok r =>
    rw [connectionStep] at stepped
    split at stepped
    · cases stepped
    · rename_i pause isCall
      cases stepped
      have proper := @proper_resume _ r separate.tidy pause ok fun m name sessionId answers same =>
        separate.cleared n m name sessionId answers (same ▸ isCall)
      obtain ⟨lt, -⟩ := List.getElem?_eq_some_iff.mp isCall
      refine separate.replace proper (List.getElem?_set_self lt) ?_ ?_
      · intro i call ne isOther
        rw [List.getElem?_set_ne (Ne.symm ne)] at isOther
        exact isOther
      · intro i name ne isPeer bound
        refine ne (separate.alone i n name bound ?_)
        rw [isCall, Option.bind_some, isPeer]
  | datachannel n =>
    cases stepped
    exact ⟨separate.tidy.modify (fun _ => rfl) (fun _ closed => closed) fun _ => rfl,
      separate.alone, separate.cleared⟩

end

theorem release_other (c : Connections) (peer : String) {n m : Nat} (ne : m ≠ n) :
    (c.release peer n).1.made[m]? = c.made[m]? ∧
      ∀ other, c.links.lookup other = some m → (c.release peer n).1.links.lookup other = some m := by
  constructor
  · change (c.made.modify n Link.close)[m]? = c.made[m]?
    rw [List.getElem?_modify]
    simp only [if_neg (Ne.symm ne), id_map']
  · intro other stored
    change List.lookup other (ite _ _ _) = some m
    split
    · rename_i isOwn
      rw [lookup_dictErase, if_neg, stored]
      intro same
      rw [same, isOwn] at stored
      exact ne (Option.some.inj stored).symm
    · exact stored

/-- Every connection is closed or the one of the current link of its peer, of which there is one at
most; a negotiation that fails leaves all other links alone; a signal under a key that was acted
upon is acted upon again only when the earlier one has expired, and a candidate of a link never. -/
theorem connections_kept {identity : Identity} {actions : List ConnectionAction} {s : Network}
    (ran : run (connectionStep identity) .empty actions = some s)
    (apart : Along (connectionStep identity) (fun s action _ => Apart identity s action) .empty
      actions) :
    (∀ n link, s.connections.made[n]? = some link →
      link.closed = true ∨ s.connections.links.lookup link.peer = some n) ∧
    ((s.connections.links.map Prod.fst).Nodup ∧
      ∀ peer n, s.connections.links.lookup peer = some n →
        ∃ link, s.connections.made[n]? = some link ∧ link.peer = peer) ∧
    (∀ (call : Nat) r t peer n current rest,
      s.calls[call]? = some (.negotiating peer n current rest) →
        connectionStep identity s (.resume call false r) = some t → ∀ m, m ≠ n →
          t.connections.made[m]? = s.connections.made[m]? ∧
            ∀ other, s.connections.links.lookup other = some m →
              t.connections.links.lookup other = some m) ∧
    (s.connections.acted.Pairwise fun earlier later =>
      earlier.key = later.key → (earlier.expiresAt : ℚ) ≤ later.now) ∧
    s.connections.applied.Nodup := by
  have separate : Separate s :=
    run_invariant_along (fun _ _ _ separate stepped here => separate.step stepped here) separate_empty
      apart ran
  obtain ⟨linked, watched, ordered⟩ := separate.tidy
  refine ⟨linked.settled, ⟨linked.nodup, linked.named⟩, ?_, watched.once, ordered.once⟩
  intro call r t peer n current rest negotiates stepped m ne
  rw [connectionStep, negotiates] at stepped
  cases stepped
  exact release_other s.connections peer ne

/-- A reading at a time, with the state of the connection that is there. -/
def readingAt (time : ℚ) (connection : ConnectionState) : Readings where
  arrived := time
  now := time
  monotonic := time
  connection
  signaling := .stable
  allowed := true
  fresh := true
  session := "00"

/-- The device with the smaller identity, which sends the offers. -/
def device : Identity where
  peerId := "a"
  verified _ := true
  peerOf publicKey := publicKey

/-- A call that succeeds in what it waits for, three times. -/
def negotiated (call : Nat) (time : ℚ) : List ConnectionAction :=
  List.replicate 3 (.resume call true (readingAt time .new))

/-- A connection that is removed and made again, one call after the other. -/
theorem connections_kept_renewed : ∃ s, run (connectionStep device) .empty
    ([.connect "b" (readingAt 0 .new)] ++ negotiated 0 1 ++
      [.remove "b", .resume 1 true (readingAt 2 .new), .connect "b" (readingAt 3 .new)]) = some s ∧
    (∀ n link, s.connections.made[n]? = some link →
      link.closed = true ∨ s.connections.links.lookup link.peer = some n) ∧
    s.connections.links = [("b", 1)] := by
  have ends : (run (connectionStep device) .empty
      ([.connect "b" (readingAt 0 .new)] ++ negotiated 0 1 ++
        [.remove "b", .resume 1 true (readingAt 2 .new), .connect "b" (readingAt 3 .new)])).any
      (fun s => s.connections.links = [("b", 1)]) = true := by decide +kernel
  obtain ⟨s, ran, links⟩ := (Option.any_eq_true _ _).mp ends
  exact ⟨s, ran, (connections_kept ran (by decide +kernel)).1, of_decide_eq_true links⟩

/-- Two calls of `connect` for a peer whose connection has failed: the second stores its link while
the first waits, and the first displaces it. -/
def displaced : List ConnectionAction :=
  [.connect "b" (readingAt 0 .new)] ++ negotiated 0 1 ++
    [.connect "b" (readingAt 50 .failed), .connect "b" (readingAt 50 .failed)] ++
    negotiated 2 51 ++ [.resume 1 true (readingAt 52 .new)] ++ negotiated 1 53

/-- A connection that is neither closed nor stored, while nothing is going on. -/
theorem connections_displaced : ∃ s, run (connectionStep device) .empty displaced = some s ∧
    (∀ call ∈ s.calls, call = .done) ∧ ∃ n link, s.connections.made[n]? = some link ∧
      link.closed = false ∧ s.connections.links.lookup link.peer ≠ some n := by
  have ends : (run (connectionStep device) .empty displaced).any (fun s =>
      s.calls.all (fun call => call = .done) &&
        (s.connections.made[1]?).any (fun link => link.closed = false &&
          s.connections.links.lookup link.peer ≠ some 1)) = true := by decide +kernel
  obtain ⟨s, ran, holds⟩ := (Option.any_eq_true _ _).mp ends
  rw [Bool.and_eq_true] at holds
  obtain ⟨done, leaks⟩ := holds
  obtain ⟨link, isLink, open_⟩ := (Option.any_eq_true _ _).mp leaks
  rw [Bool.and_eq_true] at open_
  refine ⟨s, ran, fun call mem => of_decide_eq_true (List.all_eq_true.mp done call mem), 1, link,
    isLink, of_decide_eq_true open_.1, of_decide_eq_true open_.2⟩

end AgentPark.Peers
