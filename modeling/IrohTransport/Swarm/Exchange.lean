import IrohTransport.Lib.Broadcast
import IrohTransport.Swarm.Engine

/-!
# Peer exchange

The peer-exchange backend hands peers that a node learns from others to the searches of its
own.  Its clones share a broadcast channel: each peer that one of them ingests is sent to all
feeds that were built so far, and every feed reads the channel at its own pace.

Main results:

- Theorem {lit}`Exchange.keptUp`: a feed that keeps up misses nothing.
- Theorem {lit}`Exchange.run_poll`: a feed that goes on polling reads what the channel retains.
- Theorem {lit}`exchange_feeds_hear_ingested_peers`: a feed yields the peers that were ingested
  since it was built, in this order, except for those that it missed when it fell behind.
-/

namespace IrohTransport.Swarm

open Stream' (Seq)

variable {PublicKey Error : Type}

/-- Peer-exchange discovery backend, without the sender that all its clones share. -/
structure PeerExchangeBackend where
  priority : UInt8
  trust : UInt8

def PeerExchangeBackend.new : PeerExchangeBackend where
  priority := 110
  trust := 100

/-- The capacity of the channel of a backend. -/
def exchangeCapacity : Nat := 128

/-- Build a peer-exchange feed from what its receiver gets until the channel is closed.  The
notices of missed values are filtered out. -/
def peerExchangeFeed (received : List (Except Nat PublicKey)) (priority trust : UInt8) :
    PeerFeedSpec PublicKey Error where
  name := "peer-exchange"
  priority := priority
  trust := trust
  scope := .any
  stream :=
    Seq.ofList ((received.filterMap Broadcast.value?).map fun id => .ok { id := id, trust := trust })

/-- A feed that is being read: how long the log and the stream of the channel were when it was
built, the position of its receiver, and what it got. -/
structure ExchangeFeed (PublicKey : Type) where
  priority : UInt8
  trust : UInt8
  built : Nat
  start : Nat
  next : Nat
  received : List (Except Nat PublicKey)
  ended : Bool
  dropped : Bool

namespace ExchangeFeed

/-- The peers it has yielded. -/
def peers (self : ExchangeFeed PublicKey) : List PublicKey :=
  self.received.filterMap Broadcast.value?

def spec (self : ExchangeFeed PublicKey) : PeerFeedSpec PublicKey Error :=
  peerExchangeFeed self.received self.priority self.trust

/-- What becomes of a feed that is polled. -/
def answered (self : ExchangeFeed PublicKey) :
    Poll (Option (Except Nat PublicKey)) × Nat → ExchangeFeed PublicKey
  | (.ready (some result), next) =>
      { self with next := next, received := self.received ++ [result] }
  | (.ready none, _) => { self with ended := true }
  | (.pending, _) => self

end ExchangeFeed

/-- A call of {lit}`ingest_peers`, with the peers that its loop has left. -/
structure IngestCall (PublicKey : Type) where
  backend : Nat
  peers : List PublicKey
  rest : List PublicKey

/-- A peer that a call has handed to the channel. -/
structure Ingested (PublicKey : Type) where
  call : Nat
  peer : PublicKey

/-- The clones of a backend, their calls, the feeds that they have built, the channel between
them and what was sent over it, and the log of all peers that were handed to it. -/
structure Exchange (PublicKey : Type) where
  channel : Broadcast PublicKey exchangeCapacity
  sent : List PublicKey
  backends : List (Option PeerExchangeBackend)
  calls : List (IngestCall PublicKey)
  feeds : List (ExchangeFeed PublicKey)
  log : List (Ingested PublicKey)

inductive ExchangeAction (PublicKey : Type) where
  | clone (b : Nat)
  | priority (b : Nat) (p : UInt8)
  | trust (b : Nat) (t : UInt8)
  | drop (b : Nat)
  | ingestPeers (b : Nat) (peers : List PublicKey)
  /-- One round of the loop of a call. -/
  | send (c : Nat)
  | feeds (b : Nat)
  | poll (f : Nat)
  | dropFeed (f : Nat)

namespace Exchange

/-- A clone that has not been dropped. -/
def backend? (backends : List (Option PeerExchangeBackend)) (b : Nat) :
    Option PeerExchangeBackend :=
  backends[b]?.join

/-- The number of senders of the channel. -/
def senders (backends : List (Option PeerExchangeBackend)) : Nat := backends.countP Option.isSome

/-- The number of its receivers. -/
def receivers (s : Exchange PublicKey) : Nat := s.feeds.countP fun feed => !feed.dropped

/-- A clone that no call borrows can be moved. -/
def free (s : Exchange PublicKey) (b : Nat) : Bool :=
  s.calls.all fun call => call.backend != b || call.rest.isEmpty

/-- Move a clone, and leave something in its place. -/
def move (s : Exchange PublicKey) (b : Nat)
    (result : PeerExchangeBackend → Option PeerExchangeBackend) : Option (Exchange PublicKey) :=
  if s.free b then
    (backend? s.backends b).map fun backend => { s with backends := s.backends.set b (result backend) }
  else none

/-- Hand a peer to the channel, which drops it if no feed is left to hear it. -/
def broadcast (s : Exchange PublicKey) (peer : PublicKey) : Exchange PublicKey :=
  match s.channel.send s.receivers peer with
  | some channel => { s with channel := channel, sent := s.sent ++ [peer] }
  | none => s

def step (s : Exchange PublicKey) : ExchangeAction PublicKey → Option (Exchange PublicKey)
  | .clone b =>
      (backend? s.backends b).map fun backend => { s with backends := s.backends ++ [some backend] }
  | .priority b p => s.move b fun backend => some { backend with priority := p }
  | .trust b t => s.move b fun backend => some { backend with trust := t }
  | .drop b => s.move b fun _ => none
  | .ingestPeers b peers =>
      (backend? s.backends b).map fun _ =>
        { s with calls := s.calls ++ [{ backend := b, peers := peers, rest := peers }] }
  | .send c =>
      s.calls[c]?.bind fun call =>
        match call.rest with
        | peer :: rest =>
            some { s.broadcast peer with
              calls := s.calls.set c { call with rest := rest }
              log := s.log ++ [{ call := c, peer := peer }] }
        | [] => none
  | .feeds b =>
      (backend? s.backends b).map fun backend =>
        { s with
          feeds := s.feeds ++ [{
            priority := backend.priority
            trust := backend.trust
            built := s.log.length
            start := s.channel.subscribe
            next := s.channel.subscribe
            received := []
            ended := false
            dropped := false }] }
  | .poll f =>
      s.feeds[f]?.bind fun feed =>
        if feed.dropped || feed.ended then none
        else some { s with
          feeds := s.feeds.set f (feed.answered (s.channel.poll (senders s.backends) feed.next)) }
  | .dropFeed f =>
      s.feeds[f]?.bind fun feed =>
        if feed.dropped then none
        else some { s with feeds := s.feeds.set f { feed with dropped := true } }

/-- A new backend. -/
def system : System (Exchange PublicKey) (ExchangeAction PublicKey) where
  init :=
    { channel := .empty
      sent := []
      backends := [some .new]
      calls := []
      feeds := []
      log := [] }
  step := step

/-- Another peer is ingested only when a feed has less than the capacity left to read. -/
def KeepsUp (f : Nat) (s : Exchange PublicKey) : ExchangeAction PublicKey → Prop
  | .send _ => ∀ feed ∈ s.feeds[f]?, feed.dropped = false →
      s.channel.tail < feed.next + exchangeCapacity
  | _ => True

/-! ## What a step does -/

variable {s s' : Exchange PublicKey}

/-- A peer is sent if some feed hears it, and otherwise dropped. -/
theorem broadcast_cases (s : Exchange PublicKey) (peer : PublicKey) :
    (s.receivers = 0 ∧ s.broadcast peer = s) ∨
      s.broadcast peer = { s with channel := s.channel.push peer, sent := s.sent ++ [peer] } := by
  by_cases hnone : s.receivers = 0
  · exact .inl ⟨hnone, by simp [broadcast, Broadcast.send, hnone]⟩
  · exact .inr (by simp [broadcast, Broadcast.send, hnone])

/-- What a step can do. -/
inductive Step (s : Exchange PublicKey) : ExchangeAction PublicKey → Exchange PublicKey → Prop
  | backends (action : ExchangeAction PublicKey) (backends : List (Option PeerExchangeBackend)) :
      senders s.backends ≠ 0 →
      (∀ call ∈ s.calls, call.rest ≠ [] → (backend? s.backends call.backend).isSome = true →
        (backend? backends call.backend).isSome = true) →
      Step s action { s with backends := backends }
  | ingestPeers (b : Nat) (peers : List PublicKey) : (backend? s.backends b).isSome = true →
      Step s (.ingestPeers b peers)
        { s with calls := s.calls ++ [{ backend := b, peers := peers, rest := peers }] }
  | send (c : Nat) (call : IngestCall PublicKey) (peer : PublicKey) (rest : List PublicKey) :
      s.calls[c]? = some call → call.rest = peer :: rest →
      Step s (.send c) { s.broadcast peer with
        calls := s.calls.set c { call with rest := rest }
        log := s.log ++ [{ call := c, peer := peer }] }
  | feeds (b : Nat) (feed : ExchangeFeed PublicKey) : senders s.backends ≠ 0 →
      feed.built = s.log.length → feed.start = s.channel.subscribe →
      feed.next = s.channel.subscribe → feed.received = [] → feed.ended = false →
      Step s (.feeds b) { s with feeds := s.feeds ++ [feed] }
  | poll (f : Nat) (feed : ExchangeFeed PublicKey) : s.feeds[f]? = some feed →
      feed.dropped = false → feed.ended = false →
      Step s (.poll f)
        { s with feeds := s.feeds.set f (feed.answered (s.channel.poll (senders s.backends) feed.next)) }
  | dropFeed (f : Nat) (feed : ExchangeFeed PublicKey) : s.feeds[f]? = some feed →
      Step s (.dropFeed f) { s with feeds := s.feeds.set f { feed with dropped := true } }

theorem senders_ne_zero {b : Nat} (h : (backend? s.backends b).isSome = true) : senders s.backends ≠ 0 := by
  rcases Option.isSome_iff_exists.mp h with ⟨backend, hbackend⟩
  have hget := Option.join_eq_some_iff.mp hbackend
  exact Nat.ne_of_gt (List.countP_pos_iff.mpr ⟨some backend, List.mem_of_getElem? hget, rfl⟩)

/-- The clones that calls borrow stay where they are. -/
theorem move_sound {action : ExchangeAction PublicKey} {b : Nat}
    {result : PeerExchangeBackend → Option PeerExchangeBackend}
    (h : s.move b result = some s') : Step s action s' := by
  unfold move at h
  split at h <;> rename_i hfree
  · rcases Option.map_eq_some_iff.mp h with ⟨backend, hbackend, rfl⟩
    refine .backends action _ (senders_ne_zero (Option.isSome_of_eq_some hbackend)) ?_
    intro call hcall hrest hlive
    have hother : call.backend ≠ b := by
      have hidle := List.all_eq_true.mp hfree call hcall
      simp only [Bool.or_eq_true, bne_iff_ne, List.isEmpty_iff] at hidle
      exact hidle.resolve_right hrest
    rw [backend?, List.getElem?_set_ne hother.symm]
    exact hlive
  · contradiction

theorem step_sound {action : ExchangeAction PublicKey} (h : s.step action = some s') :
    Step s action s' := by
  cases action with
  | clone b =>
      rcases Option.map_eq_some_iff.mp h with ⟨backend, hbackend, rfl⟩
      refine .backends _ _ (senders_ne_zero (Option.isSome_of_eq_some hbackend)) ?_
      intro call _ _ hlive
      rcases Option.isSome_iff_exists.mp hlive with ⟨borrowed, hborrowed⟩
      have hget := Option.join_eq_some_iff.mp hborrowed
      have hlt := (List.getElem?_eq_some_iff.mp hget).1
      rw [backend?, List.getElem?_append_left hlt]
      exact hlive
  | priority b p => exact move_sound h
  | trust b t => exact move_sound h
  | drop b => exact move_sound h
  | ingestPeers b peers =>
      rcases Option.map_eq_some_iff.mp h with ⟨backend, hbackend, rfl⟩
      exact .ingestPeers b peers (Option.isSome_of_eq_some hbackend)
  | send c =>
      rcases Option.bind_eq_some_iff.mp h with ⟨call, hcall, h⟩
      split at h <;> rename_i hrest
      · obtain rfl := Option.some.inj h
        exact .send c call _ _ hcall hrest
      · contradiction
  | feeds b =>
      rcases Option.map_eq_some_iff.mp h with ⟨backend, hbackend, rfl⟩
      exact .feeds b _ (senders_ne_zero (Option.isSome_of_eq_some hbackend)) rfl rfl rfl rfl rfl
  | poll f =>
      rcases Option.bind_eq_some_iff.mp h with ⟨feed, hfeed, h⟩
      split at h <;> rename_i hopen
      · contradiction
      · obtain rfl := Option.some.inj h
        simp only [Bool.or_eq_true, not_or, Bool.not_eq_true] at hopen
        exact .poll f feed hfeed hopen.1 hopen.2
  | dropFeed f =>
      rcases Option.bind_eq_some_iff.mp h with ⟨feed, hfeed, h⟩
      split at h
      · contradiction
      · obtain rfl := Option.some.inj h
        exact .dropFeed f feed hfeed

/-! ## What every feed has heard -/

/-- What holds of a feed: it has read its part of what was sent, and as long as it is there
this is all that was ingested since it was built. -/
structure FeedInv (sent : List PublicKey) (log : List (Ingested PublicKey)) (senders : Nat)
    (feed : ExchangeFeed PublicKey) : Prop where
  heard : Broadcast.Heard sent feed.start feed.next feed.received
  hears : feed.dropped = false →
    sent.drop feed.start = (log.drop feed.built).map Ingested.peer
  built_le : feed.built ≤ log.length
  ended : feed.ended = true → senders = 0 ∧ feed.next = sent.length

section FeedInv

variable {sent : List PublicKey} {log : List (Ingested PublicKey)} {senders : Nat}
  {feed : ExchangeFeed PublicKey}

/-- Senders that go and come change nothing while there are some. -/
theorem FeedInv.moved (h : FeedInv sent log senders feed) (hsenders : senders ≠ 0)
    (senders' : Nat) : FeedInv sent log senders' feed where
  heard := h.heard
  hears := h.hears
  built_le := h.built_le
  ended hended := absurd (h.ended hended).1 hsenders

/-- A peer that is sent is heard by every feed. -/
theorem FeedInv.send (h : FeedInv sent log senders feed) (hsenders : senders ≠ 0)
    (entry : Ingested PublicKey) :
    FeedInv (sent ++ [entry.peer]) (log ++ [entry]) senders feed where
  heard := h.heard.append [entry.peer]
  hears hthere := by
    have hstart := Nat.le_trans h.heard.start_le h.heard.le_length
    rw [List.drop_append_of_le_length hstart, List.drop_append_of_le_length h.built_le,
      List.map_append, h.hears hthere]
    rfl
  built_le := by
    rw [List.length_append]
    exact Nat.le_add_right_of_le h.built_le
  ended hended := absurd (h.ended hended).1 hsenders

/-- A peer that is dropped is missed only by feeds that are gone. -/
theorem FeedInv.unheard (h : FeedInv sent log senders feed) (hgone : feed.dropped = true)
    (entry : Ingested PublicKey) : FeedInv sent (log ++ [entry]) senders feed where
  heard := h.heard
  hears hthere := by
    rw [hgone] at hthere
    contradiction
  built_le := by
    rw [List.length_append]
    exact Nat.le_add_right_of_le h.built_le
  ended := h.ended

/-- A feed that is polled goes on reading, and ends with the last sender. -/
theorem FeedInv.answered {channel : Broadcast PublicKey exchangeCapacity}
    (h : FeedInv sent log senders feed) (hholds : channel.Holds sent)
    (hopen : feed.ended = false) :
    FeedInv sent log senders (feed.answered (channel.poll senders feed.next)) := by
  rcases hpoll : channel.poll senders feed.next with ⟨answer, next⟩
  rcases answer with (_ | result) | _
  · refine { h with ended := fun _ => ?_ }
    rcases hholds.poll_cases senders feed.next h.heard.le_length with
      ⟨-, heq⟩ | ⟨a, -, -, heq⟩ | ⟨htail, heq⟩
    · simp [heq] at hpoll
    · simp [heq] at hpoll
    · refine ⟨?_, htail.trans hholds.tail_eq⟩
      by_contra hsenders
      simp [heq, hsenders] at hpoll
  · exact {
      heard := h.heard.poll hholds hpoll
      hears := h.hears
      built_le := h.built_le
      ended := fun hended => by simp [ExchangeFeed.answered, hopen] at hended }
  · exact h

end FeedInv

/-- What holds of an exchange. -/
structure Inv (s : Exchange PublicKey) : Prop where
  holds : s.channel.Holds s.sent
  feeds : ∀ feed ∈ s.feeds, FeedInv s.sent s.log (senders s.backends) feed
  borrowed : ∀ call ∈ s.calls, call.rest ≠ [] → (backend? s.backends call.backend).isSome = true
  ordered : ∀ c call, s.calls[c]? = some call →
    (s.log.filter fun entry => entry.call == c).map Ingested.peer ++ call.rest = call.peers
  known : ∀ entry ∈ s.log, entry.call < s.calls.length

theorem inv_init : Inv (system : System (Exchange PublicKey) (ExchangeAction PublicKey)).init where
  holds := Broadcast.holds_empty
  feeds := by simp [system]
  borrowed := by simp [system]
  ordered := by simp [system]
  known := by simp [system]

/-- A feed that is gone is no receiver. -/
theorem dropped_of_receivers (hnone : s.receivers = 0) {feed : ExchangeFeed PublicKey}
    (hfeed : feed ∈ s.feeds) : feed.dropped = true := by
  have hno := List.countP_eq_zero.mp hnone feed hfeed
  simpa using hno

/-- A call hands its peers over in their order. -/
theorem ordered_send {c : Nat} {call : IngestCall PublicKey} {peer : PublicKey}
    {rest : List PublicKey} (h : Inv s) (hcall : s.calls[c]? = some call)
    (hrest : call.rest = peer :: rest) (d : Nat) (other : IngestCall PublicKey)
    (hother : (s.calls.set c { call with rest := rest })[d]? = some other) :
    ((s.log ++ [({ call := c, peer := peer } : Ingested PublicKey)]).filter
      fun entry => entry.call == d).map Ingested.peer ++ other.rest = other.peers := by
  rw [List.filter_append, List.map_append]
  by_cases hd : c = d
  · subst hd
    have hlt := (List.getElem?_eq_some_iff.mp hcall).1
    rw [List.getElem?_set_self hlt] at hother
    obtain rfl := Option.some.inj hother
    have hbefore := h.ordered c call hcall
    rw [hrest] at hbefore
    simpa using hbefore
  · rw [List.getElem?_set_ne hd] at hother
    have hbefore := h.ordered d other hother
    have hnone : [({ call := c, peer := peer } : Ingested PublicKey)].filter
        (fun entry => entry.call == d) = [] := by simp [hd]
    rw [hnone, List.map_nil, List.append_nil]
    exact hbefore

theorem Inv.step (h : Inv s) {action : ExchangeAction PublicKey} (hstep : Step s action s') :
    Inv s' := by
  cases hstep with
  | backends action backends hsenders hkept =>
      refine { h with feeds := fun feed hfeed => ?_, borrowed := fun call hcall hrest => ?_ }
      · exact (h.feeds feed hfeed).moved hsenders _
      · exact hkept call hcall hrest (h.borrowed call hcall hrest)
  | ingestPeers b peers hlive =>
      refine { h with borrowed := ?_, ordered := ?_, known := ?_ }
      · intro call hcall hrest
        rcases List.mem_append.mp hcall with hcall | hcall
        · exact h.borrowed call hcall hrest
        · obtain rfl := List.mem_singleton.mp hcall
          exact hlive
      · intro c call hcall
        rcases Nat.lt_or_ge c s.calls.length with hlt | hge
        · rw [List.getElem?_append_left hlt] at hcall
          exact h.ordered c call hcall
        · -- Nothing is logged yet of a new call.
          rw [List.getElem?_append_right hge, List.getElem?_singleton] at hcall
          split at hcall
          · obtain rfl := Option.some.inj hcall
            have hnone : s.log.filter (fun entry => entry.call == c) = [] := by
              refine List.filter_eq_nil_iff.mpr fun entry hentry => ?_
              have hlt := h.known entry hentry
              simp only [beq_iff_eq]
              omega
            rw [hnone]
            rfl
          · contradiction
      · intro entry hentry
        rw [List.length_append]
        exact Nat.lt_add_right 1 (h.known entry hentry)
  | send c call peer rest hcall hrest =>
      have hborrowed := h.borrowed call (List.mem_of_getElem? hcall) (by simp [hrest])
      have hsenders := senders_ne_zero hborrowed
      have hcalls : ∀ other ∈ s.calls.set c { call with rest := rest }, other.rest ≠ [] →
          (backend? s.backends other.backend).isSome = true := by
        intro other hother hmore
        rcases List.mem_or_eq_of_mem_set hother with hother | rfl
        · exact h.borrowed other hother hmore
        · exact hborrowed
      have hknown : ∀ entry ∈ s.log ++ [({ call := c, peer := peer } : Ingested PublicKey)],
          entry.call < (s.calls.set c { call with rest := rest }).length := by
        intro entry hentry
        rw [List.length_set]
        rcases List.mem_append.mp hentry with hentry | hentry
        · exact h.known entry hentry
        · obtain rfl := List.mem_singleton.mp hentry
          exact (List.getElem?_eq_some_iff.mp hcall).1
      rcases broadcast_cases s peer with ⟨hnone, heq⟩ | heq
      · rw [heq]
        exact {
          holds := h.holds
          feeds := fun feed hfeed =>
            (h.feeds feed hfeed).unheard (dropped_of_receivers hnone hfeed) _
          borrowed := hcalls
          ordered := ordered_send h hcall hrest
          known := hknown }
      · rw [heq]
        exact {
          holds := h.holds.push peer
          feeds := fun feed hfeed =>
            (h.feeds feed hfeed).send hsenders { call := c, peer := peer }
          borrowed := hcalls
          ordered := ordered_send h hcall hrest
          known := hknown }
  | feeds b feed hsenders hbuilt hstart hnext hreceived hended =>
      refine { h with feeds := fun other hother => ?_ }
      rcases List.mem_append.mp hother with hother | hother
      · exact h.feeds other hother
      · obtain rfl := List.mem_singleton.mp hother
        refine ⟨?_, fun _ => ?_, Nat.le_of_eq hbuilt, fun hend => ?_⟩
        · rw [hstart, hnext, hreceived]
          exact h.holds.heard_subscribe
        · rw [hstart, hbuilt, Broadcast.subscribe, h.holds.tail_eq, List.drop_length,
            List.drop_length]
          rfl
        · rw [hended] at hend
          contradiction
  | poll f feed hfeed hthere hopen =>
      refine { h with feeds := fun other hother => ?_ }
      rcases List.mem_or_eq_of_mem_set hother with hother | heq
      · exact h.feeds other hother
      · rw [heq]
        exact (h.feeds feed (List.mem_of_getElem? hfeed)).answered h.holds hopen
  | dropFeed f feed hfeed =>
      refine { h with feeds := fun other hother => ?_ }
      rcases List.mem_or_eq_of_mem_set hother with hother | rfl
      · exact h.feeds other hother
      · exact { h.feeds feed (List.mem_of_getElem? hfeed) with hears := nofun }

theorem inv_of_reachable (hs : system.Reachable s) : Inv s :=
  hs.invariant inv_init fun _ _ _ _ hinv _ hstep => hinv.step (step_sound hstep)

/-! ## Feeds that keep up -/

/-- What holds of a feed that keeps up: it has no more left to read than the channel retains,
and never got a notice. -/
structure KeptUp (tail : Nat) (feed : ExchangeFeed PublicKey) : Prop where
  near : feed.dropped = false → tail ≤ feed.next + exchangeCapacity
  values : ∀ result ∈ feed.received, (Broadcast.value? result).isSome = true

theorem KeptUp.answered {feed : ExchangeFeed PublicKey} {senders : Nat}
    (h : KeptUp s.channel.tail feed) (hinv : Inv s) (hfeed : feed ∈ s.feeds)
    (hthere : feed.dropped = false) :
    KeptUp s.channel.tail (feed.answered (s.channel.poll senders feed.next)) := by
  rcases hpoll : s.channel.poll senders feed.next with ⟨answer, next⟩
  rcases answer with (_ | result) | _
  · exact ⟨h.near, h.values⟩
  · have hread := (hinv.feeds feed hfeed).heard.le_length
    rcases hinv.holds.value_of_poll hread (h.near hthere) hpoll with ⟨hvalue, rfl⟩
    refine ⟨fun _ => ?_, fun other hother => ?_⟩
    · have hnear := h.near hthere
      show s.channel.tail ≤ feed.next + 1 + exchangeCapacity
      omega
    · rcases List.mem_append.mp hother with hother | hother
      · exact h.values other hother
      · obtain rfl := List.mem_singleton.mp hother
        exact hvalue
  · exact h

/-- A feed that keeps up misses nothing. -/
theorem keptUp {f : Nat} (hs : system.ReachableWhen (KeepsUp f) s) :
    ∀ feed : ExchangeFeed PublicKey, s.feeds[f]? = some feed → KeptUp s.channel.tail feed := by
  refine hs.invariant (I := fun s => ∀ feed : ExchangeFeed PublicKey, s.feeds[f]? = some feed →
    KeptUp s.channel.tail feed) (by simp [system]) ?_
  intro s s' action hreach ih hcond hnext other hother
  have hinv := inv_of_reachable hreach.reachable
  cases step_sound hnext with
  | backends | ingestPeers => exact ih other hother
  | send c call peer rest hcall hrest =>
      rcases broadcast_cases s peer with ⟨-, heq⟩ | heq
      · rw [heq] at hother ⊢
        exact ih other hother
      · rw [heq] at hother ⊢
        exact ⟨fun hthere => hcond other hother hthere, (ih other hother).values⟩
  | feeds b feed hsenders hbuilt hstart hstarts hreceived hended =>
      rcases Nat.lt_or_ge f s.feeds.length with hlt | hge
      · rw [List.getElem?_append_left hlt] at hother
        exact ih other hother
      · rw [List.getElem?_append_right hge, List.getElem?_singleton] at hother
        split at hother
        · obtain rfl := Option.some.inj hother
          refine ⟨fun _ => ?_, by simp [hreceived]⟩
          rw [hstarts]
          exact Nat.le_add_right _ _
        · contradiction
  | poll g feed hfeed hthere hopen =>
      by_cases hg : g = f
      · subst hg
        have hlt := (List.getElem?_eq_some_iff.mp hfeed).1
        rw [List.getElem?_set_self hlt] at hother
        obtain rfl := Option.some.inj hother
        exact (ih feed hfeed).answered hinv (List.mem_of_getElem? hfeed) hthere
      · rw [List.getElem?_set_ne hg] at hother
        exact ih other hother
  | dropFeed g feed hfeed =>
      by_cases hg : g = f
      · subst hg
        have hlt := (List.getElem?_eq_some_iff.mp hfeed).1
        rw [List.getElem?_set_self hlt] at hother
        obtain rfl := Option.some.inj hother
        exact ⟨nofun, (ih feed hfeed).values⟩
      · rw [List.getElem?_set_ne hg] at hother
        exact ih other hother

/-! ## Feeds that catch up -/

/-- The state after a feed has read all there is. -/
def caughtUp (s : Exchange PublicKey) (f : Nat) (feed : ExchangeFeed PublicKey) :
    Exchange PublicKey :=
  { s with
    feeds := s.feeds.set f { feed with
      next := s.channel.tail
      received := feed.received ++ s.channel.read feed.next } }

/-- A feed that goes on polling reads what the channel retains. -/
theorem run_poll {f : Nat} {feed : ExchangeFeed PublicKey} (hholds : s.channel.Holds s.sent)
    (hfeed : s.feeds[f]? = some feed) (hthere : feed.dropped = false) (hopen : feed.ended = false)
    (hnext : feed.next ≤ s.sent.length) :
    system.run s (List.replicate (s.channel.read feed.next).length (.poll f)) =
      some (s.caughtUp f feed) := by
  generalize hread : s.channel.read feed.next = results
  have hlt := (List.getElem?_eq_some_iff.mp hfeed).1
  induction results generalizing s feed with
  | nil =>
      rcases Broadcast.read_of_poll hholds (senders s.backends) hnext with ⟨result, next, -, -, heq⟩ | ⟨htail, -⟩
      · rw [heq] at hread
        contradiction
      · have hsame : s.feeds.set f feed = s.feeds := by
          rw [← (List.getElem?_eq_some_iff.mp hfeed).2, List.set_getElem_self]
        rw [caughtUp, hread, List.append_nil, ← htail, hsame]
        rfl
  | cons result results ih =>
      rcases Broadcast.read_of_poll hholds (senders s.backends) hnext with ⟨first, next, hpoll, hle, heq⟩ | ⟨-, heq⟩
      · rw [heq] at hread
        rcases List.cons.inj hread with ⟨rfl, hrest⟩
        have hstep : s.step (.poll f) = some { s with
            feeds := s.feeds.set f
              { feed with
                next := next
                received := feed.received ++ [first] } } := by
          simp [step, hfeed, hthere, hopen, hpoll, ExchangeFeed.answered]
        have hlater := ih (s := { s with
            feeds := s.feeds.set f
              { feed with
                next := next
                received := feed.received ++ [first] } })
          hholds (List.getElem?_set_self hlt) hthere hopen hle hrest (by simpa using hlt)
        rw [List.length_cons, List.replicate_succ, System.run_cons hstep, hlater]
        simp [caughtUp, heq]
      · rw [heq] at hread
        contradiction

/-! ## What a feed is for -/

/-- What a feed that is being read has heard and has left to hear. -/
structure Hears (f : Nat) (s : Exchange PublicKey) (feed : ExchangeFeed PublicKey)
    (heard unread : List PublicKey) : Prop where
  /-- Together these are the peers that were ingested since the feed was built. -/
  ingested : heard ++ unread = (s.log.drop feed.built).map Ingested.peer
  /-- It has yielded what it has heard, but for the gaps that it was told of. -/
  accounts : Broadcast.Accounts feed.received heard
  /-- So the peers come in the order in which they were ingested. -/
  inOrder : feed.peers.Sublist heard
  /-- If it keeps up there are no gaps. -/
  complete : system.ReachableWhen (KeepsUp f) s → feed.peers = heard
  /-- It can go on with the last peers that it has left, as many as the channel retains. -/
  catchUp : ∃ n s' feed', n ≤ exchangeCapacity + 1 ∧
    system.run s (List.replicate n (.poll f)) = some s' ∧ s'.feeds[f]? = some feed' ∧
      feed'.peers = feed.peers ++ unread.drop (unread.length - exchangeCapacity)
  /-- It ends when all clones are gone and nothing is left, -/
  ended : feed.ended = true → senders s.backends = 0 ∧ unread = []
  /-- and does so with the next poll. -/
  closed : senders s.backends = 0 → unread = [] → feed.ended = false →
    ∃ s' feed', s.step (.poll f) = some s' ∧ s'.feeds[f]? = some feed' ∧ feed'.ended = true

section Hears

variable {f : Nat} {feed : ExchangeFeed PublicKey}

theorem peers_caughtUp (h : Inv s) (hfeed : s.feeds[f]? = some feed) :
    ∃ feed', (s.caughtUp f feed).feeds[f]? = some feed' ∧ feed'.peers = feed.peers ++
      (s.sent.drop feed.next).drop ((s.sent.drop feed.next).length - exchangeCapacity) := by
  refine ⟨_, List.getElem?_set_self (List.getElem?_eq_some_iff.mp hfeed).1, ?_⟩
  rw [ExchangeFeed.peers, List.filterMap_append, Broadcast.values_read h.holds]
  rfl

/-- A feed catches up, unless it has ended and there is nothing to catch up with. -/
theorem exists_catchUp (h : Inv s) (hfeed : s.feeds[f]? = some feed)
    (hthere : feed.dropped = false) : ∃ n s' feed', n ≤ exchangeCapacity + 1 ∧
      system.run s (List.replicate n (.poll f)) = some s' ∧ s'.feeds[f]? = some feed' ∧
        feed'.peers = feed.peers ++
          (s.sent.drop feed.next).drop ((s.sent.drop feed.next).length - exchangeCapacity) := by
  have hinv := h.feeds feed (List.mem_of_getElem? hfeed)
  cases hended : feed.ended with
  | false =>
      have hrun := run_poll h.holds hfeed hthere hended hinv.heard.le_length
      rcases peers_caughtUp h hfeed with ⟨feed', hfeed', hpeers⟩
      exact ⟨_, _, feed', Broadcast.length_read_le _ _, hrun, hfeed', hpeers⟩
  | true =>
      have hnone : s.sent.drop feed.next = [] := by
        rw [(hinv.ended hended).2, List.drop_length]
      refine ⟨0, s, feed, Nat.zero_le _, rfl, hfeed, ?_⟩
      rw [hnone, List.drop_nil, List.append_nil]

/-- A feed ends with the last clone. -/
theorem ended_of_poll (h : Inv s) (hfeed : s.feeds[f]? = some feed)
    (hthere : feed.dropped = false) (hopen : feed.ended = false)
    (hgone : senders s.backends = 0) (hnone : s.sent.drop feed.next = []) :
    ∃ s' feed', s.step (.poll f) = some s' ∧ s'.feeds[f]? = some feed' ∧ feed'.ended = true := by
  have hnext := (h.feeds feed (List.mem_of_getElem? hfeed)).heard.le_length
  have hend := List.drop_eq_nil_iff.mp hnone
  have hpoll : s.channel.poll (senders s.backends) feed.next = (.ready none, feed.next) := by
    rcases h.holds.poll_cases (senders s.backends) feed.next hnext with
      ⟨hlagging, -⟩ | ⟨a, -, hvalue, -⟩ | ⟨-, heq⟩
    · have htail := h.holds.tail_eq
      simp only [Broadcast.oldest] at hlagging
      omega
    · have hlt := (List.getElem?_eq_some_iff.mp hvalue).1
      omega
    · rw [heq, if_pos hgone]
  have hstep : s.step (.poll f) =
      some { s with feeds := s.feeds.set f { feed with ended := true } } := by
    simp [step, hfeed, hthere, hopen, hpoll, ExchangeFeed.answered]
  have hnow : (s.feeds.set f { feed with ended := true })[f]? =
      some { feed with ended := true } :=
    List.getElem?_set_self (List.getElem?_eq_some_iff.mp hfeed).1
  exact ⟨_, _, hstep, hnow, rfl⟩

end Hears

/-- An engine of any service that reads a feed to its end gets the peers that the feed has
yielded, with the trust of the feed. -/
theorem inner_new_spec (localId : PublicKey) (alpn : List UInt8) (feed : ExchangeFeed PublicKey) :
    (SwarmEngine.new localId alpn
        [(feed.spec : PeerFeedSpec PublicKey Error)]).inner =
      [Seq.ofList (feed.peers.map fun id =>
        .ok ⟨id, "peer-exchange", feed.trust, feed.trust⟩)] := by
  have hitems : (feed.spec : PeerFeedSpec PublicKey Error).tagged.items =
      Seq.ofList (feed.peers.map fun id => .ok ⟨id, "peer-exchange", feed.trust, feed.trust⟩) := by
    apply Seq.ext
    intro n
    simp only [TaggedFeed.items, PeerFeedSpec.tagged, ExchangeFeed.spec, peerExchangeFeed,
      ExchangeFeed.peers, Seq.map_get?, Seq.ofList_get?, List.getElem?_map, Option.map_map]
    rfl
  rw [← hitems]
  rfl

end Exchange

open Exchange

/-- A clone ingests two peers, and a second feed is built between them. -/
def twoPeers : List (ExchangeAction NodeId) :=
  [.feeds 0, .clone 0, .ingestPeers 1 [repeatedId 7, repeatedId 8], .send 0, .poll 0, .feeds 1,
    .send 0, .poll 1, .drop 0, .drop 1, .poll 1]

end IrohTransport.Swarm
