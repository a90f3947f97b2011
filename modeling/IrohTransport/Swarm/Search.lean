import IrohTransport.Swarm.Race
import IrohTransport.Swarm.Registry

/-!
# Searches

A search asks the backends of the registry for their feeds, merges these in an engine and
races connection attempts to what the engine yields.  The locator polls the engine whenever
it has room for another attempt, so feeds, attempts and the reader of the channels interleave
in every order.

A run of a search is at the same time one of its engine and one of its locator, the latter
over a stream that is not known before the run has ended: whatever the engine has yielded,
followed by whatever it may still yield.

Main results:

- Theorem {lit}`Search.reachable_locator`: a search simulates a locator over every
  continuation of what its engine has yielded.
- Theorem {lit}`search_tries_every_node_once`: what a search guarantees about the nodes in the
  feeds of its backends.
-/

namespace IrohTransport.Swarm

open Stream' (Seq)

variable {SecretKey PublicKey Signature Error Channel : Type}

/-! ## Backends -/

/-- A pluggable peer discovery backend. -/
structure Discovery (PublicKey Error : Type) where
  name : String
  feeds : List UInt8 → List (PeerFeedSpec PublicKey Error)

/-- {lit}`ServiceRegistry::build_feeds`. -/
def buildFeeds (backends : List (Discovery PublicKey Error)) (alpn : List UInt8) :
    List (PeerFeedSpec PublicKey Error) :=
  backends.flatMap fun b => b.feeds alpn

/-- A group of static peers. -/
structure StaticSpec (PublicKey : Type) where
  peers : List PublicKey
  priority : UInt8
  trust : UInt8
  scope : Scope

/-- Static peer list discovery backend. -/
structure StaticBackend (PublicKey : Type) where
  specs : List (StaticSpec PublicKey)

namespace StaticBackend

def new : StaticBackend PublicKey := ⟨[]⟩

/-- Add a group of static peers. -/
def addPeers (self : StaticBackend PublicKey) (scope : Scope) (priority trust : UInt8)
    (peers : List PublicKey) : StaticBackend PublicKey where
  specs := self.specs ++ [⟨peers, priority, trust, scope⟩]

/-- Every group is a feed, for any service; the engine looks at their scopes. -/
def discovery (self : StaticBackend PublicKey) : Discovery PublicKey Error where
  name := "static"
  feeds _ := self.specs.map fun spec => staticFeed spec.peers spec.priority spec.trust spec.scope

end StaticBackend

/-! ## The search -/

/-- The engine of a search and the locator that polls it.  The stream of the locator is the
engine, so the one of its own stays empty. -/
structure Search (PublicKey Error Channel : Type) where
  engine : SwarmEngine.Session PublicKey Error
  locator : Locator.State PublicKey Error Channel

/-- The locator polls the engine, or goes on otherwise. -/
inductive SearchAction (Error Channel : Type) where
  | poll (turn : Merge.Turn)
  | locator (action : Locator.Action Error Channel)

namespace Search

/-- The locator with what a poll of the engine has returned. -/
def polled (locator : Locator.State PublicKey Error Channel)
    (before after : SwarmEngine.Session PublicKey Error) :
    Locator.State PublicKey Error Channel :=
  match after.yielded.drop before.yielded.length with
  | item :: _ => locator.discovered (some (item, Seq.nil))
  | [] => if after.ended then locator.discovered none else locator

section System

variable [DecidableEq PublicKey] (keys : Keys SecretKey PublicKey Signature)
  (connection : String → Error) (config : LocatorConfig)

/-- One step. -/
def step (s : Search PublicKey Error Channel) :
    SearchAction Error Channel → Option (Search PublicKey Error Channel)
  | .poll turn =>
      match s.locator.pc with
      | .selecting true _ =>
          (SwarmEngine.step keys s.engine turn).map fun engine =>
            { engine := engine, locator := polled s.locator s.engine engine }
      | _ => none
  | .locator .discover => none
  | .locator action =>
      (Locator.step connection config s.locator action).map fun locator =>
        { s with locator := locator }

/-- {lit}`LocatorBuilder::start`. -/
def system (localId : PublicKey) (alpn : List UInt8)
    (backends : List (Discovery PublicKey Error)) (usage : Locator.Usage) :
    System (Search PublicKey Error Channel) (SearchAction Error Channel) where
  init :=
    { engine := (SwarmEngine.system keys localId alpn (buildFeeds backends alpn)).init
      locator := (Locator.system connection config Seq.nil usage).init }
  step := step keys connection config

end System

/-! ## A search is a run of its engine and of its locator -/

section Locator

variable {connection : String → Error} {config : LocatorConfig}

/-- Only discovery looks at the stream of a locator. -/
theorem locator_step_peers {locator locator' : Locator.State PublicKey Error Channel}
    {action : Locator.Action Error Channel} (hne : action ≠ .discover)
    (h : Locator.step connection config locator action = some locator')
    (peers : Seq (Except Error (Peer PublicKey))) :
    Locator.step connection config { locator with peers := peers } action =
      some { locator' with peers := peers } := by
  cases action with
  | discover => contradiction
  | enter =>
      simp only [Locator.step] at h ⊢
      split at h
      · split at h <;> rename_i hcond
        · obtain rfl := Option.some.inj h
          exact if_pos hcond
        · obtain rfl := Option.some.inj h
          exact if_neg hcond
      · contradiction
  | completed i result =>
      simp only [Locator.step] at h ⊢
      split at h
      · obtain rfl := Option.some.inj h
        rfl
      · contradiction
  | drained =>
      simp only [Locator.step] at h ⊢
      split at h
      · split at h <;> rename_i hcond
        · obtain rfl := Option.some.inj h
          exact if_pos hcond
        · contradiction
      · contradiction
  | send =>
      simp only [Locator.step] at h ⊢
      split at h
      · rename_i outcome hpc
        split at h <;> rename_i hkept
        · split at h <;> rename_i hroom
          · obtain rfl := Option.some.inj h
            exact (if_pos hkept).trans (if_pos hroom)
          · contradiction
        · obtain rfl := Option.some.inj h
          refine (if_neg hkept).trans ?_
          cases outcome <;> rfl
      · contradiction
  | elapse =>
      simp only [Locator.step] at h ⊢
      split at h <;> rename_i hcond
      · obtain rfl := Option.some.inj h
        exact if_pos hcond
      · contradiction
  | abort =>
      simp only [Locator.step] at h ⊢
      split at h <;> rename_i hcond
      · obtain rfl := Option.some.inj h
        exact if_pos hcond
      · contradiction
  | recv =>
      simp only [Locator.step] at h ⊢
      split at h
      · rename_i result queue hqueue
        split at h <;> rename_i hkept
        · obtain rfl := Option.some.inj h
          refine (if_pos hkept).trans ?_
          simp only [Locator.State.handed]
          split <;> rfl
        · contradiction
      · contradiction
  | closed =>
      simp only [Locator.step] at h ⊢
      split at h
      · split at h <;> rename_i hkept
        · obtain rfl := Option.some.inj h
          exact if_pos hkept
        · contradiction
      · contradiction
  | dropReceiver =>
      simp only [Locator.step] at h ⊢
      split at h
      · contradiction
      · obtain rfl := Option.some.inj h
        rfl

/-- Attempts are made to peers that were taken from the stream, one to each. -/
def Attempted (locator : Locator.State PublicKey Error Channel) : Prop :=
  ((locator.sent ++ locator.pc.pending).filterMap Locator.Outcome.peer? ++ locator.inflight).Subperm
    (locator.taken.filterMap Locator.peer?)

variable {locator locator' : Locator.State PublicKey Error Channel}

/-- So are those that run and those whose results were sent. -/
theorem Attempted.sent (h : Attempted locator) :
    (locator.sent.filterMap Locator.Outcome.peer? ++ locator.inflight).Subperm
      (locator.taken.filterMap Locator.peer?) :=
  (((List.sublist_append_left _ _).filterMap _).append_right _).subperm.trans h

theorem Attempted.loop_step (h : Attempted locator) (hstep : Locator.LoopStep config locator locator') :
    Attempted locator' := by
  have hsent := h.sent
  cases hstep with
  | finish | select | elapse | abort | exhausted =>
      simpa [Attempted, Locator.Pc.pending] using hsent
  | drained canDiscover hpc hnone =>
      cases canDiscover <;> simpa [Attempted, Locator.Pc.pending] using hsent
  | complete canDiscover i peer result hpc hpeer =>
      rcases List.getElem?_eq_some_iff.mp hpeer with ⟨hlt, rfl⟩
      have hperm := (List.getElem_cons_eraseIdx_perm hlt).append_left
        (locator.sent.filterMap Locator.Outcome.peer?)
      refine (List.Perm.subperm ?_).trans hsent
      simpa [Locator.Pc.pending, List.filterMap_cons, Locator.Outcome.peer?] using hperm
  | peer hasInflight peer rest hpc hpeers =>
      have hone : [peer].Subperm [peer] := .refl _
      simpa [Attempted, Locator.Pc.pending] using hsent.append hone
  | error hasInflight err rest hpc hpeers =>
      simpa [Attempted, Locator.Pc.pending, List.filterMap_cons, Locator.Outcome.peer?] using hsent
  | send outcome hpc hkept hroom =>
      simpa [Attempted, Locator.Pc.pending, hpc] using h
  | unsent outcome hpc hgone =>
      cases outcome <;> simpa [Attempted, Locator.State.unsent, Locator.Pc.pending] using hsent

theorem attempted_of_reachable {stream : Seq (Except Error (Peer PublicKey))}
    {usage : Locator.Usage}
    (hs : (Locator.system connection config stream usage).Reachable locator) :
    Attempted locator := by
  refine hs.invariant (I := Attempted) ?_ ?_
  · exact List.nil_subperm
  intro locator locator' action _ ih _ hstep
  rcases Locator.step_cases hstep with hloop | hreader
  · exact ih.loop_step hloop
  · cases hreader with
    | recv result queue hqueue hkept =>
        rcases Locator.State.handed_frame
          ({ locator with queue := queue, received := locator.received ++ [result] } :
            Locator.State PublicKey Error Channel) result with ⟨consumer, kept, heq, -⟩
        rw [heq]
        exact ih
    | closed | drop => exact ih

end Locator

section Simulation

variable [DecidableEq PublicKey] {keys : Keys SecretKey PublicKey Signature}
  {connection : String → Error} {config : LocatorConfig} {localId : PublicKey}
  {alpn : List UInt8} {backends : List (Discovery PublicKey Error)} {usage : Locator.Usage}
  {s s' : Search PublicKey Error Channel}

/-- What a step can do. -/
inductive Step (keys : Keys SecretKey PublicKey Signature) (connection : String → Error)
    (config : LocatorConfig) (s : Search PublicKey Error Channel) :
    Search PublicKey Error Channel → Prop
  /-- The engine yields an item. -/
  | item (hasInflight : Bool) (turn : Merge.Turn) (engine : SwarmEngine.Session PublicKey Error)
      (item : Except Error (Peer PublicKey)) :
      s.locator.pc = .selecting true hasInflight →
      SwarmEngine.step keys s.engine turn = some engine →
      engine.yielded = s.engine.yielded ++ [item] →
      Step keys connection config s
        { engine := engine, locator := s.locator.discovered (some (item, Seq.nil)) }
  /-- The engine has nothing to yield yet. -/
  | pending (turn : Merge.Turn) (engine : SwarmEngine.Session PublicKey Error) :
      SwarmEngine.step keys s.engine turn = some engine →
      engine.yielded = s.engine.yielded → engine.ended = false →
      Step keys connection config s { s with engine := engine }
  /-- The engine has ended. -/
  | ended (hasInflight : Bool) (turn : Merge.Turn) (engine : SwarmEngine.Session PublicKey Error) :
      s.locator.pc = .selecting true hasInflight →
      SwarmEngine.step keys s.engine turn = some engine →
      engine.yielded = s.engine.yielded → engine.ended = true →
      Step keys connection config s
        { engine := engine, locator := s.locator.discovered none }
  | locator (action : Locator.Action Error Channel) (locator : Locator.State PublicKey Error Channel) :
      action ≠ .discover → Locator.step connection config s.locator action = some locator →
      Step keys connection config s { s with locator := locator }

/-- A poll of the engine yields one item at most. -/
theorem yielded_step {before after : SwarmEngine.Session PublicKey Error} {turn : Merge.Turn}
    (h : SwarmEngine.step keys before turn = some after) :
    after.yielded = before.yielded ∨ ∃ item, after.yielded = before.yielded ++ [item] := by
  rcases SwarmEngine.step_cases h with ⟨i, item, rest, -, -, rfl⟩ | ⟨-, -, rfl⟩ | ⟨-, -, rfl⟩
  · cases hpasses : before.engine.passes keys item with
    | true => exact .inr ⟨item, by simp [SwarmEngine.Session.next, hpasses]⟩
    | false => exact .inl (by simp [SwarmEngine.Session.next, hpasses])
  · exact .inl rfl
  · exact .inl rfl

theorem step_sound {action : SearchAction Error Channel}
    (h : s.step keys connection config action = some s') : Step keys connection config s s' := by
  cases action with
  | poll turn =>
      simp only [step] at h
      split at h
      · rename_i hasInflight hpc
        rcases Option.map_eq_some_iff.mp h with ⟨engine, hengine, rfl⟩
        rcases yielded_step hengine with hyielded | ⟨item, hyielded⟩
        · have hdrop : engine.yielded.drop s.engine.yielded.length = [] := by simp [hyielded]
          cases hended : engine.ended with
          | true =>
              simp only [polled, hdrop, hended, if_true]
              exact .ended hasInflight turn engine hpc hengine hyielded hended
          | false =>
              simp only [polled, hdrop, hended, Bool.false_eq_true, if_false]
              exact .pending turn engine hengine hyielded hended
        · have hdrop : engine.yielded.drop s.engine.yielded.length = [item] := by simp [hyielded]
          simp only [polled, hdrop]
          exact .item hasInflight turn engine item hpc hengine hyielded
      · contradiction
  | locator action =>
      have hlocator (hne : action ≠ .discover)
          (h : (Locator.step connection config s.locator action).map
            (fun locator => ({ s with locator := locator } : Search PublicKey Error Channel)) =
              some s') : Step keys connection config s s' := by
        rcases Option.map_eq_some_iff.mp h with ⟨locator, hstep, rfl⟩
        exact .locator action locator hne hstep
      cases action with
      | discover => contradiction
      | enter | completed _ _ | drained | send | elapse | abort | recv | closed | dropReceiver =>
          exact hlocator nofun h

/-- The engine of a search goes through a run of its own. -/
theorem reachable_engine
    (hs : (system keys connection config localId alpn backends usage).Reachable s) :
    (SwarmEngine.system keys localId alpn (buildFeeds backends alpn)).Reachable s.engine := by
  refine hs.invariant (I := fun s => (SwarmEngine.system keys localId alpn
    (buildFeeds backends alpn)).Reachable s.engine) .init ?_
  intro s s' action _ ih _ hstep
  cases step_sound hstep with
  | item _ turn engine _ _ hengine _ => exact .step ih trivial hengine
  | pending turn engine hengine _ _ => exact .step ih trivial hengine
  | ended _ turn engine _ hengine _ _ => exact .step ih trivial hengine
  | locator _ _ _ _ => exact ih

theorem ended_step {before after : SwarmEngine.Session PublicKey Error} {turn : Merge.Turn}
    (h : SwarmEngine.step keys before turn = some after) (hended : before.ended = true) :
    after.ended = true := by
  rcases SwarmEngine.step_cases h with ⟨i, item, rest, -, -, rfl⟩ | ⟨-, -, rfl⟩ | ⟨-, -, rfl⟩
  · exact hended
  · exact hended
  · rfl

/-- An engine that has ended yields nothing more. -/
theorem yielded_of_ended {before after : SwarmEngine.Session PublicKey Error} {turn : Merge.Turn}
    (hbefore : (SwarmEngine.system keys localId alpn (buildFeeds backends alpn)).Reachable before)
    (hended : before.ended = true) (h : SwarmEngine.step keys before turn = some after) :
    after.yielded = before.yielded := by
  have hexhausted := (SwarmEngine.inv_of_reachable hbefore).exhausted_of_ended hended
  rcases SwarmEngine.step_cases h with ⟨i, item, rest, -, hsource, -⟩ | ⟨-, -, rfl⟩ | ⟨-, -, rfl⟩
  · have hnil := Merge.exhausted_iff.mp hexhausted _ (List.mem_of_getElem? hsource)
    exact absurd hnil Seq.cons_ne_nil
  · rfl
  · rfl

/-- The locator of a search goes through a run of its own: over whatever the engine has
yielded so far, followed by anything at all as long as the engine has not ended. -/
theorem reachable_locator
    (hs : (system keys connection config localId alpn backends usage).Reachable s)
    (rest : Seq (Except Error (Peer PublicKey))) (hrest : s.engine.ended = true → rest = Seq.nil) :
    (Locator.system connection config ((Seq.ofList s.engine.yielded).append rest) usage).Reachable
      { s.locator with peers := rest } := by
  induction hs generalizing rest with
  | init =>
      simp only [system, SwarmEngine.system, Seq.ofList_nil, Seq.nil_append]
      exact .init
  | @step s s' action hs _ hstep ih =>
      cases step_sound hstep with
      | item hasInflight turn engine item hpc hengine hyielded =>
          have hopen : s.engine.ended = true → Seq.cons item rest = Seq.nil := by
            intro hended
            have hsame := yielded_of_ended (reachable_engine hs) hended hengine
            rw [hyielded] at hsame
            simp at hsame
          have hstream : (Seq.ofList engine.yielded).append rest =
              (Seq.ofList s.engine.yielded).append (Seq.cons item rest) := by
            rw [hyielded, Seq.ofList_append, Seq.append_assoc]
            simp
          rw [hstream]
          refine .step (a := .discover) (ih (Seq.cons item rest) hopen) trivial ?_
          cases item <;> simp [Locator.system, Locator.step, hpc, Locator.State.discovered]
      | pending turn engine hengine hyielded hended =>
          rw [hyielded]
          refine ih rest fun hwas => ?_
          rw [ended_step hengine hwas] at hended
          contradiction
      | ended hasInflight turn engine hpc hengine hyielded hended =>
          obtain rfl := hrest hended
          rw [hyielded]
          refine .step (a := .discover) (ih Seq.nil fun _ => rfl) trivial ?_
          simp [Locator.system, Locator.step, hpc, Locator.State.discovered]
      | locator action locator hne hlocator =>
          refine .step (a := action) (ih rest hrest) trivial ?_
          exact locator_step_peers hne hlocator rest

/-- The locator has taken what the engine has yielded. -/
theorem taken_eq_yielded
    (hs : (system keys connection config localId alpn backends usage).Reachable s) :
    s.locator.taken = s.engine.yielded := by
  have hwhole := (Locator.loopInv_of_reachable (reachable_locator hs Seq.nil fun _ => rfl)).whole
  rw [Seq.append_nil] at hwhole
  exact (Seq.ofList_injective (hwhole.trans (Seq.append_nil _))).symm

/-- A locator that has found its stream exhausted has found its engine ended. -/
theorem ended_of_streamExhausted
    (hs : (system keys connection config localId alpn backends usage).Reachable s)
    (hexhausted : s.locator.streamExhausted = true) : s.engine.ended = true := by
  by_contra hopen
  -- a stream that goes on is a possible one for an engine that has not ended
  have hloop := Locator.loopInv_of_reachable (reachable_locator hs
    (Seq.cons (.error (connection "")) Seq.nil) fun hended => (hopen hended).elim)
  exact Seq.cons_ne_nil (hloop.exhausted hexhausted)

end Simulation

/-- A node that a backend finds for a service, as the engine presents it. -/
def Offered (backends : List (Discovery PublicKey Error)) (alpn : List UInt8)
    (peer : Peer PublicKey) : Prop :=
  ∃ backend ∈ backends, ∃ spec ∈ backend.feeds alpn, scopeMatches spec.scope alpn = true ∧
    ∃ discovered, .ok discovered ∈ spec.stream ∧ peer = Peer.new discovered spec.name spec.trust

/-- The feeds that apply to a service have all ended, with these items. -/
def FeedsEnd (backends : List (Discovery PublicKey Error)) (alpn : List UInt8)
    (lists : List (List (Except Error (Peer PublicKey)))) : Prop :=
  List.Forall₂ (fun spec l => spec.tagged.items = Seq.ofList l)
    (applicableFeeds alpn (buildFeeds backends alpn)) lists

/-- What a search guarantees. -/
structure Finds (localId : PublicKey) (alpn : List UInt8)
    (backends : List (Discovery PublicKey Error)) (connection : String → Error)
    (config : LocatorConfig) (s : Search PublicKey Error Channel) : Prop where
  bound : s.locator.inflight.length ≤ config.maxInflight
  /-- The nodes that are taken up are remote nodes that a backend has found. -/
  offered : ∀ peer, .ok peer ∈ s.locator.taken → peer.id ≠ localId ∧ Offered backends alpn peer
  /-- No node is taken up twice. -/
  distinct : (s.locator.taken.filterMap peerId?).Nodup
  /-- The attempts, those that run and those with a result, are made to these nodes. -/
  attempted : ∀ peer ∈ s.locator.sent.filterMap Locator.Outcome.peer? ++ s.locator.inflight,
    .ok peer ∈ s.locator.taken
  /-- No node is tried twice. -/
  once : ((s.locator.sent.filterMap Locator.Outcome.peer? ++ s.locator.inflight).map
    Peer.id).Nodup
  /-- What {lit}`first` returns is a channel to one of these nodes. -/
  success : ∀ channel, s.locator.consumer = .returned (.ok channel) →
    ∃ peer, .ok peer ∈ s.locator.taken ∧ .attempt peer (.ok channel) ∈ s.locator.sent
  /-- Without an overall timeout the search ends with its feeds only, one result for each
  remote node in them and one for each of their errors. -/
  complete : 1 ≤ config.maxInflight → config.timeout = none → s.locator.receiverKept = true →
    ∀ ending, s.locator.pc = .ended ending → ∃ lists, FeedsEnd backends alpn lists ∧
      ((s.locator.sent.filterMap Locator.Outcome.peer?).map Peer.id).Nodup ∧
      (∀ id, id ∈ (s.locator.sent.filterMap Locator.Outcome.peer?).map Peer.id ↔
        id ≠ localId ∧ id ∈ lists.flatten.filterMap peerId?) ∧
      (s.locator.sent.filterMap Locator.Outcome.discovery?).Perm
        (lists.flatten.filterMap error?)
  /-- Then {lit}`first` fails only if the attempts to all these nodes have failed, and without
  any of them and without errors it says so. -/
  failure : ∀ err, s.locator.consumer = .returned (.error err) → 1 ≤ config.maxInflight →
    config.timeout = none → ∃ lists, FeedsEnd backends alpn lists ∧
      (∀ id ∈ lists.flatten.filterMap peerId?, id ≠ localId →
        ∃ peer reason, peer.id = id ∧ .attempt peer (.error reason) ∈ s.locator.sent) ∧
      ((∀ id ∈ lists.flatten.filterMap peerId?, id = localId) →
        lists.flatten.filterMap error? = [] → err = connection "no peers reachable")

section Guarantees

/-- The nodes among the items of a stream are those of its peers. -/
theorem filterMap_peerId? (items : List (Except Error (Peer PublicKey))) :
    items.filterMap peerId? = (items.filterMap Locator.peer?).map Peer.id := by
  rw [List.map_filterMap]
  refine List.filterMap_congr fun item _ => ?_
  cases item <;> rfl

variable [DecidableEq PublicKey] {keys : Keys SecretKey PublicKey Signature}
  {connection : String → Error} {config : LocatorConfig} {localId : PublicKey}
  {alpn : List UInt8} {backends : List (Discovery PublicKey Error)} {usage : Locator.Usage}
  {s : Search PublicKey Error Channel}

/-- What an engine yields has been offered by a backend. -/
theorem offered_of_yielded {engine : SwarmEngine.Session PublicKey Error}
    (hs : (SwarmEngine.system keys localId alpn (buildFeeds backends alpn)).Reachable engine)
    {peer : Peer PublicKey} (hpeer : .ok peer ∈ engine.yielded) :
    peer.id ≠ localId ∧ Offered backends alpn peer := by
  have hinv := SwarmEngine.inv_of_reachable hs
  rw [hinv.yielded_eq] at hpeer
  rcases mem_firstArrivals.mp hpeer with ⟨before, i, after, harrived, hremote, -⟩
  have hmem : (i, .ok peer) ∈ engine.arrived := by simp [harrived]
  rcases hinv.account.mem_source hmem with ⟨source, hget, hitem⟩
  simp only [SwarmEngine.new, List.getElem?_map, Option.map_eq_some_iff] at hget
  rcases hget with ⟨spec, hspec, rfl⟩
  rcases mem_applicableFeeds.mp (List.mem_of_getElem? hspec) with ⟨hfeed, hscope⟩
  rcases List.mem_flatMap.mp hfeed with ⟨backend, hbackend, hfeed⟩
  rcases Seq.exists_of_mem_map hitem with ⟨item, hitem, htag⟩
  cases item with
  | error err => contradiction
  | ok discovered =>
      exact ⟨hremote, backend, hbackend, spec, hfeed, hscope, discovered, hitem,
        (Except.ok.inj htag).symm⟩

/-- What an engine that has ended has yielded. -/
theorem yielded_of_feedsEnd {engine : SwarmEngine.Session PublicKey Error}
    (hs : (SwarmEngine.system keys localId alpn (buildFeeds backends alpn)).Reachable engine)
    (hended : engine.ended = true) :
    ∃ lists, FeedsEnd backends alpn lists ∧
      (∀ id, id ∈ engine.yielded.filterMap peerId? ↔
        id ≠ localId ∧ id ∈ lists.flatten.filterMap peerId?) ∧
      (engine.yielded.filterMap error?).Perm (lists.flatten.filterMap error?) := by
  have hinv := SwarmEngine.inv_of_reachable hs
  rcases hinv.account.perm_of_exhausted (hinv.exhausted_of_ended hended) with ⟨lists, hlists, hperm⟩
  refine ⟨lists, List.forall₂_map_left_iff.mp hlists, ?_, ?_⟩
  · intro id
    rw [hinv.yielded_eq]
    refine mem_ids_firstArrivals.trans (and_congr_right fun _ => ?_)
    rw [← (hperm.filterMap peerId?).mem_iff, List.filterMap_map]
    rfl
  · rw [hinv.yielded_eq, filterMap_error_firstArrivals]
    have herrors := hperm.filterMap error?
    rw [List.filterMap_map] at herrors
    exact herrors

/-- Without an overall timeout a loop that has ended, with its reader there, has accounted for
all that the engine has yielded, and the engine has ended. -/
theorem accounted_of_ended
    (hs : (system keys connection config localId alpn backends usage).Reachable s)
    (hmax : 1 ≤ config.maxInflight) (htimeout : config.timeout = none)
    (hkept : s.locator.receiverKept = true) {ending : Locator.Ending}
    (hpc : s.locator.pc = .ended ending) :
    s.engine.ended = true ∧ Locator.Accounted s.engine.yielded s.locator.sent [] := by
  have hloop := Locator.loopInv_of_reachable (reachable_locator hs Seq.nil fun _ => rfl)
  obtain rfl : ending = .finished := by
    have hgone := hloop.kept hkept
    cases ending with
    | finished => rfl
    | receiverGone => exact absurd hpc hgone.1
    | timedOut => simpa [htimeout] using hloop.timedOut hpc
    | aborted => exact absurd hpc hgone.2
  rcases hloop.finished hpc with ⟨hinflight, hexhausted | hzero⟩
  · have haccount := hloop.accounted hkept (by simp [hpc])
    have hinflight : s.locator.inflight = [] := hinflight
    simp only [hpc, Locator.Pc.pending, List.append_nil, taken_eq_yielded hs] at haccount
    rw [hinflight] at haccount
    exact ⟨ended_of_streamExhausted hs hexhausted, haccount⟩
  · omega

end Guarantees

end Search

open Search

/-- However the backends, the attempts and the reader interleave, and whatever comes of the
attempts: a search tries the remote nodes that its backends find for the service, none of them
twice and no more at a time than it may, and ends with its feeds. -/
theorem search_tries_every_node_once [DecidableEq PublicKey]
    (keys : Keys SecretKey PublicKey Signature) (connection : String → Error)
    (config : LocatorConfig) (localId : PublicKey) (alpn : List UInt8)
    (backends : List (Discovery PublicKey Error)) (usage : Locator.Usage)
    {s : Search PublicKey Error Channel}
    (hs : (system keys connection config localId alpn backends usage).Reachable s) :
    Finds localId alpn backends connection config s := by
  have hengine := reachable_engine hs
  have hlocator := reachable_locator hs Seq.nil fun _ => rfl
  have htaken := taken_eq_yielded hs
  have hchannel := Locator.channelInv_of_reachable hlocator
  have hattempted := attempted_of_reachable hlocator
  have hcomplete : 1 ≤ config.maxInflight → config.timeout = none →
      s.locator.receiverKept = true → ∀ ending, s.locator.pc = .ended ending →
      ∃ lists, FeedsEnd backends alpn lists ∧
        ((s.locator.sent.filterMap Locator.Outcome.peer?).map Peer.id).Nodup ∧
        (∀ id, id ∈ (s.locator.sent.filterMap Locator.Outcome.peer?).map Peer.id ↔
          id ≠ localId ∧ id ∈ lists.flatten.filterMap peerId?) ∧
        (s.locator.sent.filterMap Locator.Outcome.discovery?).Perm
          (lists.flatten.filterMap error?) := by
    intro hmax htimeout hkept ending hpc
    rcases accounted_of_ended hs hmax htimeout hkept hpc with ⟨hended, haccount⟩
    rcases yielded_of_feedsEnd hengine hended with ⟨lists, hlists, hnodes, herrors⟩
    have hpeers := haccount.peers
    rw [List.append_nil] at hpeers
    have hids := hpeers.map Peer.id
    rw [← filterMap_peerId?] at hids
    refine ⟨lists, hlists, ?_, fun id => ?_, haccount.errors ▸ herrors⟩
    · rw [← hids.nodup_iff, (SwarmEngine.inv_of_reachable hengine).yielded_eq]
      exact nodup_ids_firstArrivals _
    · rw [← hids.mem_iff]
      exact hnodes id
  have hmade : (s.locator.sent.filterMap Locator.Outcome.peer? ++ s.locator.inflight).Subperm
      (s.locator.taken.filterMap Locator.peer?) := hattempted.sent
  have hdistinct : (s.locator.taken.filterMap peerId?).Nodup := by
    rw [htaken, (SwarmEngine.inv_of_reachable hengine).yielded_eq]
    exact nodup_ids_firstArrivals _
  have htried : ∀ peer ∈ s.locator.sent.filterMap Locator.Outcome.peer? ++ s.locator.inflight,
      .ok peer ∈ s.locator.taken := by
    intro peer hpeer
    rcases List.mem_filterMap.mp (hmade.subset hpeer) with ⟨item, hitem, hsome⟩
    cases item with
    | ok found => exact Option.some.inj hsome ▸ hitem
    | error err => contradiction
  constructor
  case bound => exact (Locator.loopInv_of_reachable hlocator).bound
  case offered =>
    intro peer hpeer
    exact offered_of_yielded hengine (htaken ▸ hpeer)
  case distinct => exact hdistinct
  case attempted => exact htried
  case once =>
    rcases hmade with ⟨l, hperm, hsub⟩
    rw [filterMap_peerId?] at hdistinct
    exact (hperm.map Peer.id).nodup_iff.mp ((hsub.map Peer.id).nodup hdistinct)
  case success =>
    intro channel hreturned
    rcases (hchannel.success channel hreturned).2 with ⟨before, hreceived, -⟩
    have hmem : .ok channel ∈ s.locator.sent.map Locator.Outcome.result := by
      have horder : s.locator.received ++ s.locator.queue = _ := hchannel.order
      rw [← horder]
      exact List.mem_append_left _ (by
        have hreceived : s.locator.received = _ := hreceived
        simp [hreceived])
    rcases List.mem_map.mp hmem with ⟨outcome, houtcome, hresult⟩
    cases outcome with
    | attempt peer result =>
        obtain rfl : result = .ok channel := hresult
        have hpeer : peer ∈ s.locator.sent.filterMap Locator.Outcome.peer? :=
          List.mem_filterMap.mpr ⟨_, houtcome, rfl⟩
        exact ⟨peer, htried peer (List.mem_append_left _ hpeer), houtcome⟩
    | discovery err => contradiction
  case complete => exact hcomplete
  case failure =>
    intro err hreturned hmax htimeout
    rcases hchannel.failure err hreturned with ⟨hfailed, herr, hqueue, hkept, ending, hpc⟩
    rcases hcomplete hmax htimeout hkept ending hpc with ⟨lists, hlists, -, hnodes, herrors⟩
    have hreceived : s.locator.received = s.locator.sent.map Locator.Outcome.result := by
      have horder : s.locator.received ++ s.locator.queue = _ := hchannel.order
      have hqueue : s.locator.queue = [] := hqueue
      rwa [hqueue, List.append_nil] at horder
    refine ⟨lists, hlists, ?_, ?_⟩
    · intro id hid hremote
      rcases List.mem_map.mp ((hnodes id).mpr ⟨hremote, hid⟩) with ⟨peer, hpeer, rfl⟩
      rcases List.mem_filterMap.mp hpeer with ⟨outcome, houtcome, hsome⟩
      cases outcome with
      | attempt peer' result =>
          obtain rfl := Option.some.inj hsome
          have hresult : result.isOk = false :=
            hfailed result (hreceived ▸ List.mem_map.mpr ⟨_, houtcome, rfl⟩)
          cases result with
          | error reason => exact ⟨peer', reason, rfl, houtcome⟩
          | ok channel => contradiction
      | discovery reason => contradiction
    · intro hlocal hnone
      have hsent : s.locator.sent = [] := by
        have hpeers : s.locator.sent.filterMap Locator.Outcome.peer? = [] := by
          refine List.eq_nil_iff_forall_not_mem.mpr fun peer hpeer => ?_
          rcases (hnodes peer.id).mp (List.mem_map_of_mem hpeer) with ⟨hremote, hid⟩
          exact hremote (hlocal _ hid)
        rw [hnone] at herrors
        have hlength := Locator.length_outcomes s.locator.sent
        rw [hpeers, herrors.eq_nil] at hlength
        exact List.length_eq_zero_iff.mp hlength
      rw [herr]
      show Locator.unreachable connection s.locator.received = _
      rw [hreceived, hsent]
      rfl

/-- A backend with two static feeds. -/
def staticBackends : List (Discovery NodeId String) :=
  [((StaticBackend.new.addPeers .any 10 100 [repeatedId 1, repeatedId 2]).addPeers .any 20 100
    [repeatedId 2]).discovery]

/-- The one remote node in them refuses, and the search ends. -/
def refusedSearch : List (SearchAction String Nat) :=
  [.locator .enter, .poll (.deliver 0), .poll (.deliver 0), .locator .enter, .poll (.deliver 1),
    .locator (.completed 0 (.error "refused")), .locator .send, .locator .recv, .locator .enter,
    .poll .finish, .locator .enter, .locator .closed]

theorem search_tries_every_node_once_refused :
    ∃ s : Search NodeId String Nat,
      (system Keys.plain id ⟨8, none, 4⟩ (repeatedId 1) [] staticBackends .first).Reachable s ∧
      s.engine.ended = true ∧
      (s.locator.sent.filterMap Locator.Outcome.peer?).map Peer.id = [repeatedId 2] ∧
      Finds (repeatedId 1) [] staticBackends id ⟨8, none, 4⟩ s := by
  obtain ⟨s, hs, hend⟩ := System.exists_of_runWhen_any
    (S := (system Keys.plain id ⟨8, none, 4⟩ (repeatedId 1) [] staticBackends .first :
      System (Search NodeId String Nat) (SearchAction String Nat)))
    (C := fun _ _ => True) (l := refusedSearch)
    (P := fun s => s.engine.ended &&
      decide ((s.locator.sent.filterMap Locator.Outcome.peer?).map Peer.id = [repeatedId 2]))
    (by decide +kernel)
  rw [Bool.and_eq_true, decide_eq_true_eq] at hend
  exact ⟨s, hs, hend.1, hend.2, search_tries_every_node_once Keys.plain _ _ _ _ _ _ hs⟩

end IrohTransport.Swarm
