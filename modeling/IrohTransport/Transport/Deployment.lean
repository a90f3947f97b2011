import IrohTransport.Swarm.Hostile
import IrohTransport.Transport.Shutdown

/-!
# Deployments

Nodes run transports next to each other, and their publishers write into the buckets of one
DHT, into which an attacker writes as well.  A client looks a service up there and connects to
the nodes that it finds.  What it finds was put there by the publishers of the nodes, these
publish what their transports were built with, and this is what their routers accept.

Main results:

- Theorem {lit}`Deployment.attributed_of_reachable`: every call on the network was made by the
  publisher of a node.
- Theorem {lit}`discovered_nodes_serve`: an honest node that a look-up yields for a service runs
  a transport that accepts connections for it.
-/

namespace IrohTransport.Transport

open Swarm (Clock DhtPublisher Honest Keys MutableItem Network NetworkAction Publication
  PublisherTask UnixTime address lookupReplicas)

variable {SecretKey PublicKey Signature Digest Id : Type} {maxLength : Nat}

/-! ## Nodes -/

namespace Running

variable [LinearOrder Digest] {keys : Keys SecretKey PublicKey Signature}
  {sha256 : List UInt8 → Digest} {t : Spawned SecretKey maxLength} {now : Clock}
  {s s' : Running SecretKey Id}

/-- What has been published stays so. -/
theorem published_subset {action : RunningAction Id} (h : s.step keys sha256 t action = some s') :
    s.published ⊆ s'.published := by
  have hsignal : s.published ⊆ s.signal.published := by
    cases hpublisher : s.publisher <;> simp [published, signal, hpublisher]
  cases step_sound h with
  | publisher action publisher task task' hpublisher htask hsound hsame hmove =>
      simp only [published, htask, Option.elim_some]
      cases hsound with
      | publish alpn shard rest hpc => exact List.subset_append_left _ _
      | _ => exact List.Subset.refl _
  | shutdown | drop => exact hsignal
  | _ => exact List.Subset.refl _

/-- The publisher of a transport publishes its services, with its key and its tags. -/
theorem service_of_published (hs : (system keys sha256 t now).Reachable s)
    {p : Publication SecretKey} (hp : p ∈ s.published) :
    ∃ publisher, t.publisher = some publisher ∧ p.alpn ∈ publisher.services ∧
      p.call.secretKey = publisher.secretKey ∧ p.call.tags = publisher.tags := by
  cases htask : s.publisher with
  | none => simp [published, htask] at hp
  | some task =>
      rw [published, htask, Option.elim_some] at hp
      rcases reachable_publisher hs htask with ⟨publisher, hpublisher, hreach⟩
      have hinv := PublisherTask.runInv_of_reachable hreach
      rcases hinv.own p hp with ⟨hkey, htags, -⟩
      refine ⟨publisher, hpublisher, ?_, hkey, htags⟩
      have hround : (p.alpn, p.shard) ∈
          (List.replicate task.rounds.length (publisher.shards keys sha256)).flatten := by
        rw [← hinv.covered]
        exact List.mem_append_left _ (List.mem_map.mpr ⟨p, hp, rfl⟩)
      rcases List.mem_flatten.mp hround with ⟨round, hround, hshard⟩
      rw [List.eq_of_mem_replicate hround] at hshard
      rcases List.mem_flatMap.mp hshard with ⟨alpn, halpn, hpair⟩
      rcases List.mem_map.mp hpair with ⟨shard, -, heq⟩
      rw [← (Prod.mk.inj heq).1]
      exact halpn

/-- A router that has not been taken down accepts connections for its services. -/
theorem isSome_connect (hs : (system keys sha256 t now).Reachable s)
    (hup : s.guard ≠ .returned ∧ s.guard ≠ .dropped) {alpn : List UInt8}
    (haccepts : t.accepts alpn = true) (remoteNodeId : Id) :
    (s.step keys sha256 t (.incoming (.connect remoteNodeId alpn))).isSome = true := by
  have hrouter : s.routerDown = false := by
    rw [Bool.eq_false_iff]
    intro hdown
    rcases (inv_of_reachable hs).router hdown with hguard | hguard
    · exact hup.1 hguard
    · exact hup.2 hguard
  simp [step, permits, hrouter, haccepts, Incoming.step]

end Running

/-- A transport that was spawned by a chain of calls of the builder, and when. -/
structure Deployed (SecretKey : Type) (maxLength : Nat) where
  calls : List (BuilderCall SecretKey)
  before : Option (UserData maxLength)
  spawned : Spawned SecretKey maxLength
  spawn_eq : (Builder.configure calls).spawn before = some (.ok spawned)
  now : Clock

/-- Spawn the transport of some calls. -/
def Deployed.ofCalls (calls : List (BuilderCall SecretKey)) (before : Option (UserData maxLength))
    (now : Clock)
    (h : (((Builder.configure calls).spawn before).bind Except.toOption).isSome = true) :
    Deployed SecretKey maxLength where
  calls := calls
  before := before
  spawned := (((Builder.configure calls).spawn before).bind Except.toOption).get h
  spawn_eq := eq_some_ok (Option.some_get h).symm
  now := now

/-! ## The network between them -/

/-- The nodes with their transports, and the DHT. -/
structure Deployment (SecretKey Digest Id : Type) where
  nodes : List (Running SecretKey Id)
  net : Network SecretKey Digest

inductive DeploymentAction (Digest Id : Type) where
  | node (i : Nat) (action : RunningAction Id)
  /-- An attempt of a call that the publisher of a node has begun, given these items. -/
  | attempt (i k : Nat) (items : List MutableItem)
  /-- The attacker sends an item. -/
  | inject (key : Digest × Digest) (item : MutableItem)

namespace Deployment

variable [LinearOrder Digest] (keys : Keys SecretKey PublicKey Signature)
  (corrupt : SecretKey → Prop) (sha256 : List UInt8 → Digest)
  (deployed : List (Deployed SecretKey maxLength))

/-- A step of the network. -/
def netStep (s : Deployment SecretKey Digest Id) (action : NetworkAction SecretKey Digest) :
    Option (Deployment SecretKey Digest Id) :=
  (s.net.step keys sha256 action).map fun net => { s with net := net }

/-- One step. -/
def step (s : Deployment SecretKey Digest Id) :
    DeploymentAction Digest Id → Option (Deployment SecretKey Digest Id)
  | .node i action =>
      deployed[i]?.bind fun d =>
        s.nodes[i]?.bind fun node =>
          (node.step keys sha256 d.spawned action).map fun node =>
            { s with nodes := s.nodes.set i node }
  | .attempt i k items =>
      s.nodes[i]?.bind fun node =>
        node.published[k]?.bind fun p => s.netStep keys sha256 (.attempt p items)
  | .inject key item => s.netStep keys sha256 (.inject key item)

/-- Publishers read what was sent to their bucket, and the attacker writes with what it can
obtain. -/
def Admits (s : Deployment SecretKey Digest Id) : DeploymentAction Digest Id → Prop
  | .node _ _ => True
  | .attempt i k items => ∀ node ∈ s.nodes[i]?, ∀ p ∈ node.published[k]?,
      s.net.Admits keys corrupt sha256 (.attempt p items)
  | .inject key item => s.net.Admits keys corrupt sha256 (.inject key item)

/-- Transports that have just been spawned. -/
def system : System (Deployment SecretKey Digest Id) (DeploymentAction Digest Id) where
  init :=
    { nodes := deployed.map fun d => (Running.system keys sha256 d.spawned d.now).init
      net := (Network.system keys sha256).init }
  step := step keys sha256 deployed

variable {keys corrupt sha256 deployed} {s s' : Deployment SecretKey Digest Id}

/-- What a step can do. -/
inductive Step (keys : Keys SecretKey PublicKey Signature) (sha256 : List UInt8 → Digest)
    (deployed : List (Deployed SecretKey maxLength)) (s : Deployment SecretKey Digest Id) :
    DeploymentAction Digest Id → Deployment SecretKey Digest Id → Prop
  | node (i : Nat) (action : RunningAction Id) (d : Deployed SecretKey maxLength)
      (node node' : Running SecretKey Id) : deployed[i]? = some d → s.nodes[i]? = some node →
      node.step keys sha256 d.spawned action = some node' →
      Step keys sha256 deployed s (.node i action) { s with nodes := s.nodes.set i node' }
  | attempt (i k : Nat) (items : List MutableItem) (node : Running SecretKey Id)
      (p : Publication SecretKey) (net : Network SecretKey Digest) : s.nodes[i]? = some node →
      node.published[k]? = some p → s.net.step keys sha256 (.attempt p items) = some net →
      Step keys sha256 deployed s (.attempt i k items) { s with net := net }
  | inject (key : Digest × Digest) (item : MutableItem) (net : Network SecretKey Digest) :
      s.net.step keys sha256 (.inject key item) = some net →
      Step keys sha256 deployed s (.inject key item) { s with net := net }

theorem step_sound {action : DeploymentAction Digest Id}
    (h : s.step keys sha256 deployed action = some s') : Step keys sha256 deployed s action s' := by
  cases action with
  | node i action =>
      rcases Option.bind_eq_some_iff.mp h with ⟨d, hd, h⟩
      rcases Option.bind_eq_some_iff.mp h with ⟨node, hnode, h⟩
      rcases Option.map_eq_some_iff.mp h with ⟨node', hstep, rfl⟩
      exact .node i action d node node' hd hnode hstep
  | attempt i k items =>
      rcases Option.bind_eq_some_iff.mp h with ⟨node, hnode, h⟩
      rcases Option.bind_eq_some_iff.mp h with ⟨p, hp, h⟩
      rcases Option.map_eq_some_iff.mp h with ⟨net, hnet, rfl⟩
      exact .attempt i k items node p net hnode hp hnet
  | inject key item =>
      simp only [step, netStep] at h
      rcases Option.map_eq_some_iff.mp h with ⟨net, hnet, rfl⟩
      exact .inject key item net hnet

/-! ## Where the advertisements come from -/

/-- Every node goes through a run of its own. -/
theorem reachable_node (hs : (system keys sha256 deployed).Reachable s) {i : Nat}
    {node : Running SecretKey Id} (hnode : s.nodes[i]? = some node) :
    ∃ d, deployed[i]? = some d ∧ (Running.system keys sha256 d.spawned d.now).Reachable node := by
  refine hs.invariant (I := fun s : Deployment SecretKey Digest Id => ∀ i node,
    s.nodes[i]? = some node → ∃ d, deployed[i]? = some d ∧
      (Running.system keys sha256 d.spawned d.now).Reachable node) ?_ ?_ i node hnode
  · intro i node hnode
    rw [system, List.getElem?_map] at hnode
    rcases Option.map_eq_some_iff.mp hnode with ⟨d, hd, rfl⟩
    exact ⟨d, hd, .init⟩
  · intro s s' action _ ih _ hstep
    cases step_sound hstep with
    | node i action d was now hd hwas hmove =>
        intro j node hnode
        by_cases hj : i = j
        · subst hj
          rw [List.getElem?_set_self (List.getElem?_eq_some_iff.mp hwas).1] at hnode
          obtain rfl := Option.some.inj hnode
          rcases ih i was hwas with ⟨d', hd', hreach⟩
          obtain rfl := Option.some.inj (hd.symm.trans hd')
          exact ⟨d, hd, .step hreach trivial hmove⟩
        · rw [List.getElem?_set_ne hj] at hnode
          exact ih j node hnode
    | attempt | inject => exact ih

/-- The network goes through a run of its own. -/
theorem reachable_net
    (hs : (system keys sha256 deployed).ReachableWhen (Admits keys corrupt sha256) s) :
    (Network.system keys sha256).ReachableWhen (Network.Admits keys corrupt sha256) s.net := by
  refine hs.invariant (I := fun s : Deployment SecretKey Digest Id =>
    (Network.system keys sha256).ReachableWhen (Network.Admits keys corrupt sha256) s.net)
    .init ?_
  intro s s' action _ ih hadmits hstep
  cases step_sound hstep with
  | node => exact ih
  | attempt i k items node p net hnode hp hnet => exact .step ih (hadmits node hnode p hp) hnet
  | inject key item net hnet => exact .step (a := .inject key item) ih hadmits hnet

/-- Every call on the network was made by the publisher of a node. -/
def Attributed (s : Deployment SecretKey Digest Id) : Prop :=
  ∀ p ∈ s.net.published, ∃ (i : Nat) (node : Running SecretKey Id),
    s.nodes[i]? = some node ∧ p ∈ node.published

theorem Attributed.step (h : s.Attributed) {action : DeploymentAction Digest Id}
    (hstep : Step keys sha256 deployed s action s') : s'.Attributed := by
  cases hstep with
  | node i action d node node' hd hnode hmove =>
      intro p hp
      rcases h p hp with ⟨j, was, hwas, hmem⟩
      by_cases hj : i = j
      · subst hj
        obtain rfl := Option.some.inj (hnode.symm.trans hwas)
        exact ⟨i, node', List.getElem?_set_self (List.getElem?_eq_some_iff.mp hwas).1,
          Running.published_subset hmove hmem⟩
      · exact ⟨j, was, (List.getElem?_set_ne hj).trans hwas, hmem⟩
  | attempt i k items node q net hnode hq hnet =>
      intro p hp
      rcases Network.published_of_step hnet hp with hp | ⟨items', heq⟩
      · exact h p hp
      · obtain ⟨rfl, -⟩ := NetworkAction.attempt.inj heq
        exact ⟨i, node, hnode, List.mem_of_getElem? hq⟩
  | inject key item net hnet =>
      intro p hp
      rcases Network.published_of_step hnet hp with hp | ⟨items', heq⟩
      · exact h p hp
      · contradiction

theorem attributed_of_reachable (hs : (system keys sha256 deployed).Reachable s) : s.Attributed :=
  hs.invariant (fun _ hp => (List.not_mem_nil hp).elim)
    fun _ _ _ _ hinv _ hstep => hinv.step (step_sound hstep)

end Deployment

open Deployment

/-- Whatever the nodes do and whatever an attacker writes into the DHT: if a look-up for a
service yields an honest node, then one of the transports has a publisher with the key of this
node and the required tags, which has published the service in the last two minutes.  The
service was added to this transport, and until the transport is shut down or dropped its router
accepts connections for it, unless the publisher had been told to publish it before it was
given to the transport. -/
theorem discovered_nodes_serve [LinearOrder Digest] (keys : Keys SecretKey PublicKey Signature)
    (hideal : keys.Ideal) (corrupt : SecretKey → Prop) (sha256 : List UInt8 → Digest)
    (deployed : List (Deployed SecretKey maxLength)) {s : Deployment SecretKey Digest Id}
    (hs : (system keys sha256 deployed).ReachableWhen (Admits keys corrupt sha256) s)
    (alpn : List UInt8) (minute : UInt64) (required : List String) (trust : UInt8)
    (now : UnixTime) (replies : UInt8 → List MutableItem)
    (hserves : ∀ shard, s.net.Serves (address sha256 alpn minute shard) (replies shard)) :
    ∀ peer ∈ lookupReplicas keys replies alpn required trust minute now,
      Honest keys corrupt peer.id →
      ∃ (i : Nat) (d : Deployed SecretKey maxLength) (node : Running SecretKey Id)
        (given : DhtPublisher SecretKey), deployed[i]? = some d ∧ s.nodes[i]? = some node ∧
        .withPublisher given ∈ d.calls ∧ keys.publicKey given.secretKey = peer.id ∧
        required ⊆ given.tags ∧
        (∃ p ∈ node.published, p.alpn = alpn ∧ p.call.minute = minute ∧
          now.secs.toNat < p.time + 120 ∧ p.time ≤ now.secs.toNat + 300) ∧
        (alpn ∈ given.services ∨
          (∃ service, .addRpc service ∈ d.calls ∧ serviceToAlpn service = alpn) ∧
          (node.guard ≠ .returned ∧ node.guard ≠ .dropped → ∀ remoteNodeId,
            (node.step keys sha256 d.spawned
              (.incoming (.connect remoteNodeId alpn))).isSome = true)) := by
  intro peer hpeer hhonest
  rcases Swarm.published_of_mem_lookupReplicas hideal (reachable_net hs) hserves hpeer hhonest with
    ⟨p, hp, hkey, rfl, rfl, htags, hlive⟩
  rcases attributed_of_reachable hs.reachable p hp with ⟨i, node, hnode, hmade⟩
  rcases reachable_node hs.reachable hnode with ⟨d, hd, hrunning⟩
  rcases Running.service_of_published hrunning hmade with
    ⟨publisher, hpublisher, hservice, hsecret, hown⟩
  rcases publisher_of_spawn d.spawn_eq hpublisher with ⟨given, hgiven, rfl⟩
  refine ⟨i, d, node, given, hd, hnode, hgiven, ?_, ?_, ?_, ?_⟩
  · rw [← hkey, hsecret]
  · rw [← hown]
    exact htags
  · exact ⟨p, hmade, rfl, rfl, Swarm.time_of_live_localAd hlive⟩
  · rcases List.mem_append.mp hservice with hservice | hservice
    · exact .inl hservice
    · right
      rcases List.mem_map.mp hservice with ⟨service, hadded, hsame⟩
      have haccepts : d.spawned.accepts p.alpn = true := by
        rw [← hsame]
        exact (accepts_of_spawn d.spawn_eq service).mpr ⟨service, hadded, rfl⟩
      refine ⟨?_, fun hup => Running.isSome_connect hrunning hup haccepts⟩
      rcases List.mem_filterMap.mp hadded with ⟨call, hcall, hset⟩
      cases call with
      | addRpc other =>
          obtain rfl := Option.some.inj hset
          exact ⟨other, hcall, hsame⟩
      | withPublisher publisher | incomingBufferCapacity capacity => contradiction

/-! ## A node among junk -/

/-- A node with one service that is published. -/
def echoCalls : List (BuilderCall Swarm.NodeId) :=
  [.withPublisher (.new (Swarm.repeatedId 7) default), .addRpc ⟨"echo.Echo"⟩]

def echoNode : Deployed Swarm.NodeId 245 :=
  .ofCalls echoCalls none Swarm.lateClock (by decide +kernel)

/-- What was sent to the shards of a service in the first minute. -/
def sentTo (net : Network Swarm.NodeId Swarm.PlainDigest) (alpn : List UInt8) (shard : UInt8) :
    List MutableItem :=
  (net.sent.filter fun entry => entry.1 = address Swarm.plainHash alpn 0 shard).map Prod.snd

theorem serves_sentTo (net : Network Swarm.NodeId Swarm.PlainDigest) (alpn : List UInt8)
    (shard : UInt8) : net.Serves (address Swarm.plainHash alpn 0 shard) (sentTo net alpn shard) := by
  intro item hitem
  rcases List.mem_map.mp hitem with ⟨⟨key, sent⟩, hentry, rfl⟩
  rcases List.mem_filter.mp hentry with ⟨hmem, hkey⟩
  obtain rfl := of_decide_eq_true hkey
  exact hmem

/-- An action that needs nothing of the network: an attempt that reads nothing, or an item that
is no bucket. -/
def quiet : DeploymentAction Swarm.PlainDigest Nat → Bool
  | .node _ _ => true
  | .attempt _ _ items => items.isEmpty
  | .inject _ item => ((Swarm.ServiceBucket.codec Keys.plain).fromBytes item.value).isNone

/-- Junk is sent to the first shard before the node publishes into it. -/
def junkFirst : List (DeploymentAction Swarm.PlainDigest Nat) :=
  [.inject (address Swarm.plainHash (serviceToAlpn ⟨"echo.Echo"⟩) 0 0) ⟨1, []⟩,
    .node 0 (.publisher .turn), .attempt 0 0 []]

theorem admits_of_quiet {corrupt : Swarm.NodeId → Prop}
    {s : Deployment Swarm.NodeId Swarm.PlainDigest Nat}
    {action : DeploymentAction Swarm.PlainDigest Nat} (h : quiet action = true) :
    Admits Keys.plain corrupt Swarm.plainHash s action := by
  cases action with
  | node i action => trivial
  | attempt i k items =>
      obtain rfl := List.isEmpty_iff.mp h
      intro node _ p _ item hitem
      exact absurd hitem List.not_mem_nil
  | inject key item =>
      rintro signature ⟨bucket, hdecode, -⟩
      have hnone : (Swarm.ServiceBucket.codec Keys.plain).fromBytes item.value = none :=
        Option.isNone_iff_eq_none.mp h
      rw [hnone] at hdecode
      contradiction

/-- A client that is given all of it finds the node. -/
theorem discovered_nodes_serve_attacked :
    ∃ s : Deployment Swarm.NodeId Swarm.PlainDigest Nat, s.net.sent.length = 2 ∧
      ∃ (i : Nat) (d : Deployed Swarm.NodeId 245) (node : Running Swarm.NodeId Nat),
        [echoNode][i]? = some d ∧ s.nodes[i]? = some node ∧
          ∃ p ∈ node.published, p.alpn = serviceToAlpn ⟨"echo.Echo"⟩ ∧ p.call.minute = 0 ∧
            60 < p.time + 120 ∧ p.time ≤ 60 + 300 := by
  obtain ⟨s, hs, hfound⟩ := System.exists_of_runWhen_any
    (S := (system Keys.plain Swarm.plainHash [echoNode] :
      System (Deployment Swarm.NodeId Swarm.PlainDigest Nat) (DeploymentAction Swarm.PlainDigest Nat)))
    (C := fun _ action => quiet action = true) (l := junkFirst)
    (P := fun s => decide (s.net.sent.length = 2 ∧ (lookupReplicas Keys.plain
      (sentTo s.net (serviceToAlpn ⟨"echo.Echo"⟩)) (serviceToAlpn ⟨"echo.Echo"⟩) [] 50 0
      ⟨60, by decide⟩).map Swarm.DiscoveredPeer.id = [Swarm.repeatedId 7])) (by decide +kernel)
  rcases of_decide_eq_true hfound with ⟨hsent, hids⟩
  obtain ⟨peer, hpeer, hid⟩ :=
    List.mem_map.mp (hids ▸ List.mem_singleton_self (Swarm.repeatedId 7))
  have hadmitted : (system Keys.plain Swarm.plainHash [echoNode]).ReachableWhen
      (Admits Keys.plain (fun secretKey => secretKey ≠ Swarm.repeatedId 7) Swarm.plainHash) s :=
    hs.mono fun _ _ => admits_of_quiet
  obtain ⟨i, d, node, given, hd, hnode, -, -, -, hpublished, -⟩ :=
    discovered_nodes_serve Keys.plain Keys.plain_ideal _ Swarm.plainHash [echoNode] hadmitted
      (serviceToAlpn ⟨"echo.Echo"⟩) 0 [] 50 ⟨60, by decide⟩ _ (serves_sentTo s.net _) peer hpeer
      fun secretKey hkey hcorrupt => hcorrupt (hkey.trans hid)
  exact ⟨s, hsent, i, d, node, hd, hnode, hpublished⟩

end IrohTransport.Transport
