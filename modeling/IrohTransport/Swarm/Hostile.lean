import IrohTransport.Lib.Runs
import IrohTransport.Swarm.Discovery

/-!
# Hostile buckets

The key of a bucket is known to everybody, so anybody may write anything into it.  Here
the whole DHT is hostile: a reader may be given any items that were ever sent to the
address it asks, in any number and order.  Nodes that run the publisher sign their own
advertisements and hand on those they have read.  The attacker writes whatever it
likes, but it does not forge: a signature that an honest identity would answer for it
only writes for what it has seen this identity sign.

Main results:

- Theorem {lit}`Genuine.step`: no step makes a signature of an honest key appear on an
  advertisement that its node has not published.
- Theorem {lit}`discovered_peers_have_published`: a feed yields an honest node only if
  the node has itself published the service, with the required tags, in the last two
  minutes.
-/

namespace IrohTransport.Swarm

variable {SecretKey PublicKey Signature Digest : Type}

/-! ## The network -/

/-- What was sent to the DHT, each item with its address, and the calls that were made by
nodes that run the publisher. -/
structure Network (SecretKey Digest : Type) where
  sent : List ((Digest × Digest) × MutableItem)
  published : List (Publication SecretKey)

/-- What can happen on the network. -/
inductive NetworkAction (SecretKey Digest : Type) where
  /-- An attempt of a publisher that is given these items to read.  Its put may or may
  not be taken, but the item has been sent. -/
  | attempt (p : Publication SecretKey) (items : List MutableItem)
  /-- The attacker sends an item. -/
  | inject (key : Digest × Digest) (item : MutableItem)

/-- The attacker holds no key of the identity. -/
def Honest (keys : Keys SecretKey PublicKey Signature) (corrupt : SecretKey → Prop)
    (p : PublicKey) : Prop :=
  ∀ secretKey, keys.publicKey secretKey = p → ¬corrupt secretKey

namespace Network

/-- A reader of an address may be given these items. -/
def Serves (net : Network SecretKey Digest) (key : Digest × Digest) (items : List MutableItem) :
    Prop :=
  ∀ item ∈ items, (key, item) ∈ net.sent

/-- The item, if it holds a bucket, has an advertisement with the signature. -/
def Carries (keys : Keys SecretKey PublicKey Signature) (item : MutableItem)
    (signature : Signature) : Prop :=
  ∃ bucket, (ServiceBucket.codec keys).fromBytes item.value = some bucket ∧
    ∃ ad ∈ bucket.ads, ad.signature = signature

variable (keys : Keys SecretKey PublicKey Signature) (corrupt : SecretKey → Prop)
  (sha256 : List UInt8 → Digest)

/-- The signatures an attacker can put into a bucket.  It does not forge: where a signature is
good for an honest identity, the attacker has seen a signature of this identity for the same
message, or the message is not that of an advertisement. -/
def Obtainable (net : Network SecretKey Digest) (signature : Signature) : Prop :=
  ∀ p message, Honest keys corrupt p → keys.verify p message signature = true →
    (∃ key item seen, (key, item) ∈ net.sent ∧ Carries keys item seen ∧
      keys.verify p message seen = true) ∨
    ∀ alpn minute shard ad, message ≠ signingMessage alpn minute shard ad

/-- Publishers read what was sent to their bucket, and the attacker writes with what it
can obtain. -/
def Admits (net : Network SecretKey Digest) : NetworkAction SecretKey Digest → Prop
  | .attempt p items => net.Serves (address sha256 p.alpn p.call.minute p.shard) items
  | .inject _ item => ∀ signature, Carries keys item signature →
      Obtainable keys corrupt net signature

/-- One step. -/
def step (net : Network SecretKey Digest) :
    NetworkAction SecretKey Digest → Option (Network SecretKey Digest)
  | .attempt p items =>
      match p.call.attempt keys p.alpn p.shard items with
      | .error _ => some { net with published := net.published ++ [p] }
      | .ok item => some
          { sent := net.sent ++ [(address sha256 p.alpn p.call.minute p.shard, item)]
            published := net.published ++ [p] }
  | .inject key item => some { net with sent := net.sent ++ [(key, item)] }

/-- A network on which nothing was sent yet. -/
def system : System (Network SecretKey Digest) (NetworkAction SecretKey Digest) where
  init := { sent := [], published := [] }
  step := step keys sha256

end Network

open Network

/-! ## Readers -/

section Readers

variable (keys : Keys SecretKey PublicKey Signature) (sha256 : List UInt8 → Digest)

/-- Query a shard bucket, given the items that the DHT returns. -/
def queryReplicas (alpn : List UInt8) (minute : UInt64) (shard : UInt8) (now : UnixTime)
    (result : List MutableItem) : List (SignedServiceAd Signature) :=
  let buckets := result.filterMap fun item => (ServiceBucket.codec keys).fromBytes item.value
  ServiceBucket.mergeValid keys alpn minute shard now.secs buckets

/-- The peer that an advertisement yields, if it has the required tags and its identity
decodes. -/
def wanted (required : List String) (trust : UInt8) (ad : SignedServiceAd Signature) :
    Option (DiscoveredPeer PublicKey) :=
  if !required.isEmpty && !ad.hasTags required then none
  else (ad.endpointId keys).map fun id => { id := id, trust := trust }

/-- Query all shards of a minute, given what the DHT returns for each. -/
def lookupReplicas (replies : UInt8 → List MutableItem) (alpn : List UInt8)
    (required : List String) (trust : UInt8) (minute : UInt64) (now : UnixTime) :
    List (DiscoveredPeer PublicKey) :=
  (List.range dhtShardCount.toNat).flatMap fun shard =>
    (queryReplicas keys alpn minute (UInt8.ofNat shard) now
      (replies (UInt8.ofNat shard))).filterMap (wanted keys required trust)

/-- A DHT that returns the one item it stores is a special case. -/
theorem lookup_eq_lookupReplicas (store : Store Digest) (alpn : List UInt8)
    (required : List String) (trust : UInt8) (minute : UInt64) (now : UnixTime) :
    lookup keys sha256 store alpn required trust minute now
      = lookupReplicas keys (fun shard => (store (address sha256 alpn minute shard)).toList) alpn
          required trust minute now := rfl

end Readers

/-! ## Genuine advertisements -/

section Genuine

variable {keys : Keys SecretKey PublicKey Signature} {corrupt : SecretKey → Prop}
  {sha256 : List UInt8 → Digest} {net net' : Network SecretKey Digest}

/-- A node of the identity has published the advertisement into the bucket. -/
def PublishedBy (keys : Keys SecretKey PublicKey Signature)
    (published : List (Publication SecretKey)) (p : PublicKey) (alpn : List UInt8)
    (minute : UInt64) (shard : UInt8) (ad : ServiceAd) : Prop :=
  ∃ publication ∈ published, keys.publicKey publication.call.secretKey = p ∧
    publication.alpn = alpn ∧ publication.call.minute = minute ∧ publication.shard = shard ∧
    (publication.localAd keys).ad = ad

theorem PublishedBy.mono {published more : List (Publication SecretKey)} {p : PublicKey}
    {alpn : List UInt8} {minute : UInt64} {shard : UInt8} {ad : ServiceAd}
    (h : PublishedBy keys published p alpn minute shard ad) :
    PublishedBy keys (published ++ more) p alpn minute shard ad := by
  rcases h with ⟨publication, hmem, hrest⟩
  exact ⟨publication, List.mem_append_left _ hmem, hrest⟩

/-- A signature is good for an honest identity only on what its node has published. -/
def GoodFor (keys : Keys SecretKey PublicKey Signature) (corrupt : SecretKey → Prop)
    (published : List (Publication SecretKey)) (signature : Signature) : Prop :=
  ∀ p alpn minute shard ad, Honest keys corrupt p →
    keys.verify p (signingMessage alpn minute shard ad) signature = true →
    PublishedBy keys published p alpn minute shard ad

theorem GoodFor.mono {published more : List (Publication SecretKey)} {signature : Signature}
    (h : GoodFor keys corrupt published signature) :
    GoodFor keys corrupt (published ++ more) signature :=
  fun p alpn minute shard ad hp hverify => (h p alpn minute shard ad hp hverify).mono

/-- No signature on the network is good for anything else. -/
def Genuine (keys : Keys SecretKey PublicKey Signature) (corrupt : SecretKey → Prop)
    (net : Network SecretKey Digest) : Prop :=
  ∀ key item signature, (key, item) ∈ net.sent → Carries keys item signature →
    GoodFor keys corrupt net.published signature

/-- What an attacker can obtain is good for no honest identity but on what its node has
published. -/
theorem Network.Obtainable.goodFor (hgenuine : Genuine keys corrupt net) {signature : Signature}
    (h : Obtainable keys corrupt net signature) :
    GoodFor keys corrupt net.published signature := by
  intro p alpn minute shard ad hp hverify
  rcases h p _ hp hverify with ⟨key, item, seen, hsent, hcarries, hseen⟩ | hother
  · exact hgenuine key item seen hsent hcarries p alpn minute shard ad hp hseen
  · exact absurd rfl (hother alpn minute shard ad)

/-- An attacker can hand on what it has seen. -/
theorem Network.obtainable_of_carries {key : Digest × Digest} {item : MutableItem}
    {signature : Signature} (hsent : (key, item) ∈ net.sent)
    (hcarries : Carries keys item signature) : Obtainable keys corrupt net signature :=
  fun _ _ _ hverify => .inl ⟨key, item, signature, hsent, hcarries, hverify⟩

/-- The signature of a local advertisement is good for that advertisement alone. -/
theorem goodFor_localAd (hideal : keys.Ideal) {published : List (Publication SecretKey)}
    {publication : Publication SecretKey} (hmem : publication ∈ published) :
    GoodFor keys corrupt published (publication.localAd keys).signature := by
  intro p alpn minute shard ad _ hverify
  rcases (hideal _ _ _ _).mp hverify with ⟨hp, hmessage⟩
  rcases signingMessage_injective hmessage with ⟨rfl, rfl, rfl, rfl⟩
  exact ⟨publication, hmem, hp.symm, rfl, rfl, rfl, rfl⟩

/-- What is read from replicas is carried by one of them, and verifies. -/
theorem carries_of_mem_queryReplicas {alpn : List UInt8} {minute : UInt64} {shard : UInt8}
    {now : UnixTime} {items : List MutableItem} {ad : SignedServiceAd Signature}
    (h : ad ∈ queryReplicas keys alpn minute shard now items) :
    (∃ item ∈ items, Carries keys item ad.signature) ∧
      ad.verify keys alpn minute shard now.secs = true := by
  obtain ⟨bucket, hbucket, -, had, hverify⟩ :=
    ServiceBucket.mem_validAds.mp (ServiceBucket.mem_validAds_of_mem_mergeValid h)
  rcases List.mem_filterMap.mp hbucket with ⟨item, hitem, hdecode⟩
  exact ⟨⟨item, hitem, bucket, hdecode, ad, had, rfl⟩, hverify⟩

/-- The item of an attempt carries the signature of the local advertisement and
signatures that were read. -/
theorem carries_of_attempt {p : Publication SecretKey} {items : List MutableItem}
    {item : MutableItem} (hattempt : p.call.attempt keys p.alpn p.shard items = .ok item)
    {signature : Signature} (hcarries : Carries keys item signature) :
    signature = (p.localAd keys).signature ∨ ∃ read ∈ items, Carries keys read signature := by
  rcases hcarries with ⟨bucket, hdecode, ad, had, rfl⟩
  rw [PublishCall.value_of_nextItem_ok hattempt, Codec.fromBytes_encode,
    Option.some.injEq] at hdecode
  subst hdecode
  rcases PublishCall.mem_of_mem_trimmed had with rfl | hread
  · exact .inl rfl
  · have hqueried : ad ∈ queryReplicas keys p.alpn p.call.minute p.shard p.call.publishedAt items :=
      hread
    exact .inr (carries_of_mem_queryReplicas hqueried).1

/-- An attempt publishes its call, and nothing else is published. -/
theorem Network.published_of_step {action : NetworkAction SecretKey Digest}
    (h : net.step keys sha256 action = some net') {p : Publication SecretKey}
    (hp : p ∈ net'.published) : p ∈ net.published ∨ ∃ items, action = .attempt p items := by
  cases action with
  | attempt q items =>
      have hpublished : net'.published = net.published ++ [q] := by
        simp only [Network.step] at h
        split at h <;> exact Option.some.inj h ▸ rfl
      rw [hpublished] at hp
      rcases List.mem_append.mp hp with hp | hp
      · exact .inl hp
      · obtain rfl := List.mem_singleton.mp hp
        exact .inr ⟨items, rfl⟩
  | inject key item =>
      obtain rfl := Option.some.inj h
      exact .inl hp

/-- A live local advertisement is less than two minutes old, and not far ahead. -/
theorem time_of_live_localAd {p : Publication SecretKey} {now : UnixTime}
    (h : (p.localAd keys).Live now.secs) :
    now.secs.toNat < p.time + 120 ∧ p.time ≤ now.secs.toNat + 300 := by
  have hpub := p.call.publishedAt.bound
  have hnow := now.bound
  rcases h with ⟨-, hexpires, hskew⟩
  simp only [Publication.localAd, PublishCall.localAd, SignedServiceAd.publishedAt_sign,
    SignedServiceAd.expiresAt_sign, UInt64.lt_iff_toNat_lt, UInt64.le_iff_toNat_le,
    toNat_saturatingAdd, dhtAdTtlSecs, maxFutureSkewSecs, UInt64.reduceToNat]
    at hexpires hskew
  rw [Publication.time]
  omega

/-- No step makes a signature good for more than what was published. -/
theorem Genuine.step (hideal : keys.Ideal) (hgenuine : Genuine keys corrupt net)
    {action : NetworkAction SecretKey Digest} (hadmits : net.Admits keys corrupt sha256 action)
    (hstep : net.step keys sha256 action = some net') : Genuine keys corrupt net' := by
  cases action with
  | attempt p items =>
      simp only [Network.step] at hstep
      cases hattempt : p.call.attempt keys p.alpn p.shard items with
      | error err =>
          rw [hattempt] at hstep
          obtain rfl := Option.some.inj hstep
          exact fun key item signature hsent hcarries =>
            (hgenuine key item signature hsent hcarries).mono
      | ok sent =>
          rw [hattempt] at hstep
          obtain rfl := Option.some.inj hstep
          intro key item signature hsent hcarries
          rcases List.mem_append.mp hsent with hsent | hsent
          · exact (hgenuine key item signature hsent hcarries).mono
          · obtain ⟨rfl, rfl⟩ := Prod.mk.inj (List.mem_singleton.mp hsent)
            rcases carries_of_attempt hattempt hcarries with rfl | ⟨read, hread, hcarried⟩
            · exact goodFor_localAd hideal (by simp)
            · exact (hgenuine _ _ _ (hadmits read hread) hcarried).mono
  | inject key item =>
      obtain rfl := Option.some.inj hstep
      intro key' item' signature hsent hcarries
      rcases List.mem_append.mp hsent with hsent | hsent
      · exact hgenuine key' item' signature hsent hcarries
      · obtain ⟨rfl, rfl⟩ := Prod.mk.inj (List.mem_singleton.mp hsent)
        exact (hadmits signature hcarries).goodFor hgenuine

/-- No run makes a signature good for more than what was published. -/
theorem genuine_of_reachable (hideal : keys.Ideal)
    (hnet : (Network.system keys sha256).ReachableWhen (Admits keys corrupt sha256) net) :
    Genuine keys corrupt net := by
  apply hnet.invariant
  · intro key item signature hsent
    cases hsent
  · intro net net' action _ hgenuine hadmits hstep
    exact hgenuine.step hideal hadmits hstep

/-- An advertisement that a reader of hostile replicas accepts for an honest identity is
one that its node has published into the bucket, and it is live. -/
theorem published_of_mem_queryReplicas (hideal : keys.Ideal)
    (hnet : (Network.system keys sha256).ReachableWhen (Admits keys corrupt sha256) net)
    {alpn : List UInt8} {minute : UInt64} {shard : UInt8} {now : UnixTime}
    {items : List MutableItem} (hserves : net.Serves (address sha256 alpn minute shard) items)
    {ad : SignedServiceAd Signature} (had : ad ∈ queryReplicas keys alpn minute shard now items)
    {p : PublicKey} (hid : ad.endpointId keys = some p) (hp : Honest keys corrupt p) :
    PublishedBy keys net.published p alpn minute shard ad.ad ∧ ad.Live now.secs := by
  rcases carries_of_mem_queryReplicas had with ⟨⟨item, hitem, hcarries⟩, hverify⟩
  rcases SignedServiceAd.verify_eq_true_iff.mp hverify with ⟨hlive, q, hq, hsigned⟩
  obtain rfl : p = q := Option.some.inj (hid.symm.trans hq)
  exact ⟨genuine_of_reachable hideal hnet _ _ _ (hserves item hitem) hcarries p alpn minute shard
    ad.ad hp hsigned, hlive⟩

/-- A peer of an honest identity that a round yields has published an advertisement that has
the tags and is live. -/
theorem published_of_mem_lookupReplicas (hideal : keys.Ideal)
    (hnet : (Network.system keys sha256).ReachableWhen (Admits keys corrupt sha256) net)
    {alpn : List UInt8} {minute : UInt64} {required : List String} {trust : UInt8}
    {now : UnixTime} {replies : UInt8 → List MutableItem}
    (hserves : ∀ shard, net.Serves (address sha256 alpn minute shard) (replies shard))
    {peer : DiscoveredPeer PublicKey}
    (hpeer : peer ∈ lookupReplicas keys replies alpn required trust minute now)
    (hhonest : Honest keys corrupt peer.id) :
    ∃ p ∈ net.published, keys.publicKey p.call.secretKey = peer.id ∧ p.alpn = alpn ∧
      p.call.minute = minute ∧ required ⊆ p.call.tags ∧ (p.localAd keys).Live now.secs := by
  rcases List.mem_flatMap.mp hpeer with ⟨shard, -, hyield⟩
  rcases List.mem_filterMap.mp hyield with ⟨ad, had, hyield⟩
  unfold wanted at hyield
  split at hyield
  · contradiction
  rename_i htags
  rcases Option.map_eq_some_iff.mp hyield with ⟨id, hid, rfl⟩
  obtain ⟨⟨p, hp, hkey, halpn, hminute, -, hpad⟩, hlive⟩ :=
    published_of_mem_queryReplicas hideal hnet (hserves _) had hid hhonest
  have hlive' : (p.localAd keys).Live now.secs := by
    rw [SignedServiceAd.Live, SignedServiceAd.publishedAt, SignedServiceAd.expiresAt, hpad]
    exact hlive
  refine ⟨p, hp, hkey, halpn, hminute, ?_, hlive'⟩
  have htagsOf : p.call.tags = ad.ad.tags := congrArg ServiceAd.tags hpad
  rw [htagsOf]
  intro tag htag
  have hne : required.isEmpty = false := by
    cases required with
    | nil => cases htag
    | cons => rfl
  simp only [hne, Bool.not_false, Bool.true_and, Bool.not_eq_true', Bool.not_eq_false,
    SignedServiceAd.hasTags, List.all_eq_true] at htags
  exact List.contains_iff_mem.mp (htags tag htag)

end Genuine

/-- Whatever is written into the buckets: a peer of an honest identity that a round of a
feed yields has itself published the service in the minute asked for, with the required
tags, less than two minutes ago and not far ahead of the reader's clock. -/
theorem discovered_peers_have_published (keys : Keys SecretKey PublicKey Signature)
    (hideal : keys.Ideal) (corrupt : SecretKey → Prop) (sha256 : List UInt8 → Digest)
    {net : Network SecretKey Digest}
    (hnet : (Network.system keys sha256).ReachableWhen (Admits keys corrupt sha256) net)
    (alpn : List UInt8) (minute : UInt64) (required : List String) (trust : UInt8)
    (now : UnixTime) (replies : UInt8 → List MutableItem)
    (hserves : ∀ shard, net.Serves (address sha256 alpn minute shard) (replies shard)) :
    ∀ peer ∈ lookupReplicas keys replies alpn required trust minute now,
      Honest keys corrupt peer.id →
      ∃ p ∈ net.published, keys.publicKey p.call.secretKey = peer.id ∧ p.alpn = alpn ∧
        p.call.minute = minute ∧ required ⊆ p.call.tags ∧
        now.secs.toNat < p.time + 120 ∧ p.time ≤ now.secs.toNat + 300 := by
  intro peer hpeer hhonest
  rcases published_of_mem_lookupReplicas hideal hnet hserves hpeer hhonest with
    ⟨p, hp, hkey, halpn, hminute, htags, hlive⟩
  exact ⟨p, hp, hkey, halpn, hminute, htags, time_of_live_localAd hlive⟩

/-! ## A forged bucket -/

/-- A node publishes in the last second of a minute. -/
def latePublication : Publication NodeId := ⟨lateCall, [], 0⟩

/-- A bucket with its advertisement. -/
def lateItem : MutableItem where
  seq := 1
  value := (ServiceBucket.codec Keys.plain).encode
    (ServiceBucket.new [latePublication.localAd Keys.plain])

/-- The same signature under another tag. -/
def forgedItem : MutableItem where
  seq := 2
  value := (ServiceBucket.codec Keys.plain).encode (ServiceBucket.new
    [{ ad := { (latePublication.localAd Keys.plain).ad with tags := ["gpu"] }
       signature := (latePublication.localAd Keys.plain).signature }])

/-- The attacker has no key of the node and writes the forged bucket after it. -/
theorem reachable_forged :
    (Network.system Keys.plain plainHash).ReachableWhen
      (Admits Keys.plain (fun secretKey => secretKey ≠ repeatedId 7) plainHash)
      { sent := [(address plainHash [] 0 0, lateItem), (address plainHash [] 0 0, forgedItem)]
        published := [latePublication] } := by
  have hattempt : latePublication.call.attempt Keys.plain latePublication.alpn
      latePublication.shard [] = .ok lateItem := by
    decide +kernel
  refine .step (a := .inject (address plainHash [] 0 0) forgedItem)
    (.step (a := .attempt latePublication []) .init (fun item hitem => nomatch hitem)
      (by simp only [Network.system, Network.step, hattempt]; rfl)) ?_ rfl
  rintro signature ⟨bucket, hdecode, ad, had, rfl⟩
  rw [forgedItem, Codec.fromBytes_encode, Option.some.injEq] at hdecode
  subst hdecode
  obtain rfl := List.mem_singleton.mp had
  exact obtainable_of_carries List.mem_cons_self
    ⟨_, Codec.fromBytes_encode _ _, _, List.mem_cons_self, rfl⟩

/-- A reader that is given both buckets yields the node, which has published. -/
theorem discovered_peers_have_published_forged :
    ∃ peer ∈ lookupReplicas Keys.plain (fun shard => if shard = 0 then [forgedItem, lateItem] else [])
        [] [] 50 0 ⟨60, by decide⟩,
      ∃ p ∈ [latePublication], Keys.plain.publicKey p.call.secretKey = peer.id ∧ p.alpn = [] ∧
        p.call.minute = 0 ∧ [] ⊆ p.call.tags ∧ 60 < p.time + 120 ∧ p.time ≤ 60 + 300 := by
  have hids : (lookupReplicas Keys.plain
      (fun shard => if shard = 0 then [forgedItem, lateItem] else []) [] [] 50 0
      ⟨60, by decide⟩).map DiscoveredPeer.id = [repeatedId 7] := by
    decide +kernel
  obtain ⟨peer, hpeer, hid⟩ := List.mem_map.mp (hids ▸ List.mem_singleton_self (repeatedId 7))
  refine ⟨peer, hpeer, discovered_peers_have_published Keys.plain Keys.plain_ideal _ plainHash
    reachable_forged [] 0 [] 50 ⟨60, by decide⟩ _ ?_ _ hpeer ?_⟩
  · intro shard item hitem
    by_cases hshard : shard = 0
    · subst hshard
      simp only [if_true, List.mem_cons, List.not_mem_nil, or_false] at hitem
      rcases hitem with rfl | rfl <;> simp
    · simp [hshard] at hitem
  · intro secretKey hkey hcorrupt
    exact hcorrupt (hkey.trans hid)

end IrohTransport.Swarm
