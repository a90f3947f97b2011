import IrohTransport.Swarm.Publisher
import Mathlib.Data.List.TakeWhile
import Mathlib.Logic.Function.Basic

/-!
# The DHT and its feed

Publishing and looking up, one whole call at a time: the puts and the queries are
instantaneous, the clock is common, and the DHT returns what was stored last under an
address.  A history lists the publications in the order of their times.  The feed looks
a service up in all shards of a minute, twice in its initial burst and once in every
round of its poll loop.

Main results:

- Theorem {lit}`sourced_storeAfter`: every advertisement in the DHT comes from a
  publication into its own bucket.
- Theorem {lit}`contains_storeAfter`: an advertisement that is not trimmed stays, or a
  newer one of its node takes its place.
- Theorem {lit}`lookup_of_published`: a look-up in the minute of a live publication
  yields its node.
- Theorem {lit}`published_of_lookup`: a look-up yields only nodes that have published in
  the minute looked up.
-/

namespace IrohTransport.Swarm

variable {SecretKey PublicKey Signature Digest : Type}

/-! ## Publishing -/

/-- One call into one shard of a service. -/
structure Publication (SecretKey : Type) where
  call : PublishCall SecretKey
  alpn : List UInt8
  shard : UInt8

/-- When the call is made, in seconds. -/
def Publication.time (p : Publication SecretKey) : Nat := p.call.publishedAt.secs.toNat

/-- The advertisement of a publication. -/
def Publication.localAd (keys : Keys SecretKey PublicKey Signature)
    (p : Publication SecretKey) : SignedServiceAd Signature :=
  p.call.localAd keys p.alpn p.shard

/-- What the DHT stores under the signing key and the salt of a bucket. -/
abbrev Store (Digest : Type) := Digest × Digest → Option MutableItem

/-- Where the bucket of a service, a minute and a shard is stored. -/
def address (sha256 : List UInt8 → Digest) (alpn : List UInt8) (minute : UInt64)
    (shard : UInt8) : Digest × Digest :=
  (deriveSigningKey sha256 alpn minute shard, deriveSalt sha256 alpn minute shard)

/-- Under a collision-free hash every bucket has its own address. -/
theorem address_injective {sha256 : List UInt8 → Digest} (hsha : Function.Injective sha256)
    {alpn alpn' : List UInt8} {minute minute' : UInt64} {shard shard' : UInt8}
    (h : address sha256 alpn minute shard = address sha256 alpn' minute' shard') :
    alpn = alpn' ∧ minute = minute' ∧ shard = shard' :=
  deriveSalt_injective sha256 hsha (Prod.mk.inj h).2

section Publish

variable [DecidableEq Digest] (keys : Keys SecretKey PublicKey Signature)
  (sha256 : List UInt8 → Digest)

/-- What a publication reads in its own bucket. -/
def Publication.readAds (store : Store Digest) (p : Publication SecretKey) :
    List (SignedServiceAd Signature) × Option Int64 :=
  readShardState keys p.alpn p.call.minute p.shard p.call.publishedAt.secs
    (store (address sha256 p.alpn p.call.minute p.shard)).toList

/-- The attempts of a call that nobody interferes with. -/
def publishAttempts (store : Store Digest) (p : Publication SecretKey) :
    Nat → Store Digest × Except String Unit
  | 0 => (store, .error "DHT shard remained contended after retries")
  | attempts + 1 =>
      let key := address sha256 p.alpn p.call.minute p.shard
      let (ads, latestSeq) := p.readAds keys sha256 store
      match p.call.nextItem keys p.alpn p.shard ads latestSeq with
      | .error err => (store, .error err)
      | .ok item =>
          if accepts (store key) item latestSeq then
            (Function.update store key (some item), .ok ())
          else publishAttempts store p attempts

/-- A whole call: sign the local advertisement and try to put it. -/
def publishShard (store : Store Digest) (p : Publication SecretKey) :
    Store Digest × Except String Unit :=
  publishAttempts keys sha256 store p dhtPublishRetries

/-- The DHT after some publications. -/
def storeAfter (publications : List (Publication SecretKey)) : Store Digest :=
  publications.foldl (fun store p => (publishShard keys sha256 store p).1) fun _ => none

theorem storeAfter_concat (before : List (Publication SecretKey)) (p : Publication SecretKey) :
    storeAfter keys sha256 (before ++ [p])
      = (publishShard keys sha256 (storeAfter keys sha256 before) p).1 := by
  simp [storeAfter]

/-- A call leaves the DHT alone or stores the item of its attempt, and it succeeds
exactly when it stores it. -/
theorem publishShard_cases (store : Store Digest) (p : Publication SecretKey) :
    ((publishShard keys sha256 store p).1 = store ∧
      (publishShard keys sha256 store p).2 ≠ .ok ()) ∨
    ∃ item,
      p.call.nextItem keys p.alpn p.shard (p.readAds keys sha256 store).1
        (p.readAds keys sha256 store).2 = .ok item ∧
      publishShard keys sha256 store p
        = (Function.update store (address sha256 p.alpn p.call.minute p.shard) (some item),
            .ok ()) := by
  unfold publishShard
  generalize dhtPublishRetries = attempts
  induction attempts with
  | zero => exact Or.inl ⟨rfl, by simp [publishAttempts]⟩
  | succ attempts ih =>
      cases hnext : p.call.nextItem keys p.alpn p.shard (p.readAds keys sha256 store).1
          (p.readAds keys sha256 store).2 with
      | error err => exact Or.inl (by simp [publishAttempts, hnext])
      | ok item =>
          by_cases haccept : accepts (store (address sha256 p.alpn p.call.minute p.shard)) item
              (p.readAds keys sha256 store).2
          · exact Or.inr ⟨item, rfl, by simp [publishAttempts, hnext, haccept]⟩
          · rw [hnext] at ih
            simpa [publishAttempts, hnext, haccept] using ih

end Publish

/-! ## The feed -/

/-- A peer that a feed yields. -/
structure DiscoveredPeer (PublicKey : Type) where
  id : PublicKey
  trust : UInt8

section Feed

variable (keys : Keys SecretKey PublicKey Signature) (sha256 : List UInt8 → Digest)

/-- Query a specific shard bucket for a service ALPN and minute. -/
def queryShard (store : Store Digest) (alpn : List UInt8) (minute : UInt64) (shard : UInt8)
    (now : UnixTime) : List (SignedServiceAd Signature) :=
  let result := (store (address sha256 alpn minute shard)).toList
  let buckets := result.filterMap fun item => (ServiceBucket.codec keys).fromBytes item.value
  ServiceBucket.mergeValid keys alpn minute shard now.secs buckets

/-- Query all shards of a minute and yield the peers with the required tags.  The queries
complete in any order; the list has the shards in theirs. -/
def lookup (store : Store Digest) (alpn : List UInt8) (required : List String) (trust : UInt8)
    (minute : UInt64) (now : UnixTime) : List (DiscoveredPeer PublicKey) :=
  (List.range dhtShardCount.toNat).flatMap fun shard =>
    (queryShard keys sha256 store alpn minute (UInt8.ofNat shard) now).filterMap fun ad =>
      if !required.isEmpty && !ad.hasTags required then none
      else (ad.endpointId keys).map fun id => { id := id, trust := trust }

/-- Publications in the order of their times. -/
structure History (SecretKey : Type) where
  events : List (Publication SecretKey)
  chronological : events.Pairwise fun p q => p.time ≤ q.time

/-- The publications up to a time. -/
def History.until (history : History SecretKey) (now : UnixTime) : List (Publication SecretKey) :=
  history.events.takeWhile fun p => p.time ≤ now.secs.toNat

variable [DecidableEq Digest]

/-- The DHT at a time. -/
def storeAt (history : History SecretKey) (now : UnixTime) : Store Digest :=
  storeAfter keys sha256 (history.until now)

/-- The initial burst: the current minute, and afterwards the one before the minute it
has become. -/
def burst (history : History SecretKey) (alpn : List UInt8) (required : List String)
    (trust : UInt8) (first second : UnixTime) : List (DiscoveredPeer PublicKey) :=
  [((0 : Int64), first), (-1, second)].flatMap fun round =>
    lookup keys sha256 (storeAt keys sha256 history round.2) alpn required trust
      (unixMinute round.2 round.1) round.2

/-- One round of the poll loop: the current minute. -/
def pollRound (history : History SecretKey) (alpn : List UInt8) (required : List String)
    (trust : UInt8) (now : UnixTime) : List (DiscoveredPeer PublicKey) :=
  lookup keys sha256 (storeAt keys sha256 history now) alpn required trust (unixMinute now 0) now

end Feed

/-! ## Where advertisements come from -/

section Source

variable {keys : Keys SecretKey PublicKey Signature} {sha256 : List UInt8 → Digest}

/-- Every bucket holds advertisements of publications into it, and nothing else. -/
def Sourced (keys : Keys SecretKey PublicKey Signature) (sha256 : List UInt8 → Digest)
    (publications : List (Publication SecretKey)) (store : Store Digest) : Prop :=
  ∀ alpn minute shard item, store (address sha256 alpn minute shard) = some item →
    ∃ bucket, item.value = (ServiceBucket.codec keys).encode bucket ∧
      bucket.version = dhtBucketVersion ∧ ∀ ad ∈ bucket.ads, ∃ p ∈ publications,
        p.alpn = alpn ∧ p.call.minute = minute ∧ p.shard = shard ∧ ad = p.localAd keys

/-- What is read from a bucket comes from publications into it. -/
theorem Sourced.read {publications : List (Publication SecretKey)} {store : Store Digest}
    (hsourced : Sourced keys sha256 publications store) {alpn : List UInt8} {minute : UInt64}
    {shard : UInt8} {now : UInt64} {ad : SignedServiceAd Signature}
    (had : ad ∈ (readShardState keys alpn minute shard now
      (store (address sha256 alpn minute shard)).toList).1) :
    ∃ p ∈ publications, p.alpn = alpn ∧ p.call.minute = minute ∧ p.shard = shard ∧
      ad = p.localAd keys := by
  cases hstored : store (address sha256 alpn minute shard) with
  | none =>
      rw [hstored] at had
      exact absurd had List.not_mem_nil
  | some item =>
      rcases hsourced alpn minute shard item hstored with ⟨bucket, hvalue, -, hads⟩
      rw [hstored, Option.toList_some, readShardState_encode hvalue] at had
      obtain ⟨_, hb, -, hmem, -⟩ :=
        ServiceBucket.mem_validAds.mp (ServiceBucket.mem_validAds_of_mem_mergeValid had)
      rcases List.mem_singleton.mp hb with rfl
      exact hads ad hmem

variable [DecidableEq Digest]

/-- Every advertisement in the DHT comes from a publication into its own bucket. -/
theorem sourced_storeAfter (hsha : Function.Injective sha256)
    (publications : List (Publication SecretKey)) :
    Sourced keys sha256 publications (storeAfter keys sha256 publications) := by
  induction publications using List.reverseRecOn with
  | nil =>
      intro alpn minute shard item h
      contradiction
  | append_singleton before p ih =>
      rw [storeAfter_concat]
      have hlater : ∀ {alpn minute shard} {ad : SignedServiceAd Signature},
          (∃ q ∈ before, q.alpn = alpn ∧ q.call.minute = minute ∧ q.shard = shard ∧
            ad = q.localAd keys) →
          ∃ q ∈ before ++ [p], q.alpn = alpn ∧ q.call.minute = minute ∧ q.shard = shard ∧
            ad = q.localAd keys :=
        fun ⟨q, hq, h⟩ => ⟨q, List.mem_append_left _ hq, h⟩
      intro alpn minute shard item hitem
      rcases publishShard_cases keys sha256 (storeAfter keys sha256 before) p with
        ⟨hsame, -⟩ | ⟨stored, hnext, hput⟩
      · rw [hsame] at hitem
        rcases ih alpn minute shard item hitem with ⟨bucket, hvalue, hversion, hads⟩
        exact ⟨bucket, hvalue, hversion, fun ad had => hlater (hads ad had)⟩
      · rw [hput] at hitem
        by_cases haddr : address sha256 alpn minute shard
            = address sha256 p.alpn p.call.minute p.shard
        · rcases address_injective hsha haddr with ⟨rfl, rfl, rfl⟩
          obtain rfl : stored = item := by simpa using hitem
          refine ⟨_, PublishCall.value_of_nextItem_ok hnext, PublishCall.version_trimmed _ _, ?_⟩
          intro ad had
          rcases PublishCall.mem_of_mem_trimmed had with rfl | had
          · exact ⟨p, by simp, rfl, rfl, rfl, rfl⟩
          · exact hlater (ih.read had)
        · have hsame : storeAfter keys sha256 before (address sha256 alpn minute shard)
              = some item := by
            simpa [Function.update_of_ne haddr] using hitem
          rcases ih alpn minute shard item hsame with ⟨bucket, hvalue, hversion, hads⟩
          exact ⟨bucket, hvalue, hversion, fun ad had => hlater (hads ad had)⟩

end Source

/-! ## What stays in the DHT -/

section Keep

variable [DecidableEq Digest] {keys : Keys SecretKey PublicKey Signature}
  {sha256 : List UInt8 → Digest} {nodeId : NodeId}

/-- A publication, if it succeeds, does not trim the advertisements of a node. -/
def Untrimmed (keys : Keys SecretKey PublicKey Signature) (sha256 : List UInt8 → Digest)
    (nodeId : NodeId) (store : Store Digest) (p : Publication SecretKey) : Prop :=
  (publishShard keys sha256 store p).2 = .ok () →
    ∀ ad ∈ ((ServiceBucket.new (p.readAds keys sha256 store).1).upsert (p.localAd keys)).ads,
      ad.nodeId = nodeId →
        ad ∈ (p.call.trimmed keys p.alpn p.shard (p.readAds keys sha256 store).1).ads

/-- An item that a publication stores holds the node's advertisements, read or local, at
least as new. -/
theorem contains_of_nextItem {store : Store Digest} {p : Publication SecretKey}
    {item : MutableItem} {latestSeq : Option Int64}
    (hnext : p.call.nextItem keys p.alpn p.shard (p.readAds keys sha256 store).1 latestSeq
      = .ok item)
    (hok : (publishShard keys sha256 store p).2 = .ok ())
    (huntrimmed : Untrimmed keys sha256 nodeId store p) {ad : SignedServiceAd Signature}
    (had : ad = p.localAd keys ∨ ad ∈ (p.readAds keys sha256 store).1)
    (hnode : ad.nodeId = nodeId) : item.contains keys ad := by
  obtain ⟨kept, hkept, hsame, hle⟩ :=
    Select.exists_mem_upsert SignedServiceAd.nodeId adSortKey had
  refine ⟨_, ?_, PublishCall.version_trimmed _ _, kept, huntrimmed hok kept hkept
    (hsame.trans hnode), hsame, (adSortKey_le_iff hsame).mp hle⟩
  rw [PublishCall.value_of_nextItem_ok hnext, Codec.fromBytes_encode]

/-- A bucket that contains a node's advertisement still does after any publication. -/
theorem contains_publishShard (hsha : Function.Injective sha256)
    {publications : List (Publication SecretKey)} {store : Store Digest}
    (hsourced : Sourced keys sha256 publications store) {p : Publication SecretKey}
    {alpn : List UInt8} {minute : UInt64} {shard : UInt8}
    (huntrimmed : p.alpn = alpn → Untrimmed keys sha256 nodeId store p)
    {ad : SignedServiceAd Signature} (hnode : ad.nodeId = nodeId) {item : MutableItem}
    (hitem : store (address sha256 alpn minute shard) = some item)
    (hcontains : item.contains keys ad) :
    ∃ item, (publishShard keys sha256 store p).1 (address sha256 alpn minute shard) = some item ∧
      item.contains keys ad := by
  rcases publishShard_cases keys sha256 store p with ⟨hsame, -⟩ | ⟨stored, hnext, hput⟩
  · refine ⟨item, ?_, hcontains⟩
    rw [hsame]
    exact hitem
  · rw [hput]
    by_cases haddr : address sha256 alpn minute shard
        = address sha256 p.alpn p.call.minute p.shard
    · rcases address_injective hsha haddr with ⟨rfl, rfl, rfl⟩
      -- the advertisement in the bucket is of the publisher's minute, so it reads it
      rcases hsourced _ _ _ item hitem with ⟨bucket, hvalue, hversion, hads⟩
      rcases hcontains with ⟨_, hdecode, -, ad', had', hnode', hnew'⟩
      rw [hvalue, Codec.fromBytes_encode, Option.some.injEq] at hdecode
      subst hdecode
      rcases hads ad' had' with ⟨q, -, halpn, hminute, hshard, rfl⟩
      have hvalid : q.localAd keys ∈ ServiceBucket.validAds keys p.alpn p.call.minute p.shard
          p.call.publishedAt.secs [bucket] := by
        refine ServiceBucket.mem_validAds.mpr
          ⟨bucket, List.mem_singleton_self _, hversion, had', ?_⟩
        rw [← halpn, ← hminute, ← hshard]
        exact PublishCall.verify_localAd hminute.symm
      rcases ServiceBucket.exists_mem_mergeValid hvalid with ⟨read, hread, hnode'', hnew''⟩
      have hmem : read ∈ (p.readAds keys sha256 store).1 := by
        rw [Publication.readAds, hitem, Option.toList_some, readShardState_encode hvalue]
        exact hread
      have hreadNode : read.nodeId = ad.nodeId := hnode''.trans hnode'
      obtain ⟨bucket', hdecode', hversion', kept, hkept, hkeptNode, hkeptNew⟩ :=
        contains_of_nextItem hnext (by rw [hput]) (huntrimmed rfl) (Or.inr hmem)
          (hreadNode.trans hnode)
      refine ⟨stored, by simp, bucket', hdecode', hversion', kept, hkept,
        hkeptNode.trans hreadNode, hkeptNew.trans (hnew''.trans hnew')⟩
    · refine ⟨item, ?_, hcontains⟩
      simpa [Function.update_of_ne haddr] using hitem

/-- A successful publication stays in the DHT, or a newer one of its node takes its
place, as long as the node is not trimmed. -/
theorem contains_storeAfter (hsha : Function.Injective sha256)
    {before later : List (Publication SecretKey)} {p : Publication SecretKey}
    (hok : (publishShard keys sha256 (storeAfter keys sha256 before) p).2 = .ok ())
    (huntrimmed : ∀ l q r, before ++ p :: later = l ++ q :: r → q.alpn = p.alpn →
      Untrimmed keys sha256 (p.localAd keys).nodeId (storeAfter keys sha256 l) q) :
    ∃ item, storeAfter keys sha256 (before ++ p :: later)
        (address sha256 p.alpn p.call.minute p.shard) = some item ∧
      item.contains keys (p.localAd keys) := by
  induction later using List.reverseRecOn with
  | nil =>
      rw [storeAfter_concat]
      rcases publishShard_cases keys sha256 (storeAfter keys sha256 before) p with
        ⟨-, herr⟩ | ⟨stored, hnext, hput⟩
      · exact absurd hok herr
      · rw [hput]
        exact ⟨stored, by simp,
          contains_of_nextItem hnext hok (huntrimmed before p [] rfl rfl) (Or.inl rfl) rfl⟩
  | append_singleton later q ih =>
      have hassoc : before ++ p :: (later ++ [q]) = before ++ p :: later ++ [q] := by simp
      obtain ⟨item, hitem, hcontains⟩ := ih fun l r t h hr =>
        huntrimmed l r (t ++ [q]) (by simp [hassoc, h]) hr
      rw [hassoc, storeAfter_concat]
      exact contains_publishShard hsha (sourced_storeAfter hsha _)
        (huntrimmed _ q [] hassoc) rfl hitem hcontains

end Keep

/-! ## What a look-up yields -/

section Lookup

variable [DecidableEq Digest] {keys : Keys SecretKey PublicKey Signature}
  {sha256 : List UInt8 → Digest} {history : History SecretKey} {alpn : List UInt8}
  {required : List String} {trust : UInt8}

/-- Everything up to a publication has been published when it has. -/
theorem History.until_eq {before after : List (Publication SecretKey)}
    {p : Publication SecretKey} (hsplit : history.events = before ++ p :: after) {now : UnixTime}
    (hp : p.time ≤ now.secs.toNat) :
    history.until now
      = before ++ p :: after.takeWhile fun q => q.time ≤ now.secs.toNat := by
  have hchron := history.chronological
  rw [hsplit, List.pairwise_append] at hchron
  have hbefore : ∀ q ∈ before, decide (q.time ≤ now.secs.toNat) = true := by
    intro q hq
    have := hchron.2.2 q hq p List.mem_cons_self
    exact decide_eq_true (by omega)
  rw [History.until, hsplit, List.takeWhile_append_of_pos hbefore,
    List.takeWhile_cons_of_pos (by simpa using hp)]

theorem History.time_le_of_mem_until {now : UnixTime} {p : Publication SecretKey}
    (h : p ∈ history.until now) : p.time ≤ now.secs.toNat := by
  simpa using List.mem_takeWhile_imp h

/-- A look-up yields only nodes that have published into the minute looked up. -/
theorem published_of_lookup (hsha : Function.Injective sha256) {minute : UInt64} {now : UnixTime}
    {peer : DiscoveredPeer PublicKey}
    (h : peer ∈ lookup keys sha256 (storeAt keys sha256 history now) alpn required trust minute
      now) :
    ∃ p ∈ history.until now, p.alpn = alpn ∧ p.call.minute = minute ∧
      keys.publicKey p.call.secretKey = peer.id := by
  rcases List.mem_flatMap.mp h with ⟨shard, -, hpeer⟩
  rcases List.mem_filterMap.mp hpeer with ⟨ad, had, hyield⟩
  rcases (sourced_storeAfter hsha (history.until now)).read had with ⟨p, hp, halpn, hminute, -, rfl⟩
  refine ⟨p, hp, halpn, hminute, ?_⟩
  split at hyield
  · contradiction
  · have hid : (p.localAd keys).endpointId keys = some (keys.publicKey p.call.secretKey) :=
      keys.fromBytes_asBytes _
    rw [hid, Option.map_some, Option.some.injEq] at hyield
    rw [← hyield]

/-- A look-up in the minute of a successful publication yields its node as long as the
publication lives, if the node's tags are constant and it is not trimmed. -/
theorem lookup_of_published (hsha : Function.Injective sha256)
    {before after : List (Publication SecretKey)} {p : Publication SecretKey}
    (hsplit : history.events = before ++ p :: after)
    (hok : (publishShard keys sha256 (storeAfter keys sha256 before) p).2 = .ok ())
    (huntrimmed : ∀ l q r, history.events = l ++ q :: r → q.alpn = p.alpn →
      Untrimmed keys sha256 (p.localAd keys).nodeId (storeAfter keys sha256 l) q)
    (htags : ∀ q ∈ history.events,
      keys.publicKey q.call.secretKey = keys.publicKey p.call.secretKey → q.alpn = p.alpn →
        required ⊆ q.call.tags)
    (hshard : p.shard.toNat < dhtShardCount.toNat) {now : UnixTime}
    (hlo : p.time ≤ now.secs.toNat) (hhi : now.secs.toNat < p.time + 120) :
    ∃ peer ∈ lookup keys sha256 (storeAt keys sha256 history now) p.alpn required trust
      p.call.minute now, peer.id = keys.publicKey p.call.secretKey := by
  have huntil := History.until_eq hsplit hlo
  have hearlier : history.until now <+: history.events := List.takeWhile_prefix _
  -- the bucket holds the node, at least as new as the publication
  obtain ⟨item, hitem, hcontains⟩ := contains_storeAfter hsha hok fun l q r h hq => by
    rcases hearlier with ⟨rest, hrest⟩
    rw [huntil, h, List.append_assoc] at hrest
    exact huntrimmed l q _ hrest.symm hq
  rw [← huntil] at hitem
  have hsourced : Sourced keys sha256 (history.until now)
      (storeAfter keys sha256 (history.until now)) := sourced_storeAfter hsha _
  rcases hsourced _ _ _ item hitem with ⟨bucket, hvalue, hversion, hads⟩
  rcases hcontains with ⟨_, hdecode, -, ad, had, hnode, hnew⟩
  rw [hvalue, Codec.fromBytes_encode, Option.some.injEq] at hdecode
  subst hdecode
  -- what it holds is live for the reader
  rcases hads ad had with ⟨q, hq, halpn, hminute, hqshard, rfl⟩
  have hverify : (q.localAd keys).verify keys p.alpn p.call.minute p.shard now.secs = true := by
    rw [← halpn, ← hminute, ← hqshard]
    refine (SignedServiceAd.verify_sign_iff_live ..).mpr (PublishCall.live_localAd _ _ ?_ ?_)
    · have := History.time_le_of_mem_until hq
      simp only [Publication.time] at this
      omega
    · have hle : p.call.publishedAt.secs.toNat ≤ q.call.publishedAt.secs.toNat := by
        rcases hnew with hlt | ⟨heq, -⟩
        · exact (UInt64.lt_iff_toNat_lt.mp hlt).le
        · exact (congrArg UInt64.toNat heq).le
      simp only [Publication.time] at hhi
      omega
  have hvalid := ServiceBucket.mem_validAds.mpr
    ⟨bucket, List.mem_singleton_self _, hversion, had, hverify⟩
  rcases ServiceBucket.exists_mem_mergeValid hvalid with ⟨found, hfound, hfoundNode, -⟩
  have hquery : found ∈ queryShard keys sha256 (storeAt keys sha256 history now) p.alpn
      p.call.minute p.shard now := by
    show found ∈ (readShardState keys p.alpn p.call.minute p.shard now.secs
      (storeAfter keys sha256 (history.until now) _).toList).1
    rw [hitem, Option.toList_some, readShardState_encode hvalue]
    exact hfound
  -- what the reader finds is the node's, with its tags
  rcases hsourced.read hquery with ⟨t, ht, htalpn, -, -, rfl⟩
  have hkey : keys.publicKey t.call.secretKey = keys.publicKey p.call.secretKey :=
    keys.asBytes_injective (hfoundNode.trans hnode)
  have hrequired := htags t (hearlier.subset ht) hkey htalpn
  have hhas : (t.localAd keys).hasTags required = true := by
    rw [SignedServiceAd.hasTags, List.all_eq_true]
    intro tag htag
    exact List.contains_iff_mem.mpr (hrequired htag)
  refine ⟨{ id := keys.publicKey t.call.secretKey, trust := trust }, ?_, hkey⟩
  refine List.mem_flatMap.mpr ⟨p.shard.toNat, List.mem_range.mpr hshard, ?_⟩
  refine List.mem_filterMap.mpr ⟨t.localAd keys, by simpa using hquery, ?_⟩
  have hid : (t.localAd keys).endpointId keys = some (keys.publicKey t.call.secretKey) :=
    keys.fromBytes_asBytes _
  simp [hhas, hid]

end Lookup

end IrohTransport.Swarm
