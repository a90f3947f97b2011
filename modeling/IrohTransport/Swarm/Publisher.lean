import IrohTransport.Swarm.Dht
import IrohTransport.Swarm.Trimming

/-!
# Publishing into a shard

One attempt to publish reads the items of the bucket, merges their valid
advertisements, inserts the local one, trims the bucket to the size of a DHT value and
puts it under the next sequence number.  The put is conditional on the sequence number
that was read, and unconditional when nothing was read.

Main results:

- Theorem {lit}`PublishCall.verify_localAd`: a local advertisement verifies for every
  publisher and reader of its minute.
- Theorem {lit}`PublishCall.nextItem_of_fits`: while everything fits, the item of an
  attempt holds what was read with the local advertisement inserted.
- Theorem {lit}`PublishCall.value_of_nextItem_ok`: whatever was read, an item holds the
  trimmed bucket, which has nothing but what was read and the local advertisement.
- Theorem {lit}`put_bucket_is_well_formed`: whatever was read, what is put is a valid
  bucket with one advertisement of the local node.
- Theorem {lit}`sequence_numbers_advance_iff`: what is put has a new sequence number,
  unless an item with the greatest one was read.
-/

namespace IrohTransport.Swarm

variable {SecretKey PublicKey Signature : Type}

/-! ## The register of a bucket -/

/-- A value under the address of a bucket with its sequence number. -/
structure MutableItem where
  seq : Int64
  value : List UInt8
deriving DecidableEq

/-- Whether a register takes an item: its sequence number must not go back, and the
sequence number the writer expects, if it names one, must be the one stored.  A put
that is not taken reports contention. -/
def accepts (stored : Option MutableItem) (item : MutableItem) (cas : Option Int64) : Bool :=
  match stored with
  | none => true
  | some old => decide (old.seq ≤ item.seq) && (cas == none || cas == some old.seq)

/-- What an accepted put says about the register. -/
theorem accepts_some {old item : MutableItem} {cas : Option Int64} :
    accepts (some old) item cas = true ↔
      old.seq ≤ item.seq ∧ (cas = none ∨ cas = some old.seq) := by
  simp [accepts]

/-- The bucket stored in an item holds an advertisement of the same node that is at
least as new. -/
def MutableItem.contains (keys : Keys SecretKey PublicKey Signature)
    (ad : SignedServiceAd Signature) (item : MutableItem) : Prop :=
  ∃ bucket, (ServiceBucket.codec keys).fromBytes item.value = some bucket ∧
    bucket.version = dhtBucketVersion ∧
      ∃ ad' ∈ bucket.ads, ad'.nodeId = ad.nodeId ∧ ad'.AsNewAs ad

instance (keys : Keys SecretKey PublicKey Signature) (ad : SignedServiceAd Signature)
    (item : MutableItem) : Decidable (item.contains keys ad) :=
  decidable_of_iff (((ServiceBucket.codec keys).fromBytes item.value).any (fun bucket =>
      decide (bucket.version = dhtBucketVersion ∧
        ∃ ad' ∈ bucket.ads, ad'.nodeId = ad.nodeId ∧ ad'.AsNewAs ad)) = true)
    (by simp [MutableItem.contains, Option.any_eq_true])

/-- The greater of two sequence numbers is one of them and an upper bound of both. -/
instance instLawfulOrderMaxInt64 : Std.LawfulOrderMax Int64 where
  max_eq_or a b := by
    have hmax : max a b = if a ≤ b then b else a := rfl
    rw [hmax]
    split
    · exact .inr rfl
    · exact .inl rfl
  max_le_iff a b c := by
    have hmax : max a b = if a ≤ b then b else a := rfl
    rw [hmax]
    split <;> rename_i hle
    · exact ⟨fun hbc => ⟨Int64.le_trans hle hbc, hbc⟩, And.right⟩
    · have hba : b ≤ a := (Int64.le_total a b).resolve_left hle
      exact ⟨fun hac => ⟨hac, Int64.le_trans hba hac⟩, And.left⟩

/-- Adding one to a sequence number overflows at the greatest one only. -/
theorem toInt_succ_iff {seq : Int64} :
    (seq + 1).toInt = seq.toInt + 1 ↔ seq ≠ Int64.maxValue := by
  have hlt := seq.toInt_lt
  have hle := seq.le_toInt
  have hmax : Int64.maxValue.toInt = 2 ^ 63 - 1 := rfl
  rw [Int64.toInt_add, ← Int64.toInt_inj.ne, hmax, show Int64.toInt 1 = 1 from rfl]
  constructor
  · intro h heq
    rw [heq] at h
    exact absurd h (by decide)
  · intro hne
    apply Int.bmod_eq_of_le <;> omega

/-- Read the advertisements and the newest sequence number of the items found. -/
def readShardState (keys : Keys SecretKey PublicKey Signature) (alpn : List UInt8)
    (minute : UInt64) (shard : UInt8) (now : UInt64) (items : List MutableItem) :
    List (SignedServiceAd Signature) × Option Int64 :=
  let latestSeq := (items.map MutableItem.seq).max?
  let buckets := items.filterMap fun item => (ServiceBucket.codec keys).fromBytes item.value
  (ServiceBucket.mergeValid keys alpn minute shard now buckets, latestSeq)

section Read

variable {keys : Keys SecretKey PublicKey Signature} {alpn : List UInt8} {minute : UInt64}
  {shard : UInt8} {now : UInt64}

@[simp] theorem readShardState_none :
    readShardState keys alpn minute shard now [] = ([], none) := rfl

/-- What is read from one item: the valid advertisements of its bucket, if it holds a
bucket, and its sequence number. -/
theorem readShardState_some (item : MutableItem) :
    readShardState keys alpn minute shard now [item]
      = (ServiceBucket.mergeValid keys alpn minute shard now
          ((ServiceBucket.codec keys).fromBytes item.value).toList, some item.seq) := by
  have hdecode : [item].filterMap (fun item => (ServiceBucket.codec keys).fromBytes item.value)
      = ((ServiceBucket.codec keys).fromBytes item.value).toList := by
    cases h : (ServiceBucket.codec keys).fromBytes item.value <;> simp [h]
  simp only [readShardState, hdecode]
  rfl

/-- An item that encodes a bucket is read as that bucket. -/
theorem readShardState_encode {item : MutableItem} {bucket : ServiceBucket Signature}
    (h : item.value = (ServiceBucket.codec keys).encode bucket) :
    (readShardState keys alpn minute shard now [item]).1
      = ServiceBucket.mergeValid keys alpn minute shard now [bucket] := by
  rw [readShardState_some, h, Codec.fromBytes_encode]
  rfl

/-- An advertisement read from an item is one the item holds. -/
theorem contains_of_mem_readShardState {item : MutableItem} {ad ad' : SignedServiceAd Signature}
    (hmem : ad' ∈ (readShardState keys alpn minute shard now [item]).1)
    (hnode : ad'.nodeId = ad.nodeId) (hnew : ad'.AsNewAs ad) : item.contains keys ad := by
  rw [readShardState_some] at hmem
  obtain ⟨bucket, hbucket, hversion, had, -⟩ :=
    ServiceBucket.mem_validAds.mp (ServiceBucket.mem_validAds_of_mem_mergeValid hmem)
  exact ⟨bucket, by simpa using hbucket, hversion, ad', had, hnode, hnew⟩

/-- The newest sequence number is that of an item, whether or not the item decodes, and
no item has a greater one. -/
theorem latestSeq_eq_some_iff {seq : Int64} :
    (readShardState keys alpn minute shard now items).2 = some seq ↔
      (∃ read ∈ items, read.seq = seq) ∧ ∀ read ∈ items, read.seq ≤ seq := by
  simp only [readShardState, List.max?_eq_some_iff, List.mem_map, forall_exists_index, and_imp,
    forall_apply_eq_imp_iff₂]

theorem latestSeq_eq_none_iff :
    (readShardState keys alpn minute shard now items).2 = none ↔ items = [] := by
  simp [readShardState]

end Read

/-! ## One attempt -/

/-- The arguments of a call that are not shared by the publishers of one bucket, and
the clock reading it starts with. -/
structure PublishCall (SecretKey : Type) where
  secretKey : SecretKey
  tags : List String
  publishedAt : UnixTime

namespace PublishCall

variable (keys : Keys SecretKey PublicKey Signature) (alpn : List UInt8) (shard : UInt8)

/-- The minute of the bucket a call publishes into. -/
def minute (call : PublishCall SecretKey) : UInt64 := call.publishedAt.secs / 60

/-- The advertisement a call publishes. -/
def localAd (call : PublishCall SecretKey) : SignedServiceAd Signature :=
  let publishedAt := call.publishedAt.secs
  let expiresAt := saturatingAdd publishedAt dhtAdTtlSecs
  SignedServiceAd.sign keys call.secretKey alpn call.minute shard call.tags publishedAt expiresAt

/-- The item an attempt puts, given what it read.  The sequence number wraps as an
{lit}`i64` does in a release build. -/
def nextItem (call : PublishCall SecretKey) (ads : List (SignedServiceAd Signature))
    (latestSeq : Option Int64) : Except String MutableItem :=
  let localAd := call.localAd keys alpn shard
  let bucket := (ServiceBucket.new ads).upsert localAd
  let (bucket, fits) := bucket.trimToSize keys (some localAd.nodeId)
  if !fits then
    .error "local service advertisement exceeds shard bucket size"
  else
    .ok { seq := latestSeq.elim 1 (· + 1), value := (ServiceBucket.codec keys).encode bucket }

variable {keys alpn shard}

@[simp] theorem nodeId_localAd (call : PublishCall SecretKey) :
    (call.localAd keys alpn shard).nodeId = keys.asBytes (keys.publicKey call.secretKey) := rfl

/-- A local advertisement is live from its minute until its time to live is over, for
any clock that is not far behind. -/
theorem live_localAd (call : PublishCall SecretKey) (now : UnixTime)
    (hlo : call.publishedAt.secs.toNat ≤ now.secs.toNat + 300)
    (hhi : now.secs.toNat < call.publishedAt.secs.toNat + 120) :
    (call.localAd keys alpn shard).Live now.secs := by
  have hpub := call.publishedAt.bound
  have hnow := now.bound
  simp only [SignedServiceAd.Live, localAd, SignedServiceAd.publishedAt_sign,
    SignedServiceAd.expiresAt_sign, UInt64.le_iff_toNat_le, UInt64.lt_iff_toNat_lt,
    toNat_saturatingAdd, dhtAdTtlSecs, maxFutureSkewSecs, UInt64.reduceToNat]
  omega

/-- A local advertisement verifies for every clock of its minute. -/
theorem verify_localAd {call : PublishCall SecretKey} {now : UnixTime}
    (h : now.secs / 60 = call.minute) :
    (call.localAd keys alpn shard).verify keys alpn call.minute shard now.secs = true := by
  refine (SignedServiceAd.verify_sign_iff_live ..).mpr (live_localAd call now ?_ ?_)
  all_goals
    have hminute := congrArg UInt64.toNat h
    simp only [minute, UInt64.toNat_div, UInt64.reduceToNat] at hminute
    omega

/-- The item holds a bucket of what was read with the local advertisement inserted,
nothing trimmed. -/
def Holds (keys : Keys SecretKey PublicKey Signature) (alpn : List UInt8) (shard : UInt8)
    (call : PublishCall SecretKey) (ads : List (SignedServiceAd Signature)) (item : MutableItem) :
    Prop :=
  ∃ bucket, item.value = (ServiceBucket.codec keys).encode bucket ∧
    bucket.version = dhtBucketVersion ∧
      bucket.ads.Perm ((ServiceBucket.new ads).upsert (call.localAd keys alpn shard)).ads

/-- While everything fits, an attempt puts what it read with the local advertisement
inserted. -/
theorem nextItem_of_fits {call : PublishCall SecretKey} {ads : List (SignedServiceAd Signature)}
    {latestSeq : Option Int64}
    (hfits : ((ServiceBucket.new ads).upsert (call.localAd keys alpn shard)).encodedLen keys
      ≤ dhtMaxBucketBytes) :
    ∃ item, call.nextItem keys alpn shard ads latestSeq = .ok item ∧
      item.seq = latestSeq.elim 1 (· + 1) ∧ call.Holds keys alpn shard ads item := by
  obtain ⟨trimmed, hperm, htrim⟩ := ServiceBucket.trimToSize_of_fits
    (some (call.localAd keys alpn shard).nodeId) hfits
  let bucket : ServiceBucket Signature := { version := dhtBucketVersion, ads := trimmed }
  let item : MutableItem :=
    { seq := latestSeq.elim 1 (· + 1), value := (ServiceBucket.codec keys).encode bucket }
  refine ⟨item, ?_, rfl, bucket, rfl, rfl, hperm⟩
  simp only [nextItem, htrim]
  rfl

/-- The bucket an attempt puts: what was read with the local advertisement inserted,
trimmed in favour of the local node. -/
def trimmed (keys : Keys SecretKey PublicKey Signature) (alpn : List UInt8) (shard : UInt8)
    (call : PublishCall SecretKey) (ads : List (SignedServiceAd Signature)) :
    ServiceBucket Signature :=
  (((ServiceBucket.new ads).upsert (call.localAd keys alpn shard)).trimToSize keys
    (some (call.localAd keys alpn shard).nodeId)).1

/-- Trimming keeps the version of the bucket. -/
theorem version_trimmed (call : PublishCall SecretKey) (ads : List (SignedServiceAd Signature)) :
    (call.trimmed keys alpn shard ads).version = dhtBucketVersion :=
  (ServiceBucket.trimToSize_subperm _).1

/-- A trimmed bucket has nothing but what was read and the local advertisement. -/
theorem mem_of_mem_trimmed {call : PublishCall SecretKey}
    {ads : List (SignedServiceAd Signature)} {ad : SignedServiceAd Signature}
    (h : ad ∈ (call.trimmed keys alpn shard ads).ads) :
    ad = call.localAd keys alpn shard ∨ ad ∈ ads :=
  Select.mem_upsert _ _ ((ServiceBucket.trimToSize_subperm _).2.subset h)

/-- Whatever was read, an item that is put holds the trimmed bucket. -/
theorem value_of_nextItem_ok {call : PublishCall SecretKey}
    {ads : List (SignedServiceAd Signature)} {latestSeq : Option Int64} {item : MutableItem}
    (h : call.nextItem keys alpn shard ads latestSeq = .ok item) :
    item.value = (ServiceBucket.codec keys).encode (call.trimmed keys alpn shard ads) := by
  simp only [nextItem] at h
  split at h
  · contradiction
  · rcases Except.ok.inj h with rfl
    rfl

/-! ## What is written -/

/-- An attempt up to its put: the item it puts, given the items it read. -/
def attempt (keys : Keys SecretKey PublicKey Signature) (alpn : List UInt8) (shard : UInt8)
    (call : PublishCall SecretKey) (items : List MutableItem) : Except String MutableItem :=
  let read := readShardState keys alpn call.minute shard call.publishedAt.secs items
  call.nextItem keys alpn shard read.1 read.2

/-- The advertisement of the local node that an attempt puts: one that was read stays
unless the local one precedes it. -/
def ownAd (keys : Keys SecretKey PublicKey Signature) (alpn : List UInt8) (shard : UInt8)
    (call : PublishCall SecretKey) (ads : List (SignedServiceAd Signature)) :
    SignedServiceAd Signature :=
  (ads.find? fun ad => ad.nodeId = (call.localAd keys alpn shard).nodeId).elim
    (call.localAd keys alpn shard) fun existing =>
      if AdPrecedes (call.localAd keys alpn shard) existing then call.localAd keys alpn shard
      else existing

section Written

variable {call : PublishCall SecretKey} {ads : List (SignedServiceAd Signature)}
  {latestSeq : Option Int64}

/-- The local node keeps an advertisement at least as new as the local one, which it
otherwise only gives up for one that was read. -/
theorem ownAd_spec :
    (call.ownAd keys alpn shard ads).nodeId = (call.localAd keys alpn shard).nodeId ∧
      (call.ownAd keys alpn shard ads).AsNewAs (call.localAd keys alpn shard) ∧
      (call.ownAd keys alpn shard ads = call.localAd keys alpn shard ∨
        call.ownAd keys alpn shard ads ∈ ads) := by
  unfold ownAd
  cases hfind : ads.find? fun ad => ad.nodeId = (call.localAd keys alpn shard).nodeId with
  | none => exact ⟨rfl, SignedServiceAd.AsNewAs.refl _, Or.inl rfl⟩
  | some existing =>
      have hnode : existing.nodeId = (call.localAd keys alpn shard).nodeId := by
        simpa only [decide_eq_true_eq] using List.find?_some hfind
      by_cases hprecedes : AdPrecedes (call.localAd keys alpn shard) existing
      · rw [Option.elim_some, if_pos hprecedes]
        exact ⟨rfl, SignedServiceAd.AsNewAs.refl _, Or.inl rfl⟩
      · rw [Option.elim_some, if_neg hprecedes]
        exact ⟨hnode, (adSortKey_le_iff hnode).mp (not_lt.mp hprecedes),
          Or.inr (List.mem_of_find?_eq_some hfind)⟩

/-- An advertisement of the local node that was read stays unless the local one precedes it. -/
theorem ownAd_eq (hnodup : (ads.map SignedServiceAd.nodeId).Nodup)
    {ad : SignedServiceAd Signature} (had : ad ∈ ads)
    (hnode : ad.nodeId = (call.localAd keys alpn shard).nodeId) :
    call.ownAd keys alpn shard ads
      = if AdPrecedes (call.localAd keys alpn shard) ad then call.localAd keys alpn shard
        else ad := by
  have hfind : ads.find? (fun ad => ad.nodeId = (call.localAd keys alpn shard).nodeId) = some ad := by
    cases hfound : ads.find? fun ad => ad.nodeId = (call.localAd keys alpn shard).nodeId with
    | none =>
        have hnone := List.find?_eq_none.mp hfound ad had
        simp [hnode] at hnone
    | some other =>
        have hother : other.nodeId = (call.localAd keys alpn shard).nodeId := by
          simpa only [decide_eq_true_eq] using List.find?_some hfound
        rw [List.inj_on_of_nodup_map hnodup (List.mem_of_find?_eq_some hfound) had
          (hother.trans hnode.symm)]
  rw [ownAd, hfind, Option.elim_some]

/-- Among distinct nodes the local one has its own advertisement and no other. -/
theorem preferredAds_upsert (hnodup : (ads.map SignedServiceAd.nodeId).Nodup) :
    ServiceBucket.preferredAds (some (call.localAd keys alpn shard).nodeId)
        ((ServiceBucket.new ads).upsert (call.localAd keys alpn shard)).ads
      = [call.ownAd keys alpn shard ads] := by
  have hfind := Select.find?_upsert SignedServiceAd.nodeId AdPrecedes
    (call.localAd keys alpn shard) ads (call.localAd keys alpn shard).nodeId
  rw [if_pos rfl] at hfind
  have hown : ((ServiceBucket.new ads).upsert (call.localAd keys alpn shard)).ads.filter
      (ServiceBucket.isPreferred (some (call.localAd keys alpn shard).nodeId))
      = [call.ownAd keys alpn shard ads] := by
    rw [ServiceBucket.isPreferred_some]
    exact Select.filter_key_of_find? SignedServiceAd.nodeId
      (Select.nodup_keys_upsert SignedServiceAd.nodeId AdPrecedes hnodup) hfind
  apply List.perm_singleton.mp
  rw [← hown]
  exact (ServiceBucket.trimOrder_perm _ _).filter _

/-- An attempt fails exactly when the local node's advertisement does not fit alone. -/
theorem nextItem_eq (hnodup : (ads.map SignedServiceAd.nodeId).Nodup) :
    call.nextItem keys alpn shard ads latestSeq
      = if (ServiceBucket.new [call.ownAd keys alpn shard ads]).encodedLen keys
          ≤ dhtMaxBucketBytes then
        .ok
          { seq := latestSeq.elim 1 (· + 1)
            value := (ServiceBucket.codec keys).encode (call.trimmed keys alpn shard ads) }
      else .error "local service advertisement exceeds shard bucket size" := by
  have hflag : (((ServiceBucket.new ads).upsert (call.localAd keys alpn shard)).trimToSize keys
      (some (call.localAd keys alpn shard).nodeId)).2
      = decide ((ServiceBucket.new [call.ownAd keys alpn shard ads]).encodedLen keys
        ≤ dhtMaxBucketBytes) := by
    rw [ServiceBucket.trimToSize_eq, preferredAds_upsert hnodup]
    rfl
  simp only [nextItem, hflag, Bool.not_eq_true', decide_eq_false_iff_not, ite_not]
  rfl

/-- A bucket trimmed in favour of an advertisement that fits is small enough, and has
that advertisement alone of the local node. -/
theorem trimmed_spec (hnodup : (ads.map SignedServiceAd.nodeId).Nodup)
    (hfits : (ServiceBucket.new [call.ownAd keys alpn shard ads]).encodedLen keys
      ≤ dhtMaxBucketBytes) :
    (call.trimmed keys alpn shard ads).encodedLen keys ≤ dhtMaxBucketBytes ∧
      ((call.trimmed keys alpn shard ads).ads.map SignedServiceAd.nodeId).Nodup ∧
      (call.trimmed keys alpn shard ads).ads.filter
          (fun ad => ad.nodeId = (call.localAd keys alpn shard).nodeId)
        = [call.ownAd keys alpn shard ads] := by
  have hown : ServiceBucket.preferredAds (some (call.localAd keys alpn shard).nodeId)
      ((ServiceBucket.new ads).upsert (call.localAd keys alpn shard)).ads
      = [call.ownAd keys alpn shard ads] := preferredAds_upsert hnodup
  unfold trimmed
  refine ⟨?_, ?_, ?_⟩
  · rw [ServiceBucket.trimToSize_eq]
    apply ServiceBucket.fitsWith_keptAds
    rw [hown]
    exact hfits
  · rcases (ServiceBucket.trimToSize_subperm
      ((ServiceBucket.new ads).upsert (call.localAd keys alpn shard))).2 with ⟨l, hperm, hsub⟩
    apply (hperm.map SignedServiceAd.nodeId).nodup_iff.mp
    apply (hsub.map SignedServiceAd.nodeId).nodup
    exact Select.nodup_keys_upsert SignedServiceAd.nodeId AdPrecedes hnodup
  · rw [ServiceBucket.trimToSize_eq, ← hown, ← ServiceBucket.isPreferred_some]
    apply ServiceBucket.filter_take_trimOrder

/-- An attempt gets to its put exactly when the advertisement that the local node keeps
fits alone. -/
theorem attempt_eq (call : PublishCall SecretKey) (items : List MutableItem) :
    call.attempt keys alpn shard items
      = let read := readShardState keys alpn call.minute shard call.publishedAt.secs items
        if (ServiceBucket.new [call.ownAd keys alpn shard read.1]).encodedLen keys
            ≤ dhtMaxBucketBytes then
          .ok
            { seq := read.2.elim 1 (· + 1)
              value := (ServiceBucket.codec keys).encode (call.trimmed keys alpn shard read.1) }
        else .error "local service advertisement exceeds shard bucket size" :=
  nextItem_eq (ServiceBucket.nodup_mergeValid _)

end Written

end PublishCall

/-- Whatever was read, an attempt keeps one advertisement of the local node: the one of this
node that was read, unless there is none or the local one precedes it.  If that fits alone,
the attempt puts a bucket of the current version that fits, of distinct nodes and of valid
advertisements, with the one kept of the local node; otherwise it fails. -/
theorem put_bucket_is_well_formed (keys : Keys SecretKey PublicKey Signature)
    (alpn : List UInt8) (shard : UInt8) (call : PublishCall SecretKey) (items : List MutableItem) :
    let read := (readShardState keys alpn call.minute shard call.publishedAt.secs items).1
    let own := call.ownAd keys alpn shard read
    own.nodeId = (call.localAd keys alpn shard).nodeId ∧
      own.AsNewAs (call.localAd keys alpn shard) ∧
      (own = call.localAd keys alpn shard ∨ own ∈ read) ∧
      (∀ ad ∈ read, ad.nodeId = (call.localAd keys alpn shard).nodeId →
        own = if AdPrecedes (call.localAd keys alpn shard) ad then call.localAd keys alpn shard
          else ad) ∧
      ((ServiceBucket.new [own]).encodedLen keys ≤ dhtMaxBucketBytes →
        ∃ item bucket, call.attempt keys alpn shard items = .ok item ∧
          item.value = (ServiceBucket.codec keys).encode bucket ∧
          bucket.version = dhtBucketVersion ∧
          item.value.length ≤ dhtMaxBucketBytes ∧
          (bucket.ads.map SignedServiceAd.nodeId).Nodup ∧
          (∀ ad ∈ bucket.ads,
            ad.verify keys alpn call.minute shard call.publishedAt.secs = true) ∧
          bucket.ads.filter (fun ad => ad.nodeId = (call.localAd keys alpn shard).nodeId)
            = [own]) ∧
      (¬(ServiceBucket.new [own]).encodedLen keys ≤ dhtMaxBucketBytes →
        call.attempt keys alpn shard items
          = .error "local service advertisement exceeds shard bucket size") := by
  intro read own
  have hnodup : (read.map SignedServiceAd.nodeId).Nodup := ServiceBucket.nodup_mergeValid _
  rcases @PublishCall.ownAd_spec _ _ _ keys alpn shard call read with ⟨hnode, hnew, horigin⟩
  refine ⟨hnode, hnew, horigin, fun ad had hsame => PublishCall.ownAd_eq hnodup had hsame, ?_, ?_⟩
  · intro hfits
    rcases PublishCall.trimmed_spec hnodup hfits with ⟨hsize, hdistinct, hown⟩
    refine ⟨_, _, (PublishCall.nextItem_eq hnodup).trans (if_pos hfits), rfl,
      PublishCall.version_trimmed _ _, hsize, hdistinct, ?_, hown⟩
    intro ad had
    rcases PublishCall.mem_of_mem_trimmed had with rfl | hread
    · exact PublishCall.verify_localAd rfl
    · rcases ServiceBucket.mem_validAds.mp
        (ServiceBucket.mem_validAds_of_mem_mergeValid hread) with ⟨_, _, _, _, hverify⟩
      exact hverify
  · intro hbig
    exact (PublishCall.nextItem_eq hnodup).trans (if_neg hbig)

/-- A call of one node in the 55th minute, with these tags. -/
def PublishCall.tagged (tags : List String) : PublishCall NodeId where
  secretKey := repeatedId 9
  tags := tags
  publishedAt := ⟨3300, by decide⟩

/-- A node that publishes without tags and, within the same second, with more tags than
fit does not fail the second time: the first advertisement is kept and put again. -/
theorem oversized_ad_is_not_reported :
    ¬∀ (alpn : List UInt8) (shard : UInt8) (call : PublishCall NodeId) (items : List MutableItem),
      ¬(ServiceBucket.new [call.localAd Keys.plain alpn shard]).encodedLen Keys.plain
          ≤ dhtMaxBucketBytes →
        ∃ err, call.attempt Keys.plain alpn shard items = .error err := by
  intro h
  let first : MutableItem :=
    { seq := 1
      value := (ServiceBucket.codec Keys.plain).encode
        (ServiceBucket.new [(PublishCall.tagged []).localAd Keys.plain [] 2]) }
  have hok : ((PublishCall.tagged (List.replicate 1000 "")).attempt Keys.plain [] 2
      [first]).isOk = true := by
    decide +kernel
  rcases h [] 2 (PublishCall.tagged (List.replicate 1000 "")) [first] (by decide +kernel) with
    ⟨err, herr⟩
  rw [herr] at hok
  contradiction

/-! ## Sequence numbers -/

/-- An attempt that gets to its put computes a sequence number without overflow, and one
greater than those of all items it has read. -/
def PublishCall.Advances (keys : Keys SecretKey PublicKey Signature) (alpn : List UInt8) (shard : UInt8)
    (call : PublishCall SecretKey) (items : List MutableItem) : Prop :=
  ∀ item, call.attempt keys alpn shard items = .ok item →
    (∀ seq, (readShardState keys alpn call.minute shard call.publishedAt.secs items).2 = some seq →
      item.seq.toInt = seq.toInt + 1) ∧
    ∀ read ∈ items, read.seq < item.seq

/-- The sequence number of an attempt advances exactly when no item that was read has the
greatest one, or when the attempt does not get to its put. -/
theorem sequence_numbers_advance_iff (keys : Keys SecretKey PublicKey Signature)
    (alpn : List UInt8) (shard : UInt8) (call : PublishCall SecretKey)
    (items : List MutableItem) :
    call.Advances keys alpn shard items ↔
      (∀ read ∈ items, read.seq ≠ Int64.maxValue) ∨
      ¬(ServiceBucket.new [call.ownAd keys alpn shard
          (readShardState keys alpn call.minute shard call.publishedAt.secs items).1]).encodedLen
        keys ≤ dhtMaxBucketBytes := by
  by_cases hfits : (ServiceBucket.new [call.ownAd keys alpn shard
      (readShardState keys alpn call.minute shard call.publishedAt.secs items).1]).encodedLen
    keys ≤ dhtMaxBucketBytes
  · have hattempt := (@PublishCall.attempt_eq _ _ _ keys alpn shard call items).trans
      (if_pos hfits)
    simp only [PublishCall.Advances, hattempt, Except.ok.injEq, forall_eq', hfits, not_true_eq_false,
      or_false]
    cases hlatest : (readShardState keys alpn call.minute shard call.publishedAt.secs items).2 with
    | none =>
        obtain rfl := latestSeq_eq_none_iff.mp hlatest
        simp
    | some seq =>
        rcases latestSeq_eq_some_iff.mp hlatest with ⟨⟨newest, hmem, hseq⟩, hbound⟩
        simp only [Option.some.injEq, forall_eq', Option.elim_some, toInt_succ_iff]
        constructor
        · rintro ⟨hne, -⟩ read hread hmax
          have hle := hbound read hread
          rw [hmax] at hle
          exact hne (Int64.le_antisymm (Int64.le_maxValue seq) hle)
        · intro hne
          have hsucc := toInt_succ_iff.mpr (hseq ▸ hne newest hmem)
          refine ⟨hseq ▸ hne newest hmem, ?_⟩
          intro read hread
          have hle := Int64.le_iff_toInt_le.mp (hbound read hread)
          rw [Int64.lt_iff_toInt_lt]
          omega
  · have hattempt := (@PublishCall.attempt_eq _ _ _ keys alpn shard call items).trans
      (if_neg hfits)
    simp [PublishCall.Advances, hattempt, hfits]

/-- Anyone can write an item with the greatest sequence number, and the number that is put
after it is the least one. -/
theorem greatest_sequence_number_wraps :
    ¬∀ (alpn : List UInt8) (shard : UInt8) (call : PublishCall NodeId) (items : List MutableItem),
      call.Advances Keys.plain alpn shard items := by
  intro h
  let items : List MutableItem := [{ seq := Int64.maxValue, value := [] }]
  have hput := (@PublishCall.attempt_eq _ _ _ Keys.plain [] 2 (PublishCall.tagged [])
    items).trans (if_pos (by decide +kernel))
  have hlt := (h [] 2 (PublishCall.tagged []) items _ hput).2 _ (List.mem_singleton_self _)
  have hwrapped : ¬Int64.maxValue < Int64.maxValue + 1 := by decide
  exact hwrapped hlt

end IrohTransport.Swarm
