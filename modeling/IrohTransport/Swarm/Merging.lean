import IrohTransport.Swarm.Bucket

/-!
# Merging what was merged before

Publishers read the replicas of a bucket, merge them, insert their own advertisement and
write the result, which others read and merge again.  The merge enters advertisements
into a map ordered by node, and the insertion searches the list of a bucket; both let the
advertisement that came first stay when two are equally new.

Main results:

- Theorem {lit}`ServiceBucket.mergeOrdered_eq`: merging with the ordered map returns what
  {lit}`ServiceBucket.mergeValid` returns, whose map is a list.
- Theorem {lit}`mergeValid_is_compositional`: merging two merged halves is merging
  everything.
- Theorem {lit}`upsert_agrees_with_merge`: inserting an advertisement into a merged bucket
  is merging with a bucket of that advertisement.
-/

namespace IrohTransport.Swarm

open Select

variable {SecretKey PublicKey Signature : Type}

/-! ## The ordered map -/

/-- Node ids are compared byte by byte. -/
def NodeId.cmp : NodeId → NodeId → Ordering := compareOn Subtype.val

instance : Std.TransCmp NodeId.cmp :=
  inferInstanceAs (Std.TransCmp (compareOn (Subtype.val : NodeId → List UInt8)))

instance : Std.LawfulEqCmp NodeId.cmp where
  eq_of_compare h := Subtype.ext (Std.LawfulEqCmp.eq_of_compare h)

/-- The advertisements entered so far, by node. -/
abbrev NodeMap (Signature : Type) : Type :=
  Std.TreeMap NodeId (SignedServiceAd Signature) NodeId.cmp

/-- Enter an advertisement: into a vacant entry, or in place of one that it precedes. -/
def NodeMap.enter (merged : NodeMap Signature) (ad : SignedServiceAd Signature) :
    NodeMap Signature :=
  merged.alter ad.nodeId fun
    | none => some ad
    | some existing => if AdPrecedes ad existing then some ad else some existing

/-- The values of the map, in the order of their nodes. -/
def NodeMap.intoValues (merged : NodeMap Signature) : List (SignedServiceAd Signature) :=
  merged.toList.map Prod.snd

/-- The map and the table of the newest advertisements hold the same under every node. -/
theorem NodeMap.getElem?_foldl_enter (ads : List (SignedServiceAd Signature)) (node : NodeId) :
    (ads.foldl NodeMap.enter (∅ : NodeMap Signature))[node]?
      = (select SignedServiceAd.nodeId AdPrecedes ads).find? fun ad => ad.nodeId = node := by
  induction ads using List.reverseRecOn with
  | nil => simp [select]
  | append_singleton ads ad ih =>
      rw [List.foldl_append, List.foldl_cons, List.foldl_nil, NodeMap.enter,
        Std.TreeMap.getElem?_alter, select_concat, find?_upsert]
      simp only [Std.LawfulEqCmp.compare_eq_iff_eq]
      by_cases hnode : ad.nodeId = node
      · subst hnode
        rw [if_pos rfl, if_pos rfl, ih]
        cases (select SignedServiceAd.nodeId AdPrecedes ads).find?
          (fun existing => existing.nodeId = ad.nodeId) with
        | none => rfl
        | some existing => by_cases hprecedes : AdPrecedes ad existing <;> simp [hprecedes]
      · rw [if_neg hnode, if_neg hnode, ih]

/-- An advertisement stands in the map under its own node. -/
theorem NodeMap.nodeId_of_mem {ads : List (SignedServiceAd Signature)} {node : NodeId}
    {ad : SignedServiceAd Signature}
    (h : (node, ad) ∈ (ads.foldl NodeMap.enter (∅ : NodeMap Signature)).toList) :
    ad.nodeId = node := by
  rw [Std.TreeMap.mem_toList_iff_getElem?_eq_some, NodeMap.getElem?_foldl_enter] at h
  simpa using List.find?_some h

/-- The values of the map are the elements of the table. -/
theorem NodeMap.mem_intoValues {ads : List (SignedServiceAd Signature)}
    {ad : SignedServiceAd Signature} :
    ad ∈ (ads.foldl NodeMap.enter (∅ : NodeMap Signature)).intoValues
      ↔ ad ∈ select SignedServiceAd.nodeId AdPrecedes ads := by
  rw [← find?_eq_some_iff_mem SignedServiceAd.nodeId (nodup_keys_select _ _ ads),
    ← NodeMap.getElem?_foldl_enter, ← Std.TreeMap.mem_toList_iff_getElem?_eq_some]
  constructor
  · intro h
    rcases List.mem_map.mp h with ⟨⟨node, ad'⟩, hmem, rfl⟩
    rw [NodeMap.nodeId_of_mem hmem]
    exact hmem
  · intro h
    exact List.mem_map.mpr ⟨_, h, rfl⟩

/-- The values of the map are of distinct nodes. -/
theorem NodeMap.nodup_intoValues (ads : List (SignedServiceAd Signature)) :
    ((ads.foldl NodeMap.enter (∅ : NodeMap Signature)).intoValues.map
      SignedServiceAd.nodeId).Nodup := by
  have hkeys : (ads.foldl NodeMap.enter (∅ : NodeMap Signature)).intoValues.map
      SignedServiceAd.nodeId
      = (ads.foldl NodeMap.enter (∅ : NodeMap Signature)).toList.map Prod.fst := by
    rw [NodeMap.intoValues, List.map_map]
    apply List.map_congr_left
    rintro ⟨node, ad⟩ hmem
    exact NodeMap.nodeId_of_mem hmem
  rw [hkeys, Std.TreeMap.map_fst_toList_eq_keys]
  exact Std.TreeMap.nodup_keys

namespace ServiceBucket

/-- Merge and deduplicate valid ads from multiple bucket replicas, with the map ordered
by node. -/
def mergeOrdered (keys : Keys SecretKey PublicKey Signature) (alpn : List UInt8)
    (minute : UInt64) (shard : UInt8) (now : UInt64)
    (buckets : List (ServiceBucket Signature)) : List (SignedServiceAd Signature) :=
  let merged := buckets.foldl (fun merged bucket =>
    if bucket.version ≠ dhtBucketVersion then merged
    else bucket.ads.foldl (fun merged ad =>
      if !ad.verify keys alpn minute shard now then merged
      else NodeMap.enter merged ad) merged) (∅ : NodeMap Signature)
  merged.intoValues.insertionSort fun a b => adSortKey a ≤ adSortKey b

variable {keys : Keys SecretKey PublicKey Signature} {alpn : List UInt8} {minute : UInt64}
  {shard : UInt8} {now : UInt64}

/-- The order of the map does not show: it is sorted away. -/
theorem mergeOrdered_eq (buckets : List (ServiceBucket Signature)) :
    mergeOrdered keys alpn minute shard now buckets
      = mergeValid keys alpn minute shard now buckets := by
  rw [mergeValid_eq_ranked, mergeOrdered, foldl_validAds]
  exact insertionSort_eq_of_mem_iff nodeId_eq_of_adSortKey_eq (NodeMap.nodup_intoValues _)
    (nodup_keys_select _ _ _) fun _ => NodeMap.mem_intoValues

/-! ## Merged buckets -/

/-- The valid advertisements of some buckets and others, one after the other. -/
theorem validAds_append (buckets buckets' : List (ServiceBucket Signature)) :
    validAds keys alpn minute shard now (buckets ++ buckets')
      = validAds keys alpn minute shard now buckets
        ++ validAds keys alpn minute shard now buckets' := by
  simp [validAds]

/-- A bucket of valid advertisements loses none of them in a merge. -/
theorem validAds_new {ads : List (SignedServiceAd Signature)}
    (h : ∀ ad ∈ ads, ad.verify keys alpn minute shard now = true) :
    validAds keys alpn minute shard now [ServiceBucket.new ads] = ads := by
  have hads : ads.filter (fun ad => ad.verify keys alpn minute shard now) = ads :=
    List.filter_eq_self.mpr h
  simp [validAds, ServiceBucket.new, hads]

/-- What a merge returns is valid for the next merge. -/
theorem validAds_new_mergeValid (buckets : List (ServiceBucket Signature)) :
    validAds keys alpn minute shard now
        [ServiceBucket.new (mergeValid keys alpn minute shard now buckets)]
      = mergeValid keys alpn minute shard now buckets := by
  apply validAds_new
  intro ad had
  rcases mem_validAds.mp (mem_validAds_of_mem_mergeValid had) with ⟨_, _, _, _, hverify⟩
  exact hverify

end ServiceBucket

open ServiceBucket

/-- Merging two merged halves is merging everything, ties included, and merging a merged
bucket changes nothing. -/
theorem mergeValid_is_compositional (keys : Keys SecretKey PublicKey Signature)
    (a b : List (ServiceBucket Signature)) (alpn : List UInt8) (minute : UInt64)
    (shard : UInt8) (now : UInt64) :
    mergeValid keys alpn minute shard now (a ++ b)
        = mergeValid keys alpn minute shard now
          [ServiceBucket.new (mergeValid keys alpn minute shard now a),
            ServiceBucket.new (mergeValid keys alpn minute shard now b)] ∧
      mergeValid keys alpn minute shard now
          [ServiceBucket.new (mergeValid keys alpn minute shard now a)]
        = mergeValid keys alpn minute shard now a := by
  have hcompose : ∀ xs ys : List (SignedServiceAd Signature),
      ranked SignedServiceAd.nodeId adSortKey
          (ranked SignedServiceAd.nodeId adSortKey xs ++ ranked SignedServiceAd.nodeId adSortKey ys)
        = ranked SignedServiceAd.nodeId adSortKey (xs ++ ys) :=
    ranked_append_ranked nodeId_eq_of_adSortKey_eq
  constructor
  · rw [mergeValid_eq_ranked (a ++ b), mergeValid_eq_ranked [_, _], validAds_append,
      ← List.singleton_append, validAds_append, validAds_new_mergeValid, validAds_new_mergeValid,
      mergeValid_eq_ranked a, mergeValid_eq_ranked b, hcompose]
  · rw [mergeValid_eq_ranked [_], validAds_new_mergeValid, mergeValid_eq_ranked a]
    simpa [ranked, select] using hcompose (validAds keys alpn minute shard now a) []

/-- Inserting a valid advertisement into a merged bucket and sorting again is merging with
a bucket of that advertisement.  An insertion keeps nodes distinct, replaces an
advertisement only by a strictly newer one of its node, and leaves those of other nodes
alone. -/
theorem upsert_agrees_with_merge (keys : Keys SecretKey PublicKey Signature)
    (buckets : List (ServiceBucket Signature)) (alpn : List UInt8) (minute : UInt64)
    (shard : UInt8) (now : UInt64) (ad : SignedServiceAd Signature)
    (hverify : ad.verify keys alpn minute shard now = true) :
    ((ServiceBucket.new (mergeOrdered keys alpn minute shard now buckets)).upsert
        ad).ads.insertionSort (fun a b => adSortKey a ≤ adSortKey b)
      = mergeOrdered keys alpn minute shard now (buckets ++ [ServiceBucket.new [ad]]) ∧
    ∀ bucket : ServiceBucket Signature,
      ((bucket.ads.map SignedServiceAd.nodeId).Nodup →
        ((bucket.upsert ad).ads.map SignedServiceAd.nodeId).Nodup) ∧
      (∀ (i : Nat) (existing : SignedServiceAd Signature), bucket.ads[i]? = some existing →
        (bucket.upsert ad).ads[i]? = some existing ∨
        (bucket.upsert ad).ads[i]? = some ad ∧ existing.nodeId = ad.nodeId ∧
          ¬existing.AsNewAs ad) ∧
      ∀ node ≠ ad.nodeId, (bucket.upsert ad).ads.filter (fun other => other.nodeId = node)
        = bucket.ads.filter fun other => other.nodeId = node := by
  constructor
  · have hnew : validAds keys alpn minute shard now [ServiceBucket.new [ad]] = [ad] :=
      validAds_new (by simpa using hverify)
    rw [mergeOrdered_eq, mergeOrdered_eq, mergeValid_eq_ranked, mergeValid_eq_ranked,
      validAds_append, hnew]
    exact insertionSort_upsert_ranked nodeId_eq_of_adSortKey_eq _ ad
  · intro bucket
    refine ⟨nodup_keys_upsert _ _, ?_, ?_⟩
    · intro i existing hi
      rcases getElem?_upsert SignedServiceAd.nodeId AdPrecedes (x := ad) hi with
        hsame | ⟨hreplaced, hnode, hprecedes⟩
      · exact .inl hsame
      · refine .inr ⟨hreplaced, hnode, ?_⟩
        rw [← adSortKey_le_iff hnode]
        exact not_le.mpr hprecedes
    · intro node hnode
      exact filter_upsert_of_ne SignedServiceAd.nodeId AdPrecedes hnode.symm bucket.ads

/-- The advertisement of one node in the 55th minute, published at this time. -/
def adPublishedAt (publishedAt : UInt64) : SignedServiceAd (NodeId × List UInt8) :=
  SignedServiceAd.sign Keys.plain (repeatedId 9) [] 55 2 [] publishedAt 3420

/-- A node that publishes again replaces the advertisement read from a replica. -/
theorem upsert_agrees_with_merge_newer :
    (adPublishedAt 3305).verify Keys.plain [] 55 2 3310 = true ∧
      ((ServiceBucket.new (mergeOrdered Keys.plain [] 55 2 3310
          [ServiceBucket.new [adPublishedAt 3300]])).upsert
          (adPublishedAt 3305)).ads.insertionSort (fun a b => adSortKey a ≤ adSortKey b)
        = mergeOrdered Keys.plain [] 55 2 3310
          ([ServiceBucket.new [adPublishedAt 3300]] ++ [ServiceBucket.new [adPublishedAt 3305]]) := by
  have hverify : (adPublishedAt 3305).verify Keys.plain [] 55 2 3310 = true :=
    (SignedServiceAd.verify_sign_iff_live ..).mpr
      ⟨show (3305 : UInt64) ≤ 3420 by decide, show (3310 : UInt64) < 3420 by decide,
        show 3305 ≤ saturatingAdd 3310 maxFutureSkewSecs by decide⟩
  exact ⟨hverify, (upsert_agrees_with_merge Keys.plain _ [] 55 2 3310 _ hverify).1⟩

end IrohTransport.Swarm
