import IrohTransport.Lib.Select
import IrohTransport.Swarm.Record
import Mathlib.Data.List.Lex
import Mathlib.Data.Prod.Lex
import Mathlib.Order.OrderDual

/-!
# Buckets of advertisements

Readers of a shard merge the valid advertisements of the replicas they receive, newest
first and one for each node; publishers insert their own and trim the bucket to the
size of a DHT value.  All three go by the sort key of an advertisement, which covers
its timestamps and its node but neither its tags nor its signature.

Main results:

- Theorem {lit}`ServiceBucket.mergeValid_eq_ranked`: merging keeps, for each node, the
  first newest of its valid advertisements.
- Theorem {lit}`ServiceBucket.trimToSize_of_fits`: trimming drops nothing from a bucket
  that fits.
- Theorem {lit}`mergeValid_newest_per_node`: what a merge returns, node by node.
- Theorem {lit}`mergeValid_rearranged_iff`: the order of the replicas never changes
  which nodes and timestamps a merge returns, and it changes the advertisements exactly
  when a node has signed two newest ones.
-/

namespace IrohTransport.Swarm

open Select

variable {SecretKey PublicKey Signature : Type}

/-! ## Sort keys -/

/-- Newest first, then longest lived first, then by node. -/
def adSortKey (ad : SignedServiceAd Signature) : ℕᵒᵈ ×ₗ ℕᵒᵈ ×ₗ List ℕ :=
  toLex (OrderDual.toDual ad.publishedAt.toNat,
    toLex (OrderDual.toDual ad.expiresAt.toNat, ad.nodeId.1.map UInt8.toNat))

/-- A candidate replaces an existing advertisement only if it sorts strictly before it. -/
def AdPrecedes (candidate existing : SignedServiceAd Signature) : Prop :=
  adSortKey candidate < adSortKey existing

instance : DecidableRel (@AdPrecedes Signature) := fun candidate existing =>
  inferInstanceAs (Decidable (adSortKey candidate < adSortKey existing))

/-- The order in which a bucket is trimmed: the preferred node's advertisements come
first. -/
def preferredAdSortKey (preferredNode : Option NodeId) (ad : SignedServiceAd Signature) :
    Bool ×ₗ ℕᵒᵈ ×ₗ ℕᵒᵈ ×ₗ List ℕ :=
  let deprioritized := preferredNode.elim false fun nodeId => decide (ad.nodeId ≠ nodeId)
  toLex (deprioritized, adSortKey ad)

/-- An advertisement whose timestamps are at least those of another, publication
first. -/
def SignedServiceAd.AsNewAs (a b : SignedServiceAd Signature) : Prop :=
  b.publishedAt < a.publishedAt ∨ b.publishedAt = a.publishedAt ∧ b.expiresAt ≤ a.expiresAt

instance (a b : SignedServiceAd Signature) : Decidable (a.AsNewAs b) :=
  inferInstanceAs (Decidable (b.publishedAt < a.publishedAt ∨
    b.publishedAt = a.publishedAt ∧ b.expiresAt ≤ a.expiresAt))

/-- Sort keys tell nodes and timestamps apart, and nothing else. -/
theorem adSortKey_eq_iff {a b : SignedServiceAd Signature} :
    adSortKey a = adSortKey b ↔
      a.nodeId = b.nodeId ∧ a.publishedAt = b.publishedAt ∧ a.expiresAt = b.expiresAt := by
  have hnode : a.nodeId.1.map UInt8.toNat = b.nodeId.1.map UInt8.toNat ↔ a.nodeId = b.nodeId := by
    rw [(List.map_injective_iff.mpr fun _ _ => UInt8.toNat_inj.mp).eq_iff, Subtype.ext_iff]
  simp only [adSortKey, toLex_inj, Prod.mk.injEq, OrderDual.toDual_inj, UInt64.toNat_inj, hnode]
  tauto

/-- Among the advertisements of one node the sort key orders by age. -/
theorem adSortKey_le_iff {a b : SignedServiceAd Signature} (h : a.nodeId = b.nodeId) :
    adSortKey a ≤ adSortKey b ↔ a.AsNewAs b := by
  simp only [adSortKey, SignedServiceAd.AsNewAs, Prod.Lex.toLex_le_toLex, OrderDual.toDual_lt_toDual,
    OrderDual.toDual_inj, UInt64.lt_iff_toNat_lt, UInt64.le_iff_toNat_le, ← UInt64.toNat_inj, h]
  have := le_refl (b.nodeId.1.map UInt8.toNat)
  constructor
  · rintro (hlt | ⟨heq, hlt | ⟨hexp, -⟩⟩)
    · exact Or.inl hlt
    · exact Or.inr ⟨heq.symm, hlt.le⟩
    · exact Or.inr ⟨heq.symm, hexp.ge⟩
  · rintro (hlt | ⟨heq, hle⟩)
    · exact Or.inl hlt
    · refine Or.inr ⟨heq.symm, ?_⟩
      rcases hle.lt_or_eq with hlt | hexp
      · exact Or.inl hlt
      · exact Or.inr ⟨hexp.symm, this⟩

/-- Byte strings are compared like the numbers of their bytes. -/
theorem map_toNat_lt_iff {l m : List UInt8} : l.map UInt8.toNat < m.map UInt8.toNat ↔ l < m := by
  induction l generalizing m with
  | nil => cases m <;> simp
  | cons b l ih =>
      cases m with
      | nil => simp
      | cons c m =>
          simp only [List.map_cons, List.cons_lt_cons_iff, ih, UInt8.lt_iff_toNat_lt,
            UInt8.toNat_inj]

/-- The order of a merge: published last first, then expiring last first, then by the
bytes of the node. -/
theorem adSortKey_lt_iff {a b : SignedServiceAd Signature} :
    adSortKey a < adSortKey b ↔
      b.publishedAt < a.publishedAt ∨ b.publishedAt = a.publishedAt ∧
        (b.expiresAt < a.expiresAt ∨ b.expiresAt = a.expiresAt ∧ a.nodeId.1 < b.nodeId.1) := by
  simp only [adSortKey, Prod.Lex.toLex_lt_toLex, OrderDual.toDual_lt_toDual, OrderDual.toDual_inj,
    UInt64.lt_iff_toNat_lt, UInt64.toNat_inj, map_toNat_lt_iff]
  rw [eq_comm, @eq_comm _ a.expiresAt]

namespace SignedServiceAd

theorem AsNewAs.refl (a : SignedServiceAd Signature) : a.AsNewAs a :=
  Or.inr ⟨rfl, UInt64.le_refl _⟩

theorem AsNewAs.trans {a b c : SignedServiceAd Signature} (hab : a.AsNewAs b) (hbc : b.AsNewAs c) :
    a.AsNewAs c := by
  simp only [AsNewAs, UInt64.lt_iff_toNat_lt, UInt64.le_iff_toNat_le, ← UInt64.toNat_inj] at *
  omega

end SignedServiceAd

namespace ServiceBucket

/-- Build a new bucket with the current format version. -/
def new (ads : List (SignedServiceAd Signature)) : ServiceBucket Signature :=
  { version := dhtBucketVersion, ads := ads }

/-! ## Merging -/

section Merge

variable (keys : Keys SecretKey PublicKey Signature) (alpn : List UInt8) (minute : UInt64)
  (shard : UInt8) (now : UInt64)

/-- Enter an advertisement into the map of the newest ones by node.  The map is the
list of its values: the final sort forgets their order. -/
def mergeEntry (merged : List (SignedServiceAd Signature)) (ad : SignedServiceAd Signature) :
    List (SignedServiceAd Signature) :=
  Select.upsert SignedServiceAd.nodeId AdPrecedes ad merged

/-- Merge and deduplicate valid ads from multiple bucket replicas. -/
def mergeValid (buckets : List (ServiceBucket Signature)) : List (SignedServiceAd Signature) :=
  let merged := buckets.foldl (fun merged bucket =>
    if bucket.version ≠ dhtBucketVersion then merged
    else bucket.ads.foldl (fun merged ad =>
      if !ad.verify keys alpn minute shard now then merged
      else mergeEntry merged ad) merged) []
  merged.insertionSort fun a b => adSortKey a ≤ adSortKey b

/-- The advertisements a merge takes into account, in the order it meets them. -/
def validAds (buckets : List (ServiceBucket Signature)) : List (SignedServiceAd Signature) :=
  (buckets.filter fun bucket => bucket.version = dhtBucketVersion).flatMap fun bucket =>
    bucket.ads.filter fun ad => ad.verify keys alpn minute shard now

variable {keys alpn minute shard now}

theorem mem_validAds {buckets : List (ServiceBucket Signature)} {ad : SignedServiceAd Signature} :
    ad ∈ validAds keys alpn minute shard now buckets ↔
      ∃ bucket ∈ buckets, bucket.version = dhtBucketVersion ∧ ad ∈ bucket.ads ∧
        ad.verify keys alpn minute shard now = true := by
  simp [validAds, and_assoc]

/-- The loops of a merge, whatever they do with an advertisement, go through the valid
ones. -/
theorem foldl_validAds {β : Type} (enter : β → SignedServiceAd Signature → β) (merged : β)
    (buckets : List (ServiceBucket Signature)) :
    buckets.foldl (fun merged bucket =>
        if bucket.version ≠ dhtBucketVersion then merged
        else bucket.ads.foldl (fun merged ad =>
          if !ad.verify keys alpn minute shard now then merged else enter merged ad) merged) merged
      = (validAds keys alpn minute shard now buckets).foldl enter merged := by
  have hads : ∀ (ads : List (SignedServiceAd Signature)) (merged : β),
      ads.foldl (fun merged ad =>
        if !ad.verify keys alpn minute shard now then merged else enter merged ad) merged
      = (ads.filter fun ad => ad.verify keys alpn minute shard now).foldl enter merged := by
    intro ads merged
    rw [List.foldl_filter]
    congr 1
    funext merged ad
    cases ad.verify keys alpn minute shard now <;> rfl
  induction buckets generalizing merged with
  | nil => rfl
  | cons bucket buckets ih =>
      rw [List.foldl_cons, ih, hads]
      by_cases hversion : bucket.version = dhtBucketVersion
      · simp [validAds, hversion, List.foldl_append]
      · simp [validAds, hversion]

/-- Merging keeps, for each node, the first newest of the valid advertisements. -/
theorem mergeValid_eq_ranked (buckets : List (ServiceBucket Signature)) :
    mergeValid keys alpn minute shard now buckets
      = ranked SignedServiceAd.nodeId adSortKey (validAds keys alpn minute shard now buckets) := by
  unfold mergeValid
  rw [foldl_validAds]
  rfl

theorem nodeId_eq_of_adSortKey_eq (a b : SignedServiceAd Signature)
    (h : adSortKey a = adSortKey b) : a.nodeId = b.nodeId :=
  (adSortKey_eq_iff.mp h).1

/-- A merge returns each node once. -/
theorem nodup_mergeValid (buckets : List (ServiceBucket Signature)) :
    ((mergeValid keys alpn minute shard now buckets).map SignedServiceAd.nodeId).Nodup := by
  rw [mergeValid_eq_ranked]
  exact nodup_keys_ranked _

/-- A merge returns valid advertisements of its buckets only. -/
theorem mem_validAds_of_mem_mergeValid {buckets : List (ServiceBucket Signature)}
    {ad : SignedServiceAd Signature} (h : ad ∈ mergeValid keys alpn minute shard now buckets) :
    ad ∈ validAds keys alpn minute shard now buckets := by
  rw [mergeValid_eq_ranked, mem_ranked] at h
  exact mem_of_mem_select _ _ h

/-- Every valid advertisement is returned or superseded by one of its node. -/
theorem exists_mem_mergeValid {buckets : List (ServiceBucket Signature)}
    {ad : SignedServiceAd Signature} (h : ad ∈ validAds keys alpn minute shard now buckets) :
    ∃ ad' ∈ mergeValid keys alpn minute shard now buckets,
      ad'.nodeId = ad.nodeId ∧ ad'.AsNewAs ad := by
  rcases exists_mem_select SignedServiceAd.nodeId adSortKey h with ⟨ad', hmem, hnode, hle⟩
  refine ⟨ad', ?_, hnode, (adSortKey_le_iff hnode).mp hle⟩
  rw [mergeValid_eq_ranked, mem_ranked]
  exact hmem

end Merge

/-! ## Inserting and trimming -/

/-- Insert or replace a signed advertisement by node id. -/
def upsert (self : ServiceBucket Signature) (ad : SignedServiceAd Signature) :
    ServiceBucket Signature :=
  { self with ads := Select.upsert SignedServiceAd.nodeId AdPrecedes ad self.ads }

/-- The size of the bucket as a DHT value. -/
def encodedLen (keys : Keys SecretKey PublicKey Signature) (self : ServiceBucket Signature) : Nat :=
  ((ServiceBucket.codec keys).encode self).length

/-- Remove the last element that meets the condition. -/
def removeLast {α : Type} (p : α → Bool) : List α → Option (List α)
  | [] => none
  | x :: xs =>
      match removeLast p xs with
      | some ys => some (x :: ys)
      | none => if p x then some xs else none

/-- Drop advertisements of other nodes from the end until the bucket fits.  Every round
drops one, so as many rounds as there are advertisements suffice. -/
def trimLoop (keys : Keys SecretKey PublicKey Signature) (preferredNode : Option NodeId) :
    Nat → ServiceBucket Signature → ServiceBucket Signature × Bool
  | rounds, self =>
      if self.encodedLen keys ≤ dhtMaxBucketBytes then (self, true)
      else
        match removeLast (fun ad => decide (some ad.nodeId ≠ preferredNode)) self.ads, rounds with
        | some ads, rounds + 1 => trimLoop keys preferredNode rounds { self with ads := ads }
        | _, _ => (self, decide (self.encodedLen keys ≤ dhtMaxBucketBytes))

/-- Trim the bucket until it fits the BEP44 value size limit.  The flag is false if the
preferred advertisement alone does not fit. -/
def trimToSize (keys : Keys SecretKey PublicKey Signature) (preferredNode : Option NodeId)
    (self : ServiceBucket Signature) : ServiceBucket Signature × Bool :=
  let ads := self.ads.insertionSort fun a b =>
    preferredAdSortKey preferredNode a ≤ preferredAdSortKey preferredNode b
  trimLoop keys preferredNode ads.length { self with ads := ads }

section Trim

variable {keys : Keys SecretKey PublicKey Signature} {preferredNode : Option NodeId}

/-- Fewer advertisements make a smaller bucket. -/
theorem encodedLen_le_of_subperm {b c : ServiceBucket Signature} (h : b.ads.Subperm c.ads) :
    b.encodedLen keys ≤ c.encodedLen keys := by
  have hads := (SignedServiceAd.codec keys).length_encode_list_le h
  show (_ :: (SignedServiceAd.codec keys).list.encode b.ads).length
    ≤ (_ :: (SignedServiceAd.codec keys).list.encode c.ads).length
  simpa using hads

variable (preferredNode) in
/-- Trimming drops nothing from a bucket that fits. -/
theorem trimToSize_of_fits {self : ServiceBucket Signature}
    (h : self.encodedLen keys ≤ dhtMaxBucketBytes) :
    ∃ ads, ads.Perm self.ads ∧
      self.trimToSize keys preferredNode = ({ self with ads := ads }, true) := by
  let ads := self.ads.insertionSort fun a b =>
    preferredAdSortKey preferredNode a ≤ preferredAdSortKey preferredNode b
  have hperm : ads.Perm self.ads := List.perm_insertionSort _ _
  refine ⟨ads, hperm, ?_⟩
  have hfits : ({ self with ads := ads } : ServiceBucket Signature).encodedLen keys
      ≤ dhtMaxBucketBytes :=
    Nat.le_trans (encodedLen_le_of_subperm hperm.subperm) h
  unfold trimToSize trimLoop
  exact if_pos hfits

theorem sublist_of_removeLast {α : Type} {p : α → Bool} {xs ys : List α}
    (h : removeLast p xs = some ys) : ys.Sublist xs := by
  induction xs generalizing ys with
  | nil => simp [removeLast] at h
  | cons x xs ih =>
      unfold removeLast at h
      split at h <;> rename_i hrest
      · rcases Option.some.inj h with rfl
        exact (ih hrest).cons_cons x
      · split at h
        · rcases Option.some.inj h with rfl
          exact List.sublist_cons_self x xs
        · contradiction

variable (keys preferredNode) in
/-- Trimming only drops advertisements. -/
theorem trimLoop_sublist (rounds : Nat) (self : ServiceBucket Signature) :
    (trimLoop keys preferredNode rounds self).1.version = self.version ∧
      (trimLoop keys preferredNode rounds self).1.ads.Sublist self.ads := by
  induction rounds generalizing self with
  | zero =>
      unfold trimLoop
      split
      · exact ⟨rfl, List.Sublist.refl _⟩
      · cases removeLast (fun ad => decide (some ad.nodeId ≠ preferredNode)) self.ads
          <;> exact ⟨rfl, List.Sublist.refl _⟩
  | succ rounds ih =>
      unfold trimLoop
      split
      · exact ⟨rfl, List.Sublist.refl _⟩
      · cases hremove : removeLast (fun ad => decide (some ad.nodeId ≠ preferredNode)) self.ads with
        | none => exact ⟨rfl, List.Sublist.refl _⟩
        | some ads =>
            rcases ih { self with ads := ads } with ⟨hversion, hsub⟩
            exact ⟨hversion, hsub.trans (sublist_of_removeLast hremove)⟩

theorem trimToSize_subperm (self : ServiceBucket Signature) :
    (self.trimToSize keys preferredNode).1.version = self.version ∧
      (self.trimToSize keys preferredNode).1.ads.Subperm self.ads := by
  obtain ⟨hversion, hsub⟩ := trimLoop_sublist keys preferredNode
    (self.ads.insertionSort fun a b =>
      preferredAdSortKey preferredNode a ≤ preferredAdSortKey preferredNode b).length
    { self with ads := self.ads.insertionSort fun a b =>
      preferredAdSortKey preferredNode a ≤ preferredAdSortKey preferredNode b }
  exact ⟨hversion, hsub.subperm.trans (List.perm_insertionSort _ _).subperm⟩

end Trim

/-! ## The order of the replicas -/

/-- The same buckets with the same advertisements, each in any order. -/
def Rearranged (buckets buckets' : List (ServiceBucket Signature)) : Prop :=
  ∃ shuffled,
    List.Forall₂ (fun b c => c.version = b.version ∧ c.ads.Perm b.ads) buckets shuffled ∧
      buckets'.Perm shuffled

/-- No node has two different newest advertisements among these. -/
def SoleNewest (ads : List (SignedServiceAd Signature)) : Prop :=
  ∀ a ∈ ads, ∀ b ∈ ads, a.nodeId = b.nodeId → a.publishedAt = b.publishedAt →
    a.expiresAt = b.expiresAt → (∀ c ∈ ads, c.nodeId = a.nodeId → a.AsNewAs c) → a = b

section Order

variable {keys : Keys SecretKey PublicKey Signature} {alpn : List UInt8} {minute : UInt64}
  {shard : UInt8} {now : UInt64} {buckets buckets' : List (ServiceBucket Signature)}

/-- A rearrangement meets the same valid advertisements. -/
theorem Rearranged.validAds_perm (h : Rearranged buckets buckets') :
    (validAds keys alpn minute shard now buckets').Perm
      (validAds keys alpn minute shard now buckets) := by
  rcases h with ⟨shuffled, hinner, houter⟩
  have hshuffled : (validAds keys alpn minute shard now shuffled).Perm
      (validAds keys alpn minute shard now buckets) := by
    clear houter
    induction hinner with
    | nil => exact List.Perm.refl _
    | @cons b c bs cs hbc _ ih =>
        rcases hbc with ⟨hversion, hads⟩
        by_cases hcurrent : b.version = dhtBucketVersion
        · simpa [validAds, hversion, hcurrent] using (hads.filter _).append ih
        · simpa [validAds, hversion, hcurrent] using ih
  exact ((houter.filter _).flatMap_right _).trans hshuffled

/-- Any valid advertisement can be the first one met. -/
theorem exists_rearranged_cons {ad : SignedServiceAd Signature}
    (h : ad ∈ validAds keys alpn minute shard now buckets) :
    ∃ buckets' rest, Rearranged buckets buckets' ∧
      validAds keys alpn minute shard now buckets' = ad :: rest := by
  rcases mem_validAds.mp h with ⟨bucket, hbucket, hversion, had, hverify⟩
  rcases List.append_of_mem hbucket with ⟨before, after, rfl⟩
  rcases List.append_of_mem had with ⟨ads, ads', hads⟩
  let front : ServiceBucket Signature := { bucket with ads := ad :: (ads ++ ads') }
  have hfront : front.ads.Perm bucket.ads := hads ▸ List.perm_middle.symm
  have hsame : ∀ bs : List (ServiceBucket Signature),
      List.Forall₂ (fun b c => c.version = b.version ∧ c.ads.Perm b.ads) bs bs := fun bs =>
    List.forall₂_same.mpr fun _ _ => ⟨rfl, List.Perm.refl _⟩
  refine ⟨front :: (before ++ after),
    (ads ++ ads').filter (fun ad => ad.verify keys alpn minute shard now)
      ++ validAds keys alpn minute shard now (before ++ after),
    ⟨before ++ front :: after, ?_, List.perm_middle.symm⟩, ?_⟩
  · exact List.rel_append (hsame before) (.cons ⟨rfl, hfront⟩ (hsame after))
  · simp [validAds, front, hversion, hverify]

/-- If no order of the replicas matters, no node has two newest advertisements: either
of them would be kept when met first. -/
theorem soleNewest_of_rearranged_eq
    (h : ∀ buckets', Rearranged buckets buckets' →
      mergeValid keys alpn minute shard now buckets'
        = mergeValid keys alpn minute shard now buckets) :
    SoleNewest (validAds keys alpn minute shard now buckets) := by
  have hkept : ∀ a ∈ validAds keys alpn minute shard now buckets,
      (∀ c ∈ validAds keys alpn minute shard now buckets, c.nodeId = a.nodeId → a.AsNewAs c) →
      a ∈ mergeValid keys alpn minute shard now buckets := by
    intro a ha hbest
    rcases exists_rearranged_cons ha with ⟨buckets', rest, hre, hvalid⟩
    rw [← h buckets' hre, mergeValid_eq_ranked, mem_ranked, hvalid]
    apply mem_select_cons
    intro c hc hnode
    apply (adSortKey_le_iff hnode.symm).mpr
    have hmem : c ∈ validAds keys alpn minute shard now buckets :=
      (hre.validAds_perm).mem_iff.mp (hvalid ▸ List.mem_cons_of_mem a hc)
    exact hbest c hmem hnode
  intro a ha b hb hnode hpub hexp hbest
  have hbest' : ∀ c ∈ validAds keys alpn minute shard now buckets,
      c.nodeId = b.nodeId → b.AsNewAs c := by
    intro c hc hcnode
    have hac := hbest c hc (hcnode.trans hnode.symm)
    simpa only [SignedServiceAd.AsNewAs, hpub, hexp] using hac
  exact List.inj_on_of_nodup_map (nodup_mergeValid buckets) (hkept a ha hbest)
    (hkept b hb hbest') hnode

end Order

end ServiceBucket

open ServiceBucket

/-- A merge returns an advertisement of exactly the nodes with a valid one, one for each
node and the newest it has, sorted strictly. -/
theorem mergeValid_newest_per_node (keys : Keys SecretKey PublicKey Signature)
    (buckets : List (ServiceBucket Signature)) (alpn : List UInt8) (minute : UInt64)
    (shard : UInt8) (now : UInt64) :
    (∀ node, (∃ ad ∈ mergeValid keys alpn minute shard now buckets, ad.nodeId = node) ↔
      ∃ bucket ∈ buckets, bucket.version = dhtBucketVersion ∧
        ∃ ad ∈ bucket.ads, ad.nodeId = node ∧ ad.verify keys alpn minute shard now = true) ∧
    ((mergeValid keys alpn minute shard now buckets).map SignedServiceAd.nodeId).Nodup ∧
    (∀ ad ∈ mergeValid keys alpn minute shard now buckets,
      (∃ bucket ∈ buckets, bucket.version = dhtBucketVersion ∧ ad ∈ bucket.ads ∧
        ad.verify keys alpn minute shard now = true) ∧
      ∀ bucket ∈ buckets, bucket.version = dhtBucketVersion → ∀ ad' ∈ bucket.ads,
        ad'.nodeId = ad.nodeId → ad'.verify keys alpn minute shard now = true →
          ad.AsNewAs ad') ∧
    (mergeValid keys alpn minute shard now buckets).Pairwise fun a b =>
      b.publishedAt < a.publishedAt ∨ b.publishedAt = a.publishedAt ∧
        (b.expiresAt < a.expiresAt ∨ b.expiresAt = a.expiresAt ∧ a.nodeId.1 < b.nodeId.1) := by
  refine ⟨?_, nodup_mergeValid buckets, ?_, ?_⟩
  · intro node
    constructor
    · rintro ⟨ad, had, hnode⟩
      rcases mem_validAds.mp (mem_validAds_of_mem_mergeValid had) with
        ⟨bucket, hbucket, hversion, hmem, hverify⟩
      exact ⟨bucket, hbucket, hversion, ad, hmem, hnode, hverify⟩
    · rintro ⟨bucket, hbucket, hversion, ad, hmem, hnode, hverify⟩
      rcases exists_mem_mergeValid
        (mem_validAds.mpr ⟨bucket, hbucket, hversion, hmem, hverify⟩) with ⟨ad', had', hsame, -⟩
      exact ⟨ad', had', hsame.trans hnode⟩
  · intro ad had
    refine ⟨mem_validAds.mp (mem_validAds_of_mem_mergeValid had), ?_⟩
    intro bucket hbucket hversion ad' hmem hnode hverify
    rw [mergeValid_eq_ranked, mem_ranked] at had
    apply (adSortKey_le_iff hnode.symm).mp
    apply rank_le_of_mem_select _ _ had _ hnode
    exact mem_validAds.mpr ⟨bucket, hbucket, hversion, hmem, hverify⟩
  · rw [mergeValid_eq_ranked]
    apply (pairwise_ranked nodeId_eq_of_adSortKey_eq _).imp
    intro a b hlt
    exact adSortKey_lt_iff.mp hlt

/-- However the replicas are ordered, a merge returns the same nodes with the same
timestamps; it returns the same advertisements exactly when no node has two different
newest valid ones. -/
theorem mergeValid_rearranged_iff (keys : Keys SecretKey PublicKey Signature)
    (buckets : List (ServiceBucket Signature)) (alpn : List UInt8) (minute : UInt64)
    (shard : UInt8) (now : UInt64) :
    (∀ buckets', Rearranged buckets buckets' →
      (mergeValid keys alpn minute shard now buckets').map
          (fun ad => (ad.nodeId, ad.publishedAt, ad.expiresAt))
        = (mergeValid keys alpn minute shard now buckets).map
          (fun ad => (ad.nodeId, ad.publishedAt, ad.expiresAt))) ∧
    ((∀ buckets', Rearranged buckets buckets' →
      mergeValid keys alpn minute shard now buckets'
        = mergeValid keys alpn minute shard now buckets) ↔
      SoleNewest (validAds keys alpn minute shard now buckets)) := by
  refine ⟨?_, soleNewest_of_rearranged_eq, ?_⟩
  · intro buckets' h
    have hperm : (validAds keys alpn minute shard now buckets').Perm
        (validAds keys alpn minute shard now buckets) := h.validAds_perm
    have hkeys := map_rank_ranked_perm nodeId_eq_of_adSortKey_eq hperm
    rw [← mergeValid_eq_ranked, ← mergeValid_eq_ranked] at hkeys
    rw [← List.forall₂_eq_eq_eq, List.forall₂_map_left_iff, List.forall₂_map_right_iff] at hkeys ⊢
    apply hkeys.imp
    intro a b hab
    rcases adSortKey_eq_iff.mp hab with ⟨hnode, hpub, hexp⟩
    rw [hnode, hpub, hexp]
  · intro hsole buckets' h
    rw [mergeValid_eq_ranked, mergeValid_eq_ranked]
    refine (ranked_perm nodeId_eq_of_adSortKey_eq h.validAds_perm.symm ?_).symm
    intro a ha b hb hrank hbest
    rcases adSortKey_eq_iff.mp hrank with ⟨hnode, hpub, hexp⟩
    exact hsole a ha b hb hnode hpub hexp fun c hc hcnode =>
      (adSortKey_le_iff hcnode.symm).mp (hbest c hc hcnode)

/-- A node that signs twice in one second, with tags and without, is reported with tags
or without as the replicas are ordered. -/
theorem tied_ads_depend_on_order :
    ¬∀ (buckets buckets' : List (ServiceBucket (NodeId × List UInt8))) (alpn : List UInt8)
      (minute : UInt64) (shard : UInt8) (now : UInt64), Rearranged buckets buckets' →
        mergeValid Keys.plain alpn minute shard now buckets'
          = mergeValid Keys.plain alpn minute shard now buckets := by
  intro h
  let ad (tags : List String) := SignedServiceAd.sign Keys.plain (repeatedId 9) [] 55 2 tags 200 320
  have hverify : ∀ tags, (ad tags).verify Keys.plain [] 55 2 210 = true := fun tags =>
    (SignedServiceAd.verify_sign_iff_live ..).mpr
      ⟨show (200 : UInt64) ≤ 320 by decide, show (210 : UInt64) < 320 by decide,
        show 200 ≤ saturatingAdd 210 maxFutureSkewSecs by decide⟩
  have hvalid : ∀ tags ∈ [[], ["old"]], ad tags ∈ validAds Keys.plain [] 55 2 210
      [ServiceBucket.new [ad [], ad ["old"]]] := by
    intro tags htags
    refine mem_validAds.mpr ⟨_, List.mem_singleton_self _, rfl, ?_, hverify tags⟩
    exact List.mem_map_of_mem (f := ad) htags
  have hsole := soleNewest_of_rearranged_eq fun buckets' => h
    [ServiceBucket.new [ad [], ad ["old"]]] buckets' [] 55 2 210
  have heq := hsole (ad []) (hvalid _ (by simp)) (ad ["old"]) (hvalid _ (by simp)) rfl rfl rfl ?_
  · exact absurd (congrArg (fun a => a.ad.tags) heq) (by simp [ad, SignedServiceAd.sign])
  · intro c hc _
    rcases mem_validAds.mp hc with ⟨_, hb, _, hads, _⟩
    rcases List.mem_singleton.mp hb with rfl
    rcases List.mem_cons.mp hads with rfl | hads
    · exact SignedServiceAd.AsNewAs.refl _
    · rcases List.mem_singleton.mp hads with rfl
      exact Or.inr ⟨rfl, UInt64.le_refl _⟩

end IrohTransport.Swarm
