import IrohTransport.Swarm.Dht

/-!
# Choosing shards and keeping names apart

A node ranks all shards by a hash of itself, the service and the shard, and publishes
into the first ones: a rendezvous choice, in which limits that differ between nodes
matter as little as possible.  What is hashed for the choice, for the signing key of a
bucket and for its salt begins with a constant and has one part of variable length, so
that no two of these texts are equal.

Main results:

- Theorem {lit}`insertionSort_concat`: sorting one more element leaves the others in
  their order.
- Theorem {lit}`shard_choice_is_rendezvous`: how many shards are chosen, and how the
  choice changes with the limits.
- Theorem {lit}`dht_namespaces_are_disjoint`: no two texts hashed for different things
  are equal.
-/

namespace IrohTransport.Swarm

/-! ## Sorted lists and their beginnings -/

section Sorted

variable {α : Type}

/-- Sorting one more element puts it somewhere between the others. -/
theorem insertionSort_concat (r : α → α → Prop) [DecidableRel r] [IsTrans α r] [Std.Total r]
    [Std.Antisymm r] (l : List α) (x : α) :
    ∃ before after, l.insertionSort r = before ++ after ∧
      (l ++ [x]).insertionSort r = before ++ x :: after := by
  have hmem : x ∈ (l ++ [x]).insertionSort r := (List.mem_insertionSort r).mpr (by simp)
  rcases List.append_of_mem hmem with ⟨before, after, hsplit⟩
  refine ⟨before, after, ?_, hsplit⟩
  have hperm : (x :: l.insertionSort r).Perm (x :: (before ++ after)) := by
    have hsorted := (List.perm_insertionSort r (l ++ [x])).symm
    rw [hsplit] at hsorted
    exact (((List.perm_insertionSort r l).cons x).trans
      (List.perm_append_singleton x l).symm).trans (hsorted.trans List.perm_middle)
  have hsorted := List.pairwise_insertionSort r (l ++ [x])
  rw [hsplit] at hsorted
  have hrest : (before ++ after).Pairwise r :=
    hsorted.sublist ((List.sublist_cons_self x after).append_left before)
  refine List.Perm.eq_of_pairwise ?_ (List.pairwise_insertionSort r l) hrest hperm.cons_inv
  intro a b _ _ hab hba
  exact antisymm hab hba

/-- An element put into a list leaves its first elements alone or takes the place of the
last of them. -/
theorem take_inserted [DecidableEq α] {before : List α} (after : List α) {x : α}
    (hx : x ∉ before) (k : Nat) :
    (before ++ x :: after).take k = (before ++ after).take k ∨
      x ∈ (before ++ x :: after).take k ∧
        ((before ++ x :: after).take k).erase x = (before ++ after).take (k - 1) := by
  rcases Nat.lt_or_ge before.length k with hlt | hle
  · obtain ⟨j, rfl⟩ : ∃ j, k = before.length + (j + 1) := ⟨k - before.length - 1, by omega⟩
    have htake : (before ++ x :: after).take (before.length + (j + 1))
        = before ++ x :: after.take j := by
      rw [List.take_length_add_append, List.take_succ_cons]
    refine .inr ⟨by simp [htake], ?_⟩
    rw [htake, List.erase_append_right _ hx, List.erase_cons_head,
      show before.length + (j + 1) - 1 = before.length + j by omega, List.take_length_add_append]
  · refine .inl ?_
    rw [List.take_append_of_le_length hle, List.take_append_of_le_length hle]

end Sorted

/-! ## The choice of shards -/

section Choice

variable {Digest : Type} (sha256 : List UInt8 → Digest)

/-- What is hashed to rank a shard for a node and a service. -/
def shardPreimage (nodeId : NodeId) (alpn : List UInt8) (shard : UInt8) : List UInt8 :=
  ascii "tonic-iroh-transport:dht:shards:v3:" ++ nodeId.1 ++ alpn ++ [shard]

/-- The hash by which a shard is ranked. -/
def rankingHash (nodeId : NodeId) (alpn : List UInt8) (shard : UInt8) : Digest :=
  sha256 (shardPreimage nodeId alpn shard)

variable [LinearOrder Digest]

/-- A shard ranks before another by its hash, or by its number if the hashes agree. -/
def RanksBefore (left right : Digest × UInt8) : Prop :=
  left.1 < right.1 ∨ left.1 = right.1 ∧ left.2 ≤ right.2

instance : DecidableRel (α := Digest × UInt8) RanksBefore := fun left right =>
  inferInstanceAs (Decidable (left.1 < right.1 ∨ left.1 = right.1 ∧ left.2 ≤ right.2))

instance : IsTrans (Digest × UInt8) RanksBefore where
  trans := by
    rintro a b c (hab | ⟨hab, hab'⟩) (hbc | ⟨hbc, hbc'⟩)
    · exact .inl (hab.trans hbc)
    · exact .inl (hbc ▸ hab)
    · exact .inl (hab ▸ hbc)
    · exact .inr ⟨hab.trans hbc, UInt8.le_trans hab' hbc'⟩

instance : Std.Total (α := Digest × UInt8) RanksBefore where
  total := by
    intro a b
    rcases lt_trichotomy a.1 b.1 with hlt | heq | hgt
    · exact .inl (.inl hlt)
    · rcases UInt8.le_total a.2 b.2 with hle | hle
      · exact .inl (.inr ⟨heq, hle⟩)
      · exact .inr (.inr ⟨heq.symm, hle⟩)
    · exact .inr (.inl hgt)

instance : Std.Antisymm (α := Digest × UInt8) RanksBefore where
  antisymm := by
    rintro ⟨d, s⟩ ⟨d', s'⟩ (hlt | ⟨heq, hle⟩) (hlt' | ⟨heq', hle'⟩)
    · exact (lt_asymm hlt hlt').elim
    · exact (hlt.ne heq'.symm).elim
    · exact (hlt'.ne heq.symm).elim
    · exact Prod.ext heq (UInt8.le_antisymm hle hle')

/-- The first shards with their hashes. -/
def hashedShards (nodeId : NodeId) (alpn : List UInt8) (count : Nat) : List (Digest × UInt8) :=
  (List.range count).map fun shard =>
    (rankingHash sha256 nodeId alpn (UInt8.ofNat shard), UInt8.ofNat shard)

/-- The ranking of the shards sorts them by their hashes. -/
theorem rankedShards_eq (nodeId : NodeId) (alpn : List UInt8) (shardCount : UInt8) :
    rankedShards sha256 nodeId alpn shardCount
      = (hashedShards sha256 nodeId alpn shardCount.toNat).insertionSort RanksBefore :=
  rfl

/-- The shards in the order of their ranks. -/
def shardOrder (nodeId : NodeId) (alpn : List UInt8) (shardCount : UInt8) : List UInt8 :=
  (rankedShards sha256 nodeId alpn shardCount).map Prod.snd

variable {sha256} {nodeId : NodeId} {alpn : List UInt8} {shardCount : UInt8}

/-- The order of the shards has each of them once. -/
theorem shardOrder_perm :
    (shardOrder sha256 nodeId alpn shardCount).Perm
      ((List.range shardCount.toNat).map UInt8.ofNat) := by
  have hperm := (List.perm_insertionSort RanksBefore
    (hashedShards sha256 nodeId alpn shardCount.toNat)).map Prod.snd
  rw [shardOrder, rankedShards_eq]
  simpa [hashedShards, List.map_map, Function.comp_def] using hperm

@[simp] theorem length_shardOrder :
    (shardOrder sha256 nodeId alpn shardCount).length = shardCount.toNat := by
  have hperm : (shardOrder sha256 nodeId alpn shardCount).Perm _ := shardOrder_perm
  simpa using hperm.length_eq

theorem mem_shardOrder {shard : UInt8} :
    shard ∈ shardOrder sha256 nodeId alpn shardCount ↔ shard < shardCount := by
  rw [shardOrder_perm.mem_iff, List.mem_map, UInt8.lt_iff_toNat_lt]
  constructor
  · rintro ⟨i, hi, rfl⟩
    rw [List.mem_range] at hi
    rwa [UInt8.toNat_ofNat_of_lt' (Nat.lt_trans hi shardCount.toNat_lt)]
  · intro hlt
    exact ⟨shard.toNat, List.mem_range.mpr hlt, UInt8.ofNat_toNat⟩

theorem nodup_shardOrder : (shardOrder sha256 nodeId alpn shardCount).Nodup := by
  rw [shardOrder_perm.nodup_iff]
  apply List.Nodup.map_on _ List.nodup_range
  intro i hi j hj heq
  rw [List.mem_range] at hi hj
  have htoNat := congrArg UInt8.toNat heq
  rwa [UInt8.toNat_ofNat_of_lt' (Nat.lt_trans hi shardCount.toNat_lt),
    UInt8.toNat_ofNat_of_lt' (Nat.lt_trans hj shardCount.toNat_lt)] at htoNat

/-- The choice is the beginning of the order. -/
theorem replicaShardsWithLimits_eq (replicaCount : Nat) :
    replicaShardsWithLimits sha256 nodeId alpn shardCount replicaCount
      = (shardOrder sha256 nodeId alpn shardCount).take replicaCount := by
  have htake := List.take_eq_take_min (l := shardOrder sha256 nodeId alpn shardCount)
    (i := replicaCount)
  rw [length_shardOrder] at htake
  rw [htake, shardOrder, ← List.map_take]
  rfl

/-- One shard more takes its place in the order and moves no other. -/
theorem shardOrder_succ (sha256 : List UInt8 → Digest) (nodeId : NodeId) (alpn : List UInt8)
    {shardCount grown : UInt8} (hgrown : grown.toNat = shardCount.toNat + 1) :
    ∃ before after, shardOrder sha256 nodeId alpn shardCount = before ++ after ∧
      shardOrder sha256 nodeId alpn grown = before ++ shardCount :: after := by
  rcases insertionSort_concat RanksBefore (hashedShards sha256 nodeId alpn shardCount.toNat)
    (rankingHash sha256 nodeId alpn shardCount, shardCount) with ⟨before, after, hold, hnew⟩
  have hhashed : hashedShards sha256 nodeId alpn grown.toNat
      = hashedShards sha256 nodeId alpn shardCount.toNat
        ++ [(rankingHash sha256 nodeId alpn shardCount, shardCount)] := by
    simp [hashedShards, hgrown, List.range_succ]
  refine ⟨before.map Prod.snd, after.map Prod.snd, ?_, ?_⟩
  · rw [shardOrder, rankedShards_eq, hold, List.map_append]
  · rw [shardOrder, rankedShards_eq, hhashed, hnew, List.map_append, List.map_cons]

end Choice

/-- As many shards are chosen as asked for and available, all different and in range.
Asking for more only adds to the end of the choice.  One shard more changes nothing, or
it is chosen itself and the others are those chosen before, less the last of them if there
was no room. -/
theorem shard_choice_is_rendezvous {Digest : Type} [LinearOrder Digest]
    (sha256 : List UInt8 → Digest) (nodeId : NodeId) (alpn : List UInt8) (shardCount : UInt8)
    (replicaCount : Nat) :
    (replicaShardsWithLimits sha256 nodeId alpn shardCount replicaCount).length
        = min replicaCount shardCount.toNat ∧
      (replicaShardsWithLimits sha256 nodeId alpn shardCount replicaCount).Nodup ∧
      (∀ shard ∈ replicaShardsWithLimits sha256 nodeId alpn shardCount replicaCount,
        shard < shardCount) ∧
      replicaShardsWithLimits sha256 nodeId alpn shardCount replicaCount
        <+: replicaShardsWithLimits sha256 nodeId alpn shardCount (replicaCount + 1) ∧
      ∀ grown : UInt8, grown.toNat = shardCount.toNat + 1 →
        replicaShardsWithLimits sha256 nodeId alpn grown replicaCount
            = replicaShardsWithLimits sha256 nodeId alpn shardCount replicaCount ∨
          shardCount ∈ replicaShardsWithLimits sha256 nodeId alpn grown replicaCount ∧
          (replicaShardsWithLimits sha256 nodeId alpn grown replicaCount).erase shardCount
            = if replicaCount ≤ shardCount.toNat then
                (replicaShardsWithLimits sha256 nodeId alpn shardCount replicaCount).dropLast
              else replicaShardsWithLimits sha256 nodeId alpn shardCount replicaCount := by
  simp only [replicaShardsWithLimits_eq]
  refine ⟨by simp, nodup_shardOrder.sublist (List.take_sublist _ _), ?_, ?_, ?_⟩
  · intro shard hmem
    exact mem_shardOrder.mp (List.mem_of_mem_take hmem)
  · exact List.take_prefix_take_left (Nat.le_succ replicaCount)
  · intro grown hgrown
    rcases shardOrder_succ sha256 nodeId alpn hgrown with ⟨before, after, hold, hnew⟩
    have hx : shardCount ∉ before := by
      have hnodup : (shardOrder sha256 nodeId alpn grown).Nodup := nodup_shardOrder
      rw [hnew] at hnodup
      exact fun hmem => (List.nodup_append.mp hnodup).2.2 _ hmem _ List.mem_cons_self rfl
    have hlength : (before ++ after).length = shardCount.toNat := by
      rw [← hold, length_shardOrder]
    rw [hnew, hold]
    rcases take_inserted after hx replicaCount with hsame | ⟨hmem, herase⟩
    · exact .inl hsame
    · refine .inr ⟨hmem, herase.trans ?_⟩
      split <;> rename_i hroom
      · rw [List.dropLast_eq_take, List.length_take, List.take_take, hlength,
          show min (min replicaCount shardCount.toNat - 1) replicaCount = replicaCount - 1 by omega]
      · rw [List.take_of_length_le (by omega), List.take_of_length_le (by omega)]

/-! ## What is hashed -/

/-- The fixed widths around the service leave one reading of what is hashed for a shard. -/
theorem shardPreimage_injective {nodeId nodeId' : NodeId} {alpn alpn' : List UInt8}
    {shard shard' : UInt8}
    (h : shardPreimage nodeId alpn shard = shardPreimage nodeId' alpn' shard') :
    nodeId = nodeId' ∧ alpn = alpn' ∧ shard = shard' := by
  rcases List.append_inj' h rfl with ⟨hinit, hshard⟩
  have hsame : nodeId.1.length = nodeId'.1.length := nodeId.2.trans nodeId'.2.symm
  rcases List.append_inj hinit (by simp [hsame]) with ⟨hnode, halpn⟩
  exact ⟨Subtype.ext (List.append_cancel_left hnode), halpn, List.singleton_inj.mp hshard⟩

/-- Texts whose constants differ early are different, whatever follows. -/
theorem append_ne_of_take_ne {l m rest rest' : List UInt8} (n : Nat) (hl : n ≤ l.length)
    (hm : n ≤ m.length) (h : l.take n ≠ m.take n) : l ++ rest ≠ m ++ rest' := by
  intro heq
  apply h
  rw [← @List.take_append_of_le_length _ l rest n hl, heq, List.take_append_of_le_length hm]

/-- What is hashed for a signing key is not what is hashed for a salt. -/
theorem keyPreimage_ne_saltPreimage {alpn alpn' : List UInt8} {minute minute' : UInt64}
    {shard shard' : UInt8} :
    bucketPreimage "tonic-iroh-transport:dht:key:v2:" alpn minute shard
      ≠ bucketPreimage "tonic-iroh-transport:dht:salt:v2:" alpn' minute' shard' := by
  simp only [bucketPreimage, List.append_assoc]
  exact append_ne_of_take_ne 27 (by decide) (by decide) (by decide)

/-- What is hashed for a signing key is not what is hashed for a shard. -/
theorem keyPreimage_ne_shardPreimage {alpn alpn' : List UInt8} {minute : UInt64}
    {nodeId : NodeId} {shard shard' : UInt8} :
    bucketPreimage "tonic-iroh-transport:dht:key:v2:" alpn minute shard
      ≠ shardPreimage nodeId alpn' shard' := by
  simp only [bucketPreimage, shardPreimage, List.append_assoc]
  exact append_ne_of_take_ne 27 (by decide) (by decide) (by decide)

/-- What is hashed for a salt is not what is hashed for a shard. -/
theorem saltPreimage_ne_shardPreimage {alpn alpn' : List UInt8} {minute : UInt64}
    {nodeId : NodeId} {shard shard' : UInt8} :
    bucketPreimage "tonic-iroh-transport:dht:salt:v2:" alpn minute shard
      ≠ shardPreimage nodeId alpn' shard' := by
  simp only [bucketPreimage, shardPreimage, List.append_assoc]
  exact append_ne_of_take_ne 27 (by decide) (by decide) (by decide)

/-- The texts hashed for signing keys, for salts and for the ranks of shards determine what
they are about, and no text is of two of these kinds.  Under a collision-free hash the
buckets of different services, minutes or shards share neither key nor salt, and the seed
of a key is neither a salt nor the rank of a shard. -/
theorem dht_namespaces_are_disjoint {Digest : Type} (sha256 : List UInt8 → Digest) :
    (∀ (domain : String) (alpn alpn' : List UInt8) (minute minute' : UInt64)
        (shard shard' : UInt8),
      domain = "tonic-iroh-transport:dht:key:v2:" ∨ domain = "tonic-iroh-transport:dht:salt:v2:" →
      bucketPreimage domain alpn minute shard = bucketPreimage domain alpn' minute' shard' →
      alpn = alpn' ∧ minute = minute' ∧ shard = shard') ∧
    (∀ (nodeId nodeId' : NodeId) (alpn alpn' : List UInt8) (shard shard' : UInt8),
      shardPreimage nodeId alpn shard = shardPreimage nodeId' alpn' shard' →
      nodeId = nodeId' ∧ alpn = alpn' ∧ shard = shard') ∧
    (∀ (alpn alpn' : List UInt8) (minute minute' : UInt64) (nodeId : NodeId)
        (shard shard' : UInt8),
      bucketPreimage "tonic-iroh-transport:dht:key:v2:" alpn minute shard
          ≠ bucketPreimage "tonic-iroh-transport:dht:salt:v2:" alpn' minute' shard' ∧
        bucketPreimage "tonic-iroh-transport:dht:key:v2:" alpn minute shard
          ≠ shardPreimage nodeId alpn' shard' ∧
        bucketPreimage "tonic-iroh-transport:dht:salt:v2:" alpn minute shard
          ≠ shardPreimage nodeId alpn' shard') ∧
    (Function.Injective sha256 →
      ∀ (alpn alpn' : List UInt8) (minute minute' : UInt64) (nodeId : NodeId)
        (shard shard' : UInt8),
      ((alpn, minute, shard) ≠ (alpn', minute', shard') →
        deriveSigningKey sha256 alpn minute shard ≠ deriveSigningKey sha256 alpn' minute' shard' ∧
        deriveSalt sha256 alpn minute shard ≠ deriveSalt sha256 alpn' minute' shard') ∧
      deriveSigningKey sha256 alpn minute shard ≠ deriveSalt sha256 alpn' minute' shard' ∧
      deriveSigningKey sha256 alpn minute shard ≠ rankingHash sha256 nodeId alpn' shard') := by
  refine ⟨?_, ?_, ?_, ?_⟩
  · intro _ _ _ _ _ _ _ _ h
    exact bucketPreimage_injective h
  · intro _ _ _ _ _ _ h
    exact shardPreimage_injective h
  · intro alpn alpn' minute minute' nodeId shard shard'
    exact ⟨keyPreimage_ne_saltPreimage, keyPreimage_ne_shardPreimage,
      saltPreimage_ne_shardPreimage⟩
  · intro hsha alpn alpn' minute minute' nodeId shard shard'
    have hdiffer : ∀ domain, bucketPreimage domain alpn minute shard
        = bucketPreimage domain alpn' minute' shard' →
        (alpn, minute, shard) = (alpn', minute', shard') := by
      intro domain h
      obtain ⟨rfl, rfl, rfl⟩ := bucketPreimage_injective h
      rfl
    refine ⟨?_, ?_, ?_⟩
    · intro hne
      exact ⟨fun h => hne (hdiffer _ (hsha h)), fun h => hne (hdiffer _ (hsha h))⟩
    · exact hsha.ne keyPreimage_ne_saltPreimage
    · exact hsha.ne keyPreimage_ne_shardPreimage

end IrohTransport.Swarm
