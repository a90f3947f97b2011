import IrohTransport.Swarm.Record
import Mathlib.Data.List.Sort

/-!
# Shards, minutes and addresses

Where the advertisements of a service go.  Each service has sixteen shard buckets for
every minute; the address of a bucket is derived from the service, the minute and the
shard by hashing, and a node publishes into the shards that rank first under a hash of
its identity.  The hash enters as a parameter with values in an ordered type.

Main results:

- Theorem {lit}`deriveSalt_injective`: under a collision-free hash different buckets
  have different addresses.
- Theorem {lit}`replicaShards_lt` and {lit}`replicaShards_ne_nil`: a node has a shard,
  and its shards are among those that readers query.
- Theorem {lit}`toNat_unixMinute_zero` and {lit}`toNat_unixMinute_prev`: the minutes
  that readers query.
-/

namespace IrohTransport.Swarm

def dhtShardCount : UInt8 := 16

def dhtReplicaCount : Nat := 2

def dhtPublishRetries : Nat := 4

def dhtAdTtlSecs : UInt64 := 120

/-! ## Clocks -/

/-- A reading of the system clock in seconds, early enough for an advertisement's time
to live to end within the range of {lit}`u64`. -/
structure UnixTime where
  secs : UInt64
  bound : secs.toNat + 120 < 2 ^ 64

/-- Move a minute by an offset, stopping at the ends of the range. -/
def applyMinuteOffset (minute : UInt64) (offset : Int64) : UInt64 :=
  if offset ≥ 0 then saturatingAdd minute (UInt64.ofNat offset.toInt.natAbs)
  else UInt64.ofNat (minute.toNat - offset.toInt.natAbs)

/-- The minute of a clock reading with an offset. -/
def unixMinute (now : UnixTime) (offset : Int64) : UInt64 :=
  applyMinuteOffset (now.secs / 60) offset

@[simp] theorem toNat_unixMinute_zero (now : UnixTime) :
    (unixMinute now 0).toNat = now.secs.toNat / 60 := by
  have hbound := now.bound
  simp [unixMinute, applyMinuteOffset]
  omega

@[simp] theorem toNat_unixMinute_prev (now : UnixTime) :
    (unixMinute now (-1)).toNat = now.secs.toNat / 60 - 1 := by
  have hbound := now.bound
  have hneg : ¬(-1 : Int64) ≥ 0 := by decide
  have habs : (-1 : Int64).toInt.natAbs = 1 := by decide
  rw [unixMinute, applyMinuteOffset, if_neg hneg, habs, UInt64.toNat_ofNat_of_lt',
    UInt64.toNat_div]
  · rfl
  · show _ < 2 ^ 64
    have := (now.secs / 60).toNat_lt
    omega

/-! ## Addresses -/

section Hash

variable {Digest : Type} (sha256 : List UInt8 → Digest)

/-- The little-endian bytes of a {lit}`u64`. -/
def toLeBytes (n : UInt64) : List UInt8 := Codec.leBytes 8 n.toNat

/-- The bytes of a text, as in a byte string literal. -/
def ascii (text : String) : List UInt8 := text.toByteArray.data.toList

/-- What is hashed for a bucket under a domain prefix. -/
def bucketPreimage (domain : String) (alpn : List UInt8) (minute : UInt64) (shard : UInt8) :
    List UInt8 :=
  ascii domain ++ alpn ++ toLeBytes minute ++ [shard]

/-- Derive the shared shard signing key from service ALPN, unix minute, and shard
index. -/
def deriveSigningKey (alpn : List UInt8) (minute : UInt64) (shard : UInt8) : Digest :=
  sha256 (bucketPreimage "tonic-iroh-transport:dht:key:v2:" alpn minute shard)

/-- Derive salt for a service shard bucket. -/
def deriveSalt (alpn : List UInt8) (minute : UInt64) (shard : UInt8) : Digest :=
  sha256 (bucketPreimage "tonic-iroh-transport:dht:salt:v2:" alpn minute shard)

/-- The fixed widths at the end leave one reading of what is hashed. -/
theorem bucketPreimage_injective {domain : String} {alpn alpn' : List UInt8}
    {minute minute' : UInt64} {shard shard' : UInt8}
    (h : bucketPreimage domain alpn minute shard = bucketPreimage domain alpn' minute' shard') :
    alpn = alpn' ∧ minute = minute' ∧ shard = shard' := by
  rcases List.append_inj' h rfl with ⟨hinit, hshard⟩
  rcases List.append_inj' hinit (by simp [toLeBytes]) with ⟨halpn, hminute⟩
  refine ⟨List.append_cancel_left halpn, ?_, List.singleton_inj.mp hshard⟩
  have hlt : ∀ n : UInt64, n.toNat < 256 ^ 8 := fun n => n.toNat_lt
  exact UInt64.toNat_inj.mp (Codec.leBytes_injOn (hlt _) (hlt _) hminute)

/-- Under a collision-free hash different buckets have different salts. -/
theorem deriveSalt_injective (hsha : Function.Injective sha256) {alpn alpn' : List UInt8}
    {minute minute' : UInt64} {shard shard' : UInt8}
    (h : deriveSalt sha256 alpn minute shard = deriveSalt sha256 alpn' minute' shard') :
    alpn = alpn' ∧ minute = minute' ∧ shard = shard' :=
  bucketPreimage_injective (hsha h)

/-! ## Shard selection -/

variable [LinearOrder Digest]

/-- Every shard with its hash for the node, lowest hash first. -/
def rankedShards (nodeId : NodeId) (alpn : List UInt8) (shardCount : UInt8) :
    List (Digest × UInt8) :=
  let hashed := (List.range shardCount.toNat).map fun shard =>
    (sha256 (ascii "tonic-iroh-transport:dht:shards:v3:" ++ nodeId.1 ++ alpn ++ [UInt8.ofNat shard]),
      UInt8.ofNat shard)
  hashed.insertionSort fun left right => left.1 < right.1 ∨ left.1 = right.1 ∧ left.2 ≤ right.2

/-- The shards that rank first, as many as asked for and available. -/
def replicaShardsWithLimits (nodeId : NodeId) (alpn : List UInt8) (shardCount : UInt8)
    (replicaCount : Nat) : List UInt8 :=
  let replicaCount := min replicaCount shardCount.toNat
  ((rankedShards sha256 nodeId alpn shardCount).take replicaCount).map Prod.snd

/-- Deterministically choose the shards this node should publish into for a service. -/
def replicaShards (nodeId : NodeId) (alpn : List UInt8) : List UInt8 :=
  replicaShardsWithLimits sha256 nodeId alpn dhtShardCount dhtReplicaCount

/-- A node's shards are among those that readers query. -/
theorem replicaShards_lt {nodeId : NodeId} {alpn : List UInt8} {shard : UInt8}
    (h : shard ∈ replicaShards sha256 nodeId alpn) : shard.toNat < dhtShardCount.toNat := by
  rcases List.mem_map.mp h with ⟨⟨digest, s⟩, htake, rfl⟩
  have hmem := (List.mem_insertionSort _).mp (List.mem_of_mem_take htake)
  rcases List.mem_map.mp hmem with ⟨i, hi, heq⟩
  rw [List.mem_range] at hi
  have hshard : UInt8.ofNat i = s := (Prod.mk.inj heq).2
  rw [← hshard, UInt8.toNat_ofNat_of_lt' (Nat.lt_trans hi dhtShardCount.toNat_lt)]
  exact hi

/-- Every node has a shard. -/
theorem replicaShards_ne_nil (nodeId : NodeId) (alpn : List UInt8) :
    replicaShards sha256 nodeId alpn ≠ [] := by
  rw [← List.length_pos_iff_ne_nil]
  simp [replicaShards, replicaShardsWithLimits, rankedShards, dhtReplicaCount, dhtShardCount]

end Hash

end IrohTransport.Swarm
