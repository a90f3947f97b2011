import IrohTransport.Lib.Codec

/-!
# Signed service advertisements

The records a node leaves in the DHT.  An advertisement names its node, its tags and
its lifetime, and carries the node's signature over an envelope that also fixes the
service, the minute and the shard it was made for.  The keys are those of iroh: they
enter as functions on byte strings together with the two laws the code relies on.

Main results:

- Theorem {lit}`signingMessage_injective`: the signed bytes determine every field of
  the envelope.
- Theorem {lit}`SignedServiceAd.verify_eq_true_iff`: what a verified advertisement
  has passed.
- Theorem {lit}`signature_binds_ad`: under an ideal scheme a signature is good for
  the advertisement and the namespace it was made for and for nothing else.
-/

namespace IrohTransport.Swarm

/-- Format version of buckets and envelopes. -/
def dhtBucketVersion : UInt8 := 2

/-- How many bytes a BEP44 value may take. -/
def dhtMaxBucketBytes : Nat := 1000

/-- How far ahead of the reader's clock an advertisement may be dated. -/
def maxFutureSkewSecs : UInt64 := 300

/-- Addition of {lit}`u64` that stops at the largest value. -/
def saturatingAdd (a b : UInt64) : UInt64 :=
  UInt64.ofNat (min (a.toNat + b.toNat) (2 ^ 64 - 1))

@[simp] theorem toNat_saturatingAdd (a b : UInt64) :
    (saturatingAdd a b).toNat = min (a.toNat + b.toNat) (2 ^ 64 - 1) := by
  rw [saturatingAdd, UInt64.toNat_ofNat_of_lt']
  show _ < 2 ^ 64
  omega

/-! ## Identities -/

/-- The 32 bytes of an iroh identity. -/
abbrev NodeId := {l : List UInt8 // l.length = 32}

/-- What the records need of iroh's keys.  Signatures have an encoding of their own,
public keys round-trip through their bytes, and a key's signature is good for the
message it signed. -/
structure Keys (SecretKey PublicKey Signature : Type) where
  publicKey : SecretKey → PublicKey
  asBytes : PublicKey → NodeId
  fromBytes : NodeId → Option PublicKey
  sign : SecretKey → List UInt8 → Signature
  verify : PublicKey → List UInt8 → Signature → Bool
  signature : Codec Signature
  fromBytes_asBytes : ∀ p, fromBytes (asBytes p) = some p
  verify_sign : ∀ k m, verify (publicKey k) m (sign k m) = true

variable {SecretKey PublicKey Signature : Type}

/-- Identities are told apart by their bytes. -/
theorem Keys.asBytes_injective (keys : Keys SecretKey PublicKey Signature) :
    Function.Injective keys.asBytes := by
  intro p q h
  have hp := keys.fromBytes_asBytes p
  rw [h, keys.fromBytes_asBytes q] at hp
  exact (Option.some.inj hp).symm

/-- No signature is good for another key or another message. -/
def Keys.Ideal (keys : Keys SecretKey PublicKey Signature) : Prop :=
  ∀ k m₀ p m, keys.verify p m (keys.sign k m₀) = true ↔ p = keys.publicKey k ∧ m = m₀

/-! ## Records -/

/-- The unsigned service advertisement payload. -/
@[ext]
structure ServiceAd where
  nodeId : NodeId
  tags : List String
  publishedAt : UInt64
  expiresAt : UInt64
deriving DecidableEq

/-- A single signed service advertisement stored inside a DHT shard bucket. -/
structure SignedServiceAd (Signature : Type) where
  ad : ServiceAd
  signature : Signature
deriving DecidableEq

/-- A bounded, shared mutable bucket of signed service advertisements. -/
structure ServiceBucket (Signature : Type) where
  version : UInt8
  ads : List (SignedServiceAd Signature)
deriving DecidableEq

/-- What a node signs: the advertisement and the namespace it is made for. -/
structure ServiceAdEnvelope where
  version : UInt8
  alpn : List UInt8
  minute : UInt64
  shard : UInt8
  nodeId : NodeId
  tags : List String
  publishedAt : UInt64
  expiresAt : UInt64

/-- The wire format of an advertisement. -/
def ServiceAd.codec : Codec ServiceAd :=
  ((Codec.byte.array 32).pair (Codec.string.list.pair (Codec.u64.pair Codec.u64))).refine
    (fun ad => (ad.nodeId, ad.tags, ad.publishedAt, ad.expiresAt))
    (fun x => some ⟨x.1, x.2.1, x.2.2.1, x.2.2.2⟩)
    (fun _ => rfl)

/-- The wire format of a signed advertisement. -/
def SignedServiceAd.codec (keys : Keys SecretKey PublicKey Signature) :
    Codec (SignedServiceAd Signature) :=
  (ServiceAd.codec.pair keys.signature).refine
    (fun ad => (ad.ad, ad.signature))
    (fun x => some ⟨x.1, x.2⟩)
    (fun _ => rfl)

/-- The wire format of a bucket. -/
def ServiceBucket.codec (keys : Keys SecretKey PublicKey Signature) :
    Codec (ServiceBucket Signature) :=
  (Codec.byte.pair (SignedServiceAd.codec keys).list).refine
    (fun bucket => (bucket.version, bucket.ads))
    (fun x => some ⟨x.1, x.2⟩)
    (fun _ => rfl)

/-- The wire format of an envelope. -/
def ServiceAdEnvelope.codec : Codec ServiceAdEnvelope :=
  (Codec.byte.pair <| Codec.byte.list.pair <| Codec.u64.pair <| Codec.byte.pair <|
    (Codec.byte.array 32).pair <| Codec.string.list.pair <| Codec.u64.pair Codec.u64).refine
    (fun e => (e.version, e.alpn, e.minute, e.shard, e.nodeId, e.tags, e.publishedAt,
      e.expiresAt))
    (fun x => some ⟨x.1, x.2.1, x.2.2.1, x.2.2.2.1, x.2.2.2.2.1, x.2.2.2.2.2.1,
      x.2.2.2.2.2.2.1, x.2.2.2.2.2.2.2⟩)
    (fun _ => rfl)

/-! ## Signing -/

/-- The bytes under a signature. -/
def signingMessage (alpn : List UInt8) (minute : UInt64) (shard : UInt8) (ad : ServiceAd) :
    List UInt8 :=
  ServiceAdEnvelope.codec.encode
    { version := dhtBucketVersion
      alpn := alpn
      minute := minute
      shard := shard
      nodeId := ad.nodeId
      tags := ad.tags
      publishedAt := ad.publishedAt
      expiresAt := ad.expiresAt }

/-- The signed bytes determine the namespace and the whole advertisement. -/
theorem signingMessage_injective {alpn alpn' : List UInt8} {minute minute' : UInt64}
    {shard shard' : UInt8} {ad ad' : ServiceAd}
    (h : signingMessage alpn minute shard ad = signingMessage alpn' minute' shard' ad') :
    alpn = alpn' ∧ minute = minute' ∧ shard = shard' ∧ ad = ad' := by
  have henv := ServiceAdEnvelope.codec.encode_injective h
  simp only [ServiceAdEnvelope.mk.injEq, true_and] at henv
  rcases henv with ⟨halpn, hminute, hshard, hnode, htags, hpub, hexp⟩
  exact ⟨halpn, hminute, hshard, ServiceAd.ext hnode htags hpub hexp⟩

namespace SignedServiceAd

/-- Create and sign a service advertisement for a specific shard bucket. -/
def sign (keys : Keys SecretKey PublicKey Signature) (secretKey : SecretKey)
    (alpn : List UInt8) (minute : UInt64) (shard : UInt8) (tags : List String)
    (publishedAt expiresAt : UInt64) : SignedServiceAd Signature :=
  let ad : ServiceAd :=
    { nodeId := keys.asBytes (keys.publicKey secretKey)
      tags := tags
      publishedAt := publishedAt
      expiresAt := expiresAt }
  { ad := ad
    signature := keys.sign secretKey (signingMessage alpn minute shard ad) }

/-- The advertised node id bytes. -/
def nodeId (self : SignedServiceAd Signature) : NodeId := self.ad.nodeId

def publishedAt (self : SignedServiceAd Signature) : UInt64 := self.ad.publishedAt

def expiresAt (self : SignedServiceAd Signature) : UInt64 := self.ad.expiresAt

/-- The advertised endpoint id if the bytes decode to a valid iroh id. -/
def endpointId (keys : Keys SecretKey PublicKey Signature)
    (self : SignedServiceAd Signature) : Option PublicKey :=
  keys.fromBytes self.ad.nodeId

/-- Check whether the advertisement contains all required tags. -/
def hasTags (self : SignedServiceAd Signature) (requiredTags : List String) : Bool :=
  requiredTags.all fun tag => self.ad.tags.contains tag

/-- Validate the advertisement against the bucket namespace and current time. -/
def verify (keys : Keys SecretKey PublicKey Signature) (self : SignedServiceAd Signature)
    (alpn : List UInt8) (minute : UInt64) (shard : UInt8) (now : UInt64) : Bool :=
  if self.ad.expiresAt ≤ now ∨ self.ad.publishedAt > self.ad.expiresAt
      ∨ self.ad.publishedAt > saturatingAdd now maxFutureSkewSecs then
    false
  else
    match self.endpointId keys with
    | none => false
    | some endpointId =>
        keys.verify endpointId (signingMessage alpn minute shard self.ad) self.signature

/-- The lifetime that a reader's clock accepts. -/
def Live (self : SignedServiceAd Signature) (now : UInt64) : Prop :=
  self.publishedAt ≤ self.expiresAt ∧ now < self.expiresAt
    ∧ self.publishedAt ≤ saturatingAdd now maxFutureSkewSecs

/-- A verified advertisement is live and its own node signed it for the namespace. -/
theorem verify_eq_true_iff {keys : Keys SecretKey PublicKey Signature}
    {self : SignedServiceAd Signature} {alpn : List UInt8} {minute : UInt64} {shard : UInt8}
    {now : UInt64} :
    self.verify keys alpn minute shard now = true ↔
      self.Live now ∧ ∃ p, self.endpointId keys = some p ∧
        keys.verify p (signingMessage alpn minute shard self.ad) self.signature = true := by
  have hlive : self.Live now ↔ ¬(self.ad.expiresAt ≤ now ∨ self.ad.publishedAt > self.ad.expiresAt
      ∨ self.ad.publishedAt > saturatingAdd now maxFutureSkewSecs) := by
    simp only [Live, publishedAt, expiresAt, not_or, gt_iff_lt, UInt64.not_lt, UInt64.not_le]
    tauto
  unfold verify
  split <;> rename_i hcond
  · simp [hlive, hcond]
  · rw [hlive]
    cases hid : self.endpointId keys with
    | none => simp
    | some p => simp [hcond]

section

variable (keys : Keys SecretKey PublicKey Signature) (secretKey : SecretKey)
  (alpn : List UInt8) (minute : UInt64) (shard : UInt8) (tags : List String)
  (pub exp : UInt64)

@[simp] theorem nodeId_sign :
    (sign keys secretKey alpn minute shard tags pub exp).nodeId
      = keys.asBytes (keys.publicKey secretKey) := rfl

@[simp] theorem publishedAt_sign :
    (sign keys secretKey alpn minute shard tags pub exp).publishedAt = pub := rfl

@[simp] theorem expiresAt_sign :
    (sign keys secretKey alpn minute shard tags pub exp).expiresAt = exp := rfl

@[simp] theorem endpointId_sign :
    (sign keys secretKey alpn minute shard tags pub exp).endpointId keys
      = some (keys.publicKey secretKey) :=
  keys.fromBytes_asBytes _

/-- A freshly signed advertisement verifies in its own namespace as long as it is
live. -/
theorem verify_sign_iff_live (now : UInt64) :
    (sign keys secretKey alpn minute shard tags pub exp).verify keys alpn minute shard now = true
      ↔ (sign keys secretKey alpn minute shard tags pub exp).Live now := by
  rw [verify_eq_true_iff, endpointId_sign]
  constructor
  · exact And.left
  · intro hlive
    exact ⟨hlive, _, rfl, keys.verify_sign _ _⟩

end

end SignedServiceAd

/-! ## What a signature binds -/

/-- Under an ideal scheme the signature of an advertisement is accepted on exactly the
advertisement, service, minute and shard it was made for, while it is live. -/
theorem signature_binds_ad (keys : Keys SecretKey PublicKey Signature) (hideal : keys.Ideal)
    (secretKey : SecretKey) (alpn : List UInt8) (minute : UInt64) (shard : UInt8)
    (tags : List String) (publishedAt expiresAt : UInt64)
    (ad' : ServiceAd) (alpn' : List UInt8) (minute' : UInt64) (shard' : UInt8) (now : UInt64) :
    SignedServiceAd.verify keys
        { ad := ad'
          signature := (SignedServiceAd.sign keys secretKey alpn minute shard tags publishedAt
            expiresAt).signature }
        alpn' minute' shard' now = true ↔
      ad' = (SignedServiceAd.sign keys secretKey alpn minute shard tags publishedAt expiresAt).ad
        ∧ alpn' = alpn ∧ minute' = minute ∧ shard' = shard
        ∧ publishedAt ≤ expiresAt ∧ now < expiresAt
        ∧ publishedAt ≤ saturatingAdd now maxFutureSkewSecs := by
  rw [SignedServiceAd.verify_eq_true_iff]
  constructor
  · rintro ⟨hlive, p, -, hverify⟩
    rcases (hideal _ _ _ _).mp hverify with ⟨-, hmessage⟩
    rcases signingMessage_injective hmessage with ⟨halpn, hminute, hshard, had⟩
    subst had
    exact ⟨rfl, halpn, hminute, hshard, hlive⟩
  · rintro ⟨rfl, rfl, rfl, rfl, hlive⟩
    exact ⟨hlive, keys.publicKey secretKey, keys.fromBytes_asBytes _,
      (hideal _ _ _ _).mpr ⟨rfl, rfl⟩⟩

/-- A scheme whose signatures spell out the key and the message. -/
def Keys.plain : Keys NodeId NodeId (NodeId × List UInt8) where
  publicKey := id
  asBytes := id
  fromBytes := some
  sign k m := (k, m)
  verify p m s := decide (s = (p, m))
  signature := (Codec.byte.array 32).pair Codec.byte.list
  fromBytes_asBytes _ := rfl
  verify_sign _ _ := decide_eq_true rfl

theorem Keys.plain_ideal : Keys.plain.Ideal := by
  intro k m₀ p m
  simp only [Keys.plain, decide_eq_true_eq, Prod.mk.injEq, id_eq]
  constructor <;> rintro ⟨hk, hm⟩ <;> exact ⟨hk.symm, hm.symm⟩

/-- The identity whose bytes are all {lit}`b`. -/
def repeatedId (b : UInt8) : NodeId := ⟨List.replicate 32 b, List.length_replicate⟩

/-- The round trip of the repository's own test: the advertisement is accepted in its
namespace, and its signature is refused in the next shard. -/
theorem signature_binds_ad_plain :
    Keys.plain.Ideal ∧
      (SignedServiceAd.sign Keys.plain (repeatedId 7) [47, 115] 123 4 ["prod"] 1000 1120).verify
        Keys.plain [47, 115] 123 4 1060 = true ∧
      (SignedServiceAd.sign Keys.plain (repeatedId 7) [47, 115] 123 4 ["prod"] 1000 1120).verify
        Keys.plain [47, 115] 123 5 1060 = false := by
  refine ⟨Keys.plain_ideal, ?_, ?_⟩
  · exact (signature_binds_ad Keys.plain Keys.plain_ideal (repeatedId 7) [47, 115] 123 4 ["prod"]
      1000 1120 _ _ _ _ _).mpr ⟨rfl, rfl, rfl, rfl, by decide, by decide, by decide⟩
  · rw [← Bool.not_eq_true]
    intro h
    have hshard := (signature_binds_ad Keys.plain Keys.plain_ideal (repeatedId 7) [47, 115] 123 4
      ["prod"] 1000 1120 _ _ _ _ _).mp h
    exact absurd hshard.2.2.2.1 (by decide)

end IrohTransport.Swarm
