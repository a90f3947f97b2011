import IrohTransport.Lib.Runs
import IrohTransport.Swarm.Publisher
import Mathlib.Data.Fintype.Basic
import Mathlib.Data.List.OfFn
import Mathlib.Logic.Function.Basic

/-!
# Publishers of one bucket

Any number of publishers work on the register of one bucket, each reading it and
putting its item in steps of its own, with retries after contention.  An item that
replaces another was made from what it replaces as long as its put named the sequence
number it had read.  A publisher that read an empty register names none, and the item
it puts also replaces a first item that has been stored in the meantime.

Main results:

- Theorem {lit}`Round.inv_of_reachable`: while no put goes over a first item blindly,
  every register value holds the advertisements of all publishers that are done.
- Theorem {lit}`published_ads_are_kept`: the same as a statement about the register.
- Theorem {lit}`first_writer_is_overwritten`: two publishers that read an empty register
  both succeed, and one advertisement is gone.
-/

namespace IrohTransport.Swarm

variable {SecretKey PublicKey Signature : Type} {n : Nat}

/-! ## The protocol -/

/-- Publishers that work on one bucket, and what its register held before. -/
structure Round (SecretKey : Type) (n : Nat) where
  alpn : List UInt8
  shard : UInt8
  minute : UInt64
  calls : Fin n → PublishCall SecretKey
  minute_eq : ∀ i, (calls i).minute = minute
  register : Option MutableItem

/-- Why a put ends a call, besides contention. -/
inductive PutFailure
  | query (err : String)
  | panicked (err : String)

/-- The error a call returns. -/
def PutFailure.text : PutFailure → String
  | .query err => "put mutable shard: " ++ err
  | .panicked err => "publish task panicked: " ++ err

/-- Where a call stands. -/
inductive PublishPc
  | reading (attempt : Nat)
  | putting (attempt : Nat) (item : MutableItem) (cas : Option Int64)
  | returned (result : Except String Unit)

/-- The call has returned {lit}`Ok`. -/
def PublishPc.isOk : PublishPc → Bool
  | .returned (.ok ()) => true
  | _ => false

theorem PublishPc.isOk_iff {pc : PublishPc} : pc.isOk = true ↔ pc = .returned (.ok ()) := by
  cases pc with
  | returned result => cases result <;> simp [isOk]
  | _ => simp [isOk]

/-- A step of one publisher. -/
inductive PublishAction (n : Nat)
  | read (i : Fin n)
  | readPanicked (i : Fin n)
  | put (i : Fin n)
  | putFailed (i : Fin n) (failure : PutFailure)

/-- The register and the publishers. -/
structure PublishState (n : Nat) where
  register : Option MutableItem
  pcs : Fin n → PublishPc

namespace PublishState

/-- Move one publisher. -/
def setPc (s : PublishState n) (i : Fin n) (pc : PublishPc) : PublishState n :=
  { s with pcs := Function.update s.pcs i pc }

@[simp] theorem register_setPc (s : PublishState n) (i : Fin n) (pc : PublishPc) :
    (s.setPc i pc).register = s.register := rfl

/-- The step is a put that names no sequence number and meets a first item: the register
takes it whatever it holds. -/
def overwrites (s : PublishState n) : PublishAction n → Bool
  | .put i =>
      match s.pcs i, s.register with
      | .putting _ _ none, some stored => decide (stored.seq ≤ 1)
      | _, _ => false
  | _ => false

end PublishState

namespace Round

variable (keys : Keys SecretKey PublicKey Signature) (round : Round SecretKey n)

/-- The advertisement of one publisher. -/
def localAd (i : Fin n) : SignedServiceAd Signature :=
  (round.calls i).localAd keys round.alpn round.shard

/-- What one publisher reads from the register. -/
def readState (i : Fin n) (register : Option MutableItem) :
    List (SignedServiceAd Signature) × Option Int64 :=
  readShardState keys round.alpn round.minute round.shard (round.calls i).publishedAt.secs
    register.toList

/-- Go on from what was read: put the next item or give up. -/
def prepared (i : Fin n) (attempt : Nat) (read : List (SignedServiceAd Signature) × Option Int64) :
    PublishPc :=
  match (round.calls i).nextItem keys round.alpn round.shard read.1 read.2 with
  | .error err => .returned (.error err)
  | .ok item => .putting attempt item read.2

/-- Try again after contention, as often as the loop of a call allows. -/
def contended (attempt : Nat) : PublishPc :=
  if attempt + 1 < dhtPublishRetries then .reading (attempt + 1)
  else .returned (.error "DHT shard remained contended after retries")

/-- One step of one publisher.  A read that fails leaves an empty state, as if nothing
was stored. -/
def step (s : PublishState n) : PublishAction n → Option (PublishState n)
  | .read i =>
      match s.pcs i with
      | .reading attempt =>
          some (s.setPc i (round.prepared keys i attempt (round.readState keys i s.register)))
      | _ => none
  | .readPanicked i =>
      match s.pcs i with
      | .reading attempt => some (s.setPc i (round.prepared keys i attempt ([], none)))
      | _ => none
  | .put i =>
      match s.pcs i with
      | .putting attempt item cas =>
          if accepts s.register item cas then
            some { (s.setPc i (.returned (.ok ()))) with register := some item }
          else some (s.setPc i (contended attempt))
      | _ => none
  | .putFailed i failure =>
      match s.pcs i with
      | .putting _ _ _ => some (s.setPc i (.returned (.error failure.text)))
      | _ => none

/-- The publishers of a bucket, in any order of their steps. -/
def system : System (PublishState n) (PublishAction n) where
  init := { register := round.register, pcs := fun _ => .reading 0 }
  step := round.step keys

/-- The register holds nothing that a publisher would take for an advertisement: it is
empty, or an item that does not decode, or one of another time. -/
def Vacant : Prop :=
  ∀ i, (round.readState keys i round.register).1 = []

/-- The advertisements of all publishers fit into one bucket. -/
def Fits : Prop :=
  (ServiceBucket.new (List.ofFn (round.localAd keys))).encodedLen keys ≤ dhtMaxBucketBytes

instance : Decidable (round.Vacant keys) :=
  Fintype.decidableForallFintype (p := fun i => (round.readState keys i round.register).1 = [])

instance : Decidable (round.Fits keys) :=
  inferInstanceAs (Decidable (_ ≤ _))

/-! ## What a step does -/

/-- The four things a step can do. -/
inductive Step (s : PublishState n) : PublishAction n → PublishState n → Prop
  | read (i : Fin n) (attempt : Nat) : s.pcs i = .reading attempt →
      Step s (.read i)
        (s.setPc i (round.prepared keys i attempt (round.readState keys i s.register)))
  | readPanicked (i : Fin n) (attempt : Nat) : s.pcs i = .reading attempt →
      Step s (.readPanicked i) (s.setPc i (round.prepared keys i attempt ([], none)))
  | stored (i : Fin n) (attempt : Nat) (item : MutableItem) (cas : Option Int64) :
      s.pcs i = .putting attempt item cas → accepts s.register item cas = true →
      Step s (.put i) { (s.setPc i (.returned (.ok ()))) with register := some item }
  | refused (a : PublishAction n) (i : Fin n) (attempt : Nat) (item : MutableItem)
      (cas : Option Int64) (pc : PublishPc) :
      s.pcs i = .putting attempt item cas →
      (∃ attempt, pc = .reading attempt) ∨ (∃ err, pc = .returned (.error err)) →
      Step s a (s.setPc i pc)

variable {keys round}

theorem step_sound {s s' : PublishState n} {a : PublishAction n}
    (h : round.step keys s a = some s') : round.Step keys s a s' := by
  cases a with
  | read i =>
      simp only [step] at h
      split at h <;> rename_i hpc
      · rcases Option.some.inj h with rfl
        exact .read i _ hpc
      · contradiction
  | readPanicked i =>
      simp only [step] at h
      split at h <;> rename_i hpc
      · rcases Option.some.inj h with rfl
        exact .readPanicked i _ hpc
      · contradiction
  | put i =>
      simp only [step] at h
      split at h <;> rename_i hpc
      · split at h <;> rename_i haccept
        · rcases Option.some.inj h with rfl
          exact .stored i _ _ _ hpc haccept
        · rcases Option.some.inj h with rfl
          refine .refused _ i _ _ _ _ hpc ?_
          unfold contended
          split
          · exact Or.inl ⟨_, rfl⟩
          · exact Or.inr ⟨_, rfl⟩
      · contradiction
  | putFailed i failure =>
      simp only [step] at h
      split at h <;> rename_i hpc
      · rcases Option.some.inj h with rfl
        exact .refused _ i _ _ _ _ hpc (Or.inr ⟨_, rfl⟩)
      · contradiction

/-- A call that has returned takes no more steps. -/
theorem returned_stable {s s' : PublishState n} {a : PublishAction n} {i : Fin n}
    {result : Except String Unit} (hpc : s.pcs i = .returned result)
    (h : round.step keys s a = some s') : s'.pcs i = .returned result := by
  have hother : ∀ (j : Fin n) (pc : PublishPc), (∀ r, s.pcs j ≠ .returned r) →
      (s.setPc j pc).pcs i = .returned result := by
    intro j pc hj
    have hne : i ≠ j := fun heq => hj result (heq ▸ hpc)
    simpa [PublishState.setPc, hne] using hpc
  cases step_sound h with
  | read j attempt hj => exact hother j _ (by simp [hj])
  | readPanicked j attempt hj => exact hother j _ (by simp [hj])
  | stored j attempt item cas hj _ => exact hother j _ (by simp [hj])
  | refused _ j attempt item cas pc hj _ => exact hother j _ (by simp [hj])

/-! ## What the register holds -/

/-- The local advertisements verify for all publishers of the bucket. -/
theorem verify_localAd (i j : Fin n) :
    (round.localAd keys i).verify keys round.alpn round.minute round.shard
      (round.calls j).publishedAt.secs = true := by
  rw [← round.minute_eq i]
  exact PublishCall.verify_localAd ((round.minute_eq j).trans (round.minute_eq i).symm)

/-- What is read names each node once. -/
theorem nodup_readState (i : Fin n) (register : Option MutableItem) :
    ((round.readState keys i register).1.map SignedServiceAd.nodeId).Nodup :=
  ServiceBucket.nodup_mergeValid _

/-- Only advertisements of the publishers themselves. -/
def Local (keys : Keys SecretKey PublicKey Signature) (round : Round SecretKey n)
    (ads : List (SignedServiceAd Signature)) : Prop :=
  ∀ ad ∈ ads, ∃ i, ad = round.localAd keys i

/-- Publishers of a bucket that fits never trim it. -/
theorem nextItem_ok (hfits : round.Fits keys) (i : Fin n) {ads : List (SignedServiceAd Signature)}
    (hlocal : round.Local keys ads) (hnodup : (ads.map SignedServiceAd.nodeId).Nodup)
    (latestSeq : Option Int64) :
    ∃ item, (round.calls i).nextItem keys round.alpn round.shard ads latestSeq = .ok item ∧
      item.seq = latestSeq.elim 1 (· + 1) ∧
        (round.calls i).Holds keys round.alpn round.shard ads item := by
  let bucket := (ServiceBucket.new ads).upsert (round.localAd keys i)
  have hbucket : bucket.ads.Nodup :=
    (Select.nodup_keys_upsert SignedServiceAd.nodeId AdPrecedes hnodup).of_map
  have hsub : bucket.ads ⊆ List.ofFn (round.localAd keys) := by
    intro ad had
    rw [List.mem_ofFn]
    rcases Select.mem_upsert _ _ had with rfl | had
    · exact ⟨i, rfl⟩
    · rcases hlocal ad had with ⟨j, rfl⟩
      exact ⟨j, rfl⟩
  have hsubperm : bucket.ads.Subperm (ServiceBucket.new (List.ofFn (round.localAd keys))).ads :=
    hbucket.subperm hsub
  exact PublishCall.nextItem_of_fits
    (Nat.le_trans (ServiceBucket.encodedLen_le_of_subperm hsubperm) hfits)

section Holds

variable {i : Fin n} {ads : List (SignedServiceAd Signature)} {item : MutableItem}
  (hholds : (round.calls i).Holds keys round.alpn round.shard ads item)
  (hlocal : round.Local keys ads)
include hholds hlocal

/-- Nobody reads a stranger's advertisement out of an item made from local ones. -/
theorem local_readState_of_holds (j : Fin n) :
    round.Local keys (round.readState keys j (some item)).1 := by
  rcases hholds with ⟨bucket, hvalue, -, hperm⟩
  intro ad had
  rw [readState, Option.toList_some, readShardState_encode hvalue] at had
  obtain ⟨_, hb, -, hmem, -⟩ :=
    ServiceBucket.mem_validAds.mp (ServiceBucket.mem_validAds_of_mem_mergeValid had)
  rcases List.mem_singleton.mp hb with rfl
  rcases Select.mem_upsert _ _ (hperm.subset hmem) with rfl | hmem
  · exact ⟨i, rfl⟩
  · exact hlocal ad hmem

/-- Everybody reads, out of an item, every node it was made from, at least as new. -/
theorem exists_readState_of_holds {ad : SignedServiceAd Signature}
    (had : ad = round.localAd keys i ∨ ad ∈ ads) (j : Fin n) :
    ∃ ad' ∈ (round.readState keys j (some item)).1, ad'.nodeId = ad.nodeId ∧ ad'.AsNewAs ad := by
  rcases hholds with ⟨bucket, hvalue, hversion, hperm⟩
  obtain ⟨kept, hkept, hnode, hle⟩ :=
    Select.exists_mem_upsert SignedServiceAd.nodeId adSortKey had
  have hlocalKept : ∃ k, kept = round.localAd keys k := by
    rcases Select.mem_upsert _ _ hkept with rfl | hmem
    · exact ⟨i, rfl⟩
    · exact hlocal kept hmem
  rcases hlocalKept with ⟨k, rfl⟩
  have hvalid : round.localAd keys k ∈ ServiceBucket.validAds keys round.alpn round.minute
      round.shard (round.calls j).publishedAt.secs [bucket] :=
    ServiceBucket.mem_validAds.mpr
      ⟨bucket, List.mem_singleton_self _, hversion, hperm.symm.subset hkept, verify_localAd k j⟩
  rcases ServiceBucket.exists_mem_mergeValid hvalid with ⟨ad', hread, hnode', hnew⟩
  refine ⟨ad', ?_, hnode'.trans hnode, hnew.trans ((adSortKey_le_iff hnode).mp hle)⟩
  rw [readState, Option.toList_some, readShardState_encode hvalue]
  exact hread

end Holds

/-! ## The invariant -/

/-- An item on its way to the register goes with what its publisher read: nothing, or an
item that the register still holds or has replaced since. -/
def Fresh (keys : Keys SecretKey PublicKey Signature) (round : Round SecretKey n)
    (register : Option MutableItem) (i : Fin n) (item : MutableItem) : Option Int64 → Prop
  | none => item.seq = 1 ∧ (round.calls i).Holds keys round.alpn round.shard [] item
  | some seq => item.seq = seq + 1 ∧ ∃ stored, register = some stored ∧ seq ≤ stored.seq ∧
      (stored.seq = seq → (round.calls i).Holds keys round.alpn round.shard
        (round.readState keys i register).1 item)

/-- Everybody reads the publisher's node out of the register, at least as new. -/
def Kept (keys : Keys SecretKey PublicKey Signature) (round : Round SecretKey n)
    (register : Option MutableItem) (i : Fin n) : Prop :=
  ∀ j, ∃ ad ∈ (round.readState keys j register).1,
    ad.nodeId = (round.localAd keys i).nodeId ∧ ad.AsNewAs (round.localAd keys i)

/-- What holds in every state of a run. -/
structure Inv (keys : Keys SecretKey PublicKey Signature) (round : Round SecretKey n)
    (s : PublishState n) : Prop where
  reads : ∀ j, round.Local keys (round.readState keys j s.register).1
  putting : ∀ i attempt item cas, s.pcs i = .putting attempt item cas →
    round.Fresh keys s.register i item cas
  done : ∀ i, s.pcs i = .returned (.ok ()) → round.Kept keys s.register i

/-- Moving a publisher without touching the register only asks for the facts about its
new place. -/
theorem Inv.setPc {s : PublishState n} (hs : round.Inv keys s) {i : Fin n} {pc : PublishPc}
    (hput : ∀ attempt item cas, pc = .putting attempt item cas →
      round.Fresh keys s.register i item cas)
    (hdone : pc ≠ .returned (.ok ())) : round.Inv keys (s.setPc i pc) where
  reads := hs.reads
  putting j attempt item cas hpc := by
    by_cases hj : j = i
    · subst hj
      exact hput attempt item cas (by simpa [PublishState.setPc] using hpc)
    · exact hs.putting j attempt item cas (by simpa [PublishState.setPc, hj] using hpc)
  done j hpc := by
    by_cases hj : j = i
    · subst hj
      exact absurd (by simpa [PublishState.setPc] using hpc) hdone
    · exact hs.done j (by simpa [PublishState.setPc, hj] using hpc)

/-- A read leaves the publisher with an item made from what it read. -/
theorem Inv.prepared (hfits : round.Fits keys) {s : PublishState n} (hs : round.Inv keys s)
    (i : Fin n) (attempt : Nat) {read : List (SignedServiceAd Signature) × Option Int64}
    (hread : read = round.readState keys i s.register ∨ read = ([], none)) :
    round.Inv keys (s.setPc i (round.prepared keys i attempt read)) := by
  have hlocal : round.Local keys read.1 := by
    rcases hread with rfl | rfl
    · exact hs.reads i
    · exact fun _ h => absurd h List.not_mem_nil
  have hnodup : (read.1.map SignedServiceAd.nodeId).Nodup := by
    rcases hread with rfl | rfl
    · exact nodup_readState i s.register
    · exact List.nodup_nil
  rcases nextItem_ok hfits i hlocal hnodup read.2 with ⟨item, hok, hseq, hholds⟩
  have hpc : round.prepared keys i attempt read = .putting attempt item read.2 := by
    simp only [Round.prepared, hok]
  have hfresh : round.Fresh keys s.register i item read.2 := by
    rcases hread with rfl | rfl
    · cases hreg : s.register with
      | none =>
          rw [hreg] at hseq hholds
          exact ⟨hseq, hholds⟩
      | some stored =>
          rw [hreg] at hseq hholds
          rw [readState, Option.toList_some, readShardState_some] at hseq ⊢
          exact ⟨hseq, stored, rfl, Int64.le_refl _, fun _ => hholds⟩
    · exact ⟨hseq, hholds⟩
  rw [hpc]
  refine hs.setPc ?_ (by simp)
  intro attempt' item' cas' heq
  rcases PublishPc.putting.inj heq with ⟨-, rfl, rfl⟩
  exact hfresh

/-- An item that the register takes was made from what it replaces, unless it is put
blindly over a first item. -/
theorem Inv.holds_of_accepts {s : PublishState n} (hs : round.Inv keys s) {i : Fin n}
    {attempt : Nat} {item : MutableItem} {cas : Option Int64}
    (hpc : s.pcs i = .putting attempt item cas) (haccept : accepts s.register item cas = true)
    (hcond : s.overwrites (.put i) = false) :
    (round.calls i).Holds keys round.alpn round.shard
        (round.readState keys i s.register).1 item ∧
      ∀ stored, s.register = some stored → stored.seq < item.seq := by
  have hfresh := hs.putting i attempt item cas hpc
  cases hreg : s.register with
  | none =>
      cases cas with
      | none => exact ⟨hfresh.2, by simp⟩
      | some seq =>
          rcases hfresh with ⟨-, stored, hstored, -⟩
          rw [hreg] at hstored
          contradiction
  | some stored =>
      rw [hreg, accepts_some] at haccept
      rcases haccept with ⟨hle, rfl | rfl⟩
      · -- the put is blind: its sequence number is 1, and the condition rules it out
        rw [hfresh.1] at hle
        simp [PublishState.overwrites, hpc, hreg, hle] at hcond
      · rcases hfresh with ⟨hseq, stored', hstored, -, hholds⟩
        rw [hreg, Option.some.injEq] at hstored
        subst hstored
        refine ⟨hreg ▸ hholds rfl, ?_⟩
        rintro _ ⟨⟩
        apply Int64.lt_of_le_of_ne hle
        rw [hseq]
        intro heq
        exact absurd (Int64.add_eq_left.mp heq.symm) (by decide)

/-- Storing an item made from what it replaces loses nobody. -/
theorem Inv.stored {s : PublishState n} (hs : round.Inv keys s) {i : Fin n} {attempt : Nat}
    {item : MutableItem} {cas : Option Int64} (hpc : s.pcs i = .putting attempt item cas)
    (haccept : accepts s.register item cas = true) (hcond : s.overwrites (.put i) = false) :
    round.Inv keys { (s.setPc i (.returned (.ok ()))) with register := some item } := by
  rcases hs.holds_of_accepts hpc haccept hcond with ⟨hholds, hseq⟩
  have hlocal := hs.reads i
  refine ⟨local_readState_of_holds hholds hlocal, ?_, ?_⟩
  · intro j attempt' item' cas' hpc'
    by_cases hj : j = i
    · subst hj
      simp [PublishState.setPc] at hpc'
    · have hfresh := hs.putting j attempt' item' cas'
        (by simpa [PublishState.setPc, hj] using hpc')
      cases cas' with
      | none => exact hfresh
      | some seq =>
          rcases hfresh with ⟨hseq', stored, hstored, hle, -⟩
          have hlt := Int64.lt_of_le_of_lt hle (hseq stored hstored)
          refine ⟨hseq', item, rfl, Int64.le_of_lt hlt, fun heq => ?_⟩
          rw [heq] at hlt
          exact absurd hlt (Int64.lt_irrefl)
  · intro j hdone k
    by_cases hj : j = i
    · subst hj
      exact exists_readState_of_holds hholds hlocal (Or.inl rfl) k
    · obtain ⟨ad, hread, hnode, hnew⟩ := hs.done j
        (by simpa [PublishState.setPc, hj] using hdone) i
      obtain ⟨ad', hread', hnode', hnew'⟩ :=
        exists_readState_of_holds hholds hlocal (Or.inr hread) k
      exact ⟨ad', hread', hnode'.trans hnode, hnew'.trans hnew⟩

/-- One step keeps the invariant. -/
theorem Inv.step (hfits : round.Fits keys) {s s' : PublishState n} {a : PublishAction n}
    (hs : round.Inv keys s) (hcond : s.overwrites a = false)
    (h : round.step keys s a = some s') : round.Inv keys s' := by
  cases step_sound h with
  | read i attempt _ => exact hs.prepared hfits i attempt (Or.inl rfl)
  | readPanicked i attempt _ => exact hs.prepared hfits i attempt (Or.inr rfl)
  | stored i attempt item cas hpc haccept => exact hs.stored hpc haccept hcond
  | refused _ i attempt item cas pc _ hback =>
      apply hs.setPc
      · rintro attempt' item' cas' rfl
        rcases hback with ⟨_, hback⟩ | ⟨_, hback⟩ <;> contradiction
      · rintro rfl
        rcases hback with ⟨_, hback⟩ | ⟨_, hback⟩
        · contradiction
        · simp at hback

/-- The invariant holds along every run without a blind put over a first item. -/
theorem inv_of_reachable (hvacant : round.Vacant keys) (hfits : round.Fits keys)
    {s : PublishState n}
    (hs : (round.system keys).ReachableWhen (fun s a => s.overwrites a = false) s) :
    round.Inv keys s := by
  refine hs.invariant ?_ fun s s' a _ hinv hcond hstep => hinv.step hfits hcond hstep
  refine ⟨fun j ad had => ?_, ?_, ?_⟩
  · have hnone := hvacant j
    rw [show (round.system keys).init.register = round.register from rfl, hnone] at had
    exact absurd had List.not_mem_nil
  · intro i attempt item cas hpc
    cases hpc
  · intro i hpc
    cases hpc

end Round

/-! ## Lost updates -/

/-- Along every run in which no publisher that read an empty register puts its item over
a first one, a call that has returned {lit}`Ok` stays returned and every register value
from then on holds its node, at least as new. -/
theorem published_ads_are_kept (keys : Keys SecretKey PublicKey Signature)
    (round : Round SecretKey n) (hvacant : round.Vacant keys) (hfits : round.Fits keys)
    {s : PublishState n}
    (hs : (round.system keys).ReachableWhen (fun s a => s.overwrites a = false) s)
    {i : Fin n} (hdone : s.pcs i = .returned (.ok ())) :
    (∃ item, s.register = some item ∧ item.contains keys (round.localAd keys i)) ∧
      ∀ a s', round.step keys s a = some s' → s'.pcs i = .returned (.ok ()) := by
  refine ⟨?_, fun a s' h => Round.returned_stable hdone h⟩
  rcases (Round.inv_of_reachable hvacant hfits hs).done i hdone i with ⟨ad, hread, hnode, hnew⟩
  cases hreg : s.register with
  | none =>
      rw [hreg] at hread
      exact absurd hread List.not_mem_nil
  | some item =>
      rw [hreg] at hread
      exact ⟨item, rfl, contains_of_mem_readShardState hread hnode hnew⟩

/-- Two nodes that publish in the first second of an empty bucket. -/
def firstRound : Round NodeId 2 where
  alpn := []
  shard := 0
  minute := 0
  calls i :=
    { secretKey := repeatedId (UInt8.ofNat i), tags := [], publishedAt := ⟨0, by decide⟩ }
  minute_eq _ := show (0 : UInt64) / 60 = 0 by decide
  register := none

/-- One after the other, both are kept. -/
theorem published_ads_are_kept_first :
    ∃ s, (firstRound.system Keys.plain).ReachableWhen (fun s a => s.overwrites a = false) s ∧
      ∃ item, s.register = some item ∧
        item.contains Keys.plain (firstRound.localAd Keys.plain 0) := by
  obtain ⟨s, hs, hdone⟩ := System.exists_of_runWhen_any (S := firstRound.system Keys.plain)
    (C := fun s a => s.overwrites a = false) (l := [.read 0, .put 0, .read 1, .put 1])
    (P := fun s => (s.pcs 0).isOk) (by decide +kernel)
  exact ⟨s, hs, (published_ads_are_kept Keys.plain firstRound (by decide +kernel)
    (by decide +kernel) hs (PublishPc.isOk_iff.mp hdone)).1⟩

/-- The first node is done and its advertisement is not in the register. -/
def lostFirst (s : PublishState 2) : Bool :=
  (s.pcs 0).isOk && s.register.all fun item =>
    !decide (item.contains Keys.plain (firstRound.localAd Keys.plain 0))

/-- Both read the empty register before either puts: both calls return {lit}`Ok`, and the
register holds the second advertisement only. -/
theorem first_writer_is_overwritten :
    ¬∀ (n : Nat) (round : Round NodeId n), round.Vacant Keys.plain → round.Fits Keys.plain →
      ∀ s, (round.system Keys.plain).Reachable s → ∀ i, s.pcs i = .returned (.ok ()) →
        ∃ item, s.register = some item ∧ item.contains Keys.plain (round.localAd Keys.plain i) := by
  intro h
  obtain ⟨s, hs, hlost⟩ := System.exists_of_runWhen_any (S := firstRound.system Keys.plain)
    (C := fun _ _ => True) (l := [.read 0, .read 1, .put 0, .put 1])
    (P := lostFirst) (by decide +kernel)
  rw [lostFirst, Bool.and_eq_true, PublishPc.isOk_iff] at hlost
  rcases h 2 firstRound (by decide +kernel) (by decide +kernel) s hs 0 hlost.1 with
    ⟨item, hreg, hcontains⟩
  simp [hreg, hcontains] at hlost

end IrohTransport.Swarm
