import IrohTransport.Swarm.Feed

/-!
# Finding steady publishers

A node that publishes every minute or more often always has a live advertisement in the
bucket of the current or of the previous minute.  The burst of a feed looks into both
buckets and finds the node, even when the minute changes between its two rounds.  A
round of the poll loop looks into the current minute only, and misses the node until it
has published in that minute.

Main results:

- Theorem {lit}`lookup_of_tick`: a look-up in the minute of a scheduled publication
  yields the node for two minutes after it.
- Theorem {lit}`burst_finds_steady_publisher`: every burst yields the node.
- Theorem {lit}`poll_finds_steady_publisher_iff`: a poll round yields the node exactly
  when its latest publication is of the current minute.
-/

namespace IrohTransport.Swarm

variable {SecretKey PublicKey Signature Digest : Type} [LinearOrder Digest]

/-- A node that publishes a service at {lit}`start` and every {lit}`period` seconds from
then on, up to a horizon: into all its shards, always successfully, with the same tags
and without being trimmed from the buckets. -/
structure Steady (keys : Keys SecretKey PublicKey Signature) (sha256 : List UInt8 → Digest)
    (history : History SecretKey) (node : PublicKey) (alpn : List UInt8) (tags : List String)
    (start period : Nat) (horizon : UnixTime) : Prop where
  publishes : ∀ k, start + k * period ≤ horizon.secs.toNat →
    ∀ shard ∈ replicaShards sha256 (keys.asBytes node) alpn, ∃ before p after,
      history.events = before ++ p :: after ∧ keys.publicKey p.call.secretKey = node ∧
        p.alpn = alpn ∧ p.shard = shard ∧ p.time = start + k * period ∧
          (publishShard keys sha256 (storeAfter keys sha256 before) p).2 = .ok ()
  constant_tags : ∀ p ∈ history.events, keys.publicKey p.call.secretKey = node →
    p.alpn = alpn → p.call.tags = tags
  untrimmed : ∀ before p after, history.events = before ++ p :: after → p.alpn = alpn →
    Untrimmed keys sha256 (keys.asBytes node) (storeAfter keys sha256 before) p

/-! ## Schedules -/

/-- The latest tick of a schedule. -/
theorem exists_latest_tick {start period now : Nat} (hperiod : 0 < period) (h : start ≤ now) :
    ∃ k, start + k * period ≤ now ∧ now < start + k * period + period := by
  refine ⟨(now - start) / period, ?_, ?_⟩
  · have := Nat.div_mul_le_self (now - start) period
    omega
  · have := Nat.lt_div_mul_add (a := now - start) hperiod
    omega

/-- Every window of a period after the start has a tick. -/
theorem exists_tick_in_window {start period lo : Nat} (hperiod : 0 < period) (h : start ≤ lo) :
    ∃ k, lo ≤ start + k * period ∧ start + k * period < lo + period := by
  have hlate : start ≤ lo + period - 1 := by omega
  rcases exists_latest_tick hperiod hlate with ⟨k, hle, hlt⟩
  exact ⟨k, by omega, by omega⟩

section Steady

variable {keys : Keys SecretKey PublicKey Signature} {sha256 : List UInt8 → Digest}
  {history : History SecretKey} {node : PublicKey} {alpn : List UInt8} {tags required : List String}
  {trust : UInt8} {start period : Nat} {horizon : UnixTime}

/-- A look-up in the minute of a tick yields the node while the tick's advertisement
lives. -/
theorem lookup_of_tick (hsha : Function.Injective sha256)
    (hsteady : Steady keys sha256 history node alpn tags start period horizon)
    (hrequired : required ⊆ tags) {now : UnixTime} {minute : UInt64} (k : Nat)
    (hhorizon : now.secs.toNat ≤ horizon.secs.toNat)
    (hlo : start + k * period ≤ now.secs.toNat)
    (hhi : now.secs.toNat < start + k * period + 120)
    (hminute : minute.toNat = (start + k * period) / 60) :
    ∃ peer ∈ lookup keys sha256 (storeAt keys sha256 history now) alpn required trust minute now,
      peer.id = node := by
  obtain ⟨shard, hshard⟩ := List.exists_mem_of_ne_nil _
    (replicaShards_ne_nil sha256 (keys.asBytes node) alpn)
  obtain ⟨before, p, after, hsplit, hnode, halpn, hpshard, htime, hok⟩ :=
    hsteady.publishes k (by omega) shard hshard
  subst hnode halpn hpshard
  have hpminute : p.call.minute = minute := by
    rw [← UInt64.toNat_inj, hminute, ← htime]
    simp [PublishCall.minute, Publication.time]
  rw [← hpminute]
  exact lookup_of_published hsha hsplit hok hsteady.untrimmed
    (fun q hq hkey hqalpn => hsteady.constant_tags q hq hkey hqalpn ▸ hrequired)
    (replicaShards_lt sha256 hshard) (by omega) (by omega)

end Steady

/-! ## One publication -/

/-- Digests that spell out what was hashed. -/
def PlainDigest : Type := List ℕ

instance : LinearOrder PlainDigest := inferInstanceAs (LinearOrder (List ℕ))

/-- A hash without collisions. -/
def plainHash (bytes : List UInt8) : PlainDigest := bytes.map UInt8.toNat

theorem plainHash_injective : Function.Injective plainHash :=
  List.map_injective_iff.mpr fun _ _ => UInt8.toNat_inj.mp

/-- A node that publishes in the last second of a minute. -/
def lateCall : PublishCall NodeId where
  secretKey := repeatedId 7
  tags := []
  publishedAt := ⟨59, by decide⟩

/-- It publishes into both its shards and nobody else does. -/
def lateHistory : History NodeId where
  events := [⟨lateCall, [], 0⟩, ⟨lateCall, [], 1⟩]
  chronological := by simp [Publication.time]

theorem time_lateHistory {p : Publication NodeId} (hp : p ∈ lateHistory.events) : p.time = 59 := by
  rcases List.mem_cons.mp hp with rfl | hp
  · rfl
  · rcases List.mem_singleton.mp hp with rfl
    rfl

/-- The node keeps its schedule until the next publication is due. -/
theorem steady_lateHistory {horizon : UnixTime} (hhorizon : horizon.secs.toNat < 119) :
    Steady Keys.plain plainHash lateHistory (repeatedId 7) [] [] 59 60 horizon where
  publishes k hk shard hshard := by
    obtain rfl : k = 0 := by omega
    have hshards : replicaShards plainHash (Keys.plain.asBytes (repeatedId 7)) [] = [0, 1] := by
      decide +kernel
    rw [hshards] at hshard
    rcases List.mem_cons.mp hshard with rfl | hshard
    · exact ⟨[], _, _, rfl, rfl, rfl, rfl, rfl, by decide +kernel⟩
    · rcases List.mem_singleton.mp hshard with rfl
      exact ⟨[⟨lateCall, [], 0⟩], _, _, rfl, rfl, rfl, rfl, rfl, by decide +kernel⟩
  constant_tags p hp _ _ := by
    rcases List.mem_cons.mp hp with rfl | hp
    · rfl
    · rcases List.mem_singleton.mp hp with rfl
      rfl
  untrimmed before p after h _ := by
    match before with
    | [] =>
        rcases (List.cons.inj h).1 with rfl
        unfold Untrimmed
        decide +kernel
    | [q] =>
        simp only [lateHistory, List.cons_append, List.nil_append, List.cons.injEq] at h
        rcases h with ⟨rfl, rfl, -⟩
        unfold Untrimmed
        decide +kernel
    | _ :: _ :: _ => simp [lateHistory] at h

/-! ## The burst -/

/-- Every burst yields every steady publisher that has started, whenever its second
round runs. -/
theorem burst_finds_steady_publisher (keys : Keys SecretKey PublicKey Signature)
    (sha256 : List UInt8 → Digest) (hsha : Function.Injective sha256)
    (history : History SecretKey) (node : PublicKey) (alpn : List UInt8)
    (tags required : List String) (trust : UInt8) (start period : Nat)
    (hperiod : 0 < period) (hperiod60 : period ≤ 60) (first second : UnixTime)
    (hstart : start ≤ first.secs.toNat) (hsecond : first.secs.toNat ≤ second.secs.toNat)
    (hrequired : required ⊆ tags)
    (hsteady : Steady keys sha256 history node alpn tags start period second) :
    ∃ peer ∈ burst keys sha256 history alpn required trust first second, peer.id = node := by
  rcases exists_latest_tick hperiod hstart with ⟨k, hle, hlt⟩
  by_cases hsame : (start + k * period) / 60 = first.secs.toNat / 60
  · -- the latest publication is of the minute of the first round
    have hminute : (unixMinute first 0).toNat = (start + k * period) / 60 := by
      rw [toNat_unixMinute_zero, hsame]
    have hfound : ∃ peer ∈ lookup keys sha256 (storeAt keys sha256 history first) alpn required
        trust (unixMinute first 0) first, peer.id = node :=
      lookup_of_tick hsha hsteady hrequired k hsecond hle (by omega) hminute
    rcases hfound with ⟨peer, hpeer, hid⟩
    exact ⟨peer, by simp [burst, hpeer], hid⟩
  · -- some publication is of the minute before the second round
    have hprev : ∃ j, start + j * period ≤ second.secs.toNat ∧
        (start + j * period) / 60 = second.secs.toNat / 60 - 1 ∧
          second.secs.toNat < start + j * period + 120 := by
      by_cases hminute : second.secs.toNat / 60 = first.secs.toNat / 60
      · exact ⟨k, by omega, by omega, by omega⟩
      · have hstarted : start ≤ 60 * (second.secs.toNat / 60 - 1) := by omega
        rcases exists_tick_in_window hperiod hstarted with ⟨j, hlo, hhi⟩
        exact ⟨j, by omega, by omega, by omega⟩
    rcases hprev with ⟨j, hjle, hjminute, hjlive⟩
    have hminute : (unixMinute second (-1)).toNat = (start + j * period) / 60 := by
      rw [toNat_unixMinute_prev, hjminute]
    have hfound : ∃ peer ∈ lookup keys sha256 (storeAt keys sha256 history second) alpn required
        trust (unixMinute second (-1)) second, peer.id = node :=
      lookup_of_tick hsha hsteady hrequired j le_rfl hjle hjlive hminute
    rcases hfound with ⟨peer, hpeer, hid⟩
    exact ⟨peer, by simp [burst, hpeer], hid⟩

/-- The burst at the turn of the minute finds the node in its second round. -/
theorem burst_finds_steady_publisher_late :
    ∃ peer ∈ burst Keys.plain plainHash lateHistory [] [] 50 ⟨60, by decide⟩ ⟨60, by decide⟩,
      peer.id = repeatedId 7 :=
  burst_finds_steady_publisher Keys.plain plainHash plainHash_injective lateHistory (repeatedId 7)
    [] [] [] 50 59 60 (by decide) (by decide) ⟨60, by decide⟩ ⟨60, by decide⟩ (by decide)
    (by decide) (List.Subset.refl _) (steady_lateHistory (by decide))

/-! ## The poll loop -/

/-- A round of the poll loop yields a steady publisher exactly when the node has
published in the minute of the round.  That the node publishes the service at no other times
is only needed where the round is said to miss it. -/
theorem poll_finds_steady_publisher_iff (keys : Keys SecretKey PublicKey Signature)
    (sha256 : List UInt8 → Digest) (hsha : Function.Injective sha256)
    (history : History SecretKey) (node : PublicKey) (alpn : List UInt8)
    (tags required : List String) (trust : UInt8) (start period : Nat)
    (hperiod : 0 < period) (hperiod60 : period ≤ 60) (now : UnixTime)
    (hstart : start ≤ now.secs.toNat) (hrequired : required ⊆ tags)
    (hsteady : Steady keys sha256 history node alpn tags start period now)
    (honly : ∀ p ∈ history.events, keys.publicKey p.call.secretKey = node → p.alpn = alpn →
      ∃ k, p.time = start + k * period) :
    (∃ peer ∈ pollRound keys sha256 history alpn required trust now, peer.id = node) ↔
      (now.secs.toNat - start) % period ≤ now.secs.toNat % 60 := by
  constructor
  · rintro ⟨peer, hpeer, rfl⟩
    rcases published_of_lookup hsha hpeer with ⟨p, hp, halpn, hminute, hkey⟩
    rcases honly p ((List.takeWhile_prefix _).subset hp) hkey halpn with ⟨k, htime⟩
    have hle := History.time_le_of_mem_until hp
    have hsame : p.time / 60 = now.secs.toNat / 60 := by
      rw [← toNat_unixMinute_zero, ← hminute]
      simp [PublishCall.minute, Publication.time]
    have hrest : now.secs.toNat - start = now.secs.toNat - p.time + period * k := by
      rw [Nat.mul_comm]
      omega
    calc (now.secs.toNat - start) % period = (now.secs.toNat - p.time) % period := by
          rw [hrest, Nat.add_mul_mod_self_left]
      _ ≤ now.secs.toNat - p.time := Nat.mod_le _ _
      _ ≤ now.secs.toNat % 60 := by omega
  · intro hphase
    have htick : start + (now.secs.toNat - start) / period * period
        = now.secs.toNat - (now.secs.toNat - start) % period := by
      have := Nat.div_add_mod' (now.secs.toNat - start) period
      omega
    have hlt := Nat.mod_lt (now.secs.toNat - start) hperiod
    apply lookup_of_tick hsha hsteady hrequired ((now.secs.toNat - start) / period) le_rfl
    all_goals
      rw [htick]
    · omega
    · omega
    · rw [toNat_unixMinute_zero]
      omega

/-- The round in the second of the publication finds the node. -/
theorem poll_finds_steady_publisher_iff_late :
    (∃ peer ∈ pollRound Keys.plain plainHash lateHistory [] [] 50 ⟨59, by decide⟩,
      peer.id = repeatedId 7) ↔ (59 - 59) % 60 ≤ 59 % 60 :=
  poll_finds_steady_publisher_iff Keys.plain plainHash plainHash_injective lateHistory
    (repeatedId 7) [] [] [] 50 59 60 (by decide) (by decide) ⟨59, by decide⟩ (by decide)
    (List.Subset.refl _) (steady_lateHistory (by decide))
    fun p hp _ _ => ⟨0, time_lateHistory hp⟩

/-- One second later the minute has changed: the node's advertisement lives on in the
previous bucket, and the round yields nobody. -/
theorem poll_misses_steady_publisher :
    ¬∀ (history : History NodeId) (node : NodeId) (alpn : List UInt8) (tags required : List String)
      (trust : UInt8) (start period : Nat) (now : UnixTime), 0 < period → period ≤ 60 →
        start ≤ now.secs.toNat → required ⊆ tags →
        Steady Keys.plain plainHash history node alpn tags start period now →
        (∀ p ∈ history.events, Keys.plain.publicKey p.call.secretKey = node → p.alpn = alpn →
          ∃ k, p.time = start + k * period) →
        ∃ peer ∈ pollRound Keys.plain plainHash history alpn required trust now,
          peer.id = node := by
  intro h
  obtain ⟨peer, hpeer, -⟩ := h lateHistory (repeatedId 7) [] [] [] 50 59 60 ⟨60, by decide⟩
    (by decide) (by decide) (by decide) (List.Subset.refl _) (steady_lateHistory (by decide))
    fun p hp _ _ => ⟨0, time_lateHistory hp⟩
  have hnobody : (pollRound Keys.plain plainHash lateHistory [] [] 50 ⟨60, by decide⟩).length = 0 := by
    decide +kernel
  rw [List.length_eq_zero_iff.mp hnobody] at hpeer
  exact absurd hpeer List.not_mem_nil

end IrohTransport.Swarm
