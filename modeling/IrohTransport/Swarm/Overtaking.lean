import IrohTransport.Swarm.Contention
import Mathlib.Data.Fintype.Card

/-!
# Overtaken publishers

A put of one publisher is refused only if another has changed the register since the
read before it.  Every publisher changes the register at most once, so an attempt that
is lost to contention is lost to a publisher that succeeds, and each time to another
one.

Main results:

- Theorem {lit}`Round.Behind.step`: the attempts of a call that were refused never
  outnumber the calls that have succeeded.
- Theorem {lit}`contended_publisher_was_overtaken`: a call that gives up after its
  retries was overtaken by as many others as it had attempts, so up to four publishers
  never contend in vain.
-/

namespace IrohTransport.Swarm

variable {SecretKey PublicKey Signature : Type} {n : Nat}

/-- The calls that have returned {lit}`Ok`. -/
def PublishState.winners (s : PublishState n) : Finset (Fin n) :=
  Finset.univ.filter fun i => (s.pcs i).isOk = true

@[simp] theorem PublishState.mem_winners {s : PublishState n} {i : Fin n} :
    i ∈ s.winners ↔ (s.pcs i).isOk = true := by
  simp [winners]

/-- The call has used up its attempts. -/
def PublishPc.gaveUp (pc : PublishPc) : Prop :=
  pc = .returned (.error "DHT shard remained contended after retries")

instance : DecidablePred PublishPc.gaveUp
  | .returned (.error err) =>
      decidable_of_iff (err = "DHT shard remained contended after retries")
        (by simp [PublishPc.gaveUp])
  | .returned (.ok ()) => .isFalse (by simp [PublishPc.gaveUp])
  | .reading _ => .isFalse (by simp [PublishPc.gaveUp])
  | .putting _ _ _ => .isFalse (by simp [PublishPc.gaveUp])

namespace Round

variable {keys : Keys SecretKey PublicKey Signature} {round : Round SecretKey n}
  {s s' : PublishState n}

/-- Reads return what is stored, and what is stored has not got the greatest sequence
number. -/
def ReadsStored (s : PublishState n) : PublishAction n → Prop
  | .read _ => ∀ stored, s.register = some stored → stored.seq ≠ Int64.maxValue
  | .readPanicked _ => False
  | .put _ => True
  | .putFailed _ _ => True

instance (s : PublishState n) (a : PublishAction n) : Decidable (ReadsStored s a) :=
  match a with
  | .read _ => inferInstanceAs
      (Decidable (∀ stored, s.register = some stored → stored.seq ≠ Int64.maxValue))
  | .readPanicked _ => .isFalse id
  | .put _ => .isTrue trivial
  | .putFailed _ _ => .isTrue trivial

/-- A call has had no more refusals than others have succeeded, and if the register has
changed since its last read, one more has. -/
def Behind (register : Option MutableItem) (succeeded : Nat) : PublishPc → Prop
  | .reading attempt => attempt ≤ succeeded
  | .putting attempt item cas =>
      attempt ≤ succeeded ∧ (accepts register item cas = true ∨ attempt + 1 ≤ succeeded)
  | .returned result => PublishPc.gaveUp (.returned result) → dhtPublishRetries ≤ succeeded

/-! ## What an attempt prepares -/

theorem seq_of_nextItem_ok {call : PublishCall SecretKey} {alpn : List UInt8} {shard : UInt8}
    {ads : List (SignedServiceAd Signature)} {latestSeq : Option Int64} {item : MutableItem}
    (h : call.nextItem keys alpn shard ads latestSeq = .ok item) :
    item.seq = latestSeq.elim 1 (· + 1) := by
  simp only [PublishCall.nextItem] at h
  split at h
  · contradiction
  · rcases Except.ok.inj h with rfl
    rfl

theorem error_of_nextItem {call : PublishCall SecretKey} {alpn : List UInt8} {shard : UInt8}
    {ads : List (SignedServiceAd Signature)} {latestSeq : Option Int64} {err : String}
    (h : call.nextItem keys alpn shard ads latestSeq = .error err) :
    err = "local service advertisement exceeds shard bucket size" := by
  simp only [PublishCall.nextItem] at h
  split at h
  · exact (Except.error.inj h).symm
  · contradiction

/-- Unless something happens in between, the register takes the item made from it. -/
theorem accepts_nextItem {register : Option MutableItem} {item : MutableItem} {i : Fin n}
    (hmax : ∀ stored, register = some stored → stored.seq ≠ Int64.maxValue)
    (h : (round.calls i).nextItem keys round.alpn round.shard
      (round.readState keys i register).1 (round.readState keys i register).2 = .ok item) :
    accepts register item (round.readState keys i register).2 = true := by
  cases register with
  | none => rfl
  | some stored =>
      have hseq := seq_of_nextItem_ok h
      have hlatest : (round.readState keys i (some stored)).2 = some stored.seq := by
        rw [readState, Option.toList_some, readShardState_some]
      rw [hlatest] at hseq ⊢
      refine accepts_some.mpr ⟨?_, .inr rfl⟩
      rw [hseq, Option.elim_some, Int64.le_iff_toInt_le, toInt_succ_iff.mpr (hmax stored rfl)]
      omega

/-- A call that goes on to its put has not fallen behind. -/
theorem behind_prepared {register : Option MutableItem} {succeeded attempt : Nat} {i : Fin n}
    (hmax : ∀ stored, register = some stored → stored.seq ≠ Int64.maxValue)
    (hattempt : attempt ≤ succeeded) :
    Behind register succeeded
      (round.prepared keys i attempt (round.readState keys i register)) := by
  unfold prepared
  cases hnext : (round.calls i).nextItem keys round.alpn round.shard
      (round.readState keys i register).1 (round.readState keys i register).2 with
  | ok item => exact ⟨hattempt, .inl (accepts_nextItem hmax hnext)⟩
  | error err =>
      intro hgaveUp
      obtain rfl := error_of_nextItem hnext
      simp [PublishPc.gaveUp] at hgaveUp

/-- A refused call tries again or gives up, one attempt further. -/
theorem behind_contended {register : Option MutableItem} {succeeded attempt : Nat}
    (h : attempt + 1 ≤ succeeded) : Behind register succeeded (contended attempt) := by
  unfold contended
  split <;> rename_i hretry
  · exact h
  · intro _
    omega

/-- An error of the DHT is not the error of a call that gave up. -/
theorem text_ne_contended (failure : PutFailure) :
    failure.text ≠ "DHT shard remained contended after retries" := by
  intro htext
  cases failure with
  | query err =>
      have hchars := congrArg String.toList (show "put mutable shard: " ++ err = _ from htext)
      simp at hchars
  | panicked err =>
      have hchars := congrArg String.toList (show "publish task panicked: " ++ err = _ from htext)
      simp at hchars

/-! ## Runs -/

/-- One more success makes up for any change of the register. -/
theorem Behind.stored {register register' : Option MutableItem} {succeeded : Nat}
    {pc : PublishPc} (h : Behind register succeeded pc) : Behind register' (succeeded + 1) pc := by
  cases pc with
  | reading attempt => exact Nat.le_succ_of_le h
  | putting attempt item cas => exact ⟨Nat.le_succ_of_le h.1, .inr (Nat.succ_le_succ h.1)⟩
  | returned result => exact fun hgaveUp => Nat.le_succ_of_le (h hgaveUp)

/-- A step that is no success leaves the successful calls as they are. -/
theorem winners_setPc {i : Fin n} {pc : PublishPc} (hold : (s.pcs i).isOk = false)
    (hnew : pc.isOk = false) : (s.setPc i pc).winners = s.winners := by
  ext j
  by_cases hj : j = i
  · subst hj
    simp [PublishState.setPc, hold, hnew]
  · simp [PublishState.setPc, hj]

/-- A success is one more. -/
theorem card_winners_stored {i : Fin n} (register : Option MutableItem)
    (hold : (s.pcs i).isOk = false) :
    ({ s.setPc i (.returned (.ok ())) with register := register } :
      PublishState n).winners.card = s.winners.card + 1 := by
  have hinsert : ({ s.setPc i (.returned (.ok ())) with register := register } :
      PublishState n).winners = insert i s.winners := by
    ext j
    by_cases hj : j = i
    · subst hj
      simp [PublishState.setPc, PublishPc.isOk]
    · simp [PublishState.setPc, hj]
  rw [hinsert, Finset.card_insert_of_notMem]
  simp [hold]

/-- No step lets a call fall behind. -/
theorem Behind.step (h : ∀ i, Behind s.register s.winners.card (s.pcs i)) {a : PublishAction n}
    (hreads : ReadsStored s a) (hstep : round.step keys s a = some s') :
    ∀ i, Behind s'.register s'.winners.card (s'.pcs i) := by
  have hmoved : ∀ (i : Fin n) (pc : PublishPc), (s.pcs i).isOk = false → pc.isOk = false →
      Behind s.register s.winners.card pc →
      ∀ j, Behind (s.setPc i pc).register (s.setPc i pc).winners.card ((s.setPc i pc).pcs j) := by
    intro i pc hold hnew hpc j
    rw [winners_setPc hold hnew, PublishState.register_setPc]
    by_cases hj : j = i
    · subst hj
      simpa [PublishState.setPc] using hpc
    · simpa [PublishState.setPc, hj] using h j
  cases a with
  | read i =>
      simp only [Round.step] at hstep
      split at hstep <;> rename_i hpc
      · obtain rfl := Option.some.inj hstep
        have hbehind := h i
        rw [hpc] at hbehind
        refine hmoved i _ (by simp [hpc, PublishPc.isOk]) ?_ (behind_prepared hreads hbehind)
        unfold prepared
        split <;> rfl
      · contradiction
  | readPanicked i => exact hreads.elim
  | put i =>
      simp only [Round.step] at hstep
      split at hstep <;> rename_i hpc
      · have hold : (s.pcs i).isOk = false := by simp [hpc, PublishPc.isOk]
        split at hstep <;> rename_i haccept
        · obtain rfl := Option.some.inj hstep
          intro j
          rw [card_winners_stored _ hold]
          by_cases hj : j = i
          · subst hj
            simp [PublishState.setPc, Behind, PublishPc.gaveUp]
          · simpa [PublishState.setPc, hj] using (h j).stored
        · -- the register has changed since the read, so another call has succeeded
          obtain rfl := Option.some.inj hstep
          have hbehind := h i
          rw [hpc] at hbehind
          refine hmoved i _ hold ?_ (behind_contended (hbehind.2.resolve_left haccept))
          unfold contended
          split <;> rfl
      · contradiction
  | putFailed i failure =>
      simp only [Round.step] at hstep
      split at hstep <;> rename_i hpc
      · obtain rfl := Option.some.inj hstep
        refine hmoved i _ (by simp [hpc, PublishPc.isOk]) rfl ?_
        intro hgaveUp
        rw [PublishPc.gaveUp, PublishPc.returned.injEq, Except.error.injEq] at hgaveUp
        exact absurd hgaveUp (text_ne_contended failure)
      · contradiction

/-- No run lets a call fall behind. -/
theorem behind_of_reachable (hs : (round.system keys).ReachableWhen ReadsStored s) :
    ∀ i, Behind s.register s.winners.card (s.pcs i) := by
  apply hs.invariant
  · intro i
    exact Nat.zero_le _
  · intro s s' a _ h hreads hstep
    exact Behind.step h hreads hstep

end Round

open Round

/-- If reads return the stored item, and this never has the greatest sequence number, a call
that gives up after contention was overtaken by at least as many others as it had attempts,
all of which have succeeded.  So no more publishers of one bucket than a call has attempts
never contend in vain. -/
theorem contended_publisher_was_overtaken (keys : Keys SecretKey PublicKey Signature)
    (round : Round SecretKey n) {s : PublishState n}
    (hs : (round.system keys).ReachableWhen ReadsStored s) :
    (∀ i, (s.pcs i).gaveUp → dhtPublishRetries ≤ s.winners.card ∧ i ∉ s.winners) ∧
      (n ≤ dhtPublishRetries → ∀ i, ¬(s.pcs i).gaveUp) := by
  have hovertaken : ∀ i, (s.pcs i).gaveUp →
      dhtPublishRetries ≤ s.winners.card ∧ i ∉ s.winners := by
    intro i hgaveUp
    have hbehind := behind_of_reachable hs i
    rw [PublishPc.gaveUp] at hgaveUp
    rw [hgaveUp] at hbehind
    exact ⟨hbehind rfl, by simp [hgaveUp, PublishPc.isOk]⟩
  refine ⟨hovertaken, ?_⟩
  intro hn i hgaveUp
  rcases hovertaken i hgaveUp with ⟨hcard, hloser⟩
  have hlt : s.winners.card < n := by
    have hsub : s.winners ⊂ Finset.univ := by
      refine Finset.ssubset_univ_iff.mpr fun heq => hloser ?_
      rw [heq]
      exact Finset.mem_univ i
    simpa using Finset.card_lt_card hsub
  omega

/-- Five nodes that publish over an item that is no bucket. -/
def crowdedRound : Round NodeId 5 where
  alpn := []
  shard := 0
  minute := 0
  calls i := { firstRound.calls ⟨0, Nat.two_pos⟩ with secretKey := repeatedId (UInt8.ofNat i) }
  minute_eq _ := firstRound.minute_eq ⟨0, Nat.two_pos⟩
  register := some { seq := 0, value := [] }

/-- The first of five gives up after the four others have overtaken it, one in each of its
attempts. -/
theorem contended_publisher_was_overtaken_crowded :
    ∃ s, (crowdedRound.system Keys.plain).ReachableWhen ReadsStored s ∧ (s.pcs 0).gaveUp ∧
      dhtPublishRetries ≤ s.winners.card ∧ 0 ∉ s.winners := by
  obtain ⟨s, hs, hgaveUp⟩ := System.exists_of_runWhen_any (S := crowdedRound.system Keys.plain)
    (C := ReadsStored)
    (l := [.read 0, .read 1, .put 1, .put 0, .read 0, .read 2, .put 2, .put 0, .read 0, .read 3,
      .put 3, .put 0, .read 0, .read 4, .put 4, .put 0])
    (P := fun s => decide (s.pcs 0).gaveUp) (by decide +kernel)
  rw [decide_eq_true_eq] at hgaveUp
  exact ⟨s, hs, hgaveUp, (contended_publisher_was_overtaken Keys.plain crowdedRound hs).1 0 hgaveUp⟩

end IrohTransport.Swarm
