import IrohTransport.Pool.Slots
import Mathlib.Data.List.Induction

/-!
# The books of the pool actor

The pool actor keeps two books: the map of slots and the queue of idle connections.
The module follows the actor alone through any sequence of messages, with everything
that is decided outside of it left open: the outcomes of the sends, and which messages
of which generations arrive.

Main results:

- Theorem {lit}`PoolActor.Bookkept.handle`: every message keeps the books in order while
  the generation counter does not wrap around.
- Theorem {lit}`older_after`: the idle queue is in the order in which its entries came.
- Theorem {lit}`books_are_kept`: the books after any sequence of messages, what an
  eviction takes from them and what a refused request leaves of them.
-/

namespace IrohTransport.Pool

/-- A message together with what is decided outside of the pool actor while it is
handled: the outcome of a {lit}`try_send` into each mailbox, the fresh mailbox, and
whether the first send into it succeeds. -/
inductive Handling (Id : Type)
  | request (id : Id) (trySend : Nat → TrySend) (connTx : Nat) (firstSent : Bool)
  | idle (id : Id) (generation : Nat)
  | shutdown (id : Id) (generation : Nat)

namespace PoolActor

variable {Id : Type} [DecidableEq Id]

/-- The handler of a request to its end.  A slot whose mailbox refuses the first request
is removed again. -/
def handleWhole (self : PoolActor Id) (id : Id) (trySend : Nat → TrySend) (connTx : Nat)
    (firstSent : Bool) : PoolActor Id × RequestOutcome :=
  match self.handleRequest id trySend connTx with
  | (self, .spawned generation) =>
      if firstSent then (self, .spawned generation)
      else (self.removeConnectionIfMatch id generation, .spawned generation)
  | res => res

/-- {lit}`PoolActor::handle`. -/
def handle (self : PoolActor Id) : Handling Id → PoolActor Id
  | .request id trySend connTx firstSent => (self.handleWhole id trySend connTx firstSent).1
  | .idle id generation => self.handleIdle id generation
  | .shutdown id generation => self.removeConnectionIfMatch id generation

/-- The pool actor after some messages. -/
def after (options : PoolOptions) (msgs : List (Handling Id)) : PoolActor Id :=
  msgs.foldl handle (new options)

@[simp]
theorem after_concat (options : PoolOptions) (msgs : List (Handling Id)) (msg : Handling Id) :
    after options (msgs ++ [msg]) = (after options msgs).handle msg := by
  simp [after]

/-! ## The books -/

/-- The books are in order. -/
structure Bookkept (pool : PoolActor Id) : Prop where
  fits : pool.Fits
  distinct : ∀ id id' slot slot', pool.connections.lookup id = some slot →
    pool.connections.lookup id' = some slot' → slot.generation = slot'.generation → id = id'
  below : ∀ id slot, pool.connections.lookup id = some slot →
    slot.generation < pool.nextGeneration
  idleOnce : (pool.idle.map Prod.fst).Nodup
  idleSlot : ∀ entry ∈ pool.idle, ∃ slot, pool.connections.lookup entry.1 = some slot ∧
    slot.generation = entry.2

theorem bookkept_new (options : PoolOptions) : (new options : PoolActor Id).Bookkept := by
  constructor
  case fits => exact Nat.zero_le _
  all_goals simp [new]

/-- Books from which slots and idle entries are taken, each entry before its slot. -/
theorem Bookkept.shrink {self self' : PoolActor Id} (h : self.Bookkept) (hfits : self'.Fits)
    (hnext : self'.nextGeneration = self.nextGeneration)
    (hslots : ∀ id slot, self'.connections.lookup id = some slot →
      self.connections.lookup id = some slot)
    (hidle : self'.idle.Sublist self.idle)
    (hkept : ∀ entry ∈ self'.idle,
      self'.connections.lookup entry.1 = self.connections.lookup entry.1) :
    self'.Bookkept where
  fits := hfits
  distinct id id' slot slot' hid hid' := h.distinct id id' slot slot' (hslots _ _ hid) (hslots _ _ hid')
  below id slot hid := hnext ▸ h.below id slot (hslots _ _ hid)
  idleOnce := (hidle.map Prod.fst).nodup h.idleOnce
  idleSlot entry hentry := hkept entry hentry ▸ h.idleSlot entry (hidle.subset hentry)

theorem lookup_of_lookup_erase {connections : AList fun _ : Id => ConnectionSlot} {id id' : Id}
    {slot : ConnectionSlot} (h : (connections.erase id).lookup id' = some slot) :
    id' ≠ id ∧ connections.lookup id' = some slot := by
  have hne : id' ≠ id := by
    rintro rfl
    simp at h
  exact ⟨hne, by rwa [AList.lookup_erase_ne hne] at h⟩

/-- Taking a peer out of the idle queue. -/
theorem Bookkept.removeIdle {self : PoolActor Id} (h : self.Bookkept) (id : Id) :
    (self.removeIdle id).Bookkept :=
  h.shrink h.fits rfl (fun _ _ hid => hid) List.filter_sublist fun _ _ => rfl

/-- Removing a slot together with the idle entries of its peer. -/
theorem Bookkept.removed {self : PoolActor Id} (h : self.Bookkept) (id : Id)
    {idle : List (Id × Nat)} (hsub : idle.Sublist self.idle) (hid : id ∉ idle.map Prod.fst) :
    Bookkept { self.removeConnection id with idle := idle } := by
  refine h.shrink ?_ rfl ?_ hsub ?_
  · exact Nat.le_trans (keys_erase_le _ _) h.fits
  · intro id' slot hslot
    exact (lookup_of_lookup_erase hslot).2
  · intro entry hentry
    have hne : entry.1 ≠ id := fun heq => hid (heq ▸ List.mem_map_of_mem hentry)
    exact AList.lookup_erase_ne hne

theorem not_mem_removeIdle (self : PoolActor Id) (id : Id) :
    id ∉ (self.removeIdle id).idle.map Prod.fst := by
  simp [PoolActor.removeIdle]

theorem Bookkept.beforeRoom {self : PoolActor Id} (h : self.Bookkept) (id : Id) :
    (self.beforeRoom id).Bookkept :=
  h.removed id List.filter_sublist (self.not_mem_removeIdle id)

theorem Bookkept.removeConnectionIfMatch {self : PoolActor Id} (h : self.Bookkept) (id : Id)
    (generation : Nat) : (self.removeConnectionIfMatch id generation).Bookkept := by
  unfold PoolActor.removeConnectionIfMatch
  split
  · exact h.removed id List.filter_sublist (self.not_mem_removeIdle id)
  · exact h

/-- An entry goes to the back of the idle queue. -/
theorem Bookkept.handleIdle {self : PoolActor Id} (h : self.Bookkept) (id : Id)
    (generation : Nat) : (self.handleIdle id generation).Bookkept := by
  unfold PoolActor.handleIdle
  split <;> rename_i hmatch
  · refine ⟨h.fits, h.distinct, h.below, ?_, ?_⟩
    · have hold := (h.removeIdle id).idleOnce
      have hnew := self.not_mem_removeIdle id
      rw [addIdle, List.map_append, List.nodup_append]
      refine ⟨hold, by simp, ?_⟩
      intro a ha b hb
      rw [List.map_singleton, List.mem_singleton] at hb
      subst hb
      exact fun heq => hnew (heq ▸ ha)
    · rintro ⟨id', generation'⟩ hentry
      rcases mem_addIdle.mp hentry with ⟨hold, -⟩ | ⟨rfl, rfl⟩
      · exact h.idleSlot _ hold
      · exact matchesGeneration_iff.mp hmatch
  · exact h

/-- Eviction takes the front of the idle queue and its slot. -/
theorem Bookkept.evictIdleConnection {self : PoolActor Id} (h : self.Bookkept) :
    (self.idle = [] ∧ self.evictIdleConnection = (false, self)) ∨
    ∃ entry rest, self.idle = entry :: rest ∧
      self.evictIdleConnection = (true, { self.removeConnection entry.1 with idle := rest }) := by
  cases hidle : self.idle with
  | nil =>
      refine .inl ⟨rfl, ?_⟩
      rw [PoolActor.evictIdleConnection, hidle, evictFrom, ← hidle]
  | cons entry rest =>
      refine .inr ⟨entry, rest, rfl, ?_⟩
      have hmatch := matchesGeneration_iff.mpr (h.idleSlot entry (hidle ▸ List.mem_cons_self))
      rw [PoolActor.evictIdleConnection, hidle, evictFrom, if_pos hmatch]

/-- The books without the front of the idle queue. -/
theorem Bookkept.evicted {self : PoolActor Id} (h : self.Bookkept) {entry : Id × Nat}
    {rest : List (Id × Nat)} (hidle : self.idle = entry :: rest) :
    Bookkept { self.removeConnection entry.1 with idle := rest } := by
  have hnodup := h.idleOnce
  rw [hidle, List.map_cons, List.nodup_cons] at hnodup
  exact h.removed entry.1 (hidle ▸ List.sublist_cons_self entry rest) hnodup.1

/-- A fresh slot gets a generation that no slot has. -/
theorem Bookkept.openSlot {self : PoolActor Id} (h : self.Bookkept) {id : Id} (connTx : Nat)
    (hfree : self.connections.lookup id = none)
    (hroom : self.connections.keys.length < self.options.maxConnections)
    (hnext : self.nextGeneration + 1 < 2 ^ 64) : (self.openSlot id connTx).1.Bookkept := by
  have hsucc : u64Succ self.nextGeneration = self.nextGeneration + 1 := Nat.mod_eq_of_lt hnext
  have hlookup : ∀ id' slot, (self.openSlot id connTx).1.connections.lookup id' = some slot →
      id' = id ∧ slot.generation = self.nextGeneration ∨
        self.connections.lookup id' = some slot := by
    intro id' slot hslot
    by_cases hid : id' = id
    · subst hid
      simp only [PoolActor.openSlot, AList.lookup_insert, Option.some.injEq] at hslot
      exact .inl ⟨rfl, hslot ▸ rfl⟩
    · simp only [PoolActor.openSlot, AList.lookup_insert_ne hid] at hslot
      exact .inr hslot
  constructor
  case fits =>
    have hkeys : id ∉ self.connections.keys := AList.lookup_eq_none.mp hfree
    simp only [Fits, PoolActor.openSlot, AList.keys_insert, List.length_cons,
      List.erase_of_not_mem hkeys]
    exact hroom
  case distinct =>
    intro id₁ id₂ slot₁ slot₂ h₁ h₂ hgen
    rcases hlookup _ _ h₁ with ⟨rfl, hg₁⟩ | hold₁ <;> rcases hlookup _ _ h₂ with ⟨rfl, hg₂⟩ | hold₂
    · rfl
    · have hlt := h.below _ _ hold₂
      omega
    · have hlt := h.below _ _ hold₁
      omega
    · exact h.distinct _ _ _ _ hold₁ hold₂ hgen
  case below =>
    intro id' slot hslot
    simp only [PoolActor.openSlot, hsucc]
    rcases hlookup _ _ hslot with ⟨-, hg⟩ | hold
    · omega
    · have hlt := h.below _ _ hold
      omega
  case idleOnce => exact h.idleOnce
  case idleSlot =>
    intro entry hentry
    rcases h.idleSlot entry hentry with ⟨slot, hslot, hgen⟩
    have hne : entry.1 ≠ id := by
      rintro rfl
      rw [hfree] at hslot
      contradiction
    exact ⟨slot, by rwa [PoolActor.openSlot, AList.lookup_insert_ne hne], hgen⟩

/-- Room is made, and the slot opened, in books without the peer. -/
theorem Bookkept.makeRoom {self : PoolActor Id} (h : self.Bookkept) {id : Id} (connTx : Nat)
    (hfree : self.connections.lookup id = none) (hnext : self.nextGeneration + 1 < 2 ^ 64) :
    (self.makeRoom id connTx).1.Bookkept := by
  unfold PoolActor.makeRoom
  split <;> rename_i hroom
  · rcases h.evictIdleConnection with ⟨-, hevict⟩ | ⟨entry, rest, hidle, hevict⟩
    · rw [hevict]
      exact h
    · rw [hevict]
      rcases h.idleSlot entry (hidle ▸ List.mem_cons_self) with ⟨slot, hslot, -⟩
      have hkeys := keys_erase_of_lookup hslot
      have hfits : self.connections.keys.length ≤ self.options.maxConnections := h.fits
      refine (h.evicted hidle).openSlot connTx ?_ ?_ hnext
      · rw [removeConnection_connections]
        by_cases hid : id = entry.1
        · rw [hid, AList.lookup_erase]
        · rw [AList.lookup_erase_ne hid, hfree]
      · simp only [removeConnection_connections, removeConnection_options]
        omega
  · exact h.openSlot connTx hfree (Nat.lt_of_not_le hroom) hnext

theorem Bookkept.handleRequest {self : PoolActor Id} (h : self.Bookkept) (id : Id)
    (trySend : Nat → TrySend) (connTx : Nat) (hnext : self.nextGeneration + 1 < 2 ^ 64) :
    (self.handleRequest id trySend connTx).1.Bookkept := by
  by_cases hneeds : self.NeedsSlot id trySend
  · rw [handleRequest_of_needsSlot connTx hneeds]
    exact (h.beforeRoom id).makeRoom connTx (AList.lookup_erase _ _) hnext
  · rw [handleRequest_of_not_needsSlot connTx hneeds]
    exact h.removeIdle id

/-- What the handler of a request does after the first send. -/
theorem handleWhole_cases (self : PoolActor Id) (id : Id) (trySend : Nat → TrySend)
    (connTx : Nat) (firstSent : Bool) :
    self.handleWhole id trySend connTx firstSent = self.handleRequest id trySend connTx ∨
      ∃ generation, (self.handleRequest id trySend connTx).2 = .spawned generation ∧
        self.handleWhole id trySend connTx firstSent
          = ((self.handleRequest id trySend connTx).1.removeConnectionIfMatch id generation,
            .spawned generation) := by
  unfold handleWhole
  rcases self.handleRequest id trySend connTx with ⟨self', outcome⟩
  cases outcome with
  | forwarded | refused => exact .inl rfl
  | spawned generation =>
      cases firstSent with
      | true => exact .inl rfl
      | false => exact .inr ⟨generation, rfl, rfl⟩

/-- Every message keeps the books in order while the counter does not wrap around. -/
theorem Bookkept.handle {self : PoolActor Id} (h : self.Bookkept) (msg : Handling Id)
    (hnext : self.nextGeneration + 1 < 2 ^ 64) : (self.handle msg).Bookkept := by
  cases msg with
  | request id trySend connTx firstSent =>
      have hrequest := h.handleRequest id trySend connTx hnext
      rw [PoolActor.handle]
      rcases self.handleWhole_cases id trySend connTx firstSent with heq | ⟨generation, -, heq⟩
      · rw [heq]
        exact hrequest
      · rw [heq]
        exact hrequest.removeConnectionIfMatch id generation
  | idle id generation => exact h.handleIdle id generation
  | shutdown id generation => exact h.removeConnectionIfMatch id generation

theorem removeConnectionIfMatch_nextGeneration (self : PoolActor Id) (id : Id)
    (generation : Nat) :
    (self.removeConnectionIfMatch id generation).nextGeneration = self.nextGeneration := by
  unfold removeConnectionIfMatch
  split <;> rfl

/-- A message moves the counter by one at most. -/
theorem nextGeneration_handle_le (self : PoolActor Id) (msg : Handling Id) :
    (self.handle msg).nextGeneration ≤ self.nextGeneration + 1 := by
  cases msg with
  | request id trySend connTx firstSent =>
      have hrequest : (self.handleRequest id trySend connTx).1.nextGeneration
          ≤ self.nextGeneration + 1 := by
        rcases self.handleRequest_nextGeneration id trySend connTx with ⟨-, heq⟩ | ⟨-, heq⟩
        · rw [heq]
          exact Nat.mod_le _ _
        · rw [heq]
          exact Nat.le_succ _
      rw [handle]
      rcases self.handleWhole_cases id trySend connTx firstSent with heq | ⟨generation, -, heq⟩
      · rw [heq]
        exact hrequest
      · rw [heq, removeConnectionIfMatch_nextGeneration]
        exact hrequest
  | idle id generation =>
      rw [handle, handleIdle]
      split <;> exact Nat.le_succ _
  | shutdown id generation =>
      rw [handle, removeConnectionIfMatch_nextGeneration]
      exact Nat.le_succ _

/-- A message leaves the options as they are. -/
theorem handle_options (self : PoolActor Id) (msg : Handling Id) :
    (self.handle msg).options = self.options := by
  cases msg with
  | request id trySend connTx firstSent =>
      have hrequest := self.handleRequest_options id trySend connTx
      rw [handle]
      rcases self.handleWhole_cases id trySend connTx firstSent with heq | ⟨generation, -, heq⟩
      · rw [heq]
        exact hrequest
      · rw [heq, removeConnectionIfMatch_options]
        exact hrequest
  | idle id generation => exact self.handleIdle_options id generation
  | shutdown id generation => exact self.removeConnectionIfMatch_options id generation

theorem after_options (options : PoolOptions) (msgs : List (Handling Id)) :
    (after options msgs).options = options := by
  induction msgs using List.reverseRecOn with
  | nil => rfl
  | append_singleton msgs msg ih => rw [after_concat, handle_options, ih]

theorem nextGeneration_after_le (options : PoolOptions) (msgs : List (Handling Id)) :
    (after options msgs).nextGeneration ≤ msgs.length + 1 := by
  induction msgs using List.reverseRecOn with
  | nil => exact Nat.le_refl _
  | append_singleton msgs msg ih =>
      have hstep := (after options msgs).nextGeneration_handle_le msg
      rw [after_concat, List.length_append, List.length_singleton]
      omega

/-- The books are in order after any sequence of messages that cannot wrap the counter
around. -/
theorem bookkept_after (options : PoolOptions) {msgs : List (Handling Id)}
    (hfewer : msgs.length < 2 ^ 64 - 1) : (after options msgs).Bookkept := by
  induction msgs using List.reverseRecOn with
  | nil => exact bookkept_new options
  | append_singleton msgs msg ih =>
      rw [List.length_append, List.length_singleton] at hfewer
      have hnext := nextGeneration_after_le options msgs
      rw [after_concat]
      exact (ih (by omega)).handle msg (by omega)

/-! ## The order of the idle queue -/

/-- A message puts its entry at the back of the idle queue, or it only takes entries
away. -/
theorem Bookkept.handle_idle {self : PoolActor Id} (h : self.Bookkept) (msg : Handling Id) :
    (∃ id generation, msg = .idle id generation ∧
      (self.handle msg).idle = (self.removeIdle id).idle ++ [(id, generation)]) ∨
    ((self.handle msg).idle.Sublist self.idle ∧
      ∀ entry ∈ (self.handle msg).idle, msg ≠ .idle entry.1 entry.2) := by
  cases msg with
  | request id trySend connTx firstSent =>
      refine .inr ⟨?_, by simp⟩
      have hrequest := (self.handleRequest_idle id trySend connTx).trans List.filter_sublist
      rw [PoolActor.handle]
      rcases self.handleWhole_cases id trySend connTx firstSent with heq | ⟨generation, -, heq⟩
      · rw [heq]
        exact hrequest
      · rw [heq]
        exact (removeConnectionIfMatch_idle _ id generation).trans hrequest
  | idle id generation =>
      rw [PoolActor.handle, PoolActor.handleIdle]
      split <;> rename_i hmatch
      · exact .inl ⟨id, generation, rfl, rfl⟩
      · refine .inr ⟨List.Sublist.refl _, ?_⟩
        intro entry hentry heq
        rw [Handling.idle.injEq] at heq
        obtain ⟨rfl, rfl⟩ := heq
        exact hmatch (matchesGeneration_iff.mpr (h.idleSlot entry hentry))
  | shutdown id generation =>
      exact .inr ⟨removeConnectionIfMatch_idle self id generation, by simp⟩

/-- The entry went to the back of the idle queue with this message, the last one for it,
and has been in the queue since. -/
structure IdleSince (options : PoolOptions) (msgs : List (Handling Id)) (entry : Id × Nat)
    (n : Nat) : Prop where
  put : msgs[n]? = some (.idle entry.1 entry.2)
  stays : ∀ k, n < k → k ≤ msgs.length → entry ∈ (after options (msgs.take k)).idle
  last : ∀ k, n < k → msgs[k]? ≠ some (.idle entry.1 entry.2)

/-- One entry has been in the idle queue for longer than another. -/
def Older (options : PoolOptions) (msgs : List (Handling Id)) (entry other : Id × Nat) : Prop :=
  ∃ n m, IdleSince options msgs entry n ∧ IdleSince options msgs other m ∧ n < m

section Order

variable {options : PoolOptions} {msgs : List (Handling Id)} {msg : Handling Id}
  {entry other : Id × Nat} {n : Nat}

theorem IdleSince.lt (h : IdleSince options msgs entry n) : n < msgs.length :=
  (List.getElem?_eq_some_iff.mp h.put).1

omit [DecidableEq Id] in
theorem length_concat_le {k : Nat} (h : msgs.length < k) : (msgs ++ [msg]).length ≤ k := by
  rw [List.length_append]
  exact h

/-- An entry that a message for another one leaves in the queue. -/
theorem IdleSince.concat (h : IdleSince options msgs entry n)
    (hmem : entry ∈ ((after options msgs).handle msg).idle)
    (hmsg : msg ≠ .idle entry.1 entry.2) : IdleSince options (msgs ++ [msg]) entry n := by
  have hlt := h.lt
  constructor
  case put => rw [List.getElem?_append_left hlt, h.put]
  case stays =>
    intro k hnk hk
    rw [List.length_append, List.length_singleton] at hk
    rcases Nat.lt_or_ge msgs.length k with hlast | hbefore
    · rw [List.take_of_length_le (length_concat_le hlast), after_concat]
      exact hmem
    · rw [List.take_append_of_le_length hbefore]
      exact h.stays k hnk hbefore
  case last =>
    intro k hnk
    rcases Nat.lt_trichotomy k msgs.length with hlt' | rfl | hgt
    · rw [List.getElem?_append_left hlt']
      exact h.last k hnk
    · simpa using hmsg
    · rw [List.getElem?_eq_none (length_concat_le hgt)]
      simp

/-- An entry that has just been put at the back of the queue. -/
theorem idleSince_concat {id : Id} {generation : Nat}
    (hmem : (id, generation) ∈ ((after options msgs).handle (.idle id generation)).idle) :
    IdleSince options (msgs ++ [.idle id generation]) (id, generation) msgs.length := by
  constructor
  case put => simp
  case stays =>
    intro k hlt hk
    rw [List.take_of_length_le (length_concat_le hlt), after_concat]
    exact hmem
  case last =>
    intro k hlt
    rw [List.getElem?_eq_none (length_concat_le hlt)]
    simp

theorem Older.concat (h : Older options msgs entry other)
    (hentry : entry ∈ ((after options msgs).handle msg).idle)
    (hother : other ∈ ((after options msgs).handle msg).idle)
    (hmsg : msg ≠ .idle entry.1 entry.2) (hmsg' : msg ≠ .idle other.1 other.2) :
    Older options (msgs ++ [msg]) entry other := by
  rcases h with ⟨n, m, hn, hm, hlt⟩
  exact ⟨n, m, hn.concat hentry hmsg, hm.concat hother hmsg', hlt⟩

/-- The idle queue is in the order in which its entries came. -/
theorem older_after (options : PoolOptions) {msgs : List (Handling Id)}
    (hfewer : msgs.length < 2 ^ 64 - 1) :
    (∀ entry ∈ (after options msgs).idle, ∃ n, IdleSince options msgs entry n) ∧
      (after options msgs).idle.Pairwise (Older options msgs) := by
  induction msgs using List.reverseRecOn with
  | nil => exact ⟨by simp [after, new], List.Pairwise.nil⟩
  | append_singleton msgs msg ih =>
      rw [List.length_append, List.length_singleton] at hfewer
      have hfewer' : msgs.length < 2 ^ 64 - 1 := by omega
      rcases ih hfewer' with ⟨hsince, horder⟩
      rw [after_concat]
      rcases (bookkept_after options hfewer').handle_idle msg with
        ⟨id, generation, rfl, hidle⟩ | ⟨hsub, hmsg⟩
      · have hkept : ∀ entry ∈ ((after options msgs).removeIdle id).idle,
            Handling.idle id generation ≠ .idle entry.1 entry.2 := by
          intro entry hentry heq
          rw [Handling.idle.injEq] at heq
          exact (mem_removeIdle.mp hentry).2 heq.1.symm
        have hnew : (id, generation)
            ∈ ((after options msgs).handle (.idle id generation)).idle := by
          simp [hidle]
        have hold : ∀ entry ∈ ((after options msgs).removeIdle id).idle,
            entry ∈ ((after options msgs).handle (.idle id generation)).idle := by
          intro entry hentry
          rw [hidle]
          exact List.mem_append_left _ hentry
        constructor
        · intro entry hentry
          rw [hidle, List.mem_append, List.mem_singleton] at hentry
          rcases hentry with hentry | rfl
          · rcases hsince entry (mem_removeIdle.mp hentry).1 with ⟨n, hn⟩
            exact ⟨n, hn.concat (hold entry hentry) (hkept entry hentry)⟩
          · exact ⟨msgs.length, idleSince_concat hnew⟩
        · rw [hidle, List.pairwise_append]
          refine ⟨?_, List.pairwise_singleton _ _, ?_⟩
          · refine (horder.sublist List.filter_sublist).imp_of_mem ?_
            intro entry other hentry hother holder
            exact holder.concat (hold _ hentry) (hold _ hother) (hkept _ hentry) (hkept _ hother)
          · intro entry hentry other hother
            rw [List.mem_singleton] at hother
            subst hother
            rcases hsince entry (mem_removeIdle.mp hentry).1 with ⟨n, hn⟩
            exact ⟨n, msgs.length, hn.concat (hold entry hentry) (hkept entry hentry),
              idleSince_concat hnew, hn.lt⟩
      · constructor
        · intro entry hentry
          rcases hsince entry (hsub.subset hentry) with ⟨n, hn⟩
          exact ⟨n, hn.concat hentry (hmsg entry hentry)⟩
        · refine (horder.sublist hsub).imp_of_mem ?_
          intro entry other hentry hother holder
          exact holder.concat hentry hother (hmsg _ hentry) (hmsg _ hother)

end Order

/-! ## What an eviction takes and what a refusal leaves -/

/-- An eviction from these books takes exactly one slot, that of the entry that has been
in the idle queue for longest. -/
def EvictsOldest (options : PoolOptions) (msgs : List (Handling Id)) (self : PoolActor Id) :
    Prop :=
  ∀ entry rest, self.idle = entry :: rest →
    (∀ other ∈ rest, Older options msgs entry other) ∧
      (∃ slot, self.connections.lookup entry.1 = some slot ∧ slot.generation = entry.2) ∧
      self.evictIdleConnection = (true, { self.removeConnection entry.1 with idle := rest }) ∧
      (self.connections.erase entry.1).keys.length + 1 = self.connections.keys.length

theorem Bookkept.evictsOldest {options : PoolOptions} {msgs : List (Handling Id)}
    {self : PoolActor Id} (h : self.Bookkept) (horder : self.idle.Pairwise (Older options msgs)) :
    EvictsOldest options msgs self := by
  intro entry rest hidle
  rw [hidle, List.pairwise_cons] at horder
  rcases h.idleSlot entry (hidle ▸ List.mem_cons_self) with ⟨slot, hslot, hgen⟩
  refine ⟨horder.1, ⟨slot, hslot, hgen⟩, ?_, keys_erase_of_lookup hslot⟩
  rcases h.evictIdleConnection with ⟨hnil, -⟩ | ⟨entry', rest', hidle', hevict⟩
  · rw [hidle] at hnil
    contradiction
  · rw [hidle, List.cons.injEq] at hidle'
    obtain ⟨rfl, rfl⟩ := hidle'
    exact hevict

/-- A refused request leaves the slots alone: a slot that it takes away because its
mailbox is closed leaves room for another. -/
theorem Bookkept.refused {self : PoolActor Id} (h : self.Bookkept) {id : Id}
    {trySend : Nat → TrySend} {connTx : Nat} {error : PoolError}
    (hrefused : (self.handleRequest id trySend connTx).2 = .refused error) :
    (self.handleRequest id trySend connTx).1.connections = self.connections := by
  have hhandled := self.handled id trySend connTx
  revert hhandled hrefused
  generalize self.handleRequest id trySend connTx = res
  intro hrefused hhandled
  cases hhandled with
  | forwarded | busy => rfl
  | evicted | opened => contradiction
  | tooMany hneeds hfull =>
      have hfits : self.connections.keys.length ≤ self.options.maxConnections := h.fits
      simp only [PoolActor.beforeRoom, removeConnection_connections, removeIdle_connections]
        at hfull ⊢
      cases hslot : self.connections.lookup id with
      | none => exact erase_of_lookup_none hslot
      | some slot =>
          have hkeys := keys_erase_of_lookup hslot
          omega

end PoolActor

open PoolActor

/-- After any sequence of messages too short to wrap the generation counter around the
books are in order, with the bound that the pool was made with, an eviction takes the slot of the oldest idle entry and no other, also
in the state in which the handler of a request makes room, and a refused request leaves
the slots as they are. -/
theorem books_are_kept {Id : Type} [DecidableEq Id] (options : PoolOptions)
    (msgs : List (Handling Id)) (hfewer : msgs.length < 2 ^ 64 - 1) :
    (after options msgs).Bookkept ∧ (after options msgs).options = options ∧
      EvictsOldest options msgs (after options msgs) ∧
      (∀ id, EvictsOldest options msgs ((after options msgs).beforeRoom id)) ∧
      ∀ id trySend connTx firstSent error,
        ((after options msgs).handleWhole id trySend connTx firstSent).2 = .refused error →
        ((after options msgs).handleWhole id trySend connTx firstSent).1.connections
          = (after options msgs).connections := by
  have hbooks := bookkept_after options hfewer
  rcases older_after options hfewer with ⟨-, horder⟩
  refine ⟨hbooks, after_options options msgs, hbooks.evictsOldest horder, ?_, ?_⟩
  · intro id
    exact (hbooks.beforeRoom id).evictsOldest (horder.sublist List.filter_sublist)
  · intro id trySend connTx firstSent error hrefused
    rcases handleWhole_cases (after options msgs) id trySend connTx firstSent with
      heq | ⟨generation, -, heq⟩
    · rw [heq] at hrefused ⊢
      exact hbooks.refused hrefused
    · rw [heq] at hrefused
      contradiction

/-- Two peers become idle, the first of them again. -/
def idleTwice : List (Handling Nat) :=
  [.request 0 (fun _ => .ok) 0 true, .request 1 (fun _ => .ok) 1 true, .idle 0 1, .idle 1 2,
    .idle 0 1]

/-- The second peer has been idle for longest then. -/
theorem books_are_kept_idleTwice :
    idleTwice.length < 2 ^ 64 - 1 ∧ (after ⟨2⟩ idleTwice).idle = [(1, 2), (0, 1)] ∧
      Older ⟨2⟩ idleTwice (1, 2) (0, 1) := by
  have hidle : (after ⟨2⟩ idleTwice).idle = [(1, 2), (0, 1)] := by decide
  exact ⟨by decide, hidle,
    ((books_are_kept ⟨2⟩ idleTwice (by decide)).2.2.1 _ _ hidle).1 _ (List.mem_singleton_self _)⟩

end IrohTransport.Pool
