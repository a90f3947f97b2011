import Mathlib.Algebra.Group.Nat.Defs
import Mathlib.Data.List.AList

/-!
# The main pool actor

{lit}`PoolActor` owns the map from peers to connection slots, the queue of idle
connections and the generation counter, and handles one message at a time.
Everything it does between two awaits is a function of its own state and of the
outcome of one {lit}`try_send`, so the module describes it as such; the mailboxes
themselves belong to the protocol module.

Mailboxes and reply channels are named by numbers: a mailbox by the connection
actor that reads it, a reply channel by the {lit}`get_or_connect` call that waits
on it.

Main results:

- Theorem {lit}`PoolActor.evictIdleConnection_cases`: eviction either empties the
  idle queue without touching a slot, or removes exactly one slot, one whose
  generation matches a queued idle entry.
- Theorem {lit}`PoolActor.handled`: everything the handler of a
  request can do to the slots and to the idle queue.
-/

namespace IrohTransport.Pool

/-- Errors of the pool operations.  The payload of a connect error, a value of
the transport library, is left out. -/
inductive PoolError
  | shutdown
  | timeout
  | tooManyConnections
  | busy
  | closed
  | connect
deriving DecidableEq, Repr

/-- The pool options that decide anything besides durations. -/
structure PoolOptions where
  maxConnections : Nat
deriving DecidableEq, Repr

/-- A request for a connection to a peer, with its reply channel. -/
structure RequestMsg (Id : Type) where
  id : Id
  tx : Nat
deriving DecidableEq, Repr

/-- Messages of the pool actor's queue. -/
inductive Msg (Id : Type)
  | request (req : RequestMsg Id)
  | idle (id : Id) (generation : Nat)
  | shutdown (id : Id) (generation : Nat)
deriving DecidableEq, Repr

/-- The pool actor's entry for a peer: the generation of its connection and the
mailbox of the actor that runs it. -/
structure ConnectionSlot where
  generation : Nat
  tx : Nat
deriving DecidableEq, Repr

/-- The pool actor's private state. -/
structure PoolActor (Id : Type) where
  options : PoolOptions
  connections : AList fun _ : Id => ConnectionSlot
  idle : List (Id × Nat)
  nextGeneration : Nat

/-- Outcome of a {lit}`try_send` into a bounded mailbox. -/
inductive TrySend
  | ok
  | full
  | closed
deriving DecidableEq, Repr

/-- What the handler of a request did with the request: it went into an existing
mailbox, it was answered with an error, or it opened a slot and waits to be put
into the fresh mailbox. -/
inductive RequestOutcome
  | forwarded (tx : Nat)
  | refused (error : PoolError)
  | spawned (generation : Nat)
deriving DecidableEq, Repr

/-- {lit}`AtomicU64::fetch_add(1)` wraps around. -/
def u64Succ (n : Nat) : Nat :=
  (n + 1) % 2 ^ 64

namespace PoolActor

variable {Id : Type} [DecidableEq Id]

/-- The state built by {lit}`PoolActor::new`. -/
def new (options : PoolOptions) : PoolActor Id where
  options := options
  connections := ∅
  idle := []
  nextGeneration := 1

def removeIdle (self : PoolActor Id) (id : Id) : PoolActor Id :=
  { self with idle := self.idle.filter fun entry => entry.1 ≠ id }

def addIdle (self : PoolActor Id) (id : Id) (generation : Nat) : PoolActor Id :=
  { self.removeIdle id with
    idle := (self.removeIdle id).idle ++ [(id, generation)] }

def matchesGeneration (self : PoolActor Id) (id : Id) (generation : Nat) : Bool :=
  (self.connections.lookup id).any fun slot => slot.generation = generation

def removeConnection (self : PoolActor Id) (id : Id) : PoolActor Id :=
  { self with connections := self.connections.erase id }

def removeConnectionIfMatch (self : PoolActor Id) (id : Id) (generation : Nat) :
    PoolActor Id :=
  if self.matchesGeneration id generation then
    (self.removeConnection id).removeIdle id
  else self

/-- The eviction loop over the entries still queued. -/
def evictFrom (self : PoolActor Id) : List (Id × Nat) → Bool × PoolActor Id
  | [] => (false, { self with idle := [] })
  | (id, generation) :: rest =>
      if self.matchesGeneration id generation then
        (true, { self.removeConnection id with idle := rest })
      else evictFrom self rest

def evictIdleConnection (self : PoolActor Id) : Bool × PoolActor Id :=
  self.evictFrom self.idle

/-- Insert a slot of the next generation for the peer; {lit}`connTx` is the fresh
mailbox. -/
def openSlot (self : PoolActor Id) (id : Id) (connTx : Nat) :
    PoolActor Id × RequestOutcome :=
  ({ self with
      connections := self.connections.insert id ⟨self.nextGeneration, connTx⟩
      nextGeneration := u64Succ self.nextGeneration },
    .spawned self.nextGeneration)

/-- The handler of a request once no usable slot is left for its peer: make room
or refuse. -/
def makeRoom (self : PoolActor Id) (id : Id) (connTx : Nat) :
    PoolActor Id × RequestOutcome :=
  if self.options.maxConnections ≤ self.connections.keys.length then
    let (evicted, self) := self.evictIdleConnection
    if evicted then self.openSlot id connTx
    else (self, .refused .tooManyConnections)
  else self.openSlot id connTx

/-- {lit}`PoolActor::handle` on a request, up to the first send into a fresh
mailbox.  The outcome of the {lit}`try_send` into the slot's mailbox is given by
{lit}`trySend`. -/
def handleRequest (self : PoolActor Id) (id : Id) (trySend : Nat → TrySend)
    (connTx : Nat) : PoolActor Id × RequestOutcome :=
  match self.connections.lookup id with
  | some slot =>
      match trySend slot.tx with
      | .ok => (self.removeIdle id, .forwarded slot.tx)
      | .closed => ((self.removeIdle id).removeConnection id).makeRoom id connTx
      | .full => (self.removeIdle id, .refused .busy)
  | none => (self.removeIdle id).makeRoom id connTx

/-- {lit}`PoolActor::handle` on an idle notification. -/
def handleIdle (self : PoolActor Id) (id : Id) (generation : Nat) : PoolActor Id :=
  if self.matchesGeneration id generation then self.addIdle id generation else self

/-- What {lit}`PoolActor::run` does to its state when it leaves its loop. -/
def clear (self : PoolActor Id) : PoolActor Id :=
  { self with connections := ∅, idle := [] }

/-! ## Small facts about the bookkeeping -/

@[simp]
theorem removeIdle_connections (self : PoolActor Id) (id : Id) :
    (self.removeIdle id).connections = self.connections :=
  rfl

@[simp]
theorem removeIdle_options (self : PoolActor Id) (id : Id) :
    (self.removeIdle id).options = self.options :=
  rfl

@[simp]
theorem removeIdle_nextGeneration (self : PoolActor Id) (id : Id) :
    (self.removeIdle id).nextGeneration = self.nextGeneration :=
  rfl

@[simp]
theorem removeConnection_connections (self : PoolActor Id) (id : Id) :
    (self.removeConnection id).connections = self.connections.erase id :=
  rfl

@[simp]
theorem removeConnection_options (self : PoolActor Id) (id : Id) :
    (self.removeConnection id).options = self.options :=
  rfl

@[simp]
theorem removeConnection_nextGeneration (self : PoolActor Id) (id : Id) :
    (self.removeConnection id).nextGeneration = self.nextGeneration :=
  rfl

@[simp]
theorem removeConnection_idle (self : PoolActor Id) (id : Id) :
    (self.removeConnection id).idle = self.idle :=
  rfl

@[simp]
theorem mem_removeIdle {self : PoolActor Id} {id id' : Id} {generation : Nat} :
    (id', generation) ∈ (self.removeIdle id).idle ↔
      (id', generation) ∈ self.idle ∧ id' ≠ id := by
  simp [removeIdle]

@[simp]
theorem mem_addIdle {self : PoolActor Id} {id id' : Id} {g g' : Nat} :
    (id', g') ∈ (self.addIdle id g).idle ↔
      ((id', g') ∈ self.idle ∧ id' ≠ id) ∨ (id' = id ∧ g' = g) := by
  simp [addIdle]

theorem matchesGeneration_iff {self : PoolActor Id} {id : Id} {generation : Nat} :
    self.matchesGeneration id generation = true ↔
      ∃ slot, self.connections.lookup id = some slot ∧ slot.generation = generation := by
  simp [matchesGeneration, Option.any_eq_true]

/-- The slot an idle entry stands for, if the map still carries its generation. -/
def idleSlot (self : PoolActor Id) (entry : Id × Nat) : Option (Id × ConnectionSlot) :=
  ((self.connections.lookup entry.1).filter fun slot =>
    slot.generation = entry.2).map fun slot => (entry.1, slot)

/-- The slot {lit}`evict_idle_connection` takes: that of the first queued idle
entry that still stands for one. -/
def evictionVictim (self : PoolActor Id) : Option (Id × ConnectionSlot) :=
  self.idle.findSome? self.idleSlot

theorem idleSlot_eq_some_iff {self : PoolActor Id} {entry : Id × Nat} {id : Id}
    {slot : ConnectionSlot} :
    self.idleSlot entry = some (id, slot) ↔
      self.connections.lookup entry.1 = some slot ∧ slot.generation = entry.2 ∧
        entry.1 = id := by
  simp only [idleSlot, Option.map_eq_some_iff, Option.filter_eq_some_iff,
    decide_eq_true_eq, Prod.mk.injEq]
  constructor
  · rintro ⟨slot', ⟨hlookup, hgen⟩, hid, rfl⟩
    exact ⟨hlookup, hgen, hid⟩
  · rintro ⟨hlookup, hgen, hid⟩
    exact ⟨slot, ⟨hlookup, hgen⟩, hid, rfl⟩

theorem idleSlot_isSome (self : PoolActor Id) (entry : Id × Nat) :
    (self.idleSlot entry).isSome = self.matchesGeneration entry.1 entry.2 := by
  cases hlookup : self.connections.lookup entry.1 with
  | none => simp [idleSlot, matchesGeneration, hlookup]
  | some slot =>
      by_cases hgen : slot.generation = entry.2 <;>
        simp [idleSlot, matchesGeneration, hlookup, hgen, Option.filter]

/-- The victim has the slot of a queued idle entry. -/
theorem evictionVictim_spec {self : PoolActor Id} {id : Id} {slot : ConnectionSlot}
    (h : self.evictionVictim = some (id, slot)) :
    (id, slot.generation) ∈ self.idle ∧ self.connections.lookup id = some slot := by
  rcases List.exists_of_findSome?_eq_some h with ⟨⟨id', g⟩, hmem, hfound⟩
  rcases idleSlot_eq_some_iff.mp hfound with ⟨hlookup, rfl, rfl⟩
  exact ⟨hmem, hlookup⟩

/-- Eviction drops the entries of no slot and takes the slot of the first other one. -/
theorem evictFrom_split (self : PoolActor Id) (entries : List (Id × Nat)) :
    ((∀ entry ∈ entries, self.matchesGeneration entry.1 entry.2 = false) ∧
      self.evictFrom entries = (false, { self with idle := [] })) ∨
    ∃ skipped id generation rest, entries = skipped ++ (id, generation) :: rest ∧
      (∀ entry ∈ skipped, self.matchesGeneration entry.1 entry.2 = false) ∧
      self.matchesGeneration id generation = true ∧
      self.evictFrom entries = (true, { self.removeConnection id with idle := rest }) := by
  induction entries with
  | nil => exact .inl ⟨by simp, rfl⟩
  | cons entry rest ih =>
      cases hmatch : self.matchesGeneration entry.1 entry.2 with
      | true =>
          refine .inr ⟨[], entry.1, entry.2, rest, rfl, by simp, hmatch, ?_⟩
          simp [evictFrom, hmatch]
      | false =>
          rcases ih with ⟨hnone, hevict⟩ | ⟨skipped, id, generation, kept, rfl, hnone, hid, hevict⟩
          · exact .inl ⟨by simpa [hmatch] using hnone, by simp [evictFrom, hmatch, hevict]⟩
          · refine .inr ⟨entry :: skipped, id, generation, kept, rfl, ?_, hid, ?_⟩
            · simpa [hmatch] using hnone
            · simp [evictFrom, hmatch, hevict]

private theorem evictFrom_eq (self : PoolActor Id) (entries : List (Id × Nat)) :
    (entries.findSome? self.idleSlot = none ∧
      self.evictFrom entries = (false, { self with idle := [] })) ∨
    ∃ id slot rest, entries.findSome? self.idleSlot = some (id, slot) ∧
      (∀ entry ∈ rest, entry ∈ entries) ∧
      self.evictFrom entries = (true, { self.removeConnection id with idle := rest }) := by
  have hskip : ∀ entries' : List (Id × Nat),
      (∀ entry ∈ entries', self.matchesGeneration entry.1 entry.2 = false) →
      entries'.findSome? self.idleSlot = none := by
    intro entries' hnone
    apply List.findSome?_eq_none_iff.mpr
    intro entry hentry
    rw [← Option.not_isSome_iff_eq_none, idleSlot_isSome, hnone entry hentry]
    simp
  rcases self.evictFrom_split entries with
    ⟨hnone, hevict⟩ | ⟨skipped, id, generation, rest, rfl, hnone, hid, hevict⟩
  · exact .inl ⟨hskip entries hnone, hevict⟩
  · rcases matchesGeneration_iff.mp hid with ⟨slot, hlookup, hgen⟩
    refine .inr ⟨id, slot, rest, ?_, ?_, hevict⟩
    · rw [List.findSome?_append, hskip skipped hnone, Option.none_or, List.findSome?_cons,
        idleSlot_eq_some_iff.mpr ⟨hlookup, hgen, rfl⟩]
    · intro entry hentry
      exact List.mem_append_right _ (List.mem_cons_of_mem _ hentry)

/-- Eviction either finds no victim, empties the idle queue and touches no slot,
or it removes the victim's slot and keeps part of the idle queue. -/
theorem evictIdleConnection_cases (self : PoolActor Id) :
    (self.evictionVictim = none ∧
      self.evictIdleConnection = (false, { self with idle := [] })) ∨
    ∃ id slot rest, self.evictionVictim = some (id, slot) ∧
      (∀ entry ∈ rest, entry ∈ self.idle) ∧
      self.evictIdleConnection = (true, { self.removeConnection id with idle := rest }) :=
  self.evictFrom_eq self.idle

/-! ## What the handler of a request can do -/

/-- The request cannot use a slot of its peer: there is none, or its mailbox is
closed. -/
def NeedsSlot (self : PoolActor Id) (id : Id) (trySend : Nat → TrySend) : Prop :=
  ∀ slot, self.connections.lookup id = some slot → trySend slot.tx = .closed

instance (self : PoolActor Id) (id : Id) (trySend : Nat → TrySend) :
    Decidable (self.NeedsSlot id trySend) :=
  decidable_of_iff ((self.connections.lookup id).all fun slot => trySend slot.tx = .closed)
    (by simp [NeedsSlot, Option.all_eq_true])

/-- The state in which the handler decides about room for a new slot. -/
def beforeRoom (self : PoolActor Id) (id : Id) : PoolActor Id :=
  (self.removeIdle id).removeConnection id

/-- The slot that the handler of a request evicts to make room, if it has to. -/
def victimFor (self : PoolActor Id) (id : Id) (trySend : Nat → TrySend) :
    Option (Id × ConnectionSlot) :=
  if self.NeedsSlot id trySend ∧
      self.options.maxConnections ≤ (self.beforeRoom id).connections.keys.length then
    (self.beforeRoom id).evictionVictim
  else none

/-- The five ways the handler of a request ends. -/
inductive Handled (self : PoolActor Id) (id : Id) (trySend : Nat → TrySend)
    (connTx : Nat) : PoolActor Id × RequestOutcome → Prop
  | forwarded (slot : ConnectionSlot) :
      self.connections.lookup id = some slot → trySend slot.tx = .ok →
      Handled self id trySend connTx (self.removeIdle id, .forwarded slot.tx)
  | busy (slot : ConnectionSlot) :
      self.connections.lookup id = some slot → trySend slot.tx = .full →
      Handled self id trySend connTx (self.removeIdle id, .refused .busy)
  | tooMany :
      self.NeedsSlot id trySend →
      self.options.maxConnections ≤ (self.beforeRoom id).connections.keys.length →
      (self.beforeRoom id).evictionVictim = none →
      Handled self id trySend connTx
        ({ self.beforeRoom id with idle := [] }, .refused .tooManyConnections)
  | evicted (victim : Id) (slot : ConnectionSlot) (rest : List (Id × Nat)) :
      self.NeedsSlot id trySend →
      self.options.maxConnections ≤ (self.beforeRoom id).connections.keys.length →
      (self.beforeRoom id).evictionVictim = some (victim, slot) →
      (∀ entry ∈ rest, entry ∈ (self.beforeRoom id).idle) →
      Handled self id trySend connTx
        (openSlot { (self.beforeRoom id).removeConnection victim with idle := rest }
          id connTx)
  | opened :
      self.NeedsSlot id trySend →
      (self.beforeRoom id).connections.keys.length < self.options.maxConnections →
      Handled self id trySend connTx ((self.beforeRoom id).openSlot id connTx)

theorem erase_of_lookup_none {connections : AList fun _ : Id => ConnectionSlot}
    {id : Id} (h : connections.lookup id = none) : connections.erase id = connections := by
  apply AList.ext
  exact List.kerase_of_notMem_keys (AList.lookup_eq_none.mp h)

private theorem handled_makeRoom {self : PoolActor Id} {id : Id} {trySend : Nat → TrySend}
    (connTx : Nat) (hneeds : self.NeedsSlot id trySend) :
    Handled self id trySend connTx ((self.beforeRoom id).makeRoom id connTx) := by
  unfold makeRoom
  split <;> rename_i hroom
  · rcases (self.beforeRoom id).evictIdleConnection_cases with
      ⟨hvictim, hevict⟩ | ⟨victim, slot, rest, hvictim, hsub, hevict⟩
    · rw [hevict]
      exact .tooMany hneeds hroom hvictim
    · rw [hevict]
      exact .evicted victim slot rest hneeds hroom hvictim hsub
  · exact .opened hneeds (Nat.lt_of_not_le hroom)

/-- Without a usable slot of its peer, a request is handled by making room. -/
theorem handleRequest_of_needsSlot {self : PoolActor Id} {id : Id} {trySend : Nat → TrySend}
    (connTx : Nat) (hneeds : self.NeedsSlot id trySend) :
    self.handleRequest id trySend connTx = (self.beforeRoom id).makeRoom id connTx := by
  unfold handleRequest
  cases hlookup : self.connections.lookup id with
  | none =>
      have hsame : self.beforeRoom id = self.removeIdle id := by
        have herase := erase_of_lookup_none hlookup
        simp only [beforeRoom, removeConnection, removeIdle_connections, herase]
        rfl
      rw [hsame]
  | some slot =>
      simp only [hneeds slot hlookup]
      rfl

/-- Every run of the handler of a request ends in one of the five ways. -/
theorem handled (self : PoolActor Id) (id : Id) (trySend : Nat → TrySend)
    (connTx : Nat) :
    Handled self id trySend connTx (self.handleRequest id trySend connTx) := by
  by_cases hneeds : self.NeedsSlot id trySend
  · rw [handleRequest_of_needsSlot connTx hneeds]
    exact handled_makeRoom connTx hneeds
  · simp only [NeedsSlot, not_forall] at hneeds
    rcases hneeds with ⟨slot, hlookup, hopen⟩
    unfold handleRequest
    cases hsend : trySend slot.tx with
    | ok =>
        simp only [hlookup, hsend]
        exact .forwarded slot hlookup hsend
    | full =>
        simp only [hlookup, hsend]
        exact .busy slot hlookup hsend
    | closed => contradiction

/-- With a usable slot of its peer, a request only takes the peer out of the idle queue. -/
theorem handleRequest_of_not_needsSlot {self : PoolActor Id} {id : Id}
    {trySend : Nat → TrySend} (connTx : Nat) (hneeds : ¬self.NeedsSlot id trySend) :
    (self.handleRequest id trySend connTx).1 = self.removeIdle id := by
  have hhandled := self.handled id trySend connTx
  revert hhandled
  generalize self.handleRequest id trySend connTx = res
  intro hhandled
  cases hhandled with
  | forwarded | busy => rfl
  | tooMany hneeds' | evicted _ _ _ hneeds' | opened hneeds' => contradiction

/-! ## What leaves the idle queue -/

/-- Eviction leaves a part of the idle queue in its order. -/
theorem evictIdleConnection_idle (self : PoolActor Id) :
    self.evictIdleConnection.2.idle.Sublist self.idle := by
  rcases self.evictFrom_split self.idle with
    ⟨-, hevict⟩ | ⟨skipped, id, generation, rest, hidle, -, -, hevict⟩
  · rw [evictIdleConnection, hevict]
    exact List.nil_sublist _
  · rw [evictIdleConnection, hevict, hidle]
    exact (List.sublist_cons_self _ rest).trans (List.sublist_append_right skipped _)

theorem makeRoom_idle (self : PoolActor Id) (id : Id) (connTx : Nat) :
    (self.makeRoom id connTx).1.idle.Sublist self.idle := by
  have hevicted := self.evictIdleConnection_idle
  unfold makeRoom
  split
  · revert hevicted
    rcases self.evictIdleConnection with ⟨evicted, self'⟩
    intro hevicted
    cases evicted <;> exact hevicted
  · exact List.Sublist.refl _

/-- A request takes its peer out of the idle queue and adds nothing to it. -/
theorem handleRequest_idle (self : PoolActor Id) (id : Id) (trySend : Nat → TrySend)
    (connTx : Nat) :
    (self.handleRequest id trySend connTx).1.idle.Sublist (self.removeIdle id).idle := by
  by_cases hneeds : self.NeedsSlot id trySend
  · rw [handleRequest_of_needsSlot connTx hneeds]
    exact (self.beforeRoom id).makeRoom_idle id connTx
  · rw [handleRequest_of_not_needsSlot connTx hneeds]

theorem removeConnectionIfMatch_idle (self : PoolActor Id) (id : Id) (generation : Nat) :
    (self.removeConnectionIfMatch id generation).idle.Sublist self.idle := by
  unfold removeConnectionIfMatch
  split
  · exact List.filter_sublist
  · exact List.Sublist.refl _

/-! ## Generations -/

/-- An actor is spawned only for a peer without a usable slot. -/
theorem needsSlot_of_spawned {self : PoolActor Id} {id : Id} {trySend : Nat → TrySend}
    {connTx generation : Nat}
    (h : (self.handleRequest id trySend connTx).2 = .spawned generation) :
    self.NeedsSlot id trySend := by
  have hhandled := self.handled id trySend connTx
  revert hhandled h
  generalize self.handleRequest id trySend connTx = res
  intro h hhandled
  cases hhandled with
  | evicted _ _ _ hneeds => exact hneeds
  | opened hneeds => exact hneeds
  | forwarded | busy | tooMany => cases h

/-- The generation counter moves exactly when an actor is spawned, and the actor
gets the generation before it. -/
theorem handleRequest_nextGeneration (self : PoolActor Id) (id : Id)
    (trySend : Nat → TrySend) (connTx : Nat) :
    ((self.handleRequest id trySend connTx).2 = .spawned self.nextGeneration ∧
      (self.handleRequest id trySend connTx).1.nextGeneration =
        u64Succ self.nextGeneration) ∨
    ((∀ generation, (self.handleRequest id trySend connTx).2 ≠ .spawned generation) ∧
      (self.handleRequest id trySend connTx).1.nextGeneration = self.nextGeneration) := by
  have hhandled := self.handled id trySend connTx
  revert hhandled
  generalize self.handleRequest id trySend connTx = res
  intro hhandled
  cases hhandled with
  | evicted | opened => exact .inl ⟨rfl, rfl⟩
  | forwarded | busy | tooMany => exact .inr ⟨by simp, rfl⟩

end PoolActor

end IrohTransport.Pool
