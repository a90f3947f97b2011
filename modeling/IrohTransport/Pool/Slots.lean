import IrohTransport.Pool.Steps

/-!
# The slots of the pool actor

Inversion of the steps of the protocol for the map from peers to connection slots,
and the facts about the map that hold in every reachable state.

Main results:

- Theorem {lit}`step_slot`: the only steps that open or remove the slot of a peer,
  with their reasons.
- Theorem {lit}`slotInv_of_reachable`: every slot names the actor that runs its
  generation for its peer, and there are at most {lit}`max_connections` slots.
-/

namespace IrohTransport.Pool

namespace PoolActor

variable {Id : Type} [DecidableEq Id]

/-- The victim of an eviction has a slot of its own, not that of the peer the room
is made for. -/
theorem victimFor_spec {self : PoolActor Id} {id victim : Id} {trySend : Nat → TrySend}
    {slot : ConnectionSlot} (h : self.victimFor id trySend = some (victim, slot)) :
    victim ≠ id ∧ self.connections.lookup victim = some slot ∧
      (victim, slot.generation) ∈ self.idle := by
  unfold victimFor at h
  split at h
  · rcases evictionVictim_spec h with ⟨hmem, hlookup⟩
    have hne : victim ≠ id := by
      rintro rfl
      simp [beforeRoom] at hlookup
    refine ⟨hne, ?_, ?_⟩
    · simpa [beforeRoom, AList.lookup_erase_ne hne] using hlookup
    · exact (mem_removeIdle.mp hmem).1
  · contradiction

/-- Everything the handler of a request can do to the slot of a peer. -/
inductive RequestSlot (self : PoolActor Id) (id : Id) (trySend : Nat → TrySend)
    (connTx : Nat) (peer : Id) : Option ConnectionSlot → RequestOutcome → Prop
  | same (outcome : RequestOutcome) :
      RequestSlot self id trySend connTx peer (self.connections.lookup peer) outcome
  | opened : peer = id → self.NeedsSlot id trySend →
      RequestSlot self id trySend connTx peer (some ⟨self.nextGeneration, connTx⟩)
        (.spawned self.nextGeneration)
  | stale (outcome : RequestOutcome) : peer = id → self.NeedsSlot id trySend →
      RequestSlot self id trySend connTx peer none outcome
  | evicted (slot : ConnectionSlot) (outcome : RequestOutcome) :
      self.victimFor id trySend = some (peer, slot) →
      RequestSlot self id trySend connTx peer none outcome

theorem handleRequest_slot (self : PoolActor Id) (id : Id) (trySend : Nat → TrySend)
    (connTx : Nat) (peer : Id) :
    RequestSlot self id trySend connTx peer
      ((self.handleRequest id trySend connTx).1.connections.lookup peer)
      (self.handleRequest id trySend connTx).2 := by
  have hhandled := self.handled id trySend connTx
  revert hhandled
  generalize self.handleRequest id trySend connTx = res
  intro hhandled
  cases hhandled with
  | forwarded | busy => exact .same _
  | tooMany hneeds =>
      by_cases hpeer : peer = id
      · subst hpeer
        simpa [beforeRoom] using RequestSlot.stale _ rfl hneeds
      · simpa [beforeRoom, AList.lookup_erase_ne hpeer] using RequestSlot.same _
  | opened hneeds =>
      by_cases hpeer : peer = id
      · subst hpeer
        simpa [openSlot, beforeRoom] using RequestSlot.opened rfl hneeds
      · simpa [openSlot, beforeRoom, AList.lookup_insert_ne hpeer,
          AList.lookup_erase_ne hpeer] using RequestSlot.same _
  | evicted victim slot rest hneeds hfull hvictim =>
      have hfor : self.victimFor id trySend = some (victim, slot) := by
        rw [victimFor, if_pos ⟨hneeds, hfull⟩, hvictim]
      by_cases hpeer : peer = id
      · subst hpeer
        simpa [openSlot, beforeRoom] using RequestSlot.opened rfl hneeds
      · by_cases hvic : peer = victim
        · subst hvic
          simpa [openSlot, beforeRoom, AList.lookup_insert_ne hpeer] using
            RequestSlot.evicted slot _ hfor
        · simpa [openSlot, beforeRoom, AList.lookup_insert_ne hpeer,
            AList.lookup_erase_ne hpeer, AList.lookup_erase_ne hvic] using RequestSlot.same _

theorem lookup_removeConnectionIfMatch (self : PoolActor Id) (id : Id) (generation : Nat)
    (peer : Id) :
    (self.removeConnectionIfMatch id generation).connections.lookup peer =
        self.connections.lookup peer ∨
      (peer = id ∧ (self.removeConnectionIfMatch id generation).connections.lookup peer = none ∧
        ∃ slot, self.connections.lookup peer = some slot ∧ slot.generation = generation) := by
  unfold removeConnectionIfMatch
  split <;> rename_i hmatch
  · by_cases hpeer : peer = id
    · subst hpeer
      exact .inr ⟨rfl, by simp, matchesGeneration_iff.mp hmatch⟩
    · exact .inl (by simp [AList.lookup_erase_ne hpeer])
  · exact .inl rfl

/-! ## The idle queue -/

theorem mem_removeConnectionIfMatch_idle {self : PoolActor Id} {id id' : Id}
    {generation generation' : Nat}
    (h : (id', generation') ∈ (self.removeConnectionIfMatch id generation).idle) :
    (id', generation') ∈ self.idle :=
  (self.removeConnectionIfMatch_idle id generation).subset h

/-- What a request leaves in the idle queue was there before and is of another peer. -/
theorem mem_handleRequest_idle {self : PoolActor Id} {id id' : Id} {trySend : Nat → TrySend}
    {connTx generation : Nat}
    (h : (id', generation) ∈ (self.handleRequest id trySend connTx).1.idle) :
    (id', generation) ∈ self.idle ∧ id' ≠ id :=
  mem_removeIdle.mp ((self.handleRequest_idle id trySend connTx).subset h)

/-! ## The options -/

theorem handleRequest_options (self : PoolActor Id) (id : Id) (trySend : Nat → TrySend)
    (connTx : Nat) : (self.handleRequest id trySend connTx).1.options = self.options := by
  have hhandled := self.handled id trySend connTx
  revert hhandled
  generalize self.handleRequest id trySend connTx = res
  intro hhandled
  cases hhandled <;> rfl

theorem handleIdle_options (self : PoolActor Id) (id : Id) (generation : Nat) :
    (self.handleIdle id generation).options = self.options := by
  unfold handleIdle
  split <;> rfl

theorem removeConnectionIfMatch_options (self : PoolActor Id) (id : Id)
    (generation : Nat) : (self.removeConnectionIfMatch id generation).options = self.options := by
  unfold removeConnectionIfMatch
  split <;> rfl

/-! ## How many slots there are -/

/-- The map keeps to the limit. -/
def Fits (self : PoolActor Id) : Prop :=
  self.connections.keys.length ≤ self.options.maxConnections

theorem keys_erase_le (connections : AList fun _ : Id => ConnectionSlot) (id : Id) :
    (connections.erase id).keys.length ≤ connections.keys.length := by
  rw [AList.keys_erase]
  exact List.length_erase_le

/-- A slot taken from the map makes room for one. -/
theorem keys_erase_of_lookup {connections : AList fun _ : Id => ConnectionSlot} {id : Id}
    {slot : ConnectionSlot} (h : connections.lookup id = some slot) :
    (connections.erase id).keys.length + 1 = connections.keys.length := by
  have hmem : id ∈ connections.keys := by
    rw [← AList.mem_keys, ← AList.lookup_isSome, h]
    rfl
  rw [AList.keys_erase]
  exact List.length_erase_add_one hmem

theorem keys_insert_erase (connections : AList fun _ : Id => ConnectionSlot)
    (id : Id) (slot : ConnectionSlot) :
    ((connections.erase id).insert id slot).keys.length =
      (connections.erase id).keys.length + 1 := by
  have hfresh : id ∉ (connections.erase id).keys := by
    rw [← AList.mem_keys, AList.mem_erase]
    simp
  rw [AList.keys_insert, List.length_cons, List.erase_of_not_mem hfresh]

theorem Fits.removeConnectionIfMatch {self : PoolActor Id} (h : self.Fits) (id : Id)
    (generation : Nat) : (self.removeConnectionIfMatch id generation).Fits := by
  unfold PoolActor.removeConnectionIfMatch
  split
  · exact Nat.le_trans (keys_erase_le _ _) h
  · exact h

/-- Room is made before a slot is opened. -/
theorem Fits.handleRequest {self : PoolActor Id} (h : self.Fits) (id : Id)
    (trySend : Nat → TrySend) (connTx : Nat) :
    (self.handleRequest id trySend connTx).1.Fits := by
  have hadmit : (self.beforeRoom id).connections.keys.length ≤ self.options.maxConnections :=
    Nat.le_trans (keys_erase_le _ _) h
  have hhandled := self.handled id trySend connTx
  revert hhandled
  generalize self.handleRequest id trySend connTx = res
  intro hhandled
  cases hhandled with
  | forwarded | busy => exact h
  | tooMany => exact hadmit
  | opened _ hroom =>
      simp only [Fits, openSlot, beforeRoom, removeConnection_connections,
        removeIdle_connections, keys_insert_erase]
      exact hroom
  | evicted victim slot rest _ _ hvictim =>
      have hlen := keys_erase_of_lookup (evictionVictim_spec hvictim).2
      simp only [beforeRoom, removeConnection_connections, removeIdle_connections] at hlen hadmit
      simp only [Fits, openSlot, beforeRoom, removeConnection_connections,
        removeIdle_connections]
      rw [AList.erase_erase, keys_insert_erase, AList.erase_erase, hlen]
      exact hadmit

end PoolActor

namespace State

variable {Id : Type} [DecidableEq Id]

/-- No step gives an actor a connection it was not already connecting to. -/
theorem ConnChange.holdsConnection {s : State Id} {p : Nat} {a a' : ConnActor Id}
    {action : Action Id} (h : ConnChange s p a action a')
    (hholds : a'.holdsConnection = true) : a.holdsConnection = true := by
  cases h with
  | moved event _ effect hmove => exact ConnActor.step_holdsConnection hmove hholds
  | remoteClosed hopen => simp [ConnActor.holdsConnection, hopen]
  | woken notified hpc =>
      simpa [ConnActor.holdsConnection, ConnActor.goto, hpc, ConnActor.isOpen] using hholds
  | _ => exact hholds

/-! ## The slot of one peer -/

/-- The slot that the pool actor's next move evicts. -/
def evicting (s : State Id) : Option (Id × ConnectionSlot) :=
  match s.poolPc with
  | .handling (.request req) => s.pool.victimFor req.id s.trySend
  | _ => none

theorem evicting_spec {s : State Id} {peer : Id} {slot : ConnectionSlot}
    (h : s.evicting = some (peer, slot)) :
    s.pool.connections.lookup peer = some slot ∧ (peer, slot.generation) ∈ s.pool.idle := by
  unfold evicting at h
  split at h
  · exact (PoolActor.victimFor_spec h).2
  · contradiction

/-- Everything one step can do to the slot of a peer.  A slot goes away because its
mailbox is closed, to make room, on a message of its own generation, because the
first send failed, or with the pool actor. -/
inductive SlotChange (s : State Id) (peer : Id) : Action Id → Option ConnectionSlot → Prop
  | same (action : Action Id) : SlotChange s peer action (s.pool.connections.lookup peer)
  | opened (req : RequestMsg Id) : s.poolPc = .handling (.request req) → peer = req.id →
      s.pool.NeedsSlot req.id s.trySend →
      (s.pool.handleRequest req.id s.trySend s.conns.length).2 =
        .spawned s.pool.nextGeneration →
      SlotChange s peer (.pool .handle) (some ⟨s.pool.nextGeneration, s.conns.length⟩)
  | stale (req : RequestMsg Id) : s.poolPc = .handling (.request req) → peer = req.id →
      s.pool.NeedsSlot req.id s.trySend → SlotChange s peer (.pool .handle) none
  | evicted (slot : ConnectionSlot) : s.evicting = some (peer, slot) →
      SlotChange s peer (.pool .handle) none
  | shutdown (slot : ConnectionSlot) :
      s.poolPc = .handling (.shutdown peer slot.generation) →
      s.pool.connections.lookup peer = some slot → SlotChange s peer (.pool .handle) none
  | firstFailed (p : Nat) (req : RequestMsg Id) (a : ConnActor Id) :
      s.poolPc = .sendFirst p req → peer = req.id → s.conns[p]? = some a →
      a.pc = .stopped → SlotChange s peer (.pool .sendFirst) none
  | teardown : s.poolPc = .teardown → SlotChange s peer (.pool .teardown) none

/-- The only steps that open or remove the slot of a peer. -/
theorem step_slot {s s' : State Id} {action : Action Id} (h : Step s action s') (peer : Id) :
    SlotChange s peer action (s'.pool.connections.lookup peer) := by
  have hpool := step_pool h
  revert hpool
  generalize s'.pool = pool
  intro hpool
  cases hpool with
  | same => exact .same _
  | request req hpc =>
      have hslot := s.pool.handleRequest_slot req.id s.trySend s.conns.length peer
      revert hslot
      generalize hlookup :
        (s.pool.handleRequest req.id s.trySend s.conns.length).1.connections.lookup peer = found
      generalize hout : (s.pool.handleRequest req.id s.trySend s.conns.length).2 = outcome
      intro hslot
      cases hslot with
      | same => exact .same _
      | opened hpeer hneeds => exact .opened req hpc hpeer hneeds hout
      | stale _ hpeer hneeds => exact .stale req hpc hpeer hneeds
      | evicted slot _ hvictim => exact .evicted slot (by simpa [evicting, hpc] using hvictim)
  | idle id generation hpc =>
      have hsame : (s.pool.handleIdle id generation).connections = s.pool.connections := by
        unfold PoolActor.handleIdle
        split <;> rfl
      rw [hsame]
      exact .same _
  | shutdown id generation hpc =>
      rcases s.pool.lookup_removeConnectionIfMatch id generation peer with
        hsame | ⟨rfl, hnone, slot, hold, rfl⟩
      · rw [hsame]
        exact .same _
      · rw [hnone]
        exact .shutdown slot hpc hold
  | firstFailed p req a hpc ha hstopped =>
      rcases s.pool.lookup_removeConnectionIfMatch req.id a.generation peer with
        hsame | ⟨hpeer, hnone, _⟩
      · rw [hsame]
        exact .same _
      · rw [hnone]
        exact .firstFailed p req a hpc hpeer ha hstopped
  | teardown hpc => exact .teardown hpc

/-- The idle queue gets an entry from an idle message that matches a slot, and loses
those of a peer with every request for it. -/
theorem step_idle {s s' : State Id} {action : Action Id} (h : Step s action s') {id : Id}
    {generation : Nat} (hmem : (id, generation) ∈ s'.pool.idle) :
    ((id, generation) ∈ s.pool.idle ∧
      ∀ req, action = .pool .handle → s.poolPc = .handling (.request req) → id ≠ req.id) ∨
    (action = .pool .handle ∧ s.poolPc = .handling (.idle id generation) ∧
      ∃ slot, s.pool.connections.lookup id = some slot ∧ slot.generation = generation) := by
  by_cases haction : action = .pool .handle
  · subst haction
    cases h with
    | poolHandle msg hpc =>
        rw [handle_pool] at hmem
        cases msg with
        | request req =>
            rcases PoolActor.mem_handleRequest_idle hmem with ⟨hold, hne⟩
            refine .inl ⟨hold, fun req' _ hpc' => ?_⟩
            rw [hpc, PoolPc.handling.injEq, Msg.request.injEq] at hpc'
            exact hpc' ▸ hne
        | idle id' generation' =>
            simp only [PoolActor.handleIdle] at hmem
            split at hmem <;> rename_i hmatch
            · rcases PoolActor.mem_addIdle.mp hmem with ⟨hold, _⟩ | ⟨rfl, rfl⟩
              · exact .inl ⟨hold, by simp [hpc]⟩
              · exact .inr ⟨rfl, hpc, PoolActor.matchesGeneration_iff.mp hmatch⟩
            · exact .inl ⟨hmem, by simp [hpc]⟩
        | shutdown id' generation' =>
            exact .inl ⟨PoolActor.mem_removeConnectionIfMatch_idle hmem, by simp [hpc]⟩
  · have hpool := step_pool h
    revert hmem hpool
    generalize s'.pool = pool
    intro hmem hpool
    cases hpool with
    | same => exact .inl ⟨hmem, fun req hact => (haction hact).elim⟩
    | firstFailed => exact .inl ⟨PoolActor.mem_removeConnectionIfMatch_idle hmem, by simp⟩
    | teardown => simp [PoolActor.clear] at hmem
    | request | idle | shutdown => exact (haction rfl).elim

/-- The options never change. -/
theorem step_options {s s' : State Id} {action : Action Id} (h : Step s action s') :
    s'.pool.options = s.pool.options := by
  have hpool := step_pool h
  revert hpool
  generalize s'.pool = pool
  intro hpool
  cases hpool with
  | same => rfl
  | request req => exact s.pool.handleRequest_options req.id _ _
  | idle id generation => exact s.pool.handleIdle_options id generation
  | shutdown id generation => exact s.pool.removeConnectionIfMatch_options id generation
  | firstFailed p req a => exact s.pool.removeConnectionIfMatch_options req.id a.generation
  | teardown => rfl

/-! ## What holds in every reachable state -/

/-- The slots and the actors of a reachable state. -/
structure SlotInv (s : State Id) : Prop where
  fits : s.pool.Fits
  slots : ∀ id slot, s.pool.connections.lookup id = some slot →
    ∃ a, s.conns[slot.tx]? = some a ∧ a.nodeId = id ∧ a.generation = slot.generation
  first : ∀ p req, s.poolPc = .sendFirst p req →
    ∃ a, s.conns[p]? = some a ∧ a.nodeId = req.id ∧
      s.pool.connections.lookup req.id = some ⟨a.generation, p⟩
  drained : s.rxClosed = true → s.poolPc = .draining ∨ s.poolPc = .stopped
  next : s.pool.nextGeneration = (s.conns.length + 1) % 2 ^ 64
  generations : ∀ (p : Nat) (a : ConnActor Id), s.conns[p]? = some a →
    a.generation = (p + 1) % 2 ^ 64

theorem slotInv_initial (options : PoolOptions) : SlotInv (initial options : State Id) := by
  refine ⟨Nat.zero_le _, ?_, ?_, by simp [initial], rfl, ?_⟩
  · intro id slot hslot
    simp [initial, PoolActor.new] at hslot
  · intro p req hpc
    cases hpc
  · intro p a ha
    simp [initial] at ha

/-- The pool actor is about to make a first send only right after it spawned the
actor. -/
theorem step_first {s s' : State Id} {action : Action Id} (h : Step s action s') {p : Nat}
    {req : RequestMsg Id} (hpc : s'.poolPc = .sendFirst p req) :
    (s.poolPc = .sendFirst p req ∧ s'.pool = s.pool) ∨
      (action = .pool .handle ∧ Spawns s req s' ∧ p = s.conns.length) := by
  cases h with
  | called c id =>
      simp only at hpc
      split at hpc
      · contradiction
      · exact .inl ⟨hpc, rfl⟩
  | invalidated c ref s' _ _ _ hsend =>
      rcases poolSend_cases hsend with rfl | rfl <;> exact .inl ⟨hpc, rfl⟩
  | moved q event a b effect s' ha hmove hemit =>
      rcases emit_pool hemit with ⟨hpool, hpoolPc⟩
      exact .inl ⟨hpoolPc.symm.trans hpc, hpool⟩
  | poolCheck =>
      simp only at hpc
      split at hpc <;> contradiction
  | poolHandle msg hhandling =>
      cases msg with
      | idle | shutdown => cases hpc
      | request req' =>
          rcases s.pool.handleRequest_nextGeneration req'.id s.trySend s.conns.length with
            ⟨hout, _⟩ | ⟨hnone, _⟩
          · have hspawn := handle_spawns hhandling hout
            rw [hspawn.poolPc] at hpc
            cases hpc
            exact .inr ⟨rfl, hspawn, rfl⟩
          · simp only [handle] at hpc
            split at hpc <;> rename_i hres
            · cases hpc
            · cases hpc
            · exact (hnone _ (congrArg Prod.snd hres)).elim
  | poolSendFirst q req' =>
      unfold sendFirst at hpc ⊢
      split at hpc
      · split at hpc <;> cases hpc
      · exact .inl ⟨hpc, rfl⟩
  | poolFinish =>
      rw [foldl_answer_frame _ _ _ poolPc fun s tx => s.answer_poolPc tx _] at hpc
      cases hpc
  | notifiedWaiters =>
      simp only at hpc
      split at hpc
      · cases hpc
      · exact .inl ⟨hpc, rfl⟩
  | poolSubscribe | poolShutdown | poolRecv | poolJoin | poolTeardown => cases hpc
  | _ => exact .inl ⟨hpc, rfl⟩

/-- An actor survives a step with its peer and its generation. -/
theorem step_identity {s s' : State Id} {action : Action Id} (h : Step s action s') {p : Nat}
    {a : ConnActor Id} (ha : s.conns[p]? = some a) :
    ∃ a', s'.conns[p]? = some a' ∧ a'.nodeId = a.nodeId ∧ a'.generation = a.generation := by
  rcases step_conn_of h ha with ⟨a', ha', hchange⟩
  exact ⟨a', ha', hchange.identity⟩

theorem Spawns.get {s s' : State Id} {req : RequestMsg Id} (h : Spawns s req s') :
    s'.conns[s.conns.length]? = some (.spawn req.id s.pool.nextGeneration) := by
  simp [h.conns]

/-- The fresh actor has the slot of its peer. -/
theorem Spawns.slot {s s' : State Id} {req : RequestMsg Id} (h : Spawns s req s') :
    s'.pool.connections.lookup req.id = some ⟨s.pool.nextGeneration, s.conns.length⟩ := by
  rw [h.pool]
  have hout := h.outcome
  have hhandled := s.pool.handled req.id s.trySend s.conns.length
  revert hhandled hout
  generalize s.pool.handleRequest req.id s.trySend s.conns.length = res
  intro hout hhandled
  cases hhandled with
  | opened | evicted => simp [PoolActor.openSlot, PoolActor.beforeRoom]
  | forwarded | busy | tooMany => cases hout

/-- A step in which the handler opens a slot spawns the actor for it. -/
theorem spawns_of_outcome {s s' : State Id} (h : Step s (.pool .handle) s')
    {req : RequestMsg Id} {generation : Nat} (hpc : s.poolPc = .handling (.request req))
    (hout : (s.pool.handleRequest req.id s.trySend s.conns.length).2 = .spawned generation) :
    Spawns s req s' := by
  cases h with
  | poolHandle msg hpc' =>
      rw [hpc, PoolPc.handling.injEq] at hpc'
      subst hpc'
      exact handle_spawns hpc hout

theorem SlotInv.fits_step {s s' : State Id} {action : Action Id} (hinv : s.SlotInv)
    (h : Step s action s') : s'.pool.Fits := by
  have hpool := step_pool h
  revert hpool
  generalize s'.pool = pool
  intro hpool
  cases hpool with
  | same => exact hinv.fits
  | request req => exact hinv.fits.handleRequest _ _ _
  | idle id generation =>
      unfold PoolActor.handleIdle
      split
      · exact hinv.fits
      · exact hinv.fits
  | shutdown | firstFailed => exact hinv.fits.removeConnectionIfMatch _ _
  | teardown => exact Nat.zero_le _

theorem SlotInv.slots_step {s s' : State Id} {action : Action Id} (hinv : s.SlotInv)
    (h : Step s action s') (id : Id) (slot : ConnectionSlot)
    (hslot : s'.pool.connections.lookup id = some slot) :
    ∃ a, s'.conns[slot.tx]? = some a ∧ a.nodeId = id ∧ a.generation = slot.generation := by
  have hchange := step_slot h id
  rw [hslot] at hchange
  generalize hfound : some slot = found at hchange
  cases hchange with
  | same =>
      rcases hinv.slots id slot hfound.symm with ⟨a, ha, hnode, hgen⟩
      rcases step_identity h ha with ⟨a', ha', hnode', hgen'⟩
      exact ⟨a', ha', hnode'.trans hnode, hgen'.trans hgen⟩
  | opened req hpc hpeer hneeds hout =>
      cases hfound
      exact ⟨_, (spawns_of_outcome h hpc hout).get, hpeer.symm, rfl⟩
  | stale | evicted | shutdown | firstFailed | teardown => cases hfound

theorem SlotInv.first_step {s s' : State Id} {action : Action Id} (hinv : s.SlotInv)
    (h : Step s action s') (p : Nat) (req : RequestMsg Id)
    (hpc : s'.poolPc = .sendFirst p req) :
    ∃ a, s'.conns[p]? = some a ∧ a.nodeId = req.id ∧
      s'.pool.connections.lookup req.id = some ⟨a.generation, p⟩ := by
  rcases step_first h hpc with ⟨hpc', hpool⟩ | ⟨_, hspawn, rfl⟩
  · rcases hinv.first p req hpc' with ⟨a, ha, hnode, hslot⟩
    rcases step_identity h ha with ⟨a', ha', hnode', hgen'⟩
    refine ⟨a', ha', hnode'.trans hnode, ?_⟩
    rw [hpool, hslot, hgen']
  · exact ⟨_, hspawn.get, rfl, hspawn.slot⟩

/-- Once its queue is closed the pool actor only waits for its tasks. -/
theorem SlotInv.drained_step {s s' : State Id} {action : Action Id} (hinv : s.SlotInv)
    (h : Step s action s') (hrx : s'.rxClosed = true) :
    s'.poolPc = .draining ∨ s'.poolPc = .stopped := by
  rcases step_rxClosed h with hsame | htear
  · have hold := hinv.drained (hsame.symm.trans hrx)
    have hchange := step_poolPc h
    generalize s'.poolPc = pc at hchange ⊢
    cases hchange with
    | same => exact hold
    | finished => exact .inr rfl
    | toreDown => exact .inl rfl
    | started _ _ hpc | checked hpc | subscribed hpc | shutdown hpc | received _ hpc
    | joined hpc | handled _ hpc | spawned _ hpc | sentFirst _ _ hpc | woken _ hpc =>
        rw [hpc] at hold
        simp at hold
  · subst htear
    cases h
    exact .inl rfl

private theorem u64Succ_mod (n : Nat) : u64Succ (n % 2 ^ 64) = (n + 1) % 2 ^ 64 := by
  simp [u64Succ]

/-- Every step keeps the invariant of the slots. -/
theorem SlotInv.step {s s' : State Id} {action : Action Id} (hinv : s.SlotInv)
    (h : Step s action s') : s'.SlotInv := by
  refine ⟨hinv.fits_step h, hinv.slots_step h, hinv.first_step h, hinv.drained_step h, ?_,
    fun p a' ha' => ?_⟩
  · rcases step_spawns h with ⟨hlen, hnext⟩ | ⟨_, req, hspawn⟩
    · rw [hlen, hnext]
      exact hinv.next
    · rw [hspawn.next, hinv.next, u64Succ_mod, hspawn.conns]
      simp
  · rcases step_conn h ha' with ⟨a, ha, hchange⟩ | hspawn
    · exact hchange.identity.2.trans (hinv.generations p a ha)
    · cases hspawn with
      | spawned req generation hp hpc hout =>
          subst hp
          rcases (spawns_of_outcome h hpc hout).get with hget
          rw [ha', Option.some.injEq] at hget
          rw [hget, ConnActor.spawn]
          exact hinv.next

/-- Before the generation counter wraps around, a generation names one actor. -/
theorem SlotInv.generation_inj {s : State Id} (hinv : s.SlotInv)
    (hfewer : s.conns.length < 2 ^ 64) {p q : Nat} {a b : ConnActor Id}
    (ha : s.conns[p]? = some a) (hb : s.conns[q]? = some b)
    (hgen : a.generation = b.generation) : p = q := by
  have hp := (List.getElem?_eq_some_iff.mp ha).1
  have hq := (List.getElem?_eq_some_iff.mp hb).1
  rw [hinv.generations p a ha, hinv.generations q b hb,
    Nat.mod_eq_of_lt (by omega), Nat.mod_eq_of_lt (by omega)] at hgen
  omega

end State

open State

/-- The invariant of the slots holds in every reachable state. -/
theorem slotInv_of_reachable {Id : Type} [DecidableEq Id] {options : PoolOptions}
    {s : State Id} (hs : (protocol options).Reachable s) : s.SlotInv :=
  hs.invariant (slotInv_initial options)
    fun _ _ _ _ hinv _ hstep => hinv.step (step_sound hstep)

end IrohTransport.Pool
