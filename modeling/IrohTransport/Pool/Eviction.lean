import IrohTransport.Pool.Reuse

/-!
# Idle connections and eviction

Every request takes its peer out of the idle queue, whatever becomes of the request, and
only an idle message of the connection actor puts the peer back.  The module follows the
idle timer of an actor against the idle queue, the messages in flight and the mailbox:
as long as the timer is armed and the actor has its slot, one of them keeps the eviction
from forgetting the connection.

Main results:

- Theorem {lit}`PoolActor.mem_handleRequest_idle_of_kept`: a request for another peer takes
  an entry out of the idle queue only together with its slot.
- Theorem {lit}`State.Remembered.step`: what keeps a connection from being forgotten, step
  by step.
- Theorem {lit}`idle_connection_is_remembered`: no idle connection is forgotten, and a
  request is refused for want of room only when none could be evicted.
- Theorem {lit}`closed_connection_is_forgotten`: an actor that has taken a request and
  finds its connection closed is in no queue.
-/

namespace IrohTransport.Pool

namespace ConnActor

variable {Id : Type}

/-- The actor has not left its loop. -/
def inLoop (self : ConnActor Id) : Bool :=
  match self.pc with
  | .exiting | .stopped => false
  | _ => true

/-- The actor has taken a request and has not answered it. -/
def holdsRequest (self : ConnActor Id) : Bool :=
  match self.pc with
  | .onRequest _ | .sendClosed _ | .replyClosed _ => true
  | _ => false

theorem not_stopped_of_inLoop {a : ConnActor Id} (hloop : a.inLoop = true) :
    a.pc ≠ .stopped := by
  intro hpc
  simp [inLoop, hpc] at hloop

/-- An actor that leaves its loop does not come back. -/
theorem step_inLoop {env : Env} {a a' : ConnActor Id} {ev : ConnEvent} {eff : Effect Id}
    (h : a.step env ev = some (a', eff)) (hloop : a'.inLoop = true) : a.inLoop = true := by
  cases step_moves h with
  | exit => simp [inLoop, ConnActor.exit] at hloop
  | _ => simp_all [inLoop, goto]

/-- The idle timer is started by the move that sends the idle message. -/
theorem step_idleActive {env : Env} {a a' : ConnActor Id} {ev : ConnEvent} {eff : Effect Id}
    (h : a.step env ev = some (a', eff)) (hidle : a'.idleActive = true) :
    a.idleActive = true ∨ eff = .send a.idleMsg := by
  cases step_moves h with
  | sendIdle => exact .inr rfl
  | serveGone | serveLease => simp at hidle
  | _ => exact .inl hidle

/-- A request leaves the mailbox for the actor's hands, and it leaves these when it is
served, which stops the timer, or when the actor leaves its loop. -/
theorem step_engaged {env : Env} {a a' : ConnActor Id} {ev : ConnEvent} {eff : Effect Id}
    (htimed : Timed a) (h : a.step env ev = some (a', eff)) (hloop : a'.inLoop = true)
    (hidle : a'.idleActive = true) (hreq : a.mailbox ≠ [] ∨ a.holdsRequest = true) :
    a'.mailbox ≠ [] ∨ a'.holdsRequest = true := by
  cases step_moves h with
  | serveGone | serveLease => simp at hidle
  | serveError tx hpc hnone =>
      have hsome := htimed (.inl hidle)
      simp [hnone] at hsome
  | replyClosed | exit => simp [inLoop, goto, ConnActor.exit] at hloop
  | _ => simp_all [holdsRequest, goto]

end ConnActor

namespace PoolActor

variable {Id : Type} [DecidableEq Id]

/-- Making room takes an entry out of the idle queue only together with its slot. -/
theorem mem_makeRoom_idle_of_kept {self : PoolActor Id} {id id' : Id} {slot : ConnectionSlot}
    {connTx : Nat} (hne : id' ≠ id) (hmem : (id', slot.generation) ∈ self.idle)
    (hslot : self.connections.lookup id' = some slot)
    (hkept : (self.makeRoom id connTx).1.connections.lookup id' ≠ none) :
    (id', slot.generation) ∈ (self.makeRoom id connTx).1.idle := by
  have hmatch : self.matchesGeneration id' slot.generation = true :=
    matchesGeneration_iff.mpr ⟨slot, hslot, rfl⟩
  unfold makeRoom at hkept ⊢
  split <;> rename_i hroom
  · rw [if_pos hroom] at hkept
    rcases self.evictFrom_split self.idle with
      ⟨hnone, -⟩ | ⟨skipped, victim, generation, rest, hidle, hskipped, -, hevict⟩
    · have hfalse := hnone _ hmem
      rw [hmatch] at hfalse
      contradiction
    · rw [evictIdleConnection, hevict] at hkept ⊢
      rw [hidle, List.mem_append, List.mem_cons] at hmem
      rcases hmem with hmem | heq | hmem
      · have hfalse := hskipped _ hmem
        rw [hmatch] at hfalse
        contradiction
      · rw [Prod.mk.injEq] at heq
        obtain ⟨rfl, -⟩ := heq
        simp [openSlot, AList.lookup_insert_ne hne] at hkept
      · exact hmem
  · exact hmem

/-- A request for another peer takes an entry out of the idle queue only together with its
slot. -/
theorem mem_handleRequest_idle_of_kept {self : PoolActor Id} {id id' : Id}
    {slot : ConnectionSlot} {trySend : Nat → TrySend} {connTx : Nat} (hne : id' ≠ id)
    (hmem : (id', slot.generation) ∈ self.idle)
    (hslot : self.connections.lookup id' = some slot)
    (hkept : (self.handleRequest id trySend connTx).1.connections.lookup id' ≠ none) :
    (id', slot.generation) ∈ (self.handleRequest id trySend connTx).1.idle := by
  have hmem' : (id', slot.generation) ∈ (self.removeIdle id).idle := mem_removeIdle.mpr ⟨hmem, hne⟩
  by_cases hneeds : self.NeedsSlot id trySend
  · rw [handleRequest_of_needsSlot connTx hneeds] at hkept ⊢
    have hslot' : (self.beforeRoom id).connections.lookup id' = some slot := by
      simpa [beforeRoom, AList.lookup_erase_ne hne] using hslot
    exact mem_makeRoom_idle_of_kept hne hmem' hslot' hkept
  · rw [handleRequest_of_not_needsSlot connTx hneeds]
    exact hmem'

/-- An idle message keeps the entries of the slots, and adds one for its own slot. -/
theorem mem_handleIdle {self : PoolActor Id} {id id' : Id} {generation : Nat}
    {slot : ConnectionSlot} (hslot : self.connections.lookup id' = some slot)
    (h : (id', slot.generation) ∈ self.idle ∨ id = id' ∧ generation = slot.generation) :
    (id', slot.generation) ∈ (self.handleIdle id generation).idle := by
  unfold handleIdle
  split <;> rename_i hmatch
  · rw [mem_addIdle]
    by_cases hid : id' = id
    · subst hid
      rcases matchesGeneration_iff.mp hmatch with ⟨slot', hslot', rfl⟩
      rw [hslot, Option.some.injEq] at hslot'
      exact .inr ⟨rfl, hslot' ▸ rfl⟩
    · rcases h with hmem | ⟨heq, -⟩
      · exact .inl ⟨hmem, hid⟩
      · exact (hid heq.symm).elim
  · rcases h with hmem | ⟨rfl, rfl⟩
    · exact hmem
    · exact (hmatch (matchesGeneration_iff.mpr ⟨slot, hslot, rfl⟩)).elim

/-- A slot is removed together with the entries of its peer, and no others are. -/
theorem mem_removeConnectionIfMatch_of_kept {self : PoolActor Id} {id id' : Id}
    {generation generation' : Nat} (hmem : (id', generation') ∈ self.idle)
    (hkept : (self.removeConnectionIfMatch id generation).connections.lookup id' ≠ none) :
    (id', generation') ∈ (self.removeConnectionIfMatch id generation).idle := by
  unfold removeConnectionIfMatch at hkept ⊢
  split <;> rename_i hmatch
  · rw [if_pos hmatch] at hkept
    refine mem_removeIdle.mpr ⟨hmem, ?_⟩
    rintro rfl
    simp at hkept
  · exact hmem

end PoolActor

namespace State

variable {Id : Type} [DecidableEq Id]

/-! ## Steps -/

theorem ConnChange.inLoop {s : State Id} {p : Nat} {a a' : ConnActor Id} {action : Action Id}
    (h : ConnChange s p a action a') (hloop : a'.inLoop = true) : a.inLoop = true := by
  cases h with
  | moved event _ effect hmove => exact ConnActor.step_inLoop hmove hloop
  | woken notified hpc => simp [ConnActor.inLoop, hpc]
  | _ => exact hloop

theorem ConnChange.idleActive {s : State Id} {p : Nat} {a a' : ConnActor Id}
    {action : Action Id} (h : ConnChange s p a action a') (hidle : a'.idleActive = true) :
    a.idleActive = true ∨ ∃ event, action = .conn p event ∧
      a.step (s.env p) event = some (a', .send a.idleMsg) := by
  cases h with
  | moved event _ effect hmove =>
      rcases ConnActor.step_idleActive hmove hidle with hwas | rfl
      · exact .inl hwas
      · exact .inr ⟨event, rfl, hmove⟩
  | _ => exact .inl hidle

theorem ConnChange.engaged {s : State Id} {p : Nat} {a a' : ConnActor Id} {action : Action Id}
    (h : ConnChange s p a action a') (htimed : a.Timed) (hloop : a'.inLoop = true)
    (hidle : a'.idleActive = true) (hreq : a.mailbox ≠ [] ∨ a.holdsRequest = true) :
    a'.mailbox ≠ [] ∨ a'.holdsRequest = true := by
  cases h with
  | moved event _ effect hmove => exact ConnActor.step_engaged htimed hmove hloop hidle hreq
  | forwarded | first => exact .inl (by simp)
  | woken notified hpc =>
      exact hreq.imp id fun hholds => by simp [ConnActor.holdsRequest, hpc] at hholds
  | _ => exact hreq

/-- A message in flight stays in flight until it is handled. -/
theorem step_inFlight_kept {s s' : State Id} {action : Action Id} (h : Step s action s')
    (hunshut : s.Unshut) {msg : Msg Id} (hmsg : s.InFlight msg) :
    s'.InFlight msg ∨ action = .pool .handle ∧ s.poolPc = .handling msg := by
  rcases hmsg with hqueue | hpc
  · cases h with
    | sent => exact .inl (.inl (List.mem_append_left _ hqueue))
    | invalidated c ref s' _ _ _ hsend =>
        rcases poolSend_cases hsend with rfl | rfl
        · exact .inl (.inl hqueue)
        · exact .inl (.inl (List.mem_append_left _ hqueue))
    | moved p event a a' effect s' ha hmove hemit =>
        rcases emit_queue hemit with hsame | ⟨sent, -, hsent⟩
        · exact .inl (.inl (by rw [hsame]; exact hqueue))
        · exact .inl (.inl (by rw [hsent]; exact List.mem_append_left _ hqueue))
    | poolRecv head rest hpc hhead =>
        rw [hhead, List.mem_cons] at hqueue
        rcases hqueue with rfl | hrest
        · exact .inl (.inr rfl)
        · exact .inl (.inl hrest)
    | poolHandle handled hpc =>
        exact .inl (.inl (by rw [handle_queue]; exact hqueue))
    | poolSendFirst p req hpc =>
        refine .inl (.inl ?_)
        unfold sendFirst
        split
        · split
          · simpa using hqueue
          · exact hqueue
        · exact hqueue
    | poolFinish hpc =>
        have hrun := hunshut.running
        rw [hpc] at hrun
        contradiction
    | _ => exact .inl (.inl hqueue)
  · have hchange := step_poolPc h
    generalize hpc' : s'.poolPc = pc' at hchange
    cases hchange with
    | same => exact .inl (.inr (hpc'.trans hpc))
    | handled msg' => exact .inr ⟨rfl, hpc⟩
    | spawned req => exact .inr ⟨rfl, hpc⟩
    | started _ _ hwas | checked hwas | subscribed hwas | shutdown hwas | received _ hwas
    | joined hwas | sentFirst _ _ hwas | toreDown hwas | finished hwas | woken _ hwas =>
        rw [hpc] at hwas
        contradiction

/-- An entry stays in the idle queue as long as its slot stays, except that a request for
its peer takes it out. -/
theorem step_idle_kept {s s' : State Id} {action : Action Id} (h : Step s action s') {id : Id}
    {slot : ConnectionSlot} (hmem : (id, slot.generation) ∈ s.pool.idle)
    (hslot : s.pool.connections.lookup id = some slot)
    (hkept : s'.pool.connections.lookup id ≠ none) :
    (id, slot.generation) ∈ s'.pool.idle ∨
      ∃ req, action = .pool .handle ∧ s.poolPc = .handling (.request req) ∧ req.id = id := by
  have hpool := step_pool h
  revert hkept hpool
  generalize s'.pool = pool
  intro hkept hpool
  cases hpool with
  | same => exact .inl hmem
  | request req hpc =>
      by_cases hid : id = req.id
      · exact .inr ⟨req, rfl, hpc, hid.symm⟩
      · exact .inl (PoolActor.mem_handleRequest_idle_of_kept hid hmem hslot hkept)
  | idle id' generation => exact .inl (PoolActor.mem_handleIdle hslot (.inl hmem))
  | shutdown | firstFailed =>
      exact .inl (PoolActor.mem_removeConnectionIfMatch_of_kept hmem hkept)
  | teardown => simp [PoolActor.clear] at hkept

/-- A request for the peer of an actor that has its slot and has not stopped finds room in
its mailbox, or finds the mailbox full of requests. -/
theorem handle_mailbox {s : State Id} {p : Nat} {a : ConnActor Id} {req : RequestMsg Id}
    {slot : ConnectionSlot} (ha : s.conns[p]? = some a) (hpc : a.pc ≠ .stopped)
    (hslot : s.pool.connections.lookup req.id = some slot) (htx : slot.tx = p) :
    ∃ a', (s.handle (.request req)).conns[p]? = some a' ∧ a'.mailbox ≠ [] := by
  subst htx
  by_cases hroom : a.mailbox.length < connectionChannelCapacity
  · have hsend : s.trySend slot.tx = .ok := by simp [trySend, ha, hpc, hroom]
    refine ⟨{ a with mailbox := a.mailbox ++ [req] }, ?_, by simp⟩
    simp [handle, PoolActor.handleRequest, hslot, hsend, deliver, ha]
  · have hsend : s.trySend slot.tx = .full := by simp [trySend, ha, hpc, hroom]
    refine ⟨a, ?_, ?_⟩
    · simp [handle, PoolActor.handleRequest, hslot, hsend, ha]
    · intro hnil
      simp [hnil, connectionChannelCapacity] at hroom

/-! ## What keeps a connection from being forgotten -/

/-- The connection is in the idle queue, or a message will put it there, or a request will
take it out of its idleness or end it. -/
def Remembered (s : State Id) (a : ConnActor Id) : Prop :=
  (a.nodeId, a.generation) ∈ s.pool.idle ∨ s.InFlight a.idleMsg ∨ a.mailbox ≠ [] ∨
    a.holdsRequest = true

/-- The invariant of the idle timers. -/
structure TimerInv (s : State Id) : Prop where
  timed : ∀ (p : Nat) (a : ConnActor Id), s.conns[p]? = some a → a.Timed
  remembered : ∀ (p : Nat) (a : ConnActor Id), s.conns[p]? = some a → a.inLoop = true →
    a.idleActive = true → s.HasSlot p a → s.Remembered a

/-- An actor that has its slot after a step had it before. -/
theorem hasSlot_of_step {s s' : State Id} {action : Action Id} (h : Step s action s') {p : Nat}
    {a a' : ConnActor Id} (ha : s.conns[p]? = some a) (hnode : a'.nodeId = a.nodeId)
    (hslot' : s'.HasSlot p a') :
    ∃ slot, s.pool.connections.lookup a.nodeId = some slot ∧ slot.tx = p ∧
      s'.pool.connections.lookup a.nodeId = some slot := by
  rcases hslot' with ⟨slot, hlookup, htx⟩
  rw [hnode] at hlookup
  have hchange := step_slot h a.nodeId
  rw [hlookup] at hchange
  generalize hfound : some slot = found at hchange
  cases hchange with
  | same => exact ⟨slot, hfound.symm, htx, hlookup⟩
  | opened =>
      cases hfound
      have hlt := (List.getElem?_eq_some_iff.mp ha).1
      simp only at htx
      omega
  | stale | evicted | shutdown | firstFailed | teardown => cases hfound

/-- An idle message that is sent before the shutdown enters the queue. -/
theorem inFlight_of_sent {s s' : State Id} {p : Nat} {event : ConnEvent} {a a' : ConnActor Id}
    {msg : Msg Id} (h : Step s (.conn p event) s') (hunshut : s.Unshut)
    (ha : s.conns[p]? = some a) (hmove : a.step (s.env p) event = some (a', .send msg)) :
    s'.InFlight msg := by
  cases h with
  | moved _ _ b b' effect s' hb hmove' hemit =>
      rw [ha, Option.some.injEq] at hb
      subst hb
      rw [hmove', Option.some.injEq, Prod.mk.injEq] at hmove
      rcases hmove with ⟨rfl, rfl⟩
      have hrx : (s.setConn p b').rxClosed = false := hunshut.rxClosed
      simp only [emit, poolSend, hrx, Bool.false_eq_true, if_false] at hemit
      split at hemit
      · cases hemit
        exact .inl (List.mem_append_right _ List.mem_cons_self)
      · contradiction

/-- A connection that is not forgotten before a step is not forgotten after it. -/
theorem Remembered.step {s s' : State Id} {action : Action Id} (hslots : s.SlotInv)
    (hunshut : s.Unshut) (h : Step s action s') {p : Nat} {a a' : ConnActor Id}
    (ha : s.conns[p]? = some a) (ha' : s'.conns[p]? = some a')
    (hchange : ConnChange s p a action a') (htimed : a.Timed) (hloop' : a'.inLoop = true)
    (hidle' : a'.idleActive = true) {slot : ConnectionSlot}
    (hslot : s.pool.connections.lookup a.nodeId = some slot) (htx : slot.tx = p)
    (hslot' : s'.pool.connections.lookup a.nodeId = some slot) (hwas : s.Remembered a) :
    s'.Remembered a' := by
  have hgen : a.generation = slot.generation := by
    rcases hslots.slots _ _ hslot with ⟨b, hb, -, hgen⟩
    rw [htx, ha, Option.some.injEq] at hb
    exact hb ▸ hgen
  rcases hchange.identity with ⟨hnode', hgen'⟩
  have hmsg : a'.idleMsg = a.idleMsg := by rw [ConnActor.idleMsg, hnode', hgen']; rfl
  unfold Remembered at hwas ⊢
  rw [hnode', hgen', hmsg]
  rcases hwas with hidle | hflight | hengaged
  · rw [hgen] at hidle ⊢
    rcases step_idle_kept h hidle hslot (by simp [hslot']) with hkept | ⟨req, rfl, hpc, hid⟩
    · exact .inl hkept
    · cases h with
      | poolHandle msg hpc' =>
          rw [hpc, PoolPc.handling.injEq] at hpc'
          subst hpc'
          rcases handle_mailbox ha (ConnActor.not_stopped_of_inLoop (hchange.inLoop hloop'))
            (hid ▸ hslot) htx with ⟨b, hb, hmail⟩
          rw [ha', Option.some.injEq] at hb
          exact .inr (.inr (.inl (hb ▸ hmail)))
  · rcases step_inFlight_kept h hunshut hflight with hkept | ⟨rfl, hpc⟩
    · exact .inr (.inl hkept)
    · refine .inl ?_
      cases h with
      | poolHandle msg hpc' =>
          rw [hpc, PoolPc.handling.injEq] at hpc'
          subst hpc'
          rw [hgen, handle_pool]
          exact PoolActor.mem_handleIdle hslot (.inr ⟨rfl, hgen⟩)
  · exact .inr (.inr (hchange.engaged htimed hloop' hidle' hengaged))

theorem TimerInv.step {s s' : State Id} {action : Action Id} (hinv : s.TimerInv)
    (hslots : s.SlotInv) (hunshut : s.Unshut) (h : Step s action s') : s'.TimerInv := by
  constructor
  case timed => exact step_timed h hinv.timed
  case remembered =>
    intro p a' ha' hloop' hidle' hslot'
    rcases step_conn h ha' with ⟨a, ha, hchange⟩ | hspawn
    · rcases hchange.idleActive hidle' with hidle | ⟨event, rfl, hmove⟩
      · rcases hasSlot_of_step h ha hchange.identity.1 hslot' with ⟨slot, hslot, htx, hkept⟩
        have hwas := hinv.remembered p a ha (hchange.inLoop hloop') hidle ⟨slot, hslot, htx⟩
        exact hwas.step hslots hunshut h ha ha' hchange (hinv.timed p a ha) hloop' hidle' hslot
          htx hkept
      · rcases hchange.identity with ⟨hnode', hgen'⟩
        have hflight := inFlight_of_sent h hunshut ha hmove
        refine .inr (.inl ?_)
        rw [ConnActor.idleMsg, hnode', hgen']
        exact hflight
    · cases hspawn
      simp [ConnActor.spawn] at hidle'

end State

open State

variable {Id : Type} [DecidableEq Id]

/-- Before the shutdown the invariant of the idle timers holds. -/
theorem timerInv_of_reachable {options : PoolOptions} {s : State Id}
    (hs : (protocol options).Reachable s) (hopen : s.closed = false) :
    s.Unshut ∧ s.TimerInv := by
  refine hs.invariant (I := fun s => s.closed = false → s.Unshut ∧ s.TimerInv) ?_ ?_ hopen
  · exact fun _ => ⟨unshut_initial options, by constructor <;> simp [protocol, initial]⟩
  · intro s s' action hreach hinv _ hstep hopen'
    have h := step_sound hstep
    rcases hinv (step_open h hopen') with ⟨hunshut, htimer⟩
    exact ⟨hunshut.step h hopen', htimer.step (slotInv_of_reachable hreach) hunshut h⟩

/-- A request that is refused for want of room has found nobody of use in the idle queue. -/
theorem not_idle_of_tooMany {s : State Id} {req : RequestMsg Id}
    (hrefused : (s.pool.handleRequest req.id s.trySend s.conns.length).2
      = .refused .tooManyConnections)
    {p : Nat} {a : ConnActor Id} (ha : s.conns[p]? = some a) (hloop : a.inLoop = true)
    {slot : ConnectionSlot} (hslot : s.pool.connections.lookup a.nodeId = some slot)
    (htx : slot.tx = p) : (a.nodeId, slot.generation) ∉ s.pool.idle := by
  intro hmem
  have hhandled := s.pool.handled req.id s.trySend s.conns.length
  revert hhandled hrefused
  generalize s.pool.handleRequest req.id s.trySend s.conns.length = res
  intro hrefused hhandled
  cases hhandled with
  | forwarded | busy | evicted | opened => cases hrefused
  | tooMany hneeds hfull hvictim =>
      have hne : a.nodeId ≠ req.id := by
        intro hid
        have hsend := hneeds slot (hid ▸ hslot)
        exact ConnActor.not_stopped_of_inLoop hloop (trySend_eq_closed ha (htx ▸ hsend))
      have hfound : (s.pool.beforeRoom req.id).idleSlot (a.nodeId, slot.generation)
          = some (a.nodeId, slot) := by
        refine PoolActor.idleSlot_eq_some_iff.mpr ⟨?_, rfl, rfl⟩
        simpa [PoolActor.beforeRoom, AList.lookup_erase_ne hne] using hslot
      have hnone := List.findSome?_eq_none_iff.mp hvictim _
        (PoolActor.mem_removeIdle.mpr ⟨hmem, hne⟩)
      rw [hfound] at hnone
      contradiction

/-- Before the shutdown, an actor in its loop that has its slot and an armed idle timer is
in the idle queue, or its idle message is on the way, or it has a request in its mailbox
or in its hands.  A request is refused for want of room only when each such actor has its
idle message in the queue or a request to deal with. -/
theorem idle_connection_is_remembered (options : PoolOptions) {s : State Id}
    (hs : (protocol options).Reachable s) (hopen : s.closed = false) :
    (∀ (p : Nat) (a : ConnActor Id), s.conns[p]? = some a → a.inLoop = true →
      a.idleActive = true → s.HasSlot p a → s.Remembered a) ∧
    ∀ req, s.poolPc = .handling (.request req) →
      (s.pool.handleRequest req.id s.trySend s.conns.length).2 = .refused .tooManyConnections →
      ∀ (p : Nat) (a : ConnActor Id), s.conns[p]? = some a → a.inLoop = true →
        a.idleActive = true → s.HasSlot p a →
        a.idleMsg ∈ s.queue ∨ a.mailbox ≠ [] ∨ a.holdsRequest = true := by
  rcases timerInv_of_reachable hs hopen with ⟨-, htimer⟩
  refine ⟨htimer.remembered, ?_⟩
  intro req hpc hrefused p a ha hloop hidle hslot
  have hwas := htimer.remembered p a ha hloop hidle hslot
  rcases hslot with ⟨slot, hlookup, htx⟩
  rcases (slotInv_of_reachable hs).slots _ _ hlookup with ⟨b, hb, -, hgen⟩
  rw [htx, ha, Option.some.injEq] at hb
  subst hb
  rcases hwas with hmem | (hqueue | hhandling) | hengaged
  · rw [hgen] at hmem
    exact (not_idle_of_tooMany hrefused ha hloop hlookup htx hmem).elim
  · exact .inl hqueue
  · rw [hpc] at hhandling
    cases hhandling
  · exact .inr hengaged

/-! ## Runs -/

/-- The theorem speaks about the first connection that becomes idle. -/
theorem idle_connection_is_remembered_first :
    ∃ (s : State Nat) (a : ConnActor Nat), (protocol ⟨1⟩).Reachable s ∧ s.closed = false ∧
      s.conns[0]? = some a ∧ a.inLoop = true ∧ a.idleActive = true ∧ s.HasSlot 0 a ∧
      s.Remembered a := by
  obtain ⟨s, hs, hidle⟩ := System.exists_of_runWhen_any (S := protocol ⟨1⟩)
    (C := fun _ _ => True) (l := firstIdle)
    (P := fun s => !s.closed && (s.conns[0]?).any fun a => a.inLoop && a.idleActive &&
      (s.pool.connections.lookup a.nodeId).any fun slot => slot.tx = 0) (by decide)
  simp only [Bool.and_eq_true, Bool.not_eq_true', Option.any_eq_true, decide_eq_true_eq] at hidle
  rcases hidle with ⟨hopen, a, ha, ⟨hloop, htimer⟩, hslot⟩
  exact ⟨s, a, hs, hopen, ha, hloop, htimer, hslot,
    (idle_connection_is_remembered ⟨1⟩ hs hopen).1 0 a ha hloop htimer hslot⟩

/-- Call 1 asks for peer 7, whose connection is idle.  The actor takes the request, and the
remote side closes the connection before the actor looks at it; the actor stops at the
send of its shutdown message.  Then call 2 asks for peer 8. -/
def takenAndClosed : List (Action Nat) :=
  firstIdle ++ [.call 1 7, .send 1] ++ poolTurn ++
    [.conn 0 .resume, .conn 0 (.poll .request), .remoteClose 0, .conn 0 .resume,
      .call 2 8, .send 2, .pool .check, .pool .subscribe, .pool .pollRecv]

/-- The actor has its slot and an armed idle timer, and is neither in the idle queue nor has
it an idle message on the way or a request in its mailbox.  The request for the other peer
is refused. -/
theorem closed_connection_is_forgotten :
    ∃ (s : State Nat) (a : ConnActor Nat), (protocol ⟨1⟩).Reachable s ∧ s.closed = false ∧
      s.conns[0]? = some a ∧ a.inLoop = true ∧ a.idleActive = true ∧ s.HasSlot 0 a ∧
      (a.nodeId, a.generation) ∉ s.pool.idle ∧ ¬s.InFlight a.idleMsg ∧ a.mailbox = [] ∧
      ∃ req, s.poolPc = .handling (.request req) ∧
        (s.pool.handleRequest req.id s.trySend s.conns.length).2
          = .refused .tooManyConnections := by
  obtain ⟨s, hs, hlost⟩ := System.exists_of_runWhen_any (S := protocol ⟨1⟩)
    (C := fun _ _ => True) (l := takenAndClosed)
    (P := fun s => !s.closed && s.pool.idle = [] && s.queue = [] &&
      s.poolPc = .handling (.request ⟨8, 2⟩) &&
      (s.pool.handleRequest 8 s.trySend s.conns.length).2 = .refused .tooManyConnections &&
      (s.conns[0]?).any fun a => a.inLoop && a.idleActive && a.mailbox = [] &&
        (s.pool.connections.lookup a.nodeId).any fun slot => slot.tx = 0) (by decide)
  simp only [Bool.and_eq_true, Bool.not_eq_true', Option.any_eq_true, decide_eq_true_eq] at hlost
  rcases hlost with ⟨⟨⟨⟨⟨hopen, hidle⟩, hqueue⟩, hpc⟩, hrefused⟩, a, ha,
    ⟨⟨hloop, htimer⟩, hmail⟩, hslot⟩
  refine ⟨s, a, hs, hopen, ha, hloop, htimer, hslot, by simp [hidle], ?_, hmail, _, hpc, hrefused⟩
  simp [InFlight, hqueue, hpc, ConnActor.idleMsg]

end IrohTransport.Pool
