import IrohTransport.Pool.Protocol

/-!
# What one step of the pool protocol can do

Inversion of {lit}`State.step`, once for each part of the state: here a connection
actor, the live references and the pool actor, and in the module on replies the
calls and the messages in flight.  Every invariant of the protocol is derived from
these theorems; none of them unfolds the step function again.

Main results:

- Theorem {lit}`step_conn`: everything one step can do to one connection actor.
- Theorem {lit}`step_refs`: references appear with a lease and disappear with a
  drop.
- Theorem {lit}`step_pool`: the only steps that touch the pool actor's map.
- Theorem {lit}`step_poolPc`: the only steps that move the pool actor.
-/

namespace IrohTransport.Pool

/-- The pool actor is in its loop and no shutdown notification has reached it. -/
def PoolPc.running {Id : Type} : PoolPc Id → Bool
  | .teardown | .draining | .stopped | .select true => false
  | _ => true

namespace State

variable {Id : Type}

/-- The flags of the shutdown: the flag itself, whether its waiters are still to be
woken, and whether the pool's queue is closed. -/
def flags (s : State Id) : Bool × Bool × Bool :=
  (s.closed, s.notifying, s.rxClosed)

/-! ## Frame lemmas -/

section Answer

variable (s : State Id) (tx : Nat) (reply : Reply) (txs : List Nat)

@[simp]
theorem answer_conns : (s.answer tx reply).conns = s.conns := by
  unfold answer
  split <;> rfl

@[simp]
theorem answer_refs : (s.answer tx reply).refs = s.refs := by
  unfold answer
  split <;> rfl

@[simp]
theorem answer_pool : (s.answer tx reply).pool = s.pool := by
  unfold answer
  split <;> rfl

@[simp]
theorem answer_poolPc : (s.answer tx reply).poolPc = s.poolPc := by
  unfold answer
  split <;> rfl

@[simp]
theorem answer_queue : (s.answer tx reply).queue = s.queue := by
  unfold answer
  split <;> rfl

@[simp]
theorem answer_flags : (s.answer tx reply).flags = s.flags := by
  unfold answer
  split <;> rfl

@[simp]
theorem answer_invalidated : (s.answer tx reply).invalidated = s.invalidated := by
  unfold answer
  split <;> rfl

/-- Dropping reply channels is a frame for everything but the calls. -/
theorem foldl_answer_frame {β : Type} (field : State Id → β)
    (hfield : ∀ (s : State Id) tx, field (s.answer tx reply) = field s) :
    field (txs.foldl (fun s tx => s.answer tx reply) s) = field s := by
  induction txs generalizing s with
  | nil => rfl
  | cons tx txs ih => rw [List.foldl_cons, ih, hfield]

end Answer

/-- A message to the pool actor that it has not handled yet. -/
def InFlight (s : State Id) (msg : Msg Id) : Prop :=
  msg ∈ s.queue ∨ s.poolPc = .handling msg

/-- Sending a message changes nothing but the queue. -/
theorem poolSend_cases {s s' : State Id} {msg : Msg Id} (h : s.poolSend msg = some s') :
    s' = s ∨ s' = { s with queue := s.queue ++ [msg] } := by
  unfold poolSend at h
  split at h
  · exact .inl (Option.some.inj h).symm
  · split at h
    · exact .inr (Option.some.inj h).symm
    · contradiction

theorem trySend_ne_closed {s : State Id} {tx : Nat} (h : s.trySend tx ≠ .closed) :
    ∃ a, s.conns[tx]? = some a ∧ a.pc ≠ .stopped := by
  unfold trySend at h
  split at h
  · rename_i a ha
    exact ⟨a, ha, fun hpc => h (by simp [hpc])⟩
  · exact (h rfl).elim

theorem trySend_eq_closed {s : State Id} {tx : Nat} {a : ConnActor Id}
    (ha : s.conns[tx]? = some a) (h : s.trySend tx = .closed) : a.pc = .stopped := by
  by_contra hpc
  simp only [trySend, ha, if_neg hpc] at h
  split at h <;> contradiction

theorem conn_of_set {s : State Id} {p q : Nat} {a b a' : ConnActor Id}
    (ha : s.conns[q]? = some a) (h : (s.conns.set q b)[p]? = some a') :
    (q = p ∧ a' = b) ∨ (q ≠ p ∧ s.conns[p]? = some a') := by
  by_cases hpq : q = p
  · subst hpq
    rw [List.getElem?_set_self (List.getElem?_eq_some_iff.mp ha).1, Option.some.injEq] at h
    exact .inl ⟨rfl, h.symm⟩
  · rw [List.getElem?_set_ne hpq] at h
    exact .inr ⟨hpq, h⟩

theorem conn_of_modify {s : State Id} {p q : Nat} {a' : ConnActor Id}
    {f : ConnActor Id → ConnActor Id} (h : (s.conns.modify q f)[p]? = some a') :
    ∃ a, s.conns[p]? = some a ∧ ((q = p ∧ a' = f a) ∨ (q ≠ p ∧ a' = a)) := by
  simp only [List.getElem?_modify, Option.map_eq_map, Option.map_eq_some_iff] at h
  rcases h with ⟨a, ha, rfl⟩
  refine ⟨a, ha, ?_⟩
  by_cases hq : q = p
  · exact .inl ⟨hq, if_pos hq⟩
  · exact .inr ⟨hq, if_neg hq⟩

/-- The only effect that creates a reference is a lease. -/
theorem emit_refs {s s' : State Id} {p : Nat} {a : ConnActor Id} {effect : Effect Id}
    (h : s.emit p a effect = some s') :
    (s'.refs = s.refs ∧ effect.leases = 0) ∨
      ∃ tx, effect = .lease tx ∧
        s'.refs = ⟨a.nodeId, a.generation, p, tx⟩ :: s.refs := by
  cases effect with
  | quiet => cases h; exact .inl ⟨rfl, rfl⟩
  | send msg => rcases poolSend_cases h with rfl | rfl <;> exact .inl ⟨rfl, rfl⟩
  | reply tx error => cases h; exact .inl ⟨by simp, rfl⟩
  | lease tx => cases h; exact .inr ⟨tx, rfl, rfl⟩
  | dropMailbox txs =>
      cases h
      exact .inl ⟨foldl_answer_frame s _ txs refs fun s tx => s.answer_refs tx _, rfl⟩

/-- An effect is a frame for whatever answers, queued messages and new references
leave alone. -/
private theorem emit_frame {β : Type} (field : State Id → β)
    (hanswer : ∀ (s : State Id) tx reply, field (s.answer tx reply) = field s)
    (hqueue : ∀ (s : State Id) queue, field { s with queue := queue } = field s)
    (hrefs : ∀ (s : State Id) refs, field { s with refs := refs } = field s)
    {s s' : State Id} {p : Nat} {a : ConnActor Id} {effect : Effect Id}
    (h : s.emit p a effect = some s') : field s' = field s := by
  cases effect with
  | quiet => cases h; rfl
  | send msg =>
      rcases poolSend_cases h with rfl | rfl
      · rfl
      · exact hqueue s _
  | reply tx error => cases h; exact hanswer s tx _
  | lease tx => cases h; exact (hrefs _ _).trans (hanswer s tx _)
  | dropMailbox txs =>
      cases h
      exact foldl_answer_frame s _ txs field fun s tx => hanswer s tx _

/-- No effect touches the pool actor. -/
theorem emit_pool {s s' : State Id} {p : Nat} {a : ConnActor Id} {effect : Effect Id}
    (h : s.emit p a effect = some s') : s'.pool = s.pool ∧ s'.poolPc = s.poolPc :=
  ⟨emit_frame pool answer_pool (fun _ _ => rfl) (fun _ _ => rfl) h,
    emit_frame poolPc answer_poolPc (fun _ _ => rfl) (fun _ _ => rfl) h⟩

/-- No effect touches the flags. -/
theorem emit_flags {s s' : State Id} {p : Nat} {a : ConnActor Id} {effect : Effect Id}
    (h : s.emit p a effect = some s') : s'.flags = s.flags :=
  emit_frame flags answer_flags (fun _ _ => rfl) (fun _ _ => rfl) h

/-- No effect touches an actor. -/
theorem emit_conns {s s' : State Id} {p : Nat} {a : ConnActor Id} {effect : Effect Id}
    (h : s.emit p a effect = some s') : s'.conns = s.conns :=
  emit_frame conns answer_conns (fun _ _ => rfl) (fun _ _ => rfl) h

/-- No effect invalidates anything. -/
theorem emit_invalidated {s s' : State Id} {p : Nat} {a : ConnActor Id}
    {effect : Effect Id} (h : s.emit p a effect = some s') :
    s'.invalidated = s.invalidated :=
  emit_frame State.invalidated answer_invalidated (fun _ _ => rfl) (fun _ _ => rfl) h

/-- The only effect that adds to the queue is a send. -/
theorem emit_queue {s s' : State Id} {p : Nat} {a : ConnActor Id} {effect : Effect Id}
    (h : s.emit p a effect = some s') :
    s'.queue = s.queue ∨ ∃ msg, effect = .send msg ∧ s'.queue = s.queue ++ [msg] := by
  cases effect with
  | quiet => cases h; exact .inl rfl
  | send msg =>
      rcases poolSend_cases h with rfl | rfl
      · exact .inl rfl
      · exact .inr ⟨msg, rfl, rfl⟩
  | reply tx error => cases h; exact .inl (by simp)
  | lease tx => cases h; exact .inl (by simp)
  | dropMailbox txs =>
      cases h
      exact .inl (foldl_answer_frame s _ txs queue fun s tx => s.answer_queue tx _)

/-- A move of a connection actor and its effect. -/
theorem stepConn_eq {s s' : State Id} {p : Nat} {event : ConnEvent}
    (h : s.stepConn p event = some s') :
    ∃ a a' effect, s.conns[p]? = some a ∧ a.step (s.env p) event = some (a', effect) ∧
      (s.setConn p a').emit p a effect = some s' := by
  unfold stepConn at h
  split at h
  · rename_i a ha
    split at h
    · rename_i a' effect hmove
      exact ⟨a, a', effect, ha, hmove, h⟩
    · contradiction
  · contradiction

private theorem find_owner {refs : List (ConnectionRef Id)} {c : Nat}
    {ref : ConnectionRef Id} (h : refs.find? (fun ref => ref.owner = c) = some ref) :
    ref ∈ refs ∧ ref.owner = c :=
  ⟨List.mem_of_find?_eq_some h, by simpa using List.find?_some h⟩

variable [DecidableEq Id]

/-! ## The steps of the protocol -/

/-- The steps of the protocol with their guards, one constructor per way a party
can move.  The moves of a connection actor and of the pool actor's handler are
taken apart further by their own inversion theorems. -/
inductive Step (s : State Id) : Action Id → State Id → Prop
  | callClosed (c : Nat) (id : Id) : s.calls c = .notStarted → s.closed = true →
      Step s (.call c id)
        { s with calls := Function.update s.calls c (.returnedErr .shutdown) }
  | called (c : Nat) (id : Id) : s.calls c = .notStarted → s.closed = false →
      Step s (.call c id)
        { s with
          calls := Function.update s.calls c (.sending id 0)
          poolPc := if s.poolPc = .notStarted then .check else s.poolPc }
  | sendClosed (c : Nat) (id : Id) (attempt : Nat) :
      s.calls c = .sending id attempt → s.rxClosed = true →
      Step s (.send c) { s with calls := Function.update s.calls c (.returnedErr .shutdown) }
  | sent (c : Nat) (id : Id) (attempt : Nat) :
      s.calls c = .sending id attempt → s.rxClosed = false →
      s.queue.length < poolChannelCapacity →
      Step s (.send c)
        { s with
          calls := Function.update s.calls c (.waiting id attempt .pending)
          queue := s.queue ++ [.request ⟨id, c⟩] }
  | gotRef (c : Nat) (id : Id) (attempt : Nat) : s.calls c = .waiting id attempt .ok →
      Step s (.recv c) { s with calls := Function.update s.calls c .returnedRef }
  | retried (c : Nat) (id : Id) (attempt : Nat) :
      s.calls c = .waiting id attempt (.err .closed) → attempt + 1 < openStreamRetries →
      Step s (.recv c)
        { s with calls := Function.update s.calls c (.sending id (attempt + 1)) }
  | gotErr (c : Nat) (id : Id) (attempt : Nat) (error : PoolError) :
      s.calls c = .waiting id attempt (.err error) →
      ¬(error = .closed ∧ attempt + 1 < openStreamRetries) →
      Step s (.recv c) { s with calls := Function.update s.calls c (.returnedErr error) }
  | gotDropped (c : Nat) (id : Id) (attempt : Nat) :
      s.calls c = .waiting id attempt .dropped →
      Step s (.recv c) { s with calls := Function.update s.calls c (.returnedErr .shutdown) }
  | cancelledSend (c : Nat) (id : Id) (attempt : Nat) : s.calls c = .sending id attempt →
      Step s (.cancel c) { s with calls := Function.update s.calls c .cancelled }
  | cancelledWait (c : Nat) (id : Id) (attempt : Nat) (reply : Reply) :
      s.calls c = .waiting id attempt reply →
      Step s (.cancel c) { s with calls := Function.update s.calls c .cancelled }
  | droppedRef (c : Nat) (ref : ConnectionRef Id) :
      s.calls c = .returnedRef ∨ s.calls c = .cancelled →
      ref ∈ s.refs → ref.owner = c →
      Step s (.dropRef c)
        { s with
          refs := s.refs.erase ref
          conns := s.conns.modify ref.actor fun a =>
            { a with counter := a.counter.fetchSub } }
  | notifiedOne (p : Nat) (a : ConnActor Id) : s.conns[p]? = some a →
      0 < a.counter.notifying →
      Step s (.notifyOne p) (s.setConn p { a with counter := a.counter.notifyOne })
  | invalidated (c : Nat) (ref : ConnectionRef Id) (s' : State Id) :
      s.calls c = .returnedRef → ref ∈ s.refs → ref.owner = c →
      ({ s with invalidated := ref.actor :: s.invalidated }).poolSend
        (.shutdown ref.id ref.generation) = some s' →
      Step s (.invalidate c) s'
  | remoteClosed (p : Nat) (a : ConnActor Id) : s.conns[p]? = some a → a.isOpen = true →
      Step s (.remoteClose p) (s.setConn p { a with connection := some ⟨some .remote⟩ })
  | moved (p : Nat) (event : ConnEvent) (a a' : ConnActor Id) (effect : Effect Id)
      (s' : State Id) : s.conns[p]? = some a →
      a.step (s.env p) event = some (a', effect) →
      (s.setConn p a').emit p a effect = some s' →
      Step s (.conn p event) s'
  | poolCheck : s.poolPc = .check →
      Step s (.pool .check) { s with poolPc := if s.closed then .teardown else .subscribe }
  | poolSubscribe : s.poolPc = .subscribe →
      Step s (.pool .subscribe) { s with poolPc := .select false }
  | poolShutdown : s.poolPc = .select true →
      Step s (.pool .pollShutdown) { s with poolPc := .teardown }
  | poolRecv (msg : Msg Id) (rest : List (Msg Id)) : s.poolPc = .select false →
      s.queue = msg :: rest →
      Step s (.pool .pollRecv) { s with poolPc := .handling msg, queue := rest }
  | poolJoin : s.poolPc = .select false → Step s (.pool .pollJoin) { s with poolPc := .check }
  | poolHandle (msg : Msg Id) : s.poolPc = .handling msg →
      Step s (.pool .handle) (s.handle msg)
  | poolSendFirst (p : Nat) (req : RequestMsg Id) : s.poolPc = .sendFirst p req →
      Step s (.pool .sendFirst) (s.sendFirst p req)
  | poolTeardown : s.poolPc = .teardown →
      Step s (.pool .teardown)
        { s with rxClosed := true, pool := s.pool.clear, poolPc := .draining }
  | poolFinish : s.poolPc = .draining → (∀ a ∈ s.conns, a.pc = .stopped) →
      Step s (.pool .finish)
        ((requestTxs s.queue).foldl (fun s tx => s.answer tx .dropped)
          { s with poolPc := .stopped, queue := [] })
  | closed : s.closed = false → Step s .close { s with closed := true, notifying := true }
  | notifiedWaiters : s.notifying = true →
      Step s .notifyWaiters
        { s with
          notifying := false
          conns := s.conns.map wake
          poolPc :=
            match s.poolPc with
            | .select _ => .select true
            | pc => pc }

private theorem stepPool_sound {s s' : State Id} {event : PoolEvent}
    (h : s.stepPool event = some s') : Step s (.pool event) s' := by
  unfold stepPool at h
  split at h <;> rename_i hpc
  · cases h
    exact .poolCheck hpc
  · cases h
    exact .poolSubscribe hpc
  · cases h
    exact .poolShutdown hpc
  · split at h
    · rename_i hqueue
      cases h
      exact .poolRecv _ _ hpc hqueue
    · contradiction
  · split at h
    · cases h
      exact .poolJoin hpc
    · contradiction
  · cases h
    exact .poolHandle _ hpc
  · cases h
    exact .poolSendFirst _ _ hpc
  · cases h
    exact .poolTeardown hpc
  · split at h <;> rename_i hall
    · cases h
      exact .poolFinish hpc (by simpa using hall)
    · contradiction
  · contradiction

/-- Every step is one of the listed steps. -/
theorem step_sound {s s' : State Id} {action : Action Id} (h : s.step action = some s') :
    Step s action s' := by
  cases action with
  | pool event => exact stepPool_sound h
  | call c id =>
      simp only [step, stepCall] at h
      split at h <;> rename_i hcall
      · split at h <;> rename_i hclosed <;> cases h
        · exact .callClosed c id hcall hclosed
        · exact .called c id hcall (by simpa using hclosed)
      · contradiction
  | send c =>
      simp only [step, stepSend] at h
      split at h <;> rename_i hcall
      · split at h <;> rename_i hrx
        · cases h
          exact .sendClosed c _ _ hcall hrx
        · split at h <;> rename_i hroom
          · cases h
            exact .sent c _ _ hcall (by simpa using hrx) hroom
          · contradiction
      · contradiction
  | recv c =>
      simp only [step, stepRecv] at h
      split at h <;> rename_i hcall
      · split at h
        · contradiction
        · cases h
          exact .gotRef c _ _ hcall
        · split at h <;> rename_i hretry <;> cases h
          · rcases hretry with ⟨rfl, hattempt⟩
            exact .retried c _ _ hcall hattempt
          · exact .gotErr c _ _ _ hcall hretry
        · cases h
          exact .gotDropped c _ _ hcall
      · contradiction
  | cancel c =>
      simp only [step, stepCancel] at h
      split at h <;> rename_i hcall
      · cases h
        exact .cancelledSend c _ _ hcall
      · cases h
        exact .cancelledWait c _ _ _ hcall
      · contradiction
  | dropRef c =>
      simp only [step, stepDropRef] at h
      split at h <;> rename_i hcall
      · split at h <;> rename_i hfind
        · cases h
          exact .droppedRef c _ hcall (find_owner hfind).1 (find_owner hfind).2
        · contradiction
      · contradiction
  | notifyOne p =>
      simp only [step, stepNotifyOne] at h
      split at h <;> rename_i ha
      · split at h <;> rename_i hnotifying
        · cases h
          exact .notifiedOne p _ ha hnotifying
        · contradiction
      · contradiction
  | invalidate c =>
      simp only [step, stepInvalidate] at h
      split at h <;> rename_i hcall
      · split at h <;> rename_i hfind
        · exact .invalidated c _ s' hcall (find_owner hfind).1 (find_owner hfind).2 h
        · contradiction
      · contradiction
  | remoteClose p =>
      simp only [step, stepRemoteClose] at h
      split at h <;> rename_i ha
      · split at h <;> rename_i hopen
        · cases h
          exact .remoteClosed p _ ha hopen
        · contradiction
      · contradiction
  | conn p event =>
      rcases stepConn_eq h with ⟨a, a', effect, ha, hmove, hemit⟩
      exact .moved p event a a' effect s' ha hmove hemit
  | close =>
      simp only [step] at h
      split at h <;> rename_i hclosed
      · contradiction
      · cases h
        exact .closed (by simpa using hclosed)
  | notifyWaiters =>
      simp only [step, stepNotifyWaiters] at h
      split at h <;> rename_i hnotifying
      · cases h
        exact .notifiedWaiters hnotifying
      · contradiction

/-! ## Connection actors -/

/-- Everything one step can do to the actor {lit}`p`. -/
inductive ConnChange (s : State Id) (p : Nat) (a : ConnActor Id) :
    Action Id → ConnActor Id → Prop
  | same (action : Action Id) : ConnChange s p a action a
  | moved (event : ConnEvent) (a' : ConnActor Id) (effect : Effect Id) :
      a.step (s.env p) event = some (a', effect) →
      ConnChange s p a (.conn p event) a'
  | dropped (c : Nat) (ref : ConnectionRef Id) :
      ref ∈ s.refs → ref.actor = p →
      ConnChange s p a (.dropRef c) { a with counter := a.counter.fetchSub }
  | notified : 0 < a.counter.notifying →
      ConnChange s p a (.notifyOne p) { a with counter := a.counter.notifyOne }
  | remoteClosed : a.isOpen = true →
      ConnChange s p a (.remoteClose p) { a with connection := some ⟨some .remote⟩ }
  | forwarded (req : RequestMsg Id) (slot : ConnectionSlot) :
      s.poolPc = .handling (.request req) →
      s.pool.connections.lookup req.id = some slot → slot.tx = p → a.pc ≠ .stopped →
      ConnChange s p a (.pool .handle) { a with mailbox := a.mailbox ++ [req] }
  | first (req : RequestMsg Id) :
      s.poolPc = .sendFirst p req → a.pc ≠ .stopped →
      ConnChange s p a (.pool .sendFirst) { a with mailbox := a.mailbox ++ [req] }
  | woken (notified : Bool) : a.pc = .select notified →
      ConnChange s p a .notifyWaiters (a.goto (.select true))

/-- The step in which the actor {lit}`p` is spawned. -/
inductive Spawned (s : State Id) (p : Nat) : Action Id → ConnActor Id → Prop
  | spawned (req : RequestMsg Id) (generation : Nat) :
      p = s.conns.length → s.poolPc = .handling (.request req) →
      (s.pool.handleRequest req.id s.trySend s.conns.length).2 = .spawned generation →
      Spawned s p (.pool .handle) (.spawn req.id generation)

/-- A request goes into the mailbox its peer's slot names, and only if that
mailbox took it. -/
theorem forwarded_slot {s : State Id} {id : Id} {connTx tx : Nat}
    (h : (s.pool.handleRequest id s.trySend connTx).2 = .forwarded tx) :
    ∃ slot, s.pool.connections.lookup id = some slot ∧ slot.tx = tx ∧
      s.trySend tx = .ok := by
  generalize hres : s.pool.handleRequest id s.trySend connTx = res at h
  have hhandled := s.pool.handled id s.trySend connTx
  rw [hres] at hhandled
  cases hhandled with
  | forwarded slot hlookup hsend =>
      cases h
      exact ⟨slot, hlookup, rfl, hsend⟩
  | busy | tooMany | evicted | opened => cases h

/-- The actors after the pool actor handled a message. -/
theorem handle_conns (s : State Id) (msg : Msg Id) :
    (s.handle msg).conns = s.conns ∨
    (∃ req slot, msg = .request req ∧ s.pool.connections.lookup req.id = some slot ∧
      s.trySend slot.tx = .ok ∧ (s.handle msg).conns = (s.deliver slot.tx req).conns) ∨
    ∃ req generation, msg = .request req ∧
      (s.pool.handleRequest req.id s.trySend s.conns.length).2 = .spawned generation ∧
      (s.handle msg).conns = s.conns ++ [.spawn req.id generation] := by
  cases msg with
  | idle id generation => exact .inl rfl
  | shutdown id generation => exact .inl rfl
  | request req =>
      simp only [handle]
      split <;> rename_i hres
      · rcases forwarded_slot (congrArg Prod.snd hres) with ⟨slot, hlookup, rfl, hsend⟩
        exact .inr (.inl ⟨req, slot, rfl, hlookup, hsend, rfl⟩)
      · exact .inl (by simp)
      · exact .inr (.inr ⟨req, _, rfl, congrArg Prod.snd hres, rfl⟩)

/-- Everything one step can do to one connection actor. -/
theorem step_conn {s s' : State Id} {action : Action Id} {p : Nat} {a' : ConnActor Id}
    (h : Step s action s') (ha' : s'.conns[p]? = some a') :
    (∃ a, s.conns[p]? = some a ∧ ConnChange s p a action a') ∨ Spawned s p action a' := by
  cases h with
  | droppedRef c ref _ href _ =>
      rcases conn_of_modify ha' with ⟨a, ha, ⟨rfl, rfl⟩ | ⟨-, rfl⟩⟩
      · exact .inl ⟨a, ha, .dropped c ref href rfl⟩
      · exact .inl ⟨a', ha, .same _⟩
  | notifiedOne q a ha hnotifying =>
      rcases conn_of_set ha ha' with ⟨rfl, rfl⟩ | ⟨-, hold⟩
      · exact .inl ⟨a, ha, .notified hnotifying⟩
      · exact .inl ⟨a', hold, .same _⟩
  | invalidated c ref s' _ _ _ hsend =>
      rcases poolSend_cases hsend with rfl | rfl <;> exact .inl ⟨a', ha', .same _⟩
  | remoteClosed q a ha hopen =>
      rcases conn_of_set ha ha' with ⟨rfl, rfl⟩ | ⟨-, hold⟩
      · exact .inl ⟨a, ha, .remoteClosed hopen⟩
      · exact .inl ⟨a', hold, .same _⟩
  | moved q event a b effect s' ha hmove hemit =>
      rw [emit_conns hemit] at ha'
      rcases conn_of_set ha ha' with ⟨rfl, rfl⟩ | ⟨-, hold⟩
      · exact .inl ⟨a, ha, .moved event _ effect hmove⟩
      · exact .inl ⟨a', hold, .same _⟩
  | poolHandle msg hpc =>
      rcases s.handle_conns msg with hconns | ⟨req, slot, rfl, hlookup, hsend, hconns⟩ |
        ⟨req, generation, rfl, hout, hconns⟩
      · exact .inl ⟨a', hconns ▸ ha', .same _⟩
      · rw [hconns] at ha'
        rcases conn_of_modify ha' with ⟨a, ha, ⟨rfl, rfl⟩ | ⟨-, rfl⟩⟩
        · have hopen : s.trySend slot.tx ≠ .closed := by simp [hsend]
          rcases trySend_ne_closed hopen with ⟨b, hb, hrun⟩
          rw [ha, Option.some.injEq] at hb
          exact .inl ⟨a, ha, .forwarded req slot hpc hlookup rfl (hb ▸ hrun)⟩
        · exact .inl ⟨a', ha, .same _⟩
      · rw [hconns, List.getElem?_append] at ha'
        split at ha' <;> rename_i hlt
        · exact .inl ⟨a', ha', .same _⟩
        · have hlen := (List.getElem?_eq_some_iff.mp ha').1
          obtain rfl : p = s.conns.length := by
            simp only [List.length_singleton] at hlen
            omega
          simp only [Nat.sub_self, List.getElem?_cons_zero, Option.some.injEq] at ha'
          exact .inr (ha' ▸ .spawned req generation rfl hpc hout)
  | poolSendFirst q req hpc =>
      unfold sendFirst at ha'
      split at ha' <;> rename_i hb
      · split at ha' <;> rename_i hrun
        · exact .inl ⟨a', by simpa using ha', .same _⟩
        · rcases conn_of_modify ha' with ⟨a, ha, ⟨rfl, rfl⟩ | ⟨-, rfl⟩⟩
          · rw [ha, Option.some.injEq] at hb
            exact .inl ⟨a, ha, .first req hpc (hb ▸ hrun)⟩
          · exact .inl ⟨a', ha, .same _⟩
      · exact .inl ⟨a', ha', .same _⟩
  | poolFinish =>
      rw [foldl_answer_frame _ _ _ conns fun s tx => s.answer_conns tx _] at ha'
      exact .inl ⟨a', ha', .same _⟩
  | notifiedWaiters =>
      simp only [List.getElem?_map, Option.map_eq_some_iff] at ha'
      rcases ha' with ⟨a, ha, rfl⟩
      unfold wake
      split <;> rename_i hpc
      · exact .inl ⟨a, ha, .woken _ hpc⟩
      · exact .inl ⟨a, ha, .same _⟩
  | _ => exact .inl ⟨a', ha', .same _⟩

theorem handle_pool (s : State Id) (msg : Msg Id) :
    (s.handle msg).pool =
      match msg with
      | .request req => (s.pool.handleRequest req.id s.trySend s.conns.length).1
      | .idle id generation => s.pool.handleIdle id generation
      | .shutdown id generation => s.pool.removeConnectionIfMatch id generation := by
  cases msg with
  | request req =>
      simp only [handle]
      split <;> rename_i hres <;> rw [hres]
  | idle id generation => rfl
  | shutdown id generation => rfl

/-- The handler of the request {lit}`req` spawned an actor for it. -/
structure Spawns (s : State Id) (req : RequestMsg Id) (s' : State Id) : Prop where
  handling : s.poolPc = .handling (.request req)
  outcome : (s.pool.handleRequest req.id s.trySend s.conns.length).2 =
    .spawned s.pool.nextGeneration
  conns : s'.conns = s.conns ++ [.spawn req.id s.pool.nextGeneration]
  poolPc : s'.poolPc = .sendFirst s.conns.length req
  pool : s'.pool = (s.pool.handleRequest req.id s.trySend s.conns.length).1
  next : s'.pool.nextGeneration = u64Succ s.pool.nextGeneration

theorem handle_spawns {s : State Id} {req : RequestMsg Id} {generation : Nat}
    (hpc : s.poolPc = .handling (.request req))
    (h : (s.pool.handleRequest req.id s.trySend s.conns.length).2 = .spawned generation) :
    Spawns s req (s.handle (.request req)) := by
  rcases s.pool.handleRequest_nextGeneration req.id s.trySend s.conns.length with
    ⟨hout, hnext⟩ | ⟨hnone, _⟩
  · simp only [handle]
    split <;> rename_i hres
    · simp [hres] at hout
    · simp [hres] at hout
    · rw [hres] at hnext
      obtain rfl : _ = s.pool.nextGeneration := by simpa [hres] using hout
      exact ⟨hpc, hout, rfl, rfl, by rw [hres], hnext⟩
  · exact (hnone generation h).elim

/-- The number of actors and the generation counter change only when the pool actor
spawns an actor. -/
theorem step_spawns {s s' : State Id} {action : Action Id} (h : Step s action s') :
    (s'.conns.length = s.conns.length ∧ s'.pool.nextGeneration = s.pool.nextGeneration) ∨
      (action = .pool .handle ∧ ∃ req, Spawns s req s') := by
  cases h with
  | droppedRef | notifiedOne | remoteClosed => exact .inl ⟨by simp [setConn], rfl⟩
  | invalidated c ref s' _ _ _ hsend =>
      rcases poolSend_cases hsend with rfl | rfl <;> exact .inl ⟨rfl, rfl⟩
  | moved q event a b effect s' ha hmove hemit =>
      rw [emit_conns hemit, (emit_pool hemit).1]
      exact .inl ⟨by simp [setConn], rfl⟩
  | poolHandle msg hpc =>
      cases msg with
      | idle id generation =>
          refine .inl ⟨rfl, ?_⟩
          simp only [handle, PoolActor.handleIdle]
          split <;> rfl
      | shutdown id generation =>
          refine .inl ⟨rfl, ?_⟩
          simp only [handle, PoolActor.removeConnectionIfMatch]
          split <;> rfl
      | request req =>
          rcases s.pool.handleRequest_nextGeneration req.id s.trySend s.conns.length with
            ⟨hout, _⟩ | ⟨hnone, hnext⟩
          · exact .inr ⟨rfl, req, handle_spawns hpc hout⟩
          · rw [handle_pool, hnext]
            refine .inl ⟨?_, rfl⟩
            simp only [handle]
            split <;> rename_i hres
            · simp [deliver]
            · simp
            · exact (hnone _ (congrArg Prod.snd hres)).elim
  | poolSendFirst q req hpc =>
      unfold sendFirst
      split
      · split
        · refine .inl ⟨by simp, ?_⟩
          simp only [PoolActor.removeConnectionIfMatch]
          split <;> rfl
        · exact .inl ⟨by simp [deliver], rfl⟩
      · exact .inl ⟨rfl, rfl⟩
  | poolFinish =>
      rw [foldl_answer_frame _ _ _ State.conns fun s tx => s.answer_conns tx _,
        foldl_answer_frame _ _ _ State.pool fun s tx => s.answer_pool tx _]
      exact .inl ⟨rfl, rfl⟩
  | notifiedWaiters => exact .inl ⟨by simp, rfl⟩
  | _ => exact .inl ⟨rfl, rfl⟩

theorem step_conns_length {s s' : State Id} {action : Action Id} (h : Step s action s') :
    s.conns.length ≤ s'.conns.length := by
  rcases step_spawns h with ⟨hlen, _⟩ | ⟨_, req, hspawn⟩
  · omega
  · simp [hspawn.conns]

/-- An actor survives every step. -/
theorem step_conn_of {s s' : State Id} {action : Action Id} {p : Nat} {a : ConnActor Id}
    (h : Step s action s') (ha : s.conns[p]? = some a) :
    ∃ a', s'.conns[p]? = some a' ∧ ConnChange s p a action a' := by
  have hlt : p < s.conns.length := (List.getElem?_eq_some_iff.mp ha).1
  have hlt' : p < s'.conns.length := Nat.lt_of_lt_of_le hlt (step_conns_length h)
  obtain ⟨a', ha'⟩ : ∃ a', s'.conns[p]? = some a' := ⟨_, List.getElem?_eq_getElem hlt'⟩
  refine ⟨a', ha', ?_⟩
  rcases step_conn h ha' with ⟨b, hb, hchange⟩ | hspawn
  · rw [ha, Option.some.injEq] at hb
    exact hb ▸ hchange
  · cases hspawn with
    | spawned req generation hp => omega

/-- No step changes which connection an actor runs. -/
theorem ConnChange.identity {s : State Id} {p : Nat} {a a' : ConnActor Id}
    {action : Action Id} (h : ConnChange s p a action a') :
    a'.nodeId = a.nodeId ∧ a'.generation = a.generation := by
  cases h with
  | moved event _ effect hmove => exact ConnActor.step_identity hmove
  | _ => exact ⟨rfl, rfl⟩

/-- No step starts a timer without a connection. -/
theorem step_timed {s s' : State Id} {action : Action Id} (h : Step s action s')
    (htimed : ∀ (p : Nat) (a : ConnActor Id), s.conns[p]? = some a → a.Timed) (p : Nat)
    (a' : ConnActor Id) (ha' : s'.conns[p]? = some a') : a'.Timed := by
  rcases step_conn h ha' with ⟨a, ha, hchange⟩ | hspawn
  · have hwas := htimed p a ha
    cases hchange with
    | moved event _ effect hmove => exact hwas.step hmove
    | remoteClosed => exact fun _ => rfl
    | woken notified hpc =>
        intro huse
        exact hwas (huse.imp_right (by simp [ConnActor.goto]))
    | _ => exact hwas
  · cases hspawn with
    | spawned req generation => simp [ConnActor.Timed, ConnActor.spawn]

/-! ## Live references -/

theorem handle_refs (s : State Id) (msg : Msg Id) : (s.handle msg).refs = s.refs := by
  cases msg with
  | request req =>
      simp only [handle]
      split
      · rfl
      · simp
      · rfl
  | idle id generation => rfl
  | shutdown id generation => rfl

theorem sendFirst_refs (s : State Id) (p : Nat) (req : RequestMsg Id) :
    (s.sendFirst p req).refs = s.refs := by
  unfold sendFirst
  split
  · split
    · simp
    · rfl
  · rfl

/-- References appear and disappear only when an actor moves or a reference is
dropped. -/
theorem step_refs_eq {s s' : State Id} {action : Action Id} (h : Step s action s')
    (hdrop : ∀ c, action ≠ .dropRef c) (hconn : ∀ p event, action ≠ .conn p event) :
    s'.refs = s.refs := by
  cases h with
  | droppedRef c => exact (hdrop c rfl).elim
  | moved p event => exact (hconn p event rfl).elim
  | invalidated c ref s' _ _ _ hsend => rcases poolSend_cases hsend with rfl | rfl <;> rfl
  | poolHandle msg => exact s.handle_refs msg
  | poolSendFirst p req => exact s.sendFirst_refs p req
  | poolFinish => exact foldl_answer_frame _ _ _ refs fun s tx => s.answer_refs tx _
  | _ => rfl

/-- A reference after a step is an old one, or the one an actor has just handed
out. -/
theorem step_refs {s s' : State Id} {action : Action Id} (h : Step s action s')
    {ref : ConnectionRef Id} (href : ref ∈ s'.refs) :
    ref ∈ s.refs ∨ ∃ p event a a' tx, action = .conn p event ∧ s.conns[p]? = some a ∧
      a.step (s.env p) event = some (a', .lease tx) ∧
      ref = ⟨a.nodeId, a.generation, p, tx⟩ := by
  cases action with
  | dropRef c =>
      cases h with
      | droppedRef => exact .inl (List.mem_of_mem_erase href)
  | conn p event =>
      cases h with
      | moved p event a a' effect s' ha hmove hemit =>
          rcases emit_refs hemit with ⟨hrefs, _⟩ | ⟨tx, rfl, hrefs⟩ <;> rw [hrefs] at href
          · exact .inl href
          · rcases List.mem_cons.mp href with rfl | hold
            · exact .inr ⟨p, event, a, a', tx, rfl, ha, hmove, rfl⟩
            · exact .inl hold
  | _ =>
      rw [step_refs_eq h (by simp) (by simp)] at href
      exact .inl href

/-! ## The pool actor -/

/-- Everything one step can do to the pool actor's private state. -/
inductive PoolChange (s : State Id) : Action Id → PoolActor Id → Prop
  | same (action : Action Id) : PoolChange s action s.pool
  | request (req : RequestMsg Id) : s.poolPc = .handling (.request req) →
      PoolChange s (.pool .handle)
        (s.pool.handleRequest req.id s.trySend s.conns.length).1
  | idle (id : Id) (generation : Nat) : s.poolPc = .handling (.idle id generation) →
      PoolChange s (.pool .handle) (s.pool.handleIdle id generation)
  | shutdown (id : Id) (generation : Nat) : s.poolPc = .handling (.shutdown id generation) →
      PoolChange s (.pool .handle) (s.pool.removeConnectionIfMatch id generation)
  | firstFailed (p : Nat) (req : RequestMsg Id) (a : ConnActor Id) :
      s.poolPc = .sendFirst p req → s.conns[p]? = some a → a.pc = .stopped →
      PoolChange s (.pool .sendFirst) (s.pool.removeConnectionIfMatch req.id a.generation)
  | teardown : s.poolPc = .teardown → PoolChange s (.pool .teardown) s.pool.clear

/-- The only steps that touch the pool actor's private state. -/
theorem step_pool {s s' : State Id} {action : Action Id} (h : Step s action s') :
    PoolChange s action s'.pool := by
  cases h with
  | invalidated c ref s' _ _ _ hsend =>
      rcases poolSend_cases hsend with rfl | rfl <;> exact .same _
  | moved q event a b effect s' ha hmove hemit =>
      rw [(emit_pool hemit).1]
      exact .same _
  | poolHandle msg hpc =>
      rw [handle_pool]
      cases msg with
      | request req => exact .request req hpc
      | idle id generation => exact .idle id generation hpc
      | shutdown id generation => exact .shutdown id generation hpc
  | poolSendFirst q req hpc =>
      unfold sendFirst
      split <;> rename_i ha
      · split <;> rename_i hrun
        · exact .firstFailed q req _ hpc ha hrun
        · exact .same _
      · exact .same _
  | poolTeardown hpc => exact .teardown hpc
  | poolFinish =>
      rw [foldl_answer_frame _ _ _ pool fun s tx => s.answer_pool tx _]
      exact .same _
  | _ => exact .same _

/-! ## Messages in flight -/

/-- Where a message that is in flight after a step comes from. -/
inductive Origin (s : State Id) : Action Id → State Id → Msg Id → Prop
  | old (action : Action Id) (s' : State Id) (msg : Msg Id) : s.InFlight msg →
      Origin s action s' msg
  | client (c : Nat) (s' : State Id) (req : RequestMsg Id) (id : Id) (attempt : Nat) :
      s.calls c = .sending id attempt → req = ⟨id, c⟩ →
      Origin s (.send c) s' (.request req)
  | actor (p : Nat) (event : ConnEvent) (s' : State Id) (a a' : ConnActor Id) (msg : Msg Id) :
      s.conns[p]? = some a → a.step (s.env p) event = some (a', .send msg) →
      Origin s (.conn p event) s' msg
  | invalidation (c : Nat) (s' : State Id) (ref : ConnectionRef Id) : ref ∈ s.refs →
      ref.actor ∈ s'.invalidated → Origin s (.invalidate c) s' (.shutdown ref.id ref.generation)

theorem handle_queue (s : State Id) (msg : Msg Id) : (s.handle msg).queue = s.queue := by
  cases msg with
  | request req =>
      simp only [handle]
      split
      · rfl
      · simp
      · rfl
  | idle id generation => rfl
  | shutdown id generation => rfl

theorem handle_poolPc (s : State Id) (msg : Msg Id) :
    (s.handle msg).poolPc = .check ∨
      ∃ req, msg = .request req ∧ (s.handle msg).poolPc = .sendFirst s.conns.length req := by
  cases msg with
  | request req =>
      simp only [handle]
      split
      · exact .inl rfl
      · exact .inl rfl
      · exact .inr ⟨req, rfl, rfl⟩
  | idle id generation => exact .inl rfl
  | shutdown id generation => exact .inl rfl

theorem handle_invalidated (s : State Id) (msg : Msg Id) :
    (s.handle msg).invalidated = s.invalidated := by
  cases msg with
  | request req =>
      simp only [handle]
      split
      · rfl
      · simp
      · rfl
  | idle id generation => rfl
  | shutdown id generation => rfl

/-- An invalidation is never taken back. -/
theorem step_invalidated {s s' : State Id} {action : Action Id} (h : Step s action s')
    {p : Nat} (hp : p ∈ s.invalidated) : p ∈ s'.invalidated := by
  cases h with
  | invalidated c ref s' _ _ _ hsend =>
      rcases poolSend_cases hsend with rfl | rfl <;> exact List.mem_cons_of_mem _ hp
  | moved q event a b effect s' ha hmove hemit =>
      rw [emit_invalidated hemit]
      exact hp
  | poolHandle msg =>
      rw [handle_invalidated]
      exact hp
  | poolSendFirst q req =>
      unfold sendFirst
      split
      · split
        · simpa using hp
        · exact hp
      · exact hp
  | poolFinish =>
      rw [foldl_answer_frame _ _ _ State.invalidated fun s tx => s.answer_invalidated tx _]
      exact hp
  | _ => exact hp

theorem handle_flags (s : State Id) (msg : Msg Id) : (s.handle msg).flags = s.flags := by
  cases msg with
  | request req =>
      simp only [handle]
      split
      · rfl
      · exact s.answer_flags _ _
      · rfl
  | idle id generation => rfl
  | shutdown id generation => rfl

theorem sendFirst_flags (s : State Id) (p : Nat) (req : RequestMsg Id) :
    (s.sendFirst p req).flags = s.flags := by
  unfold sendFirst
  split
  · split
    · exact s.answer_flags _ _
    · rfl
  · rfl

/-! ## The program point of the pool actor -/

/-- Everything one step can do to the pool actor's program point. -/
inductive PoolPcChange (s : State Id) : Action Id → PoolPc Id → Prop
  | same (action : Action Id) : PoolPcChange s action s.poolPc
  | started (c : Nat) (id : Id) : s.poolPc = .notStarted → s.closed = false →
      PoolPcChange s (.call c id) .check
  | checked : s.poolPc = .check →
      PoolPcChange s (.pool .check) (if s.closed then .teardown else .subscribe)
  | subscribed : s.poolPc = .subscribe → PoolPcChange s (.pool .subscribe) (.select false)
  | shutdown : s.poolPc = .select true → PoolPcChange s (.pool .pollShutdown) .teardown
  | received (msg : Msg Id) : s.poolPc = .select false →
      PoolPcChange s (.pool .pollRecv) (.handling msg)
  | joined : s.poolPc = .select false → PoolPcChange s (.pool .pollJoin) .check
  | handled (msg : Msg Id) : s.poolPc = .handling msg → PoolPcChange s (.pool .handle) .check
  | spawned (req : RequestMsg Id) : s.poolPc = .handling (.request req) →
      PoolPcChange s (.pool .handle) (.sendFirst s.conns.length req)
  | sentFirst (p : Nat) (req : RequestMsg Id) : s.poolPc = .sendFirst p req →
      PoolPcChange s (.pool .sendFirst) .check
  | toreDown : s.poolPc = .teardown → PoolPcChange s (.pool .teardown) .draining
  | finished : s.poolPc = .draining → PoolPcChange s (.pool .finish) .stopped
  | woken (notified : Bool) : s.poolPc = .select notified →
      PoolPcChange s .notifyWaiters (.select true)

/-- The only steps that move the pool actor. -/
theorem step_poolPc {s s' : State Id} {action : Action Id} (h : Step s action s') :
    PoolPcChange s action s'.poolPc := by
  cases h with
  | called c id hcall hopen =>
      simp only
      split <;> rename_i hpc
      · exact .started c id hpc hopen
      · exact .same _
  | invalidated c ref s' _ _ _ hsend =>
      rcases poolSend_cases hsend with rfl | rfl <;> exact .same _
  | moved q event a b effect s' ha hmove hemit =>
      rw [(emit_pool hemit).2]
      exact .same _
  | poolCheck hpc => exact .checked hpc
  | poolSubscribe hpc => exact .subscribed hpc
  | poolShutdown hpc => exact .shutdown hpc
  | poolRecv msg rest hpc => exact .received msg hpc
  | poolJoin hpc => exact .joined hpc
  | poolHandle msg hpc =>
      rcases s.handle_poolPc msg with hcheck | ⟨req, rfl, hfirst⟩
      · rw [hcheck]
        exact .handled msg hpc
      · rw [hfirst]
        exact .spawned req hpc
  | poolSendFirst p req hpc =>
      unfold sendFirst
      split
      · split <;> exact .sentFirst p req hpc
      · exact .same _
  | poolTeardown hpc => exact .toreDown hpc
  | poolFinish hpc =>
      rw [foldl_answer_frame _ _ _ poolPc fun s tx => s.answer_poolPc tx _]
      exact .finished hpc
  | notifiedWaiters =>
      simp only
      split <;> rename_i hpc
      · exact .woken _ hpc
      · exact .same _
  | _ => exact .same _

/-! ## Shutdown -/

/-- No part of the shutdown has begun. -/
structure Unshut (s : State Id) : Prop where
  closed : s.closed = false
  notifying : s.notifying = false
  rxClosed : s.rxClosed = false
  running : s.poolPc.running = true

omit [DecidableEq Id] in
theorem unshut_initial (options : PoolOptions) : (initial options : State Id).Unshut := by
  constructor <;> rfl

/-- The flags change only with the two halves of {lit}`Shutdown::close` and with the
pool actor's teardown. -/
theorem step_flags {s s' : State Id} {action : Action Id} (h : Step s action s')
    (hclose : action ≠ .close) (hwake : action ≠ .notifyWaiters)
    (htear : action ≠ .pool .teardown) : s'.flags = s.flags := by
  cases h with
  | invalidated c ref s' _ _ _ hsend => rcases poolSend_cases hsend with rfl | rfl <;> rfl
  | moved q event a b effect s' ha hmove hemit => exact (emit_flags hemit).trans rfl
  | poolHandle msg => exact s.handle_flags msg
  | poolSendFirst p req => exact s.sendFirst_flags p req
  | poolTeardown => exact (htear rfl).elim
  | poolFinish => exact foldl_answer_frame _ _ _ flags fun s tx => s.answer_flags tx _
  | closed => exact (hclose rfl).elim
  | notifiedWaiters => exact (hwake rfl).elim
  | _ => rfl

/-- The pool actor stays in its loop as long as the flag is open. -/
theorem step_running {s s' : State Id} {action : Action Id} (h : Step s action s')
    (hunshut : s.Unshut) : s'.poolPc.running = true := by
  have hrun := hunshut.running
  by_cases hwake : action = .notifyWaiters
  · subst hwake
    cases h with
    | notifiedWaiters hnotifying =>
        rw [hunshut.notifying] at hnotifying
        contradiction
  have hchange := step_poolPc h
  generalize s'.poolPc = pc at hchange ⊢
  cases hchange with
  | same => exact hrun
  | checked => simp [hunshut.closed, PoolPc.running]
  | shutdown hpc | toreDown hpc | finished hpc =>
      rw [hpc] at hrun
      contradiction
  | woken => exact (hwake rfl).elim
  | started | subscribed | received | joined | handled | spawned | sentFirst => rfl

/-- A step that leaves the flag open starts no part of the shutdown. -/
theorem Unshut.step {s s' : State Id} {action : Action Id} (hunshut : s.Unshut)
    (h : Step s action s') (hopen : s'.closed = false) : s'.Unshut := by
  have hclose : action ≠ .close := by
    rintro rfl
    cases h
    contradiction
  have hwake : action ≠ .notifyWaiters := by
    rintro rfl
    cases h with
    | notifiedWaiters hnotifying =>
        rw [hunshut.notifying] at hnotifying
        contradiction
  have htear : action ≠ .pool .teardown := by
    rintro rfl
    cases h with
    | poolTeardown hpc =>
        have hrun := hunshut.running
        rw [hpc] at hrun
        contradiction
  have hflags := step_flags h hclose hwake htear
  simp only [flags, Prod.mk.injEq] at hflags
  exact ⟨hopen, hflags.2.1.trans hunshut.notifying, hflags.2.2.trans hunshut.rxClosed,
    step_running h hunshut⟩

/-- The flag never opens again. -/
theorem step_open {s s' : State Id} {action : Action Id} (h : Step s action s')
    (hopen : s'.closed = false) : s.closed = false := by
  by_cases hclose : action = .close
  · subst hclose
    cases h
    contradiction
  by_cases hwake : action = .notifyWaiters
  · subst hwake
    cases h
    exact hopen
  by_cases htear : action = .pool .teardown
  · subst htear
    cases h
    exact hopen
  · exact (congrArg Prod.fst (step_flags h hclose hwake htear)).symm.trans hopen

/-- The pool's queue is closed by the teardown only. -/
theorem step_rxClosed {s s' : State Id} {action : Action Id} (h : Step s action s') :
    s'.rxClosed = s.rxClosed ∨ action = .pool .teardown := by
  by_cases hclose : action = .close
  · subst hclose
    cases h
    exact .inl rfl
  by_cases hwake : action = .notifyWaiters
  · subst hwake
    cases h
    exact .inl rfl
  by_cases htear : action = .pool .teardown
  · exact .inr htear
  · have hflags := step_flags h hclose hwake htear
    simp only [flags, Prod.mk.injEq] at hflags
    exact .inl hflags.2.2

end State

end IrohTransport.Pool
