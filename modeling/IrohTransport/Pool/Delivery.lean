import IrohTransport.Pool.Leases
import IrohTransport.Pool.Replies

/-!
# Delivery of requests while the pool is open

A request that the pool actor put into a mailbox should be answered by the actor
that reads the mailbox.  It is lost when the actor stops with the request still in
its mailbox, and the caller then gets the shutdown error of a pool that was never
shut down.  The module isolates the steps that make this inevitable: the request
meets a connection that has ended, in either order.

Main results:

- Theorem {lit}`ConnActor.Holds.step`: an actor with a request in its hands is one
  move closer to the answer after each of its moves.
- Theorem {lit}`accepted_requests_are_answered`: without a stranding step no call
  returns the shutdown error of an open pool, and every accepted request is
  answered by its actor.
- Theorem {lit}`open_pool_returns_shutdown`: with one, a call does.
-/

namespace IrohTransport.Pool

/-! ## One actor -/

/-- Moves from a program point to the {lit}`select!`, for an actor that does not
leave its loop. -/
def Pc.movesToSelect : Pc → Nat
  | .connecting => 4
  | .reportFailure | .onNotified => 3
  | .readShutdown | .onRequest _ | .sendIdle => 2
  | .loopHead => 1
  | _ => 0

namespace ConnActor

variable {Id : Type}

/-- The actor will take no further request from its mailbox: its connection is
closed, its idle timer has expired, or it has left its loop. -/
def doomed (self : ConnActor Id) : Bool :=
  self.isClosed ||
    match self.pc with
    | .onIdleTimeout | .exiting | .stopped => true
    | _ => false

/-- An actor that has heard of no shutdown and has left nothing behind in its
mailbox. -/
structure Serving (a : ConnActor Id) : Prop where
  pending : a.shutdownPending = false
  unnotified : a.pc ≠ .onShutdown ∧ a.pc ≠ .select true
  drained : a.doomed = true → a.mailbox = []

theorem serving_spawn (nodeId : Id) (generation : Nat) :
    Serving (spawn nodeId generation) := by
  constructor <;> simp [spawn]

/-- Every move of a serving actor leaves it serving. -/
theorem Serving.step {env : Env} {a a' : ConnActor Id} {ev : ConnEvent} {eff : Effect Id}
    (hserv : Serving a) (hlocal : LocalInv a) (hopen : env.closed = false)
    (h : a.step env ev = some (a', eff)) : Serving a' := by
  rcases hserv with ⟨hpending, ⟨hnot, hnot'⟩, hdrained⟩
  cases step_moves h with
  | shutdownIdle hpc | shutdownLeased hpc => exact (hnot hpc).elim
  | pollShutdown hpc => exact (hnot' hpc).elim
  | notifiedPending hpc _ hset =>
      rw [hpending] at hset
      contradiction
  | readShutdown hpc => exact ⟨hopen, by simp, fun hd => hdrained (by simp_all [doomed, isClosed])⟩
  | onClosed hpc =>
      have hclosed := hlocal.closing (.inl hpc)
      exact ⟨hpending, by simp [goto], fun _ => hdrained (by simp [doomed, hclosed])⟩
  | replyClosed tx hpc =>
      have hclosed := hlocal.closing (.inr ⟨tx, .inr hpc⟩)
      exact ⟨hpending, by simp [goto], fun _ => hdrained (by simp [doomed, hclosed])⟩
  | onIdleTimeout hpc => exact ⟨hpending, by simp [goto], fun _ => hdrained (by simp [doomed, hpc])⟩
  | exit hpc => exact ⟨hpending, by simp [exit], fun _ => rfl⟩
  | connected hpc => exact ⟨hpending, by simp, fun hd => by simp [doomed, isClosed] at hd⟩
  | pollRequest notified req rest hpc hmail hclosed =>
      refine ⟨hpending, by simp, fun hd => ?_⟩
      have hclosed' : ({ a with pc := .onRequest req.tx, mailbox := rest }).isClosed = false :=
        hclosed
      simp [doomed, hclosed'] at hd
  | pollIdleTimeout notified hpc hmail => exact ⟨hpending, by simp [goto], fun _ => hmail⟩
  | _ =>
      refine ⟨hpending, by simp [goto], fun hd => hdrained ?_⟩
      simp_all [doomed, isClosed, goto]

/-- The actor has a request of the call {lit}`c` in its mailbox or in its hands and
is at most {lit}`n` of its own moves away from the answer. -/
inductive Holds (a : ConnActor Id) (c : Nat) : Nat → Prop
  | serving : a.pc = .onRequest c → Holds a c 3
  | sendClosed : a.pc = .sendClosed c → Holds a c 2
  | replyClosed : a.pc = .replyClosed c → Holds a c 1
  | queued (i : Nat) (req : RequestMsg Id) : a.mailbox[i]? = some req → req.tx = c →
      Holds a c (a.pc.movesToSelect + 3 * i + 4)

/-- More requests behind it change nothing for a request. -/
theorem Holds.mono {a a' : ConnActor Id} {c n : Nat} (hold : Holds a c n)
    (hpc : a'.pc = a.pc) (hmail : a.mailbox <+: a'.mailbox) : Holds a' c n := by
  cases hold with
  | serving h => exact .serving (hpc.trans h)
  | sendClosed h => exact .sendClosed (hpc.trans h)
  | replyClosed h => exact .replyClosed (hpc.trans h)
  | queued i req hget htx =>
      rcases hmail with ⟨rest, hrest⟩
      have hget' : a'.mailbox[i]? = some req := by
        have hlt := (List.getElem?_eq_some_iff.mp hget).1
        rw [← hrest, List.getElem?_append_left hlt, hget]
      rw [← hpc]
      exact .queued i req hget' htx

/-- What the actor does with the request of the call {lit}`c` when it is done with
it: a reference, an error other than shutdown, or nothing because the caller has
gone. -/
def Settles (env : Env) (c : Nat) (eff : Effect Id) : Prop :=
  eff = .lease c ∨ (∃ error, error ≠ .shutdown ∧ eff = .reply c error) ∨ env.gone c = true

private theorem queued_step {env : Env} {a a' : ConnActor Id} {ev : ConnEvent}
    {eff : Effect Id} {c i : Nat} {req : RequestMsg Id} (hserv : Serving a)
    (hlocal : LocalInv a) (hget : a.mailbox[i]? = some req) (htx : req.tx = c)
    (h : a.step env ev = some (a', eff)) :
    ∃ m, m < a.pc.movesToSelect + 3 * i + 4 ∧ Holds a' c m := by
  have hmail : a.mailbox ≠ [] := by
    intro hnil
    simp [hnil] at hget
  have hnot : a.doomed = false := by
    by_contra hd
    exact hmail (hserv.drained (by simpa using hd))
  simp only [doomed, Bool.or_eq_false_iff] at hnot
  rcases hnot with ⟨hclosed, hstay⟩
  cases step_moves h with
  | shutdownIdle hpc | shutdownLeased hpc => exact (hserv.unnotified.1 hpc).elim
  | pollShutdown hpc => exact (hserv.unnotified.2 hpc).elim
  | notifiedPending _ _ hset =>
      rw [hserv.pending] at hset
      contradiction
  | onClosed hpc =>
      rw [hlocal.closing (.inl hpc)] at hclosed
      contradiction
  | serveClosed tx _ hwas | pollClosed _ _ hwas =>
      rw [hwas] at hclosed
      contradiction
  | sendClosed tx hpc =>
      rw [hlocal.closing (.inr ⟨tx, .inl hpc⟩)] at hclosed
      contradiction
  | replyClosed tx hpc =>
      rw [hlocal.closing (.inr ⟨tx, .inr hpc⟩)] at hclosed
      contradiction
  | onIdleTimeout hpc | exit hpc =>
      rw [hpc] at hstay
      contradiction
  | pollNotified _ _ hnil | pollIdleTimeout _ _ hnil => exact (hmail hnil).elim
  | pollRequest notified head rest hpc hcons =>
      rw [hcons] at hget
      cases i with
      | zero =>
          simp only [List.getElem?_cons_zero, Option.some.injEq] at hget
          subst hget
          exact ⟨3, by omega, .serving (by simp [htx])⟩
      | succ i =>
          simp only [List.getElem?_cons_succ] at hget
          exact ⟨_, by simp [Pc.movesToSelect, hpc]; omega, .queued i req hget htx⟩
  | connectFailed _ _ hpc | serveGone _ hpc | serveLease _ hpc | serveError _ hpc =>
      exact ⟨_, by simp [Pc.movesToSelect, hpc, goto], .queued i req hget htx⟩
  | _ hpc => exact ⟨_, by simp [Pc.movesToSelect, hpc, goto], .queued i req hget htx⟩

/-- Each move of a serving actor brings a request it holds closer to its answer, or
is that answer. -/
theorem Holds.step {env : Env} {a a' : ConnActor Id} {ev : ConnEvent} {eff : Effect Id}
    {c n : Nat} (hold : Holds a c n) (hserv : Serving a) (hlocal : LocalInv a)
    (h : a.step env ev = some (a', eff)) :
    (∃ m, m < n ∧ Holds a' c m) ∨ (ev = .resume ∧ Settles env c eff) := by
  cases hold with
  | queued i req hget htx => exact .inl (queued_step hserv hlocal hget htx h)
  | serving hpc =>
      cases step_moves h with
      | serveClosed tx hpc' =>
          rw [hpc, Pc.onRequest.injEq] at hpc'
          exact .inl ⟨2, by omega, .sendClosed (by simp [goto, hpc'])⟩
      | serveGone tx hpc' _ _ hgone =>
          rw [hpc, Pc.onRequest.injEq] at hpc'
          exact .inr ⟨rfl, .inr (.inr (hpc' ▸ hgone))⟩
      | serveLease tx hpc' =>
          rw [hpc, Pc.onRequest.injEq] at hpc'
          exact .inr ⟨rfl, .inl (by rw [hpc'])⟩
      | serveError tx hpc' hconn =>
          rw [hpc, Pc.onRequest.injEq] at hpc'
          rcases hlocal.failed (by simp [hpc]) hconn with ⟨error, herror, hne⟩
          exact .inr ⟨rfl, .inr (.inl ⟨error, hne, by rw [hpc', herror]; rfl⟩)⟩
      | _ => simp_all
  | sendClosed hpc =>
      cases step_moves h with
      | sendClosed tx hpc' =>
          rw [hpc, Pc.sendClosed.injEq] at hpc'
          exact .inl ⟨1, by omega, .replyClosed (by simp [goto, hpc'])⟩
      | _ => simp_all
  | replyClosed hpc =>
      cases step_moves h with
      | replyClosed tx hpc' =>
          rw [hpc, Pc.replyClosed.injEq] at hpc'
          exact .inr ⟨rfl, .inr (.inl ⟨.closed, by simp, by rw [hpc']⟩)⟩
      | _ => simp_all

/-- A serving actor that holds a request can move, unless it is out of guards. -/
theorem Holds.enabled {a : ConnActor Id} {c n : Nat} (hold : Holds a c n)
    (hserv : Serving a) (hlocal : LocalInv a) (env : Env) :
    (∃ event a' eff, a.step env event = some (a', eff)) ∨ a.counter.count = maxGuards := by
  have hqueued : (∀ tx, a.pc ≠ .onRequest tx ∧ a.pc ≠ .sendClosed tx ∧ a.pc ≠ .replyClosed tx) →
      a.mailbox ≠ [] := by
    intro hpc hnil
    cases hold with
    | serving h => exact (hpc c).1 h
    | sendClosed h => exact (hpc c).2.1 h
    | replyClosed h => exact (hpc c).2.2 h
    | queued i req hget => simp [hnil] at hget
  cases hpc : a.pc with
  | connecting =>
      exact .inl ⟨.connect .ok, _, _, by simp only [ConnActor.step, connect, if_pos hpc]; rfl⟩
  | select notified =>
      have hmail := hqueued (by simp [hpc])
      have hclosed : a.isClosed = false := by
        by_contra hwas
        exact hmail (hserv.drained (by simp_all [doomed]))
      obtain rfl : notified = false := by
        by_contra hset
        exact hserv.unnotified.2 (by simpa [hpc] using hset)
      exact .inl ⟨.poll .request, a.take .request, .quiet, by
        simp [ConnActor.step, poll, hpc, ready, earlier, hclosed, hmail]⟩
  | onRequest tx =>
      have hle := hlocal.count_le
      by_cases hcount : a.counter.count < maxGuards
      · refine .inl ⟨.resume, ?_⟩
        simp only [ConnActor.step, resume, hpc, serve]
        split
        · split
          · exact ⟨_, _, rfl⟩
          · split <;> exact ⟨_, _, rfl⟩
        · exact ⟨_, _, rfl⟩
      · exact .inr (by omega)
  | onNotified =>
      refine .inl ⟨.resume, ?_⟩
      simp only [ConnActor.step, resume, hpc]
      split <;> exact ⟨_, _, rfl⟩
  | stopped => exact (hqueued (by simp [hpc]) (hserv.drained (by simp [doomed, hpc]))).elim
  | _ => exact .inl ⟨.resume, _, _, by simp only [ConnActor.step, resume, hpc]; rfl⟩

theorem step_reply {env : Env} {a a' : ConnActor Id} {ev : ConnEvent} {tx : Nat}
    {error : PoolError} (hlocal : LocalInv a)
    (h : a.step env ev = some (a', .reply tx error)) : error ≠ .shutdown := by
  have hmoves := step_moves h
  generalize heff : Effect.reply tx error = eff at hmoves
  cases hmoves with
  | serveError tx' hpc hconn =>
      rcases hlocal.failed (by simp [hpc]) hconn with ⟨error', herror, hne⟩
      rw [herror] at heff
      cases heff
      exact hne
  | replyClosed tx' hpc =>
      cases heff
      decide
  | exit => simp [exit] at heff
  | _ => cases heff

theorem step_dropMailbox {env : Env} {a a' : ConnActor Id} {ev : ConnEvent}
    {txs : List Nat} (h : a.step env ev = some (a', .dropMailbox txs)) :
    a.pc = .exiting ∧ txs = a.mailbox.map RequestMsg.tx := by
  have hmoves := step_moves h
  generalize heff : Effect.dropMailbox txs = eff at hmoves
  cases hmoves with
  | exit hpc =>
      simp only [exit, Effect.dropMailbox.injEq] at heff
      exact ⟨hpc, heff⟩
  | _ => cases heff

end ConnActor

/-! ## The protocol -/

/-- The call has met no lost request. -/
def Call.unlost {Id : Type} : Call Id → Bool
  | .waiting _ _ .dropped | .waiting _ _ (.err .shutdown) | .returnedErr .shutdown => false
  | _ => true

namespace State

variable {Id : Type}

/-- The invariant of an open pool along runs without a stranding step. -/
structure DeliveryInv (s : State Id) : Prop where
  unshut : s.Unshut
  serving : ∀ (p : Nat) (a : ConnActor Id), s.conns[p]? = some a → a.Serving
  calls : ∀ c, (s.calls c).unlost = true

theorem deliveryInv_initial (options : PoolOptions) :
    DeliveryInv (initial options : State Id) :=
  ⟨unshut_initial options, by simp [initial], fun _ => rfl⟩

variable [DecidableEq Id]

/-- The steps that strand a request: it is put into the mailbox of an actor that
will take nothing from it any more, or the connection closes under the requests in
its actor's mailbox. -/
def strands (s : State Id) : Action Id → Bool
  | .pool .handle =>
      match s.poolPc with
      | .handling (.request req) =>
          (s.pool.connections.lookup req.id).any fun slot =>
            (s.conns[slot.tx]?).any fun a => a.pc ≠ .stopped && a.doomed
      | _ => false
  | .pool .sendFirst =>
      match s.poolPc with
      | .sendFirst p _ => (s.conns[p]?).any ConnActor.doomed
      | _ => false
  | .remoteClose p => (s.conns[p]?).any fun a => !a.mailbox.isEmpty
  | _ => false

/-- A request that is refused is told so. -/
theorem refused_error {s : State Id} {id : Id} {connTx : Nat} {error : PoolError}
    (h : (s.pool.handleRequest id s.trySend connTx).2 = .refused error) :
    error = .busy ∨ error = .tooManyConnections := by
  generalize hres : s.pool.handleRequest id s.trySend connTx = res at h
  have hhandled := s.pool.handled id s.trySend connTx
  rw [hres] at hhandled
  cases hhandled with
  | busy =>
      cases h
      exact .inl rfl
  | tooMany =>
      cases h
      exact .inr rfl
  | forwarded | evicted | opened => cases h

private theorem serving_change {s : State Id} {p : Nat} {a a' : ConnActor Id}
    {action : Action Id} (hserv : a.Serving) (hlocal : a.LocalInv) (hopen : s.closed = false)
    (hwake : action ≠ .notifyWaiters) (ha : s.conns[p]? = some a)
    (hkept : s.strands action = false) (h : ConnChange s p a action a') : a'.Serving := by
  rcases hserv with ⟨hpending, hunnotified, hdrained⟩
  cases h with
  | same => exact ⟨hpending, hunnotified, hdrained⟩
  | moved event _ effect hmove =>
      exact ConnActor.Serving.step ⟨hpending, hunnotified, hdrained⟩ hlocal hopen hmove
  | dropped | notified => exact ⟨hpending, hunnotified, hdrained⟩
  | remoteClosed hwas =>
      have hnil : a.mailbox = [] := by simpa [strands, ha] using hkept
      exact ⟨hpending, hunnotified, fun _ => hnil⟩
  | forwarded req slot hpc hlookup hslot hrun =>
      have hnot : a.doomed = false := by simpa [strands, hpc, hlookup, hslot, ha, hrun] using hkept
      exact ⟨hpending, hunnotified, fun hd => (Bool.false_ne_true (hnot.symm.trans hd)).elim⟩
  | first req hpc hrun =>
      have hnot : a.doomed = false := by simpa [strands, hpc, ha] using hkept
      exact ⟨hpending, hunnotified, fun hd => (Bool.false_ne_true (hnot.symm.trans hd)).elim⟩
  | woken => exact (hwake rfl).elim

private theorem answer_unlost {s : State Id} {action : Action Id} {c : Nat} {id : Id}
    {attempt : Nat} {reply : Reply} (hinv : s.DeliveryInv) (hlease : s.LeaseInv)
    (hkept : s.strands action = false) (h : Answers s c action reply) :
    (Call.waiting id attempt reply).unlost = true := by
  cases h with
  | refused req error _ _ hres => rcases refused_error hres with rfl | rfl <;> rfl
  | firstFailed p req a hpc _ ha hstopped =>
      simp [strands, hpc, ha, ConnActor.doomed, hstopped] at hkept
  | finished hpc =>
      have hrun := hinv.unshut.running
      rw [hpc] at hrun
      contradiction
  | replied p event a a' error ha hmove =>
      have hne := ConnActor.step_reply (hlease.localInv p a ha) hmove
      cases error <;> first | rfl | exact (hne rfl).elim
  | leased => rfl
  | mailboxDropped p event a a' txs ha hmove hmem =>
      rcases ConnActor.step_dropMailbox hmove with ⟨hpc, rfl⟩
      have hnil := (hinv.serving p a ha).drained (by simp [ConnActor.doomed, hpc])
      simp [hnil] at hmem

private theorem unlost_change {s : State Id} {action : Action Id} {c : Nat} {call : Call Id}
    (hinv : s.DeliveryInv) (hlease : s.LeaseInv) (hkept : s.strands action = false)
    (h : CallChange s c action call) : call.unlost = true := by
  have hcall := hinv.calls c
  cases h with
  | same => exact hcall
  | callClosed id _ hclosed =>
      rw [hinv.unshut.closed] at hclosed
      contradiction
  | sendClosed id attempt _ hrx =>
      rw [hinv.unshut.rxClosed] at hrx
      contradiction
  | gotErr id attempt error hwait =>
      rw [hwait] at hcall
      cases error <;> first | rfl | contradiction
  | gotDropped id attempt hwait =>
      rw [hwait] at hcall
      contradiction
  | answered _ id attempt reply _ hans => exact answer_unlost hinv hlease hkept hans
  | called | sent | gotRef | retried | cancelled => rfl

/-- A step that strands nothing and leaves the flag open keeps the invariant. -/
theorem DeliveryInv.step {s s' : State Id} {action : Action Id} (hinv : s.DeliveryInv)
    (hlease : s.LeaseInv) (hkept : s.strands action = false) (h : Step s action s')
    (hopen : s'.closed = false) : s'.DeliveryInv := by
  refine ⟨hinv.unshut.step h hopen, fun p a' ha' => ?_, fun c => ?_⟩
  · have hwake : action ≠ .notifyWaiters := by
      rintro rfl
      cases h with
      | notifiedWaiters hnotifying =>
          rw [hinv.unshut.notifying] at hnotifying
          contradiction
    rcases step_conn h ha' with ⟨a, ha, hchange⟩ | hspawn
    · exact serving_change (hinv.serving p a ha) (hlease.localInv p a ha) hinv.unshut.closed
        hwake ha hkept hchange
    · cases hspawn with
      | spawned req generation => exact ConnActor.serving_spawn _ _
  · exact unlost_change hinv hlease hkept (step_call h c)

omit [DecidableEq Id] in
/-- The answer of an actor reaches the call, if it still waits. -/
private theorem settles_answered {s s' : State Id} {p c : Nat} {a a' : ConnActor Id}
    {effect : Effect Id} (hemit : (s.setConn p a').emit p a effect = some s')
    (hsettles : ConnActor.Settles (s.env p) c effect) {id : Id} {attempt : Nat}
    (hcall : s.calls c = .waiting id attempt .pending) :
    ∃ reply, s'.calls c = .waiting id attempt reply ∧
      (reply = .ok ∨ ∃ error, error ≠ .shutdown ∧ reply = .err error) := by
  have hwait : (s.setConn p a').calls c = .waiting id attempt .pending := hcall
  rcases hsettles with rfl | ⟨error, hne, rfl⟩ | hgone
  · cases hemit
    refine ⟨.ok, ?_, .inl rfl⟩
    simp only [answer_calls_self, hwait]
  · cases hemit
    refine ⟨.err error, ?_, .inr ⟨error, hne, rfl⟩⟩
    simp only [answer_calls_self, hwait]
  · simp [env, hcall, Call.gone] at hgone

private theorem held_change {s : State Id} {action : Action Id} {p c n : Nat}
    {a a' : ConnActor Id} (hother : ∀ event, action ≠ .conn p event)
    (h : ConnChange s p a action a') (hold : a.Holds c n) : a'.Holds c n := by
  cases h with
  | same => exact hold
  | moved event => exact (hother event rfl).elim
  | dropped | notified | remoteClosed => exact hold.mono rfl (List.prefix_refl _)
  | forwarded req | first req => exact hold.mono rfl (List.prefix_append _ _)
  | woken notified hpc =>
      cases hold with
      | queued i req hget htx =>
          rw [hpc]
          exact .queued i req hget htx
      | serving h | sendClosed h | replyClosed h =>
          rw [hpc] at h
          contradiction

/-- The actor that holds a request of the call {lit}`c` keeps it, in a place at
least as close to the answer, or answers it. -/
theorem DeliveryInv.held_step {s s' : State Id} {action : Action Id} (hinv : s.DeliveryInv)
    (hlease : s.LeaseInv) (h : Step s action s') {p c n : Nat} {a : ConnActor Id}
    (ha : s.conns[p]? = some a) (hold : a.Holds c n) :
    (∃ a' m, s'.conns[p]? = some a' ∧ a'.Holds c m ∧ m ≤ n ∧
      ((∃ event, action = .conn p event) → m < n)) ∨
    (action = .conn p .resume ∧ ∀ id attempt, s.calls c = .waiting id attempt .pending →
      ∃ reply, s'.calls c = .waiting id attempt reply ∧
        (reply = .ok ∨ ∃ error, error ≠ .shutdown ∧ reply = .err error)) := by
  by_cases hown : ∃ event, action = .conn p event
  · rcases hown with ⟨event, rfl⟩
    cases h with
    | moved _ _ b a' effect s' hb hmove hemit =>
        obtain rfl : b = a := by
          rw [ha, Option.some.injEq] at hb
          exact hb.symm
        have ha' : s'.conns[p]? = some a' := by
          rw [emit_conns hemit]
          exact List.getElem?_set_self (List.getElem?_eq_some_iff.mp ha).1
        rcases hold.step (hinv.serving p b ha) (hlease.localInv p b ha) hmove with
          ⟨m, hlt, hheld⟩ | ⟨rfl, hsettles⟩
        · exact .inl ⟨a', m, ha', hheld, Nat.le_of_lt hlt, fun _ => hlt⟩
        · exact .inr ⟨rfl, fun id attempt hcall => settles_answered hemit hsettles hcall⟩
  · rcases step_conn_of h ha with ⟨a', ha', hchange⟩
    have hother : ∀ event, action ≠ .conn p event := fun event he => hown ⟨event, he⟩
    exact .inl ⟨a', n, ha', held_change hother hchange hold, Nat.le_refl n,
      fun hmove => (hown hmove).elim⟩

/-- The actor that holds a request can move, unless it waits for room in the pool's
queue or is out of guards. -/
theorem DeliveryInv.held_enabled {s : State Id} (hinv : s.DeliveryInv) (hlease : s.LeaseInv)
    {p c n : Nat} {a : ConnActor Id} (ha : s.conns[p]? = some a) (hold : a.Holds c n) :
    (∃ event s', s.step (.conn p event) = some s') ∨
      poolChannelCapacity ≤ s.queue.length ∨ a.counter.count = maxGuards := by
  rcases hold.enabled (hinv.serving p a ha) (hlease.localInv p a ha) (s.env p) with
    ⟨event, a', effect, hmove⟩ | hfull
  · by_cases hroom : s.queue.length < poolChannelCapacity
    · refine .inl ⟨event, ?_⟩
      simp only [State.step, stepConn, ha, hmove]
      cases effect with
      | send msg =>
          refine ⟨{ s.setConn p a' with queue := s.queue ++ [msg] }, ?_⟩
          simp [emit, poolSend, setConn, hinv.unshut.rxClosed, hroom]
      | _ => exact ⟨_, rfl⟩
    · exact .inr (.inl (Nat.le_of_not_lt hroom))
  · exact .inr (.inr hfull)

end State

open State

variable {Id : Type} [DecidableEq Id]

/-- The invariant of an open pool along runs without a stranding step. -/
theorem deliveryInv_of_reachable {options : PoolOptions} {s : State Id}
    (hs : (protocol options).ReachableWhen (fun s action => s.strands action = false) s)
    (hopen : s.closed = false) : s.DeliveryInv := by
  refine hs.invariant (I := fun s => s.closed = false → s.DeliveryInv)
    (fun _ => deliveryInv_initial options) ?_ hopen
  intro s s' action hreach hinv hkept hstep hopen'
  have h := step_sound hstep
  have hlease := leaseInv_of_reachable hreach.reachable
  exact (hinv (step_open h hopen')).step hlease hkept h hopen'

/-- Along runs without a stranding step, as long as the shutdown flag is open, no
call returns the shutdown error.  A request in an actor's mailbox or hands stays
with this actor, comes closer to its answer with each of the actor's moves, which
are blocked at most by a full queue of the pool or by the limit on guards, and is
answered by this actor with a reference or an error other than shutdown. -/
theorem accepted_requests_are_answered (options : PoolOptions) {s : State Id}
    (hs : (protocol options).ReachableWhen (fun s action => s.strands action = false) s)
    (hopen : s.closed = false) :
    (∀ c, s.calls c ≠ .returnedErr .shutdown) ∧
    ∀ (p c n : Nat) (a : ConnActor Id), s.conns[p]? = some a → a.Holds c n →
      ((∃ event s', s.step (.conn p event) = some s') ∨
        poolChannelCapacity ≤ s.queue.length ∨ a.counter.count = maxGuards) ∧
      ∀ action s', s.step action = some s' →
        (∃ a' m, s'.conns[p]? = some a' ∧ a'.Holds c m ∧ m ≤ n ∧
          ((∃ event, action = .conn p event) → m < n)) ∨
        (action = .conn p .resume ∧ ∀ id attempt, s.calls c = .waiting id attempt .pending →
          ∃ reply, s'.calls c = .waiting id attempt reply ∧
            (reply = .ok ∨ ∃ error, error ≠ .shutdown ∧ reply = .err error)) := by
  have hlease := leaseInv_of_reachable hs.reachable
  have hinv := deliveryInv_of_reachable hs hopen
  refine ⟨fun c hlost => ?_, fun p c n a ha hold => ⟨?_, fun action s' hstep => ?_⟩⟩
  · have hcall := hinv.calls c
    rw [hlost] at hcall
    contradiction
  · exact hinv.held_enabled hlease ha hold
  · exact hinv.held_step hlease (step_sound hstep) ha hold

/-! ## Runs -/

/-- The idle timer expires, and a second request for the same peer reaches the
mailbox before the actor's message reaches the pool actor. -/
def idleRace : List (Action Nat) :=
  firstIdle ++ [.conn 0 .resume, .conn 0 (.poll .idleTimeout), .call 1 7, .send 1] ++
    poolTurn ++ [.conn 0 .resume, .conn 0 .resume, .recv 1]

/-- A pool that nobody has shut down answers a call with the shutdown error. -/
theorem open_pool_returns_shutdown :
    ∃ s : State Nat, (protocol ⟨1⟩).Reachable s ∧ s.closed = false ∧
      s.calls 1 = .returnedErr .shutdown := by
  obtain ⟨s, hs, hlost⟩ := System.exists_of_runWhen_any (S := protocol ⟨1⟩)
    (C := fun _ _ => True) (l := idleRace)
    (P := fun s => !s.closed && s.calls 1 = .returnedErr .shutdown) (by decide)
  simp only [Bool.and_eq_true, Bool.not_eq_true', decide_eq_true_eq] at hlost
  exact ⟨s, hs, hlost⟩

/-- The first request, once it is in its actor's mailbox, is one of those that are
answered. -/
theorem first_request_is_answered :
    ∃ (s : State Nat) (a : ConnActor Nat),
      (protocol ⟨1⟩).ReachableWhen (fun s action => s.strands action = false) s ∧
      s.conns[0]? = some a ∧ a.Holds 0 8 ∧ (∀ c, s.calls c ≠ .returnedErr .shutdown) ∧
      ((∃ event s', s.step (.conn 0 event) = some s') ∨
        poolChannelCapacity ≤ s.queue.length ∨ a.counter.count = maxGuards) := by
  obtain ⟨s, hs, hsent⟩ := System.exists_of_runWhen_any (S := protocol ⟨1⟩)
    (C := fun s action => s.strands action = false) (l := firstRequest)
    (P := fun s => !s.closed &&
      s.conns[0]? = some { ConnActor.spawn 7 1 with mailbox := [⟨7, 0⟩] }) (by decide)
  simp only [Bool.and_eq_true, Bool.not_eq_true', decide_eq_true_eq] at hsent
  rcases hsent with ⟨hopen, ha⟩
  have hold : ConnActor.Holds { ConnActor.spawn 7 1 with mailbox := [⟨7, 0⟩] } 0 8 :=
    .queued 0 ⟨7, 0⟩ rfl rfl
  rcases accepted_requests_are_answered ⟨1⟩ hs hopen with ⟨hnever, hanswered⟩
  exact ⟨s, _, hs, ha, hold, hnever, (hanswered 0 0 8 _ ha hold).1⟩

end IrohTransport.Pool
