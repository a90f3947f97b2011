import IrohTransport.Pool.Requests
import Mathlib.Algebra.BigOperators.Group.Finset.Basic
import Mathlib.Algebra.Ring.Nat

/-!
# A pool that is left alone answers every call

The queue of the pool and the mailboxes of the connection actors are bounded, and the
tasks send to each other in both directions, so nothing forbids at first sight that they
all wait for room or chase each other for ever.  They do neither.  The pool actor never
waits for a connection actor, and every move of a task uses up a message, a permit of
{lit}`notify_one` or a part of the task's way out.

The account of what is left to do counts only moves that the code makes by itself.  It
leaves out the join of a finished task, which only leads the pool actor back to the top of
its loop and is counted apart.

Main results:

- Theorem {lit}`ConnActor.step_work`: every move of a connection actor lowers the work it
  has left by more than the message it sends adds.
- Theorem {lit}`State.work_step`: so does every move of an open pool.
- Theorem {lit}`left_alone_every_call_returns`: an open pool that is left alone comes to
  rest after a bounded number of moves, and then every call has returned.
-/

namespace IrohTransport.Pool

/-! ## The work that is left -/

/-- Moves that the code makes by itself, without a new call, a dropped reference or the
remote side. -/
def Action.own {Id : Type} : Action Id → Bool
  | .send _ | .recv _ | .notifyOne _ | .conn _ _ | .pool _ => true
  | _ => false

/-- What the pool actor spends on a message until it is back in its {lit}`select!`, and
the actors on a request in it. -/
def Msg.work {Id : Type} : Msg Id → Nat
  | .request _ => 34
  | .idle _ _ | .shutdown _ _ => 4

/-- What a connection actor spends from a program point until it is back in its
{lit}`select!`, where it keeps enough for its way out. -/
def Pc.work : Pc → Nat
  | .connecting => 18
  | .reportFailure => 17
  | .readShutdown | .onShutdown => 12
  | .loopHead => 11
  | .select true => 13
  | .select false => 10
  | .onRequest _ => 20
  | .onNotified => 17
  | .sendIdle => 16
  | .sendClosed _ => 7
  | .onClosed | .onIdleTimeout => 6
  | .replyClosed _ => 2
  | .exiting => 1
  | .stopped => 0

/-- What the pool actor spends until it is back in its {lit}`select!`. -/
def PoolPc.work {Id : Type} : PoolPc Id → Nat
  | .check => 2
  | .subscribe => 1
  | .handling msg => msg.work - 1
  | .sendFirst _ _ => 14
  | _ => 0

/-- What a call spends until it returns, with a retry if one is left. -/
def Call.work {Id : Type} : Call Id → Nat
  | .sending _ attempt => 36 + 36 * (openStreamRetries - 1 - attempt)
  | .waiting _ attempt _ => 1 + 36 * (openStreamRetries - 1 - attempt)
  | _ => 0

/-- What a permit of {lit}`notify_one` makes an actor spend, stored or on its way. -/
def ConnectionCounter.work (self : ConnectionCounter) : Nat :=
  (if self.permit then 8 else 0) + 9 * self.notifying

/-- What the message of an effect adds to the queue. -/
def Effect.work {Id : Type} : Effect Id → Nat
  | .send msg => msg.work
  | _ => 0

namespace ConnActor

variable {Id : Type}

/-- What a connection actor has left to do. -/
def work (self : ConnActor Id) : Nat :=
  self.pc.work + 11 * self.mailbox.length + self.counter.work

/-- Handing out a guard leaves the permits alone. -/
theorem work_getOne (counter : ConnectionCounter) : counter.getOne.work = counter.work :=
  rfl

/-- A guard that is handed out and given back at once leaves at most one permit. -/
theorem work_getAndDrop {counter : ConnectionCounter} (h : counter.count < 2 ^ 63) :
    counter.getAndDrop.work ≤ counter.work + 8 := by
  rw [ConnectionCounter.getAndDrop_eq h]
  unfold ConnectionCounter.work
  split <;> split <;> simp_all [Nat.add_comm]

/-- Storing a permit is less work than one on its way. -/
theorem work_notifyOne {counter : ConnectionCounter} (h : 0 < counter.notifying) :
    counter.notifyOne.work < counter.work := by
  simp only [ConnectionCounter.work, ConnectionCounter.notifyOne, if_true]
  split <;> omega

/-- Every move of a connection actor lowers what it has left to do by more than the
message it sends adds. -/
theorem step_work {env : Env} {a a' : ConnActor Id} {event : ConnEvent} {effect : Effect Id}
    (h : a.step env event = some (a', effect)) : a'.work + effect.work < a.work := by
  cases step_moves h with
  | serveGone tx hpc hopen hcount hgone =>
      have hpermit := work_getAndDrop hcount
      simp only [work, hpc, Pc.work, Effect.work]
      omega
  | pollRequest notified req rest hpc hmail =>
      cases notified <;> simp only [work, hpc, hmail, Pc.work, Effect.work, List.length_cons] <;> omega
  | pollNotified notified hpc hmail hclosed hconn hpermit =>
      simp only [work, Effect.work, ConnectionCounter.work, hpermit, if_true]
      cases notified <;> simp only [hpc, Pc.work, Bool.false_eq_true, if_false] <;> omega
  | pollClosed notified hpc | pollIdleTimeout notified hpc =>
      cases notified <;> simp only [work, goto, hpc, Pc.work, Effect.work] <;> omega
  | exit hpc =>
      simp only [work, exit, hpc, Pc.work, Effect.work, List.length_nil]
      omega
  | _ =>
      simp_all only [work, goto, Pc.work, Effect.work, Msg.work, shutdownMsg, idleMsg,
        work_getOne]
      omega

end ConnActor

namespace State

variable {Id : Type}

/-- What the calls below a bound have left to do. -/
def callsWork (calls : Nat → Call Id) (n : Nat) : Nat :=
  ∑ c ∈ Finset.range n, (calls c).work

/-- What the actors have left to do. -/
def connsWork (conns : List (ConnActor Id)) : Nat := (conns.map ConnActor.work).sum

/-- What the messages in the queue make the pool actor do. -/
def queueWork (queue : List (Msg Id)) : Nat := (queue.map Msg.work).sum

/-- What the pool has left to do for itself and for the calls below a bound. -/
def work (s : State Id) (n : Nat) : Nat :=
  callsWork s.calls n + queueWork s.queue + s.poolPc.work + connsWork s.conns

/-- No call from the bound on has begun. -/
def CallsBelow (s : State Id) (n : Nat) : Prop :=
  ∀ c, n ≤ c → s.calls c = .notStarted

theorem callsWork_update (calls : Nat → Call Id) {c n : Nat} (hc : c < n) (call : Call Id) :
    callsWork (Function.update calls c call) n + (calls c).work = callsWork calls n + call.work := by
  have hmem : c ∈ Finset.range n := Finset.mem_range.mpr hc
  have hsplit := Finset.add_sum_erase (Finset.range n) (fun d => (calls d).work) hmem
  have hsplit' := Finset.add_sum_erase (Finset.range n)
    (fun d => (Function.update calls c call d).work) hmem
  have hothers : ∑ d ∈ (Finset.range n).erase c, (Function.update calls c call d).work =
      ∑ d ∈ (Finset.range n).erase c, (calls d).work := by
    refine Finset.sum_congr rfl fun d hd => ?_
    rw [Function.update_of_ne (Finset.ne_of_mem_erase hd)]
  simp only [Function.update_self] at hsplit'
  unfold callsWork
  omega

/-- An answer takes no work off a call. -/
theorem callsWork_answer (s : State Id) (tx : Nat) (reply : Reply) (n : Nat) :
    callsWork (s.answer tx reply).calls n = callsWork s.calls n := by
  refine Finset.sum_congr rfl fun c _ => ?_
  rcases s.answer_calls_cases tx c reply with hsame | ⟨-, id, attempt, hcall, hanswered⟩
  · rw [hsame]
  · rw [hcall, hanswered]
    rfl

theorem connsWork_set {conns : List (ConnActor Id)} {p : Nat} {a : ConnActor Id}
    (ha : conns[p]? = some a) (b : ConnActor Id) :
    connsWork (conns.set p b) + a.work = connsWork conns + b.work := by
  induction conns generalizing p with
  | nil => contradiction
  | cons first rest ih =>
      cases p with
      | zero =>
          obtain rfl := Option.some.inj ha
          simp only [connsWork, List.set_cons_zero, List.map_cons, List.sum_cons]
          omega
      | succ p =>
          have hrest := ih (by simpa using ha)
          simp only [connsWork, List.set_cons_succ, List.map_cons, List.sum_cons] at hrest ⊢
          omega

/-- A request in a mailbox is work for its actor. -/
theorem connsWork_deliver {s : State Id} {p : Nat} {a : ConnActor Id}
    (ha : s.conns[p]? = some a) (req : RequestMsg Id) :
    connsWork (s.deliver p req).conns = connsWork s.conns + 11 := by
  have hset : (s.deliver p req).conns = s.conns.set p { a with mailbox := a.mailbox ++ [req] } := by
    simp [deliver, List.modify_eq_set_getElem?, ha]
  have hwork := connsWork_set ha { a with mailbox := a.mailbox ++ [req] }
  rw [hset]
  simp only [ConnActor.work, List.length_append, List.length_singleton] at hwork
  omega

/-- An effect adds no more work than its message. -/
theorem work_emit {s s' : State Id} {p : Nat} {a : ConnActor Id} {effect : Effect Id}
    (h : s.emit p a effect = some s') (n : Nat) : s'.work n ≤ s.work n + effect.work := by
  cases effect with
  | quiet =>
      obtain rfl := Option.some.inj h
      exact Nat.le_add_right _ _
  | send msg =>
      rcases poolSend_cases h with rfl | rfl
      · exact Nat.le_add_right _ _
      · simp only [work, queueWork, Effect.work, List.map_append, List.sum_append,
          List.map_singleton, List.sum_singleton]
        omega
  | reply tx error =>
      obtain rfl := Option.some.inj h
      simp [work, callsWork_answer]
  | lease tx =>
      obtain rfl := Option.some.inj h
      simp [work, callsWork_answer]
  | dropMailbox txs =>
      obtain rfl := Option.some.inj h
      refine Nat.le_of_eq ?_
      exact foldl_answer_frame s _ txs (fun s => s.work n) fun s tx => by
        simp [work, callsWork_answer]

/-- A client that goes on with its call lowers what the call has left to do by more than
the message it sends adds. -/
theorem work_client {s : State Id} {n : Nat} (hbelow : s.CallsBelow n) {c : Nat}
    {call : Call Id} (hstarted : s.calls c ≠ .notStarted) {queue : List (Msg Id)}
    (hwork : call.work + queueWork queue < (s.calls c).work + queueWork s.queue) :
    State.work { s with calls := Function.update s.calls c call, queue := queue } n < s.work n := by
  have hc : c < n := Nat.lt_of_not_le fun hle => hstarted (hbelow c hle)
  have hupdate := callsWork_update s.calls hc call
  simp only [work]
  omega

variable [DecidableEq Id]

/-- Handling a message lowers what is left to do: a request that goes on is less work in a
mailbox, with the actor that is started for it. -/
theorem work_handle {s : State Id} {msg : Msg Id} (hpc : s.poolPc = .handling msg) (n : Nat) :
    (s.handle msg).work n < s.work n := by
  cases msg with
  | idle id generation | shutdown id generation =>
      simp only [work, handle, hpc, PoolPc.work, Msg.work]
      omega
  | request req =>
      simp only [handle]
      split <;> rename_i hres
      · rcases forwarded_slot (congrArg Prod.snd hres) with ⟨slot, -, rfl, hsend⟩
        rcases trySend_ne_closed (show s.trySend slot.tx ≠ .closed by simp [hsend]) with ⟨a, ha, -⟩
        have hdeliver := connsWork_deliver ha req
        simp only [work, hpc, PoolPc.work, Msg.work, hdeliver]
        simp only [deliver]
        omega
      · simp only [work, callsWork_answer, answer_queue, answer_conns, hpc, PoolPc.work, Msg.work]
        omega
      · have hspawn : connsWork (s.conns ++ [.spawn req.id (by assumption)]) =
            connsWork s.conns + 18 := by
          simp [connsWork, ConnActor.spawn, ConnActor.work, Pc.work, ConnectionCounter.work,
            ConnectionCounter.new]
        simp only [work, hspawn, hpc, PoolPc.work, Msg.work]
        omega

/-- So does the first send into a fresh mailbox. -/
theorem work_sendFirst {s : State Id} {p : Nat} {req : RequestMsg Id}
    (hpc : s.poolPc = .sendFirst p req) (hp : p < s.conns.length) (n : Nat) :
    (s.sendFirst p req).work n < s.work n := by
  have ha := List.getElem?_eq_getElem hp
  simp only [sendFirst, ha]
  split
  · simp only [work, callsWork_answer, answer_queue, answer_conns, hpc, PoolPc.work]
    omega
  · have hdeliver := connsWork_deliver ha req
    simp only [work, hpc, PoolPc.work, hdeliver]
    simp only [deliver]
    omega

/-- Every own move of an open pool lowers what is left to do.  Joining a finished task costs
the way back to the {lit}`select!`. -/
theorem work_step {s s' : State Id} {action : Action Id} {n : Nat} (h : Step s action s')
    (hunshut : s.Unshut) (hbelow : s.CallsBelow n)
    (hfirst : ∀ p req, s.poolPc = .sendFirst p req → p < s.conns.length)
    (hown : action.own = true) :
    s'.work n < s.work n + if action = .pool .pollJoin then 3 else 0 := by
  have hrun := hunshut.running
  cases h with
  | callClosed | called | cancelledSend | cancelledWait | droppedRef | invalidated | remoteClosed
  | closed | notifiedWaiters => contradiction
  | sendClosed c id attempt hcall hrx =>
      rw [hunshut.rxClosed] at hrx
      contradiction
  | sent c id attempt hcall hrx hroom =>
      refine Nat.lt_of_lt_of_le (work_client hbelow (by simp [hcall]) ?_) (Nat.le_add_right _ _)
      simp only [hcall, Call.work, queueWork, List.map_append, List.sum_append, List.map_singleton,
        List.sum_singleton, Msg.work]
      omega
  | gotRef c id attempt hcall | gotErr c id attempt error hcall | gotDropped c id attempt hcall =>
      refine Nat.lt_of_lt_of_le (work_client hbelow (by simp [hcall]) ?_) (Nat.le_add_right _ _)
      simp only [hcall, Call.work]
      omega
  | retried c id attempt hcall hmore =>
      refine Nat.lt_of_lt_of_le (work_client hbelow (by simp [hcall]) ?_) (Nat.le_add_right _ _)
      simp only [hcall, Call.work]
      omega
  | notifiedOne p a ha hnotifying =>
      have hset := connsWork_set ha { a with counter := a.counter.notifyOne }
      have hpermit := ConnActor.work_notifyOne hnotifying
      simp only [ConnActor.work] at hset
      simp only [work, setConn]
      omega
  | moved p event a a' effect s' ha hmove hemit =>
      have hemitted := work_emit hemit n
      have hstep := ConnActor.step_work hmove
      have hset := connsWork_set ha a'
      simp only [work, setConn] at hemitted ⊢
      omega
  | poolCheck hpc =>
      simp only [work, hpc, hunshut.closed, PoolPc.work]
      simp
  | poolSubscribe hpc =>
      simp only [work, hpc, PoolPc.work]
      simp
  | poolShutdown hpc | poolTeardown hpc | poolFinish hpc =>
      rw [hpc] at hrun
      contradiction
  | poolRecv msg rest hpc hqueue =>
      have hpos : 0 < msg.work := by cases msg <;> simp [Msg.work]
      simp only [work, queueWork, hpc, hqueue, PoolPc.work, List.map_cons, List.sum_cons]
      omega
  | poolJoin hpc =>
      simp only [work, hpc, PoolPc.work, if_true]
      omega
  | poolHandle msg hpc => exact Nat.lt_of_lt_of_le (work_handle hpc n) (Nat.le_add_right _ _)
  | poolSendFirst p req hpc =>
      exact Nat.lt_of_lt_of_le (work_sendFirst hpc (hfirst p req hpc) n) (Nat.le_add_right _ _)

end State

/-! ## Requests are answered or under way -/

namespace ConnActor

variable {Id : Type}

/-- A move of the actor keeps a request or answers it, if somebody still waits for the
answer. -/
theorem step_keeps {env : Env} {a a' : ConnActor Id} {event : ConnEvent} {effect : Effect Id}
    (h : a.step env event = some (a', effect)) {c : Nat} (hc : c ∈ a.carries)
    (hgone : env.gone c = false) : c ∈ a'.carries ∨ c ∈ effect.answers := by
  cases step_moves h with
  | serveGone tx hpc hopen hcount hleft =>
      have hne : c ≠ tx := by
        rintro rfl
        rw [hgone] at hleft
        contradiction
      simp_all [carries, Pc.inHand]
  | pollRequest notified req rest hpc hmail =>
      simp only [carries, hpc, hmail, Pc.inHand, List.map_cons, List.append_nil, List.mem_cons] at hc
      left
      simpa [carries, Pc.inHand, or_comm] using hc
  | _ => simp_all [carries, goto, exit, Pc.inHand, Effect.answers]

end ConnActor

namespace State

variable {Id : Type}

theorem mem_underway {s : State Id} {c : Nat} :
    c ∈ s.underway ↔ c ∈ requestTxs s.queue ∨ c ∈ s.poolPc.inHand ∨
      ∃ (p : Nat) (a : ConnActor Id), s.conns[p]? = some a ∧ c ∈ a.carries := by
  have hconns : (∃ a ∈ s.conns, c ∈ a.carries) ↔
      ∃ (p : Nat) (a : ConnActor Id), s.conns[p]? = some a ∧ c ∈ a.carries := by
    constructor
    · rintro ⟨a, ha, hc⟩
      rcases List.mem_iff_getElem?.mp ha with ⟨p, hp⟩
      exact ⟨p, a, hp, hc⟩
    · rintro ⟨p, a, ha, hc⟩
      exact ⟨a, List.mem_of_getElem? ha, hc⟩
  rw [underway, List.mem_append, List.mem_append, List.mem_flatMap, hconns, or_assoc]

/-- The call waits for its reply. -/
def Pending (s : State Id) (c : Nat) : Prop :=
  ∃ id attempt, s.calls c = .waiting id attempt .pending

theorem not_pending_answer (s : State Id) (tx : Nat) {reply : Reply} (h : reply ≠ .pending) :
    ¬(s.answer tx reply).Pending tx := by
  rintro ⟨id, attempt, hcall⟩
  rw [answer_calls_self] at hcall
  split at hcall <;> rename_i hwas
  · injection hcall with _ _ hreply
    exact h hreply
  · exact hwas _ _ hcall

theorem not_pending_dropped (s : State Id) {txs : List Nat} {c : Nat} (hc : c ∈ txs) :
    ¬(txs.foldl (fun s tx => s.answer tx .dropped) s).Pending c := by
  induction txs generalizing s with
  | nil => contradiction
  | cons tx txs ih =>
      by_cases hmem : c ∈ txs
      · exact ih _ hmem
      · obtain rfl : c = tx := (List.mem_cons.mp hc).resolve_right hmem
        have hanswered := not_pending_answer s c (show Reply.dropped ≠ .pending by simp)
        rcases (s.answer c .dropped).foldl_dropped_calls txs c with hsame | ⟨hlater, -⟩
        · simpa only [Pending, List.foldl_cons, hsame] using hanswered
        · exact (hmem hlater).elim

/-- A call that an effect answers waits no longer. -/
theorem not_pending_emit {s s' : State Id} {p : Nat} {a : ConnActor Id} {effect : Effect Id}
    (h : s.emit p a effect = some s') {c : Nat} (hc : c ∈ effect.answers) : ¬s'.Pending c := by
  cases effect with
  | quiet => contradiction
  | send msg => contradiction
  | reply tx error =>
      obtain rfl := Option.some.inj h
      obtain rfl := List.mem_singleton.mp hc
      exact not_pending_answer s c (by simp)
  | lease tx =>
      obtain rfl := Option.some.inj h
      obtain rfl := List.mem_singleton.mp hc
      exact not_pending_answer s c (show Reply.ok ≠ .pending by simp)
  | dropMailbox txs =>
      obtain rfl := Option.some.inj h
      exact not_pending_dropped s hc

/-- A delivered request is in the mailbox of its actor. -/
theorem mem_deliver {s : State Id} {p : Nat} {a : ConnActor Id} (ha : s.conns[p]? = some a)
    (req : RequestMsg Id) :
    ∃ a', (s.deliver p req).conns[p]? = some a' ∧ req.tx ∈ a'.carries :=
  ⟨{ a with mailbox := a.mailbox ++ [req] }, by simp [deliver, ha], by simp [ConnActor.carries]⟩

variable [DecidableEq Id]

/-- An actor keeps the request of a call that goes on waiting. -/
theorem conn_keeps {s s' : State Id} {action : Action Id} (h : Step s action s') {c p : Nat}
    {a : ConnActor Id} (ha : s.conns[p]? = some a) (hc : c ∈ a.carries)
    (hwait : s.Pending c) (hwait' : s'.Pending c) :
    ∃ a', s'.conns[p]? = some a' ∧ c ∈ a'.carries := by
  rcases step_conn_of h ha with ⟨a', ha', hchange⟩
  refine ⟨a', ha', ?_⟩
  cases hchange with
  | same => exact hc
  | dropped | notified | remoteClosed => exact hc
  | forwarded req | first req =>
      simp only [ConnActor.carries, List.map_append, List.mem_append] at hc ⊢
      tauto
  | woken notified hpc => simpa [ConnActor.carries, ConnActor.goto, hpc, Pc.inHand] using hc
  | moved event _ effect hmove =>
      rcases hwait with ⟨id, attempt, hcall⟩
      have hgone : (s.env p).gone c = false := by simp [env, hcall, Call.gone]
      refine (ConnActor.step_keeps hmove hc hgone).resolve_right fun hanswered => ?_
      cases h with
      | moved _ _ b b' effect' _ hb hmove' hemit =>
          obtain rfl := Option.some.inj (ha.symm.trans hb)
          obtain ⟨rfl, rfl⟩ := Prod.mk.inj (Option.some.inj (hmove.symm.trans hmove'))
          exact not_pending_emit hemit hanswered hwait'

/-- A request leaves the queue for the hands of the pool actor, or when the queue is
dropped. -/
theorem queue_keeps {s s' : State Id} {action : Action Id} (h : Step s action s') {c : Nat}
    (hc : c ∈ requestTxs s.queue) (hwait' : s'.Pending c) :
    c ∈ requestTxs s'.queue ∨ c ∈ s'.poolPc.inHand := by
  have happend : ∀ queue, s'.queue = s.queue ++ queue → c ∈ requestTxs s'.queue := by
    intro queue hqueue
    rw [hqueue, requestTxs_append]
    exact List.mem_append_left _ hc
  cases h with
  | sent d id attempt => exact .inl (happend _ rfl)
  | invalidated d ref s' _ _ _ hsend =>
      rcases poolSend_cases hsend with rfl | rfl
      · exact .inl hc
      · exact .inl (happend _ rfl)
  | moved p event a a' effect s' ha hmove hemit =>
      rcases emit_queue hemit with hqueue | ⟨msg, -, hqueue⟩
      · exact .inl (by rw [hqueue]; exact hc)
      · exact .inl (happend _ hqueue)
  | poolRecv msg rest hpc hqueue =>
      rw [hqueue] at hc
      cases msg with
      | request req =>
          rcases List.mem_cons.mp hc with rfl | hc
          · exact .inr (List.mem_singleton.mpr rfl)
          · exact .inl hc
      | idle | shutdown => exact .inl hc
  | poolHandle msg => exact .inl (by rw [handle_queue]; exact hc)
  | poolSendFirst p req =>
      left
      unfold sendFirst
      split
      · split
        · rw [answer_queue]
          exact hc
        · exact hc
      · exact hc
  | poolFinish => exact (not_pending_dropped _ hc hwait').elim
  | _ => exact .inl hc

/-- The request in the hands of the pool actor goes into a mailbox, or the pool actor
answers it. -/
theorem hand_keeps {s s' : State Id} {action : Action Id} (h : Step s action s') {c : Nat}
    (hc : c ∈ s.poolPc.inHand) (hwait' : s'.Pending c) :
    c ∈ s'.poolPc.inHand ∨
      ∃ (p : Nat) (a : ConnActor Id), s'.conns[p]? = some a ∧ c ∈ a.carries := by
  cases h with
  | called d id =>
      left
      by_cases hpc : s.poolPc = .notStarted
      · rw [hpc] at hc
        contradiction
      · simpa [hpc] using hc
  | invalidated d ref s' _ _ _ hsend =>
      rcases poolSend_cases hsend with rfl | rfl <;> exact .inl hc
  | moved p event a a' effect s' ha hmove hemit =>
      left
      rw [(emit_pool hemit).2]
      exact hc
  | poolHandle msg hpc =>
      rw [hpc] at hc
      cases msg with
      | idle | shutdown => contradiction
      | request req =>
          obtain rfl := List.mem_singleton.mp hc
          simp only [handle] at hwait' ⊢
          split at hwait' <;> rename_i hres
          · rcases forwarded_slot (congrArg Prod.snd hres) with ⟨slot, -, rfl, hsend⟩
            rcases trySend_ne_closed (show s.trySend slot.tx ≠ .closed by simp [hsend]) with ⟨a, ha, -⟩
            exact .inr ⟨_, mem_deliver ha req⟩
          · exact (not_pending_answer s req.tx (by simp) hwait').elim
          · exact .inl (List.mem_singleton.mpr rfl)
  | poolSendFirst p req hpc =>
      rw [hpc] at hc
      obtain rfl := List.mem_singleton.mp hc
      unfold sendFirst at hwait' ⊢
      split at hwait' <;> rename_i ha
      · split at hwait' <;> rename_i hstopped
        · exact (not_pending_answer s req.tx (by simp) hwait').elim
        · rw [if_neg hstopped]
          exact .inr ⟨_, mem_deliver ha req⟩
      · exact .inl (by rw [hpc]; exact hc)
  | poolCheck hpc | poolSubscribe hpc | poolShutdown hpc | poolRecv _ _ hpc | poolJoin hpc
  | poolTeardown hpc | poolFinish hpc =>
      rw [hpc] at hc
      contradiction
  | notifiedWaiters =>
      left
      cases hpc : s.poolPc <;> rw [hpc] at hc <;> exact hc
  | _ => exact .inl hc

/-- No request is lost: as long as its call goes on waiting, it stays under way. -/
theorem step_keeps {s s' : State Id} {action : Action Id} (h : Step s action s') {c : Nat}
    (hc : c ∈ s.underway) (hwait : s.Pending c) (hwait' : s'.Pending c) : c ∈ s'.underway := by
  rw [mem_underway] at hc ⊢
  rcases hc with hqueue | hhand | ⟨p, a, ha, hc⟩
  · exact (queue_keeps h hqueue hwait').imp_right .inl
  · exact .inr (hand_keeps h hhand hwait')
  · exact .inr (.inr ⟨p, conn_keeps h ha hc hwait hwait'⟩)

/-- Every call that waits has its request under way, a stopped actor has no mailbox, the
actor that the pool actor is sending to exists, and nothing happens before the first call. -/
structure ProgressInv (s : State Id) : Prop where
  awaited : ∀ c, s.Pending c → c ∈ s.underway
  emptied : ∀ (p : Nat) (a : ConnActor Id), s.conns[p]? = some a → a.pc = .stopped →
    a.mailbox = []
  first : ∀ p req, s.poolPc = .sendFirst p req → p < s.conns.length
  fresh : s.poolPc = .notStarted → s.queue = [] ∧ s.conns = [] ∧
    ∀ c, s.calls c = .notStarted ∨ ∃ error, s.calls c = .returnedErr error

/-- A call that waits has waited before, or has just sent its request. -/
theorem pending_of_step {s s' : State Id} {action : Action Id} (h : Step s action s') {c : Nat}
    (hwait' : s'.Pending c) : s.Pending c ∨ c ∈ s'.underway := by
  rcases hwait' with ⟨id, attempt, hcall⟩
  have hchange := step_call h c
  rw [hcall] at hchange
  generalize hcall' : Call.waiting id attempt Reply.pending = call at hchange
  cases hchange with
  | same => exact .inl ⟨id, attempt, hcall'.symm⟩
  | sent =>
      right
      cases h with
      | sendClosed => simp at hcall
      | sent => simp [underway, requestTxs]
  | answered _ _ _ reply _ hanswers =>
      obtain ⟨-, -, rfl⟩ := Call.waiting.inj hcall'
      cases hanswers
  | callClosed | called | sendClosed | gotRef | retried | gotErr | gotDropped | cancelled =>
      contradiction

/-- The pool actor sends first to an actor that it has started. -/
theorem first_step {s s' : State Id} {action : Action Id} (h : Step s action s')
    (hfirst : ∀ p req, s.poolPc = .sendFirst p req → p < s.conns.length) {p : Nat}
    {req : RequestMsg Id} (hpc' : s'.poolPc = .sendFirst p req) : p < s'.conns.length := by
  rcases step_spawns h with ⟨hlength, -⟩ | ⟨-, req', hspawns⟩
  · rw [hlength]
    have hchange := step_poolPc h
    rw [hpc'] at hchange
    generalize hpc : PoolPc.sendFirst p req = pc at hchange
    cases hchange with
    | same => exact hfirst p req hpc.symm
    | spawned req' hhandling =>
        cases h with
        | poolHandle msg hmsg =>
            obtain rfl := PoolPc.handling.inj (hmsg.symm.trans hhandling)
            simp only [handle] at hpc' hlength
            split at hpc' <;> rename_i hres
            · contradiction
            · contradiction
            · simp [hres] at hlength
    | checked => split at hpc <;> contradiction
    | started | subscribed | shutdown | received | joined | handled | sentFirst | toreDown
    | finished | woken => contradiction
  · obtain ⟨rfl, -⟩ := PoolPc.sendFirst.inj (hspawns.poolPc.symm.trans hpc')
    rw [hspawns.conns, List.length_append]
    exact Nat.lt_succ_self _

/-- Before the first call there is nothing that could move. -/
theorem fresh_step {s s' : State Id} {action : Action Id} (h : Step s action s')
    (hfresh : s.poolPc = .notStarted → s.queue = [] ∧ s.conns = [] ∧
      ∀ c, s.calls c = .notStarted ∨ ∃ error, s.calls c = .returnedErr error)
    (hpc' : s'.poolPc = .notStarted) :
    s'.queue = [] ∧ s'.conns = [] ∧
      ∀ c, s'.calls c = .notStarted ∨ ∃ error, s'.calls c = .returnedErr error := by
  have hpc : s.poolPc = .notStarted := by
    have hchange := step_poolPc h
    generalize s'.poolPc = pc at hchange hpc'
    cases hchange with
    | same => exact hpc'
    | checked => split at hpc' <;> contradiction
    | started | subscribed | shutdown | received | joined | handled | spawned | sentFirst
    | toreDown | finished | woken => contradiction
  rcases hfresh hpc with ⟨hqueue, hconns, hcalls⟩
  have hnone : ∀ (p : Nat) (a : ConnActor Id), s.conns[p]? ≠ some a := by simp [hconns]
  cases h with
  | callClosed c id hcall =>
      refine ⟨hqueue, hconns, fun d => ?_⟩
      by_cases hd : d = c
      · subst hd
        exact .inr ⟨.shutdown, Function.update_self ..⟩
      · simp only [Function.update_of_ne hd]
        exact hcalls d
  | called c id => simp [hpc] at hpc'
  | closed => exact ⟨hqueue, hconns, hcalls⟩
  | notifiedWaiters => exact ⟨hqueue, by simp [hconns], hcalls⟩
  | notifiedOne p a ha | remoteClosed p a ha | moved p event a a' effect s' ha =>
      exact (hnone _ _ ha).elim
  | sendClosed c id attempt hcall | sent c id attempt hcall | gotRef c id attempt hcall
  | retried c id attempt hcall | gotErr c id attempt error hcall | gotDropped c id attempt hcall
  | cancelledSend c id attempt hcall | cancelledWait c id attempt reply hcall
  | invalidated c ref s' hcall =>
      have hidle := hcalls c
      simp [hcall] at hidle
  | droppedRef c ref hcall =>
      have hidle := hcalls c
      rcases hcall with hcall | hcall <;> simp [hcall] at hidle
  | poolCheck hpool | poolSubscribe hpool | poolShutdown hpool | poolRecv _ _ hpool
  | poolJoin hpool | poolHandle _ hpool | poolSendFirst _ _ hpool | poolTeardown hpool
  | poolFinish hpool =>
      rw [hpc] at hpool
      contradiction

/-- Every step keeps the invariant. -/
theorem ProgressInv.step {s s' : State Id} {action : Action Id} (hinv : s.ProgressInv)
    (h : Step s action s') : s'.ProgressInv := by
  constructor
  case awaited =>
    intro c hwait'
    rcases pending_of_step h hwait' with hwait | hsent
    · exact step_keeps h (hinv.awaited c hwait) hwait hwait'
    · exact hsent
  case emptied =>
    intro p a' ha' hstopped
    rcases step_conn h ha' with ⟨a, ha, hchange⟩ | hspawn
    · cases hchange with
      | same => exact hinv.emptied p a' ha hstopped
      | dropped | notified | remoteClosed => exact hinv.emptied p a ha hstopped
      | forwarded _ _ _ _ _ hrun | first _ _ hrun => exact (hrun hstopped).elim
      | woken => contradiction
      | moved event _ effect hmove =>
          cases ConnActor.step_moves hmove with
          | exit => rfl
          | _ => contradiction
    · cases hspawn with
      | spawned => contradiction
  case first => exact fun p req hpc' => first_step h hinv.first hpc'
  case fresh => exact fun hpc' => fresh_step h hinv.fresh hpc'

omit [DecidableEq Id] in
theorem progressInv_initial (options : PoolOptions) :
    ProgressInv (initial options : State Id) where
  awaited c hwait := by
    rcases hwait with ⟨id, attempt, hcall⟩
    contradiction
  emptied := by simp [initial]
  first := by simp [initial]
  fresh := fun _ => ⟨rfl, rfl, fun _ => .inl rfl⟩

/-! ## Calls that have begun -/

/-- A call begins with its own step. -/
theorem notStarted_step {s s' : State Id} {action : Action Id} (h : Step s action s') {c : Nat}
    (hcall : s.calls c = .notStarted) :
    s'.calls c = .notStarted ∨ (∃ id, action = .call c id) ∨ action = .cancel c := by
  have hchange := step_call h c
  generalize s'.calls c = call at hchange ⊢
  cases hchange with
  | same => exact .inl hcall
  | callClosed id | called id => exact .inr (.inl ⟨id, rfl⟩)
  | cancelled => exact .inr (.inr rfl)
  | sendClosed _ _ hwas | sent _ _ hwas | gotRef _ _ hwas | retried _ _ hwas | gotErr _ _ _ hwas
  | gotDropped _ _ hwas | answered _ _ _ _ hwas =>
      rw [hcall] at hwas
      contradiction

/-- Only finitely many calls have begun. -/
theorem exists_callsBelow {options : PoolOptions} {s : State Id}
    (hs : (protocol options).Reachable s) : ∃ n, s.CallsBelow n := by
  refine hs.invariant (I := fun s => ∃ n, s.CallsBelow n) ⟨0, fun _ _ => rfl⟩ ?_
  rintro s s' action - ⟨n, hbelow⟩ - hstep
  have hkeep : ∀ m, n ≤ m → (∀ c id, action = .call c id → c < m) →
      (∀ c, action = .cancel c → c < m) → s'.CallsBelow m := by
    intro m hm hcall hcancel c hc
    rcases notStarted_step (step_sound hstep) (hbelow c (hm.trans hc)) with
      hsame | ⟨id, rfl⟩ | rfl
    · exact hsame
    · exact (Nat.not_lt.mpr hc (hcall c id rfl)).elim
    · exact (Nat.not_lt.mpr hc (hcancel c rfl)).elim
  cases action with
  | call c id | cancel c =>
      refine ⟨max n (c + 1), hkeep _ (Nat.le_max_left _ _) ?_ ?_⟩ <;> simp
  | _ => exact ⟨n, hkeep n (Nat.le_refl n) (by simp) (by simp)⟩

/-- Own moves begin no call. -/
theorem CallsBelow.step {s s' : State Id} {action : Action Id} {n : Nat}
    (hbelow : s.CallsBelow n) (h : Step s action s') (hown : action.own = true) :
    s'.CallsBelow n := by
  intro c hc
  rcases notStarted_step h (hbelow c hc) with hsame | ⟨id, rfl⟩ | rfl
  · exact hsame
  · contradiction
  · contradiction

/-- Own moves leave an open pool open. -/
theorem Unshut.own_step {s s' : State Id} {action : Action Id} (hunshut : s.Unshut)
    (h : Step s action s') (hown : action.own = true) : s'.Unshut := by
  refine hunshut.step h ?_
  have hclose : action ≠ .close := by
    rintro rfl
    contradiction
  have hwake : action ≠ .notifyWaiters := by
    rintro rfl
    contradiction
  have htear : action ≠ .pool .teardown := by
    rintro rfl
    cases h with
    | poolTeardown hpc =>
        have hrun := hunshut.running
        rw [hpc] at hrun
        contradiction
  exact (congrArg Prod.fst (step_flags h hclose hwake htear)).trans hunshut.closed

/-! ## At rest -/

/-- No own move is enabled, except that a finished task may be joined. -/
def AtRest (s : State Id) : Prop :=
  ∀ action : Action Id, action.own = true → action ≠ .pool .pollJoin → s.step action = none

end State

namespace ConnActor

variable {Id : Type}

/-- An actor without a move has no request, unless it is out of guards. -/
theorem carries_of_stuck {a : ConnActor Id} {env : Env} (hstuck : ∀ event, a.step env event = none)
    (hguards : a.counter.count < maxGuards) (hstopped : a.pc = .stopped → a.mailbox = []) :
    a.carries = [] := by
  cases hpc : a.pc with
  | connecting =>
      have hconnect := hstuck (.connect .ok)
      simp [ConnActor.step, connect, hpc, ConnectOutcome.error] at hconnect
  | select notified =>
      have hmail : a.mailbox = [] := by
        by_contra hne
        have hshutdown := hstuck (.poll .shutdown)
        have hclosed := hstuck (.poll .closed)
        have hrequest := hstuck (.poll .request)
        simp only [ConnActor.step, poll, hpc, ready, earlier] at hshutdown hclosed hrequest
        cases notified <;> cases hpending : a.shutdownPending <;> cases hopen : a.isClosed <;>
          simp_all
      simp [carries, hpc, hmail, Pc.inHand]
  | stopped => simp [carries, hpc, hstopped hpc, Pc.inHand]
  | onRequest tx =>
      have hresume := hstuck .resume
      simp only [ConnActor.step, resume, hpc, serve, hguards, if_true] at hresume
      split at hresume
      · split at hresume
        · contradiction
        · split at hresume <;> contradiction
      · contradiction
  | onNotified =>
      have hresume := hstuck .resume
      simp only [ConnActor.step, resume, hpc] at hresume
      split at hresume <;> contradiction
  | _ =>
      have hresume := hstuck .resume
      simp [ConnActor.step, resume, hpc] at hresume

end ConnActor

namespace State

variable {Id : Type} [DecidableEq Id]

/-- At rest the pool actor waits for messages, and there are none. -/
theorem AtRest.pool {s : State Id} (hrest : s.AtRest) (hunshut : s.Unshut)
    (hinv : s.ProgressInv) : s.queue = [] ∧ s.poolPc.inHand = [] := by
  have hrun := hunshut.running
  have hstuck : ∀ event, event ≠ .pollJoin → s.stepPool event = none :=
    fun event hjoin => hrest (.pool event) rfl (by simpa using hjoin)
  cases hpc : s.poolPc with
  | notStarted => exact ⟨(hinv.fresh hpc).1, rfl⟩
  | check =>
      have hcheck := hstuck .check (by simp)
      simp [stepPool, hpc] at hcheck
  | subscribe =>
      have hsubscribe := hstuck .subscribe (by simp)
      simp [stepPool, hpc] at hsubscribe
  | select notified =>
      cases notified with
      | true =>
          rw [hpc] at hrun
          contradiction
      | false =>
          have hrecv := hstuck .pollRecv (by simp)
          cases hqueue : s.queue with
          | nil => exact ⟨rfl, rfl⟩
          | cons msg rest => simp [stepPool, hpc, hqueue] at hrecv
  | handling msg =>
      have hhandle := hstuck .handle (by simp)
      simp [stepPool, hpc] at hhandle
  | sendFirst p req =>
      have hsend := hstuck .sendFirst (by simp)
      simp [stepPool, hpc] at hsend
  | teardown | draining | stopped =>
      rw [hpc] at hrun
      contradiction

/-- At rest no connection actor has a request. -/
theorem AtRest.conn {s : State Id} (hrest : s.AtRest) (hunshut : s.Unshut)
    (hinv : s.ProgressInv) {p : Nat} {a : ConnActor Id} (ha : s.conns[p]? = some a)
    (hguards : a.counter.count < maxGuards) : a.carries = [] := by
  suffices hstuck : ∀ event, a.step (s.env p) event = none from
    ConnActor.carries_of_stuck hstuck hguards (hinv.emptied p a ha)
  intro event
  have hqueue := (hrest.pool hunshut hinv).1
  have hstuck : s.stepConn p event = none := hrest (.conn p event) rfl (by simp)
  cases hmove : a.step (s.env p) event with
  | none => rfl
  | some moved =>
      rcases moved with ⟨a', effect⟩
      simp only [stepConn, ha, hmove] at hstuck
      cases effect with
      | send msg =>
          simp [emit, poolSend, setConn, hunshut.rxClosed, hqueue, poolChannelCapacity] at hstuck
      | _ => contradiction

/-- The call has not begun, or has returned or was given up. -/
def Settled (s : State Id) (c : Nat) : Prop :=
  match s.calls c with
  | .sending _ _ | .waiting _ _ _ => False
  | _ => True

/-- At rest every call has returned. -/
theorem AtRest.settled {s : State Id} (hrest : s.AtRest) (hunshut : s.Unshut)
    (hinv : s.ProgressInv) (hguards : ∀ a ∈ s.conns, a.counter.count < maxGuards) (c : Nat) :
    s.Settled c := by
  rcases hrest.pool hunshut hinv with ⟨hqueue, hhand⟩
  have hsend : s.stepSend c = none := hrest (.send c) rfl (by simp)
  have hrecv : s.stepRecv c = none := hrest (.recv c) rfl (by simp)
  unfold Settled
  cases hcall : s.calls c with
  | sending id attempt =>
      simp [stepSend, hcall, hunshut.rxClosed, hqueue, poolChannelCapacity] at hsend
  | waiting id attempt reply =>
      cases reply with
      | pending =>
          have hunder := hinv.awaited c ⟨id, attempt, hcall⟩
          rw [mem_underway, hqueue, hhand] at hunder
          rcases hunder with hnone | hnone | ⟨p, a, ha, hc⟩
          · contradiction
          · contradiction
          · rw [hrest.conn hunshut hinv ha (hguards a (List.mem_of_getElem? ha))] at hc
            contradiction
      | ok | dropped => simp [stepRecv, hcall] at hrecv
      | err error =>
          simp only [stepRecv, hcall] at hrecv
          split at hrecv <;> contradiction
  | notStarted | returnedRef | returnedErr | cancelled => trivial

/-! ## Runs of own moves -/

/-- An open pool in which the calls from a bound on have not begun. -/
structure Quiet (s : State Id) (n : Nat) : Prop where
  unshut : s.Unshut
  progress : s.ProgressInv
  below : s.CallsBelow n

theorem Quiet.step {s s' : State Id} {action : Action Id} {n : Nat} (h : s.Quiet n)
    (hown : action.own = true) (hstep : s.step action = some s') :
    s'.Quiet n ∧ s'.work n < s.work n + if action = .pool .pollJoin then 3 else 0 :=
  ⟨⟨h.unshut.own_step (step_sound hstep) hown, h.progress.step (step_sound hstep),
      h.below.step (step_sound hstep) hown⟩,
    work_step (step_sound hstep) h.unshut h.below h.progress.first hown⟩

/-- A run of own moves pays for each of them out of the work that was left. -/
theorem Quiet.run {options : PoolOptions} {n : Nat} {l : List (Action Id)} :
    ∀ {s s' : State Id}, s.Quiet n → (∀ action ∈ l, action.own = true) →
      (protocol options).run s l = some s' →
      s'.Quiet n ∧ l.length + s'.work n ≤ s.work n + 3 * l.count (.pool .pollJoin) := by
  induction l with
  | nil =>
      intro s s' h _ hrun
      obtain rfl := Option.some.inj hrun
      exact ⟨h, by simp⟩
  | cons action l ih =>
      intro s s' h hown hrun
      simp only [System.run, System.runWhen, if_true] at hrun
      split at hrun <;> rename_i hnext
      · rcases h.step (hown action List.mem_cons_self) hnext with ⟨hquiet, hwork⟩
        rcases ih hquiet (fun later hlater => hown later (List.mem_cons_of_mem _ hlater)) hrun with
          ⟨hlast, hlength⟩
        refine ⟨hlast, ?_⟩
        simp only [List.length_cons, List.count_cons, beq_iff_eq]
        split at hwork <;> rename_i hjoin
        · rw [if_pos hjoin]
          omega
        · rw [if_neg hjoin]
          omega
      · contradiction

/-- An open pool can always be brought to rest. -/
theorem Quiet.exists_rest {options : PoolOptions} {n : Nat} {s : State Id} (h : s.Quiet n) :
    ∃ l s', (∀ action ∈ l, action.own = true ∧ action ≠ .pool .pollJoin) ∧
      (protocol options).run s l = some s' ∧ s'.AtRest := by
  induction hwork : s.work n using Nat.strongRecOn generalizing s with
  | ind work ih =>
      by_cases hrest : s.AtRest
      · exact ⟨[], s, by simp, rfl, hrest⟩
      · simp only [AtRest, not_forall] at hrest
        rcases hrest with ⟨action, hown, hjoin, hsome⟩
        rcases Option.ne_none_iff_exists'.mp hsome with ⟨s₁, hstep⟩
        rcases h.step hown hstep with ⟨hquiet, hless⟩
        rw [if_neg hjoin, hwork, Nat.add_zero] at hless
        rcases ih _ hless hquiet rfl with ⟨l, s', hl, hrun, hrest⟩
        refine ⟨action :: l, s', ?_, ?_, hrest⟩
        · intro later hlater
          rcases List.mem_cons.mp hlater with rfl | hlater
          · exact ⟨hown, hjoin⟩
          · exact hl later hlater
        · have hnext : (protocol options).step s action = some s₁ := hstep
          simpa [System.run, System.runWhen, hnext] using hrun

end State

open State

variable {Id : Type} [DecidableEq Id]

theorem progressInv_of_reachable {options : PoolOptions} {s : State Id}
    (hs : (protocol options).Reachable s) : s.ProgressInv :=
  hs.invariant (progressInv_initial options)
    fun _ _ _ _ hinv _ hstep => hinv.step (step_sound hstep)

theorem unshut_of_reachable {options : PoolOptions} {s : State Id}
    (hs : (protocol options).Reachable s) (hopen : s.closed = false) : s.Unshut := by
  refine hs.invariant (I := fun s => s.closed = false → s.Unshut)
    (fun _ => unshut_initial options) ?_ hopen
  intro s s' action _ hinv _ hstep hopen'
  exact (hinv (step_open (step_sound hstep) hopen')).step (step_sound hstep) hopen'

/-- An open pool that is left alone, with no new call, no dropped reference and no word from
the remote sides, makes a bounded number of moves, joins of finished tasks apart, and can
always make enough of them to come to rest.  When it has, every call of
{lit}`get_or_connect` has returned, unless an actor has given out as many guards as an
{lit}`Arc` can count. -/
theorem left_alone_every_call_returns (options : PoolOptions) {s : State Id}
    (hs : (protocol options).Reachable s) (hopen : s.closed = false) :
    (∃ bound, ∀ (l : List (Action Id)) (s' : State Id),
      (∀ action ∈ l, action.own = true) → (protocol options).run s l = some s' →
      l.length ≤ bound + 3 * l.count (.pool .pollJoin) ∧
        (s'.AtRest → (∀ a ∈ s'.conns, a.counter.count < maxGuards) → ∀ c, s'.Settled c)) ∧
    ∃ (l : List (Action Id)) (s' : State Id),
      (∀ action ∈ l, action.own = true ∧ action ≠ .pool .pollJoin) ∧
      (protocol options).run s l = some s' ∧ s'.AtRest := by
  rcases exists_callsBelow hs with ⟨n, hbelow⟩
  have hquiet : s.Quiet n := ⟨unshut_of_reachable hs hopen, progressInv_of_reachable hs, hbelow⟩
  refine ⟨⟨s.work n, fun l s' hown hrun => ?_⟩, hquiet.exists_rest⟩
  rcases hquiet.run hown hrun with ⟨hlast, hlength⟩
  refine ⟨by omega, fun hrest hguards c => ?_⟩
  exact hrest.settled hlast.unshut hlast.progress hguards c

/-- Two calls for two peers wait while the connect of the first goes on; the pool has room
for one connection. -/
def twoCallsWaiting : List (Action Nat) :=
  [.call 0 7, .call 1 8, .send 0, .send 1, .pool .check, .pool .subscribe, .pool .pollRecv,
    .pool .handle, .pool .sendFirst]

/-- Both return when the pool is left alone, unless an actor has given out all its guards. -/
theorem left_alone_every_call_returns_waiting :
    ∃ s : State Nat, (protocol ⟨1⟩).Reachable s ∧ ¬s.Settled 0 ∧ ¬s.Settled 1 ∧
      ∃ (l : List (Action Nat)) (s' : State Nat),
        (∀ action ∈ l, action.own = true ∧ action ≠ .pool .pollJoin) ∧
        (protocol ⟨1⟩).run s l = some s' ∧ s'.AtRest ∧
        ((∀ a ∈ s'.conns, a.counter.count < maxGuards) → s'.Settled 0 ∧ s'.Settled 1) := by
  obtain ⟨s, hs, hwaiting⟩ := System.exists_of_runWhen_any (S := protocol ⟨1⟩)
    (C := fun _ _ => True) (l := twoCallsWaiting)
    (P := fun s => !s.closed && (s.calls 0 = .waiting 7 0 .pending) &&
      (s.calls 1 = .waiting 8 0 .pending)) (by decide)
  simp only [Bool.and_eq_true, Bool.not_eq_true', decide_eq_true_eq] at hwaiting
  rcases hwaiting with ⟨⟨hopen, hfirst⟩, hsecond⟩
  rcases left_alone_every_call_returns ⟨1⟩ hs hopen with ⟨⟨_, hends⟩, l, s', hown, hrun, hrest⟩
  refine ⟨s, hs, by simp [Settled, hfirst], by simp [Settled, hsecond], l, s', hown, hrun, hrest,
    fun hguards => ?_⟩
  have hsettled := (hends l s' (fun action hmem => (hown action hmem).1) hrun).2 hrest hguards
  exact ⟨hsettled 0, hsettled 1⟩

end IrohTransport.Pool
