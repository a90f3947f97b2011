import IrohTransport.Pool.Steps

/-!
# Calls, replies and messages in flight

Inversion of the steps of the protocol for the parts that carry requests: the
state of a {lit}`get_or_connect` call, who answers it, and the messages on their
way to the pool actor.

Main results:

- Theorem {lit}`step_call`: a call changes by its own client, or by an answer to
  its pending request.
- Theorem {lit}`step_inFlight`: where the messages to the pool actor come from.
-/

namespace IrohTransport.Pool.State

variable {Id : Type}

/-! ## Answering -/

theorem answer_calls_of_ne (s : State Id) {tx c : Nat} (reply : Reply) (h : c ≠ tx) :
    (s.answer tx reply).calls c = s.calls c := by
  unfold answer
  split
  · exact Function.update_of_ne h _ _
  · rfl

theorem answer_calls_self (s : State Id) (tx : Nat) (reply : Reply) :
    (s.answer tx reply).calls tx =
      match s.calls tx with
      | .waiting id attempt .pending => .waiting id attempt reply
      | call => call := by
  cases hcall : s.calls tx with
  | waiting id attempt received => cases received <;> simp [answer, hcall]
  | _ => simp [answer, hcall]

/-- An answer changes a call only if it still waits for one. -/
theorem answer_calls_cases (s : State Id) (tx c : Nat) (reply : Reply) :
    (s.answer tx reply).calls c = s.calls c ∨
      (c = tx ∧ ∃ id attempt, s.calls c = .waiting id attempt .pending ∧
        (s.answer tx reply).calls c = .waiting id attempt reply) := by
  by_cases hc : c = tx
  · subst hc
    rw [answer_calls_self]
    split <;> rename_i hcall
    · exact .inr ⟨rfl, _, _, hcall, rfl⟩
    · exact .inl rfl
  · exact .inl (s.answer_calls_of_ne reply hc)

/-- Dropping reply channels changes a call only if it is among them and still
waits. -/
theorem foldl_dropped_calls (s : State Id) (txs : List Nat) (c : Nat) :
    (txs.foldl (fun s tx => s.answer tx .dropped) s).calls c = s.calls c ∨
      (c ∈ txs ∧ ∃ id attempt, s.calls c = .waiting id attempt .pending ∧
        (txs.foldl (fun s tx => s.answer tx .dropped) s).calls c =
          .waiting id attempt .dropped) := by
  induction txs generalizing s with
  | nil => exact .inl rfl
  | cons tx txs ih =>
      rw [List.foldl_cons]
      rcases ih (s.answer tx .dropped) with hsame | ⟨hmem, id, attempt, hcall, hdrop⟩
      · rw [hsame]
        rcases s.answer_calls_cases tx c .dropped with hcall | ⟨rfl, id, attempt, hcall, hdrop⟩
        · exact .inl hcall
        · exact .inr ⟨List.mem_cons_self, id, attempt, hcall, hdrop⟩
      · rcases s.answer_calls_cases tx c .dropped with hold | ⟨rfl, _, _, _, hdropped⟩
        · exact .inr ⟨List.mem_cons_of_mem _ hmem, id, attempt, hold ▸ hcall, hdrop⟩
        · rw [hdropped] at hcall
          simp at hcall

variable [DecidableEq Id]

/-- Who answers the pending request of the call {lit}`c`, and with what. -/
inductive Answers (s : State Id) (c : Nat) : Action Id → Reply → Prop
  | refused (req : RequestMsg Id) (error : PoolError) :
      s.poolPc = .handling (.request req) → req.tx = c →
      (s.pool.handleRequest req.id s.trySend s.conns.length).2 = .refused error →
      Answers s c (.pool .handle) (.err error)
  | firstFailed (p : Nat) (req : RequestMsg Id) (a : ConnActor Id) :
      s.poolPc = .sendFirst p req → req.tx = c → s.conns[p]? = some a →
      a.pc = .stopped → Answers s c (.pool .sendFirst) .dropped
  | finished : s.poolPc = .draining → Answers s c (.pool .finish) .dropped
  | replied (p : Nat) (event : ConnEvent) (a a' : ConnActor Id) (error : PoolError) :
      s.conns[p]? = some a → a.step (s.env p) event = some (a', .reply c error) →
      Answers s c (.conn p event) (.err error)
  | leased (p : Nat) (event : ConnEvent) (a a' : ConnActor Id) :
      s.conns[p]? = some a → a.step (s.env p) event = some (a', .lease c) →
      Answers s c (.conn p event) .ok
  | mailboxDropped (p : Nat) (event : ConnEvent) (a a' : ConnActor Id) (txs : List Nat) :
      s.conns[p]? = some a → a.step (s.env p) event = some (a', .dropMailbox txs) →
      c ∈ txs → Answers s c (.conn p event) .dropped

/-- Everything one step can do to the call {lit}`c`. -/
inductive CallChange (s : State Id) (c : Nat) : Action Id → Call Id → Prop
  | same (action : Action Id) : CallChange s c action (s.calls c)
  | callClosed (id : Id) : s.calls c = .notStarted → s.closed = true →
      CallChange s c (.call c id) (.returnedErr .shutdown)
  | called (id : Id) : s.calls c = .notStarted → s.closed = false →
      CallChange s c (.call c id) (.sending id 0)
  | sendClosed (id : Id) (attempt : Nat) : s.calls c = .sending id attempt →
      s.rxClosed = true → CallChange s c (.send c) (.returnedErr .shutdown)
  | sent (id : Id) (attempt : Nat) : s.calls c = .sending id attempt →
      s.rxClosed = false → CallChange s c (.send c) (.waiting id attempt .pending)
  | gotRef (id : Id) (attempt : Nat) : s.calls c = .waiting id attempt .ok →
      CallChange s c (.recv c) .returnedRef
  | retried (id : Id) (attempt : Nat) : s.calls c = .waiting id attempt (.err .closed) →
      attempt + 1 < openStreamRetries → CallChange s c (.recv c) (.sending id (attempt + 1))
  | gotErr (id : Id) (attempt : Nat) (error : PoolError) :
      s.calls c = .waiting id attempt (.err error) →
      ¬(error = .closed ∧ attempt + 1 < openStreamRetries) →
      CallChange s c (.recv c) (.returnedErr error)
  | gotDropped (id : Id) (attempt : Nat) : s.calls c = .waiting id attempt .dropped →
      CallChange s c (.recv c) (.returnedErr .shutdown)
  | cancelled : CallChange s c (.cancel c) .cancelled
  | answered (action : Action Id) (id : Id) (attempt : Nat) (reply : Reply) :
      s.calls c = .waiting id attempt .pending → Answers s c action reply →
      CallChange s c action (.waiting id attempt reply)

/-- The call that moves itself changes, and every other call is left alone. -/
private theorem update_change {s : State Id} {action : Action Id} {c : Nat}
    {call : Call Id} (hself : CallChange s c action call) (d : Nat) :
    CallChange s d action (Function.update s.calls c call d) := by
  by_cases hd : d = c
  · subst hd
    rw [Function.update_self]
    exact hself
  · rw [Function.update_of_ne hd]
    exact .same _

/-- An answer to the call that waits for it, and to no other. -/
private theorem answer_change (s t : State Id) {action : Action Id} {tx : Nat}
    {reply : Reply} (hcalls : t.calls = s.calls) (hans : Answers s tx action reply) (c : Nat) :
    CallChange s c action ((t.answer tx reply).calls c) := by
  rcases t.answer_calls_cases tx c reply with hsame | ⟨rfl, id, attempt, hcall, hnew⟩
  · rw [hsame, hcalls]
    exact .same _
  · rw [hnew]
    exact .answered action id attempt reply (hcalls ▸ hcall) hans

private theorem foldl_dropped_change (s t : State Id) {action : Action Id} {txs : List Nat}
    (hcalls : t.calls = s.calls) (hans : ∀ c ∈ txs, Answers s c action .dropped) (c : Nat) :
    CallChange s c action ((txs.foldl (fun s tx => s.answer tx .dropped) t).calls c) := by
  rcases t.foldl_dropped_calls txs c with hsame | ⟨hmem, id, attempt, hcall, hnew⟩
  · rw [hsame, hcalls]
    exact .same _
  · rw [hnew]
    exact .answered action id attempt .dropped (hcalls ▸ hcall) (hans c hmem)

private theorem handle_change {s : State Id} {msg : Msg Id} (hpc : s.poolPc = .handling msg)
    (c : Nat) : CallChange s c (.pool .handle) ((s.handle msg).calls c) := by
  cases msg with
  | idle id generation => exact .same _
  | shutdown id generation => exact .same _
  | request req =>
      simp only [handle]
      split <;> rename_i hres
      · exact .same _
      · exact answer_change s s rfl (.refused req _ hpc rfl (congrArg Prod.snd hres)) c
      · exact .same _

private theorem sendFirst_change {s : State Id} {p : Nat} {req : RequestMsg Id}
    (hpc : s.poolPc = .sendFirst p req) (c : Nat) :
    CallChange s c (.pool .sendFirst) ((s.sendFirst p req).calls c) := by
  unfold sendFirst
  split <;> rename_i ha
  · split <;> rename_i hrun
    · exact answer_change s s rfl (.firstFailed p req _ hpc rfl ha hrun) c
    · exact .same _
  · exact .same _

private theorem emit_change {s s' : State Id} {p : Nat} {event : ConnEvent}
    {a a' : ConnActor Id} {effect : Effect Id} (ha : s.conns[p]? = some a)
    (hmove : a.step (s.env p) event = some (a', effect))
    (hemit : (s.setConn p a').emit p a effect = some s') (c : Nat) :
    CallChange s c (.conn p event) (s'.calls c) := by
  cases effect with
  | quiet =>
      cases hemit
      exact .same _
  | send msg => rcases poolSend_cases hemit with rfl | rfl <;> exact .same _
  | reply tx error =>
      cases hemit
      exact answer_change s (s.setConn p a') rfl (.replied p event a a' error ha hmove) c
  | lease tx =>
      cases hemit
      exact answer_change s (s.setConn p a') rfl (.leased p event a a' ha hmove) c
  | dropMailbox txs =>
      cases hemit
      exact foldl_dropped_change s (s.setConn p a') rfl
        (fun d hd => .mailboxDropped p event a a' txs ha hmove hd) c

/-- A call changes by its own client, or by an answer to its pending request. -/
theorem step_call {s s' : State Id} {action : Action Id} (h : Step s action s') (c : Nat) :
    CallChange s c action (s'.calls c) := by
  cases h with
  | callClosed d id hcall hclosed => exact update_change (.callClosed id hcall hclosed) c
  | called d id hcall hclosed => exact update_change (.called id hcall hclosed) c
  | sendClosed d id attempt hcall hrx => exact update_change (.sendClosed id attempt hcall hrx) c
  | sent d id attempt hcall hrx => exact update_change (.sent id attempt hcall hrx) c
  | gotRef d id attempt hcall => exact update_change (.gotRef id attempt hcall) c
  | retried d id attempt hcall hmore => exact update_change (.retried id attempt hcall hmore) c
  | gotErr d id attempt error hcall hlast =>
      exact update_change (.gotErr id attempt error hcall hlast) c
  | gotDropped d id attempt hcall => exact update_change (.gotDropped id attempt hcall) c
  | cancelledSend d id attempt hcall => exact update_change .cancelled c
  | cancelledWait d id attempt reply hcall => exact update_change .cancelled c
  | invalidated d ref s' _ _ _ hsend => rcases poolSend_cases hsend with rfl | rfl <;> exact .same _
  | moved p event a a' effect s' ha hmove hemit => exact emit_change ha hmove hemit c
  | poolHandle msg hpc => exact handle_change hpc c
  | poolSendFirst p req hpc => exact sendFirst_change hpc c
  | poolFinish hpc hall =>
      exact foldl_dropped_change s { s with poolPc := .stopped, queue := [] } rfl
        (fun _ _ => .finished hpc) c
  | _ => exact .same _

/-! ## Messages in flight -/

omit [DecidableEq Id] in
private theorem inFlight_append {s : State Id} {msg sent : Msg Id}
    (h : msg ∈ s.queue ++ [sent] ∨ s.poolPc = .handling msg) :
    s.InFlight msg ∨ msg = sent := by
  rcases h with hmem | hhandling
  · rcases List.mem_append.mp hmem with hold | hnew
    · exact .inl (.inl hold)
    · exact .inr (List.mem_singleton.mp hnew)
  · exact .inl (.inr hhandling)

/-- Where the messages to the pool actor come from. -/
theorem step_inFlight {s s' : State Id} {action : Action Id} (h : Step s action s')
    {msg : Msg Id} (hmsg : s'.InFlight msg) : Origin s action s' msg := by
  cases h with
  | called c peer hcall hclosed =>
      refine .old _ _ _ (hmsg.imp id fun hpc => ?_)
      simp only at hpc
      split at hpc
      · contradiction
      · exact hpc
  | sent c id attempt hcall hrx hroom =>
      rcases inFlight_append hmsg with hold | rfl
      · exact .old _ _ _ hold
      · exact .client c _ _ id attempt hcall rfl
  | invalidated c ref s' hcall href howner hsend =>
      rcases poolSend_cases hsend with rfl | rfl
      · exact .old _ _ _ hmsg
      · rcases inFlight_append hmsg with hold | rfl
        · exact .old _ _ _ hold
        · exact .invalidation c _ ref href List.mem_cons_self
  | moved p event a a' effect s' ha hmove hemit =>
      have hpc := (emit_pool hemit).2
      rcases emit_queue hemit with hqueue | ⟨sent, rfl, hqueue⟩
      all_goals rw [InFlight, hqueue, hpc] at hmsg
      · exact .old _ _ _ hmsg
      · rcases inFlight_append hmsg with hold | rfl
        · exact .old _ _ _ hold
        · exact .actor p event _ a a' msg ha hmove
  | poolCheck hpc =>
      refine .old _ _ _ (hmsg.imp id fun hnew => ?_)
      simp only at hnew
      split at hnew <;> contradiction
  | poolRecv head rest hpc hqueue =>
      refine .old _ _ _ (.inl ?_)
      rw [hqueue]
      rcases hmsg with hmem | hnew
      · exact List.mem_cons_of_mem _ hmem
      · cases hnew
        exact List.mem_cons_self
  | poolHandle handled hpc =>
      refine .old _ _ _ (.inl ?_)
      rcases hmsg with hmem | hnew
      · rwa [handle_queue] at hmem
      · rcases s.handle_poolPc handled with hcheck | ⟨req, _, hfirst⟩
        · rw [hcheck] at hnew
          contradiction
        · rw [hfirst] at hnew
          contradiction
  | poolSendFirst p req hpc =>
      refine .old _ _ _ (.inl ?_)
      unfold sendFirst at hmsg
      split at hmsg
      · split at hmsg
        · simpa [InFlight] using hmsg
        · simpa [InFlight, deliver] using hmsg
      · simpa [InFlight, hpc] using hmsg
  | poolFinish hpc hall =>
      rw [InFlight, foldl_answer_frame _ _ _ queue fun s tx => s.answer_queue tx _,
        foldl_answer_frame _ _ _ poolPc fun s tx => s.answer_poolPc tx _] at hmsg
      simp at hmsg
  | notifiedWaiters hnotifying =>
      refine .old _ _ _ (hmsg.imp id fun hnew => ?_)
      simp only at hnew
      split at hnew
      · contradiction
      · exact hnew
  | poolSubscribe | poolShutdown | poolJoin | poolTeardown =>
      rcases hmsg with hmem | hnew
      · exact .old _ _ _ (.inl hmem)
      · contradiction
  | _ => exact .old _ _ _ hmsg

end IrohTransport.Pool.State
