import IrohTransport.Pool.Replies

/-!
# One request per call

A {lit}`get_or_connect` call sends its next request only after the reply to the last
one, so the protocol carries at most one request of a call at any time: in the pool's
queue, in the hands of the pool actor, in a mailbox or in the hands of a connection
actor.

Main results:

- Theorem {lit}`ConnActor.step_carries`: a move of a connection actor gives up exactly
  the requests it answers, and takes none.
- Theorem {lit}`requestInv_of_reachable`: at most one request of a call is under way,
  and none of a call that does not wait.
- Theorem {lit}`refInv_of_reachable`: every reference was handed out to the call that
  owns it.
-/

namespace IrohTransport.Pool

/-! ## Connection actors -/

/-- The request a connection actor works on. -/
def Pc.inHand : Pc → List Nat
  | .onRequest tx | .sendClosed tx | .replyClosed tx => [tx]
  | _ => []

/-- The calls an effect answers, or whose reply channel it drops. -/
def Effect.answers {Id : Type} : Effect Id → List Nat
  | .reply tx _ | .lease tx => [tx]
  | .dropMailbox txs => txs
  | _ => []

namespace ConnActor

variable {Id : Type}

/-- The calls whose requests the actor has in its mailbox or in its hands. -/
def carries (self : ConnActor Id) : List Nat :=
  self.mailbox.map RequestMsg.tx ++ self.pc.inHand

/-- A move of the actor gives up the requests it answers, and takes none. -/
theorem step_carries {env : Env} {a a' : ConnActor Id} {event : ConnEvent}
    {effect : Effect Id} (h : a.step env event = some (a', effect)) (c : Nat) :
    a'.carries.count c + effect.answers.count c ≤ a.carries.count c := by
  cases step_moves h with
  | pollRequest notified req rest hpc hmail =>
      simp [carries, hpc, hmail, Pc.inHand, Effect.answers, List.count_cons]
  | _ => simp_all [carries, goto, exit, Pc.inHand, Effect.answers]

/-- A reference is handed out to a call that waits. -/
theorem step_lease_gone {env : Env} {a a' : ConnActor Id} {event : ConnEvent} {tx : Nat}
    (h : a.step env event = some (a', .lease tx)) : env.gone tx = false := by
  have hmoves := step_moves h
  generalize heff : Effect.lease tx = effect at hmoves
  cases hmoves with
  | serveLease tx' hpc hopen hcount hgone =>
      cases heff
      exact hgone
  | exit => simp [exit] at heff
  | _ => cases heff

end ConnActor

/-! ## The protocol -/

/-- The request the pool actor works on. -/
def PoolPc.inHand {Id : Type} : PoolPc Id → List Nat
  | .handling (.request req) | .sendFirst _ req => [req.tx]
  | _ => []

/-- How many requests of a call may be under way: one while it waits for its reply,
and one that a call given up has left behind. -/
def Call.expected {Id : Type} : Call Id → Nat
  | .waiting _ _ .pending | .cancelled => 1
  | _ => 0

/-- A reference has been handed out to the call. -/
def Call.served {Id : Type} : Call Id → Bool
  | .waiting _ _ .ok | .returnedRef | .cancelled => true
  | _ => false

section Counting

variable {α β : Type} [DecidableEq β] {f : α → List β}

private theorem count_flatMap_set {l : List α} {i : Nat} {a : α} (h : l[i]? = some a) (b : α)
    (x : β) :
    ((l.set i b).flatMap f).count x + (f a).count x =
      (l.flatMap f).count x + (f b).count x := by
  induction l generalizing i with
  | nil => simp at h
  | cons head rest ih =>
      cases i with
      | zero =>
          simp only [List.getElem?_cons_zero, Option.some.injEq] at h
          subst h
          simp only [List.set_cons_zero, List.flatMap_cons, List.count_append]
          omega
      | succ i =>
          have hrest := ih (by simpa using h)
          simp only [List.set_cons_succ, List.flatMap_cons, List.count_append]
          omega

private theorem count_flatMap_modify {l : List α} {i : Nat} {a : α} (h : l[i]? = some a)
    (g : α → α) (x : β) :
    ((l.modify i g).flatMap f).count x + (f a).count x =
      (l.flatMap f).count x + (f (g a)).count x := by
  have hset : l.modify i g = l.set i (g a) := by simp [List.modify_eq_set_getElem?, h]
  rw [hset]
  exact count_flatMap_set h (g a) x

omit [DecidableEq β] in
private theorem flatMap_modify_eq {l : List α} {i : Nat} {g : α → α}
    (h : ∀ a, f (g a) = f a) : (l.modify i g).flatMap f = l.flatMap f := by
  induction l generalizing i with
  | nil => simp
  | cons head rest ih =>
      cases i with
      | zero => simp [h]
      | succ i => simp [ih]

end Counting

namespace State

variable {Id : Type}

/-- The calls whose requests are under way. -/
def underway (s : State Id) : List Nat :=
  requestTxs s.queue ++ s.poolPc.inHand ++ s.conns.flatMap ConnActor.carries

/-- What becomes of the requests of a call in one step: none is added, one is answered
or dropped, or the call sends one that it was not waiting for before. -/
inductive Accounted (before after : Nat) (call call' : Call Id) : Prop
  | kept : after ≤ before → call.expected ≤ call'.expected →
      Accounted before after call call'
  | answered : after < before → Accounted before after call call'
  | sent : after ≤ before + 1 → call.expected = 0 → call'.expected = 1 →
      Accounted before after call call'

theorem requestTxs_append (queue queue' : List (Msg Id)) :
    requestTxs (queue ++ queue') = requestTxs queue ++ requestTxs queue' :=
  List.filterMap_append

/-- Actors send no requests. -/
theorem requestTxs_sent {env : Env} {a a' : ConnActor Id} {event : ConnEvent}
    {msg : Msg Id} (h : a.step env event = some (a', .send msg)) : requestTxs [msg] = [] := by
  have hmoves := ConnActor.step_moves h
  generalize heff : Effect.send msg = effect at hmoves
  cases hmoves with
  | reportFailure | onClosed | sendClosed | sendIdle | onIdleTimeout =>
      cases heff
      rfl
  | exit => simp [ConnActor.exit] at heff
  | _ => cases heff

theorem emit_calls {s s' : State Id} {p : Nat} {a : ConnActor Id} {effect : Effect Id}
    (h : s.emit p a effect = some s') {c : Nat} (hc : c ∉ effect.answers) :
    s'.calls c = s.calls c := by
  cases effect with
  | quiet =>
      cases h
      rfl
  | send msg => rcases poolSend_cases h with rfl | rfl <;> rfl
  | reply tx error =>
      cases h
      exact s.answer_calls_of_ne _ (by simpa [Effect.answers] using hc)
  | lease tx =>
      cases h
      exact s.answer_calls_of_ne _ (by simpa [Effect.answers] using hc)
  | dropMailbox txs =>
      cases h
      rcases s.foldl_dropped_calls txs c with hsame | ⟨hmem, _⟩
      · exact hsame
      · exact (hc hmem).elim

/-- A move of a connection actor accounts for the requests of every call. -/
private theorem moved_accounted {s s' : State Id} {p : Nat} {event : ConnEvent}
    {a a' : ConnActor Id} {effect : Effect Id} (ha : s.conns[p]? = some a)
    (hmove : a.step (s.env p) event = some (a', effect))
    (hemit : (s.setConn p a').emit p a effect = some s') (c : Nat) :
    Accounted (s.underway.count c) (s'.underway.count c) (s.calls c) (s'.calls c) := by
  have hcarried := ConnActor.step_carries hmove c
  have hset := count_flatMap_set (f := ConnActor.carries) ha a' c
  have hqueue : requestTxs s'.queue = requestTxs s.queue := by
    rcases emit_queue hemit with hsame | ⟨msg, rfl, happend⟩
    · rw [hsame]
      rfl
    · rw [happend, requestTxs_append, requestTxs_sent hmove]
      simp [setConn]
  have hcount : s'.underway.count c + effect.answers.count c ≤ s.underway.count c := by
    simp only [underway, hqueue, (emit_pool hemit).2, emit_conns hemit, setConn,
      List.count_append]
    omega
  by_cases hc : c ∈ effect.answers
  · have hpos := List.count_pos_iff.mpr hc
    exact .answered (by omega)
  · have hcall : s'.calls c = s.calls c := emit_calls hemit hc
    exact .kept (by omega) (by rw [hcall])

/-- A delivered request is one more under the requests of the actors. -/
private theorem count_deliver {s : State Id} {p : Nat} {a : ConnActor Id}
    (ha : s.conns[p]? = some a) (req : RequestMsg Id) (c : Nat) :
    ((s.deliver p req).conns.flatMap ConnActor.carries).count c =
      (s.conns.flatMap ConnActor.carries).count c + [req.tx].count c := by
  have hset := count_flatMap_modify (f := ConnActor.carries) ha
    (fun a => { a with mailbox := a.mailbox ++ [req] }) c
  simp only [ConnActor.carries, List.map_append, List.map_singleton, List.count_append] at hset
  simp only [deliver]
  omega

variable [DecidableEq Id]

/-- The pool actor's handler accounts for the requests of every call. -/
private theorem handled_accounted {s : State Id} {msg : Msg Id}
    (hpc : s.poolPc = .handling msg) (c : Nat) :
    Accounted (s.underway.count c) ((s.handle msg).underway.count c) (s.calls c)
      ((s.handle msg).calls c) := by
  cases msg with
  | idle | shutdown =>
      refine .kept ?_ (Nat.le_refl _)
      simp [underway, handle, hpc, PoolPc.inHand]
  | request req =>
      simp only [handle]
      split <;> rename_i hres
      · rcases forwarded_slot (congrArg Prod.snd hres) with ⟨slot, _, rfl, hsend⟩
        have hopen : s.trySend slot.tx ≠ .closed := by simp [hsend]
        rcases trySend_ne_closed hopen with ⟨a, ha, _⟩
        have hdeliver := count_deliver ha req c
        refine .kept ?_ (Nat.le_refl _)
        simp only [underway, hpc, PoolPc.inHand, List.count_append, List.count_nil]
        simp only [deliver] at hdeliver ⊢
        omega
      · by_cases hc : c = req.tx
        · refine .answered ?_
          simp [underway, hpc, PoolPc.inHand, hc]
        · refine .kept ?_ (by rw [s.answer_calls_of_ne _ hc])
          simp [underway, hpc, PoolPc.inHand, List.count_cons]
      · refine .kept ?_ (Nat.le_refl _)
        simp [underway, hpc, PoolPc.inHand, ConnActor.carries, ConnActor.spawn, Pc.inHand]

private theorem first_accounted {s : State Id} {p : Nat} {req : RequestMsg Id}
    (hpc : s.poolPc = .sendFirst p req) (c : Nat) :
    Accounted (s.underway.count c) ((s.sendFirst p req).underway.count c) (s.calls c)
      ((s.sendFirst p req).calls c) := by
  unfold sendFirst
  split <;> rename_i ha
  · split
    · by_cases hc : c = req.tx
      · refine .answered ?_
        simp [underway, hpc, PoolPc.inHand, hc]
      · refine .kept ?_ (by rw [s.answer_calls_of_ne _ hc])
        simp [underway, hpc, PoolPc.inHand, List.count_cons]
    · have hdeliver := count_deliver ha req c
      refine .kept ?_ (Nat.le_refl _)
      simp only [underway, hpc, PoolPc.inHand, List.count_append, List.count_nil]
      simp only [deliver] at hdeliver ⊢
      omega
  · exact .kept (Nat.le_refl _) (Nat.le_refl _)

omit [DecidableEq Id] in
/-- A client that moves no request changes only its own call. -/
private theorem client_accounted {s : State Id} {d : Nat} {call : Call Id} {n n' : Nat}
    (hn : n' ≤ n) (hexpected : (s.calls d).expected ≤ call.expected) (c : Nat) :
    Accounted n n' (s.calls c) (Function.update s.calls d call c) := by
  refine .kept hn ?_
  by_cases hc : c = d
  · subst hc
    simpa using hexpected
  · simp [Function.update_of_ne hc]

/-- Every step accounts for the requests of every call. -/
theorem step_accounted {s s' : State Id} {action : Action Id} (h : Step s action s') (c : Nat) :
    Accounted (s.underway.count c) (s'.underway.count c) (s.calls c) (s'.calls c) := by
  cases h with
  | callClosed d id hcall | sendClosed d id attempt hcall | gotRef d id attempt hcall
  | retried d id attempt hcall | gotErr d id attempt error hcall | gotDropped d id attempt hcall =>
      exact client_accounted (Nat.le_refl _) (by simp [hcall, Call.expected]) c
  | cancelledSend d id attempt hcall =>
      exact client_accounted (Nat.le_refl _) (by simp [hcall, Call.expected]) c
  | cancelledWait d id attempt reply hcall =>
      refine client_accounted (Nat.le_refl _) ?_ c
      cases reply <;> simp [hcall, Call.expected]
  | called d id hcall =>
      refine client_accounted ?_ (by simp [hcall, Call.expected]) c
      by_cases hpc : s.poolPc = .notStarted
      · simp [underway, hpc, PoolPc.inHand]
      · simp [underway, hpc]
  | sent d id attempt hcall =>
      by_cases hc : c = d
      · subst hc
        refine .sent ?_ (by simp [hcall, Call.expected]) (by simp [Call.expected])
        simp only [underway, requestTxs_append, List.count_append]
        simp [requestTxs]
        omega
      · refine .kept ?_ (by simp [Function.update_of_ne hc])
        have hne : d ≠ c := fun heq => hc heq.symm
        simp [underway, requestTxs, hne]
  | droppedRef d ref =>
      refine .kept ?_ (Nat.le_refl _)
      have hcarries := flatMap_modify_eq (l := s.conns) (i := ref.actor)
        (f := ConnActor.carries) (g := fun a => { a with counter := a.counter.fetchSub })
        fun _ => rfl
      simp only [underway, hcarries, Nat.le_refl]
  | notifiedOne p a ha =>
      refine .kept ?_ (Nat.le_refl _)
      have hset := count_flatMap_set (f := ConnActor.carries) ha
        { a with counter := a.counter.notifyOne } c
      simp only [underway, setConn, List.count_append]
      simp only [ConnActor.carries] at hset ⊢
      omega
  | remoteClosed p a ha =>
      refine .kept ?_ (Nat.le_refl _)
      have hset := count_flatMap_set (f := ConnActor.carries) ha
        { a with connection := some ⟨some .remote⟩ } c
      simp only [underway, setConn, List.count_append]
      simp only [ConnActor.carries] at hset ⊢
      omega
  | invalidated d ref s' _ _ _ hsend =>
      rcases poolSend_cases hsend with rfl | rfl
      · exact .kept (Nat.le_refl _) (Nat.le_refl _)
      · refine .kept ?_ (Nat.le_refl _)
        simp [underway, requestTxs]
  | moved p event a a' effect s' ha hmove hemit => exact moved_accounted ha hmove hemit c
  | poolHandle msg hpc => exact handled_accounted hpc c
  | poolSendFirst p req hpc => exact first_accounted hpc c
  | poolFinish hpc hall =>
      have hframe : ∀ (t : State Id) (txs : List Nat),
          (txs.foldl (fun s tx => s.answer tx .dropped) t).underway = t.underway := by
        intro t txs
        exact foldl_answer_frame t _ txs underway fun s tx => by simp [underway]
      rw [hframe]
      rcases ({ s with poolPc := .stopped, queue := [] } : State Id).foldl_dropped_calls
          (requestTxs s.queue) c with hsame | ⟨hmem, _⟩
      · refine .kept ?_ (by rw [hsame])
        simp only [underway, List.count_append, PoolPc.inHand, requestTxs, List.filterMap_nil,
          List.count_nil]
        omega
      · refine .answered ?_
        have hpos := List.count_pos_iff.mpr hmem
        simp only [underway, List.count_append, PoolPc.inHand, List.count_nil]
        simp only [requestTxs, List.filterMap_nil, List.count_nil] at hpos ⊢
        omega
  | poolRecv msg rest hpc hqueue =>
      refine .kept ?_ (Nat.le_refl _)
      cases msg with
      | request req =>
          simp only [underway, hqueue, hpc, PoolPc.inHand, List.count_append, List.count_nil]
          simp [requestTxs, List.count_cons]
      | idle | shutdown => simp [underway, hqueue, hpc, PoolPc.inHand, requestTxs]
  | poolCheck hpc =>
      refine .kept ?_ (Nat.le_refl _)
      cases hclosed : s.closed <;> simp [underway, hpc, PoolPc.inHand]
  | poolSubscribe hpc | poolShutdown hpc | poolJoin hpc | poolTeardown hpc =>
      refine .kept ?_ (Nat.le_refl _)
      simp [underway, hpc, PoolPc.inHand]
  | closed => exact .kept (Nat.le_refl _) (Nat.le_refl _)
  | notifiedWaiters =>
      refine .kept ?_ (Nat.le_refl _)
      have hwake : (s.conns.map wake).flatMap ConnActor.carries =
          s.conns.flatMap ConnActor.carries := by
        rw [List.flatMap_map]
        congr 1
        funext a
        cases hpc : a.pc <;> simp [wake, hpc, ConnActor.carries, ConnActor.goto, Pc.inHand]
      simp only [underway, hwake]
      cases hpc : s.poolPc <;> simp [PoolPc.inHand]

/-- At most one request of a call is under way, and none of a call that does not wait. -/
def RequestInv (s : State Id) : Prop :=
  ∀ c, s.underway.count c ≤ (s.calls c).expected

omit [DecidableEq Id] in
theorem requestInv_initial (options : PoolOptions) : RequestInv (initial options : State Id) := by
  intro c
  simp [underway, initial, requestTxs, PoolPc.inHand]

omit [DecidableEq Id] in
theorem Call.expected_le_one (call : Call Id) : call.expected ≤ 1 := by
  cases call with
  | waiting id attempt reply => cases reply <;> simp [Call.expected]
  | _ => simp [Call.expected]

theorem RequestInv.step {s s' : State Id} {action : Action Id} (hinv : s.RequestInv)
    (h : Step s action s') : s'.RequestInv := by
  intro c
  have hcount := hinv c
  have hone := Call.expected_le_one (s.calls c)
  cases step_accounted h c with
  | kept hle hexpected => omega
  | answered hlt => omega
  | sent hle hzero hsent => omega

omit [DecidableEq Id] in
/-- A request in the hands of an actor is under way. -/
theorem mem_underway_of_carries {s : State Id} {p c : Nat} {a : ConnActor Id}
    (ha : s.conns[p]? = some a) (hc : c ∈ a.carries) : c ∈ s.underway := by
  have hmem : c ∈ s.conns.flatMap ConnActor.carries :=
    List.mem_flatMap.mpr ⟨a, List.mem_of_getElem? ha, hc⟩
  simp [underway, hmem]

omit [DecidableEq Id] in
/-- A call that is about to send has no request under way. -/
theorem RequestInv.not_mem {s : State Id} (hinv : s.RequestInv) {c : Nat}
    (hcall : (s.calls c).expected = 0) : c ∉ s.underway := by
  have hcount := hinv c
  rw [← List.count_eq_zero]
  omega

/-! ## References -/

/-- Every reference was handed out to the call that owns it. -/
def RefInv (s : State Id) : Prop :=
  ∀ ref ∈ s.refs, (s.calls ref.owner).served = true

theorem CallChange.served {s : State Id} {c : Nat} {action : Action Id} {call : Call Id}
    (h : CallChange s c action call) (hserved : (s.calls c).served = true) :
    call.served = true := by
  cases h with
  | same => exact hserved
  | gotRef | cancelled => rfl
  | callClosed _ hcall | called _ hcall | sendClosed _ _ hcall | sent _ _ hcall
  | retried _ _ hcall | gotErr _ _ _ hcall | gotDropped _ _ hcall | answered _ _ _ _ hcall =>
      rw [hcall] at hserved
      contradiction

theorem RefInv.step {s s' : State Id} {action : Action Id} (hinv : s.RefInv)
    (hrequests : s.RequestInv) (h : Step s action s') : s'.RefInv := by
  intro ref href
  rcases step_refs h href with hold | ⟨p, event, a, a', tx, rfl, ha, hmove, rfl⟩
  · exact (step_call h ref.owner).served (hinv ref hold)
  · -- the call whose request the actor serves still waits, so the answer reaches it
    have hgone := ConnActor.step_lease_gone hmove
    have hmem : tx ∈ a.carries := by
      have hcarried := ConnActor.step_carries hmove tx
      rw [← List.count_pos_iff]
      simp only [Effect.answers, List.count_singleton_self] at hcarried
      omega
    have hunder : 0 < s.underway.count tx :=
      List.count_pos_iff.mpr (mem_underway_of_carries ha hmem)
    have hcount := hrequests tx
    cases h with
    | moved _ _ b b' effect _ hb hmove' hemit =>
        rw [ha, Option.some.injEq] at hb
        subst hb
        rw [hmove, Option.some.injEq, Prod.mk.injEq] at hmove'
        rcases hmove' with ⟨rfl, rfl⟩
        cases hemit
        cases hcall : s.calls tx with
        | waiting id attempt reply =>
            cases reply with
            | pending => simp [answer_calls_self, setConn, hcall, Call.served]
            | _ =>
                rw [hcall] at hcount
                simp only [Call.expected] at hcount
                omega
        | _ => simp [env, hcall, Call.gone] at hgone

end State

open State

/-- At most one request of a call is under way in every reachable state. -/
theorem requestInv_of_reachable {Id : Type} [DecidableEq Id] {options : PoolOptions}
    {s : State Id} (hs : (protocol options).Reachable s) : s.RequestInv :=
  hs.invariant (requestInv_initial options)
    fun _ _ _ _ hinv _ hstep => hinv.step (step_sound hstep)

/-- Every reference was handed out to its owner in every reachable state. -/
theorem refInv_of_reachable {Id : Type} [DecidableEq Id] {options : PoolOptions}
    {s : State Id} (hs : (protocol options).Reachable s) : s.RefInv := by
  apply hs.invariant
  · intro ref href
    simp [protocol, initial] at href
  · intro s s' action hreach hinv _ hstep
    exact hinv.step (requestInv_of_reachable hreach) (step_sound hstep)

end IrohTransport.Pool
