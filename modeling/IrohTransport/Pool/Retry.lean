import IrohTransport.Pool.Leases
import IrohTransport.Pool.Requests
import IrohTransport.Pool.Slots

/-!
# A failed generation is not retried

Before an actor answers a request with an error it has put a shutdown message of its
generation into the pool's queue, and {lit}`invalidate` does nothing else.  The queue
is first-in-first-out, so a request sent afterwards is behind that message: by the time
the pool actor comes to it, the slot of the failed generation is gone.

Main results:

- Theorem {lit}`State.step_pipeline`: what one step does to the messages the pool actor
  has still to handle.
- Theorem {lit}`State.Fenced.step`: a generation with a shutdown message ahead of some
  requests, or without a slot, stays so.
- Theorem {lit}`failed_generation_is_never_retried`: a request sent after a generation
  has failed never reaches its actor, and a message of one generation touches no slot of
  another.
-/

namespace IrohTransport.Pool

/-- The message the pool actor works on. -/
def PoolPc.current {Id : Type} : PoolPc Id → List (Msg Id)
  | .handling msg => [msg]
  | _ => []

namespace State

variable {Id : Type}

/-! ## The messages still to be handled -/

/-- The messages the pool actor has still to handle, in their order. -/
def pipeline (s : State Id) : List (Msg Id) :=
  s.poolPc.current ++ s.queue

variable [DecidableEq Id]

/-- Everything one step can do to the messages still to be handled. -/
inductive PipelineChange (s : State Id) : Action Id → List (Msg Id) → Prop
  | same (action : Action Id) : PipelineChange s action s.pipeline
  | appended (action : Action Id) (msg : Msg Id) :
      PipelineChange s action (s.pipeline ++ [msg])
  | handled (msg : Msg Id) : s.poolPc = .handling msg →
      PipelineChange s (.pool .handle) s.queue
  | finished : s.poolPc = .draining → PipelineChange s (.pool .finish) []

omit [DecidableEq Id] in
private theorem poolSend_change {s t s' : State Id} (action : Action Id) {msg : Msg Id}
    (hpipe : t.pipeline = s.pipeline) (h : t.poolSend msg = some s') :
    PipelineChange s action s'.pipeline := by
  rcases poolSend_cases h with rfl | rfl
  · rw [hpipe]
    exact .same _
  · have happend : ({ t with queue := t.queue ++ [msg] } : State Id).pipeline =
        s.pipeline ++ [msg] := by
      rw [← hpipe]
      simp [pipeline]
    rw [happend]
    exact .appended _ msg

/-- What one step does to the messages the pool actor has still to handle. -/
theorem step_pipeline {s s' : State Id} {action : Action Id} (h : Step s action s') :
    PipelineChange s action s'.pipeline := by
  have hsame : ∀ t : State Id, t.poolPc.current = s.poolPc.current → t.queue = s.queue →
      PipelineChange s action t.pipeline := by
    intro t hpc hqueue
    have hpipe : t.pipeline = s.pipeline := by simp only [pipeline, hpc, hqueue]
    rw [hpipe]
    exact .same _
  cases h with
  | called c id =>
      refine hsame _ ?_ rfl
      by_cases hpc : s.poolPc = .notStarted
      · simp [hpc, PoolPc.current]
      · simp [hpc]
  | sent c id attempt =>
      have happend := PipelineChange.appended (s := s) (.send c) (.request ⟨id, c⟩)
      simpa [pipeline] using happend
  | invalidated c ref s' _ _ _ hsend => exact poolSend_change _ (by rfl) hsend
  | moved p event a a' effect s' ha hmove hemit =>
      rcases emit_pool hemit with ⟨-, hpc⟩
      rcases emit_queue hemit with hqueue | ⟨msg, rfl, hqueue⟩
      · exact hsame s' (by rw [hpc]; rfl) hqueue
      · exact poolSend_change _ (by rfl) hemit
  | poolRecv msg rest hpc hqueue =>
      have hpipe : ({ s with poolPc := .handling msg, queue := rest } : State Id).pipeline =
          s.pipeline := by simp [pipeline, PoolPc.current, hpc, hqueue]
      rw [hpipe]
      exact .same _
  | poolHandle msg hpc =>
      have hpipe : (s.handle msg).pipeline = s.queue := by
        rcases s.handle_poolPc msg with hcheck | ⟨req, _, hfirst⟩
        · simp [pipeline, hcheck, PoolPc.current, handle_queue]
        · simp [pipeline, hfirst, PoolPc.current, handle_queue]
      rw [hpipe]
      exact .handled msg hpc
  | poolSendFirst p req hpc =>
      unfold sendFirst
      split
      · split
        · exact hsame _ (by simp [hpc, PoolPc.current]) (by simp)
        · exact hsame _ (by simp [hpc, PoolPc.current]) rfl
      · exact hsame _ rfl rfl
  | poolFinish hpc =>
      have hpipe := foldl_answer_frame { s with poolPc := .stopped, queue := [] } .dropped
        (requestTxs s.queue) pipeline fun t tx => by simp [pipeline]
      rw [hpipe]
      exact .finished hpc
  | poolCheck hpc =>
      refine hsame _ ?_ rfl
      cases hclosed : s.closed <;> simp [hpc, PoolPc.current]
  | notifiedWaiters =>
      refine hsame _ ?_ rfl
      cases hpc : s.poolPc <;> simp [PoolPc.current]
  | poolSubscribe hpc | poolShutdown hpc | poolJoin hpc | poolTeardown hpc =>
      exact hsame _ (by simp [hpc, PoolPc.current]) rfl
  | _ => exact hsame _ rfl rfl

/-! ## A generation on its way out -/

/-- No slot leads to the mailbox of the actor {lit}`p`. -/
def Slotless (s : State Id) (p : Nat) : Prop :=
  ∀ id slot, s.pool.connections.lookup id = some slot → slot.tx ≠ p

/-- The actor {lit}`p` has no slot, or the pool actor will handle a shutdown message of
its generation, with only messages ahead of it that are {lit}`harmless`. -/
inductive Fenced (s : State Id) (p : Nat) (harmless : Msg Id → Prop) : Prop
  | gone : s.Slotless p → Fenced s p harmless
  | ahead (a : ConnActor Id) (before after : List (Msg Id)) : s.conns[p]? = some a →
      s.pipeline = before ++ a.shutdownMsg :: after → (∀ msg ∈ before, harmless msg) →
      Fenced s p harmless

/-- The pool actor has no slots once it has left its loop. -/
def Emptied (s : State Id) : Prop :=
  s.poolPc = .draining ∨ s.poolPc = .stopped → s.pool.connections = ∅

/-- A slot is opened for a fresh mailbox only. -/
theorem Slotless.step {s s' : State Id} {action : Action Id} {p : Nat}
    (hslotless : s.Slotless p) (hp : p < s.conns.length) (h : Step s action s') :
    s'.Slotless p := by
  intro id slot hslot
  have hchange := step_slot h id
  rw [hslot] at hchange
  generalize hfound : some slot = found at hchange
  cases hchange with
  | same => exact hslotless id slot hfound.symm
  | opened =>
      cases hfound
      exact (Nat.ne_of_lt hp).symm
  | stale | evicted | shutdown | firstFailed | teardown => cases hfound

/-- Once the pool actor has handled the shutdown message of a generation, no slot leads
to its mailbox. -/
theorem slotless_of_shutdown {s s' : State Id} {p : Nat} {a : ConnActor Id}
    (hslots : s.SlotInv) (ha : s.conns[p]? = some a)
    (hpc : s.poolPc = .handling a.shutdownMsg) (h : Step s (.pool .handle) s') :
    s'.Slotless p := by
  intro id slot hslot htx
  cases h with
  | poolHandle msg hpc' =>
      obtain rfl : a.shutdownMsg = msg := by
        rw [hpc, PoolPc.handling.injEq] at hpc'
        exact hpc'
      rw [handle_pool] at hslot
      have hremoved := s.pool.lookup_removeConnectionIfMatch a.nodeId a.generation id
      rcases hremoved with hsame | ⟨_, hnone, _⟩
      · have hold : s.pool.connections.lookup id = some slot := hsame.symm.trans hslot
        rcases hslots.slots id slot hold with ⟨b, hb, hnode, hgen⟩
        rw [htx, ha, Option.some.injEq] at hb
        subst hb hnode
        have hmatch : s.pool.matchesGeneration a.nodeId a.generation = true :=
          PoolActor.matchesGeneration_iff.mpr ⟨slot, hold, hgen.symm⟩
        simp [PoolActor.removeConnectionIfMatch, ConnActor.shutdownMsg, hmatch] at hslot
      · have hnone' := hnone.symm.trans hslot
        contradiction

omit [DecidableEq Id] in
theorem emptied_initial (options : PoolOptions) : Emptied (initial options : State Id) := by
  rintro (hpc | hpc) <;> cases hpc

/-- The pool actor leaves its loop by the teardown only, and handles nothing after it. -/
theorem Emptied.step {s s' : State Id} {action : Action Id} (hinv : s.Emptied)
    (h : Step s action s') : s'.Emptied := by
  intro hpc'
  by_cases htear : action = .pool .teardown
  · subst htear
    cases h
    rfl
  have hold : s.poolPc = .draining ∨ s.poolPc = .stopped := by
    have hchange := step_poolPc h
    generalize s'.poolPc = pc at hchange hpc'
    cases hchange with
    | same => exact hpc'
    | finished hpc => exact .inl hpc
    | toreDown => exact (htear rfl).elim
    | checked => cases hclosed : s.closed <;> simp [hclosed] at hpc'
    | started | subscribed | shutdown | received | joined | handled | spawned | sentFirst
    | woken => simp at hpc'
  have hpool := step_pool h
  generalize s'.pool = pool at hpool ⊢
  cases hpool with
  | same => exact hinv hold
  | teardown => rfl
  | request _ hpc | idle _ _ hpc | shutdown _ _ hpc | firstFailed _ _ _ hpc =>
      rw [hpc] at hold
      simp at hold

theorem Emptied.slotless {s : State Id} (hinv : s.Emptied)
    (hpc : s.poolPc = .draining ∨ s.poolPc = .stopped) (p : Nat) : s.Slotless p := by
  intro id slot hslot
  rw [hinv hpc] at hslot
  simp at hslot

/-- Every step leaves a fenced generation fenced: it has no slot, the messages ahead of
its shutdown message only get fewer, and the shutdown message takes the slot away. -/
theorem Fenced.step {s s' : State Id} {action : Action Id} {p : Nat}
    {harmless : Msg Id → Prop} (hfenced : s.Fenced p harmless) (hslots : s.SlotInv)
    (hemptied : s.Emptied) (hp : p < s.conns.length) (h : Step s action s') :
    s'.Fenced p harmless := by
  cases hfenced with
  | gone hslotless => exact .gone (hslotless.step hp h)
  | ahead a before after ha hpipe hharmless =>
      rcases step_identity h ha with ⟨a', ha', hnode, hgen⟩
      have hmsg : a'.shutdownMsg = a.shutdownMsg := by
        simp only [ConnActor.shutdownMsg, hnode, hgen]
      have hchange := step_pipeline h
      generalize hpipe' : s'.pipeline = pipeline' at hchange
      cases hchange with
      | same =>
          rw [hpipe, ← hmsg] at hpipe'
          exact .ahead a' before after ha' hpipe' hharmless
      | appended _ msg =>
          refine .ahead a' before (after ++ [msg]) ha' ?_ hharmless
          rw [hpipe', hpipe, hmsg]
          simp
      | finished hpc => exact .gone ((hemptied.slotless (.inl hpc) p).step hp h)
      | handled msg hpc =>
          simp only [pipeline, hpc, PoolPc.current, List.singleton_append] at hpipe
          cases before with
          | nil =>
              rw [List.nil_append, List.cons.injEq] at hpipe
              exact .gone (slotless_of_shutdown hslots ha (hpipe.1 ▸ hpc) h)
          | cons first before =>
              rw [List.cons_append, List.cons.injEq] at hpipe
              refine .ahead a' before after ha' ?_ fun msg hmem =>
                hharmless msg (List.mem_cons_of_mem _ hmem)
              rw [hpipe', hpipe.2, hmsg]

/-- A shutdown message of its generation fences an actor as soon as it is sent: it goes
to the end of the queue, or the queue is closed and there are no slots any more. -/
theorem fenced_of_poolSend {s s' : State Id} {p : Nat} {a : ConnActor Id}
    (hclosed : s.rxClosed = true → s.Slotless p) (ha : s.conns[p]? = some a)
    (h : s.poolSend a.shutdownMsg = some s') : s'.Fenced p fun _ => True := by
  unfold poolSend at h
  split at h <;> rename_i hrx
  · cases h
    exact .gone (hclosed hrx)
  · split at h
    · cases h
      refine .ahead a s.pipeline [] ha ?_ fun _ _ => trivial
      simp [pipeline]
    · contradiction

end State

/-! ## Actors that have failed -/

namespace ConnActor

variable {Id : Type}

/-- The actor has told the pool actor that it is of no use any more, and answers its
requests with an error. -/
def reported (self : ConnActor Id) : Bool :=
  match self.pc with
  | .connecting | .reportFailure => false
  | .replyClosed _ => true
  | _ => self.connection.isNone

/-- An actor answers with an error only after its report. -/
theorem reported_of_reply {env : Env} {a a' : ConnActor Id} {event : ConnEvent} {tx : Nat}
    {error : PoolError} (h : a.step env event = some (a', .reply tx error)) :
    a.reported = true := by
  have hmoves := step_moves h
  generalize heff : Effect.reply tx error = effect at hmoves
  cases hmoves with
  | serveError tx' hpc hnone => simp [reported, hpc, hnone]
  | replyClosed tx' hpc => simp [reported, hpc]
  | exit => simp [exit] at heff
  | _ => cases heff

/-- The report is a shutdown message of the actor's generation. -/
theorem step_reported {env : Env} {a a' : ConnActor Id} {event : ConnEvent}
    {effect : Effect Id} (h : a.step env event = some (a', effect))
    (hreported : a'.reported = true) :
    a.reported = true ∨ effect = .send a.shutdownMsg := by
  cases step_moves h with
  | reportFailure | sendClosed => exact .inr rfl
  | exit hpc =>
      refine .inl ?_
      simpa [reported, exit, hpc] using hreported
  | _ hpc => simp_all [reported, goto]

end ConnActor

namespace State

variable {Id : Type} [DecidableEq Id]

/-- Every actor that has reported is fenced. -/
structure ReportInv (s : State Id) : Prop where
  emptied : s.Emptied
  fenced : ∀ (p : Nat) (a : ConnActor Id), s.conns[p]? = some a → a.reported = true →
    s.Fenced p fun _ => True

theorem ReportInv.step {s s' : State Id} {action : Action Id} (hinv : s.ReportInv)
    (hslots : s.SlotInv) (h : Step s action s') : s'.ReportInv := by
  refine ⟨hinv.emptied.step h, fun p a' ha' hreported => ?_⟩
  rcases step_conn h ha' with ⟨a, ha, hchange⟩ | hspawn
  · have hp := (List.getElem?_eq_some_iff.mp ha).1
    have hkept : a.reported = true → s'.Fenced p fun _ => True := fun hold =>
      (hinv.fenced p a ha hold).step hslots hinv.emptied hp h
    cases hchange with
    | same | dropped | notified | forwarded | first => exact hkept hreported
    | remoteClosed hopen =>
        apply hkept
        cases hpc : a.pc <;> simp_all [ConnActor.reported]
    | woken notified hpc =>
        apply hkept
        simpa [ConnActor.reported, ConnActor.goto, hpc] using hreported
    | moved event _ effect hmove =>
        rcases ConnActor.step_reported hmove hreported with hold | rfl
        · exact hkept hold
        · cases h with
          | moved _ _ b b' effect _ hb hmove' hemit =>
              rw [ha, Option.some.injEq] at hb
              subst hb
              rw [hmove, Option.some.injEq, Prod.mk.injEq] at hmove'
              rcases hmove' with ⟨rfl, rfl⟩
              have hidentity := ConnActor.step_identity hmove
              have hmsg : a.shutdownMsg = a'.shutdownMsg := by
                simp only [ConnActor.shutdownMsg, hidentity.1, hidentity.2]
              rw [hmsg] at hemit
              refine fenced_of_poolSend (s := s.setConn p a') (fun hrx => ?_)
                (List.getElem?_set_self hp) hemit
              exact hinv.emptied.slotless (hslots.drained hrx) p
  · cases hspawn with
    | spawned => simp [ConnActor.reported, ConnActor.spawn] at hreported

/-! ## Requests sent after the failure -/

/-- The step in which the generation fails for a client: its actor answers a request
with an error, or the holder of a reference invalidates it. -/
inductive Fails (s : State Id) (generation : Nat) : Action Id → Prop
  | answered (p : Nat) (event : ConnEvent) (a a' : ConnActor Id) (tx : Nat)
      (error : PoolError) : s.conns[p]? = some a → a.generation = generation →
      a.step (s.env p) event = some (a', .reply tx error) →
      Fails s generation (.conn p event)
  | invalidated (c : Nat) (ref : ConnectionRef Id) :
      s.refs.find? (fun ref => ref.owner = c) = some ref → ref.generation = generation →
      Fails s generation (.invalidate c)

/-- No request of the call {lit}`c` is with the actor {lit}`p` or gets there any more,
and no reference of the call leads there. -/
structure OutOfReach (s : State Id) (p c : Nat) : Prop where
  exists_actor : p < s.conns.length
  first : ∀ req, s.poolPc = .sendFirst p req → req.tx ≠ c
  carries : ∀ a, s.conns[p]? = some a → c ∉ a.carries
  fenced : s.Fenced p fun msg => ∀ req, msg = .request req → req.tx ≠ c
  refs : ∀ ref ∈ s.refs, ref.owner = c → ref.actor ≠ p

omit [DecidableEq Id] in
/-- The requests among the messages still to be handled are under way. -/
theorem mem_underway_of_pipeline {s : State Id} {req : RequestMsg Id}
    (h : .request req ∈ s.pipeline) : req.tx ∈ s.underway := by
  rcases List.mem_append.mp h with hcurrent | hqueue
  · cases hpc : s.poolPc with
    | handling msg =>
        rw [hpc, PoolPc.current, List.mem_singleton] at hcurrent
        simp [underway, hpc, ← hcurrent, PoolPc.inHand]
    | _ => simp [hpc, PoolPc.current] at hcurrent
  · have hmem : req.tx ∈ requestTxs s.queue :=
      List.mem_filterMap.mpr ⟨.request req, hqueue, rfl⟩
    simp [underway, hmem]

/-- A call that is about to send is out of the reach of every generation that is fenced
by then. -/
theorem outOfReach_of_sending {s : State Id} {p c : Nat} {id : Id} {attempt : Nat}
    (hrequests : s.RequestInv) (hrefs : s.RefInv) (hcall : s.calls c = .sending id attempt)
    (hp : p < s.conns.length) (hfenced : s.Fenced p fun _ => True) : s.OutOfReach p c := by
  have hnone : c ∉ s.underway := hrequests.not_mem (by simp [hcall, Call.expected])
  refine ⟨hp, fun req hpc htx => ?_, fun a ha hc => ?_, ?_, fun ref href howner => ?_⟩
  · exact hnone (by simp [underway, hpc, PoolPc.inHand, htx])
  · exact hnone (mem_underway_of_carries ha hc)
  · cases hfenced with
    | gone hslotless => exact .gone hslotless
    | ahead a before after ha hpipe =>
        refine .ahead a before after ha hpipe fun msg hmem req hmsg htx => ?_
        subst hmsg htx
        apply hnone
        apply mem_underway_of_pipeline
        rw [hpipe]
        exact List.mem_append_left _ hmem
  · have hserved := hrefs ref href
    rw [howner, hcall] at hserved
    contradiction

/-- What is delivered to the actor of a fenced generation was sent before the fence. -/
theorem OutOfReach.forwarded {s : State Id} {p c : Nat} (hout : s.OutOfReach p c)
    {req : RequestMsg Id} {slot : ConnectionSlot} (hpc : s.poolPc = .handling (.request req))
    (hlookup : s.pool.connections.lookup req.id = some slot) (htx : slot.tx = p) :
    req.tx ≠ c := by
  cases hout.fenced with
  | gone hslotless => exact (hslotless req.id slot hlookup htx).elim
  | ahead a before after ha hpipe hharmless =>
      simp only [pipeline, hpc, PoolPc.current, List.singleton_append] at hpipe
      cases before with
      | nil =>
          rw [List.nil_append, List.cons.injEq] at hpipe
          cases hpipe.1
      | cons first before =>
          rw [List.cons_append, List.cons.injEq] at hpipe
          exact hharmless first List.mem_cons_self req hpipe.1.symm

theorem OutOfReach.carries_step {s s' : State Id} {action : Action Id} {p c : Nat}
    (hout : s.OutOfReach p c) (h : Step s action s') (a' : ConnActor Id)
    (ha' : s'.conns[p]? = some a') : c ∉ a'.carries := by
  rcases step_conn h ha' with ⟨a, ha, hchange⟩ | hspawn
  · have hold := hout.carries a ha
    cases hchange with
    | same | dropped | notified | remoteClosed => exact hold
    | moved event _ effect hmove =>
        have hcarried := ConnActor.step_carries hmove c
        rw [← List.count_eq_zero] at hold ⊢
        omega
    | forwarded req slot hpc hlookup htx =>
        have hne := hout.forwarded hpc hlookup htx
        intro hmem
        apply hold
        simpa [ConnActor.carries, Ne.symm hne] using hmem
    | first req hpc =>
        have hne := hout.first req hpc
        intro hmem
        apply hold
        simpa [ConnActor.carries, Ne.symm hne] using hmem
    | woken notified hpc =>
        simpa [ConnActor.carries, ConnActor.goto, hpc, Pc.inHand] using hold
  · cases hspawn with
    | spawned req generation hp =>
        have hlt := hout.exists_actor
        omega

/-- Every step leaves the call out of reach. -/
theorem OutOfReach.step {s s' : State Id} {action : Action Id} {p c : Nat}
    (hout : s.OutOfReach p c) (hslots : s.SlotInv) (hemptied : s.Emptied)
    (h : Step s action s') : s'.OutOfReach p c := by
  have hp := hout.exists_actor
  refine ⟨Nat.lt_of_lt_of_le hp (step_conns_length h), fun req hpc => ?_, hout.carries_step h,
    hout.fenced.step hslots hemptied hp h, fun ref href howner => ?_⟩
  · rcases step_first h hpc with ⟨hold, _⟩ | ⟨_, _, hlen⟩
    · exact hout.first req hold
    · omega
  · rcases step_refs h href with hold | ⟨q, event, a, a', tx, _, ha, hmove, rfl⟩
    · exact hout.refs ref hold howner
    · -- an actor leases only to a call whose request it has in its hands
      rintro rfl
      simp only at howner
      subst howner
      apply hout.carries a ha
      have hcarried := ConnActor.step_carries hmove tx
      rw [← List.count_pos_iff]
      simp only [Effect.answers, List.count_singleton_self] at hcarried
      omega

end State

open State

variable {Id : Type} [DecidableEq Id]

/-- Every actor that has reported is fenced, in every reachable state. -/
theorem reportInv_of_reachable {options : PoolOptions} {s : State Id} (hs : (protocol options).Reachable s) : s.ReportInv := by
  apply hs.invariant
  · refine ⟨emptied_initial options, fun p a ha => ?_⟩
    simp [protocol, initial] at ha
  · intro s s' action hreach hinv _ hstep
    exact hinv.step (slotInv_of_reachable hreach) (step_sound hstep)

/-- A failed generation is fenced from the failing step on. -/
theorem fenced_of_fails {options : PoolOptions} {s s' : State Id} {action : Action Id}
    {generation : Nat} (hs : (protocol options).Reachable s) (hfails : s.Fails generation action)
    (hstep : s.step action = some s') :
    ∃ p a, s'.conns[p]? = some a ∧ a.generation = generation ∧ s'.Fenced p fun _ => True := by
  have hslots := slotInv_of_reachable hs
  have hreport := reportInv_of_reachable hs
  cases hfails with
  | answered p event a a' tx error ha hgen hmove =>
      have hp := (List.getElem?_eq_some_iff.mp ha).1
      have hfenced := hreport.fenced p a ha (ConnActor.reported_of_reply hmove)
      rcases step_identity (step_sound hstep) ha with ⟨b, hb, _, hgen'⟩
      exact ⟨p, b, hb, hgen'.trans hgen,
        hfenced.step hslots hreport.emptied hp (step_sound hstep)⟩
  | invalidated c ref hfind hgen =>
      have href : ref ∈ s.refs := List.mem_of_find?_eq_some hfind
      rcases (leaseInv_of_reachable hs).owned ref href with ⟨a, ha, hnode, hgen'⟩
      simp only [State.step, stepInvalidate, hfind] at hstep
      split at hstep
      · have hmsg : Msg.shutdown ref.id ref.generation = a.shutdownMsg := by
          rw [ConnActor.shutdownMsg, hnode, hgen']
        have hconns : s'.conns = s.conns := by
          rcases poolSend_cases hstep with rfl | rfl <;> rfl
        rw [hmsg] at hstep
        refine ⟨ref.actor, a, hconns ▸ ha, hgen'.trans hgen, ?_⟩
        refine fenced_of_poolSend (s := { s with invalidated := ref.actor :: s.invalidated })
          (fun hrx => ?_) ha hstep
        exact hreport.emptied.slotless (hslots.drained hrx) ref.actor
      · contradiction

/-- From the failing step on until the call sends, and from there to the end of the run:
the call stays out of the reach of the failed generation. -/
private theorem outOfReach_of_fails {options : PoolOptions} {s s₁ s₂ s₃ s' : State Id}
    {action : Action Id} {generation c : Nat} (hs : (protocol options).Reachable s)
    (hfails : s.Fails generation action) (hstep : s.step action = some s₁)
    (hbefore : (protocol options).Reaches s₁ s₂) (hsend : s₂.step (.send c) = some s₃)
    (hafter : (protocol options).Reaches s₃ s') :
    ∃ p a, s'.conns[p]? = some a ∧ a.generation = generation ∧ s'.OutOfReach p c := by
  have hs₁ : (protocol options).Reachable s₁ := .step hs trivial hstep
  have hs₂ := hbefore.reachable hs₁
  have hnext : (protocol options).step s₂ (.send c) = some s₃ := hsend
  have hs₃ : (protocol options).Reachable s₃ := .step hs₂ trivial hnext
  rcases fenced_of_fails hs hfails hstep with ⟨p, a, ha, hgen, hfenced⟩
  let named := fun s : State Id => ∃ a, s.conns[p]? = some a ∧ a.generation = generation
  have hnamed : ∀ s s' : State Id, ∀ action, named s → s.step action = some s' → named s' := by
    rintro s s' action ⟨b, hb, hgen⟩ hnext
    rcases step_identity (step_sound hnext) hb with ⟨b', hb', _, hgen'⟩
    exact ⟨b', hb', hgen'.trans hgen⟩
  have hfence₂ : named s₂ ∧ s₂.Fenced p fun _ => True := by
    refine hbefore.invariant (I := fun s => named s ∧ s.Fenced p fun _ => True) hs₁
      ⟨⟨a, ha, hgen⟩, hfenced⟩ ?_
    rintro s s' action hreach ⟨⟨b, hb, hgen⟩, hfenced⟩ hnext
    exact ⟨hnamed s s' action ⟨b, hb, hgen⟩ hnext,
      hfenced.step (slotInv_of_reachable hreach) (reportInv_of_reachable hreach).emptied
        (List.getElem?_eq_some_iff.mp hb).1 (step_sound hnext)⟩
  have hout₂ : s₂.OutOfReach p c := by
    rcases hfence₂ with ⟨⟨b, hb, _⟩, hfenced⟩
    have hp := (List.getElem?_eq_some_iff.mp hb).1
    have hrequests := requestInv_of_reachable hs₂
    have hrefs := refInv_of_reachable hs₂
    cases step_sound hsend with
    | sendClosed _ id attempt hcall | sent _ id attempt hcall =>
        exact outOfReach_of_sending hrequests hrefs hcall hp hfenced
  have hstepOut : ∀ s s' action, (protocol options).Reachable s →
      (named s ∧ s.OutOfReach p c) → s.step action = some s' →
      named s' ∧ s'.OutOfReach p c := by
    rintro s s' action hreach ⟨hname, hout⟩ hnext
    exact ⟨hnamed s s' action hname hnext,
      hout.step (slotInv_of_reachable hreach) (reportInv_of_reachable hreach).emptied
        (step_sound hnext)⟩
  have hout₃ := hstepOut s₂ s₃ _ hs₂ ⟨hfence₂.1, hout₂⟩ hsend
  rcases hafter.invariant (I := fun s => named s ∧ s.OutOfReach p c) hs₃ hout₃ hstepOut with
    ⟨⟨b, hb, hgen⟩, hout⟩
  exact ⟨p, b, hb, hgen, hout⟩

/-- A message of one generation leaves the slots of the others alone. -/
private theorem handle_other_generation {s s' : State Id} {id peer : Id} {generation : Nat}
    {slot : ConnectionSlot}
    (hpc : s.poolPc = .handling (.shutdown id generation) ∨
      s.poolPc = .handling (.idle id generation))
    (h : Step s (.pool .handle) s') (hslot : s.pool.connections.lookup peer = some slot)
    (hother : slot.generation ≠ generation) :
    s'.pool.connections.lookup peer = some slot ∧
      ∀ generation', (peer, generation') ∈ s'.pool.idle → (peer, generation') ∈ s.pool.idle := by
  constructor
  · have hchange := step_slot h peer
    generalize s'.pool.connections.lookup peer = found at hchange
    cases hchange with
    | same => exact hslot
    | opened _ hreq | stale _ hreq => rcases hpc with hpc | hpc <;> simp [hpc] at hreq
    | evicted _ hvictim => rcases hpc with hpc | hpc <;> simp [evicting, hpc] at hvictim
    | shutdown slot' hhandling hlookup =>
        rw [hslot, Option.some.injEq] at hlookup
        subst hlookup
        rcases hpc with hpc | hpc <;> rw [hpc] at hhandling <;> cases hhandling
        exact (hother rfl).elim
  · intro generation' hmem
    rcases step_idle h hmem with ⟨hold, _⟩ | ⟨_, hhandling, slot', hlookup, hgen⟩
    · exact hold
    · rw [hslot, Option.some.injEq] at hlookup
      subst hlookup
      rcases hpc with hpc | hpc <;> rw [hpc] at hhandling <;> cases hhandling
      exact (hother hgen).elim

/-- Once the actor of a generation has answered a request with an error, or a client has
invalidated it, no request sent afterwards is ever in that actor's mailbox or hands, and
no reference that its call gets is of that generation: neither the second attempt of
{lit}`get_or_connect`, which sends after it has received the error, nor the second
attempt of {lit}`open_stream`, which sends after it has invalidated.  And a shutdown or
idle message of one generation neither removes nor marks idle a slot of another. -/
theorem failed_generation_is_never_retried (options : PoolOptions) :
    (∀ (s s₁ s₂ s₃ s' : State Id) (action : Action Id) (generation c : Nat),
      (protocol options).Reachable s → s.Fails generation action →
      s.step action = some s₁ → (protocol options).Reaches s₁ s₂ →
      s₂.step (.send c) = some s₃ → (protocol options).Reaches s₃ s' →
      s'.conns.length < 2 ^ 64 - 1 →
      (∀ (p : Nat) (a : ConnActor Id), s'.conns[p]? = some a → a.generation = generation →
        c ∉ a.carries) ∧
      ∀ ref ∈ s'.refs, ref.owner = c → ref.generation ≠ generation) ∧
    ∀ (s s' : State Id) (id peer : Id) (generation : Nat) (slot : ConnectionSlot),
      s.poolPc = .handling (.shutdown id generation) ∨
        s.poolPc = .handling (.idle id generation) →
      s.step (.pool .handle) = some s' → s.pool.connections.lookup peer = some slot →
      slot.generation ≠ generation →
      s'.pool.connections.lookup peer = some slot ∧
        ∀ generation', (peer, generation') ∈ s'.pool.idle →
          (peer, generation') ∈ s.pool.idle := by
  constructor
  · intro s s₁ s₂ s₃ s' action generation c hs hfails hstep hbefore hsend hafter hfewer
    have hs₁ : (protocol options).Reachable s₁ := .step hs trivial hstep
    have hnext : (protocol options).step s₂ (.send c) = some s₃ := hsend
    have hs₃ : (protocol options).Reachable s₃ := .step (hbefore.reachable hs₁) trivial hnext
    have hs' := hafter.reachable hs₃
    have hslots := slotInv_of_reachable hs'
    have hlt : s'.conns.length < 2 ^ 64 := by omega
    rcases outOfReach_of_fails hs hfails hstep hbefore hsend hafter with ⟨p, a, ha, hgen, hout⟩
    constructor
    · intro q b hb hgen'
      obtain rfl := hslots.generation_inj hlt hb ha (hgen'.trans hgen.symm)
      exact hout.carries b hb
    · intro ref href howner hgen'
      rcases (leaseInv_of_reachable hs').owned ref href with ⟨b, hb, _, hgenb⟩
      have hactor := hslots.generation_inj hlt hb ha ((hgenb.trans hgen').trans hgen.symm)
      exact hout.refs ref href howner hactor
  · intro s s' id peer generation slot hpc hstep hslot hother
    exact handle_other_generation hpc (step_sound hstep) hslot hother

/-! ## Runs -/

/-- The connection is closed while its actor has the request of call 1 in its hands: the
actor sends its shutdown message and is about to answer. -/
def closedUnderRequest : List (Action Nat) :=
  firstLease ++ [.call 1 7, .send 1] ++ poolTurn ++
    [.conn 0 .resume, .conn 0 (.poll .request), .remoteClose 0, .conn 0 .resume,
      .conn 0 .resume]

/-- The pool actor handles the shutdown message and then the second request of call 1,
which opens the connection of generation 2. -/
def secondAttempt : List (Action Nat) :=
  poolTurn ++ poolTurn ++ [.pool .sendFirst, .conn 1 (.connect .ok), .conn 1 .resume,
    .conn 1 .resume, .conn 1 (.poll .request), .conn 1 .resume]

/-- Generation 1 answers call 1 with {lit}`Closed`, and the second attempt of the call gets
a reference of another generation. -/
theorem failed_generation_is_never_retried_closed :
    ∃ s s₁ s₂ s₃ s' : State Nat, (protocol ⟨1⟩).Reachable s ∧ s.Fails 1 (.conn 0 .resume) ∧
      s.step (.conn 0 .resume) = some s₁ ∧ (protocol ⟨1⟩).Reaches s₁ s₂ ∧
      s₂.step (.send 1) = some s₃ ∧ (protocol ⟨1⟩).Reaches s₃ s' ∧
      ∃ ref ∈ s'.refs, ref.owner = 1 ∧ ref.generation ≠ 1 := by
  have hrun : ((protocol ⟨1⟩).run (protocol ⟨1⟩).init closedUnderRequest).any (fun s =>
      ((s.conns[0]?).any fun a => a.pc = .replyClosed 1 && a.generation = 1) &&
      (s.step (.conn 0 .resume)).any fun s₁ => ((protocol ⟨1⟩).run s₁ [.recv 1]).any fun s₂ =>
        (s₂.step (.send 1)).any fun s₃ => ((protocol ⟨1⟩).run s₃ secondAttempt).any fun s' =>
          s'.conns.length < 2 ^ 64 - 1 && s'.refs.any fun ref => ref.owner = 1) = true := by
    decide
  simp only [Option.any_eq_true, Bool.and_eq_true, decide_eq_true_eq, List.any_eq_true] at hrun
  rcases hrun with ⟨s, hs, ⟨a, ha, hpc, hgen⟩, s₁, hreply, s₂, hrecv, s₃, hsend, s', hserved,
    hfewer, ref, href, howner⟩
  have hreach : (protocol ⟨1⟩).Reachable s := System.reachableWhen_of_runWhen hs
  have hfails : s.Fails 1 (.conn 0 .resume) :=
    .answered 0 .resume a (a.goto .exiting) 1 .closed ha hgen
      (by simp [ConnActor.step, ConnActor.resume, hpc])
  have hbefore := System.reaches_of_run hrecv
  have hafter := System.reaches_of_run hserved
  have hother := ((failed_generation_is_never_retried ⟨1⟩).1 s s₁ s₂ s₃ s' _ 1 1 hreach hfails
    hreply hbefore hsend hafter hfewer).2 ref href howner
  exact ⟨s, s₁, s₂, s₃, s', hreach, hfails, hreply, hbefore, hsend, hafter, ref, href, howner,
    hother⟩

end IrohTransport.Pool
