import IrohTransport.Transport.Accept
import IrohTransport.Transport.Spawn

/-!
# Shutting a transport down

A spawned transport is a publisher, a tonic server, the accept loops of its router and a
driver that waits for the first two.  Its guard tells both to stop, waits for the driver and
then takes the router down.  All of them go on by themselves meanwhile: the publisher may be
in the middle of a round, the server has streams to finish, and peers keep connecting.

Main results:

- Theorem {lit}`Running.Inv.step`: what holds of the parts of a transport between each other.
- Theorem {lit}`Running.work_step`: every step towards the end lowers what is left to do.
- Theorem {lit}`shutdown_is_graceful`: what has ended when {lit}`shutdown` returns, and that it
  returns.
-/

namespace IrohTransport.Transport

open Swarm (Clock Keys PublisherTask Publication RunAction)

variable {SecretKey PublicKey Signature Digest Id : Type} {maxLength : Nat}

/-- Where {lit}`serve_with_incoming_shutdown` stands. -/
inductive ServerPc where
  | serving
  /-- It takes no more streams and waits for those that it serves. -/
  | draining
  | ended
deriving DecidableEq

/-- Where the guard stands. -/
inductive GuardPc where
  | held
  /-- {lit}`shutdown` has sent the signal and waits for the driver. -/
  | joining
  /-- It waits for the router. -/
  | stopping
  | returned
  | dropped
deriving DecidableEq

/-- The parts of a transport, with the number of streams that the server has finished and
whether it has failed. -/
structure Running (SecretKey Id : Type) where
  publisher : Option (PublisherTask SecretKey)
  server : Option ServerPc
  incoming : Incoming Id
  finished : Nat
  failed : Bool
  driverDone : Bool
  guard : GuardPc
  routerDown : Bool

/-- A step of one part. -/
inductive RunningAction (Id : Type) where
  | publisher (action : RunAction)
  | incoming (action : AcceptAction Id)
  /-- A stream that the server has taken is done with. -/
  | finish
  /-- The server hears of the shutdown. -/
  | stop
  /-- The server fails. -/
  | fail
  /-- The task of the server ends. -/
  | endServer
  /-- The driver has joined all tasks. -/
  | joinNext
  /-- A call of {lit}`shutdown`. -/
  | shutdown
  | joined
  | routerShutdown
  /-- The guard or the call of {lit}`shutdown` is dropped. -/
  | drop
  /-- The router that was dropped with it stops. -/
  | dropRouter

namespace Running

/-- The channel of the shutdown has been used or is gone. -/
def signalled (s : Running SecretKey Id) : Bool := s.guard != .held

/-- All tasks of the driver have ended. -/
def tasksEnded (s : Running SecretKey Id) : Bool :=
  s.publisher.all (fun task => task.pc = .stopped) && s.server.all fun pc => pc = .ended

/-- Tell the publisher. -/
def signal (s : Running SecretKey Id) : Running SecretKey Id :=
  { s with publisher := s.publisher.map fun task => { task with signalled := true } }

/-- The server takes streams until it hears of the shutdown and drops the incoming stream
afterwards; connections are up to the router. -/
def permits (t : Spawned SecretKey maxLength) (s : Running SecretKey Id) : AcceptAction Id → Bool
  | .connect _ alpn => !s.routerDown && t.accepts alpn
  | .accept _ | .reserve _ | .send _ | .close _ => !s.routerDown
  | .recv => s.server == some .serving
  | .dropReceiver => s.server == some .draining

variable [LinearOrder Digest] (keys : Keys SecretKey PublicKey Signature)
  (sha256 : List UInt8 → Digest) (t : Spawned SecretKey maxLength)

/-- One step. -/
def step (s : Running SecretKey Id) : RunningAction Id → Option (Running SecretKey Id)
  | .publisher .signal => none
  | .publisher action =>
      t.publisher.bind fun publisher =>
        s.publisher.bind fun task =>
          (task.step keys sha256 publisher action).map fun task => { s with publisher := some task }
  | .incoming action =>
      if s.permits t action then
        (s.incoming.step t.incomingBufferCapacity action).map fun incoming =>
          { s with incoming := incoming }
      else none
  | .finish =>
      if s.finished < s.incoming.served.length then some { s with finished := s.finished + 1 }
      else none
  | .stop =>
      if s.server = some .serving && s.signalled then some { s with server := some .draining }
      else none
  | .fail =>
      if s.server = some .serving || s.server = some .draining then
        some { s with server := some .draining, failed := true }
      else none
  | .endServer =>
      if s.server = some .draining && s.incoming.channel.closed &&
          (s.failed || s.finished == s.incoming.served.length) then
        some { s with server := some .ended }
      else none
  | .joinNext =>
      if s.tasksEnded && !s.driverDone then some { s with driverDone := true } else none
  | .shutdown => if s.guard = .held then some { s.signal with guard := .joining } else none
  | .joined =>
      if s.guard = .joining && s.driverDone then some { s with guard := .stopping } else none
  | .routerShutdown =>
      if s.guard = .stopping then some { s with guard := .returned, routerDown := true } else none
  | .drop =>
      if s.guard = .held || s.guard = .joining || s.guard = .stopping then
        some { s.signal with guard := .dropped }
      else none
  | .dropRouter => if s.guard = .dropped then some { s with routerDown := true } else none

/-- A transport that has been spawned at a time.  Without services the incoming stream is
dropped at once. -/
def system (now : Clock) : System (Running SecretKey Id) (RunningAction Id) where
  init :=
    { publisher := t.publisher.map fun publisher => PublisherTask.start keys sha256 publisher now
      server := if t.tonicRouter.isSome then some .serving else none
      incoming :=
        { channel := { Channel.empty with closed := t.tonicRouter.isNone }
          loops := []
          served := []
          rejected := []
          dropped := [] }
      finished := 0
      failed := false
      driverDone := false
      guard := .held
      routerDown := false }
  step := step keys sha256 t

/-! ## What a step does -/

variable {keys sha256 t} {s s' : Running SecretKey Id} {now : Clock}

/-- What a step can do. -/
inductive Step (keys : Keys SecretKey PublicKey Signature) (sha256 : List UInt8 → Digest)
    (t : Spawned SecretKey maxLength) (s : Running SecretKey Id) :
    RunningAction Id → Running SecretKey Id → Prop
  | publisher (action : RunAction) (publisher : Swarm.DhtPublisher SecretKey)
      (task task' : PublisherTask SecretKey) : t.publisher = some publisher →
      s.publisher = some task → PublisherTask.Step keys sha256 publisher task action task' →
      task'.signalled = task.signalled →
      task.step keys sha256 publisher action = some task' →
      Step keys sha256 t s (.publisher action) { s with publisher := some task' }
  | incoming (action : AcceptAction Id) (incoming : Incoming Id) : s.permits t action = true →
      s.incoming.step t.incomingBufferCapacity action = some incoming →
      Step keys sha256 t s (.incoming action) { s with incoming := incoming }
  | finish : s.finished < s.incoming.served.length →
      Step keys sha256 t s .finish { s with finished := s.finished + 1 }
  | stop : s.server = some .serving → s.guard ≠ .held →
      Step keys sha256 t s .stop { s with server := some .draining }
  | fail : s.server = some .serving ∨ s.server = some .draining →
      Step keys sha256 t s .fail { s with server := some .draining, failed := true }
  | endServer : s.server = some .draining → s.incoming.channel.closed = true →
      s.failed = true ∨ s.finished = s.incoming.served.length →
      Step keys sha256 t s .endServer { s with server := some .ended }
  | joinNext : s.tasksEnded = true → s.driverDone = false →
      Step keys sha256 t s .joinNext { s with driverDone := true }
  | shutdown : s.guard = .held →
      Step keys sha256 t s .shutdown { s.signal with guard := .joining }
  | joined : s.guard = .joining → s.driverDone = true →
      Step keys sha256 t s .joined { s with guard := .stopping }
  | routerShutdown : s.guard = .stopping →
      Step keys sha256 t s .routerShutdown { s with guard := .returned, routerDown := true }
  | drop : s.guard = .held ∨ s.guard = .joining ∨ s.guard = .stopping →
      Step keys sha256 t s .drop { s.signal with guard := .dropped }
  | dropRouter : s.guard = .dropped →
      Step keys sha256 t s .dropRouter { s with routerDown := true }

/-- Only the signal of the guard signals a publisher. -/
theorem signalled_of_step {publisher : Swarm.DhtPublisher SecretKey}
    {task task' : PublisherTask SecretKey} {action : RunAction}
    (h : PublisherTask.Step keys sha256 publisher task action task') (hne : action ≠ .signal) :
    task'.signalled = task.signalled := by
  cases h with
  | signal => contradiction
  | _ => rfl

theorem step_sound {action : RunningAction Id} (h : s.step keys sha256 t action = some s') :
    Step keys sha256 t s action s' := by
  cases action with
  | publisher action =>
      have hmove (hne : action ≠ .signal) (h : (t.publisher.bind fun publisher =>
          s.publisher.bind fun task => (task.step keys sha256 publisher action).map fun task =>
            ({ s with publisher := some task } : Running SecretKey Id)) = some s') :
          Step keys sha256 t s (.publisher action) s' := by
        rcases Option.bind_eq_some_iff.mp h with ⟨publisher, hpublisher, h⟩
        rcases Option.bind_eq_some_iff.mp h with ⟨task, htask, h⟩
        rcases Option.map_eq_some_iff.mp h with ⟨task', hstep, rfl⟩
        have hsound := PublisherTask.step_sound hstep
        exact .publisher action publisher task task' hpublisher htask hsound
          (signalled_of_step hsound hne) hstep
      cases action with
      | signal => contradiction
      | advance _ | turn | tick | shutdown => exact hmove nofun h
  | incoming action =>
      simp only [step] at h
      split at h <;> rename_i hpermits
      · rcases Option.map_eq_some_iff.mp h with ⟨incoming, hincoming, rfl⟩
        exact .incoming action incoming hpermits hincoming
      · contradiction
  | finish =>
      simp only [step] at h
      split at h <;> rename_i hcond
      · exact Option.some.inj h ▸ .finish hcond
      · contradiction
  | stop =>
      simp only [step] at h
      split at h <;> rename_i hcond
      · simp only [Bool.and_eq_true, decide_eq_true_eq, signalled, bne_iff_ne] at hcond
        exact Option.some.inj h ▸ .stop hcond.1 hcond.2
      · contradiction
  | fail =>
      simp only [step] at h
      split at h <;> rename_i hcond
      · simp only [Bool.or_eq_true, decide_eq_true_eq] at hcond
        exact Option.some.inj h ▸ .fail hcond
      · contradiction
  | endServer =>
      simp only [step] at h
      split at h <;> rename_i hcond
      · simp only [Bool.and_eq_true, Bool.or_eq_true, decide_eq_true_eq, beq_iff_eq] at hcond
        exact Option.some.inj h ▸ .endServer hcond.1.1 hcond.1.2 hcond.2
      · contradiction
  | joinNext =>
      simp only [step] at h
      split at h <;> rename_i hcond
      · simp only [Bool.and_eq_true, Bool.not_eq_true'] at hcond
        exact Option.some.inj h ▸ .joinNext hcond.1 hcond.2
      · contradiction
  | shutdown =>
      simp only [step] at h
      split at h <;> rename_i hcond
      · exact Option.some.inj h ▸ .shutdown hcond
      · contradiction
  | joined =>
      simp only [step] at h
      split at h <;> rename_i hcond
      · simp only [Bool.and_eq_true, decide_eq_true_eq] at hcond
        exact Option.some.inj h ▸ .joined hcond.1 hcond.2
      · contradiction
  | routerShutdown =>
      simp only [step] at h
      split at h <;> rename_i hcond
      · exact Option.some.inj h ▸ .routerShutdown hcond
      · contradiction
  | drop =>
      simp only [step] at h
      split at h <;> rename_i hcond
      · simp only [Bool.or_eq_true, decide_eq_true_eq, or_assoc] at hcond
        exact Option.some.inj h ▸ .drop hcond
      · contradiction
  | dropRouter =>
      simp only [step] at h
      split at h <;> rename_i hcond
      · exact Option.some.inj h ▸ .dropRouter hcond
      · contradiction

/-! ## The parts of a transport -/

/-- The accept loops of a transport go through a run of their own. -/
theorem reachable_incoming (hs : (system keys sha256 t now).Reachable s) :
    (Incoming.system t.incomingBufferCapacity).Reachable s.incoming := by
  refine hs.invariant
    (I := fun s => (Incoming.system t.incomingBufferCapacity).Reachable s.incoming) ?_ ?_
  · cases hnone : t.tonicRouter.isNone with
    | false =>
        simp only [system, hnone]
        exact .init
    | true =>
        refine .step (a := .dropReceiver) .init trivial ?_
        simp [system, hnone, Incoming.system, Incoming.step, Channel.empty, Channel.dropReceiver]
  · intro s s' action _ ih _ hstep
    cases step_sound hstep with
    | incoming action incoming _ hincoming => exact .step ih trivial hincoming
    | _ => exact ih

/-- The publisher of a transport goes through a run of its own. -/
theorem reachable_publisher (hs : (system keys sha256 t now).Reachable s)
    {task : PublisherTask SecretKey} (htask : s.publisher = some task) :
    ∃ publisher, t.publisher = some publisher ∧
      (PublisherTask.system keys sha256 publisher now).Reachable task := by
  refine hs.invariant (I := fun s => ∀ task, s.publisher = some task →
    ∃ publisher, t.publisher = some publisher ∧
      (PublisherTask.system keys sha256 publisher now).Reachable task) ?_ ?_ task htask
  · intro task htask
    rcases Option.map_eq_some_iff.mp htask with ⟨publisher, hpublisher, rfl⟩
    exact ⟨publisher, hpublisher, .init⟩
  · intro s s' action _ ih _ hstep
    have hsignal : ∀ task, s.signal.publisher = some task →
        ∃ publisher, t.publisher = some publisher ∧
          (PublisherTask.system keys sha256 publisher now).Reachable task := by
      intro task htask
      rcases Option.map_eq_some_iff.mp htask with ⟨was, hwas, rfl⟩
      rcases ih was hwas with ⟨publisher, hpublisher, hreach⟩
      exact ⟨publisher, hpublisher, .step (a := .signal) hreach trivial rfl⟩
    cases step_sound hstep with
    | publisher action publisher task task' hpublisher htask _ _ hmove =>
        rintro _ hset
        obtain rfl := Option.some.inj hset
        rcases ih task htask with ⟨publisher', hpublisher', hreach⟩
        obtain rfl := Option.some.inj (hpublisher.symm.trans hpublisher')
        exact ⟨publisher, hpublisher, .step hreach trivial hmove⟩
    | shutdown | drop => exact hsignal
    | _ => exact ih

/-- Only the server takes streams, and only the drop of the receiver closes the channel. -/
theorem incoming_frame {capacity : Nat} {incoming incoming' : Incoming Id}
    {action : AcceptAction Id} (h : incoming.step capacity action = some incoming') :
    (action ≠ .recv → incoming'.served = incoming.served) ∧
      (action ≠ .dropReceiver → incoming'.channel.closed = incoming.channel.closed) ∧
      incoming.served.length ≤ incoming'.served.length ∧
      (action = .dropReceiver → incoming.channel.closed = false ∧
        incoming'.channel.closed = true) := by
  cases action with
  | connect remoteNodeId alpn =>
      obtain rfl := Option.some.inj h
      exact ⟨fun _ => rfl, fun _ => rfl, Nat.le_refl _, by simp⟩
  | accept p =>
      simp only [Incoming.step] at h
      split at h
      · split at h
        · obtain rfl := Option.some.inj h
          exact ⟨fun _ => rfl, fun _ => rfl, Nat.le_refl _, by simp⟩
        · contradiction
      · contradiction
  | reserve p =>
      simp only [Incoming.step] at h
      split at h
      · split at h
        · split at h <;> rename_i hreserve
          · rcases Channel.tryReserve_ok hreserve with ⟨rfl, -, -⟩
            obtain rfl := Option.some.inj h
            exact ⟨fun _ => rfl, fun _ => rfl, Nat.le_refl _, by simp⟩
          · obtain rfl := Option.some.inj h
            exact ⟨fun _ => rfl, fun _ => rfl, Nat.le_refl _, by simp⟩
          · obtain rfl := Option.some.inj h
            exact ⟨fun _ => rfl, fun _ => rfl, Nat.le_refl _, by simp⟩
        · contradiction
      · contradiction
  | send p =>
      simp only [Incoming.step] at h
      split at h
      · split at h
        · obtain rfl := Option.some.inj h
          exact ⟨fun _ => rfl, fun _ => Channel.closed_send _ _, Nat.le_refl _, by simp⟩
        · contradiction
      · contradiction
  | close p =>
      simp only [Incoming.step] at h
      split at h
      · split at h
        · obtain rfl := Option.some.inj h
          exact ⟨fun _ => rfl, fun _ => rfl, Nat.le_refl _, by simp⟩
        · contradiction
      · contradiction
  | recv =>
      simp only [Incoming.step] at h
      split at h
      · contradiction
      · rcases Option.map_eq_some_iff.mp h with ⟨⟨stream, channel⟩, htaken, rfl⟩
        have hchannel : channel.closed = incoming.channel.closed := by
          rw [(Channel.recv_eq_some htaken).2]
        exact ⟨fun hne => (hne rfl).elim, fun _ => hchannel, by simp, by simp⟩
  | dropReceiver =>
      simp only [Incoming.step] at h
      split at h <;> rename_i hopen
      · contradiction
      · obtain rfl := Option.some.inj h
        exact ⟨fun _ => rfl, fun hne => (hne rfl).elim, Nat.le_refl _,
          fun _ => ⟨Bool.eq_false_iff.mpr hopen, rfl⟩⟩

theorem server_of_permits_recv (h : s.permits t .recv = true) : s.server = some .serving :=
  beq_iff_eq.mp h

theorem server_of_permits_drop (h : s.permits t .dropReceiver = true) :
    s.server = some .draining :=
  beq_iff_eq.mp h

theorem tasksEnded_iff : s.tasksEnded = true ↔
    (∀ task, s.publisher = some task → task.pc = .stopped) ∧
      ∀ pc, s.server = some pc → pc = .ended := by
  simp only [tasksEnded, Bool.and_eq_true, Option.all_eq_true, decide_eq_true_eq]

/-- What holds of the parts of a transport between each other. -/
structure Inv (s : Running SecretKey Id) : Prop where
  signalled : ∀ task, s.publisher = some task → (task.signalled = true ↔ s.guard ≠ .held)
  serving : s.guard = .held → s.failed = false →
    s.server ≠ some .draining ∧ s.server ≠ some .ended
  unclosed : s.server = some .serving → s.incoming.channel.closed = false
  ended : s.server = some .ended → s.incoming.channel.closed = true ∧
    (s.failed = true ∨ s.finished = s.incoming.served.length)
  counted : s.finished ≤ s.incoming.served.length
  joined : s.driverDone = true → s.tasksEnded = true
  stopping : s.guard = .stopping ∨ s.guard = .returned → s.driverDone = true
  router : s.routerDown = true → s.guard = .returned ∨ s.guard = .dropped
  returned : s.guard = .returned → s.routerDown = true

/-- Telling the publisher changes nothing else. -/
theorem Inv.signal (h : Inv s) {guard : GuardPc} (hguard : guard = .joining ∨ guard = .dropped)
    (hup : s.routerDown = true → guard = .dropped) :
    Inv { s.signal with guard := guard } where
  signalled := by
    intro task htask
    rcases Option.map_eq_some_iff.mp htask with ⟨was, -, rfl⟩
    rcases hguard with rfl | rfl <;> simp
  serving := by
    rcases hguard with rfl | rfl <;> exact nofun
  unclosed := h.unclosed
  ended := h.ended
  counted := h.counted
  joined := by
    intro hdone
    rcases tasksEnded_iff.mp (h.joined hdone) with ⟨hpublisher, hserver⟩
    refine tasksEnded_iff.mpr ⟨?_, hserver⟩
    intro task htask
    rcases Option.map_eq_some_iff.mp htask with ⟨was, hwas, rfl⟩
    exact hpublisher was hwas
  stopping := by
    rcases hguard with rfl | rfl <;> simp
  router := fun hdown => .inr (hup hdown)
  returned := by
    rcases hguard with rfl | rfl <;> exact nofun

/-- Every step keeps the invariant. -/
theorem Inv.step (h : Inv s) {action : RunningAction Id}
    (hstep : Step keys sha256 t s action s') : Inv s' := by
  cases hstep with
  | publisher action publisher task task' hpublisher htask hsound hsame hmove =>
      refine { h with signalled := ?_, joined := ?_ }
      · intro _ hset
        obtain rfl := Option.some.inj hset
        rw [hsame]
        exact h.signalled task htask
      · intro hdone
        rcases tasksEnded_iff.mp (h.joined hdone) with ⟨hstopped, hserver⟩
        refine tasksEnded_iff.mpr ⟨?_, hserver⟩
        intro _ hset
        obtain rfl := Option.some.inj hset
        exact (PublisherTask.silent_of_stopped (hstopped task htask) hmove).1
  | incoming action incoming hpermits hincoming =>
      rcases incoming_frame hincoming with ⟨hserved, hclosed, hgrows, hdrop⟩
      refine { h with unclosed := ?_, ended := ?_, counted := h.counted.trans hgrows }
      · intro hserving
        have hne : action ≠ .dropReceiver := by
          rintro rfl
          exact nomatch (server_of_permits_drop hpermits).symm.trans hserving
        exact (hclosed hne).trans (h.unclosed hserving)
      · intro hended
        have hne : action ≠ .dropReceiver := by
          rintro rfl
          exact nomatch (server_of_permits_drop hpermits).symm.trans hended
        have hne' : action ≠ .recv := by
          rintro rfl
          exact nomatch (server_of_permits_recv hpermits).symm.trans hended
        rw [hclosed hne, hserved hne']
        exact h.ended hended
  | finish hroom =>
      refine { h with ended := ?_, counted := hroom }
      intro hended
      rcases h.ended hended with ⟨hclosed, hfailed | hfinished⟩
      · exact ⟨hclosed, .inl hfailed⟩
      · omega
  | stop hserving hguard =>
      refine
        { h with
          serving := fun hheld => (hguard hheld).elim
          unclosed := nofun
          ended := nofun
          joined := ?_ }
      intro hdone
      have hended := (tasksEnded_iff.mp (h.joined hdone)).2 _ hserving
      contradiction
  | fail hrunning =>
      refine
        { h with
          serving := nofun
          unclosed := nofun
          ended := nofun
          joined := ?_ }
      intro hdone
      rcases hrunning with hpc | hpc
      · have hended := (tasksEnded_iff.mp (h.joined hdone)).2 _ hpc
        contradiction
      · have hended := (tasksEnded_iff.mp (h.joined hdone)).2 _ hpc
        contradiction
  | endServer hdraining hclosed hdone =>
      refine
        { h with
          serving := ?_
          unclosed := nofun
          ended := fun _ => ⟨hclosed, hdone⟩
          joined := ?_ }
      · intro hheld hfailed
        exact ((h.serving hheld hfailed).1 hdraining).elim
      · intro hjoined
        have hended := (tasksEnded_iff.mp (h.joined hjoined)).2 _ hdraining
        contradiction
  | joinNext hended hrunning =>
      exact { h with joined := fun _ => hended, stopping := fun _ => rfl }
  | shutdown hheld =>
      refine h.signal (.inl rfl) fun hdown => ?_
      rcases h.router hdown with hguard | hguard
      · rw [hheld] at hguard
        contradiction
      · rw [hheld] at hguard
        contradiction
  | joined hjoining hdone =>
      refine
        { h with
          signalled := ?_
          serving := nofun
          stopping := fun _ => hdone
          router := ?_
          returned := nofun }
      · intro task htask
        simpa [hjoining] using h.signalled task htask
      · intro hdown
        simpa [hjoining] using h.router hdown
  | routerShutdown hstopping =>
      refine
        { h with
          signalled := ?_
          serving := nofun
          stopping := fun _ => h.stopping (.inl hstopping)
          router := fun _ => .inl rfl
          returned := fun _ => rfl }
      intro task htask
      simpa [hstopping] using h.signalled task htask
  | drop hguard => exact h.signal (.inr rfl) fun _ => rfl
  | dropRouter hdropped =>
      refine { h with router := fun _ => .inr hdropped, returned := fun _ => rfl }

theorem inv_of_reachable (hs : (system keys sha256 t now).Reachable s) : Inv s := by
  refine hs.invariant ?_ fun _ _ _ _ hinv _ hstep => hinv.step (step_sound hstep)
  constructor
  case signalled =>
    intro task htask
    rcases Option.map_eq_some_iff.mp htask with ⟨publisher, -, rfl⟩
    simp [system, PublisherTask.start]
  case serving => cases hrouter : t.tonicRouter <;> simp [system, hrouter]
  case unclosed => cases hrouter : t.tonicRouter <;> simp [system, hrouter]
  case ended => cases hrouter : t.tonicRouter <;> simp [system, hrouter]
  case counted => exact Nat.le_refl 0
  case joined =>
      intro hguard
      contradiction
  case stopping => rintro (hguard | hguard) <;> contradiction
  case router =>
      intro hguard
      contradiction
  case returned =>
      intro hguard
      contradiction

/-! ## What is left to do -/

end Running

/-- The steps that bring a transport closer to its end. -/
def RunningAction.closing : RunningAction Id → Bool
  | .publisher .turn | .publisher .shutdown | .incoming .dropReceiver | .finish | .stop
  | .endServer | .joinNext | .joined | .routerShutdown => true
  | _ => false

/-- A {lit}`select!` that could have taken the shutdown takes another tick or another stream. -/
def RunningAction.another : RunningAction Id → Bool
  | .publisher .tick | .incoming .recv => true
  | _ => false

/-- What a publisher has left to do if it takes no other tick. -/
def publisherWork : Swarm.RunPc → Nat
  | .publishing rest => rest.length + 3
  | .firstTick => 2
  | .waiting => 1
  | .stopped => 0

/-- What the server has left to do besides its streams. -/
def serverWork (closed : Bool) : ServerPc → Nat
  | .serving => 3
  | .draining => if closed then 1 else 2
  | .ended => 0

def guardWork : GuardPc → Nat
  | .held | .joining => 2
  | .stopping => 1
  | .returned | .dropped => 0

theorem serverWork_draining_lt (closed : Bool) : serverWork closed .draining < 3 := by
  cases closed <;> decide

namespace Running

/-- What a transport has left to do. -/
def work (s : Running SecretKey Id) : Nat :=
  (s.publisher.elim 0 fun task => publisherWork task.pc) +
    s.server.elim 0 (serverWork s.incoming.channel.closed) +
    (s.incoming.served.length - s.finished) + (if s.driverDone then 0 else 1) + guardWork s.guard

/-- The guard has nothing to wait for any more. -/
def Settled (s : Running SecretKey Id) : Prop :=
  s.guard = .returned ∨ s.guard = .dropped ∧ s.driverDone = true

section Work

variable [LinearOrder Digest] {keys : Keys SecretKey PublicKey Signature}
  {sha256 : List UInt8 → Digest} {t : Spawned SecretKey maxLength}
  {s s' : Running SecretKey Id} {now : Clock}

/-- A publisher that takes no tick has less left to do after a move of its own. -/
theorem publisherWork_step {publisher : Swarm.DhtPublisher SecretKey}
    {task task' : PublisherTask SecretKey} {action : RunAction}
    (h : PublisherTask.Step keys sha256 publisher task action task') :
    (action = .turn ∨ action = .shutdown → publisherWork task'.pc < publisherWork task.pc) ∧
      (action ≠ .tick → publisherWork task'.pc ≤ publisherWork task.pc) := by
  cases h with
  | advance | signal => simp
  | publish alpn shard rest hpc => simp [hpc, publisherWork]
  | create hpc hinterval => simp [hpc, publisherWork]
  | wait timer hpc hinterval => simp [hpc, publisherWork]
  | firstTick timer timer' hpc hinterval htick => simp [hpc, publisherWork]
  | tick => simp
  | shutdown hpc hsignalled => simp [hpc, publisherWork]

/-- A step towards the end lowers what is left to do, and no other step raises it, except by
another tick or another stream. -/
theorem work_step {action : RunningAction Id}
    (hstep : Step keys sha256 t s action s') :
    (action.closing = true → s'.work < s.work) ∧ (action.another = false → s'.work ≤ s.work) := by
  cases hstep with
  | publisher action publisher task task' hpublisher htask hsound hsame hmove =>
      rcases publisherWork_step hsound with ⟨hless, hle⟩
      simp only [work, htask, Option.elim_some]
      constructor
      · intro hclosing
        have hmoved : action = .turn ∨ action = .shutdown := by
          cases action <;> simp_all [RunningAction.closing]
        have hlt := hless hmoved
        omega
      · intro hother
        have hne : action ≠ .tick := by
          rintro rfl
          contradiction
        have hle := hle hne
        omega
  | incoming action incoming hpermits hincoming =>
      rcases incoming_frame hincoming with ⟨hserved, hclosed, hgrows, hdrop⟩
      by_cases haction : action = .dropReceiver
      · subst haction
        rcases hdrop rfl with ⟨hopen, hgone⟩
        simp only [work, hserved nofun, hopen, hgone, server_of_permits_drop hpermits,
          Option.elim_some, serverWork, if_true, Bool.false_eq_true, if_false]
        exact ⟨fun _ => by omega, fun _ => by omega⟩
      · refine ⟨fun hclosing => ?_, fun hother => ?_⟩
        · cases action <;> simp_all [RunningAction.closing]
        · have hne : action ≠ .recv := by
            rintro rfl
            contradiction
          simp only [work, hserved hne, hclosed haction, Nat.le_refl]
  | finish hroom =>
      simp only [work]
      exact ⟨fun _ => by omega, fun _ => by omega⟩
  | stop hserving hguard =>
      have hlt := serverWork_draining_lt s.incoming.channel.closed
      simp only [work, hserving, Option.elim_some]
      simp only [serverWork] at hlt ⊢
      exact ⟨fun _ => by omega, fun _ => by omega⟩
  | fail hrunning =>
      refine ⟨nofun, fun _ => ?_⟩
      have hlt := serverWork_draining_lt s.incoming.channel.closed
      rcases hrunning with hpc | hpc
      · simp only [work, hpc, Option.elim_some]
        simp only [serverWork] at hlt ⊢
        omega
      · simp only [work, hpc, Nat.le_refl]
  | endServer hdraining hclosed hdone =>
      simp only [work, hdraining, hclosed, Option.elim_some, serverWork, if_true]
      exact ⟨fun _ => by omega, fun _ => by omega⟩
  | joinNext hended hrunning =>
      simp only [work, hrunning, if_true, Bool.false_eq_true, if_false]
      exact ⟨fun _ => by omega, fun _ => by omega⟩
  | shutdown hheld =>
      refine ⟨nofun, fun _ => ?_⟩
      cases hpublisher : s.publisher <;> simp [work, signal, hpublisher, hheld, guardWork]
  | joined hjoining hdone =>
      simp only [work, hjoining, guardWork]
      exact ⟨fun _ => by omega, fun _ => by omega⟩
  | routerShutdown hstopping =>
      simp only [work, hstopping, guardWork]
      exact ⟨fun _ => by omega, fun _ => by omega⟩
  | drop hguard =>
      refine ⟨nofun, fun _ => ?_⟩
      cases hpublisher : s.publisher <;> simp [work, signal, hpublisher, guardWork]
  | dropRouter hdropped => exact ⟨nofun, fun _ => Nat.le_refl _⟩

/-- A run without another tick or another stream makes as many steps towards the end as there
is left to do, at most. -/
theorem work_run {l : List (RunningAction Id)} (hs : (system keys sha256 t now).Reachable s)
    (hother : ∀ action ∈ l, action.another = false)
    (hrun : (system keys sha256 t now).run s l = some s') :
    (l.filter RunningAction.closing).length + s'.work ≤ s.work := by
  induction l generalizing s with
  | nil =>
      obtain rfl := Option.some.inj hrun
      simp
  | cons action l ih =>
      simp only [System.runWhen, if_true] at hrun
      split at hrun <;> rename_i hstep
      · rename_i next
        have hrest := ih (.step hs trivial hstep)
          (fun a ha => hother a (List.mem_cons_of_mem _ ha)) hrun
        rcases work_step (step_sound hstep) with ⟨hless, hle⟩
        have hle := hle (hother action List.mem_cons_self)
        cases hclosing : action.closing with
        | true =>
            have hlt := hless hclosing
            rw [List.filter_cons_of_pos hclosing, List.length_cons]
            omega
        | false =>
            rw [List.filter_cons_of_neg (by simp [hclosing])]
            omega
      · contradiction

/-- As long as the guard has something to wait for, some step brings it closer. -/
theorem exists_closing (hs : (system keys sha256 t now).Reachable s) (hguard : s.guard ≠ .held)
    (hunsettled : ¬s.Settled) :
    ∃ action : RunningAction Id, action.closing = true ∧
      (s.step keys sha256 t action).isSome = true := by
  have hinv := inv_of_reachable hs
  by_cases hended : s.tasksEnded = true
  · cases hdone : s.driverDone with
    | false => exact ⟨.joinNext, rfl, by simp [step, hended, hdone]⟩
    | true =>
        cases hpc : s.guard with
        | held => exact (hguard hpc).elim
        | joining => exact ⟨.joined, rfl, by simp [step, hpc, hdone]⟩
        | stopping => exact ⟨.routerShutdown, rfl, by simp [step, hpc]⟩
        | returned => exact (hunsettled (.inl hpc)).elim
        | dropped => exact (hunsettled (.inr ⟨hpc, hdone⟩)).elim
  · rw [tasksEnded_iff, not_and_or] at hended
    rcases hended with hpublisher | hserver
    · simp only [not_forall] at hpublisher
      rcases hpublisher with ⟨task, htask, hpc⟩
      rcases reachable_publisher hs htask with ⟨publisher, hpublisher, hreach⟩
      have hmove := PublisherTask.exists_move (PublisherTask.runInv_of_reachable hreach) hpc
      rcases hmove with hturn | ⟨hwaiting, -⟩
      · refine ⟨.publisher .turn, rfl, ?_⟩
        simpa [step, hpublisher, htask] using hturn
      · refine ⟨.publisher .shutdown, rfl, ?_⟩
        have hsignalled := (hinv.signalled task htask).mpr hguard
        simp [step, hpublisher, htask, PublisherTask.step, hwaiting, hsignalled]
    · simp only [not_forall] at hserver
      rcases hserver with ⟨pc, hserver, hpc⟩
      cases pc with
      | serving => exact ⟨.stop, rfl, by simp [step, hserver, signalled, hguard]⟩
      | draining =>
          cases hclosed : s.incoming.channel.closed with
          | false =>
              exact ⟨.incoming .dropReceiver, rfl,
                by simp [step, permits, hserver, Incoming.step, hclosed]⟩
          | true =>
              by_cases hroom : s.finished < s.incoming.served.length
              · exact ⟨.finish, rfl, by simp [step, hroom]⟩
              · have hall : s.finished = s.incoming.served.length :=
                  Nat.le_antisymm hinv.counted (Nat.le_of_not_lt hroom)
                exact ⟨.endServer, rfl, by simp [step, hserver, hclosed, hall]⟩
      | ended => exact (hpc rfl).elim

/-! ## Connections and their ends -/

/-- A connection keeps its ALPN, and a new one has that with which it was accepted. -/
theorem alpn_of_step {capacity : Nat} {incoming incoming' : Incoming Id}
    {action : AcceptAction Id} (h : incoming.step capacity action = some incoming')
    {loop : AcceptLoop Id} (hloop : loop ∈ incoming'.loops) :
    (∃ was ∈ incoming.loops, was.alpn = loop.alpn) ∨
      ∃ remoteNodeId, action = .connect remoteNodeId loop.alpn := by
  have hset : ∀ (p : Nat) (was : AcceptLoop Id) (pc : AcceptPc) (count : Nat),
      incoming.loops[p]? = some was →
      loop ∈ incoming.loops.set p { was with pc := pc, count := count } →
        ∃ was ∈ incoming.loops, was.alpn = loop.alpn := by
    intro p was pc count hwas hmem
    rcases List.mem_or_eq_of_mem_set hmem with hmem | rfl
    · exact ⟨loop, hmem, rfl⟩
    · exact ⟨was, List.mem_of_getElem? hwas, rfl⟩
  cases action with
  | connect remoteNodeId alpn =>
      obtain rfl := Option.some.inj h
      rcases List.mem_append.mp hloop with hmem | hnew
      · exact .inl ⟨loop, hmem, rfl⟩
      · obtain rfl := List.mem_singleton.mp hnew
        exact .inr ⟨remoteNodeId, rfl⟩
  | accept p =>
      simp only [Incoming.step] at h
      split at h <;> rename_i was hwas
      · split at h
        · obtain rfl := Option.some.inj h
          exact .inl (hset p was _ _ hwas hloop)
        · contradiction
      · contradiction
  | reserve p =>
      simp only [Incoming.step] at h
      split at h <;> rename_i was hwas
      · split at h
        · split at h
          · obtain rfl := Option.some.inj h
            exact .inl (hset p was _ _ hwas hloop)
          · obtain rfl := Option.some.inj h
            exact .inl (hset p was _ _ hwas hloop)
          · obtain rfl := Option.some.inj h
            exact .inl (hset p was _ _ hwas hloop)
        · contradiction
      · contradiction
  | send p =>
      simp only [Incoming.step] at h
      split at h <;> rename_i was hwas
      · split at h
        · obtain rfl := Option.some.inj h
          exact .inl (hset p was _ _ hwas hloop)
        · contradiction
      · contradiction
  | close p =>
      simp only [Incoming.step] at h
      split at h <;> rename_i was hwas
      · split at h
        · obtain rfl := Option.some.inj h
          exact .inl (hset p was _ _ hwas hloop)
        · contradiction
      · contradiction
  | recv =>
      simp only [Incoming.step] at h
      split at h
      · contradiction
      · rcases Option.map_eq_some_iff.mp h with ⟨taken, -, rfl⟩
        exact .inl ⟨loop, hloop, rfl⟩
  | dropReceiver =>
      simp only [Incoming.step] at h
      split at h
      · contradiction
      · obtain rfl := Option.some.inj h
        exact .inl ⟨loop, hloop, rfl⟩

/-- Every connection is one for a service that was added. -/
theorem accepts_of_reachable (hs : (system keys sha256 t now).Reachable s) :
    ∀ loop ∈ s.incoming.loops, t.accepts loop.alpn = true := by
  refine hs.invariant (I := fun s => ∀ loop ∈ s.incoming.loops, t.accepts loop.alpn = true) ?_ ?_
  · exact fun loop hloop => (List.not_mem_nil hloop).elim
  · intro s s' action _ ih _ hstep
    cases step_sound hstep with
    | incoming action incoming hpermits hincoming =>
        intro loop hloop
        rcases alpn_of_step hincoming hloop with ⟨was, hwas, hsame⟩ | ⟨remoteNodeId, rfl⟩
        · exact hsame ▸ ih was hwas
        · simp only [permits, Bool.and_eq_true] at hpermits
          exact hpermits.2
    | _ => exact ih

/-- What has been published. -/
def published (s : Running SecretKey Id) : List (Publication SecretKey) :=
  s.publisher.elim [] PublisherTask.published

/-- When {lit}`shutdown` has returned, nothing is published, accepted or served any more. -/
theorem frozen_of_returned (hs : (system keys sha256 t now).Reachable s)
    (hreturned : s.guard = .returned) (hrun : (system keys sha256 t now).Reaches s s') :
    s'.guard = .returned ∧ s'.incoming = s.incoming ∧ s'.published = s.published := by
  refine hrun.invariant (I := fun s' => s'.guard = .returned ∧ s'.incoming = s.incoming ∧
    s'.published = s.published) hs ⟨hreturned, rfl, rfl⟩ ?_
  rintro s₁ s₂ action hs₁ ⟨hguard, hincoming, hpublished⟩ hstep
  have hinv := inv_of_reachable hs₁
  rcases tasksEnded_iff.mp (hinv.joined (hinv.stopping (.inr hguard))) with ⟨hstopped, hended⟩
  cases step_sound hstep with
  | publisher action publisher task task' hpublisher htask hsound hsame hmove =>
      refine ⟨hguard, hincoming, ?_⟩
      have hsilent := (PublisherTask.silent_of_stopped (hstopped task htask) hmove).2
      rw [← hpublished]
      simp [published, htask, hsilent]
  | incoming action incoming hpermits hmove =>
      have hdown := hinv.returned hguard
      cases action with
      | recv => exact nomatch hended _ (server_of_permits_recv hpermits)
      | dropReceiver => exact nomatch hended _ (server_of_permits_drop hpermits)
      | connect | accept | reserve | send | close => simp [permits, hdown] at hpermits
  | finish | stop | fail | endServer | joinNext | dropRouter =>
      exact ⟨hguard, hincoming, hpublished⟩
  | shutdown hheld => exact nomatch hguard.symm.trans hheld
  | joined hjoining => exact nomatch hguard.symm.trans hjoining
  | routerShutdown hstopping => exact nomatch hguard.symm.trans hstopping
  | drop hother =>
      rw [hguard] at hother
      simp at hother

end Work

end Running

open Running

/-- However the publisher, the server, the connections and the guard interleave.  When
{lit}`shutdown` has returned, the publisher has stopped, the server has ended with every stream
that it took finished unless it failed, and the router is down; nothing is published or served
from then on.  The router stays up until then, unless the guard is dropped; and while the guard
is held the publisher goes on and so does a server that does not fail.  Every stream that is
served came over a connection for a service that was added.  Once the guard is called or
dropped, a bounded number of steps brings it to its end, as long as no other tick and no other
stream is taken instead, and until then some such step can be made. -/
theorem shutdown_is_graceful [LinearOrder Digest] (keys : Keys SecretKey PublicKey Signature)
    (sha256 : List UInt8 → Digest) (t : Spawned SecretKey maxLength) (now : Clock)
    {s : Running SecretKey Id} (hs : (system keys sha256 t now).Reachable s) :
    (s.guard = .returned → s.tasksEnded = true ∧ s.routerDown = true ∧
      (s.failed = false → s.server = some .ended → s.finished = s.incoming.served.length) ∧
      ∀ s', (system keys sha256 t now).Reaches s s' →
        s'.incoming = s.incoming ∧ s'.published = s.published) ∧
    (s.routerDown = true → s.guard = .returned ∨ s.guard = .dropped) ∧
    (s.guard = .held → (∀ task, s.publisher = some task → task.pc ≠ .stopped) ∧
      (s.failed = false → ∀ pc, s.server = some pc → pc = .serving)) ∧
    (∀ stream ∈ s.incoming.served, t.accepts stream.context.alpn = true) ∧
    (s.guard ≠ .held →
      (∀ l s', (∀ action ∈ l, action.another = false) →
        (system keys sha256 t now).run s l = some s' →
          (l.filter RunningAction.closing).length ≤ s.work) ∧
      (s.Settled ∨ ∃ action : RunningAction Id, action.closing = true ∧
        (s.step keys sha256 t action).isSome = true)) := by
  have hinv := inv_of_reachable hs
  refine ⟨fun hreturned => ?_, hinv.router, fun hheld => ?_, fun stream hstream => ?_,
    fun hguard => ⟨fun l s' hother hrun => ?_, ?_⟩⟩
  · refine ⟨hinv.joined (hinv.stopping (.inr hreturned)), hinv.returned hreturned, ?_, ?_⟩
    · intro hfailed hended
      rcases (hinv.ended hended).2 with hwas | hfinished
      · rw [hfailed] at hwas
        contradiction
      · exact hfinished
    · exact fun s' hrun => (frozen_of_returned hs hreturned hrun).2
  · constructor
    · intro task htask hstopped
      rcases reachable_publisher hs htask with ⟨publisher, -, hreach⟩
      have hsignalled := (PublisherTask.runInv_of_reachable hreach).stopped hstopped
      exact (hinv.signalled task htask).mp hsignalled hheld
    · intro hfailed pc hserver
      cases pc with
      | serving => rfl
      | draining => exact ((hinv.serving hheld hfailed).1 hserver).elim
      | ended => exact ((hinv.serving hheld hfailed).2 hserver).elim
  · have hknown := (Incoming.inv_of_reachable (reachable_incoming hs)).accounted.known
    have hplaced : stream ∈ s.incoming.placed := by simp [Incoming.placed, hstream]
    rcases hknown stream hplaced with ⟨loop, hloop, hcontext⟩
    rw [hcontext]
    exact accepts_of_reachable hs loop (List.mem_of_getElem? hloop)
  · have hwork := work_run hs hother hrun
    omega
  · by_cases hsettled : s.Settled
    · exact .inl hsettled
    · exact .inr (exists_closing hs hguard hsettled)

/-- A transport with one service and a publisher. -/
def echoTransport : Spawned Swarm.NodeId 245 where
  protocols := (∅ : AList fun _ : List UInt8 => NamedService).insert
    (serviceToAlpn ⟨"echo.Echo"⟩) ⟨"echo.Echo"⟩
  tonicRouter := some [⟨"echo.Echo"⟩]
  userData := none
  incomingBufferCapacity := 1
  publisher := some Swarm.latePublisher

/-- It is shut down in its first round, with a stream that is being served. -/
def earlyShutdown : List (RunningAction Nat) :=
  [.incoming (.connect 7 (serviceToAlpn ⟨"echo.Echo"⟩)), .incoming (.accept 0),
    .incoming (.reserve 0), .incoming (.send 0), .incoming .recv, .publisher .turn, .shutdown,
    .stop, .publisher .turn, .publisher .turn, .publisher .turn, .incoming .dropReceiver, .finish,
    .publisher .shutdown, .endServer, .joinNext, .joined, .routerShutdown]

/-- Its round and its stream come to their ends first. -/
theorem shutdown_is_graceful_early :
    ∃ s : Running Swarm.NodeId Nat,
      (system Keys.plain Swarm.plainHash echoTransport Swarm.lateClock).Reachable s ∧
      s.guard = .returned ∧ s.incoming.served.length = 1 ∧ s.published.length = 2 ∧
      s.tasksEnded = true ∧ s.routerDown = true := by
  obtain ⟨s, hs, hend⟩ := System.exists_of_runWhen_any
    (S := (system Keys.plain Swarm.plainHash echoTransport Swarm.lateClock :
      System (Running Swarm.NodeId Nat) (RunningAction Nat)))
    (C := fun _ _ => True) (l := earlyShutdown)
    (P := fun s => s.guard = .returned && s.incoming.served.length == 1 && s.published.length == 2)
    (by decide +kernel)
  simp only [Bool.and_eq_true, decide_eq_true_eq, beq_iff_eq] at hend
  rcases hend with ⟨⟨hreturned, hserved⟩, hpublished⟩
  have hdone := (shutdown_is_graceful Keys.plain Swarm.plainHash echoTransport Swarm.lateClock hs).1
    hreturned
  exact ⟨s, hs, hreturned, hserved, hpublished, hdone.1, hdone.2.1⟩

end IrohTransport.Transport
