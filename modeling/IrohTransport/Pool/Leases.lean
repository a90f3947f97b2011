import IrohTransport.Pool.Steps

/-!
# Leases and closing

The atomic count of a connection actor is the number of live references to its
connection, in every reachable state.  From it and from the actor's local facts it
follows that the actor closes an open connection only when nobody holds it.

Main results:

- Theorem {lit}`leaseInv_of_reachable`: the count equals the number of live
  references, never wraps, and every reference belongs to its actor.
- Theorem {lit}`open_connection_closes_only_unleased`: an open connection is
  closed by the remote side, or by its actor while it has no live reference.
-/

namespace IrohTransport.Pool

namespace State

variable {Id : Type}

/-- The lease invariant of the protocol. -/
structure LeaseInv (s : State Id) : Prop where
  localInv : ∀ (p : Nat) (a : ConnActor Id), s.conns[p]? = some a → a.LocalInv
  counted : ∀ (p : Nat) (a : ConnActor Id), s.conns[p]? = some a →
    a.counter.count = s.liveRefs p
  owned : ∀ ref ∈ s.refs, ∃ a, s.conns[ref.actor]? = some a ∧
    a.nodeId = ref.id ∧ a.generation = ref.generation

theorem liveRefs_pos_of_mem {s : State Id} {ref : ConnectionRef Id} (h : ref ∈ s.refs) :
    0 < s.liveRefs ref.actor := by
  rw [liveRefs, List.countP_pos_iff]
  exact ⟨ref, h, by simp⟩

theorem exists_ref_of_liveRefs_pos {s : State Id} {p : Nat} (h : 0 < s.liveRefs p) :
    ∃ ref ∈ s.refs, ref.actor = p := by
  rw [liveRefs, List.countP_pos_iff] at h
  rcases h with ⟨ref, href, hactor⟩
  exact ⟨ref, href, by simpa using hactor⟩

theorem leaseInv_initial (options : PoolOptions) : LeaseInv (initial options : State Id) := by
  constructor <;> simp [initial]

/-- An actor that does not exist has no live reference. -/
theorem LeaseInv.liveRefs_eq_zero {s : State Id} (hinv : s.LeaseInv) {p : Nat}
    (hp : s.conns[p]? = none) : s.liveRefs p = 0 := by
  by_contra hne
  rcases exists_ref_of_liveRefs_pos (Nat.pos_of_ne_zero hne) with ⟨ref, href, rfl⟩
  rcases hinv.owned ref href with ⟨a, ha, _⟩
  rw [hp] at ha
  contradiction

variable [DecidableEq Id]

/-! ## Local facts survive the moves of others -/

private theorem localInv_change {s : State Id} {p : Nat} {a a' : ConnActor Id}
    {action : Action Id} (hinv : s.LeaseInv) (ha : s.conns[p]? = some a)
    (h : ConnChange s p a action a') : a'.LocalInv := by
  have hlocal := hinv.localInv p a ha
  cases h with
  | same => exact hlocal
  | moved event _ effect hmove => exact hlocal.step hmove
  | dropped c ref href hactor =>
      -- the guard being dropped is counted, so the subtraction does not wrap
      apply hlocal.fetchSub
      rw [hinv.counted p a ha, ← hactor]
      exact liveRefs_pos_of_mem href
  | remoteClosed hopen => exact hlocal.remoteClose hopen
  | woken notified hpc =>
      exact ⟨hlocal.count_le, hlocal.timer, by simp [ConnActor.goto],
        by simp [ConnActor.goto], by simp [ConnActor.goto], by simp [ConnActor.goto],
        hlocal.unconnected, by simp [ConnActor.goto], fun _ => hlocal.failed (by simp [hpc])⟩
  | notified | forwarded | first =>
      exact ⟨hlocal.count_le, hlocal.timer, hlocal.settled, hlocal.exiting, hlocal.closing,
        hlocal.stopped, hlocal.unconnected, hlocal.connecting, hlocal.failed⟩

theorem LeaseInv.localInv_step {s s' : State Id} {action : Action Id}
    (hinv : s.LeaseInv) (h : Step s action s') (p : Nat) (a' : ConnActor Id)
    (ha' : s'.conns[p]? = some a') : a'.LocalInv := by
  rcases step_conn h ha' with ⟨a, ha, hchange⟩ | hspawn
  · exact localInv_change hinv ha hchange
  · cases hspawn with
    | spawned req generation => exact ConnActor.localInv_spawn _ _

/-! ## The count is the number of live references -/

private theorem liveRefs_erase {s : State Id} {ref : ConnectionRef Id} (h : ref ∈ s.refs)
    (p : Nat) :
    s.liveRefs p =
      (s.refs.erase ref).countP (fun r => r.actor = p) + (if ref.actor = p then 1 else 0) := by
  rw [liveRefs, (List.perm_cons_erase h).countP_eq, List.countP_cons]
  simp

private theorem counted_frame {s s' : State Id} {action : Action Id}
    (hinv : s.LeaseInv) (h : Step s action s') (hdrop : ∀ c, action ≠ .dropRef c)
    (hconn : ∀ p event, action ≠ .conn p event) (p : Nat) (a' : ConnActor Id)
    (ha' : s'.conns[p]? = some a') : a'.counter.count = s'.liveRefs p := by
  have hlive : s'.liveRefs p = s.liveRefs p := by
    rw [liveRefs, step_refs_eq h hdrop hconn]
    rfl
  rw [hlive]
  rcases step_conn h ha' with ⟨a, ha, hchange⟩ | hspawn
  · have hcount := hinv.counted p a ha
    cases hchange with
    | dropped c => exact (hdrop c rfl).elim
    | moved event => exact (hconn p event rfl).elim
    | _ => exact hcount
  · cases hspawn with
    | spawned req generation hp =>
        rw [hinv.liveRefs_eq_zero (by simp [hp])]
        rfl

theorem LeaseInv.counted_step {s s' : State Id} {action : Action Id}
    (hinv : s.LeaseInv) (h : Step s action s') (p : Nat) (a' : ConnActor Id)
    (ha' : s'.conns[p]? = some a') : a'.counter.count = s'.liveRefs p := by
  cases action with
  | dropRef c =>
      cases h with
      | droppedRef c ref _ href _ =>
          rcases conn_of_modify ha' with ⟨a, ha, hcase⟩
          have hcount := hinv.counted p a ha
          rw [liveRefs_erase href p] at hcount
          change a'.counter.count = (s.refs.erase ref).countP fun r => r.actor = p
          rcases hcase with ⟨hp, rfl⟩ | ⟨hp, rfl⟩
          · rw [if_pos hp] at hcount
            have hpos : 0 < a.counter.count := by omega
            simp only [ConnectionCounter.fetchSub_count hpos]
            omega
          · rw [hcount, if_neg hp, Nat.add_zero]
  | conn q event =>
      cases h with
      | moved q event a b effect s' ha hmove hemit =>
          have hstep := ConnActor.step_count hmove
          rw [emit_conns hemit] at ha'
          have hlive : s'.liveRefs p = s.liveRefs p + if q = p then effect.leases else 0 := by
            rcases emit_refs hemit with ⟨hrefs, hleases⟩ | ⟨tx, rfl, hrefs⟩
            · rw [liveRefs, hrefs, hleases, ite_self]
              rfl
            · rw [liveRefs, hrefs, List.countP_cons]
              simp [setConn, liveRefs, Effect.leases]
          rw [hlive]
          rcases conn_of_set ha ha' with ⟨rfl, rfl⟩ | ⟨hp, hold⟩
          · rw [hstep, if_pos rfl, hinv.counted q a ha]
          · rw [if_neg hp, Nat.add_zero, hinv.counted p a' hold]
  | _ => exact counted_frame hinv h (by simp) (by simp) p a' ha'

/-! ## References belong to their actors -/

theorem LeaseInv.owned_step {s s' : State Id} {action : Action Id}
    (hinv : s.LeaseInv) (h : Step s action s') (ref : ConnectionRef Id)
    (href : ref ∈ s'.refs) :
    ∃ a, s'.conns[ref.actor]? = some a ∧ a.nodeId = ref.id ∧
      a.generation = ref.generation := by
  have hpersist : ∀ a, s.conns[ref.actor]? = some a →
      a.nodeId = ref.id ∧ a.generation = ref.generation →
      ∃ a, s'.conns[ref.actor]? = some a ∧ a.nodeId = ref.id ∧
        a.generation = ref.generation := by
    intro a ha hid
    rcases step_conn_of h ha with ⟨a', ha', hchange⟩
    rcases hchange.identity with ⟨hnode, hgen⟩
    exact ⟨a', ha', hnode.trans hid.1, hgen.trans hid.2⟩
  rcases step_refs h href with hold | ⟨q, event, a, a', tx, _, ha, _, rfl⟩
  · rcases hinv.owned ref hold with ⟨a, ha, hid⟩
    exact hpersist a ha hid
  · exact hpersist a ha ⟨rfl, rfl⟩

/-- Every step keeps the lease invariant. -/
theorem LeaseInv.step {s s' : State Id} {action : Action Id} (hinv : s.LeaseInv)
    (h : Step s action s') : s'.LeaseInv :=
  ⟨hinv.localInv_step h, hinv.counted_step h, hinv.owned_step h⟩

end State

open State

variable {Id : Type} [DecidableEq Id]

/-- The lease invariant holds in every reachable state. -/
theorem leaseInv_of_reachable {options : PoolOptions} {s : State Id}
    (hs : (protocol options).Reachable s) : s.LeaseInv :=
  hs.invariant (leaseInv_initial options)
    fun _ _ _ _ hinv _ hstep => hinv.step (step_sound hstep)

/-! ## Closing -/

/-- A connection stops being open only by a remote close or by its actor's exit. -/
theorem State.ConnChange.isOpen_eq_false {s : State Id} {p : Nat} {a a' : ConnActor Id}
    {action : Action Id} (h : ConnChange s p a action a') (hopen : a.isOpen = true)
    (hclosed : a'.isOpen = false) :
    action = .remoteClose p ∨ (action = .conn p .resume ∧ a.pc = .exiting) := by
  cases h with
  | remoteClosed => exact .inl rfl
  | moved event _ effect hmove =>
      cases ConnActor.step_moves hmove with
      | exit hpc => exact .inr ⟨rfl, hpc⟩
      | _ => simp_all [ConnActor.goto, ConnActor.isOpen]
  | _ => simp_all [ConnActor.goto, ConnActor.isOpen]

/-- In every reachable state the count of an actor is the number of live references
to its connection, an armed idle timer means there is none, and whatever happens
next, shutdown included, an open connection is closed only by the remote side or by
its actor while no reference to it is live. -/
theorem open_connection_closes_only_unleased (options : PoolOptions) {s : State Id}
    (hs : (protocol options).Reachable s) {p : Nat} {a : ConnActor Id}
    (ha : s.conns[p]? = some a) :
    a.counter.count = s.liveRefs p ∧
      (a.idleActive = true → s.liveRefs p = 0) ∧
      ∀ action s' a', s.step action = some s' → s'.conns[p]? = some a' →
        a.isOpen = true → a'.isOpen = false →
        action = .remoteClose p ∨
          (action = .conn p .resume ∧ a.pc = .exiting ∧ s.liveRefs p = 0) := by
  have hinv := leaseInv_of_reachable hs
  have hcount := hinv.counted p a ha
  refine ⟨hcount, fun hidle => ?_, ?_⟩
  · rw [← hcount]
    exact (hinv.localInv p a ha).timer hidle
  · intro action s' a' hstep ha' hopen hclosed
    rcases step_conn_of (step_sound hstep) ha with ⟨b, hb, hchange⟩
    obtain rfl : b = a' := by
      rw [ha', Option.some.injEq] at hb
      exact hb.symm
    rcases hchange.isOpen_eq_false hopen hclosed with hremote | ⟨hconn, hpc⟩
    · exact .inl hremote
    · refine .inr ⟨hconn, hpc, ?_⟩
      rw [← hcount]
      rcases (hinv.localInv p a ha).exiting hpc with hzero | hnot
      · exact hzero
      · rw [hopen] at hnot
        contradiction

/-! ## Runs -/

/-- One turn of the pool actor's loop with a message in its queue. -/
def poolTurn : List (Action Nat) :=
  [.pool .check, .pool .subscribe, .pool .pollRecv, .pool .handle]

/-- Call 0 asks for peer 7: the pool actor spawns the actor 0 and puts the request
into its mailbox. -/
def firstRequest : List (Action Nat) :=
  [.call 0 7, .send 0] ++ poolTurn ++ [.pool .sendFirst]

/-- Call 0 gets the first reference to peer 7. -/
def firstLease : List (Action Nat) :=
  firstRequest ++ [.conn 0 (.connect .ok), .conn 0 .resume, .conn 0 .resume,
    .conn 0 (.poll .request), .conn 0 .resume, .recv 0]

/-- The reference is dropped and the pool actor puts the connection into its idle
queue. -/
def firstIdle : List (Action Nat) :=
  firstLease ++ [.dropRef 0, .notifyOne 0, .conn 0 .resume, .conn 0 (.poll .notified),
    .conn 0 .resume, .conn 0 .resume] ++ poolTurn

/-- After the first lease the theorem speaks about an open connection with one live
reference. -/
theorem open_connection_closes_only_unleased_first :
    ∃ (s : State Nat) (a : ConnActor Nat), (protocol ⟨1⟩).Reachable s ∧
      s.conns[0]? = some a ∧ a.isOpen = true ∧ s.liveRefs 0 = 1 ∧
      a.counter.count = s.liveRefs 0 ∧
      ∀ action s' a', s.step action = some s' → s'.conns[0]? = some a' →
        a'.isOpen = false → action = .remoteClose 0 := by
  obtain ⟨s, hs, hleased⟩ := System.exists_of_runWhen_any (S := protocol ⟨1⟩)
    (C := fun _ _ => True) (l := firstLease)
    (P := fun s => s.liveRefs 0 = 1 && (s.conns[0]?).any ConnActor.isOpen) (by decide)
  simp only [Bool.and_eq_true, decide_eq_true_eq, Option.any_eq_true] at hleased
  rcases hleased with ⟨hlive, a, ha, hopen⟩
  rcases open_connection_closes_only_unleased ⟨1⟩ hs ha with ⟨hcount, -, hcloses⟩
  refine ⟨s, a, hs, ha, hopen, hlive, hcount, fun action s' a' hstep ha' hclosed => ?_⟩
  rcases hcloses action s' a' hstep ha' hopen hclosed with hremote | ⟨-, -, hzero⟩
  · exact hremote
  · omega

end IrohTransport.Pool
