import IrohTransport.Pool.Leases
import IrohTransport.Pool.Slots

/-!
# The limit on connections

The pool actor keeps {lit}`max_connections` as a limit on its slots, while the
connections live in actors that end in their own time.  The two agree exactly as
long as no slot is given up before its connection: an eviction, an invalidation and
an idle expiry all give up the slot of a connection that is still open.

Main results:

- Theorem {lit}`State.count_le_keys`: actors that each have a slot of their own are
  no more than the slots.
- Theorem {lit}`connections_within_limit`: as long as slots are given up only after
  their connections, at most {lit}`max_connections` actors are connecting or hold an
  open connection.
- Theorem {lit}`eviction_exceeds_limit`: an eviction leaves two open connections in a
  pool for one.
-/

namespace IrohTransport.Pool

namespace State

variable {Id : Type}

/-- How many actors are connecting or hold an open connection. -/
def connectionCount (s : State Id) : Nat :=
  s.conns.countP ConnActor.holdsConnection

/-- Every actor with a connection has the slot of its peer. -/
def Slotted [DecidableEq Id] (s : State Id) : Prop :=
  ∀ (p : Nat) (a : ConnActor Id), s.conns[p]? = some a → a.holdsConnection = true →
    ∃ slot, s.pool.connections.lookup a.nodeId = some slot ∧ slot.tx = p

variable [DecidableEq Id]

/-- Actors with a slot of their own are no more than the slots. -/
theorem count_le_keys {s : State Id} (h : s.Slotted) :
    s.connectionCount ≤ s.pool.connections.keys.length := by
  let peers := (s.conns.filter ConnActor.holdsConnection).map ConnActor.nodeId
  have hnodup : peers.Nodup := by
    rw [List.Nodup, List.pairwise_map, List.pairwise_filter, List.pairwise_iff_getElem]
    intro i j hi hj hlt hholds hholds' heq
    rcases h i _ (List.getElem?_eq_getElem hi) hholds with ⟨slot, hslot, htx⟩
    rcases h j _ (List.getElem?_eq_getElem hj) hholds' with ⟨slot', hslot', htx'⟩
    rw [heq, hslot', Option.some.injEq] at hslot
    subst hslot
    omega
  have hsub : peers ⊆ s.pool.connections.keys := by
    intro id hid
    rcases List.mem_map.mp hid with ⟨a, ha, rfl⟩
    rcases List.mem_filter.mp ha with ⟨hmem, hholds⟩
    rcases List.mem_iff_getElem?.mp hmem with ⟨p, hp⟩
    rcases h p a hp hholds with ⟨slot, hslot, _⟩
    rw [← AList.mem_keys, ← AList.lookup_isSome, hslot]
    rfl
  calc s.connectionCount = peers.length := by
        rw [connectionCount, List.countP_eq_length_filter, List.length_map]
    _ ≤ s.pool.connections.keys.length := (List.subperm_of_subset hnodup hsub).length_le

/-- The actor exists and has a connection. -/
def held (s : State Id) (p : Nat) : Bool :=
  (s.conns[p]?).any ConnActor.holdsConnection

/-- The steps that give up the slot of an actor that still has its connection: to
make room for another peer, or on a message of its generation. -/
def dropsHeld (s : State Id) : Action Id → Bool
  | .pool .handle =>
      (s.evicting.any fun victim => s.held victim.2.tx) ||
        match s.poolPc with
        | .handling (.shutdown id generation) =>
            (s.pool.connections.lookup id).any fun slot =>
              slot.generation = generation && s.held slot.tx
        | _ => false
  | _ => false

/-- A step that gives up no slot too early leaves every connection its slot, unless
it is the teardown. -/
theorem Slotted.step {s s' : State Id} {action : Action Id} (hslotted : s.Slotted)
    (hlease : s.LeaseInv) (hslots : s.SlotInv) (hkept : s.dropsHeld action = false)
    (h : Step s action s') (hrx : s'.rxClosed = false) : s'.Slotted := by
  intro p a' ha' hholds'
  rcases step_conn h ha' with ⟨a, ha, hchange⟩ | hspawn
  · have hholds := hchange.holdsConnection hholds'
    rcases hslotted p a ha hholds with ⟨slot, hslot, htx⟩
    have hstopped : a.pc ≠ .stopped := by
      intro hpc
      rw [ConnActor.not_holdsConnection_of_stopped (hlease.localInv p a ha) hpc] at hholds
      contradiction
    rw [hchange.identity.1]
    have hneeds : ∀ id, id = a.nodeId → ¬s.pool.NeedsSlot id s.trySend := by
      rintro _ rfl hneeds
      exact hstopped (trySend_eq_closed ha (htx ▸ hneeds slot hslot))
    have hslotChange := step_slot h a.nodeId
    generalize s'.pool.connections.lookup a.nodeId = found at hslotChange
    cases hslotChange with
    | same => exact ⟨slot, hslot, htx⟩
    | opened req _ hpeer hneed => exact (hneeds req.id hpeer.symm hneed).elim
    | stale req _ hpeer hneed => exact (hneeds req.id hpeer.symm hneed).elim
    | evicted victim hvictim =>
        have hlookup := (evicting_spec hvictim).1
        rw [hslot, Option.some.injEq] at hlookup
        subst hlookup
        simp [dropsHeld, hvictim, held, htx, ha, hholds] at hkept
    | shutdown slot' hpc hlookup =>
        rw [hslot, Option.some.injEq] at hlookup
        subst hlookup
        simp [dropsHeld, hpc, hslot, held, htx, ha, hholds] at hkept
    | firstFailed q req b hpc hpeer hb hpcb =>
        rcases hslots.first q req hpc with ⟨c, hc, _, hlookup⟩
        rw [← hpeer, hslot, Option.some.injEq] at hlookup
        subst hlookup
        obtain rfl : q = p := htx
        rw [ha, Option.some.injEq] at hb
        exact (hstopped (hb ▸ hpcb)).elim
    | teardown hpc =>
        cases h
        contradiction
  · cases hspawn with
    | spawned req generation hp hpc hout =>
        exact ⟨_, (spawns_of_outcome h hpc hout).slot, hp.symm⟩

private theorem countP_le_of_pointwise {α : Type} {P : α → Bool} {l l' : List α}
    (hlen : l'.length = l.length)
    (h : ∀ (i : Nat) (a a' : α), l[i]? = some a → l'[i]? = some a' → P a' = true → P a = true) :
    l'.countP P ≤ l.countP P := by
  induction l generalizing l' with
  | nil => simp [List.length_eq_zero_iff.mp hlen]
  | cons a l ih =>
      cases l' with
      | nil => simp
      | cons a' l' =>
          have htail := ih (Nat.succ.inj hlen) fun i b b' hb hb' => h (i + 1) b b' hb hb'
          have hhead := h 0 a a' rfl rfl
          simp only [List.countP_cons]
          by_cases hP : P a' = true
          · simp only [hP, hhead hP, if_true]
            omega
          · rw [if_neg hP]
            omega

/-- A step that spawns no actor opens no connection. -/
theorem step_connectionCount {s s' : State Id} {action : Action Id} (h : Step s action s')
    (hlen : s'.conns.length = s.conns.length) : s'.connectionCount ≤ s.connectionCount := by
  apply countP_le_of_pointwise hlen
  intro p a a' ha ha' hholds
  rcases step_conn_of h ha with ⟨b, hb, hchange⟩
  rw [ha', Option.some.injEq] at hb
  exact hchange.holdsConnection (hb ▸ hholds)

/-- The invariant of runs that give up no slot too early. -/
structure LimitInv (options : PoolOptions) (s : State Id) : Prop where
  options_eq : s.pool.options = options
  slotted : s.rxClosed = false → s.Slotted
  within : s.connectionCount ≤ options.maxConnections

theorem limitInv_initial (options : PoolOptions) :
    LimitInv options (initial options : State Id) := by
  refine ⟨rfl, fun _ p a ha => ?_, Nat.zero_le _⟩
  simp [initial] at ha

theorem LimitInv.step {options : PoolOptions} {s s' : State Id} {action : Action Id}
    (hinv : LimitInv options s) (hlease : s.LeaseInv) (hslots : s.SlotInv)
    (hkept : s.dropsHeld action = false) (h : Step s action s') : LimitInv options s' := by
  have hoptions := (step_options h).trans hinv.options_eq
  have hslotted : s'.rxClosed = false → s'.Slotted := by
    intro hrx
    have hrx' : s.rxClosed = false := by
      rcases step_rxClosed h with hsame | rfl
      · exact hsame.symm.trans hrx
      · cases h
        contradiction
    exact (hinv.slotted hrx').step hlease hslots hkept h hrx
  refine ⟨hoptions, hslotted, ?_⟩
  cases hrx : s'.rxClosed with
  | false =>
      calc s'.connectionCount ≤ s'.pool.connections.keys.length := count_le_keys (hslotted hrx)
        _ ≤ s'.pool.options.maxConnections := (hslots.step h).fits
        _ = options.maxConnections := by rw [hoptions]
  | true =>
      -- the pool actor has torn down, or does so now: nothing is spawned any more
      refine Nat.le_trans (step_connectionCount h ?_) hinv.within
      rcases step_spawns h with ⟨hlen, _⟩ | ⟨_, req, hspawn⟩
      · exact hlen
      · have hpc := (hslots.step h).drained hrx
        rw [hspawn.poolPc] at hpc
        simp at hpc

end State

open State

/-- As long as the pool actor gives up a slot only after its connection has ended, at
most {lit}`max_connections` actors are connecting or hold an open connection. -/
theorem connections_within_limit {Id : Type} [DecidableEq Id] (options : PoolOptions)
    {s : State Id}
    (hs : (protocol options).ReachableWhen (fun s action => s.dropsHeld action = false) s) :
    s.connectionCount ≤ options.maxConnections := by
  have hinv : LimitInv options s := by
    apply hs.invariant (limitInv_initial options)
    intro s s' action hreach hinv hkept hstep
    exact hinv.step (leaseInv_of_reachable hreach.reachable)
      (slotInv_of_reachable hreach.reachable) hkept (step_sound hstep)
  exact hinv.within

/-! ## Runs -/

/-- A pool for one connection that has handed one out. -/
theorem connections_within_limit_first :
    ∃ s : State Nat, (protocol ⟨1⟩).ReachableWhen (fun s action => s.dropsHeld action = false) s ∧
      0 < s.connectionCount ∧ s.connectionCount ≤ 1 := by
  obtain ⟨s, hs, hone⟩ := System.exists_of_runWhen_any (S := protocol ⟨1⟩)
    (C := fun s action => s.dropsHeld action = false) (l := firstLease)
    (P := fun s => 0 < s.connectionCount) (by decide)
  exact ⟨s, hs, by simpa using hone, connections_within_limit ⟨1⟩ hs⟩

/-- With the connection to peer 7 idle, call 1 asks for peer 8. -/
def evictingRequest : List (Action Nat) :=
  firstIdle ++ [.call 1 8, .send 1] ++ poolTurn ++
    [.pool .sendFirst, .conn 1 (.connect .ok)]

/-- An eviction leaves the evicted connection open beside the new one. -/
theorem eviction_exceeds_limit :
    ∃ s : State Nat, (protocol ⟨1⟩).Reachable s ∧ s.connectionCount = 2 := by
  obtain ⟨s, hs, htwo⟩ := System.exists_of_runWhen_any (S := protocol ⟨1⟩)
    (C := fun _ _ => True) (l := evictingRequest)
    (P := fun s => s.connectionCount = 2) (by decide)
  exact ⟨s, hs, by simpa using htwo⟩

end IrohTransport.Pool
