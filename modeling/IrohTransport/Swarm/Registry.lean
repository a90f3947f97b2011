import IrohTransport.Pool.Handles
import IrohTransport.Swarm.Locator
import Mathlib.Data.List.AList

/-!
# The registry

A registry keeps one connection pool for each service and each choice of options.  Its
clones share the map of the pools but have default options of their own.  The map holds a
handle of each of its pools, and the callers of {lit}`pool` and of {lit}`start` get clones
of these, which they clone and drop as they like.

Main results:

- Theorem {lit}`LocatorBuilder.configured`: what the calls of a builder make of the
  timeouts.
- Theorem {lit}`registry_shares_pools`: callers share a pool exactly if they ask for the
  same service and options, and the pool lives as long as the registry or a handle.
-/

namespace IrohTransport.Swarm

open Pool (Handles HandleAction)

/-- Configuration for the connection pool, with durations in milliseconds. -/
structure PoolOptions where
  idleTimeout : Nat
  connectTimeout : Nat
  maxConnections : Nat
deriving DecidableEq

instance : Inhabited PoolOptions where
  default :=
    { idleTimeout := 10000
      connectTimeout := 5000
      maxConnections := 1024 }

/-! ## The builder of a locator -/

/-- Fluent builder to configure a locator.  The timeout of an attempt is the field of the
configuration that the loop of the locator leaves to its attempts. -/
structure LocatorBuilder where
  locatorCfg : LocatorConfig
  timeoutEach : Nat
  poolOptions : PoolOptions

/-- A call of the builder. -/
inductive BuilderCall where
  | maxInflight (n : Nat)
  | timeoutEach (d : Nat)
  | timeout (d : Nat)
  | limit (n : Nat)
  | poolOptions (options : PoolOptions)

/-- The calls that leave the timeouts of an attempt alone. -/
def BuilderCall.neutral : BuilderCall → Bool
  | .timeoutEach _ | .poolOptions _ => false
  | _ => true

namespace LocatorBuilder

/-- A builder with the defaults of a locator and of its registry. -/
def new (registryOptions : PoolOptions) : LocatorBuilder where
  locatorCfg :=
    { maxInflight := 8
      timeout := none
      limit := 4 }
  timeoutEach := 2000
  poolOptions := registryOptions

def call (self : LocatorBuilder) : BuilderCall → LocatorBuilder
  | .maxInflight n => { self with locatorCfg := { self.locatorCfg with maxInflight := n } }
  | .timeoutEach d =>
      { self with
        timeoutEach := d
        poolOptions := { self.poolOptions with connectTimeout := d } }
  | .timeout d => { self with locatorCfg := { self.locatorCfg with timeout := some d } }
  | .limit n => { self with locatorCfg := { self.locatorCfg with limit := n } }
  | .poolOptions options =>
      { self with
        timeoutEach := options.connectTimeout
        poolOptions := options }

/-- A chain of calls. -/
def configure (self : LocatorBuilder) (calls : List BuilderCall) : LocatorBuilder :=
  calls.foldl call self

theorem call_neutral (self : LocatorBuilder) {c : BuilderCall} (h : c.neutral = true) :
    (self.call c).timeoutEach = self.timeoutEach ∧
      (self.call c).poolOptions = self.poolOptions := by
  cases c with
  | maxInflight n | timeout d | limit n => exact ⟨rfl, rfl⟩
  | timeoutEach d | poolOptions options => contradiction

theorem call_not_neutral (self : LocatorBuilder) {c : BuilderCall} (h : c.neutral = false) :
    (self.call c).timeoutEach = (self.call c).poolOptions.connectTimeout := by
  cases c with
  | maxInflight n | timeout d | limit n => contradiction
  | timeoutEach d | poolOptions options => rfl

/-- The pool gives an attempt as long to connect as the locator gives it in all, once either
has been set; before that the pool is the default one of the registry. -/
theorem configured (self : LocatorBuilder) (calls : List BuilderCall) :
    ((∀ c ∈ calls, c.neutral = true) → (self.configure calls).timeoutEach = self.timeoutEach ∧
      (self.configure calls).poolOptions = self.poolOptions) ∧
    ((∃ c ∈ calls, c.neutral = false) → (self.configure calls).timeoutEach =
      (self.configure calls).poolOptions.connectTimeout) := by
  induction calls using List.reverseRecOn with
  | nil => exact ⟨fun _ => ⟨rfl, rfl⟩, fun ⟨c, hc, _⟩ => (List.not_mem_nil hc).elim⟩
  | append_singleton calls c ih =>
      have hlast : self.configure (calls ++ [c]) = (self.configure calls).call c := by
        simp [configure]
      rw [hlast]
      constructor
      · intro hneutral
        rcases ih.1 fun d hd => hneutral d (List.mem_append_left _ hd) with ⟨htimeout, hoptions⟩
        rcases call_neutral (self.configure calls)
          (hneutral c (List.mem_append_right _ (List.mem_singleton.mpr rfl))) with
          ⟨hkept, hkept'⟩
        exact ⟨hkept.trans htimeout, hkept'.trans hoptions⟩
      · rintro ⟨d, hd, hset⟩
        cases hc : c.neutral with
        | false => exact call_not_neutral _ hc
        | true =>
            have hbefore : d ∈ calls := by
              rcases List.mem_append.mp hd with hd | hd
              · exact hd
              · obtain rfl := List.mem_singleton.mp hd
                rw [hc] at hset
                contradiction
            rcases call_neutral (self.configure calls) hc with ⟨hkept, hkept'⟩
            rw [hkept, hkept']
            exact ih.2 ⟨d, hbefore, hset⟩

end LocatorBuilder

/-! ## The registry and its pools -/

/-- A handle is held until it is dropped itself. -/
theorem mem_held_of_step {s s' : Handles} {action : HandleAction} {h : Nat}
    (hstep : s.step action = some s') (hheld : h ∈ s.held) (hother : action ≠ .check h) :
    h ∈ s'.held := by
  rcases Handles.step_cases hstep with ⟨i, -, rfl, rfl⟩ | ⟨i, -, rfl, rfl⟩ | ⟨i, -, rfl, rfl⟩
  · exact Finset.mem_insert_of_mem hheld
  · refine Finset.mem_erase.mpr ⟨?_, hheld⟩
    rintro rfl
    exact hother rfl
  · exact hheld

/-- A clone of a handle gets a new name and is held. -/
theorem held_of_step_clone {s s' : Handles} {h : Nat} (hstep : s.step (.clone h) = some s') :
    s.next ∈ s'.held ∧ s.next < s'.next := by
  simp only [Handles.step] at hstep
  split at hstep
  · obtain rfl := Option.some.inj hstep
    exact ⟨Finset.mem_insert_self _ _, Nat.lt_succ_self _⟩
  · contradiction

/-- Names are not used again. -/
theorem next_le_of_step {s s' : Handles} {action : HandleAction} (hstep : s.step action = some s') :
    s.next ≤ s'.next := by
  rcases Handles.step_cases hstep with ⟨i, -, -, rfl⟩ | ⟨i, -, -, rfl⟩ | ⟨i, -, -, rfl⟩
  · exact Nat.le_succ _
  · exact Nat.le_refl _
  · exact Nat.le_refl _

/-- The key of a cached pool. -/
structure PoolKey where
  alpn : List UInt8
  options : PoolOptions
deriving DecidableEq

/-- What the handles of a pool share, and which there are. -/
structure SharedPool where
  alpn : List UInt8
  options : PoolOptions
  handles : Handles

/-- {lit}`ConnectionPool::new`. -/
def SharedPool.new (key : PoolKey) : SharedPool where
  alpn := key.alpn
  options := key.options
  handles := Handles.system.init

def SharedPool.key (self : SharedPool) : PoolKey where
  alpn := self.alpn
  options := self.options

/-- A pool that was handed out: what was asked for and the handle that was returned. -/
structure Lookup where
  key : PoolKey
  pool : Nat
  handle : Nat

/-- A registry: its clones, each with its default options, the map that they share, the pools
that were ever made and those that were handed out.  The first handle of a pool is that of
the map. -/
structure Registry where
  clones : List (Option PoolOptions)
  pools : AList fun _ : PoolKey => Nat
  shared : List SharedPool
  lookups : List Lookup

/-- A call on a clone of the registry, or what its callers do with a handle. -/
inductive RegistryAction where
  | clone (r : Nat)
  | withPoolOptions (r : Nat) (options : PoolOptions)
  | drop (r : Nat)
  /-- A call of {lit}`pool`. -/
  | pool (r : Nat) (alpn : List UInt8)
  /-- A chain of calls from {lit}`find` to {lit}`start`. -/
  | start (r : Nat) (alpn : List UInt8) (calls : List BuilderCall)
  | handle (p : Nat) (action : HandleAction)

namespace Registry

/-- The default options of a clone that has not been dropped. -/
def options? (s : Registry) (r : Nat) : Option PoolOptions := s.clones[r]?.join

/-- The map is dropped with the last clone. -/
def live (s : Registry) : Bool := s.clones.any Option.isSome

/-- The handle of the map is dropped with it, and it alone is cloned under the lock. -/
def permits (s : Registry) : HandleAction → Bool
  | .clone h => h != 0
  | .check h | .release h => h != 0 || !s.live

/-- Clone the handle of the map. -/
def clonePool (s : Registry) (key : PoolKey) (p : Nat) : Option Registry :=
  s.shared[p]?.bind fun pool =>
    (pool.handles.step (.clone 0)).map fun handles =>
      { s with
        shared := s.shared.set p { pool with handles := handles }
        lookups := s.lookups ++ [{ key := key, pool := p, handle := pool.handles.next }] }

/-- The pool of a service with some options, which is made if there is none. -/
def poolForAlpn (s : Registry) (alpn : List UInt8) (options : PoolOptions) : Option Registry :=
  match s.pools.lookup ⟨alpn, options⟩ with
  | some p => s.clonePool ⟨alpn, options⟩ p
  | none =>
      ({ s with
        pools := s.pools.insert ⟨alpn, options⟩ s.shared.length
        shared := s.shared ++ [.new ⟨alpn, options⟩] } : Registry).clonePool ⟨alpn, options⟩
          s.shared.length

/-- One step.  The calls that look a pool up are one step each, since they hold the lock. -/
def step (s : Registry) : RegistryAction → Option Registry
  | .clone r => (s.options? r).map fun options => { s with clones := s.clones ++ [some options] }
  | .withPoolOptions r options =>
      (s.options? r).map fun _ => { s with clones := s.clones.set r (some options) }
  | .drop r => (s.options? r).map fun _ => { s with clones := s.clones.set r none }
  | .pool r alpn => (s.options? r).bind fun options => s.poolForAlpn alpn options
  | .start r alpn calls =>
      (s.options? r).bind fun options =>
        s.poolForAlpn alpn ((LocatorBuilder.new options).configure calls).poolOptions
  | .handle p action =>
      if s.permits action then
        s.shared[p]?.bind fun pool =>
          (pool.handles.step action).map fun handles =>
            { s with shared := s.shared.set p { pool with handles := handles } }
      else none

/-- A new registry. -/
def system : System Registry RegistryAction where
  init :=
    { clones := [some default]
      pools := ∅
      shared := []
      lookups := [] }
  step := step

/-- The default options of the clones after a call: a clone starts with those of the registry
that it is made of. -/
def defaults (s : Registry) : RegistryAction → List (Option PoolOptions)
  | .clone r => s.clones ++ [s.options? r]
  | .withPoolOptions r options => s.clones.set r (some options)
  | .drop r => s.clones.set r none
  | .pool _ _ | .start _ _ _ | .handle _ _ => s.clones

/-- The service and the options that a call asks for: those of the clone, or what the calls of
a search make of them. -/
def asks (s : Registry) : RegistryAction → Option PoolKey
  | .pool r alpn => (s.options? r).map (PoolKey.mk alpn)
  | .start r alpn calls =>
      (s.options? r).map fun options =>
        ⟨alpn, ((LocatorBuilder.new options).configure calls).poolOptions⟩
  | _ => none

/-- The last handle of each pool is dropped after all drops of others have ended. -/
def LastDropsAlone (s : Registry) : RegistryAction → Prop
  | .handle p action => ∀ pool ∈ s.shared[p]?, pool.handles.LastDropAlone action
  | _ => True

/-! ## What a step does -/

variable {s s' : Registry}

/-- The state after a look-up that finds its pool. -/
def found (s : Registry) (key : PoolKey) (p : Nat) (pool : SharedPool) (handles : Handles) :
    Registry :=
  { s with
    shared := s.shared.set p { pool with handles := handles }
    lookups := s.lookups ++ [{ key := key, pool := p, handle := pool.handles.next }] }

/-- The state with a new pool. -/
def created (s : Registry) (key : PoolKey) : Registry :=
  { s with
    pools := s.pools.insert key s.shared.length
    shared := s.shared ++ [.new key] }

/-- What a step can do. -/
inductive Step (s : Registry) : RegistryAction → Registry → Prop
  | clones (action : RegistryAction) (clones : List (Option PoolOptions)) :
      (s.live = false → clones.any Option.isSome = false) →
      (∀ p a, action ≠ .handle p a) →
      Step s action { s with clones := clones }
  | lookup (action : RegistryAction) (key : PoolKey) (p : Nat) (pool : SharedPool)
      (handles : Handles) :
      s.live = true → (∀ p a, action ≠ .handle p a) →
      s.pools.lookup key = some p → s.shared[p]? = some pool →
      pool.handles.step (.clone 0) = some handles →
      Step s action (s.found key p pool handles)
  | create (action : RegistryAction) (key : PoolKey) (pool : SharedPool) (handles : Handles) :
      s.live = true → (∀ p a, action ≠ .handle p a) →
      s.pools.lookup key = none → (s.created key).shared[s.shared.length]? = some pool →
      pool.handles.step (.clone 0) = some handles →
      Step s action ((s.created key).found key s.shared.length pool handles)
  | handle (p : Nat) (action : HandleAction) (pool : SharedPool) (handles : Handles) :
      s.permits action = true → s.shared[p]? = some pool →
      pool.handles.step action = some handles →
      Step s (.handle p action)
        { s with shared := s.shared.set p { pool with handles := handles } }

theorem live_of_options? {r : Nat} {options : PoolOptions} (h : s.options? r = some options) :
    s.live = true := by
  rcases Option.join_eq_some_iff.mp h with hget
  exact List.any_eq_true.mpr ⟨some options, List.mem_of_getElem? hget, rfl⟩

theorem clonePool_eq_some {key : PoolKey} {p : Nat} (h : s.clonePool key p = some s') :
    ∃ pool handles, s.shared[p]? = some pool ∧ pool.handles.step (.clone 0) = some handles ∧
      s' = s.found key p pool handles := by
  rcases Option.bind_eq_some_iff.mp h with ⟨pool, hpool, h⟩
  rcases Option.map_eq_some_iff.mp h with ⟨handles, hhandles, rfl⟩
  exact ⟨pool, handles, hpool, hhandles, rfl⟩

/-- A look-up finds the pool of its key, or makes it. -/
theorem poolForAlpn_sound {action : RegistryAction} {alpn : List UInt8} {options : PoolOptions}
    (hlive : s.live = true) (haction : ∀ p a, action ≠ .handle p a)
    (h : s.poolForAlpn alpn options = some s') : Step s action s' := by
  unfold poolForAlpn at h
  split at h <;> rename_i hlookup
  · rcases clonePool_eq_some h with ⟨pool, handles, hpool, hhandles, rfl⟩
    exact .lookup action _ _ pool handles hlive haction hlookup hpool hhandles
  · rcases clonePool_eq_some h with ⟨pool, handles, hpool, hhandles, rfl⟩
    exact .create action _ pool handles hlive haction hlookup hpool hhandles

theorem step_sound {action : RegistryAction} (h : s.step action = some s') : Step s action s' := by
  cases action with
  | clone r =>
      rcases Option.map_eq_some_iff.mp h with ⟨options, hoptions, rfl⟩
      refine .clones _ _ (fun hdead => ?_) nofun
      exact absurd (live_of_options? hoptions) (by simp [hdead])
  | withPoolOptions r options =>
      rcases Option.map_eq_some_iff.mp h with ⟨was, hoptions, rfl⟩
      refine .clones _ _ (fun hdead => ?_) nofun
      exact absurd (live_of_options? hoptions) (by simp [hdead])
  | drop r =>
      rcases Option.map_eq_some_iff.mp h with ⟨was, hoptions, rfl⟩
      refine .clones _ _ (fun hdead => ?_) nofun
      exact absurd (live_of_options? hoptions) (by simp [hdead])
  | pool r alpn =>
      rcases Option.bind_eq_some_iff.mp h with ⟨options, hoptions, h⟩
      exact poolForAlpn_sound (live_of_options? hoptions) nofun h
  | start r alpn calls =>
      rcases Option.bind_eq_some_iff.mp h with ⟨options, hoptions, h⟩
      exact poolForAlpn_sound (live_of_options? hoptions) nofun h
  | handle p action =>
      simp only [step] at h
      split at h <;> rename_i hpermits
      · rcases Option.bind_eq_some_iff.mp h with ⟨pool, hpool, h⟩
        rcases Option.map_eq_some_iff.mp h with ⟨handles, hhandles, rfl⟩
        exact .handle p action pool handles hpermits hpool hhandles
      · contradiction

/-- A look-up records what it was asked for. -/
theorem poolForAlpn_records {alpn : List UInt8} {options : PoolOptions}
    (h : s.poolForAlpn alpn options = some s') : s'.clones = s.clones ∧
      s'.lookups.map Lookup.key = s.lookups.map Lookup.key ++ [⟨alpn, options⟩] := by
  unfold poolForAlpn at h
  split at h <;> rcases clonePool_eq_some h with ⟨pool, handles, -, -, rfl⟩ <;> simp [found]

/-- A call sets the options of its clone, or it looks up what it asks for. -/
theorem records_of_step {action : RegistryAction} (h : s.step action = some s') :
    s'.clones = s.defaults action ∧
      s'.lookups.map Lookup.key = s.lookups.map Lookup.key ++ (s.asks action).toList := by
  cases action with
  | clone r | withPoolOptions r options | drop r =>
      rcases Option.map_eq_some_iff.mp h with ⟨options, hoptions, rfl⟩
      simp [defaults, asks, hoptions]
  | pool r alpn | start r alpn calls =>
      rcases Option.bind_eq_some_iff.mp h with ⟨options, hoptions, h⟩
      simpa [defaults, asks, hoptions] using poolForAlpn_records h
  | handle p action =>
      simp only [step] at h
      split at h
      · rcases Option.bind_eq_some_iff.mp h with ⟨pool, -, h⟩
        rcases Option.map_eq_some_iff.mp h with ⟨handles, -, rfl⟩
        simp [defaults, asks]
      · contradiction

/-- What is handed out is a handle of the pool, and it is held. -/
theorem held_of_step {action : RegistryAction} (hstep : Step s action s') :
    ∀ l ∈ s'.lookups.drop s.lookups.length, ∃ pool, s'.shared[l.pool]? = some pool ∧
      l.handle ∈ pool.handles.held := by
  intro l hl
  cases hstep with
  | clones | handle => simp at hl
  | lookup _ key p pool handles hlive haction hlookup hpool hhandles
  | create _ key pool handles hlive haction hnew hpool hhandles =>
      have hp := (List.getElem?_eq_some_iff.mp hpool).1
      simp only [found, created, List.drop_left, List.mem_singleton] at hl
      subst hl
      exact ⟨_, List.getElem?_set_self hp, (held_of_step_clone hhandles).1⟩

/-! ## Every run -/

/-- The map has every pool that was ever made under its key, and a handle of each as long as
there is a clone of the registry; the handles of a pool are those of a run of its own, and each
of them was handed out once at most. -/
structure Inv (C : Handles → HandleAction → Prop) (s : Registry) : Prop where
  cached : ∀ key p, s.pools.lookup key = some p ↔
    ∃ pool, s.shared[p]? = some pool ∧ pool.key = key
  looked : ∀ l ∈ s.lookups, s.pools.lookup l.key = some l.pool
  handles : ∀ pool ∈ s.shared, Handles.system.ReachableWhen C pool.handles
  kept : s.live = true → ∀ pool ∈ s.shared, 0 ∈ pool.handles.held
  issued : ∀ l ∈ s.lookups, ∀ pool, s.shared[l.pool]? = some pool → l.handle < pool.handles.next
  distinct : (s.lookups.map fun l => (l.pool, l.handle)).Nodup

variable {C : Handles → HandleAction → Prop}

/-- A step with a handle of a pool changes nothing else. -/
theorem Inv.setHandles (h : Inv C s) {p : Nat} {pool : SharedPool} {action : HandleAction}
    {handles : Handles} (hpool : s.shared[p]? = some pool) (hC : C pool.handles action)
    (hstep : pool.handles.step action = some handles)
    (hkept : s.live = true → 0 ∈ handles.held) :
    Inv C { s with shared := s.shared.set p { pool with handles := handles } } := by
  have hp : p < s.shared.length := (List.getElem?_eq_some_iff.mp hpool).1
  constructor
  case cached =>
    intro key q
    refine (h.cached key q).trans ?_
    by_cases hq : q = p
    · subst hq
      simp only [List.getElem?_set_self hp, hpool, Option.some.injEq, exists_eq_left']
      rfl
    · rw [List.getElem?_set_ne (Ne.symm hq)]
  case looked => exact h.looked
  case handles =>
    intro pool' hpool'
    rcases List.mem_or_eq_of_mem_set hpool' with hmem | rfl
    · exact h.handles pool' hmem
    · exact .step (h.handles pool (List.mem_of_getElem? hpool)) hC hstep
  case kept =>
    intro hlive pool' hpool'
    rcases List.mem_or_eq_of_mem_set hpool' with hmem | rfl
    · exact h.kept hlive pool' hmem
    · exact hkept hlive
  case issued =>
    intro l hl pool' hpool'
    by_cases hq : p = l.pool
    · subst hq
      rw [List.getElem?_set_self hp] at hpool'
      obtain rfl := Option.some.inj hpool'
      exact Nat.lt_of_lt_of_le (h.issued l hl pool hpool) (next_le_of_step hstep)
    · rw [List.getElem?_set_ne hq] at hpool'
      exact h.issued l hl pool' hpool'
  case distinct => exact h.distinct

/-- A new pool is that of its key. -/
theorem Inv.create (h : Inv C s) {key : PoolKey} (hnew : s.pools.lookup key = none) :
    Inv C (s.created key) := by
  have hbound : ∀ k p, s.pools.lookup k = some p → p < s.shared.length := by
    intro k p hp
    rcases (h.cached k p).mp hp with ⟨pool, hpool, -⟩
    exact (List.getElem?_eq_some_iff.mp hpool).1
  constructor
  case cached =>
    intro k p
    by_cases hk : k = key
    · subst hk
      simp only [created, AList.lookup_insert, Option.some.injEq]
      constructor
      · rintro rfl
        exact ⟨.new k, List.getElem?_concat_length, rfl⟩
      · rintro ⟨pool, hpool, hkey⟩
        rcases Nat.lt_or_ge p s.shared.length with hlt | hge
        · rw [List.getElem?_append_left hlt] at hpool
          rw [(h.cached k p).mpr ⟨pool, hpool, hkey⟩] at hnew
          contradiction
        · have hle := (List.getElem?_eq_some_iff.mp hpool).1
          simp only [List.length_append, List.length_singleton] at hle
          omega
    · simp only [created, AList.lookup_insert_ne hk, h.cached k p]
      constructor
      · rintro ⟨pool, hpool, hkey⟩
        have hp := (List.getElem?_eq_some_iff.mp hpool).1
        exact ⟨pool, (List.getElem?_append_left hp).trans hpool, hkey⟩
      · rintro ⟨pool, hpool, hkey⟩
        rcases Nat.lt_or_ge p s.shared.length with hlt | hge
        · exact ⟨pool, (List.getElem?_append_left hlt).symm.trans hpool, hkey⟩
        · rw [List.getElem?_append_right hge] at hpool
          obtain rfl : .new key = pool := List.mem_singleton.mp (List.mem_of_getElem? hpool) ▸ rfl
          exact absurd hkey.symm hk
  case looked =>
    intro l hl
    have hlookup := h.looked l hl
    have hne : l.key ≠ key := by
      rintro rfl
      rw [hlookup] at hnew
      contradiction
    simpa only [created, AList.lookup_insert_ne hne] using hlookup
  case handles =>
    intro pool hpool
    rcases List.mem_append.mp hpool with hpool | hpool
    · exact h.handles pool hpool
    · obtain rfl := List.mem_singleton.mp hpool
      exact .init
  case kept =>
    intro hlive pool hpool
    rcases List.mem_append.mp hpool with hpool | hpool
    · exact h.kept hlive pool hpool
    · obtain rfl := List.mem_singleton.mp hpool
      exact Finset.mem_singleton_self 0
  case issued =>
    intro l hl pool hpool
    have hlt := hbound _ _ (h.looked l hl)
    exact h.issued l hl pool ((List.getElem?_append_left hlt).symm.trans hpool)
  case distinct => exact h.distinct

/-- A look-up that finds its pool hands out a clone. -/
theorem Inv.find (h : Inv C s) {key : PoolKey} {p : Nat} {pool : SharedPool} {handles : Handles}
    (hlookup : s.pools.lookup key = some p) (hpool : s.shared[p]? = some pool)
    (hC : C pool.handles (.clone 0)) (hstep : pool.handles.step (.clone 0) = some handles) :
    Inv C (s.found key p pool handles) := by
  have hkept : s.live = true → 0 ∈ handles.held := by
    intro hlive
    have hheld := h.kept hlive pool (List.mem_of_getElem? hpool)
    exact mem_held_of_step hstep hheld (by simp)
  have hset := h.setHandles hpool hC hstep hkept
  refine ⟨hset.cached, ?_, hset.handles, hset.kept, ?_, ?_⟩
  · intro l hl
    rcases List.mem_append.mp hl with hl | hl
    · exact h.looked l hl
    · obtain rfl := List.mem_singleton.mp hl
      exact hlookup
  · intro l hl pool' hpool'
    rcases List.mem_append.mp hl with hl | hl
    · exact hset.issued l hl pool' hpool'
    · obtain rfl := List.mem_singleton.mp hl
      have hp := (List.getElem?_eq_some_iff.mp hpool).1
      have hsame := (List.getElem?_set_self hp).symm.trans hpool'
      obtain rfl := Option.some.inj hsame
      exact (held_of_step_clone hstep).2
  · -- the handles of this pool that were handed out before have older names
    simp only [found, List.map_append, List.map_singleton]
    refine List.nodup_append.mpr ⟨h.distinct, List.nodup_singleton _, ?_⟩
    intro pair hpair other hother heq
    rcases List.mem_map.mp hpair with ⟨l, hl, rfl⟩
    obtain rfl := List.mem_singleton.mp hother
    obtain ⟨hsame, hhandle⟩ := Prod.mk.inj heq
    have hlt := h.issued l hl pool (hsame ▸ hpool)
    omega

/-- Every step keeps the invariant. -/
theorem Inv.step (h : Inv C s) {action : RegistryAction} (hclone : ∀ handles i, C handles (.clone i))
    (hC : ∀ p a, action = .handle p a → ∀ pool ∈ s.shared[p]?, C pool.handles a)
    (hstep : Step s action s') : Inv C s' := by
  cases hstep with
  | clones _ clones hdead haction =>
      refine ⟨h.cached, h.looked, h.handles, fun hlive => h.kept ?_, h.issued, h.distinct⟩
      by_contra hnot
      rw [live, hdead (Bool.eq_false_iff.mpr hnot)] at hlive
      contradiction
  | lookup _ key p pool handles hlive haction hlookup hpool hhandles =>
      exact h.find hlookup hpool (hclone _ _) hhandles
  | create _ key pool handles hlive haction hnew hpool hhandles =>
      refine (h.create hnew).find ?_ hpool (hclone _ _) hhandles
      exact AList.lookup_insert s.pools
  | handle p action pool handles hpermits hpool hhandles =>
      refine h.setHandles hpool (hC p action rfl pool hpool) hhandles fun hlive => ?_
      refine mem_held_of_step hhandles (h.kept hlive pool (List.mem_of_getElem? hpool)) ?_
      rintro rfl
      simp [permits, hlive] at hpermits

theorem inv_init : Inv C system.init where
  cached := by simp [system]
  looked := nofun
  handles := nofun
  kept := nofun
  issued := nofun
  distinct := List.nodup_nil

theorem inv_of_reachable (hs : system.Reachable s) : Inv (fun _ _ => True) s :=
  hs.invariant inv_init fun _ _ _ _ hinv _ hstep =>
    hinv.step (fun _ _ => trivial) (fun _ _ _ _ _ => trivial) (step_sound hstep)

theorem inv_of_lastDropsAlone (hs : system.ReachableWhen LastDropsAlone s) :
    Inv Handles.LastDropAlone s := by
  refine hs.invariant inv_init ?_
  intro s s' action _ hinv hcond hstep
  refine hinv.step (fun _ _ => trivial) ?_ (step_sound hstep)
  rintro p a rfl
  exact hcond

/-- A look-up by a clone of the registry always succeeds. -/
theorem Inv.isSome_poolForAlpn (h : Inv C s) (hlive : s.live = true) (alpn : List UInt8)
    (options : PoolOptions) : (s.poolForAlpn alpn options).isSome = true := by
  have hclone : ∀ handles : Handles, 0 ∈ handles.held → (handles.step (.clone 0)).isSome = true :=
    fun handles hheld => by simp [Handles.step, hheld]
  unfold poolForAlpn
  split <;> rename_i hlookup
  · rcases (h.cached _ _).mp hlookup with ⟨pool, hpool, -⟩
    have hsome := hclone pool.handles (h.kept hlive pool (List.mem_of_getElem? hpool))
    simpa [clonePool, hpool] using hsome
  · have hsome := hclone (SharedPool.new ⟨alpn, options⟩).handles (Finset.mem_singleton_self 0)
    simpa [clonePool] using hsome

end Registry

open Registry

/-- However the clones of a registry and the handles of its pools are used: a call that looks a
pool up asks for its service with the options of its clone, or with those that the search
makes of them, and gets a handle of its own that is held; two callers get handles of the same
pool exactly if they ask for the same service with the same options, and this pool is one of
that service with these options; no pool is shut down while the registry or a handle is left;
and every look-up succeeds.  A search that sets neither the timeout of an attempt nor its pool
options shares the pool that {lit}`pool` gives, any other has a pool that takes as long to
connect as the search gives an attempt in all.  If the last handle of each pool is dropped
alone, every pool without handles has been shut down. -/
theorem registry_shares_pools {s : Registry} (hs : system.Reachable s) :
    (∀ action s', s.step action = some s' → s'.clones = s.defaults action ∧
        s'.lookups.map Lookup.key = s.lookups.map Lookup.key ++ (s.asks action).toList ∧
        ∀ l ∈ s'.lookups.drop s.lookups.length, ∃ pool, s'.shared[l.pool]? = some pool ∧
          l.handle ∈ pool.handles.held) ∧
      (s.lookups.map fun l => (l.pool, l.handle)).Nodup ∧
      (∀ l ∈ s.lookups, ∀ l' ∈ s.lookups, l.pool = l'.pool ↔ l.key = l'.key) ∧
      (∀ l ∈ s.lookups, ∃ pool, s.shared[l.pool]? = some pool ∧ pool.key = l.key) ∧
      (∀ pool ∈ s.shared, s.live = true ∨ pool.handles.held.Nonempty →
        pool.handles.closed = false) ∧
      (∀ r options, s.options? r = some options → ∀ alpn calls,
        (s.step (.pool r alpn)).isSome = true ∧ (s.step (.start r alpn calls)).isSome = true ∧
          ((∀ c ∈ calls, c.neutral = true) →
            s.step (.start r alpn calls) = s.step (.pool r alpn)) ∧
          ((∃ c ∈ calls, c.neutral = false) →
            ((LocatorBuilder.new options).configure calls).timeoutEach =
              ((LocatorBuilder.new options).configure calls).poolOptions.connectTimeout)) ∧
      (system.ReachableWhen LastDropsAlone s → ∀ pool ∈ s.shared,
        pool.handles.held = ∅ → pool.handles.closed = true) := by
  have hinv := inv_of_reachable hs
  refine ⟨?_, hinv.distinct, ?_, ?_, ?_, ?_, ?_⟩
  · intro action s' hstep
    rcases records_of_step hstep with ⟨hclones, hkeys⟩
    exact ⟨hclones, hkeys, held_of_step (step_sound hstep)⟩
  · intro l hl l' hl'
    have hlookup := hinv.looked l hl
    have hlookup' := hinv.looked l' hl'
    constructor
    · intro hsame
      rcases (hinv.cached _ _).mp hlookup with ⟨pool, hpool, hkey⟩
      rcases (hinv.cached _ _).mp hlookup' with ⟨pool', hpool', hkey'⟩
      rw [hsame, hpool'] at hpool
      obtain rfl := Option.some.inj hpool
      exact hkey.symm.trans hkey'
    · intro hsame
      rw [hsame, hlookup'] at hlookup
      exact (Option.some.inj hlookup).symm
  · intro l hl
    exact (hinv.cached _ _).mp (hinv.looked l hl)
  · intro pool hpool hleft
    rw [Bool.eq_false_iff]
    intro hclosed
    have hnone := Handles.held_eq_empty_of_closed (hinv.handles pool hpool) hclosed
    rcases hleft with hlive | hheld
    · exact Finset.notMem_empty 0 (hnone ▸ hinv.kept hlive pool hpool)
    · exact hheld.ne_empty hnone
  · intro r options hoptions alpn calls
    have hlive := live_of_options? hoptions
    simp only [step, hoptions, Option.bind_some]
    refine ⟨hinv.isSome_poolForAlpn hlive _ _, hinv.isSome_poolForAlpn hlive _ _, ?_,
      ((LocatorBuilder.new options).configured calls).2⟩
    intro hneutral
    rw [(((LocatorBuilder.new options).configured calls).1 hneutral).2]
    rfl
  · intro halone pool hpool hnone
    exact Handles.closed_of_held_eq_empty ((inv_of_lastDropsAlone halone).handles pool hpool) hnone

/-- A clone of the registry searches twice for a service whose pool is held already, once with
a timeout of its own. -/
def twoSearches : List RegistryAction :=
  [.pool 0 [1], .clone 0, .start 1 [1] [.limit 2], .start 1 [1] [.timeoutEach 1000],
    .handle 0 (.check 1)]

/-- The first search shares the pool. -/
theorem registry_shares_pools_searched :
    ∃ s : Registry, system.Reachable s ∧ s.lookups.map Lookup.pool = [0, 0, 1] ∧
      ∀ pool ∈ s.shared, s.live = true ∨ pool.handles.held.Nonempty →
        pool.handles.closed = false := by
  obtain ⟨s, hs, hpools⟩ := System.exists_of_runWhen_any (S := system) (C := fun _ _ => True)
    (l := twoSearches) (P := fun s => s.lookups.map Lookup.pool == [0, 0, 1]) (by decide)
  exact ⟨s, hs, beq_iff_eq.mp hpools, (registry_shares_pools hs).2.2.2.2.1⟩

end IrohTransport.Swarm
