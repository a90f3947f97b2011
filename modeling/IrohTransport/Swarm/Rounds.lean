import IrohTransport.Lib.Interval
import IrohTransport.Lib.Runs
import IrohTransport.Swarm.Discovery

/-!
# The rounds of a publisher

{lit}`DhtPublisher::run` publishes every service into every one of its shards, one after
another, and then again at every tick of an interval that skips the ticks missed while a
round was under way, until it hears of the shutdown.  The DHT may take as long as it likes
for each of the calls, and any of them may fail.

The look-ups of a feed are proved to find a publisher that is {lit}`Steady`.  Here the loop
itself is shown to be steady, as far as it depends on the loop.

Main results:

- Theorem {lit}`publisher_rounds_cover_every_shard`: what the loop publishes, in which order,
  and how fast, whatever the DHT does.
- Theorem {lit}`prompt_publisher_is_steady`: on a DHT that answers at once the loop keeps the
  schedule of a steady publisher.
-/

namespace IrohTransport.Swarm

variable {SecretKey PublicKey Signature Digest : Type}

/-! ## The loop -/

/-- A reading of the system clock in milliseconds. -/
structure Clock where
  millis : Nat
  bound : millis / 1000 + 120 < 2 ^ 64

/-- {lit}`unix_timestamp_secs`. -/
def Clock.unixTimestampSecs (self : Clock) : UnixTime where
  secs := UInt64.ofNat (self.millis / 1000)
  bound := by
    have hbound := self.bound
    rw [UInt64.toNat_ofNat_of_lt' (by rw [UInt64.size]; omega)]
    exact hbound

@[simp] theorem Clock.toNat_unixTimestampSecs (self : Clock) :
    self.unixTimestampSecs.secs.toNat = self.millis / 1000 := by
  have hbound := self.bound
  exact UInt64.toNat_ofNat_of_lt' (by rw [UInt64.size]; omega)

/-- Publishes service records to the DHT on a fixed interval.  A zero interval makes
{lit}`tokio::time::interval` panic. -/
structure DhtPublisher (SecretKey : Type) where
  secretKey : SecretKey
  services : List (List UInt8)
  tags : List String
  publishInterval : Nat
  positive : 0 < publishInterval

/-- What a publisher is told besides its key. -/
structure DhtPublisherConfig where
  tags : List String
  publishInterval : Nat
  positive : 0 < publishInterval

instance : Inhabited DhtPublisherConfig where
  default :=
    { tags := []
      publishInterval := 30000
      positive := Nat.succ_pos 29999 }

namespace DhtPublisher

/-- Create a publisher for a node. -/
def new (secretKey : SecretKey) (config : DhtPublisherConfig) : DhtPublisher SecretKey where
  secretKey := secretKey
  services := []
  tags := config.tags
  publishInterval := config.publishInterval
  positive := config.positive

/-- Register a service ALPN to publish. -/
def addService (self : DhtPublisher SecretKey) (alpn : List UInt8) : DhtPublisher SecretKey :=
  { self with services := self.services ++ [alpn] }

/-- What one {lit}`publish_all` goes through. -/
def shards [LinearOrder Digest] (keys : Keys SecretKey PublicKey Signature)
    (sha256 : List UInt8 → Digest) (self : DhtPublisher SecretKey) : List (List UInt8 × UInt8) :=
  self.services.flatMap fun alpn =>
    (replicaShards sha256 (keys.asBytes (keys.publicKey self.secretKey)) alpn).map fun shard =>
      (alpn, shard)

/-- The call that publishes a service into a shard. -/
def publication (self : DhtPublisher SecretKey) (now : Clock) (alpn : List UInt8)
    (shard : UInt8) : Publication SecretKey where
  call := { secretKey := self.secretKey, tags := self.tags, publishedAt := now.unixTimestampSecs }
  alpn := alpn
  shard := shard

@[simp] theorem time_publication (self : DhtPublisher SecretKey) (now : Clock)
    (alpn : List UInt8) (shard : UInt8) :
    (self.publication now alpn shard).time = now.millis / 1000 :=
  now.toNat_unixTimestampSecs

end DhtPublisher

/-- Where the loop stands. -/
inductive RunPc where
  /-- In {lit}`publish_all`, with the shards that are still to come. -/
  | publishing (rest : List (List UInt8 × UInt8))
  /-- The interval has been created, its first tick has not been taken. -/
  | firstTick
  /-- In the {lit}`select!`. -/
  | waiting
  | stopped
deriving DecidableEq

/-- What is still to come of the round. -/
def RunPc.rest : RunPc → List (List UInt8 × UInt8)
  | .publishing rest => rest
  | _ => []

/-- The task of a publisher. -/
structure PublisherTask (SecretKey : Type) where
  pc : RunPc
  now : Clock
  interval : Option Interval
  /-- The shutdown was signalled, or its sender dropped. -/
  signalled : Bool
  published : List (Publication SecretKey)
  /-- When the rounds began. -/
  rounds : List Clock

/-- Time passes, the shutdown is signalled, or the task moves; its {lit}`select!` takes the
tick or the signal. -/
inductive RunAction where
  | advance (now : Clock)
  | signal
  | turn
  | tick
  | shutdown

namespace PublisherTask

variable [LinearOrder Digest] (keys : Keys SecretKey PublicKey Signature)
  (sha256 : List UInt8 → Digest) (publisher : DhtPublisher SecretKey)

/-- A task that begins its first round. -/
def start (now : Clock) : PublisherTask SecretKey where
  pc := .publishing (publisher.shards keys sha256)
  now := now
  interval := none
  signalled := false
  published := []
  rounds := [now]

/-- One step. -/
def step (s : PublisherTask SecretKey) : RunAction → Option (PublisherTask SecretKey)
  | .advance now => if s.now.millis ≤ now.millis then some { s with now := now } else none
  | .signal => some { s with signalled := true }
  | .turn =>
      match s.pc with
      | .publishing ((alpn, shard) :: rest) =>
          some { s with
            pc := .publishing rest
            published := s.published ++
              [publisher.publication s.now alpn shard] }
      | .publishing [] =>
          match s.interval with
          | none =>
              some { s with
                pc := .firstTick
                interval := some (.new publisher.publishInterval publisher.positive s.now.millis) }
          | some _ => some { s with pc := .waiting }
      | .firstTick =>
          (s.interval.bind fun timer => timer.tick s.now.millis).map fun timer =>
            { s with pc := .waiting, interval := some timer }
      | .waiting | .stopped => none
  | .tick =>
      match s.pc with
      | .waiting =>
          (s.interval.bind fun timer => timer.tick s.now.millis).map fun timer =>
            { s with
              pc := .publishing (publisher.shards keys sha256)
              interval := some timer
              rounds := s.rounds ++ [s.now] }
      | _ => none
  | .shutdown =>
      match s.pc with
      | .waiting => if s.signalled then some { s with pc := .stopped } else none
      | _ => none

/-- The runs of a publisher that is started at a time. -/
def system (now : Clock) : System (PublisherTask SecretKey) RunAction where
  init := start keys sha256 publisher now
  step := step keys sha256 publisher

/-! ## What a step does -/

variable {keys sha256 publisher} {s s' : PublisherTask SecretKey}

/-- What a step can do. -/
inductive Step (keys : Keys SecretKey PublicKey Signature) (sha256 : List UInt8 → Digest)
    (publisher : DhtPublisher SecretKey) (s : PublisherTask SecretKey) :
    RunAction → PublisherTask SecretKey → Prop
  | advance (now : Clock) : s.now.millis ≤ now.millis →
      Step keys sha256 publisher s (.advance now) { s with now := now }
  | signal : Step keys sha256 publisher s .signal { s with signalled := true }
  | publish (alpn : List UInt8) (shard : UInt8) (rest : List (List UInt8 × UInt8)) :
      s.pc = .publishing ((alpn, shard) :: rest) →
      Step keys sha256 publisher s .turn
        { s with
          pc := .publishing rest
          published := s.published ++ [publisher.publication s.now alpn shard] }
  | create : s.pc = .publishing [] → s.interval = none →
      Step keys sha256 publisher s .turn
        { s with
          pc := .firstTick
          interval := some (.new publisher.publishInterval publisher.positive s.now.millis) }
  | wait (timer : Interval) : s.pc = .publishing [] → s.interval = some timer →
      Step keys sha256 publisher s .turn { s with pc := .waiting }
  | firstTick (timer timer' : Interval) : s.pc = .firstTick → s.interval = some timer →
      timer.tick s.now.millis = some timer' →
      Step keys sha256 publisher s .turn { s with pc := .waiting, interval := some timer' }
  | tick (timer timer' : Interval) : s.pc = .waiting → s.interval = some timer →
      timer.tick s.now.millis = some timer' →
      Step keys sha256 publisher s .tick
        { s with
          pc := .publishing (publisher.shards keys sha256)
          interval := some timer'
          rounds := s.rounds ++ [s.now] }
  | shutdown : s.pc = .waiting → s.signalled = true →
      Step keys sha256 publisher s .shutdown { s with pc := .stopped }

private theorem ticked_eq_some {interval : Option Interval} {now : Nat}
    {f : Interval → PublisherTask SecretKey}
    (h : (interval.bind fun timer => timer.tick now).map f = some s') :
    ∃ timer timer', interval = some timer ∧ timer.tick now = some timer' ∧ f timer' = s' := by
  rcases Option.map_eq_some_iff.mp h with ⟨timer', hbind, hf⟩
  rcases Option.bind_eq_some_iff.mp hbind with ⟨timer, hinterval, htick⟩
  exact ⟨timer, timer', hinterval, htick, hf⟩

theorem step_sound {action : RunAction} (h : s.step keys sha256 publisher action = some s') :
    Step keys sha256 publisher s action s' := by
  cases action with
  | advance now =>
      simp only [step] at h
      split at h <;> rename_i hle
      · exact Option.some.inj h ▸ .advance now hle
      · contradiction
  | signal => exact Option.some.inj h ▸ .signal
  | turn =>
      simp only [step] at h
      split at h <;> rename_i hpc
      · exact Option.some.inj h ▸ .publish _ _ _ hpc
      · split at h <;> rename_i hinterval
        · exact Option.some.inj h ▸ .create hpc hinterval
        · exact Option.some.inj h ▸ .wait _ hpc hinterval
      · rcases ticked_eq_some h with ⟨timer, timer', hinterval, htick, rfl⟩
        exact .firstTick timer timer' hpc hinterval htick
      · contradiction
      · contradiction
  | tick =>
      simp only [step] at h
      split at h <;> rename_i hpc
      · rcases ticked_eq_some h with ⟨timer, timer', hinterval, htick, rfl⟩
        exact .tick timer timer' hpc hinterval htick
      · contradiction
  | shutdown =>
      simp only [step] at h
      split at h <;> rename_i hpc
      · split at h <;> rename_i hsignalled
        · exact Option.some.inj h ▸ .shutdown hpc hsignalled
        · contradiction
      · contradiction

/-! ## Every run -/

/-- The rounds go through all shards in their order, each call is the publisher's own at the
time it is made, and there is at most one round in a period. -/
structure RunInv (keys : Keys SecretKey PublicKey Signature) (sha256 : List UInt8 → Digest)
    (publisher : DhtPublisher SecretKey) (start : Clock) (s : PublisherTask SecretKey) :
    Prop where
  covered : s.published.map (fun p => (p.alpn, p.shard)) ++ s.pc.rest =
    (List.replicate s.rounds.length (publisher.shards keys sha256)).flatten
  own : ∀ p ∈ s.published, p.call.secretKey = publisher.secretKey ∧
    p.call.tags = publisher.tags ∧ p.time ≤ s.now.millis / 1000
  ordered : s.published.Pairwise fun p q => p.time ≤ q.time
  begun : start.millis ≤ s.now.millis
  first : s.interval = none → s.rounds.length = 1 ∧ ∃ rest, s.pc = .publishing rest
  created : s.pc = .firstTick → s.rounds.length = 1 ∧
    ∃ timer, s.interval = some timer ∧ timer.period = publisher.publishInterval ∧
      start.millis ≤ timer.deadline ∧ timer.deadline ≤ s.now.millis
  paced : s.pc ≠ .firstTick → ∀ timer, s.interval = some timer →
    timer.period = publisher.publishInterval ∧
      start.millis + s.rounds.length * publisher.publishInterval ≤ timer.deadline ∧
      timer.deadline ≤ s.now.millis + publisher.publishInterval
  stopped : s.pc = .stopped → s.signalled = true

theorem runInv_start (now : Clock) :
    RunInv keys sha256 publisher now (start keys sha256 publisher now) where
  covered := by simp [start, RunPc.rest]
  own := by simp [start]
  ordered := .nil
  begun := Nat.le_refl _
  first := fun _ => ⟨rfl, _, rfl⟩
  created := fun hpc => nomatch hpc
  paced := fun _ _ hinterval => nomatch hinterval
  stopped := fun hpc => nomatch hpc

/-- Every step keeps the invariant. -/
theorem RunInv.step {start : Clock} {action : RunAction}
    (h : RunInv keys sha256 publisher start s) (hstep : Step keys sha256 publisher s action s') :
    RunInv keys sha256 publisher start s' := by
  cases hstep with
  | advance now hle =>
      exact
        { covered := h.covered
          own := fun p hp => by
            rcases h.own p hp with ⟨hkey, htags, htime⟩
            exact ⟨hkey, htags, htime.trans (Nat.div_le_div_right hle)⟩
          ordered := h.ordered
          begun := h.begun.trans hle
          first := h.first
          created := fun hpc => by
            rcases h.created hpc with ⟨hone, timer, hinterval, hperiod, hlo, hhi⟩
            exact ⟨hone, timer, hinterval, hperiod, hlo, hhi.trans hle⟩
          paced := fun hpc timer hinterval => by
            rcases h.paced hpc timer hinterval with ⟨hperiod, hlo, hhi⟩
            exact ⟨hperiod, hlo, hhi.trans (Nat.add_le_add_right hle _)⟩
          stopped := h.stopped }
  | signal =>
      exact
        { covered := h.covered
          own := h.own
          ordered := h.ordered
          begun := h.begun
          first := h.first
          created := h.created
          paced := h.paced
          stopped := fun _ => rfl }
  | publish alpn shard rest hpc =>
      constructor
      case covered =>
        have hcovered := h.covered
        rw [hpc] at hcovered
        simpa [RunPc.rest, DhtPublisher.publication] using hcovered
      case own =>
        intro p hp
        rcases List.mem_append.mp hp with hp | hp
        · exact h.own p hp
        · obtain rfl := List.mem_singleton.mp hp
          exact ⟨rfl, rfl, by rw [DhtPublisher.time_publication]⟩
      case ordered =>
        refine List.pairwise_append.mpr ⟨h.ordered, List.pairwise_singleton _ _, ?_⟩
        intro p hp q hq
        obtain rfl := List.mem_singleton.mp hq
        rw [DhtPublisher.time_publication]
        exact (h.own p hp).2.2
      case begun => exact h.begun
      case first => exact fun hinterval => ⟨(h.first hinterval).1, rest, rfl⟩
      case created => exact fun hfirst => nomatch hfirst
      case paced => exact fun _ => h.paced (by simp [hpc])
      case stopped => exact fun hstopped => nomatch hstopped
  | create hpc hinterval =>
      constructor
      case covered =>
        have hcovered := h.covered
        rw [hpc] at hcovered
        exact hcovered
      case own => exact h.own
      case ordered => exact h.ordered
      case begun => exact h.begun
      case first => exact fun hnone => nomatch hnone
      case created =>
        exact fun _ => ⟨(h.first hinterval).1, _, rfl, rfl, h.begun, Nat.le_refl _⟩
      case paced => exact fun hfirst => (hfirst rfl).elim
      case stopped => exact fun hstopped => nomatch hstopped
  | wait timer hpc hinterval =>
      constructor
      case covered =>
        have hcovered := h.covered
        rw [hpc] at hcovered
        exact hcovered
      case own => exact h.own
      case ordered => exact h.ordered
      case begun => exact h.begun
      case first =>
        intro hnone
        exact nomatch hinterval.symm.trans hnone
      case created => exact fun hfirst => nomatch hfirst
      case paced => exact fun _ => h.paced (by simp [hpc])
      case stopped => exact fun hstopped => nomatch hstopped
  | firstTick timer timer' hpc hinterval htick =>
      rcases h.created hpc with ⟨hone, timer₀, hinterval₀, hperiod, hlo, hhi⟩
      obtain rfl := Option.some.inj (hinterval.symm.trans hinterval₀)
      rcases Interval.tick_eq_some htick with ⟨hdue, hperiod', hfuture, hsoon, skipped, hskip⟩
      have hstep : timer.period ≤ (skipped + 1) * timer.period := by
        rw [Nat.succ_mul]
        exact Nat.le_add_left _ _
      constructor
      case covered =>
        have hcovered := h.covered
        rw [hpc] at hcovered
        exact hcovered
      case own => exact h.own
      case ordered => exact h.ordered
      case begun => exact h.begun
      case first => exact fun hnone => nomatch hnone
      case created => exact fun hfirst => nomatch hfirst
      case paced =>
        intro _ timer₁ hset
        obtain rfl := Option.some.inj hset
        refine ⟨hperiod'.trans hperiod, ?_, hperiod ▸ hsoon⟩
        rw [hone, Nat.one_mul, ← hperiod]
        omega
      case stopped => exact fun hstopped => nomatch hstopped
  | tick timer timer' hpc hinterval htick =>
      rcases h.paced (by simp [hpc]) timer hinterval with ⟨hperiod, hlo, hhi⟩
      rcases Interval.tick_eq_some htick with ⟨hdue, hperiod', hfuture, hsoon, skipped, hskip⟩
      have hstep : timer.period ≤ (skipped + 1) * timer.period := by
        rw [Nat.succ_mul]
        exact Nat.le_add_left _ _
      constructor
      case covered =>
        have hcovered : s.published.map (fun p => (p.alpn, p.shard)) =
            (List.replicate s.rounds.length (publisher.shards keys sha256)).flatten := by
          simpa [hpc, RunPc.rest] using h.covered
        simp only [RunPc.rest, hcovered, List.length_append, List.length_singleton,
          List.replicate_succ', List.flatten_append, List.flatten_singleton]
      case own => exact h.own
      case ordered => exact h.ordered
      case begun => exact h.begun
      case first => exact fun hnone => nomatch hnone
      case created => exact fun hfirst => nomatch hfirst
      case paced =>
        intro _ timer₁ hset
        obtain rfl := Option.some.inj hset
        refine ⟨hperiod'.trans hperiod, ?_, hperiod ▸ hsoon⟩
        simp only [List.length_append, List.length_singleton, Nat.succ_mul]
        omega
      case stopped => exact fun hstopped => nomatch hstopped
  | shutdown hpc hsignalled =>
      constructor
      case covered =>
        have hcovered := h.covered
        rw [hpc] at hcovered
        exact hcovered
      case own => exact h.own
      case ordered => exact h.ordered
      case begun => exact h.begun
      case first =>
        intro hnone
        rcases h.first hnone with ⟨-, rest, hpublishing⟩
        rw [hpc] at hpublishing
        contradiction
      case created => exact fun hfirst => nomatch hfirst
      case paced => exact fun _ => h.paced (by simp [hpc])
      case stopped => exact fun _ => hsignalled

theorem runInv_of_reachable {now : Clock}
    (hs : (system keys sha256 publisher now).Reachable s) : RunInv keys sha256 publisher now s :=
  hs.invariant (runInv_start now) fun _ _ _ _ hinv _ hstep => hinv.step (step_sound hstep)

/-- There is at most one round in a period. -/
theorem RunInv.pace {start : Clock} (h : RunInv keys sha256 publisher start s) :
    start.millis + s.rounds.length * publisher.publishInterval ≤
      s.now.millis + publisher.publishInterval := by
  have hbegun := h.begun
  have hone : s.rounds.length = 1 → start.millis + s.rounds.length * publisher.publishInterval ≤
      s.now.millis + publisher.publishInterval := by
    intro hone
    rw [hone, Nat.one_mul]
    omega
  by_cases hpc : s.pc = .firstTick
  · exact hone (h.created hpc).1
  · cases hinterval : s.interval with
    | none => exact hone (h.first hinterval).1
    | some timer =>
        rcases h.paced hpc timer hinterval with ⟨-, hlo, hhi⟩
        exact hlo.trans hhi

/-- A stopped task stays silent. -/
theorem silent_of_stopped {action : RunAction} (hpc : s.pc = .stopped)
    (h : s.step keys sha256 publisher action = some s') :
    s'.pc = .stopped ∧ s'.published = s.published := by
  cases step_sound h with
  | advance now hle => exact ⟨hpc, rfl⟩
  | signal => exact ⟨hpc, rfl⟩
  | publish _ _ _ hwas | create hwas | wait _ hwas | firstTick _ _ hwas | tick _ _ hwas
  | shutdown hwas =>
      rw [hpc] at hwas
      contradiction

/-- A task in a round or before its first tick can move; a task that waits has a tick ahead of
it within a period, and can take it from then on. -/
theorem exists_move {start : Clock} (h : RunInv keys sha256 publisher start s)
    (hpc : s.pc ≠ .stopped) :
    (s.step keys sha256 publisher .turn).isSome = true ∨
      s.pc = .waiting ∧ ∃ timer, s.interval = some timer ∧
        timer.deadline ≤ s.now.millis + publisher.publishInterval ∧
        (timer.deadline ≤ s.now.millis → (s.step keys sha256 publisher .tick).isSome = true) := by
  cases hwas : s.pc with
  | publishing rest =>
      left
      cases rest with
      | nil => cases hinterval : s.interval <;> simp [step, hwas, hinterval]
      | cons pair rest => simp [step, hwas]
  | firstTick =>
      rcases h.created hwas with ⟨-, timer, hinterval, -, -, hdue⟩
      exact .inl (by simp [step, hwas, hinterval, Interval.tick, hdue])
  | waiting =>
      right
      cases hinterval : s.interval with
      | none =>
          rcases h.first hinterval with ⟨-, rest, hpublishing⟩
          rw [hwas] at hpublishing
          contradiction
      | some timer =>
          refine ⟨rfl, timer, rfl, (h.paced (by simp [hwas]) timer hinterval).2.2, fun hdue => ?_⟩
          simp [step, hwas, hinterval, Interval.tick, hdue]
  | stopped => exact (hpc hwas).elim

/-! ## Prompt runs -/

/-- Time passes in the {lit}`select!` only, and not beyond the next tick: the DHT and the
scheduler answer at once. -/
def Prompt (s : PublisherTask SecretKey) : RunAction → Prop
  | .advance now => s.pc = .waiting ∧ ∀ timer ∈ s.interval, now.millis ≤ timer.deadline
  | _ => True

/-- The time of a round of a prompt run. -/
def roundTime (publisher : DhtPublisher SecretKey) (start : Clock) (k : Nat) : Nat :=
  start.millis + k * publisher.publishInterval

/-- A shard has been published in a round. -/
def Done (publisher : DhtPublisher SecretKey) (start : Clock) (s : PublisherTask SecretKey)
    (k : Nat) (pair : List UInt8 × UInt8) : Prop :=
  ∃ p ∈ s.published, (p.alpn, p.shard) = pair ∧ p.time = roundTime publisher start k / 1000

/-- A prompt run in or after its round {lit}`n`: every round begins on time and publishes every
shard at its time. -/
structure Round (keys : Keys SecretKey PublicKey Signature) (sha256 : List UInt8 → Digest)
    (publisher : DhtPublisher SecretKey) (start : Clock) (n : Nat) (s : PublisherTask SecretKey) :
    Prop where
  onTime : ∀ rest, s.pc = .publishing rest → s.now.millis = roundTime publisher start n
  first : s.pc = .firstTick → n = 0 ∧ s.now.millis = roundTime publisher start 0
  fresh : s.interval = none → n = 0
  timer : ∀ timer, s.interval = some timer → timer.period = publisher.publishInterval ∧
    timer.deadline = roundTime publisher start (if s.pc = .firstTick then 0 else n + 1)
  awaited : s.pc = .waiting → ∀ timer, s.interval = some timer → s.now.millis ≤ timer.deadline
  earlier : ∀ k < n, ∀ pair ∈ publisher.shards keys sha256, Done publisher start s k pair
  current : ∀ pair ∈ publisher.shards keys sha256,
    pair ∈ s.pc.rest ∨ Done publisher start s n pair

/-- The second in which a round of a prompt run begins. -/
theorem roundTime_div {period : Nat} (hperiod : publisher.publishInterval = 1000 * period)
    {start : Clock} (k : Nat) :
    roundTime publisher start k / 1000 = start.millis / 1000 + k * period := by
  rw [roundTime, hperiod, Nat.mul_left_comm, Nat.add_mul_div_left _ _ (by decide)]

theorem Done.mono {start : Clock} {k : Nat} {pair : List UInt8 × UInt8}
    (h : Done publisher start s k pair) (hsub : s.published ⊆ s'.published) :
    Done publisher start s' k pair := by
  rcases h with ⟨p, hp, hpair, htime⟩
  exact ⟨p, hsub hp, hpair, htime⟩

theorem roundTime_succ (publisher : DhtPublisher SecretKey) (start : Clock) (k : Nat) :
    roundTime publisher start (k + 1) = roundTime publisher start k + publisher.publishInterval := by
  rw [roundTime, roundTime, Nat.succ_mul, Nat.add_assoc]

/-- The timer of a prompt run ticks at the times of the rounds. -/
theorem tick_of_roundTime {start : Clock} {k now : Nat} {timer timer' : Interval}
    (hperiod : timer.period = publisher.publishInterval)
    (hdeadline : timer.deadline = roundTime publisher start k) (hnow : now ≤ timer.deadline)
    (htick : timer.tick now = some timer') :
    now = roundTime publisher start k ∧ timer'.period = publisher.publishInterval ∧
      timer'.deadline = roundTime publisher start (k + 1) := by
  have hdue := (Interval.tick_eq_some htick).1
  obtain rfl : now = timer.deadline := Nat.le_antisymm hnow hdue
  rw [Interval.tick_deadline] at htick
  obtain rfl := Option.some.inj htick
  exact ⟨hdeadline, hperiod, by rw [roundTime_succ, ← hdeadline, ← hperiod]⟩

/-- A prompt step stays in its round or begins the next. -/
theorem Round.step {start : Clock} {n : Nat} {action : RunAction}
    (h : Round keys sha256 publisher start n s) (hprompt : s.Prompt action)
    (hstep : Step keys sha256 publisher s action s') :
    ∃ m, Round keys sha256 publisher start m s' := by
  cases hstep with
  | advance now hle =>
      rcases hprompt with ⟨hpc, hdue⟩
      exact ⟨n,
        { onTime := fun rest hpublishing => nomatch hpc.symm.trans hpublishing
          first := fun hfirst => nomatch hpc.symm.trans hfirst
          fresh := h.fresh
          timer := h.timer
          awaited := fun _ timer hinterval => hdue timer hinterval
          earlier := h.earlier
          current := h.current }⟩
  | signal =>
      exact ⟨n,
        { onTime := h.onTime
          first := h.first
          fresh := h.fresh
          timer := h.timer
          awaited := h.awaited
          earlier := h.earlier
          current := h.current }⟩
  | publish alpn shard rest hpc =>
      refine ⟨n, ?_⟩
      have hsub : s.published ⊆ s.published ++ [publisher.publication s.now alpn shard] :=
        List.subset_append_left _ _
      constructor
      case onTime => exact fun _ _ => h.onTime _ hpc
      case first => exact fun hfirst => nomatch hfirst
      case fresh => exact h.fresh
      case timer =>
        intro timer hinterval
        simpa [hpc] using h.timer timer hinterval
      case awaited => exact fun hwaiting => nomatch hwaiting
      case earlier => exact fun k hk pair hpair => (h.earlier k hk pair hpair).mono hsub
      case current =>
        intro pair hpair
        rcases h.current pair hpair with hrest | hdone
        · rw [hpc] at hrest
          rcases List.mem_cons.mp hrest with rfl | hrest
          · refine .inr ⟨_, List.mem_append_right _ (List.mem_singleton.mpr rfl), rfl, ?_⟩
            rw [DhtPublisher.time_publication, h.onTime _ hpc]
          · exact .inl hrest
        · exact .inr (hdone.mono hsub)
  | create hpc hinterval =>
      obtain rfl := h.fresh hinterval
      have hnow := h.onTime _ hpc
      refine ⟨0, ?_⟩
      constructor
      case onTime => exact fun rest hpublishing => nomatch hpublishing
      case first => exact fun _ => ⟨rfl, hnow⟩
      case fresh => exact fun _ => rfl
      case timer =>
        intro timer hset
        obtain rfl := Option.some.inj hset
        exact ⟨rfl, hnow⟩
      case awaited => exact fun hwaiting => nomatch hwaiting
      case earlier => exact h.earlier
      case current =>
        intro pair hpair
        have hcurrent := h.current pair hpair
        rwa [hpc] at hcurrent
  | wait timer hpc hinterval =>
      refine ⟨n, ?_⟩
      have htimer := h.timer timer hinterval
      rw [if_neg (by simp [hpc])] at htimer
      constructor
      case onTime => exact fun rest hpublishing => nomatch hpublishing
      case first => exact fun hfirst => nomatch hfirst
      case fresh => exact h.fresh
      case timer =>
        intro timer' hset
        obtain rfl := Option.some.inj (hinterval.symm.trans hset)
        exact htimer
      case awaited =>
        intro _ timer' hset
        obtain rfl := Option.some.inj (hinterval.symm.trans hset)
        simp only [htimer.2, h.onTime _ hpc, roundTime_succ]
        exact Nat.le_add_right _ _
      case earlier => exact h.earlier
      case current =>
        intro pair hpair
        have hcurrent := h.current pair hpair
        rwa [hpc] at hcurrent
  | firstTick timer timer' hpc hinterval htick =>
      rcases h.first hpc with ⟨rfl, hnow⟩
      rcases h.timer timer hinterval with ⟨hperiod, hdeadline⟩
      rw [if_pos hpc] at hdeadline
      rcases tick_of_roundTime hperiod hdeadline (Nat.le_of_eq (hnow.trans hdeadline.symm)) htick
        with ⟨-, hperiod', hdeadline'⟩
      refine ⟨0, ?_⟩
      constructor
      case onTime => exact fun rest hpublishing => nomatch hpublishing
      case first => exact fun hfirst => nomatch hfirst
      case fresh => exact fun hnone => nomatch hnone
      case timer =>
        intro timer₁ hset
        obtain rfl := Option.some.inj hset
        exact ⟨hperiod', hdeadline'⟩
      case awaited =>
        intro _ timer₁ hset
        obtain rfl := Option.some.inj hset
        simp only [hdeadline', hnow, roundTime_succ]
        exact Nat.le_add_right _ _
      case earlier => exact h.earlier
      case current =>
        intro pair hpair
        have hcurrent := h.current pair hpair
        rwa [hpc] at hcurrent
  | tick timer timer' hpc hinterval htick =>
      rcases h.timer timer hinterval with ⟨hperiod, hdeadline⟩
      rw [if_neg (by simp [hpc])] at hdeadline
      rcases tick_of_roundTime hperiod hdeadline (h.awaited hpc timer hinterval) htick with
        ⟨hnow, hperiod', hdeadline'⟩
      refine ⟨n + 1, ?_⟩
      constructor
      case onTime => exact fun _ _ => hnow
      case first => exact fun hfirst => nomatch hfirst
      case fresh => exact fun hnone => nomatch hnone
      case timer =>
        intro timer₁ hset
        obtain rfl := Option.some.inj hset
        exact ⟨hperiod', hdeadline'⟩
      case awaited => exact fun hwaiting => nomatch hwaiting
      case earlier =>
        intro k hk pair hpair
        rcases Nat.lt_succ_iff_lt_or_eq.mp hk with hk | rfl
        · exact h.earlier k hk pair hpair
        · have hcurrent := h.current pair hpair
          rw [hpc] at hcurrent
          exact hcurrent.resolve_left List.not_mem_nil
      case current => exact fun pair hpair => .inl hpair
  | shutdown hpc hsignalled =>
      refine ⟨n, ?_⟩
      constructor
      case onTime => exact fun rest hpublishing => nomatch hpublishing
      case first => exact fun hfirst => nomatch hfirst
      case fresh => exact h.fresh
      case timer =>
        intro timer hinterval
        simpa [hpc] using h.timer timer hinterval
      case awaited => exact fun hwaiting => nomatch hwaiting
      case earlier => exact h.earlier
      case current =>
        intro pair hpair
        have hcurrent := h.current pair hpair
        rwa [hpc] at hcurrent

/-- Every prompt run is in or after some round. -/
theorem exists_round {now : Clock}
    (hs : (system keys sha256 publisher now).ReachableWhen Prompt s) :
    ∃ n, Round keys sha256 publisher now n s := by
  refine hs.invariant (I := fun s => ∃ n, Round keys sha256 publisher now n s) ⟨0, ?_⟩ ?_
  · exact
      { onTime := fun _ _ => by simp [system, start, roundTime]
        first := fun hfirst => nomatch hfirst
        fresh := fun _ => rfl
        timer := fun _ hinterval => nomatch hinterval
        awaited := fun hwaiting => nomatch hwaiting
        earlier := fun k hk => (Nat.not_lt_zero k hk).elim
        current := fun pair hpair => .inl hpair }
  · rintro s s' action - ⟨n, hround⟩ hprompt hstep
    exact hround.step hprompt (step_sound hstep)

/-- A task that waits has finished all rounds that it has begun. -/
theorem Round.done {start : Clock} {n k : Nat} (h : Round keys sha256 publisher start n s)
    (hpc : s.pc = .waiting) (hk : k ≤ n) {pair : List UInt8 × UInt8}
    (hpair : pair ∈ publisher.shards keys sha256) : Done publisher start s k pair := by
  rcases Nat.lt_or_eq_of_le hk with hlt | rfl
  · exact h.earlier k hlt pair hpair
  · have hcurrent := h.current pair hpair
    rw [hpc] at hcurrent
    exact hcurrent.resolve_left List.not_mem_nil

/-- A task that waits has begun all rounds before its next tick. -/
theorem Round.le_of_horizon {start : Clock} {n period : Nat}
    (h : Round keys sha256 publisher start n s) (hinv : RunInv keys sha256 publisher start s)
    (hpc : s.pc = .waiting) (hperiod : publisher.publishInterval = 1000 * period) {horizon k : Nat}
    (hhorizon : ∀ timer ∈ s.interval, horizon < timer.deadline / 1000)
    (hk : start.millis / 1000 + k * period ≤ horizon) : k ≤ n := by
  cases hinterval : s.interval with
  | none =>
      rcases hinv.first hinterval with ⟨-, rest, hpublishing⟩
      exact nomatch hpc.symm.trans hpublishing
  | some timer =>
      have hdeadline := (h.timer timer hinterval).2
      rw [if_neg (by simp [hpc])] at hdeadline
      have hlate := hhorizon timer hinterval
      rw [hdeadline, roundTime_div hperiod] at hlate
      by_contra hgt
      have hmul := Nat.mul_le_mul_right period (Nat.lt_of_not_le hgt)
      simp only [Nat.succ_eq_add_one] at hmul
      omega

theorem mem_shards {alpn : List UInt8} {shard : UInt8} (halpn : alpn ∈ publisher.services)
    (hshard : shard ∈
      replicaShards sha256 (keys.asBytes (keys.publicKey publisher.secretKey)) alpn) :
    (alpn, shard) ∈ publisher.shards keys sha256 :=
  List.mem_flatMap.mpr ⟨alpn, halpn, List.mem_map.mpr ⟨shard, hshard, rfl⟩⟩

end PublisherTask

open PublisherTask

/-- The publisher that {lit}`lateHistory` is the first round of. -/
def latePublisher : DhtPublisher NodeId where
  secretKey := repeatedId 7
  services := [[]]
  tags := []
  publishInterval := 60000
  positive := by decide

/-- When it is started. -/
def lateClock : Clock where
  millis := 59000
  bound := by decide

/-- The publisher after its first round. -/
def latePublished : PublisherTask NodeId where
  pc := .waiting
  now := lateClock
  interval := some { period := 60000, positive := by decide, deadline := 119000 }
  signalled := false
  published := lateHistory.events
  rounds := [lateClock]

theorem shards_latePublisher : latePublisher.shards Keys.plain plainHash = [([], 0), ([], 1)] := by
  decide +kernel

/-- It gets there at once. -/
theorem reachable_latePublished :
    (system Keys.plain plainHash latePublisher lateClock).ReachableWhen Prompt latePublished := by
  have hinit : (system Keys.plain plainHash latePublisher lateClock).init =
      { latePublished with
        pc := .publishing [([], 0), ([], 1)]
        interval := none
        published := [] } := by
    simp only [system, start, shards_latePublisher]
    rfl
  refine .step (a := .turn) ?_ trivial (s := { latePublished with
    pc := .firstTick
    interval := some { period := 60000, positive := by decide, deadline := 59000 } }) ?_
  · refine .step (a := .turn) ?_ trivial (s := { latePublished with
      pc := .publishing []
      interval := none }) rfl
    refine .step (a := .turn) ?_ trivial (s := { latePublished with
      pc := .publishing [([], 1)]
      interval := none
      published := [⟨lateCall, [], 0⟩] }) rfl
    refine .step (a := .turn) .init trivial ?_
    rw [hinit]
    rfl
  · rfl

/-- When the DHT and the scheduler answer at once, the hash has no collisions and the interval
is one of whole seconds, the calls of the task are those of a steady publisher of each of its
services, from its start until its next tick, provided that they succeed and nobody trims its
advertisements away.  So a look-up in the minute of any of its rounds yields it for two
minutes. -/
theorem prompt_publisher_is_steady [LinearOrder Digest]
    (keys : Keys SecretKey PublicKey Signature) (sha256 : List UInt8 → Digest)
    (hsha : Function.Injective sha256) (publisher : DhtPublisher SecretKey) (period : Nat)
    (hperiod : publisher.publishInterval = 1000 * period) {start : Clock}
    {s : PublisherTask SecretKey}
    (hs : (system keys sha256 publisher start).ReachableWhen Prompt s) (hpc : s.pc = .waiting)
    (history : History SecretKey) (horizon : UnixTime)
    (hhorizon : ∀ timer ∈ s.interval, horizon.secs.toNat < timer.deadline / 1000)
    (hmade : ∀ p ∈ s.published, p ∈ history.events)
    (hown : ∀ p ∈ history.events,
      keys.publicKey p.call.secretKey = keys.publicKey publisher.secretKey → p ∈ s.published)
    (hok : ∀ before p after, history.events = before ++ p :: after → p ∈ s.published →
      (publishShard keys sha256 (storeAfter keys sha256 before) p).2 = .ok ())
    (alpn : List UInt8) (halpn : alpn ∈ publisher.services)
    (huntrimmed : ∀ before p after, history.events = before ++ p :: after → p.alpn = alpn →
      Untrimmed keys sha256 (keys.asBytes (keys.publicKey publisher.secretKey))
        (storeAfter keys sha256 before) p) :
    Steady keys sha256 history (keys.publicKey publisher.secretKey) alpn publisher.tags
        (start.millis / 1000) period horizon ∧
      ∀ (required : List String) (trust : UInt8) (k : Nat) (now : UnixTime) (minute : UInt64),
        required ⊆ publisher.tags → now.secs.toNat ≤ horizon.secs.toNat →
        start.millis / 1000 + k * period ≤ now.secs.toNat →
        now.secs.toNat < start.millis / 1000 + k * period + 120 →
        minute.toNat = (start.millis / 1000 + k * period) / 60 →
        ∃ peer ∈ lookup keys sha256 (storeAt keys sha256 history now) alpn required trust minute
          now, peer.id = keys.publicKey publisher.secretKey := by
  have hsteady : Steady keys sha256 history (keys.publicKey publisher.secretKey) alpn
      publisher.tags (start.millis / 1000) period horizon := by
    rcases exists_round hs with ⟨n, hround⟩
    have hinv := runInv_of_reachable hs.reachable
    constructor
    case publishes =>
      intro k hk shard hshard
      have hkn : k ≤ n := hround.le_of_horizon hinv hpc hperiod hhorizon hk
      have hdone : Done publisher start s k (alpn, shard) :=
        hround.done hpc hkn (mem_shards halpn hshard)
      rcases hdone with ⟨p, hp, hsame, hptime⟩
      rcases List.append_of_mem (hmade p hp) with ⟨before, after, hsplit⟩
      obtain ⟨rfl, rfl⟩ := Prod.mk.inj hsame
      exact ⟨before, p, after, hsplit, congrArg keys.publicKey (hinv.own p hp).1, rfl, rfl,
        hptime.trans (roundTime_div hperiod k), hok before p after hsplit hp⟩
    case constant_tags => exact fun p hp hkey _ => (hinv.own p (hown p hp hkey)).2.1
    case untrimmed => exact huntrimmed
  refine ⟨hsteady, fun required trust k now minute hrequired hnow hlo hhi hminute => ?_⟩
  exact lookup_of_tick hsha hsteady hrequired k hnow hlo hhi hminute

theorem prompt_publisher_is_steady_late :
    ∃ peer ∈ lookup Keys.plain plainHash (storeAt Keys.plain plainHash lateHistory
      ⟨60, by decide⟩) [] [] 50 0 ⟨60, by decide⟩, peer.id = repeatedId 7 := by
  have hsteady : Steady Keys.plain plainHash lateHistory (repeatedId 7) [] [] 59 60
      ⟨118, by decide⟩ := steady_lateHistory (by decide)
  refine (prompt_publisher_is_steady Keys.plain plainHash plainHash_injective latePublisher 60 rfl
    reachable_latePublished rfl lateHistory ⟨118, by decide⟩ ?_ (fun _ hp => hp)
    (fun _ hp _ => hp) ?_ [] (List.mem_singleton.mpr rfl) ?_).2 [] 50 0 ⟨60, by decide⟩ 0
    (List.Subset.refl _) (by decide) (by decide) (by decide) (by decide)
  · rintro timer hset
    obtain rfl := Option.some.inj hset
    decide
  · rintro before p after hsplit -
    match before with
    | [] =>
        rcases (List.cons.inj hsplit).1 with rfl
        decide +kernel
    | [q] =>
        simp only [lateHistory, List.cons_append, List.nil_append, List.cons.injEq] at hsplit
        rcases hsplit with ⟨rfl, rfl, -⟩
        decide +kernel
    | _ :: _ :: _ => simp [lateHistory] at hsplit
  · exact hsteady.untrimmed

end IrohTransport.Swarm
