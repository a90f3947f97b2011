import IrohTransport.Lib.Unordered
import IrohTransport.Swarm.Hostile

/-!
# The rounds of the DHT feed

The feed asks all shards of a minute in one round: twice in its initial burst, for the
current and the previous minute, and from then on once for every tick of its poll
interval.  The queries of a round run concurrently, a few at a time, and the peers of a
shard are yielded when its query completes, whatever the order of the shards.

Main results:

- Theorem {lit}`DhtFeed.Inv.step`: every step keeps the account of the queries and of
  the peers.
- Theorem {lit}`dht_feed_rounds_are_lookups`: every round asks every shard once, and what
  it yields is what a look-up of the shards in their order yields, up to the order.
-/

namespace IrohTransport.Swarm

open Unordered

variable {SecretKey PublicKey Signature Digest : Type}

/-- How many queries of a round run at a time. -/
def dhtQueryConcurrency : Nat := 4

/-- The shards of a round, in the order in which their queries start. -/
def roundShards : List UInt8 := (List.range dhtShardCount.toNat).map UInt8.ofNat

/-- What a query comes back with: the items that the DHT has returned and the clock at
the end of the query. -/
abbrev QueryReply := List MutableItem × UnixTime

/-- A round, with the peers of completed queries that are still to be yielded. -/
structure QueryRound (PublicKey : Type) where
  offset : Int64
  start : UnixTime
  queries : Buffer UInt8 QueryReply
  emitting : List (DiscoveredPeer PublicKey)

/-- The minute a round asks for. -/
def QueryRound.minute (round : QueryRound PublicKey) : UInt64 :=
  unixMinute round.start round.offset

/-- A round that starts. -/
def QueryRound.new (offset : Int64) (start : UnixTime) : QueryRound PublicKey where
  offset := offset
  start := start
  queries := .new roundShards
  emitting := []

/-- Where the feed stands between its rounds. -/
inductive FeedPc where
  /-- The burst, with the minute offsets still to come. -/
  | burst (offsets : List Int64)
  /-- The poll loop waits for the tick that it skips. -/
  | skipping
  | polling

/-- A feed with the rounds it has finished and the peers it has yielded. -/
structure DhtFeed (PublicKey : Type) where
  pc : FeedPc
  round : Option (QueryRound PublicKey)
  finished : List (QueryRound PublicKey)
  yielded : List (DiscoveredPeer PublicKey)

/-- What happens to a feed. -/
inductive FeedAction where
  /-- The burst goes on to its next minute. -/
  | enter (now : UnixTime)
  /-- The burst is over. -/
  | chain
  /-- The poll interval ticks. -/
  | tick (now : UnixTime)
  /-- The queries of the round are polled. -/
  | poll (turn : Turn QueryReply)
  /-- A peer is yielded. -/
  | yield

namespace DhtFeed

section Step

variable (keys : Keys SecretKey PublicKey Signature) (alpn : List UInt8) (required : List String)
  (trust : UInt8)

/-- The peers of a completed query. -/
def answered (minute : UInt64) (reply : UInt8 × QueryReply) : List (DiscoveredPeer PublicKey) :=
  (queryReplicas keys alpn minute reply.1 reply.2.2 reply.2.1).filterMap
    (wanted keys required trust)

/-- The peers of a round so far. -/
def roundPeers (round : QueryRound PublicKey) : List (DiscoveredPeer PublicKey) :=
  round.queries.delivered.flatMap (answered keys alpn required trust round.minute)

/-- One step. -/
def step (s : DhtFeed PublicKey) : FeedAction → Option (DhtFeed PublicKey)
  | .enter now =>
      match s.pc, s.round with
      | .burst (offset :: offsets), none =>
          some { s with pc := .burst offsets, round := some (.new offset now) }
      | _, _ => none
  | .chain =>
      match s.pc, s.round with
      | .burst [], none => some { s with pc := .skipping }
      | _, _ => none
  | .tick now =>
      match s.pc, s.round with
      | .skipping, none => some { s with pc := .polling }
      | .polling, none => some { s with round := some (.new 0 now) }
      | _, _ => none
  | .poll turn =>
      match s.round with
      | some round =>
          if round.emitting = [] then
            (round.queries.poll dhtQueryConcurrency turn).map fun queries =>
              if queries.ended then
                { s with round := none, finished := s.finished ++ [{ round with queries := queries }] }
              else
                { s with
                  round := some
                    { round with
                      queries := queries
                      emitting := (queries.delivered.drop round.queries.delivered.length).flatMap
                        (answered keys alpn required trust round.minute) } }
          else none
      | none => none
  | .yield =>
      match s.round with
      | some round =>
          match round.emitting with
          | peer :: rest =>
              some { s with
                round := some { round with emitting := rest }
                yielded := s.yielded ++ [peer] }
          | [] => none
      | none => none

/-- A feed for a service. -/
def system : System (DhtFeed PublicKey) FeedAction where
  init :=
    { pc := .burst [0, -1]
      round := none
      finished := []
      yielded := [] }
  step := step keys alpn required trust

end Step

variable {keys : Keys SecretKey PublicKey Signature} {alpn : List UInt8} {required : List String}
  {trust : UInt8} {s s' : DhtFeed PublicKey}

/-- What a step can do. -/
inductive FeedStep (keys : Keys SecretKey PublicKey Signature) (alpn : List UInt8)
    (required : List String) (trust : UInt8) (s : DhtFeed PublicKey) :
    FeedAction → DhtFeed PublicKey → Prop
  | enter (offset : Int64) (offsets : List Int64) (now : UnixTime) :
      s.pc = .burst (offset :: offsets) → s.round = none →
      FeedStep keys alpn required trust s (.enter now)
        { s with pc := .burst offsets, round := some (.new offset now) }
  | chain : s.pc = .burst [] → s.round = none →
      FeedStep keys alpn required trust s .chain { s with pc := .skipping }
  | skip (now : UnixTime) : s.pc = .skipping → s.round = none →
      FeedStep keys alpn required trust s (.tick now) { s with pc := .polling }
  | tick (now : UnixTime) : s.pc = .polling → s.round = none →
      FeedStep keys alpn required trust s (.tick now) { s with round := some (.new 0 now) }
  | finish (round : QueryRound PublicKey) (turn : Turn QueryReply)
      (queries : Buffer UInt8 QueryReply) : s.round = some round → round.emitting = [] →
      round.queries.poll dhtQueryConcurrency turn = some queries → queries.ended = true →
      FeedStep keys alpn required trust s (.poll turn)
        { s with round := none, finished := s.finished ++ [{ round with queries := queries }] }
  | answer (round : QueryRound PublicKey) (turn : Turn QueryReply)
      (queries : Buffer UInt8 QueryReply) : s.round = some round → round.emitting = [] →
      round.queries.poll dhtQueryConcurrency turn = some queries → queries.ended = false →
      FeedStep keys alpn required trust s (.poll turn)
        { s with
          round := some
            { round with
              queries := queries
              emitting := (queries.delivered.drop round.queries.delivered.length).flatMap
                (answered keys alpn required trust round.minute) } }
  | yield (round : QueryRound PublicKey) (peer : DiscoveredPeer PublicKey)
      (rest : List (DiscoveredPeer PublicKey)) : s.round = some round →
      round.emitting = peer :: rest →
      FeedStep keys alpn required trust s .yield
        { s with
          round := some { round with emitting := rest }
          yielded := s.yielded ++ [peer] }

theorem step_sound {action : FeedAction} (h : s.step keys alpn required trust action = some s') :
    FeedStep keys alpn required trust s action s' := by
  cases action with
  | enter now =>
      simp only [step] at h
      split at h <;> rename_i hpc hround
      · obtain rfl := Option.some.inj h
        exact .enter _ _ now hpc hround
      · contradiction
  | chain =>
      simp only [step] at h
      split at h <;> rename_i hpc hround
      · obtain rfl := Option.some.inj h
        exact .chain hpc hround
      · contradiction
  | tick now =>
      simp only [step] at h
      split at h <;> rename_i hpc hround
      · obtain rfl := Option.some.inj h
        exact .skip now hpc hround
      · obtain rfl := Option.some.inj h
        exact .tick now hpc hround
      · contradiction
  | poll turn =>
      simp only [step] at h
      split at h <;> rename_i round hround
      · split at h <;> rename_i hemitting
        · rcases Option.map_eq_some_iff.mp h with ⟨queries, hpoll, hs'⟩
          split at hs' <;> rename_i hended
          · exact hs' ▸ .finish round turn queries hround hemitting hpoll hended
          · exact hs' ▸ .answer round turn queries hround hemitting hpoll (by simpa using hended)
        · contradiction
      · contradiction
  | yield =>
      simp only [step] at h
      split at h <;> rename_i round hround
      · split at h <;> rename_i peer rest hemitting
        · obtain rfl := Option.some.inj h
          exact .yield round peer rest hround hemitting
        · contradiction
      · contradiction

/-! ## The account of a feed -/

/-- All rounds that were started. -/
def rounds (s : DhtFeed PublicKey) : List (QueryRound PublicKey) :=
  s.finished ++ s.round.toList

/-- The minute offsets of the rounds that were started, given where the feed stands. -/
def Scheduled (offsets : List Int64) : FeedPc → Prop
  | .burst rest => offsets ++ rest = [0, -1]
  | .skipping => offsets = [0, -1]
  | .polling => ∃ ticks, offsets = [0, -1] ++ List.replicate ticks 0

/-- The queries of all rounds are accounted for, and the peers of all completed queries
have been yielded or are about to be. -/
structure Inv (keys : Keys SecretKey PublicKey Signature) (alpn : List UInt8)
    (required : List String) (trust : UInt8) (s : DhtFeed PublicKey) : Prop where
  finished : ∀ round ∈ s.finished,
    Buffer.Account dhtQueryConcurrency roundShards round.queries ∧ round.queries.ended = true
  current : ∀ round, s.round = some round →
    Buffer.Account dhtQueryConcurrency roundShards round.queries ∧ round.queries.ended = false
  yielded : s.yielded ++ s.round.toList.flatMap QueryRound.emitting
    = s.rounds.flatMap (roundPeers keys alpn required trust)
  scheduled : Scheduled (s.rounds.map QueryRound.offset) s.pc

/-- What a poll of the queries delivers adds to the peers of the round. -/
theorem roundPeers_poll (keys : Keys SecretKey PublicKey Signature) (alpn : List UInt8)
    (required : List String) (trust : UInt8) {round : QueryRound PublicKey} {turn : Turn QueryReply}
    {queries : Buffer UInt8 QueryReply}
    (hpoll : round.queries.poll dhtQueryConcurrency turn = some queries)
    (emitting : List (DiscoveredPeer PublicKey)) :
    roundPeers keys alpn required trust { round with queries := queries, emitting := emitting }
      = roundPeers keys alpn required trust round
        ++ (queries.delivered.drop round.queries.delivered.length).flatMap
          (answered keys alpn required trust round.minute) := by
  rcases Buffer.delivered_poll hpoll with ⟨more, hmore, -⟩
  simp only [roundPeers, QueryRound.minute, hmore, List.flatMap_append, List.drop_left]

/-- Starting a round keeps the account. -/
theorem Inv.begin (hinv : Inv keys alpn required trust s) (hround : s.round = none)
    {pc : FeedPc} {offset : Int64} {now : UnixTime}
    (hscheduled : Scheduled (s.finished.map QueryRound.offset ++ [offset]) pc) :
    Inv keys alpn required trust { s with pc := pc, round := some (.new offset now) } where
  finished := hinv.finished
  current round h := by
    obtain rfl := Option.some.inj h
    exact ⟨.new _ _, rfl⟩
  yielded := by
    have hyielded := hinv.yielded
    simp only [rounds, hround, Option.toList_none, List.flatMap_nil, List.append_nil] at hyielded
    simp [rounds, hyielded, QueryRound.new, roundPeers, Buffer.new]
  scheduled := by
    simpa [rounds, QueryRound.new] using hscheduled

/-- Between rounds the feed may move on. -/
theorem Inv.move (hinv : Inv keys alpn required trust s) {pc : FeedPc}
    (hscheduled : Scheduled (s.rounds.map QueryRound.offset) pc) :
    Inv keys alpn required trust { s with pc := pc } where
  finished := hinv.finished
  current := hinv.current
  yielded := hinv.yielded
  scheduled := hscheduled

/-- Every step keeps the account. -/
theorem Inv.step (hinv : Inv keys alpn required trust s) {action : FeedAction}
    (h : FeedStep keys alpn required trust s action s') : Inv keys alpn required trust s' := by
  have hscheduled := hinv.scheduled
  cases h with
  | enter offset offsets now hpc hround =>
      rw [hpc, rounds, hround, Option.toList_none, List.append_nil, Scheduled] at hscheduled
      apply hinv.begin hround
      rw [Scheduled, List.append_assoc]
      exact hscheduled
  | chain hpc hround =>
      rw [hpc, Scheduled, List.append_nil] at hscheduled
      exact hinv.move hscheduled
  | skip _ hpc hround =>
      rw [hpc, Scheduled] at hscheduled
      exact hinv.move ⟨0, hscheduled⟩
  | tick now hpc hround =>
      rw [hpc, rounds, hround, Option.toList_none, List.append_nil] at hscheduled
      rcases hscheduled with ⟨ticks, hticks⟩
      have hnext : Scheduled (s.finished.map QueryRound.offset ++ [0]) s.pc := by
        rw [hpc]
        exact ⟨ticks + 1, by rw [hticks, List.append_assoc, List.replicate_succ']⟩
      exact hinv.begin hround hnext
  | finish round turn queries hround hemitting hpoll hended =>
      rcases Buffer.delivered_poll hpoll with ⟨more, hmore, hnone⟩
      have hpeers : roundPeers keys alpn required trust { round with queries := queries }
          = roundPeers keys alpn required trust round := by
        simp only [roundPeers, QueryRound.minute, hmore, hnone hended, List.append_nil]
      have hyielded := hinv.yielded
      simp only [rounds, hround, Option.toList_some] at hyielded hscheduled
      refine ⟨?_, fun _ h => (nomatch h), ?_, ?_⟩
      · intro r hr
        rcases List.mem_append.mp hr with hr | hr
        · exact hinv.finished r hr
        · obtain rfl := List.mem_singleton.mp hr
          exact ⟨(hinv.current round hround).1.poll hpoll, hended⟩
      · simp only [rounds, Option.toList_none, List.append_nil, List.flatMap_nil,
          List.flatMap_append, List.flatMap_singleton, hpeers]
        simpa [hemitting] using hyielded
      · simpa [rounds] using hscheduled
  | answer round turn queries hround hemitting hpoll hgoing =>
      have hpeers := roundPeers_poll keys alpn required trust hpoll
        ((queries.delivered.drop round.queries.delivered.length).flatMap
          (answered keys alpn required trust round.minute))
      have hyielded := hinv.yielded
      simp only [rounds, hround, Option.toList_some] at hyielded hscheduled
      refine ⟨hinv.finished, ?_, ?_, by simpa [rounds] using hscheduled⟩
      · intro r hr
        obtain rfl := Option.some.inj hr
        exact ⟨(hinv.current round hround).1.poll hpoll, hgoing⟩
      · simp only [rounds, Option.toList_some, List.flatMap_append, List.flatMap_singleton, hpeers,
          ← List.append_assoc]
        simp only [hemitting, List.flatMap_append, List.flatMap_singleton, List.append_nil]
          at hyielded
        rw [hyielded]
  | yield round peer rest hround hemitting =>
      have hyielded := hinv.yielded
      simp only [rounds, hround, Option.toList_some] at hyielded hscheduled
      refine ⟨hinv.finished, ?_, ?_, by simpa [rounds] using hscheduled⟩
      · intro r hr
        obtain rfl := Option.some.inj hr
        exact hinv.current round hround
      · simpa [rounds, hemitting, roundPeers, QueryRound.minute] using hyielded

/-- The account holds along every run. -/
theorem inv_of_reachable (hs : (system keys alpn required trust).Reachable s) :
    Inv keys alpn required trust s := by
  apply hs.invariant
  · exact ⟨fun _ h => (nomatch h), fun _ h => (nomatch h), rfl, rfl⟩
  · intro s s' action _ hinv _ hstep
    exact hinv.step (step_sound hstep)

/-- A feed never comes to a stop: whatever its queries answer, some step is possible. -/
theorem exists_step (hs : (system keys alpn required trust).Reachable s) :
    ∃ action, (s.step keys alpn required trust action).isSome = true := by
  have hinv := inv_of_reachable hs
  let now : UnixTime := ⟨0, by decide⟩
  cases hround : s.round with
  | none =>
      cases hpc : s.pc with
      | burst offsets =>
          cases offsets with
          | nil => exact ⟨.chain, by simp [step, hpc, hround]⟩
          | cons offset offsets => exact ⟨.enter now, by simp [step, hpc, hround]⟩
      | skipping => exact ⟨.tick now, by simp [step, hpc, hround]⟩
      | polling => exact ⟨.tick now, by simp [step, hpc, hround]⟩
  | some round =>
      cases hemitting : round.emitting with
      | cons peer rest => exact ⟨.yield, by simp [step, hround, hemitting]⟩
      | nil =>
          have hlimit : 0 < dhtQueryConcurrency := by decide
          rcases Buffer.isSome_poll hlimit (hinv.current round hround).2 ([], now) with
            hpoll | hpoll
          · exact ⟨.poll (.completed 0 ([], now)), by simp [step, hround, hemitting, hpoll]⟩
          · exact ⟨.poll .exhausted, by simp [step, hround, hemitting, hpoll]⟩

/-! ## When rounds start -/

/-- The clock at which the burst goes on. -/
@[simp] def FeedAction.entered? : FeedAction → Option UnixTime
  | .enter now => some now
  | _ => none

/-- The clock of a tick. -/
@[simp] def FeedAction.ticked? : FeedAction → Option UnixTime
  | .tick now => some now
  | _ => none

/-- The rounds of a feed started at these times: those of the burst, and those of the ticks
after the first. -/
structure StartedBy (actions : List FeedAction) (s : DhtFeed PublicKey) : Prop where
  starts : s.rounds.map QueryRound.start
    = actions.filterMap FeedAction.entered? ++ (actions.filterMap FeedAction.ticked?).drop 1
  ticked : s.pc = .polling ↔ actions.filterMap FeedAction.ticked? ≠ []

theorem StartedBy.step {actions : List FeedAction} (hstarted : StartedBy actions s)
    {action : FeedAction} (h : FeedStep keys alpn required trust s action s') :
    StartedBy (actions ++ [action]) s' := by
  rcases hstarted with ⟨hstarts, hticked⟩
  have hnone (hpc : s.pc ≠ .polling) : actions.filterMap FeedAction.ticked? = [] := by
    simpa [hpc] using hticked
  cases h with
  | enter offset offsets now hpc hround =>
      have hbefore := hnone (by simp [hpc])
      constructor
      · simpa [rounds, hround, hbefore, QueryRound.new, List.filterMap_cons] using hstarts
      · simp [hbefore, List.filterMap_cons]
  | chain hpc hround =>
      have hbefore := hnone (by simp [hpc])
      constructor
      · simpa [rounds, List.filterMap_cons] using hstarts
      · simp [hbefore, List.filterMap_cons]
  | skip now hpc hround =>
      -- The feed skips the first tick: no round starts with it.
      have hbefore := hnone (by simp [hpc])
      constructor
      · simpa [rounds, hbefore, List.filterMap_cons] using hstarts
      · simp
  | tick now hpc hround =>
      have hdrop : (actions.filterMap FeedAction.ticked? ++ [now]).drop 1
          = (actions.filterMap FeedAction.ticked?).drop 1 ++ [now] :=
        List.drop_append_of_le_length (List.length_pos_iff.mpr (hticked.mp hpc))
      simp only [rounds, hround, Option.toList_none, List.append_nil] at hstarts
      constructor
      · simp only [rounds, Option.toList_some, List.map_append, List.filterMap_append, hstarts]
        simp only [List.filterMap_cons, List.filterMap_nil, FeedAction.entered?,
          FeedAction.ticked?, hdrop, List.append_nil, List.append_assoc]
        rfl
      · simp [hpc]
  | finish round turn queries hround | answer round turn queries hround =>
      constructor
      · simpa [rounds, hround, List.filterMap_cons] using hstarts
      · simpa [List.filterMap_cons] using hticked
  | yield round peer rest hround =>
      constructor
      · simpa [rounds, hround, List.filterMap_cons] using hstarts
      · simpa [List.filterMap_cons] using hticked

/-- The account of the times holds along every run. -/
theorem startedBy_of_run {actions : List FeedAction}
    (hrun : (system keys alpn required trust).run (system keys alpn required trust).init actions
      = some s) : StartedBy actions s := by
  induction actions using List.reverseRecOn generalizing s with
  | nil =>
      obtain rfl := Option.some.inj hrun
      exact ⟨rfl, by simp [system]⟩
  | append_singleton actions action ih =>
      rcases System.run_concat.mp hrun with ⟨mid, hmid, hstep⟩
      exact (ih hmid).step (step_sound hstep)

/-- The schedule: the second round asks for the previous minute, all others for the
current one. -/
theorem offset_of_scheduled {offsets : List Int64} {pc : FeedPc} (h : Scheduled offsets pc)
    {i : Nat} {offset : Int64} (hi : offsets[i]? = some offset) :
    offset = if i = 1 then -1 else 0 := by
  have hprefix : ∃ ticks, offsets <+: [0, -1] ++ List.replicate ticks 0 := by
    cases pc with
    | burst rest => exact ⟨0, ⟨rest, h⟩⟩
    | skipping => exact ⟨0, [], by rw [List.append_nil]; exact h⟩
    | polling =>
        rcases h with ⟨ticks, hticks⟩
        exact ⟨ticks, hticks ▸ List.prefix_rfl⟩
  rcases hprefix with ⟨ticks, rest, hrest⟩
  have hat : ([0, -1] ++ List.replicate ticks 0 : List Int64)[i]? = some offset := by
    rw [← hrest, List.getElem?_append_left (List.getElem?_eq_some_iff.mp hi).1, hi]
  match i with
  | 0 => exact (Option.some.inj hat).symm
  | 1 => exact (Option.some.inj hat).symm
  | i + 2 =>
      have hlater : (List.replicate ticks (0 : Int64))[i]? = some offset := hat
      rw [List.getElem?_replicate] at hlater
      split at hlater
      · exact (Option.some.inj hlater).symm
      · contradiction

/-- A finished round in which the DHT and the clock stood still has yielded what a
look-up of all shards yields, in some order. -/
theorem roundPeers_perm_lookup {round : QueryRound PublicKey}
    (haccount : Buffer.Account dhtQueryConcurrency roundShards round.queries)
    (hended : round.queries.ended = true) {replies : UInt8 → List MutableItem} {now : UnixTime}
    (hreplies : ∀ d ∈ round.queries.delivered, d.2 = (replies d.1, now)) :
    (roundPeers keys alpn required trust round).Perm
      (lookupReplicas keys replies alpn required trust round.minute now) := by
  have hperm := Buffer.perm_map_of_ended (fun shard => (replies shard, now)) haccount hended
    hreplies
  refine (hperm.flatMap_right _).trans (List.Perm.of_eq ?_)
  simp only [roundShards, lookupReplicas, List.map_map, List.flatMap_map]
  rfl

end DhtFeed

open DhtFeed

/-- However the queries of the feed interleave: no more than four run at a time, a
finished round has asked every shard once, and the peers yielded between rounds are those
of the finished rounds.  These ask for the current minute, then for the one before, and
from then on for the current minute of every tick but the first, each by the clock when it
starts.  If the DHT and the clock stand still in a round, it yields what a look-up of the
shards in their order does, up to the order; and a feed never comes to a stop. -/
theorem dht_feed_rounds_are_lookups (keys : Keys SecretKey PublicKey Signature)
    (alpn : List UInt8) (required : List String) (trust : UInt8) {s : DhtFeed PublicKey}
    (hs : (system keys alpn required trust).Reachable s) :
    (∀ round ∈ s.rounds, round.queries.inProgress.length ≤ dhtQueryConcurrency) ∧
      (∀ round ∈ s.finished, (round.queries.delivered.map Prod.fst).Perm roundShards) ∧
      (s.round = none → s.yielded = s.finished.flatMap (roundPeers keys alpn required trust)) ∧
      (∀ i round, s.rounds[i]? = some round → round.offset = if i = 1 then (-1 : Int64) else 0) ∧
      (∀ actions, (system keys alpn required trust).run
          (system keys alpn required trust).init actions = some s →
        s.rounds.map QueryRound.start = actions.filterMap FeedAction.entered?
          ++ (actions.filterMap FeedAction.ticked?).drop 1) ∧
      (∀ round ∈ s.finished, ∀ (replies : UInt8 → List MutableItem) (now : UnixTime),
        (∀ d ∈ round.queries.delivered, d.2 = (replies d.1, now)) →
        (roundPeers keys alpn required trust round).Perm
          (lookupReplicas keys replies alpn required trust
            (unixMinute round.start round.offset) now)) ∧
      ∃ action, (s.step keys alpn required trust action).isSome = true := by
  have hinv := inv_of_reachable hs
  refine ⟨?_, ?_, ?_, ?_, fun _ hrun => (startedBy_of_run hrun).starts, ?_, exists_step hs⟩
  · intro round hround
    rcases List.mem_append.mp hround with hround | hround
    · exact (hinv.finished round hround).1.bounded
    · exact (hinv.current round (Option.mem_toList.mp hround)).1.bounded
  · intro round hround
    rcases hinv.finished round hround with ⟨haccount, hended⟩
    exact Buffer.perm_of_ended haccount hended
  · intro hround
    simpa [rounds, hround] using hinv.yielded
  · intro i round hround
    apply offset_of_scheduled hinv.scheduled
    rw [List.getElem?_map, hround, Option.map_some]
  · intro round hround replies now hreplies
    rcases hinv.finished round hround with ⟨haccount, hended⟩
    exact roundPeers_perm_lookup haccount hended hreplies

/-- The queries of the first round complete out of order. -/
def shuffledRound : List FeedAction :=
  .enter ⟨60, by decide⟩
    :: List.replicate 15 (.poll (.completed 1 ([], ⟨60, by decide⟩)))
    ++ [.poll (.completed 0 ([], ⟨61, by decide⟩)), .poll .exhausted]

/-- All shards have been asked in it. -/
theorem dht_feed_rounds_are_lookups_shuffled :
    ∃ s, (system Keys.plain [] [] 50).Reachable s ∧ s.finished.length = 1 ∧
      ∀ round ∈ s.finished, (round.queries.delivered.map Prod.fst).Perm roundShards := by
  obtain ⟨s, hs, hfinished⟩ := System.exists_of_runWhen_any (S := system Keys.plain [] [] 50)
    (C := fun _ _ => True) (l := shuffledRound) (P := fun s => s.finished.length == 1)
    (by decide +kernel)
  exact ⟨s, hs, beq_iff_eq.mp hfinished,
    (dht_feed_rounds_are_lookups Keys.plain [] [] 50 hs).2.1⟩

end IrohTransport.Swarm
