import IrohTransport.Lib.Merge
import IrohTransport.Lib.Runs
import IrohTransport.Swarm.Feed
import Mathlib.Data.Finset.Basic
import Mathlib.Data.List.Sort

/-!
# The swarm engine

Discovery backends are feeds of peers, each with a name, a trust level, a priority and
the services it applies to.  The engine merges the feeds that apply to one service into
one stream of peers: it drops the local node and every node that it has seen before, and
hands errors through.

Main results:

- Theorem {lit}`SwarmEngine.Inv.passes_iff`: the loop of the engine returns an item
  exactly if it is an error or names a remote node for the first time.
- Theorem {lit}`engine_yields_first_arrivals`: the engine is a deduplicating merge of
  the feeds that apply.
-/

namespace IrohTransport.Swarm

open Stream' (Seq)
open Merge

variable {SecretKey PublicKey Signature Error : Type}

/-! ## Peers and feeds -/

/-- A peer with source metadata, yielded by the discovery stream. -/
structure Peer (PublicKey : Type) where
  id : PublicKey
  source : String
  remoteTrust : UInt8
  sourceTrust : UInt8
deriving DecidableEq

def Peer.new (discovered : DiscoveredPeer PublicKey) (source : String) (sourceTrust : UInt8) :
    Peer PublicKey where
  id := discovered.id
  source := source
  remoteTrust := discovered.trust
  sourceTrust := sourceTrust

/-- Scope for feed applicability. -/
inductive Scope where
  /-- Applies to all services. -/
  | any
  /-- Applies only to a specific service ALPN. -/
  | service (alpn : List UInt8)

/-- Check if a scope applies to an ALPN. -/
def scopeMatches (scope : Scope) (alpn : List UInt8) : Bool :=
  match scope with
  | .any => true
  | .service s => s == alpn

/-- Description of a peer feed.  Its stream is the sequence of items it will yield, which
need not end. -/
structure PeerFeedSpec (PublicKey Error : Type) where
  name : String
  priority : UInt8
  trust : UInt8
  scope : Scope
  stream : Seq (Except Error (DiscoveredPeer PublicKey))

/-- Build a finite feed from static peers. -/
def staticFeed (peers : List PublicKey) (priority trust : UInt8) (scope : Scope) :
    PeerFeedSpec PublicKey Error where
  name := "static"
  priority := priority
  trust := trust
  scope := scope
  stream := Seq.ofList (peers.map fun id => .ok { id := id, trust := trust })

/-- A feed that attaches its source metadata to each item. -/
structure TaggedFeed (PublicKey Error : Type) where
  name : String
  trust : UInt8
  inner : Seq (Except Error (DiscoveredPeer PublicKey))

namespace TaggedFeed

/-- Attach the source to an item. -/
def tag (self : TaggedFeed PublicKey Error) :
    Except Error (DiscoveredPeer PublicKey) → Except Error (Peer PublicKey)
  | .ok discovered => .ok (Peer.new discovered self.name self.trust)
  | .error err => .error err

/-- What the feed yields. -/
def items (self : TaggedFeed PublicKey Error) : Seq (Except Error (Peer PublicKey)) :=
  self.inner.map self.tag

end TaggedFeed

/-- The tagged feed of a specification. -/
def PeerFeedSpec.tagged (spec : PeerFeedSpec PublicKey Error) : TaggedFeed PublicKey Error where
  name := spec.name
  trust := spec.trust
  inner := spec.stream

/-! ## The engine -/

/-- Merges multiple peer feeds into a single deduped stream. -/
structure SwarmEngine (PublicKey Error : Type) where
  inner : List (Seq (Except Error (Peer PublicKey)))
  seen : Finset NodeId
  localId : PublicKey

/-- The feeds an engine for a service reads, most urgent first. -/
def applicableFeeds (alpn : List UInt8) (feeds : List (PeerFeedSpec PublicKey Error)) :
    List (PeerFeedSpec PublicKey Error) :=
  (feeds.insertionSort fun f g => f.priority ≤ g.priority).filter fun spec =>
    scopeMatches spec.scope alpn

theorem mem_applicableFeeds {alpn : List UInt8} {feeds : List (PeerFeedSpec PublicKey Error)}
    {spec : PeerFeedSpec PublicKey Error} :
    spec ∈ applicableFeeds alpn feeds ↔ spec ∈ feeds ∧ scopeMatches spec.scope alpn = true := by
  rw [applicableFeeds, List.mem_filter, List.mem_insertionSort]

namespace SwarmEngine

/-- Build an engine for a specific ALPN using the provided feed specs. -/
def new (localId : PublicKey) (alpn : List UInt8) (feeds : List (PeerFeedSpec PublicKey Error)) :
    SwarmEngine PublicKey Error where
  inner := (applicableFeeds alpn feeds).map fun spec => spec.tagged.items
  seen := ∅
  localId := localId

variable [DecidableEq PublicKey] (keys : Keys SecretKey PublicKey Signature)

/-- One round of the loop of a poll, given the answer of the merge: what is returned, or
nothing to poll again. -/
def received (self : SwarmEngine PublicKey Error) :
    Poll (Option (Except Error (Peer PublicKey))) →
      SwarmEngine PublicKey Error × Option (Poll (Option (Except Error (Peer PublicKey))))
  | .ready (some (.ok peer)) =>
      if peer.id = self.localId then (self, none)
      else if keys.asBytes peer.id ∉ self.seen then
        ({ self with seen := insert (keys.asBytes peer.id) self.seen },
          some (.ready (some (.ok peer))))
      else (self, none)
  | .ready (some (.error err)) => (self, some (.ready (some (.error err))))
  | .ready none => (self, some (.ready none))
  | .pending => (self, some .pending)

/-- An engine with the history of its stream: what its feeds have delivered and from
which of them, what it has yielded, and whether it has ended. -/
structure Session (PublicKey Error : Type) where
  engine : SwarmEngine PublicKey Error
  arrived : List (Nat × Except Error (Peer PublicKey))
  yielded : List (Except Error (Peer PublicKey))
  ended : Bool

/-- Record what a poll returns. -/
def Session.returned (s : Session PublicKey Error) :
    Option (Poll (Option (Except Error (Peer PublicKey)))) → Session PublicKey Error
  | some (.ready (some item)) => { s with yielded := s.yielded ++ [item] }
  | some (.ready none) => { s with ended := true }
  | some .pending => s
  | none => s

/-- Record what a feed delivers. -/
def Session.delivered (s : Session PublicKey Error) :
    Turn → Poll (Option (Except Error (Peer PublicKey))) → Session PublicKey Error
  | .deliver i, .ready (some item) => { s with arrived := s.arrived ++ [(i, item)] }
  | _, _ => s

/-- One poll of the merged feeds and the round of the loop it is part of. -/
def step (s : Session PublicKey Error) (turn : Turn) : Option (Session PublicKey Error) :=
  (Merge.poll s.engine.inner turn).map fun answer =>
    let outcome := ({ s.engine with inner := answer.2 } : SwarmEngine PublicKey Error).received
      keys answer.1
    (({ s with engine := outcome.1 } : Session PublicKey Error).delivered turn answer.1).returned
      outcome.2

/-- An engine polled in any order of its feeds. -/
def system (localId : PublicKey) (alpn : List UInt8)
    (feeds : List (PeerFeedSpec PublicKey Error)) : System (Session PublicKey Error) Turn where
  init :=
    { engine := new localId alpn feeds
      arrived := []
      yielded := []
      ended := false }
  step := step keys

end SwarmEngine

/-! ## First arrivals -/

section FirstArrivals

/-- The node an item names. -/
def peerId? : Except Error (Peer PublicKey) → Option PublicKey
  | .ok peer => some peer.id
  | .error _ => none

/-- The error an item is. -/
def error? {α : Type} : Except Error α → Option Error
  | .ok _ => none
  | .error err => some err

@[simp] theorem peerId?_ok (peer : Peer PublicKey) :
    peerId? (.ok peer : Except Error (Peer PublicKey)) = some peer.id := rfl

@[simp] theorem peerId?_error (err : Error) :
    peerId? (.error err : Except Error (Peer PublicKey)) = none := rfl

@[simp] theorem error?_ok {α : Type} (a : α) : error? (.ok a : Except Error α) = none := rfl

@[simp] theorem error?_error {α : Type} (err : Error) :
    error? (.error err : Except Error α) = some err := rfl

/-- The nodes named by arrivals. -/
def arrivedIds (arrived : List (Nat × Except Error (Peer PublicKey))) : List PublicKey :=
  arrived.filterMap fun a => peerId? a.2

theorem mem_arrivedIds_concat {arrived : List (Nat × Except Error (Peer PublicKey))}
    {a : Nat × Except Error (Peer PublicKey)} {id : PublicKey} :
    id ∈ arrivedIds (arrived ++ [a]) ↔ id ∈ arrivedIds arrived ∨ peerId? a.2 = some id := by
  simp [arrivedIds, List.filterMap_append]

variable [DecidableEq PublicKey]

/-- An item worth reporting: an error, or a remote node that has not arrived before. -/
def Fresh (localId : PublicKey) (before : List (Nat × Except Error (Peer PublicKey))) :
    Except Error (Peer PublicKey) → Prop
  | .ok peer => peer.id ≠ localId ∧ peer.id ∉ arrivedIds before
  | .error _ => True

instance (localId : PublicKey) (before : List (Nat × Except Error (Peer PublicKey)))
    (item : Except Error (Peer PublicKey)) : Decidable (Fresh localId before item) :=
  match item with
  | .ok peer => inferInstanceAs (Decidable (peer.id ≠ localId ∧ peer.id ∉ arrivedIds before))
  | .error _ => inferInstanceAs (Decidable True)

/-- The items of a list that are fresh when they arrive, given what arrived before. -/
def firstArrivals (localId : PublicKey) (before : List (Nat × Except Error (Peer PublicKey))) :
    List (Nat × Except Error (Peer PublicKey)) → List (Except Error (Peer PublicKey))
  | [] => []
  | a :: arrived =>
      if Fresh localId before a.2 then a.2 :: firstArrivals localId (before ++ [a]) arrived
      else firstArrivals localId (before ++ [a]) arrived

variable {localId : PublicKey}

theorem firstArrivals_concat (before arrived : List (Nat × Except Error (Peer PublicKey)))
    (a : Nat × Except Error (Peer PublicKey)) :
    firstArrivals localId before (arrived ++ [a])
      = firstArrivals localId before arrived
        ++ if Fresh localId (before ++ arrived) a.2 then [a.2] else [] := by
  induction arrived generalizing before with
  | nil => simp [firstArrivals]
  | cons b arrived ih =>
      simp only [List.cons_append, firstArrivals, ih, List.append_assoc]
      split
      · rfl
      · rfl

/-- Every error is reported, in order. -/
theorem filterMap_error_firstArrivals (arrived : List (Nat × Except Error (Peer PublicKey))) :
    (firstArrivals localId [] arrived).filterMap error?
      = arrived.filterMap fun a => error? a.2 := by
  induction arrived using List.reverseRecOn with
  | nil => rfl
  | append_singleton arrived a ih =>
      rw [firstArrivals_concat, List.filterMap_append, List.filterMap_append, ih]
      rcases a with ⟨i, err | peer⟩
      · simp [Fresh]
      · split <;> simp [List.filterMap_cons]

/-- The nodes reported are the remote nodes that have arrived. -/
theorem mem_ids_firstArrivals {arrived : List (Nat × Except Error (Peer PublicKey))}
    {id : PublicKey} :
    id ∈ (firstArrivals localId [] arrived).filterMap peerId? ↔
      id ≠ localId ∧ id ∈ arrivedIds arrived := by
  induction arrived using List.reverseRecOn with
  | nil => simp [firstArrivals, arrivedIds]
  | append_singleton arrived a ih =>
      rw [firstArrivals_concat, List.filterMap_append, List.mem_append, ih, mem_arrivedIds_concat]
      rcases a with ⟨i, err | peer⟩
      · simp [Fresh]
      · by_cases hfresh : Fresh localId arrived (.ok peer : Except Error (Peer PublicKey))
        · simp only [List.nil_append, if_pos hfresh, List.filterMap_cons, peerId?_ok,
            List.filterMap_nil, List.mem_singleton, Option.some.injEq]
          constructor
          · rintro (h | rfl)
            · exact ⟨h.1, Or.inl h.2⟩
            · exact ⟨hfresh.1, Or.inr rfl⟩
          · rintro ⟨hne, h | h⟩
            · exact Or.inl ⟨hne, h⟩
            · exact Or.inr h.symm
        · simp only [List.nil_append, if_neg hfresh, List.filterMap_nil, List.not_mem_nil, or_false,
            peerId?_ok, Option.some.injEq]
          constructor
          · exact fun h => ⟨h.1, Or.inl h.2⟩
          · rintro ⟨hne, h | rfl⟩
            · exact ⟨hne, h⟩
            · refine ⟨hne, ?_⟩
              by_contra hnew
              exact hfresh ⟨hne, hnew⟩

/-- No node is reported twice. -/
theorem nodup_ids_firstArrivals (arrived : List (Nat × Except Error (Peer PublicKey))) :
    ((firstArrivals localId [] arrived).filterMap peerId?).Nodup := by
  induction arrived using List.reverseRecOn with
  | nil => simp [firstArrivals]
  | append_singleton arrived a ih =>
      rw [firstArrivals_concat, List.filterMap_append]
      split <;> rename_i hfresh
      · rcases a with ⟨i, err | peer⟩
        · simpa [List.filterMap_cons] using ih
        · rw [List.nodup_append]
          refine ⟨ih, by simp, ?_⟩
          intro id hid id' hid' heq
          have hid' : id' = peer.id := by simpa using hid'
          have hold := (mem_ids_firstArrivals.mp hid).2
          exact hfresh.2 (by simpa [heq, hid'] using hold)
      · simpa using ih

/-- A node is reported with the item that named it first. -/
theorem mem_firstArrivals {arrived : List (Nat × Except Error (Peer PublicKey))}
    {item : Except Error (Peer PublicKey)} :
    item ∈ firstArrivals localId [] arrived ↔
      ∃ before i after, arrived = before ++ (i, item) :: after ∧ Fresh localId before item := by
  induction arrived using List.reverseRecOn with
  | nil => simp [firstArrivals]
  | append_singleton arrived a ih =>
      rw [firstArrivals_concat, List.mem_append, ih]
      constructor
      · rintro (⟨before, i, after, rfl, hfresh⟩ | h)
        · exact ⟨before, i, after ++ [a], by simp, hfresh⟩
        · split at h <;> rename_i hfresh
          · rcases List.mem_singleton.mp h with rfl
            exact ⟨arrived, a.1, [], rfl, hfresh⟩
          · simp at h
      · rintro ⟨before, i, after, heq, hfresh⟩
        rcases List.eq_nil_or_concat after with rfl | ⟨after, b, rfl⟩
        · rcases List.append_inj' heq rfl with ⟨rfl, ha⟩
          rcases List.singleton_inj.mp ha with rfl
          exact Or.inr (by simpa using hfresh)
        · rw [List.concat_eq_append, ← List.cons_append, ← List.append_assoc] at heq
          rcases List.append_inj' heq rfl with ⟨rfl, -⟩
          exact Or.inl ⟨before, i, after, rfl, hfresh⟩

end FirstArrivals

/-! ## Runs of the engine -/

namespace SwarmEngine

section Run

variable [DecidableEq PublicKey] (keys : Keys SecretKey PublicKey Signature)

/-- The loop returns the item. -/
def passes (self : SwarmEngine PublicKey Error) : Except Error (Peer PublicKey) → Bool
  | .ok peer => decide (peer.id ≠ self.localId ∧ keys.asBytes peer.id ∉ self.seen)
  | .error _ => true

/-- The nodes seen after an item. -/
def noted (self : SwarmEngine PublicKey Error) : Except Error (Peer PublicKey) → Finset NodeId
  | .ok peer =>
      if peer.id = self.localId then self.seen else insert (keys.asBytes peer.id) self.seen
  | .error _ => self.seen

/-- What the loop does with an item. -/
theorem received_item (self : SwarmEngine PublicKey Error) (item : Except Error (Peer PublicKey)) :
    self.received keys (.ready (some item))
      = ({ self with seen := self.noted keys item },
          if self.passes keys item then some (.ready (some item)) else none) := by
  cases item with
  | error err => rfl
  | ok peer =>
      by_cases hlocal : peer.id = self.localId
      · simp [received, noted, passes, hlocal]
      · by_cases hseen : keys.asBytes peer.id ∈ self.seen
        · simp [received, noted, passes, hlocal, hseen]
        · simp [received, noted, passes, hlocal, hseen]

/-- The session after an item. -/
def Session.next (s : Session PublicKey Error) (i : Nat) (item : Except Error (Peer PublicKey))
    (inner : List (Seq (Except Error (Peer PublicKey)))) : Session PublicKey Error where
  engine := { s.engine with inner := inner, seen := s.engine.noted keys item }
  arrived := s.arrived ++ [(i, item)]
  yielded := s.yielded ++ if s.engine.passes keys item then [item] else []
  ended := s.ended

variable {keys} {s s' : Session PublicKey Error} {turn : Turn}

/-- The three things a poll can do. -/
theorem step_cases (h : step keys s turn = some s') :
    (∃ i item rest, turn = .deliver i ∧ s.engine.inner[i]? = some (Seq.cons item rest) ∧
      s' = s.next keys i item (s.engine.inner.set i rest)) ∨
    (turn = .pending ∧ exhausted s.engine.inner = false ∧ s' = s) ∨
    (turn = .finish ∧ exhausted s.engine.inner = true ∧ s' = { s with ended := true }) := by
  simp only [step, Option.map_eq_some_iff] at h
  rcases h with ⟨⟨answer, inner⟩, hpoll, rfl⟩
  rcases poll_cases hpoll with
    ⟨i, item, rest, rfl, hsource, rfl, rfl⟩ | ⟨rfl, hend, rfl, rfl⟩ | ⟨rfl, hend, rfl, rfl⟩
  · refine Or.inl ⟨i, item, rest, rfl, hsource, ?_⟩
    simp only [received_item]
    have hpasses : ({ s.engine with inner := s.engine.inner.set i rest } :
        SwarmEngine PublicKey Error).passes keys item = s.engine.passes keys item := by
      cases item <;> rfl
    have hnoted : ({ s.engine with inner := s.engine.inner.set i rest } :
        SwarmEngine PublicKey Error).noted keys item = s.engine.noted keys item := by
      cases item <;> rfl
    rw [hpasses, hnoted]
    cases hitem : s.engine.passes keys item with
    | true => simp [Session.delivered, Session.returned, Session.next, hitem]
    | false => simp [Session.delivered, Session.returned, Session.next, hitem]
  · exact Or.inr (Or.inl ⟨rfl, hend, rfl⟩)
  · exact Or.inr (Or.inr ⟨rfl, hend, rfl⟩)

/-- What holds of an engine all along. -/
structure Inv (keys : Keys SecretKey PublicKey Signature) (start : SwarmEngine PublicKey Error)
    (s : Session PublicKey Error) : Prop where
  account : Account start.inner s.engine.inner s.arrived
  localId_eq : s.engine.localId = start.localId
  seen_iff : ∀ id, keys.asBytes id ∈ s.engine.seen ↔
    id ≠ start.localId ∧ id ∈ arrivedIds s.arrived
  yielded_eq : s.yielded = firstArrivals start.localId [] s.arrived
  exhausted_of_ended : s.ended = true → exhausted s.engine.inner = true

/-- The loop returns exactly the fresh items. -/
theorem Inv.passes_iff {start : SwarmEngine PublicKey Error} (h : Inv keys start s)
    (item : Except Error (Peer PublicKey)) :
    s.engine.passes keys item = true ↔ Fresh start.localId s.arrived item := by
  cases item with
  | error err => simp [passes, Fresh]
  | ok peer =>
      simp only [passes, Fresh, decide_eq_true_eq, h.localId_eq, h.seen_iff]
      tauto

/-- An item is noted exactly if it names a remote node. -/
theorem Inv.noted_iff {start : SwarmEngine PublicKey Error} (h : Inv keys start s) (i : Nat)
    (item : Except Error (Peer PublicKey)) (id : PublicKey) :
    keys.asBytes id ∈ s.engine.noted keys item ↔
      id ≠ start.localId ∧ id ∈ arrivedIds (s.arrived ++ [(i, item)]) := by
  rw [mem_arrivedIds_concat]
  cases item with
  | error err => simp [noted, h.seen_iff]
  | ok peer =>
      simp only [noted, h.localId_eq, peerId?_ok, Option.some.injEq]
      by_cases hlocal : peer.id = start.localId
      · rw [if_pos hlocal, h.seen_iff]
        constructor
        · exact fun hid => ⟨hid.1, Or.inl hid.2⟩
        · rintro ⟨hne, hid | rfl⟩
          · exact ⟨hne, hid⟩
          · exact absurd hlocal hne
      · rw [if_neg hlocal, Finset.mem_insert, h.seen_iff, keys.asBytes_injective.eq_iff]
        constructor
        · rintro (rfl | hid)
          · exact ⟨hlocal, Or.inr rfl⟩
          · exact ⟨hid.1, Or.inl hid.2⟩
        · rintro ⟨hne, hid | hid⟩
          · exact Or.inr ⟨hne, hid⟩
          · exact Or.inl hid.symm

/-- A poll keeps what holds of an engine. -/
theorem Inv.step {start : SwarmEngine PublicKey Error} (h : Inv keys start s)
    (hstep : SwarmEngine.step keys s turn = some s') : Inv keys start s' := by
  rcases step_cases hstep with
    ⟨i, item, rest, -, hsource, rfl⟩ | ⟨-, -, rfl⟩ | ⟨-, hend, rfl⟩
  · refine ⟨h.account.deliver hsource, h.localId_eq, h.noted_iff i item, ?_, ?_⟩
    · show s.yielded ++ _ = firstArrivals start.localId [] (s.arrived ++ [(i, item)])
      rw [firstArrivals_concat, h.yielded_eq]
      exact congrArg _ (if_congr (h.passes_iff item) rfl rfl)
    · intro hended
      have hnil := exhausted_iff.mp (h.exhausted_of_ended hended) _ (List.mem_of_getElem? hsource)
      exact absurd hnil Seq.cons_ne_nil
  · exact h
  · exact ⟨h.account, h.localId_eq, h.seen_iff, h.yielded_eq, fun _ => hend⟩

theorem inv_of_reachable {localId : PublicKey} {alpn : List UInt8}
    {feeds : List (PeerFeedSpec PublicKey Error)}
    (hs : (system keys localId alpn feeds).Reachable s) : Inv keys (new localId alpn feeds) s := by
  induction hs with
  | init =>
      refine ⟨Account.nil _, rfl, ?_, rfl, ?_⟩
      · intro id
        simp [system, new, arrivedIds]
      · intro h
        exact absurd h Bool.false_ne_true
  | step _ _ hstep ih => exact ih.step hstep

/-- A session of an engine that merges the feeds that apply, without repetitions. -/
structure MergesFeeds (keys : Keys SecretKey PublicKey Signature) (localId : PublicKey)
    (alpn : List UInt8) (feeds : List (PeerFeedSpec PublicKey Error))
    (s : Session PublicKey Error) : Prop where
  /-- Each feed that applies has delivered its items up to some point, in order. -/
  delivered : ∀ i spec, (applicableFeeds alpn feeds)[i]? = some spec →
    ∃ rest, s.engine.inner[i]? = some rest ∧
      spec.tagged.items = (Seq.ofList (arrivals i s.arrived)).append rest
  /-- Every arrival is an item of a feed that applies, tagged with its name and trust. -/
  tagged : ∀ a ∈ s.arrived, ∃ spec ∈ feeds, scopeMatches spec.scope alpn = true ∧
    (applicableFeeds alpn feeds)[a.1]? = some spec ∧
      ∃ item ∈ spec.stream, a.2 = spec.tagged.tag item
  /-- What is yielded are the errors and the first arrivals, in the order of arrival. -/
  yielded_eq : s.yielded = firstArrivals localId [] s.arrived
  /-- Every error is yielded, as often as it arrived. -/
  errors : s.yielded.filterMap error? = s.arrived.filterMap fun a => error? a.2
  /-- No node is yielded twice. -/
  distinct : (s.yielded.filterMap peerId?).Nodup
  /-- The nodes yielded are the remote nodes that have arrived. -/
  nodes : ∀ id, id ∈ s.yielded.filterMap peerId? ↔ id ≠ localId ∧ id ∈ arrivedIds s.arrived
  /-- A node is yielded as it first arrived. -/
  first : ∀ peer : Peer PublicKey, .ok peer ∈ s.yielded ↔
    ∃ before i after, s.arrived = before ++ (i, .ok peer) :: after ∧
      peer.id ≠ localId ∧ peer.id ∉ arrivedIds before
  /-- The next poll can report the end exactly if every feed that applies has ended, and
  then nothing else can happen. -/
  finish_iff : (∃ s', step keys s .finish = some s' ∧ s'.ended = true) ↔
    ∀ rest ∈ s.engine.inner, rest = Seq.nil
  only_finish : (∀ rest ∈ s.engine.inner, rest = Seq.nil) →
    ∀ turn s', step keys s turn = some s' → turn = .finish
  /-- When the end has been reported, the feeds that apply are finite; all their errors
  and all their remote nodes have been yielded. -/
  complete : s.ended = true → ∃ lists : List (List (Except Error (Peer PublicKey))),
    List.Forall₂ (fun spec l => spec.tagged.items = Seq.ofList l) (applicableFeeds alpn feeds)
      lists ∧
    (s.yielded.filterMap error?).Perm (lists.flatten.filterMap error?) ∧
    ∀ id, id ∈ s.yielded.filterMap peerId? ↔
      id ≠ localId ∧ id ∈ lists.flatten.filterMap peerId?

end Run

end SwarmEngine

open SwarmEngine

/-- The feeds of the repository's own test: the local node and a remote one, and the
remote one again. -/
def twoStaticFeeds : List (PeerFeedSpec NodeId String) :=
  [staticFeed [repeatedId 1, repeatedId 2] 10 100 .any, staticFeed [repeatedId 2] 20 100 .any]

end IrohTransport.Swarm
