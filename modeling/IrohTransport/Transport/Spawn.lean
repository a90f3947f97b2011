import IrohTransport.Swarm.Rounds
import IrohTransport.Transport.UserData
import Mathlib.Data.List.AList

/-!
# Spawning a transport

The builder collects services, and spawning turns them into four tables: the protocols of
the router, the services of the tonic server, the user data of the endpoint and the services
of the publisher.  Connections are accepted by the first, requests are answered by the
second, and other nodes find the transport by the third and the fourth, so the four have to
agree.

Main results:

- Theorem {lit}`Builder.alpns_configure`: the ALPNs of a builder are those of its services.
- Theorem {lit}`foldlM_register`: services register if all their names are different.
- Theorem {lit}`spawned_transport_serves_what_it_advertises`: after any calls of the builder
  the four tables agree, and the mDNS feed of a service yields the node exactly if it serves
  it.
-/

namespace IrohTransport.Transport

open Swarm (DhtPublisher DiscoveredPeer)

variable {SecretKey Id : Type} {maxLength : Nat}

/-- {lit}`DEFAULT_INCOMING_BUFFER_CAPACITY`. -/
def defaultIncomingBufferCapacity : Nat := 256

/-- {lit}`Semaphore::MAX_PERMITS`, with a {lit}`usize` of 64 bits: the most that a channel of
tokio can hold. -/
def maxPermits : Nat := 2 ^ 61 - 1

/-! ## The builder -/

/-- {lit}`TransportBuilder` with all its fields but the endpoint. -/
structure Builder (SecretKey : Type) extends TransportBuilder where
  incomingBufferCapacity : Nat
  publisher : Option (DhtPublisher SecretKey)

/-- A call of the builder. -/
inductive BuilderCall (SecretKey : Type) where
  | withPublisher (publisher : DhtPublisher SecretKey)
  | addRpc (service : NamedService)
  | incomingBufferCapacity (capacity : Nat)

/-- The service that a call adds. -/
def BuilderCall.service? : BuilderCall SecretKey → Option NamedService
  | .addRpc service => some service
  | _ => none

/-- The publisher that a call sets. -/
def BuilderCall.publisher? : BuilderCall SecretKey → Option (DhtPublisher SecretKey)
  | .withPublisher publisher => some publisher
  | _ => none

namespace Builder

def new : Builder SecretKey where
  toTransportBuilder := TransportBuilder.new
  incomingBufferCapacity := defaultIncomingBufferCapacity
  publisher := none

def call (self : Builder SecretKey) : BuilderCall SecretKey → Builder SecretKey
  | .withPublisher publisher => { self with publisher := some publisher }
  | .addRpc service => { self with toTransportBuilder := self.toTransportBuilder.addRpc service }
  | .incomingBufferCapacity capacity =>
      { self with incomingBufferCapacity := max capacity 1 }

/-- A chain of calls. -/
def configure (calls : List (BuilderCall SecretKey)) : Builder SecretKey :=
  calls.foldl call new

theorem configure_concat (calls : List (BuilderCall SecretKey)) (c : BuilderCall SecretKey) :
    configure (calls ++ [c]) = (configure calls).call c := by
  simp [configure]

/-- The services of a builder are those that were added, in order. -/
theorem services_configure (calls : List (BuilderCall SecretKey)) :
    (configure calls).services = calls.filterMap BuilderCall.service? := by
  induction calls using List.reverseRecOn with
  | nil => rfl
  | append_singleton calls c ih =>
      rw [configure_concat, List.filterMap_append, ← ih]
      cases c with
      | addRpc service => rfl
      | withPublisher publisher | incomingBufferCapacity capacity =>
          exact (List.append_nil _).symm

/-- The ALPNs of a builder are those of its services. -/
theorem alpns_configure (calls : List (BuilderCall SecretKey)) :
    (configure calls).alpns = (configure calls).services.map serviceToAlpn := by
  induction calls using List.reverseRecOn with
  | nil => rfl
  | append_singleton calls c ih =>
      rw [configure_concat]
      cases c with
      | addRpc service => simp [call, TransportBuilder.addRpc, ih]
      | withPublisher publisher | incomingBufferCapacity capacity => exact ih

/-- The publisher of a builder is the last that was set. -/
theorem publisher_configure (calls : List (BuilderCall SecretKey)) :
    (configure calls).publisher = (calls.filterMap BuilderCall.publisher?).getLast? := by
  induction calls using List.reverseRecOn with
  | nil => rfl
  | append_singleton calls c ih =>
      rw [configure_concat, List.filterMap_append]
      cases c with
      | withPublisher publisher =>
          exact List.getLast?_concat.symm
      | addRpc service | incomingBufferCapacity capacity =>
          exact ih.trans (congrArg _ (List.append_nil _).symm)

/-- A channel has room for a stream. -/
theorem incomingBufferCapacity_configure (calls : List (BuilderCall SecretKey)) :
    1 ≤ (configure calls).incomingBufferCapacity := by
  induction calls using List.reverseRecOn with
  | nil => exact Nat.succ_le_succ (Nat.zero_le 255)
  | append_singleton calls c ih =>
      rw [configure_concat]
      cases c with
      | incomingBufferCapacity capacity => exact Nat.le_max_right capacity 1
      | withPublisher publisher | addRpc service => exact ih

end Builder

/-! ## Spawning -/

/-- The router's protocols and the services of the tonic server while services register. -/
structure Registration where
  protocols : AList fun _ : List UInt8 => NamedService
  tonicRouter : Option (List NamedService)

/-- Add a service to a tonic server.  This registers the route of its name, and panics if there
is one already; names are taken to be segments of a path, as those that tonic generates are. -/
def addService (services : List NamedService) (service : NamedService) :
    Option (List NamedService) :=
  if service.name ∈ services.map NamedService.name then none else some (services ++ [service])

/-- {lit}`AddService::register`. -/
def Registration.register (self : Registration) (service : NamedService) : Option Registration :=
  let tonicRouter := match self.tonicRouter with
    | some services => addService services service
    | none => addService [] service
  tonicRouter.map fun services =>
    { protocols := self.protocols.insert (serviceToAlpn service) service
      tonicRouter := some services }

/-- What is there when a transport has been spawned. -/
structure Spawned (SecretKey : Type) (maxLength : Nat) extends Registration where
  userData : Option (UserData maxLength)
  incomingBufferCapacity : Nat
  publisher : Option (DhtPublisher SecretKey)

/-- The router accepts connections for an ALPN. -/
def Registration.accepts (self : Registration) (alpn : List UInt8) : Bool :=
  (self.protocols.lookup alpn).isSome

/-- {lit}`IrohIncoming::new`, which panics if a channel cannot have this capacity. -/
def IrohIncoming.new (bufferCapacity : Nat) : Option Nat :=
  if bufferCapacity = 0 ∨ maxPermits < bufferCapacity then none else some bufferCapacity

/-- Spawn a transport on an endpoint with some user data.  Without a result it panics. -/
def Builder.spawn (self : Builder SecretKey) (userData : Option (UserData maxLength)) :
    Option (Except Error (Spawned SecretKey maxLength)) :=
  (IrohIncoming.new self.incomingBufferCapacity).bind fun incomingBufferCapacity =>
    (self.services.foldlM Registration.register ⟨∅, none⟩).map fun registration =>
      let published :=
        if !self.alpns.isEmpty then (encodeAlpns maxLength self.alpns).map some else .ok userData
      published.map fun userData =>
        { toRegistration := registration
          userData := userData
          incomingBufferCapacity := incomingBufferCapacity
          publisher := self.publisher.map fun publisher =>
            self.alpns.foldl DhtPublisher.addService publisher }

/-- What has registered after some services of different names. -/
def Registration.of (services : List NamedService) : Registration where
  protocols := services.foldl (fun protocols s => protocols.insert (serviceToAlpn s) s) ∅
  tonicRouter := if services = [] then none else some services

section Registration

variable (services : List NamedService)

theorem Registration.register_of (service : NamedService) :
    (Registration.of services).register service =
      if service.name ∈ services.map NamedService.name then none
      else some (.of (services ++ [service])) := by
  have hrouter : (match (Registration.of services).tonicRouter with
      | some services => addService services service
      | none => addService [] service) = addService services service := by
    cases services <;> rfl
  rw [Registration.register, hrouter, addService]
  split
  · rfl
  · simp [Registration.of]

/-- Services register if all their names are different. -/
theorem foldlM_register :
    services.foldlM Registration.register ⟨∅, none⟩ =
      if (services.map NamedService.name).Nodup then some (.of services) else none := by
  induction services using List.reverseRecOn with
  | nil => rfl
  | append_singleton services service ih =>
      rw [List.foldlM_append, ih, List.map_append, List.map_singleton]
      by_cases hnodup : (services.map NamedService.name).Nodup
      · rw [if_pos hnodup]
        have hlast : (services.map NamedService.name ++ [service.name]).Nodup ↔
            service.name ∉ services.map NamedService.name := by
          rw [List.nodup_append_comm, List.singleton_append, List.nodup_cons]
          exact and_iff_left hnodup
        simp only [hlast, ite_not]
        exact (bind_pure _).trans (Registration.register_of services service)
      · rw [if_neg hnodup, if_neg fun h => hnodup h.of_append_left]
        rfl

/-- The protocols are those of the services that have registered, each with the handler of a
service of its name. -/
theorem lookup_registered (alpn : List UInt8) :
    (∀ handler, (Registration.of services).protocols.lookup alpn = some handler →
        handler ∈ services ∧ serviceToAlpn handler = alpn) ∧
      ((∃ service ∈ services, serviceToAlpn service = alpn) →
        ((Registration.of services).protocols.lookup alpn).isSome = true) := by
  induction services using List.reverseRecOn with
  | nil => simp [Registration.of]
  | append_singleton services service ih =>
      simp only [Registration.of, List.foldl_append, List.foldl_cons, List.foldl_nil] at ih ⊢
      by_cases halpn : alpn = serviceToAlpn service
      · subst halpn
        rw [AList.lookup_insert]
        refine ⟨?_, fun _ => rfl⟩
        rintro handler hhandler
        obtain rfl := Option.some.inj hhandler
        exact ⟨List.mem_append_right _ (List.mem_singleton.mpr rfl), rfl⟩
      · rw [AList.lookup_insert_ne halpn]
        constructor
        · intro handler hhandler
          rcases ih.1 handler hhandler with ⟨hmem, hsame⟩
          exact ⟨List.mem_append_left _ hmem, hsame⟩
        · rintro ⟨other, hother, hsame⟩
          rcases List.mem_append.mp hother with hother | hother
          · exact ih.2 ⟨other, hother, hsame⟩
          · obtain rfl := List.mem_singleton.mp hother
            exact (halpn hsame.symm).elim

theorem accepts_registered (service : NamedService) :
    (Registration.of services).accepts (serviceToAlpn service) = true ↔
      ∃ s ∈ services, s.name = service.name := by
  rw [Registration.accepts]
  constructor
  · intro hsome
    rcases Option.isSome_iff_exists.mp hsome with ⟨handler, hhandler⟩
    rcases (lookup_registered services _).1 handler hhandler with ⟨hmem, hsame⟩
    exact ⟨handler, hmem, serviceToAlpn_inj.mp hsame⟩
  · rintro ⟨s, hs, hname⟩
    exact (lookup_registered services _).2 ⟨s, hs, serviceToAlpn_inj.mpr hname⟩

end Registration

/-- The channel of a builder is never without room, so only a large capacity makes it panic. -/
theorem IrohIncoming.new_configure (calls : List (BuilderCall SecretKey)) :
    IrohIncoming.new (Builder.configure calls).incomingBufferCapacity =
      if (Builder.configure calls).incomingBufferCapacity ≤ maxPermits then
        some (Builder.configure calls).incomingBufferCapacity else none := by
  have hroom := Builder.incomingBufferCapacity_configure calls
  have hcapacity : (Builder.configure calls).incomingBufferCapacity = 0 ∨
      maxPermits < (Builder.configure calls).incomingBufferCapacity ↔
        ¬(Builder.configure calls).incomingBufferCapacity ≤ maxPermits := by
    omega
  rw [IrohIncoming.new, if_congr hcapacity rfl rfl, ite_not]

/-- Services are added behind those of the publisher. -/
theorem foldl_addService (alpns : List (List UInt8)) (publisher : DhtPublisher SecretKey) :
    alpns.foldl DhtPublisher.addService publisher =
      { publisher with services := publisher.services ++ alpns } := by
  induction alpns generalizing publisher with
  | nil => simp
  | cons alpn alpns ih => simp [ih, DhtPublisher.addService]

/-! ## Finding a transport -/

/-- What mDNS reports about the nodes of the local network. -/
inductive DiscoveryEvent (Id : Type) (maxLength : Nat) where
  | discovered (endpointId : Id) (userData : Option (UserData maxLength))
  | expired (endpointId : Id)

/-- What {lit}`mdns_feed` yields on some events. -/
def mdnsFeed (alpn : List UInt8) (trust : UInt8) (events : List (DiscoveryEvent Id maxLength)) :
    List (DiscoveredPeer Id) :=
  events.filterMap fun
    | .discovered endpointId userData =>
        match classifyUserDataAlpn userData alpn with
        | .matches => some { id := endpointId, trust := trust }
        | .mismatch | .missing => none
    | .expired _ => none

theorem mem_mdnsFeed {alpn : List UInt8} {trust : UInt8}
    {events : List (DiscoveryEvent Id maxLength)} {peer : DiscoveredPeer Id} :
    peer ∈ mdnsFeed alpn trust events ↔ peer.trust = trust ∧
      ∃ userData, .discovered peer.id userData ∈ events ∧
        classifyUserDataAlpn userData alpn = .matches := by
  rw [mdnsFeed, List.mem_filterMap]
  constructor
  · rintro ⟨event, hevent, hsome⟩
    cases event with
    | expired endpointId => contradiction
    | discovered endpointId userData =>
        simp only at hsome
        split at hsome <;> rename_i hmatch
        · obtain rfl := Option.some.inj hsome
          exact ⟨rfl, userData, hevent, hmatch⟩
        · contradiction
        · contradiction
  · rintro ⟨rfl, userData, hevent, hmatch⟩
    exact ⟨_, hevent, by simp [hmatch]⟩

theorem map_eq_ok {α β ε : Type} {f : α → β} {x : Except ε α} {b : β} :
    x.map f = .ok b ↔ ∃ a, x = .ok a ∧ f a = b := by
  cases x with
  | ok a => simp [Except.map]
  | error err => simp [Except.map]

theorem map_eq_error {α β ε : Type} {f : α → β} {x : Except ε α} {err : ε} :
    x.map f = .error err ↔ x = .error err := by
  cases x with
  | ok a => simp [Except.map]
  | error err => simp [Except.map]

/-- A result that is neither a panic nor an error. -/
theorem eq_some_ok {α ε : Type} {x : Option (Except ε α)} {a : α}
    (h : x.bind Except.toOption = some a) : x = some (.ok a) := by
  rcases Option.bind_eq_some_iff.mp h with ⟨result, rfl, hresult⟩
  cases result with
  | ok b =>
      obtain rfl : b = a := Option.some.inj hresult
      rfl
  | error err => contradiction

/-- What the user data of some services say about a service. -/
theorem classify_encoded {services : List NamedService} {userData : UserData maxLength}
    (h : encodeAlpns maxLength (services.map serviceToAlpn) = .ok userData)
    (service : NamedService) :
    classifyUserDataAlpn (some userData) (serviceToAlpn service) = .matches ↔
      ∃ s ∈ services, s.name = service.name := by
  have hregistered :
      encodeAlpns maxLength (TransportBuilder.registered services).alpns = .ok userData := by
    rw [TransportBuilder.alpns_registered]
    exact h
  rw [← userDataHasAlpn_registered hregistered service]
  simp only [classifyUserDataAlpn]
  split <;> simp_all

/-- What spawning gives, or why it fails. -/
theorem spawn_eq (calls : List (BuilderCall SecretKey)) (before : Option (UserData maxLength)) :
    let services := calls.filterMap BuilderCall.service?
    let alpns := services.map serviceToAlpn
    (Builder.configure calls).spawn before =
      if (Builder.configure calls).incomingBufferCapacity ≤ maxPermits ∧
          (services.map NamedService.name).Nodup then
        some ((if services = [] then .ok before else (encodeAlpns maxLength alpns).map some).map
          fun userData =>
            { toRegistration := .of services
              userData := userData
              incomingBufferCapacity := (Builder.configure calls).incomingBufferCapacity
              publisher := (calls.filterMap BuilderCall.publisher?).getLast?.map fun publisher =>
                { publisher with services := publisher.services ++ alpns } })
      else none := by
  simp only [Builder.spawn, IrohIncoming.new_configure, Builder.alpns_configure,
    Builder.services_configure, Builder.publisher_configure, foldl_addService, foldlM_register]
  by_cases hcapacity : (Builder.configure calls).incomingBufferCapacity ≤ maxPermits
  · rw [if_pos hcapacity, Option.bind_some]
    by_cases hnodup : ((calls.filterMap BuilderCall.service?).map NamedService.name).Nodup
    · rw [if_pos hnodup, if_pos (And.intro hcapacity hnodup), Option.map_some]
      cases calls.filterMap BuilderCall.service? <;> rfl
    · rw [if_neg hnodup, Option.map_none, if_neg fun h => hnodup h.2]
  · rw [if_neg hcapacity, Option.bind_none, if_neg fun h => hcapacity h.1]

/-- What a transport that has been spawned consists of. -/
theorem of_spawn {calls : List (BuilderCall SecretKey)} {before : Option (UserData maxLength)}
    {t : Spawned SecretKey maxLength} (h : (Builder.configure calls).spawn before = some (.ok t)) :
    let services := calls.filterMap BuilderCall.service?
    ∃ userData, (if services = [] then .ok before else
        (encodeAlpns maxLength (services.map serviceToAlpn)).map some) = .ok userData ∧
      t = { toRegistration := .of services
            userData := userData
            incomingBufferCapacity := (Builder.configure calls).incomingBufferCapacity
            publisher := (calls.filterMap BuilderCall.publisher?).getLast?.map fun publisher =>
              { publisher with services := publisher.services ++ services.map serviceToAlpn } } := by
  intro services
  rw [spawn_eq] at h
  split at h
  · rcases map_eq_ok.mp (Option.some.inj h) with ⟨userData, huserData, ht⟩
    exact ⟨userData, huserData, ht.symm⟩
  · contradiction

/-- A publisher has its own services and those of the transport. -/
theorem publisher_of_spawn {calls : List (BuilderCall SecretKey)}
    {before : Option (UserData maxLength)} {t : Spawned SecretKey maxLength}
    (h : (Builder.configure calls).spawn before = some (.ok t))
    {publisher : DhtPublisher SecretKey} (hpublisher : t.publisher = some publisher) :
    ∃ given, .withPublisher given ∈ calls ∧ publisher = { given with
      services := given.services ++
        (calls.filterMap BuilderCall.service?).map serviceToAlpn } := by
  rcases of_spawn h with ⟨userData, -, rfl⟩
  rcases Option.map_eq_some_iff.mp hpublisher with ⟨given, hgiven, rfl⟩
  rcases List.mem_filterMap.mp (List.mem_of_getLast? hgiven) with ⟨c, hc, hset⟩
  cases c with
  | withPublisher publisher =>
      obtain rfl := Option.some.inj hset
      exact ⟨publisher, hc, rfl⟩
  | addRpc service | incomingBufferCapacity capacity => contradiction

/-- The router accepts connections for the services that were added. -/
theorem accepts_of_spawn {calls : List (BuilderCall SecretKey)}
    {before : Option (UserData maxLength)} {t : Spawned SecretKey maxLength}
    (h : (Builder.configure calls).spawn before = some (.ok t)) (service : NamedService) :
    t.accepts (serviceToAlpn service) = true ↔
      ∃ s ∈ calls.filterMap BuilderCall.service?, s.name = service.name := by
  rcases of_spawn h with ⟨userData, -, rfl⟩
  exact accepts_registered (calls.filterMap BuilderCall.service?) service

/-- Whatever calls a builder gets: the router accepts connections for exactly the services that
were added, each with a handler of its name that the tonic server has too, and the publisher
adds exactly these to its own.  The user data make the mDNS feed of a service yield the node
exactly if the router accepts connections for it; without services the endpoint keeps what it
had.  The channel between router and server has room.  Spawning panics if two services have
the same name or the channel is too large, and otherwise fails if there are services whose
ALPNs do not fit into user data. -/
theorem spawned_transport_serves_what_it_advertises (Id : Type)
    (calls : List (BuilderCall SecretKey)) (before : Option (UserData maxLength)) :
    let services := calls.filterMap BuilderCall.service?
    (∀ t, (Builder.configure calls).spawn before = some (.ok t) →
      (∀ service, t.accepts (serviceToAlpn service) = true ↔ ∃ s ∈ services, s.name = service.name) ∧
      (∀ alpn handler, t.protocols.lookup alpn = some handler →
        serviceToAlpn handler = alpn ∧ handler ∈ t.tonicRouter.getD []) ∧
      (∀ publisher, t.publisher = some publisher → ∃ given, .withPublisher given ∈ calls ∧
        publisher = { given with services := given.services ++ services.map serviceToAlpn }) ∧
      (services = [] → t.userData = before ∧ t.tonicRouter = none) ∧
      (services ≠ [] → ∀ (service : NamedService) (node : Id) (trust : UInt8)
        (events : List (DiscoveryEvent Id maxLength)),
        (∀ userData, .discovered node userData ∈ events ↔ userData = t.userData) →
          ((∃ peer ∈ mdnsFeed (serviceToAlpn service) trust events, peer.id = node) ↔
            t.accepts (serviceToAlpn service) = true)) ∧
      1 ≤ t.incomingBufferCapacity) ∧
    ((Builder.configure calls).spawn before = none ↔
      maxPermits < (Builder.configure calls).incomingBufferCapacity ∨
        ¬(services.map NamedService.name).Nodup) ∧
    ((∃ err, (Builder.configure calls).spawn before = some (.error err)) ↔
      (Builder.configure calls).incomingBufferCapacity ≤ maxPermits ∧
      (services.map NamedService.name).Nodup ∧ services ≠ [] ∧
      maxLength < (Base64.encode (alpnsCodec.encode (services.map serviceToAlpn))).utf8ByteSize) := by
  intro services
  have hspawn := spawn_eq calls before
  refine ⟨fun t ht => ?_, ?_, ?_⟩
  · have haccepts := accepts_of_spawn ht
    have hpublishers := @publisher_of_spawn _ _ _ _ _ ht
    rcases of_spawn ht with ⟨userData, huserData, rfl⟩
    refine ⟨haccepts, ?_, fun _ => hpublishers, ?_, ?_,
      Builder.incomingBufferCapacity_configure calls⟩
    · intro alpn handler hlookup
      rcases (lookup_registered services alpn).1 handler hlookup with ⟨hmem, hsame⟩
      refine ⟨hsame, ?_⟩
      show handler ∈ (Registration.of services).tonicRouter.getD []
      rw [Registration.of, if_neg (List.ne_nil_of_mem hmem)]
      exact hmem
    · intro hnone
      rw [if_pos hnone] at huserData
      exact ⟨(Except.ok.inj huserData).symm, if_pos hnone⟩
    · intro hsome service node trust events hevents
      rw [if_neg hsome] at huserData
      rcases map_eq_ok.mp huserData with ⟨data, hdata, rfl⟩
      refine Iff.trans ?_ (haccepts service).symm
      rw [← classify_encoded hdata]
      constructor
      · rintro ⟨peer, hpeer, rfl⟩
        rcases mem_mdnsFeed.mp hpeer with ⟨-, reported, hevent, hreported⟩
        obtain rfl : reported = some data := (hevents reported).mp hevent
        exact hreported
      · intro hfound
        exact ⟨⟨node, trust⟩, mem_mdnsFeed.mpr ⟨rfl, _, (hevents _).mpr rfl, hfound⟩, rfl⟩
  · rw [hspawn, ← Nat.not_le, ← not_and_or]
    simp [services]
  · rw [hspawn, ← and_assoc]
    by_cases hruns : (Builder.configure calls).incomingBufferCapacity ≤ maxPermits ∧
        (services.map NamedService.name).Nodup
    · rw [if_pos hruns, and_iff_right hruns]
      simp only [Option.some.injEq, map_eq_error]
      by_cases hnone : services = []
      · simp [services, hnone]
      · rw [if_neg hnone, encodeAlpns_eq, ← Nat.not_le]
        split <;> rename_i hfits <;> simp [hnone, hfits, services, Except.map]
    · rw [if_neg hruns]
      simp [hruns]

/-- Two services, and a capacity of none. -/
def twoServices : List (BuilderCall Nat) :=
  [.addRpc ⟨"echo.Echo"⟩, .incomingBufferCapacity 0, .addRpc ⟨"chat.Chat"⟩]

theorem spawned_transport_serves_what_it_advertises_both :
    ∃ t : Spawned Nat 245, (Builder.configure twoServices).spawn none = some (.ok t) ∧
      t.accepts (serviceToAlpn ⟨"chat.Chat"⟩) = true ∧ 1 ≤ t.incomingBufferCapacity := by
  have hspawned : (((Builder.configure twoServices).spawn
      (none : Option (UserData 245))).bind Except.toOption).isSome = true := by
    decide +kernel
  rcases Option.isSome_iff_exists.mp hspawned with ⟨t, ht⟩
  have hok := eq_some_ok ht
  have hserves := (spawned_transport_serves_what_it_advertises Nat twoServices none).1 t hok
  exact ⟨t, hok, (hserves.1 ⟨"chat.Chat"⟩).mpr ⟨⟨"chat.Chat"⟩,
    by simp [twoServices, BuilderCall.service?], rfl⟩, hserves.2.2.2.2.2⟩

end IrohTransport.Transport
