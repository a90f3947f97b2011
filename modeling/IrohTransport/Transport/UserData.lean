import IrohTransport.Lib.Base64
import IrohTransport.Lib.Codec

/-!
# Service metadata in user data

A server publishes the ALPNs of its services as the user data of its address records:
a postcard sequence of byte strings, written as base64.  Discovery reads the sequence
back and looks for the ALPN of the service it wants; what does not decode counts as no
services at all.

Main results:

- Theorem {lit}`serviceToAlpn_inj`: services of different names have different ALPNs.
- Theorem {lit}`decodeAlpns_encodeAlpns`: reading undoes writing for any byte strings.
- Theorem {lit}`userDataHasAlpn_registered`: what user data say that were written for services.
- Theorem {lit}`metadata_round_trips`: a server is found for exactly its services, and
  writing fails exactly when the text is too long.
-/

namespace IrohTransport.Transport

/-! ## Services and their ALPNs -/

/-- A tonic service, as far as its name goes. -/
structure NamedService where
  name : String

/-- The bytes of a text. -/
def intoBytes (text : String) : List UInt8 := text.toByteArray.data.toList

/-- The ALPN of a service: {lit}`echo.Echo` becomes {lit}`/echo.Echo/1.0`. -/
def serviceToAlpn (service : NamedService) : List UInt8 :=
  intoBytes ("/" ++ service.name ++ "/1.0")

/-- Texts of the same bytes are equal. -/
theorem intoBytes_inj {s t : String} : intoBytes s = intoBytes t ↔ s = t := by
  rw [intoBytes, intoBytes, Array.toList_inj, ← ByteArray.ext_iff, String.toByteArray_inj]

/-- An ALPN determines the name of its service. -/
theorem serviceToAlpn_inj {s t : NamedService} :
    serviceToAlpn s = serviceToAlpn t ↔ s.name = t.name := by
  rw [serviceToAlpn, serviceToAlpn, intoBytes_inj]
  constructor
  · intro h
    simpa using h
  · intro h
    rw [h]

/-! ## User data -/

/-- The text a node attaches to its address records, bounded by what a record holds. -/
structure UserData (maxLength : Nat) where
  text : String
  bound : text.utf8ByteSize ≤ maxLength

/-- Accept the texts that are not too long. -/
def UserData.fromStr (maxLength : Nat) (text : String) : Option (UserData maxLength) :=
  if h : text.utf8ByteSize ≤ maxLength then some ⟨text, h⟩ else none

/-- The failures of this part of the transport. -/
inductive Error where
  | addressLookupMetadata (message : String)
deriving DecidableEq

/-- Classification for service-scoped discovery against published user data. -/
inductive UserDataAlpnMatch where
  /-- The published metadata contains the required ALPN. -/
  | matches
  /-- The published metadata is present but does not contain the ALPN. -/
  | mismatch
  /-- No service metadata was published. -/
  | missing
deriving DecidableEq

/-- The wire format of a list of ALPNs. -/
def alpnsCodec : Codec (List (List UInt8)) := Codec.byte.list.list

section Data

variable {maxLength : Nat}

variable (maxLength) in
/-- Write ALPNs as user data. -/
def encodeAlpns (alpns : List (List UInt8)) : Except Error (UserData maxLength) :=
  let encoded := Base64.encode (alpnsCodec.encode alpns)
  match UserData.fromStr maxLength encoded with
  | some userData => .ok userData
  | none => .error (.addressLookupMetadata
      ("encoded ALPN metadata exceeds " ++ toString maxLength ++ " bytes"))

/-- Read ALPNs from user data; anything malformed reads as none. -/
def decodeAlpns (userData : UserData maxLength) : List (List UInt8) :=
  ((Base64.decode (intoBytes userData.text)).bind alpnsCodec.fromBytes).getD []

/-- Check if user data contains a specific ALPN. -/
def userDataHasAlpn (userData : UserData maxLength) (alpn : List UInt8) : Bool :=
  (decodeAlpns userData).any fun a => a == alpn

/-- Check if user data contains the ALPN for a specific service. -/
def userDataHasService (service : NamedService) (userData : UserData maxLength) : Bool :=
  let target := serviceToAlpn service
  (decodeAlpns userData).any fun alpn => alpn == target

/-- Get all ALPNs from user data. -/
def userDataAlpns (userData : UserData maxLength) : List (List UInt8) :=
  decodeAlpns userData

/-- What published user data say about a service. -/
def classifyUserDataAlpn (userData : Option (UserData maxLength)) (alpn : List UInt8) :
    UserDataAlpnMatch :=
  match userData with
  | some userData => if userDataHasAlpn userData alpn then .matches else .mismatch
  | none => .missing

/-- Writing succeeds with the text that was encoded, or that text is too long. -/
theorem encodeAlpns_eq (alpns : List (List UInt8)) :
    encodeAlpns maxLength alpns
      = if h : (Base64.encode (alpnsCodec.encode alpns)).utf8ByteSize ≤ maxLength then
          .ok ⟨_, h⟩
        else .error (.addressLookupMetadata
          ("encoded ALPN metadata exceeds " ++ toString maxLength ++ " bytes")) := by
  by_cases hfits : (Base64.encode (alpnsCodec.encode alpns)).utf8ByteSize ≤ maxLength
  · simp only [encodeAlpns, UserData.fromStr, dif_pos hfits]
  · simp only [encodeAlpns, UserData.fromStr, dif_neg hfits]

/-- Reading undoes writing. -/
theorem decodeAlpns_encodeAlpns {alpns : List (List UInt8)} {userData : UserData maxLength}
    (h : encodeAlpns maxLength alpns = .ok userData) : decodeAlpns userData = alpns := by
  rw [encodeAlpns_eq] at h
  split at h <;> rename_i hfits
  · rcases Except.ok.inj h with rfl
    simp [decodeAlpns, intoBytes, Base64.decode_bytes_encode]
  · contradiction

theorem userDataHasAlpn_iff {userData : UserData maxLength} {alpn : List UInt8} :
    userDataHasAlpn userData alpn = true ↔ alpn ∈ decodeAlpns userData := by
  simp [userDataHasAlpn]

end Data

/-! ## The transport builder -/

/-- The services of a transport and the ALPNs it publishes for them. -/
structure TransportBuilder where
  services : List NamedService
  alpns : List (List UInt8)

namespace TransportBuilder

/-- A builder without services. -/
def new : TransportBuilder where
  services := []
  alpns := []

/-- Add a tonic RPC service. -/
def addRpc (self : TransportBuilder) (service : NamedService) : TransportBuilder where
  services := self.services ++ [service]
  alpns := self.alpns ++ [serviceToAlpn service]

/-- The builder after adding services one after another. -/
def registered (services : List NamedService) : TransportBuilder :=
  services.foldl addRpc new

/-- The collected ALPNs are those of the services, in order and with repetitions. -/
theorem alpns_registered (services : List NamedService) :
    (registered services).alpns = services.map serviceToAlpn := by
  have hfrom : ∀ self : TransportBuilder,
      (services.foldl addRpc self).alpns = self.alpns ++ services.map serviceToAlpn := by
    induction services with
    | nil => simp
    | cons service services ih =>
        intro self
        rw [List.foldl_cons, ih]
        simp [addRpc]
  exact hfrom new

end TransportBuilder

open TransportBuilder

/-- The ALPN of a service is collected exactly if a service of that name was added. -/
theorem serviceToAlpn_mem_registered {services : List NamedService} {service : NamedService} :
    serviceToAlpn service ∈ (registered services).alpns ↔
      ∃ s ∈ services, s.name = service.name := by
  rw [alpns_registered, List.mem_map]
  simp only [serviceToAlpn_inj]

/-- What user data written for services say about a service. -/
theorem userDataHasAlpn_registered {maxLength : Nat} {services : List NamedService}
    {userData : UserData maxLength}
    (h : encodeAlpns maxLength (registered services).alpns = .ok userData)
    (service : NamedService) :
    userDataHasAlpn userData (serviceToAlpn service) = true ↔
      ∃ s ∈ services, s.name = service.name := by
  rw [userDataHasAlpn_iff, decodeAlpns_encodeAlpns h, serviceToAlpn_mem_registered]

/-- What a server writes about its services is read back whole, and matches exactly the
services of the names it was written for.  Writing fails exactly when the text is longer
than user data may be; apart from that bound, reading undoes writing for any byte
strings. -/
theorem metadata_round_trips (maxLength : Nat) :
    (∀ (services : List NamedService) (userData : UserData maxLength),
      encodeAlpns maxLength (registered services).alpns = .ok userData →
        userDataAlpns userData = services.map serviceToAlpn ∧
        ∀ service : NamedService,
          (userDataHasService service userData = true ↔
            ∃ s ∈ services, s.name = service.name) ∧
          (classifyUserDataAlpn (some userData) (serviceToAlpn service) = .matches ↔
            ∃ s ∈ services, s.name = service.name) ∧
          (classifyUserDataAlpn (some userData) (serviceToAlpn service) = .mismatch ↔
            ¬∃ s ∈ services, s.name = service.name)) ∧
    (∀ alpns : List (List UInt8),
      (∃ err, encodeAlpns maxLength alpns = .error err) ↔
        maxLength < (Base64.encode (alpnsCodec.encode alpns)).utf8ByteSize) ∧
    (∀ (alpns : List (List UInt8)) (userData : UserData maxLength),
      encodeAlpns maxLength alpns = .ok userData → decodeAlpns userData = alpns) ∧
    ∀ alpns : List (List UInt8),
      (Base64.decode (intoBytes (Base64.encode (alpnsCodec.encode alpns)))).bind
        alpnsCodec.fromBytes = some alpns := by
  refine ⟨?_, ?_, ?_, ?_⟩
  · intro services userData h
    have hdecode := decodeAlpns_encodeAlpns h
    refine ⟨hdecode.trans (alpns_registered services), ?_⟩
    intro service
    have hmem := userDataHasAlpn_registered h service
    refine ⟨hmem, ?_, ?_⟩
    · rw [← hmem]
      simp [classifyUserDataAlpn]
    · rw [← hmem]
      simp [classifyUserDataAlpn]
  · intro alpns
    rw [encodeAlpns_eq, ← Nat.not_le]
    split <;> rename_i hfits <;> simp [hfits]
  · intro alpns userData h
    exact decodeAlpns_encodeAlpns h
  · intro alpns
    simp [intoBytes, Base64.decode_bytes_encode]

end IrohTransport.Transport
