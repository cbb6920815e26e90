import Libcfd.Edge.Control
import Libcfd.Foundation.Base64
import Libcfd.Foundation.Uuid
import Libcfd.Origin.Http
import Libcfd.Tunnel.Error

/-!
# Named tunnels

A named tunnel comes from a credentials file or from a connector token. The token is refused unless
its account tag and its secret are not empty and its tunnel identifier is a UUID; of the file's
values only the tunnel identifier is looked at, and only for being empty. So the two agree on the
credentials that a connection can be registered with, and on those without a tunnel identifier.
-/

namespace Libcfd.Tunnel

open Libcfd.Edge.Control (Uuid)
open Libcfd.Origin (utf8)
open Libcfd.Rpc (bind_eq_ok ok_bind)
open Libcfd.Uuid (IsUuid not_isUuid_nil)

/-! ## The crates -/

/-- The four values of a named tunnel, its secret in one form or another. -/
structure Credentials (Secret : Type) where
  accountTag : String
  secret : Secret
  tunnelIdentifier : String
  endpoint : Option String := none
  deriving DecidableEq

abbrev NamedTunnel := Credentials (List UInt8)

abbrev TokenPayload := Credentials String

/-- The keys of the four values (`#[serde(rename)]`). -/
structure Layout where
  accountTag : String
  secret : String
  tunnelIdentifier : String
  endpoint : String
  deriving DecidableEq

def NamedTunnel.layout : Layout := ⟨"AccountTag", "TunnelSecret", "TunnelID", "Endpoint"⟩

def TokenPayload.layout : Layout := ⟨"a", "s", "t", "e"⟩

/-- What `serde_json`, `base64` and `uuid` do. An object is read by its keys and a way to read the
text of its secret, and written without the endpoint if there is none. -/
structure Crates where
  fromSlice {Secret : Type} : Layout → (String → Except String Secret) → List UInt8 →
    Except String (Credentials Secret)
  toVec : Layout → Credentials String → List UInt8
  encode : List UInt8 → String
  decode : String → Except String (List UInt8)
  parseStr : String → Except String Uuid

section

variable (K : Crates)

/-! ## The loaders -/

def parseTunnelIdentifier (identifier : String) : Except Error Uuid :=
  (K.parseStr identifier).mapError fun e =>
    .invalidTunnelIdentifier (reprStr identifier ++ ": " ++ e)

def Credentials.tunnelIdentifierBytes (tunnel : NamedTunnel) : Except Error Uuid :=
  parseTunnelIdentifier K tunnel.tunnelIdentifier

/-- `read` is what `std::fs::read` gives. -/
def fromCredentialsFile (read : Except String (List UInt8)) : Except Error NamedTunnel := do
  let bytes ← read.mapError fun e =>
    .namedTunnelCredentials ("failed to read credentials file: " ++ e)
  let tunnel ← (K.fromSlice NamedTunnel.layout K.decode bytes).mapError .namedTunnelCredentials
  if tunnel.tunnelIdentifier.isEmpty then
    throw (.namedTunnelCredentials "credentials file has no TunnelID")
  else
    return tunnel

def fromToken (token : String) : Except Error NamedTunnel := do
  let raw ← (K.decode token).mapError fun e =>
    .namedTunnelCredentials ("token is not valid base64: " ++ e)
  let payload ← (K.fromSlice TokenPayload.layout .ok raw).mapError fun e =>
    .namedTunnelCredentials ("token payload is not valid JSON: " ++ e)
  let secret ← (K.decode payload.secret).mapError fun e =>
    .namedTunnelCredentials ("token secret is not valid base64: " ++ e)
  let tunnel : NamedTunnel := { payload with secret := secret }
  if tunnel.accountTag.isEmpty || tunnel.secret.isEmpty then
    throw (.namedTunnelCredentials "token payload is missing the account tag or secret")
  else
    let _ ← parseTunnelIdentifier K tunnel.tunnelIdentifier
    return tunnel

/-! ## The two renderings -/

/-- The secret in base64. -/
def Credentials.payload (tunnel : NamedTunnel) : TokenPayload :=
  { tunnel with secret := K.encode tunnel.secret }

def Credentials.file (tunnel : NamedTunnel) : List UInt8 :=
  K.toVec NamedTunnel.layout (tunnel.payload K)

def Credentials.tokenJson (tunnel : NamedTunnel) : List UInt8 :=
  K.toVec TokenPayload.layout (tunnel.payload K)

def Credentials.token (tunnel : NamedTunnel) : String := K.encode (tunnel.tokenJson K)

/-- The crates read what they wrote of these credentials, and take UUIDs for UUIDs. -/
structure Crates.Faithful (tunnel : NamedTunnel) : Prop where
  json : ∀ layout ∈ [NamedTunnel.layout, TokenPayload.layout], ∀ {Secret : Type}
    (deserialize : String → Except String Secret) {secret : Secret},
    deserialize (K.encode tunnel.secret) = .ok secret →
      K.fromSlice layout deserialize (K.toVec layout (tunnel.payload K)) =
        .ok { tunnel with secret := secret }
  base64 : ∀ bytes ∈ [tunnel.secret, tunnel.tokenJson K], K.decode (K.encode bytes) = .ok bytes
  uuid : ∀ text, (∃ uuid, K.parseStr text = .ok uuid) ↔ IsUuid text.toList

/-! ## What they agree on -/

/-- What a registration takes from a tunnel is there. -/
structure Registers (tunnel : NamedTunnel) : Prop where
  accountTag : tunnel.accountTag ≠ ""
  secret : tunnel.secret ≠ []
  tunnelIdentifier : ∃ uuid, tunnel.tunnelIdentifierBytes K = .ok uuid

/-- Both renderings are loaded, as the same tunnel, or neither is, and only a tunnel that registers
is loaded from any file or any token. -/
structure Agree (tunnel : NamedTunnel) : Prop where
  same : ∀ loaded, fromToken K (tunnel.token K) = .ok loaded ↔
    fromCredentialsFile K (.ok (tunnel.file K)) = .ok loaded
  fromToken : ∀ token, fromToken K token = .ok tunnel → Registers K tunnel
  fromCredentialsFile : ∀ read, fromCredentialsFile K read = .ok tunnel → Registers K tunnel

end

structure Credentials.Complete (tunnel : NamedTunnel) : Prop where
  accountTag : tunnel.accountTag ≠ ""
  secret : tunnel.secret ≠ []
  tunnelIdentifier : IsUuid tunnel.tunnelIdentifier.toList

section Loaders

variable {K : Crates} {tunnel : NamedTunnel}

/-- Whatever the token is, what it is loaded as has been checked. -/
theorem registers_of_fromToken {token : String} (h : fromToken K token = .ok tunnel) :
    Registers K tunnel := by
  obtain ⟨raw, -, h⟩ := bind_eq_ok.mp h
  obtain ⟨payload, -, h⟩ := bind_eq_ok.mp h
  obtain ⟨secret, -, h⟩ := bind_eq_ok.mp h
  dsimp only at h
  split at h
  · cases h
  · next hempty =>
      obtain ⟨uuid, hid, h⟩ := bind_eq_ok.mp h
      obtain rfl := Except.ok.inj h
      simp only [Bool.or_eq_true, String.isEmpty_iff, List.isEmpty_iff, not_or] at hempty
      exact ⟨hempty.1, hempty.2, uuid, hid⟩

theorem tunnelIdentifier_ne_of_fromCredentialsFile {read : Except String (List UInt8)}
    (h : fromCredentialsFile K read = .ok tunnel) : tunnel.tunnelIdentifier ≠ "" := by
  obtain ⟨bytes, -, h⟩ := bind_eq_ok.mp h
  obtain ⟨loaded, -, h⟩ := bind_eq_ok.mp h
  split at h
  · cases h
  · next hempty =>
      obtain rfl := Except.ok.inj h
      rw [String.isEmpty_iff] at hempty
      exact hempty

theorem not_complete_of_tunnelIdentifier (h : tunnel.tunnelIdentifier = "") : ¬ tunnel.Complete := by
  intro hcomplete
  have hid := hcomplete.tunnelIdentifier
  rw [h] at hid
  exact not_isUuid_nil hid

variable (hK : K.Faithful tunnel)

include hK

theorem fromCredentialsFile_file :
    fromCredentialsFile K (.ok (tunnel.file K)) =
      if tunnel.tunnelIdentifier.isEmpty then
        .error (.namedTunnelCredentials "credentials file has no TunnelID")
      else
        .ok tunnel := by
  have hread : K.fromSlice NamedTunnel.layout K.decode (tunnel.file K) = .ok tunnel :=
    hK.json _ List.mem_cons_self _ (hK.base64 _ List.mem_cons_self)
  simp only [fromCredentialsFile, Except.mapError, ok_bind, hread]
  rfl

theorem fromToken_token :
    fromToken K (tunnel.token K) =
      if tunnel.accountTag.isEmpty || tunnel.secret.isEmpty then
        .error (.namedTunnelCredentials "token payload is missing the account tag or secret")
      else do
        let _ ← tunnel.tunnelIdentifierBytes K
        return tunnel := by
  have hraw : K.decode (tunnel.token K) = .ok (tunnel.tokenJson K) :=
    hK.base64 _ (List.mem_cons_of_mem _ List.mem_cons_self)
  have hpayload : K.fromSlice TokenPayload.layout .ok (tunnel.tokenJson K) =
      .ok (tunnel.payload K) :=
    hK.json _ (List.mem_cons_of_mem _ List.mem_cons_self) _ rfl
  have hsecret : K.decode (tunnel.payload K).secret = .ok tunnel.secret :=
    hK.base64 _ List.mem_cons_self
  simp only [fromToken, Except.mapError, ok_bind, hraw, hpayload, hsecret]
  rfl

/-- The crate takes exactly UUIDs for tunnel identifiers. -/
theorem registers_iff : Registers K tunnel ↔ tunnel.Complete := by
  have hid : (∃ uuid, tunnel.tunnelIdentifierBytes K = .ok uuid) ↔
      IsUuid tunnel.tunnelIdentifier.toList := by
    rw [← hK.uuid]
    apply exists_congr
    intro uuid
    unfold Credentials.tunnelIdentifierBytes parseTunnelIdentifier
    cases K.parseStr tunnel.tunnelIdentifier with
    | error e => exact ⟨nofun, nofun⟩
    | ok uuid' => simp [Except.mapError]
  constructor
  · intro h
    exact ⟨h.accountTag, h.secret, hid.mp h.tunnelIdentifier⟩
  · intro h
    exact ⟨h.accountTag, h.secret, hid.mpr h.tunnelIdentifier⟩

/-! ## What the file keeps the token from -/

/-- With a tunnel identifier, whatever else there is, the file is loaded. -/
theorem complete_of_agree (h : Agree K tunnel) (hid : tunnel.tunnelIdentifier ≠ "") :
    tunnel.Complete := by
  have hfile := fromCredentialsFile_file hK
  rw [if_neg (mt String.isEmpty_iff.mp hid)] at hfile
  exact (registers_iff hK).mp (h.fromCredentialsFile _ hfile)

/-- Complete credentials are loaded from either. -/
theorem agree_of_complete (h : tunnel.Complete) : Agree K tunnel := by
  have hregisters := (registers_iff hK).mpr h
  refine ⟨?_, fun _ _ => hregisters, fun _ _ => hregisters⟩
  obtain ⟨uuid, hid⟩ := hregisters.tunnelIdentifier
  have hne : ¬ tunnel.tunnelIdentifier.isEmpty = true := by
    intro hempty
    exact not_complete_of_tunnelIdentifier (String.isEmpty_iff.mp hempty) h
  have htag : ¬ (tunnel.accountTag.isEmpty || tunnel.secret.isEmpty) = true := by
    rw [Bool.or_eq_true, String.isEmpty_iff, List.isEmpty_iff, not_or]
    exact ⟨h.accountTag, h.secret⟩
  intro loaded
  rw [fromToken_token hK, fromCredentialsFile_file hK, if_neg htag, if_neg hne, hid]
  exact Iff.rfl

/-- Credentials without a tunnel identifier are loaded from neither. -/
theorem agree_of_tunnelIdentifier (h : tunnel.tunnelIdentifier = "") : Agree K tunnel := by
  have hnot : ¬ Registers K tunnel :=
    mt (registers_iff hK).mp (not_complete_of_tunnelIdentifier h)
  have hempty : tunnel.tunnelIdentifier.isEmpty = true := String.isEmpty_iff.mpr h
  refine ⟨?_, fun token => registers_of_fromToken, fun read hread => ?_⟩
  · intro loaded
    rw [fromCredentialsFile_file hK, if_pos hempty]
    refine ⟨fun hload => ?_, nofun⟩
    have hsame : loaded = tunnel := by
      rw [fromToken_token hK] at hload
      split at hload
      · cases hload
      · obtain ⟨_, -, hload⟩ := bind_eq_ok.mp hload
        exact (Except.ok.inj hload).symm
    rw [hsame] at hload
    exact absurd (registers_of_fromToken hload) hnot
  · exact absurd h (tunnelIdentifier_ne_of_fromCredentialsFile hread)

/-- **The two loaders agree on credentials that are complete, and on those without a tunnel
identifier.** -/
theorem agree_iff : Agree K tunnel ↔ tunnel.Complete ∨ tunnel.tunnelIdentifier = "" := by
  constructor
  · intro h
    by_cases hid : tunnel.tunnelIdentifier = ""
    · exact .inr hid
    · exact .inl (complete_of_agree hK h hid)
  · rintro (h | h)
    · exact agree_of_complete hK h
    · exact agree_of_tunnelIdentifier hK h

end Loaders

/-! ## At the edge -/

/-- What the edge side registers. -/
def Credentials.toEdge (tunnel : NamedTunnel) : Edge.Control.Tunnel :=
  ⟨tunnel.tunnelIdentifier, tunnel.accountTag, tunnel.secret⟩

open Edge.Control in
/-- Without a UUID no registration is asked for, and the failure is not a permanent one. -/
theorem registerBootstrapped_of_error {K : Crates} {tunnel : NamedTunnel} {e : Error}
    (h : tunnel.tunnelIdentifierBytes K = .error e) {E : Signature} (connector : Connector)
    (options : RegistrationOptions) (configurationJson : List UInt8) (client : Rpc.TunnelClient) :
    ∃ failure,
      registerBootstrapped K.parseStr connector tunnel.toEdge options configurationJson client =
        (.done (.error failure) : Program (Rpc.wire E) _) ∧ failure.isPermanent = false := by
  have hparse : ∃ e', K.parseStr tunnel.toEdge.tunnelIdentifier = .error e' := by
    cases hresult : K.parseStr tunnel.toEdge.tunnelIdentifier with
    | error e' => exact ⟨e', rfl⟩
    | ok uuid =>
        rw [Credentials.tunnelIdentifierBytes, parseTunnelIdentifier] at h
        rw [show tunnel.tunnelIdentifier = tunnel.toEdge.tunnelIdentifier from rfl, hresult] at h
        cases h
  obtain ⟨e', hparse⟩ := hparse
  have hid : Edge.Control.parseTunnelIdentifier K.parseStr tunnel.toEdge.tunnelIdentifier =
      .error (.other ("invalid tunnel id: " ++ reprStr tunnel.tunnelIdentifier ++ ": " ++ e')) := by
    rw [Edge.Control.parseTunnelIdentifier, hparse]
    rfl
  refine ⟨.other ("invalid tunnel id: " ++ reprStr tunnel.tunnelIdentifier ++ ": " ++ e'), ?_, rfl⟩
  rw [registerBootstrapped, hid]

/-! ## Credentials without an account tag -/

section Example

/-- `base64` with its standard alphabet and its padding. -/
def standardEncode (bytes : List UInt8) : String :=
  let digits := Base64.encode bytes
  String.ofList (digits ++ List.replicate ((4 - digits.length % 4) % 4) '=')

def standardDecode (text : String) : Except String (List UInt8) :=
  match Base64.decode (text.toList.takeWhile (· ≠ '=')) with
  | none => .error "Invalid symbol"
  | some bytes => if standardEncode bytes = text then .ok bytes else .error "Invalid padding"

theorem standardDecode_standardEncode (bytes : List UInt8) :
    standardDecode (standardEncode bytes) = .ok bytes := by
  have hdigits : ∀ c ∈ Base64.encode bytes, decide (c ≠ '=') = true := by
    intro c hc
    rw [decide_eq_true_iff]
    rintro rfl
    exact absurd (Base64.mem_alphabet_of_mem_encode hc) (by decide)
  have htake : (standardEncode bytes).toList.takeWhile (· ≠ '=') = Base64.encode bytes := by
    rw [standardEncode, String.toList_ofList, List.takeWhile_append_of_pos hdigits]
    simp
  rw [standardDecode, htake, Base64.decode_encode]
  exact if_pos rfl

/-- A value of which no character is escaped. -/
def jsonString (text : String) : String := "\"" ++ text ++ "\""

def jsonObject (layout : Layout) (values : TokenPayload) : List UInt8 :=
  let fields := [(layout.accountTag, values.accountTag), (layout.secret, values.secret),
    (layout.tunnelIdentifier, values.tunnelIdentifier)] ++
      values.endpoint.toList.map fun endpoint => (layout.endpoint, endpoint)
  let texts := fields.map fun (key, value) => jsonString key ++ ":" ++ jsonString value
  utf8 ("\x7b" ++ String.intercalate "," texts ++ "\x7d")

/-- The crates, as far as the renderings of some credentials go, of which no character is escaped. -/
def cratesFor (tunnel : NamedTunnel) : Crates where
  toVec := jsonObject
  encode := standardEncode
  decode := standardDecode
  fromSlice layout deserialize bytes :=
    let values : TokenPayload := { tunnel with secret := standardEncode tunnel.secret }
    if bytes = jsonObject layout values then do
      let secret ← deserialize values.secret
      return { tunnel with secret := secret }
    else
      .error "expected value"
  parseStr text :=
    match Uuid.digits text.toList with
    | some digits => .ok digits.bytes
    | none => .error "invalid character"

theorem faithful_cratesFor (tunnel : NamedTunnel) : (cratesFor tunnel).Faithful tunnel where
  json layout _ Secret deserialize secret h := by
    refine (if_pos rfl).trans ?_
    have hsecret : deserialize (standardEncode tunnel.secret) = .ok secret := h
    simp only [hsecret]
    rfl
  base64 bytes _ := standardDecode_standardEncode bytes
  uuid text := by
    show (∃ uuid, (match Uuid.digits text.toList with
      | some digits => Except.ok digits.bytes
      | none => Except.error "invalid character") = .ok uuid) ↔ (Uuid.digits text.toList).isSome
    cases Uuid.digits text.toList with
    | none => exact ⟨nofun, nofun⟩
    | some digits => exact ⟨fun _ => rfl, fun _ => ⟨_, rfl⟩⟩

def exampleTunnel : NamedTunnel where
  accountTag := "abc123"
  secret := utf8 "top-secret"
  tunnelIdentifier := "550e8400-e29b-41d4-a716-446655440000"
  endpoint := some "us-east-1"

theorem agree_exampleTunnel : Agree (cratesFor exampleTunnel) exampleTunnel :=
  (agree_iff (faithful_cratesFor exampleTunnel)).mpr (.inl ⟨by decide, by decide, by decide +kernel⟩)

def withoutAccountTag : NamedTunnel := { exampleTunnel with accountTag := "" }

theorem not_agree_withoutAccountTag :
    (cratesFor withoutAccountTag).Faithful withoutAccountTag ∧
      ¬ Agree (cratesFor withoutAccountTag) withoutAccountTag := by
  refine ⟨faithful_cratesFor _, fun h => ?_⟩
  exact (complete_of_agree (faithful_cratesFor _) h (by decide)).accountTag rfl

end Example

end Libcfd.Tunnel
