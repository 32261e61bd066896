import Flowie.Cluster.PeerFrame
import Flowie.Lib.WireRecord
import Flowie.Mqtt.ClientRoundTrip
import Flowie.Security.Realm

/-!
# Binding a connection to the owner of its session

`flowie_cluster_peer_connect_bind.c`: after authentication the edge sends the owner a CONNECT without credentials
and, of its properties, with the Session Expiry Interval alone, the principal, and what it knows of the transport.
The owner parses the CONNECT again and checks that nothing else is in it.
-/

namespace Flowie.Cluster

open Layout BigEndian Checks Mqtt
open List hiding head
open Security (Principal Scope maxRoles maxGroups)

/-! ## Principals -/

def principalTexts (principal : Principal) : List Bytes :=
  principal.principalId :: principal.principalType :: principal.domainId :: principal.authMethod ::
    (principal.roles ++ principal.groups)

/-- A principal as it is stored: a text ends before the first NUL of its array, or fills the array. -/
structure StoredPrincipal where
  principal : Principal
  terminated : ∀ text ∈ principalTexts principal, 0 ∉ text

def idCapacity : Nat := 256

def typeCapacity : Nat := 64

/-- `flowie_security_principal_text_validate`: a text that fills its array has no end. -/
def principalTextValidate (value : Bytes) (capacity : Nat) (required : Bool) : Bool :=
  decide (value.length < capacity) && !(required && value.isEmpty)

variable (principal : Principal)

/-- `flowie_security_principal_validate`. -/
def securityPrincipalValidate : Except Errno Unit :=
  require (principal.headerValid && principal.scope != .unknown && decide (principal.roles.length ≤ maxRoles) &&
    decide (principal.groups.length ≤ maxGroups) && principal.policyVersion != 0 &&
    principalTextValidate principal.principalId idCapacity true && principalTextValidate principal.principalType typeCapacity true &&
    principalTextValidate principal.domainId idCapacity (principal.scope != .system) &&
    principalTextValidate principal.authMethod typeCapacity true &&
    principal.roles.all (principalTextValidate · typeCapacity true) &&
    principal.groups.all (principalTextValidate · idCapacity true) && decide principal.groups.Nodup) .eproto

def scopeNumber : Scope → UInt32
  | .self => 1
  | .group => 2
  | .domain => 3
  | .system => 4
  | .unknown => 0

def scopeOfNumber (number : UInt32) : Scope :=
  if number = 1 then .self else if number = 2 then .group else if number = 3 then .domain
  else if number = 4 then .system else .unknown

def principalMetadataSize : Nat := 24

/-- `flowie_cluster_peer_connect_bind_principal_size`. -/
def bindPrincipalSize : Except Errno Nat := do
  securityPrincipalValidate principal
  let total := principalMetadataSize + ((principalTexts principal).map fun text => 2 + text.length).sum
  require (total < 2 ^ 32) .erange
  return total

/-- `flowie_cluster_peer_connect_bind_text_encode`. -/
def bindTextEncode (value : Bytes) : Bytes := ofU16 (UInt16.ofNat value.length) ++ value

/-- What `flowie_cluster_peer_connect_bind_principal_encode` writes of a principal that is valid. -/
def bindPrincipalBytes : Bytes :=
  [ofU32 (scopeNumber principal.scope), ofU16 (UInt16.ofNat principal.roles.length), ofU16 (UInt16.ofNat principal.groups.length),
    ofU64 principal.expiresAt, ofU64 principal.policyVersion, (principalTexts principal).flatMap bindTextEncode].flatten

/-- `flowie_cluster_peer_connect_bind_text_decode`: the text and what follows it. -/
def bindTextDecode (capacity : Nat) (required : Bool) (bytes : Bytes) : Except Errno (Bytes × Bytes) := do
  require (2 ≤ bytes.length) .eproto
  let length := (toU16 (bytes.take 2)).toNat
  let text := (bytes.drop 2).take length
  require (length < capacity && length ≤ bytes.length - 2 && !(required && length == 0) && !text.contains 0) .eproto
  return (text, bytes.drop (2 + length))

/-- The loops of `flowie_cluster_peer_connect_bind_principal_decode` over roles and groups. -/
def bindTextsDecode (capacity : Nat) : Nat → Bytes → Except Errno (List Bytes × Bytes)
  | 0, bytes => .ok ([], bytes)
  | count + 1, bytes => do
    let (text, rest) ← bindTextDecode capacity true bytes
    let (texts, rest) ← bindTextsDecode capacity count rest
    return (text :: texts, rest)

/-- `flowie_cluster_peer_connect_bind_principal_decode`. -/
def bindPrincipalDecode (data : Bytes) : Except Errno Principal := do
  require (principalMetadataSize ≤ data.length) .eproto
  let scope := scopeOfNumber (toU32 (slice data 0 4))
  let roleCount := (toU16 (slice data 4 2)).toNat
  let groupCount := (toU16 (slice data 6 2)).toNat
  require (scope != .unknown && roleCount ≤ maxRoles && groupCount ≤ maxGroups) .eproto
  let (principalId, rest) ← bindTextDecode idCapacity true (data.drop principalMetadataSize)
  let (principalType, rest) ← bindTextDecode typeCapacity true rest
  let (domainId, rest) ← bindTextDecode idCapacity (scope != .system) rest
  let (authMethod, rest) ← bindTextDecode typeCapacity true rest
  let (roles, rest) ← bindTextsDecode typeCapacity roleCount rest
  let (groups, rest) ← bindTextsDecode idCapacity groupCount rest
  let principal : Principal :=
    { headerValid := true, principalId, principalType, domainId, authMethod, scope, roles, groups
      expiresAt := toU64 (slice data 8 8), policyVersion := toU64 (slice data 16 8) }
  require rest.isEmpty .eproto
  securityPrincipalValidate principal
  return principal

/-! ## The CONNECT that is sent -/

/-- `flowie_cluster_peer_ingress_metadata_t`. -/
structure IngressMetadata where
  remoteAddress : Bytes
  transportPeerAddress : Bytes
  proxyTlvs : Bytes
deriving DecidableEq, Repr

def noMetadata : IngressMetadata := ⟨[], [], []⟩

def IngressMetadata.length (metadata : IngressMetadata) : Nat :=
  metadata.remoteAddress.length + metadata.transportPeerAddress.length + metadata.proxyTlvs.length

def peerAddressMax : Nat := 127

/-- `flowie_cluster_peer_connect_bind_metadata_validate`. -/
def bindMetadataValidate (metadata : IngressMetadata) : Except Errno Unit :=
  require (decide (metadata.remoteAddress.length ≤ peerAddressMax) && decide (metadata.transportPeerAddress.length ≤ peerAddressMax) &&
    decide (metadata.proxyTlvs.length < 2 ^ 32) && metadata.remoteAddress.isEmpty == metadata.transportPeerAddress.isEmpty &&
    !metadata.remoteAddress.contains 0 && !metadata.transportPeerAddress.contains 0) .einval

def sessionExpiryWrite (interval : Nat) : Bytes := 0x11 :: ofU32 (UInt32.ofNat interval)

/-- The loop of `flowie_cluster_peer_connect_bind_session_properties`; nothing is found before the property is. -/
def sessionExpiryLoop (found : Bytes) : List Property → Except Errno Bytes
  | [] => .ok found
  | property :: rest =>
    if property.identifier ≠ .sessionExpiryInterval then sessionExpiryLoop found rest
    else if found ≠ [] then .error .eproto
    else sessionExpiryLoop (sessionExpiryWrite property.integer) rest

/-- `flowie_cluster_peer_connect_bind_parse_error`. -/
def bindParseStatus {α : Type} : Except ParseError α → Except Errno α
  | .ok value => .ok value
  | .error .invalidArgument => .error .einval
  | .error .tooLarge => .error .emsgsize
  | .error _ => .error .eproto

section
variable [Vstr]

/-- `flowie_cluster_peer_connect_bind_session_properties`. -/
def bindSessionProperties (connect : ConnectView) : Except Errno Bytes :=
  if connect.version ≠ .v5 then
    if connect.properties.isEmpty then .ok [] else .error .eproto
  else do
    let values ← sessionExpiryLoop [] (properties connect.properties).1
    require ((properties connect.properties).2 == .needMore) .eproto
    return values

/-- `flowie_cluster_peer_connect_bind_connect_validate`. -/
def bindConnectValidate (connect : ConnectView) : Except Errno Unit := do
  require (connect.version.supported && !connect.clientId.isEmpty && decide (connect.clientId.length < 2 ^ 16) &&
    utf8Validate connect.clientId) .einval
  let _ ← bindSessionProperties connect

end

/-- The CONNECT without credentials and with these properties. -/
def sanitizedConnect (connect : ConnectView) (properties : Bytes) : ConnectPacket where
  version := connect.version
  cleanStart := connect.cleanStart
  hasWill := !connect.willTopic.isEmpty
  willQos := connect.willQos
  willRetain := connect.willRetain
  hasUsername := false
  hasPassword := false
  keepAlive := connect.keepAlive
  properties := properties
  clientId := connect.clientId
  willProperties := connect.willProperties
  willTopic := connect.willTopic
  willPayload := connect.willPayload
  username := []
  password := []

/-! ## The payload -/

def connectBindMagic : Bytes := text "TFCB"

def connectBindHeaderSize : Nat := 32

/-- The fields of the payload; `principal` is empty without security. -/
def connectBindFields (principal : Bytes) (metadata : IngressMetadata) (connect : Bytes) : List Bytes :=
  head connectBindMagic 2 32 (connectBindHeaderSize + principal.length + metadata.length + connect.length) ++
    [ofU32 (UInt32.ofNat connect.length), ofU32 (UInt32.ofNat principal.length), ofU32 (if principal.isEmpty then 0 else 1),
      ofU16 (UInt16.ofNat metadata.remoteAddress.length), ofU16 (UInt16.ofNat metadata.transportPeerAddress.length),
      ofU32 (UInt32.ofNat metadata.proxyTlvs.length), principal, metadata.remoteAddress, metadata.transportPeerAddress,
      metadata.proxyTlvs, connect]

def boundPrincipalSize : Option StoredPrincipal → Except Errno Nat
  | none => .ok 0
  | some stored => bindPrincipalSize stored.principal

def boundPrincipalBytes : Option StoredPrincipal → Bytes
  | none => []
  | some stored => bindPrincipalBytes stored.principal

section
variable [Vstr]

/-- `flowie_cluster_peer_connect_bind_encode_with_metadata`. -/
def connectBindEncode (connect : ConnectView) (principal : Option StoredPrincipal) (metadata : Option IngressMetadata)
    (maxPayloadSize : Nat) : Except Errno Bytes := do
  require (connectBindHeaderSize ≤ maxPayloadSize && maxPayloadSize < 2 ^ 32) .einval
  bindConnectValidate connect
  bindMetadataValidate (metadata.getD noMetadata)
  let principalSize ← boundPrincipalSize principal
  require (principalSize ≤ maxPayloadSize - connectBindHeaderSize &&
    (metadata.getD noMetadata).length ≤ maxPayloadSize - connectBindHeaderSize - principalSize) .emsgsize
  let properties ← bindSessionProperties connect
  let packet ← bindParseStatus (connectPacketEncode (sanitizedConnect connect properties)
    (maxPayloadSize - connectBindHeaderSize - principalSize - (metadata.getD noMetadata).length))
  return (connectBindFields (boundPrincipalBytes principal) (metadata.getD noMetadata) packet).flatten

/-- `flowie_cluster_peer_connect_bind_view_t`; `security_enabled` is whether there is a principal. -/
structure ConnectBind where
  principal : Option Principal
  packet : PacketView
  connect : ConnectView
  metadata : IngressMetadata
deriving DecidableEq, Repr

/-- `flowie_cluster_peer_connect_bind_sanitized_properties_validate`. -/
def sanitizedPropertiesValidate (connect : ConnectView) : Except Errno Unit :=
  if connect.version ≠ .v5 then require connect.properties.isEmpty .eproto
  else
    require ((properties connect.properties).1.all (·.identifier == .sessionExpiryInterval) &&
      decide ((properties connect.properties).1.length ≤ 1) && (properties connect.properties).2 == .needMore) .eproto

/-- The principal of the payload, where its size is not zero. -/
def boundPrincipalDecode (data : Bytes) : Except Errno (Option Principal) :=
  if data.isEmpty then .ok none else (bindPrincipalDecode data).map some

def ingressMetadataOf (data : Bytes) (offset remoteSize transportSize tlvsSize : Nat) : IngressMetadata where
  remoteAddress := slice data offset remoteSize
  transportPeerAddress := slice data (offset + remoteSize) transportSize
  proxyTlvs := slice data (offset + remoteSize + transportSize) tlvsSize

/-- Any failure of the typed parser is a protocol error. -/
def bindConnectParse (packet : PacketView) : Except Errno ConnectView :=
  match connectParse packet with
  | .ok connect => .ok connect
  | .error _ => .error .eproto

/-- The part of the decoder that parses the CONNECT and checks that nothing else is in it. -/
def bindConnectDecode (bytes : Bytes) (maxPayloadSize : Nat) : Except Errno (PacketView × ConnectView) := do
  let (packet, consumed) ← bindParseStatus (packetParse bytes .unspecified maxPayloadSize)
  require (consumed == bytes.length && packet.type == .connect) .eproto
  let connect ← bindConnectParse packet
  require (!connect.clientId.isEmpty && (connect.username.getD []).isEmpty && (connect.password.getD []).isEmpty) .eproto
  sanitizedPropertiesValidate connect
  return (packet, connect)

/-- `flowie_cluster_peer_connect_bind_decode`. -/
def connectBindDecode (data : Bytes) (maxPayloadSize : Nat) : Except Errno ConnectBind := do
  require (connectBindHeaderSize ≤ maxPayloadSize && maxPayloadSize < 2 ^ 32) .einval
  require (data.length ≤ maxPayloadSize) .emsgsize
  require (connectBindHeaderSize ≤ data.length) .eproto
  require (headMatches connectBindMagic 2 32 data) .eproto
  let connectSize := (toU32 (slice data 12 4)).toNat
  let principalSize := (toU32 (slice data 16 4)).toNat
  let flags := (toU32 (slice data 20 4)).toNat
  let remoteSize := (toU16 (slice data 24 2)).toNat
  let transportSize := (toU16 (slice data 26 2)).toNat
  let tlvsSize := (toU32 (slice data 28 4)).toNat
  let metadataSize := remoteSize + transportSize + tlvsSize
  require (flags / 2 == 0 && connectSize != 0 && principalSize ≤ data.length - connectBindHeaderSize &&
    metadataSize ≤ data.length - connectBindHeaderSize - principalSize &&
    connectSize == data.length - connectBindHeaderSize - principalSize - metadataSize && remoteSize ≤ peerAddressMax &&
    transportSize ≤ peerAddressMax && (remoteSize == 0) == (transportSize == 0) && (flags % 2 == 1) == (principalSize != 0)) .eproto
  let metadata := ingressMetadataOf data (connectBindHeaderSize + principalSize) remoteSize transportSize tlvsSize
  require (!metadata.remoteAddress.contains 0 && !metadata.transportPeerAddress.contains 0) .eproto
  let principal ← boundPrincipalDecode (slice data connectBindHeaderSize principalSize)
  let (packet, connect) ← bindConnectDecode (slice data (connectBindHeaderSize + principalSize + metadataSize) connectSize)
    maxPayloadSize
  return { principal, packet, connect, metadata }

end

/-! ## The principal is read back -/

open Reader (Reads)

variable {capacity : Nat}

theorem reads_bindText {required : Bool} {value : Bytes} (hcap : capacity ≤ 2 ^ 16)
    (hval : principalTextValidate value capacity required = true) (hnul : 0 ∉ value) :
    Reads (bindTextDecode capacity required) (bindTextEncode value) value := by
  intro rest
  simp only [principalTextValidate, Bool.and_eq_true, decide_eq_true_eq, Bool.not_eq_true', Bool.and_eq_false_imp] at hval
  obtain ⟨hlen, hrequired⟩ := hval
  have htake : (bindTextEncode value ++ rest).take 2 = ofU16 (UInt16.ofNat value.length) := by
    rw [bindTextEncode, append_assoc]
    exact take_left' (length_ofU16 _)
  have hdrop : (bindTextEncode value ++ rest).drop 2 = value ++ rest := by
    rw [bindTextEncode, append_assoc]
    exact drop_left' (length_ofU16 _)
  have hsize := toNat_of_ofU16 htake (by omega)
  have htot : (bindTextEncode value ++ rest).length = 2 + value.length + rest.length := by
    simp [bindTextEncode, Nat.add_assoc]
  simp only [bindTextDecode, bind_eq_ok, exists_unit, Checks.require_eq_ok, pure_eq_ok, Bool.and_eq_true,
    decide_eq_true_eq, hsize, hdrop, htot, take_left, Prod.mk.injEq, true_and, Bool.not_eq_true', Bool.and_eq_false_imp]
  refine ⟨by omega, ⟨⟨⟨hlen, by omega⟩, fun h => ?_⟩, by simpa using hnul⟩, ?_⟩
  · have hne := hrequired h
    simpa using hne
  · rw [← drop_drop, hdrop, drop_left]

theorem reads_bindTexts {values : List Bytes} (hcap : capacity ≤ 2 ^ 16)
    (hval : values.all (principalTextValidate · capacity true) = true) (hnul : ∀ value ∈ values, 0 ∉ value) :
    Reads (bindTextsDecode capacity values.length) (values.flatMap bindTextEncode) values := by
  induction values with
  | nil => exact fun rest => rfl
  | cons value values ih =>
    rw [all_cons, Bool.and_eq_true] at hval
    obtain ⟨hhead, htail⟩ := List.forall_mem_cons.1 hnul
    intro rest
    rw [flatMap_cons, append_assoc, length_cons, bindTextsDecode, reads_bindText hcap hval.1 hhead]
    simp only [bind_eq_ok]
    exact ⟨_, rfl, _, ih hval.2 htail rest, rfl⟩

theorem scopeOfNumber_scopeNumber (scope : Scope) : scopeOfNumber (scopeNumber scope) = scope := by
  cases scope <;> rfl

theorem length_bindPrincipalBytes (principal : Principal) :
    (bindPrincipalBytes principal).length =
      principalMetadataSize + ((principalTexts principal).map fun text => 2 + text.length).sum := by
  have htexts : ((principalTexts principal).flatMap bindTextEncode).length =
      ((principalTexts principal).map fun text => 2 + text.length).sum := by
    simp [length_flatMap, bindTextEncode]
  simp only [bindPrincipalBytes, flatten_cons, flatten_nil, length_append, length_nil, htexts,
    length_ofU16, length_ofU32, length_ofU64, principalMetadataSize]
  omega

theorem bindPrincipalDecode_bytes (stored : StoredPrincipal) (hval : securityPrincipalValidate stored.principal = .ok ()) :
    bindPrincipalDecode (bindPrincipalBytes stored.principal) = .ok stored.principal := by
  obtain ⟨principal, hterminated⟩ := stored
  have hlen := length_bindPrincipalBytes principal
  have hwidths : [ofU32 (scopeNumber principal.scope), ofU16 (UInt16.ofNat principal.roles.length),
      ofU16 (UInt16.ofNat principal.groups.length), ofU64 principal.expiresAt, ofU64 principal.policyVersion].map List.length =
        [4, 2, 2, 8, 8] := by simp
  have hbs : bindPrincipalBytes principal =
      [ofU32 (scopeNumber principal.scope), ofU16 (UInt16.ofNat principal.roles.length),
        ofU16 (UInt16.ofNat principal.groups.length), ofU64 principal.expiresAt, ofU64 principal.policyVersion].flatten ++
          (principalTexts principal).flatMap bindTextEncode := by
    simp [bindPrincipalBytes]
  have hsl := slices_flatten hwidths ((principalTexts principal).flatMap bindTextEncode)
  have hdrop : (bindPrincipalBytes principal).drop principalMetadataSize = (principalTexts principal).flatMap bindTextEncode := by
    rw [hbs]
    exact drop_left' (by simp [principalMetadataSize])
  rw [← hbs] at hsl
  generalize bindPrincipalBytes principal = data at hlen hsl hdrop ⊢
  simp only [slices_cons, slices_nil, Nat.reduceAdd, List.cons.injEq, and_true] at hsl
  obtain ⟨hscope, hroles, hgroups, hexpires, hpolicy⟩ := hsl
  have hval' := hval
  simp only [securityPrincipalValidate, Checks.require_eq_ok, Bool.and_eq_true, decide_eq_true_eq, bne_iff_ne] at hval
  obtain ⟨⟨⟨⟨⟨⟨⟨⟨⟨⟨⟨hhdr, hscopeKnown⟩, hroleCount⟩, hgroupCount⟩, -⟩, hid⟩, htype⟩, hdomain⟩, hmethod⟩, hroleTexts⟩,
    hgroupTexts⟩, -⟩ := hval
  simp only [principalTexts, forall_mem_cons, forall_mem_append] at hterminated
  obtain ⟨hidNul, htypeNul, hdomainNul, hmethodNul, hrolesNul, hgroupsNul⟩ := hterminated
  have hrolesAt := toNat_of_ofU16 hroles (Nat.lt_of_le_of_lt hroleCount (by decide))
  have hgroupsAt := toNat_of_ofU16 hgroups (Nat.lt_of_le_of_lt hgroupCount (by decide))
  simp only [bindPrincipalDecode, bind_eq_ok, exists_unit, Checks.require_eq_ok, pure_eq_ok, Bool.and_eq_true,
    decide_eq_true_eq, bne_iff_ne, hscope, hrolesAt, hgroupsAt, hexpires, hpolicy, toU32_ofU32, toU64_ofU64,
    scopeOfNumber_scopeNumber, hdrop, principalTexts, flatMap_cons, flatMap_append]
  refine ⟨by omega, ⟨⟨hscopeKnown, hroleCount⟩, hgroupCount⟩, _, reads_bindText (by decide) hid hidNul _,
    _, reads_bindText (by decide) htype htypeNul _, _, reads_bindText (by decide) hdomain hdomainNul _,
    _, reads_bindText (by decide) hmethod hmethodNul _, _, reads_bindTexts (by decide) hroleTexts hrolesNul _,
    (principal.groups, []), ?_, rfl, ?_⟩
  · have hread := reads_bindTexts (show idCapacity ≤ 2 ^ 16 by decide) hgroupTexts hgroupsNul []
    rwa [append_nil] at hread
  · have hsame : { principal with headerValid := true } = principal := by rw [← hhdr]
    rw [hsame]
    exact ⟨hval', rfl⟩

/-! ## The properties that are left -/

section
variable [Vstr]

/-- The Session Expiry Intervals of a CONNECT; a CONNECT that is parsed has at most one. -/
def sessionExpiries (connect : ConnectView) : List Property :=
  (properties connect.properties).1.filter (·.identifier == .sessionExpiryInterval)

omit [Vstr] in
theorem sessionExpiryWrite_ne_nil (interval : Nat) : sessionExpiryWrite interval ≠ [] := cons_ne_nil _ _

variable {values : Bytes} {list : List Property}

omit [Vstr] in
/-- Once the property is found the rest has none. -/
theorem sessionExpiryLoop_found {found : Bytes} (hfnd : found ≠ []) :
    sessionExpiryLoop found list = .ok values ↔
      list.filter (·.identifier == .sessionExpiryInterval) = [] ∧ found = values := by
  induction list with
  | nil => simp [sessionExpiryLoop]
  | cons property list ih =>
    unfold sessionExpiryLoop
    by_cases hid : property.identifier = .sessionExpiryInterval
    · simp [hid, hfnd]
    · rw [if_pos hid, ih, List.filter_cons_of_neg (by simpa using hid)]

omit [Vstr] in
theorem sessionExpiryLoop_eq_ok :
    sessionExpiryLoop [] list = .ok values ↔
      (list.filter (·.identifier == .sessionExpiryInterval)).length ≤ 1 ∧
        values = (list.filter (·.identifier == .sessionExpiryInterval)).flatMap fun property => sessionExpiryWrite property.integer := by
  induction list with
  | nil => simp [sessionExpiryLoop, eq_comm]
  | cons property list ih =>
    unfold sessionExpiryLoop
    by_cases hid : property.identifier = .sessionExpiryInterval
    · rw [if_neg (by simpa using hid), if_neg (by simp), sessionExpiryLoop_found (sessionExpiryWrite_ne_nil _),
        filter_cons_of_pos (by simpa using hid), length_cons, flatMap_cons]
      constructor
      · rintro ⟨hnone, rfl⟩
        simp [hnone]
      rintro ⟨hlen, rfl⟩
      have hnone := eq_nil_of_length_eq_zero (Nat.le_zero.1 (Nat.le_of_succ_le_succ hlen))
      simp [hnone]
    · rw [if_pos hid, ih, filter_cons_of_neg (by simpa using hid)]

theorem properties_nil : properties [] = ([], .needMore) := Reader.all_of_error rfl

variable {connect : ConnectView}

/-- The properties that are sent are the Session Expiry Interval, where there is one. -/
theorem bindSessionProperties_eq_ok (h : bindSessionProperties connect = .ok values) :
    (sessionExpiries connect).length ≤ 1 ∧
      values = (sessionExpiries connect).flatMap (fun property => sessionExpiryWrite property.integer) ∧
      (connect.version ≠ .v5 → values = []) := by
  unfold bindSessionProperties at h
  split at h
  · split at h
    · rename_i hnil
      cases h
      rw [List.isEmpty_iff] at hnil
      simp [sessionExpiries, hnil, properties_nil]
    · cases h
  · rename_i hver
    simp only [bind_eq_ok, exists_unit, Checks.require_eq_ok, pure_eq_ok] at h
    obtain ⟨found, hloop, -, rfl⟩ := h
    obtain ⟨hlen, hvls⟩ := sessionExpiryLoop_eq_ok.1 hloop
    exact ⟨hlen, hvls, fun hoth => absurd hoth hver⟩

/-- A Session Expiry Interval is four bytes. -/
theorem sessionExpiry_property {property : Property} (h : property ∈ sessionExpiries connect) :
    property = ⟨.sessionExpiryInterval, property.integer, [], []⟩ ∧ property.integer < 2 ^ 32 := by
  obtain ⟨hmem, hid⟩ := List.mem_filter.1 h
  refine Reader.forall_mem_all (P := fun property : Property => property.identifier = .sessionExpiryInterval →
    property = ⟨.sessionExpiryInterval, property.integer, [], []⟩ ∧ property.integer < 2 ^ 32) ?_ connect.properties property hmem
    (by simpa using hid)
  intro bytes property rest hnext hid
  obtain ⟨-, -, tail, -, -, -, -, hvl, -, -⟩ := propertyIteratorNext_eq_ok hnext
  rw [hid] at hvl
  unfold propertyValue at hvl
  dsimp only [propertyType] at hvl
  split at hvl
  · rename_i a b c d after
    cases hvl
    exact ⟨rfl, by simpa using read_lt [a, b, c, d]⟩
  · cases hvl

theorem propertyIteratorNext_sessionExpiryWrite {interval : Nat} (h : interval < 2 ^ 32) :
    propertyIteratorNext (sessionExpiryWrite interval) = .ok (⟨.sessionExpiryInterval, interval, [], []⟩, []) := by
  obtain ⟨a, b, c, d, hbs⟩ : ∃ a b c d, ofU32 (UInt32.ofNat interval) = [a, b, c, d] := ⟨_, _, _, _, rfl⟩
  have hread : read [a, b, c, d] = interval := by
    rw [← hbs, ofU32, UInt32.toNat_ofNat_of_lt' h, read_write h]
  have hvl : propertyValue .sessionExpiryInterval [a, b, c, d] = .ok (⟨.sessionExpiryInterval, interval, [], []⟩, []) := by
    rw [← hread]
    rfl
  rw [sessionExpiryWrite, hbs]
  exact propertyIteratorNext_of_parts (cons_ne_nil (0x11 : UInt8) []) (fun _ => rfl) rfl hvl (by simp) rfl

/-- The property that is sent is read as it was. -/
theorem properties_sessionExpiryWrite (hlen : (sessionExpiries connect).length ≤ 1) :
    properties ((sessionExpiries connect).flatMap fun property => sessionExpiryWrite property.integer) =
      (sessionExpiries connect, .needMore) := by
  have hproperty : ∀ property ∈ sessionExpiries connect, _ := fun _ => sessionExpiry_property
  cases hlist : sessionExpiries connect with
  | nil => exact properties_nil
  | cons property rest =>
    rw [hlist] at hlen hproperty
    obtain rfl : rest = [] := eq_nil_of_length_eq_zero (Nat.le_zero.1 (Nat.le_of_succ_le_succ hlen))
    obtain ⟨hshape, hlt⟩ := hproperty property mem_cons_self
    rw [flatMap_singleton, properties,
      Reader.all_of_ok prefixed_propertyIteratorNext (propertyIteratorNext_sessionExpiryWrite hlt), ← hshape]
    exact congrArg (fun read : List Property × ParseError => (property :: read.1, read.2)) properties_nil

end

/-! ## The payload is read back -/

def connectBindWidths (principal : Bytes) (metadata : IngressMetadata) (connect : Bytes) : List Nat :=
  [4, 2, 2, 4, 4, 4, 4, 2, 2, 4, principal.length, metadata.remoteAddress.length, metadata.transportPeerAddress.length,
    metadata.proxyTlvs.length, connect.length]

theorem slices_connectBindFields (principal : Bytes) (metadata : IngressMetadata) (connect : Bytes) :
    slices (connectBindFields principal metadata connect).flatten 0 (connectBindWidths principal metadata connect) =
      connectBindFields principal metadata connect := by
  rw [← append_nil (connectBindFields principal metadata connect).flatten]
  apply slices_flatten
  simp [connectBindFields, head, connectBindWidths, connectBindMagic, text]

theorem length_connectBindFields (principal : Bytes) (metadata : IngressMetadata) (connect : Bytes) :
    (connectBindFields principal metadata connect).flatten.length =
      connectBindHeaderSize + principal.length + metadata.length + connect.length := by
  simp [connectBindFields, head, connectBindMagic, text, connectBindHeaderSize, IngressMetadata.length]
  omega

section
variable [Vstr] {principal : Option StoredPrincipal}

omit [Vstr] in
/-- The size the encoder computes is that of the bytes it writes, and the decoder reads the principal back. -/
theorem boundPrincipalSize_eq_ok {size : Nat} (h : boundPrincipalSize principal = .ok size) :
    (boundPrincipalBytes principal).length = size ∧
      boundPrincipalDecode (boundPrincipalBytes principal) = .ok (principal.map StoredPrincipal.principal) := by
  cases principal with
  | none =>
    cases h
    exact ⟨rfl, rfl⟩
  | some stored =>
    simp only [boundPrincipalSize, bindPrincipalSize, Checks.bind_eq_ok, Checks.exists_unit, Checks.pure_eq_ok] at h
    obtain ⟨hval, -, hsize⟩ := h
    have hlen := length_bindPrincipalBytes stored.principal
    refine ⟨hlen.trans hsize, ?_⟩
    have hne : (bindPrincipalBytes stored.principal).isEmpty = false := by
      rw [List.isEmpty_eq_false_iff, ← List.length_pos_iff, hlen, principalMetadataSize]
      omega
    rw [boundPrincipalDecode, boundPrincipalBytes, if_neg (by simp [hne]), bindPrincipalDecode_bytes stored hval]
    rfl

variable {packet : Bytes} {maxPayloadSize : Nat} {bytes : Bytes}

/-- The parts of the payload are found again; what is left is to parse the CONNECT. -/
theorem connectBindDecode_fields {principal : Option Principal} {metadata : IngressMetadata}
    (hlim : connectBindHeaderSize ≤ maxPayloadSize ∧ maxPayloadSize < 2 ^ 32)
    (hfits : connectBindHeaderSize + bytes.length + metadata.length + packet.length ≤ maxPayloadSize)
    (hprincipal : boundPrincipalDecode bytes = .ok principal) (hmeta : bindMetadataValidate metadata = .ok ())
    (hpkt : packet ≠ []) :
    connectBindDecode (connectBindFields bytes metadata packet).flatten maxPayloadSize =
      (bindConnectDecode packet maxPayloadSize).map fun (view, connect) => ⟨principal, view, connect, metadata⟩ := by
  have hlen := length_connectBindFields bytes metadata packet
  have hsl := slices_connectBindFields bytes metadata packet
  generalize (connectBindFields bytes metadata packet).flatten = data at hsl hlen ⊢
  simp only [connectBindFields, head, connectBindWidths, cons_append, nil_append, slices_cons, slices_nil,
    Nat.reduceAdd, List.cons.injEq, and_true, ← hlen] at hsl
  obtain ⟨hmag, hver, hhdr, htot, hconnectSize, hprincipalSize, hfl, hremoteSize, htransportSize, htlvsSize, hbs,
    hremote, htransport, htlvs, hconn⟩ := hsl
  simp only [bindMetadataValidate, Checks.require_eq_ok, Bool.and_eq_true, decide_eq_true_eq, beq_iff_eq] at hmeta
  obtain ⟨⟨⟨⟨⟨hremoteMax, htransportMax⟩, htlvsMax⟩, hboth⟩, hremoteNul⟩, htransportNul⟩ := hmeta
  simp only [connectBindHeaderSize, IngressMetadata.length] at hlim hfits hlen
  have hconnectAt := toNat_of_ofU32 hconnectSize (by omega)
  have hprincipalAt := toNat_of_ofU32 hprincipalSize (by omega)
  have hflagsAt : (toU32 (slice data 20 4)).toNat = if bytes.isEmpty then 0 else 1 := by
    rw [hfl, toU32_ofU32]
    split <;> rfl
  have hremoteAt := toNat_of_ofU16 hremoteSize (Nat.lt_of_le_of_lt hremoteMax (by decide))
  have htransportAt := toNat_of_ofU16 htransportSize (Nat.lt_of_le_of_lt htransportMax (by decide))
  have htlvsAt := toNat_of_ofU32 htlvsSize htlvsMax
  have hbytesAt : slice data connectBindHeaderSize bytes.length = bytes := hbs
  have hpacketAt : slice data (connectBindHeaderSize + bytes.length + (metadata.remoteAddress.length +
      metadata.transportPeerAddress.length + metadata.proxyTlvs.length)) packet.length = packet := by
    simpa [connectBindHeaderSize, Nat.add_assoc] using hconn
  have hmetadataAt : ingressMetadataOf data (connectBindHeaderSize + bytes.length) metadata.remoteAddress.length
      metadata.transportPeerAddress.length metadata.proxyTlvs.length = metadata := by
    simp only [ingressMetadataOf, connectBindHeaderSize, hremote, htransport, htlvs]
  have hpacketLength : packet.length ≠ 0 := by simpa using hpkt
  have hprincipalFlag : ((if bytes.isEmpty then 0 else 1) % 2 == 1) = (bytes.length != 0) := by
    cases bytes <;> rfl
  have hprincipalBits : (if bytes.isEmpty then 0 else 1) / 2 = 0 := by
    split <;> rfl
  have hboth' : (metadata.remoteAddress.length == 0) = (metadata.transportPeerAddress.length == 0) := by
    have hnil (list : Bytes) : (list.length == 0) = list.isEmpty := by cases list <;> rfl
    rw [hnil, hnil, hboth]
  unfold connectBindDecode
  simp only [hconnectAt, hprincipalAt, hflagsAt, hremoteAt, htransportAt, htlvsAt, hmetadataAt, hbytesAt, hpacketAt, hprincipal]
  refine (require_bind ?_).trans ((require_bind ?_).trans ((require_bind ?_).trans
    ((require_bind ?_).trans ((require_bind ?_).trans ((require_bind ?_).trans ?_)))))
  · simp only [Bool.and_eq_true, decide_eq_true_eq]
    exact hlim
  · simp only [decide_eq_true_eq]
    omega
  · rw [decide_eq_true_eq, connectBindHeaderSize]
    omega
  · exact (headMatches_iff (by omega)).2 ⟨hmag, hver, hhdr, htot, by omega⟩
  · simp only [Bool.and_eq_true, decide_eq_true_eq, beq_iff_eq, bne_iff_ne, hprincipalBits, hprincipalFlag, hboth']
    simp only [connectBindHeaderSize, and_true, true_and]
    omega
  · rw [hremoteNul, htransportNul]
    rfl
  · cases bindConnectDecode packet maxPayloadSize <;> rfl

/-- The CONNECT the owner sees: no credentials and these properties. -/
def ownerConnect (connect : ConnectView) (properties : Bytes) : ConnectView :=
  { connect with properties := properties, username := none, password := none }

variable {connect : ConnectView} {values : Bytes}

theorem sanitizedPropertiesValidate_ownerConnect (h : bindSessionProperties connect = .ok values) :
    sanitizedPropertiesValidate (ownerConnect connect values) = .ok () := by
  obtain ⟨hlen, hvls, hoth⟩ := bindSessionProperties_eq_ok h
  unfold sanitizedPropertiesValidate
  split
  · rename_i hver
    rw [Checks.require_eq_ok, List.isEmpty_iff]
    exact hoth hver
  · have hread : properties (ownerConnect connect values).properties = (sessionExpiries connect, .needMore) := by
      rw [← properties_sessionExpiryWrite hlen, ← hvls]
      rfl
    rw [hread, Checks.require_eq_ok]
    simp only [Bool.and_eq_true, decide_eq_true_eq, all_eq_true, beq_self_eq_true, and_true]
    exact ⟨fun property hmem => (List.mem_filter.1 hmem).2, hlen⟩

/-- A CONNECT the encoder sent is accepted under a limit the packet parser takes. -/
theorem bindConnectDecode_sanitized (hvls : bindSessionProperties connect = .ok values)
    (hcli : connect.clientId ≠ []) (henc : connectPacketEncode (sanitizedConnect connect values) capacity = .ok packet)
    (hcap : capacity ≤ maxPayloadSize) (hlim : maxPayloadSize ≤ maxWirePacketSize) :
    ∃ view, bindConnectDecode packet maxPayloadSize = .ok (view, ownerConnect connect values) := by
  obtain ⟨hchk, hbs⟩ := bind_unit_eq_ok.1 henc
  have hsize := length_encodePacket_le hbs
  have hpos := (length_encodePacket hbs).1
  have hadm : Admits maxPayloadSize packet.length := by
    rw [Admits, packetLimit, if_neg (by omega)]
    exact ⟨hlim, by omega⟩
  have hpar : packetParse packet .unspecified maxPayloadSize =
      .ok (⟨.unspecified, .connect, 0, connectBody (sanitizedConnect connect values)⟩, packet.length) :=
    packetParse_encodePacket hbs (by decide) (by simp) hadm
  have hview := connectParse_connectBody_of (.inl rfl) hchk
  refine ⟨⟨.unspecified, .connect, 0, connectBody (sanitizedConnect connect values)⟩, ?_⟩
  simp only [bindConnectDecode, hpar, bindParseStatus, bind_eq_ok, exists_unit, Checks.require_eq_ok,
    pure_eq_ok, Except.ok.injEq, exists_eq_left', bindConnectParse, hview, beq_self_eq_true, true_and,
    Bool.and_eq_true, Bool.not_eq_true', isEmpty_eq_false_iff]
  exact ⟨⟨⟨hcli, rfl⟩, rfl⟩, sanitizedPropertiesValidate_ownerConnect hvls, rfl⟩

/-- The packet parser takes no limit above the largest packet. -/
theorem bindConnectDecode_refused (hlim : maxWirePacketSize < maxPayloadSize) :
    bindConnectDecode packet maxPayloadSize = .error .einval := by
  have hpar : packetParse packet .unspecified maxPayloadSize = .error .invalidArgument := by
    have hset : ¬maxPayloadSize = 0 := by omega
    simp only [packetParse, if_neg hset, gt_iff_lt, if_pos hlim]
  rw [bindConnectDecode, hpar]
  rfl

/-! ## What a parsed CONNECT sends -/

theorem connectProperties_eq_ok {version : Version} {rest : Bytes}
    (h : connectProperties version bytes = .ok (values, rest)) :
    (version ≠ .v5 → values = []) ∧
      (version = .v5 → ∃ present, propertiesValidate values connectPropertiesAllowed userPropertyRepeatable = .ok present) := by
  unfold connectProperties at h
  split at h
  · rename_i hver
    refine ⟨fun hoth => absurd hver hoth, fun _ => ?_⟩
    split at h
    · cases h
    split at h
    · cases h
    rename_i present hval
    split_ifs at h
    · cases h
      exact ⟨present, hval⟩
  · rename_i hver
    cases h
    exact ⟨fun _ => rfl, fun h5 => absurd h5 hver⟩

variable {packet : PacketView}

omit [Vstr] in
/-- A property that may not be repeated is there at most once. -/
theorem propertiesCheck_once {allowed repeatable present result : List PropertyId} {list : List Property} {identifier : PropertyId}
    (hrepeat : identifier ∉ repeatable) (h : propertiesCheck allowed repeatable present list = some result) :
    (list.filter (·.identifier == identifier)).length ≤ 1 ∧
      (identifier ∈ present → list.filter (·.identifier == identifier) = []) := by
  induction list generalizing present with
  | nil => simp
  | cons property list ih =>
    unfold propertiesCheck at h
    split_ifs at h with hfr
    obtain ⟨hlen, hnone⟩ := ih h
    by_cases hid : property.identifier = identifier
    · have hnil := hnone (hid ▸ List.mem_cons_self)
      rw [List.filter_cons_of_pos (by simpa using hid), hnil]
      refine ⟨Nat.le_refl 1, fun hmem => absurd ?_ hfr⟩
      simp [hid, hmem, hrepeat]
    · rw [List.filter_cons_of_neg (by simpa using hid)]
      exact ⟨hlen, fun hmem => hnone (List.mem_cons_of_mem _ hmem)⟩

/-- A CONNECT that is parsed sends its Session Expiry Interval. -/
theorem bindSessionProperties_of_parsed (h : connectParse packet = .ok connect) :
    bindSessionProperties connect = .ok ((sessionExpiries connect).flatMap fun property => sessionExpiryWrite property.integer) := by
  obtain ⟨⟨bytes, rest, hprp⟩, -⟩ := connectParse_eq_ok h
  obtain ⟨hoth, hv5⟩ := connectProperties_eq_ok hprp
  unfold bindSessionProperties
  by_cases hver : connect.version = .v5
  · obtain ⟨present, hval⟩ := hv5 hver
    unfold propertiesValidate at hval
    split at hval
    · cases hval
    rename_i checked hchecked
    split at hval
    · rename_i hend
      obtain ⟨hlen, -⟩ := propertiesCheck_once (show PropertyId.sessionExpiryInterval ∉ userPropertyRepeatable by decide) hchecked
      rw [if_neg (by simpa using hver), sessionExpiryLoop_eq_ok.2 ⟨hlen, rfl⟩, hend]
      rfl
    · cases hval
  · rw [if_pos hver, hoth hver]
    simp [sessionExpiries, hoth hver, properties_nil]

/-- The payload depends on what the owner is to see alone. -/
theorem connectBindEncode_congr {first second : ConnectView} (hsame : ownerConnect first [] = ownerConnect second [])
    (hprp : bindSessionProperties first = bindSessionProperties second) (principal : Option StoredPrincipal)
    (metadata : Option IngressMetadata) (maxPayloadSize : Nat) :
    connectBindEncode first principal metadata maxPayloadSize = connectBindEncode second principal metadata maxPayloadSize := by
  simp only [ownerConnect, ConnectView.mk.injEq, and_true, true_and] at hsame
  obtain ⟨hver, hcln, hqos, hret, hkeep, hcli, hwillProperties, htop, hpay⟩ := hsame
  simp only [connectBindEncode, bindConnectValidate, sanitizedConnect, hprp, hver, hcln, hqos, hret, hkeep, hcli,
    hwillProperties, htop, hpay]

omit [Vstr] in
theorem bindParseStatus_eq_ok {α : Type} {result : Except ParseError α} {value : α} (h : bindParseStatus result = .ok value) :
    result = .ok value := by
  cases result with
  | error e => cases e <;> cases h
  | ok a =>
    cases h
    rfl

/-- What the encoder made its payload of. -/
theorem connectBindEncode_eq_ok {metadata : Option IngressMetadata} {data : Bytes}
    (h : connectBindEncode connect principal metadata maxPayloadSize = .ok data) :
    (connectBindHeaderSize ≤ maxPayloadSize ∧ maxPayloadSize < 2 ^ 32) ∧ connect.clientId ≠ [] ∧
      bindMetadataValidate (metadata.getD noMetadata) = .ok () ∧
      boundPrincipalDecode (boundPrincipalBytes principal) = .ok (principal.map StoredPrincipal.principal) ∧
      ∃ values capacity packet, bindSessionProperties connect = .ok values ∧
        connectPacketEncode (sanitizedConnect connect values) capacity = .ok packet ∧
        connectBindHeaderSize + (boundPrincipalBytes principal).length + (metadata.getD noMetadata).length + capacity = maxPayloadSize ∧
        (connectBindFields (boundPrincipalBytes principal) (metadata.getD noMetadata) packet).flatten = data := by
  simp only [connectBindEncode, bindConnectValidate, bind_eq_ok, exists_unit, Checks.require_eq_ok, pure_eq_ok,
    Bool.and_eq_true, Bool.not_eq_true', isEmpty_eq_false_iff, decide_eq_true_eq] at h
  obtain ⟨hlim, ⟨⟨⟨⟨-, hcli⟩, -⟩, -⟩, -⟩, hmeta, size, hsize, ⟨hprincipalFits, hmetadataFits⟩, values, hvls, packet,
    hpkt, hdata⟩ := h
  obtain ⟨hlen, hdec⟩ := boundPrincipalSize_eq_ok hsize
  exact ⟨hlim, hcli, hmeta, hdec, values, maxPayloadSize - connectBindHeaderSize - size - (metadata.getD noMetadata).length,
    packet, hvls, bindParseStatus_eq_ok hpkt, by omega, hdata⟩

/-- A CONNECT that is bound reaches the owner with its principal, its metadata and nothing of its properties but the
Session Expiry Interval, under every limit the packet parser takes; above the largest packet the owner refuses what the
edge sent. Credentials and other properties change nothing in the payload. -/
theorem connect_bind_round_trip (principal : Option StoredPrincipal) (metadata : Option IngressMetadata) (limit : Nat) :
    (∀ connect data, connectBindEncode connect principal metadata limit = .ok data →
      (limit ≤ maxWirePacketSize → ∃ view values,
        connectBindDecode data limit =
          .ok ⟨principal.map StoredPrincipal.principal, view, ownerConnect connect values, metadata.getD noMetadata⟩ ∧
        properties values = (sessionExpiries connect, .needMore)) ∧
      (maxWirePacketSize < limit → connectBindDecode data limit = .error .einval)) ∧
    ∀ first second firstPacket secondPacket, connectParse firstPacket = .ok first → connectParse secondPacket = .ok second →
      ownerConnect first [] = ownerConnect second [] → sessionExpiries first = sessionExpiries second →
      connectBindEncode first principal metadata limit = connectBindEncode second principal metadata limit := by
  refine ⟨fun connect data henc => ?_, ?_⟩
  · obtain ⟨hlim, hcli, hmeta, hprincipal, values, capacity, packet, hvls, hpkt, hcap, rfl⟩ :=
      connectBindEncode_eq_ok henc
    obtain ⟨-, hbs⟩ := bind_unit_eq_ok.1 hpkt
    have hsize := length_encodePacket_le hbs
    have hne : packet ≠ [] := List.length_pos_iff.1 (length_encodePacket hbs).1
    have hdec := connectBindDecode_fields hlim (by omega) hprincipal hmeta hne
    refine ⟨fun hwire => ?_, fun hwire => ?_⟩
    · obtain ⟨view, hview⟩ := bindConnectDecode_sanitized hvls hcli hpkt (by omega) hwire
      obtain ⟨hlen, hwr, -⟩ := bindSessionProperties_eq_ok hvls
      refine ⟨view, values, ?_, hwr ▸ properties_sessionExpiryWrite hlen⟩
      rw [hdec, hview]
      rfl
    · rw [hdec, bindConnectDecode_refused hwire]
      rfl
  · intro first second firstPacket secondPacket hfst hsecond hsame hexp
    refine connectBindEncode_congr hsame ?_ principal metadata limit
    rw [bindSessionProperties_of_parsed hfst, bindSessionProperties_of_parsed hsecond, hexp]

end

section
attribute [local instance] asciiVstr

def edgeConnect : ConnectView where
  version := .v5
  cleanStart := true
  willQos := 1
  willRetain := false
  keepAlive := 30
  properties := [0x11, 0, 0, 0, 60, 0x21, 0, 10]
  clientId := text "c"
  willProperties := []
  willTopic := text "w"
  willPayload := [1]
  username := some (text "u")
  password := some (text "secret")

def edgePrincipal : StoredPrincipal where
  principal :=
    { headerValid := true, principalId := text "u", principalType := text "user", domainId := text "d", authMethod := text "password"
      scope := .self, roles := [text "r"], groups := [text "g", text "h"], expiresAt := 0, policyVersion := 3 }
  terminated := by decide

def edgeBindData (limit : Nat) : Bytes :=
  match connectBindEncode edgeConnect (some edgePrincipal) none limit with
  | .ok data => data
  | .error _ => []

theorem connect_bind_round_trip_edge :
    connectBindEncode edgeConnect (some edgePrincipal) none 256 = .ok (edgeBindData 256) ∧
      ∃ view values, connectBindDecode (edgeBindData 256) 256 =
          .ok ⟨some edgePrincipal.principal, view, ownerConnect edgeConnect values, noMetadata⟩ ∧
        properties values = (sessionExpiries edgeConnect, .needMore) :=
  have henc : connectBindEncode edgeConnect (some edgePrincipal) none 256 = .ok (edgeBindData 256) := by decide +kernel
  ⟨henc, ((connect_bind_round_trip (some edgePrincipal) none 256).1 edgeConnect _ henc).1 (by decide)⟩

/-- With a payload limit of one byte more than the largest packet the owner refuses what the edge encodes. -/
theorem connect_bind_refused :
    connectBindEncode edgeConnect (some edgePrincipal) none (maxWirePacketSize + 1) = .ok (edgeBindData (maxWirePacketSize + 1)) ∧
      connectBindDecode (edgeBindData (maxWirePacketSize + 1)) (maxWirePacketSize + 1) = .error .einval := by
  decide +kernel

end

end Flowie.Cluster
