import Flowie.Session.Owner

/-!
# Outbound deliveries of a session

Reserving a packet identifier, committing the packet, replaying what is pending and settling it by
PUBACK, PUBREC and PUBCOMP or by expiry. Removal moves the last delivery into the freed place.
-/

namespace Flowie.Session

open Mqtt

section Validate

variable [Vstr]

/-- Whether the values of a PUBLISH hold exactly one Message Expiry Interval. -/
def hasSingleExpiry (values : Bytes) : Bool :=
  match singleProperty .messageExpiryInterval values with
  | .ok (some _) => true
  | _ => false

/-- `flowie_session_record_delivery_validate`, for an owner of the given version. -/
def recordDeliveryValidate (version : Version) (delivery : Delivery) : Except Errno Unit :=
  match delivery.packet with
  | none => .error .eproto
  | some bytes =>
    match packetParse bytes version bytes.length with
    | .error _ => .error .eproto
    | .ok (packet, consumed) =>
      if consumed ≠ bytes.length then .error .eproto
      else if delivery.state = .waitPubcomp then
        match controlPacketParse packet with
        | .error _ => .error .eproto
        | .ok control =>
          if delivery.qos ≠ 2 ∨ packet.type ≠ .pubrel ∨ control.packetId ≠ delivery.packetId ∨
              delivery.expiryAtEpochSeconds ≠ 0 then .error .eproto
          else .ok ()
      else
        match publishParse packet with
        | .error _ => .error .eproto
        | .ok publish =>
          if publish.packetId ≠ delivery.packetId ∨ publish.qos ≠ delivery.qos ∨
              (delivery.state = .waitAck ∧ delivery.qos ≠ 1) ∨ (delivery.state = .waitPubrec ∧ delivery.qos ≠ 2) ∨
              (delivery.state = .queued ∧ (delivery.qos = 0 ∨ delivery.qos > 2)) then .error .eproto
          else if delivery.expiryAtEpochSeconds ≠ 0 ∧ version = .v5 ∧ !hasSingleExpiry publish.properties then
            .error .eproto
          else if delivery.expiryAtEpochSeconds ≠ 0 ∧ version ≠ .v5 ∧ !version.is3x then .error .eproto
          else .ok ()

end Validate

theorem qos_eq_one_or_two {qos : UInt8} (hzero : qos ≠ 0) (htwo : ¬2 < qos) : qos = 1 ∨ qos = 2 := by
  have hle : ¬2 < qos.toNat := htwo
  have hne : qos.toNat ≠ 0 := fun h => hzero (UInt8.toNat_inj.1 h)
  have hcases : qos.toNat = 1 ∨ qos.toNat = 2 := by omega
  exact hcases.imp (fun h => UInt8.toNat_inj.1 h) (fun h => UInt8.toNat_inj.1 h)

/-- `flowie_session_delivery_lookup`. -/
def deliveryLookup (owner : Owner) (packetId : UInt16) : Except Errno (Delivery × Nat) :=
  if packetId = 0 then .error .einval
  else
    match owner.deliveries.index.lookup packetId with
    | none => .error .enoent
    | some i =>
      match owner.deliveries.entries[i]? with
      | none => .error .eproto
      | some delivery => if delivery.packetId ≠ packetId then .error .eproto else .ok (delivery, i)

/-- `flowie_session_delivery_append`. -/
def deliveryAppend (owner : Owner) (delivery : Delivery) : Except Errno Owner :=
  if delivery.packetId = 0 then .error .einval
  else
    match h : owner.deliveries.index.lookup delivery.packetId with
    | none => .ok { owner with deliveries := owner.deliveries.append delivery h }
    | some _ =>
      match deliveryLookup owner delivery.packetId with
      | .ok _ => .error .ealready
      | .error e => .error e

/-- `flowie_session_delivery_remove_at`. -/
def deliveryRemoveAt (owner : Owner) (index : Nat) : Except Errno (Owner × Delivery) :=
  match h : owner.deliveries.entries[index]?, hl : owner.deliveries.entries.getLast? with
  | some removed, some last =>
    if owner.deliveries.index.lookup removed.packetId ≠ some index then .error .eproto
    else if index + 1 < owner.deliveries.entries.length ∧
        owner.deliveries.index.lookup last.packetId ≠ some (owner.deliveries.entries.length - 1) then .error .eproto
    else .ok ({ owner with deliveries := owner.deliveries.removeAt index removed last h hl }, removed)
  | _, _ => .error .enoent

variable {owner : Owner} {delivery : Delivery} {index : Nat} {owner' : Owner}

theorem deliveryAppend_eq_ok (h : deliveryAppend owner delivery = .ok owner') :
    ∃ hfr, delivery.packetId ≠ 0 ∧ owner' = { owner with deliveries := owner.deliveries.append delivery hfr } := by
  unfold deliveryAppend at h
  split_ifs at h with hid
  split at h
  · rename_i hfr
    cases h
    exact ⟨hfr, hid, rfl⟩
  · split at h <;> cases h

theorem deliveryLookup_eq_ok {packetId : UInt16} :
    deliveryLookup owner packetId = .ok (delivery, index) ↔
      packetId ≠ 0 ∧ owner.deliveries.entries[index]? = some delivery ∧ delivery.packetId = packetId := by
  unfold deliveryLookup
  by_cases hid : packetId = 0
  · simp [hid]
  rw [if_neg hid]
  cases hl : owner.deliveries.index.lookup packetId with
  | none =>
    have hnone := owner.deliveries.lookup_eq_none_iff.1 hl
    constructor
    · intro h
      cases h
    · intro ⟨_, hent, hkey⟩
      exact absurd hkey (hnone _ (List.mem_of_getElem? hent))
  | some i =>
    obtain ⟨found, hfnd, hkey⟩ := (owner.deliveries.synced packetId i).1 hl
    dsimp only
    rw [hfnd]
    dsimp only
    rw [if_neg (by simpa using hkey)]
    constructor
    · intro h
      cases h
      exact ⟨hid, hfnd, hkey⟩
    · intro ⟨_, hent, hkey'⟩
      obtain rfl := owner.deliveries.key_injective hfnd hent (hkey.trans hkey'.symm)
      rw [hfnd] at hent
      cases hent
      rfl

/-- The consistency checks of a removal never fail. -/
theorem deliveryRemoveAt_of_getLast {last : Delivery} (h : owner.deliveries.entries[index]? = some delivery)
    (hlast : owner.deliveries.entries.getLast? = some last) :
    deliveryRemoveAt owner index =
      .ok ({ owner with deliveries := owner.deliveries.removeAt index delivery last h hlast }, delivery) := by
  have hend : owner.deliveries.entries[owner.deliveries.entries.length - 1]? = some last := by
    rw [← List.getLast?_eq_getElem?, hlast]
  unfold deliveryRemoveAt
  split
  · rename_i removed last' h' hl'
    obtain rfl : delivery = removed := Option.mem_unique h h'
    obtain rfl : last = last' := Option.mem_unique hlast hl'
    rw [if_neg (by simpa using (owner.deliveries.synced _ _).2 ⟨delivery, h, rfl⟩), if_neg]
    intro ⟨_, hne⟩
    exact hne ((owner.deliveries.synced _ _).2 ⟨last, hend, rfl⟩)
  · rename_i hnone
    exact absurd hlast (hnone delivery last h)

theorem deliveryRemoveAt_eq_ok (h : owner.deliveries.entries[index]? = some delivery) :
    ∃ deliveries, deliveryRemoveAt owner index = .ok ({ owner with deliveries := deliveries }, delivery) ∧
      deliveries.entries = owner.deliveries.entries.swapRemove index := by
  have hlast := List.getLast?_eq_some_getLast (List.ne_nil_of_mem (List.mem_of_getElem? h))
  exact ⟨_, deliveryRemoveAt_of_getLast h hlast, rfl⟩

/-- The search of `flowie_session_owner_delivery_reserve` for a free packet identifier after
    `candidate`, with the attempts left. -/
def reserveLoop (owner : Owner) : Nat → UInt16 → Except Errno UInt16
  | 0, _ => .error .enospc
  | attempts + 1, candidate =>
    let candidate := if candidate = uint16Max then 1 else candidate + 1
    match deliveryLookup owner candidate with
    | .error .enoent => .ok candidate
    | .error e => .error e
    | .ok _ => reserveLoop owner attempts candidate

/-- `flowie_session_owner_delivery_reserve`. -/
def deliveryReserve (owner : Owner) (qos : UInt8) : Except Errno (Owner × UInt16) :=
  if qos = 0 ∨ qos > 2 then .error .einval
  else if !owner.active && (!owner.initialized || owner.sessionExpiryInterval == 0) then .error .ebusy
  else if owner.inflight.length + owner.deliveries.entries.length ≥ owner.config.maxInflight then .error .enospc
  else
    match reserveLoop owner uint16Max.toNat owner.nextDeliveryPacketId with
    | .error e => .error e
    | .ok candidate =>
      match deliveryAppend owner ⟨candidate, qos, .reserved, 0, none⟩ with
      | .error e => .error e
      | .ok owner => .ok ({ owner with nextDeliveryPacketId := candidate }, candidate)

def waitState (qos : UInt8) : DeliveryState := if qos = 1 then .waitAck else .waitPubrec

/-- The state a delivery is stored with: a queued one as if it had been sent. -/
def Delivery.storedState (delivery : Delivery) : DeliveryState :=
  if delivery.state = .queued then waitState delivery.qos else delivery.state

def Delivery.stored (delivery : Delivery) : Delivery := { delivery with state := delivery.storedState }

/-- Change the delivery at a place without changing its packet identifier. -/
def deliveryModifyAt (owner : Owner) (index : Nat) (f : Delivery → Delivery)
    (hf : ∀ delivery, (f delivery).packetId = delivery.packetId) : Owner :=
  { owner with deliveries := owner.deliveries.modifyAt index f hf }

def Delivery.committed (bytes : Bytes) (expiry : UInt64) (queued : Bool) (delivery : Delivery) : Delivery :=
  { delivery with
    packet := some bytes
    expiryAtEpochSeconds := expiry
    state := if queued then .queued else waitState delivery.qos }

section Commit

variable [Vstr]

/-- `flowie_session_owner_delivery_commit_state`: `delivery_commit`, or `delivery_commit_queued`
    when `queued` is set. -/
def deliveryCommit (owner : Owner) (packetId : UInt16) (bytes : Bytes) (expiry : UInt64) (queued : Bool) :
    Except Errno Owner :=
  if bytes.isEmpty then .error .einval
  else
    match deliveryLookup owner packetId with
    | .error e => .error e
    | .ok (delivery, index) =>
      if delivery.state ≠ .reserved ∨ delivery.packet.isSome then .error .ealready
      else if expiry ≠ 0 ∧
          recordDeliveryValidate owner.version (delivery.committed bytes expiry queued) ≠ .ok () then .error .eproto
      else if owner.resourceGeneration = uint64Max then .error .erange
      else
        let owner := deliveryModifyAt owner index (·.committed bytes expiry queued) fun _ => rfl
        .ok owner.advanced

end Commit

/-- `flowie_session_owner_delivery_cancel`. -/
def deliveryCancel (owner : Owner) (packetId : UInt16) : Except Errno Owner :=
  match deliveryLookup owner packetId with
  | .error e => .error e
  | .ok (_, index) =>
    match deliveryRemoveAt owner index with
    | .error e => .error e
    | .ok (owner, _) => .ok owner

/-- The delivery has an expiry time that is not after `now`. -/
def Delivery.expired (now : UInt64) (delivery : Delivery) : Bool :=
  delivery.expiryAtEpochSeconds != 0 && decide (delivery.expiryAtEpochSeconds ≤ now)

/-- The removal loop of `flowie_session_owner_delivery_expire` from `index` on; every round passes
    or removes one delivery. -/
def expireLoop (now : UInt64) : Nat → Nat → Owner → Except Errno Owner
  | 0, _, owner => .ok owner
  | fuel + 1, index, owner =>
    match owner.deliveries.entries[index]? with
    | none => .ok owner
    | some delivery =>
      if !delivery.expired now then expireLoop now fuel (index + 1) owner
      else
        match deliveryRemoveAt owner index with
        | .error e => .error e
        | .ok (owner, _) => expireLoop now fuel index owner

theorem expireLoop_eq_ok (now : UInt64) (fuel index : Nat) (owner : Owner) :
    ∃ deliveries, expireLoop now fuel index owner = .ok { owner with deliveries := deliveries } ∧
      deliveries.entries = owner.deliveries.entries.retainSwap (fun d => !d.expired now) fuel index := by
  induction fuel generalizing index owner with
  | zero => exact ⟨owner.deliveries, rfl, rfl⟩
  | succ fuel ih =>
    rw [expireLoop, List.retainSwap]
    cases hent : owner.deliveries.entries[index]? with
    | none => exact ⟨owner.deliveries, rfl, rfl⟩
    | some delivery =>
      dsimp only
      by_cases hexpd : delivery.expired now
      · obtain ⟨deliveries, hrem, hents⟩ := deliveryRemoveAt_eq_ok hent
        obtain ⟨rest, hrest, hkept⟩ := ih index { owner with deliveries := deliveries }
        refine ⟨rest, ?_, ?_⟩
        · rw [if_neg (by simp [hexpd]), hrem]
          exact hrest
        · rw [if_neg (by simp [hexpd]), hkept, hents]
      · rw [if_pos (by simp [hexpd]), if_pos (by simp [hexpd])]
        exact ih (index + 1) owner

/-- `flowie_session_owner_delivery_expire`: the owner and the number of deliveries removed. -/
def deliveryExpire (owner : Owner) (now : UInt64) : Except Errno (Owner × Nat) :=
  if now = 0 then .error .einval
  else
    let count := owner.deliveries.entries.countP (·.expired now)
    if count = 0 then .ok (owner, 0)
    else if owner.resourceGeneration = uint64Max then .error .erange
    else
      match expireLoop now owner.deliveries.entries.length 0 owner with
      | .error e => .error e
      | .ok owner => .ok (owner.advanced, count)

/-- `flowie_session_owner_delivery_expire_packet`: the owner and whether the delivery was
    removed. -/
def deliveryExpirePacket (owner : Owner) (packetId : UInt16) (now : UInt64) : Except Errno (Owner × Bool) :=
  if packetId = 0 ∨ now = 0 then .error .einval
  else
    match deliveryLookup owner packetId with
    | .error e => .error e
    | .ok (delivery, index) =>
      if !delivery.expired now then .ok (owner, false)
      else if owner.resourceGeneration = uint64Max then .error .erange
      else
        match deliveryRemoveAt owner index with
        | .error e => .error e
        | .ok (owner, _) => .ok (owner.advanced, true)

section Replay

variable [Vstr]

/-- The loop of `flowie_session_delivery_packet_expiry_refresh` over the property values: the
    values with the interval written over the last four bytes of the Message Expiry Interval, and
    whether there was one. Every property takes a byte, so the fuel is the number of bytes. -/
def expiryRefreshLoop (interval : Nat) : Nat → Bool → Bytes → Except Errno (Bytes × Bool)
  | 0, found, values => if values.isEmpty then .ok ([], found) else .error .eproto
  | fuel + 1, found, values =>
    match propertyIteratorNext values with
    | .error e => if e = .needMore then .ok (values, found) else .error .eproto
    | .ok (property, rest) =>
      let size := values.length - rest.length
      if property.identifier = .messageExpiryInterval then
        if found ∨ size < 4 then .error .eproto
        else
          match expiryRefreshLoop interval fuel true rest with
          | .error e => .error e
          | .ok (rest, found) => .ok (values.take (size - 4) ++ BigEndian.write 4 interval ++ rest, found)
      else
        match expiryRefreshLoop interval fuel found rest with
        | .error e => .error e
        | .ok (rest, found) => .ok (values.take size ++ rest, found)

/-- `flowie_session_delivery_packet_expiry_refresh`: the packet with its Message Expiry Interval set
    to the seconds left. The payload ends the packet and the property values stand before it. -/
def packetExpiryRefresh (version : Version) (packet : Bytes) (expiry now : UInt64) : Except Errno Bytes :=
  if packet.isEmpty || expiry == 0 || now == 0 || decide (expiry ≤ now) || version != .v5 then .error .einval
  else
    match packetParse packet version packet.length with
    | .error _ => .error .eproto
    | .ok (view, consumed) =>
      if consumed ≠ packet.length then .error .eproto
      else
        match publishParse view with
        | .error _ => .error .eproto
        | .ok publish =>
          let interval := min (expiry - now).toNat uint32Max.toNat
          match expiryRefreshLoop interval publish.properties.length false publish.properties with
          | .error e => .error e
          | .ok (values, found) =>
            let before := packet.length - publish.payload.length - publish.properties.length
            if found then .ok (packet.take before ++ values ++ publish.payload) else .error .eproto

/-- Set the DUP flag of a PUBLISH. -/
def markDuplicate : Bytes → Bytes
  | [] => []
  | first :: rest => (if first.toNat / 16 = PacketType.publish.toNibble then first ||| 0x08 else first) :: rest

/-- The packet of a delivery with its expiry checked and refreshed. -/
def pendingPacket (version : Version) (delivery : Delivery) (packet : Bytes) (now : UInt64) : Except Errno Bytes :=
  if delivery.expiryAtEpochSeconds = 0 then .ok packet
  else if now = 0 ∨ delivery.expiryAtEpochSeconds ≤ now then .error .ebusy
  else if version = .v5 then packetExpiryRefresh version packet delivery.expiryAtEpochSeconds now
  else if !version.is3x then .error .eproto
  else .ok packet

/-- A delivery as it is handed out with its packet: a queued one starts to wait, and one that
    waits for the first acknowledgement of a PUBLISH is a duplicate. -/
def Delivery.replayed (packet : Bytes) (delivery : Delivery) : Delivery :=
  if delivery.state = .queued then { delivery with packet := some packet, state := waitState delivery.qos }
  else if delivery.state = .waitAck ∨ delivery.state = .waitPubrec then
    { delivery with packet := some (markDuplicate packet) }
  else { delivery with packet := some packet }

omit [Vstr] in
theorem Delivery.replayed_packetId (packet : Bytes) (delivery : Delivery) :
    (delivery.replayed packet).packetId = delivery.packetId := by
  unfold Delivery.replayed
  split
  · rfl
  · split <;> rfl

omit [Vstr] in
theorem Delivery.replayed_qos (packet : Bytes) (delivery : Delivery) : (delivery.replayed packet).qos = delivery.qos := by
  unfold Delivery.replayed
  split
  · rfl
  · split <;> rfl

/-- `flowie_session_owner_delivery_pending_at_ex`: the owner and the delivery as handed out. -/
def deliveryPendingAtEx (owner : Owner) (index : Nat) (now : UInt64) : Except Errno (Owner × Delivery) :=
  match owner.deliveries.entries[index]? with
  | none => .error .enoent
  | some delivery =>
    match delivery.packet with
    | none => .error .enoent
    | some packet =>
      if delivery.state = .reserved then .error .enoent
      else
        match pendingPacket owner.version delivery packet now with
        | .error e => .error e
        | .ok packet =>
          .ok (deliveryModifyAt owner index (·.replayed packet) (Delivery.replayed_packetId packet),
            delivery.replayed packet)

end Replay

inductive AckKind where
  | puback | pubrec | pubrel | pubcomp
deriving DecidableEq, Repr

/-- `flowie_session_ack_intent_t`; the kind `FLOWIE_SESSION_ACK_NONE` is the absence of one, and no
    operation sets the reason code. -/
structure AckIntent where
  kind : AckKind
  packetId : UInt16
deriving DecidableEq, Repr

section Ack

variable [Vstr]

def pubrelPacket (version : Version) (packetId : UInt16) : ControlPacket :=
  ⟨version, .pubrel, false, packetId, 0, [], []⟩

def Delivery.released (pubrel : Bytes) (delivery : Delivery) : Delivery :=
  { delivery with packet := some pubrel, state := .waitPubcomp, expiryAtEpochSeconds := 0 }

/-- Whether an acknowledgement of the type is due for the delivery. -/
def ackExpected (type : PacketType) (delivery : Delivery) : Bool :=
  match type with
  | .puback => delivery.qos == 1 && delivery.state == .waitAck
  | .pubrec => delivery.qos == 2 && (delivery.state == .waitPubrec || delivery.state == .waitPubcomp)
  | _ => delivery.qos == 2 && delivery.state == .waitPubcomp

/-- `flowie_session_owner_delivery_ack`: the owner and the reply that is due. -/
def deliveryAck (owner : Owner) (packet : PacketView) : Except Errno (Owner × Option AckIntent) :=
  if !owner.active || packet.version != owner.version then .error .ebusy
  else if packet.type ≠ .puback ∧ packet.type ≠ .pubrec ∧ packet.type ≠ .pubcomp then .error .eproto
  else
    match controlPacketParse packet with
    | .error _ => .error .eproto
    | .ok control =>
      match deliveryLookup owner control.packetId with
      | .error e => .error e
      | .ok (delivery, index) =>
        if delivery.state = .reserved then .error .enoent
        else if !ackExpected packet.type delivery then .error .eproto
        else if owner.resourceGeneration = uint64Max then .error .erange
        else if packet.type = .pubrec ∧ control.reasonCode < 0x80 then
          let reply : AckIntent := ⟨.pubrel, control.packetId⟩
          if delivery.state = .waitPubrec then
            match controlPacketEncode (pubrelPacket owner.version control.packetId) 32 with
            | .error _ => .error .eproto
            | .ok pubrel =>
              let owner := deliveryModifyAt owner index (·.released pubrel) fun _ => rfl
              .ok (owner.advanced, some reply)
          else .ok (owner.advanced, some reply)
        else
          match deliveryRemoveAt owner index with
          | .error e => .error e
          | .ok (owner, _) => .ok (owner.advanced, none)

end Ack

/-- The delivery loop of `flowie_session_owner_clone`. -/
def deliveriesAppend : List Delivery → Owner → Except Errno Owner
  | [], owner => .ok owner
  | delivery :: rest, owner =>
    match deliveryAppend owner delivery with
    | .error e => .error e
    | .ok owner => deliveriesAppend rest owner

/-- `flowie_session_owner_clone`; `none` is the null pointer. -/
def ownerClone (owner : Owner) : Option Owner :=
  match ownerCreate owner.config with
  | none => none
  | some copy =>
    match deliveriesAppend owner.deliveries.entries copy with
    | .error _ => none
    | .ok copy => some { owner with deliveries := copy.deliveries }

theorem deliveriesAppend_eq_ok {entries : List Delivery} (h : deliveriesAppend entries owner = .ok owner') :
    owner'.deliveries.entries = owner.deliveries.entries ++ entries := by
  induction entries generalizing owner with
  | nil =>
    cases h
    simp
  | cons delivery rest ih =>
    unfold deliveriesAppend at h
    split at h
    · cases h
    rename_i o happ
    obtain ⟨_, -, rfl⟩ := deliveryAppend_eq_ok happ
    rw [ih h]
    exact List.append_assoc _ _ _

/-- A clone has the same deliveries in the same order, with an index of its own. -/
theorem ownerClone_eq_some {copy : Owner} (h : ownerClone owner = some copy) :
    ∃ deliveries, copy = { owner with deliveries := deliveries } ∧ deliveries.entries = owner.deliveries.entries := by
  unfold ownerClone ownerCreate at h
  split at h
  · cases h
  rename_i created hcr
  split at hcr
  · cases hcr
    split at h
    · cases h
    rename_i o happ
    cases h
    exact ⟨o.deliveries, rfl, deliveriesAppend_eq_ok happ⟩
  · cases hcr

end Flowie.Session
