import Flowie.Session.DeliveryTable

/-!
# The revision of a session

A session is stored under its resource generation, as a row of the repository or as a record. What is
stored is to change only together with that number. A failed call changes nothing that is stored, and
the number never goes back. It counts every change but three: a reservation moves the packet
identifier that is stored, a cancelled delivery is not stored any more (or changes the order of the
others), and a replay sets the DUP flag and the expiry interval in the stored packet.
-/

namespace Flowie.Session

open List Mqtt

/-- What the repository row of an owner says apart from its revision. -/
def durableRow (owner : Owner) : Except Errno SessionRow :=
  (repositorySnapshot owner).map fun row => { row with revision := 0 }

/-- Both writers write the same of two owners, apart from the revision. -/
structure SameStored [Ltv] [Vstr] (owner owner' : Owner) : Prop where
  row : durableRow owner' = durableRow owner
  record : ∀ capacity, recordEncode owner' capacity = recordEncode owner capacity

/-- The part of an owner that is stored. -/
structure Stored where
  initialized : Bool
  clientId : Option Bytes
  sessionId : UInt64
  sessionGeneration : UInt64
  version : Version
  keepAlive : UInt16
  sessionExpiryInterval : UInt32
  nextDeliveryPacketId : UInt16
  subscriptions : List Subscription
  inflight : List Inflight
  deliveries : List Delivery
  will : Option Will

def Owner.stored (owner : Owner) : Stored :=
  { initialized := owner.initialized
    clientId := owner.clientId
    sessionId := owner.config.sessionId
    sessionGeneration := owner.sessionGeneration
    version := owner.version
    keepAlive := owner.keepAlive
    sessionExpiryInterval := owner.sessionExpiryInterval
    nextDeliveryPacketId := owner.nextDeliveryPacketId
    subscriptions := owner.subscriptions
    inflight := owner.inflight.filter (·.released)
    deliveries := (owner.deliveries.entries.filter (·.persisted)).map Delivery.stored
    will := owner.will.map (·.stored owner.active) }

theorem storedState_stored (delivery : Delivery) : delivery.stored.storedState = delivery.storedState := by
  unfold Delivery.stored Delivery.storedState
  by_cases hqd : delivery.state = .queued
  · rw [if_pos hqd]
    unfold waitState
    split <;> rfl
  · rw [if_neg hqd]
    rw [if_neg hqd]

/-- Deliveries of the same stored form are written alike. -/
theorem map_eq_of_stored {β : Type} {f : Delivery → β} (hf : ∀ delivery, f delivery.stored = f delivery)
    {deliveries deliveries' : List Delivery} (h : deliveries'.map Delivery.stored = deliveries.map Delivery.stored) :
    deliveries'.map f = deliveries.map f := by
  have hmap : ∀ l : List Delivery, l.map f = (l.map Delivery.stored).map f := by
    intro l
    rw [map_map]
    exact map_congr_left fun delivery _ => (hf delivery).symm
  rw [hmap, h, ← hmap]

def deliveryRow (delivery : Delivery) : DeliveryRow :=
  ⟨delivery.packetId, delivery.qos, delivery.storedState, delivery.expiryAtEpochSeconds, delivery.packet.getD []⟩

theorem deliveryRow_stored (delivery : Delivery) : deliveryRow delivery.stored = deliveryRow delivery := by
  unfold deliveryRow
  rw [storedState_stored]
  rfl

theorem deliveryRows_eq (entries : List Delivery) : deliveryRows entries =
    if ((entries.filter (·.persisted)).map (·.packet.isSome)).all id then
      .ok ((entries.filter (·.persisted)).map deliveryRow)
    else .error .eproto := by
  induction entries with
  | nil => rfl
  | cons delivery rest ih =>
    rw [deliveryRows]
    by_cases hresv : delivery.state = .reserved
    · rw [if_pos hresv, ih, filter_cons_of_neg (by simp [Delivery.persisted, hresv])]
    rw [if_neg hresv, ih, filter_cons_of_pos (by simp [Delivery.persisted, hresv])]
    cases hpkt : delivery.packet with
    | none => simp [hpkt]
    | some packet =>
      rw [map_cons, all_cons, hpkt, Option.isSome_some, id, Bool.true_and]
      by_cases hall : ((rest.filter (·.persisted)).map (·.packet.isSome)).all id = true
      · rw [if_pos hall, if_pos hall, map_cons, deliveryRow, hpkt]
        rfl
      · rw [if_neg hall, if_neg hall]

section

variable [Ltv] [Vstr] {owner owner' : Owner}

section
variable (h : owner'.stored = owner.stored)
include h

omit [Ltv] [Vstr] in
/-- The row depends on an owner only through what is stored of it, and on whether it has a revision. -/
theorem durableRow_congr (hgen : (owner'.resourceGeneration == 0) = (owner.resourceGeneration == 0)) :
    durableRow owner' = durableRow owner := by
  obtain ⟨hinit, hcli, hid, hsess, hver, hkeep, hexp, hnext, hsubs, hinfl, hdels, hwill⟩ :=
    Stored.mk.inj h
  have hrows : deliveryRows owner'.deliveries.entries = deliveryRows owner.deliveries.entries := by
    rw [deliveryRows_eq, deliveryRows_eq, map_eq_of_stored deliveryRow_stored hdels,
      map_eq_of_stored (f := (·.packet.isSome)) (fun _ => rfl) hdels]
  have hrel : owner'.inflight.filter (·.state == .qos2Release) = owner.inflight.filter (·.state == .qos2Release) :=
    hinfl
  unfold durableRow repositorySnapshot
  rw [hcli, hinit, hgen, hrows]
  cases owner.clientId with
  | none => rfl
  | some clientId =>
    dsimp only
    split
    · rfl
    cases deliveryRows owner.deliveries.entries with
    | error e => rfl
    | ok rows =>
      dsimp only [Except.map]
      rw [hid, hsess, hver, hkeep, hexp, hnext, hsubs, hrel, hwill]

omit [Ltv] in
theorem recordSizes_congr : recordSizes owner' = recordSizes owner := by
  obtain ⟨-, -, -, -, -, -, -, -, hsubs, hinfl, hdels, -⟩ := Stored.mk.inj h
  have hwill : ∀ o : Owner, (o.will.elim [] fun will =>
      [(willCheck will).map fun _ => 7, .ok will.topic.length, .ok will.properties.length, .ok will.payload.length]) =
      o.stored.will.elim [] fun will =>
        [(willCheck will).map fun _ => 7, .ok will.topic.length, .ok will.properties.length, .ok will.payload.length] := by
    intro o
    cases hw : o.will with
    | none => simp [Owner.stored, hw]
    | some will => simp [Owner.stored, hw, Will.stored, willCheck]
  have hpres := map_eq_of_stored (f := fun delivery => if delivery.packet.isNone then Except.error Errno.eproto
    else .ok 12) (fun _ => rfl) hdels
  have hpkt := map_eq_of_stored (f := fun delivery => (.ok (delivery.packet.getD []).length : Except Errno Nat))
    (fun _ => rfl) hdels
  unfold recordSizes
  rw [hsubs, hinfl, hpres, hpkt, hwill, hwill, h]

omit [Ltv] [Vstr] in
theorem recordFields_congr : recordFields owner' = recordFields owner := by
  obtain ⟨-, -, hid, hsess, hver, hkeep, hexp, hnext, hsubs, hinfl, hdels, -⟩ := Stored.mk.inj h
  have hwill : ∀ o : Owner, (o.will.elim [] fun will =>
      [((8 : UInt8), recordWill o.active will), (9, will.topic), (10, will.properties), (11, will.payload)]) =
      o.stored.will.elim [] fun will =>
        [(8, recordWill false will), (9, will.topic), (10, will.properties), (11, will.payload)] := by
    intro o
    cases hw : o.will with
    | none => simp [Owner.stored, hw]
    | some will => simp [Owner.stored, hw, Will.stored, recordWill]
  have hdel := map_eq_of_stored (f := fun delivery => ((6 : UInt8), recordDelivery delivery))
    (fun delivery => by unfold recordDelivery; rw [storedState_stored]; rfl) hdels
  have hpkt := map_eq_of_stored (f := fun delivery => ((7 : UInt8), delivery.packet.getD [])) (fun _ => rfl)
    hdels
  unfold recordFields recordMetadata
  rw [hid, hsess, hver, hkeep, hexp, hnext, hsubs, hinfl, hdel, hpkt, hwill, hwill, h]

/-- Both writers depend on an owner only through what is stored of it, and on whether it has a revision. -/
theorem SameStored.of_stored
    (hgen : (owner'.resourceGeneration == 0) = (owner.resourceGeneration == 0)) : SameStored owner owner' := by
  refine ⟨durableRow_congr h hgen, fun capacity => ?_⟩
  obtain ⟨hinit, hcli, -, hsess, -⟩ := Stored.mk.inj h
  unfold recordEncode
  rw [hinit, hcli, hsess, hgen, recordSizes_congr h, recordFields_congr h]

end

variable {row : SessionRow}

omit [Ltv] [Vstr] in
/-- What a row says of the deliveries and of the last packet identifier. -/
theorem repositorySnapshot_eq_ok (h : repositorySnapshot owner = .ok row) :
    row.nextDeliveryPacketId = owner.nextDeliveryPacketId ∧
      row.deliveries = (owner.deliveries.entries.filter (·.persisted)).map deliveryRow ∧
      ∀ delivery ∈ owner.deliveries.entries.filter (·.persisted), delivery.packet.isSome = true := by
  unfold repositorySnapshot at h
  rw [deliveryRows_eq] at h
  split at h
  · cases h
  split at h
  · cases h
  by_cases hall : ((owner.deliveries.entries.filter (·.persisted)).map (·.packet.isSome)).all id = true
  · rw [if_pos hall] at h
    cases h
    exact ⟨rfl, rfl, forall_mem_map.1 (all_eq_true.1 hall)⟩
  · rw [if_neg hall] at h
    cases h

/-- Owners that are stored alike have the same last packet identifier and the same rows of deliveries. -/
theorem SameStored.deliveries (h : SameStored owner owner') (hrow : repositorySnapshot owner = .ok row) :
    owner'.nextDeliveryPacketId = owner.nextDeliveryPacketId ∧
      (owner'.deliveries.entries.filter (·.persisted)).map deliveryRow =
        (owner.deliveries.entries.filter (·.persisted)).map deliveryRow := by
  have hsame := h.row
  unfold durableRow at hsame
  rw [hrow] at hsame
  cases hrow' : repositorySnapshot owner' with
  | error e =>
    rw [hrow'] at hsame
    cases hsame
  | ok row' =>
    rw [hrow'] at hsame
    have hflds := SessionRow.mk.inj (Except.ok.inj hsame)
    obtain ⟨hnext, hdels, -⟩ := repositorySnapshot_eq_ok hrow
    obtain ⟨hnext', hdels', -⟩ := repositorySnapshot_eq_ok hrow'
    rw [← hnext, ← hnext', ← hdels, ← hdels']
    exact ⟨hflds.2.2.2.2.2.2.2.1, hflds.2.2.2.2.2.2.2.2.2.2.1⟩

omit [Ltv] in
/-- A transition counts, or changes nothing that is stored, or is one of the three. -/
theorem Transition.counts {op : Op} {reply : Reply} (h : Transition owner op owner' reply) :
    (owner.resourceGeneration ≠ uint64Max ∧ owner'.resourceGeneration = owner.resourceGeneration + 1) ∨
      (owner'.stored = owner.stored ∧ owner'.resourceGeneration = owner.resourceGeneration) ∨
      (∃ qos, op = .reserve qos) ∨ (∃ packetId, op = .cancel packetId) ∨ ∃ index now, op = .pendingAt index now := by
  cases h with
  | unchanged => exact .inr (.inl ⟨rfl, rfl⟩)
  | opened view takeover expiry will result hchk =>
    exact .inl ⟨(openable_of_openCheck hchk).resourceGeneration, rfl⟩
  | closed hact hgen =>
    refine .inl ⟨hgen, ?_⟩
    unfold Session.closed
    split <;> rfl
  | reserved qos => exact .inr (.inr (.inl ⟨qos, rfl⟩))
  | removed op index removed deliveries generation reply hrep hent hop honly hents hgen =>
    rcases hgen with ⟨hcan, -⟩ | ⟨hgen, hnext⟩
    · exact .inr (.inr (.inr (.inl hcan)))
    · exact .inl ⟨hgen, hnext⟩
  | replayed index now => exact .inr (.inr (.inr (.inr ⟨index, now, rfl⟩)))
  | cloned deliveries hents =>
    refine .inr (.inl ⟨?_, rfl⟩)
    unfold Owner.stored
    rw [hents]
  | _ => exact .inl ⟨‹_›, rfl⟩

end

section

variable [Vstr]

/-- The seconds left that a packet has in its Message Expiry Interval. -/
def expirySeconds (packet : Bytes) : Option Nat :=
  match packetParse packet .v5 packet.length with
  | .error _ => none
  | .ok (view, _) =>
    match publishParse view with
    | .error _ => none
    | .ok publish => ((properties publish.properties).1.find? (·.identifier == .messageExpiryInterval)).map (·.integer)

/-- The delivery waits for the answer to a PUBLISH whose DUP bit is clear. -/
def unmarked (delivery : Delivery) (packet : Bytes) : Bool :=
  decide (delivery.state = .waitAck ∨ delivery.state = .waitPubrec) &&
    packet.head?.any fun first => decide (first.toNat / 16 = PacketType.publish.toNibble) && first ||| 0x08 != first

/-- The packet at the place has its DUP bit and the seconds left already. -/
def replayKeeps (owner : Owner) (index : Nat) (now : UInt64) : Bool :=
  owner.deliveries.entries[index]?.any fun delivery => delivery.packet.any fun packet =>
    !unmarked delivery packet && (delivery.expiryAtEpochSeconds == 0 || owner.version != .v5 ||
      expirySeconds packet == some (secondsLeft delivery.expiryAtEpochSeconds now))

/-- Whether the revision counts the change of a call that succeeds. A reservation is not counted unless the first
    free packet identifier is the one that is stored; a cancellation is not when the delivery is stored, or when the
    last delivery is and moves over another one that is; and a replay is not when it rewrites the packet. -/
def counted (owner : Owner) : Call → Bool
  | .op (.reserve _) =>
    (packetIdsAfter owner.nextDeliveryPacketId 65535).find? (· ∉ owner.deliveryIds) == some owner.nextDeliveryPacketId
  | .op (.cancel packetId) =>
    match deliveryLookup owner packetId with
    | .ok (delivery, index) =>
      !delivery.persisted && (decide ((owner.deliveries.entries.drop (index + 1)).countP (·.persisted) ≤ 1) ||
        !owner.deliveries.entries.getLast?.any (·.persisted))
    | .error _ => true
  | .op (.pendingAt index now) => replayKeeps owner index now
  | .pendingAt index => replayKeeps owner index 0
  | _ => true

variable {owner owner' : Owner}

omit [Vstr] in
/-- A reservation gets the first free identifier. -/
theorem find?_of_deliveryReserve {qos : UInt8} {packetId : UInt16} (h : deliveryReserve owner qos = .ok (owner', packetId)) :
    (packetIdsAfter owner.nextDeliveryPacketId 65535).find? (· ∉ owner.deliveryIds) = some packetId := by
  unfold deliveryReserve at h
  split_ifs at h
  rw [show uint16Max.toNat = 65535 from rfl, reserveLoop_eq] at h
  cases hfind : (packetIdsAfter owner.nextDeliveryPacketId 65535).find? (· ∉ owner.deliveryIds) with
  | none =>
    rw [hfind] at h
    cases h
  | some candidate =>
    rw [hfind] at h
    dsimp only [Option.elim_some] at h
    split at h
    · cases h
    · cases h
      rfl

variable {packet packet' : Bytes} {expiry now : UInt64}

/-- A refresh leaves the first byte of the packet, and the others if they have the seconds left already. -/
theorem packetExpiryRefresh_eq_ok (h : packetExpiryRefresh .v5 packet expiry now = .ok packet') :
    packet'.head? = packet.head? ∧ (packet' = packet ↔ expirySeconds packet = some (secondsLeft expiry now)) := by
  unfold packetExpiryRefresh at h
  split_ifs at h with hargs
  split at h
  · cases h
  rename_i view consumed hpkt
  split_ifs at h with hconsumed
  obtain rfl := not_not.1 hconsumed
  split at h
  · cases h
  rename_i publish hpub
  dsimp only at h
  split at h
  · cases h
  rename_i values found hloop
  split_ifs at h with hfnd
  cases h
  rw [hfnd] at hloop
  obtain ⟨front, four, back, _, property, _, _, hold, hfour, rfl, -, hfind, hinteger, -⟩ := expiryRefreshLoop_writes hloop
  obtain ⟨-, first, lenBytes, layout⟩ := packetLayout_of_parse hpkt
  obtain ⟨topicBytes, idBytes, blockHead, present, body⟩ := publishLayout_of_parse hpub
  obtain ⟨hbs, hfront⟩ := publish_front layout body
  have hleft : min (expiry - now).toNat uint32Max.toNat = secondsLeft expiry now := by
    simp only [Bool.or_eq_true, decide_eq_true_eq, not_or] at hargs
    rw [UInt64.toNat_sub_of_le _ _ (UInt64.le_of_lt (UInt64.not_le.1 hargs.1.2))]
    rfl
  have hseconds : expirySeconds packet = some property.integer := by
    unfold expirySeconds
    rw [hpkt]
    dsimp only
    rw [hpub]
    dsimp only
    rw [hfind]
    rfl
  have hwr : BigEndian.write 4 (secondsLeft expiry now) = four ↔ property.integer = secondsLeft expiry now := by
    rw [hinteger]
    constructor
    · rintro rfl
      exact BigEndian.read_write (Nat.lt_of_le_of_lt (Nat.min_le_right _ _) (by decide))
    · intro hread
      rw [← hread, BigEndian.write_read_of_length hfour]
  rw [hfront, hseconds, Option.some_inj, ← hwr, hleft]
  refine ⟨by rw [hbs]; rfl, ?_⟩
  conv_lhs => rw [hbs, hold]
  simp

variable {delivery : Delivery}

omit [Vstr] in
theorem replayed_packet_eq_iff (hhead : packet'.head? = packet.head?) :
    (delivery.replayed packet').packet = some packet ↔ unmarked delivery packet = false ∧ packet' = packet := by
  unfold Delivery.replayed unmarked
  split
  next hqd => simp [hqd]
  split
  next hwaits =>
    rw [decide_eq_true hwaits]
    cases packet' with
    | nil =>
      cases packet with
      | nil => simp [markDuplicate]
      | cons => cases hhead
    | cons first rest =>
      cases packet with
      | nil => cases hhead
      | cons b rest' =>
        obtain rfl : first = b := Option.some.inj hhead
        simp only [markDuplicate]
        by_cases hpub : first.toNat / 16 = PacketType.publish.toNibble <;> simp [hpub]
  next hwaits => simp [hwaits]

/-- The packet a delivery is handed out with is the stored one when nothing is left to write. -/
theorem pendingPacket_eq_ok (h : pendingPacket owner.version delivery packet now = .ok packet') :
    packet'.head? = packet.head? ∧
      (packet' = packet ↔ delivery.expiryAtEpochSeconds = 0 ∨ owner.version ≠ .v5 ∨
        expirySeconds packet = some (secondsLeft delivery.expiryAtEpochSeconds now)) := by
  unfold pendingPacket at h
  split at h
  next hzero =>
    cases h
    simp [hzero]
  next hexp =>
    split_ifs at h with htime hver
    · rw [hver] at h
      simpa [hexp, hver] using packetExpiryRefresh_eq_ok h
    · cases h
      simp [hver]

end

section

variable [Ltv] [Vstr] {owner owner' : Owner}

/-- What a call does that is not counted by itself: the number stays, what is stored stays when the call needs no
    counting, and changes when it does. -/
structure Uncounted (owner owner' : Owner) (needless : Bool) : Prop where
  generation : owner'.resourceGeneration = owner.resourceGeneration
  kept : needless = true → owner'.stored = owner.stored
  changed : ∀ row, repositorySnapshot owner = .ok row → SameStored owner owner' → needless = true

variable {packetId : UInt16}

theorem uncounted_reserve {qos : UInt8} (h : deliveryReserve owner qos = .ok (owner', packetId)) :
    Uncounted owner owner' (counted owner (.op (.reserve qos))) := by
  rw [counted, find?_of_deliveryReserve h]
  cases deliveryReserve_transition h with
  | unchanged _ _ hrep => cases hrep
  | advanced _ _ hrep => cases hrep
  | removed _ _ _ _ _ _ hrep => cases hrep
  | reserved _ _ hqos hopen hsp hid hfr =>
    have hfil : ((owner.deliveries.append ⟨packetId, qos, .reserved, 0, none⟩ hfr).entries.filter (·.persisted)) =
        owner.deliveries.entries.filter (·.persisted) :=
      (filter_append ..).trans (append_nil _)
    refine ⟨rfl, fun hsame => ?_, fun row hrow hsame => ?_⟩
    · unfold Owner.stored
      dsimp only
      rw [hfil, show packetId = _ by simpa using hsame]
    · simpa using (hsame.deliveries hrow).1

variable {delivery : Delivery} {index : Nat}

theorem uncounted_cancel (hlook : deliveryLookup owner packetId = .ok (delivery, index)) :
    ∃ owner', deliveryCancel owner packetId = .ok owner' ∧
      Uncounted owner owner'
        (!delivery.persisted && (decide ((owner.deliveries.entries.drop (index + 1)).countP (·.persisted) ≤ 1) ||
          !owner.deliveries.entries.getLast?.any (·.persisted))) := by
  obtain ⟨-, hent, -⟩ := deliveryLookup_eq_ok.1 hlook
  obtain ⟨deliveries, hrem, hents⟩ := deliveryRemoveAt_eq_ok hent
  refine ⟨{ owner with deliveries := deliveries }, ?_, rfl, fun hneedless => ?_, fun row hrow hsame => ?_⟩
  · unfold deliveryCancel
    rw [hlook]
    dsimp only
    rw [hrem]
  · have hnd : (owner.deliveries.entries.map Delivery.stored).Nodup := by
      apply List.Nodup.of_map Delivery.packetId
      rw [map_map]
      exact owner.deliveries.keys_nodup
    have hsto := (map_filter_swapRemove_iff (p := Delivery.persisted) hnd hent).2
      (by simpa using hneedless)
    rw [← hents] at hsto
    unfold Owner.stored
    rw [hsto]
  · obtain ⟨-, hrows⟩ := hsame.deliveries hrow
    have hids := congrArg (List.map DeliveryRow.packetId) hrows
    rw [map_map, map_map] at hids
    have hids : (deliveries.entries.filter (·.persisted)).map Delivery.packetId =
      (owner.deliveries.entries.filter (·.persisted)).map Delivery.packetId := hids
    rw [hents] at hids
    simpa using (map_filter_swapRemove_iff owner.deliveries.keys_nodup hent).1 hids

omit [Ltv] [Vstr] in
/-- Handing a delivery out changes its packet at most. -/
theorem stored_replayed (packet : Bytes) :
    (delivery.replayed packet).stored = { delivery.stored with packet := (delivery.replayed packet).packet } := by
  unfold Delivery.replayed Delivery.stored Delivery.storedState
  by_cases hqd : delivery.state = .queued
  · rw [if_pos hqd, if_pos hqd]
    unfold waitState
    split <;> rfl
  · rw [if_neg hqd]
    split <;> rfl

omit [Ltv] [Vstr] in
theorem persisted_replayed (packet : Bytes) (h : delivery.state ≠ .reserved) :
    (delivery.replayed packet).persisted = true ∧ (delivery.replayed packet).packet.isSome = true := by
  unfold Delivery.replayed Delivery.persisted
  split
  · unfold waitState
    split <;> exact ⟨rfl, rfl⟩
  · split <;> exact ⟨by simpa using h, rfl⟩

theorem uncounted_pending {now : UInt64} {handed : Delivery}
    (h : deliveryPendingAtEx owner index now = .ok (owner', handed)) :
    Uncounted owner owner' (replayKeeps owner index now) := by
  obtain ⟨delivery, stored, packet, hent, hpkt, hst, hpend, rfl, rfl⟩ := deliveryPendingAtEx_eq_ok h
  have hneedless : replayKeeps owner index now = true ↔ (delivery.replayed packet).packet = delivery.packet := by
    obtain ⟨hhead, hkept⟩ := pendingPacket_eq_ok hpend
    rw [hpkt, replayed_packet_eq_iff hhead, hkept]
    simp [replayKeeps, hent, hpkt, or_assoc]
  obtain ⟨hpers, hsome⟩ := persisted_replayed packet hst
  refine ⟨rfl, fun hsame => ?_, fun row hrow hsame => ?_⟩
  · have hkept : (((owner.deliveries.entries.modify index (·.replayed packet)).filter (·.persisted)).map Delivery.stored) =
        (owner.deliveries.entries.filter (·.persisted)).map Delivery.stored := by
      refine KeyedList.map_filter_modify hent ?_ fun _ => ?_
      · rw [hpers]
        simpa [Delivery.persisted] using hst
      · rw [stored_replayed, hneedless.1 hsame]
        rfl
    unfold Owner.stored
    exact congrArg (fun deliveries => Stored.mk _ _ _ _ _ _ _ _ _ _ deliveries _) hkept
  · -- the rows hold one delivery of this packet identifier
    obtain ⟨-, hrows⟩ := hsame.deliveries hrow
    have hmem : deliveryRow (delivery.replayed packet) ∈
        (owner.deliveries.entries.filter (·.persisted)).map deliveryRow := by
      rw [← hrows]
      refine mem_map_of_mem (List.mem_filter.2 ⟨?_, hpers⟩)
      apply mem_of_getElem? (i := index)
      show (owner.deliveries.entries.modify index (·.replayed packet))[index]? = _
      simp [hent]
    obtain ⟨other, hoth, heq⟩ := List.mem_map.1 hmem
    obtain ⟨hid, -, -, -, hbs⟩ := DeliveryRow.mk.inj heq
    rw [Delivery.replayed_packetId] at hid
    obtain rfl : other = delivery := inj_on_of_nodup_map owner.deliveries.keys_nodup
      (mem_of_mem_filter hoth) (mem_of_getElem? hent) hid
    rw [hneedless]
    obtain ⟨bytes, hhanded⟩ := Option.isSome_iff_exists.1 hsome
    rw [hhanded, hpkt] at hbs ⊢
    exact congrArg some hbs.symm

variable {call : Call}

/-- A call that succeeds counts, or is not counted by itself. -/
theorem inPlace_counts {reply : Reply} (h : inPlace owner call = (owner', .ok reply)) :
    (owner.resourceGeneration ≠ uint64Max ∧ owner'.resourceGeneration = owner.resourceGeneration + 1 ∧
      counted owner call = true) ∨ Uncounted owner owner' (counted owner call) := by
  cases call with
  | op op =>
    have hstep := inPlace_op_eq_ok.1 h
    cases op with
    | reserve qos =>
      obtain ⟨packetId, hop, -⟩ := replied_eq_ok hstep
      exact .inr (uncounted_reserve hop)
    | cancel packetId =>
      obtain ⟨hop, -⟩ := done_eq_ok hstep
      right
      rw [counted]
      cases hlook : deliveryLookup owner packetId with
      | error e =>
        unfold deliveryCancel at hop
        rw [hlook] at hop
        cases hop
      | ok r =>
        obtain ⟨left, hcan, hunc⟩ := uncounted_cancel hlook
        obtain rfl : left = owner' := Except.ok.inj (hcan.symm.trans hop)
        exact hunc
    | pendingAt index now =>
      obtain ⟨handed, hop, -⟩ := replied_eq_ok hstep
      exact .inr (uncounted_pending hop)
    | _ =>
      rcases (step_transition hstep).counts with ⟨hgen, hnext⟩ | ⟨hsame, hgen⟩ | ⟨_, hop⟩ | ⟨_, hop⟩ | ⟨_, _, hop⟩
      · exact .inl ⟨hgen, hnext, rfl⟩
      · exact .inr ⟨hgen, fun _ => hsame, fun _ _ _ => rfl⟩
      · cases hop
      · cases hop
      · cases hop
  | openSession view =>
    have h : checked owner (done (ownerOpen owner view false)) = (owner', .ok reply) := h
    cases hopen : ownerOpen owner view false with
    | error e =>
      rw [hopen] at h
      cases h
    | ok o =>
      rw [hopen] at h
      cases h
      obtain ⟨expiry, will, hchk, -, -, rfl⟩ := ownerOpen_eq_ok hopen
      exact .inl ⟨(openable_of_openCheck hchk).resourceGeneration, rfl, rfl⟩
  | pendingAt index =>
    have h : answered .pending (deliveryPendingAt owner index) = (owner', .ok reply) := h
    right
    rcases deliveryPendingAt_eq owner index with heq | ⟨e, heq⟩
    · rw [heq] at h
      cases hop : deliveryPendingAtEx owner index 0 with
      | error e =>
        rw [hop] at h
        cases h
      | ok r =>
        rw [hop] at h
        cases h
        exact uncounted_pending hop
    · rw [heq] at h
      cases h

omit [Ltv] in
/-- The reservation a failed commit leaves is not stored, as the one it found was not. -/
theorem stored_of_error {e : Errno} (h : inPlace owner call = (owner', .error e)) :
    owner'.stored = owner.stored ∧ owner'.resourceGeneration = owner.resourceGeneration := by
  rcases inPlace_eq_error h with rfl | ⟨delivery, index, hent, hst, rfl⟩
  · exact ⟨rfl, rfl⟩
  have hresv : delivery.persisted = false := by
    unfold Delivery.persisted
    rw [hst]
    rfl
  have hkept : (((owner.deliveries.entries.modify index Delivery.rolledBack).filter (·.persisted)).map
      Delivery.stored) = (owner.deliveries.entries.filter (·.persisted)).map Delivery.stored :=
    KeyedList.map_filter_modify hent hresv.symm fun hp => by rw [hresv] at hp; cases hp
  exact ⟨congrArg (fun deliveries => Stored.mk _ _ _ _ _ _ _ _ _ _ deliveries _) hkept, rfl⟩

/-- Every call on an owner: a failure changes neither what is stored nor the revision, the revision never goes back,
    and a change of what is stored moves it forward when the call is counted. A call that is not changes
    what is stored of an owner that can be stored, and leaves the revision. -/
theorem revision_counts_changes (owner : Owner) (call : Call) :
    (∀ e, (inPlace owner call).2 = .error e → SameStored owner (inPlace owner call).1 ∧
      (inPlace owner call).1.resourceGeneration = owner.resourceGeneration) ∧
    owner.resourceGeneration ≤ (inPlace owner call).1.resourceGeneration ∧
    (counted owner call = true → ¬SameStored owner (inPlace owner call).1 →
      owner.resourceGeneration < (inPlace owner call).1.resourceGeneration) ∧
    (∀ row reply, repositorySnapshot owner = .ok row → (inPlace owner call).2 = .ok reply → counted owner call = false →
      ¬SameStored owner (inPlace owner call).1 ∧
        (inPlace owner call).1.resourceGeneration = owner.resourceGeneration) := by
  have hrefl : ∀ {g g' : UInt64}, g' = g → g ≤ g' := fun h => h ▸ UInt64.le_refl _
  rcases hcall : inPlace owner call with ⟨owner', result⟩
  cases result with
  | error e =>
    obtain ⟨hsto, hgen⟩ := stored_of_error hcall
    have hsame : SameStored owner owner' := .of_stored hsto (by rw [hgen])
    exact ⟨fun _ _ => ⟨hsame, hgen⟩, hrefl hgen, fun _ hchg => absurd hsame hchg, fun _ _ _ h => nomatch h⟩
  | ok reply =>
    refine ⟨fun e h => (nomatch h), ?_⟩
    rcases inPlace_counts hcall with ⟨hgen, hnext, hcntd⟩ | hunc
    · have hlt : owner.resourceGeneration < owner'.resourceGeneration := by
        rw [hnext]
        exact generation_lt_succ hgen
      refine ⟨UInt64.le_of_lt hlt, fun _ _ => hlt, fun row _ _ _ hfls => ?_⟩
      rw [hcntd] at hfls
      cases hfls
    · refine ⟨hrefl hunc.generation, fun hcntd hchg => ?_, fun row _ hrow _ hfls => ?_⟩
      · exact absurd (.of_stored (hunc.kept hcntd) (by rw [hunc.generation])) hchg
      refine ⟨fun hsame => ?_, hunc.generation⟩
      rw [hunc.changed row hrow hsame] at hfls
      cases hfls

end

section Example

attribute [local instance] asciiVstr plainLtv

/-- The first CONNECT changes what is stored and counts. -/
theorem revision_counts_changes_connect :
    smallOwner.resourceGeneration < (inPlace smallOwner (.op (.connect persistentConnect false))).1.resourceGeneration :=
  (revision_counts_changes smallOwner (.op (.connect persistentConnect false))).2.2.1 rfl
    fun hsame => absurd hsame.row (by decide)

/-- A session with one delivery that waits for its acknowledgement. -/
def waiting : Owner := run smallOwner [.connect persistentConnect false, .reserve 1, .commit 1 (samplePacket 1) 0 false]

/-- A reservation, the cancellation of the delivery and its replay succeed, change the row and leave its revision. -/
theorem uncounted_changes :
    (durableRow (inPlace waiting (.op (.reserve 1))).1 ≠ durableRow waiting ∧
      (inPlace waiting (.op (.reserve 1))).1.resourceGeneration = waiting.resourceGeneration) ∧
    (durableRow (inPlace waiting (.op (.cancel 1))).1 ≠ durableRow waiting ∧
      (inPlace waiting (.op (.cancel 1))).1.resourceGeneration = waiting.resourceGeneration) ∧
    (durableRow (inPlace waiting (.op (.pendingAt 0 1))).1 ≠ durableRow waiting ∧
      (inPlace waiting (.op (.pendingAt 0 1))).1.resourceGeneration = waiting.resourceGeneration) := by
  decide

end Example

end Flowie.Session
