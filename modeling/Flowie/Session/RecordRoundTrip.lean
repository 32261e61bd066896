import Flowie.Session.RecordFields

/-!
# Restoring the record of a session

The record of a reachable session is restored to its durable fields exactly when no delivery has the
packet identifier of a released inbound one, both together fit the limit of packets in flight, and the
revision is in the range of the store.
-/

namespace Flowie.Session

open List Delivery Ltv BigEndian Mqtt

section Segments

variable [Vstr] [Ltv] {config : SessionConfig} {type : UInt8} {st : RestoreState}

/-- Messages of one type, one after the other: `P` says of a state which of them are read and which are
    not. -/
theorem restoreFields_segment {α : Type} {encode : α → Bytes} {all : List α} {P : List α → List α → RestoreState → Prop}
    (hstep : ∀ before a rest st, all = before ++ a :: rest → P before (a :: rest) st →
      ∃ st', restoreField config st type (encode a) = .ok st' ∧
        P (before ++ [a]) rest (st'.passed type (wireSize (encode a).length))) (h : P [] all st) :
    ∃ st', restoreFields config (all.map fun a => (type, encode a)) st = .ok st' ∧ P all [] st' := by
  have hrun : ∀ rest before st, all = before ++ rest → P before rest st →
      ∃ st', restoreFields config (rest.map fun a => (type, encode a)) st = .ok st' ∧ P all [] st' := by
    intro rest
    induction rest with
    | nil =>
      intro before st hall hP
      rw [append_nil] at hall
      exact ⟨st, rfl, hall ▸ hP⟩
    | cons a rest ih =>
      intro before st hall hP
      obtain ⟨st1, hfld, hnext⟩ := hstep before a rest st hall hP
      obtain ⟨st', hrest, hlast⟩ := ih (before ++ [a]) _ (by simpa using hall) hnext
      refine ⟨st', ?_, hlast⟩
      rw [map_cons, restoreFields, hfld]
      exact hrest
  exact hrun all [] st rfl h

omit [Ltv] in
theorem restoreField_eq {value : Bytes} (h : typeInOrder st type = true) :
    restoreField config st type value = restoreMessage config st type value := by
  unfold restoreField
  rw [h]
  rfl

/-- How far the record of an owner is restored: the parts that are there, the options and packets that are
    filled in, and the greatest type read. -/
structure Progress (config : SessionConfig) (owner : Owner) (st : RestoreState) (subscriptions : List Subscription)
    (options : Nat) (inflight : List Inflight) (deliveries : List Delivery) (packets : Nat) (type : UInt8) : Prop where
  minor : st.recordMinor = 3
  header : st.headerSeen = true
  metadata : st.metadataSeen = true
  order : st.previousType ≤ type
  clientId : st.owner.clientId = owner.clientId
  config : st.owner.config = { config with sessionId := owner.config.sessionId }
  version : st.owner.version = owner.version
  sessionGeneration : st.owner.sessionGeneration = owner.sessionGeneration
  keepAlive : st.owner.keepAlive = owner.keepAlive
  expiry : st.owner.sessionExpiryInterval = owner.sessionExpiryInterval
  nextDeliveryPacketId : st.owner.nextDeliveryPacketId = owner.nextDeliveryPacketId
  subscriptions : st.owner.subscriptions = subscriptions
  options : st.optionIndex = options
  inflight : st.owner.inflight = inflight
  deliveries : st.owner.deliveries.entries = deliveries
  packets : st.packetIndex = packets
  will : st.owner.will = none
  willMetadataSeen : st.willMetadataSeen = false
  willTopicSeen : st.willTopicSeen = false
  willPropertiesSeen : st.willPropertiesSeen = false
  willPayloadSeen : st.willPayloadSeen = false

namespace Progress

variable {owner : Owner} {st : RestoreState} {subscriptions : List Subscription} {options packets : Nat}
  {inflight : List Inflight} {deliveries : List Delivery} {type : UInt8}

section

omit [Vstr] [Ltv]

variable (h : Progress config owner st subscriptions options inflight deliveries packets type)
include h

/-- A later type may follow. -/
theorem later {type' : UInt8}
    (hle : type ≤ type') : Progress config owner st subscriptions options inflight deliveries packets type' :=
  { h with order := UInt8.le_trans h.order hle }

theorem passed (size : Nat) :
    Progress config owner (st.passed type size) subscriptions options inflight deliveries packets type :=
  { h with order := UInt8.le_refl type }

theorem inOrder (hlow : 3 ≤ type) (hhigh : type ≤ 7) : typeInOrder st type = true := by
  have hlow : 3 ≤ type.toNat := hlow
  have hhigh : type.toNat ≤ 7 := hhigh
  have hord : st.previousType.toNat ≤ type.toNat := h.order
  have hzero : (type == 0) = false := by
    apply beq_false_of_ne
    intro heq
    rw [heq] at hlow
    exact absurd hlow (by decide)
  have hminor : (st.recordMinor == 0) = false := by rw [h.minor]; rfl
  unfold typeInOrder
  rw [hzero, hminor, decide_eq_false (show ¬type > 11 from Nat.not_lt.2 (Nat.le_trans hhigh (by decide))),
    decide_eq_false (show ¬type < st.previousType from Nat.not_lt.2 hord),
    decide_eq_false (show ¬type < 3 from Nat.not_lt.2 hlow), decide_eq_false (show ¬type > 7 from Nat.not_lt.2 hhigh)]
  simp

end

theorem filters (h : Progress config owner st [] 0 [] [] 0 3)
    (hs : Subscriptions config.maxSubscriptions owner.subscriptions) :
    ∃ st', restoreFields config (owner.subscriptions.map fun s => (3, s.filter)) st = .ok st' ∧
      Progress config owner st' (owner.subscriptions.map Subscription.bare) 0 [] [] 0 3 := by
  refine restoreFields_segment
    (P := fun before _ st => Progress config owner st (before.map Subscription.bare) 0 [] [] 0 3) ?_ h
  intro before s rest st hspl hp
  have hdist := hs.distinct
  have hroom := hs.room
  have hval := hs.valid s (by rw [hspl]; simp)
  rw [hspl] at hdist hroom
  rw [length_append, length_cons] at hroom
  have hlen : st.owner.subscriptions.length = before.length := by rw [hp.subscriptions, length_map]
  have hany : st.owner.subscriptions.any (·.filter == s.filter) = false := by
    rw [hp.subscriptions, any_map, any_eq_false]
    intro s' hs'
    simpa [Subscription.bare] using KeyedList.key_ne_of_nodup hdist hs' mem_cons_self
  have hfil : restoreFilter config st s.filter = .ok { st with owner := { st.owner with
      subscriptions := st.owner.subscriptions ++ [s.bare] } } := by
    unfold restoreFilter
    rw [hp.metadata, hval.filter, hany, hlen, if_neg (by simp; omega)]
    rfl
  refine ⟨_, (restoreField_eq (hp.inOrder (by decide) (by decide))).trans hfil, ?_⟩
  apply passed
  exact { hp with subscriptions := by rw [map_append, ← hp.subscriptions]; rfl }

theorem subscriptionOptions (h : Progress config owner st (owner.subscriptions.map Subscription.bare) 0 [] [] 0 4)
    (hs : Subscriptions config.maxSubscriptions owner.subscriptions) :
    ∃ st', restoreFields config (owner.subscriptions.map fun s => (4, recordOptions s)) st = .ok st' ∧
      Progress config owner st' owner.subscriptions owner.subscriptions.length [] [] 0 4 := by
  have hseg : ∃ st', restoreFields config (owner.subscriptions.map fun s => (4, recordOptions s)) st = .ok st' ∧
      Progress config owner st' (owner.subscriptions ++ [].map Subscription.bare) owner.subscriptions.length [] [] 0 4 := by
    refine restoreFields_segment
      (P := fun before rest st => Progress config owner st (before ++ rest.map Subscription.bare) before.length [] [] 0 4) ?_ h
    intro before s rest st hspl hp
    have hent : st.owner.subscriptions[st.optionIndex]? = some s.bare := by
      rw [hp.subscriptions, hp.options]
      simp
    have hoptions := restoreOptions_record (hs.valid s (by rw [hspl]; simp)) hp.minor hent
    refine ⟨_, (restoreField_eq (hp.inOrder (by decide) (by decide))).trans hoptions, ?_⟩
    apply passed
    refine { hp with subscriptions := ?_, options := ?_ }
    · show st.owner.subscriptions.set st.optionIndex s = _
      rw [hp.subscriptions, hp.options]
      simp
    · show st.optionIndex + 1 = _
      rw [hp.options]
      simp
  simpa using hseg

theorem releasedIds (h : Progress config owner st subscriptions options [] [] 0 5) {released : List Inflight}
    (hdist : (released.map (·.packetId)).Nodup)
    (hent : ∀ e ∈ released, e.packetId ≠ 0 ∧ e.qos = 2 ∧ e.state = .qos2Release)
    (hroom : released.length ≤ config.maxInflight) :
    ∃ st', restoreFields config (released.map fun e => (5, recordInflight e)) st = .ok st' ∧
      Progress config owner st' subscriptions options released [] 0 5 := by
  refine restoreFields_segment (P := fun before _ st => Progress config owner st subscriptions options before [] 0 5) ?_ h
  intro before e rest st hspl hp
  rw [hspl] at hdist hroom
  rw [length_append, length_cons] at hroom
  obtain ⟨hid, hqos, hst⟩ := hent e (by rw [hspl]; simp)
  have hfld : restoreInflight config st (recordInflight e) = _ :=
    restoreInflight_record hid hqos hst (by rw [hp.inflight, hp.deliveries, length_nil]; omega) (by
      rw [hp.inflight]
      exact fun e' he' => KeyedList.key_ne_of_nodup hdist he' mem_cons_self)
  refine ⟨_, (restoreField_eq (hp.inOrder (by decide) (by decide))).trans hfld, ?_⟩
  apply passed
  exact { hp with inflight := by rw [← hp.inflight] }

variable {persisted : List Delivery}

/-- The deliveries, when they fit beside the released packet identifiers and have others. -/
theorem storedDeliveries (h : Progress config owner st subscriptions options inflight [] 0 6)
    (hdist : (persisted.map (·.packetId)).Nodup) (hstand : ∀ d ∈ persisted, d.persisted = true ∧ d.Stands owner.version)
    (hroom : inflight.length + persisted.length ≤ config.maxInflight)
    (hclash : ∀ d ∈ persisted, ∀ e ∈ inflight, e.packetId ≠ d.packetId) :
    ∃ st', restoreFields config (persisted.map fun d => (6, recordDelivery d)) st = .ok st' ∧
      Progress config owner st' subscriptions options inflight (persisted.map bare) 0 6 := by
  refine restoreFields_segment
    (P := fun before _ st => Progress config owner st subscriptions options inflight (before.map bare) 0 6) ?_ h
  intro before d rest st hspl hp
  have hmem : d ∈ persisted := by rw [hspl]; simp
  obtain ⟨hpers, hd⟩ := hstand d hmem
  rw [hspl] at hdist hroom
  rw [length_append, length_cons] at hroom
  have hsp : st.owner.inflight.length + st.owner.deliveries.entries.length < config.maxInflight := by
    rw [hp.inflight, hp.deliveries, length_map]
    omega
  have hfr : ∀ d' ∈ st.owner.deliveries.entries, d'.packetId ≠ d.packetId := by
    rw [hp.deliveries]
    intro d' hd'
    obtain ⟨d'', hd'', rfl⟩ := List.mem_map.1 hd'
    show d''.packetId ≠ d.packetId
    exact KeyedList.key_ne_of_nodup hdist hd'' mem_cons_self
  obtain ⟨deliveries, hfld, hents⟩ := restoreDelivery_record hd.packetId hd.qos hpers hp.minor hsp hfr
    (by rw [hp.inflight]; exact hclash d hmem)
  refine ⟨_, (restoreField_eq (hp.inOrder (by decide) (by decide))).trans hfld, ?_⟩
  apply passed
  exact { hp with deliveries := by rw [map_append, ← hp.deliveries]; exact hents }

theorem deliveryPackets (h : Progress config owner st subscriptions options inflight (persisted.map bare) 0 7)
    (hpkt : ∀ d ∈ persisted, ∃ bytes, d.packet = some bytes ∧ bytes ≠ []) :
    ∃ st', restoreFields config (persisted.map fun d => (7, d.packet.getD [])) st = .ok st' ∧
      Progress config owner st' subscriptions options inflight (persisted.map stored) persisted.length 7 := by
  have hseg : ∃ st', restoreFields config (persisted.map fun d => (7, d.packet.getD [])) st = .ok st' ∧
      Progress config owner st' subscriptions options inflight (persisted.map stored ++ [].map bare)
        persisted.length 7 := by
    refine restoreFields_segment
      (P := fun before rest st => Progress config owner st subscriptions options inflight
        (before.map stored ++ rest.map bare) before.length 7) ?_ h
    intro before d rest st hspl hp
    obtain ⟨bytes, hbs, hne⟩ := hpkt d (by rw [hspl]; simp)
    have hent : st.owner.deliveries.entries[st.packetIndex]? = some d.bare := by
      rw [hp.deliveries, hp.packets]
      simp
    have hsto : { d.bare with packet := some bytes } = d.stored := by
      unfold bare stored
      rw [hbs]
    obtain ⟨deliveries, hfld, hents⟩ := restorePacket_record hent hne
    rw [hbs]
    refine ⟨_, (restoreField_eq (hp.inOrder (by decide) (by decide))).trans hfld, ?_⟩
    apply passed
    refine { hp with deliveries := ?_, packets := ?_ }
    · show deliveries.entries = _
      rw [hents, hp.deliveries, hp.packets, hsto]
      simp
    · show st.packetIndex + 1 = _
      rw [hp.packets]
      simp
  simpa using hseg

/-- Deliveries that were read had room beside the released packet identifiers and others than they. -/
theorem deliveries_fit {st' : RestoreState} (hminor : st.recordMinor = 3)
    (hroom : st.owner.inflight.length + st.owner.deliveries.entries.length ≤ config.maxInflight)
    (h : restoreFields config (persisted.map fun d => (6, recordDelivery d)) st = .ok st') :
    st.owner.inflight.length + st.owner.deliveries.entries.length + persisted.length ≤ config.maxInflight ∧
      ∀ d ∈ persisted, ∀ e ∈ st.owner.inflight, e.packetId ≠ d.packetId := by
  induction persisted generalizing st with
  | nil => exact ⟨hroom, fun d hd => absurd hd not_mem_nil⟩
  | cons d rest ih =>
    obtain ⟨st1, hfld, h⟩ := restoreFields_cons_ok h
    obtain ⟨hsp, hclash, hminor1, hinfl, hlen, -⟩ := restoreDelivery_fits hminor hfld
    obtain ⟨hfit, hoths⟩ := @ih (st1.passed 6 (wireSize (recordDelivery d).length)) (hminor1.trans hminor)
      (by
        show st1.owner.inflight.length + st1.owner.deliveries.entries.length ≤ config.maxInflight
        rw [hinfl, hlen]
        omega) h
    have hfit : st1.owner.inflight.length + st1.owner.deliveries.entries.length + rest.length ≤
        config.maxInflight := hfit
    rw [hinfl, hlen] at hfit
    refine ⟨by rw [length_cons]; omega, ?_⟩
    intro d' hd' e he
    rcases List.mem_cons.1 hd' with rfl | hrest
    · exact hclash e he
    · exact hoths d' hrest e (show e ∈ st1.owner.inflight by rw [hinfl]; exact he)

variable (h : Progress config owner st subscriptions options inflight deliveries packets 7)
include h

omit [Vstr] [Ltv] in
theorem inOrder_will : typeInOrder st 8 = true := by
  have hord : st.previousType.toNat ≤ 7 := h.order
  have hne : (8 == st.previousType) = false := by
    apply beq_false_of_ne
    intro heq
    rw [← heq] at hord
    exact absurd hord (by decide)
  have hminor : (st.recordMinor == 0) = false := by rw [h.minor]; rfl
  unfold typeInOrder
  rw [hne, hminor, decide_eq_false (show ¬(8 : UInt8) < st.previousType from Nat.not_lt.2 (Nat.le_trans hord (by decide)))]
  rfl

theorem lastWill {will : Will} (hwill : will.Valid) {active : Bool} :
    ∃ offset, restoreFields config
        [(8, recordWill active will), (9, will.topic), (10, will.properties), (11, will.payload)] st =
      .ok { st with
        owner := { st.owner with will := some (will.stored active) }
        previousType := 11
        offset := offset
        willMetadataSeen := true
        willTopicSeen := true
        willPropertiesSeen := true
        willPayloadSeen := true } := by
  have hdelay : readAt (recordWill active will) 3 4 = will.delayInterval.toNat :=
    readAt_of_split [(will.pending || active).toUInt8, will.qos, will.retain.toUInt8] [] (by simp [recordWill]) rfl
      (UInt32.toNat_lt _)
  have hlen : (recordWill active will).length = 7 := by simp [recordWill]
  have hpend : byteAt (recordWill active will) 0 = (will.pending || active).toUInt8 := rfl
  have hqos : byteAt (recordWill active will) 1 = will.qos := rfl
  have hret : byteAt (recordWill active will) 2 = will.retain.toUInt8 := rfl
  have hqos2 : ¬will.qos > 2 := UInt8.not_lt.2 hwill.qos
  have hmeta : restoreField config st 8 (recordWill active will) = .ok { st with
      owner := { st.owner with
        will := some ⟨[], [], [], will.delayInterval, will.pending || active, will.qos, will.retain⟩ }
      willMetadataSeen := true } := by
    rw [restoreField_eq h.inOrder_will]
    show restoreWillMetadata st (recordWill active will) = _
    unfold restoreWillMetadata
    rw [hdelay, hlen, hpend, hqos, hret, h.metadata, h.willMetadataSeen,
      if_neg (by simp [hqos2, toUInt8_le_one]), UInt32.ofNat_toNat, toUInt8_beq_one, toUInt8_beq_one]
  refine ⟨st.offset + wireSize (recordWill active will).length + wireSize will.topic.length +
    wireSize will.properties.length + wireSize will.payload.length, ?_⟩
  rw [restoreFields, hmeta]
  simp [restoreFields, restoreField, typeInOrder, restoreMessage, restoreWillTopic, restoreWillProperties,
    restoreWillPayload, RestoreState.passed, Will.stored, h.minor, hwill.topic, h.willTopicSeen, h.willPropertiesSeen,
    h.willPayloadSeen]

end Progress

end Segments

section Encode

variable [Vstr] [Ltv] {owner : Owner}

section

omit [Ltv]

theorem topicFilterValidate_length {filter : Bytes} (h : topicFilterValidate filter = true) : filter.length ≤ 65535 := by
  unfold topicFilterValidate at h
  simp only [Bool.and_eq_true, decide_eq_true_eq] at h
  exact h.1.1.2

theorem topicNameValidate_length {topic : Bytes} (h : topicNameValidate topic = true) : topic.length ≤ 65535 := by
  unfold topicNameValidate at h
  simp only [Bool.and_eq_true, decide_eq_true_eq] at h
  exact h.1.1.2

variable {version : Version} {delivery : Delivery}

/-- A persisted delivery has its packet. -/
theorem Delivery.Stands.sound (h : delivery.Stands version)
    (hpers : delivery.persisted = true) : delivery.Sound version :=
  h.packet (by simpa [persisted] using hpers)

theorem Delivery.Stands.bytes (h : delivery.Stands version) (hpers : delivery.persisted = true) :
    ∃ bytes, delivery.packet = some bytes ∧ bytes ≠ [] ∧ bytes.length ≤ maxWirePacketSize :=
  (h.sound hpers).bytes

/-- The sizes that are added up are those of the messages. -/
theorem Durable.recordSizes_eq (h : Durable owner) :
    recordSizes owner = (recordFields owner).map fun field => .ok field.2.length := by
  have hpkt : (owner.deliveries.entries.filter (·.persisted)).map
        (fun delivery => if delivery.packet.isNone then Except.error Errno.eproto else .ok 12) =
      (owner.deliveries.entries.filter (·.persisted)).map fun delivery => .ok (recordDelivery delivery).length := by
    apply map_congr_left
    intro delivery hmem
    obtain ⟨hent, hpers⟩ := List.mem_filter.1 hmem
    obtain ⟨bytes, hbs, -⟩ := (h.deliveries delivery hent).bytes hpers
    rw [hbs, (readAt_recordDelivery delivery).2.2]
    rfl
  have hoptions : ∀ s, (recordOptions s).length = 8 := fun s => by simp [recordOptions]
  have hinfl : ∀ e, (recordInflight e).length = 3 := fun e => by simp [recordInflight]
  have hwill : (owner.will.elim [] fun will =>
        [(willCheck will).map fun _ => 7, .ok will.topic.length, .ok will.properties.length, .ok will.payload.length]) =
      (owner.will.elim [] fun will =>
        [((8 : UInt8), recordWill owner.active will), (9, will.topic), (10, will.properties), (11, will.payload)]).map
          fun field => Except.ok field.2.length := by
    cases hw : owner.will with
    | none => rfl
    | some will =>
      have hval := h.will will hw
      have hchk : willCheck will = .ok () := by
        unfold willCheck
        rw [if_neg]
        simp [hval.topic, UInt8.not_lt.2 hval.qos]
      simp [hchk, Except.map, recordWill]
  unfold recordSizes recordFields
  rw [hpkt, hwill]
  simp [hoptions, hinfl, length_recordMetadata, recordHeader, Function.comp_def]
  rfl

end

theorem Durable.writable [LawfulLtv] (h : Durable owner) : Writable (recordFields owner) := by
  have hfits : ∀ value : Bytes, value.length ≤ maxWirePacketSize → wireSize value.length ≠ 0 :=
    fun value => LawfulLtv.wireSize_ne_zero value.length
  have hsmall : ∀ value : Bytes, value.length ≤ 65535 → wireSize value.length ≠ 0 :=
    fun value hle => hfits value (Nat.le_trans hle (by decide))
  unfold recordFields
  intro field hmem
  simp only [mem_append, or_assoc] at hmem
  rcases hmem with hhead | hfil | hoptions | hinfl | hdel | hpkt | hwill
  · simp only [mem_cons, not_mem_nil, or_false] at hhead
    rcases hhead with rfl | rfl
    · exact ⟨by simp, hsmall _ (by decide)⟩
    · exact ⟨by simp, hsmall _ (by rw [length_recordMetadata]; decide)⟩
  · obtain ⟨s, hs, rfl⟩ := List.mem_map.1 hfil
    exact ⟨by simp, hsmall _ (topicFilterValidate_length (h.subscriptions.valid s hs).filter)⟩
  · obtain ⟨s, -, rfl⟩ := List.mem_map.1 hoptions
    exact ⟨by simp, hsmall _ (by simp [recordOptions])⟩
  · obtain ⟨e, -, rfl⟩ := List.mem_map.1 hinfl
    exact ⟨by simp, hsmall _ (by simp [recordInflight])⟩
  · obtain ⟨d, -, rfl⟩ := List.mem_map.1 hdel
    exact ⟨by simp, hsmall _ (by simp [recordDelivery])⟩
  · obtain ⟨d, hd, rfl⟩ := List.mem_map.1 hpkt
    obtain ⟨hent, hpers⟩ := List.mem_filter.1 hd
    obtain ⟨bytes, hbs, -, hle⟩ := (h.deliveries d hent).bytes hpers
    rw [hbs]
    exact ⟨by simp, hfits bytes hle⟩
  · cases hw : owner.will with
    | none =>
      rw [hw] at hwill
      cases hwill
    | some will =>
      have hval := h.will will hw
      rw [hw] at hwill
      simp only [Option.elim_some, mem_cons, not_mem_nil, or_false] at hwill
      rcases hwill with rfl | rfl | rfl | rfl
      · exact ⟨by simp, hsmall _ (by simp [recordWill])⟩
      · exact ⟨by simp, hsmall _ (topicNameValidate_length hval.topic)⟩
      · exact ⟨by simp, hfits _ (Nat.le_trans hval.properties (by decide))⟩
      · exact ⟨by simp, hsmall _ hval.payload⟩

/-- A buffer that holds the messages is enough to write the record. -/
theorem Durable.recordEncode_eq_ok [LawfulLtv] (h : Durable owner) (hinit : owner.initialized = true) {capacity : Nat}
    (henough : wireTotal (recordFields owner) ≤ capacity) (hmax : capacity ≤ sizeMax) :
    ∃ bytes, recordEncode owner capacity = .ok bytes ∧ Written (recordFields owner) bytes ∧
      bytes.length = wireTotal (recordFields owner) := by
  obtain ⟨clientId, hcli, -⟩ := h.client hinit
  have hgen := (h.session hinit).2
  have hsizes : recordSizeLoop (recordSizes owner) 0 = .ok (wireTotal (recordFields owner)) := by
    rw [h.recordSizes_eq, recordSizeLoop_eq_ok h.writable (by omega), Nat.zero_add]
  have hnil : ([] : Bytes).length + wireTotal (recordFields owner) ≤ capacity := by
    rw [length_nil]
    omega
  obtain ⟨bytes, hloop, hwr, hlen⟩ := recordAppendLoop_eq_ok h.writable hnil
  refine ⟨bytes, ?_, hwr, hlen⟩
  unfold recordEncode
  rw [if_neg (by simp [hinit, hcli, hgen, h.generation]), hsizes]
  dsimp only
  rw [if_neg (Nat.not_lt.2 henough), hloop]
  dsimp only
  rw [nil_append, if_pos hlen]

end Encode

def Owner.released (owner : Owner) : List Inflight := owner.inflight.filter (·.released)

def Owner.persisted (owner : Owner) : List Delivery := owner.deliveries.entries.filter (·.persisted)

/-- The restored owner has the durable fields of the original: every released packet identifier, every
    delivery that has a packet, a queued one as if it had been sent, and a Will that is pending once the
    connection is gone. -/
structure SameDurable (restored owner : Owner) : Prop where
  clientId : restored.clientId = owner.clientId
  version : restored.version = owner.version
  sessionId : restored.config.sessionId = owner.config.sessionId
  sessionGeneration : restored.sessionGeneration = owner.sessionGeneration
  resourceGeneration : restored.resourceGeneration = owner.resourceGeneration
  keepAlive : restored.keepAlive = owner.keepAlive
  expiry : restored.sessionExpiryInterval = owner.sessionExpiryInterval
  nextDeliveryPacketId : restored.nextDeliveryPacketId = owner.nextDeliveryPacketId
  subscriptions : restored.subscriptions = owner.subscriptions
  inflight : restored.inflight = owner.released
  deliveries : restored.deliveries.entries = owner.persisted.map stored
  will : restored.will = owner.will.map (·.stored owner.active)

/-- The deliveries and the released packet identifiers of an owner have no packet identifier in common and
    fit the limit together, and its generation is a revision of the store. -/
structure Restorable (owner : Owner) : Prop where
  disjoint : ∀ d ∈ owner.persisted, ∀ e ∈ owner.released, e.packetId ≠ d.packetId
  room : owner.released.length + owner.persisted.length ≤ owner.config.maxInflight
  revision : owner.resourceGeneration ≤ int64Max

section RoundTrip

variable [Vstr] [Ltv] {config : SessionConfig} {owner : Owner}

/-- The record of the owner is written into a buffer of the capacity and restored to its durable fields. -/
def RoundTrips (config : SessionConfig) (capacity : Nat) (owner : Owner) : Prop :=
  ∃ clientId bytes restored, owner.clientId = some clientId ∧ recordEncode owner capacity = .ok bytes ∧
    recordRestore config clientId owner.resourceGeneration bytes = .ok restored ∧ SameDurable restored owner

def restoreStart (created : Owner) (clientId : Bytes) : RestoreState :=
  ⟨{ created with clientId := some clientId }, 0, 0, 0, 0, 0, false, false, false, false, false, false⟩

variable {clientId : Bytes} {created : Owner}

theorem progress_start (hcr : ownerCreate config = some created) (hcli : owner.clientId = some clientId)
    (hver : owner.version.supported = true) (hid : owner.config.sessionId ≠ 0) (hgen : owner.sessionGeneration ≠ 0) :
    ∃ st, restoreFields config [(1, recordHeader), (2, recordMetadata owner)] (restoreStart created clientId) = .ok st ∧
      Progress config owner st [] 0 [] [] 0 3 := by
  have hhdr : restoreField config (restoreStart created clientId) 1 recordHeader =
      .ok { restoreStart created clientId with recordMinor := 3, headerSeen := true } := rfl
  obtain ⟨st, hst⟩ : ∃ st, st = RestoreState.passed
      { restoreStart created clientId with recordMinor := 3, headerSeen := true } 1 (wireSize recordHeader.length) :=
    ⟨_, rfl⟩
  have hmeta : restoreMetadata st (recordMetadata owner) = _ :=
    restoreMetadata_record (by rw [hst]; rfl) (by rw [hst]; rfl) hver hid hgen
  have hord : typeInOrder st 2 = true := by
    rw [hst]
    rfl
  obtain ⟨st', hst'⟩ : ∃ st', restoreMetadata st (recordMetadata owner) = .ok st' := ⟨_, hmeta⟩
  have hst'_eq := Except.ok.inj (hst'.symm.trans hmeta)
  refine ⟨st'.passed 2 (wireSize (recordMetadata owner).length), ?_, ?_⟩
  · rw [restoreFields, hhdr]
    dsimp only
    have hmessage : restoreMessage config st 2 (recordMetadata owner) = .ok st' := hst'
    rw [← hst, restoreFields, restoreField_eq hord, hmessage]
    rfl
  · unfold ownerCreate at hcr
    split at hcr
    · cases hcr
      rw [hst'_eq, hst]
      exact ⟨rfl, rfl, rfl, show (2 : UInt8) ≤ 3 by decide, hcli.symm, rfl, rfl, rfl, rfl, rfl, rfl, rfl, rfl, rfl, rfl,
        rfl, rfl, rfl, rfl, rfl, rfl⟩
    · cases hcr

variable {a b : List (UInt8 × Bytes)} {st st'' : RestoreState}

theorem restoreFields_trans {st' : RestoreState}
    (ha : restoreFields config a st = .ok st') (hb : restoreFields config b st' = .ok st'') :
    restoreFields config (a ++ b) st = .ok st'' := by
  rw [restoreFields_append, ha]
  exact hb

theorem restoreFields_append_eq_ok (h : restoreFields config (a ++ b) st = .ok st'') :
    ∃ st', restoreFields config a st = .ok st' ∧ restoreFields config b st' = .ok st'' := by
  rw [restoreFields_append] at h
  cases ha : restoreFields config a st with
  | error e =>
    rw [ha] at h
    cases h
  | ok st' =>
    rw [ha] at h
    exact ⟨st', rfl, h⟩

def recordPrefix (owner : Owner) : List (UInt8 × Bytes) :=
  [(1, recordHeader), (2, recordMetadata owner)] ++ owner.subscriptions.map (fun s => (3, s.filter)) ++
    owner.subscriptions.map (fun s => (4, recordOptions s)) ++ owner.released.map (fun e => (5, recordInflight e))

omit [Vstr] [Ltv] in
theorem recordFields_eq :
    recordFields owner = recordPrefix owner ++ owner.persisted.map (fun d => (6, recordDelivery d)) ++
      owner.persisted.map (fun d => (7, d.packet.getD [])) ++
      owner.will.elim [] fun will =>
        [(8, recordWill owner.active will), (9, will.topic), (10, will.properties), (11, will.payload)] := rfl

/-- What comes before the deliveries is always restored. -/
theorem progress_prefix (hi : Inbound owner) (hd : Durable owner) (hinit : owner.initialized = true)
    (hcr : ownerCreate config = some created) (hcli : owner.clientId = some clientId)
    (hsubs : config.maxSubscriptions = owner.config.maxSubscriptions)
    (hinfl : config.maxInflight = owner.config.maxInflight) :
    ∃ st, restoreFields config (recordPrefix owner) (restoreStart created clientId) = .ok st ∧
      Progress config owner st owner.subscriptions owner.subscriptions.length owner.released [] 0 5 := by
  obtain ⟨hver, hgen⟩ := hd.session hinit
  have hid : owner.config.sessionId ≠ 0 := by
    have hcfg := hi.config
    simp only [configValid, Bool.and_eq_true, bne_iff_ne] at hcfg
    exact hcfg.1.1.1.1.1.1.1.2
  have hs : Subscriptions config.maxSubscriptions owner.subscriptions := hsubs ▸ hd.subscriptions
  have hsub : owner.released.Sublist owner.inflight := filter_sublist
  have hrel : ∀ e ∈ owner.released, e.packetId ≠ 0 ∧ e.qos = 2 ∧ e.state = .qos2Release := by
    intro e he
    obtain ⟨hmem, hst⟩ := List.mem_filter.1 he
    have hst : e.state = .qos2Release := by simpa [Inflight.released] using hst
    obtain ⟨hid, -, hqos⟩ := hi.entry e hmem
    exact ⟨hid, hqos hst, hst⟩
  obtain ⟨st2, h2, hp2⟩ := progress_start hcr hcli hver hid hgen
  obtain ⟨st3, h3, hp3⟩ := hp2.filters hs
  obtain ⟨st4, h4, hp4⟩ := (hp3.later (by decide)).subscriptionOptions hs
  obtain ⟨st5, h5, hp5⟩ := (hp4.later (by decide)).releasedIds ((hsub.map _).nodup hi.distinct) hrel
    (Nat.le_trans hsub.length_le (hinfl ▸ hi.room))
  exact ⟨st5, restoreFields_trans (restoreFields_trans (restoreFields_trans h2 h3) h4) h5, hp5⟩

variable {restored : Owner} {bytes : Bytes}

/-- A restore that succeeds passed its checks and read every message. -/
theorem recordRestore_eq_ok {revision : UInt64} (h : recordRestore config clientId revision bytes = .ok restored) :
    revision ≤ int64Max ∧ ∃ created st, ownerCreate config = some created ∧
      restoreLoop config bytes.length bytes (restoreStart created clientId) = .ok st ∧
      restored = { st.owner with resourceGeneration := revision, initialized := true, active := false, cleanStart := false } := by
  unfold recordRestore at h
  split_ifs at h with hchecks
  simp only [Bool.or_eq_true, decide_eq_true_eq, not_or] at hchecks
  refine ⟨UInt64.not_lt.1 hchecks.2, ?_⟩
  split at h
  · cases h
  rename_i created hcr
  dsimp only at h
  split at h
  · cases h
  rename_i st hloop
  split_ifs at h
  split at h
  · cases h
  · cases h
    exact ⟨created, st, hcr, hloop, rfl⟩

/-- A record that is restored comes from a restorable owner. -/
theorem restorable_of_restore [LawfulLtv] (hi : Inbound owner) (hd : Durable owner)
    (hinit : owner.initialized = true) (hcli : owner.clientId = some clientId)
    (hsubs : config.maxSubscriptions = owner.config.maxSubscriptions)
    (hinfl : config.maxInflight = owner.config.maxInflight) (hwr : Written (recordFields owner) bytes)
    (h : recordRestore config clientId owner.resourceGeneration bytes = .ok restored) : Restorable owner := by
  obtain ⟨hrev, created, st, hcr, hloop, -⟩ := recordRestore_eq_ok h
  obtain ⟨st5, h5, hp5⟩ := progress_prefix hi hd hinit hcr hcli hsubs hinfl
  rw [restoreLoop_written hwr hd.writable (Nat.le_refl _), recordFields_eq] at hloop
  obtain ⟨st7, h7, -⟩ := restoreFields_append_eq_ok hloop
  obtain ⟨st6, h6, -⟩ := restoreFields_append_eq_ok h7
  obtain ⟨st5', h5', hdels⟩ := restoreFields_append_eq_ok h6
  obtain rfl : st5 = st5' := Except.ok.inj (h5.symm.trans h5')
  have hroom : st5.owner.inflight.length + st5.owner.deliveries.entries.length ≤ config.maxInflight := by
    rw [hp5.inflight, hp5.deliveries, hinfl]
    exact Nat.le_trans (length_filter_le _ _) hi.room
  obtain ⟨hfit, hdisjoint⟩ := Progress.deliveries_fit hp5.minor hroom hdels
  rw [hp5.inflight] at hdisjoint
  rw [hp5.inflight, hp5.deliveries, length_nil, Nat.add_zero, hinfl] at hfit
  exact ⟨hdisjoint, hfit, hrev⟩

omit [Ltv] in
theorem deliveriesValidate_stored {version : Version} {deliveries : List Delivery}
    (h : ∀ d ∈ deliveries, d.Sound version) : deliveriesValidate version (deliveries.map stored) = .ok () := by
  induction deliveries with
  | nil => rfl
  | cons d rest ih =>
    rw [List.map_cons, deliveriesValidate, recordDeliveryValidate_eq_ok.2 (h d List.mem_cons_self).stored]
    exact ih fun d' hd' => h d' (List.mem_cons_of_mem _ hd')

theorem restore_of_restorable [LawfulLtv] (hi : Inbound owner) (hd : Durable owner)
    (hinit : owner.initialized = true) (hcli : owner.clientId = some clientId) (hcfg : configValid config = true)
    (hsubs : config.maxSubscriptions = owner.config.maxSubscriptions)
    (hinfl : config.maxInflight = owner.config.maxInflight) (hwr : Written (recordFields owner) bytes)
    (hnonempty : bytes ≠ []) (hr : Restorable owner) :
    ∃ restored, recordRestore config clientId owner.resourceGeneration bytes = .ok restored ∧
      SameDurable restored owner := by
  obtain ⟨clientId', hcli', hne, hlen, hutf8⟩ := hd.client hinit
  obtain rfl : clientId = clientId' := Option.mem_unique hcli hcli'
  obtain ⟨created, hcr⟩ : ∃ created, ownerCreate config = some created := by
    unfold ownerCreate
    rw [if_pos hcfg]
    exact ⟨_, rfl⟩
  obtain ⟨st5, h5, hp5⟩ := progress_prefix hi hd hinit hcr hcli hsubs hinfl
  have hstand : ∀ d ∈ owner.persisted, d.persisted = true ∧ d.Stands owner.version := by
    intro d hmem
    obtain ⟨hent, hpers⟩ := List.mem_filter.1 hmem
    exact ⟨hpers, hd.deliveries d hent⟩
  have hdist : (owner.persisted.map (·.packetId)).Nodup :=
    (List.filter_sublist.map _).nodup owner.deliveries.keys_nodup
  obtain ⟨st6, h6, hp6⟩ := (hp5.later (by decide)).storedDeliveries hdist hstand (hinfl ▸ hr.room) hr.disjoint
  obtain ⟨st7, h7, hp7⟩ := (hp6.later (by decide)).deliveryPackets fun d hmem => by
    obtain ⟨bytes, hbs, hne, -⟩ := (hstand d hmem).2.bytes (hstand d hmem).1
    exact ⟨bytes, hbs, hne⟩
  obtain ⟨st8, h8, hown, hcpl⟩ : ∃ st8, restoreFields config (owner.will.elim [] fun will =>
        [(8, recordWill owner.active will), (9, will.topic), (10, will.properties), (11, will.payload)]) st7 = .ok st8 ∧
      st8.owner = { st7.owner with will := owner.will.map (·.stored owner.active) } ∧ restoreComplete st8 = true := by
    cases hw : owner.will with
    | none =>
      refine ⟨st7, rfl, ?_, ?_⟩
      · rw [Option.map_none, ← hp7.will]
      · simp [restoreComplete, hp7.header, hp7.metadata, hp7.options, hp7.subscriptions, hp7.packets, hp7.deliveries,
          hp7.willMetadataSeen]
    | some will =>
      obtain ⟨offset, h8⟩ := hp7.lastWill (hd.will will hw)
      refine ⟨_, h8, rfl, ?_⟩
      simp [restoreComplete, hp7.header, hp7.metadata, hp7.options, hp7.subscriptions, hp7.packets, hp7.deliveries,
        hp7.minor]
  have hloop : restoreLoop config bytes.length bytes (restoreStart created clientId) = .ok st8 := by
    rw [restoreLoop_written hwr hd.writable (Nat.le_refl _), recordFields_eq]
    exact restoreFields_trans (restoreFields_trans (restoreFields_trans h5 h6) h7) h8
  have hvalidate : deliveriesValidate st8.owner.version st8.owner.deliveries.entries = .ok () := by
    rw [hown]
    rw [hp7.version, hp7.deliveries]
    exact deliveriesValidate_stored fun d hmem => (hstand d hmem).2.sound (hstand d hmem).1
  obtain ⟨restored, hrestored⟩ : ∃ restored, restored = { st8.owner with
      resourceGeneration := owner.resourceGeneration
      initialized := true
      active := false
      cleanStart := false } := ⟨_, rfl⟩
  refine ⟨restored, ?_, ?_⟩
  · unfold recordRestore
    rw [if_neg (by simp [hcfg, hnonempty, hne, hlen, hutf8, hd.generation, UInt64.not_lt.2 hr.revision]), hcr]
    unfold restoreStart at hloop
    dsimp only
    rw [hloop]
    dsimp only
    rw [hcpl, hvalidate, hrestored]
    rfl
  · have hsessionId : st7.owner.config.sessionId = owner.config.sessionId := by rw [hp7.config]
    rw [hrestored, hown]
    exact ⟨hp7.clientId, hp7.version, hsessionId, hp7.sessionGeneration, rfl,
      hp7.keepAlive, hp7.expiry, hp7.nextDeliveryPacketId, hp7.subscriptions, hp7.inflight, hp7.deliveries, rfl⟩

/-- The record of a reachable session with room for its messages is written, and it is restored exactly when
    the owner is restorable. -/
theorem record_round_trips_iff [LawfulLtv] {created : SessionConfig} {start : Owner} {ops : List Op} {capacity : Nat}
    (hcr : ownerCreate created = some start) (hops : Along (fun o op => op.WellFormed o) start ops)
    (hinit : (run start ops).initialized = true) (hcfg : configValid config = true)
    (hsubs : config.maxSubscriptions = (run start ops).config.maxSubscriptions)
    (hinfl : config.maxInflight = (run start ops).config.maxInflight)
    (henough : wireTotal (recordFields (run start ops)) ≤ capacity) (hmax : capacity ≤ sizeMax) :
    (∃ bytes, recordEncode (run start ops) capacity = .ok bytes) ∧
      (RoundTrips config capacity (run start ops) ↔ Restorable (run start ops)) := by
  have hi : Inbound (run start ops) := (Inbound.create hcr).run
  have hd : Durable (run start ops) := (Durable.create hcr).run hops
  obtain ⟨bytes, henc, hwr, hlen⟩ := hd.recordEncode_eq_ok hinit henough hmax
  refine ⟨⟨bytes, henc⟩, ?_, ?_⟩
  · intro ⟨clientId, bytes', restored, hcli, henc', hrest, _⟩
    obtain rfl : bytes = bytes' := Except.ok.inj (henc.symm.trans henc')
    exact restorable_of_restore hi hd hinit hcli hsubs hinfl hwr hrest
  · intro hr
    obtain ⟨clientId, hcli, -⟩ := hd.client hinit
    obtain ⟨restored, hrest, hsame⟩ :=
      restore_of_restorable hi hd hinit hcli hcfg hsubs hinfl hwr (hwr.ne_nil hd.writable) hr
    exact ⟨clientId, bytes, restored, hcli, henc, hrest, hsame⟩

end RoundTrip

section Example

attribute [local instance] asciiVstr

/-- Messages of a length of four bytes, the type and the value. -/
@[reducible] def plainLtv : Ltv where
  wireSize size := if size < 2 ^ 32 - 1 then size + 5 else 0
  build type value capacity :=
    if value.length < 2 ^ 32 - 1 ∧ value.length + 5 ≤ capacity then BigEndian.write 4 (value.length + 1) ++ type :: value
    else []
  peekSize data := if data.length < 4 then none else some (BigEndian.read (data.take 4), 4)
  parse data :=
    match data.drop 4 with
    | type :: value => if BigEndian.read (data.take 4) = value.length + 1 then some (type, value) else none
    | [] => none

attribute [local instance] plainLtv

theorem plainLtv_build {value : Bytes} {capacity : Nat} {type : UInt8} (hne : wireSize value.length ≠ 0)
    (hroom : wireSize value.length ≤ capacity) :
    value.length < 2 ^ 32 - 1 ∧ wireSize value.length = value.length + 5 ∧
      build type value capacity = write 4 (value.length + 1) ++ type :: value := by
  have hsize : wireSize value.length = if value.length < 2 ^ 32 - 1 then value.length + 5 else 0 := rfl
  have hlt : value.length < 2 ^ 32 - 1 := by
    by_contra hge
    rw [hsize, if_neg hge] at hne
    exact hne rfl
  rw [hsize, if_pos hlt] at hroom
  exact ⟨hlt, by rw [hsize, if_pos hlt], if_pos ⟨hlt, hroom⟩⟩

theorem plainLtv_lawful : LawfulLtv where
  wireSize_ne_zero := by
    intro size hsize
    have hmax : maxWirePacketSize < 2 ^ 32 - 1 := by decide
    show (if size < 2 ^ 32 - 1 then size + 5 else 0) ≠ 0
    rw [if_pos (by omega)]
    omega
  length_build := by
    intro type value capacity _ hne hroom
    obtain ⟨-, hsize, hbuild⟩ := plainLtv_build hne hroom
    rw [hsize, hbuild, length_append, length_write, length_cons]
    omega
  peekSize_build := by
    intro type value capacity rest _ hne hroom
    obtain ⟨hlt, hsize, hbuild⟩ := plainLtv_build hne hroom
    refine ⟨value.length + 1, 4, by omega, by omega, ?_⟩
    have hpeek : ∀ data, peekSize data =
        if data.length < 4 then none else some (read (data.take 4), 4) := fun _ => rfl
    rw [hbuild, hpeek, append_assoc, take_left' length_write, read_write (by omega),
      if_neg (by rw [length_append, length_write]; omega)]
  parse_build := by
    intro type value capacity _ hne hroom
    obtain ⟨hlt, -, hbuild⟩ := plainLtv_build hne hroom
    have hpar : ∀ data, parse data = match data.drop 4 with
        | type :: value => if read (data.take 4) = value.length + 1 then some (type, value) else none
        | [] => none := fun _ => rfl
    rw [hbuild, hpar, drop_left' length_write, take_left' length_write, read_write (by omega)]
    exact if_pos rfl

theorem persistentConnect_parsed : connectParse ⟨.v311, .connect, 0,
    [0, 4, 0x4d, 0x51, 0x54, 0x54, 4, 0, 0, 30, 0, 6, 0x73, 0x65, 0x6e, 0x73, 0x6f, 0x72]⟩ = .ok persistentConnect := by
  decide

/-- The PUBLISH of a delivery as it was encoded. -/
theorem samplePacket_encoded :
    publishPacketEncode ⟨.v311, 1, false, false, 1, text "t", [], []⟩ 16 = .ok (samplePacket 1) := by
  decide

/-- A QoS 2 PUBLISH of a packet identifier is received, and a QoS 1 PUBLISH is sent as packet 1. -/
def exchanged (packetId : UInt16) : List Op :=
  [.connect persistentConnect false, .publishBegin (samplePublish 2 packetId false),
    .publishSettle ⟨true, true, 1, 7, 1⟩ (sampleRequest packetId.toUInt32), .reserve 1, .commit 1 (samplePacket 1) 0 false]

theorem exchanged_wellFormed {packetId : UInt16}
    (h : deliveryLookup (run smallOwner ((exchanged packetId).take 4)) 1 = .ok (⟨1, 1, .reserved, 0, none⟩, 0))
    (hver : (run smallOwner ((exchanged packetId).take 4)).version = .v311) :
    Along (fun o op => op.WellFormed o) smallOwner (exchanged packetId) := by
  refine ⟨⟨_, persistentConnect_parsed⟩, trivial, trivial, trivial, ?_, trivial⟩
  intro delivery index hlook
  obtain ⟨rfl, -⟩ := Prod.mk.inj (Except.ok.inj (h.symm.trans hlook))
  exact ⟨_, _, samplePacket_encoded, hver.symm, rfl, rfl⟩

theorem session_state_kept_exchanged : Durable (run smallOwner (exchanged 5)) ∧ Inbound (run smallOwner (exchanged 5)) :=
  session_state_kept ownerCreate_smallConfig (exchanged_wellFormed rfl rfl)

/-- The PUBLISH that waits for its PUBACK is handed out as a duplicate. -/
theorem handed_out_packets_parse_again : (⟨1, 1, .waitAck, 0, some (0x3a :: (samplePacket 1).tail)⟩ : Delivery).Sound .v311 :=
  handed_out_packets_parse ownerCreate_smallConfig (@exchanged_wellFormed 5 rfl rfl) (rfl : deliveryPendingAtEx _ 0 1 = _)

/-- The session with different packet identifiers is restored from its record. -/
theorem record_round_trips_exchanged : RoundTrips smallConfig 256 (run smallOwner (exchanged 5)) := by
  have := plainLtv_lawful
  refine ((record_round_trips_iff ownerCreate_smallConfig (exchanged_wellFormed rfl rfl) rfl rfl rfl rfl (by decide)
    (by decide)).2).2 ⟨?_, by decide, by decide⟩
  decide

/-- Restoring the record of a session fails when a delivery has the packet identifier of a PUBLISH that was
    received, although nothing relates the two. -/
theorem record_rejects_shared_packet_id :
    Along (fun o op => op.WellFormed o) smallOwner (exchanged 1) ∧ (run smallOwner (exchanged 1)).initialized = true ∧
      ∃ bytes, recordEncode (run smallOwner (exchanged 1)) 256 = .ok bytes ∧
        recordRestore smallConfig (text "sensor") (run smallOwner (exchanged 1)).resourceGeneration bytes =
          .error .eproto :=
  ⟨exchanged_wellFormed rfl rfl, rfl, _, rfl, rfl⟩

end Example

end Flowie.Session
