import Flowie.Mqtt.RoundTrip

/-!
# The packets of a client are read back

CONNECT, PUBLISH, SUBSCRIBE and UNSUBSCRIBE: what an encoder accepts, the parser reads back with the
same fields (`client_packets_round_trip`). The iterators over subscriptions and filters agree with
the writers of their entries, so a list of entries is read back whole.
-/

namespace Flowie.Mqtt

open BigEndian List
open Checks (bind_eq_ok bind_unit_eq_ok ite_error_eq_ok)
open Reader

section

variable [Vstr]

/-- The filters of an UNSUBSCRIBE are the length spans that are topic filters. -/
theorem agrees_topicFilterIteratorNext :
    Agrees topicFilterIteratorNext
      (fun filter => lengthSpanInputValidate filter true = .ok () ∧ topicFilterValidate filter = true) lengthSpanWrite := by
  intro bytes filter rest
  constructor
  · intro h
    unfold topicFilterIteratorNext at h
    split_ifs at h
    split at h
    · cases h
    rename_i hread
    split at h
    · cases h
    rename_i hval
    cases h
    obtain ⟨hspan, hbs⟩ := (agrees_lengthSpan true _ _ _).1 hread
    exact ⟨⟨hspan, by simpa using hval⟩, hbs⟩
  · rintro ⟨⟨hspan, hval⟩, rfl⟩
    unfold topicFilterIteratorNext
    rw [if_neg (by simp [lengthSpanWrite_ne_nil]), (agrees_lengthSpan true).reads hspan]
    dsimp only
    rw [if_neg (by simp [hval])]

variable {entry : SubscriptionView}

omit [Vstr] in
theorem subscriptionOptions_fields (hqos : entry.qos ≤ 2) (hhnd : entry.retainHandling ≤ 2) :
    (UInt8.ofNat (subscriptionOptions entry)).toNat = subscriptionOptions entry ∧ subscriptionOptions entry < 64 ∧
      subscriptionOptions entry % 4 = entry.qos.toNat ∧ subscriptionOptions entry / 4 % 2 = entry.noLocal.toNat ∧
      subscriptionOptions entry / 8 % 2 = entry.retainAsPublished.toNat ∧
      subscriptionOptions entry / 16 % 4 = entry.retainHandling.toNat := by
  have hq : entry.qos.toNat ≤ 2 := hqos
  have hh : entry.retainHandling.toNat ≤ 2 := hhnd
  have hlocal := Bool.toNat_le entry.noLocal
  have hpublished := Bool.toNat_le entry.retainAsPublished
  rw [UInt8.toNat_ofNat']
  unfold subscriptionOptions
  omega

omit [Vstr] in
theorem subscriptionOptions_of_byte {filter : Bytes} {options : UInt8} (hresv : options.toNat / 64 = 0) :
    UInt8.ofNat (subscriptionOptions ⟨filter, UInt8.ofNat (options.toNat % 4), decide (options.toNat / 4 % 2 = 1),
      decide (options.toNat / 8 % 2 = 1), UInt8.ofNat (options.toNat / 16 % 4)⟩) = options := by
  have hlocal : (decide (options.toNat / 4 % 2 = 1)).toNat = options.toNat / 4 % 2 := by
    rcases Nat.mod_two_eq_zero_or_one (options.toNat / 4) with h | h <;> simp [h]
  have hpublished : (decide (options.toNat / 8 % 2 = 1)).toNat = options.toNat / 8 % 2 := by
    rcases Nat.mod_two_eq_zero_or_one (options.toNat / 8) with h | h <;> simp [h]
  rw [← UInt8.toNat_inj, UInt8.toNat_ofNat']
  unfold subscriptionOptions
  rw [hlocal, hpublished, UInt8.toNat_ofNat', UInt8.toNat_ofNat']
  omega

variable {version : Version}

theorem subscriptionCheck_eq_ok :
    subscriptionCheck version entry = .ok () ↔
      lengthSpanInputValidate entry.filter true = .ok () ∧ topicFilterValidate entry.filter = true ∧ entry.qos ≤ 2 ∧
      entry.retainHandling ≤ 2 ∧
      (version.is3x = true → entry.noLocal = false ∧ entry.retainAsPublished = false ∧ entry.retainHandling = 0) ∧
      (entry.noLocal = true → sharePrefix.isPrefixOf entry.filter = false) := by
  unfold subscriptionCheck
  rw [bind_unit_eq_ok, require_eq_ok]
  simp only [Bool.and_eq_true, Bool.not_eq_true', Bool.and_eq_false_imp, Bool.or_eq_false_iff, bne_eq_false_iff_eq,
    decide_eq_true_eq, and_assoc]

/-- The entries of a SUBSCRIBE are what the encoder writes of the subscriptions it accepts. -/
theorem agrees_subscriptionIteratorNext (version : Version) :
    Agrees (subscriptionIteratorNext version) (fun entry => subscriptionCheck version entry = .ok ()) subscriptionWrite := by
  intro bytes entry rest
  dsimp only
  rw [subscriptionCheck_eq_ok]
  constructor
  · intro h
    unfold subscriptionIteratorNext at h
    split_ifs at h
    split at h
    · cases h
    rename_i filter after hread
    obtain ⟨hspan, hbs⟩ := (agrees_lengthSpan true _ _ _).1 hread
    split_ifs at h with hval
    split at h
    · cases h
    rename_i options tail
    dsimp only at h
    split_ifs at h with hoptions
    cases h
    simp only [not_or, not_not] at hoptions
    obtain ⟨hqos, hresv, hhnd, h3x, hshare⟩ := hoptions
    have hbyte := options.toNat_lt
    refine ⟨⟨hspan, by simpa using hval, ?_, ?_, ?_, ?_⟩, ?_⟩
    · rw [UInt8.le_iff_toNat_le, UInt8.toNat_ofNat']
      show _ ≤ 2
      omega
    · rw [UInt8.le_iff_toNat_le, UInt8.toNat_ofNat']
      show _ ≤ 2
      omega
    · -- before MQTT 5 the byte is the QoS alone
      intro hv
      have hsmall : options.toNat / 4 = 0 := by
        by_contra hne
        exact h3x ⟨hv, hne⟩
      refine ⟨by simp [hsmall], decide_eq_false (by omega), ?_⟩
      rw [show options.toNat / 16 % 4 = 0 by omega]
      rfl
    · exact fun hlocal => Bool.eq_false_iff.2 fun hprefix => hshare ⟨hlocal, hprefix⟩
    · rw [hbs, subscriptionWrite, subscriptionOptions_of_byte hresv, append_assoc]
      rfl
  · rintro ⟨⟨hspan, hval, hqos, hhnd, h3x, hshare⟩, rfl⟩
    obtain ⟨hbyte, hresv, hq, hl, hp, hh⟩ := subscriptionOptions_fields hqos hhnd
    have hqle : entry.qos.toNat ≤ 2 := hqos
    have hhle : entry.retainHandling.toNat ≤ 2 := hhnd
    have hbit : ∀ b : Bool, decide (b.toNat = 1) = b := by decide
    unfold subscriptionIteratorNext
    rw [if_neg (by simp [subscriptionWrite]), subscriptionWrite, append_assoc, (agrees_lengthSpan true).reads hspan]
    dsimp only
    rw [if_neg (by simp [hval]), singleton_append]
    dsimp only
    rw [hbyte, hq, hl, hp, hh, hbit, hbit, UInt8.ofNat_toNat, UInt8.ofNat_toNat, if_neg]
    simp only [not_or, not_and]
    refine ⟨by omega, by omega, by omega, ?_, ?_⟩
    · intro hv
      obtain ⟨hlocal, hpublished, hzero⟩ := h3x hv
      rw [not_not]
      unfold subscriptionOptions
      rw [hlocal, hpublished, hzero]
      show (entry.qos.toNat + 0 * 4 + 0 * 8 + 0 * 16) / 4 = 0
      omega
    · intro hlocal
      simp [hshare hlocal]

variable {entries : List SubscriptionView} {filters : List Bytes}

omit [Vstr] in
theorem subscriptionWrite_ne_nil (entry : SubscriptionView) : subscriptionWrite entry ≠ [] := by
  simp [subscriptionWrite]

variable {bytes : Bytes}

theorem subscriptionIteratorNext_needMore : subscriptionIteratorNext version bytes = .error .needMore ↔ bytes = [] := by
  refine ⟨fun h => ?_, fun h => by rw [h]; rfl⟩
  unfold subscriptionIteratorNext at h
  split at h
  · rename_i hnil
    exact List.isEmpty_iff.1 hnil
  split at h
  · cases h
  split at h
  · cases h
  split at h
  · cases h
  · dsimp only at h
    split at h <;> cases h

theorem topicFilterIteratorNext_needMore : topicFilterIteratorNext bytes = .error .needMore ↔ bytes = [] := by
  refine ⟨fun h => ?_, fun h => by rw [h]; rfl⟩
  unfold topicFilterIteratorNext at h
  split at h
  · rename_i hnil
    exact List.isEmpty_iff.1 hnil
  split at h
  · rename_i e hread
    cases h
    unfold lengthSpan at hread
    split at hread
    · dsimp only at hread
      split at hread
      · cases hread
      · split at hread <;> cases hread
    · cases hread
  · split at h <;> cases h

theorem subscriptions_iff :
    subscriptions version bytes = (entries, .needMore) ↔
      (∀ entry ∈ entries, subscriptionCheck version entry = .ok ()) ∧ bytes = entries.flatMap subscriptionWrite :=
  (agrees_subscriptionIteratorNext version).all_iff subscriptionWrite_ne_nil (by decide)
    fun _ => subscriptionIteratorNext_needMore

theorem topicFilters_iff :
    topicFilters bytes = (filters, .needMore) ↔
      (∀ filter ∈ filters, lengthSpanInputValidate filter true = .ok () ∧ topicFilterValidate filter = true) ∧
        bytes = filters.flatMap lengthSpanWrite :=
  agrees_topicFilterIteratorNext.all_iff lengthSpanWrite_ne_nil (by decide) fun _ => topicFilterIteratorNext_needMore

variable {remaining : Nat} {values : Bytes}

omit [Vstr] in
/-- The remaining length of a packet identifier and the properties, when it is not too large. -/
theorem headRemaining_eq_ok :
    headRemaining version values = .ok remaining ↔
      remaining = 2 + (versionedPropertiesWrite version values).length ∧ remaining ≤ maxRemainingLength := by
  unfold headRemaining versionedPropertiesWrite remainingAdd
  by_cases h5 : version = .v5
  · rw [if_pos h5, if_pos h5, ite_error_eq_ok, propertyValuesWrite, length_append, length_vbiWrite, Except.ok.injEq]
    omega
  · rw [if_neg h5, if_neg h5, Except.ok.injEq, length_nil]
    unfold maxRemainingLength
    omega

/-- The packets with a packet identifier, properties and a list: how the items are read, checked and written. -/
structure ListCodec (version : Version) (α : Type) where
  type : PacketType
  allowed : List PropertyId
  list : Bytes → List α × ParseError
  check : Nat → List α → Except ParseError Nat
  write : α → Bytes
  Valid : α → Prop
  header : fixedHeader (UInt8.ofNat (type.toNibble * 16 + 2)) version = some (type, 2)
  write_ne_nil : ∀ item, write item ≠ []
  list_iff : ∀ {bytes items}, list bytes = (items, .needMore) ↔ (∀ item ∈ items, Valid item) ∧ bytes = items.flatMap write
  check_nil : ∀ remaining, check remaining [] = .ok remaining
  check_cons : ∀ remaining item items total, check remaining (item :: items) = .ok total ↔
    Valid item ∧ remaining + (write item).length ≤ maxRemainingLength ∧
      check (remaining + (write item).length) items = .ok total

namespace ListCodec

variable {α β : Type} (codec : ListCodec version α)

def parse (view : UInt16 → Bytes → Bytes → Nat → β) (packet : PacketView) : Except ParseError β :=
  if packet.type ≠ codec.type ∨ !packet.version.supported then .error .invalidArgument
  else
    match packetIdentifier packet.body with
    | .error e => .error e
    | .ok (packetId, rest) =>
      match versionedProperties packet.version codec.allowed userPropertyRepeatable rest with
      | .error e => .error e
      | .ok (values, _, items) =>
        if items.isEmpty then .error .protocolError
        else if (codec.list items).2 ≠ .needMore then .error (codec.list items).2
        else .ok (view packetId values items (codec.list items).1.length)

def encode (packetId : UInt16) (values : Bytes) (items : List α) (capacity : Nat) : Except ParseError Bytes := do
  require version.supported .invalidArgument
  require (packetId != 0 && !items.isEmpty) .protocolError
  let _ ← propertyValuesValidate version values codec.allowed userPropertyRepeatable
  let remaining ← headRemaining version values
  let _ ← codec.check remaining items
  encodePacket codec.type 2 (BigEndian.write 2 packetId.toNat ++ versionedPropertiesWrite version values ++
    items.flatMap codec.write) capacity

variable {codec} {items : List α} {packetId : UInt16} {values : Bytes}

omit [Vstr] in
theorem flatMap_eq_nil : items.flatMap codec.write = [] ↔ items = [] := by
  cases items with
  | nil => simp
  | cons item rest => simp [codec.write_ne_nil]

omit [Vstr] in
/-- The loop of the encoder accepts the valid items that fit the remaining length. -/
theorem check_iff (h : remaining ≤ maxRemainingLength) :
    (∃ total, codec.check remaining items = .ok total) ↔
      (∀ item ∈ items, codec.Valid item) ∧ remaining + (items.flatMap codec.write).length ≤ maxRemainingLength := by
  induction items generalizing remaining with
  | nil => simp [codec.check_nil, h]
  | cons item items ih =>
    simp only [codec.check_cons, forall_mem_cons, flatMap_cons, length_append, ← Nat.add_assoc]
    constructor
    · rintro ⟨total, hitem, hle, hrest⟩
      obtain ⟨hval, hfits⟩ := (ih hle).1 ⟨total, hrest⟩
      exact ⟨⟨hitem, hval⟩, hfits⟩
    · rintro ⟨⟨hitem, hval⟩, hfits⟩
      obtain ⟨total, hrest⟩ := (ih (by omega)).2 ⟨hval, hfits⟩
      exact ⟨total, hitem, by omega, hrest⟩

theorem encode_iff {capacity : Nat} :
    codec.encode packetId values items capacity = .ok bytes ↔
      version.supported = true ∧ packetId ≠ 0 ∧ items ≠ [] ∧
      (∃ present, propertyValuesValidate version values codec.allowed userPropertyRepeatable = .ok present) ∧
      (∀ item ∈ items, codec.Valid item) ∧
      encodePacket codec.type 2 (BigEndian.write 2 packetId.toNat ++ versionedPropertiesWrite version values ++
        items.flatMap codec.write) capacity = .ok bytes := by
  simp only [encode, bind_eq_ok, Unique.exists_iff, PUnit.default_eq_unit, require_eq_ok, Bool.and_eq_true, bne_iff_ne,
    Bool.not_eq_true', isEmpty_eq_false_iff, headRemaining_eq_ok]
  constructor
  · rintro ⟨hv, ⟨hid, hsome⟩, present, hval, remaining, ⟨rfl, hle⟩, total, hchk, henc⟩
    exact ⟨hv, hid, hsome, ⟨present, hval⟩, ((check_iff hle).1 ⟨total, hchk⟩).1, henc⟩
  · rintro ⟨hv, hid, hsome, ⟨present, hval⟩, hitems, henc⟩
    have hfits := henc
    rw [encodePacket, ite_error_eq_ok, length_append, length_append, length_write] at hfits
    obtain ⟨total, hchk⟩ := (check_iff (by omega)).2 ⟨hitems, Nat.not_lt.1 hfits.1⟩
    exact ⟨hv, ⟨hid, hsome⟩, present, hval, _, ⟨rfl, by omega⟩, total, hchk, henc⟩

variable {view : UInt16 → Bytes → Bytes → Nat → β}

theorem parse_iff {packet : PacketView} {codec : ListCodec packet.version α} {b : β} :
    codec.parse view packet = .ok b ↔
      packet.type = codec.type ∧ packet.version.supported = true ∧ ∃ packetId values items, packetId ≠ 0 ∧ items ≠ [] ∧
        (∃ present, propertyValuesValidate packet.version values codec.allowed userPropertyRepeatable = .ok present) ∧
        (∀ item ∈ items, codec.Valid item) ∧
        packet.body = BigEndian.write 2 packetId.toNat ++
          (versionedPropertiesWrite packet.version values ++ items.flatMap codec.write) ∧
        view packetId values (items.flatMap codec.write) items.length = b := by
  unfold parse
  rw [ite_error_eq_ok, not_or, not_not, Bool.not_eq_true', Bool.not_eq_false, and_assoc]
  refine and_congr_right fun _ => and_congr_right fun hv => ?_
  constructor
  · intro h
    split at h
    · cases h
    rename_i packetId rest hid
    obtain ⟨hid, hbody⟩ := (agrees_packetIdentifier _ _ _).1 hid
    split at h
    · cases h
    rename_i values present tail hblk
    obtain ⟨hval, hrest⟩ := (versionedProperties_iff hv).1 hblk
    simp only [ite_error_eq_ok, not_not, List.isEmpty_iff] at h
    obtain ⟨hne, hend, h⟩ := h
    obtain ⟨hitems, htail⟩ := codec.list_iff.1 (show codec.list tail = ((codec.list tail).1, .needMore) from Prod.ext rfl hend)
    rw [htail, flatMap_eq_nil] at hne
    rw [hrest, htail] at hbody
    exact ⟨packetId, values, _, hid, hne, ⟨present, hval⟩, hitems, hbody, by rw [← htail]; exact Except.ok.inj h⟩
  · rintro ⟨packetId, values, items, hid, hne, ⟨present, hval⟩, hitems, hbody, rfl⟩
    rw [(agrees_packetIdentifier _ _ _).2 ⟨hid, hbody⟩]
    dsimp only
    rw [(versionedProperties_iff hv).2 ⟨hval, rfl⟩]
    dsimp only
    rw [if_neg (by rwa [List.isEmpty_iff, flatMap_eq_nil]), codec.list_iff.2 ⟨hitems, rfl⟩, if_neg (by simp)]

theorem encode_parse {maxPacketSize capacity : Nat}
    (hping : ¬(codec.type = .pingreq ∨ codec.type = .pingresp)) (h : codec.encode packetId values items capacity = .ok bytes)
    (hadm : Admits maxPacketSize bytes.length) :
    ∃ body, packetParse bytes version maxPacketSize = .ok (⟨version, codec.type, 2, body⟩, bytes.length) ∧
      codec.parse view ⟨version, codec.type, 2, body⟩ = .ok (view packetId values (items.flatMap codec.write) items.length) ∧
      codec.list (items.flatMap codec.write) = (items, .needMore) := by
  obtain ⟨hv, hid, hne, hval, hitems, henc⟩ := encode_iff.1 h
  exact ⟨_, packetParse_encodePacket henc codec.header (absurd · hping) hadm,
    parse_iff.2 ⟨rfl, hv, _, _, _, hid, hne, hval, hitems, append_assoc _ _ _, rfl⟩, codec.list_iff.2 ⟨hitems, rfl⟩⟩

end ListCodec

theorem subscriptionsCheck_cons (remaining : Nat) (entry : SubscriptionView) (entries : List SubscriptionView) (total : Nat) :
    subscriptionsCheck version remaining (entry :: entries) = .ok total ↔ subscriptionCheck version entry = .ok () ∧
      remaining + (subscriptionWrite entry).length ≤ maxRemainingLength ∧
      subscriptionsCheck version (remaining + (subscriptionWrite entry).length) entries = .ok total := by
  have hlen : (subscriptionWrite entry).length = 3 + entry.filter.length := by
    simp [subscriptionWrite, lengthSpanWrite]
    omega
  rw [subscriptionsCheck, bind_unit_eq_ok, bind_eq_ok, hlen]
  simp [remainingAdd, ite_error_eq_ok]

def subscribeCodec (version : Version) : ListCodec version SubscriptionView where
  type := .subscribe
  allowed := subscribePropertiesAllowed
  list := subscriptions version
  check := subscriptionsCheck version
  write := subscriptionWrite
  Valid entry := subscriptionCheck version entry = .ok ()
  header := by cases version <;> decide
  write_ne_nil := subscriptionWrite_ne_nil
  list_iff := subscriptions_iff
  check_nil _ := rfl
  check_cons := subscriptionsCheck_cons

def unsubscribeCodec (version : Version) : ListCodec version Bytes where
  type := .unsubscribe
  allowed := userPropertyRepeatable
  list := topicFilters
  check := filtersCheck
  write := lengthSpanWrite
  Valid filter := lengthSpanInputValidate filter true = .ok () ∧ topicFilterValidate filter = true
  header := by cases version <;> decide
  write_ne_nil := lengthSpanWrite_ne_nil
  list_iff := topicFilters_iff
  check_nil _ := rfl
  check_cons remaining filter filters total := by
    have hlen : (lengthSpanWrite filter).length = 2 + filter.length := by simp [lengthSpanWrite]
    rw [filtersCheck, bind_unit_eq_ok, bind_unit_eq_ok, require_eq_ok, bind_eq_ok, hlen]
    simp [remainingAdd, ite_error_eq_ok, and_assoc]

theorem subscribeParse_eq (packet : PacketView) :
    subscribeParse packet = (subscribeCodec packet.version).parse SubscribeView.mk packet := rfl

theorem unsubscribeParse_eq (packet : PacketView) :
    unsubscribeParse packet = (unsubscribeCodec packet.version).parse UnsubscribeView.mk packet := rfl

variable {capacity maxPacketSize : Nat}

theorem subscribePacketEncode_eq (packet : SubscribePacket) : subscribePacketEncode packet capacity =
    (subscribeCodec packet.version).encode packet.packetId packet.properties packet.subscriptions capacity := rfl

theorem unsubscribePacketEncode_eq (packet : UnsubscribePacket) : unsubscribePacketEncode packet capacity =
    (unsubscribeCodec packet.version).encode packet.packetId packet.properties packet.filters capacity := rfl

variable {packet : PacketView}

/-- A SUBSCRIBE that is parsed: its parts and its entries. -/
theorem subscribeParse_iff {view : SubscribeView} :
    subscribeParse packet = .ok view ↔
      packet.type = .subscribe ∧ packet.version.supported = true ∧ view.packetId ≠ 0 ∧
      (∃ present, propertyValuesValidate packet.version view.properties subscribePropertiesAllowed
        userPropertyRepeatable = .ok present) ∧
      packet.body = write 2 view.packetId.toNat ++
        (versionedPropertiesWrite packet.version view.properties ++ view.entries) ∧
      view.entries ≠ [] ∧
      ∃ entries, subscriptions packet.version view.entries = (entries, .needMore) ∧ view.entryCount = entries.length := by
  rw [subscribeParse_eq, ListCodec.parse_iff]
  constructor
  · rintro ⟨htype, hv, packetId, values, entries, hid, hne, hval, hents, hbody, rfl⟩
    exact ⟨htype, hv, hid, hval, hbody, mt ListCodec.flatMap_eq_nil.1 hne, entries, subscriptions_iff.2 ⟨hents, rfl⟩, rfl⟩
  · obtain ⟨packetId, values, bytes, count⟩ := view
    rintro ⟨htype, hv, hid, hval, hbody, hne, entries, hlist, rfl⟩
    obtain ⟨hents, rfl⟩ := subscriptions_iff.1 hlist
    refine ⟨htype, hv, packetId, values, entries, hid, ?_, hval, hents, hbody, rfl⟩
    rintro rfl
    exact hne rfl

theorem subscribePacketEncode_parse {packet : SubscribePacket}
    (h : subscribePacketEncode packet capacity = .ok bytes) (hadm : Admits maxPacketSize bytes.length) :
    ∃ view subscribe, packetParse bytes packet.version maxPacketSize = .ok (view, bytes.length) ∧
      subscribeParse view = .ok subscribe ∧ subscribe.packetId = packet.packetId ∧
      subscribe.properties = packet.properties ∧
      subscriptions packet.version subscribe.entries = (packet.subscriptions, .needMore) ∧
      subscribe.entryCount = packet.subscriptions.length := by
  obtain ⟨body, hpar, hview, hlist⟩ := (subscribeCodec packet.version).encode_parse (by simp [subscribeCodec]) h hadm
  exact ⟨_, _, hpar, hview, rfl, rfl, hlist, rfl⟩

def ConnectPacket.view (packet : ConnectPacket) : ConnectView where
  version := packet.version
  cleanStart := packet.cleanStart
  willQos := packet.willQos
  willRetain := packet.willRetain
  keepAlive := packet.keepAlive
  properties := packet.properties
  clientId := packet.clientId
  willProperties := packet.willProperties
  willTopic := packet.willTopic
  willPayload := packet.willPayload
  username := if packet.hasUsername then some packet.username else none
  password := if packet.hasPassword then some packet.password else none

variable {packet : ConnectPacket}

omit [Vstr] in
theorem connectFlags_fields (hqos : packet.willQos ≤ 2) :
    (UInt8.ofNat (connectFlags packet)).toNat = connectFlags packet ∧ connectFlags packet % 2 = 0 ∧
      connectFlags packet / 2 % 2 = packet.cleanStart.toNat ∧ connectFlags packet / 4 % 2 = packet.hasWill.toNat ∧
      connectFlags packet / 8 % 4 = packet.willQos.toNat ∧ connectFlags packet / 32 % 2 = packet.willRetain.toNat ∧
      connectFlags packet / 64 % 2 = packet.hasPassword.toNat ∧
      connectFlags packet / 128 % 2 = packet.hasUsername.toNat := by
  have hq : packet.willQos.toNat ≤ 2 := hqos
  have hcln := Bool.toNat_le packet.cleanStart
  have hwill := Bool.toNat_le packet.hasWill
  have hret := Bool.toNat_le packet.willRetain
  have hpassword := Bool.toNat_le packet.hasPassword
  have husername := Bool.toNat_le packet.hasUsername
  rw [UInt8.toNat_ofNat']
  unfold connectFlags
  omega

theorem reads_optionalSpan {flag utf8 : Bool} {value : Bytes}
    (h : flag = true → lengthSpanInputValidate value utf8 = .ok ()) :
    Reads (optionalSpan flag utf8) (optionalSpanWrite flag value) (if flag then some value else none) := by
  intro rest
  cases flag with
  | false => rfl
  | true =>
    unfold optionalSpan optionalSpanWrite
    rw [if_pos rfl, if_pos rfl, (agrees_lengthSpan utf8).reads (h rfl), if_pos rfl]

theorem connectProperties_write {present : List PropertyId} (hv : version.supported = true)
    (hval : propertyValuesValidate version values connectPropertiesAllowed userPropertyRepeatable = .ok present)
    (hauth : (!(present.contains .authenticationData && !present.contains .authenticationMethod)) = true) (rest : Bytes) :
    connectProperties version (versionedPropertiesWrite version values ++ rest) = .ok (values, rest) := by
  obtain ⟨hlen, h5, h3⟩ := propertyValuesValidate_eq_ok hval hv
  unfold connectProperties versionedPropertiesWrite
  by_cases hver : version = .v5
  · rw [if_pos hver, if_pos hver, agrees_typedPropertyBlock.reads hlen]
    dsimp only
    rw [h5 hver]
    dsimp only
    rw [Bool.not_eq_true'] at hauth
    rw [if_neg (Bool.eq_false_iff.1 hauth)]
  · rw [if_neg hver, if_neg hver, h3 hver]
    rfl

/-- The Will of a CONNECT is read back; without one its fields are empty. -/
theorem willParse_willWrite (hv : packet.version.supported = true) (hwill : packet.hasWill = true → willCheck packet = .ok ())
    (hnone : packet.hasWill = false → packet.willProperties = [] ∧ packet.willTopic = [] ∧ packet.willPayload = []) (rest : Bytes) :
    (if packet.hasWill then willParse packet.version (willWrite packet ++ rest)
      else .ok ([], [], [], willWrite packet ++ rest)) =
      .ok (packet.willProperties, packet.willTopic, packet.willPayload, rest) := by
  unfold willWrite
  cases hflag : packet.hasWill with
  | false =>
    obtain ⟨hprp, htop, hpay⟩ := hnone hflag
    rw [hprp, htop, hpay]
    rfl
  | true =>
    have hchk := hwill hflag
    simp only [willCheck, bind_eq_ok, Unique.exists_iff, PUnit.default_eq_unit, require_eq_ok] at hchk
    obtain ⟨present, hval, htop, hname, hpay⟩ := hchk
    unfold willParse
    rw [if_pos rfl, if_pos rfl, append_assoc, append_assoc, (versionedProperties_iff hv).2 ⟨hval, rfl⟩]
    dsimp only
    rw [(agrees_lengthSpan true).reads htop]
    dsimp only
    rw [if_neg (by simp [hname]), (agrees_lengthSpan false).reads hpay]

theorem protocolName_check (version : Version) : lengthSpanInputValidate (protocolName version) true = .ok () := by
  rw [lengthSpanInputValidate_iff]
  refine ⟨by cases version <;> decide, fun _ => ?_⟩
  apply utf8Validate_of_ascii
  cases version <;> rfl

omit [Vstr] in
theorem connectFlagsValid_eq_true (h : connectFlagsValid packet = true) :
    packet.willQos ≤ 2 ∧ (packet.hasPassword = true → packet.hasUsername = true) ∧
      (packet.hasWill = false → packet.willQos = 0 ∧ packet.willRetain = false ∧ packet.willProperties = [] ∧
        packet.willTopic = [] ∧ packet.willPayload = []) := by
  simp only [connectFlagsValid, Bool.and_eq_true, Bool.not_eq_true', Bool.and_eq_false_imp, Bool.not_eq_false',
    Bool.or_eq_false_iff, bne_eq_false_iff_eq, decide_eq_true_eq, List.isEmpty_iff, and_assoc] at h
  obtain ⟨hqos, hpassword, hwill, -, -⟩ := h
  exact ⟨hqos, hpassword, hwill⟩

omit [Vstr] in
theorem Version.ofByte_toByte (version : Version) : Version.ofByte version.toByte = version := by
  cases version <;> rfl

/-- A CONNECT the encoder accepts is parsed back, by its version or with none given. -/
theorem connectParse_connectBody_of (hver : version = .unspecified ∨ version = packet.version)
    (h : connectCheck packet = .ok ()) : connectParse ⟨version, .connect, 0, connectBody packet⟩ = .ok packet.view := by
  simp only [connectCheck, bind_eq_ok, Unique.exists_iff, PUnit.default_eq_unit, require_eq_ok, checkWhen_eq_ok] at h
  obtain ⟨hv, hfl, hcli, hclient31, -, present, hval, hauth, hwill, husername, hpassword⟩ := h
  obtain ⟨hqos, hcredentials, hnoWill⟩ := connectFlagsValid_eq_true hfl
  obtain ⟨hbyte, hresv, hcleanBit, hwillBit, hqosBits, hretainBit, hpasswordBit, husernameBit⟩ :=
    connectFlags_fields hqos
  have hbit : ∀ b : Bool, decide (b.toNat = 1) = b := by decide
  have hwrite : write 2 packet.keepAlive.toNat =
      [UInt8.ofNat (packet.keepAlive.toNat / 256), UInt8.ofNat packet.keepAlive.toNat] := rfl
  have hkeepAlive : UInt16.ofNat (read (write 2 packet.keepAlive.toNat)) = packet.keepAlive := by
    rw [read_write (by have := packet.keepAlive.toNat_lt; omega), UInt16.ofNat_toNat]
  have hpasswordRead := reads_optionalSpan hpassword []
  rw [append_nil] at hpasswordRead
  rw [hwrite] at hkeepAlive
  unfold connectParse
  rw [if_neg (by simp), connectBody, hwrite, (agrees_lengthSpan true).reads (protocolName_check packet.version),
    cons_append, cons_append, nil_append]
  dsimp only
  rw [Version.ofByte_toByte, hbyte, hresv, hcleanBit, hwillBit, hqosBits, hretainBit, hpasswordBit, husernameBit,
    hkeepAlive]
  simp only [hbit]
  rw [if_neg (by rcases hver with rfl | rfl <;> simp [hv]), if_neg (by simp [protocolName]), if_neg,
    connectProperties_write hv hval hauth]
  · dsimp only
    rw [(agrees_lengthSpan true).reads hcli]
    dsimp only
    rw [if_neg (by simpa [imp_iff_not_or] using hclient31), willParse_willWrite hv hwill fun hno => (hnoWill hno).2.2]
    dsimp only
    rw [reads_optionalSpan husername]
    dsimp only
    rw [hpasswordRead]
    dsimp only
    rw [if_neg (by simp), UInt8.ofNat_toNat]
    rfl
  · -- the flags the parser refuses are those the encoder refuses
    have hle : packet.willQos.toNat ≤ 2 := hqos
    simp only [not_or]
    refine ⟨by omega, by omega, ?_, ?_⟩
    · cases hflag : packet.hasWill with
      | false => simp [hnoWill hflag]
      | true => simp
    · cases hflag : packet.hasPassword with
      | false => simp
      | true => simp [hcredentials hflag]

theorem connectParse_connectBody (h : connectCheck packet = .ok ()) :
    connectParse ⟨packet.version, .connect, 0, connectBody packet⟩ = .ok packet.view :=
  connectParse_connectBody_of (.inr rfl) h

/-- The properties of a CONNECT that was parsed, and its Will. -/
theorem connectParse_eq_ok {packet : PacketView} {view : ConnectView} (h : connectParse packet = .ok view) :
    (∃ bytes rest, connectProperties view.version bytes = .ok (view.properties, rest)) ∧ view.willQos ≤ 2 ∧
      ((∃ bytes rest, willParse view.version bytes =
          .ok (view.willProperties, view.willTopic, view.willPayload, rest)) ∨
        view.willProperties = [] ∧ view.willTopic = [] ∧ view.willPayload = []) := by
  unfold connectParse at h
  obtain ⟨-, h⟩ := ite_error_eq_ok.1 h
  split at h
  · cases h
  · rename_i level flagByte _ _ _ _
    obtain ⟨-, h⟩ := ite_error_eq_ok.1 h
    obtain ⟨-, h⟩ := ite_error_eq_ok.1 h
    obtain ⟨hfl, h⟩ := ite_error_eq_ok.1 h
    split at h
    · cases h
    rename_i values after hprp
    split at h
    · cases h
    rename_i clientId rest _
    obtain ⟨-, h⟩ := ite_error_eq_ok.1 h
    generalize hwill : (if decide (flagByte.toNat / 4 % 2 = 1) = true then
      willParse (Version.ofByte level) rest else .ok ([], [], [], rest)) = will at h
    split at h
    · cases h
    split at h
    · cases h
    split at h
    · cases h
    obtain ⟨-, h⟩ := ite_error_eq_ok.1 h
    cases h
    refine ⟨⟨_, _, hprp⟩, ?_, ?_⟩
    · show (UInt8.ofNat (flagByte.toNat / 8 % 4)).toNat ≤ 2
      rw [UInt8.toNat_ofNat']
      omega
    · split at hwill
      · exact .inl ⟨_, _, hwill⟩
      · cases hwill
        exact .inr ⟨rfl, rfl, rfl⟩
  · cases h

/-- What the encoders of a client accept is parsed back: the packet takes all of the bytes, and the
    typed parser returns the fields that were encoded. -/
theorem client_packets_round_trip (maxPacketSize capacity : Nat) (bytes : Bytes)
    (hadm : Admits maxPacketSize bytes.length) :
    (∀ packet : ConnectPacket, connectPacketEncode packet capacity = .ok bytes →
      ∃ view, packetParse bytes packet.version maxPacketSize = .ok (view, bytes.length) ∧
        connectParse view = .ok packet.view) ∧
    (∀ packet : PublishPacket, publishPacketEncode packet capacity = .ok bytes →
      ∃ view, packetParse bytes packet.version maxPacketSize = .ok (view, bytes.length) ∧
        publishParse view = .ok packet.view) ∧
    (∀ packet : SubscribePacket, subscribePacketEncode packet capacity = .ok bytes →
      ∃ view subscribe, packetParse bytes packet.version maxPacketSize = .ok (view, bytes.length) ∧
        subscribeParse view = .ok subscribe ∧ subscribe.packetId = packet.packetId ∧
        subscribe.properties = packet.properties ∧
        subscriptions packet.version subscribe.entries = (packet.subscriptions, .needMore) ∧
        subscribe.entryCount = packet.subscriptions.length) ∧
    (∀ packet : UnsubscribePacket, unsubscribePacketEncode packet capacity = .ok bytes →
      ∃ view unsubscribe, packetParse bytes packet.version maxPacketSize = .ok (view, bytes.length) ∧
        unsubscribeParse view = .ok unsubscribe ∧ unsubscribe.packetId = packet.packetId ∧
        unsubscribe.properties = packet.properties ∧
        topicFilters unsubscribe.filters = (packet.filters, .needMore) ∧
        unsubscribe.filterCount = packet.filters.length) := by
  refine ⟨?_, ?_, ?_, ?_⟩
  · intro packet h
    obtain ⟨hchk, henc⟩ := bind_unit_eq_ok.1 h
    have hhdr : fixedHeader (UInt8.ofNat (PacketType.connect.toNibble * 16 + 0)) packet.version =
        some (.connect, 0) := by
      cases packet.version <;> decide
    exact ⟨_, packetParse_encodePacket henc hhdr (by simp) hadm, connectParse_connectBody hchk⟩
  · exact fun packet h => publishPacketEncode_parse_of_admits h hadm
  · exact fun packet h => subscribePacketEncode_parse h hadm
  · intro packet h
    obtain ⟨body, hpar, hview, hlist⟩ :=
      (unsubscribeCodec packet.version).encode_parse (by simp [unsubscribeCodec]) h hadm
    exact ⟨_, _, hpar, hview, rfl, rfl, hlist, rfl⟩

end

section Examples

attribute [local instance] asciiVstr

/-- A CONNECT of MQTT 5 with a Will and both credentials, the password empty. -/
def willConnect : ConnectPacket :=
  { version := .v5, cleanStart := true, hasWill := true, willQos := 1, willRetain := true, hasUsername := true,
    hasPassword := true, keepAlive := 30, properties := [0x21, 0x00, 0x0a], clientId := text "c", willProperties := [],
    willTopic := text "a/b", willPayload := [0xff], username := text "u", password := [] }

def willConnectBytes : Bytes :=
  [0x10, 0x1f, 0x00, 0x04, 0x4d, 0x51, 0x54, 0x54, 0x05, 0xee, 0x00, 0x1e, 0x03, 0x21, 0x00, 0x0a, 0x00, 0x01, 0x63,
    0x00, 0x00, 0x03, 0x61, 0x2f, 0x62, 0x00, 0x01, 0xff, 0x00, 0x01, 0x75, 0x00, 0x00]

theorem client_packets_round_trip_connect :
    connectPacketEncode willConnect 64 = .ok willConnectBytes ∧
    ∃ view, packetParse willConnectBytes .v5 0 = .ok (view, willConnectBytes.length) ∧
      connectParse view = .ok willConnect.view :=
  have henc : connectPacketEncode willConnect 64 = .ok willConnectBytes := by rfl
  ⟨henc, (client_packets_round_trip 0 64 willConnectBytes ⟨by decide, by decide⟩).1 willConnect henc⟩

end Examples

end Flowie.Mqtt
