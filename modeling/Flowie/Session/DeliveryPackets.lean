import Flowie.Mqtt.ControlRoundTrip
import Flowie.Mqtt.Exchange
import Flowie.Session.Delivery

/-!
# The packets of deliveries

A delivery carries a PUBLISH of its packet identifier and QoS until PUBREC replaces it by a PUBREL.
Replaying a delivery sets the DUP flag and refreshes the Message Expiry Interval in place; the
packet is parsed as before apart from those.
-/

namespace Flowie.Session

open Mqtt Reader List BigEndian

section

variable [Vstr]

omit [Vstr] in
theorem singlePropertyLoop_congr {identifier : PropertyId} {ps' ps : List Property} {found' found : Option Nat}
    (h : ps'.map (·.identifier) = ps.map (·.identifier)) (hfnd : found'.isSome = found.isSome) :
    (singlePropertyLoop identifier found' ps').map Option.isSome =
      (singlePropertyLoop identifier found ps).map Option.isSome := by
  rw [← forall₂_eq_eq_eq, forall₂_map_left_iff, forall₂_map_right_iff] at h
  induction h generalizing found' found with
  | nil => exact congrArg Except.ok hfnd
  | cons hid _ ih =>
    rw [singlePropertyLoop, singlePropertyLoop, hid, hfnd]
    split
    · exact ih hfnd
    split
    · rfl
    · exact ih rfl

theorem hasSingleExpiry_eq (values : Bytes) : hasSingleExpiry values =
    (decide ((singlePropertyLoop .messageExpiryInterval none (properties values).1).map Option.isSome = .ok true) &&
      decide ((properties values).2 = .needMore)) := by
  unfold hasSingleExpiry singleProperty
  cases singlePropertyLoop .messageExpiryInterval none (properties values).1 with
  | error e => rfl
  | ok found =>
    by_cases hend : (properties values).2 = .needMore
    · cases found with
      | none => simp [Except.map, hend]
      | some v => simp [Except.map, hend]
    · simp [hend]

theorem hasSingleExpiry_congr {values' values : Bytes} (h : SameShape values' values) :
    hasSingleExpiry values' = hasSingleExpiry values := by
  rw [hasSingleExpiry_eq, hasSingleExpiry_eq, singlePropertyLoop_congr h.identifiers rfl, h.ending]

variable {interval fuel : Nat} {values values' : Bytes}

/-- Once the interval is written, the rest stays. -/
theorem expiryRefreshLoop_found {found' : Bool} (h : expiryRefreshLoop interval fuel true values = .ok (values', found')) : values' = values ∧ found' = true := by
  induction fuel generalizing values values' found' with
  | zero =>
    unfold expiryRefreshLoop at h
    split at h
    · rename_i hnil
      cases h
      exact ⟨(List.isEmpty_iff.1 hnil).symm, rfl⟩
    · cases h
  | succ fuel ih =>
    unfold expiryRefreshLoop at h
    split at h
    · split at h
      · cases h
        exact ⟨rfl, rfl⟩
      · cases h
    rename_i property rest hnext
    obtain ⟨used, -, rfl, -⟩ := prefixed_propertyIteratorNext _ _ _ hnext
    dsimp only at h
    rw [length_append, Nat.add_sub_cancel, take_left] at h
    split at h
    · rw [if_pos (.inl rfl)] at h
      cases h
    split at h
    · cases h
    rename_i rest' found'' hrest
    obtain ⟨rfl, rfl⟩ := ih hrest
    cases h
    exact ⟨rfl, rfl⟩

section
variable (h : expiryRefreshLoop interval fuel false values = .ok (values', true))
include h

/-- The loop exchanges the four bytes of the interval, and nothing else is read differently. -/
theorem expiryRefreshLoop_writes :
    ∃ front four back before property after ending, values = front ++ (four ++ back) ∧ four.length = 4 ∧
      values' = front ++ (write 4 interval ++ back) ∧ properties values = (before ++ property :: after, ending) ∧
      (properties values).1.find? (·.identifier == .messageExpiryInterval) = some property ∧ property.integer = read four ∧
      properties values' = (before ++ { property with integer := read (write 4 interval) } :: after, ending) := by
  induction fuel generalizing values values' with
  | zero =>
    unfold expiryRefreshLoop at h
    split at h <;> cases h
  | succ fuel ih =>
    unfold expiryRefreshLoop at h
    split at h
    · split at h <;> cases h
    rename_i property tail hnext
    obtain ⟨used, -, rfl, hrd⟩ := prefixed_propertyIteratorNext _ _ _ hnext
    have hall : ∀ {used property}, Reads propertyIteratorNext used property → ∀ tail,
        properties (used ++ tail) = (property :: (properties tail).1, (properties tail).2) :=
      fun hrd tail => all_of_reads prefixed_propertyIteratorNext hrd tail
    dsimp only at h
    rw [length_append, Nat.add_sub_cancel] at h
    split at h
    · rename_i hid
      split at h
      · cases h
      split at h
      · cases h
      rename_i tail' found' hrest
      obtain ⟨rfl, rfl⟩ := expiryRefreshLoop_found hrest
      obtain ⟨idBytes, a, b, c, d, hbs, -, hinteger, hoth⟩ := reads_messageExpiry hnext hid
      obtain rfl : used = idBytes ++ [a, b, c, d] := append_cancel_right hbs
      have hnew := hall (hoth (write 4 interval) length_write) tail'
      cases h
      refine ⟨idBytes, [a, b, c, d], tail', [], property, _, _, append_assoc _ _ _, rfl, ?_, hall hrd tail', ?_, hinteger, ?_⟩
      · simp
      · rw [hall hrd]
        exact find?_cons_of_pos (by simpa using hid)
      · simpa using hnew
    · rename_i hid
      split at h
      · cases h
      rename_i tail' found' hrest
      cases h
      obtain ⟨front, four, back, before, p, after, ending, rfl, hfour, rfl, hold, hp, hread, hnew⟩ := ih hrest
      rw [take_left]
      refine ⟨used ++ front, four, back, property :: before, p, after, ending, by simp, hfour, by simp, ?_, ?_, hread, ?_⟩
      · rw [hall hrd, hold]
        rfl
      · rw [hall hrd]
        exact (find?_cons_of_neg (by simpa using hid)).trans hp
      · rw [hall hrd, hnew]
        rfl

/-- Refreshing the interval keeps the shape of the values. -/
theorem expiryRefreshLoop_shape : SameShape values' values := by
  obtain ⟨front, four, back, before, property, after, ending, rfl, hfour, rfl, hold, -, -, hnew⟩ := expiryRefreshLoop_writes h
  exact ⟨by simp [hfour], by simp [hold, hnew], by rw [hold, hnew]⟩

end

def CarriesPublish (version : Version) (bytes : Bytes) (publish : PublishView) : Prop :=
  ∃ view, packetParse bytes version bytes.length = .ok (view, bytes.length) ∧ publishParse view = .ok publish

variable {version : Version} {publish : PublishView}

theorem CarriesPublish.markDuplicate {bytes : Bytes} (h : CarriesPublish version bytes publish) (hqos : publish.qos ≠ 0) :
    CarriesPublish version (Session.markDuplicate bytes) { publish with duplicate := true } := by
  obtain ⟨view, hpkt, hpub⟩ := h
  obtain ⟨rfl, first, lenBytes, layout⟩ := packetLayout_of_parse hpkt
  obtain ⟨topicBytes, idBytes, blockHead, present, body⟩ := publishLayout_of_parse hpub
  have hfl : view.flags / 2 % 4 ≠ 0 := by
    intro hzero
    refine hqos ?_
    rw [body.qos, hzero]
    rfl
  have hhdr := layout.header
  rw [body.type] at hhdr
  obtain ⟨hfst, flags', hhdr', hq, hret, hdup⟩ := fixedHeader_duplicate hhdr hfl
  have hmark : Session.markDuplicate bytes = (first ||| 0x08) :: (lenBytes ++ view.body) := by
    rw [layout.split]
    exact congrArg (· :: (lenBytes ++ view.body)) (if_pos hfst)
  rw [hmark]
  have hsize := layout.size
  rw [layout.split] at hsize
  have layout' : PacketLayout ((first ||| 0x08) :: (lenBytes ++ view.body)) { view with flags := flags' }
      (first ||| 0x08) lenBytes := by
    refine ⟨rfl, ?_, layout.remaining, hsize, layout.ping⟩
    rw [body.type]
    exact hhdr'
  have body' : PublishLayout { view with flags := flags' } { publish with duplicate := true } topicBytes idBytes
      blockHead present :=
    { body with
      qos := by rw [body.qos, hq]
      retain := by rw [body.retain, hret]
      duplicate := by simp [hdup] }
  exact ⟨_, layout'.parse, body'.parse⟩

variable {now : UInt64} {view : PacketView}

/-- The property values and the payload end a PUBLISH. -/
theorem publish_front {bytes lenBytes topicBytes idBytes blockHead : Bytes} {first : UInt8}
    {present : List PropertyId} (layout : PacketLayout bytes view first lenBytes)
    (body : PublishLayout view publish topicBytes idBytes blockHead present) :
    bytes = first :: (lenBytes ++ (topicBytes ++ (idBytes ++ blockHead))) ++ (publish.properties ++ publish.payload) ∧
    bytes.take (bytes.length - publish.payload.length - publish.properties.length) =
      first :: (lenBytes ++ (topicBytes ++ (idBytes ++ blockHead))) := by
  have hbs : bytes = first :: (lenBytes ++ (topicBytes ++ (idBytes ++ blockHead))) ++
      (publish.properties ++ publish.payload) := by
    rw [layout.split, body.body]
    simp
  refine ⟨hbs, ?_⟩
  rw [hbs, length_append, length_append]
  exact take_left' (by omega)

/-- A PUBLISH with its property values exchanged for others of the same shape. -/
theorem exchange_parse {bytes : Bytes} (hpkt : packetParse bytes version bytes.length = .ok (view, bytes.length))
    (hpub : publishParse view = .ok publish) (hshape : SameShape values publish.properties) :
    CarriesPublish version (bytes.take (bytes.length - publish.payload.length - publish.properties.length) ++ values ++
      publish.payload) { publish with properties := values } := by
  obtain ⟨rfl, first, lenBytes, layout⟩ := packetLayout_of_parse hpkt
  obtain ⟨topicBytes, idBytes, blockHead, present, body⟩ := publishLayout_of_parse hpub
  have hlen : (topicBytes ++ (idBytes ++ (blockHead ++ (values ++ publish.payload)))).length = view.body.length := by
    rw [body.body]
    simp [hshape.length]
  have hbs' : first :: (lenBytes ++ (topicBytes ++ (idBytes ++ blockHead))) ++ values ++ publish.payload =
      first :: (lenBytes ++ (topicBytes ++ (idBytes ++ (blockHead ++ (values ++ publish.payload))))) := by
    simp
  rw [(publish_front layout body).2, hbs']
  exact ⟨_, (layout.exchange hlen).parse, (body.exchange hshape).parse⟩

/-- Refreshing the expiry interval exchanges the property values for others of the same shape. -/
theorem CarriesPublish.expiryRefresh {bytes bytes' : Bytes} {expiry : UInt64} (h : CarriesPublish version bytes publish)
    (hrfr : packetExpiryRefresh version bytes expiry now = .ok bytes') :
    ∃ values, SameShape values publish.properties ∧
      CarriesPublish version bytes' { publish with properties := values } := by
  obtain ⟨view, hpkt, hpub⟩ := h
  unfold packetExpiryRefresh at hrfr
  split_ifs at hrfr
  rw [hpkt] at hrfr
  dsimp only at hrfr
  rw [if_neg (not_not.2 rfl), hpub] at hrfr
  dsimp only at hrfr
  split at hrfr
  · cases hrfr
  rename_i values found hloop
  split at hrfr
  · rename_i hfnd
    cases hrfr
    rw [hfnd] at hloop
    have hshape := expiryRefreshLoop_shape hloop
    exact ⟨values, hshape, exchange_parse hpkt hpub hshape⟩
  · cases hrfr

def CarriesPubrel (version : Version) (bytes : Bytes) (packetId : UInt16) : Prop :=
  ∃ view control, packetParse bytes version bytes.length = .ok (view, bytes.length) ∧ view.type = .pubrel ∧
    controlPacketParse view = .ok control ∧ control.packetId = packetId

/-- What a PUBLISH has to be for a delivery that waits for its first acknowledgement, or that is still
    queued. -/
structure Matches (version : Version) (delivery : Delivery) (publish : PublishView) : Prop where
  packetId : publish.packetId = delivery.packetId
  qos : publish.qos = delivery.qos
  waitAck : delivery.state = .waitAck → delivery.qos = 1
  waitPubrec : delivery.state = .waitPubrec → delivery.qos = 2
  queued : delivery.state = .queued → delivery.qos = 1 ∨ delivery.qos = 2
  expiry : delivery.expiryAtEpochSeconds ≠ 0 → version = .v5 → hasSingleExpiry publish.properties = true
  supported : delivery.expiryAtEpochSeconds ≠ 0 → version ≠ .v5 → version.is3x = true

/-- The packet of a delivery is right for its state. -/
def Delivery.Sound (version : Version) (delivery : Delivery) : Prop :=
  ∃ bytes, delivery.packet = some bytes ∧
    if delivery.state = .waitPubcomp then
      CarriesPubrel version bytes delivery.packetId ∧ delivery.qos = 2 ∧ delivery.expiryAtEpochSeconds = 0
    else ∃ publish, CarriesPublish version bytes publish ∧ Matches version delivery publish

variable {delivery : Delivery}

theorem Delivery.sound_of_publish {bytes : Bytes} (hpkt : delivery.packet = some bytes)
    (hst : delivery.state ≠ .waitPubcomp) (hcar : CarriesPublish version bytes publish)
    (hmt : Matches version delivery publish) : delivery.Sound version :=
  ⟨bytes, hpkt, by rw [if_neg hst]; exact ⟨publish, hcar, hmt⟩⟩

theorem Delivery.sound_of_pubrel {bytes : Bytes} (hpkt : delivery.packet = some bytes) (hst : delivery.state = .waitPubcomp)
    (hcar : CarriesPubrel version bytes delivery.packetId) (hqos : delivery.qos = 2)
    (hexp : delivery.expiryAtEpochSeconds = 0) : delivery.Sound version :=
  ⟨bytes, hpkt, by rw [if_pos hst]; exact ⟨hcar, hqos, hexp⟩⟩

theorem recordDeliveryValidate_eq_ok : recordDeliveryValidate version delivery = .ok () ↔ delivery.Sound version := by
  constructor
  · intro h
    unfold recordDeliveryValidate at h
    split at h
    · cases h
    rename_i bytes hpkt
    refine ⟨bytes, hpkt, ?_⟩
    split at h
    · cases h
    rename_i packet consumed hpar
    split at h
    · cases h
    rename_i hconsumed
    obtain rfl : consumed = bytes.length := not_not.1 hconsumed
    split at h
    · rename_i hst
      rw [if_pos hst]
      split at h
      · cases h
      rename_i control hctl
      split_ifs at h with hbad
      rw [not_or, not_or, not_or, not_not, not_not, not_not, not_not] at hbad
      obtain ⟨hqos, htype, hid, hexp⟩ := hbad
      exact ⟨⟨packet, control, hpar, htype, hctl, hid⟩, hqos, hexp⟩
    · rename_i hst
      rw [if_neg hst]
      split at h
      · cases h
      rename_i publish hpub
      refine ⟨publish, ⟨packet, hpar, hpub⟩, ?_⟩
      split at h
      · cases h
      rename_i hbad
      rw [not_or, not_or, not_or, not_or, not_not, not_not] at hbad
      obtain ⟨hid, hqos, hack, hrec, hqd⟩ := hbad
      split at h
      · cases h
      rename_i hexp
      split at h
      · cases h
      rename_i hver
      constructor
      · exact hid
      · exact hqos
      · exact fun hs => by_contra fun hne => hack ⟨hs, hne⟩
      · exact fun hs => by_contra fun hne => hrec ⟨hs, hne⟩
      · intro hs
        rw [not_and, not_or] at hqd
        exact qos_eq_one_or_two (hqd hs).1 (hqd hs).2
      · intro he h5
        simpa [he, h5] using hexp
      · intro he h5
        simpa [he, h5] using hver
  · intro ⟨bytes, hpkt, hsnd⟩
    unfold recordDeliveryValidate
    rw [hpkt]
    dsimp only
    split at hsnd
    · rename_i hst
      obtain ⟨⟨packet, control, hpar, htype, hctl, hid⟩, hqos, hexp⟩ := hsnd
      rw [hpar]
      dsimp only
      rw [if_neg (not_not.2 rfl), if_pos hst, hctl]
      dsimp only
      rw [if_neg]
      simp [hqos, htype, hid, hexp]
    · rename_i hst
      obtain ⟨publish, ⟨packet, hpar, hpub⟩, hmt⟩ := hsnd
      rw [hpar]
      dsimp only
      rw [if_neg (not_not.2 rfl), if_neg hst, hpub]
      dsimp only
      rw [if_neg, if_neg, if_neg]
      · intro ⟨he, h5, h3⟩
        rw [hmt.supported he h5] at h3
        cases h3
      · intro ⟨he, h5, hsgl⟩
        rw [hmt.expiry he h5] at hsgl
        cases hsgl
      · have hqd : delivery.state = .queued → ¬(delivery.qos = 0 ∨ delivery.qos > 2) := by
          intro hs
          rcases hmt.queued hs with hq | hq <;> rw [hq] <;> decide
        intro hbad
        rcases hbad with hid | hqos | hack | hrec | hq
        · exact hid hmt.packetId
        · exact hqos hmt.qos
        · exact hack.2 (hmt.waitAck hack.1)
        · exact hrec.2 (hmt.waitPubrec hrec.1)
        · exact hqd hq.1 hq.2

theorem Delivery.Sound.bytes (h : delivery.Sound version) :
    ∃ bytes, delivery.packet = some bytes ∧ bytes ≠ [] ∧ bytes.length ≤ maxWirePacketSize := by
  obtain ⟨bytes, hpkt, hsnd⟩ := h
  have hpar : ∃ view, packetParse bytes version bytes.length = .ok (view, bytes.length) := by
    split at hsnd
    · obtain ⟨⟨view, -, hpar, -⟩, -⟩ := hsnd
      exact ⟨view, hpar⟩
    · obtain ⟨-, ⟨view, hpar, -⟩, -⟩ := hsnd
      exact ⟨view, hpar⟩
  obtain ⟨view, hpar⟩ := hpar
  obtain ⟨-, first, lenBytes, layout⟩ := packetLayout_of_parse hpar
  exact ⟨bytes, hpkt, by rw [layout.split]; exact cons_ne_nil _ _, layout.size⟩

/-- A delivery that waits for the state of its QoS. -/
theorem Matches.wait (h : Matches version delivery publish) (hqos : delivery.qos = 1 ∨ delivery.qos = 2) (packet : Option Bytes) :
    Matches version { delivery with packet := packet, state := waitState delivery.qos } publish := by
  refine { h with waitAck := ?_, waitPubrec := ?_, queued := fun _ => hqos }
  · show waitState delivery.qos = .waitAck → delivery.qos = 1
    intro hwait
    rcases hqos with hq | hq
    · exact hq
    · rw [hq] at hwait
      cases hwait
  · show waitState delivery.qos = .waitPubrec → delivery.qos = 2
    intro hwait
    rcases hqos with hq | hq
    · rw [hq] at hwait
      cases hwait
    · exact hq

omit [Vstr] in
theorem waitState_ne_waitPubcomp (qos : UInt8) : waitState qos ≠ .waitPubcomp := by
  unfold waitState
  split <;> exact DeliveryState.noConfusion

theorem Delivery.Sound.stored (h : delivery.Sound version) : delivery.stored.Sound version := by
  unfold Delivery.stored Delivery.storedState
  split
  · rename_i hqd
    obtain ⟨bytes, hpkt, hsnd⟩ := h
    rw [if_neg (by rw [hqd]; exact DeliveryState.noConfusion)] at hsnd
    obtain ⟨publish, hcar, hmt⟩ := hsnd
    exact sound_of_publish hpkt (waitState_ne_waitPubcomp _) hcar (hmt.wait (hmt.queued hqd) _)
  · exact h

/-- The packet that is handed out is the one of the delivery, refreshed when it expires. -/
theorem CarriesPublish.pending {stored packet : Bytes} (h : CarriesPublish version stored publish)
    (hmt : Matches version delivery publish) (hpend : pendingPacket version delivery stored now = .ok packet) :
    ∃ publish', CarriesPublish version packet publish' ∧ Matches version delivery publish' := by
  unfold pendingPacket at hpend
  split at hpend
  · cases hpend
    exact ⟨publish, h, hmt⟩
  split at hpend
  · cases hpend
  split at hpend
  · obtain ⟨values, hshape, hcar⟩ := h.expiryRefresh hpend
    refine ⟨_, hcar, { hmt with expiry := fun he h5 => ?_ }⟩
    rw [hasSingleExpiry_congr hshape]
    exact hmt.expiry he h5
  · split_ifs at hpend
    · cases hpend
      exact ⟨publish, h, hmt⟩

/-- Handing a delivery out keeps its packet right. -/
theorem Delivery.Sound.replayed {stored packet : Bytes} (h : delivery.Sound version) (hqos : delivery.qos = 1 ∨ delivery.qos = 2)
    (hsto : delivery.packet = some stored) (hpend : pendingPacket version delivery stored now = .ok packet) :
    (delivery.replayed packet).Sound version := by
  obtain ⟨bytes, hpkt, hsnd⟩ := h
  obtain rfl : stored = bytes := Option.mem_unique hsto hpkt
  unfold Delivery.replayed
  split at hsnd
  · rename_i hst
    obtain ⟨hcar, htwo, hexp⟩ := hsnd
    have hsame : stored = packet := by
      unfold pendingPacket at hpend
      rw [if_pos hexp] at hpend
      exact Except.ok.inj hpend
    rw [if_neg (by simp [hst]), if_neg (by simp [hst]), ← hsame]
    exact sound_of_pubrel rfl hst hcar htwo hexp
  · rename_i hst
    obtain ⟨publish, hcar, hmt⟩ := hsnd
    obtain ⟨publish', hcar', hmt'⟩ := hcar.pending hmt hpend
    have hnonzero : publish'.qos ≠ 0 := by
      rw [hmt'.qos]
      rcases hqos with hq | hq <;> rw [hq] <;> decide
    split
    · exact sound_of_publish rfl (waitState_ne_waitPubcomp _) hcar' (hmt'.wait hqos _)
    split
    · exact sound_of_publish rfl hst (hcar'.markDuplicate hnonzero) { hmt' with }
    · exact sound_of_publish rfl hst hcar' { hmt' with }

/-- A delivery that got its PUBREC carries the PUBREL. -/
theorem Delivery.sound_released {pubrel : Bytes}
    (henc : controlPacketEncode (pubrelPacket version delivery.packetId) 32 = .ok pubrel) (hqos : delivery.qos = 2) :
    (delivery.released pubrel).Sound version :=
  sound_of_pubrel rfl rfl (controlPacketEncode_pubrel henc) hqos rfl

/-- A reserved delivery that is committed with the PUBLISH encoded for it, when it does not expire. -/
theorem Delivery.sound_committed {publish : PublishPacket} {capacity : Nat} {bytes : Bytes} {queued : Bool}
    (henc : publishPacketEncode publish capacity = .ok bytes) (hid : publish.packetId = delivery.packetId)
    (hqos : publish.qos = delivery.qos) (hrng : delivery.qos = 1 ∨ delivery.qos = 2) :
    (delivery.committed bytes 0 queued).Sound publish.version := by
  obtain ⟨view, hpkt, hpub⟩ := publishPacketEncode_parse henc
  have hmt : Matches publish.version { delivery with packet := some bytes, expiryAtEpochSeconds := 0, state := .queued }
      publish.view :=
    ⟨hid, hqos, DeliveryState.noConfusion, DeliveryState.noConfusion, fun _ => hrng, fun h => absurd rfl h,
      fun h => absurd rfl h⟩
  cases queued with
  | true => exact sound_of_publish rfl DeliveryState.noConfusion ⟨view, hpkt, hpub⟩ hmt
  | false =>
    exact sound_of_publish rfl (waitState_ne_waitPubcomp _) ⟨view, hpkt, hpub⟩ (hmt.wait hrng _)

end

end Flowie.Session
