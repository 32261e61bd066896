import Flowie.Lib.Run
import Flowie.Session.Reload

/-!
# The way of an outbound delivery

A history is any sequence of calls on one owner, with the session stored and restored in between. Once a
PUBREC is accepted, the delivery is its PUBREL and nothing else until it leaves the table
(`outbound_progress`). Each step is read off `Transition.fate`; `Run.kept_or_ended` carries it along.
-/

namespace Flowie.Session

open Mqtt

def pubrelBytes (packetId : UInt16) : Bytes := 0x62 :: 2 :: BigEndian.write 2 packetId.toNat

/-- A delivery that waits for its PUBCOMP: its packet is the PUBREL, and it does not expire. -/
structure Delivery.AwaitsPubcomp (delivery : Delivery) : Prop where
  qos : delivery.qos = 2
  state : delivery.state = .waitPubcomp
  expiry : delivery.expiryAtEpochSeconds = 0
  packet : delivery.packet = some (pubrelBytes delivery.packetId)

open Delivery

section

variable [Vstr] {version : Version} {packetId : UInt16}

omit [Vstr] in
theorem controlBody_pubrel (hver : version.supported = true) (hid : packetId ≠ 0) :
    controlBody (pubrelPacket version packetId) = .ok (BigEndian.write 2 packetId.toNat) := by
  have hrsn : reasonCodeValid .pubrel version 0 = true := by
    cases version with
    | unspecified => cases hver
    | _ => rfl
  simp [controlBody, pubrelPacket, hrsn, hid]

/-- The PUBREL has the same bytes in every version. -/
theorem encode_pubrel (hver : version.supported = true) (hid : packetId ≠ 0) :
    controlPacketEncode (pubrelPacket version packetId) 32 = .ok (pubrelBytes packetId) := by
  have hprp : (if (pubrelPacket version packetId).version = .v5 then
      controlPropertiesValidate (pubrelPacket version packetId).type (pubrelPacket version packetId).properties
      else .ok ()) = .ok () := by
    split <;> rfl
  have hguard : (!controlType (pubrelPacket version packetId).type || !(pubrelPacket version packetId).version.supported) =
      false := by
    rw [show (pubrelPacket version packetId).version = version from rfl, hver]
    rfl
  unfold controlPacketEncode
  rw [hguard, if_neg (by simp), if_neg (by simp [pubrelPacket]), hprp]
  rw [controlBody_pubrel hver hid]
  show encodePacket .pubrel 2 (BigEndian.write 2 packetId.toNat) 32 = _
  unfold encodePacket
  rw [BigEndian.length_write, if_neg (by decide), if_neg (by decide)]
  rfl

theorem pubrelBytes_of_encode {bytes : Bytes} (h : controlPacketEncode (pubrelPacket version packetId) 32 = .ok bytes) :
    bytes = pubrelBytes packetId := by
  by_cases hver : version.supported = true
  · by_cases hid : packetId = 0
    · subst hid
      cases version with
      | unspecified => cases hver
      | v31 => cases h
      | v311 => cases h
      | v5 => cases h
    · rw [encode_pubrel hver hid] at h
      exact (Except.ok.inj h).symm
  · unfold controlPacketEncode at h
    rw [if_pos (by simpa [pubrelPacket] using Or.inr hver)] at h
    cases h

variable {version : Version} {op : Op} {delivery delivery' : Delivery}

/-- The delivery that waits for its PUBCOMP is handed out as it is. -/
theorem Delivery.AwaitsPubcomp.replayed (h : delivery.AwaitsPubcomp) {stored packet : Bytes} {now : UInt64}
    (hsto : delivery.packet = some stored) (hpkt : pendingPacket version delivery stored now = .ok packet) :
    delivery.replayed packet = delivery := by
  unfold pendingPacket at hpkt
  rw [if_pos h.expiry] at hpkt
  cases hpkt
  unfold Delivery.replayed
  rw [if_neg (by simp [h.state]), if_neg (by simp [h.state]), ← hsto]

/-- No operation changes it. -/
theorem Delivery.AwaitsPubcomp.unchanged (h : delivery.AwaitsPubcomp) (hchg : Change version op delivery delivery') :
    delivery' = delivery := by
  cases hchg with
  | committed _ _ _ _ hst =>
    rw [h.state] at hst
    cases hst
  | replayed _ _ stored packet _ hsto _ hpkt => exact h.replayed hsto hpkt
  | released _ _ _ hst =>
    rw [h.state] at hst
    cases hst

/-- A delivery that comes to wait for its PUBCOMP has its PUBREL. -/
theorem Change.awaitsPubcomp (hchg : Change version op delivery delivery')
    (hbef : delivery.state = .waitPubcomp → delivery.AwaitsPubcomp) (hst : delivery'.state = .waitPubcomp) :
    delivery'.AwaitsPubcomp := by
  cases hchg with
  | committed packet expiry queued =>
    have hst : (if queued then DeliveryState.queued else waitState delivery.qos) = .waitPubcomp := hst
    split_ifs at hst
    · exact absurd hst (waitState_ne_waitPubcomp _)
  | replayed _ _ stored packet _ hsto _ hpkt =>
    have hsame : delivery.state = .waitPubcomp := by
      unfold Delivery.replayed at hst
      split at hst
      · exact absurd hst (waitState_ne_waitPubcomp _)
      split at hst <;> exact hst
    rw [(hbef hsame).replayed hsto hpkt]
    exact hbef hsame
  | released _ pubrel _ _ hqos henc =>
    rw [pubrelBytes_of_encode henc]
    exact ⟨hqos, rfl, rfl, rfl⟩

/-- An acknowledgement of the delivery with a type and a reason code of the given kind. -/
def Acknowledges (kind : PacketType → UInt8 → Prop) (delivery : Delivery) (view : PacketView) : Prop :=
  ∃ control, controlPacketParse view = .ok control ∧ control.packetId = delivery.packetId ∧
    kind view.type control.reasonCode

/-- What ends a delivery that waits for its PUBCOMP: PUBCOMP, PUBREC with an error, a cancel, or the end of
    the session. -/
def Op.EndsRelease (owner : Owner) (delivery : Delivery) : Op → Prop
  | .ack view => Acknowledges (fun type reason => type = .pubcomp ∨ type = .pubrec ∧ 0x80 ≤ reason) delivery view
  | .cancel packetId => packetId = delivery.packetId
  | op => op.discards owner = true

/-- What ends a QoS 1 delivery: PUBACK, its expiry, a cancel, or the end of the session. -/
def Op.EndsQos1 (owner : Owner) (delivery : Delivery) : Op → Prop
  | .ack view => Acknowledges (fun type _ => type = .puback) delivery view
  | .cancel packetId => packetId = delivery.packetId
  | .expire now => delivery.expired now = true
  | .expirePacket packetId now => packetId = delivery.packetId ∧ delivery.expired now = true
  | op => op.discards owner = true

variable {owner owner' : Owner} {call : Call} {reply : Reply}

/-- An acknowledgement that ends a delivery is one it waits for; a PUBREC that ends it has an error. -/
theorem Acknowledges.of_ends {view : PacketView} (hop : (Op.ack view).ends owner delivery = true) :
    Acknowledges (fun type reason => ackExpected type delivery = true ∧ (type = .pubrec → 0x80 ≤ reason)) delivery view := by
  simp only [Op.ends, Op.discards, Op.removes, Bool.false_or] at hop
  split at hop
  · cases hop
  rename_i control hctl
  simp only [Bool.and_eq_true, beq_iff_eq, Bool.not_eq_true', Bool.and_eq_false_iff, beq_eq_false_iff_ne,
    decide_eq_false_iff_not] at hop
  obtain ⟨⟨hid, hexpct⟩, hkind⟩ := hop
  exact ⟨control, hctl, hid.symm, hexpct, fun hpubrec => UInt8.not_lt.1 (hkind.resolve_left fun hne => hne hpubrec)⟩

section
variable (hop : op.ends owner delivery = true)
  (htype : ∀ view, op = .ack view → view.type = .puback ∨ view.type = .pubrec ∨ view.type = .pubcomp)
include hop htype

theorem Op.EndsRelease.of_ends (h : delivery.AwaitsPubcomp) : op.EndsRelease owner delivery := by
  have hnever : ∀ now, delivery.expired now = false := fun now => by simp [expired, h.expiry]
  cases op with
  | ack view =>
    obtain ⟨control, hctl, hid, hexpct, hrsn⟩ := Acknowledges.of_ends hop
    refine ⟨control, hctl, hid, ?_⟩
    rcases htype view rfl with hpuback | hpubrec | hpubcomp
    · rw [hpuback] at hexpct
      simp [ackExpected, h.qos] at hexpct
    · exact .inr ⟨hpubrec, hrsn hpubrec⟩
    · exact .inl hpubcomp
  | cancel packetId =>
    simp only [Op.ends, Op.discards, Op.removes, Bool.false_or, beq_iff_eq] at hop
    exact hop.symm
  | expire now => simp [Op.ends, Op.discards, Op.removes, hnever] at hop
  | expirePacket packetId now => simp [Op.ends, Op.discards, Op.removes, hnever] at hop
  | _ =>
    show Op.discards owner _ = true
    simpa [Op.ends, Op.removes] using hop

theorem Op.EndsQos1.of_ends (h : delivery.qos = 1) : op.EndsQos1 owner delivery := by
  cases op with
  | ack view =>
    obtain ⟨control, hctl, hid, hexpct, -⟩ := Acknowledges.of_ends hop
    refine ⟨control, hctl, hid, ?_⟩
    rcases htype view rfl with hpuback | hpubrec | hpubcomp
    · exact hpuback
    · rw [hpubrec] at hexpct
      simp [ackExpected, h] at hexpct
    · rw [hpubcomp] at hexpct
      simp [ackExpected, h] at hexpct
  | cancel packetId =>
    simp only [Op.ends, Op.discards, Op.removes, Bool.false_or, beq_iff_eq] at hop
    exact hop.symm
  | expire now =>
    show delivery.expired now = true
    simpa [Op.ends, Op.discards, Op.removes] using hop
  | expirePacket packetId now =>
    simp only [Op.ends, Op.discards, Op.removes, Bool.false_or, Bool.and_eq_true, beq_iff_eq] at hop
    exact ⟨hop.1.symm, hop.2⟩
  | _ =>
    show Op.discards owner _ = true
    simpa [Op.ends, Op.removes] using hop

end

theorem inPlace_ack_type (h : inPlace owner call = (owner', .ok reply)) (view : PacketView) (hop : call.asOp = .ack view) :
    view.type = .puback ∨ view.type = .pubrec ∨ view.type = .pubcomp := by
  cases call with
  | op operation =>
    obtain rfl : operation = .ack view := hop
    obtain ⟨answer, hack, -⟩ := replied_eq_ok (inPlace_op_eq_ok.1 h)
    exact (deliveryAck_eq_ok hack).1
  | openSession _ => cases hop
  | pendingAt _ => cases hop

/-- What a call does to a delivery: it keeps it, rolls a reservation back, changes it or ends it. -/
theorem inPlace_fate (hmem : delivery ∈ owner.deliveries.entries) (call : Call) :
    delivery ∈ (inPlace owner call).1.deliveries.entries ∨
      (delivery.state = .reserved ∧ delivery.rolledBack ∈ (inPlace owner call).1.deliveries.entries) ∨
      (∃ changed ∈ (inPlace owner call).1.deliveries.entries, Change owner.version call.asOp delivery changed) ∨
      call.asOp.ends owner delivery = true ∧
        ∀ view, call.asOp = .ack view → view.type = .puback ∨ view.type = .pubrec ∨ view.type = .pubcomp := by
  cases hcall : inPlace owner call with
  | mk owner' result =>
    cases result with
    | error e =>
      rcases inPlace_eq_error hcall with rfl | ⟨reserved, index, hent, hst, rfl⟩
      · exact .inl hmem
      rcases mem_modifyAt_of_mem rolledBack (fun _ => rfl) hent hmem with hkept | ⟨rfl, hchg⟩
      · exact .inl hkept
      · exact .inr (.inl ⟨hst, hchg⟩)
    | ok reply =>
      obtain ⟨reply', ht⟩ := inPlace_transition hcall
      rcases ht.fate hmem with hkept | hchange | hends
      · exact .inl hkept
      · exact .inr (.inr (.inl hchange))
      · exact .inr (.inr (.inr ⟨hends, inPlace_ack_type hcall⟩))

/-- A call keeps a delivery that waits for its PUBCOMP, or ends it. -/
theorem Delivery.AwaitsPubcomp.inPlace (h : delivery.AwaitsPubcomp) (hmem : delivery ∈ owner.deliveries.entries) (call : Call) :
    delivery ∈ (inPlace owner call).1.deliveries.entries ∨ call.asOp.EndsRelease owner delivery := by
  rcases inPlace_fate hmem call with hkept | ⟨hst, -⟩ | ⟨changed, hchg, hchange⟩ | ⟨hends, htype⟩
  · exact .inl hkept
  · rw [h.state] at hst
    cases hst
  · rw [h.unchanged hchange] at hchg
    exact .inl hchg
  · exact .inr (.of_ends hends htype h)

def HasQos1 (packetId : UInt16) (owner : Owner) : Prop :=
  ∃ delivery ∈ owner.deliveries.entries, delivery.packetId = packetId ∧ delivery.qos = 1

theorem HasQos1.inPlace (hmem : delivery ∈ owner.deliveries.entries) (hqos : delivery.qos = 1) (call : Call) :
    HasQos1 delivery.packetId (inPlace owner call).1 ∨ call.asOp.EndsQos1 owner delivery := by
  rcases inPlace_fate hmem call with hkept | ⟨-, hback⟩ | ⟨changed, hchg, hchange⟩ | ⟨hends, htype⟩
  · exact .inl ⟨delivery, hkept, rfl, hqos⟩
  · exact .inl ⟨_, hback, rfl, hqos⟩
  · exact .inl ⟨changed, hchg, hchange.packetId, hchange.qos.trans hqos⟩
  · exact .inr (.of_ends hends htype hqos)

variable [Ltv]

/-- An event in the life of a session: a call, or the session stored and restored. -/
inductive LifeEvent where
  | call (call : Call)
  | recordReload (config : SessionConfig) (capacity : Nat)
  | repositoryReload (config : SessionConfig)

/-- The owner after an event; when it cannot be stored or restored it stays. -/
def LifeEvent.next (owner : Owner) : LifeEvent → Owner
  | .call call => (inPlace owner call).1
  | .recordReload config capacity =>
    match recordEncode owner capacity with
    | .error _ => owner
    | .ok bytes =>
      match recordRestore config (owner.clientId.getD []) owner.resourceGeneration bytes with
      | .error _ => owner
      | .ok restored => restored
  | .repositoryReload config =>
    match repositorySnapshot owner with
    | .error _ => owner
    | .ok row =>
      match repositoryRestore config row with
      | .error _ => owner
      | .ok restored => restored

def lifeRun (owner : Owner) (events : List LifeEvent) : Owner := events.foldl LifeEvent.next owner

/-- What ends a delivery that waits for its PUBCOMP; storing and restoring does not. -/
def LifeEvent.EndsRelease (owner : Owner) (delivery : Delivery) : LifeEvent → Prop
  | .call call => call.asOp.EndsRelease owner delivery
  | _ => False

/-- What ends a QoS 1 delivery; storing and restoring ends only one without a packet. -/
def LifeEvent.EndsQos1 (owner : Owner) (delivery : Delivery) : LifeEvent → Prop
  | .call call => call.asOp.EndsQos1 owner delivery
  | _ => delivery.state = .reserved

/-- A reload leaves the owner, or one with the deliveries that had a packet. -/
theorem LifeEvent.next_reload [LawfulLtv] (owner : Owner) (event : LifeEvent) (hcall : ∀ call, event ≠ .call call) :
    event.next owner = owner ∨ (event.next owner).deliveries.entries = owner.persisted.map stored := by
  cases event with
  | call call => exact absurd rfl (hcall call)
  | recordReload config capacity =>
    unfold LifeEvent.next
    dsimp only
    split
    · exact .inl rfl
    rename_i bytes henc
    split
    · exact .inl rfl
    · rename_i restored hrest
      exact .inr (recordRestore_deliveries henc hrest)
  | repositoryReload config =>
    unfold LifeEvent.next
    dsimp only
    split
    · exact .inl rfl
    rename_i row hsnapshot
    split
    · exact .inl rfl
    · rename_i restored hrest
      exact .inr (repositoryRestore_deliveries hsnapshot hrest)

theorem Delivery.AwaitsPubcomp.next [LawfulLtv] (h : delivery.AwaitsPubcomp) (hmem : delivery ∈ owner.deliveries.entries)
    (event : LifeEvent) : delivery ∈ (event.next owner).deliveries.entries ∨ event.EndsRelease owner delivery := by
  by_cases hcall : ∃ call, event = .call call
  · obtain ⟨call, rfl⟩ := hcall
    exact h.inPlace hmem call
  rcases event.next_reload owner (fun call hev => hcall ⟨call, hev⟩) with hsame | hents
  · rw [hsame]
    exact .inl hmem
  have hsto : delivery.stored = delivery := by
    unfold stored storedState
    rw [if_neg (by simp [h.state])]
  have hpers : delivery ∈ owner.persisted := List.mem_filter.2 ⟨hmem, by simp [persisted, h.state]⟩
  rw [hents]
  exact .inl (List.mem_map.2 ⟨delivery, hpers, hsto⟩)

theorem HasQos1.next [LawfulLtv] (h : HasQos1 packetId owner) (event : LifeEvent) :
    HasQos1 packetId (event.next owner) ∨
      ∃ delivery ∈ owner.deliveries.entries, delivery.packetId = packetId ∧ event.EndsQos1 owner delivery := by
  obtain ⟨delivery, hmem, rfl, hqos⟩ := h
  by_cases hcall : ∃ call, event = .call call
  · obtain ⟨call, rfl⟩ := hcall
    rcases HasQos1.inPlace hmem hqos call with hkept | hends
    · exact .inl hkept
    · exact .inr ⟨delivery, hmem, rfl, hends⟩
  · rcases event.next_reload owner (fun call hev => hcall ⟨call, hev⟩) with hsame | hents
    · rw [hsame]
      exact .inl ⟨delivery, hmem, rfl, hqos⟩
    by_cases hst : delivery.state = .reserved
    · refine .inr ⟨delivery, hmem, rfl, ?_⟩
      cases event with
      | call call => exact absurd ⟨call, rfl⟩ hcall
      | _ => exact hst
    · have hpers : delivery ∈ owner.persisted := List.mem_filter.2 ⟨hmem, by simpa [persisted] using hst⟩
      refine .inl ⟨delivery.stored, ?_, rfl, hqos⟩
      rw [hents]
      exact List.mem_map_of_mem hpers

/-- Every delivery that waits for its PUBCOMP has its PUBREL. -/
def Releases (owner : Owner) : Prop :=
  ∀ delivery ∈ owner.deliveries.entries, delivery.state = .waitPubcomp → delivery.AwaitsPubcomp

section
variable (h : Releases owner)
include h

omit [Ltv] in
theorem Releases.transition (ht : Transition owner op owner' reply) : Releases owner' := by
  intro delivery hmem hst
  rcases ht.origin hmem with hold | ⟨before, hbef, hchg⟩ | ⟨qos, packetId, -, -, rfl⟩
  · exact h delivery hold hst
  · exact hchg.awaitsPubcomp (h before hbef) hst
  · cases hst

theorem Releases.next [LawfulLtv] (event : LifeEvent) : Releases (event.next owner) := by
  by_cases hcall : ∃ call, event = .call call
  · obtain ⟨call, rfl⟩ := hcall
    show Releases (inPlace owner call).1
    cases hres : Session.inPlace owner call with
    | mk owner' result =>
      cases result with
      | error e =>
        rcases inPlace_eq_error hres with rfl | ⟨reserved, index, hent, -, rfl⟩
        · exact h
        intro delivery hmem hst
        rcases mem_of_mem_modifyAt rolledBack (fun _ => rfl) hent hmem with hold | rfl
        · exact h delivery hold hst
        · cases hst
      | ok reply =>
        obtain ⟨reply', ht⟩ := inPlace_transition hres
        exact h.transition ht
  · rcases event.next_reload owner (fun call hev => hcall ⟨call, hev⟩) with hsame | hents
    · rw [hsame]
      exact h
    intro delivery hmem hst
    rw [hents] at hmem
    obtain ⟨before, hbef, rfl⟩ := List.mem_map.1 hmem
    have hbeforeState : before.state = .waitPubcomp := by
      unfold stored storedState at hst
      split at hst
      · exact absurd hst (waitState_ne_waitPubcomp _)
      · exact hst
    have hsto : before.stored = before := by
      unfold stored storedState
      rw [if_neg (by simp [hbeforeState])]
    rw [hsto]
    exact h before (List.mem_filter.1 hbef).1 hbeforeState

theorem Releases.run [LawfulLtv] (events : List LifeEvent) : Releases (lifeRun owner events) := by
  unfold lifeRun
  induction events generalizing owner with
  | nil => exact h
  | cons event events ih => exact ih (h.next event)

end

section

omit [Ltv]

/-- The acknowledgement is one that the delivery it names waits for. -/
def AckDue (owner : Owner) (view : PacketView) : Prop :=
  ∃ control delivery index, controlPacketParse view = .ok control ∧
    deliveryLookup owner control.packetId = .ok (delivery, index) ∧
    (view.type = .puback ∧ delivery.qos = 1 ∧ delivery.state = .waitAck ∨
      view.type = .pubrec ∧ delivery.qos = 2 ∧ (delivery.state = .waitPubrec ∨ delivery.state = .waitPubcomp) ∨
      view.type = .pubcomp ∧ delivery.qos = 2 ∧ delivery.state = .waitPubcomp)

variable {view : PacketView}

/-- Any other acknowledgement leaves the owner. -/
theorem ack_not_due (h : ¬AckDue owner view) : (inPlace owner (.op (.ack view))).1 = owner := by
  rw [inPlace_op (fun _ _ _ _ hop => by cases hop)]
  cases hstep : step owner (.ack view) with
  | error e => rfl
  | ok result =>
    obtain ⟨owner', reply⟩ := result
    obtain ⟨answer, hack, -⟩ := replied_eq_ok hstep
    obtain ⟨htype, control, delivery, index, hctl, hlook, hexpct, -⟩ := deliveryAck_eq_ok hack
    refine absurd ⟨control, delivery, index, hctl, hlook, ?_⟩ h
    rcases htype with htype | htype | htype <;> rw [htype] at hexpct <;>
      simp only [ackExpected, Bool.and_eq_true, Bool.or_eq_true, beq_iff_eq] at hexpct
    · exact .inl ⟨htype, hexpct⟩
    · exact .inr (.inl ⟨htype, hexpct⟩)
    · exact .inr (.inr ⟨htype, hexpct⟩)

/-- A PUBREC without an error leaves its delivery with the PUBREL; a repeated one changes only the
    generation. -/
theorem pubrec_accepted {control : ControlView} (hreleases : Releases owner)
    (h : step owner (.ack view) = .ok (owner', reply)) (hctl : controlPacketParse view = .ok control)
    (htype : view.type = .pubrec) (hrsn : control.reasonCode < 0x80) :
    ∃ delivery ∈ owner'.deliveries.entries, delivery.packetId = control.packetId ∧ delivery.AwaitsPubcomp ∧
      (delivery ∈ owner.deliveries.entries → owner' = owner.advanced) := by
  have hreleases' := hreleases.transition (step_transition h)
  obtain ⟨answer, hack, -⟩ := replied_eq_ok h
  obtain ⟨-, control', found, index, hctl', hlook, hexpct, -, hcases⟩ := deliveryAck_eq_ok hack
  obtain rfl : control = control' := Except.ok.inj (hctl.symm.trans hctl')
  obtain ⟨-, hent, hid⟩ := deliveryLookup_eq_ok.1 hlook
  have hmem := List.mem_of_getElem? hent
  rcases hcases with ⟨-, -, hst, pubrel, -, rfl⟩ | ⟨-, -, hst, rfl⟩ | ⟨hnot, -⟩
  · have hchg := mem_modifyAt_changed (·.released pubrel) (fun _ => rfl) hent
    refine ⟨found.released pubrel, hchg, hid, hreleases' _ hchg rfl, fun hold => ?_⟩
    -- the delivery with this packet identifier was waiting for its PUBREC
    obtain ⟨place, hplc⟩ := List.getElem?_of_mem hold
    obtain rfl := owner.deliveries.key_injective hplc hent rfl
    rw [← Option.mem_unique hplc hent] at hst
    cases hst
  · rw [htype] at hexpct
    simp only [ackExpected, Bool.and_eq_true, Bool.or_eq_true, beq_iff_eq] at hexpct
    exact ⟨found, hmem, hid, hreleases found hmem (hexpct.2.resolve_left hst), fun _ => rfl⟩
  · exact absurd ⟨htype, hrsn⟩ hnot

end

/-- In every history of one owner: an accepted PUBREC without an error leaves the delivery with its encoded
    PUBREL and no expiry; from then on the delivery stays as it is until PUBCOMP, PUBREC with an error, a cancel
    or the end of the session, and it is handed out as that PUBREL. A QoS 1 delivery stays until PUBACK, its
    expiry, a cancel or the end of the session. Any other acknowledgement leaves the owner. -/
theorem outbound_progress [LawfulLtv] {config : SessionConfig} {created : Owner} (hcr : ownerCreate config = some created)
    (events : List LifeEvent) :
    (∀ view control owner' reply, step (lifeRun created events) (.ack view) = .ok (owner', reply) →
      controlPacketParse view = .ok control → view.type = .pubrec → control.reasonCode < 0x80 →
        (∃ delivery ∈ owner'.deliveries.entries, delivery.packetId = control.packetId ∧ delivery.AwaitsPubcomp ∧
          (delivery ∈ (lifeRun created events).deliveries.entries → owner' = (lifeRun created events).advanced)) ∧
        ∀ version : Version, version.supported = true →
          controlPacketEncode (pubrelPacket version control.packetId) 32 = .ok (pubrelBytes control.packetId)) ∧
    (∀ delivery ∈ (lifeRun created events).deliveries.entries, delivery.AwaitsPubcomp →
      (∀ later, delivery ∈ (lifeRun (lifeRun created events) later).deliveries.entries ∨
        ∃ before event, before ++ [event] <+: later ∧
          delivery ∈ (lifeRun (lifeRun created events) before).deliveries.entries ∧
          event.EndsRelease (lifeRun (lifeRun created events) before) delivery) ∧
      ∀ index now owner' handed, deliveryPendingAtEx (lifeRun created events) index now = .ok (owner', handed) →
        handed.packetId = delivery.packetId → handed = delivery) ∧
    (∀ packetId, HasQos1 packetId (lifeRun created events) → ∀ later,
      HasQos1 packetId (lifeRun (lifeRun created events) later) ∨
        ∃ before event, before ++ [event] <+: later ∧
          ∃ delivery ∈ (lifeRun (lifeRun created events) before).deliveries.entries, delivery.packetId = packetId ∧
            event.EndsQos1 (lifeRun (lifeRun created events) before) delivery) ∧
    ∀ view, ¬AckDue (lifeRun created events) view →
      (inPlace (lifeRun created events) (.op (.ack view))).1 = lifeRun created events := by
  have hstart : Releases created := by
    obtain ⟨-, -, hents, -⟩ := ownerCreate_eq_some hcr
    intro delivery hmem
    rw [hents] at hmem
    cases hmem
  have hreleases := hstart.run events
  generalize lifeRun created events = owner at *
  refine ⟨?_, ?_, ?_, fun view hnot => ack_not_due hnot⟩
  · intro view control owner' reply hstep hctl htype hrsn
    refine ⟨pubrec_accepted hreleases hstep hctl htype hrsn, fun version hver => ?_⟩
    obtain ⟨answer, hack, -⟩ := replied_eq_ok hstep
    obtain ⟨-, control', _, _, hctl', hlook, -⟩ := deliveryAck_eq_ok hack
    obtain rfl : control = control' := Except.ok.inj (hctl.symm.trans hctl')
    exact encode_pubrel hver (deliveryLookup_eq_ok.1 hlook).1
  · intro delivery hmem hawaits
    refine ⟨fun later => ?_, ?_⟩
    · exact Run.kept_or_ended (S := fun _ => True) (P := fun o : Owner => delivery ∈ o.deliveries.entries)
        (fun _ _ _ => trivial) (fun o event _ hin => hawaits.next hin event) trivial hmem later
    intro index now owner' handed hpend hid
    obtain ⟨found, stored, packet, hent, hsto, -, hpkt, -, rfl⟩ := deliveryPendingAtEx_eq_ok hpend
    rw [replayed_packetId] at hid
    obtain ⟨place, hplc⟩ := List.getElem?_of_mem hmem
    obtain rfl := owner.deliveries.key_injective hent hplc hid
    obtain rfl : found = delivery := Option.mem_unique hent hplc
    exact hawaits.replayed hsto hpkt
  · intro packetId hqos later
    rcases Run.kept_or_ended (S := fun _ => True) (P := HasQos1 packetId)
      (E := fun o event => ∃ delivery ∈ o.deliveries.entries, delivery.packetId = packetId ∧ event.EndsQos1 o delivery)
      (fun _ _ _ => trivial) (fun o event _ h => h.next event) trivial hqos later with
      hkept | ⟨before, event, hprefix, -, hends⟩
    · exact .inl hkept
    · exact .inr ⟨before, event, hprefix, hends⟩

end

section

attribute [local instance] asciiVstr plainLtv

def sentQos2 : List LifeEvent :=
  [.call (.op (.connect persistentConnect false)), .call (.op (.reserve 2)),
    .call (.op (.commit 1 [0x34, 5, 0, 1, 116, 0, 1] 0 false))]

/-- Its PUBREC exchanges the packet for the PUBREL. -/
theorem outbound_progress_released :
    ∃ owner' reply, step (lifeRun smallOwner sentQos2) (.ack ⟨.v311, .pubrec, 0, [0, 1]⟩) = .ok (owner', reply) ∧
      ∃ delivery ∈ owner'.deliveries.entries, delivery.packetId = 1 ∧ delivery.AwaitsPubcomp := by
  have := plainLtv_lawful
  obtain ⟨delivery, hmem, hid, hawaits, -⟩ := ((outbound_progress ownerCreate_smallConfig sentQos2).1
    ⟨.v311, .pubrec, 0, [0, 1]⟩ ⟨.v311, .pubrec, false, 1, 0, [], []⟩ _ _ rfl rfl rfl (by decide)).1
  exact ⟨_, _, rfl, delivery, hmem, hid, hawaits⟩

end

end Flowie.Session
