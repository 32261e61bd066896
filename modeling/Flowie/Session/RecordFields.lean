import Flowie.Session.Durable
import Flowie.Session.Record

/-!
# The messages of a session record

The messages of a record are read back one by one as they were appended (`restoreLoop_written`), and
every message gives back what was written into it.
-/

namespace Flowie.Session

open List Ltv BigEndian Mqtt

section Encode

variable [Ltv]

def wireTotal (fields : List (UInt8 × Bytes)) : Nat := (fields.map fun field => wireSize field.2.length).sum

/-- Messages the library can write. -/
def Writable (fields : List (UInt8 × Bytes)) : Prop :=
  ∀ field ∈ fields, field.1 ≠ 0 ∧ wireSize field.2.length ≠ 0

/-- The bytes are the messages, one built after the other. -/
inductive Written : List (UInt8 × Bytes) → Bytes → Prop
  | nil : Written [] []
  | cons {type : UInt8} {value tail : Bytes} {rest : List (UInt8 × Bytes)} (capacity : Nat)
      (hroom : wireSize value.length ≤ capacity) (htail : Written rest tail) :
      Written ((type, value) :: rest) (build type value capacity ++ tail)

variable {fields : List (UInt8 × Bytes)}

theorem recordSizeLoop_eq_ok {total : Nat} (hw : Writable fields) (hmax : total + wireTotal fields ≤ sizeMax) :
    recordSizeLoop (fields.map fun field => .ok field.2.length) total = .ok (total + wireTotal fields) := by
  induction fields generalizing total with
  | nil => rfl
  | cons field rest ih =>
    have hne := (hw field mem_cons_self).2
    have hsum : wireTotal (field :: rest) = wireSize field.2.length + wireTotal rest := by
      unfold wireTotal
      rw [map_cons, sum_cons]
    rw [hsum] at hmax ⊢
    have hadd : recordSizeAdd total field.2.length = .ok (total + wireSize field.2.length) := by
      unfold recordSizeAdd
      rw [if_neg]
      omega
    rw [map_cons, recordSizeLoop, hadd]
    dsimp only
    rw [ih (fun f hf => hw f (mem_cons_of_mem _ hf)) (by omega)]
    congr 1
    omega

theorem recordAppendLoop_eq_ok [LawfulLtv] {capacity : Nat} {out : Bytes}
    (hw : Writable fields) (hroom : out.length + wireTotal fields ≤ capacity) :
    ∃ bytes, recordAppendLoop capacity fields out = .ok (out ++ bytes) ∧ Written fields bytes ∧
      bytes.length = wireTotal fields := by
  induction fields generalizing out with
  | nil => exact ⟨[], by simp [recordAppendLoop], .nil, rfl⟩
  | cons field rest ih =>
    obtain ⟨type, value⟩ := field
    obtain ⟨htype, hne⟩ : type ≠ 0 ∧ wireSize value.length ≠ 0 := hw _ mem_cons_self
    have hsum : wireTotal ((type, value) :: rest) = wireSize value.length + wireTotal rest := by
      unfold wireTotal
      rw [map_cons, sum_cons]
    rw [hsum] at hroom ⊢
    have hfits : wireSize value.length ≤ capacity - out.length := by omega
    have hlen := LawfulLtv.length_build type value (capacity - out.length) htype hne hfits
    have happ : recordAppend capacity out type value = .ok (out ++ build type value (capacity - out.length)) := by
      unfold recordAppend
      rw [if_neg (by simp only [htype, false_or]; omega), if_neg (by omega), if_neg (not_not.2 hlen)]
    have hnext : (out ++ build type value (capacity - out.length)).length + wireTotal rest ≤ capacity := by
      rw [length_append, hlen]
      omega
    obtain ⟨bytes, hloop, hwr, hbs⟩ := ih (fun f hf => hw f (mem_cons_of_mem _ hf)) hnext
    refine ⟨build type value (capacity - out.length) ++ bytes, ?_, .cons _ hfits hwr, ?_⟩
    · rw [recordAppendLoop, happ]
      dsimp only
      rw [hloop, append_assoc]
    · rw [length_append, hlen, hbs]

theorem Written.ne_nil [LawfulLtv] {field : UInt8 × Bytes} {rest : List (UInt8 × Bytes)} {bytes : Bytes}
    (h : Written (field :: rest) bytes) (hw : Writable (field :: rest)) : bytes ≠ [] := by
  obtain ⟨htype, hne⟩ := hw field mem_cons_self
  cases h with
  | @cons type value tail _ capacity hroom htail =>
    intro hnil
    have hlen := LawfulLtv.length_build type value capacity htype hne hroom
    rw [(List.append_eq_nil_iff.1 hnil).1] at hlen
    exact hne hlen.symm

end Encode

section Restore

variable [Vstr] [Ltv]

def restoreFields (config : SessionConfig) : List (UInt8 × Bytes) → RestoreState → Except Errno RestoreState
  | [], st => .ok st
  | (type, value) :: rest, st =>
    match restoreField config st type value with
    | .error e => .error e
    | .ok st => restoreFields config rest (st.passed type (wireSize value.length))

section

variable {config : SessionConfig} {st st' : RestoreState} {type : UInt8} {value : Bytes}

omit [Ltv] in
theorem restoreField_ok (h : restoreField config st type value = .ok st') : restoreMessage config st type value = .ok st' := by
  unfold restoreField at h
  split_ifs at h
  · exact h

theorem restoreFields_cons_ok {rest : List (UInt8 × Bytes)} (h : restoreFields config ((type, value) :: rest) st = .ok st') :
    ∃ next, restoreMessage config st type value = .ok next ∧
      restoreFields config rest (next.passed type (wireSize value.length)) = .ok st' := by
  unfold restoreFields at h
  split at h
  · cases h
  rename_i next hfld
  exact ⟨next, restoreField_ok hfld, h⟩

end

theorem restoreFields_append (config : SessionConfig) (a b : List (UInt8 × Bytes)) (st : RestoreState) :
    restoreFields config (a ++ b) st = (restoreFields config a st).bind (restoreFields config b) := by
  induction a generalizing st with
  | nil => rfl
  | cons field rest ih =>
    obtain ⟨type, value⟩ := field
    rw [cons_append, restoreFields, restoreFields]
    split
    · rfl
    · exact ih _

/-- The loop reads the messages that were written. -/
theorem restoreLoop_written [LawfulLtv] {config : SessionConfig} {fields : List (UInt8 × Bytes)} {bytes : Bytes}
    (h : Written fields bytes) (hw : Writable fields) {fuel : Nat} (hfuel : bytes.length ≤ fuel) (st : RestoreState) :
    restoreLoop config fuel bytes st = restoreFields config fields st := by
  induction h generalizing fuel st with
  | nil =>
    cases fuel <;> rfl
  | @cons type value tail rest capacity hroom htail ih =>
    obtain ⟨htype, hne⟩ : type ≠ 0 ∧ wireSize value.length ≠ 0 := hw _ mem_cons_self
    have hlen := LawfulLtv.length_build type value capacity htype hne hroom
    obtain ⟨payload, header, hpay, hsize, hpeek⟩ :=
      LawfulLtv.peekSize_build type value capacity tail htype hne hroom
    have hpar := LawfulLtv.parse_build type value capacity htype hne hroom
    rw [length_append, hlen] at hfuel
    cases fuel with
    | zero => omega
    | succ fuel =>
      have hnonempty : ¬(build type value capacity ++ tail).isEmpty = true := by
        intro hempty
        have hnil := congrArg List.length (List.isEmpty_iff.1 hempty)
        rw [length_append, hlen, length_nil] at hnil
        omega
      rw [restoreLoop, if_neg hnonempty, hpeek]
      dsimp only
      rw [if_neg (by rw [length_append, hlen]; omega), hsize, ← hlen, take_left, hpar]
      dsimp only
      rw [restoreFields, drop_left]
      cases restoreField config st type value with
      | error e => rfl
      | ok st' =>
        rw [hlen]
        exact ih (fun f hf => hw f (mem_cons_of_mem _ hf)) (by omega) _

end Restore

section Fields

theorem readAt_of_split (pre post : Bytes) {value : Bytes} {offset width n : Nat}
    (h : value = pre ++ (write width n ++ post)) (hoffset : pre.length = offset) (hn : n < 256 ^ width) :
    readAt value offset width = n := by
  unfold readAt
  rw [h, drop_left' hoffset, take_left' length_write, read_write hn]

theorem Version.ofByte_toByte {version : Version} (h : version.supported = true) :
    Version.ofByte version.toByte = version := by
  cases version with
  | unspecified => cases h
  | v31 => rfl
  | v311 => rfl
  | v5 => rfl

theorem length_recordMetadata (owner : Owner) : (recordMetadata owner).length = 25 := by
  simp [recordMetadata]

variable {st : RestoreState} {owner : Owner}

theorem readAt_sessionGeneration : readAt (recordMetadata owner) 9 8 = owner.sessionGeneration.toNat :=
  readAt_of_split ([owner.version.toByte] ++ write 8 owner.config.sessionId.toNat) _
    (by simp [recordMetadata]; rfl) (by simp) (UInt64.toNat_lt _)

theorem restoreMetadata_record (hhdr : st.headerSeen = true) (hseen : st.metadataSeen = false)
    (hver : owner.version.supported = true) (hid : owner.config.sessionId ≠ 0) (hgen : owner.sessionGeneration ≠ 0) :
    restoreMetadata st (recordMetadata owner) =
      .ok
        { st with
          owner :=
            { st.owner with
              config := { st.owner.config with sessionId := owner.config.sessionId }
              version := owner.version
              sessionGeneration := owner.sessionGeneration
              keepAlive := owner.keepAlive
              sessionExpiryInterval := owner.sessionExpiryInterval
              nextDeliveryPacketId := owner.nextDeliveryPacketId }
          metadataSeen := true } := by
  have hsess : readAt (recordMetadata owner) 1 8 = owner.config.sessionId.toNat :=
    readAt_of_split [owner.version.toByte] _ (by simp [recordMetadata]; rfl) rfl (UInt64.toNat_lt _)
  have hkeepAlive : readAt (recordMetadata owner) 17 2 = owner.keepAlive.toNat :=
    readAt_of_split ([owner.version.toByte] ++ write 8 owner.config.sessionId.toNat ++
      write 8 owner.sessionGeneration.toNat) _ (by simp [recordMetadata]; rfl) (by simp) (UInt16.toNat_lt _)
  have hexp : readAt (recordMetadata owner) 19 4 = owner.sessionExpiryInterval.toNat :=
    readAt_of_split ([owner.version.toByte] ++ write 8 owner.config.sessionId.toNat ++
      write 8 owner.sessionGeneration.toNat ++ write 2 owner.keepAlive.toNat) _
      (by simp [recordMetadata]; rfl) (by simp) (UInt32.toNat_lt _)
  have hnext : readAt (recordMetadata owner) 23 2 = owner.nextDeliveryPacketId.toNat :=
    readAt_of_split ([owner.version.toByte] ++ write 8 owner.config.sessionId.toNat ++
      write 8 owner.sessionGeneration.toNat ++ write 2 owner.keepAlive.toNat ++
      write 4 owner.sessionExpiryInterval.toNat) []
      (by simp [recordMetadata]) (by simp) (UInt16.toNat_lt _)
  have hbyte : Version.ofByte (byteAt (recordMetadata owner) 0) = owner.version := Version.ofByte_toByte hver
  unfold restoreMetadata
  rw [if_neg (by simp [hhdr, hseen, length_recordMetadata])]
  rw [hsess, readAt_sessionGeneration, hkeepAlive, hexp, hnext, hbyte, UInt64.ofNat_toNat, UInt64.ofNat_toNat,
    UInt16.ofNat_toNat, UInt16.ofNat_toNat, UInt32.ofNat_toNat, if_neg (by simp [hver, hid, hgen])]

theorem toUInt8_le_one (b : Bool) : ¬b.toUInt8 > 1 := by cases b <;> decide

theorem toUInt8_beq_one (b : Bool) : (b.toUInt8 == 1) = b := by cases b <;> rfl

def Subscription.bare (subscription : Subscription) : Subscription := ⟨subscription.filter, 0, false, false, 0, 0⟩

theorem restoreOptions_record [Vstr] {subscription : Subscription} (hval : subscription.Valid) (hminor : st.recordMinor = 3)
    (hent : st.owner.subscriptions[st.optionIndex]? = some subscription.bare) :
    restoreOptions st (recordOptions subscription) =
      .ok
        { st with
          owner := { st.owner with subscriptions := st.owner.subscriptions.set st.optionIndex subscription }
          optionIndex := st.optionIndex + 1 } := by
  have hidn : readAt (recordOptions subscription) 4 4 = subscription.subscriptionIdentifier.toNat :=
    readAt_of_split [subscription.qos, subscription.noLocal.toUInt8, subscription.retainAsPublished.toUInt8,
      subscription.retainHandling] [] (by simp [recordOptions]) rfl (UInt32.toNat_lt _)
  have hqos : byteAt (recordOptions subscription) 0 = subscription.qos := rfl
  have hnoLocal : byteAt (recordOptions subscription) 1 = subscription.noLocal.toUInt8 := rfl
  have hret : byteAt (recordOptions subscription) 2 = subscription.retainAsPublished.toUInt8 := rfl
  have hhnd : byteAt (recordOptions subscription) 3 = subscription.retainHandling := rfl
  have hlen : (recordOptions subscription).length = 8 := by simp [recordOptions]
  have hqos2 : ¬subscription.qos > 2 := UInt8.not_lt.2 hval.qos
  have hhandling2 : ¬subscription.retainHandling > 2 := UInt8.not_lt.2 hval.retainHandling
  have hle : ¬subscription.subscriptionIdentifier.toNat > maxRemainingLength := Nat.not_lt.2 hval.identifier
  have hnew : st.recordMinor ≥ 2 := by rw [hminor]; decide
  unfold restoreOptions
  rw [hent]
  dsimp only
  rw [if_pos hnew, if_pos hnew, hidn, hqos, hnoLocal, hret, hhnd, hlen,
    if_neg (by simp [hqos2, hhandling2, toUInt8_le_one]), UInt32.ofNat_toNat, if_neg hle, toUInt8_beq_one,
    toUInt8_beq_one]
  rfl

variable {config : SessionConfig}

theorem restoreInflight_record {entry : Inflight} (hid : entry.packetId ≠ 0) (hqos : entry.qos = 2)
    (hst : entry.state = .qos2Release)
    (hsp : st.owner.inflight.length + st.owner.deliveries.entries.length < config.maxInflight)
    (hfr : ∀ e ∈ st.owner.inflight, e.packetId ≠ entry.packetId) :
    restoreInflight config st (recordInflight entry) =
      .ok { st with owner := { st.owner with inflight := st.owner.inflight ++ [entry] } } := by
  have hpid : readAt (recordInflight entry) 0 2 = entry.packetId.toNat :=
    readAt_of_split [] [entry.qos] rfl rfl (UInt16.toNat_lt _)
  have hbyte : byteAt (recordInflight entry) 2 = entry.qos := rfl
  have hlen : (recordInflight entry).length = 3 := by simp [recordInflight]
  unfold restoreInflight
  rw [hpid, hbyte, hlen, hqos, if_neg (by simp; omega)]
  rw [UInt16.ofNat_toNat, if_neg (by simp [hid, inflightFind_eq_none.2 hfr]), ← hqos, ← hst]

variable {delivery : Delivery}

theorem ofStored_storedState (h : delivery.persisted = true) :
    DeliveryState.ofStored delivery.storedState.toByte = some delivery.storedState := by
  unfold Delivery.storedState waitState
  unfold Delivery.persisted at h
  cases hst : delivery.state with
  | reserved =>
    rw [hst] at h
    cases h
  | queued => by_cases hq : delivery.qos = 1 <;> simp [hq] <;> rfl
  | _ => rfl

def Delivery.bare (delivery : Delivery) : Delivery := { delivery with state := delivery.storedState, packet := none }

theorem readAt_recordDelivery (delivery : Delivery) :
    readAt (recordDelivery delivery) 0 2 = delivery.packetId.toNat ∧
      readAt (recordDelivery delivery) 4 8 = delivery.expiryAtEpochSeconds.toNat ∧
      (recordDelivery delivery).length = 12 :=
  ⟨readAt_of_split [] _ (by simp [recordDelivery]; rfl) rfl (UInt16.toNat_lt _),
    readAt_of_split (write 2 delivery.packetId.toNat ++ [delivery.qos, delivery.storedState.toByte]) []
      (by simp [recordDelivery]) (by simp) (UInt64.toNat_lt _),
    by simp [recordDelivery]⟩

theorem deliveryAppend_of_fresh (delivery : Delivery) (hid : delivery.packetId ≠ 0)
    (hfr : owner.deliveries.index.lookup delivery.packetId = none) :
    deliveryAppend owner delivery = .ok { owner with deliveries := owner.deliveries.append delivery hfr } := by
  unfold deliveryAppend
  rw [if_neg hid]
  split
  · rfl
  rename_i i hsome
  rw [hfr] at hsome
  cases hsome

/-- A delivery is read back when there is room for it and no released packet identifier is the same. -/
theorem restoreDelivery_record (hid : delivery.packetId ≠ 0) (hqos : delivery.qos = 1 ∨ delivery.qos = 2)
    (hpers : delivery.persisted = true) (hminor : st.recordMinor = 3)
    (hsp : st.owner.inflight.length + st.owner.deliveries.entries.length < config.maxInflight)
    (hfr : ∀ d ∈ st.owner.deliveries.entries, d.packetId ≠ delivery.packetId)
    (hclash : ∀ e ∈ st.owner.inflight, e.packetId ≠ delivery.packetId) :
    ∃ deliveries, restoreDelivery config st (recordDelivery delivery) =
        .ok { st with owner := { st.owner with deliveries := deliveries } } ∧
      deliveries.entries = st.owner.deliveries.entries ++ [delivery.bare] := by
  obtain ⟨hpid, hexp, hlen⟩ := readAt_recordDelivery delivery
  have hbyte : byteAt (recordDelivery delivery) 2 = delivery.qos := rfl
  have hst : byteAt (recordDelivery delivery) 3 = delivery.storedState.toByte := rfl
  have hnew : st.recordMinor ≥ 3 := by rw [hminor]; decide
  have hlook : deliveryLookup st.owner delivery.packetId = .error .enoent := by
    unfold deliveryLookup
    rw [if_neg hid, st.owner.deliveries.lookup_eq_none_iff.2 hfr]
  have hrng : ¬(delivery.qos = 0) ∧ ¬(delivery.qos > 2) := by
    rcases hqos with hq | hq <;> rw [hq] <;> decide
  have hnone := st.owner.deliveries.lookup_eq_none_iff.2 hfr
  refine ⟨st.owner.deliveries.append delivery.bare hnone, ?_, rfl⟩
  unfold restoreDelivery
  rw [if_pos hnew, if_pos hnew, hpid, hexp, hlen, hbyte, hst, ofStored_storedState hpers,
    if_neg (by simp; omega)]
  dsimp only
  rw [UInt16.ofNat_toNat, UInt64.ofNat_toNat, if_neg (by simp [hid, hrng, hlook, inflightFind_eq_none.2 hclash])]
  have happ := deliveryAppend_of_fresh delivery.bare hid hnone
  unfold Delivery.bare at happ
  rw [happ]
  rfl

/-- A delivery that is read back had room and met no released packet identifier. -/
theorem restoreDelivery_fits {st' : RestoreState} (hminor : st.recordMinor = 3)
    (h : restoreDelivery config st (recordDelivery delivery) = .ok st') :
    st.owner.inflight.length + st.owner.deliveries.entries.length < config.maxInflight ∧
      (∀ e ∈ st.owner.inflight, e.packetId ≠ delivery.packetId) ∧ st'.recordMinor = st.recordMinor ∧
      st'.owner.inflight = st.owner.inflight ∧
      st'.owner.deliveries.entries.length = st.owner.deliveries.entries.length + 1 ∧ st'.packetIndex = st.packetIndex ∧
      (delivery.persisted = true → st'.owner.deliveries.entries = st.owner.deliveries.entries ++ [delivery.bare]) := by
  obtain ⟨hpid, hexp, -⟩ := readAt_recordDelivery delivery
  have hnew : st.recordMinor ≥ 3 := by rw [hminor]; decide
  have hbyte : byteAt (recordDelivery delivery) 3 = delivery.storedState.toByte := rfl
  unfold restoreDelivery at h
  rw [if_pos hnew, if_pos hnew, hpid, hexp, hbyte] at h
  dsimp only at h
  rw [UInt16.ofNat_toNat, UInt64.ofNat_toNat] at h
  split at h
  · cases h
  rename_i hsp
  rw [not_or] at hsp
  split at h
  · cases h
  rename_i state hst
  split at h
  · cases h
  rename_i hbad
  split at h
  · cases h
  rename_i owner happ
  cases h
  obtain ⟨hfr, -, rfl⟩ := deliveryAppend_eq_ok happ
  refine ⟨by omega, ?_, rfl, rfl, by simp [IndexedVec.append], rfl, ?_⟩
  · rw [not_or, not_or, not_or, not_or] at hbad
    apply inflightFind_eq_none.1
    simpa using hbad.2.2.2.2
  · intro hpers
    obtain rfl : delivery.storedState = state :=
      Option.some.inj ((ofStored_storedState hpers).symm.trans hst)
    rfl

theorem restorePacket_record {bytes : Bytes} (hent : st.owner.deliveries.entries[st.packetIndex]? = some delivery.bare)
    (hbs : bytes ≠ []) :
    ∃ deliveries, restorePacket st bytes =
        .ok { st with owner := { st.owner with deliveries := deliveries }, packetIndex := st.packetIndex + 1 } ∧
      deliveries.entries = st.owner.deliveries.entries.set st.packetIndex { delivery.bare with packet := some bytes } := by
  refine ⟨(deliveryModifyAt st.owner st.packetIndex (fun d => { d with packet := some bytes }) fun _ => rfl).deliveries,
    ?_, ?_⟩
  · unfold restorePacket
    rw [hent]
    dsimp only
    rw [if_neg (by simp [Delivery.bare, hbs])]
    rfl
  · show st.owner.deliveries.entries.modify st.packetIndex _ = _
    rw [modify_eq_set_getElem?, hent]
    rfl

end Fields

end Flowie.Session
