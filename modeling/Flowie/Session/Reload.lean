import Flowie.Session.DeliveryTable
import Flowie.Session.Revision

/-!
# The deliveries of a stored session

An owner is stored as a record or as rows and restored from them. Whenever both succeed, the restored
owner has the deliveries that had a packet, in their order and a queued one as if it had been sent. Nothing
is asked of the owner that was stored.
-/

namespace Flowie.Session

open List Mqtt

section Record

variable [Ltv] {capacity : Nat} {fields : List (UInt8 × Bytes)}

/-- Messages that were appended were fit to be written. -/
theorem recordAppendLoop_written {out written : Bytes} (h : recordAppendLoop capacity fields out = .ok written) :
    Writable fields ∧ ∃ bytes, written = out ++ bytes ∧ Written fields bytes := by
  induction fields generalizing out with
  | nil =>
    cases h
    exact ⟨fun field hmem => absurd hmem not_mem_nil, [], by simp, .nil⟩
  | cons field rest ih =>
    obtain ⟨type, value⟩ := field
    unfold recordAppendLoop at h
    split at h
    · cases h
    rename_i next happ
    unfold recordAppend at happ
    dsimp only at happ
    split_ifs at happ with htype hsize hlen
    cases happ
    rw [not_or] at htype hsize
    obtain ⟨hwritable, bytes, rfl, hbs⟩ := ih h
    refine ⟨?_, Ltv.build type value (capacity - out.length) ++ bytes, by rw [append_assoc], ?_⟩
    · intro field hmem
      rcases List.mem_cons.1 hmem with rfl | hrest
      · exact ⟨htype.1, hsize.1⟩
      · exact hwritable field hrest
    · exact .cons _ (by omega) hbs

variable [Vstr] {owner : Owner} {bytes : Bytes}

theorem recordEncode_written (h : recordEncode owner capacity = .ok bytes) :
    Writable (recordFields owner) ∧ Written (recordFields owner) bytes := by
  unfold recordEncode at h
  split_ifs at h
  split at h
  · cases h
  split at h
  · cases h
  split at h
  · cases h
  rename_i out hloop
  split at h
  · cases h
    obtain ⟨hwritable, written, rfl, hwr⟩ := recordAppendLoop_written hloop
    exact ⟨hwritable, hwr⟩
  · cases h

structure Deliveries (st : RestoreState) (entries : List Delivery) (packets : Nat) : Prop where
  minor : st.recordMinor = 3
  entries : st.owner.deliveries.entries = entries
  packets : st.packetIndex = packets

variable {config : SessionConfig} {entries : List Delivery} {packets : Nat} {st st' : RestoreState}

omit [Ltv] in
/-- The messages of other types leave the deliveries. -/
theorem Deliveries.other {type : UInt8} {value : Bytes} (hst : Deliveries st entries packets)
    (h : restoreMessage config st type value = .ok st') (htype : type ≠ 1 ∧ type ≠ 6 ∧ type ≠ 7) :
    Deliveries st' entries packets := by
  obtain ⟨hone, hsix, hseven⟩ := htype
  obtain ⟨hdels, hix, hminor⟩ := restoreMessage_other h hsix hseven
  exact ⟨(hminor hone).trans hst.minor, (congrArg IndexedVec.entries hdels).trans hst.entries,
    hix.trans hst.packets⟩

omit [Vstr] [Ltv] in
theorem Deliveries.passed (h : Deliveries st entries packets) (type : UInt8) (size : Nat) :
    Deliveries (st.passed type size) entries packets := ⟨h.minor, h.entries, h.packets⟩

theorem Deliveries.others (hst : Deliveries st entries packets)
    (h : restoreFields config fields st = .ok st') (htypes : ∀ field ∈ fields, field.1 ≠ 1 ∧ field.1 ≠ 6 ∧ field.1 ≠ 7) :
    Deliveries st' entries packets := by
  induction fields generalizing st with
  | nil =>
    cases h
    exact hst
  | cons field rest ih =>
    obtain ⟨type, value⟩ := field
    obtain ⟨next, hfld, h⟩ := restoreFields_cons_ok h
    refine ih ?_ h fun field hmem => htypes field (mem_cons_of_mem _ hmem)
    exact (hst.other hfld (htypes _ mem_cons_self)).passed type _

variable {persisted : List Delivery}

/-- The deliveries are read without their packets. -/
theorem Deliveries.bare (hst : Deliveries st entries packets) (hpers : ∀ d ∈ persisted, d.persisted = true)
    (h : restoreFields config (persisted.map fun d => (6, recordDelivery d)) st = .ok st') :
    Deliveries st' (entries ++ persisted.map Delivery.bare) packets := by
  induction persisted generalizing st entries with
  | nil =>
    cases h
    simpa using hst
  | cons d rest ih =>
    obtain ⟨next, hfld, h⟩ := restoreFields_cons_ok h
    obtain ⟨-, -, hminor, -, -, hix, hents⟩ := restoreDelivery_fits hst.minor hfld
    have hnext : Deliveries next (entries ++ [d.bare]) packets :=
      ⟨hminor.trans hst.minor, by rw [hents (hpers d mem_cons_self), hst.entries], hix.trans hst.packets⟩
    have hrest := ih (hnext.passed 6 _) (fun d' hmem => hpers d' (mem_cons_of_mem _ hmem)) h
    simpa using hrest

/-- The packets are read in the order of the deliveries. -/
theorem Deliveries.filled {done : List Delivery} (hst : Deliveries st (done ++ persisted.map Delivery.bare) done.length)
    (h : restoreFields config (persisted.map fun d => (7, d.packet.getD [])) st = .ok st') :
    Deliveries st' (done ++ persisted.map Delivery.stored) (done.length + persisted.length) := by
  induction persisted generalizing st done with
  | nil =>
    cases h
    simpa using hst
  | cons d rest ih =>
    obtain ⟨next, hfld, h⟩ := restoreFields_cons_ok h
    have hfld : restorePacket st (d.packet.getD []) = .ok next := hfld
    have hent : st.owner.deliveries.entries[st.packetIndex]? = some d.bare := by
      rw [hst.entries, hst.packets]
      simp
    -- an empty packet is refused
    have hne : d.packet.getD [] ≠ [] := by
      intro hnil
      unfold restorePacket at hfld
      rw [hent, hnil] at hfld
      simp at hfld
    obtain ⟨bytes, hbs⟩ : ∃ bytes, d.packet = some bytes := by
      cases hpkt : d.packet with
      | none => simp [hpkt] at hne
      | some bytes => exact ⟨bytes, rfl⟩
    rw [hbs, Option.getD_some] at hfld hne
    obtain ⟨deliveries, hread, hents⟩ := restorePacket_record hent hne
    rw [hread] at hfld
    cases hfld
    have hsto : { d.bare with packet := some bytes } = d.stored := by
      unfold Delivery.bare Delivery.stored
      rw [hbs]
    rw [hst.entries, hst.packets, hsto] at hents
    have hnext : Deliveries { st with
        owner := { st.owner with deliveries := deliveries }
        packetIndex := st.packetIndex + 1 } (done ++ [d.stored] ++ rest.map Delivery.bare) (done ++ [d.stored]).length :=
      ⟨hst.minor, by rw [hents]; simp, by rw [length_append, ← hst.packets]; rfl⟩
    have hrest := ih (hnext.passed 7 _) h
    rw [length_append, length_singleton, Nat.add_assoc, Nat.add_comm 1] at hrest
    simpa using hrest

variable {clientId : Bytes}

omit [Ltv] in
theorem Deliveries.header {created : Owner} (hcr : ownerCreate config = some created)
    (h : restoreMessage config (restoreStart created clientId) 1 recordHeader = .ok st) : Deliveries st [] 0 := by
  obtain ⟨-, -, hents, -⟩ := ownerCreate_eq_some hcr
  have h : restoreHeader (restoreStart created clientId) recordHeader = .ok st := h
  unfold restoreHeader at h
  split_ifs at h
  · cases h
    exact ⟨rfl, hents, rfl⟩

/-- A record that was written and restored has the deliveries with a packet. -/
theorem recordRestore_deliveries [LawfulLtv] {restored : Owner} {revision : UInt64}
    (henc : recordEncode owner capacity = .ok bytes) (hrest : recordRestore config clientId revision bytes = .ok restored) :
    restored.deliveries.entries = owner.persisted.map Delivery.stored := by
  obtain ⟨hwritable, hwr⟩ := recordEncode_written henc
  obtain ⟨-, created, st, hcr, hloop, rfl⟩ := recordRestore_eq_ok hrest
  rw [restoreLoop_written hwr hwritable (Nat.le_refl _), recordFields_eq] at hloop
  obtain ⟨st3, hloop, hwill⟩ := restoreFields_append_eq_ok hloop
  obtain ⟨st2, hloop, hpkts⟩ := restoreFields_append_eq_ok hloop
  obtain ⟨st1, hprefix, hdels⟩ := restoreFields_append_eq_ok hloop
  have hstart : Deliveries st1 [] 0 := by
    have hspl : recordPrefix owner = (1, recordHeader) :: (recordPrefix owner).tail := rfl
    rw [hspl] at hprefix
    obtain ⟨next, hhdr, hprefix⟩ := restoreFields_cons_ok hprefix
    refine ((Deliveries.header hcr hhdr).passed 1 _).others hprefix ?_
    intro field hmem
    simp only [recordPrefix, append_assoc, cons_append, nil_append, tail_cons, mem_cons, mem_append, mem_map] at hmem
    rcases hmem with rfl | ⟨s, -, rfl⟩ | ⟨s, -, rfl⟩ | ⟨e, -, rfl⟩ <;> simp
  have hbare := hstart.bare (fun d hmem => (List.mem_filter.1 hmem).2) hdels
  have hfilled : Deliveries st3 ([] ++ owner.persisted.map Delivery.stored) (0 + owner.persisted.length) := hbare.filled hpkts
  have hlast := hfilled.others hwill (by
    intro field hmem
    cases hw : owner.will with
    | none => simp [hw] at hmem
    | some will =>
      simp only [hw, Option.elim_some, mem_cons, not_mem_nil, or_false] at hmem
      rcases hmem with rfl | rfl | rfl | rfl <;> simp)
  simpa using hlast.entries

end Record

section Rows

variable [Vstr] {owner : Owner}

/-- Rows that were written and restored have the deliveries with a packet. -/
theorem repositoryRestore_deliveries {restored : Owner} {config : SessionConfig} {row : SessionRow}
    (hsnapshot : repositorySnapshot owner = .ok row) (hrest : repositoryRestore config row = .ok restored) :
    restored.deliveries.entries = owner.persisted.map Delivery.stored := by
  obtain ⟨-, hrows, hpkts⟩ := repositorySnapshot_eq_ok hsnapshot
  rw [(repositoryRestore_eq_ok hrest).2.2.2.1, hrows, map_map]
  refine map_congr_left fun delivery hmem => ?_
  obtain ⟨packet, hpkt⟩ := Option.isSome_iff_exists.1 (hpkts delivery hmem)
  simp [deliveryRow, DeliveryRow.delivery, Delivery.stored, hpkt]

end Rows

end Flowie.Session
