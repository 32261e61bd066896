import Flowie.Session.DeliveryFate
import Flowie.Session.InPlace
import Flowie.Session.RecordRoundTrip
import Flowie.Session.ReplayOrder
import Flowie.Session.Repository

/-!
# The delivery table and its index

The deliveries of an owner are a vector and a hash map from packet identifiers to places. `DeliveryTable`
has the two without any agreement between them, and the functions on it make the source's steps one by
one, with the outcome of each allocation as a parameter. `Indexed` is the agreement, kept by all of them.
The deliveries of every owner that creation, a restore and any calls lead to are such a table. A reservation
takes the first packet identifier behind the previous one that the table does not have.
-/

namespace Flowie.Session

open AssocList List Mqtt

/-- `deliveries` and `delivery_index`. -/
structure DeliveryTable where
  entries : List Delivery
  index : List (UInt16 × Nat)
deriving DecidableEq, Repr

namespace DeliveryTable

variable (table : DeliveryTable)

/-- `flowie_session_delivery_lookup`. -/
def lookup (packetId : UInt16) : Except Errno (Delivery × Nat) :=
  if packetId = 0 then .error .einval
  else
    match table.index.lookup packetId with
    | none => .error .enoent
    | some i =>
      match table.entries[i]? with
      | none => .error .eproto
      | some delivery => if delivery.packetId ≠ packetId then .error .eproto else .ok (delivery, i)

/-- `flowie_session_delivery_append`, with the errors of `vec_push` and `hash_map_put`: the table it
    leaves, and what it returns. -/
def append (delivery : Delivery) (push put : Option Errno) :
    DeliveryTable × Except Errno Unit :=
  if delivery.packetId = 0 then (table, .error .einval)
  else
    match table.lookup delivery.packetId with
    | .ok _ => (table, .error .ealready)
    | .error .enoent =>
      match push with
      | some e => (table, .error e)
      | none =>
        let pushed := table.entries ++ [delivery]
        match put with
        | some e => (⟨pushed.dropLast, table.index⟩, .error e)
        | none => (⟨pushed, AssocList.put delivery.packetId table.entries.length table.index⟩, .ok ())
    | .error e => (table, .error e)

/-- The packet identifier of the delivery that a removal moves, zero when it moves none. -/
def movedPacketId (index : Nat) : Except Errno UInt16 :=
  if index + 1 < table.entries.length then
    match table.entries[table.entries.length - 1]? with
    | none => .error .eproto
    | some last =>
      if table.index.lookup last.packetId ≠ some (table.entries.length - 1) then .error .eproto
      else .ok last.packetId
  else .ok 0

/-- `flowie_session_delivery_remove_at`. -/
def removeAt (index : Nat) : DeliveryTable × Except Errno Delivery :=
  match table.entries[index]? with
  | none => (table, .error .enoent)
  | some removed =>
    if table.index.lookup removed.packetId ≠ some index then (table, .error .eproto)
    else
      match table.movedPacketId index with
      | .error e => (table, .error e)
      | .ok moved =>
        let slots := AssocList.remove removed.packetId table.index
        let entries := table.entries.swapRemove index
        -- the source takes zero to mean that nothing has moved
        if moved = 0 then (⟨entries, slots⟩, .ok removed)
        else
          match slots.lookup moved with
          | none => (⟨entries, slots⟩, .error .eproto)
          | some _ => (⟨entries, AssocList.put moved index slots⟩, .ok removed)

/-- The packet identifiers are not zero, and the index has exactly them with their places. -/
structure Indexed (table : DeliveryTable) : Prop where
  nonzero : ∀ delivery ∈ table.entries, delivery.packetId ≠ 0
  exact : ∀ packetId i, table.index.lookup packetId = some i ↔
    ∃ delivery, table.entries[i]? = some delivery ∧ delivery.packetId = packetId

def Indexed.vec {table : DeliveryTable} (h : Indexed table) : IndexedVec Delivery.packetId :=
  ⟨table.entries, table.index, h.exact⟩

variable {table : DeliveryTable}

theorem Indexed.lookup_ne_eproto (h : Indexed table) {packetId : UInt16} : table.lookup packetId ≠ .error .eproto := by
  unfold lookup
  split
  · simp
  split
  · simp
  rename_i i hl
  obtain ⟨delivery, hent, hkey⟩ := (h.exact packetId i).1 hl
  simp [hent, hkey]

/-- A failed allocation leaves the table as it was. -/
theorem append_rollback (table : DeliveryTable) {delivery : Delivery} {push put : Option Errno} {e : Errno}
    (hfail : push = some e ∨ put = some e) : (table.append delivery push put).1 = table := by
  unfold append
  split
  · rfl
  split
  · rfl
  · cases push with
    | some e' => rfl
    | none =>
      obtain rfl : put = some e := hfail.resolve_left (by simp)
      simp
  · rfl

/-- An append keeps the agreement, whatever the allocations do. -/
theorem Indexed.append (h : Indexed table) (delivery : Delivery) (push put : Option Errno) :
    (table.append delivery push put).1.Indexed := by
  unfold DeliveryTable.append
  split
  · exact h
  rename_i hid
  split
  · exact h
  · rename_i hlook
    have hnew : table.index.lookup delivery.packetId = none := by
      unfold lookup at hlook
      rw [if_neg hid] at hlook
      cases hslot : table.index.lookup delivery.packetId with
      | none => rfl
      | some i =>
        obtain ⟨found, hent, hkey⟩ := (h.exact _ i).1 hslot
        simp [hslot, hent, hkey] at hlook
    cases push with
    | some e => exact h
    | none =>
      cases put with
      | some e => simpa using h
      | none => exact ⟨List.forall_mem_append.2 ⟨h.nonzero, List.forall_mem_singleton.2 hid⟩, h.vec.synced_append hnew⟩
  · exact h

/-- A removal never fails inside an indexed table, and it leaves the vector and the index that `IndexedVec` has. -/
theorem Indexed.removeAt_eq (h : Indexed table) {index : Nat} {removed last : Delivery}
    (hent : table.entries[index]? = some removed) (hlast : table.entries.getLast? = some last) :
    table.removeAt index = (⟨(h.vec.removeAt index removed last hent hlast).entries,
      (h.vec.removeAt index removed last hent hlast).index⟩, .ok removed) := by
  have hend : table.entries[table.entries.length - 1]? = some last := by rw [← List.getLast?_eq_getElem?, hlast]
  have hplc := (h.exact removed.packetId index).2 ⟨removed, hent, rfl⟩
  unfold DeliveryTable.removeAt movedPacketId
  rw [hent]
  dsimp only
  rw [if_neg (by simpa using hplc)]
  by_cases hmoves : index + 1 < table.entries.length
  · have hslot := (h.exact last.packetId (table.entries.length - 1)).2 ⟨last, hend, rfl⟩
    have hne : last.packetId ≠ removed.packetId := by
      intro hsame
      rw [hsame, hplc] at hslot
      have := Option.some.inj hslot
      omega
    have hmvd : (remove removed.packetId table.index).lookup last.packetId =
        some (table.entries.length - 1) := by rw [lookup_remove_ne hne, hslot]
    have hlastid : last.packetId ≠ 0 := h.nonzero last (mem_of_getElem? hend)
    have hix : (h.vec.removeAt index removed last hent hlast).index =
        put last.packetId index (remove removed.packetId table.index) := if_pos hmoves
    rw [if_pos hmoves, hend]
    dsimp only
    rw [if_neg (by simpa using hslot)]
    dsimp only
    rw [if_neg hlastid, hmvd, hix]
    rfl
  · have hix : (h.vec.removeAt index removed last hent hlast).index =
        remove removed.packetId table.index := if_neg hmoves
    rw [if_neg hmoves]
    dsimp only
    rw [if_pos rfl, hix]
    rfl

/-- A removal keeps the agreement and meets no inconsistent entry. -/
theorem Indexed.removeAt (h : Indexed table) (index : Nat) :
    (table.removeAt index).1.Indexed ∧ (table.removeAt index).2 ≠ .error .eproto := by
  cases hent : table.entries[index]? with
  | none =>
    unfold DeliveryTable.removeAt
    simp [hent, h]
  | some removed =>
    have hlt := (List.getElem?_eq_some_iff.1 hent).1
    have hlast := List.getLast?_eq_some_getLast (List.ne_nil_of_mem (List.mem_of_getElem? hent))
    rw [h.removeAt_eq hent hlast]
    refine ⟨⟨?_, (h.vec.removeAt index removed _ hent hlast).synced⟩, nofun⟩
    exact fun delivery hmem => h.nonzero delivery (mem_of_mem_swapRemove hlt hmem)

end DeliveryTable

def Owner.deliveryTable (owner : Owner) : DeliveryTable := ⟨owner.deliveries.entries, owner.deliveries.index⟩

def NonzeroIds (owner : Owner) : Prop := ∀ delivery ∈ owner.deliveries.entries, delivery.packetId ≠ 0

variable {owner owner' : Owner}

theorem NonzeroIds.indexed (h : NonzeroIds owner) : owner.deliveryTable.Indexed := ⟨h, owner.deliveries.synced⟩

theorem deliveryLookup_eq_table (packetId : UInt16) :
    deliveryLookup owner packetId = owner.deliveryTable.lookup packetId := rfl

/-- The append of the owner is the one of the table when the allocations succeed. -/
theorem deliveryAppend_eq_table (delivery : Delivery) :
    (deliveryAppend owner delivery).map Owner.deliveryTable =
      (owner.deliveryTable.append delivery none none).2.map fun _ =>
        (owner.deliveryTable.append delivery none none).1 := by
  unfold deliveryAppend DeliveryTable.append
  split
  · rfl
  rename_i hid
  split
  · rename_i hnone
    have hlook : owner.deliveryTable.lookup delivery.packetId = .error .enoent := by
      unfold DeliveryTable.lookup
      rw [if_neg hid, show owner.deliveryTable.index.lookup delivery.packetId = none from hnone]
    rw [hlook]
    rfl
  · rename_i i hsome
    obtain ⟨found, hent, hkey⟩ := (owner.deliveries.synced delivery.packetId i).1 hsome
    have hlook := deliveryLookup_eq_ok.2 ⟨hid, hent, hkey⟩
    rw [← deliveryLookup_eq_table, hlook]
    rfl

/-- The removal of the owner is the one of the table. -/
theorem deliveryRemoveAt_eq_table (h : NonzeroIds owner) (index : Nat) :
    (deliveryRemoveAt owner index).map (fun done => (done.1.deliveryTable, done.2)) =
      (owner.deliveryTable.removeAt index).2.map fun removed => ((owner.deliveryTable.removeAt index).1, removed) := by
  cases hent : owner.deliveries.entries[index]? with
  | none =>
    have htable : owner.deliveryTable.removeAt index = (owner.deliveryTable, .error .enoent) := by
      unfold DeliveryTable.removeAt
      rw [show owner.deliveryTable.entries[index]? = none from hent]
    have hown : deliveryRemoveAt owner index = .error .enoent := by
      unfold deliveryRemoveAt
      split
      · rename_i hsome _
        rw [hent] at hsome
        cases hsome
      · rfl
    rw [htable, hown]
    rfl
  | some removed =>
    have hlast := List.getLast?_eq_some_getLast (List.ne_nil_of_mem (List.mem_of_getElem? hent))
    rw [h.indexed.removeAt_eq hent hlast, deliveryRemoveAt_of_getLast hent hlast]
    rfl

section

variable [Vstr]

section
variable (h : NonzeroIds owner)
include h

theorem NonzeroIds.transition {op : Op} {reply : Reply} (ht : Transition owner op owner' reply) : NonzeroIds owner' := by
  intro delivery hmem
  rcases ht.origin hmem with hold | ⟨before, hbef, hchg⟩ | ⟨qos, packetId, -, hid, rfl⟩
  · exact h delivery hold
  · rw [hchg.packetId]
    exact h before hbef
  · exact hid

omit [Vstr] in
theorem NonzeroIds.append {delivery : Delivery} (happ : deliveryAppend owner delivery = .ok owner') :
    NonzeroIds owner' := by
  obtain ⟨_, hid, rfl⟩ := deliveryAppend_eq_ok happ
  intro d hmem
  rcases List.mem_append.1 hmem with hold | hnew
  · exact h d hold
  · rw [List.mem_singleton.1 hnew]
    exact hid

omit [Vstr] in
theorem NonzeroIds.modify (index : Nat) (f : Delivery → Delivery)
    (hf : ∀ delivery, (f delivery).packetId = delivery.packetId) : NonzeroIds (deliveryModifyAt owner index f hf) := by
  intro d hmem
  rcases IndexedVec.mem_modifyAt (show d ∈ (owner.deliveries.modifyAt index f hf).entries from hmem) with
    hold | ⟨before, hbef, rfl⟩
  · exact h d hold
  · rw [hf]
    exact h before (mem_of_getElem? hbef)

/-- Whatever a call returns, the deliveries it leaves have identifiers. -/
theorem NonzeroIds.inPlace (call : Call) : NonzeroIds (inPlace owner call).1 := by
  cases hcall : Session.inPlace owner call with
  | mk owner' result =>
    cases result with
    | error e =>
      rcases inPlace_eq_error hcall with rfl | ⟨delivery, index, -, -, rfl⟩
      · exact h
      · exact h.modify index _ _
    | ok reply =>
      obtain ⟨reply', ht⟩ := inPlace_transition hcall
      exact h.transition ht

end

variable {config : SessionConfig}

omit [Vstr] in
theorem NonzeroIds.created (h : ownerCreate config = some owner) : NonzeroIds owner := by
  obtain ⟨-, -, hents, -⟩ := ownerCreate_eq_some h
  intro delivery hmem
  rw [hents] at hmem
  cases hmem

theorem NonzeroIds.repositoryRestore {row : SessionRow} (h : repositoryRestore config row = .ok owner) : NonzeroIds owner := by
  obtain ⟨-, -, -, hents, hids, -⟩ := repositoryRestore_eq_ok h
  unfold NonzeroIds
  rw [hents]
  exact List.forall_mem_map.2 hids

variable {st st' : RestoreState} {value : Bytes}

omit [Vstr] in
theorem NonzeroIds.restoreDelivery (hids : NonzeroIds st.owner) (h : restoreDelivery config st value = .ok st') :
    NonzeroIds st'.owner := by
  unfold Session.restoreDelivery at h
  dsimp only at h
  generalize (if st.recordMinor ≥ 3 then 12 else 4) = size at h
  generalize (if st.recordMinor ≥ 3 then UInt64.ofNat (readAt value 4 8) else 0) = expiry at h
  split at h
  · cases h
  split at h
  · cases h
  split at h
  · cases h
  split at h
  · cases h
  rename_i o happ
  cases h
  exact hids.append happ

omit [Vstr] in
theorem NonzeroIds.restorePacket (hids : NonzeroIds st.owner) (h : restorePacket st value = .ok st') : NonzeroIds st'.owner := by
  unfold Session.restorePacket at h
  split at h
  · cases h
  split at h
  · cases h
  · cases h
    exact hids.modify _ _ _

variable {type : UInt8}

/-- Only the messages of types 6 and 7 write to the deliveries, and only the header has the minor version. -/
theorem restoreMessage_other (h : restoreMessage config st type value = .ok st') (hsix : type ≠ 6) (hseven : type ≠ 7) :
    st'.owner.deliveries = st.owner.deliveries ∧ st'.packetIndex = st.packetIndex ∧
      (type ≠ 1 → st'.recordMinor = st.recordMinor) := by
  unfold restoreMessage at h
  rw [if_neg hsix, if_neg hseven] at h
  have hdone : ∀ {c : Prop} [Decidable c] {ok : Except Errno RestoreState},
      (if c then .error .eproto else ok) = Except.ok st' → ok = .ok st' := by
    intro c _ ok hif
    split at hif
    · cases hif
    · exact hif
  split_ifs at h with hone
  · cases hdone h
    exact ⟨rfl, rfl, fun hne => absurd hone hne⟩
  · cases hdone (hdone h)
    exact ⟨rfl, rfl, fun _ => rfl⟩
  · cases hdone h
    exact ⟨rfl, rfl, fun _ => rfl⟩
  · unfold restoreOptions at h
    split at h
    · cases h
    · cases hdone (hdone h)
      exact ⟨rfl, rfl, fun _ => rfl⟩
  · cases hdone (hdone h)
    exact ⟨rfl, rfl, fun _ => rfl⟩
  all_goals
    cases hdone h
    exact ⟨rfl, rfl, fun _ => rfl⟩

theorem NonzeroIds.restoreMessage (hids : NonzeroIds st.owner) (h : restoreMessage config st type value = .ok st') :
    NonzeroIds st'.owner := by
  by_cases hsix : type = 6
  · subst hsix
    exact NonzeroIds.restoreDelivery hids h
  by_cases hseven : type = 7
  · subst hseven
    exact NonzeroIds.restorePacket hids h
  intro delivery hmem
  rw [(restoreMessage_other h hsix hseven).1] at hmem
  exact hids delivery hmem

variable [Ltv] {data : Bytes}

theorem NonzeroIds.restoreLoop {fuel : Nat} (h : restoreLoop config fuel data st = .ok st')
    (hids : NonzeroIds st.owner) : NonzeroIds st'.owner := by
  induction fuel generalizing data st with
  | zero =>
    unfold Session.restoreLoop at h
    split at h
    · cases h
      exact hids
    · cases h
  | succ fuel ih =>
    unfold Session.restoreLoop at h
    split at h
    · cases h
      exact hids
    split at h
    · cases h
    split at h
    · cases h
    dsimp only at h
    split at h
    · cases h
    split at h
    · cases h
    rename_i type value _ _ st2 hfld
    have hread : NonzeroIds st2.owner := hids.restoreMessage (restoreField_ok hfld)
    exact ih h hread

theorem NonzeroIds.recordRestore {clientId : Bytes} {revision : UInt64}
    (h : recordRestore config clientId revision data = .ok owner) : NonzeroIds owner := by
  obtain ⟨-, created, st, hcr, hloop, rfl⟩ := recordRestore_eq_ok h
  have hmk : NonzeroIds created := NonzeroIds.created hcr
  have hst : NonzeroIds st.owner := NonzeroIds.restoreLoop hloop hmk
  exact hst

/-- The owners that creation, a restore and any calls lead to; a clone is one of the calls. -/
inductive Reached : Owner → Prop
  | created {config : SessionConfig} {owner : Owner} (h : ownerCreate config = some owner) : Reached owner
  | repositoryRestored {config : SessionConfig} {row : SessionRow} {owner : Owner}
      (h : repositoryRestore config row = .ok owner) : Reached owner
  | recordRestored {config : SessionConfig} {clientId data : Bytes} {revision : UInt64} {owner : Owner}
      (h : recordRestore config clientId revision data = .ok owner) : Reached owner
  | called {owner : Owner} (call : Call) (h : Reached owner) : Reached (inPlace owner call).1

theorem Reached.nonzeroIds (h : Reached owner) : NonzeroIds owner := by
  induction h with
  | created h => exact .created h
  | repositoryRestored h => exact .repositoryRestore h
  | recordRestored h => exact .recordRestore h
  | called call _ ih => exact ih.inPlace call

end

section Acts

def Owner.others (owner : Owner) (packetId : UInt16) : List Delivery :=
  owner.deliveries.entries.filter (·.packetId != packetId)

variable {packetId : UInt16} {delivery : Delivery} {index : Nat}

section
variable (hlook : deliveryLookup owner packetId = .ok (delivery, index))
include hlook

theorem others_modify (f : Delivery → Delivery) (hf : ∀ delivery, (f delivery).packetId = delivery.packetId) :
    (deliveryModifyAt owner index f hf).others packetId = owner.others packetId := by
  obtain ⟨-, hent, hid⟩ := deliveryLookup_eq_ok.1 hlook
  obtain ⟨hlt, rfl⟩ := List.getElem?_eq_some_iff.1 hent
  have hents : (deliveryModifyAt owner index f hf).deliveries.entries =
      owner.deliveries.entries.take index ++ f owner.deliveries.entries[index] :: owner.deliveries.entries.drop (index + 1) :=
    modify_eq_take_cons_drop hlt
  have hspl : owner.deliveries.entries =
      owner.deliveries.entries.take index ++ owner.deliveries.entries[index] :: owner.deliveries.entries.drop (index + 1) := by
    rw [← drop_eq_getElem_cons hlt, take_append_drop]
  unfold Owner.others
  rw [hents]
  conv_rhs => rw [hspl]
  rw [filter_append, filter_append, filter_cons_of_neg (by simp [hf, hid]), filter_cons_of_neg (by simp [hid])]

theorem others_remove {deliveries : IndexedVec Delivery.packetId}
    (hents : deliveries.entries = owner.deliveries.entries.swapRemove index) :
    (Owner.others { owner with deliveries := deliveries } packetId).Perm (owner.others packetId) := by
  obtain ⟨-, hent, hid⟩ := deliveryLookup_eq_ok.1 hlook
  have hperm := (cons_swapRemove_perm hent).filter (·.packetId != packetId)
  rw [filter_cons_of_neg (by simp [hid]), ← hents] at hperm
  exact hperm

end

variable [Vstr]

/-- The packet identifier an operation names. -/
def Op.deliveryId : Op → Option UInt16
  | .commit packetId _ _ _ => some packetId
  | .cancel packetId => some packetId
  | .expirePacket packetId _ => some packetId
  | .ack packet =>
    match controlPacketParse packet with
    | .error _ => none
    | .ok control => some control.packetId
  | _ => none

/-- An operation that names a packet identifier found the delivery with it, and left every other one. -/
theorem step_acts {op : Op} {reply : Reply} (hop : op.deliveryId = some packetId) (h : step owner op = .ok (owner', reply)) :
    (∃ delivery index, deliveryLookup owner packetId = .ok (delivery, index)) ∧
      (owner'.others packetId).Perm (owner.others packetId) := by
  cases op with
  | commit p packet expiry queued =>
    cases hop
    have hcm := (done_eq_ok h).1
    unfold deliveryCommit at hcm
    split at hcm
    · cases hcm
    split at hcm
    · cases hcm
    rename_i found place hlook
    split_ifs at hcm
    cases hcm
    exact ⟨⟨found, place, hlook⟩, List.Perm.of_eq (others_modify hlook (·.committed packet expiry queued) fun _ => rfl)⟩
  | cancel p =>
    cases hop
    have hcan := (done_eq_ok h).1
    unfold deliveryCancel at hcan
    split at hcan
    · cases hcan
    rename_i found place hlook
    obtain ⟨-, hent, -⟩ := deliveryLookup_eq_ok.1 hlook
    obtain ⟨deliveries, hrem, hents⟩ := deliveryRemoveAt_eq_ok hent
    rw [hrem] at hcan
    cases hcan
    exact ⟨⟨found, place, hlook⟩, others_remove hlook hents⟩
  | expirePacket p now =>
    cases hop
    obtain ⟨removed, hexpr, -⟩ := replied_eq_ok h
    unfold deliveryExpirePacket at hexpr
    split at hexpr
    · cases hexpr
    split at hexpr
    · cases hexpr
    rename_i found place hlook
    obtain ⟨-, hent, -⟩ := deliveryLookup_eq_ok.1 hlook
    obtain ⟨deliveries, hrem, hents⟩ := deliveryRemoveAt_eq_ok hent
    rw [hrem] at hexpr
    split_ifs at hexpr
    · cases hexpr
      exact ⟨⟨found, place, hlook⟩, List.Perm.refl _⟩
    · cases hexpr
      exact ⟨⟨found, place, hlook⟩, others_remove hlook hents⟩
  | ack view =>
    obtain ⟨answer, hack, -⟩ := replied_eq_ok h
    obtain ⟨-, control, found, place, hctl, hlook, -, -, hcases⟩ := deliveryAck_eq_ok hack
    obtain rfl : control.packetId = packetId := by simpa [Op.deliveryId, hctl] using hop
    refine ⟨⟨found, place, hlook⟩, ?_⟩
    rcases hcases with ⟨-, -, -, pubrel, -, rfl⟩ | ⟨-, -, -, rfl⟩ | ⟨-, deliveries, hents, rfl⟩
    · exact List.Perm.of_eq (others_modify hlook (·.released pubrel) fun _ => rfl)
    · exact List.Perm.refl _
    · exact others_remove hlook hents
  | _ => cases hop

variable [Ltv]

/-- In every owner that creation, both restores and any calls lead to, the deliveries have distinct packet
    identifiers that are not zero, and the index has exactly their places. No lookup and no removal meets an
    inconsistent entry, also when an allocation fails; the steps of an append and of a removal keep the agreement and
    leave the table of the owner; and an operation on a packet identifier reads and writes the one delivery that has it. -/
theorem delivery_index_bijective (h : Reached owner) :
    (owner.deliveries.entries.map Delivery.packetId).Nodup ∧ owner.deliveryTable.Indexed ∧
    (∀ packetId, owner.deliveryTable.lookup packetId ≠ .error .eproto ∧
      deliveryLookup owner packetId ≠ .error .eproto) ∧
    (∀ index, (owner.deliveryTable.removeAt index).2 ≠ .error .eproto ∧
      deliveryRemoveAt owner index ≠ .error .eproto ∧ (owner.deliveryTable.removeAt index).1.Indexed ∧
      (deliveryRemoveAt owner index).map (fun done => (done.1.deliveryTable, done.2)) =
        (owner.deliveryTable.removeAt index).2.map fun removed => ((owner.deliveryTable.removeAt index).1, removed)) ∧
    (∀ delivery push put e, push = some e ∨ put = some e →
      (owner.deliveryTable.append delivery push put).1 = owner.deliveryTable) ∧
    (∀ delivery, (owner.deliveryTable.append delivery none none).1.Indexed ∧
      (deliveryAppend owner delivery).map Owner.deliveryTable =
        (owner.deliveryTable.append delivery none none).2.map fun _ => (owner.deliveryTable.append delivery none none).1) ∧
    ∀ op packetId owner' reply, op.deliveryId = some packetId → step owner op = .ok (owner', reply) →
      (∃! delivery, delivery ∈ owner.deliveries.entries ∧ delivery.packetId = packetId) ∧
        (owner'.others packetId).Perm (owner.others packetId) := by
  have hids := h.nonzeroIds
  refine ⟨owner.deliveries.keys_nodup, hids.indexed, ?_, ?_, ?_, ?_, ?_⟩
  · intro packetId
    exact ⟨hids.indexed.lookup_ne_eproto, hids.indexed.lookup_ne_eproto⟩
  · intro index
    obtain ⟨hkept, htable⟩ := hids.indexed.removeAt index
    have heq := deliveryRemoveAt_eq_table hids index
    refine ⟨htable, fun hown => ?_, hkept, heq⟩
    rw [hown] at heq
    cases hres : (owner.deliveryTable.removeAt index).2 with
    | ok removed =>
      rw [hres] at heq
      cases heq
    | error e =>
      rw [hres] at heq htable
      cases heq
      exact htable rfl
  · exact fun delivery push put e hfail => owner.deliveryTable.append_rollback hfail
  · exact fun delivery => ⟨hids.indexed.append delivery none none, deliveryAppend_eq_table delivery⟩
  · intro op packetId owner' reply hop hstep
    obtain ⟨⟨found, index, hlook⟩, hoths⟩ := step_acts hop hstep
    obtain ⟨-, hent, hid⟩ := deliveryLookup_eq_ok.1 hlook
    refine ⟨⟨found, ⟨mem_of_getElem? hent, hid⟩, ?_⟩, hoths⟩
    rintro other ⟨hmem, hoth⟩
    obtain ⟨place, hplc⟩ := List.getElem?_of_mem hmem
    obtain rfl := owner.deliveries.key_injective hplc hent (hoth.trans hid.symm)
    exact Option.mem_unique hplc hent

end Acts

section

attribute [local instance] asciiVstr plainLtv

/-- A reservation, the first of three, is cancelled: the last one moves into its place. -/
theorem delivery_index_bijective_moved :
    ((run smallOwner [.connect persistentConnect false, .reserve 1, .reserve 2, .reserve 1, .cancel 1]).deliveries.entries.map
      Delivery.packetId = [3, 2]) ∧
    (run smallOwner [.connect persistentConnect false, .reserve 1, .reserve 2, .reserve 1, .cancel 1]).deliveryTable.Indexed :=
  ⟨by decide, (delivery_index_bijective
    (Reached.called (.op (.cancel 1)) (Reached.called (.op (.reserve 1)) (Reached.called (.op (.reserve 2))
      (Reached.called (.op (.reserve 1)) (Reached.called (.op (.connect persistentConnect false))
        (Reached.created ownerCreate_smallConfig))))))).2.1⟩

end

/-! ## The packet identifier of a reservation -/

/-- The `n`-th identifier behind `previous` in the cycle from 1 to 65535. -/
def nthPacketId (previous : UInt16) (n : Nat) : UInt16 := UInt16.ofNat ((previous.toNat + n) % 65535 + 1)

/-- The identifiers a reservation tries. -/
def packetIdsAfter (previous : UInt16) (attempts : Nat) : List UInt16 := (range attempts).map (nthPacketId previous)

section

variable {owner : Owner} {previous packetId : UInt16}

section
variable (previous : UInt16)

theorem toNat_nthPacketId (n : Nat) : (nthPacketId previous n).toNat = (previous.toNat + n) % 65535 + 1 :=
  UInt16.toNat_ofNat_of_lt' (show _ < 2 ^ 16 by omega)

theorem nthPacketId_ne_zero (n : Nat) : nthPacketId previous n ≠ 0 := by
  rw [ne_eq, ← UInt16.toNat_inj, toNat_nthPacketId, UInt16.toNat_zero]
  omega

theorem nthPacketId_zero : (if previous = uint16Max then 1 else previous + 1) = nthPacketId previous 0 := by
  have hlt := previous.toNat_lt
  rw [← UInt16.toNat_inj, toNat_nthPacketId]
  split
  · rename_i hmax
    rw [hmax]
    rfl
  · rename_i hmax
    have hne : previous.toNat ≠ 65535 := fun h => hmax (UInt16.toNat_inj.1 h)
    rw [UInt16.toNat_add, UInt16.toNat_one]
    omega

theorem packetIdsAfter_succ (attempts : Nat) :
    packetIdsAfter previous (attempts + 1) = nthPacketId previous 0 :: packetIdsAfter (nthPacketId previous 0) attempts := by
  rw [packetIdsAfter, range_succ_eq_map, map_cons, map_map]
  refine congrArg _ (map_congr_left fun n _ => UInt16.toNat_inj.1 ?_)
  simp only [Function.comp_apply, toNat_nthPacketId]
  omega

end

/-- The whole cycle has every identifier but zero, once. -/
theorem mem_packetIdsAfter (hid : packetId ≠ 0) : packetId ∈ packetIdsAfter previous 65535 := by
  have hlt := packetId.toNat_lt
  rw [ne_eq, ← UInt16.toNat_inj, UInt16.toNat_zero] at hid
  refine mem_map.2 ⟨(packetId.toNat + 65534 - previous.toNat % 65535) % 65535, mem_range.2 (Nat.mod_lt _ (by decide)), ?_⟩
  rw [← UInt16.toNat_inj, toNat_nthPacketId]
  omega

theorem nodup_packetIdsAfter : (packetIdsAfter previous 65535).Nodup := by
  refine nodup_range.map_on fun i hi j hj hij => ?_
  have hnat := congrArg UInt16.toNat hij
  rw [toNat_nthPacketId, toNat_nthPacketId] at hnat
  rw [mem_range] at hi hj
  omega

theorem lookup_of_not_mem (h : packetId ∉ owner.deliveryIds) : owner.deliveries.index.lookup packetId = none :=
  owner.deliveries.lookup_eq_none_iff.2 fun delivery hmem hkey => h (mem_map.2 ⟨delivery, hmem, hkey⟩)

/-- The search returns the first identifier it tries that no delivery has. -/
theorem reserveLoop_eq (attempts : Nat) :
    reserveLoop owner attempts previous =
      ((packetIdsAfter previous attempts).find? (· ∉ owner.deliveryIds)).elim (.error .enospc) .ok := by
  induction attempts generalizing previous with
  | zero => rfl
  | succ attempts ih =>
    have hid := nthPacketId_ne_zero previous 0
    rw [reserveLoop, nthPacketId_zero, packetIdsAfter_succ, find?_cons, ih]
    by_cases hused : nthPacketId previous 0 ∈ owner.deliveryIds
    · obtain ⟨delivery, hmem, hkey⟩ := mem_map.1 hused
      obtain ⟨index, hent⟩ := getElem?_of_mem hmem
      rw [deliveryLookup_eq_ok.2 ⟨hid, hent, hkey⟩]
      simp [hused]
    · rw [deliveryLookup, if_neg hid, lookup_of_not_mem hused]
      simp [hused]

/-- Every identifier is taken exactly when there are as many deliveries as identifiers. -/
theorem NonzeroIds.find?_eq_none_iff (h : NonzeroIds owner) (previous : UInt16) :
    (packetIdsAfter previous 65535).find? (· ∉ owner.deliveryIds) = none ↔ 65535 ≤ owner.deliveries.entries.length := by
  have hlen : owner.deliveryIds.length = owner.deliveries.entries.length := length_map _
  have hcycle : (packetIdsAfter previous 65535).length = 65535 := by rw [packetIdsAfter, length_map, length_range]
  simp only [find?_eq_none, decide_eq_true_eq, not_not]
  constructor
  · intro hused
    have hle := ((nodup_packetIdsAfter).subperm hused).length_le
    omega
  · intro hfull packetId hmem
    have hsub : owner.deliveryIds.Subperm (packetIdsAfter previous 65535) := by
      refine (deliveryIds_nodup).subperm fun packetId hid => mem_packetIdsAfter ?_
      obtain ⟨delivery, hmem, rfl⟩ := mem_map.1 hid
      exact h delivery hmem
    exact (hsub.perm_of_length_le (by omega)).mem_iff.2 hmem

variable [Vstr] [Ltv]

/-- An owner that takes deliveries reserves the first packet identifier behind the previous one that no delivery has, as long
    as there is room and an identifier is left; otherwise it stays as it is. -/
theorem reserve_takes_first_free {base : Owner} (h : Reached base) (previous : UInt16)
    (hown : owner = { base with nextDeliveryPacketId := previous }) {qos : UInt8} (hqos : qos = 1 ∨ qos = 2)
    (hopen : owner.active = true ∨ owner.initialized = true ∧ owner.sessionExpiryInterval ≠ 0) :
    if owner.inflight.length + owner.deliveries.entries.length < owner.config.maxInflight ∧
        owner.deliveries.entries.length < 65535 then
      ∃ owner' packetId, inPlace owner (.op (.reserve qos)) = (owner', .ok (.reserved packetId)) ∧ packetId ≠ 0 ∧
        packetId ∉ owner.deliveryIds ∧ (packetIdsAfter previous 65535).find? (· ∉ owner.deliveryIds) = some packetId
    else inPlace owner (.op (.reserve qos)) = (owner, .error .enospc) := by
  have hids : NonzeroIds owner := hown ▸ h.nonzeroIds
  have hprevious : owner.nextDeliveryPacketId = previous := hown ▸ rfl
  have hnone := hids.find?_eq_none_iff previous
  have hrng : ¬(qos = 0 ∨ qos > 2) := by rcases hqos with rfl | rfl <;> decide
  have hrdy : ¬(!owner.active && (!owner.initialized || owner.sessionExpiryInterval == 0)) = true := by
    rcases hopen with hact | ⟨hinit, hexp⟩
    · simp [hact]
    · simp [hinit, hexp]
  have hplc : inPlace owner (.op (.reserve qos)) = checked owner (replied .reserved (deliveryReserve owner qos)) := rfl
  rw [hplc, deliveryReserve, if_neg hrng, if_neg hrdy, hprevious, show uint16Max.toNat = 65535 from rfl, reserveLoop_eq]
  by_cases hroom : owner.inflight.length + owner.deliveries.entries.length < owner.config.maxInflight
  swap
  · rw [if_neg fun h => hroom h.1, if_pos (Nat.not_lt.1 hroom)]
    rfl
  rw [if_neg (Nat.not_le.2 hroom)]
  cases hfind : (packetIdsAfter previous 65535).find? (· ∉ owner.deliveryIds) with
  | none =>
    rw [if_neg fun h => Nat.not_le.2 h.2 (hnone.1 hfind)]
    rfl
  | some packetId =>
    obtain ⟨n, -, rfl⟩ := mem_map.1 (mem_of_find?_eq_some hfind)
    have hfree : nthPacketId previous n ∉ owner.deliveryIds := by simpa using find?_some hfind
    have hleft : owner.deliveries.entries.length < 65535 := by
      refine Nat.not_le.1 fun hfull => ?_
      rw [hnone.2 hfull] at hfind
      cases hfind
    rw [if_pos ⟨hroom, hleft⟩, Option.elim_some]
    dsimp only
    rw [deliveryAppend_of_fresh _ (nthPacketId_ne_zero previous n) (lookup_of_not_mem hfree)]
    exact ⟨_, _, rfl, nthPacketId_ne_zero previous n, hfree, rfl⟩

end

section

attribute [local instance] asciiVstr plainLtv

/-- Behind the last identifier comes the first. -/
theorem reserve_takes_first_free_wrapped :
    ∃ owner', inPlace { run smallOwner [.connect persistentConnect false] with nextDeliveryPacketId := 65535 }
      (.op (.reserve 1)) = (owner', .ok (.reserved 1)) := by
  have h := reserve_takes_first_free
    (Reached.called (.op (.connect persistentConnect false)) (Reached.created ownerCreate_smallConfig)) 65535 rfl
    (.inl rfl : (1 : UInt8) = 1 ∨ _) (by decide)
  rw [if_pos (by decide)] at h
  obtain ⟨owner', packetId, hreserve, -, -, hfst⟩ := h
  rw [packetIdsAfter_succ, find?_cons_of_pos (by decide)] at hfst
  cases hfst
  exact ⟨owner', hreserve⟩

/-- A new owner with room takes no delivery. -/
theorem reserve_refused_inactive :
    Reached smallOwner ∧ smallOwner.inflight.length + smallOwner.deliveries.entries.length < smallOwner.config.maxInflight ∧
      smallOwner.deliveries.entries.length < 65535 ∧ deliveryReserve smallOwner 1 = .error .ebusy :=
  ⟨Reached.created ownerCreate_smallConfig, by decide, by decide, rfl⟩

end

end Flowie.Session
