import Flowie.Lib.KeyedList
import Flowie.Session.Steps
import Mathlib.Data.List.Nodup

/-!
# The order of replayed deliveries

A session replays its deliveries in the order of its table, and MQTT asks for the order they were
reserved in. A removal moves the last delivery into the gap, so the two agree as long as every
removal leaves at most one delivery behind the first one it takes out (`replay_in_order`).
-/

namespace Flowie.Session

open List Mqtt

section

variable [Vstr]

/-- The packet identifiers in the order they were reserved, after one more operation: a new one
    comes last, and those no longer in the session go. -/
def reservationsNext (owner : Owner) (reservations : List UInt16) (op : Op) : List UInt16 :=
  let added :=
    match step owner op with
    | .ok (_, reply) => reply.reservation.toList
    | .error _ => []
  (reservations ++ added).filter fun packetId => (next owner op).deliveries.entries.any (·.packetId == packetId)

/-- The packet identifiers of a run in the order they were reserved. -/
def reservations : Owner → List UInt16 → List Op → List UInt16
  | _, reserved, [] => reserved
  | owner, reserved, op :: ops => reservations (next owner op) (reservationsNext owner reserved op) ops

/-- The packet identifiers `delivery_pending_at_ex` hands out for `count` indices from `index` on,
    one call after the other. -/
def enumerate (now : UInt64) : Nat → Nat → Owner → List UInt16
  | 0, _, _ => []
  | count + 1, index, owner =>
    match deliveryPendingAtEx owner index now with
    | .ok (owner, delivery) => delivery.packetId :: enumerate now count (index + 1) owner
    | .error _ => enumerate now count (index + 1) owner

/-- At most one delivery that stays stands behind the first one the operation takes out. -/
def OrderSafe (owner : Owner) (op : Op) : Prop :=
  ((owner.deliveries.entries.dropWhile (!op.removes ·)).filter (!op.removes ·)).length ≤ 1

instance (owner : Owner) (op : Op) : Decidable (OrderSafe owner op) := inferInstanceAs (Decidable (_ ≤ _))

end

def Owner.deliveryIds (owner : Owner) : List UInt16 := owner.deliveries.entries.map (·.packetId)

theorem deliveryIds_nodup {owner : Owner} : owner.deliveryIds.Nodup := owner.deliveries.keys_nodup

theorem deliveryIds_modifyAt (owner : Owner) (index : Nat) (f : Delivery → Delivery)
    (hf : ∀ delivery, (f delivery).packetId = delivery.packetId) :
    (deliveryModifyAt owner index f hf).deliveryIds = owner.deliveryIds := by
  show (owner.deliveries.entries.modify index f).map (·.packetId) = owner.deliveries.entries.map (·.packetId)
  apply ext_getElem?
  intro i
  rw [List.getElem?_map, List.getElem?_map, List.getElem?_modify]
  cases owner.deliveries.entries[i]? with
  | none => rfl
  | some d =>
    by_cases hi : index = i
    · simp [hi, hf]
    · simp [hi]

section

variable [Vstr] {owner owner' : Owner} {op : Op} {index : Nat}

/-- The removal of one delivery keeps the order when at most one stands behind it. -/
theorem swapRemove_sublist {removed : Delivery} (hsafe : OrderSafe owner op)
    (hent : owner.deliveries.entries[index]? = some removed) (hop : op.removes removed = true)
    (honly : ∀ delivery, op.removes delivery = true → delivery.packetId = removed.packetId) :
    (owner.deliveries.entries.swapRemove index).Sublist owner.deliveries.entries := by
  obtain ⟨hlt, hget⟩ := List.getElem?_eq_some_iff.1 hent
  -- no other delivery is removed, for its identifier would be the same
  have hoths : ∀ j delivery, owner.deliveries.entries[j]? = some delivery → j ≠ index →
      op.removes delivery = false := by
    intro j delivery hj hne
    by_contra hremoves
    have hid := honly delivery (by simpa using hremoves)
    exact hne (owner.deliveries.key_injective hj hent hid)
  have hbef : (owner.deliveries.entries.take index).all (!op.removes ·) = true := by
    rw [all_eq_true]
    intro delivery hmem
    obtain ⟨j, hj⟩ := List.getElem?_of_mem hmem
    obtain ⟨hjlt, -⟩ := List.getElem?_eq_some_iff.1 hj
    rw [length_take] at hjlt
    rw [List.getElem?_take, if_pos (by omega)] at hj
    simp [hoths j delivery hj (by omega)]
  have haft : (owner.deliveries.entries.drop (index + 1)).filter (!op.removes ·) =
      owner.deliveries.entries.drop (index + 1) := by
    rw [filter_eq_self]
    intro delivery hmem
    obtain ⟨j, hj⟩ := List.getElem?_of_mem hmem
    rw [List.getElem?_drop] at hj
    simp [hoths _ delivery hj (by omega)]
  have hspl : owner.deliveries.entries =
      owner.deliveries.entries.take index ++ removed :: owner.deliveries.entries.drop (index + 1) := by
    rw [← hget, getElem_cons_drop, take_append_drop]
  have hlen : owner.deliveries.entries.length ≤ index + 2 := by
    unfold OrderSafe at hsafe
    rw [hspl, dropWhile_append_of_pos (by simpa using hbef),
      dropWhile_cons_of_neg (by simp [hop]), filter_cons_of_neg (by simp [hop]), haft,
      length_drop] at hsafe
    omega
  rw [swapRemove_eq_eraseIdx hlt hlen]
  exact eraseIdx_sublist _ _

variable {reply : Reply}

omit [Vstr] in
/-- A transition that reserves nothing and keeps the order. -/
theorem sublist_of_sublist (hrep : reply.reservation = none) (hsub : owner'.deliveryIds.Sublist owner.deliveryIds) :
    owner'.deliveryIds.Sublist (owner.deliveryIds ++ reply.reservation.toList) ∧
      (owner.deliveryIds ++ reply.reservation.toList).Nodup := by
  rw [hrep, Option.toList_none, List.append_nil]
  exact ⟨hsub, deliveryIds_nodup⟩

omit [Vstr] in
theorem sublist_of_eq (hrep : reply.reservation = none) (heq : owner'.deliveryIds = owner.deliveryIds) :
    owner'.deliveryIds.Sublist (owner.deliveryIds ++ reply.reservation.toList) ∧
      (owner.deliveryIds ++ reply.reservation.toList).Nodup :=
  sublist_of_sublist hrep (by rw [heq])

/-- The order is kept by every transition that is safe for it. -/
theorem Transition.deliveryIds_sublist (h : Transition owner op owner' reply) (hsafe : OrderSafe owner op) :
    owner'.deliveryIds.Sublist (owner.deliveryIds ++ reply.reservation.toList) ∧
      (owner.deliveryIds ++ reply.reservation.toList).Nodup := by
  cases h with
  | unchanged _ _ hrep => exact sublist_of_eq hrep rfl
  | advanced _ _ hrep => exact sublist_of_eq hrep rfl
  | opened view takeover expiry will result =>
    refine sublist_of_sublist rfl ?_
    show List.Sublist ((if view.cleanStart then IndexedVec.empty else owner.deliveries).entries.map _) _
    split
    · exact nil_sublist _
    · exact List.Sublist.refl _
  | closed hact =>
    refine sublist_of_sublist rfl ?_
    unfold Session.closed
    split
    · exact nil_sublist _
    · exact List.Sublist.refl _
  | reserved qos candidate hqos hopen hsp hid hfr =>
    have hids : owner.deliveryIds ++ [candidate] =
        (owner.deliveries.append ⟨candidate, qos, .reserved, 0, none⟩ hfr).entries.map (·.packetId) := by
        show _ = (owner.deliveries.entries ++ [_]).map _
        rw [map_append]
        rfl
    show List.Sublist _ (owner.deliveryIds ++ [candidate]) ∧ (owner.deliveryIds ++ [candidate]).Nodup
    rw [hids]
    exact ⟨List.Sublist.refl _, IndexedVec.keys_nodup _⟩
  | committed packetId packet expiry queued delivery index =>
    exact sublist_of_eq rfl (deliveryIds_modifyAt owner index (·.committed packet expiry queued) fun _ => rfl)
  | removed _ index removed deliveries generation _ hrep hent hop honly hents =>
    refine sublist_of_sublist hrep ?_
    show List.Sublist (deliveries.entries.map _) _
    rw [hents]
    exact (swapRemove_sublist hsafe hent hop honly).map _
  | expired now count deliveries hents =>
    refine sublist_of_sublist rfl ?_
    show List.Sublist (deliveries.entries.map _) _
    rw [hents, retainSwap_eq_filter _ (Nat.le_refl _) (by simpa [OrderSafe, Op.removes] using hsafe)]
    rw [take_zero, drop_zero, nil_append]
    exact List.filter_sublist.map _
  | replayed index =>
    exact sublist_of_eq rfl (deliveryIds_modifyAt owner index _ _)
  | released view packetId delivery index pubrel =>
    exact sublist_of_eq rfl (deliveryIds_modifyAt owner index (·.released pubrel) fun _ => rfl)
  | cloned deliveries hents =>
    exact sublist_of_eq rfl (congrArg (List.map _) hents)
  | _ => exact sublist_of_eq rfl rfl

variable {reserved : List UInt16}

/-- One step keeps the table in the order of the reservations. -/
theorem deliveryIds_next (hsafe : (∃ e, step owner op = .error e) ∨ OrderSafe owner op)
    (h : owner.deliveryIds = reserved) : (next owner op).deliveryIds = reservationsNext owner reserved op := by
  have hheld : ∀ o : Owner, (fun packetId => o.deliveries.entries.any (·.packetId == packetId)) =
      fun packetId => o.deliveryIds.contains packetId := by
    intro o
    funext packetId
    rw [Bool.eq_iff_iff]
    simp [Owner.deliveryIds]
  unfold reservationsNext next
  rw [hheld]
  cases hstep : step owner op with
  | error e =>
    subst h
    simp only [append_nil]
    rw [KeyedList.filter_mem_of_sublist (List.Sublist.refl _) (deliveryIds_nodup)]
  | ok r =>
    obtain ⟨owner', reply⟩ := r
    subst h
    have hsafe : OrderSafe owner op := hsafe.resolve_left fun ⟨e, he⟩ => nomatch hstep.symm.trans he
    obtain ⟨hsub, hnd⟩ := (step_transition hstep).deliveryIds_sublist hsafe
    exact (KeyedList.filter_mem_of_sublist hsub hnd).symm

theorem deliveryIds_run {ops : List Op}
    (hsafe : Along (fun owner op => (∃ e, step owner op = .error e) ∨ OrderSafe owner op) owner ops)
    (h : owner.deliveryIds = reserved) : (run owner ops).deliveryIds = reservations owner reserved ops := by
  induction ops generalizing owner reserved with
  | nil => exact h
  | cons op ops ih => exact ih hsafe.2 (deliveryIds_next hsafe.1 h)

/-- What is handed out for an index is the delivery there. -/
theorem deliveryPendingAtEx_packetId {now : UInt64} {delivery : Delivery}
    (h : deliveryPendingAtEx owner index now = .ok (owner', delivery)) :
    owner.deliveryIds[index]? = some delivery.packetId ∧ owner'.deliveryIds = owner.deliveryIds := by
  obtain ⟨entry, stored, packet, hent, -, -, -, rfl, rfl⟩ := deliveryPendingAtEx_eq_ok h
  refine ⟨?_, deliveryIds_modifyAt owner index _ (Delivery.replayed_packetId packet)⟩
  rw [Owner.deliveryIds, List.getElem?_map, hent, Delivery.replayed_packetId]
  rfl

/-- The enumeration follows the table. -/
theorem enumerate_sublist (now : UInt64) (count index : Nat) (owner : Owner) :
    (enumerate now count index owner).Sublist (owner.deliveryIds.drop index) := by
  induction count generalizing index owner with
  | zero => exact nil_sublist _
  | succ count ih =>
    unfold enumerate
    split
    · rename_i owner' delivery hpend
      obtain ⟨hget, hids⟩ := deliveryPendingAtEx_packetId hpend
      obtain ⟨hlt, hid⟩ := List.getElem?_eq_some_iff.1 hget
      rw [drop_eq_getElem_cons hlt, hid, ← hids]
      exact (ih (index + 1) owner').cons_cons _
    · refine (ih (index + 1) owner).trans ?_
      rw [← drop_drop]
      exact drop_sublist _ _

/-- In every run whose operations fail or are safe for the order, the table holds the deliveries in the order
    of their reservation, and they are handed out in that order. -/
theorem replay_in_order {config : SessionConfig} {created : Owner} (hcr : ownerCreate config = some created)
    (ops : List Op) (hsafe : Along (fun owner op => (∃ e, step owner op = .error e) ∨ OrderSafe owner op) created ops)
    (now : UInt64) (count : Nat) :
    (run created ops).deliveryIds = reservations created [] ops ∧
      (enumerate now count 0 (run created ops)).Sublist (reservations created [] ops) := by
  have hnil : created.deliveryIds = [] := by
    unfold ownerCreate at hcr
    split at hcr
    · cases hcr
      rfl
    · cases hcr
  have hids := deliveryIds_run hsafe hnil
  refine ⟨hids, ?_⟩
  rw [← hids]
  exact enumerate_sublist now count 0 _

end

section Example

attribute [local instance] asciiVstr

/-- Three deliveries are sent and one of them is acknowledged. -/
def acknowledged (packetId : UInt8) : List Op :=
  [.connect persistentConnect false, .reserve 1, .reserve 1, .reserve 1, .commit 1 (samplePacket 1) 0 false,
    .commit 2 (samplePacket 2) 0 false, .commit 3 (samplePacket 3) 0 false, .ack ⟨.v311, .puback, 0, [0, packetId]⟩]

/-- The acknowledgement of the second delivery keeps the order of the others. -/
theorem replay_in_order_second : reservations smallOwner [] (acknowledged 2) = [1, 3] ∧
    (enumerate 1 3 0 (run smallOwner (acknowledged 2))).Sublist [1, 3] :=
  ⟨rfl, (replay_in_order ownerCreate_smallConfig (acknowledged 2)
    ⟨.inr (by decide), .inr (by decide), .inr (by decide), .inr (by decide), .inr (by decide), .inr (by decide),
      .inr (by decide), .inr (by decide), trivial⟩ 1 3).2⟩

/-- The acknowledgement of the first delivery puts the third before the second. -/
theorem replay_out_of_order :
    enumerate 1 3 0 (run smallOwner (acknowledged 1)) = [3, 2] ∧
      reservations smallOwner [] (acknowledged 1) = [2, 3] ∧
      ¬(enumerate 1 3 0 (run smallOwner (acknowledged 1))).Sublist (reservations smallOwner [] (acknowledged 1)) := by
  decide

end Example

end Flowie.Session
