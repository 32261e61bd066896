import Flowie.Session.Steps

/-!
# What an operation does to one delivery

`Change` says how an operation can change a delivery, `Ends` how it can take it away. Every successful
operation keeps, changes or ends each delivery it finds (`Transition.fate`), and every delivery it leaves
was there, was changed or was just reserved (`Transition.origin`).
-/

namespace Flowie.Session

open Mqtt List

section

variable [Vstr]

/-- How an operation changes a delivery of an owner of the version. -/
inductive Change (version : Version) (op : Op) (delivery : Delivery) : Delivery → Prop
  | committed (packet : Bytes) (expiry : UInt64) (queued : Bool) (hop : op = .commit delivery.packetId packet expiry queued)
      (hst : delivery.state = .reserved) : Change version op delivery (delivery.committed packet expiry queued)
  | replayed (index : Nat) (now : UInt64) (stored packet : Bytes) (hop : op = .pendingAt index now)
      (hsto : delivery.packet = some stored) (hst : delivery.state ≠ .reserved)
      (hpkt : pendingPacket version delivery stored now = .ok packet) :
      Change version op delivery (delivery.replayed packet)
  | released (view : PacketView) (pubrel : Bytes) (hop : op = .ack view) (hst : delivery.state = .waitPubrec)
      (hqos : delivery.qos = 2)
      (henc : controlPacketEncode (pubrelPacket version delivery.packetId) 32 = .ok pubrel) :
      Change version op delivery (delivery.released pubrel)

/-- An operation that discards the session: a CONNECT that starts clean, or a close without an expiry
    interval. -/
def Op.discards (owner : Owner) : Op → Bool
  | .connect view _ => view.cleanStart
  | .close => owner.sessionExpiryInterval == 0
  | _ => false

/-- An operation that takes the delivery away. -/
def Op.ends (owner : Owner) (delivery : Delivery) (op : Op) : Bool := op.discards owner || op.removes delivery

variable {version : Version} {owner owner' : Owner} {op : Op} {reply : Reply} {delivery delivery' : Delivery}

section
variable (h : Change version op delivery delivery')
include h

theorem Change.packetId : delivery'.packetId = delivery.packetId := by
  cases h with
  | committed => rfl
  | replayed _ _ _ packet => exact Delivery.replayed_packetId packet delivery
  | released => rfl

theorem Change.qos : delivery'.qos = delivery.qos := by
  cases h with
  | committed => rfl
  | replayed _ _ _ packet => exact Delivery.replayed_qos packet delivery
  | released => rfl

end

omit [Vstr] in
theorem getElem?_modifyAt (index : Nat) (f : Delivery → Delivery) (hf : ∀ delivery, (f delivery).packetId = delivery.packetId)
    (i : Nat) : (deliveryModifyAt owner index f hf).deliveries.entries[i]? =
      (fun delivery => if index = i then f delivery else delivery) <$> owner.deliveries.entries[i]? :=
  List.getElem?_modify ..

variable {index : Nat} {changed : Delivery}

section

omit [Vstr]

variable (f : Delivery → Delivery) (hf : ∀ delivery, (f delivery).packetId = delivery.packetId)
include hf

variable (hent : owner.deliveries.entries[index]? = some changed)
include hent

theorem mem_modifyAt_changed : f changed ∈ (deliveryModifyAt owner index f hf).deliveries.entries := by
  refine mem_of_getElem? (i := index) ?_
  rw [getElem?_modifyAt, hent]
  simp

theorem mem_modifyAt_of_mem (hmem : delivery ∈ owner.deliveries.entries) :
    delivery ∈ (deliveryModifyAt owner index f hf).deliveries.entries ∨
      delivery = changed ∧ f changed ∈ (deliveryModifyAt owner index f hf).deliveries.entries := by
  obtain ⟨i, hi⟩ := mem_iff_getElem?.1 hmem
  by_cases hix : index = i
  · subst hix
    obtain rfl : delivery = changed := Option.mem_unique hi hent
    exact .inr ⟨rfl, mem_modifyAt_changed f hf hent⟩
  · refine .inl (mem_of_getElem? (i := i) ?_)
    rw [getElem?_modifyAt, hi]
    simp [hix]

theorem mem_of_mem_modifyAt (hmem : delivery' ∈ (deliveryModifyAt owner index f hf).deliveries.entries) :
    delivery' ∈ owner.deliveries.entries ∨ delivery' = f changed := by
  have hmem : delivery' ∈ (owner.deliveries.modifyAt index f hf).entries := hmem
  rcases IndexedVec.mem_modifyAt hmem with hold | ⟨b, hb, rfl⟩
  · exact .inl hold
  · rw [Option.mem_unique hent hb]
    exact .inr rfl

end

variable (h : Transition owner op owner' reply)
include h

/-- A delivery is kept, changed or taken away. -/
theorem Transition.fate (hmem : delivery ∈ owner.deliveries.entries) :
    delivery ∈ owner'.deliveries.entries ∨
      (∃ delivery' ∈ owner'.deliveries.entries, Change owner.version op delivery delivery') ∨
      op.ends owner delivery = true := by
  cases h with
  | opened view takeover =>
    by_cases hcln : view.cleanStart = true
    · exact .inr (.inr (by simp [Op.ends, Op.discards, hcln]))
    · exact .inl (by simpa [Session.opened, hcln] using hmem)
  | closed =>
    by_cases hexp : owner.sessionExpiryInterval = 0
    · exact .inr (.inr (by simp [Op.ends, Op.discards, hexp]))
    refine .inl ?_
    unfold Session.closed
    split
    · rename_i hzero
      exact absurd hzero hexp
    · exact hmem
  | reserved => exact .inl (mem_append_left _ hmem)
  | committed packetId packet expiry queued found index hlook hst =>
    obtain ⟨-, hent, rfl⟩ := deliveryLookup_eq_ok.1 hlook
    rcases mem_modifyAt_of_mem (·.committed packet expiry queued) (fun _ => rfl) hent hmem with hkept | ⟨rfl, hchg⟩
    · exact .inl hkept
    · exact .inr (.inl ⟨_, hchg, .committed packet expiry queued rfl hst⟩)
  | removed _ index removed deliveries _ _ _ hent hop _ hents =>
    have hcases : delivery = removed ∨ delivery ∈ owner.deliveries.entries.swapRemove index := by
      rw [← mem_cons]
      exact (cons_swapRemove_perm hent).mem_iff.2 hmem
    rcases hcases with rfl | hkept
    · exact .inr (.inr (by simp [Op.ends, hop]))
    · exact .inl (by rw [hents]; exact hkept)
  | expired now count deliveries hents =>
    by_cases hexpd : delivery.expired now = true
    · exact .inr (.inr (by simp [Op.ends, Op.removes, hexpd]))
    refine .inl ?_
    rw [hents, (retainSwap_all_perm _ _).mem_iff, mem_filter]
    exact ⟨hmem, by simpa using hexpd⟩
  | replayed index now found stored packet hent hsto hst hpkt =>
    rcases mem_modifyAt_of_mem (·.replayed packet) (Delivery.replayed_packetId packet) hent hmem with
      hkept | ⟨rfl, hchg⟩
    · exact .inl hkept
    · exact .inr (.inl ⟨_, hchg, .replayed index now stored packet rfl hsto hst hpkt⟩)
  | released view packetId found index pubrel _ hlook hst hqos henc =>
    obtain ⟨-, hent, rfl⟩ := deliveryLookup_eq_ok.1 hlook
    rcases mem_modifyAt_of_mem (·.released pubrel) (fun _ => rfl) hent hmem with hkept | ⟨rfl, hchg⟩
    · exact .inl hkept
    · exact .inr (.inl ⟨_, hchg, .released view pubrel rfl hst hqos henc⟩)
  | cloned deliveries hents => exact .inl (by rw [hents]; exact hmem)
  | _ => exact .inl hmem

/-- A delivery was there before, or is a changed one, or has just been reserved. -/
theorem Transition.origin (hmem : delivery' ∈ owner'.deliveries.entries) :
    delivery' ∈ owner.deliveries.entries ∨
      (∃ delivery ∈ owner.deliveries.entries, Change owner.version op delivery delivery') ∨
      ∃ qos packetId, op = .reserve qos ∧ packetId ≠ 0 ∧ delivery' = ⟨packetId, qos, .reserved, 0, none⟩ := by
  cases h with
  | opened view takeover =>
    have hmem : delivery' ∈ (if view.cleanStart then IndexedVec.empty else owner.deliveries).entries := hmem
    split at hmem
    · cases hmem
    · exact .inl hmem
  | closed =>
    unfold Session.closed at hmem
    split at hmem
    · cases hmem
    · exact .inl hmem
  | reserved qos candidate _ _ _ hid =>
    rcases List.mem_append.1 hmem with hold | hnew
    · exact .inl hold
    · exact .inr (.inr ⟨qos, candidate, rfl, hid, List.mem_singleton.1 hnew⟩)
  | committed packetId packet expiry queued found index hlook hst =>
    obtain ⟨-, hent, rfl⟩ := deliveryLookup_eq_ok.1 hlook
    rcases mem_of_mem_modifyAt (·.committed packet expiry queued) (fun _ => rfl) hent hmem with hold | rfl
    · exact .inl hold
    · exact .inr (.inl ⟨found, mem_of_getElem? hent, .committed packet expiry queued rfl hst⟩)
  | removed _ index removed deliveries _ _ _ hent _ _ hents =>
    rw [hents] at hmem
    exact .inl ((swapRemove_subperm hent).subset hmem)
  | expired now count deliveries hents =>
    have hmem : delivery' ∈ deliveries.entries := hmem
    rw [hents, (retainSwap_all_perm _ _).mem_iff] at hmem
    exact .inl (List.mem_filter.1 hmem).1
  | replayed index now found stored packet hent hsto hst hpkt =>
    rcases mem_of_mem_modifyAt (·.replayed packet) (Delivery.replayed_packetId packet) hent hmem with hold | rfl
    · exact .inl hold
    · exact .inr (.inl ⟨found, mem_of_getElem? hent, .replayed index now stored packet rfl hsto hst hpkt⟩)
  | released view packetId found index pubrel _ hlook hst hqos henc =>
    obtain ⟨-, hent, rfl⟩ := deliveryLookup_eq_ok.1 hlook
    rcases mem_of_mem_modifyAt (·.released pubrel) (fun _ => rfl) hent hmem with hold | rfl
    · exact .inl hold
    · exact .inr (.inl ⟨found, mem_of_getElem? hent, .released view pubrel rfl hst hqos henc⟩)
  | cloned deliveries hents =>
    rw [show (Owner.deliveries { owner with deliveries := deliveries }) = deliveries from rfl, hents] at hmem
    exact .inl hmem
  | _ => exact .inl hmem

end

end Flowie.Session
