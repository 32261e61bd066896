import Flowie.Lib.KeyedList
import Flowie.Session.Steps

/-!
# What holds of the inbound packet identifiers in every run

Packet identifiers in flight are distinct and nonzero, only QoS 2 is released, and a session
without a connection has no identifier that still waits for its settlement.
-/

namespace Flowie.Session

open Mqtt List

theorem mem_inflightClear {keep : Bool} {inflight : List Inflight} {entry : Inflight} :
    entry ∈ inflightClear keep inflight ↔ entry ∈ inflight ∧ keep = true ∧ entry.state = .qos2Release := by
  unfold inflightClear
  rw [(retainSwap_all_perm _ inflight).mem_iff, mem_filter]
  simp

theorem inflightClear_false (inflight : List Inflight) : inflightClear false inflight = [] := by
  apply List.eq_nil_iff_forall_not_mem.2
  intro entry hmem
  have hkeep := (mem_inflightClear.1 hmem).2.1
  cases hkeep

/-- The inbound part of a session that runs can reach. -/
structure Inbound (owner : Owner) : Prop where
  config : configValid owner.config = true
  distinct : (owner.inflight.map (·.packetId)).Nodup
  entry : ∀ e ∈ owner.inflight, e.packetId ≠ 0 ∧ (e.qos = 1 ∨ e.qos = 2) ∧ (e.state = .qos2Release → e.qos = 2)
  idle : owner.active = false → ∀ e ∈ owner.inflight, e.state = .qos2Release
  room : owner.inflight.length ≤ owner.config.maxInflight
  live : owner.active = true → owner.version.supported = true ∧ owner.sessionGeneration ≠ 0

namespace Inbound

variable {owner owner' : Owner}

theorem eq_of_packetId (hi : Inbound owner) {a b : Inflight} (ha : a ∈ owner.inflight) (hb : b ∈ owner.inflight)
    (h : a.packetId = b.packetId) : a = b :=
  inj_on_of_nodup_map hi.distinct ha hb h

/-- Keeping a part of the records, in any order. -/
theorem of_subperm (hi : Inbound owner) (hcfg : owner'.config = owner.config)
    (hsub : owner'.inflight.Subperm owner.inflight)
    (hidle : owner'.active = false → ∀ e ∈ owner'.inflight, e.state = .qos2Release)
    (hlive : owner'.active = true → owner'.version.supported = true ∧ owner'.sessionGeneration ≠ 0) : Inbound owner' := by
  constructor
  · rw [hcfg]
    exact hi.config
  · exact KeyedList.nodup_of_subperm hi.distinct hsub
  · exact fun e he => hi.entry e (hsub.subset he)
  · exact hidle
  · rw [hcfg]
    exact Nat.le_trans hsub.length_le hi.room
  · exact hlive

theorem congr (hi : Inbound owner) (hcfg : owner'.config = owner.config)
    (hinfl : owner'.inflight = owner.inflight) (hact : owner'.active = owner.active)
    (hver : owner'.version = owner.version) (hgen : owner'.sessionGeneration = owner.sessionGeneration) :
    Inbound owner' := by
  apply hi.of_subperm hcfg (hinfl ▸ List.Subperm.refl _)
  · rw [hact, hinfl]
    exact hi.idle
  · rw [hact, hver, hgen]
    exact hi.live

theorem create {config : SessionConfig} (h : ownerCreate config = some owner) : Inbound owner := by
  unfold ownerCreate at h
  split at h
  · rename_i hval
    cases h
    exact ⟨hval, nodup_nil, by simp, by simp, Nat.zero_le _, by simp⟩
  · cases h

theorem setState (hi : Inbound owner) {index : Nat} {e : Inflight} (hent : owner.inflight[index]? = some e)
    (hqos : e.qos = 2) (hact : owner.active = true) :
    Inbound { owner.advanced with inflight := owner.inflight.set index { e with state := .qos2Release } } := by
  have hmem : e ∈ owner.inflight := mem_of_getElem? hent
  constructor
  · exact hi.config
  · show ((owner.inflight.set index { e with state := .qos2Release }).map (·.packetId)).Nodup
    rw [KeyedList.map_set_of_key (b := { e with state := .qos2Release }) hent rfl]
    exact hi.distinct
  · intro a ha
    rcases mem_or_eq_of_mem_set ha with hold | rfl
    · exact hi.entry a hold
    · exact ⟨(hi.entry e hmem).1, (hi.entry e hmem).2.1, fun _ => hqos⟩
  · intro hidle
    have hfls : owner.active = false := hidle
    rw [hact] at hfls
    cases hfls
  · exact Nat.le_trans (Nat.le_of_eq length_set) hi.room
  · exact hi.live

theorem append (hi : Inbound owner) {packetId : UInt16} {qos : UInt8} (hact : owner.active = true)
    (hqos : qos = 1 ∨ qos = 2) (hid : packetId ≠ 0) (hfr : ∀ e ∈ owner.inflight, e.packetId ≠ packetId)
    (hsp : owner.inflight.length < owner.config.maxInflight) :
    Inbound { owner.advanced with inflight := owner.inflight ++ [⟨packetId, qos, .settlement⟩] } := by
  constructor
  · exact hi.config
  · exact KeyedList.nodup_append hi.distinct hfr
  · intro e he
    rcases List.mem_append.1 he with hold | hnew
    · exact hi.entry e hold
    · rw [List.mem_singleton.1 hnew]
      exact ⟨hid, hqos, fun h => by cases h⟩
  · intro hidle
    have hfls : owner.active = false := hidle
    rw [hact] at hfls
    cases hfls
  · rw [length_append]
    exact hsp
  · exact hi.live

section

variable [Vstr] (hi : Inbound owner)
include hi

theorem opened {view : ConnectView} {takeover : Bool} {expiry : UInt32} {will : Option Will}
    (hopen : Openable owner view takeover) : Inbound (Session.opened owner view expiry will) := by
  refine hi.of_subperm rfl ?_ ?_ ?_
  · show (if view.cleanStart then inflightClear false owner.inflight else owner.inflight).Subperm owner.inflight
    split
    · rw [inflightClear_false]
      exact nil_subperm
    · exact List.Subperm.refl _
  · intro hidle
    cases hidle
  · exact fun _ => ⟨hopen.supported, generation_succ_ne_zero hopen.sessionGeneration⟩

omit [Vstr] in
theorem closed : Inbound (Session.closed owner) := by
  unfold Session.closed
  split
  · refine hi.of_subperm rfl ?_ ?_ ?_
    · exact (inflightClear_false owner.inflight).symm ▸ nil_subperm
    · intro _ e he
      rw [inflightClear_false] at he
      cases he
    · intro hact
      cases hact
  · refine hi.of_subperm rfl ?_ ?_ ?_
    · exact (retainSwap_all_perm _ _).subperm.trans List.filter_sublist.subperm
    · intro _ e he
      exact (mem_inflightClear.1 he).2.2
    · intro hact
      cases hact

theorem transition {op : Op} {reply : Reply} (h : Transition owner op owner' reply) : Inbound owner' := by
  cases h with
  | unchanged => exact hi
  | opened view takeover expiry will result hchk => exact hi.opened (openable_of_openCheck hchk)
  | closed => exact Inbound.closed (hi.congr rfl rfl rfl rfl rfl)
  | begun publish result hact hqos hid hfr hsp => exact hi.append hact hqos hid hfr hsp
  | puback route request entry index hent =>
    have hsub := swapRemove_subperm hent
    exact hi.of_subperm rfl hsub (fun hidle e he => hi.idle hidle e (hsub.subset he)) hi.live
  | pubrec route request entry index hact hent hst hqos =>
    have hqos2 := (hi.entry entry (mem_of_getElem? hent)).2.1.resolve_left hqos
    exact hi.setState hent hqos2 hact
  | pubcomp route entry index hent =>
    have hsub := swapRemove_subperm hent
    exact hi.of_subperm rfl hsub (fun hidle e he => hi.idle hidle e (hsub.subset he)) hi.live
  | _ => exact hi.congr rfl rfl rfl rfl rfl

theorem run {ops : List Op} : Inbound (Session.run owner ops) :=
  run_induction ops hi fun _ _ _ _ _ ho h => ho.transition h

end

end Inbound

end Flowie.Session
