import Flowie.Endpoint.FanOut
import Flowie.Endpoint.SelectorView

/-!
# The cursors of the selector

A fan-out moves the cursors of shared entries on and changes nothing else of the selector.
-/

namespace Flowie.Endpoint

open Mqtt Session

namespace Selector

/-- The same selector up to the cursors of its entries. -/
structure Rotated (selector selector' : Selector) : Prop where
  topics : selector'.topics = selector.topics
  entries : ∀ slot, ∃ cursor : Entry → UInt64,
    selector'.entries.get slot = (selector.entries.get slot).map fun entry => entry.withCursor (cursor entry)

variable {selector selector' : Selector}

theorem Rotated.refl (selector : Selector) : selector.Rotated selector := by
  refine ⟨rfl, fun slot => ⟨Entry.cursor, ?_⟩⟩
  cases selector.entries.get slot with
  | none => rfl
  | some entry => rfl

theorem Rotated.setCursor (h : selector.Rotated selector') (slot : Nat) (cursor : UInt64) :
    selector.Rotated { selector' with entries := setCursor selector'.entries slot cursor } := by
  refine ⟨h.topics, fun other => ?_⟩
  obtain ⟨moved, hmvd⟩ := h.entries other
  rw [Endpoint.setCursor, SlotMap.get_modifyAt, Function.update_apply]
  split
  · rename_i hoth
    refine ⟨fun _ => cursor, ?_⟩
    rw [← hoth, hmvd, Option.map_map]
    rfl
  · exact ⟨moved, hmvd⟩

variable {slot : Nat} (h : selector.Rotated selector')
include h

/-- The entry of a slot before the cursors moved. -/
theorem Rotated.get {entry' : Entry} (hget : selector'.entries.get slot = some entry') :
    ∃ entry cursor, selector.entries.get slot = some entry ∧ entry' = entry.withCursor cursor := by
  obtain ⟨cursor, hmvd⟩ := h.entries slot
  rw [hmvd, Option.map_eq_some_iff] at hget
  obtain ⟨entry, hold, rfl⟩ := hget
  exact ⟨entry, _, hold, rfl⟩

theorem Rotated.get' {entry : Entry} (hget : selector.entries.get slot = some entry) :
    ∃ cursor, selector'.entries.get slot = some (entry.withCursor cursor) := by
  obtain ⟨cursor, hmvd⟩ := h.entries slot
  exact ⟨cursor entry, by rw [hmvd, hget]; rfl⟩

theorem Rotated.view : selector'.view = selector.view := by
  funext filter k
  apply Option.ext
  intro member
  rw [view_eq_some_iff, view_eq_some_iff]
  constructor
  · rintro ⟨slot, entry', hget, hfil, hfind⟩
    obtain ⟨entry, cursor, hold, rfl⟩ := h.get hget
    exact ⟨slot, entry, hold, hfil, hfind⟩
  · rintro ⟨slot, entry, hget, hfil, hfind⟩
    obtain ⟨cursor, hnew⟩ := h.get' hget
    exact ⟨slot, _, hnew, hfil, hfind⟩

theorem Rotated.valid [Vstr] {maxSessions : Nat} (hval : selector.Valid maxSessions) : selector'.Valid maxSessions := by
  have htable : selector'.table = selector.table := by
    rw [table, table, h.topics]
    congr 1
    funext slot
    obtain ⟨cursor, hmvd⟩ := h.entries slot
    rw [hmvd]
    cases selector.entries.get slot with
    | none => rfl
    | some entry => rfl
  refine ⟨?_, ?_, ?_⟩
  · intro slot entry' hget
    obtain ⟨entry, cursor, hold, rfl⟩ := h.get hget
    exact ⟨(hval.entry hold).members, (hval.entry hold).nonempty, (hval.entry hold).shared⟩
  · intro slot entry' hget
    obtain ⟨entry, cursor, hold, rfl⟩ := h.get hget
    have hbd := hval.bound hold
    exact hbd
  · rw [htable]
    exact hval.topics

end Selector

section

variable [Vstr] {owners : List Owner} {publisherSessionId : UInt64} {topic : Bytes} {selector : Selector}

theorem selectEntry_rotated {acc acc' : Selector × FanOut} {slot : Nat}
    (h : selectEntry owners publisherSessionId topic acc slot = .ok acc') (hacc : selector.Rotated acc.1) :
    selector.Rotated acc'.1 := by
  unfold selectEntry at h
  split at h
  · cases h
  split at h
  · cases h
  · cases h
    exact hacc
  split at h
  · split at h
    · cases h
    · cases h
      exact hacc
  · split at h
    · cases h
    · cases h
      exact hacc.setCursor slot _

/-- A fan-out gives the selector back with other cursors. -/
theorem fanoutSelect_rotated {maxSessions : Nat} {selector' : Selector} {targets : List Target}
    (h : fanoutSelect owners maxSessions selector publisherSessionId topic = .ok (selector', targets)) :
    selector.Rotated selector' := by
  unfold fanoutSelect at h
  split_ifs at h
  split at h
  · cases h
  split at h
  · cases h
  split at h
  · cases h
  rename_i hloop
  split at h
  · cases h
  · cases h
    exact Run.foldlM_kept (fun _ _ _ hacc hstep => selectEntry_rotated hstep hacc) hloop (Selector.Rotated.refl selector)

end

end Flowie.Endpoint
