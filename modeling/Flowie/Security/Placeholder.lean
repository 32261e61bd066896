import Flowie.Security.Emission

/-!
# The placeholder walk, level by level

A placeholder pattern stands for its concrete levels: every placeholder replaced by the
identity of the requester. The code visits the pattern with `+` for every placeholder and then
walks pattern and resource together. The concrete levels contain a request exactly when the
pattern with `+` does and the request spells every identity (`levelsCover_concrete`).
-/

namespace Flowie.Security

open Mqtt LevelFilter TopicNode List

/-- A pattern level with its identity put in; `none` when the identity is missing or is no
    single level. -/
def concreteSegment (context : SecurityContext) (segment : Bytes) : Option Bytes :=
  if isPlaceholder segment then expectedIdentity context segment else some segment

def concreteLevels (context : SecurityContext) : List Bytes → Option (List Bytes)
  | [] => some []
  | segment :: rest =>
    match concreteSegment context segment, concreteLevels context rest with
    | some level, some ls => some (level :: ls)
    | _, _ => none

/-- Every placeholder finds its identity at its own level number. -/
def SpellsIdentities (context : SecurityContext) (pattern request : List Bytes) : Prop :=
  ∀ (k : Nat) (segment : Bytes), pattern[k]? = some segment → isPlaceholder segment = true →
    ∃ l, request[k]? = some l ∧ expectedIdentity context segment = some l

section Walk

variable {context : SecurityContext} {segment e : Bytes}

theorem expectedIdentity_valid (h : expectedIdentity context segment = some e) : identitySegmentValid e = true := by
  rw [expectedIdentity] at h
  split at h
  next =>
    split at h
    next hv => exact Option.some.inj h ▸ hv
    next => cases h
  next =>
    split at h
    next =>
      split at h
      next hv => exact Option.some.inj h ▸ hv
      next => cases h
    next =>
      rw [roleClientId] at h
      split at h
      next => cases h
      next =>
        split at h
        next => cases h
        next =>
          dsimp only at h
          split at h
          next => cases h
          next =>
            split at h
            next hv => exact Option.some.inj h ▸ hv
            next => cases h

theorem identitySegmentValid_iff : identitySegmentValid e = true ↔ e ≠ [] ∧ slash ∉ e ∧ plus ∉ e ∧ hash ∉ e := by
  simp only [identitySegmentValid, Bool.and_eq_true, Bool.not_eq_true', isEmpty_eq_false_iff, all_eq_true, bne_iff_ne]
  constructor
  · rintro ⟨h1, h2⟩
    exact ⟨h1, fun h => (h2 _ h).1.1 rfl, fun h => (h2 _ h).1.2 rfl, fun h => (h2 _ h).2 rfl⟩
  · rintro ⟨h1, hs, hp, hh⟩
    exact ⟨h1, fun ch hch => ⟨⟨fun h => hs (h ▸ hch), fun h => hp (h ▸ hch)⟩, fun h => hh (h ▸ hch)⟩⟩

theorem expectedIdentity_literal (h : expectedIdentity context segment = some e) : e ≠ [plus] ∧ e ≠ [hash] := by
  obtain ⟨-, -, hp, hh⟩ := identitySegmentValid_iff.1 (expectedIdentity_valid h)
  constructor
  · rintro rfl
    simp at hp
  · rintro rfl
    simp at hh

theorem not_isPlaceholder_hash : isPlaceholder [hash] = false := by decide

theorem compileSegment_hash : compileSegment segment = [hash] ↔ segment = [hash] := by
  rw [compileSegment]
  split
  next h =>
    constructor
    · intro hc
      exact absurd hc (by decide)
    rintro rfl
    rw [not_isPlaceholder_hash] at h
    cases h
  next => rfl

/-- Which pattern levels leave a `#` behind. -/
theorem concreteSegment_hash : concreteSegment context segment = some [hash] ↔ segment = [hash] := by
  rw [concreteSegment]
  split
  next h =>
    constructor
    · intro hc
      exact absurd rfl (expectedIdentity_literal hc).2
    rintro rfl
    rw [not_isPlaceholder_hash] at h
    cases h
  next => simp

variable {S : List Bytes}

theorem concreteLevels_cons {rest : List Bytes} :
    concreteLevels context (segment :: rest) = some S ↔
      ∃ l ls, S = l :: ls ∧ concreteSegment context segment = some l ∧ concreteLevels context rest = some ls := by
  rw [concreteLevels]
  split
  next l ls h1 h2 =>
    constructor
    · rintro h
      exact ⟨l, ls, (Option.some.inj h).symm, h1, h2⟩
    · rintro ⟨l', ls', rfl, h1', h2'⟩
      rw [Option.mem_unique h1 h1', Option.mem_unique h2 h2']
  next hno =>
    constructor
    · intro h
      cases h
    · rintro ⟨l, ls, rfl, h1, h2⟩
      exact absurd h2 (hno l ls h1)

variable {P : List Bytes}

theorem concreteLevels_length (h : concreteLevels context P = some S) : S.length = P.length := by
  induction P generalizing S with
  | nil =>
    obtain rfl := Option.some.inj h
    rfl
  | cons segment rest ih =>
    obtain ⟨l, ls, rfl, -, h2⟩ := concreteLevels_cons.1 h
    simp [ih h2]

def levelsCover (F R : List Bytes) : Prop :=
  pathCovers (parseLevels F).path (parseLevels F).multi (parseLevels R).path (parseLevels R).multi = true

theorem levelsCover_hash (R : List Bytes) : levelsCover [[hash]] R := rfl

variable {R : List Bytes}

variable {f : Bytes} {F : List Bytes}

/-- A level that is not the closing `#` covers nothing behind the end of the request. -/
theorem not_levelsCover_end (hf : ¬(f = [hash] ∧ F = [])) (hR : R = [] ∨ R = [[hash]]) : ¬levelsCover (f :: F) R := by
  rw [levelsCover, parseLevels_cons hf]
  rcases hR with rfl | rfl
  · simp [parseLevels, pathCovers]
  · rw [parseLevels_hash]
    simp [pathCovers]

theorem levelsCover_cons {r : Bytes} (hf : ¬(f = [hash] ∧ F = [])) (hr : ¬(r = [hash] ∧ R = [])) :
    levelsCover (f :: F) (r :: R) ↔ (f = [plus] ∨ f = r) ∧ levelsCover F R := by
  rw [levelsCover, parseLevels_cons hf, parseLevels_cons hr]
  by_cases h1 : f = [plus]
  · by_cases h2 : r = [plus] <;> simp [tokenEdge, h1, h2, pathCovers, levelsCover]
  by_cases h2 : r = [plus]
  · simp [tokenEdge, h1, h2, pathCovers]
  · simp [tokenEdge, h1, h2, pathCovers, levelsCover]

/-- The walk compares the first levels and goes on while both sides have levels left. -/
theorem placeholdersMatchLoop_cons {l : Bytes} :
    placeholdersMatchLoop context (segment :: P) (l :: R) = true ↔
      (isPlaceholder segment = true → expectedIdentity context segment = some l) ∧
      (P = [] ∨ R ≠ [] ∧ placeholdersMatchLoop context P R = true) := by
  rw [placeholdersMatchLoop]
  by_cases hs : isPlaceholder segment = true
  · by_cases he : expectedIdentity context segment = some l
    · by_cases hP : P = [] <;> by_cases hR : R = [] <;> simp [hs, he, hP, hR]
    · simp [hs, he]
  · by_cases hP : P = [] <;> by_cases hR : R = [] <;> simp [hs, hP, hR]

variable {i : Bytes} {D I : List Bytes} {d : Bytes}

theorem spellsIdentities_cons :
    SpellsIdentities context (d :: D) (i :: I) ↔
      (isPlaceholder d = true → expectedIdentity context d = some i) ∧ SpellsIdentities context D I := by
  constructor
  · intro h
    refine ⟨fun hd => ?_, fun k s => h (k + 1) s⟩
    obtain ⟨l, hl, he⟩ := h 0 d rfl hd
    rw [he, Option.some.inj hl]
  · rintro ⟨h0, h⟩ k s hs hp
    cases k with
    | zero =>
      obtain rfl := Option.some.inj hs
      exact ⟨i, rfl, h0 hp⟩
    | succ k => exact h k s hs hp

/-- One level of the walk against one level of the concrete filter. -/
theorem segment_walk :
    ((compileSegment d = [plus] ∨ compileSegment d = i) ∧
      (isPlaceholder d = true → expectedIdentity context d = some i)) ↔
    ∃ s, concreteSegment context d = some s ∧ (s = [plus] ∨ s = i) := by
  rw [compileSegment, concreteSegment]
  by_cases hd : isPlaceholder d = true
  · simp only [hd, if_true, true_or, true_and, true_imp_iff]
    constructor
    · exact fun h => ⟨i, h, .inr rfl⟩
    rintro ⟨s, hs, rfl | rfl⟩
    · exact absurd rfl (expectedIdentity_literal hs).1
    · exact hs
  · simp [hd]

/-- Containment in the concrete levels, level by level. -/
theorem levelsCover_concrete :
    (∃ S, concreteLevels context D = some S ∧ levelsCover S I) ↔
      levelsCover (D.map compileSegment) I ∧ SpellsIdentities context D I := by
  induction D generalizing I with
  | nil => simp [concreteLevels, SpellsIdentities]
  | cons d D ih =>
    by_cases hlast : d = [hash] ∧ D = []
    · obtain ⟨rfl, rfl⟩ := hlast
      have hspells : SpellsIdentities context [[hash]] I := by
        intro k segment hk hp
        obtain rfl := List.mem_singleton.1 (mem_of_getElem? hk)
        rw [not_isPlaceholder_hash] at hp
        cases hp
      exact iff_of_true ⟨[[hash]], by simp [concreteLevels, concreteSegment, not_isPlaceholder_hash], levelsCover_hash I⟩
        ⟨levelsCover_hash I, hspells⟩
    have hc : ¬(compileSegment d = [hash] ∧ D.map compileSegment = []) := by
      rw [compileSegment_hash]
      simpa using hlast
    have hs : ∀ s ls, concreteSegment context d = some s → concreteLevels context D = some ls →
        ¬(s = [hash] ∧ ls = []) := by
      rintro s ls h1 h2 ⟨rfl, rfl⟩
      exact hlast ⟨concreteSegment_hash.1 h1, List.length_eq_zero_iff.1 (concreteLevels_length h2).symm⟩
    by_cases hend : I = [] ∨ I = [[hash]]
    · refine iff_of_false ?_ fun h => not_levelsCover_end hc hend h.1
      rintro ⟨S, hS, hcov⟩
      obtain ⟨s, ls, rfl, h1, h2⟩ := concreteLevels_cons.1 hS
      exact not_levelsCover_end (hs s ls h1 h2) hend hcov
    obtain ⟨i, I, rfl⟩ := exists_cons_of_ne_nil fun h => hend (.inl h)
    have hi : ¬(i = [hash] ∧ I = []) := fun h => hend (.inr (by rw [h.1, h.2]))
    rw [map_cons, levelsCover_cons hc hi, spellsIdentities_cons, and_and_and_comm, segment_walk, ← ih]
    constructor
    · rintro ⟨S, hS, hcov⟩
      obtain ⟨s, ls, rfl, h1, h2⟩ := concreteLevels_cons.1 hS
      rw [levelsCover_cons (hs s ls h1 h2) hi] at hcov
      exact ⟨⟨s, h1, hcov.1⟩, ls, h2, hcov.2⟩
    · rintro ⟨⟨s, h1, h3⟩, ls, h2, h4⟩
      exact ⟨s :: ls, concreteLevels_cons.2 ⟨s, ls, rfl, h1, h2⟩, (levelsCover_cons (hs s ls h1 h2) hi).2 ⟨h3, h4⟩⟩

theorem wildFirst_parseLevels (l : Bytes) (ls : List Bytes) :
    (parseLevels (l :: ls)).wildFirst = true ↔ l = [plus] ∨ l = [hash] ∧ ls = [] := by
  by_cases h : l = [hash] ∧ ls = []
  · rw [h.1, h.2]
    simp [parseLevels, wildFirst]
  · rw [parseLevels_cons h, tokenEdge]
    by_cases hp : l = [plus] <;> simp [wildFirst, hp, h]

theorem covers_parseLevels :
    (parseLevels F).covers sysLevel (parseLevels R) = true ↔
      levelsCover F R ∧ ¬((parseLevels F).wildFirst = true ∧ sysFirst sysLevel (parseLevels R) = true) := by
  rw [covers, Bool.and_eq_true, levelsCover, Bool.not_eq_true', Bool.and_comm, ← Bool.and_eq_true, Bool.not_eq_true]

/-- The index keeps a placeholder in front as `+`. -/
theorem wildFirst_compiled :
    (parseLevels (D.map compileSegment)).wildFirst = true ↔
      (parseLevels D).wildFirst = true ∨ D.head?.any isPlaceholder = true := by
  cases D with
  | nil => simp [parseLevels, wildFirst]
  | cons d D =>
    rw [map_cons, wildFirst_parseLevels, wildFirst_parseLevels, compileSegment_hash, compileSegment, map_eq_nil_iff]
    by_cases hd : isPlaceholder d = true <;> simp [hd]

/-- A wildcard in front is one of the pattern: an identity is no wildcard. -/
theorem wildFirst_concrete (h : concreteLevels context D = some S) :
    (parseLevels S).wildFirst = (parseLevels D).wildFirst := by
  cases D with
  | nil =>
    obtain rfl := Option.some.inj h
    rfl
  | cons d D =>
    obtain ⟨s, ls, rfl, h1, h2⟩ := concreteLevels_cons.1 h
    have hnil : ls = [] ↔ D = [] := by
      rw [← List.length_eq_zero_iff, concreteLevels_length h2, List.length_eq_zero_iff]
    rw [Bool.eq_iff_iff, wildFirst_parseLevels, wildFirst_parseLevels, hnil]
    by_cases hd : isPlaceholder d = true
    · rw [concreteSegment, if_pos hd] at h1
      obtain ⟨hp, hh⟩ := expectedIdentity_literal h1
      refine iff_of_false (fun h => h.elim hp fun h => hh h.1) ?_
      rintro (rfl | ⟨rfl, -⟩)
      · exact absurd hd (by decide)
      · exact absurd hd (by decide)
    · rw [concreteSegment, if_neg hd] at h1
      rw [Option.some.inj h1]

end Walk

end Flowie.Security
