import Flowie.Mqtt.TopicLanguage
import Flowie.Mqtt.Wire

/-!
# Matching a topic name against a filter

`flowie_mqtt_topic_matches` validates both spans and walks their levels together. On valid spans
it decides whether the topic is in the language of the filter (`topicMatches_eq`).
-/

namespace Flowie.Mqtt

open LevelFilter List

/-- The loop of `flowie_mqtt_topic_matches`; no level left of the topic is its
    `topic_available = 0`. -/
def topicMatchesLoop : List Bytes → List Bytes → Bool
  | [], _ => false
  | filterLevel :: filterMore, topic =>
    if filterLevel = [hash] then true
    else
      match topic with
      | [] => false
      | topicLevel :: topicMore =>
        if filterLevel ≠ [plus] ∧ filterLevel ≠ topicLevel then false
        else if filterMore.isEmpty then topicMore.isEmpty
        else topicMatchesLoop filterMore topicMore

section

variable [Vstr]

/-- `flowie_mqtt_topic_matches`. -/
def topicMatches (filter topic : Bytes) : Except ParseError Bool :=
  if !topicFilterValidate filter || !topicNameValidate topic then .error .protocolError
  else
    match sharedFilter filter with
    | none => .error .protocolError
    | some effective =>
      if topic.head? = some dollar ∧ (effective.head? = some plus ∨ effective.head? = some hash) then .ok false
      else .ok (topicMatchesLoop (levels effective) (levels topic))

end

variable {ls : List Bytes}

theorem topicMatchesLoop_eq (hne : ls ≠ []) (hv : levelsValid ls) (topic : List Bytes) :
    topicMatchesLoop ls topic = pathAccepts (parseLevels ls).path (parseLevels ls).multi topic := by
  induction ls generalizing topic with
  | nil => exact absurd rfl hne
  | cons l rest ih =>
    rw [topicMatchesLoop.eq_def, parseLevels]
    dsimp only
    rcases hv with ⟨rfl, rfl⟩ | ⟨hl, hv⟩
    · simp [pathAccepts]
    have hh : l ≠ [hash] := by
      rintro rfl
      rcases hl with h | h
      · exact absurd h (by decide)
      · simp at h
    rw [if_neg hh, if_neg fun h => hh h.1]
    cases topic with
    | nil => rfl
    | cons t topic =>
      -- behind the last level of the filter the topic has to end
      have hrest : (if rest.isEmpty then topic.isEmpty else topicMatchesLoop rest topic) =
          pathAccepts (parseLevels rest).path (parseLevels rest).multi topic := by
        by_cases hr : rest = []
        · simp [hr, parseLevels, pathAccepts]
        · rw [if_neg (by simpa using hr), ih hr hv]
      by_cases hp : l = [plus]
      · simp [hp, pathAccepts, ← hrest]
      by_cases ht : l = t
      · subst ht
        simp [hp, pathAccepts, ← hrest]
      · simp [hp, ht, pathAccepts]

/-- A well-placed wildcard opens a filter exactly when its first level is no literal. -/
theorem wildFirst_levelFilter {f : Bytes} (hv : levelsValid (levels f)) :
    (levelFilter f).wildFirst = true ↔ f.head? = some plus ∨ f.head? = some hash := by
  obtain ⟨l, ls, hl⟩ := exists_cons_of_ne_nil (levels_ne_nil f)
  rw [head?_first_level hl (by decide), head?_first_level hl (by decide), levelFilter, hl, parseLevels]
  rw [hl] at hv
  rcases hv with ⟨rfl, rfl⟩ | ⟨rfl | ⟨hp, hh⟩, -⟩
  · simp [wildFirst]
  · simp [wildFirst, show ¬[plus] = [hash] by decide]
  have hplus : l ≠ [plus] := by rintro rfl; simp at hp
  have hhash : l ≠ [hash] := by rintro rfl; simp at hh
  have hfst : ∀ b : UInt8, b ∉ l → l.head? ≠ some b := fun b hb h => hb (mem_of_mem_head? h)
  simp [wildFirst, hplus, hhash, hfst _ hp, hfst _ hh]

theorem sysTopic_levels (topic : Bytes) : sysTopic sysLevel (levels topic) = true ↔ topic.head? = some dollar := by
  obtain ⟨l, ls, hl⟩ := exists_cons_of_ne_nil (levels_ne_nil topic)
  rw [head?_first_level hl (by decide), hl]
  simp [sysTopic, sysLevel]

section

variable [Vstr]

/-- On a valid filter and topic name matching is membership in the language of the filter. -/
theorem topicMatches_eq {filter topic : Bytes} (hf : topicFilterValidate filter = true)
    (ht : topicNameValidate topic = true) : topicMatches filter topic = .ok (filterAccepts filter topic) := by
  obtain ⟨-, -, -, g, hg, hv⟩ := topicFilterValidate_iff.1 hf
  have hloop := topicMatchesLoop_eq (levels_ne_nil g) hv (levels topic)
  have hwild := wildFirst_levelFilter hv
  have hsys := sysTopic_levels topic
  rw [levelFilter] at hwild
  rw [topicMatches, hf, ht, hg, filterAccepts, ← levels_sharedFilter hg, accepts, ← hloop]
  simp only [Bool.not_true, Bool.or_self, Bool.false_eq_true, if_false, ← hwild, ← hsys]
  split
  next h => simp [h.1, h.2]
  next h =>
    have hfls : (sysTopic sysLevel (levels topic) && (parseLevels (levels g)).wildFirst) = false := by
      simpa using h
    rw [hfls, Bool.not_false, Bool.and_true]

end

/-! ## The two cursors -/

/-- `flowie_mqtt_next_level`: the level at a cursor, and the cursor behind its separator when there is one. -/
def nextLevel : Bytes → Bytes × Option Bytes
  | [] => ([], none)
  | ch :: rest => if ch = slash then ([], some rest) else (ch :: (nextLevel rest).1, (nextLevel rest).2)

/-- The loop of `flowie_mqtt_topic_matches` from two cursors; no cursor into the topic is its `topic_available = 0`. -/
def topicMatchesWalk : Nat → Bytes → Option Bytes → Bool
  | 0, _, _ => false
  | fuel + 1, filter, topic =>
    if (nextLevel filter).1 = [hash] then true
    else
      match topic with
      | none => false
      | some topic =>
        if (nextLevel filter).1 ≠ [plus] ∧ (nextLevel filter).1 ≠ (nextLevel topic).1 then false
        else
          match (nextLevel filter).2 with
          | none => (nextLevel topic).2.isNone
          | some filter => topicMatchesWalk fuel filter (nextLevel topic).2

theorem levels_nextLevel (value : Bytes) : levels value = (nextLevel value).1 :: (nextLevel value).2.elim [] levels := by
  induction value with
  | nil => rfl
  | cons ch value ih =>
    rw [levels_cons, nextLevel]
    split
    · rfl
    · rw [ih, modifyHead_cons]

theorem length_nextLevel {value rest : Bytes} (h : (nextLevel value).2 = some rest) : rest.length < value.length := by
  induction value with
  | nil => cases h
  | cons ch value ih =>
    rw [nextLevel] at h
    split at h
    · cases h
      exact Nat.lt_succ_self _
    · exact Nat.lt_succ_of_lt (ih h)

/-- The cursors pass over the levels. -/
theorem topicMatchesWalk_eq {fuel : Nat} {filter : Bytes} (hfuel : filter.length < fuel) (topic : Option Bytes) :
    topicMatchesWalk fuel filter topic = topicMatchesLoop (levels filter) (topic.elim [] levels) := by
  induction fuel generalizing filter topic with
  | zero => exact absurd hfuel (Nat.not_lt_zero _)
  | succ fuel ih =>
    rw [topicMatchesWalk.eq_def, levels_nextLevel filter, topicMatchesLoop.eq_def]
    dsimp only
    split
    · rfl
    cases topic with
    | none => rfl
    | some topic =>
      rw [Option.elim_some, levels_nextLevel topic]
      dsimp only
      split
      · rfl
      cases hmore : (nextLevel filter).2 with
      | none => cases (nextLevel topic).2 <;> simp [levels_ne_nil]
      | some rest =>
        rw [Option.elim_some, if_neg (by simp [levels_ne_nil])]
        exact ih (Nat.lt_of_lt_of_le (length_nextLevel hmore) (Nat.le_of_lt_succ hfuel)) _

/-- The rules of MQTT: `+` stands for one level, a last `#` for any number of levels, every other level for itself. -/
inductive LevelsMatch : List Bytes → List Bytes → Prop
  | done : LevelsMatch [] []
  | multi (topic : List Bytes) : LevelsMatch [[hash]] topic
  | single (level : Bytes) {filter topic : List Bytes} (rest : LevelsMatch filter topic) :
      LevelsMatch ([plus] :: filter) (level :: topic)
  | level {level : Bytes} {filter topic : List Bytes} (hplus : level ≠ [plus]) (hhash : level ≠ [hash])
      (rest : LevelsMatch filter topic) : LevelsMatch (level :: filter) (level :: topic)

theorem levelsMatch_iff (hv : levelsValid ls) (topic : List Bytes) :
    LevelsMatch ls topic ↔ pathAccepts (parseLevels ls).path (parseLevels ls).multi topic = true := by
  induction ls generalizing topic with
  | nil =>
    cases topic with
    | nil => exact iff_of_true .done rfl
    | cons t topic => exact iff_of_false (by rintro ⟨⟩) Bool.false_ne_true
  | cons l rest ih =>
    rw [parseLevels]
    rcases hv with ⟨rfl, rfl⟩ | ⟨hl, hv⟩
    · exact iff_of_true (.multi topic) rfl
    have hh : l ≠ [hash] := by
      rintro rfl
      simp [show hash ≠ plus by decide] at hl
    rw [if_neg fun h => hh h.1]
    cases topic with
    | nil => exact iff_of_false (fun h => by cases h; exact hh rfl) (by simp [pathAccepts])
    | cons t topic =>
      by_cases hp : l = [plus]
      · subst hp
        rw [if_pos rfl]
        refine Iff.trans ⟨fun h => ?_, .single t⟩ (ih hv topic)
        cases h with
        | single _ hrest => exact hrest
        | level hplus => exact absurd rfl hplus
      · simp only [if_neg hp, pathAccepts, Bool.and_eq_true, beq_iff_eq, ← ih hv]
        constructor
        · intro h
          cases h with
          | multi => exact absurd rfl hh
          | single => exact absurd rfl hp
          | level _ _ hrest => exact ⟨rfl, hrest⟩
        · rintro ⟨rfl, hrest⟩
          exact .level hp hh hrest

section

variable [Vstr]

/-- `flowie_mqtt_topic_matches` on the bytes. -/
def topicMatchesBytes (filter topic : Bytes) : Except ParseError Bool :=
  if !topicFilterValidate filter || !topicNameValidate topic then .error .protocolError
  else
    match sharedFilter filter with
    | none => .error .protocolError
    | some effective =>
      if topic.head? = some dollar ∧ (effective.head? = some plus ∨ effective.head? = some hash) then .ok false
      else .ok (topicMatchesWalk (effective.length + 1) effective (some topic))

theorem topicMatchesBytes_eq (filter topic : Bytes) : topicMatchesBytes filter topic = topicMatches filter topic := by
  unfold topicMatchesBytes topicMatches
  simp only [topicMatchesWalk_eq (Nat.lt_succ_self _), Option.elim_some]

/-- A valid topic name matches a valid filter by the rules of MQTT on their levels, without the share prefix. -/
theorem topic_matches_by_levels {filter topic : Bytes} (hf : topicFilterValidate filter = true)
    (ht : topicNameValidate topic = true) :
    ∃ effective matched, sharedFilter filter = some effective ∧ levels effective = innerLevels (levels filter) ∧
      topicMatchesBytes filter topic = .ok matched ∧
      (matched = true ↔ LevelsMatch (levels effective) (levels topic) ∧
        ¬(topic.head? = some dollar ∧ (effective.head? = some plus ∨ effective.head? = some hash))) := by
  obtain ⟨-, -, -, g, hg, hv⟩ := topicFilterValidate_iff.1 hf
  have hlevels := levels_sharedFilter hg
  refine ⟨g, _, hg, hlevels, (topicMatchesBytes_eq filter topic).trans (topicMatches_eq hf ht), ?_⟩
  rw [filterAccepts, ← hlevels, accepts, Bool.and_eq_true, levelsMatch_iff hv, ← sysTopic_levels, ← wildFirst_levelFilter hv,
    Bool.not_eq_true', ← Bool.not_eq_true, Bool.and_eq_true]
  rfl

end

section

attribute [local instance] asciiVstr

/-- The parent of a shared `#` filter matches it. -/
theorem topic_matches_by_levels_shared :
    ∃ effective matched, sharedFilter (text "$share/g/a/+/#") = some effective ∧
      levels effective = [text "a", [plus], [hash]] ∧
      topicMatchesBytes (text "$share/g/a/+/#") (text "a/b") = .ok matched ∧ matched = true := by
  obtain ⟨effective, matched, hshared, hlevels, hmt, -⟩ :=
    topic_matches_by_levels (show topicFilterValidate (text "$share/g/a/+/#") = true by decide)
      (show topicNameValidate (text "a/b") = true by decide)
  exact ⟨effective, matched, hshared, hlevels.trans (by decide), hmt, Except.ok.inj (hmt.symm.trans (by decide))⟩

end

end Flowie.Mqtt
