import Mathlib.Data.List.Basic
import Mathlib.Logic.Relation

/-!
# Pumping a bounded buffer

A consumer takes items from the front of a buffer, one `step` at a time, until it waits for more. A
stream is fed to it in chunks through a buffer of bounded capacity. When a step looks only at the front
of the buffer (`Streaming`), the result does not depend on how the stream was cut: it is that of
feeding one element at a time (`feedAll_eq_absorb`).
-/

namespace Pump

open List

variable {S β E : Type*}

/-- What a step does with the buffer: wait for more, end the loop, fail or go on. Each of them but
    the first comes with the next state and what is left in the buffer. -/
inductive Move (S β E : Type*) where
  | wait
  | stop (s : S) (rest : List β)
  | fail (s : S) (rest : List β) (e : E)
  | next (s : S) (rest : List β)

/-- The state and the buffer where the consumer rests, with the error that ended it. -/
structure Rest (S β E : Type*) where
  state : S
  buffer : List β
  error : Option E

/-- The loop with fuel for the number of steps. -/
def run (step : S → List β → Move S β E) : Nat → S → List β → Rest S β E
  | 0, s, buffer => ⟨s, buffer, none⟩
  | fuel + 1, s, buffer =>
    match step s buffer with
    | .wait => ⟨s, buffer, none⟩
    | .stop s rest => ⟨s, rest, none⟩
    | .fail s rest e => ⟨s, rest, some e⟩
    | .next s rest => run step fuel s rest

/-- The loop; a step that goes on shortens the buffer, so this much fuel lasts. -/
def drain (step : S → List β → Move S β E) (s : S) (buffer : List β) : Rest S β E :=
  run step (buffer.length + 1) s buffer

/-- Why a feed ended: a step failed, or the buffer was full of an unfinished item. -/
inductive Failure (E : Type*) where
  | failed (e : E)
  | full
deriving DecidableEq

/-- A full buffer is drained before anything is appended. -/
def makeRoom (step : S → List β → Move S β E) (capacity : Nat) (s : S) (buffer : List β) : Rest S β E :=
  if capacity - buffer.length = 0 then drain step s buffer else ⟨s, buffer, none⟩

/-- The loop that appends as much of the data as there is room for and drains the buffer, with fuel
    for the elements of the data. -/
def feedLoop (step : S → List β → Move S β E) (capacity : Nat) :
    Nat → S → List β → List β → Rest S β (Failure E)
  | 0, s, buffer, _ => ⟨s, buffer, none⟩
  | fuel + 1, s, buffer, data =>
    if data.isEmpty then ⟨s, buffer, none⟩
    else
      let made := makeRoom step capacity s buffer
      match made.error with
      | some e => ⟨made.state, made.buffer, some (.failed e)⟩
      | none =>
        let writable := capacity - made.buffer.length
        if writable = 0 then ⟨made.state, made.buffer, some .full⟩
        else
          let drained := drain step made.state (made.buffer ++ data.take writable)
          match drained.error with
          | some e => ⟨drained.state, drained.buffer, some (.failed e)⟩
          | none => feedLoop step capacity fuel drained.state drained.buffer (data.drop writable)

/-- One chunk of data; every round takes an element, so this much fuel lasts. -/
def feed (step : S → List β → Move S β E) (capacity : Nat) (s : S) (buffer data : List β) : Rest S β (Failure E) :=
  feedLoop step capacity (data.length + 1) s buffer data

/-- The elements one at a time. -/
def absorb (step : S → List β → Move S β E) (capacity : Nat) (s : S) (buffer : List β) :
    List β → Rest S β (Failure E)
  | [] => ⟨s, buffer, none⟩
  | x :: data =>
    if capacity ≤ buffer.length then ⟨s, buffer, some .full⟩
    else
      match (drain step s (buffer ++ [x])).error with
      | some e => ⟨(drain step s (buffer ++ [x])).state, (drain step s (buffer ++ [x])).buffer, some (.failed e)⟩
      | none => absorb step capacity (drain step s (buffer ++ [x])).state (drain step s (buffer ++ [x])).buffer data

def Move.append (more : List β) : Move S β E → Move S β E
  | .wait => .wait
  | .stop s rest => .stop s (rest ++ more)
  | .fail s rest e => .fail s (rest ++ more) e
  | .next s rest => .next s (rest ++ more)

/-- A step that looks only at the front of the buffer and takes something from it. -/
structure Streaming (step : S → List β → Move S β E) : Prop where
  goes_on : ∀ s buffer s' rest, step s buffer ≠ .stop s' rest
  shortens : ∀ s buffer s' rest, step s buffer = .next s' rest → rest.length < buffer.length
  append : ∀ s buffer more, step s buffer ≠ .wait → step s (buffer ++ more) = (step s buffer).append more

/-- Rounds of one loop that went on. -/
def Rounds (step : S → List β → Move S β E) : S × List β → S × List β → Prop :=
  Relation.ReflTransGen fun a b => step a.1 a.2 = .next b.1 b.2

/-- The rounds of a feed: the state and the buffer it makes a step in, with the data that is not in the buffer yet. -/
inductive Reaches (step : S → List β → Move S β E) (capacity : Nat) : S → List β → List β → S × List β × List β → Prop
  | making {s buffer data reached} (hdata : data ≠ []) (hfull : buffer.length = capacity)
      (hrounds : Rounds step (s, buffer) reached) : Reaches step capacity s buffer data (reached.1, reached.2, data)
  | pumping {s buffer data s' buffer' reached} (hdata : data ≠ [])
      (hmade : makeRoom step capacity s buffer = ⟨s', buffer', none⟩) (hroom : buffer'.length < capacity)
      (hrounds : Rounds step (s', buffer' ++ data.take (capacity - buffer'.length)) reached) :
      Reaches step capacity s buffer data (reached.1, reached.2, data.drop (capacity - buffer'.length))
  | again {s buffer data s' buffer' s'' buffer'' reached} (hdata : data ≠ [])
      (hmade : makeRoom step capacity s buffer = ⟨s', buffer', none⟩) (hroom : buffer'.length < capacity)
      (hdr : drain step s' (buffer' ++ data.take (capacity - buffer'.length)) = ⟨s'', buffer'', none⟩)
      (hreaches : Reaches step capacity s'' buffer'' (data.drop (capacity - buffer'.length)) reached) :
      Reaches step capacity s buffer data reached

section Drain

variable {step : S → List β → Move S β E} {s s' : S} {buffer rest : List β} {e : E}

theorem drain_wait (h : step s buffer = .wait) : drain step s buffer = ⟨s, buffer, none⟩ := by
  rw [drain, run, h]

theorem drain_stop (h : step s buffer = .stop s' rest) : drain step s buffer = ⟨s', rest, none⟩ := by
  rw [drain, run, h]

theorem drain_fail (h : step s buffer = .fail s' rest e) : drain step s buffer = ⟨s', rest, some e⟩ := by
  rw [drain, run, h]

section
variable (hshortens : ∀ s buffer s' rest, step s buffer = .next s' rest → rest.length < buffer.length)
include hshortens

theorem run_fuel {n m : Nat} (hn : buffer.length < n) (hm : buffer.length < m) :
    run step n s buffer = run step m s buffer := by
  induction n generalizing m s buffer with
  | zero => omega
  | succ n ih =>
    cases m with
    | zero => omega
    | succ m =>
      rw [run, run]
      cases hstep : step s buffer with
      | wait => rfl
      | stop s' rest => rfl
      | fail s' rest e => rfl
      | next s' rest =>
        have hlt := hshortens _ _ _ _ hstep
        exact ih (by omega) (by omega)

theorem drain_next (h : step s buffer = .next s' rest) : drain step s buffer = drain step s' rest := by
  have hlt := hshortens _ _ _ _ h
  rw [drain, run, h]
  exact run_fuel hshortens hlt (by omega)

/-- After rounds that went on, the loop goes on from where they led. -/
theorem drain_rounds {start reached : S × List β} (h : Rounds step start reached) :
    drain step start.1 start.2 = drain step reached.1 reached.2 := by
  induction h with
  | refl => rfl
  | tail _ hnext ih => rw [ih, drain_next hshortens hnext]

theorem length_of_rounds {start reached : S × List β} (h : Rounds step start reached) :
    reached.2.length ≤ start.2.length := by
  induction h with
  | refl => exact Nat.le_refl _
  | tail _ hnext ih => exact Nat.le_of_lt (Nat.lt_of_lt_of_le (hshortens _ _ _ _ hnext) ih)

end

variable (hs : Streaming step)
include hs

/-- The loop by its steps: it waits, it fails, or it goes on with a shorter buffer. -/
theorem drain_induction {P : S → List β → Prop} (hwait : ∀ s buffer, step s buffer = .wait → P s buffer)
    (hfail : ∀ s buffer s' rest e, step s buffer = .fail s' rest e → P s buffer)
    (hnext : ∀ s buffer s' rest, step s buffer = .next s' rest → P s' rest → P s buffer) (s : S) (buffer : List β) :
    P s buffer := by
  induction hlen : buffer.length using Nat.strongRecOn generalizing s buffer with
  | _ n ih =>
    subst hlen
    cases hstep : step s buffer with
    | wait => exact hwait s buffer hstep
    | stop s' rest => exact absurd hstep (hs.goes_on s buffer s' rest)
    | fail s' rest e => exact hfail s buffer s' rest e hstep
    | next s' rest => exact hnext s buffer s' rest hstep (ih _ (hs.shortens _ _ _ _ hstep) s' rest rfl)

/-- Where the loop ends without an error it waits, and the buffer has not grown. -/
theorem wait_of_drain :
    (drain step s buffer).error = none →
      step (drain step s buffer).state (drain step s buffer).buffer = .wait ∧
        (drain step s buffer).buffer.length ≤ buffer.length := by
  induction s, buffer using drain_induction hs with
  | hwait s buffer h =>
    rw [drain_wait h]
    exact fun _ => ⟨h, Nat.le_refl _⟩
  | hfail s buffer s' rest e h =>
    rw [drain_fail h]
    exact fun herr => nomatch herr
  | hnext s buffer s' rest h ih =>
    have hlt := hs.shortens _ _ _ _ h
    rw [drain_next hs.shortens h]
    exact fun herr => ⟨(ih herr).1, by have := (ih herr).2; omega⟩

/-- What arrives later is handled where the loop rested. -/
theorem drain_append (s : S) (buffer more : List β) :
    drain step s (buffer ++ more) =
      match (drain step s buffer).error with
      | some e => ⟨(drain step s buffer).state, (drain step s buffer).buffer ++ more, some e⟩
      | none => drain step (drain step s buffer).state ((drain step s buffer).buffer ++ more) := by
  induction s, buffer using drain_induction hs with
  | hwait s buffer h => rw [drain_wait h]
  | hfail s buffer s' rest e h =>
    have happ : step s (buffer ++ more) = .fail s' (rest ++ more) e := by
      rw [hs.append s buffer more (by simp [h]), h]
      rfl
    rw [drain_fail h, drain_fail happ]
  | hnext s buffer s' rest h ih =>
    have happ : step s (buffer ++ more) = .next s' (rest ++ more) := by
      rw [hs.append s buffer more (by simp [h]), h]
      rfl
    rw [drain_next hs.shortens h, drain_next hs.shortens happ, ih]

end Drain

/-- Two rests that differ at most in what is left behind an error. -/
structure Same (a b : Rest S β E) : Prop where
  state : a.state = b.state
  error : a.error = b.error
  buffer : a.error = none → a.buffer = b.buffer

theorem Same.refl (a : Rest S β E) : Same a a := ⟨rfl, rfl, fun _ => rfl⟩

variable {a b : Rest S β E}

theorem Same.symm (h : Same a b) : Same b a :=
  ⟨h.state.symm, h.error.symm, fun hnone => (h.buffer (h.error.trans hnone)).symm⟩

theorem Same.trans {c : Rest S β E} (h : Same a b) (h' : Same b c) : Same a c :=
  ⟨h.state.trans h'.state, h.error.trans h'.error,
    fun hnone => (h.buffer hnone).trans (h'.buffer (h.error.symm.trans hnone))⟩

/-- The chunks one after the other; a failure stays. -/
def feedAll (step : S → List β → Move S β E) (capacity : Nat) :
    Rest S β (Failure E) → List (List β) → Rest S β (Failure E)
  | r, [] => r
  | r, chunk :: chunks =>
    match r.error with
    | some _ => feedAll step capacity r chunks
    | none => feedAll step capacity (feed step capacity r.state r.buffer chunk) chunks

section Feed

variable {step : S → List β → Move S β E} {capacity : Nat} {s s' : S} {buffer buffer' data : List β}

theorem makeRoom_of_lt (hroom : buffer.length < capacity) : makeRoom step capacity s buffer = ⟨s, buffer, none⟩ :=
  if_neg (by omega)

theorem feedLoop_fuel {n m : Nat} (hn : data.length < n) (hm : data.length < m) :
    feedLoop step capacity n s buffer data = feedLoop step capacity m s buffer data := by
  induction n generalizing m s buffer data with
  | zero => omega
  | succ n ih =>
    cases m with
    | zero => omega
    | succ m =>
      rw [feedLoop, feedLoop]
      dsimp only
      split
      · rfl
      rename_i hdata
      have hpos : 0 < data.length := length_pos_iff.2 (by simpa using hdata)
      split
      · rfl
      split
      · rfl
      split
      · rfl
      exact ih (by rw [length_drop]; omega) (by rw [length_drop]; omega)

/-- A full buffer whose consumer waits ends the feed. -/
theorem feed_full (hdata : data ≠ []) (hwait : step s buffer = .wait) (hfull : capacity ≤ buffer.length) :
    feed step capacity s buffer data = ⟨s, buffer, some .full⟩ := by
  rw [feed, feedLoop, if_neg (by simpa using hdata), makeRoom, drain_wait hwait, ite_self]
  dsimp only
  rw [if_pos (by omega)]

/-- One round of a feed: what fits is appended and drained, and the rest is fed where the loop rested. -/
theorem feed_made (hdata : data ≠ []) (hmade : makeRoom step capacity s buffer = ⟨s', buffer', none⟩)
    (hroom : buffer'.length < capacity) :
    feed step capacity s buffer data =
      match drain step s' (buffer' ++ data.take (capacity - buffer'.length)) with
      | ⟨s, buffer, some e⟩ => ⟨s, buffer, some (.failed e)⟩
      | ⟨s, buffer, none⟩ => feed step capacity s buffer (data.drop (capacity - buffer'.length)) := by
  have hpos := length_pos_iff.2 hdata
  rw [feed, feedLoop, if_neg (by simpa using hdata), hmade]
  dsimp only
  rw [if_neg (by omega)]
  cases drain step s' (buffer' ++ data.take (capacity - buffer'.length)) with
  | mk s buffer error =>
    cases error with
    | some e => rfl
    | none => exact feedLoop_fuel (by rw [length_drop]; omega) (Nat.lt_succ_self _)

/-- A feed whose rounds have led to a failure ends with it. One whose rounds have led to a stop goes on with the data
    that is left. -/
theorem feed_of_reaches {reached : S × List β × List β}
    (hnext : ∀ s buffer s' rest, step s buffer = .next s' rest → rest.length < buffer.length)
    (hstop : ∀ s buffer s' rest, step s buffer = .stop s' rest → rest.length < buffer.length)
    (h : Reaches step capacity s buffer data reached) :
    (∀ s' rest e, step reached.1 reached.2.1 = .fail s' rest e → feed step capacity s buffer data = ⟨s', rest, some (.failed e)⟩) ∧
    ∀ s' rest, step reached.1 reached.2.1 = .stop s' rest →
      feed step capacity s buffer data = feed step capacity s' rest reached.2.2 ∧ rest.length < capacity := by
  induction h with
  | @making s buffer data reached hdata hfull hrounds =>
    have hdr := drain_rounds hnext hrounds
    have hle : reached.2.length ≤ capacity := hfull ▸ length_of_rounds hnext hrounds
    have hnil : capacity - buffer.length = 0 := by omega
    refine ⟨fun s' rest e hstep => ?_, fun s' rest hstep => ?_⟩
    · rw [drain_fail hstep] at hdr
      rw [feed, feedLoop, if_neg (by simpa using hdata), makeRoom, if_pos hnil, hdr]
    · have hroom := Nat.lt_of_lt_of_le (hstop _ _ _ _ hstep) hle
      rw [drain_stop hstep] at hdr
      rw [feed_made hdata ((if_pos hnil).trans hdr) hroom, feed_made hdata (makeRoom_of_lt hroom) hroom]
      exact ⟨rfl, hroom⟩
  | pumping hdata hmade hroom hrounds =>
    have hdr := drain_rounds hnext hrounds
    have hle := length_of_rounds hnext hrounds
    rw [length_append, length_take] at hle
    rw [feed_made hdata hmade hroom, hdr]
    refine ⟨fun s' rest e hstep => ?_, fun s' rest hstep => ?_⟩
    · rw [drain_fail hstep]
    · have hlt := hstop _ _ _ _ hstep
      dsimp only at hlt
      rw [drain_stop hstep]
      exact ⟨rfl, by omega⟩
  | again hdata hmade hroom hdr _ ih =>
    rw [feed_made hdata hmade hroom, hdr]
    exact ih

/-- What the rounds that go on or stop keep of the state and the buffer holds where the loop rests without an error. -/
theorem run_keeps {P : S → List β → Prop}
    (hkeeps : ∀ s buffer s' rest, P s buffer → step s buffer = .next s' rest ∨ step s buffer = .stop s' rest → P s' rest)
    {fuel : Nat} (h : P s buffer) (hnone : (run step fuel s buffer).error = none) :
    P (run step fuel s buffer).state (run step fuel s buffer).buffer := by
  induction fuel generalizing s buffer with
  | zero => exact h
  | succ fuel ih =>
    rw [run] at hnone ⊢
    cases hmove : step s buffer with
    | wait => exact h
    | stop s' rest => exact hkeeps _ _ _ _ h (.inr hmove)
    | fail s' rest e =>
      rw [hmove] at hnone
      cases hnone
    | next s' rest =>
      rw [hmove] at hnone
      exact ih (hkeeps _ _ _ _ h (.inl hmove)) hnone

section
variable (hsuffix : ∀ s buffer s' rest, step s buffer = .next s' rest ∨ step s buffer = .stop s' rest → rest <:+ buffer)
include hsuffix

theorem drain_suffix {rested : List β} (h : drain step s buffer = ⟨s', rested, none⟩) : rested <:+ buffer := by
  have hrest := run_keeps (P := fun _ rest => rest <:+ buffer) (fun _ _ _ _ hrest hmove => (hsuffix _ _ _ _ hmove).trans hrest)
    (suffix_refl buffer) (congrArg Rest.error h)
  rwa [show run step (buffer.length + 1) s buffer = _ from h] at hrest

theorem suffix_of_rounds {start reached : S × List β} (h : Rounds step start reached) : reached.2 <:+ start.2 := by
  induction h with
  | refl => exact suffix_refl _
  | tail _ hnext ih => exact (hsuffix _ _ _ _ (.inl hnext)).trans ih

/-- What is left in the buffer and behind it is a suffix of what there was. -/
theorem suffix_of_reaches {reached : S × List β × List β} (h : Reaches step capacity s buffer data reached) :
    reached.2.1 ++ reached.2.2 <:+ buffer ++ data := by
  -- a round of the feed moves data into the buffer without changing their order
  have hmvd : ∀ {s s' : S} {buffer buffer' left data : List β}, makeRoom step capacity s buffer = ⟨s', buffer', none⟩ →
      left <:+ buffer' ++ data.take (capacity - buffer'.length) →
        left ++ data.drop (capacity - buffer'.length) <:+ buffer ++ data := by
    intro s s' buffer buffer' left data hmade hleft
    have hroom : buffer' <:+ buffer := by
      unfold makeRoom at hmade
      split at hmade
      · exact drain_suffix hsuffix hmade
      · cases hmade
        exact suffix_refl _
    have hall : left ++ data.drop (capacity - buffer'.length) <:+ _ := suffix_append_self_iff.2 hleft
    rw [append_assoc, take_append_drop] at hall
    exact hall.trans (suffix_append_self_iff.2 hroom)
  induction h with
  | making _ _ hr => exact suffix_append_self_iff.2 (suffix_of_rounds hsuffix hr)
  | pumping _ hmade _ hr => exact hmvd hmade (suffix_of_rounds hsuffix hr)
  | again _ hmade _ hdr _ ih => exact ih.trans (hmvd hmade (drain_suffix hsuffix hdr))

end

section
variable {P : S → Prop}
  (hkeeps : ∀ s buffer s' rest, P s → step s buffer = .next s' rest ∨ step s buffer = .stop s' rest → P s')
include hkeeps

/-- What the rounds that go on or stop keep of the state holds where a feed rests without an error. -/
theorem feedLoop_keeps {fuel : Nat} (h : P s) :
    (feedLoop step capacity fuel s buffer data).error = none → P (feedLoop step capacity fuel s buffer data).state := by
  induction fuel generalizing s buffer data with
  | zero => exact fun _ => h
  | succ fuel ih =>
    have hmake : (makeRoom step capacity s buffer).error = none → P (makeRoom step capacity s buffer).state := by
      unfold makeRoom
      split
      · exact run_keeps (P := fun s _ => P s) hkeeps h
      · exact fun _ => h
    rw [feedLoop]
    dsimp only
    split
    · exact fun _ => h
    split
    · exact fun hnone => nomatch hnone
    rename_i hmade
    split
    · exact fun hnone => nomatch hnone
    split
    · exact fun hnone => nomatch hnone
    rename_i hdr
    exact ih (run_keeps (P := fun s _ => P s) hkeeps (hmake hmade) hdr)

/-- It is enough that it holds after the first round. -/
theorem feed_keeps {rest : List β} (hdata : data ≠ []) (hroom : buffer.length < capacity)
    (hfst : step s (buffer ++ data.take (capacity - buffer.length)) = .next s' rest ∨
      step s (buffer ++ data.take (capacity - buffer.length)) = .stop s' rest)
    (h : P s') (hnone : (feed step capacity s buffer data).error = none) : P (feed step capacity s buffer data).state := by
  rw [feed_made hdata (makeRoom_of_lt hroom) hroom] at hnone ⊢
  cases hdr : drain step s (buffer ++ data.take (capacity - buffer.length)) with
  | mk s'' buffer'' error =>
    rw [hdr] at hnone
    cases error with
    | some e => cases hnone
    | none =>
      refine feedLoop_keeps hkeeps ?_ hnone
      rcases hfst with hfst | hfst
      · rw [drain, run, hfst] at hdr
        dsimp only at hdr
        have := run_keeps (P := fun s _ => P s) hkeeps h (congrArg Rest.error hdr)
        rwa [hdr] at this
      · rw [drain_stop hfst] at hdr
        cases hdr
        exact h

end

end Feed

section Absorb

variable {step : S → List β → Move S β E} {capacity : Nat}

theorem absorb_append (s : S) (buffer data more : List β) :
    absorb step capacity s buffer (data ++ more) =
      match (absorb step capacity s buffer data).error with
      | some _ => absorb step capacity s buffer data
      | none => absorb step capacity (absorb step capacity s buffer data).state
          (absorb step capacity s buffer data).buffer more := by
  induction data generalizing s buffer with
  | nil => rfl
  | cons x data ih =>
    rw [cons_append, absorb, absorb]
    split
    · rfl
    cases (drain step s (buffer ++ [x])).error with
    | some e => rfl
    | none => exact ih _ _

variable {s : S} {buffer : List β} {data : List β}

theorem wait_of_absorb (hs : Streaming step) (hwait : step s buffer = .wait)
    (hnone : (absorb step capacity s buffer data).error = none) :
    step (absorb step capacity s buffer data).state (absorb step capacity s buffer data).buffer = .wait := by
  induction data generalizing s buffer with
  | nil => exact hwait
  | cons x data ih =>
    rw [absorb] at hnone ⊢
    split
    · rename_i hfull
      rw [if_pos hfull] at hnone
      cases hnone
    · rename_i hroom
      rw [if_neg hroom] at hnone
      cases hdr : (drain step s (buffer ++ [x])).error with
      | some e =>
        rw [hdr] at hnone
        cases hnone
      | none =>
        rw [hdr] at hnone
        exact ih (wait_of_drain hs hdr).1 hnone

/-- The rest of a drain as that of a feed. -/
def Rest.lift (r : Rest S β E) : Rest S β (Failure E) := ⟨r.state, r.buffer, r.error.map .failed⟩

/-- Where there is room for all elements, or for one more whenever the consumer waits, they are absorbed by one drain
    of a buffer without a bound. -/
theorem absorb_drain (hs : Streaming step) (hwait : step s buffer = .wait)
    (hroom : buffer.length + data.length ≤ capacity ∨ ∀ s buffer, step s buffer = .wait → buffer.length < capacity) :
    Same (absorb step capacity s buffer data) (drain step s (buffer ++ data)).lift := by
  induction data generalizing s buffer with
  | nil =>
    rw [append_nil, drain_wait hwait]
    exact Same.refl _
  | cons x data ih =>
    rw [length_cons] at hroom
    have hlt : buffer.length < capacity := hroom.elim (by omega) (· s buffer hwait)
    have hdr := drain_append hs s (buffer ++ [x]) data
    rw [append_assoc, singleton_append] at hdr
    rw [absorb, if_neg (by omega), hdr]
    cases herr : (drain step s (buffer ++ [x])).error with
    | some e => exact ⟨rfl, rfl, fun hnone => nomatch hnone⟩
    | none =>
      obtain ⟨hwait', hlen⟩ := wait_of_drain hs herr
      rw [length_append, length_singleton] at hlen
      exact ih hwait' (hroom.imp_left (by omega))

/-- Feeding a chunk is feeding its elements. -/
theorem feed_absorb (hs : Streaming step) (hwait : step s buffer = .wait) :
    Same (feed step capacity s buffer data) (absorb step capacity s buffer data) := by
  induction hlen : data.length using Nat.strongRecOn generalizing s buffer data with
  | _ n ih =>
    subst hlen
    have hmade : makeRoom step capacity s buffer = ⟨s, buffer, none⟩ := by
      rw [makeRoom, drain_wait hwait, ite_self]
    cases hdata : data with
    | nil => exact Same.refl _
    | cons x tail =>
      rw [← hdata]
      have hne : data ≠ [] := by simp [hdata]
      have hpos := length_pos_iff.2 hne
      by_cases hroom : capacity ≤ buffer.length
      · rw [feed_full hne hwait hroom, hdata, absorb, if_pos hroom]
        exact Same.refl _
      have hchunk : Same (absorb step capacity s buffer (data.take (capacity - buffer.length))) _ :=
        absorb_drain hs hwait (.inl (by rw [length_take]; omega))
      have hspl : absorb step capacity s buffer
          (data.take (capacity - buffer.length) ++ data.drop (capacity - buffer.length)) = _ :=
        absorb_append s buffer _ _
      rw [take_append_drop] at hspl
      rw [feed_made hne hmade (by omega), hspl]
      cases hdr : drain step s (buffer ++ data.take (capacity - buffer.length)) with
      | mk s' buffer' error =>
        rw [hdr] at hchunk
        cases error with
        | some e =>
          rw [hchunk.error]
          exact hchunk.symm
        | none =>
          rw [hchunk.error, hchunk.state, hchunk.buffer hchunk.error]
          have hrests : step s' buffer' = .wait := by
            have := (wait_of_drain hs (congrArg Rest.error hdr)).1
            rwa [hdr] at this
          exact ih _ (by rw [length_drop]; omega) hrests rfl

theorem feedAll_of_error {r : Rest S β (Failure E)} {f : Failure E} (h : r.error = some f) (chunks : List (List β)) :
    feedAll step capacity r chunks = r := by
  induction chunks with
  | nil => rfl
  | cons chunk chunks ih =>
    rw [feedAll, h]
    exact ih

variable (hs : Streaming step)
include hs

/-- Feeding a stream in chunks is feeding its elements, however it is cut. -/
theorem feedAll_absorb (hwait : step s buffer = .wait) {chunks : List (List β)} :
    Same (feedAll step capacity ⟨s, buffer, none⟩ chunks) (absorb step capacity s buffer chunks.flatten) := by
  induction chunks generalizing s buffer with
  | nil => exact Same.refl _
  | cons chunk chunks ih =>
    have hfeed : Same (feed step capacity s buffer chunk) _ := feed_absorb hs hwait
    rw [flatten_cons, absorb_append, feedAll]
    cases herr : (absorb step capacity s buffer chunk).error with
    | some f =>
      have hfailed := hfeed.error.trans herr
      rw [feedAll_of_error hfailed]
      exact hfeed
    | none =>
      have hnone := hfeed.error.trans herr
      have heq : feed step capacity s buffer chunk =
          ⟨(absorb step capacity s buffer chunk).state, (absorb step capacity s buffer chunk).buffer, none⟩ := by
        rw [← hfeed.state, ← hfeed.buffer hnone, ← hnone]
      rw [heq]
      exact ih (wait_of_absorb hs hwait herr)

/-- Two ways to cut a stream end alike. -/
theorem feedAll_same (hwait : step s buffer = .wait) {chunks chunks' : List (List β)}
    (h : chunks.flatten = chunks'.flatten) :
    Same (feedAll step capacity ⟨s, buffer, none⟩ chunks) (feedAll step capacity ⟨s, buffer, none⟩ chunks') := by
  have hleft : Same (feedAll step capacity ⟨s, buffer, none⟩ chunks) _ := feedAll_absorb hs hwait
  rw [h] at hleft
  exact hleft.trans (feedAll_absorb hs hwait).symm

/-- When a consumer that waits has room, the buffer is never full of an unfinished item. -/
theorem feed_ne_full (hroom : ∀ s buffer, step s buffer = .wait → buffer.length < capacity)
    (hwait : step s buffer = .wait) : (feed step capacity s buffer data).error ≠ some .full := by
  rw [(feed_absorb hs hwait).error, (absorb_drain hs hwait (.inr hroom)).error, Rest.lift]
  cases (drain step s (buffer ++ data)).error with
  | none => exact fun h => nomatch h
  | some e => exact fun h => nomatch h

end Absorb

end Pump
