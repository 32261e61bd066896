import Mathlib.Algebra.GroupWithZero.Nat

/-!
# Bytes and status codes
-/

namespace Flowie

/-- The bytes of a span or of a C string without its terminator. -/
abbrev Bytes := List UInt8

instance : LawfulBEq Bytes := inferInstanceAs (LawfulBEq (List UInt8))

def text (s : String) : Bytes := s.toList.map Char.toUInt8

/-- The failure codes `SALTS_E*` the modelled functions return; `SALTS_OK` is `Except.ok`. -/
inductive Errno where
  | einval | enomem | eproto | enospc | enoent | ebusy | eperm | eio | erange | ealready | enotsup
  | emsgsize | enotconn | eshutdown | eof | econnreset | econnrefused | etimedout | enetdown | enetunreach | ehostunreach
  | eintr
deriving DecidableEq, Repr

theorem except_map_eq_ok {α β : Type} {f : α → β} {result : Except Errno α} {b : β} (h : result.map f = .ok b) :
    ∃ a, result = .ok a ∧ f a = b := by
  cases result with
  | error e => cases h
  | ok a =>
    cases h
    exact ⟨a, rfl, rfl⟩

end Flowie
