import Mathlib.Data.List.Basic

/-!
# Machinery/Pieces — a message that arrives in pieces

A stream keeps the order of the bytes, and not where one write ended: a message arrives as nonempty
pieces, and one `read` returns the first of them.
-/

/-- **A way for a message to arrive**: nonempty pieces that make up the message. -/
structure Pieces (message : List UInt8) where
  pieces : List (List UInt8)
  flatten_eq : pieces.flatten = message
  ne_nil : ∀ piece ∈ pieces, piece ≠ []

namespace Pieces

variable {message : List UInt8} (s : Pieces message)

/-- What one `read` with room for the message returns. -/
def read : List UInt8 := s.pieces.headD []

theorem read_prefix : s.read <+: message := by
  obtain ⟨pieces, rfl, -⟩ := s
  cases pieces with
  | nil => exact List.nil_prefix
  | cons piece pieces => exact List.prefix_append piece pieces.flatten

/-- Something is read of a message that is not empty. -/
theorem read_ne_nil (h : message ≠ []) : s.read ≠ [] := by
  obtain ⟨pieces, rfl, hne⟩ := s
  cases pieces with
  | nil => exact absurd rfl h
  | cons piece pieces => exact hne piece List.mem_cons_self

/-- **One read returns the message just in case it arrives in one piece.** -/
theorem read_eq_iff (h : message ≠ []) : s.read = message ↔ s.pieces = [message] := by
  obtain ⟨pieces, rfl, hne⟩ := s
  cases pieces with
  | nil => exact absurd rfl h
  | cons piece pieces =>
    refine ⟨fun hread => ?_, fun hone => congrArg (List.headD · []) hone⟩
    have hrest : pieces.flatten = [] := by
      have happend : piece ++ pieces.flatten = piece ++ [] := by
        rw [List.append_nil]
        exact hread.symm
      exact List.append_cancel_left happend
    have hnil : pieces = [] := by
      refine List.eq_nil_iff_forall_not_mem.mpr fun p hp => ?_
      exact hne p (List.mem_cons_of_mem _ hp) (List.flatten_eq_nil_iff.mp hrest p hp)
    subst hnil
    simp

/-- The message in two pieces, the first of `n` bytes. -/
def cut (message : List UInt8) (n : ℕ) (h : 0 < n) (h' : n < message.length) : Pieces message where
  pieces := [message.take n, message.drop n]
  flatten_eq := by simp
  ne_nil := by
    intro piece hpiece hnil
    have hlen : piece.length = 0 := by rw [hnil]; rfl
    obtain rfl | rfl := List.mem_pair.mp hpiece
    · rw [List.length_take] at hlen
      omega
    · rw [List.length_drop] at hlen
      omega

end Pieces
