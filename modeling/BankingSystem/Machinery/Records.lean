import Mathlib.Data.List.Basic

/-!
# Machinery/Records — a stream of records

A connection that keeps the boundaries of what is written to it: each write is one record, and a
read returns bytes of the first record only.  What a short read leaves stays for the next one.
-/

namespace Records

/-- What was written and not read yet: records, of which the first may have been read in part. -/
abbrev Stream := List (List UInt8)

/-- One write makes one record, unless there is nothing to write. -/
def Stream.write (s : Stream) (bs : List UInt8) : Stream := if bs = [] then s else s ++ [bs]

/-- **A read of at most `n` bytes**, of the first record; nothing when there is no record. -/
def Stream.read : Stream → ℕ → List UInt8 × Stream
  | [], _ => ([], [])
  | r :: rs, n => if r.length ≤ n then (r, rs) else (r.take n, r.drop n :: rs)

variable {r : List UInt8} {rs : Stream} {n : ℕ}

theorem write_of_ne (s : Stream) (h : r ≠ []) : s.write r = s ++ [r] := if_neg h

/-- A read with room for the record takes all of it. -/
theorem read_of_le (h : r.length ≤ n) : Stream.read (r :: rs) n = (r, rs) := if_pos h

/-- A shorter read takes its first bytes. -/
theorem read_of_lt (h : n < r.length) : Stream.read (r :: rs) n = (r.take n, r.drop n :: rs) :=
  if_neg (Nat.not_le.mpr h)

theorem length_read_le (s : Stream) (n : ℕ) : (s.read n).1.length ≤ n := by
  cases s with
  | nil => exact Nat.zero_le n
  | cons r rs =>
    by_cases h : r.length ≤ n
    · rwa [read_of_le h]
    · rw [read_of_lt (Nat.not_le.mp h)]
      exact List.length_take_le n r

end Records
