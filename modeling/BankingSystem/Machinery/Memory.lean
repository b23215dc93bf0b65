import BankingSystem.Machinery.CString

/-!
# Machinery/Memory — writing into memory that goes on

Memory is a `CharPtr`, and a write begins at an offset and ends where its bytes end, whatever was
meant to be there.  `strcpyAt` copies up to the first NUL of its source: it is the write of a string
that ends within `n` bytes when the source has a NUL among its first `n` (`strcpyAt_eq`), and
otherwise goes on.
-/

namespace CString

/-- The `n` bytes at an offset. -/
def readAt (mem : CharPtr) (off n : ℕ) : List UInt8 := (List.range n).map (mem.add off)

/-- Memory with the bytes written at an offset. -/
def writeAt (mem : CharPtr) (off : ℕ) (bs : List UInt8) : CharPtr := fun j =>
  if off ≤ j then bs.getD (j - off) (mem j) else mem j

/-- **`strcpy(mem + off, src)`**: every byte of `src` with no NUL before it. -/
def strcpyAt (mem : CharPtr) (off : ℕ) (src : CharPtr) : CharPtr := fun j =>
  if off ≤ j ∧ ∀ k < j - off, src k ≠ 0 then src (j - off) else mem j

@[simp] theorem length_readAt (mem : CharPtr) (off n : ℕ) : (readAt mem off n).length = n := by
  simp [readAt]

theorem getElem_readAt {mem : CharPtr} {off n i : ℕ} (h : i < (readAt mem off n).length) :
    (readAt mem off n)[i] = mem (off + i) := by
  simp [readAt, CharPtr.add, Nat.add_comm]

/-- Where memory agrees, reads do. -/
theorem readAt_congr {mem mem' : CharPtr} {off off' n : ℕ}
    (h : ∀ i < n, mem (off + i) = mem' (off' + i)) : readAt mem off n = readAt mem' off' n := by
  refine List.ext_getElem (by simp) fun i hi _ => ?_
  rw [getElem_readAt, getElem_readAt]
  exact h i (by simpa using hi)

/-- Where a read agrees, the reads in it do. -/
theorem readAt_within {mem mem' : CharPtr} {off n : ℕ} (h : readAt mem off n = readAt mem' off n)
    {k m : ℕ} (hk : k + m ≤ n) : readAt mem (off + k) m = readAt mem' (off + k) m := by
  refine readAt_congr fun i hi => ?_
  have hbyte := List.map_inj_left.mp h (k + i) (List.mem_range.mpr (by omega))
  rw [CharPtr.add, CharPtr.add, Nat.add_comm, ← Nat.add_assoc] at hbyte
  exact hbyte

/-- A read is two reads, one after the other. -/
theorem readAt_add (mem : CharPtr) (off m n : ℕ) :
    readAt mem off (m + n) = readAt mem off m ++ readAt mem (off + m) n := by
  rw [readAt, List.range_add, List.map_append, List.map_map]
  refine congrArg (readAt mem off m ++ ·) (List.map_congr_left fun i _ => ?_)
  change mem (m + i + off) = mem (i + (off + m))
  congr 1
  omega

/-- The bytes at an offset begin the memory from there on. -/
theorem onto_readAt (mem : CharPtr) (off n : ℕ) :
    onto (readAt mem off n) (mem.add off) = mem.add off := by
  have hnil : onto [] (mem.add off) = mem.add off := funext fun i => onto_of_ge (Nat.zero_le i) _
  have hfill := onto_fill [] (mem.add off) n
  rwa [hnil] at hfill

/-- A NUL among the bytes at an offset ends a string there. -/
theorem terminated_iff_mem {mem : CharPtr} {off n : ℕ} :
    Terminated (mem.add off) n ↔ 0 ∈ readAt mem off n := by
  simp only [Terminated, readAt, List.mem_map, List.mem_range]

/-- Its characters are the text of the bytes. -/
theorem chars_add_of_mem {mem : CharPtr} {off n : ℕ} (h : 0 ∈ readAt mem off n) :
    chars (mem.add off) n = text (readAt mem off n) := by
  have honto := chars_onto h (mem.add off) (length_readAt mem off n).le
  rwa [onto_readAt] at honto

/-! ## Writing -/

section Write

variable {mem : CharPtr} {off j : ℕ} {bs : List UInt8}

theorem writeAt_of_outside (h : j < off ∨ off + bs.length ≤ j) : writeAt mem off bs j = mem j := by
  rw [writeAt]
  split
  · have hj : bs.length ≤ j - off := by omega
    rw [List.getD_eq_getElem?_getD, List.getElem?_eq_none hj]
    rfl
  · rfl

theorem writeAt_add {i : ℕ} (h : i < bs.length) : writeAt mem off bs (off + i) = bs[i] := by
  rw [writeAt, if_pos (Nat.le_add_right _ _), Nat.add_sub_cancel_left,
    List.getD_eq_getElem?_getD, List.getElem?_eq_getElem h]
  rfl

/-- A read beside the write finds what was there. -/
theorem readAt_writeAt_of_disjoint {off' n : ℕ} (h : off' + n ≤ off ∨ off + bs.length ≤ off') :
    readAt (writeAt mem off bs) off' n = readAt mem off' n :=
  readAt_congr fun i hi => writeAt_of_outside (by omega)

/-- **A read at the write finds the bytes**, and what was there after them. -/
theorem readAt_writeAt {n : ℕ} (h : bs.length ≤ n) : readAt (writeAt mem off bs) off n =
    bs ++ (readAt mem off n).drop bs.length := by
  refine List.ext_getElem (by simp [h]) fun i hi hi' => ?_
  rw [getElem_readAt]
  obtain hlt | hge := lt_or_ge i bs.length
  · rw [writeAt_add hlt, List.getElem_append_left hlt]
  · rw [writeAt_of_outside (by omega), List.getElem_append_right hge, List.getElem_drop,
      getElem_readAt, Nat.add_sub_cancel' hge]

/-- A read of just the write finds just the bytes. -/
theorem readAt_writeAt_self {n : ℕ} (h : bs.length = n) :
    readAt (writeAt mem off bs) off n = bs := by
  rw [readAt_writeAt h.le, List.drop_eq_nil_of_le (by rw [length_readAt, h]), List.append_nil]

end Write

/-! ## Copying a string -/

/-- The characters are the bytes before the first NUL. -/
theorem getElem_chars {p : CharPtr} {n i : ℕ} (h : i < (chars p n).length) :
    (chars p n)[i] = p i := by
  induction n generalizing p i with
  | zero => simp [chars] at h
  | succ n ih =>
    by_cases hp : p 0 = 0
    · simp [chars, hp] at h
    · have hcons : chars p (n + 1) = p 0 :: chars (p.add 1) n := if_neg hp
      cases i with
      | zero => simp [hcons]
      | succ i =>
        have hi : i < (chars (p.add 1) n).length := by simpa [hcons] using h
        simp only [hcons, List.getElem_cons_succ]
        exact ih hi

/-- …which comes right after them, if there is one. -/
theorem nul_of_terminated {p : CharPtr} {n : ℕ} (h : Terminated p n) :
    p (chars p n).length = 0 := by
  induction n generalizing p with
  | zero => exact absurd h fun ⟨_, hk, _⟩ => Nat.not_lt_zero _ hk
  | succ n ih =>
    by_cases hp : p 0 = 0
    · have hnil : chars p (n + 1) = [] := if_pos hp
      rwa [hnil]
    · have hcons : chars p (n + 1) = p 0 :: chars (p.add 1) n := if_neg hp
      have hlt := length_chars_lt_iff.mpr h
      rw [hcons, List.length_cons] at hlt ⊢
      exact ih (length_chars_lt_iff.mp (Nat.lt_of_succ_lt_succ hlt))

/-- **`strcpy` of a string that ends within `n` bytes** writes its characters and a NUL. -/
theorem strcpyAt_eq {src : CharPtr} {n : ℕ} (h : Terminated src n) (mem : CharPtr) (off : ℕ) :
    strcpyAt mem off src = writeAt mem off (chars src n ++ [0]) := by
  have hnul := nul_of_terminated h
  have hchar : ∀ k < (chars src n).length, src k ≠ 0 := fun k hk h0 =>
    zero_notMem_chars src n ((getElem_chars hk).trans h0 ▸ List.getElem_mem hk)
  funext j
  by_cases hj : off ≤ j ∧ j ≤ off + (chars src n).length
  · have hcopy : off ≤ j ∧ ∀ k < j - off, src k ≠ 0 := ⟨hj.1, fun k hk => hchar k (by omega)⟩
    obtain ⟨i, rfl⟩ := Nat.exists_eq_add_of_le hj.1
    have hi : i < (chars src n ++ [0]).length := by simp; omega
    rw [strcpyAt, if_pos hcopy, Nat.add_sub_cancel_left, writeAt_add hi]
    obtain hlt | hge := lt_or_ge i (chars src n).length
    · rw [List.getElem_append_left hlt, getElem_chars]
    · obtain rfl : i = (chars src n).length := by omega
      simp [hnul]
  · have hout : j < off ∨ off + (chars src n ++ [0]).length ≤ j := by simp; omega
    have hstop : ¬ (off ≤ j ∧ ∀ k < j - off, src k ≠ 0) := fun ⟨hle, hall⟩ =>
      hall (chars src n).length (by omega) hnul
    rw [strcpyAt, if_neg hstop, writeAt_of_outside hout]

/-- A read before the destination finds what was there. -/
theorem readAt_strcpyAt_of_le {off off' n : ℕ} (h : off' + n ≤ off) (mem src : CharPtr) :
    readAt (strcpyAt mem off src) off' n = readAt mem off' n :=
  readAt_congr fun i hi => if_neg fun hle => absurd hle.1 (by omega)

/-- Without a NUL among the first `n` bytes, all of them are copied. -/
theorem readAt_strcpyAt {src : CharPtr} {n : ℕ} (h : ¬ Terminated src n) (mem : CharPtr)
    (off : ℕ) : readAt (strcpyAt mem off src) off n = readAt src 0 n := by
  refine readAt_congr fun i hi => ?_
  have hcopy : off ≤ off + i ∧ ∀ k < off + i - off, src k ≠ 0 := by
    refine ⟨Nat.le_add_right _ _, fun k hk h0 => h ⟨k, by omega, h0⟩⟩
  rw [strcpyAt, if_pos hcopy, Nat.add_sub_cancel_left, Nat.zero_add]

end CString
