import BankingSystem.Machinery.Bytes
import BankingSystem.Machinery.CString

/-!
# Machinery/Field — string functions that have to stay in a field

The loops of `Machinery/CString` once more, on a field of known size instead of memory without an
end: reading on behind the field is a `Fault`.  Where none occurs, they give what the others give in
every memory that begins with the field (`strcmpIn_eq`, `strncpyIn_eq`, `stringIn_eq`).
-/

namespace CString

open Bytes

/-- `strcmp(a, p) == 0`, for two fields, from index `i` on. -/
def strcmpIn : List UInt8 → List UInt8 → ℕ → Except Fault Bool
  | c :: cs, d :: ds, i =>
    if c = d then if c = 0 then .ok true else strcmpIn cs ds (i + 1) else .ok false
  | _, _, i => .error (.read i)

/-- The `n` bytes `strncpy(_, p, n)` writes, for a field, from index `i` on. -/
def strncpyIn : List UInt8 → ℕ → ℕ → Except Fault (List UInt8)
  | _, 0, _ => .ok []
  | [], _ + 1, i => .error (.read i)
  | c :: cs, n + 1, i =>
    if c = 0 then .ok (List.replicate (n + 1) 0) else (strncpyIn cs n (i + 1)).map (c :: ·)

/-- `%s`, for a field, from index `i` on. -/
def stringIn : List UInt8 → ℕ → Except Fault (List UInt8)
  | [], i => .error (.read i)
  | c :: cs, i => if c = 0 then .ok [] else (stringIn cs (i + 1)).map (c :: ·)

/-- `strstr(p, needle)`, for a field, from index `i` on: the bytes from the first match on. -/
def strstrIn (needle : List UInt8) : List UInt8 → ℕ → Except Fault (Option (List UInt8))
  | [], i => .error (.read i)
  | c :: cs, i =>
    if needle <+: c :: cs then .ok (some (c :: cs))
    else if c = 0 then .ok none else strstrIn needle cs (i + 1)

/-! ## When they stay in the field, and what they give -/

/-- **`%s` stays in the field just in case there is a NUL.** -/
theorem stringIn_eq (field : List UInt8) (i : ℕ) : stringIn field i =
    if 0 ∈ field then .ok (text field) else .error (.read (i + field.length)) := by
  induction field generalizing i with
  | nil => rfl
  | cons c cs ih =>
    rw [stringIn]
    by_cases hc : c = 0
    · subst hc
      rw [if_pos rfl, if_pos List.mem_cons_self, text]
      rfl
    · have hmem : 0 ∈ c :: cs ↔ 0 ∈ cs := List.mem_cons.trans (or_iff_right (Ne.symm hc))
      rw [if_neg hc, ih, if_congr hmem rfl rfl]
      split
      · simp [Except.map, text, hc]
      · rw [List.length_cons, Nat.add_right_comm]
        rfl

/-- **`strncpy` stays in the field just in case there is a NUL, or it copies no more than that.** -/
theorem strncpyIn_eq (field : List UInt8) (n i : ℕ) (rest : CharPtr) : strncpyIn field n i =
    if 0 ∈ field ∨ n ≤ field.length then .ok (strncpy (onto field rest) n)
    else .error (.read (i + field.length)) := by
  induction field generalizing n i rest with
  | nil => cases n <;> simp [strncpyIn, strncpy]
  | cons c cs ih =>
    cases n with
    | zero => rw [strncpyIn, if_pos (Or.inr (Nat.zero_le _)), strncpy]
    | succ n =>
      have hhead : onto (c :: cs) rest 0 = c := rfl
      rw [strncpyIn, strncpy, hhead]
      by_cases hc : c = 0
      · simp [hc]
      · have hmem : (0 ∈ c :: cs ∨ n + 1 ≤ (c :: cs).length) ↔ 0 ∈ cs ∨ n ≤ cs.length := by
          rw [List.mem_cons, or_iff_right (Ne.symm hc), List.length_cons, Nat.succ_le_succ_iff]
        have htail : (onto (c :: cs) rest).add 1 = onto cs (rest.add 1) := add_onto [c] cs rest
        rw [if_neg hc, if_neg hc, ih n (i + 1) (rest.add 1), if_congr hmem rfl rfl, htail,
          List.length_cons, Nat.add_right_comm]
        split <;> rfl

/-- With a NUL, `strstr` stays in the field and finds what it finds anywhere. -/
theorem strstrIn_of_mem (needle : List UInt8) {field : List UInt8} (h : 0 ∈ field) (i : ℕ) :
    strstrIn needle field i = .ok (strstr needle field) := by
  induction field generalizing i with
  | nil => exact absurd h List.not_mem_nil
  | cons c cs ih =>
    rw [strstrIn, strstr]
    split
    · rfl
    · split
      · rfl
      · rename_i hc
        exact ih (List.mem_of_ne_of_mem (Ne.symm hc) h) (i + 1)

/-- What `strstr` finds begins with the needle… -/
theorem prefix_of_strstr {needle field found : List UInt8} (h : strstr needle field = some found) :
    needle <+: found := by
  induction field with
  | nil => cases h
  | cons c cs ih =>
    rw [strstr] at h
    split at h
    · rename_i hpre
      exact Option.some.inj h ▸ hpre
    · split at h
      · cases h
      · exact ih h

/-- …and goes on to the NUL. -/
theorem mem_of_strstr {needle field found : List UInt8} (h : strstr needle field = some found)
    (hmem : 0 ∈ field) : 0 ∈ found := by
  induction field with
  | nil => cases h
  | cons c cs ih =>
    rw [strstr] at h
    split at h
    · exact Option.some.inj h ▸ hmem
    · split at h
      · cases h
      · rename_i hc
        exact ih h (List.mem_of_ne_of_mem (Ne.symm hc) hmem)

theorem strncpy_onto_strncpy (p : CharPtr) (n : ℕ) (rest : CharPtr) :
    strncpy (onto (strncpy p n) rest) n = strncpy p n := by
  induction n generalizing p rest with
  | zero => rfl
  | succ n ih =>
    by_cases hp : p 0 = 0
    · have hzero : strncpy p (n + 1) = 0 :: List.replicate n 0 := if_pos hp
      rw [hzero]
      exact if_pos rfl
    · have hcons : strncpy p (n + 1) = p 0 :: strncpy (p.add 1) n := if_neg hp
      have htail : (onto (p 0 :: strncpy (p.add 1) n) rest).add 1 =
          onto (strncpy (p.add 1) n) (rest.add 1) := add_onto [p 0] _ rest
      rw [hcons, strncpy, htail, ih]
      exact if_neg hp

theorem ofPtr_congr {p q : CharPtr} {n : ℕ} (h : ∀ i < n, p i = q i) :
    CharArray.ofPtr p n = CharArray.ofPtr q n := by
  simp only [CharArray.ofPtr, strncpy_congr h]

/-- What `strncpy` read is copied on as it is. -/
theorem ofPtr_strncpy (p : CharPtr) (n : ℕ) (rest : CharPtr) :
    CharArray.ofPtr (onto (strncpy p n) rest) n = CharArray.ofPtr p n := by
  simp only [CharArray.ofPtr, strncpy_onto_strncpy]

/-- Without a NUL all of the bytes are characters. -/
theorem text_of_notMem {bs : List UInt8} (h : 0 ∉ bs) : text bs = bs :=
  List.takeWhile_eq_self_iff.mpr fun b hb => by simpa using fun h0 : b = 0 => h (h0 ▸ hb)

/-- **`strcmp` leaves two fields of one size just in case they are equal and have no NUL**, and
compares their strings otherwise. -/
theorem strcmpIn_eq {xs ys : List UInt8} (hlen : xs.length = ys.length) (i : ℕ) :
    strcmpIn xs ys i = if xs = ys ∧ 0 ∉ ys then .error (.read (i + ys.length))
      else .ok (decide (text xs = text ys)) := by
  induction xs generalizing ys i with
  | nil =>
    obtain rfl := List.length_eq_zero_iff.mp hlen.symm
    rfl
  | cons c cs ih =>
    cases ys with
    | nil => simp at hlen
    | cons d ds =>
      rw [strcmpIn]
      by_cases hcd : c = d
      · subst hcd
        by_cases hc : c = 0
        · simp [hc, text]
        · have hrest := ih (Nat.succ.inj hlen) (i + 1)
          simp only [if_true, hrest, List.cons.injEq, true_and, List.mem_cons,
            Ne.symm hc, false_or, text, List.takeWhile_cons, ne_eq, hc, not_false_eq_true,
            decide_true, List.length_cons, Nat.add_right_comm]
          rfl
      · have htext : text (c :: cs) ≠ text (d :: ds) := by
          by_cases hc : c = 0 <;> by_cases hd : d = 0 <;> simp_all [text]
        simp [hcd, htext]

/-- **`strcmp` against a string stays in a field of its size**, and is `strcmp` in any memory that
begins with the field. -/
theorem strcmpIn_of_mem {stored field : List UInt8} (h : 0 ∈ stored)
    (hlen : stored.length = field.length) (i : ℕ) (rest : CharPtr) :
    strcmpIn stored field i = .ok (strcmpEq stored (onto field rest)) := by
  have hin : ¬ (stored = field ∧ 0 ∉ field) := fun ⟨heq, hno⟩ => hno (heq ▸ h)
  have hchars : chars (onto field rest) stored.length = text field := by
    by_cases hmem : 0 ∈ field
    · exact chars_onto hmem rest hlen.ge
    · rw [chars_onto_of_notMem hmem hlen.le, hlen, List.take_length, text_of_notMem hmem]
  rw [strcmpIn_eq hlen, if_neg hin, Except.ok.injEq, Bool.eq_iff_iff, decide_eq_true_iff,
    strcmpEq_iff h, hchars]
  exact eq_comm

/-- Without a NUL to end it there is no match: the fields differ, or `strcmp` leaves them. -/
theorem strcmpIn_of_notMem {xs ys : List UInt8} (hlen : xs.length = ys.length) (h : 0 ∉ ys)
    (i : ℕ) : strcmpIn xs ys i = if xs = ys then .error (.read (i + ys.length)) else .ok false := by
  rw [strcmpIn_eq hlen]
  by_cases heq : xs = ys
  · rw [if_pos ⟨heq, h⟩, if_pos heq]
  · have htext : text xs ≠ text ys := fun htext => by
      rw [text_of_notMem h] at htext
      have htake : (text xs).length = xs.length := by rw [htext, hlen]
      exact heq (((List.takeWhile_prefix _).eq_of_length htake).symm.trans htext)
    rw [if_neg fun hboth => heq hboth.1, if_neg heq, decide_eq_false htext]

/-! ## Searching with a check that may fault -/

section FindM

variable {α : Type} {p : α → Except Fault Bool}

/-- Nothing was found just in case every check came out false. -/
theorem findM?_eq_none_iff {l : List α} : l.findM? p = .ok none ↔ ∀ a ∈ l, p a = .ok false := by
  induction l with
  | nil => exact iff_of_true rfl fun a ha => absurd ha List.not_mem_nil
  | cons a as ih =>
    rw [List.findM?, List.forall_mem_cons]
    cases ha : p a with
    | error e => exact iff_of_false nofun fun h => nomatch h.1
    | ok b =>
      rw [ok_bind]
      cases b with
      | true => exact iff_of_false nofun fun h => nomatch h.1
      | false => rw [ih, and_iff_right rfl]

/-- What was found came out true. -/
theorem eq_true_of_findM? {l : List α} {a : α} (h : l.findM? p = .ok (some a)) :
    p a = .ok true := by
  induction l with
  | nil => nomatch h
  | cons a' as ih =>
    rw [List.findM?] at h
    cases ha : p a' with
    | error e => rw [ha] at h; nomatch h
    | ok b =>
      rw [ha, ok_bind] at h
      cases b with
      | true =>
        obtain rfl := Option.some.inj (Except.ok.inj h)
        exact ha
      | false => exact ih h

/-- Where no check faults, the search is `find?`. -/
theorem findM?_eq {l : List α} {q : α → Bool} (h : ∀ a, p a = .ok (q a)) :
    l.findM? p = .ok (l.find? q) := by
  rw [funext h]
  exact List.findM?_pure q l

end FindM

end CString
