import BankingSystem.Machinery.Bytes
import Mathlib.Data.List.TakeWhile
import Mathlib.Data.List.Basic
import Mathlib.Data.Nat.Digits.Lemmas

/-!
# Machinery/CString — C strings in raw memory

A `char *` is the memory it points at, byte by byte and without an end (`CharPtr`); nothing promises
a NUL in it.  A `CharArray n` is an array of `n` bytes that does hold a NUL.  `strcmpEq` and
`strncpy` are the loops of the C library; each is determined by `chars`, the characters before the
first NUL among a bounded number of bytes.
-/

namespace CString

/-- What a `char *` points at: the bytes of memory from there on. -/
abbrev CharPtr := ℕ → UInt8

/-- The pointer moved on by `n`. -/
def CharPtr.add (p : CharPtr) (n : ℕ) : CharPtr := fun i => p (i + n)

/-- The characters before the first NUL among the first `n` bytes. -/
def chars (p : CharPtr) : ℕ → List UInt8
  | 0 => []
  | n + 1 => if p 0 = 0 then [] else p 0 :: chars (p.add 1) n

/-- `strcmp(a, p) == 0`, for an array `a`: the loop stops at the first difference or at the first
common NUL.  Running off the end of the array is not a match. -/
def strcmpEq : List UInt8 → CharPtr → Bool
  | [], _ => false
  | c :: cs, p => if c = p 0 then c = 0 || strcmpEq cs (p.add 1) else false

/-- The `n` bytes `strncpy(_, p, n)` writes: the string, cut at `n` bytes or filled up with NULs. -/
def strncpy (p : CharPtr) : ℕ → List UInt8
  | 0 => []
  | n + 1 => if p 0 = 0 then List.replicate (n + 1) 0 else p 0 :: strncpy (p.add 1) n

/-- The string an array of bytes holds. -/
def text (bs : List UInt8) : List UInt8 := bs.takeWhile (· ≠ 0)

/-- The memory that starts with the bytes `bs` and goes on as `rest`. -/
def onto (bs : List UInt8) (rest : CharPtr) : CharPtr := fun i => bs.getD i (rest i)

/-- The first NUL of `p` is within the first `n` bytes. -/
def Terminated (p : CharPtr) (n : ℕ) : Prop := ∃ k < n, p k = 0

/-- **An array of `n` bytes that holds a string**: one of them is NUL. -/
structure CharArray (n : ℕ) where
  bytes : List UInt8
  length_eq : bytes.length = n
  nul_mem : 0 ∈ bytes
  deriving DecidableEq

/-- The string in the field. -/
def CharArray.text {n : ℕ} (f : CharArray n) : List UInt8 := CString.text f.bytes

/-- The field after `memset(…, 0, …)`. -/
def CharArray.zero (n : ℕ) : CharArray (n + 1) := ⟨List.replicate (n + 1) 0, by simp, by simp⟩

/-! ## Characters -/

theorem length_chars_le (p : CharPtr) (n : ℕ) : (chars p n).length ≤ n := by
  induction n generalizing p with
  | zero => exact le_rfl
  | succ n ih =>
    rw [chars]
    split
    · exact Nat.zero_le _
    · exact Nat.succ_le_succ (ih _)

theorem zero_notMem_chars (p : CharPtr) (n : ℕ) : 0 ∉ chars p n := by
  induction n generalizing p with
  | zero => simp [chars]
  | succ n ih =>
    rw [chars]
    split
    · simp
    · rename_i h
      rw [List.mem_cons, not_or]
      exact ⟨fun h0 => h h0.symm, ih _⟩

/-- **Past the first NUL nothing more is read.** -/
theorem chars_congr {p q : CharPtr} {k : ℕ} (hk : p k = 0) (h : ∀ i ≤ k, p i = q i) (n : ℕ) :
    chars p n = chars q n := by
  induction n generalizing p q k with
  | zero => rfl
  | succ n ih =>
    rw [chars, chars, ← h 0 (Nat.zero_le k)]
    split
    · rfl
    · rename_i h0
      cases k with
      | zero => exact absurd hk h0
      | succ k =>
        exact congrArg _ (ih (k := k) hk fun i hi => h (i + 1) (by omega))

/-- A string that ends within `n` bytes is not cut at any bound from there on. -/
theorem chars_eq_of_terminated {p : CharPtr} {k n m : ℕ} (hk : p k = 0) (hn : k ≤ n) (hm : k ≤ m) :
    chars p n = chars p m := by
  induction k generalizing p n m with
  | zero => cases n <;> cases m <;> simp [chars, hk]
  | succ k ih =>
    obtain ⟨n, rfl⟩ := Nat.exists_eq_add_of_lt hn
    obtain ⟨m, rfl⟩ := Nat.exists_eq_add_of_lt hm
    rw [chars, chars]
    split
    · rfl
    · exact congrArg _ (ih (p := p.add 1) hk (by omega) (by omega))

/-! ## Memory that starts with given bytes -/

theorem onto_of_lt {xs : List UInt8} {i : ℕ} (h : i < xs.length) (rest : CharPtr) :
    onto xs rest i = xs[i] := by
  rw [onto, List.getD_eq_getElem?_getD, List.getElem?_eq_getElem h]
  rfl

theorem onto_of_ge {xs : List UInt8} {i : ℕ} (h : xs.length ≤ i) (rest : CharPtr) :
    onto xs rest i = rest i := by
  rw [onto, List.getD_eq_getElem?_getD, List.getElem?_eq_none h]
  rfl

theorem add_onto (xs ys : List UInt8) (rest : CharPtr) :
    (onto (xs ++ ys) rest).add xs.length = onto ys (rest.add xs.length) := by
  funext i
  simp only [CharPtr.add, onto, List.getD_eq_getElem?_getD]
  rw [List.getElem?_append_right (Nat.le_add_left _ _), Nat.add_sub_cancel]

/-- The bytes memory starts with. -/
theorem map_range_onto (xs ys : List UInt8) (rest : CharPtr) :
    (List.range xs.length).map (onto (xs ++ ys) rest) = xs := by
  refine List.ext_getElem (by simp) fun i hi hi' => ?_
  have hlt : i < (xs ++ ys).length := by
    rw [List.length_append]
    omega
  rw [List.getElem_map, List.getElem_range, onto_of_lt hlt, List.getElem_append_left hi']

/-- **What memory starts with shows**, whatever it goes on with, unless it is cut short. -/
theorem onto_eq_iff {xs ys : List UInt8} (h : xs <+: ys) :
    (∀ rest, onto xs rest = onto ys rest) ↔ xs = ys := by
  refine ⟨fun hall => h.eq_of_length_le ?_, fun heq _ => by rw [heq]⟩
  by_contra hlt
  rw [not_le] at hlt
  -- memory that goes on with another byte than the one that is missing
  have hbyte := congrFun (hall fun _ => ys[xs.length] + 1) xs.length
  rw [onto_of_ge le_rfl, onto_of_lt hlt] at hbyte
  exact absurd hbyte (by simp)

/-- Memory that starts with `xs ++ ys` starts with `xs`. -/
theorem onto_append (xs ys : List UInt8) (rest : CharPtr) :
    onto (xs ++ ys) rest = onto xs (onto (xs ++ ys) rest) := by
  funext i
  obtain hi | hi := lt_or_ge i xs.length
  · have hi' : i < (xs ++ ys).length := by
      rw [List.length_append]
      omega
    rw [onto_of_lt hi, onto_of_lt hi', List.getElem_append_left hi]
  · exact (onto_of_ge hi _).symm

/-- Filling memory up with its own bytes changes nothing. -/
theorem onto_fill (xs : List UInt8) (rest : CharPtr) (n : ℕ) :
    onto (xs ++ ((List.range n).map rest).drop xs.length) rest = onto xs rest := by
  funext i
  simp only [onto, List.getD_eq_getElem?_getD]
  obtain hi | hi := lt_or_ge i xs.length
  · rw [List.getElem?_append_left hi]
  · rw [List.getElem?_append_right hi, List.getElem?_drop, Nat.add_sub_cancel' hi,
      List.getElem?_eq_none hi, List.getElem?_map]
    obtain hn | hn := lt_or_ge i n
    · rw [List.getElem?_range hn]
      rfl
    · rw [List.getElem?_eq_none (by simpa using hn)]
      rfl

theorem terminated_onto {xs : List UInt8} (h : 0 ∈ xs) (ys : List UInt8) (rest : CharPtr) :
    Terminated (onto (xs ++ ys) rest) xs.length := by
  obtain ⟨k, hk, h0⟩ := List.getElem_of_mem h
  have hk' : k < (xs ++ ys).length := by
    rw [List.length_append]
    omega
  refine ⟨k, hk, ?_⟩
  rw [onto_of_lt hk', List.getElem_append_left hk, h0]

/-- **The characters of memory that starts with a string.** -/
theorem chars_onto {xs : List UInt8} (h : 0 ∈ xs) (rest : CharPtr) {n : ℕ} (hn : xs.length ≤ n) :
    chars (onto xs rest) n = text xs := by
  induction xs generalizing rest n with
  | nil => exact absurd h List.not_mem_nil
  | cons c cs ih =>
    obtain ⟨n, rfl⟩ := Nat.exists_eq_add_of_lt (Nat.lt_of_lt_of_le (Nat.succ_pos _) hn)
    rw [Nat.zero_add, chars, text, List.takeWhile_cons]
    change (if c = 0 then [] else c :: chars (onto cs (rest.add 1)) n) = _
    by_cases hc : c = 0
    · simp [hc]
    · have hcs : 0 ∈ cs := (List.mem_cons.mp h).resolve_left fun h0 => hc h0.symm
      simpa [hc, text] using ih hcs _ (by simpa using hn)

/-! ## The library loops, in terms of characters -/

theorem strncpy_eq (p : CharPtr) (n : ℕ) :
    strncpy p n = chars p n ++ List.replicate (n - (chars p n).length) 0 := by
  induction n generalizing p with
  | zero => rfl
  | succ n ih =>
    rw [strncpy, chars]
    split
    · simp
    · rw [ih]
      simp

@[simp] theorem length_strncpy (p : CharPtr) (n : ℕ) : (strncpy p n).length = n := by
  rw [strncpy_eq, List.length_append, List.length_replicate]
  have := length_chars_le p n
  omega

/-- `strncpy` looks at the bytes it may copy. -/
theorem strncpy_congr {p q : CharPtr} {n : ℕ} (h : ∀ i < n, p i = q i) :
    strncpy p n = strncpy q n := by
  induction n generalizing p q with
  | zero => rfl
  | succ n ih =>
    rw [strncpy, strncpy, h 0 (Nat.zero_lt_succ n),
      ih (p := p.add 1) (q := q.add 1) fun i hi => h (i + 1) (Nat.succ_lt_succ hi)]

/-- **`strcmp` against an array that holds a string** compares that string with the characters of
`p`. -/
theorem strcmpEq_iff {bs : List UInt8} (h : 0 ∈ bs) (p : CharPtr) :
    strcmpEq bs p = true ↔ chars p bs.length = text bs := by
  induction bs generalizing p with
  | nil => simp at h
  | cons c cs ih =>
    rw [strcmpEq, List.length_cons, chars, text, List.takeWhile_cons]
    by_cases hc : c = 0
    · subst hc
      by_cases hp : p 0 = 0
      · simp [hp]
      · simp [hp, Ne.symm hp]
    · have hcs : 0 ∈ cs := (List.mem_cons.mp h).resolve_left fun h0 => hc h0.symm
      by_cases hcp : c = p 0
      · subst hcp
        simpa [hc, text] using ih hcs (p.add 1)
      · have hpc : ¬ p 0 = c := fun h => hcp h.symm
        by_cases hp : p 0 = 0 <;> simp [hc, hcp, hp, hpc]

/-- A string with a NUL does not go on behind it. -/
theorem text_append_of_mem {xs : List UInt8} (h : 0 ∈ xs) (ys : List UInt8) :
    text (xs ++ ys) = text xs := by
  induction xs with
  | nil => exact absurd h List.not_mem_nil
  | cons c cs ih =>
    by_cases hc : c = 0
    · simp [text, hc]
    · simpa [text, hc] using ih (List.mem_of_ne_of_mem (Ne.symm hc) h)

theorem text_append_zero {cs : List UInt8} (h : 0 ∉ cs) (n : ℕ) (zs : List UInt8) :
    text (cs ++ (List.replicate n 0 ++ 0 :: zs)) = cs := by
  induction cs with
  | nil => cases n <;> simp [text, List.replicate_succ]
  | cons c cs ih =>
    rw [List.mem_cons, not_or] at h
    have hc : c ≠ 0 := fun h0 => h.1 h0.symm
    rw [text, List.cons_append, List.takeWhile_cons]
    simp only [ne_eq, hc, not_false_eq_true, decide_true, if_true]
    exact congrArg _ (ih h.2)

/-- The field after `strncpy(f, p, n); f[n] = 0`. -/
def CharArray.ofPtr (p : CharPtr) (n : ℕ) : CharArray (n + 1) :=
  ⟨strncpy p n ++ [0], by simp, by simp⟩

@[simp] theorem CharArray.text_ofPtr (p : CharPtr) (n : ℕ) :
    (CharArray.ofPtr p n).text = chars p n := by
  change CString.text (strncpy p n ++ [0]) = chars p n
  rw [strncpy_eq, List.append_assoc]
  exact text_append_zero (zero_notMem_chars p n) _ []

/-- A string that ends within `n` bytes has less than `n` characters. -/
theorem length_chars_lt_iff {p : CharPtr} {n : ℕ} : (chars p n).length < n ↔ Terminated p n := by
  induction n generalizing p with
  | zero => simp [Terminated]
  | succ n ih =>
    rw [chars]
    split
    · rename_i h0
      exact iff_of_true (Nat.succ_pos n) ⟨0, Nat.succ_pos n, h0⟩
    · rename_i h0
      rw [List.length_cons, Nat.succ_lt_succ_iff, ih]
      refine ⟨fun ⟨k, hk, hz⟩ => ⟨k + 1, Nat.succ_lt_succ hk, hz⟩, fun ⟨k, hk, hz⟩ => ?_⟩
      cases k with
      | zero => exact absurd hz h0
      | succ k => exact ⟨k, Nat.lt_of_succ_lt_succ hk, hz⟩

/-! ## Writing strings into an array -/

/-- `snprintf(memory, n + 1, …)` that prints `cs`: at most `n` characters and a NUL; the bytes after
it stay as they were. -/
def snprintf {n : ℕ} (memory : Bytes.Block (n + 1)) (cs : List UInt8) : CharArray (n + 1) where
  bytes := cs.take n ++ 0 :: memory.toList.drop ((cs.take n).length + 1)
  length_eq := by
    have := memory.toList_length
    simp only [List.length_append, List.length_cons, List.length_drop, List.length_take]
    omega
  nul_mem := by simp

/-- The same, over a string. -/
def CharArray.print {n : ℕ} (f : CharArray (n + 1)) (cs : List UInt8) : CharArray (n + 1) :=
  snprintf ⟨f.bytes, f.length_eq⟩ cs

/-- What fits is printed whole. -/
theorem CharArray.bytes_print {n : ℕ} (f : CharArray (n + 1)) {cs : List UInt8}
    (h : cs.length ≤ n) : (f.print cs).bytes = cs ++ 0 :: f.bytes.drop (cs.length + 1) := by
  change cs.take n ++ 0 :: f.bytes.drop ((cs.take n).length + 1) = _
  rw [List.take_of_length_le h]

theorem CharArray.text_print {n : ℕ} (f : CharArray (n + 1)) {cs : List UInt8} (h : 0 ∉ cs) :
    (f.print cs).text = cs.take n :=
  text_append_zero (fun h0 => h (List.mem_of_mem_take h0)) 0 _

theorem CharArray.zero_notMem_text {n : ℕ} (f : CharArray n) : 0 ∉ f.text := fun h =>
  absurd (List.mem_takeWhile_imp h) (by simp)

theorem CharArray.length_text_lt {n : ℕ} (f : CharArray n) : f.text.length < n := by
  have hle : f.text.length ≤ f.bytes.length := (List.takeWhile_prefix _).length_le
  have hne : f.text.length ≠ f.bytes.length := fun heq => by
    have htext : f.text = f.bytes := (List.takeWhile_prefix _).eq_of_length heq
    exact f.zero_notMem_text (htext ▸ f.nul_mem)
  exact (hle.lt_of_ne hne).trans_eq f.length_eq

/-- A string copied from an array of the same size is not cut. -/
theorem CharArray.text_print_text {n : ℕ} (f g : CharArray (n + 1)) :
    (f.print g.text).text = g.text := by
  rw [f.text_print g.zero_notMem_text, List.take_of_length_le (Nat.le_of_lt_succ g.length_text_lt)]

/-- `strcpy(f, p)`; `none` when the string and its NUL do not fit into the array. -/
def CharArray.strcpy {n : ℕ} (f : CharArray (n + 1)) (p : CharPtr) : Option (CharArray (n + 1)) :=
  if (chars p (n + 1)).length < n + 1 then some (f.print (chars p (n + 1))) else none

theorem CharArray.strcpy_of_terminated {n : ℕ} (f : CharArray (n + 1)) {p : CharPtr}
    (h : Terminated p (n + 1)) :
    ∃ g, f.strcpy p = some g ∧ g.text = chars p (n + 1) := by
  have hlt := length_chars_lt_iff.mpr h
  refine ⟨f.print (chars p (n + 1)), if_pos hlt, ?_⟩
  rw [f.text_print (zero_notMem_chars p _), List.take_of_length_le (Nat.le_of_lt_succ hlt)]

/-- The characters of a literal. -/
def ascii (s : String) : List UInt8 := s.toList.map fun c => c.val.toUInt8

/-- `%d`, for a number that is not negative. -/
def decimal (n : ℕ) : List UInt8 :=
  if n = 0 then [48] else (Nat.digits 10 n).reverse.map fun d => UInt8.ofNat (48 + d)

theorem zero_notMem_decimal (n : ℕ) : 0 ∉ decimal n := by
  rw [decimal]
  split
  · decide
  · intro h
    obtain ⟨d, hd, h0⟩ := List.mem_map.mp h
    have hlt : d < 10 := Nat.digits_lt_base (by decide) (List.mem_reverse.mp hd)
    have hnz : ∀ d < 10, UInt8.ofNat (48 + d) ≠ 0 := by decide
    exact hnz d hlt h0

/-- The digits `%d` writes. -/
theorem length_decimal_eq {n k : ℕ} (h : 10 ^ k ≤ n) (h' : n < 10 ^ (k + 1)) :
    (decimal n).length = k + 1 := by
  have hn : n ≠ 0 := (Nat.lt_of_lt_of_le (Nat.pow_pos (by decide)) h).ne'
  have hle := (Nat.digits_length_le_iff (b := 10) (by decide) n).mpr h'
  have hlt := (Nat.lt_digits_length_iff (b := 10) (by decide) n).mpr h
  rw [decimal, if_neg hn, List.length_map, List.length_reverse]
  omega

/-- `strcmp(f, p) == 0`. -/
theorem CharArray.strcmpEq_iff {n : ℕ} (f : CharArray n) (p : CharPtr) :
    strcmpEq f.bytes p = true ↔ chars p n = f.text := by
  rw [CString.strcmpEq_iff f.nul_mem p, f.length_eq, CharArray.text]

/-! ## The string at a pointer -/

/-- **The pointer is to the string `s`**, however many bytes are looked at. -/
def IsString (p : CharPtr) (s : List UInt8) : Prop := 0 ∉ s ∧ ∀ n, chars p n = s.take n

/-- `strstr(p, needle)`, for the bytes from `p` on: the bytes from the first match on. -/
def strstr (needle : List UInt8) : List UInt8 → Option (List UInt8)
  | [] => none
  | c :: cs =>
    if needle <+: c :: cs then some (c :: cs) else if c = 0 then none else strstr needle cs

section IsString

variable {p : CharPtr} {s : List UInt8}

theorem isString_onto (h : 0 ∉ s) (zs : List UInt8) (rest : CharPtr) :
    IsString (onto (s ++ 0 :: zs) rest) s := by
  refine ⟨h, fun n => ?_⟩
  induction s generalizing rest n with
  | nil => cases n <;> rfl
  | cons c cs ih =>
    obtain ⟨hc, hcs⟩ := not_or.mp (List.mem_cons.not.mp h)
    cases n with
    | zero => rfl
    | succ n =>
      have hhead : onto (c :: cs ++ 0 :: zs) rest 0 = c := rfl
      have htail : (onto (c :: cs ++ 0 :: zs) rest).add 1 = onto (cs ++ 0 :: zs) (rest.add 1) :=
        add_onto [c] (cs ++ 0 :: zs) rest
      rw [chars, hhead, if_neg (Ne.symm hc), htail, ih hcs]
      rfl

theorem eq_text_append {bs : List UInt8} (h : 0 ∈ bs) : ∃ zs, bs = text bs ++ 0 :: zs := by
  induction bs with
  | nil => exact absurd h List.not_mem_nil
  | cons c cs ih =>
    by_cases hc : c = 0
    · exact ⟨cs, by simp [text, hc]⟩
    · obtain ⟨zs, hzs⟩ := ih ((List.mem_cons.mp h).resolve_left (Ne.symm hc))
      refine ⟨zs, ?_⟩
      rw [text, List.takeWhile_cons, if_pos (by simpa using hc)]
      exact congrArg (c :: ·) hzs

/-- Memory that starts with an array is to the string in the array. -/
theorem CharArray.isString {n : ℕ} (f : CharArray n) (rest : CharPtr) :
    IsString (onto f.bytes rest) f.text := by
  obtain ⟨zs, hbytes⟩ := eq_text_append f.nul_mem
  rw [hbytes]
  exact isString_onto f.zero_notMem_text zs rest

theorem IsString.chars_eq (h : IsString p s) {n : ℕ} (hn : s.length ≤ n) : chars p n = s := by
  rw [h.2 n, List.take_of_length_le hn]

/-- **A copy that has room for the NUL** is to the same string. -/
theorem IsString.strncpy (h : IsString p s) {n : ℕ} (hn : s.length < n) (later : List UInt8)
    (rest : CharPtr) : IsString (onto (CString.strncpy p n ++ later) rest) s := by
  obtain ⟨k, hk⟩ := Nat.exists_eq_add_of_lt hn
  have hfill : n - s.length = k + 1 := by omega
  rw [strncpy_eq, h.chars_eq hn.le, hfill, List.replicate_succ, List.append_assoc]
  exact isString_onto h.1 _ rest

/-- The string in an array that was copied to. -/
theorem IsString.text_strncpy (h : IsString p s) {n : ℕ} (hn : s.length ≤ n) (later : List UInt8) :
    text (CString.strncpy p n ++ 0 :: later) = s := by
  rw [strncpy_eq, h.chars_eq hn, List.append_assoc]
  exact text_append_zero h.1 _ later

/-- A copy that has none is cut. -/
theorem IsString.strncpy_of_le (h : IsString p s) {n : ℕ} (hn : n ≤ s.length) :
    CString.strncpy p n = s.take n := by
  have hlen : n - (s.take n).length = 0 := by
    rw [List.length_take, min_eq_left hn, Nat.sub_self]
  rw [strncpy_eq, h.2, hlen, List.replicate_zero, List.append_nil]

/-- Without a NUL there is no end of the characters either. -/
theorem chars_onto_of_notMem {xs : List UInt8} (h : 0 ∉ xs) {n : ℕ} (hn : n ≤ xs.length)
    (rest : CharPtr) : chars (onto xs rest) n = xs.take n := by
  induction n generalizing xs rest with
  | zero => rfl
  | succ n ih =>
    obtain ⟨c, cs, rfl⟩ := List.exists_cons_of_length_pos (Nat.lt_of_lt_of_le n.succ_pos hn)
    rw [List.mem_cons, not_or] at h
    have hhead : onto (c :: cs) rest 0 = c := rfl
    have htail : (onto (c :: cs) rest).add 1 = onto cs (rest.add 1) := add_onto [c] cs rest
    rw [chars, hhead, if_neg (Ne.symm h.1), htail, ih h.2 (Nat.le_of_succ_le_succ hn)]
    rfl

/-- The first match, where the needle's first character does not come before it. -/
theorem strstr_append {c : UInt8} (cs : List UInt8) {before : List UInt8} (later : List UInt8)
    (h0 : 0 ∉ before) (hc : c ∉ before) :
    strstr (c :: cs) (before ++ (c :: cs ++ later)) = some (c :: cs ++ later) := by
  induction before with
  | nil => exact if_pos (List.prefix_append _ _)
  | cons b bs ih =>
    rw [List.mem_cons, not_or] at h0 hc
    have hno : ¬ (c :: cs <+: b :: (bs ++ (c :: cs ++ later))) := fun hpre =>
      hc.1 (List.cons_prefix_cons.mp hpre).1
    rw [List.cons_append, strstr, if_neg hno, if_neg (Ne.symm h0.1), ih h0.2 hc.2]

end IsString

/-! ## Pointers to the same string -/

/-- The two pointers agree up to and including a NUL. -/
def SameString (p q : CharPtr) : Prop := ∃ k, p k = 0 ∧ ∀ i ≤ k, p i = q i

namespace SameString

variable {p q : CharPtr}

theorem chars_eq (h : SameString p q) (n : ℕ) : chars p n = chars q n := by
  obtain ⟨k, hk, hpq⟩ := h
  exact chars_congr hk hpq n

theorem ofPtr_eq (h : SameString p q) (n : ℕ) : CharArray.ofPtr p n = CharArray.ofPtr q n := by
  have hbytes : strncpy p n = strncpy q n := by rw [strncpy_eq, strncpy_eq, h.chars_eq]
  simp only [CharArray.ofPtr, hbytes]

theorem strcmpEq_eq (h : SameString p q) {n : ℕ} (f : CharArray n) :
    strcmpEq f.bytes p = strcmpEq f.bytes q := by
  rw [Bool.eq_iff_iff, CharArray.strcmpEq_iff, CharArray.strcmpEq_iff, h.chars_eq]

theorem symm (h : SameString p q) : SameString q p := by
  obtain ⟨k, hk, hpq⟩ := h
  exact ⟨k, (hpq k le_rfl).symm.trans hk, fun i hi => (hpq i hi).symm⟩

/-- **The characters of a string that is not cut** tell it. -/
theorem of_chars_eq {n : ℕ} (hp : Terminated p n) (h : chars p n = chars q n) :
    SameString p q := by
  induction n generalizing p q with
  | zero => exact absurd hp fun ⟨_, hk, _⟩ => Nat.not_lt_zero _ hk
  | succ n ih =>
    rw [chars, chars] at h
    split at h
    · rename_i hp0
      have hq0 : q 0 = 0 := by
        by_contra hq0
        simp [hq0] at h
      exact ⟨0, hp0, fun i hi => by rw [Nat.le_zero.mp hi, hp0, hq0]⟩
    · rename_i hp0
      have hq0 : q 0 ≠ 0 := fun hq0 => by simp [hq0] at h
      rw [if_neg hq0] at h
      obtain ⟨hhead, htail⟩ := List.cons.inj h
      obtain ⟨k, hk, h0⟩ := hp
      have hpred : k - 1 + 1 = k := Nat.succ_pred fun hk0 => hp0 (hk0 ▸ h0)
      obtain ⟨m, hm, hpq⟩ := ih (p := p.add 1) (q := q.add 1)
        ⟨k - 1, by omega, by rw [CharPtr.add, hpred, h0]⟩ htail
      refine ⟨m + 1, hm, fun i hi => ?_⟩
      cases i with
      | zero => exact hhead
      | succ i => exact hpq i (Nat.le_of_succ_le_succ hi)

/-- Inside the bytes it starts with, memory is the same whatever follows. -/
theorem of_mem {xs : List UInt8} (h : 0 ∈ xs) (rest rest' : CharPtr) :
    SameString (onto xs rest) (onto xs rest') := by
  obtain ⟨k, hk, h0⟩ := List.getElem_of_mem h
  refine ⟨k, (onto_of_lt hk rest).trans h0, fun i hi => ?_⟩
  rw [onto_of_lt (hi.trans_lt hk), onto_of_lt (hi.trans_lt hk)]

end SameString

end CString
