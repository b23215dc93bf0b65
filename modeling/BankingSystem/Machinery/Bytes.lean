import Mathlib.Data.Nat.Digits.Defs
import Mathlib.Data.Vector.Basic

/-!
# Machinery/Bytes — numbers as bytes, and buffers that notice a bad index

`le` and `be` read a number from bytes, little and big end first; `toLe` and `toBe` write it with a
fixed number of bytes.  A read or a copy that leaves its buffer is a `Fault` at the first index that
does.
-/

namespace Bytes

/-- A block of `n` bytes. -/
abbrev Block (n : ℕ) := List.Vector UInt8 n

theorem toList_ne_nil {n : ℕ} (h : 0 < n) (w : Block n) : w.toList ≠ [] := by
  rw [← List.length_pos_iff, w.toList_length]
  exact h

/-! ## Numbers -/

/-- The number with these bytes, the lowest first. -/
def le (bs : List UInt8) : ℕ := Nat.ofDigits 256 (bs.map UInt8.toNat)

/-- The number with these bytes, the highest first. -/
def be (bs : List UInt8) : ℕ := le bs.reverse

/-- The lowest `k` bytes of a number, the lowest first. -/
def toLe : ℕ → ℕ → List UInt8
  | 0, _ => []
  | k + 1, x => UInt8.ofNat x :: toLe k (x / 256)

/-- The lowest `k` bytes of a number, the highest first. -/
def toBe (k x : ℕ) : List UInt8 := (toLe k x).reverse

@[simp] theorem length_toLe (k x : ℕ) : (toLe k x).length = k := by
  induction k generalizing x with
  | zero => rfl
  | succ k ih => exact congrArg (· + 1) (ih _)

@[simp] theorem length_toBe (k x : ℕ) : (toBe k x).length = k := by
  rw [toBe, List.length_reverse, length_toLe]

theorem le_lt (bs : List UInt8) : le bs < 256 ^ bs.length := by
  have h := Nat.ofDigits_lt_base_pow_length (b := 256) (l := bs.map UInt8.toNat) (by decide)
    fun x hx => by
      obtain ⟨b, -, rfl⟩ := List.mem_map.mp hx
      exact b.toNat_lt
  rwa [List.length_map] at h

theorem be_lt (bs : List UInt8) : be bs < 256 ^ bs.length := by
  rw [be, ← List.length_reverse]
  exact le_lt _

/-- The last byte is the highest. -/
theorem le_concat (bs : List UInt8) (b : UInt8) :
    le (bs ++ [b]) = le bs + 256 ^ bs.length * b.toNat := by
  rw [le, List.map_append, Nat.ofDigits_append, List.length_map]
  exact congrArg _ (congrArg _ Nat.ofDigits_singleton)

/-- **Writing and reading back** keeps what fits. -/
theorem le_toLe (k x : ℕ) : le (toLe k x) = x % 256 ^ k := by
  induction k generalizing x with
  | zero => rw [pow_zero, Nat.mod_one]; rfl
  | succ k ih =>
    have hx : (UInt8.ofNat x).toNat = x % 256 := by rw [UInt8.toNat_ofNat']
    calc le (toLe (k + 1) x) = (UInt8.ofNat x).toNat + 256 * le (toLe k (x / 256)) := rfl
      _ = x % 256 + 256 * (x / 256 % 256 ^ k) := by rw [hx, ih]
      _ = x % 256 ^ (k + 1) := by rw [pow_succ', Nat.mod_mul]

theorem be_toBe (k x : ℕ) : be (toBe k x) = x % 256 ^ k := by
  rw [be, toBe, List.reverse_reverse, le_toLe]

/-- Numbers of the same number of bytes are different when some byte is. -/
theorem le_injective {xs ys : List UInt8} (hlen : xs.length = ys.length) (h : le xs = le ys) :
    xs = ys := by
  have hmap : xs.map UInt8.toNat = ys.map UInt8.toNat :=
    Nat.ofDigits_inj_of_len_eq (b := 256) (by decide) (by simpa using hlen)
      (fun x hx => by obtain ⟨b, -, rfl⟩ := List.mem_map.mp hx; exact b.toNat_lt)
      (fun x hx => by obtain ⟨b, -, rfl⟩ := List.mem_map.mp hx; exact b.toNat_lt) h
  exact List.map_injective_iff.mpr (fun _ _ => UInt8.toNat_inj.mp) hmap

/-- **Reading and writing back** gives the bytes again. -/
theorem toLe_le (bs : List UInt8) : toLe bs.length (le bs) = bs :=
  le_injective (length_toLe _ _) ((le_toLe _ _).trans (Nat.mod_eq_of_lt (le_lt bs)))

theorem toBe_be (bs : List UInt8) : toBe bs.length (be bs) = bs := by
  rw [toBe, be, ← List.length_reverse, toLe_le, List.reverse_reverse]

/-- The `int` with these 32 bits. -/
def asInt (n : ℕ) : ℤ := if n < 2 ^ 31 then n else n - 2 ^ 32

theorem asInt_injective {m n : ℕ} (hm : m < 2 ^ 32) (hn : n < 2 ^ 32) (h : asInt m = asInt n) :
    m = n := by
  simp only [asInt] at h
  split at h <;> split at h <;> omega

/-- An `int` is read as it was written. -/
theorem asInt_le_toLe {n : ℤ} (h : -2 ^ 31 ≤ n) (h' : n < 2 ^ 31) :
    asInt (le (toLe 4 (n % 2 ^ 32).toNat)) = n := by
  have hlt : (n % 2 ^ 32).toNat < 256 ^ 4 := by omega
  rw [le_toLe, Nat.mod_eq_of_lt hlt, asInt]
  split <;> omega

/-! ## Network order -/

/-- `ntohs`, `ntohl` on a field in network order. -/
def ntoh {k : ℕ} (w : Block k) : ℕ := be w.toList

/-- `htons`, `htonl`: what fits is stored in network order. -/
def hton (k x : ℕ) : Block k := ⟨toBe k x, length_toBe k x⟩

theorem ntoh_lt {k : ℕ} (w : Block k) : ntoh w < 256 ^ k := by
  have h := be_lt w.toList
  rwa [w.toList_length] at h

@[simp] theorem ntoh_hton (k x : ℕ) : ntoh (hton k x) = x % 256 ^ k := be_toBe k x

@[simp] theorem hton_ntoh {k : ℕ} (w : Block k) : hton k (ntoh w) = w := by
  refine Subtype.ext ?_
  have h := toBe_be w.toList
  rwa [w.toList_length] at h

/-! ## Fields -/

theorem length_slice {bs : List UInt8} {i n : ℕ} (h : i + n ≤ bs.length) :
    ((bs.drop i).take n).length = n := by
  rw [List.length_take, List.length_drop]
  omega

/-- The `n` bytes from index `i` on. -/
def slice (bs : List UInt8) (i n : ℕ) (h : i + n ≤ bs.length) : Block n :=
  ⟨(bs.drop i).take n, length_slice h⟩

/-- A field with other fields before and after it. -/
theorem slice_eq {bs : List UInt8} {i n : ℕ} {h : i + n ≤ bs.length} (before : List UInt8)
    (w : Block n) (later : List UInt8) (hi : before.length = i)
    (hbs : bs = before ++ (w.toList ++ later)) : slice bs i n h = w := by
  subst hi hbs
  refine Subtype.ext ?_
  change ((before ++ (w.toList ++ later)).drop before.length).take n = w.toList
  rw [List.drop_left, List.take_append_of_le_length w.toList_length.ge,
    List.take_of_length_le w.toList_length.le]

/-! ## Buffers -/

/-- The index of a read or a write outside its buffer. -/
inductive Fault where
  | read (i : ℕ)
  | write (i : ℕ)
  deriving DecidableEq

/-- `bs[i]`. -/
def readByte (bs : List UInt8) (i : ℕ) : Except Fault UInt8 :=
  match bs[i]? with
  | some b => .ok b
  | none => .error (.read i)

/-- What comes after a step that succeeds. -/
theorem ok_bind {α β : Type} (a : α) (f : α → Except Fault β) : (Except.ok a >>= f) = f a := rfl

/-- `memcpy(dest, src, n)`. -/
def memcpy (dest src : List UInt8) (n : ℕ) : Except Fault (List UInt8) :=
  if src.length < n then .error (.read src.length) else
  if dest.length < n then .error (.write dest.length) else
  .ok (src.take n ++ dest.drop n)

theorem memcpy_eq {dest src : List UInt8} {n : ℕ} (hsrc : n ≤ src.length)
    (hdest : n ≤ dest.length) : memcpy dest src n = .ok (src.take n ++ dest.drop n) := by
  rw [memcpy, if_neg (not_lt.mpr hsrc), if_neg (not_lt.mpr hdest)]

end Bytes
