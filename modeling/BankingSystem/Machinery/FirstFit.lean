import Mathlib.Data.Finset.Card
import Mathlib.Data.Fintype.Card
import Mathlib.Data.List.FinRange
import Mathlib.Data.List.OfFn
import Mathlib.Logic.Function.Basic

/-!
# Machinery/FirstFit — a table of slots filled by first fit is a stack for each key

`put` stores under a key in the first slot that is free or already has the key; `take` looks at the
first slot that has the key and frees it when the value is the one asked for.  Slots freed by other
keys make `put` land in front of an entry that is still there, so one key can have several entries;
read in the order of the slots they are its `stack`.  `put` pushes or replaces the top, `take` pops
the top when it is the value asked for, and no operation on another key is felt.
-/

namespace FirstFit

universe u v

variable {n : ℕ} {K : Type u} {V : Type v} [DecidableEq K]

/-- `n` slots, each free or with a key and a value. -/
abbrev Table (n : ℕ) (K : Type u) (V : Type v) := Fin n → Option (K × V)

/-- The slot has the key. -/
def owned (k : K) (e : Option (K × V)) : Bool := e.any fun kv => kv.1 = k

/-- The slot is free or has the key. -/
def fits (k : K) (e : Option (K × V)) : Bool := e.all fun kv => kv.1 = k

/-- The value the slot has for the key. -/
def valueOf (k : K) (e : Option (K × V)) : Option V :=
  e.bind fun kv => if kv.1 = k then some kv.2 else none

/-- The first slot that is free or has the key. -/
def slotFor (t : Table n K V) (k : K) : Option (Fin n) :=
  (List.finRange n).find? fun i => fits k (t i)

/-- The first slot that has the key. -/
def slotOf (t : Table n K V) (k : K) : Option (Fin n) :=
  (List.finRange n).find? fun i => owned k (t i)

/-- Store a value under a key. -/
def put (t : Table n K V) (k : K) (v : V) : Option (Table n K V) :=
  (slotFor t k).map fun i => Function.update t i (some (k, v))

/-- Ask for a value under a key, and free its slot when it is the first one of the key. -/
def take [DecidableEq V] (t : Table n K V) (k : K) (v : V) : Bool × Table n K V :=
  match slotOf t k with
  | some i => if valueOf k (t i) = some v then (true, Function.update t i none) else (false, t)
  | none => (false, t)

/-- **The values of a key, in the order of the slots.** -/
def stack (t : Table n K V) (k : K) : List V :=
  (List.finRange n).filterMap fun i => valueOf k (t i)

/-- **`put` would update**: where the key has an entry, the first slot that fits is one of its. -/
def Updates (t : Table n K V) (k : K) : Prop :=
  ∀ i, slotFor t k = some i → stack t k ≠ [] → owned k (t i) = true

/-! ## Slots and stacks -/

theorem fits_of_slotFor {t : Table n K V} {k : K} {i : Fin n} (h : slotFor t k = some i) :
    fits k (t i) = true :=
  List.find?_some (p := fun i => fits k (t i)) h

theorem owned_of_slotOf {t : Table n K V} {k : K} {i : Fin n} (h : slotOf t k = some i) :
    owned k (t i) = true :=
  List.find?_some (p := fun i => owned k (t i)) h

theorem valueOf_of_owned_false {k : K} {e : Option (K × V)} (h : owned k e = false) :
    valueOf k e = none := by
  cases e with
  | none => rfl
  | some kv => simpa [owned, valueOf] using h

theorem valueOf_of_fits_false {k : K} {e : Option (K × V)} (h : fits k e = false) :
    valueOf k e = none := by
  cases e with
  | none => rfl
  | some kv => simpa [fits, valueOf] using h

theorem valueOf_of_owned {k : K} {e : Option (K × V)} (h : owned k e = true) :
    ∃ v, valueOf k e = some v := by
  cases e with
  | none => exact absurd h Bool.false_ne_true
  | some kv => exact ⟨kv.2, by simpa [owned, valueOf] using h⟩

/-- What fits for one key has no value for another. -/
theorem valueOf_of_fits {k k' : K} (hk : k' ≠ k) {e : Option (K × V)} (h : fits k' e = true) :
    valueOf k e = none := by
  cases e with
  | none => rfl
  | some kv =>
    have hkv : kv.1 = k' := by simpa [fits] using h
    simp [valueOf, hkv, hk]

@[simp] theorem valueOf_some (k k' : K) (v : V) :
    valueOf k (some (k', v)) = if k' = k then some v else none := rfl

/-- **A slot with nothing of the key before it is the top of its stack.** -/
theorem stack_split {t : Table n K V} {k : K} {i : Fin n} {p : Option (K × V) → Bool}
    (h : (List.finRange n).find? (fun i => p (t i)) = some i)
    (hp : ∀ e, p e = false → valueOf k e = none) :
    ∃ rest, ∀ e, stack (Function.update t i e) k = (valueOf k e).toList ++ rest := by
  obtain ⟨-, before, later, hsplit, hbefore⟩ := List.find?_eq_some_iff_append.mp h
  have hnodup := List.nodup_finRange n
  rw [hsplit] at hnodup
  have hlater : i ∉ later := (List.nodup_cons.mp (List.nodup_append.mp hnodup).2.1).1
  refine ⟨later.filterMap fun j => valueOf k (t j), fun e => ?_⟩
  have hfront : before.filterMap (fun j => valueOf k (Function.update t i e j)) = [] := by
    refine List.filterMap_eq_nil_iff.mpr fun j hj => ?_
    have hji : j ≠ i := by
      rintro rfl
      exact (List.disjoint_of_nodup_append hnodup) hj List.mem_cons_self
    rw [Function.update_of_ne hji]
    exact hp _ (by simpa using hbefore j hj)
  have hback : later.filterMap (fun j => valueOf k (Function.update t i e j)) =
      later.filterMap fun j => valueOf k (t j) :=
    List.filterMap_congr fun j hj => by
      have hji : j ≠ i := by
        rintro rfl
        exact hlater hj
      rw [Function.update_of_ne hji]
  rw [stack, hsplit, List.filterMap_append, List.filterMap_cons, hfront, hback,
    Function.update_self]
  cases valueOf k e <;> rfl

/-- A write that does not change what a slot has for the key is not felt by the key. -/
theorem stack_update {t : Table n K V} {k : K} {i : Fin n} {e : Option (K × V)}
    (h : valueOf k e = valueOf k (t i)) : stack (Function.update t i e) k = stack t k := by
  refine List.filterMap_congr fun j _ => ?_
  by_cases hji : j = i
  · rw [hji, Function.update_self, h]
  · rw [Function.update_of_ne hji]

/-- The first slot of a key has the top of its stack. -/
theorem head?_stack (t : Table n K V) (k : K) :
    (stack t k).head? = (slotOf t k).bind fun i => valueOf k (t i) := by
  cases h : slotOf t k with
  | none =>
    have hnone : stack t k = [] := List.filterMap_eq_nil_iff.mpr fun i hi =>
      valueOf_of_owned_false (eq_false_of_ne_true (List.find?_eq_none.mp h i hi))
    rw [hnone]
    rfl
  | some i =>
    obtain ⟨rest, hrest⟩ := stack_split (k := k) h fun _ => valueOf_of_owned_false
    obtain ⟨v, hv⟩ := valueOf_of_owned (owned_of_slotOf h)
    have := hrest (t i)
    rw [Function.update_eq_self, hv] at this
    rw [this, Option.bind_some, hv]
    rfl

/-! ## The operations on stacks -/

section Put

variable {t t' : Table n K V} {k k' : K} {v : V}

/-- **`put` pushes, or replaces the top.** -/
theorem stack_put (h : put t k v = some t') :
    stack t' k = v :: stack t k ∨ stack t' k = v :: (stack t k).tail := by
  obtain ⟨i, hi, rfl⟩ := Option.map_eq_some_iff.mp h
  obtain ⟨rest, hrest⟩ := stack_split (k := k) hi fun _ => valueOf_of_fits_false
  have hold := hrest (t i)
  rw [Function.update_eq_self] at hold
  have hnew := hrest (some (k, v))
  rw [valueOf_some, if_pos rfl] at hnew
  cases hv : valueOf k (t i) with
  | none => exact Or.inl (by rw [hnew, hold, hv]; rfl)
  | some w => exact Or.inr (by rw [hnew, hold, hv]; rfl)

/-- Where it would update, it replaces the top. -/
theorem stack_put_of_updates (h : put t k v = some t') (hu : Updates t k) :
    stack t' k = v :: (stack t k).tail := by
  obtain ⟨i, hi, rfl⟩ := Option.map_eq_some_iff.mp h
  obtain ⟨rest, hrest⟩ := stack_split (k := k) hi fun _ => valueOf_of_fits_false
  have hold := hrest (t i)
  rw [Function.update_eq_self] at hold
  have hnew := hrest (some (k, v))
  rw [valueOf_some, if_pos rfl] at hnew
  by_cases hempty : stack t k = []
  · have hr : rest = [] := (List.append_eq_nil_iff.mp (hold.symm.trans hempty)).2
    rw [hnew, hempty, hr]
    rfl
  · obtain ⟨w, hw⟩ := valueOf_of_owned (hu i hi hempty)
    rw [hnew, hold, hw]
    rfl

/-- `put` under another key is not felt. -/
theorem stack_put_ne (h : put t k' v = some t') (hk : k' ≠ k) : stack t' k = stack t k := by
  obtain ⟨i, hi, rfl⟩ := Option.map_eq_some_iff.mp h
  refine stack_update ?_
  rw [valueOf_some, if_neg hk, valueOf_of_fits hk (fits_of_slotFor hi)]

end Put

section Take

variable [DecidableEq V] (t : Table n K V) {k k' : K} (v : V)

/-- **`take` succeeds exactly on the top of the stack.** -/
theorem take_eq_true_iff : (take t k v).1 = true ↔ (stack t k).head? = some v := by
  rw [head?_stack, take]
  cases slotOf t k with
  | none => simp
  | some i =>
    rw [Option.bind_some]
    dsimp only
    split
    · rename_i hv
      exact iff_of_true rfl hv
    · rename_i hv
      exact iff_of_false Bool.false_ne_true hv

/-- `take` of the top pops it. -/
theorem stack_take (h : (stack t k).head? = some v) :
    stack (take t k v).2 k = (stack t k).tail := by
  rw [head?_stack] at h
  obtain ⟨i, hi, hv⟩ := Option.bind_eq_some_iff.mp h
  obtain ⟨rest, hrest⟩ := stack_split (k := k) hi fun _ => valueOf_of_owned_false
  have hold := hrest (t i)
  rw [Function.update_eq_self, hv] at hold
  rw [take, hi]
  dsimp only
  rw [if_pos hv, hrest none, hold]
  rfl

/-- `take` of anything else changes nothing. -/
theorem take_of_ne (h : (stack t k).head? ≠ some v) : (take t k v).2 = t := by
  rw [head?_stack] at h
  rw [take]
  cases hi : slotOf t k with
  | none => rfl
  | some i =>
    rw [hi] at h
    exact congrArg Prod.snd (if_neg h)

/-- `take` under another key is not felt. -/
theorem stack_take_ne (hk : k' ≠ k) : stack (take t k' v).2 k = stack t k := by
  rw [take]
  cases hi : slotOf t k' with
  | none => rfl
  | some i =>
    dsimp only
    split
    · have hfits : fits k' (t i) = true := by
        have := owned_of_slotOf hi
        cases h : t i with
        | none => rfl
        | some kv => simpa [owned, fits, h] using this
      exact stack_update (valueOf_of_fits hk hfits).symm
    · rfl

end Take

/-! ## One entry for each key -/

/-- **No key has two entries.** -/
def Distinct (t : Table n K V) : Prop :=
  ∀ k i j, owned k (t i) = true → owned k (t j) = true → i = j

section Distinct

variable {t t' : Table n K V} {k : K} {v : V}

@[simp] theorem owned_some (k k' : K) (v : V) : owned k (some (k', v)) = decide (k' = k) := rfl

@[simp] theorem owned_none (k : K) : owned k (none : Option (K × V)) = false := rfl

theorem stack_ne_nil {i : Fin n} (h : owned k (t i) = true) : stack t k ≠ [] := by
  obtain ⟨v, hv⟩ := valueOf_of_owned h
  exact List.ne_nil_of_mem (List.mem_filterMap.mpr ⟨i, List.mem_finRange i, hv⟩)

theorem exists_owned (h : stack t k ≠ []) : ∃ i, owned k (t i) = true := by
  obtain ⟨v, hv⟩ := List.exists_mem_of_ne_nil _ h
  obtain ⟨i, -, hi⟩ := List.mem_filterMap.mp hv
  refine ⟨i, ?_⟩
  by_contra hno
  rw [valueOf_of_owned_false (eq_false_of_ne_true hno)] at hi
  exact absurd hi.symm (Option.some_ne_none v)

/-- **`put` keeps the keys apart just in case it updates.** -/
theorem distinct_put_iff (hd : Distinct t) (h : put t k v = some t') :
    Distinct t' ↔ Updates t k := by
  obtain ⟨i, hi, rfl⟩ := Option.map_eq_some_iff.mp h
  have hnew : owned k (Function.update t i (some (k, v)) i) = true := by simp
  have hold : ∀ {k' j}, j ≠ i → owned k' (Function.update t i (some (k, v)) j) = true →
      owned k' (t j) = true := fun hji hj => by rwa [Function.update_of_ne hji] at hj
  constructor
  · intro hd' i' hi' hne
    obtain rfl := Option.some.inj (hi.symm.trans hi')
    obtain ⟨j, hj⟩ := exists_owned hne
    by_cases hji : j = i
    · rwa [← hji]
    · refine absurd (hd' k j i ?_ hnew) hji
      rwa [Function.update_of_ne hji]
  · intro hu
    -- another entry of the key would have made the first fit one of its own
    have hself : ∀ {k' j}, j ≠ i → owned k' (Function.update t i (some (k, v)) i) = true →
        ¬ owned k' (Function.update t i (some (k, v)) j) = true := fun hji hi' hj => by
      obtain rfl : k = _ := by simpa using hi'
      exact hji (hd _ _ _ (hold hji hj) (hu i hi (stack_ne_nil (hold hji hj))))
    intro k' j j' hj hj'
    by_cases hji : j = i
    · subst hji
      by_contra hne
      exact hself (Ne.symm hne) hj hj'
    · by_cases hji' : j' = i
      · subst hji'
        exact absurd hj (hself hji hj')
      · exact hd k' j j' (hold hji hj) (hold hji' hj')

/-- `take` keeps them apart. -/
theorem Distinct.take [DecidableEq V] (hd : Distinct t) (k : K) (v : V) :
    Distinct (take t k v).2 := by
  rw [FirstFit.take]
  cases slotOf t k with
  | none => exact hd
  | some i =>
    dsimp only
    split
    · have hold : ∀ {k' j}, owned k' (Function.update t i none j) = true →
          owned k' (t j) = true := fun {_ j} hj => by
        by_cases hji : j = i
        · subst hji
          simp at hj
        · rwa [Function.update_of_ne hji] at hj
      exact fun k' j j' hj hj' => hd k' j j' (hold hj) (hold hj')
    · exact hd

/-- **Where no slot fits, each slot has a key of its own.** -/
theorem full_of_slotFor (hd : Distinct t) (h : slotFor t k = none) :
    ∃ keys : Finset K, keys.card = n ∧ k ∉ keys ∧ ∀ k' ∈ keys, stack t k' ≠ [] := by
  have hslot : ∀ i, ∃ k', k' ≠ k ∧ owned k' (t i) = true := fun i => by
    have hfits := List.find?_eq_none.mp h i (List.mem_finRange i)
    cases ht : t i with
    | none => exact absurd (by rw [ht]; rfl) hfits
    | some kv =>
      refine ⟨kv.1, ?_, by simp [owned]⟩
      simpa [fits, ht] using hfits
  choose key hkey howned using hslot
  have hinj : Function.Injective key := fun i j hij =>
    hd (key i) i j (howned i) (by rw [hij]; exact howned j)
  refine ⟨Finset.univ.image key, ?_, ?_, ?_⟩
  · rw [Finset.card_image_of_injective _ hinj, Finset.card_univ, Fintype.card_fin]
  · rw [Finset.mem_image]
    rintro ⟨i, -, hi⟩
    exact hkey i hi
  · intro k' hk'
    obtain ⟨i, -, rfl⟩ := Finset.mem_image.mp hk'
    exact stack_ne_nil (howned i)

end Distinct

/-- Nothing is stored in an empty table. -/
theorem stack_empty (k : K) : stack (fun _ => none : Table n K V) k = [] :=
  List.filterMap_eq_nil_iff.mpr fun _ _ => rfl

end FirstFit
