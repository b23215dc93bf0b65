import BankingSystem.Account.Lookup

/-!
# Account/Identity — an account goes by the id it was created under, if the id fits

`account_create` compares the whole id with the stored ones and then stores its first 19 characters.
An id of at most 19 characters names its account from then on and nothing else does; a longer one
opens an account that the same id does not find, and opens another one the next time.  A run is free
of that exactly when no call of it opens an account under an id that is cut (`identifies_iff`).
-/

namespace BankingSystem

open CString Interleave Machine

universe u

variable {α : Type u} [Arith α]

/-! ## What should hold, and when it does -/

/-- One of the calls was an `account_create` of `id` that returned 0; it filled slot `i`. -/
def Created (ops : List (AccountOp α)) (id : CharPtr) (i : Slot) : Prop :=
  ∃ before b later, ops = before ++ .create id b :: later ∧
    (accountStep (tableAfter before) (.create id b)).1.code = 0 ∧
    i.val = (tableAfter before).accountCount

/-- **Ids identify accounts**: no two active accounts have equal stored ids, and an account is found
under the id it was created under, and by no call with a different one. -/
structure Identifies (ops : List (AccountOp α)) : Prop where
  distinct : ∀ i j, ((tableAfter ops).accounts i).active = true →
    ((tableAfter ops).accounts j).active = true →
    (tableAfter ops).idText i = (tableAfter ops).idText j → i = j
  found : ∀ id i, Created ops id i → accountFind (tableAfter ops) id = some i
  only : ∀ id i, Created ops id i → ∀ op : AccountOp α,
    accountFind (tableAfter ops) op.id = some i → SameString op.id id

/-- The call opens no account under an id of 20 characters or more: such an id comes with a negative
balance, or is found in the table, or the table is full. -/
def StoredWhole (db : AccountDB α) : AccountOp α → Prop
  | .create id b => Arith.lt b Arith.zero = true ∨ (accountFind db id).isSome ∨
      maxAccounts ≤ db.accountCount ∨ Terminated id accountIdLen
  | _ => True

/-! ## One call -/

variable {db : AccountDB α} {id : CharPtr} {b : α} {i : Slot} {op : AccountOp α}
  {ops : List (AccountOp α)}

/-- `account_create` returns 0 exactly on a balance that is not negative, a new id and a table with
room. -/
theorem code_accountCreate : (accountStep db (.create id b)).1.code = 0 ↔
    Arith.lt b Arith.zero = false ∧ accountFind db id = none ∧ db.accountCount < maxAccounts := by
  change ((accountCreate id b).exec db).1.code = 0 ↔ _
  rw [exec_accountCreate]
  split
  · rename_i hb
    simp [hb]
  · rename_i hb
    cases hf : accountFind db id with
    | some j => simp
    | none =>
      dsimp only
      split <;> simp_all

/-- The id is stored whole just in case it fits when the call succeeds. -/
theorem storedWhole_create : StoredWhole db (.create id b) ↔
    ((accountStep db (.create id b)).1.code = 0 → Terminated id accountIdLen) := by
  rw [code_accountCreate]
  constructor
  · rintro (hlt | hsome | hfull | hid) ⟨hb, hf, hc⟩
    · exact absurd (hb.symm.trans hlt) Bool.false_ne_true
    · rw [hf] at hsome
      exact absurd hsome Bool.false_ne_true
    · exact absurd hc (not_lt.mpr hfull)
    · exact hid
  · intro h
    by_contra hno
    rw [StoredWhole, not_or, not_or, not_or, Bool.not_eq_true, Bool.not_eq_true,
      Option.isSome_eq_false_iff, Option.isNone_iff_eq_none, not_le] at hno
    obtain ⟨hb, hf, hc, hid⟩ := hno
    exact hid (h ⟨hb, hf, hc⟩)

/-- Only slots below the count are in use. -/
def AccountDB.Packed (db : AccountDB α) : Prop :=
  ∀ i, (db.accounts i).active = true → i.val < db.accountCount

theorem wellFormed_accountStep (h : db.WellFormed) (hop : StoredWhole db op) :
    (accountStep db op).2.WellFormed := by
  obtain ⟨id, b, hc, rfl, hcode, hins⟩ | hsame | ⟨i, b, hset⟩ := dir_accountStep db op
  · rw [hins]
    obtain ⟨-, hf, -⟩ := code_accountCreate.mp hcode
    exact h.insert (storedWhole_create.mp hop hcode) hf hc b
  · rwa [hsame]
  · rw [hset]
    exact h.setBalance i b

/-! ## Runs -/

theorem packed_tableAfter (ops : List (AccountOp α)) : (tableAfter ops).Packed :=
  fun i => ((shape_tableAfter ops).active_iff i).mp

/-- **The id in a slot that is filled stays.** -/
theorem idText_after (hi : i.val < db.accountCount) (ops : List (AccountOp α)) :
    i.val < (after accountStep db ops).accountCount ∧
      (after accountStep db ops).idText i = db.idText i := by
  have hext := extends_after db ops
  exact ⟨hi.trans_le hext.count, congrArg CharArray.text (hext.ids i hi)⟩

/-- **What an account was created under is cut and kept.** -/
theorem Created.idText (h : Created ops id i) :
    i.val < (tableAfter ops).accountCount ∧ (tableAfter ops).idText i = chars id 19 := by
  obtain ⟨before, b, later, rfl, hcode, hi⟩ := h
  obtain ⟨-, hc, hins⟩ | ⟨hne, -⟩ := accountCreate_leaves id b (tableAfter before)
  · obtain rfl : i = ⟨_, hc⟩ := Fin.ext hi
    have hnew : (⟨_, hc⟩ : Slot).val < ((tableAfter before).insert ⟨_, hc⟩ id b).accountCount :=
      Nat.lt_succ_self _
    have hlater := idText_after hnew later
    rw [AccountDB.idText_insert, if_pos rfl, ← hins] at hlater
    rwa [show tableAfter _ = _ from after_append]
  · exact absurd hcode hne

/-- An account that is found under its own id has an id that fits. -/
theorem terminated_of_found (h : Created ops id i) (hf : accountFind (tableAfter ops) id = some i) :
    Terminated id accountIdLen := by
  have hchars : chars id accountIdLen = chars id 19 :=
    (AccountDB.idText_of_find hf).2.symm.trans h.idText.2
  refine length_chars_lt_iff.mp ?_
  rw [hchars]
  exact Nat.lt_succ_of_le (length_chars_le id 19)

/-- **Ids identify the accounts of a run exactly when no call opens an account under an id that is
cut.** -/
theorem identifies_iff (ops : List (AccountOp α)) :
    Identifies ops ↔ Along StoredWhole accountStep accountInit ops := by
  refine ⟨fun h => along_iff.mpr fun before op later hops => ?_, fun h => ?_⟩
  · cases op with
    | create id b =>
      refine storedWhole_create.mpr fun hcode => ?_
      obtain ⟨-, -, hc⟩ := code_accountCreate.mp hcode
      have hcreated : Created ops id ⟨_, hc⟩ := ⟨before, b, later, hops, hcode, rfl⟩
      exact terminated_of_found hcreated (h.found id _ hcreated)
    | _ => trivial
  · have hwf : (tableAfter ops).WellFormed :=
      h.after_invariant (fun _ _ hop hwf => wellFormed_accountStep hwf hop)
        refines_init.toWellFormed
    have hfits : ∀ {id i}, Created ops id i → Terminated id accountIdLen := by
      rintro id i ⟨before, b, later, hops, hcode, -⟩
      exact storedWhole_create.mp (along_iff.mp h before _ later hops) hcode
    have hname : ∀ {id i}, Created ops id i →
        (tableAfter ops).idText i = chars id accountIdLen := fun hc =>
      hc.idText.2.trans (chars_of_terminated (hfits hc))
    refine ⟨fun i j hi hj => ?_, fun id i hc => ?_, fun id i hc op hf => ?_⟩
    · exact hwf.distinct i j (packed_tableAfter ops i hi) (packed_tableAfter ops j hj)
    · exact hwf.find_eq_some_iff.mpr ⟨hc.idText.1, hname hc⟩
    · obtain ⟨-, htext⟩ := hwf.find_eq_some_iff.mp hf
      exact .symm (.of_chars_eq (hfits hc) ((hname hc).symm.trans htext))

/-- An id of 25 characters opens two accounts, with one stored id. -/
theorem not_identifies :
    let id := onto (List.replicate 25 65) fun _ => 0
    ¬ Identifies ([.create id 1, .create id 2] : List (AccountOp ℚ)) := by
  intro id h
  exact absurd (h.distinct ⟨0, by decide⟩ ⟨1, by decide⟩ (by decide +kernel) (by decide +kernel)
    (by decide +kernel)) (by decide)

end BankingSystem
