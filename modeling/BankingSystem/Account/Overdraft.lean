import BankingSystem.Account.Locking
import BankingSystem.Machinery.Machine

/-!
# Account/Overdraft — balances under IEEE-754 amounts

The guards of `account.c` are negative tests: `initial_balance < 0`, `amount <= 0`,
`balance < amount`.  On NaN every comparison fails, so a NaN passes all three, and `∞ - ∞` passes
the last.  `Ordered` says which calls do not do this, in the state they arrive in; the balances of a
run stay `>= 0` and its withdrawals covered exactly when every call of the run is `Ordered`
(`noOverdraft_iff`).
-/

namespace BankingSystem

open CString Interleave Machine

/-- A `double` with exact finite values. -/
abbrev Amount := Extended ℚ

/-! ## What should hold, and when it does -/

/-- Every active account has a balance `>= 0`. -/
def NonNegative (db : AccountDB Amount) : Prop :=
  ∀ i, (db.accounts i).active = true → Extended.le (.fin 0) (db.balance i) = true

/-- A withdrawal that returns 0 takes an amount `<=` the balance of its account. -/
def Funded (db : AccountDB Amount) : AccountOp Amount → Prop
  | .withdraw id amount => ((accountWithdraw id amount).exec db).1.code = 0 →
      ∃ i, accountFind db id = some i ∧ Extended.le amount (db.balance i) = true
  | _ => True

/-- **No overdraft along a run** from a fresh table: in every state it passes through the balances
are `>= 0`, and every withdrawal that succeeds is covered. -/
structure NoOverdraft (ops : List (AccountOp Amount)) : Prop where
  nonNegative : ∀ before later, ops = before ++ later →
    NonNegative (after accountStep accountInit before)
  funded : ∀ before op later, ops = before ++ op :: later →
    Funded (after accountStep accountInit before) op

/-- The call does not get an unordered value past a guard: a NaN balance is created for an id that
exists or on a full table, a NaN is paid into an id that does not exist, and a withdrawal from an
account is neither of NaN nor of `∞` from `∞`. -/
def Ordered (db : AccountDB Amount) : AccountOp Amount → Prop
  | .create id b => b = .nan → (accountFind db id).isSome ∨ maxAccounts ≤ db.accountCount
  | .deposit id amount => amount = .nan → accountFind db id = none
  | .withdraw id amount => ∀ i, accountFind db id = some i →
      amount ≠ .nan ∧ (amount = .posInf → db.balance i ≠ .posInf)
  | .getBalance _ => True

/-! ## One call -/

/-- Storing a balance keeps all balances `>= 0` exactly when that one is. -/
theorem nonNegative_setBalance_iff {db : AccountDB Amount} (h : NonNegative db) {i : Slot}
    (hi : (db.accounts i).active = true) (b : Amount) :
    NonNegative (db.setBalance i b) ↔ Extended.le (.fin 0) b = true := by
  have hactive : ∀ j, ((db.setBalance i b).accounts j).active = (db.accounts j).active := fun j =>
    congrArg (fun d : Directory => d.active j) (dir_setBalance db i b)
  refine ⟨fun hn => ?_, fun hb j hj => ?_⟩
  · have := hn i ((hactive i).trans hi)
    rwa [balance_setBalance, if_pos rfl] at this
  · rw [balance_setBalance]
    split
    · exact hb
    · exact h j ((hactive j).symm.trans hj)

/-- Filling a slot keeps all balances `>= 0` exactly when the new one is. -/
theorem nonNegative_insert_iff {db : AccountDB Amount} (h : NonNegative db) (i : Slot)
    (id : CharPtr) (b : Amount) :
    NonNegative (db.insert i id b) ↔ Extended.le (.fin 0) b = true := by
  refine ⟨fun hn => ?_, fun hb j hj => ?_⟩
  · have := hn i (by simp [AccountDB.insert])
    simpa [AccountDB.insert, AccountDB.balance] using this
  · by_cases hji : j = i
    · simpa [AccountDB.insert, AccountDB.balance, hji] using hb
    · simp only [AccountDB.insert, AccountDB.balance, Function.update_of_ne hji] at hj ⊢
      exact h j hj

theorem create_iff {db : AccountDB Amount} (h : NonNegative db) (id : CharPtr) (b : Amount) :
    NonNegative ((accountCreate id b).exec db).2 ↔ Ordered db (.create id b) := by
  rw [exec_accountCreate, Ordered]
  split
  · rename_i hlt
    refine iff_of_true h fun hb => ?_
    rw [hb] at hlt
    exact absurd hlt (by simp [Arith.lt, Extended.lt])
  rename_i hlt
  have hlt : Extended.lt b (.fin 0) = false := eq_false_of_ne_true hlt
  cases hf : accountFind db id with
  | some i => exact iff_of_true h fun _ => Or.inl rfl
  | none =>
    dsimp only
    split
    · rename_i hc
      rw [nonNegative_insert_iff h]
      refine ⟨fun hb hnan => ?_, fun hord => ?_⟩
      · exact absurd hnan (Extended.ne_nan_of_le hb)
      · have hnan : b ≠ .nan := fun hnan =>
          (hord hnan).elim (fun h => absurd h (by simp)) fun hge => absurd hc (not_lt.mpr hge)
        rw [Extended.le_eq_not_lt (by simp) hnan, hlt]
        rfl
    · rename_i hc
      exact iff_of_true h fun _ => Or.inr (not_lt.mp hc)

theorem deposit_iff {db : AccountDB Amount} (h : NonNegative db) (id : CharPtr) (amount : Amount) :
    NonNegative ((accountDeposit id amount).exec db).2 ↔ Ordered db (.deposit id amount) := by
  rw [exec_accountDeposit, Ordered]
  split
  · rename_i hle
    exact iff_of_true h fun hnan => absurd hnan (Extended.of_le_fin hle).1
  rename_i hle
  have hle : Extended.le amount (.fin 0) = false := eq_false_of_ne_true hle
  cases hf : accountFind db id with
  | none => exact iff_of_true h fun _ => rfl
  | some i =>
    have hi := (accountFind_some hf).2.1
    rw [nonNegative_setBalance_iff h hi]
    refine (Extended.zero_le_add_iff (h i hi) hle).trans ?_
    exact ⟨fun hne hnan => absurd hnan hne, fun hord hnan => absurd (hord hnan) (by simp)⟩

theorem withdraw_iff {db : AccountDB Amount} (h : NonNegative db) (id : CharPtr) (amount : Amount) :
    NonNegative ((accountWithdraw id amount).exec db).2 ∧ Funded db (.withdraw id amount) ↔
      Ordered db (.withdraw id amount) := by
  rw [Funded, exec_accountWithdraw, Ordered]
  split
  · rename_i hle
    obtain ⟨hnan, hinf⟩ := Extended.of_le_fin hle
    exact iff_of_true ⟨h, fun h0 => absurd h0 (by simp)⟩
      fun i _ => ⟨hnan, fun heq => absurd heq hinf⟩
  rename_i hle
  have hle : Extended.le amount (.fin 0) = false := eq_false_of_ne_true hle
  cases hf : accountFind db id with
  | none => exact iff_of_true ⟨h, fun h0 => absurd h0 (by simp)⟩ fun i hi => absurd hi (by simp)
  | some i =>
    have hi := (accountFind_some hf).2.1
    dsimp only
    split
    · rename_i hlt
      refine iff_of_true ⟨h, fun h0 => absurd h0 (by simp)⟩ fun j hj => ?_
      obtain rfl := Option.some.inj hj
      exact Extended.of_lt hlt
    · rename_i hlt
      have hlt : Extended.lt (db.balance i) amount = false := eq_false_of_ne_true hlt
      have hkeeps := Extended.zero_le_sub_iff (h i hi) hle hlt
      rw [nonNegative_setBalance_iff h hi]
      refine ⟨fun hkept j hj => ?_, fun hord => ?_⟩
      · obtain rfl := Option.some.inj hj
        exact hkeeps.mp hkept.1
      · have hbal : db.balance i ≠ .nan := Extended.ne_nan_of_le (h i hi)
        refine ⟨hkeeps.mpr (hord i rfl), fun _ => ⟨i, rfl, ?_⟩⟩
        rw [Extended.le_eq_not_lt (hord i rfl).1 hbal, hlt]
        rfl

/-- **One call keeps the balances `>= 0` and is covered exactly when it is `Ordered`.** -/
theorem step_iff {db : AccountDB Amount} (h : NonNegative db) (op : AccountOp Amount) :
    NonNegative (accountStep db op).2 ∧ Funded db op ↔ Ordered db op := by
  cases op with
  | create id b => exact (and_iff_left trivial).trans (create_iff h id b)
  | deposit id amount => exact (and_iff_left trivial).trans (deposit_iff h id amount)
  | withdraw id amount => exact withdraw_iff h id amount
  | getBalance id =>
    refine iff_of_true ⟨?_, trivial⟩ trivial
    rw [accountStep, AccountOp.prog, exec_accountGetBalance]
    split <;> exact h

/-! ## Runs -/

theorem nonNegative_init : NonNegative accountInit := fun _ h => absurd h Bool.false_ne_true

/-- **A run has no overdraft exactly when each of its calls is `Ordered` where it arrives.** -/
theorem noOverdraft_iff (ops : List (AccountOp Amount)) :
    NoOverdraft ops ↔ Along Ordered accountStep accountInit ops := by
  refine ⟨fun h => along_iff.mpr fun before op later hops => ?_, fun h => ?_⟩
  · have hbefore := h.nonNegative before _ hops
    have hnext := h.nonNegative (before ++ [op]) later (by rw [hops, List.append_assoc]; rfl)
    rw [after_append] at hnext
    exact (step_iff hbefore op).mp ⟨hnext, h.funded before op later hops⟩
  · have hnonneg : ∀ before later, ops = before ++ later →
        NonNegative (after accountStep accountInit before) := fun before later hops => by
      subst hops
      exact (along_append.mp h).1.after_invariant
        (fun db op hop hdb => ((step_iff hdb op).mpr hop).1) nonNegative_init
    exact ⟨hnonneg, fun before op later hops =>
      ((step_iff (hnonneg before _ hops) op).mpr (along_iff.mp h before op later hops)).2⟩

/-- From an account with a balance of 5, a withdrawal of NaN succeeds. -/
theorem not_noOverdraft_nan :
    ¬ NoOverdraft [.create (onto [65] fun _ => 0) (.fin 5),
      .withdraw (onto [65] fun _ => 0) .nan] := fun h => by
  obtain ⟨i, _, hle⟩ := h.funded [_] _ [] rfl rfl
  rw [Extended.nan_le] at hle
  exact absurd hle Bool.false_ne_true

end BankingSystem
