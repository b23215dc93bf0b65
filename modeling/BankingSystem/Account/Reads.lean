import BankingSystem.Account.Locking
import BankingSystem.Machinery.Field

/-!
# Account/Reads — the account operations read their id inside its field

A request hands `account_id` to the account operations as a pointer, and nothing promises a NUL in
its 20 bytes.  Here the operations run on the field alone: a string function that reads on behind it
is a fault.  The stored ids end inside their own fields, so the search never leaves the field
(`accountFindIn_eq`), and what is found ends there; only the log line of a new account can read on
(`accountCreateIn_eq`).
-/

namespace BankingSystem

open Bytes CString Interleave

variable {α : Type}

/-! ## The account operations -/

/-- `account_find`, on the field. -/
def accountFindIn (db : AccountDB α) (field : List UInt8) : Except Fault (Option Slot) :=
  (List.finRange maxAccounts).findM? fun i =>
    if i.val < db.accountCount ∧ (db.accounts i).active = true then
      strcmpIn (db.accounts i).accountId.bytes field 0
    else .ok false

section Code

variable [Arith α]

/-- `account_create`, on the field, with the log line. -/
def accountCreateIn (db : AccountDB α) (field : List UInt8) (initialBalance : α) :
    Except Fault (Reply α × AccountDB α) := do
  if Arith.lt initialBalance Arith.zero then return (⟨-1, none⟩, db)
  match ← accountFindIn db field with
  | some _ => return (⟨-2, none⟩, db)
  | none =>
    if h : db.accountCount < maxAccounts then
      let stored ← strncpyIn field (accountIdLen - 1) 0
      let _ ← stringIn field 0
      return (⟨0, none⟩, db.insert ⟨db.accountCount, h⟩ (onto stored fun _ => 0) initialBalance)
    else return (⟨-3, none⟩, db)

/-- `account_deposit`, on the field, with the log line. -/
def accountDepositIn (db : AccountDB α) (field : List UInt8) (amount : α) :
    Except Fault (Reply α × AccountDB α) := do
  if Arith.le amount Arith.zero then return (⟨-1, none⟩, db)
  match ← accountFindIn db field with
  | none => return (⟨-2, none⟩, db)
  | some i =>
    let b := Arith.add (db.balance i) amount
    let _ ← stringIn field 0
    return (⟨0, some b⟩, db.setBalance i b)

/-- `account_withdraw`, on the field, with the log line. -/
def accountWithdrawIn (db : AccountDB α) (field : List UInt8) (amount : α) :
    Except Fault (Reply α × AccountDB α) := do
  if Arith.le amount Arith.zero then return (⟨-1, none⟩, db)
  match ← accountFindIn db field with
  | none => return (⟨-2, none⟩, db)
  | some i =>
    if Arith.lt (db.balance i) amount then return (⟨-3, none⟩, db)
    let b := Arith.sub (db.balance i) amount
    let _ ← stringIn field 0
    return (⟨0, some b⟩, db.setBalance i b)

end Code

/-- `account_get_balance`, on the field, with the log line. -/
def accountGetBalanceIn (db : AccountDB α) (field : List UInt8) :
    Except Fault (Reply α × AccountDB α) := do
  match ← accountFindIn db field with
  | none => return (⟨-2, none⟩, db)
  | some i =>
    let _ ← stringIn field 0
    return (⟨0, some (db.balance i)⟩, db)

/-! ## What the operations read -/

variable {db : AccountDB α} {field : List UInt8} {rest : CharPtr}

/-- **The search never leaves the field.** -/
theorem accountFindIn_eq (db : AccountDB α) (h : field.length = accountIdLen) (rest : CharPtr) :
    accountFindIn db field = .ok (accountFind db (onto field rest)) := by
  refine findM?_eq fun i => ?_
  have hlen : (db.accounts i).accountId.bytes.length = field.length :=
    (db.accounts i).accountId.length_eq.trans h.symm
  rw [strcmpIn_of_mem (db.accounts i).accountId.nul_mem hlen 0 rest]
  by_cases hi : i.val < db.accountCount <;> cases hact : (db.accounts i).active <;>
    simp [hi]

/-- An account that is found has an id that ends in the field. -/
theorem zero_mem_of_found (h : field.length = accountIdLen) {i : Slot}
    (hf : accountFind db (onto field rest) = some i) : 0 ∈ field := by
  obtain ⟨-, -, heq⟩ := accountFind_some hf
  have hchars := (CharArray.strcmpEq_iff _ _).mp heq
  have hlt : (chars (onto field rest) accountIdLen).length < accountIdLen := by
    rw [hchars]
    exact CharArray.length_text_lt _
  obtain ⟨k, hk, h0⟩ := length_chars_lt_iff.mp hlt
  rw [onto_of_lt (hk.trans_eq h.symm)] at h0
  exact h0 ▸ List.getElem_mem _

section Code

variable [Arith α]

/-- **`account_create` leaves the field when it logs a new account whose id has no end there.** -/
theorem accountCreateIn_eq (db : AccountDB α) (h : field.length = accountIdLen) (rest : CharPtr)
    (b : α) : accountCreateIn db field b =
      if 0 ∈ field ∨ ((accountCreate (onto field rest) b).exec db).1.code ≠ 0
      then .ok ((accountCreate (onto field rest) b).exec db)
      else .error (.read accountIdLen) := by
  rw [accountCreateIn, exec_accountCreate]
  split
  · simp [pure, Except.pure]
  · rw [accountFindIn_eq db h rest, ok_bind]
    cases hf : accountFind db (onto field rest) with
    | some i => simp [pure, Except.pure]
    | none =>
      dsimp only
      split
      · have hcopy : accountIdLen - 1 ≤ field.length := by
          rw [h]
          exact Nat.sub_le _ _
        have hid : storedId (onto (strncpy (onto field rest) (accountIdLen - 1)) fun _ => 0) =
            storedId (onto field rest) := ofPtr_strncpy _ _ _
        rw [strncpyIn_eq field _ 0 rest, if_pos (Or.inr hcopy), ok_bind, stringIn_eq, h]
        by_cases hmem : 0 ∈ field
        · simp [hmem, ok_bind, pure, Except.pure, AccountDB.insert, hid]
        · simp [hmem, bind, Except.bind]
      · simp [pure, Except.pure]

/-- The other operations log what they found. -/
theorem accountDepositIn_eq (db : AccountDB α) (h : field.length = accountIdLen) (rest : CharPtr)
    (x : α) : accountDepositIn db field x =
      .ok ((accountDeposit (onto field rest) x).exec db) := by
  rw [accountDepositIn, exec_accountDeposit]
  split
  · rfl
  · rw [accountFindIn_eq db h rest, ok_bind]
    cases hf : accountFind db (onto field rest) with
    | none => rfl
    | some i =>
      dsimp only
      rw [stringIn_eq, if_pos (zero_mem_of_found h hf)]
      rfl

theorem accountWithdrawIn_eq (db : AccountDB α) (h : field.length = accountIdLen) (rest : CharPtr)
    (x : α) : accountWithdrawIn db field x =
      .ok ((accountWithdraw (onto field rest) x).exec db) := by
  rw [accountWithdrawIn, exec_accountWithdraw]
  split
  · rfl
  · rw [accountFindIn_eq db h rest, ok_bind]
    cases hf : accountFind db (onto field rest) with
    | none => rfl
    | some i =>
      dsimp only
      split
      · rfl
      · rw [stringIn_eq, if_pos (zero_mem_of_found h hf)]
        rfl

end Code

theorem accountGetBalanceIn_eq (db : AccountDB α) (h : field.length = accountIdLen)
    (rest : CharPtr) : accountGetBalanceIn db field =
      .ok ((accountGetBalance (onto field rest)).exec db) := by
  rw [accountGetBalanceIn, exec_accountGetBalance, accountFindIn_eq db h rest, ok_bind]
  cases hf : accountFind db (onto field rest) with
  | none => rfl
  | some i =>
    dsimp only
    rw [stringIn_eq, if_pos (zero_mem_of_found h hf)]
    rfl

end BankingSystem
