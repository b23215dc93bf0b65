import BankingSystem.Machinery.CString
import BankingSystem.Machinery.Extended
import BankingSystem.Machinery.Serialize

/-!
# Common/Account — the shared account table (`common/include/account.h`, `common/src/account.c`)

The four operations are programs over the shared `AccountDB`, cut at every lock, unlock, search,
read and write, in the order of the source.  Each has a closed form (`exec_accountCreate`, …): what
it returns, what it stores through its output pointer, and the table it leaves.

The numbers are any `Arith`; the log lines the operations print are not modelled.
-/

namespace BankingSystem

open CString Interleave

universe u

/-- `MAX_ACCOUNTS`. -/
def maxAccounts : ℕ := 100

/-- `ACCOUNT_ID_LEN`. -/
def accountIdLen : ℕ := 20

/-- A place in the `accounts` array; an `Account *` of the source. -/
abbrev Slot := Fin maxAccounts

/-- `Account`, without its mutex.  The stored id always holds a NUL: it is either zeroed memory or
what `account_create` wrote. -/
structure Account (α : Type u) where
  accountId : CharArray accountIdLen
  balance : α
  active : Bool

/-- `AccountDB`, without its mutexes. -/
structure AccountDB (α : Type u) where
  accounts : Slot → Account α
  accountCount : ℕ

/-- The mutexes of an `AccountDB`. -/
inductive Mutex where
  | dbLock
  | account (i : Slot)
  deriving DecidableEq

/-- What an operation gives back: its return code, and what it stored through its output pointer,
if anything. -/
structure Reply (α : Type u) where
  code : ℤ
  out : Option α
  deriving DecidableEq

/-- A program over the shared table. -/
abbrev AccountProg (α : Type u) := Prog (AccountDB α) Mutex (Reply α)

variable {α : Type u}

/-! ## Single writes -/

/-- The id field after `strncpy(acc->account_id, id, ACCOUNT_ID_LEN - 1)` and
`acc->account_id[ACCOUNT_ID_LEN - 1] = 0`. -/
def storedId (id : CharPtr) : CharArray accountIdLen := CharArray.ofPtr id (accountIdLen - 1)

/-- The string stored for an id: the id, cut at 19 characters. -/
@[simp] theorem text_storedId (id : CharPtr) : (storedId id).text = chars id 19 :=
  CharArray.text_ofPtr id 19

namespace AccountDB

/-- `acc->balance`. -/
def balance (db : AccountDB α) (i : Slot) : α := (db.accounts i).balance

/-- `acc->balance = b`. -/
def setBalance (db : AccountDB α) (i : Slot) (b : α) : AccountDB α :=
  { db with accounts := Function.update db.accounts i { db.accounts i with balance := b } }

/-- The two statements that write `acc->account_id`. -/
def setId (db : AccountDB α) (i : Slot) (id : CharPtr) : AccountDB α :=
  { db with accounts :=
      Function.update db.accounts i { db.accounts i with accountId := storedId id } }

/-- `acc->active = 1`. -/
def setActive (db : AccountDB α) (i : Slot) : AccountDB α :=
  { db with accounts := Function.update db.accounts i { db.accounts i with active := true } }

/-- `db->account_count++`. -/
def incCount (db : AccountDB α) : AccountDB α := { db with accountCount := db.accountCount + 1 }

/-- The table after `account_create` filled slot `i`. -/
def insert (db : AccountDB α) (i : Slot) (id : CharPtr) (b : α) : AccountDB α where
  accounts := Function.update db.accounts i ⟨storedId id, b, true⟩
  accountCount := db.accountCount + 1

theorem insert_eq (db : AccountDB α) (i : Slot) (id : CharPtr) (b : α) :
    ((((db.setId i id).setBalance i b).setActive i).incCount) = db.insert i id b := by
  simp [setId, setBalance, setActive, incCount, insert]

@[simp] theorem setBalance_balance_self (db : AccountDB α) (i : Slot) (b : α) :
    (db.setBalance i b).balance i = b := by simp [balance, setBalance]

end AccountDB

/-! ## Single steps -/

/-- `account_find`: the first active slot below `account_count` whose id compares equal. -/
def accountFind (db : AccountDB α) (id : CharPtr) : Option Slot :=
  (List.finRange maxAccounts).find? fun i =>
    decide (i.val < db.accountCount) && (db.accounts i).active &&
      strcmpEq (db.accounts i).accountId.bytes id

/-- `account_find` as one step of a program. -/
def find (id : CharPtr) (k : Option Slot → AccountProg α) : AccountProg α :=
  .read fun db => k (accountFind db id)

/-- A read of `db->account_count`. -/
def readCount (k : ℕ → AccountProg α) : AccountProg α := .read fun db => k db.accountCount

/-- A read of `acc->balance`. -/
def readBalance (acc : Slot) (k : α → AccountProg α) : AccountProg α :=
  .read fun db => k (db.balance acc)

/-- A write of `acc->balance`. -/
def writeBalance (acc : Slot) (b : α) (k : AccountProg α) : AccountProg α :=
  .write (·.setBalance acc b) k

/-! ## The operations -/

section Code

variable [Arith α]

/-- `account_init`: zeroed memory. -/
def accountInit : AccountDB α where
  accounts := fun _ => ⟨CharArray.zero 19, Arith.zero, false⟩
  accountCount := 0

/-- Nothing is found in zeroed memory. -/
theorem accountFind_accountInit (id : CharPtr) :
    accountFind (accountInit : AccountDB α) id = none := by
  simp [accountFind, accountInit, List.find?_eq_none]

/-- `account_create`. -/
def accountCreate (id : CharPtr) (initialBalance : α) : AccountProg α :=
  if Arith.lt initialBalance Arith.zero then .ret ⟨-1, none⟩ else
  .lock .dbLock <|
  find id fun
    | some _ => .unlock .dbLock <| .ret ⟨-2, none⟩
    | none =>
      readCount fun count =>
        if h : count < maxAccounts then
          let acc : Slot := ⟨count, h⟩
          .write (·.setId acc id) <|
          writeBalance acc initialBalance <|
          .write (·.setActive acc) <|
          .write (·.incCount) <|
          .unlock .dbLock <|
          .ret ⟨0, none⟩
        else .unlock .dbLock <| .ret ⟨-3, none⟩

/-- `account_deposit`. -/
def accountDeposit (id : CharPtr) (amount : α) : AccountProg α :=
  if Arith.le amount Arith.zero then .ret ⟨-1, none⟩ else
  .lock .dbLock <|
  find id fun
    | none => .unlock .dbLock <| .ret ⟨-2, none⟩
    | some acc =>
      .lock (.account acc) <|
      .unlock .dbLock <|
      readBalance acc fun b => writeBalance acc (Arith.add b amount) <|
      -- *new_balance = acc->balance, then the log line reads it once more
      readBalance acc fun newBalance => readBalance acc fun _ =>
      .unlock (.account acc) <|
      .ret ⟨0, some newBalance⟩

/-- `account_withdraw`. -/
def accountWithdraw (id : CharPtr) (amount : α) : AccountProg α :=
  if Arith.le amount Arith.zero then .ret ⟨-1, none⟩ else
  .lock .dbLock <|
  find id fun
    | none => .unlock .dbLock <| .ret ⟨-2, none⟩
    | some acc =>
      .lock (.account acc) <|
      .unlock .dbLock <|
      readBalance acc fun b =>
        if Arith.lt b amount then .unlock (.account acc) <| .ret ⟨-3, none⟩ else
        readBalance acc fun b => writeBalance acc (Arith.sub b amount) <|
        readBalance acc fun newBalance => readBalance acc fun _ =>
        .unlock (.account acc) <|
        .ret ⟨0, some newBalance⟩

/-- `account_get_balance`. -/
def accountGetBalance (id : CharPtr) : AccountProg α :=
  .lock .dbLock <|
  find id fun
    | none => .unlock .dbLock <| .ret ⟨-2, none⟩
    | some acc =>
      .lock (.account acc) <|
      .unlock .dbLock <|
      readBalance acc fun b =>
      .unlock (.account acc) <|
      .ret ⟨0, some b⟩

/-! ## What the operations do alone -/

theorem exec_accountCreate (id : CharPtr) (b : α) (db : AccountDB α) :
    (accountCreate id b).exec db =
      if Arith.lt b Arith.zero then (⟨-1, none⟩, db) else
      match accountFind db id with
      | some _ => (⟨-2, none⟩, db)
      | none => if h : db.accountCount < maxAccounts
          then (⟨0, none⟩, db.insert ⟨db.accountCount, h⟩ id b) else (⟨-3, none⟩, db) := by
  rw [accountCreate]
  split
  · rfl
  · simp only [Prog.exec_lock, find, readCount, Prog.exec_read]
    split
    · rfl
    · simp only [Prog.exec_read]
      split
      · simp only [writeBalance, Prog.exec_write, Prog.exec_unlock, Prog.exec_ret,
          AccountDB.insert_eq]
      · rfl

theorem exec_accountDeposit (id : CharPtr) (amount : α) (db : AccountDB α) :
    (accountDeposit id amount).exec db =
      if Arith.le amount Arith.zero then (⟨-1, none⟩, db) else
      match accountFind db id with
      | none => (⟨-2, none⟩, db)
      | some i => (⟨0, some (Arith.add (db.balance i) amount)⟩,
          db.setBalance i (Arith.add (db.balance i) amount)) := by
  rw [accountDeposit]
  split
  · rfl
  · simp only [Prog.exec_lock, find, Prog.exec_read]
    split
    · rfl
    · simp [readBalance, writeBalance]

theorem exec_accountWithdraw (id : CharPtr) (amount : α) (db : AccountDB α) :
    (accountWithdraw id amount).exec db =
      if Arith.le amount Arith.zero then (⟨-1, none⟩, db) else
      match accountFind db id with
      | none => (⟨-2, none⟩, db)
      | some i => if Arith.lt (db.balance i) amount then (⟨-3, none⟩, db)
          else (⟨0, some (Arith.sub (db.balance i) amount)⟩,
            db.setBalance i (Arith.sub (db.balance i) amount)) := by
  rw [accountWithdraw]
  split
  · rfl
  · simp only [Prog.exec_lock, find, Prog.exec_read]
    split
    · rfl
    · simp only [readBalance, Prog.exec_lock, Prog.exec_unlock, Prog.exec_read]
      split
      · rfl
      · simp [writeBalance]

omit [Arith α] in
theorem exec_accountGetBalance (id : CharPtr) (db : AccountDB α) :
    (accountGetBalance id).exec db =
      match accountFind db id with
      | none => (⟨-2, none⟩, db)
      | some i => (⟨0, some (db.balance i)⟩, db) := by
  rw [accountGetBalance]
  simp only [Prog.exec_lock, find, Prog.exec_read]
  split <;> rfl

/-! ## What the operations leave -/

/-- **`account_create` fills slot `account_count`, or changes nothing.** -/
theorem accountCreate_leaves (id : CharPtr) (b : α) (db : AccountDB α) :
    (((accountCreate id b).exec db).1.code = 0 ∧ ∃ h : db.accountCount < maxAccounts,
      ((accountCreate id b).exec db).2 = db.insert ⟨db.accountCount, h⟩ id b) ∨
    (((accountCreate id b).exec db).1.code ≠ 0 ∧ ((accountCreate id b).exec db).2 = db) := by
  rw [exec_accountCreate]
  split
  · exact Or.inr ⟨by simp, rfl⟩
  split
  · exact Or.inr ⟨by simp, rfl⟩
  · split
    · rename_i h
      exact Or.inl ⟨rfl, h, rfl⟩
    · exact Or.inr ⟨by simp, rfl⟩

/-- **`account_deposit` stores the sum in the account it finds, or changes nothing.** -/
theorem accountDeposit_leaves (id : CharPtr) (amount : α) (db : AccountDB α) :
    (((accountDeposit id amount).exec db).1.code = 0 ∧ ∃ i, accountFind db id = some i ∧
      ((accountDeposit id amount).exec db).2 =
        db.setBalance i (Arith.add (db.balance i) amount)) ∨
    (((accountDeposit id amount).exec db).1.code ≠ 0 ∧
      ((accountDeposit id amount).exec db).2 = db) := by
  rw [exec_accountDeposit]
  split
  · exact Or.inr ⟨by simp, rfl⟩
  split
  · exact Or.inr ⟨by simp, rfl⟩
  · rename_i i hi
    exact Or.inl ⟨rfl, i, hi, rfl⟩

/-- **`account_withdraw` stores the difference in the account it finds, or changes nothing.** -/
theorem accountWithdraw_leaves (id : CharPtr) (amount : α) (db : AccountDB α) :
    (((accountWithdraw id amount).exec db).1.code = 0 ∧ ∃ i, accountFind db id = some i ∧
      ((accountWithdraw id amount).exec db).2 =
        db.setBalance i (Arith.sub (db.balance i) amount)) ∨
    (((accountWithdraw id amount).exec db).1.code ≠ 0 ∧
      ((accountWithdraw id amount).exec db).2 = db) := by
  rw [exec_accountWithdraw]
  split
  · exact Or.inr ⟨by simp, rfl⟩
  split
  · exact Or.inr ⟨by simp, rfl⟩
  · rename_i i hi
    split
    · exact Or.inr ⟨by simp, rfl⟩
    · exact Or.inl ⟨rfl, i, hi, rfl⟩

omit [Arith α] in
/-- `account_get_balance` changes nothing. -/
theorem accountGetBalance_leaves (id : CharPtr) (db : AccountDB α) :
    ((accountGetBalance id).exec db).2 = db := by
  rw [exec_accountGetBalance]
  split <;> rfl

omit [Arith α] in
/-- A query that succeeds finds its account. -/
theorem accountGetBalance_found {id : CharPtr} {db : AccountDB α}
    (h : ((accountGetBalance id).exec db).1.code = 0) : ∃ i, accountFind db id = some i := by
  rw [exec_accountGetBalance] at h
  cases hf : accountFind db id with
  | none => exact absurd h (by simp [hf])
  | some i => exact ⟨i, rfl⟩

/-! ## Calls -/

/-- A call of one of the four operations. -/
inductive AccountOp (α : Type u) where
  | create (id : CharPtr) (initialBalance : α)
  | deposit (id : CharPtr) (amount : α)
  | withdraw (id : CharPtr) (amount : α)
  | getBalance (id : CharPtr)

/-- The text of the operation called. -/
def AccountOp.prog : AccountOp α → AccountProg α
  | create id b => accountCreate id b
  | deposit id amount => accountDeposit id amount
  | withdraw id amount => accountWithdraw id amount
  | getBalance id => accountGetBalance id

/-- One call on a table nobody else works on. -/
abbrev accountStep (db : AccountDB α) (op : AccountOp α) : Reply α × AccountDB α := op.prog.exec db

/-- The id a call names. -/
def AccountOp.id : AccountOp α → CharPtr
  | create id _ | deposit id _ | withdraw id _ | getBalance id => id

end Code

end BankingSystem
