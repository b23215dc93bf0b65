import BankingSystem.Account.Locking
import BankingSystem.Machinery.Machine
import Mathlib.Data.Finmap

/-!
# Account/Ledger — the account table is a bounded map from ids to balances

`Ledger` says what the table is for: a finite map from ids to balances with room for `maxAccounts`
keys.  The table keeps its accounts in a prefix of the array with pairwise different ids
(`WellFormed`), so the first match of `account_find` is the only one, and each operation on the
table is the operation on the map (`Refines`).
-/

namespace BankingSystem

open CString Interleave Machine

universe u

variable {α : Type u}

/-! ## The ledger -/

/-- **A map from ids to balances with at most `maxAccounts` keys.** -/
structure Ledger (α : Type u) where
  map : Finmap fun _ : List UInt8 => α
  bounded : map.keys.card ≤ maxAccounts

namespace Ledger

/-- The empty ledger. -/
def empty : Ledger α := ⟨∅, Nat.zero_le _⟩

theorem keys_insert (m : Finmap fun _ : List UInt8 => α) (k : List UInt8) (b : α) :
    (m.insert k b).keys = insert k m.keys := by
  ext x
  rw [Finmap.mem_keys, Finset.mem_insert, Finmap.mem_insert, Finmap.mem_keys]

theorem card_set {m : Finmap fun _ : List UInt8 => α} {k : List UInt8} {b b' : α}
    (h : m.lookup k = some b) : (m.insert k b').keys.card = m.keys.card := by
  rw [keys_insert, Finset.insert_eq_of_mem (Finmap.mem_keys.mpr (Finmap.mem_of_lookup_eq_some h))]

/-- A new key, while there is room. -/
def add (m : Ledger α) (k : List UInt8) (b : α) (h : m.map.keys.card < maxAccounts) : Ledger α :=
  ⟨m.map.insert k b, by
    rw [keys_insert]
    exact (Finset.card_insert_le _ _).trans h⟩

/-- A new balance for a key that is there. -/
def set (m : Ledger α) (k : List UInt8) {b : α} (h : m.map.lookup k = some b) (b' : α) :
    Ledger α := ⟨m.map.insert k b', (card_set h).trans_le m.bounded⟩

variable [Arith α]

/-- Insert, unless the balance is negative, the key is there, or the map is full. -/
def create (m : Ledger α) (k : List UInt8) (b : α) : Reply α × Ledger α :=
  if Arith.lt b Arith.zero then (⟨-1, none⟩, m) else
  if k ∈ m.map then (⟨-2, none⟩, m) else
  if h : m.map.keys.card < maxAccounts then (⟨0, none⟩, m.add k b h) else (⟨-3, none⟩, m)

/-- Add a positive amount at a key. -/
def deposit (m : Ledger α) (k : List UInt8) (amount : α) : Reply α × Ledger α :=
  if Arith.le amount Arith.zero then (⟨-1, none⟩, m) else
  match h : m.map.lookup k with
  | none => (⟨-2, none⟩, m)
  | some b => (⟨0, some (Arith.add b amount)⟩, m.set k h (Arith.add b amount))

/-- Subtract a positive amount at a key, unless it is above the balance. -/
def withdraw (m : Ledger α) (k : List UInt8) (amount : α) : Reply α × Ledger α :=
  if Arith.le amount Arith.zero then (⟨-1, none⟩, m) else
  match h : m.map.lookup k with
  | none => (⟨-2, none⟩, m)
  | some b => if Arith.lt b amount then (⟨-3, none⟩, m)
      else (⟨0, some (Arith.sub b amount)⟩, m.set k h (Arith.sub b amount))

omit [Arith α] in
/-- Read the balance at a key. -/
def getBalance (m : Ledger α) (k : List UInt8) : Reply α × Ledger α :=
  match m.map.lookup k with
  | none => (⟨-2, none⟩, m)
  | some b => (⟨0, some b⟩, m)

section Lookup

omit [Arith α]

variable {κ : Type*} {β : Type*} {lookup : κ → Option α} {k : κ} (x : β)
  (f : ∀ b, lookup k = some b → β)

/-- A lookup that finds nothing takes the first branch. -/
theorem match_none (h : lookup k = none) :
    (match hb : lookup k with | none => x | some b => f b hb) = x := by
  split
  · rfl
  · rename_i hb
    exact absurd (h.symm.trans hb) (Option.some_ne_none _).symm

/-- A lookup that finds `b` takes the second. -/
theorem match_some {b : α} (h : lookup k = some b) :
    (match hb : lookup k with | none => x | some b => f b hb) = f b h := by
  split
  · rename_i hb
    exact absurd (hb.symm.trans h) (Option.some_ne_none _).symm
  · rename_i hb
    obtain rfl := Option.some.inj (h.symm.trans hb)
    rfl

end Lookup

section Key

variable {m : Ledger α} {k : List UInt8} {b : α}

theorem deposit_of_none (hb : m.map.lookup k = none) (amount : α) : m.deposit k amount =
    if Arith.le amount Arith.zero then (⟨-1, none⟩, m) else (⟨-2, none⟩, m) :=
  congrArg _ (match_none _ _ hb)

theorem deposit_of_some (hb : m.map.lookup k = some b) (amount : α) : m.deposit k amount =
    if Arith.le amount Arith.zero then (⟨-1, none⟩, m) else
    (⟨0, some (Arith.add b amount)⟩, m.set k hb (Arith.add b amount)) :=
  congrArg _ (match_some _ _ hb)

theorem withdraw_of_none (hb : m.map.lookup k = none) (amount : α) : m.withdraw k amount =
    if Arith.le amount Arith.zero then (⟨-1, none⟩, m) else (⟨-2, none⟩, m) :=
  congrArg _ (match_none _ _ hb)

theorem withdraw_of_some (hb : m.map.lookup k = some b) (amount : α) : m.withdraw k amount =
    if Arith.le amount Arith.zero then (⟨-1, none⟩, m) else
    if Arith.lt b amount then (⟨-3, none⟩, m) else
    (⟨0, some (Arith.sub b amount)⟩, m.set k hb (Arith.sub b amount)) :=
  congrArg _ (match_some _ _ hb)

end Key

/-- One call, on the ledger: the key is the string the id points at. -/
def step (m : Ledger α) : AccountOp α → Reply α × Ledger α
  | .create id b => m.create (chars id accountIdLen) b
  | .deposit id amount => m.deposit (chars id accountIdLen) amount
  | .withdraw id amount => m.withdraw (chars id accountIdLen) amount
  | .getBalance id => m.getBalance (chars id accountIdLen)

end Ledger

/-! ## The shape of a table -/

namespace AccountDB

/-- The id stored in a slot. -/
def idText (db : AccountDB α) (i : Slot) : List UInt8 := (db.accounts i).accountId.text

theorem idText_setBalance (db : AccountDB α) (i j : Slot) (b : α) :
    (db.setBalance i b).idText j = db.idText j :=
  congrArg (fun d : Directory => (d.ids j).text) (dir_setBalance db i b)

/-- The account found has the id that was looked for. -/
theorem idText_of_find {db : AccountDB α} {id : CharPtr} {i : Slot}
    (h : accountFind db id = some i) :
    i.val < db.accountCount ∧ db.idText i = chars id accountIdLen := by
  obtain ⟨hi, _, heq⟩ := accountFind_some h
  exact ⟨hi, ((CharArray.strcmpEq_iff _ id).mp heq).symm⟩

/-- **A prefix of the array holds the accounts, under different ids.** -/
structure WellFormed (db : AccountDB α) : Prop where
  count_le : db.accountCount ≤ maxAccounts
  active : ∀ i : Slot, i.val < db.accountCount → (db.accounts i).active = true
  distinct : ∀ i j : Slot, i.val < db.accountCount → j.val < db.accountCount →
    db.idText i = db.idText j → i = j

end AccountDB

/-- **In a well-formed table the first match is the only one.** -/
theorem AccountDB.WellFormed.find_eq_some_iff {db : AccountDB α} (h : db.WellFormed) {id : CharPtr}
    {i : Slot} : accountFind db id = some i ↔
      i.val < db.accountCount ∧ db.idText i = chars id accountIdLen := by
  refine ⟨AccountDB.idText_of_find, fun ⟨hi, hid⟩ => ?_⟩
  cases hf : accountFind db id with
  | none =>
    refine absurd ?_ (List.find?_eq_none.mp hf i (List.mem_finRange i))
    have heq := (CharArray.strcmpEq_iff (db.accounts i).accountId id).mpr hid.symm
    simp [hi, h.active i hi, heq]
  | some j =>
    obtain ⟨hj, hjd⟩ := AccountDB.idText_of_find hf
    exact congrArg some (h.distinct j i hj hi (hjd.trans hid.symm))

theorem AccountDB.WellFormed.find_eq_none_iff {db : AccountDB α} (h : db.WellFormed)
    {id : CharPtr} : accountFind db id = none ↔
      ∀ i : Slot, i.val < db.accountCount → db.idText i ≠ chars id accountIdLen := by
  refine ⟨fun hf i hi hid => ?_, fun hn => ?_⟩
  · rw [h.find_eq_some_iff.mpr ⟨hi, hid⟩] at hf
    exact absurd hf (Option.some_ne_none i)
  · cases hf : accountFind db id with
    | none => rfl
    | some i =>
      obtain ⟨hi, hid⟩ := h.find_eq_some_iff.mp hf
      exact absurd hid (hn i hi)

/-! ## Writes keep the shape -/

namespace AccountDB

variable {db : AccountDB α} {i : Slot} {id : CharPtr} {b : α}

/-- The id stored in each slot after an insertion. -/
theorem idText_insert (j : Slot) :
    (db.insert i id b).idText j = if j = i then chars id 19 else db.idText j := by
  split
  · rename_i h
    subst h
    simp [idText, AccountDB.insert]
  · rename_i h
    simp [idText, AccountDB.insert, h]

theorem balance_insert (j : Slot) :
    (db.insert i id b).balance j = if j = i then b else db.balance j := by
  by_cases h : j = i <;> simp [balance, AccountDB.insert, h]

/-- A slot below the new count is the new one or an old one. -/
theorem lt_of_ne_new {n : ℕ} {hn : n < maxAccounts} {j : Slot} (hj : j.val < n + 1)
    (hne : j ≠ ⟨n, hn⟩) : j.val < n :=
  Nat.lt_of_le_of_ne (Nat.le_of_lt_succ hj) (Fin.val_ne_of_ne hne)

end AccountDB

/-- An id that ends within its 20 bytes is stored whole. -/
theorem chars_of_terminated {id : CharPtr} (h : Terminated id accountIdLen) :
    chars id 19 = chars id accountIdLen := by
  obtain ⟨k, hk, h0⟩ := h
  exact chars_eq_of_terminated h0 (Nat.le_of_lt_succ hk) (Nat.le_of_lt hk)

namespace AccountDB.WellFormed

variable {db : AccountDB α} {id : CharPtr} {i : Slot}

/-- A new balance leaves the shape alone. -/
theorem setBalance (h : db.WellFormed) (i : Slot) (b : α) : (db.setBalance i b).WellFormed where
  count_le := h.count_le
  active := fun j hj => (congrArg (·.active j) (dir_setBalance db i b)).trans (h.active j hj)
  distinct := fun j k hj hk hjk => by
    rw [idText_setBalance, idText_setBalance] at hjk
    exact h.distinct j k hj hk hjk

/-- **A new id that is stored whole keeps the ids apart.** -/
theorem insert (h : db.WellFormed) (hid : Terminated id accountIdLen)
    (hf : accountFind db id = none) (hc : db.accountCount < maxAccounts) (b : α) :
    (db.insert ⟨db.accountCount, hc⟩ id b).WellFormed where
  count_le := hc
  active := fun j hj => by
    by_cases hji : j = ⟨db.accountCount, hc⟩
    · simp [AccountDB.insert, hji]
    · simpa [AccountDB.insert, hji] using h.active j (lt_of_ne_new hj hji)
  distinct := fun j k hj hk hjk => by
    have hnew := h.find_eq_none_iff.mp hf
    rw [idText_insert, idText_insert, chars_of_terminated hid] at hjk
    split at hjk <;> split at hjk
    · rename_i hji hki
      exact hji.trans hki.symm
    · rename_i hki
      exact absurd hjk.symm (hnew k (lt_of_ne_new hk hki))
    · rename_i hji _
      exact absurd hjk (hnew j (lt_of_ne_new hj hji))
    · rename_i hji hki
      exact h.distinct j k (lt_of_ne_new hj hji) (lt_of_ne_new hk hki) hjk

end AccountDB.WellFormed

/-! ## The table refines the ledger -/

/-- **The table `db` holds the ledger `m`.** -/
structure Refines (db : AccountDB α) (m : Ledger α) : Prop extends db.WellFormed where
  lookup : ∀ i : Slot, i.val < db.accountCount → m.map.lookup (db.idText i) = some (db.balance i)
  named : ∀ k ∈ m.map, ∃ i : Slot, i.val < db.accountCount ∧ db.idText i = k
  card : m.map.keys.card = db.accountCount

namespace Refines

variable {db : AccountDB α} {m : Ledger α} {id : CharPtr} {i : Slot}

/-- The account found is the one the key names. -/
theorem lookup_of_find (h : Refines db m) (hf : accountFind db id = some i) :
    m.map.lookup (chars id accountIdLen) = some (db.balance i) := by
  obtain ⟨hi, hid⟩ := h.find_eq_some_iff.mp hf
  rw [← hid]
  exact h.lookup i hi

/-- Nothing is found exactly when the key is absent. -/
theorem lookup_of_find_none (h : Refines db m) (hf : accountFind db id = none) :
    m.map.lookup (chars id accountIdLen) = none := by
  refine Finmap.lookup_eq_none.mpr fun hk => ?_
  obtain ⟨i, hi, hid⟩ := h.named _ hk
  exact h.find_eq_none_iff.mp hf i hi hid

/-- `acc->balance = b` on the account found. -/
theorem setBalance (h : Refines db m) (hf : accountFind db id = some i) {b : α}
    (hb : m.map.lookup (chars id accountIdLen) = some b) (b' : α) :
    Refines (db.setBalance i b') (m.set (chars id accountIdLen) hb b') := by
  obtain ⟨hi, hid⟩ := h.find_eq_some_iff.mp hf
  have htext := fun j => db.idText_setBalance i j b'
  refine
    { toWellFormed := h.toWellFormed.setBalance i b'
      lookup := fun j hj => ?_
      named := fun k hk => ?_
      card := (Ledger.card_set hb).trans h.card }
  · rw [htext, balance_setBalance]
    change (m.map.insert _ _).lookup _ = _
    split
    · rename_i hji
      rw [hji, hid, Finmap.lookup_insert]
    · rename_i hji
      have hne : db.idText j ≠ chars id accountIdLen := fun heq =>
        hji (h.distinct j i hj hi (heq.trans hid.symm))
      rw [Finmap.lookup_insert_of_ne _ hne]
      exact h.lookup j hj
  · obtain rfl | hk := Finmap.mem_insert.mp hk
    · exact ⟨i, hi, (htext i).trans hid⟩
    · obtain ⟨j, hj, hjk⟩ := h.named k hk
      exact ⟨j, hj, (htext j).trans hjk⟩

end Refines

/-- **`account_create` fills the slot the count points at.** -/
theorem Refines.insert {db : AccountDB α} {m : Ledger α} {id : CharPtr} (h : Refines db m)
    (hid : Terminated id accountIdLen) (hf : accountFind db id = none)
    (hc : db.accountCount < maxAccounts) (hk : m.map.keys.card < maxAccounts) (b : α) :
    Refines (db.insert ⟨db.accountCount, hc⟩ id b) (m.add (chars id accountIdLen) b hk) := by
  have hnew := h.find_eq_none_iff.mp hf
  have hnotMem : chars id accountIdLen ∉ m.map.keys := by
    rw [Finmap.mem_keys, ← Finmap.lookup_eq_none]
    exact h.lookup_of_find_none hf
  refine
    { toWellFormed := h.toWellFormed.insert hid hf hc b
      lookup := fun j hj => ?_
      named := fun k hk => ?_
      card := ?_ }
  · rw [AccountDB.idText_insert, AccountDB.balance_insert, chars_of_terminated hid]
    change (m.map.insert _ _).lookup _ = _
    by_cases hji : j = ⟨db.accountCount, hc⟩
    · rw [if_pos hji, if_pos hji, Finmap.lookup_insert]
    · have hj' := AccountDB.lt_of_ne_new hj hji
      rw [if_neg hji, if_neg hji, Finmap.lookup_insert_of_ne _ (hnew j hj')]
      exact h.lookup j hj'
  · obtain rfl | hk := Finmap.mem_insert.mp hk
    · refine ⟨⟨db.accountCount, hc⟩, Nat.lt_succ_self _, ?_⟩
      rw [AccountDB.idText_insert, if_pos rfl, chars_of_terminated hid]
    · obtain ⟨j, hj, hjk⟩ := h.named k hk
      refine ⟨j, Nat.lt_succ_of_lt hj, ?_⟩
      rw [AccountDB.idText_insert, if_neg (Fin.ne_of_lt hj), hjk]
  · change (m.map.insert _ _).keys.card = db.accountCount + 1
    rw [Ledger.keys_insert, Finset.card_insert_of_notMem hnotMem, h.card]

section Code

variable [Arith α]

/-- The table after `account_init` holds the empty ledger. -/
theorem refines_init : Refines (accountInit : AccountDB α) Ledger.empty where
  count_le := Nat.zero_le _
  active := fun _ hi => absurd hi (Nat.not_lt_zero _)
  distinct := fun _ _ hi => absurd hi (Nat.not_lt_zero _)
  lookup := fun _ hi => absurd hi (Nat.not_lt_zero _)
  named := fun _ hk => absurd hk Finmap.notMem_empty
  card := rfl

theorem step_create {db : AccountDB α} {m : Ledger α} {id : CharPtr} (b : α) (h : Refines db m)
    (hid : Terminated id accountIdLen) :
    ((accountCreate id b).exec db).1 = (m.create (chars id accountIdLen) b).1 ∧
      Refines ((accountCreate id b).exec db).2 (m.create (chars id accountIdLen) b).2 := by
  rw [exec_accountCreate, Ledger.create]
  split
  · exact ⟨rfl, h⟩
  cases hf : accountFind db id with
  | some i =>
    rw [if_pos (Finmap.mem_of_lookup_eq_some (h.lookup_of_find hf))]
    exact ⟨rfl, h⟩
  | none =>
    rw [if_neg (Finmap.lookup_eq_none.mp (h.lookup_of_find_none hf))]
    dsimp only
    by_cases hc : db.accountCount < maxAccounts
    · have hk : m.map.keys.card < maxAccounts := h.card ▸ hc
      rw [dif_pos hc, dif_pos hk]
      exact ⟨rfl, h.insert hid hf hc hk b⟩
    · rw [dif_neg hc, dif_neg (h.card ▸ hc)]
      exact ⟨rfl, h⟩

theorem step_deposit {db : AccountDB α} {m : Ledger α} (id : CharPtr) (amount : α)
    (h : Refines db m) :
    ((accountDeposit id amount).exec db).1 = (m.deposit (chars id accountIdLen) amount).1 ∧
      Refines ((accountDeposit id amount).exec db).2
        (m.deposit (chars id accountIdLen) amount).2 := by
  rw [exec_accountDeposit]
  cases hf : accountFind db id with
  | none =>
    rw [Ledger.deposit_of_none (h.lookup_of_find_none hf)]
    split <;> exact ⟨rfl, h⟩
  | some i =>
    have hb := h.lookup_of_find hf
    rw [Ledger.deposit_of_some hb]
    split
    · exact ⟨rfl, h⟩
    · exact ⟨rfl, h.setBalance hf hb _⟩

theorem step_withdraw {db : AccountDB α} {m : Ledger α} (id : CharPtr) (amount : α)
    (h : Refines db m) :
    ((accountWithdraw id amount).exec db).1 = (m.withdraw (chars id accountIdLen) amount).1 ∧
      Refines ((accountWithdraw id amount).exec db).2
        (m.withdraw (chars id accountIdLen) amount).2 := by
  rw [exec_accountWithdraw]
  cases hf : accountFind db id with
  | none =>
    rw [Ledger.withdraw_of_none (h.lookup_of_find_none hf)]
    split <;> exact ⟨rfl, h⟩
  | some i =>
    have hb := h.lookup_of_find hf
    rw [Ledger.withdraw_of_some hb]
    split
    · exact ⟨rfl, h⟩
    dsimp only
    split
    · exact ⟨rfl, h⟩
    · exact ⟨rfl, h.setBalance hf hb _⟩

omit [Arith α] in
theorem step_getBalance {db : AccountDB α} {m : Ledger α} (id : CharPtr) (h : Refines db m) :
    ((accountGetBalance id).exec db).1 = (m.getBalance (chars id accountIdLen)).1 ∧
      Refines ((accountGetBalance id).exec db).2 (m.getBalance (chars id accountIdLen)).2 := by
  rw [exec_accountGetBalance, Ledger.getBalance]
  cases hf : accountFind db id with
  | none =>
    rw [h.lookup_of_find_none hf]
    exact ⟨rfl, h⟩
  | some i =>
    rw [h.lookup_of_find hf]
    exact ⟨rfl, h⟩

/-- **Each call on the table is the call on the ledger.** -/
theorem simulation_ledger : Simulation accountStep Ledger.step
    (fun op : AccountOp α => Terminated op.id accountIdLen) Refines := by
  suffices h : ∀ {db : AccountDB α} {m : Ledger α} {op : AccountOp α},
      Terminated op.id accountIdLen → Refines db m →
        (op.prog.exec db).1 = (m.step op).1 ∧ Refines (op.prog.exec db).2 (m.step op).2 from
    ⟨fun hid hR => (h hid hR).1, fun hid hR => (h hid hR).2⟩
  intro db m op hid hR
  cases op with
  | create id b => exact step_create b hR hid
  | deposit id amount => exact step_deposit id amount hR
  | withdraw id amount => exact step_withdraw id amount hR
  | getBalance id => exact step_getBalance id hR

/-- **Whatever is called on a fresh table, the answers are those of the ledger.**  The answer of a
call is its return code and what it stored through its output pointer. -/
theorem account_refines_ledger (ops : List (AccountOp α))
    (hid : ∀ op ∈ ops, Terminated op.id accountIdLen) :
    answers accountStep accountInit ops = answers Ledger.step Ledger.empty ops ∧
      Refines (after accountStep accountInit ops)
        (after Ledger.step Ledger.empty ops) :=
  ⟨simulation_ledger.answers_eq refines_init hid, simulation_ledger.after refines_init hid⟩

/-- An account is opened, overdrawn, and queried under another name. -/
theorem account_refines_ledger_overdrawn :
    let ops : List (AccountOp ℚ) := [.create (onto [65] fun _ => 0) 5,
      .withdraw (onto [65] fun _ => 0) 7, .getBalance (onto [66] fun _ => 0)]
    (∀ op ∈ ops, Terminated op.id accountIdLen) ∧
      answers accountStep accountInit ops =
        answers Ledger.step Ledger.empty ops ∧
      Refines (after accountStep accountInit ops)
        (after Ledger.step Ledger.empty ops) := by
  intro ops
  have hid : ∀ op ∈ ops, Terminated op.id accountIdLen := by
    simp only [ops, List.mem_cons, List.not_mem_nil, or_false, forall_eq_or_imp, forall_eq]
    exact ⟨⟨1, by decide, rfl⟩, ⟨1, by decide, rfl⟩, ⟨1, by decide, rfl⟩⟩
  exact ⟨hid, account_refines_ledger ops hid⟩

end Code

end BankingSystem
