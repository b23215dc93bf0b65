import BankingSystem.Account.Ledger

/-!
# Account/Lookup — a lookup that succeeds goes on finding the same slot

A call only ever adds to the directory: it fills the slot the count points at, or leaves the names
alone.  So the directory of a table is extended by that of every later one (`extends_after`), and a
search for the first entry that compares equal finds in an extension what it found before.  With
the shape every table has, this is what the pointers kept across `db_lock` rely on
(`lookups_stable`).
-/

namespace BankingSystem

open CString Interleave Machine

universe u

/-! ## Extensions of a directory -/

/-- **The directory has grown**: the entries below the count are what they were. -/
structure Directory.Extends (d d' : Directory) : Prop where
  count : d.count ≤ d'.count
  ids : ∀ i : Slot, i.val < d.count → d'.ids i = d.ids i
  active : ∀ i : Slot, i.val < d.count → d'.active i = d.active i

namespace Directory.Extends

variable {d d' d'' : Directory} {id : CharPtr} {i : Slot}

theorem refl (d : Directory) : d.Extends d := ⟨le_rfl, fun _ _ => rfl, fun _ _ => rfl⟩

theorem trans (h : d.Extends d') (h' : d'.Extends d'') : d.Extends d'' where
  count := h.count.trans h'.count
  ids i hi := (h'.ids i (hi.trans_le h.count)).trans (h.ids i hi)
  active i hi := (h'.active i (hi.trans_le h.count)).trans (h.active i hi)

/-- **The first entry that compares equal stays the first.** -/
theorem find_eq (h : d.Extends d') (hf : d.find id = some i) : d'.find id = some i := by
  obtain ⟨hmatch, n, hn, rfl, hbefore⟩ := List.find?_eq_some_iff_getElem.mp hf
  rw [List.getElem_finRange] at hmatch hf ⊢
  simp only [Bool.and_eq_true, decide_eq_true_eq] at hmatch
  have hcount : n < d.count := hmatch.1.1
  refine List.find?_eq_some_iff_getElem.mpr ⟨?_, n, hn, List.getElem_finRange .., fun j hj => ?_⟩
  · rw [h.ids _ hcount, h.active _ hcount]
    simpa [hcount.trans_le h.count] using ⟨hmatch.1.2, hmatch.2⟩
  · have hlt : j < d.count := hj.trans hcount
    have hno := hbefore j hj
    rw [List.getElem_finRange] at hno ⊢
    rw [h.ids _ hlt, h.active _ hlt]
    simpa [hlt, hlt.trans_le h.count] using hno

end Directory.Extends

/-! ## The shape of a table -/

variable {α : Type u} [Arith α] {db : AccountDB α}

/-- **The shape of a table**: the active slots are those below the count, and every stored id is
terminated inside its field. -/
structure AccountDB.Shape (db : AccountDB α) : Prop where
  count_le : db.accountCount ≤ maxAccounts
  active_iff : ∀ i, (db.accounts i).active = true ↔ i.val < db.accountCount
  terminated : ∀ i, 0 ∈ (db.accounts i).accountId.bytes

namespace AccountDB

omit [Arith α] in
theorem extends_insert (h : db.accountCount < maxAccounts) (id : CharPtr) (b : α) :
    db.dir.Extends (db.insert ⟨db.accountCount, h⟩ id b).dir where
  count := Nat.le_succ _
  ids i hi := by
    have hne : i ≠ ⟨db.accountCount, h⟩ := Fin.ne_of_lt hi
    simp only [dir, insert, Function.update_of_ne hne]
  active i hi := by
    have hne : i ≠ ⟨db.accountCount, h⟩ := Fin.ne_of_lt hi
    simp only [dir, insert, Function.update_of_ne hne]

omit [Arith α] in
theorem Shape.insert (h : db.Shape) (hc : db.accountCount < maxAccounts) (id : CharPtr) (b : α) :
    (db.insert ⟨db.accountCount, hc⟩ id b).Shape where
  count_le := hc
  active_iff i := by
    by_cases hi : i = ⟨db.accountCount, hc⟩
    · subst hi
      simp [AccountDB.insert]
    · have hne : i.val ≠ db.accountCount := fun heq => hi (Fin.ext heq)
      have hact : i.val < db.accountCount + 1 ↔ i.val < db.accountCount := by omega
      simp only [AccountDB.insert, Function.update_of_ne hi, h.active_iff, hact]
  terminated i := ((db.insert _ id b).accounts i).accountId.nul_mem

omit [Arith α] in
theorem Shape.setBalance (h : db.Shape) (i : Slot) (b : α) : (db.setBalance i b).Shape where
  count_le := h.count_le
  active_iff j := by
    have hact : ((db.setBalance i b).accounts j).active = (db.accounts j).active :=
      congrArg (fun d : Directory => d.active j) (dir_setBalance db i b)
    rw [hact]
    exact h.active_iff j
  terminated j := ((db.setBalance i b).accounts j).accountId.nul_mem

end AccountDB

/-! ## One call -/

/-- **A call fills the slot the count points at, or leaves the directory alone.** -/
theorem dir_accountStep (db : AccountDB α) (op : AccountOp α) :
    (∃ id b, ∃ h : db.accountCount < maxAccounts, op = .create id b ∧
      (accountStep db op).1.code = 0 ∧
      (accountStep db op).2 = db.insert ⟨db.accountCount, h⟩ id b) ∨
    (accountStep db op).2 = db ∨ ∃ i b, (accountStep db op).2 = db.setBalance i b := by
  cases op with
  | create id b =>
    obtain ⟨hcode, h, hleaves⟩ | ⟨-, hleaves⟩ := accountCreate_leaves id b db
    · exact Or.inl ⟨id, b, h, rfl, hcode, hleaves⟩
    · exact Or.inr (Or.inl hleaves)
  | deposit id amount =>
    obtain ⟨-, i, -, hleaves⟩ | ⟨-, hleaves⟩ := accountDeposit_leaves id amount db
    · exact Or.inr (Or.inr ⟨i, _, hleaves⟩)
    · exact Or.inr (Or.inl hleaves)
  | withdraw id amount =>
    obtain ⟨-, i, -, hleaves⟩ | ⟨-, hleaves⟩ := accountWithdraw_leaves id amount db
    · exact Or.inr (Or.inr ⟨i, _, hleaves⟩)
    · exact Or.inr (Or.inl hleaves)
  | getBalance id => exact Or.inr (Or.inl (accountGetBalance_leaves id db))

/-- A call extends the directory. -/
theorem extends_accountStep (db : AccountDB α) (op : AccountOp α) :
    db.dir.Extends (accountStep db op).2.dir := by
  obtain ⟨id, b, hc, -, -, hins⟩ | hsame | ⟨i, b, hset⟩ := dir_accountStep db op
  · rw [hins]
    exact AccountDB.extends_insert hc id b
  · rw [hsame]
    exact .refl _
  · rw [hset, dir_setBalance]
    exact .refl _

theorem shape_accountStep (h : db.Shape) (op : AccountOp α) : (accountStep db op).2.Shape := by
  obtain ⟨id, b, hc, -, -, hins⟩ | hsame | ⟨i, b, hset⟩ := dir_accountStep db op
  · rw [hins]
    exact h.insert hc id b
  · rwa [hsame]
  · rw [hset]
    exact h.setBalance i b

/-! ## Runs -/

/-- The table after the calls, from a fresh one. -/
abbrev tableAfter (ops : List (AccountOp α)) : AccountDB α := after accountStep accountInit ops

/-- **The names only grow along a run.** -/
theorem extends_after (db : AccountDB α) (ops : List (AccountOp α)) :
    db.dir.Extends (after accountStep db ops).dir :=
  after_invariant (P := fun db' : AccountDB α => db.dir.Extends db'.dir)
    (fun db' op (_ : True) h => h.trans (extends_accountStep db' op)) (.refl _) fun _ _ => trivial

theorem shape_tableAfter (ops : List (AccountOp α)) : (tableAfter ops).Shape := by
  refine after_invariant (fun _ op (_ : True) h => shape_accountStep h op) ?_ fun _ _ => trivial
  exact ⟨Nat.zero_le _, fun i => by simp [accountInit], fun i => CharArray.nul_mem _⟩

/-- **Every table has the shape, and lookups are stable**: what `account_find` returns for an id it
returns after any further calls, and the stored id is the same one. -/
theorem lookups_stable (ops : List (AccountOp α)) :
    (tableAfter ops).Shape ∧ ∀ id i, accountFind (tableAfter ops) id = some i → ∀ later,
      accountFind (tableAfter (ops ++ later)) id = some i ∧
        ((tableAfter (ops ++ later)).accounts i).accountId =
          ((tableAfter ops).accounts i).accountId := by
  refine ⟨shape_tableAfter ops, fun id i hf later => ?_⟩
  have hext := extends_after (tableAfter ops) later
  rw [show tableAfter (ops ++ later) = _ from after_append]
  exact ⟨hext.find_eq hf, hext.ids i (accountFind_some hf).1⟩

/-- The account of a cut id is found under the id that is stored, also when there are two. -/
theorem lookups_stable_cut :
    let long := onto (List.replicate 25 65) fun _ => 0
    let cut := onto (List.replicate 19 65) fun _ => 0
    accountFind (tableAfter ([.create long 1] ++ [.create long 2] : List (AccountOp ℚ))) cut =
      some ⟨0, by decide⟩ := by
  intro long cut
  exact ((lookups_stable [.create long (1 : ℚ)]).2 cut ⟨0, by decide⟩ (by decide +kernel)
    [.create long 2]).1

end BankingSystem
