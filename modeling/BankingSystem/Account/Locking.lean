import BankingSystem.Common.Account
import BankingSystem.Machinery.Progress

/-!
# Account/Locking — the workers' operations on the shared table are serializable and never stuck

`db_lock` guards the ids, the active flags and `account_count`; the mutex of an account guards its
balance.  All four operations follow the hand-over-hand discipline of `Machinery/Discipline`
(`AccountOp.entry`): `account_create` writes a balance under `db_lock` alone, but in a slot no
search can return yet.  So they are serializable (`account_serializable`), and whatever the workers
wait for, one of them can move (`account_progress`).
-/

namespace BankingSystem

open CString Interleave

universe u v

variable {α : Type u}

/-! ## The directory -/

/-- What `db_lock` guards. -/
structure Directory where
  ids : Slot → CharArray accountIdLen
  active : Slot → Bool
  count : ℕ

/-- `account_find`, on the directory. -/
def Directory.find (d : Directory) (id : CharPtr) : Option Slot :=
  (List.finRange maxAccounts).find? fun i =>
    decide (i.val < d.count) && d.active i && strcmpEq (d.ids i).bytes id

/-- The part of the table `db_lock` guards. -/
def AccountDB.dir (db : AccountDB α) : Directory where
  ids i := (db.accounts i).accountId
  active i := (db.accounts i).active
  count := db.accountCount

/-- **A search looks at the directory alone.** -/
theorem accountFind_eq (db : AccountDB α) (id : CharPtr) : accountFind db id = db.dir.find id := rfl

/-- A search returns a slot below the count, with an id that compares equal. -/
theorem accountFind_some {db : AccountDB α} {id : CharPtr} {i : Slot}
    (h : accountFind db id = some i) : i.val < db.accountCount ∧ (db.accounts i).active = true ∧
      strcmpEq (db.accounts i).accountId.bytes id = true := by
  have := List.find?_some h
  simp only [Bool.and_eq_true, decide_eq_true_eq] at this
  exact ⟨this.1.1, this.1.2, this.2⟩

/-- The directory and the balances are the whole table. -/
theorem AccountDB.eq_of_dir {s s' : AccountDB α} (hd : s.dir = s'.dir)
    (hc : ∀ i, s.balance i = s'.balance i) : s = s' := by
  obtain ⟨accounts, count⟩ := s
  obtain ⟨accounts', count'⟩ := s'
  obtain ⟨hids, hact, rfl⟩ := Directory.mk.inj hd
  refine congrArg (AccountDB.mk · _) (funext fun i => ?_)
  have hb : (accounts i).balance = (accounts' i).balance := hc i
  have hi := congrFun hids i
  have ha := congrFun hact i
  simp only at hi ha
  cases h : accounts i
  cases h' : accounts' i
  simp_all

theorem account_ne_dbLock (i : Slot) : Mutex.account i ≠ .dbLock := fun h => by cases h

/-- **How the shared table is guarded.** -/
def accountLayout : Layout (AccountDB α) Mutex Directory Slot α where
  dir := AccountDB.dir
  cell i db := db.balance i
  visible d i := i.val < d.count
  dirLock := .dbLock
  cellLock := .account
  cellLock_injective := fun _ _ h => Mutex.account.inj h
  cellLock_ne := account_ne_dbLock
  ext := AccountDB.eq_of_dir

/-! ## What each write touches -/

theorem dir_setBalance (db : AccountDB α) (i : Slot) (b : α) :
    (db.setBalance i b).dir = db.dir := by
  refine Directory.mk.injEq .. |>.mpr ⟨funext fun j => ?_, funext fun j => ?_, rfl⟩ <;>
    by_cases h : j = i <;> simp [AccountDB.setBalance, h]

theorem balance_setBalance (db : AccountDB α) (i j : Slot) (b : α) :
    (db.setBalance i b).balance j = if j = i then b else db.balance j := by
  by_cases h : j = i <;> simp [AccountDB.setBalance, AccountDB.balance, h]

theorem local_setBalance (i : Slot) (b : α) :
    (accountLayout (α := α)).Local i (·.setBalance i b) where
  dir := fun db => dir_setBalance db i b
  other := fun j db hj => by
    change (db.setBalance i b).balance j = db.balance j
    rw [balance_setBalance, if_neg hj]
  own := fun s s' _ => by
    change (s.setBalance i b).balance i = (s'.setBalance i b).balance i
    simp

/-- `account_create`'s write of a balance, in the slot the count points at. -/
theorem publish_setBalance {d : Directory} (i : Slot) (hi : i.val = d.count) (b : α) :
    (accountLayout (α := α)).Publish d d (·.setBalance i b) where
  dir := fun db hd => (dir_setBalance db i b).trans hd
  visible := fun _ h => h
  named := fun j db _ hj => by
    have hne : j ≠ i := by
      rintro rfl
      exact absurd (show j.val < d.count from hj) (by rw [hi]; exact lt_irrefl _)
    change (db.setBalance i b).balance j = db.balance j
    rw [balance_setBalance, if_neg hne]
  cell := fun j s s' _ _ hs => by
    change (s.setBalance i b).balance j = (s'.setBalance i b).balance j
    rw [balance_setBalance, balance_setBalance, show s.balance j = s'.balance j from hs]

/-- A write that leaves every balance alone, and turns the directory `d` into `d'`. -/
theorem publish_of_balance_eq {d d' : Directory} {f : AccountDB α → AccountDB α}
    (hdir : ∀ s, s.dir = d → (f s).dir = d') (hcount : d.count ≤ d'.count)
    (hbal : ∀ s i, (f s).balance i = s.balance i) :
    (accountLayout (α := α)).Publish d d' f where
  dir := hdir
  visible := fun _ hi => lt_of_lt_of_le hi hcount
  named := fun i s _ _ => hbal s i
  cell := fun i s s' _ _ hs => (hbal s i).trans (hs.trans (hbal s' i).symm)

theorem publish_setId (d : Directory) (i : Slot) (id : CharPtr) :
    (accountLayout (α := α)).Publish d
      { d with ids := Function.update d.ids i (storedId id) }
      (·.setId i id) := by
  refine publish_of_balance_eq ?_ le_rfl fun s j => ?_
  · rintro s rfl
    refine Directory.mk.injEq .. |>.mpr ⟨funext fun j => ?_, funext fun j => ?_, rfl⟩ <;>
      by_cases h : j = i <;> simp [AccountDB.setId, AccountDB.dir, Function.update_apply, h]
  · by_cases h : j = i <;> simp [AccountDB.setId, AccountDB.balance, h]

theorem publish_setActive (d : Directory) (i : Slot) :
    (accountLayout (α := α)).Publish d { d with active := Function.update d.active i true }
      (·.setActive i) := by
  refine publish_of_balance_eq ?_ le_rfl fun s j => ?_
  · rintro s rfl
    refine Directory.mk.injEq .. |>.mpr ⟨funext fun j => ?_, funext fun j => ?_, rfl⟩ <;>
      by_cases h : j = i <;> simp [AccountDB.setActive, AccountDB.dir, Function.update_apply, h]
  · by_cases h : j = i <;> simp [AccountDB.setActive, AccountDB.balance, h]

theorem publish_incCount (d : Directory) :
    (accountLayout (α := α)).Publish d { d with count := d.count + 1 } (·.incCount) := by
  refine publish_of_balance_eq ?_ (Nat.le_succ _) fun s j => rfl
  rintro s rfl
  rfl

/-! ## The four operations follow the discipline -/

/-- The first step inside the directory: search, and go on with what was found. -/
theorem crit_find {d : Directory} {id : CharPtr} {k : Option Slot → AccountProg α}
    (hk : ∀ o, (∀ i, o = some i → i.val < d.count) → (accountLayout (α := α)).Crit d (k o)) :
    (accountLayout (α := α)).Crit d (find id k) := by
  refine .read (fun s s' hs hs' => ?_) fun s hs => hk _ fun i hi => ?_
  · rw [accountFind_eq, accountFind_eq, show s.dir = d from hs, show s'.dir = d from hs']
  · have := (accountFind_some hi).1
    rwa [← show s.dir = d from hs]

/-- A read of the balance of the account whose mutex is held. -/
theorem tail_readBalance {i : Slot} {k : α → AccountProg α}
    (hk : ∀ b, (accountLayout (α := α)).Tail i (k b)) :
    (accountLayout (α := α)).Tail i (readBalance i k) :=
  .read (fun _ _ hs => congrArg k hs) fun s => hk (s.balance i)

/-- The end of a transaction: the new balance is stored through the pointer and logged. -/
theorem tail_report (i : Slot) : (accountLayout (α := α)).Tail i
    (readBalance i fun newBalance => readBalance i fun _ =>
      .unlock (.account i) <| .ret (⟨0, some newBalance⟩ : Reply α)) :=
  tail_readBalance fun _ => tail_readBalance fun _ => .done _

theorem tail_setBalance {i : Slot} {b : α} {k : AccountProg α}
    (hk : (accountLayout (α := α)).Tail i k) :
    (accountLayout (α := α)).Tail i (writeBalance i b k) :=
  .write (local_setBalance i b) hk

section Code

variable [Arith α]

theorem entry_accountCreate (id : CharPtr) (b : α) :
    (accountLayout (α := α)).Entry (accountCreate id b) := by
  rw [accountCreate]
  split
  · exact .refuse _
  refine .enter fun d => crit_find fun o _ => ?_
  cases o with
  | some _ => exact .leave d _
  | none =>
    have hcount : ∀ {s : AccountDB α}, s.dir = d → s.accountCount = d.count := fun hs => hs ▸ rfl
    refine .read (fun s s' hs hs' => ?_) fun s hs => ?_
    · simp only [hcount hs, hcount hs']
    · change accountLayout.Crit d (if h : s.accountCount < maxAccounts then _ else _)
      split
      · exact .write (publish_setId d _ id) (.write (publish_setBalance _ (hcount hs) b)
          (.write (publish_setActive _ _) (.write (publish_incCount _) (.leave _ _))))
      · exact .leave d _

theorem entry_accountDeposit (id : CharPtr) (amount : α) :
    (accountLayout (α := α)).Entry (accountDeposit id amount) := by
  rw [accountDeposit]
  split
  · exact .refuse _
  refine .enter fun d => crit_find fun o ho => ?_
  cases o with
  | none => exact .leave d _
  | some i => exact .hand (ho i rfl) (tail_readBalance fun b => tail_setBalance (tail_report i))

theorem entry_accountWithdraw (id : CharPtr) (amount : α) :
    (accountLayout (α := α)).Entry (accountWithdraw id amount) := by
  rw [accountWithdraw]
  split
  · exact .refuse _
  refine .enter fun d => crit_find fun o ho => ?_
  cases o with
  | none => exact .leave d _
  | some i =>
    refine .hand (ho i rfl) (tail_readBalance fun b => ?_)
    split
    · exact .done _
    · exact tail_readBalance fun b => tail_setBalance (tail_report i)

omit [Arith α] in
theorem entry_accountGetBalance (id : CharPtr) :
    (accountLayout (α := α)).Entry (accountGetBalance id) := by
  refine .enter fun d => crit_find fun o ho => ?_
  cases o with
  | none => exact .leave d _
  | some i => exact .hand (ho i rfl) (tail_readBalance fun b => .done _)

/-- **All four operations follow the hand-over-hand discipline.** -/
theorem AccountOp.entry (op : AccountOp α) : (accountLayout (α := α)).Entry op.prog := by
  cases op with
  | create id b => exact entry_accountCreate id b
  | deposit id amount => exact entry_accountDeposit id amount
  | withdraw id amount => exact entry_accountWithdraw id amount
  | getBalance id => exact entry_accountGetBalance id

/-! ## The shared table is serializable -/

variable {W : Type v} [DecidableEq W] {db₀ : AccountDB α}
  {c : Config W (AccountOp α) (AccountDB α) Mutex (Reply α)}

/-- **The four operations are serializable in the order in which they acquire `db_lock`.**  For any
interleaving of any workers: every completed call returned what it returns at its place in that
order, or was rejected before locking and has no effect anywhere; and when no call is in flight the
table is the one the order leaves, each place of the order belonging to exactly one completed
call. -/
theorem account_serializable (h : Reachable AccountOp.prog Mutex.dbLock db₀ c) :
    (∀ op t r, (op, t, r) ∈ c.done → Layout.Answered AccountOp.prog db₀ c.order op r t) ∧
      (c.Quiet → c.mem = final AccountOp.prog db₀ c.order ∧
        c.tickets.Perm (List.range c.order.length)) :=
  ⟨fun _ _ _ hd => accountLayout.answered_of_reachable AccountOp.entry h hd,
    fun hq => ⟨accountLayout.mem_of_reachable AccountOp.entry h hq,
      accountLayout.tickets_perm_of_reachable AccountOp.entry h hq⟩⟩

/-- A withdrawal from an open account and a deposit to it overlap: the deposit enters while the
withdrawal is on the account, and waits there. -/
theorem account_serializable_overlap :
    let db : AccountDB ℚ := accountInit.insert ⟨0, by decide⟩ (fun _ => 0) 5
    ∃ c : Config Bool (AccountOp ℚ) (AccountDB ℚ) Mutex (Reply ℚ),
      c.Quiet ∧ c.order = [.withdraw (fun _ => 0) 2, .deposit (fun _ => 0) 3] ∧
      c.done = [(.deposit (fun _ => 0) 3, some 1, ⟨0, some (5 - 2 + 3)⟩),
        (.withdraw (fun _ => 0) 2, some 0, ⟨0, some (5 - 2)⟩)] ∧
      (∀ op t r, (op, t, r) ∈ c.done → Layout.Answered AccountOp.prog db c.order op r t) ∧
      (c.Quiet → c.mem = final AccountOp.prog db c.order ∧
        c.tickets.Perm (List.range c.order.length)) := by
  intro db
  have run : Reachable AccountOp.prog Mutex.dbLock db (Config.start db : Config Bool _ _ _ _) :=
    .start
  have run := run.step (.invoke (w := true) (.withdraw (fun _ => 0) 2) rfl)
  have run := run.step (.acquire (w := true) rfl rfl)
  have run := run.step (.read (w := true) rfl)
  have run := run.step (.lock (w := true) rfl (account_ne_dbLock _) rfl)
  have run := run.step (.unlock (w := true) rfl)
  have run := run.step (.invoke (w := false) (.deposit (fun _ => 0) 3) rfl)
  have run := run.step (.acquire (w := false) rfl rfl)
  have run := run.step (.read (w := true) rfl)
  have run := run.step (.read (w := false) rfl)
  have run := run.step (.read (w := true) rfl)
  have run := run.step (.write (w := true) rfl)
  have run := run.step (.read (w := true) rfl)
  have run := run.step (.read (w := true) rfl)
  have run := run.step (.unlock (w := true) rfl)
  have run := run.step (.lock (w := false) rfl (account_ne_dbLock _) rfl)
  have run := run.step (.unlock (w := false) rfl)
  have run := run.step (.ret (w := true) rfl)
  have run := run.step (.read (w := false) rfl)
  have run := run.step (.write (w := false) rfl)
  have run := run.step (.read (w := false) rfl)
  have run := run.step (.read (w := false) rfl)
  have run := run.step (.unlock (w := false) rfl)
  have run := run.step (.ret (w := false) rfl)
  exact ⟨_, fun w => by cases w <;> rfl, rfl, rfl, account_serializable run⟩

/-! ## Nobody waits for ever -/

/-- **The workers never block each other for good, and leave every mutex as they found it.**  For
any interleaving of any workers, with `held` the mutexes each has locked and not unlocked since:
while a call is in flight, some call in flight has a next step; no mutex is held by two workers, and
each is unlocked by a worker that holds it; and when no call is in flight, all mutexes are free. -/
theorem account_progress {held : W → Finset Mutex}
    (h : Recorded AccountOp.prog Mutex.dbLock db₀ c held) :
    (¬ c.Quiet → ∃ w, (c.advance .dbLock w).isSome) ∧
      (∀ m v w, m ∈ held v → m ∈ held w → v = w) ∧
      (∀ w k m q, c.call w = some k → k.rest = .unlock m q → m ∈ held w) ∧
      (c.Quiet → ∀ m, c.owner m = none ∧ ∀ w, m ∉ held w) := by
  obtain ⟨pos, S, hI, -⟩ := accountLayout.inv_of_reachable AccountOp.entry h.reachable
  have hown := accountLayout.owns_of_recorded AccountOp.entry h
  refine ⟨fun hbusy => ?_, fun m v w hv hw => hown.unique hv hw, fun w k m q hc hk => ?_,
    fun hq m => ?_⟩
  · rw [Config.Quiet, not_forall] at hbusy
    obtain ⟨w, hw⟩ := hbusy
    obtain ⟨k, hc⟩ := Option.ne_none_iff_exists'.mp hw
    obtain ⟨v, -, hmove⟩ := hI.exists_advance AccountOp.entry hc
    exact ⟨v, hmove⟩
  · exact (hown m w).mp (hI.owner_of_unlock AccountOp.entry hc hk)
  · have hfree := hI.owner_of_quiet hq m
    refine ⟨hfree, fun w hw => ?_⟩
    exact Option.some_ne_none w (((hown m w).mpr hw).symm.trans hfree)

/-- Two workers on an empty table: one is inside, the other waits for `db_lock`. -/
theorem account_progress_two_queries :
    ∃ (c : Config Bool (AccountOp ℚ) (AccountDB ℚ) Mutex (Reply ℚ)) (held : Bool → Finset Mutex),
      c.call false ≠ none ∧ c.advance .dbLock false = none ∧
      (¬ c.Quiet → ∃ w, (c.advance .dbLock w).isSome) ∧
      (∀ m v w, m ∈ held v → m ∈ held w → v = w) ∧
      (∀ w k m q, c.call w = some k → k.rest = .unlock m q → m ∈ held w) ∧
      (c.Quiet → ∀ m, c.owner m = none ∧ ∀ w, m ∉ held w) := by
  have run : Recorded AccountOp.prog Mutex.dbLock (accountInit : AccountDB ℚ)
      (Config.start accountInit : Config Bool _ _ _ _) fun _ => ∅ := .start
  have run := run.invoke (w := true) (.getBalance fun _ => 0) rfl
  have run := run.advance (w := true) rfl rfl
  have run := run.invoke (w := false) (.getBalance fun _ => 0) rfl
  exact ⟨_, _, Option.some_ne_none _, rfl, account_progress run⟩

end Code

end BankingSystem
