import BankingSystem.Account.Lookup
import BankingSystem.Machinery.Alone
import Mathlib.Algebra.Order.BigOperators.Group.Finset

/-!
# Account/Conservation — the workers share a ledger, and the money in it is what was paid in

Whatever any number of workers call side by side, the table behaves as the ledger of
`Account/Ledger` does to one caller (`shared_ledger`): there is one sequence of all calls, in which
each worker finds its own calls in its own order, and which only grows as the run goes on.

The money is accounted for (`money_conserved`): what the accounts of any set of names hold is what
the calls that succeeded paid in under these names, less what they paid out; and no account is
overdrawn.  Amounts are exact numbers here.
-/

namespace BankingSystem

open CString Interleave Machine

universe u v

variable {α : Type u} {W : Type v} [DecidableEq W]

/-! ## A ledger to all workers -/

section Shared

variable [Arith α]

/-- The answer of the ledger to a call, beside the call. -/
def Ledger.serve (m : Ledger α) (op : AccountOp α) : (AccountOp α × Reply α) × Ledger α :=
  ((op, (m.step op).1), (m.step op).2)

theorem simulation_serve : Simulation (serialStep AccountOp.prog) Ledger.serve
    (fun op : AccountOp α => Terminated op.id accountIdLen) Refines where
  answer hid hR := congrArg (Prod.mk _) (simulation_ledger.answer hid hR)
  next hid hR := simulation_ledger.next hid hR

/-- **The calls of a run in one line, as calls of the ledger**: it gives every answer of the line, a
worker finds there what it has seen and at most one call more, which it has in flight, and with no
call in flight the table holds the ledger. -/
structure LedgerLine (x : Watch W (AccountOp α) (AccountDB α) Mutex (Reply α))
    (log : List (W × AccountOp α × Reply α)) : Prop where
  answered : answers Ledger.serve Ledger.empty (log.map fun e => e.2.1) = log.map Prod.snd
  own : ∀ w, ∃ pending, (log.filter fun e => e.1 = w).map Prod.snd = x.seen w ++ pending ∧
    pending.length ≤ 1 ∧ ∀ e ∈ pending, ∃ k, x.config.call w = some k ∧ k.op = e.1
  table : x.config.Quiet →
    Refines x.config.mem (after Ledger.serve Ledger.empty (log.map fun e => e.2.1))

/-- The ledger behind a line. -/
theorem LedgerLine.of_line {x : Watch W (AccountOp α) (AccountDB α) Mutex (Reply α)}
    {log : List (W × AccountOp α × Reply α)} (hx : Watch.Run AccountOp.prog .dbLock
      (.start accountInit) x) (h : Line AccountOp.prog accountInit x log)
    (hid : ∀ op ∈ log.map fun e => e.2.1, Terminated op.id accountIdLen) : LedgerLine x log where
  answered := (simulation_serve.answers_eq refines_init hid).symm.trans h.serial
  own := h.own_pending
  table hq := by
    have hmem := (h.of_quiet (L := accountLayout) AccountOp.entry
      (Watch.Run.reachable .start hx) hq).2
    rw [← hmem]
    exact simulation_serve.after refines_init hid

/-- **To any number of workers the shared table is one ledger.**  At any point `x` of a run in which
they make calls side by side, with ids that end in their 20 bytes, there is one line of the calls;
and at every later point `y` it is that line with further calls behind it. -/
theorem shared_ledger {x : Watch W (AccountOp α) (AccountDB α) Mutex (Reply α)}
    (hx : Watch.Run AccountOp.prog .dbLock (.start accountInit) x)
    (hid : x.Calls fun op => Terminated op.id accountIdLen) :
    ∃ log, LedgerLine x log ∧ ∀ y, Watch.Run AccountOp.prog .dbLock x y →
      (y.Calls fun op => Terminated op.id accountIdLen) → ∃ more, LedgerLine y (log ++ more) := by
  obtain ⟨log, hlog, hlater⟩ := exists_line (L := accountLayout) AccountOp.entry hx
  refine ⟨log, .of_line hx hlog (hlog.calls hid), fun y hy hidy => ?_⟩
  obtain ⟨more, hmore⟩ := hlater y hy
  exact ⟨more, .of_line (hx.trans hy) hmore (hmore.calls hidy)⟩

/-- One worker has opened account `A`, and then another one has queried it. -/
theorem shared_ledger_two_calls :
    let idA : CharPtr := onto [65] fun _ => 0
    ∃ x y : Watch Bool (AccountOp ℚ) (AccountDB ℚ) Mutex (Reply ℚ),
      x.seen = seenAfter AccountOp.prog accountInit (fun _ => []) [(true, .create idA 5)] ∧
      y.seen = seenAfter AccountOp.prog x.config.mem x.seen [(false, .getBalance idA)] ∧
      ∃ log more, LedgerLine x log ∧ LedgerLine y (log ++ more) := by
  intro idA
  have hid : Terminated idA accountIdLen := ⟨1, by decide, rfl⟩
  obtain ⟨x, hx, hq, hfree, -, hseen⟩ := exists_run (L := accountLayout) (x := .start accountInit)
    (g := Mutex.dbLock) AccountOp.entry [(true, .create idA (5 : ℚ))] (fun _ => rfl) fun _ => rfl
  obtain ⟨y, hy, hq', -, -, hseen'⟩ := exists_run (L := accountLayout) (g := Mutex.dbLock)
    AccountOp.entry [(false, .getBalance idA)] hq hfree
  have hcalls {z : Watch Bool (AccountOp ℚ) (AccountDB ℚ) Mutex (Reply ℚ)} {s : AccountDB ℚ}
      {seen : Bool → List (AccountOp ℚ × Reply ℚ)} {w : Bool} {op : AccountOp ℚ}
      (hz : z.seen = seenAfter AccountOp.prog s seen [(w, op)]) (hquiet : z.config.Quiet)
      (hseen : ∀ v, ∀ e ∈ seen v, Terminated e.1.id accountIdLen)
      (hop : Terminated op.id accountIdLen) :
      z.Calls fun op => Terminated op.id accountIdLen := by
    refine ⟨fun v => ?_, fun v k hk => ?_⟩
    · rw [hz]
      exact forall_seenAfter (P := fun op : AccountOp ℚ => Terminated op.id accountIdLen) hseen
        (fun c hc => by rw [List.mem_singleton.mp hc]; exact hop) v
    · rw [hquiet v] at hk
      cases hk
  have hcallsx := hcalls hseen hq (fun _ _ he => absurd he List.not_mem_nil) hid
  obtain ⟨log, hlog, hlater⟩ := shared_ledger hx hcallsx
  obtain ⟨more, hmore⟩ := hlater y hy (hcalls hseen' hq' hcallsx.seen hid)
  exact ⟨x, y, hseen, hseen', log, more, hlog, hmore⟩

end Shared

/-! ## The money -/

section Money

/-- What an account adds to what is held under the names: its balance, if its stored id is one of
them. -/
def AccountDB.share (names : List UInt8 → Bool) (db : AccountDB ℚ) (i : Slot) : ℚ :=
  if i.val < db.accountCount ∧ names (db.idText i) then db.balance i else 0

/-- What is held under the names. -/
def AccountDB.held (names : List UInt8 → Bool) (db : AccountDB ℚ) : ℚ :=
  ∑ i : Slot, db.share names i

/-- What a call that succeeded paid in under the names.  A created account has the id cut at 19
characters for its name. -/
def AccountOp.paidIn (names : List UInt8 → Bool) (e : AccountOp ℚ × Reply ℚ) : ℚ :=
  if e.2.code ≠ 0 then 0 else
  match e.1 with
  | .create id b => if names (chars id 19) then b else 0
  | .deposit id amount => if names (chars id accountIdLen) then amount else 0
  | .withdraw _ _ | .getBalance _ => 0

/-- What a call that succeeded paid out. -/
def AccountOp.paidOut (names : List UInt8 → Bool) (e : AccountOp ℚ × Reply ℚ) : ℚ :=
  if e.2.code ≠ 0 then 0 else
  match e.1 with
  | .withdraw id amount => if names (chars id accountIdLen) then amount else 0
  | .create _ _ | .deposit _ _ | .getBalance _ => 0

variable {names : List UInt8 → Bool} {db : AccountDB ℚ}

/-- Where one account changes, so does what is held. -/
theorem held_of_share_eq {db' : AccountDB ℚ} (i : Slot)
    (h : ∀ j, j ≠ i → db'.share names j = db.share names j) :
    db'.held names = db.held names + (db'.share names i - db.share names i) := by
  rw [AccountDB.held, AccountDB.held, ← Finset.sum_erase_add _ _ (Finset.mem_univ i),
    ← Finset.sum_erase_add (Finset.univ : Finset Slot) _ (Finset.mem_univ i),
    Finset.sum_congr rfl fun j hj => h j (Finset.ne_of_mem_erase hj), add_assoc, add_sub_cancel]

/-- A new balance in a slot that is in use. -/
theorem held_setBalance {i : Slot} (hi : i.val < db.accountCount) (b : ℚ) :
    (db.setBalance i b).held names =
      db.held names + if names (db.idText i) then b - db.balance i else 0 := by
  have hshare : ∀ j b', b' = (if j = i then b else db.balance j) →
      (db.setBalance i b).share names j =
        if j.val < db.accountCount ∧ names (db.idText j) then b' else 0 := fun j b' hb' => by
    rw [AccountDB.share, db.idText_setBalance, balance_setBalance, ← hb']
    rfl
  have hrest : ∀ j, j ≠ i → (db.setBalance i b).share names j = db.share names j := fun j hj =>
    hshare j _ (if_neg hj).symm
  rw [held_of_share_eq i hrest, hshare i b (if_pos rfl).symm, AccountDB.share]
  simp only [hi, true_and]
  split
  · rfl
  · rw [sub_zero]

/-- A new account in the next slot. -/
theorem held_insert (hc : db.accountCount < maxAccounts) (id : CharPtr) (b : ℚ) :
    (db.insert ⟨db.accountCount, hc⟩ id b).held names =
      db.held names + if names (chars id 19) then b else 0 := by
  have hlt : db.accountCount < (db.insert ⟨db.accountCount, hc⟩ id b).accountCount :=
    Nat.lt_succ_self _
  have hnew : (db.insert ⟨db.accountCount, hc⟩ id b).share names ⟨db.accountCount, hc⟩ =
      if names (chars id 19) then b else 0 := by
    rw [AccountDB.share, AccountDB.idText_insert, AccountDB.balance_insert, if_pos rfl, if_pos rfl]
    simp only [hlt, true_and]
  have hold : db.share names ⟨db.accountCount, hc⟩ = 0 := if_neg fun h => absurd h.1 (lt_irrefl _)
  have hrest : ∀ j, j ≠ ⟨db.accountCount, hc⟩ →
      (db.insert ⟨db.accountCount, hc⟩ id b).share names j = db.share names j := fun j hj => by
    have hcount : j.val < db.accountCount + 1 ↔ j.val < db.accountCount :=
      ⟨fun h => AccountDB.lt_of_ne_new h hj, Nat.lt_succ_of_lt⟩
    rw [AccountDB.share, AccountDB.idText_insert, AccountDB.balance_insert, if_neg hj, if_neg hj]
    exact if_congr (and_congr_left' hcount) rfl rfl
  rw [held_of_share_eq _ hrest, hnew, hold, sub_zero]

/-- What a call moves under the names. -/
def AccountOp.moved (names : List UInt8 → Bool) (e : AccountOp ℚ × Reply ℚ) : ℚ :=
  paidIn names e - paidOut names e

theorem moved_of_failed (op : AccountOp ℚ) {r : Reply ℚ} (h : r.code ≠ 0) :
    AccountOp.moved names (op, r) = 0 := by
  simp [AccountOp.moved, AccountOp.paidIn, AccountOp.paidOut, h]

/-- **One call moves what it pays in and out.** -/
theorem held_step (names : List UInt8 → Bool) (db : AccountDB ℚ) (op : AccountOp ℚ) :
    (op.prog.exec db).2.held names =
      db.held names + AccountOp.moved names (op, (op.prog.exec db).1) := by
  cases op with
  | create id b =>
    obtain ⟨h0, hc, hleaves⟩ | ⟨h0, hleaves⟩ := accountCreate_leaves id b db
    · simp only [AccountOp.prog, hleaves, held_insert]
      simp [AccountOp.moved, AccountOp.paidIn, AccountOp.paidOut, h0]
    · simp only [AccountOp.prog, hleaves, moved_of_failed _ h0, add_zero]
  | deposit id amount =>
    obtain ⟨h0, i, hi, hleaves⟩ | ⟨h0, hleaves⟩ := accountDeposit_leaves id amount db
    · obtain ⟨hlt, htext⟩ := AccountDB.idText_of_find hi
      simp only [AccountOp.prog, hleaves, held_setBalance hlt, htext, Arith.add]
      simp [AccountOp.moved, AccountOp.paidIn, AccountOp.paidOut, h0]
    · simp only [AccountOp.prog, hleaves, moved_of_failed _ h0, add_zero]
  | withdraw id amount =>
    obtain ⟨h0, i, hi, hleaves⟩ | ⟨h0, hleaves⟩ := accountWithdraw_leaves id amount db
    · obtain ⟨hlt, htext⟩ := AccountDB.idText_of_find hi
      simp only [AccountOp.prog, hleaves, held_setBalance hlt, htext, Arith.sub]
      simp only [AccountOp.moved, AccountOp.paidIn, AccountOp.paidOut, h0]
      split <;> simp
    · simp only [AccountOp.prog, hleaves, moved_of_failed _ h0, add_zero]
  | getBalance id =>
    simp only [AccountOp.prog, accountGetBalance_leaves]
    simp [AccountOp.moved, AccountOp.paidIn, AccountOp.paidOut]

/-! ### No account is overdrawn -/

/-- Every balance is at least 0. -/
def AccountDB.Solvent (db : AccountDB ℚ) : Prop := ∀ i, 0 ≤ db.balance i

theorem solvent_setBalance (h : db.Solvent) (i : Slot) {b : ℚ} (hb : 0 ≤ b) :
    (db.setBalance i b).Solvent := fun j => by
  rw [balance_setBalance]
  split
  · exact hb
  · exact h j

/-- **One call keeps every account solvent.** -/
theorem solvent_step (db : AccountDB ℚ) (op : AccountOp ℚ) (h : db.Solvent) :
    (op.prog.exec db).2.Solvent := by
  cases op with
  | create id b =>
    rw [AccountOp.prog, exec_accountCreate]
    split
    · exact h
    rename_i hb
    split
    · exact h
    split
    · intro j
      rw [AccountDB.balance_insert]
      split
      · exact not_lt.mp fun hlt => hb (decide_eq_true hlt)
      · exact h j
    · exact h
  | deposit id amount =>
    rw [AccountOp.prog, exec_accountDeposit]
    split
    · exact h
    rename_i hpos
    have hpos : 0 < amount := not_le.mp fun hle => hpos (decide_eq_true hle)
    split
    · exact h
    · rename_i i _
      exact solvent_setBalance h i (add_nonneg (h i) hpos.le)
  | withdraw id amount =>
    rw [AccountOp.prog, exec_accountWithdraw]
    split
    · exact h
    split
    · exact h
    split
    · exact h
    · rename_i i _ hcovered
      have hle : amount ≤ db.balance i := not_lt.mp fun hlt => hcovered (decide_eq_true hlt)
      exact solvent_setBalance h i (sub_nonneg.mpr hle)
  | getBalance id =>
    rw [AccountOp.prog, accountGetBalance_leaves]
    exact h

/-! ### Every run -/

variable [Fintype W]

/-- **The money is accounted for.**  Whatever the workers called side by side, with no call in
flight the accounts of any set of names hold what was paid in under these names less what was paid
out; no account is overdrawn, and no more was paid out than paid in. -/
theorem money_conserved {x : Watch W (AccountOp ℚ) (AccountDB ℚ) Mutex (Reply ℚ)}
    (hx : Watch.Run AccountOp.prog .dbLock (.start accountInit) x) (hq : x.config.Quiet)
    (names : List UInt8 → Bool) :
    x.config.mem.held names + ∑ w, ((x.seen w).map (AccountOp.paidOut names)).sum =
        ∑ w, ((x.seen w).map (AccountOp.paidIn names)).sum ∧
      x.config.mem.Solvent ∧
      ∑ w, ((x.seen w).map (AccountOp.paidOut names)).sum ≤
        ∑ w, ((x.seen w).map (AccountOp.paidIn names)).sum := by
  have hheld : x.config.mem.held names = ∑ w, ((x.seen w).map (AccountOp.moved names)).sum := by
    have hstart : (accountInit : AccountDB ℚ).held names = 0 :=
      Finset.sum_eq_zero fun i _ => if_neg fun h => absurd h.1 (Nat.not_lt_zero _)
    have hrun := measure_of_run (L := accountLayout) AccountOp.entry
      (held_step names) hx hq
    rwa [hstart, zero_add] at hrun
  have hsolvent : x.config.mem.Solvent :=
    invariant_of_run (L := accountLayout) AccountOp.entry solvent_step (fun _ => le_rfl) hx hq
  have heq : x.config.mem.held names + ∑ w, ((x.seen w).map (AccountOp.paidOut names)).sum =
      ∑ w, ((x.seen w).map (AccountOp.paidIn names)).sum := by
    rw [hheld, ← Finset.sum_add_distrib]
    refine Finset.sum_congr rfl fun w _ => ?_
    rw [← List.sum_map_add]
    exact congrArg List.sum (List.map_congr_left fun e _ => sub_add_cancel _ _)
  refine ⟨heq, hsolvent, ?_⟩
  rw [← heq]
  exact le_add_of_nonneg_left (Finset.sum_nonneg fun i _ => by
    rw [AccountDB.share]
    split
    · exact hsolvent i
    · exact le_rfl)

/-- Account `A` is opened with 5 by one worker, the other pays in 3, and the first takes out 7. -/
theorem money_conserved_three_calls :
    let idA : CharPtr := onto [65] fun _ => 0
    let calls : List (Bool × AccountOp ℚ) :=
      [(true, .create idA 5), (false, .deposit idA 3), (true, .withdraw idA 7)]
    ∃ x : Watch Bool (AccountOp ℚ) (AccountDB ℚ) Mutex (Reply ℚ),
      x.config.Quiet ∧ x.seen = seenAfter AccountOp.prog accountInit (fun _ => []) calls ∧
      x.config.mem.held (fun _ => true) +
          ∑ w, ((x.seen w).map (AccountOp.paidOut fun _ => true)).sum =
        ∑ w, ((x.seen w).map (AccountOp.paidIn fun _ => true)).sum ∧
      x.config.mem.Solvent ∧
      ∑ w, ((x.seen w).map (AccountOp.paidOut fun _ => true)).sum ≤
        ∑ w, ((x.seen w).map (AccountOp.paidIn fun _ => true)).sum := by
  intro idA calls
  obtain ⟨x, hx, hq, -, -, hseen⟩ := exists_run (L := accountLayout) (x := .start accountInit)
    (g := Mutex.dbLock) AccountOp.entry calls (fun _ => rfl) fun _ => rfl
  exact ⟨x, hq, hseen, money_conserved hx hq _⟩

end Money

end BankingSystem
