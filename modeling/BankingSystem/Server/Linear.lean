import BankingSystem.Machinery.Alone
import BankingSystem.Server.Connection
import BankingSystem.Server.Session
import Mathlib.Algebra.Order.BigOperators.Group.Finset

/-!
# Server/Linear — the workers serve their connections as one worker would serve one

A worker calls the program of one packet after another (`Incoming.prog`, one iteration of its loop).
Whatever the workers do side by side, there is one sequence of all packets for which the loop of a
single worker, alone on a fresh table, sends the same responses and leaves the same table
(`served_as_one`).

What holds of one worker's packets therefore holds of all: an account is used only once a packet
that creates it is there (`used_after_create`), and no more creates succeed than there are slots
(`created_le_maxAccounts`).
-/

namespace BankingSystem

open Bytes CString Interleave Machine

universe v

variable {W : Type v} [DecidableEq W]

/-! ## One worker -/

/-- The program of one packet: what the loop body runs before it packs the response. -/
def Incoming.prog (r : Incoming) : RequestProg := handled r.locals r.otp r.packet

theorem Incoming.entry (r : Incoming) : accountLayout.Entry r.prog := entry_handled ..

/-- The packet a request is answered with. -/
def Incoming.sent (e : Incoming × BankingResponse) : BankingPacket :=
  packed opResponse e.2.bytes e.1.rand

/-- **The iteration of a packet is its program**, and the packing of the response. -/
theorem Incoming.iteration_eq_prog (r : Incoming) :
    iteration r.turn = some (r.prog.map fun response => .ok (sent (r, response))) :=
  iteration_turn r

/-- **The loop of one worker alone** runs these programs one after another, and sends the packed
responses. -/
theorem exec_workerLoop (rs : List Incoming) (db : AccountDB Double) :
    (workerLoop (rs.map Incoming.turn)).exec db =
      (.ok ((answers (serialStep Incoming.prog) db rs).map Incoming.sent),
        after (serialStep Incoming.prog) db rs) := by
  induction rs generalizing db with
  | nil => rfl
  | cons r rs ih =>
    rw [List.map_cons, workerLoop, r.iteration_eq_prog]
    dsimp only
    rw [Prog.exec_bind, Prog.exec_map]
    dsimp only
    rw [Prog.exec_map, ih]
    rfl

/-! ## Many workers -/

/-- **The packets of a run in one line, as packets of one connection**: the loop of one worker sends
the responses of the line, a worker finds there what it has answered and at most one packet more,
which it is serving, and with no packet being served the table is the one of that worker. -/
structure OneConnection (x : Watch W Incoming (AccountDB Double) Mutex BankingResponse)
    (log : List (W × Incoming × BankingResponse)) : Prop where
  sent : ((workerLoop (log.map fun e => e.2.1.turn)).exec accountInit).1 =
    .ok (log.map fun e => Incoming.sent e.2)
  own : ∀ w, ∃ pending, (log.filter fun e => e.1 = w).map Prod.snd = x.seen w ++ pending ∧
    pending.length ≤ 1 ∧ ∀ e ∈ pending, ∃ k, x.config.call w = some k ∧ k.op = e.1
  table : x.config.Quiet →
    ((workerLoop (log.map fun e => e.2.1.turn)).exec accountInit).2 = x.config.mem

/-- The connection behind a line. -/
theorem OneConnection.of_line {x : Watch W Incoming (AccountDB Double) Mutex BankingResponse}
    {log : List (W × Incoming × BankingResponse)}
    (hx : Watch.Run Incoming.prog .dbLock (.start accountInit) x)
    (h : Line Incoming.prog accountInit x log) : OneConnection x log := by
  have hloop := exec_workerLoop (log.map fun e => e.2.1) accountInit
  rw [List.map_map, h.serial, List.map_map] at hloop
  exact
    { sent := congrArg Prod.fst hloop
      own := h.own_pending
      table := fun hq => (congrArg Prod.snd hloop).trans
        (h.of_quiet (L := accountLayout) Incoming.entry (Watch.Run.reachable .start hx) hq).2 }

/-- **Any number of workers serve their connections as one worker would serve one.**  At any point
`x` of a run there is one line of the packets, and at every later point `y` it is that line with
further packets behind it. -/
theorem served_as_one {x : Watch W Incoming (AccountDB Double) Mutex BankingResponse}
    (hx : Watch.Run Incoming.prog .dbLock (.start accountInit) x) :
    ∃ log, OneConnection x log ∧ ∀ y, Watch.Run Incoming.prog .dbLock x y →
      ∃ more, OneConnection y (log ++ more) := by
  obtain ⟨log, hlog, hlater⟩ := exists_line (L := accountLayout) Incoming.entry hx
  refine ⟨log, .of_line hx hlog, fun y hy => ?_⟩
  obtain ⟨more, hmore⟩ := hlater y hy
  exact ⟨more, .of_line (hx.trans hy) hmore⟩

/-- One worker has opened account `A` with 100, and then another one has answered a query of it. -/
theorem served_as_one_two_packets :
    let createA := Incoming.ofClient opCreateAccount
      (amountRequest (onto [65] fun _ => 0) ⟨0x4059000000000000, by decide⟩) 1 7 (by decide)
    let queryA := Incoming.ofClient opBalance
      (CharArray.ofPtr (onto [65] fun _ => 0) (accountIdLen - 1)).bytes 2 8 (by decide)
    ∃ x y : Watch Bool Incoming (AccountDB Double) Mutex BankingResponse,
      x.seen = seenAfter Incoming.prog accountInit (fun _ => []) [(true, createA)] ∧
      y.seen = seenAfter Incoming.prog x.config.mem x.seen [(false, queryA)] ∧
      ∃ log more, OneConnection x log ∧ OneConnection y (log ++ more) := by
  intro createA queryA
  obtain ⟨x, hx, hq, hfree, -, hseen⟩ := exists_run (L := accountLayout) (x := .start accountInit)
    (g := Mutex.dbLock) Incoming.entry [(true, createA)] (fun _ => rfl) fun _ => rfl
  obtain ⟨y, hy, -, -, -, hseen'⟩ := exists_run (L := accountLayout) (g := Mutex.dbLock)
    Incoming.entry [(false, queryA)] hq hfree
  obtain ⟨log, hlog, hlater⟩ := served_as_one hx
  obtain ⟨more, hmore⟩ := hlater y hy
  exact ⟨x, y, hseen, hseen', log, more, hlog, hmore⟩

/-! ## Creates -/

/-- A packet that opened an account. -/
def OpensAccount (e : Incoming × BankingResponse) : Prop :=
  ntoh e.1.packet.opCode = opCreateAccount ∧ e.2.status = statusSuccess

instance : DecidablePred OpensAccount := fun _ => inferInstanceAs (Decidable (_ ∧ _))

/-- The accounts a packet opened: one or none. -/
def createdCount (e : Incoming × BankingResponse) : ℕ := if OpensAccount e then 1 else 0

section Packet

variable (r : Incoming) (db : AccountDB Double)

/-- A success is one of a packet whose checksum is right. -/
theorem Incoming.checksumOk_of_success (h : (r.prog.exec db).1.status = statusSuccess) :
    r.packet.ChecksumOk := by
  by_contra hbad
  rw [prog, handled, if_neg hbad] at h
  exact BankingResponse.status_error _ h

/-- **What a packet does to the table**: it opens an account in the next slot, or sets a balance, or
nothing. -/
theorem Incoming.step_cases :
    (OpensAccount (r, (r.prog.exec db).1) ∧ ∃ (h : db.accountCount < maxAccounts) (id : CharPtr)
      (b : Double), (r.prog.exec db).2 = db.insert ⟨db.accountCount, h⟩ id b) ∨
    (¬ OpensAccount (r, (r.prog.exec db).1) ∧ ((r.prog.exec db).2 = db ∨
      ∃ i b, (r.prog.exec db).2 = db.setBalance i b)) := by
  have hatomic : Atomic r.packet (onto r.packet.payload r.locals.req) (r.prog.exec db).1 db
      (r.prog.exec db).2 := atomic_handled r.locals r.otp r.packet db
  by_cases hst : (r.prog.exec db).1.status = statusSuccess
  · have hok := r.checksumOk_of_success db hst
    by_cases hcreate : ntoh r.packet.opCode = opCreateAccount
    · obtain ⟨hc, hdb⟩ := hatomic.created hok hcreate hst
      exact Or.inl ⟨⟨hcreate, hst⟩, hc, _, _, hdb⟩
    refine Or.inr ⟨fun h => hcreate h.1, ?_⟩
    by_cases hdeposit : ntoh r.packet.opCode = opDeposit
    · obtain ⟨i, -, hdb⟩ := hatomic.deposited hok hdeposit hst
      exact Or.inr ⟨i, _, hdb⟩
    by_cases hwithdraw : ntoh r.packet.opCode = opWithdraw
    · obtain ⟨i, -, hdb⟩ := hatomic.withdrawn hok hwithdraw hst
      exact Or.inr ⟨i, _, hdb⟩
    exact Or.inl (hatomic.unchanged fun ⟨_, hop, _⟩ =>
      hop.elim hcreate fun hop => hop.elim hdeposit hwithdraw)
  · exact Or.inr ⟨fun h => hst h.2, Or.inl (hatomic.unchanged fun h => hst h.2.2)⟩

/-- **A packet adds an account just when it opened one.** -/
theorem accountCount_step : (r.prog.exec db).2.accountCount =
    db.accountCount + createdCount (r, (r.prog.exec db).1) := by
  rw [createdCount]
  obtain ⟨hcreated, _, id, b, hdb⟩ | ⟨hcreated, hdb | ⟨i, b, hdb⟩⟩ := r.step_cases db
  · rw [if_pos hcreated, hdb]
    rfl
  · rw [if_neg hcreated, hdb]
    rfl
  · rw [if_neg hcreated, hdb]
    rfl

/-- There are never more accounts than slots. -/
theorem accountCount_le_step (h : db.accountCount ≤ maxAccounts) :
    (r.prog.exec db).2.accountCount ≤ maxAccounts := by
  obtain ⟨-, hlt, id, b, hdb⟩ | ⟨-, hdb | ⟨i, b, hdb⟩⟩ := r.step_cases db
  · rw [hdb]
    exact hlt
  · rwa [hdb]
  · rwa [hdb]

end Packet

section Creates

variable [Fintype W] {x : Watch W Incoming (AccountDB Double) Mutex BankingResponse}

/-- **No more creates succeed than there are slots**, over all workers together and at any point of
a run; with no packet being served the table counts them all. -/
theorem created_le_maxAccounts
    (hx : Watch.Run Incoming.prog .dbLock (.start accountInit) x) :
    ∑ w, (x.seen w).countP (fun e => OpensAccount e) ≤ maxAccounts ∧
      (x.config.Quiet → x.config.mem.accountCount =
        ∑ w, (x.seen w).countP fun e => OpensAccount e) := by
  have hcount : ∀ w, (x.seen w).countP (fun e => OpensAccount e) =
      ((x.seen w).map createdCount).sum := fun w =>
    ((sum_map_indicator _ 1 _).trans (Nat.mul_one _)).symm
  simp only [hcount]
  refine ⟨?_, fun hq => ?_⟩
  · obtain ⟨log, hline, -⟩ := exists_line (L := accountLayout) Incoming.entry hx
    have hle : (final Incoming.prog accountInit x.config.order).accountCount ≤ maxAccounts := by
      exact final_invariant (P := fun db : AccountDB Double => db.accountCount ≤ maxAccounts)
        (fun db r h => accountCount_le_step r db h) (Nat.zero_le maxAccounts) _
    rw [hline.measure fun db r => accountCount_step r db] at hle
    refine le_trans (le_add_left (Finset.sum_le_sum fun w _ => ?_)) hle
    rw [hline.own, List.map_append, List.sum_append]
    exact Nat.le_add_right _ _
  · rw [measure_of_run (L := accountLayout) Incoming.entry (fun db r => accountCount_step r db)
      hx hq]
    exact Nat.zero_add _

/-- Account `A` is opened by one worker, and its second opening fails at the other. -/
theorem created_le_maxAccounts_two_packets :
    let createA := Incoming.ofClient opCreateAccount
      (amountRequest (onto [65] fun _ => 0) ⟨0x4059000000000000, by decide⟩) 1 7 (by decide)
    ∃ x : Watch Bool Incoming (AccountDB Double) Mutex BankingResponse,
      x.seen = seenAfter Incoming.prog accountInit (fun _ => [])
        [(true, createA), (false, createA)] ∧
      ∑ w, (x.seen w).countP (fun e => OpensAccount e) ≤ maxAccounts ∧
      (x.config.Quiet → x.config.mem.accountCount =
        ∑ w, (x.seen w).countP fun e => OpensAccount e) := by
  intro createA
  obtain ⟨x, hx, -, -, -, hseen⟩ := exists_run (L := accountLayout) (x := .start accountInit)
    (g := Mutex.dbLock) Incoming.entry [(true, createA), (false, createA)] (fun _ => rfl)
    fun _ => rfl
  exact ⟨x, hseen, created_le_maxAccounts hx⟩

end Creates

/-! ## Uses -/

section Uses

theorem Received.entry (r : Received) : accountLayout.Entry r.prog := entry_handled ..

/-- A completed call, as an exchange. -/
def Exchange.ofCall (e : Received × BankingResponse) : Exchange := ⟨e.1, e.2⟩

theorem answers_received (db : AccountDB Double) (rs : List Received) :
    answers Received.step db rs =
      (answers (serialStep Received.prog) db rs).map Exchange.ofCall := by
  induction rs generalizing db with
  | nil => rfl
  | cons r rs ih => exact congrArg _ (ih _)

variable {x : Watch W Received (AccountDB Double) Mutex BankingResponse} {w : W}
  {e : Received × BankingResponse}

/-- **An account is used only once a packet that creates it is there.**  A deposit, a withdrawal or
a query that succeeded at one worker comes after a create of the account: one that succeeded, at
whichever worker, or one that is still being served. -/
theorem used_after_create (hx : Watch.Run Received.prog .dbLock (.start accountInit) x)
    (he : e ∈ x.seen w) (huse : (Exchange.ofCall e).UsesAccount) :
    (∃ v, ∃ o ∈ x.seen v, (Exchange.ofCall o).Succeeds opCreateAccount ∧
      o.1.account = e.1.account) ∨
    ∃ v k, x.config.call v = some k ∧ k.op.opcode = opCreateAccount ∧
      k.op.account = e.1.account := by
  obtain ⟨log, hline, -⟩ := exists_line (L := accountLayout) Received.entry hx
  have hguard := guardedByCreate_answers (log.map fun e => e.2.1)
  rw [answers_received, hline.serial] at hguard
  -- the use is in the line, and so is its create
  have hmem : e ∈ log.map Prod.snd := by
    obtain ⟨pending, hown, -, -⟩ := hline.own_pending w
    have hfilter : e ∈ (log.filter fun e => e.1 = w).map Prod.snd :=
      hown ▸ List.mem_append_left _ he
    exact List.map_subset _ (List.filter_subset_self _) hfilter
  obtain ⟨before, later, hsplit⟩ := List.append_of_mem (List.mem_map_of_mem (f := Exchange.ofCall)
    hmem)
  obtain ⟨o, ho, hcreate, haccount⟩ := hguard before _ later hsplit huse
  have ho' : o ∈ (log.map Prod.snd).map Exchange.ofCall := hsplit ▸ List.mem_append_left _ ho
  obtain ⟨c, hc, rfl⟩ := List.mem_map.mp ho'
  obtain ⟨⟨v, c'⟩, hvc, rfl⟩ := List.mem_map.mp hc
  -- the worker that served the create has answered it, or still serves it
  obtain ⟨pending, hown, -, hpending⟩ := hline.own_pending v
  have hv : c' ∈ x.seen v ++ pending := hown ▸ List.mem_map_of_mem
    (List.mem_filter.mpr ⟨hvc, decide_eq_true rfl⟩)
  obtain hv | hv := List.mem_append.mp hv
  · exact Or.inl ⟨v, c', hv, hcreate, haccount⟩
  · obtain ⟨k, hk, hop⟩ := hpending c' hv
    exact Or.inr ⟨v, k, hk, hop ▸ hcreate.1, hop ▸ haccount⟩

/-- Account `A` is opened at one worker and then queried at the other. -/
theorem used_after_create_two_packets :
    let createA := Received.ofClient 0 opCreateAccount
      (amountRequest (onto [65] fun _ => 0) ⟨0x4059000000000000, by decide⟩) (by decide) (by decide)
    let queryA := Received.ofClient 1 opBalance
      (CharArray.ofPtr (onto [65] fun _ => 0) (accountIdLen - 1)).bytes (by decide) (by decide)
    ∃ x : Watch Bool Received (AccountDB Double) Mutex BankingResponse,
      x.seen = seenAfter Received.prog accountInit (fun _ => [])
        [(true, createA), (false, queryA)] ∧
      ∃ e ∈ x.seen false, (Exchange.ofCall e).UsesAccount ∧
      ((∃ v, ∃ o ∈ x.seen v, (Exchange.ofCall o).Succeeds opCreateAccount ∧
        o.1.account = e.1.account) ∨
      ∃ v k, x.config.call v = some k ∧ k.op.opcode = opCreateAccount ∧
        k.op.account = e.1.account) := by
  intro createA queryA
  obtain ⟨x, hx, -, -, -, hseen⟩ := exists_run (L := accountLayout) (x := .start accountInit)
    (g := Mutex.dbLock) Received.entry [(true, createA), (false, queryA)] (fun _ => rfl)
    fun _ => rfl
  have he : (queryA, (queryA.prog.exec (createA.prog.exec accountInit).2).1) ∈ x.seen false := by
    rw [hseen]
    exact List.mem_singleton_self _
  have huse : (Exchange.ofCall (queryA,
      (queryA.prog.exec (createA.prog.exec accountInit).2).1)).UsesAccount :=
    Or.inr (Or.inr ⟨by decide, by decide +kernel⟩)
  exact ⟨x, hseen, _, he, huse, used_after_create hx he huse⟩

end Uses

end BankingSystem
