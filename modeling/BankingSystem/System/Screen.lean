import BankingSystem.Account.Conservation
import BankingSystem.Client.Menu
import BankingSystem.Server.Linear

/-!
# System/Screen — what all clients see is one ledger

A choice of the menu goes all the way: the client packs a request, a worker serves it on the shared
table among the other workers, and the client unpacks the response and prints it (`Visit`).
Whatever any number of clients choose, and whatever memory, locks and schedules they meet, there is
one sequence of all choices in which every screen shows what the ledger of `Account/Ledger` answers
(`screens_of_one_ledger`).
-/

namespace BankingSystem

open Bytes CString Interleave Machine

universe v

/-! ## The menu, on the ledger -/

namespace Choice

/-- **The choice, on a ledger.** -/
def onLedger (c : Choice) (e : Entered) (m : Ledger Double) : Reply Double × Ledger Double :=
  match c with
  | createAccount => m.create e.accountId.text e.amount
  | deposit => m.deposit e.accountId.text e.amount
  | withdraw => m.withdraw e.accountId.text e.amount
  | checkBalance => m.getBalance e.accountId.text

/-- The message for a reply. -/
def message (c : Choice) (e : Entered) (r : Reply Double) : List UInt8 :=
  let named := fun before later => ascii before ++ e.accountId.text ++ ascii later
  match c with
  | createAccount =>
    if r.code = 0 then named "Account " " created successfully"
    else ascii "Failed to create account"
  | deposit =>
    if r.code = 0 then ascii "Deposited " ++ e.amount.format ++ named " to account " ""
    else if r.code = -2 then named "Account " " not found"
    else ascii "Deposit failed"
  | withdraw =>
    if r.code = 0 then ascii "Withdrew " ++ e.amount.format ++ named " from account " ""
    else if r.code = -2 then named "Account " " not found"
    else if r.code = -3 then ascii "Insufficient funds"
    else ascii "Withdrawal failed"
  | checkBalance =>
    if r.code = 0 then named "Account " " balance: " ++ (r.out.getD Arith.zero).format
    else named "Account " " not found"

/-- The balance for a reply. -/
def balance (c : Choice) (e : Entered) (r : Reply Double) : Double :=
  match c with
  | createAccount => e.amount
  | deposit | withdraw | checkBalance => r.out.getD Arith.zero

/-- **The screen for a reply.** -/
def screen (c : Choice) (e : Entered) (r : Reply Double) : List UInt8 :=
  ascii "\nStatus: " ++ decimalInt r.code ++ ascii "\nMessage: " ++ (c.message e r).take 255 ++
    ascii "\n" ++ if r.code = 0 then ascii c.label ++ (c.balance e r).format ++ ascii "\n" else []

end Choice

/-! ## A choice, all the way -/

/-- **One choice at a client**, with what it meets: the client's memory and random number, and the
locals, the OTP service and the random number of the worker that serves it. -/
structure Visit where
  choice : Choice
  entered : Entered
  reqPacket : BankingPacket
  clientRand : ℕ
  response : Block sizeofBankingResponse
  locals : Locals
  otp : OtpService
  rand : ℕ

namespace Visit

variable (u : Visit)

/-- The packet the client writes. -/
def packet : BankingPacket := packed u.choice.opcode (u.choice.request u.entered) u.clientRand

/-- What the client prints once its `tls_read` returned. -/
def display (bytes : ℤ) (respPacket : BankingPacket) : Except Fault (List UInt8) :=
  u.choice.menu ⟨u.reqPacket, u.clientRand, sizeofBankingPacket, bytes, respPacket⟩ u.entered
    u.response.toList

/-- **The choice as a program over the shared table**: one iteration of a worker's loop on the
packet, and the screen of the client on what is written, or on a connection that was closed. -/
def prog : Prog (AccountDB Double) Mutex (Except Fault (List UInt8)) :=
  match iteration ⟨u.packet.bytes, u.locals, u.otp, u.rand⟩ with
  | some prog => prog.map fun sent => sent.bind fun packet => u.display sizeofBankingPacket packet
  | none => .ret (u.display 0 u.reqPacket)

end Visit

/-! ## The client's side -/

/-- The codes of the operations are between -3 and 0. -/
theorem Ledger.create_cases (m : Ledger Double) (k : List UInt8) (b : Double) :
    (m.create k b).1 = ⟨0, none⟩ ∨ (m.create k b).1 = ⟨-1, none⟩ ∨
      (m.create k b).1 = ⟨-2, none⟩ ∨ (m.create k b).1 = ⟨-3, none⟩ := by
  rw [create]
  split_ifs <;> simp

theorem Ledger.deposit_cases (m : Ledger Double) (k : List UInt8) (amount : Double) :
    (∃ b, (m.deposit k amount).1 = ⟨0, some b⟩) ∨ (m.deposit k amount).1 = ⟨-1, none⟩ ∨
      (m.deposit k amount).1 = ⟨-2, none⟩ := by
  cases hb : m.map.lookup k with
  | none =>
    rw [deposit_of_none hb]
    split <;> simp
  | some b =>
    rw [deposit_of_some hb]
    split <;> simp

theorem Ledger.withdraw_cases (m : Ledger Double) (k : List UInt8) (amount : Double) :
    (∃ b, (m.withdraw k amount).1 = ⟨0, some b⟩) ∨ (m.withdraw k amount).1 = ⟨-1, none⟩ ∨
      (m.withdraw k amount).1 = ⟨-2, none⟩ ∨ (m.withdraw k amount).1 = ⟨-3, none⟩ := by
  cases hb : m.map.lookup k with
  | none =>
    rw [withdraw_of_none hb]
    split <;> simp
  | some b =>
    rw [withdraw_of_some hb]
    split_ifs <;> simp

theorem Ledger.getBalance_cases (m : Ledger Double) (k : List UInt8) :
    (∃ b, (m.getBalance k).1 = ⟨0, some b⟩) ∨ (m.getBalance k).1 = ⟨-2, none⟩ := by
  rw [getBalance]
  split <;> simp

/-! ## The worker's side -/

section Server

variable (u : Visit)

/-- The request struct in the memory of the worker. -/
def Visit.memory : CharPtr := onto (u.choice.request u.entered) u.locals.req

/-- **The id in the struct is the one entered**… -/
theorem Visit.chars_memory {n : ℕ} (hn : accountIdLen ≤ n) :
    chars (accountId u.memory) n = u.entered.accountId.text := by
  have hlen : u.entered.accountId.bytes.length ≤ n := u.entered.accountId.length_eq.trans_le hn
  obtain ⟨later, hreq⟩ := exists_request u.choice u.entered
  rw [accountId, memory, hreq, onto_append, chars_onto u.entered.accountId.nul_mem _ hlen]
  rfl

theorem Visit.terminated_memory : Terminated (accountId u.memory) accountIdLen := by
  obtain ⟨later, hreq⟩ := exists_request u.choice u.entered
  have hterm := terminated_onto u.entered.accountId.nul_mem later u.locals.req
  rw [u.entered.accountId.length_eq] at hterm
  rwa [accountId, memory, hreq]

/-- …and so is the amount. -/
theorem Visit.amount_memory (h : u.choice ≠ .checkBalance) :
    amount u.memory = u.entered.amount := by
  have hreq : u.choice.request u.entered = u.entered.accountId.bytes ++ u.entered.amount.bytes := by
    cases hc : u.choice with
    | createAccount => rfl
    | deposit => rfl
    | withdraw => rfl
    | checkBalance => exact absurd hc h
  have hadd := add_onto u.entered.accountId.bytes u.entered.amount.bytes u.locals.req
  rw [u.entered.accountId.length_eq] at hadd
  have hload := u.entered.amount.load_bytes [] (u.locals.req.add accountIdLen)
  rw [List.append_nil] at hload
  rw [amount, memory, hreq, hadd, hload]

/-- **A choice is one iteration of the loop**, and the screen for its response. -/
theorem Visit.prog_eq : u.prog = (handled u.locals u.otp u.packet).map fun response =>
    u.display sizeofBankingPacket (packed opResponse response.bytes u.rand) := by
  have hit := iteration_turn ⟨u.packet, u.locals, u.otp, u.rand,
    wellSized_packed _ _ (length_request_le ..)⟩
  have hturn : iteration ⟨u.packet.bytes, u.locals, u.otp, u.rand⟩ = _ := hit
  rw [prog, hturn]
  exact Prog.map_map _ _ _

theorem Visit.entry : accountLayout.Entry u.prog := by
  rw [prog_eq]
  exact (entry_handled ..).map _

/-- **What the client sees** of a response whose status is an `int`. -/
theorem Visit.exec_prog {db : AccountDB Double}
    (h : -2 ^ 31 ≤ ((handled u.locals u.otp u.packet).exec db).1.status)
    (h' : ((handled u.locals u.otp u.packet).exec db).1.status < 2 ^ 31) :
    u.prog.exec db = (.ok (shown ((handled u.locals u.otp u.packet).exec db).1 u.choice.label),
      ((handled u.locals u.otp u.packet).exec db).2) := by
  rw [prog_eq, Prog.exec_map, display, Choice.menu_eq]
  have hpos : (0 : ℤ) < sizeofBankingPacket := by decide
  exact congrArg (·, _) (menuWith_answered hpos hpos rfl _ _ (length_request_le ..)
    u.response.toList_length h h')

/-- The case of the switch that serves the choice. -/
def Visit.case : RequestProg :=
  match u.choice with
  | .createAccount => caseCreateAccount u.memory
  | .deposit => caseDeposit u.locals.newBalance u.memory
  | .withdraw => caseWithdraw u.locals.newBalance u.memory
  | .checkBalance => caseBalance u.locals.newBalance u.memory

theorem Visit.handled_eq : handled u.locals u.otp u.packet = u.case := by
  have hle := length_request_le u.choice u.entered
  have hok : u.packet.ChecksumOk := checksumOk_packed _ _ hle
  have hpayload : u.packet.payload = u.choice.request u.entered := payload_packed _ _ hle
  have hop : ntoh u.packet.opCode = u.choice.opcode := by
    change ntoh (hton 2 u.choice.opcode) = _
    cases u.choice <;> decide
  have hlen := length_request u.choice u.entered
  rw [handled, if_pos hok, case, memory]
  rw [← hpayload] at hlen ⊢
  cases hc : u.choice with
  | createAccount =>
    rw [hc] at hop hlen
    exact (served_createAccount hop).trans (servedCase_of_fits hok hlen.le _)
  | deposit =>
    rw [hc] at hop hlen
    exact (served_deposit hop).trans (servedCase_of_fits hok hlen.le _)
  | withdraw =>
    rw [hc] at hop hlen
    exact (served_withdraw hop).trans (servedCase_of_fits hok hlen.le _)
  | checkBalance =>
    rw [hc] at hop hlen
    exact (served_balance hop).trans (servedCase_of_fits hok hlen.le _)

theorem Visit.sprint_memory (before later : String) : sprint before (accountId u.memory) later =
    ascii before ++ u.entered.accountId.text ++ ascii later := by
  rw [sprint, str, u.chars_memory (by decide)]

end Server

/-! ## One choice -/

theorem zero_notMem_message (c : Choice) (e : Entered) (r : Reply Double) : 0 ∉ c.message e r := by
  have htext := e.accountId.zero_notMem_text
  have hformat := zero_notMem_format
  have hnamed : ∀ before later : String, 0 ∉ ascii before → 0 ∉ ascii later →
      0 ∉ ascii before ++ e.accountId.text ++ ascii later := fun _ _ h h' =>
    zero_notMem_append (zero_notMem_append h htext) h'
  cases c with
  | createAccount =>
    rw [Choice.message]
    split
    · exact hnamed _ _ (by decide) (by decide)
    · decide
  | deposit =>
    rw [Choice.message]
    split_ifs
    · exact zero_notMem_append (zero_notMem_append (by decide) (hformat _))
        (hnamed _ _ (by decide) (by decide))
    · exact hnamed _ _ (by decide) (by decide)
    · decide
  | withdraw =>
    rw [Choice.message]
    split_ifs
    · exact zero_notMem_append (zero_notMem_append (by decide) (hformat _))
        (hnamed _ _ (by decide) (by decide))
    · exact hnamed _ _ (by decide) (by decide)
    · decide
    · decide
  | checkBalance =>
    rw [Choice.message]
    split_ifs
    · exact zero_notMem_append (hnamed _ _ (by decide) (by decide)) (hformat _)
    · exact hnamed _ _ (by decide) (by decide)

theorem onLedger_code (c : Choice) (e : Entered) (m : Ledger Double) :
    -3 ≤ (c.onLedger e m).1.code ∧ (c.onLedger e m).1.code ≤ 0 := by
  cases c with
  | createAccount =>
    obtain h | h | h | h := m.create_cases e.accountId.text e.amount <;>
      simp [Choice.onLedger, h]
  | deposit =>
    obtain ⟨b, h⟩ | h | h := m.deposit_cases e.accountId.text e.amount <;>
      simp [Choice.onLedger, h]
  | withdraw =>
    obtain ⟨b, h⟩ | h | h | h := m.withdraw_cases e.accountId.text e.amount <;>
      simp [Choice.onLedger, h]
  | checkBalance =>
    obtain ⟨b, h⟩ | h := m.getBalance_cases e.accountId.text <;> simp [Choice.onLedger, h]

/-- On success the others than `createAccount` give a balance. -/
theorem onLedger_out {c : Choice} (hc : c ≠ .createAccount) {e : Entered} {m : Ledger Double}
    (h0 : (c.onLedger e m).1.code = 0) (x : Double) :
    (c.onLedger e m).1.out.getD x = c.balance e (c.onLedger e m).1 := by
  cases c with
  | createAccount => exact absurd rfl hc
  | deposit =>
    rw [Choice.onLedger] at h0 ⊢
    obtain ⟨b, h⟩ | h | h := m.deposit_cases e.accountId.text e.amount
    · rw [h]
      rfl
    all_goals rw [h] at h0; cases h0
  | withdraw =>
    rw [Choice.onLedger] at h0 ⊢
    obtain ⟨b, h⟩ | h | h | h := m.withdraw_cases e.accountId.text e.amount
    · rw [h]
      rfl
    all_goals rw [h] at h0; cases h0
  | checkBalance =>
    rw [Choice.onLedger] at h0 ⊢
    obtain ⟨b, h⟩ | h := m.getBalance_cases e.accountId.text
    · rw [h]
      rfl
    · rw [h] at h0
      cases h0

section Step

variable (u : Visit) {db : AccountDB Double} {m : Ledger Double}

/-- **A choice shows what the ledger answers**, and does to the table what it does to the ledger. -/
def Visit.Follows (db : AccountDB Double) (m : Ledger Double) : Prop :=
  (u.prog.exec db).1 = .ok (u.choice.screen u.entered (u.choice.onLedger u.entered m).1) ∧
    Refines (u.prog.exec db).2 (u.choice.onLedger u.entered m).2

/-- A response with the code, the message and, on success, the balance of the ledger. -/
theorem Visit.follows_of (balance : Double) (hresponse : (u.case.exec db).1 =
      .make (u.choice.onLedger u.entered m).1.code
        (u.choice.message u.entered (u.choice.onLedger u.entered m).1) balance)
    (hbalance : (u.choice.onLedger u.entered m).1.code = 0 →
      balance = u.choice.balance u.entered (u.choice.onLedger u.entered m).1)
    (htable : Refines (u.case.exec db).2 (u.choice.onLedger u.entered m).2) : u.Follows db m := by
  obtain ⟨hlow, hhigh⟩ := onLedger_code u.choice u.entered m
  rw [← handled_eq] at hresponse htable
  have hstatus : ((handled u.locals u.otp u.packet).exec db).1.status =
      (u.choice.onLedger u.entered m).1.code := by
    rw [hresponse]
    rfl
  have hmin : -2 ^ 31 ≤ ((handled u.locals u.otp u.packet).exec db).1.status := by
    rw [hstatus]
    omega
  have hmax : ((handled u.locals u.otp u.packet).exec db).1.status < 2 ^ 31 := by
    rw [hstatus]
    omega
  have hprog := u.exec_prog hmin hmax
  refine ⟨?_, by rw [hprog]; exact htable⟩
  rw [hprog, hresponse]
  refine congrArg Except.ok ((shown_make _ (zero_notMem_message _ _ _) _ _).trans ?_)
  rw [Choice.screen]
  by_cases hcode : (u.choice.onLedger u.entered m).1.code = 0
  · rw [hbalance hcode]
  · rw [if_neg hcode, if_neg hcode]

theorem Visit.follows_createAccount (hR : Refines db m) (hc : u.choice = .createAccount) :
    u.Follows db m := by
  have hamount := u.amount_memory (by rw [hc]; decide)
  have hcase : u.case = caseCreateAccount u.memory := by rw [case, hc]
  obtain ⟨hreply, htable⟩ := step_create (amount u.memory) hR u.terminated_memory
  rw [u.chars_memory le_rfl, hamount] at hreply htable
  refine u.follows_of u.entered.amount ?_ (fun _ => by rw [hc]; rfl) ?_ <;>
    rw [hcase, caseCreateAccount, Prog.exec_map, hamount, hc]
  · rw [hreply, sprint_memory, sprint_memory]
    obtain h | h | h | h := m.create_cases u.entered.accountId.text u.entered.amount <;>
      rw [Choice.onLedger, h] <;> rfl
  · exact htable

theorem Visit.follows_deposit (hR : Refines db m) (hc : u.choice = .deposit) :
    u.Follows db m := by
  have hamount := u.amount_memory (by rw [hc]; decide)
  have hcase : u.case = caseDeposit u.locals.newBalance u.memory := by rw [case, hc]
  obtain ⟨hreply, htable⟩ := step_deposit (accountId u.memory) (amount u.memory) hR
  rw [u.chars_memory le_rfl, hamount] at hreply htable
  refine u.follows_of _ ?_ (fun h0 => onLedger_out (by rw [hc]; decide) h0 u.locals.newBalance) ?_
    <;> rw [hcase, caseDeposit, Prog.exec_map, hamount, hc]
  · rw [hreply, sprint_memory, sprint_memory]
    obtain ⟨b, h⟩ | h | h := m.deposit_cases u.entered.accountId.text u.entered.amount <;>
      rw [Choice.onLedger, h] <;> rfl
  · exact htable

theorem Visit.follows_withdraw (hR : Refines db m) (hc : u.choice = .withdraw) :
    u.Follows db m := by
  have hamount := u.amount_memory (by rw [hc]; decide)
  have hcase : u.case = caseWithdraw u.locals.newBalance u.memory := by rw [case, hc]
  obtain ⟨hreply, htable⟩ := step_withdraw (accountId u.memory) (amount u.memory) hR
  rw [u.chars_memory le_rfl, hamount] at hreply htable
  refine u.follows_of _ ?_ (fun h0 => onLedger_out (by rw [hc]; decide) h0 u.locals.newBalance) ?_
    <;> rw [hcase, caseWithdraw, Prog.exec_map, hamount, hc]
  · rw [hreply, sprint_memory, sprint_memory]
    obtain ⟨b, h⟩ | h | h | h := m.withdraw_cases u.entered.accountId.text u.entered.amount <;>
      rw [Choice.onLedger, h] <;> rfl
  · exact htable

theorem Visit.follows_checkBalance (hR : Refines db m) (hc : u.choice = .checkBalance) :
    u.Follows db m := by
  have hcase : u.case = caseBalance u.locals.newBalance u.memory := by rw [case, hc]
  obtain ⟨hreply, htable⟩ := step_getBalance (accountId u.memory) hR
  rw [u.chars_memory le_rfl] at hreply htable
  refine u.follows_of _ ?_ (fun h0 => onLedger_out (by rw [hc]; decide) h0 u.locals.newBalance) ?_
    <;> rw [hcase, caseBalance, Prog.exec_map, hc]
  · rw [hreply, sprint_memory, sprint_memory]
    obtain ⟨b, h⟩ | h := m.getBalance_cases u.entered.accountId.text <;>
      simp [Choice.onLedger, Choice.message, h]
  · exact htable

theorem Visit.follows (hR : Refines db m) : u.Follows db m := by
  cases hc : u.choice with
  | createAccount => exact u.follows_createAccount hR hc
  | deposit => exact u.follows_deposit hR hc
  | withdraw => exact u.follows_withdraw hR hc
  | checkBalance => exact u.follows_checkBalance hR hc

end Step

/-! ## All choices -/

/-- A choice on the ledger: the screen, and the ledger after. -/
def Ledger.show (m : Ledger Double) (u : Visit) :
    (Visit × Except Fault (List UInt8)) × Ledger Double :=
  ((u, .ok (u.choice.screen u.entered (u.choice.onLedger u.entered m).1)),
    (u.choice.onLedger u.entered m).2)

theorem simulation_show :
    Simulation (serialStep Visit.prog) Ledger.show (fun _ => True) Refines where
  answer _ hR := congrArg (Prod.mk _) (Visit.follows _ hR).1
  next _ hR := (Visit.follows _ hR).2

variable {W : Type v} [DecidableEq W]

/-- **The choices of a run in one line, as choices on the ledger**: it gives every screen of the
line, a worker finds there what it has served and at most one choice more, which it is serving, and
while none is served the table holds the ledger. -/
structure ScreenLine (x : Watch W Visit (AccountDB Double) Mutex (Except Fault (List UInt8)))
    (log : List (W × Visit × Except Fault (List UInt8))) : Prop where
  shown : answers Ledger.show Ledger.empty (log.map fun e => e.2.1) = log.map Prod.snd
  own : ∀ w, ∃ pending, (log.filter fun e => e.1 = w).map Prod.snd = x.seen w ++ pending ∧
    pending.length ≤ 1 ∧ ∀ e ∈ pending, ∃ k, x.config.call w = some k ∧ k.op = e.1
  table : x.config.Quiet →
    Refines x.config.mem (after Ledger.show Ledger.empty (log.map fun e => e.2.1))

/-- The ledger behind a line. -/
theorem ScreenLine.of_line {x : Watch W Visit (AccountDB Double) Mutex (Except Fault (List UInt8))}
    {log : List (W × Visit × Except Fault (List UInt8))} (hx : Watch.Run Visit.prog .dbLock
      (.start accountInit) x) (h : Line Visit.prog accountInit x log) : ScreenLine x log where
  shown := (simulation_show.answers_eq refines_init fun _ _ => trivial).symm.trans h.serial
  own := h.own_pending
  table hq := by
    have hmem := (h.of_quiet (L := accountLayout) Visit.entry
      (Watch.Run.reachable .start hx) hq).2
    rw [← hmem]
    exact simulation_show.after refines_init fun _ _ => trivial

/-- **Every screen shows one ledger.**  At any point `x` of a run in which any number of workers
serve the choices of clients side by side, there is one line of the choices, and at every later
point `y` it is that line with further choices behind it. -/
theorem screens_of_one_ledger
    {x : Watch W Visit (AccountDB Double) Mutex (Except Fault (List UInt8))}
    (hx : Watch.Run Visit.prog .dbLock (.start accountInit) x) :
    ∃ log, ScreenLine x log ∧ ∀ y, Watch.Run Visit.prog .dbLock x y →
      ∃ more, ScreenLine y (log ++ more) := by
  obtain ⟨log, hlog, hlater⟩ := exists_line (L := accountLayout) Visit.entry hx
  refine ⟨log, .of_line hx hlog, fun y hy => ?_⟩
  obtain ⟨more, hmore⟩ := hlater y hy
  exact ⟨more, .of_line (hx.trans hy) hmore⟩

/-- A choice over zeroed memory, and without an OTP service. -/
def Visit.ofClient (c : Choice) (e : Entered) (reqId rand : ℕ) : Visit where
  choice := c
  entered := e
  reqPacket := packed c.opcode (c.request e) reqId
  clientRand := reqId
  response := List.Vector.replicate _ 0
  locals := ⟨fun _ => 0, Arith.zero, packed c.opcode (c.request e) reqId⟩
  otp := fun _ _ => none
  rand := rand

/-- Account `A` is opened through one worker, and then its balance is checked through another. -/
theorem screens_of_one_ledger_twice :
    let a : Entered := ⟨.ofPtr (onto [65] fun _ => 0) (accountIdLen - 1),
      ⟨0x4059000000000000, by decide⟩⟩
    let opened := Visit.ofClient .createAccount a 1 7
    let checked := Visit.ofClient .checkBalance a 2 8
    ∃ x y : Watch Bool Visit (AccountDB Double) Mutex (Except Fault (List UInt8)),
      x.seen = seenAfter Visit.prog accountInit (fun _ => []) [(true, opened)] ∧
      y.seen = seenAfter Visit.prog x.config.mem x.seen [(false, checked)] ∧
      ∃ log more, ScreenLine x log ∧ ScreenLine y (log ++ more) := by
  intro a opened checked
  obtain ⟨x, hx, hq, hfree, -, hseen⟩ := exists_run (L := accountLayout) (x := .start accountInit)
    (g := Mutex.dbLock) Visit.entry [(true, opened)] (fun _ => rfl) fun _ => rfl
  obtain ⟨y, hy, -, -, -, hseen'⟩ := exists_run (L := accountLayout) (g := Mutex.dbLock)
    Visit.entry [(false, checked)] hq hfree
  obtain ⟨log, hlog, hlater⟩ := screens_of_one_ledger hx
  obtain ⟨more, hmore⟩ := hlater y hy
  exact ⟨x, y, hseen, hseen', log, more, hlog, hmore⟩

end BankingSystem
