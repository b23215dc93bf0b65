import BankingSystem.Account.Ledger
import BankingSystem.Machinery.Machine
import BankingSystem.Server.Worker

/-!
# Server/Session — what guards an account, over many packets on many connections

The server keeps nothing about a connection: a login that succeeds leaves no trace, and the table is
all that one packet hands to the next.  So an operation on an account is guarded by the create that
opened it, on whichever connection (`GuardedByCreate`), and not by a login (`GuardedByLogin`); and
the packets for the OTP service may be left out (`answers_withoutOtp`).
-/

namespace BankingSystem

open Bytes CString Interleave Machine

/-! ## Packets on connections -/

/-- **A packet on a connection**, with the uninitialised locals and the OTP service there are when
it is handled.  Its length field is in range, and its id ends inside the field. -/
structure Received where
  connection : ℕ
  packet : BankingPacket
  locals : Locals
  otp : OtpService
  wellSized : packet.WellSized
  terminated : 0 ∈ packet.payload.take accountIdLen

/-- A packet, and what it was answered. -/
structure Exchange where
  request : Received
  response : BankingResponse

namespace Received

variable (r : Received)

/-- The opcode, in host order. -/
def opcode : ℕ := ntoh r.packet.opCode

/-- The account the packet names. -/
def account : List UInt8 := CString.text (r.packet.payload.take accountIdLen)

/-- The request struct in memory. -/
def memory : CharPtr := onto r.packet.payload r.locals.req

/-- A packet for the OTP service. -/
def isOtp : Bool := r.opcode == opReqOtp || r.opcode == opLogin

/-- The same packet with another OTP service. -/
def withOtp (otp : OtpService) : Received := { r with otp := otp }

/-- The program of the packet. -/
def prog : RequestProg := handled r.locals r.otp r.packet

/-- The packet as a step of the server. -/
def step (db : AccountDB Double) (r : Received) : Exchange × AccountDB Double :=
  (⟨r, (r.prog.exec db).1⟩, (r.prog.exec db).2)

end Received

/-- The loops of the workers, over the packets of all connections in the order they are handled. -/
def serveAll : List Received → AccountDB Double → Except Fault (List Exchange × AccountDB Double)
  | [], db => .ok ([], db)
  | r :: rs, db => do
    let prog ← handlePacket r.locals r.otp r.packet
    let (log, last) ← serveAll rs (prog.exec db).2
    return (⟨r, (prog.exec db).1⟩ :: log, last)

/-- **No packet faults**: the server is a machine. -/
theorem serveAll_eq (rs : List Received) (db : AccountDB Double) :
    serveAll rs db = .ok (answers Received.step db rs, after Received.step db rs) := by
  induction rs generalizing db with
  | nil => rfl
  | cons r rs ih =>
    rw [serveAll, handlePacket_eq r.wellSized]
    change (serveAll rs (r.step db).2).bind _ = _
    rw [ih]
    rfl

/-! ## Guards -/

namespace Exchange

variable (e : Exchange)

/-- A packet with this opcode was answered `STATUS_SUCCESS`. -/
def Succeeds (opcode : ℕ) : Prop :=
  e.request.opcode = opcode ∧ e.response.status = statusSuccess

/-- A deposit, a withdrawal or a query that succeeded. -/
def UsesAccount : Prop := e.Succeeds opDeposit ∨ e.Succeeds opWithdraw ∨ e.Succeeds opBalance

end Exchange

/-- Every use of an account comes after an exchange that opened it. -/
def Guarded (opens : Exchange → Exchange → Prop) (log : List Exchange) : Prop :=
  ∀ before e later, log = before ++ e :: later → e.UsesAccount → ∃ o ∈ before, opens o e

/-- **Every use of an account comes after a login to it that succeeded**, on the same
connection. -/
def GuardedByLogin : List Exchange → Prop := Guarded fun o e =>
  o.Succeeds opLogin ∧ o.request.connection = e.request.connection ∧
    o.request.account = e.request.account

/-- **Every use of an account comes after a create of it that succeeded**, on any connection. -/
def GuardedByCreate : List Exchange → Prop := Guarded fun o e =>
  o.Succeeds opCreateAccount ∧ o.request.account = e.request.account

/-- A login succeeds exactly when its payload is accepted and the OTP service verifies the code. -/
def LoginsVerified (log : List Exchange) : Prop :=
  ∀ e ∈ log, e.request.opcode = opLogin → (e.response.status = statusSuccess ↔
    e.request.packet.Accepted sizeofLoginRequest ∧
    ∃ res, e.request.otp otpOpVerify (otpIpcFields (accountId e.request.memory)
      (some (loginOtp e.request.memory))) = some res ∧ res.status = 1)

/-! ## One packet -/

section Step

variable (r : Received) (db : AccountDB Double)

/-- The id field holds the account. -/
theorem Received.chars_memory {n : ℕ} (hn : accountIdLen ≤ n) :
    chars (accountId r.memory) n = r.account := by
  have hlen : (r.packet.payload.take accountIdLen).length ≤ n :=
    (List.length_take_le _ _).trans hn
  rw [memory, accountId, ← List.take_append_drop accountIdLen r.packet.payload, onto_append,
    chars_onto r.terminated _ hlen]
  rfl

/-- The id field ends inside its 20 bytes. -/
theorem Received.terminated_memory : Terminated (accountId r.memory) accountIdLen := by
  obtain ⟨k, hk, h0⟩ := terminated_onto r.terminated (r.packet.payload.drop accountIdLen)
    r.locals.req
  rw [List.take_append_drop] at h0
  exact ⟨k, hk.trans_le (List.length_take_le _ _), h0⟩

/-- A success is one of a packet whose checksum is right. -/
theorem checksumOk_of_succeeds
    (h : ((handled r.locals r.otp r.packet).exec db).1.status = statusSuccess) :
    r.packet.ChecksumOk := by
  by_contra hbad
  rw [handled, if_neg hbad] at h
  exact BankingResponse.status_error _ h

/-- **A use of an account finds it.** -/
theorem found_of_usesAccount (h : (r.step db).1.UsesAccount) :
    ∃ i, accountFind db (accountId r.memory) = some i := by
  have hatomic := atomic_handled r.locals r.otp r.packet db
  obtain ⟨hop, hst⟩ | ⟨hop, hst⟩ | ⟨hop, hst⟩ := h
  · obtain ⟨i, hi, -⟩ := hatomic.deposited (checksumOk_of_succeeds r db hst) hop hst
    exact ⟨i, hi⟩
  · obtain ⟨i, hi, -⟩ := hatomic.withdrawn (checksumOk_of_succeeds r db hst) hop hst
    exact ⟨i, hi⟩
  · have hprog : handled r.locals r.otp r.packet = _ :=
      (if_pos (checksumOk_of_succeeds r db hst)).trans (served_balance hop)
    change ((handled r.locals r.otp r.packet).exec db).1.status = statusSuccess at hst
    rw [hprog] at hst
    obtain hcase | ⟨-, hcase⟩ := servedCase_cases r.locals r.packet sizeofAccountRequest
      (caseBalance r.locals.newBalance)
    · rw [hcase] at hst
      exact absurd hst (BankingResponse.status_error _)
    · rw [hcase, caseBalance, Prog.exec_map] at hst
      exact accountGetBalance_found hst

/-- **What a login answers.** -/
theorem login_succeeds_iff (hop : r.opcode = opLogin) :
    (r.step db).1.response.status = statusSuccess ↔
    r.packet.Accepted sizeofLoginRequest ∧
    ∃ res, r.otp otpOpVerify (otpIpcFields (accountId r.memory) (some (loginOtp r.memory))) =
      some res ∧ res.status = 1 := by
  change ((handled r.locals r.otp r.packet).exec db).1.status = statusSuccess ↔ _
  by_cases hacc : r.packet.Accepted sizeofLoginRequest
  · rw [handled, if_pos hacc.1, served_login hop, servedCase_of_fits hacc.1 hacc.2, caseLogin,
      Prog.exec_ret, ← verifyOtpRemote_iff]
    refine Iff.trans ?_ (and_iff_right hacc).symm
    split
    · rename_i hv
      exact iff_of_true rfl hv
    · rename_i hv
      exact iff_of_false (BankingResponse.status_error _) hv
  · refine iff_of_false (fun hst => ?_) fun h => hacc h.1
    have hok := checksumOk_of_succeeds r db hst
    rw [handled, if_pos hok, served_login hop, servedCase_of_not_accepted hacc] at hst
    exact BankingResponse.status_error _ hst

/-- A packet for the OTP service leaves the table as it is. -/
theorem step_of_isOtp (h : r.isOtp = true) : (r.step db).2 = db := by
  refine (atomic_handled r.locals r.otp r.packet db).unchanged fun ⟨_, hop, _⟩ => ?_
  have hotp : r.opcode = opReqOtp ∨ r.opcode = opLogin := by simpa [Received.isOtp] using h
  obtain hotp | hotp := hotp <;> obtain hop | hop | hop := hop <;>
  · rw [← Received.opcode, hotp] at hop
    exact absurd hop (by decide)

/-- Every other packet is handled without the OTP service. -/
theorem prog_withOtp (h : r.isOtp = false) (otp : OtpService) : (r.withOtp otp).prog = r.prog := by
  have hotp : ¬ ntoh r.packet.opCode = opReqOtp ∧ ¬ ntoh r.packet.opCode = opLogin := by
    simpa [Received.isOtp, Received.opcode] using h
  change handled r.locals otp r.packet = handled r.locals r.otp r.packet
  rw [handled, handled, served, served]
  simp only [hotp.1, hotp.2, if_false]

end Step

/-! ## Accounts are opened by a create -/

/-- Every account of the table was opened by a create. -/
def Opened (log : List Exchange) (db : AccountDB Double) : Prop :=
  ∀ i : Slot, i.val < db.accountCount →
    ∃ c ∈ log, c.Succeeds opCreateAccount ∧ c.request.account = db.idText i

theorem opened_init : Opened [] accountInit := fun _ h => absurd h (Nat.not_lt_zero _)

/-- What was opened stays opened. -/
theorem Opened.append {log : List Exchange} {db : AccountDB Double} (h : Opened log db)
    (e : Exchange) : Opened (log ++ [e]) db := fun i hi => by
  obtain ⟨c, hc, hsucc, haccount⟩ := h i hi
  exact ⟨c, List.mem_append_left _ hc, hsucc, haccount⟩

theorem Opened.setBalance {log : List Exchange} {db : AccountDB Double} (h : Opened log db)
    (i : Slot) (b : Double) : Opened log (db.setBalance i b) := fun j hj => by
  obtain ⟨c, hc, hsucc, haccount⟩ := h j hj
  exact ⟨c, hc, hsucc, haccount.trans (db.idText_setBalance i j b).symm⟩

/-- **One packet opens what it adds.** -/
theorem Opened.step {log : List Exchange} {db : AccountDB Double} (h : Opened log db)
    (r : Received) : Opened (log ++ [(r.step db).1]) (r.step db).2 := by
  have hatomic : Atomic r.packet r.memory (r.step db).1.response db (r.step db).2 :=
    atomic_handled r.locals r.otp r.packet db
  by_cases hchange : r.packet.ChecksumOk ∧ (ntoh r.packet.opCode = opCreateAccount ∨
      ntoh r.packet.opCode = opDeposit ∨ ntoh r.packet.opCode = opWithdraw) ∧
      (r.step db).1.response.status = statusSuccess
  · obtain ⟨hok, hop | hop | hop, hst⟩ := hchange
    · obtain ⟨hlt, hdb⟩ := hatomic.created hok hop hst
      rw [hdb]
      intro i hi
      rw [AccountDB.idText_insert]
      split
      · refine ⟨_, List.mem_append_right _ (List.mem_singleton_self _), ⟨hop, hst⟩, ?_⟩
        rw [chars_of_terminated r.terminated_memory, r.chars_memory le_rfl]
        rfl
      · rename_i hne
        exact h.append _ i (AccountDB.lt_of_ne_new hi hne)
    · obtain ⟨i, -, hdb⟩ := hatomic.deposited hok hop hst
      rw [hdb]
      exact (h.setBalance i _).append _
    · obtain ⟨i, -, hdb⟩ := hatomic.withdrawn hok hop hst
      rw [hdb]
      exact (h.setBalance i _).append _
  · rw [hatomic.unchanged hchange]
    exact h.append _

/-- **Every use of an account comes after its create.** -/
theorem guardedByCreate_answers (rs : List Received) :
    GuardedByCreate (answers Received.step accountInit rs) := by
  intro before e later hlog huse
  obtain ⟨past, r, hbefore, rfl⟩ := answers_split hlog
  have hopened := answers_invariant (Q := Opened) (fun _ _ r h => h.step r) opened_init past
  obtain ⟨i, hi⟩ := found_of_usesAccount r _ huse
  obtain ⟨hlt, htext⟩ := AccountDB.idText_of_find hi
  obtain ⟨c, hc, hsucc, haccount⟩ := hopened i hlt
  exact ⟨c, hbefore ▸ hc, hsucc, haccount.trans (htext.trans (r.chars_memory le_rfl))⟩

/-! ## The packets for the OTP service may be left out -/

/-- The packets that are not for the OTP service, with another one. -/
def withoutOtp (otp : OtpService) (rs : List Received) : List Received :=
  (rs.filter fun r => !r.isOtp).map (·.withOtp otp)

/-- What these packets are answered. -/
def responsesWithoutOtp (log : List Exchange) : List BankingResponse :=
  (log.filter fun e => !e.request.isOtp).map (·.response)

theorem withoutOtp_cons (otp : OtpService) (r : Received) (rs : List Received) :
    withoutOtp otp (r :: rs) =
      if r.isOtp then withoutOtp otp rs else r.withOtp otp :: withoutOtp otp rs := by
  rw [withoutOtp, List.filter_cons]
  cases r.isOtp <;> rfl

theorem responsesWithoutOtp_cons (e : Exchange) (log : List Exchange) :
    responsesWithoutOtp (e :: log) =
      if e.request.isOtp then responsesWithoutOtp log
      else e.response :: responsesWithoutOtp log := by
  rw [responsesWithoutOtp, List.filter_cons]
  cases e.request.isOtp <;> rfl

/-- **Leaving the OTP packets out changes neither the table nor any other answer.** -/
theorem answers_withoutOtp (otp : OtpService) (rs : List Received) (db : AccountDB Double) :
    after Received.step db (withoutOtp otp rs) = after Received.step db rs ∧
    (answers Received.step db (withoutOtp otp rs)).map (·.response) =
      responsesWithoutOtp (answers Received.step db rs) := by
  induction rs generalizing db with
  | nil => exact ⟨rfl, rfl⟩
  | cons r rs ih =>
    rw [withoutOtp_cons, after, answers, responsesWithoutOtp_cons]
    change _ ∧ _ = if r.isOtp then _ else _
    cases hotp : r.isOtp with
    | true =>
      rw [step_of_isOtp r db hotp]
      exact ih db
    | false =>
      have hresponse : ((r.withOtp otp).step db).1.response = (r.step db).1.response := by
        rw [Received.step, Received.step, prog_withOtp r hotp]
      have htable : ((r.withOtp otp).step db).2 = (r.step db).2 := by
        rw [Received.step, Received.step, prog_withOtp r hotp]
      change after _ _ (r.withOtp otp :: _) = _ ∧ (answers _ _ (r.withOtp otp :: _)).map _ = _ :: _
      rw [after, answers, List.map_cons, hresponse, htable]
      exact ⟨(ih _).1, congrArg _ (ih _).2⟩

/-! ## What guards an account -/

/-- **An account is guarded by its create and by nothing else.**  Whatever packets arrive on
whatever connections, no login is needed to use an account: it is enough that it was opened, and the
packets for the OTP service, which answers logins rightly, may as well be left out. -/
theorem serveAll_guarded (rs : List Received) :
    ∃ log db, serveAll rs accountInit = .ok (log, db) ∧ GuardedByCreate log ∧
      LoginsVerified log ∧
      ∀ otp : OtpService, ∃ log', serveAll (withoutOtp otp rs) accountInit = .ok (log', db) ∧
        log'.map (·.response) = responsesWithoutOtp log := by
  refine ⟨_, _, serveAll_eq rs accountInit, guardedByCreate_answers rs, fun e he hop => ?_,
    fun otp => ⟨answers Received.step accountInit (withoutOtp otp rs), ?_,
      (answers_withoutOtp otp rs accountInit).2⟩⟩
  · obtain ⟨before, later, hlog⟩ := List.append_of_mem he
    obtain ⟨past, r, -, rfl⟩ := answers_split hlog
    exact login_succeeds_iff r _ hop
  · rw [serveAll_eq, (answers_withoutOtp otp rs accountInit).1]

/-- A request as a client packs it, on a connection, with zeroed memory and no OTP service. -/
def Received.ofClient (connection opcode : ℕ) (data : List UInt8) (hfit : data.length ≤ maxDataSize)
    (hid : 0 ∈ data.take accountIdLen) : Received where
  connection := connection
  packet := packed opcode data 0
  locals := ⟨fun _ => 0, Arith.zero, packed opcode data 0⟩
  otp := fun _ _ => none
  wellSized := wellSized_packed opcode 0 hfit
  terminated := by rwa [payload_packed opcode 0 hfit]

/-- Account `A` is opened with 100 and then queried on the same connection, without a login. -/
theorem not_guardedByLogin :
    let createA := Received.ofClient 0 opCreateAccount
      (amountRequest (onto [65] fun _ => 0) ⟨0x4059000000000000, by decide⟩) (by decide) (by decide)
    let queryA := Received.ofClient 0 opBalance
      (CharArray.ofPtr (onto [65] fun _ => 0) (accountIdLen - 1)).bytes (by decide) (by decide)
    ∃ log db, serveAll [createA, queryA] accountInit = .ok (log, db) ∧ ¬ GuardedByLogin log := by
  refine ⟨_, _, serveAll_eq _ _, fun hguard => ?_⟩
  obtain ⟨o, ho, ⟨hop, -⟩, -⟩ := hguard [_] _ [] rfl
    (Or.inr (Or.inr ⟨by decide, by decide +kernel⟩))
  obtain rfl := List.mem_singleton.mp ho
  exact absurd hop (by decide)

end BankingSystem
