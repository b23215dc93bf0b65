import BankingSystem.Account.Locking
import BankingSystem.Server.Request

/-!
# Server/Worker — one packet in the worker loop (`worker_main`)

`handlePacket` is the body of the loop for a packet of full size: the checksum, then
`process_request`.  For a length field in range it never faults, and its program is one of the
account operations, or none (`handlePacket_eq`, `handled`).  So it releases what it locks, and the
table changes only by an operation that reports success (`handlePacket_atomic`).
-/

namespace BankingSystem

open Bytes CString Interleave

/-! ## The loop body -/

/-- The response to a bad checksum. -/
def checksumFailed : BankingResponse := .text statusError "Checksum verification failed"

/-- The body of the worker's loop, up to the packing of the response. -/
def handlePacket (locals : Locals) (otp : OtpService) (packet : BankingPacket) :
    Except Fault RequestProg := do
  if (← verifyPacketChecksum packet) ≠ 0 then return .ret checksumFailed
  dispatch locals otp packet

/-! ## What a packet with a length field in range asks for -/

/-- `unpack_request` accepts the packet for a struct of this size. -/
def BankingPacket.Accepted (packet : BankingPacket) (size : ℕ) : Prop :=
  packet.ChecksumOk ∧ packet.payload.length ≤ size

section Served

variable (locals : Locals) (otp : OtpService) (packet : BankingPacket)

/-- Memory from the request struct on, after an `unpack_request` into `size` bytes that succeeds. -/
def received (size : ℕ) : Option CharPtr :=
  if packet.ChecksumOk ∧ packet.payload.length ≤ size then some (onto packet.payload locals.req)
  else none

/-- A case of the switch. -/
def servedCase (size : ℕ) (body : CharPtr → RequestProg) : RequestProg :=
  (received locals packet size).elim (.ret invalidFormat) body

/-- **The program of a request.** -/
def served : RequestProg :=
  let opcode := ntoh packet.opCode
  if opcode = opCreateAccount then
    servedCase locals packet sizeofAmountRequest caseCreateAccount
  else if opcode = opDeposit then
    servedCase locals packet sizeofAmountRequest (caseDeposit locals.newBalance)
  else if opcode = opWithdraw then
    servedCase locals packet sizeofAmountRequest (caseWithdraw locals.newBalance)
  else if opcode = opReqOtp then
    servedCase locals packet sizeofAccountRequest (caseReqOtp otp)
  else if opcode = opLogin then
    servedCase locals packet sizeofLoginRequest (caseLogin otp)
  else if opcode = opBalance then
    servedCase locals packet sizeofAccountRequest (caseBalance locals.newBalance)
  else .ret (.text statusError "Unknown operation")

/-- **The program of a packet**: of its request, if the checksum is right. -/
def handled : RequestProg :=
  if packet.ChecksumOk then served locals otp packet else .ret checksumFailed

variable {locals otp packet}

theorem served_createAccount (hop : ntoh packet.opCode = opCreateAccount) :
    served locals otp packet =
      servedCase locals packet sizeofAmountRequest caseCreateAccount := by
  rw [served, hop]
  rfl

theorem served_deposit (hop : ntoh packet.opCode = opDeposit) : served locals otp packet =
    servedCase locals packet sizeofAmountRequest (caseDeposit locals.newBalance) := by
  rw [served, hop]
  rfl

theorem served_withdraw (hop : ntoh packet.opCode = opWithdraw) : served locals otp packet =
    servedCase locals packet sizeofAmountRequest (caseWithdraw locals.newBalance) := by
  rw [served, hop]
  rfl

theorem served_reqOtp (hop : ntoh packet.opCode = opReqOtp) : served locals otp packet =
    servedCase locals packet sizeofAccountRequest (caseReqOtp otp) := by
  rw [served, hop]
  rfl

theorem served_login (hop : ntoh packet.opCode = opLogin) : served locals otp packet =
    servedCase locals packet sizeofLoginRequest (caseLogin otp) := by
  rw [served, hop]
  rfl

theorem served_balance (hop : ntoh packet.opCode = opBalance) : served locals otp packet =
    servedCase locals packet sizeofAccountRequest (caseBalance locals.newBalance) := by
  rw [served, hop]
  rfl

theorem unpackLocal_eq (h : packet.WellSized) (size : ℕ) :
    unpackLocal locals packet size = .ok (received locals packet size) := by
  have hunpack := h.unpack_eq ((List.range size).map locals.req)
  rw [List.length_map, List.length_range] at hunpack
  rw [unpackLocal, hunpack, received]
  split
  · exact congrArg (fun req => Except.ok (some req)) (onto_fill _ _ _)
  · rfl

theorem unpacking_eq (h : packet.WellSized) (size : ℕ) (body : CharPtr → RequestProg) :
    unpacking locals packet size body = .ok (servedCase locals packet size body) := by
  rw [unpacking, unpackLocal_eq h, servedCase]
  cases received locals packet size <;> rfl

/-- **In range the switch never faults.** -/
theorem dispatch_eq (h : packet.WellSized) :
    dispatch locals otp packet = .ok (served locals otp packet) := by
  simp only [dispatch, served, unpacking_eq h]
  split_ifs <;> rfl

/-- **In range the loop body never faults.** -/
theorem handlePacket_eq (h : packet.WellSized) :
    handlePacket locals otp packet = .ok (handled locals otp packet) := by
  rw [handlePacket, h.verify_eq, dispatch_eq h, handled]
  split <;> rfl

end Served

/-! ## Mutexes -/

theorem entry_served (locals : Locals) (otp : OtpService) (packet : BankingPacket) :
    accountLayout.Entry (served locals otp packet) := by
  have hcase : ∀ (size : ℕ) (body : CharPtr → RequestProg),
      (∀ req, accountLayout.Entry (body req)) →
        accountLayout.Entry (servedCase locals packet size body) := fun size body hbody => by
    rw [servedCase]
    cases received locals packet size with
    | none => exact .refuse _
    | some req => exact hbody req
  rw [served]
  split_ifs
  · exact hcase _ _ fun req => (entry_accountCreate _ _).map _
  · exact hcase _ _ fun req => (entry_accountDeposit _ _).map _
  · exact hcase _ _ fun req => (entry_accountWithdraw _ _).map _
  · exact hcase _ _ fun req => .refuse _
  · exact hcase _ _ fun req => .refuse _
  · exact hcase _ _ fun req => (entry_accountGetBalance _).map _
  · exact .refuse _

theorem entry_handled (locals : Locals) (otp : OtpService) (packet : BankingPacket) :
    accountLayout.Entry (handled locals otp packet) := by
  rw [handled]
  split
  · exact entry_served locals otp packet
  · exact .refuse _

/-! ## A packet is handled as a whole -/

/-- **What a packet did to the table**, from its opcode, the request struct in memory, the response
and the table before and after. -/
structure Atomic (packet : BankingPacket) (req : CharPtr) (response : BankingResponse)
    (db db' : AccountDB Double) : Prop where
  unchanged : ¬ (packet.ChecksumOk ∧
      (ntoh packet.opCode = opCreateAccount ∨ ntoh packet.opCode = opDeposit ∨
        ntoh packet.opCode = opWithdraw) ∧ response.status = statusSuccess) → db' = db
  created : packet.ChecksumOk → ntoh packet.opCode = opCreateAccount →
    response.status = statusSuccess → ∃ h : db.accountCount < maxAccounts,
      db' = db.insert ⟨db.accountCount, h⟩ (accountId req) (amount req)
  deposited : packet.ChecksumOk → ntoh packet.opCode = opDeposit →
    response.status = statusSuccess → ∃ i, accountFind db (accountId req) = some i ∧
      db' = db.setBalance i (Arith.add (db.balance i) (amount req))
  withdrawn : packet.ChecksumOk → ntoh packet.opCode = opWithdraw →
    response.status = statusSuccess → ∃ i, accountFind db (accountId req) = some i ∧
      db' = db.setBalance i (Arith.sub (db.balance i) (amount req))

/-- A request that fails, or is none of the three, leaves the table as it is. -/
theorem Atomic.of_unchanged {packet : BankingPacket} {req : CharPtr} {response : BankingResponse}
    {db db' : AccountDB Double} (h : db' = db)
    (hst : response.status ≠ statusSuccess ∨ (ntoh packet.opCode ≠ opCreateAccount ∧
      ntoh packet.opCode ≠ opDeposit ∧ ntoh packet.opCode ≠ opWithdraw)) :
    Atomic packet req response db db' where
  unchanged := fun _ => h
  created := fun _ hop hs => hst.elim (absurd hs) fun hne => absurd hop hne.1
  deposited := fun _ hop hs => hst.elim (absurd hs) fun hne => absurd hop hne.2.1
  withdrawn := fun _ hop hs => hst.elim (absurd hs) fun hne => absurd hop hne.2.2

section Served

variable (locals : Locals) (otp : OtpService) (packet : BankingPacket) (db : AccountDB Double)

/-- A case is refused by `unpack_request`, or runs on the payload. -/
theorem servedCase_cases (size : ℕ) (body : CharPtr → RequestProg) :
    servedCase locals packet size body = .ret invalidFormat ∨ (packet.ChecksumOk ∧
      servedCase locals packet size body = body (onto packet.payload locals.req)) := by
  rw [servedCase, received]
  split
  · rename_i hok
    exact Or.inr ⟨hok.1, rfl⟩
  · exact Or.inl rfl

/-- A payload that fits is unpacked. -/
theorem servedCase_of_fits {locals : Locals} {packet : BankingPacket} {size : ℕ}
    (hok : packet.ChecksumOk) (hfit : packet.payload.length ≤ size)
    (body : CharPtr → RequestProg) :
    servedCase locals packet size body = body (onto packet.payload locals.req) := by
  rw [servedCase, received, if_pos ⟨hok, hfit⟩]
  rfl

/-- One that does not fit, or has a wrong checksum, is refused. -/
theorem servedCase_of_not_accepted {locals : Locals} {packet : BankingPacket} {size : ℕ}
    (h : ¬ packet.Accepted size) (body : CharPtr → RequestProg) :
    servedCase locals packet size body = .ret invalidFormat := by
  have hnone : received locals packet size = none := if_neg h
  rw [servedCase, hnone]
  rfl

/-- So a case is handled as a whole when its body is. -/
theorem atomic_servedCase {size : ℕ} {body : CharPtr → RequestProg}
    (h : packet.ChecksumOk → Atomic packet (onto packet.payload locals.req)
      ((body (onto packet.payload locals.req)).exec db).1 db
      ((body (onto packet.payload locals.req)).exec db).2) :
    Atomic packet (onto packet.payload locals.req)
      ((servedCase locals packet size body).exec db).1 db
      ((servedCase locals packet size body).exec db).2 := by
  obtain hcase | ⟨hok, hcase⟩ := servedCase_cases locals packet size body
  · rw [hcase]
    exact .of_unchanged rfl (Or.inl (BankingResponse.status_error _))
  · rw [hcase]
    exact h hok

/-- **The request of a packet is handled as a whole.** -/
theorem atomic_served : Atomic packet (onto packet.payload locals.req)
    ((served locals otp packet).exec db).1 db ((served locals otp packet).exec db).2 := by
  rw [served]
  split_ifs with h1 h2 h3 h4 h5 h6
  · refine atomic_servedCase locals packet db fun hok => ?_
    rw [caseCreateAccount, Prog.exec_map]
    obtain ⟨h0, hc, hdb⟩ | ⟨h0, hdb⟩ := accountCreate_leaves
      (accountId (onto packet.payload locals.req)) (amount (onto packet.payload locals.req)) db
    · exact
        { unchanged := fun hn => absurd ⟨hok, Or.inl h1, h0⟩ hn
          created := fun _ _ _ => ⟨hc, hdb⟩
          deposited := fun _ hop _ => absurd (h1.symm.trans hop) (by decide)
          withdrawn := fun _ hop _ => absurd (h1.symm.trans hop) (by decide) }
    · exact .of_unchanged hdb (Or.inl h0)
  · refine atomic_servedCase locals packet db fun hok => ?_
    rw [caseDeposit, Prog.exec_map]
    obtain ⟨h0, i, hi, hdb⟩ | ⟨h0, hdb⟩ := accountDeposit_leaves
      (accountId (onto packet.payload locals.req)) (amount (onto packet.payload locals.req)) db
    · exact
        { unchanged := fun hn => absurd ⟨hok, Or.inr (Or.inl h2), h0⟩ hn
          created := fun _ hop _ => absurd hop h1
          deposited := fun _ _ _ => ⟨i, hi, hdb⟩
          withdrawn := fun _ hop _ => absurd (h2.symm.trans hop) (by decide) }
    · exact .of_unchanged hdb (Or.inl h0)
  · refine atomic_servedCase locals packet db fun hok => ?_
    rw [caseWithdraw, Prog.exec_map]
    obtain ⟨h0, i, hi, hdb⟩ | ⟨h0, hdb⟩ := accountWithdraw_leaves
      (accountId (onto packet.payload locals.req)) (amount (onto packet.payload locals.req)) db
    · exact
        { unchanged := fun hn => absurd ⟨hok, Or.inr (Or.inr h3), h0⟩ hn
          created := fun _ hop _ => absurd hop h1
          deposited := fun _ hop _ => absurd hop h2
          withdrawn := fun _ _ _ => ⟨i, hi, hdb⟩ }
    · exact .of_unchanged hdb (Or.inl h0)
  · exact atomic_servedCase locals packet db fun _ => .of_unchanged rfl (Or.inr ⟨h1, h2, h3⟩)
  · exact atomic_servedCase locals packet db fun _ => .of_unchanged rfl (Or.inr ⟨h1, h2, h3⟩)
  · refine atomic_servedCase locals packet db fun _ => .of_unchanged ?_ (Or.inr ⟨h1, h2, h3⟩)
    rw [caseBalance, Prog.exec_map]
    exact accountGetBalance_leaves _ db
  · exact .of_unchanged rfl (Or.inr ⟨h1, h2, h3⟩)

/-- **A packet is handled as a whole.** -/
theorem atomic_handled : Atomic packet (onto packet.payload locals.req)
    ((handled locals otp packet).exec db).1 db ((handled locals otp packet).exec db).2 := by
  rw [handled]
  split
  · exact atomic_served locals otp packet db
  · exact .of_unchanged rfl (Or.inl (BankingResponse.status_error _))

end Served

/-- **A packet with a length field in range is handled as a whole.**  Whatever the uninitialised
locals held and whatever the OTP service answers: the loop body does not fault, it releases every
mutex it acquired, and the table changes only as a successful operation changes it. -/
theorem handlePacket_atomic (locals : Locals) (otp : OtpService) (packet : BankingPacket)
    (h : packet.WellSized) (db : AccountDB Double) :
    ∃ prog response db', handlePacket locals otp packet = .ok prog ∧
      prog.solo db ∅ = some (response, db', ∅) ∧
      Atomic packet (onto packet.payload locals.req) response db db' := by
  exact ⟨_, _, _, handlePacket_eq h, (entry_handled locals otp packet).solo db,
    atomic_handled locals otp packet db⟩

/-- A request to open account `A` with 100, on an empty table. -/
theorem handlePacket_atomic_create :
    let packet := packed opCreateAccount
      (amountRequest (onto [65] fun _ => 0) ⟨0x4059000000000000, by decide⟩) 0
    ∃ prog response db',
      handlePacket ⟨fun _ => 0, Arith.zero, packet⟩ (fun _ _ => none) packet = .ok prog ∧
      prog.solo accountInit ∅ = some (response, db', ∅) ∧
      Atomic packet (onto packet.payload fun _ => 0) response accountInit db' := by
  intro packet
  have hlen := length_amountRequest (onto [65] fun _ => 0) ⟨0x4059000000000000, by decide⟩
  exact handlePacket_atomic _ _ packet
    (wellSized_packed _ _ (hlen.trans_le (by decide))) _

end BankingSystem
