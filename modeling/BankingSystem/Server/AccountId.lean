import BankingSystem.Common.RoundTrip
import BankingSystem.Server.Reads

/-!
# Server/AccountId — what is read of the 20 bytes of `account_id`

A whole request on the field (`Server/Reads`).  The search of the account table and the copy into a
new account never leave the field; the copy for the OTP service, the response and the log do,
whenever they are reached and there is no NUL (`idInside_iff`).
-/

namespace BankingSystem

open Bytes CString Interleave

/-! ## The request -/

/-- The size of the request struct of an operation. -/
def requestSize (opcode : ℕ) : Option ℕ :=
  if opcode = opCreateAccount ∨ opcode = opDeposit ∨ opcode = opWithdraw then
    some sizeofAmountRequest
  else if opcode = opReqOtp ∨ opcode = opBalance then some sizeofAccountRequest
  else if opcode = opLogin then some sizeofLoginRequest
  else none

/-- **The packet carries a whole request**: `unpack_request` accepts it for the struct of its
operation, and the payload fills the struct. -/
structure BankingPacket.Whole (packet : BankingPacket) : Prop where
  size : requestSize (ntoh packet.opCode) = some packet.payload.length
  unpack : ∀ dest : List UInt8, dest.length = packet.payload.length →
    unpackRequest packet dest dest.length = .ok (0, packet.payload)

/-- **The request is over before the end of the id is needed**: an account is refused for its
balance or because the table is full, an amount is not positive, or there is no OTP service. -/
def EndsEarly (db : AccountDB Double) (conn : Option OtpService) (packet : BankingPacket) : Prop :=
  (ntoh packet.opCode = opCreateAccount ∧
    (Arith.lt (amount packet.memory) Arith.zero = true ∨ maxAccounts ≤ db.accountCount)) ∨
  ((ntoh packet.opCode = opDeposit ∨ ntoh packet.opCode = opWithdraw) ∧
    Arith.le (amount packet.memory) Arith.zero = true) ∨
  ((ntoh packet.opCode = opReqOtp ∨ ntoh packet.opCode = opLogin) ∧ conn = none)

instance (db : AccountDB Double) (conn : Option OtpService) (packet : BankingPacket) :
    Decidable (EndsEarly db conn packet) :=
  inferInstanceAs (Decidable ((_ ∧ (_ ∨ _)) ∨ ((_ ∨ _) ∧ _) ∨ ((_ ∨ _) ∧ _)))

section Whole

variable {packet : BankingPacket}

theorem BankingPacket.Whole.wellSized (h : packet.Whole) : packet.WellSized := by
  by_contra hsize
  have hunpack := h.unpack packet.payload rfl
  rw [unpackRequest, BankingPacket.verify_fault hsize] at hunpack
  cases hunpack

theorem BankingPacket.Whole.checksumOk (h : packet.Whole) : packet.ChecksumOk :=
  (h.wellSized.unpack_accepts (h.unpack packet.payload rfl)).1

theorem BankingPacket.Whole.accountIdLen_le (h : packet.Whole) :
    accountIdLen ≤ packet.payload.length := by
  have hsize := h.size
  rw [requestSize] at hsize
  split_ifs at hsize <;> rw [← Option.some.inj hsize] <;> decide

theorem BankingPacket.Whole.length_idField (h : packet.Whole) :
    packet.idField.length = accountIdLen :=
  List.length_take_of_le h.accountIdLen_le

variable {db : AccountDB Double} {conn : Option OtpService} {locals : Locals}

/-- Memory from the struct on begins with the field. -/
theorem onto_idField (packet : BankingPacket) (rest : CharPtr) :
    onto packet.idField (onto packet.payload rest) = onto packet.payload rest := by
  have hsplit := onto_append packet.idField (packet.payload.drop accountIdLen) rest
  rw [BankingPacket.idField, List.take_append_drop] at hsplit
  exact hsplit.symm

/-- The code of a `LoginRequest` is long enough for what is copied of it. -/
theorem ofPtr_loginOtp (h : packet.payload.length = sizeofLoginRequest) (rest rest' : CharPtr) :
    CharArray.ofPtr (loginOtp (onto packet.payload rest)) 7 =
      CharArray.ofPtr (loginOtp (onto packet.payload rest')) 7 := by
  refine ofPtr_congr fun i hi => ?_
  have hlt : i + accountIdLen < packet.payload.length := by
    rw [h, accountIdLen, sizeofLoginRequest]
    omega
  change onto packet.payload rest (i + accountIdLen) = onto packet.payload rest' (i + accountIdLen)
  rw [onto_of_lt hlt, onto_of_lt hlt]

/-! ### Operation by operation -/

section Operations

variable {newBalance : Double}

theorem processRequestIn_createAccount (hop : ntoh packet.opCode = opCreateAccount) :
    processRequestIn db conn newBalance packet =
      caseCreateAccountIn db packet.idField (amount packet.memory) := if_pos hop

theorem processRequestIn_deposit (hop : ntoh packet.opCode = opDeposit) :
    processRequestIn db conn newBalance packet =
      caseDepositIn db newBalance packet.idField (amount packet.memory) := by
  rw [processRequestIn, hop]
  rfl

theorem processRequestIn_withdraw (hop : ntoh packet.opCode = opWithdraw) :
    processRequestIn db conn newBalance packet =
      caseWithdrawIn db newBalance packet.idField (amount packet.memory) := by
  rw [processRequestIn, hop]
  rfl

theorem processRequestIn_reqOtp (hop : ntoh packet.opCode = opReqOtp) :
    processRequestIn db conn newBalance packet = caseReqOtpIn db conn packet.idField := by
  rw [processRequestIn, hop]
  rfl

theorem processRequestIn_login (hop : ntoh packet.opCode = opLogin) :
    processRequestIn db conn newBalance packet =
      caseLoginIn db conn packet.idField (loginOtp packet.memory) := by
  rw [processRequestIn, hop]
  rfl

theorem processRequestIn_balance (hop : ntoh packet.opCode = opBalance) :
    processRequestIn db conn newBalance packet = caseBalanceIn db newBalance packet.idField := by
  rw [processRequestIn, hop]
  rfl

theorem endsEarly_createAccount (hop : ntoh packet.opCode = opCreateAccount) :
    EndsEarly db conn packet ↔
      Arith.lt (amount packet.memory) Arith.zero = true ∨ maxAccounts ≤ db.accountCount := by
  simp [EndsEarly, hop, opCreateAccount, opDeposit, opWithdraw, opReqOtp, opLogin]

theorem endsEarly_amount (hop : ntoh packet.opCode = opDeposit ∨ ntoh packet.opCode = opWithdraw) :
    EndsEarly db conn packet ↔ Arith.le (amount packet.memory) Arith.zero = true := by
  obtain hop | hop := hop <;>
    simp [EndsEarly, hop, opCreateAccount, opDeposit, opWithdraw, opReqOtp, opLogin]

theorem endsEarly_otp (hop : ntoh packet.opCode = opReqOtp ∨ ntoh packet.opCode = opLogin) :
    EndsEarly db conn packet ↔ conn = none := by
  obtain hop | hop := hop <;>
    simp [EndsEarly, hop, opCreateAccount, opDeposit, opWithdraw, opReqOtp, opLogin]

theorem not_endsEarly_balance (hop : ntoh packet.opCode = opBalance) :
    ¬ EndsEarly db conn packet := by
  simp [EndsEarly, hop, opCreateAccount, opDeposit, opWithdraw, opBalance, opReqOtp, opLogin]

end Operations

/-- **The request on the field is the request in memory, or a fault.** -/
theorem processRequestIn_eq (h : packet.Whole) (db : AccountDB Double) (conn : Option OtpService)
    (locals : Locals) : processRequestIn db conn locals.newBalance packet =
      if 0 ∈ packet.idField ∨ EndsEarly db conn packet
      then .ok ((served locals (service conn) packet).exec db)
      else .error (.read accountIdLen) := by
  have hlen := h.length_idField
  have hreq := onto_idField packet locals.req
  have hok := h.checksumOk
  have hamount (hsize : packet.payload.length = sizeofAmountRequest) :
      amount packet.memory = amount (onto packet.payload locals.req) :=
    amount_congr hsize _ _
  have hsize := h.size
  rw [requestSize] at hsize
  split_ifs at hsize with hop hop hop <;> have hfits := (Option.some.inj hsize).symm
  · obtain hop | hop | hop := hop
    · simp only [endsEarly_createAccount hop]
      rw [served_createAccount hop, servedCase_of_fits hok hfits.le,
        processRequestIn_createAccount hop, hamount hfits, caseCreateAccountIn_eq hlen hreq]
    · simp only [endsEarly_amount (Or.inl hop)]
      rw [served_deposit hop, servedCase_of_fits hok hfits.le, processRequestIn_deposit hop,
        hamount hfits, caseDepositIn_eq hlen hreq]
    · simp only [endsEarly_amount (Or.inr hop)]
      rw [served_withdraw hop, servedCase_of_fits hok hfits.le, processRequestIn_withdraw hop,
        hamount hfits, caseWithdrawIn_eq hlen hreq]
  · obtain hop | hop := hop
    · simp only [endsEarly_otp (Or.inl hop)]
      rw [served_reqOtp hop, servedCase_of_fits hok hfits.le, processRequestIn_reqOtp hop,
        caseReqOtpIn_eq db conn hlen hreq]
    · simp only [not_endsEarly_balance hop, or_false]
      rw [served_balance hop, servedCase_of_fits hok hfits.le, processRequestIn_balance hop,
        caseBalanceIn_eq hlen hreq]
  · have hotp : CharArray.ofPtr (loginOtp packet.memory) 7 =
        CharArray.ofPtr (loginOtp (onto packet.payload locals.req)) 7 :=
      ofPtr_loginOtp hfits _ _
    simp only [endsEarly_otp (Or.inr hop)]
    rw [served_login hop, servedCase_of_fits hok hfits.le, processRequestIn_login hop,
      caseLoginIn_eq db conn hlen hreq hotp]

end Whole

/-! ## What depends on the id -/

/-- `req.account`, as `call_otp_service` sends it. -/
def otpKey (account : CharPtr) : List UInt8 := (CharArray.ofPtr account 31).bytes

/-- **The reads of `account_id` stay in its 20 bytes**: no read of the request leaves the field, and
what is done is what is done in every memory; the search, the id that is stored, and the account the
OTP service is asked for depend on the field alone. -/
structure IdInside (db : AccountDB Double) (conn : Option OtpService) (newBalance : Double)
    (packet : BankingPacket) : Prop where
  reads : ∃ out, processRequestIn db conn newBalance packet = .ok out ∧
    ∀ locals : Locals, locals.newBalance = newBalance →
      ∃ prog, dispatch locals (service conn) packet = .ok prog ∧ prog.exec db = out
  tableKey : ∀ rest rest', accountFind db (onto packet.idField rest) =
      accountFind db (onto packet.idField rest') ∧
    storedId (onto packet.idField rest) = storedId (onto packet.idField rest')
  otpAccount : ntoh packet.opCode = opReqOtp ∨ ntoh packet.opCode = opLogin → conn.isSome →
    ∀ rest rest', otpKey (onto packet.idField rest) = otpKey (onto packet.idField rest')

/-- **The reads of `account_id` stay in its 20 bytes exactly when there is a NUL among them, or the
request ends early.** -/
theorem idInside_iff (db : AccountDB Double) (conn : Option OtpService) (newBalance : Double)
    (packet : BankingPacket) (h : packet.Whole) :
    IdInside db conn newBalance packet ↔ 0 ∈ packet.idField ∨ EndsEarly db conn packet := by
  constructor
  · intro hin
    obtain ⟨out, hout, -⟩ := hin.reads
    by_contra hno
    have hrun := processRequestIn_eq h db conn ⟨fun _ => 0, newBalance, packet⟩
    rw [if_neg hno] at hrun
    cases hout.symm.trans hrun
  · intro hcond
    refine ⟨?_, fun rest rest' => ⟨?_, ?_⟩, fun hop hconn rest rest' => ?_⟩
    · refine ⟨_, (processRequestIn_eq h db conn ⟨fun _ => 0, newBalance, packet⟩).trans
        (if_pos hcond), fun locals hlocals => ⟨_, dispatch_eq h.wellSized, ?_⟩⟩
      have hrun := processRequestIn_eq h db conn locals
      have hrun' := processRequestIn_eq h db conn ⟨fun _ => 0, newBalance, packet⟩
      rw [if_pos hcond] at hrun hrun'
      rw [hlocals] at hrun
      exact Except.ok.inj (hrun.symm.trans hrun')
    · have hfind := accountFindIn_eq db h.length_idField rest
      exact Except.ok.inj (hfind.symm.trans (accountFindIn_eq db h.length_idField rest'))
    · refine ofPtr_congr fun i hi => ?_
      have hlt : i < packet.idField.length := by
        rw [h.length_idField]
        exact hi.trans (by decide)
      rw [onto_of_lt hlt, onto_of_lt hlt]
    · have hmem : 0 ∈ packet.idField := hcond.resolve_right fun hend => by
        rw [(endsEarly_otp hop).mp hend] at hconn
        exact absurd hconn Bool.false_ne_true
      rw [otpKey, otpKey, (SameString.of_mem hmem rest rest').ofPtr_eq]

/-- A packet packed of a whole request. -/
theorem whole_packed {opcode : ℕ} {data : List UInt8} (rand : ℕ) (hop : opcode < 2 ^ 16)
    (hlen : requestSize opcode = some data.length) (h : data.length ≤ maxDataSize) :
    (packed opcode data rand).Whole where
  size := by
    rw [payload_packed opcode rand h]
    change requestSize (ntoh (hton 2 opcode)) = _
    have hfits : opcode < 256 ^ 2 := hop
    rw [ntoh_hton, Nat.mod_eq_of_lt hfits, hlen]
  unpack dest hdest := by
    rw [(wellSized_packed opcode rand h).unpack_eq]
    rw [if_pos ⟨checksumOk_packed opcode rand h, hdest.ge⟩, hdest.symm, List.drop_length,
      List.append_nil]

/-- A query with the id `A` reads inside the field. -/
theorem idInside_query :
    IdInside accountInit none Arith.zero (packed opBalance (65 :: List.replicate 19 0) 0) :=
  (idInside_iff accountInit none Arith.zero _
    (whole_packed 0 (by decide) (by decide) (by decide))).mpr (Or.inl (by decide +kernel))

/-- With 20 bytes `A` a request for a code reads behind the field, and with other bytes there it is
for another account. -/
theorem not_idInside :
    let packet := packed opReqOtp (List.replicate 20 65) 0
    ¬ IdInside accountInit (some fun _ _ => none) Arith.zero packet ∧
      otpKey (onto packet.idField fun _ => 0) ≠ otpKey (onto packet.idField fun _ => 49) := by
  intro packet
  have hwhole : packet.Whole := whole_packed 0 (by decide) (by decide) (by decide)
  refine ⟨fun h => ?_, by decide +kernel⟩
  exact absurd ((idInside_iff accountInit _ Arith.zero packet hwhole).mp h) (by decide +kernel)

end BankingSystem
