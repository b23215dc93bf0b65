import BankingSystem.Client.Login
import BankingSystem.Common.RoundTrip
import BankingSystem.Machinery.Field

/-!
# Client/Flow — one flow of the load test (`stress_test/stress_client.c`)

A flow is four requests: `worker_thread` creates an account, asks for an OTP, logs in with it and
deposits.  The transport and the server are arbitrary: every call of `perform_request` comes with
what `tls_write` and `tls_read` return and with the packet that is there then (`Attempt`).  A call
returns 0 exactly when it was `Answered`, and the flow is `Completed` when all its steps went
through; the code itself does not look at the outcome of the last one.
-/

namespace BankingSystem

open Bytes CString

/-! ## One request -/

/-- **What a call of `perform_request` meets**: the memory `req_packet` takes, `rand()` for its
number, what `tls_write` and `tls_read` return, and `resp_packet` after that. -/
structure Attempt where
  reqPacket : BankingPacket
  rand : ℕ
  written : ℤ
  bytes : ℤ
  respPacket : BankingPacket

/-- `perform_request`, with the 268 bytes of `response`: what it returns, and `response` after. -/
def performRequest (x : Attempt) (opcode : ℕ) (reqData response : List UInt8) :
    Except Fault (ℤ × List UInt8) := do
  let (packed, _) ← packRequest x.reqPacket opcode reqData x.rand
  if packed ≠ 0 then return (-1, response)
  if x.written ≤ 0 then return (-1, response)
  if x.bytes ≤ 0 then return (-1, response)
  unpackRequest x.respPacket response sizeofBankingResponse

/-- `response.status`. -/
def statusIn (response : List UInt8) : ℤ := asInt (le (response.take 4))

/-- The 256 bytes of `response.message`. -/
def messageIn (response : List UInt8) : List UInt8 := (response.drop 4).take 256

/-! ## One flow -/

/-- **What one iteration meets**: its four requests, and the memory `response` takes. -/
structure Flow where
  create : Attempt
  otp : Attempt
  login : Attempt
  deposit : Attempt
  response : Block sizeofBankingResponse

/-- `1000.0`. -/
def double1000 : Double := ⟨0x408F400000000000, by decide⟩

/-- `100.0`. -/
def double100 : Double := ⟨0x4059000000000000, by decide⟩

/-- `strncpy(otp_code, ptr + 2, 8)` for the first `": "` of the message, if there is one. -/
def findOtp (message : List UInt8) : Except Fault (Option (List UInt8)) := do
  match ← strstrIn (ascii ": ") message 0 with
  | some ptr => return some (← strncpyIn (ptr.drop 2) 8 (message.length - (ptr.drop 2).length))
  | none => return none

/-- The body of the loop, on `otp_code`. -/
def runFlow (account : CharArray accountIdLen) (junk : CharPtr) (otpCode : List UInt8) (f : Flow) :
    Except Fault (List UInt8) := do
  let id := accountIdField account junk
  let (created, response) ← performRequest f.create opCreateAccount (id ++ double1000.bytes)
    f.response.toList
  if created ≠ 0 then return otpCode
  let (asked, response) ← performRequest f.otp opReqOtp id response
  if asked ≠ 0 ∨ statusIn response ≠ statusSuccess then return otpCode
  match ← findOtp (messageIn response) with
  | none => return otpCode
  | some code =>
    let otpCode := code ++ 0 :: otpCode.drop 9
    let (loggedIn, response) ← performRequest f.login opLogin
      (id ++ strncpy (onto otpCode junk) 10) response
    if loggedIn ≠ 0 ∨ statusIn response ≠ statusSuccess then return otpCode
    let _ ← performRequest f.deposit opDeposit (id ++ double100.bytes) response
    return otpCode

/-! ## The code in the message -/

/-- **A message with a NUL** is searched and copied from without leaving it. -/
theorem findOtp_of_mem {message : List UInt8} (h : 0 ∈ message) (rest : CharPtr) :
    findOtp message = .ok ((strstr (ascii ": ") message).map fun ptr =>
      strncpy ((onto ptr rest).add 2) 8) := by
  rw [findOtp, strstrIn_of_mem _ h, ok_bind]
  cases hptr : strstr (ascii ": ") message with
  | none => rfl
  | some ptr =>
    obtain ⟨later, rfl⟩ := prefix_of_strstr hptr
    have hmem : 0 ∈ later :=
      (List.mem_append.mp (mem_of_strstr hptr h)).resolve_left (by decide)
    have hadd := add_onto (ascii ": ") later rest
    rw [show (ascii ": ").length = 2 from rfl] at hadd
    have hdrop : (ascii ": " ++ later).drop 2 = later := rfl
    dsimp only
    rw [hdrop, strncpyIn_eq later 8 _ (rest.add 2), if_pos (Or.inl hmem), ok_bind, Option.map_some,
      hadd]
    rfl

/-- The login of the flow is the one of `workerThreadLogin`. -/
theorem workerThreadLogin_eq {response : BankingResponse} (h : response.status = statusSuccess)
    {code : List UInt8} (hcode : findOtp response.message.bytes = .ok (some code))
    (account : CharArray accountIdLen) (last : UInt8) (junk : CharPtr) :
    workerThreadLogin account response last junk =
      some (accountIdField account junk ++ strncpy (onto (code ++ 0 :: [last]) junk) 10) := by
  rw [findOtp_of_mem response.message.nul_mem junk, Except.ok.injEq, Option.map_eq_some_iff]
    at hcode
  obtain ⟨ptr, hptr, rfl⟩ := hcode
  rw [workerThreadLogin, if_pos h, hptr]
  rfl

/-! ## The flows that go through -/

namespace Attempt

variable (x : Attempt) {data response : List UInt8}

/-- The request was written, and a packet was read whose payload is a response or the first part of
one. -/
structure Answered : Prop where
  written : 0 < x.written
  read : 0 < x.bytes
  wellSized : x.respPacket.WellSized
  checksumOk : x.respPacket.ChecksumOk
  fits : x.respPacket.payload.length ≤ sizeofBankingResponse

instance : Decidable x.Answered :=
  decidable_of_iff (0 < x.written ∧ 0 < x.bytes ∧ x.respPacket.WellSized ∧
      x.respPacket.ChecksumOk ∧ x.respPacket.payload.length ≤ sizeofBankingResponse)
    ⟨fun ⟨h₁, h₂, h₃, h₄, h₅⟩ => ⟨h₁, h₂, h₃, h₄, h₅⟩,
      fun h => ⟨h.written, h.read, h.wellSized, h.checksumOk, h.fits⟩⟩

/-- `response` with the payload in it. -/
def after (response : List UInt8) : List UInt8 :=
  x.respPacket.payload ++ response.drop x.respPacket.payload.length

theorem performRequest_eq (opcode : ℕ) (hdata : data.length ≤ maxDataSize) :
    performRequest x opcode data response =
      if 0 < x.written ∧ 0 < x.bytes
        then unpackRequest x.respPacket response sizeofBankingResponse else .ok (-1, response) := by
  rw [performRequest, packRequest_eq x.reqPacket opcode x.rand hdata, ok_bind]
  by_cases hw : x.written ≤ 0
  · have hno : ¬ (0 < x.written ∧ 0 < x.bytes) := fun h => absurd h.1 (not_lt.mpr hw)
    simp only [if_neg hno, if_pos hw]
    rfl
  by_cases hb : x.bytes ≤ 0
  · have hno : ¬ (0 < x.written ∧ 0 < x.bytes) := fun h => absurd h.2 (not_lt.mpr hb)
    simp only [if_neg hno, if_neg hw, if_pos hb]
    rfl
  · simp only [if_pos (And.intro (not_le.mp hw) (not_le.mp hb)), if_neg hw, if_neg hb]
    rfl

variable {x}

/-- **`perform_request` on an answered request** returns 0 and has the payload in the response. -/
theorem Answered.performRequest_eq (h : x.Answered) (opcode : ℕ)
    (hdata : data.length ≤ maxDataSize) (hresponse : response.length = sizeofBankingResponse) :
    performRequest x opcode data response = .ok (0, x.after response) := by
  rw [Attempt.performRequest_eq x opcode hdata, if_pos ⟨h.written, h.read⟩, ← hresponse,
    h.wellSized.unpack_eq, if_pos ⟨h.checksumOk, hresponse ▸ h.fits⟩, after]

/-- …and it returns 0 on no other. -/
theorem performRequest_eq_zero_iff (opcode : ℕ) (hdata : data.length ≤ maxDataSize)
    (hresponse : response.length = sizeofBankingResponse) :
    (∃ out, performRequest x opcode data response = .ok (0, out)) ↔ x.Answered := by
  refine ⟨fun ⟨out, hout⟩ => ?_, fun h => ⟨_, h.performRequest_eq opcode hdata hresponse⟩⟩
  rw [performRequest_eq x opcode hdata] at hout
  split at hout
  · rename_i hpos
    rw [← hresponse] at hout
    by_cases hsize : x.respPacket.WellSized
    · obtain ⟨hsum, hfits, -⟩ := hsize.unpack_accepts hout
      exact ⟨hpos.1, hpos.2, hsize, hsum, hresponse ▸ hfits⟩
    · rw [unpackRequest, BankingPacket.verify_fault hsize] at hout
      cases hout
  · have hstatus : (-1 : ℤ) = 0 := congrArg Prod.fst (Except.ok.inj hout)
    exact absurd hstatus (by decide)

theorem Answered.length_after (h : x.Answered)
    (hresponse : response.length = sizeofBankingResponse) :
    (x.after response).length = sizeofBankingResponse := by
  have hfits := h.fits
  rw [after, List.length_append, List.length_drop, hresponse]
  omega

end Attempt

/-! ### The requests fit into a packet -/

theorem length_idAmount_le (account : CharArray accountIdLen) (junk : CharPtr) (x : Double) :
    (accountIdField account junk ++ x.bytes).length ≤ maxDataSize := by
  rw [List.length_append, accountIdField, length_strncpy, Double.bytes, length_toLe]
  decide

theorem length_idOtp_le (account : CharArray accountIdLen) (junk : CharPtr) (otp : CharPtr) :
    (accountIdField account junk ++ strncpy otp 10).length ≤ maxDataSize := by
  rw [List.length_append, accountIdField, length_strncpy, length_strncpy]
  decide

theorem length_id_le (account : CharArray accountIdLen) (junk : CharPtr) :
    (accountIdField account junk).length ≤ maxDataSize := by
  rw [accountIdField, length_strncpy]
  decide

/-- A flow whose first request is not written ends there. -/
theorem runFlow_of_not_written {f : Flow} (h : f.create.written ≤ 0)
    (account : CharArray accountIdLen) (junk : CharPtr) (otpCode : List UInt8) :
    runFlow account junk otpCode f = .ok otpCode := by
  have hno : ¬ (0 < f.create.written ∧ 0 < f.create.bytes) := fun hpos =>
    absurd hpos.1 (not_lt.mpr h)
  rw [runFlow]
  dsimp only
  rw [f.create.performRequest_eq _ (length_idAmount_le ..), if_neg hno]
  rfl

namespace Flow

variable (f : Flow)

/-- `response` when the account was created… -/
def afterCreate : List UInt8 := f.create.after f.response.toList

/-- …when the OTP was issued… -/
def afterOtp : List UInt8 := f.otp.after f.afterCreate

/-- …after the login… -/
def afterLogin : List UInt8 := f.login.after f.afterOtp

/-- …and after the deposit. -/
def afterDeposit : List UInt8 := f.deposit.after f.afterLogin

/-- There is a code to be read in the message. -/
def issuesIn (message : List UInt8) : Bool :=
  match findOtp message with
  | .ok (some _) => true
  | _ => false

/-- **All steps of the flow went through**: the creation was answered, an OTP was issued, and the
login and the deposit were answered with `STATUS_SUCCESS`. -/
structure Completed : Prop where
  created : f.create.Answered
  asked : f.otp.Answered ∧ statusIn f.afterOtp = statusSuccess
  issued : issuesIn (messageIn f.afterOtp) = true
  loggedIn : f.login.Answered ∧ statusIn f.afterLogin = statusSuccess
  deposited : f.deposit.Answered ∧ statusIn f.afterDeposit = statusSuccess

instance : Decidable f.Completed :=
  decidable_of_iff (f.create.Answered ∧ (f.otp.Answered ∧ statusIn f.afterOtp = statusSuccess) ∧
      issuesIn (messageIn f.afterOtp) = true ∧
      (f.login.Answered ∧ statusIn f.afterLogin = statusSuccess) ∧
      (f.deposit.Answered ∧ statusIn f.afterDeposit = statusSuccess))
    ⟨fun ⟨h₁, h₂, h₃, h₄, h₅⟩ => ⟨h₁, h₂, h₃, h₄, h₅⟩,
      fun h => ⟨h.created, h.asked, h.issued, h.loggedIn, h.deposited⟩⟩

variable {f}

theorem exists_findOtp {message : List UInt8} (h : issuesIn message = true) :
    ∃ code, findOtp message = .ok (some code) := by
  rw [issuesIn] at h
  split at h
  · exact ⟨_, ‹_›⟩
  · exact absurd h Bool.false_ne_true

/-- **A flow that goes through leaves nothing undefined.** -/
theorem Completed.runFlow (h : f.Completed) (account : CharArray accountIdLen) (junk : CharPtr)
    (otpCode : List UInt8) : ∃ otpCode', runFlow account junk otpCode f = .ok otpCode' := by
  have hcreated : f.afterCreate.length = sizeofBankingResponse :=
    h.created.length_after f.response.toList_length
  have hasked : f.afterOtp.length = sizeofBankingResponse := h.asked.1.length_after hcreated
  have hlogged : f.afterLogin.length = sizeofBankingResponse := h.loggedIn.1.length_after hasked
  have hzero : ¬ (0 : ℤ) ≠ 0 := fun hne => hne rfl
  have hissued : ¬ ((0 : ℤ) ≠ 0 ∨ statusIn f.afterOtp ≠ statusSuccess) :=
    not_or_intro hzero (not_not.mpr h.asked.2)
  have hin : ¬ ((0 : ℤ) ≠ 0 ∨ statusIn f.afterLogin ≠ statusSuccess) :=
    not_or_intro hzero (not_not.mpr h.loggedIn.2)
  obtain ⟨code, hcode⟩ := exists_findOtp h.issued
  refine ⟨code ++ 0 :: otpCode.drop 9, ?_⟩
  rw [BankingSystem.runFlow]
  dsimp only
  -- the account
  rw [h.created.performRequest_eq _ (length_idAmount_le ..) f.response.toList_length, ok_bind]
  dsimp only
  rw [if_neg hzero]
  -- the OTP, and the code in its message
  change (performRequest f.otp opReqOtp _ f.afterCreate >>= _) = _
  rw [h.asked.1.performRequest_eq _ (length_id_le ..) hcreated, ok_bind]
  change (if (0 : ℤ) ≠ 0 ∨ statusIn f.afterOtp ≠ statusSuccess then _ else
    findOtp (messageIn f.afterOtp) >>= _) = _
  rw [if_neg hissued, hcode, ok_bind]
  -- the login
  change (performRequest f.login opLogin _ f.afterOtp >>= _) = _
  rw [h.loggedIn.1.performRequest_eq _ (length_idOtp_le ..) hasked, ok_bind]
  change (if (0 : ℤ) ≠ 0 ∨ statusIn f.afterLogin ≠ statusSuccess then _ else
    performRequest f.deposit opDeposit _ f.afterLogin >>= _) = _
  -- the deposit
  rw [if_neg hin, h.deposited.1.performRequest_eq _ (length_idAmount_le ..) hlogged]
  rfl

end Flow

end BankingSystem
