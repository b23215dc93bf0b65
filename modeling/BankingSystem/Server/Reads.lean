import BankingSystem.Account.Reads
import BankingSystem.Server.Stale

/-!
# Server/Reads — `process_request` on the 20 bytes of `account_id`

The cases of `process_request` when `account_id` is a field of 20 bytes and not a string in memory
without an end, as in `Account/Reads` the operations they call.  Each case is the one of
`Server/Request` or a fault, and says when: the copy for the OTP service and the text of a response
read up to a NUL, wherever that is.
-/

namespace BankingSystem

open Bytes CString Interleave

/-! ## The cases of `process_request` -/

/-- The text `"… %s …"`, of the field. -/
def sprintIn (before : String) (field : List UInt8) (later : String) :
    Except Fault (List UInt8) := do
  return ascii before ++ (← stringIn field 0) ++ ascii later

/-- A response, and the table it leaves. -/
abbrev Served := BankingResponse × AccountDB Double

/-- `OP_CREATE_ACCOUNT`, on the field. -/
def caseCreateAccountIn (db : AccountDB Double) (field : List UInt8) (x : Double) :
    Except Fault Served := do
  let (result, db) ← accountCreateIn db field x
  let message ←
    if result.code = 0 then sprintIn "Account " field " created successfully"
    else if result.code = -4 then sprintIn "Account " field " already exists"
    else if result.code = -5 then .ok (ascii "Database full, cannot create account")
    else .ok (ascii "Failed to create account")
  return (.make result.code message x, db)

/-- `OP_DEPOSIT`, on the field. -/
def caseDepositIn (db : AccountDB Double) (newBalance : Double) (field : List UInt8) (x : Double) :
    Except Fault Served := do
  let (result, db) ← accountDepositIn db field x
  let message ←
    if result.code = 0 then
      (sprintIn " to account " field "").map (ascii "Deposited " ++ x.format ++ ·)
    else if result.code = -2 then sprintIn "Account " field " not found"
    else .ok (ascii "Deposit failed")
  return (.make result.code message (result.out.getD newBalance), db)

/-- `OP_WITHDRAW`, on the field. -/
def caseWithdrawIn (db : AccountDB Double) (newBalance : Double) (field : List UInt8)
    (x : Double) : Except Fault Served := do
  let (result, db) ← accountWithdrawIn db field x
  let message ←
    if result.code = 0 then
      (sprintIn " from account " field "").map (ascii "Withdrew " ++ x.format ++ ·)
    else if result.code = -2 then sprintIn "Account " field " not found"
    else if result.code = -3 then .ok (ascii "Insufficient funds")
    else .ok (ascii "Withdrawal failed")
  return (.make result.code message (result.out.getD newBalance), db)

/-- `OP_BALANCE`, on the field. -/
def caseBalanceIn (db : AccountDB Double) (balance : Double) (field : List UInt8) :
    Except Fault Served := do
  let (result, db) ← accountGetBalanceIn db field
  let message ←
    if result.code = 0 then
      (sprintIn "Account " field " balance: ").map (· ++ (result.out.getD balance).format)
    else if result.code = -2 then sprintIn "Account " field " not found"
    else .ok (ascii "Query failed")
  return (.make result.code message (result.out.getD balance), db)

/-- `call_otp_service`, on the field: without a connection it returns before it copies anything. -/
def callOtpServiceIn (conn : Option OtpService) (opcode : ℤ) (field : List UInt8)
    (otpIn : Option CharPtr) : Except Fault (Option (List UInt8)) :=
  match conn with
  | none => .ok none
  | some otp => do
    let account ← strncpyIn field 31 0
    return callOtpService otp opcode (onto account fun _ => 0) otpIn

/-- `OP_REQ_OTP`, on the field. -/
def caseReqOtpIn (db : AccountDB Double) (conn : Option OtpService) (field : List UInt8) :
    Except Fault Served := do
  match ← callOtpServiceIn conn otpOpGenerate field none with
  | some code => return (.make statusSuccess
      (ascii "OTP Generated: " ++ CString.text (code ++ [0, 0])) Arith.zero, db)
  | none => return (.text statusError "OTP Generation Failed", db)

/-- `OP_LOGIN`, on the field. -/
def caseLoginIn (db : AccountDB Double) (conn : Option OtpService) (field : List UInt8)
    (otpIn : CharPtr) : Except Fault Served := do
  if (← callOtpServiceIn conn otpOpVerify field (some otpIn)).isSome then
    return (.text statusSuccess "Login Successful", db)
  return (.text statusError "Invalid OTP", db)

/-- `account_id`, in the payload. -/
def BankingPacket.idField (packet : BankingPacket) : List UInt8 := packet.payload.take accountIdLen

/-- The switch of `process_request` on an accepted packet, with `account_id` read in its field. -/
def processRequestIn (db : AccountDB Double) (conn : Option OtpService) (newBalance : Double)
    (packet : BankingPacket) : Except Fault Served :=
  let opcode := ntoh packet.opCode
  let field := packet.idField
  if opcode = opCreateAccount then caseCreateAccountIn db field (amount packet.memory)
  else if opcode = opDeposit then caseDepositIn db newBalance field (amount packet.memory)
  else if opcode = opWithdraw then caseWithdrawIn db newBalance field (amount packet.memory)
  else if opcode = opReqOtp then caseReqOtpIn db conn field
  else if opcode = opLogin then caseLoginIn db conn field (loginOtp packet.memory)
  else if opcode = opBalance then caseBalanceIn db newBalance field
  else .ok (.text statusError "Unknown operation", db)

variable {field : List UInt8}

/-! ## What the cases read -/

theorem sprintIn_eq (before : String) (h : field.length = accountIdLen) (rest : CharPtr)
    (later : String) : sprintIn before field later =
      if 0 ∈ field then .ok (sprint before (onto field rest) later)
      else .error (.read accountIdLen) := by
  rw [sprintIn, stringIn_eq, Nat.zero_add, h]
  split
  · rename_i hmem
    have hstr : str (onto field rest) = CString.text field :=
      chars_onto hmem rest (h.trans_le (by decide))
    rw [ok_bind, sprint, hstr]
    rfl
  · rfl

section Cases

variable {db : AccountDB Double} {newBalance : Double} {req : CharPtr}
  (h : field.length = accountIdLen) (hreq : onto field req = req)

include h hreq

/-- Without a NUL nothing is found. -/
theorem find_of_notMem (hmem : 0 ∉ field) : accountFind db (accountId req) = none := by
  cases hf : accountFind db (accountId req) with
  | none => rfl
  | some i =>
    rw [accountId, ← hreq] at hf
    exact absurd (zero_mem_of_found h hf) hmem

theorem caseCreateAccountIn_eq : caseCreateAccountIn db field (amount req) =
    if 0 ∈ field ∨ Arith.lt (amount req) Arith.zero = true ∨ maxAccounts ≤ db.accountCount
    then .ok ((caseCreateAccount req).exec db) else .error (.read accountIdLen) := by
  rw [caseCreateAccountIn, accountCreateIn_eq db h req, hreq, caseCreateAccount, Prog.exec_map]
  simp only [sprintIn_eq _ h req, hreq, accountId]
  by_cases hmem : 0 ∈ field
  · simp only [hmem, true_or, if_true, ok_bind]
    split_ifs <;> simp [*, pure, Except.pure]
  · have hnone : accountFind db req = none := find_of_notMem h hreq hmem
    simp only [hmem, false_or, exec_accountCreate, hnone]
    by_cases hb : Arith.lt (amount req) Arith.zero = true
    · simp [hb, ok_bind, pure, Except.pure]
    · by_cases hc : db.accountCount < maxAccounts
      · simp [hb, hc, bind, Except.bind]
      · simp [hb, hc, ok_bind, pure, Except.pure]

theorem caseDepositIn_eq : caseDepositIn db newBalance field (amount req) =
    if 0 ∈ field ∨ Arith.le (amount req) Arith.zero = true
    then .ok ((caseDeposit newBalance req).exec db) else .error (.read accountIdLen) := by
  rw [caseDepositIn, accountDepositIn_eq db h req, hreq, caseDeposit, Prog.exec_map, ok_bind]
  simp only [sprintIn_eq _ h req, hreq, accountId]
  by_cases hmem : 0 ∈ field
  · simp only [hmem, true_or, if_true, Except.map, ok_bind]
    split_ifs <;> simp [*, pure, Except.pure, sprint]
  · have hnone : accountFind db req = none := find_of_notMem h hreq hmem
    simp only [hmem, false_or, exec_accountDeposit, hnone]
    by_cases hx : Arith.le (amount req) Arith.zero = true
    · simp [hx, pure, Except.pure, bind, Except.bind]
    · simp [hx, bind, Except.bind]

theorem caseWithdrawIn_eq : caseWithdrawIn db newBalance field (amount req) =
    if 0 ∈ field ∨ Arith.le (amount req) Arith.zero = true
    then .ok ((caseWithdraw newBalance req).exec db) else .error (.read accountIdLen) := by
  rw [caseWithdrawIn, accountWithdrawIn_eq db h req, hreq, caseWithdraw, Prog.exec_map, ok_bind]
  simp only [sprintIn_eq _ h req, hreq, accountId]
  by_cases hmem : 0 ∈ field
  · simp only [hmem, true_or, if_true, Except.map, ok_bind]
    split_ifs <;> simp [*, pure, Except.pure, sprint]
  · have hnone : accountFind db req = none := find_of_notMem h hreq hmem
    simp only [hmem, false_or, exec_accountWithdraw, hnone]
    by_cases hx : Arith.le (amount req) Arith.zero = true
    · simp [hx, pure, Except.pure, bind, Except.bind]
    · simp [hx, bind, Except.bind]

theorem caseBalanceIn_eq : caseBalanceIn db newBalance field =
    if 0 ∈ field then .ok ((caseBalance newBalance req).exec db)
    else .error (.read accountIdLen) := by
  rw [caseBalanceIn, accountGetBalanceIn_eq db h req, hreq, caseBalance, Prog.exec_map, ok_bind]
  simp only [sprintIn_eq _ h req, hreq, accountId]
  by_cases hmem : 0 ∈ field
  · simp only [hmem, if_true, Except.map, ok_bind]
    split_ifs <;> simp [*, pure, Except.pure, sprint]
  · have hnone : accountFind db req = none := find_of_notMem h hreq hmem
    simp [hmem, exec_accountGetBalance, hnone, bind, Except.bind]

end Cases

/-- The service behind a connection, if there is one. -/
def service (conn : Option OtpService) : OtpService := conn.getD fun _ _ => none

/-- **`call_otp_service` copies 31 bytes, unless there is a NUL before.** -/
theorem callOtpServiceIn_eq (conn : Option OtpService) (opcode : ℤ)
    (h : field.length = accountIdLen) (rest : CharPtr) (otpIn : Option CharPtr) :
    callOtpServiceIn conn opcode field otpIn = if 0 ∈ field ∨ conn = none
      then .ok (callOtpService (service conn) opcode (onto field rest) otpIn)
      else .error (.read accountIdLen) := by
  cases conn with
  | none => simp [callOtpServiceIn, callOtpService, service]
  | some otp =>
    have hshort : ¬ 31 ≤ field.length := by
      rw [h]
      decide
    rw [callOtpServiceIn, strncpyIn_eq field 31 0 rest, Nat.zero_add, h]
    by_cases hmem : 0 ∈ field
    · have hkey : otpIpcFields (onto (strncpy (onto field rest) 31) fun _ => 0) otpIn =
          otpIpcFields (onto field rest) otpIn := by
        rw [otpIpcFields, otpIpcFields, ofPtr_strncpy]
      simp only [hmem, true_or, if_true, ok_bind]
      rw [callOtpService, hkey]
      rfl
    · simp only [hmem, h ▸ hshort, false_or, if_false, reduceCtorEq]
      rfl

theorem caseReqOtpIn_eq (db : AccountDB Double) (conn : Option OtpService)
    (h : field.length = accountIdLen) {req : CharPtr} (hreq : onto field req = req) :
    caseReqOtpIn db conn field = if 0 ∈ field ∨ conn = none
      then .ok ((caseReqOtp (service conn) req).exec db) else .error (.read accountIdLen) := by
  rw [caseReqOtpIn, callOtpServiceIn_eq conn _ h req, hreq, caseReqOtp, Prog.exec_ret,
    requestOtpGeneration, accountId]
  split
  · rw [ok_bind]
    split <;> simp [*, pure, Except.pure]
  · rfl

theorem caseLoginIn_eq (db : AccountDB Double) (conn : Option OtpService)
    (h : field.length = accountIdLen) {req otpIn : CharPtr} (hreq : onto field req = req)
    (hotp : CharArray.ofPtr otpIn 7 = CharArray.ofPtr (loginOtp req) 7) :
    caseLoginIn db conn field otpIn = if 0 ∈ field ∨ conn = none
      then .ok ((caseLogin (service conn) req).exec db) else .error (.read accountIdLen) := by
  have hcall : callOtpService (service conn) otpOpVerify req (some otpIn) =
      callOtpService (service conn) otpOpVerify req (some (loginOtp req)) := by
    rw [callOtpService, callOtpService, otpIpcFields, otpIpcFields, Option.elim_some,
      Option.elim_some, hotp]
  rw [caseLoginIn, callOtpServiceIn_eq conn _ h req, hreq, caseLogin, Prog.exec_ret,
    verifyOtpRemote, accountId, hcall]
  split
  · rw [ok_bind]
    split <;> simp [*, pure, Except.pure]
  · rfl

end BankingSystem
