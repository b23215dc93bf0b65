import BankingSystem.Common.Account
import BankingSystem.Common.Double
import BankingSystem.Common.Protocol
import BankingSystem.Otp.Server

/-!
# Server/Request — one request of a client (`server/banking_server.c`)

`processRequest` unpacks the payload into a local struct, runs the account operation or asks the OTP
service, and packs a response.  What C leaves uninitialised is a parameter (`Locals`): the struct,
which a short payload fills in part, and the variable an account operation stores its balance in.
Strings are read from the struct on, to the first NUL, wherever that is.

The operations on the shared table are programs, so the whole request is one: its atomic steps are
those of the one account operation it calls.
-/

namespace BankingSystem

open Bytes CString Interleave

/-! ## Constants -/

/-- `OP_CREATE_ACCOUNT`. -/
def opCreateAccount : ℕ := 0x0001

/-- `OP_DEPOSIT`. -/
def opDeposit : ℕ := 0x0002

/-- `OP_WITHDRAW`. -/
def opWithdraw : ℕ := 0x0003

/-- `OP_BALANCE`. -/
def opBalance : ℕ := 0x0004

/-- `OP_REQ_OTP`. -/
def opReqOtp : ℕ := 0x0005

/-- `OP_LOGIN`. -/
def opLogin : ℕ := 0x0006

/-- `STATUS_SUCCESS`. -/
def statusSuccess : ℤ := 0

/-- `STATUS_ERROR`. -/
def statusError : ℤ := -1

/-! ## Requests and responses -/

/-- `account_id`, the first field of every request struct. -/
def accountId (req : CharPtr) : CharPtr := req

/-- `initial_balance` and `amount`, the eight bytes after the id. -/
def amount (req : CharPtr) : Double := .load (req.add accountIdLen)

/-- `LoginRequest.otp`, the ten bytes after the id. -/
def loginOtp (req : CharPtr) : CharPtr := req.add accountIdLen

/-- The size of `CreateAccountRequest`, `DepositRequest` and `WithdrawRequest`. -/
def sizeofAmountRequest : ℕ := 28

/-- The size of `BalanceRequest` and `OtpRequest`. -/
def sizeofAccountRequest : ℕ := 20

/-- The size of `LoginRequest`. -/
def sizeofLoginRequest : ℕ := 30

/-- The 28 bytes of a request struct with an id and an amount. -/
def amountRequest (id : CharPtr) (x : Double) : List UInt8 :=
  (CharArray.ofPtr id (accountIdLen - 1)).bytes ++ x.bytes

theorem length_amountRequest (id : CharPtr) (x : Double) :
    (amountRequest id x).length = sizeofAmountRequest := by
  rw [amountRequest, List.length_append, CharArray.length_eq, Double.bytes, length_toLe]
  rfl

/-- `BankingResponse`. -/
structure BankingResponse where
  status : ℤ
  message : CharArray 256
  balance : Double
  deriving DecidableEq

namespace BankingResponse

/-- A response after `memset(&response, 0, …)`, with a status, a printed message and a balance. -/
def make (status : ℤ) (message : List UInt8) (balance : Double) : BankingResponse where
  status := status
  message := (CharArray.zero 255).print message
  balance := balance

/-- A response whose balance stays zero. -/
def text (status : ℤ) (message : String) : BankingResponse := make status (ascii message) Arith.zero

/-- The 268 bytes of a response. -/
def bytes (response : BankingResponse) : List UInt8 :=
  toLe 4 (response.status % 2 ^ 32).toNat ++ response.message.bytes ++ response.balance.bytes

end BankingResponse

/-- `sizeof(BankingResponse)`. -/
def sizeofBankingResponse : ℕ := 268

@[simp] theorem BankingResponse.length_bytes (response : BankingResponse) :
    response.bytes.length = sizeofBankingResponse := by
  simp [bytes, Double.bytes, response.message.length_eq, sizeofBankingResponse]

theorem BankingResponse.length_bytes_le (response : BankingResponse) :
    response.bytes.length ≤ maxDataSize :=
  response.length_bytes.trans_le (by decide)

theorem BankingResponse.status_error (message : String) :
    (text statusError message).status ≠ statusSuccess := by
  change statusError ≠ statusSuccess
  decide

/-- The branches in which `unpack_request` fails. -/
def invalidFormat : BankingResponse := .text statusError "Invalid request format"

/-- `%s`: more than 256 characters never fit into a message. -/
def str (p : CharPtr) : List UInt8 := chars p 256

/-- The text `"… %s …"`. -/
def sprint (before : String) (p : CharPtr) (later : String) : List UInt8 :=
  ascii before ++ str p ++ ascii later

/-! ## The OTP service -/

/-- What `res` holds after a `read` that returned something: the status, and memory from `otp_code`
on. -/
structure OtpReply where
  status : ℤ
  otpCode : CharPtr

/-- **The OTP service as the server sees it**: for the operation and the 40 bytes of the fields,
what is read back; `none` when there is no connection or nothing is read. -/
abbrev OtpService := ℤ → List UInt8 → Option OtpReply

/-- `call_otp_service`: 1 is `some`, with what is copied to `otp_out`. -/
def callOtpService (otp : OtpService) (opcode : ℤ) (account : CharPtr) (otpIn : Option CharPtr) :
    Option (List UInt8) :=
  match otp opcode (otpIpcFields account otpIn) with
  | some res => if res.status = 1 then some (strncpy res.otpCode 8) else none
  | none => none

/-- `request_otp_generation`. -/
def requestOtpGeneration (otp : OtpService) (account : CharPtr) : Option (List UInt8) :=
  callOtpService otp otpOpGenerate account none

/-- `verify_otp_remote`. -/
def verifyOtpRemote (otp : OtpService) (account otpIn : CharPtr) : Bool :=
  (callOtpService otp otpOpVerify account (some otpIn)).isSome

theorem verifyOtpRemote_iff {otp : OtpService} {account otpIn : CharPtr} :
    verifyOtpRemote otp account otpIn = true ↔
    ∃ res, otp otpOpVerify (otpIpcFields account (some otpIn)) = some res ∧ res.status = 1 := by
  rw [verifyOtpRemote, callOtpService]
  cases otp otpOpVerify (otpIpcFields account (some otpIn)) with
  | none => simp
  | some res => by_cases h : res.status = 1 <;> simp [h]

/-! ## The cases of `process_request` -/

/-- **The uninitialised locals of one call**: memory from the request struct on, the variable
`new_balance` or `balance`, and the packet the response is packed into. -/
structure Locals where
  req : CharPtr
  newBalance : Double
  respPacket : BankingPacket

/-- A request, as a program over the shared table. -/
abbrev RequestProg := Prog (AccountDB Double) Mutex BankingResponse

/-- `OP_CREATE_ACCOUNT`, after `unpack_request`. -/
def caseCreateAccount (req : CharPtr) : RequestProg :=
  (accountCreate (accountId req) (amount req)).map fun result =>
    .make result.code
      (if result.code = 0 then sprint "Account " (accountId req) " created successfully"
      else if result.code = -4 then sprint "Account " (accountId req) " already exists"
      else if result.code = -5 then ascii "Database full, cannot create account"
      else ascii "Failed to create account")
      (amount req)

/-- `OP_DEPOSIT`, after `unpack_request`. -/
def caseDeposit (newBalance : Double) (req : CharPtr) : RequestProg :=
  (accountDeposit (accountId req) (amount req)).map fun result =>
    .make result.code
      (if result.code = 0 then
        ascii "Deposited " ++ (amount req).format ++ sprint " to account " (accountId req) ""
      else if result.code = -2 then sprint "Account " (accountId req) " not found"
      else ascii "Deposit failed")
      (result.out.getD newBalance)

/-- `OP_WITHDRAW`, after `unpack_request`. -/
def caseWithdraw (newBalance : Double) (req : CharPtr) : RequestProg :=
  (accountWithdraw (accountId req) (amount req)).map fun result =>
    .make result.code
      (if result.code = 0 then
        ascii "Withdrew " ++ (amount req).format ++ sprint " from account " (accountId req) ""
      else if result.code = -2 then sprint "Account " (accountId req) " not found"
      else if result.code = -3 then ascii "Insufficient funds"
      else ascii "Withdrawal failed")
      (result.out.getD newBalance)

/-- `OP_BALANCE`, after `unpack_request`. -/
def caseBalance (balance : Double) (req : CharPtr) : RequestProg :=
  (accountGetBalance (accountId req)).map fun result =>
    .make result.code
      (if result.code = 0 then
        sprint "Account " (accountId req) " balance: " ++ (result.out.getD balance).format
      else if result.code = -2 then sprint "Account " (accountId req) " not found"
      else ascii "Query failed")
      (result.out.getD balance)

/-- `OP_REQ_OTP`, after `unpack_request`.  `otp_code` is ten zero bytes, of which eight are written
over. -/
def caseReqOtp (otp : OtpService) (req : CharPtr) : RequestProg :=
  .ret <| match requestOtpGeneration otp (accountId req) with
    | some code => .make statusSuccess
        (ascii "OTP Generated: " ++ CString.text (code ++ [0, 0])) Arith.zero
    | none => .text statusError "OTP Generation Failed"

/-- `OP_LOGIN`, after `unpack_request`. -/
def caseLogin (otp : OtpService) (req : CharPtr) : RequestProg :=
  .ret <| if verifyOtpRemote otp (accountId req) (loginOtp req)
    then .text statusSuccess "Login Successful" else .text statusError "Invalid OTP"

/-! ## The request -/

/-- `unpack_request(req_packet, &req, size)` on an uninitialised struct: memory from the struct on,
if it returns 0. -/
def unpackLocal (locals : Locals) (packet : BankingPacket) (size : ℕ) :
    Except Fault (Option CharPtr) := do
  let (status, req) ← unpackRequest packet ((List.range size).map locals.req) size
  return if status = 0 then some (onto req locals.req) else none

/-- A case of the switch: what follows `unpack_request`, or the response when that fails. -/
def unpacking (locals : Locals) (packet : BankingPacket) (size : ℕ) (body : CharPtr → RequestProg) :
    Except Fault RequestProg := do
  return match ← unpackLocal locals packet size with
    | some req => body req
    | none => .ret invalidFormat

/-- The switch of `process_request`. -/
def dispatch (locals : Locals) (otp : OtpService) (packet : BankingPacket) :
    Except Fault RequestProg :=
  let opcode := ntoh packet.opCode
  if opcode = opCreateAccount then
    unpacking locals packet sizeofAmountRequest caseCreateAccount
  else if opcode = opDeposit then
    unpacking locals packet sizeofAmountRequest (caseDeposit locals.newBalance)
  else if opcode = opWithdraw then
    unpacking locals packet sizeofAmountRequest (caseWithdraw locals.newBalance)
  else if opcode = opReqOtp then
    unpacking locals packet sizeofAccountRequest (caseReqOtp otp)
  else if opcode = opLogin then
    unpacking locals packet sizeofLoginRequest (caseLogin otp)
  else if opcode = opBalance then
    unpacking locals packet sizeofAccountRequest (caseBalance locals.newBalance)
  else .ok (.ret (.text statusError "Unknown operation"))

/-- `pack_response` into an uninitialised packet. -/
def packResponse (locals : Locals) (response : BankingResponse) (rand : ℕ) :
    Except Fault (ℤ × BankingPacket) :=
  packRequest locals.respPacket opResponse response.bytes rand

theorem packResponse_eq (locals : Locals) (response : BankingResponse) (rand : ℕ) :
    packResponse locals response rand = .ok (0, packed opResponse response.bytes rand) := by
  rw [packResponse, packRequest_eq _ _ _ response.length_bytes_le]

/-- **`process_request`**: the packet it sends. -/
def processRequest (locals : Locals) (otp : OtpService) (packet : BankingPacket) (rand : ℕ) :
    Except Fault (Prog (AccountDB Double) Mutex (Except Fault BankingPacket)) := do
  return (← dispatch locals otp packet).map fun response =>
    (packResponse locals response rand).map Prod.snd

end BankingSystem
