import BankingSystem.Client.Flow

/-!
# Client/Menu — the interactive client (`client/banking_client.c`)

A choice of the menu asks for an account and an amount, sends one request, and prints what the
response says (`menuWith`).  What `tls_write` and `tls_read` do is arbitrary (`Attempt`).  The four
choices differ in the operation, the request struct and one label (`Choice`).

On a complete response the client prints the status, the message and, on success, the balance, and
nothing of what its own buffers held before (`menuWith_answered`).
-/

namespace BankingSystem

open Bytes CString

/-! ## The code -/

/-- **What the user entered**: the field `account_id` after `scanf("%s", …)` of an id of at most 19
characters, and the amount. -/
structure Entered where
  accountId : CharArray accountIdLen
  amount : Double

/-- The bytes of a `CreateAccountRequest`, a `DepositRequest` or a `WithdrawRequest`. -/
def Entered.amountRequest (e : Entered) : List UInt8 := e.accountId.bytes ++ e.amount.bytes

/-- `send_request`, with the 268 bytes of `response`: what it returns, `response` after, and what it
prints. -/
def sendRequest (x : Attempt) (opcode : ℕ) (reqData response : List UInt8) :
    Except Fault (ℤ × List UInt8 × List UInt8) := do
  let (packed, _) ← packRequest x.reqPacket opcode reqData x.rand
  if packed ≠ 0 then return (-1, response, ascii "Failed to pack request\n")
  if x.written ≤ 0 then return (-1, response, ascii "Failed to send request\n")
  if x.bytes ≤ 0 then return (-1, response, ascii "Failed to receive response\n")
  let (unpacked, response) ← unpackRequest x.respPacket response sizeofBankingResponse
  if unpacked ≠ 0 then return (-1, response, ascii "Failed to unpack response\n")
  return (0, response, [])

/-- `%d`. -/
def decimalInt (n : ℤ) : List UInt8 := (if n < 0 then ascii "-" else []) ++ decimal n.natAbs

/-- `response.balance`. -/
def balanceIn (response : List UInt8) : Double := .load (onto (response.drop 260) fun _ => 0)

/-- **A choice of the menu**, after the prompts: what it prints. -/
def menuWith (x : Attempt) (opcode : ℕ) (req : List UInt8) (label : String)
    (response : List UInt8) : Except Fault (List UInt8) := do
  let (sent, response, printed) ← sendRequest x opcode req response
  if sent ≠ 0 then return printed
  let status := statusIn response
  -- `%s` goes on to the next NUL, from `message` into `balance` and out of the struct
  let message ← stringIn (response.drop 4) 4
  return ascii "\nStatus: " ++ decimalInt status ++ ascii "\nMessage: " ++ message ++ ascii "\n" ++
    if status = 0 then ascii label ++ (balanceIn response).format ++ ascii "\n" else []

/-- `menu_create_account`. -/
def menuCreateAccount (x : Attempt) (e : Entered) (response : List UInt8) :
    Except Fault (List UInt8) :=
  menuWith x opCreateAccount e.amountRequest "Balance: " response

/-- `menu_deposit`. -/
def menuDeposit (x : Attempt) (e : Entered) (response : List UInt8) : Except Fault (List UInt8) :=
  menuWith x opDeposit e.amountRequest "New Balance: " response

/-- `menu_withdraw`. -/
def menuWithdraw (x : Attempt) (e : Entered) (response : List UInt8) : Except Fault (List UInt8) :=
  menuWith x opWithdraw e.amountRequest "New Balance: " response

/-- `menu_check_balance`. -/
def menuCheckBalance (x : Attempt) (e : Entered) (response : List UInt8) :
    Except Fault (List UInt8) :=
  menuWith x opBalance e.accountId.bytes "Balance: " response

/-! ## A complete response -/

/-- **What is printed of a response.** -/
def shown (response : BankingResponse) (label : String) : List UInt8 :=
  ascii "\nStatus: " ++ decimalInt response.status ++ ascii "\nMessage: " ++
    response.message.text ++ ascii "\n" ++
    if response.status = 0 then ascii label ++ response.balance.format ++ ascii "\n" else []

section Response

variable (response : BankingResponse)

theorem statusIn_bytes (h : -2 ^ 31 ≤ response.status) (h' : response.status < 2 ^ 31) :
    statusIn response.bytes = response.status := by
  rw [statusIn, BankingResponse.bytes, List.append_assoc,
    List.take_append_of_le_length (length_toLe 4 _).ge,
    List.take_of_length_le (length_toLe 4 _).le]
  exact asInt_le_toLe h h'

theorem stringIn_bytes : stringIn (response.bytes.drop 4) 4 = .ok response.message.text := by
  have hdrop : response.bytes.drop 4 = response.message.bytes ++ response.balance.bytes := by
    rw [BankingResponse.bytes, List.append_assoc]
    exact List.drop_left' (length_toLe 4 _)
  have hnul := response.message.nul_mem
  rw [hdrop, stringIn_eq, if_pos (List.mem_append_left _ hnul), text_append_of_mem hnul]
  rfl

theorem balanceIn_bytes : balanceIn response.bytes = response.balance := by
  have hlen : (toLe 4 (response.status % 2 ^ 32).toNat ++ response.message.bytes).length = 260 := by
    rw [List.length_append, length_toLe, response.message.length_eq]
  have hdrop : response.bytes.drop 260 = response.balance.bytes ++ [] := by
    rw [BankingResponse.bytes, List.append_nil]
    exact List.drop_left' hlen
  rw [balanceIn, hdrop, Double.load_bytes]

variable {response}

/-- `send_request` on a request that is written and answered with a response. -/
theorem sendRequest_answered {x : Attempt} (hw : 0 < x.written) (hb : 0 < x.bytes) {rand : ℕ}
    (hresp : x.respPacket = packed opResponse response.bytes rand) (opcode : ℕ)
    {req buffer : List UInt8} (hreq : req.length ≤ maxDataSize)
    (hbuffer : buffer.length = sizeofBankingResponse) :
    sendRequest x opcode req buffer = .ok (0, response.bytes, []) := by
  have hle := response.length_bytes_le
  have hunpack : unpackRequest x.respPacket buffer sizeofBankingResponse =
      .ok (0, response.bytes) := by
    rw [hresp, ← hbuffer, (wellSized_packed _ _ hle).unpack_eq, payload_packed _ _ hle,
      if_pos ⟨checksumOk_packed _ _ hle, (response.length_bytes.trans hbuffer.symm).le⟩,
      response.length_bytes, List.drop_of_length_le hbuffer.le, List.append_nil]
  rw [sendRequest, packRequest_eq x.reqPacket opcode x.rand hreq, ok_bind]
  dsimp only
  rw [if_neg (fun h => h rfl), if_neg (not_le.mpr hw), if_neg (not_le.mpr hb), hunpack]
  rfl

/-- **A choice that is answered prints the response**, and nothing of what the buffer held. -/
theorem menuWith_answered {x : Attempt} (hw : 0 < x.written) (hb : 0 < x.bytes) {rand : ℕ}
    (hresp : x.respPacket = packed opResponse response.bytes rand) (opcode : ℕ) (label : String)
    {req buffer : List UInt8} (hreq : req.length ≤ maxDataSize)
    (hbuffer : buffer.length = sizeofBankingResponse) (h : -2 ^ 31 ≤ response.status)
    (h' : response.status < 2 ^ 31) :
    menuWith x opcode req label buffer = .ok (shown response label) := by
  rw [menuWith, sendRequest_answered hw hb hresp opcode hreq hbuffer, ok_bind]
  dsimp only
  rw [if_neg (fun h => h rfl), stringIn_bytes, ok_bind, statusIn_bytes response h h',
    balanceIn_bytes]
  rfl

end Response

/-- What is printed of a response with a printed message. -/
theorem shown_make (code : ℤ) {message : List UInt8} (h : 0 ∉ message) (balance : Double)
    (label : String) : shown (.make code message balance) label =
      ascii "\nStatus: " ++ decimalInt code ++ ascii "\nMessage: " ++ message.take 255 ++
        ascii "\n" ++ if code = 0 then ascii label ++ balance.format ++ ascii "\n" else [] := by
  have htext : (BankingResponse.make code message balance).message.text = message.take 255 :=
    (CharArray.zero 255).text_print h
  rw [shown, htext]
  rfl

theorem zero_notMem_append {xs ys : List UInt8} (h : 0 ∉ xs) (h' : 0 ∉ ys) : 0 ∉ xs ++ ys :=
  fun h0 => (List.mem_append.mp h0).elim h h'

theorem zero_notMem_format (x : Double) : 0 ∉ x.format := by
  have hsign : 0 ∉ if x.sign then ascii "-" else [] := by split <;> decide
  refine zero_notMem_append hsign ?_
  split
  · split <;> decide
  · exact zero_notMem_append (zero_notMem_append (zero_notMem_append (zero_notMem_decimal _)
      (by decide)) (zero_notMem_decimal _)) (zero_notMem_decimal _)

/-! ## The choices -/

/-- The choices of the menu that send a request. -/
inductive Choice where
  | createAccount
  | deposit
  | withdraw
  | checkBalance
  deriving DecidableEq

namespace Choice

/-- The operation sent. -/
def opcode : Choice → ℕ
  | createAccount => opCreateAccount
  | deposit => opDeposit
  | withdraw => opWithdraw
  | checkBalance => opBalance

/-- The request struct. -/
def request : Choice → Entered → List UInt8
  | createAccount, e | deposit, e | withdraw, e => e.amountRequest
  | checkBalance, e => e.accountId.bytes

/-- The size of the request struct. -/
def size : Choice → ℕ
  | createAccount | deposit | withdraw => sizeofAmountRequest
  | checkBalance => sizeofAccountRequest

/-- The label of the balance. -/
def label : Choice → String
  | createAccount | checkBalance => "Balance: "
  | deposit | withdraw => "New Balance: "

/-- The function of the menu. -/
def menu : Choice → Attempt → Entered → List UInt8 → Except Fault (List UInt8)
  | createAccount => menuCreateAccount
  | deposit => menuDeposit
  | withdraw => menuWithdraw
  | checkBalance => menuCheckBalance

theorem menu_eq (c : Choice) (x : Attempt) (e : Entered) (response : List UInt8) :
    c.menu x e response = menuWith x c.opcode (c.request e) c.label response := by
  cases c <;> rfl

end Choice

theorem length_request (c : Choice) (e : Entered) : (c.request e).length = c.size := by
  have hamount : e.amountRequest.length = sizeofAmountRequest := by
    rw [Entered.amountRequest, List.length_append, e.accountId.length_eq, Double.bytes,
      length_toLe]
    rfl
  cases c with
  | createAccount => exact hamount
  | deposit => exact hamount
  | withdraw => exact hamount
  | checkBalance => exact e.accountId.length_eq

theorem length_request_le (c : Choice) (e : Entered) : (c.request e).length ≤ maxDataSize := by
  rw [length_request]
  cases c <;> decide

theorem exists_request (c : Choice) (e : Entered) :
    ∃ later, c.request e = e.accountId.bytes ++ later := by
  cases c with
  | createAccount => exact ⟨_, rfl⟩
  | deposit => exact ⟨_, rfl⟩
  | withdraw => exact ⟨_, rfl⟩
  | checkBalance => exact ⟨[], (List.append_nil _).symm⟩

end BankingSystem
