import BankingSystem.Otp.Codes
import BankingSystem.Otp.Socket
import BankingSystem.Server.Worker

/-!
# Client/Login — the OTP login of the two clients (`stress_test/stress_client.c`,
`client/src/stress_test.c`)

A client asks for an OTP, reads it out of the text of the response, and sends it back with a login.
On the way the account and the code pass through arrays of 20, 32, 8, 10, 256, 10 and 8 bytes.
`worker_thread` looks for the code behind the colon, and then both strings arrive as they are.
`worker_routine` sends the beginning of the text instead of the code (`delivers_iff`).
-/

namespace BankingSystem

open CString Interleave Machine

/-! ## The clients -/

/-- The two clients that log in with an OTP. -/
inductive LoginClient where
  /-- `worker_thread` of `stress_client.c`. -/
  | workerThread
  /-- `worker_routine` of `client/src/stress_test.c`. -/
  | workerRoutine
  deriving DecidableEq

/-- `snprintf(account, 20, …)`. -/
def printedId (memory : Bytes.Block accountIdLen) (id : List UInt8) : CharArray accountIdLen :=
  snprintf memory id

/-- `strncpy(req.account_id, account, sizeof(req.account_id))`, from the client's own array. -/
def accountIdField (account : CharArray accountIdLen) (junk : CharPtr) : List UInt8 :=
  strncpy (onto account.bytes junk) accountIdLen

/-- The login of `worker_thread`: `otp_code` gets eight characters from behind the colon and a NUL;
its last byte stays. -/
def workerThreadLogin (account : CharArray accountIdLen) (response : BankingResponse) (last : UInt8)
    (junk : CharPtr) : Option (List UInt8) :=
  if response.status = statusSuccess then
    (strstr (ascii ": ") response.message.bytes).map fun ptr =>
      let otpCode := strncpy ((onto ptr junk).add 2) 8 ++ [0, last]
      accountIdField account junk ++ strncpy (onto otpCode junk) 10
  else none

/-- The login of `worker_routine`, with ten characters of the text of the response for the code. -/
def workerRoutineLogin (account : CharArray accountIdLen) (response : BankingResponse)
    (junk : CharPtr) : Option (List UInt8) :=
  if response.status = statusSuccess then
    some (accountIdField account junk ++ strncpy (onto response.message.bytes junk) 10)
  else none

/-- The bytes of the `LoginRequest` a client sends after a response, if it sends one. -/
def LoginClient.login (client : LoginClient) (account : CharArray accountIdLen)
    (response : BankingResponse) (last : UInt8) (junk : CharPtr) : Option (List UInt8) :=
  match client with
  | workerThread => workerThreadLogin account response last junk
  | workerRoutine => workerRoutineLogin account response junk

/-! ## The way through the servers -/

/-- **One login of an account**, with all that is around: the table of the OTP server, its random
number and its clock, and the memory behind every buffer on the way. -/
structure LoginFlow where
  account : CharArray accountIdLen
  otpDb : OtpDB
  rand : ℕ
  time : ℤ
  loginTime : ℤ
  last : UInt8
  junk : CharPtr
  reqMemory : CharPtr
  loginMemory : CharPtr
  stale : CharPtr
  staleLogin : CharPtr
  back : CharPtr

namespace LoginFlow

variable (f : LoginFlow)

/-- The `OtpRequest` in the memory of the banking server. -/
def otpRequest : CharPtr := onto (accountIdField f.account f.junk) f.reqMemory

/-- The GENERATE that reaches the OTP server. -/
def generate : Arrival :=
  .ofService otpOpGenerate (accountId f.otpRequest) none f.stale f.rand f.time

/-- The response to `OP_REQ_OTP`. -/
def response : BankingResponse :=
  ((caseReqOtp (otpServer f.otpDb f.rand f.time f.stale f.back) f.otpRequest).exec accountInit).1

/-- The code of the GENERATE. -/
def code : List UInt8 := decimal (f.rand % 900000 + 100000)

/-- The VERIFY that reaches the OTP server when these bytes are the `LoginRequest`. -/
def verify (login : List UInt8) : Arrival :=
  .ofService otpOpVerify (accountId (onto login f.loginMemory))
    (some (loginOtp (onto login f.loginMemory))) f.staleLogin 0 f.loginTime

/-- **The login delivers the code**: the client sends a login, the account the code was issued for
and the code arrive at the OTP server with it, and it verifies. -/
def Delivers (client : LoginClient) : Prop :=
  ∃ login, client.login f.account f.response f.last f.junk = some login ∧
    (f.verify login).account = f.generate.account ∧ f.generate.account = f.account.text ∧
    (f.verify login).code = f.code ∧
    (serve (serve f.otpDb f.generate).2 (f.verify login)).1.status = 1

variable {f}

theorem length_code : f.code.length = 6 := Arrival.length_decimal f.rand

/-! ## The account -/

theorem isString_accountIdField (later : List UInt8) (rest : CharPtr) :
    IsString (onto (accountIdField f.account f.junk ++ later) rest) f.account.text :=
  (f.account.isString f.junk).strncpy f.account.length_text_lt later rest

/-- An account of at most 19 characters arrives as it is. -/
theorem account_ofService {p : CharPtr} (h : IsString p f.account.text) (opCode : ℤ)
    (otpIn : Option CharPtr) (stale : CharPtr) (rand : ℕ) (time : ℤ) :
    (Arrival.ofService opCode p otpIn stale rand time).account = f.account.text := by
  have hle : f.account.text.length ≤ 31 := f.account.length_text_lt.le.trans (by decide)
  rw [Arrival.account_ofService, h.chars_eq hle]

theorem account_generate : f.generate.account = f.account.text := by
  have hstring := isString_accountIdField (f := f) [] f.reqMemory
  rw [List.append_nil] at hstring
  exact account_ofService hstring _ _ _ _ _

theorem account_verify (otp : List UInt8) :
    (f.verify (accountIdField f.account f.junk ++ otp)).account = f.account.text :=
  account_ofService (isString_accountIdField otp f.loginMemory) _ _ _ _ _

theorem code_verify (otp : List UInt8) :
    (f.verify (accountIdField f.account f.junk ++ otp)).code =
      chars (onto otp (f.loginMemory.add accountIdLen)) 7 := by
  have hadd := add_onto (accountIdField f.account f.junk) otp f.loginMemory
  rw [accountIdField, length_strncpy] at hadd
  rw [verify, Arrival.code_ofService, loginOtp, accountIdField, hadd]

/-! ## The response -/

/-- **A response of success carries the code**, which was issued to the account. -/
theorem response_eq (h : f.response.status = statusSuccess) :
    Issues f.otpDb f.generate f.account.text ∧
      f.response = .make statusSuccess (ascii "OTP Generated: " ++ f.code) Arith.zero := by
  have hservice : otpServer f.otpDb f.rand f.time f.stale f.back otpOpGenerate
      (otpIpcFields (accountId f.otpRequest) none) =
        some ⟨(serve f.otpDb f.generate).1.status,
          onto ((serve f.otpDb f.generate).1.otpCode.bytes ++
            (serve f.otpDb f.generate).1.message.bytes) f.back⟩ :=
    congrArg (Option.map _) (handleClient_eq f.otpDb f.generate)
  rw [response, caseReqOtp, requestOtpGeneration, callOtpService, hservice] at h ⊢
  dsimp only at h ⊢
  by_cases hst : (serve f.otpDb f.generate).1.status = 1
  · rw [if_pos hst]
    refine ⟨⟨⟨rfl, account_generate⟩, hst⟩, ?_⟩
    have hcode : (serve f.otpDb f.generate).1.otpCode.text = f.code :=
      (replyCode_eq ⟨⟨rfl, account_generate⟩, hst⟩).trans (Arrival.newCode_eq _)
    have hstring := (serve f.otpDb f.generate).1.otpCode.isString
      (onto ((serve f.otpDb f.generate).1.otpCode.bytes ++
        (serve f.otpDb f.generate).1.message.bytes) f.back)
    rw [← onto_append, hcode] at hstring
    have htext := hstring.text_strncpy (n := 8) (length_code.trans_le (by decide)) [0]
    exact congrArg (fun code => BankingResponse.make statusSuccess
      (ascii "OTP Generated: " ++ code) Arith.zero) htext
  · rw [if_neg hst] at h
    exact absurd h (BankingResponse.status_error _)

/-- The text of the response, in its array. -/
theorem message_eq (h : f.response.status = statusSuccess) :
    ∃ zs, f.response.message.bytes =
      ascii "OTP Generated" ++ (ascii ": " ++ (f.code ++ 0 :: zs)) := by
  have hsplit : ascii "OTP Generated: " = ascii "OTP Generated" ++ ascii ": " := by decide
  have hfits : (ascii "OTP Generated: " ++ f.code).length ≤ 255 := by
    rw [List.length_append, length_code]
    decide
  refine ⟨(CharArray.zero 255).bytes.drop ((ascii "OTP Generated: " ++ f.code).length + 1), ?_⟩
  rw [(response_eq h).2]
  change (ascii "OTP Generated: " ++ f.code).take 255 ++ 0 :: (CharArray.zero 255).bytes.drop
    (((ascii "OTP Generated: " ++ f.code).take 255).length + 1) = _
  rw [List.take_of_length_le hfits, hsplit]
  simp only [List.append_assoc]

/-! ## The login -/

/-- **A login with the code is delivered.** -/
theorem delivers_of_code (h : f.response.status = statusSuccess) {client : LoginClient}
    {otp : List UInt8} (hlogin : client.login f.account f.response f.last f.junk =
      some (accountIdField f.account f.junk ++ otp))
    (hotp : chars (onto otp (f.loginMemory.add accountIdLen)) 7 = f.code) : f.Delivers client := by
  have hissue := (response_eq h).1
  have hcode : (f.verify (accountIdField f.account f.junk ++ otp)).code = f.code :=
    (code_verify otp).trans hotp
  refine ⟨_, hlogin, (account_verify otp).trans account_generate.symm, account_generate, hcode, ?_⟩
  rw [verify_iff ⟨rfl, account_verify otp⟩, hcode, head?_codes_issue hissue, replyCode_eq hissue,
    Arrival.newCode_eq]
  rfl

/-- **`worker_thread` finds the code behind the colon.** -/
theorem delivers_workerThread (h : f.response.status = statusSuccess) :
    f.Delivers .workerThread := by
  obtain ⟨zs, hmessage⟩ := message_eq h
  have hptr : strstr (ascii ": ") f.response.message.bytes =
      some (ascii ": " ++ (f.code ++ 0 :: zs)) := by
    rw [hmessage]
    exact strstr_append [32] _ (by decide) (by decide)
  have hcode : IsString ((onto (ascii ": " ++ (f.code ++ 0 :: zs)) f.junk).add 2) f.code := by
    have hadd := add_onto (ascii ": ") (f.code ++ 0 :: zs) f.junk
    rw [show (ascii ": ").length = 2 from rfl] at hadd
    rw [hadd]
    exact isString_onto (zero_notMem_decimal _) zs _
  have hfits : f.code.length < 8 := length_code.trans_lt (by decide)
  -- `otp_code`, and then `login_req.otp`
  have hbuffer := hcode.strncpy hfits [0, f.last] f.junk
  have hfield := hbuffer.strncpy (hfits.trans (by decide : 8 < 10)) []
    (f.loginMemory.add accountIdLen)
  rw [List.append_nil] at hfield
  refine delivers_of_code h ?_ (hfield.chars_eq (Nat.le_of_lt_succ hfits))
  rw [LoginClient.login, workerThreadLogin, if_pos h, hptr]
  rfl

/-- **`worker_routine` sends the text instead.** -/
theorem not_delivers_workerRoutine (h : f.response.status = statusSuccess) :
    ¬ f.Delivers .workerRoutine := by
  rintro ⟨login, hlogin, -, -, hcode, -⟩
  obtain ⟨zs, hmessage⟩ := message_eq h
  have hmem : 0 ∉ ascii "OTP Generated" ++ (ascii ": " ++ f.code) := by
    rw [List.mem_append, List.mem_append, not_or, not_or]
    exact ⟨by decide, by decide, zero_notMem_decimal _⟩
  have hstring : IsString (onto f.response.message.bytes f.junk)
      (ascii "OTP Generated" ++ (ascii ": " ++ f.code)) := by
    have hbytes := isString_onto hmem zs f.junk
    rwa [List.append_assoc, List.append_assoc, ← hmessage] at hbytes
  have hlen : 10 ≤ (ascii "OTP Generated" ++ (ascii ": " ++ f.code)).length := by
    rw [List.length_append]
    exact Nat.le_add_right_of_le (by decide)
  rw [LoginClient.login, workerRoutineLogin, if_pos h, hstring.strncpy_of_le hlen] at hlogin
  obtain rfl := Option.some.inj hlogin
  -- ten characters without a NUL: seven of them pass for a code
  have htake := List.length_take_of_le hlen
  rw [code_verify, chars_onto_of_notMem (fun h0 => hmem (List.mem_of_mem_take h0))
    (htake.ge.trans' (by decide : 7 ≤ 10))] at hcode
  have hseven := congrArg List.length hcode
  rw [List.length_take, htake, length_code] at hseven
  exact absurd hseven (by decide)

/-- **The login of a client delivers the account and the code just in case it is `worker_thread`**,
for every account of at most 19 characters and every code that is issued. -/
theorem delivers_iff (f : LoginFlow) (client : LoginClient)
    (h : f.response.status = statusSuccess) : f.Delivers client ↔ client = .workerThread := by
  cases client with
  | workerThread => exact iff_of_true (delivers_workerThread h) rfl
  | workerRoutine => exact iff_of_false (not_delivers_workerRoutine h) LoginClient.noConfusion

/-- Account `A` at an empty OTP server. -/
def ofA : LoginFlow where
  account := CharArray.ofPtr (onto [65] fun _ => 0) 19
  otpDb := otpInit
  rand := 7
  time := 0
  loginTime := 1
  last := 0
  junk := fun _ => 0
  reqMemory := fun _ => 0
  loginMemory := fun _ => 0
  stale := fun _ => 0
  staleLogin := fun _ => 0
  back := fun _ => 0

/-- Its code is 100007. -/
theorem delivers_iff_ofA : ofA.Delivers .workerThread ↔ LoginClient.workerThread = .workerThread :=
  delivers_iff ofA .workerThread (by decide +kernel)

/-- `worker_routine` sends `OTP Gen` for the code. -/
theorem not_delivers : ofA.response.status = statusSuccess ∧ ¬ ofA.Delivers .workerRoutine :=
  ⟨by decide +kernel, not_delivers_workerRoutine (by decide +kernel)⟩

end LoginFlow

end BankingSystem
