import BankingSystem.Machinery.CString
import BankingSystem.Machinery.FirstFit
import BankingSystem.Machinery.Machine

/-!
# Otp/Server — the OTP service (`common/include/otp_ipc.h`, `otp_server/otp_server.c`)

`handleClient` is one request, from the table before it to the reply and the table after it.  It is
`none` when the `strcpy` of an account without a NUL runs past the end of its field; on a request
whose two strings end inside their fields this does not happen (`serve`).

Read through `OtpDB.table`, GENERATE is `put` and VERIFY is `take` on a first-fit table
(`serve_generate`, `serve_verify`), so what an account can verify is the top of its stack of codes.
The log lines are not modelled.
-/

namespace BankingSystem

open CString FirstFit

/-- `MAX_OTPS`. -/
def maxOtps : ℕ := 100

/-- `OTP_OP_GENERATE`. -/
def otpOpGenerate : ℤ := 1

/-- `OTP_OP_VERIFY`. -/
def otpOpVerify : ℤ := 2

/-- `OtpEntry`. -/
structure OtpEntry where
  account : CharArray 32
  otp : CharArray 8
  expiry : ℤ
  used : Bool

/-- `otp_db`. -/
abbrev OtpDB := Fin maxOtps → OtpEntry

/-- `otp_db` after `memset(otp_db, 0, sizeof(otp_db))`. -/
def otpInit : OtpDB := fun _ => ⟨CharArray.zero 31, CharArray.zero 7, 0, false⟩

/-- `OtpIpcRequest`: the operation, and memory from the field `account` on. -/
structure OtpIpcRequest where
  opCode : ℤ
  mem : CharPtr

/-- The 32 bytes of `req.account`, and what follows them. -/
def OtpIpcRequest.account (req : OtpIpcRequest) : CharPtr := req.mem

/-- The 8 bytes of `req.otp_code`, and what follows them. -/
def OtpIpcRequest.otpCode (req : OtpIpcRequest) : CharPtr := req.mem.add 32

/-- The 40 bytes of the two string fields as `call_otp_service` fills them in: zeroed, then
`strncpy` of at most 31 and of at most 7 characters. -/
def otpIpcFields (account : CharPtr) (otpIn : Option CharPtr) : List UInt8 :=
  (CharArray.ofPtr account 31).bytes ++
    (otpIn.elim (CharArray.zero 7) fun otp => CharArray.ofPtr otp 7).bytes

/-- The request `call_otp_service` sends, in the memory of the service. -/
def otpIpcRequest (opCode : ℤ) (account : CharPtr) (otpIn : Option CharPtr) (stale : CharPtr) :
    OtpIpcRequest := ⟨opCode, onto (otpIpcFields account otpIn) stale⟩

/-- `OtpIpcResponse`. -/
structure OtpIpcResponse where
  status : ℤ
  otpCode : CharArray 8
  message : CharArray 64
  deriving DecidableEq

/-- The response after `memset(&res, 0, sizeof(res))`. -/
def OtpIpcResponse.zero : OtpIpcResponse := ⟨0, CharArray.zero 7, CharArray.zero 63⟩

/-- A response with a status, a code and a message. -/
def OtpIpcResponse.make (status : ℤ) (otpCode : List UInt8) (message : String) :
    OtpIpcResponse where
  status := status
  otpCode := (CharArray.zero 7).print otpCode
  message := (CharArray.zero 63).print (ascii message)

/-- The search of GENERATE: the first slot that is not in use or has the account. -/
def generateSlot (otpDb : OtpDB) (account : CharPtr) : Option (Fin maxOtps) :=
  (List.finRange maxOtps).find? fun i =>
    !(otpDb i).used || strcmpEq (otpDb i).account.bytes account

/-- The search of VERIFY: the first slot in use that has the account. -/
def verifySlot (otpDb : OtpDB) (account : CharPtr) : Option (Fin maxOtps) :=
  (List.finRange maxOtps).find? fun i =>
    (otpDb i).used && strcmpEq (otpDb i).account.bytes account

/-- `handle_client`, for a request that was read, with what `rand()` and `time(NULL)` return. -/
def handleClient (otpDb : OtpDB) (req : OtpIpcRequest) (rand : ℕ) (time : ℤ) :
    Option (OtpIpcResponse × OtpDB) :=
  if req.opCode = otpOpGenerate then
    match generateSlot otpDb req.account with
    | some slot =>
      let code := rand % 900000 + 100000
      let otp := (otpDb slot).otp.print (decimal code)
      ((otpDb slot).account.strcpy req.account).map fun account =>
        (.make 1 otp.text "OTP Generated",
          Function.update otpDb slot ⟨account, otp, time + 300, true⟩)
    | none => some (.make 0 [] "Server Busy", otpDb)
  else if req.opCode = otpOpVerify then
    match verifySlot otpDb req.account with
    | some i =>
      if strcmpEq (otpDb i).otp.bytes req.otpCode then
        some (.make 1 [] "Verified", Function.update otpDb i { otpDb i with used := false })
      else some (.make 0 [] "Invalid OTP", otpDb)
    | none => some (.make 0 [] "Invalid OTP", otpDb)
  else some (.zero, otpDb)

/-! ## Requests with terminated strings -/

/-- **A request whose strings end inside their fields**, as it arrives: with the values `rand()` and
`time(NULL)` will return. -/
structure Arrival where
  req : OtpIpcRequest
  rand : ℕ
  time : ℤ
  account_terminated : Terminated req.account 32
  otpCode_terminated : Terminated req.otpCode 8

/-- The banking server sends nothing else. -/
def Arrival.ofService (opCode : ℤ) (account : CharPtr) (otpIn : Option CharPtr) (stale : CharPtr)
    (rand : ℕ) (time : ℤ) : Arrival where
  req := otpIpcRequest opCode account otpIn stale
  rand := rand
  time := time
  account_terminated := by
    have := terminated_onto (CharArray.ofPtr account 31).nul_mem
      (otpIn.elim (CharArray.zero 7) fun otp => CharArray.ofPtr otp 7).bytes stale
    rwa [(CharArray.ofPtr account 31).length_eq] at this
  otpCode_terminated := by
    have hadd := add_onto (CharArray.ofPtr account 31).bytes
      (otpIn.elim (CharArray.zero 7) fun otp => CharArray.ofPtr otp 7).bytes stale
    rw [(CharArray.ofPtr account 31).length_eq] at hadd
    have := terminated_onto (otpIn.elim (CharArray.zero 7) fun otp => CharArray.ofPtr otp 7).nul_mem
      [] (stale.add 32)
    rw [List.append_nil, CharArray.length_eq, ← hadd] at this
    exact this

namespace Arrival

/-- The account the request names. -/
def account (a : Arrival) : List UInt8 := chars a.req.account 32

/-- The code the request carries. -/
def code (a : Arrival) : List UInt8 := chars a.req.otpCode 8

/-- A GENERATE for the account. -/
def Generates (a : Arrival) (account : List UInt8) : Prop :=
  a.req.opCode = otpOpGenerate ∧ a.account = account

/-- A VERIFY of the account. -/
def Verifies (a : Arrival) (account : List UInt8) : Prop :=
  a.req.opCode = otpOpVerify ∧ a.account = account

instance (a : Arrival) (account : List UInt8) : Decidable (a.Generates account) :=
  inferInstanceAs (Decidable (_ ∧ _))

instance (a : Arrival) (account : List UInt8) : Decidable (a.Verifies account) :=
  inferInstanceAs (Decidable (_ ∧ _))

/-- The string a GENERATE of this request would issue. -/
def newCode (a : Arrival) : List UInt8 := (decimal (a.rand % 900000 + 100000)).take 7

/-- The banking server sends at most 31 characters of an account… -/
theorem account_ofService (opCode : ℤ) (account : CharPtr) (otpIn : Option CharPtr)
    (stale : CharPtr) (rand : ℕ) (time : ℤ) :
    (ofService opCode account otpIn stale rand time).account = chars account 31 := by
  change chars (onto ((CharArray.ofPtr account 31).bytes ++ _) stale) 32 = _
  rw [onto_append, chars_onto (CharArray.ofPtr account 31).nul_mem _
    (CharArray.ofPtr account 31).length_eq.le]
  exact CharArray.text_ofPtr account 31

/-- …and at most seven of a code. -/
theorem code_ofService (opCode : ℤ) (account otp : CharPtr) (stale : CharPtr) (rand : ℕ)
    (time : ℤ) : (ofService opCode account (some otp) stale rand time).code = chars otp 7 := by
  have hadd := add_onto (CharArray.ofPtr account 31).bytes (CharArray.ofPtr otp 7).bytes stale
  rw [(CharArray.ofPtr account 31).length_eq] at hadd
  change chars ((onto ((CharArray.ofPtr account 31).bytes ++ (CharArray.ofPtr otp 7).bytes)
    stale).add 32) 8 = _
  rw [hadd, chars_onto (CharArray.ofPtr otp 7).nul_mem _ (CharArray.ofPtr otp 7).length_eq.le]
  exact CharArray.text_ofPtr otp 7

/-- The codes have six digits. -/
theorem length_decimal (rand : ℕ) : (decimal (rand % 900000 + 100000)).length = 6 := by
  have hlt : rand % 900000 < 900000 := Nat.mod_lt _ (by decide)
  exact length_decimal_eq (by omega) (by omega)

theorem newCode_eq (a : Arrival) : a.newCode = decimal (a.rand % 900000 + 100000) :=
  List.take_of_length_le ((length_decimal a.rand).trans_le (by decide))

end Arrival

theorem handleClient_isSome (otpDb : OtpDB) (a : Arrival) :
    (handleClient otpDb a.req a.rand a.time).isSome = true := by
  rw [handleClient]
  split
  · split
    · rename_i slot _
      obtain ⟨g, hg, -⟩ := (otpDb slot).account.strcpy_of_terminated a.account_terminated
      dsimp only
      rw [hg]
      rfl
    · rfl
  · split
    · split
      · split <;> rfl
      · rfl
    · rfl

/-- `handle_client` on a request whose strings end inside their fields. -/
def serve (otpDb : OtpDB) (a : Arrival) : OtpIpcResponse × OtpDB :=
  (handleClient otpDb a.req a.rand a.time).get (handleClient_isSome otpDb a)

theorem handleClient_eq (otpDb : OtpDB) (a : Arrival) :
    handleClient otpDb a.req a.rand a.time = some (serve otpDb a) :=
  (Option.some_get _).symm

theorem serve_eq {otpDb : OtpDB} {a : Arrival} {out : OtpIpcResponse × OtpDB}
    (h : handleClient otpDb a.req a.rand a.time = some out) : serve otpDb a = out :=
  Option.some.inj ((handleClient_eq otpDb a).symm.trans h)

/-! ## The table of codes -/

/-- What an entry holds: nothing, or a code under an account. -/
def OtpEntry.held (e : OtpEntry) : Option (List UInt8 × List UInt8) :=
  if e.used then some (e.account.text, e.otp.text) else none

/-- **The table of codes by account.** -/
def OtpDB.table (otpDb : OtpDB) : Table maxOtps (List UInt8) (List UInt8) :=
  fun i => (otpDb i).held

/-- The codes of an account, in the order of the slots. -/
def OtpDB.codes (otpDb : OtpDB) (account : List UInt8) : List (List UInt8) :=
  stack otpDb.table account

theorem fits_held (e : OtpEntry) (p : CharPtr) :
    (!e.used || strcmpEq e.account.bytes p) = fits (chars p 32) e.held := by
  rw [Bool.eq_iff_iff, OtpEntry.held]
  cases e.used with
  | false => exact iff_of_true rfl rfl
  | true =>
    simp only [fits, Bool.not_true, Bool.false_or, CharArray.strcmpEq_iff, ↓reduceIte,
      Option.all_some, decide_eq_true_eq]
    exact eq_comm

theorem owned_held (e : OtpEntry) (p : CharPtr) :
    (e.used && strcmpEq e.account.bytes p) = owned (chars p 32) e.held := by
  rw [Bool.eq_iff_iff, OtpEntry.held]
  cases e.used with
  | false => exact iff_of_false Bool.false_ne_true Bool.false_ne_true
  | true =>
    simp only [owned, Bool.true_and, CharArray.strcmpEq_iff, ↓reduceIte, Option.any_some,
      decide_eq_true_eq]
    exact eq_comm

theorem generateSlot_eq (otpDb : OtpDB) (p : CharPtr) :
    generateSlot otpDb p = slotFor otpDb.table (chars p 32) := by
  rw [generateSlot, slotFor]
  exact congrArg (List.find? · _) (funext fun i => fits_held (otpDb i) p)

theorem verifySlot_eq (otpDb : OtpDB) (p : CharPtr) :
    verifySlot otpDb p = slotOf otpDb.table (chars p 32) := by
  rw [verifySlot, slotOf]
  exact congrArg (List.find? · _) (funext fun i => owned_held (otpDb i) p)

theorem table_update (otpDb : OtpDB) (i : Fin maxOtps) (e : OtpEntry) :
    OtpDB.table (Function.update otpDb i e) = Function.update otpDb.table i e.held := by
  funext j
  by_cases h : j = i <;> simp [OtpDB.table, h]

theorem codes_init (account : List UInt8) : otpInit.codes account = [] := stack_empty account

/-! ## One request, branch by branch -/

section Serve

variable {a : Arrival} {otpDb : OtpDB} {i : Fin maxOtps}

/-- **GENERATE with a slot** writes the account, a new code and its expiry there, and answers with
that code. -/
theorem serve_issue (h : a.req.opCode = otpOpGenerate)
    (hi : generateSlot otpDb a.req.account = some i) :
    ∃ e : OtpEntry, e.account.text = a.account ∧ e.otp.text = a.newCode ∧
      e.expiry = a.time + 300 ∧ e.used = true ∧ (serve otpDb a).1.status = 1 ∧
      (serve otpDb a).1.otpCode.text = e.otp.text ∧
      (serve otpDb a).2 = Function.update otpDb i e := by
  obtain ⟨acc, hacc, htext⟩ := (otpDb i).account.strcpy_of_terminated a.account_terminated
  have hotp : ((otpDb i).otp.print (decimal (a.rand % 900000 + 100000))).text = a.newCode :=
    CharArray.text_print _ (zero_notMem_decimal _)
  have hout : serve otpDb a = (.make 1 a.newCode "OTP Generated", Function.update otpDb i
      ⟨acc, (otpDb i).otp.print (decimal (a.rand % 900000 + 100000)), a.time + 300, true⟩) :=
    serve_eq (by
      rw [handleClient, if_pos h, hi]
      dsimp only
      rw [hacc, hotp]
      rfl)
  have hreply : ((CharArray.zero 7).print a.newCode).text = a.newCode := by
    rw [← hotp, CharArray.text_print_text]
  rw [hout]
  exact ⟨⟨acc, (otpDb i).otp.print (decimal (a.rand % 900000 + 100000)), a.time + 300, true⟩,
    htext, hotp, rfl, rfl, rfl, hreply.trans hotp.symm, rfl⟩

/-- GENERATE without a slot is refused. -/
theorem serve_refuse (h : a.req.opCode = otpOpGenerate)
    (hi : generateSlot otpDb a.req.account = none) :
    serve otpDb a = (.make 0 [] "Server Busy", otpDb) :=
  serve_eq (by rw [handleClient, if_pos h, hi])

theorem ne_generate_of_verify (h : a.req.opCode = otpOpVerify) :
    ¬ a.req.opCode = otpOpGenerate := by
  rw [h]
  decide

/-- **VERIFY with the code of the first entry** frees that entry. -/
theorem serve_consume (h : a.req.opCode = otpOpVerify)
    (hi : verifySlot otpDb a.req.account = some i)
    (hc : strcmpEq (otpDb i).otp.bytes a.req.otpCode = true) :
    (serve otpDb a).1.status = 1 ∧
      (serve otpDb a).2 = Function.update otpDb i { otpDb i with used := false } := by
  have hout : serve otpDb a =
      (.make 1 [] "Verified", Function.update otpDb i { otpDb i with used := false }) :=
    serve_eq (by
      rw [handleClient, if_neg (ne_generate_of_verify h), if_pos h, hi]
      exact if_pos hc)
  rw [hout]
  exact ⟨rfl, rfl⟩

/-- Any other VERIFY is refused. -/
theorem serve_invalid (h : a.req.opCode = otpOpVerify)
    (hi : ∀ i, verifySlot otpDb a.req.account = some i →
      ¬ strcmpEq (otpDb i).otp.bytes a.req.otpCode = true) :
    serve otpDb a = (.make 0 [] "Invalid OTP", otpDb) := by
  refine serve_eq ?_
  rw [handleClient, if_neg (ne_generate_of_verify h), if_pos h]
  cases hv : verifySlot otpDb a.req.account with
  | none => rfl
  | some j => exact if_neg (hi j hv)

/-- Any other operation is answered with zeros and changes nothing. -/
theorem serve_other (otpDb : OtpDB) (hg : a.req.opCode ≠ otpOpGenerate)
    (hv : a.req.opCode ≠ otpOpVerify) :
    serve otpDb a = (.zero, otpDb) :=
  serve_eq (by rw [handleClient, if_neg hg, if_neg hv])

end Serve

/-! ## One request, on the table of codes -/

variable {a : Arrival}

/-- **GENERATE is `put`**, and its reply carries the code stored. -/
theorem serve_generate (otpDb : OtpDB) (h : a.req.opCode = otpOpGenerate) :
    ((serve otpDb a).1.status = 1 ∧ (serve otpDb a).1.otpCode.text = a.newCode ∧
      put otpDb.table a.account a.newCode = some (serve otpDb a).2.table) ∨
    ((serve otpDb a).1.status = 0 ∧ (serve otpDb a).2 = otpDb) := by
  have hslot := generateSlot_eq otpDb a.req.account
  cases hg : generateSlot otpDb a.req.account with
  | none =>
    rw [serve_refuse h hg]
    exact Or.inr ⟨rfl, rfl⟩
  | some i =>
    obtain ⟨e, hacc, hotp, -, hused, hst, hcode, hdb⟩ := serve_issue h hg
    refine Or.inl ⟨hst, hcode.trans hotp, ?_⟩
    rw [put, ← show _ = slotFor otpDb.table a.account from hslot, hg, hdb, table_update]
    simp [OtpEntry.held, hotp, hacc, hused]

/-- **VERIFY is `take`.** -/
theorem serve_verify (otpDb : OtpDB) (h : a.req.opCode = otpOpVerify) :
    ((serve otpDb a).1.status = 1 ↔ (take otpDb.table a.account a.code).1 = true) ∧
      (serve otpDb a).2.table = (take otpDb.table a.account a.code).2 := by
  have hslot := verifySlot_eq otpDb a.req.account
  rw [take, ← show _ = slotOf otpDb.table a.account from hslot]
  cases hv : verifySlot otpDb a.req.account with
  | none =>
    rw [serve_invalid h fun i hi => absurd (hv.symm.trans hi) (Option.some_ne_none i).symm]
    exact ⟨iff_of_false zero_ne_one Bool.false_ne_true, rfl⟩
  | some i =>
    have hused : owned a.account (otpDb i).held = true := by
      rw [hv] at hslot
      exact owned_of_slotOf hslot.symm
    have hcmp : strcmpEq (otpDb i).otp.bytes a.req.otpCode = true ↔
        valueOf a.account (otpDb.table i) = some a.code := by
      rw [CharArray.strcmpEq_iff]
      change _ ↔ valueOf a.account (otpDb i).held = some a.code
      rw [OtpEntry.held] at hused ⊢
      split at hused
      · rename_i hu
        have hkey : (otpDb i).account.text = a.account := by simpa [owned] using hused
        rw [if_pos hu, valueOf_some, if_pos hkey, Option.some.injEq]
        exact eq_comm
      · exact absurd hused Bool.false_ne_true
    dsimp only
    by_cases hc : strcmpEq (otpDb i).otp.bytes a.req.otpCode = true
    · obtain ⟨hst, hdb⟩ := serve_consume h hv hc
      rw [if_pos (hcmp.mp hc), hdb, table_update]
      exact ⟨iff_of_true hst rfl, rfl⟩
    · have hinvalid : serve otpDb a = (.make 0 [] "Invalid OTP", otpDb) :=
        serve_invalid h fun j hj => by
          obtain rfl := Option.some.inj (hv.symm.trans hj)
          exact hc
      rw [hinvalid, if_neg fun h => hc (hcmp.mpr h)]
      exact ⟨iff_of_false zero_ne_one Bool.false_ne_true, rfl⟩

end BankingSystem
