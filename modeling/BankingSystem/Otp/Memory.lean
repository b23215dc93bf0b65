import BankingSystem.Machinery.Field
import BankingSystem.Machinery.Memory
import BankingSystem.Otp.Server

/-!
# Otp/Memory — the bytes of `otp_db`, and what GENERATE and VERIFY do to them

`handleClientAt` is `handle_client` on the bytes of `otp_db`, for a request of arbitrary bytes: a
`strcpy` goes on to the first NUL of its source, whatever it writes over, and a comparison that
reads on behind its field is a fault.  What one would want of it (`InFields`) holds just for the
requests that are `Confined` (`inFields_iff`).
-/

namespace BankingSystem

open Bytes CString

/-! ## The code -/

/-- `sizeof(OtpEntry)`. -/
def sizeofOtpEntry : ℕ := 56

/-- `otp_db[i].account`. -/
def accountAt (i : Fin maxOtps) : ℕ := sizeofOtpEntry * i

/-- `otp_db[i].otp`. -/
def otpAt (i : Fin maxOtps) : ℕ := sizeofOtpEntry * i + 32

/-- `otp_db[i].expiry`. -/
def expiryAt (i : Fin maxOtps) : ℕ := sizeofOtpEntry * i + 40

/-- `otp_db[i].used`. -/
def usedAt (i : Fin maxOtps) : ℕ := sizeofOtpEntry * i + 48

/-- The 32 bytes of `otp_db[i].account`. -/
def accountField (db : CharPtr) (i : Fin maxOtps) : List UInt8 := readAt db (accountAt i) 32

/-- The 8 bytes of `otp_db[i].otp`. -/
def otpField (db : CharPtr) (i : Fin maxOtps) : List UInt8 := readAt db (otpAt i) 8

/-- `otp_db[i].used != 0`. -/
def usedIn (db : CharPtr) (i : Fin maxOtps) : Bool := le (readAt db (usedAt i) 4) ≠ 0

/-- The 32 bytes of `req.account`. -/
def OtpIpcRequest.accountField (req : OtpIpcRequest) : List UInt8 := readAt req.account 0 32

/-- The 8 bytes of `req.otp_code`. -/
def OtpIpcRequest.otpField (req : OtpIpcRequest) : List UInt8 := readAt req.otpCode 0 8

/-- The search of GENERATE. -/
def generateSlotIn (db : CharPtr) (account : List UInt8) : Except Fault (Option (Fin maxOtps)) :=
  (List.finRange maxOtps).findM? fun i =>
    if usedIn db i then strcmpIn (accountField db i) account 0 else .ok true

/-- The search of VERIFY. -/
def verifySlotIn (db : CharPtr) (account : List UInt8) : Except Fault (Option (Fin maxOtps)) :=
  (List.finRange maxOtps).findM? fun i =>
    if usedIn db i then strcmpIn (accountField db i) account 0 else .ok false

/-- The six digits of the code. -/
def newCodeOf (rand : ℕ) : List UInt8 := decimal (rand % 900000 + 100000)

/-- `otp_db` after GENERATE found a slot: `snprintf` of the code, `strcpy` of the account, `used`
and `expiry`. -/
def generateAt (db : CharPtr) (slot : Fin maxOtps) (req : OtpIpcRequest) (rand : ℕ) (time : ℤ) :
    CharPtr :=
  let db := writeAt db (otpAt slot) ((newCodeOf rand).take 7 ++ [0])
  let db := strcpyAt db (accountAt slot) req.account
  let db := writeAt db (usedAt slot) (toLe 4 1)
  writeAt db (expiryAt slot) (toLe 8 ((time + 300) % 2 ^ 64).toNat)

/-- `otp_db[i].used = 0`. -/
def consumeAt (db : CharPtr) (i : Fin maxOtps) : CharPtr := writeAt db (usedAt i) (toLe 4 0)

/-- `res`, from memory that held something: zeroed, then `res.status`, `res.otp_code` and
`res.message`. -/
def replyAt (res : CharPtr) (status : ℕ) (otpCode : CharPtr) (message : String) : CharPtr :=
  let res := writeAt res 0 (List.replicate 76 0)
  let res := writeAt res 0 (toLe 4 status)
  let res := strcpyAt res 4 otpCode
  strcpyAt res 12 (onto (ascii message) fun _ => 0)

/-- An empty string. -/
def noCode : CharPtr := fun _ => 0

/-- **`handle_client` on the bytes of `otp_db` and of `res`.** -/
def handleClientAt (db res : CharPtr) (req : OtpIpcRequest) (rand : ℕ) (time : ℤ) :
    Except Fault (CharPtr × CharPtr) := do
  if req.opCode = otpOpGenerate then
    match ← generateSlotIn db req.accountField with
    | some slot =>
      let db := generateAt db slot req rand time
      return (replyAt res 1 (db.add (otpAt slot)) "OTP Generated", db)
    | none => return (replyAt res 0 noCode "Server Busy", db)
  else if req.opCode = otpOpVerify then
    match ← verifySlotIn db req.accountField with
    | some i =>
      if ← strcmpIn (otpField db i) req.otpField 0 then
        return (replyAt res 1 noCode "Verified", consumeAt db i)
      return (replyAt res 0 noCode "Invalid OTP", db)
    | none => return (replyAt res 0 noCode "Invalid OTP", db)
  else return (writeAt res 0 (List.replicate 76 0), db)

/-! ## What one would want of it -/

/-- GENERATE wrote an account and its code into the slot and nothing into the others, and replied
with the code. -/
structure Generated (db : CharPtr) (slot : Fin maxOtps) (rand : ℕ) (res' db' : CharPtr) : Prop where
  others : ∀ i, i ≠ slot →
    readAt db' (accountAt i) sizeofOtpEntry = readAt db (accountAt i) sizeofOtpEntry
  account : ∃ s : List UInt8, s.length ≤ 31 ∧ 0 ∉ s ∧
    accountField db' slot = s ++ 0 :: (accountField db slot).drop (s.length + 1)
  otp : text (otpField db' slot) = newCodeOf rand
  reply : text (readAt res' 4 8) = newCodeOf rand

/-- No comparison leaves its fields, and a GENERATE that finds a slot stays in that. -/
structure InFields (db res : CharPtr) (req : OtpIpcRequest) (rand : ℕ) (time : ℤ) : Prop where
  compares : ∃ out, handleClientAt db res req rand time = .ok out
  generates : ∀ slot res' db', req.opCode = otpOpGenerate →
    generateSlotIn db req.accountField = .ok (some slot) →
    handleClientAt db res req rand time = .ok (res', db') → Generated db slot rand res' db'

/-- The first entry in use whose account has the characters of the field. -/
def ownerOf (db : CharPtr) (account : List UInt8) : Option (Fin maxOtps) :=
  (List.finRange maxOtps).find? fun i =>
    usedIn db i && decide (text (accountField db i) = text account)

/-- A GENERATE has a NUL in its account, or finds all entries in use by others. -/
def GenerateConfined (db : CharPtr) (req : OtpIpcRequest) : Prop :=
  0 ∈ req.accountField ∨ ∀ i, usedIn db i ∧ accountField db i ≠ req.accountField

/-- A VERIFY does not find its own bytes, without a NUL, in what it is compared with. -/
def VerifyConfined (db : CharPtr) (req : OtpIpcRequest) : Prop :=
  (∀ i, usedIn db i → accountField db i = req.accountField → 0 ∈ req.accountField) ∧
    ∀ i, ownerOf db req.accountField = some i → otpField db i = req.otpField → 0 ∈ req.otpField

/-- **The requests that stay in their fields.** -/
def Confined (db : CharPtr) (req : OtpIpcRequest) : Prop :=
  (req.opCode = otpOpGenerate → GenerateConfined db req) ∧
    (req.opCode = otpOpVerify → VerifyConfined db req)

/-! ## The searches -/

section Searches

variable {db : CharPtr} {account : List UInt8}

@[simp] theorem length_accountField (db : CharPtr) (i : Fin maxOtps) :
    (accountField db i).length = 32 := length_readAt _ _ _

@[simp] theorem length_otpField (db : CharPtr) (i : Fin maxOtps) : (otpField db i).length = 8 :=
  length_readAt _ _ _

@[simp] theorem OtpIpcRequest.length_accountField (req : OtpIpcRequest) :
    req.accountField.length = 32 := length_readAt _ _ _

@[simp] theorem OtpIpcRequest.length_otpField (req : OtpIpcRequest) : req.otpField.length = 8 :=
  length_readAt _ _ _

/-- With a NUL in the account, GENERATE finds the first entry that is free or has it. -/
theorem generateSlotIn_of_mem (db : CharPtr) (hlen : account.length = 32) (h : 0 ∈ account) :
    generateSlotIn db account = .ok ((List.finRange maxOtps).find? fun i =>
      !usedIn db i || decide (text (accountField db i) = text account)) := by
  refine findM?_eq fun i => ?_
  rw [strcmpIn_eq ((length_accountField db i).trans hlen.symm)]
  cases usedIn db i with
  | false => rfl
  | true => exact (if_pos rfl).trans (if_neg fun hno => hno.2 h)

/-- Without one, it finds none just in case all entries are in use by others. -/
theorem generateSlotIn_eq_none_iff (hlen : account.length = 32) (h : 0 ∉ account) :
    generateSlotIn db account = .ok none ↔ ∀ i, usedIn db i ∧ accountField db i ≠ account := by
  rw [generateSlotIn, findM?_eq_none_iff]
  simp only [List.mem_finRange, forall_const]
  refine forall_congr' fun i => ?_
  rw [strcmpIn_of_notMem ((length_accountField db i).trans hlen.symm) h]
  cases usedIn db i with
  | false => exact iff_of_false nofun fun hno => nomatch hno.1
  | true =>
    by_cases heq : accountField db i = account
    · simp [heq]
    · simp [heq]

/-- **VERIFY finds the first entry of the account**, unless it leaves a field. -/
theorem verifySlotIn_eq (hlen : account.length = 32)
    (h : ∀ i, usedIn db i → accountField db i = account → 0 ∈ account) :
    verifySlotIn db account = .ok (ownerOf db account) := by
  refine findM?_eq fun i => ?_
  rw [strcmpIn_eq ((length_accountField db i).trans hlen.symm)]
  cases hused : usedIn db i with
  | false => rfl
  | true => exact (if_pos rfl).trans (if_neg fun hno => hno.2 (h i hused hno.1))

/-- If it comes to an end, no account without a NUL was in an entry in use. -/
theorem mem_of_verifySlotIn (hlen : account.length = 32) {found : Option (Fin maxOtps)}
    (hok : verifySlotIn db account = .ok found) (i : Fin maxOtps) (hused : usedIn db i)
    (heq : accountField db i = account) : 0 ∈ account := by
  by_contra hno
  have hcmp : ∀ j, strcmpIn (accountField db j) account 0 =
      if accountField db j = account then .error (.read (0 + account.length)) else .ok false :=
    fun j => strcmpIn_of_notMem ((length_accountField db j).trans hlen.symm) hno 0
  cases found with
  | none =>
    have hfalse := findM?_eq_none_iff.mp hok i (List.mem_finRange i)
    rw [if_pos hused, hcmp, if_pos heq] at hfalse
    nomatch hfalse
  | some j =>
    have htrue := eq_true_of_findM? hok
    rw [hcmp] at htrue
    split at htrue
    · split at htrue <;> nomatch htrue
    · nomatch htrue

end Searches

/-! ## GENERATE in a slot -/

section Generate

variable {db res : CharPtr} {slot : Fin maxOtps} {req : OtpIpcRequest} {rand : ℕ} {time : ℤ}

@[simp] theorem length_newCodeOf (rand : ℕ) : (newCodeOf rand).length = 6 :=
  Arrival.length_decimal rand

theorem zero_notMem_newCodeOf (rand : ℕ) : 0 ∉ newCodeOf rand := zero_notMem_decimal _

theorem take_newCodeOf (rand : ℕ) : (newCodeOf rand).take 7 = newCodeOf rand :=
  List.take_of_length_le ((length_newCodeOf rand).trans_le (by decide))

/-- The account of a request ends in its field just in case that has a NUL. -/
theorem OtpIpcRequest.terminated_account_iff (req : OtpIpcRequest) :
    Terminated req.account 32 ↔ 0 ∈ req.accountField :=
  show Terminated (req.account.add 0) 32 ↔ _ from terminated_iff_mem

/-- What is read of the account of the slot is what `strcpy` left there. -/
theorem accountField_generateAt (db : CharPtr) (slot : Fin maxOtps) (req : OtpIpcRequest)
    (rand : ℕ) (time : ℤ) : accountField (generateAt db slot req rand time) slot =
    readAt (strcpyAt (writeAt db (otpAt slot) ((newCodeOf rand).take 7 ++ [0])) (accountAt slot)
      req.account) (accountAt slot) 32 := by
  rw [accountField, generateAt, readAt_writeAt_of_disjoint, readAt_writeAt_of_disjoint]
  · exact Or.inl (by simp only [accountAt, usedAt]; omega)
  · exact Or.inl (by simp only [accountAt, expiryAt]; omega)

/-- An account without a NUL fills the field. -/
theorem accountField_generateAt_of_notMem (h : 0 ∉ req.accountField) :
    accountField (generateAt db slot req rand time) slot = req.accountField := by
  rw [accountField_generateAt, readAt_strcpyAt fun ht => h (req.terminated_account_iff.mp ht)]
  rfl

/-- An account with one is written as a string of at most 31 characters. -/
theorem generateAt_of_mem (h : 0 ∈ req.accountField) : generateAt db slot req rand time =
    writeAt (writeAt (writeAt (writeAt db (otpAt slot) (newCodeOf rand ++ [0])) (accountAt slot)
      (chars req.account 32 ++ [0])) (usedAt slot) (toLe 4 1)) (expiryAt slot)
      (toLe 8 ((time + 300) % 2 ^ 64).toNat) := by
  simp only [generateAt, take_newCodeOf, strcpyAt_eq (req.terminated_account_iff.mpr h)]

theorem length_account_le (h : 0 ∈ req.accountField) : (chars req.account 32).length ≤ 31 :=
  Nat.le_of_lt_succ (length_chars_lt_iff.mpr (req.terminated_account_iff.mpr h))

/-- Then the other entries stay as they were… -/
theorem entry_generateAt (h : 0 ∈ req.accountField) {i : Fin maxOtps} (hi : i ≠ slot) :
    readAt (generateAt db slot req rand time) (accountAt i) sizeofOtpEntry =
      readAt db (accountAt i) sizeofOtpEntry := by
  have hlen := length_account_le h
  have hne : (i : ℕ) ≠ slot := fun heq => hi (Fin.ext heq)
  rw [generateAt_of_mem h, readAt_writeAt_of_disjoint, readAt_writeAt_of_disjoint,
    readAt_writeAt_of_disjoint, readAt_writeAt_of_disjoint]
  all_goals
    simp only [accountAt, otpAt, usedAt, expiryAt, sizeofOtpEntry, List.length_append,
      length_newCodeOf, length_toLe, List.length_singleton]
    omega

/-- …the account is the string… -/
theorem account_generateAt (h : 0 ∈ req.accountField) :
    accountField (generateAt db slot req rand time) slot = chars req.account 32 ++
      0 :: (accountField db slot).drop ((chars req.account 32).length + 1) := by
  have hlen := length_account_le h
  have hfit : (chars req.account 32 ++ [0]).length ≤ 32 := by
    rw [List.length_append]
    exact Nat.succ_le_succ hlen
  rw [accountField_generateAt, strcpyAt_eq (req.terminated_account_iff.mpr h),
    readAt_writeAt hfit, readAt_writeAt_of_disjoint, List.append_assoc, List.length_append]
  · rfl
  · exact Or.inl (by simp only [accountAt, otpAt]; omega)

/-- …and the code is the one that was generated. -/
theorem otp_generateAt (h : 0 ∈ req.accountField) :
    otpField (generateAt db slot req rand time) slot =
      newCodeOf rand ++ 0 :: (otpField db slot).drop 7 := by
  have hlen := length_account_le h
  rw [otpField, generateAt_of_mem h, readAt_writeAt_of_disjoint, readAt_writeAt_of_disjoint,
    readAt_writeAt_of_disjoint, readAt_writeAt (by simp), List.append_assoc, List.length_append,
    length_newCodeOf]
  · rfl
  all_goals
    simp only [accountAt, otpAt, usedAt, expiryAt, List.length_append, List.length_singleton]
    omega

/-- The reply has the code that `strcpy` found. -/
theorem text_replyAt {otpCode : CharPtr} (h : Terminated otpCode 8) (status : ℕ)
    (message : String) : text (readAt (replyAt res status otpCode message) 4 8) =
    chars otpCode 8 := by
  have hlen : (chars otpCode 8).length < 8 := length_chars_lt_iff.mpr h
  rw [replyAt, readAt_strcpyAt_of_le (by decide), strcpyAt_eq h, readAt_writeAt (by simpa),
    List.append_assoc]
  exact text_append_zero (zero_notMem_chars otpCode 8) 0 _

/-- **GENERATE with a NUL in the account stays in its slot.** -/
theorem generated_of_mem (h : 0 ∈ req.accountField) : Generated db slot rand
    (replyAt res 1 ((generateAt db slot req rand time).add (otpAt slot)) "OTP Generated")
    (generateAt db slot req rand time) := by
  have hotp : otpField (generateAt db slot req rand time) slot =
      newCodeOf rand ++ 0 :: (otpField db slot).drop 7 := otp_generateAt h
  have htext : text (otpField (generateAt db slot req rand time) slot) = newCodeOf rand := by
    rw [hotp]
    exact text_append_zero (zero_notMem_newCodeOf rand) 0 _
  have hmem : 0 ∈ otpField (generateAt db slot req rand time) slot := by simp [hotp]
  refine ⟨fun i hi => entry_generateAt h hi, ⟨_, length_account_le h, zero_notMem_chars _ _,
    account_generateAt h⟩, htext, ?_⟩
  rw [text_replyAt (terminated_iff_mem.mpr hmem), chars_add_of_mem hmem]
  exact htext

end Generate

/-! ## When all of it stays -/

section Confined

variable {db res : CharPtr} {req : OtpIpcRequest} {rand : ℕ} {time : ℤ}

theorem OtpIpcRequest.ne_generate (hop : req.opCode = otpOpVerify) :
    req.opCode ≠ otpOpGenerate := fun h => absurd (h.symm.trans hop) (by decide)

theorem handleClientAt_generate (hop : req.opCode = otpOpGenerate) {slot : Option (Fin maxOtps)}
    (hslot : generateSlotIn db req.accountField = .ok slot) :
    handleClientAt db res req rand time = .ok (slot.elim (replyAt res 0 noCode "Server Busy", db)
      fun slot => (replyAt res 1 ((generateAt db slot req rand time).add (otpAt slot))
        "OTP Generated", generateAt db slot req rand time)) := by
  rw [handleClientAt, if_pos hop, hslot, ok_bind]
  cases slot <;> rfl

/-- A GENERATE with a NUL in the account stays in its fields. -/
theorem inFields_of_mem (hop : req.opCode = otpOpGenerate) (hmem : 0 ∈ req.accountField) :
    InFields db res req rand time := by
  have hslot := generateSlotIn_of_mem db req.length_accountField hmem
  refine ⟨⟨_, handleClientAt_generate hop hslot⟩, fun slot res' db' _ hfound hrun => ?_⟩
  obtain ⟨rfl, rfl⟩ := Prod.mk.inj
    (Except.ok.inj ((handleClientAt_generate hop hfound).symm.trans hrun))
  exact generated_of_mem hmem

/-- **A GENERATE stays in its fields just in case it is confined.** -/
theorem inFields_generate (hop : req.opCode = otpOpGenerate) :
    InFields db res req rand time ↔ GenerateConfined db req := by
  by_cases hmem : 0 ∈ req.accountField
  · exact iff_of_true (inFields_of_mem hop hmem) (Or.inl hmem)
  rw [GenerateConfined, or_iff_right hmem,
    ← generateSlotIn_eq_none_iff req.length_accountField hmem]
  constructor
  · rintro ⟨⟨out, hout⟩, hgen⟩
    cases hslot : generateSlotIn db req.accountField with
    | error e =>
      rw [handleClientAt, if_pos hop, hslot] at hout
      nomatch hout
    | ok slot =>
      cases slot with
      | none => rfl
      | some slot =>
        -- the account is written with a NUL, but the 32 bytes found there are the request's
        obtain ⟨s, -, -, haccount⟩ :=
          (hgen slot _ _ hop hslot (handleClientAt_generate hop hslot)).account
        rw [accountField_generateAt_of_notMem hmem] at haccount
        exact absurd (by simp [haccount]) hmem
  · intro hslot
    exact ⟨⟨_, handleClientAt_generate hop hslot⟩, fun slot _ _ _ hfound _ =>
      nomatch hslot.symm.trans hfound⟩

theorem handleClientAt_verify (hop : req.opCode = otpOpVerify) {found : Option (Fin maxOtps)}
    (hfound : verifySlotIn db req.accountField = .ok found) :
    handleClientAt db res req rand time = found.elim
      (.ok (replyAt res 0 noCode "Invalid OTP", db)) fun i =>
        strcmpIn (otpField db i) req.otpField 0 >>= fun same =>
          if same then .ok (replyAt res 1 noCode "Verified", consumeAt db i)
          else .ok (replyAt res 0 noCode "Invalid OTP", db) := by
  rw [handleClientAt, if_neg (req.ne_generate hop), if_pos hop, hfound, ok_bind]
  cases found <;> rfl

/-- **A VERIFY stays in its fields just in case it is confined.** -/
theorem inFields_verify (hop : req.opCode = otpOpVerify) :
    InFields db res req rand time ↔ VerifyConfined db req := by
  have hgen := req.ne_generate hop
  have hiff : InFields db res req rand time ↔
      ∃ out, handleClientAt db res req rand time = .ok out :=
    ⟨fun h => h.compares, fun h => ⟨h, fun _ _ _ hop' => absurd hop' hgen⟩⟩
  have hlen : ∀ i, (otpField db i).length = req.otpField.length := fun i => by simp
  rw [hiff]
  constructor
  · rintro ⟨out, hout⟩
    cases hfound : verifySlotIn db req.accountField with
    | error e =>
      rw [handleClientAt, if_neg hgen, if_pos hop, hfound] at hout
      nomatch hout
    | ok found =>
      have hmem := mem_of_verifySlotIn req.length_accountField hfound
      refine ⟨hmem, fun i hi heq => by_contra fun hno => ?_⟩
      have howner := verifySlotIn_eq req.length_accountField hmem
      rw [handleClientAt_verify hop howner, hi, Option.elim_some, strcmpIn_eq (hlen i),
        if_pos ⟨heq, hno⟩] at hout
      nomatch hout
  · rintro ⟨hmem, hotp⟩
    rw [handleClientAt_verify hop (verifySlotIn_eq req.length_accountField hmem)]
    cases hi : ownerOf db req.accountField with
    | none => exact ⟨_, rfl⟩
    | some i =>
      rw [Option.elim_some, strcmpIn_eq (hlen i), if_neg fun hno => hno.2 (hotp i hi hno.1),
        ok_bind]
      split
      · exact ⟨_, rfl⟩
      · exact ⟨_, rfl⟩

end Confined

/-- **Exactly the confined requests stay in their fields.** -/
theorem inFields_iff (db res : CharPtr) (req : OtpIpcRequest) (rand : ℕ) (time : ℤ) :
    InFields db res req rand time ↔ Confined db req := by
  by_cases hgen : req.opCode = otpOpGenerate
  · have hver : req.opCode ≠ otpOpVerify := fun hop => req.ne_generate hop hgen
    rw [inFields_generate hgen, Confined]
    exact ⟨fun h => ⟨fun _ => h, fun hop => absurd hop hver⟩, fun h => h.1 hgen⟩
  by_cases hver : req.opCode = otpOpVerify
  · rw [inFields_verify hver, Confined]
    exact ⟨fun h => ⟨fun hop => absurd hop hgen, fun _ => h⟩, fun h => h.2 hver⟩
  · have hrun : handleClientAt db res req rand time =
        .ok (writeAt res 0 (List.replicate 76 0), db) := by
      rw [handleClientAt, if_neg hgen, if_neg hver]
      rfl
    exact iff_of_true ⟨⟨_, hrun⟩, fun _ _ _ hop => absurd hop hgen⟩
      ⟨fun hop => absurd hop hgen, fun hop => absurd hop hver⟩

/-- A GENERATE with 32 characters in `account`, and `999999` in `otp_code`. -/
def overrun : OtpIpcRequest where
  opCode := otpOpGenerate
  mem := onto (List.replicate 32 (0x61 : UInt8) ++ ascii "999999") noCode

/-- The first entry. -/
def firstSlot : Fin maxOtps := ⟨0, by decide⟩

/-- `otp_db` after it, when it was empty. -/
def overrunDb : CharPtr := generateAt noCode firstSlot overrun 0 0

/-- **The code of the request replaces the generated one**, in the entry and in the reply. -/
theorem not_inFields : ¬ InFields noCode noCode overrun 0 0 ∧
    generateSlotIn noCode overrun.accountField = .ok (some firstSlot) ∧
    text (otpField overrunDb firstSlot) = ascii "999999" ∧
    text (readAt (replyAt noCode 1 (overrunDb.add (otpAt firstSlot)) "OTP Generated") 4 8) =
      ascii "999999" := by
  have hslot : generateSlotIn noCode overrun.accountField = .ok (some firstSlot) := rfl
  have hotp : text (otpField overrunDb firstSlot) = ascii "999999" := by decide +kernel
  refine ⟨fun h => ?_, hslot, hotp, by decide +kernel⟩
  have hcode := (h.generates firstSlot _ _ rfl hslot (handleClientAt_generate rfl hslot)).otp
  exact absurd (hotp.symm.trans hcode) (by decide +kernel)

end BankingSystem
