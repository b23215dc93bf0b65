import BankingSystem.Server.Worker

/-!
# Server/Stale — where uninitialised memory shows

`process_request` unpacks a payload that may be shorter than its struct, and sends `new_balance` and
`balance` whether or not the operation stored anything there.  `Independent` is what one would want:
two runs from the same table and packet, with other stale memory, leave the same table and send the
same bytes.  It holds exactly for the packets that are `Determined` (`independent_iff`): no amount
is read off stale bytes, and every operation that is to store a balance does.
-/

namespace BankingSystem

open Bytes CString Interleave

/-! ## Two runs -/

/-- One run of `process_request`: the packet it sends and the table it leaves. -/
def runRequest (locals : Locals) (otp : OtpService) (packet : BankingPacket) (rand : ℕ)
    (db : AccountDB Double) : Except Fault (Except Fault BankingPacket × AccountDB Double) :=
  (processRequest locals otp packet rand).map fun prog => prog.exec db

/-- **Stale memory does not show**: any two runs leave the same table and send the same packet, up
to `req_id`. -/
def Independent (db : AccountDB Double) (otp : OtpService) (packet : BankingPacket) : Prop :=
  ∀ (locals locals' : Locals) (rand rand' : ℕ), ∃ sent sent' db',
    runRequest locals otp packet rand db = .ok (.ok sent, db') ∧
    runRequest locals' otp packet rand' db = .ok (.ok sent', db') ∧
    { sent with reqId := sent'.reqId } = sent'

/-- The bytes of the response and the table a request leaves. -/
def outcome (prog : RequestProg) (db : AccountDB Double) : List UInt8 × AccountDB Double :=
  ((prog.exec db).1.bytes, (prog.exec db).2)

/-- **What a run sends is the packed outcome.** -/
theorem runRequest_eq {packet : BankingPacket} (h : packet.WellSized) (locals : Locals)
    (otp : OtpService) (rand : ℕ) (db : AccountDB Double) :
    runRequest locals otp packet rand db =
      .ok (.ok (packed opResponse (outcome (served locals otp packet) db).1 rand),
        (outcome (served locals otp packet) db).2) := by
  rw [runRequest, processRequest, dispatch_eq h]
  change Except.ok ((Prog.map _ (served locals otp packet)).exec db) = _
  rw [Prog.exec_map, packResponse_eq]
  rfl

/-- Packets that agree up to `req_id` carry the same data. -/
theorem data_eq_of_packed {bs bs' : List UInt8} {rand rand' : ℕ} (h : bs.length ≤ maxDataSize)
    (h' : bs'.length ≤ maxDataSize) (heq : { packed opResponse bs rand with
      reqId := (packed opResponse bs' rand').reqId } = packed opResponse bs' rand') : bs = bs' := by
  have hp := congrArg BankingPacket.payload heq
  rw [payload_packed _ _ h'] at hp
  exact (payload_packed opResponse rand h).symm.trans hp

/-- **Stale memory does not show exactly when the outcome of the switch is always the same.** -/
theorem independent_iff_outcome {db : AccountDB Double} {otp : OtpService} {packet : BankingPacket}
    (h : packet.WellSized) : Independent db otp packet ↔ ∀ locals locals' : Locals,
      outcome (served locals otp packet) db = outcome (served locals' otp packet) db := by
  refine ⟨fun hi locals locals' => ?_, fun hs locals locals' rand rand' => ?_⟩
  · obtain ⟨sent, sent', db', h1, h2, hsame⟩ := hi locals locals' 0 0
    rw [runRequest_eq h] at h1 h2
    obtain ⟨h1, hdb⟩ := Prod.mk.inj (Except.ok.inj h1)
    obtain ⟨h2, hdb'⟩ := Prod.mk.inj (Except.ok.inj h2)
    obtain rfl := Except.ok.inj h1
    obtain rfl := Except.ok.inj h2
    exact Prod.ext (data_eq_of_packed (BankingResponse.length_bytes_le _)
      (BankingResponse.length_bytes_le _) hsame) (hdb.trans hdb'.symm)
  · refine ⟨_, packed opResponse (outcome (served locals otp packet) db).1 rand', _,
      runRequest_eq h locals otp rand db, ?_, rfl⟩
    rw [runRequest_eq h, hs locals locals']

/-! ## What a packet determines -/

/-- The payload in memory, with zeros after it. -/
def BankingPacket.memory (packet : BankingPacket) : CharPtr := onto packet.payload fun _ => 0

/-- **The strings of the request end inside the payload.** -/
structure BankingPacket.Terminated (packet : BankingPacket) : Prop where
  accountId : ntoh packet.opCode ∈
    [opCreateAccount, opDeposit, opWithdraw, opBalance, opReqOtp, opLogin] → 0 ∈ packet.payload
  otp : ntoh packet.opCode = opLogin → 0 ∈ packet.payload.drop accountIdLen

/-- **The packet and the table determine the response**: a payload that is accepted fills a struct
with an amount, and an operation that is to store a balance stores one. -/
structure Determined (db : AccountDB Double) (packet : BankingPacket) : Prop where
  create : ntoh packet.opCode = opCreateAccount → packet.Accepted sizeofAmountRequest →
    packet.payload.length = sizeofAmountRequest
  deposit : ntoh packet.opCode = opDeposit → packet.Accepted sizeofAmountRequest →
    packet.payload.length = sizeofAmountRequest ∧
    Arith.le (amount packet.memory) Arith.zero = false ∧
    ∃ i, accountFind db (accountId packet.memory) = some i
  withdraw : ntoh packet.opCode = opWithdraw → packet.Accepted sizeofAmountRequest →
    packet.payload.length = sizeofAmountRequest ∧
    Arith.le (amount packet.memory) Arith.zero = false ∧
    ∃ i, accountFind db (accountId packet.memory) = some i ∧
      Arith.lt (db.balance i) (amount packet.memory) = false
  balance : ntoh packet.opCode = opBalance → packet.Accepted sizeofAccountRequest →
    ∃ i, accountFind db (accountId packet.memory) = some i

/-! ## Strings and amounts in a payload -/

section Strings

variable {p q : CharPtr} (h : SameString p q)

include h

theorem accountFind_congr (db : AccountDB Double) : accountFind db p = accountFind db q := by
  rw [accountFind, accountFind]
  simp only [h.strcmpEq_eq]

theorem sprint_congr (before later : String) : sprint before p later = sprint before q later := by
  rw [sprint, sprint, str, str, h.chars_eq]

theorem exec_accountCreate_congr (x : Double) (db : AccountDB Double) :
    (accountCreate p x).exec db = (accountCreate q x).exec db := by
  have hid : storedId p = storedId q := h.ofPtr_eq _
  simp only [exec_accountCreate, accountFind_congr h, AccountDB.insert, hid]

theorem exec_accountDeposit_congr (x : Double) (db : AccountDB Double) :
    (accountDeposit p x).exec db = (accountDeposit q x).exec db := by
  rw [exec_accountDeposit, exec_accountDeposit, accountFind_congr h]

theorem exec_accountWithdraw_congr (x : Double) (db : AccountDB Double) :
    (accountWithdraw p x).exec db = (accountWithdraw q x).exec db := by
  rw [exec_accountWithdraw, exec_accountWithdraw, accountFind_congr h]

theorem exec_accountGetBalance_congr (db : AccountDB Double) :
    (accountGetBalance p).exec db = (accountGetBalance q).exec db := by
  rw [exec_accountGetBalance, exec_accountGetBalance, accountFind_congr h]

end Strings

section Payload

variable {xs : List UInt8}

/-- A payload that fills the struct determines the amount. -/
theorem amount_congr (h : xs.length = sizeofAmountRequest) (rest rest' : CharPtr) :
    amount (onto xs rest) = amount (onto xs rest') := by
  refine Double.load_eq_iff.mpr fun i hi => ?_
  have hlt : i + accountIdLen < xs.length := by
    rw [h, accountIdLen, sizeofAmountRequest]
    omega
  change onto xs rest (i + accountIdLen) = onto xs rest' (i + accountIdLen)
  rw [onto_of_lt hlt, onto_of_lt hlt]

/-- The last byte of the amount, when a payload leaves it stale. -/
theorem onto_last (h : xs.length < sizeofAmountRequest) (rest : CharPtr) :
    (onto xs rest).add accountIdLen 7 = rest 27 :=
  onto_of_ge (Nat.le_of_lt_succ h) rest

/-- **A payload that does not fill the struct does not determine the amount.** -/
theorem length_eq_of_amount (hle : xs.length ≤ sizeofAmountRequest)
    (h : ∀ rest rest', amount (onto xs rest) = amount (onto xs rest')) :
    xs.length = sizeofAmountRequest := by
  by_contra hne
  have hlt := hle.lt_of_ne hne
  have hlast := Double.load_eq_iff.mp (h (fun _ => 0) fun _ => 1) 7 (by decide)
  rw [onto_last hlt, onto_last hlt] at hlast
  exact absurd hlast (by decide)

/-- …so one that yields a positive amount, whatever follows it, fills the struct. -/
theorem length_eq_of_positive (hle : xs.length ≤ sizeofAmountRequest)
    (h : ∀ rest, Arith.le (amount (onto xs rest)) Arith.zero = false) :
    xs.length = sizeofAmountRequest := by
  by_contra hne
  have hstale := Double.load_le_zero (onto_last (hle.lt_of_ne hne) fun _ => 0x80)
  exact absurd ((h _).symm.trans hstale) (by decide)

/-- The code of `LoginRequest` is inside the payload. -/
theorem sameString_loginOtp (h : 0 ∈ xs.drop accountIdLen) (rest rest' : CharPtr) :
    SameString (loginOtp (onto xs rest)) (loginOtp (onto xs rest')) := by
  have hlen : (xs.take accountIdLen).length = accountIdLen := by
    have := List.length_pos_of_mem h
    rw [List.length_drop] at this
    rw [List.length_take]
    omega
  have hadd : ∀ r : CharPtr, loginOtp (onto xs r) =
      onto (xs.drop accountIdLen) (r.add accountIdLen) := fun r => by
    have := add_onto (xs.take accountIdLen) (xs.drop accountIdLen) r
    rwa [hlen, List.take_append_drop] at this
  rw [hadd, hadd]
  exact .of_mem h _ _

end Payload

/-! ## What a response shows -/

/-- The bytes of a response end with its balance. -/
theorem BankingResponse.balance_eq_of_bytes {response response' : BankingResponse}
    (h : response.bytes = response'.bytes) : response.balance = response'.balance := by
  refine Double.bytes_injective (List.append_inj_right' h ?_)
  rw [Double.bytes, Double.bytes, length_toLe, length_toLe]

/-- **A balance that was not stored shows the variable it should be in.** -/
theorem isSome_of_getD {out : Option Double} (h : ∀ b b', out.getD b = out.getD b') :
    out.isSome := by
  cases out with
  | some b => rfl
  | none => exact absurd (h Arith.zero Double.nan) (by decide)

theorem getD_of_isSome {out : Option Double} (h : out.isSome) (b b' : Double) :
    out.getD b = out.getD b' := by
  obtain ⟨c, rfl⟩ := Option.isSome_iff_exists.mp h
  rfl

section Stores

variable (id : CharPtr) (x : Double) (db : AccountDB Double)

theorem deposit_isSome_iff : ((accountDeposit id x).exec db).1.out.isSome ↔
    Arith.le x Arith.zero = false ∧ ∃ i, accountFind db id = some i := by
  rw [exec_accountDeposit]
  cases Arith.le x Arith.zero <;> cases accountFind db id <;> simp

theorem withdraw_isSome_iff : ((accountWithdraw id x).exec db).1.out.isSome ↔
    Arith.le x Arith.zero = false ∧ ∃ i, accountFind db id = some i ∧
      Arith.lt (db.balance i) x = false := by
  rw [exec_accountWithdraw]
  cases Arith.le x Arith.zero with
  | true => simp
  | false =>
    cases accountFind db id with
    | none => simp
    | some i => by_cases hlt : Arith.lt (db.balance i) x = true <;> simp [hlt]

theorem getBalance_isSome_iff : ((accountGetBalance id).exec db).1.out.isSome ↔
    ∃ i, accountFind db id = some i := by
  rw [exec_accountGetBalance]
  cases accountFind db id <;> simp

end Stores

/-! ## The cases -/

section Cases

variable {packet : BankingPacket} {db : AccountDB Double} {xs : List UInt8} {p q : CharPtr}

/-- A case has one outcome exactly when, on a packet it accepts, its body has. -/
theorem outcome_servedCase_iff {size : ℕ} {body : Locals → CharPtr → RequestProg} :
    (∀ locals locals' : Locals, outcome (servedCase locals packet size (body locals)) db =
      outcome (servedCase locals' packet size (body locals')) db) ↔
    (packet.Accepted size → ∀ locals locals' : Locals,
      outcome (body locals (onto packet.payload locals.req)) db =
        outcome (body locals' (onto packet.payload locals'.req)) db) := by
  by_cases hacc : packet.Accepted size
  · simp only [servedCase_of_fits hacc.1 hacc.2, hacc, true_imp_iff]
  · refine iff_of_true (fun locals locals' => ?_) fun h => absurd h hacc
    rw [servedCase_of_not_accepted hacc, servedCase_of_not_accepted hacc]

theorem balance_eq_of_outcome {prog prog' : RequestProg} (h : outcome prog db = outcome prog' db) :
    (prog.exec db).1.balance = (prog'.exec db).1.balance :=
  BankingResponse.balance_eq_of_bytes (congrArg Prod.fst h)

/-- **A body whose balance is what an operation stores** has one outcome only if that is stored. -/
theorem isSome_of_outcome {body : Double → CharPtr → RequestProg}
    (op : CharPtr → AccountProg Double)
    (hbody : ∀ b req, ((body b req).exec db).1.balance = ((op req).exec db).1.out.getD b)
    (h : ∀ locals locals' : Locals, outcome (body locals.newBalance (onto xs locals.req)) db =
      outcome (body locals'.newBalance (onto xs locals'.req)) db) (rest : CharPtr) :
    ((op (onto xs rest)).exec db).1.out.isSome := by
  refine isSome_of_getD fun b b' => ?_
  have hbal := balance_eq_of_outcome
    (h ⟨rest, b, packed 0 [] 0⟩ ⟨rest, b', packed 0 [] 0⟩)
  rwa [hbody, hbody] at hbal

theorem caseCreateAccount_congr (hs : SameString p q) (hx : amount p = amount q) :
    outcome (caseCreateAccount p) db = outcome (caseCreateAccount q) db := by
  simp only [outcome, caseCreateAccount, Prog.exec_map, accountId, hx,
    exec_accountCreate_congr hs, sprint_congr hs]

theorem caseDeposit_congr (hs : SameString p q) (hx : amount p = amount q) (b b' : Double)
    (hout : ((accountDeposit (accountId q) (amount q)).exec db).1.out.isSome) :
    outcome (caseDeposit b p) db = outcome (caseDeposit b' q) db := by
  rw [accountId] at hout
  simp only [outcome, caseDeposit, Prog.exec_map, accountId, hx, exec_accountDeposit_congr hs,
    sprint_congr hs, getD_of_isSome hout b b']

theorem caseWithdraw_congr (hs : SameString p q) (hx : amount p = amount q) (b b' : Double)
    (hout : ((accountWithdraw (accountId q) (amount q)).exec db).1.out.isSome) :
    outcome (caseWithdraw b p) db = outcome (caseWithdraw b' q) db := by
  rw [accountId] at hout
  simp only [outcome, caseWithdraw, Prog.exec_map, accountId, hx, exec_accountWithdraw_congr hs,
    sprint_congr hs, getD_of_isSome hout b b']

theorem caseBalance_congr (hs : SameString p q) (b b' : Double)
    (hout : ((accountGetBalance (accountId q)).exec db).1.out.isSome) :
    outcome (caseBalance b p) db = outcome (caseBalance b' q) db := by
  rw [accountId] at hout
  simp only [outcome, caseBalance, Prog.exec_map, accountId, exec_accountGetBalance_congr hs,
    sprint_congr hs, getD_of_isSome hout b b']

theorem caseReqOtp_congr (hs : SameString p q) (otp : OtpService) :
    caseReqOtp otp p = caseReqOtp otp q := by
  simp only [caseReqOtp, requestOtpGeneration, callOtpService, otpIpcFields, accountId,
    hs.ofPtr_eq]

theorem caseLogin_congr (hs : SameString p q) (hotp : SameString (loginOtp p) (loginOtp q))
    (otp : OtpService) : caseLogin otp p = caseLogin otp q := by
  have hfields : otpIpcFields (accountId p) (some (loginOtp p)) =
      otpIpcFields (accountId q) (some (loginOtp q)) := by
    rw [otpIpcFields, otpIpcFields, accountId, accountId, hs.ofPtr_eq, Option.elim_some,
      Option.elim_some, hotp.ofPtr_eq]
  rw [caseLogin, caseLogin, verifyOtpRemote, verifyOtpRemote, callOtpService, callOtpService,
    hfields]

end Cases

/-! ## Where stale memory shows -/

section Determined

variable {db : AccountDB Double} {xs : List UInt8}

theorem caseCreateAccount_iff (h0 : 0 ∈ xs) (hle : xs.length ≤ sizeofAmountRequest) :
    (∀ locals locals' : Locals, outcome (caseCreateAccount (onto xs locals.req)) db =
      outcome (caseCreateAccount (onto xs locals'.req)) db) ↔
    xs.length = sizeofAmountRequest := by
  refine ⟨fun h => length_eq_of_amount hle fun rest rest' => ?_, fun h locals locals' =>
    caseCreateAccount_congr (.of_mem h0 _ _) (amount_congr h _ _)⟩
  have hbal := balance_eq_of_outcome
    (h ⟨rest, .nan, packed 0 [] 0⟩ ⟨rest', .nan, packed 0 [] 0⟩)
  rwa [caseCreateAccount, caseCreateAccount, Prog.exec_map, Prog.exec_map] at hbal

theorem caseDeposit_iff (h0 : 0 ∈ xs) (hle : xs.length ≤ sizeofAmountRequest) :
    (∀ locals locals' : Locals,
      outcome (caseDeposit locals.newBalance (onto xs locals.req)) db =
        outcome (caseDeposit locals'.newBalance (onto xs locals'.req)) db) ↔
    xs.length = sizeofAmountRequest ∧
      Arith.le (amount (onto xs fun _ => 0)) Arith.zero = false ∧
      ∃ i, accountFind db (accountId (onto xs fun _ => 0)) = some i := by
  refine ⟨fun h => ?_, fun ⟨hlen, happlies⟩ locals locals' => ?_⟩
  · have hout := isSome_of_outcome (fun req => accountDeposit (accountId req) (amount req))
      (fun b req => by rw [caseDeposit, Prog.exec_map]; rfl) h
    exact ⟨length_eq_of_positive hle fun rest => ((deposit_isSome_iff ..).mp (hout rest)).1,
      (deposit_isSome_iff ..).mp (hout _)⟩
  · have hzero : ∀ l : Locals, outcome (caseDeposit l.newBalance (onto xs l.req)) db =
        outcome (caseDeposit Arith.zero (onto xs fun _ => 0)) db := fun l =>
      caseDeposit_congr (.of_mem h0 _ _) (amount_congr hlen _ _) _ _
        ((deposit_isSome_iff ..).mpr happlies)
    rw [hzero, hzero]

theorem caseWithdraw_iff (h0 : 0 ∈ xs) (hle : xs.length ≤ sizeofAmountRequest) :
    (∀ locals locals' : Locals,
      outcome (caseWithdraw locals.newBalance (onto xs locals.req)) db =
        outcome (caseWithdraw locals'.newBalance (onto xs locals'.req)) db) ↔
    xs.length = sizeofAmountRequest ∧
      Arith.le (amount (onto xs fun _ => 0)) Arith.zero = false ∧
      ∃ i, accountFind db (accountId (onto xs fun _ => 0)) = some i ∧
        Arith.lt (db.balance i) (amount (onto xs fun _ => 0)) = false := by
  refine ⟨fun h => ?_, fun ⟨hlen, happlies⟩ locals locals' => ?_⟩
  · have hout := isSome_of_outcome (fun req => accountWithdraw (accountId req) (amount req))
      (fun b req => by rw [caseWithdraw, Prog.exec_map]; rfl) h
    exact ⟨length_eq_of_positive hle fun rest => ((withdraw_isSome_iff ..).mp (hout rest)).1,
      (withdraw_isSome_iff ..).mp (hout _)⟩
  · have hzero : ∀ l : Locals, outcome (caseWithdraw l.newBalance (onto xs l.req)) db =
        outcome (caseWithdraw Arith.zero (onto xs fun _ => 0)) db := fun l =>
      caseWithdraw_congr (.of_mem h0 _ _) (amount_congr hlen _ _) _ _
        ((withdraw_isSome_iff ..).mpr happlies)
    rw [hzero, hzero]

theorem caseBalance_iff (h0 : 0 ∈ xs) :
    (∀ locals locals' : Locals,
      outcome (caseBalance locals.newBalance (onto xs locals.req)) db =
        outcome (caseBalance locals'.newBalance (onto xs locals'.req)) db) ↔
    ∃ i, accountFind db (accountId (onto xs fun _ => 0)) = some i := by
  refine ⟨fun h => ?_, fun hfound locals locals' => ?_⟩
  · have hout := isSome_of_outcome (fun req => accountGetBalance (accountId req))
      (fun b req => by rw [caseBalance, Prog.exec_map]; rfl) h
    exact (getBalance_isSome_iff ..).mp (hout _)
  · have hzero : ∀ l : Locals, outcome (caseBalance l.newBalance (onto xs l.req)) db =
        outcome (caseBalance Arith.zero (onto xs fun _ => 0)) db := fun l =>
      caseBalance_congr (.of_mem h0 _ _) _ _ ((getBalance_isSome_iff ..).mpr hfound)
    rw [hzero, hzero]

variable {packet : BankingPacket} {otp : OtpService}

theorem caseReqOtp_outcome (h0 : 0 ∈ xs) (locals locals' : Locals) :
    outcome (caseReqOtp otp (onto xs locals.req)) db =
      outcome (caseReqOtp otp (onto xs locals'.req)) db := by
  rw [caseReqOtp_congr (.of_mem h0 locals.req locals'.req)]

theorem caseLogin_outcome (h0 : 0 ∈ xs) (hotp : 0 ∈ xs.drop accountIdLen)
    (locals locals' : Locals) :
    outcome (caseLogin otp (onto xs locals.req)) db =
      outcome (caseLogin otp (onto xs locals'.req)) db := by
  rw [caseLogin_congr (.of_mem h0 locals.req locals'.req) (sameString_loginOtp hotp _ _)]

/-- **The packets that stale memory shows on.** -/
theorem outcome_served_iff (hstr : packet.Terminated) :
    (∀ locals locals' : Locals,
      outcome (served locals otp packet) db = outcome (served locals' otp packet) db) ↔
    Determined db packet := by
  have hin : ntoh packet.opCode ∈ [opCreateAccount, opDeposit, opWithdraw, opBalance, opReqOtp,
    opLogin] → 0 ∈ packet.payload := hstr.accountId
  refine ⟨fun h => ?_, fun h locals locals' => ?_⟩
  · exact
      { create := fun hop hacc => by
          simp only [served_createAccount hop] at h
          exact (caseCreateAccount_iff (hin (by simp [hop])) hacc.2).mp
            (outcome_servedCase_iff.mp h hacc)
        deposit := fun hop hacc => by
          simp only [served_deposit hop] at h
          exact (caseDeposit_iff (hin (by simp [hop])) hacc.2).mp
            (outcome_servedCase_iff.mp h hacc)
        withdraw := fun hop hacc => by
          simp only [served_withdraw hop] at h
          exact (caseWithdraw_iff (hin (by simp [hop])) hacc.2).mp
            (outcome_servedCase_iff.mp h hacc)
        balance := fun hop hacc => by
          simp only [served_balance hop] at h
          exact (caseBalance_iff (hin (by simp [hop]))).mp (outcome_servedCase_iff.mp h hacc) }
  · simp only [served]
    split_ifs with h1 h2 h3 h4 h5 h6
    · exact outcome_servedCase_iff.mpr (fun hacc => (caseCreateAccount_iff
        (hin (by simp [h1])) hacc.2).mpr (h.create h1 hacc)) locals locals'
    · exact outcome_servedCase_iff.mpr (fun hacc => (caseDeposit_iff
        (hin (by simp [h2])) hacc.2).mpr (h.deposit h2 hacc)) locals locals'
    · exact outcome_servedCase_iff.mpr (fun hacc => (caseWithdraw_iff
        (hin (by simp [h3])) hacc.2).mpr (h.withdraw h3 hacc)) locals locals'
    · exact outcome_servedCase_iff.mpr (fun _ => caseReqOtp_outcome (hin (by simp [h4])))
        locals locals'
    · exact outcome_servedCase_iff.mpr (fun _ => caseLogin_outcome (hin (by simp [h5]))
        (hstr.otp h5)) locals locals'
    · exact outcome_servedCase_iff.mpr (fun hacc => (caseBalance_iff
        (hin (by simp [h6]))).mpr (h.balance h6 hacc)) locals locals'
    · rfl

end Determined

/-- **Stale memory shows exactly on the packets that are not determined**, for every table, every
packet with a length field in range and terminated strings, and every OTP service. -/
theorem independent_iff (db : AccountDB Double) (otp : OtpService) (packet : BankingPacket)
    (h : packet.WellSized) (hstr : packet.Terminated) :
    Independent db otp packet ↔ Determined db packet := by
  rw [independent_iff_outcome h, outcome_served_iff hstr]

/-- A request to open account `A` with 100, on an empty table. -/
theorem independent_iff_create :
    let packet := packed opCreateAccount
      (amountRequest (onto [65] fun _ => 0) ⟨0x4059000000000000, by decide⟩) 0
    Independent accountInit (fun _ _ => none) packet ↔ Determined accountInit packet := by
  intro packet
  have hlen := length_amountRequest (onto [65] fun _ => 0) ⟨0x4059000000000000, by decide⟩
  have hfit := hlen.trans_le (by decide : sizeofAmountRequest ≤ maxDataSize)
  refine independent_iff _ _ packet (wellSized_packed _ _ hfit) ⟨fun _ => ?_, fun hop => ?_⟩
  · rw [payload_packed _ _ hfit]
    decide
  · exact absurd hop (by decide)

/-- A deposit of 100 to account `A` that nobody opened is answered with a stale balance. -/
theorem not_independent_absent :
    let packet := packed opDeposit
      (amountRequest (onto [65] fun _ => 0) ⟨0x4059000000000000, by decide⟩) 0
    packet.WellSized ∧ packet.Terminated ∧
      ¬ Independent accountInit (fun _ _ => none) packet := by
  intro packet
  have hlen := length_amountRequest (onto [65] fun _ => 0) ⟨0x4059000000000000, by decide⟩
  have hfit := hlen.trans_le (by decide : sizeofAmountRequest ≤ maxDataSize)
  have hsize : packet.WellSized := wellSized_packed _ _ hfit
  have hpayload : packet.payload = _ := payload_packed _ _ hfit
  have hstr : packet.Terminated := by
    refine ⟨fun _ => ?_, fun hop => absurd hop (by decide)⟩
    rw [hpayload]
    decide
  refine ⟨hsize, hstr, fun hi => ?_⟩
  have hdet := (outcome_served_iff hstr).mp ((independent_iff_outcome hsize).mp hi)
  have hacc : packet.Accepted sizeofAmountRequest :=
    ⟨checksumOk_packed _ _ hfit, (congrArg _ hpayload).trans_le hlen.le⟩
  obtain ⟨-, -, i, hfound⟩ := hdet.deposit (by decide) hacc
  rw [accountFind_accountInit] at hfound
  cases hfound

end BankingSystem
