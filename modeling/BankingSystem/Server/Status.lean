import BankingSystem.Account.Ledger
import BankingSystem.Server.Worker

/-!
# Server/Status — what the status of a response says

`account.c` returns -2 and -3 from `account_create` for an id that exists and a full table; the
codes `protocol.h` has for these, and `process_request` tests, are -4 and -5.  All other outcomes
carry the right code (`process_namesOutcome_iff`).
-/

namespace BankingSystem

open Bytes CString Interleave Machine

/-- `STATUS_ACCOUNT_NOT_FOUND`. -/
def statusAccountNotFound : ℤ := -2

/-- `STATUS_INSUFFICIENT_FUNDS`. -/
def statusInsufficientFunds : ℤ := -3

/-- `STATUS_ACCOUNT_EXISTS`. -/
def statusAccountExists : ℤ := -4

/-- `STATUS_DB_FULL`. -/
def statusDbFull : ℤ := -5

attribute [simp] opCreateAccount opDeposit opWithdraw opBalance statusSuccess statusAccountNotFound
  statusInsufficientFunds statusAccountExists statusDbFull

/-! ## Outcomes -/

/-- The account with this id is in slot `i`. -/
def AccountDB.Holds (db : AccountDB Double) (id : List UInt8) (i : Slot) : Prop :=
  i.val < db.accountCount ∧ db.idText i = id

/-- There is an account with this id. -/
def AccountDB.Present (db : AccountDB Double) (id : List UInt8) : Prop := ∃ i, db.Holds id i

/-- `x > 0`. -/
def Double.Positive (x : Double) : Prop := Extended.lt (.fin 0) x.value = true

/-- `x >= 0`. -/
def Double.NotNegative (x : Double) : Prop := Extended.le (.fin 0) x.value = true

/-- `x < y`. -/
def Double.Below (x y : Double) : Prop := Extended.lt x.value y.value = true

/-- A request for one account operation: the opcode, the id and the amount (of which `OP_BALANCE`
has none). -/
structure AccountRequest where
  opcode : ℕ
  id : CharPtr
  amount : Double

namespace AccountRequest

variable (r : AccountRequest) (response : BankingResponse) (db db' : AccountDB Double)

/-- The string the id points at. -/
def key : List UInt8 := chars r.id accountIdLen

/-- **The operation was applied**: it is legal in `db`, and `db'` and the response are what it leads
to. -/
@[simp] def Applied : Prop :=
  (r.opcode = opCreateAccount ∧ r.amount.NotNegative ∧ ¬ db.Present r.key ∧
    ∃ h : db.accountCount < maxAccounts,
      db' = db.insert ⟨db.accountCount, h⟩ r.id r.amount) ∨
  (r.opcode = opDeposit ∧ r.amount.Positive ∧ ∃ i, db.Holds r.key i ∧
    db' = db.setBalance i (Arith.add (db.balance i) r.amount)) ∨
  (r.opcode = opWithdraw ∧ r.amount.Positive ∧ ∃ i, db.Holds r.key i ∧
    ¬ (db.balance i).Below r.amount ∧
    db' = db.setBalance i (Arith.sub (db.balance i) r.amount)) ∨
  (r.opcode = opBalance ∧ ∃ i, db.Holds r.key i ∧ response.balance = db.balance i ∧ db' = db)

/-- A create with a balance that is not negative names an id that exists. -/
@[simp] def CreatesExisting : Prop :=
  r.opcode = opCreateAccount ∧ r.amount.NotNegative ∧ db.Present r.key

/-- Such a create names a new id, with the table full. -/
@[simp] def CreatesOnFull : Prop :=
  r.opcode = opCreateAccount ∧ r.amount.NotNegative ∧ ¬ db.Present r.key ∧
    db.accountCount = maxAccounts

/-- A deposit or a withdrawal of a positive amount, or a query, names an id that does not exist. -/
@[simp] def NamesAbsent : Prop :=
  ((r.opcode = opDeposit ∨ r.opcode = opWithdraw) ∧ r.amount.Positive ∨ r.opcode = opBalance) ∧
    ¬ db.Present r.key

/-- A withdrawal of a positive amount exceeds the balance of an account that exists. -/
@[simp] def Overdraws : Prop :=
  r.opcode = opWithdraw ∧ r.amount.Positive ∧ ∃ i, db.Holds r.key i ∧
    (db.balance i).Below r.amount

/-- **The status names what happened, in the codes of `protocol.h`.** -/
structure NamesOutcome : Prop where
  success : response.status = statusSuccess ↔ r.Applied response db db'
  accountExists : response.status = statusAccountExists ↔ r.CreatesExisting db
  dbFull : response.status = statusDbFull ↔ r.CreatesOnFull db
  accountNotFound : response.status = statusAccountNotFound ↔ r.NamesAbsent db
  insufficientFunds : response.status = statusInsufficientFunds ↔ r.Overdraws db

end AccountRequest

/-! ## Guards on numbers -/

section Guards

variable {x : Double}

/-- The guard of `account_create`, off NaN. -/
theorem Double.lt_zero (h : x.value ≠ .nan) :
    Arith.lt x Arith.zero = true ↔ ¬ x.NotNegative := by
  change Extended.lt x.value (Arith.zero : Double).value = true ↔ _
  rw [Double.zero_value, NotNegative, Extended.lt_eq_not_le h (by simp)]
  simp

/-- The guard of `account_deposit` and `account_withdraw`, off NaN. -/
theorem Double.le_zero (h : x.value ≠ .nan) : Arith.le x Arith.zero = true ↔ ¬ x.Positive := by
  change Extended.le x.value (Arith.zero : Double).value = true ↔ _
  rw [Double.zero_value, Positive, Extended.le_eq_not_lt h (by simp)]
  simp

end Guards

namespace AccountDB.WellFormed

variable {db : AccountDB Double} {id : CharPtr}

theorem find_eq_some_iff_holds (h : db.WellFormed) {i : Slot} :
    accountFind db id = some i ↔ db.Holds (chars id accountIdLen) i := h.find_eq_some_iff

theorem find_eq_none_iff_absent (h : db.WellFormed) :
    accountFind db id = none ↔ ¬ db.Present (chars id accountIdLen) :=
  h.find_eq_none_iff.trans ⟨fun hn ⟨i, hi⟩ => hn i hi.1 hi.2, fun hn i hi hid => hn ⟨i, hi, hid⟩⟩

/-- There is one account with an id at most. -/
theorem holds_unique (h : db.WellFormed) {k : List UInt8} {i j : Slot} (hi : db.Holds k i)
    (hj : db.Holds k j) : i = j := h.distinct i j hi.1 hj.1 (hi.2.trans hj.2.symm)

end AccountDB.WellFormed

/-! ## The four operations -/

section Operations

variable {r : AccountRequest} {response : BankingResponse} {db : AccountDB Double}

/-- **A create names its outcome exactly when the id is new and there is room**, or the balance is
negative. -/
theorem create_namesOutcome_iff (hdb : db.WellFormed) (hop : r.opcode = opCreateAccount)
    (hnan : r.amount.value ≠ .nan)
    (hst : response.status = ((accountCreate r.id r.amount).exec db).1.code) :
    r.NamesOutcome response db ((accountCreate r.id r.amount).exec db).2 ↔
      ¬ (r.CreatesExisting db ∨ r.CreatesOnFull db) := by
  rw [exec_accountCreate] at hst ⊢
  by_cases hneg : r.amount.NotNegative
  · have hlt : ¬ Arith.lt r.amount Arith.zero = true := fun h => (Double.lt_zero hnan).mp h hneg
    rw [if_neg hlt] at hst ⊢
    cases hf : accountFind db r.id with
    | some i =>
      have hp : db.Present r.key := ⟨i, hdb.find_eq_some_iff_holds.mp hf⟩
      simp only [hf] at hst
      refine iff_of_false (fun h => ?_) (not_not.mpr (Or.inl ⟨hop, hneg, hp⟩))
      have := h.accountExists.mpr ⟨hop, hneg, hp⟩
      exact absurd (hst.symm.trans this) (by simp)
    | none =>
      have hp : ¬ db.Present r.key := hdb.find_eq_none_iff_absent.mp hf
      simp only [hf] at hst ⊢
      split
      · rename_i hc
        rw [dif_pos hc] at hst
        have hne : db.accountCount ≠ maxAccounts := hc.ne
        refine iff_of_true ?_ (by simp [hp, hne])
        constructor <;> simp [hst, hop, hp, hneg, hc, hne]
      · rename_i hc
        rw [dif_neg hc] at hst
        have hfull : db.accountCount = maxAccounts := hdb.count_le.antisymm (not_lt.mp hc)
        refine iff_of_false (fun h => ?_) (not_not.mpr (Or.inr ⟨hop, hneg, hp, hfull⟩))
        have := h.dbFull.mpr ⟨hop, hneg, hp, hfull⟩
        exact absurd (hst.symm.trans this) (by simp)
  · have hlt : Arith.lt r.amount Arith.zero = true := (Double.lt_zero hnan).mpr hneg
    rw [if_pos hlt] at hst ⊢
    refine iff_of_true ?_ (by simp [hneg])
    constructor <;> simp [hst, hop, hneg]

/-- A deposit always names its outcome. -/
theorem deposit_namesOutcome (hdb : db.WellFormed) (hop : r.opcode = opDeposit)
    (hnan : r.amount.value ≠ .nan)
    (hst : response.status = ((accountDeposit r.id r.amount).exec db).1.code) :
    r.NamesOutcome response db ((accountDeposit r.id r.amount).exec db).2 := by
  rw [exec_accountDeposit] at hst ⊢
  by_cases hpos : r.amount.Positive
  · have hle : ¬ Arith.le r.amount Arith.zero = true := fun h => (Double.le_zero hnan).mp h hpos
    rw [if_neg hle] at hst ⊢
    cases hf : accountFind db r.id with
    | none =>
      have hp : ¬ db.Present r.key := hdb.find_eq_none_iff_absent.mp hf
      have hno : ∀ i, ¬ db.Holds r.key i := fun i hi => hp ⟨i, hi⟩
      simp only [hf] at hst ⊢
      constructor <;> simp [hst, hop, hp, hpos, hno]
    | some i =>
      have hi := hdb.find_eq_some_iff_holds.mp hf
      have hp : db.Present r.key := ⟨i, hi⟩
      simp only [hf] at hst ⊢
      constructor <;> simp [hst, hop, hp, hpos]
      exact ⟨i, hi, rfl⟩
  · have hle : Arith.le r.amount Arith.zero = true := (Double.le_zero hnan).mpr hpos
    rw [if_pos hle] at hst ⊢
    constructor <;> simp [hst, hop, hpos]

/-- A withdrawal always names its outcome. -/
theorem withdraw_namesOutcome (hdb : db.WellFormed) (hop : r.opcode = opWithdraw)
    (hnan : r.amount.value ≠ .nan)
    (hst : response.status = ((accountWithdraw r.id r.amount).exec db).1.code) :
    r.NamesOutcome response db ((accountWithdraw r.id r.amount).exec db).2 := by
  rw [exec_accountWithdraw] at hst ⊢
  by_cases hpos : r.amount.Positive
  · have hle : ¬ Arith.le r.amount Arith.zero = true := fun h => (Double.le_zero hnan).mp h hpos
    rw [if_neg hle] at hst ⊢
    cases hf : accountFind db r.id with
    | none =>
      have hp : ¬ db.Present r.key := hdb.find_eq_none_iff_absent.mp hf
      have hno : ∀ i, ¬ db.Holds r.key i := fun i hi => hp ⟨i, hi⟩
      simp only [hf] at hst ⊢
      constructor <;> simp [hst, hop, hp, hpos, hno]
    | some i =>
      have hi := hdb.find_eq_some_iff_holds.mp hf
      have hp : db.Present r.key := ⟨i, hi⟩
      have honly : ∀ {p : Slot → Prop}, (∃ j, db.Holds r.key j ∧ p j) ↔ p i := fun {p} =>
        ⟨fun ⟨j, hj, hpj⟩ => hdb.holds_unique hj hi ▸ hpj, fun h => ⟨i, hi, h⟩⟩
      simp only [hf] at hst ⊢
      split
      · rename_i hlt
        have hb : (db.balance i).Below r.amount := hlt
        rw [if_pos hlt] at hst
        constructor <;> simp [hst, hop, hp, hpos, honly, hb]
      · rename_i hlt
        have hb : ¬ (db.balance i).Below r.amount := hlt
        rw [if_neg hlt] at hst
        constructor <;> simp [hst, hop, hp, hpos, honly, hb]
  · have hle : Arith.le r.amount Arith.zero = true := (Double.le_zero hnan).mpr hpos
    rw [if_pos hle] at hst ⊢
    constructor <;> simp [hst, hop, hpos]

/-- A query always names its outcome. -/
theorem getBalance_namesOutcome (hdb : db.WellFormed) (hop : r.opcode = opBalance) (stale : Double)
    (hst : response.status = ((accountGetBalance r.id).exec db).1.code)
    (hbal : response.balance = ((accountGetBalance r.id).exec db).1.out.getD stale) :
    r.NamesOutcome response db ((accountGetBalance r.id).exec db).2 := by
  rw [exec_accountGetBalance] at hst hbal ⊢
  cases hf : accountFind db r.id with
  | none =>
    have hp : ¬ db.Present r.key := hdb.find_eq_none_iff_absent.mp hf
    have hno : ∀ i, ¬ db.Holds r.key i := fun i hi => hp ⟨i, hi⟩
    simp only [hf] at hst ⊢
    constructor <;> simp [hst, hop, hp, hno]
  | some i =>
    have hi := hdb.find_eq_some_iff_holds.mp hf
    have hp : db.Present r.key := ⟨i, hi⟩
    simp only [hf, Option.getD_some] at hst hbal ⊢
    constructor <;> simp [hst, hop, hp]
    exact ⟨i, hi, hbal⟩

end Operations

/-! ## Packets -/

/-- A packet for one of the four account operations: its payload is exactly the request struct, its
checksum is right, and its id ends inside its field. -/
structure AccountPacket (packet : BankingPacket) : Prop where
  wellSized : packet.WellSized
  checksumOk : packet.ChecksumOk
  size : ((ntoh packet.opCode = opCreateAccount ∨ ntoh packet.opCode = opDeposit ∨
      ntoh packet.opCode = opWithdraw) ∧ packet.payload.length = sizeofAmountRequest) ∨
    ntoh packet.opCode = opBalance ∧ packet.payload.length = sizeofAccountRequest
  terminated : 0 ∈ packet.payload.take accountIdLen

/-- What the packet asks for, as `process_request` reads it off the struct. -/
def BankingPacket.request (packet : BankingPacket) (locals : Locals) : AccountRequest where
  opcode := ntoh packet.opCode
  id := accountId (onto packet.payload locals.req)
  amount := amount (onto packet.payload locals.req)

theorem wellFormed_after {ops : List (AccountOp Double)}
    (hops : ∀ op ∈ ops, Terminated op.id accountIdLen) :
    (after accountStep accountInit ops).WellFormed :=
  (simulation_ledger.after refines_init hops).toWellFormed

/-- **The status names the outcome, unless a create finds its id taken or the table full.**  For any
table that calls with terminated ids lead to, and any packet for an account operation whose amount
is not NaN. -/
theorem process_namesOutcome_iff (ops : List (AccountOp Double))
    (hops : ∀ op ∈ ops, Terminated op.id accountIdLen) (locals : Locals) (otp : OtpService)
    (packet : BankingPacket) (hpacket : AccountPacket packet)
    (hnan : ntoh packet.opCode ≠ opBalance → (packet.request locals).amount.value ≠ .nan) :
    ∃ prog, dispatch locals otp packet = .ok prog ∧
      ((packet.request locals).NamesOutcome (prog.exec (after accountStep accountInit ops)).1
        (after accountStep accountInit ops) (prog.exec (after accountStep accountInit ops)).2 ↔
      ¬ ((packet.request locals).CreatesExisting (after accountStep accountInit ops) ∨
        (packet.request locals).CreatesOnFull (after accountStep accountInit ops))) := by
  have hdb := wellFormed_after hops
  refine ⟨_, dispatch_eq hpacket.wellSized, ?_⟩
  have hrest : ∀ {r : AccountRequest} {db : AccountDB Double}, r.opcode ≠ opCreateAccount →
      ¬ (r.CreatesExisting db ∨ r.CreatesOnFull db) := fun hne hor =>
    hor.elim (fun h => hne h.1) fun h => hne h.1
  obtain ⟨hop | hop | hop, hlen⟩ | ⟨hop, hlen⟩ := hpacket.size
  · rw [served_createAccount hop, servedCase_of_fits hpacket.checksumOk hlen.le, caseCreateAccount,
      Prog.exec_map]
    exact create_namesOutcome_iff hdb hop (hnan (by rw [hop]; decide)) rfl
  · rw [served_deposit hop, servedCase_of_fits hpacket.checksumOk hlen.le, caseDeposit,
      Prog.exec_map]
    exact iff_of_true (deposit_namesOutcome hdb hop (hnan (by rw [hop]; decide)) rfl)
      (hrest (by change ntoh packet.opCode ≠ _; rw [hop]; decide))
  · rw [served_withdraw hop, servedCase_of_fits hpacket.checksumOk hlen.le, caseWithdraw,
      Prog.exec_map]
    exact iff_of_true (withdraw_namesOutcome hdb hop (hnan (by rw [hop]; decide)) rfl)
      (hrest (by change ntoh packet.opCode ≠ _; rw [hop]; decide))
  · rw [served_balance hop, servedCase_of_fits hpacket.checksumOk hlen.le, caseBalance,
      Prog.exec_map]
    exact iff_of_true (getBalance_namesOutcome hdb hop locals.newBalance rfl rfl)
      (hrest (by change ntoh packet.opCode ≠ _; rw [hop]; decide))

/-- What a client packs for a create, a deposit or a withdrawal is such a packet. -/
theorem accountPacket_packed {opcode : ℕ}
    (hop : opcode = opCreateAccount ∨ opcode = opDeposit ∨ opcode = opWithdraw) (id : CharPtr)
    (x : Double) (rand : ℕ) : AccountPacket (packed opcode (amountRequest id x) rand) := by
  have hfit : (amountRequest id x).length ≤ maxDataSize :=
    (length_amountRequest id x).trans_le (by decide)
  have hlen : (packed opcode (amountRequest id x) rand).payload.length = sizeofAmountRequest := by
    rw [payload_packed _ _ hfit, length_amountRequest]
  have hopcode : ntoh (packed opcode (amountRequest id x) rand).opCode = opcode := by
    change ntoh (hton 2 opcode) = opcode
    obtain rfl | rfl | rfl := hop <;> decide
  refine ⟨wellSized_packed _ _ hfit, checksumOk_packed _ _ hfit, Or.inl ⟨?_, hlen⟩, ?_⟩
  · rwa [hopcode]
  · have hid : (CharArray.ofPtr id (accountIdLen - 1)).bytes.length = accountIdLen :=
      CharArray.length_eq _
    rw [payload_packed _ _ hfit, amountRequest, List.take_append_of_le_length hid.ge,
      List.take_of_length_le hid.le]
    exact CharArray.nul_mem _

/-- A withdrawal of 50 from account `A`, which was opened with 100, names its outcome. -/
theorem process_namesOutcome_iff_withdrawal :
    let idA : CharPtr := onto [65] fun _ => 0
    let ops : List (AccountOp Double) := [.create idA ⟨0x4059000000000000, by decide⟩]
    let packet := packed opWithdraw (amountRequest idA ⟨0x4049000000000000, by decide⟩) 0
    let r := packet.request ⟨fun _ => 0, Arith.zero, packet⟩
    (after accountStep accountInit ops).accountCount = 1 ∧
    ∃ prog, dispatch ⟨fun _ => 0, Arith.zero, packet⟩ (fun _ _ => none) packet = .ok prog ∧
      (r.NamesOutcome (prog.exec (after accountStep accountInit ops)).1
        (after accountStep accountInit ops) (prog.exec (after accountStep accountInit ops)).2 ↔
      ¬ (r.CreatesExisting (after accountStep accountInit ops) ∨
        r.CreatesOnFull (after accountStep accountInit ops))) := by
  intro idA ops packet r
  have hops : ∀ op ∈ ops, Terminated op.id accountIdLen := fun op hop => by
    rw [List.mem_singleton.mp hop]
    exact ⟨1, by decide, rfl⟩
  exact ⟨by decide +kernel, process_namesOutcome_iff ops hops _ _ packet
    (accountPacket_packed (Or.inr (Or.inr rfl)) _ _ _) fun _ => by decide +kernel⟩

/-- The second request to open account `A` is answered with the code for an account not found. -/
theorem not_namesOutcome_duplicate :
    let packet := packed opCreateAccount
      (amountRequest (onto [65] fun _ => 0) ⟨0x4059000000000000, by decide⟩) 0
    let r := packet.request ⟨fun _ => 0, Arith.zero, packet⟩
    let db := after accountStep accountInit
      [.create (onto [65] fun _ => 0) ⟨0x4059000000000000, by decide⟩]
    AccountPacket packet ∧ r.amount.value ≠ .nan ∧
    ∃ prog, dispatch ⟨fun _ => 0, Arith.zero, packet⟩ (fun _ _ => none) packet = .ok prog ∧
      (prog.exec db).1.status = statusAccountNotFound ∧
      ¬ r.NamesOutcome (prog.exec db).1 db (prog.exec db).2 := by
  intro packet r db
  have hpacket : AccountPacket packet := accountPacket_packed (Or.inl rfl) _ _ _
  refine ⟨hpacket, by decide +kernel, _, dispatch_eq hpacket.wellSized, by decide +kernel,
    fun h => ?_⟩
  have hst := h.accountExists.mpr ⟨by decide, by unfold Double.NotNegative; decide +kernel,
    ⟨0, by decide⟩, by decide +kernel, by decide +kernel⟩
  exact absurd hst (by decide +kernel)

end BankingSystem
