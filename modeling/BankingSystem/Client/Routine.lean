import BankingSystem.Client.Core
import BankingSystem.Client.Flow

/-!
# Client/Routine — a thread of the other load test (`client/src/stress_test.c`)

`worker_routine` connects, asks for an OTP and logs in with it, waits at the barrier, and then sends
its requests one after another; it sends and receives with `client_core`.  A thread goes from call
to call (`LoadThread.step`): a `client_receive` returns once there is something to read or the
connection is closed, at either end or in between.

Every record a thread writes is shorter than a packet (`Short`), and a thread that gets no response
counts every request as a failure (`Fits`).
-/

namespace BankingSystem

open Bytes CString Records

/-! ## The code -/

/-- Where a thread is: not created, in `client_connect`, before and in the calls of its login, in
`pthread_barrier_wait`, before and in the calls of a request, and at its end. -/
inductive ThreadAt where
  | absent
  | connecting
  | asking
  | asked
  | loggingIn
  | loggedIn
  | barrier (connected : Bool)
  | sending (i : ℕ)
  | receiving (i : ℕ)
  | finished
  | faulted
  deriving DecidableEq

/-- **A thread of the load test**: where it is, its connection and whether that is broken, whether a
worker of the server has the connection, what its buffers hold, and its `ThreadStats`. -/
structure LoadThread where
  place : ThreadAt
  ssl : Ssl
  lost : Bool
  served : Bool
  headerOut : List UInt8
  recvBuf : List UInt8
  successCount : ℤ
  failCount : ℤ

/-- What a `client_send` of a thread meets: the memory its request takes, what is behind its arrays,
the next numbers of `rand_r` and `rand`, and `buffer`. -/
structure SendContext where
  idMemory : Block accountIdLen
  amountMemory : Block 8
  junk : CharPtr
  action : ℕ
  rand : ℕ
  buffer : Block sendBufferSize

/-- What happens to a thread. -/
inductive ThreadEvent where
  /-- A worker of the server accepts the connection. -/
  | connect
  /-- `client_connect` fails. -/
  | refuse
  | send (c : SendContext)
  | receive
  /-- `pthread_barrier_wait` returns. -/
  | leave
  | close
  /-- The connection breaks. -/
  | lose

/-- `10.0`. -/
def double10 : Double := ⟨0x4024000000000000, by decide⟩

namespace SendContext

/-- `my_account`. -/
def myAccount (c : SendContext) (tid : ℕ) : CharArray accountIdLen :=
  printedId c.idMemory (ascii "USER_" ++ decimal tid)

/-- `otp_req`. -/
def otpReq (c : SendContext) (tid : ℕ) : List UInt8 := accountIdField (c.myAccount tid) c.junk

/-- `login_req`, with the text of the response for the code. -/
def loginReq (c : SendContext) (tid : ℕ) (recvBuf : List UInt8) : List UInt8 :=
  accountIdField (c.myAccount tid) c.junk ++ strncpy (onto (messageIn recvBuf) c.junk) 10

/-- `op`. -/
def op (c : SendContext) : ℕ :=
  match c.action % 3 with
  | 0 => opDeposit
  | 1 => opWithdraw
  | _ => opBalance

/-- `trans_req`. -/
def transReq (c : SendContext) (tid : ℕ) : List UInt8 :=
  (printedId c.idMemory (decimal tid)).bytes ++
    if c.op = opBalance then c.amountMemory.toList else double10.bytes

end SendContext

namespace LoadThread

/-- `client_send` on the connection: its result, and the connection after it.  `SSL_write` fails on
a broken one. -/
def write (t : LoadThread) (opCode : ℕ) (data : List UInt8) (c : SendContext) :
    Except Fault (ℤ × Ssl) := do
  if t.lost then return (-1, t.ssl)
  let (sent, client) ← clientSend ⟨true, some t.ssl⟩ opCode (some data) data.length c.rand c.buffer
  return (sent, client.ssl.getD t.ssl)

/-- A call of `client_send`, and where the thread is after it. -/
def afterWrite (t : LoadThread) (opCode : ℕ) (data : List UInt8) (c : SendContext)
    (next : Bool → LoadThread → LoadThread) : LoadThread :=
  match t.write opCode data c with
  | .ok (sent, ssl) => next (0 < sent) { t with ssl := ssl }
  | .error _ => { t with place := .faulted }

/-- A call of `client_receive`, and where the thread is after it. -/
def afterReceive (t : LoadThread) (next : ℤ → LoadThread → LoadThread) : LoadThread :=
  match clientReceive ⟨true, some t.ssl⟩ t.headerOut t.recvBuf maxDataSize with
  | .ok r =>
    next r.status { t with
      ssl := r.client.ssl.getD t.ssl
      headerOut := r.headerOut
      recvBuf := r.body }
  | .error _ => { t with place := .faulted }

/-- There is something to read, or nobody will write any more. -/
def Readable (t : LoadThread) : Prop := t.ssl.incoming ≠ [] ∨ ¬ t.served ∨ t.lost

instance (t : LoadThread) : Decidable t.Readable := inferInstanceAs (Decidable (_ ∨ _ ∨ _))

/-- A request that failed. -/
def failed (i : ℕ) (t : LoadThread) : LoadThread :=
  { t with place := .sending (i + 1), failCount := t.failCount + 1 }

/-- A request that succeeded. -/
def succeeded (i : ℕ) (t : LoadThread) : LoadThread :=
  { t with place := .sending (i + 1), successCount := t.successCount + 1 }

/-- `worker_routine` of thread `tid`, event by event. -/
def step (requests : ℤ) (tid : ℕ) (t : LoadThread) : ThreadEvent → Option LoadThread
  | .connect =>
    if t.place = .connecting then
      some { t with place := .asking, ssl := ⟨[], []⟩, lost := false, served := true } else none
  | .refuse =>
    if t.place = .connecting then
      some { t with place := .barrier false, failCount := requests } else none
  | .send c =>
    match t.place with
    | .asking =>
      some <| t.afterWrite opReqOtp (c.otpReq tid) c fun sent t =>
        { t with place := if sent then .asked else .barrier true }
    | .loggingIn =>
      -- what it returns is not looked at
      some <| t.afterWrite opLogin (c.loginReq tid t.recvBuf) c fun _ t =>
        { t with place := .loggedIn }
    | .sending i =>
      if (i : ℤ) < requests then
        some <| t.afterWrite c.op (c.transReq tid) c fun sent t =>
          if sent then { t with place := .receiving i } else t.failed i
      else none
    | _ => none
  | .receive =>
    if ¬ t.Readable then none else
    match t.place with
    | .asked =>
      some <| t.afterReceive fun status t =>
        { t with place :=
            if 0 ≤ status ∧ statusIn t.recvBuf = statusSuccess then .loggingIn else .barrier true }
    | .loggedIn => some <| t.afterReceive fun _ t => { t with place := .barrier true }
    | .receiving i =>
      some <| t.afterReceive fun status t => if 0 ≤ status then t.succeeded i else t.failed i
    | _ => none
  | .leave =>
    match t.place with
    | .barrier connected => some { t with place := if connected then .sending 0 else .finished }
    | _ => none
  | .close =>
    match t.place with
    | .sending i => if requests ≤ i then some { t with place := .finished } else none
    | _ => none
  | .lose => if t.lost then none else some { t with lost := true }

end LoadThread

/-! ## One call -/

/-- **Nothing is received where nothing was written.** -/
theorem clientReceive_unanswered (outgoing : Stream) (headerOut body : List UInt8) :
    clientReceive ⟨true, some ⟨[], outgoing⟩⟩ headerOut body maxDataSize =
      .ok ⟨-1, headerOut, body, ⟨true, some ⟨[], outgoing⟩⟩⟩ := by
  have hcopy : memcpy headerOut [] 0 = .ok headerOut := memcpy_eq le_rfl (Nat.zero_le _)
  have hread : sslRead ⟨[], outgoing⟩ headerOut protocolHeaderSize =
      .ok (0, headerOut, ⟨[], outgoing⟩) := by
    rw [sslRead]
    simp only [Stream.read, List.length_nil, hcopy, ok_bind]
    rfl
  rw [clientReceive]
  simp only [ClientContext.connection, ↓reduceIte, hread, ok_bind]
  rfl

namespace SendContext

variable (c : SendContext) (tid : ℕ)

theorem length_otpReq : (c.otpReq tid).length = accountIdLen := length_strncpy _ _

theorem length_transReq : (c.transReq tid).length = sizeofAmountRequest := by
  rw [transReq, List.length_append, (printedId _ _).length_eq]
  split
  · rw [c.amountMemory.toList_length]
    rfl
  · rw [Double.bytes, length_toLe]
    rfl

end SendContext

namespace LoadThread

variable {t t' : LoadThread} {requests : ℤ} {tid opCode : ℕ} {data : List UInt8} {c : SendContext}

/-- **A request of a thread is one short record**, or none on a broken connection. -/
theorem write_eq (h : data.length ≤ 30) (opCode : ℕ) (c : SendContext) :
    t.write opCode data c = if t.lost then .ok (-1, t.ssl) else
      .ok (protocolHeaderSize + data.length,
        ⟨t.ssl.incoming, t.ssl.outgoing ++ [frame opCode data c.rand]⟩) := by
  have hfits : protocolHeaderSize + data.length ≤ sendBufferSize :=
    (Nat.add_le_add_left h _).trans (by decide)
  have hne : frame opCode data c.rand ≠ [] := by
    rw [← List.length_pos_iff, length_frame]
    exact Nat.add_pos_left (by decide) _
  rw [write]
  split
  · rfl
  · rw [clientSend_eq t.ssl opCode c.rand c.buffer hfits, ok_bind, write_of_ne _ hne]
    rfl

theorem afterWrite_eq (h : data.length ≤ 30) (opCode : ℕ) (c : SendContext)
    (next : Bool → LoadThread → LoadThread) : t.afterWrite opCode data c next =
      if t.lost then next false t else next true { t with
        ssl := ⟨t.ssl.incoming, t.ssl.outgoing ++ [frame opCode data c.rand]⟩ } := by
  by_cases hl : t.lost
  · rw [afterWrite, write_eq h, if_pos hl, if_pos hl]
    rfl
  · have hpos : (0 : ℤ) < protocolHeaderSize + data.length := by
      have : 0 < protocolHeaderSize := by decide
      omega
    rw [afterWrite, write_eq h, if_neg hl, if_neg hl]
    dsimp only
    rw [decide_eq_true hpos]

theorem afterReceive_eq (h : t.ssl.incoming = []) (next : ℤ → LoadThread → LoadThread) :
    t.afterReceive next = next (-1) t := by
  obtain ⟨place, ⟨incoming, outgoing⟩, lost, served, headerOut, recvBuf, success, fail⟩ := t
  obtain rfl : incoming = [] := h
  rw [afterReceive, clientReceive_unanswered]
  rfl

/-! ## Without an answer -/

/-- What has failed so far, where the thread is. -/
def FailsSoFar (requests : ℤ) (t : LoadThread) : Prop :=
  match t.place with
  | .absent | .connecting | .asking | .asked | .barrier true => t.failCount = 0
  | .barrier false => t.failCount = requests
  | .sending i => t.failCount = i ∧ i ≤ requests.toNat
  | .receiving i => t.failCount = i ∧ i < requests.toNat
  | .finished => t.failCount = requests ∨ t.failCount = requests.toNat
  | .loggingIn | .loggedIn | .faulted => False

/-- **A thread that gets no response**: all it has written is short, a worker that has its
connection has something to read, and every request so far has failed. -/
structure Fits (requests : ℤ) (t : LoadThread) : Prop where
  unanswered : t.ssl.incoming = []
  short : ∀ r ∈ t.ssl.outgoing, r.length < sizeofBankingPacket
  heard : t.served → t.place = .asking ∨ t.place = .finished ∨ t.ssl.outgoing ≠ [] ∨ t.lost
  success : t.successCount = 0
  fails : t.FailsSoFar requests

/-- **What an event does to a thread that gets no response.** -/
inductive Steps (requests : ℤ) (t : LoadThread) : ThreadEvent → LoadThread → Prop
  | connect : t.place = .connecting → Steps requests t .connect
    { t with place := .asking, ssl := ⟨[], []⟩, lost := false, served := true }
  | refuse : t.place = .connecting → Steps requests t .refuse
    { t with place := .barrier false, failCount := requests }
  | ask (c : SendContext) (r : List UInt8) : t.place = .asking → r.length < sizeofBankingPacket →
    Steps requests t (.send c)
      { t with place := .asked, ssl := ⟨t.ssl.incoming, t.ssl.outgoing ++ [r]⟩ }
  | askLost (c : SendContext) : t.place = .asking → t.lost →
    Steps requests t (.send c) { t with place := .barrier true }
  | send (c : SendContext) (r : List UInt8) (i : ℕ) : t.place = .sending i → i < requests.toNat →
    r.length < sizeofBankingPacket → Steps requests t (.send c)
      { t with place := .receiving i, ssl := ⟨t.ssl.incoming, t.ssl.outgoing ++ [r]⟩ }
  | sendLost (c : SendContext) (i : ℕ) : t.place = .sending i → i < requests.toNat → t.lost →
    Steps requests t (.send c) (t.failed i)
  | receiveAsked : t.place = .asked → (t.served → t.lost) →
    Steps requests t .receive { t with place := .barrier true }
  | receive (i : ℕ) : t.place = .receiving i → (t.served → t.lost) →
    Steps requests t .receive (t.failed i)
  | leave (connected : Bool) : t.place = .barrier connected → Steps requests t .leave
    { t with place := if connected then .sending 0 else .finished }
  | close (i : ℕ) : t.place = .sending i → requests ≤ i →
    Steps requests t .close { t with place := .finished }
  | lose : t.lost = false → Steps requests t .lose { t with lost := true }

theorem short_frame (h : data.length ≤ 30) (opCode rand : ℕ) :
    (frame opCode data rand).length < sizeofBankingPacket := by
  rw [length_frame]
  exact (Nat.add_le_add_left h _).trans_lt (by decide)

theorem Fits.steps {e : ThreadEvent} (h : t.Fits requests) (hs : t.step requests tid e = some t') :
    t.Steps requests e t' := by
  obtain ⟨hin, -, -, -, hfails⟩ := h
  cases e with
  | connect =>
    obtain ⟨hp, ⟨⟩⟩ := Option.ite_none_right_eq_some.mp hs
    exact .connect hp
  | refuse =>
    obtain ⟨hp, ⟨⟩⟩ := Option.ite_none_right_eq_some.mp hs
    exact .refuse hp
  | send c =>
    cases hp : t.place <;> rw [FailsSoFar, hp] at hfails <;> simp only [LoadThread.step, hp] at hs
    case asking =>
      have hdata : (c.otpReq tid).length ≤ 30 := (c.length_otpReq tid).trans_le (by decide)
      rw [afterWrite_eq hdata] at hs
      obtain rfl := Option.some.inj hs
      split
      · next hl => exact .askLost c hp hl
      · exact .ask c _ hp (short_frame hdata _ _)
    case loggingIn => exact absurd hfails id
    case sending i =>
      obtain ⟨hi, hs⟩ := Option.ite_none_right_eq_some.mp hs
      have hi : i < requests.toNat := Int.lt_toNat.mpr hi
      have hdata : (c.transReq tid).length ≤ 30 := (c.length_transReq tid).trans_le (by decide)
      rw [afterWrite_eq hdata] at hs
      obtain rfl := Option.some.inj hs
      split
      · next hl => exact .sendLost c i hp hi hl
      · exact .send c _ i hp hi (short_frame hdata _ _)
    all_goals cases hs
  | receive =>
    obtain ⟨hread, hs⟩ := Option.ite_none_left_eq_some.mp hs
    have hread : ¬ t.served ∨ t.lost := (not_not.mp hread).resolve_left fun h => h hin
    have hlost : t.served → t.lost := fun hserved => hread.resolve_left fun h => h hserved
    cases hp : t.place <;> rw [FailsSoFar, hp] at hfails <;> simp only [hp] at hs
    case asked =>
      rw [afterReceive_eq hin] at hs
      obtain rfl := Option.some.inj hs
      exact .receiveAsked hp hlost
    case loggedIn => exact absurd hfails id
    case receiving i =>
      rw [afterReceive_eq hin] at hs
      obtain rfl := Option.some.inj hs
      exact .receive i hp hlost
    all_goals cases hs
  | leave =>
    cases hp : t.place <;> simp only [LoadThread.step, hp] at hs
    case barrier connected =>
      obtain rfl := Option.some.inj hs
      exact .leave connected hp
    all_goals cases hs
  | close =>
    cases hp : t.place <;> simp only [LoadThread.step, hp] at hs
    case sending i =>
      obtain ⟨hi, ⟨⟩⟩ := Option.ite_none_right_eq_some.mp hs
      exact .close i hp hi
    all_goals cases hs
  | lose =>
    obtain ⟨hl, ⟨⟩⟩ := Option.ite_none_left_eq_some.mp hs
    exact .lose (eq_false_of_ne_true hl)

/-- One more short record. -/
theorem short_append {s : Stream} (h : ∀ r ∈ s, r.length < sizeofBankingPacket) {r : List UInt8}
    (hr : r.length < sizeofBankingPacket) : ∀ r' ∈ s ++ [r], r'.length < sizeofBankingPacket :=
  fun r' hr' => (List.mem_append.mp hr').elim (h r') fun h => List.mem_singleton.mp h ▸ hr

/-- A request that fails. -/
theorem Fits.failed (h : t.Fits requests) {i : ℕ} (hreads : t.served → t.ssl.outgoing ≠ [] ∨ t.lost)
    (hfails : t.failCount = i) (hi : i < requests.toNat) : (t.failed i).Fits requests where
  unanswered := h.unanswered
  short := h.short
  heard hserved := .inr (.inr (hreads hserved))
  success := h.success
  fails := ⟨(congrArg (· + 1) hfails).trans (Nat.cast_succ i).symm, hi⟩

/-- A served thread that is neither about to ask nor at its end has written something. -/
theorem Fits.reads (h : t.Fits requests) (hasking : t.place ≠ .asking)
    (hfinished : t.place ≠ .finished) (hserved : t.served) : t.ssl.outgoing ≠ [] ∨ t.lost :=
  ((h.heard hserved).resolve_left hasking).resolve_left hfinished

theorem Fits.step {e : ThreadEvent} (h : t.Fits requests) (hs : t.step requests tid e = some t') :
    t'.Fits requests := by
  have hfails := h.fails
  cases h.steps hs with
  | connect hp =>
    rw [FailsSoFar, hp] at hfails
    exact ⟨rfl, fun _ hr => absurd hr List.not_mem_nil, fun _ => .inl rfl, h.success, hfails⟩
  | refuse hp =>
    have hreads := h.reads (by rw [hp]; nofun) (by rw [hp]; nofun)
    exact ⟨h.unanswered, h.short, fun hserved => .inr (.inr (hreads hserved)), h.success, rfl⟩
  | ask c r hp hr =>
    rw [FailsSoFar, hp] at hfails
    exact ⟨h.unanswered, short_append h.short hr, fun _ => .inr (.inr (.inl (by simp))), h.success,
      hfails⟩
  | askLost c hp hl =>
    rw [FailsSoFar, hp] at hfails
    exact ⟨h.unanswered, h.short, fun _ => .inr (.inr (.inr hl)), h.success, hfails⟩
  | send c r i hp hi hr =>
    rw [FailsSoFar, hp] at hfails
    exact ⟨h.unanswered, short_append h.short hr, fun _ => .inr (.inr (.inl (by simp))), h.success,
      hfails.1, hi⟩
  | sendLost c i hp hi hl =>
    rw [FailsSoFar, hp] at hfails
    exact h.failed (fun _ => .inr hl) hfails.1 hi
  | receiveAsked hp hlost =>
    rw [FailsSoFar, hp] at hfails
    exact ⟨h.unanswered, h.short, fun hserved => .inr (.inr (.inr (hlost hserved))), h.success,
      hfails⟩
  | receive i hp hlost =>
    rw [FailsSoFar, hp] at hfails
    exact h.failed (fun hserved => .inr (hlost hserved)) hfails.1 hfails.2
  | leave connected hp =>
    have hreads := h.reads (by rw [hp]; nofun) (by rw [hp]; nofun)
    rw [FailsSoFar, hp] at hfails
    cases connected with
    | false =>
      exact ⟨h.unanswered, h.short, fun hserved => .inr (.inr (hreads hserved)), h.success,
        .inl hfails⟩
    | true =>
      exact ⟨h.unanswered, h.short, fun hserved => .inr (.inr (hreads hserved)), h.success, hfails,
        Nat.zero_le _⟩
  | close i hp hi =>
    rw [FailsSoFar, hp] at hfails
    obtain rfl : i = requests.toNat := le_antisymm hfails.2 (Int.toNat_le.mpr hi)
    exact ⟨h.unanswered, h.short, fun _ => .inr (.inl rfl), h.success, .inr hfails.1⟩
  | lose => exact ⟨h.unanswered, h.short, fun _ => .inr (.inr (.inr rfl)), h.success, hfails⟩

end LoadThread

end BankingSystem
