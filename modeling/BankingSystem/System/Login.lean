import BankingSystem.Otp.Issued
import BankingSystem.Otp.Socket
import BankingSystem.Server.Session

/-!
# System/Login — the two servers together (`process_request`, `call_otp_service`, `handle_client`)

The banking server asks the OTP server while it handles a packet, and others may ask it too.  A run
of both is a list of events: packets the workers handle, and requests of others, in the order in
which `handle_client` is called for them.  On the side of the OTP server it is a run of
`handle_client` on what reaches it (`otps_after`); what a client reads of it are the responses.

There a login succeeds at most as often as its code was told (`logins_le_told`), and from the
response that tells a code on exactly that code logs in, until it is used or another one is asked
for (`login_iff_told`).
-/

namespace BankingSystem

open Bytes CString Interleave Machine

/-! ## Events -/

/-- How far a request to the OTP server gets: there is no connection, or its reply is lost, or it is
answered. -/
inductive Link where
  | down
  | unanswered
  | answered
  deriving DecidableEq

/-- **A packet as a worker meets it**: uninitialised locals, and for a request to the OTP server the
connection, the random number and the clock there, and the memory behind the two messages. -/
structure Delivery where
  connection : ℕ
  packet : BankingPacket
  locals : Locals
  link : Link
  rand : ℕ
  time : ℤ
  stale : CharPtr
  back : CharPtr
  wellSized : packet.WellSized
  terminated : 0 ∈ packet.payload.take accountIdLen

/-- A packet, or a request to the OTP server from elsewhere. -/
inductive Event where
  | packet (q : Delivery)
  | foreign (a : Arrival)

/-- The state of both servers. -/
structure Servers where
  accounts : AccountDB Double
  otps : OtpDB

/-- Both servers as they start. -/
def Servers.init : Servers := ⟨accountInit, otpInit⟩

instance (packet : BankingPacket) (size : ℕ) : Decidable (packet.Accepted size) :=
  inferInstanceAs (Decidable (_ ∧ _))

namespace Delivery

variable (q : Delivery)

/-- The packet, with an OTP service. -/
def received (otp : OtpService) : Received where
  connection := q.connection
  packet := q.packet
  locals := q.locals
  otp := otp
  wellSized := q.wellSized
  terminated := q.terminated

/-- The opcode, in host order. -/
def opcode : ℕ := ntoh q.packet.opCode

/-- The account the packet names. -/
def account : List UInt8 := CString.text (q.packet.payload.take accountIdLen)

/-- The request struct in memory. -/
def memory : CharPtr := onto q.packet.payload q.locals.req

/-- The characters of `LoginRequest.otp` that are compared. -/
def loginCode : List UInt8 := chars (loginOtp q.memory) 7

/-- The OTP server, as far as the packet's request gets. -/
def service (otpDb : OtpDB) : OtpService :=
  match q.link with
  | .answered => otpServer otpDb q.rand q.time q.stale q.back
  | .down | .unanswered => fun _ _ => none

/-- The GENERATE of an `OP_REQ_OTP`. -/
def generate : Arrival :=
  .ofService otpOpGenerate (accountId q.memory) none q.stale q.rand q.time

/-- The VERIFY of an `OP_LOGIN`. -/
def verify : Arrival :=
  .ofService otpOpVerify (accountId q.memory) (some (loginOtp q.memory)) q.stale q.rand q.time

/-- **The request to the OTP server** that the handling of the packet makes. -/
def asks : Option Arrival :=
  if q.opcode = opReqOtp ∧ q.packet.Accepted sizeofAccountRequest then some q.generate
  else if q.opcode = opLogin ∧ q.packet.Accepted sizeofLoginRequest then some q.verify
  else none

end Delivery

/-- **What reaches the OTP server.** -/
def Event.arrival : Event → Option Arrival
  | packet q => if q.link = .down then none else q.asks
  | foreign a => some a

/-- There is a response to it that tells what the OTP server replied. -/
def Event.answered : Event → Prop
  | packet q => q.link = .answered
  | foreign _ => False

/-- The table of the OTP server after what reaches it. -/
def otpsAfter (otpDb : OtpDB) : Option Arrival → OtpDB
  | some a => (serve otpDb a).2
  | none => otpDb

/-- **One event**: a packet is answered, and both servers change. -/
def Servers.step (s : Servers) : Event → Option (Delivery × BankingResponse) × Servers
  | .packet q =>
    let e := (q.received (q.service s.otps)).step s.accounts
    (some (q, e.1.response), ⟨e.2, otpsAfter s.otps (Event.packet q).arrival⟩)
  | .foreign a => (none, ⟨s.accounts, otpsAfter s.otps (some a)⟩)

/-- The response to a packet. -/
def Servers.response (s : Servers) (q : Delivery) : BankingResponse :=
  ((q.received (q.service s.otps)).step s.accounts).1.response

/-! ## The side of the OTP server -/

theorem otps_step (s : Servers) (e : Event) : (s.step e).2.otps = otpsAfter s.otps e.arrival := by
  cases e <;> rfl

/-- **A run is a run of the OTP server on what reaches it.** -/
theorem otps_after (s : Servers) (events : List Event) :
    (after Servers.step s events).otps = after serve s.otps (events.filterMap Event.arrival) := by
  induction events generalizing s with
  | nil => rfl
  | cons e events ih =>
    rw [after, ih, otps_step]
    cases h : e.arrival with
    | none => rw [List.filterMap_cons_none h]; rfl
    | some a => rw [List.filterMap_cons_some h]; rfl

/-! ## The packets for it -/

section Packet

variable {s : Servers} {q : Delivery}

theorem account_generate : q.generate.account = q.account := by
  rw [Delivery.generate, Arrival.account_ofService]
  exact (q.received fun _ _ => none).chars_memory (by decide)

theorem account_verify : q.verify.account = q.account := by
  rw [Delivery.verify, Arrival.account_ofService]
  exact (q.received fun _ _ => none).chars_memory (by decide)

theorem code_verify : q.verify.code = q.loginCode := Arrival.code_ofService ..

theorem asks_reqOtp (hop : q.opcode = opReqOtp) (hacc : q.packet.Accepted sizeofAccountRequest) :
    q.asks = some q.generate := if_pos ⟨hop, hacc⟩

theorem asks_login (hop : q.opcode = opLogin) (hacc : q.packet.Accepted sizeofLoginRequest) :
    q.asks = some q.verify := by
  have hne : ¬ (q.opcode = opReqOtp ∧ q.packet.Accepted sizeofAccountRequest) := fun h =>
    absurd (hop.symm.trans h.1) (by decide)
  rw [Delivery.asks, if_neg hne, if_pos ⟨hop, hacc⟩]

/-- What a packet asks is its GENERATE or its VERIFY. -/
theorem asks_cases {a : Arrival} (h : q.asks = some a) :
    (q.opcode = opReqOtp ∧ q.packet.Accepted sizeofAccountRequest ∧ a = q.generate) ∨
      (q.opcode = opLogin ∧ q.packet.Accepted sizeofLoginRequest ∧ a = q.verify) := by
  rw [Delivery.asks] at h
  split at h
  · rename_i hop
    exact Or.inl ⟨hop.1, hop.2, (Option.some.inj h).symm⟩
  · split at h
    · rename_i hop
      exact Or.inr ⟨hop.1, hop.2, (Option.some.inj h).symm⟩
    · cases h

/-- What reaches the OTP server of a packet. -/
theorem arrival_packet {a : Arrival} (h : (Event.packet q).arrival = some a) :
    q.link ≠ .down ∧ q.asks = some a := by
  rw [Event.arrival] at h
  split at h
  · cases h
  · exact ⟨‹_›, h⟩

/-- …and it is about the account of the packet. -/
theorem account_of_arrival {a : Arrival} (h : (Event.packet q).arrival = some a) :
    a.account = q.account := by
  obtain ⟨-, hasks⟩ := arrival_packet h
  obtain ⟨-, -, rfl⟩ | ⟨-, -, rfl⟩ := asks_cases hasks
  · exact account_generate
  · exact account_verify

/-- The OTP server, to a packet whose request is answered. -/
theorem otpServer_eq (otpDb : OtpDB) (opCode : ℤ) (account : CharPtr) (otpIn : Option CharPtr) :
    otpServer otpDb q.rand q.time q.stale q.back opCode (otpIpcFields account otpIn) =
      let res := (serve otpDb (.ofService opCode account otpIn q.stale q.rand q.time)).1
      some ⟨res.status, onto (res.otpCode.bytes ++ res.message.bytes) q.back⟩ :=
  congrArg (Option.map _) (handleClient_eq otpDb
    (.ofService opCode account otpIn q.stale q.rand q.time))

/-- **A login succeeds just in case the OTP server verifies it.** -/
theorem login_iff (hop : q.opcode = opLogin) : (s.response q).status = statusSuccess ↔
    q.link = .answered ∧ q.packet.Accepted sizeofLoginRequest ∧
      (serve s.otps q.verify).1.status = 1 := by
  have hlogin := login_succeeds_iff (q.received (q.service s.otps)) s.accounts hop
  have hservice : (∃ res, q.service s.otps otpOpVerify (otpIpcFields (accountId q.memory)
      (some (loginOtp q.memory))) = some res ∧ res.status = 1) ↔
      q.link = .answered ∧ (serve s.otps q.verify).1.status = 1 := by
    rw [Delivery.service]
    cases q.link with
    | answered =>
      dsimp only
      rw [otpServer_eq]
      simp [Delivery.verify]
    | down => simp
    | unanswered => simp
  exact hlogin.trans ((and_congr_right fun _ => hservice).trans and_left_comm)

/-- The code in the text of a response. -/
def toldCode (response : BankingResponse) : List UInt8 :=
  response.message.text.drop (ascii "OTP Generated: ").length

/-- A request for an OTP is handled by its case of the switch. -/
theorem response_reqOtp (hop : q.opcode = opReqOtp)
    (hacc : q.packet.Accepted sizeofAccountRequest) :
    s.response q = ((caseReqOtp (q.service s.otps) q.memory).exec s.accounts).1 := by
  change ((handled q.locals (q.service s.otps) q.packet).exec s.accounts).1 = _
  rw [handled, if_pos hacc.1, served_reqOtp hop, servedCase_of_fits hacc.1 hacc.2]
  rfl

/-- The call of the OTP service, when its request is answered. -/
theorem requestOtpGeneration_eq (hlink : q.link = .answered) :
    requestOtpGeneration (q.service s.otps) (accountId q.memory) =
      if (serve s.otps q.generate).1.status = 1 then
        some (strncpy (onto ((serve s.otps q.generate).1.otpCode.bytes ++
          (serve s.otps q.generate).1.message.bytes) q.back) 8)
      else none := by
  rw [requestOtpGeneration, callOtpService, Delivery.service, hlink]
  dsimp only
  rw [otpServer_eq]
  rfl

/-- A code of the OTP server is told as it is. -/
theorem toldCode_make (res : OtpIpcResponse) (back : CharPtr) :
    toldCode (.make statusSuccess (ascii "OTP Generated: " ++ CString.text (strncpy (onto
      (res.otpCode.bytes ++ res.message.bytes) back) 8 ++ [0, 0])) Arith.zero) =
        res.otpCode.text := by
  have hstring := res.otpCode.isString (onto (res.otpCode.bytes ++ res.message.bytes) back)
  rw [← onto_append] at hstring
  have hlt : res.otpCode.text.length < 8 := res.otpCode.length_text_lt
  rw [hstring.text_strncpy hlt.le [0]]
  have hnul : 0 ∉ ascii "OTP Generated: " ++ res.otpCode.text := by
    rw [List.mem_append, not_or]
    exact ⟨by decide, res.otpCode.zero_notMem_text⟩
  have hfits : (ascii "OTP Generated: " ++ res.otpCode.text).length ≤ 255 := by
    have hlabel : (ascii "OTP Generated: ").length = 15 := by decide
    rw [List.length_append, hlabel]
    omega
  have htext : (BankingResponse.make statusSuccess (ascii "OTP Generated: " ++ res.otpCode.text)
      Arith.zero).message.text = ascii "OTP Generated: " ++ res.otpCode.text :=
    ((CharArray.zero 255).text_print hnul).trans (List.take_of_length_le hfits)
  rw [toldCode, htext, List.drop_left]

/-- **A request for an OTP succeeds just in case the OTP server issues a code**, and then the
response tells it. -/
theorem reqOtp_iff (hop : q.opcode = opReqOtp) : ((s.response q).status = statusSuccess ↔
    q.link = .answered ∧ q.packet.Accepted sizeofAccountRequest ∧
      (serve s.otps q.generate).1.status = 1) ∧
    ((s.response q).status = statusSuccess →
      toldCode (s.response q) = replyCode s.otps q.generate) := by
  by_cases hacc : q.packet.Accepted sizeofAccountRequest
  · by_cases hlink : q.link = .answered
    · rw [response_reqOtp hop hacc, caseReqOtp, requestOtpGeneration_eq hlink]
      by_cases hst : (serve s.otps q.generate).1.status = 1
      · rw [if_pos hst]
        exact ⟨iff_of_true rfl ⟨hlink, hacc, hst⟩, fun _ => toldCode_make ..⟩
      · rw [if_neg hst]
        exact ⟨iff_of_false (BankingResponse.status_error _) fun h => hst h.2.2,
          fun h => absurd h (BankingResponse.status_error _)⟩
    · have hservice : q.service s.otps = fun _ _ => none := by
        rw [Delivery.service]
        cases h : q.link with
        | answered => exact absurd h hlink
        | down => rfl
        | unanswered => rfl
      rw [response_reqOtp hop hacc, hservice]
      exact ⟨iff_of_false (BankingResponse.status_error _) fun h => hlink h.1,
        fun h => absurd h (BankingResponse.status_error _)⟩
  · have hfailed : (s.response q).status ≠ statusSuccess := fun hst => by
      have hok : q.packet.ChecksumOk :=
        checksumOk_of_succeeds (q.received (q.service s.otps)) s.accounts hst
      change ((handled q.locals (q.service s.otps) q.packet).exec s.accounts).1.status = _ at hst
      rw [handled, if_pos hok, served_reqOtp hop, servedCase_of_not_accepted hacc] at hst
      exact BankingResponse.status_error _ hst
    exact ⟨iff_of_false hfailed fun h => hacc h.2.1, fun h => absurd h hfailed⟩

end Packet

/-! ## Logins and the codes they need -/

/-- The code a response told the account. -/
def told (account : List UInt8) : Option (Delivery × BankingResponse) → List (List UInt8)
  | some (q, response) =>
    if q.opcode = opReqOtp ∧ q.account = account ∧ response.status = statusSuccess
      then [toldCode response] else []
  | none => []

/-- The code of a login to the account that succeeded. -/
def loggedIn (account : List UInt8) : Option (Delivery × BankingResponse) → List (List UInt8)
  | some (q, response) =>
    if q.opcode = opLogin ∧ q.account = account ∧ response.status = statusSuccess
      then [q.loginCode] else []
  | none => []

/-- A GENERATE for the account reaches the OTP server, and no response tells its code. -/
def Event.Hidden (account : List UInt8) (e : Event) : Prop :=
  ¬ e.answered ∧ ∃ a, e.arrival = some a ∧ a.Generates account

/-- What the OTP server issues to the account on what reaches it. -/
def issuedOn (account : List UInt8) (otpDb : OtpDB) : Option Arrival → List (List UInt8)
  | some a => if Issues otpDb a account then [replyCode otpDb a] else []
  | none => []

/-- What it accepts for the account. -/
def acceptedOn (account : List UInt8) (otpDb : OtpDB) : Option Arrival → List (List UInt8)
  | some a => if Accepts otpDb a account then [a.code] else []
  | none => []

section Codes

variable {account : List UInt8} {s : Servers} {e : Event} {events : List Event}

theorem issued_events (account : List UInt8) (otpDb : OtpDB) (e : Event) (events : List Event) :
    issued account otpDb ((e :: events).filterMap Event.arrival) =
      issuedOn account otpDb e.arrival ++
        issued account (otpsAfter otpDb e.arrival) (events.filterMap Event.arrival) := by
  cases h : e.arrival with
  | none => rw [List.filterMap_cons_none h]; rfl
  | some a => rw [List.filterMap_cons_some h]; rfl

theorem accepted_events (account : List UInt8) (otpDb : OtpDB) (e : Event) (events : List Event) :
    accepted account otpDb ((e :: events).filterMap Event.arrival) =
      acceptedOn account otpDb e.arrival ++
        accepted account (otpsAfter otpDb e.arrival) (events.filterMap Event.arrival) := by
  cases h : e.arrival with
  | none => rw [List.filterMap_cons_none h]; rfl
  | some a => rw [List.filterMap_cons_some h]; rfl

/-- A code that is issued on a packet, and not hidden, is one of an `OP_REQ_OTP` that succeeds. -/
theorem reqOtp_of_issues {q : Delivery} {a : Arrival} (h : ¬ (Event.packet q).Hidden account)
    (ha : (Event.packet q).arrival = some a) (hi : Issues s.otps a account) :
    q.opcode = opReqOtp ∧ q.account = account ∧ (s.response q).status = statusSuccess := by
  have hlink : q.link = .answered := not_not.mp fun hno => h ⟨hno, a, ha, hi.1⟩
  obtain ⟨-, hasks⟩ := arrival_packet ha
  obtain ⟨hop, hacc, rfl⟩ | ⟨-, -, rfl⟩ := asks_cases hasks
  · have haccount : q.account = account := account_generate.symm.trans hi.1.2
    exact ⟨hop, haccount, (reqOtp_iff hop).1.mpr ⟨hlink, hacc, hi.2⟩⟩
  · exact absurd hi.1.1 (ne_generate_of_verify rfl)

/-- **A code is told when it is issued**, unless that is hidden. -/
theorem told_step (h : ¬ e.Hidden account) :
    told account (s.step e).1 = issuedOn account s.otps e.arrival := by
  cases e with
  | foreign a => exact (if_neg fun hi => h ⟨id, a, rfl, hi.1⟩).symm
  | packet q =>
    change (if q.opcode = opReqOtp ∧ q.account = account ∧ (s.response q).status = statusSuccess
      then [toldCode (s.response q)] else []) = _
    split
    · rename_i htold
      obtain ⟨hop, rfl, hst⟩ := htold
      obtain ⟨hlink, hacc, hone⟩ := (reqOtp_iff hop).1.mp hst
      have harrival : (Event.packet q).arrival = some q.generate := by
        rw [Event.arrival, hlink, if_neg (by decide), asks_reqOtp hop hacc]
      rw [harrival, issuedOn, if_pos ⟨⟨rfl, account_generate⟩, hone⟩, (reqOtp_iff hop).2 hst]
    · rename_i htold
      cases ha : (Event.packet q).arrival with
      | none => rfl
      | some a => exact (if_neg fun hi => htold (reqOtp_of_issues h ha hi)).symm

/-- **A login that succeeds is a VERIFY that is accepted.** -/
theorem loggedIn_step (account : List UInt8) (s : Servers) (e : Event) :
    (loggedIn account (s.step e).1).Sublist (acceptedOn account s.otps e.arrival) := by
  cases e with
  | foreign a => exact List.nil_sublist _
  | packet q =>
    change (if q.opcode = opLogin ∧ q.account = account ∧ (s.response q).status = statusSuccess
      then [q.loginCode] else []).Sublist _
    split
    · rename_i h
      obtain ⟨hop, rfl, hst⟩ := h
      obtain ⟨hlink, hacc, hone⟩ := (login_iff hop).mp hst
      have harrival : (Event.packet q).arrival = some q.verify := by
        rw [Event.arrival, hlink, if_neg (by decide), asks_login hop hacc]
      rw [harrival, acceptedOn, if_pos ⟨⟨rfl, account_verify⟩, hone⟩, code_verify]
    · exact List.nil_sublist _

/-- Along a run the codes told are those issued… -/
theorem told_answers (h : ∀ e ∈ events, ¬ e.Hidden account) :
    (answers Servers.step s events).flatMap (told account) =
      issued account s.otps (events.filterMap Event.arrival) := by
  induction events generalizing s with
  | nil => rfl
  | cons e events ih =>
    obtain ⟨he, hevents⟩ := List.forall_mem_cons.mp h
    rw [answers, List.flatMap_cons, told_step he, ih hevents, issued_events, otps_step]

/-- …and the logins are among the codes accepted. -/
theorem loggedIn_answers (account : List UInt8) (s : Servers) (events : List Event) :
    ((answers Servers.step s events).flatMap (loggedIn account)).Sublist
      (accepted account s.otps (events.filterMap Event.arrival)) := by
  induction events generalizing s with
  | nil => exact List.nil_sublist _
  | cons e events ih =>
    have hrest := ih (s.step e).2
    rw [otps_step] at hrest
    rw [answers, List.flatMap_cons, accepted_events]
    exact (loggedIn_step account s e).append hrest

/-- **Each code logs in at most as often as it was told.**  In every run of the two servers, for
every account and code, as long as no code of the account is issued without being told. -/
theorem logins_le_told {account : List UInt8} {events : List Event}
    (h : ∀ e ∈ events, ¬ e.Hidden account) (c : List UInt8) :
    ((answers Servers.step .init events).flatMap (loggedIn account)).count c ≤
      ((answers Servers.step .init events).flatMap (told account)).count c := by
  rw [told_answers h]
  exact ((loggedIn_answers account .init events).count_le c).trans
    ((Nat.le_add_right _ _).trans (accounted_init account _ c))

/-- A request as a client packs it, answered by the OTP server with what `rand` draws, on zeroed
memory. -/
def Delivery.ofClient (opcode : ℕ) (data : List UInt8) (rand : ℕ) (hfit : data.length ≤ maxDataSize)
    (hid : 0 ∈ data.take accountIdLen) : Delivery where
  connection := 0
  packet := (Received.ofClient 0 opcode data hfit hid).packet
  locals := (Received.ofClient 0 opcode data hfit hid).locals
  link := .answered
  rand := rand
  time := 0
  stale := fun _ => 0
  back := fun _ => 0
  wellSized := (Received.ofClient 0 opcode data hfit hid).wellSized
  terminated := (Received.ofClient 0 opcode data hfit hid).terminated

/-- The id field of an account with a name of one character. -/
def idField (name : UInt8) : List UInt8 := (CharArray.ofPtr (onto [name] fun _ => 0) 19).bytes

/-- `A` asks for an OTP and logs in with it twice. -/
theorem logins_le_told_twice :
    let g := Delivery.ofClient opReqOtp (idField 65) 7 (by decide) (by decide)
    let v := Delivery.ofClient opLogin (idField 65 ++ decimal 100007 ++ [0, 0, 0, 0]) 0 (by decide)
      (by decide)
    ((answers Servers.step .init [.packet g, .packet v, .packet v]).flatMap
        (loggedIn [65])).count (decimal 100007) ≤
      ((answers Servers.step .init [.packet g, .packet v, .packet v]).flatMap
        (told [65])).count (decimal 100007) := by
  intro g v
  refine logins_le_told (fun e he => ?_) _
  simp only [List.mem_cons, List.not_mem_nil, or_false] at he
  obtain rfl | rfl | rfl := he <;> exact fun h => h.1 rfl

/-! ## From a response on -/

/-- A GENERATE for the account, or a VERIFY of it with the code, reaches the OTP server. -/
def Event.Ends (account c : List UInt8) (e : Event) : Prop :=
  ∃ a, e.arrival = some a ∧ (a.Generates account ∨ a.Verifies account ∧ a.code = c)

/-- **From the response that tells a code on, exactly that code logs in.**  Until another code is
asked for the account or this one is used, a login to it that reaches the OTP server and is answered
succeeds just in case it carries the code. -/
theorem login_iff_told {s : Servers} {middle : List Event} {g v : Delivery}
    (hg : g.opcode = opReqOtp) (htold : (s.response g).status = statusSuccess)
    (hmiddle : ∀ e ∈ middle, ¬ e.Ends g.account (toldCode (s.response g)))
    (hv : v.opcode = opLogin) (haccount : v.account = g.account)
    (hacc : v.packet.Accepted sizeofLoginRequest) (hlink : v.link = .answered) :
    ((after Servers.step s (.packet g :: middle)).response v).status = statusSuccess ↔
      v.loginCode = toldCode (s.response g) := by
  obtain ⟨hglink, hgacc, hone⟩ := (reqOtp_iff hg).1.mp htold
  have hcode := (reqOtp_iff hg).2 htold
  have hissue : Issues s.otps g.generate g.account := ⟨⟨rfl, account_generate⟩, hone⟩
  have harrival : (Event.packet g).arrival = some g.generate := by
    rw [Event.arrival, hglink, if_neg (by decide), asks_reqOtp hg hgacc]
  have htop : ((after Servers.step s (.packet g :: middle)).otps.codes g.account).head? =
      some (toldCode (s.response g)) := by
    rw [otps_after, List.filterMap_cons_some harrival, after]
    refine head?_codes_after (hcode ▸ head?_codes_issue hissue) fun a ha => ?_
    obtain ⟨e, he, hea⟩ := List.mem_filterMap.mp ha
    exact not_or.mp fun h => hmiddle e he ⟨a, hea, h⟩
  have hverifies : v.verify.Verifies g.account := ⟨rfl, account_verify.trans haccount⟩
  rw [login_iff hv, verify_iff hverifies, htop, Option.some.injEq, code_verify]
  exact ⟨fun h => h.2.2.symm, fun h => ⟨hlink, hacc, h.symm⟩⟩

/-- `A` asks for an OTP, then `B` does, and then `A` logs in. -/
theorem login_iff_told_interleaved :
    let g := Delivery.ofClient opReqOtp (idField 65) 7 (by decide) (by decide)
    let m := Delivery.ofClient opReqOtp (idField 66) 8 (by decide) (by decide)
    let v := Delivery.ofClient opLogin (idField 65 ++ decimal 100007 ++ [0, 0, 0, 0]) 0 (by decide)
      (by decide)
    ((after Servers.step .init [.packet g, .packet m]).response v).status = statusSuccess ↔
      v.loginCode = toldCode (Servers.init.response g) := by
  intro g m v
  refine login_iff_told (by decide) (by decide +kernel) (fun e he h => ?_) (by decide) (by decide)
    (by decide +kernel) rfl
  rw [List.mem_singleton.mp he] at h
  obtain ⟨a, ha, hends⟩ := h
  have haccount : a.account = m.account := account_of_arrival ha
  have hother : a.account = g.account := hends.elim And.right fun h => h.1.2
  exact absurd (haccount.symm.trans hother) (by decide)

end Codes

end BankingSystem
