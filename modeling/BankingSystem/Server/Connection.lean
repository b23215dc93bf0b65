import BankingSystem.Server.Worker

/-!
# Server/Connection — one connection in the worker loop (`worker_main`)

`workerLoop` is the loop over the reads of one connection, as one program over the shared table: a
read of another size than a packet ends it, and each packet is answered before the next is read.
For complete packets whose length field is in range it writes exactly one response to each, in
order, whatever other workers do to the table meanwhile (`returns_workerLoop`).

The field `req_id` is there to follow a request, but a response carries a number of its own:
responses can be told apart by it exactly when that number happens to be the one of the request
(`answers_iff`).
-/

namespace BankingSystem

open Bytes CString Interleave

/-! ## Packets as bytes -/

/-- `sizeof(BankingPacket)`. -/
def sizeofBankingPacket : ℕ := protocolHeaderSize + maxDataSize

namespace BankingPacket

/-- The 1036 bytes of a packet. -/
def bytes (packet : BankingPacket) : List UInt8 :=
  packet.length.toList ++ packet.opCode.toList ++ packet.checksum.toList ++ packet.reqId.toList ++
    packet.data.toList

/-- The packet with these bytes. -/
def ofBytes (bs : List UInt8) (h : bs.length = sizeofBankingPacket) : BankingPacket where
  length := slice bs 0 4 (h ▸ by decide)
  opCode := slice bs 4 2 (h ▸ by decide)
  checksum := slice bs 6 2 (h ▸ by decide)
  reqId := slice bs 8 4 (h ▸ by decide)
  data := slice bs 12 maxDataSize (h ▸ by decide)

theorem length_bytes (packet : BankingPacket) : packet.bytes.length = sizeofBankingPacket := by
  simp only [bytes, List.length_append, List.Vector.toList_length]
  rfl

/-- **A packet is read as it was written.** -/
theorem ofBytes_bytes (packet : BankingPacket) (h : packet.bytes.length = sizeofBankingPacket) :
    ofBytes packet.bytes h = packet := by
  have hle : ∀ {k}, k ≤ sizeofBankingPacket → k ≤ packet.bytes.length :=
    fun hk => hk.trans_eq h.symm
  refine BankingPacket.ext ?_ ?_ ?_ ?_ ?_
  · exact slice_eq (h := hle (by decide)) [] _ (packet.opCode.toList ++ packet.checksum.toList ++
      packet.reqId.toList ++ packet.data.toList) rfl (by simp [bytes])
  · exact slice_eq (h := hle (by decide)) packet.length.toList _ (packet.checksum.toList ++
      packet.reqId.toList ++ packet.data.toList) (by simp) (by simp [bytes])
  · exact slice_eq (h := hle (by decide)) (packet.length.toList ++ packet.opCode.toList) _
      (packet.reqId.toList ++ packet.data.toList) (by simp) (by simp [bytes])
  · exact slice_eq (h := hle (by decide)) (packet.length.toList ++ packet.opCode.toList ++
      packet.checksum.toList) _ packet.data.toList (by simp) (by simp [bytes])
  · exact slice_eq (h := hle (by decide)) (packet.length.toList ++ packet.opCode.toList ++
      packet.checksum.toList ++ packet.reqId.toList) _ [] (by simp) (by simp [bytes])

end BankingPacket

/-! ## The loop -/

/-- **One iteration of the loop**: the bytes a `tls_read` into `packet` returns, and what handling
them meets: uninitialised locals, the OTP service, and what `rand()` returns for the response. -/
structure Turn where
  bytes : List UInt8
  locals : Locals
  otp : OtpService
  rand : ℕ

/-- What an iteration does: the packet it writes, or `none` where it ends the loop. -/
def iteration (t : Turn) : Option (Prog (AccountDB Double) Mutex (Except Fault BankingPacket)) :=
  if h : t.bytes.length = sizeofBankingPacket then
    some <| match handlePacket t.locals t.otp (.ofBytes t.bytes h) with
      | .ok prog => prog.map fun response => (packResponse t.locals response t.rand).map Prod.snd
      | .error fault => .ret (.error fault)
  else none

/-- The loop of `worker_main` over the reads of a connection: the packets it writes. -/
def workerLoop : List Turn → Prog (AccountDB Double) Mutex (Except Fault (List BankingPacket))
  | [] => .ret (.ok [])
  | t :: ts =>
    match iteration t with
    | some prog => prog.bind fun
      | .ok packet => (workerLoop ts).map fun sent => sent.map (packet :: ·)
      | .error fault => .ret (.error fault)
    | none => .ret (.ok [])

/-- **A complete packet whose length field is in range**, and what its handling meets. -/
structure Incoming where
  packet : BankingPacket
  locals : Locals
  otp : OtpService
  rand : ℕ
  wellSized : packet.WellSized

/-- Its iteration of the loop. -/
def Incoming.turn (r : Incoming) : Turn := ⟨r.packet.bytes, r.locals, r.otp, r.rand⟩

theorem iteration_eq {t : Turn} (h : t.bytes.length = sizeofBankingPacket) {prog : RequestProg}
    (hprog : handlePacket t.locals t.otp (.ofBytes t.bytes h) = .ok prog) :
    iteration t = some (prog.map fun response =>
      (packResponse t.locals response t.rand).map Prod.snd) := by
  unfold iteration
  refine (dif_pos h).trans ?_
  rw [hprog]

theorem iteration_turn (r : Incoming) :
    iteration r.turn = some ((handled r.locals r.otp r.packet).map fun response =>
      .ok (packed opResponse response.bytes r.rand)) := by
  have hlen : r.turn.bytes.length = sizeofBankingPacket := r.packet.length_bytes
  have hprog : handlePacket r.turn.locals r.turn.otp (.ofBytes r.turn.bytes hlen) =
      .ok (handled r.locals r.otp r.packet) := by
    have hpacket : BankingPacket.ofBytes r.turn.bytes hlen = r.packet :=
      r.packet.ofBytes_bytes hlen
    rw [hpacket]
    exact handlePacket_eq r.wellSized
  rw [iteration_eq hlen hprog]
  simp only [packResponse_eq]
  rfl

/-- **One complete packet is answered, and the loop goes on.** -/
theorem returns_workerLoop_cons {r : Incoming} {ts : List Turn}
    {out : Except Fault (List BankingPacket)} : (workerLoop (r.turn :: ts)).Returns out ↔
    ∃ response rest, (handled r.locals r.otp r.packet).Returns response ∧
      (workerLoop ts).Returns rest ∧
      rest.map (packed opResponse response.bytes r.rand :: ·) = out := by
  rw [workerLoop, iteration_turn]
  simp only [Prog.returns_bind, Prog.returns_map]
  constructor
  · rintro ⟨_, ⟨response, hr, rfl⟩, hout⟩
    obtain ⟨rest, hrest, hout⟩ := Prog.returns_map.mp hout
    exact ⟨response, rest, hr, hrest, hout⟩
  · rintro ⟨response, rest, hr, hrest, hout⟩
    exact ⟨_, ⟨response, hr, rfl⟩, Prog.returns_map.mpr ⟨rest, hrest, hout⟩⟩

/-! ## The responses -/

/-- **The loop writes one packed response to each packet, in order**, whatever others do to the
table. -/
theorem returns_workerLoop {requests : List Incoming} {out : Except Fault (List BankingPacket)}
    (h : (workerLoop (requests.map Incoming.turn)).Returns out) :
    ∃ sent, out = .ok sent ∧ List.Forall₂ (fun r packet => ∃ response : BankingResponse,
      packet = packed opResponse response.bytes r.rand) requests sent := by
  induction requests generalizing out with
  | nil =>
    cases h
    exact ⟨[], rfl, .nil⟩
  | cons r requests ih =>
    obtain ⟨response, rest, -, hrest, rfl⟩ := returns_workerLoop_cons.mp h
    obtain ⟨sent, rfl, hsent⟩ := ih hrest
    exact ⟨_ :: sent, rfl, .cons ⟨response, rfl⟩ hsent⟩

/-- **So does every connection that any number of workers serve side by side.** -/
theorem sent_of_reachable {W : Type*} [DecidableEq W] {db : AccountDB Double}
    {c : Config W (List Turn) (AccountDB Double) Mutex (Except Fault (List BankingPacket))}
    (hc : Reachable workerLoop .dbLock db c) {requests : List Incoming} {t : Option ℕ}
    {out : Except Fault (List BankingPacket)} (hd : (requests.map Incoming.turn, t, out) ∈ c.done) :
    ∃ sent, out = .ok sent ∧ List.Forall₂ (fun r packet => ∃ response : BankingResponse,
      packet = packed opResponse response.bytes r.rand) requests sent :=
  returns_workerLoop (hc.returns hd)

/-- **The packet answers the request**: `unpack_response` accepts it and gives a response, it is an
`OP_RESPONSE`, and it has the request's id. -/
structure Answers (r : Incoming) (packet : BankingPacket) : Prop where
  accepted : ∃ response : BankingResponse, ∀ dest : List UInt8,
    dest.length = sizeofBankingResponse →
      unpackRequest packet dest sizeofBankingResponse = .ok (0, response.bytes)
  opCode : ntoh packet.opCode = opResponse
  reqId : packet.reqId = r.packet.reqId

theorem answers_packed_iff (r : Incoming) (response : BankingResponse) :
    Answers r (packed opResponse response.bytes r.rand) ↔
      toLe 4 r.rand = r.packet.reqId.toList := by
  refine ⟨fun h => congrArg List.Vector.toList h.reqId, fun h => ⟨⟨response, ?_⟩, ?_, ?_⟩⟩
  · intro dest hdest
    have hle := response.length_bytes_le
    have hunpack := (wellSized_packed opResponse r.rand hle).unpack_eq dest
    rw [payload_packed _ _ hle, response.length_bytes, hdest,
      if_pos ⟨checksumOk_packed _ _ hle, le_rfl⟩, List.drop_of_length_le hdest.le,
      List.append_nil] at hunpack
    exact hunpack
  · exact ntoh_hton 2 opResponse
  · exact Subtype.ext h

theorem forall₂_iff_forall {α β : Type*} {P A : α → β → Prop} {C : α → Prop} {xs : List α}
    {ys : List β} (h : List.Forall₂ P xs ys) (hA : ∀ x y, P x y → (A x y ↔ C x)) :
    List.Forall₂ A xs ys ↔ ∀ x ∈ xs, C x := by
  induction h with
  | nil => simp
  | cons hxy _ ih => rw [List.forall₂_cons, ih, hA _ _ hxy, List.forall_mem_cons]

theorem answers_iff_of_packed {r : Incoming} {packet : BankingPacket}
    (h : ∃ response : BankingResponse, packet = packed opResponse response.bytes r.rand) :
    Answers r packet ↔ toLe 4 r.rand = r.packet.reqId.toList := by
  obtain ⟨response, rfl⟩ := h
  exact answers_packed_iff r response

/-- Where all answers carry the ids of their requests, the numbers drawn were these ids: one run of
the loop, alone on a table, is enough to tell. -/
theorem reqId_of_answers {requests : List Incoming}
    (h : ∀ out, (workerLoop (requests.map Incoming.turn)).Returns out →
      ∃ sent, out = .ok sent ∧ List.Forall₂ Answers requests sent) :
    ∀ r ∈ requests, toLe 4 r.rand = r.packet.reqId.toList := by
  have hrun := Prog.returns_exec (workerLoop (requests.map Incoming.turn)) accountInit
  obtain ⟨sent, hsent, hpacked⟩ := returns_workerLoop hrun
  obtain ⟨sent', hsent', hanswers⟩ := h _ hrun
  obtain rfl := Except.ok.inj (hsent.symm.trans hsent')
  exact (forall₂_iff_forall hpacked fun _ _ => answers_iff_of_packed).mp hanswers

/-- **Every packet of a connection gets exactly one answer, in order, with its own id, just in case
the numbers `rand()` returns for the responses are the ids of the requests.** -/
theorem answers_iff (requests : List Incoming) :
    (∀ out, (workerLoop (requests.map Incoming.turn)).Returns out →
      ∃ sent, out = .ok sent ∧ List.Forall₂ Answers requests sent) ↔
    ∀ r ∈ requests, toLe 4 r.rand = r.packet.reqId.toList := by
  refine ⟨reqId_of_answers, fun h out hout => ?_⟩
  obtain ⟨sent, hsent, hpacked⟩ := returns_workerLoop hout
  exact ⟨sent, hsent, (forall₂_iff_forall hpacked fun _ _ => answers_iff_of_packed).mpr h⟩

/-- A request as a client packs it, with its id, and the number drawn for its response. -/
def Incoming.ofClient (opcode : ℕ) (data : List UInt8) (reqId rand : ℕ)
    (hfit : data.length ≤ maxDataSize) : Incoming where
  packet := packed opcode data reqId
  locals := ⟨fun _ => 0, Arith.zero, packed opcode data reqId⟩
  otp := fun _ _ => none
  rand := rand
  wellSized := wellSized_packed opcode reqId hfit

/-- The query of account `A` with id 1 is answered with id 2. -/
theorem not_answers :
    let queryA := Incoming.ofClient opBalance
      (CharArray.ofPtr (onto [65] fun _ => 0) (accountIdLen - 1)).bytes 1 2 (by decide)
    ¬ ∀ out, (workerLoop ([queryA].map Incoming.turn)).Returns out →
      ∃ sent, out = .ok sent ∧ List.Forall₂ Answers [queryA] sent := by
  intro queryA h
  have hid : toLe 4 2 = toLe 4 1 := reqId_of_answers h queryA (List.mem_singleton_self queryA)
  exact absurd hid (by decide)

end BankingSystem
