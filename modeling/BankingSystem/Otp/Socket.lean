import BankingSystem.Machinery.Pieces
import BankingSystem.Server.Request

/-!
# Otp/Socket — the two services on a socket (`handle_client`, `call_otp_service`)

Both sides read their message with one `read` and go on when anything was read.  A message that
arrives in pieces is then acted on with its first piece, over whatever the buffer held.  The message
acted on is the one sent exactly when it arrives in one piece (`whole_iff`).
-/

namespace BankingSystem

open Bytes CString

/-! ## The code -/

/-- `sizeof(OtpIpcRequest)`. -/
def sizeofOtpIpcRequest : ℕ := 44

/-- `sizeof(OtpIpcResponse)`. -/
def sizeofOtpIpcResponse : ℕ := 76

/-- The `int` in memory. -/
def intAt (p : CharPtr) : ℤ := asInt (le ((List.range 4).map p))

/-- The request in memory. -/
def OtpIpcRequest.ofMemory (p : CharPtr) : OtpIpcRequest := ⟨intAt p, p.add 4⟩

/-- The response in memory. -/
def OtpReply.ofMemory (p : CharPtr) : OtpReply := ⟨intAt p, p.add 4⟩

/-- The request `handle_client` goes on with after its `read`, into a buffer that held something. -/
def receivedRequest (read : List UInt8) (stale : CharPtr) : Option OtpIpcRequest :=
  if read = [] then none else some (.ofMemory (onto read stale))

/-- `handle_client`: the response written, if any, and the table after it. -/
def handleRead (otpDb : OtpDB) (read : List UInt8) (stale : CharPtr) (rand : ℕ) (time : ℤ) :
    Option (Option OtpIpcResponse × OtpDB) :=
  match receivedRequest read stale with
  | some req => (handleClient otpDb req rand time).map fun out => (some out.1, out.2)
  | none => some (none, otpDb)

/-- The response `call_otp_service` goes on with after its `read`. -/
def receivedReply (read : List UInt8) (stale : CharPtr) : Option OtpReply :=
  if read = [] then none else some (.ofMemory (onto read stale))

/-! ## Memory -/

theorem intAt_onto {bs : List UInt8} (h : bs.length = 4) (later : List UInt8) (rest : CharPtr) :
    intAt (onto (bs ++ later) rest) = asInt (le bs) := by
  have hmap : (List.range 4).map (onto (bs ++ later) rest) = bs := by
    refine List.ext_getElem (by simp [h]) fun i hi hi' => ?_
    have hlt : i < (bs ++ later).length := by
      rw [List.length_append]
      omega
    rw [List.getElem_map, List.getElem_range, onto_of_lt hlt, List.getElem_append_left hi']
  rw [intAt, hmap]

/-- **The `int` and what follows it are all of memory.** -/
theorem memory_eq {p q : CharPtr} (hint : intAt p = intAt q) (hadd : p.add 4 = q.add 4) :
    p = q := by
  have hlt : ∀ r : CharPtr, le ((List.range 4).map r) < 2 ^ 32 := fun r => by
    have h := le_lt ((List.range 4).map r)
    rw [List.length_map, List.length_range] at h
    exact h
  have hbytes : (List.range 4).map p = (List.range 4).map q :=
    le_injective (by simp) (asInt_injective (hlt p) (hlt q) hint)
  funext i
  obtain hi | hi := lt_or_ge i 4
  · exact List.map_inj_left.mp hbytes i (List.mem_range.mpr hi)
  · have h := congrFun hadd (i - 4)
    simp only [CharPtr.add, Nat.sub_add_cancel hi] at h
    exact h

/-- The same request in memory is the same memory. -/
theorem OtpIpcRequest.ofMemory_injective : Function.Injective OtpIpcRequest.ofMemory :=
  fun _ _ h => memory_eq (congrArg OtpIpcRequest.opCode h) (congrArg OtpIpcRequest.mem h)

theorem OtpReply.ofMemory_injective : Function.Injective OtpReply.ofMemory :=
  fun _ _ h => memory_eq (congrArg OtpReply.status h) (congrArg OtpReply.otpCode h)

/-! ## Messages that arrive whole -/

/-- The 76 bytes of a response. -/
def OtpIpcResponse.bytes (res : OtpIpcResponse) : List UInt8 :=
  toLe 4 (res.status % 2 ^ 32).toNat ++ (res.otpCode.bytes ++ res.message.bytes)

/-- **The OTP server as a service**: what `handle_client` replies on a table, with the memory behind
the fields of the request and of the response. -/
def otpServer (otpDb : OtpDB) (rand : ℕ) (time : ℤ) (stale back : CharPtr) : OtpService :=
  fun opcode fields => (handleClient otpDb ⟨opcode, onto fields stale⟩ rand time).map fun out =>
    ⟨out.1.status, onto (out.1.otpCode.bytes ++ out.1.message.bytes) back⟩

/-- The two services on a socket that delivers both messages whole. -/
def socketService (otpDb : OtpDB) (rand : ℕ) (time : ℤ) (stale back : CharPtr) : OtpService :=
  fun opcode fields =>
    (handleRead otpDb (toLe 4 opcode.toNat ++ fields) stale rand time).bind fun out =>
      out.1.bind fun res => receivedReply res.bytes back

theorem handleRead_eq (otpDb : OtpDB) {read : List UInt8} (h : read ≠ []) (stale : CharPtr)
    (rand : ℕ) (time : ℤ) : handleRead otpDb read stale rand time =
      (handleClient otpDb (.ofMemory (onto read stale)) rand time).map
        fun out => (some out.1, out.2) := by
  rw [handleRead, receivedRequest, if_neg h]

theorem asInt_toLe {n : ℕ} (h : n < 2 ^ 31) : asInt (le (toLe 4 n)) = n := by
  rw [le_toLe, Nat.mod_eq_of_lt (h.trans (by decide)), asInt, if_pos h]

/-- An operation and its fields are read as they were sent. -/
theorem ofMemory_request {opcode : ℕ} (h : opcode < 2 ^ 31) (fields : List UInt8)
    (stale : CharPtr) : OtpIpcRequest.ofMemory (onto (toLe 4 opcode ++ fields) stale) =
      ⟨opcode, onto fields (stale.add 4)⟩ := by
  have hadd := add_onto (toLe 4 opcode) fields stale
  rw [length_toLe] at hadd
  rw [OtpIpcRequest.ofMemory, intAt_onto (length_toLe 4 opcode), asInt_toLe h, hadd]

/-- The status of a reply is 0 or 1. -/
theorem status_handleClient {otpDb : OtpDB} {req : OtpIpcRequest} {rand : ℕ} {time : ℤ}
    {out : OtpIpcResponse × OtpDB} (h : handleClient otpDb req rand time = some out) :
    out.1.status = 0 ∨ out.1.status = 1 := by
  rw [handleClient] at h
  split at h
  · split at h
    · obtain ⟨-, -, rfl⟩ := Option.map_eq_some_iff.mp h
      exact Or.inr rfl
    · obtain rfl := Option.some.inj h
      exact Or.inl rfl
  · split at h
    · split at h
      · split at h
        · obtain rfl := Option.some.inj h
          exact Or.inr rfl
        · obtain rfl := Option.some.inj h
          exact Or.inl rfl
      · obtain rfl := Option.some.inj h
        exact Or.inl rfl
    · obtain rfl := Option.some.inj h
      exact Or.inl rfl

/-- A reply is read as it was sent. -/
theorem receivedReply_bytes {res : OtpIpcResponse} (h : res.status = 0 ∨ res.status = 1)
    (back : CharPtr) : receivedReply res.bytes back =
      some ⟨res.status, onto (res.otpCode.bytes ++ res.message.bytes) (back.add 4)⟩ := by
  have hne : res.bytes ≠ [] := by
    rw [← List.length_pos_iff, OtpIpcResponse.bytes, List.length_append, length_toLe]
    omega
  have hstatus : asInt (le (toLe 4 (res.status % 2 ^ 32).toNat)) = res.status := by
    obtain h0 | h1 := h
    · rw [h0]
      exact asInt_toLe (n := 0) (by decide)
    · rw [h1]
      exact asInt_toLe (n := 1) (by decide)
  have hadd := add_onto (toLe 4 (res.status % 2 ^ 32).toNat)
    (res.otpCode.bytes ++ res.message.bytes) back
  rw [length_toLe] at hadd
  rw [receivedReply, if_neg hne, OtpReply.ofMemory, OtpIpcResponse.bytes,
    intAt_onto (length_toLe 4 _), hstatus, hadd]

/-- **Where both messages arrive whole, the service on the socket is the OTP server.** -/
theorem socketService_eq (otpDb : OtpDB) (rand : ℕ) (time : ℤ) (stale back : CharPtr) {opcode : ℕ}
    (h : opcode < 2 ^ 31) (fields : List UInt8) :
    socketService otpDb rand time stale back opcode fields =
      otpServer otpDb rand time (stale.add 4) (back.add 4) opcode fields := by
  have hne : toLe 4 opcode ++ fields ≠ [] := by
    rw [← List.length_pos_iff, List.length_append, length_toLe]
    omega
  rw [socketService, otpServer, Int.toNat_natCast, handleRead_eq otpDb hne, ofMemory_request h]
  cases hout : handleClient otpDb ⟨opcode, onto fields (stale.add 4)⟩ rand time with
  | none => rfl
  | some out => exact receivedReply_bytes (status_handleClient hout) back

/-! ## Messages that arrive in pieces -/

/-- **The OTP server acts on the request that was sent**, whatever its buffer held: that is the one
it goes on with, and its reply and the table after it are those for the whole request. -/
structure ServesWhole (request : Block sizeofOtpIpcRequest) (s : Pieces request.toList) : Prop where
  acted : ∀ stale, receivedRequest s.read stale = some (.ofMemory (onto request.toList stale))
  same : ∀ otpDb stale rand time, handleRead otpDb s.read stale rand time =
    (handleClient otpDb (.ofMemory (onto request.toList stale)) rand time).map
      fun out => (some out.1, out.2)

/-- **The banking server acts on the response that was sent**: it returns 1, with the code, just in
case the status of the whole response is 1. -/
structure CallsWhole (response : Block sizeofOtpIpcResponse) (s : Pieces response.toList) :
    Prop where
  acted : ∀ stale, receivedReply s.read stale = some (.ofMemory (onto response.toList stale))
  result : ∀ stale opcode account otpIn,
    callOtpService (fun _ _ => receivedReply s.read stale) opcode account otpIn =
      if intAt (onto response.toList stale) = 1
        then some (strncpy ((onto response.toList stale).add 4) 8) else none

theorem servesWhole_iff (request : Block sizeofOtpIpcRequest) (s : Pieces request.toList) :
    ServesWhole request s ↔ s.pieces = [request.toList] := by
  have hne := toList_ne_nil (by decide) request
  rw [← s.read_eq_iff hne]
  refine ⟨fun h => (onto_eq_iff s.read_prefix).mp fun stale => ?_, fun h => ⟨?_, ?_⟩⟩
  · have hacted := h.acted stale
    rw [receivedRequest, if_neg (s.read_ne_nil hne)] at hacted
    exact OtpIpcRequest.ofMemory_injective (Option.some.inj hacted)
  · intro stale
    rw [receivedRequest, h, if_neg hne]
  · intro otpDb stale rand time
    rw [h, handleRead_eq otpDb hne]

theorem callsWhole_iff (response : Block sizeofOtpIpcResponse) (s : Pieces response.toList) :
    CallsWhole response s ↔ s.pieces = [response.toList] := by
  have hne := toList_ne_nil (by decide) response
  rw [← s.read_eq_iff hne]
  refine ⟨fun h => (onto_eq_iff s.read_prefix).mp fun stale => ?_, fun h => ⟨?_, ?_⟩⟩
  · have hacted := h.acted stale
    rw [receivedReply, if_neg (s.read_ne_nil hne)] at hacted
    exact OtpReply.ofMemory_injective (Option.some.inj hacted)
  · intro stale
    rw [receivedReply, h, if_neg hne]
  · intro stale opcode account otpIn
    rw [callOtpService, receivedReply, h, if_neg hne]
    rfl

/-- **The messages acted on are those that were sent exactly when each arrives in one piece**, for
every request, every response and every way to cut them. -/
theorem whole_iff (request : Block sizeofOtpIpcRequest) (s : Pieces request.toList)
    (response : Block sizeofOtpIpcResponse) (s' : Pieces response.toList) :
    ServesWhole request s ∧ CallsWhole response s' ↔
      s.pieces = [request.toList] ∧ s'.pieces = [response.toList] :=
  and_congr (servesWhole_iff request s) (callsWhole_iff response s')

/-- A VERIFY of account `A` with the code `999999`, cut before the code, after a request with the
right one: it is accepted. -/
theorem not_whole :
    let issued := (serve otpInit (.ofService 1 (onto [65] fun _ => 0) none (fun _ => 0) 0 0)).2
    let sent := fun code : ℕ =>
      toLe 4 2 ++ otpIpcFields (onto [65] fun _ => 0) (some (onto (decimal code) fun _ => 0))
    let request : Block sizeofOtpIpcRequest := ⟨sent 999999, by decide⟩
    let s := Pieces.cut request.toList 36 (by decide) (by decide)
    (handleRead issued s.read (onto (sent 100000) fun _ => 0) 0 0).bind
        (fun out => out.1.map OtpIpcResponse.status) = some 1 ∧
      (handleRead issued request.toList (onto (sent 100000) fun _ => 0) 0 0).bind
        (fun out => out.1.map OtpIpcResponse.status) = some 0 ∧
      ¬ ServesWhole request s := by
  intro issued sent request s
  refine ⟨by decide +kernel, by decide +kernel, fun h => ?_⟩
  exact absurd ((servesWhole_iff request s).mp h) (by decide +kernel)

end BankingSystem
