import BankingSystem.Client.Core

/-!
# Client/Sizes — the sizes `client_send` and `client_receive` pass on

Both compute in 64 bits, store 32 bits and compare after that.  When receiving this is harmless: a
length below the size of the header turns into one that no buffer has (`receivesWithin`).  When
sending it is not: a payload of 2^32 - 12 bytes or more makes the length a number below 12, which
passes the check, and the payload is copied over the end of the buffer (`sizes_iff`).
-/

namespace BankingSystem

open Bytes Records

/-! ## Sending -/

/-- **`client_send` respects the sizes**: it returns -1 with nothing copied, or header and payload
fit into the buffer, and their exact size is the length it returns and writes, and the one in the
header. -/
def SendsWithin (client : ClientContext) (opCode : ℕ) (data : List UInt8) (payloadLen rand : ℕ)
    (buffer : Block sendBufferSize) : Prop :=
  (clientSend client opCode (some data) payloadLen rand buffer = .ok (-1, client) ∧
    (client.connection = none ∨
      fillBuffer opCode (some data) payloadLen rand buffer = .ok none)) ∨
  ∃ ssl filled, client.connection = some ssl ∧
    fillBuffer opCode (some data) payloadLen rand buffer =
      .ok (some (protocolHeaderSize + payloadLen, filled)) ∧
    clientSend client opCode (some data) payloadLen rand buffer =
      .ok ((protocolHeaderSize + payloadLen : ℕ), { client with ssl := some { ssl with
        outgoing := ssl.outgoing.write (filled.take (protocolHeaderSize + payloadLen)) } }) ∧
    protocolHeaderSize + payloadLen ≤ sendBufferSize ∧ filled.length = sendBufferSize ∧
    le (filled.take 4) = protocolHeaderSize + payloadLen

section Send

variable (opCode : ℕ) {data : List UInt8} {payloadLen : ℕ} (rand : ℕ)
  (buffer : Block sendBufferSize)

/-- There is a checksum of a payload the caller has. -/
theorem exists_checksum (h : payloadLen ≤ data.length) :
    ∃ checksum, ((present (some data) payloadLen).elim (.ok 0) fun data =>
      calculateChecksum data payloadLen) = .ok checksum := by
  rw [present]
  split
  · exact ⟨_, calculateChecksum_eq h⟩
  · exact ⟨0, rfl⟩

/-- Too much for the buffer, but not for 32 bits: nothing is copied. -/
theorem fillBuffer_of_lt (h : payloadLen ≤ data.length)
    (hlen : protocolHeaderSize + payloadLen < 2 ^ 32)
    (hbuf : sendBufferSize < protocolHeaderSize + payloadLen) :
    fillBuffer opCode (some data) payloadLen rand buffer = .ok none := by
  obtain ⟨checksum, hsum⟩ := exists_checksum h
  rw [fillBuffer, hsum, Nat.mod_eq_of_lt hlen]
  simp only [bind, Except.bind, if_pos hbuf]
  rfl

/-- **What fits is copied behind the header.** -/
theorem fillBuffer_of_le (h : payloadLen ≤ data.length)
    (hbuf : protocolHeaderSize + payloadLen ≤ sendBufferSize) :
    ∃ filled, fillBuffer opCode (some data) payloadLen rand buffer =
        .ok (some (protocolHeaderSize + payloadLen, filled)) ∧
      filled.length = sendBufferSize ∧ le (filled.take 4) = protocolHeaderSize + payloadLen := by
  obtain ⟨checksum, hsum⟩ := exists_checksum h
  have hlen : protocolHeaderSize + payloadLen < 2 ^ 32 := hbuf.trans_lt (by decide)
  have hrest : (buffer.toList.drop protocolHeaderSize).length =
      sendBufferSize - protocolHeaderSize := by
    rw [List.length_drop, buffer.toList_length]
  have hhead := length_hostHeader (protocolHeaderSize + payloadLen) opCode checksum.toNat rand
  obtain ⟨body, hbody, hbodyLen⟩ : ∃ body : List UInt8,
      ((present (some data) payloadLen).elim (.ok (buffer.toList.drop protocolHeaderSize))
        fun data => memcpy (buffer.toList.drop protocolHeaderSize) data payloadLen) = .ok body ∧
      body.length = sendBufferSize - protocolHeaderSize := by
    rw [present]
    split
    · have hroom : payloadLen ≤ (buffer.toList.drop protocolHeaderSize).length := by omega
      refine ⟨_, memcpy_eq h hroom, ?_⟩
      rw [List.length_append, List.length_take_of_le h, List.length_drop, hrest]
      omega
    · exact ⟨_, rfl, hrest⟩
  refine ⟨hostHeader (protocolHeaderSize + payloadLen) opCode checksum.toNat rand ++ body,
    ?_, ?_, ?_⟩
  · rw [fillBuffer, hsum, Nat.mod_eq_of_lt hlen]
    simp only [bind, Except.bind, if_neg (not_lt.mpr hbuf), copy_hostHeader,
      List.drop_left' hhead, List.take_left' hhead, hbody]
    rfl
  · rw [List.length_append, hhead, hbodyLen]
    rfl
  · rw [hostHeader]
    simp only [List.append_assoc]
    rw [List.take_left' (length_toLe _ _), le_toLe]
    exact Nat.mod_eq_of_lt hlen

/-- **A length that is cut passes the check, and the payload runs over the buffer.** -/
theorem fillBuffer_of_ge (h : payloadLen ≤ data.length) (hmax : payloadLen < 2 ^ 32)
    (hlen : 2 ^ 32 ≤ protocolHeaderSize + payloadLen) :
    fillBuffer opCode (some data) payloadLen rand buffer =
      .error (.write (sendBufferSize - protocolHeaderSize)) := by
  obtain ⟨checksum, hsum⟩ := exists_checksum h
  have hcut : (protocolHeaderSize + payloadLen) % 2 ^ 32 < protocolHeaderSize := by
    have hsize : protocolHeaderSize = 12 := rfl
    omega
  have hpass : ¬ sendBufferSize < (protocolHeaderSize + payloadLen) % 2 ^ 32 := by
    have hsize : protocolHeaderSize ≤ sendBufferSize := by decide
    omega
  have hrest : (buffer.toList.drop protocolHeaderSize).length =
      sendBufferSize - protocolHeaderSize := by
    rw [List.length_drop, buffer.toList_length]
  have hover : sendBufferSize - protocolHeaderSize < payloadLen := by
    have hsize : protocolHeaderSize = 12 := rfl
    have hsize' : sendBufferSize = 4096 := rfl
    omega
  have hcopy : memcpy (buffer.toList.drop protocolHeaderSize) data payloadLen =
      .error (.write (sendBufferSize - protocolHeaderSize)) := by
    rw [memcpy, if_neg (not_lt.mpr h), hrest, if_pos hover]
  have hpresent : present (some data) payloadLen = some data := if_pos (by omega)
  rw [fillBuffer, hsum]
  simp only [bind, Except.bind, if_neg hpass, copy_hostHeader,
    List.drop_left' (length_hostHeader _ _ _ _), hpresent, Option.elim_some, hcopy]

/-- **Sending respects the sizes exactly when the length fits into 32 bits**, or there is no
connection. -/
theorem sendsWithin_iff (client : ClientContext) (h : payloadLen ≤ data.length)
    (hmax : payloadLen < 2 ^ 32) :
    SendsWithin client opCode data payloadLen rand buffer ↔
      client.connection = none ∨ protocolHeaderSize + payloadLen < 2 ^ 32 := by
  constructor
  · intro hwithin
    by_contra hno
    obtain ⟨hconn, hlen⟩ := not_or.mp hno
    have hfault := fillBuffer_of_ge opCode rand buffer h hmax (not_lt.mp hlen)
    obtain ⟨-, hnone | hnone⟩ | ⟨ssl, filled, -, hfilled, -⟩ := hwithin
    · exact hconn hnone
    · rw [hfault] at hnone
      cases hnone
    · rw [hfault] at hfilled
      cases hfilled
  intro hor
  cases hconn : client.connection with
  | none =>
    refine Or.inl ⟨?_, Or.inl hconn⟩
    rw [clientSend, hconn]
  | some ssl =>
    have hlen := hor.resolve_left fun hnone => Option.some_ne_none ssl (hconn.symm.trans hnone)
    by_cases hbuf : protocolHeaderSize + payloadLen ≤ sendBufferSize
    · obtain ⟨filled, hfill, hsize, hfield⟩ := fillBuffer_of_le opCode rand buffer h hbuf
      have hpos : protocolHeaderSize + payloadLen ≠ 0 := by simp [protocolHeaderSize]
      refine Or.inr ⟨ssl, filled, hconn, hfill, ?_, hbuf, hsize, hfield⟩
      rw [clientSend, hconn]
      dsimp only
      rw [hfill, Except.map, writeBuffer, if_neg hpos]
    · have hnone := fillBuffer_of_lt opCode rand buffer h hlen (not_le.mp hbuf)
      refine Or.inl ⟨?_, Or.inr hnone⟩
      rw [clientSend, hconn]
      dsimp only
      rw [hnone]
      rfl

end Send

/-! ## Receiving -/

/-- `body_len`, of the header in `header_out`. -/
def bodyLen (headerOut : List UInt8) : ℕ :=
  sizeSub (le (headerOut.take 4)) protocolHeaderSize % 2 ^ 32

/-- The number of body bytes `client_receive` asks `SSL_read` for, with this header in
`header_out`; none when it returns before. -/
def bodyRequest (headerOut : List UInt8) (bufferSize : ℕ) : Option ℤ :=
  if bodyLen headerOut = 0 then none else
  if bufferSize < bodyLen headerOut then none else some (asInt (bodyLen headerOut))

/-- `client_receive` from the second `SSL_read` on. -/
def readBody (client : ClientContext) (ssl : Ssl) (headerOut body : List UInt8) (num : ℤ) :
    Except Fault ClientReceived := do
  let (bodyRead, body, ssl) ← sslRead ssl body num
  let client := { client with ssl := some ssl }
  if bodyRead = 0 then return ⟨-1, headerOut, body, client⟩
  if ← verifyChecksum (le ((headerOut.drop 6).take 2)) body (bodyLen headerOut) then
    return ⟨bodyRead, headerOut, body, client⟩
  return ⟨-2, headerOut, body, client⟩

/-- `client_receive` after a header was read. -/
theorem clientReceive_eq {client : ClientContext} {ssl ssl' : Ssl} {headerOut header : List UInt8}
    {bytes : ℕ} (body : List UInt8) (bufferSize : ℕ) (hconn : client.connection = some ssl)
    (hread : sslRead ssl headerOut protocolHeaderSize = .ok (bytes, header, ssl'))
    (hbytes : bytes ≠ 0) :
    clientReceive client headerOut body bufferSize =
      match bodyRequest header bufferSize with
      | none => .ok ⟨if bodyLen header = 0 then 0 else -1, header, body,
          { client with ssl := some ssl' }⟩
      | some num => readBody { client with ssl := some ssl' } ssl' header body num := by
  rw [clientReceive, hconn]
  dsimp only
  rw [hread, ok_bind]
  dsimp only
  rw [if_neg hbytes, bodyRequest, ← bodyLen]
  by_cases hzero : bodyLen header = 0
  · rw [if_pos hzero, if_pos hzero]
    dsimp only
    rw [if_pos hzero]
    rfl
  · rw [if_neg hzero, if_neg hzero]
    by_cases hbig : bufferSize < bodyLen header
    · rw [if_pos hbig, if_pos hbig]
      dsimp only
      rw [if_neg hzero]
      rfl
    · rw [if_neg hbig, if_neg hbig]
      rfl

/-- **`client_receive` respects the sizes**: it runs without a fault, asks for no more body bytes
than there is room for, and refuses a length below 12. -/
structure ReceivesWithin (client : ClientContext) (headerOut : Block protocolHeaderSize)
    (body : List UInt8) (bufferSize : ℕ) : Prop where
  runs : bufferSize ≤ body.length →
    ∃ r, clientReceive client headerOut.toList body bufferSize = .ok r
  asks : ∀ (header : List UInt8) num, bodyRequest header bufferSize = some num → num ≤ bufferSize
  refuses : ∀ {ssl bytes header ssl'}, client.connection = some ssl →
    sslRead ssl headerOut.toList protocolHeaderSize = .ok (bytes, header, ssl') → bytes ≠ 0 →
    le (header.take 4) < protocolHeaderSize →
    clientReceive client headerOut.toList body bufferSize =
      .ok ⟨-1, header, body, { client with ssl := some ssl' }⟩

/-- A read stays in the buffer it is given. -/
theorem sslRead_of_le (ssl : Ssl) (dest : List UInt8) {num : ℤ} (h : num ≤ dest.length) :
    ∃ bytes incoming, bytes.length ≤ dest.length ∧ sslRead ssl dest num =
      .ok (bytes.length, bytes ++ dest.drop bytes.length, { ssl with incoming := incoming }) := by
  have hlen : (ssl.incoming.read num.toNat).1.length ≤ dest.length :=
    (length_read_le _ _).trans (by omega)
  refine ⟨_, (ssl.incoming.read num.toNat).2, hlen, ?_⟩
  simp only [sslRead, bind, Except.bind, memcpy_eq le_rfl hlen, List.take_length]
  rfl

theorem bodyRequest_le {header : List UInt8} {bufferSize : ℕ} {num : ℤ}
    (h : bodyRequest header bufferSize = some num) :
    bodyLen header ≤ bufferSize ∧ num ≤ bodyLen header := by
  have hlt : bodyLen header < 2 ^ 32 := Nat.mod_lt _ (by decide)
  rw [bodyRequest] at h
  split at h
  · cases h
  · split at h
    · cases h
    · rename_i hbig
      obtain rfl := Option.some.inj h
      refine ⟨not_lt.mp hbig, ?_⟩
      rw [asInt]
      split <;> omega

/-- **A length below the size of the header turns into one that no buffer has.** -/
theorem bodyRequest_of_lt {header : List UInt8} {bufferSize : ℕ}
    (h : le (header.take 4) < protocolHeaderSize)
    (hbuf : bufferSize < 2 ^ 32 - protocolHeaderSize) :
    bodyLen header ≠ 0 ∧ bodyRequest header bufferSize = none := by
  have hsize : protocolHeaderSize = 12 := rfl
  have hlen : bufferSize < bodyLen header := by
    rw [bodyLen, sizeSub_of_lt h]
    omega
  refine ⟨by omega, ?_⟩
  rw [bodyRequest, if_pos hlen]
  exact ite_self _

/-- The body is read and checked inside its buffer. -/
theorem readBody_runs (client : ClientContext) (ssl : Ssl) {header body : List UInt8}
    {bufferSize : ℕ} {num : ℤ} (h : bodyRequest header bufferSize = some num)
    (hbody : bufferSize ≤ body.length) : ∃ r, readBody client ssl header body num = .ok r := by
  obtain ⟨hlen, hnum⟩ := bodyRequest_le h
  have hroom : num ≤ body.length := by omega
  obtain ⟨bytes, incoming, hbytes, hread⟩ := sslRead_of_le ssl body hroom
  have hin : bodyLen header ≤ (bytes ++ body.drop bytes.length).length := by
    rw [List.length_append, List.length_drop]
    omega
  rw [readBody, hread, ok_bind]
  dsimp only
  split
  · exact ⟨_, rfl⟩
  · rw [verifyChecksum, calculateChecksum_eq hin, ok_bind, pure_bind]
    split <;> exact ⟨_, rfl⟩

/-- **Receiving respects the sizes**, whatever comes in. -/
theorem receivesWithin (client : ClientContext) (headerOut : Block protocolHeaderSize)
    (body : List UInt8) {bufferSize : ℕ} (hbuf : bufferSize < 2 ^ 32 - protocolHeaderSize) :
    ReceivesWithin client headerOut body bufferSize where
  runs hbody := by
    cases hconn : client.connection with
    | none =>
      rw [clientReceive, hconn]
      exact ⟨_, rfl⟩
    | some ssl =>
      have hroom : (protocolHeaderSize : ℤ) ≤ headerOut.toList.length := by
        rw [headerOut.toList_length]
      obtain ⟨bytes, incoming, -, hread⟩ := sslRead_of_le ssl headerOut.toList hroom
      by_cases hbytes : bytes.length = 0
      · rw [clientReceive, hconn]
        dsimp only
        rw [hread, ok_bind]
        dsimp only
        rw [if_pos hbytes]
        exact ⟨_, rfl⟩
      · rw [clientReceive_eq body bufferSize hconn hread hbytes]
        split
        · exact ⟨_, rfl⟩
        · exact readBody_runs _ _ (by assumption) hbody
  asks header num h := by
    obtain ⟨hlen, hnum⟩ := bodyRequest_le h
    omega
  refuses hconn hread hbytes hlt := by
    obtain ⟨hzero, hnone⟩ := bodyRequest_of_lt hlt hbuf
    rw [clientReceive_eq body bufferSize hconn hread hbytes, hnone]
    simp only [if_neg hzero]

/-! ## Both -/

/-- **The sizes are respected when sending exactly if the length fits into 32 bits**, or there is
no connection; and always when receiving. -/
theorem sizes_iff (client : ClientContext) (opCode : UInt16) (data : List UInt8)
    (payloadLen : UInt32) (rand : ℕ) (buffer : Block sendBufferSize)
    (headerOut : Block protocolHeaderSize) (body : List UInt8) (bufferSize : ℕ)
    (h : payloadLen.toNat ≤ data.length) (hbuf : bufferSize < 2 ^ 32 - protocolHeaderSize) :
    SendsWithin client opCode.toNat data payloadLen.toNat rand buffer ∧
        ReceivesWithin client headerOut body bufferSize ↔
      client.connection = none ∨ payloadLen.toNat < 2 ^ 32 - protocolHeaderSize := by
  rw [and_iff_left (receivesWithin client headerOut body hbuf),
    sendsWithin_iff opCode.toNat rand buffer client h payloadLen.toNat_lt]
  have hsize : protocolHeaderSize = 12 := rfl
  exact or_congr_right ⟨fun hlt => by omega, fun hlt => by omega⟩

/-- Two bytes are sent as they should be. -/
theorem sizes_two : SendsWithin ⟨true, some ⟨[], []⟩⟩ 1 [7, 7] 2 0
    (List.Vector.replicate sendBufferSize 0) :=
  ((sizes_iff ⟨true, some ⟨[], []⟩⟩ 1 [7, 7] 2 0 (List.Vector.replicate sendBufferSize 0)
    (List.Vector.replicate protocolHeaderSize 0) [] 0 (by decide) (by decide)).mpr
      (Or.inr (by decide))).1

/-- The header for a payload of 2^32 - 12 bytes says 0, and the payload runs over the buffer. -/
theorem not_sizes :
    clientSend ⟨true, some ⟨[], []⟩⟩ 1 (some (List.replicate (2 ^ 32 - 12) 0)) (2 ^ 32 - 12) 0
        (List.Vector.replicate sendBufferSize 0) = .error (.write 4084) ∧
      ¬ SendsWithin ⟨true, some ⟨[], []⟩⟩ 1 (List.replicate (2 ^ 32 - 12) 0) (2 ^ 32 - 12) 0
        (List.Vector.replicate sendBufferSize 0) := by
  have hdata : (List.replicate (2 ^ 32 - 12) (0 : UInt8)).length = 2 ^ 32 - 12 :=
    List.length_replicate
  -- nothing is known of the payload but its length
  generalize List.replicate (2 ^ 32 - 12) (0 : UInt8) = data at hdata ⊢
  generalize List.Vector.replicate sendBufferSize (0 : UInt8) = buffer
  refine ⟨?_, fun h => ?_⟩
  · have hfault := fillBuffer_of_ge 1 0 buffer hdata.ge (by decide) (by decide)
    exact congrArg (Except.map _) hfault
  · obtain hnone | hlt := (sendsWithin_iff 1 0 buffer _ hdata.ge (by decide)).mp h
    · cases hnone
    · exact absurd hlt (by decide)

end BankingSystem
