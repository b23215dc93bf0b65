import BankingSystem.Machinery.Records
import BankingSystem.Server.Connection

/-!
# Client/Core — the second client (`client/src/client_core.c`)

`clientSend` and `clientReceive` frame their packets by themselves: header fields in the order of
the host, and a frame as long as its payload.  The server reads fields in network order and wants
frames of one size.  So nothing the client sends is understood, whatever the operation and the
payload, and the client takes the length of every response for one that does not fit (`speaks_iff`).
-/

namespace BankingSystem

open Bytes CString Records

/-! ## The code -/

/-- `sizeof(buffer)` in `client_send`. -/
def sendBufferSize : ℕ := 4096

/-- A connection as the client has it: the records to read, and those written. -/
structure Ssl where
  incoming : Stream
  outgoing : Stream

/-- `ClientContext`. -/
structure ClientContext where
  isConnected : Bool
  ssl : Option Ssl

/-- The connection, unless `!client->is_connected || !client->ssl`. -/
def ClientContext.connection (client : ClientContext) : Option Ssl :=
  if client.isConnected then client.ssl else none

/-- A `PacketHeader` in the memory of the client. -/
def hostHeader (length opCode checksum reqId : ℕ) : List UInt8 :=
  toLe 4 length ++ toLe 2 opCode ++ toLe 2 checksum ++ toLe 4 reqId

/-- The payload, if `payload && payload_len > 0`. -/
def present (payload : Option (List UInt8)) (payloadLen : ℕ) : Option (List UInt8) :=
  if 0 < payloadLen then payload else none

/-- `client_send` up to `SSL_write`, with what `rand()` returns and what `buffer` holds: nothing
when it returns before the first `memcpy`, else `header.length` and what `buffer` holds then. -/
def fillBuffer (opCode : ℕ) (payload : Option (List UInt8)) (payloadLen rand : ℕ)
    (buffer : Block sendBufferSize) : Except Fault (Option (ℕ × List UInt8)) := do
  let length := (protocolHeaderSize + payloadLen) % 2 ^ 32
  let checksum ← (present payload payloadLen).elim (.ok 0) fun data =>
    calculateChecksum data payloadLen
  if sendBufferSize < length then return none
  let header ← memcpy buffer.toList (hostHeader length opCode checksum.toNat rand)
    protocolHeaderSize
  let body ← (present payload payloadLen).elim (.ok (header.drop protocolHeaderSize)) fun data =>
    memcpy (header.drop protocolHeaderSize) data payloadLen
  return some (length, header.take protocolHeaderSize ++ body)

/-- `client_send` from `SSL_write` on: the return value, and the context with the record written. -/
def writeBuffer (client : ClientContext) (ssl : Ssl) (filled : Option (ℕ × List UInt8)) :
    ℤ × ClientContext :=
  match filled with
  | none => (-1, client)
  | some (length, buffer) =>
    if length = 0 then (-1, client) else
    let written := ssl.outgoing.write (buffer.take length)
    (length, { client with ssl := some { ssl with outgoing := written } })

/-- `client_send`. -/
def clientSend (client : ClientContext) (opCode : ℕ) (payload : Option (List UInt8))
    (payloadLen rand : ℕ) (buffer : Block sendBufferSize) : Except Fault (ℤ × ClientContext) :=
  match client.connection with
  | none => .ok (-1, client)
  | some ssl => (fillBuffer opCode payload payloadLen rand buffer).map (writeBuffer client ssl)

/-- What `client_receive` returns and leaves behind. -/
structure ClientReceived where
  status : ℤ
  headerOut : List UInt8
  body : List UInt8
  client : ClientContext

/-- `SSL_read(ssl, dest, num)`: the number of bytes read, `dest` and the connection after it. -/
def sslRead (ssl : Ssl) (dest : List UInt8) (num : ℤ) : Except Fault (ℕ × List UInt8 × Ssl) := do
  let (bytes, incoming) := ssl.incoming.read num.toNat
  return (bytes.length, ← memcpy dest bytes bytes.length, { ssl with incoming := incoming })

/-- `verify_checksum`. -/
def verifyChecksum (receivedSum : ℕ) (data : List UInt8) (len : ℕ) : Except Fault Bool := do
  return receivedSum = (← calculateChecksum data len).toNat

/-- `client_receive`, into the 12 bytes of `header_out` and a buffer. -/
def clientReceive (client : ClientContext) (headerOut body : List UInt8) (bufferSize : ℕ) :
    Except Fault ClientReceived :=
  match client.connection with
  | none => .ok ⟨-1, headerOut, body, client⟩
  | some ssl => do
    let (bytes, headerOut, ssl) ← sslRead ssl headerOut protocolHeaderSize
    let client := { client with ssl := some ssl }
    if bytes = 0 then return ⟨-1, headerOut, body, client⟩
    let bodyLen := sizeSub (le (headerOut.take 4)) protocolHeaderSize % 2 ^ 32
    if bodyLen = 0 then return ⟨0, headerOut, body, client⟩
    if bufferSize < bodyLen then return ⟨-1, headerOut, body, client⟩
    let (bodyRead, body, ssl) ← sslRead ssl body (asInt bodyLen)
    let client := { client with ssl := some ssl }
    if bodyRead = 0 then return ⟨-1, headerOut, body, client⟩
    if ← verifyChecksum (le ((headerOut.drop 6).take 2)) body bodyLen then
      return ⟨bodyRead, headerOut, body, client⟩
    return ⟨-2, headerOut, body, client⟩

/-! ## Sending -/

/-- The frame `client_send` writes. -/
def frame (opCode : ℕ) (data : List UInt8) (rand : ℕ) : List UInt8 :=
  hostHeader (protocolHeaderSize + data.length) opCode (byteSum data).toNat rand ++ data

@[simp] theorem length_hostHeader (length opCode checksum reqId : ℕ) :
    (hostHeader length opCode checksum reqId).length = protocolHeaderSize := by
  simp [hostHeader, protocolHeaderSize]

theorem length_frame (opCode : ℕ) (data : List UInt8) (rand : ℕ) :
    (frame opCode data rand).length = protocolHeaderSize + data.length := by
  rw [frame, List.length_append, length_hostHeader]

theorem present_length (data : List UInt8) :
    present (some data) data.length = if data = [] then none else some data := by
  rw [present]
  cases data with
  | nil => rfl
  | cons b bs => rfl

/-- The checksum of the payload; of none it is 0. -/
theorem checksum_present (data : List UInt8) :
    ((present (some data) data.length).elim (.ok 0) fun bs => calculateChecksum bs data.length) =
      .ok (byteSum data) := by
  rw [present_length]
  split
  · rename_i h
    rw [h]
    rfl
  · exact (calculateChecksum_eq le_rfl).trans (by rw [List.take_length])

/-- The payload copied behind the header. -/
theorem copy_present (data : List UInt8) {rest : List UInt8} (h : data.length ≤ rest.length) :
    ((present (some data) data.length).elim (.ok rest) fun bs => memcpy rest bs data.length) =
      .ok (data ++ rest.drop data.length) := by
  rw [present_length]
  split
  · rename_i h
    rw [h]
    rfl
  · exact (memcpy_eq le_rfl h).trans (by rw [List.take_length])

/-- The header goes in front. -/
theorem copy_hostHeader (length opCode checksum rand : ℕ) (buffer : Block sendBufferSize) :
    memcpy buffer.toList (hostHeader length opCode checksum rand) protocolHeaderSize =
      .ok (hostHeader length opCode checksum rand ++ buffer.toList.drop protocolHeaderSize) := by
  have hhead := length_hostHeader length opCode checksum rand
  have hfits : protocolHeaderSize ≤ buffer.toList.length := by
    rw [buffer.toList_length]
    decide
  rw [memcpy_eq hhead.ge hfits, List.take_of_length_le hhead.le]

/-- **What fits is copied behind the header.** -/
theorem fillBuffer_eq (opCode : ℕ) {data : List UInt8} (rand : ℕ) (buffer : Block sendBufferSize)
    (h : protocolHeaderSize + data.length ≤ sendBufferSize) :
    fillBuffer opCode (some data) data.length rand buffer =
      .ok (some (protocolHeaderSize + data.length, frame opCode data rand ++
        buffer.toList.drop (protocolHeaderSize + data.length))) := by
  have hlen : (protocolHeaderSize + data.length) % 2 ^ 32 = protocolHeaderSize + data.length :=
    Nat.mod_eq_of_lt (h.trans_lt (by decide))
  have hhead := length_hostHeader (protocolHeaderSize + data.length) opCode
    (byteSum data).toNat rand
  have hroom : data.length ≤ (buffer.toList.drop protocolHeaderSize).length := by
    rw [List.length_drop, buffer.toList_length]
    omega
  rw [fillBuffer]
  simp only [hlen, checksum_present, copy_hostHeader, List.drop_left' hhead, List.take_left' hhead,
    copy_present _ hroom, not_lt.mpr h, ↓reduceIte, ok_bind, List.drop_drop, pure, Except.pure,
    frame, List.append_assoc]

/-- **What fits into the buffer is sent as one frame.** -/
theorem clientSend_eq (ssl : Ssl) (opCode : ℕ) {data : List UInt8} (rand : ℕ)
    (buffer : Block sendBufferSize) (h : protocolHeaderSize + data.length ≤ sendBufferSize) :
    clientSend ⟨true, some ssl⟩ opCode (some data) data.length rand buffer =
      .ok (protocolHeaderSize + data.length, ⟨true, some { ssl with
        outgoing := ssl.outgoing.write (frame opCode data rand) }⟩) := by
  have hpos : protocolHeaderSize + data.length ≠ 0 := by simp [protocolHeaderSize]
  change (fillBuffer opCode (some data) data.length rand buffer).map _ = _
  rw [fillBuffer_eq opCode rand buffer h, Except.map, writeBuffer, if_neg hpos,
    List.take_left' (length_frame opCode data rand), Nat.cast_add]

/-- **The worker understands what it reads** as this operation and these data: it gets a packet of
full size whose checksum is right, with the operation, and the data for whoever has room. -/
def Understood (outgoing : Stream) (opcode : UInt16) (data : List UInt8) : Prop :=
  ∃ packet : BankingPacket, (outgoing.read sizeofBankingPacket).1 = packet.bytes ∧
    verifyPacketChecksum packet = .ok 0 ∧ ntoh packet.opCode = opcode.toNat ∧
    ∀ dest, data.length ≤ dest.length →
      unpackRequest packet dest dest.length = .ok (0, data ++ dest.drop data.length)

/-- **No frame is understood**: a short one has not the size of a packet, and in the full one the
length field, read in network order, leads out of the data. -/
theorem not_understood_frame (opcode : UInt16) {data : List UInt8} (rand : ℕ)
    (h : data.length ≤ maxDataSize) :
    ¬ Understood [frame opcode.toNat data rand] opcode data := by
  rintro ⟨packet, hread, hverify, -, -⟩
  have hle : (frame opcode.toNat data rand).length ≤ sizeofBankingPacket := by
    rw [length_frame]
    exact Nat.add_le_add_left h _
  rw [read_of_le hle] at hread
  have hfull : protocolHeaderSize + data.length = sizeofBankingPacket := by
    rw [← length_frame opcode.toNat data rand, ← packet.length_bytes]
    exact congrArg List.length hread
  have hfield : packet.length.toList = toLe 4 sizeofBankingPacket := by
    have htake := congrArg (List.take 4) hread
    rw [frame, hostHeader, hfull, BankingPacket.bytes] at htake
    simp only [List.append_assoc] at htake
    rw [List.take_left' (length_toLe _ _), List.take_left' packet.length.toList_length] at htake
    exact htake.symm
  have hsize : ¬ packet.WellSized := by
    rw [BankingPacket.WellSized, ntoh, hfield]
    decide
  rw [BankingPacket.verify_fault hsize] at hverify
  cases hverify

/-! ## Receiving -/

/-- Successive calls of `client_receive`, with a buffer of 1024 bytes, return these messages. -/
def Receives : ClientContext → List UInt8 → List UInt8 → List (List UInt8) → Prop
  | _, _, _, [] => True
  | client, headerOut, body, m :: ms =>
    ∃ r, clientReceive client headerOut body maxDataSize = .ok r ∧
      r.status = m.length ∧ r.body.take m.length = m ∧ Receives r.client r.headerOut r.body ms

/-- The stream of the responses the server sends, with what `rand()` returned for each. -/
def responseStream (responses : List (BankingResponse × ℕ)) : Stream :=
  responses.map fun r => (packed opResponse r.1.bytes r.2).bytes

/-- A read into a buffer of its size, from a longer record. -/
theorem sslRead_of_lt {record : List UInt8} {n : ℕ} (h : n < record.length) (rest outgoing : Stream)
    (dest : Block n) : sslRead ⟨record :: rest, outgoing⟩ dest.toList n =
      .ok (n, record.take n, ⟨record.drop n :: rest, outgoing⟩) := by
  have htake : (record.take n).length = n := List.length_take_of_le h.le
  have hcopy : memcpy dest.toList (record.take n) n = .ok (record.take n) := by
    rw [memcpy_eq htake.ge dest.toList_length.ge, List.take_of_length_le htake.le,
      List.drop_of_length_le dest.toList_length.le, List.append_nil]
  rw [sslRead, Int.toNat_natCast, read_of_lt h]
  simp only [htake, hcopy]
  rfl

/-- The length field of a response, in the first bytes of the packet. -/
theorem take_bytes_packed (response : BankingResponse) (rand : ℕ) :
    (packed opResponse response.bytes rand).bytes.take 4 =
      toBe 4 (protocolHeaderSize + sizeofBankingResponse) := by
  rw [← response.length_bytes, BankingPacket.bytes]
  simp only [List.append_assoc]
  exact List.take_left' (List.Vector.toList_length _)

/-- **Every response is taken for one that does not fit.** -/
theorem clientReceive_response (response : BankingResponse) (rand : ℕ) (rest outgoing : Stream)
    (headerOut : Block protocolHeaderSize) (body : List UInt8) :
    ∃ r, clientReceive ⟨true, some ⟨(packed opResponse response.bytes rand).bytes :: rest,
      outgoing⟩⟩ headerOut.toList body maxDataSize = .ok r ∧ r.status = -1 := by
  have hlong : protocolHeaderSize < (packed opResponse response.bytes rand).bytes.length := by
    rw [BankingPacket.length_bytes]
    decide
  have hfield : ((packed opResponse response.bytes rand).bytes.take protocolHeaderSize).take 4 =
      toBe 4 (protocolHeaderSize + sizeofBankingResponse) := by
    rw [List.take_take]
    exact take_bytes_packed response rand
  -- 280 in network order, read in the order of the host
  have hlen : sizeSub (le (toBe 4 (protocolHeaderSize + sizeofBankingResponse)))
      protocolHeaderSize % 2 ^ 32 = 402718708 := by decide
  have hpos : protocolHeaderSize ≠ 0 := by decide
  have hbody : maxDataSize < 402718708 := by decide
  refine ⟨⟨-1, (packed opResponse response.bytes rand).bytes.take protocolHeaderSize, body,
    ⟨true, some ⟨(packed opResponse response.bytes rand).bytes.drop protocolHeaderSize :: rest,
      outgoing⟩⟩⟩, ?_, rfl⟩
  rw [clientReceive]
  simp only [ClientContext.connection, ↓reduceIte, sslRead_of_lt hlong, hfield, hlen, hpos, hbody,
    Except.bind, bind, pure, Except.pure]
  rfl

/-- **The responses of the server are received as they are only if there are none.** -/
theorem receives_iff (responses : List (BankingResponse × ℕ)) (outgoing : Stream)
    (headerOut : Block protocolHeaderSize) (body : Block maxDataSize) :
    Receives ⟨true, some ⟨responseStream responses, outgoing⟩⟩ headerOut.toList body.toList
      (responses.map fun r => r.1.bytes) ↔ responses = [] := by
  cases responses with
  | nil => exact iff_of_true trivial rfl
  | cons response responses =>
    refine iff_of_false (fun hreceives => ?_) (List.cons_ne_nil _ _)
    obtain ⟨r, hr, hst, -⟩ := hreceives
    obtain ⟨r', hr', hst'⟩ := clientReceive_response response.1 response.2
      (responseStream responses) outgoing headerOut body.toList
    obtain rfl := Except.ok.inj (hr.symm.trans hr')
    have hneg : ((response.1.bytes.length : ℕ) : ℤ) = -1 := hst.symm.trans hst'
    omega

/-! ## Both directions -/

/-- **What is sent is not understood**, for every operation and every payload a packet can hold. -/
theorem clientSend_not_understood (opcode : UInt16) {data : List UInt8} (rand : ℕ)
    (buffer : Block sendBufferSize) (incoming : Stream) (h : data.length ≤ maxDataSize) :
    ∃ ssl, clientSend ⟨true, some ⟨incoming, []⟩⟩ opcode.toNat (some data) data.length rand buffer =
      .ok (protocolHeaderSize + data.length, ⟨true, some ssl⟩) ∧
        ¬ Understood ssl.outgoing opcode data := by
  have hfits : protocolHeaderSize + data.length ≤ sendBufferSize :=
    (Nat.add_le_add_left h _).trans (by decide)
  have hne : frame opcode.toNat data rand ≠ [] := by
    rw [← List.length_pos_iff, length_frame]
    exact Nat.add_pos_left (by decide) _
  refine ⟨_, clientSend_eq ⟨incoming, []⟩ opcode.toNat rand buffer hfits, ?_⟩
  dsimp only
  rw [write_of_ne _ hne]
  exact not_understood_frame opcode rand h

/-- **The client and the server do not speak the same protocol.**  For every operation and every
payload the frame is sent, and not understood; and the responses of the server are received as they
are only if there are none. -/
theorem speaks_iff (opcode : UInt16) (data : List UInt8) (rand : ℕ)
    (buffer : Block sendBufferSize) (incoming : Stream)
    (responses : List (BankingResponse × ℕ)) (outgoing : Stream)
    (headerOut : Block protocolHeaderSize) (body : Block maxDataSize) :
    (data.length ≤ maxDataSize → ∃ ssl,
      clientSend ⟨true, some ⟨incoming, []⟩⟩ opcode.toNat (some data) data.length rand buffer =
        .ok (protocolHeaderSize + data.length, ⟨true, some ssl⟩) ∧
      ¬ Understood ssl.outgoing opcode data) ∧
    (Receives ⟨true, some ⟨responseStream responses, outgoing⟩⟩ headerOut.toList body.toList
      (responses.map fun r => r.1.bytes) ↔ responses = []) :=
  ⟨clientSend_not_understood opcode rand buffer incoming,
    receives_iff responses outgoing headerOut body⟩

/-- The query of account `A` is not understood, and a response to it would not be received. -/
theorem not_speaks :
    (∃ ssl, clientSend ⟨true, some ⟨[], []⟩⟩ opBalance
        (some (CharArray.ofPtr (onto [65] fun _ => 0) (accountIdLen - 1)).bytes) 20 0
        (List.Vector.replicate sendBufferSize 0) = .ok (32, ⟨true, some ssl⟩) ∧
      ¬ Understood ssl.outgoing 4
        (CharArray.ofPtr (onto [65] fun _ => 0) (accountIdLen - 1)).bytes) ∧
    ¬ Receives ⟨true, some ⟨responseStream [(checksumFailed, 0)], []⟩⟩
      (List.replicate protocolHeaderSize 0) (List.replicate maxDataSize 0)
      [checksumFailed.bytes] := by
  refine ⟨?_, fun h => ?_⟩
  · exact clientSend_not_understood 4 0 (List.Vector.replicate sendBufferSize 0) [] (by decide)
  · exact absurd ((receives_iff [(checksumFailed, 0)] [] (List.Vector.replicate _ 0)
      (List.Vector.replicate _ 0)).mp h) (List.cons_ne_nil _ _)

end BankingSystem
