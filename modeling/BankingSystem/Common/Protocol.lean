import BankingSystem.Machinery.Bytes

/-!
# Common/Protocol — the packet codec (`common/include/protocol.h`, `common/src/crypto.c`,
`common/src/protocol.c`)

A `BankingPacket` is its 1036 bytes: the header fields as they stand in memory, in network order
where the code keeps them so, and the data.  Reading and copying go through checked buffers, so a
length field that leads out of `packet->data` shows as a `Fault`.

`verify_packet_checksum` subtracts the header size in 64 bits and runs over that many bytes before
anything compares the length with a bound.  It stays inside the data exactly for length fields from
12 to 1036 (`inBounds_iff`).
-/

namespace BankingSystem

open Bytes

/-- `MAX_DATA_SIZE`. -/
def maxDataSize : ℕ := 1024

/-- `PROTOCOL_HEADER_SIZE`. -/
def protocolHeaderSize : ℕ := 12

/-- `OP_RESPONSE`. -/
def opResponse : ℕ := 0x00FF

/-- `BankingPacket`. -/
@[ext]
structure BankingPacket where
  length : Block 4
  opCode : Block 2
  checksum : Block 2
  reqId : Block 4
  data : Block maxDataSize
  deriving DecidableEq

/-! ## The code -/

/-- A difference in `size_t` arithmetic. -/
def sizeSub (a b : ℕ) : ℕ := (a + 2 ^ 64 - b) % 2 ^ 64

/-- The loop of `calculate_checksum`, with `n` bytes left to read from index `i` on. -/
def checksumLoop (data : List UInt8) : ℕ → ℕ → UInt16 → Except Fault UInt16
  | 0, _, sum => .ok sum
  | n + 1, i, sum => do
    let b ← readByte data i
    checksumLoop data n (i + 1) (sum + b.toUInt16)

/-- `calculate_checksum`. -/
def calculateChecksum (data : List UInt8) (len : ℕ) : Except Fault UInt16 :=
  checksumLoop data len 0 0

/-- `verify_packet_checksum`. -/
def verifyPacketChecksum (packet : BankingPacket) : Except Fault ℤ := do
  let dataLength := sizeSub (ntoh packet.length) protocolHeaderSize
  let calculated ← calculateChecksum packet.data.toList dataLength
  pure (if calculated.toNat = ntoh packet.checksum then 0 else -1)

/-- `pack_request`, with what `rand()` returns. -/
def packRequest (packet : BankingPacket) (opcode : ℕ) (data : List UInt8) (rand : ℕ) :
    Except Fault (ℤ × BankingPacket) := do
  if maxDataSize < data.length then return (-1, packet)
  let bytes : Block maxDataSize :=
    ⟨(data ++ List.replicate maxDataSize 0).take maxDataSize, by simp⟩
  let checksum ← calculateChecksum bytes.toList data.length
  return (0, {
    length := hton 4 (protocolHeaderSize + data.length)
    opCode := hton 2 opcode
    checksum := hton 2 checksum.toNat
    reqId := ⟨toLe 4 rand, length_toLe 4 rand⟩
    data := bytes })

/-- `unpack_request`, into `data` of `dataSize` bytes: the return value and the bytes there. -/
def unpackRequest (packet : BankingPacket) (data : List UInt8) (dataSize : ℕ) :
    Except Fault (ℤ × List UInt8) := do
  if (← verifyPacketChecksum packet) ≠ 0 then return (-1, data)
  let actualDataSize := sizeSub (ntoh packet.length) protocolHeaderSize
  if dataSize < actualDataSize then return (-1, data)
  return (0, ← memcpy data packet.data.toList actualDataSize)

/-! ## Inside the bounds -/

/-- The sum of bytes `calculate_checksum` returns when it stays inside its buffer. -/
def byteSum (bs : List UInt8) : UInt16 := bs.foldl (fun sum b => sum + b.toUInt16) 0

theorem checksumLoop_eq {data : List UInt8} {n i : ℕ} (h : i + n ≤ data.length) (sum : UInt16) :
    checksumLoop data n i sum =
      .ok (((data.drop i).take n).foldl (fun sum b => sum + b.toUInt16) sum) := by
  induction n generalizing i sum with
  | zero => rfl
  | succ n ih =>
    have hi : i < data.length := by omega
    have hread : readByte data i = .ok data[i] := by
      rw [readByte, List.getElem?_eq_getElem hi]
    rw [checksumLoop, hread, List.drop_eq_getElem_cons hi, List.take_succ_cons, List.foldl_cons]
    exact ih (by omega) _

theorem checksumLoop_fault {data : List UInt8} {n i : ℕ} (hi : i ≤ data.length)
    (h : data.length < i + n) (sum : UInt16) :
    checksumLoop data n i sum = .error (.read data.length) := by
  induction n generalizing i sum with
  | zero => omega
  | succ n ih =>
    rw [checksumLoop]
    obtain hlt | rfl := hi.lt_or_eq
    · have hread : readByte data i = .ok data[i] := by
        rw [readByte, List.getElem?_eq_getElem hlt]
      rw [hread]
      exact ih hlt (by omega) _
    · have hread : readByte data data.length = .error (.read data.length) := by
        rw [readByte, List.getElem?_eq_none le_rfl]
      rw [hread]
      rfl

/-- **`calculate_checksum` inside its buffer** is the sum of the bytes. -/
theorem calculateChecksum_eq {data : List UInt8} {n : ℕ} (h : n ≤ data.length) :
    calculateChecksum data n = .ok (byteSum (data.take n)) := by
  rw [calculateChecksum, checksumLoop_eq (by omega), List.drop_zero]
  rfl

/-- Past its buffer it reads the first byte outside. -/
theorem calculateChecksum_fault {data : List UInt8} {n : ℕ} (h : data.length < n) :
    calculateChecksum data n = .error (.read data.length) :=
  checksumLoop_fault (Nat.zero_le _) (by omega) 0

/-! ## Packets whose length field is in range -/

/-- The length field leaves room for the header and stays within the packet. -/
def BankingPacket.WellSized (packet : BankingPacket) : Prop :=
  protocolHeaderSize ≤ ntoh packet.length ∧ ntoh packet.length ≤ protocolHeaderSize + maxDataSize

/-- The data bytes the length field declares. -/
def BankingPacket.payload (packet : BankingPacket) : List UInt8 :=
  packet.data.toList.take (ntoh packet.length - protocolHeaderSize)

/-- The checksum field is the sum of the payload. -/
def BankingPacket.ChecksumOk (packet : BankingPacket) : Prop :=
  (byteSum packet.payload).toNat = ntoh packet.checksum

instance (packet : BankingPacket) : Decidable packet.WellSized :=
  inferInstanceAs (Decidable (_ ∧ _))

instance (packet : BankingPacket) : Decidable packet.ChecksumOk :=
  inferInstanceAs (Decidable (_ = _))

theorem sizeSub_of_le {a b : ℕ} (h : b ≤ a) (ha : a < 2 ^ 64) : sizeSub a b = a - b := by
  rw [sizeSub, show a + 2 ^ 64 - b = a - b + 2 ^ 64 by omega, Nat.add_mod_right]
  exact Nat.mod_eq_of_lt (by omega)

theorem sizeSub_of_lt {a b : ℕ} (h : a < b) : sizeSub a b = a + 2 ^ 64 - b :=
  Nat.mod_eq_of_lt (by omega)

theorem length_lt (packet : BankingPacket) : ntoh packet.length < 2 ^ 32 := ntoh_lt packet.length

/-- **In range the 64-bit difference is the size of the payload**, and out of range it is above the
size of the data. -/
theorem dataLength_le_iff (packet : BankingPacket) :
    sizeSub (ntoh packet.length) protocolHeaderSize ≤ maxDataSize ↔ packet.WellSized := by
  have hlt := length_lt packet
  rw [BankingPacket.WellSized]
  by_cases h : protocolHeaderSize ≤ ntoh packet.length
  · rw [sizeSub_of_le h (by omega)]
    omega
  · rw [sizeSub_of_lt (not_le.mp h)]
    simp only [protocolHeaderSize, maxDataSize] at h ⊢
    omega

namespace BankingPacket

variable {packet : BankingPacket}

theorem WellSized.dataLength (h : packet.WellSized) :
    sizeSub (ntoh packet.length) protocolHeaderSize = ntoh packet.length - protocolHeaderSize := by
  have hlt := length_lt packet
  exact sizeSub_of_le h.1 (by omega)

theorem WellSized.length_payload (h : packet.WellSized) :
    packet.payload.length = ntoh packet.length - protocolHeaderSize := by
  rw [payload, List.length_take, List.Vector.toList_length]
  exact min_eq_left (Nat.sub_le_iff_le_add'.mpr h.2)

/-- **In range, `verify_packet_checksum` compares the checksum with the sum of the payload.** -/
theorem WellSized.verify_eq (h : packet.WellSized) :
    verifyPacketChecksum packet = .ok (if packet.ChecksumOk then 0 else -1) := by
  have hle : ntoh packet.length - protocolHeaderSize ≤ packet.data.toList.length := by
    rw [List.Vector.toList_length]
    exact Nat.sub_le_iff_le_add'.mpr h.2
  rw [verifyPacketChecksum, h.dataLength, calculateChecksum_eq hle]
  rfl

/-- **In range, `unpack_request` copies the payload**, if the checksum is right and the payload
fits. -/
theorem WellSized.unpack_eq (h : packet.WellSized) (dest : List UInt8) :
    unpackRequest packet dest dest.length = .ok
      (if packet.ChecksumOk ∧ packet.payload.length ≤ dest.length
        then (0, packet.payload ++ dest.drop packet.payload.length) else (-1, dest)) := by
  have hsrc : ¬ packet.data.toList.length < packet.payload.length := by
    rw [h.length_payload, List.Vector.toList_length, not_lt]
    exact Nat.sub_le_iff_le_add'.mpr h.2
  have htake : packet.data.toList.take packet.payload.length = packet.payload := by
    rw [h.length_payload, payload]
  rw [unpackRequest, h.verify_eq, h.dataLength, ← h.length_payload]
  by_cases hsum : packet.ChecksumOk
  · by_cases hfit : packet.payload.length ≤ dest.length
    · have hcopy : memcpy dest packet.data.toList packet.payload.length =
          .ok (packet.payload ++ dest.drop packet.payload.length) := by
        rw [memcpy, if_neg hsrc, if_neg (not_lt.mpr hfit), htake]
      simp [hsum, hfit, hcopy, Except.bind, bind, pure, Except.pure]
    · simp [hsum, hfit, not_le.mp hfit, Except.bind, bind, pure, Except.pure]
  · simp [hsum, Except.bind, bind, pure, Except.pure]

/-- **Out of range it reads past the data.** -/
theorem verify_fault (h : ¬ packet.WellSized) :
    verifyPacketChecksum packet = .error (.read maxDataSize) := by
  have hlt : packet.data.toList.length < sizeSub (ntoh packet.length) protocolHeaderSize := by
    rw [List.Vector.toList_length]
    exact not_le.mp fun hle => h ((dataLength_le_iff packet).mp hle)
  rw [verifyPacketChecksum, calculateChecksum_fault hlt, List.Vector.toList_length]
  rfl

end BankingPacket

/-! ## Packets that are packed -/

/-- The packet `pack_request` makes of data that fits. -/
def packed (opcode : ℕ) (data : List UInt8) (rand : ℕ) : BankingPacket where
  length := hton 4 (protocolHeaderSize + data.length)
  opCode := hton 2 opcode
  checksum := hton 2 (byteSum data).toNat
  reqId := ⟨toLe 4 rand, length_toLe 4 rand⟩
  data := ⟨(data ++ List.replicate maxDataSize 0).take maxDataSize, by simp⟩

theorem take_data {data : List UInt8} (h : data.length ≤ maxDataSize) :
    ((data ++ List.replicate maxDataSize 0).take maxDataSize).take data.length = data := by
  rw [List.take_take, min_eq_left h, List.take_left]

/-- **`pack_request` on data that fits.** -/
theorem packRequest_eq (packet : BankingPacket) (opcode : ℕ) {data : List UInt8} (rand : ℕ)
    (h : data.length ≤ maxDataSize) :
    packRequest packet opcode data rand = .ok (0, packed opcode data rand) := by
  have hle : data.length ≤
      ((data ++ List.replicate maxDataSize 0).take maxDataSize).length := by simpa using h
  rw [packRequest, if_neg (not_lt.mpr h)]
  change (calculateChecksum ((data ++ List.replicate maxDataSize 0).take maxDataSize)
    data.length).bind _ = _
  rw [calculateChecksum_eq hle, take_data h]
  rfl

section Packed

variable (opcode : ℕ) {data : List UInt8} (rand : ℕ) (h : data.length ≤ maxDataSize)

include h

theorem ntoh_length_packed : ntoh (packed opcode data rand).length =
    protocolHeaderSize + data.length := by
  change ntoh (hton 4 _) = _
  rw [ntoh_hton]
  simp only [protocolHeaderSize, maxDataSize] at h ⊢
  omega

theorem wellSized_packed : (packed opcode data rand).WellSized := by
  rw [BankingPacket.WellSized, ntoh_length_packed opcode rand h]
  omega

theorem payload_packed : (packed opcode data rand).payload = data := by
  rw [BankingPacket.payload, ntoh_length_packed opcode rand h, Nat.add_sub_cancel_left]
  exact take_data h

theorem checksumOk_packed : (packed opcode data rand).ChecksumOk := by
  rw [BankingPacket.ChecksumOk, payload_packed opcode rand h]
  change _ = ntoh (hton 2 _)
  rw [ntoh_hton]
  exact (Nat.mod_eq_of_lt (byteSum data).toNat_lt).symm

end Packed

/-! ## The bounds -/

/-- **Nothing outside `packet->data` is read, nothing outside the destination is written**, and a
packet whose length field is out of range is rejected. -/
structure InBounds (packet : BankingPacket) : Prop where
  verify : ∃ status, verifyPacketChecksum packet = .ok status
  unpack : ∀ dest, ∃ out, unpackRequest packet dest dest.length = .ok out
  reject : ¬ packet.WellSized → verifyPacketChecksum packet = .ok (-1)

/-- **The codec stays in bounds exactly on the packets whose length field is in range**, for every
packet and every destination. -/
theorem inBounds_iff (packet : BankingPacket) : InBounds packet ↔ packet.WellSized := by
  refine ⟨fun h => ?_, fun h => ⟨⟨_, h.verify_eq⟩, fun dest => ⟨_, h.unpack_eq dest⟩, absurd h⟩⟩
  by_contra hsize
  obtain ⟨status, hst⟩ := h.verify
  rw [BankingPacket.verify_fault hsize] at hst
  cases hst

/-- A packet of zeros: its length field is 0, and byte 1024 of the data is read. -/
theorem not_inBounds_zeros : ¬ InBounds
    { length := hton 4 0, opCode := hton 2 0, checksum := hton 2 0, reqId := hton 4 0
      data := List.Vector.replicate maxDataSize 0 } := fun h => by
  obtain ⟨status, hst⟩ := h.verify
  rw [BankingPacket.verify_fault (by decide)] at hst
  cases hst

end BankingSystem
