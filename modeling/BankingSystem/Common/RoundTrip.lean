import BankingSystem.Common.Protocol

/-!
# Common/RoundTrip — the packet codec is a round trip in both directions

What `pack_request` builds of data that fits is accepted and gives the data back, and every packet
with zeros after its payload that `unpack_request` accepts is, up to the request id, what
`pack_request` builds of its operation and payload (`roundTrip`).
-/

namespace BankingSystem

open Bytes

/-- The bytes after the payload are zeros. -/
def BankingPacket.ZeroPadded (packet : BankingPacket) : Prop :=
  ∀ b ∈ packet.data.toList.drop (ntoh packet.length - protocolHeaderSize), b = 0

/-- **The packet carries the operation and the data**: its fields in network order, zeros after the
data, a right checksum, and the data for whoever has room for it. -/
structure Carries (packet : BankingPacket) (opcode : UInt16) (bytes : List UInt8) : Prop where
  length : ntoh packet.length = protocolHeaderSize + bytes.length
  opCode : ntoh packet.opCode = opcode.toNat
  data : packet.data.toList = bytes ++ List.replicate (maxDataSize - bytes.length) 0
  verify : verifyPacketChecksum packet = .ok 0
  unpack : ∀ dest, unpackRequest packet dest dest.length =
    .ok (if bytes.length ≤ dest.length then (0, bytes ++ dest.drop bytes.length) else (-1, dest))

variable {packet : BankingPacket}

theorem carries_packed (opcode : UInt16) {data : List UInt8} (rand : ℕ)
    (h : data.length ≤ maxDataSize) : Carries (packed opcode.toNat data rand) opcode data where
  length := ntoh_length_packed _ rand h
  opCode := (ntoh_hton 2 _).trans (Nat.mod_eq_of_lt opcode.toNat_lt)
  data := by
    change (data ++ List.replicate maxDataSize 0).take maxDataSize = _
    rw [List.take_append, List.take_of_length_le h, List.take_replicate]
    congr 2
    omega
  verify := by
    rw [(wellSized_packed _ rand h).verify_eq, if_pos (checksumOk_packed _ rand h)]
  unpack dest := by
    rw [(wellSized_packed _ rand h).unpack_eq, payload_packed _ rand h]
    simp only [checksumOk_packed _ rand h, true_and]

/-- The packets `unpack_request` accepts, and what it leaves in the destination. -/
theorem BankingPacket.WellSized.unpack_accepts (h : packet.WellSized) {dest out : List UInt8}
    (hout : unpackRequest packet dest dest.length = .ok (0, out)) :
    packet.ChecksumOk ∧ packet.payload.length ≤ dest.length ∧
      out = packet.payload ++ dest.drop packet.payload.length := by
  rw [h.unpack_eq] at hout
  have hpair := Except.ok.inj hout
  split at hpair
  · rename_i hok
    exact ⟨hok.1, hok.2, (congrArg Prod.snd hpair).symm⟩
  · have hstatus : (-1 : ℤ) = 0 := congrArg Prod.fst hpair
    exact absurd hstatus (by decide)

/-- **An accepted packet with zeros after its payload was packed**, up to the request id. -/
theorem packed_payload (h : packet.WellSized) (hsum : packet.ChecksumOk)
    (hzero : packet.ZeroPadded) (rand : ℕ) :
    packed (ntoh packet.opCode) packet.payload rand =
      { packet with reqId := ⟨toLe 4 rand, length_toLe 4 rand⟩ } := by
  have hlen := h.length_payload
  have hle : packet.payload.length ≤ maxDataSize := by
    rw [hlen]
    exact Nat.sub_le_iff_le_add'.mpr h.2
  refine BankingPacket.ext ?_ (hton_ntoh _) ?_ rfl (Subtype.ext ?_)
  · change hton 4 (protocolHeaderSize + packet.payload.length) = _
    rw [hlen, Nat.add_sub_cancel' h.1, hton_ntoh]
  · change hton 2 (byteSum packet.payload).toNat = _
    rw [show (byteSum packet.payload).toNat = ntoh packet.checksum from hsum, hton_ntoh]
  · -- the data is its payload and the zeros after it
    change (packet.payload ++ List.replicate maxDataSize 0).take maxDataSize = packet.data.toList
    have hrest : packet.data.toList.drop packet.payload.length =
        List.replicate (maxDataSize - packet.payload.length) 0 := by
      refine List.eq_replicate_iff.mpr ⟨by simp, ?_⟩
      rw [hlen]
      exact hzero
    have hdata : packet.payload ++ packet.data.toList.drop packet.payload.length =
        packet.data.toList := by
      conv_lhs => rw [hlen]
      exact List.take_append_drop _ _
    rw [List.take_append, List.take_of_length_le hle, List.take_replicate, ← hdata, hrest]
    congr 2
    omega

/-- **The codec is a round trip both ways.**  `pack_request` on data that fits returns 0 and a
packet that carries the operation and the data, and on more data returns -1 and leaves the packet
alone; a well sized packet with zeros after its payload that `unpack_request` accepts is what
`pack_request` makes of its operation and payload, up to the request id. -/
theorem roundTrip :
    (∀ (packet : BankingPacket) (opcode : UInt16) (data : List UInt8) (rand : ℕ),
      (data.length ≤ maxDataSize → ∃ out, packRequest packet opcode.toNat data rand = .ok (0, out) ∧
        Carries out opcode data) ∧
      (maxDataSize < data.length →
        packRequest packet opcode.toNat data rand = .ok (-1, packet))) ∧
    ∀ packet : BankingPacket, packet.WellSized → packet.ZeroPadded → ∀ dest out,
      unpackRequest packet dest dest.length = .ok (0, out) → ∀ old rand,
        packRequest old (ntoh packet.opCode)
            (out.take (ntoh packet.length - protocolHeaderSize)) rand =
          .ok (0, { packet with reqId := ⟨toLe 4 rand, length_toLe 4 rand⟩ }) := by
  refine ⟨fun packet opcode data rand => ⟨fun h => ?_, fun h => ?_⟩,
    fun packet h hzero dest out hout old rand => ?_⟩
  · exact ⟨_, packRequest_eq packet opcode.toNat rand h, carries_packed opcode rand h⟩
  · rw [packRequest, if_pos h]
    rfl
  · obtain ⟨hsum, -, rfl⟩ := h.unpack_accepts hout
    have hle : packet.payload.length ≤ maxDataSize := by
      rw [h.length_payload]
      exact Nat.sub_le_iff_le_add'.mpr h.2
    rw [← h.length_payload, List.take_left, packRequest_eq old _ rand hle,
      packed_payload h hsum hzero]

end BankingSystem
