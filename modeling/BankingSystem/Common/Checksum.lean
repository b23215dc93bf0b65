import BankingSystem.Common.Protocol
import Mathlib.Data.Nat.ModEq

/-!
# Common/Checksum — what the checksum of a packet detects

The checksum is the sum of the bytes modulo `2 ^ 16`.  A packed packet whose payload is replaced by
another one of the same length is accepted exactly when the two sums agree modulo `2 ^ 16`, so a
change of a single byte is always noticed (`detects`).
-/

namespace BankingSystem

open Bytes

/-- The sum of the bytes, unbounded. -/
def byteTotal (bs : List UInt8) : ℕ := (bs.map UInt8.toNat).sum

/-- **The sum `calculate_checksum` returns** is the sum of the bytes, with what 16 bits keep. -/
theorem toNat_byteSum (bs : List UInt8) : (byteSum bs).toNat = byteTotal bs % 2 ^ 16 := by
  suffices h : ∀ sum : UInt16, (bs.foldl (fun sum b => sum + b.toUInt16) sum).toNat =
      (sum.toNat + byteTotal bs) % 2 ^ 16 by
    have hzero := h 0
    rwa [show (0 : UInt16).toNat = 0 from rfl, Nat.zero_add] at hzero
  intro sum
  induction bs generalizing sum with
  | nil => exact (Nat.mod_eq_of_lt sum.toNat_lt).symm
  | cons b bs ih =>
    rw [List.foldl_cons, ih, UInt16.toNat_add, UInt8.toNat_toUInt16, Nat.mod_add_mod, byteTotal,
      byteTotal, List.map_cons, List.sum_cons, Nat.add_assoc]

theorem byteTotal_append (bs cs : List UInt8) :
    byteTotal (bs ++ cs) = byteTotal bs + byteTotal cs := by
  rw [byteTotal, List.map_append, List.sum_append, ← byteTotal, ← byteTotal]

theorem byteTotal_cons (b : UInt8) (bs : List UInt8) :
    byteTotal (b :: bs) = b.toNat + byteTotal bs := by
  rw [byteTotal, List.map_cons, List.sum_cons, ← byteTotal]

/-- Another byte in one place changes the sum modulo `2 ^ 16`. -/
theorem byteTotal_set {bs : List UInt8} {i : ℕ} (hi : i < bs.length) {b : UInt8} (hb : b ≠ bs[i]) :
    ¬ byteTotal bs ≡ byteTotal (bs.set i b) [MOD 2 ^ 16] := by
  intro h
  have hold : byteTotal bs =
      byteTotal (bs.take i) + (bs[i].toNat + byteTotal (bs.drop (i + 1))) := by
    rw [← byteTotal_cons, ← byteTotal_append, ← List.drop_eq_getElem_cons hi,
      List.take_append_drop]
  have hnew : byteTotal (bs.set i b) =
      byteTotal (bs.take i) + (b.toNat + byteTotal (bs.drop (i + 1))) := by
    rw [List.set_eq_take_append_cons_drop, if_pos hi, byteTotal_append, byteTotal_cons]
  rw [hold, hnew] at h
  have hbyte : bs[i].toNat ≡ b.toNat [MOD 2 ^ 16] :=
    Nat.ModEq.add_right_cancel' _ (Nat.ModEq.add_left_cancel' _ h)
  have hlt := bs[i].toNat_lt
  have hlt' := b.toNat_lt
  exact hb (UInt8.toNat_inj.mp (hbyte.eq_of_lt_of_lt (by omega) (by omega)).symm)

/-- The packet with the first data bytes replaced. -/
def BankingPacket.overwrite (packet : BankingPacket) (bs : List UInt8)
    (h : bs.length ≤ maxDataSize) : BankingPacket :=
  { packet with data := ⟨bs ++ packet.data.toList.drop bs.length, by simp; omega⟩ }

section Altered

variable (opcode : ℕ) {data altered : List UInt8} (rand : ℕ) (h : data.length ≤ maxDataSize)
  (hlen : altered.length = data.length)

include hlen

theorem wellSized_overwrite :
    ((packed opcode data rand).overwrite altered (hlen.trans_le h)).WellSized :=
  wellSized_packed opcode rand h

theorem payload_overwrite :
    ((packed opcode data rand).overwrite altered (hlen.trans_le h)).payload = altered := by
  rw [BankingPacket.payload]
  change (altered ++ _).take (ntoh (packed opcode data rand).length - protocolHeaderSize) = altered
  rw [ntoh_length_packed opcode rand h, Nat.add_sub_cancel_left]
  exact List.take_left' hlen

/-- The checksum is that of the payload before. -/
theorem checksumOk_overwrite :
    ((packed opcode data rand).overwrite altered (hlen.trans_le h)).ChecksumOk ↔
      byteTotal data ≡ byteTotal altered [MOD 2 ^ 16] := by
  rw [BankingPacket.ChecksumOk, payload_overwrite opcode rand h hlen]
  change (byteSum altered).toNat = ntoh (hton 2 (byteSum data).toNat) ↔ _
  rw [ntoh_hton, toNat_byteSum, toNat_byteSum]
  change _ = _ % 2 ^ 16 ↔ _
  rw [Nat.mod_mod]
  exact eq_comm

end Altered

/-- **The packet is rejected**, by the check of the worker and by `unpack_request`, which copies
nothing. -/
structure Rejected (packet : BankingPacket) : Prop where
  verify : verifyPacketChecksum packet = .ok (-1)
  unpack : ∀ dest, unpackRequest packet dest dest.length = .ok (-1, dest)

/-- A packet in range with a wrong checksum is rejected. -/
theorem BankingPacket.WellSized.rejected {packet : BankingPacket} (h : packet.WellSized)
    (hsum : ¬ packet.ChecksumOk) : Rejected packet where
  verify := by rw [h.verify_eq, if_neg hsum]
  unpack dest := by rw [h.unpack_eq, if_neg fun hok => hsum hok.1]

/-- **What the checksum detects.**  A packet `pack_request` built of `data`, with its payload
replaced by another one of the same length, is accepted by `verify_packet_checksum` and, where there
is room for it, by `unpack_request` exactly when the sums of the two payloads agree modulo
`2 ^ 16`; with one byte of the payload changed it is rejected. -/
theorem detects (packet : BankingPacket) (opcode : UInt16) (data : List UInt8) (rand : ℕ)
    (h : data.length ≤ maxDataSize) :
    ∃ out, packRequest packet opcode.toNat data rand = .ok (0, out) ∧
      (∀ altered (hlen : altered.length = data.length),
        (verifyPacketChecksum (out.overwrite altered (hlen.trans_le h)) = .ok 0 ↔
          byteTotal data ≡ byteTotal altered [MOD 2 ^ 16]) ∧
        ∀ dest : List UInt8, data.length ≤ dest.length →
          ((∃ copied, unpackRequest (out.overwrite altered (hlen.trans_le h)) dest dest.length =
            .ok (0, copied)) ↔ byteTotal data ≡ byteTotal altered [MOD 2 ^ 16])) ∧
      ∀ (i : ℕ) (hi : i < data.length) (b : UInt8), b ≠ data[i] →
        Rejected (out.overwrite (data.set i b) ((List.length_set ..).trans_le h)) := by
  refine ⟨_, packRequest_eq packet opcode.toNat rand h,
    fun altered hlen => ⟨?_, fun dest hroom => ?_⟩, fun i hi b hb => ?_⟩
  · rw [(wellSized_overwrite opcode.toNat rand h hlen).verify_eq,
      ← checksumOk_overwrite opcode.toNat rand h hlen]
    split <;> simp_all
  · have hroom' : altered.length ≤ dest.length := hlen.trans_le hroom
    rw [(wellSized_overwrite opcode.toNat rand h hlen).unpack_eq,
      ← checksumOk_overwrite opcode.toNat rand h hlen, payload_overwrite opcode.toNat rand h hlen]
    split <;> simp_all
  · refine (wellSized_overwrite opcode.toNat rand h (List.length_set ..)).rejected ?_
    rw [checksumOk_overwrite opcode.toNat rand h (List.length_set ..)]
    exact byteTotal_set hi hb

/-- Two swapped bytes pass the checks. -/
theorem detects_swapped : ∃ (out : BankingPacket) (h : [66, 65].length ≤ maxDataSize),
    packRequest (packed 0 [] 0) 2 [65, 66] 7 = .ok (0, out) ∧
      verifyPacketChecksum (out.overwrite [66, 65] h) = .ok 0 := by
  obtain ⟨out, hpack, haltered, -⟩ := detects (packed 0 [] 0) 2 [65, 66] 7 (by decide)
  exact ⟨out, by decide, hpack, (haltered [66, 65] rfl).1.mpr rfl⟩

end BankingSystem
