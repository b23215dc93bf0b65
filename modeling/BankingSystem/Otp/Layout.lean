import BankingSystem.Otp.Memory
import BankingSystem.Otp.Socket

/-!
# Otp/Layout — the table of entries and the bytes of `otp_db`

`handleClient` works on a table of entries, `handleClientAt` on the bytes of `otp_db`.  On requests
whose strings end inside their fields they are one service: from bytes that lay out a table
(`LaidOut`), the second replies with the bytes of what the first replies, and leaves the bytes of
the table that the first leaves (`simulation_serveAt`).
-/

namespace BankingSystem

open Bytes CString Machine

/-- The bytes of `otp_db[i]` are those of the entry. -/
structure EntryAt (db : CharPtr) (i : Fin maxOtps) (e : OtpEntry) : Prop where
  account : accountField db i = e.account.bytes
  otp : otpField db i = e.otp.bytes
  expiry : readAt db (expiryAt i) 8 = toLe 8 (e.expiry % 2 ^ 64).toNat
  used : usedIn db i = e.used

/-- **The bytes of `otp_db` are those of the table.** -/
def LaidOut (db : CharPtr) (otpDb : OtpDB) : Prop := ∀ i, EntryAt db i (otpDb i)

/-! ## The searches -/

section Searches

variable {db : CharPtr} {otpDb : OtpDB} (h : LaidOut db otpDb) (req : OtpIpcRequest)

include h

theorem strcmpIn_account (i : Fin maxOtps) :
    strcmpIn (accountField db i) req.accountField 0 =
      .ok (strcmpEq (otpDb i).account.bytes req.account) := by
  have honto : onto req.accountField (req.account.add 0) = req.account :=
    onto_readAt req.account 0 32
  have hlen : (otpDb i).account.bytes.length = req.accountField.length := by
    rw [(otpDb i).account.length_eq, req.length_accountField]
  rw [(h i).account, strcmpIn_of_mem (otpDb i).account.nul_mem hlen, honto]

theorem strcmpIn_otp (i : Fin maxOtps) :
    strcmpIn (otpField db i) req.otpField 0 =
      .ok (strcmpEq (otpDb i).otp.bytes req.otpCode) := by
  have honto : onto req.otpField (req.otpCode.add 0) = req.otpCode := onto_readAt req.otpCode 0 8
  have hlen : (otpDb i).otp.bytes.length = req.otpField.length := by
    rw [(otpDb i).otp.length_eq, req.length_otpField]
  rw [(h i).otp, strcmpIn_of_mem (otpDb i).otp.nul_mem hlen, honto]

/-- GENERATE finds the same slot. -/
theorem generateSlotIn_laidOut :
    generateSlotIn db req.accountField = .ok (generateSlot otpDb req.account) := by
  refine findM?_eq fun i => ?_
  rw [strcmpIn_account h, (h i).used]
  cases (otpDb i).used <;> rfl

/-- VERIFY finds the same entry. -/
theorem verifySlotIn_laidOut :
    verifySlotIn db req.accountField = .ok (verifySlot otpDb req.account) := by
  refine findM?_eq fun i => ?_
  rw [strcmpIn_account h, (h i).used]
  cases (otpDb i).used <;> rfl

end Searches

/-! ## The table -/

/-- `otp_db` after its `memset`. -/
theorem laidOut_init : LaidOut noCode otpInit := fun i => by
  have hexpiry : readAt noCode (expiryAt i) 8 = toLe 8 ((0 : ℤ) % 2 ^ 64).toNat := by
    rw [Int.zero_emod]
    rfl
  exact ⟨rfl, rfl, hexpiry, rfl⟩

section Table

variable {db db' : CharPtr} {otpDb : OtpDB} {slot : Fin maxOtps} {e : OtpEntry}

/-- An entry whose 56 bytes stay is the same entry. -/
theorem EntryAt.congr {i : Fin maxOtps} (h : EntryAt db i e)
    (hbytes : readAt db' (accountAt i) sizeofOtpEntry = readAt db (accountAt i) sizeofOtpEntry) :
    EntryAt db' i e where
  account := (readAt_within (k := 0) hbytes (by decide)).trans h.account
  otp := (readAt_within hbytes (by decide : 32 + 8 ≤ sizeofOtpEntry)).trans h.otp
  expiry := (readAt_within hbytes (by decide : 40 + 8 ≤ sizeofOtpEntry)).trans h.expiry
  used := by
    rw [← h.used, usedIn, usedIn]
    exact congrArg (fun bs => decide (le bs ≠ 0))
      (readAt_within hbytes (by decide : 48 + 4 ≤ sizeofOtpEntry))

/-- A write into one entry. -/
theorem LaidOut.update (h : LaidOut db otpDb) (hslot : EntryAt db' slot e)
    (hothers : ∀ i, i ≠ slot →
      readAt db' (accountAt i) sizeofOtpEntry = readAt db (accountAt i) sizeofOtpEntry) :
    LaidOut db' (Function.update otpDb slot e) := by
  intro i
  by_cases hi : i = slot
  · subst hi
    rwa [Function.update_self]
  · rw [Function.update_of_ne hi]
    exact (h i).congr (hothers i hi)

/-- An entry that is freed. -/
theorem laidOut_consumeAt (h : LaidOut db otpDb) (i : Fin maxOtps) :
    LaidOut (consumeAt db i) (Function.update otpDb i { otpDb i with used := false }) := by
  refine h.update ⟨?_, ?_, ?_, ?_⟩ fun j hj => ?_
  · exact (readAt_writeAt_of_disjoint (by simp [accountAt, usedAt])).trans (h i).account
  · exact (readAt_writeAt_of_disjoint (by simp [otpAt, usedAt])).trans (h i).otp
  · exact (readAt_writeAt_of_disjoint (by simp [expiryAt, usedAt])).trans (h i).expiry
  · rw [usedIn, consumeAt, readAt_writeAt_self (length_toLe 4 0)]
    rfl
  · have hne : (j : ℕ) ≠ i := fun heq => hj (Fin.ext heq)
    refine readAt_writeAt_of_disjoint ?_
    simp only [accountAt, usedAt, sizeofOtpEntry, length_toLe]
    omega

/-- An entry that is written. -/
theorem laidOut_generateAt (h : LaidOut db otpDb) {req : OtpIpcRequest}
    (hmem : 0 ∈ req.accountField) (slot : Fin maxOtps) (rand : ℕ) (time : ℤ) :
    LaidOut (generateAt db slot req rand time) (Function.update otpDb slot
      ⟨(otpDb slot).account.print (chars req.account 32), (otpDb slot).otp.print (newCodeOf rand),
        time + 300, true⟩) := by
  refine h.update ⟨?_, ?_, ?_, ?_⟩ fun j hj => entry_generateAt hmem hj
  · rw [account_generateAt hmem, (h slot).account,
      CharArray.bytes_print _ (length_account_le hmem)]
  · have hlen : (newCodeOf rand).length ≤ 7 := (length_newCodeOf rand).trans_le (by decide)
    rw [otp_generateAt hmem, (h slot).otp, CharArray.bytes_print _ hlen, length_newCodeOf]
  · exact readAt_writeAt_self (length_toLe 8 _)
  · have hused : readAt (generateAt db slot req rand time) (usedAt slot) 4 = toLe 4 1 := by
      rw [generateAt, readAt_writeAt_of_disjoint (by simp [usedAt, expiryAt])]
      exact readAt_writeAt_self (length_toLe 4 1)
    rw [usedIn, hused]
    rfl

end Table

/-! ## The reply -/

section Reply

variable {res : CharPtr}

/-- Text in zeros is a string. -/
theorem isString_zeros {s : List UInt8} (h : 0 ∉ s) : IsString (onto s fun _ => 0) s := by
  have hnul : s ++ ((List.range (s.length + 1)).map fun _ => (0 : UInt8)).drop s.length =
      s ++ 0 :: [] := by
    simp
  have hfill := onto_fill s (fun _ => 0) (s.length + 1)
  rw [hnul] at hfill
  exact hfill ▸ isString_onto h [] fun _ => 0

/-- The reply after its `memset` and its status. -/
def repliedStatus (res : CharPtr) (status : ℕ) : CharPtr :=
  writeAt (writeAt res 0 (List.replicate 76 0)) 0 (toLe 4 status)

/-- Behind the status it is zero. -/
theorem readAt_repliedStatus {status off n : ℕ} (hoff : 4 ≤ off) (hn : off + n ≤ 76) :
    readAt (repliedStatus res status) off n = List.replicate n 0 := by
  rw [repliedStatus, readAt_writeAt_of_disjoint (Or.inr (by simpa using hoff))]
  refine List.eq_replicate_iff.mpr ⟨by simp, fun b hb => ?_⟩
  obtain ⟨i, hi, rfl⟩ := List.mem_map.mp hb
  have hlt : i + off < (List.replicate 76 (0 : UInt8)).length := by
    rw [List.length_replicate]
    exact (Nat.add_lt_add_right (List.mem_range.mp hi) off).trans_le (by omega)
  have hbyte : writeAt res 0 (List.replicate 76 0) (0 + (i + off)) = _ := writeAt_add hlt
  rw [Nat.zero_add] at hbyte
  exact hbyte.trans (List.getElem_replicate _)

section Writes

variable {otpCode : CharPtr} (hcode : Terminated otpCode 8) {status : ℕ} {message : String}
  (hmessage : 0 ∉ ascii message) (hlen : (ascii message).length ≤ 63)

include hcode hmessage hlen

/-- The writes that make the reply. -/
theorem replyAt_eq : replyAt res status otpCode message =
    writeAt (writeAt (repliedStatus res status) 4 (chars otpCode 8 ++ [0])) 12
      (ascii message ++ [0]) := by
  have hchars : chars (onto (ascii message) fun _ => 0) 64 = ascii message :=
    (isString_zeros hmessage).chars_eq (hlen.trans (by decide))
  have hterm : Terminated (onto (ascii message) fun _ => 0) 64 := by
    rw [← length_chars_lt_iff, hchars]
    exact Nat.lt_succ_of_le hlen
  rw [replyAt, strcpyAt_eq hcode, strcpyAt_eq hterm, hchars]
  rfl

theorem status_replyAt (hstatus : status < 2 ^ 32) :
    readAt (replyAt res status otpCode message) 0 4 = toLe 4 ((status : ℤ) % 2 ^ 32).toNat := by
  have hcast : ((status : ℤ) % 2 ^ 32).toNat = status := by omega
  rw [replyAt_eq hcode hmessage hlen, readAt_writeAt_of_disjoint (Or.inl (by decide)),
    readAt_writeAt_of_disjoint (Or.inl (by decide)), repliedStatus,
    readAt_writeAt_self (length_toLe 4 status), hcast]

theorem otpCode_replyAt : readAt (replyAt res status otpCode message) 4 8 =
    ((CharArray.zero 7).print (chars otpCode 8)).bytes := by
  have hcodeLen : (chars otpCode 8).length ≤ 7 :=
    Nat.le_of_lt_succ (length_chars_lt_iff.mpr hcode)
  have hfit : (chars otpCode 8 ++ [0]).length ≤ 8 := by
    rw [List.length_append]
    exact Nat.succ_le_succ hcodeLen
  rw [replyAt_eq hcode hmessage hlen, readAt_writeAt_of_disjoint (Or.inl (by decide)),
    readAt_writeAt hfit, readAt_repliedStatus (by decide) (by decide), List.append_assoc,
    List.length_append]
  exact (CharArray.bytes_print (CharArray.zero 7) hcodeLen).symm

theorem message_replyAt : readAt (replyAt res status otpCode message) 12 64 =
    ((CharArray.zero 63).print (ascii message)).bytes := by
  have hfit : (ascii message ++ [0]).length ≤ 64 := by
    rw [List.length_append]
    exact Nat.succ_le_succ hlen
  have hbefore : 4 + (chars otpCode 8 ++ [0]).length ≤ 12 := by
    have hcodeLen := length_chars_lt_iff.mpr hcode
    rw [List.length_append, List.length_singleton]
    omega
  rw [replyAt_eq hcode hmessage hlen, readAt_writeAt hfit,
    readAt_writeAt_of_disjoint (Or.inr hbefore), readAt_repliedStatus (by decide) (by decide),
    List.append_assoc, List.length_append]
  exact (CharArray.bytes_print (CharArray.zero 63) hlen).symm

/-- **The bytes of the reply.** -/
theorem readAt_replyAt (hstatus : status < 2 ^ 32) :
    readAt (replyAt res status otpCode message) 0 76 =
      (OtpIpcResponse.make status (chars otpCode 8) message).bytes := by
  have hsplit : readAt (replyAt res status otpCode message) 0 76 =
      readAt (replyAt res status otpCode message) 0 4 ++
        (readAt (replyAt res status otpCode message) 4 8 ++
          readAt (replyAt res status otpCode message) 12 64) := by
    rw [← readAt_add _ 4 8 64, ← readAt_add _ 0 4 72]
  rw [hsplit, status_replyAt hcode hmessage hlen hstatus, otpCode_replyAt hcode hmessage hlen,
    message_replyAt hcode hmessage hlen]
  rfl

end Writes

end Reply

/-! ## One service -/

section Serve

variable {db : CharPtr} {otpDb : OtpDB} {a : Arrival}

/-- The bytes do what the table does. -/
def Follows (db res : CharPtr) (otpDb : OtpDB) (a : Arrival) : Prop :=
  ∃ res' db', handleClientAt db res a.req a.rand a.time = .ok (res', db') ∧
    readAt res' 0 sizeofOtpIpcResponse = (serve otpDb a).1.bytes ∧ LaidOut db' (serve otpDb a).2

/-- A reply without a code. -/
theorem readAt_replyAt_noCode (res : CharPtr) {status : ℕ} (hstatus : status < 2 ^ 32)
    {message : String} (hmessage : 0 ∉ ascii message) (hlen : (ascii message).length ≤ 63) :
    readAt (replyAt res status noCode message) 0 76 =
      (OtpIpcResponse.make status [] message).bytes :=
  readAt_replyAt ⟨0, by decide, rfl⟩ hmessage hlen hstatus

/-- GENERATE with a slot, on the table… -/
theorem serve_slot {slot : Fin maxOtps} (hop : a.req.opCode = otpOpGenerate)
    (hslot : generateSlot otpDb a.req.account = some slot) :
    serve otpDb a = (.make 1 ((otpDb slot).otp.print (newCodeOf a.rand)).text "OTP Generated",
      Function.update otpDb slot ⟨(otpDb slot).account.print (chars a.req.account 32),
        (otpDb slot).otp.print (newCodeOf a.rand), a.time + 300, true⟩) := by
  refine serve_eq ?_
  have hfits := length_chars_lt_iff.mpr a.account_terminated
  rw [handleClient, if_pos hop, hslot]
  dsimp only
  rw [CharArray.strcpy, if_pos hfits]
  rfl

/-- …and its reply, in bytes. -/
theorem readAt_replyAt_slot {slot : Fin maxOtps} {e : OtpEntry} (h : EntryAt db slot e)
    (res : CharPtr) : readAt (replyAt res 1 (db.add (otpAt slot)) "OTP Generated") 0 76 =
      (OtpIpcResponse.make 1 e.otp.text "OTP Generated").bytes := by
  have hnul : 0 ∈ otpField db slot := h.otp ▸ e.otp.nul_mem
  have hcode : chars (db.add (otpAt slot)) 8 = e.otp.text :=
    (chars_add_of_mem hnul).trans (congrArg text h.otp)
  rw [readAt_replyAt (terminated_iff_mem.mpr hnul) (by decide) (by decide) (by decide), hcode]
  rfl

theorem follows_generate (h : LaidOut db otpDb) (res : CharPtr)
    (hop : a.req.opCode = otpOpGenerate) : Follows db res otpDb a := by
  have hmem := a.req.terminated_account_iff.mp a.account_terminated
  have hrun : handleClientAt db res a.req a.rand a.time = .ok _ :=
    handleClientAt_generate hop (generateSlotIn_laidOut h a.req)
  cases hslot : generateSlot otpDb a.req.account with
  | none =>
    rw [hslot] at hrun
    rw [Follows, serve_refuse hop hslot]
    exact ⟨_, _, hrun, readAt_replyAt_noCode res (by decide) (by decide) (by decide), h⟩
  | some slot =>
    rw [hslot] at hrun
    have hlaid := laidOut_generateAt h hmem slot a.rand a.time
    have hentry := hlaid slot
    rw [Function.update_self] at hentry
    rw [Follows, serve_slot hop hslot]
    exact ⟨_, _, hrun, readAt_replyAt_slot hentry res, hlaid⟩

/-- VERIFY with the code of its entry, on the table. -/
theorem serve_verified {i : Fin maxOtps} (hop : a.req.opCode = otpOpVerify)
    (hslot : verifySlot otpDb a.req.account = some i)
    (hsame : strcmpEq (otpDb i).otp.bytes a.req.otpCode = true) :
    serve otpDb a =
      (.make 1 [] "Verified", Function.update otpDb i { otpDb i with used := false }) := by
  refine serve_eq ?_
  rw [handleClient, if_neg (ne_generate_of_verify hop), if_pos hop, hslot]
  exact if_pos hsame

theorem follows_verify (h : LaidOut db otpDb) (res : CharPtr)
    (hop : a.req.opCode = otpOpVerify) : Follows db res otpDb a := by
  have hrun : handleClientAt db res a.req a.rand a.time = _ :=
    handleClientAt_verify hop (verifySlotIn_laidOut h a.req)
  have hinvalid : readAt (replyAt res 0 noCode "Invalid OTP") 0 76 = _ :=
    readAt_replyAt_noCode res (by decide) (by decide) (by decide)
  cases hslot : verifySlot otpDb a.req.account with
  | none =>
    rw [hslot] at hrun
    rw [Follows, serve_invalid hop fun i hi => absurd (hslot.symm.trans hi) (by simp)]
    exact ⟨_, _, hrun, hinvalid, h⟩
  | some i =>
    rw [hslot, Option.elim_some, strcmpIn_otp h a.req i, ok_bind] at hrun
    by_cases hsame : strcmpEq (otpDb i).otp.bytes a.req.otpCode = true
    · rw [if_pos hsame] at hrun
      rw [Follows, serve_verified hop hslot hsame]
      exact ⟨_, _, hrun, readAt_replyAt_noCode res (by decide) (by decide) (by decide),
        laidOut_consumeAt h i⟩
    · rw [if_neg hsame] at hrun
      have hserve : serve otpDb a = (.make 0 [] "Invalid OTP", otpDb) :=
        serve_invalid hop fun j hj => by
          obtain rfl := Option.some.inj (hslot.symm.trans hj)
          exact hsame
      rw [Follows, hserve]
      exact ⟨_, _, hrun, hinvalid, h⟩

/-- **`handle_client` on the bytes does what it does on the table**, for a request whose strings end
inside their fields. -/
theorem follows_of_laidOut (h : LaidOut db otpDb) (res : CharPtr) (a : Arrival) :
    Follows db res otpDb a := by
  by_cases hgen : a.req.opCode = otpOpGenerate
  · exact follows_generate h res hgen
  by_cases hver : a.req.opCode = otpOpVerify
  · exact follows_verify h res hver
  · have hrun : handleClientAt db res a.req a.rand a.time =
        .ok (writeAt res 0 (List.replicate 76 0), db) := by
      rw [handleClientAt, if_neg hgen, if_neg hver]
      rfl
    have hzero : readAt (writeAt res 0 (List.replicate 76 0)) 0 76 = OtpIpcResponse.zero.bytes :=
      (readAt_writeAt_self List.length_replicate).trans (by decide)
    rw [Follows, serve_other otpDb hgen hver]
    exact ⟨_, _, hrun, hzero, h⟩

/-- A request on the bytes: the bytes written, and the bytes left. -/
def serveAt (res db : CharPtr) (a : Arrival) : List UInt8 × CharPtr :=
  match handleClientAt db res a.req a.rand a.time with
  | .ok (res, db) => (readAt res 0 sizeofOtpIpcResponse, db)
  | .error _ => ([], db)

/-- **The two services answer alike**, from the start and for as long as they run. -/
theorem simulation_serveAt (res : CharPtr) : Simulation (serveAt res)
    (fun otpDb a => ((serve otpDb a).1.bytes, (serve otpDb a).2)) (fun _ => True) LaidOut where
  answer _ h := by
    obtain ⟨res', db', hrun, hreply, -⟩ := follows_of_laidOut h res _
    rw [serveAt, hrun]
    exact hreply
  next _ h := by
    obtain ⟨res', db', hrun, -, hlaid⟩ := follows_of_laidOut h res _
    rw [serveAt, hrun]
    exact hlaid

/-- What is written along a run from the `memset` on is what the table service replies. -/
theorem answers_serveAt (res : CharPtr) (run : List Arrival) : answers (serveAt res) noCode run =
    answers (fun otpDb a => ((serve otpDb a).1.bytes, (serve otpDb a).2)) otpInit run :=
  (simulation_serveAt res).answers_eq laidOut_init fun _ _ => trivial

end Serve

end BankingSystem
