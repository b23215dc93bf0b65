import Mathlib.Data.List.Induction
import BankingSystem.Otp.Codes

/-!
# Otp/Issued — every accepted code was issued, and what its expiry is worth

Along any run from the empty table, the codes accepted for an account are among those issued to it,
each at most as often (`count_accepted_le`): what was accepted and what can still be verified
together never exceed what was issued.

GENERATE also records when its code ends (`expiry`), and nothing reads it: a code is accepted at any
time (`not_expires`).  Where every VERIFY that finds its code comes before that entry has ended, no
code is accepted more than five minutes after a GENERATE that returned it (`expires_of_inTime`).
-/

namespace BankingSystem

open CString FirstFit Machine

variable {otpDb : OtpDB} {a : Arrival} {account : List UInt8}

/-! ## One-time codes -/

/-- The request verifies the account, with success. -/
def Accepts (otpDb : OtpDB) (a : Arrival) (account : List UInt8) : Prop :=
  a.Verifies account ∧ (serve otpDb a).1.status = 1

instance (otpDb : OtpDB) (a : Arrival) (account : List UInt8) :
    Decidable (Accepts otpDb a account) :=
  inferInstanceAs (Decidable (_ ∧ _))

/-- The codes accepted for an account along a run. -/
def accepted (account : List UInt8) : OtpDB → List Arrival → List (List UInt8)
  | _, [] => []
  | otpDb, a :: as =>
    (if Accepts otpDb a account then [a.code] else []) ++ accepted account (serve otpDb a).2 as

theorem not_accepts_of_issues (h : Issues otpDb a account) : ¬ Accepts otpDb a account :=
  fun hv => ne_generate_of_verify hv.1.1 h.1.1

/-- An accepted code is the top code, and is popped. -/
theorem codes_accept (h : Accepts otpDb a account) :
    otpDb.codes account = a.code :: (serve otpDb a).2.codes account := by
  obtain ⟨⟨hop, rfl⟩, hst⟩ := h
  have hhead := (verify_iff ⟨hop, rfl⟩).mp hst
  have hpop : (serve otpDb a).2.codes a.account = (otpDb.codes a.account).tail := by
    rw [OtpDB.codes, (serve_verify otpDb hop).2]
    exact stack_take _ _ hhead
  obtain ⟨rest, hrest⟩ := List.head?_eq_some_iff.mp hhead
  rw [hpop, hrest]
  rfl

/-- What was accepted, together with what can still be verified, is covered by what was issued. -/
def Accounted (issued accepted codes : List (List UInt8)) : Prop :=
  ∀ c, accepted.count c + codes.count c ≤ issued.count c

/-- **One request keeps the account of the codes.** -/
theorem accounted_serve {hist used : List (List UInt8)}
    (h : Accounted hist used (otpDb.codes account)) :
    Accounted (hist ++ if Issues otpDb a account then [replyCode otpDb a] else [])
      (used ++ if Accepts otpDb a account then [a.code] else [])
      ((serve otpDb a).2.codes account) := by
  intro c
  have hc := h c
  by_cases hi : Issues otpDb a account
  · rw [if_pos hi, if_neg (not_accepts_of_issues hi), List.append_nil, List.count_append,
      List.count_singleton]
    -- a replaced code can no longer be verified, which only lowers the left side
    have htail := (List.tail_sublist (otpDb.codes account)).count_le c
    obtain hpush | hreplace := codes_issue hi
    · rw [hpush, List.count_cons]
      omega
    · rw [hreplace, List.count_cons]
      omega
  · rw [if_neg hi, List.append_nil]
    by_cases hv : Accepts otpDb a account
    · rw [codes_accept hv, List.count_cons] at hc
      rw [if_pos hv, List.count_append, List.count_singleton]
      omega
    · rw [if_neg hv, List.append_nil]
      obtain hsame | ⟨hver, hhead, -⟩ := codes_serve otpDb hi
      · rwa [hsame]
      · exact absurd ⟨hver, (verify_iff hver).mpr hhead⟩ hv

theorem accounted_after {hist used : List (List UInt8)}
    (h : Accounted hist used (otpDb.codes account)) (run : List Arrival) :
    Accounted (hist ++ issued account otpDb run) (used ++ accepted account otpDb run)
      ((after serve otpDb run).codes account) := by
  induction run generalizing otpDb hist used with
  | nil => rwa [issued, accepted, List.append_nil, List.append_nil]
  | cons a as ih =>
    rw [issued, accepted, ← List.append_assoc, ← List.append_assoc]
    exact ih (accounted_serve h)

theorem accounted_init (account : List UInt8) (run : List Arrival) :
    Accounted (issued account otpInit run) (accepted account otpInit run)
      ((after serve otpInit run).codes account) := by
  have hempty : Accounted [] [] (otpInit.codes account) := fun c => by
    rw [codes_init]
    rfl
  have h := accounted_after hempty run
  rwa [List.nil_append, List.nil_append] at h

/-- **Each code is accepted at most as often as it was issued.**  After any requests on the empty
table, for every account and code; and a code that is accepted now was issued to that account
before, more often than it was accepted. -/
theorem count_accepted_le (account c : List UInt8) (run : List Arrival) :
    (accepted account otpInit run).count c ≤ (issued account otpInit run).count c ∧
      ∀ before v later, run = before ++ v :: later →
        Accepts (after serve otpInit before) v account →
        v.code ∈ issued account otpInit before ∧
          (accepted account otpInit before).count v.code <
            (issued account otpInit before).count v.code := by
  refine ⟨(Nat.le_add_right _ _).trans (accounted_init account run c), ?_⟩
  rintro before v later rfl hv
  have hbefore := accounted_init account before v.code
  rw [codes_accept hv, List.count_cons_self] at hbefore
  refine ⟨List.count_pos_iff.mp ?_, ?_⟩ <;> omega

/-! ## The expiry -/

/-- The entry was filled by a GENERATE of the requests so far: its account, the code returned, and
five minutes from the time of that request. -/
def IssuedBy (past : List Arrival) (e : OtpEntry) : Prop :=
  ∃ earlier g middle, past = earlier ++ g :: middle ∧
    Issues (after serve otpInit earlier) g e.account.text ∧
    replyCode (after serve otpInit earlier) g = e.otp.text ∧ e.expiry = g.time + 300

theorem IssuedBy.append {past : List Arrival} {e : OtpEntry} (h : IssuedBy past e) (a : Arrival) :
    IssuedBy (past ++ [a]) e := by
  obtain ⟨earlier, g, middle, rfl, hg⟩ := h
  exact ⟨earlier, g, middle ++ [a], by simp, hg⟩

/-- **What a request leaves in use** was there before, or is the entry it issues a code with. -/
theorem used_serve {j : Fin maxOtps} (hj : ((serve otpDb a).2 j).used = true) :
    (serve otpDb a).2 j = otpDb j ∨
      Issues otpDb a ((serve otpDb a).2 j).account.text ∧
        replyCode otpDb a = ((serve otpDb a).2 j).otp.text ∧
        ((serve otpDb a).2 j).expiry = a.time + 300 := by
  by_cases hg : a.req.opCode = otpOpGenerate
  · cases hi : generateSlot otpDb a.req.account with
    | none => exact Or.inl (by rw [serve_refuse hg hi])
    | some i =>
      obtain ⟨e, hacc, -, hexp, -, hst, hcode, hdb⟩ := serve_issue hg hi
      by_cases hji : j = i
      · subst hji
        refine Or.inr ?_
        rw [hdb, Function.update_self]
        exact ⟨⟨⟨hg, hacc.symm⟩, hst⟩, hcode, hexp⟩
      · exact Or.inl (by rw [hdb, Function.update_of_ne hji])
  · by_cases hv : a.req.opCode = otpOpVerify
    · by_cases hc : ∃ i, verifySlot otpDb a.req.account = some i ∧
          strcmpEq (otpDb i).otp.bytes a.req.otpCode = true
      · obtain ⟨i, hi, hc⟩ := hc
        rw [(serve_consume hv hi hc).2] at hj ⊢
        by_cases hji : j = i
        · subst hji
          rw [Function.update_self] at hj
          exact absurd hj Bool.false_ne_true
        · exact Or.inl (Function.update_of_ne hji _ _)
      · exact Or.inl (by rw [serve_invalid hv fun i hi h => hc ⟨i, hi, h⟩])
    · exact Or.inl (by rw [serve_other otpDb hg hv])

/-- **Every entry in use was filled by a GENERATE of the run.** -/
theorem issuedBy_after (run : List Arrival) (j : Fin maxOtps)
    (hj : (after serve otpInit run j).used = true) : IssuedBy run (after serve otpInit run j) := by
  induction run using List.reverseRecOn with
  | nil => exact absurd hj Bool.false_ne_true
  | append_singleton past a ih =>
    rw [after_append] at hj ⊢
    obtain hsame | ⟨hi, hcode, hexp⟩ := used_serve hj
    · have hold : after serve (after serve otpInit past) [a] j = after serve otpInit past j := hsame
      rw [hold] at hj ⊢
      exact (ih hj).append a
    · exact ⟨past, a, [], rfl, hi, hcode, hexp⟩

/-- **Codes expire** along a run from the empty table: each accepted code was returned for the
account at most five minutes before. -/
def Expires (account : List UInt8) (run : List Arrival) : Prop :=
  ∀ before v later, run = before ++ v :: later → Accepts (after serve otpInit before) v account →
    ∃ earlier g middle, before = earlier ++ g :: middle ∧
      Issues (after serve otpInit earlier) g account ∧
      replyCode (after serve otpInit earlier) g = v.code ∧ v.time ≤ g.time + 300

/-- A VERIFY that finds its code arrives before that entry has ended. -/
def InTime (otpDb : OtpDB) (a : Arrival) : Prop :=
  a.req.opCode = otpOpVerify → ∀ i, verifySlot otpDb a.req.account = some i →
    strcmpEq (otpDb i).otp.bytes a.req.otpCode = true → a.time ≤ (otpDb i).expiry

/-- The entry a code is accepted from. -/
theorem entry_of_accepts (h : Accepts otpDb a account) :
    ∃ i, verifySlot otpDb a.req.account = some i ∧
      strcmpEq (otpDb i).otp.bytes a.req.otpCode = true ∧ (otpDb i).used = true ∧
      (otpDb i).account.text = account ∧ (otpDb i).otp.text = a.code := by
  obtain ⟨⟨hop, rfl⟩, hst⟩ := h
  by_cases hc : ∃ i, verifySlot otpDb a.req.account = some i ∧
      strcmpEq (otpDb i).otp.bytes a.req.otpCode = true
  · obtain ⟨i, hi, hc⟩ := hc
    have hfound : ((otpDb i).used && strcmpEq (otpDb i).account.bytes a.req.account) = true :=
      List.find?_some (p := fun i => (otpDb i).used &&
        strcmpEq (otpDb i).account.bytes a.req.account) hi
    rw [Bool.and_eq_true, CharArray.strcmpEq_iff] at hfound
    exact ⟨i, hi, hc, hfound.1, hfound.2.symm, ((CharArray.strcmpEq_iff _ _).mp hc).symm⟩
  · rw [serve_invalid hop fun i hi h => hc ⟨i, hi, h⟩] at hst
    exact absurd hst zero_ne_one

/-- **Where every VERIFY that finds its code is in time, codes expire.** -/
theorem expires_of_inTime {account : List UInt8} {run : List Arrival}
    (h : Along InTime serve otpInit run) : Expires account run := by
  rintro before v later rfl hv
  obtain ⟨i, hi, hc, hused, rfl, hotp⟩ := entry_of_accepts hv
  obtain ⟨earlier, g, middle, rfl, hissue, hcode, hexp⟩ := issuedBy_after before i hused
  have htime := along_iff.mp h _ v later rfl hv.1.1 i hi hc
  exact ⟨earlier, g, middle, rfl, hissue, hcode.trans hotp, htime.trans_eq hexp⟩

/-- A code of time 0, used at time 300. -/
theorem expires_of_inTime_last :
    let generate := Arrival.ofService 1 (onto [65] fun _ => 0) none (fun _ => 0) 0 0
    let verify := Arrival.ofService 2 (onto [65] fun _ => 0)
      (some (onto (decimal 100000) fun _ => 0)) (fun _ => 0) 0 300
    Expires [65] [generate, verify] := by
  intro generate verify
  refine expires_of_inTime ⟨fun hg => absurd hg (by decide), fun _ i hi _ => ?_, trivial⟩
  have hslot : verifySlot (serve otpInit generate).2 verify.req.account =
      some ⟨0, by decide⟩ := by decide +kernel
  obtain rfl := Option.some.inj (hslot.symm.trans hi)
  decide +kernel

/-- The same one second later: the code is still accepted. -/
theorem not_expires :
    let generate := Arrival.ofService 1 (onto [65] fun _ => 0) none (fun _ => 0) 0 0
    let verify := Arrival.ofService 2 (onto [65] fun _ => 0)
      (some (onto (decimal 100000) fun _ => 0)) (fun _ => 0) 0 301
    [generate, verify].Pairwise (fun a b => a.time ≤ b.time) ∧
      ¬ Expires [65] [generate, verify] := by
  intro generate verify
  refine ⟨by decide, fun h => ?_⟩
  obtain ⟨earlier, g, middle, hsplit, -, -, htime⟩ :=
    h [generate] verify [] rfl (by decide +kernel)
  obtain rfl : g = generate := List.mem_singleton.mp (by rw [hsplit]; simp)
  exact absurd htime (by decide)

end BankingSystem
