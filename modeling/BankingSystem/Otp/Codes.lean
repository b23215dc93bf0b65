import BankingSystem.Otp.Server

/-!
# Otp/Codes — which codes an account can verify

A request changes the codes of an account in one of three ways (`codes_serve`): a GENERATE for it
pushes a code or replaces the top one, a VERIFY of it with the top code pops it, and everything else
leaves them alone.  So the newest code is accepted until it is consumed (`verify_newest_iff`).

A push on a code that is still there happens when GENERATE meets a free slot below the account's own
entry, freed by somebody else.  The older code then comes back once the newer one is consumed
(`not_supersedes`).  As long as GENERATE finds the account's own entry first (`FindsOwn`), an
account has one code at most, and a newer code ends the older ones for good
(`supersedes_of_findsOwn`).
-/

namespace BankingSystem

open CString FirstFit Machine

/-! ## What a request does to the codes of an account -/

variable {otpDb : OtpDB} {a : Arrival} {account : List UInt8}

/-- The request issues a code to the account. -/
def Issues (otpDb : OtpDB) (a : Arrival) (account : List UInt8) : Prop :=
  a.Generates account ∧ (serve otpDb a).1.status = 1

instance (otpDb : OtpDB) (a : Arrival) (account : List UInt8) :
    Decidable (Issues otpDb a account) :=
  inferInstanceAs (Decidable (_ ∧ _))

/-- The code in the reply. -/
def replyCode (otpDb : OtpDB) (a : Arrival) : List UInt8 := (serve otpDb a).1.otpCode.text

/-- **VERIFY succeeds exactly on the top code.** -/
theorem verify_iff (h : a.Verifies account) :
    (serve otpDb a).1.status = 1 ↔ (otpDb.codes account).head? = some a.code := by
  obtain ⟨hop, rfl⟩ := h
  rw [(serve_verify otpDb hop).1, take_eq_true_iff]
  rfl

/-- Issuing pushes the new code, or replaces the top one. -/
theorem codes_issue (h : Issues otpDb a account) :
    (serve otpDb a).2.codes account = replyCode otpDb a :: otpDb.codes account ∨
      (serve otpDb a).2.codes account = replyCode otpDb a :: (otpDb.codes account).tail := by
  obtain ⟨⟨hop, rfl⟩, hst⟩ := h
  obtain ⟨-, hcode, hput⟩ | ⟨h0, -⟩ := serve_generate otpDb hop
  · rw [replyCode, hcode]
    exact stack_put hput
  · exact absurd (h0.symm.trans hst) zero_ne_one

/-- Either way the new code is on top. -/
theorem head?_codes_issue (h : Issues otpDb a account) :
    ((serve otpDb a).2.codes account).head? = some (replyCode otpDb a) := by
  obtain hpush | hreplace := codes_issue h
  · rw [hpush]
    rfl
  · rw [hreplace]
    rfl

/-- The code in the reply is the one drawn. -/
theorem replyCode_eq (h : Issues otpDb a account) : replyCode otpDb a = a.newCode := by
  obtain ⟨-, hcode, -⟩ | ⟨h0, -⟩ := serve_generate otpDb h.1.1
  · exact hcode
  · exact absurd (h0.symm.trans h.2) zero_ne_one

/-- Where GENERATE finds the account's own entry it replaces the top code. -/
theorem codes_issue_of_updates (h : Issues otpDb a account) (hu : Updates otpDb.table account) :
    (serve otpDb a).2.codes account = replyCode otpDb a :: (otpDb.codes account).tail := by
  obtain ⟨⟨hop, rfl⟩, hst⟩ := h
  obtain ⟨-, hcode, hput⟩ | ⟨h0, -⟩ := serve_generate otpDb hop
  · rw [replyCode, hcode]
    exact stack_put_of_updates hput hu
  · exact absurd (h0.symm.trans hst) zero_ne_one

/-- A request that issues nothing to the account leaves its codes alone, unless it verifies the top
one. -/
theorem codes_serve (otpDb : OtpDB) (hissue : ¬ Issues otpDb a account) :
    (serve otpDb a).2.codes account = otpDb.codes account ∨
      (a.Verifies account ∧ (otpDb.codes account).head? = some a.code ∧
        (serve otpDb a).2.codes account = (otpDb.codes account).tail) := by
  by_cases hg : a.req.opCode = otpOpGenerate
  · obtain ⟨hst, -, hput⟩ | ⟨-, hsame⟩ := serve_generate otpDb hg
    · have hne : a.account ≠ account := fun hacc => hissue ⟨⟨hg, hacc⟩, hst⟩
      exact Or.inl (stack_put_ne hput hne)
    · exact Or.inl (by rw [hsame])
  · by_cases hv : a.req.opCode = otpOpVerify
    · have htable := (serve_verify otpDb hv).2
      by_cases hacc : a.account = account
      · subst hacc
        by_cases hhead : (otpDb.codes a.account).head? = some a.code
        · refine Or.inr ⟨⟨hv, rfl⟩, hhead, ?_⟩
          rw [OtpDB.codes, htable]
          exact stack_take _ _ hhead
        · refine Or.inl ?_
          rw [OtpDB.codes, htable, take_of_ne _ _ hhead]
          rfl
      · refine Or.inl ?_
        rw [OtpDB.codes, htable]
        exact stack_take_ne _ _ hacc
    · exact Or.inl (by rw [serve_other otpDb hg hv])

/-! ## The newest code -/

/-- **The newest code stays on top** while nothing is generated for the account and the code is not
used. -/
theorem head?_codes_after {c : List UInt8} {middle : List Arrival}
    (htop : (otpDb.codes account).head? = some c)
    (hmiddle : ∀ m ∈ middle, ¬ m.Generates account ∧ ¬ (m.Verifies account ∧ m.code = c)) :
    ((after serve otpDb middle).codes account).head? = some c := by
  refine after_invariant (P := fun db => (OtpDB.codes db account).head? = some c)
    (fun db m hm hdb => ?_) htop hmiddle
  obtain hsame | ⟨hv, hhead, -⟩ := codes_serve db fun h => hm.1 h.1
  · rwa [hsame]
  · exact absurd ⟨hv, Option.some.inj (hhead.symm.trans hdb)⟩ hm.2

/-- **An issued code, and only that, is accepted until it is consumed or another is asked for.**
From the empty table, after any requests: if `g` issued `c` to the account and the requests since
neither ask for another code nor use `c`, then a VERIFY of the account succeeds exactly with `c`. -/
theorem verify_newest_iff {before middle : List Arrival} {g v : Arrival} {account : List UInt8}
    (hissue : Issues (after serve otpInit before) g account)
    (hmiddle : ∀ m ∈ middle, ¬ m.Generates account ∧
      ¬ (m.Verifies account ∧ m.code = replyCode (after serve otpInit before) g))
    (hv : v.Verifies account) :
    (serve (after serve otpInit (before ++ g :: middle)) v).1.status = 1 ↔
      v.code = replyCode (after serve otpInit before) g := by
  rw [verify_iff hv, after_append]
  change ((after serve (serve _ g).2 middle).codes account).head? = _ ↔ _
  rw [head?_codes_after (head?_codes_issue hissue) hmiddle, Option.some.injEq]
  exact eq_comm

/-- Account `A` is issued a code while `B` uses its own up. -/
theorem verify_newest_iff_interleaved :
    let request := fun (opCode : ℤ) (account : UInt8) (otp : List UInt8) (rand : ℕ) =>
      Arrival.ofService opCode (onto [account] fun _ => 0) (some (onto otp fun _ => 0))
        (fun _ => 0) rand 0
    let v := request 2 65 (decimal 100007) 0
    (serve (after serve otpInit
      ([request 1 66 [] 0] ++ request 1 65 [] 7 :: [request 2 66 (decimal 100000) 0])) v).1.status
        = 1 ↔
      v.code = replyCode (after serve otpInit [request 1 66 [] 0]) (request 1 65 [] 7) := by
  intro request v
  have hissue : Issues (after serve otpInit [request 1 66 [] 0]) (request 1 65 [] 7) [65] := by
    decide +kernel
  exact verify_newest_iff hissue (by decide +kernel) (by decide +kernel)

/-! ## A newer code ends the older one -/

/-- The codes issued to an account along a run. -/
def issued (account : List UInt8) : OtpDB → List Arrival → List (List UInt8)
  | _, [] => []
  | otpDb, a :: as =>
    (if Issues otpDb a account then [replyCode otpDb a] else []) ++
      issued account (serve otpDb a).2 as

theorem issued_append (account : List UInt8) (otpDb : OtpDB) (before later : List Arrival) :
    issued account otpDb (before ++ later) =
      issued account otpDb before ++ issued account (after serve otpDb before) later := by
  induction before generalizing otpDb with
  | nil => rfl
  | cons a as ih =>
    rw [List.cons_append, issued, issued, ih, List.append_assoc]
    rfl

/-- **No way back to an older code** along a run from the empty table: after a newer code was issued
to the account, a VERIFY with an older one, not issued again since, fails. -/
def Supersedes (account : List UInt8) (run : List Arrival) : Prop :=
  ∀ before middle v later, run = before ++ middle ++ v :: later → v.Verifies account →
    v.code ∈ issued account otpInit before →
    issued account (after serve otpInit before) middle ≠ [] →
    v.code ∉ issued account (after serve otpInit before) middle →
    (serve (after serve otpInit (before ++ middle)) v).1.status ≠ 1

/-- A GENERATE for the account does not pick a free slot while the account has an entry in use. -/
def FindsOwn (account : List UInt8) (otpDb : OtpDB) (a : Arrival) : Prop :=
  a.Generates account → (verifySlot otpDb a.req.account).isSome →
    ∀ i, generateSlot otpDb a.req.account = some i → (otpDb i).used = true

/-- At most one code, and if there is one it is the last of those issued. -/
def LastOnly (hist codes : List (List UInt8)) : Prop :=
  codes = [] ∨ ∃ c, codes = [c] ∧ hist.getLast? = some c

theorem updates_of_findsOwn (h : FindsOwn account otpDb a) (hg : a.Generates account) :
    Updates otpDb.table account := by
  obtain ⟨hop, rfl⟩ := hg
  intro i hi hne
  have hown : (verifySlot otpDb a.req.account).isSome := by
    rw [verifySlot_eq]
    have hhead := head?_stack otpDb.table a.account
    cases hs : slotOf otpDb.table a.account with
    | some _ => exact congrArg Option.isSome hs
    | none =>
      rw [hs] at hhead
      exact absurd (List.head?_eq_none_iff.mp hhead) hne
  have hused := h ⟨hop, rfl⟩ hown i ((generateSlot_eq otpDb _).trans hi)
  have hfits := fits_of_slotFor hi
  simp only [OtpDB.table, OtpEntry.held, hused, ↓reduceIte] at hfits ⊢
  exact hfits

/-- **One request keeps the last code the only one.** -/
theorem lastOnly_serve {hist : List (List UInt8)} (h : FindsOwn account otpDb a)
    (hl : LastOnly hist (otpDb.codes account)) :
    LastOnly (hist ++ if Issues otpDb a account then [replyCode otpDb a] else [])
      ((serve otpDb a).2.codes account) := by
  split
  · rename_i hi
    have htail : (otpDb.codes account).tail = [] := by
      obtain h0 | ⟨c, hc, -⟩ := hl
      · rw [h0]
        rfl
      · rw [hc]
        rfl
    refine Or.inr ⟨replyCode otpDb a, ?_, by simp⟩
    rw [codes_issue_of_updates hi (updates_of_findsOwn h hi.1), htail]
  · rename_i hi
    rw [List.append_nil]
    obtain hsame | ⟨-, -, hpop⟩ := codes_serve otpDb hi
    · rwa [hsame]
    · refine Or.inl ?_
      obtain h0 | ⟨c, hc, -⟩ := hl
      · rw [hpop, h0]
        rfl
      · rw [hpop, hc]
        rfl

theorem lastOnly_after {hist : List (List UInt8)} {run : List Arrival}
    (h : Along (FindsOwn account) serve otpDb run) (hl : LastOnly hist (otpDb.codes account)) :
    LastOnly (hist ++ issued account otpDb run) ((after serve otpDb run).codes account) := by
  induction run generalizing otpDb hist with
  | nil =>
    rw [issued, List.append_nil]
    exact hl
  | cons a as ih =>
    rw [issued, ← List.append_assoc]
    exact ih h.2 (lastOnly_serve h.1 hl)

/-- **While GENERATE finds the account's own entry, a newer code ends the older ones for good.** -/
theorem supersedes_of_findsOwn {account : List UInt8} {run : List Arrival}
    (h : Along (FindsOwn account) serve otpInit run) : Supersedes account run := by
  rintro before middle v later rfl hv - hnew hnot hst
  have hrun := (along_append.mp h).1
  have hlast : LastOnly ([] ++ issued account otpInit (before ++ middle))
      ((after serve otpInit (before ++ middle)).codes account) :=
    lastOnly_after hrun (Or.inl (codes_init account))
  rw [List.nil_append, issued_append] at hlast
  rw [verify_iff hv] at hst
  obtain h0 | ⟨c, hc, hgl⟩ := hlast
  · rw [h0] at hst
    exact absurd hst (Option.some_ne_none _).symm
  · rw [hc] at hst
    obtain rfl := Option.some.inj hst
    rw [List.getLast?_append_of_ne_nil _ hnew] at hgl
    exact hnot (List.mem_of_getLast? hgl)

/-- `A` is issued a code twice and the first is tried again. -/
theorem supersedes_of_findsOwn_twice :
    let generate := fun (rand : ℕ) =>
      Arrival.ofService 1 (onto [65] fun _ => 0) none (fun _ => 0) rand 0
    let verify := Arrival.ofService 2 (onto [65] fun _ => 0)
      (some (onto (decimal 100000) fun _ => 0)) (fun _ => 0) 0 0
    Supersedes [65] [generate 0, generate 1, verify] := by
  intro generate verify
  refine supersedes_of_findsOwn ⟨fun _ hown => ?_, fun _ _ i hi => ?_, fun hg => ?_, trivial⟩
  · exact absurd hown (by decide +kernel)
  · have hslot : generateSlot (serve otpInit (generate 0)).2 (generate 1).req.account =
        some ⟨0, by decide⟩ := by decide +kernel
    obtain rfl := Option.some.inj (hslot.symm.trans hi)
    decide +kernel
  · exact absurd hg.1 (by decide)

/-- `B` frees a slot below the entry of `A`; the next code of `A` goes there, is consumed, and the
older one is accepted after it. -/
theorem not_supersedes :
    let request := fun (opCode : ℤ) (account : UInt8) (otp : List UInt8) (rand : ℕ) =>
      Arrival.ofService opCode (onto [account] fun _ => 0) (some (onto otp fun _ => 0))
        (fun _ => 0) rand 0
    ¬ Supersedes [65]
      ([request 1 66 [] 0, request 1 65 [] 1] ++
        [request 2 66 (decimal 100000) 0, request 1 65 [] 2, request 2 65 (decimal 100002) 0] ++
        [request 2 65 (decimal 100001) 0]) := by
  intro request h
  exact h _ _ _ _ rfl (by decide +kernel) (by decide +kernel) (by decide +kernel)
    (by decide +kernel) (by decide +kernel)

end BankingSystem
