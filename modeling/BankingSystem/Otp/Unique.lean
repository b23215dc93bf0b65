import BankingSystem.Otp.Codes

/-!
# Otp/Unique — one entry for each account, as long as GENERATE finds it

GENERATE tries "free slot" and "my old slot" in one scan.  It keeps one entry for each account just
in case the scan meets the account's own entry before a free slot (`distinct_iff_findsOwn`), and
then a refusal means that a hundred other accounts each hold a code.  With a slot freed below its
entry, an account gets a second one (`not_distinct`).
-/

namespace BankingSystem

open CString FirstFit Machine

/-- **No two entries in use have the same account.** -/
def OtpDB.Distinct (otpDb : OtpDB) : Prop :=
  ∀ i j, (otpDb i).used = true → (otpDb j).used = true →
    (otpDb i).account.text = (otpDb j).account.text → i = j

/-- A GENERATE is refused only when `MAX_OTPS` other accounts each have a code. -/
def OtpDB.RefusesWhenFull (otpDb : OtpDB) : Prop :=
  ∀ a : Arrival, a.req.opCode = otpOpGenerate → (serve otpDb a).1.status = 0 →
    ∃ accounts : Finset (List UInt8), accounts.card = maxOtps ∧ a.account ∉ accounts ∧
      ∀ b ∈ accounts, otpDb.codes b ≠ []

variable {otpDb : OtpDB}

theorem owned_table (i : Fin maxOtps) (account : List UInt8) :
    owned account (otpDb.table i) = true ↔
      (otpDb i).used = true ∧ (otpDb i).account.text = account := by
  simp only [OtpDB.table, OtpEntry.held]
  split
  · rename_i hu
    simp [hu]
  · rename_i hu
    simp [hu]

theorem distinct_table : FirstFit.Distinct otpDb.table ↔ otpDb.Distinct := by
  constructor
  · intro hd i j hi hj hij
    exact hd (otpDb j).account.text i j ((owned_table i _).mpr ⟨hi, hij⟩)
      ((owned_table j _).mpr ⟨hj, rfl⟩)
  · intro hd account i j hi hj
    obtain ⟨hi, hacc⟩ := (owned_table i account).mp hi
    obtain ⟨hj, hacc'⟩ := (owned_table j account).mp hj
    exact hd i j hi hj (hacc.trans hacc'.symm)

/-- A refusal under a table with one entry for each account. -/
theorem OtpDB.Distinct.refusesWhenFull (hd : otpDb.Distinct) : otpDb.RefusesWhenFull := by
  intro a hg hst
  cases hi : generateSlot otpDb a.req.account with
  | some i =>
    obtain ⟨e, -, -, -, -, hone, -⟩ := serve_issue hg hi
    exact absurd (hst.symm.trans hone) zero_ne_one
  | none => exact full_of_slotFor (distinct_table.mpr hd) ((generateSlot_eq otpDb _).symm.trans hi)

/-- For a GENERATE, finding the own entry is updating it. -/
theorem findsOwn_iff_updates {a : Arrival} (hg : a.req.opCode = otpOpGenerate) :
    FindsOwn a.account otpDb a ↔ Updates otpDb.table a.account := by
  refine ⟨fun h => updates_of_findsOwn h ⟨hg, rfl⟩, fun h _ hsome i hi => ?_⟩
  obtain ⟨j, hj⟩ := Option.isSome_iff_exists.mp hsome
  rw [verifySlot_eq] at hj
  rw [generateSlot_eq] at hi
  exact ((owned_table i a.account).mp (h i hi (stack_ne_nil (owned_of_slotOf hj)))).1

/-- **One request keeps one entry for each account** just in case its GENERATE finds its own. -/
theorem distinct_serve (otpDb : OtpDB) (a : Arrival) (hd : otpDb.Distinct) :
    OtpDB.Distinct (serve otpDb a).2 ↔ FindsOwn a.account otpDb a := by
  by_cases hg : a.req.opCode = otpOpGenerate
  · rw [← distinct_table, findsOwn_iff_updates hg]
    obtain ⟨-, -, hput⟩ | ⟨hst, hsame⟩ := serve_generate otpDb hg
    · exact distinct_put_iff (distinct_table.mpr hd) hput
    · rw [hsame]
      refine iff_of_true (distinct_table.mpr hd) fun i hi => ?_
      obtain ⟨e, -, -, -, -, hone, -⟩ := serve_issue hg ((generateSlot_eq otpDb _).trans hi)
      exact absurd (hst.symm.trans hone) zero_ne_one
  · refine iff_of_true ?_ fun h => absurd h.1 hg
    rw [← distinct_table]
    by_cases hv : a.req.opCode = otpOpVerify
    · rw [(serve_verify otpDb hv).2]
      exact (distinct_table.mpr hd).take _ _
    · rw [serve_other otpDb hg hv]
      exact distinct_table.mpr hd

theorem distinct_init : OtpDB.Distinct otpInit :=
  fun _ _ h => absurd h Bool.false_ne_true

/-- **At every point of a run there is one entry for each account, and refusals mean that the table
is full of others, just in case every GENERATE finds its account's own entry.** -/
theorem distinct_iff_findsOwn (run : List Arrival) :
    (∀ before later, run = before ++ later →
      OtpDB.Distinct (after serve otpInit before) ∧
        OtpDB.RefusesWhenFull (after serve otpInit before)) ↔
      Along (fun otpDb a => FindsOwn a.account otpDb a) serve otpInit run := by
  rw [along_iff_invariant distinct_serve distinct_init]
  refine ⟨fun h before later hrun => (h before later hrun).1, fun h before later hrun => ?_⟩
  have hd := h before later hrun
  exact ⟨hd, hd.refusesWhenFull⟩

/-- `B` frees a slot below the entry of `A`, and the next GENERATE of `A` gives it a second one. -/
theorem not_distinct :
    let request := fun (opCode : ℤ) (account : UInt8) (otp : List UInt8) (rand : ℕ) =>
      Arrival.ofService opCode (onto [account] fun _ => 0) (some (onto otp fun _ => 0))
        (fun _ => 0) rand 0
    ¬ OtpDB.Distinct (after serve otpInit [request 1 66 [] 0, request 1 65 [] 1,
      request 2 66 (decimal 100000) 0, request 1 65 [] 2]) := by
  intro request h
  exact absurd (h ⟨0, by decide⟩ ⟨1, by decide⟩ (by decide +kernel) (by decide +kernel)
    (by decide +kernel)) (by decide)

end BankingSystem
