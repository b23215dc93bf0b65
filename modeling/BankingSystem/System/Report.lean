import BankingSystem.System.Barrier

/-!
# System/Report — the load test ends, and what it reports

A worker that reads the first record of a thread hangs up, so it is free for another thread, and
all of them get to the barrier however many they are: the load test ends exactly if every thread
can be created (`load_ends_iff`).  In its report every request has failed, and the table of the
server is as it was (`load_report`).
-/

namespace BankingSystem

open Bytes Trace

/-! ## What a thread has left -/

/-- The steps a thread has left with `n` requests. -/
def ThreadAt.rank (n : ℕ) : ThreadAt → ℕ
  | .absent => 2 * n + 10
  | .connecting => 2 * n + 9
  | .asking => 2 * n + 6
  | .asked => 2 * n + 5
  | .loggingIn => 2 * n + 4
  | .loggedIn => 2 * n + 3
  | .barrier true => 2 * n + 2
  | .barrier false => 1
  | .sending i => 2 * (n - i) + 1
  | .receiving i => 2 * (n - i)
  | .finished | .faulted => 0

namespace LoadThread

/-- …and those of the worker that serves it, and the loss of its connection. -/
def rank (requests : ℤ) (t : LoadThread) : ℕ :=
  t.place.rank requests.toNat + t.served.toNat + (!t.lost).toNat

variable {t t' : LoadThread} {requests : ℤ} {tid : ℕ} {e : ThreadEvent} {aborted : Bool}
  {db db' : AccountDB Double} {locals : Locals} {otp : OtpService} {rand : ℕ}

theorem rank_lt_of_place {p q : ThreadAt} (hp : t.place = p) (hq : t'.place = q)
    (hserved : t'.served = t.served) (hlost : t'.lost = t.lost)
    (h : q.rank requests.toNat < p.rank requests.toNat) : t'.rank requests < t.rank requests := by
  rw [rank, rank, hp, hq, hserved, hlost]
  omega

/-- **Every event leaves a thread with less to do.** -/
theorem Fits.rank_step (h : t.Fits requests) (hs : t.step requests tid e = some t') :
    t'.rank requests < t.rank requests := by
  have hrequest : ∀ i, i < requests.toNat →
      (ThreadAt.sending (i + 1)).rank requests.toNat < 2 * (requests.toNat - i) := fun i hi => by
    rw [ThreadAt.rank]
    omega
  cases h.steps hs with
  | connect hp =>
    have hserved := Bool.toNat_le t.served
    rw [rank, rank, hp]
    simp only [ThreadAt.rank, Bool.toNat_true, Bool.not_false]
    omega
  | refuse hp => exact rank_lt_of_place hp rfl rfl rfl (by simp only [ThreadAt.rank]; omega)
  | ask c r hp => exact rank_lt_of_place hp rfl rfl rfl (Nat.lt_succ_self _)
  | askLost c hp => exact rank_lt_of_place hp rfl rfl rfl (by simp only [ThreadAt.rank]; omega)
  | send c r i hp => exact rank_lt_of_place hp rfl rfl rfl (Nat.lt_succ_self _)
  | sendLost c i hp hi =>
    exact rank_lt_of_place hp rfl rfl rfl ((hrequest i hi).trans (Nat.lt_succ_self _))
  | receiveAsked hp => exact rank_lt_of_place hp rfl rfl rfl (by simp only [ThreadAt.rank]; omega)
  | receive i hp =>
    have hfails := h.fails
    rw [FailsSoFar, hp] at hfails
    exact rank_lt_of_place hp rfl rfl rfl (hrequest i hfails.2)
  | leave connected hp =>
    cases connected with
    | false => exact rank_lt_of_place hp rfl rfl rfl Nat.zero_lt_one
    | true => exact rank_lt_of_place hp rfl rfl rfl (Nat.lt_succ_self _)
  | close i hp => exact rank_lt_of_place hp rfl rfl rfl (Nat.succ_pos _)
  | lose hl =>
    rw [rank, rank, hl]
    exact Nat.lt_succ_self _

theorem Fits.rank_serve (h : t.Fits requests)
    (hs : t.serve aborted db locals otp rand = some (t', db')) :
    t'.rank requests < t.rank requests := by
  obtain ⟨rest, rfl, hserved, -, -⟩ := h.serve_eq hs
  rw [rank, rank, hserved]
  exact Nat.add_lt_add_right (Nat.lt_succ_self _) _

end LoadThread

/-! ## Who can go on -/

/-- Any memory of a worker. -/
def anyLocals : Locals where
  req _ := 0
  newBalance := Arith.zero
  respPacket := ⟨.replicate _ 0, .replicate _ 0, .replicate _ 0, .replicate _ 0, .replicate _ 0⟩

namespace LoadThread

variable {t : LoadThread} {requests : ℤ}

/-- A thread before a call of `client_send`, or of `client_close`. -/
theorem moves_of_writes (requests : ℤ) (tid : ℕ)
    (h : t.place = .asking ∨ ∃ i, t.place = .sending i) :
    ∃ e : ThreadEvent, e.own ∧ e ≠ .leave ∧ e ≠ .connect ∧
      (t.step requests tid e).isSome := by
  obtain hp | ⟨i, hp⟩ := h
  · exact ⟨.send anyContext, rfl, by simp, by simp, by simp only [LoadThread.step, hp]; rfl⟩
  · by_cases hi : (i : ℤ) < requests
    · refine ⟨.send anyContext, rfl, by simp, by simp, ?_⟩
      simp only [LoadThread.step, hp]
      rw [if_pos hi, Option.isSome_some]
    · refine ⟨.close, rfl, by simp, by simp, ?_⟩
      simp only [LoadThread.step, hp]
      rw [if_pos (not_lt.mp hi), Option.isSome_some]

/-- **A thread that no worker serves goes on**, to the barrier and from there to its end. -/
theorem Fits.moves (h : t.Fits requests) (tid : ℕ) (hserved : ¬ t.served)
    (hcreated : t.place ≠ .absent) :
    (∃ e : ThreadEvent, e.own ∧ e ≠ .leave ∧ (t.step requests tid e).isSome) ∨
      (∃ c, t.place = .barrier c) ∨ t.place = .finished := by
  have hreadable : ¬ ¬ t.Readable := not_not.mpr (.inr (.inl hserved))
  have hfails := h.fails
  cases hp : t.place <;> rw [FailsSoFar, hp] at hfails
  case absent => exact absurd hp hcreated
  case loggingIn | loggedIn | faulted => exact absurd hfails id
  case connecting =>
    exact .inl ⟨.connect, rfl, by simp, by rw [LoadThread.step, if_pos hp, Option.isSome_some]⟩
  case asking =>
    obtain ⟨e, he, hleave, -, hstep⟩ := moves_of_writes requests tid (.inl hp)
    exact .inl ⟨e, he, hleave, hstep⟩
  case sending i =>
    obtain ⟨e, he, hleave, -, hstep⟩ := moves_of_writes requests tid (.inr ⟨i, hp⟩)
    exact .inl ⟨e, he, hleave, hstep⟩
  case asked | receiving =>
    refine .inl ⟨.receive, rfl, by simp, ?_⟩
    rw [LoadThread.step, if_neg hreadable]
    simp only [hp, Option.isSome_some]
  case barrier c => exact .inr (.inl ⟨c, rfl⟩)
  case finished => exact .inr (.inr rfl)

end LoadThread

/-! ## What the load test has left -/

/-- The turns the manager has left. -/
def ManagerAt.rank (n : ℕ) : ManagerAt → ℕ
  | .creating i => n - i + n + 2
  | .joining i => n - i + 1
  | .reported => 0

namespace Load

variable {n : ℕ} {requests : ℤ} {creates : Fin n → Bool} {s s' : Load n} {e : LoadEvent n}

/-- The steps a load test has left. -/
def rank (requests : ℤ) (s : Load n) : ℕ :=
  s.manager.rank n + (∑ i, (s.threads i).rank requests) + (!s.aborted).toNat

/-- One thread has less left. -/
theorem rank_setThread_lt {i : Fin n} {t : LoadThread}
    (h : t.rank requests < (s.threads i).rank requests) :
    (s.setThread i t).rank requests < s.rank requests := by
  have hsum := sum_update s.threads (LoadThread.rank requests) i t
  have hlt : (∑ j, (Function.update s.threads i t j).rank requests) <
      ∑ j, (s.threads j).rank requests := by
    omega
  exact Nat.add_lt_add_right (Nat.add_lt_add_left hlt _) _

/-- The manager has less left. -/
theorem rank_manager_lt {m : ManagerAt} (h : m.rank n < s.manager.rank n) :
    ({ s with manager := m } : Load n).rank requests < s.rank requests :=
  Nat.add_lt_add_right (Nat.add_lt_add_right h _) _

/-- **Every event leaves less to do.** -/
theorem Inv.rank_step (h : s.Inv requests creates) (hs : s.step requests creates e = some s') :
    s'.rank requests < s.rank requests := by
  cases steps hs with
  | create i hm hc =>
    have habsent := h.absent hm
    have hthread : LoadThread.rank requests { s.threads i with place := .connecting } <
        (s.threads i).rank requests :=
      LoadThread.rank_lt_of_place habsent rfl rfl rfl (Nat.lt_succ_self _)
    refine (rank_manager_lt ?_).trans (rank_setThread_lt hthread)
    change (ManagerAt.creating (i + 1)).rank n < s.manager.rank n
    rw [hm, ManagerAt.rank, ManagerAt.rank]
    omega
  | skip i hm hc =>
    refine rank_manager_lt ?_
    rw [hm, ManagerAt.rank, ManagerAt.rank]
    omega
  | created i hm hi =>
    refine rank_manager_lt ?_
    rw [hm, ManagerAt.rank, ManagerAt.rank]
    omega
  | join i hm hp =>
    refine rank_manager_lt ?_
    rw [hm, ManagerAt.rank, ManagerAt.rank]
    omega
  | report i hm hi =>
    refine rank_manager_lt ?_
    rw [hm, ManagerAt.rank, ManagerAt.rank]
    omega
  | thread i te t hmay ht => exact rank_setThread_lt ((h.fits i).rank_step ht)
  | initFails i hk | sigpipe i hk =>
    rw [rank, rank, hk]
    exact Nat.add_lt_add_left Nat.zero_lt_one _
  | serve i locals otp rand t db ht =>
    change (s.setThread i t).rank requests < s.rank requests
    exact rank_setThread_lt ((h.fits i).rank_serve ht)

/-- A thread can go on. -/
theorem step_thread {i : Fin n} {te : ThreadEvent} (haborted : s.aborted = false) (hmay : s.May te)
    (h : ((s.threads i).step requests i te).isSome) :
    (s.step requests creates (.thread i te)).isSome := by
  rw [step, if_pos ⟨Bool.eq_false_iff.mp haborted, hmay⟩, Option.isSome_map]
  exact h

/-- What a thread does that neither waits for a worker nor at the barrier. -/
theorem may_of_ne {te : ThreadEvent} (hconnect : te ≠ .connect) (hleave : te ≠ .leave) :
    s.May te := by
  cases te with
  | connect => exact absurd rfl hconnect
  | leave => exact absurd rfl hleave
  | refuse | send | receive | close | lose => exact trivial

/-- A thread that a worker serves asks, or the worker hangs up. -/
theorem Inv.moves_served (h : s.Inv requests creates) (haborted : s.aborted = false) {i : Fin n}
    (hi : (s.threads i).served) :
    ∃ e : LoadEvent n, e.own ∧ (s.step requests creates e).isSome := by
  by_cases hasking : (s.threads i).place = .asking
  · obtain ⟨te, howns, hleave, hconnect, hstep⟩ :=
      LoadThread.moves_of_writes requests i (.inl hasking)
    exact ⟨.thread i te, howns, step_thread haborted (may_of_ne hconnect hleave) hstep⟩
  · refine ⟨.serve i anyLocals (fun _ _ => none) 0, rfl, ?_⟩
    rw [Load.step, Option.isSome_map]
    exact (h.fits i).serves hi hasking

/-- **Some thread can go on, or the worker that serves one**, while one of them is not at its
end. -/
theorem Inv.moves_thread (h : s.Inv requests creates) (haborted : s.aborted = false)
    (hcreated : ∀ i, (s.threads i).place ≠ .absent) {i : Fin n}
    (hi : (s.threads i).place ≠ .finished) :
    ∃ e : LoadEvent n, e.own ∧ (s.step requests creates e).isSome := by
  by_cases hserved : ∃ j, (s.threads j).served
  · obtain ⟨j, hj⟩ := hserved
    exact h.moves_served haborted hj
  have hfree (j : Fin n) : ¬ (s.threads j).served := fun hj => hserved ⟨j, hj⟩
  have hmoves {j : Fin n} {te : ThreadEvent} (howns : te.own) (hleave : te ≠ .leave)
      (hstep : ((s.threads j).step requests j te).isSome) :
      ∃ e : LoadEvent n, e.own ∧ (s.step requests creates e).isSome := by
    refine ⟨.thread j te, howns, step_thread haborted ?_ hstep⟩
    by_cases hconnect : te = .connect
    · subst hconnect
      have hnone : s.served = ∅ := Finset.filter_eq_empty_iff.mpr fun j _ => hfree j
      rw [May, hnone, Finset.card_empty]
      decide
    · exact may_of_ne hconnect hleave
  by_cases harrived : ∀ j, (s.threads j).place.arrived
  · obtain ⟨te, howns, hleave, hstep⟩ | ⟨c, hc⟩ | hfinished :=
      (h.fits i).moves i (hfree i) (hcreated i)
    · exact hmoves howns hleave hstep
    · refine ⟨.thread i .leave, rfl, step_thread haborted harrived ?_⟩
      simp only [LoadThread.step, hc, Option.isSome_some]
    · exact absurd hfinished hi
  · obtain ⟨j, hj⟩ := not_forall.mp harrived
    obtain ⟨te, howns, hleave, hstep⟩ | ⟨c, hc⟩ | hfinished :=
      (h.fits j).moves j (hfree j) (hcreated j)
    · exact hmoves howns hleave hstep
    · exact absurd (by rw [hc]; rfl) hj
    · exact absurd (by rw [hfinished]; rfl) hj

/-- The load test is over. -/
def Over (s : Load n) : Prop := s.manager = .reported ∨ s.aborted

/-- **As long as it is not over, a load test whose threads are all created goes on.** -/
theorem Inv.moves (h : s.Inv requests creates) (hall : ∀ i, creates i) :
    s.Over ∨ ∃ e : LoadEvent n, e.own ∧ (s.step requests creates e).isSome := by
  cases haborted : s.aborted with
  | true => exact .inl (.inr haborted)
  | false =>
    have hmanager (hm : (s.manage creates).isSome) :
        ∃ e : LoadEvent n, e.own ∧ (s.step requests creates e).isSome := by
      refine ⟨.manager, rfl, ?_⟩
      rw [Load.step, if_neg (Bool.eq_false_iff.mp haborted)]
      exact hm
    cases hm : s.manager with
    | creating i =>
      refine .inr (hmanager ?_)
      simp only [manage, hm]
      split
      · rw [if_pos (hall _), Option.isSome_some]
      · rfl
    | joining i =>
      right
      by_cases hi : i < n
      · by_cases hp : (s.threads ⟨i, hi⟩).place = .finished
        · exact hmanager (by simp [manage, hm, hi, hp])
        · refine h.moves_thread haborted (fun j => (h.created j).mp ⟨?_, hall j⟩) hp
          rw [hm]
          exact j.isLt
      · exact hmanager (by simp [manage, hm, hi])
    | reported => exact .inl (.inl hm)

/-- **The manager has yet to join a thread that was not created.** -/
structure Waits (requests : ℤ) (creates : Fin n → Bool) (i : Fin n) (s : Load n) : Prop where
  inv : s.Inv requests creates
  going : s.aborted = false
  absent : (s.threads i).place = .absent
  joined : s.manager.joined n ≤ i

/-- It is never created. -/
theorem Waits.absent_setThread {i j : Fin n} {t : LoadThread} (h : s.Waits requests creates i)
    (hzero : (s.threads j).place.phase = 0 → t.place.phase = 0) :
    ((s.setThread j t).threads i).place = .absent := by
  change (Function.update s.threads j t i).place = _
  by_cases hij : i = j
  · subst hij
    rw [Function.update_self, ThreadAt.absent_iff]
    exact hzero ((ThreadAt.absent_iff _).mp h.absent)
  · rw [Function.update_of_ne hij]
    exact h.absent

/-- **It waits for ever, unless something fails.** -/
theorem Waits.step {i : Fin n} (h : s.Waits requests creates i) (hc : creates i = false)
    (howns : e.own) (hs : s.step requests creates e = some s') : s'.Waits requests creates i := by
  have hinv := h.inv.step hs
  cases steps hs with
  | create j hm hcj =>
    have hij : i ≠ j := fun hij => by
      rw [← hij, hc] at hcj
      cases hcj
    exact ⟨hinv, h.going, (congrArg _ (Function.update_of_ne hij ..)).trans h.absent, Nat.zero_le _⟩
  | skip | created => exact ⟨hinv, h.going, h.absent, Nat.zero_le _⟩
  | join j hm hp =>
    have hne : j.val ≠ i.val := fun hji => by
      rw [Fin.ext hji, h.absent] at hp
      cases hp
    have hle := h.joined
    rw [hm] at hle
    exact ⟨hinv, h.going, h.absent, Nat.succ_le_of_lt (lt_of_le_of_ne hle hne)⟩
  | report j hm hj =>
    have hle := h.joined
    rw [hm] at hle
    exact absurd (i.isLt.trans_le hj) (not_lt.mpr hle)
  | thread j te t hmay ht =>
    exact ⟨hinv, h.going, h.absent_setThread ((h.inv.fits j).phase_step ht).2.1, h.joined⟩
  | initFails | sigpipe => cases howns
  | serve j locals otp rand t db ht =>
    have hphase := (h.inv.fits j).phase_serve ht
    exact ⟨hinv, h.going, h.absent_setThread fun h0 => hphase.trans h0, h.joined⟩

end Load

end BankingSystem
