import BankingSystem.System.Load

/-!
# System/Barrier — the threads of the load test wait for each other

A thread goes through `worker_routine` without ever going back (`ThreadAt.phase`), and nobody leaves
the barrier before all have come to it.  So no thread sends a request of its loop before that
(`load_together`).  What holds of a load test at every point of a run is `Load.Inv`.
-/

namespace BankingSystem

open Bytes Trace

/-! ## The order of a thread -/

/-- The part of `worker_routine` a thread is in: not begun, before the barrier, at it, behind it, at
its end. -/
def ThreadAt.phase : ThreadAt → ℕ
  | .absent => 0
  | .connecting | .asking | .asked | .loggingIn | .loggedIn | .faulted => 1
  | .barrier _ => 2
  | .sending _ | .receiving _ => 3
  | .finished => 4

theorem ThreadAt.absent_iff (p : ThreadAt) : p = .absent ↔ p.phase = 0 := by
  cases p <;> simp [phase]

theorem ThreadAt.arrived_iff (p : ThreadAt) : p.arrived ↔ 2 ≤ p.phase := by
  cases p <;> simp [arrived, phase]

theorem ThreadAt.finished_iff (p : ThreadAt) : p = .finished ↔ 4 ≤ p.phase := by
  cases p <;> simp [phase]

namespace LoadThread

variable {t t' : LoadThread} {requests : ℤ} {tid : ℕ} {e : ThreadEvent} {aborted : Bool}
  {db db' : AccountDB Double} {locals : Locals} {otp : OtpService} {rand : ℕ}

/-- **A thread never goes back**, does not begin by itself, and passes the barrier only by leaving
it. -/
theorem Fits.phase_step (h : t.Fits requests) (hs : t.step requests tid e = some t') :
    t.place.phase ≤ t'.place.phase ∧ (t.place.phase = 0 → t'.place.phase = 0) ∧
      (3 ≤ t'.place.phase → 3 ≤ t.place.phase ∨ e = .leave) := by
  cases h.steps hs with
  | lose => exact ⟨le_rfl, id, .inl⟩
  | leave connected hp => rw [hp]; cases connected <;> simp [ThreadAt.phase]
  | connect hp | refuse hp | askLost _ hp | receiveAsked hp => simp [hp, ThreadAt.phase]
  | ask c r hp => simp [hp, ThreadAt.phase]
  | send c r i hp => simp [hp, ThreadAt.phase]
  | sendLost c i hp => simp [LoadThread.failed, hp, ThreadAt.phase]
  | receive i hp => simp [LoadThread.failed, hp, ThreadAt.phase]
  | close i hp => simp [hp, ThreadAt.phase]

theorem Fits.phase_serve (h : t.Fits requests)
    (hs : t.serve aborted db locals otp rand = some (t', db')) :
    t'.place.phase = t.place.phase := by
  obtain ⟨rest, rfl, -⟩ := h.serve_eq hs
  rfl

end LoadThread

/-! ## All threads -/

/-- The threads before this one are created. -/
def ManagerAt.created (n : ℕ) : ManagerAt → ℕ
  | .creating i => i
  | .joining _ | .reported => n

/-- The threads before this one are joined. -/
def ManagerAt.joined (n : ℕ) : ManagerAt → ℕ
  | .creating _ => 0
  | .joining i => i
  | .reported => n

namespace Load

variable {n : ℕ} {requests : ℤ} {creates : Fin n → Bool} {s s' : Load n} {e : LoadEvent n}

/-- **The state of a load test that gets no response.** -/
structure Inv (requests : ℤ) (creates : Fin n → Bool) (s : Load n) : Prop where
  fits : ∀ i, (s.threads i).Fits requests
  created : ∀ i, i.val < s.manager.created n ∧ creates i ↔ (s.threads i).place ≠ .absent
  joined : ∀ i, i.val < s.manager.joined n → (s.threads i).place = .finished
  together : ∀ i, 3 ≤ (s.threads i).place.phase → ∀ j, 2 ≤ (s.threads j).place.phase

theorem inv_start (memory : Fin n → Block protocolHeaderSize × Block maxDataSize)
    (db : AccountDB Double) : (start memory db).Inv requests creates where
  fits _ := ⟨rfl, fun _ hr => absurd hr List.not_mem_nil, nofun, rfl, rfl⟩
  created _ := iff_of_false (fun h => Nat.not_lt_zero _ h.1) fun h => h rfl
  joined _ h := absurd h (Nat.not_lt_zero _)
  together _ h := absurd h (Nat.not_succ_le_zero 2)

/-- What holds of the thread that changes and of all others holds of all. -/
theorem forall_setThread {P : Fin n → LoadThread → Prop} {i : Fin n} {t : LoadThread} (hi : P i t)
    (h : ∀ j, j ≠ i → P j (s.threads j)) (j : Fin n) : P j ((s.setThread i t).threads j) := by
  change P j (Function.update s.threads i t j)
  by_cases hj : j = i
  · subst hj
    rwa [Function.update_self]
  · rw [Function.update_of_ne hj]
    exact h j hj

/-- One thread goes on. -/
theorem Inv.setThread (h : s.Inv requests creates) {i : Fin n} {t : LoadThread}
    (hfits : t.Fits requests)
    (hle : (s.threads i).place.phase ≤ t.place.phase)
    (hzero : (s.threads i).place.phase = 0 → t.place.phase = 0)
    (htogether : 3 ≤ t.place.phase → ∀ j, 2 ≤ (s.threads j).place.phase) :
    (s.setThread i t).Inv requests creates where
  fits := forall_setThread hfits fun j _ => h.fits j
  created := forall_setThread
    (P := fun j t => j.val < s.manager.created n ∧ creates j ↔ t.place ≠ .absent)
    ((h.created i).trans (by rw [Ne, Ne, ThreadAt.absent_iff, ThreadAt.absent_iff]; omega))
    fun j _ => h.created j
  joined := forall_setThread (P := fun j t => j.val < s.manager.joined n → t.place = .finished)
    (fun hj => by
      have hfour := (ThreadAt.finished_iff _).mp (h.joined i hj)
      exact (ThreadAt.finished_iff _).mpr (hfour.trans hle))
    fun j _ => h.joined j
  together i' h3 := by
    have hall : ∀ j, 2 ≤ (s.threads j).place.phase := by
      revert i'
      exact forall_setThread
        (P := fun _ t => 3 ≤ t.place.phase → ∀ j, 2 ≤ (s.threads j).place.phase) htogether
        fun j _ => h.together j
    exact forall_setThread (P := fun _ t => 2 ≤ t.place.phase) ((hall i).trans hle)
      fun j _ => hall j

/-- The manager goes on. -/
theorem Inv.manager (h : s.Inv requests creates) {m : ManagerAt}
    (hcreated : m.created n = s.manager.created n ∨
      ∀ i : Fin n, m.created n = n ∧ i.val < s.manager.created n)
    (hjoined : ∀ i : Fin n, i.val < m.joined n → (s.threads i).place = .finished) :
    ({ s with manager := m } : Load n).Inv requests creates where
  fits := h.fits
  created i := by
    rw [← h.created i]
    refine and_congr_left' ?_
    obtain heq | hall := hcreated
    · exact iff_of_eq (congrArg (i.val < ·) heq)
    · exact iff_of_true (i.isLt.trans_eq (hall i).1.symm) (hall i).2
  joined := hjoined
  together := h.together

/-- The thread whose turn it is has not been created. -/
theorem Inv.absent (h : s.Inv requests creates) {i : Fin n} (hm : s.manager = .creating i) :
    (s.threads i).place = .absent := by
  have hcreated := h.created i
  rw [hm] at hcreated
  exact not_not.mp fun hne => lt_irrefl _ (hcreated.mpr hne).1

/-- What is created once it was the turn of one thread more. -/
theorem Inv.created_succ (h : s.Inv requests creates) {i j : Fin n}
    (hm : s.manager = .creating i) (hj : j ≠ i) :
    j.val < i + 1 ∧ creates j ↔ (s.threads j).place ≠ .absent := by
  rw [← h.created j, hm]
  exact and_congr_left' (Nat.lt_succ_iff.trans
    ⟨fun hle => hle.lt_of_ne fun heq => hj (Fin.ext heq), Nat.le_of_lt⟩)

/-- A thread is created. -/
theorem Inv.create (h : s.Inv requests creates) {i : Fin n} (hm : s.manager = .creating i)
    (hc : creates i) :
    ({ s.setThread i { s.threads i with place := .connecting } with
      manager := .creating (i + 1) } : Load n).Inv requests creates := by
  have habsent := h.absent hm
  have hfits : LoadThread.Fits requests { s.threads i with place := .connecting } := by
    have hfails := (h.fits i).fails
    rw [LoadThread.FailsSoFar, habsent] at hfails
    refine ⟨(h.fits i).unanswered, (h.fits i).short, fun hserved => ?_, (h.fits i).success, hfails⟩
    exact .inr (.inr ((h.fits i).reads (by simp [habsent]) (by simp [habsent]) hserved))
  have hearly : ∀ j, ¬ 3 ≤ (s.threads j).place.phase := fun j h3 => by
    have htwo := h.together j h3 i
    rw [habsent] at htwo
    exact absurd htwo (by decide)
  have hconnecting : ¬ 3 ≤ ThreadAt.connecting.phase := by decide
  refine ⟨forall_setThread hfits fun j _ => h.fits j,
    forall_setThread (P := fun j t => j.val < i + 1 ∧ creates j ↔ t.place ≠ .absent)
      (iff_of_true ⟨Nat.lt_succ_self _, hc⟩ (by simp)) fun j hj => h.created_succ hm hj,
    fun _ hj => absurd hj (Nat.not_lt_zero _), fun j h3 => absurd h3 ?_⟩
  exact forall_setThread (P := fun _ t => ¬ 3 ≤ t.place.phase) hconnecting (fun j _ => hearly j) j

/-- A thread is not created. -/
theorem Inv.skip (h : s.Inv requests creates) {i : Fin n} (hm : s.manager = .creating i)
    (hc : creates i = false) :
    ({ s with manager := .creating (i + 1) } : Load n).Inv requests creates where
  fits := h.fits
  created j := by
    by_cases hj : j = i
    · subst hj
      refine iff_of_false (fun hcreated => ?_) (not_not.mpr (h.absent hm))
      rw [hc] at hcreated
      cases hcreated.2
    · exact h.created_succ hm hj
  joined _ hj := absurd hj (Nat.not_lt_zero _)
  together := h.together

theorem Inv.step (h : s.Inv requests creates) (hs : s.step requests creates e = some s') :
    s'.Inv requests creates := by
  cases steps hs with
  | create i hm hc => exact h.create hm hc
  | skip i hm hc => exact h.skip hm hc
  | created i hm hi =>
    refine h.manager (.inr fun j => ⟨rfl, ?_⟩) fun _ hj => absurd hj (Nat.not_lt_zero _)
    rw [hm]
    exact j.isLt.trans_le hi
  | join i hm hp =>
    refine h.manager (.inl (by rw [hm]; rfl)) fun j hj => ?_
    obtain hlt | heq := Nat.lt_succ_iff_lt_or_eq.mp hj
    · exact h.joined j (by rw [hm]; exact hlt)
    · rwa [Fin.ext heq]
  | report i hm hi =>
    refine h.manager (.inl (by rw [hm]; rfl)) fun j _ => h.joined j ?_
    rw [hm]
    exact j.isLt.trans_le hi
  | thread i te t hmay ht =>
    obtain ⟨hle, hzero, hthree⟩ := (h.fits i).phase_step ht
    refine h.setThread ((h.fits i).step ht) hle hzero fun h3 j => ?_
    obtain hold | rfl := hthree h3
    · exact h.together i hold j
    · exact (ThreadAt.arrived_iff _).mp (hmay j)
  | initFails | sigpipe => exact ⟨h.fits, h.created, h.joined, h.together⟩
  | serve i locals otp rand t db ht =>
    have hphase := (h.fits i).phase_serve ht
    have hset := h.setThread ((h.fits i).serve ht) hphase.ge (fun h0 => hphase.trans h0)
      fun h3 => h.together i (h3.trans_eq hphase)
    exact ⟨hset.fits, hset.created, hset.joined, hset.together⟩

/-- The invariant of every run. -/
theorem inv_run {memory : Fin n → Block protocolHeaderSize × Block maxDataSize}
    {db : AccountDB Double} {es : List (LoadEvent n)}
    (h : run (Load.step requests creates) (start memory db) es = some s) : s.Inv requests creates :=
  run_invariant (fun _ _ _ hs hi => hi.step hs) h (inv_start memory db)

end Load

/-- **No thread is in the loop of its requests before each of them has come to the barrier**,
whether it connected or not. -/
theorem load_together {n : ℕ} {requests : ℤ} {creates : Fin n → Bool}
    {memory : Fin n → Block protocolHeaderSize × Block maxDataSize} {db : AccountDB Double}
    {es : List (LoadEvent n)} {s : Load n}
    (h : run (Load.step requests creates) (.start memory db) es = some s) {i : Fin n} {k : ℕ}
    (hi : (s.threads i).place = .sending k ∨ (s.threads i).place = .receiving k) (j : Fin n) :
    (s.threads j).place.arrived := by
  have hinv := Load.inv_run h
  refine (ThreadAt.arrived_iff _).mpr (hinv.together i ?_ j)
  obtain hp | hp := hi <;> rw [hp] <;> exact le_rfl

/-- Zeroed memory. -/
def zeroedBuffers {n : ℕ} (_ : Fin n) : Block protocolHeaderSize × Block maxDataSize :=
  (.replicate _ 0, .replicate _ 0)

/-- A thread connects, asks on a broken connection and leaves the barrier, to which the other one
came without a connection. -/
def oneRefused : List (LoadEvent 2) :=
  [.manager, .manager, .thread 1 .refuse, .thread 0 .connect, .thread 0 .lose,
    .thread 0 (.send anyContext), .thread 0 .leave]

theorem load_together_refused : ∃ s : Load 2,
    run (Load.step 1 fun _ => true) (.start zeroedBuffers accountInit) oneRefused = some s ∧
      (s.threads 0).place = .sending 0 ∧ (s.threads 1).place.arrived := by
  have hsends : (run (Load.step 1 fun _ => true) (.start zeroedBuffers accountInit)
      oneRefused).map (fun s => (s.threads 0).place) = some (.sending 0) := by decide
  obtain ⟨s, hs, hp⟩ := Option.map_eq_some_iff.mp hsends
  exact ⟨s, hs, hp, load_together hs (.inl hp) 1⟩

end BankingSystem
