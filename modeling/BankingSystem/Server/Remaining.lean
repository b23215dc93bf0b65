import BankingSystem.Server.Master

/-!
# Server/Remaining — what the server has left to do

Every event of its own leaves the server with less to do (`Server.rank_own`), and any other with two
steps more at most (`Server.rank_other`): a signal wakes the master for a turn of its loop, and a
`SIGTERM` has to be delivered.  A worker counts its steps to its end and the `SIGCHLD` after it.
-/

namespace BankingSystem

open Trace

/-! ## The steps that are left -/

/-- The steps a worker has left, and 3 for its end. -/
def WorkerAt.rank : WorkerAt → ℕ
  | .starting => 6
  | .accepting | .serving => 5
  | .zombie | .reaped => 0

def WorkerProcess.rank (w : WorkerProcess) : ℕ := w.place.rank + w.sigterm.toNat

/-- The steps of `main` that are left, with those of the workers it starts. -/
def MasterAt.rank : MasterAt → ℕ
  | .context => 64
  | .memory => 63
  | .socket => 62
  | .bind => 61
  | .listen => 60
  | .fork i => 24 + 7 * (maxWorkers - i)
  | .test => 23
  | .toPause => 22
  | .paused => 21
  | .kill i => 10 + 2 * (maxWorkers - i)
  | .wait i => 4 + (maxWorkers - i)
  | .closing => 3
  | .cleanMemory _ => 2
  | .cleanContext _ => 1
  | .exited _ => 0

/-- The steps the server has left. -/
def Server.rank (s : Server) : ℕ :=
  s.place.rank + 3 * s.sigchld.toNat + ∑ i, (s.workers i).elim 0 WorkerProcess.rank

/-! ## One event -/

section Rank

variable {w w' : WorkerProcess} {e : WorkerEvent} {s t : Server}

theorem WorkerProcess.rank_kill (w : WorkerProcess) : w.kill.rank ≤ w.rank + 1 := by
  rw [kill]
  split
  · cases hs : w.sigterm <;> simp [rank, hs]
  · exact Nat.le_succ _

theorem WorkerProcess.rank_alive (w : WorkerProcess) (h : w.Alive) : 5 ≤ w.place.rank := by
  obtain ⟨hz, hr⟩ := h
  cases hp : w.place <;> simp [hp, WorkerAt.rank] at hz hr ⊢

/-- What is left after an event at a worker. -/
theorem WorkerProcess.rank_step (h : w.step e = some w') :
    w'.rank + 3 * (decide (w'.place = .zombie)).toNat + e.own.toNat ≤ w.rank + (!e.own).toNat := by
  cases steps h with
  | ready hp =>
    have hrank : w.place.rank = 6 := congrArg _ hp
    change 5 + w.sigterm.toNat + 0 + 1 ≤ w.place.rank + w.sigterm.toNat + 0
    omega
  | connection hp =>
    have hrank : w.place.rank = 5 := congrArg _ hp
    change 5 + w.sigterm.toNat + 0 + 0 ≤ w.place.rank + w.sigterm.toNat + 1
    omega
  | interrupted hp =>
    have hrank : w.place.rank = 5 := congrArg _ hp
    change 0 + w.sigterm.toNat + 3 + 0 ≤ w.place.rank + w.sigterm.toNat + 1
    omega
  | failed hp =>
    rw [decide_eq_false (by rw [hp]; nofun)]
    exact Nat.le_succ _
  | refused hp =>
    have hrank : w.place.rank = 5 := congrArg _ hp
    change 0 + w.sigterm.toNat + 3 + 1 ≤ w.place.rank + w.sigterm.toNat + 0
    omega
  | hangup hp =>
    have hrank : w.place.rank = 5 := congrArg _ hp
    change 5 + w.sigterm.toNat + 0 + 0 ≤ w.place.rank + w.sigterm.toNat + 1
    omega
  | early hp hs =>
    rw [decide_eq_false (by rw [hp]; nofun), rank, rank, hs]
    exact le_rfl
  | sigterm hp hs =>
    have hrank : w.place.rank = 5 := by obtain hp | hp := hp <;> rw [hp] <;> rfl
    change 0 + w.sigterm.toNat + 3 + 1 ≤ w.place.rank + w.sigterm.toNat + 0
    omega
  | sigint ha =>
    rw [decide_eq_false ha.1]
    exact Nat.le_succ _
  | term ha =>
    have hplace : w.kill.place = w.place := by rw [kill, if_pos ha]
    rw [hplace, decide_eq_false ha.1]
    exact w.rank_kill
  | crash ha =>
    have hrank := w.rank_alive ha
    change 0 + w.sigterm.toNat + 3 + 0 ≤ w.place.rank + w.sigterm.toNat + 1
    omega

theorem WorkerProcess.rank_reap (w : WorkerProcess) : w.reap.rank = w.rank := by
  rw [reap]
  split
  · next h => rw [rank, rank, h]; rfl
  · rfl

/-- What is left when one worker changes. -/
theorem Server.sum_rank_update (s : Server) (i : Fin maxWorkers) (w : WorkerProcess) :
    (∑ j, (Function.update s.workers i (some w) j).elim 0 WorkerProcess.rank) +
        (s.workers i).elim 0 WorkerProcess.rank =
      (∑ j, (s.workers j).elim 0 WorkerProcess.rank) + w.rank :=
  sum_update s.workers (fun w => w.elim 0 WorkerProcess.rank) i (some w)

theorem MasterAt.rank_woken (p : MasterAt) : p.woken.rank ≤ p.rank + 2 := by
  cases p <;> simp [woken, rank]

theorem Server.rank_lt_of_place {p q : MasterAt} (hp : s.place = p) (hq : t.place = q)
    (hw : t.workers = s.workers) (hc : t.sigchld = s.sigchld) (h : q.rank < p.rank) :
    t.rank < s.rank := by
  rw [rank, rank, hw, hc, hp, hq]
  omega

/-- A worker that is set, in a loop over `worker_pids`. -/
theorem Server.rank_setWorker {i n : ℕ} (hi : i < maxWorkers) {w : WorkerProcess} {p : MasterAt}
    (hw : w.rank ≤ (s.workerAt i).elim 0 WorkerProcess.rank + n) (hp : p.rank + n < s.place.rank) :
    ({ s.setWorker i w with place := p } : Server).rank < s.rank := by
  have hsum := s.sum_rank_update ⟨i, hi⟩ w
  rw [workerAt_eq hi] at hw
  rw [setWorker_eq hi, rank, rank]
  dsimp only
  omega

theorem Server.rank_advance {ok : Bool} (h : s.advance ok = some t) : t.rank < s.rank := by
  cases hp : s.place <;> simp only [advance, hp] at h
  case context =>
    obtain rfl := Option.some.inj h
    cases ok
    · exact rank_lt_of_place (q := .exited 1) hp rfl rfl rfl (by decide)
    · exact rank_lt_of_place (q := .memory) hp rfl rfl rfl (by decide)
  case memory =>
    obtain rfl := Option.some.inj h
    cases ok
    · exact rank_lt_of_place (q := .cleanContext 1) hp rfl rfl rfl (by decide)
    · exact rank_lt_of_place (q := .socket) hp rfl rfl rfl (by decide)
  case socket =>
    obtain rfl := Option.some.inj h
    cases ok
    · exact rank_lt_of_place (q := .cleanMemory 1) hp rfl rfl rfl (by decide)
    · exact rank_lt_of_place (q := .bind) hp rfl rfl rfl (by decide)
  case bind =>
    obtain rfl := Option.some.inj h
    split
    · exact rank_lt_of_place (q := .listen) hp rfl rfl rfl (by decide)
    · exact rank_lt_of_place (q := .cleanMemory 1) hp rfl rfl rfl (by decide)
  case listen =>
    obtain rfl := Option.some.inj h
    split
    · exact rank_lt_of_place (q := .fork 0) hp rfl rfl rfl (by decide)
    · exact rank_lt_of_place (q := .cleanMemory 1) hp rfl rfl rfl (by decide)
  case fork i =>
    obtain rfl := Option.some.inj h
    split
    · exact rank_lt_of_place (q := .test) hp rfl rfl rfl (Nat.le_add_right 24 _)
    next hi =>
    have hrank : (MasterAt.fork (i + 1)).rank + 6 < s.place.rank := by
      rw [hp, MasterAt.rank, MasterAt.rank]
      omega
    cases ok
    · exact rank_lt_of_place (q := .fork (i + 1)) rfl rfl rfl rfl
        ((Nat.le_add_right _ _).trans_lt hrank)
    · exact rank_setWorker (not_le.mp hi) (Nat.le_add_left _ _) hrank
  case test =>
    obtain rfl := Option.some.inj h
    cases s.globals.keepRunning
    · exact rank_lt_of_place (q := .kill 0) hp rfl rfl rfl (by decide)
    · exact rank_lt_of_place (q := .toPause) hp rfl rfl rfl (by decide)
  case toPause =>
    obtain rfl := Option.some.inj h
    exact rank_lt_of_place (q := .paused) hp rfl rfl rfl (by decide)
  case paused => cases h
  case kill i =>
    obtain rfl := Option.some.inj h
    split
    · exact rank_lt_of_place (q := .wait 0) hp rfl rfl rfl (Nat.le_add_right 10 _)
    next hi =>
    have hrank : (MasterAt.kill (i + 1)).rank + 1 < s.place.rank := by
      rw [hp, MasterAt.rank, MasterAt.rank]
      omega
    split
    · next w hw => exact rank_setWorker (not_le.mp hi) (by rw [hw]; exact w.rank_kill) hrank
    · exact rank_lt_of_place (q := .kill (i + 1)) rfl rfl rfl rfl
        ((Nat.le_add_right _ _).trans_lt hrank)
  case wait i =>
    split at h
    · next hi =>
      obtain rfl := Option.some.inj h
      exact rank_lt_of_place (q := .closing) hp rfl rfl rfl (Nat.le_add_right 4 _)
    next hi =>
    have hrank : (MasterAt.wait (i + 1)).rank + 0 < s.place.rank := by
      rw [hp, MasterAt.rank, MasterAt.rank]
      omega
    split at h
    · next w hw =>
      split at h
      · cases h
      obtain rfl := Option.some.inj h
      exact rank_setWorker (not_le.mp hi) (by rw [hw]; exact w.rank_reap.le) hrank
    · obtain rfl := Option.some.inj h
      exact rank_lt_of_place (q := .wait (i + 1)) rfl rfl rfl rfl hrank
  case closing =>
    obtain rfl := Option.some.inj h
    exact rank_lt_of_place (q := .cleanMemory 0) hp rfl rfl rfl (Nat.lt_succ_self 2)
  case cleanMemory status =>
    obtain rfl := Option.some.inj h
    exact rank_lt_of_place (q := .cleanContext status) hp rfl rfl rfl (Nat.lt_succ_self 1)
  case cleanContext status =>
    obtain rfl := Option.some.inj h
    exact rank_lt_of_place (q := .exited status) hp rfl rfl rfl (Nat.lt_succ_self 0)
  case exited => cases h

theorem Server.rank_handle (s : Server) : s.handle.rank ≤ s.rank + 2 := by
  have := s.place.rank_woken
  rw [handle, rank, rank]
  dsimp only
  omega

theorem Server.rank_reapAll (s : Server) (h : s.sigchld) : s.reapAll.rank < s.rank := by
  have hplace := s.place.rank_woken
  have hsum : ∑ i, ((s.workers i).map WorkerProcess.reap).elim 0 WorkerProcess.rank =
      ∑ i, (s.workers i).elim 0 WorkerProcess.rank :=
    Finset.sum_congr rfl fun i _ => by
      cases s.workers i with
      | none => rfl
      | some w => exact w.rank_reap
  rw [reapAll, rank, rank, h, hsum]
  dsimp only [Bool.toNat_true, Bool.toNat_false]
  omega

theorem Server.rank_workerStep {i : Fin maxWorkers} (hw : s.workers i = some w)
    (h : w.step e = some w') :
    (s.workerStep i w').rank + e.own.toNat ≤ s.rank + (!e.own).toNat := by
  have hstep := WorkerProcess.rank_step h
  have hsum := s.sum_rank_update i w'
  have hflag : (s.sigchld || decide (w'.place = .zombie)).toNat ≤
      s.sigchld.toNat + (decide (w'.place = .zombie)).toNat := by
    cases s.sigchld <;> simp
  rw [hw, Option.elim_some] at hsum
  rw [workerStep, rank, rank]
  dsimp only
  omega

/-- **An event of its own leaves the server with less to do.** -/
theorem Server.rank_own {e : ServerEvent} (h : s.step e = some t) (he : e.own) :
    t.rank < s.rank := by
  obtain ⟨ok, -, h⟩ | ⟨rfl, -, -⟩ | ⟨-, hc, -, rfl⟩ | ⟨i, we, w, w', rfl, hw, hw', rfl⟩ :=
    step_cases h
  · exact rank_advance h
  · cases he
  · exact s.rank_reapAll hc
  · have hstep := rank_workerStep hw hw'
    have hown : we.own = true := he
    rw [hown] at hstep
    exact hstep

/-- …and any other with two steps more at most. -/
theorem Server.rank_other {e : ServerEvent} (h : s.step e = some t) : t.rank ≤ s.rank + 2 := by
  obtain ⟨ok, -, h⟩ | ⟨-, -, rfl⟩ | ⟨-, hc, -, rfl⟩ | ⟨i, we, w, w', -, hw, hw', rfl⟩ :=
    step_cases h
  · exact (rank_advance h).le.trans (Nat.le_add_right _ _)
  · exact s.rank_handle
  · exact (s.rank_reapAll hc).le.trans (Nat.le_add_right _ _)
  · have hstep := rank_workerStep hw hw'
    have hle : (!we.own).toNat ≤ 1 := Bool.toNat_le _
    omega

theorem MasterAt.rank_le (p : MasterAt) : p.rank ≤ 64 := by
  cases p <;> simp [rank, maxWorkers] <;> omega

theorem Server.rank_le (s : Server) : s.rank ≤ 102 := by
  have hplace := s.place.rank_le
  have hflag := Bool.toNat_le s.sigchld
  have hworker : ∀ i ∈ Finset.univ, (s.workers i).elim 0 WorkerProcess.rank ≤ 7 := fun i _ => by
    cases s.workers i with
    | none => exact Nat.zero_le _
    | some w =>
      have hsigterm := Bool.toNat_le w.sigterm
      have hrank : w.place.rank ≤ 6 := by cases w.place <;> decide
      rw [Option.elim_some, WorkerProcess.rank]
      omega
  have hsum := Finset.sum_le_card_nsmul _ _ _ hworker
  rw [Finset.card_univ, Fintype.card_fin] at hsum
  have hmax : maxWorkers • 7 = 35 := rfl
  rw [rank]
  omega

end Rank

end BankingSystem
