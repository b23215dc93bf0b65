import BankingSystem.Server.Master

/-!
# Server/Cleanup — what the server releases, and when

The master releases the shared memory and the TLS context on every way to its exit, and on no way
while a worker may still use them: it waits for every worker it has forked, whatever signals come in
between and whoever else reaps it (`server_orderly`).  The invariant (`Server.Held`) says what the
master holds at each place of `main`, and which workers are gone.
-/

namespace BankingSystem

open Trace

/-! ## What is held -/

namespace MasterAt

/-- The master has its TLS context. -/
def hasContext : MasterAt → Bool
  | .context | .exited _ => false
  | _ => true

/-- The master has its shared memory. -/
def hasMemory : MasterAt → Bool
  | .context | .memory | .cleanContext _ | .exited _ => false
  | _ => true

/-- The master may have its socket. -/
def hasSocket : MasterAt → Bool
  | .context | .memory | .socket | .cleanMemory _ | .cleanContext _ | .exited _ => false
  | _ => true

/-- The workers before this one are gone. -/
def awaited : MasterAt → ℕ
  | .fork _ | .test | .toPause | .paused | .kill _ => 0
  | .wait i => i
  | _ => maxWorkers

theorem hasContext_woken (p : MasterAt) : p.woken.hasContext = p.hasContext := by cases p <;> rfl

theorem hasMemory_woken (p : MasterAt) : p.woken.hasMemory = p.hasMemory := by cases p <;> rfl

theorem hasSocket_woken (p : MasterAt) : p.woken.hasSocket = p.hasSocket := by cases p <;> rfl

theorem awaited_woken (p : MasterAt) : p.woken.awaited = p.awaited := by cases p <;> rfl

end MasterAt

/-- Nothing happens to a worker that is gone. -/
theorem WorkerProcess.step_of_reaped {w : WorkerProcess} (h : w.place = .reaped) (e : WorkerEvent) :
    w.step e = none := by
  cases e <;> simp [step, h, Alive]

theorem WorkerProcess.reap_place (w : WorkerProcess) (h : ¬ w.Alive) : w.reap.place = .reaped := by
  rw [reap]
  split
  · rfl
  · next hz => exact not_not.mp fun hr => h ⟨hz, hr⟩

namespace Server

/-- **What is held, where the master is.** -/
structure Held (s : Server) : Prop where
  context : s.context = s.place.hasContext
  memory : s.memory = s.place.hasMemory
  socket : s.socket → s.place.hasSocket ∧ s.globals.listening
  gone : ∀ i w, i.val < s.place.awaited → s.workers i = some w → w.place = .reaped

theorem held_boot : boot.Held where
  context := rfl
  memory := rfl
  socket h := by cases h
  gone _ _ _ h := by cases h

variable {s t : Server}

/-- The workers stay, and no more of them have to be gone. -/
theorem Held.of_workers (h : s.Held) (hworkers : t.workers = s.workers)
    (hawaited : t.place.awaited ≤ s.place.awaited) (hcontext : t.context = t.place.hasContext)
    (hmemory : t.memory = t.place.hasMemory)
    (hsocket : t.socket → t.place.hasSocket ∧ t.globals.listening) : t.Held where
  context := hcontext
  memory := hmemory
  socket := hsocket
  gone i w hi hw := h.gone i w (hi.trans_le hawaited) (hworkers ▸ hw)

theorem Held.handle (h : s.Held) : s.handle.Held := by
  refine h.of_workers rfl ?_ ?_ ?_ fun hs => ?_
  · exact (MasterAt.awaited_woken _).le
  · exact h.context.trans (MasterAt.hasContext_woken _).symm
  · exact h.memory.trans (MasterAt.hasMemory_woken _).symm
  · obtain ⟨hsocket, hopen⟩ := (Bool.and_eq_true _ _).mp hs
    obtain ⟨hplace, hlistening⟩ := h.socket hsocket
    have hrun : s.globals.keepRunning = false := by simpa [hlistening] using hopen
    refine ⟨(MasterAt.hasSocket_woken _).trans hplace, ?_⟩
    rw [Server.handle, signalHandler, if_neg (ne_true_of_eq_false hrun), hlistening]

theorem Held.reapAll (h : s.Held) : s.reapAll.Held where
  context := h.context.trans (MasterAt.hasContext_woken _).symm
  memory := h.memory.trans (MasterAt.hasMemory_woken _).symm
  socket hs := ⟨(MasterAt.hasSocket_woken _).trans (h.socket hs).1, (h.socket hs).2⟩
  gone i w hi hw := by
    obtain ⟨w₀, hw₀, rfl⟩ := Option.map_eq_some_iff.mp hw
    have hgone := h.gone i w₀ (hi.trans_le (MasterAt.awaited_woken _).le) hw₀
    rw [WorkerProcess.reap, if_neg (by rw [hgone]; decide), hgone]

theorem Held.workerStep (h : s.Held) {i : Fin maxWorkers} {we : WorkerEvent} {w w' : WorkerProcess}
    (hw : s.workers i = some w) (hstep : w.step we = some w') : (s.workerStep i w').Held where
  context := h.context
  memory := h.memory
  socket := h.socket
  gone j v hj hv := by
    obtain ⟨rfl, rfl⟩ | ⟨-, hv⟩ := workers_workerStep hv
    · rw [WorkerProcess.step_of_reaped (h.gone j w hj hw)] at hstep
      cases hstep
    · exact h.gone j v hj hv

theorem Held.advance (h : s.Held) {ok : Bool} (hs : s.advance ok = some t) : t.Held := by
  obtain ⟨hc, hm, hsock, hgone⟩ := h
  cases hp : s.place <;> rw [hp] at hc hm hsock hgone <;> simp only [Server.advance, hp] at hs
  case context =>
    obtain rfl := Option.some.inj hs
    cases ok
    · exact ⟨hc, hm, fun hs' => absurd (hsock hs').1 Bool.false_ne_true, hgone⟩
    · exact ⟨rfl, hm, fun hs' => absurd (hsock hs').1 Bool.false_ne_true, hgone⟩
  case memory =>
    obtain rfl := Option.some.inj hs
    cases ok
    · exact ⟨hc, hm, fun hs' => absurd (hsock hs').1 Bool.false_ne_true, hgone⟩
    · exact ⟨hc, rfl, fun hs' => absurd (hsock hs').1 Bool.false_ne_true, hgone⟩
  case socket =>
    obtain rfl := Option.some.inj hs
    cases ok
    · exact ⟨hc, hm, fun hs' => absurd (hsock hs').1 Bool.false_ne_true, hgone⟩
    · exact ⟨hc, hm, fun _ => ⟨rfl, rfl⟩, hgone⟩
  case bind =>
    obtain rfl := Option.some.inj hs
    split
    · exact ⟨hc, hm, hsock, hgone⟩
    · exact ⟨hc, hm, fun hs' => absurd hs' Bool.false_ne_true, hgone⟩
  case listen =>
    obtain rfl := Option.some.inj hs
    split
    · exact ⟨hc, hm, hsock, fun _ _ hi => absurd hi (Nat.not_lt_zero _)⟩
    · exact ⟨hc, hm, fun hs' => absurd hs' Bool.false_ne_true, hgone⟩
  case fork i =>
    obtain rfl := Option.some.inj hs
    split
    · exact ⟨hc, hm, hsock, hgone⟩
    · next hi =>
      cases ok
      · exact ⟨hc, hm, hsock, hgone⟩
      · rw [setWorker_eq (not_le.mp hi)]
        exact ⟨hc, hm, hsock, fun _ _ hi => absurd hi (Nat.not_lt_zero _)⟩
  case test =>
    obtain rfl := Option.some.inj hs
    cases s.globals.keepRunning
    · exact ⟨hc, hm, hsock, hgone⟩
    · exact ⟨hc, hm, hsock, hgone⟩
  case toPause =>
    obtain rfl := Option.some.inj hs
    exact ⟨hc, hm, hsock, hgone⟩
  case paused => cases hs
  case kill i =>
    obtain rfl := Option.some.inj hs
    split
    · exact ⟨hc, hm, hsock, hgone⟩
    · next hi =>
      split
      · rw [setWorker_eq (not_le.mp hi)]
        exact ⟨hc, hm, hsock, fun _ _ hi => absurd hi (Nat.not_lt_zero _)⟩
      · exact ⟨hc, hm, hsock, hgone⟩
  case wait i =>
    split at hs
    · next hi =>
      obtain rfl := Option.some.inj hs
      exact ⟨hc, hm, hsock, fun j w hj => hgone j w (hj.trans_le hi)⟩
    next hi =>
    split at hs
    · next w hw =>
      split at hs
      · cases hs
      next halive =>
      obtain rfl := Option.some.inj hs
      have hkeep : ∀ j v, j.val < i + 1 → (s.setWorker i w.reap).workers j = some v →
          v.place = .reaped := fun j v hj hv => by
        obtain ⟨-, rfl⟩ | ⟨hji, hv⟩ := workers_setWorker (not_le.mp hi) hv
        · exact w.reap_place halive
        · exact hgone j v ((Nat.lt_succ_iff.mp hj).lt_of_ne hji) hv
      rw [setWorker_eq (not_le.mp hi)] at hkeep ⊢
      exact ⟨hc, hm, hsock, hkeep⟩
    · next hw =>
      obtain rfl := Option.some.inj hs
      refine ⟨hc, hm, hsock, fun j w hj hjw => ?_⟩
      obtain hlt | heq := Nat.lt_succ_iff_lt_or_eq.mp hj
      · exact hgone j w hlt hjw
      · rw [← heq, workerAt_eq j.isLt, hjw] at hw
        cases hw
  case closing =>
    obtain rfl := Option.some.inj hs
    refine ⟨hc, hm, fun hs' => ?_, hgone⟩
    obtain ⟨hsocket, hopen⟩ := (Bool.and_eq_true _ _).mp hs'
    rw [(hsock hsocket).2] at hopen
    cases hopen
  case cleanMemory status =>
    obtain rfl := Option.some.inj hs
    exact ⟨hc, rfl, fun hs' => absurd (hsock hs').1 Bool.false_ne_true, hgone⟩
  case cleanContext status =>
    obtain rfl := Option.some.inj hs
    exact ⟨rfl, hm, fun hs' => absurd (hsock hs').1 Bool.false_ne_true, hgone⟩
  case exited status => cases hs

theorem Held.step (h : s.Held) {e : ServerEvent} (hs : s.step e = some t) : t.Held := by
  obtain ⟨ok, -, hs⟩ | ⟨-, -, rfl⟩ | ⟨-, -, -, rfl⟩ | ⟨i, we, w, w', -, hw, hw', rfl⟩ :=
    step_cases hs
  · exact h.advance hs
  · exact h.handle
  · exact h.reapAll
  · exact h.workerStep hw hw'

end Server

/-! ## Every run -/

/-- **Nothing is released while a worker may use it, and nothing is left at the exit.** -/
structure Orderly (s : Server) : Prop where
  kept : ∀ i w, s.workers i = some w → w.place ≠ .reaped → s.context ∧ s.memory
  left : s.place.ended → ¬ s.context ∧ ¬ s.memory ∧ ¬ s.socket ∧
    ∀ i w, s.workers i = some w → w.place = .reaped

theorem Server.Held.orderly {s : Server} (h : s.Held) : Orderly s where
  kept i w hw hplace := by
    have hawaited : s.place.awaited ≤ i.val := not_lt.mp fun hi => hplace (h.gone i w hi hw)
    have hlt : s.place.awaited < maxWorkers := hawaited.trans_lt i.isLt
    rw [h.context, h.memory]
    revert hlt
    cases s.place <;> simp [MasterAt.awaited, MasterAt.hasContext, MasterAt.hasMemory]
  left hend := by
    obtain ⟨hc, hm, hsock, hgone⟩ := h
    cases hp : s.place <;> rw [hp] at hc hm hsock hgone hend <;>
      try exact absurd hend Bool.false_ne_true
    exact ⟨ne_true_of_eq_false hc, ne_true_of_eq_false hm,
      fun hs => absurd (hsock hs).1 Bool.false_ne_true, fun i w hw => hgone i w i.isLt hw⟩

/-- **In every run of the server** the shared memory and the TLS context stay until the last worker
is gone, and at the exit, whatever its status, nothing is left: no worker, no shared memory, no TLS
context and no socket. -/
theorem server_orderly {es : List ServerEvent} {s : Server}
    (h : run Server.step .boot es = some s) : Orderly s :=
  (run_invariant (fun _ _ _ hstep hs => Server.Held.step hs hstep) h Server.held_boot).orderly

/-- The server is told to stop while one worker serves a client and the others have not yet set
their handlers. -/
def stopWhileServing : List ServerEvent :=
  List.replicate 11 (.master true) ++
    [.worker firstWorker .ready, .worker firstWorker (.accept .connection)] ++
    List.replicate 2 (.master true) ++ .signal :: List.replicate 7 (.master true) ++
    .worker firstWorker .sigterm :: (List.finRange maxWorkers).tail.flatMap (fun i =>
      [.worker i .sigterm, .worker i .ready, .worker i .refused]) ++
    List.replicate 9 (.master true)

theorem server_orderly_stop : ∃ s, run Server.step .boot stopWhileServing = some s ∧
    s.place = .exited 0 ∧ Orderly s := by
  obtain ⟨s, hs⟩ := Option.isSome_iff_exists.mp
    (show (run Server.step .boot stopWhileServing).isSome by decide)
  have hplace : (run Server.step .boot stopWhileServing).map (·.place) = some (.exited 0) := by
    decide
  rw [hs] at hplace
  exact ⟨s, hs, Option.some.inj hplace, server_orderly hs⟩

end BankingSystem
