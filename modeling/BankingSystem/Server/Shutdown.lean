import BankingSystem.Server.Remaining

/-!
# Server/Shutdown — the server stops when it is told to

Once it is told to stop, the server gets to its exit: until it is there some process can take a
step that needs no client and no further signal, and there are at most 102 such steps, and two more
for each thing that happens from outside (`Ends`).  This depends on where the master was when the
first signal came, and in two places it fails (`server_stops_iff`).

Between the test of `keep_running` and `pause` the signal is lost: the master sleeps on.  Before the
socket is there the handler finds nothing to close; then a worker is forked with `keep_running`
unset and an open socket, in which the handler of the master does nothing.  A `SIGTERM` that finds
this handler is lost: the worker waits in `accept`, and the master for the worker.
-/

namespace BankingSystem

open Trace

/-! ## A worker that is told to stop -/

namespace WorkerProcess

/-- A worker that has unset `keep_running` has closed its socket. -/
def Closed (w : WorkerProcess) : Prop :=
  w.globals.keepRunning = false → w.globals.listening = false

/-- It ends by itself: it has yet to get a `SIGTERM`, or its next `accept` fails. -/
def Leaves (w : WorkerProcess) : Prop :=
  w.Alive → w.sigterm ∨ w.place ≠ .serving ∧ w.globals.listening = false

variable {w w' : WorkerProcess} {e : WorkerEvent}

theorem Closed.handler (h : w.Closed) : (signalHandler w.globals).listening = false := by
  rw [signalHandler]
  split
  · rfl
  · next hk => exact h (eq_false_of_ne_true hk)

theorem Closed.step (hc : w.Closed) (h : w.step e = some w') : w'.Closed := by
  cases steps h with
  | early => exact fun _ => hc.handler
  | sigint => exact fun _ => hc.handler
  | term ha =>
    rw [kill, if_pos ha]
    exact hc
  | _ => exact hc

theorem Closed.kill (hc : w.Closed) : w.kill.Closed := by
  rw [WorkerProcess.kill]
  split <;> exact hc

theorem Closed.reap (hc : w.Closed) : w.reap.Closed := by
  rw [WorkerProcess.reap]
  split <;> exact hc

theorem leaves_kill (w : WorkerProcess) : w.kill.Leaves := by
  intro ha
  rw [kill] at ha ⊢
  split
  · exact .inl rfl
  · next h =>
    rw [if_neg h] at ha
    exact absurd ha h

theorem Leaves.reap (hl : w.Leaves) : w.reap.Leaves := by
  intro ha
  rw [WorkerProcess.reap] at ha ⊢
  split
  · next hz =>
    rw [if_pos hz] at ha
    exact absurd rfl ha.2
  · next hz =>
    rw [if_neg hz] at ha
    exact hl ha

theorem Leaves.step (hl : w.Leaves) (hc : w.Closed) (h : w.step e = some w') : w'.Leaves := by
  have hwaits : w.place = .starting ∨ w.place = .accepting ∨ w.place = .serving → w.Alive := by
    rintro (hp | hp | hp) <;> rw [Alive, hp] <;> decide
  cases steps h with
  | ready hp =>
    intro _
    exact (hl (hwaits (.inl hp))).imp_right fun hl => ⟨nofun, hl.2⟩
  | connection hp hlisten =>
    intro _
    refine (hl (hwaits (.inr (.inl hp)))).imp_right fun hl => ?_
    rw [hl.2] at hlisten
    cases hlisten
  | failed => exact hl
  | hangup hp =>
    intro _
    exact (hl (hwaits (.inr (.inr hp)))).imp_right fun hl => absurd hp hl.1
  | early hp => exact fun _ => .inr ⟨by simp [hp], hc.handler⟩
  | sigint ha => exact fun _ => (hl ha).imp_right fun hl => ⟨hl.1, hc.handler⟩
  | term => exact w.leaves_kill
  | interrupted | refused | sigterm | crash => exact fun ha => absurd rfl ha.1

/-- **A worker that leaves has a step to take.** -/
theorem Leaves.moves (hl : w.Leaves) (ha : w.Alive) : ∃ e, e.own ∧ (w.step e).isSome := by
  obtain hs | ⟨hserving, hclosed⟩ := hl ha
  · refine ⟨.sigterm, rfl, ?_⟩
    obtain ⟨hz, hr⟩ := ha
    rw [WorkerProcess.step, if_neg (not_not.mpr hs)]
    cases hp : w.place <;> first | rfl | exact absurd hp hz | exact absurd hp hr
  · cases hp : w.place with
    | starting => exact ⟨.ready, rfl, by simp [WorkerProcess.step, hp]⟩
    | accepting => exact ⟨.refused, rfl, by simp [WorkerProcess.step, hp, hclosed]⟩
    | serving => exact absurd hp hserving
    | zombie => exact absurd hp ha.1
    | reaped => exact absurd hp ha.2

end WorkerProcess

/-! ## The server that is told to stop -/

namespace MasterAt

/-- The master has not yet begun to stop. -/
def starts : MasterAt → Bool
  | .kill _ | .wait _ | .closing => false
  | _ => true

/-- The master hears a signal. -/
def hears : MasterAt → Bool
  | .context | .memory | .socket | .toPause => false
  | _ => true

/-- The master is on its way to its exit. -/
def leaves : MasterAt → Bool
  | .context | .memory | .socket | .toPause | .paused => false
  | _ => true

/-- The workers before this one have been sent a `SIGTERM`. -/
def told : MasterAt → ℕ
  | .kill i => i
  | .wait _ => maxWorkers
  | _ => 0

theorem told_woken (p : MasterAt) : p.woken.told = p.told := by cases p <;> rfl

theorem starts_woken (p : MasterAt) : p.woken.starts = p.starts := by cases p <;> rfl

end MasterAt

namespace Server

/-- **Nobody has told the server to stop.** -/
structure Untold (s : Server) : Prop where
  running : s.globals.keepRunning = true
  place : s.place.starts = true
  closed : ∀ i w, s.workers i = some w → w.Closed

/-- **The server has been told to stop**, and has heard it. -/
structure Told (s : Server) : Prop where
  globals : s.globals = ⟨false, false⟩
  place : s.place.leaves = true
  closed : ∀ i w, s.workers i = some w → w.Closed
  leaves : ∀ i w, i.val < s.place.told → s.workers i = some w → w.Leaves

variable {s t : Server} {e : ServerEvent}

theorem Told.place_woken (h : s.Told) : s.place.woken.leaves = true := by
  have := h.place
  cases hp : s.place <;> rw [hp] at this <;> first | rfl | cases this

theorem untold_boot : boot.Untold where
  running := rfl
  place := rfl
  closed _ _ h := by cases h

theorem Untold.handle (h : s.Untold) (hp : s.place.hears) : s.handle.Told where
  globals := by rw [Server.handle, signalHandler, if_pos h.running]
  place := by
    have := h.place
    rw [Server.handle]
    cases hplace : s.place <;> rw [hplace] at hp this <;> first | rfl | cases hp
  closed := h.closed
  leaves i w hi := by
    have := h.place
    rw [Server.handle] at hi
    cases hplace : s.place <;> rw [hplace] at hi this <;>
      first | exact absurd hi (Nat.not_lt_zero _) | cases this

theorem Told.handle (h : s.Told) : s.handle.Told where
  globals := by rw [Server.handle, h.globals, signalHandler, if_neg Bool.false_ne_true]
  place := h.place_woken
  closed := h.closed
  leaves i w hi := h.leaves i w (hi.trans_eq (MasterAt.told_woken _))

theorem closed_reapAll (h : ∀ i w, s.workers i = some w → w.Closed) (i : Fin maxWorkers)
    (w : WorkerProcess) (hw : s.reapAll.workers i = some w) : w.Closed := by
  obtain ⟨w₀, hw₀, rfl⟩ := Option.map_eq_some_iff.mp hw
  exact (h i w₀ hw₀).reap

theorem closed_workerStep (h : ∀ i w, s.workers i = some w → w.Closed) {i : Fin maxWorkers}
    {we : WorkerEvent} {w w' : WorkerProcess} (hw : s.workers i = some w)
    (hstep : w.step we = some w') (j : Fin maxWorkers) (v : WorkerProcess)
    (hv : (s.workerStep i w').workers j = some v) : v.Closed := by
  obtain ⟨rfl, rfl⟩ | ⟨-, hv⟩ := workers_workerStep hv
  · exact (h j w hw).step hstep
  · exact h j v hv

theorem closed_setWorker (h : ∀ i w, s.workers i = some w → w.Closed) {i : ℕ} (hi : i < maxWorkers)
    {w : WorkerProcess} (hw : w.Closed) (j : Fin maxWorkers) (v : WorkerProcess)
    (hv : (s.setWorker i w).workers j = some v) : v.Closed := by
  obtain ⟨-, rfl⟩ | ⟨-, hv⟩ := workers_setWorker hi hv
  · exact hw
  · exact h j v hv

theorem closed_workerAt (h : ∀ i w, s.workers i = some w → w.Closed) {i : ℕ} {w : WorkerProcess}
    (hw : s.workerAt i = some w) : w.Closed := by
  rw [workerAt] at hw
  split at hw
  · exact h _ w hw
  · cases hw

theorem globals_setWorker (i : ℕ) (w : WorkerProcess) : (s.setWorker i w).globals = s.globals := by
  rw [setWorker]
  split <;> rfl

theorem Untold.advance (h : s.Untold) {ok : Bool} (hs : s.advance ok = some t) : t.Untold := by
  obtain ⟨hrun, hplace, hclosed⟩ := h
  cases hp : s.place <;> rw [hp] at hplace <;> simp only [Server.advance, hp] at hs
  case fork i =>
    obtain rfl := Option.some.inj hs
    split
    · exact ⟨hrun, rfl, hclosed⟩
    next hi =>
    cases ok
    · exact ⟨hrun, rfl, hclosed⟩
    · refine ⟨(congrArg _ (globals_setWorker _ _)).trans hrun, rfl,
        closed_setWorker hclosed (not_le.mp hi) fun hk => ?_⟩
      rw [hrun] at hk
      cases hk
  case test =>
    obtain rfl := Option.some.inj hs
    rw [hrun]
    exact ⟨hrun, rfl, hclosed⟩
  case context | memory | socket =>
    obtain rfl := Option.some.inj hs
    cases ok <;> exact ⟨hrun, rfl, hclosed⟩
  case bind | listen =>
    obtain rfl := Option.some.inj hs
    split <;> exact ⟨hrun, rfl, hclosed⟩
  case toPause | cleanMemory | cleanContext =>
    obtain rfl := Option.some.inj hs
    exact ⟨hrun, rfl, hclosed⟩
  case paused | exited => cases hs
  case kill | wait | closing => cases hplace

theorem Untold.step (h : s.Untold) (hs : s.step e = some t) (he : e ≠ .signal) : t.Untold := by
  obtain ⟨ok, -, hs⟩ | ⟨rfl, -⟩ | ⟨-, -, -, rfl⟩ | ⟨i, we, w, w', -, hw, hw', rfl⟩ :=
    step_cases hs
  · exact h.advance hs
  · exact absurd rfl he
  · exact ⟨h.running, (MasterAt.starts_woken _).trans h.place, closed_reapAll h.closed⟩
  · exact ⟨h.running, h.place, closed_workerStep h.closed hw hw'⟩

theorem Told.advance (h : s.Told) {ok : Bool} (hs : s.advance ok = some t) : t.Told := by
  obtain ⟨hglobals, hplace, hclosed, hleaves⟩ := h
  cases hp : s.place <;> rw [hp] at hplace hleaves <;> simp only [Server.advance, hp] at hs
  case context | memory | socket | toPause | paused => cases hplace
  case bind | listen =>
    obtain rfl := Option.some.inj hs
    split <;> exact ⟨hglobals, rfl, hclosed, hleaves⟩
  case fork i =>
    obtain rfl := Option.some.inj hs
    split
    · exact ⟨hglobals, rfl, hclosed, hleaves⟩
    next hi =>
    cases ok
    · exact ⟨hglobals, rfl, hclosed, hleaves⟩
    · refine ⟨(globals_setWorker _ _).trans hglobals, rfl,
        closed_setWorker hclosed (not_le.mp hi) fun _ => congrArg Globals.listening hglobals,
        fun _ _ hi => absurd hi (Nat.not_lt_zero _)⟩
  case test =>
    obtain rfl := Option.some.inj hs
    rw [hglobals]
    exact ⟨rfl, rfl, hclosed, hleaves⟩
  case kill i =>
    obtain rfl := Option.some.inj hs
    split
    · next hi => exact ⟨hglobals, rfl, hclosed, fun j w _ => hleaves j w (j.isLt.trans_le hi)⟩
    next hi =>
    have hi := not_le.mp hi
    split
    · next w hw =>
      refine ⟨(globals_setWorker _ _).trans hglobals, rfl,
        closed_setWorker hclosed hi (closed_workerAt hclosed hw).kill, fun j v hj hv => ?_⟩
      obtain ⟨-, rfl⟩ | ⟨hji, hv⟩ := workers_setWorker hi hv
      · exact w.leaves_kill
      · exact hleaves j v ((Nat.lt_succ_iff.mp hj).lt_of_ne hji) hv
    · next hw =>
      refine ⟨hglobals, rfl, hclosed, fun j v hj hv => ?_⟩
      obtain hlt | heq := Nat.lt_succ_iff_lt_or_eq.mp hj
      · exact hleaves j v hlt hv
      · rw [← heq, workerAt_eq j.isLt, hv] at hw
        cases hw
  case wait i =>
    split at hs
    · obtain rfl := Option.some.inj hs
      exact ⟨hglobals, rfl, hclosed, fun _ _ hi => absurd hi (Nat.not_lt_zero _)⟩
    next hi =>
    have hi := not_le.mp hi
    split at hs
    · next w hw =>
      split at hs
      · cases hs
      obtain rfl := Option.some.inj hs
      refine ⟨(globals_setWorker _ _).trans hglobals, rfl,
        closed_setWorker hclosed hi (closed_workerAt hclosed hw).reap, fun j v hj hv => ?_⟩
      obtain ⟨hji, rfl⟩ | ⟨-, hv⟩ := workers_setWorker hi hv
      · rw [workerAt_eq hi] at hw
        exact (hleaves ⟨i, hi⟩ w hi hw).reap
      · exact hleaves j v hj hv
    · obtain rfl := Option.some.inj hs
      exact ⟨hglobals, rfl, hclosed, hleaves⟩
  case closing | cleanMemory | cleanContext =>
    obtain rfl := Option.some.inj hs
    exact ⟨hglobals, rfl, hclosed, hleaves⟩
  case exited => cases hs

theorem Told.step (h : s.Told) (hs : s.step e = some t) : t.Told := by
  obtain ⟨ok, -, hs⟩ | ⟨-, -, rfl⟩ | ⟨-, -, -, rfl⟩ | ⟨i, we, w, w', -, hw, hw', rfl⟩ :=
    step_cases hs
  · exact h.advance hs
  · exact h.handle
  · refine ⟨h.globals, h.place_woken, closed_reapAll h.closed, fun j v hj hv => ?_⟩
    obtain ⟨w, hw, rfl⟩ := Option.map_eq_some_iff.mp hv
    exact (h.leaves j w (hj.trans_eq (MasterAt.told_woken _)) hw).reap
  · refine ⟨h.globals, h.place, closed_workerStep h.closed hw hw', fun j v hj hv => ?_⟩
    obtain ⟨rfl, rfl⟩ | ⟨-, hv⟩ := workers_workerStep hv
    · exact (h.leaves j w hj hw).step (h.closed j w hw) hw'
    · exact h.leaves j v hj hv

/-- **A server that has been told to stop has a step to take**, until it has exited. -/
theorem Told.moves (h : s.Told) : s.place.ended ∨ ∃ e : ServerEvent, e.own ∧ (s.step e).isSome := by
  have hmaster : (s.advance true).isSome → ∃ e : ServerEvent, e.own ∧ (s.step e).isSome :=
    fun hs => ⟨.master true, rfl, hs⟩
  have hplace := h.place
  cases hp : s.place <;> rw [hp] at hplace
  case exited => exact .inl rfl
  case context | memory | socket | toPause | paused => cases hplace
  case wait i =>
    right
    by_cases hi : maxWorkers ≤ i
    · exact hmaster (by simp [Server.advance, hp, hi])
    cases hw : s.workerAt i with
    | none => exact hmaster (by simp [Server.advance, hp, hi, hw])
    | some w =>
      by_cases ha : w.Alive
      · rw [workerAt_eq (not_le.mp hi)] at hw
        have hleaves : w.Leaves := h.leaves _ w (by rw [hp]; exact not_le.mp hi) hw
        obtain ⟨e, he, hstep⟩ := hleaves.moves ha
        refine ⟨.worker ⟨i, not_le.mp hi⟩ e, he, ?_⟩
        rw [Server.step, hw, Option.bind_some, Option.isSome_map]
        exact hstep
      · exact hmaster (by simp [Server.advance, hp, hi, hw, ha])
  all_goals exact .inr (hmaster (by simp only [Server.advance, hp]; rfl))

/-! ## Every run -/

/-- Where the master was when it was first told to stop. -/
def firstSignal : Server → List ServerEvent → Option MasterAt
  | _, [] => none
  | s, .signal :: _ => some s.place
  | s, e :: es => (s.step e).bind fun t => firstSignal t es

theorem firstSignal_cons (he : e ≠ .signal) (hs : s.step e = some t) (es : List ServerEvent) :
    s.firstSignal (e :: es) = t.firstSignal es := by
  cases e with
  | signal => exact absurd rfl he
  | master | sigchld | worker => rw [firstSignal, hs, Option.bind_some]; nofun

/-- A server that is first told to stop where it hears the signal. -/
theorem Untold.told (h : s.Untold) {es : List ServerEvent} (hs : run Server.step s es = some t)
    {p : MasterAt} (hfirst : s.firstSignal es = some p) (hp : p.hears) : t.Told := by
  induction es generalizing s with
  | nil => cases hfirst
  | cons e es ih =>
    obtain ⟨r, hr, hs⟩ := run_cons.mp hs
    by_cases he : e = .signal
    · subst he
      obtain rfl := Option.some.inj hfirst
      obtain ⟨-, ⟨⟩⟩ := Option.ite_none_left_eq_some.mp hr
      exact run_invariant (fun _ _ _ hstep ht => Told.step ht hstep) hs (h.handle hp)
    · rw [firstSignal_cons he hr] at hfirst
      exact ih (h.step hr he) hs hfirst

/-- **The server gets to its exit from here**, whatever happens outside. -/
def Stops (s : Server) : Prop :=
  Ends Server.step ServerEvent.own (fun s => s.place.ended = true) 102 2 s

theorem Told.stops (h : s.Told) : s.Stops :=
  .of_invariant (fun _ _ _ hstep ht => Told.step ht hstep) (fun _ ht => ht.moves)
    (fun _ _ _ hstep _ ho => rank_own hstep ho) (fun _ _ _ hstep _ => rank_other hstep) h s.rank_le

/-- The own events. -/
def ownEvents : List ServerEvent :=
  [.master true, .master false, .sigchld] ++ (List.finRange maxWorkers).flatMap fun i =>
    [.worker i .ready, .worker i .refused, .worker i .sigterm]

theorem mem_ownEvents (he : e.own) : e ∈ ownEvents := by
  cases e with
  | master ok => cases ok <;> decide
  | sigchld => decide
  | signal => cases he
  | worker i we =>
    refine List.mem_append_right _ (List.mem_flatMap.mpr ⟨i, List.mem_finRange i, ?_⟩)
    cases we with
    | ready | refused | sigterm => simp
    | accept | hangup | sigint | term | crash => cases he

/-- No own event can happen, and the master has not exited. -/
def stuck (s : Server) : Bool := !s.place.ended && ownEvents.all fun e => (s.step e).isNone

theorem not_stops_of_stuck (h : s.stuck) : ¬ s.Stops := by
  intro hs
  obtain ⟨hend, hall⟩ := (Bool.and_eq_true _ _).mp h
  obtain hgoal | ⟨e, he, hstep⟩ := hs.moves_now
  · rw [hgoal] at hend
    cases hend
  · have hnone := List.all_eq_true.mp hall e (mem_ownEvents he)
    rw [Option.isNone_iff_eq_none.mp hnone] at hstep
    cases hstep

end Server

/-- The signal comes `n` actions after the start of the master, before it has its socket: a worker
that gets the `SIGTERM` of the master before it has set its own handler loses it. -/
def toldEarly (n : ℕ) : List ServerEvent :=
  List.replicate n (.master true) ++ .signal :: List.replicate (6 - n) (.master true) ++
    List.replicate 4 (.master false) ++ List.replicate 8 (.master true) ++
    [.worker firstWorker .sigterm, .worker firstWorker .ready]

/-- The signal comes between the test of `keep_running` and `pause`. -/
def toldBetween : List ServerEvent :=
  List.replicate 12 (.master true) ++ [.signal, .master true] ++
    (List.finRange maxWorkers).map fun i => .worker i .ready

theorem exists_stuck {p : MasterAt} (hp : p.hears = false) : ∃ es s,
    run Server.step .boot es = some s ∧ Server.firstSignal .boot es = some p ∧ s.stuck := by
  have hrun : ∀ es, Server.firstSignal .boot es = some p →
      (run Server.step .boot es).map Server.stuck = some true → ∃ es s,
        run Server.step .boot es = some s ∧ Server.firstSignal .boot es = some p ∧ s.stuck :=
    fun es hfirst hstuck => by
      obtain ⟨s, hs, hstuck⟩ := Option.map_eq_some_iff.mp hstuck
      exact ⟨es, s, hs, hfirst, hstuck⟩
  cases p with
  | context => exact hrun (toldEarly 0) (by decide) (by decide)
  | memory => exact hrun (toldEarly 1) (by decide) (by decide)
  | socket => exact hrun (toldEarly 2) (by decide) (by decide)
  | toPause => exact hrun toldBetween (by decide) (by decide)
  | _ => cases hp

/-- **The server stops when it is told to**, whatever else happens, just in case the first signal
does not come before the master has its socket, nor between the test of `keep_running` and
`pause`. -/
theorem server_stops_iff (p : MasterAt) :
    (∀ es s, run Server.step .boot es = some s → Server.firstSignal .boot es = some p → s.Stops) ↔
      p.hears := by
  refine ⟨fun h => ?_, fun hp es s hs hfirst => (Server.untold_boot.told hs hfirst hp).stops⟩
  by_contra hp
  obtain ⟨es, s, hs, hfirst, hstuck⟩ := exists_stuck (eq_false_of_ne_true hp)
  exact Server.not_stops_of_stuck hstuck (h es s hs hfirst)

end BankingSystem
