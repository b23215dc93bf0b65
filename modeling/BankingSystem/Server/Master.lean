import BankingSystem.Machinery.Trace

/-!
# Server/Master — the processes of the server (`server/banking_server.c`)

`main` acquires a TLS context, the shared memory and a socket, forks the workers, sleeps until it is
told to stop, and then stops the workers, waits for them and releases what it has.  A process has
its own copy of the globals, and a worker the handlers of the master until it sets one itself.
Signals come at any time (`Server.step`).
-/

namespace BankingSystem

open Trace

/-! ## The code -/

/-- `MAX_WORKERS`. -/
def maxWorkers : ℕ := 5

/-- The worker that is forked first. -/
def firstWorker : Fin maxWorkers := ⟨0, by decide⟩

/-- The globals of a process: `keep_running`, and whether `server_fd` is a descriptor. -/
structure Globals where
  keepRunning : Bool
  listening : Bool
  deriving DecidableEq

/-- `signal_handler`. -/
def signalHandler (g : Globals) : Globals := if g.keepRunning then ⟨false, false⟩ else g

/-- Where a worker is: before it sets its own handler, in `accept`, with a client, ended but not
waited for, and gone. -/
inductive WorkerAt where
  | starting
  | accepting
  | serving
  | zombie
  | reaped
  deriving DecidableEq

/-- A worker process, with whether a `SIGTERM` is pending. -/
structure WorkerProcess where
  place : WorkerAt
  globals : Globals
  sigterm : Bool
  deriving DecidableEq

/-- What `accept` returns on an open socket. -/
inductive Accepted where
  | connection
  | interrupted
  | failed
  deriving DecidableEq

/-- What happens to a worker. -/
inductive WorkerEvent where
  /-- `signal(SIGTERM, worker_signal_handler)`. -/
  | ready
  | accept (r : Accepted)
  /-- `accept` on the socket it has closed. -/
  | refused
  /-- The connection of the client ends. -/
  | hangup
  /-- The pending `SIGTERM` is delivered. -/
  | sigterm
  /-- A `SIGINT`, such as a terminal sends to all processes. -/
  | sigint
  /-- A `SIGTERM` that the master has not sent. -/
  | term
  /-- Any other end. -/
  | crash
  deriving DecidableEq

namespace WorkerProcess

/-- It is not yet waited for, nor has it ended. -/
def Alive (w : WorkerProcess) : Prop := w.place ≠ .zombie ∧ w.place ≠ .reaped

instance (w : WorkerProcess) : Decidable w.Alive := inferInstanceAs (Decidable (_ ∧ _))

/-- `kill(pid, SIGTERM)`. -/
def kill (w : WorkerProcess) : WorkerProcess := if w.Alive then { w with sigterm := true } else w

/-- `waitpid`, once it has ended. -/
def reap (w : WorkerProcess) : WorkerProcess :=
  if w.place = .zombie then { w with place := .reaped } else w

/-- `worker_main`, event by event. -/
def step (w : WorkerProcess) : WorkerEvent → Option WorkerProcess
  | .ready => if w.place = .starting then some { w with place := .accepting } else none
  | .accept r =>
    if w.place = .accepting ∧ w.globals.listening then
      match r with
      | .connection => some { w with place := .serving }
      | .interrupted => some { w with place := .zombie }
      | .failed => some w
    else none
  | .refused =>
    if w.place = .accepting ∧ ¬ w.globals.listening then some { w with place := .zombie } else none
  | .hangup => if w.place = .serving then some { w with place := .accepting } else none
  | .sigterm =>
    if ¬ w.sigterm then none else
    match w.place with
    -- still the handler of the master
    | .starting => some { w with globals := signalHandler w.globals, sigterm := false }
    | .accepting | .serving => some { w with place := .zombie }
    | .zombie | .reaped => none
  | .sigint => if w.Alive then some { w with globals := signalHandler w.globals } else none
  | .term => if w.Alive then some w.kill else none
  | .crash => if w.Alive then some { w with place := .zombie } else none

end WorkerProcess

/-- Where `main` is: at a call of its startup, at a turn of one of its loops, at the test of
`keep_running`, before `pause` and in it, at a step of its cleanup, or at its exit. -/
inductive MasterAt where
  | context
  | memory
  | socket
  | bind
  | listen
  | fork (i : ℕ)
  | test
  | toPause
  | paused
  | kill (i : ℕ)
  | wait (i : ℕ)
  | closing
  | cleanMemory (status : ℕ)
  | cleanContext (status : ℕ)
  | exited (status : ℕ)
  deriving DecidableEq

/-- `pause` returns after a handler. -/
def MasterAt.woken : MasterAt → MasterAt
  | .paused => .test
  | p => p

/-- The master has exited. -/
def MasterAt.ended : MasterAt → Bool
  | .exited _ => true
  | _ => false

/-- **The processes of the server**: where the master is and its globals, whether a `SIGCHLD` is
pending, whether it holds the TLS context, the shared memory and the socket, and `worker_pids`. -/
structure Server where
  place : MasterAt
  globals : Globals
  sigchld : Bool
  context : Bool
  memory : Bool
  socket : Bool
  workers : Fin maxWorkers → Option WorkerProcess

/-- What happens to the server. -/
inductive ServerEvent where
  /-- The next action of `main`, with whether the call in it succeeds. -/
  | master (ok : Bool)
  /-- A `SIGINT` or `SIGTERM` at the master. -/
  | signal
  /-- The pending `SIGCHLD` is delivered to the master. -/
  | sigchld
  | worker (i : Fin maxWorkers) (e : WorkerEvent)
  deriving DecidableEq

namespace Server

/-- `main` after it has set its handlers. -/
def boot : Server where
  place := .context
  globals := ⟨true, false⟩
  sigchld := false
  context := false
  memory := false
  socket := false
  workers _ := none

/-- The process `i` of `worker_pids`, if `fork` gave one. -/
def workerAt (s : Server) (i : ℕ) : Option WorkerProcess :=
  if h : i < maxWorkers then s.workers ⟨i, h⟩ else none

/-- `worker_pids[i]` changes. -/
def setWorker (s : Server) (i : ℕ) (w : WorkerProcess) : Server :=
  if h : i < maxWorkers then { s with workers := Function.update s.workers ⟨i, h⟩ (some w) } else s

/-- The next action of `main`, if it does not wait. -/
def advance (ok : Bool) (s : Server) : Option Server :=
  match s.place with
  | .context =>
    some <| if ok then { s with place := .memory, context := true }
      else { s with place := .exited 1 }
  | .memory =>
    some <| if ok then { s with place := .socket, memory := true }
      else { s with place := .cleanContext 1 }
  | .socket =>
    some <| if ok then
      { s with place := .bind, globals.listening := true, socket := true }
      else { s with place := .cleanMemory 1 }
  | .bind =>
    -- a descriptor that the handler has closed cannot be bound
    some <| if ok ∧ s.globals.listening then { s with place := .listen }
      else { s with place := .cleanMemory 1, socket := false }
  | .listen =>
    some <| if ok ∧ s.globals.listening then { s with place := .fork 0 }
      else { s with place := .cleanMemory 1, socket := false }
  | .fork i =>
    some <| if maxWorkers ≤ i then { s with place := .test }
      else if ok then { s.setWorker i ⟨.starting, s.globals, false⟩ with place := .fork (i + 1) }
      else { s with place := .fork (i + 1) }
  | .test => some { s with place := if s.globals.keepRunning then .toPause else .kill 0 }
  | .toPause => some { s with place := .paused }
  | .paused => none
  | .kill i =>
    some <| if maxWorkers ≤ i then { s with place := .wait 0 } else
      match s.workerAt i with
      | some w => { s.setWorker i w.kill with place := .kill (i + 1) }
      | none => { s with place := .kill (i + 1) }
  | .wait i =>
    if maxWorkers ≤ i then some { s with place := .closing } else
    match s.workerAt i with
    | some w => if w.Alive then none else some { s.setWorker i w.reap with place := .wait (i + 1) }
    | none => some { s with place := .wait (i + 1) }
  | .closing =>
    some { s with place := .cleanMemory 0, socket := s.socket && !s.globals.listening }
  | .cleanMemory status => some { s with place := .cleanContext status, memory := false }
  | .cleanContext status => some { s with place := .exited status, context := false }
  | .exited _ => none

/-- `signal_handler`, at the master. -/
def handle (s : Server) : Server :=
  { s with
    place := s.place.woken
    globals := signalHandler s.globals
    socket := s.socket && !(s.globals.keepRunning && s.globals.listening) }

/-- `sigchld_handler`. -/
def reapAll (s : Server) : Server :=
  { s with
    place := s.place.woken
    sigchld := false
    workers := fun i => (s.workers i).map WorkerProcess.reap }

/-- A worker changes, and the master gets a `SIGCHLD` if it ends. -/
def workerStep (s : Server) (i : Fin maxWorkers) (w : WorkerProcess) : Server :=
  { s with
    sigchld := s.sigchld || w.place = .zombie
    workers := Function.update s.workers i (some w) }

/-- **The server, event by event.** -/
def step (s : Server) : ServerEvent → Option Server
  | .master ok => s.advance ok
  | .signal => if s.place.ended then none else some s.handle
  | .sigchld => if s.sigchld ∧ ¬ s.place.ended then some s.reapAll else none
  | .worker i e => (s.workers i).bind fun w => (w.step e).map (s.workerStep i)

end Server

/-! ## What happens by itself -/

/-- What a worker does without a client or a signal from outside. -/
def WorkerEvent.own : WorkerEvent → Bool
  | .ready | .refused | .sigterm => true
  | .accept _ | .hangup | .sigint | .term | .crash => false

/-- What the server does without a client or a signal from outside. -/
def ServerEvent.own : ServerEvent → Bool
  | .master _ | .sigchld => true
  | .signal => false
  | .worker _ e => e.own

/-! ## One event -/

/-- **What an event does to a worker.** -/
inductive WorkerProcess.Steps (w : WorkerProcess) : WorkerEvent → WorkerProcess → Prop
  | ready : w.place = .starting → Steps w .ready { w with place := .accepting }
  | connection : w.place = .accepting → w.globals.listening →
    Steps w (.accept .connection) { w with place := .serving }
  | interrupted : w.place = .accepting → w.globals.listening →
    Steps w (.accept .interrupted) { w with place := .zombie }
  | failed : w.place = .accepting → w.globals.listening → Steps w (.accept .failed) w
  | refused : w.place = .accepting → w.globals.listening = false →
    Steps w .refused { w with place := .zombie }
  | hangup : w.place = .serving → Steps w .hangup { w with place := .accepting }
  | early : w.place = .starting → w.sigterm →
    Steps w .sigterm { w with globals := signalHandler w.globals, sigterm := false }
  | sigterm : w.place = .accepting ∨ w.place = .serving → w.sigterm →
    Steps w .sigterm { w with place := .zombie }
  | sigint : w.Alive → Steps w .sigint { w with globals := signalHandler w.globals }
  | term : w.Alive → Steps w .term w.kill
  | crash : w.Alive → Steps w .crash { w with place := .zombie }

theorem WorkerProcess.steps {w w' : WorkerProcess} {e : WorkerEvent} (h : w.step e = some w') :
    w.Steps e w' := by
  cases e with
  | ready =>
    obtain ⟨hp, ⟨⟩⟩ := Option.ite_none_right_eq_some.mp h
    exact .ready hp
  | accept r =>
    obtain ⟨⟨hp, hl⟩, h⟩ := Option.ite_none_right_eq_some.mp h
    cases r with
    | connection =>
      obtain rfl := Option.some.inj h
      exact .connection hp hl
    | interrupted =>
      obtain rfl := Option.some.inj h
      exact .interrupted hp hl
    | failed =>
      obtain rfl := Option.some.inj h
      exact .failed hp hl
  | refused =>
    obtain ⟨⟨hp, hl⟩, ⟨⟩⟩ := Option.ite_none_right_eq_some.mp h
    exact .refused hp (eq_false_of_ne_true hl)
  | hangup =>
    obtain ⟨hp, ⟨⟩⟩ := Option.ite_none_right_eq_some.mp h
    exact .hangup hp
  | sigterm =>
    obtain ⟨hs, h⟩ := Option.ite_none_left_eq_some.mp h
    have hs := not_not.mp hs
    cases hp : w.place <;> rw [hp] at h <;> cases h
    · simpa only [hp] using Steps.early hp hs
    · exact .sigterm (.inl hp) hs
    · exact .sigterm (.inr hp) hs
  | sigint =>
    obtain ⟨ha, ⟨⟩⟩ := Option.ite_none_right_eq_some.mp h
    exact .sigint ha
  | term =>
    obtain ⟨ha, ⟨⟩⟩ := Option.ite_none_right_eq_some.mp h
    exact .term ha
  | crash =>
    obtain ⟨ha, ⟨⟩⟩ := Option.ite_none_right_eq_some.mp h
    exact .crash ha

section Steps

variable {s t : Server} {e : ServerEvent}

/-- What an event is. -/
theorem Server.step_cases (h : s.step e = some t) :
    (∃ ok, e = .master ok ∧ s.advance ok = some t) ∨
      (e = .signal ∧ s.place.ended = false ∧ t = s.handle) ∨
      (e = .sigchld ∧ s.sigchld ∧ s.place.ended = false ∧ t = s.reapAll) ∨
      ∃ i we w w', e = .worker i we ∧ s.workers i = some w ∧ w.step we = some w' ∧
        t = s.workerStep i w' := by
  cases e with
  | master ok => exact .inl ⟨ok, rfl, h⟩
  | signal =>
    rw [step] at h
    split at h
    · cases h
    · next hc => exact .inr (.inl ⟨rfl, eq_false_of_ne_true hc, (Option.some.inj h).symm⟩)
  | sigchld =>
    rw [step] at h
    split at h
    · next hc =>
      exact .inr (.inr (.inl ⟨rfl, hc.1, eq_false_of_ne_true hc.2, (Option.some.inj h).symm⟩))
    · cases h
  | worker i we =>
    obtain ⟨w, hw, h⟩ := Option.bind_eq_some_iff.mp h
    obtain ⟨w', hw', rfl⟩ := Option.map_eq_some_iff.mp h
    exact .inr (.inr (.inr ⟨i, we, w, w', rfl, hw, hw', rfl⟩))

theorem Server.setWorker_eq {i : ℕ} (hi : i < maxWorkers) (w : WorkerProcess) :
    s.setWorker i w = { s with workers := Function.update s.workers ⟨i, hi⟩ (some w) } :=
  dif_pos hi

/-- A worker is the one that was set, or as it was. -/
theorem Server.workers_setWorker {i : ℕ} (hi : i < maxWorkers) {w v : WorkerProcess}
    {j : Fin maxWorkers} (h : (s.setWorker i w).workers j = some v) :
    j.val = i ∧ v = w ∨ j.val ≠ i ∧ s.workers j = some v := by
  rw [setWorker_eq hi] at h
  change Function.update s.workers ⟨i, hi⟩ (some w) j = some v at h
  by_cases hj : j = ⟨i, hi⟩
  · rw [hj, Function.update_self] at h
    exact .inl ⟨congrArg Fin.val hj, (Option.some.inj h).symm⟩
  · rw [Function.update_of_ne hj] at h
    exact .inr ⟨fun hval => hj (Fin.ext hval), h⟩

theorem Server.workers_workerStep {i j : Fin maxWorkers} {w v : WorkerProcess}
    (h : (s.workerStep i w).workers j = some v) :
    j = i ∧ v = w ∨ j ≠ i ∧ s.workers j = some v := by
  change Function.update s.workers i (some w) j = some v at h
  by_cases hj : j = i
  · rw [hj, Function.update_self] at h
    exact .inl ⟨hj, (Option.some.inj h).symm⟩
  · rw [Function.update_of_ne hj] at h
    exact .inr ⟨hj, h⟩

theorem Server.workerAt_eq {i : ℕ} (hi : i < maxWorkers) : s.workerAt i = s.workers ⟨i, hi⟩ :=
  dif_pos hi

end Steps

end BankingSystem
