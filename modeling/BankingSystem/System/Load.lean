import BankingSystem.Client.Routine
import BankingSystem.Machinery.Trace
import BankingSystem.Server.Master

/-!
# System/Load — the load test against the server (`client/src/stress_test.c`)

`run_stress_test` creates its threads, joins them and adds up what they counted.  Each thread is the
`worker_routine` of `Client/Routine`, and at the other end of its connection is one of the workers
of the server, if one is free, with the loop of `Server/Connection`.  Any of them may be next.

The client does not ignore `SIGPIPE`: a write on a broken connection fails, or ends the process.
Nobody looks at what `pthread_create` returns, and the barrier counts the threads that were not
created as well.

The first record of a thread is too short for a worker, which hangs up (`Fits.serve_eq`): no thread
ever gets a response.
-/

namespace BankingSystem

open Bytes Interleave Records Trace

/-! ## The code -/

/-- Where `run_stress_test` is: at a turn of its loops, or at its report. -/
inductive ManagerAt where
  | creating (i : ℕ)
  | joining (i : ℕ)
  | reported
  deriving DecidableEq

/-- **The load test**: the manager, the threads, whether a thread has ended the process, and the
table of the server. -/
structure Load (n : ℕ) where
  manager : ManagerAt
  threads : Fin n → LoadThread
  aborted : Bool
  db : AccountDB Double

/-- What happens in a load test. -/
inductive LoadEvent (n : ℕ) where
  | manager
  | thread (i : Fin n) (e : ThreadEvent)
  /-- `client_init` cannot create its context, and calls `exit`. -/
  | initFails (i : Fin n)
  /-- A thread writes on a broken connection, and `SIGPIPE` ends the process. -/
  | sigpipe (i : Fin n)
  /-- The worker that has the connection of a thread does its next `tls_read` and what follows. -/
  | serve (i : Fin n) (locals : Locals) (otp : OtpService) (rand : ℕ)

/-- One turn of the loop of the worker that has the connection: on what it reads, or on a
connection that is closed, as those of a process that has ended are. -/
def LoadThread.serve (t : LoadThread) (aborted : Bool) (db : AccountDB Double) (locals : Locals)
    (otp : OtpService) (rand : ℕ) : Option (LoadThread × AccountDB Double) :=
  if ¬ t.served then none else
  if t.ssl.outgoing = [] then
    if t.lost ∨ t.place = .finished ∨ aborted then some ({ t with served := false }, db) else none
  else
    let (bytes, rest) := t.ssl.outgoing.read sizeofBankingPacket
    match iteration ⟨bytes, locals, otp, rand⟩ with
    | none => some ({ t with served := false, ssl := ⟨t.ssl.incoming, rest⟩ }, db)
    | some prog =>
      match prog.exec db with
      | (.ok packet, db) => some ({ t with ssl := ⟨t.ssl.incoming.write packet.bytes, rest⟩ }, db)
      | (.error _, db) => some ({ t with served := false, ssl := ⟨t.ssl.incoming, rest⟩ }, db)

/-- The thread is before a call of `client_send` or `client_close`, which writes as well. -/
def ThreadAt.writes : ThreadAt → Bool
  | .asking | .loggingIn | .sending _ => true
  | _ => false

/-- The thread has come to the barrier. -/
def ThreadAt.arrived : ThreadAt → Bool
  | .barrier _ | .sending _ | .receiving _ | .finished => true
  | _ => false

namespace Load

variable {n : ℕ}

/-- The threads that a worker serves. -/
def served (s : Load n) : Finset (Fin n) := Finset.univ.filter fun i => (s.threads i).served

/-- What a thread may have to wait for: a worker in `accept`, and all the others at the barrier. -/
def May (s : Load n) : ThreadEvent → Prop
  | .connect => s.served.card < maxWorkers
  | .leave => ∀ i, (s.threads i).place.arrived
  | _ => True

instance (s : Load n) (e : ThreadEvent) : Decidable (s.May e) := by
  cases e <;> unfold May <;> infer_instance

/-- A thread changes. -/
def setThread (s : Load n) (i : Fin n) (t : LoadThread) : Load n :=
  { s with threads := Function.update s.threads i t }

/-- One turn of the loops of `run_stress_test`, with the threads `pthread_create` can create. -/
def manage (creates : Fin n → Bool) (s : Load n) : Option (Load n) :=
  match s.manager with
  | .creating i =>
    if h : i < n then
      if creates ⟨i, h⟩ then
        some { s.setThread ⟨i, h⟩ { s.threads ⟨i, h⟩ with place := .connecting } with
          manager := .creating (i + 1) }
      else some { s with manager := .creating (i + 1) }
    else some { s with manager := .joining 0 }
  | .joining i =>
    if h : i < n then
      -- nothing is promised of a `pthread_join` on a thread that was not created
      if (s.threads ⟨i, h⟩).place = .finished then some { s with manager := .joining (i + 1) }
      else none
    else some { s with manager := .reported }
  | .reported => none

/-- **The load test, event by event.** -/
def step (requests : ℤ) (creates : Fin n → Bool) (s : Load n) : LoadEvent n → Option (Load n)
  | .manager => if s.aborted then none else s.manage creates
  | .thread i e =>
    if ¬ s.aborted ∧ s.May e then ((s.threads i).step requests i e).map (s.setThread i) else none
  | .initFails i =>
    if ¬ s.aborted ∧ (s.threads i).place = .connecting then
      some { s with aborted := true }
    else none
  | .sigpipe i =>
    if ¬ s.aborted ∧ ((s.threads i).place = .connecting ∨
        (s.threads i).lost ∧ (s.threads i).place.writes) then
      some { s with aborted := true }
    else none
  | .serve i locals otp rand =>
    ((s.threads i).serve s.aborted s.db locals otp rand).map fun r =>
      { s.setThread i r.1 with db := r.2 }

/-- A thread before its creation, with what its buffers hold. -/
def absent (memory : Block protocolHeaderSize × Block maxDataSize) : LoadThread where
  place := .absent
  ssl := ⟨[], []⟩
  lost := false
  served := false
  headerOut := memory.1.toList
  recvBuf := memory.2.toList
  successCount := 0
  failCount := 0

/-- `run_stress_test` before its first loop, against a server with this table. -/
def start (memory : Fin n → Block protocolHeaderSize × Block maxDataSize) (db : AccountDB Double) :
    Load n :=
  ⟨.creating 0, fun i => absent (memory i), false, db⟩

end Load

/-- What happens without a failure of the network. -/
def ThreadEvent.own : ThreadEvent → Bool
  | .refuse | .lose => false
  | _ => true

/-- What happens without a failure, of the network or of `client_init`. -/
def LoadEvent.own {n : ℕ} : LoadEvent n → Bool
  | .thread _ e => e.own
  | .initFails _ | .sigpipe _ => false
  | _ => true

/-! ## One thread -/

/-- Any memory of a thread. -/
def anyContext : SendContext where
  idMemory := .replicate _ 0
  amountMemory := .replicate _ 0
  junk _ := 0
  action := 0
  rand := 0
  buffer := .replicate _ 0

namespace LoadThread

variable {t t' : LoadThread} {requests : ℤ} {tid : ℕ} {e : ThreadEvent} {aborted : Bool}
  {db db' : AccountDB Double} {locals : Locals} {otp : OtpService} {rand : ℕ}

/-- **A worker that reads something short hangs up.** -/
theorem Fits.serve_eq (h : t.Fits requests)
    (hs : t.serve aborted db locals otp rand = some (t', db')) :
    ∃ rest, t' = { t with served := false, ssl := ⟨t.ssl.incoming, rest⟩ } ∧ t.served ∧ db' = db ∧
      ∀ r ∈ rest, r.length < sizeofBankingPacket := by
  obtain ⟨hserved, hs⟩ := Option.ite_none_left_eq_some.mp hs
  have hserved := not_not.mp hserved
  have hshort := h.short
  cases hout : t.ssl.outgoing with
  | nil =>
    rw [if_pos hout] at hs
    obtain ⟨-, ⟨⟩⟩ := Option.ite_none_right_eq_some.mp hs
    refine ⟨t.ssl.outgoing, rfl, hserved, rfl, hshort⟩
  | cons r rest =>
    rw [hout] at hs hshort
    obtain ⟨hr, hrest⟩ := List.forall_mem_cons.mp hshort
    have hiteration : iteration ⟨r, locals, otp, rand⟩ = none := dif_neg hr.ne
    rw [if_neg (List.cons_ne_nil _ _), read_of_le hr.le] at hs
    dsimp only at hs
    rw [hiteration] at hs
    obtain ⟨rfl, rfl⟩ := Prod.mk.inj (Option.some.inj hs)
    exact ⟨rest, rfl, hserved, rfl, hrest⟩

theorem Fits.serve (h : t.Fits requests)
    (hs : t.serve aborted db locals otp rand = some (t', db')) :
    t'.Fits requests := by
  obtain ⟨rest, rfl, -, -, hrest⟩ := h.serve_eq hs
  exact ⟨h.unanswered, hrest, nofun, h.success, h.fails⟩

/-- **A worker that serves a thread hangs up**, unless the thread has yet to ask. -/
theorem Fits.serves (h : t.Fits requests) (hserved : t.served) (hasking : t.place ≠ .asking) :
    (t.serve aborted db locals otp rand).isSome := by
  rw [LoadThread.serve, if_neg (not_not.mpr hserved)]
  cases hout : t.ssl.outgoing with
  | nil =>
    have hclosed : t.lost ∨ t.place = .finished ∨ aborted := by
      obtain hfinished | hne | hlost := (h.heard hserved).resolve_left hasking
      · exact .inr (.inl hfinished)
      · exact absurd hout hne
      · exact .inl hlost
    rw [if_pos rfl, if_pos hclosed, Option.isSome_some]
  | cons r rest =>
    have hr := h.short r (by rw [hout]; exact List.mem_cons_self)
    have hiteration : iteration ⟨r, locals, otp, rand⟩ = none := dif_neg hr.ne
    rw [if_neg (List.cons_ne_nil _ _), read_of_le hr.le]
    dsimp only
    rw [hiteration, Option.isSome_some]

end LoadThread

/-! ## What an event does -/

namespace Load

variable {n : ℕ} {requests : ℤ} {creates : Fin n → Bool} {s s' : Load n} {e : LoadEvent n}

/-- **What an event does.** -/
inductive Steps (requests : ℤ) (creates : Fin n → Bool) (s : Load n) :
    LoadEvent n → Load n → Prop
  | create (i : Fin n) : s.manager = .creating i → creates i → Steps requests creates s .manager
    { s.setThread i { s.threads i with place := .connecting } with manager := .creating (i + 1) }
  | skip (i : Fin n) : s.manager = .creating i → creates i = false →
    Steps requests creates s .manager { s with manager := .creating (i + 1) }
  | created (i : ℕ) : s.manager = .creating i → n ≤ i →
    Steps requests creates s .manager { s with manager := .joining 0 }
  | join (i : Fin n) : s.manager = .joining i → (s.threads i).place = .finished →
    Steps requests creates s .manager { s with manager := .joining (i + 1) }
  | report (i : ℕ) : s.manager = .joining i → n ≤ i →
    Steps requests creates s .manager { s with manager := .reported }
  | thread (i : Fin n) (e : ThreadEvent) (t : LoadThread) : s.May e →
    (s.threads i).step requests i e = some t →
    Steps requests creates s (.thread i e) (s.setThread i t)
  | initFails (i : Fin n) : s.aborted = false →
    Steps requests creates s (.initFails i) { s with aborted := true }
  | sigpipe (i : Fin n) : s.aborted = false →
    Steps requests creates s (.sigpipe i) { s with aborted := true }
  | serve (i : Fin n) (locals : Locals) (otp : OtpService) (rand : ℕ) (t : LoadThread)
    (db : AccountDB Double) :
    (s.threads i).serve s.aborted s.db locals otp rand = some (t, db) →
    Steps requests creates s (.serve i locals otp rand) { s.setThread i t with db := db }

theorem steps (h : s.step requests creates e = some s') : s.Steps requests creates e s' := by
  cases e with
  | manager =>
    obtain ⟨-, h⟩ := Option.ite_none_left_eq_some.mp h
    cases hm : s.manager with
    | creating i =>
      simp only [manage, hm] at h
      split at h
      · next hi =>
        split at h
        · next hc =>
          obtain rfl := Option.some.inj h
          exact .create ⟨i, hi⟩ hm hc
        · next hc =>
          obtain rfl := Option.some.inj h
          exact .skip ⟨i, hi⟩ hm (eq_false_of_ne_true hc)
      · next hi =>
        obtain rfl := Option.some.inj h
        exact .created i hm (not_lt.mp hi)
    | joining i =>
      simp only [manage, hm] at h
      split at h
      · next hi =>
        obtain ⟨hp, ⟨⟩⟩ := Option.ite_none_right_eq_some.mp h
        exact .join ⟨i, hi⟩ hm hp
      · next hi =>
        obtain rfl := Option.some.inj h
        exact .report i hm (not_lt.mp hi)
    | reported =>
      simp only [manage, hm] at h
      cases h
  | thread i e =>
    obtain ⟨⟨-, hmay⟩, h⟩ := Option.ite_none_right_eq_some.mp h
    obtain ⟨t, ht, rfl⟩ := Option.map_eq_some_iff.mp h
    exact .thread i e t hmay ht
  | initFails i =>
    obtain ⟨⟨haborted, -⟩, ⟨⟩⟩ := Option.ite_none_right_eq_some.mp h
    exact .initFails i (eq_false_of_ne_true haborted)
  | sigpipe i =>
    obtain ⟨⟨haborted, -⟩, ⟨⟩⟩ := Option.ite_none_right_eq_some.mp h
    exact .sigpipe i (eq_false_of_ne_true haborted)
  | serve i locals otp rand =>
    obtain ⟨r, hr, rfl⟩ := Option.map_eq_some_iff.mp h
    exact .serve i locals otp rand r.1 r.2 hr

end Load

end BankingSystem
