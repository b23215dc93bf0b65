import BankingSystem.Client.Flow
import Mathlib.Algebra.BigOperators.Fin

/-!
# Client/Stress — the counts of the load test (`stress_test/stress_client.c`)

Each thread of `stress_client` runs the flow of `Client/Flow` as often as it is told, and `main`
adds up what the threads counted.  The loop adds one to `success_count` whatever came of the flow
and never touches `fail_count`, so the counts are right exactly when every flow goes through
(`countsFlows_iff`).  The latencies are left out.
-/

namespace BankingSystem

open Bytes CString

/-! ## The threads -/

/-- The fields of `ThreadArgs` that number and count. -/
structure ThreadArgs where
  threadId : ℕ
  numRequests : ℤ
  successCount : ℤ
  failCount : ℤ

/-- **What a thread meets**: whether it gets as far as a TLS connection, the memory `account_id`
takes and what is behind its arrays, and its flows. -/
structure StressWorker where
  connects : Bool
  memory : Block accountIdLen
  junk : CharPtr
  flow : ℕ → Flow

/-- `snprintf(account_id, sizeof(account_id), "user_%d_%d", getpid(), thread_id)`. -/
def stressAccount (pid threadId : ℕ) (memory : Block accountIdLen) : CharArray accountIdLen :=
  printedId memory (ascii "user_" ++ decimal pid ++ ascii "_" ++ decimal threadId)

/-- The loop of `worker_thread`, over the flows that are left. -/
def operationsLoop (account : CharArray accountIdLen) (junk : CharPtr) :
    List Flow → List UInt8 → ThreadArgs → Except Fault ThreadArgs
  | [], _, args => .ok args
  | f :: fs, otpCode, args => do
    let otpCode ← runFlow account junk otpCode f
    operationsLoop account junk fs otpCode { args with successCount := args.successCount + 1 }

/-- The flows of `n` iterations. -/
def StressWorker.flows (w : StressWorker) (n : ℤ) : List Flow := (List.range n.toNat).map w.flow

/-- `worker_thread`. -/
def workerThread (pid : ℕ) (w : StressWorker) (args : ThreadArgs) : Except Fault ThreadArgs :=
  if w.connects then
    operationsLoop (stressAccount pid args.threadId w.memory) w.junk (w.flows args.numRequests)
      (List.replicate 10 0) args
  else .ok args

/-- **A run of `main`**: its process id, the two numbers it is given, and its threads. -/
structure StressRun where
  pid : ℕ
  numThreads : ℕ
  reqsPerThread : ℤ
  worker : Fin numThreads → StressWorker

namespace StressRun

variable (run : StressRun)

/-- `t_args[i]` after its thread is joined. -/
def thread (i : Fin run.numThreads) : Except Fault ThreadArgs :=
  workerThread run.pid (run.worker i) ⟨i, run.reqsPerThread, 0, 0⟩

/-- `total_reqs`, an `int`. -/
def totalReqs : Except Fault ℤ :=
  (List.finRange run.numThreads).foldlM (fun total i => do
    return (total + (← run.thread i).successCount).bmod (2 ^ 32)) 0

end StressRun

/-! ## The counts of a thread -/

section Loop

variable {account : CharArray accountIdLen} {junk : CharPtr} {fs : List Flow}
  {otpCode : List UInt8} {args args' : ThreadArgs}

/-- **Every iteration counts as a success.** -/
theorem operationsLoop_counts (h : operationsLoop account junk fs otpCode args = .ok args') :
    args' = { args with successCount := args.successCount + fs.length } := by
  induction fs generalizing otpCode args with
  | nil =>
    obtain rfl := Except.ok.inj h
    simp
  | cons f fs ih =>
    rw [operationsLoop] at h
    cases hf : runFlow account junk otpCode f with
    | error e =>
      rw [hf] at h
      nomatch h
    | ok otpCode' =>
      rw [hf, ok_bind] at h
      rw [ih h, List.length_cons, Nat.cast_succ, add_assoc, add_comm 1]

/-- The loop comes to its end if the flows go through. -/
theorem operationsLoop_of_completed (h : ∀ f ∈ fs, f.Completed) :
    ∃ args', operationsLoop account junk fs otpCode args = .ok args' := by
  induction fs generalizing otpCode args with
  | nil => exact ⟨args, rfl⟩
  | cons f fs ih =>
    obtain ⟨hf, hfs⟩ := List.forall_mem_cons.mp h
    obtain ⟨otpCode', hrun⟩ := hf.runFlow account junk otpCode
    rw [operationsLoop, hrun, ok_bind]
    exact ih hfs

end Loop

namespace StressRun

variable {run : StressRun} (i : Fin run.numThreads)

/-- The flows a thread goes through; none if it does not connect. -/
def flows (run : StressRun) (i : Fin run.numThreads) : List Flow :=
  if (run.worker i).connects then (run.worker i).flows run.reqsPerThread else []

theorem flows_of_connects (h : (run.worker i).connects = true) :
    run.flows i = (run.worker i).flows run.reqsPerThread := if_pos h

theorem flows_of_not_connects (h : (run.worker i).connects = false) : run.flows i = [] := by
  rw [flows, h]
  rfl

theorem length_flows (h : (run.worker i).connects = true) :
    (run.flows i).length = run.reqsPerThread.toNat := by
  rw [flows_of_connects i h, StressWorker.flows, List.length_map, List.length_range]

/-- **A thread that ends has counted its flows as successes**, all of them. -/
theorem thread_counts {args : ThreadArgs} (h : run.thread i = .ok args) :
    args = ⟨i, run.reqsPerThread, (run.flows i).length, 0⟩ := by
  rw [thread, workerThread] at h
  cases hconn : (run.worker i).connects with
  | false =>
    rw [hconn] at h
    rw [flows_of_not_connects i hconn]
    exact (Except.ok.inj h).symm
  | true =>
    rw [hconn, if_pos rfl] at h
    rw [flows_of_connects i hconn, operationsLoop_counts h]
    simp

/-- It ends if the flows go through. -/
theorem thread_of_completed (h : ∀ f ∈ run.flows i, f.Completed) :
    run.thread i = .ok ⟨i, run.reqsPerThread, (run.flows i).length, 0⟩ := by
  obtain ⟨args, hargs⟩ : ∃ args, run.thread i = .ok args := by
    rw [thread, workerThread]
    cases hconn : (run.worker i).connects with
    | false => exact ⟨_, rfl⟩
    | true =>
      rw [flows_of_connects i hconn] at h
      rw [if_pos rfl]
      exact operationsLoop_of_completed h
  rw [hargs, thread_counts i hargs]

/-! ## The total -/

/-- Sums in 32 bits are the sum in 32 bits. -/
theorem foldlM_totals {n : ℕ} {thread : Fin n → Except Fault ThreadArgs} {count : Fin n → ℕ}
    (l : List (Fin n)) (h : ∀ i, ∃ args, thread i = .ok args ∧ args.successCount = count i)
    (total : ℤ) :
    l.foldlM (fun total i => do
      return (total + (← thread i).successCount).bmod (2 ^ 32)) (total.bmod (2 ^ 32)) =
      .ok ((total + ((l.map count).sum : ℕ)).bmod (2 ^ 32)) := by
  induction l generalizing total with
  | nil => simp [pure, Except.pure]
  | cons i l ih =>
    obtain ⟨args, hargs, hcount⟩ := h i
    rw [List.foldlM_cons, hargs]
    change l.foldlM _ ((total.bmod (2 ^ 32) + args.successCount).bmod (2 ^ 32)) = _
    rw [Int.bmod_add_bmod, ih, hcount, List.map_cons, List.sum_cons, Nat.cast_add, add_assoc]

/-- `total_reqs` is the number of all flows, in 32 bits. -/
theorem totalReqs_eq (h : ∀ i, ∃ args, run.thread i = .ok args) :
    run.totalReqs = .ok (((∑ i, (run.flows i).length : ℕ) : ℤ).bmod (2 ^ 32)) := by
  have hcount : ∀ i, ∃ args, run.thread i = .ok args ∧
      args.successCount = ((run.flows i).length : ℕ) := fun i => by
    obtain ⟨args, hargs⟩ := h i
    exact ⟨args, hargs, by rw [thread_counts i hargs]⟩
  have hfold := foldlM_totals (List.finRange run.numThreads) hcount 0
  rw [zero_add, ← Fin.sum_univ_def] at hfold
  exact hfold

/-! ## What the counts should be -/

/-- The flows of a thread that went through. -/
def completed (run : StressRun) (i : Fin run.numThreads) : ℕ :=
  (run.flows i).countP fun f => f.Completed

/-- The flows of a thread that did not. -/
def failed (run : StressRun) (i : Fin run.numThreads) : ℕ :=
  (run.flows i).countP fun f => ¬ f.Completed

/-- **The counts are right**: every thread that connects comes to its end with the flows that went
through in `success_count` and the others in `fail_count`, together `num_requests`, and the total of
`main` is that of the completed flows. -/
structure CountsFlows (run : StressRun) : Prop where
  thread : ∀ i, (run.worker i).connects = true → ∃ args, run.thread i = .ok args ∧
    args.successCount = run.completed i ∧ args.failCount = run.failed i ∧
    args.successCount + args.failCount = run.reqsPerThread
  total : run.totalReqs = .ok (∑ i, run.completed i : ℕ)

/-- **All flows go through**, no negative number of them is asked for, and an `int` holds it. -/
structure AllComplete (run : StressRun) : Prop where
  flows : ∀ i, ∀ f ∈ run.flows i, f.Completed
  nonneg : ∀ i, (run.worker i).connects = true → 0 ≤ run.reqsPerThread
  fits : ∑ i, (run.flows i).length < 2 ^ 31

theorem completed_eq_length_iff :
    run.completed i = (run.flows i).length ↔ ∀ f ∈ run.flows i, f.Completed := by
  rw [completed, List.countP_eq_length]
  simp only [decide_eq_true_eq]

theorem failed_eq_zero (h : ∀ f ∈ run.flows i, f.Completed) : run.failed i = 0 := by
  rw [failed, List.countP_eq_zero]
  simpa using h

/-- A number of flows that an `int` holds is the total. -/
theorem bmod_eq_self_iff (n : ℕ) : (n : ℤ).bmod (2 ^ 32) = n ↔ n < 2 ^ 31 := by
  constructor
  · intro h
    have hlt := Int.bmod_lt (x := n) (by decide : 0 < 2 ^ 32)
    omega
  · intro h
    exact Int.bmod_eq_of_le (by omega) (by omega)

/-- **A thread that counts right has no flow that did not go through.** -/
theorem completes_of_counts (h : run.CountsFlows) (hconn : (run.worker i).connects = true) :
    (∀ f ∈ run.flows i, f.Completed) ∧ 0 ≤ run.reqsPerThread := by
  obtain ⟨args, hargs, hsuccess, -, hsum⟩ := h.thread i hconn
  rw [thread_counts i hargs] at hsuccess hsum
  refine ⟨(completed_eq_length_iff i).mp (Nat.cast_injective hsuccess).symm, ?_⟩
  rw [← hsum]
  exact add_nonneg (Nat.cast_nonneg _) le_rfl

/-- **The counts are right exactly when all flows go through.** -/
theorem countsFlows_iff (run : StressRun) : run.CountsFlows ↔ run.AllComplete := by
  constructor
  · intro h
    have hflows : ∀ i, ∀ f ∈ run.flows i, f.Completed := fun i => by
      cases hconn : (run.worker i).connects with
      | false =>
        rw [flows_of_not_connects i hconn]
        exact fun f hf => absurd hf List.not_mem_nil
      | true => exact (completes_of_counts i h hconn).1
    have htotal := totalReqs_eq fun i => ⟨_, thread_of_completed i (hflows i)⟩
    rw [h.total,
      Fintype.sum_congr _ _ fun i => (completed_eq_length_iff i).mpr (hflows i)] at htotal
    exact ⟨hflows, fun i hconn => (completes_of_counts i h hconn).2,
      (bmod_eq_self_iff _).mp (Except.ok.inj htotal).symm⟩
  · intro h
    have hcompleted : ∀ i, run.completed i = (run.flows i).length := fun i =>
      (completed_eq_length_iff i).mpr (h.flows i)
    refine ⟨fun i hconn => ⟨_, thread_of_completed i (h.flows i), ?_, ?_, ?_⟩, ?_⟩
    · rw [hcompleted]
    · rw [failed_eq_zero i (h.flows i)]
      rfl
    · change ((run.flows i).length : ℤ) + 0 = run.reqsPerThread
      rw [add_zero, length_flows i hconn]
      exact Int.toNat_of_nonneg (h.nonneg i hconn)
    · rw [totalReqs_eq fun i => ⟨_, thread_of_completed i (h.flows i)⟩,
        (bmod_eq_self_iff _).mpr h.fits, Fintype.sum_congr _ _ hcompleted]

end StressRun

/-- A call of `perform_request` whose `tls_write` fails. -/
def unwritten : Attempt where
  reqPacket := packed opResponse [] 0
  rand := 0
  written := -1
  bytes := -1
  respPacket := packed opResponse [] 0

/-- A flow over a connection that is lost. -/
def lostFlow : Flow :=
  ⟨unwritten, unwritten, unwritten, unwritten, List.Vector.replicate sizeofBankingResponse 0⟩

/-- One thread, of one such flow. -/
def lostRun : StressRun where
  pid := 1
  numThreads := 1
  reqsPerThread := 1
  worker := fun _ => ⟨true, List.Vector.replicate accountIdLen 0, fun _ => 0, fun _ => lostFlow⟩

theorem not_completed_lostFlow : ¬ lostFlow.Completed := fun h =>
  absurd h.created.written (by decide)

theorem flows_lostRun (i : Fin lostRun.numThreads) : lostRun.flows i = [lostFlow] := rfl

theorem thread_lostRun (i : Fin lostRun.numThreads) : ∃ args, lostRun.thread i = .ok args := by
  have hloop : lostRun.thread i = runFlow (stressAccount lostRun.pid i
      (List.Vector.replicate accountIdLen 0)) (fun _ => 0) (List.replicate 10 0) lostFlow >>=
        fun _ => .ok ⟨i, 1, 0 + 1, 0⟩ := rfl
  rw [hloop, runFlow_of_not_written (by decide), ok_bind]
  exact ⟨_, rfl⟩

/-- **A flow whose first request is not even written is counted as completed.** -/
theorem not_countsFlows : ¬ lostRun.CountsFlows ∧ lostRun.totalReqs = .ok 1 ∧
    ∑ i, lostRun.completed i = 0 := by
  refine ⟨fun h => ?_, ?_, Finset.sum_eq_zero fun i _ => ?_⟩
  · have hcompleted := (StressRun.completes_of_counts ⟨0, Nat.one_pos⟩ h rfl).1
    rw [flows_lostRun] at hcompleted
    exact not_completed_lostFlow (hcompleted lostFlow List.mem_cons_self)
  · have hone : ∑ i, (lostRun.flows i).length = 1 := by
      simp only [flows_lostRun, List.length_singleton, Finset.sum_const, Finset.card_univ,
        Fintype.card_fin]
      rfl
    rw [StressRun.totalReqs_eq thread_lostRun, hone]
    rfl
  · rw [StressRun.completed, flows_lostRun]
    simp [not_completed_lostFlow]

end BankingSystem
