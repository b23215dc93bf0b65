import BankingSystem.Account.Locking
import BankingSystem.Machinery.Exits

/-!
# Account/Shutdown — SIGTERM in the middle of an account operation (`worker_signal_handler`)

The handler of a worker calls `exit(0)` at once, and the mutexes of the shared table are not robust:
what the worker had locked stays locked.  So the other workers go on unharmed exactly when every
SIGTERM finds its worker outside the region that begins with the lock of `db_lock` and ends with the
last unlock (`shutdown_iff`).
-/

namespace BankingSystem

open Interleave Machine

universe u v

variable {α : Type u} {W : Type v}

/-- `worker_signal_handler(SIGTERM)` in worker `w`: `exit(0)`. -/
def workerSignalHandler (w : W) : Event W (AccountOp α) := .exit w

variable [Arith α] [DecidableEq W]

/-- **The workers that are left are unharmed throughout a run exactly when every SIGTERM finds its
worker with no operation in flight, or before the lock of `db_lock`, or after its last unlock.** -/
theorem shutdown_iff (db₀ : AccountDB α) (events : List (Event W (AccountOp α))) :
    (∀ before later, events = before ++ later →
      (exitsAfter AccountOp.prog .dbLock db₀ before).Unharmed .dbLock) ↔
    ∀ before w later, events = before ++ workerSignalHandler w :: later →
      w ∈ (exitsAfter AccountOp.prog .dbLock db₀ before).exited ∨
        (exitsAfter AccountOp.prog .dbLock db₀ before).config.Clear .dbLock w := by
  refine (accountLayout.unharmed_iff AccountOp.entry db₀ events).symm.trans (along_iff.trans ?_)
  refine ⟨fun h before w later => h before (.exit w) later, fun h before event later hevents => ?_⟩
  cases event with
  | exit w => exact h before w later hevents
  | invoke w op => trivial
  | advance w => trivial

/-- A worker that looks up a balance and is terminated inside leaves `db_lock` locked: the other one
cannot look up anything. -/
theorem not_shutdown :
    let query : AccountOp ℚ := .getBalance fun _ => 0
    let c := exitsAfter AccountOp.prog .dbLock accountInit
      [.invoke true query, .advance true, workerSignalHandler true, .invoke false query]
    c.config.owner .dbLock = some true ∧ true ∈ c.exited ∧ ¬ c.Unharmed .dbLock ∧
      false ∉ c.exited ∧ (c.config.call false).isSome ∧ c.config.advance .dbLock false = none := by
  intro query c
  have hown : c.config.owner .dbLock = some true := rfl
  have hexited : true ∈ c.exited := Finset.mem_insert_self true ∅
  exact ⟨hown, hexited, fun h => h.held .dbLock true hown hexited, by decide, rfl, rfl⟩

end BankingSystem
