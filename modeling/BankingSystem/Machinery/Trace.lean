import Mathlib.Algebra.BigOperators.Group.Finset.Basic
import Mathlib.Algebra.Order.BigOperators.Group.Finset

/-!
# Machinery/Trace — machines that events drive

An event happens in a state or cannot (`step : σ → ε → Option σ`), and a run is a list of events
that all happen.  Some events are the machine's own and the others come from outside.  A machine
`Ends` if, whatever comes from outside, it does not stop before it is done and has only so many
steps of its own to make.  The rule (`Ends.of_invariant`) is an invariant under which an own event
can happen, and a measure that every own event lowers and no other raises by more than `k`.
-/

namespace Trace

universe u v

variable {σ : Type u} {ε : Type v} {step : σ → ε → Option σ} {s t r : σ} {e : ε} {es es' : List ε}

/-! ## Runs -/

/-- Where the events lead, if they all happen. -/
def run (step : σ → ε → Option σ) : σ → List ε → Option σ
  | s, [] => some s
  | s, e :: es => (step s e).bind fun t => run step t es

theorem run_cons : run step s (e :: es) = some t ↔
    ∃ r, step s e = some r ∧ run step r es = some t := Option.bind_eq_some_iff

/-- An invariant of some events is an invariant of the runs of these. -/
theorem run_invariant_on {P : σ → Prop} {ok : ε → Prop}
    (hstep : ∀ s e t, ok e → step s e = some t → P s → P t) (hok : ∀ e ∈ es, ok e)
    (h : run step s es = some t) (hs : P s) : P t := by
  induction es generalizing s with
  | nil => exact Option.some.inj h ▸ hs
  | cons e es ih =>
    obtain ⟨r, hr, h⟩ := run_cons.mp h
    obtain ⟨he, hok⟩ := List.forall_mem_cons.mp hok
    exact ih hok h (hstep _ _ _ he hr hs)

/-- **An invariant of every event is an invariant of every run.** -/
theorem run_invariant {P : σ → Prop} (hstep : ∀ s e t, step s e = some t → P s → P t)
    (h : run step s es = some t) (hs : P s) : P t :=
  run_invariant_on (fun s e t _ => hstep s e t) (fun _ _ => trivial) h hs

/-! ## Ending -/

/-- **The own events of a run are as many as a measure allows.** -/
theorem countP_own_le {I : σ → Prop} {μ : σ → ℕ} {own : ε → Bool} {k : ℕ}
    (hstep : ∀ s e t, step s e = some t → I s → I t)
    (hown : ∀ s e t, step s e = some t → I s → own e → μ t < μ s)
    (hother : ∀ s e t, step s e = some t → I s → μ t ≤ μ s + k) (h : run step s es = some t)
    (hs : I s) : es.countP own + μ t ≤ μ s + k * es.countP (fun e => !own e) := by
  induction es generalizing s with
  | nil =>
    obtain rfl := Option.some.inj h
    exact (Nat.zero_add _).le
  | cons e es ih =>
    obtain ⟨r, hr, h⟩ := run_cons.mp h
    have hrest := ih h (hstep _ _ _ hr hs)
    by_cases he : own e
    · have hlt := hown _ _ _ hr hs he
      rw [List.countP_cons_of_pos he, List.countP_cons_of_neg (by simp [he])]
      omega
    · have hle := hother _ _ _ hr hs
      rw [List.countP_cons_of_neg he, List.countP_cons_of_pos (by simp [he]), Nat.mul_succ]
      omega

/-- **The machine gets to its goal from here, whatever comes from outside**: until it is there an
own event can happen, and there are at most `n` of these and `k` more for every other event. -/
structure Ends (step : σ → ε → Option σ) (own : ε → Bool) (goal : σ → Prop) (n k : ℕ) (s : σ) :
    Prop where
  moves : ∀ {es t}, run step s es = some t → goal t ∨ ∃ e, own e ∧ (step t e).isSome
  bounded : ∀ {es t}, run step s es = some t →
    es.countP own ≤ n + k * es.countP (fun e => !own e)

/-- It is there already, or an own event can happen now. -/
theorem Ends.moves_now {own : ε → Bool} {goal : σ → Prop} {n k : ℕ} (h : Ends step own goal n k s) :
    goal s ∨ ∃ e, own e ∧ (step s e).isSome :=
  h.moves (show run step s [] = some s from rfl)

theorem Ends.of_invariant {I goal : σ → Prop} {own : ε → Bool} {μ : σ → ℕ} {n k : ℕ}
    (hstep : ∀ s e t, step s e = some t → I s → I t)
    (hmove : ∀ s, I s → goal s ∨ ∃ e, own e ∧ (step s e).isSome)
    (hown : ∀ s e t, step s e = some t → I s → own e → μ t < μ s)
    (hother : ∀ s e t, step s e = some t → I s → μ t ≤ μ s + k) (hs : I s) (hn : μ s ≤ n) :
    Ends step own goal n k s where
  moves h := hmove _ (run_invariant hstep h hs)
  bounded h := by
    have := countP_own_le hstep hown hother h hs
    omega

variable {ι : Type*} [Fintype ι] [DecidableEq ι] {α : Type*} {N : Type*} [AddCommMonoid N]

/-- A measure that adds up over parts, when one of them changes. -/
theorem sum_update (f : ι → α) (μ : α → N) (i : ι) (a : α) :
    (∑ j, μ (Function.update f i a j)) + μ (f i) = (∑ j, μ (f j)) + μ a := by
  have hothers : ∀ j ∈ Finset.univ.erase i, μ (Function.update f i a j) = μ (f j) := fun j hj => by
    rw [Function.update_of_ne (Finset.ne_of_mem_erase hj)]
  rw [← Finset.sum_erase_add _ _ (Finset.mem_univ i),
    ← Finset.sum_erase_add (Finset.univ : Finset ι) (fun j => μ (f j)) (Finset.mem_univ i),
    Function.update_self, Finset.sum_congr rfl hothers]
  exact add_right_comm _ _ _

end Trace
