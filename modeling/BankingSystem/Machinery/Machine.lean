import Mathlib.Logic.Basic

/-!
# Machinery/Machine — machines that answer one request after another

A machine takes a state and a request to an answer and a state.  `answers` is what it answers along
a list of requests and `after` where it ends up.  The rules are the usual two: an invariant of one
step holds after every run (`after_invariant`, and `Along.after_invariant` when each step has a
condition on the state it starts from), and two machines related by a `Simulation` answer alike.
-/

namespace Machine

universe u v w x

variable {σ : Type u} {τ : Type v} {ι : Type w} {ρ : Type x}

/-- The state after the requests. -/
def after (step : σ → ι → ρ × σ) : σ → List ι → σ
  | s, [] => s
  | s, i :: is => after step (step s i).2 is

/-- The answers to the requests. -/
def answers (step : σ → ι → ρ × σ) : σ → List ι → List ρ
  | _, [] => []
  | s, i :: is => (step s i).1 :: answers step (step s i).2 is

/-- Each request meets `ok` in the state it arrives in. -/
def Along (ok : σ → ι → Prop) (step : σ → ι → ρ × σ) : σ → List ι → Prop
  | _, [] => True
  | s, i :: is => ok s i ∧ Along ok step (step s i).2 is

section After

variable {step : σ → ι → ρ × σ} {P : σ → Prop} {s : σ} {is js : List ι} {i : ι}

theorem after_append : after step s (is ++ js) = after step (after step s is) js := by
  induction is generalizing s with
  | nil => rfl
  | cons i is ih => exact ih

theorem answers_append :
    answers step s (is ++ js) = answers step s is ++ answers step (after step s is) js := by
  induction is generalizing s with
  | nil => rfl
  | cons i is ih => exact congrArg _ ih

/-- **An invariant of one step is an invariant of every run.** -/
theorem after_invariant {ok : ι → Prop} (hstep : ∀ s i, ok i → P s → P (step s i).2) (hs : P s)
    (his : ∀ i ∈ is, ok i) : P (after step s is) := by
  induction is generalizing s with
  | nil => exact hs
  | cons i is ih =>
    obtain ⟨hi, his⟩ := List.forall_mem_cons.mp his
    exact ih (hstep s i hi hs) his

/-- The same, with a condition on the state each request arrives in. -/
theorem Along.after_invariant {ok : σ → ι → Prop} (h : Along ok step s is)
    (hstep : ∀ s i, ok s i → P s → P (step s i).2) (hs : P s) : P (after step s is) := by
  induction is generalizing s with
  | nil => exact hs
  | cons i is ih => exact ih h.2 (hstep s i h.1 hs)

theorem along_append {ok : σ → ι → Prop} :
    Along ok step s (is ++ js) ↔ Along ok step s is ∧ Along ok step (after step s is) js := by
  induction is generalizing s with
  | nil => simp [Along, after]
  | cons i is ih => exact (and_congr_right fun _ => ih).trans and_assoc.symm

/-- The condition, request by request. -/
theorem along_iff {ok : σ → ι → Prop} : Along ok step s is ↔
    ∀ before i later, is = before ++ i :: later → ok (after step s before) i := by
  refine ⟨fun h before i later his => ?_, fun h => ?_⟩
  · subst his
    exact (along_append.mp h).2.1
  · induction is generalizing s with
    | nil => trivial
    | cons i is ih =>
      exact ⟨h [] i is rfl, ih fun before j later his => h (i :: before) j later (by rw [his]; rfl)⟩

/-- **An invariant that is kept exactly by the requests that meet `ok`** holds at every point of a
run just in case all its requests do. -/
theorem along_iff_invariant {ok : σ → ι → Prop}
    (hstep : ∀ s i, P s → (P (step s i).2 ↔ ok s i)) (hs : P s) :
    Along ok step s is ↔ ∀ before later, is = before ++ later → P (after step s before) := by
  induction is generalizing s with
  | nil =>
    refine iff_of_true trivial fun before later his => ?_
    obtain ⟨rfl, -⟩ := List.append_eq_nil_iff.mp his.symm
    exact hs
  | cons i is ih =>
    refine ⟨fun h before later his => ?_, fun h => ?_⟩
    · cases before with
      | nil => exact hs
      | cons j before =>
        obtain ⟨rfl, htail⟩ := List.cons.inj his
        exact (ih ((hstep s i hs).mpr h.1)).mp h.2 before later htail
    · have hi : P (step s i).2 := h [i] is rfl
      exact ⟨(hstep s i hs).mp hi, (ih hi).mpr fun before later his =>
        h (i :: before) later (by rw [his]; rfl)⟩

/-- **An invariant between the answers so far and the state** holds after every run. -/
theorem answers_invariant {Q : List ρ → σ → Prop}
    (hstep : ∀ log s i, Q log s → Q (log ++ [(step s i).1]) (step s i).2) {log : List ρ}
    (hs : Q log s) (is : List ι) : Q (log ++ answers step s is) (after step s is) := by
  induction is generalizing log s with
  | nil => rwa [answers, List.append_nil]
  | cons i is ih =>
    rw [answers, List.append_cons]
    exact ih (hstep log s i hs)

/-- Each answer is the answer to one request, in the state the requests before it lead to. -/
theorem answers_split {before later : List ρ} {r : ρ}
    (h : answers step s is = before ++ r :: later) :
    ∃ past i, before = answers step s past ∧ r = (step (after step s past) i).1 := by
  induction is generalizing s before with
  | nil => exact absurd h.symm (by simp [answers])
  | cons i is ih =>
    cases before with
    | nil => exact ⟨[], i, rfl, (List.cons.inj h).1.symm⟩
    | cons b before =>
      obtain ⟨hb, h⟩ := List.cons.inj h
      obtain ⟨past, j, hpast, hr⟩ := ih h
      exact ⟨i :: past, j, by rw [answers, hb, hpast], hr⟩

end After

/-- **Two machines that answer alike**, as long as the requests are `ok` and the states related. -/
structure Simulation (step : σ → ι → ρ × σ) (step' : τ → ι → ρ × τ) (ok : ι → Prop)
    (R : σ → τ → Prop) : Prop where
  answer : ∀ {s t i}, ok i → R s t → (step s i).1 = (step' t i).1
  next : ∀ {s t i}, ok i → R s t → R (step s i).2 (step' t i).2

section Simulation

variable {step : σ → ι → ρ × σ} {step' : τ → ι → ρ × τ} {ok : ι → Prop} {R : σ → τ → Prop}
  {s : σ} {t : τ} {is : List ι}

theorem Simulation.answers_eq (h : Simulation step step' ok R) (hst : R s t)
    (his : ∀ i ∈ is, ok i) : answers step s is = answers step' t is := by
  induction is generalizing s t with
  | nil => rfl
  | cons i is ih =>
    obtain ⟨hi, his⟩ := List.forall_mem_cons.mp his
    rw [answers, answers, h.answer hi hst, ih (h.next hi hst) his]

theorem Simulation.after (h : Simulation step step' ok R) (hst : R s t)
    (his : ∀ i ∈ is, ok i) : R (after step s is) (Machine.after step' t is) := by
  induction is generalizing s t with
  | nil => exact hst
  | cons i is ih =>
    obtain ⟨hi, his⟩ := List.forall_mem_cons.mp his
    exact ih (h.next hi hst) his

end Simulation

end Machine
