import BankingSystem.Machinery.Interleave
import Mathlib.Data.List.Nodup
import Mathlib.Data.List.Range

/-!
# Machinery/Numbered — every place in an order of calls belongs to exactly one call

Calls take consecutive places; a call keeps its place while it runs and leaves it behind when it
completes.  `Numbered` is what holds throughout: no place is taken twice, and none is lost.
-/

namespace Interleave

universe u v w x y

variable {σ : Type u} {M : Type v} {ρ : Type w} {Op : Type x} {W : Type y}

/-- The places in the order taken by completed calls. -/
def Config.tickets (c : Config W Op σ M ρ) : List ℕ := c.done.filterMap fun d => d.2.1

/-- The place in the order a worker's call has taken. -/
def Config.ticketOf (c : Config W Op σ M ρ) (w : W) : Option ℕ := (c.call w).bind Call.ticket

/-- **Every place below `places` belongs to exactly one call**, completed (`tickets`) or in flight
(`held`). -/
structure Numbered (places : ℕ) (tickets : List ℕ) (held : W → Option ℕ) : Prop where
  nodup : tickets.Nodup
  lt_of_mem : ∀ n ∈ tickets, n < places
  lt_of_held : ∀ w n, held w = some n → n < places
  not_both : ∀ w n, held w = some n → n ∉ tickets
  unique : ∀ v w n, held v = some n → held w = some n → v = w
  cover : ∀ n < places, n ∈ tickets ∨ ∃ w, held w = some n

namespace Numbered

variable {places : ℕ} {tickets : List ℕ} {held : W → Option ℕ} {w : W}

theorem start : Numbered (W := W) 0 [] fun _ => none where
  nodup := List.nodup_nil
  lt_of_mem := fun _ h => absurd h (by simp)
  lt_of_held := fun _ _ h => absurd h (by simp)
  not_both := fun _ _ h => absurd h (by simp)
  unique := fun _ _ _ h => absurd h (by simp)
  cover := fun _ h => absurd h (by simp)

/-- With no call in flight the completed calls are numbered `0, 1, …` without gap or repetition. -/
theorem perm_range (h : Numbered places tickets held) (hq : ∀ w, held w = none) :
    tickets.Perm (List.range places) := by
  refine (List.perm_ext_iff_of_nodup h.nodup List.nodup_range).mpr fun n => ?_
  rw [List.mem_range]
  refine ⟨h.lt_of_mem n, fun hn => (h.cover n hn).resolve_right ?_⟩
  rintro ⟨w, hw⟩
  rw [hq w] at hw
  cases hw

variable [DecidableEq W]

theorem update_eq_some {o : Option ℕ} {v : W} {n : ℕ} :
    Function.update held w o v = some n ↔ (v = w ∧ o = some n) ∨ (v ≠ w ∧ held v = some n) := by
  by_cases h : v = w
  · subst h
    simp
  · simp [h]

/-- **A call takes the next place.** -/
theorem take (h : Numbered places tickets held) (hw : held w = none) :
    Numbered (places + 1) tickets (Function.update held w (some places)) where
  nodup := h.nodup
  lt_of_mem := fun n hn => Nat.lt_succ_of_lt (h.lt_of_mem n hn)
  lt_of_held := fun v n hv => by
    obtain ⟨-, hn⟩ | ⟨-, hv⟩ := update_eq_some.mp hv
    · obtain rfl := Option.some.inj hn
      exact Nat.lt_succ_self _
    · exact Nat.lt_succ_of_lt (h.lt_of_held v n hv)
  not_both := fun v n hv hn => by
    obtain ⟨-, hp⟩ | ⟨-, hv⟩ := update_eq_some.mp hv
    · obtain rfl := Option.some.inj hp
      exact lt_irrefl _ (h.lt_of_mem _ hn)
    · exact h.not_both v n hv hn
  unique := fun u v n hu hv => by
    obtain ⟨rfl, hp⟩ | ⟨-, hu'⟩ := update_eq_some.mp hu <;>
      obtain ⟨rfl, hp'⟩ | ⟨-, hv'⟩ := update_eq_some.mp hv
    · rfl
    · obtain rfl := Option.some.inj hp
      exact absurd (h.lt_of_held v _ hv') (lt_irrefl _)
    · obtain rfl := Option.some.inj hp'
      exact absurd (h.lt_of_held u _ hu') (lt_irrefl _)
    · exact h.unique u v n hu' hv'
  cover := fun n hn => by
    rcases Nat.lt_succ_iff_lt_or_eq.mp hn with hn | rfl
    · refine (h.cover n hn).imp_right fun ⟨v, hv⟩ => ⟨v, update_eq_some.mpr (Or.inr ⟨?_, hv⟩)⟩
      rintro rfl
      rw [hw] at hv
      cases hv
    · exact Or.inr ⟨w, Function.update_self ..⟩

/-- **A call completes** and leaves its place, if it has one, behind. -/
theorem finish (h : Numbered places tickets held) :
    Numbered places ((held w).toList ++ tickets) (Function.update held w none) where
  nodup := by
    rw [List.nodup_append']
    refine ⟨by cases held w <;> simp, h.nodup, fun n hn hn' => ?_⟩
    exact h.not_both w n (by simpa using hn) hn'
  lt_of_mem := fun n hn => by
    rcases List.mem_append.mp hn with hn | hn
    · exact h.lt_of_held w n (by simpa using hn)
    · exact h.lt_of_mem n hn
  lt_of_held := fun v n hv => by
    obtain ⟨-, hn⟩ | ⟨-, hv⟩ := update_eq_some.mp hv
    · cases hn
    · exact h.lt_of_held v n hv
  not_both := fun v n hv hn => by
    obtain ⟨-, hn⟩ | ⟨hne, hv⟩ := update_eq_some.mp hv
    · cases hn
    · rcases List.mem_append.mp hn with hn | hn
      · exact hne (h.unique v w n hv (by simpa using hn))
      · exact h.not_both v n hv hn
  unique := fun u v n hu hv => by
    obtain ⟨-, hn⟩ | ⟨-, hu⟩ := update_eq_some.mp hu
    · cases hn
    obtain ⟨-, hn⟩ | ⟨-, hv⟩ := update_eq_some.mp hv
    · cases hn
    exact h.unique u v n hu hv
  cover := fun n hn => by
    rcases h.cover n hn with hn | ⟨v, hv⟩
    · exact Or.inl (List.mem_append_right _ hn)
    · by_cases hvw : v = w
      · subst hvw
        exact Or.inl (List.mem_append_left _ (by simpa using hv))
      · exact Or.inr ⟨v, update_eq_some.mpr (Or.inr ⟨hvw, hv⟩)⟩

end Numbered

end Interleave
