import BankingSystem.Machinery.Linear

/-!
# Machinery/Alone — calls one after another are a run

A worker alone gets every call through that follows the discipline, and leaves all mutexes free
(`Watch.exists_made`).  So every sequence of calls is a run (`exists_run`), and every line that
`Machinery/Linear` may find behind a run is found behind one.
-/

namespace Interleave

universe u v w x y z d e

variable {σ : Type u} {M : Type v} {ρ : Type w} {Op : Type x} {W : Type y}
variable {D : Type d} {I : Type z} {V : Type e} {L : Layout σ M D I V}
variable [DecidableEq W] [DecidableEq M] {code : Op → Prog σ M ρ} {g : M} {s₀ : σ}
  {x : Watch W Op σ M ρ}

/-! ## One call -/

/-- **Between `x` and `y` worker `w` has made one call**, and all mutexes are free. -/
structure Watch.Made (x y : Watch W Op σ M ρ) (w : W) (e : Op × ρ) (s : σ) : Prop where
  mem : y.config.mem = s
  call : y.config.call = Function.update x.config.call w none
  free : ∀ m, y.config.owner m = none
  seen : y.seen = Function.update x.seen w (x.seen w ++ [e])

/-- A call that goes on after a step. -/
theorem Watch.made_of_advance {w : W} {k k' : Call Op σ M ρ} {e : Op × ρ} {s : σ}
    {c' : Config W Op σ M ρ} (hc : x.config.call w = some k)
    (hs : x.config.advance g w = some c') (hk : k.returned = [])
    (hcall : c'.call = Function.update x.config.call w (some k'))
    (h : ∃ y, Watch.Run code g ⟨c', x.seen⟩ y ∧ Made ⟨c', x.seen⟩ y w e s) :
    ∃ y, Watch.Run code g x y ∧ Made x y w e s := by
  obtain ⟨y, hrun, hmade⟩ := h
  have hstep : Watch.Step code g x ⟨c', x.seen⟩ := by
    have h : Watch.Step code g x _ := .advance hc hs
    rwa [hk, List.append_nil, Function.update_eq_self] at h
  refine ⟨y, hrun.head hstep, hmade.mem, ?_, hmade.free, hmade.seen⟩
  rw [hmade.call]
  change Function.update c'.call w none = _
  rw [hcall, Function.update_idem]

/-- **A call goes through alone**, from any point of it on. -/
theorem Watch.exists_made {w : W} {op : Op} {r : ρ} {s : σ} {p : Prog σ M ρ} {t : Option ℕ}
    {held : Finset M} (hc : x.config.call w = some ⟨op, t, p⟩)
    (hown : ∀ m, x.config.owner m = if m ∈ held then some w else none)
    (hp : p.solo x.config.mem held = some (r, s, ∅)) :
    ∃ y, Watch.Run code g x y ∧ Made x y w (op, r) s := by
  induction p generalizing x t held with
  | ret r' =>
    obtain ⟨rfl, rfl, rfl⟩ : r' = r ∧ x.config.mem = s ∧ held = ∅ := by simpa [Prog.solo] using hp
    have hs : x.config.advance g w = some { x.config with
        call := Function.update x.config.call w none
        done := (op, t, r') :: x.config.done } := by rw [Config.advance, hc]
    refine ⟨_, .single (.advance hc hs), rfl, rfl, fun m => ?_, rfl⟩
    simpa using hown m
  | lock m k ih =>
    rw [Prog.solo] at hp
    split at hp
    · cases hp
    rename_i hm
    have hfree : x.config.owner m = none := (hown m).trans (if_neg hm)
    have howner : ∀ n, Function.update x.config.owner m (some w) n =
        if n ∈ insert m held then some w else none := fun n => by
      by_cases hn : n = m
      · simp [hn]
      · simp [hn, hown n]
    by_cases hg : m = g
    · subst hg
      have hs : x.config.advance m w = some { x.config with
          owner := Function.update x.config.owner m (some w)
          call := Function.update x.config.call w (some ⟨op, some x.config.order.length, k⟩)
          order := x.config.order ++ [op] } := by simp [Config.advance, hc, hfree]
      exact made_of_advance hc hs rfl rfl (ih (Function.update_self ..) howner hp)
    · have hs : x.config.advance g w = some { x.config with
          owner := Function.update x.config.owner m (some w)
          call := Function.update x.config.call w (some ⟨op, t, k⟩) } := by
        simp [Config.advance, hc, hfree, hg]
      exact made_of_advance hc hs rfl rfl (ih (Function.update_self ..) howner hp)
  | unlock m k ih =>
    rw [Prog.solo] at hp
    split at hp
    · have hs : x.config.advance g w = some { x.config with
          owner := Function.update x.config.owner m none
          call := Function.update x.config.call w (some ⟨op, t, k⟩) } := by
        rw [Config.advance, hc]
      refine made_of_advance hc hs rfl rfl (ih (Function.update_self ..) (fun n => ?_) hp)
      by_cases hn : n = m
      · simp [hn]
      · simp [hn, hown n]
    · cases hp
  | read k ih =>
    have hs : x.config.advance g w = some { x.config with
        call := Function.update x.config.call w (some ⟨op, t, k x.config.mem⟩) } := by
      rw [Config.advance, hc]
    exact made_of_advance hc hs rfl rfl (ih _ (Function.update_self ..) hown hp)
  | write f k ih =>
    have hs : x.config.advance g w = some { x.config with
        mem := f x.config.mem
        call := Function.update x.config.call w (some ⟨op, t, k⟩) } := by
      rw [Config.advance, hc]
    exact made_of_advance hc hs rfl rfl (ih (Function.update_self ..) hown hp)

/-! ## Many calls -/

/-- What the workers have seen after these calls, one after another. -/
def seenAfter (code : Op → Prog σ M ρ) :
    σ → (W → List (Op × ρ)) → List (W × Op) → W → List (Op × ρ)
  | _, seen, [] => seen
  | s, seen, (w, op) :: calls => seenAfter code ((code op).exec s).2
      (Function.update seen w (seen w ++ [(op, ((code op).exec s).1)])) calls

omit [DecidableEq M] in
theorem forall_seenAfter {P : Op → Prop} {calls : List (W × Op)} {s : σ}
    {seen : W → List (Op × ρ)} (hseen : ∀ w, ∀ e ∈ seen w, P e.1) (hP : ∀ c ∈ calls, P c.2)
    (w : W) : ∀ e ∈ seenAfter code s seen calls w, P e.1 := by
  induction calls generalizing s seen with
  | nil => exact hseen w
  | cons c calls ih =>
    obtain ⟨hc, hP⟩ := List.forall_mem_cons.mp hP
    refine ih (fun v e he => ?_) hP
    by_cases hv : v = c.1
    · rw [hv, Function.update_self] at he
      obtain he | he := List.mem_append.mp he
      · exact hseen _ e he
      · rwa [List.mem_singleton.mp he]
    · rw [Function.update_of_ne hv] at he
      exact hseen v e he

/-- **Calls made one after another are a run.** -/
theorem exists_run (hcode : ∀ op, L.Entry (code op)) (calls : List (W × Op))
    (hq : x.config.Quiet) (hfree : ∀ m, x.config.owner m = none) :
    ∃ y, Watch.Run code g x y ∧ y.config.Quiet ∧ (∀ m, y.config.owner m = none) ∧
      y.config.mem = final code x.config.mem (calls.map Prod.snd) ∧
      y.seen = seenAfter code x.config.mem x.seen calls := by
  induction calls generalizing x with
  | nil => exact ⟨x, .refl, hq, hfree, rfl, rfl⟩
  | cons c calls ih =>
    obtain ⟨w, op⟩ := c
    have hinvoke : Watch.Step code g x ⟨x.config.invoke code w op, x.seen⟩ := .invoke op (hq w)
    obtain ⟨z, hrun, hmade⟩ := Watch.exists_made (x := ⟨x.config.invoke code w op, x.seen⟩)
      (Function.update_self ..) (fun m => (hfree m).trans (by simp))
      ((hcode op).solo x.config.mem)
    have hquiet : z.config.Quiet := fun v => by
      rw [hmade.call]
      by_cases hv : v = w
      · rw [hv, Function.update_self]
      · rw [Function.update_of_ne hv]
        exact (Function.update_of_ne hv ..).trans (hq v)
    obtain ⟨y, hyrun, hyq, hyfree, hymem, hyseen⟩ := ih hquiet hmade.free
    refine ⟨y, (hrun.trans hyrun).head hinvoke, hyq, hyfree, ?_, ?_⟩
    · rw [hymem, hmade.mem]
      rfl
    · rw [hyseen, hmade.mem, hmade.seen]
      rfl

end Interleave
