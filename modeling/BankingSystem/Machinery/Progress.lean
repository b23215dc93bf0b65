import BankingSystem.Machinery.Serialize

/-!
# Machinery/Progress — two-level locking does not deadlock

A call that follows the discipline waits for nothing but the directory mutex before it holds one,
and for the mutex of a cell while it holds the directory.  So a holder of a cell alone never waits,
a holder of the directory waits for such a holder at most, and among calls in flight one can always
move (`exists_advance`).

`Config.advance` is the next step of the call of one worker; with the starting of calls it is all of
`Step` (`step_iff_advance`).  `Recorded` keeps beside a run what every worker itself locked and has
not unlocked since, and these are the owners (`owns_of_recorded`): nobody unlocks for somebody else.
-/

namespace Interleave

universe u v w x y z d e

variable {σ : Type u} {M : Type v} {ρ : Type w} {Op : Type x} {W : Type y}
  {code : Op → Prog σ M ρ} {g : M} {s : σ} {c c' : Config W Op σ M ρ} {w : W}

namespace Layout

variable {D : Type d} {I : Type z} {V : Type e} {L : Layout σ M D I V} {s₀ S : σ} {pos : W → Pos I}

/-! ## What a worker does where it stands -/

/-- A worker that stands anywhere else has a call. -/
theorem Inv.call_of_ne_out (h : L.Inv code s₀ c pos S) (hp : pos w ≠ .out) :
    ∃ k, c.call w = some k := by
  cases hc : c.call w with
  | none => exact absurd (h.out_of_idle hc) hp
  | some k => exact ⟨k, rfl⟩

/-- A worker that waits outside waits for the directory mutex. -/
theorem Inv.waits_of_out (hcode : ∀ op, L.Entry (code op)) (h : L.Inv code s₀ c pos S)
    (hp : pos w = .out) {k : Call Op σ M ρ} (hc : c.call w = some k) {m : M} {q : Prog σ M ρ}
    (hk : k.rest = .lock m q) : m = L.dirLock := by
  obtain ⟨_, hrest⟩ | ⟨_, hrest⟩ := h.rest_of_out hcode hp hc
  · exact absurd (hk.symm.trans hrest) (by simp)
  · exact (Prog.lock.inj (hk.symm.trans hrest)).1

/-- **An unlock step is one of the owner.** -/
theorem Inv.owner_of_unlock (hcode : ∀ op, L.Entry (code op)) (h : L.Inv code s₀ c pos S)
    {k : Call Op σ M ρ} (hc : c.call w = some k) {m : M} {q : Prog σ M ρ}
    (hk : k.rest = .unlock m q) : c.owner m = some w := by
  refine (h.own m w).mpr ?_
  change (pos w).Holds L m
  have hw := h.fits w
  rw [hc] at hw
  cases hp : pos w with
  | out =>
    obtain ⟨_, hrest⟩ | ⟨_, hrest⟩ := h.rest_of_out hcode hp hc <;>
      exact absurd (hk.symm.trans hrest) (by simp)
  | crit =>
    rw [hp] at hw
    obtain ⟨t, -, -, hC, -⟩ := hw
    rw [hk] at hC
    cases hC
    rfl
  | both i =>
    rw [hp] at hw
    obtain ⟨_, _, -, -, hrest, -⟩ := hw
    obtain ⟨rfl, -⟩ := Prog.unlock.inj (hk.symm.trans hrest)
    exact Or.inl rfl
  | tail i =>
    rw [hp] at hw
    obtain ⟨_, -, -, -, hT, -⟩ := hw
    rw [hk] at hT
    cases hT
    rfl

/-- With no call in flight every mutex is free. -/
theorem Inv.owner_of_quiet (h : L.Inv code s₀ c pos S) (hq : c.Quiet) (m : M) :
    c.owner m = none := by
  cases hm : c.owner m with
  | none => rfl
  | some w =>
    have hw : (pos w).Holds L m := (h.own m w).mp hm
    rw [h.out_of_idle (hq w)] at hw
    exact hw.elim

end Layout

variable [DecidableEq W] [DecidableEq M]

/-! ## The next step of one worker -/

/-- **The next step of the call of worker `w`**; `none` when it has no call, or its call waits for
a mutex that is not free. -/
def Config.advance (g : M) (c : Config W Op σ M ρ) (w : W) : Option (Config W Op σ M ρ) :=
  match c.call w with
  | none => none
  | some ⟨op, t, .ret r⟩ => some { c with
      call := Function.update c.call w none
      done := (op, t, r) :: c.done }
  | some ⟨op, t, .lock m k⟩ =>
    if c.owner m = none then
      if m = g then some { c with
        owner := Function.update c.owner g (some w)
        call := Function.update c.call w (some ⟨op, some c.order.length, k⟩)
        order := c.order ++ [op] }
      else some { c with
        owner := Function.update c.owner m (some w)
        call := Function.update c.call w (some ⟨op, t, k⟩) }
    else none
  | some ⟨op, t, .unlock m k⟩ => some { c with
      owner := Function.update c.owner m none
      call := Function.update c.call w (some ⟨op, t, k⟩) }
  | some ⟨op, t, .read k⟩ => some { c with
      call := Function.update c.call w (some ⟨op, t, k c.mem⟩) }
  | some ⟨op, t, .write f k⟩ => some { c with
      mem := f c.mem
      call := Function.update c.call w (some ⟨op, t, k⟩) }

/-- An idle worker starts a call. -/
def Config.invoke (code : Op → Prog σ M ρ) (c : Config W Op σ M ρ) (w : W) (op : Op) :
    Config W Op σ M ρ :=
  { c with call := Function.update c.call w (some ⟨op, none, code op⟩) }

/-- A worker that moves has a call. -/
theorem call_of_advance (h : c.advance g w = some c') : ∃ k, c.call w = some k := by
  cases hc : c.call w with
  | none =>
    rw [Config.advance, hc] at h
    cases h
  | some k => exact ⟨k, rfl⟩

/-- The next step of a worker is a step. -/
theorem step_of_advance (h : c.advance g w = some c') : Step code g c c' := by
  obtain ⟨⟨op, t, p⟩, hc⟩ := call_of_advance h
  rw [Config.advance, hc] at h
  cases p with
  | ret r =>
    obtain rfl := Option.some.inj h
    exact .ret hc
  | lock m k =>
    dsimp only at h
    split at h
    · rename_i hfree
      split at h
      · rename_i hm
        subst hm
        obtain rfl := Option.some.inj h
        exact .acquire hc hfree
      · rename_i hm
        obtain rfl := Option.some.inj h
        exact .lock hc hm hfree
    · cases h
  | unlock m k =>
    obtain rfl := Option.some.inj h
    exact .unlock hc
  | read k =>
    obtain rfl := Option.some.inj h
    exact .read hc
  | write f k =>
    obtain rfl := Option.some.inj h
    exact .write hc

/-- **A step is a worker starting a call, or the next step of a worker.** -/
theorem step_iff_advance : Step code g c c' ↔
    (∃ w op, c.call w = none ∧ c' = c.invoke code w op) ∨ ∃ w, c.advance g w = some c' := by
  constructor
  · intro h
    cases h with
    | @invoke w op hc => exact Or.inl ⟨w, op, hc, rfl⟩
    | @acquire w op t k hc hfree =>
      exact Or.inr ⟨w, by simp [Config.advance, hc, hfree]⟩
    | @lock w op t m k hc hm hfree =>
      exact Or.inr ⟨w, by simp [Config.advance, hc, hm, hfree]⟩
    | @unlock w op t m k hc => exact Or.inr ⟨w, by simp [Config.advance, hc]⟩
    | @read w op t k hc => exact Or.inr ⟨w, by simp [Config.advance, hc]⟩
    | @write w op t f k hc => exact Or.inr ⟨w, by simp [Config.advance, hc]⟩
    | @ret w op t r hc => exact Or.inr ⟨w, by simp [Config.advance, hc]⟩
  · rintro (⟨w, op, hc, rfl⟩ | ⟨w, h⟩)
    · exact .invoke op hc
    · exact step_of_advance h

/-- **A worker with a call can move, or waits for a mutex that is taken.** -/
theorem advance_or_waits {k : Call Op σ M ρ} (hc : c.call w = some k) :
    (c.advance g w).isSome ∨ ∃ m q v, k.rest = .lock m q ∧ c.owner m = some v := by
  obtain ⟨op, t, p⟩ := k
  cases p with
  | lock m q =>
    cases hm : c.owner m with
    | none =>
      rw [Config.advance, hc]
      dsimp only
      rw [if_pos hm]
      split <;> exact Or.inl rfl
    | some v => exact Or.inr ⟨m, q, v, rfl, hm⟩
  | _ => exact Or.inl (by simp [Config.advance, hc])

/-! ## What a worker has locked and not unlocked since -/

/-- The mutexes a worker holds after the next step of its program. -/
def Prog.hold : Prog σ M ρ → Finset M → Finset M
  | lock m _, held => insert m held
  | unlock m _, held => held.erase m
  | _, held => held

/-- **A run, with the mutexes of each worker on record.** -/
inductive Recorded (code : Op → Prog σ M ρ) (g : M) (s : σ) :
    Config W Op σ M ρ → (W → Finset M) → Prop
  | start : Recorded code g s (.start s) fun _ => ∅
  | invoke {c : Config W Op σ M ρ} {held : W → Finset M} {w : W} (h : Recorded code g s c held)
      (op : Op) (hc : c.call w = none) : Recorded code g s (c.invoke code w op) held
  | advance {c c' : Config W Op σ M ρ} {held : W → Finset M} {w : W} {k : Call Op σ M ρ}
      (h : Recorded code g s c held) (hc : c.call w = some k) (hs : c.advance g w = some c') :
      Recorded code g s c' (Function.update held w (k.rest.hold (held w)))

theorem Recorded.reachable {held : W → Finset M} (h : Recorded code g s c held) :
    Reachable code g s c := by
  induction h with
  | start => exact .start
  | invoke _ op hc ih => exact ih.step (.invoke op hc)
  | advance _ _ hs ih => exact ih.step (step_of_advance hs)

/-- **Every run has its record.** -/
theorem Reachable.recorded (h : Reachable code g s c) : ∃ held, Recorded code g s c held := by
  induction h with
  | start => exact ⟨_, .start⟩
  | step _ hs ih =>
    obtain ⟨held, ih⟩ := ih
    obtain ⟨w, op, hc, rfl⟩ | ⟨w, hs⟩ := step_iff_advance.mp hs
    · exact ⟨held, ih.invoke op hc⟩
    · obtain ⟨k, hc⟩ := call_of_advance hs
      exact ⟨_, ih.advance hc hs⟩

namespace Layout

variable {D : Type d} {I : Type z} {V : Type e} {L : Layout σ M D I V} {s₀ S : σ} {pos : W → Pos I}

/-! ## Who waits for whom -/

/-- **A worker on a cell alone never waits.** -/
theorem Inv.advance_of_tail (h : L.Inv code s₀ c pos S) {i : I} (hp : pos w = .tail i) :
    (c.advance L.dirLock w).isSome := by
  obtain ⟨k, hc⟩ := h.call_of_ne_out (w := w) (by rw [hp]; simp)
  refine (advance_or_waits hc).resolve_right ?_
  rintro ⟨m, q, v, hk, -⟩
  have hw := h.fits w
  rw [hc, hp] at hw
  obtain ⟨t, -, -, -, hT, -⟩ := hw
  rw [hk] at hT
  cases hT

/-- A worker that waits while it holds the directory waits for somebody on a cell. -/
theorem Inv.advance_of_inDir (h : L.Inv code s₀ c pos S) (hin : (pos w).InDir) :
    ∃ v, (∃ m, c.owner m = some v) ∧ (c.advance L.dirLock v).isSome := by
  have hown : c.owner L.dirLock = some w := (h.own _ w).mpr hin.holds
  obtain ⟨k, hc⟩ := h.call_of_ne_out (w := w) (by rintro hp; rw [hp] at hin; exact hin)
  obtain hmove | ⟨m, q, v, hk, hm⟩ := advance_or_waits (g := L.dirLock) hc
  · exact ⟨w, ⟨_, hown⟩, hmove⟩
  have hw := h.fits w
  rw [hc] at hw
  cases hp : pos w with
  | out => rw [hp] at hin; exact hin.elim
  | tail i => rw [hp] at hin; exact hin.elim
  | both i =>
    rw [hp] at hw
    obtain ⟨_, _, -, -, hrest, -⟩ := hw
    rw [hk] at hrest
    cases hrest
  | crit =>
    rw [hp] at hw
    obtain ⟨t, -, -, hC, -⟩ := hw
    rw [hk] at hC
    cases hC with
    | @hand _ i _ hi hT =>
      -- the holder of the mutex of a cell is on that cell: the directory is taken
      have hv : (pos v).Holds L (L.cellLock i) := (h.own _ v).mp hm
      have hne : v ≠ w := by
        rintro rfl
        rw [hp] at hv
        exact L.cellLock_ne i hv
      refine ⟨v, ⟨_, hm⟩, ?_⟩
      cases hpv : pos v with
      | out => rw [hpv] at hv; exact hv.elim
      | crit => exact absurd (by rw [hpv]; trivial) (h.alone hin hne)
      | both j => exact absurd (by rw [hpv]; trivial) (h.alone hin hne)
      | tail j => exact h.advance_of_tail hpv

/-- **While a call is in flight, it can move, or somebody who holds a mutex can.** -/
theorem Inv.exists_advance (hcode : ∀ op, L.Entry (code op)) (h : L.Inv code s₀ c pos S)
    {k : Call Op σ M ρ} (hc : c.call w = some k) :
    ∃ v, (v = w ∨ ∃ m, c.owner m = some v) ∧ (c.advance L.dirLock v).isSome := by
  have hdir : ∀ {v}, (pos v).InDir →
      ∃ u, (u = w ∨ ∃ m, c.owner m = some u) ∧ (c.advance L.dirLock u).isSome := fun hv => by
    obtain ⟨u, hu, hmove⟩ := h.advance_of_inDir hv
    exact ⟨u, Or.inr hu, hmove⟩
  obtain hmove | ⟨m, q, v, hk, hm⟩ := advance_or_waits (g := L.dirLock) hc
  · exact ⟨w, Or.inl rfl, hmove⟩
  cases hp : pos w with
  | crit => exact hdir (v := w) (by rw [hp]; trivial)
  | both i => exact hdir (v := w) (by rw [hp]; trivial)
  | tail i => exact ⟨w, Or.inl rfl, h.advance_of_tail hp⟩
  | out =>
    obtain rfl := h.waits_of_out hcode hp hc hk
    have hv : (pos v).Holds L L.dirLock := (h.own _ v).mp hm
    cases hpv : pos v with
    | out => rw [hpv] at hv; exact hv.elim
    | crit => exact hdir (v := v) (by rw [hpv]; trivial)
    | both i => exact hdir (v := v) (by rw [hpv]; trivial)
    | tail i => exact ⟨v, Or.inr ⟨_, hm⟩, h.advance_of_tail hpv⟩

/-! ## Every interleaving -/

/-- **The owner of a mutex is the worker that locked it and has not unlocked it since.** -/
theorem owns_of_recorded (hcode : ∀ op, L.Entry (code op)) {held : W → Finset M}
    (h : Recorded code L.dirLock s₀ c held) : Owns c.owner fun w m => m ∈ held w := by
  induction h with
  | start => exact fun m w => by simp [Config.start]
  | invoke _ _ _ ih => exact ih
  | @advance c c' held w k hrec hc hs ih =>
    obtain ⟨pos, S, hI, -⟩ := inv_of_reachable hcode hrec.reachable
    have hheld : (fun v m => m ∈ Function.update held w (k.rest.hold (held w)) v)
        = Function.update (fun v m => m ∈ held v) w fun m => m ∈ k.rest.hold (held w) := by
      funext v
      by_cases hv : v = w
      · rw [hv, Function.update_self, Function.update_self]
      · rw [Function.update_of_ne hv, Function.update_of_ne hv]
    have hsame : Function.update (fun v m => m ∈ held v) w (fun m => m ∈ held w)
        = fun v m => m ∈ held v := Function.update_eq_self w _
    rw [hheld]
    obtain ⟨op, t, p⟩ := k
    rw [Config.advance, hc] at hs
    cases p with
    | lock m q =>
      dsimp only at hs
      split at hs
      · rename_i hfree
        have hacquire : Owns (Function.update c.owner m (some w))
            (Function.update (fun v m => m ∈ held v) w fun n => n ∈ insert m (held w)) :=
          ih.acquire hfree w fun n => by rw [Finset.mem_insert, or_comm]
        split at hs
        · rename_i hm
          subst hm
          obtain rfl := Option.some.inj hs
          exact hacquire
        · obtain rfl := Option.some.inj hs
          exact hacquire
      · cases hs
    | unlock m q =>
      have hm : m ∈ held w := (ih m w).mp (hI.owner_of_unlock hcode hc rfl)
      obtain rfl := Option.some.inj hs
      exact ih.release hm fun n => by
        change n ∈ (held w).erase m ↔ _
        rw [Finset.mem_erase, and_comm]
    | ret r | read q | write f q =>
      obtain rfl := Option.some.inj hs
      rw [show Prog.hold _ (held w) = held w from rfl, hsame]
      exact ih

end Layout

end Interleave
