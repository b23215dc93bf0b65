import BankingSystem.Machinery.Machine
import BankingSystem.Machinery.Progress

/-!
# Machinery/Exits — two-level locking with workers that can exit at any point

A worker that exits makes no further step, and what it has locked stays locked.  The calls of the
others are not harmed exactly when every worker exits between two calls, before the first lock of
one, or after its last unlock (`unharmed_iff`).
-/

namespace Interleave

open Machine

universe u v w x y z d e

variable {σ : Type u} {M : Type v} {ρ : Type w} {Op : Type x} {W : Type y}

/-! ## Runs with exits -/

/-- What can happen next: a worker starts a call, makes the next step of its call, or exits. -/
inductive Event (W : Type y) (Op : Type x) where
  | invoke (w : W) (op : Op)
  | advance (w : W)
  | exit (w : W)

/-- **A configuration in which some workers have exited.** -/
structure ExitConfig (W : Type y) (Op : Type x) (σ : Type u) (M : Type v) (ρ : Type w) where
  config : Config W Op σ M ρ
  exited : Finset W

/-- Nothing has happened. -/
def ExitConfig.start (s : σ) : ExitConfig W Op σ M ρ := ⟨.start s, ∅⟩

variable [DecidableEq W] [DecidableEq M]

/-- **One event.**  A call is started by an idle worker, and a step made by one whose call can move;
what a worker does that has exited is without effect. -/
def ExitConfig.next (code : Op → Prog σ M ρ) (g : M) (c : ExitConfig W Op σ M ρ) :
    Event W Op → ExitConfig W Op σ M ρ
  | .invoke w op =>
    if w ∈ c.exited then c else
    match c.config.call w with
    | none => { c with config := c.config.invoke code w op }
    | some _ => c
  | .advance w =>
    if w ∈ c.exited then c else
    match c.config.advance g w with
    | none => c
    | some config => { c with config := config }
  | .exit w => { c with exited := insert w c.exited }

/-- One event, as a machine that gives no answer. -/
def ExitConfig.step (code : Op → Prog σ M ρ) (g : M) (c : ExitConfig W Op σ M ρ)
    (event : Event W Op) : Unit × ExitConfig W Op σ M ρ := ((), c.next code g event)

/-- The configuration after the events. -/
abbrev exitsAfter (code : Op → Prog σ M ρ) (g : M) (s : σ) (events : List (Event W Op)) :
    ExitConfig W Op σ M ρ := after (ExitConfig.step code g) (.start s) events

/-- **The workers that are left are not harmed**: no mutex is held by a worker that has exited, and
while one of them has a call in flight, one of them can move. -/
structure ExitConfig.Unharmed (g : M) (c : ExitConfig W Op σ M ρ) : Prop where
  held : ∀ m w, c.config.owner m = some w → w ∉ c.exited
  progress : ∀ w, w ∉ c.exited → c.config.call w ≠ none →
    ∃ v, v ∉ c.exited ∧ (c.config.advance g v).isSome

omit [DecidableEq W] [DecidableEq M] in
/-- **The worker is clear of the mutexes**: it has no call, or is about to take the first lock of
its call, or only has to return. -/
def Config.Clear (g : M) (c : Config W Op σ M ρ) (w : W) : Prop :=
  ∀ k, c.call w = some k → (∃ q, k.rest = .lock g q) ∨ ∃ r, k.rest = .ret r

/-- An exit comes while the worker is clear of the mutexes, or has exited before. -/
def ExitsClear (g : M) (c : ExitConfig W Op σ M ρ) : Event W Op → Prop
  | .exit w => w ∈ c.exited ∨ c.config.Clear g w
  | _ => True

/-! ## The steps that are made are those of the workers that are left -/

variable {code : Op → Prog σ M ρ} {g : M} {s : σ} {c : ExitConfig W Op σ M ρ}

variable (code g c) in
/-- **What an event does.** -/
theorem ExitConfig.next_cases (event : Event W Op) :
    c.next code g event = c ∨
    (∃ w op, w ∉ c.exited ∧ c.config.call w = none ∧
      c.next code g event = { c with config := c.config.invoke code w op }) ∨
    (∃ w config, w ∉ c.exited ∧ c.config.advance g w = some config ∧
      c.next code g event = { c with config := config }) ∨
    ∃ w, event = .exit w := by
  cases event with
  | invoke w op =>
    rw [next]
    split
    · exact Or.inl rfl
    · rename_i hw
      cases hc : c.config.call w with
      | none => exact Or.inr (Or.inl ⟨w, op, hw, hc, rfl⟩)
      | some k => exact Or.inl rfl
  | advance w =>
    rw [next]
    split
    · exact Or.inl rfl
    · rename_i hw
      cases hs : c.config.advance g w with
      | none => exact Or.inl rfl
      | some config => exact Or.inr (Or.inr (Or.inl ⟨w, config, hw, hs, rfl⟩))
  | exit w => exact Or.inr (Or.inr (Or.inr ⟨w, rfl⟩))

/-- A run with exits is a run. -/
theorem ExitConfig.reachable_next (h : Reachable code g s c.config) (event : Event W Op) :
    Reachable code g s (c.next code g event).config := by
  obtain heq | ⟨w, op, -, hc, heq⟩ | ⟨w, config, -, hs, heq⟩ | ⟨w, rfl⟩ :=
    next_cases code g c event
  · rwa [heq]
  · rw [heq]
    exact h.step (.invoke op hc)
  · rw [heq]
    exact h.step (step_of_advance hs)
  · exact h

/-- **Every interleaving is a run without exits.** -/
theorem exists_events {config : Config W Op σ M ρ} (h : Reachable code g s config) :
    ∃ events, exitsAfter code g s events = ⟨config, ∅⟩ := by
  induction h with
  | start => exact ⟨[], rfl⟩
  | @step config config' _ hs ih =>
    obtain ⟨events, hevents⟩ := ih
    have hnext (event : Event W Op) : exitsAfter code g s (events ++ [event]) =
        (⟨config, ∅⟩ : ExitConfig W Op σ M ρ).next code g event := by
      rw [← hevents]
      exact after_append
    obtain ⟨w, op, hc, rfl⟩ | ⟨w, hmove⟩ := step_iff_advance.mp hs
    · exact ⟨events ++ [.invoke w op], by simp [hnext, ExitConfig.next, hc]⟩
    · exact ⟨events ++ [.advance w], by simp [hnext, ExitConfig.next, hmove]⟩

/-- A mutex with an owner was taken by the worker that moved, or had this owner before. -/
theorem owner_of_advance {c c' : Config W Op σ M ρ} {w : W} (h : c.advance g w = some c') {m : M}
    {v : W} (hv : c'.owner m = some v) : v = w ∨ c.owner m = some v := by
  obtain ⟨⟨op, t, p⟩, hc⟩ := call_of_advance h
  rw [Config.advance, hc] at h
  have htaken : ∀ {n : M}, Function.update c.owner n (some w) m = some v →
      v = w ∨ c.owner m = some v := fun {n} hupd => by
    by_cases hmn : m = n
    · rw [hmn, Function.update_self] at hupd
      exact Or.inl (Option.some.inj hupd).symm
    · rw [Function.update_of_ne hmn] at hupd
      exact Or.inr hupd
  cases p with
  | lock n k =>
    dsimp only at h
    split at h
    · split at h
      · obtain rfl := Option.some.inj h
        exact htaken hv
      · obtain rfl := Option.some.inj h
        exact htaken hv
    · cases h
  | unlock n k =>
    obtain rfl := Option.some.inj h
    by_cases hmn : m = n
    · rw [hmn] at hv
      exact absurd ((Function.update_self n none c.owner).symm.trans hv) (by simp)
    · exact Or.inr ((Function.update_of_ne hmn none c.owner).symm.trans hv)
  | ret r | read k | write f k =>
    obtain rfl := Option.some.inj h
    exact Or.inr hv

variable (code g c) in
/-- Anything but an exit lets nobody hold a mutex that has exited and did not hold it before. -/
theorem ExitConfig.owner_next {event : Event W Op} (hne : ∀ w, event ≠ .exit w) :
    (c.next code g event).exited = c.exited ∧ ∀ m v,
      (c.next code g event).config.owner m = some v →
        v ∉ c.exited ∨ c.config.owner m = some v := by
  obtain heq | ⟨w, op, -, -, heq⟩ | ⟨w, config, hw, hs, heq⟩ | ⟨w, heq⟩ :=
    next_cases code g c event
  · rw [heq]
    exact ⟨rfl, fun _ _ => Or.inr⟩
  · rw [heq]
    exact ⟨rfl, fun _ _ => Or.inr⟩
  · rw [heq]
    refine ⟨rfl, fun m v hv => ?_⟩
    obtain rfl | hold := owner_of_advance hs hv
    · exact Or.inl hw
    · exact Or.inr hold
  · exact absurd heq (hne w)

/-! ## Two-level locking -/

namespace Layout

variable {D : Type d} {I : Type z} {V : Type e} {L : Layout σ M D I V} {s₀ S : σ} {pos : W → Pos I}

omit [DecidableEq W] [DecidableEq M] in
/-- **Clear of the mutexes is outside.** -/
theorem Inv.clear_iff {c : Config W Op σ M ρ} (hcode : ∀ op, L.Entry (code op))
    (h : L.Inv code s₀ c pos S) {w : W} : c.Clear L.dirLock w ↔ pos w = .out := by
  constructor
  · intro hclear
    cases hc : c.call w with
    | none => exact h.out_of_idle hc
    | some k =>
      have hw := h.fits w
      rw [hc] at hw
      cases hp : pos w with
      | out => rfl
      | crit =>
        rw [hp] at hw
        obtain ⟨t, -, -, hC, -⟩ := hw
        obtain ⟨q, hk⟩ | ⟨r, hk⟩ := hclear k hc
        · -- inside, the next mutex is that of a cell
          rw [hk] at hC
          generalize hm : L.dirLock = m at hC
          cases hC with
          | hand hi hT => exact absurd hm.symm (L.cellLock_ne _)
        · rw [hk] at hC
          cases hC
      | both i =>
        rw [hp] at hw
        obtain ⟨_, _, -, -, hrest, -⟩ := hw
        obtain ⟨q, hk⟩ | ⟨r, hk⟩ := hclear k hc <;> cases hrest.symm.trans hk
      | tail i =>
        rw [hp] at hw
        obtain ⟨_, -, -, -, hT, -⟩ := hw
        obtain ⟨q, hk⟩ | ⟨r, hk⟩ := hclear k hc <;> rw [hk] at hT <;> cases hT
  · intro hp k hc
    obtain ⟨r, hrest⟩ | ⟨q, hrest⟩ := h.rest_of_out hcode hp hc
    · exact Or.inr ⟨r, hrest⟩
    · exact Or.inl ⟨q, hrest⟩

omit [DecidableEq W] [DecidableEq M] in
/-- Outside nothing is held, and anywhere else something is. -/
theorem Inv.out_iff {c : Config W Op σ M ρ} (h : L.Inv code s₀ c pos S) {w : W} :
    pos w = .out ↔ ∀ m, c.owner m ≠ some w := by
  constructor
  · intro hp m hm
    have hw : (pos w).Holds L m := (h.own m w).mp hm
    rw [hp] at hw
    exact hw
  · intro hfree
    cases hp : pos w with
    | out => rfl
    | crit | both i =>
      have hin : (pos w).InDir := by
        rw [hp]
        trivial
      exact absurd ((h.own _ w).mpr hin.holds) (hfree L.dirLock)
    | tail i =>
      have hw : (pos w).Holds L (L.cellLock i) := by
        rw [hp]
        rfl
      exact absurd ((h.own _ w).mpr hw) (hfree (L.cellLock i))

/-- **Workers that have exited and hold nothing are in nobody's way.** -/
theorem unharmed_iff_held (hcode : ∀ op, L.Entry (code op))
    (h : Reachable code L.dirLock s₀ c.config) :
    c.Unharmed L.dirLock ↔ ∀ m w, c.config.owner m = some w → w ∉ c.exited := by
  refine ⟨fun hun => hun.held, fun hheld => ⟨hheld, fun w hw hcall => ?_⟩⟩
  obtain ⟨pos, S, hI, -⟩ := inv_of_reachable hcode h
  obtain ⟨k, hc⟩ := Option.ne_none_iff_exists'.mp hcall
  obtain ⟨v, hv, hmove⟩ := hI.exists_advance hcode hc
  refine ⟨v, ?_, hmove⟩
  obtain rfl | ⟨m, hm⟩ := hv
  · exact hw
  · exact hheld m v hm

/-- **One event leaves the workers unharmed exactly if it is no exit in the middle of a call.** -/
theorem unharmed_next_iff (hcode : ∀ op, L.Entry (code op))
    (h : Reachable code L.dirLock s₀ c.config) (hun : c.Unharmed L.dirLock) (event : Event W Op) :
    (c.next code L.dirLock event).Unharmed L.dirLock ↔ ExitsClear L.dirLock c event := by
  rw [unharmed_iff_held hcode (ExitConfig.reachable_next h event)]
  have hother (hne : ∀ w, event ≠ .exit w) : ∀ m v,
      (c.next code L.dirLock event).config.owner m = some v →
        v ∉ (c.next code L.dirLock event).exited := fun m v hv => by
    obtain ⟨hexited, hown⟩ := ExitConfig.owner_next code L.dirLock c hne
    rw [hexited]
    exact (hown m v hv).elim id (hun.held m v)
  cases event with
  | invoke w op => exact iff_of_true (hother fun _ h => nomatch h) trivial
  | advance w => exact iff_of_true (hother fun _ h => nomatch h) trivial
  | exit w =>
    obtain ⟨pos, S, hI, -⟩ := inv_of_reachable hcode h
    rw [ExitsClear, hI.clear_iff hcode, hI.out_iff]
    constructor
    · intro hheld
      by_cases hw : w ∈ c.exited
      · exact Or.inl hw
      · exact Or.inr fun m hm => hheld m w hm (Finset.mem_insert_self w c.exited)
    · intro hclear m v hm hv
      obtain rfl | hv := Finset.mem_insert.mp hv
      · obtain hw | hfree := hclear
        · exact hun.held m v hm hw
        · exact hfree m hm
      · exact hun.held m v hm hv

/-- **The workers that are left are unharmed throughout a run exactly when every exit comes while
the worker is clear of the mutexes.** -/
theorem unharmed_iff (hcode : ∀ op, L.Entry (code op)) (s₀ : σ) (events : List (Event W Op)) :
    Along (ExitsClear L.dirLock) (ExitConfig.step code L.dirLock) (.start s₀) events ↔
      ∀ before later, events = before ++ later →
        (exitsAfter code L.dirLock s₀ before).Unharmed L.dirLock := by
  have hstep : ∀ (c : ExitConfig W Op σ M ρ) event,
      Reachable code L.dirLock s₀ c.config ∧ c.Unharmed L.dirLock →
      ((Reachable code L.dirLock s₀ (c.next code L.dirLock event).config ∧
        (c.next code L.dirLock event).Unharmed L.dirLock) ↔ ExitsClear L.dirLock c event) := by
    rintro c event ⟨h, hun⟩
    rw [and_iff_right (ExitConfig.reachable_next h event)]
    exact unharmed_next_iff hcode h hun event
  have hstart : (ExitConfig.start s₀ : ExitConfig W Op σ M ρ).Unharmed L.dirLock :=
    (unharmed_iff_held hcode .start).mpr fun m w hm => nomatch hm
  refine (along_iff_invariant hstep ⟨.start, hstart⟩).trans ?_
  refine forall₃_congr fun before later _ => and_iff_right ?_
  exact after_invariant
    (P := fun c : ExitConfig W Op σ M ρ => Reachable code L.dirLock s₀ c.config)
    (fun c event (_ : True) h => ExitConfig.reachable_next h event) .start fun _ _ => trivial

end Layout

end Interleave
