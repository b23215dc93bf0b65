import BankingSystem.Machinery.Interleave

/-!
# Machinery/Discipline — two-level locking

A shared state is a *directory* guarded by one mutex and a family of *cells*, each with a mutex of
its own.  A call that follows the discipline `Entry` either refuses before locking anything, or
takes the directory mutex, works on the directory and on cells nobody can name yet (`Crit`), and
then leaves — or hands over to the mutex of one visible cell *before* it releases the directory, and
finishes on that cell alone (`Tail`).
-/

namespace Interleave

universe u v w z d e

variable {σ : Type u} {M : Type v} {ρ ρ' : Type w}

/-- **How a shared state is guarded**: a directory, a family of cells, the mutex of each, and which
cells the directory names. -/
structure Layout (σ : Type u) (M : Type v) (D : Type d) (I : Type z) (V : Type e) where
  dir : σ → D
  cell : I → σ → V
  visible : D → I → Prop
  dirLock : M
  cellLock : I → M
  cellLock_injective : Function.Injective cellLock
  cellLock_ne : ∀ i, cellLock i ≠ dirLock
  /-- Directory and cells are the whole state. -/
  ext : ∀ {s s' : σ}, dir s = dir s' → (∀ i, cell i s = cell i s') → s = s'

namespace Layout

variable {D : Type d} {I : Type z} {V : Type e} (L : Layout σ M D I V)

/-! ## The discipline -/

/-- `f` works on cell `i` alone. -/
structure Local (i : I) (f : σ → σ) : Prop where
  dir : ∀ s, L.dir (f s) = L.dir s
  other : ∀ j s, j ≠ i → L.cell j (f s) = L.cell j s
  own : ∀ s s', L.cell i s = L.cell i s' → L.cell i (f s) = L.cell i (f s')

/-- `f`, run at the directory `d`, leaves the directory `d'`, names at least as many cells, and
touches only cells `d` does not name. -/
structure Publish (d d' : D) (f : σ → σ) : Prop where
  dir : ∀ s, L.dir s = d → L.dir (f s) = d'
  visible : ∀ i, L.visible d i → L.visible d' i
  named : ∀ i s, L.dir s = d → L.visible d i → L.cell i (f s) = L.cell i s
  cell : ∀ i s s', L.dir s = d → L.dir s' = d → L.cell i s = L.cell i s' →
    L.cell i (f s) = L.cell i (f s')

/-- **A program that holds the mutex of cell `i` and nothing else.** -/
inductive Tail (i : I) : Prog σ M ρ → Prop
  | done (r : ρ) : Tail i (.unlock (L.cellLock i) (.ret r))
  | read {k : σ → Prog σ M ρ} (hk : ∀ s s', L.cell i s = L.cell i s' → k s = k s')
      (h : ∀ s, Tail i (k s)) : Tail i (.read k)
  | write {f : σ → σ} {k : Prog σ M ρ} (hf : L.Local i f) (h : Tail i k) : Tail i (.write f k)

/-- **A program that holds the directory mutex**, at the directory `d`. -/
inductive Crit : D → Prog σ M ρ → Prop
  | leave (d : D) (r : ρ) : Crit d (.unlock L.dirLock (.ret r))
  | hand {d : D} {i : I} {k : Prog σ M ρ} (hi : L.visible d i) (h : L.Tail i k) :
      Crit d (.lock (L.cellLock i) (.unlock L.dirLock k))
  | read {d : D} {k : σ → Prog σ M ρ}
      (hk : ∀ s s', L.dir s = d → L.dir s' = d → k s = k s')
      (h : ∀ s, L.dir s = d → Crit d (k s)) : Crit d (.read k)
  | write {d d' : D} {f : σ → σ} {k : Prog σ M ρ} (hf : L.Publish d d' f) (h : Crit d' k) :
      Crit d (.write f k)

/-- **A call that follows the discipline.** -/
inductive Entry : Prog σ M ρ → Prop
  | refuse (r : ρ) : Entry (.ret r)
  | enter {k : Prog σ M ρ} (h : ∀ d, L.Crit d k) : Entry (.lock L.dirLock k)

variable {L}

theorem Tail.map (f : ρ → ρ') {i : I} {p : Prog σ M ρ} (h : L.Tail i p) :
    L.Tail i (p.map f) := by
  induction h with
  | done r => exact .done (f r)
  | read hk _ ih => exact .read (fun s s' hs => congrArg (Prog.map f) (hk s s' hs)) ih
  | write hf _ ih => exact .write hf ih

theorem Crit.map (f : ρ → ρ') {d : D} {p : Prog σ M ρ} (h : L.Crit d p) :
    L.Crit d (p.map f) := by
  induction h with
  | leave d r => exact .leave d (f r)
  | hand hi h => exact .hand hi (h.map f)
  | read hk _ ih => exact .read (fun s s' hs hs' => congrArg (Prog.map f) (hk s s' hs hs')) ih
  | write hf _ ih => exact .write hf ih

/-- Post-processing the returned value does not leave the discipline. -/
theorem Entry.map (f : ρ → ρ') {p : Prog σ M ρ} (h : L.Entry p) : L.Entry (p.map f) := by
  cases h with
  | refuse r => exact .refuse (f r)
  | enter h => exact .enter fun d => (h d).map f

/-! ## What a disciplined program does alone -/

/-- A tail leaves the directory and the other cells as they are. -/
theorem Tail.exec_frame {i : I} {p : Prog σ M ρ} (h : L.Tail i p) (s : σ) :
    L.dir (p.exec s).2 = L.dir s ∧ ∀ j, j ≠ i → L.cell j (p.exec s).2 = L.cell j s := by
  induction h generalizing s with
  | done r => exact ⟨rfl, fun _ _ => rfl⟩
  | read hk _ ih => exact ih s s
  | write hf _ ih =>
    obtain ⟨hd, hc⟩ := ih (_ : σ)
    exact ⟨hd.trans (hf.dir s), fun j hj => (hc j hj).trans (hf.other j s hj)⟩

/-- **A tail sees its own cell only.** -/
theorem Tail.exec_congr {i : I} {p : Prog σ M ρ} (h : L.Tail i p) {s s' : σ}
    (hs : L.cell i s = L.cell i s') :
    (p.exec s).1 = (p.exec s').1 ∧ L.cell i (p.exec s).2 = L.cell i (p.exec s').2 := by
  induction h generalizing s s' with
  | done r => exact ⟨rfl, hs⟩
  | read hk _ ih =>
    rw [Prog.exec_read, Prog.exec_read, hk s s' hs]
    exact ih s' hs
  | write hf _ ih => exact ih (hf.own s s' hs)

section Solo

variable [DecidableEq M]

theorem Tail.solo {i : I} {p : Prog σ M ρ} (h : L.Tail i p) (s : σ) :
    p.solo s {L.cellLock i} = some ((p.exec s).1, (p.exec s).2, ∅) := by
  induction h generalizing s with
  | done r => simp [Prog.solo]
  | read _ _ ih => exact ih s s
  | write _ _ ih => exact ih _

theorem Crit.solo {d : D} {p : Prog σ M ρ} (h : L.Crit d p) {s : σ} (hs : L.dir s = d) :
    p.solo s {L.dirLock} = some ((p.exec s).1, (p.exec s).2, ∅) := by
  induction h generalizing s with
  | leave d r => simp [Prog.solo]
  | @hand d i k hi h =>
    have hne := L.cellLock_ne i
    have herase : (insert (L.cellLock i) {L.dirLock} : Finset M).erase L.dirLock
        = {L.cellLock i} := by
      ext m
      simp only [Finset.mem_erase, Finset.mem_insert, Finset.mem_singleton]
      constructor
      · rintro ⟨hm, rfl | rfl⟩
        · rfl
        · exact absurd rfl hm
      · rintro rfl
        exact ⟨hne, Or.inl rfl⟩
    simp only [Prog.solo, Finset.mem_singleton, hne, if_false, Finset.mem_insert, or_true, if_true,
      herase, Prog.exec_lock, Prog.exec_unlock]
    exact h.solo s
  | read _ _ ih => exact ih s hs hs
  | write hf _ ih => exact ih (hf.dir s hs)

/-- **A disciplined call releases every mutex it acquired.** -/
theorem Entry.solo {p : Prog σ M ρ} (h : L.Entry p) (s : σ) :
    p.solo s ∅ = some ((p.exec s).1, (p.exec s).2, ∅) := by
  cases h with
  | refuse r => rfl
  | enter h =>
    simp only [Prog.solo, Finset.notMem_empty, if_false, insert_empty_eq]
    exact (h (L.dir s)).solo rfl

end Solo

end Layout

end Interleave
