import BankingSystem.Machinery.Discipline

/-!
# Machinery/Settled — where a call of an interleaving stands

A call in flight stands outside, inside the directory, inside it with the mutex of a cell, or on
that cell alone (`Pos`).  `Fits` says what is left of it there, against two states: memory, and the
*settled* state — what memory will be once every call that has left the directory is done.  A call
inside the directory runs against the settled state, because the only cells where the two differ are
locked by somebody who is about to settle them.
-/

namespace Interleave

universe u v w x y z d e

variable {σ : Type u} {M : Type v} {ρ : Type w} {Op : Type x} {W : Type y}

namespace Layout

variable {D : Type d} {I : Type z} {V : Type e} {L : Layout σ M D I V}

/-! ## The invariant of an interleaving -/

/-- Where a call stands: outside, in the directory, in the directory with the mutex of a cell, or on
that cell alone. -/
inductive Pos (I : Type z) where
  | out
  | crit
  | both (i : I)
  | tail (i : I)

variable (L) in
/-- The mutexes a call holds at each place. -/
def Pos.Holds : Pos I → M → Prop
  | .out, _ => False
  | .crit, m => m = L.dirLock
  | .both i, m => m = L.dirLock ∨ m = L.cellLock i
  | .tail i, m => m = L.cellLock i

/-- The places where the directory mutex is held. -/
def Pos.InDir : Pos I → Prop
  | .crit | .both _ => True
  | .out | .tail _ => False

theorem Pos.InDir.holds {p : Pos I} (h : p.InDir) : p.Holds L L.dirLock := by
  cases p with
  | out => exact h.elim
  | crit => rfl
  | both i => exact Or.inl rfl
  | tail i => exact h.elim

variable (L) in
/-- **What is left of a call at each place**, with `s` the memory, `S` the settled state and `ops`
the order of acquisitions so far.  Inside the directory the rest of the call, run on the settled
state, gives the serial answer and the serial state; on a cell it does so for that cell. -/
def Fits (code : Op → Prog σ M ρ) (s₀ s S : σ) (ops : List Op) :
    Pos I → Option (Call Op σ M ρ) → Prop
  | .out, none => True
  | .out, some c => (c.ticket = none ∧ c.rest = code c.op) ∨
      ∃ t, c.ticket = some t ∧ ops[t]? = some c.op ∧ c.rest = .ret (answer code s₀ ops c.op t)
  | .crit, some c => ∃ t, c.ticket = some t ∧ ops[t]? = some c.op ∧ L.Crit (L.dir s) c.rest ∧
      c.rest.exec S = (answer code s₀ ops c.op t, final code s₀ ops)
  | .both i, some c => ∃ t q, c.ticket = some t ∧ ops[t]? = some c.op ∧
      c.rest = .unlock L.dirLock q ∧ L.visible (L.dir s) i ∧ L.Tail i q ∧
      q.exec S = (answer code s₀ ops c.op t, final code s₀ ops)
  | .tail i, some c => ∃ t, c.ticket = some t ∧ ops[t]? = some c.op ∧
      L.visible (L.dir s) i ∧ L.Tail i c.rest ∧
      (c.rest.exec s).1 = answer code s₀ ops c.op t ∧ L.cell i (c.rest.exec s).2 = L.cell i S
  | _, none => False

/-- What a completed call returned is the serial answer; without a place in the order it is the
answer at every state, and leaves every state as it is. -/
def Answered (code : Op → Prog σ M ρ) (s₀ : σ) (ops : List Op) (op : Op) (r : ρ) :
    Option ℕ → Prop
  | some t => ops[t]? = some op ∧ r = answer code s₀ ops op t
  | none => ∀ s, (code op).exec s = (r, s)

theorem Answered.append {code : Op → Prog σ M ρ} {s₀ : σ} {ops : List Op} {op : Op} {r : ρ}
    {t : Option ℕ} (h : Answered code s₀ ops op r t) (later : List Op) :
    Answered code s₀ (ops ++ later) op r t := by
  cases t with
  | none => exact h
  | some t =>
    obtain ⟨ho, hr⟩ := h
    have ht : t < ops.length := (List.getElem?_eq_some_iff.mp ho).1
    exact ⟨by rw [List.getElem?_append_left ht, ho], hr.trans (answer_append later op ht.le).symm⟩

/-- **A worker that does not move is not disturbed**: it needs the cells the directory names to stay
named, its own cell to stay as it is, and, inside the directory, the directory to itself. -/
theorem Fits.frame_append {code : Op → Prog σ M ρ} {s₀ s s' S S' : σ} {ops later : List Op}
    {p : Pos I} {call : Option (Call Op σ M ρ)} (h : L.Fits code s₀ s S ops p call)
    (hvis : ∀ i, L.visible (L.dir s) i → L.visible (L.dir s') i)
    (hin : p.InDir → L.dir s' = L.dir s ∧ S' = S ∧ later = [])
    (htail : ∀ i, p = .tail i → L.cell i s' = L.cell i s ∧ L.cell i S' = L.cell i S) :
    L.Fits code s₀ s' S' (ops ++ later) p call := by
  have hget : ∀ {t : ℕ} {op : Op}, ops[t]? = some op → (ops ++ later)[t]? = some op ∧
      answer code s₀ (ops ++ later) op t = answer code s₀ ops op t := fun {t op} ho => by
    have ht : t < ops.length := (List.getElem?_eq_some_iff.mp ho).1
    exact ⟨by rw [List.getElem?_append_left ht, ho], answer_append later op ht.le⟩
  cases call with
  | none => cases p <;> exact h
  | some c =>
    cases p with
    | out =>
      refine h.imp_right fun ⟨t, ht, ho, hr⟩ => ⟨t, ht, (hget ho).1, ?_⟩
      rw [(hget ho).2, hr]
    | crit =>
      obtain ⟨hd, rfl, rfl⟩ := hin trivial
      rw [List.append_nil]
      obtain ⟨t, ht, ho, hc, hx⟩ := h
      exact ⟨t, ht, ho, hd ▸ hc, hx⟩
    | both i =>
      obtain ⟨hd, rfl, rfl⟩ := hin trivial
      rw [List.append_nil]
      obtain ⟨t, q, ht, ho, hq, hi, hT, hx⟩ := h
      exact ⟨t, q, ht, ho, hq, hvis i hi, hT, hx⟩
    | tail i =>
      obtain ⟨hs, hS⟩ := htail i rfl
      obtain ⟨t, ht, ho, hi, hT, hr, hc⟩ := h
      obtain ⟨hr', hc'⟩ := hT.exec_congr hs
      exact ⟨t, ht, (hget ho).1, hvis i hi, hT, hr'.trans (hr.trans (hget ho).2.symm),
        hc'.trans (hc.trans hS.symm)⟩

/-- The same, when the order stays as it is. -/
theorem Fits.frame {code : Op → Prog σ M ρ} {s₀ s s' S S' : σ} {ops : List Op} {p : Pos I}
    {call : Option (Call Op σ M ρ)} (h : L.Fits code s₀ s S ops p call)
    (hvis : ∀ i, L.visible (L.dir s) i → L.visible (L.dir s') i)
    (hin : p.InDir → L.dir s' = L.dir s ∧ S' = S)
    (htail : ∀ i, p = .tail i → L.cell i s' = L.cell i s ∧ L.cell i S' = L.cell i S) :
    L.Fits code s₀ s' S' ops p call := by
  have : L.Fits code s₀ s' S' (ops ++ []) p call :=
    h.frame_append hvis (fun hp => ⟨(hin hp).1, (hin hp).2, rfl⟩) htail
  rwa [List.append_nil] at this

end Layout

/-- Every mutex is held by exactly the workers `H` says. -/
def Owns (owner : M → Option W) (H : W → M → Prop) : Prop :=
  ∀ m w, owner m = some w ↔ H w m

section Owns

variable {owner : M → Option W} {H : W → M → Prop}

theorem Owns.unique (h : Owns owner H) {m : M} {v w : W} (hv : H v m) (hw : H w m) : v = w :=
  Option.some.inj (((h m v).mpr hv).symm.trans ((h m w).mpr hw))

variable [DecidableEq W] [DecidableEq M]

theorem Owns.acquire (h : Owns owner H) {m : M} (hm : owner m = none) (w : W)
    {Hw : M → Prop} (hw : ∀ n, Hw n ↔ H w n ∨ n = m) :
    Owns (Function.update owner m (some w)) (Function.update H w Hw) := by
  intro n v
  by_cases hn : n = m
  · subst hn
    rw [Function.update_self]
    by_cases hv : v = w
    · subst hv
      simp [hw]
    · have hno : ¬ H v n := fun hH => by
        have := (h n v).mpr hH
        rw [hm] at this
        cases this
      simp [Function.update_of_ne hv, hno, Ne.symm hv]
  · rw [Function.update_of_ne hn, h n v]
    by_cases hv : v = w
    · subst hv
      simp [hw, hn]
    · rw [Function.update_of_ne hv]

theorem Owns.release (h : Owns owner H) {m : M} {w : W} (hm : H w m)
    {Hw : M → Prop} (hw : ∀ n, Hw n ↔ H w n ∧ n ≠ m) :
    Owns (Function.update owner m none) (Function.update H w Hw) := by
  intro n v
  by_cases hn : n = m
  · subst hn
    rw [Function.update_self]
    by_cases hv : v = w
    · subst hv
      simp [hw]
    · have hno : ¬ H v n := fun hH => hv (h.unique hH hm)
      simp [Function.update_of_ne hv, hno]
  · rw [Function.update_of_ne hn, h n v]
    by_cases hv : v = w
    · subst hv
      simp [hw, hn]
    · rw [Function.update_of_ne hv]

end Owns

end Interleave
