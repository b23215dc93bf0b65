import BankingSystem.Machinery.Numbered
import BankingSystem.Machinery.Settled

/-!
# Machinery/Serialize — two-level locking is serializable

Every interleaving of calls that follow the discipline of `Machinery/Discipline` answers as if the
calls had run one after another, in the order in which they acquired the directory mutex
(`answered_of_reachable`, `mem_of_reachable`), and every place in that order belongs to exactly one
call (`tickets_perm_of_reachable`): nothing is lost and nothing is applied twice.

The invariant is `Inv`; there is one lemma for each kind of step and each place a worker can stand.
-/

namespace Interleave

universe u v w x y z d e

variable {σ : Type u} {M : Type v} {ρ : Type w} {Op : Type x} {W : Type y}

namespace Layout

variable {D : Type d} {I : Type z} {V : Type e} {L : Layout σ M D I V}

variable (L) in
/-- **The invariant**: `pos` says where each worker stands and `S` is the settled state. -/
structure Inv (code : Op → Prog σ M ρ) (s₀ : σ) (c : Config W Op σ M ρ) (pos : W → Pos I)
    (S : σ) : Prop where
  own : Owns c.owner fun w => (pos w).Holds L
  fits : ∀ w, L.Fits code s₀ c.mem S c.order (pos w) (c.call w)
  dir : L.dir S = L.dir c.mem
  cell : ∀ i, (∀ w, pos w ≠ .tail i) → L.cell i S = L.cell i c.mem
  settled : (∀ w, ¬ (pos w).InDir) → S = final code s₀ c.order
  done : ∀ op t r, (op, t, r) ∈ c.done → Answered code s₀ c.order op r t

theorem Inv.start (code : Op → Prog σ M ρ) (s₀ : σ) :
    L.Inv code s₀ (.start s₀ : Config W Op σ M ρ) (fun _ => .out) s₀ where
  own := fun m w => by simp [Config.start, Pos.Holds]
  fits := fun _ => trivial
  dir := rfl
  cell := fun _ _ => rfl
  settled := fun _ => rfl
  done := fun _ _ _ h => absurd h (by simp [Config.start])

section Step

variable {code : Op → Prog σ M ρ} {s₀ : σ} {c : Config W Op σ M ρ} {pos : W → Pos I} {S : σ} {w : W}

/-- Nobody else is inside the directory. -/
theorem Inv.alone (h : L.Inv code s₀ c pos S) (hw : (pos w).InDir) {v : W} (hv : v ≠ w) :
    ¬ (pos v).InDir :=
  fun hd => hv (h.own.unique hd.holds hw.holds)

/-- Nobody is inside the directory while its mutex is free. -/
theorem Inv.free (h : L.Inv code s₀ c pos S) (hfree : c.owner L.dirLock = none) (v : W) :
    ¬ (pos v).InDir := fun hd => by
  have := (h.own L.dirLock v).mpr hd.holds
  rw [hfree] at this
  cases this

/-- Nobody else is on the same cell. -/
theorem Inv.ne_tail (h : L.Inv code s₀ c pos S) {i : I} (hw : (pos w).Holds L (L.cellLock i))
    {v : W} (hv : v ≠ w) {j : I} (hj : pos v = .tail j) : j ≠ i := by
  rintro rfl
  exact hv (h.own.unique (show (pos v).Holds L (L.cellLock j) by rw [hj]; rfl) hw)

/-- A worker between two calls stands outside. -/
theorem Inv.out_of_idle (h : L.Inv code s₀ c pos S) (hc : c.call w = none) : pos w = .out := by
  have hw := h.fits w
  rw [hc] at hw
  cases hp : pos w with
  | out => rfl
  | crit | both i | tail i =>
    rw [hp] at hw
    exact hw.elim

/-- With no call in flight, memory is the serial state. -/
theorem Inv.mem_of_quiet (h : L.Inv code s₀ c pos S) (hq : c.Quiet) :
    c.mem = final code s₀ c.order := by
  have hout : ∀ w, pos w = .out := fun w => h.out_of_idle (hq w)
  have hS : S = final code s₀ c.order := h.settled fun w hd => by rw [hout w] at hd; exact hd
  refine Eq.trans (L.ext h.dir.symm fun i => (h.cell i fun w hw => ?_).symm) hS
  rw [hout w] at hw
  cases hw

variable {op : Op} {t : Option ℕ}

/-- **Outside there is nothing left to do but return, or everything.** -/
theorem Inv.rest_of_out (hcode : ∀ op, L.Entry (code op)) (h : L.Inv code s₀ c pos S)
    (hp : pos w = .out) {p : Prog σ M ρ} (hc : c.call w = some ⟨op, t, p⟩) :
    (∃ r, p = .ret r) ∨ ∃ k, p = .lock L.dirLock k := by
  have hw := h.fits w
  rw [hc, hp] at hw
  obtain ⟨-, hk⟩ | ⟨_, -, -, hk⟩ := hw
  · have hentry := hcode op
    rw [← show p = code op from hk] at hentry
    cases hentry with
    | refuse r => exact Or.inl ⟨r, rfl⟩
    | enter _ => exact Or.inr ⟨_, rfl⟩
  · exact Or.inl ⟨_, hk⟩

/-- A call about to take the directory mutex has not begun. -/
theorem Inv.at_entry (h : L.Inv code s₀ c pos S) {k : Prog σ M ρ}
    (hc : c.call w = some ⟨op, t, .lock L.dirLock k⟩) (hfree : c.owner L.dirLock = none) :
    pos w = .out ∧ t = none ∧ Prog.lock L.dirLock k = code op := by
  have hw := h.fits w
  rw [hc] at hw
  cases hp : pos w with
  | out =>
    rw [hp] at hw
    obtain ⟨ht, hk⟩ | ⟨_, -, -, hk⟩ := hw
    · exact ⟨rfl, ht, hk⟩
    · cases hk
  | crit => exact absurd (by rw [hp]; exact trivial) (h.free hfree w)
  | both i => exact absurd (by rw [hp]; exact trivial) (h.free hfree w)
  | tail i => rw [hp] at hw; obtain ⟨_, -, -, -, hT, -⟩ := hw; cases hT

variable [DecidableEq W]

/-- The moving worker and the others, after the move. -/
theorem fits_update {s S : σ} {ops : List Op} {p : Pos I} {call : Option (Call Op σ M ρ)}
    (hw : L.Fits code s₀ s S ops p call)
    (hv : ∀ v, v ≠ w → L.Fits code s₀ s S ops (pos v) (c.call v)) (v : W) :
    L.Fits code s₀ s S ops (Function.update pos w p v) (Function.update c.call w call v) := by
  by_cases h : v = w
  · subst h
    rwa [Function.update_self, Function.update_self]
  · rw [Function.update_of_ne h, Function.update_of_ne h]
    exact hv v h

theorem holds_update (p : Pos I) :
    (fun v => (Function.update pos w p v).Holds L)
      = Function.update (fun v => (pos v).Holds L) w (p.Holds L) := by
  funext v
  by_cases h : v = w
  · subst h
    rw [Function.update_self, Function.update_self]
  · rw [Function.update_of_ne h, Function.update_of_ne h]

/-- **A worker moves on without a mutex, and the memory and the settled state stay put.** -/
theorem Inv.resume (h : L.Inv code s₀ c pos S) {call : Option (Call Op σ M ρ)}
    (hw : L.Fits code s₀ c.mem S c.order (pos w) call) :
    L.Inv code s₀ { c with call := Function.update c.call w call } pos S where
  own := h.own
  fits := fun v => by
    have := fits_update (w := w) hw (fun v _ => h.fits v) v
    rwa [Function.update_eq_self] at this
  dir := h.dir
  cell := h.cell
  settled := h.settled
  done := h.done

/-- Starting a call. -/
theorem Inv.invoke (h : L.Inv code s₀ c pos S) (hc : c.call w = none) (op : Op) :
    L.Inv code s₀ { c with call := Function.update c.call w (some ⟨op, none, code op⟩) } pos S := by
  refine h.resume ?_
  rw [h.out_of_idle hc]
  exact Or.inl ⟨rfl, rfl⟩

/-- Reading: inside the directory, memory and the settled state show the same directory; on a cell,
the rest of the call runs on memory itself. -/
theorem Inv.read (hcode : ∀ op, L.Entry (code op)) (h : L.Inv code s₀ c pos S)
    {k : σ → Prog σ M ρ} (hc : c.call w = some ⟨op, t, .read k⟩) :
    L.Inv code s₀ { c with call := Function.update c.call w (some ⟨op, t, k c.mem⟩) } pos S := by
  refine h.resume ?_
  have hw := h.fits w
  rw [hc] at hw
  cases hp : pos w with
  | out => obtain ⟨_, hk⟩ | ⟨_, hk⟩ := h.rest_of_out hcode hp hc <;> cases hk
  | crit =>
    rw [hp] at hw
    obtain ⟨n, ht, ho, hC, hx⟩ := hw
    cases hC with
    | read hk hC =>
      refine ⟨n, ht, ho, hC c.mem rfl, ?_⟩
      rw [Prog.exec_read, hk S c.mem h.dir rfl] at hx
      exact hx
  | both i =>
    rw [hp] at hw
    obtain ⟨_, _, -, -, hk, -⟩ := hw
    cases hk
  | tail i =>
    rw [hp] at hw
    obtain ⟨n, ht, ho, hi, hT, hr, hS⟩ := hw
    cases hT with
    | read hk hT => exact ⟨n, ht, ho, hi, hT c.mem, hr, hS⟩

/-- Returning. -/
theorem Inv.ret (h : L.Inv code s₀ c pos S) {r : ρ}
    (hc : c.call w = some ⟨op, t, .ret r⟩) :
    L.Inv code s₀ { c with call := Function.update c.call w none, done := (op, t, r) :: c.done }
      pos S := by
  have hw := h.fits w
  rw [hc] at hw
  have hout : pos w = .out := by
    cases hp : pos w with
    | out => rfl
    | crit => rw [hp] at hw; obtain ⟨_, -, -, hC, -⟩ := hw; cases hC
    | both i => rw [hp] at hw; obtain ⟨_, _, -, -, hk, -⟩ := hw; cases hk
    | tail i => rw [hp] at hw; obtain ⟨_, -, -, -, hT, -⟩ := hw; cases hT
  have hidle : L.Fits code s₀ c.mem S c.order (pos w) none := by rw [hout]; exact trivial
  have h' := h.resume hidle
  refine ⟨h'.own, h'.fits, h'.dir, h'.cell, h'.settled, fun op' t' r' hmem => ?_⟩
  rcases List.mem_cons.mp hmem with heq | hmem
  · obtain ⟨rfl, rfl, rfl⟩ : op' = op ∧ t' = t ∧ r' = r := by simpa using heq
    rw [hout] at hw
    obtain ⟨ht, hk⟩ | ⟨n, ht, ho, hk⟩ := hw
    · obtain rfl : t' = none := ht
      intro s
      rw [← hk]
      rfl
    · obtain rfl : t' = some n := ht
      exact ⟨ho, Prog.ret.inj hk⟩
  · exact h.done op' t' r' hmem

/-- **Writing inside the directory.**  The settled state is written too: `f` names the cells where
the two differ, so it leaves them alone. -/
theorem Inv.write_dir (h : L.Inv code s₀ c pos S) (hp : pos w = .crit) {d' : D} {f : σ → σ}
    {k : Prog σ M ρ} {n : ℕ} (ho : c.order[n]? = some op)
    (hf : L.Publish (L.dir c.mem) d' f) (hC : L.Crit d' k)
    (hx : k.exec (f S) = (answer code s₀ c.order op n, final code s₀ c.order)) :
    L.Inv code s₀ { c with
      mem := f c.mem, call := Function.update c.call w (some ⟨op, some n, k⟩) } pos (f S) := by
  have hin : (pos w).InDir := by rw [hp]; exact trivial
  have hd : L.dir (f c.mem) = d' := hf.dir c.mem rfl
  have hw : L.Fits code s₀ (f c.mem) (f S) c.order (pos w) (some ⟨op, some n, k⟩) := by
    rw [hp]
    exact ⟨n, rfl, ho, hd ▸ hC, hx⟩
  have hothers : ∀ v, v ≠ w → L.Fits code s₀ (f c.mem) (f S) c.order (pos v) (c.call v) :=
    fun v hv => (h.fits v).frame (fun i hi => hd ▸ hf.visible i hi)
      (fun hd => absurd hd (h.alone hin hv)) fun i hi => by
        have hv := h.fits v
        rw [hi] at hv
        cases hcv : c.call v with
        | none => rw [hcv] at hv; exact hv.elim
        | some call =>
          rw [hcv] at hv
          obtain ⟨_, -, -, hvis, -⟩ := hv
          exact ⟨hf.named i _ rfl hvis, hf.named i _ h.dir hvis⟩
  exact
    { own := h.own
      fits := fun v => by
        have := fits_update hw hothers v
        rwa [Function.update_eq_self] at this
      dir := (hf.dir S h.dir).trans hd.symm
      cell := fun i hi => hf.cell i S c.mem h.dir rfl (h.cell i hi)
      settled := fun hout => absurd hin (hout w)
      done := h.done }

/-- **Writing on a cell.**  The settled state does not notice. -/
theorem Inv.write_cell (h : L.Inv code s₀ c pos S) {i : I} (hp : pos w = .tail i) {f : σ → σ}
    {k : Prog σ M ρ} {n : ℕ} (ho : c.order[n]? = some op) (hi : L.visible (L.dir c.mem) i)
    (hf : L.Local i f) (hT : L.Tail i k)
    (hr : (k.exec (f c.mem)).1 = answer code s₀ c.order op n)
    (hS : L.cell i (k.exec (f c.mem)).2 = L.cell i S) :
    L.Inv code s₀ { c with
      mem := f c.mem, call := Function.update c.call w (some ⟨op, some n, k⟩) } pos S := by
  have hd : L.dir (f c.mem) = L.dir c.mem := hf.dir c.mem
  have hlock : (pos w).Holds L (L.cellLock i) := by rw [hp]; rfl
  have hw : L.Fits code s₀ (f c.mem) S c.order (pos w) (some ⟨op, some n, k⟩) := by
    rw [hp]
    exact ⟨n, rfl, ho, hd ▸ hi, hT, hr, hS⟩
  have hothers : ∀ v, v ≠ w → L.Fits code s₀ (f c.mem) S c.order (pos v) (c.call v) :=
    fun v hv => (h.fits v).frame (fun i hi => hd ▸ hi) (fun _ => ⟨hd, rfl⟩)
      fun j hj => ⟨hf.other j _ (h.ne_tail hlock hv hj), rfl⟩
  exact
    { own := h.own
      fits := fun v => by
        have := fits_update hw hothers v
        rwa [Function.update_eq_self] at this
      dir := h.dir.trans hd.symm
      cell := fun j hj => by
        have hne : j ≠ i := by
          rintro rfl
          exact hj w hp
        exact (h.cell j hj).trans (hf.other j _ hne).symm
      settled := h.settled
      done := h.done }

/-- A write step, wherever the worker stands. -/
theorem Inv.write (hcode : ∀ op, L.Entry (code op)) (h : L.Inv code s₀ c pos S) {f : σ → σ}
    {k : Prog σ M ρ} (hc : c.call w = some ⟨op, t, .write f k⟩) :
    ∃ S', L.Inv code s₀ { c with
      mem := f c.mem, call := Function.update c.call w (some ⟨op, t, k⟩) } pos S' := by
  have hw := h.fits w
  rw [hc] at hw
  cases hp : pos w with
  | out => obtain ⟨_, hk⟩ | ⟨_, hk⟩ := h.rest_of_out hcode hp hc <;> cases hk
  | crit =>
    rw [hp] at hw
    obtain ⟨n, rfl, ho, hC, hx⟩ := hw
    cases hC with
    | write hf hC => exact ⟨f S, h.write_dir hp ho hf hC hx⟩
  | both i =>
    rw [hp] at hw
    obtain ⟨_, _, -, -, hk, -⟩ := hw
    cases hk
  | tail i =>
    rw [hp] at hw
    obtain ⟨n, rfl, ho, hi, hT, hr, hS⟩ := hw
    cases hT with
    | write hf hT => exact ⟨S, h.write_cell hp ho hi hf hT hr hS⟩

variable [DecidableEq M]

/-- **Acquiring the directory mutex**: the call takes its place in the order, and everything it is
about to do is already in the serial state. -/
theorem Inv.acquire (hcode : ∀ op, L.Entry (code op)) (h : L.Inv code s₀ c pos S)
    {k : Prog σ M ρ} (hc : c.call w = some ⟨op, t, .lock L.dirLock k⟩)
    (hfree : c.owner L.dirLock = none) :
    L.Inv code s₀ { c with
      owner := Function.update c.owner L.dirLock (some w)
      call := Function.update c.call w (some ⟨op, some c.order.length, k⟩)
      order := c.order ++ [op] } (Function.update pos w .crit) S := by
  obtain ⟨hout, -, hk⟩ := h.at_entry hc hfree
  have hC : ∀ d, L.Crit d k := by
    have := hcode op
    rw [← hk] at this
    cases this with
    | enter hC => exact hC
  have hS : S = final code s₀ c.order := h.settled (h.free hfree)
  have hx : k.exec S = (answer code s₀ (c.order ++ [op]) op c.order.length,
      final code s₀ (c.order ++ [op])) := by
    rw [answer_append [op] op le_rfl, answer_length, final_append_singleton, ← hk, ← hS]
    rfl
  exact
    { own := by
        rw [holds_update]
        exact h.own.acquire hfree w fun n => by rw [hout]; simp [Pos.Holds]
      fits := fits_update
        ⟨c.order.length, rfl, by simp, hC _, hx⟩
        fun v _ => (h.fits v).frame_append (fun _ hi => hi)
          (fun hd => absurd hd (h.free hfree v)) fun _ _ => ⟨rfl, rfl⟩
      dir := h.dir
      cell := fun i hi => h.cell i fun v hv => by
        have hne : v ≠ w := by
          rintro rfl
          rw [hout] at hv
          cases hv
        exact hi v (by rw [Function.update_of_ne hne]; exact hv)
      settled := fun hno => absurd (by rw [Function.update_self]; exact trivial) (hno w)
      done := fun op r t hmem => (h.done op r t hmem).append [_] }

/-- **Acquiring the mutex of a cell**, with the directory mutex still held. -/
theorem Inv.lock (hcode : ∀ op, L.Entry (code op)) (h : L.Inv code s₀ c pos S) {m : M}
    {k : Prog σ M ρ} (hc : c.call w = some ⟨op, t, .lock m k⟩) (hm : m ≠ L.dirLock)
    (hfree : c.owner m = none) :
    ∃ i, L.Inv code s₀ { c with
      owner := Function.update c.owner m (some w)
      call := Function.update c.call w (some ⟨op, t, k⟩) }
      (Function.update pos w (.both i)) S := by
  have hw := h.fits w
  rw [hc] at hw
  cases hp : pos w with
  | out =>
    obtain ⟨_, hk⟩ | ⟨_, hk⟩ := h.rest_of_out hcode hp hc
    · cases hk
    · exact absurd (Prog.lock.inj hk).1 hm
  | crit =>
    rw [hp] at hw
    obtain ⟨n, rfl, ho, hC, hx⟩ := hw
    cases hC with
    | @hand _ i q hi hT =>
      refine ⟨i, ?_⟩
      have hstill : ∀ v, v ≠ w →
          L.Fits code s₀ c.mem S c.order (pos v) (c.call v) := fun v _ => h.fits v
      exact
        { own := by
            rw [holds_update]
            exact h.own.acquire hfree w fun n => by rw [hp]; rfl
          fits := fits_update ⟨n, q, rfl, ho, rfl, hi, hT, hx⟩ hstill
          dir := h.dir
          cell := fun j hj => h.cell j fun v hv => by
            have hne : v ≠ w := by
              rintro rfl
              rw [hp] at hv
              cases hv
            exact hj v (by rw [Function.update_of_ne hne]; exact hv)
          settled := fun hno => absurd (by rw [Function.update_self]; exact trivial) (hno w)
          done := h.done }
  | both i =>
    rw [hp] at hw
    obtain ⟨_, _, -, -, hk, -⟩ := hw
    cases hk
  | tail i =>
    rw [hp] at hw
    obtain ⟨_, -, -, -, hT, -⟩ := hw
    cases hT

/-- **Leaving the directory without a cell**: memory is the serial state. -/
theorem Inv.leave (h : L.Inv code s₀ c pos S) (hp : pos w = .crit) {n : ℕ} {r : ρ}
    (ho : c.order[n]? = some op) (hr : r = answer code s₀ c.order op n)
    (hS : S = final code s₀ c.order) :
    L.Inv code s₀ { c with
      owner := Function.update c.owner L.dirLock none
      call := Function.update c.call w (some ⟨op, some n, .ret r⟩) }
      (Function.update pos w .out) S where
  own := by
    rw [holds_update]
    exact h.own.release (show (pos w).Holds L L.dirLock by rw [hp]; rfl) fun n => by
      rw [hp]; simp [Pos.Holds]
  fits := fits_update (Or.inr ⟨n, rfl, ho, by rw [hr]⟩) fun v _ => h.fits v
  dir := h.dir
  cell := fun i hi => h.cell i fun v hv => by
    have hne : v ≠ w := by
      rintro rfl
      rw [hp] at hv
      cases hv
    exact hi v (by rw [Function.update_of_ne hne]; exact hv)
  settled := fun _ => hS
  done := h.done

/-- **Leaving the directory with a cell**: what the tail will do to its cell becomes part of the
settled state. -/
theorem Inv.hand (h : L.Inv code s₀ c pos S) {i : I} (hp : pos w = .both i) {n : ℕ}
    {q : Prog σ M ρ} (ho : c.order[n]? = some op) (hi : L.visible (L.dir c.mem) i)
    (hT : L.Tail i q) (hx : q.exec S = (answer code s₀ c.order op n, final code s₀ c.order)) :
    L.Inv code s₀ { c with
      owner := Function.update c.owner L.dirLock none
      call := Function.update c.call w (some ⟨op, some n, q⟩) }
      (Function.update pos w (.tail i)) (q.exec S).2 := by
  have hin : (pos w).InDir := by rw [hp]; exact trivial
  have hlock : (pos w).Holds L (L.cellLock i) := by rw [hp]; exact Or.inr rfl
  have hne : ∀ {v : W} {j : I}, pos v = .tail j → v ≠ w := fun {v j} hv => by
    rintro rfl
    rw [hp] at hv
    cases hv
  have hcell : L.cell i S = L.cell i c.mem :=
    h.cell i fun v hv => h.ne_tail hlock (hne hv) hv rfl
  obtain ⟨hr, hc⟩ := hT.exec_congr hcell
  obtain ⟨hd, hj⟩ := hT.exec_frame S
  have hothers : ∀ v, v ≠ w →
      L.Fits code s₀ c.mem (q.exec S).2 c.order (pos v) (c.call v) := fun v hv =>
    (h.fits v).frame (fun _ hi => hi) (fun hd => absurd hd (h.alone hin hv))
      fun j hjv => ⟨rfl, hj j (h.ne_tail hlock hv hjv)⟩
  exact
    { own := by
        rw [holds_update]
        refine h.own.release (show (pos w).Holds L L.dirLock by rw [hp]; exact Or.inl rfl)
          fun n => ?_
        rw [hp]
        change n = L.cellLock i ↔ (n = L.dirLock ∨ n = L.cellLock i) ∧ n ≠ L.dirLock
        constructor
        · rintro rfl
          exact ⟨Or.inr rfl, L.cellLock_ne i⟩
        · rintro ⟨h | h, hn⟩
          · exact absurd h hn
          · exact h
      fits := fits_update ⟨n, rfl, ho, hi, hT, by rw [← hr, hx], hc.symm⟩ hothers
      dir := hd.trans h.dir
      cell := fun j hno => by
        have hji : j ≠ i := by
          rintro rfl
          exact hno w (Function.update_self ..)
        rw [hj j hji]
        exact h.cell j fun v hv => hno v (by rw [Function.update_of_ne (hne hv)]; exact hv)
      settled := fun _ => by rw [hx]
      done := h.done }

/-- **Releasing a cell**: it has settled. -/
theorem Inv.settle (h : L.Inv code s₀ c pos S) {i : I} (hp : pos w = .tail i) {n : ℕ} {r : ρ}
    (ho : c.order[n]? = some op) (hr : r = answer code s₀ c.order op n)
    (hc : L.cell i c.mem = L.cell i S) :
    L.Inv code s₀ { c with
      owner := Function.update c.owner (L.cellLock i) none
      call := Function.update c.call w (some ⟨op, some n, .ret r⟩) }
      (Function.update pos w .out) S where
  own := by
    rw [holds_update]
    exact h.own.release (show (pos w).Holds L (L.cellLock i) by rw [hp]; rfl) fun n => by
      rw [hp]; simp [Pos.Holds]
  fits := fits_update (Or.inr ⟨n, rfl, ho, by rw [hr]⟩) fun v _ => h.fits v
  dir := h.dir
  cell := fun j hno => by
    by_cases hji : j = i
    · subst hji
      exact hc.symm
    · refine h.cell j fun v hv => ?_
      have hne : v ≠ w := by
        rintro rfl
        rw [hp] at hv
        exact hji (Pos.tail.inj hv).symm
      exact hno v (by rw [Function.update_of_ne hne]; exact hv)
  settled := fun hno => h.settled fun v hd => by
    have hne : v ≠ w := by
      rintro rfl
      rw [hp] at hd
      exact hd
    exact hno v (by rw [Function.update_of_ne hne]; exact hd)
  done := h.done

/-- An unlock step, wherever the worker stands. -/
theorem Inv.unlock (hcode : ∀ op, L.Entry (code op)) (h : L.Inv code s₀ c pos S) {m : M}
    {k : Prog σ M ρ} (hc : c.call w = some ⟨op, t, .unlock m k⟩) :
    ∃ p S', L.Inv code s₀ { c with
      owner := Function.update c.owner m none
      call := Function.update c.call w (some ⟨op, t, k⟩) } (Function.update pos w p) S' := by
  have hw := h.fits w
  rw [hc] at hw
  cases hp : pos w with
  | out => obtain ⟨_, hk⟩ | ⟨_, hk⟩ := h.rest_of_out hcode hp hc <;> cases hk
  | crit =>
    rw [hp] at hw
    obtain ⟨n, rfl, ho, hC, hx⟩ := hw
    cases hC with
    | leave r =>
      obtain ⟨hr, hS⟩ := Prod.mk.inj hx
      exact ⟨.out, S, h.leave hp ho hr hS⟩
  | both i =>
    rw [hp] at hw
    obtain ⟨n, q, rfl, ho, hk, hi, hT, hx⟩ := hw
    obtain ⟨rfl, rfl⟩ := Prog.unlock.inj hk
    exact ⟨.tail i, (k.exec S).2, h.hand hp ho hi hT hx⟩
  | tail i =>
    rw [hp] at hw
    obtain ⟨n, rfl, ho, -, hT, hr, hS⟩ := hw
    cases hT with
    | done r => exact ⟨.out, S, h.settle hp ho hr hS⟩

/-- **One step of one worker keeps the invariant.** -/
theorem Inv.step (hcode : ∀ op, L.Entry (code op)) (h : L.Inv code s₀ c pos S)
    {c' : Config W Op σ M ρ} (hs : Step code L.dirLock c c') :
    ∃ pos' S', L.Inv code s₀ c' pos' S' := by
  cases hs with
  | invoke op hc => exact ⟨pos, S, h.invoke hc op⟩
  | acquire hc hfree => exact ⟨_, S, h.acquire hcode hc hfree⟩
  | lock hc hm hfree =>
    obtain ⟨i, h'⟩ := h.lock hcode hc hm hfree
    exact ⟨_, S, h'⟩
  | unlock hc =>
    obtain ⟨p, S', h'⟩ := h.unlock hcode hc
    exact ⟨_, S', h'⟩
  | read hc => exact ⟨pos, S, h.read hcode hc⟩
  | write hc =>
    obtain ⟨S', h'⟩ := h.write hcode hc
    exact ⟨pos, S', h'⟩
  | ret hc => exact ⟨pos, S, h.ret hc⟩

end Step

/-! ## Every interleaving is serial -/

section Run

variable [DecidableEq W] [DecidableEq M] {code : Op → Prog σ M ρ} {s₀ : σ}
  {c c' : Config W Op σ M ρ}

omit [DecidableEq M] in
/-- The places held after one worker's call changed. -/
theorem ticketOf_eq_update {w : W} {call : Option (Call Op σ M ρ)}
    (h : c'.call = Function.update c.call w call) :
    c'.ticketOf = Function.update c.ticketOf w (call.bind Call.ticket) := by
  funext v
  by_cases hv : v = w
  · subst hv
    rw [Config.ticketOf, h, Function.update_self, Function.update_self]
  · rw [Config.ticketOf, h, Function.update_of_ne hv, Function.update_of_ne hv, Config.ticketOf]

omit [DecidableEq M] in
/-- A worker that resumes with the place it had holds what it held. -/
theorem ticketOf_resume {w : W} {op : Op} {t : Option ℕ} {p q : Prog σ M ρ}
    (hc : c.call w = some ⟨op, t, p⟩)
    (h : c'.call = Function.update c.call w (some ⟨op, t, q⟩)) : c'.ticketOf = c.ticketOf := by
  have ht : (some (⟨op, t, q⟩ : Call Op σ M ρ)).bind Call.ticket = c.ticketOf w := by
    rw [Config.ticketOf, hc]
    rfl
  rw [ticketOf_eq_update h, ht, Function.update_eq_self]

/-- **One step keeps the numbering**: only an acquisition of the directory mutex takes a place, and
the discipline lets a call do that once. -/
theorem Inv.numbered_step {pos : W → Pos I} {S : σ}
    (h : L.Inv code s₀ c pos S) (hn : Numbered c.order.length c.tickets c.ticketOf)
    (hs : Step code L.dirLock c c') : Numbered c'.order.length c'.tickets c'.ticketOf := by
  cases hs with
  | @invoke w op hc =>
    have ht : none = c.ticketOf w := by
      rw [Config.ticketOf, hc]
      rfl
    rw [ticketOf_eq_update rfl, Option.bind_some, ht, Function.update_eq_self]
    exact hn
  | @acquire w op t k hc hfree =>
    have hw : c.ticketOf w = none := by
      rw [Config.ticketOf, hc, (h.at_entry hc hfree).2.1]
      rfl
    rw [ticketOf_eq_update rfl, List.length_append]
    exact hn.take hw
  | lock hc hm hfree => rw [ticketOf_resume hc rfl]; exact hn
  | unlock hc => rw [ticketOf_resume hc rfl]; exact hn
  | read hc => rw [ticketOf_resume hc rfl]; exact hn
  | write hc => rw [ticketOf_resume hc rfl]; exact hn
  | @ret w op t r hc =>
    have htickets : (((op, t, r) :: c.done).filterMap fun d => d.2.1)
        = (c.ticketOf w).toList ++ c.tickets := by
      rw [Config.ticketOf, hc]
      cases t <;> rfl
    rw [ticketOf_eq_update rfl, Config.tickets, htickets]
    exact hn.finish

/-- **Every interleaving keeps the invariant and the numbering.** -/
theorem inv_of_reachable (hcode : ∀ op, L.Entry (code op)) (h : Reachable code L.dirLock s₀ c) :
    ∃ pos S, L.Inv code s₀ c pos S ∧ Numbered c.order.length c.tickets c.ticketOf :=
  h.invariant
    (P := fun c => ∃ pos S, L.Inv code s₀ c pos S ∧ Numbered c.order.length c.tickets c.ticketOf)
    ⟨_, s₀, Inv.start code s₀, Numbered.start⟩
    fun _ _ ⟨_, _, hI, hn⟩ hs =>
      have ⟨pos', S', hI'⟩ := hI.step hcode hs
      ⟨pos', S', hI', hI.numbered_step hn hs⟩

/-- **What a completed call returned is the serial answer.** -/
theorem answered_of_reachable (hcode : ∀ op, L.Entry (code op))
    (h : Reachable code L.dirLock s₀ c) {op : Op} {t : Option ℕ} {r : ρ}
    (hd : (op, t, r) ∈ c.done) : Answered code s₀ c.order op r t :=
  have ⟨_, _, hI, _⟩ := inv_of_reachable hcode h
  hI.done op t r hd

/-- **With no call in flight, memory is the serial state.** -/
theorem mem_of_reachable (hcode : ∀ op, L.Entry (code op)) (h : Reachable code L.dirLock s₀ c)
    (hq : c.Quiet) : c.mem = final code s₀ c.order :=
  have ⟨_, _, hI, _⟩ := inv_of_reachable hcode h
  hI.mem_of_quiet hq

/-- **With no call in flight, the completed calls are exactly the places of the order.** -/
theorem tickets_perm_of_reachable (hcode : ∀ op, L.Entry (code op))
    (h : Reachable code L.dirLock s₀ c) (hq : c.Quiet) :
    c.tickets.Perm (List.range c.order.length) :=
  have ⟨_, _, _, hn⟩ := inv_of_reachable hcode h
  hn.perm_range fun w => by rw [Config.ticketOf, hq w]; rfl

end Run

end Layout

end Interleave
