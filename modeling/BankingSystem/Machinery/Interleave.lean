import Mathlib.Data.Finset.Basic
import Mathlib.Logic.Function.Basic

/-!
# Machinery/Interleave — programs over a shared state, one atomic step at a time

A `Prog` is a piece of code over a shared state `σ` and mutexes `M`, cut at its atomic steps: every
constructor is one lock, one unlock, one read or one write.  The same program text has two
meanings.  `exec` runs it alone; `Step` runs any number of workers side by side, one atomic step of
one worker at a time, with the only promise a mutex makes: it is locked by nobody twice.

A `Config` also remembers what an observer saw: in which order the calls acquired the serializing
mutex (`order`), and what every completed call returned (`done`), with its place in that order.
-/

namespace Interleave

universe u v w x y

/-- **A program over a shared state `σ` and mutexes `M`**, returning a `ρ`: every constructor is one
atomic step. -/
inductive Prog (σ : Type u) (M : Type v) (ρ : Type w) : Type (max u v w) where
  | ret (r : ρ)
  | lock (m : M) (k : Prog σ M ρ)
  | unlock (m : M) (k : Prog σ M ρ)
  | read (k : σ → Prog σ M ρ)
  | write (f : σ → σ) (k : Prog σ M ρ)

variable {σ : Type u} {M : Type v} {ρ ρ' : Type w} {Op : Type x} {W : Type y}

/-! ## Running a program alone -/

/-- What the program returns and leaves behind when nothing else runs. -/
def Prog.exec : Prog σ M ρ → σ → ρ × σ
  | ret r, s => (r, s)
  | lock _ k, s => k.exec s
  | unlock _ k, s => k.exec s
  | read k, s => (k s).exec s
  | write f k, s => k.exec (f s)

section Exec

@[simp] theorem Prog.exec_ret (r : ρ) (s : σ) : (ret r : Prog σ M ρ).exec s = (r, s) := rfl

@[simp] theorem Prog.exec_lock (m : M) (k : Prog σ M ρ) (s : σ) :
    (lock m k).exec s = k.exec s := rfl

@[simp] theorem Prog.exec_unlock (m : M) (k : Prog σ M ρ) (s : σ) :
    (unlock m k).exec s = k.exec s := rfl

@[simp] theorem Prog.exec_read (k : σ → Prog σ M ρ) (s : σ) :
    (read k).exec s = (k s).exec s := rfl

@[simp] theorem Prog.exec_write (f : σ → σ) (k : Prog σ M ρ) (s : σ) :
    (write f k).exec s = k.exec (f s) := rfl

end Exec

/-- Post-process what a program returns. -/
def Prog.map (f : ρ → ρ') : Prog σ M ρ → Prog σ M ρ'
  | ret r => ret (f r)
  | lock m k => lock m (k.map f)
  | unlock m k => unlock m (k.map f)
  | read k => read fun s => (k s).map f
  | write g k => write g (k.map f)

@[simp] theorem Prog.exec_map (f : ρ → ρ') (p : Prog σ M ρ) (s : σ) :
    (p.map f).exec s = (f (p.exec s).1, (p.exec s).2) := by
  induction p generalizing s with
  | ret r => rfl
  | lock m k ih => exact ih s
  | unlock m k ih => exact ih s
  | read k ih => exact ih s s
  | write g k ih => exact ih (g s)

theorem Prog.map_map {ρ'' : Type w} (f : ρ → ρ') (g : ρ' → ρ'') (p : Prog σ M ρ) :
    (p.map f).map g = p.map fun r => g (f r) := by
  induction p with
  | ret r => rfl
  | lock m k ih => exact congrArg (lock m) ih
  | unlock m k ih => exact congrArg (unlock m) ih
  | read k ih => exact congrArg read (funext ih)
  | write h k ih => exact congrArg (write h) ih

/-- One program after another. -/
def Prog.bind : Prog σ M ρ → (ρ → Prog σ M ρ') → Prog σ M ρ'
  | ret r, f => f r
  | lock m k, f => lock m (k.bind f)
  | unlock m k, f => unlock m (k.bind f)
  | read k, f => read fun s => (k s).bind f
  | write g k, f => write g (k.bind f)

theorem Prog.exec_bind (p : Prog σ M ρ) (f : ρ → Prog σ M ρ') (s : σ) :
    (p.bind f).exec s = (f (p.exec s).1).exec (p.exec s).2 := by
  induction p generalizing s with
  | ret r => rfl
  | lock m k ih => exact ih s
  | unlock m k ih => exact ih s
  | read k ih => exact ih s s
  | write g k ih => exact ih (g s)

/-- **Running alone, with the mutexes accounted for.**  `none` is a program that waits for a mutex
it holds itself, or releases one it does not hold. -/
def Prog.solo [DecidableEq M] : Prog σ M ρ → σ → Finset M → Option (ρ × σ × Finset M)
  | ret r, s, held => some (r, s, held)
  | lock m k, s, held => if m ∈ held then none else k.solo s (insert m held)
  | unlock m k, s, held => if m ∈ held then k.solo s (held.erase m) else none
  | read k, s, held => (k s).solo s held
  | write f k, s, held => k.solo (f s) held

/-! ## Running among others -/

/-- **What a program may return while others change the state**: every read finds any state. -/
inductive Prog.Returns : Prog σ M ρ → ρ → Prop
  | ret (r : ρ) : Returns (.ret r) r
  | lock {m : M} {k : Prog σ M ρ} {r : ρ} (h : Returns k r) : Returns (.lock m k) r
  | unlock {m : M} {k : Prog σ M ρ} {r : ρ} (h : Returns k r) : Returns (.unlock m k) r
  | read {k : σ → Prog σ M ρ} {r : ρ} (s : σ) (h : Returns (k s) r) : Returns (.read k) r
  | write {f : σ → σ} {k : Prog σ M ρ} {r : ρ} (h : Returns k r) : Returns (.write f k) r

/-- Running alone is one way of running. -/
theorem Prog.returns_exec (p : Prog σ M ρ) (s : σ) : p.Returns (p.exec s).1 := by
  induction p generalizing s with
  | ret r => exact .ret r
  | lock m k ih => exact .lock (ih s)
  | unlock m k ih => exact .unlock (ih s)
  | read k ih => exact .read s (ih s s)
  | write f k ih => exact .write (ih (f s))

/-- **One program after another returns what the second does** on a result of the first. -/
theorem Prog.returns_bind {p : Prog σ M ρ} {f : ρ → Prog σ M ρ'} {r' : ρ'} :
    (p.bind f).Returns r' ↔ ∃ r, p.Returns r ∧ (f r).Returns r' := by
  constructor
  · intro h
    induction p with
    | ret r => exact ⟨r, .ret r, h⟩
    | lock m k ih =>
      cases h with
      | lock h =>
        obtain ⟨r, hr, hf⟩ := ih h
        exact ⟨r, .lock hr, hf⟩
    | unlock m k ih =>
      cases h with
      | unlock h =>
        obtain ⟨r, hr, hf⟩ := ih h
        exact ⟨r, .unlock hr, hf⟩
    | read k ih =>
      cases h with
      | read s h =>
        obtain ⟨r, hr, hf⟩ := ih s h
        exact ⟨r, .read s hr, hf⟩
    | write g k ih =>
      cases h with
      | write h =>
        obtain ⟨r, hr, hf⟩ := ih h
        exact ⟨r, .write hr, hf⟩
  · rintro ⟨r, hr, hf⟩
    induction hr with
    | ret r => exact hf
    | lock _ ih => exact .lock (ih hf)
    | unlock _ ih => exact .unlock (ih hf)
    | read s _ ih => exact .read s (ih hf)
    | write _ ih => exact .write (ih hf)

theorem Prog.map_eq_bind (f : ρ → ρ') (p : Prog σ M ρ) :
    p.map f = p.bind fun r => .ret (f r) := by
  induction p with
  | ret r => rfl
  | lock m k ih => exact congrArg (lock m) ih
  | unlock m k ih => exact congrArg (unlock m) ih
  | read k ih => exact congrArg read (funext ih)
  | write g k ih => exact congrArg (write g) ih

/-- Post-processing is felt in the result only. -/
theorem Prog.returns_map {p : Prog σ M ρ} {f : ρ → ρ'} {r' : ρ'} :
    (p.map f).Returns r' ↔ ∃ r, p.Returns r ∧ f r = r' := by
  rw [map_eq_bind, returns_bind]
  refine exists_congr fun r => and_congr_right fun _ => ⟨fun h => ?_, fun h => ?_⟩
  · cases h
    rfl
  · rw [h]
    exact .ret _

/-! ## One operation after another -/

/-- The state after the operations ran one after another. -/
def final (code : Op → Prog σ M ρ) (s : σ) (ops : List Op) : σ :=
  ops.foldl (fun s op => ((code op).exec s).2) s

/-- What `op` returns when it runs after the first `t` operations of `ops`. -/
def answer (code : Op → Prog σ M ρ) (s : σ) (ops : List Op) (op : Op) (t : ℕ) : ρ :=
  ((code op).exec (final code s (ops.take t))).1

@[simp] theorem final_append_singleton (code : Op → Prog σ M ρ) (s : σ) (ops : List Op)
    (op : Op) : final code s (ops ++ [op]) = ((code op).exec (final code s ops)).2 := by
  simp [final]

/-- Operations that come later do not change an answer already given. -/
theorem answer_append {code : Op → Prog σ M ρ} {s : σ} {ops : List Op} (later : List Op) (op : Op)
    {t : ℕ} (ht : t ≤ ops.length) :
    answer code s (ops ++ later) op t = answer code s ops op t := by
  rw [answer, answer, List.take_append_of_le_length ht]

/-- The answer to the operation that comes next. -/
theorem answer_length (code : Op → Prog σ M ρ) (s : σ) (ops : List Op) (op : Op) :
    answer code s ops op ops.length = ((code op).exec (final code s ops)).1 := by
  rw [answer, List.take_length]

/-! ## Workers side by side -/

/-- A call in flight: the operation called, its place in the order of acquisitions once it has
one, and what is left to run. -/
structure Call (Op : Type x) (σ : Type u) (M : Type v) (ρ : Type w) where
  op : Op
  ticket : Option ℕ
  rest : Prog σ M ρ

/-- **A configuration of the workers `W`**, with the history an observer keeps. -/
structure Config (W : Type y) (Op : Type x) (σ : Type u) (M : Type v) (ρ : Type w) where
  mem : σ
  /-- Who holds each mutex. -/
  owner : M → Option W
  /-- What each worker is doing; `none` between two calls. -/
  call : W → Option (Call Op σ M ρ)
  /-- The operations that acquired the serializing mutex, in that order. -/
  order : List Op
  /-- The completed calls: operation, place in `order`, returned value. -/
  done : List (Op × Option ℕ × ρ)

/-- Every worker idle, every mutex free, nothing observed. -/
def Config.start (s : σ) : Config W Op σ M ρ := ⟨s, fun _ => none, fun _ => none, [], []⟩

/-- No operation is in flight. -/
def Config.Quiet (c : Config W Op σ M ρ) : Prop := ∀ w, c.call w = none

variable [DecidableEq W] [DecidableEq M]

/-- **One atomic step of one worker.**  `code` is the text of each operation and `g` the mutex
whose acquisitions are recorded.  A lock step exists only while the mutex is free; an unlock step
frees the mutex, whoever holds it. -/
inductive Step (code : Op → Prog σ M ρ) (g : M) :
    Config W Op σ M ρ → Config W Op σ M ρ → Prop
  | invoke {c : Config W Op σ M ρ} {w : W} (op : Op) (h : c.call w = none) :
      Step code g c { c with call := Function.update c.call w (some ⟨op, none, code op⟩) }
  | acquire {c : Config W Op σ M ρ} {w : W} {op : Op} {t : Option ℕ} {k : Prog σ M ρ}
      (h : c.call w = some ⟨op, t, .lock g k⟩) (hfree : c.owner g = none) :
      Step code g c { c with
        owner := Function.update c.owner g (some w)
        call := Function.update c.call w (some ⟨op, some c.order.length, k⟩)
        order := c.order ++ [op] }
  | lock {c : Config W Op σ M ρ} {w : W} {op : Op} {t : Option ℕ} {m : M} {k : Prog σ M ρ}
      (h : c.call w = some ⟨op, t, .lock m k⟩) (hm : m ≠ g) (hfree : c.owner m = none) :
      Step code g c { c with
        owner := Function.update c.owner m (some w)
        call := Function.update c.call w (some ⟨op, t, k⟩) }
  | unlock {c : Config W Op σ M ρ} {w : W} {op : Op} {t : Option ℕ} {m : M} {k : Prog σ M ρ}
      (h : c.call w = some ⟨op, t, .unlock m k⟩) :
      Step code g c { c with
        owner := Function.update c.owner m none
        call := Function.update c.call w (some ⟨op, t, k⟩) }
  | read {c : Config W Op σ M ρ} {w : W} {op : Op} {t : Option ℕ} {k : σ → Prog σ M ρ}
      (h : c.call w = some ⟨op, t, .read k⟩) :
      Step code g c { c with call := Function.update c.call w (some ⟨op, t, k c.mem⟩) }
  | write {c : Config W Op σ M ρ} {w : W} {op : Op} {t : Option ℕ} {f : σ → σ}
      {k : Prog σ M ρ} (h : c.call w = some ⟨op, t, .write f k⟩) :
      Step code g c { c with
        mem := f c.mem
        call := Function.update c.call w (some ⟨op, t, k⟩) }
  | ret {c : Config W Op σ M ρ} {w : W} {op : Op} {t : Option ℕ} {r : ρ}
      (h : c.call w = some ⟨op, t, .ret r⟩) :
      Step code g c { c with
        call := Function.update c.call w none
        done := (op, t, r) :: c.done }

/-- The configurations some interleaving reaches from idle workers over `s`. -/
inductive Reachable (code : Op → Prog σ M ρ) (g : M) (s : σ) : Config W Op σ M ρ → Prop
  | start : Reachable code g s (.start s)
  | step {c c' : Config W Op σ M ρ} :
      Reachable code g s c → Step code g c c' → Reachable code g s c'

/-- **An invariant of one step is an invariant of every run.** -/
theorem Reachable.invariant {code : Op → Prog σ M ρ} {g : M} {s : σ}
    {P : Config W Op σ M ρ → Prop} (h0 : P (.start s))
    (hstep : ∀ c c', P c → Step code g c c' → P c') {c : Config W Op σ M ρ}
    (h : Reachable code g s c) : P c := by
  induction h with
  | start => exact h0
  | step _ hs ih => exact hstep _ _ ih hs

/-- What is left of a call returns what its operation may return, and so did the completed calls. -/
structure Config.Returning (code : Op → Prog σ M ρ) (c : Config W Op σ M ρ) : Prop where
  call : ∀ w k, c.call w = some k → ∀ r, k.rest.Returns r → (code k.op).Returns r
  done : ∀ d ∈ c.done, (code d.1).Returns d.2.2

omit [DecidableEq M] in
theorem Config.Returning.update {code : Op → Prog σ M ρ} {c c' : Config W Op σ M ρ} {w : W}
    {x : Option (Call Op σ M ρ)} (h : c.Returning code)
    (hx : ∀ k, x = some k → ∀ r, k.rest.Returns r → (code k.op).Returns r)
    (hcall : c'.call = Function.update c.call w x)
    (hdone : ∀ d ∈ c'.done, (code d.1).Returns d.2.2) : c'.Returning code := by
  refine ⟨fun v k hv => ?_, hdone⟩
  rw [hcall] at hv
  by_cases hvw : v = w
  · subst hvw
    rw [Function.update_self] at hv
    exact hx k hv
  · rw [Function.update_of_ne hvw] at hv
    exact h.call v k hv

omit [DecidableEq M] in
theorem Config.Returning.resume {code : Op → Prog σ M ρ} {c c' : Config W Op σ M ρ} {w : W}
    {op : Op} {t t' : Option ℕ} {p p' : Prog σ M ρ} (h : c.Returning code)
    (hk : c.call w = some ⟨op, t, p⟩) (hp : ∀ r, p'.Returns r → p.Returns r)
    (hcall : c'.call = Function.update c.call w (some ⟨op, t', p'⟩)) (hdone : c'.done = c.done) :
    c'.Returning code := by
  refine h.update (fun k hx r hr => ?_) hcall (hdone ▸ h.done)
  obtain rfl := Option.some.inj hx
  exact h.call w _ hk r (hp r hr)

/-- **One step of any worker leaves every call with results of its operation.** -/
theorem Config.Returning.step {code : Op → Prog σ M ρ} {g : M} {c c' : Config W Op σ M ρ}
    (h : c.Returning code) (hs : Step code g c c') : c'.Returning code := by
  cases hs with
  | invoke op _ =>
    refine h.update (fun k hx r hr => ?_) rfl h.done
    obtain rfl := Option.some.inj hx
    exact hr
  | acquire hk _ => exact h.resume hk (fun _ hr => .lock hr) rfl rfl
  | lock hk _ _ => exact h.resume hk (fun _ hr => .lock hr) rfl rfl
  | unlock hk => exact h.resume hk (fun _ hr => .unlock hr) rfl rfl
  | read hk => exact h.resume hk (fun _ hr => .read _ hr) rfl rfl
  | write hk => exact h.resume hk (fun _ hr => .write hr) rfl rfl
  | ret hk =>
    refine h.update (fun k hx => absurd hx.symm (Option.some_ne_none k)) rfl fun d hd => ?_
    obtain rfl | hd := List.mem_cons.mp hd
    · exact h.call _ _ hk _ (.ret _)
    · exact h.done d hd

/-- **Whatever the others do, a completed call returned what its program may return.** -/
theorem Reachable.returns {code : Op → Prog σ M ρ} {g : M} {s : σ} {c : Config W Op σ M ρ}
    (h : Reachable code g s c) {op : Op} {t : Option ℕ} {r : ρ} (hd : (op, t, r) ∈ c.done) :
    (code op).Returns r := by
  have hinv : c.Returning code :=
    h.invariant ⟨fun _ k hk => absurd hk.symm (Option.some_ne_none k), fun _ hd => nomatch hd⟩
      fun _ _ hc hs => hc.step hs
  exact hinv.done _ hd

end Interleave
