import BankingSystem.Machinery.Machine
import BankingSystem.Machinery.Progress
import Mathlib.Algebra.BigOperators.Group.Finset.Piecewise
import Mathlib.Logic.Relation

/-!
# Machinery/Linear — calls side by side are calls one after another

A run is watched from outside: what each worker was returned, in the order of its calls (`Watch`).
Behind what is seen there is one sequence of calls, a `Line`: run one after another from the start
they give the same results, every worker finds its own calls in it in its own order, and going on
with the run only adds to its end (`exists_line`).

A call takes its place in the line when it acquires the directory mutex; one that is refused before
it locks anything takes its place when it returns.  What each call adds to a measure of the state is
therefore all that a run adds to it (`measure_of_run`).
-/

namespace Interleave

open Machine

universe u v w x y z d e

variable {σ : Type u} {M : Type v} {ρ : Type w} {Op : Type x} {W : Type y}

/-! ## One call after another -/

/-- An operation that runs alone, with what it returns. -/
def serialStep (code : Op → Prog σ M ρ) (s : σ) (op : Op) : (Op × ρ) × σ :=
  ((op, ((code op).exec s).1), ((code op).exec s).2)

theorem after_serialStep (code : Op → Prog σ M ρ) (s : σ) (ops : List Op) :
    after (serialStep code) s ops = final code s ops := by
  induction ops generalizing s with
  | nil => rfl
  | cons op ops ih => exact ih _

/-! ## Watching a run -/

/-- What the next step of a call lets its worker see. -/
def Call.returned (k : Call Op σ M ρ) : List (Op × ρ) :=
  match k.rest with
  | .ret r => [(k.op, r)]
  | _ => []

/-- **A configuration, and what each worker has seen**: its completed calls in order, with what they
returned. -/
structure Watch (W : Type y) (Op : Type x) (σ : Type u) (M : Type v) (ρ : Type w) where
  config : Config W Op σ M ρ
  seen : W → List (Op × ρ)

/-- Nobody has called anything. -/
def Watch.start (s : σ) : Watch W Op σ M ρ := ⟨.start s, fun _ => []⟩

/-! ## The line behind what is seen -/

variable [DecidableEq W] {code : Op → Prog σ M ρ} {g : M} {s₀ : σ} {x y : Watch W Op σ M ρ}


/-- What a call in flight that has its place is going to return. -/
def Call.pending (code : Op → Prog σ M ρ) (s₀ : σ) (ops : List Op) :
    Option (Call Op σ M ρ) → List (Op × ρ)
  | some ⟨op, some t, _⟩ => [(op, answer code s₀ ops op t)]
  | _ => []

theorem Call.pending_out (ops : List Op) (op : Op) (p : Prog σ M ρ) :
    pending code s₀ ops (some ⟨op, none, p⟩) = [] := rfl

theorem Call.pending_in (ops : List Op) (op : Op) (t : ℕ) (p : Prog σ M ρ) :
    pending code s₀ ops (some ⟨op, some t, p⟩) = [(op, answer code s₀ ops op t)] := rfl

theorem Call.pending_idle (ops : List Op) : pending code s₀ ops none = [] := rfl

/-- **The calls of a run in one line**: run one after another they return what they return here, and
the line of a worker is what it has seen, followed by the call it has in flight once that has its
place. -/
structure Line (code : Op → Prog σ M ρ) (s₀ : σ) (x : Watch W Op σ M ρ)
    (log : List (W × Op × ρ)) : Prop where
  serial : answers (serialStep code) s₀ (log.map fun e => e.2.1) = log.map Prod.snd
  last : after (serialStep code) s₀ (log.map fun e => e.2.1) = final code s₀ x.config.order
  own : ∀ w, (log.filter fun e => e.1 = w).map Prod.snd =
    x.seen w ++ Call.pending code s₀ x.config.order (x.config.call w)

theorem Line.start : Line code s₀ (.start s₀ : Watch W Op σ M ρ) [] where
  serial := rfl
  last := rfl
  own _ := rfl

/-- The line of each worker, when one of them gets a call more. -/
theorem filter_concat (log : List (W × Op × ρ)) (w v : W) (e : Op × ρ) :
    ((log ++ [(w, e)]).filter fun e => e.1 = v).map Prod.snd =
      (log.filter fun e => e.1 = v).map Prod.snd ++ if w = v then [e] else [] := by
  rw [List.filter_append, List.map_append]
  by_cases h : w = v <;> simp [h]

/-- **A call at the end of the line** answers as it does after all the others. -/
theorem Line.concat {log : List (W × Op × ρ)} (h : Line code s₀ x log) (w : W) (op : Op) :
    let e := (op, ((code op).exec (final code s₀ x.config.order)).1)
    answers (serialStep code) s₀ ((log ++ [(w, e)]).map fun e => e.2.1) =
        (log ++ [(w, e)]).map Prod.snd ∧
      after (serialStep code) s₀ ((log ++ [(w, e)]).map fun e => e.2.1) =
        ((code op).exec (final code s₀ x.config.order)).2 := by
  intro e
  rw [List.map_append, List.map_append, answers_append, after_append, h.serial, h.last]
  exact ⟨rfl, rfl⟩

section Steps

variable {log : List (W × Op × ρ)} {w : W} {op : Op} {t : Option ℕ} {c' : Config W Op σ M ρ}

/-- A step of a call that neither takes its place nor returns. -/
theorem Line.resume {p q : Prog σ M ρ} (h : Line code s₀ x log)
    (hc : x.config.call w = some ⟨op, t, p⟩) (horder : c'.order = x.config.order)
    (hcall : c'.call = Function.update x.config.call w (some ⟨op, t, q⟩)) :
    Line code s₀ ⟨c', x.seen⟩ log where
  serial := h.serial
  last := horder ▸ h.last
  own v := by
    rw [h.own, horder, hcall]
    by_cases hv : v = w
    · subst hv
      rw [hc, Function.update_self]
      cases t <;> rfl
    · rw [Function.update_of_ne hv]

/-- **A call takes its place**, at the end of the line. -/
theorem Line.take {p q : Prog σ M ρ} (h : Line code s₀ x log)
    (hlt : ∀ v n, x.config.ticketOf v = some n → n < x.config.order.length)
    (hc : x.config.call w = some ⟨op, none, p⟩) (horder : c'.order = x.config.order ++ [op])
    (hcall : c'.call = Function.update x.config.call w
      (some ⟨op, some x.config.order.length, q⟩)) :
    Line code s₀ ⟨c', x.seen⟩
      (log ++ [(w, op, ((code op).exec (final code s₀ x.config.order)).1)]) where
  serial := (h.concat w op).1
  last := by
    rw [(h.concat w op).2, horder, final_append_singleton]
  own v := by
    rw [filter_concat, h.own, horder, hcall]
    by_cases hv : w = v
    · subst hv
      rw [hc, if_pos rfl, Function.update_self, Call.pending_out, Call.pending_in, List.append_nil,
        answer_append _ _ le_rfl, answer_length]
    · rw [if_neg hv, List.append_nil, Function.update_of_ne (Ne.symm hv)]
      refine congrArg (x.seen v ++ ·) ?_
      match hcv : x.config.call v with
      | none => rfl
      | some ⟨op', none, _⟩ => rfl
      | some ⟨op', some n, _⟩ =>
        have hn : n < x.config.order.length := hlt v n (by rw [Config.ticketOf, hcv]; rfl)
        rw [Call.pending_in, Call.pending_in, answer_append _ _ hn.le]

/-- **A call returns** what it has in the line. -/
theorem Line.finish {r : ρ} {n : ℕ} (h : Line code s₀ x log)
    (hc : x.config.call w = some ⟨op, some n, .ret r⟩)
    (hr : r = answer code s₀ x.config.order op n) (horder : c'.order = x.config.order)
    (hcall : c'.call = Function.update x.config.call w none) :
    Line code s₀ ⟨c', Function.update x.seen w (x.seen w ++ [(op, r)])⟩ log where
  serial := h.serial
  last := horder ▸ h.last
  own v := by
    change _ = Function.update x.seen w _ v ++ Call.pending code s₀ c'.order (c'.call v)
    rw [h.own, horder, hcall]
    by_cases hv : v = w
    · subst hv
      rw [hc, Function.update_self, Function.update_self, Call.pending_in, Call.pending_idle, hr,
        List.append_nil]
    · rw [Function.update_of_ne hv, Function.update_of_ne hv]

/-- **A call that was refused** takes its place as it returns. -/
theorem Line.refuse {r : ρ} (h : Line code s₀ x log)
    (hc : x.config.call w = some ⟨op, none, .ret r⟩) (hr : ∀ s, (code op).exec s = (r, s))
    (horder : c'.order = x.config.order)
    (hcall : c'.call = Function.update x.config.call w none) :
    Line code s₀ ⟨c', Function.update x.seen w (x.seen w ++ [(op, r)])⟩
      (log ++ [(w, op, ((code op).exec (final code s₀ x.config.order)).1)]) where
  serial := (h.concat w op).1
  last := by
    rw [(h.concat w op).2, horder, hr]
  own v := by
    change _ = Function.update x.seen w _ v ++ Call.pending code s₀ c'.order (c'.call v)
    rw [filter_concat, h.own, horder, hcall]
    by_cases hv : w = v
    · subst hv
      rw [hc, if_pos rfl, Function.update_self, Function.update_self, Call.pending_out,
        Call.pending_idle, List.append_nil, List.append_nil, hr]
    · rw [if_neg hv, List.append_nil, Function.update_of_ne (Ne.symm hv),
        Function.update_of_ne (Ne.symm hv)]

end Steps

/-! ## Every step -/

variable [DecidableEq M]

/-- A worker starts a call, or makes the next step of its call. -/
inductive Watch.Step (code : Op → Prog σ M ρ) (g : M) :
    Watch W Op σ M ρ → Watch W Op σ M ρ → Prop
  | invoke {x : Watch W Op σ M ρ} {w : W} (op : Op) (h : x.config.call w = none) :
      Step code g x ⟨x.config.invoke code w op, x.seen⟩
  | advance {x : Watch W Op σ M ρ} {c' : Config W Op σ M ρ} {w : W} {k : Call Op σ M ρ}
      (hc : x.config.call w = some k) (hs : x.config.advance g w = some c') :
      Step code g x ⟨c', Function.update x.seen w (x.seen w ++ k.returned)⟩

/-- **A run**, from one point of it to another. -/
abbrev Watch.Run (code : Op → Prog σ M ρ) (g : M) :
    Watch W Op σ M ρ → Watch W Op σ M ρ → Prop := Relation.ReflTransGen (Step code g)

theorem Watch.Step.step (h : Watch.Step code g x y) : Interleave.Step code g x.config y.config := by
  cases h with
  | invoke op h => exact .invoke op h
  | advance hc hs => exact step_of_advance hs

/-- What is watched is a run. -/
theorem Watch.Run.reachable (hx : Reachable code g s₀ x.config) (h : Watch.Run code g x y) :
    Reachable code g s₀ y.config := by
  induction h with
  | refl => exact hx
  | tail _ hs ih => exact ih.step hs.step

variable {D : Type d} {I : Type z} {V : Type e} {L : Layout σ M D I V}

/-- **Every step adds to the end of the line**, or nothing. -/
theorem Line.advance {k : Call Op σ M ρ} (hcode : ∀ op, L.Entry (code op))
    (hreach : Reachable code L.dirLock s₀ x.config) (h : Line code s₀ x log)
    (hc : x.config.call w = some k) (hs : x.config.advance L.dirLock w = some c') :
    ∃ more, Line code s₀ ⟨c', Function.update x.seen w (x.seen w ++ k.returned)⟩ (log ++ more) := by
  obtain ⟨pos, S, hI, hn⟩ := L.inv_of_reachable hcode hreach
  have hreach' := hreach.step (step_of_advance hs)
  obtain ⟨op, t, p⟩ := k
  have hsame : ∀ {log' : List (W × Op × ρ)}, Line code s₀ ⟨c', x.seen⟩ log' →
      Line code s₀ ⟨c', Function.update x.seen w (x.seen w ++ [])⟩ log' := fun h' => by
    rwa [List.append_nil, Function.update_eq_self]
  rw [Config.advance, hc] at hs
  cases p with
  | ret r =>
    obtain rfl := Option.some.inj hs
    have hdone := L.answered_of_reachable hcode hreach' (List.mem_cons_self ..)
    cases t with
    | some n => exact ⟨[], by rw [List.append_nil]; exact h.finish hc hdone.2 rfl rfl⟩
    | none => exact ⟨_, h.refuse hc hdone rfl rfl⟩
  | lock m q =>
    dsimp only at hs
    split at hs
    · rename_i hfree
      split at hs
      · rename_i hm
        subst hm
        obtain rfl := Option.some.inj hs
        obtain ⟨-, rfl, -⟩ := hI.at_entry hc hfree
        exact ⟨_, hsame (h.take hn.lt_of_held hc rfl rfl)⟩
      · obtain rfl := Option.some.inj hs
        exact ⟨[], by rw [List.append_nil]; exact hsame (h.resume hc rfl rfl)⟩
    · cases hs
  | unlock m q =>
    obtain rfl := Option.some.inj hs
    exact ⟨[], by rw [List.append_nil]; exact hsame (h.resume hc rfl rfl)⟩
  | read q =>
    obtain rfl := Option.some.inj hs
    exact ⟨[], by rw [List.append_nil]; exact hsame (h.resume hc rfl rfl)⟩
  | write f q =>
    obtain rfl := Option.some.inj hs
    exact ⟨[], by rw [List.append_nil]; exact hsame (h.resume hc rfl rfl)⟩

/-- One step of a run adds to the end of the line, or nothing. -/
theorem Line.step {log : List (W × Op × ρ)} (hcode : ∀ op, L.Entry (code op))
    (hreach : Reachable code L.dirLock s₀ x.config) (h : Line code s₀ x log)
    (hs : Watch.Step code L.dirLock x y) : ∃ more, Line code s₀ y (log ++ more) := by
  cases hs with
  | advance hc hs => exact h.advance hcode hreach hc hs
  | @invoke w op hc =>
    refine ⟨[], ?_⟩
    rw [List.append_nil]
    refine ⟨h.serial, h.last, fun v => ?_⟩
    change _ = x.seen v ++ Call.pending code s₀ x.config.order (Function.update x.config.call w _ v)
    rw [h.own]
    by_cases hv : v = w
    · subst hv
      rw [hc, Function.update_self, Call.pending_idle, Call.pending_out]
    · rw [Function.update_of_ne hv]

theorem Line.run {log : List (W × Op × ρ)} (hcode : ∀ op, L.Entry (code op))
    (hreach : Reachable code L.dirLock s₀ x.config) (h : Line code s₀ x log)
    (hrun : Watch.Run code L.dirLock x y) : ∃ more, Line code s₀ y (log ++ more) := by
  induction hrun with
  | refl => exact ⟨[], by rwa [List.append_nil]⟩
  | @tail y z hrun hs ih =>
    obtain ⟨more, hy⟩ := ih
    obtain ⟨most, hz⟩ := hy.step hcode (Watch.Run.reachable hreach hrun) hs
    exact ⟨more ++ most, by rwa [← List.append_assoc]⟩

/-- **There is a line at every point of a run, and from there on it only grows.** -/
theorem exists_line (hcode : ∀ op, L.Entry (code op))
    (hx : Watch.Run code L.dirLock (.start s₀) x) :
    ∃ log, Line code s₀ x log ∧
      ∀ y, Watch.Run code L.dirLock x y → ∃ more, Line code s₀ y (log ++ more) := by
  obtain ⟨log, h⟩ := Line.start.run hcode .start hx
  exact ⟨log, h, fun y hy => h.run hcode (Watch.Run.reachable .start hx) hy⟩

/-! ## When no call is in flight -/

/-- **With no call in flight the line is all that was seen**, and it leads to what is in memory. -/
theorem Line.of_quiet {log : List (W × Op × ρ)} (hcode : ∀ op, L.Entry (code op))
    (hreach : Reachable code L.dirLock s₀ x.config) (h : Line code s₀ x log)
    (hq : x.config.Quiet) :
    (∀ w, (log.filter fun e => e.1 = w).map Prod.snd = x.seen w) ∧
      after (serialStep code) s₀ (log.map fun e => e.2.1) = x.config.mem := by
  refine ⟨fun w => ?_, h.last.trans (L.mem_of_reachable hcode hreach hq).symm⟩
  rw [h.own, hq w, Call.pending_idle, List.append_nil]

/-! ## What a worker finds in the line -/

omit [DecidableEq W] [DecidableEq M] in
/-- **All calls made so far**, completed or in flight, satisfy `P`. -/
structure Watch.Calls (x : Watch W Op σ M ρ) (P : Op → Prop) : Prop where
  seen : ∀ w, ∀ e ∈ x.seen w, P e.1
  inFlight : ∀ w k, x.config.call w = some k → P k.op

section Own

variable {log : List (W × Op × ρ)} (h : Line code s₀ x log)

include h

omit [DecidableEq M] in
/-- **What it has seen, and at most one call more**, the one it has in flight. -/
theorem Line.own_pending (w : W) : ∃ pending,
    (log.filter fun e => e.1 = w).map Prod.snd = x.seen w ++ pending ∧ pending.length ≤ 1 ∧
      ∀ e ∈ pending, ∃ k, x.config.call w = some k ∧ k.op = e.1 := by
  refine ⟨_, h.own w, ?_⟩
  match x.config.call w with
  | none => exact ⟨Nat.zero_le _, fun e he => absurd he List.not_mem_nil⟩
  | some ⟨op, none, _⟩ => exact ⟨Nat.zero_le _, fun e he => absurd he List.not_mem_nil⟩
  | some ⟨op, some t, p⟩ =>
    refine ⟨le_rfl, fun e he => ⟨_, rfl, ?_⟩⟩
    rw [List.mem_singleton.mp he]

omit [DecidableEq M] in
/-- The line holds no other calls. -/
theorem Line.calls {P : Op → Prop} (hP : x.Calls P) : ∀ op ∈ log.map fun e => e.2.1, P op := by
  intro op hop
  obtain ⟨e, he, rfl⟩ := List.mem_map.mp hop
  have hmem : e.2 ∈ (log.filter fun e' => e'.1 = e.1).map Prod.snd :=
    List.mem_map_of_mem (List.mem_filter.mpr ⟨he, decide_eq_true rfl⟩)
  obtain ⟨pending, hown, -, hcall⟩ := h.own_pending e.1
  rw [hown] at hmem
  obtain hseen | hpending := List.mem_append.mp hmem
  · exact hP.seen e.1 _ hseen
  · obtain ⟨k, hk, hop⟩ := hcall _ hpending
    exact hop ▸ hP.inFlight e.1 k hk

end Own

omit [DecidableEq W] [DecidableEq M] in
/-- An invariant of every call holds after calls one after another. -/
theorem final_invariant {P : σ → Prop} (hstep : ∀ s op, P s → P ((code op).exec s).2) (h0 : P s₀)
    (ops : List Op) : P (final code s₀ ops) := by
  rw [← after_serialStep]
  exact after_invariant (fun s op (_ : True) hs => hstep s op hs) h0 fun _ _ => trivial

/-- **With no call in flight an invariant of every call holds of memory.** -/
theorem invariant_of_run {P : σ → Prop} (hcode : ∀ op, L.Entry (code op))
    (hstep : ∀ s op, P s → P ((code op).exec s).2) (h0 : P s₀)
    (hx : Watch.Run code L.dirLock (.start s₀) x) (hq : x.config.Quiet) : P x.config.mem := by
  rw [L.mem_of_reachable hcode (Watch.Run.reachable .start hx) hq]
  exact final_invariant hstep h0 _

/-! ## What a run adds up to -/

/-- What is added where `p` holds, and nothing else, is added as often as it holds. -/
theorem sum_map_indicator {A α : Type*} [AddCommMonoid A] (p : α → Prop) [DecidablePred p] (a : A)
    (l : List α) : (l.map fun e => if p e then a else 0).sum = l.countP p • a := by
  induction l with
  | nil => exact (zero_nsmul a).symm
  | cons e l ih =>
    rw [List.map_cons, List.sum_cons, ih, List.countP_cons]
    by_cases h : p e
    · rw [if_pos h, if_pos (decide_eq_true h), succ_nsmul, add_comm]
    · rw [if_neg h, if_neg (by simpa using h), zero_add, Nat.add_zero]

section Measure

variable {A : Type*} [AddCommMonoid A] {μ : σ → A} {effect : Op × ρ → A}

omit [DecidableEq W] [DecidableEq M] in
/-- What calls one after another add to a measure is what each of them adds. -/
theorem measure_after
    (hstep : ∀ s op, μ ((code op).exec s).2 = μ s + effect (op, ((code op).exec s).1)) (s : σ)
    (ops : List Op) : μ (after (serialStep code) s ops) =
      μ s + ((answers (serialStep code) s ops).map effect).sum := by
  induction ops generalizing s with
  | nil => simp [after, answers]
  | cons op ops ih =>
    rw [after, answers, List.map_cons, List.sum_cons, ← add_assoc, ih]
    exact congrArg (· + _) (hstep s op)

omit [DecidableEq M] in
/-- A sum over a line, worker by worker. -/
theorem sum_line [Fintype W] (effect : Op × ρ → A) (log : List (W × Op × ρ)) :
    ((log.map Prod.snd).map effect).sum =
      ∑ w, (((log.filter fun e => e.1 = w).map Prod.snd).map effect).sum := by
  induction log with
  | nil => simp
  | cons e log ih =>
    have hhead : effect e.2 = ∑ w, if e.1 = w then effect e.2 else 0 := by
      rw [Finset.sum_ite_eq, if_pos (Finset.mem_univ _)]
    rw [List.map_cons, List.map_cons, List.sum_cons, ih, hhead, ← Finset.sum_add_distrib]
    refine Finset.sum_congr rfl fun w _ => ?_
    by_cases h : e.1 = w <;> simp [h]

omit [DecidableEq M] in
/-- **A measure has grown by what the calls in the line add to it**, worker by worker. -/
theorem Line.measure [Fintype W] {log : List (W × Op × ρ)}
    (hstep : ∀ s op, μ ((code op).exec s).2 = μ s + effect (op, ((code op).exec s).1))
    (h : Line code s₀ x log) : μ (final code s₀ x.config.order) =
      μ s₀ + ∑ w, (((log.filter fun e => e.1 = w).map Prod.snd).map effect).sum := by
  rw [← h.last, measure_after hstep, h.serial, sum_line]

/-- **With no call in flight a measure has grown by what the workers' calls add to it.** -/
theorem measure_of_run [Fintype W] (hcode : ∀ op, L.Entry (code op))
    (hstep : ∀ s op, μ ((code op).exec s).2 = μ s + effect (op, ((code op).exec s).1))
    (hx : Watch.Run code L.dirLock (.start s₀) x) (hq : x.config.Quiet) :
    μ x.config.mem = μ s₀ + ∑ w, ((x.seen w).map effect).sum := by
  obtain ⟨log, hline, -⟩ := exists_line hcode hx
  have hreach := Watch.Run.reachable .start hx
  rw [L.mem_of_reachable hcode hreach hq, hline.measure hstep]
  simp only [(hline.of_quiet hcode hreach hq).1]

end Measure

end Interleave
