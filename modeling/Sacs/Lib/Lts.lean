import Mathlib.Data.List.Induction

/-!
# Labelled transition systems

Runs of a transition relation whose steps are labelled by actions: a run is the
list of its actions, between the states it starts and ends in (`Lts.Run`).

* `Run.invariant`: what every step keeps, every run keeps;
* `Run.append`, `Run.split`: runs compose, and a run of `as ++ bs` passes
  through a state after `as`;
* `Lts.Under C R`: the steps of `R` meeting a condition `C` on the state they
  start in and their action, for results about the runs whose steps all do;
* `Lts.History g R`: the steps of `R`, with a history that `g` keeps of them and
  that they do not depend on (`Run.history_of_exec`);
* `Lts.Fifo q pops R`: the list `q` is a queue, first in, first out, which `Fifo.last`
  follows along a run;
* `Lts.Exec step`: the transitions of an executable step function, which may
  fail; `Run.under_iff` and `Run.under_iff_of_steps` tell the runs in whose states a
  property holds by a condition on their steps, `exists_run_of_foldlM` gives a run from
  its evaluation, and `Run.under_of_guard` one that meets a decidable condition.
-/

namespace Lts

variable {σ α ε β τ : Type*} {R : σ → α → σ → Prop}

/-- A run from `s` to `t`, taking the actions `as`. -/
inductive Run (R : σ → α → σ → Prop) (s : σ) : List α → σ → Prop
  | nil : Run R s [] s
  | snoc {as : List α} {t u : σ} {a : α} : Run R s as t → R t a u → Run R s (as ++ [a]) u

/-- What holds initially and is kept by every step holds after every run. -/
theorem Run.invariant {P : σ → Prop} {s t : σ} {as : List α} (h : Run R s as t) (h₀ : P s)
    (hstep : ∀ s a t, P s → R s a t → P t) : P t := by
  induction h with
  | nil => exact h₀
  | snoc _ hst ih => exact hstep _ _ _ ih hst

theorem Run.single {s t : σ} {a : α} (h : R s a t) : Run R s [a] t := .snoc .nil h

theorem Run.append {s t u : σ} {as bs : List α} (h₁ : Run R s as t) (h₂ : Run R t bs u) :
    Run R s (as ++ bs) u := by
  induction h₂ with
  | nil => rwa [List.append_nil]
  | snoc _ hst ih => rw [← List.append_assoc]; exact .snoc ih hst

theorem Run.split {s u : σ} {as bs : List α} (h : Run R s (as ++ bs) u) :
    ∃ t, Run R s as t ∧ Run R t bs u := by
  induction bs using List.reverseRecOn generalizing u with
  | nil => exact ⟨u, by rwa [List.append_nil] at h, .nil⟩
  | append_singleton bs b ih =>
    rw [← List.append_assoc] at h
    generalize hcs : as ++ bs ++ [b] = cs at h
    cases h with
    | nil => simp at hcs
    | snoc h hst =>
      obtain ⟨rfl, rfl⟩ := List.append_singleton_inj.1 hcs
      obtain ⟨t, h₁, h₂⟩ := ih h
      exact ⟨t, h₁, h₂.snoc hst⟩

theorem Run.eq_of_nil {s t : σ} (h : Run R s [] t) : t = s := by
  generalize has : [] = as at h
  cases h with
  | nil => rfl
  | snoc => simp at has

/-- A run is its first step and the rest. -/
theorem Run.uncons {s u : σ} {a : α} {as : List α} (h : Run R s (a :: as) u) :
    ∃ t, R s a t ∧ Run R t as u := by
  obtain ⟨t, h₁, h₂⟩ := @Run.split _ _ _ _ _ [a] as h
  refine ⟨t, ?_, h₂⟩
  generalize hbs : [a] = bs at h₁
  cases h₁ with
  | nil => cases hbs
  | snoc h₁ hst =>
    obtain ⟨rfl, rfl⟩ := List.append_singleton_inj.1 ((List.nil_append [a]).trans hbs)
    rwa [h₁.eq_of_nil] at hst

theorem Run.mono {R' : σ → α → σ → Prop} (hR : ∀ s a t, R s a t → R' s a t) {s t : σ}
    {as : List α} (h : Run R s as t) : Run R' s as t := by
  induction h with
  | nil => exact .nil
  | snoc _ hst ih => exact ih.snoc (hR _ _ _ hst)

/-- The steps whose starting state and action meet the condition `C`. -/
def Under (C : σ → α → Prop) (R : σ → α → σ → Prop) : σ → α → σ → Prop :=
  fun s a t => C s a ∧ R s a t

theorem Run.of_under {C : σ → α → Prop} {s t : σ} {as : List α} (h : Run (Under C R) s as t) :
    Run R s as t := h.mono fun _ _ _ => And.right

/-- A run of actions that always meet the condition. -/
theorem Run.under_of_forall {C : σ → α → Prop} {s t : σ} {as : List α} (h : Run R s as t)
    (hC : ∀ a ∈ as, ∀ s, C s a) : Run (Under C R) s as t := by
  induction h with
  | nil => exact .nil
  | snoc _ hst ih =>
    exact (ih fun a ha => hC a (List.mem_append_left _ ha)).snoc
      ⟨hC _ (List.mem_append_right _ (List.mem_singleton_self _)) _, hst⟩

/-- The steps of a run start in states that have the invariant. -/
theorem Run.under_invariant {P : σ → Prop} {s t : σ} {as : List α} (h : Run R s as t) (h₀ : P s)
    (hstep : ∀ s a t, P s → R s a t → P t) : Run (Under (fun s _ => P s) R) s as t := by
  induction h with
  | nil => exact .nil
  | snoc h hst ih => exact ih.snoc ⟨h.invariant h₀ hstep, hst⟩

/-- The list is a queue: an action that pops takes its first element, the others may
    append to it. -/
def Fifo (q : σ → List τ) (pops : α → Bool) (R : σ → α → σ → Prop) : Prop :=
  ∀ s a t, R s a t → (pops a = true ∧ ∃ x, q s = x :: q t) ∨
    (pops a = false ∧ ∃ xs, q t = q s ++ xs)

/-- What is left of a queue, as long as nothing appended later is popped. -/
theorem Fifo.run {q : σ → List τ} {pops : α → Bool} (hq : Fifo q pops R) {s t : σ} {as : List α}
    (h : Run R s as t) (hle : as.countP pops ≤ (q s).length) :
    ∃ xs, q t = (q s).drop (as.countP pops) ++ xs := by
  induction h with
  | nil => exact ⟨[], (List.append_nil _).symm⟩
  | snoc h hst ih =>
    rw [List.countP_append, List.countP_singleton] at hle ⊢
    obtain ⟨xs, hxs⟩ := ih (Nat.le_of_add_right_le hle)
    rcases hq _ _ _ hst with ⟨hpop, x, hx⟩ | ⟨hpop, ys, hys⟩
    · -- An element queued at the start is still the first one.
      rw [hpop, if_pos rfl] at hle ⊢
      rw [hx, List.drop_eq_getElem_cons hle, List.cons_append] at hxs
      exact ⟨xs, (List.cons.inj hxs).2⟩
    · rw [hpop, if_neg Bool.false_ne_true, Nat.add_zero]
      exact ⟨xs ++ ys, by rw [hys, hxs, List.append_assoc]⟩

/-- Once all before it are popped, the last element is the first one. -/
theorem Fifo.last {q : σ → List τ} {pops : α → Bool} (hq : Fifo q pops R) {s t : σ} {as : List α}
    (h : Run R s as t) {xs : List τ} {x : τ} (hs : q s = xs ++ [x])
    (hcount : as.countP pops = xs.length) : ∃ ys, q t = x :: ys := by
  obtain ⟨ys, hys⟩ := hq.run h (by rw [hs, hcount, List.length_append]; exact Nat.le_add_right _ _)
  rw [hs, hcount, List.drop_left, List.singleton_append] at hys
  exact ⟨ys, hys⟩

/-- The steps of `R`, with a history, which `g` continues with every step. -/
def History {γ : Type*} (g : σ → α → σ → γ → γ) (R : σ → α → σ → Prop) :
    σ × γ → α → σ × γ → Prop :=
  fun x a y => R x.1 a y.1 ∧ y.2 = g x.1 a y.1 x.2

/-- The transitions of an executable step function. -/
def Exec (step : σ → α → Except ε σ) : σ → α → σ → Prop := fun s a t => step s a = .ok t

/-- Evaluating the step function along `as` gives a run, with what is observed
    of its last state. -/
theorem exists_run_of_foldlM (step : σ → α → Except ε σ) (s : σ) (as : List α) (f : σ → β) (b : β)
    (h : ((as.foldlM step s).toOption.map f) = some b) :
    ∃ t, Run (Exec step) s as t ∧ f t = b := by
  obtain ⟨t, ht, rfl⟩ := Option.map_eq_some_iff.1 h
  refine ⟨t, ?_, rfl⟩
  replace ht : as.foldlM step s = .ok t := by
    cases has : as.foldlM step s with
    | error e => simp [has, Except.toOption] at ht
    | ok u => simpa [has, Except.toOption] using ht
  clear h
  induction as generalizing s with
  | nil =>
    cases (Except.ok.inj ht : s = t)
    exact .nil
  | cons a as ih =>
    rw [List.foldlM_cons] at ht
    cases hst : step s a with
    | error e => rw [hst] at ht; cases ht
    | ok u =>
      rw [hst] at ht
      exact (Run.single hst).append (ih u ht)

/-- An executable system has one run of given actions, at most. -/
theorem run_unique {step : σ → α → Except ε σ} {s t u : σ} {as : List α}
    (h : Run (Exec step) s as t) (h' : Run (Exec step) s as u) : t = u := by
  induction as using List.reverseRecOn generalizing t u with
  | nil => rw [h.eq_of_nil, h'.eq_of_nil]
  | append_singleton as a ih =>
    obtain ⟨t', ht', ht⟩ := h.split
    obtain ⟨u', hu', hu⟩ := h'.split
    obtain ⟨t₁, hta, ht⟩ := ht.uncons
    obtain ⟨u₁, hua, hu⟩ := hu.uncons
    rw [ih ht' hu'] at hta
    rw [ht.eq_of_nil, hu.eq_of_nil]
    exact Except.ok.inj (hta.symm.trans hua)

/-- If a property of the steps taken and the state reached holds as long as the steps meet a
    condition, and fails after the first one that does not, it holds all along exactly the runs
    whose steps all do. -/
theorem Run.under_iff_of_steps {C : σ → α → Prop} {J P : List α → σ → Prop}
    {step : σ → α → Except ε σ} {s t : σ} {as : List α} (h : Run (Exec step) s as t)
    (h₀ : J [] s) (hJ : ∀ bs t, J bs t → P bs t)
    (hstep : ∀ bs t a u, J bs t → C t a → step t a = .ok u → J (bs ++ [a]) u)
    (hnot : ∀ bs t a u, J bs t → ¬C t a → step t a = .ok u → ¬P (bs ++ [a]) u) :
    (∀ before after u, as = before ++ after → Run (Exec step) s before u → P before u) ↔
      Run (Under C (Exec step)) s as t := by
  have hinv : ∀ {bs u}, Run (Under C (Exec step)) s bs u → J bs u := by
    intro bs u hu
    induction hu with
    | nil => exact h₀
    | snoc _ hst ih => exact hstep _ _ _ _ ih hst.1 hst.2
  constructor
  · intro hP
    induction h with
    | nil => exact .nil
    | @snoc as t u a h hst ih =>
      have ht := ih fun before after t' has ht' =>
        hP before (after ++ [a]) t' (by rw [has, List.append_assoc]) ht'
      refine ht.snoc ⟨?_, hst⟩
      -- Otherwise the property fails at the end of the run.
      by_contra hC
      exact hnot as t a u (hinv ht) hC hst
        (hP (as ++ [a]) [] u (List.append_nil _).symm (h.snoc hst))
  · rintro h before after u rfl hu
    obtain ⟨u', hu', -⟩ := h.split
    cases run_unique hu hu'.of_under
    exact hJ before u (hinv hu')

/-- If a property holds as long as the steps meet a condition, and fails after the first one
    that does not, it holds in all states of exactly the runs whose steps all do. -/
theorem Run.under_iff {C : σ → α → Prop} {J P : σ → Prop} {step : σ → α → Except ε σ} {s t : σ}
    {as : List α} (h : Run (Exec step) s as t) (h₀ : J s) (hJ : ∀ t, J t → P t)
    (hstep : ∀ t a u, J t → C t a → step t a = .ok u → J u)
    (hnot : ∀ t a u, J t → ¬C t a → step t a = .ok u → ¬P u) :
    (∀ before after u, as = before ++ after → Run (Exec step) s before u → P u) ↔
      Run (Under C (Exec step)) s as t :=
  h.under_iff_of_steps (J := fun _ => J) (P := fun _ => P) h₀ (fun _ => hJ) (fun _ => hstep)
    fun _ => hnot

/-- The step function restricted to the steps meeting the condition `C`. -/
def guard (C : σ → α → Prop) [∀ s a, Decidable (C s a)] (step : σ → α → Except ε σ) (e : ε) :
    σ → α → Except ε σ :=
  fun s a => if C s a then step s a else .error e

theorem Run.under_of_guard {C : σ → α → Prop} [∀ s a, Decidable (C s a)]
    {step : σ → α → Except ε σ} {e : ε} {s t : σ} {as : List α}
    (h : Run (Exec (guard C step e)) s as t) : Run (Under C (Exec step)) s as t := by
  refine h.mono fun s a t hst => ?_
  rw [Exec, guard] at hst
  split_ifs at hst with hC
  exact ⟨hC, hst⟩

/-- The same for a run and another one that goes on from it, whose steps meet the
    condition. -/
theorem exists_runs_of_foldlM (C : σ → α → Prop) [∀ s a, Decidable (C s a)]
    (step : σ → α → Except ε σ) (e : ε) (s : σ) (as bs : List α) (f : σ → σ → β) (b : β)
    (h : ((as.foldlM step s).toOption.bind fun t =>
      ((bs.foldlM (guard C step e) t).toOption.map (f t))) = some b) :
    ∃ t u, Run (Exec step) s as t ∧ Run (Under C (Exec step)) t bs u ∧ f t u = b := by
  obtain ⟨t, ht, hu⟩ := Option.bind_eq_some_iff.1 h
  obtain ⟨t', hrun, rfl⟩ := exists_run_of_foldlM step s as id t (by rw [ht]; rfl)
  obtain ⟨u, hu, hb⟩ := exists_run_of_foldlM _ _ _ _ _ hu
  exact ⟨t', u, hrun, hu.under_of_guard, hb⟩

/-- The step function, keeping the history of its steps. -/
def historyStep {γ : Type*} (g : σ → α → σ → γ → γ) (step : σ → α → Except ε σ) :
    σ × γ → α → Except ε (σ × γ) :=
  fun x a => (step x.1 a).map fun t => (t, g x.1 a t x.2)

theorem Run.history_of_exec {γ : Type*} {g : σ → α → σ → γ → γ} {C : σ → α → Prop}
    [∀ s a, Decidable (C s a)] {step : σ → α → Except ε σ} {e : ε} {x y : σ × γ} {as : List α}
    (h : Run (Exec (historyStep g (guard C step e))) x as y) :
    Run (History g (Under C (Exec step))) x as y := by
  refine h.mono fun x a y hst => ?_
  rw [Exec, historyStep, guard] at hst
  split_ifs at hst with hC
  · cases hs : step x.1 a with
    | error e' => rw [hs] at hst; cases hst
    | ok t =>
      rw [hs] at hst
      cases hst
      exact ⟨⟨hC, hs⟩, rfl⟩
  · cases hst

theorem Run.history_mono {γ : Type*} {g : σ → α → σ → γ → γ} {R' : σ → α → σ → Prop}
    (hR : ∀ s a t, R s a t → R' s a t) {x y : σ × γ} {as : List α}
    (h : Run (History g R) x as y) : Run (History g R') x as y :=
  h.mono fun _ _ _ hst => ⟨hR _ _ _ hst.1, hst.2⟩

end Lts
