import Sacs.Lib.Lts
import Mathlib.Algebra.BigOperators.Group.Finset.Piecewise
import Mathlib.Algebra.GroupWithZero.Nat
import Mathlib.Data.Fintype.Basic
import Mathlib.Order.WellFounded

/-!
# Ranks of transition systems

How long runs can be. A rank gives every state a number, which some steps lower and
others raise by a constant at most: there are not many more of the former than
this constant times the latter (`Run.countP_le`, `Run.countP_add_le`). If all steps
lower the rank, runs are no longer than the rank they start with
(`Run.length_add_le`).

A run that can be continued is not final (`Lts.Final`). If steps lower their
state in a well-founded order, every state has a run to a final one
(`exists_final`), and there is no infinite run (`not_forever`).

The rank of a family of components is the sum of theirs, and follows a change of
one of them (`sum_update_add`, `sum_set_add`).
-/

namespace Lts

variable {σ α : Type*} {R : σ → α → σ → Prop}

/-- If the steps that `inner` counts lower the rank, and only those that `outer` counts raise it,
    by `k` at most, there are not many more of the former in a run than `k` times the latter. -/
theorem Run.countP_le {rank : σ → ℕ} {inner outer : α → Bool} {k : ℕ}
    (hstep : ∀ s a t, R s a t →
      rank t + (inner a).toNat ≤ rank s + k * (outer a).toNat) {s t : σ} {as : List α}
    (h : Run R s as t) : as.countP inner + rank t ≤ rank s + k * as.countP outer := by
  induction h with
  | nil => simp
  | @snoc as t u a _ hst ih =>
    have hcount : ∀ p : α → Bool, (as ++ [a]).countP p = as.countP p + (p a).toNat := by
      intro p
      rw [List.countP_append, List.countP_singleton]
      cases p a <;> rfl
    have := hstep _ _ _ hst
    rw [hcount, hcount, Nat.mul_add]
    omega

/-- If some steps lower the rank, and the others raise it by `k` at most, there are not many
    more of the former in a run than `k` times the latter. -/
theorem Run.countP_add_le {rank : σ → ℕ} {inner : α → Bool} {k : ℕ}
    (hinner : ∀ s a t, R s a t → inner a = true → rank t < rank s)
    (houter : ∀ s a t, R s a t → inner a = false → rank t ≤ rank s + k) {s t : σ} {as : List α}
    (h : Run R s as t) : as.countP inner + rank t ≤ rank s + k * as.countP (!inner ·) := by
  refine h.countP_le fun s a t hst => ?_
  cases ha : inner a with
  | true => simpa using Nat.succ_le_of_lt (hinner s a t hst ha)
  | false => simpa using houter s a t hst ha

/-- A run whose steps all lower the rank is no longer than the rank. -/
theorem Run.length_add_le {rank : σ → ℕ} (hstep : ∀ s a t, R s a t → rank t < rank s) {s t : σ}
    {as : List α} (h : Run R s as t) : as.length + rank t ≤ rank s := by
  have := @Run.countP_add_le _ _ R rank (fun _ => true) 0 (fun s a t hst _ => hstep s a t hst) nofun
    s t as h
  simpa using this

/-- No step is possible. -/
def Final (R : σ → α → σ → Prop) (s : σ) : Prop := ∀ a t, ¬R s a t

/-- Every state has a run to a final one, if the steps go down in a well-founded order. -/
theorem exists_final {r : σ → σ → Prop} (hr : WellFounded r)
    (hstep : ∀ s a t, R s a t → r t s) (s : σ) : ∃ as t, Run R s as t ∧ Final R t := by
  induction s using hr.induction with
  | _ s ih =>
    by_cases hs : Final R s
    · exact ⟨[], s, .nil, hs⟩
    · -- There is a step, and a run from where it leads.
      simp only [Final, not_forall, not_not] at hs
      obtain ⟨a, t, hst⟩ := hs
      obtain ⟨as, u, hu, hfinal⟩ := ih t (hstep s a t hst)
      exact ⟨a :: as, u, (Run.single hst).append hu, hfinal⟩

/-- There is no infinite run, if the steps go down in a well-founded order. -/
theorem not_forever {r : σ → σ → Prop} (hr : WellFounded r) (hstep : ∀ s a t, R s a t → r t s) :
    ¬∃ (f : ℕ → σ) (a : ℕ → α), ∀ n, R (f n) (a n) (f (n + 1)) := by
  rintro ⟨f, a, hf⟩
  obtain ⟨s, ⟨n, rfl⟩, hmin⟩ := hr.has_min (Set.range f) ⟨f 0, 0, rfl⟩
  exact hmin _ ⟨n + 1, rfl⟩ (hstep _ _ _ (hf n))

end Lts

/-- What a change of one component does to a sum over all. -/
theorem sum_update_add {κ β : Type*} [Fintype κ] [DecidableEq κ] (f : β → ℕ) (g : κ → β) (k : κ)
    (v : β) : ∑ i, f (Function.update g k v i) + f (g k) = ∑ i, f (g i) + f v := by
  have hsum := Finset.add_sum_erase Finset.univ (fun i => f (g i)) (Finset.mem_univ k)
  have hsum' := Finset.add_sum_erase Finset.univ (fun i => f (Function.update g k v i))
    (Finset.mem_univ k)
  have hrest : ∑ i ∈ Finset.univ.erase k, f (Function.update g k v i) =
      ∑ i ∈ Finset.univ.erase k, f (g i) :=
    Finset.sum_congr rfl fun i hi => by rw [Function.update_of_ne (Finset.ne_of_mem_erase hi)]
  simp only [Function.update_self] at hsum'
  omega

/-- The same, if they are in a list. -/
theorem sum_set_add {β : Type*} (f : β → ℕ) {l : List β} {i : ℕ} {u : β} (hu : l[i]? = some u)
    (v : β) : ((l.set i v).map f).sum + f u = (l.map f).sum + f v := by
  induction l generalizing i with
  | nil => cases hu
  | cons a l ih =>
    cases i with
    | zero =>
      obtain rfl : a = u := Option.some.inj hu
      simp only [List.set_cons_zero, List.map_cons, List.sum_cons]
      omega
    | succ i =>
      have := ih hu
      simp only [List.set_cons_succ, List.map_cons, List.sum_cons]
      omega
