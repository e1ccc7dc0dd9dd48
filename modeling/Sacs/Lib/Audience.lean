import Mathlib.Data.List.Basic

/-!
# Audiences

Members join an audience and leave it, and hear what is said while they are there
(`Audience.heard`).

* `heard_append`: what is heard of two sequences of events, one after the other.
* `heard_between`: a member that joins once hears what is said until it leaves.
-/

namespace Audience

variable {κ μ : Type*}

inductive Event (κ μ : Type*)
  | join (k : κ)
  | leave (k : κ)
  | say (m : μ)

/-- What is said. -/
def Event.said? : Event κ μ → Option μ
  | .say m => some m
  | _ => none

variable [DecidableEq κ]

/-- Whether `k` is there after the event. -/
def Event.next (k : κ) (here : Bool) : Event κ μ → Bool
  | .join k' => here || k' = k
  | .leave k' => here && k' ≠ k
  | .say _ => here

/-- Whether `k` is there after the events. -/
def present (k : κ) (here : Bool) (es : List (Event κ μ)) : Bool := es.foldl (Event.next k) here

/-- What `k` hears. -/
def heard (k : κ) : Bool → List (Event κ μ) → List μ
  | _, [] => []
  | here, e :: es => (if here then e.said?.toList else []) ++ heard k (e.next k here) es

theorem present_append (k : κ) (here : Bool) (es fs : List (Event κ μ)) :
    present k here (es ++ fs) = present k (present k here es) fs := List.foldl_append

theorem heard_append (k : κ) (here : Bool) (es fs : List (Event κ μ)) :
    heard k here (es ++ fs) = heard k here es ++ heard k (present k here es) fs := by
  induction es generalizing here with
  | nil => rfl
  | cons e es ih =>
    rw [List.cons_append, heard, heard, ih, List.append_assoc]
    rfl

/-- Who does not join is not there. -/
theorem present_of_absent {k : κ} {es : List (Event κ μ)} (h : .join k ∉ es) :
    present k false es = false := by
  induction es with
  | nil => rfl
  | cons e es ih =>
    rw [List.mem_cons, not_or] at h
    have hnext : e.next k false = false := by
      cases e with
      | join k' =>
        refine decide_eq_false fun hk => h.1 ?_
        rw [hk]
      | _ => rfl
    rw [present, List.foldl_cons, hnext]
    exact ih h.2

theorem heard_of_absent {k : κ} {es : List (Event κ μ)} (h : .join k ∉ es) :
    heard k false es = [] := by
  induction es with
  | nil => rfl
  | cons e es ih =>
    have hone : .join k ∉ [e] := fun he => h (List.mem_singleton.1 he ▸ List.mem_cons_self)
    have hnext : e.next k false = false := present_of_absent hone
    rw [heard, hnext, ih fun he => h (List.mem_cons_of_mem _ he)]
    rfl

/-- Who does not leave stays there, and hears all that is said. -/
theorem heard_of_stays {k : κ} {es : List (Event κ μ)} (h : .leave k ∉ es) :
    present k true es = true ∧ heard k true es = es.filterMap Event.said? := by
  induction es with
  | nil => exact ⟨rfl, rfl⟩
  | cons e es ih =>
    rw [List.mem_cons, not_or] at h
    have hnext : e.next k true = true := by
      cases e with
      | leave k' =>
        refine decide_eq_true fun hk => h.1 ?_
        rw [hk]
      | _ => rfl
    obtain ⟨hpresent, hheard⟩ := ih h.2
    rw [present, List.foldl_cons, heard, hnext, hheard, List.filterMap_cons]
    refine ⟨hpresent, ?_⟩
    cases e.said? <;> rfl

/-- Who is there hears what is said until it leaves, if it does not join again. -/
theorem heard_until {k : κ} {mid after : List (Event κ μ)} (hmid : .leave k ∉ mid)
    (hafter : after = [] ∨ ∃ rest, after = .leave k :: rest ∧ .join k ∉ rest) :
    heard k true (mid ++ after) = mid.filterMap Event.said? := by
  obtain ⟨hpresent, hheard⟩ := heard_of_stays hmid
  have hend : heard k true after = [] := by
    rcases hafter with rfl | ⟨rest, rfl, hrest⟩
    · rfl
    · have hleave : (Event.leave k : Event κ μ).next k true = false := by simp [Event.next]
      rw [heard, hleave, heard_of_absent hrest]
      rfl
  rw [heard_append, hpresent, hheard, hend, List.append_nil]

/-- A member that joins once hears what is said until it leaves. -/
theorem heard_between {k : κ} {before mid after : List (Event κ μ)} (hbefore : .join k ∉ before)
    (hmid : .leave k ∉ mid)
    (hafter : after = [] ∨ ∃ rest, after = .leave k :: rest ∧ .join k ∉ rest) :
    heard k false (before ++ .join k :: (mid ++ after)) = mid.filterMap Event.said? := by
  have hjoin : (Event.join k : Event κ μ).next k false = true := decide_eq_true rfl
  rw [heard_append, heard_of_absent hbefore, present_of_absent hbefore, heard, hjoin,
    heard_until hmid hafter]
  rfl

end Audience
