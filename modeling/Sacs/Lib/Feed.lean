import Mathlib.Data.List.Induction
import Mathlib.Data.List.Nodup

/-!
# Feeds of changes

A collection of values with keys, in the order of their addition, and the feed
of its changes: a value is added with a key, or what has a key is removed
(`Feed.Change`). A copy of the collection is made by replaying its feed
(`Feed.replay`).

* `replay_append`, `replay_eq`: feeds compose, and what is replayed on top of a
  collection is what is left of it, then what is replayed alone.
* `Feed.Valid es cs`: no key is added while it is there. Then keys remain
  distinct (`Valid.nodup_keys`), also of a feed followed from its middle
  (`Valid.of_sublist`).
-/

namespace Feed

variable {κ α : Type*}

/-- A change of a collection of values with keys. -/
inductive Change (κ α : Type*)
  | add (k : κ) (v : α)
  | remove (k : κ)

/-- The keys of a collection. -/
abbrev keys (es : List (κ × α)) : List κ := es.map Prod.fst

/-- The key removed. -/
def Change.removed? : Change κ α → Option κ
  | .add _ _ => none
  | .remove k => some k

variable [DecidableEq κ]

def apply (es : List (κ × α)) : Change κ α → List (κ × α)
  | .add k v => es ++ [(k, v)]
  | .remove k => es.filter fun e => e.1 ≠ k

/-- The collection `es` after the changes `cs`. -/
def replay (es : List (κ × α)) (cs : List (Change κ α)) : List (κ × α) := cs.foldl apply es

/-- A key is only added to a collection that does not have it. -/
def Valid (es : List (κ × α)) : List (Change κ α) → Prop
  | [] => True
  | c :: cs => (∀ k v, c = .add k v → k ∉ keys es) ∧ Valid (apply es c) cs

@[simp] theorem replay_nil (es : List (κ × α)) : replay es [] = es := rfl

@[simp] theorem replay_cons (es : List (κ × α)) (c : Change κ α) (cs : List (Change κ α)) :
    replay es (c :: cs) = replay (apply es c) cs := rfl

theorem replay_append (es : List (κ × α)) (cs ds : List (Change κ α)) :
    replay es (cs ++ ds) = replay (replay es cs) ds := List.foldl_append

theorem valid_append (es : List (κ × α)) (cs ds : List (Change κ α)) :
    Valid es (cs ++ ds) ↔ Valid es cs ∧ Valid (replay es cs) ds := by
  induction cs generalizing es with
  | nil => simp [Valid]
  | cons c cs ih => rw [List.cons_append, Valid, Valid, ih, replay_cons, and_assoc]

/-- What is in a collection was there from the start or was added. -/
theorem mem_replay {es : List (κ × α)} {cs : List (Change κ α)} {e : κ × α}
    (h : e ∈ replay es cs) : e ∈ es ∨ .add e.1 e.2 ∈ cs := by
  induction cs generalizing es with
  | nil => exact .inl h
  | cons c cs ih =>
    rcases ih h with h | h
    · cases c with
      | add k v =>
        rcases List.mem_append.1 h with h | h
        · exact .inl h
        · rw [List.mem_singleton.1 h]
          exact .inr List.mem_cons_self
      | remove k => exact .inl (List.mem_of_mem_filter h)
    · exact .inr (List.mem_cons_of_mem _ h)

/-- What is left of the collection, then what is replayed alone. -/
theorem replay_eq (es : List (κ × α)) (cs : List (Change κ α)) :
    replay es cs = (es.filter fun e => e.1 ∉ cs.filterMap Change.removed?) ++ replay [] cs := by
  induction cs using List.reverseRecOn with
  | nil => simp
  | append_singleton cs c ih =>
    rw [replay_append, ih, replay_append]
    cases c with
    | add k v => simp [apply, Change.removed?]
    | remove k =>
      simp only [replay_cons, replay_nil, apply, List.filter_append, List.filter_filter,
        List.filterMap_append, List.filterMap_cons, List.filterMap_nil, Change.removed?,
        List.mem_append, List.mem_singleton, not_or, Bool.decide_and, Bool.and_comm]

/-- What is added and not removed is there. -/
theorem mem_replay_of_add {cs : List (Change κ α)} {k : κ} {v : α} (h : .add k v ∈ cs)
    (hremove : k ∉ cs.filterMap Change.removed?) : (k, v) ∈ replay [] cs := by
  obtain ⟨before, after, rfl⟩ := List.append_of_mem h
  rw [replay_append, replay_cons, replay_eq]
  refine List.mem_append_left _ (List.mem_filter.2 ⟨List.mem_append_right _ ?_, ?_⟩)
  · exact List.mem_singleton_self _
  · rw [List.filterMap_append, List.mem_append, not_or] at hremove
    exact decide_eq_true hremove.2

theorem apply_sublist {es es' : List (κ × α)} (h : es.Sublist es') (c : Change κ α) :
    (apply es c).Sublist (apply es' c) := by
  cases c with
  | add k v => exact h.append_right _
  | remove k => exact h.filter _

theorem Valid.of_sublist {es es' : List (κ × α)} (h : es.Sublist es') {cs : List (Change κ α)}
    (hcs : Valid es' cs) : Valid es cs := by
  induction cs generalizing es es' with
  | nil => trivial
  | cons c cs ih =>
    exact ⟨fun k v hc hk => hcs.1 k v hc ((h.map _).subset hk), ih (apply_sublist h c) hcs.2⟩

theorem Valid.nodup_keys {es : List (κ × α)} {cs : List (Change κ α)} (h : Valid es cs)
    (hes : (keys es).Nodup) : (keys (replay es cs)).Nodup := by
  induction cs generalizing es with
  | nil => exact hes
  | cons c cs ih =>
    refine ih h.2 ?_
    cases c with
    | add k v =>
      rw [keys, apply, List.map_append]
      exact hes.append (List.nodup_singleton k) (by simpa using h.1 k v rfl)
    | remove k => exact hes.sublist ((List.filter_sublist).map _)

end Feed
