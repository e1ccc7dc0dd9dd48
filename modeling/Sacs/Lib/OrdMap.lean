import Mathlib.Order.Defs.LinearOrder
import Mathlib.Data.List.Basic
import Mathlib.Data.Finset.Basic
import Mathlib.Order.Monotone.Basic

/-!
# Ordered maps

A map with linearly ordered keys, as the list of its entries in increasing
order of the keys (`OrdMap`): what iterating over it visits, in this order.
The invariant is a field, so that every key has at most one entry.

* `insert` keeps the entry a key already has (the insertion of an existing key
  does nothing), `set` replaces it; `modify` changes the value of an entry in
  place; `erase` removes the entry of a key, if any.
* `find?_insert`, `find?_set`, `find?_modify`, `find?_erase`: what each does to
  lookups; `modify_eq_self_iff`: when a change is none.
* `first?`: the first entry, in the order of the keys, whose entry satisfies a
  predicate.
* `map`: other names for the keys, in the same order, and other values; `find?_map`,
  `erase_map`, `set_map`, `modify_map`: the operations do not depend on the names.
-/

/-- A map with ordered keys: its entries, in increasing order of the keys. -/
structure OrdMap (κ α : Type) [LinearOrder κ] where
  /-- The entries, as iteration visits them. -/
  entries : List (κ × α)
  sorted : entries.Pairwise fun a b => a.1 < b.1

namespace OrdMap

variable {κ α : Type} [LinearOrder κ]

/-- The map without entries. -/
def empty : OrdMap κ α := ⟨[], .nil⟩

/-- The value of the key `k`, if it has one. -/
def find? (m : OrdMap κ α) (k : κ) : Option α :=
  (m.entries.find? fun e => e.1 = k).map Prod.snd

/-- The keys, in increasing order. -/
def keys (m : OrdMap κ α) : List κ := m.entries.map Prod.fst

/-- The entries `es` with one for `k`, unless they have one already. -/
def insertEntries (k : κ) (v : α) : List (κ × α) → List (κ × α)
  | [] => [(k, v)]
  | e :: es =>
    if k < e.1 then (k, v) :: e :: es
    else if e.1 < k then e :: insertEntries k v es
    else e :: es

theorem mem_of_mem_insertEntries {k : κ} {v : α} {es : List (κ × α)} {e : κ × α}
    (h : e ∈ insertEntries k v es) : e = (k, v) ∨ e ∈ es := by
  induction es with
  | nil => simpa [insertEntries] using h
  | cons d es ih =>
    rw [insertEntries] at h
    split_ifs at h with h₁ h₂
    · exact (List.mem_cons.1 h).imp_right id
    · rcases List.mem_cons.1 h with rfl | h
      · exact .inr List.mem_cons_self
      · exact (ih h).imp_right (List.mem_cons_of_mem _)
    · exact .inr h

theorem sorted_insertEntries (k : κ) (v : α) {es : List (κ × α)}
    (h : es.Pairwise fun a b => a.1 < b.1) :
    (insertEntries k v es).Pairwise fun a b => a.1 < b.1 := by
  induction es with
  | nil => simp [insertEntries]
  | cons d es ih =>
    rw [List.pairwise_cons] at h
    rw [insertEntries]
    split_ifs with h₁ h₂
    · refine List.pairwise_cons.2 ⟨fun a ha => ?_, List.pairwise_cons.2 h⟩
      rcases List.mem_cons.1 ha with rfl | ha
      · exact h₁
      · exact h₁.trans (h.1 a ha)
    · refine List.pairwise_cons.2 ⟨fun a ha => ?_, ih h.2⟩
      rcases mem_of_mem_insertEntries ha with rfl | ha
      · exact h₂
      · exact h.1 a ha
    · exact List.pairwise_cons.2 h

/-- The map with the value `v` for `k`, unless `k` has a value already. -/
def insert (m : OrdMap κ α) (k : κ) (v : α) : OrdMap κ α :=
  ⟨insertEntries k v m.entries, sorted_insertEntries k v m.sorted⟩

/-- The map without the entry of `k`. -/
def erase (m : OrdMap κ α) (k : κ) : OrdMap κ α :=
  ⟨m.entries.filter fun e => e.1 ≠ k, m.sorted.filter _⟩

/-- The map with the value of `k` changed by `f`, if it has one. -/
def modify (m : OrdMap κ α) (k : κ) (f : α → α) : OrdMap κ α :=
  ⟨m.entries.map fun e => if e.1 = k then (e.1, f e.2) else e, by
    rw [List.pairwise_map]
    exact m.sorted.imp fun {a b} h => by split_ifs <;> exact h⟩

/-- The map with the value `v` for `k`, in the place of the one it has, if any. -/
def set (m : OrdMap κ α) (k : κ) (v : α) : OrdMap κ α := (m.erase k).insert k v

/-- The first entry satisfying `p`. -/
def first? (m : OrdMap κ α) (p : κ → α → Bool) : Option (κ × α) :=
  m.entries.find? fun e => p e.1 e.2

/-! ### Lookups -/

theorem find?_eq_some_iff {m : OrdMap κ α} {k : κ} {v : α} :
    m.find? k = some v ↔ (k, v) ∈ m.entries := by
  obtain ⟨es, hs⟩ := m
  induction es with
  | nil => simp [find?]
  | cons d es ih =>
    rw [List.pairwise_cons] at hs
    have ih' := ih hs.2
    simp only [find?] at ih'
    simp only [find?, List.find?_cons, List.mem_cons]
    by_cases hd : d.1 = k
    · -- The first entry is that of `k`: no later one is, as keys increase.
      have hne : (k, v) ∉ es := fun h => absurd (hs.1 _ h) (by simp [hd])
      simp [hd, hne, Prod.ext_iff, eq_comm]
    · have hne : (k, v) ≠ d := fun h => hd (by rw [← h])
      simp [hd, hne, ih']

theorem find?_eq_none_iff {m : OrdMap κ α} {k : κ} :
    m.find? k = none ↔ ∀ v, (k, v) ∉ m.entries := by
  rw [Option.eq_none_iff_forall_ne_some]
  exact forall_congr' fun v => not_congr find?_eq_some_iff

theorem mem_keys_iff {m : OrdMap κ α} {k : κ} : k ∈ m.keys ↔ (m.find? k).isSome := by
  simp [keys, Option.isSome_iff_exists, find?_eq_some_iff]

theorem sorted_keys (m : OrdMap κ α) : m.keys.Pairwise (· < ·) :=
  List.pairwise_map.2 m.sorted

@[simp] theorem find?_empty (k : κ) : (empty : OrdMap κ α).find? k = none := rfl

theorem mem_insertEntries_iff {k : κ} {v : α} {es : List (κ × α)}
    (hs : es.Pairwise fun a b => a.1 < b.1) {e : κ × α} :
    e ∈ insertEntries k v es ↔ e ∈ es ∨ (e = (k, v) ∧ ∀ w, (k, w) ∉ es) := by
  induction es with
  | nil => simp [insertEntries]
  | cons d es ih =>
    rw [List.pairwise_cons] at hs
    rw [insertEntries]
    split_ifs with h₁ h₂
    · have hne : ∀ w, (k, w) ∉ d :: es := fun w hw => by
        rcases List.mem_cons.1 hw with h | h
        · simp [← h] at h₁
        · exact lt_asymm h₁ (hs.1 _ h)
      simp only [List.mem_cons] at hne ⊢
      grind
    · have hne : ∀ w, (k, w) ≠ d := fun w h => by simp [← h] at h₂
      simp only [List.mem_cons, ih hs.2, hne, false_or, or_assoc]
    · have : d.1 = k := le_antisymm (not_lt.1 h₁) (not_lt.1 h₂)
      have hd : (k, d.2) ∈ d :: es := by rw [← this]; exact List.mem_cons_self
      exact ⟨.inl, fun h => h.elim id fun h => absurd hd (h.2 _)⟩

theorem find?_insert (m : OrdMap κ α) (k j : κ) (v : α) :
    (m.insert k v).find? j = if j = k then some ((m.find? k).getD v) else m.find? j := by
  ext w
  rw [find?_eq_some_iff, insert, mem_insertEntries_iff m.sorted, ← find?_eq_some_iff,
    ← find?_eq_none_iff]
  split_ifs with h
  · subst h
    cases m.find? j <;> simp [eq_comm]
  · simp [h]

theorem find?_erase (m : OrdMap κ α) (k j : κ) :
    (m.erase k).find? j = if j = k then none else m.find? j := by
  ext w
  rw [find?_eq_some_iff, erase, List.mem_filter, ← find?_eq_some_iff]
  split_ifs with h <;> simp [h]

theorem find?_set (m : OrdMap κ α) (k j : κ) (v : α) :
    (m.set k v).find? j = if j = k then some v else m.find? j := by
  rw [set, find?_insert, find?_erase, find?_erase, if_pos rfl]
  split_ifs <;> rfl

theorem find?_modify (m : OrdMap κ α) (k j : κ) (f : α → α) :
    (m.modify k f).find? j = if j = k then (m.find? k).map f else m.find? j := by
  ext w
  rw [find?_eq_some_iff, modify, List.mem_map]
  constructor
  · rintro ⟨⟨i, u⟩, hi, he⟩
    rw [← find?_eq_some_iff] at hi
    split_ifs at he ⊢ with h₁ h₂ h₂ <;> simp_all
  · split_ifs with h
    · subst h
      intro hw
      obtain ⟨u, hu, rfl⟩ := Option.map_eq_some_iff.1 hw
      exact ⟨(j, u), find?_eq_some_iff.1 hu, by simp⟩
    · exact fun hw => ⟨(j, w), find?_eq_some_iff.1 hw, by simp [h]⟩

/-- Nothing is removed for a key without a value. -/
theorem erase_eq_self {m : OrdMap κ α} {k : κ} (h : m.find? k = none) : m.erase k = m := by
  obtain ⟨es, hs⟩ := m
  have hes : es.filter (fun e => e.1 ≠ k) = es := by
    rw [List.filter_eq_self]
    rintro ⟨i, v⟩ he
    have hne : i ≠ k := fun hi => find?_eq_none_iff.1 h v (hi ▸ he)
    simpa using hne
  simp only [erase, hes]

/-- A map stays if the value changed is changed to itself. -/
theorem modify_eq_self_iff {m : OrdMap κ α} {k : κ} {f : α → α} :
    m.modify k f = m ↔ ∀ v, m.find? k = some v → f v = v := by
  constructor
  · intro h v hv
    have hf := find?_modify m k k f
    rw [h, if_pos rfl, hv] at hf
    exact (Option.some.inj hf).symm
  · intro h
    obtain ⟨es, hs⟩ := m
    have hes : es.map (fun e => if e.1 = k then (e.1, f e.2) else e) = es := by
      refine (List.map_congr_left fun e he => ?_).trans (List.map_id es)
      split_ifs with hk
      · exact Prod.ext rfl (h e.2 (find?_eq_some_iff.2 (hk ▸ he)))
      · rfl
    simp only [modify, hes]

theorem insertEntries_of_lt {k : κ} {es : List (κ × α)} (h : ∀ e ∈ es, e.1 < k) (v : α) :
    insertEntries k v es = es ++ [(k, v)] := by
  induction es with
  | nil => rfl
  | cons e es ih =>
    have he : e.1 < k := h e List.mem_cons_self
    rw [insertEntries, if_neg (lt_asymm he), if_pos he,
      ih fun e' he' => h e' (List.mem_cons_of_mem _ he')]
    rfl

/-- A key larger than the others comes last. -/
theorem entries_insert_of_lt {m : OrdMap κ α} {k : κ} (h : ∀ j ∈ m.keys, j < k) (v : α) :
    (m.insert k v).entries = m.entries ++ [(k, v)] :=
  insertEntries_of_lt (fun e he => h e.1 (List.mem_map_of_mem he)) v

/-! ### First entries -/

theorem of_first?_eq_some {m : OrdMap κ α} {p : κ → α → Bool} {k : κ} {v : α}
    (h : m.first? p = some (k, v)) : m.find? k = some v ∧ p k v = true :=
  ⟨find?_eq_some_iff.2 (List.mem_of_find?_eq_some h), by simpa using List.find?_some h⟩

theorem first?_eq_none_iff {m : OrdMap κ α} {p : κ → α → Bool} :
    m.first? p = none ↔ ∀ k v, m.find? k = some v → p k v = false := by
  simp [first?, find?_eq_some_iff]

/-! ### Numbers of entries -/

theorem length_insertEntries_le (k : κ) (v : α) (es : List (κ × α)) :
    (insertEntries k v es).length ≤ es.length + 1 := by
  induction es with
  | nil => simp [insertEntries]
  | cons e es ih =>
    rw [insertEntries]
    split_ifs
    · simp
    · simpa using ih
    · simp

theorem length_insert_le (m : OrdMap κ α) (k : κ) (v : α) :
    (m.insert k v).entries.length ≤ m.entries.length + 1 :=
  length_insertEntries_le k v m.entries

theorem length_erase_le (m : OrdMap κ α) (k : κ) :
    (m.erase k).entries.length ≤ m.entries.length :=
  List.length_filter_le ..

theorem length_erase_lt {m : OrdMap κ α} {k : κ} {v : α} (h : m.find? k = some v) :
    (m.erase k).entries.length < m.entries.length :=
  List.length_filter_lt_length_iff_exists.2 ⟨(k, v), find?_eq_some_iff.1 h, by simp⟩

/-! ### Other keys and values -/

section Map

variable {κ' β : Type} [LinearOrder κ'] {f : κ → κ'} {hf : StrictMono f} {g : α → β}

/-- The map with other names for the keys, in the same order, and other values. -/
def map (m : OrdMap κ α) (f : κ → κ') (hf : StrictMono f) (g : α → β) : OrdMap κ' β :=
  ⟨m.entries.map (Prod.map f g), List.pairwise_map.2 (m.sorted.imp fun h => hf h)⟩

theorem find?_map (g : α → β) (hf : StrictMono f) (m : OrdMap κ α) (k : κ) :
    (m.map f hf g).find? (f k) = (m.find? k).map g := by
  have hkey : (fun e : κ × α => decide ((Prod.map f g e).1 = f k)) = fun e => decide (e.1 = k) :=
    funext fun e => decide_eq_decide.2 hf.injective.eq_iff
  rw [find?, find?, map, List.find?_map, Function.comp_def, hkey, Option.map_map, Option.map_map]
  rfl

theorem erase_map (m : OrdMap κ α) (k : κ) :
    (m.map f hf g).erase (f k) = (m.erase k).map f hf g := by
  have hkey : (fun e : κ × α => decide ((Prod.map f g e).1 ≠ f k)) = fun e => decide (e.1 ≠ k) :=
    funext fun e => decide_eq_decide.2 hf.injective.ne_iff
  have hentries : (m.entries.map (Prod.map f g)).filter (fun e => e.1 ≠ f k) =
      (m.entries.filter fun e => e.1 ≠ k).map (Prod.map f g) := by
    rw [List.filter_map, Function.comp_def, hkey]
  simp only [erase, map, hentries]

theorem insertEntries_map (hf : StrictMono f) (k : κ) (v : α) (es : List (κ × α)) :
    insertEntries (f k) (g v) (es.map (Prod.map f g)) =
      (insertEntries k v es).map (Prod.map f g) := by
  induction es with
  | nil => rfl
  | cons e es ih =>
    rw [List.map_cons, insertEntries, insertEntries, ih]
    simp only [Prod.map_fst, hf.lt_iff_lt]
    split_ifs <;> rfl

theorem set_map (m : OrdMap κ α) (k : κ) (v : α) :
    (m.map f hf g).set (f k) (g v) = (m.set k v).map f hf g := by
  rw [set, set, erase_map]
  simp only [insert, map, insertEntries_map hf]

theorem modify_map (m : OrdMap κ α) (k : κ) {h : α → α} {h' : β → β}
    (hgh : ∀ v, h' (g v) = g (h v)) :
    (m.map f hf g).modify (f k) h' = (m.modify k h).map f hf g := by
  have hentries : (m.entries.map (Prod.map f g)).map
      (fun e => if e.1 = f k then (e.1, h' e.2) else e) =
      (m.entries.map fun e => if e.1 = k then (e.1, h e.2) else e).map (Prod.map f g) := by
    rw [List.map_map, List.map_map]
    refine List.map_congr_left fun e _ => ?_
    simp only [Function.comp_apply, Prod.map_fst, Prod.map_snd, hf.injective.eq_iff, hgh]
    split_ifs <;> rfl
  simp only [modify, map, hentries]

end Map

end OrdMap
