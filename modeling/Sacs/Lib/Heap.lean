import Mathlib.Algebra.Order.Group.Multiset
import Mathlib.Data.Finset.Card
import Mathlib.Data.List.Induction
import Mathlib.Data.Multiset.UnionInter
import Mathlib.Data.Multiset.MapFold

/-!
# Arrays on the heap

Programs that make arrays, write and read their elements, and delete them (`Heap.Prog`).
A program fails that uses an array that is deleted, an element that the array does not have,
or an element that is not assigned.

What a program owns is a multiset of arrays with their contents (`Heap.Holds`), disjoint
from all others, which are the frame. `Heap.Triple m c Q` says that `c`, owning `m`, does
not fail, leaves the frame as it is, and then owns what `Q` says of its result: with the
empty multiset in `Q`, it deletes all that it makes. The rules:

* `Triple.pure`, `Triple.bind`, `Triple.conseq`: results, sequences, weaker conclusions;
* `Triple.frame`: what is owned besides stays as it is;
* `Triple.new`, `Triple.write`, `Triple.read`, `Triple.delete`: the operations;
* `Triple.write_filled`: an array whose first elements are assigned (`Heap.filled`) gets one
  more;
* `Triple.writeAll`: several elements are copied to an array;
* `Triple.forRange`: a loop, by an invariant that the body keeps;
* `Fails`: the programs that fail, and where;
* `Triple.run`: what follows of the heap, in which as many arrays remain as are owned in the
  end (`Heap.Leaves`).
-/

/-- The arrays, by their addresses, of which those from `next` on are not used yet. An
    element not assigned is `none`. -/
structure Heap (β : Type) where
  blocks : ℕ → Option (List (Option β)) := fun _ => none
  next : ℕ := 0
  fresh : ∀ a, next ≤ a → blocks a = none := by exact fun _ _ => rfl

namespace Heap

inductive Fault
  /-- There is no array at the address. -/
  | dangling
  | outOfBounds
  | unassigned
  /-- The element is of another type. -/
  | type
  /-- An argument is not what it has to be. -/
  | invalid
  deriving DecidableEq

/-- Programs, which fail or return. -/
abbrev Prog (β α : Type) : Type := StateT (Heap β) (Except Fault) α

variable {α β γ : Type}

theorem lt_next {h : Heap β} {a : ℕ} {cs : List (Option β)} (ha : h.blocks a = some cs) :
    a < h.next := by
  by_contra hlt
  cases (h.fresh a (not_lt.1 hlt)).symm.trans ha

/-- Puts an array at an address used before, or none. -/
def store (h : Heap β) (a : ℕ) (cs : Option (List (Option β))) : Heap β where
  blocks b := if b < h.next then Function.update h.blocks a cs b else none
  next := h.next
  fresh _ hb := if_neg (not_lt.2 hb)

theorem blocks_store {h : Heap β} {a : ℕ} (ha : a < h.next) (cs : Option (List (Option β))) :
    (h.store a cs).blocks = Function.update h.blocks a cs := by
  funext b
  by_cases hb : b < h.next
  · exact if_pos hb
  · have hne : b ≠ a := fun heq => hb (heq ▸ ha)
    rw [Function.update_of_ne hne, h.fresh b (not_lt.1 hb)]
    exact if_neg hb

/-! ## The operations -/

/-- `new[]`: an array of `n` elements. -/
def new (n : ℕ) : Prog β ℕ := fun h =>
  .ok (h.next, {
    blocks := Function.update h.blocks h.next (some (List.replicate n none))
    next := h.next + 1
    fresh a ha := by
      have hne : a ≠ h.next := by omega
      rw [Function.update_of_ne hne, h.fresh a (by omega)] })

def write (a i : ℕ) (v : β) : Prog β Unit := fun h =>
  match h.blocks a with
  | none => .error .dangling
  | some cells =>
    if i < cells.length then .ok ((), h.store a (some (cells.set i (some v))))
    else .error .outOfBounds

def read (a i : ℕ) : Prog β β := fun h =>
  match h.blocks a with
  | none => .error .dangling
  | some cells => match cells[i]? with
    | none => .error .outOfBounds
    | some none => .error .unassigned
    | some (some v) => .ok (v, h)

/-- `delete[]`. -/
def delete (a : ℕ) : Prog β Unit := fun h =>
  match h.blocks a with
  | none => .error .dangling
  | some _ => .ok ((), h.store a none)

/-- What is known of the elements of an array. -/
def cells (a : ℕ) : Prog β (List (Option β)) := fun h =>
  match h.blocks a with
  | none => .error .dangling
  | some cells => .ok (cells, h)

def fail (e : Fault) : Prog β α := fun _ => .error e

/-- An element of a list that is not on the heap. -/
def elem (l : List α) (i : ℕ) : Prog β α :=
  match l[i]? with
  | some a => pure a
  | none => fail .outOfBounds

/-- `for(i = 0; i < n; i++)`. -/
def forRange (body : ℕ → Prog β Unit) : ℕ → Prog β Unit
  | 0 => pure ()
  | n + 1 => do
    forRange body n
    body n

/-- The same, with the results of the body put in a list. -/
def mapRange (body : ℕ → Prog β α) : ℕ → Prog β (List α)
  | 0 => pure []
  | n + 1 => do
    let l ← mapRange body n
    return l ++ [← body n]

/-- Writes the elements `vs` from the `i`-th one on. -/
def writeAll (a : ℕ) : ℕ → List β → Prog β Unit
  | _, [] => pure ()
  | i, v :: vs => do
    write a i v
    writeAll a (i + 1) vs

/-- An array of `n` elements, of which the first ones are assigned. -/
def filled (vs : List β) (n : ℕ) : List (Option β) :=
  vs.map some ++ List.replicate (n - vs.length) none

@[simp] theorem filled_nil (n : ℕ) : filled ([] : List β) n = List.replicate n none := by
  simp [filled]

theorem length_filled {vs : List β} {n : ℕ} (h : vs.length ≤ n) : (filled vs n).length = n := by
  simp [filled, h]

theorem getElem?_filled {vs : List β} {n i : ℕ} {v : β} (hv : vs[i]? = some v) :
    (filled vs n)[i]? = some (some v) := by
  have hi := (List.getElem?_eq_some_iff.1 hv).1
  rw [filled, List.getElem?_append_left (by simpa using hi), List.getElem?_map, hv]
  rfl

/-- The next element is assigned. -/
theorem filled_set {vs : List β} {n : ℕ} (h : vs.length < n) (v : β) :
    (filled vs n).set vs.length (some v) = filled (vs ++ [v]) n := by
  obtain ⟨k, rfl⟩ := Nat.exists_eq_add_of_lt h
  have hrest : vs.length + k + 1 - vs.length = k + 1 := by omega
  have hrest' : vs.length + k + 1 - (vs.length + 1) = k := by omega
  rw [filled, filled, hrest, List.replicate_succ, List.set_append_right _ _ (by simp)]
  simp [hrest']

/-! ## Ownership -/

/-- An array and its contents. -/
abbrev Block (β : Type) : Type := ℕ × List (Option β)

/-- The heap has the arrays `m`, and besides those of the frame `f`. -/
structure Holds (h : Heap β) (m : Multiset (Block β)) (f : ℕ → Option (List (Option β))) :
    Prop where
  nodup : (m.map Prod.fst).Nodup
  owned : ∀ e ∈ m, h.blocks e.1 = some e.2 ∧ f e.1 = none
  frame : ∀ a, a ∉ m.map Prod.fst → h.blocks a = f a

theorem holds_zero (h : Heap β) : h.Holds 0 h.blocks where
  nodup := by simp
  owned := by simp
  frame _ _ := rfl

theorem Holds.blocks_eq {h : Heap β} {f : ℕ → Option (List (Option β))} (hh : h.Holds 0 f) :
    h.blocks = f := funext fun a => hh.frame a (by simp)

/-- The arrays with the contents `css` at the addresses `as`. -/
def arrays (as : List ℕ) (css : List (List (Option β))) : Multiset (Block β) := ↑(as.zip css)

@[simp] theorem arrays_nil (css : List (List (Option β))) : arrays [] css = 0 := by
  simp [arrays]

theorem arrays_cons (a : ℕ) (cs : List (Option β)) (as : List ℕ) (css : List (List (Option β))) :
    arrays (a :: as) (cs :: css) = {(a, cs)} + arrays as css := rfl

theorem arrays_concat {as : List ℕ} {css : List (List (Option β))} (h : as.length = css.length)
    (a : ℕ) (cs : List (Option β)) :
    arrays (as ++ [a]) (css ++ [cs]) = {(a, cs)} + arrays as css := by
  rw [arrays, List.zip_append h, ← Multiset.coe_add, add_comm]
  rfl

theorem mem_arrays {as : List ℕ} {l : List (List (Option β))} {i a : ℕ}
    {c : List (Option β)} (ha : as[i]? = some a) (hc : l[i]? = some c) :
    (a, c) ∈ arrays as l :=
  Multiset.mem_coe.2 (List.mem_of_getElem? (List.getElem?_zip_eq_some.2 ⟨ha, hc⟩))

theorem card_arrays {as : List ℕ} {css : List (List (Option β))} (h : as.length = css.length) :
    (arrays as css).card = as.length := by
  rw [arrays, Multiset.coe_card, List.length_zip, ← h, min_self]

/-- Part of what is owned can be counted to the frame. -/
theorem Holds.split {h : Heap β} {m k : Multiset (Block β)} {f : ℕ → Option (List (Option β))}
    (hh : h.Holds (m + k) f) :
    h.Holds m fun a => if a ∈ m.map Prod.fst then none else h.blocks a where
  nodup := by
    have := hh.nodup
    rw [Multiset.map_add, Multiset.nodup_add] at this
    exact this.1
  owned e he :=
    ⟨(hh.owned e (Multiset.mem_add.2 (.inl he))).1, if_pos (Multiset.mem_map_of_mem _ he)⟩
  frame a ha := (if_neg ha).symm

/-- And back. -/
theorem Holds.join {h h' : Heap β} {m m' k : Multiset (Block β)}
    {f : ℕ → Option (List (Option β))} (hh : h.Holds (m + k) f)
    (hh' : h'.Holds m' fun a => if a ∈ m.map Prod.fst then none else h.blocks a) :
    h'.Holds (m' + k) f := by
  have hnodup := hh.nodup
  rw [Multiset.map_add, Multiset.nodup_add] at hnodup
  obtain ⟨-, hk, hdisj⟩ := hnodup
  have hnot : ∀ {a}, a ∈ k.map Prod.fst → a ∉ m.map Prod.fst := fun hak ham =>
    Multiset.disjoint_left.1 hdisj ham hak
  -- What is counted to the frame is at other addresses than what is owned now.
  have hframe : ∀ e ∈ k, h'.blocks e.1 = some e.2 ∧ e.1 ∉ m'.map Prod.fst := by
    intro e he
    have hsome : (if e.1 ∈ m.map Prod.fst then none else h.blocks e.1) = some e.2 := by
      rw [if_neg (hnot (Multiset.mem_map_of_mem _ he))]
      exact (hh.owned e (Multiset.mem_add.2 (.inr he))).1
    have hm' : e.1 ∉ m'.map Prod.fst := by
      intro hmem
      obtain ⟨e', he', heq⟩ := Multiset.mem_map.1 hmem
      have hnone := (hh'.owned e' he').2
      rw [heq, hsome] at hnone
      cases hnone
    exact ⟨(hh'.frame e.1 hm').trans hsome, hm'⟩
  refine ⟨?_, fun e he => ?_, fun a ha => ?_⟩
  · rw [Multiset.map_add, Multiset.nodup_add]
    refine ⟨hh'.nodup, hk, Multiset.disjoint_left.2 fun {a} ham hak => ?_⟩
    obtain ⟨e, he, rfl⟩ := Multiset.mem_map.1 hak
    exact (hframe e he).2 ham
  · rcases Multiset.mem_add.1 he with he | he
    · refine ⟨(hh'.owned e he).1, ?_⟩
      have hnone := (hh'.owned e he).2
      by_cases hem : e.1 ∈ m.map Prod.fst
      · obtain ⟨e', he', heq⟩ := Multiset.mem_map.1 hem
        exact heq ▸ (hh.owned e' (Multiset.mem_add.2 (.inl he'))).2
      · rw [if_neg hem] at hnone
        by_cases hek : e.1 ∈ k.map Prod.fst
        · obtain ⟨e', he', heq⟩ := Multiset.mem_map.1 hek
          exact heq ▸ (hh.owned e' (Multiset.mem_add.2 (.inr he'))).2
        · refine (hh.frame e.1 ?_).symm.trans hnone
          rw [Multiset.map_add, Multiset.mem_add]
          exact not_or.2 ⟨hem, hek⟩
    · exact ⟨(hframe e he).1, (hh.owned e (Multiset.mem_add.2 (.inr he))).2⟩
  · rw [Multiset.map_add, Multiset.mem_add, not_or] at ha
    rw [hh'.frame a ha.1]
    split_ifs with ham
    · obtain ⟨e, he, rfl⟩ := Multiset.mem_map.1 ham
      exact (hh.owned e (Multiset.mem_add.2 (.inl he))).2.symm
    · refine hh.frame a ?_
      rw [Multiset.map_add, Multiset.mem_add]
      exact not_or.2 ⟨ham, ha.2⟩

/-- There are `n` new arrays in `h'`, and otherwise those of `h` as they were. -/
def Leaves (h h' : Heap β) (n : ℕ) : Prop :=
  ∃ l : Finset ℕ, l.card = n ∧ (∀ a ∈ l, h.blocks a = none ∧ h'.blocks a ≠ none) ∧
    ∀ a ∉ l, h'.blocks a = h.blocks a

theorem Holds.leaves {h h' : Heap β} {m : Multiset (Block β)} (hh : h'.Holds m h.blocks) :
    h.Leaves h' m.card := by
  refine ⟨(m.map Prod.fst).toFinset, ?_, fun a ha => ?_, fun a ha => ?_⟩
  · rw [Multiset.toFinset_card_of_nodup hh.nodup, Multiset.card_map]
  · obtain ⟨e, he, rfl⟩ := Multiset.mem_map.1 (Multiset.mem_toFinset.1 ha)
    obtain ⟨hblock, hnone⟩ := hh.owned e he
    refine ⟨hnone, ?_⟩
    rw [hblock]
    simp
  · exact hh.frame a fun hmem => ha (Multiset.mem_toFinset.2 hmem)

/-! ## Triples -/

/-- The program, owning `m`, does not fail, and owns in the end what `Q` says of its result. -/
def Triple (m : Multiset (Block β)) (c : Prog β α) (Q : α → Multiset (Block β) → Prop) : Prop :=
  ∀ h f, h.Holds m f → ∃ r h' m', c.run h = .ok (r, h') ∧ h'.Holds m' f ∧ Q r m'

namespace Triple

variable {m k : Multiset (Block β)} {Q : α → Multiset (Block β) → Prop}

theorem pure {r : α} (hQ : Q r m) : Triple m (Pure.pure r : Prog β α) Q :=
  fun h _ hh => ⟨r, h, m, rfl, hh, hQ⟩

theorem bind {c : Prog β α} {d : α → Prog β γ} {S : γ → Multiset (Block β) → Prop}
    (hc : Triple m c Q) (hd : ∀ r m', Q r m' → Triple m' (d r) S) : Triple m (c >>= d) S := by
  intro h f hh
  obtain ⟨r, h₁, m₁, hr, hh₁, hQ⟩ := hc h f hh
  obtain ⟨r', h₂, m₂, hr', hh₂, hS⟩ := hd r m₁ hQ h₁ f hh₁
  refine ⟨r', h₂, m₂, ?_, hh₂, hS⟩
  rw [StateT.run_bind, hr]
  exact hr'

theorem conseq {c : Prog β α} {S : α → Multiset (Block β) → Prop} (hc : Triple m c Q)
    (hQ : ∀ r m', Q r m' → S r m') : Triple m c S := by
  intro h f hh
  obtain ⟨r, h', m', hr, hh', hQ'⟩ := hc h f hh
  exact ⟨r, h', m', hr, hh', hQ r m' hQ'⟩

theorem map {c : Prog β α} {g : α → γ} {S : γ → Multiset (Block β) → Prop}
    (hc : Triple m c fun r m' => S (g r) m') : Triple m (g <$> c) S := by
  rw [map_eq_pure_bind]
  exact .bind hc fun r m' hS => .pure hS

/-- What is owned besides stays as it is. -/
theorem frame {c : Prog β α} (hc : Triple m c Q) :
    Triple (m + k) c fun r m' => ∃ m₀, Q r m₀ ∧ m' = m₀ + k := by
  intro h f hh
  obtain ⟨r, h', m', hr, hh', hQ⟩ := hc h _ hh.split
  exact ⟨r, h', m' + k, hr, hh.join hh', m', hQ, rfl⟩

/-- What is owned can be reordered. -/
theorem of_eq {c : Prog β α} (hm : m = k) (hc : Triple k c Q) : Triple m c Q := hm ▸ hc

/-- What a program does to a heap of which it owns nothing. -/
theorem run {c : Prog β α} (hc : Triple 0 c Q) (h : Heap β) :
    ∃ r h' m', c.run h = .ok (r, h') ∧ h.Leaves h' m'.card ∧ Q r m' := by
  obtain ⟨r, h', m', hr, hh', hQ⟩ := hc h _ h.holds_zero
  exact ⟨r, h', m', hr, hh'.leaves, hQ⟩

/-! ### The operations -/

theorem new (n : ℕ) : Triple m (Heap.new n) fun a m' =>
    m' = {(a, List.replicate n none)} + m := by
  have hnew : Triple (β := β) 0 (Heap.new n) fun a m' =>
      m' = {(a, List.replicate n none)} := by
    intro h f hh
    refine ⟨h.next, _, _, rfl, ⟨by simp, fun e he => ?_, fun a ha => ?_⟩, rfl⟩
    · rw [Multiset.mem_singleton.1 he]
      refine ⟨Function.update_self .., ?_⟩
      rw [← hh.blocks_eq]
      exact h.fresh _ le_rfl
    · have hne : a ≠ h.next := by simpa using ha
      rw [← hh.blocks_eq]
      exact Function.update_of_ne hne ..
  refine .of_eq (zero_add m).symm (hnew.frame.conseq ?_)
  rintro a _ ⟨_, rfl, rfl⟩
  rfl

/-- An array that is owned is replaced. -/
theorem holds_store {h : Heap β} {a : ℕ} {cs : List (Option β)}
    {f : ℕ → Option (List (Option β))} (hh : h.Holds {(a, cs)} f) (cs' : List (Option β)) :
    (h.store a (some cs')).Holds {(a, cs')} f := by
  obtain ⟨hblock, hnone⟩ := hh.owned (a, cs) (Multiset.mem_singleton_self _)
  refine ⟨by simp, fun e he => ?_, fun b hb => ?_⟩
  · rw [Multiset.mem_singleton.1 he, blocks_store (lt_next hblock)]
    exact ⟨Function.update_self .., hnone⟩
  · have hne : b ≠ a := by simpa using hb
    rw [blocks_store (lt_next hblock)]
    exact (Function.update_of_ne hne ..).trans (hh.frame b (by simpa using hne))

theorem write {a i : ℕ} {cs : List (Option β)} (k : Multiset (Block β)) (v : β)
    (hm : m = {(a, cs)} + k) (hi : i < cs.length) :
    Triple m (Heap.write a i v) fun _ m' => m' = {(a, cs.set i (some v))} + k := by
  have hwrite : Triple {(a, cs)} (Heap.write a i v) fun _ m' =>
      m' = {(a, cs.set i (some v))} := by
    intro h f hh
    have hblock := (hh.owned (a, cs) (Multiset.mem_singleton_self _)).1
    refine ⟨(), _, _, ?_, holds_store hh _, rfl⟩
    simp only [Heap.write, StateT.run, hblock, if_pos hi]
  refine .of_eq hm (hwrite.frame.conseq ?_)
  rintro _ _ ⟨_, rfl, rfl⟩
  rfl

/-- The element after those that are assigned is assigned. -/
theorem write_filled {a n i : ℕ} {l : List β} (k : Multiset (Block β)) (v : β)
    (hm : m = {(a, filled l n)} + k) (hi : l.length = i) (hn : i < n) :
    Triple m (Heap.write a i v) fun _ m' => m' = {(a, filled (l ++ [v]) n)} + k := by
  subst hi
  rw [← filled_set hn]
  exact .write k v hm (by rwa [length_filled hn.le])

theorem writeAll {a i : ℕ} {cs : List (Option β)} {vs : List β} (k : Multiset (Block β))
    (hm : m = {(a, cs)} + k) (hn : i + vs.length ≤ cs.length) :
    Triple m (Heap.writeAll a i vs) fun _ m' =>
      m' = {(a, cs.take i ++ vs.map some ++ cs.drop (i + vs.length))} + k := by
  induction vs generalizing i cs m with
  | nil =>
    refine .pure ?_
    rw [hm, List.map_nil, List.append_nil, List.length_nil, Nat.add_zero, List.take_append_drop]
  | cons v vs ih =>
    rw [List.length_cons] at hn
    refine .bind (.write k v hm (by omega)) fun _ m' hm' => (ih hm' ?_).conseq ?_
    · rw [List.length_set]
      omega
    rintro _ _ rfl
    have hi : i < cs.length := by omega
    have htake : (cs.set i (some v)).take (i + 1) = cs.take i ++ [some v] := by
      rw [List.take_add_one, List.take_set_of_le le_rfl, List.getElem?_set_self hi]
      rfl
    rw [htake, List.drop_set_of_lt (by omega), List.length_cons, List.map_cons,
      List.append_assoc, List.append_assoc, List.append_assoc, Nat.add_assoc,
      Nat.add_comm 1]
    rfl

/-- Nothing is owned but what was owned. -/
theorem ask {c : Prog β α} {r : α} (hc : ∀ h f, h.Holds m f → c.run h = .ok (r, h)) :
    Triple m c fun r' m' => r' = r ∧ m' = m :=
  fun h f hh => ⟨r, h, m, hc h f hh, hh, rfl, rfl⟩

theorem read {a i : ℕ} {cs : List (Option β)} {v : β} (hm : (a, cs) ∈ m)
    (hv : cs[i]? = some (some v)) :
    Triple m (Heap.read a i) fun r m' => r = v ∧ m' = m :=
  .ask fun h f hh => by
    simp only [Heap.read, StateT.run, (hh.owned (a, cs) hm).1, hv]

theorem cells {a : ℕ} {cs : List (Option β)} (hm : (a, cs) ∈ m) :
    Triple m (Heap.cells a) fun r m' => r = cs ∧ m' = m :=
  .ask fun h f hh => by
    simp only [Heap.cells, StateT.run, (hh.owned (a, cs) hm).1]

theorem elem {l : List α} {i : ℕ} {r : α} (h : l[i]? = some r) :
    Triple m (Heap.elem l i) fun r' m' => r' = r ∧ m' = m := by
  rw [Heap.elem, h]
  exact .pure ⟨rfl, rfl⟩

theorem delete {a : ℕ} (cs : List (Option β)) (k : Multiset (Block β))
    (hm : m = {(a, cs)} + k) :
    Triple m (Heap.delete a) fun _ m' => m' = k := by
  have hdelete : Triple {(a, cs)} (Heap.delete a) fun _ m' => m' = 0 := by
    intro h f hh
    obtain ⟨hblock, hnone⟩ := hh.owned (a, cs) (Multiset.mem_singleton_self _)
    refine ⟨(), h.store a none, 0, ?_, ⟨by simp, by simp, fun b _ => ?_⟩, rfl⟩
    · simp only [Heap.delete, StateT.run, hblock]
    rw [blocks_store (lt_next hblock)]
    by_cases hb : b = a
    · rw [hb, hnone]
      exact Function.update_self ..
    · exact (Function.update_of_ne hb ..).trans (hh.frame b (by simpa using hb))
  refine .of_eq hm (hdelete.frame.conseq ?_)
  rintro _ _ ⟨_, rfl, rfl⟩
  exact zero_add k

/-! ### Loops -/

/-- What the body keeps, from the `i`-th time to the next one, holds after the loop. -/
theorem forRange {body : ℕ → Prog β Unit} {n : ℕ} {I : ℕ → Multiset (Block β) → Prop}
    (hI : I 0 m) (hbody : ∀ i < n, ∀ m', I i m' → Triple m' (body i) fun _ m'' => I (i + 1) m'') :
    Triple m (Heap.forRange body n) fun _ m' => I n m' := by
  induction n with
  | zero => exact .pure hI
  | succ n ih =>
    refine .bind (ih fun i hi => hbody i (hi.trans (Nat.lt_succ_self n))) fun _ m' hm' => ?_
    exact hbody n (Nat.lt_succ_self n) m' hm'

/-- A loop that only looks. -/
theorem mapRange {body : ℕ → Prog β α} {l : List α}
    (hbody : ∀ i r, l[i]? = some r → Triple m (body i) fun r' m' => r' = r ∧ m' = m) :
    Triple m (Heap.mapRange body l.length) fun r m' => r = l ∧ m' = m := by
  induction l using List.reverseRecOn with
  | nil => exact .pure ⟨rfl, rfl⟩
  | append_singleton l r ih =>
    rw [List.length_append, List.length_singleton, Heap.mapRange]
    refine .bind (ih fun i r' hr' => hbody i r' ?_) ?_
    · exact (List.getElem?_append_left (List.getElem?_eq_some_iff.1 hr').1).trans hr'
    · rintro _ _ ⟨rfl, rfl⟩
      refine .bind (hbody _ r List.getElem?_concat_length) ?_
      rintro _ _ ⟨rfl, rfl⟩
      exact .pure ⟨rfl, rfl⟩

end Triple

/-! ## Failures -/

/-- The program, owning `m`, fails. -/
def Fails (m : Multiset (Block β)) (c : Prog β α) : Prop :=
  ∀ h f, h.Holds m f → ∃ e, c.run h = .error e

namespace Fails

variable {m : Multiset (Block β)}

theorem fail (e : Fault) : Fails m (Heap.fail e : Prog β α) := fun _ _ _ => ⟨e, rfl⟩

theorem bind {c : Prog β α} (d : α → Prog β γ) (hc : Fails m c) : Fails m (c >>= d) := by
  intro h f hh
  obtain ⟨e, he⟩ := hc h f hh
  refine ⟨e, ?_⟩
  rw [StateT.run_bind, he]
  rfl

/-- It goes well until it fails. -/
theorem after {c : Prog β α} {d : α → Prog β γ} {Q : α → Multiset (Block β) → Prop}
    (hc : Triple m c Q) (hd : ∀ r m', Q r m' → Fails m' (d r)) : Fails m (c >>= d) := by
  intro h f hh
  obtain ⟨r, h', m', hr, hh', hQ⟩ := hc h f hh
  obtain ⟨e, he⟩ := hd r m' hQ h' f hh'
  refine ⟨e, ?_⟩
  rw [StateT.run_bind, hr]
  exact he

theorem forRange {body : ℕ → Prog β Unit} {n j : ℕ} (hj : j < n)
    {I : ℕ → Multiset (Block β) → Prop} (hI : I 0 m)
    (hbody : ∀ i < j, ∀ m', I i m' → Triple m' (body i) fun _ m'' => I (i + 1) m'')
    (hfails : ∀ m', I j m' → Fails m' (body j)) : Fails m (Heap.forRange body n) := by
  induction n with
  | zero => exact absurd hj (Nat.not_lt_zero j)
  | succ n ih =>
    rcases Nat.lt_succ_iff_lt_or_eq.1 hj with hlt | rfl
    · exact .bind _ (ih hlt)
    · exact .after (.forRange hI hbody) fun _ m' hm' => hfails m' hm'

/-- It fails on every heap. -/
theorem run {c : Prog β α} (hc : Fails 0 c) (h : Heap β) : ∃ e, c.run h = .error e :=
  hc h _ h.holds_zero

end Fails

end Heap
