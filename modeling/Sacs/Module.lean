import Sacs.Basic
import Mathlib.Data.List.Induction

/-!
# Modules

A module is a named list of properties, identified by an id once registered,
with a callback told about the changes made in the web interface. A property
has a type (how the web interface shows it), a name and a value, which
`Property.setValue` changes unless the property is read only.

The *shape* of a module (`Module.shape`) is what never changes: its name, and
the types, names and `read_only` flags of its properties.
-/

namespace Sacs

/-- A module callback, a function pointer of the application. -/
abbrev Callback := Nat

/-- The updates of property values: property id and value. -/
abbrev Updates := List (Int32 × Str)

structure Property where
  type : Int32
  name : Str
  value : Str
  readOnly : Bool
  deriving DecidableEq

/-- A module; the callback is null for the image of a module of another
    instance. -/
structure Module where
  id : Int32
  name : Str
  properties : List Property
  callback : Option Callback
  deriving DecidableEq

/-- What a module has in common with its images and keeps forever: its name,
    and the type, name and `read_only` flag of its properties. -/
abbrev Shape := Str × List (Int32 × Str × Bool)

namespace Property

def setValue (p : Property) (value : Str) : Property :=
  if !p.readOnly then { p with value := value } else p

@[simp] theorem setValue_type (p : Property) (v : Str) : (p.setValue v).type = p.type := by
  rw [setValue]; split_ifs <;> rfl

@[simp] theorem setValue_name (p : Property) (v : Str) : (p.setValue v).name = p.name := by
  rw [setValue]; split_ifs <;> rfl

@[simp] theorem setValue_readOnly (p : Property) (v : Str) :
    (p.setValue v).readOnly = p.readOnly := by
  rw [setValue]; split_ifs <;> rfl

end Property

namespace Module

def setId (m : Module) (id : Int32) : Module := { m with id := id }

/-- The bounds check compares `int`s, and lets negative ids through to the
    `at()`, which throws. -/
def setPropertyValue (m : Module) (propertyId : Int32) (value : Str) : Except Fault Module :=
  if propertyId < Int32.ofInt m.properties.length then
    if 0 ≤ propertyId.toInt ∧ propertyId.toInt < m.properties.length then
      .ok { m with properties := m.properties.modify propertyId.toInt.toNat (·.setValue value) }
    else .error .outOfRange
  else .ok m

/-- The loop of `SavePropertiesList` over the updates of a module. -/
def save (m : Module) (properties : Updates) : Except Fault Module :=
  properties.foldlM (fun m p => m.setPropertyValue p.1 p.2) m

def shape (m : Module) : Shape :=
  (m.name, m.properties.map fun p => (p.type, p.name, p.readOnly))

/-- All strings of the module are valid UTF-8: it can be announced. -/
structure IsUtf8 (m : Module) : Prop where
  name : m.name.isUtf8 = true
  properties : ∀ p ∈ m.properties, p.name.isUtf8 = true ∧ p.value.isUtf8 = true

/-! ### What saving changes -/

/-- Saving changes values of properties only. -/
structure Saved (m m' : Module) : Prop where
  id : m'.id = m.id
  callback : m'.callback = m.callback
  shape : m'.shape = m.shape

theorem Saved.refl (m : Module) : Saved m m := ⟨rfl, rfl, rfl⟩

theorem Saved.trans {m m' m'' : Module} (h : Saved m m') (h' : Saved m' m'') : Saved m m'' :=
  ⟨h'.id.trans h.id, h'.callback.trans h.callback, h'.shape.trans h.shape⟩

theorem setPropertyValue_saved {m m' : Module} {i : Int32} {v : Str}
    (h : m.setPropertyValue i v = .ok m') : Saved m m' := by
  rw [setPropertyValue] at h
  split_ifs at h
  · cases h
    refine ⟨rfl, rfl, ?_⟩
    simp only [shape, Prod.mk.injEq, true_and]
    refine List.ext_getElem (by simp) fun n h₁ h₂ => ?_
    simp only [List.getElem_map, List.getElem_modify]
    split_ifs <;> simp
  · cases h
    exact .refl m

theorem save_saved {m m' : Module} {ps : Updates} (h : m.save ps = .ok m') : Saved m m' := by
  induction ps generalizing m with
  | nil => cases h; exact .refl _
  | cons p ps ih =>
    rw [save, List.foldlM_cons] at h
    cases hp : m.setPropertyValue p.1 p.2 with
    | error e => rw [hp] at h; cases h
    | ok m₁ =>
      rw [hp] at h
      exact (setPropertyValue_saved hp).trans (ih h)

theorem Saved.length_eq {m m' : Module} (h : Saved m m') :
    m'.properties.length = m.properties.length := by
  simpa [Module.shape] using congrArg (fun s : Shape => s.2.length) h.shape

/-- The properties of modules of the same shape correspond. -/
theorem exists_property_of_shape {m m' : Module} (h : m'.shape = m.shape) {k : Nat}
    {p' : Property} (hp' : m'.properties[k]? = some p') :
    ∃ p, m.properties[k]? = some p ∧ p.readOnly = p'.readOnly := by
  have hk := congrArg (fun s : Shape => (s.2[k]?).map (·.2.2)) h
  simp only [shape, List.getElem?_map, hp', Option.map_some] at hk
  cases hp : m.properties[k]? with
  | none => rw [hp] at hk; cases hk
  | some p =>
    rw [hp] at hk
    exact ⟨p, rfl, (Option.some.inj hk).symm⟩

/-- Whether saving updates throws depends on the number of properties only. -/
theorem exists_save_congr {m n : Module} (h : n.properties.length = m.properties.length)
    {ps : Updates} (hm : ∃ m', m.save ps = .ok m') : ∃ n', n.save ps = .ok n' := by
  induction ps generalizing m n with
  | nil => exact ⟨n, rfl⟩
  | cons p ps ih =>
    obtain ⟨m', hm⟩ := hm
    rw [save, List.foldlM_cons] at hm
    cases hp : m.setPropertyValue p.1 p.2 with
    | error e => rw [hp] at hm; cases hm
    | ok m₁ =>
      rw [hp] at hm
      have hp' : ∃ n₁, n.setPropertyValue p.1 p.2 = .ok n₁ := by
        rw [setPropertyValue] at hp ⊢
        rw [h]
        split_ifs at hp ⊢ <;> exact ⟨_, rfl⟩
      obtain ⟨n₁, hn₁⟩ := hp'
      have hlen : n₁.properties.length = m₁.properties.length := by
        rw [(setPropertyValue_saved hn₁).length_eq, (setPropertyValue_saved hp).length_eq, h]
      obtain ⟨n', hn'⟩ := ih hlen ⟨m', hm⟩
      refine ⟨n', ?_⟩
      rw [save, List.foldlM_cons, hn₁]
      exact hn'

/-- The ids are indices of properties, whose number is compared to them as an
    `int`. -/
def InRange (ps : Updates) (n : Nat) : Prop := ∀ p ∈ ps, 0 ≤ p.1 ∧ p.1 < Int32.ofInt n

/-- Saving updates with non-negative ids never throws. -/
theorem exists_save {m : Module} {ps : Updates} (h : ∀ p ∈ ps, 0 ≤ p.1.toInt) :
    ∃ m', m.save ps = .ok m' := by
  induction ps generalizing m with
  | nil => exact ⟨m, rfl⟩
  | cons p ps ih =>
    have hp : ∃ m₁, m.setPropertyValue p.1 p.2 = .ok m₁ := by
      rw [setPropertyValue]
      split_ifs with h₁ h₂
      · exact ⟨_, rfl⟩
      · -- The size, as an `int`, is at most the size.
        rw [Int32.lt_iff_toInt_lt] at h₁
        exact absurd ⟨h p List.mem_cons_self, Int.lt_of_lt_of_le h₁ (toInt_ofInt_le _)⟩ h₂
      · exact ⟨_, rfl⟩
    obtain ⟨m₁, hm₁⟩ := hp
    obtain ⟨m', hm'⟩ := ih (m := m₁) fun q hq => h q (List.mem_cons_of_mem _ hq)
    refine ⟨m', ?_⟩
    rw [save, List.foldlM_cons, hm₁]
    exact hm'

/-! ### What saving stores -/

/-- The value of the property `k`, `v` before, after the updates. -/
def overwrite (ps : Updates) (k : Nat) (v : Str) : Str :=
  ps.foldl (fun v p => if p.1.toInt = (k : Int) then p.2 else v) v

/-- The last value of the property `k` in the updates. -/
def lastWrite (ps : Updates) (k : Nat) : Option Str :=
  (ps.filterMap fun p => if p.1.toInt = (k : Int) then some p.2 else none).getLast?

@[simp] theorem overwrite_nil (k : Nat) (v : Str) : overwrite [] k v = v := rfl

theorem overwrite_append (ps qs : Updates) (k : Nat) (v : Str) :
    overwrite (ps ++ qs) k v = overwrite qs k (overwrite ps k v) :=
  List.foldl_append

theorem lastWrite_append (ps qs : Updates) (k : Nat) :
    lastWrite (ps ++ qs) k = (lastWrite qs k).or (lastWrite ps k) := by
  rw [lastWrite, List.filterMap_append, List.getLast?_append]
  rfl

theorem overwrite_eq (ps : Updates) (k : Nat) (v : Str) :
    overwrite ps k v = (lastWrite ps k).getD v := by
  induction ps using List.reverseRecOn with
  | nil => rfl
  | append_singleton ps p ih =>
    rw [overwrite_append, ih, lastWrite_append, overwrite, List.foldl_cons, List.foldl_nil]
    by_cases hp : p.1.toInt = (k : Int)
    · have : lastWrite [p] k = some p.2 := by simp [lastWrite, hp]
      rw [if_pos hp, this]
      rfl
    · have : lastWrite [p] k = none := by simp [lastWrite, hp]
      rw [if_neg hp, this, Option.none_or]

/-- Updates `b` moved ahead of others, `a`, have the same effect if the last of the
    other updates is the last one with them as well. -/
theorem overwrite_move {a b c : Updates} {k : Nat}
    (h : lastWrite (a ++ c) k = none ∨ lastWrite (a ++ c) k = lastWrite (a ++ b ++ c) k) (v : Str) :
    overwrite (b ++ (a ++ c)) k v = overwrite (a ++ b ++ c) k v := by
  rw [overwrite_eq, overwrite_eq, lastWrite_append b]
  rcases h with h | h
  · have := h
    rw [lastWrite_append, Option.or_eq_none_iff] at this
    rw [h, lastWrite_append, lastWrite_append, this.1, this.2, Option.or_none]
  · rw [h]
    cases hlast : lastWrite (a ++ b ++ c) k with
    | some w => rfl
    | none =>
      simp only [lastWrite_append, Option.or_eq_none_iff] at hlast
      rw [hlast.2.1]
      rfl

/-- What saving one update does to a property that is not read only. -/
theorem setPropertyValue_value {m m' : Module} {i : Int32} {v : Str}
    (h : m.setPropertyValue i v = .ok m')
    (hi : 0 ≤ i ∧ i < Int32.ofInt m.properties.length) {k : Nat} {p : Property}
    (hp : m.properties[k]? = some p) (hro : p.readOnly = false) :
    m'.properties[k]? = some { p with value := if i.toInt = k then v else p.value } := by
  rw [setPropertyValue, if_pos hi.2] at h
  split_ifs at h with hlt
  cases h
  simp only [List.getElem?_modify, hp, Option.map_eq_map, Option.map_some]
  by_cases hk : i.toInt = k
  · rw [if_pos (by omega), if_pos hk, Property.setValue, hro]
    rfl
  · rw [if_neg (by omega), if_neg hk]

/-- What saving updates does to a property that is not read only. -/
theorem save_value {m m' : Module} {ps : Updates} (h : m.save ps = .ok m')
    (hps : InRange ps m.properties.length) {k : Nat} {p : Property}
    (hp : m.properties[k]? = some p) (hro : p.readOnly = false) :
    m'.properties[k]? = some { p with value := overwrite ps k p.value } := by
  induction ps generalizing m p with
  | nil => cases h; exact hp
  | cons u ps ih =>
    rw [save, List.foldlM_cons] at h
    cases hu : m.setPropertyValue u.1 u.2 with
    | error e => rw [hu] at h; cases h
    | ok m₁ =>
      rw [hu] at h
      have hlen := (setPropertyValue_saved hu).length_eq
      exact ih h (fun q hq => hlen ▸ hps q (List.mem_cons_of_mem _ hq))
        (setPropertyValue_value hu (hps u List.mem_cons_self) hp hro) hro

end Module

end Sacs
