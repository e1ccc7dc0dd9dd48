import Sacs.Effects

/-!
# Values of properties

What a registered module looks like, after any run: it has the shape it was
registered with, its read only properties keep their values, and every other
property has the value last saved, by whichever way (`lastWriter_of_runs`).

`Instance.registration?` and `Instance.writes` read the history: the module as
it was registered, and the updates saved for it since, one after the other.
-/

namespace Sacs

open JsonMsg ModuleManager

/-! ## Saving, property by property -/

namespace Module

/-- The bounds check lets the id `k` through: the number of properties is compared to it
    as an `int`. -/
def Reaches (m : Module) (k : Nat) : Prop := (k : Int) < (Int32.ofInt m.properties.length).toInt

/-- What saving one update does to a property: a property that is read only is left
    alone, and so are all if the id is beyond the last one. -/
theorem setPropertyValue_getElem? {m m' : Module} {i : Int32} {v : Str}
    (h : m.setPropertyValue i v = .ok m') (k : Nat) :
    (m.Reaches k → m'.properties[k]? = (m.properties[k]?).map fun p =>
      if i.toInt = (k : Int) then p.setValue v else p) ∧
    (¬m.Reaches k → m'.properties[k]? = m.properties[k]?) := by
  rw [setPropertyValue] at h
  split_ifs at h with hlt hrange
  · cases h
    rw [Int32.lt_iff_toInt_lt] at hlt
    have hk : i.toInt = (k : Int) ↔ i.toInt.toNat = k := by omega
    rw [List.getElem?_modify]
    refine ⟨fun _ => ?_, fun hk' => ?_⟩
    · cases hp : m.properties[k]? with
      | none => rfl
      | some p =>
        simp only [Option.map_eq_map, Option.map_some, hk]
    · have hne : i.toInt.toNat ≠ k := fun he => hk' (by rw [Reaches]; omega)
      simp only [if_neg hne]
      exact Option.map_id'
  · cases h
    refine ⟨fun hk => ?_, fun _ => rfl⟩
    rw [Int32.lt_iff_toInt_lt, not_lt] at hlt
    have hne : i.toInt ≠ (k : Int) := fun he => absurd (lt_of_lt_of_le hk hlt) (by omega)
    simp only [if_neg hne]
    exact Option.map_id'.symm

/-- The property `k`, with the updates written to it. -/
def written (ps : Updates) (k : Nat) (p : Property) : Property :=
  if p.readOnly = true then p else { p with value := overwrite ps k p.value }

@[simp] theorem written_nil (k : Nat) (p : Property) : written [] k p = p := by
  simp [written]

theorem written_append (ps qs : Updates) (k : Nat) (p : Property) :
    written (ps ++ qs) k p = written qs k (written ps k p) := by
  simp only [written, overwrite_append]
  split_ifs <;> simp_all

theorem written_singleton (i : Int32) (v : Str) (k : Nat) (p : Property) :
    written [(i, v)] k p = if i.toInt = (k : Int) then p.setValue v else p := by
  obtain ⟨type, name, value, readOnly⟩ := p
  simp only [written, Property.setValue, overwrite, List.foldl_cons, List.foldl_nil]
  cases readOnly <;> split_ifs <;> simp_all

/-- Updates of other properties do not change this one. -/
theorem written_eq_self {ps : Updates} {k : Nat} (h : ∀ u ∈ ps, u.1.toInt ≠ (k : Int))
    (p : Property) : written ps k p = p := by
  have hlast : lastWrite ps k = none := by
    rw [lastWrite, List.getLast?_eq_none_iff, List.filterMap_eq_nil_iff]
    exact fun u hu => if_neg (h u hu)
  rw [written, overwrite_eq, hlast]
  split_ifs <;> rfl

/-- What saving updates does to a property. -/
theorem save_getElem?_cases {m m' : Module} {ps : Updates} (h : m.save ps = .ok m') (k : Nat) :
    (m.Reaches k → m'.properties[k]? = (m.properties[k]?).map (written ps k)) ∧
    (¬m.Reaches k → m'.properties[k]? = m.properties[k]?) := by
  induction ps generalizing m with
  | nil =>
    cases h
    rw [funext (written_nil k), Option.map_id']
    exact ⟨fun _ => rfl, fun _ => rfl⟩
  | cons u ps ih =>
    rw [save, List.foldlM_cons] at h
    obtain ⟨m₁, hu, h⟩ := bind_eq_ok.1 h
    have hreach : m₁.Reaches k ↔ m.Reaches k := by
      rw [Reaches, Reaches, (setPropertyValue_saved hu).length_eq]
    have hone := setPropertyValue_getElem? hu k
    refine ⟨fun hk => ?_, fun hk => ?_⟩
    · rw [(ih h).1 (hreach.2 hk), hone.1 hk, Option.map_map]
      congr 1
      funext p
      rw [Function.comp_apply, ← written_singleton, ← written_append, List.singleton_append]
    · rw [(ih h).2 fun hk' => hk (hreach.1 hk'), hone.2 hk]

theorem save_getElem? {m m' : Module} {ps : Updates} (h : m.save ps = .ok m')
    (hlen : m.properties.length < 2 ^ 31) (k : Nat) :
    m'.properties[k]? = (m.properties[k]?).map (written ps k) := by
  by_cases hk : m.Reaches k
  · exact (save_getElem?_cases h k).1 hk
  · have hsize : (Int32.ofInt m.properties.length).toInt = m.properties.length :=
      Int32.toInt_ofInt_of_le (by omega) (by omega)
    have hnone : m.properties[k]? = none := List.getElem?_eq_none (by
      rw [Reaches, hsize] at hk
      omega)
    rw [(save_getElem?_cases h k).2 hk, hnone, Option.map_none]

theorem InRange.toInt {ps : Updates} {n : Nat} (h : InRange ps n) :
    ∀ u ∈ ps, 0 ≤ u.1.toInt ∧ u.1.toInt < (Int32.ofInt n).toInt ∧ u.1.toInt < n := by
  intro u hu
  have h0 := Int32.le_iff_toInt_le.1 (h u hu).1
  have hlt := Int32.lt_iff_toInt_lt.1 (h u hu).2
  exact ⟨h0, hlt, lt_of_lt_of_le hlt (toInt_ofInt_le n)⟩

/-- Saving updates with ids in range writes all of them. -/
theorem save_of_inRange {m m' : Module} {ps : Updates} (h : m.save ps = .ok m')
    (hps : InRange ps m.properties.length) (k : Nat) :
    m'.properties[k]? = (m.properties[k]?).map (written ps k) := by
  by_cases hk : m.Reaches k
  · exact (save_getElem?_cases h k).1 hk
  · have hwritten : ∀ p, written ps k p = p := written_eq_self fun u hu he => by
      rw [Reaches] at hk
      have := hps.toInt u hu
      omega
    rw [(save_getElem?_cases h k).2 hk, funext hwritten, Option.map_id']

/-- The module `m` is `m₀`, registered before, with the updates `ps` saved since. -/
structure Keeps (m₀ m : Module) (ps : Updates) : Prop where
  saved : m₀.Saved m
  value : m₀.properties.length < 2 ^ 31 →
    ∀ k, m.properties[k]? = (m₀.properties[k]?).map (written ps k)

theorem Keeps.refl (m : Module) : Keeps m m [] := by
  refine ⟨.refl m, fun _ k => ?_⟩
  rw [funext (written_nil k), Option.map_id']

theorem Keeps.save {m₀ m m' : Module} {ps qs : Updates} (h : Keeps m₀ m ps)
    (hm' : m.save qs = .ok m') : Keeps m₀ m' (ps ++ qs) := by
  refine ⟨h.saved.trans (save_saved hm'), fun hlen k => ?_⟩
  rw [save_getElem? hm' (h.saved.length_eq ▸ hlen), h.value hlen, Option.map_map]
  congr 1
  funext p
  rw [Function.comp_apply, written_append]

end Module

/-! ## The history of a module -/

def Event.registration? (id : Int32) : Event → Option Module
  | .registered id' _ m => if id' = id then some m else none
  | _ => none

def Event.written (id : Int32) : Event → Sacs.Updates
  | .saved id' ps => if id' = id then ps else []
  | _ => []

/-- The module, as it was registered. -/
def Instance.registration? (s : Instance) (id : Int32) : Option Module :=
  s.record.findSome? (Event.registration? id)

/-- The updates saved for the module, one after the other. -/
def Instance.writes (s : Instance) (id : Int32) : Sacs.Updates :=
  s.record.flatMap (Event.written id)

theorem registration?_of_record {s s' : Instance} {es : List Event}
    (h : s'.record = s.record ++ es) (id : Int32) :
    s'.registration? id = (s.registration? id).or (es.findSome? (Event.registration? id)) := by
  rw [Instance.registration?, h, List.findSome?_append]
  rfl

/-- What is registered stays in the history. -/
theorem Transition.registration?_eq {s s' : Instance} {a : Action} (h : Transition s a s')
    {id : Int32} {m : Module} (hm : s.registration? id = some m) :
    s'.registration? id = some m := by
  obtain ⟨es, hes⟩ := h.exists_record
  rw [registration?_of_record hes, hm, Option.some_or]

theorem writes_of_record {s s' : Instance} {es : List Event} (h : s'.record = s.record ++ es)
    (id : Int32) : s'.writes id = s.writes id ++ es.flatMap (Event.written id) := by
  rw [Instance.writes, h, List.flatMap_append]
  rfl

/-- The registered modules are those of the history, with the updates it has. -/
structure Instance.Kept (s : Instance) : Prop where
  fresh : s.Fresh
  /-- Nothing has happened to a module not registered yet. -/
  unused : ∀ id, s.idCounter ≤ id → s.registration? id = none ∧ s.writes id = []
  kept : ∀ {id m}, s.modules.find? id = some m →
    ∃ m₀, s.registration? id = some m₀ ∧ m₀.Keeps m (s.writes id)

namespace Instance.Kept

variable {s s' : Instance} (hs : s.Kept)

include hs

/-- The history of the other modules is unchanged. -/
theorem congr {e : Event} (id : Int32) (hf : s'.Fresh) (hrecord : s'.record = s.record ++ [e])
    (he : ∀ id', id' ≠ id → e.registration? id' = none ∧ e.written id' = [])
    (hcounter : s'.idCounter ≤ id → s'.registration? id = none ∧ s'.writes id = [])
    (hle : s.idCounter ≤ s'.idCounter)
    (hother : ∀ id', id' ≠ id → s'.modules.find? id' = s.modules.find? id')
    (hself : ∀ m, s'.modules.find? id = some m →
      ∃ m₀, s'.registration? id = some m₀ ∧ m₀.Keeps m (s'.writes id)) : s'.Kept := by
  have hsame : ∀ id', id' ≠ id → s'.registration? id' = s.registration? id' ∧
      s'.writes id' = s.writes id' := fun id' hid' => by
    rw [registration?_of_record hrecord, writes_of_record hrecord]
    simp [he id' hid']
  refine ⟨hf, fun id' hid' => ?_, fun {id' m} hm => ?_⟩
  · by_cases h : id' = id
    · subst h
      exact hcounter hid'
    · rw [(hsame id' h).1, (hsame id' h).2]
      exact hs.unused id' (hle.trans hid')
  · by_cases h : id' = id
    · subst h
      exact hself m hm
    · rw [hother id' h] at hm
      rw [(hsame id' h).1, (hsame id' h).2]
      exact hs.kept hm

theorem step {a : Action} (h : Transition s a s') : s'.Kept := by
  have hf := h.registry.fresh hs.fresh
  cases h.edits with
  | keep hmodules hcounter hrecord =>
    refine ⟨hf, fun id hid => ?_, fun {id m} hm => ?_⟩
    · rw [Instance.registration?, Instance.writes, hrecord]
      exact hs.unused id (hcounter ▸ hid)
    · rw [Instance.registration?, Instance.writes, hrecord]
      exact hs.kept (hmodules ▸ hm)
  | @add m promise q _ _ hmax hmodules hcounter hrecord =>
    obtain ⟨hnone, hnil⟩ := hs.unused s.idCounter le_rfl
    have hreg : s'.registration? s.idCounter = some (m.setId s.idCounter) := by
      rw [registration?_of_record hrecord, hnone]
      simp [Event.registration?]
    have hwrites : s'.writes s.idCounter = [] := by
      rw [writes_of_record hrecord, hnil]
      rfl
    refine hs.congr s.idCounter hf hrecord (fun id hid => ?_) (fun hle => ?_) ?_
      (fun id hid => ?_) fun m' hm' => ?_
    · simp [Event.registration?, Event.written, Ne.symm hid]
    · rw [hcounter] at hle
      exact absurd (lt_add_one hmax) (not_lt.2 hle)
    · rw [hcounter]
      exact (lt_add_one hmax).le
    · rw [hmodules, OrdMap.find?_insert, if_neg hid]
    · rw [hmodules, hs.fresh.find?_insert, if_pos rfl] at hm'
      cases hm'
      exact ⟨_, hreg, by rw [hwrites]; exact .refl _⟩
  | @remove id _ hmodules hcounter hrecord =>
    have hsame : s'.registration? id = s.registration? id ∧ s'.writes id = s.writes id := by
      rw [registration?_of_record hrecord, writes_of_record hrecord]
      simp [Event.registration?, Event.written]
    refine hs.congr id hf hrecord (fun id' _ => ⟨rfl, rfl⟩) (fun hle => ?_) hcounter.ge
      (fun id' hid' => ?_) fun m hm => ?_
    · rw [hsame.1, hsame.2]
      exact hs.unused id (hcounter ▸ hle)
    · rw [hmodules, OrdMap.find?_erase, if_neg hid']
    · rw [hmodules, OrdMap.find?_erase, if_pos rfl] at hm
      cases hm
  | @save id ps m m' _ hm hm' hmodules hcounter hrecord =>
    have hreg : s'.registration? id = s.registration? id := by
      rw [registration?_of_record hrecord]
      simp [Event.registration?]
    have hwrites : s'.writes id = s.writes id ++ ps := by
      rw [writes_of_record hrecord]
      simp [Event.written]
    refine hs.congr id hf hrecord (fun id' hid' => ?_) (fun hle => ?_) hcounter.ge
      (fun id' hid' => ?_) fun m₁ hm₁ => ?_
    · simp [Event.registration?, Event.written, Ne.symm hid']
    · exact absurd (hs.fresh.key hm).2.2 (not_lt.2 (hcounter ▸ hle))
    · rw [hmodules, OrdMap.find?_modify, if_neg hid']
    · rw [hmodules, OrdMap.find?_modify, if_pos rfl, hm, Option.map_some, Option.some.injEq] at hm₁
      subst hm₁
      obtain ⟨m₀, hm₀, hkeeps⟩ := hs.kept hm
      exact ⟨m₀, hreg.trans hm₀, by rw [hwrites]; exact hkeeps.save hm'⟩

end Instance.Kept

/-- The step registers this module with this id: it is that of the task, but for the id. -/
def Instance.Registers (s : Instance) (a : Action) (id : Int32) (m : Module) : Prop :=
  a = .task ∧ id = s.idCounter ∧
    ∃ m₀ promise q, Takes s (.doRegisterModule m₀ promise) q ∧ m = { m₀ with id }

/-- The registrations of the history are those made by the loop thread. -/
theorem Instance.Kept.registration?_iff {s s' : Instance} {a : Action} (hs : s.Kept)
    (h : Transition s a s') {id : Int32} {m : Module} :
    s'.registration? id = some m ↔ s.registration? id = some m ∨ s.Registers a id m := by
  constructor
  · intro hm
    -- What is not of a registration says nothing of one.
    have hkeep : ∀ {e : Event}, s'.record = s.record ++ [e] → e.registration? id = none →
        s.registration? id = some m := by
      intro e hrecord he
      rwa [registration?_of_record hrecord, List.findSome?_singleton, he, Option.or_none] at hm
    cases h.edits with
    | keep _ _ hrecord =>
      rw [Instance.registration?, hrecord] at hm
      exact .inl hm
    | @add m₀ promise q ha ht _ _ _ hrecord =>
      by_cases hid : s.idCounter = id
      · subst hid
        rw [registration?_of_record hrecord, (hs.unused _ le_rfl).1] at hm
        simp only [List.findSome?_singleton, Event.registration?, if_true, Option.none_or,
          Option.some.injEq] at hm
        exact .inr ⟨ha, rfl, m₀, promise, q, ht, hm.symm⟩
      · exact .inl (hkeep hrecord (if_neg hid))
    | remove _ _ _ hrecord => exact .inl (hkeep hrecord rfl)
    | save _ _ _ _ _ hrecord => exact .inl (hkeep hrecord rfl)
  · rintro (hm | ⟨rfl, rfl, m₀, promise, q, ht, rfl⟩)
    · exact h.registration?_eq hm
    · cases h with
      | @taskRegister _ _ _ _ s₁ ht' _ _ h =>
        cases (ht.inj ht').1
        have hrecord : (ModuleManager.fulfil s₁ promise s.idCounter).record =
            s.record ++ [.registered s.idCounter promise (m₀.setId s.idCounter)] := by
          rw [record_fulfil, (handleMessage_emits h).record]
          exact record_edit rfl rfl
        rw [registration?_of_record hrecord, (hs.unused _ le_rfl).1, Option.none_or]
        simp [Event.registration?, Module.setId]
      | _ => exact Task.noConfusion (ht.inj ‹_›).1

theorem kept_of_runs {as : List Action} {s : Instance} (h : Instance.Runs as s) : s.Kept :=
  h.invariant ⟨⟨le_rfl, fun hm => by simp at hm⟩, fun _ _ => ⟨rfl, rfl⟩, fun hm => by simp at hm⟩
    fun _ _ _ hs hst => hs.step (transition_of_step hst)

/-- The module `m` is `m₀` with the updates `ps` saved, as far as the bounds check lets
    them through. -/
def Module.Becomes (m₀ m : Module) (ps : Updates) : Prop :=
  ∀ k, (m₀.Reaches k → m.properties[k]? = (m₀.properties[k]?).map (Module.written ps k)) ∧
    (¬m₀.Reaches k → m.properties[k]? = m₀.properties[k]?)

/-- The properties of the registered modules are those of the history, however many they
    are. -/
def Instance.Stored (s : Instance) : Prop :=
  ∀ {id m}, s.modules.find? id = some m →
    ∃ m₀, s.registration? id = some m₀ ∧ m₀.Becomes m (s.writes id)

theorem Module.Becomes.refl (m : Module) : m.Becomes m [] := by
  intro k
  rw [funext (Module.written_nil k), Option.map_id']
  exact ⟨fun _ => rfl, fun _ => rfl⟩

theorem Module.Becomes.save {m₀ m m' : Module} {ps qs : Updates} (h : m₀.Becomes m ps)
    (hlen : m.properties.length = m₀.properties.length) (hm' : m.save qs = .ok m') :
    m₀.Becomes m' (ps ++ qs) := by
  intro k
  have hreach : m.Reaches k ↔ m₀.Reaches k := by rw [Reaches, Reaches, hlen]
  have hsave := save_getElem?_cases hm' k
  refine ⟨fun hk => ?_, fun hk => ?_⟩
  · rw [hsave.1 (hreach.2 hk), (h k).1 hk, Option.map_map]
    congr 1
    funext p
    rw [Function.comp_apply, written_append]
  · rw [hsave.2 fun hk' => hk (hreach.1 hk'), (h k).2 hk]

/-- What has become of a property depends on the last update of it only. -/
theorem Module.Becomes.eq_of_lastWrite {m₀ m m₀' m' : Module} {ps ps' : Updates}
    (h : m₀.Becomes m ps) (h' : m₀'.Becomes m' ps') (hprops : m₀.properties = m₀'.properties)
    {k : Nat} {p : Property} (hp : m.properties[k]? = some p)
    (hk : p.readOnly = true ∨ lastWrite ps' k = lastWrite ps k) : m'.properties[k]? = some p := by
  have hreach : m₀'.Reaches k ↔ m₀.Reaches k := by rw [Reaches, Reaches, hprops]
  by_cases hr : m₀.Reaches k
  · rw [(h k).1 hr, Option.map_eq_some_iff] at hp
    obtain ⟨p₀, hp₀, rfl⟩ := hp
    rw [(h' k).1 (hreach.2 hr), ← hprops, hp₀, Option.map_some, Option.some.injEq]
    rw [written] at hk ⊢
    rw [written]
    split_ifs at hk ⊢ with hro
    · rfl
    · rw [overwrite_eq, overwrite_eq, hk.resolve_left hro]
  · rw [(h' k).2 (mt hreach.1 hr), ← hprops, ← (h k).2 hr, hp]

theorem Instance.Stored.step {s s' : Instance} {a : Action} (hs : s.Stored) (hkept : s.Kept)
    (h : Transition s a s') : s'.Stored := by
  -- What happens to another module changes neither this one nor its history.
  have hother : ∀ {e : Event} {id m}, s'.record = s.record ++ [e] →
      e.registration? id = none → e.written id = [] → s.modules.find? id = some m →
      ∃ m₀, s'.registration? id = some m₀ ∧ m₀.Becomes m (s'.writes id) := by
    intro e id m hrecord hreg hwritten hm
    obtain ⟨m₀, hm₀, hbecomes⟩ := hs hm
    refine ⟨m₀, ?_, ?_⟩
    · rw [registration?_of_record hrecord, hm₀]
      rfl
    · rwa [writes_of_record hrecord, List.flatMap_singleton, hwritten, List.append_nil]
  intro id m' hm'
  cases h.edits with
  | keep hmodules _ hrecord =>
    rw [Instance.registration?, Instance.writes, hrecord]
    exact hs (hmodules ▸ hm')
  | @add m promise q _ _ hmax hmodules _ hrecord =>
    rw [hmodules, hkept.fresh.find?_insert] at hm'
    split_ifs at hm' with hid
    · obtain ⟨hnone, hnil⟩ := hkept.unused s.idCounter le_rfl
      cases hm'
      subst hid
      refine ⟨m.setId s.idCounter, ?_, ?_⟩
      · rw [registration?_of_record hrecord, hnone]
        simp [Event.registration?]
      · rw [writes_of_record hrecord, hnil]
        exact .refl _
    · exact hother hrecord (if_neg (Ne.symm hid)) rfl hm'
  | remove _ hmodules _ hrecord =>
    rw [hmodules, OrdMap.find?_erase] at hm'
    split_ifs at hm'
    exact hother hrecord rfl rfl hm'
  | @save id' ps m m₁ _ hm hm₁ hmodules _ hrecord =>
    rw [hmodules, OrdMap.find?_modify] at hm'
    split_ifs at hm' with hid
    · subst hid
      rw [hm, Option.map_some, Option.some.injEq] at hm'
      subst hm'
      obtain ⟨m₀, hm₀, hbecomes⟩ := hs hm
      obtain ⟨m₀', hm₀', hkeeps⟩ := hkept.kept hm
      cases hm₀.symm.trans hm₀'
      refine ⟨m₀, ?_, ?_⟩
      · rw [registration?_of_record hrecord, hm₀]
        rfl
      · rw [writes_of_record hrecord, List.flatMap_singleton, Event.written, if_pos rfl]
        exact hbecomes.save hkeeps.saved.length_eq hm₁
    · exact hother hrecord rfl (if_neg (Ne.symm hid)) hm'

/-- Every registered module has the shape it was registered with. Its read only
    properties have their first values, the others the last value saved since, of the
    pairs with their id. Saving updates of a module is recorded, and changes no other
    module. What a module was registered with is what its task has, but for the id. -/
theorem lastWriter_of_runs {as : List Action} {s : Instance} (h : Instance.Runs as s) :
    (∀ id m, s.modules.find? id = some m → ∃ m₀, s.registration? id = some m₀ ∧
      m.shape = m₀.shape ∧ (m₀.properties.length < 2 ^ 31 →
        ∀ k p p₀, m.properties[k]? = some p → m₀.properties[k]? = some p₀ →
          p.value = if p₀.readOnly = true then p₀.value
            else (Module.lastWrite (s.writes id) k).getD p₀.value)) ∧
    (∀ a s' id ps, s.step a = .ok s' → s.Saves a id ps →
      ((s.modules.find? id).isSome → s'.writes id = s.writes id ++ ps) ∧
      ∀ id', id' ≠ id → s'.modules.find? id' = s.modules.find? id') ∧
    ∀ a s' id m₀, s.step a = .ok s' →
      (s'.registration? id = some m₀ ↔ s.registration? id = some m₀ ∨ s.Registers a id m₀) := by
  refine ⟨fun id m hm => ?_, fun a s' id ps hst hsaves => ?_,
    fun a s' id m₀ hst => (kept_of_runs h).registration?_iff (transition_of_step hst)⟩
  · obtain ⟨m₀, hm₀, hkeeps⟩ := (kept_of_runs h).kept hm
    refine ⟨m₀, hm₀, hkeeps.saved.shape, fun hlen k p p₀ hp hp₀ => ?_⟩
    rw [hkeeps.value hlen, hp₀, Option.map_some, Option.some.injEq] at hp
    rw [← hp, Module.written, ← Module.overwrite_eq]
    split_ifs <;> rfl
  · rcases (transition_of_step hst).saves hsaves with ⟨hm, hmodules, -⟩ |
      ⟨m, m', hm, -, hmodules, hrecord⟩
    · refine ⟨fun hsome => ?_, fun id' _ => by rw [hmodules]⟩
      rw [hm] at hsome
      cases hsome
    · refine ⟨fun _ => ?_, fun id' hid' => by rw [hmodules, OrdMap.find?_modify, if_neg hid']⟩
      rw [writes_of_record hrecord]
      simp [Event.written]

/-- An update beyond the last property, then two of the same property. -/
theorem lastWriter_of_runs_twice : ∃ s, Instance.Runs [
      .registerModule [] [⟨3, [], [97], false⟩] none, .task,
      .updateProperties 0 [(5, [98]), (0, [98])], .updateProperties 0 [(0, [99])], .task, .task] s ∧
    s.registration? 0 = some ⟨0, [], [⟨3, [], [97], false⟩], none⟩ ∧
    s.writes 0 = [(5, [98]), (0, [98]), (0, [99])] ∧
    ∀ m, s.modules.find? 0 = some m → m.shape = ([], [(3, [], false)]) ∧
      ∀ p, m.properties[0]? = some p → p.value = [99] := by
  obtain ⟨s, h, hs⟩ := Instance.exists_runs [
    .registerModule [] [⟨3, [], [97], false⟩] none, .task,
    .updateProperties 0 [(5, [98]), (0, [98])], .updateProperties 0 [(0, [99])], .task, .task]
    (fun s => (s.registration? 0, s.writes 0))
    (some ⟨0, [], [⟨3, [], [97], false⟩], none⟩, [(5, [98]), (0, [98]), (0, [99])])
    (by decide +kernel)
  obtain ⟨hreg, hwrites⟩ := Prod.mk.inj hs
  refine ⟨s, h, hreg, hwrites, fun m hm => ?_⟩
  obtain ⟨m₀, hm₀, hshape, hvalues⟩ := (lastWriter_of_runs h).1 0 m hm
  obtain rfl := Option.some.inj (hreg.symm.trans hm₀)
  refine ⟨hshape, fun p hp => ?_⟩
  rw [hvalues (by decide) 0 p _ hp rfl, hwrites]
  decide

end Sacs
