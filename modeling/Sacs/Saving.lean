import Sacs.Delivery
import Sacs.Faults

/-!
# Saving a list of updates

The updates of a list are saved one after the other. The ids of the properties are
arbitrary: those of no property are meant to be left out (`Instance.SavesUpdates`). The
bounds check compares the id to the number of properties as an `int`, from one side only
(`savesUpdates_iff`):

* a negative id passes it, and the access after it throws, which ends the loop with the
  updates before saved;
* of `2 ^ 31` properties or more, some do not pass it.
-/

namespace Sacs

open ModuleManager

/-- The updates are saved: the last one of every property that is not read only, and
    nothing else. -/
def Instance.SavesUpdates (s : Instance) (id : Int32) (m : Module) (ps : Updates) : Prop :=
  ∃ s' m', savePropertiesList s false id ps = .ok s' ∧ s'.modules.find? id = some m' ∧
    m.Saved m' ∧ (∀ k, m'.properties[k]? = (m.properties[k]?).map (Module.written ps k)) ∧
    ∀ id', id' ≠ id → s'.modules.find? id' = s.modules.find? id'

/-- The updates change no property that the bounds check rejects. -/
def Module.Skips (m : Module) (ps : Updates) : Prop :=
  ∀ k p, m.properties[k]? = some p → ¬m.Reaches k → Module.written ps k p = p

/-- Of fewer than `2 ^ 31` properties, the bounds check rejects none. -/
theorem Module.skips_of_lt {m : Module} (h : m.properties.length < 2 ^ 31) (ps : Updates) :
    m.Skips ps := by
  intro k p hp hk
  have hlt : k < m.properties.length := (List.getElem?_eq_some_iff.1 hp).1
  refine absurd ?_ hk
  rw [Module.Reaches, Int32.toInt_ofInt_of_le (by omega) (by omega)]
  omega

/-- What is saved is what was to be written, unless the bounds check has rejected it. -/
theorem Module.save_written_iff {m m' : Module} {ps : Updates} (h : m.save ps = .ok m') :
    (∀ k, m'.properties[k]? = (m.properties[k]?).map (Module.written ps k)) ↔ m.Skips ps := by
  refine ⟨fun hwritten k p hp hk => ?_, fun hskips k => ?_⟩
  · have hk' := hwritten k
    rw [(Module.save_getElem?_cases h k).2 hk, hp, Option.map_some, Option.some.injEq] at hk'
    exact hk'.symm
  · by_cases hk : m.Reaches k
    · exact (Module.save_getElem?_cases h k).1 hk
    · rw [(Module.save_getElem?_cases h k).2 hk]
      cases hp : m.properties[k]? with
      | none => rfl
      | some p => rw [Option.map_some, hskips k p hp hk]

/-- A list of updates is saved if and only if no id is negative, but for those beyond the
    number of properties as an `int`, and no property beyond it is to be changed. -/
theorem savesUpdates_iff {s : Instance} {id : Int32} {m : Module}
    (hm : s.modules.find? id = some m) (ps : Updates) :
    s.SavesUpdates id m ps ↔
      (∀ u ∈ ps, Module.Bears m.properties.length u.1) ∧ m.Skips ps := by
  rw [← Module.exists_save_iff]
  constructor
  · rintro ⟨s', m', hs', hm', -, hwritten, -⟩
    obtain ⟨hnone, -⟩ | ⟨m₀, m₁, hm₀, hm₁, rfl⟩ := savePropertiesList_cases hs'
    · cases hm.symm.trans hnone
    · cases hm.symm.trans hm₀
      rw [Instance.saved, OrdMap.find?_modify, if_pos rfl, hm, Option.map_some,
        Option.some.injEq] at hm'
      subst hm'
      exact ⟨⟨m₁, hm₁⟩, (Module.save_written_iff hm₁).1 hwritten⟩
  · rintro ⟨⟨m', hm'⟩, hskips⟩
    refine ⟨s.saved id ps m', m', savePropertiesList_of_save hm hm', ?_, Module.save_saved hm',
      (Module.save_written_iff hm').2 hskips, fun id' hid' => ?_⟩
    · rw [Instance.saved, OrdMap.find?_modify, if_pos rfl, hm, Option.map_some]
    · rw [Instance.saved, OrdMap.find?_modify, if_neg hid']

/-- A module with one property, that an application updates twice and by an id too many. -/
theorem savesUpdates_iff_repeated : ∃ s m,
    Instance.Runs [.registerModule [] [⟨3, [], [97], false⟩] none, .task] s ∧
    s.modules.find? 0 = some m ∧ s.SavesUpdates 0 m [(0, [98]), (1, [99]), (0, [100])] := by
  obtain ⟨s, h, hs⟩ := Instance.exists_runs
    [.registerModule [] [⟨3, [], [97], false⟩] none, .task]
    (fun s => s.modules.find? 0) (some ⟨0, [], [⟨3, [], [97], false⟩], none⟩) (by decide +kernel)
  refine ⟨s, _, h, hs, (savesUpdates_iff hs _).2 ⟨?_, Module.skips_of_lt (by decide) _⟩⟩
  simp [Module.Bears]

def Fault.of? {α : Type} : Except Fault α → Option Fault
  | .error e => some e
  | .ok _ => none

theorem Fault.eq_error {α : Type} {x : Except Fault α} {e : Fault} (h : Fault.of? x = some e) :
    x = .error e := by
  cases x with
  | error e' => exact congrArg Except.error (Option.some.inj h)
  | ok a => cases h

/-- The id `-1`, which the ids missing in a message are read as, ends the instance. -/
theorem not_savesUpdates_of_negative : ∃ s m,
    Instance.Runs [.registerModule [] [⟨3, [], [97], false⟩] none, .task,
      .updateProperties 0 [(0, [98]), (-1, [99])]] s ∧
    s.modules.find? 0 = some m ∧ ¬s.SavesUpdates 0 m [(0, [98]), (-1, [99])] ∧
    s.step .task = .error .outOfRange := by
  obtain ⟨s, h, hs⟩ := Instance.exists_runs
    [.registerModule [] [⟨3, [], [97], false⟩] none, .task,
      .updateProperties 0 [(0, [98]), (-1, [99])]]
    (fun s => (s.modules.find? 0, Fault.of? (s.step .task)))
    (some ⟨0, [], [⟨3, [], [97], false⟩], none⟩, some .outOfRange) (by decide +kernel)
  rw [Prod.mk.injEq] at hs
  obtain ⟨hm, hstep⟩ := hs
  refine ⟨s, _, h, hm, fun hsaves => ?_, Fault.eq_error hstep⟩
  obtain ⟨s', m', hs', -⟩ := hsaves
  -- The second update throws.
  obtain ⟨hnone, -⟩ | ⟨m₀, m₁, hm₀, hm₁, -⟩ := savePropertiesList_cases hs'
  · cases hm.symm.trans hnone
  · cases hm.symm.trans hm₀
    have hbears := Module.exists_save_iff.1 ⟨m₁, hm₁⟩ (-1, [99]) (by simp)
    exact absurd hbears (by simp [Module.Bears])

end Sacs
