import Sacs.Rendering

/-!
# Displayed values

The host and the page process the same list of updates, each in its way: saving skips an
id that is the index of no property, while the page calls the object at this index, which
throws, and the rest of the list is lost. The page also has its inputs, which keep no
line breaks, or other ones.

* What a list of updates does to a view, property by property (`setValues_getElem?`).
* The page displays the values that the host stores if and only if the last value of the
  list for every property is what the input makes of the last one before the first such
  id (`displays_iff`).
-/

namespace Sacs

open JsonMsg ModuleManager

variable {S : Script}

/-! ## Lists of updates -/

namespace Module

/-- The values the updates have for the property `k`, in order. -/
def valuesOf (ps : Updates) (k : Nat) : List Str :=
  ps.filterMap fun p => if p.1.toInt = (k : Int) then some p.2 else none

theorem lastWrite_eq (ps : Updates) (k : Nat) : lastWrite ps k = (valuesOf ps k).getLast? := rfl

theorem valuesOf_cons (u : Int32 × Str) (ps : Updates) (k : Nat) :
    valuesOf (u :: ps) k = (if u.1.toInt = (k : Int) then [u.2] else []) ++ valuesOf ps k := by
  rw [valuesOf, List.filterMap_cons]
  split_ifs <;> rfl

theorem valuesOf_append (ps qs : Updates) (k : Nat) :
    valuesOf (ps ++ qs) k = valuesOf ps k ++ valuesOf qs k := List.filterMap_append

/-- The updates before the first one with an id that is no index of `n` properties. -/
def valid (n : Nat) (ps : Updates) : Updates :=
  ps.takeWhile fun u => 0 ≤ u.1.toInt ∧ u.1.toInt < n

end Module

open Sacs.Module (lastWrite lastWrite_eq overwrite_eq valid valuesOf valuesOf_cons written)

namespace PropertyView

/-- Its value is not the code of a script. -/
def IsPlain (v : PropertyView S) : Prop := ∀ obj, v.input ≠ .script obj

theorem IsPlain.setValue {v : PropertyView S} (hv : v.IsPlain) (value : Str) :
    ∃ v', v.setValue value = some v' ∧ v'.IsPlain := by
  rw [PropertyView.setValue]
  cases hinput : v.input with
  | button => exact ⟨v, rfl, hv⟩
  | script obj => exact absurd hinput (hv obj)
  | checkbox => exact ⟨_, rfl, fun _ => by simp⟩
  | text => exact ⟨_, rfl, fun _ => by simp⟩
  | textArea => exact ⟨_, rfl, fun _ => by simp⟩

end PropertyView

namespace ModuleView

/-- The updates of a list, up to one that throws. -/
def setValues (view : ModuleView S) : Updates → ModuleView S
  | [] => view
  | u :: us =>
    match view.setPoropertyValue u.1 u.2 with
    | none => view
    | some view' => view'.setValues us

/-- An index sets a value, other ids throw. -/
theorem setPoropertyValue_cases {view : ModuleView S} (hview : ∀ v ∈ view.properties, v.IsPlain)
    (id : Int32) (value : Str) :
    (∃ v v' : PropertyView S, 0 ≤ id.toInt ∧ view.properties[id.toInt.toNat]? = some v ∧
      v.setValue value = some v' ∧ v'.IsPlain ∧ view.setPoropertyValue id value =
        some { view with properties := view.properties.set id.toInt.toNat v' }) ∨
    (¬(0 ≤ id.toInt ∧ id.toInt < view.properties.length) ∧
      view.setPoropertyValue id value = none) := by
  have hle : (0 : Int32) ≤ id ↔ 0 ≤ id.toInt := Int32.le_iff_toInt_le
  by_cases hid : 0 ≤ id.toInt ∧ id.toInt < view.properties.length
  · have hlt : id.toInt.toNat < view.properties.length := by omega
    have hget := List.getElem?_eq_getElem hlt
    obtain ⟨v', hv', hplain⟩ := (hview _ (List.getElem_mem hlt)).setValue value
    refine .inl ⟨_, v', hid.1, hget, hv', hplain, ?_⟩
    rw [setPoropertyValue, if_pos (hle.2 hid.1), hget]
    simp only [hv', Option.map_some]
  · refine .inr ⟨hid, ?_⟩
    rw [setPoropertyValue]
    split_ifs with h
    · have hnone : view.properties[id.toInt.toNat]? = none := by
        rw [List.getElem?_eq_none_iff]
        have := hle.1 h
        omega
      rw [hnone]
    · rfl

/-- What updates do to the inputs of a view: each is given the values there are for it
    before the first id that is no index. -/
theorem setValues_getElem? {view : ModuleView S} (hview : ∀ v ∈ view.properties, v.IsPlain)
    (ps : Updates) (k : Nat) :
    (view.setValues ps).properties[k]? = (view.properties[k]?).bind fun v =>
      (valuesOf (valid view.properties.length ps) k).foldlM PropertyView.setValue v := by
  induction ps generalizing view with
  | nil => cases h : view.properties[k]? <;> simp [setValues, valid, valuesOf, h]
  | cons u ps ih =>
    rcases setPoropertyValue_cases hview u.1 u.2 with
      ⟨v, v', hle, hget, hv', hplain, hset⟩ | ⟨hid, hset⟩
    · obtain ⟨hlt, rfl⟩ := List.getElem?_eq_some_iff.1 hget
      have hvalid : valid view.properties.length (u :: ps) =
          u :: valid view.properties.length ps :=
        List.takeWhile_cons_of_pos (by simp; omega)
      have hview' : ∀ w ∈ view.properties.set u.1.toInt.toNat v', w.IsPlain := fun w hw =>
        (List.mem_or_eq_of_mem_set hw).elim (hview w) fun he => he ▸ hplain
      have hih := @ih { view with properties := view.properties.set u.1.toInt.toNat v' } hview'
      simp only [List.length_set] at hih
      rw [setValues, hset, hvalid, valuesOf_cons]
      refine hih.trans ?_
      rw [List.getElem?_set]
      by_cases hk : u.1.toInt = (k : Int)
      · have hk' : u.1.toInt.toNat = k := by omega
        subst hk'
        rw [if_pos rfl, if_pos hlt, if_pos hk, hget, Option.bind_some, Option.bind_some,
          List.singleton_append, List.foldlM_cons, hv']
        rfl
      · have hk' : u.1.toInt.toNat ≠ k := by omega
        rw [if_neg hk', if_neg hk, List.nil_append]
    · have hvalid : valid view.properties.length (u :: ps) = [] :=
        List.takeWhile_cons_of_neg (by simpa using hid)
      rw [setValues, hset, hvalid]
      cases view.properties[k]? <;> rfl

theorem length_setValues (view : ModuleView S) (ps : Updates) :
    (view.setValues ps).properties.length = view.properties.length := by
  induction ps generalizing view with
  | nil => rfl
  | cons u ps ih =>
    rw [setValues]
    cases h : view.setPoropertyValue u.1 u.2 with
    | none => rfl
    | some view' => exact (ih view').trans (edited_of_setPoropertyValue h).properties.length_eq.symm

end ModuleView

namespace Page

variable {page : Page S}

/-- The handler of an update does this to the object with the id, and no more. -/
theorem setModulePoperties_page {id : Int32} {module : Nat} {view : ModuleView S}
    (hmodule : page.modules.find? id = some module) (hview : page.objects[module]? = some view)
    (ps : Updates) :
    (page.setModulePoperties id ps).page =
      { page with objects := page.objects.set module (view.setValues ps) } := by
  rw [setModulePoperties, hmodule]
  clear hmodule
  dsimp only
  induction ps generalizing page view with
  | nil =>
    obtain ⟨hlt, rfl⟩ := List.getElem?_eq_some_iff.1 hview
    rw [ModuleView.setValues, List.set_getElem_self]
    rfl
  | cons u ps ih =>
    rw [List.foldlM_cons, setPropertyValue, hview, Option.bind_some, ModuleView.setValues]
    cases hset : view.setPoropertyValue u.1 u.2 with
    | none =>
      obtain ⟨hlt, rfl⟩ := List.getElem?_eq_some_iff.1 hview
      dsimp only
      rw [List.set_getElem_self]
      rfl
    | some view' =>
      obtain ⟨hlt, -⟩ := List.getElem?_eq_some_iff.1 hview
      have hview' : (page.objects.set module view')[module]? = some view' :=
        List.getElem?_set_self hlt
      refine (@ih { page with objects := page.objects.set module view' } view' hview').trans ?_
      dsimp only
      rw [List.set_set]

end Page

/-! ## Texts -/

def PropertyType.isText : PropertyType → Bool
  | text | textBt | textRo | textArea | textAreaBt | textAreaRo => true
  | _ => false

/-- What the input of a text makes of a value. -/
def PropertyType.rendition : PropertyType → Str → Str
  | textArea, value | textAreaBt, value | textAreaRo, value => normalizeNewlines value
  | _, value => stripNewlines value

/-- The input of a text, with this contents. -/
def Input.ofText : PropertyType → Str → Input S
  | .textArea, value | .textAreaBt, value | .textAreaRo, value => .textArea value
  | _, value => .text value

theorem Input.ofText_inj {type : PropertyType} {value value' : Str} :
    (Input.ofText type value : Input S) = .ofText type value' ↔ value = value' := by
  cases type <;> simp [ofText]

theorem Input.ofText_ne_script (type : PropertyType) (value : Str) (obj : S.Obj) :
    (Input.ofText type value : Input S) ≠ .script obj := by
  cases type <;> simp [ofText]

/-- The object displays the value of the property. -/
structure PropertyView.Displays (p : Property) (v : PropertyView S) : Prop where
  type : PropertyType.fromId p.type = some v.type
  input : v.input = .ofText v.type p.value

/-- The view displays the values of the module. -/
structure ModuleView.Displays (m : Module) (view : ModuleView S) : Prop where
  length : view.properties.length = m.properties.length
  property : ∀ {k : Nat} {p : Property} {v : PropertyView S}, m.properties[k]? = some p →
    view.properties[k]? = some v → v.Displays p

namespace PropertyView

theorem setValue_ofText {v : PropertyView S} {old : Str} (hv : v.input = .ofText v.type old)
    (value : Str) :
    v.setValue value = some { v with input := .ofText v.type (v.type.rendition value) } := by
  obtain ⟨id, type, label, input⟩ := v
  replace hv : input = .ofText type old := hv
  subst hv
  cases type <;> rfl

/-- The last of the values is displayed. -/
theorem foldlM_setValue {v : PropertyView S} {old : Str} (hv : v.input = .ofText v.type old)
    (values : List Str) :
    values.foldlM setValue v = some { v with
      input := .ofText v.type ((values.getLast?.map v.type.rendition).getD old) } := by
  induction values using List.reverseRecOn with
  | nil =>
    rw [List.foldlM_nil, List.getLast?_nil, Option.map_none, Option.getD_none, ← hv]
    rfl
  | append_singleton values value ih =>
    have hlast := @setValue_ofText S { v with
      input := .ofText v.type ((values.getLast?.map v.type.rendition).getD old) } _ rfl value
    rw [List.foldlM_append, ih, List.getLast?_append_cons, List.getLast?_singleton]
    simp only [Option.bind_eq_bind, Option.bind_some, List.foldlM_cons, List.foldlM_nil]
    rw [hlast]
    rfl

end PropertyView

/-- The value of the property `k` displayed after the updates: what the input makes of the
    last one before the first id that is no index. -/
def Module.displayed (m : Module) (ps : Updates) (k : Nat) (p : Property) : Str :=
  ((lastWrite (valid m.properties.length ps) k).map fun value =>
    ((PropertyType.fromId p.type).map fun type => type.rendition value).getD value).getD p.value

/-- For every property that the updates write, the value displayed is the last one, which
    the host stores. (It stores none if there are so many properties that the bounds check
    does not let the id through.) -/
def Module.Alike (m : Module) (ps : Updates) : Prop :=
  ∀ k p value, m.properties[k]? = some p → lastWrite ps k = some value →
    m.displayed ps k p = if (k : Int) < (Int32.ofInt m.properties.length).toInt then value
      else p.value

theorem lastWrite_valid_eq_none {n : Nat} {ps : Updates} {k : Nat} (h : lastWrite ps k = none) :
    lastWrite (valid n ps) k = none := by
  rw [lastWrite_eq, List.getLast?_eq_none_iff] at h ⊢
  have hsub : (valuesOf (valid n ps) k).Sublist (valuesOf ps k) :=
    (List.takeWhile_sublist _).filterMap _
  rw [h] at hsub
  exact List.sublist_nil.1 hsub

/-- The host saves the updates of a registered module with texts, and a page that displays
    the values of the module processes them. It displays the values stored again if and
    only if the last value for every property written is what the input makes of the last
    one before the first id that is no index. -/
theorem displays_iff {s : Instance} {id : Int32} {m : Module} (hm : s.modules.find? id = some m)
    (htext : ∀ p ∈ m.properties, p.readOnly = false ∧
      (PropertyType.fromId p.type).any PropertyType.isText = true)
    {page : Page S} {module : Nat} {view : ModuleView S}
    (hmodule : page.modules.find? id = some module) (hview : page.objects[module]? = some view)
    (hdisplays : view.Displays m) {ps : Updates} (hps : ∀ u ∈ ps, 0 ≤ u.1.toInt) :
    ∃ s' m' view', savePropertiesList s false id ps = .ok s' ∧ s'.modules.find? id = some m' ∧
      (page.setModulePoperties id ps).page.objects[module]? = some view' ∧
      (view'.Displays m' ↔ m.Alike ps) := by
  obtain ⟨m', hm'⟩ := Module.exists_save (m := m) hps
  have hsaved := Module.save_saved hm'
  obtain ⟨hlt, -⟩ := List.getElem?_eq_some_iff.1 hview
  refine ⟨_, m', view.setValues ps, savePropertiesList_of_save hm hm', ?_, ?_, ?_⟩
  · rw [Instance.saved, OrdMap.find?_modify, if_pos rfl, hm]
    rfl
  · rw [Page.setModulePoperties_page hmodule hview]
    exact List.getElem?_set_self hlt
  have hplain : ∀ v ∈ view.properties, v.IsPlain := by
    intro v hv
    obtain ⟨k, hk⟩ := List.mem_iff_getElem?.1 hv
    obtain ⟨hlt, rfl⟩ := List.getElem?_eq_some_iff.1 hk
    have hp := List.getElem?_eq_getElem (hdisplays.length ▸ hlt)
    intro obj
    rw [(hdisplays.property hp hk).input]
    exact Input.ofText_ne_script _ _ obj
  -- What is displayed, and what is stored, for each property.
  have hdisplayed : ∀ {k : Nat} {p : Property} {v : PropertyView S}, m.properties[k]? = some p →
      view.properties[k]? = some v → (view.setValues ps).properties[k]? =
        some { v with input := .ofText v.type (m.displayed ps k p) } := by
    intro k p v hp hv
    have hshows := hdisplays.property hp hv
    rw [ModuleView.setValues_getElem? hplain, hv, Option.bind_some,
      PropertyView.foldlM_setValue hshows.input, Module.displayed, lastWrite_eq, hshows.type,
      hdisplays.length]
    rfl
  have hstored : ∀ {k : Nat} {p : Property}, m.properties[k]? = some p →
      m'.properties[k]? = some { p with value :=
        if (k : Int) < (Int32.ofInt m.properties.length).toInt then (lastWrite ps k).getD p.value
        else p.value } := by
    intro k p hp
    have hro := (htext p (List.mem_of_getElem? hp)).1
    split_ifs with hk
    · rw [(Module.save_getElem?_cases hm' k).1 hk, hp, Option.map_some, written, hro,
        overwrite_eq]
      rfl
    · rw [(Module.save_getElem?_cases hm' k).2 hk, hp]
  have hlen : (view.setValues ps).properties.length = m'.properties.length := by
    rw [ModuleView.length_setValues, hdisplays.length, hsaved.length_eq]
  constructor
  · intro h k p value hp hvalue
    obtain ⟨hk, -⟩ := List.getElem?_eq_some_iff.1 hp
    have hv := List.getElem?_eq_getElem (hdisplays.length.symm ▸ hk)
    have hinput := (h.property (hstored hp) (hdisplayed hp hv)).input
    rw [hvalue] at hinput
    exact Input.ofText_inj.1 hinput
  · intro halike
    refine ⟨hlen, fun {k p' v'} hp' hv' => ?_⟩
    obtain ⟨hk, -⟩ := List.getElem?_eq_some_iff.1 hp'
    have hp := List.getElem?_eq_getElem (hsaved.length_eq ▸ hk)
    have hv := List.getElem?_eq_getElem (hdisplays.length.symm ▸ hsaved.length_eq ▸ hk)
    cases hp'.symm.trans (hstored hp)
    cases hv'.symm.trans (hdisplayed hp hv)
    refine ⟨(hdisplays.property hp hv).type, Input.ofText_inj.2 ?_⟩
    cases hlast : lastWrite ps k with
    | some value => exact halike k _ value hp hlast
    | none =>
      -- It is not written: it stays as it was.
      rw [Module.displayed, lastWrite_valid_eq_none hlast]
      simp

/-- A module with a text, and its view. -/
def heater : Module := ⟨0, Str.lit "Heater", [⟨3, Str.lit "Level", Str.lit "low", false⟩], none⟩

def heaterView : ModuleView plain where
  id := 0
  name := Str.lit "Heater"
  properties := [⟨0, .text, Str.lit "Level", .text (Str.lit "low")⟩]
  applyButton := true

theorem displays_heaterView : heaterView.Displays heater := by
  refine ⟨rfl, fun {k p v} hp hv => ?_⟩
  cases k with
  | zero =>
    cases hp
    cases hv
    exact ⟨rfl, rfl⟩
  | succ k => cases hp

/-- The host has registered the module, and a page renders it. -/
theorem exists_heater : ∃ s msg,
    Instance.Runs [.registerModule heater.name heater.properties none, .task] s ∧
    s.modules.find? 0 = some heater ∧ s.Describes msg ∧
    ((({} : Page plain).onMessage msg).modules.find? 0 = some 0 ∧
      (({} : Page plain).onMessage msg).objects[0]? = some heaterView) := by
  obtain ⟨s, h, hm⟩ := Instance.exists_runs
    [.registerModule heater.name heater.properties none, .task] (fun s => s.modules.find? 0)
    (some heater) (by decide +kernel)
  obtain ⟨msg, hmsg⟩ := (exists_createModuleAdded (m := heater)).2 ⟨by decide, by decide⟩
  refine ⟨s, msg, h, hm, .inl ⟨0, heater, hm, hmsg⟩, ?_⟩
  rw [Page.onMessage_eq, Page.msgOf_createModuleAdded hmsg]
  exact ⟨rfl, rfl⟩

/-- The id that is no index comes last. -/
theorem displays_iff_heater : ∃ (s : Instance) (page : Page plain), ∃ s' m' view',
    savePropertiesList s false 0 [(0, Str.lit "high"), (7, Str.lit "x")] = .ok s' ∧
      s'.modules.find? 0 = some m' ∧
      (page.setModulePoperties 0 [(0, Str.lit "high"), (7, Str.lit "x")]).page.objects[0]? =
        some view' ∧
      (view'.Displays m' ↔ heater.Alike [(0, Str.lit "high"), (7, Str.lit "x")]) := by
  obtain ⟨s, msg, -, hm, -, hmodule, hview⟩ := exists_heater
  exact ⟨s, _, displays_iff hm (by decide) hmodule hview displays_heaterView (by decide)⟩

/-- It comes first: the page throws, and still displays the value before. -/
theorem not_displays_of_heater : ∃ s msg s' view',
    Instance.Runs [.registerModule heater.name heater.properties none, .task] s ∧
    s.Describes msg ∧
    savePropertiesList s false 0 [(7, Str.lit "x"), (0, Str.lit "high")] = .ok s' ∧
    s'.modules.find? 0 =
      some ⟨0, Str.lit "Heater", [⟨3, Str.lit "Level", Str.lit "high", false⟩], none⟩ ∧
    ((({} : Page plain).onMessage msg).setModulePoperties 0
      [(7, Str.lit "x"), (0, Str.lit "high")]).page.objects[0]? = some view' ∧
    ¬view'.Displays ⟨0, Str.lit "Heater", [⟨3, Str.lit "Level", Str.lit "high", false⟩], none⟩ := by
  obtain ⟨s, msg, h, hm, hdescribes, hmodule, hview⟩ := exists_heater
  refine ⟨s, msg, _, heaterView, h, hdescribes, savePropertiesList_of_save hm rfl, ?_, ?_,
    fun hdisplays => ?_⟩
  · rw [Instance.saved, OrdMap.find?_modify, if_pos rfl, hm]
    rfl
  · rw [Page.setModulePoperties_page hmodule hview]
    obtain ⟨hlt, -⟩ := List.getElem?_eq_some_iff.1 hview
    exact List.getElem?_set_self hlt
  · have hinput := (@ModuleView.Displays.property _ _ _ hdisplays 0 _ _ rfl rfl).input
    have hvalue : Str.lit "low" = Str.lit "high" := Input.text.inj hinput
    exact absurd hvalue (by decide)

end Sacs
