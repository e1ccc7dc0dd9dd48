import Sacs.WebApp

/-!
# The tabs of the page

The page shows a tab for each of its modules, if it is told of no module twice
(`Page.Neat`). Adding a module then appends its tab, and removing one takes its
tab away (`Neat.crateModule`, `Neat.deleteModule`); a module not known is
removed in vain: this throws, but does not change the tabs.
-/

namespace Sacs

namespace Page

variable {S : Script} {page page' : Page S}

/-- The ids of the modules that have a tab, in the order of the tabs. -/
def tabIds (page : Page S) : List Int32 :=
  page.tabs.filterMap fun module => page.objects[module]?.map (·.id)

/-- There is a tab for each module the page knows of, and one only. -/
structure Neat (page : Page S) : Prop where
  nodup : page.tabs.Nodup
  registered : ∀ {r}, r ∈ page.tabs →
    ∃ view, page.objects[r]? = some view ∧ page.modules.find? view.id = some r
  shown : ∀ {id r}, page.modules.find? id = some r →
    r ∈ page.tabs ∧ ∃ view, page.objects[r]? = some view ∧ view.id = id
  button : ∀ {r}, r ∈ page.tabs → (page.buttons.find? r).isSome
  current : ∀ {r}, page.currentModule = some r → r ∈ page.tabs

theorem neat_empty : Neat ({} : Page S) :=
  ⟨.nil, by simp, by simp, by simp, by simp⟩

theorem Neat.mem_tabIds (h : page.Neat) {id : Int32} :
    id ∈ page.tabIds ↔ (page.modules.find? id).isSome := by
  rw [tabIds, List.mem_filterMap, Option.isSome_iff_exists]
  constructor
  · rintro ⟨r, hr, hid⟩
    obtain ⟨view, hview, hmodule⟩ := h.registered hr
    rw [hview, Option.map_some, Option.some.injEq] at hid
    exact ⟨r, hid ▸ hmodule⟩
  · rintro ⟨r, hr⟩
    obtain ⟨hr, view, hview, hid⟩ := h.shown hr
    exact ⟨r, hr, by rw [hview, Option.map_some, hid]⟩

/-! ### What does not concern the tabs -/

/-- The tabs are the same, though one of them may be selected, and the modules. -/
structure SameTabs (page page' : Page S) : Prop where
  objects : ∀ r : Nat, page'.objects[r]?.map (·.id) = page.objects[r]?.map (·.id)
  modules : page'.modules = page.modules
  buttons : ∀ r, (page'.buttons.find? r).isSome = (page.buttons.find? r).isSome
  tabs : page'.tabs = page.tabs

theorem SameTabs.refl (page : Page S) : SameTabs page page :=
  ⟨fun _ => rfl, rfl, fun _ => rfl, rfl⟩

theorem SameTabs.trans {page'' : Page S} (h : SameTabs page page') (h' : SameTabs page' page'') :
    SameTabs page page'' :=
  ⟨fun r => (h'.objects r).trans (h.objects r), h'.modules.trans h.modules,
    fun r => (h'.buttons r).trans (h.buttons r), h'.tabs.trans h.tabs⟩

theorem SameTabs.tabIds (h : SameTabs page page') : page'.tabIds = page.tabIds := by
  rw [Page.tabIds, h.tabs]
  exact List.filterMap_congr fun r _ => h.objects r

theorem Neat.congr (hn : page.Neat) (h : SameTabs page page')
    (hcurrent : ∀ {r}, page'.currentModule = some r → r ∈ page.tabs) : page'.Neat := by
  have hview : ∀ {r : Nat} {view : ModuleView S}, page.objects[r]? = some view →
      ∃ view', page'.objects[r]? = some view' ∧ view'.id = view.id := by
    intro r view hr
    have := h.objects r
    rw [hr, Option.map_some] at this
    exact Option.map_eq_some_iff.1 this
  refine ⟨h.tabs ▸ hn.nodup, fun {r} hr => ?_, fun {id r} hr => ?_, fun {r} hr => ?_,
    fun hr => h.tabs ▸ hcurrent hr⟩
  · rw [h.tabs] at hr
    obtain ⟨view, hv, hmodule⟩ := hn.registered hr
    obtain ⟨view', hv', hid⟩ := hview hv
    exact ⟨view', hv', by rw [h.modules, hid]; exact hmodule⟩
  · rw [h.modules] at hr
    obtain ⟨hr, view, hv, hid⟩ := hn.shown hr
    obtain ⟨view', hv', hid'⟩ := hview hv
    exact ⟨h.tabs ▸ hr, view', hv', hid'.trans hid⟩
  · rw [h.tabs] at hr
    rw [h.buttons]
    exact hn.button hr

/-- The current module has a button, which can be selected. -/
theorem exists_setCurrentSelected (selected : Bool)
    (h : ∀ {r}, page.currentModule = some r → (page.buttons.find? r).isSome) :
    ∃ page', page.setCurrentSelected selected = .ok page' ∧ SameTabs page page' ∧
      page'.currentModule = page.currentModule := by
  rw [setCurrentSelected]
  cases hc : page.currentModule with
  | none => exact ⟨page, rfl, .refl page, hc⟩
  | some r =>
    obtain ⟨b, hb⟩ := Option.isSome_iff_exists.1 (h hc)
    dsimp only
    rw [hb]
    refine ⟨_, rfl, ⟨fun _ => rfl, rfl, fun r' => ?_, rfl⟩, rfl⟩
    rw [OrdMap.find?_modify]
    split_ifs with hr
    · rw [hr, hb]
      rfl
    · rfl

/-- Selecting a module that has a button. -/
theorem exists_selectModule {module : Nat}
    (h : ∀ {r}, page.currentModule = some r → (page.buttons.find? r).isSome)
    (hm : (page.buttons.find? module).isSome) :
    ∃ page', page.selectModule module = .ok page' ∧ SameTabs page page' ∧
      page'.currentModule = some module := by
  obtain ⟨page₁, h₁, hs₁, -⟩ := exists_setCurrentSelected false h
  have hm₁ : (page₁.buttons.find? module).isSome := by rwa [hs₁.buttons]
  obtain ⟨page₂, h₂, hs₂, hc₂⟩ := @exists_setCurrentSelected _
    { page₁ with currentModule := some module, content := some module } true
    fun hr => Option.some.inj hr ▸ hm₁
  refine ⟨page₂, by rw [selectModule, h₁]; exact h₂, ?_, hc₂⟩
  exact hs₁.trans ⟨hs₂.objects, hs₂.modules, hs₂.buttons, hs₂.tabs⟩

/-- A tab is clicked. -/
theorem Neat.selectModule (hn : page.Neat) {module : Nat} (hm : module ∈ page.tabs) :
    ∃ page', page.selectModule module = .ok page' ∧ page'.Neat ∧ page'.tabIds = page.tabIds := by
  obtain ⟨page', h, hs, hc⟩ := exists_selectModule (fun hr => hn.button (hn.current hr))
    (hn.button hm)
  refine ⟨page', h, hn.congr hs fun hr => ?_, hs.tabIds⟩
  rw [hc, Option.some.injEq] at hr
  exact hr ▸ hm

/-! ### Adding a module -/

/-- The scripts of the module do not throw. -/
def Renders (S : Script) (m : Module) : Prop :=
  ∀ p ∈ m.properties, PropertyType.fromId p.type = some .script → (S.construct p.value).isSome

theorem exists_addProperty (view : ModuleView S) {p : Property}
    (h : PropertyType.fromId p.type = some .script → (S.construct p.value).isSome) :
    ∃ view', view.addProperty p = some view' ∧ view'.id = view.id := by
  rw [ModuleView.addProperty]
  cases ht : PropertyType.fromId p.type with
  | none => exact ⟨view, rfl, rfl⟩
  | some type =>
    have hinput : ∃ input, PropertyView.create S type p.value = some input := by
      cases type with
      | script =>
        obtain ⟨obj, hobj⟩ := Option.isSome_iff_exists.1 (h ht)
        exact ⟨.script obj, by rw [PropertyView.create, hobj]; rfl⟩
      | _ => exact ⟨_, rfl⟩
    obtain ⟨input, hinput⟩ := hinput
    dsimp only
    rw [hinput]
    exact ⟨_, rfl, rfl⟩

theorem exists_view {m : Module} (h : Renders S m) (view : ModuleView S) :
    ∃ view', m.properties.foldlM ModuleView.addProperty view = some view' ∧ view'.id = view.id := by
  rw [Renders] at h
  generalize m.properties = ps at h
  induction ps generalizing view with
  | nil => exact ⟨view, rfl, rfl⟩
  | cons p ps ih =>
    obtain ⟨view₁, h₁, hid₁⟩ := exists_addProperty view (h p List.mem_cons_self)
    obtain ⟨view₂, h₂, hid₂⟩ := ih view₁ fun q hq => h q (List.mem_cons_of_mem _ hq)
    exact ⟨view₂, by rw [List.foldlM_cons, h₁]; exact h₂, hid₂.trans hid₁⟩

/-- A module not known yet gets the last tab, if it is made. -/
theorem Neat.crateModule_of_view (hn : page.Neat) {m : Module} {view : ModuleView S}
    (hview : m.properties.foldlM ModuleView.addProperty { id := m.id, name := m.name } = some view)
    (hvid : view.id = m.id) (hid : m.id ∉ page.tabIds) :
    ∃ page', page.crateModule m = .ok page' ∧ page'.Neat ∧
      page'.tabIds = page.tabIds ++ [m.id] := by
  have hlt : ∀ {r}, r ∈ page.tabs → r < page.objects.length := fun hr => by
    obtain ⟨_, hv, -⟩ := hn.registered hr
    exact (List.getElem?_eq_some_iff.1 hv).1
  have hnone : page.modules.find? m.id = none := by
    rwa [hn.mem_tabIds, Bool.not_eq_true, Option.isSome_eq_false_iff, Option.isNone_iff_eq_none]
      at hid
  generalize hpage₁ : ({ page with
    objects := page.objects ++ [view.maybeAddApplyButton]
    modules := page.modules.set m.id page.objects.length
    buttons := page.buttons.set page.objects.length {}
    tabs := page.tabs ++ [page.objects.length] } : Page S) = page₁
  have hold : ∀ {r}, r ∈ page.tabs → page₁.objects[r]? = page.objects[r]? := fun hr => by
    rw [← hpage₁]
    exact List.getElem?_append_left (hlt hr)
  have hnew : page₁.objects[page.objects.length]? = some view.maybeAddApplyButton := by
    rw [← hpage₁]
    exact List.getElem?_concat_length
  have htabs : page₁.tabs = page.tabs ++ [page.objects.length] := by rw [← hpage₁]
  have hmodules : page₁.modules = page.modules.set m.id page.objects.length := by rw [← hpage₁]
  have hbuttons : page₁.buttons = page.buttons.set page.objects.length {} := by rw [← hpage₁]
  have hcurrent : page₁.currentModule = page.currentModule := by rw [← hpage₁]
  have hn₁ : page₁.Neat := by
    refine ⟨?_, fun {r} hr => ?_, fun {id r} hr => ?_, fun {r} hr => ?_, fun {r} hr => ?_⟩
    · rw [htabs]
      exact hn.nodup.append (List.nodup_singleton _)
        (List.disjoint_singleton.2 fun hr => (hlt hr).false)
    · rw [htabs, List.mem_append, List.mem_singleton] at hr
      rcases hr with hr | rfl
      · obtain ⟨v, hv, hmodule⟩ := hn.registered hr
        refine ⟨v, (hold hr).trans hv, ?_⟩
        rw [hmodules, OrdMap.find?_set, if_neg fun h => ?_, hmodule]
        rw [h, hnone] at hmodule
        cases hmodule
      · refine ⟨_, hnew, ?_⟩
        rw [hmodules, OrdMap.find?_set]
        exact if_pos hvid
    · rw [hmodules, OrdMap.find?_set] at hr
      rw [htabs]
      split_ifs at hr with h
      · cases hr
        exact ⟨List.mem_append_right _ (List.mem_singleton_self _), _, hnew, hvid.trans h.symm⟩
      · obtain ⟨hr, v, hv, hvid⟩ := hn.shown hr
        exact ⟨List.mem_append_left _ hr, v, (hold hr).trans hv, hvid⟩
    · rw [hbuttons, OrdMap.find?_set]
      rw [htabs, List.mem_append, List.mem_singleton] at hr
      split_ifs with h
      · rfl
      · exact hn.button (hr.resolve_right h)
    · rw [htabs]
      exact List.mem_append_left _ (hn.current (hcurrent ▸ hr))
  have hids : page₁.tabIds = page.tabIds ++ [m.id] := by
    rw [tabIds, htabs, List.filterMap_append]
    congr 1
    · exact List.filterMap_congr fun r hr => by rw [hold hr]
    · rw [List.filterMap_cons, hnew]
      exact congrArg (· :: []) hvid
  have hadd : page.crateModule m = if page.currentModule = none
      then page₁.selectModule page.objects.length else .ok page₁ := by
    rw [Page.crateModule, hview, ← hpage₁]
    rfl
  split_ifs at hadd with hc
  · obtain ⟨page', h, hs, hc'⟩ := @exists_selectModule _ page₁ page.objects.length
      (fun hr => by rw [hcurrent, hc] at hr; cases hr)
      (hn₁.button (htabs ▸ List.mem_append_right _ (List.mem_singleton_self _)))
    refine ⟨page', hadd.trans h, hn₁.congr hs fun hr => ?_, hs.tabIds.trans hids⟩
    rw [hc', Option.some.injEq] at hr
    rw [htabs, ← hr]
    exact List.mem_append_right _ (List.mem_singleton_self _)
  · exact ⟨page₁, hadd, hn₁, hids⟩

theorem Neat.crateModule (hn : page.Neat) {m : Module} (hm : Renders S m)
    (hid : m.id ∉ page.tabIds) :
    ∃ page', page.crateModule m = .ok page' ∧ page'.Neat ∧
      page'.tabIds = page.tabIds ++ [m.id] := by
  obtain ⟨view, hview, hvid⟩ := exists_view hm { id := m.id, name := m.name }
  exact hn.crateModule_of_view hview hvid hid

/-- The module known by an id loses its tab. -/
theorem Neat.deleteModule (hn : page.Neat) (id : Int32) :
    ∃ page', (page.deleteModule id = .ok page' ∨ page.deleteModule id = .error page') ∧
      page'.Neat ∧ page'.tabIds = page.tabIds.filter (· ≠ id) := by
  cases hr : page.modules.find? id with
  | none =>
    have hid : id ∉ page.tabIds := by rw [hn.mem_tabIds, hr]; exact Bool.false_ne_true
    have hfilter : page.tabIds.filter (· ≠ id) = page.tabIds :=
      List.filter_eq_self.2 fun j hj => decide_eq_true fun h : j = id => hid (h ▸ hj)
    rw [hfilter, Page.deleteModule, hr, onModuleRemoved]
    split_ifs with hc
    · exact ⟨_, .inr rfl, hn.congr ⟨fun _ => rfl, rfl, fun _ => rfl, rfl⟩ (by simp), rfl⟩
    · exact ⟨page, .inr rfl, hn, rfl⟩
  | some r =>
    obtain ⟨hmem, view, hview, rfl⟩ := hn.shown hr
    obtain ⟨b, hb⟩ := Option.isSome_iff_exists.1 (hn.button hmem)
    -- The module is known by its id, so no other tab shows this id.
    have huniq : ∀ {r' v}, r' ∈ page.tabs → page.objects[r']? = some v →
        (v.id = view.id ↔ r' = r) := by
      intro r' v hr' hv
      obtain ⟨v', hv', hmodule⟩ := hn.registered hr'
      cases hv.symm.trans hv'
      refine ⟨fun h => ?_, fun h => ?_⟩
      · rw [h, hr, Option.some.injEq] at hmodule
        exact hmodule.symm
      · subst h
        cases hv.symm.trans hview
        rfl
    -- The module shown is taken from the content first, which leaves the tabs alone.
    generalize hpage₀ : (if some r = page.currentModule then
      { page with content := none, currentModule := none } else page) = page₀
    have h₀ : page₀.objects = page.objects ∧ page₀.modules = page.modules ∧
        page₀.buttons = page.buttons ∧ page₀.tabs = page.tabs ∧
        ∀ r', page₀.currentModule = some r' → r' ≠ r ∧ page.currentModule = some r' := by
      rw [← hpage₀]
      split_ifs with hc
      · exact ⟨rfl, rfl, rfl, rfl, fun r' h => by cases h⟩
      · exact ⟨rfl, rfl, rfl, rfl, fun r' h => ⟨fun e => hc (by rw [h, e]), h⟩⟩
    obtain ⟨hobjects, hmodules, hbuttons, htabs, hcurrent⟩ := h₀
    refine ⟨{ page₀ with tabs := page.tabs.erase r, modules := page.modules.erase view.id },
      .inl ?_, ⟨hn.nodup.erase r, fun {r'} hr' => ?_, fun {id r'} hr' => ?_, fun {r'} hr' => ?_,
      fun {r'} hr' => ?_⟩, ?_⟩
    · rw [Page.deleteModule, hr, onModuleRemoved, hpage₀]
      simp only [hbuttons, hb, htabs, hmem, if_true, JsonMsg.bind_ok, Option.bind_some, hobjects,
        hview, hmodules]
    · obtain ⟨hne, hr'⟩ := hn.nodup.mem_erase_iff.1 hr'
      obtain ⟨v, hv, hmodule⟩ := hn.registered hr'
      refine ⟨v, by rw [← hv, ← hobjects], ?_⟩
      rw [OrdMap.find?_erase, if_neg fun h => hne ((huniq hr' hv).1 h), hmodule]
    · rw [OrdMap.find?_erase] at hr'
      split_ifs at hr' with h
      obtain ⟨hmem', v, hv, rfl⟩ := hn.shown hr'
      refine ⟨hn.nodup.mem_erase_iff.2 ⟨fun e => h ((huniq hmem' hv).2 e), hmem'⟩, v, ?_, rfl⟩
      rw [← hv, ← hobjects]
    · rw [hbuttons]
      exact hn.button (List.mem_of_mem_erase hr')
    · obtain ⟨hne, hc⟩ := hcurrent r' hr'
      exact hn.nodup.mem_erase_iff.2 ⟨hne, hn.current hc⟩
    · rw [tabIds, tabIds, hobjects, hn.nodup.erase_eq_filter, List.filterMap_filter,
        List.filter_filterMap]
      refine List.filterMap_congr fun r' hr' => ?_
      obtain ⟨v, hv, -⟩ := hn.registered hr'
      rw [hv, Option.map_some, Option.filter_some]
      by_cases h : r' = r
      · simp [h, (huniq hr' hv).2 h]
      · have hne : v.id ≠ view.id := fun e => h ((huniq hr' hv).1 e)
        simp [h, hne]

/-! ### Messages -/

/-- Updates change neither the tabs nor the modules, also when they throw. -/
theorem foldlM_setPropertyValue (module : Nat) (ps : Updates) (page : Page S) :
    ∃ page', (ps.foldlM (setPropertyValue module) page = .ok page' ∨
      ps.foldlM (setPropertyValue module) page = .error page') ∧ SameTabs page page' ∧
      page'.currentModule = page.currentModule := by
  induction ps generalizing page with
  | nil => exact ⟨page, .inl rfl, .refl page, rfl⟩
  | cons p ps ih =>
    rw [List.foldlM_cons]
    cases hview : page.objects[module]?.bind (·.setPoropertyValue p.1 p.2) with
    | none =>
      have h₁ : setPropertyValue module page p = .error page := by rw [setPropertyValue, hview]
      exact ⟨page, .inr (by rw [h₁]; rfl), .refl page, rfl⟩
    | some view =>
      have h₁ : setPropertyValue module page p =
          .ok { page with objects := page.objects.set module view } := by
        rw [setPropertyValue, hview]
      have hs : SameTabs page { page with objects := page.objects.set module view } := by
        refine ⟨fun r => ?_, rfl, fun _ => rfl, rfl⟩
        dsimp only
        rw [List.getElem?_set]
        split_ifs with hr hlt
        · subst hr
          obtain ⟨view₀, hview₀, hset⟩ := Option.bind_eq_some_iff.1 hview
          rw [hview₀, Option.map_some, Option.map_some, Option.some.injEq]
          rw [ModuleView.setPoropertyValue] at hset
          split_ifs at hset
          split at hset
          · cases hset
          · obtain ⟨p', -, rfl⟩ := Option.map_eq_some_iff.1 hset
            rfl
        · subst hr
          rw [List.getElem?_eq_none (not_lt.1 hlt)]
        · rfl
      obtain ⟨page', h, hs', hc⟩ := ih { page with objects := page.objects.set module view }
      rw [h₁]
      exact ⟨page', h, hs.trans hs', hc⟩

theorem Neat.setModulePoperties (hn : page.Neat) (id : Int32) (ps : Updates) :
    ∃ page', (page.setModulePoperties id ps = .ok page' ∨
      page.setModulePoperties id ps = .error page') ∧ page'.Neat ∧ page'.tabIds = page.tabIds := by
  rw [Page.setModulePoperties]
  split
  · exact ⟨page, .inl rfl, hn, rfl⟩
  · rename_i module _
    obtain ⟨page', h, hs, hc⟩ := foldlM_setPropertyValue module ps page
    exact ⟨page', h, hn.congr hs fun hr => hn.current (hc ▸ hr), hs.tabIds⟩

/-- The modules of a list, none of which is known, get the last tabs, in order. -/
theorem Neat.foldlM_crateModule (hn : page.Neat) {ms : List Module} (hms : ∀ m ∈ ms, Renders S m)
    (hnodup : (ms.map (·.id)).Nodup) (hids : ∀ m ∈ ms, m.id ∉ page.tabIds) :
    ∃ page', ms.foldlM Page.crateModule page = .ok page' ∧ page'.Neat ∧
      page'.tabIds = page.tabIds ++ ms.map (·.id) := by
  induction ms generalizing page with
  | nil => exact ⟨page, rfl, hn, (List.append_nil _).symm⟩
  | cons m ms ih =>
    rw [List.map_cons, List.nodup_cons] at hnodup
    obtain ⟨page₁, h₁, hn₁, hids₁⟩ := hn.crateModule (hms m List.mem_cons_self)
      (hids m List.mem_cons_self)
    obtain ⟨page₂, h₂, hn₂, hids₂⟩ := ih hn₁ (fun m' hm' => hms m' (List.mem_cons_of_mem _ hm'))
      hnodup.2 fun m' hm' => by
        rw [hids₁, List.mem_append, List.mem_singleton, not_or]
        exact ⟨hids m' (List.mem_cons_of_mem _ hm'),
          fun h => hnodup.1 (h ▸ List.mem_map_of_mem hm')⟩
    refine ⟨page₂, by rw [List.foldlM_cons, h₁]; exact h₂, hn₂, ?_⟩
    rw [hids₂, hids₁, List.map_cons, List.append_assoc]
    rfl

theorem onMessage_of_handle {msg : Text} {p : Page S}
    (h : page.handle (msgOf msg) = .ok p ∨ page.handle (msgOf msg) = .error p) :
    page.onMessage msg = p := by
  rw [onMessage]
  rcases h with h | h <;> rw [h]

end Page

end Sacs
