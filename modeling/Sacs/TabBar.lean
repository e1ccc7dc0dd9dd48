import Sacs.Lib.Lts
import Sacs.Activation
import Sacs.Tabs

/-!
# The tab bar

The modules of the page, their buttons, the module selected and what the container shows
are kept by three classes, whose functions call one another. `Page.TabBar` says how they
belong together. Modules are added and removed, tabs are clicked, and everything is cleared
when the connection is lost (`Page.Acts`).

* In every page reached, the tabs attached are those of the modules, the one selected is that
  of the current module, and the container shows this one (`Page.Kept`).
* Removing a module leaves its button in the map of buttons, until this is cleared. So the
  page is as it should be if and only if every removal has been followed by a clear
  (`tabBar_iff`).
-/

namespace Sacs

variable {S : Script}

/-- What happens to the tab bar. -/
inductive TabAction
  | crate (m : Module)
  | delete (id : Int32)
  | click (module : Nat)
  | clear

namespace Page

/-- A module is added if its id is not known, and removed if it is. A tab that is attached
    is clicked. -/
inductive Acts : Page S → TabAction → Page S → Prop
  | crate {page : Page S} {m : Module} :
      page.modules.find? m.id = none → Acts page (.crate m) (page.crateModule m).page
  | delete {page : Page S} {id : Int32} :
      (page.modules.find? id).isSome → Acts page (.delete id) (page.deleteModule id).page
  | click {page : Page S} {module : Nat} :
      module ∈ page.tabs → Acts page (.click module) (page.selectModule module).page
  | clear {page : Page S} : Acts page .clear page.clear

/-- The modules, the buttons and what is selected and shown belong together. -/
structure TabBar (page : Page S) : Prop where
  /-- The keys of the buttons are the modules. -/
  buttons : ∀ module, (page.buttons.find? module).isSome ↔
    ∃ id, page.modules.find? id = some module
  nodup : page.tabs.Nodup
  /-- The buttons attached are those of the map. -/
  tabs : ∀ module, module ∈ page.tabs ↔ (page.buttons.find? module).isSome
  current : ∀ module, page.currentModule = some module → ∃ id, page.modules.find? id = some module
  content : page.content = page.currentModule
  selected : ∀ module button, page.buttons.find? module = some button →
    (button.selected = true ↔ page.currentModule = some module)

variable {page page' : Page S}

/-! ## The functions -/

theorem crateModule_eq {m : Module} {view : ModuleView S}
    (hview : m.properties.foldlM ModuleView.addProperty { id := m.id, name := m.name } =
      some view) :
    page.crateModule m = .ok { page with
      objects := page.objects ++ [view.maybeAddApplyButton]
      modules := page.modules.set m.id page.objects.length
      buttons := if page.currentModule = none
        then (page.buttons.set page.objects.length {}).modify page.objects.length
          fun _ => { selected := true }
        else page.buttons.set page.objects.length {}
      tabs := page.tabs ++ [page.objects.length]
      currentModule := if page.currentModule = none then some page.objects.length
        else page.currentModule
      content := if page.currentModule = none then some page.objects.length
        else page.content } := by
  rw [crateModule, hview]
  dsimp only
  rw [onModuleAdded]
  dsimp only
  split_ifs with hc
  · rw [selectModule, setCurrentSelected]
    simp only [hc, JsonMsg.bind_ok, setCurrentSelected, OrdMap.find?_set, if_true]
  · rfl

theorem Neat.selectModule_eq (hn : page.Neat) {module : Nat} (hm : module ∈ page.tabs) :
    page.selectModule module = .ok { page with
      buttons := (page.currentModule.elim page.buttons fun current =>
        page.buttons.modify current fun _ => {}).modify module fun _ => { selected := true }
      currentModule := some module
      content := some module } := by
  obtain ⟨button, hbutton⟩ := Option.isSome_iff_exists.1 (hn.button hm)
  cases hc : page.currentModule with
  | none =>
    rw [Page.selectModule, setCurrentSelected]
    simp only [hc, JsonMsg.bind_ok, setCurrentSelected, hbutton, Option.elim_none]
  | some current =>
    obtain ⟨button', hbutton'⟩ := Option.isSome_iff_exists.1 (hn.button (hn.current hc))
    rw [Page.selectModule, setCurrentSelected]
    simp only [hc, hbutton', JsonMsg.bind_ok, setCurrentSelected, OrdMap.find?_modify,
      Option.elim_some]
    split_ifs with he
    · rfl
    · rw [hbutton]

theorem Neat.deleteModule_eq (hn : page.Neat) {id : Int32} {module : Nat}
    (hm : page.modules.find? id = some module) :
    page.deleteModule id = .ok { page with
      modules := page.modules.erase id
      tabs := page.tabs.erase module
      currentModule := if page.currentModule = some module then none else page.currentModule
      content := if page.currentModule = some module then none else page.content } := by
  obtain ⟨hmem, view, hview, hid⟩ := hn.shown hm
  obtain ⟨button, hbutton⟩ := Option.isSome_iff_exists.1 (hn.button hmem)
  rw [Page.deleteModule, hm, onModuleRemoved]
  by_cases hc : page.currentModule = some module
  · simp only [hc, if_true, hbutton, hmem, JsonMsg.bind_ok, Option.bind_some, hview, hid]
  · have hc' : some module ≠ page.currentModule := fun h => hc h.symm
    simp only [hc', hc, if_false, hbutton, hmem, if_true, JsonMsg.bind_ok, Option.bind_some, hview,
      hid]

/-! ## What is kept -/

/-- The tabs attached belong together with the rest in every page reached, but there may be
    more buttons. -/
structure Kept (page : Page S) : Prop where
  neat : page.Neat
  content : page.content = page.currentModule
  made : ∀ {module}, (page.buttons.find? module).isSome → module < page.objects.length
  selected : ∀ {module button}, module ∈ page.tabs → page.buttons.find? module = some button →
    (button.selected = true ↔ page.currentModule = some module)

/-- There is a button that is not attached. -/
def Stale (page : Page S) : Prop :=
  ∃ module, (page.buttons.find? module).isSome ∧ module ∉ page.tabs

theorem Neat.mem_tabs_iff (hn : page.Neat) {module : Nat} :
    module ∈ page.tabs ↔ ∃ id, page.modules.find? id = some module := by
  constructor
  · intro hm
    obtain ⟨view, -, hid⟩ := hn.registered hm
    exact ⟨view.id, hid⟩
  · rintro ⟨id, hid⟩
    exact (hn.shown hid).1

theorem Kept.tabBar_iff_not_stale (h : page.Kept) : page.TabBar ↔ ¬page.Stale := by
  constructor
  · rintro hbar ⟨module, hbutton, hno⟩
    exact hno ((hbar.tabs module).2 hbutton)
  · intro hno
    have htabs : ∀ module, module ∈ page.tabs ↔ (page.buttons.find? module).isSome :=
      fun module => ⟨h.neat.button, fun hbutton => by_contra fun hm => hno ⟨module, hbutton, hm⟩⟩
    refine ⟨fun module => ?_, h.neat.nodup, htabs, fun module hc => ?_, h.content,
      fun module button hbutton => ?_⟩
    · rw [← htabs, h.neat.mem_tabs_iff]
    · exact h.neat.mem_tabs_iff.1 (h.neat.current hc)
    · exact h.selected ((htabs module).2 (by rw [hbutton]; rfl)) hbutton

theorem kept_empty : Kept ({} : Page S) :=
  ⟨neat_empty, rfl, by simp, by simp⟩

namespace Kept

variable (h : page.Kept)

include h

theorem lt_of_mem {module : Nat} (hm : module ∈ page.tabs) : module < page.objects.length :=
  h.made (h.neat.button hm)

/-- The new button is that of a module made just now: it is none of those there. -/
theorem crate {m : Module} (hm : page.modules.find? m.id = none) :
    (page.crateModule m).page.Kept ∧ ((page.crateModule m).page.Stale ↔ page.Stale) := by
  cases hview : m.properties.foldlM ModuleView.addProperty { id := m.id, name := m.name } with
  | none =>
    rw [crateModule, hview]
    exact ⟨h, Iff.rfl⟩
  | some view =>
    have heq : page.crateModule m = _ := crateModule_eq hview
    have hid : m.id ∉ page.tabIds := by
      rw [h.neat.mem_tabIds, hm]
      exact Bool.false_ne_true
    obtain ⟨page', hpage', hneat, -⟩ :=
      h.neat.crateModule_of_view hview (id_of_addProperty hview) hid
    rw [heq] at hpage' ⊢
    obtain rfl := Except.ok.inj hpage'
    have hne : ∀ {r}, (page.buttons.find? r).isSome → r ≠ page.objects.length := fun hr =>
      (h.made hr).ne
    have hbuttons : ∀ r, (if page.currentModule = none
        then (page.buttons.set page.objects.length {}).modify page.objects.length
          fun _ => ({ selected := true } : ModuleButton)
        else page.buttons.set page.objects.length {}).find? r =
        if r = page.objects.length then some { selected := decide (page.currentModule = none) }
        else page.buttons.find? r := by
      intro r
      split_ifs with hc hr hr <;>
        simp only [OrdMap.find?_modify, OrdMap.find?_set, hc, hr, if_true, if_false,
          Option.map_some, decide_true, decide_false]
    refine ⟨⟨hneat, ?_, fun {r} hr => ?_, fun {r button} hr hbutton => ?_⟩, ?_⟩
    · dsimp only [Outcome.page]
      split_ifs
      · rfl
      · exact h.content
    · dsimp only [Outcome.page] at hr ⊢
      rw [hbuttons] at hr
      rw [List.length_append, List.length_singleton]
      split_ifs at hr with he
      · omega
      · exact (h.made hr).trans (Nat.lt_add_one _)
    · dsimp only [Outcome.page] at hr hbutton ⊢
      rw [hbuttons] at hbutton
      rw [List.mem_append, List.mem_singleton] at hr
      by_cases he : r = page.objects.length
      · rw [if_pos he, Option.some.injEq] at hbutton
        rw [← hbutton, decide_eq_true_iff]
        split_ifs with hc
        · simp [he, hc]
        · -- The current module is one of those there.
          refine iff_of_false hc fun hcur => ?_
          exact (h.lt_of_mem (h.neat.current hcur)).ne he
      · rw [if_neg he] at hbutton
        rw [h.selected (hr.resolve_right he) hbutton]
        split_ifs with hc
        · rw [hc]
          exact iff_of_false (by simp) fun hr' => he (Option.some.inj hr').symm
        · rfl
    · refine exists_congr fun r => ?_
      dsimp only [Outcome.page]
      rw [hbuttons, List.mem_append, List.mem_singleton]
      by_cases he : r = page.objects.length
      · rw [if_pos he]
        exact iff_of_false (fun hr => hr.2 (.inr he)) fun hr => hne hr.1 he
      · rw [if_neg he, or_iff_left he]

/-- The button of a module removed is not attached any more, and stays in the map. -/
theorem delete {id : Int32} (hid : (page.modules.find? id).isSome) :
    (page.deleteModule id).page.Kept ∧ (page.deleteModule id).page.Stale := by
  obtain ⟨module, hm⟩ := Option.isSome_iff_exists.1 hid
  have heq := h.neat.deleteModule_eq hm
  obtain ⟨page', hpage', hneat, -⟩ := h.neat.deleteModule id
  have hmem : module ∈ page.tabs := (h.neat.shown hm).1
  rw [heq] at hpage' ⊢
  obtain rfl := Except.ok.inj (hpage'.resolve_right (by simp))
  refine ⟨⟨hneat, ?_, h.made, fun {r button} hr hbutton => ?_⟩, module, h.neat.button hmem, ?_⟩
  · dsimp only [Outcome.page]
    rw [h.content]
  · dsimp only [Outcome.page] at hr hbutton ⊢
    obtain ⟨hne, hr⟩ := h.neat.nodup.mem_erase_iff.1 hr
    rw [h.selected hr hbutton]
    split_ifs with hc
    · rw [hc]
      exact iff_of_false (fun he => hne (Option.some.inj he).symm) (by simp)
    · rfl
  · exact fun hr => (h.neat.nodup.mem_erase_iff.1 hr).1 rfl

/-- The button clicked is selected, and the one that was is not any more. -/
theorem click {module : Nat} (hm : module ∈ page.tabs) :
    (page.selectModule module).page.Kept ∧
      ((page.selectModule module).page.Stale ↔ page.Stale) := by
  have heq := h.neat.selectModule_eq hm
  obtain ⟨page', hpage', hneat, -⟩ := h.neat.selectModule hm
  rw [heq] at hpage' ⊢
  obtain rfl := Except.ok.inj hpage'
  -- Buttons are restyled, and none is made.
  have hsome : ∀ r, (((page.currentModule.elim page.buttons fun current =>
      page.buttons.modify current fun _ => {}).modify module fun _ =>
        { selected := true }).find? r).isSome = (page.buttons.find? r).isSome := by
    intro r
    cases page.currentModule with
    | none =>
      rw [Option.elim_none, OrdMap.find?_modify]
      split_ifs with hr
      · rw [Option.isSome_map, hr]
      · rfl
    | some current =>
      rw [Option.elim_some, OrdMap.find?_modify, OrdMap.find?_modify, OrdMap.find?_modify]
      split_ifs with hr hm' hr' <;> simp only [Option.isSome_map, *]
  refine ⟨⟨hneat, rfl, fun {r} hr => h.made (hsome r ▸ hr), fun {r button} hr hbutton => ?_⟩, ?_⟩
  · dsimp only [Outcome.page] at hr hbutton ⊢
    rw [OrdMap.find?_modify] at hbutton
    split_ifs at hbutton with he
    · obtain ⟨_, -, rfl⟩ := Option.map_eq_some_iff.1 hbutton
      rw [he]
      exact iff_of_true rfl rfl
    · refine iff_of_false (fun hselected => ?_) fun hr' => he (Option.some.inj hr').symm
      cases hc : page.currentModule with
      | none =>
        rw [hc, Option.elim_none] at hbutton
        have hcur := (h.selected hr hbutton).1 hselected
        rw [hc] at hcur
        cases hcur
      | some current =>
        rw [hc, Option.elim_some, OrdMap.find?_modify] at hbutton
        split_ifs at hbutton with hr'
        · obtain ⟨_, -, rfl⟩ := Option.map_eq_some_iff.1 hbutton
          cases hselected
        · have hcur := (h.selected hr hbutton).1 hselected
          exact hr' (Option.some.inj (hc.symm.trans hcur)).symm
  · refine exists_congr fun r => ?_
    dsimp only [Outcome.page]
    rw [hsome]

/-- All buttons attached are in the map, and the module shown is known. -/
theorem clear_eq : page.clear = { objects := page.objects } := by
  have htabs : page.tabs.filter (fun module => (page.buttons.find? module).isNone) = [] := by
    rw [List.filter_eq_nil_iff]
    intro module hm
    simpa [Option.isSome_iff_ne_none] using h.neat.button hm
  have hcontent : page.content.filter
      (fun module => page.modules.entries.all fun e => e.2 ≠ module) = none := by
    rw [h.content, Option.filter_eq_none_iff]
    intro module hc hall
    obtain ⟨id, hid⟩ := h.neat.mem_tabs_iff.1 (h.neat.current hc)
    have hne := List.all_eq_true.1 hall _ (OrdMap.find?_eq_some_iff.1 hid)
    simp at hne
  rw [Page.clear, clearModules, clearButtons]
  dsimp only
  rw [htabs, hcontent]

theorem clear : page.clear.Kept ∧ ¬page.clear.Stale := by
  rw [h.clear_eq]
  refine ⟨⟨⟨.nil, by simp, by simp, by simp, by simp⟩, rfl, by simp, by simp⟩, fun hstale => ?_⟩
  obtain ⟨module, hm, -⟩ := hstale
  cases hm

end Kept

end Page

/-! ## Runs -/

/-- Every removal is followed by a clear. -/
def TabAction.Cleared (as : List TabAction) : Prop :=
  ∀ as₁ id as₂, as = as₁ ++ .delete id :: as₂ → .clear ∈ as₂

namespace TabAction

theorem cleared_nil : Cleared [] := fun as₁ id as₂ h => by simp at h

theorem append_singleton_eq_iff {as as₁ as₂ : List TabAction} {a b : TabAction} :
    as ++ [a] = as₁ ++ b :: as₂ ↔
      (as = as₁ ∧ a = b ∧ as₂ = []) ∨ ∃ l, as₂ = l ++ [a] ∧ as = as₁ ++ b :: l := by
  rcases List.eq_nil_or_concat as₂ with rfl | ⟨l, c, rfl⟩
  · rw [List.append_singleton_inj]
    simp
  · rw [List.concat_eq_append, ← List.cons_append, ← List.append_assoc, List.append_singleton_inj]
    constructor
    · rintro ⟨rfl, rfl⟩
      exact .inr ⟨l, rfl, rfl⟩
    · rintro (⟨-, -, h⟩ | ⟨l', h, rfl⟩)
      · exact absurd h (by simp)
      · obtain ⟨rfl, rfl⟩ := List.append_singleton_inj.1 h
        exact ⟨rfl, rfl⟩

theorem not_cleared_delete (as : List TabAction) (id : Int32) : ¬Cleared (as ++ [.delete id]) :=
  fun h => List.not_mem_nil (h as id [] rfl)

theorem cleared_clear (as : List TabAction) : Cleared (as ++ [.clear]) := by
  intro as₁ id as₂ h
  obtain ⟨-, h, -⟩ | ⟨l, rfl, -⟩ := append_singleton_eq_iff.1 h
  · cases h
  · exact List.mem_append_right _ (List.mem_singleton_self _)

theorem cleared_append {as : List TabAction} {a : TabAction} (hdelete : ∀ id, a ≠ .delete id)
    (hclear : a ≠ .clear) : Cleared (as ++ [a]) ↔ Cleared as := by
  constructor
  · intro h as₁ id as₂ has
    have hmem := h as₁ id (as₂ ++ [a]) (append_singleton_eq_iff.2 (.inr ⟨as₂, rfl, has⟩))
    rw [List.mem_append, List.mem_singleton] at hmem
    exact hmem.resolve_right fun ha => hclear ha.symm
  · intro h as₁ id as₂ has
    obtain ⟨-, ha, -⟩ | ⟨l, rfl, hl⟩ := append_singleton_eq_iff.1 has
    · exact absurd ha (hdelete id)
    · exact List.mem_append_left _ (h as₁ id l hl)

end TabAction

/-- In every page reached, there is a button that is not attached if and only if a module
    has been removed since the last clear. -/
theorem Page.kept_of_run {as : List TabAction} {page : Page S} (h : Lts.Run Page.Acts {} as page) :
    page.Kept ∧ (page.Stale ↔ ¬TabAction.Cleared as) := by
  induction h with
  | nil =>
    refine ⟨kept_empty, iff_of_false ?_ (not_not.2 TabAction.cleared_nil)⟩
    rintro ⟨module, hm, -⟩
    cases hm
  | @snoc as page page' a _ hst ih =>
    obtain ⟨hkept, hstale⟩ := ih
    cases hst with
    | crate hm =>
      obtain ⟨hkept', hstale'⟩ := hkept.crate hm
      rw [hstale', hstale, TabAction.cleared_append (by simp) (by simp)]
      exact ⟨hkept', Iff.rfl⟩
    | delete hid =>
      obtain ⟨hkept', hstale'⟩ := hkept.delete hid
      exact ⟨hkept', iff_of_true hstale' (TabAction.not_cleared_delete as _)⟩
    | click hm =>
      obtain ⟨hkept', hstale'⟩ := hkept.click hm
      rw [hstale', hstale, TabAction.cleared_append (by simp) (by simp)]
      exact ⟨hkept', Iff.rfl⟩
    | clear =>
      obtain ⟨hkept', hstale'⟩ := hkept.clear
      exact ⟨hkept', iff_of_false hstale' (not_not.2 (TabAction.cleared_clear as))⟩

/-- In every page reached, the modules, the buttons and what is selected and shown belong
    together if and only if every removal has been followed by a clear. -/
theorem tabBar_iff {as : List TabAction} {page : Page S} (h : Lts.Run Page.Acts {} as page) :
    page.TabBar ↔ TabAction.Cleared as := by
  obtain ⟨hkept, hstale⟩ := Page.kept_of_run h
  rw [hkept.tabBar_iff_not_stale, hstale, not_not]

/-- A module without properties. -/
def note (id : Int32) : Module := ⟨id, Str.lit "Note", [], none⟩

/-- A module is removed, and the connection is lost and found again. -/
theorem tabBar_iff_cleared : ∃ page : Page plain, Lts.Run Page.Acts {}
    [.crate (note 0), .crate (note 1), .delete 0, .clear, .crate (note 1), .click 2] page ∧
    page.TabBar := by
  have hrun : Lts.Run Page.Acts ({} : Page plain)
      [.crate (note 0), .crate (note 1), .delete 0, .clear, .crate (note 1), .click 2] _ :=
    (((((Lts.Run.nil.snoc (.crate (by decide))).snoc (.crate (by decide))).snoc
      (.delete (by decide))).snoc .clear).snoc (.crate (by decide))).snoc (.click (by decide))
  refine ⟨_, hrun, (tabBar_iff hrun).2 ?_⟩
  have hclear := TabAction.cleared_clear [.crate (note 0), .crate (note 1), .delete 0]
  have hcrate := (TabAction.cleared_append (a := .crate (note 1)) (by simp) (by simp)).2 hclear
  exact (TabAction.cleared_append (a := .click 2) (by simp) (by simp)).2 hcrate

/-- The module is removed, but its button stays in the map. -/
theorem not_tabBar_of_delete : ∃ page : Page plain,
    Lts.Run Page.Acts {} [.crate (note 0), .delete 0] page ∧
    (page.buttons.find? 0).isSome ∧ page.modules.find? 0 = none ∧ ¬page.TabBar := by
  have hrun : Lts.Run Page.Acts ({} : Page plain) [.crate (note 0), .delete 0] _ :=
    (Lts.Run.nil.snoc (.crate (by decide))).snoc (.delete (by decide))
  refine ⟨_, hrun, by decide, by decide, fun hbar => ?_⟩
  obtain ⟨id, hid⟩ := (hbar.buttons 0).1 (by decide)
  have hempty : (((({} : Page plain).crateModule (note 0)).page.deleteModule 0).page).modules =
      .empty := rfl
  rw [hempty] at hid
  cases hid

end Sacs
