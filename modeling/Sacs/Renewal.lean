import Sacs.Activation
import Sacs.Reconnecting
import Sacs.TabBar

/-!
# A page that is connected again

The modules of the connection that was lost are gone from the page, but their objects were made
before those of the next one. What the functions of the page do does not depend on what was made
before (`Page.onMessage_after`), so the page is that of a client that was told what it was told
since, and by the socket it holds, if the module shown was a known one at each loss
(`WebApp.page_of_runs`).
-/

namespace Sacs

open JsonMsg

variable {S : Script}

/-! ## What was made before -/

namespace Page

theorem strictMono_add (n : ℕ) : StrictMono (n + ·) := fun _ _ h => Nat.add_lt_add_left h n

/-- The same page, after other modules were made. -/
def after (made : List (ModuleView S)) (page : Page S) : Page S where
  objects := made ++ page.objects
  modules := page.modules.map id strictMono_id (made.length + ·)
  buttons := page.buttons.map (made.length + ·) (strictMono_add made.length) id
  tabs := page.tabs.map (made.length + ·)
  currentModule := page.currentModule.map (made.length + ·)
  content := page.content.map (made.length + ·)

def Outcome.after (made : List (ModuleView S)) : Outcome S → Outcome S
  | .ok page => .ok (page.after made)
  | .error page => .error (page.after made)

variable {made : List (ModuleView S)}

theorem Outcome.after_bind {x : Outcome S} {f f' : Page S → Outcome S}
    (hf : ∀ page : Page S, f' (page.after made) = (f page).after made) :
    (x.after made >>= f') = Outcome.after made (x >>= f) := by
  cases x with
  | ok page => exact hf page
  | error page => rfl

theorem page_after (x : Outcome S) : (x.after made).page = x.page.after made := by
  cases x <;> rfl

theorem foldlM_after {α : Type} {f : Page S → α → Outcome S} {f' : Page S → α → Outcome S}
    (hf : ∀ (page : Page S) a, f' (page.after made) a = (f page a).after made) (l : List α)
    (page : Page S) :
    l.foldlM f' (page.after made) = Outcome.after made (l.foldlM f page) := by
  induction l generalizing page with
  | nil => rfl
  | cons a l ih =>
    rw [List.foldlM_cons, List.foldlM_cons, hf]
    exact Outcome.after_bind ih

variable (page : Page S)

theorem add_injective (n : ℕ) : Function.Injective (n + ·) := (strictMono_add n).injective

theorem find?_buttons_after (module : ℕ) :
    (page.after made).buttons.find? (made.length + module) = page.buttons.find? module :=
  (OrdMap.find?_map _ (strictMono_add made.length) page.buttons module).trans
    (congrFun Option.map_id _)

theorem find?_modules_after (id : Int32) :
    (page.after made).modules.find? id = (page.modules.find? id).map (made.length + ·) :=
  OrdMap.find?_map _ strictMono_id page.modules id

theorem getElem?_objects_after (module : ℕ) :
    (page.after made).objects[made.length + module]? = page.objects[module]? :=
  (List.getElem?_append_right (Nat.le_add_right _ _)).trans
    (congrArg (page.objects[·]?) (Nat.add_sub_cancel_left _ _))

theorem setCurrentSelected_after (selected : Bool) :
    (page.after made).setCurrentSelected selected =
      (page.setCurrentSelected selected).after made := by
  rw [setCurrentSelected, setCurrentSelected]
  cases hcurrent : page.currentModule with
  | none =>
    have h : (page.after made).currentModule = none := congrArg (Option.map _) hcurrent
    rw [h]
    rfl
  | some module =>
    have h : (page.after made).currentModule = some (made.length + module) :=
      congrArg (Option.map _) hcurrent
    simp only [h, find?_buttons_after]
    cases page.buttons.find? module with
    | none => rfl
    | some button =>
      have hmodify : (page.after made).buttons.modify (made.length + module)
          (fun _ => { selected }) =
          (page.buttons.modify module fun _ => { selected }).map (made.length + ·)
            (strictMono_add made.length) id :=
        OrdMap.modify_map page.buttons module fun _ => rfl
      simp only [hmodify]
      rfl

theorem selectModule_after (module : ℕ) :
    (page.after made).selectModule (made.length + module) =
      (page.selectModule module).after made := by
  rw [selectModule, selectModule, setCurrentSelected_after]
  exact Outcome.after_bind fun page => setCurrentSelected_after
    { page with currentModule := some module, content := some module } true

/-- The page with a button for the module. -/
def attach (module : ℕ) : Page S :=
  { page with
    buttons := page.buttons.set module {}
    tabs := page.tabs ++ [module] }

theorem onModuleAdded_eq (module : ℕ) : page.onModuleAdded module =
    if page.currentModule = none then (page.attach module).selectModule module
    else .ok (page.attach module) := rfl

theorem attach_after (module : ℕ) :
    (page.after made).attach (made.length + module) = (page.attach module).after made := by
  have hbuttons : (page.after made).buttons.set (made.length + module) {} =
      (page.buttons.set module {}).map (made.length + ·) (strictMono_add made.length) id :=
    OrdMap.set_map page.buttons module {}
  have htabs : (page.after made).tabs ++ [made.length + module] =
      (page.tabs ++ [module]).map (made.length + ·) := by
    rw [List.map_append]
    rfl
  rw [attach, hbuttons, htabs]
  rfl

theorem onModuleAdded_after (module : ℕ) :
    (page.after made).onModuleAdded (made.length + module) =
      (page.onModuleAdded module).after made := by
  rw [onModuleAdded_eq, onModuleAdded_eq, attach_after]
  by_cases hcurrent : page.currentModule = none
  · have h : (page.after made).currentModule = none := congrArg (Option.map _) hcurrent
    rw [if_pos h, if_pos hcurrent]
    exact selectModule_after _ module
  · have h : (page.after made).currentModule ≠ none := fun h =>
      hcurrent (Option.map_eq_none_iff.1 h)
    rw [if_neg h, if_neg hcurrent]
    rfl

/-- The page without a current module. -/
def deselect : Page S := { page with content := none, currentModule := none }

/-- What is done about a button that is to be removed. -/
def detach (module : Option ℕ) : Outcome S :=
  match module with
  | none => .error page
  | some module =>
    match page.buttons.find? module with
    | none => .error page
    | some _ =>
      if module ∈ page.tabs then .ok { page with tabs := page.tabs.erase module } else .error page

theorem onModuleRemoved_eq (module : Option ℕ) : page.onModuleRemoved module =
    (if module = page.currentModule then page.deselect else page).detach module := by
  cases module <;> rfl

theorem detach_after (module : Option ℕ) :
    (page.after made).detach (module.map (made.length + ·)) =
      (page.detach module).after made := by
  cases module with
  | none => rfl
  | some module =>
    rw [Option.map_some, detach, detach]
    simp only [find?_buttons_after]
    cases page.buttons.find? module with
    | none => rfl
    | some button =>
      have hmem : made.length + module ∈ (page.after made).tabs ↔ module ∈ page.tabs :=
        List.mem_map_of_injective (add_injective made.length)
      have herase : (page.after made).tabs.erase (made.length + module) =
          (page.tabs.erase module).map (made.length + ·) :=
        (List.map_erase (add_injective made.length) page.tabs).symm
      simp only [hmem, herase]
      split_ifs <;> rfl

theorem onModuleRemoved_after (module : Option ℕ) :
    (page.after made).onModuleRemoved (module.map (made.length + ·)) =
      (page.onModuleRemoved module).after made := by
  have hcurrent : module.map (made.length + ·) = (page.after made).currentModule ↔
      module = page.currentModule :=
    (Option.map_injective (add_injective made.length)).eq_iff
  rw [onModuleRemoved_eq, onModuleRemoved_eq]
  simp only [hcurrent]
  split_ifs
  · exact detach_after page.deselect module
  · exact detach_after page module

theorem crateModule_after (m : Module) :
    (page.after made).crateModule m = (page.crateModule m).after made := by
  rw [crateModule, crateModule]
  cases m.properties.foldlM ModuleView.addProperty (⟨m.id, m.name, [], false⟩ : ModuleView S) with
  | none => rfl
  | some view =>
    have hlength : (page.after made).objects.length = made.length + page.objects.length :=
      List.length_append
    have hpage : ({ page.after made with
        objects := (page.after made).objects ++ [view.maybeAddApplyButton]
        modules := (page.after made).modules.set m.id (made.length + page.objects.length) } :
          Page S) =
        Page.after made { page with
          objects := page.objects ++ [view.maybeAddApplyButton]
          modules := page.modules.set m.id page.objects.length } := by
      have hobjects : (page.after made).objects ++ [view.maybeAddApplyButton] =
          made ++ (page.objects ++ [view.maybeAddApplyButton]) := List.append_assoc ..
      have hmodules : (page.after made).modules.set m.id (made.length + page.objects.length) =
          (page.modules.set m.id page.objects.length).map id strictMono_id (made.length + ·) :=
        OrdMap.set_map page.modules m.id page.objects.length
      rw [hobjects, hmodules]
      rfl
    simp only [hlength, hpage]
    exact onModuleAdded_after _ page.objects.length

theorem deleteModule_after (moduleId : Int32) :
    (page.after made).deleteModule moduleId = (page.deleteModule moduleId).after made := by
  rw [deleteModule, deleteModule]
  simp only [find?_modules_after, onModuleRemoved_after]
  refine Outcome.after_bind fun page' => ?_
  cases page.modules.find? moduleId with
  | none => rfl
  | some module =>
    have hview : (some (made.length + module)).bind ((page'.after made).objects[·]?) =
        page'.objects[module]? := page'.getElem?_objects_after module
    simp only [Option.map_some, hview, Option.bind_some]
    cases page'.objects[module]? with
    | none => rfl
    | some view =>
      have herase : (page'.after made).modules.erase view.id =
          (page'.modules.erase view.id).map id strictMono_id (made.length + ·) :=
        OrdMap.erase_map page'.modules view.id
      simp only [herase]
      rfl

theorem setPropertyValue_after (module : ℕ) (update : Int32 × Str) :
    setPropertyValue (made.length + module) (page.after made) update =
      (setPropertyValue module page update).after made := by
  rw [setPropertyValue, setPropertyValue, getElem?_objects_after]
  cases page.objects[module]?.bind (·.setPoropertyValue update.1 update.2) with
  | none => rfl
  | some view =>
    have hset : (page.after made).objects.set (made.length + module) view =
        made ++ page.objects.set module view := by
      refine (List.set_append_right _ _ (Nat.le_add_right _ _)).trans ?_
      rw [Nat.add_sub_cancel_left]
    simp only [hset]
    rfl

theorem handle_after (msg : Msg) :
    (page.after made).handle msg = (page.handle msg).after made := by
  cases msg with
  | propertyUpdate id properties =>
    rw [handle, handle, setModulePoperties, setModulePoperties, find?_modules_after]
    cases page.modules.find? id with
    | none => rfl
    | some module => exact foldlM_after (fun page => page.setPropertyValue_after module) _ page
  | moduleAdded m => exact page.crateModule_after m
  | moduleRemoved id => exact page.deleteModule_after id
  | moduleList ms => exact foldlM_after (fun page => page.crateModule_after) ms page
  | other => rfl

/-- What a message does to the page does not depend on what was made before. -/
theorem onMessage_after (msg : Text) :
    (page.after made).onMessage msg = (page.onMessage msg).after made := by
  rw [onMessage_eq, onMessage_eq, handle_after, page_after]

/-! ## What a loss leaves -/

/-- There is a button for each tab. -/
def Tabbed (page : Page S) : Prop := ∀ module ∈ page.tabs, (page.buttons.find? module).isSome = true

/-- The module shown is a known one. -/
def ShowsKnown (page : Page S) : Prop :=
  ∀ module ∈ page.content, ∃ e ∈ page.modules.entries, e.2 = module

instance instDecidableShowsKnown (page : Page S) : Decidable page.ShowsKnown :=
  inferInstanceAs (Decidable (∀ _ ∈ _, ∃ _ ∈ _, _))

section Tabbed

theorem Outcome.page_bind {P : Page S → Prop} {x : Outcome S} {f : Page S → Outcome S}
    (hx : P x.page) (hf : ∀ page, P page → P (f page).page) : P (Outcome.page (x >>= f)) := by
  cases x with
  | ok page => exact hf page hx
  | error page => exact hx

theorem Outcome.page_foldlM {α : Type} {P : Page S → Prop} {f : Page S → α → Outcome S}
    (hf : ∀ page a, P page → P (f page a).page) (l : List α) {page : Page S} (hp : P page) :
    P (Outcome.page (l.foldlM f page)) := by
  induction l generalizing page with
  | nil => exact hp
  | cons a l ih =>
    rw [List.foldlM_cons]
    exact Outcome.page_bind (hf page a hp) fun page => ih

namespace Tabbed

variable {page} (h : page.Tabbed)

include h

theorem setCurrentSelected (selected : Bool) : (page.setCurrentSelected selected).page.Tabbed := by
  rw [Page.setCurrentSelected]
  split
  · exact h
  · split
    · exact h
    · intro module hmem
      have hfind := h module hmem
      change (OrdMap.find? (OrdMap.modify _ _ _) _).isSome = true
      rw [OrdMap.find?_modify]
      split_ifs with he
      · rw [Option.isSome_map, ← he]
        exact hfind
      · exact hfind

theorem selectModule (module : ℕ) : (page.selectModule module).page.Tabbed :=
  Outcome.page_bind (h.setCurrentSelected false) fun page hp => by
    have hp : Tabbed { page with currentModule := some module, content := some module } := hp
    exact hp.setCurrentSelected true

theorem attach (module : ℕ) : (page.attach module).Tabbed := by
  intro r hr
  change (OrdMap.find? (OrdMap.set _ _ _) _).isSome = true
  rw [OrdMap.find?_set]
  split_ifs with he
  · rfl
  · rcases List.mem_append.1 hr with hr | hr
    · exact h r hr
    · exact absurd (List.mem_singleton.1 hr) he

theorem onModuleAdded (module : ℕ) : (page.onModuleAdded module).page.Tabbed := by
  rw [onModuleAdded_eq]
  split_ifs
  · exact (h.attach module).selectModule module
  · exact h.attach module

theorem detach (module : Option ℕ) : (page.detach module).page.Tabbed := by
  cases module with
  | none => exact h
  | some module =>
    rw [Page.detach]
    split
    · exact h
    · split_ifs
      · exact fun r hr => h r (List.mem_of_mem_erase hr)
      · exact h

theorem handle (msg : Msg) : (page.handle msg).page.Tabbed := by
  have hcrate : ∀ (page : Page S) m, page.Tabbed → (page.crateModule m).page.Tabbed := by
    intro page m hp
    rw [crateModule]
    split
    · exact hp
    · rename_i view _
      have hp : Tabbed { page with
          objects := page.objects ++ [view.maybeAddApplyButton]
          modules := page.modules.set m.id page.objects.length } := hp
      exact hp.onModuleAdded _
  cases msg with
  | propertyUpdate id properties =>
    rw [Page.handle, setModulePoperties]
    split
    · exact h
    · refine Outcome.page_foldlM (fun page update hp => ?_) properties h
      rw [setPropertyValue]
      split
      · exact hp
      · exact hp
  | moduleAdded m => exact hcrate page m h
  | moduleRemoved id =>
    have hremoved : ∀ module, (page.onModuleRemoved module).page.Tabbed := by
      intro module
      rw [onModuleRemoved_eq]
      split_ifs
      · have hp : page.deselect.Tabbed := h
        exact hp.detach module
      · exact h.detach module
    refine Outcome.page_bind (hremoved _) fun page hp => ?_
    split
    · exact hp
    · exact hp
  | moduleList ms => exact Outcome.page_foldlM hcrate ms h
  | other => exact h

theorem onMessage (msg : Text) : (page.onMessage msg).Tabbed := by
  rw [onMessage_eq]
  exact h.handle _

/-- A loss leaves nothing but what was made, if the module shown is a known one. -/
theorem clear_eq (hknown : page.ShowsKnown) : page.clear = ({} : Page S).after page.objects := by
  have htabs : page.tabs.filter (fun module => (page.buttons.find? module).isNone) = [] := by
    rw [List.filter_eq_nil_iff]
    intro module hm
    simpa [Option.isSome_iff_ne_none] using h module hm
  have hcontent : page.content.filter
      (fun module => page.modules.entries.all fun e => e.2 ≠ module) = none := by
    rw [Option.filter_eq_none_iff]
    intro module hc hall
    obtain ⟨e, he, rfl⟩ := hknown module hc
    simpa using List.all_eq_true.1 hall e he
  have hobjects : page.objects = page.objects ++ [] := (List.append_nil _).symm
  rw [Page.clear, clearModules, clearButtons]
  dsimp only
  rw [htabs, hcontent, Page.after, ← hobjects]
  rfl

end Tabbed

end Tabbed

end Page

/-! ## Runs -/

namespace WebApp

/-- The messages told since the last loss, each with its socket. -/
def tell (told : List (ℕ × Text)) : Action → List (ℕ × Text)
  | .message i msg => told ++ [(i, msg)]
  | .closed _ => []
  | _ => told

def told (as : List Action) : List (ℕ × Text) := as.foldl tell []

/-- The page of a client that was told the same, and nothing before. -/
def freshPage (S : Script) (told : List (ℕ × Text)) : Page S :=
  (told.map Prod.snd).foldl Page.onMessage {}

/-- At a loss, the module shown is a known one. -/
def Known (app : WebApp S) (a : Action) : Prop := a.isClosed = true → app.page.ShowsKnown

instance instDecidableKnown (app : WebApp S) (a : Action) : Decidable (app.Known a) :=
  inferInstanceAs (Decidable (_ → _))

theorem freshPage_append (told : List (ℕ × Text)) (i : ℕ) (msg : Text) :
    freshPage S (told ++ [(i, msg)]) = (freshPage S told).onMessage msg := by
  rw [freshPage, List.map_append, List.foldl_append]
  rfl

/-- The page is that of a client that was told the same. -/
structure Shows (app : WebApp S) (told : List (ℕ × Text)) : Prop where
  tabbed : app.page.Tabbed
  page : ∃ made, app.page = (freshPage S told).after made

theorem Shows.step {app app' : WebApp S} {told : List (ℕ × Text)} {a : Action}
    (hs : app.Shows told) (hknown : app.Known a) (h : app.Moves a app') :
    app'.Shows (tell told a) := by
  cases h with
  | @message i msg =>
    obtain ⟨made, hpage⟩ := hs.page
    refine ⟨hs.tabbed.onMessage msg, made, ?_⟩
    rw [tell, freshPage_append, ← Page.onMessage_after, ← hpage]
    rfl
  | closed =>
    have hclear := hs.tabbed.clear_eq (hknown rfl)
    refine ⟨?_, app.page.objects, hclear⟩
    change app.page.clear.Tabbed
    rw [hclear]
    exact fun _ hm => absurd hm List.not_mem_nil
  | opened => exact ⟨hs.tabbed, hs.page⟩
  | closing => exact ⟨hs.tabbed, hs.page⟩
  | tick => exact ⟨hs.tabbed, hs.page⟩
  | expire => exact ⟨hs.tabbed, hs.page⟩
  | click => exact ⟨hs.tabbed, hs.page⟩

/-- What was told came from the socket held, which is not closed. -/
def Hears (app : WebApp S) (told : List (ℕ × Text)) : Prop :=
  ∀ e ∈ told, app.websocket = some e.1 ∧
    (app.sockets[e.1]? = some .opened ∨ app.sockets[e.1]? = some .closing)

theorem Hears.step {app app' : WebApp S} {told : List (ℕ × Text)} {a : Action} {i : ℕ}
    (hs : app.Hears told) (hi : app.Holds i) (h : app.Moves a app') :
    app'.Hears (tell told a) := by
  -- There is no attempt while the socket held is not closed.
  have hquiet : ∀ e ∈ told, app.visible = false ∧ app.reconnectTimeout = none := by
    intro e he
    obtain ⟨hheld, hstate⟩ := hs e he
    obtain rfl : i = e.1 := Option.some.inj (hi.websocket.symm.trans hheld)
    exact hi.quiet hstate
  cases h with
  | @opened j hj =>
    intro e he
    obtain ⟨hheld, hstate⟩ := hs e he
    have hne : j ≠ e.1 := by
      rintro rfl
      rw [hj] at hstate
      rcases hstate with h | h <;> cases h
    refine ⟨hheld, ?_⟩
    change (app.sockets.set j .opened)[e.1]? = _ ∨ (app.sockets.set j .opened)[e.1]? = _
    rwa [List.getElem?_set_ne hne]
  | @message j msg hj =>
    intro e he
    rcases List.mem_append.1 he with he | he
    · exact hs e he
    · obtain rfl := List.mem_singleton.1 he
      obtain rfl := hi.eq_of hj (by decide)
      exact ⟨hi.websocket, .inl hj⟩
  | @closing j hj =>
    intro e he
    obtain ⟨hheld, hstate⟩ := hs e he
    refine ⟨hheld, ?_⟩
    change (app.sockets.set j .closing)[e.1]? = _ ∨ (app.sockets.set j .closing)[e.1]? = _
    by_cases hne : j = e.1
    · rw [← hne]
      exact .inr (List.getElem?_set_self (List.getElem?_eq_some_iff.1 hj).1)
    · rwa [List.getElem?_set_ne hne]
  | closed => exact fun e he => absurd he List.not_mem_nil
  | tick htimeout =>
    intro e he
    exact absurd (htimeout.symm.trans (hquiet e he).2) (Option.some_ne_none _)
  | expire htimeout =>
    intro e he
    exact absurd (htimeout.symm.trans (hquiet e he).2) (Option.some_ne_none _)
  | click hvisible =>
    intro e he
    exact absurd (hvisible.symm.trans (hquiet e he).1) (by decide)

end WebApp

end Sacs
