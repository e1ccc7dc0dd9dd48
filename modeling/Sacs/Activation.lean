import Sacs.Delivery
import Sacs.WebApp
import Sacs.Wrapper

/-!
# Activating properties

What the web interface reports when the user clicks: a module has the button
`Apply` if it has a property that is not independent, and the button reports all
of these, in order (`ModuleView.onPropertiesActivated`). The button of a property,
or its independent switch, reports this property alone
(`ModuleView.onPropertyActivated`).

A module registered with the wrapper, and rendered from a message of the host,
has this button as the documentation says, and whatever its inputs contain, a
click makes the host call its callback with what the documentation says
(`invokes_of_click`).
-/

namespace Sacs

open JsonMsg Str

/-! ## Clicks -/

/-- `MessageBuilder`: a request to apply the values of properties, given with their ids. -/
def MessageBuilder.request (moduleId : Int32) (properties : List (Nat × Str)) : Except Fault Text :=
  Json.dump (.obj [(lit "type", .str (lit "apply")), (lit "id", .int moduleId.toInt),
    (lit "properties", .arr (properties.map fun p =>
      .obj [(lit "id", .int p.1), (lit "value", .str p.2)]))])

/-- The classes that call `onActivated`, when a button or a switch is clicked; a script may
    do so as well. -/
def PropertyType.activates : PropertyType → Bool
  | .button | .buttonSwIn | .textBt | .textAreaBt | .script => true
  | _ => false

section Clicks

-- `scriptValue` is the `getValue` of the objects made by scripts.
variable {S : Script} (scriptValue : S.Obj → Str)

/-- `getValue` of the class of the type. -/
def PropertyView.getValue (p : PropertyView S) : Str :=
  match p.input with
  | .button => lit "1"
  | .checkbox checked => if checked then lit "1" else lit "0"
  | .text value | .textArea value => value
  | .script obj => scriptValue obj

/-- What the user clicks in a module. -/
inductive Click
  | apply
  /-- The button or switch of a property. -/
  | property (index : Nat)

namespace ModuleView

variable (m : ModuleView S)

def onPropertyActivated (property : PropertyView S) : Except Fault Text :=
  MessageBuilder.request m.id [(property.id, property.getValue scriptValue)]

def onPropertiesActivated : Except Fault Text :=
  MessageBuilder.request m.id ((m.properties.filter fun p => !p.type.isIndependent).map
    fun p => (p.id, p.getValue scriptValue))

/-- There is such a button or switch. -/
def Clickable : Click → Prop
  | .apply => m.applyButton = true
  | .property k => (m.properties[k]?).any (·.type.activates) = true

/-- The request sent on a click. -/
def onClick : Click → Except Fault Text
  | .apply => if m.applyButton then m.onPropertiesActivated scriptValue else .error .disabled
  | .property k =>
    match m.properties[k]? with
    | none => .error .disabled
    | some p =>
      if p.type.activates then m.onPropertyActivated scriptValue p else .error .disabled

/-- What the property at the index shows. -/
def shown (k : Nat) : Str := ((m.properties[k]?).map (·.getValue scriptValue)).getD []

end ModuleView

end Clicks

/-- What the inputs contain is text, without NUL characters. -/
def ModuleView.IsText {S : Script} (scriptValue : S.Obj → Str) (m : ModuleView S) : Prop :=
  ∀ p ∈ m.properties, (p.getValue scriptValue).isUtf8 = true ∧ 0 ∉ p.getValue scriptValue

/-- The module registered by a call of `RegisterModule` with a callback. -/
def SacsWrapper.toModule (id : Int32) (name : Str) (properties : List ModuleProperty)
    (callback : Callback) : Module :=
  { id, name := name.cString, properties := properties.map toProperty, callback := some callback }

/-- The properties reported on a click, as documented, by their ids. -/
def ModuleProperty.reported (properties : List ModuleProperty) : Click → List Nat
  | .apply => (List.range properties.length).filter fun k =>
      (properties[k]?).any fun p => !p.type.isIndependent
  | .property k => [k]

/-! ## Rendering -/

variable {S : Script}

/-- The module is rendered. -/
def ModuleView.Renders (m : Module) (view : ModuleView S) : Prop :=
  ∃ view₀, m.properties.foldlM ModuleView.addProperty { id := m.id, name := m.name } = some view₀ ∧
    view = view₀.maybeAddApplyButton

/-- The same input, with any contents. -/
inductive Input.Edited : Input S → Input S → Prop
  | button : Edited .button .button
  | checkbox {checked checked' : Bool} : Edited (.checkbox checked) (.checkbox checked')
  | text {value value' : Str} : Edited (.text value) (.text value')
  | textArea {value value' : Str} : Edited (.textArea value) (.textArea value')
  | script {obj obj' : S.Obj} : Edited (.script obj) (.script obj')

structure PropertyView.Edited (p p' : PropertyView S) : Prop where
  id : p'.id = p.id
  type : p'.type = p.type
  label : p'.label = p.label
  input : p.input.Edited p'.input

/-- The same module, with any contents of its inputs. -/
structure ModuleView.Edited (m m' : ModuleView S) : Prop where
  id : m'.id = m.id
  name : m'.name = m.name
  properties : List.Forall₂ PropertyView.Edited m.properties m'.properties
  applyButton : m'.applyButton = m.applyButton

theorem Input.Edited.refl (input : Input S) : input.Edited input := by
  cases input with
  | button => exact .button
  | checkbox => exact .checkbox
  | text => exact .text
  | textArea => exact .textArea
  | script => exact .script

theorem PropertyView.edited_of_setValue {p p' : PropertyView S} {value : Str}
    (h : p.setValue value = some p') : p.Edited p' := by
  obtain ⟨id, type, label, input⟩ := p
  rw [PropertyView.setValue] at h
  cases input with
  | button =>
    cases h
    exact ⟨rfl, rfl, rfl, .button⟩
  | checkbox =>
    cases h
    exact ⟨rfl, rfl, rfl, .checkbox⟩
  | text =>
    cases h
    exact ⟨rfl, rfl, rfl, .text⟩
  | textArea =>
    cases h
    exact ⟨rfl, rfl, rfl, .textArea⟩
  | script =>
    obtain ⟨obj, -, rfl⟩ := Option.map_eq_some_iff.1 h
    exact ⟨rfl, rfl, rfl, .script⟩

/-- The updates of the host change contents only, as the user does. -/
theorem ModuleView.edited_of_setPoropertyValue {m m' : ModuleView S} {id : Int32} {value : Str}
    (h : m.setPoropertyValue id value = some m') : m.Edited m' := by
  rw [ModuleView.setPoropertyValue] at h
  split_ifs at h
  split at h
  · cases h
  · rename_i p hp
    obtain ⟨p', hp', rfl⟩ := Option.map_eq_some_iff.1 h
    refine ⟨rfl, rfl, List.forall₂_iff_get.2 ⟨List.length_set.symm, fun k hk hk' => ?_⟩, rfl⟩
    rw [List.get_eq_getElem, List.get_eq_getElem, List.getElem_set]
    split_ifs with he
    · obtain ⟨_, hk₀⟩ := List.getElem?_eq_some_iff.1 hp
      subst he
      rw [hk₀]
      exact PropertyView.edited_of_setValue hp'
    · exact ⟨rfl, rfl, rfl, .refl _⟩

/-- The classes are independent as documented. -/
theorem fromId_toInt (t : ModuleProperty.Type) :
    ∃ t', PropertyType.fromId t.toInt = some t' ∧ t'.isIndependent = t.isIndependent := by
  cases t <;> exact ⟨_, rfl, rfl⟩

theorem id_of_addProperty {ps : List Property} {view view' : ModuleView S}
    (h : ps.foldlM ModuleView.addProperty view = some view') : view'.id = view.id := by
  induction ps generalizing view with
  | nil =>
    cases h
    rfl
  | cons p ps ih =>
    rw [List.foldlM_cons, Option.bind_eq_bind, Option.bind_eq_some_iff] at h
    obtain ⟨view₁, h₁, h⟩ := h
    refine (ih h).trans ?_
    rw [ModuleView.addProperty] at h₁
    split at h₁
    · cases h₁
      rfl
    · obtain ⟨input, -, rfl⟩ := Option.map_eq_some_iff.1 h₁
      rfl

theorem ModuleView.Renders.id_eq {m : Module} {view : ModuleView S} (h : view.Renders m) :
    view.id = m.id := by
  obtain ⟨view₀, hview₀, rfl⟩ := h
  exact id_of_addProperty hview₀

/-- A view of a module shows its properties from the index `n` on, in order. -/
structure ShowsFrom (n : Nat) (ps : List Property) (views : List (PropertyView S)) : Prop where
  length : views.length = ps.length
  property : ∀ {k p}, ps[k]? = some p →
    ∃ v, views[k]? = some v ∧ v.id = n + k ∧ PropertyType.fromId p.type = some v.type

theorem showsFrom_of_addProperty {ps : List Property} {view view' : ModuleView S}
    (h : ps.foldlM ModuleView.addProperty view = some view')
    (hps : ∀ p ∈ ps, (PropertyType.fromId p.type).isSome) :
    ∃ vs, view'.properties = view.properties ++ vs ∧ ShowsFrom view.properties.length ps vs := by
  induction ps generalizing view with
  | nil =>
    cases h
    exact ⟨[], (List.append_nil _).symm, rfl, fun h => by simp at h⟩
  | cons p ps ih =>
    obtain ⟨type, htype⟩ := Option.isSome_iff_exists.1 (hps p List.mem_cons_self)
    rw [List.foldlM_cons, Option.bind_eq_bind, Option.bind_eq_some_iff] at h
    obtain ⟨view₁, h₁, h⟩ := h
    simp only [ModuleView.addProperty, htype, Option.map_eq_some_iff] at h₁
    obtain ⟨input, -, rfl⟩ := h₁
    obtain ⟨vs, hvs, hshows⟩ := ih h fun q hq => hps q (List.mem_cons_of_mem _ hq)
    refine ⟨_ :: vs, by rw [hvs, List.append_assoc]; rfl, ?_, ?_⟩
    · rw [List.length_cons, List.length_cons, hshows.length]
    · intro k q hq
      cases k with
      | zero =>
        cases hq
        exact ⟨_, rfl, rfl, htype⟩
      | succ k =>
        obtain ⟨v, hv, hvid, hvtype⟩ := hshows.property hq
        refine ⟨v, hv, ?_, hvtype⟩
        rw [hvid, List.length_append, List.length_singleton]
        omega

namespace Page

/-- The page a function leaves, whether it returns or throws. -/
def Outcome.page : Outcome S → Page S
  | .ok page => page
  | .error page => page

variable (page : Page S)

theorem onMessage_eq (msg : Text) : page.onMessage msg = (page.handle (msgOf msg)).page := by
  rw [onMessage]
  cases page.handle (msgOf msg) <;> rfl

theorem objects_setCurrentSelected (selected : Bool) :
    (page.setCurrentSelected selected).page.objects = page.objects := by
  rw [setCurrentSelected]
  split
  · rfl
  · split <;> rfl

theorem objects_selectModule (module : Nat) :
    (page.selectModule module).page.objects = page.objects := by
  have hpage := page.objects_setCurrentSelected false
  rw [selectModule]
  cases h : page.setCurrentSelected false with
  | error page' =>
    rw [h] at hpage
    exact hpage
  | ok page' =>
    rw [h] at hpage
    exact (objects_setCurrentSelected { page' with
      currentModule := some module, content := some module } true).trans hpage

theorem objects_onModuleAdded (module : Nat) :
    (page.onModuleAdded module).page.objects = page.objects := by
  rw [onModuleAdded]
  split_ifs
  · exact objects_selectModule ..
  · rfl

/-- The objects made are views of these modules. -/
def Makes (ms : List Module) (page' : Page S) : Prop :=
  ∃ views, page'.objects = page.objects ++ views ∧ ∀ v ∈ views, ∃ m ∈ ms, v.Renders m

theorem makes_crateModule (m : Module) : page.Makes [m] (page.crateModule m).page := by
  rw [crateModule]
  cases h : m.properties.foldlM ModuleView.addProperty { id := m.id, name := m.name } with
  | none => exact ⟨[], (List.append_nil _).symm, fun _ hv => absurd hv List.not_mem_nil⟩
  | some view =>
    refine ⟨[view.maybeAddApplyButton], objects_onModuleAdded .., fun v hv => ?_⟩
    cases List.mem_singleton.1 hv
    exact ⟨m, List.mem_singleton_self _, view, h, rfl⟩

variable {page} in
theorem Makes.trans {ms ms' : List Module} {page' page'' : Page S} (h : page.Makes ms page')
    (h' : page'.Makes ms' page'') : page.Makes (ms ++ ms') page'' := by
  obtain ⟨vs, hvs, hms⟩ := h
  obtain ⟨vs', hvs', hms'⟩ := h'
  refine ⟨vs ++ vs', by rw [hvs', hvs, List.append_assoc], fun v hv => ?_⟩
  rcases List.mem_append.1 hv with hv | hv
  · obtain ⟨m, hm, hr⟩ := hms v hv
    exact ⟨m, List.mem_append_left _ hm, hr⟩
  · obtain ⟨m, hm, hr⟩ := hms' v hv
    exact ⟨m, List.mem_append_right _ hm, hr⟩

theorem makes_foldlM (ms : List Module) :
    page.Makes ms (Outcome.page (ms.foldlM crateModule page)) := by
  induction ms generalizing page with
  | nil => exact ⟨[], (List.append_nil _).symm, fun _ hv => absurd hv List.not_mem_nil⟩
  | cons m ms ih =>
    have hm := page.makes_crateModule m
    rw [List.foldlM_cons]
    cases h : page.crateModule m with
    | ok page' =>
      rw [h] at hm
      exact hm.trans (ih page')
    | error page' =>
      -- The modules after one that throws are not rendered.
      rw [h] at hm
      obtain ⟨vs, hvs, hms⟩ := hm
      refine ⟨vs, hvs, fun v hv => ?_⟩
      obtain ⟨m', hm', hr⟩ := hms v hv
      exact ⟨m', List.mem_append_left _ hm', hr⟩

end Page

/-- A message about modules registered: one of them is added, or the list of all. -/
def Instance.Describes (s : Instance) (msg : Text) : Prop :=
  (∃ id m, s.modules.find? id = some m ∧ createModuleAdded m = .ok msg) ∨
    createModuleList (s.modules.entries.map Prod.snd) = .ok msg

/-- A module made by the page on such a message is a view of a module registered. -/
theorem renders_of_describes {s : Instance} {msg : Text} (hmsg : s.Describes msg) {page : Page S}
    {k : Nat} {view : ModuleView S} (hview : (page.onMessage msg).objects[k]? = some view)
    (hk : page.objects.length ≤ k) :
    ∃ id m, s.modules.find? id = some m ∧ view.Renders { m with callback := none } := by
  have hmakes : ∃ ms, page.Makes ms (page.onMessage msg) ∧ ∀ m ∈ ms, ∃ id m',
      s.modules.find? id = some m' ∧ m = { m' with callback := none } := by
    rw [Page.onMessage_eq]
    rcases hmsg with ⟨id, m, hm, hmsg⟩ | hmsg
    · rw [Page.msgOf_createModuleAdded hmsg]
      refine ⟨_, page.makes_crateModule _, fun m' hm' => ?_⟩
      exact ⟨id, m, hm, List.mem_singleton.1 hm'⟩
    · rw [Page.msgOf_createModuleList hmsg]
      refine ⟨_, page.makes_foldlM _, fun m' hm' => ?_⟩
      obtain ⟨m, hm, rfl⟩ := List.mem_map.1 hm'
      obtain ⟨e, he, rfl⟩ := List.mem_map.1 hm
      exact ⟨e.1, e.2, OrdMap.find?_eq_some_iff.2 he, rfl⟩
  obtain ⟨ms, ⟨views, hviews, hms⟩, hregistered⟩ := hmakes
  rw [hviews, List.getElem?_append_right hk] at hview
  obtain ⟨m, hm, hrenders⟩ := hms view (List.mem_of_getElem? hview)
  obtain ⟨id, m', hm', rfl⟩ := hregistered m hm
  exact ⟨id, m', hm', hrenders⟩

/-! ## What a view reports -/

/-- The view shows the properties of a module, as an application describes them. -/
structure ModuleView.Documents (view : ModuleView S) (id : Int32)
    (properties : List ModuleProperty) : Prop where
  id : view.id = id
  length : view.properties.length = properties.length
  property : ∀ {k p}, properties[k]? = some p → ∃ v : PropertyView S,
    view.properties[k]? = some v ∧ v.id = k ∧ v.type.isIndependent = p.type.isIndependent
  applyButton : view.applyButton = view.properties.any fun p => !p.type.isIndependent

/-- A view of a module with properties of known types. -/
theorem documents_of_renders {view : ModuleView S} {m : Module} {properties : List ModuleProperty}
    (h : view.Renders m)
    (htypes : m.properties.map (·.type) = properties.map fun p => p.type.toInt) :
    view.Documents m.id properties := by
  have htype : ∀ {k : Nat} {p : ModuleProperty}, properties[k]? = some p →
      ∃ q : Property, m.properties[k]? = some q ∧ q.type = p.type.toInt := by
    intro k p hp
    have hk := congrArg (·[k]?) htypes
    simp only [List.getElem?_map, hp, Option.map_some, Option.map_eq_some_iff] at hk
    exact hk
  have hknown : ∀ q ∈ m.properties, (PropertyType.fromId q.type).isSome := by
    intro q hq
    have hmem : q.type ∈ properties.map fun p => p.type.toInt :=
      htypes ▸ List.mem_map_of_mem hq
    obtain ⟨p, -, hp⟩ := List.mem_map.1 hmem
    obtain ⟨t, ht, -⟩ := fromId_toInt p.type
    rw [← hp, ht]
    rfl
  have hid := h.id_eq
  obtain ⟨view₀, hview₀, rfl⟩ := h
  obtain ⟨vs, hvs, hshows⟩ := showsFrom_of_addProperty hview₀ hknown
  have hlen : m.properties.length = properties.length := by
    simpa using congrArg List.length htypes
  refine ⟨hid, ?_, fun hp => ?_, rfl⟩
  · exact (congrArg List.length hvs).trans (hshows.length.trans hlen)
  · obtain ⟨q, hq, hqtype⟩ := htype hp
    obtain ⟨v, hv, hvid, hvtype⟩ := hshows.property hq
    refine ⟨v, (congrArg (·[_]?) hvs).trans hv, hvid.trans (Nat.zero_add _), ?_⟩
    obtain ⟨t, ht, hindep⟩ := fromId_toInt _
    rw [hqtype, ht, Option.some.injEq] at hvtype
    rw [← hvtype, hindep]

/-- Whatever the inputs contain. -/
theorem ModuleView.Documents.edited {view view' : ModuleView S} {id : Int32}
    {properties : List ModuleProperty} (h : view.Documents id properties) (he : view.Edited view') :
    view'.Documents id properties := by
  have htypes : view'.properties.map (·.type) = view.properties.map (·.type) := by
    have hall := he.properties
    generalize view.properties = vs at hall
    generalize view'.properties = vs' at hall
    induction hall with
    | nil => rfl
    | cons hp _ ih => rw [List.map_cons, List.map_cons, hp.type, ih]
  refine ⟨he.id.trans h.id, he.properties.length_eq.symm.trans h.length, fun hp => ?_, ?_⟩
  · obtain ⟨v, hv, hvid, hindep⟩ := h.property hp
    obtain ⟨hk, rfl⟩ := List.getElem?_eq_some_iff.1 hv
    have hk' := he.properties.length_eq ▸ hk
    have hedit := he.properties.get hk hk'
    exact ⟨_, List.getElem?_eq_getElem hk', hedit.id.trans hvid, hedit.type ▸ hindep⟩
  · rw [he.applyButton, h.applyButton]
    have := congrArg (List.any · fun t => !t.isIndependent) htypes
    simpa [List.any_map, Function.comp_def] using this.symm

theorem filter_eq_filterMap_range {α : Type} (l : List α) (f : α → Bool) :
    l.filter f = ((List.range l.length).filter fun k => (l[k]?).any f).filterMap (l[·]?) := by
  induction l using List.reverseRecOn with
  | nil => rfl
  | append_singleton l a ih =>
    have hlt : ∀ k ∈ List.range l.length, (l ++ [a])[k]? = l[k]? := fun k hk =>
      List.getElem?_append_left (List.mem_range.1 hk)
    have hinit : (List.range l.length).filter (fun k => ((l ++ [a])[k]?).any f) =
        (List.range l.length).filter fun k => (l[k]?).any f :=
      List.filter_congr fun k hk => by rw [hlt k hk]
    rw [List.length_append, List.length_singleton, List.range_succ, List.filter_append,
      List.filter_append, List.filterMap_append, hinit, ih]
    congr 1
    · exact List.filterMap_congr fun k hk => (hlt k (List.mem_of_mem_filter hk)).symm
    · by_cases ha : f a = true <;> simp [ha]

section Reports

variable {view : ModuleView S} {id : Int32} {properties : List ModuleProperty}
  (h : view.Documents id properties) (scriptValue : S.Obj → Str)

include h

theorem ModuleView.Documents.any_eq (k : Nat) :
    (view.properties[k]?).any (fun p => !p.type.isIndependent) =
      (properties[k]?).any fun p => !p.type.isIndependent := by
  cases hp : properties[k]? with
  | none =>
    rw [List.getElem?_eq_none_iff, ← h.length, ← List.getElem?_eq_none_iff] at hp
    rw [hp]
    rfl
  | some p =>
    obtain ⟨v, hv, -, hindep⟩ := h.property hp
    rw [hv, Option.any_some, Option.any_some, hindep]

/-- There is a button `Apply` as documented. -/
theorem ModuleView.Documents.applyButton_iff :
    view.applyButton = true ↔ ∃ p ∈ properties, p.type.isIndependent = false := by
  have hany : ∀ {α : Type} (l : List α) (f : α → Bool),
      l.any f = true ↔ ∃ k : Nat, (l[k]?).any f = true := by
    intro α l f
    rw [List.any_eq_true]
    constructor
    · rintro ⟨a, ha, hf⟩
      obtain ⟨k, hk⟩ := List.mem_iff_getElem?.1 ha
      exact ⟨k, by rw [hk]; exact hf⟩
    · rintro ⟨k, hk⟩
      obtain ⟨a, ha, hf⟩ := (Option.any_eq_true _ _).1 hk
      exact ⟨a, List.mem_of_getElem? ha, hf⟩
  rw [h.applyButton, hany]
  simp only [h.any_eq]
  rw [← hany, List.any_eq_true]
  simp only [Bool.not_eq_true']

/-- A property that can be clicked has this index as its id. -/
theorem ModuleView.Documents.id_eq {k : Nat} {v : PropertyView S}
    (hv : view.properties[k]? = some v) : v.id = k := by
  have hk : k < properties.length := h.length ▸ (List.getElem?_eq_some_iff.1 hv).1
  obtain ⟨v', hv', hid, -⟩ := h.property (List.getElem?_eq_getElem hk)
  cases hv.symm.trans hv'
  exact hid

/-- The values reported are those shown, of the properties that should be reported. -/
theorem ModuleView.Documents.onClick_eq {c : Click} (hc : view.Clickable c) :
    view.onClick scriptValue c = MessageBuilder.request id
      ((ModuleProperty.reported properties c).map fun k => (k, view.shown scriptValue k)) := by
  cases c with
  | apply =>
    have hreported : ModuleProperty.reported properties .apply =
        (List.range view.properties.length).filter fun k =>
          (view.properties[k]?).any fun p => !p.type.isIndependent := by
      rw [ModuleProperty.reported, h.length]
      exact List.filter_congr fun k _ => (h.any_eq k).symm
    have happly : view.applyButton = true := hc
    rw [ModuleView.onClick, if_pos happly, ModuleView.onPropertiesActivated, h.id,
      filter_eq_filterMap_range, ← hreported, List.map_filterMap]
    congr 1
    rw [← List.filterMap_eq_map]
    refine List.filterMap_congr fun k hk => ?_
    rw [hreported, List.mem_filter] at hk
    obtain ⟨v, hv, -⟩ := (Option.any_eq_true _ _).1 hk.2
    simp only [ModuleView.shown, hv, Option.map_some, Option.getD_some, h.id_eq hv,
      Function.comp_apply]
  | property k =>
    obtain ⟨v, hv, hactivates⟩ := (Option.any_eq_true _ _).1 hc
    simp only [ModuleView.onClick, hv, hactivates, if_true, ModuleView.onPropertyActivated, h.id,
      ModuleProperty.reported, List.map_cons, List.map_nil, ModuleView.shown, Option.map_some,
      Option.getD_some, h.id_eq hv]

/-- All the properties reported are properties of the module, and there is one. -/
theorem ModuleView.Documents.reported_spec {c : Click} (hc : view.Clickable c) :
    ModuleProperty.reported properties c ≠ [] ∧
      ∀ k ∈ ModuleProperty.reported properties c, k < properties.length := by
  cases c with
  | apply =>
    obtain ⟨p, hp, hindep⟩ := h.applyButton_iff.1 hc
    obtain ⟨k, hk⟩ := List.mem_iff_getElem?.1 hp
    have hlt : k < properties.length := (List.getElem?_eq_some_iff.1 hk).1
    refine ⟨List.ne_nil_of_mem (a := k) (List.mem_filter.2 ⟨List.mem_range.2 hlt, ?_⟩), ?_⟩
    · rw [hk, Option.any_some, hindep]
      rfl
    · intro k' hk'
      exact List.mem_range.1 (List.mem_of_mem_filter hk')
  | property k =>
    obtain ⟨v, hv, -⟩ := (Option.any_eq_true _ _).1 hc
    refine ⟨List.cons_ne_nil _ _, fun k' hk' => ?_⟩
    rw [List.mem_singleton.1 hk', ← h.length]
    exact (List.getElem?_eq_some_iff.1 hv).1

end Reports

/-! ## What the host does -/

theorem exists_request (id : Int32) {ps : List (Nat × Str)} (hlt : ∀ p ∈ ps, p.1 < 2 ^ 31)
    (hutf8 : ∀ p ∈ ps, p.2.isUtf8 = true) :
    ∃ h, MessageBuilder.request id ps =
      .ok (.json (applyRequest id (ps.map fun p => (Int32.ofNat p.1, p.2))) h) := by
  have hannounceable : Announceable (ps.map fun p => (Int32.ofNat p.1, p.2)) := by
    intro u hu
    obtain ⟨p, hp, rfl⟩ := List.mem_map.1 hu
    exact hutf8 p hp
  have hjson : applyRequest id (ps.map fun p => (Int32.ofNat p.1, p.2)) =
      .obj [(lit "type", .str (lit "apply")), (lit "id", .int id.toInt),
        (lit "properties", .arr (ps.map fun p =>
          .obj [(lit "id", .int p.1), (lit "value", .str p.2)]))] := by
    rw [applyRequest, List.map_map]
    congr 6
    refine List.map_congr_left fun p hp => ?_
    have htoInt : (Int32.ofNat p.1).toInt = p.1 := Int32.toInt_ofNat_of_lt (hlt p hp)
    simp only [Function.comp_apply, updateToJson, htoInt]
  refine ⟨isUtf8_applyRequest id hannounceable, ?_⟩
  rw [MessageBuilder.request, Json.dump_eq_ok_iff, ← hjson]
  exact ⟨_, rfl⟩

/-- Whenever a connected web client that waits for no reply sends this request, the instance
    takes it, and makes this call after the tasks queued before are run, if the module is
    still registered then. A large request is dropped. -/
def Instance.Invokes (s : Instance) (request : Text) (inv : Invocation) : Prop :=
  ∀ (bs : List Action) (w : ClientId) (t : Instance), Lts.Run Instance.Steps s bs t →
    (t.wsClients w).isSome → t.web w = .idle →
    (∃ t₁, t.step (.wsMessage w ⟨request, false⟩) = .ok t₁ ∧ t₁.invocations = t.invocations ∧
      ∀ (cs : List Action) (t₂ : Instance), Lts.Run Instance.Steps t₁ cs t₂ →
        cs.countP Action.isTask = t.threadLoop.length → t₂.loop = .idle →
        (t₂.modules.find? inv.moduleId).isSome →
        ∃ t₃, t₂.step .task = .ok t₃ ∧ t₃.invocations = t₂.invocations ++ [inv]) ∧
    t.step (.wsMessage w ⟨request, true⟩) = .ok t

theorem invokes_of_request {as : List Action} {s : Instance} (hs : Instance.Runs as s) {id : Int32}
    {name : Str} {properties : List ModuleProperty} {callback : Callback}
    (hreg : s.registration? id = some (SacsWrapper.toModule id name properties callback))
    {ps : Updates} (hne : ps ≠ []) (hps : ∀ u ∈ ps, 0 ≤ u.1.toInt)
    (h : (applyRequest id ps).isUtf8 = true) :
    s.Invokes (.json (applyRequest id ps) h)
      ⟨callback, id, ps.map Prod.fst, ps.map fun u => u.2.cString⟩ := by
  intro bs w t hbs hw hweb
  obtain ⟨json, hjson, htype, hid, hlist, -⟩ := @parse_applyRequest id ps h
  have hvalid : json.isValid = true := by
    cases hjson
    rfl
  -- The request is posted, and is the next task once those before it are run.
  have hst : t.step (.wsMessage w ⟨.json (applyRequest id ps) h, false⟩) =
      .ok (ServerImpl.setWeb (t.post (.doProcessJSRequest json w)) w .waiting) := by
    rw [Instance.step_wsMessage _ hw hweb, ServerImpl.onWsClientMessage,
      if_neg Bool.false_ne_true, hjson, bind_ok, hvalid]
    rfl
  refine ⟨⟨_, hst, rfl, fun cs t₂ hcs hcount hidle hsome => ?_⟩,
    Instance.step_wsMessage_large _ hw hweb⟩
  obtain ⟨ts, hts⟩ := fifo_threadLoop.last hcs rfl hcount
  have ht₁ := ((hs.append hbs).snoc hst).append hcs
  obtain ⟨m, hm⟩ := Option.isSome_iff_exists.1 hsome
  have hreg' := registration?_of_run ((hbs.snoc hst).append hcs) hreg
  have hcb : m.callback = some callback := ((kept_of_runs ht₁).saved hm hreg').callback
  obtain ⟨m', hm'⟩ := Module.exists_save (m := m) hps
  refine ⟨_, exists_apply ⟨hidle, hts⟩ ⟨htype, hid, by rw [hlist]; rfl⟩ hm hne hm' hcb, ?_⟩
  rw [Instance.invocations_applied]
  rfl

/-- A module registered with the wrapper is this one. -/
theorem registration?_of_wrapper {s s' : Instance} (hs : s.Kept) (h : Transition s .task s')
    {name : Str} {properties : List ModuleProperty} {callback : Callback} {promise : Promise}
    {q : List Task} (ht : Takes s
      (.doRegisterModule (SacsWrapper.toModule (-1) name properties callback) promise) q) :
    s'.registration? s.idCounter =
      some (SacsWrapper.toModule s.idCounter name properties callback) :=
  (hs.registration?_iff h).2 (.inr ⟨rfl, rfl, _, promise, q, ht, rfl⟩)

/-- A module rendered from a message about it is documented by what it was registered with. -/
theorem documents_of_describes {as : List Action} {s : Instance} (hs : Instance.Runs as s)
    {id : Int32} {name : Str} {properties : List ModuleProperty} {callback : Callback}
    (hreg : s.registration? id = some (SacsWrapper.toModule id name properties callback))
    {msg : Text} (hmsg : s.Describes msg) {page : Page S} {k : Nat} {view view' : ModuleView S}
    (hk : page.objects.length ≤ k) (hview : (page.onMessage msg).objects[k]? = some view)
    (hid : view.id = id) (hedited : view.Edited view') : view'.Documents id properties := by
  have hkept := kept_of_runs hs
  obtain ⟨id', m, hm, hrenders⟩ := renders_of_describes hmsg hview hk
  obtain rfl : id' = id := by
    rw [← hid, hrenders.id_eq]
    exact (hkept.fresh.key hm).1.symm
  -- The types are those of the registration: saved updates change only values.
  have htypes : m.properties.map (·.type) = properties.map fun p => p.type.toInt := by
    have hshape := (hkept.saved hm hreg).shape
    have := congrArg (fun shape : Shape => shape.2.map (·.1)) hshape
    simpa [Module.shape, SacsWrapper.toModule, SacsWrapper.toProperty, Function.comp_def] using this
  have hdocuments := documents_of_renders hrenders htypes
  rw [show _ = id' from (hkept.fresh.key hm).1] at hdocuments
  exact hdocuments.edited hedited

namespace ModuleView.Documents

variable (scriptValue : S.Obj → Str) {view : ModuleView S} {id : Int32}
  {properties : List ModuleProperty} (h : view.Documents id properties) {c : Click}
  (hc : view.Clickable c) (htext : view.IsText scriptValue)

include h hc htext

/-- What is reported is text without a null character, which the host reads as it is. -/
theorem shown_spec : ∀ k ∈ ModuleProperty.reported properties c,
    (view.shown scriptValue k).isUtf8 = true ∧
      (view.shown scriptValue k).cString = view.shown scriptValue k := by
  intro k hk
  obtain ⟨v, hv, -⟩ := h.property (List.getElem?_eq_getElem ((h.reported_spec hc).2 k hk))
  have := htext v (List.mem_of_getElem? hv)
  rw [ModuleView.shown, hv, Option.map_some, Option.getD_some]
  exact ⟨this.1, cString_eq this.2⟩

/-- A click sends a request with the values shown, of the properties that should be
    reported. -/
theorem exists_onClick (hlen : properties.length < 2 ^ 31) :
    ∃ hutf8, view.onClick scriptValue c = .ok (.json (applyRequest id
      ((ModuleProperty.reported properties c).map fun k =>
        (Int32.ofNat k, view.shown scriptValue k))) hutf8) := by
  obtain ⟨-, hlt⟩ := h.reported_spec hc
  have hcovers : ∀ u ∈ (ModuleProperty.reported properties c).map
      (fun k => (k, view.shown scriptValue k)), u.1 < 2 ^ 31 ∧ u.2.isUtf8 = true := by
    intro u hu
    obtain ⟨k, hk, rfl⟩ := List.mem_map.1 hu
    exact ⟨(hlt k hk).trans hlen, (h.shown_spec scriptValue hc htext k hk).1⟩
  obtain ⟨hutf8, hrequest⟩ := exists_request id (fun u hu => (hcovers u hu).1)
    fun u hu => (hcovers u hu).2
  rw [← h.onClick_eq scriptValue hc] at hrequest
  simp only [List.map_map, Function.comp_def] at hutf8 hrequest
  exact ⟨hutf8, hrequest⟩

end ModuleView.Documents

/-- A module registered with the wrapper is rendered from a message about it. It has a
    button `Apply` exactly if a property is documented as not independent, and whatever its
    inputs contain, a click makes the host call its callback, once, with the properties
    that should be reported, and what they show, if the request is not a large one. The
    number of properties is passed as an `int`. -/
theorem invokes_of_click (scriptValue : S.Obj → Str) {as bs : List Action} {s₀ s₁ s : Instance}
    (hs₀ : Instance.Runs as s₀) {name : Str} {properties : List ModuleProperty}
    {callback : Callback} {promise : Promise} {q : List Task}
    (ht : Takes s₀
      (.doRegisterModule (SacsWrapper.toModule (-1) name properties callback) promise) q)
    (hst : s₀.step .task = .ok s₁) (hs₁ : Lts.Run Instance.Steps s₁ bs s)
    (hlen : properties.length < 2 ^ 31) {msg : Text} (hmsg : s.Describes msg) {page : Page S}
    {k : Nat} {view view' : ModuleView S} (hk : page.objects.length ≤ k)
    (hview : (page.onMessage msg).objects[k]? = some view) (hid : view.id = s₀.idCounter)
    (hedited : view.Edited view') :
    (view'.applyButton = true ↔ ∃ p ∈ properties, p.type.isIndependent = false) ∧
      ∀ c, view'.Clickable c → view'.IsText scriptValue →
        ∃ request, view'.onClick scriptValue c = .ok request ∧
          s.Invokes request ⟨callback, s₀.idCounter,
            (ModuleProperty.reported properties c).map Int32.ofNat,
            (ModuleProperty.reported properties c).map (view'.shown scriptValue)⟩ := by
  have hs := (hs₀.snoc hst).append hs₁
  have hreg := registration?_of_run hs₁
    (registration?_of_wrapper (kept_of_runs hs₀) (transition_of_step hst) ht)
  have hdocuments := documents_of_describes hs hreg hmsg hk hview hid hedited
  refine ⟨hdocuments.applyButton_iff, fun c hc htext => ?_⟩
  obtain ⟨hne, hlt⟩ := hdocuments.reported_spec hc
  have hshown := hdocuments.shown_spec scriptValue hc htext
  obtain ⟨hutf8, hclick⟩ := hdocuments.exists_onClick scriptValue hc htext hlen
  refine ⟨_, hclick, ?_⟩
  generalize ModuleProperty.reported properties c = ks at hne hlt hshown hutf8 ⊢
  -- The property ids are positions in the list, so none is negative at the host.
  have hnonneg : ∀ u ∈ ks.map fun j => (Int32.ofNat j, view'.shown scriptValue j),
      0 ≤ u.1.toInt := by
    intro u hu
    obtain ⟨j, hj, rfl⟩ := List.mem_map.1 hu
    rw [Int32.toInt_ofNat_of_lt ((hlt j hj).trans hlen)]
    exact Int.natCast_nonneg _
  have hids : (ks.map fun j => (Int32.ofNat j, view'.shown scriptValue j)).map Prod.fst =
      ks.map Int32.ofNat := by
    simp [Function.comp_def]
  have hvals : ((ks.map fun j => (Int32.ofNat j, view'.shown scriptValue j)).map
      fun u => u.2.cString) = ks.map (view'.shown scriptValue) := by
    rw [List.map_map]
    exact List.map_congr_left fun j hj => (hshown j hj).2
  rw [← hids, ← hvals]
  exact invokes_of_request hs hreg (by simpa using hne) hnonneg hutf8

/-- Scripts that show their value. -/
def plain : Script where
  Obj := Str
  construct := some
  setValue _ := some

def person : List ModuleProperty :=
  [⟨.text, lit "Name", []⟩, ⟨.button, lit "Clear", []⟩, ⟨.buttonSw, lit "Admin", lit "1"⟩]

/-- The module as it is rendered. -/
def personView (name : Str) (admin : Bool) : ModuleView plain where
  id := 0
  name := lit "Add Person"
  properties := [⟨0, .text, lit "Name", .text name⟩, ⟨1, .button, lit "Clear", .button⟩,
    ⟨2, .buttonSw, lit "Admin", .checkbox admin⟩]
  applyButton := true

theorem isText_personView {name : Str} (admin : Bool) (hutf8 : name.isUtf8 = true)
    (hnul : 0 ∉ name) : (personView name admin).IsText id := by
  rintro v (_ | ⟨_, _ | ⟨_, _ | ⟨_, ⟨⟩⟩⟩⟩)
  · exact ⟨hutf8, hnul⟩
  · exact ⟨by decide, by decide⟩
  · cases admin <;> exact ⟨by decide, by decide⟩

/-- The module is registered, and rendered for a web client, which edits it. -/
theorem exists_person : ∃ (s₀ s₁ s : Instance) (q : List Task) (msg : Text),
    Instance.Runs [.connecting false, .task, .flush,
      SacsWrapper.registerModule (lit "Add Person") person (some 0)] s₀ ∧
    Takes s₀ (.doRegisterModule (SacsWrapper.toModule (-1) (lit "Add Person") person 0) .app) q ∧
    s₀.idCounter = 0 ∧ s₀.step .task = .ok s₁ ∧ s₁.step (.wsConnected 0) = .ok s ∧
    s.modules.find? 0 = some (SacsWrapper.toModule 0 (lit "Add Person") person 0) ∧
    (s.wsClients 0).isSome ∧ s.web 0 = .idle ∧ s.loop = .idle ∧ s.threadLoop = [] ∧
    s.invocations = [] ∧ s.Describes msg ∧
    (({} : Page plain).onMessage msg).objects[0]? = some (personView [] true) ∧
    ∀ name admin, (personView [] true).Edited (personView name admin) := by
  obtain ⟨u, s, hu, h, hobs⟩ := Lts.exists_runs_of_foldlM (fun _ _ => True) Instance.step .disabled
    {} [.connecting false, .task, .flush]
    [SacsWrapper.registerModule (lit "Add Person") person (some 0), .task, .wsConnected 0]
    (fun u s => decide ((u.loop.isIdle ∧ u.threadLoop.length = 0 ∧ u.idCounter = 0) ∧
      s.modules.find? 0 = some (SacsWrapper.toModule 0 (lit "Add Person") person 0) ∧
      (s.wsClients 0).isSome ∧ (s.web 0).isIdle ∧ s.loop.isIdle ∧ s.threadLoop.length = 0 ∧
      s.invocations = [])) true (by decide +kernel)
  simp only [decide_eq_true_eq, List.length_eq_zero_iff] at hobs
  obtain ⟨⟨hloop, hnil, hcounter⟩, hm, hw, hweb, hidle, hq, hinvs⟩ := hobs
  obtain ⟨s₀, ⟨-, h₀⟩, h⟩ := h.uncons
  obtain ⟨s₁, ⟨-, h₁⟩, h⟩ := h.uncons
  obtain ⟨s₂, ⟨-, h₂⟩, h⟩ := h.uncons
  obtain rfl := h.eq_of_nil
  obtain ⟨msg, hmsg⟩ := (exists_createModuleAdded
    (m := SacsWrapper.toModule 0 (lit "Add Person") person 0)).2 ⟨by decide, by decide⟩
  have hview : (({} : Page plain).onMessage msg).objects[0]? = some (personView [] true) := by
    rw [Page.onMessage_eq, Page.msgOf_createModuleAdded hmsg]
    rfl
  have hs₀ := hu.snoc h₀
  cases Except.ok.inj h₀
  have hposts : (ModuleManager.registerModule u
      (SacsWrapper.toModule (-1) (lit "Add Person") person 0) .app).threadLoop =
        [.doRegisterModule (SacsWrapper.toModule (-1) (lit "Add Person") person 0) .app] := by
    simp [ModuleManager.registerModule, Instance.post, hnil]
  exact ⟨_, s₁, s, [], msg, hs₀, ⟨LoopPc.eq_idle hloop, hposts⟩, hcounter, h₁, h₂, hm, hw,
    WebPc.eq_idle hweb, LoopPc.eq_idle hidle, hq, hinvs, .inl ⟨0, _, hm, hmsg⟩, hview,
    fun name admin => ⟨rfl, rfl, .cons ⟨rfl, rfl, rfl, .text⟩ (.cons ⟨rfl, rfl, rfl, .button⟩
      (.cons ⟨rfl, rfl, rfl, .checkbox⟩ .nil)), rfl⟩⟩

/-- The user enters a name, switches the admin off, and clicks `Apply`: the callback is
    called by the next task. -/
theorem invokes_of_click_apply : ∃ (s s' s'' : Instance) (request : Text),
    (personView (lit "Ada") false).onClick id .apply = .ok request ∧
    s.step (.wsMessage 0 ⟨request, false⟩) = .ok s' ∧ s'.step .task = .ok s'' ∧
    s''.invocations = [⟨0, 0, [0, 2], [lit "Ada", lit "0"]⟩] := by
  obtain ⟨s₀, s₁, s, q, msg, hs₀, ht, hid, h₁, h₂, hm, hw, hweb, hidle, hq, hinvs, hmsg, hview,
    hedited⟩ := exists_person
  obtain ⟨request, hrequest, hinvokes⟩ := (invokes_of_click id hs₀ ht h₁ (.single h₂)
    (by decide) hmsg le_rfl hview hid.symm (hedited (lit "Ada") false)).2 .apply rfl
    (isText_personView false (by decide) (by decide))
  obtain ⟨⟨t, hst, hinvs', hnext⟩, -⟩ := hinvokes [] 0 s .nil hw hweb
  have hpost : t.loop = s.loop ∧ t.modules = s.modules := by
    cases transition_of_step hst with
    | wsLarge => exact ⟨rfl, rfl⟩
    | wsNotJson => exact ⟨rfl, rfl⟩
    | wsRequest => exact ⟨rfl, rfl⟩
  obtain ⟨t', hst', hinvs''⟩ := hnext [] t .nil (by rw [hq]; rfl) (hpost.1.trans hidle)
    (by rw [hpost.2, hid, hm]; rfl)
  rw [hid, hinvs', hinvs, List.nil_append] at hinvs''
  exact ⟨s, t, t', request, hrequest, hst, hst', hinvs''⟩

/-- The user enters a name of 64 MiB. The network library keeps the request on the drive, and
    the host drops it: the callback is not called. -/
theorem not_invokes_of_large : ∃ (s₀ s₁ s : Instance) (q : List Task) (msg request : Text),
    Instance.Runs [.connecting false, .task, .flush,
      SacsWrapper.registerModule (lit "Add Person") person (some 0)] s₀ ∧
    Takes s₀ (.doRegisterModule (SacsWrapper.toModule (-1) (lit "Add Person") person 0) .app) q ∧
    s₀.step .task = .ok s₁ ∧ s₁.step (.wsConnected 0) = .ok s ∧ s.Describes msg ∧
    (({} : Page plain).onMessage msg).objects[0]? = some (personView [] true) ∧
    (personView [] true).Edited (personView (letters (2 ^ 26)) false) ∧
    (personView (letters (2 ^ 26)) false).IsText id ∧
    (personView (letters (2 ^ 26)) false).onClick id .apply = .ok request ∧
    s.step (.wsMessage 0 ⟨request, true⟩) = .ok s ∧ s.threadLoop = [] ∧ s.invocations = [] := by
  obtain ⟨s₀, s₁, s, q, msg, hs₀, ht, hid, h₁, h₂, hm, hw, hweb, hidle, hq, hinvs, hmsg, hview,
    hedited⟩ := exists_person
  have hs := (hs₀.snoc h₁).snoc h₂
  have hreg := registration?_of_run (.single h₂)
    (registration?_of_wrapper (kept_of_runs hs₀) (transition_of_step h₁) ht)
  have htext := isText_personView false (isUtf8_letters (2 ^ 26)) (zero_notMem_letters _)
  obtain ⟨hutf8, hclick⟩ := (documents_of_describes hs hreg hmsg le_rfl hview hid.symm
    (hedited (letters (2 ^ 26)) false)).exists_onClick (c := .apply) id rfl htext (by decide)
  exact ⟨s₀, s₁, s, q, msg, _, hs₀, ht, h₁, h₂, hmsg, hview, hedited _ _, htext, hclick,
    Instance.step_wsMessage_large _ hw hweb, hq, hinvs⟩

end Sacs
