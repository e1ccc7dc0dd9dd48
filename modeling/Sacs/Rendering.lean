import Sacs.Activation

/-!
# Rendering

The page makes an object for every property of a module, in order, and gives it the
number of objects made before as its id. It makes none for a type it does not know.

* The object made for a property (`Module.Makes`) shows it, and its id is its place
  among the objects, the number of properties before of a type the page knows
  (`Module.Makes.getElem?`).
* So the page and the host mean the same property by an id if and only if no property of
  a known type comes after one of an unknown type (`aligned_iff`).
-/

namespace Sacs

open JsonMsg

variable {S : Script}

/-- The page knows the type of the property. -/
def Property.known (p : Property) : Bool := (PropertyType.fromId p.type).isSome

/-- The object is one for this property, with its value. -/
structure PropertyView.Shows (p : Property) (v : PropertyView S) : Prop where
  type : PropertyType.fromId p.type = some v.type
  label : v.label = p.name
  input : PropertyView.create S v.type p.value = some v.input

namespace ModuleView

variable {view view' : ModuleView S}

theorem addProperty_of_known {p : Property} (h : view.addProperty p = some view')
    (hp : p.known = true) : ∃ v : PropertyView S, view'.properties = view.properties ++ [v] ∧
      v.Shows p ∧ v.id = view.properties.length := by
  obtain ⟨type, htype⟩ := Option.isSome_iff_exists.1 hp
  simp only [addProperty, htype, Option.map_eq_some_iff] at h
  obtain ⟨input, hinput, rfl⟩ := h
  exact ⟨_, rfl, ⟨htype, rfl, hinput⟩, rfl⟩

theorem addProperty_of_unknown {p : Property} (h : view.addProperty p = some view')
    (hp : p.known = false) : view' = view := by
  have htype : PropertyType.fromId p.type = none := by
    simpa [Property.known] using hp
  simp only [addProperty, htype, Option.some.injEq] at h
  exact h.symm

/-- The loop appends an object for every property of a known type. -/
theorem append_of_addProperty {ps : List Property}
    (h : ps.foldlM ModuleView.addProperty view = some view') :
    ∃ vs, view'.properties = view.properties ++ vs ∧ vs.length = ps.countP Property.known := by
  induction ps using List.reverseRecOn generalizing view' with
  | nil =>
    cases h
    exact ⟨[], (List.append_nil _).symm, rfl⟩
  | append_singleton ps p ih =>
    rw [List.foldlM_append, Option.bind_eq_bind, Option.bind_eq_some_iff] at h
    obtain ⟨view₁, h₁, h⟩ := h
    rw [List.foldlM_cons, Option.bind_eq_bind, Option.bind_eq_some_iff] at h
    obtain ⟨view₂, h₂, h⟩ := h
    cases h
    obtain ⟨vs, hvs, hlen⟩ := ih h₁
    rw [List.countP_append, List.countP_singleton]
    cases hp : p.known with
    | true =>
      obtain ⟨v, hv, -⟩ := addProperty_of_known h₂ hp
      exact ⟨vs ++ [v], by rw [hv, hvs, List.append_assoc], by simp [hlen]⟩
    | false =>
      rw [addProperty_of_unknown h₂ hp]
      exact ⟨vs, hvs, by simpa using hlen⟩

end ModuleView

/-- The object `v` is made for the property `i` of the module. -/
def Module.Makes (m : Module) (i : Nat) (v : PropertyView S) : Prop :=
  ∃ before after p,
    (m.properties.take i).foldlM ModuleView.addProperty { id := m.id, name := m.name } =
      some before ∧
    m.properties[i]? = some p ∧ before.addProperty p = some after ∧
    after.properties = before.properties ++ [v]

/-- The number of objects made before that for the property `i`. -/
def Module.made (m : Module) (i : Nat) : Nat := (m.properties.take i).countP Property.known

theorem Module.split_properties {m : Module} {i : Nat} {p : Property}
    (hp : m.properties[i]? = some p) :
    m.properties = m.properties.take i ++ p :: m.properties.drop (i + 1) := by
  obtain ⟨hi, rfl⟩ := List.getElem?_eq_some_iff.1 hp
  rw [← List.drop_eq_getElem_cons hi, List.take_append_drop]

/-- The loop up to the property `i`, and on. -/
theorem ModuleView.Renders.split {m : Module} {view : ModuleView S} (h : view.Renders m) {i : Nat}
    {p : Property} (hp : m.properties[i]? = some p) :
    ∃ before after vs : ModuleView S,
      (m.properties.take i).foldlM ModuleView.addProperty { id := m.id, name := m.name } =
        some before ∧
      before.addProperty p = some after ∧
      (m.properties.drop (i + 1)).foldlM ModuleView.addProperty after = some vs ∧
      view.properties = vs.properties := by
  obtain ⟨view₀, hview₀, rfl⟩ := h
  rw [m.split_properties hp, List.foldlM_append, Option.bind_eq_bind,
    Option.bind_eq_some_iff] at hview₀
  obtain ⟨before, hbefore, h⟩ := hview₀
  rw [List.foldlM_cons, Option.bind_eq_bind, Option.bind_eq_some_iff] at h
  obtain ⟨after, hafter, h⟩ := h
  exact ⟨before, after, view₀, hbefore, hafter, h, rfl⟩

/-- An object is made for every property of a known type, which shows it. Its id is its
    place among the objects. -/
theorem Module.Makes.getElem? {m : Module} {view : ModuleView S} (h : view.Renders m) {i : Nat}
    {v : PropertyView S} (hv : m.Makes i v) :
    view.properties[m.made i]? = some v ∧ v.id = m.made i ∧
      ∃ p, m.properties[i]? = some p ∧ v.Shows p := by
  obtain ⟨before, after, p, hbefore, hp, hafter, happend⟩ := hv
  obtain ⟨before', after', view₀, hbefore', hafter', hview₀, hproperties⟩ := h.split hp
  obtain rfl : before = before' := Option.some.inj (hbefore.symm.trans hbefore')
  obtain rfl : after = after' := Option.some.inj (hafter.symm.trans hafter')
  have hmade : before.properties.length = m.made i := by
    obtain ⟨vs, hvs, hlen⟩ := ModuleView.append_of_addProperty hbefore
    rw [hvs]
    exact (congrArg List.length (List.nil_append vs)).trans hlen
  have hknown : p.known = true := by
    by_contra hno
    rw [ModuleView.addProperty_of_unknown hafter (by simpa using hno)] at happend
    exact absurd (congrArg List.length happend) (by simp)
  obtain ⟨v', hv', hshows, hid⟩ := ModuleView.addProperty_of_known hafter hknown
  obtain rfl : v = v' := by
    have := happend.symm.trans hv'
    exact List.singleton_inj.1 (List.append_cancel_left this)
  obtain ⟨vs, hvs, -⟩ := ModuleView.append_of_addProperty hview₀
  refine ⟨?_, hid.trans hmade, p, hp, hshows⟩
  rw [hproperties, hvs, happend, List.append_assoc, ← hmade, List.getElem?_append_right le_rfl,
    Nat.sub_self]
  rfl

theorem Module.exists_makes {m : Module} {view : ModuleView S} (h : view.Renders m) {i : Nat}
    {p : Property} (hp : m.properties[i]? = some p) (hknown : p.known = true) :
    ∃ v : PropertyView S, m.Makes i v := by
  obtain ⟨before, after, vs, hbefore, hafter, -⟩ := h.split hp
  obtain ⟨v, hv, -⟩ := ModuleView.addProperty_of_known hafter hknown
  exact ⟨v, before, after, p, hbefore, hp, hafter, hv⟩

/-- Every object made has the index of its property as its id, and is there. -/
def ModuleView.Aligned (m : Module) (view : ModuleView S) : Prop :=
  ∀ (i : Nat) (v : PropertyView S), m.Makes i v → v.id = i ∧ view.properties[i]? = some v

/-- No property of a known type comes after one of an unknown type. -/
def Module.KnownFirst (m : Module) : Prop :=
  ∀ (i j : Nat) (p q : Property), i < j → m.properties[i]? = some p →
    m.properties[j]? = some q → q.known = true → p.known = true

theorem Module.made_eq_iff {m : Module} {i : Nat} (hi : i < m.properties.length) :
    m.made i = i ↔ ∀ j p, j < i → m.properties[j]? = some p → p.known = true := by
  have hlen : (m.properties.take i).length = i := by simp [hi.le]
  have hcount := List.countP_eq_length (p := Property.known) (l := m.properties.take i)
  rw [hlen] at hcount
  refine hcount.trans ⟨fun h j p hj hp => h p ?_, fun h p hp => ?_⟩
  · refine List.mem_of_getElem? (i := j) ?_
    rw [List.getElem?_take_of_lt hj, hp]
  · obtain ⟨j, hj⟩ := List.mem_iff_getElem?.1 hp
    have hji : j < i := by
      by_contra hno
      rw [List.getElem?_take_eq_none (not_lt.1 hno)] at hj
      cases hj
    rw [List.getElem?_take_of_lt hji] at hj
    exact h j p hji hj

theorem aligned_iff_knownFirst {m : Module} {view : ModuleView S} (h : view.Renders m) :
    view.Aligned m ↔ m.KnownFirst := by
  constructor
  · intro haligned i j p q hij hp hq hknown
    obtain ⟨v, hv⟩ := Module.exists_makes h hq hknown
    have hmade : m.made j = j := (hv.getElem? h).2.1.symm.trans (haligned j v hv).1
    obtain ⟨hj, -⟩ := List.getElem?_eq_some_iff.1 hq
    exact (Module.made_eq_iff hj).1 hmade i p hij hp
  · intro hfirst i v hv
    obtain ⟨hget, hid, p, hp, hshows⟩ := hv.getElem? h
    obtain ⟨hi, -⟩ := List.getElem?_eq_some_iff.1 hp
    have hknown : p.known = true := by
      rw [Property.known, hshows.type]
      rfl
    have hmade : m.made i = i := (Module.made_eq_iff hi).2 fun j q hj hq =>
      hfirst j i q p hj hq hp hknown
    rw [hmade] at hget hid
    exact ⟨hid, hget⟩

/-- The objects the page makes for a module registered have the ids that their properties
    have in the host if and only if no property of a known type comes after one of an
    unknown type. -/
theorem aligned_iff {as : List Action} {s : Instance} (h : Instance.Runs as s) {msg : Text}
    (hmsg : s.Describes msg) {page : Page S} {k : Nat} {view : ModuleView S}
    (hview : (page.onMessage msg).objects[k]? = some view) (hk : page.objects.length ≤ k) :
    ∃ m, s.modules.find? view.id = some m ∧ (view.Aligned m ↔ m.KnownFirst) := by
  obtain ⟨id, m, hm, hrenders⟩ := renders_of_describes hmsg hview hk
  have hid : view.id = id := hrenders.id_eq.trans ((fresh_of_runs h).key hm).1
  exact ⟨m, hid ▸ hm, aligned_iff_knownFirst hrenders⟩

/-- A module with a property of a type the page does not know, which comes last. -/
def lamp : Module :=
  ⟨0, Str.lit "Lamp", [⟨3, Str.lit "State", Str.lit "on", false⟩,
    ⟨42, Str.lit "Colour", Str.lit "red", false⟩], none⟩

theorem aligned_iff_lamp : ∃ s msg view,
    Instance.Runs [.registerModule lamp.name lamp.properties none, .task] s ∧ s.Describes msg ∧
    (({} : Page plain).onMessage msg).objects[0]? = some view ∧
    ∃ m, s.modules.find? view.id = some m ∧ (view.Aligned m ↔ m.KnownFirst) := by
  obtain ⟨s, h, hm⟩ := Instance.exists_runs
    [.registerModule lamp.name lamp.properties none, .task] (fun s => s.modules.find? 0)
    (some lamp) (by decide +kernel)
  obtain ⟨msg, hmsg⟩ := (exists_createModuleAdded (m := lamp)).2 ⟨by decide, by decide⟩
  have hdescribes : s.Describes msg := .inl ⟨0, lamp, hm, hmsg⟩
  have hview : (({} : Page plain).onMessage msg).objects[0]? =
      some ⟨0, Str.lit "Lamp", [⟨0, .text, Str.lit "State", .text (Str.lit "on")⟩], true⟩ := by
    rw [Page.onMessage_eq, Page.msgOf_createModuleAdded hmsg]
    rfl
  exact ⟨s, msg, _, h, hdescribes, hview, aligned_iff h hdescribes hview le_rfl⟩

/-- The same, but with this property first. -/
def lampColourFirst : Module := { lamp with properties := lamp.properties.reverse }

/-- The object made for the property `1` has the id `0`. -/
theorem not_aligned_of_lampColourFirst : ∃ s msg view,
    Instance.Runs [.registerModule lamp.name lampColourFirst.properties none, .task] s ∧
    s.Describes msg ∧ (({} : Page plain).onMessage msg).objects[0]? = some view ∧
    s.modules.find? view.id = some lampColourFirst ∧ ¬view.Aligned lampColourFirst := by
  obtain ⟨s, h, hm⟩ := Instance.exists_runs
    [.registerModule lamp.name lampColourFirst.properties none, .task] (fun s => s.modules.find? 0)
    (some lampColourFirst) (by decide +kernel)
  obtain ⟨msg, hmsg⟩ := (exists_createModuleAdded (m := lampColourFirst)).2 ⟨by decide, by decide⟩
  have hview : (({} : Page plain).onMessage msg).objects[0]? =
      some ⟨0, Str.lit "Lamp", [⟨0, .text, Str.lit "State", .text (Str.lit "on")⟩], true⟩ := by
    rw [Page.onMessage_eq, Page.msgOf_createModuleAdded hmsg]
    rfl
  refine ⟨s, msg, _, h, .inl ⟨0, _, hm, hmsg⟩, hview, hm, fun haligned => ?_⟩
  have hmakes : lampColourFirst.Makes 1
      (⟨0, .text, Str.lit "State", .text (Str.lit "on")⟩ : PropertyView plain) :=
    ⟨_, _, _, rfl, rfl, rfl, rfl⟩
  exact absurd (haligned 1 _ hmakes).1 (by decide)

end Sacs
