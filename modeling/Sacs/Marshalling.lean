import Sacs.Wrapper

/-!
# The C interface

There are two classes `SacsWrapper` with the same interface. One calls the module manager
(`SacsWrapperNoLib`), the other one the C functions of a library that calls the module
manager (`SacsLib`): it hands a list over as arrays, one for each member, and a string as
an array of characters that ends with a NUL character.

* A string comes out cut at its first NUL character (`cString_strToChrA`). The functions of
  the library read no element of an array that is not assigned, as long as the number of
  elements is an `int`, and call the module manager with the lists they were called with,
  and these strings (`registerModule_registerArgs`, `updateProperties_updateArgs`).
* So the classes do the same if and only if no string has a NUL character. The values that
  a callback reads are cut as well (`transparent`).
-/

namespace Sacs

open JsonMsg ModuleManager

theorem Str.cString_eq_self_iff {s : Str} : s.cString = s ↔ 0 ∉ s := by
  refine ⟨fun h hmem => ?_, cString_eq⟩
  have hne := List.takeWhile_eq_self_iff.1 h 0 hmem
  exact absurd hne (by decide)

/-! ## Without the library -/

namespace SacsWrapperNoLib

/-- What `RegisterModule` makes of a property. -/
def toProperty (p : ModuleProperty) : Property :=
  { type := p.type.toInt
    name := p.name
    value := p.defaultValue
    readOnly := SacsWrapper.isPropertyTypeForReadOnly p.type }

def registerModule (name : Str) (properties : List ModuleProperty)
    (callback : Option Callback) : Action :=
  .registerModule name (properties.map toProperty) callback

def updateProperties (moduleId : Int32) (properties : Updates) : Action :=
  .updateProperties moduleId properties

end SacsWrapperNoLib

/-! ## With the library -/

namespace SacsLib

/-- The arguments of `register_module`, arrays as the lists of their elements assigned, and
    strings as arrays of characters. -/
structure RegisterArgs where
  moduleName : Str
  propertiesCount : Int32
  propertTypes : List Int32
  propertiesNames : List Str
  propertiesDefaults : List Str
  propertiesReadOnly : List UInt8
  callback : Option Callback

/-- The call of the module manager, unless an element is read that is not assigned. -/
def registerModule (args : RegisterArgs) : Option Action := do
  let vecProps ← (List.range args.propertiesCount.toInt.toNat).mapM fun i => do
    let type ← args.propertTypes[i]?
    let name ← args.propertiesNames[i]?
    let value ← args.propertiesDefaults[i]?
    let readOnly ← args.propertiesReadOnly[i]?
    return { type, name := name.cString, value := value.cString, readOnly := readOnly ≠ 0 }
  return .registerModule args.moduleName.cString vecProps args.callback

/-- The arguments of `update_properties`. -/
structure UpdateArgs where
  moduleId : Int32
  propertiesCount : Int32
  propertyIds : List Int32
  propertiesValues : List Str

def updateProperties (args : UpdateArgs) : Option Action := do
  let properties ← (List.range args.propertiesCount.toInt.toNat).mapM fun i => do
    let id ← args.propertyIds[i]?
    let value ← args.propertiesValues[i]?
    return (id, value.cString)
  return .updateProperties args.moduleId properties

end SacsLib

/-- The characters copied, up to the first NUL character, which comes last. -/
def strcpy (s : Str) : Str := s.cString ++ [0]

namespace SacsWrapper

def strToChrA (str : Str) : Str := if str ≠ [] then strcpy str else [0]

/-- The elements the loop of a function visits, whose counter is an `int`. -/
def visited {α : Type} (properties : List α) : List α :=
  properties.take (Int32.ofInt properties.length).toInt.toNat

/-- What `RegisterModule` calls `register_module` with. -/
def registerArgs (name : Str) (properties : List ModuleProperty) (callback : Option Callback) :
    SacsLib.RegisterArgs where
  moduleName := name ++ [0]
  propertiesCount := Int32.ofInt properties.length
  propertTypes := (visited properties).map (·.type.toInt)
  propertiesNames := (visited properties).map fun p => strToChrA p.name
  propertiesDefaults := (visited properties).map fun p => strToChrA p.defaultValue
  propertiesReadOnly := (visited properties).map fun p =>
    if isPropertyTypeForReadOnly p.type then 1 else 0
  callback

/-- What `UpdateProperties` calls `update_properties` with. -/
def updateArgs (moduleId : Int32) (properties : Updates) : SacsLib.UpdateArgs where
  moduleId
  propertiesCount := Int32.ofInt properties.length
  propertyIds := (visited properties).map Prod.fst
  propertiesValues := (visited properties).map fun p => strcpy p.2

theorem cString_append_zero (s : Str) : (s ++ [0]).cString = s.cString := by
  induction s with
  | nil => rfl
  | cons b s ih =>
    rw [List.cons_append, Str.cString, Str.cString, List.takeWhile_cons, List.takeWhile_cons]
    split_ifs
    · exact congrArg (b :: ·) ih
    · rfl

theorem cString_cString (s : Str) : s.cString.cString = s.cString := by
  rw [Str.cString_eq_self_iff]
  intro h
  exact absurd (List.mem_takeWhile_imp h) (by decide)

theorem cString_strcpy (s : Str) : (strcpy s).cString = s.cString := by
  rw [strcpy, cString_append_zero, cString_cString]

/-- Reading the characters gives the string up to its first NUL character. -/
theorem cString_strToChrA (s : Str) : (strToChrA s).cString = s.cString := by
  rw [strToChrA]
  split_ifs with h
  · exact cString_strcpy s
  · rw [not_not.1 h]
    rfl

theorem visited_eq {α : Type} {properties : List α} (h : properties.length < 2 ^ 31) :
    visited properties = properties ∧
      (Int32.ofInt properties.length).toInt.toNat = properties.length := by
  have hcount : (Int32.ofInt properties.length).toInt = properties.length :=
    Int32.toInt_ofInt_of_le (by omega) (by omega)
  rw [visited, hcount, Int.toNat_natCast]
  exact ⟨List.take_length, rfl⟩

/-- What a loop over the elements of a list makes of them. -/
theorem mapM_range {α β : Type} (l : List α) (f : Nat → Option β) (g : α → β)
    (hf : ∀ i a, l[i]? = some a → f i = some (g a)) :
    (List.range l.length).mapM f = some (l.map g) := by
  induction l using List.reverseRecOn with
  | nil => rfl
  | append_singleton l a ih =>
    have hinit : (List.range l.length).mapM f = some (l.map g) := ih fun i b hb =>
      hf i b ((List.getElem?_append_left (List.getElem?_eq_some_iff.1 hb).1).trans hb)
    have hlast : f l.length = some (g a) := hf _ a List.getElem?_concat_length
    rw [List.length_append, List.length_singleton, List.range_succ, List.mapM_append, hinit,
      List.mapM_cons, hlast, List.map_append]
    rfl

/-- The module that is registered: its strings are cut. -/
theorem registerModule_registerArgs (name : Str) {properties : List ModuleProperty}
    (h : properties.length < 2 ^ 31) (callback : Option Callback) :
    SacsLib.registerModule (registerArgs name properties callback) =
      some (registerModule name properties callback) := by
  obtain ⟨hvisited, hcount⟩ := visited_eq h
  rw [SacsLib.registerModule, registerArgs, hvisited]
  simp only [hcount, cString_append_zero]
  rw [mapM_range properties _ toProperty]
  · rfl
  · intro i p hp
    simp only [List.getElem?_map, hp, Option.map_some, Option.bind_eq_bind, Option.bind_some,
      cString_strToChrA, Option.pure_def, Option.some.injEq]
    rw [toProperty]
    cases isPropertyTypeForReadOnly p.type <;> rfl

/-- The updates that are saved: their values are cut. -/
theorem updateProperties_updateArgs (id : Int32) {ps : Updates} (h : ps.length < 2 ^ 31) :
    SacsLib.updateProperties (updateArgs id ps) =
      some (.updateProperties id (ps.map fun u => (u.1, u.2.cString))) := by
  obtain ⟨hvisited, hcount⟩ := visited_eq h
  rw [SacsLib.updateProperties, updateArgs, hvisited]
  simp only [hcount]
  rw [mapM_range ps _ fun u => (u.1, u.2.cString)]
  · rfl
  · intro i u hu
    simp only [List.getElem?_map, hu, Option.map_some, Option.bind_eq_bind, Option.bind_some,
      cString_strcpy, Option.pure_def]

end SacsWrapper

/-! ## What gets through -/

/-- The updates with their values as C strings are the same if there is no NUL character. -/
theorem map_cString_eq_self_iff {ps : Updates} :
    (ps.map fun u => (u.1, u.2.cString)) = ps ↔ ∀ u ∈ ps, 0 ∉ u.2 := by
  have hid : (ps.map fun u => (u.1, u.2.cString)) = ps ↔
      (ps.map fun u => (u.1, u.2.cString)) = ps.map id := by rw [List.map_id]
  rw [hid, List.map_inj_left]
  simp only [id_eq, Prod.ext_iff, true_and, Str.cString_eq_self_iff]

theorem SacsWrapper.registerModule_eq_iff {name : Str} {properties : List ModuleProperty}
    {callback : Option Callback} :
    SacsWrapper.registerModule name properties callback =
        SacsWrapperNoLib.registerModule name properties callback ↔
      0 ∉ name ∧ ∀ p ∈ properties, 0 ∉ p.name ∧ 0 ∉ p.defaultValue := by
  simp only [registerModule, SacsWrapperNoLib.registerModule, Action.registerModule.injEq,
    Str.cString_eq_self_iff, and_true, List.map_inj_left]
  refine and_congr_right fun _ => forall₂_congr fun p _ => ?_
  simp [toProperty, SacsWrapperNoLib.toProperty, Str.cString_eq_self_iff]

/-- The updates passed to a module are saved in it, and its callback reads them. -/
theorem Passes.reads {s s' : Instance} {json : JsonMsg} (h : Passes s json s') {inv : Invocation}
    (hinv : s'.invocations = s.invocations ++ [inv]) :
    ∃ m m' ps json', json.getPropertiesList = .ok (ps, json') ∧
      s.modules.find? inv.moduleId = some m ∧ m.save ps = .ok m' ∧
      s'.modules.find? inv.moduleId = some m' ∧
      inv.propIds.zip inv.propVals = ps.map fun u => (u.1, u.2.cString) := by
  have hnone : s.invocations ≠ s.invocations ++ [inv] := by simp
  cases h with
  | nothing => exact absurd hinv hnone
  | unrouted =>
    refine absurd (Eq.trans ?_ hinv) hnone
    simp [Instance.invocations, Instance.saved, Event.invocation?]
  | sent =>
    refine absurd (Eq.trans ?_ hinv) hnone
    simp [Instance.invocations, Instance.saved, Event.invocation?]
  | @invoked id m m' ps json' callback _ hm hps _ hm' =>
    have hlast : (invoke (s.saved id ps m') callback id ps).invocations = s.invocations ++
        [⟨callback, id, ps.map Prod.fst, ps.map fun u => u.2.cString⟩] := by
      simp only [Instance.invocations, Instance.saved, invoke, Instance.log,
        List.filterMap_append, List.append_assoc]
      rfl
    obtain rfl := List.singleton_inj.1 (List.append_cancel_left (hlast.symm.trans hinv))
    refine ⟨m, m', ps, json', hps, hm, hm', ?_, ?_⟩
    · change (s.modules.modify id fun _ => m').find? id = some m'
      rw [OrdMap.find?_modify, if_pos rfl, hm]
      rfl
    · rw [List.zip_map']

theorem Takes.reads {s s' : Instance} {t : Task} {q : List Task} {json : JsonMsg} (ht : Takes s t q)
    (hjson : t.passed? = some json) (h : s.step .task = .ok s') {inv : Invocation}
    (hinv : s'.invocations = s.invocations ++ [inv]) :
    ∃ m m' ps json', json.getPropertiesList = .ok (ps, json') ∧
      s.modules.find? inv.moduleId = some m ∧ m.save ps = .ok m' ∧
      s'.modules.find? inv.moduleId = some m' ∧
      inv.propIds.zip inv.propVals = ps.map fun u => (u.1, u.2.cString) := by
  rw [ht.step_task] at h
  cases t with
  | doProcessJSRequest json' w =>
    rw [Task.passed?] at hjson
    split_ifs at hjson with htype
    obtain rfl := Option.some.inj hjson
    rw [runTask, doProcessJSRequest, htype] at h
    obtain ⟨s₁, hs₁, h⟩ := bind_eq_ok.1 h
    cases h
    rw [invocations_answer] at hinv
    rw [answer_modules]
    exact (passes_of_passPropertyUpdateToModule hs₁).reads hinv
  | passPropertyUpdateToModule json' =>
    obtain rfl := Option.some.inj hjson
    exact (passes_of_passPropertyUpdateToModule h).reads hinv
  | _ => cases hjson

/-- The library registers the same module, saves the same updates, and calls callbacks
    with the updates that were saved, if and only if no string has a NUL character. -/
theorem transparent :
    (∀ (name : Str) (properties : List ModuleProperty) (callback : Option Callback),
      properties.length < 2 ^ 31 →
      (SacsLib.registerModule (SacsWrapper.registerArgs name properties callback) =
          some (SacsWrapperNoLib.registerModule name properties callback) ↔
        0 ∉ name ∧ ∀ p ∈ properties, 0 ∉ p.name ∧ 0 ∉ p.defaultValue)) ∧
    (∀ (id : Int32) (ps : Updates), ps.length < 2 ^ 31 →
      (SacsLib.updateProperties (SacsWrapper.updateArgs id ps) =
          some (SacsWrapperNoLib.updateProperties id ps) ↔ ∀ u ∈ ps, 0 ∉ u.2)) ∧
    ∀ (s s' : Instance) (t : Task) (q : List Task) (json : JsonMsg) (inv : Invocation),
      Takes s t q → t.passed? = some json → s.step .task = .ok s' →
      s'.invocations = s.invocations ++ [inv] →
      ∃ m m' ps json', json.getPropertiesList = .ok (ps, json') ∧
        s.modules.find? inv.moduleId = some m ∧ m.save ps = .ok m' ∧
        s'.modules.find? inv.moduleId = some m' ∧
        (inv.propIds.zip inv.propVals = ps ↔ ∀ u ∈ ps, 0 ∉ u.2) := by
  refine ⟨fun name properties callback h => ?_, fun id ps h => ?_,
    fun s s' t q json inv ht hjson hst hinv => ?_⟩
  · rw [SacsWrapper.registerModule_registerArgs name h, Option.some.injEq]
    exact SacsWrapper.registerModule_eq_iff
  · rw [SacsWrapper.updateProperties_updateArgs id h, Option.some.injEq,
      SacsWrapperNoLib.updateProperties, Action.updateProperties.injEq, eq_self_iff_true, true_and]
    exact map_cString_eq_self_iff
  · obtain ⟨m, m', ps, json', hps, hm, hm', hfind, hreads⟩ := ht.reads hjson hst hinv
    refine ⟨m, m', ps, json', hps, hm, hm', hfind, ?_⟩
    rw [hreads]
    exact map_cString_eq_self_iff

/-- Text gets through. -/
theorem transparent_of_text :
    SacsLib.registerModule (SacsWrapper.registerArgs (Str.lit "Fan")
        [⟨.text, Str.lit "Speed", Str.lit "3"⟩, ⟨.button, Str.lit "Stop", []⟩] none) =
      some (SacsWrapperNoLib.registerModule (Str.lit "Fan")
        [⟨.text, Str.lit "Speed", Str.lit "3"⟩, ⟨.button, Str.lit "Stop", []⟩] none) ∧
    SacsLib.updateProperties (SacsWrapper.updateArgs 0 [(0, Str.lit "4"), (0, [])]) =
      some (SacsWrapperNoLib.updateProperties 0 [(0, Str.lit "4"), (0, [])]) :=
  ⟨(transparent.1 _ _ _ (by decide)).2 (by decide), (transparent.2.1 _ _ (by decide)).2 (by decide)⟩

/-- The name of a module is cut at its NUL character. -/
theorem not_transparent_of_nul :
    SacsLib.registerModule (SacsWrapper.registerArgs [97, 0, 98] [] none) =
      some (.registerModule [97] [] none) ∧
    SacsLib.registerModule (SacsWrapper.registerArgs [97, 0, 98] [] none) ≠
      some (SacsWrapperNoLib.registerModule [97, 0, 98] [] none) := by
  have hcut : SacsLib.registerModule (SacsWrapper.registerArgs [97, 0, 98] [] none) =
      some (.registerModule [97] [] none) :=
    SacsWrapper.registerModule_registerArgs [97, 0, 98] (by decide) none
  refine ⟨hcut, fun h => ?_⟩
  rw [hcut, Option.some.injEq, SacsWrapperNoLib.registerModule, Action.registerModule.injEq] at h
  exact absurd h.1 (by decide)

end Sacs
