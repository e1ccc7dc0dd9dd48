import Sacs.Json
import Sacs.Module

/-!
# Messages

The messages exchanged by the instances and with the web interface, as JSON:
their parsing, with the detection of their type, the accessors the handlers
use, and the builders.

Decoding undoes encoding (`parse_createModuleAdded` and the like): what the
handlers of an instance read in a message is what the instance announcing it put
there.
-/

namespace Sacs

/-- The types of messages. -/
inductive MsgType
  | unknown
  | moduleAdd
  | moduleDel
  | propertyUpdate
  | reqLoad
  | reqApply
  deriving DecidableEq

/-- A message, possibly parsed from a text. -/
structure JsonMsg where
  json : Json := .null
  isValid : Bool := false
  type : MsgType := .unknown

namespace JsonMsg

open Str Json

/-! ### Accessors -/

def valueToString (json : Json) (key : Str) : Except Fault Str :=
  match json.find? key with
  | none => .ok []
  | some value => value.getString

def valueToInt (json : Json) (key : Str) : Except Fault Int32 :=
  match json.find? key with
  | none => .ok (-1)
  | some value => value.getInt

def detectType (json : Json) : Except Fault MsgType := do
  let type ← valueToString json (lit "type")
  return if type = lit "module_added" then .moduleAdd
    else if type = lit "module_removed" then .moduleDel
    else if type = lit "property_update" then .propertyUpdate
    else if type = lit "load" then .reqLoad
    else if type = lit "apply" then .reqApply
    else .unknown

/-- Parses a text. Only the parse error is caught: a `type` that is not a
    string throws. -/
def parse (str : Text) : Except Fault JsonMsg :=
  match str with
  | .other => .ok {}
  | .json j _ => do return { json := j, isValid := true, type := ← detectType j }

def toString (msg : JsonMsg) : Except Fault Text :=
  if msg.isValid then msg.json.dump else .ok .other

/-- One property of the JSON of a module; `read_only` is set if it is missing. -/
def toProperty (json : Json) : Except Fault Property := do
  let type ← valueToInt json (lit "type")
  let name ← valueToString json (lit "name")
  let value ← valueToString json (lit "value")
  let readOnly ← valueToInt json (lit "read_only")
  return { type, name, value, readOnly := readOnly ≠ 0 }

/-- The module of a message, or null if it has none. -/
def toModule (msg : JsonMsg) : Except Fault (Option Module) :=
  match msg.json.find? (lit "module") with
  | none => .ok none
  | some jmodule => do
    let id ← valueToInt jmodule (lit "id")
    let name ← valueToString jmodule (lit "name")
    let (jproperties, _) ← jmodule.index (lit "properties")
    let properties ← (← jproperties.elements).mapM toProperty
    return some { id, name, properties, callback := none }

def findId (msg : JsonMsg) : Except Fault Int32 :=
  match msg.type with
  | .moduleAdd =>
    match msg.json.find? (lit "module") with
    | none => .ok (-1)
    | some jmodule => valueToInt jmodule (lit "id")
  | .moduleDel | .propertyUpdate | .reqApply => valueToInt msg.json (lit "id")
  | _ => .ok (-1)

def setId (msg : JsonMsg) (id : Int32) : Except Fault JsonMsg :=
  (msg.json.assign (lit "id") (.int id.toInt)).map fun json => { msg with json }

/-- One update in the JSON of a list of updates. -/
def toUpdate (json : Json) : Except Fault (Int32 × Str) := do
  let id ← valueToInt json (lit "id")
  let value ← valueToString json (lit "value")
  return (id, value)

/-- The updates of a message, with the message itself: a missing list of
    properties is inserted as `null`. -/
def getPropertiesList (msg : JsonMsg) : Except Fault (Updates × JsonMsg) :=
  if msg.type ≠ .reqApply ∧ msg.type ≠ .propertyUpdate then .ok ([], msg)
  else do
    let (jproperties, json) ← msg.json.index (lit "properties")
    return (← (← jproperties.elements).mapM toUpdate, { msg with json })

/-! ### Builders -/

def propertyToJson (property : Property) : Json :=
  .obj [(lit "type", .int property.type.toInt), (lit "name", .str property.name),
    (lit "value", .str property.value),
    (lit "read_only", .int (if property.readOnly then 1 else 0))]

def moduleToJson (module : Module) : Json :=
  .obj [(lit "id", .int module.id.toInt), (lit "name", .str module.name),
    (lit "properties", .arr (module.properties.map propertyToJson))]

def createModuleAdded (module : Module) : Except Fault Text :=
  dump (.obj [(lit "type", .str (lit "module_added")), (lit "module", moduleToJson module)])

def createModuleRemoved (moduleId : Int32) : Except Fault Text :=
  dump (.obj [(lit "type", .str (lit "module_removed")), (lit "id", .int moduleId.toInt)])

def updateToJson (update : Int32 × Str) : Json :=
  .obj [(lit "id", .int update.1.toInt), (lit "value", .str update.2)]

def createPropertyUpdated (moduleId : Int32) (properties : Updates) : Except Fault Text :=
  dump (.obj [(lit "type", .str (lit "property_update")), (lit "id", .int moduleId.toInt),
    (lit "properties", .arr (properties.map updateToJson))])

def createModuleList (modules : List Module) : Except Fault Text :=
  dump (.obj [(lit "type", .str (lit "module_list")),
    (lit "modules", .arr (modules.map moduleToJson))])

/-- The empty object. -/
def emptyJson : Text := .json (.obj []) rfl

/-- The request the web interface sends when properties are activated. -/
def applyRequest (moduleId : Int32) (properties : Updates) : Json :=
  .obj [(lit "type", .str (lit "apply")), (lit "id", .int moduleId.toInt),
    (lit "properties", .arr (properties.map updateToJson))]

/-- The request the web interface sends once connected. -/
def loadRequest : Json := .obj [(lit "type", .str (lit "load"))]

theorem isUtf8_loadRequest : loadRequest.isUtf8 = true := by decide +kernel

/-! ### Decoding undoes encoding -/

@[simp] theorem bind_ok {ε α β : Type} (a : α) (f : α → Except ε β) : (.ok a >>= f) = f a := rfl

@[simp] theorem pure_eq_ok {ε α : Type} (a : α) : (pure a : Except ε α) = .ok a := rfl

/-- A computation that succeeds has succeeded at each of its steps. -/
theorem bind_eq_ok {ε α β : Type} {x : Except ε α} {f : α → Except ε β} {b : β} :
    (x >>= f) = .ok b ↔ ∃ a, x = .ok a ∧ f a = .ok b := by
  cases x with
  | error e => simp [bind, Except.bind]
  | ok a => simp

theorem map_eq_ok {ε α β : Type} {x : Except ε α} {f : α → β} {b : β} :
    x.map f = .ok b ↔ ∃ a, x = .ok a ∧ f a = b := by
  cases x <;> simp [Except.map]

theorem mapM_map_eq_ok {ε α β γ : Type} {f : β → Except ε γ} {g : α → β} {k : α → γ}
    (h : ∀ a, f (g a) = .ok (k a)) (as : List α) : (as.map g).mapM f = .ok (as.map k) := by
  induction as with
  | nil => rfl
  | cons a as ih => rw [List.map_cons, List.mapM_cons, h, ih]; rfl

theorem mapM_map_ok {ε α β : Type} {f : β → Except ε α} {g : α → β} (h : ∀ a, f (g a) = .ok a)
    (as : List α) : (as.map g).mapM f = .ok as := by
  rw [mapM_map_eq_ok (k := id) h, List.map_id]

@[simp] theorem getInt_toInt (i : Int32) : (Json.int i.toInt).getInt = .ok i := by
  simp [getInt]

theorem toProperty_propertyToJson (p : Property) : toProperty (propertyToJson p) = .ok p := by
  obtain ⟨type, name, value, readOnly⟩ := p
  cases readOnly <;>
    simp +decide [toProperty, propertyToJson, valueToInt, valueToString, getString, getInt]

theorem toUpdate_updateToJson (u : Int32 × Str) : toUpdate (updateToJson u) = .ok u := by
  simp +decide [toUpdate, updateToJson, valueToInt, valueToString, getString]

/-- What a message parsed from a text satisfies. -/
structure Parsed (msg : JsonMsg) : Prop where
  isValid : msg.isValid = true
  type : detectType msg.json = .ok msg.type
  utf8 : msg.json.isUtf8 = true

/-- A parsed text either was not JSON, or gives a message that prints back to
    it. -/
theorem parsed_of_parse {t : Text} {msg : JsonMsg} (h : parse t = .ok msg) :
    (t = .other ∧ msg = {}) ∨ (msg.Parsed ∧ msg.toString = .ok t) := by
  cases t with
  | other => exact .inl ⟨rfl, (Except.ok.inj h).symm⟩
  | json j utf8 =>
    obtain ⟨type, htype, h⟩ := bind_eq_ok.1 h
    cases Except.ok.inj h
    exact .inr ⟨⟨rfl, htype, utf8⟩, by simp [toString, dump, utf8]⟩

/-- A message of a known type was JSON. -/
theorem parsed_of_type {t : Text} {msg : JsonMsg} (h : parse t = .ok msg)
    (htype : msg.type ≠ .unknown) : msg.Parsed := by
  obtain ⟨-, rfl⟩ | ⟨hp, -⟩ := parsed_of_parse h
  · exact absurd rfl htype
  · exact hp

/-- A parsed message prints, and what it prints parses back to it. -/
theorem Parsed.exists_toString {msg : JsonMsg} (h : msg.Parsed) :
    ∃ t, msg.toString = .ok t ∧ parse t = .ok msg := by
  obtain ⟨json, isValid, type⟩ := msg
  obtain ⟨rfl, htype, utf8⟩ := h
  exact ⟨.json json utf8, by simp [toString, dump, utf8], by simp [parse, htype]⟩

/-- Assigning a member other than `type` does not change the type. -/
theorem detectType_assign {j j' : Json} {key : Str} {v : Json} (h : j.assign key v = .ok j')
    (hkey : key ≠ lit "type") : detectType j' = detectType j := by
  have : j'.find? (lit "type") = j.find? (lit "type") := by
    cases j <;> simp only [assign, reduceCtorEq, Except.ok.injEq] at h <;> subst h
    · simp [hkey, find?]
    · rw [find?_assignMember, if_neg hkey]
  simp only [detectType, valueToString, this]

theorem find?_assign {j j' : Json} {k key : Str} {v : Json} (h : j.assign k v = .ok j') :
    j'.find? key = if k = key then some v else j.find? key := by
  cases j <;> simp only [assign, reduceCtorEq, Except.ok.injEq] at h <;> subst h
  · simp [find?]
  · exact find?_assignMember ..

/-- What changing the id of a message does. -/
theorem setId_spec {msg msg' : JsonMsg} {id : Int32} (h : msg.setId id = .ok msg') :
    msg'.type = msg.type ∧
      (msg.type = .propertyUpdate ∨ msg.type = .reqApply → msg'.findId = .ok id) ∧
      (msg.Parsed → msg'.Parsed) := by
  obtain ⟨json, hjson, rfl⟩ := map_eq_ok.1 h
  refine ⟨rfl, ?_, fun hp => ⟨hp.isValid, (detectType_assign hjson (by decide)).trans hp.type,
    isUtf8_assign hjson hp.utf8 (by decide) (isUtf8_int _)⟩⟩
  rintro (ht | ht) <;> simp [findId, ht, valueToInt, find?_assign hjson]

/-- A message whose id is changed still carries the same updates. -/
theorem getPropertiesList_setId {msg msg' : JsonMsg} {id : Int32} {ps : Updates} {m : JsonMsg}
    (h : msg.setId id = .ok msg') (hps : msg.getPropertiesList = .ok (ps, m))
    (hne : (msg.json.find? (lit "properties")).isSome) :
    msg'.getPropertiesList = .ok (ps, msg') := by
  obtain ⟨json, hjson, rfl⟩ := map_eq_ok.1 h
  obtain ⟨v, hv⟩ := Option.isSome_iff_exists.1 hne
  have hv' : json.find? (lit "properties") = some v := by
    rw [find?_assign hjson, if_neg (by decide), hv]
  simp only [getPropertiesList, index, hv, hv', bind_ok, pure_eq_ok] at hps ⊢
  split_ifs with ht
  · rw [if_pos ht] at hps
    cases hps
    rfl
  · rw [if_neg ht] at hps
    obtain ⟨es, hes, hps⟩ := bind_eq_ok.1 hps
    obtain ⟨us, hus, hps⟩ := bind_eq_ok.1 hps
    cases hps
    simp [hes, hus]

/-- Listing the updates of a message changes neither its type nor its id. -/
theorem getPropertiesList_spec {msg msg' : JsonMsg} {ps : Updates}
    (h : msg.getPropertiesList = .ok (ps, msg')) :
    msg'.type = msg.type ∧ msg'.findId = msg.findId ∧ (msg.Parsed → msg'.Parsed) := by
  rw [getPropertiesList] at h
  split_ifs at h with ht
  · cases h
    exact ⟨rfl, rfl, id⟩
  obtain ⟨⟨v, json⟩, hi, h⟩ := bind_eq_ok.1 h
  obtain ⟨es, _, h⟩ := bind_eq_ok.1 h
  obtain ⟨us, _, h⟩ := bind_eq_ok.1 h
  cases h
  rw [index] at hi
  split at hi
  · cases hi
    exact ⟨rfl, rfl, id⟩
  · obtain ⟨json', hjson, hi⟩ := map_eq_ok.1 hi
    cases hi
    have hfind : ∀ key, lit "properties" ≠ key → json.find? key = msg.json.find? key :=
      fun key hkey => by rw [find?_assign hjson, if_neg hkey]
    refine ⟨rfl, ?_, fun hp => ⟨hp.isValid, (detectType_assign hjson (by decide)).trans hp.type,
      isUtf8_assign hjson hp.utf8 (by decide) isUtf8_null⟩⟩
    simp only [findId, valueToInt, hfind (lit "id") (by decide), hfind (lit "module") (by decide)]

theorem parse_createModuleAdded {m : Module} {t : Text} (h : createModuleAdded m = .ok t) :
    ∃ msg, parse t = .ok msg ∧ msg.type = .moduleAdd ∧ msg.findId = .ok m.id ∧
      msg.toModule = .ok (some { m with callback := none }) := by
  obtain ⟨h, rfl⟩ := dump_eq_ok_iff.1 h
  refine ⟨_, by simp +decide [parse, detectType, valueToString, getString]; rfl, rfl, ?_, ?_⟩
  · simp +decide [findId, moduleToJson, valueToInt]
  · simp +decide [toModule, moduleToJson, valueToInt, valueToString, getString, index, elements,
      mapM_map_ok toProperty_propertyToJson]

theorem exists_createModuleRemoved (id : Int32) : ∃ t, createModuleRemoved id = .ok t :=
  ⟨_, dump_eq_ok_iff.2 ⟨by simp +decide, rfl⟩⟩

theorem parse_createModuleRemoved {id : Int32} {t : Text} (h : createModuleRemoved id = .ok t) :
    ∃ msg, parse t = .ok msg ∧ msg.type = .moduleDel ∧ msg.findId = .ok id := by
  obtain ⟨h, rfl⟩ := dump_eq_ok_iff.1 h
  refine ⟨_, by simp +decide [parse, detectType, valueToString, getString]; rfl, rfl, ?_⟩
  simp +decide [findId, valueToInt]

/-- The values of the updates are valid UTF-8: they can be announced. -/
def Announceable (ps : Updates) : Prop := ∀ p ∈ ps, p.2.isUtf8 = true

instance instDecidableAnnounceable : DecidablePred Announceable := fun ps =>
  inferInstanceAs (Decidable (∀ p ∈ ps, _))

theorem createPropertyUpdated_eq_ok_iff {id : Int32} {ps : Updates} :
    (∃ t, createPropertyUpdated id ps = .ok t) ↔ Announceable ps := by
  have hid : (lit "id").isUtf8 = true := by decide
  have hvalue : (lit "value").isUtf8 = true := by decide
  have hkeys : (lit "type").isUtf8 = true ∧ (lit "properties").isUtf8 = true ∧
      (lit "property_update").isUtf8 = true := by decide
  have hu : ∀ p : Int32 × Str, (updateToJson p).isUtf8 = p.2.isUtf8 := fun p => by
    simp [updateToJson, hid, hvalue]
  simp [createPropertyUpdated, dump_eq_ok_iff, Announceable, Function.comp_def, hu, hid, hkeys]

theorem parse_createPropertyUpdated {id : Int32} {ps : Updates} {t : Text}
    (h : createPropertyUpdated id ps = .ok t) :
    ∃ msg, parse t = .ok msg ∧ msg.type = .propertyUpdate ∧ msg.findId = .ok id ∧
      msg.getPropertiesList = .ok (ps, msg) ∧ (msg.json.find? (lit "properties")).isSome := by
  obtain ⟨h, rfl⟩ := dump_eq_ok_iff.1 h
  refine ⟨_, by simp +decide [parse, detectType, valueToString, getString]; rfl, rfl, ?_, ?_, ?_⟩
  · simp +decide [findId, valueToInt]
  · simp +decide [getPropertiesList, index, elements, mapM_map_ok toUpdate_updateToJson]
  · simp +decide

theorem parse_applyRequest {id : Int32} {ps : Updates} {h : (applyRequest id ps).isUtf8 = true} :
    ∃ msg, parse (.json (applyRequest id ps) h) = .ok msg ∧ msg.type = .reqApply ∧
      msg.findId = .ok id ∧ msg.getPropertiesList = .ok (ps, msg) ∧
      (msg.json.find? (lit "properties")).isSome := by
  refine ⟨_, by simp +decide [parse, applyRequest, detectType, valueToString, getString]; rfl, rfl,
    ?_, ?_, ?_⟩
  · simp +decide [findId, valueToInt]
  · simp +decide [getPropertiesList, index, elements, mapM_map_ok toUpdate_updateToJson]
  · simp +decide

/-! ### Whole messages -/

theorem isUtf8_moduleToJson {m : Module} : (moduleToJson m).isUtf8 = true ↔ m.IsUtf8 := by
  have hkeys : (lit "id").isUtf8 = true ∧ (lit "name").isUtf8 = true ∧
      (lit "properties").isUtf8 = true ∧ (lit "type").isUtf8 = true ∧
      (lit "value").isUtf8 = true ∧ (lit "read_only").isUtf8 = true := by decide
  simp only [moduleToJson, propertyToJson, Json.isUtf8_obj, Json.isUtf8_arr, Json.isUtf8_str,
    Json.isUtf8_int, List.all_cons, List.all_nil, List.all_map, hkeys, Bool.true_and,
    Bool.and_true, Bool.and_eq_true, List.all_eq_true, Function.comp_apply]
  exact ⟨fun h => ⟨h.1, h.2⟩, fun h => ⟨h.1, h.2⟩⟩

theorem exists_createModuleAdded {m : Module} : (∃ t, createModuleAdded m = .ok t) ↔ m.IsUtf8 := by
  have hkeys : (lit "type").isUtf8 = true ∧ (lit "module").isUtf8 = true ∧
      (lit "module_added").isUtf8 = true := by decide
  simp [createModuleAdded, dump_eq_ok_iff, hkeys, isUtf8_moduleToJson]

theorem isUtf8_applyRequest (id : Int32) {ps : Updates} (hps : Announceable ps) :
    (applyRequest id ps).isUtf8 = true := by
  have hkeys : (lit "type").isUtf8 = true ∧ (lit "apply").isUtf8 = true ∧ (lit "id").isUtf8 = true ∧
      (lit "properties").isUtf8 = true ∧ (lit "value").isUtf8 = true := by decide
  simpa [applyRequest, updateToJson, hkeys, Function.comp_def] using fun i v h => hps (i, v) h

/-- The message is of this type, about this module, with these updates. -/
structure Carries (msg : JsonMsg) (type : MsgType) (id : Int32) (ps : Updates) : Prop where
  type : msg.type = type
  findId : msg.findId = .ok id
  properties : msg.getPropertiesList.map Prod.fst = .ok ps

/-- The text is a message of this type, about this module, with these updates, and
    is so of every other module it is sent on to. -/
def Relays (t : Text) (type : MsgType) (id : Int32) (ps : Updates) : Prop :=
  ∃ msg, parse t = .ok msg ∧ msg.Carries type id ps ∧
    ∀ n, ∃ msg' t' msg'', msg.setId n = .ok msg' ∧ msg'.toString = .ok t' ∧
      parse t' = .ok msg'' ∧ msg''.Carries type n ps

theorem relays_of_parse {t : Text} {msg : JsonMsg} {type : MsgType} {id : Int32} {ps : Updates}
    (h : parse t = .ok msg) (ht : msg.type = type)
    (hupdate : type = .propertyUpdate ∨ type = .reqApply) (hid : msg.findId = .ok id)
    (hps : msg.getPropertiesList = .ok (ps, msg))
    (hne : (msg.json.find? (lit "properties")).isSome) : Relays t type id ps := by
  refine ⟨msg, h, ⟨ht, hid, by rw [hps]; rfl⟩, fun n => ?_⟩
  have hp : msg.Parsed := by
    obtain ⟨-, rfl⟩ | ⟨hp, -⟩ := parsed_of_parse h
    · cases hne
    · exact hp
  have hassign : ∃ json, msg.json.assign (lit "id") (.int n.toInt) = .ok json := by
    cases hj : msg.json with
    | obj kvs => exact ⟨_, rfl⟩
    | _ =>
      rw [hj] at hne
      cases hne
  obtain ⟨json, hjson⟩ := hassign
  have hset : msg.setId n = .ok { msg with json } := by
    rw [setId, hjson]
    rfl
  obtain ⟨ht', hid', hparsed⟩ := setId_spec hset
  obtain ⟨t', hstring, hparse⟩ := (hparsed hp).exists_toString
  refine ⟨_, t', _, hset, hstring, hparse, ht'.trans ht, hid' (ht ▸ hupdate), ?_⟩
  rw [getPropertiesList_setId hset hps hne]
  rfl

/-- Decoding undoes encoding: of a module added, of a module removed, and of updates
    of an instance or of the web interface, also when these are sent on with another
    id. -/
theorem decode_encode (m : Module) (hm : m.IsUtf8) (id : Int32) (ps : Updates)
    (hps : Announceable ps) :
    (∃ t msg, createModuleAdded m = .ok t ∧ parse t = .ok msg ∧ msg.type = .moduleAdd ∧
      msg.findId = .ok m.id ∧ msg.toModule = .ok (some { m with callback := none })) ∧
    (∃ t msg, createModuleRemoved id = .ok t ∧ parse t = .ok msg ∧ msg.type = .moduleDel ∧
      msg.findId = .ok id) ∧
    (∃ t, createPropertyUpdated id ps = .ok t ∧ Relays t .propertyUpdate id ps) ∧
    (∃ t, (applyRequest id ps).dump = .ok t ∧ Relays t .reqApply id ps) := by
  refine ⟨?_, ?_, ?_, ?_⟩
  · obtain ⟨t, ht⟩ := exists_createModuleAdded.2 hm
    obtain ⟨msg, h⟩ := parse_createModuleAdded ht
    exact ⟨t, msg, ht, h⟩
  · obtain ⟨t, ht⟩ := exists_createModuleRemoved id
    obtain ⟨msg, h⟩ := parse_createModuleRemoved ht
    exact ⟨t, msg, ht, h⟩
  · obtain ⟨t, ht⟩ : ∃ t, createPropertyUpdated id ps = .ok t :=
      createPropertyUpdated_eq_ok_iff.2 hps
    obtain ⟨msg, h, htype, hid, hlist, hne⟩ := parse_createPropertyUpdated ht
    exact ⟨t, ht, relays_of_parse h htype (.inl rfl) hid hlist hne⟩
  · have hutf8 := isUtf8_applyRequest id hps
    obtain ⟨msg, h, htype, hid, hlist, hne⟩ := parse_applyRequest (h := hutf8)
    exact ⟨_, dump_eq_ok_iff.2 ⟨hutf8, rfl⟩, relays_of_parse h htype (.inr rfl) hid hlist hne⟩

/-- A module with one property, and one update of it. -/
theorem decode_encode_main :
    (∃ t msg, createModuleAdded ⟨3, lit "Main", [⟨5, lit "Text", lit "a", false⟩], some 7⟩ = .ok t ∧
      parse t = .ok msg ∧ msg.type = .moduleAdd ∧ msg.findId = .ok 3 ∧
      msg.toModule = .ok (some ⟨3, lit "Main", [⟨5, lit "Text", lit "a", false⟩], none⟩)) ∧
    ∃ t, createPropertyUpdated 3 [(0, lit "b")] = .ok t ∧
      Relays t .propertyUpdate 3 [(0, lit "b")] := by
  obtain ⟨h, -, h', -⟩ := decode_encode ⟨3, lit "Main", [⟨5, lit "Text", lit "a", false⟩], some 7⟩
    ⟨by decide, by decide⟩ 3 [(0, lit "b")] (by decide)
  exact ⟨h, h'⟩

end JsonMsg

end Sacs
