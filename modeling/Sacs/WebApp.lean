import Sacs.JsonMsg
import Sacs.Lib.OrdMap
import Mathlib.Data.List.Nodup

/-!
# The web interface

The page of a web client: the modules it knows of, with a tab each, and what it
does with a message of the host (`Page.onMessage`) and with a click on a tab
(`Page.selectModule`).

Objects are shared and changed in place: they are numbers, the indices of the
modules in `Page.objects`; a `ModuleButton`, made for one module, goes by the
number of its module. A function that throws leaves what it has done so far,
and gives this state as an error; handlers of the browser end there.

The code of a `SCRIPT` property, its value, is run by the page, and may throw:
it is a parameter (`Script`).
-/

namespace Sacs

open JsonMsg Str

/-! ## Properties -/

/-- What running the values of `SCRIPT` properties does: `none` if it throws. -/
structure Script where
  /-- The objects made by the scripts, in their states. -/
  Obj : Type
  construct : Str → Option Obj
  setValue : Obj → Str → Option Obj

inductive PropertyType
  | button
  | buttonSw
  | buttonSwIn
  | text
  | textBt
  | textRo
  | textArea
  | textAreaBt
  | textAreaRo
  | log
  | script
  deriving DecidableEq

namespace PropertyType

/-- `PropertyTypeArray`. -/
def all : List PropertyType :=
  [button, buttonSw, buttonSwIn, text, textBt, textRo, textArea, textAreaBt, textAreaRo, log,
    script]

def fromId (id : Int32) : Option PropertyType := if 0 ≤ id then all[id.toInt.toNat]? else none

/-- The `isIndependent` of the class. -/
def isIndependent : PropertyType → Bool
  | button | buttonSwIn | textBt | textRo | textAreaBt | textAreaRo | log | script => true
  | buttonSw | text | textArea => false

end PropertyType

/-- The input element of a property, with its contents. -/
inductive Input (S : Script)
  | button
  | checkbox (checked : Bool)
  | text (value : Str)
  | textArea (value : Str)
  | script (obj : S.Obj)

structure PropertyView (S : Script) where
  id : Nat
  type : PropertyType
  label : Str
  input : Input S

/-- What an `input` of type `text` makes of a value: it has no line breaks. -/
def stripNewlines (value : Str) : Str := value.filter fun b => b ≠ 10 ∧ b ≠ 13

namespace PropertyView

variable {S : Script}

/-- `createNode` of the class of the type. -/
def create (S : Script) (type : PropertyType) (value : Str) : Option (Input S) :=
  match type with
  | .button => some .button
  | .buttonSw | .buttonSwIn => some (.checkbox (value = lit "1"))
  | .text | .textBt | .textRo => some (.text (stripNewlines value))
  | .textArea | .textAreaBt | .textAreaRo | .log => some (.textArea (normalizeNewlines value))
  | .script => (S.construct value).map .script

/-- `setValue` of the class of the type. A log shows its latest value first. -/
def setValue (p : PropertyView S) (value : Str) : Option (PropertyView S) :=
  match p.input with
  | .button => some p
  | .checkbox _ => some { p with input := .checkbox (value = lit "1") }
  | .text _ => some { p with input := .text (stripNewlines value) }
  | .textArea old =>
    let value := if p.type = .log ∧ value ≠ [] ∧ old ≠ [] then value ++ 10 :: old else value
    some { p with input := .textArea (normalizeNewlines value) }
  | .script obj => (S.setValue obj value).map fun obj => { p with input := .script obj }

end PropertyView

/-! ## Modules -/

structure ModuleView (S : Script) where
  id : Int32
  name : Str
  properties : List (PropertyView S) := []
  applyButton : Bool := false

namespace ModuleView

variable {S : Script} (m : ModuleView S)

/-- A property of no known type is left out. -/
def addProperty (p : Property) : Option (ModuleView S) :=
  match PropertyType.fromId p.type with
  | none => some m
  | some type => (PropertyView.create S type p.value).map fun input =>
    { m with
      properties := m.properties ++ [{ id := m.properties.length, type, label := p.name, input }] }

def maybeAddApplyButton : ModuleView S :=
  { m with applyButton := m.properties.any fun p => !p.type.isIndependent }

/-- There is no object to call at an index that is out of range. -/
def setPoropertyValue (id : Int32) (value : Str) : Option (ModuleView S) :=
  if 0 ≤ id then
    match m.properties[id.toInt.toNat]? with
    | none => none
    | some p => (p.setValue value).map fun p =>
      { m with properties := m.properties.set id.toInt.toNat p }
  else none

end ModuleView

/-! ## The page -/

structure ModuleButton where
  selected : Bool := false

/-- The page of a web client. -/
structure Page (S : Script) where
  /-- The modules made so far. -/
  objects : List (ModuleView S) := []
  -- `ModuleManager`
  modules : OrdMap Int32 Nat := .empty
  -- `ModuleSelector`
  buttons : OrdMap Nat ModuleButton := .empty
  /-- The child nodes of the selector, in order. -/
  tabs : List Nat := []
  currentModule : Option Nat := none
  -- `ModuleContainer`
  content : Option Nat := none

/-- The page after a function has returned, or has thrown. -/
abbrev Page.Outcome (S : Script) := Except (Page S) (Page S)

namespace Page

variable {S : Script} (page : Page S)

/-- `selectCurrentButton` and `unselectCurrentButton`. -/
def setCurrentSelected (selected : Bool) : Outcome S :=
  match page.currentModule with
  | none => .ok page
  | some module =>
    match page.buttons.find? module with
    | none => .error page
    | some _ =>
      .ok { page with buttons := page.buttons.modify module fun _ => { selected } }

def selectModule (module : Nat) : Outcome S := do
  let page ← page.setCurrentSelected false
  setCurrentSelected { page with currentModule := some module, content := some module } true

def onModuleAdded (module : Nat) : Outcome S :=
  let page := { page with
    buttons := page.buttons.set module {}
    tabs := page.tabs ++ [module] }
  if page.currentModule = none then page.selectModule module else .ok page

/-- The entry of `buttons` is to be deleted by the button, which is not its key,
    and stays. `removeChild` throws if the node is no child. -/
def onModuleRemoved (module : Option Nat) : Outcome S :=
  let page :=
    if module = page.currentModule then { page with content := none, currentModule := none }
    else page
  match module with
  | none => .error page
  | some module =>
    match page.buttons.find? module with
    | none => .error page
    | some _ =>
      if module ∈ page.tabs then .ok { page with tabs := page.tabs.erase module } else .error page

/-- Makes the module; what adding a property throws ends this before the page is
    changed. -/
def crateModule (m : Module) : Outcome S :=
  match m.properties.foldlM ModuleView.addProperty { id := m.id, name := m.name } with
  | none => .error page
  | some view =>
    let module := page.objects.length
    onModuleAdded { page with
      objects := page.objects ++ [view.maybeAddApplyButton]
      modules := page.modules.set m.id module } module

def deleteModule (moduleId : Int32) : Outcome S := do
  let module := page.modules.find? moduleId
  let page ← page.onModuleRemoved module
  match module.bind (page.objects[·]?) with
  | none => .error page
  | some view => .ok { page with modules := page.modules.erase view.id }

/-- One update of the property of the module. -/
def setPropertyValue (module : Nat) (page : Page S) (update : Int32 × Str) : Outcome S :=
  match page.objects[module]?.bind (·.setPoropertyValue update.1 update.2) with
  | none => .error page
  | some view => .ok { page with objects := page.objects.set module view }

def setModulePoperties (id : Int32) (properties : Updates) : Outcome S :=
  match page.modules.find? id with
  | none => .ok page
  | some module => properties.foldlM (setPropertyValue module) page

/-- `ModuleManager.clear`: the nodes of the modules are taken from where they are. -/
def clearModules : Page S :=
  { page with
    content := page.content.filter fun module => page.modules.entries.all fun e => e.2 ≠ module
    modules := .empty }

/-- `ModuleSelector.clear`: so are those of the buttons. -/
def clearButtons : Page S :=
  { page with
    tabs := page.tabs.filter fun module => (page.buttons.find? module).isNone
    buttons := .empty
    currentModule := none }

/-- The connection is lost. -/
def clear : Page S := page.clearModules.clearButtons

/-- What the JSON of a module is read as. -/
def readModule (jmodule : Json) : Except Fault Module := do
  let id ← valueToInt jmodule (lit "id")
  let name ← valueToString jmodule (lit "name")
  let (jproperties, _) ← jmodule.index (lit "properties")
  let properties ← (← jproperties.elements).mapM toProperty
  return { id, name, properties, callback := none }

/-- What a message of the host says to the page. -/
inductive Msg
  | propertyUpdate (id : Int32) (properties : Updates)
  | moduleAdded (m : Module)
  | moduleRemoved (id : Int32)
  | moduleList (ms : List Module)
  | other

/-- Reads a message. The members of the messages of the host are as they should be:
    what a browser makes of others is not modelled. -/
def readMsg (json : Json) : Except Fault Msg := do
  let type ← valueToString json (lit "type")
  if type = lit "property_update" then
    let (properties, _) ← getPropertiesList { json, isValid := true, type := .propertyUpdate }
    return .propertyUpdate (← valueToInt json (lit "id")) properties
  else if type = lit "module_added" then
    match json.find? (lit "module") with
    | none => .error .nullPointer
    | some jmodule => return .moduleAdded (← readModule jmodule)
  else if type = lit "module_removed" then return .moduleRemoved (← valueToInt json (lit "id"))
  else if type = lit "module_list" then
    let (jmodules, _) ← json.index (lit "modules")
    return .moduleList (← (← jmodules.elements).mapM readModule)
  else return .other

/-- The message read in a text: what is not JSON, or cannot be read, throws before
    anything is done. -/
def msgOf : Text → Msg
  | .other => .other
  | .json json _ =>
    match readMsg json with
    | .ok msg => msg
    | .error _ => .other

def handle : Msg → Outcome S
  | .propertyUpdate id properties => page.setModulePoperties id properties
  | .moduleAdded m => page.crateModule m
  | .moduleRemoved id => page.deleteModule id
  | .moduleList ms => ms.foldlM crateModule page
  | .other => .ok page

/-- The page once the handler has ended. -/
def onMessage (msg : Text) : Page S :=
  match page.handle (msgOf msg) with
  | .ok page => page
  | .error page => page

/-! ### The messages of the host -/

theorem readModule_moduleToJson (m : Module) :
    readModule (moduleToJson m) = .ok { m with callback := none } := by
  simp +decide [readModule, moduleToJson, valueToInt, valueToString, Json.getString, Json.index,
    Json.elements, mapM_map_ok toProperty_propertyToJson]

theorem msgOf_createModuleAdded {m : Module} {msg : Text} (h : createModuleAdded m = .ok msg) :
    msgOf msg = .moduleAdded { m with callback := none } := by
  obtain ⟨h, rfl⟩ := Json.dump_eq_ok_iff.1 h
  simp +decide [msgOf, readMsg, valueToString, Json.getString, readModule_moduleToJson]

theorem msgOf_createModuleRemoved {id : Int32} {msg : Text} (h : createModuleRemoved id = .ok msg) :
    msgOf msg = .moduleRemoved id := by
  obtain ⟨h, rfl⟩ := Json.dump_eq_ok_iff.1 h
  simp +decide [msgOf, readMsg, valueToString, valueToInt, Json.getString]

theorem msgOf_createPropertyUpdated {id : Int32} {ps : Updates} {msg : Text}
    (h : createPropertyUpdated id ps = .ok msg) : msgOf msg = .propertyUpdate id ps := by
  obtain ⟨h, rfl⟩ := Json.dump_eq_ok_iff.1 h
  simp +decide [msgOf, readMsg, valueToString, valueToInt, Json.getString, getPropertiesList,
    Json.index, Json.elements, mapM_map_ok toUpdate_updateToJson]

theorem msgOf_createModuleList {ms : List Module} {msg : Text} (h : createModuleList ms = .ok msg) :
    msgOf msg = .moduleList (ms.map fun m => { m with callback := none }) := by
  obtain ⟨h, rfl⟩ := Json.dump_eq_ok_iff.1 h
  simp +decide [msgOf, readMsg, valueToString, Json.getString, Json.index, Json.elements,
    mapM_map_eq_ok readModule_moduleToJson]

theorem msgOf_emptyJson : msgOf emptyJson = .other := rfl

end Page

end Sacs
