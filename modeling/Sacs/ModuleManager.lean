import Sacs.ServerImpl
import Sacs.Proxy

/-!
# The module manager

The functions of the `ModuleManager`. Most of them may be called on any thread:
off the loop thread (`onDifferentThread`), they only post themselves to the loop.
`runTask` runs a posted function.
-/

namespace Sacs

namespace ModuleManager

open JsonMsg

variable (s : Instance)

/-- The `PushMsgForJS` of the role. -/
def pushMsg (msg : Text) : Except Fault Instance :=
  if s.serverImpl then .ok (ServerImpl.pushMsgForJS s msg) else Proxy.pushMsgForJS s msg

def handleMessage (onDifferentThread : Bool) (msg : Text) : Except Fault Instance :=
  if onDifferentThread then .ok (s.post (.handleMessage msg))
  else
    let s := s.log (.handled msg)
    if !s.initialized then .ok { s with msgQueue := s.msgQueue ++ [msg] } else pushMsg s msg

/-- The role is decided. The messages kept so far are then passed on
    (`flush`). -/
def onProxyInitialized (onDifferentThread hostMode : Bool) : Instance :=
  if onDifferentThread then s.post (.onProxyInitialized hostMode)
  else { s with
    serverImpl := s.serverImpl || hostMode
    initialized := true
    loop := .flushing }

/-- One iteration of the loop over the message queue. The messages passed on
    leave the queue at once, as nothing else reads it before it is cleared. -/
def flush : Except Fault Instance :=
  match s.msgQueue with
  | [] => .ok { s with loop := .idle }
  | msg :: msgQueue => pushMsg { s with msgQueue } msg

/-- The first half of `RegisterModule`, before waiting for the future. -/
def registerModule (module : Module) (promise : Promise) : Instance :=
  s.post (.doRegisterModule module promise)

/-- `set_value` on the promise of a `RegisterModule`. What an application thread
    does with the id shows in later actions only. -/
def fulfil (promise : Promise) (id : Int32) : Instance :=
  match promise, s.loop with
  | .app, _ => s
  | .callback, .waiting request => { s with loop := .callback request }
  | .callback, _ => s
  | .handler c, _ =>
    match s.handler c with
    | .registering remoteId =>
      { s with handler := Function.update s.handler c (.registered remoteId id) }
    | _ => s

def doRegisterModule (module : Module) (promise : Promise) : Except Fault Instance :=
  if s.idCounter = Int32.maxValue then .error .overflow
  else do
    let id := s.idCounter
    let module := module.setId id
    let s := { s with idCounter := id + 1, modules := s.modules.insert id module }
    let s := s.log (.registered id promise module)
    let s ← handleMessage s false (← createModuleAdded module)
    return fulfil s promise id

def unregisterModule (onDifferentThread : Bool) (moduleId : Int32) : Except Fault Instance :=
  if onDifferentThread then .ok (s.post (.unregisterModule moduleId))
  else do
    let s := { s with modules := s.modules.erase moduleId }
    handleMessage (s.log (.unregistered moduleId)) false (← createModuleRemoved moduleId)

def savePropertiesList (onDifferentThread : Bool) (moduleId : Int32) (properties : Updates) :
    Except Fault Instance :=
  if onDifferentThread then .ok (s.post (.savePropertiesList moduleId properties))
  else match s.modules.find? moduleId with
    | none => .ok s
    | some module => do
      let module ← module.save properties
      let s := { s with modules := s.modules.modify moduleId fun _ => module }
      return s.log (.saved moduleId properties)

/-- A web client is answered: `set_value` on the promise of its request. -/
def respond (w : ClientId) (response : Text) : Instance :=
  { s with
    web := Function.update s.web w (.ready response)
    trace := s.trace ++ [.produced w response] }

/-- Calls a module callback, with the values as C strings. -/
def invoke (callback : Callback) (moduleId : Int32) (properties : Updates) : Instance :=
  ({ s with loop := .callback none } : Instance).log (.invoked
    { callback, moduleId
      propIds := properties.map Prod.fst
      propVals := properties.map fun p => Str.cString p.2 })

def passPropertyUpdateToModule (onDifferentThread : Bool) (json : JsonMsg) :
    Except Fault Instance :=
  if onDifferentThread then .ok (s.post (.passPropertyUpdateToModule json))
  else do
    let moduleId ← json.findId
    match s.modules.find? moduleId with
    | none => return s
    | some module =>
      let (properties, json) ← json.getPropertiesList
      if properties = [] then return s
      let s ← savePropertiesList s false moduleId properties
      match module.callback with
      | none => Proxy.handlePropertyUpdate s json
      | some callback => return invoke s callback moduleId properties

/-- A callback called for the request of a web client returns to
    `DoProcessJSRequest`, which then answers the client. -/
def answer (w : ClientId) (result : Text) : Instance :=
  match s.loop with
  | .callback _ => { s with loop := .callback (some (w, result)) }
  | _ => respond s w result

/-- The case of `REQ_LOAD` falls through to that of `REQ_APPLY`. -/
def doProcessJSRequest (json : JsonMsg) (w : ClientId) : Except Fault Instance := do
  match json.type with
  | .reqLoad =>
    let result ← createModuleList (s.modules.entries.map Prod.snd)
    return answer (← passPropertyUpdateToModule s false json) w result
  | .reqApply => return answer (← passPropertyUpdateToModule s false json) w emptyJson
  | _ => return answer s w emptyJson

/-- `UpdateProperties` up to the announcement. -/
def updateProperties (onDifferentThread : Bool) (moduleId : Int32) (properties : Updates) :
    Except Fault Instance :=
  savePropertiesList s onDifferentThread moduleId properties

/-- The second half of `UpdateProperties`, the announcement. -/
def announce (onDifferentThread : Bool) (moduleId : Int32) (properties : Updates) :
    Except Fault Instance := do
  handleMessage s onDifferentThread (← createPropertyUpdated moduleId properties)

/-- Runs a task on the loop thread. -/
def runTask : Task → Except Fault Instance
  | .onProxyInitialized hostMode => .ok (onProxyInitialized s false hostMode)
  | .handleMessage msg => handleMessage s false msg
  | .doRegisterModule module promise => doRegisterModule s module promise
  | .unregisterModule moduleId => unregisterModule s false moduleId
  | .savePropertiesList moduleId properties => savePropertiesList s false moduleId properties
  | .doProcessJSRequest json w => doProcessJSRequest s json w
  | .passPropertyUpdateToModule json => passPropertyUpdateToModule s false json

end ModuleManager

end Sacs
