import Sacs.ModuleManager
import Sacs.Lib.Lts

/-!
# The steps of an instance

The handlers of the network threads, and all the actions of an instance
(`Action`), each with what it does (`step`): a call of the API by the
application, a task of the loop thread, a call of the API by a module callback,
a handler called by the network library. The actions of different threads
interleave arbitrarily; between two actions, a thread is where the state says.

A function of the network library, a submodule, is an action: it calls the
handlers of one client one at a time, and gives connected clients distinct ids
other than `0xFFFFFFFF`.
-/

namespace Sacs

open JsonMsg

/-! ## Handlers -/

namespace Proxy

variable (s : Instance)

/-- The outcome of the connection attempt of `Init`. Without a host, the
    instance becomes one. -/
def onClientConnecting (ok : Bool) : Instance :=
  if s.proxyInitialized then s
  else
    let s := { s with proxyInitialized := true }
    let s := if ok then { s with client := some [] } else { s with server := true }
    ModuleManager.onProxyInitialized s true s.server

/-- A message of the host, on the network thread. -/
def onClientRead (msg : Text) : Except Fault Instance := do
  ModuleManager.passPropertyUpdateToModule s true (← parse msg)

end Proxy

namespace ProxyServer

variable (s : Instance)

def setHandler (c : ClientId) (pc : HandlerPc) : Instance :=
  { s with handler := Function.update s.handler c pc }

/-- A message of another instance, up to where the handler waits or posts. -/
def onClientRead (c : ClientId) (msg : Text) : Except Fault Instance := do
  let json ← parse msg
  if !json.isValid then return s
  match json.type with
  | .moduleAdd =>
    match ← json.toModule with
    | none => .error .nullPointer
    | some module =>
      return setHandler (ModuleManager.registerModule s module (.handler c)) c
        (.registering module.id)
  | .moduleDel =>
    let id := localIdFromRemote s (← json.findId) c
    return removeModule (← ModuleManager.unregisterModule s true id) id
  | .propertyUpdate =>
    let id := localIdFromRemote s (← json.findId) c
    let json ← json.setId id
    let (properties, json) ← json.getPropertiesList
    return setHandler (← ModuleManager.savePropertiesList s true id properties) c (.updating json)
  | _ => return s

/-- The next module of the client, in the loop of `RemoveClientsModules`. -/
def nextOfClient (c : ClientId) : Option (Int32 × (Int32 × ClientId)) :=
  s.remoteModules.first? fun _ remote => remote.2 = c

/-- What a handler does next. -/
def resume (c : ClientId) : Except Fault Instance :=
  match s.handler c with
  | .registered remoteId localId => .ok (setHandler (addModule s localId remoteId c) c .idle)
  | .updating json => do
    return setHandler (← ModuleManager.handleMessage s true (← json.toString)) c .idle
  | .closing =>
    match nextOfClient s c with
    | some (localId, _) => do
      return removeModule (← ModuleManager.unregisterModule s true localId) localId
    | none => .ok (setHandler { s with clients := Function.update s.clients c none } c .idle)
  | _ => .error .disabled

end ProxyServer

/-- A message of a web client, with whether its content is on the drive and not in
    memory: the network library puts that of a large message there. -/
structure WebsocketMessage where
  text : Text
  useDriveCache : Bool

namespace ServerImpl

variable (s : Instance)

def setWeb (w : ClientId) (pc : WebPc) : Instance := { s with web := Function.update s.web w pc }

/-- `Client::Send` of a web client. -/
def send (w : ClientId) (msg : Text) : Instance :=
  { s with wsClients := Function.update s.wsClients w ((s.wsClients w).map (· ++ [msg])) }

/-- A request of a web client. A large one is dropped, and one that is not JSON is
    answered by the network thread alone, at once. -/
def onWsClientMessage (w : ClientId) (msg : WebsocketMessage) : Except Fault Instance := do
  if msg.useDriveCache then return s
  let json ← parse msg.text
  if !json.isValid then return send (s.log (.produced w emptyJson)) w emptyJson
  return setWeb (s.post (.doProcessJSRequest json w)) w .waiting

end ServerImpl

/-! ## Actions -/

/-- What the threads of an instance do. -/
inductive Action
  -- Application threads
  | registerModule (name : Str) (properties : List Property) (callback : Option Callback)
  | unregisterModule (id : Int32)
  /-- `UpdateProperties`, up to between its two posts. -/
  | updateProperties (id : Int32) (properties : Updates)
  /-- The rest of the call of `UpdateProperties` at this index. -/
  | announce (index : Nat)
  -- Loop thread
  | task
  | flush
  -- Loop thread, in a module callback
  | callbackRegisterModule (name : Str) (properties : List Property) (callback : Option Callback)
  | callbackUnregisterModule (id : Int32)
  | callbackUpdateProperties (id : Int32) (properties : Updates)
  | callbackReturn
  -- Network threads, for the connection to the host
  | connecting (ok : Bool)
  | proxyRead (msg : Text)
  -- Network threads, for the clients of the other instances
  | accept (c : ClientId)
  | read (c : ClientId) (msg : Text)
  | resume (c : ClientId)
  | closed (c : ClientId)
  -- Network threads, for the web clients
  | wsConnected (w : ClientId)
  | wsMessage (w : ClientId) (msg : WebsocketMessage)
  | wsReply (w : ClientId)
  | wsClosed (w : ClientId)
  /-- The web client is gone, which the listeners are not told. -/
  | wsExpired (w : ClientId)

namespace Instance

open ModuleManager

/-- The rest of the call of `UpdateProperties` at this index: nothing is posted if
    building the announcement throws, which the caller is left with. -/
def announceCall (s : Instance) (index : Nat) : Except Fault Instance :=
  match s.calls[index]? with
  | none => .error .disabled
  | some (id, properties) =>
    let s := { s with calls := s.calls.eraseIdx index }
    match ModuleManager.announce s true id properties with
    | .ok s => .ok s
    | .error _ => .ok s

/-- Takes the next task of the loop, and runs it. -/
def nextTask (s : Instance) : Except Fault Instance :=
  match s.loop, s.threadLoop with
  | .idle, task :: threadLoop => runTask { s with threadLoop } task
  | _, _ => .error .disabled

/-- The callback returns: the request it was called for, if any, is answered. -/
def returnCallback (s : Instance) : Except Fault Instance :=
  match s.loop with
  | .callback none => .ok { s with loop := .idle }
  | .callback (some (w, response)) => .ok (respond { s with loop := .idle } w response)
  | _ => .error .disabled

/-- `UpdateProperties` called by a callback, on the loop thread: if building the
    announcement throws, the callback goes on with the values saved. -/
def callbackUpdate (s : Instance) (id : Int32) (properties : Updates) : Except Fault Instance := do
  let s ← updateProperties s false id properties
  match createPropertyUpdated id properties with
  | .ok msg => handleMessage s false msg
  | .error _ => return s

/-- A step of an instance, if the action is possible. -/
def step (s : Instance) : Action → Except Fault Instance
  | .registerModule name properties callback =>
    .ok (registerModule s { id := -1, name, properties, callback } .app)
  | .unregisterModule id => unregisterModule (s.log (.unregister id)) true id
  | .updateProperties id properties => do
    return { ← updateProperties s true id properties with calls := s.calls ++ [(id, properties)] }
  | .announce index => announceCall s index
  | .task => nextTask s
  | .flush => match s.loop with
    | .flushing => flush s
    | _ => .error .disabled
  | .callbackRegisterModule name properties callback => match s.loop with
    | .callback request =>
      .ok { registerModule s { id := -1, name, properties, callback } .callback with
        loop := .waiting request }
    | _ => .error .disabled
  | .callbackUnregisterModule id => match s.loop with
    | .callback _ => unregisterModule (s.log (.unregister id)) false id
    | _ => .error .disabled
  | .callbackUpdateProperties id properties => match s.loop with
    | .callback _ => callbackUpdate s id properties
    | _ => .error .disabled
  | .callbackReturn => returnCallback s
  | .connecting ok => .ok (Proxy.onClientConnecting s ok)
  | .proxyRead msg => if s.client.isSome then Proxy.onClientRead s msg else .error .disabled
  | .accept c =>
    if s.server ∧ s.clients c = none ∧ c ≠ ProxyServer.noClient then
      .ok { s with clients := Function.update s.clients c (some []) }
    else .error .disabled
  | .read c msg => match s.clients c, s.handler c with
    | some _, .idle => ProxyServer.onClientRead s c msg
    | _, _ => .error .disabled
  | .resume c => ProxyServer.resume s c
  | .closed c => match s.clients c, s.handler c with
    | some _, .idle => .ok (ProxyServer.setHandler s c .closing)
    | _, _ => .error .disabled
  | .wsConnected w =>
    if s.serverImpl ∧ s.wsClients w = none ∧ s.eventListeners.find? w = none then
      .ok (ServerImpl.addEventListener
        { s with wsClients := Function.update s.wsClients w (some []) } w)
    else .error .disabled
  | .wsMessage w msg => match s.wsClients w, s.web w with
    | some _, .idle => ServerImpl.onWsClientMessage s w msg
    | _, _ => .error .disabled
  | .wsReply w => match s.web w with
    | .ready response => .ok (ServerImpl.setWeb (ServerImpl.send s w response) w .idle)
    | _ => .error .disabled
  | .wsClosed w => match s.wsClients w, s.web w with
    | some _, .idle =>
      .ok (ServerImpl.removeEventListener
        { s with wsClients := Function.update s.wsClients w none } w)
    | _, _ => .error .disabled
  | .wsExpired w => match s.wsClients w, s.web w with
    | some _, .idle => .ok { s with wsClients := Function.update s.wsClients w none }
    | _, _ => .error .disabled

/-- A message of a connected web client that waits for no reply is handled. -/
theorem step_wsMessage {s : Instance} {w : ClientId} (msg : WebsocketMessage)
    (hw : (s.wsClients w).isSome) (hidle : s.web w = .idle) :
    s.step (.wsMessage w msg) = ServerImpl.onWsClientMessage s w msg := by
  obtain ⟨sent, hsent⟩ := Option.isSome_iff_exists.1 hw
  rw [step]
  simp only [hsent, hidle]

/-- A large one is dropped. -/
theorem step_wsMessage_large {s : Instance} {w : ClientId} (text : Text)
    (hw : (s.wsClients w).isSome) (hidle : s.web w = .idle) :
    s.step (.wsMessage w ⟨text, true⟩) = .ok s :=
  step_wsMessage _ hw hidle

/-- The steps of an instance, as a transition system. -/
abbrev Steps : Instance → Action → Instance → Prop := Lts.Exec step

/-- A run of an instance from its creation. -/
abbrev Runs (as : List Action) (s : Instance) : Prop := Lts.Run Steps {} as s

/-- A run, by evaluation, with what is observed of its last state. -/
theorem exists_runs {β : Type} (as : List Action) (f : Instance → β) (b : β)
    (h : (as.foldlM step {}).toOption.map f = some b) : ∃ s, Runs as s ∧ f s = b :=
  Lts.exists_run_of_foldlM _ _ _ _ _ h

/-- A run all whose steps meet a condition, by evaluation. -/
theorem exists_runs_under {β : Type} (C : Instance → Action → Prop) [∀ s a, Decidable (C s a)]
    (as : List Action) (f : Instance → β) (b : β)
    (h : (as.foldlM (Lts.guard C step .disabled) {}).toOption.map f = some b) :
    ∃ s, Lts.Run (Lts.Under C Steps) {} as s ∧ f s = b := by
  obtain ⟨s, hs, hb⟩ := Lts.exists_run_of_foldlM _ _ _ _ _ h
  exact ⟨s, hs.under_of_guard, hb⟩

end Instance

end Sacs
