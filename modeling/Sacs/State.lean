import Sacs.JsonMsg
import Sacs.Lib.OrdMap
import Mathlib.Logic.Function.Basic

/-!
# The state of an instance

An instance of SACS in a process: its `ModuleManager`, `Proxy`, `ProxyServer`
and `ServerImpl`, and where its threads are.

* The *loop thread* runs the tasks of the `ThreadLoop`, a FIFO queue, one at a
  time (`Task`). What it does besides (`LoopPc`): passing on the messages kept
  before the role of the instance was known, and running a module callback.
* The *network threads* run the handlers of the clients of the other instances
  (`HandlerPc`) and of the web clients (`WebPc`), those of one client one at a
  time. A handler may have to wait for the loop thread.
* The *application threads* call the API. A call of `RegisterModule` waits for
  its task, one of `UnregisterModule` only posts one. A call of
  `UpdateProperties` posts two: the calls that have posted the first and not
  yet the second are kept in `Instance.calls`. Any number of threads can call
  at once, so that calls need not be told apart by their thread.

A connected client is modelled by its outgoing stream. The field `trace` is the
history of the instance (`Event`); no function reads it.
-/

namespace Sacs

/-- Who waits for the future of a `RegisterModule`. -/
inductive Promise
  /-- An application thread. -/
  | app
  /-- A module callback, on the loop thread. -/
  | callback
  /-- The handler of the client `c` of another instance. -/
  | handler (c : ClientId)
  deriving DecidableEq

/-- What can be posted to the loop, under the names of the functions bound. -/
inductive Task
  | onProxyInitialized (hostMode : Bool)
  | handleMessage (msg : Text)
  | doRegisterModule (module : Module) (promise : Promise)
  | unregisterModule (moduleId : Int32)
  | savePropertiesList (moduleId : Int32) (properties : Updates)
  /-- The promise is that of the handler of the web client `w`. -/
  | doProcessJSRequest (json : JsonMsg) (w : ClientId)
  | passPropertyUpdateToModule (json : JsonMsg)

/-- What the loop thread is doing when not in a task. -/
inductive LoopPc
  | idle
  /-- In `OnProxyInitialized`, passing on the message queue. -/
  | flushing
  /-- In a module callback. When it returns, the request of a web client may
      have to be answered. -/
  | callback (request : Option (ClientId × Text))
  /-- In a module callback, waiting for the future of a `RegisterModule`. -/
  | waiting (request : Option (ClientId × Text))

/-- What the handlers of a client of another instance are doing. -/
inductive HandlerPc
  | idle
  /-- Waiting for the registration of the module with this id in the instance. -/
  | registering (remoteId : Int32)
  /-- The future is ready, with the id the module has here. -/
  | registered (remoteId localId : Int32)
  /-- In `UpdateProperties`, with the message still to be announced. -/
  | updating (json : JsonMsg)
  /-- In `RemoveClientsModules`. -/
  | closing

/-- What the handler of a web client is doing. -/
inductive WebPc
  | idle
  /-- Waiting for the answer to its request. -/
  | waiting
  /-- The future is ready, the answer is to be sent. -/
  | ready (response : Text)

/-- A call of a module callback: the arguments, as the callee reads them. -/
structure Invocation where
  callback : Callback
  moduleId : Int32
  propIds : List Int32
  propVals : List Str
  deriving DecidableEq

/-- What happens in an instance, for its history. -/
inductive Event
  /-- `HandleMessage` was run on the loop thread. -/
  | handled (msg : Text)
  /-- The `PushMsgForJS` of the role was called. -/
  | pushed (msg : Text)
  /-- A message for the web client `w` was produced. -/
  | produced (w : ClientId) (msg : Text)
  /-- `DoRegisterModule` gave the module its id. -/
  | registered (id : Int32) (promise : Promise) (module : Module)
  /-- The application called `UnregisterModule`. -/
  | unregister (id : Int32)
  /-- `UnregisterModule` was run on the loop thread. -/
  | unregistered (id : Int32)
  /-- Updates were saved in a registered module. -/
  | saved (id : Int32) (properties : Updates)
  /-- A module callback was called. -/
  | invoked (invocation : Invocation)

/-- The state of an instance. -/
structure Instance where
  -- `ModuleManager`
  modules : OrdMap Int32 Module := .empty
  msgQueue : List Text := []
  idCounter : Int32 := 0
  initialized : Bool := false
  /-- `_server_impl` is not null. -/
  serverImpl : Bool := false
  threadLoop : List Task := []
  -- `Proxy`
  proxyInitialized : Bool := false
  /-- `_client`: the messages on their way to the host. -/
  client : Option (List Text) := none
  /-- `_server` is not null. -/
  server : Bool := false
  -- `ProxyServer`
  /-- By local id: the id in the other instance, and its client. -/
  remoteModules : OrdMap Int32 (Int32 × ClientId) := .empty
  /-- The connected clients: the messages on their way to them. -/
  clients : ClientId → Option (List Text) := fun _ => none
  -- `ServerImpl`
  eventListeners : OrdMap ClientId Unit := .empty
  /-- The web clients alive: the messages sent to them. -/
  wsClients : ClientId → Option (List Text) := fun _ => none
  -- Threads
  loop : LoopPc := .idle
  /-- The calls of `UpdateProperties` with the announcement still to be posted,
      in the order in which they have posted their first task. -/
  calls : List (Int32 × Updates) := []
  handler : ClientId → HandlerPc := fun _ => .idle
  web : ClientId → WebPc := fun _ => .idle
  -- History
  trace : List Event := []

namespace Instance

/-- `ThreadLoop::Post`. -/
def post (s : Instance) (task : Task) : Instance := { s with threadLoop := s.threadLoop ++ [task] }

def log (s : Instance) (e : Event) : Instance := { s with trace := s.trace ++ [e] }

end Instance

end Sacs
