import Sacs.State

/-!
# The internal proxy

The first instance of SACS on a port is the host: it has the web server, and a
`ProxyServer` the other instances connect to. These send it their messages
through their `Proxy`, and the host registers an image of each of their modules.

The `ProxyServer` translates ids: `remoteModules` gives, for the local id of an
image, the id of the module in its instance and the client this instance is.
-/

namespace Sacs

namespace ProxyServer

variable (s : Instance)

def addModule (localId remoteId : Int32) (clientId : ClientId) : Instance :=
  { s with remoteModules := s.remoteModules.insert localId (remoteId, clientId) }

def removeModule (localId : Int32) : Instance :=
  { s with remoteModules := s.remoteModules.erase localId }

/-- The local id of the first image of the module, or `-1`. -/
def localIdFromRemote (remoteId : Int32) (clientId : ClientId) : Int32 :=
  match s.remoteModules.first? fun _ remote => remote.1 = remoteId ∧ remote.2 = clientId with
  | some (localId, _) => localId
  | none => -1

/-- The id no client has, `(uint32_t)-1`. -/
def noClient : ClientId := 0xFFFFFFFF

def remoteIdFromLocal (localId : Int32) : Int32 × ClientId :=
  (s.remoteModules.find? localId).getD (-1, noClient)

/-- `Server::GetClient` and `Client::Send`: nothing is sent to a client that is
    not connected. -/
def send (clientId : ClientId) (msg : Text) : Instance :=
  { s with clients := Function.update s.clients clientId ((s.clients clientId).map (· ++ [msg])) }

/-- Sends an update of an image to the instance its module is in. -/
def handlePropertyUpdate (json : JsonMsg) : Except Fault Instance := do
  let localId ← json.findId
  let remote := remoteIdFromLocal s localId
  if (s.clients remote.2).isSome then
    let json ← json.setId remote.1
    return send s remote.2 (← json.toString)
  else return s

end ProxyServer

namespace Proxy

variable (s : Instance)

def pushMsgForJS (msg : Text) : Except Fault Instance :=
  match s.client with
  | some sent => .ok (({ s with client := some (sent ++ [msg]) } : Instance).log (.pushed msg))
  | none => .error .nullPointer

def handlePropertyUpdate (json : JsonMsg) : Except Fault Instance :=
  if s.server then ProxyServer.handlePropertyUpdate s json else .error .nullPointer

end Proxy

end Sacs
