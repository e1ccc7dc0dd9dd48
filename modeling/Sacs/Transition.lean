import Sacs.Step

/-!
# What the steps of an instance can be

Every step of an instance (`Instance.step`), case by case (`Transition`): the
inversion of the step function, which the proofs of invariants go through.
`transition_of_step` is the only place where the functions of the code are
unfolded to this end.

* Messages sent out: `Emits` is what `HandleMessage` changes on the loop thread.
* Updates passed to a module: `Passes` are the outcomes of
  `PassPropertyUpdateToModule`.
-/

namespace Sacs

open JsonMsg ModuleManager

/-! ## Messages sent out -/

/-- The event is one of a message sent out. -/
def Event.IsOutput : Event → Prop
  | .handled _ | .pushed _ | .produced _ _ => True
  | _ => False

/-- From `s` to `s'`, only messages were sent out. -/
structure Emits (s s' : Instance) : Prop where
  modules : s'.modules = s.modules
  idCounter : s'.idCounter = s.idCounter
  initialized : s'.initialized = s.initialized
  serverImpl : s'.serverImpl = s.serverImpl
  threadLoop : s'.threadLoop = s.threadLoop
  proxyInitialized : s'.proxyInitialized = s.proxyInitialized
  server : s'.server = s.server
  remoteModules : s'.remoteModules = s.remoteModules
  clients : s'.clients = s.clients
  loop : s'.loop = s.loop
  calls : s'.calls = s.calls
  handler : s'.handler = s.handler
  web : s'.web = s.web
  trace : ∃ es, s'.trace = s.trace ++ es ∧ ∀ e ∈ es, e.IsOutput

theorem pushMsgForJS_emits (s : Instance) (msg : Text) :
    Emits s (ServerImpl.pushMsgForJS s msg) := by
  obtain ⟨ls, h, -⟩ := ServerImpl.pushMsgForJS_eq (s := s) msg
  rw [h]
  exact ⟨rfl, rfl, rfl, rfl, rfl, rfl, rfl, rfl, rfl, rfl, rfl, rfl, rfl, _, rfl, by
    simp [Event.IsOutput]⟩

/-- The ways of pushing a message. -/
theorem pushMsg_cases {s s' : Instance} {msg : Text} (h : pushMsg s msg = .ok s') :
    (s.serverImpl = true ∧ s' = ServerImpl.pushMsgForJS s msg) ∨
      (s.serverImpl = false ∧ ∃ sent, s.client = some sent ∧
        s' = { s with client := some (sent ++ [msg]), trace := s.trace ++ [.pushed msg] }) := by
  rw [pushMsg] at h
  split_ifs at h with hs
  · exact .inl ⟨hs, (Except.ok.inj h).symm⟩
  · rw [Proxy.pushMsgForJS] at h
    cases hc : s.client with
    | none => rw [hc] at h; cases h
    | some sent =>
      rw [hc] at h
      exact .inr ⟨by simpa using hs, sent, rfl, (Except.ok.inj h).symm⟩

theorem pushMsg_emits {s s' : Instance} {msg : Text} (h : pushMsg s msg = .ok s') :
    Emits s s' := by
  obtain ⟨-, rfl⟩ | ⟨-, sent, -, rfl⟩ := pushMsg_cases h
  · exact pushMsgForJS_emits s msg
  · exact ⟨rfl, rfl, rfl, rfl, rfl, rfl, rfl, rfl, rfl, rfl, rfl, rfl, rfl, _, rfl, by
      simp [Event.IsOutput]⟩

/-- The ways of handling a message on the loop thread. -/
theorem handleMessage_cases {s s' : Instance} {msg : Text}
    (h : handleMessage s false msg = .ok s') :
    (s.initialized = false ∧
        s' = { s with msgQueue := s.msgQueue ++ [msg], trace := s.trace ++ [.handled msg] }) ∨
      (s.initialized = true ∧ pushMsg (s.log (.handled msg)) msg = .ok s') := by
  rw [handleMessage, if_neg Bool.false_ne_true] at h
  simp only [Instance.log, Bool.not_eq_true'] at h
  split_ifs at h with hi
  · exact .inl ⟨hi, (Except.ok.inj h).symm⟩
  · exact .inr ⟨by simpa using hi, h⟩

theorem handleMessage_emits {s s' : Instance} {msg : Text}
    (h : handleMessage s false msg = .ok s') : Emits s s' := by
  obtain ⟨-, rfl⟩ | ⟨-, h⟩ := handleMessage_cases h
  · exact ⟨rfl, rfl, rfl, rfl, rfl, rfl, rfl, rfl, rfl, rfl, rfl, rfl, rfl, _, rfl, by
      simp [Event.IsOutput]⟩
  · have := pushMsg_emits h
    obtain ⟨es, hes, hout⟩ := this.trace
    exact { this with
      trace := ⟨.handled msg :: es, by simp [hes, Instance.log], by
        simpa [Event.IsOutput] using hout⟩ }

/-! ## Updates passed to a module -/

/-- The state once the updates are saved, as the module `m`. -/
def Instance.saved (s : Instance) (id : Int32) (ps : Updates) (m : Module) : Instance :=
  { s with modules := s.modules.modify id fun _ => m, trace := s.trace ++ [.saved id ps] }

theorem savePropertiesList_cases {s s' : Instance} {id : Int32} {ps : Updates}
    (h : savePropertiesList s false id ps = .ok s') :
    (s.modules.find? id = none ∧ s' = s) ∨
      ∃ m m', s.modules.find? id = some m ∧ m.save ps = .ok m' ∧ s' = s.saved id ps m' := by
  rw [savePropertiesList, if_neg Bool.false_ne_true] at h
  cases hm : s.modules.find? id with
  | none => rw [hm] at h; exact .inl ⟨rfl, (Except.ok.inj h).symm⟩
  | some m =>
    rw [hm] at h
    obtain ⟨m', hm', h⟩ := bind_eq_ok.1 h
    exact .inr ⟨m, m', rfl, hm', (Except.ok.inj h).symm⟩

/-- What saving updates leaves unchanged. -/
theorem savePropertiesList_frame {s s' : Instance} {id : Int32} {ps : Updates}
    (h : savePropertiesList s false id ps = .ok s') :
    ∃ modules trace, s' = { s with modules, trace } := by
  obtain ⟨-, rfl⟩ | ⟨m, m', -, -, rfl⟩ := savePropertiesList_cases h
  · exact ⟨_, _, rfl⟩
  · exact ⟨_, _, rfl⟩

/-- The outcomes of passing an update to a module, on the loop thread. -/
inductive Passes (s : Instance) (json : JsonMsg) : Instance → Prop
  /-- There is no such module, or the update is empty. -/
  | nothing {id : Int32} :
      json.findId = .ok id →
      (∀ m, s.modules.find? id = some m → ∃ json', json.getPropertiesList = .ok ([], json')) →
      Passes s json s
  /-- The module is an image, whose instance is not connected. -/
  | unrouted {id : Int32} {m m' : Module} {ps : Updates} {json' : JsonMsg} :
      json.findId = .ok id → s.modules.find? id = some m →
      json.getPropertiesList = .ok (ps, json') → ps ≠ [] → m.save ps = .ok m' →
      m.callback = none → s.server = true →
      s.clients (ProxyServer.remoteIdFromLocal s id).2 = none →
      Passes s json (s.saved id ps m')
  /-- The module is an image, and the update is sent to its instance. -/
  | sent {id : Int32} {m m' : Module} {ps : Updates} {json' json'' : JsonMsg} {out : List Text}
      {msg : Text} :
      json.findId = .ok id → s.modules.find? id = some m →
      json.getPropertiesList = .ok (ps, json') → ps ≠ [] → m.save ps = .ok m' →
      m.callback = none → s.server = true →
      s.clients (ProxyServer.remoteIdFromLocal s id).2 = some out →
      json'.setId (ProxyServer.remoteIdFromLocal s id).1 = .ok json'' →
      json''.toString = .ok msg →
      Passes s json { s.saved id ps m' with
        clients := Function.update s.clients (ProxyServer.remoteIdFromLocal s id).2
          (some (out ++ [msg])) }
  /-- The callback of the module is called. -/
  | invoked {id : Int32} {m m' : Module} {ps : Updates} {json' : JsonMsg} {callback : Callback} :
      json.findId = .ok id → s.modules.find? id = some m →
      json.getPropertiesList = .ok (ps, json') → ps ≠ [] → m.save ps = .ok m' →
      m.callback = some callback →
      Passes s json (invoke (s.saved id ps m') callback id ps)

theorem passes_of_passPropertyUpdateToModule {s s' : Instance} {json : JsonMsg}
    (h : passPropertyUpdateToModule s false json = .ok s') : Passes s json s' := by
  rw [passPropertyUpdateToModule, if_neg Bool.false_ne_true] at h
  obtain ⟨id, hid, h⟩ := bind_eq_ok.1 h
  cases hm : s.modules.find? id with
  | none =>
    rw [hm] at h
    cases Except.ok.inj h
    exact .nothing hid (by simp [hm])
  | some m =>
    rw [hm] at h
    obtain ⟨⟨ps, json'⟩, hps, h⟩ := bind_eq_ok.1 h
    dsimp only at h
    split_ifs at h with hne
    · cases Except.ok.inj h
      exact .nothing hid fun _ _ => ⟨json', hne ▸ hps⟩
    obtain ⟨s₁, hs₁, h⟩ := bind_eq_ok.1 h
    obtain ⟨hm', -⟩ | ⟨m₀, m', hm₀, hm', rfl⟩ := savePropertiesList_cases hs₁
    · rw [hm] at hm'; cases hm'
    cases hm.symm.trans hm₀
    cases hcb : m.callback with
    | some callback =>
      rw [hcb] at h
      cases Except.ok.inj h
      exact .invoked hid hm hps hne hm' hcb
    | none =>
      rw [hcb] at h
      simp only [Proxy.handlePropertyUpdate] at h
      split_ifs at h with hserver
      obtain ⟨id', hid', h⟩ := bind_eq_ok.1 h
      obtain rfl : id' = id := by
        rw [(getPropertiesList_spec hps).2.1, hid] at hid'
        exact (Except.ok.inj hid').symm
      dsimp only at h
      cases hc : s.clients (ProxyServer.remoteIdFromLocal s id').2 with
      | none =>
        have hc' : (s.saved id' ps m').clients
          (ProxyServer.remoteIdFromLocal (s.saved id' ps m') id').2 = none := hc
        rw [hc', if_neg (by simp)] at h
        cases Except.ok.inj h
        exact .unrouted hid hm hps hne hm' hcb hserver hc
      | some out =>
        have hc' : (s.saved id' ps m').clients
          (ProxyServer.remoteIdFromLocal (s.saved id' ps m') id').2 = some out := hc
        rw [hc', if_pos (by simp)] at h
        obtain ⟨json'', hjson, h⟩ := bind_eq_ok.1 h
        obtain ⟨msg, hmsg, h⟩ := bind_eq_ok.1 h
        cases Except.ok.inj h
        rw [ProxyServer.send, hc']
        exact .sent hid hm hps hne hm' hcb hserver hc hjson hmsg

/-! ## Transitions -/

/-- The loop thread can take `task`, leaving the queue `q`. -/
structure Takes (s : Instance) (task : Task) (q : List Task) : Prop where
  idle : s.loop = .idle
  threadLoop : s.threadLoop = task :: q

theorem Takes.step_task {s : Instance} {t : Task} {q : List Task} (h : Takes s t q) :
    s.step .task = runTask { s with threadLoop := q } t := by
  rw [Instance.step, Instance.nextTask, h.idle, h.threadLoop]

/-- The state once the module is registered. -/
def Instance.added (s : Instance) (promise : Promise) (m : Module) : Instance :=
  { s with
    idCounter := s.idCounter + 1
    modules := s.modules.insert s.idCounter (m.setId s.idCounter)
    trace := s.trace ++ [.registered s.idCounter promise (m.setId s.idCounter)] }

/-- The state once the module is unregistered. -/
def Instance.removed (s : Instance) (id : Int32) : Instance :=
  { s with modules := s.modules.erase id, trace := s.trace ++ [.unregistered id] }

/-- The possible steps of an instance. -/
inductive Transition (s : Instance) : Action → Instance → Prop
  -- Application threads
  | registerModule {n : Str} {ps : List Property} {cb : Option Callback} :
      Transition s (.registerModule n ps cb) (s.post (.doRegisterModule ⟨-1, n, ps, cb⟩ .app))
  | unregisterModule {id : Int32} :
      Transition s (.unregisterModule id) ((s.log (.unregister id)).post (.unregisterModule id))
  | updateProperties {id : Int32} {ps : Updates} :
      Transition s (.updateProperties id ps)
        { s.post (.savePropertiesList id ps) with calls := s.calls ++ [(id, ps)] }
  | announce {i : Nat} {id : Int32} {ps : Updates} {msg : Text} :
      s.calls[i]? = some (id, ps) → createPropertyUpdated id ps = .ok msg →
      Transition s (.announce i)
        (({ s with calls := s.calls.eraseIdx i } : Instance).post (.handleMessage msg))
  | announceThrows {i : Nat} {id : Int32} {ps : Updates} :
      s.calls[i]? = some (id, ps) → ¬Announceable ps →
      Transition s (.announce i) { s with calls := s.calls.eraseIdx i }
  -- Loop thread
  | taskRole {hostMode : Bool} {q : List Task} :
      Takes s (.onProxyInitialized hostMode) q →
      Transition s .task { s with
        threadLoop := q, serverImpl := s.serverImpl || hostMode, initialized := true
        loop := .flushing }
  | taskHandle {msg : Text} {q : List Task} {s' : Instance} :
      Takes s (.handleMessage msg) q →
      handleMessage { s with threadLoop := q } false msg = .ok s' →
      Transition s .task s'
  | taskRegister {m : Module} {promise : Promise} {q : List Task} {msg : Text} {s' : Instance} :
      Takes s (.doRegisterModule m promise) q → s.idCounter ≠ Int32.maxValue →
      createModuleAdded (m.setId s.idCounter) = .ok msg →
      handleMessage (({ s with threadLoop := q } : Instance).added promise m) false msg = .ok s' →
      Transition s .task (fulfil s' promise s.idCounter)
  | taskUnregister {id : Int32} {q : List Task} {msg : Text} {s' : Instance} :
      Takes s (.unregisterModule id) q → createModuleRemoved id = .ok msg →
      handleMessage (({ s with threadLoop := q } : Instance).removed id) false msg = .ok s' →
      Transition s .task s'
  | taskSaveNone {id : Int32} {ps : Updates} {q : List Task} :
      Takes s (.savePropertiesList id ps) q → s.modules.find? id = none →
      Transition s .task { s with threadLoop := q }
  | taskSave {id : Int32} {ps : Updates} {m m' : Module} {q : List Task} :
      Takes s (.savePropertiesList id ps) q → s.modules.find? id = some m → m.save ps = .ok m' →
      Transition s .task (({ s with threadLoop := q } : Instance).saved id ps m')
  | taskOther {json : JsonMsg} {w : ClientId} {q : List Task} :
      Takes s (.doProcessJSRequest json w) q → json.type ≠ .reqLoad → json.type ≠ .reqApply →
      Transition s .task (respond { s with threadLoop := q } w emptyJson)
  | taskLoad {json : JsonMsg} {w : ClientId} {q : List Task} {result : Text} {s' : Instance} :
      Takes s (.doProcessJSRequest json w) q → json.type = .reqLoad →
      createModuleList (s.modules.entries.map Prod.snd) = .ok result →
      Passes { s with threadLoop := q } json s' →
      Transition s .task (answer s' w result)
  | taskApply {json : JsonMsg} {w : ClientId} {q : List Task} {s' : Instance} :
      Takes s (.doProcessJSRequest json w) q → json.type = .reqApply →
      Passes { s with threadLoop := q } json s' →
      Transition s .task (answer s' w emptyJson)
  | taskPass {json : JsonMsg} {q : List Task} {s' : Instance} :
      Takes s (.passPropertyUpdateToModule json) q →
      Passes { s with threadLoop := q } json s' →
      Transition s .task s'
  | flushed : s.loop = .flushing → s.msgQueue = [] → Transition s .flush { s with loop := .idle }
  | flush {msg : Text} {q : List Text} {s' : Instance} :
      s.loop = .flushing → s.msgQueue = msg :: q →
      pushMsg { s with msgQueue := q } msg = .ok s' → Transition s .flush s'
  -- Loop thread, in a module callback
  | callbackRegister {n : Str} {ps : List Property} {cb : Option Callback}
      {request : Option (ClientId × Text)} :
      s.loop = .callback request →
      Transition s (.callbackRegisterModule n ps cb)
        { s.post (.doRegisterModule ⟨-1, n, ps, cb⟩ .callback) with loop := .waiting request }
  | callbackUnregister {id : Int32} {request : Option (ClientId × Text)} {msg : Text}
      {s' : Instance} :
      s.loop = .callback request → createModuleRemoved id = .ok msg →
      handleMessage ((s.log (.unregister id)).removed id) false msg = .ok s' →
      Transition s (.callbackUnregisterModule id) s'
  | callbackUpdate {id : Int32} {ps : Updates} {request : Option (ClientId × Text)} {msg : Text}
      {s₁ s' : Instance} :
      s.loop = .callback request → savePropertiesList s false id ps = .ok s₁ →
      createPropertyUpdated id ps = .ok msg → handleMessage s₁ false msg = .ok s' →
      Transition s (.callbackUpdateProperties id ps) s'
  | callbackUpdateThrows {id : Int32} {ps : Updates} {request : Option (ClientId × Text)}
      {s' : Instance} :
      s.loop = .callback request → savePropertiesList s false id ps = .ok s' →
      ¬Announceable ps → Transition s (.callbackUpdateProperties id ps) s'
  | callbackReturn :
      s.loop = .callback none → Transition s .callbackReturn { s with loop := .idle }
  | callbackAnswer {w : ClientId} {response : Text} :
      s.loop = .callback (some (w, response)) →
      Transition s .callbackReturn (respond { s with loop := .idle } w response)
  -- Network threads, for the connection to the host
  | connectingAgain {ok : Bool} : s.proxyInitialized = true → Transition s (.connecting ok) s
  | connectingProxy :
      s.proxyInitialized = false →
      Transition s (.connecting true) (({ s with
        proxyInitialized := true, client := some [] } : Instance).post
          (.onProxyInitialized s.server))
  | connectingHost :
      s.proxyInitialized = false →
      Transition s (.connecting false) (({ s with
        proxyInitialized := true, server := true } : Instance).post (.onProxyInitialized true))
  | proxyRead {msg : Text} {json : JsonMsg} :
      s.client.isSome = true → parse msg = .ok json →
      Transition s (.proxyRead msg) (s.post (.passPropertyUpdateToModule json))
  -- Network threads, for the clients of the other instances
  | accept {c : ClientId} :
      s.server = true → s.clients c = none → c ≠ ProxyServer.noClient →
      Transition s (.accept c) { s with clients := Function.update s.clients c (some []) }
  | readNothing {c : ClientId} {msg : Text} {json : JsonMsg} :
      (s.clients c).isSome → s.handler c = .idle → parse msg = .ok json →
      (json.type ≠ .moduleAdd ∧ json.type ≠ .moduleDel ∧ json.type ≠ .propertyUpdate) →
      Transition s (.read c msg) s
  | readAdd {c : ClientId} {msg : Text} {json : JsonMsg} {m : Module} :
      (s.clients c).isSome → s.handler c = .idle → parse msg = .ok json →
      json.type = .moduleAdd → json.toModule = .ok (some m) →
      Transition s (.read c msg) (ProxyServer.setHandler
        (s.post (.doRegisterModule m (.handler c))) c (.registering m.id))
  | readDel {c : ClientId} {msg : Text} {json : JsonMsg} {id : Int32} :
      (s.clients c).isSome → s.handler c = .idle → parse msg = .ok json →
      json.type = .moduleDel → json.findId = .ok id →
      Transition s (.read c msg) (ProxyServer.removeModule
        (s.post (.unregisterModule (ProxyServer.localIdFromRemote s id c)))
        (ProxyServer.localIdFromRemote s id c))
  | readUpdate {c : ClientId} {msg : Text} {json json' json'' : JsonMsg} {id : Int32}
      {ps : Updates} :
      (s.clients c).isSome → s.handler c = .idle → parse msg = .ok json →
      json.type = .propertyUpdate → json.findId = .ok id →
      json.setId (ProxyServer.localIdFromRemote s id c) = .ok json' →
      json'.getPropertiesList = .ok (ps, json'') →
      Transition s (.read c msg) (ProxyServer.setHandler
        (s.post (.savePropertiesList (ProxyServer.localIdFromRemote s id c) ps)) c
        (.updating json''))
  | resumeAdd {c : ClientId} {remoteId localId : Int32} :
      s.handler c = .registered remoteId localId →
      Transition s (.resume c)
        (ProxyServer.setHandler (ProxyServer.addModule s localId remoteId c) c .idle)
  | resumeUpdate {c : ClientId} {json : JsonMsg} {msg : Text} :
      s.handler c = .updating json → json.toString = .ok msg →
      Transition s (.resume c) (ProxyServer.setHandler (s.post (.handleMessage msg)) c .idle)
  | resumeClosing {c : ClientId} {localId : Int32} {remote : Int32 × ClientId} :
      s.handler c = .closing → ProxyServer.nextOfClient s c = some (localId, remote) →
      Transition s (.resume c)
        (ProxyServer.removeModule (s.post (.unregisterModule localId)) localId)
  | resumeClosed {c : ClientId} :
      s.handler c = .closing → ProxyServer.nextOfClient s c = none →
      Transition s (.resume c)
        (ProxyServer.setHandler { s with clients := Function.update s.clients c none } c .idle)
  | closed {c : ClientId} :
      (s.clients c).isSome → s.handler c = .idle →
      Transition s (.closed c) (ProxyServer.setHandler s c .closing)
  -- Network threads, for the web clients
  | wsConnected {w : ClientId} :
      s.serverImpl = true → s.wsClients w = none → s.eventListeners.find? w = none →
      Transition s (.wsConnected w) (ServerImpl.addEventListener
        { s with wsClients := Function.update s.wsClients w (some []) } w)
  | wsLarge {w : ClientId} {msg : WebsocketMessage} :
      (s.wsClients w).isSome → s.web w = .idle → msg.useDriveCache = true →
      Transition s (.wsMessage w msg) s
  | wsNotJson {w : ClientId} :
      (s.wsClients w).isSome → s.web w = .idle →
      Transition s (.wsMessage w ⟨.other, false⟩)
        (ServerImpl.send (s.log (.produced w emptyJson)) w emptyJson)
  | wsRequest {w : ClientId} {msg : Text} {json : JsonMsg} :
      (s.wsClients w).isSome → s.web w = .idle → parse msg = .ok json → json.isValid = true →
      Transition s (.wsMessage w ⟨msg, false⟩)
        (ServerImpl.setWeb (s.post (.doProcessJSRequest json w)) w .waiting)
  | wsReply {w : ClientId} {response : Text} :
      s.web w = .ready response →
      Transition s (.wsReply w) (ServerImpl.setWeb (ServerImpl.send s w response) w .idle)
  | wsClosed {w : ClientId} :
      (s.wsClients w).isSome → s.web w = .idle →
      Transition s (.wsClosed w) (ServerImpl.removeEventListener
        { s with wsClients := Function.update s.wsClients w none } w)
  | wsExpired {w : ClientId} :
      (s.wsClients w).isSome → s.web w = .idle →
      Transition s (.wsExpired w) { s with wsClients := Function.update s.wsClients w none }

/-! ### The steps are transitions -/

theorem exists_update_msg_or (id : Int32) (ps : Updates) :
    (∃ msg, createPropertyUpdated id ps = .ok msg) ∨
      (¬Announceable ps ∧ ∃ e, createPropertyUpdated id ps = .error e) := by
  by_cases h : Announceable ps
  · exact .inl (createPropertyUpdated_eq_ok_iff.2 h)
  · refine .inr ⟨h, ?_⟩
    cases hmsg : createPropertyUpdated id ps with
    | ok msg => exact absurd (createPropertyUpdated_eq_ok_iff.1 ⟨msg, hmsg⟩) h
    | error e => exact ⟨e, rfl⟩

theorem transition_of_announceCall {s s' : Instance} {i : Nat}
    (h : s.announceCall i = .ok s') : Transition s (.announce i) s' := by
  rw [Instance.announceCall] at h
  cases hi : s.calls[i]? with
  | none => rw [hi] at h; cases h
  | some call =>
    obtain ⟨id, ps⟩ := call
    rw [hi] at h
    simp only [announce] at h
    rcases exists_update_msg_or id ps with ⟨msg, hmsg⟩ | ⟨hps, e, he⟩
    · rw [hmsg] at h
      cases h
      exact .announce hi hmsg
    · rw [he] at h
      cases h
      exact .announceThrows hi hps

theorem transition_of_callbackUpdate {s s' : Instance} {id : Int32} {ps : Updates}
    {request : Option (ClientId × Text)} (hloop : s.loop = .callback request)
    (h : s.callbackUpdate id ps = .ok s') : Transition s (.callbackUpdateProperties id ps) s' := by
  obtain ⟨s₁, hs₁, h⟩ := bind_eq_ok.1 h
  rcases exists_update_msg_or id ps with ⟨msg, hmsg⟩ | ⟨hps, e, he⟩
  · rw [hmsg] at h
    exact .callbackUpdate hloop hs₁ hmsg h
  · rw [he] at h
    cases h
    exact .callbackUpdateThrows hloop hs₁ hps

theorem transition_of_nextTask {s s' : Instance} (h : s.nextTask = .ok s') :
    Transition s .task s' := by
  rw [Instance.nextTask] at h
  split at h
  case h_2 => cases h
  rename_i task q hloop hq
  have ht : Takes s task q := ⟨hloop, hq⟩
  cases task with
  | onProxyInitialized hostMode =>
    cases Except.ok.inj h
    exact .taskRole ht
  | handleMessage msg => exact .taskHandle ht h
  | doRegisterModule m promise =>
    simp only [runTask, doRegisterModule] at h
    split_ifs at h with hmax
    obtain ⟨msg, hmsg, h⟩ := bind_eq_ok.1 h
    obtain ⟨s₁, hs₁, h⟩ := bind_eq_ok.1 h
    cases Except.ok.inj h
    exact .taskRegister ht hmax hmsg hs₁
  | unregisterModule id =>
    simp only [runTask, unregisterModule, if_neg Bool.false_ne_true] at h
    obtain ⟨msg, hmsg, h⟩ := bind_eq_ok.1 h
    exact .taskUnregister ht hmsg h
  | savePropertiesList id ps =>
    obtain ⟨hm, rfl⟩ | ⟨m, m', hm, hm', rfl⟩ := savePropertiesList_cases h
    · exact .taskSaveNone ht hm
    · exact .taskSave ht hm hm'
  | doProcessJSRequest json w =>
    simp only [runTask, doProcessJSRequest] at h
    split at h
    · rename_i htype
      obtain ⟨result, hresult, h⟩ := bind_eq_ok.1 h
      obtain ⟨s₁, hs₁, h⟩ := bind_eq_ok.1 h
      cases Except.ok.inj h
      exact .taskLoad ht htype hresult (passes_of_passPropertyUpdateToModule hs₁)
    · rename_i htype
      obtain ⟨s₁, hs₁, h⟩ := bind_eq_ok.1 h
      cases Except.ok.inj h
      exact .taskApply ht htype (passes_of_passPropertyUpdateToModule hs₁)
    · rename_i hload happly
      cases Except.ok.inj h
      rw [answer]
      split
      · rename_i _ hcb
        exact absurd (hcb.symm.trans hloop) LoopPc.noConfusion
      · exact .taskOther ht hload happly
  | passPropertyUpdateToModule json =>
    exact .taskPass ht (passes_of_passPropertyUpdateToModule h)

theorem transition_of_read {s s' : Instance} {c : ClientId} {msg : Text}
    (hc : (s.clients c).isSome) (hpc : s.handler c = .idle)
    (h : ProxyServer.onClientRead s c msg = .ok s') : Transition s (.read c msg) s' := by
  obtain ⟨json, hjson, h⟩ := bind_eq_ok.1 h
  split_ifs at h with hvalid
  · cases Except.ok.inj h
    obtain ⟨-, rfl⟩ | ⟨hp, -⟩ := parsed_of_parse hjson
    · exact .readNothing hc hpc hjson (by decide)
    · simp [hp.isValid] at hvalid
  split at h
  · rename_i htype
    obtain ⟨m?, hm?, h⟩ := bind_eq_ok.1 h
    cases m? with
    | none => cases h
    | some m =>
      cases Except.ok.inj h
      exact .readAdd hc hpc hjson htype hm?
  · rename_i htype
    obtain ⟨id, hid, h⟩ := bind_eq_ok.1 h
    cases Except.ok.inj h
    exact .readDel hc hpc hjson htype hid
  · rename_i htype
    obtain ⟨id, hid, h⟩ := bind_eq_ok.1 h
    obtain ⟨json', hjson', h⟩ := bind_eq_ok.1 h
    obtain ⟨⟨ps, json''⟩, hps, h⟩ := bind_eq_ok.1 h
    cases Except.ok.inj h
    exact .readUpdate hc hpc hjson htype hid hjson' hps
  · rename_i hadd hdel hupdate
    cases Except.ok.inj h
    exact .readNothing hc hpc hjson ⟨hadd, hdel, hupdate⟩

theorem transition_of_resume {s s' : Instance} {c : ClientId}
    (h : ProxyServer.resume s c = .ok s') : Transition s (.resume c) s' := by
  rw [ProxyServer.resume] at h
  cases hpc : s.handler c with
  | idle => rw [hpc] at h; cases h
  | registering remoteId => rw [hpc] at h; cases h
  | registered remoteId localId =>
    rw [hpc] at h
    cases Except.ok.inj h
    exact .resumeAdd hpc
  | updating json =>
    rw [hpc] at h
    obtain ⟨msg, hmsg, h⟩ := bind_eq_ok.1 h
    cases Except.ok.inj h
    exact .resumeUpdate hpc hmsg
  | closing =>
    rw [hpc] at h
    cases hnext : ProxyServer.nextOfClient s c with
    | none =>
      rw [hnext] at h
      cases Except.ok.inj h
      exact .resumeClosed hpc hnext
    | some entry =>
      obtain ⟨localId, remote⟩ := entry
      rw [hnext] at h
      cases Except.ok.inj h
      exact .resumeClosing hpc hnext

/-- A step of an instance is one of the transitions. -/
theorem transition_of_step {s s' : Instance} {a : Action} (h : s.step a = .ok s') :
    Transition s a s' := by
  cases a with
  | registerModule n ps cb => cases h; exact .registerModule
  | unregisterModule id => cases h; exact .unregisterModule
  | updateProperties id ps => cases h; exact .updateProperties
  | announce i => exact transition_of_announceCall h
  | task => exact transition_of_nextTask h
  | flush =>
    simp only [Instance.step] at h
    split at h
    case h_2 => cases h
    rename_i hloop
    rw [ModuleManager.flush] at h
    split at h
    · rename_i hq
      cases h
      exact .flushed hloop hq
    · rename_i msg q hq
      exact .flush hloop hq h
  | callbackRegisterModule n ps cb =>
    simp only [Instance.step] at h
    split at h
    case h_2 => cases h
    rename_i request hloop
    cases h
    exact .callbackRegister hloop
  | callbackUnregisterModule id =>
    simp only [Instance.step] at h
    split at h
    case h_2 => cases h
    rename_i request hloop
    simp only [unregisterModule, if_neg Bool.false_ne_true] at h
    obtain ⟨msg, hmsg, h⟩ := bind_eq_ok.1 h
    exact .callbackUnregister hloop hmsg h
  | callbackUpdateProperties id ps =>
    simp only [Instance.step] at h
    split at h
    case h_2 => cases h
    rename_i request hloop
    exact transition_of_callbackUpdate hloop h
  | callbackReturn =>
    simp only [Instance.step, Instance.returnCallback] at h
    split at h
    · rename_i hloop
      cases h
      exact .callbackReturn hloop
    · rename_i w response hloop
      cases h
      exact .callbackAnswer hloop
    · cases h
  | connecting ok =>
    cases h
    rw [Proxy.onClientConnecting]
    split_ifs with hp hok
    · exact .connectingAgain hp
    · subst hok
      exact .connectingProxy (by simpa using hp)
    · rw [Bool.not_eq_true] at hok
      subst hok
      exact .connectingHost (by simpa using hp)
  | proxyRead msg =>
    simp only [Instance.step] at h
    split_ifs at h with hc
    obtain ⟨json, hjson, h⟩ := bind_eq_ok.1 h
    cases Except.ok.inj h
    exact .proxyRead hc hjson
  | accept c =>
    simp only [Instance.step] at h
    split_ifs at h with hc
    cases h
    exact .accept hc.1 hc.2.1 hc.2.2
  | read c msg =>
    simp only [Instance.step] at h
    split at h
    case h_2 => cases h
    rename_i out hout hpc
    exact transition_of_read (by simp [hout]) hpc h
  | resume c => exact transition_of_resume h
  | closed c =>
    simp only [Instance.step] at h
    split at h
    case h_2 => cases h
    rename_i out hout hpc
    cases h
    exact .closed (by simp [hout]) hpc
  | wsConnected w =>
    simp only [Instance.step] at h
    split_ifs at h with hw
    cases h
    exact .wsConnected hw.1 hw.2.1 hw.2.2
  | wsMessage w msg =>
    simp only [Instance.step] at h
    split at h
    case h_2 => cases h
    rename_i sent hsent hpc
    obtain ⟨text, large⟩ := msg
    cases large with
    | true =>
      cases h
      exact .wsLarge (by simp [hsent]) hpc rfl
    | false =>
    obtain ⟨json, hjson, h⟩ := bind_eq_ok.1 h
    obtain ⟨rfl, rfl⟩ | ⟨hp, -⟩ := parsed_of_parse hjson
    · cases h
      exact .wsNotJson (by simp [hsent]) hpc
    · simp only [hp.isValid, Bool.not_true, Bool.false_eq_true, if_false] at h
      cases h
      exact .wsRequest (by simp [hsent]) hpc hjson hp.isValid
  | wsReply w =>
    simp only [Instance.step] at h
    split at h
    case h_2 => cases h
    rename_i response hpc
    cases h
    exact .wsReply hpc
  | wsClosed w =>
    simp only [Instance.step] at h
    split at h
    case h_2 => cases h
    rename_i sent hsent hpc
    cases h
    exact .wsClosed (by simp [hsent]) hpc
  | wsExpired w =>
    simp only [Instance.step] at h
    split at h
    case h_2 => cases h
    rename_i sent hsent hpc
    cases h
    exact .wsExpired (by simp [hsent]) hpc

end Sacs
