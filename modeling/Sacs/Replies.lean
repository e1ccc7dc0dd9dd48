import Sacs.Announcements

/-!
# Messages to the web clients

A web client is sent messages by two threads: the loop thread pushes the
announcements, and a network thread sends the answer to a request, once the
loop thread has made it. An announcement pushed in between is sent before the
answer, although it was made after it.

In the runs in which the loop thread pushes nothing while an answer waits to be
sent (`Instance.Unhurried`), what a client has been sent, and then the answer
waiting, are the last messages made for it, in this order
(`sentInOrder_of_runs`). The invariant (`Instance.Served`) also counts the
requests of each client: there is one exactly while its handler waits.
-/

namespace Sacs

open JsonMsg ModuleManager

/-! ## Messages made and sent -/

@[simp] def Event.produced? (w : ClientId) : Event → Option Text
  | .produced w' msg => if w' = w then some msg else none
  | _ => none

/-- The messages made for the web client `w` so far. -/
def Instance.produced (s : Instance) (w : ClientId) : List Text :=
  s.trace.filterMap (Event.produced? w)

/-- The answer waiting to be sent to `w`. -/
def Instance.reply (s : Instance) (w : ClientId) : List Text :=
  match s.web w with
  | .ready response => [response]
  | _ => []

/-- What a web client has been sent since it is connected, and then the answer
    waiting to be sent, are the last messages made for it. -/
def Instance.SentInOrder (s : Instance) (w : ClientId) : Prop :=
  ∀ sent, s.wsClients w = some sent → sent ++ s.reply w <:+ s.produced w

/-- The task announces something. -/
def Task.broadcasts : Task → Bool
  | .doRegisterModule .. | .unregisterModule _ | .handleMessage _ => true
  | _ => false

/-- The step pushes a message to the listeners. -/
def Instance.Broadcasts (s : Instance) : Action → Prop
  | .task => s.serverImpl ∧ s.initialized ∧ s.threadLoop.head?.any Task.broadcasts
  | .flush => s.serverImpl ∧ s.msgQueue ≠ []
  | .callbackUnregisterModule _ => s.serverImpl ∧ s.initialized
  | .callbackUpdateProperties _ ps => s.serverImpl ∧ s.initialized ∧ Announceable ps
  | _ => False

/-- Nothing is pushed to a listener while an answer to it waits to be sent. -/
def Instance.Unhurried (s : Instance) (a : Action) : Prop :=
  s.Broadcasts a → ∀ w ∈ ServerImpl.listening s, s.reply w = []

/-! ## The invariant -/

/-- The task answers a request of `w`. -/
def Task.answers (w : ClientId) : Task → Bool
  | .doProcessJSRequest _ w' => w' = w
  | _ => false

/-- The client whose request is answered when the callback running returns. -/
def LoopPc.client? : LoopPc → Option ClientId
  | .callback request | .waiting request => request.map Prod.fst
  | _ => none

/-- The number of requests of `w` still to be answered by the loop thread. -/
def Instance.requests (s : Instance) (w : ClientId) : Nat :=
  s.threadLoop.countP (Task.answers w) + if s.loop.client? = some w then 1 else 0

/-- The requests are counted in any run, the order of the messages is kept in those
    that are `ordered`. -/
structure Instance.Served (ordered : Prop) (s : Instance) : Prop where
  /-- The handler of a client that is gone has returned. -/
  idle : ∀ {w}, s.wsClients w = none → s.web w = .idle
  waiting : ∀ {w}, s.web w = .waiting → s.requests w = 1
  notWaiting : ∀ {w}, s.web w ≠ .waiting → s.requests w = 0
  inOrder : ordered → ∀ w, s.SentInOrder w

/-! ### What is sent by a step -/

theorem produced_of_trace {s s' : Instance} {es : List Event} (h : s'.trace = s.trace ++ es)
    (w : ClientId) : s'.produced w = s.produced w ++ es.filterMap (Event.produced? w) := by
  rw [Instance.produced, h, List.filterMap_append]
  rfl

theorem filterMap_produced {ws : List ClientId} (hws : ws.Nodup) (msg : Text) (w : ClientId) :
    (ws.map (Event.produced · msg)).filterMap (Event.produced? w) =
      if w ∈ ws then [msg] else [] := by
  induction ws with
  | nil => rfl
  | cons v ws ih =>
    obtain ⟨hv, hws⟩ := List.nodup_cons.1 hws
    rw [List.map_cons, List.filterMap_cons, ih hws, Event.produced?]
    by_cases h : v = w
    · subst h
      simp [hv]
    · simp [h, Ne.symm h]

theorem mem_listening {s : Instance} {w : ClientId} :
    w ∈ ServerImpl.listening s ↔ (s.eventListeners.find? w).isSome ∧ (s.wsClients w).isSome := by
  rw [ServerImpl.listening, List.mem_filter, OrdMap.mem_keys_iff]

theorem nodup_listening (s : Instance) : (ServerImpl.listening s).Nodup :=
  (s.eventListeners.sorted_keys.imp ne_of_lt).filter _

/-- What a push sends: the message, to every listener. -/
structure Broadcast (s s' : Instance) (msg : Text) : Prop where
  wsClients : ∀ w, s'.wsClients w =
    if w ∈ ServerImpl.listening s then (s.wsClients w).map (· ++ [msg]) else s.wsClients w
  produced : ∀ w, s'.produced w =
    s.produced w ++ if w ∈ ServerImpl.listening s then [msg] else []
  listening : ∀ w ∈ ServerImpl.listening s, w ∈ ServerImpl.listening s'

theorem broadcast_pushMsgForJS (s : Instance) (msg : Text) :
    Broadcast s (ServerImpl.pushMsgForJS s msg) msg := by
  obtain ⟨ls, hls, hfind⟩ := ServerImpl.pushMsgForJS_eq (s := s) msg
  refine ⟨fun w => ?_, fun w => ?_, fun w hw => ?_⟩
  · rw [hls]
    dsimp only
    simp only [mem_listening]
    cases s.wsClients w <;> simp
  · rw [hls, produced_of_trace (s := s) rfl, List.filterMap_cons_none rfl,
      filterMap_produced (nodup_listening s)]
  · rw [mem_listening] at hw
    rw [hls, mem_listening]
    refine ⟨(hfind w).2 hw, ?_⟩
    dsimp only
    rw [if_pos hw.1, Option.isSome_map]
    exact hw.2

/-- The state differs in nothing that pushing a message depends on. -/
theorem Broadcast.congr {s₀ s s' : Instance} {msg : Text} (h : Broadcast s s' msg)
    (hclients : s.wsClients = s₀.wsClients) (hlisteners : s.eventListeners = s₀.eventListeners)
    (hprod : s.produced = s₀.produced) : Broadcast s₀ s' msg := by
  have hl : ServerImpl.listening s = ServerImpl.listening s₀ := by
    rw [ServerImpl.listening, hclients, hlisteners, ServerImpl.listening]
  refine ⟨fun w => ?_, fun w => ?_, fun w hw => h.listening w (hl ▸ hw)⟩
  · rw [h.wsClients, hl, hclients]
  · rw [h.produced, hl, hprod]

/-- A step sends `msg` to the listeners, in which case `b` holds, or nothing. -/
def Sends (b : Prop) (s s' : Instance) (msg : Text) : Prop :=
  (b ∧ Broadcast s s' msg) ∨ (s'.wsClients = s.wsClients ∧ s'.produced = s.produced)

/-- A message passed on by a host is pushed, one passed on by another instance
    concerns no web client. -/
theorem sends_of_pushMsg {s₀ s s' : Instance} {msg : Text} (h : pushMsg s msg = .ok s')
    (hclients : s.wsClients = s₀.wsClients) (hlisteners : s.eventListeners = s₀.eventListeners)
    (hprod : s.produced = s₀.produced) : Sends (s.serverImpl = true) s₀ s' msg := by
  obtain ⟨hserver, rfl⟩ | ⟨-, sent, -, rfl⟩ := pushMsg_cases h
  · exact .inl ⟨hserver, (broadcast_pushMsgForJS s msg).congr hclients hlisteners hprod⟩
  · refine .inr ⟨hclients, ?_⟩
    funext w
    rw [produced_of_trace (s := s) rfl, List.filterMap_cons_none rfl, List.filterMap_nil,
      List.append_nil, hprod]

theorem sends_of_handleMessage {s₀ s s' : Instance} {msg : Text}
    (h : handleMessage s false msg = .ok s')
    (hclients : s.wsClients = s₀.wsClients) (hlisteners : s.eventListeners = s₀.eventListeners)
    (hprod : s.produced = s₀.produced) :
    Sends (s.serverImpl = true ∧ s.initialized = true) s₀ s' msg := by
  have hlog : (s.log (.handled msg)).produced = s₀.produced := by
    funext w
    rw [produced_of_trace (s := s) rfl, List.filterMap_cons_none rfl, List.filterMap_nil,
      List.append_nil, hprod]
  obtain ⟨-, rfl⟩ | ⟨hinit, h⟩ := handleMessage_cases h
  · exact .inr ⟨hclients, hlog⟩
  · exact (sends_of_pushMsg h hclients hlisteners hlog).imp_left fun hb => ⟨⟨hb.1, hinit⟩, hb.2⟩

theorem Passes.produced {s s' : Instance} {json : JsonMsg} (h : Passes s json s') :
    s'.produced = s.produced := by
  funext w
  cases h with
  | nothing => rfl
  | invoked =>
    exact (produced_of_trace (s := s) (List.append_assoc ..) w).trans (List.append_nil _)
  | _ => exact (produced_of_trace (s := s) rfl w).trans (List.append_nil _)

theorem produced_of_savePropertiesList {s s' : Instance} {id : Int32} {ps : Updates}
    (h : savePropertiesList s false id ps = .ok s') :
    s'.produced = s.produced ∧ s'.wsClients = s.wsClients ∧
      s'.eventListeners = s.eventListeners ∧ s'.web = s.web ∧ s'.threadLoop = s.threadLoop ∧
      s'.loop = s.loop ∧ s'.serverImpl = s.serverImpl ∧ s'.initialized = s.initialized := by
  obtain ⟨-, rfl⟩ | ⟨m, m', -, -, rfl⟩ := savePropertiesList_cases h
  · exact ⟨rfl, rfl, rfl, rfl, rfl, rfl, rfl, rfl⟩
  · refine ⟨?_, rfl, rfl, rfl, rfl, rfl, rfl, rfl⟩
    funext w
    exact (produced_of_trace (s := s) rfl w).trans (List.append_nil _)

/-! ### The requests -/

/-- The queue grows by a task that is no request. -/
theorem requests_append {s s' : Instance} {ts : List Task} (hq : s'.threadLoop = s.threadLoop ++ ts)
    (hts : ∀ t ∈ ts, ∀ w, t.answers w = false) (hloop : s'.loop.client? = s.loop.client?) :
    s'.requests = s.requests := by
  funext w
  have hzero : ts.countP (Task.answers w) = 0 := List.countP_eq_zero.2 fun t ht => by
    simp [hts t ht]
  rw [Instance.requests, hq, hloop, List.countP_append, hzero]
  rfl

/-- The loop thread takes a task that is no request. -/
theorem requests_take {s s' : Instance} {t : Task} {q : List Task} (ht : Takes s t q)
    (hw : ∀ w, t.answers w = false) (hq : s'.threadLoop = q) (hloop : s'.loop.client? = none) :
    s'.requests = s.requests := by
  funext w
  rw [Instance.requests, Instance.requests, ht.threadLoop, ht.idle, List.countP_cons, hw, hq, hloop]
  rfl

/-- The loop thread takes a request. -/
theorem requests_takeRequest {s s' : Instance} {json : JsonMsg} {w : ClientId} {q : List Task}
    (ht : Takes s (.doProcessJSRequest json w) q) (hq : s'.threadLoop = q)
    (hloop : s'.loop.client? = none) (v : ClientId) :
    s.requests v = s'.requests v + if w = v then 1 else 0 := by
  rw [Instance.requests, Instance.requests, ht.threadLoop, ht.idle, List.countP_cons, hq, hloop]
  simp [LoopPc.client?, Task.answers]

theorem produced_of_produced {s s' : Instance} {w : ClientId} {m : Text}
    (h : s'.trace = s.trace ++ [.produced w m]) (v : ClientId) :
    s'.produced v = s.produced v ++ if w = v then [m] else [] := by
  rw [produced_of_trace h, List.filterMap_cons, Event.produced?]
  split_ifs <;> rfl

namespace Instance.Served

variable {ordered : Prop} {s s' : Instance} (hs : s.Served ordered)

include hs

/-- A step that pushes a message, at most. -/
theorem sends {msg : Text} {b : Prop} (hsend : Sends b s s' msg)
    (hb : ordered → b → ∀ w ∈ ServerImpl.listening s, s.reply w = [])
    (hweb : s'.web = s.web) (hreq : s'.requests = s.requests) : s'.Served ordered := by
  have hnone : ∀ w, s'.wsClients w = none → s.wsClients w = none := by
    intro w hw
    rcases hsend with ⟨-, h⟩ | ⟨h, -⟩
    · rw [h.wsClients] at hw
      split_ifs at hw
      · exact Option.map_eq_none_iff.1 hw
      · exact hw
    · rwa [h] at hw
  have hreply : s'.reply = s.reply := by
    funext w
    rw [reply, hweb, reply]
  refine ⟨fun {w} hw => by rw [hweb]; exact hs.idle (hnone w hw),
    by rw [hweb, hreq]; exact hs.waiting, by rw [hweb, hreq]; exact hs.notWaiting,
    fun hord w sent hsent => ?_⟩
  rw [hreply]
  rcases hsend with ⟨hB, h⟩ | ⟨h₁, h₂⟩
  · rw [h.wsClients] at hsent
    rw [h.produced]
    split_ifs at hsent ⊢ with hw
    · -- A listener: no answer to it is waiting.
      obtain ⟨sent₀, hsent₀, rfl⟩ := Option.map_eq_some_iff.1 hsent
      have := hs.inOrder hord w sent₀ hsent₀
      rw [hb hord hB w hw, List.append_nil] at this ⊢
      obtain ⟨before, hbefore⟩ := this
      exact ⟨before, by rw [← hbefore, List.append_assoc]⟩
    · rw [List.append_nil]
      exact hs.inOrder hord w sent hsent
  · rw [h₁] at hsent
    rw [h₂]
    exact hs.inOrder hord w sent hsent

/-- A step that concerns no web client. -/
theorem keep (hclients : s'.wsClients = s.wsClients) (hprod : s'.produced = s.produced)
    (hweb : s'.web = s.web) (hreq : s'.requests = s.requests) : s'.Served ordered :=
  have hsend : Sends False s s' .other := .inr ⟨hclients, hprod⟩
  hs.sends hsend (fun _ => False.elim) hweb hreq

/-- A step that concerns one web client. -/
theorem touch (w : ClientId)
    (hother : ∀ v, v ≠ w → s'.wsClients v = s.wsClients v ∧ s'.produced v = s.produced v ∧
      s'.web v = s.web v ∧ s'.requests v = s.requests v)
    (hidle : s'.wsClients w = none → s'.web w = .idle)
    (hwaiting : s'.web w = .waiting → s'.requests w = 1)
    (hnot : s'.web w ≠ .waiting → s'.requests w = 0) (horder : ordered → s'.SentInOrder w) :
    s'.Served ordered := by
  refine ⟨fun {v} h => ?_, fun {v} h => ?_, fun {v} h => ?_, fun hord v => ?_⟩ <;>
    by_cases hv : v = w
  · exact hv ▸ hidle (hv ▸ h)
  · obtain ⟨h₁, -, h₃, -⟩ := hother v hv
    rw [h₃]
    exact hs.idle (h₁ ▸ h)
  · exact hv ▸ hwaiting (hv ▸ h)
  · obtain ⟨-, -, h₃, h₄⟩ := hother v hv
    rw [h₄]
    exact hs.waiting (h₃ ▸ h)
  · exact hv ▸ hnot (hv ▸ h)
  · obtain ⟨-, -, h₃, h₄⟩ := hother v hv
    rw [h₄]
    exact hs.notWaiting (h₃ ▸ h)
  · exact hv ▸ horder hord
  · obtain ⟨h₁, h₂, h₃, -⟩ := hother v hv
    intro sent hsent
    rw [h₁] at hsent
    rw [reply, h₂, h₃]
    exact hs.inOrder hord v sent hsent

/-- The loop thread has made the answer to the only request of a client. -/
theorem respond {w : ClientId} {response : Text} (hw : s.web w = .waiting)
    (hclients : s'.wsClients = s.wsClients)
    (hprod : ∀ v, s'.produced v = s.produced v ++ if w = v then [response] else [])
    (hweb : s'.web = Function.update s.web w (.ready response))
    (hreq : ∀ v, s.requests v = s'.requests v + if w = v then 1 else 0) : s'.Served ordered := by
  have hreqw := hreq w
  rw [hs.waiting hw, if_pos rfl] at hreqw
  refine hs.touch w (fun v hv => ⟨by rw [hclients], ?_, ?_, ?_⟩) (fun h => ?_) (fun h => ?_)
    (fun _ => by omega) fun hord sent hsent => ?_
  · rw [hprod, if_neg (Ne.symm hv), List.append_nil]
  · rw [hweb, Function.update_of_ne hv]
  · have := hreq v
    rw [if_neg (Ne.symm hv)] at this
    exact this.symm
  · rw [hclients] at h
    rw [hs.idle h] at hw
    cases hw
  · rw [hweb, Function.update_self] at h
    cases h
  · rw [hclients] at hsent
    obtain ⟨before, hbefore⟩ := hs.inOrder hord w sent hsent
    refine ⟨before, ?_⟩
    rw [reply, hw, List.append_nil] at hbefore
    rw [reply, hweb, Function.update_self, hprod, if_pos rfl, ← hbefore, List.append_assoc]

/-- A client that was not connected has an idle handler, so no reply to it is pending. -/
theorem wsConnected {w : ClientId} (hnone : s.wsClients w = none) :
    (ServerImpl.addEventListener
      { s with wsClients := Function.update s.wsClients w (some []) } w).Served ordered := by
  have hidle := hs.idle hnone
  refine hs.touch w (fun v hv => ⟨Function.update_of_ne hv _ _, rfl, rfl, rfl⟩) (fun _ => hidle)
    (fun h => hs.waiting h) (fun h => hs.notWaiting h) fun hord sent hsent => ?_
  have hsent' : Function.update s.wsClients w (some []) w = some sent := hsent
  rw [Function.update_self, Option.some.injEq] at hsent'
  subst hsent'
  have hreply : s.reply w = [] := by rw [reply, hidle]
  exact ⟨s.produced w, by
    rw [List.nil_append]
    exact (congrArg _ hreply).trans (List.append_nil _)⟩

/-- What is not JSON is answered at once. -/
theorem wsNotJson {w : ClientId} (hpc : s.web w = .idle) :
    (ServerImpl.send (s.log (.produced w emptyJson)) w emptyJson).Served ordered := by
  refine hs.touch w (fun v hv => ⟨Function.update_of_ne hv _ _, ?_, rfl, rfl⟩) (fun _ => hpc)
    (fun h => hs.waiting h) (fun h => hs.notWaiting h) fun hord sent hsent => ?_
  · exact (produced_of_produced (s := s) rfl v).trans
      (by rw [if_neg (Ne.symm hv), List.append_nil])
  · have hsent' : Function.update s.wsClients w ((s.wsClients w).map (· ++ [emptyJson])) w =
      some sent := hsent
    rw [Function.update_self] at hsent'
    obtain ⟨sent₀, hsent₀, rfl⟩ := Option.map_eq_some_iff.1 hsent'
    obtain ⟨before, hbefore⟩ := hs.inOrder hord w sent₀ hsent₀
    have hreply : s.reply w = [] := by rw [reply, hpc]
    rw [hreply, List.append_nil] at hbefore
    have hreply' : reply (ServerImpl.send (s.log (.produced w emptyJson)) w emptyJson) w = [] :=
      hreply
    refine ⟨before, ?_⟩
    rw [produced_of_produced (s := s) rfl, if_pos rfl, ← hbefore, hreply', List.append_nil,
      List.append_assoc]

/-- The request is posted when the handler starts to wait for it. -/
theorem wsRequest {w : ClientId} {json : JsonMsg} (hclient : (s.wsClients w).isSome)
    (hpc : s.web w = .idle) :
    (ServerImpl.setWeb (s.post (.doProcessJSRequest json w)) w .waiting).Served ordered := by
  have hzero := hs.notWaiting (w := w) (by rw [hpc]; exact WebPc.noConfusion)
  have hreq : ∀ v,
      requests (ServerImpl.setWeb (s.post (.doProcessJSRequest json w)) w .waiting) v =
        s.requests v + if w = v then 1 else 0 := by
    intro v
    by_cases hv : w = v
    · simp [requests, ServerImpl.setWeb, post, List.countP_append, Task.answers, hv]
      omega
    · simp [requests, ServerImpl.setWeb, post, List.countP_append, Task.answers, hv]
      rfl
  have hweb : (ServerImpl.setWeb (s.post (.doProcessJSRequest json w)) w .waiting).web w =
    .waiting := Function.update_self ..
  refine hs.touch w (fun v hv => ⟨rfl, rfl, Function.update_of_ne hv _ _, ?_⟩) (fun h => ?_)
    (fun _ => ?_) (fun h => absurd hweb h) fun hord sent hsent => ?_
  · rw [hreq, if_neg (Ne.symm hv), Nat.add_zero]
  · exact absurd h (Option.isSome_iff_ne_none.1 hclient)
  · rw [hreq, hzero, if_pos rfl]
  · have := hs.inOrder hord w sent hsent
    rw [reply, hpc] at this
    rwa [reply, hweb]

/-- The reply is sent. -/
theorem wsReply {w : ClientId} {response : Text} (hpc : s.web w = .ready response) :
    (ServerImpl.setWeb (ServerImpl.send s w response) w .idle).Served ordered := by
  have hweb : (ServerImpl.setWeb (ServerImpl.send s w response) w .idle).web w = .idle :=
    Function.update_self ..
  have hzero := hs.notWaiting (w := w) (by rw [hpc]; exact WebPc.noConfusion)
  refine hs.touch w (fun v hv => ⟨Function.update_of_ne hv _ _, rfl,
    Function.update_of_ne hv _ _, rfl⟩) (fun _ => hweb) (fun h => ?_) (fun _ => hzero)
    fun hord sent hsent => ?_
  · rw [hweb] at h
    cases h
  · have hsent' : Function.update s.wsClients w ((s.wsClients w).map (· ++ [response])) w =
      some sent := hsent
    rw [Function.update_self] at hsent'
    obtain ⟨sent₀, hsent₀, rfl⟩ := Option.map_eq_some_iff.1 hsent'
    have := hs.inOrder hord w sent₀ hsent₀
    rw [reply, hpc] at this
    rw [reply, hweb, List.append_nil]
    exact this

/-- A client is gone, to which no reply is pending. -/
theorem gone {w : ClientId} (hclients : s'.wsClients = Function.update s.wsClients w none)
    (hprod : s'.produced = s.produced) (hweb : s'.web = s.web) (hreq : s'.requests = s.requests)
    (hpc : s.web w = .idle) : s'.Served ordered := by
  have hnone : s'.wsClients w = none := by rw [hclients, Function.update_self]
  refine hs.touch w (fun v hv => ⟨?_, by rw [hprod], by rw [hweb], by rw [hreq]⟩)
    (fun _ => hweb ▸ hpc) (fun h => ?_) (fun h => ?_) fun _ sent hsent => ?_
  · rw [hclients, Function.update_of_ne hv]
  · rw [hreq]
    exact hs.waiting (hweb ▸ h)
  · rw [hreq]
    exact hs.notWaiting (hweb ▸ h)
  · cases hnone.symm.trans hsent

/-- A step of a thread other than the loop. -/
theorem offLoop {a : Action} (h : Transition s a s') (ha : a.onLoop = false) :
    s'.Served ordered := by
  have hoff := h.offLoop ha
  have hlog : ∀ id, (s.log (.unregister id)).produced = s.produced := fun id => by
    funext w
    exact (produced_of_trace (s := s) rfl w).trans (List.append_nil _)
  cases h <;> simp only [Action.onLoop, reduceCtorEq] at ha
  case unregisterModule =>
    exact hs.keep rfl (hlog _) rfl (requests_append rfl (by simp [Task.answers]) rfl)
  case wsConnected hnone _ => exact hs.wsConnected hnone
  case wsNotJson hpc => exact hs.wsNotJson hpc
  case wsRequest hclient hpc _ _ => exact hs.wsRequest hclient hpc
  case wsReply hpc => exact hs.wsReply hpc
  case wsClosed hclient hpc => exact hs.gone rfl rfl rfl rfl hpc
  case wsExpired hclient hpc => exact hs.gone rfl rfl rfl rfl hpc
  all_goals
    first
    | exact hs.keep rfl rfl rfl rfl
    | exact hs.keep rfl rfl rfl (requests_append rfl (by simp [Task.answers]) rfl)

/-- A task that is a request of a client whose handler waits for it. -/
theorem waits {json : JsonMsg} {w : ClientId} {q : List Task}
    (ht : Takes s (.doProcessJSRequest json w) q) : s.web w = .waiting := by
  by_contra hne
  have := hs.notWaiting hne
  rw [@requests_takeRequest s { s with threadLoop := q } json w q ht rfl (by rw [ht.idle]; rfl),
    if_pos rfl] at this
  omega

/-- The loop thread runs a request, and answers it at the end of the task or, if a
    callback is called, when this returns. -/
theorem answers {json json' : JsonMsg} {w : ClientId} {q : List Task} {result : Text}
    {s₁ : Instance} (ht : Takes s (.doProcessJSRequest json w) q)
    (h : Passes { s with threadLoop := q } json' s₁) : (answer s₁ w result).Served ordered := by
  have hw := hs.waits ht
  have hprod := h.produced
  have hloop := h.loop
  obtain ⟨modules, clients, loop, trace, rfl⟩ := h.frame
  rcases hloop with hloop | hloop
  · have hidle : loop = .idle := hloop.trans ht.idle
    subst hidle
    refine hs.respond hw rfl (fun v => ?_) rfl
      (requests_takeRequest ht rfl rfl)
    rw [produced_of_produced (w := w) (m := result) rfl, hprod]
    rfl
  · have hcallback : loop = .callback none := hloop
    subst hcallback
    refine hs.keep rfl hprod rfl ?_
    funext v
    rw [@requests_takeRequest s { s with threadLoop := q } json w q ht rfl (by rw [ht.idle]; rfl)]
    simp [answer, requests, LoopPc.client?, ht.idle]

/-- A module is registered, and announced. -/
theorem taskRegister {m : Module} {promise : Promise} {q : List Task} {msg : Text}
    {s₁ : Instance} (ht : Takes s (.doRegisterModule m promise) q)
    (h : handleMessage (({ s with threadLoop := q } : Instance).added promise m) false msg = .ok s₁)
    (hU : ordered → s.Unhurried .task) : (fulfil s₁ promise s.idCounter).Served ordered := by
  have hemits := handleMessage_emits h
  have hidle : s₁.loop = .idle := hemits.loop.trans ht.idle
  have hloop : (fulfil s₁ promise s.idCounter).loop = .idle :=
    (fulfil_loop _ _ _ fun r => by rw [hidle]; exact LoopPc.noConfusion).trans hidle
  obtain ⟨loop, handler, hs₁⟩ := fulfil_frame s₁ promise s.idCounter
  rw [hs₁] at hloop ⊢
  refine hs.sends ((@sends_of_handleMessage s _ _ _ h rfl rfl ?_).imp
    (fun hb => ⟨hb.1, hb.2.wsClients, hb.2.produced, hb.2.listening⟩) id)
    (fun hord hb => hU hord ⟨hb.1, hb.2, by rw [ht.threadLoop]; rfl⟩)
    hemits.web (requests_take ht (fun _ => rfl) hemits.threadLoop (by rw [hloop]; rfl))
  funext w
  exact (produced_of_trace (s := s) rfl w).trans (List.append_nil _)

/-- The response that the callback kept is handed to the handler, which still waits. -/
theorem callbackAnswer {w : ClientId} {response : Text}
    (hloop : s.loop = .callback (some (w, response))) :
    (ModuleManager.respond { s with loop := .idle } w response).Served ordered := by
  have hreq : ∀ v, s.requests v =
      requests (ModuleManager.respond { s with loop := .idle } w response) v +
        if w = v then 1 else 0 := by
    intro v
    simp [requests, ModuleManager.respond, hloop, LoopPc.client?]
  have hw : s.web w = .waiting := by
    by_contra hne
    have := hs.notWaiting hne
    rw [hreq, if_pos rfl] at this
    omega
  exact hs.respond hw rfl (produced_of_produced rfl) rfl hreq

/-- A step of the loop thread. -/
theorem onLoop {a : Action} (h : Transition s a s') (ha : a.onLoop = true)
    (hU : ordered → s.Unhurried a) : s'.Served ordered := by
  have hlog : ∀ id, (s.log (.unregister id)).produced = s.produced := fun id => by
    funext w
    exact (produced_of_trace (s := s) rfl w).trans (List.append_nil _)
  cases h <;> simp only [Action.onLoop, Bool.false_eq_true] at ha
  case taskRole ht => exact hs.keep rfl rfl rfl (requests_take ht (fun _ => rfl) rfl rfl)
  case taskHandle msg q ht h =>
    have hemits := handleMessage_emits h
    refine hs.sends (sends_of_handleMessage h rfl rfl rfl)
      (fun hord hb => hU hord ⟨hb.1, hb.2, by rw [ht.threadLoop]; rfl⟩)
      hemits.web (requests_take ht (fun _ => rfl) hemits.threadLoop ?_)
    rw [hemits.loop, ht.idle]
    rfl
  case taskRegister ht hmax hmsg h => exact hs.taskRegister ht h hU
  case taskUnregister id q msg ht hmsg h =>
    have hemits := handleMessage_emits h
    refine hs.sends (sends_of_handleMessage h rfl rfl ?_)
      (fun hord hb => hU hord ⟨hb.1, hb.2, by rw [ht.threadLoop]; rfl⟩)
      hemits.web (requests_take ht (fun _ => rfl) hemits.threadLoop ?_)
    · funext w
      exact (produced_of_trace (s := s) rfl w).trans (List.append_nil _)
    · rw [hemits.loop]
      exact congrArg LoopPc.client? ht.idle
  case taskSaveNone q ht hm =>
    exact hs.keep rfl rfl rfl (requests_take ht (fun _ => rfl) rfl (by rw [ht.idle]; rfl))
  case taskSave id ps m m' q ht hm hm' =>
    refine hs.keep rfl ?_ rfl
      (requests_take ht (fun _ => rfl) rfl (congrArg LoopPc.client? ht.idle))
    funext w
    exact (produced_of_trace (s := s) rfl w).trans (List.append_nil _)
  case taskOther json w q ht hload happly =>
    exact hs.respond (hs.waits ht) rfl (produced_of_produced rfl) rfl
      (requests_takeRequest ht rfl (congrArg LoopPc.client? ht.idle))
  case taskLoad ht _ _ h => exact hs.answers ht h
  case taskApply ht _ h => exact hs.answers ht h
  case taskPass json q ht h =>
    have hprod := h.produced
    have hloop := h.loop
    obtain ⟨modules, clients, loop, trace, rfl⟩ := h.frame
    refine hs.keep rfl hprod rfl (requests_take ht (fun _ => rfl) rfl ?_)
    rcases hloop with hloop | hloop
    · exact congrArg LoopPc.client? (hloop.trans ht.idle)
    · exact congrArg LoopPc.client? hloop
  case flushed hloop _ =>
    exact hs.keep rfl rfl rfl (requests_append (List.append_nil _).symm (by simp) (by
      rw [hloop]; rfl))
  case flush msg q hloop hq h =>
    have hemits := pushMsg_emits h
    exact hs.sends (sends_of_pushMsg h rfl rfl rfl)
      (fun hord hb => hU hord ⟨hb, by rw [hq]; exact List.cons_ne_nil _ _⟩) hemits.web
      (requests_append (hemits.threadLoop.trans (List.append_nil _).symm) (by simp) (by
        rw [hemits.loop]))
  case callbackRegister n ps cb request hloop =>
    exact hs.keep rfl rfl rfl (requests_append rfl (by simp [Task.answers]) (by rw [hloop]; rfl))
  case callbackUnregister id request msg hloop hmsg h =>
    have hemits := handleMessage_emits h
    refine hs.sends (sends_of_handleMessage h rfl rfl ?_) hU hemits.web
      (requests_append (hemits.threadLoop.trans (List.append_nil _).symm) (by simp) ?_)
    · funext w
      refine (produced_of_trace (s := s.log (.unregister id)) rfl w).trans ?_
      rw [hlog]
      exact List.append_nil _
    · rw [hemits.loop]
      rfl
  case callbackUpdate id ps request msg s₁ hloop hs₁ hmsg h =>
    have hemits := handleMessage_emits h
    obtain ⟨hprod, hclients, hlisteners, hweb, hq, hl, hserver, hinit⟩ :=
      produced_of_savePropertiesList hs₁
    have hsend := sends_of_handleMessage h hclients hlisteners hprod
    rw [hserver, hinit] at hsend
    exact hs.sends hsend
      (fun hord hb => hU hord ⟨hb.1, hb.2, createPropertyUpdated_eq_ok_iff.1 ⟨msg, hmsg⟩⟩)
      (hemits.web.trans hweb) (requests_append
        (hemits.threadLoop.trans (hq.trans (List.append_nil _).symm)) (by simp) (by
          rw [hemits.loop, hl]))
  case callbackUpdateThrows id ps request hloop hps hs₁ =>
    obtain ⟨hprod, hclients, -, hweb, hq, hl, -, -⟩ := produced_of_savePropertiesList hs₁
    exact hs.keep hclients hprod hweb
      (requests_append (hq.trans (List.append_nil _).symm) (by simp) (by rw [hl]))
  case callbackReturn hloop =>
    exact hs.keep rfl rfl rfl (requests_append (List.append_nil _).symm (by simp) (by
      rw [hloop]; rfl))
  case callbackAnswer hloop => exact hs.callbackAnswer hloop

end Instance.Served

/-! ## Whole runs -/

theorem served_of_runs {ordered : Prop} {as : List Action} {s : Instance}
    (h : Lts.Run (Lts.Under (fun s a => ordered → s.Unhurried a) Instance.Steps) {} as s) :
    s.Served ordered := by
  refine h.invariant ⟨fun _ => rfl, fun h => WebPc.noConfusion h, fun _ => rfl,
    fun _ _ _ hsent => absurd hsent (by simp)⟩ ?_
  rintro s a s' hs ⟨hU, hst⟩
  have h := transition_of_step hst
  cases ha : a.onLoop with
  | false => exact hs.offLoop h ha
  | true => exact hs.onLoop h ha hU

/-- Every web client is sent the messages made for it in order, in a run in which
    nothing is pushed to a client whose answer waits to be sent. -/
theorem sentInOrder_of_runs {as : List Action} {s : Instance}
    (h : Lts.Run (Lts.Under Instance.Unhurried Instance.Steps) {} as s) (w : ClientId) :
    s.SentInOrder w :=
  (served_of_runs (h.mono fun _ _ _ hst => ⟨fun _ => hst.1, hst.2⟩)).inOrder trivial w

instance instDecidableBroadcasts (s : Instance) (a : Action) : Decidable (s.Broadcasts a) :=
  match a with
  | .task => inferInstanceAs (Decidable (_ ∧ _ ∧ _))
  | .flush => inferInstanceAs (Decidable (_ ∧ _ ≠ _))
  | .callbackUnregisterModule _ => inferInstanceAs (Decidable (_ ∧ _))
  | .callbackUpdateProperties _ ps => inferInstanceAs (Decidable (_ ∧ _ ∧ Announceable ps))
  | .registerModule .. | .unregisterModule _ | .updateProperties .. | .announce _
  | .callbackRegisterModule .. | .callbackReturn | .connecting _ | .proxyRead _ | .accept _
  | .read .. | .resume _ | .closed _ | .wsConnected _ | .wsMessage .. | .wsReply _ | .wsClosed _
  | .wsExpired _ => .isFalse id

instance instDecidableUnhurried (s : Instance) (a : Action) : Decidable (s.Unhurried a) :=
  haveI (w : ClientId) : Decidable (s.reply w = []) := decidable_of_iff _ List.isEmpty_iff
  haveI : Decidable (∀ w ∈ ServerImpl.listening s, s.reply w = []) := List.decidableBAll _ _
  inferInstanceAs (Decidable (_ → _))

/-- The request of a web client for the list of the modules, `createLoadModules`. -/
def load : Text := .json loadRequest isUtf8_loadRequest

/-- The host has a module, and a web client loads the modules. -/
def loading : List Action :=
  [.connecting false, .task, .flush, .registerModule (Str.lit "Main") [] none, .task,
    .wsConnected 0, .wsMessage 0 ⟨load, false⟩, .task]

/-- The module is unregistered before the list of the modules is sent: the client
    is sent the list last. -/
theorem not_sentInOrder_of_hurry : ∃ s, Instance.Runs
    (loading ++ [.unregisterModule 0, .task, .wsReply 0]) s ∧ ¬s.SentInOrder 0 := by
  obtain ⟨s, h, hs⟩ := Instance.exists_runs (loading ++ [.unregisterModule 0, .task, .wsReply 0])
    (fun s => ((s.wsClients 0).map (·.map (·.announces 0)), [(s.produced 0).map (·.announces 0)],
      (s.reply 0).length))
    (some [some .removed, none], [[none, some .removed]], 0) (by decide +kernel)
  simp only [Prod.mk.injEq, List.length_eq_zero_iff, List.cons.injEq, and_true] at hs
  obtain ⟨hsent, hprod, hreply⟩ := hs
  obtain ⟨sent, hw, hsent⟩ := Option.map_eq_some_iff.1 hsent
  refine ⟨s, h, fun horder => ?_⟩
  have hsuffix := (horder sent hw).map (·.announces 0)
  rw [hreply, List.append_nil, hsent, hprod] at hsuffix
  exact absurd hsuffix (by decide)

/-- The list of the modules is sent before the module is unregistered. -/
theorem sentInOrder_of_reply : ∃ s, Lts.Run (Lts.Under Instance.Unhurried Instance.Steps) {}
    (loading ++ [.wsReply 0, .unregisterModule 0, .task]) s ∧
      (s.wsClients 0).map (·.map (·.announces 0)) = some [none, some .removed] ∧
      s.SentInOrder 0 := by
  obtain ⟨s, h, hsent⟩ := Instance.exists_runs_under Instance.Unhurried
    (loading ++ [.wsReply 0, .unregisterModule 0, .task])
    (fun s => (s.wsClients 0).map (·.map (·.announces 0))) (some [none, some .removed]) (by
      decide +kernel)
  exact ⟨s, h, hsent, sentInOrder_of_runs h 0⟩

end Sacs
