import Sacs.Changes
import Sacs.Effects
import Sacs.Lib.Hub

/-!
# An instance as a hub

A host keeps images of the modules of the other instances: it is a `Hub`
(`Instance.hub`), and its steps are those of a hub (`Transition.hub`). The jobs
are the tasks registering and unregistering modules, and a module is what is
known of it elsewhere, its shape.

An instance that is no host is a hub without clients.
-/

namespace Sacs

open JsonMsg ModuleManager

/-! ## The abstraction -/

/-- The client whose handler registers a module, `none` if it is the application. -/
def Promise.client? : Promise → Option ClientId
  | .app | .callback => none
  | .handler c => some c

def Task.job? : Task → Option (Hub.Job Int32 Shape ClientId)
  | .doRegisterModule m promise => some (.register m.shape promise.client?)
  | .unregisterModule id => some (.unregister id)
  | _ => none

def HandlerPc.toPc : HandlerPc → Hub.Pc Int32 Int32
  | .idle | .updating _ => .idle
  | .registering remoteId => .registering remoteId
  | .registered remoteId localId => .registered remoteId localId
  | .closing => .closing

def Event.registered? : Event → Option (Int32 × Option ClientId × Shape)
  | .registered id promise m => some (id, promise.client?, m.shape)
  | _ => none

def Event.dropped? : Event → Option Int32
  | .unregister id => some id
  | _ => none

/-- The hub that an instance is. -/
def Instance.hub (s : Instance) : Hub Int32 Int32 Shape ClientId where
  counter := s.idCounter
  module id := (s.modules.find? id).map Module.shape
  image := s.remoteModules.find?
  connected := Option.isSome ∘ s.clients
  pc := HandlerPc.toPc ∘ s.handler
  jobs := s.threadLoop.filterMap Task.job?
  registered := s.trace.filterMap Event.registered?
  dropped := s.trace.filterMap Event.dropped?

/-- What a step of the instance is for the hub. -/
def Action.label : Action → Hub.Label Int32 Int32 Shape ClientId
  | .unregisterModule id | .callbackUnregisterModule id => .drop id
  | .accept c => .accept c
  | .read c msg => .read c msg.change?
  | .closed c => .close c
  | _ => .silent

/-! ## What does not concern the hub -/

/-- Shapes, registrations and unregistrations are as they were. -/
theorem hub_congr {s s' : Instance} (hcounter : s'.idCounter = s.idCounter)
    (hmodules : ∀ id, (s'.modules.find? id).map Module.shape =
      (s.modules.find? id).map Module.shape)
    (hremote : s'.remoteModules = s.remoteModules)
    (hclients : ∀ c, (s'.clients c).isSome = (s.clients c).isSome)
    (hhandler : ∀ c, (s'.handler c).toPc = (s.handler c).toPc)
    (hjobs : s'.threadLoop.filterMap Task.job? = s.threadLoop.filterMap Task.job?)
    (htrace : ∃ es, s'.trace = s.trace ++ es ∧
      ∀ e ∈ es, e.registered? = none ∧ e.dropped? = none) : s'.hub = s.hub := by
  obtain ⟨es, hes, hout⟩ := htrace
  refine Hub.ext hcounter (funext hmodules) (by rw [Instance.hub, hremote]; rfl) (funext hclients)
    (funext hhandler) hjobs ?_ ?_
  · simp only [Instance.hub, hes, List.filterMap_append]
    rw [List.filterMap_eq_nil_iff.2 fun e he => (hout e he).1, List.append_nil]
  · simp only [Instance.hub, hes, List.filterMap_append]
    rw [List.filterMap_eq_nil_iff.2 fun e he => (hout e he).2, List.append_nil]

theorem Emits.hub {s s' : Instance} (h : Emits s s') : s'.hub = s.hub := by
  obtain ⟨es, hes, hout⟩ := h.trace
  refine hub_congr h.idCounter (fun _ => by rw [h.modules]) h.remoteModules
    (fun _ => by rw [h.clients]) (fun _ => by rw [h.handler]) (by rw [h.threadLoop])
    ⟨es, hes, fun e he => ?_⟩
  have := hout e he
  cases e <;> first | exact ⟨rfl, rfl⟩ | exact this.elim

theorem find?_shape_of_saved {ms : OrdMap Int32 Module} {id : Int32} {m m' : Module}
    (hm : ms.find? id = some m) (hm' : m.Saved m') (id' : Int32) :
    ((ms.modify id fun _ => m').find? id').map Module.shape = (ms.find? id').map Module.shape := by
  rw [OrdMap.find?_modify]
  split_ifs with h
  · rw [h, hm]
    exact congrArg some hm'.shape
  · rfl

theorem hub_saved {s : Instance} {id : Int32} {m m' : Module} (hm : s.modules.find? id = some m)
    (hm' : m.Saved m') (ps : Updates) : (s.saved id ps m').hub = s.hub :=
  hub_congr rfl (find?_shape_of_saved hm hm') rfl (fun _ => rfl) (fun _ => rfl) rfl
    ⟨[_], rfl, by simp [Event.registered?, Event.dropped?]⟩

theorem hub_savePropertiesList {s s' : Instance} {id : Int32} {ps : Updates}
    (h : savePropertiesList s false id ps = .ok s') : s'.hub = s.hub := by
  obtain ⟨-, rfl⟩ | ⟨m, m', hm, hm', rfl⟩ := savePropertiesList_cases h
  · rfl
  · exact hub_saved hm (Module.save_saved hm') ps

theorem Passes.hub {s s' : Instance} {json : JsonMsg} (h : Passes s json s') : s'.hub = s.hub := by
  cases h with
  | nothing => rfl
  | unrouted _ hm _ _ hm' => exact hub_saved hm (Module.save_saved hm') _
  | @sent _ _ _ ps _ _ _ _ _ hm _ _ hm' _ _ hc =>
    rw [← hub_saved hm (Module.save_saved hm') ps]
    refine hub_congr rfl (fun _ => rfl) rfl (fun c => ?_) (fun _ => rfl) rfl ⟨[], by simp⟩
    change (Function.update s.clients _ _ c).isSome = (s.clients c).isSome
    rw [Function.update_apply]
    split_ifs with h
    · rw [h, hc]
      rfl
    · rfl
  | @invoked _ _ _ ps _ _ _ hm _ _ hm' =>
    rw [← hub_saved hm (Module.save_saved hm') ps]
    exact hub_congr rfl (fun _ => rfl) rfl (fun _ => rfl) (fun _ => rfl) rfl
      ⟨[_], rfl, by simp [Event.registered?, Event.dropped?]⟩

theorem hub_answer (s : Instance) (w : ClientId) (response : Text) :
    (answer s w response).hub = s.hub := by
  rw [answer]
  split
  · rfl
  · exact hub_congr rfl (fun _ => rfl) rfl (fun _ => rfl) (fun _ => rfl) rfl
      ⟨[_], rfl, by simp [Event.registered?, Event.dropped?]⟩

/-- A task that is no job is taken. -/
theorem hub_take {s : Instance} {t : Task} {q : List Task} (ht : Takes s t q) (hj : t.job? = none) :
    ({ s with threadLoop := q } : Instance).hub = s.hub :=
  hub_congr rfl (fun _ => rfl) rfl (fun _ => rfl) (fun _ => rfl)
    (by rw [ht.threadLoop, List.filterMap_cons_none hj]) ⟨[], by simp⟩

/-- A task that is a job is taken. -/
theorem jobs_take {s : Instance} {t : Task} {q : List Task} (ht : Takes s t q)
    {j : Hub.Job Int32 Shape ClientId} (hj : t.job? = some j) :
    s.hub.jobs = j :: q.filterMap Task.job? := by
  rw [Instance.hub, ht.threadLoop]
  exact List.filterMap_cons_some hj

/-! ## The refinement -/

section

variable {s : Instance} {h : Hub Int32 Int32 Shape ClientId} (hs : s.hub = h)

include hs

theorem hub_post (t : Task) : (s.post t).hub = { h with jobs := h.jobs ++ t.job?.toList } := by
  subst hs
  refine Hub.ext rfl rfl rfl rfl rfl ?_ rfl rfl
  change (s.threadLoop ++ [t]).filterMap Task.job? = s.threadLoop.filterMap Task.job? ++ _
  rw [List.filterMap_append, List.filterMap_cons]
  cases t.job? <;> rfl

theorem hub_post_of_none {t : Task} (ht : t.job? = none) : (s.post t).hub = h := by
  rw [hub_post hs, ht]
  exact Hub.ext rfl rfl rfl rfl rfl (List.append_nil _) rfl rfl

theorem hub_unregister (id : Int32) :
    (s.log (.unregister id)).hub = { h with dropped := h.dropped ++ [id] } := by
  subst hs
  exact Hub.ext rfl rfl rfl rfl rfl rfl ((List.filterMap_append ..).trans (List.append_nil _))
    (List.filterMap_append ..)

theorem hub_setHandler (c : ClientId) (pc : HandlerPc) :
    (ProxyServer.setHandler s c pc).hub = { h with pc := Function.update h.pc c pc.toPc } := by
  subst hs
  refine Hub.ext rfl rfl rfl rfl ?_ rfl rfl rfl
  exact Function.comp_update HandlerPc.toPc s.handler c pc

theorem hub_setHandler_self {c : ClientId} {pc : HandlerPc} (hpc : pc.toPc = h.pc c) :
    (ProxyServer.setHandler s c pc).hub = h := by
  rw [hub_setHandler hs, hpc]
  exact Hub.ext rfl rfl rfl rfl (Function.update_eq_self ..) rfl rfl rfl

theorem hub_addModule (localId remoteId : Int32) (c : ClientId) :
    (ProxyServer.addModule s localId remoteId c).hub = { h with
      image := Function.update h.image localId (some ((h.image localId).getD (remoteId, c))) } := by
  subst hs
  refine Hub.ext rfl rfl (funext fun id => ?_) rfl rfl rfl rfl rfl
  exact (OrdMap.find?_insert ..).trans
    (Function.update_apply s.remoteModules.find? localId _ id).symm

theorem hub_removeModule (id : Int32) :
    (ProxyServer.removeModule s id).hub = { h with image := Function.update h.image id none } := by
  subst hs
  refine Hub.ext rfl rfl (funext fun id' => ?_) rfl rfl rfl rfl rfl
  exact (OrdMap.find?_erase ..).trans (Function.update_apply s.remoteModules.find? id none id').symm

theorem hub_removed (id : Int32) :
    (s.removed id).hub = { h with module := Function.update h.module id none } := by
  subst hs
  refine Hub.ext rfl (funext fun id' => ?_) rfl rfl rfl rfl
    ((List.filterMap_append ..).trans (List.append_nil _))
    ((List.filterMap_append ..).trans (List.append_nil _))
  change ((s.modules.erase id).find? id').map Module.shape =
    Function.update s.hub.module id none id'
  rw [OrdMap.find?_erase, Function.update_apply]
  split_ifs <;> rfl

theorem hub_added (hf : s.Fresh) (promise : Promise) (m : Module) :
    (s.added promise m).hub = { h with
      counter := h.counter + 1
      module := Function.update h.module h.counter (some m.shape)
      registered := h.registered ++ [(h.counter, promise.client?, m.shape)] } := by
  subst hs
  refine Hub.ext rfl (funext fun id => ?_) rfl rfl rfl rfl (List.filterMap_append ..)
    ((List.filterMap_append ..).trans (List.append_nil _))
  change ((s.modules.insert s.idCounter (m.setId s.idCounter)).find? id).map Module.shape =
    Function.update s.hub.module s.idCounter (some m.shape) id
  rw [FreshIds.find?_insert hf, Function.update_apply]
  split_ifs <;> rfl

theorem hub_fulfil (promise : Promise) (id : Int32) :
    (fulfil s promise id).hub =
      { h with pc := ({ h with counter := id } : Hub ..).fulfil promise.client? } := by
  subst hs
  cases promise with
  | app => rfl
  | callback => cases hl : s.loop <;> simp only [fulfil, hl] <;> rfl
  | handler c =>
    have hpc : s.hub.pc c = (s.handler c).toPc := rfl
    rw [Promise.client?, Hub.fulfil, fulfil, hpc]
    cases s.handler c with
    | registering r =>
      exact Hub.ext rfl rfl rfl rfl (Function.comp_update HandlerPc.toPc s.handler c _) rfl rfl rfl
    | _ => rfl

end

theorem change?_of_parse {msg : Text} {json : JsonMsg} (h : parse msg = .ok json)
    (ht : json.type ≠ .moduleAdd ∧ json.type ≠ .moduleDel) : msg.change? = none := by
  rw [Text.change?, h]
  dsimp only
  split
  · rename_i h
    exact absurd h ht.1
  · rename_i h
    exact absurd h ht.2
  · rfl

/-- The image of a module of the client, if there is one, or the id of none. -/
theorem localIdFromRemote_cases (s : Instance) (remoteId : Int32) (c : ClientId) :
    s.remoteModules.find? (ProxyServer.localIdFromRemote s remoteId c) = some (remoteId, c) ∨
      (ProxyServer.localIdFromRemote s remoteId c = -1 ∧
        ∀ id, s.remoteModules.find? id ≠ some (remoteId, c)) := by
  rw [ProxyServer.localIdFromRemote]
  split
  · rename_i localId remote h
    obtain ⟨h, hp⟩ := OrdMap.of_first?_eq_some h
    rw [decide_eq_true_eq] at hp
    exact .inl (by rw [h, ← hp.1, ← hp.2])
  · rename_i h
    refine .inr ⟨rfl, fun id hid => ?_⟩
    have := OrdMap.first?_eq_none_iff.1 h id _ hid
    simp at this

theorem Transition.hub {s s' : Instance} {a : Action} (h : Transition s a s') (hf : s.Fresh) :
    Hub.Step (-1) s.hub a.label s'.hub := by
  have keep : ∀ {s' : Instance}, s'.hub = s.hub → Hub.Step (-1) s.hub .silent s'.hub :=
    fun h => Hub.Step.keep.of_eq h
  -- The label says what an action does at the hub; updates, and all that is done for web
  -- clients, are silent.
  cases h with
  | registerModule => exact (Hub.Step.post _).of_eq (hub_post rfl _)
  | unregisterModule => exact (Hub.Step.drop _).of_eq (hub_post (hub_unregister rfl _) _)
  | @updateProperties id ps =>
    exact keep (hub_post_of_none (s := s) rfl (t := .savePropertiesList id ps) rfl)
  | @announce i id ps msg =>
    exact keep (hub_post_of_none (s := s) rfl (t := .handleMessage msg) rfl)
  | announceThrows => exact keep rfl
  | taskRole ht => exact keep (hub_take ht rfl)
  | taskHandle ht h => exact keep ((handleMessage_emits h).hub.trans (hub_take ht rfl))
  | @taskRegister m promise q _ _ ht hmax _ h =>
    have hadded := hub_added (s := { s with threadLoop := q }) rfl ⟨hf.counter, hf.key⟩ promise m
    exact (Hub.Step.register (jobs_take ht rfl) (lt_add_one hmax)).of_eq
      (hub_fulfil ((handleMessage_emits h).hub.trans hadded) ..)
  | taskUnregister ht _ h =>
    refine (Hub.Step.unregister (jobs_take ht rfl)).of_eq ?_
    exact (handleMessage_emits h).hub.trans (hub_removed rfl _)
  | taskSaveNone ht => exact keep (hub_take ht rfl)
  | @taskSave id ps m m' q ht hm hm' =>
    exact keep ((hub_saved (s := { s with threadLoop := q }) hm (Module.save_saved hm') ps).trans
      (hub_take ht rfl))
  | taskOther ht =>
    refine keep (Eq.trans ?_ (hub_take ht rfl))
    exact hub_congr rfl (fun _ => rfl) rfl (fun _ => rfl) (fun _ => rfl) rfl
      ⟨[_], rfl, by simp [Event.registered?, Event.dropped?]⟩
  | taskLoad ht _ _ h => exact keep ((hub_answer ..).trans (h.hub.trans (hub_take ht rfl)))
  | taskApply ht _ h => exact keep ((hub_answer ..).trans (h.hub.trans (hub_take ht rfl)))
  | taskPass ht h => exact keep (h.hub.trans (hub_take ht rfl))
  | flushed => exact keep rfl
  | flush _ _ h => exact keep (pushMsg_emits h).hub
  | @callbackRegister n ps cb =>
    exact (Hub.Step.post _).of_eq
      (hub_post (s := s) rfl (.doRegisterModule ⟨-1, n, ps, cb⟩ .callback))
  | callbackUnregister _ _ h =>
    refine (Hub.Step.dropNow _).of_eq ((handleMessage_emits h).hub.trans ?_)
    exact hub_removed (hub_unregister rfl _) _
  | callbackUpdate _ hs _ h =>
    exact keep ((handleMessage_emits h).hub.trans (hub_savePropertiesList hs))
  | callbackUpdateThrows _ hs _ => exact keep (hub_savePropertiesList hs)
  | callbackReturn => exact keep rfl
  | callbackAnswer =>
    exact keep (hub_congr rfl (fun _ => rfl) rfl (fun _ => rfl) (fun _ => rfl) rfl
      ⟨[_], rfl, by simp [Event.registered?, Event.dropped?]⟩)
  | connectingAgain => exact keep rfl
  | connectingProxy =>
    exact keep (hub_post_of_none (s := s) rfl (t := .onProxyInitialized s.server) rfl)
  | connectingHost => exact keep (hub_post_of_none (s := s) rfl (t := .onProxyInitialized true) rfl)
  | proxyRead => exact keep (hub_post_of_none rfl rfl)
  | @accept c hserver hnone hne =>
    refine (Hub.Step.accept (congrArg Option.isSome hnone)).of_eq
      (Hub.ext rfl rfl rfl ?_ rfl rfl rfl rfl)
    exact Function.comp_update Option.isSome s.clients c (some [])
  | readNothing hc hidle hjson htype =>
    rw [Action.label, change?_of_parse hjson ⟨htype.1, htype.2.1⟩]
    exact .readOther hc (congrArg HandlerPc.toPc hidle)
  | @readAdd c msg json m hc hidle hjson htype hm =>
    have hchange : msg.change? = some (.add m.id m.shape) := by
      rw [Text.change?, hjson]
      dsimp only
      rw [htype, hm]
    rw [Action.label, hchange]
    exact (Hub.Step.readAdd hc (congrArg HandlerPc.toPc hidle)).of_eq
      (hub_setHandler (hub_post rfl _) ..)
  | @readDel c msg json id hc hidle hjson htype hid =>
    have hchange : msg.change? = some (.remove id) := by
      rw [Text.change?, hjson]
      dsimp only
      rw [htype, hid]
    rw [Action.label, hchange]
    rcases localIdFromRemote_cases s id c with h | ⟨h, hne⟩
    · exact (Hub.Step.readRemove hc (congrArg HandlerPc.toPc hidle) h).of_eq
        (hub_removeModule (hub_post rfl _) _)
    · rw [h]
      exact (Hub.Step.readUnknown hc (congrArg HandlerPc.toPc hidle) hne).of_eq
        (hub_removeModule (hub_post rfl _) _)
  | readUpdate hc hidle hjson htype =>
    rw [Action.label, change?_of_parse hjson (by simp [htype])]
    refine (Hub.Step.readOther hc (congrArg HandlerPc.toPc hidle)).of_eq
      (hub_setHandler_self (hub_post_of_none rfl rfl) ?_)
    exact (congrArg HandlerPc.toPc hidle).symm
  | resumeAdd hpc =>
    exact (Hub.Step.link (congrArg HandlerPc.toPc hpc)).of_eq
      (hub_setHandler (hub_addModule rfl ..) ..)
  | resumeUpdate hpc =>
    refine keep (hub_setHandler_self (hub_post_of_none rfl rfl) ?_)
    exact (congrArg HandlerPc.toPc hpc).symm
  | @resumeClosing c localId remote hpc hnext =>
    obtain ⟨h, hp⟩ := OrdMap.of_first?_eq_some hnext
    rw [decide_eq_true_eq] at hp
    obtain ⟨r, c'⟩ := remote
    cases hp
    exact (Hub.Step.unlink (congrArg HandlerPc.toPc hpc) h).of_eq
      (hub_removeModule (hub_post rfl _) _)
  | @resumeClosed c hpc hnext =>
    refine (Hub.Step.closed (congrArg HandlerPc.toPc hpc) fun id r h => ?_).of_eq
      (Eq.trans (hub_setHandler rfl ..) ?_)
    · have := OrdMap.first?_eq_none_iff.1 hnext id _ h
      simp at this
    · refine Hub.ext rfl rfl rfl ?_ rfl rfl rfl rfl
      exact Function.comp_update Option.isSome s.clients c none
  | closed hc hidle =>
    exact (Hub.Step.close hc (congrArg HandlerPc.toPc hidle)).of_eq (hub_setHandler rfl ..)
  | wsConnected => exact keep rfl
  | wsLarge => exact keep rfl
  | wsNotJson =>
    exact keep (hub_congr rfl (fun _ => rfl) rfl (fun _ => rfl) (fun _ => rfl) rfl
      ⟨[_], rfl, by simp [Event.registered?, Event.dropped?]⟩)
  | @wsRequest w msg json =>
    exact keep (hub_post_of_none (s := s) rfl (t := .doProcessJSRequest json w) rfl)
  | wsReply => exact keep rfl
  | wsClosed => exact keep rfl
  | wsExpired => exact keep rfl

end Sacs
