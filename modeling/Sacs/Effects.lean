import Sacs.Callbacks

/-!
# What a step posts and edits

Two views of a step of an instance, for the invariants to come.

* `Posts`: the tasks it appends to the queue of the loop, by its action, so that
  what holds of every task posted holds of every task of the queue
  (`Transition.forall_tasks`).
* `Edits`: what it does to the modules, with the task or the call of a callback
  it is due to, and what the history records of it (`Instance.record`).
-/

namespace Sacs

open JsonMsg ModuleManager

/-! ## Posting -/

/-- The tasks an action posts. -/
inductive Posts (s : Instance) : Action → List Task → Prop
  | none {a : Action} : Posts s a []
  | registerModule {n : Str} {ps : List Property} {cb : Option Callback} :
      Posts s (.registerModule n ps cb) [.doRegisterModule ⟨-1, n, ps, cb⟩ .app]
  | callbackRegister {n : Str} {ps : List Property} {cb : Option Callback} :
      Posts s (.callbackRegisterModule n ps cb) [.doRegisterModule ⟨-1, n, ps, cb⟩ .callback]
  | unregisterModule {id : Int32} : Posts s (.unregisterModule id) [.unregisterModule id]
  | updateProperties {id : Int32} {ps : Updates} :
      Posts s (.updateProperties id ps) [.savePropertiesList id ps]
  | announce {i : Nat} {id : Int32} {ps : Updates} {msg : Text} :
      s.calls[i]? = some (id, ps) → createPropertyUpdated id ps = .ok msg →
      Posts s (.announce i) [.handleMessage msg]
  | connecting {ok hostMode : Bool} : Posts s (.connecting ok) [.onProxyInitialized hostMode]
  | proxyRead {msg : Text} {json : JsonMsg} :
      s.client.isSome = true → parse msg = .ok json →
      Posts s (.proxyRead msg) [.passPropertyUpdateToModule json]
  | readAdd {c : ClientId} {msg : Text} {json : JsonMsg} {m : Module} :
      (s.clients c).isSome → parse msg = .ok json → json.toModule = .ok (some m) →
      Posts s (.read c msg) [.doRegisterModule m (.handler c)]
  | readDel {c : ClientId} {msg : Text} {json : JsonMsg} {id : Int32} :
      (s.clients c).isSome → parse msg = .ok json → json.findId = .ok id →
      Posts s (.read c msg) [.unregisterModule (ProxyServer.localIdFromRemote s id c)]
  | readUpdate {c : ClientId} {msg : Text} {json json' json'' : JsonMsg} {id : Int32}
      {ps : Updates} :
      (s.clients c).isSome → parse msg = .ok json → json.findId = .ok id →
      json.setId (ProxyServer.localIdFromRemote s id c) = .ok json' →
      json'.getPropertiesList = .ok (ps, json'') →
      Posts s (.read c msg) [.savePropertiesList (ProxyServer.localIdFromRemote s id c) ps]
  | resumeUpdate {c : ClientId} {json : JsonMsg} {msg : Text} :
      s.handler c = .updating json → json.toString = .ok msg →
      Posts s (.resume c) [.handleMessage msg]
  | resumeClosing {c : ClientId} {localId : Int32} {remote : Int32 × ClientId} :
      s.handler c = .closing → ProxyServer.nextOfClient s c = some (localId, remote) →
      Posts s (.resume c) [.unregisterModule localId]
  | wsRequest {w : ClientId} {msg : Text} {json : JsonMsg} :
      (s.wsClients w).isSome → parse msg = .ok json → json.isValid = true →
      Posts s (.wsMessage w ⟨msg, false⟩) [.doProcessJSRequest json w]

/-- A step posts its tasks; the loop thread may take one. -/
theorem Transition.posts {s s' : Instance} {a : Action} (h : Transition s a s') :
    (a = .task ∧ ∃ t, Takes s t s'.threadLoop) ∨
      (a ≠ .task ∧ ∃ ts, s'.threadLoop = s.threadLoop ++ ts ∧ Posts s a ts) := by
  by_cases htask : a = .task
  · subst htask
    exact .inl ⟨rfl, h.takes⟩
  refine .inr ⟨htask, ?_⟩
  have hnone : s'.threadLoop = s.threadLoop →
      ∃ ts, s'.threadLoop = s.threadLoop ++ ts ∧ Posts s a ts :=
    fun hq => ⟨[], by rw [hq, List.append_nil], .none⟩
  cases ha : a.onLoop with
  | true =>
    rcases h.threadLoop_callback ha htask with hq | ⟨n, ps, cb, -, rfl, -, hq⟩
    · exact hnone hq
    · exact ⟨_, hq, .callbackRegister⟩
  | false =>
  cases h <;> simp only [Action.onLoop, reduceCtorEq] at ha
  case registerModule => exact ⟨_, rfl, .registerModule⟩
  case unregisterModule => exact ⟨_, rfl, .unregisterModule⟩
  case updateProperties => exact ⟨_, rfl, .updateProperties⟩
  case announce hi hmsg => exact ⟨_, rfl, .announce hi hmsg⟩
  case connectingProxy => exact ⟨_, rfl, .connecting⟩
  case connectingHost => exact ⟨_, rfl, .connecting⟩
  case proxyRead hc hjson => exact ⟨_, rfl, .proxyRead hc hjson⟩
  case readAdd hc _ hjson _ hm => exact ⟨_, rfl, .readAdd hc hjson hm⟩
  case readDel hc _ hjson _ hid => exact ⟨_, rfl, .readDel hc hjson hid⟩
  case readUpdate hc _ hjson _ hid hset hps => exact ⟨_, rfl, .readUpdate hc hjson hid hset hps⟩
  case resumeUpdate hpc hmsg => exact ⟨_, rfl, .resumeUpdate hpc hmsg⟩
  case resumeClosing hpc hnext => exact ⟨_, rfl, .resumeClosing hpc hnext⟩
  case wsRequest hw _ hjson hvalid => exact ⟨_, rfl, .wsRequest hw hjson hvalid⟩
  all_goals exact hnone rfl

/-- What is kept by the step, and holds of what it posts, holds of all tasks. -/
theorem Transition.forall_tasks {s s' : Instance} {a : Action} (h : Transition s a s')
    {P Q : Task → Prop} (hs : ∀ t ∈ s.threadLoop, P t) (hkeep : ∀ t, P t → Q t)
    (hposts : ∀ ts, Posts s a ts → ∀ t ∈ ts, Q t) : ∀ t ∈ s'.threadLoop, Q t := by
  intro t ht
  rcases h.posts with ⟨-, u, hu⟩ | ⟨-, ts, hq, hts⟩
  · exact hkeep t (hs t (hu.threadLoop ▸ List.mem_cons_of_mem _ ht))
  · rw [hq, List.mem_append] at ht
    exact ht.elim (fun ht => hkeep t (hs t ht)) (hposts ts hts t)

/-! ## Editing -/

/-- The event is one of the life of a module. -/
def Event.isEdit : Event → Bool
  | .registered .. | .unregistered _ | .saved .. => true
  | _ => false

/-- The history of the modules. -/
def Instance.record (s : Instance) : List Event := s.trace.filter Event.isEdit

/-- The step unregisters the module `id`. -/
def Instance.Unregisters (s : Instance) (a : Action) (id : Int32) : Prop :=
  (a = .task ∧ ∃ q, Takes s (.unregisterModule id) q) ∨ a = .callbackUnregisterModule id

/-- The updates of an application the step saves: of its own, or announced by another
    instance. -/
def Instance.appSaves? (s : Instance) : Action → Option (Int32 × Updates)
  | .task => match s.threadLoop with
    | .savePropertiesList id ps :: _ => some (id, ps)
    | _ => none
  | .callbackUpdateProperties id ps => some (id, ps)
  | _ => none

/-- The step saves updates of a web client, which it passes to the module `id`. -/
def Instance.WebSaves (s : Instance) (a : Action) (id : Int32) (ps : Updates) : Prop :=
  a = .task ∧ ∃ t q json json', Takes s t q ∧ t.passed? = some json ∧ json.findId = .ok id ∧
    json.getPropertiesList = .ok (ps, json') ∧ ps ≠ []

/-- The step saves updates of the module `id`. -/
def Instance.Saves (s : Instance) (a : Action) (id : Int32) (ps : Updates) : Prop :=
  s.appSaves? a = some (id, ps) ∨ s.WebSaves a id ps

theorem Takes.appSaves? {s : Instance} {t : Task} {q : List Task} (ht : Takes s t q) (id : Int32)
    (ps : Updates) (h : t = .savePropertiesList id ps) : s.appSaves? .task = some (id, ps) := by
  rw [Instance.appSaves?, ht.threadLoop, h]

/-- What a step does to the modules. -/
inductive Edits (s : Instance) (a : Action) (s' : Instance) : Prop
  | keep :
      s'.modules = s.modules → s'.idCounter = s.idCounter → s'.record = s.record → Edits s a s'
  | add {m : Module} {promise : Promise} {q : List Task} :
      a = .task → Takes s (.doRegisterModule m promise) q → s.idCounter ≠ Int32.maxValue →
      s'.modules = s.modules.insert s.idCounter (m.setId s.idCounter) →
      s'.idCounter = s.idCounter + 1 →
      s'.record = s.record ++ [.registered s.idCounter promise (m.setId s.idCounter)] →
      Edits s a s'
  | remove {id : Int32} :
      s.Unregisters a id → s'.modules = s.modules.erase id → s'.idCounter = s.idCounter →
      s'.record = s.record ++ [.unregistered id] → Edits s a s'
  | save {id : Int32} {ps : Updates} {m m' : Module} :
      s.Saves a id ps → s.modules.find? id = some m → m.save ps = .ok m' →
      s'.modules = s.modules.modify id (fun _ => m') → s'.idCounter = s.idCounter →
      s'.record = s.record ++ [.saved id ps] → Edits s a s'

theorem record_of_trace {s s' : Instance} {l : List Event} (h : s'.trace = s.trace ++ l) :
    s'.record = s.record ++ l.filter Event.isEdit := by
  rw [Instance.record, h, List.filter_append]
  rfl

theorem record_congr {s s' : Instance} {l : List Event} (h : s'.trace = s.trace ++ l)
    (hes : ∀ e ∈ l, e.isEdit = false) : s'.record = s.record := by
  rw [record_of_trace h, List.filter_eq_nil_iff.2 fun e he => by simp [hes e he], List.append_nil]

theorem record_edit {s s' : Instance} {e : Event} (h : s'.trace = s.trace ++ [e])
    (he : e.isEdit = true) : s'.record = s.record ++ [e] := by
  rw [record_of_trace h, List.filter_cons, if_pos he, List.filter_nil]

theorem Emits.record {s s' : Instance} (h : Emits s s') : s'.record = s.record := by
  obtain ⟨es, hes, hout⟩ := h.trace
  refine record_congr hes fun e he => ?_
  have := hout e he
  cases e <;> first | rfl | exact this.elim

theorem record_fulfil (s : Instance) (promise : Promise) (id : Int32) :
    (fulfil s promise id).record = s.record := by
  rw [Instance.record, fulfil_trace]
  rfl

theorem record_answer (s : Instance) (w : ClientId) (response : Text) :
    (answer s w response).record = s.record := by
  obtain ⟨es, hes, hw⟩ := answer_trace s w response
  exact record_congr hes fun e he => by rw [hw e he]; rfl

theorem edits_of_savePropertiesList {s s' : Instance} {a : Action} {id : Int32} {ps : Updates}
    (ha : s.Saves a id ps) (h : savePropertiesList s false id ps = .ok s') : Edits s a s' := by
  obtain ⟨-, rfl⟩ | ⟨m, m', hm, hm', rfl⟩ := savePropertiesList_cases h
  · exact .keep rfl rfl rfl
  · exact .save ha hm hm' rfl rfl (record_edit rfl rfl)

/-- The rest of a step changes nothing of the modules. -/
theorem Edits.congr {s s' s'' : Instance} {a : Action} (h : Edits s a s')
    (hmodules : s''.modules = s'.modules) (hcounter : s''.idCounter = s'.idCounter)
    (hrecord : s''.record = s'.record) : Edits s a s'' := by
  cases h with
  | keep h₁ h₂ h₃ => exact .keep (hmodules.trans h₁) (hcounter.trans h₂) (hrecord.trans h₃)
  | add ha ht hmax h₁ h₂ h₃ =>
    exact .add ha ht hmax (hmodules.trans h₁) (hcounter.trans h₂) (hrecord.trans h₃)
  | remove ha h₁ h₂ h₃ =>
    exact .remove ha (hmodules.trans h₁) (hcounter.trans h₂) (hrecord.trans h₃)
  | save ha hm hm' h₁ h₂ h₃ =>
    exact .save ha hm hm' (hmodules.trans h₁) (hcounter.trans h₂) (hrecord.trans h₃)

theorem Emits.edits {s s' s'' : Instance} {a : Action} (h : Emits s' s'') (he : Edits s a s') :
    Edits s a s'' :=
  he.congr h.modules h.idCounter h.record

/-- Passing an update, once the task to do so is taken. -/
theorem Passes.edits {s s' : Instance} {t : Task} {q : List Task} {json : JsonMsg}
    (h : Passes { s with threadLoop := q } json s') (ht : Takes s t q)
    (hpassed : ∀ ps json', json.getPropertiesList = .ok (ps, json') → ps ≠ [] →
      t.passed? = some json) : Edits s .task s' := by
  cases h with
  | nothing => exact .keep rfl rfl rfl
  | unrouted hid hm hps hne hm' =>
    exact .save (.inr ⟨rfl, t, q, json, _, ht, hpassed _ _ hps hne, hid, hps, hne⟩) hm hm'
      rfl rfl (record_edit rfl rfl)
  | sent hid hm hps hne hm' =>
    exact .save (.inr ⟨rfl, t, q, json, _, ht, hpassed _ _ hps hne, hid, hps, hne⟩) hm hm'
      rfl rfl (record_edit rfl rfl)
  | invoked hid hm hps hne hm' =>
    refine .save (.inr ⟨rfl, t, q, json, _, ht, hpassed _ _ hps hne, hid, hps, hne⟩) hm hm'
      rfl rfl ?_
    rw [record_of_trace (s := s) (l := [_, _]) (List.append_assoc ..)]
    rfl

theorem Transition.edits {s s' : Instance} {a : Action} (h : Transition s a s') :
    Edits s a s' := by
  have hkeep : OffLoop s s' → Edits s a s' := fun h => by
    obtain ⟨es, hes, hout⟩ := h.trace
    refine .keep h.modules h.idCounter (record_congr hes fun e he => ?_)
    rcases hout e he with ⟨id, rfl⟩ | ⟨w, rfl⟩ <;> rfl
  cases ha : a.onLoop with
  | false => exact hkeep (h.offLoop ha)
  | true =>
  cases h with
  | taskRole => exact .keep rfl rfl rfl
  | taskHandle _ h => exact (handleMessage_emits h).edits (.keep rfl rfl rfl)
  | taskRegister ht hmax _ h =>
    exact ((handleMessage_emits h).edits (.add rfl ht hmax rfl rfl (record_edit rfl rfl))).congr
      (fulfil_modules ..) (fulfil_idCounter ..) (record_fulfil ..)
  | @taskUnregister id q _ _ ht _ h =>
    exact (handleMessage_emits h).edits
      (.remove (.inl ⟨rfl, q, ht⟩) rfl rfl (record_edit rfl rfl))
  | taskSaveNone => exact .keep rfl rfl rfl
  | @taskSave id ps m m' q ht hm hm' =>
    exact .save (.inl (ht.appSaves? _ _ rfl)) hm hm' rfl rfl (record_edit rfl rfl)
  | taskOther => exact .keep rfl rfl (record_congr (l := [_]) rfl (by simp [Event.isEdit]))
  | taskLoad ht htype _ h =>
    -- A load request has no updates: nothing is passed.
    refine (h.edits ht fun ps json' hps hne => ?_).congr (answer_modules ..) (answer_idCounter ..)
      (record_answer ..)
    rw [getPropertiesList, htype, if_pos (by decide)] at hps
    cases hps
    exact absurd rfl hne
  | taskApply ht htype h =>
    exact (h.edits ht fun _ _ _ _ => if_pos htype).congr (answer_modules ..) (answer_idCounter ..)
      (record_answer ..)
  | taskPass ht h => exact h.edits ht fun _ _ _ _ => rfl
  | flushed => exact .keep rfl rfl rfl
  | flush _ _ h => exact (pushMsg_emits h).edits (.keep rfl rfl rfl)
  | callbackRegister => exact .keep rfl rfl rfl
  | @callbackUnregister id _ _ _ _ _ h =>
    refine (handleMessage_emits h).edits (.remove (.inr rfl) rfl rfl ?_)
    rw [record_of_trace (s := s) (l := [_, _]) (List.append_assoc ..)]
    rfl
  | callbackUpdate _ hs _ h =>
    exact (handleMessage_emits h).edits (edits_of_savePropertiesList (.inl rfl) hs)
  | callbackUpdateThrows _ hs _ => exact edits_of_savePropertiesList (.inl rfl) hs
  | callbackReturn => exact .keep rfl rfl rfl
  | callbackAnswer => exact .keep rfl rfl (record_congr (l := [_]) rfl (by simp [Event.isEdit]))
  | _ => simp only [Action.onLoop, Bool.false_eq_true] at ha

/-- The history of the modules is extended. -/
theorem Transition.exists_record {s s' : Instance} {a : Action} (h : Transition s a s') :
    ∃ es, s'.record = s.record ++ es := by
  cases h.edits with
  | keep _ _ hrecord => exact ⟨[], hrecord.trans (List.append_nil _).symm⟩
  | add _ _ _ _ _ hrecord => exact ⟨_, hrecord⟩
  | remove _ _ _ hrecord => exact ⟨_, hrecord⟩
  | save _ _ _ _ _ hrecord => exact ⟨_, hrecord⟩

/-- The updates are saved in the module, if it is registered. -/
def Stores (s : Instance) (id : Int32) (ps : Sacs.Updates) (s' : Instance) : Prop :=
  (s.modules.find? id = none ∧ s'.modules = s.modules ∧ s'.record = s.record) ∨
    ∃ m m', s.modules.find? id = some m ∧ m.save ps = .ok m' ∧
      s'.modules = s.modules.modify id (fun _ => m') ∧
      s'.record = s.record ++ [.saved id ps]

/-- A step saving updates of a module changes this module, if it is registered. -/
theorem Transition.saves {s s' : Instance} {a : Action} {id : Int32} {ps : Sacs.Updates}
    (h : Transition s a s') (hs : s.Saves a id ps) : Stores s id ps s' := by
  have hcallback : ∀ {s₁}, savePropertiesList s false id ps = .ok s₁ →
      s'.modules = s₁.modules → s'.record = s₁.record → Stores s id ps s' := by
    intro s₁ h₁ hmodules hrecord
    obtain ⟨hm, rfl⟩ | ⟨m, m', hm, hm', rfl⟩ := savePropertiesList_cases h₁
    · exact .inl ⟨hm, hmodules, hrecord⟩
    · exact .inr ⟨m, m', hm, hm', hmodules, hrecord.trans (record_edit rfl rfl)⟩
  have hpass : ∀ {q json json' s₁}, Passes { s with threadLoop := q } json s₁ →
      json.findId = .ok id → json.getPropertiesList = .ok (ps, json') → ps ≠ [] →
      s'.modules = s₁.modules → s'.record = s₁.record → Stores s id ps s' := by
    intro q json json' s₁ hp hid hps hne hmodules hrecord
    -- Updates are passed on to the module that they name, and there are some (`hne`).
    cases hp with
    | nothing hid' hnone =>
      cases hid.symm.trans hid'
      cases hm : s.modules.find? id with
      | none => exact .inl ⟨hm, hmodules, hrecord⟩
      | some m =>
        obtain ⟨json'', hnil⟩ := hnone m hm
        cases hps.symm.trans hnil
        exact absurd rfl hne
    | unrouted hid' hm hps' _ hm' =>
      cases hid.symm.trans hid'
      cases hps.symm.trans hps'
      exact .inr ⟨_, _, hm, hm', hmodules, hrecord.trans (record_edit rfl rfl)⟩
    | sent hid' hm hps' _ hm' =>
      cases hid.symm.trans hid'
      cases hps.symm.trans hps'
      exact .inr ⟨_, _, hm, hm', hmodules, hrecord.trans (record_edit rfl rfl)⟩
    | invoked hid' hm hps' _ hm' =>
      cases hid.symm.trans hid'
      cases hps.symm.trans hps'
      refine .inr ⟨_, _, hm, hm', hmodules, hrecord.trans ?_⟩
      rw [record_of_trace (s := s) (l := [_, _]) (List.append_assoc ..)]
      rfl
  rcases hs with happ | ⟨rfl, t, q, json, json', ht, hpassed, hid, hps, hne⟩
  · unfold Instance.appSaves? at happ
    split at happ
    · split at happ
      case h_2 => cases happ
      rename_i id' ps' q hq
      cases happ
      cases h with
      | taskSaveNone ht hm =>
        cases (List.cons.inj (hq.symm.trans ht.threadLoop)).1
        exact .inl ⟨hm, rfl, rfl⟩
      | taskSave ht hm hm' =>
        cases (List.cons.inj (hq.symm.trans ht.threadLoop)).1
        exact .inr ⟨_, _, hm, hm', rfl, record_edit rfl rfl⟩
      | _ =>
        rename Takes _ _ _ => ht
        exact Task.noConfusion (List.cons.inj (hq.symm.trans ht.threadLoop)).1
    · cases happ
      cases h with
      | callbackUpdate _ hs₁ _ h =>
        exact hcallback hs₁ (handleMessage_emits h).modules (handleMessage_emits h).record
      | callbackUpdateThrows _ hs₁ _ => exact hcallback hs₁ rfl rfl
    · cases happ
  · cases h with
    | taskLoad ht' htype _ h =>
      cases (ht.inj ht').1
      simp [Task.passed?, htype] at hpassed
    | taskApply ht' htype h =>
      cases (ht.inj ht').1
      rw [Task.passed?, if_pos htype, Option.some.injEq] at hpassed
      subst hpassed
      exact hpass h hid hps hne (answer_modules ..) (record_answer ..)
    | taskPass ht' h =>
      cases (ht.inj ht').1
      cases hpassed
      exact hpass h hid hps hne rfl rfl
    | taskOther ht' _ happly =>
      cases (ht.inj ht').1
      simp [Task.passed?, happly] at hpassed
    | _ =>
      cases (ht.inj ‹_›).1
      cases hpassed

/-! ## The handlers -/

/-- The client whose handler runs. -/
def Action.client? : Action → Option ClientId
  | .read c _ | .resume c | .closed c => some c
  | _ => none

/-- No task is run, and no callback. -/
def LoopPc.isIdle : LoopPc → Bool
  | .idle => true
  | _ => false

theorem LoopPc.eq_idle {pc : LoopPc} (h : pc.isIdle = true) : pc = .idle := by
  cases pc with
  | idle => rfl
  | _ => cases h

/-- No handler of the client runs, or waits. -/
def HandlerPc.isIdle : HandlerPc → Bool
  | .idle => true
  | _ => false

theorem HandlerPc.eq_idle {pc : HandlerPc} (h : pc.isIdle = true) : pc = .idle := by
  cases pc with
  | idle => rfl
  | _ => cases h

def WebPc.isIdle : WebPc → Bool
  | .idle => true
  | _ => false

theorem WebPc.eq_idle {pc : WebPc} (h : pc.isIdle = true) : pc = .idle := by
  cases pc with
  | idle => rfl
  | _ => cases h

/-- A handler that is idle is started by its own client only. -/
theorem Transition.handler_idle {s s' : Instance} {a : Action} (h : Transition s a s')
    {c : ClientId} (hc : s.handler c = .idle) (ha : a.client? ≠ some c) : s'.handler c = .idle := by
  have hset : ∀ {s₁ : Instance} {c' pc}, s₁.handler = s.handler → c' ≠ c →
      (ProxyServer.setHandler s₁ c' pc).handler c = .idle := by
    intro s₁ c' pc h₁ hne
    rw [ProxyServer.setHandler, h₁]
    exact (Function.update_of_ne hne.symm ..).trans hc
  have hne : ∀ {c' : ClientId}, some c' ≠ some c → c' ≠ c := fun h e => h (congrArg some e)
  cases h with
  | taskHandle _ h => rwa [(handleMessage_emits h).handler]
  | @taskRegister m promise q msg s₁ _ _ _ h =>
    have h₁ : s₁.handler = s.handler := (handleMessage_emits h).handler
    have hc₁ : s₁.handler c = .idle := h₁ ▸ hc
    unfold fulfil
    split
    · exact hc₁
    · exact hc₁
    · exact hc₁
    · split
      · rename_i hreg
        refine hset h₁ ?_
        rintro rfl
        cases hreg.symm.trans hc₁
      · exact hc₁
  | taskUnregister _ _ h => rwa [(handleMessage_emits h).handler]
  | taskLoad _ _ _ h => rwa [answer_handler, h.handler]
  | taskApply _ _ h => rwa [answer_handler, h.handler]
  | taskPass _ h => rwa [h.handler]
  | flush _ _ h => rwa [(pushMsg_emits h).handler]
  | callbackUnregister _ _ h => rwa [(handleMessage_emits h).handler]
  | callbackUpdate _ hs _ h =>
    rw [(handleMessage_emits h).handler]
    obtain ⟨_, _, rfl⟩ := savePropertiesList_frame hs
    exact hc
  | callbackUpdateThrows _ hs _ =>
    obtain ⟨_, _, rfl⟩ := savePropertiesList_frame hs
    exact hc
  | readAdd | readUpdate | resumeAdd | resumeUpdate | resumeClosed | closed =>
    exact hset rfl (hne ha)
  | _ => exact hc

end Sacs
