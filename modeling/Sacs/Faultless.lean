import Sacs.Encoding
import Sacs.Network

/-!
# Instances that do not fail

An instance throws, or goes through a null pointer, only for what it is given:
strings that are not valid UTF-8, negative property ids, malformed messages. It is
tame (`Instance.Tame`) as long as it is given nothing of this kind (`Action.Tame`),
and then the loop thread runs every task, if an id is left for a module
(`Instance.Tame.exists_task`), and every handler goes on
(`Instance.Tame.exists_resume`).

What a tame instance sends out is what tame instances take: announcements
(`Text.IsNews`), and requests passed on with another id (`Text.IsOrder`).
-/

namespace Sacs

open JsonMsg ModuleManager Str

/-! ## Messages -/

namespace JsonMsg

/-- Updates that can be saved in any module, and announced. -/
structure Tame (ps : Updates) : Prop where
  ids : ∀ p ∈ ps, 0 ≤ p.1
  values : Announceable ps

theorem tame_nil : Tame [] := ⟨by simp, by simp [Announceable]⟩

theorem Tame.exists_save {ps : Updates} (h : Tame ps) (m : Module) : ∃ m', m.save ps = .ok m' :=
  Module.exists_save_iff.2 fun p hp => .inl (h.ids p hp)

/-- The JSON of a request to apply updates. -/
structure IsOrder (j : Json) : Prop where
  id : j.Member (lit "id") Json.IsInt
  properties : j.Member (lit "properties")
    (Json.IsList fun x => IsUpdate x ∧ ∀ i, valueToInt x (lit "id") = .ok i → 0 ≤ i)

/-- The message is a request to apply updates, and has the right shape. -/
structure Orders (msg : JsonMsg) : Prop where
  parsed : msg.Parsed
  type : msg.type = .reqApply
  json : IsOrder msg.json

namespace Orders

variable {msg : JsonMsg} (h : msg.Orders)

include h

theorem findId_eq : msg.findId = valueToInt msg.json (lit "id") := by
  simp [findId, h.type]

theorem exists_findId : ∃ id, msg.findId = .ok id := by
  rw [h.findId_eq]
  exact exists_valueToInt.2 h.json.id

theorem exists_getPropertiesList : ∃ r, msg.getPropertiesList = .ok r :=
  (JsonMsg.exists_getPropertiesList (.inl h.type)).2
    ⟨h.parsed.isObject (by simp [h.type]),
      fun v hv => (h.json.properties v hv).mono fun _ => And.left⟩

theorem tame {ps : Updates} {msg' : JsonMsg} (hps : msg.getPropertiesList = .ok (ps, msg')) :
    Tame ps :=
  ⟨(forall_getPropertiesList (.inl h.type) hps _).2 h.json.properties,
    announceable_of_getPropertiesList hps h.parsed.utf8⟩

/-- The list of updates is inserted, if it is missing. -/
theorem getPropertiesList {ps : Updates} {msg' : JsonMsg}
    (hps : msg.getPropertiesList = .ok (ps, msg')) : msg'.Orders := by
  obtain ⟨htype, hid, hparsed⟩ := getPropertiesList_spec hps
  refine ⟨hparsed h.parsed, htype.trans h.type, ⟨?_, ?_⟩⟩
  · have hfind : msg'.findId = valueToInt msg'.json (lit "id") := by
      simp [findId, htype, h.type]
    rw [← exists_valueToInt, ← hfind, hid]
    exact h.exists_findId
  · rw [JsonMsg.getPropertiesList, if_neg (by simp [h.type])] at hps
    obtain ⟨⟨v, json⟩, hv, hps⟩ := bind_eq_ok.1 hps
    obtain ⟨es, -, hps⟩ := bind_eq_ok.1 hps
    obtain ⟨us, -, hps⟩ := bind_eq_ok.1 hps
    cases hps
    rw [Json.index] at hv
    split at hv
    · cases hv
      exact h.json.properties
    · obtain ⟨json', hjson, hv⟩ := map_eq_ok.1 hv
      cases hv
      intro v hv
      rw [find?_assign hjson, if_pos rfl] at hv
      cases hv
      trivial

theorem setId {id : Int32} {msg' : JsonMsg} (hset : msg.setId id = .ok msg') : msg'.Orders := by
  obtain ⟨htype, -, hparsed⟩ := setId_spec hset
  obtain ⟨json, hjson, rfl⟩ := map_eq_ok.1 hset
  refine ⟨hparsed h.parsed, htype.trans h.type, ⟨fun v hv => ?_, fun v hv => ?_⟩⟩
  · rw [find?_assign hjson, if_pos rfl] at hv
    cases hv
    trivial
  · rw [find?_assign hjson, if_neg (by decide)] at hv
    exact h.json.properties v hv

end Orders

end JsonMsg

namespace Text

/-- What a tame instance announces to the host. -/
inductive IsNews (t : Text) : Prop
  | added (m : Module) : createModuleAdded m = .ok t → IsNews t
  | removed (id : Int32) : createModuleRemoved id = .ok t → IsNews t
  | updated (id : Int32) (ps : Updates) : createPropertyUpdated id ps = .ok t → Tame ps → IsNews t

/-- A request to apply updates, sent on to the instance of the module. -/
def IsOrder (t : Text) : Prop := ∃ msg, parse t = .ok msg ∧ msg.Orders

/-- A request of a web client that is answered: its type, if it has one, is a string, and
    if it is to apply updates, it has the right shape. -/
def IsRequest (t : Text) : Prop :=
  t.HasType ∧ ∀ msg, parse t = .ok msg → msg.type = .reqApply → JsonMsg.IsOrder msg.json

/-- The updates of an announcement are tame. -/
theorem IsNews.tame {t : Text} (h : t.IsNews) {json json' json'' : JsonMsg} {id : Int32}
    {ps : Updates} (hjson : parse t = .ok json) (hset : json.setId id = .ok json')
    (hps : json'.getPropertiesList = .ok (ps, json'')) : Tame ps := by
  have hother : json.type ≠ .reqApply ∧ json.type ≠ .propertyUpdate → Tame ps := by
    intro ht
    rw [getPropertiesList, (setId_spec hset).1, if_pos ht] at hps
    cases hps
    exact tame_nil
  cases h with
  | added m hmsg =>
    obtain ⟨msg, hmsg, htype, -⟩ := parse_createModuleAdded hmsg
    cases hjson.symm.trans hmsg
    exact hother (by simp [htype])
  | removed id hmsg =>
    obtain ⟨msg, hmsg, htype, -⟩ := parse_createModuleRemoved hmsg
    cases hjson.symm.trans hmsg
    exact hother (by simp [htype])
  | updated id ps' hmsg htame =>
    obtain ⟨msg, hmsg, -, -, hlist, hne⟩ := parse_createPropertyUpdated hmsg
    cases hjson.symm.trans hmsg
    cases (getPropertiesList_setId hset hlist hne).symm.trans hps
    exact htame

/-- The host reads announcements. -/
theorem IsNews.exists_read {t : Text} (h : t.IsNews) (s : Instance) (c : ClientId) :
    ∃ s', ProxyServer.onClientRead s c t = .ok s' := by
  cases h with
  | added m hmsg =>
    obtain ⟨msg, hmsg, htype, -, hm⟩ := parse_createModuleAdded hmsg
    have hp := parsed_of_type hmsg (by simp [htype])
    simp [ProxyServer.onClientRead, hmsg, hp.isValid, htype, hm]
  | removed id hmsg =>
    obtain ⟨msg, hmsg, htype, hid⟩ := parse_createModuleRemoved hmsg
    have hp := parsed_of_type hmsg (by simp [htype])
    simp [ProxyServer.onClientRead, hmsg, hp.isValid, htype, hid, unregisterModule]
  | updated id ps hmsg _ =>
    obtain ⟨msg, hmsg, htype, hid, hlist, hne⟩ := parse_createPropertyUpdated hmsg
    have hp := parsed_of_type hmsg (by simp [htype])
    obtain ⟨msg', hset⟩ := exists_setId (hp.isObject (by simp [htype]))
      (ProxyServer.localIdFromRemote s id c)
    have hlist' := getPropertiesList_setId hset hlist hne
    simp [ProxyServer.onClientRead, hmsg, hp.isValid, htype, hid, hset, hlist',
      savePropertiesList]

end Text

/-! ## What an instance is given -/

/-- What the action gives to the instance is fit for it, and a callback does not wait for its
    own thread. -/
def Action.Tame : Action → Prop
  | .registerModule n ps cb => Module.IsUtf8 ⟨-1, n, ps, cb⟩
  | .updateProperties _ ps | .callbackUpdateProperties _ ps => JsonMsg.Tame ps
  | .callbackRegisterModule .. => False
  | .wsMessage _ msg => msg.useDriveCache = false → msg.text.IsRequest
  | .read _ msg => msg.IsNews
  | .proxyRead msg => msg.IsOrder
  | _ => True

/-- The loop thread can run the task. -/
def Task.Tame : Task → Prop
  | .doRegisterModule m _ => m.IsUtf8
  | .savePropertiesList _ ps => JsonMsg.Tame ps
  | .doProcessJSRequest json _ => json.Parsed ∧ (json.type = .reqApply → IsOrder json.json)
  | .passPropertyUpdateToModule json => json.Orders
  | _ => True

/-- The instance has been given nothing that it does not take. -/
structure Instance.Tame (s : Instance) : Prop where
  hosting : s.Hosting
  queues : s.Queues
  fresh : s.Fresh
  valid : s.Valid
  tasks : ∀ t ∈ s.threadLoop, t.Tame
  calls : ∀ call ∈ s.calls, JsonMsg.Tame call.2
  waiting : ∀ request, s.loop ≠ .waiting request
  flushing : s.loop = .flushing → s.initialized = true

/-! ### Steps -/

theorem Posts.tame {s : Instance} {a : Action} {ts : List Task} (h : Posts s a ts) (ha : a.Tame) :
    ∀ t ∈ ts, t.Tame := by
  have hsingle : ∀ {t : Task}, t.Tame → ∀ t' ∈ [t], t'.Tame := by
    intro t ht t' ht'
    cases List.mem_singleton.1 ht'
    exact ht
  cases h with
  | callbackRegister => exact ha.elim
  | registerModule => exact hsingle ha
  | updateProperties => exact hsingle ha
  | proxyRead _ hjson =>
    obtain ⟨msg, hmsg, horders⟩ := ha
    cases hjson.symm.trans hmsg
    exact hsingle horders
  | readAdd _ hjson hm =>
    obtain ⟨-, rfl⟩ | ⟨hp, -⟩ := parsed_of_parse hjson
    · cases hm
    · exact hsingle (isUtf8_of_toModule hm hp.utf8)
  | readUpdate _ hjson _ hset hps => exact hsingle (ha.tame hjson hset hps)
  | wsRequest _ hjson hvalid =>
    exact hsingle ⟨parsed_of_isValid hjson hvalid, (ha rfl).2 _ hjson⟩
  | none => simp
  | _ => exact hsingle trivial

/-- A call of `UpdateProperties` is begun by the application only. -/
theorem Transition.mem_calls {s s' : Instance} {a : Action} (h : Transition s a s')
    {call : Int32 × Updates} (hc : call ∈ s'.calls) :
    call ∈ s.calls ∨ a = .updateProperties call.1 call.2 := by
  cases h with
  | updateProperties =>
    refine (List.mem_append.1 hc).imp id fun h => ?_
    rw [List.mem_singleton.1 h]
  | announce => exact .inl (List.mem_of_mem_eraseIdx hc)
  | announceThrows => exact .inl (List.mem_of_mem_eraseIdx hc)
  | taskHandle _ h => exact .inl ((handleMessage_emits h).calls ▸ hc)
  | taskRegister _ _ _ h =>
    rw [fulfil_calls] at hc
    exact .inl ((handleMessage_emits h).calls ▸ hc)
  | taskUnregister _ _ h => exact .inl ((handleMessage_emits h).calls ▸ hc)
  | taskLoad _ _ _ h =>
    rw [answer_calls, h.calls] at hc
    exact .inl hc
  | taskApply _ _ h =>
    rw [answer_calls, h.calls] at hc
    exact .inl hc
  | taskPass _ h => exact .inl (h.calls ▸ hc)
  | flush _ _ h => exact .inl ((pushMsg_emits h).calls ▸ hc)
  | callbackUnregister _ _ h => exact .inl ((handleMessage_emits h).calls ▸ hc)
  | callbackUpdate _ hs _ h =>
    rw [(handleMessage_emits h).calls] at hc
    obtain ⟨_, _, rfl⟩ := savePropertiesList_frame hs
    exact .inl hc
  | callbackUpdateThrows _ hs _ =>
    obtain ⟨_, _, rfl⟩ := savePropertiesList_frame hs
    exact .inl hc
  | _ => exact .inl hc

/-- The message queue is passed on once the role is told. -/
theorem Transition.flushes {s s' : Instance} {a : Action} (h : Transition s a s')
    (hl : s'.loop = .flushing) :
    s.loop = .flushing ∨ ∃ hostMode q, a = .task ∧ Takes s (.onProxyInitialized hostMode) q := by
  cases ha : a.onLoop with
  | false => exact .inl ((h.offLoop ha).loop ▸ hl)
  | true =>
  have hanswer : ∀ {s₁ : Instance} {w response}, s₁.loop = .idle ∨ s₁.loop = .callback none →
      (answer s₁ w response).loop ≠ .flushing := by
    intro s₁ w response h₁ hl
    rcases answer_loop s₁ w response with h | ⟨r, h⟩ <;> rw [h] at hl
    · rcases h₁ with h₁ | h₁ <;> rw [h₁] at hl <;> cases hl
    · cases hl
  cases h with
  | taskRole ht => exact .inr ⟨_, _, rfl, ht⟩
  | taskHandle _ h => exact .inl ((handleMessage_emits h).loop ▸ hl)
  | taskRegister ht _ _ h =>
    have hidle := (handleMessage_emits h).loop.trans ht.idle
    rw [fulfil_loop _ _ _ fun r => by rw [hidle]; exact LoopPc.noConfusion, hidle] at hl
    cases hl
  | taskUnregister _ _ h => exact .inl ((handleMessage_emits h).loop ▸ hl)
  | taskLoad ht _ _ h => exact absurd hl (hanswer (h.loop.imp_left (·.trans ht.idle)))
  | taskApply ht _ h => exact absurd hl (hanswer (h.loop.imp_left (·.trans ht.idle)))
  | taskPass ht h =>
    rcases h.loop with h | h <;> rw [h] at hl
    · exact .inl hl
    · cases hl
  | flush _ _ h => exact .inl ((pushMsg_emits h).loop ▸ hl)
  | callbackUnregister _ _ h => exact .inl ((handleMessage_emits h).loop ▸ hl)
  | callbackUpdate _ hs _ h =>
    rw [(handleMessage_emits h).loop] at hl
    obtain ⟨_, _, rfl⟩ := savePropertiesList_frame hs
    exact .inl hl
  | callbackUpdateThrows _ hs _ =>
    obtain ⟨_, _, rfl⟩ := savePropertiesList_frame hs
    exact .inl hl
  | callbackRegister => cases hl
  | callbackReturn => cases hl
  | callbackAnswer => cases hl
  | flushed => cases hl
  | _ => exact .inl hl

/-- Nothing that cannot be announced is saved. -/
theorem Instance.Tame.harmless {s : Instance} (hs : s.Tame) {a : Action} (ha : a.Tame) :
    s.Harmless a := by
  intro id ps happ hps
  refine absurd ?_ hps
  unfold Instance.appSaves? at happ
  split at happ
  · split at happ
    · rename_i id' ps' q hq
      cases happ
      have htame := hs.tasks (.savePropertiesList id ps) (hq ▸ List.mem_cons_self)
      exact htame.values
    · cases happ
  · cases happ
    exact ha.values
  · cases happ

theorem Instance.Tame.step {s s' : Instance} (hs : s.Tame) {a : Action} (ha : a.Tame)
    (h : Transition s a s') : s'.Tame where
  hosting := hs.hosting.step h
  queues := hs.queues.step h
  fresh := h.registry.fresh hs.fresh
  valid := hs.valid.step h (hs.harmless ha)
  tasks := h.forall_tasks hs.tasks (fun _ ht => ht) fun _ hts => hts.tame ha
  calls call hc := by
    rcases h.mem_calls hc with hc | rfl
    · exact hs.calls call hc
    · exact ha
  waiting request hw := by
    cases hloop : a.onLoop with
    | true =>
      obtain ⟨_, _, _, rfl⟩ := h.waits hloop hw
      exact ha
    | false => exact hs.waiting request ((h.offLoop hloop).loop ▸ hw)
  flushing hl := by
    cases h.role with
    | tell _ _ hs' => rw [hs']
    | keep hrole =>
      rw [hrole.initialized]
      rcases h.flushes hl with hl | ⟨hostMode, q, rfl, ht⟩
      · exact hs.flushing hl
      · -- The role would be told, and the module manager was not initialized before.
        cases h with
        | taskRole => exact hrole.initialized.symm
        | _ => exact Task.noConfusion (ht.inj ‹_›).1
    | connect _ _ hs' =>
      rw [hs'] at hl ⊢
      exact hs.flushing hl
    | serve _ _ hs' =>
      rw [hs'] at hl ⊢
      exact hs.flushing hl

theorem tame_init : ({} : Instance).Tame where
  hosting := hosting_of_runs .nil
  queues := queues_of_runs .nil
  fresh := fresh_of_runs .nil
  valid := valid_of_runs .nil
  tasks _ ht := absurd ht List.not_mem_nil
  calls _ hc := absurd hc List.not_mem_nil
  waiting _ := LoopPc.noConfusion
  flushing := LoopPc.noConfusion

/-! ## Nothing fails -/

/-- The loop thread has a module to register, and no id left. -/
def Instance.Exhausted (s : Instance) : Prop :=
  s.idCounter = Int32.maxValue ∧ ∃ m promise q, Takes s (.doRegisterModule m promise) q

/-- Updates are passed to a module that has a callback. -/
theorem exists_passToCallback {s : Instance} {json : JsonMsg} (h : json.Orders)
    (hcb : ∀ id m, s.modules.find? id = some m → m.callback.isSome) :
    ∃ s', passPropertyUpdateToModule s false json = .ok s' := by
  obtain ⟨id, hid⟩ := h.exists_findId
  cases hm : s.modules.find? id with
  | none => exact ⟨s, by simp [passPropertyUpdateToModule, hid, hm]⟩
  | some m =>
    obtain ⟨⟨ps, json'⟩, hps⟩ := h.exists_getPropertiesList
    by_cases hne : ps = []
    · exact ⟨s, by simp [passPropertyUpdateToModule, hid, hm, hps, hne]⟩
    · obtain ⟨m', hm'⟩ := (h.tame hps).exists_save m
      obtain ⟨callback, hcallback⟩ := Option.isSome_iff_exists.1 (hcb id m hm)
      exact ⟨_, passPropertyUpdate_of_callback hid hm (map_eq_ok.2 ⟨_, hps, rfl⟩) hne hm' hcallback⟩

namespace Instance.Tame

variable {s : Instance} (hs : s.Tame)

include hs

theorem pushes : s.Pushes := by
  intro hi
  obtain ⟨hd, himpl, -⟩ := hs.hosting.role.of_initialized hi
  rw [himpl, hd.2]
  cases s.server <;> simp

/-- A message is handled, in a state that has the same role. -/
theorem exists_handle (s₁ : Instance) (hi : s₁.initialized = s.initialized)
    (himpl : s₁.serverImpl = s.serverImpl) (hc : s₁.client = s.client) (msg : Text) :
    ∃ s', handleMessage s₁ false msg = .ok s' :=
  exists_handleMessage (fun h => by rw [himpl, hc]; exact hs.pushes (hi.symm.trans h)) msg

/-- A request that has the right shape is answered. -/
theorem exists_request {json : JsonMsg} {w : ClientId} {q : List Task}
    (ht : Takes s (.doProcessJSRequest json w) q) :
    ∃ s', doProcessJSRequest { s with threadLoop := q } json w = .ok s' := by
  have hmem : Task.doProcessJSRequest json w ∈ s.threadLoop := ht.threadLoop ▸ List.mem_cons_self
  obtain ⟨hp, hserver⟩ := hs.hosting.requests _ hmem json w rfl
  obtain ⟨-, horder⟩ := hs.tasks _ hmem
  refine (exists_doProcessJSRequest (s := { s with threadLoop := q }) hs.fresh hserver hp w).2
    ⟨fun _ => hs.valid.modules, fun htype => ?_⟩
  have := horder (Except.ok.inj (hp.type.symm.trans htype))
  exact ⟨this.id, fun _ _ _ _ v hv => (this.properties v hv).mono fun _ hx =>
    ⟨hx.1, fun i hi => .inl (hx.2 i hi)⟩⟩

/-- The loop thread runs every task, if there is an id left for a module. -/
theorem exists_task {t : Task} {q : List Task} (ht : Takes s t q)
    (hcb : ∀ json, t = .passPropertyUpdateToModule json →
      ∀ id m, s.modules.find? id = some m → m.callback.isSome)
    (hids : ¬s.Exhausted) : ∃ s', s.step .task = .ok s' := by
  have htame := hs.tasks t (ht.threadLoop ▸ List.mem_cons_self)
  rw [ht.step_task]
  cases t with
  | onProxyInitialized hostMode => exact ⟨_, rfl⟩
  | handleMessage msg =>
    exact hs.exists_handle { s with threadLoop := q } rfl rfl rfl msg
  | doRegisterModule m promise =>
    have hmax : s.idCounter ≠ Int32.maxValue := fun h => hids ⟨h, m, promise, q, ht⟩
    obtain ⟨msg, hmsg⟩ := exists_createModuleAdded.2
      (⟨htame.name, htame.properties⟩ : (m.setId s.idCounter).IsUtf8)
    obtain ⟨s₁, hs₁⟩ := hs.exists_handle
      (({ s with threadLoop := q } : Instance).added promise m) rfl rfl rfl msg
    refine ⟨fulfil s₁ promise s.idCounter, ?_⟩
    rw [runTask, doRegisterModule, if_neg hmax]
    simp only [hmsg, bind_ok]
    exact bind_eq_ok.2 ⟨s₁, hs₁, rfl⟩
  | unregisterModule id =>
    obtain ⟨msg, hmsg⟩ := exists_createModuleRemoved id
    simp only [runTask, unregisterModule, if_neg Bool.false_ne_true, hmsg, bind_ok]
    exact hs.exists_handle (({ s with threadLoop := q } : Instance).removed id) rfl rfl rfl msg
  | savePropertiesList id ps =>
    cases hm : s.modules.find? id with
    | none => exact ⟨{ s with threadLoop := q }, by simp [runTask, savePropertiesList, hm]⟩
    | some m =>
      obtain ⟨m', hm'⟩ := htame.exists_save m
      exact ⟨_, savePropertiesList_of_save (s := { s with threadLoop := q }) hm hm'⟩
  | doProcessJSRequest json w => exact hs.exists_request ht
  | passPropertyUpdateToModule json => exact exists_passToCallback htame (hcb json rfl)

/-- Messages kept are passed on. -/
theorem exists_flush (hl : s.loop = .flushing) : ∃ s', s.step .flush = .ok s' := by
  have hstep : s.step .flush = flush s := by rw [Instance.step, hl]
  rw [hstep, flush]
  cases hq : s.msgQueue with
  | nil => exact ⟨_, rfl⟩
  | cons msg q =>
    exact exists_pushMsg (s := { s with msgQueue := q }) (hs.pushes (hs.flushing hl)) msg

/-- A handler that does not wait goes on. -/
theorem exists_resume {c : ClientId} (hidle : s.handler c ≠ .idle)
    (hreg : ∀ r, s.handler c ≠ .registering r) : ∃ s', s.step (.resume c) = .ok s' := by
  simp only [Instance.step, ProxyServer.resume]
  cases hpc : s.handler c with
  | idle => exact absurd hpc hidle
  | registering r => exact absurd hpc (hreg r)
  | registered => exact ⟨_, rfl⟩
  | updating json =>
    obtain ⟨t, ht, -⟩ := (hs.hosting.posts.updating hpc).1.exists_toString
    exact ⟨_, by simp only [ht, bind_ok]; rfl⟩
  | closing =>
    dsimp only
    cases ProxyServer.nextOfClient s c with
    | none => exact ⟨_, rfl⟩
    | some e => exact ⟨_, rfl⟩

/-- A callback updates properties. -/
theorem exists_callbackUpdate {id : Int32} {ps : Updates} (hps : JsonMsg.Tame ps) :
    ∃ s', s.callbackUpdate id ps = .ok s' := by
  obtain ⟨msg, hmsg⟩ := (@createPropertyUpdated_eq_ok_iff id _).2 hps.values
  have hsave : ∃ s₁, updateProperties s false id ps = .ok s₁ := by
    rw [updateProperties]
    cases hm : s.modules.find? id with
    | none => exact ⟨s, by simp [savePropertiesList, hm]⟩
    | some m =>
      obtain ⟨m', hm'⟩ := hps.exists_save m
      exact ⟨_, savePropertiesList_of_save hm hm'⟩
  obtain ⟨s₁, hs₁⟩ := hsave
  have hframe : s₁.initialized = s.initialized ∧ s₁.serverImpl = s.serverImpl ∧
      s₁.client = s.client := by
    obtain ⟨_, _, rfl⟩ := savePropertiesList_frame hs₁
    exact ⟨rfl, rfl, rfl⟩
  simp only [callbackUpdate, hs₁, bind_ok, hmsg]
  exact hs.exists_handle s₁ hframe.1 hframe.2.1 hframe.2.2 msg

/-- A tame instance makes every step that it comes to. -/
theorem exists_step {a : Action} (ha : a.Tame)
    (hcb : ∀ json q, Takes s (.passPropertyUpdateToModule json) q →
      ∀ id m, s.modules.find? id = some m → m.callback.isSome)
    (hids : a = .task → ¬s.Exhausted) :
    (∃ s', s.step a = .ok s') ∨ s.step a = .error .disabled := by
  cases a with
  | callbackRegisterModule => exact ha.elim
  | task =>
    by_cases ht : ∃ t q, Takes s t q
    · obtain ⟨t, q, ht⟩ := ht
      exact .inl (hs.exists_task ht (fun json hjson => hcb json q (hjson ▸ ht)) (hids rfl))
    · refine .inr ?_
      rw [Instance.step, nextTask]
      split
      · rename_i t q hl hq
        exact absurd ⟨t, q, hl, hq⟩ ht
      · rfl
  | announce i =>
    simp only [Instance.step, announceCall]
    split
    · exact .inr rfl
    · split <;> exact .inl ⟨_, rfl⟩
  | flush =>
    by_cases hl : s.loop = .flushing
    · exact .inl (hs.exists_flush hl)
    · refine .inr ?_
      rw [Instance.step]
      split
      · exact absurd ‹_› hl
      · rfl
  | callbackUnregisterModule id =>
    simp only [Instance.step]
    split
    · obtain ⟨msg, hmsg⟩ := exists_createModuleRemoved id
      simp only [unregisterModule, if_neg Bool.false_ne_true, hmsg, bind_ok]
      exact .inl (hs.exists_handle ((s.log (.unregister id)).removed id) rfl rfl rfl msg)
    · exact .inr rfl
  | callbackUpdateProperties id ps =>
    simp only [Instance.step]
    split
    · exact .inl (hs.exists_callbackUpdate ha)
    · exact .inr rfl
  | read c msg =>
    simp only [Instance.step]
    split
    · exact .inl (Text.IsNews.exists_read ha s c)
    · exact .inr rfl
  | proxyRead msg =>
    obtain ⟨json, hjson, -⟩ := id ha
    simp only [Instance.step, Proxy.onClientRead, hjson, bind_ok]
    split_ifs
    · exact .inl ⟨_, rfl⟩
    · exact .inr rfl
  | resume c =>
    cases hpc : s.handler c with
    | idle => exact .inr (by simp only [Instance.step, ProxyServer.resume, hpc])
    | registering r => exact .inr (by simp only [Instance.step, ProxyServer.resume, hpc])
    | _ => exact .inl (hs.exists_resume (by simp [hpc]) (by simp [hpc]))
  | wsMessage w msg =>
    simp only [Instance.step, ServerImpl.onWsClientMessage]
    split
    · split_ifs with hlarge
      · exact .inl ⟨_, rfl⟩
      · obtain ⟨json, hjson⟩ := exists_parse.2 (ha (Bool.eq_false_of_not_eq_true hlarge)).1
        simp only [hjson, bind_ok]
        split_ifs <;> exact .inl ⟨_, rfl⟩
    · exact .inr rfl
  | callbackReturn =>
    simp only [Instance.step, returnCallback]
    split
    · exact .inl ⟨_, rfl⟩
    · exact .inl ⟨_, rfl⟩
    · exact .inr rfl
  | accept c =>
    simp only [Instance.step]
    split_ifs
    · exact .inl ⟨_, rfl⟩
    · exact .inr rfl
  | wsConnected w =>
    simp only [Instance.step]
    split_ifs
    · exact .inl ⟨_, rfl⟩
    · exact .inr rfl
  | closed | wsReply | wsClosed | wsExpired =>
    simp only [Instance.step]
    split
    · exact .inl ⟨_, rfl⟩
    · exact .inr rfl
  | _ => exact .inl ⟨_, rfl⟩

theorem eq_disabled {a : Action} (ha : a.Tame)
    (hcb : ∀ json q, Takes s (.passPropertyUpdateToModule json) q →
      ∀ id m, s.modules.find? id = some m → m.callback.isSome)
    {e : Fault} (he : s.step a = .error e) : e = .disabled ∨ a = .task ∧ s.Exhausted := by
  by_cases hids : a = .task ∧ s.Exhausted
  · exact .inr hids
  · rcases hs.exists_step ha hcb (fun h hex => hids ⟨h, hex⟩) with ⟨s', hst⟩ | hst
    · cases he.symm.trans hst
    · exact .inl (Except.error.inj (he.symm.trans hst))

end Instance.Tame

/-! ## What is sent out -/

/-- The messages handled are those of the tasks to do so, and announcements. -/
theorem Transition.mem_handled {s s' : Instance} {a : Action} (h : Transition s a s')
    (ha : a.Tame) {msg : Text} (hmsg : msg ∈ s'.handled) :
    msg ∈ s.handled ∨ Task.handleMessage msg ∈ s.threadLoop ∨ msg.IsNews := by
  have hhandle : ∀ {s₁ : Instance} {msg' : Text}, handleMessage s₁ false msg' = .ok s' →
      s₁.handled = s.handled → msg'.IsNews → msg ∈ s.handled ∨
        Task.handleMessage msg ∈ s.threadLoop ∨ msg.IsNews := by
    intro s₁ msg' h h₁ hnews
    rw [handled_handleMessage h, h₁, List.mem_append, List.mem_singleton] at hmsg
    exact hmsg.imp id fun hmsg => .inr (by rwa [hmsg])
  have hkeep : s'.handled = s.handled → msg ∈ s.handled ∨
      Task.handleMessage msg ∈ s.threadLoop ∨ msg.IsNews := fun h => .inl (h ▸ hmsg)
  have hlog : ∀ e : Event, e.handled? = none → (s.log e).handled = s.handled := fun e he => by
    rw [handled_of_trace (s := s) rfl, List.filterMap_cons_none he, List.filterMap_nil,
      List.append_nil]
  cases hloop : a.onLoop with
  | false => exact hkeep (h.offLoop hloop).handled
  | true =>
  cases h with
  | @taskHandle msg' q _ ht h =>
    rw [handled_handleMessage h, List.mem_append, List.mem_singleton] at hmsg
    rcases hmsg with hmsg | rfl
    · exact .inl hmsg
    · exact .inr (.inl (ht.threadLoop ▸ List.mem_cons_self))
  | @taskRegister m promise q msg' s₁ _ _ hmsg' h =>
    rw [handled_fulfil] at hmsg
    rw [handled_handleMessage h, handled_added, List.mem_append, List.mem_singleton] at hmsg
    exact hmsg.imp id fun hmsg => .inr (by rw [hmsg]; exact .added _ hmsg')
  | taskUnregister _ hmsg' h => exact hhandle h (handled_removed ..) (.removed _ hmsg')
  | taskSave => exact hkeep (handled_saved ..)
  | taskOther => exact hkeep ((handled_of_trace rfl).trans (List.append_nil _))
  | taskLoad _ _ _ h => exact hkeep (by rw [handled_answer, h.handled]; rfl)
  | taskApply _ _ h => exact hkeep (by rw [handled_answer, h.handled]; rfl)
  | taskPass _ h => exact hkeep h.handled
  | flush _ _ h => exact hkeep ((handled_pushMsg h).trans rfl)
  | callbackUnregister _ hmsg' h =>
    exact hhandle h ((handled_removed ..).trans (hlog _ rfl)) (.removed _ hmsg')
  | callbackUpdate _ hs hmsg' h =>
    exact hhandle h (handled_savePropertiesList hs) (.updated _ _ hmsg' ha)
  | callbackUpdateThrows _ hs => exact hkeep (handled_savePropertiesList hs)
  | callbackAnswer => exact hkeep ((handled_of_trace rfl).trans (List.append_nil _))
  | taskRole => exact hkeep rfl
  | taskSaveNone => exact hkeep rfl
  | flushed => exact hkeep rfl
  | callbackRegister => exact hkeep rfl
  | callbackReturn => exact hkeep rfl
  | _ => simp only [Action.onLoop, Bool.false_eq_true] at hloop

/-- Passing a request sends one on, at most. -/
theorem Passes.mem_clients {s s' : Instance} {json : JsonMsg} (h : Passes s json s')
    (hjson : json.type = .reqApply → json.Orders) (htype : json.type ≠ .propertyUpdate)
    {c : ClientId} {sent : List Text} {msg : Text} (hc : s'.clients c = some sent)
    (hmsg : msg ∈ sent) : (∃ sent₀, s.clients c = some sent₀ ∧ msg ∈ sent₀) ∨ msg.IsOrder := by
  cases h with
  | nothing => exact .inl ⟨sent, hc, hmsg⟩
  | unrouted => exact .inl ⟨sent, hc, hmsg⟩
  | invoked => exact .inl ⟨sent, hc, hmsg⟩
  | @sent id m m' ps json' json'' out msg' _ _ hps hne _ _ _ hout hset hmsg' =>
    change Function.update s.clients _ _ c = _ at hc
    rw [Function.update_apply] at hc
    split_ifs at hc with he
    · cases hc
      rcases List.mem_append.1 hmsg with hmsg | hmsg
      · exact .inl ⟨out, he ▸ hout, hmsg⟩
      · -- Only requests to apply updates, and announcements, have any.
        have happly : json.type = .reqApply := by
          by_contra happly
          rw [getPropertiesList, if_pos ⟨happly, htype⟩] at hps
          cases hps
          exact hne rfl
        have horders := ((hjson happly).getPropertiesList hps).setId hset
        obtain ⟨t, ht, hparse⟩ := horders.parsed.exists_toString
        cases Except.ok.inj (hmsg'.symm.trans ht)
        rw [List.mem_singleton.1 hmsg]
        exact .inr ⟨json'', hparse, horders⟩
    · exact .inl ⟨sent, hc, hmsg⟩

/-- What is sent to a client is a request to apply updates. -/
theorem Instance.Tame.mem_clients {s s' : Instance} (hs : s.Tame) {a : Action}
    (h : Transition s a s') {c : ClientId} {sent : List Text} {msg : Text}
    (hc : s'.clients c = some sent) (hmsg : msg ∈ sent) :
    (∃ sent₀, s.clients c = some sent₀ ∧ msg ∈ sent₀) ∨ msg.IsOrder := by
  have hkeep : s'.clients = s.clients → (∃ sent₀, s.clients c = some sent₀ ∧ msg ∈ sent₀) ∨
      msg.IsOrder := fun h => .inl ⟨sent, h ▸ hc, hmsg⟩
  have hsave : ∀ {s₁ s₂ : Instance} {id ps}, savePropertiesList s₁ false id ps = .ok s₂ →
      s₂.clients = s₁.clients := by
    intro s₁ s₂ id ps h
    obtain ⟨_, _, rfl⟩ := savePropertiesList_frame h
    rfl
  have hpass : ∀ {t q json s₁}, Takes s t q → Passes { s with threadLoop := q } json s₁ →
      s'.clients = s₁.clients → (json.type = .reqApply → json.Orders) →
      json.type ≠ .propertyUpdate →
      (∃ sent₀, s.clients c = some sent₀ ∧ msg ∈ sent₀) ∨ msg.IsOrder :=
    fun _ hp h₁ hjson htype => hp.mem_clients hjson htype (h₁ ▸ hc) hmsg
  have hanswer : ∀ (s₁ : Instance) w response, (answer s₁ w response).clients = s₁.clients := by
    intro s₁ w response
    obtain ⟨_, _, _, hf⟩ := answer_frame s₁ w response
    rw [hf]
  cases h with
  | taskHandle _ h => exact hkeep (handleMessage_emits h).clients
  | @taskRegister m promise q msg s₁ _ _ _ h =>
    obtain ⟨_, _, hf⟩ := fulfil_frame s₁ promise s.idCounter
    refine hkeep ?_
    rw [hf]
    exact (handleMessage_emits h).clients
  | taskUnregister _ _ h => exact hkeep (handleMessage_emits h).clients
  | taskLoad ht htype _ h =>
    exact hpass ht h (hanswer ..) (by simp [htype]) (by simp [htype])
  | taskApply ht htype h =>
    obtain ⟨hp, horder⟩ := hs.tasks _ (ht.threadLoop ▸ List.mem_cons_self)
    exact hpass ht h (hanswer ..) (fun happly => ⟨hp, happly, horder happly⟩) (by simp [htype])
  | taskPass ht h =>
    have horders := hs.tasks (.passPropertyUpdateToModule _) (ht.threadLoop ▸ List.mem_cons_self)
    exact hpass ht h rfl (fun _ => horders) (by simp [JsonMsg.Orders.type horders])
  | flush _ _ h => exact hkeep (pushMsg_emits h).clients
  | callbackUnregister _ _ h => exact hkeep (handleMessage_emits h).clients
  | callbackUpdate _ hs _ h => exact hkeep ((handleMessage_emits h).clients.trans (hsave hs))
  | callbackUpdateThrows _ hs _ => exact hkeep (hsave hs)
  | @accept c' =>
    change Function.update s.clients c' (some []) c = _ at hc
    rw [Function.update_apply] at hc
    split_ifs at hc
    · cases hc
      cases hmsg
    · exact .inl ⟨sent, hc, hmsg⟩
  | @resumeClosed c' =>
    change Function.update s.clients c' none c = _ at hc
    rw [Function.update_apply] at hc
    split_ifs at hc
    exact .inl ⟨sent, hc, hmsg⟩
  | _ => exact hkeep rfl

end Sacs
