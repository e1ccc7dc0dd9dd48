import Sacs.Announcements
import Sacs.Lib.Feed

/-!
# The registry as announced

Every registration and every unregistration is announced, when it is made: the
modules of an instance are what is obtained by replaying the announcements
handled so far (`announced_of_runs`). Updates are announced as well, but change
neither the modules nor their shapes.

This is what the host has to go by for the modules of the other instances, and
the browser for those of the host.
-/

namespace Sacs

open JsonMsg ModuleManager

/-- The change of a registry announced by a message. -/
def Text.change? (msg : Text) : Option (Feed.Change Int32 Shape) :=
  match parse msg with
  | .error _ => none
  | .ok j =>
    match j.type with
    | .moduleAdd =>
      match j.toModule with
      | .ok (some m) => some (.add m.id m.shape)
      | _ => none
    | .moduleDel =>
      match j.findId with
      | .ok id => some (.remove id)
      | .error _ => none
    | _ => none

/-- The message is one of updates. -/
def Text.IsUpdate (msg : Text) : Prop := ∃ json, parse msg = .ok json ∧ json.type = .propertyUpdate

/-- The changes announced so far. -/
def Instance.changes (s : Instance) : List (Feed.Change Int32 Shape) :=
  s.handled.filterMap Text.change?

/-- The modules registered, by their ids and shapes. -/
def Instance.shapes (s : Instance) : List (Int32 × Shape) :=
  s.modules.entries.map fun e => (e.1, e.2.shape)

/-! ### The changes announced by messages -/

theorem change?_createModuleAdded {m : Module} {msg : Text} (h : createModuleAdded m = .ok msg) :
    msg.change? = some (.add m.id m.shape) := by
  obtain ⟨json, hjson, htype, -, hm⟩ := parse_createModuleAdded h
  rw [Text.change?, hjson]
  dsimp only
  rw [htype, hm]
  rfl

theorem change?_createModuleRemoved {id : Int32} {msg : Text}
    (h : createModuleRemoved id = .ok msg) :
    msg.change? = some (.remove id) := by
  obtain ⟨json, hjson, htype, hid⟩ := parse_createModuleRemoved h
  rw [Text.change?, hjson]
  dsimp only
  rw [htype, hid]

theorem isUpdate_createPropertyUpdated {id : Int32} {ps : Updates} {msg : Text}
    (h : createPropertyUpdated id ps = .ok msg) : msg.IsUpdate := by
  obtain ⟨json, hjson, htype, -⟩ := parse_createPropertyUpdated h
  exact ⟨json, hjson, htype⟩

theorem isUpdate_toString {json : JsonMsg} {msg : Text} (hp : json.Parsed)
    (ht : json.type = .propertyUpdate) (hmsg : json.toString = .ok msg) : msg.IsUpdate := by
  obtain ⟨msg', hmsg', hjson⟩ := hp.exists_toString
  cases Except.ok.inj (hmsg.symm.trans hmsg')
  exact ⟨json, hjson, ht⟩

theorem Text.IsUpdate.change? {msg : Text} (h : msg.IsUpdate) : msg.change? = none := by
  obtain ⟨json, hjson, ht⟩ := h
  rw [Text.change?, hjson]
  dsimp only
  rw [ht]

/-! ### What steps do to the registry -/

theorem changes_of_handled {s s' : Instance} {msg : Text} (h : s'.handled = s.handled ++ [msg]) :
    s'.changes = s.changes ++ msg.change?.toList := by
  rw [Instance.changes, h, List.filterMap_append, List.filterMap_cons]
  cases msg.change? <;> rfl

theorem shapes_insert {s : Instance} (hs : s.Fresh) (m : Module) :
    ((s.modules.insert s.idCounter m).entries.map fun e => (e.1, e.2.shape)) =
      s.shapes ++ [(s.idCounter, m.shape)] := by
  rw [OrdMap.entries_insert_of_lt, List.map_append]
  · rfl
  intro j hj
  rw [OrdMap.mem_keys_iff, Option.isSome_iff_exists] at hj
  obtain ⟨m, hm⟩ := hj
  exact (hs.key hm).2.2

theorem shapes_erase (s : Instance) (id : Int32) :
    ((s.modules.erase id).entries.map fun e => (e.1, e.2.shape)) =
      s.shapes.filter fun e => e.1 ≠ id := by
  rw [Instance.shapes, List.filter_map, OrdMap.erase]
  exact congrArg _ (List.filter_congr fun e _ => by simp)

/-- Saving updates changes no shape. -/
theorem shapes_modify {s : Instance} {id : Int32} {m m' : Module} (hm : s.modules.find? id = some m)
    (hm' : m.Saved m') :
    ((s.modules.modify id fun _ => m').entries.map fun e => (e.1, e.2.shape)) = s.shapes := by
  rw [OrdMap.modify, List.map_map]
  refine List.map_congr_left fun e he => ?_
  by_cases hid : e.1 = id
  · have : some e.2 = some m := by
      rw [← hm, ← hid]
      exact (OrdMap.find?_eq_some_iff.2 he).symm
    rw [Function.comp_apply, if_pos hid, hm'.shape, Option.some.inj this]
  · rw [Function.comp_apply, if_neg hid]

theorem Passes.shapes {s s' : Instance} {json : JsonMsg} (h : Passes s json s') :
    s'.shapes = s.shapes := by
  cases h with
  | nothing => rfl
  | unrouted _ hm _ _ hm' => exact shapes_modify hm (Module.save_saved hm')
  | sent _ hm _ _ hm' => exact shapes_modify hm (Module.save_saved hm')
  | invoked _ hm _ _ hm' => exact shapes_modify hm (Module.save_saved hm')

theorem shapes_savePropertiesList {s s' : Instance} {id : Int32} {ps : Updates}
    (h : savePropertiesList s false id ps = .ok s') : s'.shapes = s.shapes := by
  obtain ⟨-, rfl⟩ | ⟨m, m', hm, hm', rfl⟩ := savePropertiesList_cases h
  · rfl
  · exact shapes_modify hm (Module.save_saved hm')

theorem shapes_of_modules {s s' : Instance} (h : s'.modules = s.modules) :
    s'.shapes = s.shapes := by
  rw [Instance.shapes, h]
  rfl

/-- What a step does to the registry, and announces. -/
inductive FeedStep (s s' : Instance) (a : Action) : Prop
  | keep : s'.handled = s.handled → s'.shapes = s.shapes → FeedStep s s' a
  | update (msg : Text) :
      s'.handled = s.handled ++ [msg] → msg.IsUpdate → s'.shapes = s.shapes → FeedStep s s' a
  | add (msg : Text) {m : Module} {promise : Promise} {q : List Task} :
      a = .task → Takes s (.doRegisterModule m promise) q →
      s'.handled = s.handled ++ [msg] → createModuleAdded (m.setId s.idCounter) = .ok msg →
      s'.shapes = s.shapes ++ [(s.idCounter, m.shape)] → FeedStep s s' a
  | remove (msg : Text) {id : Int32} :
      s'.handled = s.handled ++ [msg] → createModuleRemoved id = .ok msg →
      s'.shapes = s.shapes.filter (fun e => e.1 ≠ id) → FeedStep s s' a

/-- The messages posted are of updates, and those about to be. -/
structure Instance.PostsUpdates (s : Instance) : Prop where
  queued : ∀ {msg}, Task.handleMessage msg ∈ s.threadLoop → msg.IsUpdate
  updating : ∀ {c json}, s.handler c = .updating json →
    json.Parsed ∧ json.type = .propertyUpdate

theorem Transition.feed {s s' : Instance} {a : Action} (h : Transition s a s') (hf : s.Fresh)
    (hs : s.PostsUpdates) : FeedStep s s' a := by
  cases ha : a.onLoop with
  | false => exact .keep (h.offLoop ha).handled (shapes_of_modules (h.offLoop ha).modules)
  | true =>
  cases h with
  | taskRole => exact .keep rfl rfl
  | taskHandle ht h =>
    exact .update _ ((handled_handleMessage h).trans rfl)
      (hs.queued (ht.threadLoop ▸ List.mem_cons_self))
      (shapes_of_modules (handleMessage_emits h).modules)
  | @taskRegister m promise q msg s₁ ht hmax hmsg h =>
    refine .add msg rfl ht ?_ hmsg ?_
    · rw [handled_fulfil, handled_handleMessage h, handled_added]
      rfl
    · rw [shapes_of_modules (fulfil_modules ..), shapes_of_modules (handleMessage_emits h).modules]
      exact shapes_insert hf (m.setId s.idCounter)
  | @taskUnregister id q msg _ ht hmsg h =>
    refine .remove msg ?_ hmsg ((shapes_of_modules (handleMessage_emits h).modules).trans
      (shapes_erase s id))
    rw [handled_handleMessage h, handled_removed]
    rfl
  | taskSaveNone => exact .keep rfl rfl
  | taskSave _ hm hm' => exact .keep (handled_saved ..) (shapes_modify hm (Module.save_saved hm'))
  | taskOther => exact .keep ((handled_of_trace rfl).trans (List.append_nil _)) rfl
  | taskLoad _ _ _ h =>
    exact .keep (by rw [handled_answer, h.handled]; rfl)
      (by rw [shapes_of_modules (answer_modules ..), h.shapes]; rfl)
  | taskApply _ _ h =>
    exact .keep (by rw [handled_answer, h.handled]; rfl)
      (by rw [shapes_of_modules (answer_modules ..), h.shapes]; rfl)
  | taskPass _ h => exact .keep h.handled h.shapes
  | flushed => exact .keep rfl rfl
  | flush _ _ h =>
    exact .keep ((handled_pushMsg h).trans rfl) (shapes_of_modules (pushMsg_emits h).modules)
  | callbackRegister => exact .keep rfl rfl
  | @callbackUnregister id request msg _ hl hmsg h =>
    refine .remove msg ?_ hmsg ((shapes_of_modules (handleMessage_emits h).modules).trans
      (shapes_erase s id))
    rw [handled_handleMessage h, handled_removed]
    exact congrArg (· ++ [msg]) ((handled_of_trace rfl).trans (List.append_nil _))
  | @callbackUpdate id ps request msg s₁ _ hl hs₁ hmsg h =>
    refine .update msg ?_ (isUpdate_createPropertyUpdated hmsg)
      ((shapes_of_modules (handleMessage_emits h).modules).trans (shapes_savePropertiesList hs₁))
    rw [handled_handleMessage h, handled_savePropertiesList hs₁]
  | callbackUpdateThrows _ hs₁ _ =>
    exact .keep (handled_savePropertiesList hs₁) (shapes_savePropertiesList hs₁)
  | callbackReturn => exact .keep rfl rfl
  | callbackAnswer =>
    exact .keep ((handled_of_trace rfl).trans (List.append_nil _)) rfl
  | _ => simp only [Action.onLoop, Bool.false_eq_true] at ha

/-! ### Only updates are posted -/

/-- The loop thread starts no update of a handler. -/
theorem Transition.updating_of_onLoop {s s' : Instance} {a : Action} (h : Transition s a s')
    (ha : a.onLoop = true) {c : ClientId} {json : JsonMsg} (hc : s'.handler c = .updating json) :
    s.handler c = .updating json := by
  cases h with
  | taskHandle _ h => rwa [(handleMessage_emits h).handler] at hc
  | taskRegister _ _ _ h =>
    have := handler_of_fulfil hc
    rwa [(handleMessage_emits h).handler] at this
  | taskUnregister _ _ h => rwa [(handleMessage_emits h).handler] at hc
  | taskLoad _ _ _ h => rwa [answer_handler, h.handler] at hc
  | taskApply _ _ h => rwa [answer_handler, h.handler] at hc
  | taskPass _ h => rwa [h.handler] at hc
  | flush _ _ h => rwa [(pushMsg_emits h).handler] at hc
  | callbackUnregister _ _ h => rwa [(handleMessage_emits h).handler] at hc
  | callbackUpdate _ hs _ h =>
    rw [(handleMessage_emits h).handler] at hc
    obtain ⟨_, _, rfl⟩ := savePropertiesList_frame hs
    exact hc
  | callbackUpdateThrows _ hs _ =>
    obtain ⟨_, _, rfl⟩ := savePropertiesList_frame hs
    exact hc
  | _ =>
    first
    | exact hc
    | simp only [Action.onLoop, Bool.false_eq_true] at ha

namespace Instance.PostsUpdates

variable {s s' : Instance} (hs : s.PostsUpdates)

include hs

/-- Tasks are posted, and a handler may go on. -/
theorem post {l : List Task} (hq : s'.threadLoop = s.threadLoop ++ l)
    (hts : ∀ msg, .handleMessage msg ∈ l → msg.IsUpdate)
    (hu : ∀ {c json}, s'.handler c = .updating json → s.handler c = .updating json) :
    s'.PostsUpdates := by
  refine ⟨fun {msg} hmsg => ?_, fun h => hs.updating (hu h)⟩
  rw [hq] at hmsg
  rcases List.mem_append.1 hmsg with hmsg | hmsg
  · exact hs.queued hmsg
  · exact hts msg hmsg

theorem step {a : Action} (h : Transition s a s') : s'.PostsUpdates := by
  cases ha : a.onLoop with
  | true =>
    have hu := fun {c json} => @Transition.updating_of_onLoop _ _ _ h ha c json
    by_cases htask : a = .task
    · subst htask
      obtain ⟨t, ht⟩ := h.takes
      exact ⟨fun hmsg => hs.queued (ht.threadLoop ▸ List.mem_cons_of_mem _ hmsg),
        fun hc => hs.updating (hu hc)⟩
    · rcases h.threadLoop_callback ha htask with hq | ⟨_, _, _, _, -, -, hq⟩
      · exact hs.post (l := []) (by rw [hq, List.append_nil]) (by simp) hu
      · exact hs.post hq (by simp) hu
  | false =>
  cases h <;> simp only [Action.onLoop, reduceCtorEq] at ha
  case announce i id ps msg hi hmsg =>
    refine hs.post rfl (fun msg' h => ?_) fun h => h
    cases List.mem_singleton.1 h
    exact isUpdate_createPropertyUpdated hmsg
  case readUpdate c msg json json' json'' id ps hc hpc hjson htype hid hset hps =>
    have hparsed : json.Parsed := parsed_of_type hjson (by simp [htype])
    obtain ⟨htype', -, hparsed'⟩ := setId_spec hset
    obtain ⟨htype'', -, hparsed''⟩ := getPropertiesList_spec hps
    have hq : Instance.PostsUpdates
        (s.post (.savePropertiesList (ProxyServer.localIdFromRemote s id c) ps)) :=
      hs.post rfl (by simp) fun h => h
    refine ⟨hq.queued, fun {c' json₁} hc' => ?_⟩
    by_cases h : json'' = json₁
    · subst h
      exact ⟨hparsed'' (hparsed' hparsed), htype''.trans (htype'.trans htype)⟩
    · exact hs.updating (handler_of_setHandler (by simpa using h) hc')
  case resumeUpdate c json msg hpc hmsg =>
    obtain ⟨hparsed, htype⟩ := hs.updating hpc
    refine hs.post rfl (fun msg' h => ?_) fun h => handler_of_setHandler HandlerPc.noConfusion h
    cases List.mem_singleton.1 h
    exact isUpdate_toString hparsed htype hmsg
  all_goals
    first
    | exact hs.post (List.append_nil _).symm (by simp) fun h => h
    | exact hs.post rfl (by simp) fun h => h
    | exact hs.post rfl (by simp) fun h => handler_of_setHandler HandlerPc.noConfusion h
    | exact hs.post (List.append_nil _).symm (by simp) fun h =>
        handler_of_setHandler HandlerPc.noConfusion h

end Instance.PostsUpdates

/-! ### Whole runs -/

/-- The modules are those announced. -/
structure Instance.Announced (s : Instance) : Prop where
  fresh : s.Fresh
  posts : s.PostsUpdates
  valid : Feed.Valid [] s.changes
  replay : Feed.replay [] s.changes = s.shapes

theorem mem_keys_shapes {s : Instance} {id : Int32} :
    id ∈ Feed.keys s.shapes ↔ (s.modules.find? id).isSome := by
  rw [← OrdMap.mem_keys_iff, Feed.keys, Instance.shapes, List.map_map]
  rfl

/-- A step announces the change it makes. -/
theorem FeedStep.changes {s s' : Instance} {a : Action} (h : FeedStep s s' a) :
    (s'.changes = s.changes ∧ s'.shapes = s.shapes) ∨
      ∃ c, s'.changes = s.changes ++ [c] ∧ s'.shapes = Feed.apply s.shapes c ∧
        ∀ k v, c = .add k v → k = s.idCounter := by
  cases h with
  | keep hh hs => exact .inl ⟨by rw [Instance.changes, hh, Instance.changes], hs⟩
  | update msg hh hmsg hs =>
    refine .inl ⟨?_, hs⟩
    rw [changes_of_handled hh, hmsg.change?]
    exact List.append_nil _
  | @add msg m _ _ _ _ hh hmsg hs =>
    refine .inr ⟨.add s.idCounter m.shape, ?_, hs, fun k v hk => by cases hk; rfl⟩
    rw [changes_of_handled hh, change?_createModuleAdded hmsg]
    rfl
  | @remove msg id hh hmsg hs =>
    refine .inr ⟨.remove id, ?_, hs, fun k v hk => by cases hk⟩
    rw [changes_of_handled hh, change?_createModuleRemoved hmsg]
    rfl

theorem Instance.Announced.step {s s' : Instance} {a : Action} (hs : s.Announced)
    (h : Transition s a s') : s'.Announced := by
  refine ⟨h.registry.fresh hs.fresh, hs.posts.step h, ?_, ?_⟩ <;>
    rcases (h.feed hs.fresh hs.posts).changes with ⟨hc, hsh⟩ | ⟨c, hc, hsh, hadd⟩ <;> rw [hc]
  · exact hs.valid
  · rw [Feed.valid_append, hs.replay]
    refine ⟨hs.valid, fun k v hk hmem => ?_, trivial⟩
    rw [hadd k v hk, mem_keys_shapes, Option.isSome_iff_exists] at hmem
    obtain ⟨m, hm⟩ := hmem
    cases hs.fresh.find?_counter.symm.trans hm
  · rw [hsh, hs.replay]
  · rw [hsh, Feed.replay_append, hs.replay]
    rfl

/-- The modules of an instance are those announced, in every run. -/
theorem announced_of_runs {as : List Action} {s : Instance} (h : Instance.Runs as s) :
    s.Announced :=
  h.invariant ⟨⟨le_rfl, fun hm => by simp at hm⟩,
    ⟨fun hmsg => absurd hmsg List.not_mem_nil, fun hc => HandlerPc.noConfusion hc⟩, trivial, rfl⟩
    fun _ _ _ hs hst => hs.step (transition_of_step hst)

/-! ## Messages pushed -/

@[simp] def Event.pushed? : Event → Option Text
  | .pushed msg => some msg
  | _ => none

/-- The messages pushed so far: by a host to the web clients, by another instance to
    the host. -/
def Instance.pushed (s : Instance) : List Text := s.trace.filterMap Event.pushed?

theorem pushed_of_trace {s s' : Instance} {es : List Event} (h : s'.trace = s.trace ++ es) :
    s'.pushed = s.pushed ++ es.filterMap Event.pushed? := by
  rw [Instance.pushed, h, List.filterMap_append]
  rfl

theorem pushed_pushMsg {s s' : Instance} {msg : Text} (h : pushMsg s msg = .ok s') :
    s'.pushed = s.pushed ++ [msg] ∧ s'.msgQueue = s.msgQueue := by
  obtain ⟨-, rfl⟩ | ⟨-, sent, -, rfl⟩ := pushMsg_cases h
  · obtain ⟨ls, h, -⟩ := ServerImpl.pushMsgForJS_eq (s := s) msg
    rw [h]
    refine ⟨?_, rfl⟩
    rw [pushed_of_trace (s := s) rfl]
    simp [List.filterMap_eq_nil_iff]
  · refine ⟨?_, rfl⟩
    rw [pushed_of_trace (s := s) rfl]
    rfl

/-- Nothing is handled or pushed. -/
structure Silent (s s' : Instance) : Prop where
  handled : s'.handled = s.handled
  pushed : s'.pushed = s.pushed
  msgQueue : s'.msgQueue = s.msgQueue
  initialized : s'.initialized = s.initialized

theorem Silent.of_trace {s s' : Instance} {l : List Event} (h : s'.trace = s.trace ++ l)
    (hes : ∀ e ∈ l, e.handled? = none ∧ e.pushed? = none) (hq : s'.msgQueue = s.msgQueue)
    (hi : s'.initialized = s.initialized) : Silent s s' := by
  refine ⟨?_, ?_, hq, hi⟩
  · rw [handled_of_trace h, List.filterMap_eq_nil_iff.2 fun e he => (hes e he).1, List.append_nil]
  · rw [pushed_of_trace h, List.filterMap_eq_nil_iff.2 fun e he => (hes e he).2, List.append_nil]

theorem Silent.trans {s s' s'' : Instance} (h : Silent s s') (h' : Silent s' s'') : Silent s s'' :=
  ⟨h'.handled.trans h.handled, h'.pushed.trans h.pushed, h'.msgQueue.trans h.msgQueue,
    h'.initialized.trans h.initialized⟩

theorem silent_take (s : Instance) (q : List Task) : Silent s { s with threadLoop := q } :=
  ⟨rfl, rfl, rfl, rfl⟩

theorem silent_savePropertiesList {s s' : Instance} {id : Int32} {ps : Updates}
    (h : savePropertiesList s false id ps = .ok s') : Silent s s' ∧ s'.loop = s.loop := by
  obtain ⟨-, rfl⟩ | ⟨m, m', -, -, rfl⟩ := savePropertiesList_cases h
  · exact ⟨⟨rfl, rfl, rfl, rfl⟩, rfl⟩
  · exact ⟨.of_trace (l := [_]) rfl (by simp) rfl rfl, rfl⟩

theorem Passes.silent {s s' : Instance} {json : JsonMsg} (h : Passes s json s') : Silent s s' := by
  cases h with
  | nothing => exact ⟨rfl, rfl, rfl, rfl⟩
  | invoked => exact .of_trace (l := [_, _]) (List.append_assoc ..) (by simp) rfl rfl
  | _ => exact .of_trace (l := [_]) rfl (by simp) rfl rfl

theorem silent_answer (s : Instance) (w : ClientId) (response : Text) :
    Silent s (answer s w response) := by
  rw [answer]
  split
  · exact ⟨rfl, rfl, rfl, rfl⟩
  · exact .of_trace (l := [_]) rfl (by simp) rfl rfl

theorem silent_fulfil (s : Instance) (promise : Promise) (id : Int32) :
    Silent s (fulfil s promise id) := by
  obtain ⟨_, _, h⟩ := fulfil_frame s promise id
  rw [h]
  exact ⟨rfl, rfl, rfl, rfl⟩

theorem OffLoop.silent {s s' : Instance} (h : OffLoop s s') : Silent s s' := by
  obtain ⟨es, hes, hout⟩ := h.trace
  refine .of_trace hes (fun e he => ?_) h.msgQueue h.initialized
  rcases hout e he with ⟨id, rfl⟩ | ⟨w, rfl⟩ <;> exact ⟨rfl, rfl⟩

/-- What is handled is pushed, or kept until the role is known. -/
structure Instance.Queues (s : Instance) : Prop where
  handled : s.handled = s.pushed ++ s.msgQueue
  flushed : s.initialized = true → s.loop ≠ .flushing → s.msgQueue = []
  ready : s.serverImpl = true → s.initialized = true

namespace Instance.Queues

variable {s s' : Instance} (hs : s.Queues)

include hs

theorem silent (h : Silent s s') (hserver : s'.serverImpl = s.serverImpl)
    (hl : s.loop = .flushing → s'.loop = .flushing) : s'.Queues := by
  refine ⟨by rw [h.handled, h.pushed, h.msgQueue]; exact hs.handled, fun hi hl' => ?_, fun h' => ?_⟩
  · rw [h.msgQueue]
    exact hs.flushed (h.initialized ▸ hi) fun hl₀ => hl' (hl hl₀)
  · rw [h.initialized]
    exact hs.ready (hserver ▸ h')

/-- A message handled is pushed at once, if the role is known. -/
theorem handle {msg : Text} (hl : s.loop ≠ .flushing) (h : handleMessage s false msg = .ok s') :
    s'.Queues ∧ s'.pushed = s.pushed ++ if s.initialized = true then [msg] else [] := by
  have hh := handled_handleMessage h
  obtain ⟨hi, rfl⟩ | ⟨hi, h⟩ := handleMessage_cases h
  · have hp : Instance.pushed { s with
        msgQueue := s.msgQueue ++ [msg], trace := s.trace ++ [.handled msg] } = s.pushed :=
      (pushed_of_trace (s := s) rfl).trans (List.append_nil _)
    refine ⟨⟨hh.trans ?_, fun h => absurd (h.symm.trans hi) Bool.noConfusion, hs.ready⟩, ?_⟩
    · rw [hp, hs.handled, List.append_assoc]
    · rw [hp, hi]
      exact (List.append_nil _).symm
  · have hlog : (s.log (.handled msg)).pushed = s.pushed :=
      (pushed_of_trace (s := s) rfl).trans (List.append_nil _)
    have hq : s'.msgQueue = [] := (pushed_pushMsg h).2.trans (hs.flushed hi hl)
    have hp : s'.pushed = s.pushed ++ [msg] := (pushed_pushMsg h).1.trans (by rw [hlog])
    have hi' : s'.initialized = true := (pushMsg_emits h).initialized.trans hi
    refine ⟨⟨?_, fun _ _ => hq, fun _ => hi'⟩, by rw [hp, hi, if_pos rfl]⟩
    rw [hh, hp, hs.handled, hs.flushed hi hl, hq, List.append_nil, List.append_nil]

/-- A message kept is pushed. -/
theorem flush {msg : Text} {q : List Text} (hq : s.msgQueue = msg :: q) (hl : s.loop = .flushing)
    (h : pushMsg { s with msgQueue := q } msg = .ok s') : s'.Queues := by
  have hp : s'.pushed = s.pushed ++ [msg] := (pushed_pushMsg h).1
  have hq' : s'.msgQueue = q := (pushed_pushMsg h).2
  have he := pushMsg_emits h
  refine ⟨?_, fun _ hl' => absurd (he.loop.trans hl) hl', fun h' => ?_⟩
  · rw [handled_pushMsg h, hp, hq', List.append_assoc, List.singleton_append, ← hq]
    exact hs.handled
  · rw [he.initialized]
    exact hs.ready (he.serverImpl ▸ h')

theorem step {a : Action} (h : Transition s a s') : s'.Queues := by
  cases ha : a.onLoop with
  | false =>
    have hoff := h.offLoop ha
    exact hs.silent hoff.silent hoff.serverImpl fun hl => hoff.loop.trans hl
  | true =>
  -- A task, taken when the queue of messages is empty or the role is not known.
  have htake : ∀ {t q}, Takes s t q → ∀ {s₁}, Silent s s₁ → s₁.serverImpl = s.serverImpl →
      s₁.loop = s.loop → s₁.Queues ∧ s₁.loop ≠ .flushing := fun ht _ h₁ hserver hl =>
    ⟨hs.silent h₁ hserver fun h => hl.trans h, by rw [hl, ht.idle]; exact LoopPc.noConfusion⟩
  have hnot : ∀ {t q}, Takes s t q → ∀ {l : LoopPc}, s.loop = .flushing → l = .flushing :=
    fun ht _ hl => LoopPc.noConfusion (ht.idle.symm.trans hl)
  cases h with
  | taskRole ht => exact ⟨hs.handled, fun _ h => absurd rfl h, fun _ => rfl⟩
  | @taskHandle msg q _ ht h =>
    obtain ⟨hs₁, hl⟩ := htake ht (silent_take s q) rfl rfl
    exact (hs₁.handle hl h).1
  | @taskRegister m promise q msg s₁ ht _ _ h =>
    have hsil : Silent s (({ s with threadLoop := q } : Instance).added promise m) :=
      .of_trace (l := [_]) rfl (by simp) rfl rfl
    obtain ⟨hs₁, hl⟩ := htake ht hsil rfl rfl
    obtain ⟨_, _, hf⟩ := fulfil_frame s₁ promise s.idCounter
    refine (hs₁.handle hl h).1.silent (silent_fulfil ..) (by rw [hf]) fun h' => ?_
    exact absurd ((handleMessage_emits h).loop.symm.trans h') hl
  | @taskUnregister id q msg _ ht _ h =>
    have hsil : Silent s (({ s with threadLoop := q } : Instance).removed id) :=
      .of_trace (l := [_]) rfl (by simp) rfl rfl
    obtain ⟨hs₁, hl⟩ := htake ht hsil rfl rfl
    exact (hs₁.handle hl h).1
  | taskSaveNone ht => exact hs.silent ⟨rfl, rfl, rfl, rfl⟩ rfl fun h => h
  | taskSave ht => exact hs.silent (.of_trace (l := [_]) rfl (by simp) rfl rfl) rfl fun h => h
  | taskOther ht => exact hs.silent (.of_trace (l := [_]) rfl (by simp) rfl rfl) rfl fun h => h
  | @taskLoad json w q result s₁ ht _ _ h =>
    have hsil : Silent s (answer s₁ w result) :=
      ((silent_take s q).trans h.silent).trans (silent_answer ..)
    refine hs.silent hsil ?_ (hnot ht)
    obtain ⟨_, _, _, _, _, hf⟩ := h.answer_frame _ _
    rw [hf]
  | @taskApply json w q s₁ ht _ h =>
    have hsil : Silent s (answer s₁ w emptyJson) :=
      ((silent_take s q).trans h.silent).trans (silent_answer ..)
    refine hs.silent hsil ?_ (hnot ht)
    obtain ⟨_, _, _, _, _, hf⟩ := h.answer_frame _ _
    rw [hf]
  | @taskPass json q _ ht h =>
    refine hs.silent ((silent_take s q).trans h.silent) ?_ (hnot ht)
    obtain ⟨_, _, _, _, rfl⟩ := h.frame
    rfl
  | flushed _ hq => exact ⟨hs.handled, fun _ _ => hq, hs.ready⟩
  | flush hl hq h => exact hs.flush hq hl h
  | callbackRegister hl =>
    exact hs.silent ⟨rfl, rfl, rfl, rfl⟩ rfl fun h => LoopPc.noConfusion (hl.symm.trans h)
  | @callbackUnregister id request msg _ hl _ h =>
    have hs₁ : ((s.log (.unregister id)).removed id).Queues :=
      hs.silent (.of_trace (l := [_, _]) (List.append_assoc ..) (by simp) rfl rfl) rfl fun h => h
    exact (hs₁.handle (fun h => LoopPc.noConfusion (hl.symm.trans h)) h).1
  | callbackUpdate hl hs₁ _ h =>
    obtain ⟨hsil, hloop⟩ := silent_savePropertiesList hs₁
    refine ((hs.silent hsil ?_ fun h => hloop.trans h).handle ?_ h).1
    · obtain ⟨_, _, rfl⟩ := savePropertiesList_frame hs₁
      rfl
    · rw [hloop, hl]
      exact LoopPc.noConfusion
  | callbackUpdateThrows hl hs₁ _ =>
    obtain ⟨hsil, hloop⟩ := silent_savePropertiesList hs₁
    refine hs.silent hsil ?_ fun h => hloop.trans h
    obtain ⟨_, _, rfl⟩ := savePropertiesList_frame hs₁
    rfl
  | callbackReturn hl =>
    exact hs.silent ⟨rfl, rfl, rfl, rfl⟩ rfl fun h => LoopPc.noConfusion (hl.symm.trans h)
  | callbackAnswer hl =>
    exact hs.silent (.of_trace (l := [_]) rfl (by simp) rfl rfl) rfl
      fun h => LoopPc.noConfusion (hl.symm.trans h)
  | _ => simp only [Action.onLoop, Bool.false_eq_true] at ha

end Instance.Queues

/-- What is handled is pushed, or kept, in every run. -/
theorem queues_of_runs {as : List Action} {s : Instance} (h : Instance.Runs as s) : s.Queues :=
  h.invariant ⟨rfl, fun _ _ => rfl, fun h => Bool.noConfusion h⟩
    fun _ _ _ hs hst => hs.step (transition_of_step hst)

end Sacs
