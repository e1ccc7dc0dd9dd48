import Sacs.Changes
import Sacs.Replies
import Sacs.Tabs

/-!
# The browser as a mirror

A page is connected to the host, asks for the list of the modules, and processes
the messages made for it, in this order (`Session`). It should show a tab for
every module of the host, and no other (`Mirrors`).

The messages pushed are sent to the page since it is connected, and the list is
asked for later: a module announced in between is in the list again, and shown
twice (`not_mirrors_of_announced`). The page is a mirror if no module is
registered, when the list is made, that was announced to the page before
(`mirrors_of_runs`), nor has a script that throws.
-/

namespace Sacs

open JsonMsg ModuleManager

/-! ## What a listener hears -/

/-- The action ends the connection of the web client. -/
def Action.leaves (w : ClientId) : Action → Bool
  | .wsClosed w' | .wsExpired w' => w' = w
  | _ => false

/-- The answers made for a web client in a step. -/
inductive Answers (s : Instance) (a : Action) (w : ClientId) : List Text → Prop
  | empty {rs : List Text} : (∀ r ∈ rs, r = emptyJson) → Answers s a w rs
  | list {json : JsonMsg} {q : List Task} {result : Text} :
      a = .task → Takes s (.doProcessJSRequest json w) q → json.type = .reqLoad →
      createModuleList (s.modules.entries.map Prod.snd) = .ok result → Answers s a w [result]
  | callback {response : Text} :
      s.loop = .callback (some (w, response)) → Answers s a w [response]

/-- A listener is told what is pushed, or else it may be answered. -/
structure Hears (s s' : Instance) (a : Action) (w : ClientId) : Prop where
  listening : w ∈ ServerImpl.listening s'
  flushed : s.msgQueue = [] → s'.msgQueue = []
  told : (∃ msg, s'.pushed = s.pushed ++ [msg] ∧ s'.produced w = s.produced w ++ [msg]) ∨
    (s'.pushed = s.pushed ∧ ∃ rs, s'.produced w = s.produced w ++ rs ∧ Answers s a w rs)

theorem Broadcast.hears {s s' : Instance} {a : Action} {w : ClientId} {msg : Text}
    (h : Broadcast s s' msg) (hw : w ∈ ServerImpl.listening s)
    (hq : s.msgQueue = [] → s'.msgQueue = [])
    (hp : s'.pushed = s.pushed ++ [msg]) : Hears s s' a w :=
  ⟨h.listening w hw, hq, .inl ⟨msg, hp, by rw [h.produced, if_pos hw]⟩⟩

/-- On a host, a message handled is broadcast. -/
theorem broadcast_of_handleMessage {s₀ s s' : Instance} {msg : Text}
    (h : handleMessage s false msg = .ok s') (hserver : s.serverImpl = true)
    (hinit : s.initialized = true) (hclients : s.wsClients = s₀.wsClients)
    (hlisteners : s.eventListeners = s₀.eventListeners) (hprod : s.produced = s₀.produced) :
    Broadcast s₀ s' msg := by
  obtain ⟨hi, -⟩ | ⟨-, h⟩ := handleMessage_cases h
  · exact absurd (hinit.symm.trans hi) Bool.noConfusion
  · obtain ⟨-, rfl⟩ | ⟨hs, -⟩ := pushMsg_cases h
    · refine (broadcast_pushMsgForJS (s.log (.handled msg)) msg).congr hclients hlisteners ?_
      funext w
      rw [← hprod]
      exact (produced_of_trace (s := s) rfl w).trans (List.append_nil _)
    · exact absurd (hserver.symm.trans hs) Bool.noConfusion

/-- A step that pushes nothing, nor concerns the listeners. -/
theorem hears_of_silent {s s' : Instance} {a : Action} {w : ClientId}
    (hw : w ∈ ServerImpl.listening s)
    (hclients : s'.wsClients = s.wsClients) (hlisteners : s'.eventListeners = s.eventListeners)
    (hp : s'.pushed = s.pushed) (hq : s'.msgQueue = s.msgQueue) {r : List Text}
    (hprod : s'.produced w = s.produced w ++ r) (hrs : Answers s a w r) : Hears s s' a w := by
  refine ⟨?_, fun h => hq.trans h, .inr ⟨hp, r, hprod, hrs⟩⟩
  rw [mem_listening] at hw ⊢
  rwa [hclients, hlisteners]

/-- A message handled on a host, in a state that differs from `s` in nothing that
    matters to a listener. -/
theorem hears_of_handleMessage {s s₁ s' : Instance} {a : Action} {w : ClientId} {msg : Text}
    (hw : w ∈ ServerImpl.listening s) (h : handleMessage s₁ false msg = .ok s')
    (hserver : s₁.serverImpl = true) (hinit : s₁.initialized = true)
    (hp : s₁.pushed = s.pushed) (hq : s₁.msgQueue = s.msgQueue)
    (hclients : s₁.wsClients = s.wsClients)
    (hlisteners : s₁.eventListeners = s.eventListeners) (hprod : s₁.produced = s.produced) :
    Hears s s' a w := by
  have hb := broadcast_of_handleMessage h hserver hinit hclients hlisteners hprod
  obtain ⟨hi, -⟩ | ⟨-, h⟩ := handleMessage_cases h
  · exact absurd (hinit.symm.trans hi) Bool.noConfusion
  · refine hb.hears hw (fun hnil => (pushed_pushMsg h).2.trans (hq.trans hnil)) ?_
    rw [(pushed_pushMsg h).1, ← hp]
    exact congrArg (· ++ [msg]) ((pushed_of_trace (s := s₁) rfl).trans (List.append_nil _))

theorem Transition.hears_offLoop {s s' : Instance} {a : Action} {w : ClientId}
    (h : Transition s a s') (hw : w ∈ ServerImpl.listening s) (ha : a.leaves w = false)
    (hloop : a.onLoop = false) : Hears s s' a w := by
  have hoff := h.offLoop hloop
  have hp := hoff.silent.pushed
  have hanswers : ∃ rs, s'.produced w = s.produced w ++ rs ∧ Answers s a w rs := by
    obtain ⟨es, hes, hout⟩ := hoff.trace
    refine ⟨_, produced_of_trace hes w, .empty fun r hr => ?_⟩
    obtain ⟨e, he, hr⟩ := List.mem_filterMap.1 hr
    rcases hout e he with ⟨id, rfl⟩ | ⟨w', rfl⟩
    · cases hr
    · rw [Event.produced?] at hr
      split_ifs at hr
      exact (Option.some.inj hr).symm
  obtain ⟨rs, hprod, hrs⟩ := hanswers
  obtain ⟨hl, hc⟩ := mem_listening.1 hw
  refine ⟨mem_listening.2 ?_, fun h => hoff.msgQueue.trans h, .inr ⟨hp, rs, hprod, hrs⟩⟩
  cases h <;> simp only [Action.onLoop, reduceCtorEq] at hloop
  case wsConnected v hserver hnone hfind =>
    have hv : w ≠ v := fun e => by rw [e, hnone] at hc; cases hc
    refine ⟨?_, ?_⟩
    · change ((s.eventListeners.insert v ()).find? w).isSome
      rwa [OrdMap.find?_insert, if_neg hv]
    · change (Function.update s.wsClients v (some []) w).isSome
      rwa [Function.update_of_ne hv]
  case wsClosed v hv hpc =>
    have hv : w ≠ v := fun e => by simp [Action.leaves, e] at ha
    refine ⟨?_, ?_⟩
    · change ((s.eventListeners.erase v).find? w).isSome
      rwa [OrdMap.find?_erase, if_neg hv]
    · change (Function.update s.wsClients v none w).isSome
      rwa [Function.update_of_ne hv]
  case wsExpired v hv hpc =>
    have hv : w ≠ v := fun e => by simp [Action.leaves, e] at ha
    refine ⟨hl, ?_⟩
    change (Function.update s.wsClients v none w).isSome
    rwa [Function.update_of_ne hv]
  case wsNotJson v hv hpc =>
    refine ⟨hl, ?_⟩
    change (Function.update s.wsClients v ((s.wsClients v).map _) w).isSome
    by_cases h : w = v
    · rwa [h, Function.update_self, Option.isSome_map, ← h]
    · rwa [Function.update_of_ne h]
  case wsReply v response hpc =>
    refine ⟨hl, ?_⟩
    change (Function.update s.wsClients v ((s.wsClients v).map _) w).isSome
    by_cases h : w = v
    · rwa [h, Function.update_self, Option.isSome_map, ← h]
    · rwa [Function.update_of_ne h]
  all_goals exact ⟨hl, hc⟩

/-- The answer to a request, made at the end of the task or when the callback
    returns. -/
theorem Passes.hears {s s₁ : Instance} {w v : ClientId} {q : List Task} {json : JsonMsg}
    {result : Text} (h : Passes { s with threadLoop := q } json s₁)
    (hw : w ∈ ServerImpl.listening s) (hresult : w = v → Answers s .task w [result]) :
    Hears s (answer s₁ v result) .task w := by
  have hprod := h.produced
  have hp := ((silent_take s q).trans h.silent).pushed
  obtain ⟨_, _, _, _, rfl⟩ := h.frame
  have hnil : Answers s .task w [] := .empty (by simp)
  rw [answer]
  split
  · exact hears_of_silent hw rfl rfl hp rfl (r := [])
      (by rw [List.append_nil]; exact congrFun hprod w) hnil
  · refine hears_of_silent hw rfl rfl ?_ rfl (r := if v = w then [result] else []) ?_ ?_
    · rw [← hp]
      exact (pushed_of_trace rfl).trans (List.append_nil _)
    · rw [produced_of_produced (w := v) (m := result) rfl, hprod]
      rfl
    · split_ifs with h
      · exact hresult h.symm
      · exact hnil

theorem Transition.hears {s s' : Instance} {a : Action} {w : ClientId} (h : Transition s a s')
    (hs : s.Queues) (hserver : s.serverImpl = true) (hw : w ∈ ServerImpl.listening s)
    (ha : a.leaves w = false) : Hears s s' a w := by
  have hinit := hs.ready hserver
  have hnil : Answers s a w [] := .empty (by simp)
  have hlog : ∀ {s s' : Instance} {l : List Event}, s'.trace = s.trace ++ l →
      (∀ e ∈ l, ∀ v, e.produced? v = none) → s'.produced = s.produced := by
    intro s s' es h hes
    funext v
    rw [produced_of_trace h, List.filterMap_eq_nil_iff.2 fun e he => hes e he v, List.append_nil]
  -- Steps that concern neither the listeners nor the messages.
  have hquiet : ∀ {s' : Instance}, Silent s s' → s'.wsClients = s.wsClients →
      s'.eventListeners = s.eventListeners → s'.produced = s.produced → Hears s s' a w :=
    fun hsil hc hl hprod => hears_of_silent hw hc hl hsil.pushed hsil.msgQueue (r := [])
      (by rw [hprod, List.append_nil]) hnil
  cases hloop : a.onLoop with
  | false => exact h.hears_offLoop hw ha hloop
  | true =>
  cases h with
  | taskRole ht => exact hears_of_silent hw rfl rfl rfl rfl (List.append_nil _).symm hnil
  | taskHandle ht h => exact hears_of_handleMessage hw h hserver hinit rfl rfl rfl rfl rfl
  | @taskRegister m promise q msg s₁ ht _ _ h =>
    have h₁ : Hears s s₁ .task w := by
      refine hears_of_handleMessage hw h hserver hinit ?_ rfl rfl rfl
        (hlog (l := [_]) rfl (by simp))
      exact (pushed_of_trace rfl).trans (List.append_nil _)
    obtain ⟨_, _, hf⟩ := fulfil_frame s₁ promise s.idCounter
    rw [hf]
    exact ⟨h₁.listening, h₁.flushed, h₁.told⟩
  | taskUnregister ht _ h =>
    refine hears_of_handleMessage hw h hserver hinit ?_ rfl rfl rfl (hlog (l := [_]) rfl (by simp))
    exact (pushed_of_trace rfl).trans (List.append_nil _)
  | taskSaveNone => exact hquiet ⟨rfl, rfl, rfl, rfl⟩ rfl rfl rfl
  | taskSave ht =>
    exact hquiet (.of_trace (l := [_]) rfl (by simp) rfl rfl) rfl rfl
      (hlog (l := [_]) rfl (by simp))
  | @taskOther json v q ht hload happly =>
    refine hears_of_silent hw rfl rfl ((pushed_of_trace rfl).trans (List.append_nil _)) rfl
      (produced_of_produced rfl w) (.empty fun r hr => ?_)
    split_ifs at hr
    · exact List.mem_singleton.1 hr
    · cases hr
  | taskLoad ht htype hresult h => exact h.hears hw fun e => .list rfl (e ▸ ht) htype hresult
  | taskApply ht _ h => exact h.hears hw fun _ => .empty (by simp)
  | @taskPass json q _ ht h =>
    have hsil := (silent_take s q).trans h.silent
    have hprod := h.produced
    obtain ⟨_, _, _, _, rfl⟩ := h.frame
    exact hquiet hsil rfl rfl hprod
  | flushed => exact hquiet ⟨rfl, rfl, rfl, rfl⟩ rfl rfl rfl
  | @flush msg q _ hl hq h =>
    have hp : s'.pushed = s.pushed ++ [msg] := (pushed_pushMsg h).1
    obtain ⟨-, rfl⟩ | ⟨hs, -⟩ := pushMsg_cases h
    · have hb : Broadcast s (ServerImpl.pushMsgForJS { s with msgQueue := q } msg) msg :=
        (broadcast_pushMsgForJS _ msg).congr rfl rfl rfl
      exact hb.hears hw (fun h => by rw [hq] at h; cases h) hp
    · exact absurd (hserver.symm.trans hs) Bool.noConfusion
  | callbackRegister => exact hquiet ⟨rfl, rfl, rfl, rfl⟩ rfl rfl rfl
  | @callbackUnregister id request msg _ hl _ h =>
    have hsil : Silent s ((s.log (.unregister id)).removed id) :=
      .of_trace (l := [_, _]) (List.append_assoc ..) (by simp) rfl rfl
    exact hears_of_handleMessage hw h hserver hinit hsil.pushed rfl rfl rfl
      (hlog (l := [_, _]) (List.append_assoc ..) (by simp))
  | callbackUpdate hl hs₁ _ h =>
    obtain ⟨hprod, hclients, hlisteners, -, -, -, hserver', hinit'⟩ :=
      produced_of_savePropertiesList hs₁
    exact hears_of_handleMessage hw h (hserver'.trans hserver) (hinit'.trans hinit)
      (silent_savePropertiesList hs₁).1.pushed (silent_savePropertiesList hs₁).1.msgQueue hclients
      hlisteners hprod
  | callbackUpdateThrows hl hs₁ _ =>
    obtain ⟨hprod, hclients, hlisteners, -⟩ := produced_of_savePropertiesList hs₁
    exact hquiet (silent_savePropertiesList hs₁).1 hclients hlisteners hprod
  | callbackReturn => exact hquiet ⟨rfl, rfl, rfl, rfl⟩ rfl rfl rfl
  | @callbackAnswer v response hl =>
    refine hears_of_silent hw rfl rfl ((pushed_of_trace rfl).trans (List.append_nil _)) rfl
      (produced_of_produced rfl w) ?_
    split_ifs with h
    · exact .callback (h ▸ hl)
    · exact hnil
  | _ => simp only [Action.onLoop, Bool.false_eq_true] at hloop

/-- A web client that connects listens, from then on. -/
theorem Transition.of_wsConnected {s s' : Instance} {w : ClientId}
    (h : Transition s (.wsConnected w) s') :
    s.serverImpl = true ∧ s.wsClients w = none ∧ w ∈ ServerImpl.listening s' := by
  cases h with
  | wsConnected hserver hnone hfind =>
    refine ⟨hserver, hnone, mem_listening.2 ⟨?_, ?_⟩⟩
    · change ((s.eventListeners.insert w ()).find? w).isSome
      rw [OrdMap.find?_insert, if_pos rfl]
      rfl
    · change (Function.update s.wsClients w (some []) w).isSome
      rw [Function.update_self]
      rfl

/-! ## Requests for the list -/

/-- The task is a request of `w` for the list of the modules. -/
def Task.loads (w : ClientId) : Task → Bool
  | .doProcessJSRequest json w' => w' = w ∧ json.type = .reqLoad
  | _ => false

/-- The number of requests of `w` for the list in the queue. -/
def Instance.loads (s : Instance) (w : ClientId) : Nat := s.threadLoop.countP (Task.loads w)

/-- The action is one of the connection of the web client. -/
def Action.isOf (w : ClientId) : Action → Bool
  | .wsConnected w' | .wsMessage w' _ | .wsClosed w' | .wsExpired w' => w' = w
  | _ => false

theorem loads_le_requests (s : Instance) (w : ClientId) : s.loads w ≤ s.requests w :=
  (List.countP_mono_left fun t _ ht => by
    cases t with
    | doProcessJSRequest json w' =>
      simp only [Task.loads, decide_eq_true_eq] at ht
      simp [Task.answers, ht.1]
    | _ => cases ht).trans (Nat.le_add_right _ _)

theorem loads_le_one {s : Instance} (hs : s.Served False) (w : ClientId) : s.loads w ≤ 1 := by
  refine (loads_le_requests s w).trans ?_
  by_cases h : s.web w = .waiting
  · rw [hs.waiting h]
  · rw [hs.notWaiting h]
    exact Nat.zero_le 1

/-- The message asks for updates of a module. -/
def Text.isApply (msg : Text) : Bool :=
  match parse msg with
  | .ok j => j.type = .reqApply
  | .error _ => false

/-- Only the web client itself asks for the list. -/
theorem Transition.loads_le {s s' : Instance} {a : Action} {w : ClientId} (h : Transition s a s')
    (ha : ∀ msg, a = .wsMessage w msg → msg.text.isApply) : s'.loads w ≤ s.loads w := by
  have happend : ∀ {s' : Instance} {l : List Task}, s'.threadLoop = s.threadLoop ++ l →
      (∀ t ∈ l, t.loads w = false) → s'.loads w ≤ s.loads w := by
    intro s' ts hq hts
    have hzero : ts.countP (Task.loads w) = 0 :=
      List.countP_eq_zero.2 fun t ht => by simp [hts t ht]
    rw [Instance.loads, hq, List.countP_append, hzero]
    exact le_rfl
  cases hloop : a.onLoop with
  | true =>
    by_cases htask : a = .task
    · subst htask
      obtain ⟨t, ht⟩ := h.takes
      rw [Instance.loads, Instance.loads, ht.threadLoop, List.countP_cons]
      exact Nat.le_add_right _ _
    · rcases h.threadLoop_callback hloop htask with hq | ⟨_, _, _, _, -, -, hq⟩
      · exact happend (l := []) (by rw [hq, List.append_nil]) (by simp)
      · exact happend hq (by simp [Task.loads])
  | false =>
  cases h <;> simp only [Action.onLoop, reduceCtorEq] at hloop
  case wsRequest v msg json hv hpc hjson hvalid =>
    refine happend rfl fun t ht => ?_
    cases List.mem_singleton.1 ht
    by_cases hvw : v = w
    · have htype : json.type = .reqApply := by
        have := ha ⟨msg, false⟩ (hvw ▸ rfl)
        rw [Text.isApply, hjson] at this
        exact of_decide_eq_true this
      simp [Task.loads, htype]
    · simp [Task.loads, hvw]
  all_goals
    first
    | exact happend (List.append_nil _).symm (by simp)
    | exact happend rfl (by simp [Task.loads])

/-- The response kept while a callback runs is that to an update, empty. -/
def Instance.KeepsEmpty (s : Instance) : Prop :=
  ∀ w response, s.loop = .callback (some (w, response)) ∨ s.loop = .waiting (some (w, response)) →
    response = emptyJson

/-- A request for the list concerns no module: none has the id `-1`. -/
theorem Passes.eq_of_load {s s' : Instance} {json : JsonMsg} (h : Passes s json s') (hf : s.Fresh)
    (ht : json.type = .reqLoad) : s' = s := by
  have hid : ∀ {id m}, json.findId = .ok id → s.modules.find? id ≠ some m := by
    intro id m hid hm
    have hneg : id = -1 := by
      rw [findId, ht] at hid
      exact (Except.ok.inj hid).symm
    exact absurd (hf.key hm).2.1 (by rw [hneg]; decide)
  cases h with
  | nothing => rfl
  | unrouted h hm => exact absurd hm (hid h)
  | sent h hm => exact absurd hm (hid h)
  | invoked h hm => exact absurd hm (hid h)

theorem Instance.KeepsEmpty.step {s s' : Instance} {a : Action} (hs : s.KeepsEmpty) (hf : s.Fresh)
    (h : Transition s a s') : s'.KeepsEmpty := by
  have hloop : ∀ {s' : Instance}, s'.loop = s.loop → s'.KeepsEmpty := fun hl w r h => by
    rw [hl] at h
    exact hs w r h
  have hidle : ∀ {s' : Instance}, (∀ w r, s'.loop ≠ .callback (some (w, r)) ∧
      s'.loop ≠ .waiting (some (w, r))) → s'.KeepsEmpty :=
    fun h w r h' => h'.elim (fun h' => absurd h' (h w r).1) fun h' => absurd h' (h w r).2
  cases ha : a.onLoop with
  | false => exact hloop (h.offLoop ha).loop
  | true =>
  -- Only a request that is applied lets its response wait for a callback, and the response
  -- is empty; a request for the modules calls back nobody, and is answered at once.
  cases h with
  | taskRole => exact hidle fun _ _ => ⟨LoopPc.noConfusion, LoopPc.noConfusion⟩
  | taskHandle _ h => exact hloop (handleMessage_emits h).loop
  | taskRegister ht _ _ h =>
    have hl := (handleMessage_emits h).loop
    exact hloop ((fulfil_loop _ _ _ fun r h' =>
      LoopPc.noConfusion ((hl.trans ht.idle).symm.trans h')).trans hl)
  | taskUnregister _ _ h => exact hloop (handleMessage_emits h).loop
  | @taskLoad json w q result s₁ ht htype _ h =>
    rw [h.eq_of_load ⟨hf.counter, hf.key⟩ htype, answer]
    split
    · rename_i hl
      exact absurd (ht.idle.symm.trans hl) LoopPc.noConfusion
    · exact hloop rfl
  | @taskApply json w q s₁ ht htype h =>
    have hl := h.loop
    rw [answer]
    split
    · rintro v r (h | h)
      · cases h
        rfl
      · cases h
    · rename_i hne
      exact hloop (hl.resolve_right fun h => hne _ h)
  | taskPass _ h =>
    rcases h.loop with hl | hl
    · exact hloop hl
    · refine hidle fun _ _ => ?_
      rw [hl]
      exact ⟨by simp, LoopPc.noConfusion⟩
  | flushed => exact hidle fun _ _ => ⟨LoopPc.noConfusion, LoopPc.noConfusion⟩
  | flush _ _ h => exact hloop (pushMsg_emits h).loop
  | callbackRegister hl =>
    rintro v r (h | h)
    · cases h
    · cases h
      exact hs v r (.inl hl)
  | callbackUnregister _ _ h => exact hloop (handleMessage_emits h).loop
  | callbackUpdate _ hs₁ _ h =>
    exact hloop ((handleMessage_emits h).loop.trans (silent_savePropertiesList hs₁).2)
  | callbackUpdateThrows _ hs₁ _ => exact hloop (silent_savePropertiesList hs₁).2
  | callbackReturn => exact hidle fun _ _ => ⟨LoopPc.noConfusion, LoopPc.noConfusion⟩
  | callbackAnswer => exact hidle fun _ _ => ⟨LoopPc.noConfusion, LoopPc.noConfusion⟩
  | _ => exact hloop rfl

/-! ## The page follows the host -/

variable {S : Script}

open Page Feed

/-- What is shown after a message, when the page shows `es`. -/
inductive Follow : List (Int32 × Shape) → Text → List (Int32 × Shape) → Prop
  | add {es : List (Int32 × Shape)} {msg : Text} {m : Module} :
      msgOf msg = .moduleAdded m → m.id ∉ keys es → Follow es msg (es ++ [(m.id, m.shape)])
  | remove {es : List (Int32 × Shape)} {msg : Text} {id : Int32} :
      msgOf msg = .moduleRemoved id → Follow es msg (es.filter fun e => e.1 ≠ id)
  | keep {es : List (Int32 × Shape)} {msg : Text} :
      msgOf msg = .other ∨ (∃ id ps, msgOf msg = .propertyUpdate id ps) → Follow es msg es
  | list {msg : Text} {ms : List Module} :
      msgOf msg = .moduleList ms → (ms.map (·.id)).Nodup →
      Follow [] msg (ms.map fun m => (m.id, m.shape))

/-- The modules made for a message. -/
def Page.Msg.made : Page.Msg → List Module
  | .moduleAdded m => [m]
  | .moduleList ms => ms
  | _ => []

def Page.Msg.isList : Page.Msg → Bool
  | .moduleList _ => true
  | _ => false

theorem Page.Neat.follow {page : Page S} (hn : page.Neat) {es es' : List (Int32 × Shape)}
    (hes : page.tabIds = keys es) {msg : Text} (h : Follow es msg es')
    (hmade : ∀ m ∈ (msgOf msg).made, Renders S m) :
    (page.onMessage msg).Neat ∧ (page.onMessage msg).tabIds = keys es' := by
  cases h with
  | @add _ _ m hmsg hid =>
    rw [hmsg] at hmade
    obtain ⟨page', h', hn', hids⟩ := hn.crateModule (hmade m (List.mem_singleton_self m))
      (hes ▸ hid)
    rw [onMessage_of_handle (p := page') (by rw [hmsg]; exact .inl h')]
    exact ⟨hn', by rw [hids, hes, keys, keys, List.map_append]; rfl⟩
  | @remove _ _ id hmsg =>
    obtain ⟨page', h', hn', hids⟩ := hn.deleteModule id
    rw [onMessage_of_handle (p := page') (by rw [hmsg]; exact h')]
    exact ⟨hn', by rw [hids, hes, keys, keys, List.filter_map]; rfl⟩
  | keep hmsg =>
    rcases hmsg with hmsg | ⟨id, ps, hmsg⟩
    · rw [onMessage_of_handle (p := page) (by rw [hmsg]; exact .inl rfl)]
      exact ⟨hn, hes⟩
    · obtain ⟨page', h', hn', hids⟩ := hn.setModulePoperties id ps
      rw [onMessage_of_handle (p := page') (by rw [hmsg]; exact h')]
      exact ⟨hn', hids.trans hes⟩
  | @list _ ms hmsg hnodup =>
    rw [hmsg] at hmade
    obtain ⟨page', h', hn', hids⟩ := hn.foldlM_crateModule hmade hnodup (by simp [hes])
    rw [onMessage_of_handle (p := page') (by rw [hmsg]; exact .inl h')]
    refine ⟨hn', ?_⟩
    rw [hids, hes, keys, keys, List.map_map]
    rfl

/-- The messages handled by an instance. -/
def Text.Announces (msg : Text) : Prop :=
  msg.IsUpdate ∨ (∃ m, createModuleAdded m = .ok msg) ∨ ∃ id, createModuleRemoved id = .ok msg

theorem msgOf_isUpdate {msg : Text} (h : msg.IsUpdate) :
    msgOf msg = .other ∨ ∃ id ps, msgOf msg = .propertyUpdate id ps := by
  obtain ⟨j, hj, htype⟩ := h
  cases msg with
  | other =>
    cases Except.ok.inj hj
    cases htype
  | json v utf8 =>
    obtain ⟨type, hdetect, hj⟩ := bind_eq_ok.1 hj
    cases Except.ok.inj hj
    obtain ⟨name, hname, hdetect⟩ := bind_eq_ok.1 hdetect
    have : name = Str.lit "property_update" := by
      subst htype
      simp only [pure_eq_ok, Except.ok.injEq] at hdetect
      split_ifs at hdetect with h₁ h₂ h₃
      exact h₃
    subst this
    rw [msgOf, readMsg, hname, bind_ok, if_pos rfl]
    cases getPropertiesList { json := v, isValid := true, type := .propertyUpdate } with
    | error e => exact .inl rfl
    | ok ps =>
      cases valueToInt v (Str.lit "id") with
      | error e => exact .inl rfl
      | ok id => exact .inr ⟨id, ps.1, rfl⟩

theorem Text.Announces.follow {msg : Text} (h : msg.Announces) {es : List (Int32 × Shape)}
    (hes : Valid es msg.change?.toList) : Follow es msg (replay es msg.change?.toList) := by
  rcases h with h | ⟨m, hm⟩ | ⟨id, hid⟩
  · rw [h.change?]
    exact .keep (msgOf_isUpdate h)
  · rw [change?_createModuleAdded hm] at hes ⊢
    exact .add (m := { m with callback := none }) (msgOf_createModuleAdded hm)
      (hes.1 m.id m.shape rfl)
  · rw [change?_createModuleRemoved hid]
    exact .remove (msgOf_createModuleRemoved hid)

theorem Text.Announces.not_list {msg : Text} (h : msg.Announces) : (msgOf msg).isList = false := by
  rcases h with h | ⟨m, hm⟩ | ⟨id, hid⟩
  · rcases msgOf_isUpdate h with h | ⟨id, ps, h⟩ <;> rw [h] <;> rfl
  · rw [msgOf_createModuleAdded hm]
    rfl
  · rw [msgOf_createModuleRemoved hid]
    rfl

/-! ## Sessions -/

/-- The message adds the module `id`. -/
def Text.adds (msg : Text) (id : Int32) : Bool :=
  match msg.change? with
  | some (.add id' _) => id' = id
  | _ => false

/-- A host and the page of a web client. -/
structure Session (S : Script) where
  host : Instance := {}
  page : Page S := {}
  /-- The messages made for the client since it is connected that it is still to
      process, in the order in which they were made. -/
  inbox : List Text := []
  /-- Those it has processed. -/
  seen : List Text := []
  connected : Bool := false
  /-- The list of the modules has been asked for. -/
  loaded : Bool := false

namespace Session

inductive Action
  /-- A step of the host that is none of the client. -/
  | host (a : Sacs.Action)
  | connect
  /-- `onConnected`. -/
  | load
  /-- The user changes something. -/
  | apply (msg : WebsocketMessage)
  /-- The page processes the next message. -/
  | receive
  /-- The user clicks on a tab. -/
  | click (module : Nat)

variable (w : ClientId)

/-- A step of the host. What it makes for the client, once connected, is still to
    be processed. -/
def hostStep (s : Session S) (a : Sacs.Action) : Except Fault (Session S) := do
  let host ← s.host.step a
  return { s with
    host
    inbox := s.inbox ++
      if s.connected then (host.produced w).drop (s.host.produced w).length else [] }

/-- A step of a session of the web client `w`. -/
def step (s : Session S) : Action → Except Fault (Session S)
  | .host a => if s.connected ∧ a.isOf w then .error .disabled else s.hostStep w a
  | .connect =>
    if s.connected then .error .disabled
    else do return { ← s.hostStep w (.wsConnected w) with connected := true }
  | .load =>
    if s.connected ∧ ¬s.loaded then do
      return { ← s.hostStep w (.wsMessage w ⟨Sacs.load, false⟩) with loaded := true }
    else .error .disabled
  | .apply msg =>
    if s.loaded ∧ msg.text.isApply then s.hostStep w (.wsMessage w msg) else .error .disabled
  | .receive => match s.inbox with
    | [] => .error .disabled
    | msg :: inbox => .ok { s with page := s.page.onMessage msg, inbox, seen := s.seen ++ [msg] }
  | .click module =>
    if module ∈ s.page.tabs then match s.page.selectModule module with
      | .ok page => .ok { s with page }
      | .error page => .ok { s with page }
    else .error .disabled

abbrev Steps : Session S → Action → Session S → Prop := Lts.Exec (step w)

/-- The page knows of the modules of the host, and shows a tab for each of them, in
    the order of their ids. -/
def Mirrors (s : Session S) : Prop :=
  (∀ id, (s.page.modules.find? id).isSome ↔ (s.host.modules.find? id).isSome) ∧
    s.page.tabs.map (fun module => s.page.objects[module]?.map (·.id)) =
      s.host.modules.keys.map some

/-- The page has processed the list of the modules, and all that was made for it. -/
def UpToDate (s : Session S) : Prop :=
  s.inbox = [] ∧ ∃ msg ∈ s.seen, (msgOf msg).isList

/-- No module listed was announced to the page before, and no script that the page
    runs for a module throws. -/
def Untold (s : Session S) : Action → Prop
  | .host .task => s.connected → ∀ t ∈ s.host.threadLoop.head?, t.loads w →
    ∀ e ∈ s.host.modules.entries, ∀ msg ∈ s.seen ++ s.inbox, msg.adds e.1 = false
  | .receive => ∀ msg ∈ s.inbox.head?, ∀ m ∈ (msgOf msg).made, Renders S m
  | _ => True

/-! ### The invariant -/

/-- What holds of the host, in every run. -/
structure HostInv (s : Instance) : Prop where
  announced : s.Announced
  queues : s.Queues
  served : s.Served False
  keepsEmpty : s.KeepsEmpty
  announces : ∀ msg ∈ s.handled, msg.Announces

/-- The list of the modules has been made for the page. -/
def Listed (s : Session S) : Prop :=
  ∃ msg ∈ s.seen ++ s.inbox, (msgOf msg).isList

/-- The changes pushed so far. -/
def pushedChanges (s : Instance) : List (Change Int32 Shape) := s.pushed.filterMap Text.change?

/-- What the page shows once it has processed all messages, `es`: of the changes
    pushed, those since it is connected; once it has the list, all of them. -/
structure Shows (s : Session S) (es : List (Int32 × Shape)) : Prop where
  listed : s.Listed → es = replay [] (pushedChanges s.host) ∧ s.host.msgQueue = []
  unlisted : ¬s.Listed → ∃ before since, pushedChanges s.host = before ++ since ∧
    es = replay [] since ∧ ∀ c ∈ since, ∃ msg ∈ s.seen ++ s.inbox, msg.change? = some c

structure Inv (s : Session S) : Prop where
  host : HostInv s.host
  neat : s.page.Neat
  listening : s.connected → s.host.serverImpl = true ∧ w ∈ ServerImpl.listening s.host
  unconnected : ¬s.connected → s.inbox = [] ∧ s.seen = [] ∧ s.page.tabIds = [] ∧ s.loaded = false
  unloaded : ¬s.loaded → ¬s.Listed
  loads : s.connected → s.Listed ∨ ¬s.loaded → s.host.loads w = 0
  shows : s.connected → ∃ es es', s.page.tabIds = keys es ∧
    Lts.Run Follow es s.inbox es' ∧ s.Shows es'

theorem HostInv.step {s s' : Instance} {a : Sacs.Action} (hs : HostInv s)
    (h : Transition s a s') : HostInv s' := by
  refine ⟨hs.announced.step h, hs.queues.step h, ?_, hs.keepsEmpty.step hs.announced.fresh h, ?_⟩
  · cases ha : a.onLoop with
    | false => exact hs.served.offLoop h ha
    | true => exact hs.served.onLoop h ha False.elim
  · intro msg hmsg
    have hnew : ∀ msg', s'.handled = s.handled ++ [msg'] → msg'.Announces → msg.Announces := by
      intro msg' hh h'
      rw [hh] at hmsg
      rcases List.mem_append.1 hmsg with hmsg | hmsg
      · exact hs.announces msg hmsg
      · exact List.mem_singleton.1 hmsg ▸ h'
    cases h.feed hs.announced.fresh hs.announced.posts with
    | keep hh => exact hs.announces msg (hh ▸ hmsg)
    | update msg' hh hu => exact hnew msg' hh (.inl hu)
    | add msg' _ _ hh hm => exact hnew msg' hh (.inr (.inl ⟨_, hm⟩))
    | remove msg' hh hid => exact hnew msg' hh (.inr (.inr ⟨_, hid⟩))

variable {w}

theorem HostInv.changes {s : Instance} (hs : HostInv s) :
    s.changes = pushedChanges s ++ s.msgQueue.filterMap Text.change? := by
  rw [Instance.changes, hs.queues.handled, List.filterMap_append]
  rfl

theorem HostInv.valid {s : Instance} (hs : HostInv s) : Valid [] (pushedChanges s) :=
  ((valid_append _ _ _).1 (hs.changes ▸ hs.announced.valid)).1

theorem HostInv.replay {s : Instance} (hs : HostInv s) (hq : s.msgQueue = []) :
    Feed.replay [] (pushedChanges s) = s.shapes := by
  rw [← hs.announced.replay, hs.changes, hq]
  exact congrArg _ (List.append_nil _).symm

theorem pushedChanges_of_pushed {s s' : Instance} {msg : Text} (h : s'.pushed = s.pushed ++ [msg]) :
    pushedChanges s' = pushedChanges s ++ msg.change?.toList := by
  rw [pushedChanges, h, List.filterMap_append, List.filterMap_cons]
  cases msg.change? <;> rfl

/-- The session with more to be processed. -/
theorem listed_append {s s' : Session S} {news : List Text} (hseen : s'.seen = s.seen)
    (hinbox : s'.inbox = s.inbox ++ news) :
    s'.Listed ↔ s.Listed ∨ ∃ msg ∈ news, (msgOf msg).isList := by
  rw [Listed, hseen, hinbox, ← List.append_assoc, Listed]
  simp only [List.mem_append (t := news), or_and_right, exists_or]

/-- What is pushed changes the page as it changes the registry. -/
theorem Shows.push {s s' : Session S} {es : List (Int32 × Shape)} {msg : Text} (h : s.Shows es)
    (hhost : HostInv s'.host) (hp : s'.host.pushed = s.host.pushed ++ [msg])
    (hq : s.host.msgQueue = [] → s'.host.msgQueue = []) (hseen : s'.seen = s.seen)
    (hinbox : s'.inbox = s.inbox ++ [msg]) :
    (s'.Listed ↔ s.Listed) ∧ ∃ es', Follow es msg es' ∧ s'.Shows es' := by
  have hmsg : msg.Announces := by
    refine hhost.announces msg ?_
    rw [hhost.queues.handled, hp]
    simp
  have hlisted : s'.Listed ↔ s.Listed := by
    rw [listed_append hseen hinbox, or_iff_left]
    rintro ⟨msg', hmsg', hlist⟩
    rw [List.mem_singleton.1 hmsg', hmsg.not_list] at hlist
    cases hlist
  have hchanges := pushedChanges_of_pushed hp
  have hvalid := hhost.valid
  rw [hchanges] at hvalid
  refine ⟨hlisted, replay es msg.change?.toList, hmsg.follow ?_, fun hl => ?_, fun hl => ?_⟩
  · by_cases hl : s.Listed
    · rw [(h.listed hl).1]
      exact ((valid_append _ _ _).1 hvalid).2
    · obtain ⟨before, since, hsplit, rfl, -⟩ := h.unlisted hl
      rw [hsplit, List.append_assoc] at hvalid
      exact ((valid_append _ _ _).1
        (((valid_append _ _ _).1 hvalid).2.of_sublist (List.nil_sublist _))).2
  · obtain ⟨rfl, hnil⟩ := h.listed (hlisted.1 hl)
    exact ⟨by rw [hchanges, replay_append], hq hnil⟩
  · obtain ⟨before, since, hsplit, rfl, hsince⟩ := h.unlisted fun hl' => hl (hlisted.2 hl')
    refine ⟨before, since ++ msg.change?.toList, ?_, (replay_append _ _ _).symm, fun c hc => ?_⟩
    · rw [hchanges, hsplit, List.append_assoc]
    · rw [hseen, hinbox, ← List.append_assoc]
      rcases List.mem_append.1 hc with hc | hc
      · obtain ⟨msg', hmsg', hc⟩ := hsince c hc
        exact ⟨msg', List.mem_append_left _ hmsg', hc⟩
      · exact ⟨msg, List.mem_append_right _ (List.mem_singleton_self _), Option.mem_toList.1 hc⟩

/-- Empty answers change nothing. -/
theorem Shows.empty {s s' : Session S} {es : List (Int32 × Shape)} {rs : List Text} (h : s.Shows es)
    (hp : s'.host.pushed = s.host.pushed) (hq : s.host.msgQueue = [] → s'.host.msgQueue = [])
    (hseen : s'.seen = s.seen) (hinbox : s'.inbox = s.inbox ++ rs) (hrs : ∀ r ∈ rs, r = emptyJson) :
    (s'.Listed ↔ s.Listed) ∧ Lts.Run Follow es rs es ∧ s'.Shows es := by
  have hlisted : s'.Listed ↔ s.Listed := by
    rw [listed_append hseen hinbox, or_iff_left]
    rintro ⟨r, hr, hlist⟩
    rw [hrs r hr, msgOf_emptyJson] at hlist
    cases hlist
  have hchanges : pushedChanges s'.host = pushedChanges s.host := by
    rw [pushedChanges, hp, pushedChanges]
  refine ⟨hlisted, ?_, fun hl => ?_, fun hl => ?_⟩
  · clear hinbox
    induction rs using List.reverseRecOn with
    | nil => exact .nil
    | append_singleton rs r ih =>
      refine (ih fun r hr => hrs r (List.mem_append_left _ hr)).snoc (.keep (.inl ?_))
      rw [hrs r (List.mem_append_right _ (List.mem_singleton_self _)), msgOf_emptyJson]
  · obtain ⟨rfl, hnil⟩ := h.listed (hlisted.1 hl)
    exact ⟨by rw [hchanges], hq hnil⟩
  · obtain ⟨before, since, hsplit, rfl, hsince⟩ := h.unlisted fun hl' => hl (hlisted.2 hl')
    refine ⟨before, since, hchanges.trans hsplit, rfl, fun c hc => ?_⟩
    obtain ⟨msg, hmsg, hc⟩ := hsince c hc
    rw [hseen, hinbox, ← List.append_assoc]
    exact ⟨msg, List.mem_append_left _ hmsg, hc⟩

/-- The list replaces nothing: it is of use to a page that shows nothing yet. -/
theorem Shows.list {s s' : Session S} {es : List (Int32 × Shape)} {result : Text} (h : s.Shows es)
    (hhost : HostInv s.host) (hq : s.host.msgQueue = []) (hl : ¬s.Listed)
    (hp : s'.host.pushed = s.host.pushed) (hq' : s.host.msgQueue = [] → s'.host.msgQueue = [])
    (hseen : s'.seen = s.seen) (hinbox : s'.inbox = s.inbox ++ [result])
    (hresult : createModuleList (s.host.modules.entries.map Prod.snd) = .ok result)
    (hfresh : ∀ e ∈ s.host.modules.entries, ∀ msg ∈ s.seen ++ s.inbox, msg.adds e.1 = false) :
    s'.Listed ∧ ∃ es', Follow es result es' ∧ s'.Shows es' := by
  have hmsg := msgOf_createModuleList hresult
  have hlisted : s'.Listed :=
    (listed_append hseen hinbox).2 (.inr ⟨result, List.mem_singleton_self _, by rw [hmsg]; rfl⟩)
  -- What the page shows is registered, and was announced to it.
  have hnil : es = [] := by
    obtain ⟨before, since, hsplit, rfl, hsince⟩ := h.unlisted hl
    refine List.eq_nil_iff_forall_not_mem.2 fun e he => ?_
    have hshape : e ∈ s.host.shapes := by
      rw [← hhost.replay hq, hsplit, replay_append, replay_eq]
      exact List.mem_append_right _ he
    obtain ⟨e', he', rfl⟩ := List.mem_map.1 hshape
    obtain ⟨msg, hmsg, hc⟩ := hsince _ ((mem_replay he).resolve_left List.not_mem_nil)
    have hadds := hfresh e' he' msg hmsg
    rw [Text.adds, hc] at hadds
    simp at hadds
  subst hnil
  have hids : ((s.host.modules.entries.map Prod.snd).map fun m => { m with callback := none }).map
      (fun m : Module => (m.id, m.shape)) = s.host.shapes := by
    rw [List.map_map, List.map_map, Instance.shapes]
    refine List.map_congr_left fun e he => Prod.ext ?_ rfl
    exact (hhost.announced.fresh.key (OrdMap.find?_eq_some_iff.2 he)).1
  have hfollow : Follow [] result s.host.shapes := by
    rw [← hids]
    refine .list hmsg ?_
    have hkeys := congrArg (List.map Prod.fst) hids
    rw [List.map_map] at hkeys
    refine Eq.mpr (congrArg List.Nodup hkeys) ?_
    rw [← hhost.replay hq]
    exact hhost.valid.nodup_keys .nil
  refine ⟨hlisted, _, hfollow, fun _ => ⟨?_, hq' hq⟩, fun h => absurd hlisted h⟩
  rw [← hhost.replay hq, pushedChanges, pushedChanges, hp]

/-- What the messages made in a step of the host do to the page. -/
theorem Inv.hostStep {s s' : Session S} {a : Sacs.Action} (hs : s.Inv w)
    (hc : s.connected = true) (h : Transition s.host a s'.host) (ha : a.leaves w = false)
    (hfresh : ∀ t q, a = .task → Takes s.host t q → t.loads w →
      ∀ e ∈ s.host.modules.entries, ∀ msg ∈ s.seen ++ s.inbox, msg.adds e.1 = false)
    (hpage : s'.page = s.page) (hseen : s'.seen = s.seen)
    (hinbox : s'.inbox = s.inbox ++ (s'.host.produced w).drop (s.host.produced w).length) :
    ((s'.Listed ↔ s.Listed) ∨ s'.Listed ∧ s.loaded = true ∧ s'.host.loads w = 0) ∧
      ∃ es es', s'.page.tabIds = keys es ∧ Lts.Run Follow es s'.inbox es' ∧ s'.Shows es' := by
  obtain ⟨hserver, hw⟩ := hs.listening hc
  obtain ⟨es, es', hes, hrun, hshows⟩ := hs.shows hc
  have hhost := hs.host.step h
  have hears := h.hears hs.host.queues hserver hw ha
  -- The messages made in the step.
  have hnews : ∀ news, s'.host.produced w = s.host.produced w ++ news →
      s'.inbox = s.inbox ++ news := fun news h => by
    rw [hinbox, h, List.drop_left]
  have hempty : ∀ rs, s'.host.pushed = s.host.pushed → s'.inbox = s.inbox ++ rs →
      (∀ r ∈ rs, r = emptyJson) → (s'.Listed ↔ s.Listed) ∧ ∃ es es', s'.page.tabIds = keys es ∧
        Lts.Run Follow es s'.inbox es' ∧ s'.Shows es' := by
    intro rs hp hin hrs
    obtain ⟨hlisted, hrun', hshows'⟩ := hshows.empty hp hears.flushed hseen hin hrs
    exact ⟨hlisted, es, es', by rw [hpage, hes], by rw [hin]; exact hrun.append hrun', hshows'⟩
  obtain ⟨msg, hp, hprod⟩ | ⟨hp, rs, hprod, hanswers⟩ := hears.told
  · have hin := hnews _ hprod
    obtain ⟨hlisted, es₁, hfollow, hshows'⟩ := hshows.push hhost hp hears.flushed hseen hin
    exact ⟨.inl hlisted, es, es₁, by rw [hpage, hes], by rw [hin]; exact hrun.snoc hfollow, hshows'⟩
  have hin := hnews _ hprod
  cases hanswers with
  | empty hrs =>
    obtain ⟨hlisted, h⟩ := hempty rs hp hin hrs
    exact ⟨.inl hlisted, h⟩
  | @callback response hl =>
    obtain ⟨hlisted, h⟩ := hempty _ hp hin fun r hr =>
      (List.mem_singleton.1 hr).trans (hs.host.keepsEmpty w response (.inl hl))
    exact ⟨.inl hlisted, h⟩
  | @list json q result hta ht htype hresult =>
    -- The request was the only one, so that there was no list before.
    have hload : Task.loads w (.doProcessJSRequest json w) = true := by simp [Task.loads, htype]
    have hone := loads_le_one hs.host.served w
    rw [Instance.loads, ht.threadLoop, List.countP_cons_of_pos hload] at hone
    have hnot : ¬(s.Listed ∨ ¬s.loaded) := fun h' => by
      have := hs.loads hc h'
      rw [Instance.loads, ht.threadLoop, List.countP_cons_of_pos hload] at this
      omega
    rw [not_or, not_not] at hnot
    have hq : s.host.msgQueue = [] := hs.host.queues.flushed (hs.host.queues.ready hserver)
      (by rw [ht.idle]; exact LoopPc.noConfusion)
    obtain ⟨hlisted, es₁, hfollow, hshows'⟩ := hshows.list hs.host hq hnot.1 hp hears.flushed hseen
      hin hresult (hfresh _ q hta ht hload)
    refine ⟨.inr ⟨hlisted, hnot.2, ?_⟩, es, es₁, by rw [hpage, hes],
      by rw [hin]; exact hrun.snoc hfollow, hshows'⟩
    obtain ⟨t, ht'⟩ := (hta ▸ h).takes
    rw [Instance.loads, ← (ht.inj ht').2]
    omega

/-! ### The steps -/

/-- What is shown depends on the messages made and on the host. -/
theorem Shows.congr {s s' : Session S} {es : List (Int32 × Shape)} (h : s.Shows es)
    (hhost : s'.host = s.host) (hmsgs : s'.seen ++ s'.inbox = s.seen ++ s.inbox) : s'.Shows es := by
  have hlisted : s'.Listed ↔ s.Listed := by rw [Listed, hmsgs, Listed]
  refine ⟨fun hl => ?_, fun hl => ?_⟩
  · rw [hhost]
    exact h.listed (hlisted.1 hl)
  · rw [hhost, hmsgs]
    exact h.unlisted fun hl' => hl (hlisted.2 hl')

/-- What a step of the host does to a session. -/
structure HostStep (w : ClientId) (s : Session S) (a : Sacs.Action) (s' : Session S) : Prop where
  host : Transition s.host a s'.host
  page : s'.page = s.page
  seen : s'.seen = s.seen
  inbox : s'.inbox = s.inbox ++
    if s.connected then (s'.host.produced w).drop (s.host.produced w).length else []
  connected : s'.connected = s.connected
  loaded : s'.loaded = s.loaded

theorem hostStep_of_eq_ok {s s' : Session S} {a : Sacs.Action} (h : s.hostStep w a = .ok s') :
    HostStep w s a s' := by
  obtain ⟨host, hhost, h⟩ := bind_eq_ok.1 h
  cases Except.ok.inj h
  exact ⟨transition_of_step hhost, rfl, rfl, rfl, rfl, rfl⟩

/-- A step of the host, for a page that is connected. -/
theorem Inv.hostStep_connected {s s' : Session S} {a : Sacs.Action} (hs : s.Inv w)
    (hc : s.connected = true) (h : HostStep w s a s') (ha : a.leaves w = false)
    (hmsg : ∀ msg, a = .wsMessage w msg → msg.text.isApply)
    (hu : ∀ t q, a = .task → Takes s.host t q → t.loads w →
      ∀ e ∈ s.host.modules.entries, ∀ msg ∈ s.seen ++ s.inbox, msg.adds e.1 = false) :
    s'.Inv w := by
  obtain ⟨hserver, hw⟩ := hs.listening hc
  obtain ⟨hlisted, hshows⟩ := hs.hostStep hc h.host ha hu h.page h.seen
    (by rw [h.inbox, if_pos hc])
  refine ⟨hs.host.step h.host, h.page ▸ hs.neat, fun _ => ?_,
    fun h' => absurd (h.connected.trans hc) h', fun hl => ?_, fun _ hl => ?_, fun _ => hshows⟩
  · exact ⟨h.host.serverImpl hserver, (h.host.hears hs.host.queues hserver hw ha).listening⟩
  · rw [h.loaded] at hl
    rcases hlisted with hlisted | ⟨-, hloaded, -⟩
    · exact fun h => hs.unloaded hl (hlisted.1 h)
    · exact absurd hloaded hl
  · rw [h.loaded] at hl
    rcases hlisted with hlisted | ⟨-, -, hzero⟩
    · exact Nat.le_zero.1 ((h.host.loads_le hmsg).trans (hs.loads hc (hl.imp_left hlisted.1)).le)
    · exact hzero

/-- A step of the host before the page is connected does not concern it. -/
theorem Inv.hostStep_unconnected {s s' : Session S} {a : Sacs.Action} (hs : s.Inv w)
    (hc : ¬s.connected) (h : HostStep w s a s') : s'.Inv w ∧ ¬s'.connected := by
  have hc' : ¬s'.connected := fun h' => hc (h.connected ▸ h')
  obtain ⟨hinbox, hseen, hids, hloaded⟩ := hs.unconnected hc
  have hinbox' : s'.inbox = [] := by rw [h.inbox, if_neg hc, hinbox, List.append_nil]
  have hseen' : s'.seen = [] := h.seen.trans hseen
  refine ⟨⟨hs.host.step h.host, h.page ▸ hs.neat, fun h => absurd h hc', fun _ => ?_, fun _ => ?_,
    fun h => absurd h hc', fun h => absurd h hc'⟩, hc'⟩
  · exact ⟨hinbox', hseen', by rw [h.page, hids], h.loaded.trans hloaded⟩
  · rintro ⟨msg, hmsg, -⟩
    rw [hseen', hinbox'] at hmsg
    cases hmsg

theorem Inv.connect {s s' : Session S} (hs : s.Inv w) (hc : ¬s.connected)
    (h : HostStep w s (.wsConnected w) s') : Inv w { s' with connected := true } := by
  obtain ⟨hs', hc'⟩ := hs.hostStep_unconnected hc h
  obtain ⟨hinbox, hseen, hids, hloaded⟩ := hs'.unconnected hc'
  have hlisted : ¬Listed { s' with connected := true } := by
    rintro ⟨msg, hmsg, -⟩
    rw [hseen, hinbox] at hmsg
    cases hmsg
  refine ⟨hs'.host, hs'.neat, fun _ => ?_, fun h => absurd rfl h, fun _ => hlisted, fun _ _ => ?_,
    fun _ => ⟨[], [], hids, ?_, fun h => absurd h hlisted,
      fun _ => ⟨pushedChanges s'.host, [], (List.append_nil _).symm, rfl, by simp⟩⟩⟩
  · exact ⟨h.host.serverImpl h.host.of_wsConnected.1, h.host.of_wsConnected.2.2⟩
  · have hweb := hs.host.served.idle h.host.of_wsConnected.2.1
    have hzero : s.host.loads w = 0 := Nat.le_zero.1 ((loads_le_requests s.host w).trans
      (hs.host.served.notWaiting (by rw [hweb]; exact WebPc.noConfusion)).le)
    exact Nat.le_zero.1 ((h.host.loads_le fun _ h => by cases h).trans hzero.le)
  · rw [hinbox]
    exact .nil

theorem Inv.load {s s' : Session S} (hs : s.Inv w) (hc : s.connected = true) (hl : ¬s.loaded)
    (h : HostStep w s (.wsMessage w ⟨Sacs.load, false⟩) s') : Inv w { s' with loaded := true } := by
  obtain ⟨hserver, hw⟩ := hs.listening hc
  have hleaves : Sacs.Action.leaves w (.wsMessage w ⟨Sacs.load, false⟩) = false := rfl
  obtain ⟨hlisted, hshows⟩ := hs.hostStep hc h.host hleaves (by simp) h.page h.seen
    (by rw [h.inbox, if_pos hc])
  have hnot : ¬s'.Listed := by
    rcases hlisted with hlisted | ⟨-, hloaded, -⟩
    · exact fun h => hs.unloaded hl (hlisted.1 h)
    · exact absurd hloaded hl
  refine ⟨hs.host.step h.host, h.page ▸ hs.neat, fun _ => ?_,
    fun h' => absurd (h.connected.trans hc) h', fun h => absurd rfl h, fun _ h => ?_, fun _ => ?_⟩
  · exact ⟨h.host.serverImpl hserver, (h.host.hears hs.host.queues hserver hw hleaves).listening⟩
  · exact absurd (h.resolve_right fun h => h rfl) hnot
  · obtain ⟨es, es', hes, hrun, hshows⟩ := hshows
    exact ⟨es, es', hes, hrun, hshows.congr rfl rfl⟩

theorem Inv.receive {s : Session S} {msg : Text} {inbox : List Text} (hs : s.Inv w)
    (hinbox : s.inbox = msg :: inbox) (hmade : ∀ m ∈ (msgOf msg).made, Renders S m) :
    Inv w { s with page := s.page.onMessage msg, inbox, seen := s.seen ++ [msg] } := by
  have hc : s.connected = true := by
    by_contra hc
    rw [(hs.unconnected hc).1] at hinbox
    cases hinbox
  have hmsgs : (s.seen ++ [msg]) ++ inbox = s.seen ++ s.inbox := by
    rw [hinbox, List.append_assoc]
    rfl
  obtain ⟨es, es', hes, hrun, hshows⟩ := hs.shows hc
  rw [hinbox] at hrun
  obtain ⟨es₁, hfollow, hrun⟩ := hrun.uncons
  obtain ⟨hneat, hids⟩ := hs.neat.follow hes hfollow hmade
  have hlisted : Listed { s with page := s.page.onMessage msg, inbox, seen := s.seen ++ [msg] } ↔
      s.Listed := by
    rw [Listed, Listed, hmsgs]
  refine ⟨hs.host, hneat, hs.listening, fun h => absurd hc h, fun hl h => ?_, fun _ h => ?_,
    fun _ => ⟨es₁, es', hids, hrun, hshows.congr rfl hmsgs⟩⟩
  · exact hs.unloaded hl (hlisted.1 h)
  · exact hs.loads hc (h.imp_left hlisted.1)

/-- A click changes no tab. -/
theorem Inv.click {s : Session S} {page : Page S} (hs : s.Inv w) (hn : page.Neat)
    (hids : page.tabIds = s.page.tabIds) : Inv w { s with page } := by
  refine ⟨hs.host, hn, hs.listening, fun h => ?_, hs.unloaded, hs.loads, fun h => ?_⟩
  · obtain ⟨hinbox, hseen, hempty, hloaded⟩ := hs.unconnected h
    exact ⟨hinbox, hseen, hids.trans hempty, hloaded⟩
  · obtain ⟨es, es', hes, hrun, hshows⟩ := hs.shows h
    exact ⟨es, es', hids.trans hes, hrun, hshows.congr rfl rfl⟩

theorem Inv.step {s s' : Session S} {a : Action} (hs : s.Inv w) (hu : s.Untold w a)
    (h : Steps w s a s') : s'.Inv w := by
  change s.step w a = .ok s' at h
  -- The host acts for others, or for the web client that connects, loads or applies.
  cases a with
  | host a =>
    rw [Session.step] at h
    split_ifs at h with hof
    have h := hostStep_of_eq_ok h
    by_cases hc : s.connected = true
    · have hnot : a.isOf w = false := by simpa [hc] using hof
      refine hs.hostStep_connected hc h ?_ ?_ ?_
      · cases a <;> first | rfl | exact hnot
      · rintro msg rfl
        simp [Action.isOf] at hnot
      · rintro t q rfl ht hload
        exact hu hc t (by rw [ht.threadLoop]; rfl) hload
    · exact (hs.hostStep_unconnected hc h).1
  | connect =>
    rw [Session.step] at h
    split_ifs at h with hc
    obtain ⟨s₁, h₁, h⟩ := bind_eq_ok.1 h
    cases Except.ok.inj h
    exact hs.connect hc (hostStep_of_eq_ok h₁)
  | load =>
    rw [Session.step] at h
    split_ifs at h with hc
    obtain ⟨s₁, h₁, h⟩ := bind_eq_ok.1 h
    cases Except.ok.inj h
    exact hs.load hc.1 hc.2 (hostStep_of_eq_ok h₁)
  | apply msg =>
    rw [Session.step] at h
    split_ifs at h with hc
    have hconn : s.connected = true := by
      by_contra hconn
      rw [(hs.unconnected hconn).2.2.2] at hc
      cases hc.1
    refine hs.hostStep_connected hconn (hostStep_of_eq_ok h) rfl ?_ (by simp)
    rintro msg' hmsg
    cases hmsg
    exact hc.2
  | receive =>
    rw [Session.step] at h
    split at h
    · cases h
    · rename_i msg inbox hinbox
      cases h
      exact hs.receive hinbox fun m hm => hu msg (by rw [hinbox]; rfl) m hm
  | click module =>
    rw [Session.step] at h
    split_ifs at h with hmem
    obtain ⟨page, hpage, hn, hids⟩ := hs.neat.selectModule hmem
    rw [hpage] at h
    cases h
    exact hs.click hn hids

/-! ### Whole runs -/

theorem inv_init : Inv w ({} : Session S) := by
  refine ⟨⟨announced_of_runs .nil, queues_of_runs .nil, served_of_runs .nil, ?_, ?_⟩,
    neat_empty, by simp, fun _ => ⟨rfl, rfl, rfl, rfl⟩, ?_, by simp, by simp⟩
  · rintro v response (h | h) <;> cases h
  · intro msg hmsg
    cases hmsg
  · rintro - ⟨msg, hmsg, -⟩
    cases hmsg

theorem map_eq_of_filterMap {α β : Type} {f : α → Option β} {xs : List α} {ys : List β}
    (h : ∀ x ∈ xs, (f x).isSome) (hxs : xs.filterMap f = ys) : xs.map f = ys.map some := by
  subst hxs
  induction xs with
  | nil => rfl
  | cons x xs ih =>
    obtain ⟨y, hy⟩ := Option.isSome_iff_exists.1 (h x List.mem_cons_self)
    rw [List.filterMap_cons_some hy, List.map_cons, List.map_cons, hy,
      ih fun x hx => h x (List.mem_cons_of_mem _ hx)]

/-- What the page shows, once it is up to date, is what is registered. -/
theorem Inv.mirrors {s : Session S} (hs : s.Inv w) (hd : s.UpToDate) : s.Mirrors := by
  obtain ⟨hinbox, msg, hmsg, hlist⟩ := hd
  have hc : s.connected = true := by
    by_contra hc
    rw [(hs.unconnected hc).2.1] at hmsg
    cases hmsg
  have hlisted : s.Listed := ⟨msg, List.mem_append_left _ hmsg, hlist⟩
  obtain ⟨es, es', hes, hrun, hshows⟩ := hs.shows hc
  obtain ⟨rfl, hq⟩ := hshows.listed hlisted
  rw [hinbox] at hrun
  have hids : s.page.tabIds = keys s.host.shapes := by
    rw [hes, ← hrun.eq_of_nil, hs.host.replay hq]
  constructor
  · intro id
    rw [← hs.neat.mem_tabIds, hids, mem_keys_shapes]
  · refine map_eq_of_filterMap (fun r hr => ?_) (hids.trans ?_)
    · obtain ⟨view, hview, -⟩ := hs.neat.registered hr
      rw [hview]
      rfl
    · rw [keys, Instance.shapes, List.map_map]
      rfl

/-- The page is a mirror of the host, in every run in which no module listed was
    announced to the page before, and no script throws. -/
theorem mirrors_of_runs {as : List Action} {s : Session S}
    (h : Lts.Run (Lts.Under (Untold w) (Steps w)) {} as s) (hd : s.UpToDate) : s.Mirrors :=
  (h.invariant inv_init fun _ _ _ hs hst => hs.step hst.1 hst.2).mirrors hd

instance instDecidableRenders (S : Script) (m : Module) : Decidable (Renders S m) :=
  inferInstanceAs (Decidable (∀ p ∈ m.properties, _ → _))

instance instDecidableUntold (w : ClientId) (s : Session S) (a : Action) :
    Decidable (s.Untold w a) := by
  cases a <;> unfold Untold <;> (try split) <;> infer_instance

/-- A session, by evaluation, with what is observed of its last state. -/
theorem exists_session {β : Type} (w : ClientId) (as : List Action) (f : Session S → β) (b : β)
    (h : (as.foldlM (step w) {}).toOption.map f = some b) :
    ∃ s, Lts.Run (Steps w) {} as s ∧ f s = b :=
  Lts.exists_run_of_foldlM _ _ _ _ _ h

theorem exists_session_untold {β : Type} (w : ClientId) (as : List Action)
    (f : Session S → β) (b : β)
    (h : (as.foldlM (Lts.guard (Untold w) (step w) .disabled) {}).toOption.map f = some b) :
    ∃ s, Lts.Run (Lts.Under (Untold w) (Steps w)) {} as s ∧ f s = b := by
  obtain ⟨s, hs, hb⟩ := Lts.exists_run_of_foldlM _ _ _ _ _ h
  exact ⟨s, hs.under_of_guard, hb⟩

/-- A page with scripts that do nothing. -/
def quiet : Script where
  Obj := Unit
  construct _ := some ()
  setValue _ _ := some ()

def start : List Action := [.host (.connecting false), .host .task, .host .flush]

def register : List Action := [.host (.registerModule [] [] none), .host .task]

/-- What is observed of a session: the messages to be processed, whether the list
    was processed, and the numbers of tabs and of modules. -/
def view (s : Session quiet) : Nat × Bool × Nat × Nat :=
  (s.inbox.length, s.seen.any fun msg => (msgOf msg).isList, s.page.tabs.length,
    s.host.modules.keys.length)

theorem upToDate_of_view {s : Session quiet} {n k : Nat} (h : s.view = (0, true, n, k)) :
    s.UpToDate := by
  obtain ⟨hinbox, hlist, -⟩ : _ ∧ _ ∧ _ := by simpa [view] using h
  exact ⟨hinbox, hlist⟩

/-- A module is registered between the connection and the list: it is shown twice. -/
theorem not_mirrors_of_announced : ∃ s : Session quiet, Lts.Run (Steps 0) {}
    (start ++ [.connect] ++ register ++ [.load, .host .task, .receive, .receive]) s ∧
      s.UpToDate ∧ ¬s.Mirrors := by
  obtain ⟨s, h, hs⟩ := exists_session 0
    (start ++ [.connect] ++ register ++ [.load, .host .task, .receive, .receive]) view
    (0, true, 2, 1) (by decide +kernel)
  refine ⟨s, h, upToDate_of_view hs, fun hm => ?_⟩
  have hlength := congrArg List.length hm.2
  rw [List.length_map, List.length_map] at hlength
  obtain ⟨-, -, htabs, hkeys⟩ : _ ∧ _ ∧ _ ∧ _ := by simpa only [view, Prod.mk.injEq] using hs
  rw [htabs, hkeys] at hlength
  cases hlength

/-- Modules are registered before the page is connected and after the list is made. -/
theorem mirrors_of_register : ∃ s : Session quiet, Lts.Run (Lts.Under (Untold 0) (Steps 0)) {}
    (start ++ register ++ [.connect, .load, .host .task] ++ register ++ [.receive, .receive]) s ∧
      s.view = (0, true, 2, 2) ∧ s.Mirrors := by
  obtain ⟨s, h, hs⟩ := exists_session_untold 0
    (start ++ register ++ [.connect, .load, .host .task] ++ register ++ [.receive, .receive]) view
    (0, true, 2, 2) (by decide +kernel)
  exact ⟨s, h, hs, mirrors_of_runs h (upToDate_of_view hs)⟩

end Session

end Sacs
