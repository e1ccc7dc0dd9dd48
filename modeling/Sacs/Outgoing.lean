import Sacs.Browser

/-!
# What a web client is sent

What the host makes for a web client is what the client is sent, except for the answer
that waits to be sent (`Instance.outgoing`). A step adds to both the same messages
(`Transition.delivers`), if the loop thread pushes nothing to a client while an answer to
it waits (`Instance.Unhurried`): otherwise the answer is overtaken.
-/

namespace Sacs

open JsonMsg ModuleManager Page

/-- What a web client has been sent since it is connected, and the answer waiting to be
    sent. -/
def Instance.outgoing (s : Instance) (w : ClientId) : List Text :=
  (s.wsClients w).getD [] ++ s.reply w

/-- What is made for the web client is to be sent to it, after what was. -/
def Delivers (s s' : Instance) (w : ClientId) : Prop :=
  ∀ sent, s.wsClients w = some sent → ∃ more news, s'.wsClients w = some (sent ++ more) ∧
    s'.produced w = s.produced w ++ news ∧ more ++ s'.reply w = s.reply w ++ news

namespace Delivers

variable {s s' : Instance} {w : ClientId}

theorem keep (hclients : s'.wsClients w = s.wsClients w) (hprod : s'.produced w = s.produced w)
    (hreply : s'.reply w = s.reply w) : Delivers s s' w := fun sent hsent =>
  ⟨[], [], by rw [hclients, hsent, List.append_nil], by rw [hprod, List.append_nil],
    by rw [hreply, List.append_nil]; rfl⟩

/-- A step that does not concern the web client. -/
theorem unchanged (hclients : s'.wsClients = s.wsClients) (hprod : s'.produced = s.produced)
    (hweb : s'.web = s.web) : Delivers s s' w :=
  keep (by rw [hclients]) (by rw [hprod]) (by rw [Instance.reply, hweb, Instance.reply])

/-- A message pushed is sent to a listener at once. -/
theorem sends {b : Prop} {msg : Text} (h : Sends b s s' msg)
    (hb : b → ∀ w ∈ ServerImpl.listening s, s.reply w = []) (hweb : s'.web = s.web) :
    Delivers s s' w := by
  rcases h with ⟨hB, h⟩ | ⟨hclients, hprod⟩
  · have hreply : s'.reply w = s.reply w := by rw [Instance.reply, hweb, Instance.reply]
    have hclients := h.wsClients w
    have hprod := h.produced w
    split_ifs at hclients hprod with hw
    · refine fun sent hsent => ⟨[msg], [msg], by rw [hclients, hsent]; rfl, hprod, ?_⟩
      rw [hreply, hb hB w hw]
      rfl
    · exact keep hclients (hprod.trans (List.append_nil _)) hreply
  · exact unchanged hclients hprod hweb

/-- An answer is made, for a handler that waits for it. -/
theorem respond {v : ClientId} {response : Text} (hv : s.web v = .waiting)
    (hclients : s'.wsClients = s.wsClients)
    (hprod : ∀ w, s'.produced w = s.produced w ++ if v = w then [response] else [])
    (hweb : s'.web = Function.update s.web v (.ready response)) : Delivers s s' w := by
  have hprod := hprod w
  split_ifs at hprod with hvw
  · subst hvw
    refine fun sent hsent => ⟨[], [response], by rw [hclients, hsent, List.append_nil], hprod, ?_⟩
    simp [Instance.reply, hweb, hv]
  · refine keep (by rw [hclients]) (hprod.trans (List.append_nil _)) ?_
    rw [Instance.reply, hweb, Function.update_of_ne (Ne.symm hvw), Instance.reply]

/-- A step of the connection of another web client. -/
theorem other {v : ClientId} (hv : w ≠ v) {x : Option (List Text)} {y : WebPc}
    (hclients : s'.wsClients = Function.update s.wsClients v x)
    (hweb : s'.web = Function.update s.web v y) (hprod : s'.produced w = s.produced w) :
    Delivers s s' w := by
  refine keep ?_ hprod ?_
  · rw [hclients, Function.update_of_ne hv]
  · rw [Instance.reply, hweb, Function.update_of_ne hv, Instance.reply]

end Delivers

theorem Transition.delivers_offLoop {s s' : Instance} {a : Action} {w : ClientId}
    (h : Transition s a s') (ha : a.leaves w = false) (hloop : a.onLoop = false) :
    Delivers s s' w := by
  have hlog : ∀ id, (s.log (.unregister id)).produced = s.produced := fun id => by
    funext w
    exact (produced_of_trace (s := s) rfl w).trans (List.append_nil _)
  cases h <;> simp only [Action.onLoop, reduceCtorEq] at hloop
  case unregisterModule => exact .unchanged rfl (hlog _) rfl
  case wsConnected v _ hnone _ =>
    by_cases hv : w = v
    · subst hv
      exact fun sent hsent => absurd (hnone.symm.trans hsent) (by simp)
    · exact .other hv rfl (Function.update_eq_self v s.web).symm rfl
  -- What is not JSON is answered at once, with no answer waiting.
  case wsNotJson v _ hpc =>
    have hprod : (ServerImpl.send (s.log (.produced v emptyJson)) v emptyJson).produced w =
        s.produced w ++ if v = w then [emptyJson] else [] := produced_of_produced (s := s) rfl w
    by_cases hv : w = v
    · subst hv
      rw [if_pos rfl] at hprod
      refine fun sent hsent => ⟨[emptyJson], [emptyJson], ?_, hprod, ?_⟩
      · simp [ServerImpl.send, Instance.log, hsent]
      · simp [Instance.reply, ServerImpl.send, Instance.log, hpc]
    · rw [if_neg (Ne.symm hv), List.append_nil] at hprod
      exact .other hv rfl (Function.update_eq_self v s.web).symm hprod
  case wsRequest v msg json _ hpc _ _ =>
    by_cases hv : w = v
    · subst hv
      exact .keep rfl rfl (by simp [Instance.reply, ServerImpl.setWeb, hpc])
    · exact .other hv (Function.update_eq_self v s.wsClients).symm rfl rfl
  case wsReply v response hpc =>
    by_cases hv : w = v
    · subst hv
      refine fun sent hsent => ⟨[response], [], ?_, (List.append_nil _).symm, ?_⟩
      · simp [ServerImpl.setWeb, ServerImpl.send, hsent]
      · simp [Instance.reply, ServerImpl.setWeb, hpc]
    · exact .other hv rfl rfl rfl
  case wsClosed v _ _ =>
    have hv : w ≠ v := fun e => by simp [Action.leaves, e] at ha
    exact .other hv rfl (Function.update_eq_self v s.web).symm rfl
  case wsExpired v _ _ =>
    have hv : w ≠ v := fun e => by simp [Action.leaves, e] at ha
    exact .other hv rfl (Function.update_eq_self v s.web).symm rfl
  all_goals exact .unchanged rfl rfl rfl

/-- A request is answered when it is done, or when the callback called returns. -/
theorem Instance.Served.delivers_answer {s s₁ : Instance} (hs : s.Served False) {w v : ClientId}
    {json json' : JsonMsg} {q : List Task} {result : Text}
    (ht : Takes s (.doProcessJSRequest json v) q) (h : Passes { s with threadLoop := q } json' s₁) :
    Delivers s (answer s₁ v result) w := by
  have hprod := h.produced
  have hloop := h.loop
  obtain ⟨modules, clients, loop, trace, rfl⟩ := h.frame
  rcases hloop with hloop | hloop
  · have hidle : loop = .idle := hloop.trans ht.idle
    subst hidle
    refine .respond (hs.waits ht) rfl (fun w => ?_) rfl
    rw [produced_of_produced (w := v) (m := result) rfl, hprod]
    rfl
  · have hcallback : loop = .callback none := hloop
    subst hcallback
    exact .unchanged rfl hprod rfl

/-- What is made for a web client in a step is to be sent to it, after what was. -/
theorem Transition.delivers {s s' : Instance} {a : Action} {w : ClientId} (h : Transition s a s')
    (hs : s.Served False) (hU : s.Unhurried a) (ha : a.leaves w = false) : Delivers s s' w := by
  cases hloop : a.onLoop with
  | false => exact h.delivers_offLoop ha hloop
  | true =>
  have hlog : ∀ {s s' : Instance} {l : List Event}, s'.trace = s.trace ++ l →
      (∀ e ∈ l, ∀ v, e.produced? v = none) → s'.produced = s.produced := by
    intro s s' l h hl
    funext v
    rw [produced_of_trace h, List.filterMap_eq_nil_iff.2 fun e he => hl e he v, List.append_nil]
  cases h with
  | taskRole => exact .unchanged rfl rfl rfl
  | taskHandle ht h =>
    exact .sends (sends_of_handleMessage h rfl rfl rfl)
      (fun hb => hU ⟨hb.1, hb.2, by rw [ht.threadLoop]; rfl⟩) (handleMessage_emits h).web
  | @taskRegister m promise q msg s₁ ht _ _ h =>
    obtain ⟨loop, handler, hs₁⟩ := fulfil_frame s₁ promise s.idCounter
    have hdel : Delivers s s₁ w := .sends (sends_of_handleMessage h rfl rfl
      (hlog (l := [_]) rfl (by simp)))
      (fun hb => hU ⟨hb.1, hb.2, by rw [ht.threadLoop]; rfl⟩) (handleMessage_emits h).web
    rw [hs₁]
    exact hdel
  | taskUnregister ht _ h =>
    exact .sends (sends_of_handleMessage h rfl rfl (hlog (l := [_]) rfl (by simp)))
      (fun hb => hU ⟨hb.1, hb.2, by rw [ht.threadLoop]; rfl⟩) (handleMessage_emits h).web
  | taskSaveNone => exact .unchanged rfl rfl rfl
  | taskSave => exact .unchanged rfl (hlog (l := [_]) rfl (by simp)) rfl
  | taskOther ht _ _ => exact .respond (hs.waits ht) rfl (produced_of_produced rfl) rfl
  | taskLoad ht _ _ h => exact hs.delivers_answer ht h
  | taskApply ht _ h => exact hs.delivers_answer ht h
  | taskPass ht h =>
    have hprod := h.produced
    obtain ⟨_, _, _, _, rfl⟩ := h.frame
    exact .unchanged rfl hprod rfl
  | flushed => exact .unchanged rfl rfl rfl
  | flush _ hq h =>
    exact .sends (sends_of_pushMsg h rfl rfl rfl)
      (fun hb => hU ⟨hb, by rw [hq]; exact List.cons_ne_nil _ _⟩) (pushMsg_emits h).web
  | callbackRegister => exact .unchanged rfl rfl rfl
  | callbackUnregister _ _ h =>
    exact .sends (sends_of_handleMessage h rfl rfl
      (hlog (l := [_, _]) (List.append_assoc ..) (by simp))) hU (handleMessage_emits h).web
  | callbackUpdate _ hs₁ hmsg h =>
    obtain ⟨hprod, hclients, hlisteners, hweb, -, -, hserver, hinit⟩ :=
      produced_of_savePropertiesList hs₁
    have hsend := sends_of_handleMessage h hclients hlisteners hprod
    rw [hserver, hinit] at hsend
    exact .sends hsend
      (fun hb => hU ⟨hb.1, hb.2, createPropertyUpdated_eq_ok_iff.1 ⟨_, hmsg⟩⟩)
      ((handleMessage_emits h).web.trans hweb)
  | callbackUpdateThrows _ hs₁ _ =>
    obtain ⟨hprod, hclients, -, hweb, -⟩ := produced_of_savePropertiesList hs₁
    exact .unchanged hclients hprod hweb
  | callbackReturn => exact .unchanged rfl rfl rfl
  | @callbackAnswer v response hl =>
    have hv : s.web v = .waiting := by
      by_contra hne
      have := hs.notWaiting hne
      simp [Instance.requests, hl, LoopPc.client?] at this
    exact .respond hv rfl (produced_of_produced rfl) rfl
  | _ => simp only [Action.onLoop, Bool.false_eq_true] at hloop

/-! ## The list asked for -/

/-- A request for the list stays in the queue until the list is made. -/
theorem Transition.loads_or {s s' : Instance} {a : Action} {w : ClientId} (h : Transition s a s')
    (hf : s.Fresh) (hl : 0 < s.loads w) : 0 < s'.loads w ∨
      ∃ result, s'.produced w = s.produced w ++ [result] ∧ (msgOf result).isList := by
  obtain ⟨rfl, t, ht⟩ | ⟨-, ts, hq⟩ := h.threadLoop
  · rw [Instance.loads, ht.threadLoop, List.countP_cons] at hl
    cases hload : t.loads w with
    | false =>
      rw [hload, if_neg Bool.false_ne_true, Nat.add_zero] at hl
      exact .inl hl
    | true =>
      -- The task is a request of the client, and as such one for the list.
      have hne : ∀ {t' q}, Takes s t' q → t'.loads w = true := fun ht' =>
        (ht.inj ht').1 ▸ hload
      cases h with
      | @taskLoad json v q result s₁ ht' htype hresult hp =>
        obtain rfl := hp.eq_of_load hf htype
        have hv : v = w ∧ json.type = .reqLoad := by simpa [Task.loads] using hne ht'
        obtain rfl := hv.1
        refine .inr ⟨result, ?_, by rw [msgOf_createModuleList hresult]; rfl⟩
        rw [answer, ht'.idle]
        exact (produced_of_produced (s := s) rfl v).trans (by rw [if_pos rfl])
      | taskOther ht' hload _ => exact absurd (of_decide_eq_true (hne ht')).2 hload
      | taskApply ht' happly _ =>
        exact absurd ((of_decide_eq_true (hne ht')).2.symm.trans happly) (by decide)
      | taskRole ht' => cases hne ht'
      | taskHandle ht' => cases hne ht'
      | taskRegister ht' => cases hne ht'
      | taskUnregister ht' => cases hne ht'
      | taskSaveNone ht' => cases hne ht'
      | taskSave ht' => cases hne ht'
      | taskPass ht' => cases hne ht'
  · refine .inl (hl.trans_le ?_)
    rw [Instance.loads, Instance.loads, hq, List.countP_append]
    exact Nat.le_add_right _ _

theorem parse_load : parse load = .ok ⟨loadRequest, true, .reqLoad⟩ := rfl

/-- A web client that asks for the list has a request in the queue. -/
theorem Transition.loads_of_load {s s' : Instance} {w : ClientId}
    (h : Transition s (.wsMessage w ⟨load, false⟩) s') : 0 < s'.loads w := by
  generalize hmsg : load = msg at h
  cases h with
  | wsLarge _ _ hlarge => cases hlarge
  | wsNotJson => cases hmsg
  | wsRequest _ _ hjson =>
    cases (hmsg ▸ parse_load).symm.trans hjson
    refine List.countP_pos_iff.2 ⟨_, List.mem_append_right _ (List.mem_singleton_self _), ?_⟩
    simp [Task.loads]

/-- A web client that has just connected has been sent nothing. -/
theorem Transition.outgoing_of_wsConnected {s s' : Instance} {w : ClientId}
    (h : Transition s (.wsConnected w) s') (hs : s.Served False) :
    s'.wsClients w = some [] ∧ s'.reply w = [] := by
  cases h with
  | wsConnected _ hnone _ =>
    refine ⟨Function.update_self .., ?_⟩
    simp only [Instance.reply, ServerImpl.addEventListener, hs.idle hnone]

end Sacs
