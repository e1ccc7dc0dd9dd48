import Sacs.Faults
import Sacs.Replay
import Sacs.Uplink
import Sacs.Values

/-!
# Updates on their way through an instance

The updates of a module come to an instance by the tasks of its loop, which save them in
turn (`Instance.inbox`): those of its application, those of the instance the module is of,
and those the host passes on. The updates of its application leave it by its
announcements (`Instance.outbox`).

* `Transition.drains`: a task saves the first updates of the inbox, or those of a web
  request. No other step saves any, and it adds to the inbox what its action brings
  (`Transition.fills`).
* `Transition.outbox`: a step adds the updates of a call of `UpdateProperties` to the
  outbox, and loses none, if one thread makes these calls.
* `Transition.sends_updates`: what a host sends are the updates of the web requests.
-/

namespace Sacs

open JsonMsg ModuleManager
open Sacs.Module (InRange written)

/-! ## The inbox -/

/-- The updates of the module `id` that are passed on to it. -/
def JsonMsg.passes (json : JsonMsg) (id : Int32) : Updates :=
  match json.findId, json.getPropertiesList with
  | .ok id', .ok (ps, _) => if id' = id then ps else []
  | _, _ => []

def Text.passes (msg : Text) (id : Int32) : Updates :=
  match parse msg with
  | .ok j => j.passes id
  | .error _ => []

/-- The updates of the module `id` the task saves, but for a web request. -/
def Task.writes (t : Task) (id : Int32) : Sacs.Updates :=
  match t with
  | .passPropertyUpdateToModule json => json.passes id
  | t => t.saves id

/-- The updates of the module `id` the tasks of the loop save, in order. -/
def Instance.inbox (s : Instance) (id : Int32) : Updates := s.threadLoop.flatMap (·.writes id)

/-- The updates of the module `id` by the web request that is the next task, if it is one. -/
def Instance.request (s : Instance) (id : Int32) : Updates :=
  match s.loop, s.threadLoop with
  | .idle, .doProcessJSRequest json _ :: _ => if json.type = .reqApply then json.passes id else []
  | _, _ => []

theorem passes_eq {json json' : JsonMsg} {id : Int32} {ps : Updates} (hid : json.findId = .ok id)
    (hps : json.getPropertiesList = .ok (ps, json')) : json.passes id = ps := by
  rw [JsonMsg.passes, hid, hps]
  exact if_pos rfl

/-- A message passes updates only if it is about the module. -/
theorem of_passes_ne_nil {json : JsonMsg} {id : Int32} (h : json.passes id ≠ []) :
    ∃ json', json.findId = .ok id ∧ json.getPropertiesList = .ok (json.passes id, json') := by
  rw [JsonMsg.passes] at h ⊢
  split at h
  · rename_i id' ps json' hid hps
    split_ifs at h with he
    · exact ⟨json', by rw [hid, he], by simp only [hps, if_pos he]⟩
    · exact absurd rfl h
  · exact absurd rfl h

variable {s s' : Instance} {a : Action} {id : Int32}

theorem Takes.inbox {t : Task} (ht : Takes s t s'.threadLoop) :
    s.inbox id = t.writes id ++ s'.inbox id := by
  rw [Instance.inbox, ht.threadLoop, List.flatMap_cons, Instance.inbox]

theorem Transition.inbox_eq_nil (h : Transition s .task s') (hnil : s.inbox id = []) :
    s'.inbox id = [] := by
  obtain ⟨t, ht⟩ := h.takes
  rw [ht.inbox, List.append_eq_nil_iff] at hnil
  exact hnil.2

/-- The updates a task saves are those of the inbox, or of a web request. -/
theorem Instance.Saves.writes {t : Task} {q : List Task} {ps : Updates} (h : s.Saves .task id ps)
    (ht : Takes s t q) : (t.writes id = ps ∧ s.request id = []) ∨
      (t.writes id = [] ∧ s.request id = ps ∧ ps ≠ []) := by
  rcases h with h | ⟨-, t', q', json, json', ht', hpassed, hid, hps, hne⟩
  · rw [Instance.appSaves?, ht.threadLoop] at h
    split at h
    · rename_i hcons
      cases h
      cases hcons
      refine .inl ⟨if_pos rfl, ?_⟩
      rw [Instance.request, ht.idle, ht.threadLoop]
    · cases h
  · cases (ht.inj ht').1
    cases t with
    | passPropertyUpdateToModule json₁ =>
      cases hpassed
      refine .inl ⟨passes_eq hid hps, ?_⟩
      rw [Instance.request, ht.idle, ht.threadLoop]
    | doProcessJSRequest json₁ w =>
      rw [Task.passed?] at hpassed
      split_ifs at hpassed with htype
      cases hpassed
      refine .inr ⟨rfl, ?_, hne⟩
      rw [Instance.request, ht.idle, ht.threadLoop]
      simp only [if_pos htype, passes_eq hid hps]
    | _ => cases hpassed

/-- Updates of the inbox, and those of a web request, are saved by the task they are of. -/
theorem Instance.saves_of_writes {t : Task} {q : List Task} (ht : Takes s t q)
    (h : t.writes id ++ s.request id ≠ []) : ∃ ps, s.Saves .task id ps := by
  cases t with
  | savePropertiesList id' ps =>
    by_cases hid : id' = id
    · exact ⟨ps, .inl (ht.appSaves? _ _ (by rw [hid]))⟩
    · refine absurd ?_ h
      rw [Instance.request, ht.idle, ht.threadLoop]
      simp [Task.writes, Task.saves, hid]
  | passPropertyUpdateToModule json =>
    have hne : json.passes id ≠ [] := by
      rw [Instance.request, ht.idle, ht.threadLoop] at h
      simpa [Task.writes] using h
    obtain ⟨json', hid, hps⟩ := of_passes_ne_nil hne
    exact ⟨_, .inr ⟨rfl, _, q, json, json', ht, rfl, hid, hps, hne⟩⟩
  | doProcessJSRequest json w =>
    rw [Instance.request, ht.idle, ht.threadLoop] at h
    dsimp only [Task.writes, Task.saves] at h
    split_ifs at h with htype
    · have hne : json.passes id ≠ [] := by simpa using h
      obtain ⟨json', hid, hps⟩ := of_passes_ne_nil hne
      exact ⟨_, .inr ⟨rfl, _, q, json, json', ht, if_pos htype, hid, hps, hne⟩⟩
    · exact absurd rfl h
  | _ =>
    refine absurd ?_ h
    rw [Instance.request, ht.idle, ht.threadLoop]
    rfl

/-- A step that saves nothing in a module writes nothing. -/
theorem Transition.writes_eq (h : Transition s a s') (hsaves : ∀ ps, ¬s.Saves a id ps) :
    s'.writes id = s.writes id := by
  have hnone : ∀ {e : Event}, s'.record = s.record ++ [e] → e.written id = [] →
      s'.writes id = s.writes id := by
    intro e hrecord he
    rw [writes_of_record hrecord, List.flatMap_singleton, he, List.append_nil]
  cases h.edits with
  | keep _ _ hrecord => rw [Instance.writes, hrecord, Instance.writes]
  | add _ _ _ _ _ hrecord => exact hnone hrecord rfl
  | remove _ _ _ hrecord => exact hnone hrecord rfl
  | @save id' ps m m' hsave _ _ _ _ hrecord =>
    refine hnone hrecord (if_neg fun hid : id' = id => hsaves ps ?_)
    exact hid ▸ hsave

/-- A step that saves updates in a registered module writes them. -/
theorem Transition.writes_append (h : Transition s a s') {ps : Updates} (hsaves : s.Saves a id ps)
    (hm : (s.modules.find? id).isSome) : s'.writes id = s.writes id ++ ps := by
  rcases h.saves hsaves with ⟨hnone, -⟩ | ⟨m, m', -, -, -, hrecord⟩
  · rw [hnone] at hm
    cases hm
  · rw [writes_of_record hrecord, List.flatMap_singleton, Event.written, if_pos rfl]

/-- A task saves the first updates of the inbox, or those of a web request. -/
theorem Transition.drains (h : Transition s .task s')
    (hm : (s.modules.find? id).isSome ∨ s.inbox id = [] ∧ s.request id = []) :
    (s.request id ≠ [] ∧ s'.inbox id = s.inbox id ∧
      s'.writes id = s.writes id ++ s.request id) ∨
    (s.request id = [] ∧
      ∃ ws, s.inbox id = ws ++ s'.inbox id ∧ s'.writes id = s.writes id ++ ws) := by
  obtain ⟨t, ht⟩ := h.takes
  have hcons : s.inbox id = t.writes id ++ s'.inbox id := ht.inbox
  by_cases hsaves : ∃ ps, s.Saves .task id ps ∧ ps ≠ []
  · obtain ⟨ps, hsaves, hne⟩ := hsaves
    have hreg : (s.modules.find? id).isSome := by
      refine hm.resolve_right fun ⟨hinbox, hrequest⟩ => hne ?_
      rw [hcons, List.append_eq_nil_iff] at hinbox
      rcases hsaves.writes ht with ⟨hwrites, -⟩ | ⟨-, hreq, -⟩
      · exact hwrites.symm.trans hinbox.1
      · exact hreq.symm.trans hrequest
    have happend := h.writes_append hsaves hreg
    rcases hsaves.writes ht with ⟨hwrites, hnil⟩ | ⟨hwrites, hreq, -⟩
    · exact .inr ⟨hnil, ps, by rw [hcons, hwrites], happend⟩
    · exact .inl ⟨hreq ▸ hne, by rw [hcons, hwrites, List.nil_append], by rw [hreq, happend]⟩
  · have hnil : t.writes id = [] ∧ s.request id = [] := by
      rw [← List.append_eq_nil_iff]
      by_contra hne
      obtain ⟨ps, hps⟩ := Instance.saves_of_writes ht hne
      rcases hps.writes ht with ⟨hwrites, hreq⟩ | ⟨-, hreq, hps'⟩
      · refine hsaves ⟨ps, hps, ?_⟩
        rwa [hwrites, hreq, List.append_nil] at hne
      · exact hsaves ⟨ps, hps, hps'⟩
    refine .inr ⟨hnil.2, [], by rw [hcons, hnil.1], ?_⟩
    rw [List.append_nil]
    by_cases hps : ∃ ps, s.Saves .task id ps
    · -- The updates saved are none.
      obtain ⟨ps, hps⟩ := hps
      have hempty : ps = [] := by_contra fun hne => hsaves ⟨ps, hps, hne⟩
      rcases hm with hm | hm
      · rw [h.writes_append hps hm, hempty, List.append_nil]
      · rcases h.saves hps with ⟨-, -, hrecord⟩ | ⟨m, m', -, -, -, hrecord⟩
        · rw [Instance.writes, hrecord, Instance.writes]
        · rw [writes_of_record hrecord, List.flatMap_singleton, Event.written, if_pos rfl, hempty,
            List.append_nil]
    · exact h.writes_eq fun ps h => hps ⟨ps, h⟩

/-- The updates of the module `id` that the action adds to the inbox. -/
def Action.brings (a : Action) (id : Int32) : Sacs.Updates :=
  match a with
  | .updateProperties id' ps => if id' = id then ps else []
  | .proxyRead msg => msg.passes id
  | _ => []

/-- Any other step saves nothing itself, and adds the updates it posts to the inbox. -/
theorem Transition.fills (h : Transition s a s') (ha : a ≠ .task)
    (hcallback : ∀ ps, a ≠ .callbackUpdateProperties id ps) : s'.writes id = s.writes id ∧
      ∃ ts, Posts s a ts ∧ s'.inbox id = s.inbox id ++ ts.flatMap (·.writes id) := by
  refine ⟨h.writes_eq fun ps hsaves => ?_, ?_⟩
  · rcases hsaves with hsaves | ⟨htask, -⟩
    · cases a with
      | task => exact ha rfl
      | callbackUpdateProperties id' ps' =>
        cases hsaves
        exact hcallback _ rfl
      | _ => cases hsaves
    · exact ha htask
  · obtain ⟨htask, -⟩ | ⟨-, ts, hts, hposts⟩ := h.posts
    · exact absurd htask ha
    · exact ⟨ts, hposts, by rw [Instance.inbox, hts, List.flatMap_append, Instance.inbox]⟩

/-- What is added to the inbox, but by the messages of clients. -/
theorem Transition.inbox (h : Transition s a s') (ha : a ≠ .task)
    (hcallback : ∀ ps, a ≠ .callbackUpdateProperties id ps) (hread : ∀ c msg, a ≠ .read c msg) :
    s'.inbox id = s.inbox id ++ a.brings id := by
  have hone : ∀ t : Task, [t].flatMap (·.writes id) = t.writes id :=
    fun t => List.flatMap_singleton ..
  cases a with
  | updateProperties id' ps =>
    cases h
    exact (List.flatMap_append ..).trans (congrArg _ (hone _))
  | proxyRead msg =>
    cases h with
    | proxyRead _ hjson =>
      refine (List.flatMap_append ..).trans (congrArg _ ((hone _).trans ?_))
      rw [Action.brings, Text.passes, hjson]
      rfl
  | read c msg => exact absurd rfl (hread c msg)
  | task => exact absurd rfl ha
  | _ =>
    obtain ⟨-, ts, hposts, hinbox⟩ := h.fills ha hcallback
    rw [hinbox]
    cases hposts <;> rfl

/-! ## The outbox -/

/-- The properties of the module `id`, if the message is its registration. -/
def Text.added? (msg : Text) (id : Int32) : Option (List Property) :=
  match parse msg with
  | .error _ => none
  | .ok j =>
    match j.type, j.toModule with
    | .moduleAdd, .ok (some m) => if m.id = id then some m.properties else none
    | _, _ => none

/-- The messages for the host that have not left, or not arrived. -/
def Instance.undelivered (s : Instance) : List Text := s.client.getD [] ++ s.msgQueue

/-- The updates of the module `id` that the calls will announce. -/
def toldUpdates (calls : List (Int32 × Updates)) (id : Int32) : Updates :=
  calls.flatMap fun c => if c.1 = id ∧ Announceable c.2 then c.2 else []

/-- The updates of the module `id` to be announced. -/
def Instance.toTell (s : Instance) (id : Int32) : Updates :=
  s.threadLoop.flatMap (·.announces id) ++ toldUpdates s.calls id

/-- The updates of the module `id` for the host, in order. -/
def Instance.outbox (s : Instance) (id : Int32) : Updates :=
  s.undelivered.flatMap (·.updatesOf id) ++ s.toTell id

/-- One thread calls `UpdateProperties` for the module `id`. -/
def Instance.OneCaller (s : Instance) (id : Int32) : Prop :=
  (s.calls.filter fun c => c.1 = id).length ≤ 1

/-- The updates of the module `id` by a call of `UpdateProperties` that will be announced. -/
def Action.calls (a : Action) (id : Int32) : Sacs.Updates :=
  match a with
  | .updateProperties id' ps => if id' = id ∧ Announceable ps then ps else []
  | _ => []

theorem toldUpdates_append (cs cs' : List (Int32 × Updates)) (id : Int32) :
    toldUpdates (cs ++ cs') id = toldUpdates cs id ++ toldUpdates cs' id := List.flatMap_append

/-- A call that is announced is the only one of the module, or it is of another one. -/
theorem Instance.OneCaller.toldUpdates_eraseIdx (h : s.OneCaller id) {i : Nat} {id' : Int32}
    {ps : Updates} (hi : s.calls[i]? = some (id', ps)) :
    (if id' = id ∧ Announceable ps then ps else []) ++ toldUpdates (s.calls.eraseIdx i) id =
      toldUpdates s.calls id := by
  obtain ⟨hlt, hget⟩ := List.getElem?_eq_some_iff.1 hi
  have hcalls : s.calls = s.calls.take i ++ (id', ps) :: s.calls.drop (i + 1) := by
    rw [← hget, List.cons_getElem_drop_succ, List.take_append_drop]
  have hnone : ∀ {cs : List (Int32 × Updates)}, (cs.filter fun c => c.1 = id) = [] →
      toldUpdates cs id = [] := by
    intro cs hcs
    rw [List.filter_eq_nil_iff] at hcs
    rw [toldUpdates, List.flatMap_eq_nil_iff]
    exact fun c hc => if_neg fun hid => hcs c hc (decide_eq_true hid.1)
  rw [List.eraseIdx_eq_take_drop_succ]
  conv_rhs => rw [hcalls]
  rw [toldUpdates_append, toldUpdates_append]
  change _ = _ ++ ((if id' = id ∧ Announceable ps then ps else []) ++ toldUpdates _ id)
  by_cases hid : id' = id
  · -- No other call is of the module.
    have hone := h
    rw [OneCaller, hcalls, List.filter_append, List.filter_cons_of_pos (by simpa using hid),
      List.length_append, List.length_cons] at hone
    rw [hnone (List.length_eq_zero_iff.1 (by omega)), hnone (List.length_eq_zero_iff.1 (by omega)),
      List.append_nil, List.append_nil, List.nil_append]
  · rw [if_neg fun h => hid h.1, List.nil_append, List.nil_append]

/-- What the loop thread announces is what it takes from its queue. -/
theorem Transition.announces_onLoop (h : Transition s a s') (ha : a.onLoop = true)
    (hcallback : ∀ ps, a ≠ .callbackUpdateProperties id ps) :
    s'.calls = s.calls ∧ ∃ msgs, s'.handled = s.handled ++ msgs ∧
      msgs.flatMap (·.updatesOf id) ++ s'.threadLoop.flatMap (·.announces id) =
        s.threadLoop.flatMap (·.announces id) := by
  have htake : ∀ {t q} msgs, Takes s t q → s'.threadLoop = q → s'.calls = s.calls →
      s'.handled = s.handled ++ msgs → msgs.flatMap (·.updatesOf id) = t.announces id →
      s'.calls = s.calls ∧ ∃ msgs, s'.handled = s.handled ++ msgs ∧
        msgs.flatMap (·.updatesOf id) ++ s'.threadLoop.flatMap (·.announces id) =
          s.threadLoop.flatMap (·.announces id) := by
    intro t q msgs ht hq hcalls hhandled hmsgs
    refine ⟨hcalls, msgs, hhandled, ?_⟩
    rw [hmsgs, hq, ht.threadLoop, List.flatMap_cons]
  have hkeep : ∀ msgs, s'.threadLoop = s.threadLoop → s'.calls = s.calls →
      s'.handled = s.handled ++ msgs → msgs.flatMap (·.updatesOf id) = [] →
      s'.calls = s.calls ∧ ∃ msgs, s'.handled = s.handled ++ msgs ∧
        msgs.flatMap (·.updatesOf id) ++ s'.threadLoop.flatMap (·.announces id) =
          s.threadLoop.flatMap (·.announces id) := by
    intro msgs hq hcalls hhandled hmsgs
    refine ⟨hcalls, msgs, hhandled, ?_⟩
    rw [hmsgs, hq, List.nil_append]
  have hone : ∀ {msg : Text}, [msg].flatMap (·.updatesOf id) = msg.updatesOf id := by simp
  have hanswered : ∀ {s₁ : Instance} {w response}, s₁.trace = s.trace ++ [.produced w response] →
      s₁.handled = s.handled ++ [] := fun h => handled_of_trace h
  cases h with
  | taskRole ht => exact htake [] ht rfl rfl (List.append_nil _).symm rfl
  | taskHandle ht h =>
    have he := handleMessage_emits h
    exact htake [_] ht he.threadLoop he.calls ((handled_handleMessage h).trans rfl) hone
  | @taskRegister m promise q msg s₁ ht _ hmsg h =>
    have he := handleMessage_emits h
    refine htake [msg] ht ((fulfil_threadLoop ..).trans he.threadLoop)
      ((fulfil_calls ..).trans he.calls) ?_ (hone.trans (updatesOf_createModuleAdded hmsg id))
    rw [handled_fulfil, handled_handleMessage h, handled_added]
    rfl
  | @taskUnregister i q msg _ ht hmsg h =>
    have he := handleMessage_emits h
    refine htake [msg] ht he.threadLoop he.calls ?_
      (hone.trans (updatesOf_createModuleRemoved hmsg id))
    rw [handled_handleMessage h, handled_removed]
    rfl
  | taskSaveNone ht => exact htake [] ht rfl rfl (List.append_nil _).symm rfl
  | taskSave ht => exact htake [] ht rfl rfl ((handled_saved ..).trans (List.append_nil _).symm) rfl
  | taskOther ht => exact htake [] ht rfl rfl (hanswered rfl) rfl
  | taskLoad ht _ _ h =>
    refine htake [] ht ((answer_threadLoop ..).trans h.threadLoop)
      ((answer_calls ..).trans h.calls) ?_ rfl
    rw [handled_answer, h.handled, List.append_nil]
    rfl
  | taskApply ht _ h =>
    refine htake [] ht ((answer_threadLoop ..).trans h.threadLoop)
      ((answer_calls ..).trans h.calls) ?_ rfl
    rw [handled_answer, h.handled, List.append_nil]
    rfl
  | taskPass ht h =>
    exact htake [] ht h.threadLoop h.calls (h.handled.trans (List.append_nil _).symm) rfl
  | flushed => exact hkeep [] rfl rfl (List.append_nil _).symm rfl
  | flush _ _ h =>
    have he := pushMsg_emits h
    exact hkeep [] he.threadLoop he.calls ((handled_pushMsg h).trans (List.append_nil _).symm) rfl
  | callbackRegister =>
    exact ⟨rfl, [], (List.append_nil _).symm, by simp [Instance.post, Task.announces]⟩
  | @callbackUnregister i request msg _ _ hmsg h =>
    have he := handleMessage_emits h
    refine hkeep [msg] he.threadLoop he.calls ?_
      (hone.trans (updatesOf_createModuleRemoved hmsg id))
    rw [handled_handleMessage h, handled_removed]
    exact congrArg (· ++ [msg]) ((handled_of_trace rfl).trans (List.append_nil _))
  | @callbackUpdate i ps request msg s₁ _ hl hs₁ hmsg h =>
    have he := handleMessage_emits h
    obtain ⟨_, _, hframe⟩ := savePropertiesList_frame hs₁
    have hne : i ≠ id := fun hid => hcallback ps (by rw [hid])
    refine hkeep [msg] (he.threadLoop.trans (by rw [hframe])) (he.calls.trans (by rw [hframe]))
      ?_ (hone.trans ?_)
    · rw [handled_handleMessage h, handled_savePropertiesList hs₁]
    · rw [updatesOf_createPropertyUpdated hmsg, if_neg hne]
  | callbackUpdateThrows _ hs₁ _ =>
    obtain ⟨_, _, hframe⟩ := savePropertiesList_frame hs₁
    exact hkeep [] (by rw [hframe]) (by rw [hframe])
      ((handled_savePropertiesList hs₁).trans (List.append_nil _).symm) rfl
  | callbackReturn => exact hkeep [] rfl rfl (List.append_nil _).symm rfl
  | callbackAnswer => exact hkeep [] rfl rfl (hanswered rfl) rfl
  | _ => simp only [Action.onLoop, Bool.false_eq_true] at ha

/-- A step adds the updates of a call to those to be announced, and announces the others in
    order. -/
theorem Transition.tells (h : Transition s a s') (hcaller : s.OneCaller id)
    (hupdating : ∀ c json, s.handler c ≠ .updating json)
    (hcallback : ∀ ps, a ≠ .callbackUpdateProperties id ps) :
    ∃ msgs, s'.handled = s.handled ++ msgs ∧
      msgs.flatMap (·.updatesOf id) ++ s'.toTell id = s.toTell id ++ a.calls id := by
  cases ha : a.onLoop with
  | true =>
    obtain ⟨hcalls, msgs, hhandled, hmsgs⟩ := h.announces_onLoop ha hcallback
    refine ⟨msgs, hhandled, ?_⟩
    have hnone : a.calls id = [] := by
      cases a with
      | updateProperties => cases ha
      | _ => rfl
    rw [Instance.toTell, hcalls, ← List.append_assoc, hmsgs, hnone, List.append_nil,
      Instance.toTell]
  | false =>
    refine ⟨[], (h.offLoop ha).handled.trans (List.append_nil _).symm, ?_⟩
    rw [List.flatMap_nil, List.nil_append]
    have hpost : ∀ ts : List Task, s'.threadLoop = s.threadLoop ++ ts → s'.calls = s.calls →
        ts.flatMap (·.announces id) = [] → a.calls id = [] →
        s'.toTell id = s.toTell id ++ a.calls id := by
      intro ts hq hcalls hts hnone
      rw [Instance.toTell, hq, hcalls, List.flatMap_append, hts, hnone, List.append_nil,
        List.append_nil, Instance.toTell]
    have hannounce : ∀ {i i' ps ts}, s.calls[i]? = some (i', ps) →
        s'.threadLoop = s.threadLoop ++ ts → s'.calls = s.calls.eraseIdx i →
        ts.flatMap (·.announces id) = (if i' = id ∧ Announceable ps then ps else []) →
        a.calls id = [] → s'.toTell id = s.toTell id ++ a.calls id := by
      intro i i' ps ts hi hq hcalls hts hnone
      rw [Instance.toTell, hq, hcalls, List.flatMap_append, hts, hnone, List.append_nil,
        List.append_assoc, hcaller.toldUpdates_eraseIdx hi, Instance.toTell]
    -- A call of the application is added, or one made before is announced: its updates are
    -- then those of a task.
    cases h <;> simp only [Action.onLoop, reduceCtorEq] at ha
    case updateProperties i ps =>
      have hq : ([.savePropertiesList i ps] : List Task).flatMap (·.announces id) = [] := rfl
      have hcalls : toldUpdates [(i, ps)] id = Action.calls (.updateProperties i ps) id :=
        List.flatMap_singleton ..
      simp only [Instance.toTell, Instance.post, List.flatMap_append, hq, List.append_nil,
        toldUpdates_append, hcalls, List.append_assoc]
    case announce i i' ps msg hi hmsg =>
      refine hannounce hi rfl rfl ((List.flatMap_singleton ..).trans ?_) rfl
      have hps : Announceable ps := createPropertyUpdated_eq_ok_iff.1 ⟨msg, hmsg⟩
      simp only [Task.announces, updatesOf_createPropertyUpdated hmsg, hps, and_true]
    case announceThrows i i' ps hi hps =>
      exact hannounce hi (List.append_nil _).symm rfl (if_neg fun h => hps h.2).symm rfl
    case resumeUpdate hpc _ => exact absurd hpc (hupdating _ _)
    all_goals
      first
      | exact hpost [] (List.append_nil _).symm rfl rfl rfl
      | exact hpost [_] rfl rfl rfl rfl

/-- What is announced is queued for the host. -/
theorem Uplinks.undelivered (h : Uplinks s s') (hs : s.Queues) (hs' : s'.Queues)
    {msgs : List Text} (hhandled : s'.handled = s.handled ++ msgs) :
    s'.undelivered = s.undelivered ++ msgs := by
  obtain ⟨news, hpushed, hclient, hnone⟩ := h
  have hqueue : news ++ s'.msgQueue = s.msgQueue ++ msgs := by
    rw [hs.handled, hs'.handled, hpushed, List.append_assoc, List.append_assoc] at hhandled
    exact List.append_cancel_left hhandled
  rw [Instance.undelivered, Instance.undelivered, hclient]
  cases hc : s.client with
  | none =>
    rw [hnone hc, List.nil_append] at hqueue
    exact hqueue
  | some sent =>
    simp only [Option.map_some, Option.getD_some, List.append_assoc, hqueue]

/-- The updates of a call are added to those for the host. -/
theorem Transition.outbox (h : Transition s a s') (hcaller : s.OneCaller id)
    (hupdating : ∀ c json, s.handler c ≠ .updating json)
    (hcallback : ∀ ps, a ≠ .callbackUpdateProperties id ps) (hu : Uplinks s s') (hs : s.Queues)
    (hs' : s'.Queues) : s'.outbox id = s.outbox id ++ a.calls id := by
  obtain ⟨msgs, hhandled, hmsgs⟩ := h.tells hcaller hupdating hcallback
  rw [Instance.outbox, hu.undelivered hs hs' hhandled, List.flatMap_append, List.append_assoc,
    hmsgs, ← List.append_assoc, Instance.outbox]

/-! ### Registrations -/

theorem added?_createModuleAdded {m : Module} {msg : Text} (h : createModuleAdded m = .ok msg) :
    msg.added? id = if m.id = id then some m.properties else none := by
  obtain ⟨json, hjson, htype, -, hm⟩ := parse_createModuleAdded h
  simp only [Text.added?, hjson, htype, hm]

theorem added?_of_type {msg : Text} {json : JsonMsg} (hjson : parse msg = .ok json)
    (htype : json.type ≠ .moduleAdd) : msg.added? id = none := by
  simp only [Text.added?, hjson]
  split
  · rename_i ht _
    exact absurd ht htype
  · rfl

/-- A registration is announced by the step that makes it, with the properties registered. -/
theorem FeedStep.added (h : FeedStep s s' a) {msgs : List Text}
    (hhandled : s'.handled = s.handled ++ msgs) {msg : Text} (hmsg : msg ∈ msgs)
    (hadded : msg.added? id ≠ none) : ∃ m promise q, a = .task ∧
      Takes s (.doRegisterModule m promise) q ∧ id = s.idCounter ∧ msgs = [msg] ∧
      msg.added? id = some m.properties := by
  have heq : ∀ {msg'}, s'.handled = s.handled ++ [msg'] → msgs = [msg'] ∧ msg = msg' := by
    intro msg' h
    rw [hhandled] at h
    have := List.append_cancel_left h
    rw [this, List.mem_singleton] at hmsg
    exact ⟨this, hmsg⟩
  cases h with
  | keep h =>
    rw [hhandled, List.append_right_eq_self] at h
    rw [h] at hmsg
    cases hmsg
  | update msg' h hupdate =>
    obtain ⟨-, rfl⟩ := heq h
    obtain ⟨json, hjson, htype⟩ := hupdate
    exact absurd (added?_of_type hjson (by rw [htype]; exact MsgType.noConfusion)) hadded
  | @add msg' m promise q ha ht h hadd =>
    obtain ⟨hmsgs, rfl⟩ := heq h
    have hmsg : msg.added? id = _ := added?_createModuleAdded hadd
    rw [hmsg] at hadded
    split_ifs at hmsg hadded with hid
    · exact ⟨m, promise, q, ha, ht, hid.symm, hmsgs, hmsg⟩
    · exact absurd rfl hadded
  | @remove msg' id' h hremove =>
    obtain ⟨-, rfl⟩ := heq h
    obtain ⟨json, hjson, htype, -⟩ := parse_createModuleRemoved hremove
    exact absurd (added?_of_type hjson (by rw [htype]; exact MsgType.noConfusion)) hadded

/-! ## The host -/

/-- Updates that are some are listed in the message. -/
theorem JsonMsg.of_getPropertiesList_ne_nil {json json' : JsonMsg} {ps : Updates}
    (h : json.getPropertiesList = .ok (ps, json')) (hne : ps ≠ []) :
    json' = json ∧ (json.json.find? (Str.lit "properties")).isSome ∧
      (json.type = .propertyUpdate ∨ json.type = .reqApply) := by
  rw [getPropertiesList] at h
  split_ifs at h with ht
  · cases h
    exact absurd rfl hne
  · have htype : json.type = .propertyUpdate ∨ json.type = .reqApply := by tauto
    obtain ⟨⟨v, j⟩, hi, h⟩ := bind_eq_ok.1 h
    obtain ⟨es, hes, h⟩ := bind_eq_ok.1 h
    obtain ⟨us, hus, h⟩ := bind_eq_ok.1 h
    cases h
    rw [Json.index] at hi
    split at hi
    · rename_i hv
      cases hi
      exact ⟨rfl, by rw [hv]; rfl, htype⟩
    · -- The list is `null`, which has no elements.
      obtain ⟨j', -, hi⟩ := map_eq_ok.1 hi
      cases hi
      cases hes
      cases hus
      exact absurd rfl hne

/-- Updates sent on with another id are those of the module with this id. -/
theorem passes_of_setId {json json' json'' : JsonMsg} {ps : Updates} {r : Int32} {msg : Text}
    (hp : json.Parsed) (hps : json.getPropertiesList = .ok (ps, json')) (hne : ps ≠ [])
    (hset : json'.setId r = .ok json'') (hmsg : json''.toString = .ok msg) (id : Int32) :
    msg.passes id = if r = id then ps else [] := by
  obtain ⟨rfl, hsome, htype⟩ := of_getPropertiesList_ne_nil hps hne
  obtain ⟨-, hid, hparsed⟩ := setId_spec hset
  obtain ⟨t, ht, hparse⟩ := (hparsed hp).exists_toString
  cases hmsg.symm.trans ht
  rw [Text.passes, hparse]
  simp only [JsonMsg.passes, hid htype, getPropertiesList_setId hset hps hsome]

/-- The updates the host saves for a message are those of the message. -/
theorem updatesOf_of_setId {json json' json'' : JsonMsg} {ps : Updates} {r i : Int32} {msg : Text}
    (hjson : parse msg = .ok json) (htype : json.type = .propertyUpdate)
    (hid : json.findId = .ok r) (hset : json.setId i = .ok json')
    (hps : json'.getPropertiesList = .ok (ps, json'')) (id : Int32) :
    msg.updatesOf id = if r = id then ps else [] := by
  obtain ⟨j, hj, rfl⟩ := map_eq_ok.1 hset
  have hfind : j.find? (Str.lit "properties") = json.json.find? (Str.lit "properties") := by
    rw [find?_assign hj, if_neg (by decide)]
  simp only [Text.updatesOf, hjson, htype, hid]
  cases hv : json.json.find? (Str.lit "properties") with
  | some v =>
    simp only [getPropertiesList, Json.index, hfind, hv, htype, bind_ok] at hps ⊢
    rw [if_neg (by decide)] at hps ⊢
    obtain ⟨es, hes, hps⟩ := bind_eq_ok.1 hps
    obtain ⟨us, hus, hps⟩ := bind_eq_ok.1 hps
    cases hps
    simp only [hes, hus, bind_ok, pure_eq_ok]
  | none =>
    -- No updates are listed.
    have hnil : ∀ {msg : JsonMsg} {qs msg'}, msg.getPropertiesList = .ok (qs, msg') →
        msg.json.find? (Str.lit "properties") = none → qs = [] := by
      intro msg qs msg' h hnone
      by_contra hne
      obtain ⟨-, hsome, -⟩ := of_getPropertiesList_ne_nil h hne
      rw [hnone] at hsome
      cases hsome
    rw [hnil hps (hfind.trans hv)]
    cases hqs : json.getPropertiesList with
    | error e => simp
    | ok x =>
      obtain ⟨qs, json₁⟩ := x
      simp [hnil hqs hv]

/-- An update is no change of the modules. -/
theorem change?_of_updatesOf_ne_nil {msg : Text} (h : msg.updatesOf id ≠ []) :
    msg.change? = none := by
  rw [Text.updatesOf] at h
  rw [Text.change?]
  cases hjson : parse msg with
  | error => rfl
  | ok j =>
    simp only [hjson] at h ⊢
    split at h
    · rename_i htype _ _
      simp only [htype]
    · exact absurd rfl h

/-- The messages of a client are read one after the other. -/
theorem Transition.idle_of_read {c : ClientId} {msg : Text} (h : Transition s (.read c msg) s') :
    s.handler c = .idle := by
  cases h <;> assumption

/-- Reading a message brings its updates to the image looked up. -/
theorem Transition.reads_updates {c : ClientId} {msg : Text} (h : Transition s (.read c msg) s') :
    ∃ r ps, (∀ id, msg.updatesOf id = if r = id then ps else []) ∧
      ∀ id, s'.inbox id = s.inbox id ++
        if ProxyServer.localIdFromRemote s r c = id then ps else [] := by
  have hnone : ∀ {json : JsonMsg}, parse msg = .ok json → json.type ≠ .propertyUpdate →
      (∀ id, s'.inbox id = s.inbox id) →
      ∃ r ps, (∀ id, msg.updatesOf id = if r = id then ps else []) ∧
        ∀ id, s'.inbox id = s.inbox id ++
          if ProxyServer.localIdFromRemote s r c = id then ps else [] := by
    intro json hjson htype hinbox
    refine ⟨0, [], fun id => ?_, fun id => by rw [hinbox, ite_self, List.append_nil]⟩
    rw [ite_self]
    simp only [Text.updatesOf, hjson]
    split
    · rename_i ht _ _
      exact absurd ht htype
    · rfl
  have hpost : ∀ t : Task, s'.threadLoop = s.threadLoop ++ [t] →
      ∀ id, s'.inbox id = s.inbox id ++ t.writes id := by
    intro t ht id
    rw [Instance.inbox, ht, List.flatMap_append, List.flatMap_singleton, Instance.inbox]
  cases h with
  | readNothing _ _ hjson htype => exact hnone hjson htype.2.2 fun _ => rfl
  | readAdd _ _ hjson htype _ =>
    refine hnone hjson (by rw [htype]; exact MsgType.noConfusion) fun id => ?_
    exact (hpost _ rfl id).trans (List.append_nil _)
  | readDel _ _ hjson htype _ =>
    refine hnone hjson (by rw [htype]; exact MsgType.noConfusion) fun id => ?_
    exact (hpost _ rfl id).trans (List.append_nil _)
  | readUpdate _ _ hjson htype hid hset hps =>
    exact ⟨_, _, updatesOf_of_setId hjson htype hid hset hps, hpost _ rfl⟩

variable {c : ClientId} {out : List Text}

/-- What a host knows of the tasks of its web clients, and that it has no others that pass
    updates. -/
structure Instance.Serving (s : Instance) : Prop where
  client : s.client = none
  parsed : ∀ {json w}, .doProcessJSRequest json w ∈ s.threadLoop → json.Parsed
  passes : ∀ {json}, .passPropertyUpdateToModule json ∉ s.threadLoop

/-- The updates passed to a module linked to a client are sent to it, and no others. -/
theorem Passes.sends_updates {json : JsonMsg} (h : Passes s json s') (hp : json.Parsed)
    (hc : s.clients c = some out) (hne : c ≠ ProxyServer.noClient) (r : Int32) :
    ∃ msgs, s'.clients c = some (out ++ msgs) ∧
      ((∀ id, s.remoteModules.find? id ≠ some (r, c)) → msgs.flatMap (·.passes r) = []) ∧
      ∀ id, s.remoteModules.find? id = some (r, c) →
        (∀ id', s.remoteModules.find? id' = some (r, c) → id' = id) →
        (∃ m, s.modules.find? id = some m ∧ m.callback = none) →
        msgs.flatMap (·.passes r) = json.passes id := by
  -- Nothing is sent, and nothing was to be.
  have hkeep : s'.clients c = s.clients c →
      (∀ id, s.remoteModules.find? id = some (r, c) →
        (∃ m, s.modules.find? id = some m ∧ m.callback = none) → json.passes id = []) →
      ∃ msgs, s'.clients c = some (out ++ msgs) ∧
        ((∀ id, s.remoteModules.find? id ≠ some (r, c)) → msgs.flatMap (·.passes r) = []) ∧
        ∀ id, s.remoteModules.find? id = some (r, c) →
          (∀ id', s.remoteModules.find? id' = some (r, c) → id' = id) →
          (∃ m, s.modules.find? id = some m ∧ m.callback = none) →
          msgs.flatMap (·.passes r) = json.passes id := fun h hnil =>
    ⟨[], by rw [h, hc, List.append_nil], fun _ => rfl, fun id himage _ hm =>
      (hnil id himage hm).symm⟩
  have hother : ∀ {id' ps json'}, json.findId = .ok id' →
      json.getPropertiesList = .ok (ps, json') →
      (∀ id, s.remoteModules.find? id = some (r, c) →
        (∃ m, s.modules.find? id = some m ∧ m.callback = none) → id' ≠ id) →
      ∀ id, s.remoteModules.find? id = some (r, c) →
        (∃ m, s.modules.find? id = some m ∧ m.callback = none) → json.passes id = [] := by
    intro id' ps json' hid hps hne id himage hm
    rw [JsonMsg.passes, hid, hps]
    exact if_neg (hne id himage hm)
  cases h with
  | @nothing id' hid hnil =>
    refine hkeep rfl fun id himage ⟨m, hm, _⟩ => ?_
    by_contra hne
    obtain ⟨json', hid', hps⟩ := of_passes_ne_nil hne
    cases hid.symm.trans hid'
    obtain ⟨json'', hnil⟩ := hnil m hm
    exact hne (congrArg Prod.fst (Except.ok.inj (hps.symm.trans hnil)))
  | unrouted hid hm hps _ _ _ _ hnone =>
    refine hkeep rfl (hother hid hps fun id himage _ he => ?_)
    rw [he, ProxyServer.remoteIdFromLocal, himage, Option.getD_some, hc] at hnone
    cases hnone
  | invoked hid hm hps _ _ hcb =>
    refine hkeep rfl (hother hid hps fun id himage ⟨m, hm', hcb'⟩ he => ?_)
    rw [he, hm'] at hm
    cases hm
    cases hcb.symm.trans hcb'
  | @sent id' m m' ps json' json'' out' msg hid hm hps hps' _ _ _ hout hset hmsg =>
    have hpasses := passes_of_setId hp hps hps' hset hmsg
    by_cases hremote : (ProxyServer.remoteIdFromLocal s id').2 = c
    · -- A client that is connected is not the one of what is no image.
      obtain ⟨x, hx⟩ : ∃ x, s.remoteModules.find? id' = some x := by
        rw [← Option.ne_none_iff_exists']
        intro hnone
        rw [ProxyServer.remoteIdFromLocal, hnone] at hremote
        exact hne hremote.symm
      have hx' : ProxyServer.remoteIdFromLocal s id' = x := by
        rw [ProxyServer.remoteIdFromLocal, hx, Option.getD_some]
      rw [hx'] at hremote hpasses hout
      obtain ⟨r', c'⟩ := x
      cases hremote
      cases hc.symm.trans hout
      have hsent : ([msg]).flatMap (·.passes r) = if r' = r then ps else [] :=
        (List.flatMap_singleton ..).trans (hpasses r)
      refine ⟨[msg], ?_, fun hnone => hsent.trans (if_neg ?_), fun id himage hinj hm => ?_⟩
      · rw [hx']
        exact Function.update_self ..
      · rintro rfl
        exact hnone id' hx
      · rw [hsent]
        by_cases hr : r' = r
        · rw [if_pos hr, ← hinj id' (hr ▸ hx), passes_eq hid hps]
        · rw [if_neg hr, JsonMsg.passes, hid, hps]
          refine (if_neg ?_).symm
          rintro rfl
          rw [hx] at himage
          cases himage
          exact hr rfl
    · refine hkeep (Function.update_of_ne (Ne.symm hremote) ..)
        (hother hid hps fun id himage _ he => hremote ?_)
      rw [he, ProxyServer.remoteIdFromLocal, himage, Option.getD_some]

/-- The updates of a request are sent to the client that the module is linked to. -/
theorem Transition.sends_updates (h : Transition s .task s') (hs : s.Serving)
    (hc : s.clients c = some out) (hne : c ≠ ProxyServer.noClient) (r : Int32) :
    ∃ msgs, s'.clients c = some (out ++ msgs) ∧
      ((∀ id, s.remoteModules.find? id ≠ some (r, c)) → msgs.flatMap (·.passes r) = []) ∧
      ∀ id, s.remoteModules.find? id = some (r, c) →
        (∀ id', s.remoteModules.find? id' = some (r, c) → id' = id) →
        (∃ m, s.modules.find? id = some m ∧ m.callback = none) →
        msgs.flatMap (·.passes r) = s.request id := by
  have hkeep : s'.clients = s.clients → (∀ id, s.request id = []) →
      ∃ msgs, s'.clients c = some (out ++ msgs) ∧
        ((∀ id, s.remoteModules.find? id ≠ some (r, c)) → msgs.flatMap (·.passes r) = []) ∧
        ∀ id, s.remoteModules.find? id = some (r, c) →
          (∀ id', s.remoteModules.find? id' = some (r, c) → id' = id) →
          (∃ m, s.modules.find? id = some m ∧ m.callback = none) →
          msgs.flatMap (·.passes r) = s.request id := fun hclients hnil =>
    ⟨[], by rw [hclients, hc, List.append_nil], fun _ => rfl, fun id _ _ _ => (hnil id).symm⟩
  have hnone : ∀ {t q}, Takes s t q → (∀ json w, t ≠ .doProcessJSRequest json w) →
      ∀ id, s.request id = [] := by
    intro t q ht hne id
    rw [Instance.request, ht.idle, ht.threadLoop]
    cases t with
    | doProcessJSRequest json w => exact absurd rfl (hne json w)
    | _ => rfl
  have hpass : ∀ {json w q s₁}, Takes s (.doProcessJSRequest json w) q →
      Passes { s with threadLoop := q } json s₁ → s'.clients = s₁.clients →
      (∀ id, s.request id = json.passes id) →
      ∃ msgs, s'.clients c = some (out ++ msgs) ∧
        ((∀ id, s.remoteModules.find? id ≠ some (r, c)) → msgs.flatMap (·.passes r) = []) ∧
        ∀ id, s.remoteModules.find? id = some (r, c) →
          (∀ id', s.remoteModules.find? id' = some (r, c) → id' = id) →
          (∃ m, s.modules.find? id = some m ∧ m.callback = none) →
          msgs.flatMap (·.passes r) = s.request id := by
    intro json w q s₁ ht h hclients hrequest
    have hp : json.Parsed := hs.parsed (ht.threadLoop ▸ List.mem_cons_self)
    obtain ⟨msgs, hsent, hnoImage, himage⟩ := h.sends_updates hp hc hne r
    refine ⟨msgs, hclients ▸ hsent, hnoImage, fun id h₁ h₂ h₃ => ?_⟩
    rw [hrequest]
    exact himage id h₁ h₂ h₃
  have hanswer : ∀ (s₁ : Instance) w response, (answer s₁ w response).clients = s₁.clients := by
    intro s₁ w response
    obtain ⟨_, _, _, hf⟩ := answer_frame s₁ w response
    rw [hf]
  -- Only requests of web clients pass on updates, and those that ask for the modules have
  -- none.
  cases h with
  | taskRole ht => exact hkeep rfl (hnone ht (by simp))
  | taskHandle ht h => exact hkeep (handleMessage_emits h).clients (hnone ht (by simp))
  | @taskRegister m promise q msg s₁ ht _ _ h =>
    refine hkeep ?_ (hnone ht (by simp))
    obtain ⟨_, _, hfulfil⟩ := fulfil_frame s₁ promise s.idCounter
    rw [hfulfil]
    exact (handleMessage_emits h).clients
  | taskUnregister ht _ h => exact hkeep (handleMessage_emits h).clients (hnone ht (by simp))
  | taskSaveNone ht => exact hkeep rfl (hnone ht (by simp))
  | taskSave ht => exact hkeep rfl (hnone ht (by simp))
  | taskOther ht _ htype =>
    refine hkeep rfl fun id => ?_
    rw [Instance.request, ht.idle, ht.threadLoop]
    exact if_neg htype
  | @taskLoad json w q _ _ ht htype _ h =>
    refine hpass ht h (hanswer ..) fun id => ?_
    have hload : json.passes id = [] := by
      by_contra hps
      obtain ⟨json', -, hlist⟩ := of_passes_ne_nil hps
      obtain ⟨-, -, ht' | ht'⟩ := of_getPropertiesList_ne_nil hlist hps <;>
        cases htype.symm.trans ht'
    rw [Instance.request, ht.idle, ht.threadLoop, hload]
    refine if_neg ?_
    rw [htype]
    exact MsgType.noConfusion
  | taskApply ht htype h =>
    refine hpass ht h (hanswer ..) fun id => ?_
    rw [Instance.request, ht.idle, ht.threadLoop]
    exact if_pos htype
  | taskPass ht => exact absurd (ht.threadLoop ▸ List.mem_cons_self) hs.passes

theorem Instance.Serving.step (hs : s.Serving) (h : Transition s a s')
    (ha : a ≠ .connecting true) : s'.Serving where
  client := by
    cases h.role with
    | keep hsame =>
      rw [← Option.not_isSome_iff_eq_none, hsame.client, hs.client]
      exact Bool.false_ne_true
    | tell _ _ hs' => exact hs' ▸ hs.client
    | connect _ ha' => exact absurd ha' ha
    | serve _ _ hs' => exact hs' ▸ hs.client
  parsed := by
    intro json w hmem
    refine h.forall_tasks (P := fun t => ∀ json w, t = .doProcessJSRequest json w → json.Parsed)
      (Q := fun t => ∀ json w, t = .doProcessJSRequest json w → json.Parsed)
      (fun t ht json w e => hs.parsed (e ▸ ht)) (fun _ => id) (fun ts hts => ?_) _ hmem json w rfl
    cases hts with
    | wsRequest _ hjson hvalid =>
      rintro t ht json w rfl
      cases List.mem_singleton.1 ht
      exact parsed_of_isValid hjson hvalid
    | _ => simp
  passes := by
    intro json hmem
    refine h.forall_tasks (P := fun t => ∀ json, t ≠ .passPropertyUpdateToModule json)
      (Q := fun t => ∀ json, t ≠ .passPropertyUpdateToModule json)
      (fun t ht json e => hs.passes (e ▸ ht)) (fun _ => id) (fun ts hts => ?_) _ hmem json rfl
    cases hts with
    | proxyRead hclient =>
      rw [hs.client] at hclient
      cases hclient
    | _ => simp

end Sacs
