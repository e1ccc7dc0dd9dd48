import Sacs.Registry

/-!
# Module callbacks

A module callback runs on the loop thread, in the task passing it an update. It
may call the API.

* `RegisterModule` waits for a task of the loop, also when called on the loop
  thread: a run deadlocks if, and only if, a callback calls it
  (`deadlocked_iff`, `never_deadlocked_iff`). The other functions are run at
  once on the loop thread.
* `UnregisterModule` only posts a task when called by an application thread: the
  callback of the module is not called any more if no task before it in the
  queue does (`silent_after_unregister`).
-/

namespace Sacs

open JsonMsg ModuleManager

/-! ## Waiting for oneself -/

/-- The loop thread waits for a future which only a task in its own queue can
    make ready. -/
def Instance.Deadlocked (s : Instance) : Prop :=
  ∃ request m, s.loop = .waiting request ∧ Task.doRegisterModule m .callback ∈ s.threadLoop

/-- A deadlock is final. -/
theorem Instance.Deadlocked.step {s s' : Instance} {a : Action} (hs : s.Deadlocked)
    (h : Transition s a s') : s'.Deadlocked := by
  obtain ⟨request, m, hloop, hm⟩ := hs
  have ha : a.onLoop = false := by
    by_contra ha
    exact h.not_waiting (by simpa using ha) request hloop
  have hoff := h.offLoop ha
  obtain ⟨ts, hts⟩ := hoff.threadLoop
  refine ⟨request, m, hoff.loop.trans hloop, ?_⟩
  rw [hts]
  exact List.mem_append_left _ hm

/-- A step deadlocks only by a callback registering a module, which does. -/
theorem Transition.deadlocked_iff {s s' : Instance} {a : Action} (h : Transition s a s')
    (hs : ∀ request, s.loop = .waiting request → s.Deadlocked) :
    (s'.Deadlocked ↔ s.Deadlocked ∨ ∃ n ps cb, a = .callbackRegisterModule n ps cb) ∧
      ∀ request, s'.loop = .waiting request → s'.Deadlocked := by
  have hregister : (∃ n ps cb, a = .callbackRegisterModule n ps cb) → s'.Deadlocked := by
    rintro ⟨n, ps, cb, rfl⟩
    cases h with
    | callbackRegister => exact ⟨_, _, rfl, List.mem_append_right _ (List.mem_singleton_self _)⟩
  have hwait : ∀ request, s'.loop = .waiting request →
      s.Deadlocked ∨ ∃ n ps cb, a = .callbackRegisterModule n ps cb := by
    intro request hw
    by_cases ha : a.onLoop = true
    · exact .inr (h.waits ha hw)
    · rw [(h.offLoop (by simpa using ha)).loop] at hw
      exact .inl (hs request hw)
  have himp : s.Deadlocked ∨ (∃ n ps cb, a = .callbackRegisterModule n ps cb) → s'.Deadlocked :=
    fun hor => hor.elim (fun hd => hd.step h) hregister
  exact ⟨⟨fun ⟨request, _, hw, _⟩ => hwait request hw, himp⟩,
    fun request hw => himp (hwait request hw)⟩

/-- A run is in a deadlock exactly if a callback has called `RegisterModule`. -/
theorem deadlocked_iff {as : List Action} {s : Instance} (h : Instance.Runs as s) :
    s.Deadlocked ↔ ∃ n ps cb, Action.callbackRegisterModule n ps cb ∈ as := by
  suffices H : (s.Deadlocked ↔ ∃ n ps cb, Action.callbackRegisterModule n ps cb ∈ as) ∧
      ∀ request, s.loop = .waiting request → s.Deadlocked from H.1
  induction h with
  | nil => exact ⟨⟨fun ⟨_, _, hw, _⟩ => LoopPc.noConfusion hw, by simp⟩,
      fun _ hw => LoopPc.noConfusion hw⟩
  | snoc _ hst ih =>
    have := (transition_of_step hst).deadlocked_iff ih.2
    refine ⟨this.1.trans ?_, this.2⟩
    rw [ih.1]
    simp only [List.mem_append, List.mem_singleton, exists_or, eq_comm]

/-- The API can be called in callbacks without ever deadlocking exactly in the
    runs in which no callback calls `RegisterModule`. -/
theorem never_deadlocked_iff {as : List Action} {s : Instance} (h : Instance.Runs as s) :
    (∀ bs t, bs <+: as → Instance.Runs bs t → ¬t.Deadlocked) ↔
      ∀ n ps cb, Action.callbackRegisterModule n ps cb ∉ as := by
  constructor
  · intro hall n ps cb hmem
    exact hall as s List.prefix_rfl h ((deadlocked_iff h).2 ⟨n, ps, cb, hmem⟩)
  · intro hnone bs t hbs ht hd
    obtain ⟨n, ps, cb, hmem⟩ := (deadlocked_iff ht).1 hd
    exact hnone n ps cb (hbs.subset hmem)

/-- The request of a web client whose user activates the first property of the
    module `0`. -/
def activate : Text := .json (applyRequest 0 [(0, [])]) (by decide +kernel)

/-- The instance is the host, its application registers a module, with the id `0`,
    and a web client activates the property of the module. -/
def activation : List Action :=
  [.connecting false, .task, .flush,
    .registerModule (Str.lit "Main") [⟨0, Str.lit "Create", [], false⟩] (some 0), .task,
    .wsConnected 0, .wsMessage 0 ⟨activate, false⟩]

/-- The callback of the module registers another one: a deadlock. -/
theorem deadlocked_of_register : ∃ s, Instance.Runs (activation ++
    [.task, .callbackRegisterModule (Str.lit "Temporary") [] none]) s ∧ s.Deadlocked := by
  obtain ⟨s, h, -⟩ := Instance.exists_runs (activation ++
    [.task, .callbackRegisterModule (Str.lit "Temporary") [] none]) (fun _ => ()) () (by
      decide +kernel)
  exact ⟨s, h, (deadlocked_iff h).2 ⟨_, _, _, List.mem_append_right _ (.tail _ (.head _))⟩⟩

/-- A callback that updates and unregisters its module returns. -/
theorem never_deadlocked_of_unregister : ∃ s, Instance.Runs (activation ++
    [.task, .callbackUpdateProperties 0 [(0, [])], .callbackUnregisterModule 0, .callbackReturn])
      s ∧
      ∀ bs t, bs <+: activation ++ [.task, .callbackUpdateProperties 0 [(0, [])],
        .callbackUnregisterModule 0, .callbackReturn] → Instance.Runs bs t → ¬t.Deadlocked := by
  obtain ⟨s, h, -⟩ := Instance.exists_runs (activation ++
    [.task, .callbackUpdateProperties 0 [(0, [])], .callbackUnregisterModule 0, .callbackReturn])
    (fun _ => ()) () (by decide +kernel)
  exact ⟨s, h, (never_deadlocked_iff h).2 (by simp [activation])⟩

/-! ## Callbacks of unregistered modules -/

/-- The message whose updates the task passes to a module, if it does so. -/
def Task.passed? : Task → Option JsonMsg
  | .doProcessJSRequest json _ => if json.type = .reqApply then some json else none
  | .passPropertyUpdateToModule json => some json
  | _ => none

/-- The task passes updates to the module `m`, registered as `id`. -/
def Task.Updates (t : Task) (id : Int32) (m : Module) : Prop :=
  ∃ json ps json', t.passed? = some json ∧ json.findId = .ok id ∧
    json.getPropertiesList = .ok (ps, json') ∧ ps ≠ [] ∧ ∃ m', m.save ps = .ok m'

/-- A task of the queue is going to call the callback of the module: it passes an
    update to it, and no task before it unregisters it. -/
def Instance.WillInvoke (s : Instance) (id : Int32) : Prop :=
  ∃ m callback before t after, s.modules.find? id = some m ∧ m.callback = some callback ∧
    s.threadLoop = before ++ t :: after ∧ t.Updates id m ∧ Task.unregisterModule id ∉ before

theorem Task.Updates.congr {t : Task} {id : Int32} {m m' : Module} (h : m.Saved m')
    (ht : t.Updates id m') : t.Updates id m := by
  obtain ⟨json, ps, json', hp, hid, hps, hne, hsave⟩ := ht
  exact ⟨json, ps, json', hp, hid, hps, hne, Module.exists_save_congr h.length_eq.symm hsave⟩

def Event.invocation? : Event → Option Invocation
  | .invoked inv => some inv
  | _ => none

/-- The calls of module callbacks so far. -/
def Instance.invocations (s : Instance) : List Invocation :=
  s.trace.filterMap Event.invocation?

theorem Emits.invocations {s s' : Instance} (h : Emits s s') : s'.invocations = s.invocations := by
  obtain ⟨es, hes, hout⟩ := h.trace
  have : es.filterMap Event.invocation? = [] := List.filterMap_eq_nil_iff.2 fun e he => by
    have := hout e he
    cases e <;> simp_all [Event.IsOutput, Event.invocation?]
  rw [Instance.invocations, hes, List.filterMap_append, this, List.append_nil]
  rfl

@[simp] theorem invocations_answer (s : Instance) (w : ClientId) (response : Text) :
    (answer s w response).invocations = s.invocations := by
  rw [answer]
  split <;> simp [Instance.invocations, respond, Event.invocation?]

/-- The module whose callback is called when an update is passed. -/
theorem Passes.invocations {s s' : Instance} {json : JsonMsg} (h : Passes s json s') :
    s'.invocations = s.invocations ∨
      ∃ inv m callback ps json' m', s'.invocations = s.invocations ++ [inv] ∧
        json.findId = .ok inv.moduleId ∧ s.modules.find? inv.moduleId = some m ∧
        m.callback = some callback ∧ json.getPropertiesList = .ok (ps, json') ∧ ps ≠ [] ∧
        m.save ps = .ok m' := by
  cases h with
  | nothing => exact .inl rfl
  | unrouted => exact .inl (by simp [Instance.invocations, Instance.saved, Event.invocation?])
  | sent => exact .inl (by simp [Instance.invocations, Instance.saved, Event.invocation?])
  | @invoked id m m' ps json' callback hid hm hps hne hm' hcb =>
    refine .inr ⟨⟨callback, id, ps.map Prod.fst, ps.map fun p => p.2.cString⟩, m, callback, ps,
      json', m', ?_, hid, hm, hcb, hps, hne, hm'⟩
    simp only [Instance.invocations, Instance.saved, invoke, Instance.log, List.filterMap_append,
      List.append_assoc]
    rfl

/-- A callback is called by the task passing the update, for a module that is
    registered. -/
theorem Transition.invocations {s s' : Instance} {a : Action} (h : Transition s a s') :
    s'.invocations = s.invocations ∨
      ∃ inv m callback t, s'.invocations = s.invocations ++ [inv] ∧
        s.modules.find? inv.moduleId = some m ∧ m.callback = some callback ∧
        Takes s t s'.threadLoop ∧ t.Updates inv.moduleId m := by
  cases h with
  | taskHandle _ h => exact .inl (handleMessage_emits h).invocations
  | taskRegister _ _ _ h =>
    have := (handleMessage_emits h).invocations
    simp only [Instance.invocations, fulfil_trace] at this ⊢
    exact .inl (by simp [this, Instance.added, Event.invocation?])
  | taskUnregister _ _ h =>
    refine .inl ((handleMessage_emits h).invocations.trans ?_)
    simp [Instance.invocations, Instance.removed, Event.invocation?]
  | taskLoad ht htype _ h =>
    -- A load request has no updates: nothing is passed.
    obtain h | ⟨inv, m, cb, ps, json', m', -, -, -, -, hps, hne, -⟩ := h.invocations
    · exact .inl ((invocations_answer ..).trans h)
    · rw [getPropertiesList, htype, if_pos (by decide)] at hps
      cases hps
      exact absurd rfl hne
  | @taskApply json w _ _ ht htype h =>
    obtain hinv | ⟨inv, m, cb, ps, json', m', hinv, hid, hm, hcb, hps, hne, hm'⟩ := h.invocations
    · exact .inl ((invocations_answer ..).trans hinv)
    · refine .inr ⟨inv, m, cb, .doProcessJSRequest json w, (invocations_answer ..).trans hinv, hm,
        hcb, ?_,
        json, ps, json', if_pos htype, hid, hps, hne, m', hm'⟩
      rwa [answer_threadLoop, h.threadLoop]
  | @taskPass json _ _ ht h =>
    obtain hinv | ⟨inv, m, cb, ps, json', m', hinv, hid, hm, hcb, hps, hne, hm'⟩ := h.invocations
    · exact .inl hinv
    · refine .inr ⟨inv, m, cb, .passPropertyUpdateToModule json, hinv, hm, hcb, ?_, json, ps,
        json', rfl, hid, hps, hne, m', hm'⟩
      rwa [h.threadLoop]
  | flush _ _ h => exact .inl (pushMsg_emits h).invocations
  | callbackUnregister _ _ h =>
    refine .inl ((handleMessage_emits h).invocations.trans ?_)
    simp [Instance.invocations, Instance.removed, Instance.log, Event.invocation?]
  | callbackUpdate _ hs _ h =>
    refine .inl ((handleMessage_emits h).invocations.trans ?_)
    obtain ⟨-, rfl⟩ | ⟨m, m', hm, hm', rfl⟩ := savePropertiesList_cases hs
    · rfl
    · simp [Instance.invocations, Instance.saved, Event.invocation?]
  | callbackUpdateThrows _ hs _ =>
    obtain ⟨-, rfl⟩ | ⟨m, m', hm, hm', rfl⟩ := savePropertiesList_cases hs
    · exact .inl rfl
    · exact .inl (by simp [Instance.invocations, Instance.saved, Event.invocation?])
  | taskSave => exact .inl (by simp [Instance.invocations, Instance.saved, Event.invocation?])
  | taskOther => exact .inl (by simp [Instance.invocations, respond, Event.invocation?])
  | callbackAnswer => exact .inl (by simp [Instance.invocations, respond, Event.invocation?])
  | unregisterModule =>
    exact .inl (by simp [Instance.invocations, Instance.log, Instance.post, Event.invocation?])
  | wsNotJson =>
    exact .inl (by
      simp [Instance.invocations, ServerImpl.send, Instance.log, Event.invocation?])
  | _ => exact .inl rfl

/-- The callback of the module `id` is not going to be called: the module is not
    registered any more, or has no callback, or is unregistered by a task before
    which no other updates it. -/
def Instance.Silenced (s : Instance) (id : Int32) : Prop :=
  id < s.idCounter ∧ ∀ m, s.modules.find? id = some m → m.callback.isSome →
    ∃ before after, s.threadLoop = before ++ .unregisterModule id :: after ∧
      ∀ t ∈ before, ¬t.Updates id m

/-- Posting the unregistration of a module silences it, unless a task already in
    the queue is going to call its callback. -/
theorem Instance.silenced_of_post {s : Instance} {id : Int32} (hid : id < s.idCounter)
    (hno : ¬s.WillInvoke id) :
    Instance.Silenced ((s.log (.unregister id)).post (.unregisterModule id)) id := by
  refine ⟨hid, fun m hm hcb => ?_⟩
  obtain ⟨callback, hcb⟩ := Option.isSome_iff_exists.1 hcb
  by_cases hmem : Task.unregisterModule id ∈ s.threadLoop
  · -- The first task unregistering the module is in the queue already.
    obtain ⟨before, after, hq, hbefore⟩ := List.eq_append_cons_of_mem hmem
    refine ⟨before, after ++ [.unregisterModule id], by simp [post, log, hq],
      fun t ht hup => hno ?_⟩
    obtain ⟨before₁, before₂, rfl⟩ := List.append_of_mem ht
    exact ⟨m, callback, before₁, t, before₂ ++ .unregisterModule id :: after, hm, hcb,
      by simp [hq], hup, fun h => hbefore (List.mem_append_left _ h)⟩
  · refine ⟨s.threadLoop, [], rfl, fun t ht hup => hno ?_⟩
    obtain ⟨before, after, hq⟩ := List.append_of_mem ht
    exact ⟨m, callback, before, t, after, hm, hcb, hq, hup, fun h => hmem (by simp [hq, h])⟩

/-- A silenced module stays so, and its callback is not called. -/
theorem Instance.Silenced.step {s s' : Instance} {a : Action} {id : Int32} (hs : s.Silenced id)
    (h : Transition s a s') :
    s'.Silenced id ∧ ∃ invs, s'.invocations = s.invocations ++ invs ∧
      ∀ inv ∈ invs, inv.moduleId ≠ id := by
  obtain ⟨hid, hq⟩ := hs
  have hreg := h.registry
  refine ⟨⟨hid.trans_le hreg.counter_le, fun m' hm' hcb' => ?_⟩, ?_⟩
  · obtain ⟨m, hm, hsaved⟩ := hreg.saved_of_lt hid hm'
    obtain ⟨before, after, hbefore, hup⟩ := hq m hm (hsaved.callback ▸ hcb')
    obtain ⟨rfl, t, ht⟩ | ⟨-, ts, hts⟩ := h.threadLoop
    · -- The head of the queue is taken: it is not the one unregistering the module.
      rcases before with - | ⟨u, before⟩
      · have hq' := ht.threadLoop.symm.trans hbefore
        cases (List.cons.inj hq').1
        rw [h.unregisters ht, OrdMap.find?_erase, if_pos rfl] at hm'
        cases hm'
      · have hq' := ht.threadLoop.symm.trans hbefore
        exact ⟨before, after, (List.cons.inj hq').2, fun t ht hup' =>
          hup t (List.mem_cons_of_mem _ ht) (hup'.congr hsaved)⟩
    · exact ⟨before, after ++ ts, by simp [hts, hbefore], fun t ht hup' =>
        hup t ht (hup'.congr hsaved)⟩
  · obtain hinv | ⟨inv, m, callback, t, hinv, hm, hcb, ht, hup⟩ := h.invocations
    · exact ⟨[], by rw [hinv, List.append_nil], by simp⟩
    · refine ⟨[inv], hinv, fun inv' hmem hinvid => ?_⟩
      rw [List.mem_singleton] at hmem
      subst hmem hinvid
      -- The task calling the callback is the head of the queue.
      obtain ⟨before, after, hbefore, hnot⟩ := hq m hm (by simp [hcb])
      have hq' := ht.threadLoop.symm.trans hbefore
      rcases before with - | ⟨u, before⟩
      · cases (List.cons.inj hq').1
        obtain ⟨json, _, _, hjson, _⟩ := hup
        cases hjson
      · cases (List.cons.inj hq').1
        exact hnot t List.mem_cons_self hup

/-- After a call of `UnregisterModule`, in any state and for an id that has been
    given, the callback of the module is not called any more, unless a task that
    was already in the queue is going to call it. -/
theorem silent_after_unregister {bs : List Action} {s t : Instance} {id : Int32}
    (hid : id < s.idCounter) (hno : ¬s.WillInvoke id)
    (h : Lts.Run Instance.Steps s (.unregisterModule id :: bs) t) :
    ∃ invs, t.invocations = s.invocations ++ invs ∧ ∀ inv ∈ invs, inv.moduleId ≠ id := by
  obtain ⟨u, h₁, h₂⟩ := h.uncons
  have hu : u = (s.log (.unregister id)).post (.unregisterModule id) := (Except.ok.inj h₁).symm
  refine (h₂.invariant (P := fun v => v.Silenced id ∧ ∃ invs,
    v.invocations = s.invocations ++ invs ∧ ∀ inv ∈ invs, inv.moduleId ≠ id) ?_ ?_).2
  · subst hu
    exact ⟨Instance.silenced_of_post hid hno, [],
      by simp [Instance.invocations, Instance.log, Instance.post, Event.invocation?], by simp⟩
  · rintro v a v' ⟨hv, invs, hinvs, hne⟩ hst
    obtain ⟨hv', invs', hinvs', hne'⟩ := hv.step (transition_of_step hst)
    refine ⟨hv', invs ++ invs', by rw [hinvs', hinvs, List.append_assoc], fun inv hmem => ?_⟩
    exact (List.mem_append.1 hmem).elim (hne inv) (hne' inv)

/-- The callback of a module is called after `UnregisterModule` has returned, for a
    request that was in the queue. -/
theorem invoked_after_unregister : ∃ s t inv, Instance.Runs activation s ∧
    Lts.Run Instance.Steps s [.unregisterModule 0, .task] t ∧
    t.invocations = s.invocations ++ [inv] ∧ inv.moduleId = 0 := by
  obtain ⟨s, hs, hnone⟩ := Instance.exists_runs activation Instance.invocations [] (by
    decide +kernel)
  obtain ⟨t, ht, hinv⟩ := Instance.exists_runs (activation ++ [.unregisterModule 0, .task])
    Instance.invocations [⟨0, 0, [0], [[]]⟩] (by decide +kernel)
  obtain ⟨s', hs', ht⟩ := ht.split
  cases Lts.run_unique hs hs'
  exact ⟨s, t, _, hs, ht, by rw [hinv, hnone]; rfl, rfl⟩

/-- With the queue empty, no callback is called after `UnregisterModule`. -/
theorem silent_after_unregister_idle : ∃ s t, Instance.Runs (activation ++
    [.task, .callbackReturn]) s ∧
    Lts.Run Instance.Steps s
      [.unregisterModule 0, .wsReply 0, .wsMessage 0 ⟨activate, false⟩, .task, .task] t ∧
    ∃ invs, t.invocations = s.invocations ++ invs ∧ ∀ inv ∈ invs, inv.moduleId ≠ 0 := by
  obtain ⟨s, hs, hq⟩ := Instance.exists_runs (activation ++ [.task, .callbackReturn])
    (fun s => (s.threadLoop.length, s.idCounter)) (0, 1) (by decide +kernel)
  obtain ⟨t, ht, -⟩ := Instance.exists_runs (activation ++ [.task, .callbackReturn] ++
    [.unregisterModule 0, .wsReply 0, .wsMessage 0 ⟨activate, false⟩, .task, .task])
    (fun _ => ()) () (by decide +kernel)
  obtain ⟨s', hs', ht⟩ := ht.split
  cases Lts.run_unique hs hs'
  rw [Prod.mk.injEq, List.length_eq_zero_iff] at hq
  refine ⟨s, t, hs, ht, silent_after_unregister (by rw [hq.2]; decide) ?_ ht⟩
  rintro ⟨m, callback, before, t, after, -, -, hbefore, -⟩
  simp [hq.1] at hbefore

end Sacs
