import Sacs.Transition

/-!
# The registry and the queue of the loop

What a step of an instance does to the modules it has registered, to the
counter of ids, and to the queue of its loop thread.

* A step changes the registry in at most one place (`RegistryStep`).
* Ids are never reused: every module has an id below the counter
  (`Instance.Fresh`), so that a module once unregistered is gone for good
  (`fresh_of_runs`, `Gone.step`).
* The queue is FIFO: a step takes its head or appends to it
  (`Transition.threadLoop`).
* Waiting in a callback is final: the loop thread takes no step any more
  (`Transition.waiting`).
-/

namespace Sacs

open JsonMsg ModuleManager

/-! ## Frames -/

namespace ModuleManager

variable (s : Instance) (w : ClientId) (response : Text) (promise : Promise) (id : Int32)

/-- What answering a request leaves unchanged. -/
theorem answer_frame : ∃ loop web trace, answer s w response = { s with loop, web, trace } := by
  rw [answer]
  split
  · exact ⟨_, _, _, rfl⟩
  · exact ⟨_, _, _, rfl⟩

@[simp] theorem answer_modules : (answer s w response).modules = s.modules := by
  obtain ⟨_, _, _, h⟩ := answer_frame s w response
  rw [h]

@[simp] theorem answer_idCounter : (answer s w response).idCounter = s.idCounter := by
  obtain ⟨_, _, _, h⟩ := answer_frame s w response
  rw [h]

@[simp] theorem answer_threadLoop : (answer s w response).threadLoop = s.threadLoop := by
  obtain ⟨_, _, _, h⟩ := answer_frame s w response
  rw [h]

@[simp] theorem answer_calls : (answer s w response).calls = s.calls := by
  obtain ⟨_, _, _, h⟩ := answer_frame s w response
  rw [h]

@[simp] theorem answer_handler : (answer s w response).handler = s.handler := by
  obtain ⟨_, _, _, h⟩ := answer_frame s w response
  rw [h]

theorem answer_loop :
    (answer s w response).loop = s.loop ∨ ∃ r, (answer s w response).loop = .callback r := by
  rw [answer]
  split
  · exact .inr ⟨_, rfl⟩
  · exact .inl rfl

/-- Answering a request produces a message for its client, at most. -/
theorem answer_trace :
    ∃ es, (answer s w response).trace = s.trace ++ es ∧ ∀ e ∈ es, e = .produced w response := by
  rw [answer]
  split
  · exact ⟨[], by simp⟩
  · exact ⟨[_], rfl, by simp⟩

/-- What making a future ready leaves unchanged. -/
theorem fulfil_frame : ∃ loop handler, fulfil s promise id = { s with loop, handler } := by
  unfold fulfil
  (repeat' split) <;> exact ⟨_, _, rfl⟩

@[simp] theorem fulfil_modules : (fulfil s promise id).modules = s.modules := by
  obtain ⟨_, _, h⟩ := fulfil_frame s promise id
  rw [h]

@[simp] theorem fulfil_idCounter : (fulfil s promise id).idCounter = s.idCounter := by
  obtain ⟨_, _, h⟩ := fulfil_frame s promise id
  rw [h]

@[simp] theorem fulfil_threadLoop : (fulfil s promise id).threadLoop = s.threadLoop := by
  obtain ⟨_, _, h⟩ := fulfil_frame s promise id
  rw [h]

@[simp] theorem fulfil_calls : (fulfil s promise id).calls = s.calls := by
  obtain ⟨_, _, h⟩ := fulfil_frame s promise id
  rw [h]

@[simp] theorem fulfil_trace : (fulfil s promise id).trace = s.trace := by
  obtain ⟨_, _, h⟩ := fulfil_frame s promise id
  rw [h]

/-- A future made ready does not matter to a loop thread that does not wait. -/
theorem fulfil_loop (h : ∀ request, s.loop ≠ .waiting request) :
    (fulfil s promise id).loop = s.loop := by
  unfold fulfil
  split
  · rfl
  · rename_i request hw
    exact absurd hw (h request)
  · rfl
  · split <;> rfl

end ModuleManager

/-- A handler that is where another one was not put is where it was. -/
theorem handler_of_setHandler {s : Instance} {c c' : ClientId} {pc pc' : HandlerPc}
    (hpc : pc ≠ pc') (h : (ProxyServer.setHandler s c pc).handler c' = pc') :
    s.handler c' = pc' := by
  rw [ProxyServer.setHandler] at h
  by_cases hc : c' = c
  · subst hc
    exact absurd (by simpa using h) hpc
  · simpa [hc] using h

/-- What passing an update to a module leaves unchanged. -/
theorem Passes.frame {s s' : Instance} {json : JsonMsg} (h : Passes s json s') :
    ∃ modules clients loop trace, s' = { s with modules, clients, loop, trace } := by
  cases h <;> exact ⟨_, _, _, _, rfl⟩

theorem Passes.answer_frame {s s' : Instance} {json : JsonMsg} (h : Passes s json s')
    (w : ClientId) (response : Text) : ∃ modules clients loop web trace,
      answer s' w response = { s with modules, clients, loop, web, trace } := by
  obtain ⟨_, _, _, h'⟩ := ModuleManager.answer_frame s' w response
  obtain ⟨_, _, _, _, rfl⟩ := h.frame
  exact ⟨_, _, _, _, _, h'⟩

theorem Passes.threadLoop {s s' : Instance} {json : JsonMsg} (h : Passes s json s') :
    s'.threadLoop = s.threadLoop := by
  obtain ⟨_, _, _, _, rfl⟩ := h.frame
  rfl

theorem Passes.idCounter {s s' : Instance} {json : JsonMsg} (h : Passes s json s') :
    s'.idCounter = s.idCounter := by
  obtain ⟨_, _, _, _, rfl⟩ := h.frame
  rfl

theorem Passes.calls {s s' : Instance} {json : JsonMsg} (h : Passes s json s') :
    s'.calls = s.calls := by
  obtain ⟨_, _, _, _, rfl⟩ := h.frame
  rfl

theorem Passes.handler {s s' : Instance} {json : JsonMsg} (h : Passes s json s') :
    s'.handler = s.handler := by
  obtain ⟨_, _, _, _, rfl⟩ := h.frame
  rfl

theorem Passes.loop {s s' : Instance} {json : JsonMsg} (h : Passes s json s') :
    s'.loop = s.loop ∨ s'.loop = .callback none := by
  cases h with
  | invoked => exact .inr rfl
  | _ => exact .inl rfl

/-! ## The registry -/

/-- What a step does to the modules and the counter of ids. -/
inductive RegistryStep (ms : OrdMap Int32 Module) (n : Int32) : OrdMap Int32 Module → Int32 → Prop
  | keep : RegistryStep ms n ms n
  | add (m : Module) :
      n ≠ Int32.maxValue → RegistryStep ms n (ms.insert n (m.setId n)) (n + 1)
  | remove (id : Int32) : RegistryStep ms n (ms.erase id) n
  | save {id : Int32} {m m' : Module} :
      ms.find? id = some m → m.Saved m' → RegistryStep ms n (ms.modify id fun _ => m') n

theorem Passes.registry {s s' : Instance} {json : JsonMsg} (h : Passes s json s') :
    RegistryStep s.modules s.idCounter s'.modules s'.idCounter := by
  cases h with
  | nothing => exact .keep
  | unrouted _ hm _ _ hm' => exact .save hm (Module.save_saved hm')
  | sent _ hm _ _ hm' => exact .save hm (Module.save_saved hm')
  | invoked _ hm _ _ hm' => exact .save hm (Module.save_saved hm')

theorem registry_of_savePropertiesList {s s' : Instance} {id : Int32} {ps : Updates}
    (h : savePropertiesList s false id ps = .ok s') :
    RegistryStep s.modules s.idCounter s'.modules s'.idCounter := by
  obtain ⟨-, rfl⟩ | ⟨m, m', hm, hm', rfl⟩ := savePropertiesList_cases h
  · exact .keep
  · exact .save hm (Module.save_saved hm')

theorem Transition.registry {s s' : Instance} {a : Action} (h : Transition s a s') :
    RegistryStep s.modules s.idCounter s'.modules s'.idCounter := by
  cases h with
  | taskHandle _ h =>
    rw [(handleMessage_emits h).modules, (handleMessage_emits h).idCounter]
    exact .keep
  | taskRegister _ hmax _ h =>
    rw [fulfil_modules, fulfil_idCounter, (handleMessage_emits h).modules,
      (handleMessage_emits h).idCounter]
    exact .add _ hmax
  | taskUnregister _ _ h =>
    rw [(handleMessage_emits h).modules, (handleMessage_emits h).idCounter]
    exact .remove _
  | taskSave _ hm hm' => exact .save hm (Module.save_saved hm')
  | taskLoad _ _ _ h => simpa using h.registry
  | taskApply _ _ h => simpa using h.registry
  | taskPass _ h => exact h.registry
  | flush _ _ h =>
    rw [(pushMsg_emits h).modules, (pushMsg_emits h).idCounter]
    exact .keep
  | callbackUnregister _ _ h =>
    rw [(handleMessage_emits h).modules, (handleMessage_emits h).idCounter]
    exact .remove _
  | callbackUpdate _ hs _ h =>
    rw [(handleMessage_emits h).modules, (handleMessage_emits h).idCounter]
    exact registry_of_savePropertiesList hs
  | callbackUpdateThrows _ hs _ => exact registry_of_savePropertiesList hs
  | _ => exact .keep

/-! ### Ids are fresh -/

/-- Every module has its key as id, which is below the counter. -/
structure FreshIds (ms : OrdMap Int32 Module) (n : Int32) : Prop where
  counter : 0 ≤ n
  key : ∀ {id m}, ms.find? id = some m → m.id = id ∧ 0 ≤ id ∧ id < n

abbrev Instance.Fresh (s : Instance) : Prop := FreshIds s.modules s.idCounter

/-- The counter is the id of no module yet. -/
theorem FreshIds.find?_counter {ms : OrdMap Int32 Module} {n : Int32} (h : FreshIds ms n) :
    ms.find? n = none := by
  by_contra hne
  obtain ⟨m, hm⟩ := Option.ne_none_iff_exists'.1 hne
  exact lt_irrefl _ (h.key hm).2.2

/-- What is found once a module is inserted with the counter as its id. -/
theorem FreshIds.find?_insert {ms : OrdMap Int32 Module} {n : Int32} (h : FreshIds ms n)
    (m : Module) (id : Int32) :
    (ms.insert n m).find? id = if id = n then some m else ms.find? id := by
  rw [OrdMap.find?_insert, h.find?_counter, Option.getD_none]

/-- An id below the counter, of no module: such ids are given to no module any
    more. -/
def GoneId (ms : OrdMap Int32 Module) (n : Int32) (id : Int32) : Prop :=
  id < n ∧ ms.find? id = none

theorem lt_add_one {n : Int32} (h : n ≠ Int32.maxValue) : n < n + 1 := by
  rw [Int32.lt_iff_toInt_lt, toInt_add_one h]
  omega

namespace RegistryStep

variable {ms ms' : OrdMap Int32 Module} {n n' : Int32}

theorem counter_le (h : RegistryStep ms n ms' n') : n ≤ n' := by
  cases h with
  | add m hmax => exact (lt_add_one hmax).le
  | _ => exact le_rfl

theorem fresh (h : RegistryStep ms n ms' n') (hf : FreshIds ms n) : FreshIds ms' n' := by
  refine ⟨hf.counter.trans h.counter_le, fun {id m} hm => ?_⟩
  cases h with
  | keep => exact hf.key hm
  | add m₀ hmax =>
    rw [hf.find?_insert] at hm
    split_ifs at hm with hid
    · -- The key is new: the module inserted is the one found.
      subst hid
      cases hm
      exact ⟨rfl, hf.counter, lt_add_one hmax⟩
    · obtain ⟨h₁, h₂, h₃⟩ := hf.key hm
      exact ⟨h₁, h₂, h₃.trans (lt_add_one hmax)⟩
  | remove id' =>
    rw [OrdMap.find?_erase] at hm
    split_ifs at hm
    exact hf.key hm
  | save hm₀ hsaved =>
    rw [OrdMap.find?_modify] at hm
    split_ifs at hm with hid
    · subst hid
      rw [hm₀, Option.map_some, Option.some.injEq] at hm
      subst hm
      exact ⟨hsaved.id.trans (hf.key hm₀).1, (hf.key hm₀).2⟩
    · exact hf.key hm

theorem gone (h : RegistryStep ms n ms' n') {id : Int32} (hg : GoneId ms n id) :
    GoneId ms' n' id := by
  refine ⟨hg.1.trans_le h.counter_le, ?_⟩
  cases h with
  | keep => exact hg.2
  | add m hmax => rw [OrdMap.find?_insert, if_neg hg.1.ne, hg.2]
  | remove id' => rw [OrdMap.find?_erase, hg.2, ite_self]
  | @save id' m m' hm hsaved =>
    rw [OrdMap.find?_modify, if_neg fun e => ?_, hg.2]
    have := hg.2
    rw [e, hm] at this
    cases this

/-- A module registered after the step was registered before, if its id had been
    given. -/
theorem saved_of_lt (h : RegistryStep ms n ms' n') {id : Int32} (hid : id < n) {m' : Module}
    (hm' : ms'.find? id = some m') : ∃ m, ms.find? id = some m ∧ m.Saved m' := by
  cases h with
  | keep => exact ⟨m', hm', .refl m'⟩
  | add m hmax =>
    rw [OrdMap.find?_insert, if_neg hid.ne] at hm'
    exact ⟨m', hm', .refl m'⟩
  | remove id' =>
    rw [OrdMap.find?_erase] at hm'
    split_ifs at hm'
    exact ⟨m', hm', .refl m'⟩
  | save hm hsaved =>
    rw [OrdMap.find?_modify] at hm'
    split_ifs at hm' with hid'
    · subst hid'
      rw [hm, Option.map_some, Option.some.injEq] at hm'
      exact ⟨_, hm, hm' ▸ hsaved⟩
    · exact ⟨m', hm', .refl m'⟩

end RegistryStep

theorem fresh_of_runs {as : List Action} {s : Instance} (h : Instance.Runs as s) : s.Fresh :=
  h.invariant ⟨le_rfl, fun hm => by simp at hm⟩ fun _ _ _ hs hst =>
    (transition_of_step hst).registry.fresh hs

/-! ## The loop thread -/

/-- An element of a queue to which one is appended is this one, or was in the queue
    before. -/
theorem eq_append_cons_of_concat {α : Type} {before after q : List α} {t u : α}
    (h : before ++ t :: after = q ++ [u]) :
    (before = q ∧ t = u) ∨ ∃ after', q = before ++ t :: after' := by
  rcases List.eq_nil_or_concat after with rfl | ⟨after', v, rfl⟩
  · exact .inl (List.append_singleton_inj.1 h)
  · refine .inr ⟨after', ?_⟩
    rw [List.concat_eq_append, ← List.cons_append, ← List.append_assoc] at h
    exact (List.append_singleton_inj.1 h).1.symm

/-- The actions of the loop thread. -/
def Action.onLoop : Action → Bool
  | .task | .flush | .callbackRegisterModule .. | .callbackUnregisterModule _
  | .callbackUpdateProperties .. | .callbackReturn => true
  | _ => false

/-- What the other threads leave unchanged, and can do to the rest. -/
structure OffLoop (s s' : Instance) : Prop where
  modules : s'.modules = s.modules
  idCounter : s'.idCounter = s.idCounter
  msgQueue : s'.msgQueue = s.msgQueue
  initialized : s'.initialized = s.initialized
  serverImpl : s'.serverImpl = s.serverImpl
  loop : s'.loop = s.loop
  threadLoop : ∃ ts, s'.threadLoop = s.threadLoop ++ ts
  trace : ∃ es, s'.trace = s.trace ++ es ∧
    ∀ e ∈ es, (∃ id, e = .unregister id) ∨ ∃ w, e = .produced w emptyJson

theorem Transition.offLoop {s s' : Instance} {a : Action} (h : Transition s a s')
    (ha : a.onLoop = false) : OffLoop s s' := by
  cases h <;> simp only [Action.onLoop, reduceCtorEq] at ha <;>
    first
    | exact ⟨rfl, rfl, rfl, rfl, rfl, rfl, ⟨[], (List.append_nil _).symm⟩, [],
        (List.append_nil _).symm, by simp⟩
    | exact ⟨rfl, rfl, rfl, rfl, rfl, rfl, ⟨[_], rfl⟩, [], (List.append_nil _).symm, by simp⟩
    | exact ⟨rfl, rfl, rfl, rfl, rfl, rfl, ⟨[_], rfl⟩, [_], rfl, by simp⟩
    | exact ⟨rfl, rfl, rfl, rfl, rfl, rfl, ⟨[], (List.append_nil _).symm⟩, [_], rfl, by simp⟩

/-- A task is the head of the queue. -/
theorem Transition.takes {s s' : Instance} (h : Transition s .task s') :
    ∃ t, Takes s t s'.threadLoop := by
  cases h with
  | taskRole ht => exact ⟨_, ht⟩
  | taskHandle ht h => exact ⟨_, by rwa [(handleMessage_emits h).threadLoop]⟩
  | taskRegister ht _ _ h =>
    exact ⟨_, by rwa [fulfil_threadLoop, (handleMessage_emits h).threadLoop]⟩
  | taskUnregister ht _ h => exact ⟨_, by rwa [(handleMessage_emits h).threadLoop]⟩
  | taskSaveNone ht _ => exact ⟨_, ht⟩
  | taskSave ht _ _ => exact ⟨_, ht⟩
  | taskOther ht _ _ => exact ⟨_, ht⟩
  | taskLoad ht _ _ h => exact ⟨_, by rwa [answer_threadLoop, h.threadLoop]⟩
  | taskApply ht _ h => exact ⟨_, by rwa [answer_threadLoop, h.threadLoop]⟩
  | taskPass ht h => exact ⟨_, by rwa [h.threadLoop]⟩

theorem Takes.inj {s : Instance} {t t' : Task} {q q' : List Task} (h : Takes s t q)
    (h' : Takes s t' q') : t = t' ∧ q = q' :=
  List.cons.inj (h.threadLoop.symm.trans h'.threadLoop)

/-- The task unregistering a module does. -/
theorem Transition.unregisters {s s' : Instance} {id : Int32} {q : List Task}
    (h : Transition s .task s') (ht : Takes s (.unregisterModule id) q) :
    s'.modules = s.modules.erase id := by
  cases h with
  | taskUnregister ht' _ h =>
    cases (ht.inj ht').1
    exact (handleMessage_emits h).modules
  | _ => exact Task.noConfusion (ht.inj ‹_›).1

/-- The loop thread waits for no future when it takes a step. -/
theorem Transition.not_waiting {s s' : Instance} {a : Action} (h : Transition s a s')
    (ha : a.onLoop = true) (request : Option (ClientId × Text)) : s.loop ≠ .waiting request := by
  intro hw
  cases a <;> simp only [Action.onLoop, Bool.false_eq_true] at ha
  case task =>
    obtain ⟨t, ht⟩ := h.takes
    exact LoopPc.noConfusion (hw.symm.trans ht.idle)
  all_goals cases h <;> simp_all only [reduceCtorEq]

/-- The loop thread appends nothing to its queue, but to wait for it. -/
theorem Transition.threadLoop_callback {s s' : Instance} {a : Action} (h : Transition s a s')
    (ha : a.onLoop = true) (htask : a ≠ .task) :
    s'.threadLoop = s.threadLoop ∨
      ∃ n ps cb request, a = .callbackRegisterModule n ps cb ∧
        s'.loop = .waiting request ∧
        s'.threadLoop = s.threadLoop ++ [.doRegisterModule ⟨-1, n, ps, cb⟩ .callback] := by
  cases h <;> simp only [Action.onLoop, Bool.false_eq_true, ne_eq, not_true_eq_false] at ha htask
  case callbackRegister => exact .inr ⟨_, _, _, _, rfl, rfl, rfl⟩
  case flush h => exact .inl (pushMsg_emits h).threadLoop
  case callbackUnregister h => exact .inl (handleMessage_emits h).threadLoop
  case callbackUpdate hs _ h =>
    rw [(handleMessage_emits h).threadLoop]
    obtain ⟨_, _, rfl⟩ := savePropertiesList_frame hs
    exact .inl rfl
  case callbackUpdateThrows hs =>
    obtain ⟨_, _, rfl⟩ := savePropertiesList_frame hs
    exact .inl rfl
  all_goals exact .inl rfl

/-- Only a callback registering a module makes the loop thread wait. -/
theorem Transition.waits {s s' : Instance} {a : Action} (h : Transition s a s')
    (ha : a.onLoop = true) {request : Option (ClientId × Text)} (hw : s'.loop = .waiting request) :
    ∃ n ps cb, a = .callbackRegisterModule n ps cb := by
  cases h with
  | taskRole => exact LoopPc.noConfusion hw
  | taskHandle ht h =>
    rw [(handleMessage_emits h).loop] at hw
    exact LoopPc.noConfusion (ht.idle.symm.trans hw)
  | taskRegister ht _ _ h =>
    have hidle := (handleMessage_emits h).loop.trans ht.idle
    rw [fulfil_loop _ _ _ fun r => by rw [hidle]; exact LoopPc.noConfusion, hidle] at hw
    exact LoopPc.noConfusion hw
  | taskUnregister ht _ h =>
    rw [(handleMessage_emits h).loop] at hw
    exact LoopPc.noConfusion (ht.idle.symm.trans hw)
  | taskSaveNone ht _ => exact LoopPc.noConfusion (ht.idle.symm.trans hw)
  | taskSave ht _ _ => exact LoopPc.noConfusion (ht.idle.symm.trans hw)
  | taskOther ht _ _ => exact LoopPc.noConfusion (ht.idle.symm.trans hw)
  | taskLoad ht _ _ h =>
    rcases answer_loop _ _ _ with ha | ⟨r, ha⟩ <;> rw [ha] at hw
    · rcases h.loop with h | h <;> rw [h] at hw
      · exact LoopPc.noConfusion (ht.idle.symm.trans hw)
      · exact LoopPc.noConfusion hw
    · exact LoopPc.noConfusion hw
  | taskApply ht _ h =>
    rcases answer_loop _ _ _ with ha | ⟨r, ha⟩ <;> rw [ha] at hw
    · rcases h.loop with h | h <;> rw [h] at hw
      · exact LoopPc.noConfusion (ht.idle.symm.trans hw)
      · exact LoopPc.noConfusion hw
    · exact LoopPc.noConfusion hw
  | taskPass ht h =>
    rcases h.loop with h | h <;> rw [h] at hw
    · exact LoopPc.noConfusion (ht.idle.symm.trans hw)
    · exact LoopPc.noConfusion hw
  | flushed => exact LoopPc.noConfusion hw
  | flush hl _ h =>
    rw [(pushMsg_emits h).loop] at hw
    exact LoopPc.noConfusion (hl.symm.trans hw)
  | callbackRegister => exact ⟨_, _, _, rfl⟩
  | callbackUnregister hl _ h =>
    rw [(handleMessage_emits h).loop] at hw
    exact LoopPc.noConfusion (hl.symm.trans hw)
  | callbackUpdate hl hs _ h =>
    rw [(handleMessage_emits h).loop] at hw
    obtain ⟨_, _, rfl⟩ := savePropertiesList_frame hs
    exact LoopPc.noConfusion (hl.symm.trans hw)
  | callbackUpdateThrows hl hs _ =>
    obtain ⟨_, _, rfl⟩ := savePropertiesList_frame hs
    exact LoopPc.noConfusion (hl.symm.trans hw)
  | callbackReturn => exact LoopPc.noConfusion hw
  | callbackAnswer => exact LoopPc.noConfusion hw
  | _ => simp only [Action.onLoop, Bool.false_eq_true] at ha

/-- The queue of the loop is FIFO. -/
theorem Transition.threadLoop {s s' : Instance} {a : Action} (h : Transition s a s') :
    (a = .task ∧ ∃ t, Takes s t s'.threadLoop) ∨
      (a ≠ .task ∧ ∃ ts, s'.threadLoop = s.threadLoop ++ ts) := by
  by_cases htask : a = .task
  · subst htask
    exact .inl ⟨rfl, h.takes⟩
  · refine .inr ⟨htask, ?_⟩
    by_cases ha : a.onLoop = true
    · rcases h.threadLoop_callback ha htask with hq | ⟨_, _, _, _, -, -, hq⟩
      · exact ⟨[], by rw [hq, List.append_nil]⟩
      · exact ⟨_, hq⟩
    · exact (h.offLoop (by simpa using ha)).threadLoop

/-! ## The role -/

/-- The role of a host is decided by the task posted to this end. -/
theorem Transition.serverImpl_cases {s s' : Instance} {a : Action} (h : Transition s a s') :
    s'.serverImpl = s.serverImpl ∨ ∃ hostMode q, Takes s (.onProxyInitialized hostMode) q ∧
      s'.serverImpl = (s.serverImpl || hostMode) := by
  cases ha : a.onLoop with
  | false => exact .inl (h.offLoop ha).serverImpl
  | true =>
  cases h with
  | taskRole ht => exact .inr ⟨_, _, ht, rfl⟩
  | taskHandle _ h => exact .inl (handleMessage_emits h).serverImpl
  | @taskRegister m promise q msg s₁ _ _ _ h =>
    obtain ⟨_, _, hf⟩ := fulfil_frame s₁ promise s.idCounter
    rw [hf]
    exact .inl (handleMessage_emits h).serverImpl
  | taskUnregister _ _ h => exact .inl (handleMessage_emits h).serverImpl
  | taskLoad _ _ _ h =>
    obtain ⟨_, _, _, _, _, hf⟩ := h.answer_frame _ _
    rw [hf]
    exact .inl rfl
  | taskApply _ _ h =>
    obtain ⟨_, _, _, _, _, hf⟩ := h.answer_frame _ _
    rw [hf]
    exact .inl rfl
  | taskPass _ h =>
    obtain ⟨_, _, _, _, rfl⟩ := h.frame
    exact .inl rfl
  | flush _ _ h => exact .inl (pushMsg_emits h).serverImpl
  | callbackUnregister _ _ h => exact .inl (handleMessage_emits h).serverImpl
  | callbackUpdate _ hs _ h =>
    rw [(handleMessage_emits h).serverImpl]
    obtain ⟨_, _, rfl⟩ := savePropertiesList_frame hs
    exact .inl rfl
  | callbackUpdateThrows _ hs _ =>
    obtain ⟨_, _, rfl⟩ := savePropertiesList_frame hs
    exact .inl rfl
  | _ => exact .inl rfl

/-- A host remains one. -/
theorem Transition.serverImpl {s s' : Instance} {a : Action} (h : Transition s a s')
    (hserver : s.serverImpl = true) : s'.serverImpl = true := by
  obtain h | ⟨_, _, -, h⟩ := h.serverImpl_cases <;> rw [h, hserver]
  rfl

/-- Only the outcome of the connection attempt decides the role. -/
theorem Transition.mem_threadLoop_role {s s' : Instance} {a : Action} (h : Transition s a s')
    (ha : ∀ ok, a ≠ .connecting ok) {hostMode : Bool}
    (hm : .onProxyInitialized hostMode ∈ s'.threadLoop) :
    .onProxyInitialized hostMode ∈ s.threadLoop := by
  have happend : ∀ {ts : List Task}, s'.threadLoop = s.threadLoop ++ ts →
      .onProxyInitialized hostMode ∉ ts → .onProxyInitialized hostMode ∈ s.threadLoop := by
    intro ts hq hts
    rw [hq, List.mem_append] at hm
    exact hm.resolve_right hts
  cases hloop : a.onLoop with
  | true =>
    by_cases htask : a = .task
    · subst htask
      obtain ⟨t, ht⟩ := h.takes
      rw [ht.threadLoop]
      exact List.mem_cons_of_mem _ hm
    · rcases h.threadLoop_callback hloop htask with hq | ⟨_, _, _, _, -, -, hq⟩
      · exact hq ▸ hm
      · exact happend hq (by simp)
  | false =>
  cases h <;> simp only [Action.onLoop, reduceCtorEq] at hloop
  case connectingAgain => exact absurd rfl (ha _)
  case connectingProxy => exact absurd rfl (ha _)
  case connectingHost => exact absurd rfl (ha _)
  all_goals
    first
    | exact hm
    | exact happend rfl (by simp)

end Sacs
