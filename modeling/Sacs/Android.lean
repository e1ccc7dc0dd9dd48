import Sacs.Effects

/-!
# The Android glue

On Android, modules are registered with the same callback, `JniGlue::Callback`,
which leaves the updates to another thread, the `MsgThread`: it adds them to a
collector and notifies the thread, for which it locks a mutex
(`_condition_mutex`). The `MsgThread` holds this mutex while it runs the handlers
of the Java application, which may call the API.

* A handler that registers a module waits for the loop thread. If this is going to
  notify the `MsgThread` before it registers the module, both wait for each other
  for good (`deadlocked_of_handler`, `Android.Deadlocked.of_run`).
* They never do in the runs in which handlers register modules only when no task of
  the queue is going to call a module callback (`not_deadlocked_of_runs`).
-/

namespace Sacs

open JsonMsg ModuleManager

/-! ## Which tasks call a module callback -/

/-- The task calls the callback of a module, one of `ms`. -/
def Task.calls (ms : OrdMap Int32 Module) (t : Task) : Bool :=
  match t.passed? with
  | none => false
  | some json =>
    match json.findId, json.getPropertiesList with
    | .ok id, .ok (ps, _) =>
      !ps.isEmpty && ((ms.find? id).any fun m => m.callback.isSome && (m.save ps).toBool)
    | _, _ => false

/-- The tasks, run in order, call a module callback, if `ms` are the modules registered
    now, and `n` is the next id. -/
def callsBack : OrdMap Int32 Module → Int32 → List Task → Bool
  | _, _, [] => false
  | ms, n, t :: q =>
    t.calls ms || match t with
      | .doRegisterModule m _ => callsBack (ms.insert n (m.setId n)) (n + 1) q
      | .unregisterModule id => callsBack (ms.erase id) n q
      | _ => callsBack ms n q

/-- The modules have the same ids, and callbacks and numbers of properties. -/
def Alike (ms ms' : OrdMap Int32 Module) : Prop :=
  ∀ id, (ms.find? id).map (fun m => (m.callback.isSome, m.properties.length)) =
    (ms'.find? id).map (fun m => (m.callback.isSome, m.properties.length))

theorem save_toBool_congr {m m' : Module} (h : m.properties.length = m'.properties.length)
    (ps : Updates) : (m.save ps).toBool = (m'.save ps).toBool := by
  have htoBool : ∀ {x : Except Fault Module}, x.toBool = true ↔ ∃ y, x = .ok y := by
    intro x
    cases x <;> simp [Except.toBool]
  rw [Bool.eq_iff_iff, htoBool, htoBool]
  exact ⟨Module.exists_save_congr h.symm, Module.exists_save_congr h⟩

theorem calls_congr {ms ms' : OrdMap Int32 Module} (h : Alike ms ms') (t : Task) :
    t.calls ms = t.calls ms' := by
  have hany : ∀ id ps, (ms.find? id).any (fun m => m.callback.isSome && (m.save ps).toBool) =
      (ms'.find? id).any fun m => m.callback.isSome && (m.save ps).toBool := by
    intro id ps
    have hid := h id
    cases hm : ms.find? id with
    | none =>
      rw [hm, Option.map_none, eq_comm, Option.map_eq_none_iff] at hid
      rw [hid]
    | some m =>
      cases hm' : ms'.find? id with
      | none =>
        rw [hm, hm'] at hid
        cases hid
      | some m' =>
        rw [hm, hm', Option.map_some, Option.map_some, Option.some.injEq, Prod.mk.injEq] at hid
        rw [Option.any_some, Option.any_some, hid.1, save_toBool_congr hid.2]
  simp only [Task.calls, hany]

theorem Alike.insert {ms ms' : OrdMap Int32 Module} (h : Alike ms ms') (n : Int32) (m : Module) :
    Alike (ms.insert n m) (ms'.insert n m) := by
  have hgetD : ∀ {β : Type} (o : Option Module) (f : Module → β),
      (some (o.getD m)).map f = some ((o.map f).getD (f m)) := by
    intro β o f
    cases o <;> rfl
  intro id
  rw [OrdMap.find?_insert, OrdMap.find?_insert]
  split_ifs
  · rw [hgetD, hgetD, h n]
  · exact h id

theorem Alike.erase {ms ms' : OrdMap Int32 Module} (h : Alike ms ms') (n : Int32) :
    Alike (ms.erase n) (ms'.erase n) := by
  intro id
  rw [OrdMap.find?_erase, OrdMap.find?_erase]
  split_ifs
  · rfl
  · exact h id

theorem callsBack_congr {ms ms' : OrdMap Int32 Module} (h : Alike ms ms') (n : Int32)
    (q : List Task) : callsBack ms n q = callsBack ms' n q := by
  induction q generalizing ms ms' n with
  | nil => rfl
  | cons t q ih =>
    cases t with
    | doRegisterModule m promise =>
      simp only [callsBack, calls_congr h, ih (h.insert n (m.setId n))]
    | unregisterModule id => simp only [callsBack, calls_congr h, ih (h.erase id)]
    | _ => simp only [callsBack, calls_congr h, ih h]

/-- The queue goes on calling no callback. -/
theorem callsBack_of_task {s s' : Instance} (h : Transition s .task s') {t : Task} {q r : List Task}
    (ht : Takes s t q) (hno : callsBack s.modules s.idCounter (t :: r) = false) :
    t.calls s.modules = false ∧ callsBack s'.modules s'.idCounter r = false := by
  have hkeep : (∀ m promise, t ≠ .doRegisterModule m promise) → (∀ id, t ≠ .unregisterModule id) →
      Alike s.modules s'.modules ∧ s'.idCounter = s.idCounter := by
    intro hreg hunreg
    cases h.edits with
    | keep hmodules hcounter =>
      rw [hmodules]
      exact ⟨fun _ => rfl, hcounter⟩
    | add _ ht' => exact absurd (ht.inj ht').1 (hreg _ _)
    | remove hu =>
      rcases hu with ⟨-, q', ht'⟩ | ha
      · exact absurd (ht.inj ht').1 (hunreg _)
      · cases ha
    | @save id ps m m' _ hm hm' hmodules hcounter =>
      refine ⟨fun id' => ?_, hcounter⟩
      rw [hmodules, OrdMap.find?_modify]
      split_ifs with he
      · have hsaved := Module.save_saved hm'
        rw [he, hm, Option.map_some, Option.map_some, Option.map_some, hsaved.callback,
          hsaved.length_eq]
      · rfl
  cases t with
  | doRegisterModule m promise =>
    rw [callsBack, Bool.or_eq_false_iff] at hno
    refine ⟨hno.1, ?_⟩
    cases h with
    | taskRegister ht' _ _ h =>
      cases (ht.inj ht').1
      rw [fulfil_modules, fulfil_idCounter, (handleMessage_emits h).modules,
        (handleMessage_emits h).idCounter]
      exact hno.2
    | _ => exact Task.noConfusion (ht.inj ‹_›).1
  | unregisterModule id =>
    rw [callsBack, Bool.or_eq_false_iff] at hno
    refine ⟨hno.1, ?_⟩
    cases h with
    | taskUnregister ht' _ h =>
      cases (ht.inj ht').1
      rw [(handleMessage_emits h).modules, (handleMessage_emits h).idCounter]
      exact hno.2
    | _ => exact Task.noConfusion (ht.inj ‹_›).1
  | _ =>
    simp only [callsBack, Bool.or_eq_false_iff] at hno
    obtain ⟨halike, hcounter⟩ := hkeep (by simp) (by simp)
    rw [hcounter, ← callsBack_congr halike]
    exact hno

/-- A task that calls no callback leaves the loop thread in none. -/
theorem calls_of_callback {s s' : Instance} (h : Transition s .task s') {t : Task} {q : List Task}
    (ht : Takes s t q) {request : Option (ClientId × Text)} (hl : s'.loop = .callback request) :
    t.calls s.modules = true := by
  have hidle : ∀ {s₁ : Instance}, s₁.loop = s.loop → s₁.loop ≠ .callback request := by
    intro s₁ h₁ h₂
    rw [h₁, ht.idle] at h₂
    cases h₂
  have hanswer : ∀ {s₁ : Instance} {w response}, (answer s₁ w response).loop = .callback request →
      ∃ request', s₁.loop = .callback request' := by
    intro s₁ w response h
    rw [answer] at h
    split at h
    · exact ⟨_, ‹_›⟩
    · exact ⟨_, h⟩
  have hpass : ∀ {q' json s₁ request'}, Passes { s with threadLoop := q' } json s₁ →
      s₁.loop = .callback request' →
      (∀ ps json', json.getPropertiesList = .ok (ps, json') → ps ≠ [] → t.passed? = some json) →
      t.calls s.modules = true := by
    intro q' json s₁ request' hp hl hpassed
    have hnot : s.loop ≠ .callback request' := by
      rw [ht.idle]
      exact LoopPc.noConfusion
    cases hp with
    | @invoked id m m' ps json' callback hid hm hps hne hm' hcb =>
      have hsome : s.modules.find? id = some m := hm
      have hsave : (m.save ps).toBool = true := by rw [hm']; rfl
      simp only [Task.calls, hpassed ps json' hps hne, hid, hps, hsome, Option.any_some, hcb, hsave]
      simpa using hne
    | _ => exact absurd hl hnot
  cases h with
  | taskRole => cases hl
  | taskHandle _ h => exact absurd hl (hidle (handleMessage_emits h).loop)
  | @taskRegister m promise q' msg s₁ _ _ _ h =>
    have hloop : s₁.loop = s.loop := (handleMessage_emits h).loop
    rw [fulfil_loop _ _ _ (by simp [hloop, ht.idle])] at hl
    exact absurd hl (hidle hloop)
  | taskUnregister _ _ h => exact absurd hl (hidle (handleMessage_emits h).loop)
  | taskSaveNone => exact absurd hl (hidle rfl)
  | taskSave => exact absurd hl (hidle rfl)
  | taskOther => exact absurd hl (hidle rfl)
  | taskLoad ht' htype _ h =>
    obtain ⟨request', hl'⟩ := hanswer hl
    refine hpass h hl' fun ps json' hps hne => ?_
    rw [getPropertiesList, htype, if_pos (by decide)] at hps
    cases hps
    exact absurd rfl hne
  | taskApply ht' htype h =>
    obtain ⟨request', hl'⟩ := hanswer hl
    refine hpass h hl' fun _ _ _ _ => ?_
    rw [(ht.inj ht').1]
    exact if_pos htype
  | taskPass ht' h =>
    refine hpass h hl fun _ _ _ _ => ?_
    rw [(ht.inj ht').1]
    rfl

/-! ## The threads -/

/-- The callback of all modules, `JniGlue::Callback`. -/
def jniCallback : Callback := 0

structure QueuedCallback where
  moduleId : Int32
  updateVec : Updates

/-- Where the loop thread is in `JniGlue::InternalCallback`. -/
inductive GluePc
  /-- In no module callback. -/
  | out
  /-- To add the updates to the collector. -/
  | adding (callback : QueuedCallback)
  /-- In `Notify`, to lock the mutex. -/
  | notifying
  /-- To return. -/
  | done

/-- Where the `MsgThread` is in its loop. -/
inductive MsgPc
  /-- Waiting for the condition, or to lock the mutex. -/
  | waiting
  /-- To take the updates from the collector. -/
  | collecting
  /-- In the handler of the first of these updates. -/
  | handling (callbacks : List QueuedCallback)
  /-- In this handler, waiting for the future of a `RegisterModule`, which is ready once
      so many tasks of the loop are run. -/
  | registering (ahead : Nat) (callbacks : List QueuedCallback)

/-- The loop thread is going to notify the `MsgThread`. -/
def GluePc.notifies : GluePc → Bool
  | .adding _ | .notifying => true
  | _ => false

/-- It waits for the mutex, or is about to lock it. -/
def GluePc.locks : GluePc → Bool
  | .notifying => true
  | _ => false

theorem GluePc.eq_notifying {pc : GluePc} (h : pc.locks = true) : pc = .notifying := by
  cases pc with
  | notifying => rfl
  | _ => cases h

/-- The `MsgThread` holds the mutex. -/
def MsgPc.holdsMutex : MsgPc → Bool
  | .waiting => false
  | _ => true

/-- The tasks of the loop the `MsgThread` waits for. -/
def MsgPc.ahead : MsgPc → Nat
  | .registering n _ => n
  | _ => 0

/-- A task of the loop is run. -/
def MsgPc.task : MsgPc → MsgPc
  | .registering (n + 1) callbacks => .registering n callbacks
  | pc => pc

/-- The callback of a module is called, if the loop thread is in one now. -/
def GluePc.enter (inst : Instance) : GluePc :=
  match inst.loop, inst.invocations.getLast? with
  | .callback _, some inv => .adding ⟨inv.moduleId, inv.propIds.zip inv.propVals⟩
  | _, _ => .out

structure Android where
  inst : Instance := {}
  collector : List QueuedCallback := []
  isReady : Bool := false
  glue : GluePc := .out
  msg : MsgPc := .waiting

namespace Android

inductive Action
  /-- An action of the instance, other than those of a module callback. -/
  | inst (a : Sacs.Action)
  -- Loop thread, in the module callback
  | add
  | notify
  | callbackReturn
  -- The `MsgThread`
  | wake
  | collect
  /-- The handler calls `UnregisterModule`, or one of the halves of `UpdateProperties`. -/
  | handlerCall (a : Sacs.Action)
  | handlerRegister (name : Str) (properties : List Property)
  | registered
  | handlerReturn
  | unlock

/-- What can happen to the instance besides: modules are registered with the callback
    of the glue, which does not call the API. -/
def allows : Sacs.Action → Bool
  | .registerModule _ _ callback => callback = some jniCallback
  | .callbackRegisterModule .. | .callbackUnregisterModule _ | .callbackUpdateProperties ..
  | .callbackReturn => false
  | _ => true

/-- A call of the API that does not wait. -/
def isCall : Sacs.Action → Bool
  | .unregisterModule _ | .updateProperties .. | .announce _ => true
  | _ => false

/-- The instance after an action, and where the threads are then. -/
def run (s : Android) (a : Sacs.Action) (inst : Instance) : Android :=
  match a with
  | .task => { s with inst, glue := .enter inst, msg := s.msg.task }
  | _ => { s with inst }

def step (s : Android) : Action → Except Fault Android
  | .inst a => if allows a then return s.run a (← s.inst.step a) else .error .disabled
  | .add => match s.glue with
    | .adding callback =>
      .ok { s with collector := s.collector ++ [callback], glue := .notifying }
    | _ => .error .disabled
  | .notify => match s.glue with
    | .notifying =>
      if s.msg.holdsMutex then .error .disabled
      else .ok { s with isReady := true, glue := .done }
    | _ => .error .disabled
  | .callbackReturn => match s.glue with
    | .done => do return { s with inst := ← s.inst.step .callbackReturn, glue := .out }
    | _ => .error .disabled
  | .wake => match s.msg with
    | .waiting =>
      if s.isReady then .ok { s with isReady := false, msg := .collecting }
      else .error .disabled
    | _ => .error .disabled
  | .collect => match s.msg with
    | .collecting => .ok { s with collector := [], msg := .handling s.collector }
    | _ => .error .disabled
  | .handlerCall a => match s.msg with
    | .handling (_ :: _) =>
      if isCall a then do return { s with inst := ← s.inst.step a } else .error .disabled
    | _ => .error .disabled
  | .handlerRegister name properties => match s.msg with
    | .handling (c :: cs) => do
      let inst ← s.inst.step (.registerModule name properties (some jniCallback))
      return { s with inst, msg := .registering inst.threadLoop.length (c :: cs) }
    | _ => .error .disabled
  | .registered => match s.msg with
    | .registering 0 callbacks => .ok { s with msg := .handling callbacks }
    | _ => .error .disabled
  | .handlerReturn => match s.msg with
    | .handling (_ :: callbacks) => .ok { s with msg := .handling callbacks }
    | _ => .error .disabled
  | .unlock => match s.msg with
    | .handling [] => .ok { s with msg := .waiting }
    | _ => .error .disabled

abbrev Steps : Android → Action → Android → Prop := Lts.Exec step

/-- The loop thread waits for the mutex, which the `MsgThread` holds, waiting for the
    loop thread to register a module. -/
def Deadlocked (s : Android) : Prop :=
  s.glue = .notifying ∧ s.msg.holdsMutex = true ∧ 0 < s.msg.ahead

/-- The loop thread is going to notify the `MsgThread`: it is in a module callback, or a
    task of the queue calls one. -/
def WillNotify (s : Android) : Prop :=
  s.glue.notifies = true ∨ callsBack s.inst.modules s.inst.idCounter s.inst.threadLoop = true

instance WillNotify.decidable (s : Android) : Decidable s.WillNotify := instDecidableOr

/-- Handlers register modules only when the loop thread is not going to notify the
    `MsgThread`. -/
def Careful (s : Android) : Action → Prop
  | .handlerRegister .. => ¬s.WillNotify
  | _ => True

instance Careful.decidable (s : Android) (a : Action) : Decidable (s.Careful a) :=
  match a with
  | .handlerRegister .. => inferInstanceAs (Decidable ¬s.WillNotify)
  | .inst _ | .add | .notify | .callbackReturn | .wake | .collect | .handlerCall _ | .registered
  | .handlerReturn | .unlock => .isTrue trivial

/-- The steps of the instance, and of the threads around it. -/
inductive Moves (s : Android) : Action → Android → Prop
  | inst {a : Sacs.Action} {inst : Instance} :
      allows a = true → Transition s.inst a inst → Moves s (.inst a) (s.run a inst)
  | add {callback : QueuedCallback} :
      s.glue = .adding callback →
      Moves s .add { s with collector := s.collector ++ [callback], glue := .notifying }
  | notify :
      s.glue = .notifying → s.msg.holdsMutex = false →
      Moves s .notify { s with isReady := true, glue := .done }
  | callbackReturn {inst : Instance} :
      s.glue = .done → Transition s.inst .callbackReturn inst →
      Moves s .callbackReturn { s with inst, glue := .out }
  | wake :
      s.msg = .waiting → s.isReady = true →
      Moves s .wake { s with isReady := false, msg := .collecting }
  | collect :
      s.msg = .collecting →
      Moves s .collect { s with collector := [], msg := .handling s.collector }
  | handlerCall {a : Sacs.Action} {inst : Instance} {callbacks : List QueuedCallback} :
      s.msg = .handling callbacks → isCall a = true → Transition s.inst a inst →
      Moves s (.handlerCall a) { s with inst }
  | handlerRegister {n : Str} {ps : List Property} {callbacks : List QueuedCallback} :
      s.msg = .handling callbacks →
      Moves s (.handlerRegister n ps) { s with
        inst := s.inst.post (.doRegisterModule ⟨-1, n, ps, some jniCallback⟩ .app)
        msg := .registering (s.inst.threadLoop.length + 1) callbacks }
  | registered {callbacks : List QueuedCallback} :
      s.msg = .registering 0 callbacks →
      Moves s .registered { s with msg := .handling callbacks }
  | handlerReturn {c : QueuedCallback} {callbacks : List QueuedCallback} :
      s.msg = .handling (c :: callbacks) →
      Moves s .handlerReturn { s with msg := .handling callbacks }
  | unlock : s.msg = .handling [] → Moves s .unlock { s with msg := .waiting }

theorem run_of_ne (s : Android) {a : Sacs.Action} (htask : a ≠ .task) (inst : Instance) :
    s.run a inst = { s with inst } := by
  cases a with
  | task => exact absurd rfl htask
  | _ => rfl

theorem moves_of_step {s s' : Android} {a : Action} (h : s.step a = .ok s') : s.Moves a s' := by
  cases a with
  | inst a =>
    simp only [step] at h
    split_ifs at h with ha
    obtain ⟨inst, hst, ⟨⟩⟩ := bind_eq_ok.1 h
    exact .inst ha (transition_of_step hst)
  | add =>
    simp only [step] at h
    split at h
    · rename_i hglue
      cases h
      exact .add hglue
    · cases h
  | notify =>
    simp only [step] at h
    split at h
    · rename_i hglue
      split_ifs at h with hmutex
      cases h
      exact .notify hglue (by simpa using hmutex)
    · cases h
  | callbackReturn =>
    simp only [step] at h
    split at h
    · rename_i hglue
      obtain ⟨inst, hst, ⟨⟩⟩ := bind_eq_ok.1 h
      exact .callbackReturn hglue (transition_of_step hst)
    · cases h
  | wake =>
    simp only [step] at h
    split at h
    · rename_i hmsg
      split_ifs at h with hready
      cases h
      exact .wake hmsg hready
    · cases h
  | collect =>
    simp only [step] at h
    split at h
    · rename_i hmsg
      cases h
      exact .collect hmsg
    · cases h
  | handlerCall a =>
    simp only [step] at h
    split at h
    · rename_i hmsg
      split_ifs at h with ha
      obtain ⟨inst, hst, ⟨⟩⟩ := bind_eq_ok.1 h
      exact .handlerCall hmsg ha (transition_of_step hst)
    · cases h
  | handlerRegister n ps =>
    simp only [step] at h
    split at h
    · rename_i hmsg
      cases h
      have hlen : (s.inst.post
          (.doRegisterModule ⟨-1, n, ps, some jniCallback⟩ .app)).threadLoop.length =
          s.inst.threadLoop.length + 1 := by
        simp [Instance.post]
      have hmoves : s.Moves (.handlerRegister n ps) _ := .handlerRegister hmsg
      rwa [← hlen] at hmoves
    · cases h
  | registered =>
    simp only [step] at h
    split at h
    · rename_i hmsg
      cases h
      exact .registered hmsg
    · cases h
  | handlerReturn =>
    simp only [step] at h
    split at h
    · rename_i hmsg
      cases h
      exact .handlerReturn hmsg
    · cases h
  | unlock =>
    simp only [step] at h
    split at h
    · rename_i hmsg
      cases h
      exact .unlock hmsg
    · cases h

/-! ## Handlers that register modules -/

/-- Without a task, and without calls by a callback, the modules stay, and the queue grows. -/
theorem keeps_of_transition {s s' : Instance} {a : Sacs.Action} (h : Transition s a s')
    (ha : allows a = true ∨ a = .callbackReturn) (htask : a ≠ .task) :
    s'.modules = s.modules ∧ s'.idCounter = s.idCounter ∧
      ∃ ts, s'.threadLoop = s.threadLoop ++ ts := by
  have hqueue : ∃ ts, s'.threadLoop = s.threadLoop ++ ts := by
    rcases h.posts with ⟨h₁, -⟩ | ⟨-, ts, hts, -⟩
    · exact absurd h₁ htask
    · exact ⟨ts, hts⟩
  cases h.edits with
  | keep hmodules hcounter => exact ⟨hmodules, hcounter, hqueue⟩
  | add h₁ => exact absurd h₁ htask
  | remove hu =>
    rcases hu with ⟨h₁, -⟩ | h₁
    · exact absurd h₁ htask
    · subst h₁
      simp [allows] at ha
  | save hsaves =>
    rcases hsaves with h₁ | ⟨h₁, -⟩
    · cases a <;> simp [Instance.appSaves?, allows] at h₁ ha htask
    · exact absurd h₁ htask

/-- While a handler waits for the loop thread to register its module, this thread is in
    no module callback that is not done, and calls none before. -/
def Safe (s : Android) : Prop :=
  ∀ n callbacks, s.msg = .registering (n + 1) callbacks →
    (s.glue = .out ∨ s.glue = .done) ∧ n ≤ s.inst.threadLoop.length ∧
      callsBack s.inst.modules s.inst.idCounter (s.inst.threadLoop.take n) = false

theorem exists_registering {pc : MsgPc} (h : 0 < pc.ahead) :
    ∃ n callbacks, pc = .registering (n + 1) callbacks := by
  cases pc with
  | registering n callbacks =>
    obtain ⟨n, rfl⟩ := Nat.exists_eq_add_one.2 h
    exact ⟨n, callbacks, rfl⟩
  | _ => exact absurd h (Nat.lt_irrefl 0)

theorem Safe.not_deadlocked {s : Android} (hs : s.Safe) : ¬s.Deadlocked := by
  rintro ⟨hglue, -, hahead⟩
  obtain ⟨n, callbacks, hmsg⟩ := exists_registering hahead
  have := (hs n callbacks hmsg).1
  simp [hglue] at this

/-- A step of the instance that is no task keeps the handler safe. -/
theorem Safe.keep {s s' : Android} (hs : s.Safe) {a : Sacs.Action}
    (h : Transition s.inst a s'.inst) (ha : allows a = true ∨ a = .callbackReturn)
    (htask : a ≠ .task) (hmsg : s'.msg = s.msg)
    (hglue : s.glue = .out ∨ s.glue = .done → s'.glue = .out ∨ s'.glue = .done) : s'.Safe := by
  intro n callbacks hn
  obtain ⟨hg, hlen, hno⟩ := hs n callbacks (hmsg ▸ hn)
  obtain ⟨hmodules, hcounter, ts, hts⟩ := keeps_of_transition h ha htask
  refine ⟨hglue hg, ?_, ?_⟩
  · rw [hts, List.length_append]
    omega
  · rwa [hmodules, hcounter, hts, List.take_append_of_le_length hlen]

/-- The tasks before the registration call no callback, hence neither does the next one. -/
theorem Safe.task {s : Android} {inst : Instance} (hs : s.Safe)
    (h : Transition s.inst .task inst) : (s.run .task inst).Safe := by
  intro n callbacks hn
  have hmsg : s.msg = .registering (n + 2) callbacks := by
    change s.msg.task = .registering (n + 1) callbacks at hn
    cases hm : s.msg with
    | registering k cs =>
      rw [hm] at hn
      cases k with
      | zero => cases hn
      | succ k =>
        cases hn
        rfl
    | _ => rw [hm] at hn; cases hn
  obtain ⟨-, hlen, hno⟩ := hs _ _ hmsg
  obtain ⟨t, ht⟩ := h.takes
  rw [ht.threadLoop, List.take_succ_cons] at hno
  obtain ⟨hcalls, hrest⟩ := callsBack_of_task h ht hno
  refine ⟨.inl ?_, ?_, hrest⟩
  · change GluePc.enter inst = .out
    rw [GluePc.enter]
    split
    · rename_i hloop _
      exact absurd (calls_of_callback h ht hloop) (by simp [hcalls])
    · rfl
  · rw [ht.threadLoop, List.length_cons] at hlen
    exact Nat.le_of_succ_le_succ hlen

theorem Safe.step {s s' : Android} {a : Action} (hs : s.Safe) (ha : s.Careful a)
    (h : s.Moves a s') : s'.Safe := by
  -- Elsewhere, the `MsgThread` does not wait for the loop thread after the step.
  have hfree : (∀ n callbacks, s'.msg ≠ .registering (n + 1) callbacks) → s'.Safe :=
    fun hmsg n callbacks hn => absurd hn (hmsg n callbacks)
  cases h with
  | @inst a inst hallows h =>
    by_cases htask : a = .task
    · subst htask
      exact hs.task h
    · rw [s.run_of_ne htask]
      exact hs.keep h (.inl hallows) htask rfl id
  | add hglue =>
    intro n callbacks hn
    have := (hs n callbacks hn).1
    simp [hglue] at this
  | notify hglue =>
    intro n callbacks hn
    have := (hs n callbacks hn).1
    simp [hglue] at this
  | callbackReturn _ h => exact hs.keep h (.inr rfl) Sacs.Action.noConfusion rfl fun _ => .inl rfl
  | @handlerRegister _ _ cs hmsg =>
    intro n callbacks hn
    obtain ⟨hnot, hno⟩ : s.glue.notifies = false ∧
        callsBack s.inst.modules s.inst.idCounter s.inst.threadLoop = false := by
      simpa [Careful, WillNotify] using ha
    change MsgPc.registering (s.inst.threadLoop.length + 1) cs =
      .registering (n + 1) callbacks at hn
    cases hn
    refine ⟨?_, ?_, ?_⟩
    · change s.glue = .out ∨ s.glue = .done
      cases hg : s.glue with
      | out => exact .inl rfl
      | done => exact .inr rfl
      | _ => rw [hg] at hnot; cases hnot
    · simp [Instance.post]
    · simpa [Instance.post] using hno
  | wake => exact hfree fun _ _ => MsgPc.noConfusion
  | collect => exact hfree fun _ _ => MsgPc.noConfusion
  | handlerCall hmsg => exact hfree fun _ _ hn => MsgPc.noConfusion (hmsg.symm.trans hn)
  | registered => exact hfree fun _ _ => MsgPc.noConfusion
  | handlerReturn => exact hfree fun _ _ => MsgPc.noConfusion
  | unlock => exact hfree fun _ _ => MsgPc.noConfusion

/-- The threads do not deadlock, in any run in which handlers register modules only
    while the loop thread is not going to notify the `MsgThread`. -/
theorem not_deadlocked_of_runs {as : List Action} {s : Android}
    (h : Lts.Run (Lts.Under Careful Steps) {} as s) : ¬s.Deadlocked := by
  have hinit : Safe {} := fun _ _ hn => MsgPc.noConfusion hn
  have hs : s.Safe :=
    h.invariant hinit fun _ _ _ hs hst => hs.step hst.1 (moves_of_step hst.2)
  exact hs.not_deadlocked

/-- The user of a web client activates a property, and the `MsgThread` is about to call
    the handler of the Java application for it. -/
def handling : List Action :=
  activation.map .inst ++ [.inst .task, .add, .notify, .callbackReturn, .inst (.wsReply 0),
    .wake, .collect]

/-- The user activates it again only after the handler has called `RegisterModule`. -/
theorem not_deadlocked_of_handler : ∃ s, Lts.Run (Lts.Under Careful Steps) {}
    (handling ++ [.handlerRegister (Str.lit "Temporary") [], .inst (.wsMessage 0 ⟨activate, false⟩),
      .inst .task, .inst .task, .add]) s ∧ ¬s.Deadlocked := by
  obtain ⟨s, hs, -⟩ := Lts.exists_run_of_foldlM (Lts.guard Careful step .disabled) {}
    (handling ++ [.handlerRegister (Str.lit "Temporary") [], .inst (.wsMessage 0 ⟨activate, false⟩),
      .inst .task, .inst .task, .add]) (fun _ => ()) () (by decide +kernel)
  exact ⟨s, hs.under_of_guard, not_deadlocked_of_runs hs.under_of_guard⟩

/-! ## The deadlock -/

/-- In `JniGlue::InternalCallback`, the loop thread runs no other task. -/
def Calling (s : Android) : Prop := s.glue ≠ .out → ∃ request, s.inst.loop = .callback request

theorem Calling.step {s s' : Android} {a : Action} (hs : s.Calling) (h : s.Moves a s') :
    s'.Calling := by
  have hoff : ∀ {b : Sacs.Action}, Transition s.inst b s'.inst → b.onLoop = false →
      s'.glue = s.glue → s'.Calling := by
    intro b h hb hglue hne
    rw [(h.offLoop hb).loop]
    exact hs (hglue ▸ hne)
  cases h with
  | @inst b inst hallows h =>
    by_cases htask : b = .task
    · subst htask
      intro hne
      change GluePc.enter inst ≠ .out at hne
      rw [GluePc.enter] at hne
      split at hne
      · exact ⟨_, ‹_›⟩
      · exact absurd rfl hne
    · rw [s.run_of_ne htask] at hoff ⊢
      cases hb : b.onLoop with
      | false => exact hoff h hb rfl
      | true =>
        -- The loop thread sends what is queued only between two tasks.
        have hflush : b = .flush := by
          cases b <;> simp [allows, Sacs.Action.onLoop] at hallows hb htask ⊢
        subst hflush
        intro hne
        obtain ⟨request, hl⟩ := hs hne
        cases h <;> exact LoopPc.noConfusion (hl.symm.trans ‹_›)
  | add hglue => exact fun _ => hs (by simp [hglue])
  | notify hglue => exact fun _ => hs (by simp [hglue])
  | callbackReturn => exact fun hne => absurd rfl hne
  | @handlerCall b _ _ _ hcall h =>
    refine hoff h ?_ rfl
    cases b <;> simp [isCall, Sacs.Action.onLoop] at hcall ⊢
  | handlerRegister => exact hs
  | wake => exact hs
  | collect => exact hs
  | registered => exact hs
  | handlerReturn => exact hs
  | unlock => exact hs

theorem Deadlocked.step {s s' : Android} {a : Action} (hs : s.Deadlocked) (hcall : s.Calling)
    (h : s.Moves a s') : s'.Deadlocked := by
  obtain ⟨hglue, hmutex, hahead⟩ := hs
  obtain ⟨n, callbacks, hmsg⟩ := exists_registering hahead
  have hmoves : ∀ {pc : MsgPc}, s.msg = pc → pc = .registering (n + 1) callbacks := by
    intro pc hpc
    rw [← hpc, hmsg]
  cases h with
  | @inst b inst _ h =>
    have hne : b ≠ .task := by
      rintro rfl
      obtain ⟨t, ht⟩ := h.takes
      obtain ⟨request, hl⟩ := hcall (by simp [hglue])
      exact LoopPc.noConfusion (hl.symm.trans ht.idle)
    cases b with
    | task => exact absurd rfl hne
    | _ => exact ⟨hglue, hmutex, hahead⟩
  | add hadd => exact GluePc.noConfusion (hglue.symm.trans hadd)
  | notify _ hfree => exact absurd hmutex (by simp [hfree])
  | callbackReturn hdone => exact GluePc.noConfusion (hglue.symm.trans hdone)
  | wake h => cases hmoves h
  | collect h => cases hmoves h
  | handlerCall h => cases hmoves h
  | handlerRegister h => cases hmoves h
  | registered h => cases hmoves h
  | handlerReturn h => cases hmoves h
  | unlock h => cases hmoves h

/-- Once the threads wait for each other, they do for good. -/
theorem Deadlocked.of_run {as bs : List Action} {s t : Android} (has : Lts.Run Steps {} as s)
    (hs : s.Deadlocked) (h : Lts.Run Steps s bs t) : t.Deadlocked := by
  have hcall : s.Calling :=
    has.invariant (fun hne => absurd rfl hne) fun _ _ _ hs hst => hs.step (moves_of_step hst)
  have hboth : t.Deadlocked ∧ t.Calling := by
    refine h.invariant (P := fun t => t.Deadlocked ∧ t.Calling) ⟨hs, hcall⟩ ?_
    intro _ _ _ hboth hst
    exact ⟨hboth.1.step hboth.2 (moves_of_step hst), hboth.2.step (moves_of_step hst)⟩
  exact hboth.1

/-- The user activates the property again, before the handler registers a module: the
    task passing this update is before the one registering the module. -/
theorem deadlocked_of_handler : ∃ s, Lts.Run Steps {} (handling ++
    [.inst (.wsMessage 0 ⟨activate, false⟩), .handlerRegister (Str.lit "Temporary") [], .inst .task,
      .add]) s ∧ s.Deadlocked := by
  obtain ⟨s, hs, hpcs⟩ := Lts.exists_run_of_foldlM step {} (handling ++
    [.inst (.wsMessage 0 ⟨activate, false⟩), .handlerRegister (Str.lit "Temporary") [], .inst .task,
      .add]) (fun s => (s.glue.locks, s.msg.holdsMutex, s.msg.ahead))
    (true, true, 1) (by decide +kernel)
  obtain ⟨hglue, hmutex, hahead⟩ : s.glue.locks = true ∧ s.msg.holdsMutex = true ∧
      s.msg.ahead = 1 := by
    simpa using hpcs
  exact ⟨s, hs, GluePc.eq_notifying hglue, hmutex, by omega⟩

end Android

end Sacs
