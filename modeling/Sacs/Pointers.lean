import Sacs.Faults

/-!
# The pointers of the roles

A proxy has a pointer to the connection to the host, `_client`, and one to the
`ProxyServer`, `_server`. Exactly one of them is not null once the role of the
instance is decided. Messages are pushed through the first one, in an instance that
is not the host, and the updates of a module without a callback are passed on through
the second one: such a module is taken to be an image.

* No message is pushed through a null pointer (`intact_pushMsg`).
* An update is passed on through a null pointer exactly if the host has sent it to an
  instance whose module has no callback (`not_callsNull_iff`).
-/

namespace Sacs

open Json JsonMsg ModuleManager

/-- If the code fails, it does otherwise than by going through a null pointer. -/
structure Intact {α : Type} (x : Except Fault α) : Prop where
  ne : x ≠ .error .nullPointer

theorem bind_eq_error {α β : Type} {x : Except Fault α} {f : α → Except Fault β} {e : Fault} :
    (x >>= f) = .error e ↔ x = .error e ∨ ∃ a, x = .ok a ∧ f a = .error e := by
  cases x with
  | error e' => simp [bind, Except.bind]
  | ok a => simp

namespace Intact

variable {α β : Type}

theorem ok (a : α) : Intact (.ok a) := ⟨by simp⟩

theorem throw {e : Fault} (h : e ≠ .nullPointer) : Intact (.error e : Except Fault α) :=
  ⟨by simpa using h⟩

theorem bind {x : Except Fault α} {f : α → Except Fault β} (hx : Intact x)
    (hf : ∀ a, x = .ok a → Intact (f a)) : Intact (x >>= f) := by
  refine ⟨fun h => ?_⟩
  rcases bind_eq_error.1 h with h | ⟨a, ha, h⟩
  · exact hx.ne h
  · exact (hf a ha).ne h

theorem map {x : Except Fault α} (f : α → β) (hx : Intact x) : Intact (x.map f) := by
  cases x with
  | error e => exact throw fun he => hx.ne (he ▸ rfl)
  | ok a => exact ok _

theorem mapM {f : α → Except Fault β} (hf : ∀ a, Intact (f a)) (as : List α) :
    Intact (as.mapM f) := by
  induction as with
  | nil => exact ok _
  | cons a as ih =>
    rw [List.mapM_cons]
    exact (hf a).bind fun _ _ => ih.bind fun _ _ => ok _

theorem foldlM {f : β → α → Except Fault β} (hf : ∀ b a, Intact (f b a)) (as : List α) (b : β) :
    Intact (as.foldlM f b) := by
  induction as generalizing b with
  | nil => exact ok _
  | cons a as ih =>
    rw [List.foldlM_cons]
    exact (hf b a).bind fun b' _ => ih b'

end Intact

/-! ## The messages -/

namespace Json

theorem intact_getInt (j : Json) : Intact j.getInt := by
  cases j with
  | float q =>
    rw [getInt]
    split_ifs <;> first | exact .ok _ | exact .throw (by decide)
  | _ => first | exact .ok _ | exact .throw (by decide)

theorem intact_getString (j : Json) : Intact j.getString := by
  cases j <;> first | exact .ok _ | exact .throw (by decide)

theorem intact_assign (j : Json) (key : Str) (v : Json) : Intact (j.assign key v) := by
  cases j <;> first | exact .ok _ | exact .throw (by decide)

theorem intact_index (j : Json) (key : Str) : Intact (j.index key) := by
  rw [index]
  split
  · exact .ok _
  · exact (intact_assign ..).map _

theorem intact_elements (j : Json) : Intact j.elements := by
  unfold elements
  split <;> first | exact .ok _ | exact .throw (by decide)

theorem intact_dump (j : Json) : Intact j.dump := by
  rw [dump]
  split_ifs
  · exact .ok _
  · exact .throw (by decide)

end Json

namespace JsonMsg

theorem intact_valueToString (j : Json) (key : Str) : Intact (valueToString j key) := by
  rw [valueToString]
  split
  · exact .ok _
  · exact intact_getString _

theorem intact_valueToInt (j : Json) (key : Str) : Intact (valueToInt j key) := by
  rw [valueToInt]
  split
  · exact .ok _
  · exact intact_getInt _

theorem intact_parse (t : Text) : Intact (parse t) := by
  cases t with
  | other => exact .ok _
  | json j utf8 => exact ((intact_valueToString ..).bind fun _ _ => .ok _).bind fun _ _ => .ok _

theorem intact_toString (msg : JsonMsg) : Intact msg.toString := by
  rw [toString]
  split_ifs
  · exact intact_dump _
  · exact .ok _

theorem intact_findId (msg : JsonMsg) : Intact msg.findId := by
  rw [findId]
  split
  · split
    · exact .ok _
    · exact intact_valueToInt ..
  all_goals first | exact intact_valueToInt .. | exact .ok _

theorem intact_setId (msg : JsonMsg) (id : Int32) : Intact (msg.setId id) :=
  (intact_assign ..).map _

theorem intact_getPropertiesList (msg : JsonMsg) : Intact msg.getPropertiesList := by
  have hupdate : ∀ j, Intact (toUpdate j) := fun j =>
    (intact_valueToInt ..).bind fun _ _ => (intact_valueToString ..).bind fun _ _ => .ok _
  rw [getPropertiesList]
  split_ifs
  · exact .ok _
  · exact (intact_index ..).bind fun _ _ => (intact_elements _).bind fun _ _ =>
      (Intact.mapM hupdate _).bind fun _ _ => .ok _

end JsonMsg

/-! ## The module manager -/

theorem Module.intact_save (m : Module) (ps : Updates) : Intact (m.save ps) := by
  refine Intact.foldlM (fun m p => ?_) ps m
  rw [setPropertyValue]
  split_ifs
  · exact .ok _
  · exact .throw (by decide)
  · exact .ok _

theorem intact_savePropertiesList (s : Instance) (off : Bool) (id : Int32) (ps : Updates) :
    Intact (savePropertiesList s off id ps) := by
  rw [savePropertiesList]
  split_ifs
  · exact .ok _
  · split
    · exact .ok _
    · exact (Module.intact_save ..).bind fun _ _ => .ok _

/-- A message is pushed through the pointer that is not null. -/
theorem intact_pushMsg {s : Instance} (hs : s.serverImpl = true ∨ s.client.isSome = true)
    (msg : Text) : Intact (pushMsg s msg) := by
  obtain ⟨s', h⟩ := exists_pushMsg hs msg
  rw [h]
  exact .ok _

theorem intact_handleMessage {s : Instance} (hs : s.Pushes) (msg : Text) :
    Intact (handleMessage s false msg) := by
  obtain ⟨s', h⟩ := exists_handleMessage hs msg
  rw [h]
  exact .ok _

/-- Only the `Proxy` of an instance that is not the host has no `ProxyServer`. -/
theorem handlePropertyUpdate_eq_null_iff {s : Instance} {json : JsonMsg} :
    Proxy.handlePropertyUpdate s json = .error .nullPointer ↔ s.server = false := by
  rw [Proxy.handlePropertyUpdate]
  split_ifs with hserver
  · have hintact : Intact (ProxyServer.handlePropertyUpdate s json) := by
      refine (intact_findId json).bind fun id _ => ?_
      dsimp only
      split_ifs
      · exact (intact_setId ..).bind fun _ _ => (intact_toString _).bind fun _ _ => .ok _
      · exact .ok _
    exact iff_of_false hintact.ne (by simp [hserver])
  · exact iff_of_true rfl (by simpa using hserver)

/-- The message has updates for a module without a callback, that are saved. -/
def Instance.Unheard (s : Instance) (json : JsonMsg) : Prop :=
  ∃ id m m' ps json', json.findId = .ok id ∧ s.modules.find? id = some m ∧ m.callback = none ∧
    json.getPropertiesList = .ok (ps, json') ∧ ps ≠ [] ∧ m.save ps = .ok m'

/-- What is passed on through a null pointer are updates for such a module, in an instance
    that is not the host. -/
theorem passPropertyUpdateToModule_eq_null_iff {s : Instance} {json : JsonMsg} :
    passPropertyUpdateToModule s false json = .error .nullPointer ↔
      s.server = false ∧ s.Unheard json := by
  rw [passPropertyUpdateToModule, if_neg Bool.false_ne_true, bind_eq_error,
    or_iff_right (intact_findId json).ne]
  constructor
  · rintro ⟨id, hid, h⟩
    cases hm : s.modules.find? id with
    | none => rw [hm] at h; cases h
    | some m =>
      rw [hm] at h
      rcases bind_eq_error.1 h with h | ⟨⟨ps, json'⟩, hps, h⟩
      · exact absurd h (intact_getPropertiesList json).ne
      dsimp only at h
      split_ifs at h with hne
      · cases h
      rcases bind_eq_error.1 h with h | ⟨s₁, hs₁, h⟩
      · exact absurd h (intact_savePropertiesList ..).ne
      obtain ⟨hm', -⟩ | ⟨m₀, m', hm₀, hm', rfl⟩ := savePropertiesList_cases hs₁
      · cases hm.symm.trans hm'
      cases hm.symm.trans hm₀
      cases hcb : m.callback with
      | some callback => rw [hcb] at h; cases h
      | none =>
        rw [hcb] at h
        have hserver := handlePropertyUpdate_eq_null_iff.1 h
        exact ⟨hserver, id, m, m', ps, json', hid, hm, hcb, hps,
          hne, hm'⟩
  · rintro ⟨hserver, id, m, m', ps, json', hid, hm, hcb, hps, hne, hm'⟩
    have hsave : savePropertiesList s false id ps = .ok (s.saved id ps m') := by
      rw [savePropertiesList, if_neg Bool.false_ne_true, hm]
      dsimp only
      rw [hm']
      rfl
    refine ⟨id, hid, ?_⟩
    rw [hm]
    dsimp only
    rw [hps, bind_ok]
    dsimp only
    rw [if_neg hne, hsave, bind_ok, hcb]
    exact handlePropertyUpdate_eq_null_iff.2 hserver

/-! ## The steps -/

/-- The action calls `Proxy::PushMsgForJS` or `Proxy::HandlePropertyUpdate` while the
    pointer this goes through is null. The handler of a message of another instance, which
    calls neither, goes through another one. -/
def Instance.CallsNull (s : Instance) (a : Action) : Prop :=
  s.step a = .error .nullPointer ∧ ∀ c msg, a ≠ .read c msg

/-- The instance is not the host, and is to pass on updates to a module without a
    callback. -/
def Instance.Misled (s : Instance) (a : Action) : Prop :=
  a = .task ∧ s.server = false ∧
    ∃ json q, Takes s (.passPropertyUpdateToModule json) q ∧ s.Unheard json

theorem runTask_eq_null_iff {s : Instance} (hs : s.Pushes) {t : Task}
    (hrequest : ∀ json w, t = .doProcessJSRequest json w → s.server = true) :
    runTask s t = .error .nullPointer ↔
      s.server = false ∧ ∃ json, t = .passPropertyUpdateToModule json ∧ s.Unheard json := by
  have hintact : Intact (runTask s t) → (∀ json, t ≠ .passPropertyUpdateToModule json) →
      (runTask s t = .error .nullPointer ↔
        s.server = false ∧ ∃ json, t = .passPropertyUpdateToModule json ∧ s.Unheard json) :=
    fun h ht => iff_of_false h.ne fun ⟨_, json, hjson, _⟩ => ht json hjson
  cases t with
  | onProxyInitialized hostMode => exact hintact (.ok _) (by simp)
  | handleMessage msg => exact hintact (intact_handleMessage hs msg) (by simp)
  | doRegisterModule m promise =>
    refine hintact ?_ (by simp)
    simp only [runTask, doRegisterModule]
    split_ifs
    · exact .throw (by decide)
    · exact (intact_dump _).bind fun msg _ =>
        (intact_handleMessage (s := s.added promise m) hs msg).bind fun _ _ => .ok _
  | unregisterModule id =>
    refine hintact ?_ (by simp)
    exact (intact_dump _).bind fun msg _ => intact_handleMessage (s := s.removed id) hs msg
  | savePropertiesList id ps => exact hintact (intact_savePropertiesList ..) (by simp)
  | doProcessJSRequest json w =>
    refine hintact ?_ (by simp)
    have hserver := hrequest json w rfl
    have hpass : Intact (passPropertyUpdateToModule s false json) := by
      refine ⟨fun h => ?_⟩
      have := (passPropertyUpdateToModule_eq_null_iff.1 h).1
      simp [hserver] at this
    simp only [runTask, doProcessJSRequest]
    split
    · exact (intact_dump _).bind fun _ _ => hpass.bind fun _ _ => .ok _
    · exact hpass.bind fun _ _ => .ok _
    · exact .ok _
  | passPropertyUpdateToModule json =>
    refine passPropertyUpdateToModule_eq_null_iff.trans (and_congr_right fun _ => ?_)
    simp

/-- The loop thread starts to pass on the messages when it learns the role. -/
theorem Transition.flushing {s s' : Instance} {a : Action} (h : Transition s a s')
    (hl : s'.loop = .flushing) : s.loop = .flushing ∨ s'.initialized = true := by
  cases ha : a.onLoop with
  | false => exact .inl ((h.offLoop ha).loop.symm.trans hl)
  | true =>
    have hkeep : s'.loop = s.loop → s.loop = .flushing ∨ s'.initialized = true := fun h =>
      .inl (h.symm.trans hl)
    have hpass : ∀ {s₁ s₂ : Instance} {json : JsonMsg}, Passes s₁ json s₂ → s₂.loop = .flushing →
        s₁.loop = .flushing := by
      intro s₁ s₂ json h hl
      cases h with
      | invoked => cases hl
      | _ => exact hl
    have hanswer : ∀ {s₁ : Instance} {w response}, (answer s₁ w response).loop = .flushing →
        s₁.loop = .flushing := by
      intro s₁ w response hl
      rw [answer] at hl
      split at hl
      · cases hl
      · exact hl
    cases h with
    | taskRole => exact .inr rfl
    | taskHandle _ h => exact hkeep (handleMessage_emits h).loop
    | taskRegister ht _ _ h =>
      have hidle := (handleMessage_emits h).loop.trans ht.idle
      rw [fulfil_loop _ _ _ fun r => by rw [hidle]; exact LoopPc.noConfusion, hidle] at hl
      cases hl
    | taskUnregister _ _ h => exact hkeep (handleMessage_emits h).loop
    | taskLoad _ _ _ h =>
      have hl' := hpass h (hanswer hl)
      exact .inl hl'
    | taskApply _ _ h =>
      have hl' := hpass h (hanswer hl)
      exact .inl hl'
    | taskPass _ h =>
      have hl' := hpass h hl
      exact .inl hl'
    | flush _ _ h => exact hkeep (pushMsg_emits h).loop
    | callbackUnregister _ _ h => exact hkeep (handleMessage_emits h).loop
    | callbackUpdate _ hs _ h =>
      obtain ⟨_, _, rfl⟩ := savePropertiesList_frame hs
      exact hkeep (handleMessage_emits h).loop
    | callbackUpdateThrows _ hs _ =>
      obtain ⟨_, _, rfl⟩ := savePropertiesList_frame hs
      exact hkeep rfl
    | _ => first | exact hkeep rfl | cases hl

/-- The loop thread passes the messages on after it has learnt the role. -/
theorem initialized_of_flushing {as : List Action} {s : Instance} (h : Instance.Runs as s)
    (hl : s.loop = .flushing) : s.initialized = true := by
  induction h with
  | nil => cases hl
  | snoc _ hst ih =>
    have hst := transition_of_step hst
    rcases hst.flushing hl with hl | hi
    · have hi := ih hl
      cases hst.role with
      | keep h => exact h.initialized.trans hi
      | tell _ _ h => rw [h]
      | connect _ _ h => exact h ▸ hi
      | serve _ _ h => exact h ▸ hi
    · exact hi

/-- An action other than a task, and than a message of a client, goes through no null pointer:
    what it sends goes through the proxy once it is there. -/
theorem intact_step {as : List Action} {s : Instance} (h : Instance.Runs as s) {a : Action}
    (htask : a ≠ .task) (hread : ∀ c msg, a ≠ .read c msg) : Intact (s.step a) := by
  have hpush := pushes_of_runs h
  cases a with
  | task => exact absurd rfl htask
  | read c msg => exact absurd rfl (hread c msg)
  | registerModule n ps cb => exact .ok _
  | unregisterModule id => exact .ok _
  | updateProperties id ps => exact .ok _
  | announce i =>
    rw [Instance.step, Instance.announceCall]
    split
    · exact .throw (by decide)
    · dsimp only
      split <;> exact .ok _
  | flush =>
    rw [Instance.step]
    split
    · rename_i hl
      rw [flush]
      split
      · exact .ok _
      · rename_i msg q _
        exact intact_pushMsg (s := { s with msgQueue := q })
          (hpush (initialized_of_flushing h hl)) msg
    · exact .throw (by decide)
  | callbackUnregisterModule id =>
    rw [Instance.step]
    split
    · exact (intact_dump _).bind fun msg _ =>
        intact_handleMessage (s := (s.log (.unregister id)).removed id) hpush msg
    · exact .throw (by decide)
  | callbackUpdateProperties id ps =>
    rw [Instance.step]
    split
    · refine (intact_savePropertiesList ..).bind fun s₁ hs₁ => ?_
      have hpush₁ : s₁.Pushes := by
        obtain ⟨_, _, rfl⟩ := savePropertiesList_frame hs₁
        exact hpush
      split
      · exact intact_handleMessage hpush₁ _
      · exact .ok _
    · exact .throw (by decide)
  | callbackRegisterModule n ps cb =>
    rw [Instance.step]
    split
    · exact .ok _
    · exact .throw (by decide)
  | callbackReturn =>
    rw [Instance.step, Instance.returnCallback]
    split
    · exact .ok _
    · exact .ok _
    · exact .throw (by decide)
  | connecting ok => exact .ok _
  | proxyRead msg =>
    rw [Instance.step]
    split_ifs
    · exact (intact_parse msg).bind fun _ _ => .ok _
    · exact .throw (by decide)
  | resume c =>
    rw [Instance.step, ProxyServer.resume]
    split
    · exact .ok _
    · exact (intact_toString _).bind fun _ _ => .ok _
    · split <;> exact .ok _
    · exact .throw (by decide)
  | wsMessage w msg =>
    rw [Instance.step]
    split
    · simp only [ServerImpl.onWsClientMessage]
      split_ifs
      · exact .ok _
      · refine (intact_parse msg.text).bind fun json _ => ?_
        split_ifs <;> exact .ok _
    · exact .throw (by decide)
  | accept c =>
    rw [Instance.step]
    split_ifs <;> first | exact .ok _ | exact .throw (by decide)
  | wsConnected w =>
    rw [Instance.step]
    split_ifs <;> first | exact .ok _ | exact .throw (by decide)
  | _ =>
    rw [Instance.step]
    split <;> first | exact .ok _ | exact .throw (by decide)

/-- A task may pass on updates. -/
theorem task_eq_null_iff {as : List Action} {s : Instance} (h : Instance.Runs as s) :
    s.step .task = .error .nullPointer ↔ s.Misled .task := by
  have hs := hosting_of_runs h
  have hpush := pushes_of_runs h
  rw [Instance.step, Instance.nextTask]
  split
  · rename_i t q hidle hq
    have ht : Takes s t q := ⟨hidle, hq⟩
    have hrequest : ∀ json w, t = .doProcessJSRequest json w → s.server = true := fun json w e =>
      (hs.requests t (hq ▸ List.mem_cons_self) json w e).2
    rw [runTask_eq_null_iff (s := { s with threadLoop := q }) hpush hrequest]
    constructor
    · rintro ⟨hserver, json, rfl, h⟩
      exact ⟨rfl, hserver, json, q, ht, h⟩
    · rintro ⟨-, hserver, json, q', ht', h⟩
      obtain ⟨rfl, rfl⟩ := ht.inj ht'
      exact ⟨hserver, json, rfl, h⟩
  · rename_i hno
    refine iff_of_false (by simp) ?_
    rintro ⟨-, -, json, q, ht, -⟩
    exact hno _ _ ht.idle ht.threadLoop

theorem step_eq_null_iff {as : List Action} {s : Instance} (h : Instance.Runs as s) (a : Action)
    (ha : ∀ c msg, a ≠ .read c msg) : s.step a = .error .nullPointer ↔ s.Misled a := by
  by_cases htask : a = .task
  · subst htask
    exact task_eq_null_iff h
  · exact iff_of_false (intact_step h htask ha).ne fun hmisled => htask hmisled.1

/-- In every state reached, an action calls no function of the proxy through a null
    pointer if and only if it does not pass on updates, sent by the host, to a module
    without a callback. -/
theorem not_callsNull_iff {as : List Action} {s : Instance} (h : Instance.Runs as s) (a : Action) :
    ¬s.CallsNull a ↔ ¬s.Misled a := by
  refine not_congr ⟨fun hnull => (step_eq_null_iff h a hnull.2).1 hnull.1, fun hmisled => ?_⟩
  have ha : ∀ c msg, a ≠ .read c msg := by
    rintro c msg rfl
    cases hmisled.1
  exact ⟨(step_eq_null_iff h a ha).2 hmisled, ha⟩

/-- An instance that is not the host, and that has a module. -/
def sensing (callback : Option Callback) : List Action :=
  [.registerModule (Str.lit "Sensor") [⟨3, Str.lit "Limit", [], false⟩] callback, .task,
    .connecting true, .task, .flush, .flush]

/-- The host sends it an update of a web client. -/
def limit : Text := .json (applyRequest 0 [(0, Str.lit "9")]) (by decide +kernel)

/-- The next task passes on updates. -/
def Instance.passing (s : Instance) : Bool :=
  match s.loop, s.threadLoop with
  | .idle, .passPropertyUpdateToModule _ :: _ => true
  | _, _ => false

theorem exists_takes_of_passing {s : Instance} (h : s.passing = true) :
    ∃ json q, Takes s (.passPropertyUpdateToModule json) q := by
  rw [Instance.passing] at h
  split at h
  · rename_i json q hl hq
    exact ⟨json, q, hl, hq⟩
  · cases h

/-- The update is passed on to a module with a callback. -/
theorem not_callsNull_of_limit : ∃ s,
    Instance.Runs (sensing (some 5) ++ [.proxyRead limit]) s ∧ s.server = false ∧
    (∃ json q, Takes s (.passPropertyUpdateToModule json) q) ∧ ¬s.CallsNull .task ∧
    ∃ s', s.step .task = .ok s' ∧ s'.invocations = [⟨5, 0, [0], [Str.lit "9"]⟩] := by
  obtain ⟨s, h, hobs⟩ := Instance.exists_runs (sensing (some 5) ++ [.proxyRead limit])
    (fun s => decide (s.server = false ∧ s.passing ∧
      s.modules.entries.all (fun e => e.2.callback.isSome) ∧
      (s.step .task).toOption.map Instance.invocations = some [⟨5, 0, [0], [Str.lit "9"]⟩])) true
    (by decide +kernel)
  simp only [decide_eq_true_eq] at hobs
  obtain ⟨hserver, hpassing, hcallbacks, hinvs⟩ := hobs
  refine ⟨s, h, hserver, exists_takes_of_passing hpassing, (not_callsNull_iff h _).2 ?_, ?_⟩
  · -- The only module has a callback.
    rintro ⟨-, -, json, q, ht, id, m, m', ps, json', hid, hm, hnone, -⟩
    have hcallback := List.all_eq_true.1 hcallbacks _ (OrdMap.find?_eq_some_iff.1 hm)
    rw [hnone] at hcallback
    cases hcallback
  · cases hst : s.step .task with
    | ok s' =>
      rw [hst] at hinvs
      exact ⟨s', rfl, Option.some.inj hinvs⟩
    | error e =>
      rw [hst] at hinvs
      cases hinvs

/-- The code went through a null pointer. -/
def isNull {α : Type} : Except Fault α → Bool
  | .error .nullPointer => true
  | _ => false

theorem callsNull_of_limit : ∃ s, Instance.Runs (sensing none ++ [.proxyRead limit]) s ∧
    s.CallsNull .task := by
  obtain ⟨s, h, hnull⟩ := Instance.exists_runs (sensing none ++ [.proxyRead limit])
    (fun s => isNull (s.step .task)) true (by decide +kernel)
  refine ⟨s, h, ?_, by simp⟩
  cases hst : s.step .task with
  | ok s' => rw [hst] at hnull; cases hnull
  | error e =>
    rw [hst] at hnull
    cases e <;> first | rfl | cases hnull

end Sacs
