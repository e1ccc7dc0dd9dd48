import Sacs.Registry

/-!
# The announcements of an instance

The messages an instance passes on by `HandleMessage`, in order
(`Instance.handled`), and of these the announcements about a module
(`Instance.announcements`).

They should be the registration of the module, then updates, then at most its
unregistration (`WellFormed`). But nothing checks that the id of an update or of
an unregistration is that of a module: what they are said to be about is
announced in any case. So they are well formed in the runs in which these calls
are made for modules that are registered (`Instance.Proper`): such runs keep the
invariant `Instance.Orderly`, by which every task of the queue announces
something about a module registered when it is run
(`announcements_wellFormed`).
-/

namespace Sacs

open JsonMsg ModuleManager

/-! ## Messages handled -/

@[simp] def Event.handled? : Event → Option Text
  | .handled msg => some msg
  | _ => none

/-- The messages passed on by `HandleMessage` so far. -/
def Instance.handled (s : Instance) : List Text := s.trace.filterMap Event.handled?

theorem handled_of_trace {s s' : Instance} {es : List Event} (h : s'.trace = s.trace ++ es) :
    s'.handled = s.handled ++ es.filterMap Event.handled? := by
  rw [Instance.handled, h, List.filterMap_append]
  rfl

theorem handled_added (s : Instance) (promise : Promise) (m : Module) :
    (s.added promise m).handled = s.handled :=
  (handled_of_trace rfl).trans (List.append_nil _)

theorem handled_removed (s : Instance) (id : Int32) : (s.removed id).handled = s.handled :=
  (handled_of_trace rfl).trans (List.append_nil _)

theorem handled_saved (s : Instance) (id : Int32) (ps : Updates) (m : Module) :
    (s.saved id ps m).handled = s.handled :=
  (handled_of_trace rfl).trans (List.append_nil _)

theorem handled_pushMsg {s s' : Instance} {msg : Text} (h : pushMsg s msg = .ok s') :
    s'.handled = s.handled := by
  obtain ⟨-, rfl⟩ | ⟨-, sent, -, rfl⟩ := pushMsg_cases h
  · obtain ⟨ls, h, -⟩ := ServerImpl.pushMsgForJS_eq (s := s) msg
    rw [h, handled_of_trace rfl]
    simp [List.filterMap_eq_nil_iff]
  · rw [handled_of_trace rfl]
    simp

theorem handled_handleMessage {s s' : Instance} {msg : Text}
    (h : handleMessage s false msg = .ok s') : s'.handled = s.handled ++ [msg] := by
  obtain ⟨-, rfl⟩ | ⟨-, h⟩ := handleMessage_cases h
  · rw [handled_of_trace rfl]
    simp
  · rw [handled_pushMsg h, Instance.log, handled_of_trace rfl]
    simp

theorem handled_savePropertiesList {s s' : Instance} {id : Int32} {ps : Updates}
    (h : savePropertiesList s false id ps = .ok s') : s'.handled = s.handled := by
  obtain ⟨-, rfl⟩ | ⟨m, m', hm, hm', rfl⟩ := savePropertiesList_cases h
  · rfl
  · exact handled_saved s id ps m'

theorem Passes.handled {s s' : Instance} {json : JsonMsg} (h : Passes s json s') :
    s'.handled = s.handled := by
  cases h with
  | nothing => rfl
  | unrouted => exact handled_saved ..
  | @sent id _ m ps => exact handled_saved s id ps m
  | @invoked id _ m ps =>
    exact (handled_of_trace rfl).trans ((List.append_nil _).trans (handled_saved s id ps m))

@[simp] theorem handled_answer (s : Instance) (w : ClientId) (response : Text) :
    (answer s w response).handled = s.handled := by
  obtain ⟨es, hes, hout⟩ := answer_trace s w response
  rw [handled_of_trace hes, List.filterMap_eq_nil_iff.2 fun e he => by rw [hout e he]; rfl,
    List.append_nil]

@[simp] theorem handled_fulfil (s : Instance) (promise : Promise) (id : Int32) :
    (fulfil s promise id).handled = s.handled := by
  simp only [Instance.handled, fulfil_trace]

/-! ## Announcements -/

/-- What is announced about a module. -/
inductive Announcement
  | added
  | updated
  | removed
  deriving DecidableEq

/-- What a message says about the module `id`. -/
def Text.announces (msg : Text) (id : Int32) : Option Announcement :=
  match parse msg with
  | .error _ => none
  | .ok j =>
    match j.findId with
    | .error _ => none
    | .ok id' =>
      if id' = id then
        match j.type with
        | .moduleAdd => some .added
        | .propertyUpdate => some .updated
        | .moduleDel => some .removed
        | _ => none
      else none

/-- What has been announced about the module `id`. -/
def Instance.announcements (s : Instance) (id : Int32) : List Announcement :=
  s.handled.filterMap (·.announces id)

/-- The registration, then updates, then at most the unregistration, and nothing
    after it. -/
def WellFormed (stream : List Announcement) : Prop :=
  ∃ n, stream = [] ∨ stream = .added :: List.replicate n .updated ∨
    stream = .added :: (List.replicate n .updated ++ [.removed])

theorem announces_of_parse {msg : Text} {json : JsonMsg} {id' : Int32} {k : Announcement}
    (hjson : parse msg = .ok json) (hid : json.findId = .ok id')
    (hk : (json.type = .moduleAdd ∧ k = .added) ∨ (json.type = .propertyUpdate ∧ k = .updated) ∨
      (json.type = .moduleDel ∧ k = .removed)) (id : Int32) :
    msg.announces id = if id' = id then some k else none := by
  rw [Text.announces, hjson]
  dsimp only
  rw [hid]
  dsimp only
  rcases hk with ⟨ht, rfl⟩ | ⟨ht, rfl⟩ | ⟨ht, rfl⟩ <;> rw [ht]

theorem announces_createModuleAdded {m : Module} {msg : Text} (h : createModuleAdded m = .ok msg)
    (id : Int32) : msg.announces id = if m.id = id then some .added else none := by
  obtain ⟨json, hjson, htype, hid, -⟩ := parse_createModuleAdded h
  exact announces_of_parse hjson hid (.inl ⟨htype, rfl⟩) id

theorem announces_createModuleRemoved {i : Int32} {msg : Text} (h : createModuleRemoved i = .ok msg)
    (id : Int32) : msg.announces id = if i = id then some .removed else none := by
  obtain ⟨json, hjson, htype, hid⟩ := parse_createModuleRemoved h
  exact announces_of_parse hjson hid (.inr (.inr ⟨htype, rfl⟩)) id

theorem announces_createPropertyUpdated {i : Int32} {ps : Updates} {msg : Text}
    (h : createPropertyUpdated i ps = .ok msg) (id : Int32) :
    msg.announces id = if i = id then some .updated else none := by
  obtain ⟨json, hjson, htype, hid, -⟩ := parse_createPropertyUpdated h
  exact announces_of_parse hjson hid (.inr (.inl ⟨htype, rfl⟩)) id

/-! ## The calls that keep the announcements well formed -/

def Instance.registered (s : Instance) (id : Int32) : Bool := (s.modules.find? id).isSome

def Task.registers : Task → Bool
  | .doRegisterModule .. => true
  | _ => false

/-- Once the tasks `q` of the queue are run, the module `id` is registered, and none
    of them unregisters it. -/
def Instance.LivesAfter (s : Instance) (q : List Task) (id : Int32) : Prop :=
  (s.registered id ∨ s.idCounter ≤ id ∧ id.toInt < s.idCounter.toInt + q.countP Task.registers) ∧
    Task.unregisterModule id ∉ q

/-- The task announces an update of the module `id`, or its unregistration. -/
def Task.Concerns (t : Task) (id : Int32) : Prop :=
  t = .unregisterModule id ∨ ∃ msg, t = .handleMessage msg ∧ msg.announces id = some .updated

/-- An update of the module `id` is saved, or to be, and its announcement still to
    be posted. -/
def Instance.HalfWay (s : Instance) (id : Int32) : Prop :=
  (∃ ps, (id, ps) ∈ s.calls ∧ Announceable ps) ∨
    ∃ c json, s.handler c = .updating json ∧ json.findId = .ok id

/-- The module `id` can be updated: it is registered when the tasks in the queue
    are run. -/
abbrev Instance.Updatable (s : Instance) (id : Int32) : Prop := s.LivesAfter s.threadLoop id

/-- The module `id` can be unregistered: it can be updated, and is not. -/
def Instance.Removable (s : Instance) (id : Int32) : Prop := s.Updatable id ∧ ¬s.HalfWay id

/-- The updates and unregistrations are those of modules that are registered when
    they come to be announced. Updates that are not announced, as their values are
    not valid, do not matter. -/
def Instance.Proper (s : Instance) : Action → Prop
  | .unregisterModule id => s.Removable id
  | .updateProperties id ps => Announceable ps → s.Updatable id
  | .callbackUnregisterModule id =>
    s.registered id ∧ ¬s.HalfWay id ∧ ∀ t ∈ s.threadLoop, ¬t.Concerns id
  | .callbackUpdateProperties id ps => Announceable ps → s.registered id
  | .read c msg => ∀ json id, parse msg = .ok json → json.findId = .ok id →
    (json.type = .moduleDel → s.Removable (ProxyServer.localIdFromRemote s id c)) ∧
    (json.type = .propertyUpdate → s.Updatable (ProxyServer.localIdFromRemote s id c))
  | .resume c => s.handler c = .closing → ∀ id remote,
    ProxyServer.nextOfClient s c = some (id, remote) → s.Removable id
  | _ => True

/-! ## The invariant -/

/-- What has been announced: the registration and updates of the modules that are
    registered, also the unregistration of those that were, nothing else. -/
structure Instance.Streams (s : Instance) : Prop where
  live : ∀ {id}, s.registered id →
    ∃ n, s.announcements id = .added :: List.replicate n .updated
  gone : ∀ {id}, 0 ≤ id → id < s.idCounter → s.registered id = false →
    ∃ n, s.announcements id = .added :: (List.replicate n .updated ++ [.removed])
  new : ∀ {id}, id < 0 ∨ s.idCounter ≤ id → s.announcements id = []

/-- What the announcements made and those in the queue are. -/
structure Instance.Orderly (s : Instance) : Prop where
  fresh : s.Fresh
  queued : ∀ {before t after id}, s.threadLoop = before ++ t :: after → t.Concerns id →
    s.LivesAfter before id
  messages : ∀ {msg}, Task.handleMessage msg ∈ s.threadLoop → ∀ {id k},
    msg.announces id = some k → k = .updated
  halfWay : ∀ {id}, s.HalfWay id → s.Updatable id
  updating : ∀ {c json}, s.handler c = .updating json →
    json.Parsed ∧ json.type = .propertyUpdate
  streams : s.Streams

theorem Instance.LivesAfter.congr {s s' : Instance} (hr : s'.registered = s.registered)
    (hn : s'.idCounter = s.idCounter) {q : List Task} {id : Int32} :
    s'.LivesAfter q id ↔ s.LivesAfter q id := by
  rw [LivesAfter, LivesAfter, hr, hn]

/-- A task that does not unregister the module does not matter. -/
theorem Instance.LivesAfter.append {s : Instance} {q : List Task} {id : Int32}
    (h : s.LivesAfter q id) {t : Task} (ht : t ≠ .unregisterModule id) :
    s.LivesAfter (q ++ [t]) id := by
  have hcount : q.countP Task.registers ≤ (q ++ [t]).countP Task.registers := by
    rw [List.countP_append]
    exact Nat.le_add_right _ _
  exact ⟨h.1.imp_right fun h' => ⟨h'.1, by omega⟩, by simpa [ht.symm] using h.2⟩

theorem handler_of_fulfil {s : Instance} {promise : Promise} {id : Int32} {c : ClientId}
    {json : JsonMsg} (h : (fulfil s promise id).handler c = .updating json) :
    s.handler c = .updating json := by
  unfold fulfil at h
  split at h
  · exact h
  · exact h
  · exact h
  · split at h
    · exact handler_of_setHandler (s := s) HandlerPc.noConfusion h
    · exact h

/-- What the message of a handler announces. -/
theorem announces_toString {json : JsonMsg} {msg : Text} (hp : json.Parsed)
    (ht : json.type = .propertyUpdate) (hmsg : json.toString = .ok msg) {id : Int32}
    {k : Announcement} (hk : msg.announces id = some k) :
    k = .updated ∧ json.findId = .ok id := by
  obtain ⟨msg', hmsg', hjson⟩ := hp.exists_toString
  cases Except.ok.inj (hmsg.symm.trans hmsg')
  rw [Text.announces, hjson] at hk
  dsimp only at hk
  split at hk
  · cases hk
  · rename_i id' hid
    split_ifs at hk with h
    subst h
    rw [ht] at hk
    exact ⟨(Option.some.inj hk).symm, hid⟩

theorem registered_saved {s : Instance} (id : Int32) (ps : Updates) (m : Module) :
    (s.saved id ps m).registered = s.registered := by
  funext i
  rw [Instance.registered, Instance.saved, OrdMap.find?_modify]
  split_ifs with h
  · rw [h, Option.isSome_map]
    rfl
  · rfl

theorem OffLoop.handled {s s' : Instance} (h : OffLoop s s') : s'.handled = s.handled := by
  obtain ⟨es, hes, hout⟩ := h.trace
  rw [handled_of_trace hes, List.filterMap_eq_nil_iff.2, List.append_nil]
  intro e he
  rcases hout e he with ⟨id, rfl⟩ | ⟨w, rfl⟩ <;> rfl

theorem registered_of_modules {s s' : Instance} (h : s'.modules = s.modules) :
    s'.registered = s.registered := by
  funext id
  rw [Instance.registered, h]
  rfl

theorem registered_savePropertiesList {s s' : Instance} {id : Int32} {ps : Updates}
    (h : savePropertiesList s false id ps = .ok s') : s'.registered = s.registered := by
  obtain ⟨-, rfl⟩ | ⟨m, m', hm, hm', rfl⟩ := savePropertiesList_cases h
  · rfl
  · exact registered_saved ..

theorem Passes.registered {s s' : Instance} {json : JsonMsg} (h : Passes s json s') :
    s'.registered = s.registered := by
  cases h with
  | nothing => rfl
  | unrouted => exact registered_saved ..
  | @sent id _ m ps => exact registered_saved id ps m
  | @invoked id _ m ps => exact registered_saved id ps m

theorem registered_removed {s s' : Instance} {i : Int32} (h : s'.modules = s.modules.erase i)
    (id : Int32) : s'.registered id = (s.registered id && id ≠ i) := by
  rw [Instance.registered, h, OrdMap.find?_erase]
  split_ifs with hid <;> simp [hid, Instance.registered]

/-! ### What is announced -/

theorem Instance.Fresh.of_registered {s : Instance} (hs : s.Fresh) {id : Int32}
    (h : s.registered id) : 0 ≤ id ∧ id < s.idCounter := by
  obtain ⟨m, hm⟩ := Option.isSome_iff_exists.1 h
  exact (hs.key hm).2

theorem announcements_of_handled {s s' : Instance} {msg : Text}
    (h : s'.handled = s.handled ++ [msg]) (id : Int32) :
    s'.announcements id = s.announcements id ++ (msg.announces id).toList := by
  rw [Instance.announcements, h, List.filterMap_append, List.filterMap_cons]
  cases msg.announces id <;> rfl

namespace Instance.Streams

variable {s s' : Instance} (hs : s.Streams)

include hs

theorem keep (hr : s'.registered = s.registered) (hn : s'.idCounter = s.idCounter)
    (hh : s'.handled = s.handled) : s'.Streams := by
  have ha : s'.announcements = s.announcements := by
    funext id
    rw [announcements, announcements, hh]
  exact ⟨by rw [hr, ha]; exact hs.live, by rw [hr, hn, ha]; exact hs.gone,
    by rw [hn, ha]; exact hs.new⟩

/-- A message about updates of modules that are registered. -/
theorem updated (hf : s.Fresh) (hr : s'.registered = s.registered)
    (hn : s'.idCounter = s.idCounter) {msg : Text} (hh : s'.handled = s.handled ++ [msg])
    (hmsg : ∀ id k, msg.announces id = some k → k = .updated ∧ s.registered id) : s'.Streams := by
  have hnone : ∀ {id}, s.registered id = false → s'.announcements id = s.announcements id := by
    intro id hid
    rw [announcements_of_handled hh]
    cases hk : msg.announces id with
    | none => exact List.append_nil _
    | some k => exact absurd (hmsg id k hk).2 (by simp [hid])
  refine ⟨fun {id} hid => ?_, fun {id} h₀ hlt hid => ?_, fun {id} hid => ?_⟩
  · rw [hr] at hid
    obtain ⟨n, ha⟩ := hs.live hid
    rw [announcements_of_handled hh, ha]
    cases hk : msg.announces id with
    | none => exact ⟨n, List.append_nil _⟩
    | some k =>
      obtain ⟨rfl, -⟩ := hmsg id k hk
      exact ⟨n + 1, by simp [List.replicate_succ']⟩
  · rw [hr] at hid
    rw [hn] at hlt
    rw [hnone hid]
    exact hs.gone h₀ hlt hid
  · rw [hn] at hid
    rw [hnone, hs.new hid]
    by_contra hreg
    obtain ⟨h₀, hlt⟩ := hf.of_registered (by simpa using hreg)
    rcases hid with h | h
    · exact absurd h₀ (not_le.2 h)
    · exact absurd hlt (not_lt.2 h)

/-- The message about a module registered by the step. -/
theorem added (hf : s.Fresh) (hmax : s.idCounter ≠ Int32.maxValue)
    (hr : ∀ id, s'.registered id = (s.registered id || id = s.idCounter))
    (hn : s'.idCounter = s.idCounter + 1) {msg : Text} (hh : s'.handled = s.handled ++ [msg])
    (hmsg : ∀ id, msg.announces id = if s.idCounter = id then some .added else none) :
    s'.Streams := by
  have hlt := lt_add_one hmax
  have hother : ∀ {id}, id ≠ s.idCounter → s'.announcements id = s.announcements id := by
    intro id hid
    rw [announcements_of_handled hh, hmsg, if_neg hid.symm]
    exact List.append_nil _
  refine ⟨fun {id} hid => ?_, fun {id} h₀ hid hreg => ?_, fun {id} hid => ?_⟩
  · by_cases h : id = s.idCounter
    · subst h
      rw [announcements_of_handled hh, hs.new (.inr le_rfl), hmsg, if_pos rfl]
      exact ⟨0, rfl⟩
    · rw [hother h]
      exact hs.live (by simpa [hr, h] using hid)
  · rw [hr, Bool.or_eq_false_iff, decide_eq_false_iff_not] at hreg
    rw [hother hreg.2]
    refine hs.gone h₀ (lt_of_le_of_ne ?_ hreg.2) hreg.1
    rw [hn, Int32.lt_iff_toInt_lt, toInt_add_one hmax] at hid
    rw [Int32.le_iff_toInt_le]
    omega
  · have hne : id ≠ s.idCounter := by
      rintro rfl
      rw [hn] at hid
      rcases hid with h | h
      · exact absurd hf.counter (not_le.2 h)
      · exact absurd hlt (not_lt.2 h)
    rw [hother hne]
    exact hs.new (hid.imp_right fun h => hlt.le.trans (hn ▸ h))

/-- The message about a module unregistered by the step. -/
theorem removed (hf : s.Fresh) {i : Int32} (hi : s.registered i)
    (hr : ∀ id, s'.registered id = (s.registered id && id ≠ i))
    (hn : s'.idCounter = s.idCounter) {msg : Text} (hh : s'.handled = s.handled ++ [msg])
    (hmsg : ∀ id, msg.announces id = if i = id then some .removed else none) : s'.Streams := by
  have hother : ∀ {id}, id ≠ i → s'.announcements id = s.announcements id := by
    intro id hid
    rw [announcements_of_handled hh, hmsg, if_neg hid.symm]
    exact List.append_nil _
  refine ⟨fun {id} hid => ?_, fun {id} h₀ hlt hreg => ?_, fun {id} hid => ?_⟩
  · rw [hr, Bool.and_eq_true, decide_eq_true_eq] at hid
    rw [hother hid.2]
    exact hs.live hid.1
  · by_cases h : id = i
    · subst h
      obtain ⟨n, ha⟩ := hs.live hi
      rw [announcements_of_handled hh, ha, hmsg, if_pos rfl]
      exact ⟨n, rfl⟩
    · rw [hother h]
      exact hs.gone h₀ (hn ▸ hlt) (by simpa [hr, h] using hreg)
  · obtain ⟨h₀, hlt⟩ := hf.of_registered hi
    rw [hn] at hid
    have hne : id ≠ i := by
      rintro rfl
      exact hid.elim (fun h => absurd h₀ (not_le.2 h)) fun h => absurd hlt (not_lt.2 h)
    rw [hother hne]
    exact hs.new hid

end Instance.Streams

/-! ### Steps -/

namespace Instance.Orderly

variable {s s' : Instance} (hs : s.Orderly)

include hs

/-- A step that posts a task, at most, and passes on no message. -/
theorem posts (t? : Option Task) (hf : s'.Fresh) (hr : s'.registered = s.registered)
    (hn : s'.idCounter = s.idCounter) (hh : s'.handled = s.handled)
    (hq : s'.threadLoop = s.threadLoop ++ t?.toList)
    (hc : ∀ t ∈ t?, ∀ id, t.Concerns id → s.Updatable id)
    (hm : ∀ t ∈ t?, ∀ msg, t = .handleMessage msg →
      ∀ id k, msg.announces id = some k → k = .updated)
    (hhalf : ∀ id, s'.HalfWay id → s.Updatable id ∧ ∀ t ∈ t?, t ≠ .unregisterModule id)
    (hu : ∀ c json, s'.handler c = .updating json → json.Parsed ∧ json.type = .propertyUpdate) :
    s'.Orderly := by
  refine ⟨hf, fun {before t after id} hbefore hct => ?_, fun {msg} hmsg {id k} hk => ?_,
    fun {id} hid => ?_, fun {c json} => hu c json, hs.streams.keep hr hn hh⟩
  · rw [LivesAfter.congr hr hn]
    rw [hq] at hbefore
    cases t? with
    | none => exact hs.queued (by simpa using hbefore) hct
    | some u =>
      obtain ⟨rfl, rfl⟩ | ⟨after', hq'⟩ := eq_append_cons_of_concat hbefore.symm
      · exact hc t rfl id hct
      · exact hs.queued hq' hct
  · rw [hq] at hmsg
    rcases List.mem_append.1 hmsg with h | h
    · exact hs.messages h hk
    · exact hm _ (Option.mem_toList.1 h) msg rfl id k hk
  · obtain ⟨hup, hne⟩ := hhalf id hid
    rw [Updatable, LivesAfter.congr hr hn, hq]
    cases t? with
    | none => simpa using hup
    | some u => exact hup.append (hne u rfl)

/-- A step that posts the task `t`, and passes on no message. -/
theorem postsTask (t : Task) (hf : s'.Fresh) (hr : s'.registered = s.registered)
    (hn : s'.idCounter = s.idCounter) (hh : s'.handled = s.handled)
    (hq : s'.threadLoop = s.threadLoop ++ [t]) (hc : ∀ id, t.Concerns id → s.Updatable id)
    (hm : ∀ msg, t = .handleMessage msg → ∀ id k, msg.announces id = some k → k = .updated)
    (hhalf : ∀ id, s'.HalfWay id → s.Updatable id ∧ t ≠ .unregisterModule id)
    (hu : ∀ c json, s'.handler c = .updating json → json.Parsed ∧ json.type = .propertyUpdate) :
    s'.Orderly := by
  refine hs.posts (some t) hf hr hn hh hq ?_ ?_ (fun id hid => ⟨(hhalf id hid).1, ?_⟩) hu <;>
    intro u hu' <;> cases Option.mem_some_iff.1 hu'
  · exact hc
  · exact hm
  · exact (hhalf id hid).2

/-- A step that posts a task announcing nothing, at most, and after which nothing
    more is half-way. -/
theorem inert (t? : Option Task) (hf : s'.Fresh) (hr : s'.registered = s.registered)
    (hn : s'.idCounter = s.idCounter) (hh : s'.handled = s.handled)
    (hq : s'.threadLoop = s.threadLoop ++ t?.toList)
    (ht : ∀ t ∈ t?, (∀ msg, t ≠ .handleMessage msg) ∧ ∀ id, t ≠ .unregisterModule id)
    (hcalls : s'.calls ⊆ s.calls)
    (hu : ∀ c json, s'.handler c = .updating json → s.handler c = .updating json) :
    s'.Orderly := by
  refine hs.posts t? hf hr hn hh hq (fun t htm id hct => ?_)
    (fun t htm msg h => absurd h ((ht t htm).1 msg)) (fun id hid => ⟨hs.halfWay ?_,
      fun t htm => (ht t htm).2 id⟩) fun c json h => hs.updating (hu c json h)
  · rcases hct with h | ⟨msg, h, -⟩
    · exact absurd h ((ht t htm).2 id)
    · exact absurd h ((ht t htm).1 msg)
  · rcases hid with ⟨ps, hps, hann⟩ | ⟨c, json, hc, hid⟩
    · exact .inl ⟨ps, hcalls hps, hann⟩
    · exact .inr ⟨c, json, hu c json hc, hid⟩

/-- A step that posts the unregistration of a module that can be unregistered. -/
theorem removes {id : Int32} (hid : s.Removable id) (hf : s'.Fresh)
    (hr : s'.registered = s.registered) (hn : s'.idCounter = s.idCounter)
    (hh : s'.handled = s.handled) (hq : s'.threadLoop = s.threadLoop ++ [.unregisterModule id])
    (hcalls : s'.calls = s.calls) (hhandler : s'.handler = s.handler) : s'.Orderly := by
  have hhalf : s'.HalfWay = s.HalfWay := by
    funext id'
    rw [HalfWay, HalfWay, hcalls, hhandler]
  refine hs.postsTask (.unregisterModule id) hf hr hn hh hq ?_ nofun ?_ ?_
  · rintro id' (h | ⟨msg, h, -⟩) <;> cases h
    exact hid.1
  · intro id' hid'
    rw [hhalf] at hid'
    refine ⟨hs.halfWay hid', fun h => ?_⟩
    cases h
    exact hid.2 hid'
  · rw [hhandler]
    exact fun c json h => hs.updating h

/-- A call of `UpdateProperties` posts its first task; it announces the updates later. -/
theorem updateProperties {id : Int32} {ps : Updates} (hp : Announceable ps → s.Updatable id)
    (hf : Fresh { s.post (.savePropertiesList id ps) with calls := s.calls ++ [(id, ps)] }) :
    Orderly { s.post (.savePropertiesList id ps) with calls := s.calls ++ [(id, ps)] } := by
  refine hs.postsTask (.savePropertiesList id ps) hf rfl rfl rfl rfl ?_ nofun ?_
    fun _ _ h => hs.updating h
  · rintro id' (h | ⟨msg, h, -⟩) <;> cases h
  · rintro id' (⟨ps', hmem, hann⟩ | hid)
    · refine ⟨?_, nofun⟩
      rcases List.mem_append.1 hmem with hmem | hmem
      · exact hs.halfWay (.inl ⟨ps', hmem, hann⟩)
      · cases List.mem_singleton.1 hmem
        exact hp hann
    · exact ⟨hs.halfWay (.inr hid), nofun⟩

/-- A call of `UpdateProperties` posts its second task. -/
theorem announce {i : Nat} {id : Int32} {ps : Updates} {msg : Text}
    (hi : s.calls[i]? = some (id, ps)) (hmsg : createPropertyUpdated id ps = .ok msg)
    (hf : Fresh (({ s with calls := s.calls.eraseIdx i } : Instance).post (.handleMessage msg))) :
    Orderly (({ s with calls := s.calls.eraseIdx i } : Instance).post (.handleMessage msg)) := by
  have hann := announces_createPropertyUpdated hmsg
  refine hs.postsTask (.handleMessage msg) hf rfl rfl rfl rfl ?_ ?_ ?_ fun _ _ h => hs.updating h
  · rintro id' (h | ⟨msg', h, hmsg'⟩) <;> cases h
    rw [hann] at hmsg'
    split_ifs at hmsg' with h
    exact h ▸ hs.halfWay (.inl ⟨ps, List.mem_of_getElem? hi,
      createPropertyUpdated_eq_ok_iff.1 ⟨_, hmsg⟩⟩)
  · rintro msg' h id' k hk
    cases h
    rw [hann] at hk
    split_ifs at hk
    exact (Option.some.inj hk).symm
  · rintro id' hid
    refine ⟨hs.halfWay (hid.imp_left ?_), nofun⟩
    rintro ⟨ps', hmem, hps'⟩
    exact ⟨ps', List.mem_of_mem_eraseIdx hmem, hps'⟩

/-- Updates are read from a client, of an image that can be updated. -/
theorem readUpdate {c : ClientId} {msg : Text} {json json' json'' : JsonMsg} {i : Int32}
    {ps : Updates} (hjson : parse msg = .ok json) (htype : json.type = .propertyUpdate)
    (hset : json.setId i = .ok json') (hps : json'.getPropertiesList = .ok (ps, json''))
    (hup : s.Updatable i)
    (hf : (ProxyServer.setHandler (s.post (.savePropertiesList i ps)) c (.updating json'')).Fresh) :
    (ProxyServer.setHandler (s.post (.savePropertiesList i ps)) c (.updating json'')).Orderly := by
  have hparsed : json.Parsed := parsed_of_type hjson (by simp [htype])
  obtain ⟨htype', hid', hparsed'⟩ := setId_spec hset
  obtain ⟨htype'', hid'', hparsed''⟩ := getPropertiesList_spec hps
  refine hs.postsTask (.savePropertiesList _ ps) hf rfl rfl rfl rfl ?_ nofun ?_ ?_
  · rintro id' (h | ⟨msg, h, -⟩) <;> cases h
  · rintro id' (hcalls | ⟨c', json₁, hc', hid₁⟩)
    · exact ⟨hs.halfWay (.inl hcalls), nofun⟩
    · refine ⟨?_, nofun⟩
      by_cases h : json'' = json₁
      · subst h
        rw [hid'', hid' (.inl htype)] at hid₁
        cases hid₁
        exact hup
      · exact hs.halfWay (.inr ⟨c', json₁, handler_of_setHandler (by simpa using h) hc', hid₁⟩)
  · intro c' json₁ hc'
    by_cases h : json'' = json₁
    · subst h
      exact ⟨hparsed'' (hparsed' hparsed), htype''.trans (htype'.trans htype)⟩
    · exact hs.updating (handler_of_setHandler (by simpa using h) hc')

/-- A handler announces the updates it has read. -/
theorem resumeUpdate {c : ClientId} {json : JsonMsg} {msg : Text}
    (hpc : s.handler c = .updating json) (hmsg : json.toString = .ok msg)
    (hf : (ProxyServer.setHandler (s.post (.handleMessage msg)) c .idle).Fresh) :
    (ProxyServer.setHandler (s.post (.handleMessage msg)) c .idle).Orderly := by
  obtain ⟨hparsed, htype⟩ := hs.updating hpc
  refine hs.postsTask (.handleMessage msg) hf rfl rfl rfl rfl ?_ ?_ ?_
    fun _ _ h => hs.updating (handler_of_setHandler HandlerPc.noConfusion h)
  · rintro id' (h | ⟨msg', h, hmsg'⟩) <;> cases h
    exact hs.halfWay (.inr ⟨c, json, hpc, (announces_toString hparsed htype hmsg hmsg').2⟩)
  · rintro msg' h id' k hk
    cases h
    exact (announces_toString hparsed htype hmsg hk).1
  · rintro id' (hid | ⟨c', json', hc', hid⟩)
    · exact ⟨hs.halfWay (.inl hid), nofun⟩
    · have hc := handler_of_setHandler HandlerPc.noConfusion hc'
      exact ⟨hs.halfWay (.inr ⟨c', json', hc, hid⟩), nofun⟩

/-- A step of a thread other than the loop. -/
theorem offLoop {a : Action} (h : Transition s a s') (ha : a.onLoop = false) (hp : s.Proper a) :
    s'.Orderly := by
  have hoff := h.offLoop ha
  have hf := h.registry.fresh hs.fresh
  have hr : s'.registered = s.registered := by
    funext id
    rw [registered, hoff.modules]
    rfl
  have hh := hoff.handled
  cases h <;> simp only [Action.onLoop, reduceCtorEq] at ha
  -- Tasks that concern no module.
  case registerModule | connectingProxy | connectingHost | proxyRead | wsRequest =>
    exact hs.inert (some _) hf hr rfl hh rfl (by simp) (List.Subset.refl _) fun _ _ h => h
  case readAdd =>
    exact hs.inert (some _) hf hr rfl hh rfl (by simp) (List.Subset.refl _) fun _ _ h =>
      handler_of_setHandler HandlerPc.noConfusion h
  case resumeAdd | resumeClosed | closed =>
    exact hs.inert none hf hr rfl hh (List.append_nil _).symm (by simp) (List.Subset.refl _)
      fun _ _ h => handler_of_setHandler HandlerPc.noConfusion h
  case announceThrows =>
    exact hs.inert none hf hr rfl hh (List.append_nil _).symm (by simp)
      (fun _ => List.mem_of_mem_eraseIdx) fun _ _ h => h
  -- Removals, proper only when no update of the module is under way (`hp`).
  case unregisterModule id =>
    exact hs.removes hp hf hr rfl hh rfl rfl rfl
  case readDel c msg json id hc hpc hjson htype hid =>
    exact hs.removes ((hp json id hjson hid).1 htype) hf hr rfl hh rfl rfl rfl
  case resumeClosing c id remote hpc hnext =>
    exact hs.removes (hp hpc id remote hnext) hf hr rfl hh rfl rfl rfl
  -- Updates, posted to be saved; the call announces them later.
  case updateProperties => exact hs.updateProperties hp hf
  case announce hi hmsg => exact hs.announce hi hmsg hf
  case readUpdate hjson htype hid hset hps =>
    exact hs.readUpdate hjson htype hset hps ((hp _ _ hjson hid).2 htype) hf
  case resumeUpdate hpc hmsg => exact hs.resumeUpdate hpc hmsg hf
  all_goals
    exact hs.inert none hf hr rfl hh (List.append_nil _).symm (by simp)
      (List.Subset.refl _) fun _ _ h => h

/-- A step that takes a task. -/
theorem takes {t : Task} {q : List Task} (ht : Takes s t q) (hf : s'.Fresh)
    (hq : s'.threadLoop = q)
    (hadv : ∀ before id, s.LivesAfter (t :: before) id → s'.LivesAfter before id)
    (hcalls : s'.calls = s.calls)
    (hu : ∀ c json, s'.handler c = .updating json → s.handler c = .updating json)
    (hstreams : s'.Streams) : s'.Orderly := by
  refine ⟨hf, fun {before u after id} hbefore hct => ?_, fun {msg} hmsg => ?_, fun {id} hid => ?_,
    fun {c json} h => hs.updating (hu c json h), hstreams⟩
  · have hbefore' : s.threadLoop = (t :: before) ++ u :: after := by
      rw [ht.threadLoop, ← hq, hbefore, List.cons_append]
    exact hadv before id (hs.queued hbefore' hct)
  · refine hs.messages ?_
    rw [ht.threadLoop, ← hq]
    exact List.mem_cons_of_mem _ hmsg
  · rw [Updatable, hq]
    refine hadv q id ?_
    rw [← ht.threadLoop]
    refine hs.halfWay (hid.imp (fun ⟨ps, hps⟩ => ⟨ps, hcalls ▸ hps⟩) ?_)
    exact fun ⟨c, json, hc, hid⟩ => ⟨c, json, hu c json hc, hid⟩

/-- A step that takes a task announcing nothing. -/
theorem takesInert {t : Task} {q : List Task} (ht : Takes s t q) (hf : s'.Fresh)
    (hq : s'.threadLoop = q) (hr : s'.registered = s.registered) (hn : s'.idCounter = s.idCounter)
    (hh : s'.handled = s.handled) (hreg : t.registers = false) (hcalls : s'.calls = s.calls)
    (hhandler : s'.handler = s.handler) : s'.Orderly := by
  refine hs.takes ht hf hq (fun before id hlive => ?_) hcalls (by simp [hhandler])
    (hs.streams.keep hr hn hh)
  rw [LivesAfter.congr hr hn]
  refine ⟨hlive.1.imp_right fun h => ?_, fun h => hlive.2 (List.mem_cons_of_mem _ h)⟩
  rwa [List.countP_cons_of_neg (by simp [hreg])] at h

/-- A module concerned by the task the loop thread takes is registered. -/
theorem registered_of_takes {t : Task} {q : List Task} (ht : Takes s t q) {id : Int32}
    (hid : t.Concerns id) : s.registered id := by
  rcases (hs.queued (ht.threadLoop.trans (List.nil_append _).symm) hid).1 with h | ⟨h₁, h₂⟩
  · exact h
  · rw [Int32.le_iff_toInt_le] at h₁
    simp only [List.countP_nil, Nat.cast_zero, Int.add_zero] at h₂
    omega

/-- A message of the queue is passed on. -/
theorem taskHandle {msg : Text} {q : List Task} (ht : Takes s (.handleMessage msg) q)
    (h : handleMessage { s with threadLoop := q } false msg = .ok s') (hf : s'.Fresh) :
    s'.Orderly := by
  have he := handleMessage_emits h
  have hh := handled_handleMessage h
  have hr : s'.registered = s.registered := registered_of_modules he.modules
  refine hs.takes ht hf he.threadLoop (fun before id hlive => ?_) he.calls (by simp [he.handler])
    (hs.streams.updated hs.fresh hr he.idCounter hh fun id k hk => ?_)
  · rw [LivesAfter.congr hr he.idCounter]
    exact ⟨by simpa [Task.registers] using hlive.1, fun h => hlive.2 (List.mem_cons_of_mem _ h)⟩
  · have := hs.messages (ht.threadLoop ▸ List.mem_cons_self) hk
    subst this
    exact ⟨rfl, hs.registered_of_takes ht (.inr ⟨_, rfl, hk⟩)⟩

/-- A module is registered, and announced. -/
theorem taskRegister {m : Module} {promise : Promise} {q : List Task} {msg : Text}
    {s₁ : Instance} (ht : Takes s (.doRegisterModule m promise) q)
    (hmax : s.idCounter ≠ Int32.maxValue)
    (hmsg : createModuleAdded (m.setId s.idCounter) = .ok msg)
    (h : handleMessage (({ s with threadLoop := q } : Instance).added promise m) false msg = .ok s₁)
    (hf : (fulfil s₁ promise s.idCounter).Fresh) : (fulfil s₁ promise s.idCounter).Orderly := by
  have he := handleMessage_emits h
  have hh := (handled_handleMessage h).trans (congrArg (· ++ [msg]) (handled_added ..))
  have hr : ∀ id, s₁.registered id = (s.registered id || id = s.idCounter) := fun id => by
    rw [registered, he.modules]
    simp only [added, OrdMap.find?_insert]
    split_ifs with hid <;> simp [hid, registered]
  have hn : s₁.idCounter = s.idCounter + 1 := he.idCounter
  refine hs.takes ht hf ((fulfil_threadLoop ..).trans he.threadLoop) (fun before id hlive => ?_)
    ((fulfil_calls ..).trans he.calls) (fun c json hc => ?_)
    ((hs.streams.added hs.fresh hmax hr hn hh (announces_createModuleAdded hmsg)).keep
      (registered_of_modules (fulfil_modules ..)) (fulfil_idCounter ..) (handled_fulfil ..))
  · rw [LivesAfter.congr (registered_of_modules (fulfil_modules ..)) (fulfil_idCounter ..),
      LivesAfter, hr, hn]
    refine ⟨?_, fun h => hlive.2 (List.mem_cons_of_mem _ h)⟩
    rcases hlive.1 with hreg | ⟨hle, hlt⟩
    · exact .inl (by simp [hreg])
    · by_cases hid : id = s.idCounter
      · exact .inl (by simp [hid])
      · refine .inr ?_
        have hne : id.toInt ≠ s.idCounter.toInt := fun h => hid (Int32.toInt_inj.1 h)
        rw [List.countP_cons_of_pos rfl] at hlt
        rw [Int32.le_iff_toInt_le] at hle ⊢
        rw [toInt_add_one hmax]
        omega
  · have := handler_of_fulfil hc
    rwa [he.handler] at this

/-- A module that is registered is unregistered. -/
theorem taskUnregister {i : Int32} {q : List Task} {msg : Text}
    (ht : Takes s (.unregisterModule i) q) (hmsg : createModuleRemoved i = .ok msg)
    (h : handleMessage (({ s with threadLoop := q } : Instance).removed i) false msg = .ok s')
    (hf : s'.Fresh) : s'.Orderly := by
  have he := handleMessage_emits h
  have hh := (handled_handleMessage h).trans (congrArg (· ++ [msg]) (handled_removed ..))
  have hr : ∀ id, s'.registered id = (s.registered id && id ≠ i) := registered_removed he.modules
  have hn : s'.idCounter = s.idCounter := he.idCounter
  refine hs.takes ht hf he.threadLoop (fun before id hlive => ?_) he.calls
    (fun c json hc => by rwa [he.handler] at hc)
    (hs.streams.removed hs.fresh (hs.registered_of_takes ht (.inl rfl)) hr hn hh
      (announces_createModuleRemoved hmsg))
  have hid : id ≠ i := fun h => hlive.2 (h ▸ List.mem_cons_self)
  rw [LivesAfter, hr, hn]
  exact ⟨by simpa [hid, Task.registers] using hlive.1,
    fun h => hlive.2 (List.mem_cons_of_mem _ h)⟩

/-- A callback unregisters a module that nothing in the queue, or half-way, is about. -/
theorem callbackUnregister {i : Int32} {msg : Text} (hmsg : createModuleRemoved i = .ok msg)
    (h : handleMessage ((s.log (.unregister i)).removed i) false msg = .ok s') (hf : s'.Fresh)
    (hp : s.Proper (.callbackUnregisterModule i)) : s'.Orderly := by
  have he := handleMessage_emits h
  have hh : s'.handled = s.handled ++ [msg] := (handled_handleMessage h).trans
    (congrArg (· ++ [msg]) ((handled_removed ..).trans ((handled_of_trace rfl).trans
      (List.append_nil _))))
  have hr : ∀ id, s'.registered id = (s.registered id && id ≠ i) := registered_removed he.modules
  have hn : s'.idCounter = s.idCounter := he.idCounter
  have hq : s'.threadLoop = s.threadLoop := he.threadLoop
  obtain ⟨hreg, hhalf, hno⟩ := hp
  have hother : ∀ {q id}, id ≠ i → s.LivesAfter q id → s'.LivesAfter q id := by
    intro q id hid hlive
    rw [LivesAfter, hr, hn]
    exact ⟨by simpa [hid] using hlive.1, hlive.2⟩
  refine ⟨hf, fun {before t after id} hbefore hct => ?_, fun {msg} hmsg => ?_,
    fun {id} hid => ?_, fun {c json} h => ?_,
    hs.streams.removed hs.fresh hreg hr hn hh (announces_createModuleRemoved hmsg)⟩
  · rw [hq] at hbefore
    refine hother (fun h => ?_) (hs.queued hbefore hct)
    subst h
    exact hno t (by simp [hbefore]) hct
  · rw [hq] at hmsg
    exact hs.messages hmsg
  · rw [HalfWay, he.calls, he.handler] at hid
    rw [Updatable, hq]
    exact hother (fun h => hhalf (h ▸ hid)) (hs.halfWay hid)
  · rw [he.handler] at h
    exact hs.updating h

/-- A callback updates a module that is registered. -/
theorem callbackUpdate {i : Int32} {ps : Updates} {msg : Text} {s₁ : Instance}
    (hsave : savePropertiesList s false i ps = .ok s₁) (hmsg : createPropertyUpdated i ps = .ok msg)
    (h : handleMessage s₁ false msg = .ok s') (hf : s'.Fresh)
    (hp : s.Proper (.callbackUpdateProperties i ps)) : s'.Orderly := by
  have he := handleMessage_emits h
  have hann := announces_createPropertyUpdated hmsg
  have hreg := hp (createPropertyUpdated_eq_ok_iff.1 ⟨_, hmsg⟩)
  have hh := (handled_handleMessage h).trans
    (congrArg (· ++ [msg]) (handled_savePropertiesList hsave))
  have hr := (registered_of_modules he.modules).trans (registered_savePropertiesList hsave)
  obtain ⟨hn₁, hq₁, hc₁, hh₁⟩ : s₁.idCounter = s.idCounter ∧ s₁.threadLoop = s.threadLoop ∧
      s₁.calls = s.calls ∧ s₁.handler = s.handler := by
    obtain ⟨-, rfl⟩ | ⟨m, m', hm, hm', rfl⟩ := savePropertiesList_cases hsave <;>
      exact ⟨rfl, rfl, rfl, rfl⟩
  have hn := he.idCounter.trans hn₁
  have hq := he.threadLoop.trans hq₁
  refine ⟨hf, fun {before t after id} hbefore hct => ?_, fun {msg} hmsg => ?_,
    fun {id} hid => ?_, fun {c json} h => ?_,
    hs.streams.updated hs.fresh hr hn hh fun id k hk => ?_⟩
  · rw [LivesAfter.congr hr hn]
    exact hs.queued (hq ▸ hbefore) hct
  · exact hs.messages (hq ▸ hmsg)
  · rw [HalfWay, he.calls, he.handler, hc₁, hh₁] at hid
    rw [Updatable, LivesAfter.congr hr hn, hq]
    exact hs.halfWay hid
  · rw [he.handler, hh₁] at h
    exact hs.updating h
  · rw [hann] at hk
    split_ifs at hk with hid
    exact ⟨(Option.some.inj hk).symm, hid ▸ hreg⟩

/-- A step of the loop thread. -/
theorem onLoop {a : Action} (h : Transition s a s') (ha : a.onLoop = true) (hp : s.Proper a) :
    s'.Orderly := by
  have hf := h.registry.fresh hs.fresh
  cases h with
  | taskRole ht => exact hs.takesInert ht hf rfl rfl rfl rfl rfl rfl rfl
  | taskHandle ht h => exact hs.taskHandle ht h hf
  | taskRegister ht hmax hmsg h => exact hs.taskRegister ht hmax hmsg h hf
  | taskUnregister ht hmsg h => exact hs.taskUnregister ht hmsg h hf
  | taskSaveNone ht _ => exact hs.takesInert ht hf rfl rfl rfl rfl rfl rfl rfl
  | taskSave ht hm hm' =>
    exact hs.takesInert ht hf rfl (registered_saved ..) rfl
      ((handled_of_trace rfl).trans (List.append_nil _)) rfl rfl rfl
  | taskOther ht _ _ =>
    exact hs.takesInert ht hf rfl rfl rfl ((handled_of_trace rfl).trans (List.append_nil _)) rfl rfl
      rfl
  | taskLoad ht _ _ h =>
    exact hs.takesInert ht hf ((answer_threadLoop ..).trans h.threadLoop)
      ((registered_of_modules (answer_modules ..)).trans h.registered)
      ((answer_idCounter ..).trans h.idCounter) ((handled_answer ..).trans h.handled) rfl
      ((answer_calls ..).trans h.calls) ((answer_handler ..).trans h.handler)
  | taskApply ht _ h =>
    exact hs.takesInert ht hf ((answer_threadLoop ..).trans h.threadLoop)
      ((registered_of_modules (answer_modules ..)).trans h.registered)
      ((answer_idCounter ..).trans h.idCounter) ((handled_answer ..).trans h.handled) rfl
      ((answer_calls ..).trans h.calls) ((answer_handler ..).trans h.handler)
  | taskPass ht h =>
    exact hs.takesInert ht hf h.threadLoop h.registered h.idCounter h.handled rfl h.calls h.handler
  | flushed hl _ =>
    exact hs.inert none hf rfl rfl rfl (List.append_nil _).symm (by simp) (List.Subset.refl _)
      fun _ _ h => h
  | flush hl _ h =>
    have he := pushMsg_emits h
    have hh := handled_pushMsg h
    exact hs.inert none hf (registered_of_modules he.modules) he.idCounter hh
      (he.threadLoop.trans (List.append_nil _).symm) (by simp) (by rw [he.calls]; simp)
      (by simp [he.handler])
  | callbackRegister hl =>
    exact hs.inert (some _) hf rfl rfl rfl rfl (by simp) (List.Subset.refl _) fun _ _ h => h
  | callbackUnregister _ hmsg h => exact hs.callbackUnregister hmsg h hf hp
  | callbackUpdate _ hsave hmsg h => exact hs.callbackUpdate hsave hmsg h hf hp
  | callbackUpdateThrows hl hsave _ =>
    have hr := registered_savePropertiesList hsave
    have hh := handled_savePropertiesList hsave
    obtain ⟨-, rfl⟩ | ⟨m, m', hm, hm', rfl⟩ := savePropertiesList_cases hsave <;>
      exact hs.inert none hf hr rfl hh (List.append_nil _).symm (by simp) (List.Subset.refl _)
        fun _ _ h => h
  | callbackReturn hl =>
    exact hs.inert none hf rfl rfl rfl (List.append_nil _).symm (by simp) (List.Subset.refl _)
      fun _ _ h => h
  | callbackAnswer hl =>
    exact hs.inert none hf rfl rfl ((handled_of_trace rfl).trans (List.append_nil _))
      (List.append_nil _).symm (by simp) (List.Subset.refl _) fun _ _ h => h
  | _ => simp only [Action.onLoop, Bool.false_eq_true] at ha

end Instance.Orderly

theorem orderly_of_runs {as : List Action} {s : Instance}
    (h : Lts.Run (Lts.Under Instance.Proper Instance.Steps) {} as s) : s.Orderly := by
  refine h.invariant ⟨⟨le_rfl, fun hm => by simp at hm⟩, fun hq => by simp at hq,
    fun hmsg => by simp at hmsg, ?_, fun hc => HandlerPc.noConfusion hc,
    ⟨fun hreg => by simp [Instance.registered] at hreg, fun h₀ hlt => absurd h₀ (not_le.2 hlt),
      fun _ => rfl⟩⟩ ?_
  · rintro id (⟨ps, hps, -⟩ | ⟨c, json, hc, -⟩)
    · exact absurd hps List.not_mem_nil
    · exact HandlerPc.noConfusion hc
  · rintro s a s' hs ⟨hp, hst⟩
    have h := transition_of_step hst
    cases ha : a.onLoop with
    | false => exact hs.offLoop h ha hp
    | true => exact hs.onLoop h ha hp

/-- In a run in which modules are updated and unregistered while they are
    registered, the announcements about every id are well formed, and those of a
    module that is registered at any moment have not ended. -/
theorem announcements_wellFormed {as : List Action} {s : Instance}
    (h : Lts.Run (Lts.Under Instance.Proper Instance.Steps) {} as s) (id : Int32) :
    WellFormed (s.announcements id) ∧
      (s.registered id ↔ ∃ n, s.announcements id = .added :: List.replicate n .updated) := by
  have hs := orderly_of_runs h
  cases hreg : s.registered id with
  | true =>
    obtain ⟨n, hn⟩ := hs.streams.live hreg
    exact ⟨⟨n, .inr (.inl hn)⟩, by simp [hn]⟩
  | false =>
    by_cases hid : 0 ≤ id ∧ id < s.idCounter
    · obtain ⟨n, hn⟩ := hs.streams.gone hid.1 hid.2 hreg
      refine ⟨⟨n, .inr (.inr hn)⟩, by simp, fun ⟨k, hk⟩ => ?_⟩
      rw [hn] at hk
      have : Announcement.removed ∈ List.replicate k Announcement.updated := by
        rw [← (List.cons.inj hk).2]
        simp
      simp at this
    · have hnew : s.announcements id = [] := hs.streams.new (by
        rwa [not_and_or, not_le, not_lt] at hid)
      exact ⟨⟨0, .inl hnew⟩, by simp [hnew]⟩

/-- An application unregisters its module twice: this is announced twice. -/
theorem not_wellFormed_of_unregister_twice : ∃ s, Instance.Runs
    [.registerModule (Str.lit "Main") [] none, .task, .unregisterModule 0, .task,
      .unregisterModule 0, .task] s ∧ ¬WellFormed (s.announcements 0) := by
  obtain ⟨s, h, ha⟩ := Instance.exists_runs
    [.registerModule (Str.lit "Main") [] none, .task, .unregisterModule 0, .task,
      .unregisterModule 0, .task] (·.announcements 0) [.added, .removed, .removed] (by
      decide +kernel)
  refine ⟨s, h, ?_⟩
  rw [ha]
  rintro ⟨n, h | h | h⟩
  · cases h
  · cases n <;> simp [List.replicate_succ] at h
  · cases n <;> simp [List.replicate_succ] at h

theorem wellFormed_of_unregister : ∃ s, Lts.Run (Lts.Under Instance.Proper Instance.Steps) {}
    [.registerModule (Str.lit "Main") [] none, .task, .unregisterModule 0, .task] s ∧
    WellFormed (s.announcements 0) ∧
      (s.registered 0 ↔ ∃ n, s.announcements 0 = .added :: List.replicate n .updated) := by
  obtain ⟨s, h, hs⟩ := Instance.exists_runs [.registerModule (Str.lit "Main") [] none, .task]
    (fun s => (s.registered 0, s.threadLoop, s.calls, s.handler))
    (true, [], [], fun _ => .idle) rfl
  obtain ⟨t, h', -⟩ := Instance.exists_runs ([.registerModule (Str.lit "Main") [] none, .task] ++
    [.unregisterModule 0, .task]) (fun _ => ()) () (by decide +kernel)
  obtain ⟨s', hs', h'⟩ := h'.split
  cases Lts.run_unique h hs'
  obtain ⟨u, h₁, h₂⟩ := h'.uncons
  simp only [Prod.mk.injEq] at hs
  have hp : s.Proper (.unregisterModule 0) := by
    refine ⟨⟨.inl hs.1, by simp [hs.2.1]⟩, ?_⟩
    rintro (⟨ps, hps, -⟩ | ⟨c, json, hc, -⟩)
    · simp [hs.2.2.1] at hps
    · simp [hs.2.2.2] at hc
  have hrun := (h.under_of_forall (C := Instance.Proper) (by simp [Instance.Proper])).append
    ((Lts.Run.single (R := Lts.Under Instance.Proper Instance.Steps) ⟨hp, h₁⟩).append
      (h₂.under_of_forall (by simp [Instance.Proper])))
  exact ⟨t, hrun, announcements_wellFormed hrun 0⟩

end Sacs
