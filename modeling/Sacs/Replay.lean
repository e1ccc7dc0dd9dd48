import Sacs.Announcements

/-!
# Stored values and announced updates

A call of `UpdateProperties` posts two tasks: one saves the values, the other
announces them. Whoever follows the announcements of an instance, starting from
the default values of a module, should see the values it has stored
(`Instance.Replays`), whenever nothing is pending.

The tasks of several calls can interleave. This is the case in the runs in which
the announcements of the calls that are half-way are posted without changing
their outcome (`Instance.InOrder`): the invariant is that the values stored once
the queue is run are those announced once the queue is run and the calls that
are half-way have returned (`Instance.Consistent.values`).
-/

namespace Sacs

open JsonMsg ModuleManager
open Sacs.Module (overwrite lastWrite InRange)

/-! ## Following the announcements -/

/-- The updates of the module `id` announced by a message. -/
def Text.updatesOf (msg : Text) (id : Int32) : Updates :=
  match parse msg with
  | .error _ => []
  | .ok j =>
    match j.type, j.findId, j.getPropertiesList with
    | .propertyUpdate, .ok id', .ok (ps, _) => if id' = id then ps else []
    | _, _, _ => []

/-- The updates of the module `id` announced so far. -/
def Instance.announced (s : Instance) (id : Int32) : Updates := s.handled.flatMap (·.updatesOf id)

/-- The module as it was registered. -/
def Instance.default? (s : Instance) (id : Int32) : Option Module :=
  s.trace.findSome? fun
    | .registered id' _ m => if id' = id then some m else none
    | _ => none

/-- The values stored are the default ones after the updates announced, but for
    the properties that are read only. -/
def Instance.Replays (s : Instance) : Prop :=
  ∀ id m, s.modules.find? id = some m → ∃ m₀, s.default? id = some m₀ ∧ m₀.shape = m.shape ∧
    ∀ k p, m.properties[k]? = some p → p.readOnly = false →
      ∃ p₀, m₀.properties[k]? = some p₀ ∧ p.value = overwrite (s.announced id) k p₀.value

/-! ## The runs considered -/

/-- The updates of the module `id` by the calls, in the order of these. -/
def callUpdates (calls : List (Int32 × Updates)) (id : Int32) : Updates :=
  calls.flatMap fun c => if c.1 = id then c.2 else []

/-- Updates are made by the application only, of modules registered, with property
    ids in range. -/
def Instance.OwnUpdates (s : Instance) : Action → Prop
  | .updateProperties id ps => ∃ m ∈ s.modules.find? id, InRange ps m.properties.length
  | .wsMessage .. | .proxyRead _ => False
  | .read _ msg => ∀ json ∈ (parse msg).toOption, json.type ≠ .propertyUpdate
  | _ => True

/-- The values are valid UTF-8, and a call posts its announcement only if no other
    call that is half-way updates the same property, or if the last update by
    these is of the same value without this call. -/
def Instance.InOrder (s : Instance) : Action → Prop
  | .updateProperties _ ps => Announceable ps
  | .announce i => ∀ c ∈ s.calls[i]?, ∀ m ∈ s.modules.find? c.1, ∀ k < m.properties.length,
    ∀ p ∈ m.properties[k]?, p.readOnly = false →
      lastWrite (callUpdates (s.calls.eraseIdx i) c.1) k = none ∨
        lastWrite (callUpdates (s.calls.eraseIdx i) c.1) k = lastWrite (callUpdates s.calls c.1) k
  | _ => True

/-! ## The invariant -/

/-- The updates of the module `id` the task saves. -/
def Task.saves (t : Task) (id : Int32) : Sacs.Updates :=
  match t with
  | .savePropertiesList id' ps => if id' = id then ps else []
  | _ => []

/-- The updates of the module `id` the task announces. -/
def Task.announces (t : Task) (id : Int32) : Sacs.Updates :=
  match t with
  | .handleMessage msg => msg.updatesOf id
  | _ => []

/-- The task passes an update to a module, or answers a request. -/
def Task.isRequest : Task → Bool
  | .doProcessJSRequest .. | .passPropertyUpdateToModule _ => true
  | _ => false

/-- The updates of the module `id` to be saved. -/
def Instance.toSave (s : Instance) (id : Int32) : Updates := s.threadLoop.flatMap (·.saves id)

/-- The updates of the module `id` to be announced. -/
def Instance.toAnnounce (s : Instance) (id : Int32) : Updates :=
  s.threadLoop.flatMap (·.announces id) ++ callUpdates s.calls id

/-- What is stored agrees with what is announced, once all that is pending is done. -/
structure Instance.Consistent (s : Instance) : Prop where
  fresh : s.Fresh
  requests : ∀ t ∈ s.threadLoop, t.isRequest = false
  callback : ∀ request, s.loop ≠ .callback request
  updating : ∀ c json, s.handler c ≠ .updating json
  announceable : ∀ c ∈ s.calls, Announceable c.2
  new : ∀ {id}, s.idCounter ≤ id → s.default? id = none ∧ s.announced id = [] ∧
    s.toSave id = [] ∧ s.toAnnounce id = []
  inRange : ∀ {id ps m}, Task.savePropertiesList id ps ∈ s.threadLoop →
    s.modules.find? id = some m → InRange ps m.properties.length
  values : ∀ {id m}, s.modules.find? id = some m → ∃ m₀, s.default? id = some m₀ ∧
    m₀.shape = m.shape ∧ ∀ k p, m.properties[k]? = some p → p.readOnly = false →
      ∃ p₀, m₀.properties[k]? = some p₀ ∧
        overwrite (s.toSave id) k p.value = overwrite (s.announced id ++ s.toAnnounce id) k p₀.value

theorem updatesOf_createPropertyUpdated {i : Int32} {ps : Updates} {msg : Text}
    (h : createPropertyUpdated i ps = .ok msg) (id : Int32) :
    msg.updatesOf id = if i = id then ps else [] := by
  obtain ⟨json, hjson, htype, hid, hps, -⟩ := parse_createPropertyUpdated h
  rw [Text.updatesOf, hjson]
  dsimp only
  rw [htype, hid, hps]

theorem updatesOf_createModuleAdded {m : Module} {msg : Text} (h : createModuleAdded m = .ok msg)
    (id : Int32) : msg.updatesOf id = [] := by
  obtain ⟨json, hjson, htype, -⟩ := parse_createModuleAdded h
  rw [Text.updatesOf, hjson]
  dsimp only
  rw [htype]

theorem updatesOf_createModuleRemoved {i : Int32} {msg : Text}
    (h : createModuleRemoved i = .ok msg) (id : Int32) : msg.updatesOf id = [] := by
  obtain ⟨json, hjson, htype, -⟩ := parse_createModuleRemoved h
  rw [Text.updatesOf, hjson]
  dsimp only
  rw [htype]

/-! ### Frames -/

theorem default?_of_trace {s s' : Instance} {es : List Event} (h : s'.trace = s.trace ++ es)
    (hes : ∀ e ∈ es, ∀ id promise m, e ≠ .registered id promise m) : s'.default? = s.default? := by
  funext id
  rw [Instance.default?, h, List.findSome?_append, Option.or_eq_left_of_none]
  · rfl
  · rw [List.findSome?_eq_none_iff]
    intro e he
    cases e <;> first | rfl | exact absurd rfl (hes _ he _ _ _)

theorem Emits.default? {s s' : Instance} (h : Emits s s') : s'.default? = s.default? := by
  obtain ⟨es, hes, hout⟩ := h.trace
  refine default?_of_trace hes fun e he id promise m h => ?_
  subst h
  exact hout _ he

theorem OffLoop.default? {s s' : Instance} (h : OffLoop s s') : s'.default? = s.default? := by
  obtain ⟨es, hes, hout⟩ := h.trace
  refine default?_of_trace hes fun e he id promise m h => ?_
  subst h
  rcases hout _ he with ⟨_, h⟩ | ⟨_, h⟩ <;> cases h

theorem announced_of_handled {s s' : Instance} (h : s'.handled = s.handled) :
    s'.announced = s.announced := by
  funext id
  rw [Instance.announced, Instance.announced, h]

theorem default?_fulfil (s : Instance) (promise : Promise) (id : Int32) :
    (fulfil s promise id).default? = s.default? :=
  default?_of_trace ((fulfil_trace ..).trans (List.append_nil _).symm) (by simp)

theorem announced_fulfil (s : Instance) (promise : Promise) (id : Int32) :
    (fulfil s promise id).announced = s.announced :=
  announced_of_handled (handled_fulfil ..)

namespace Instance.Consistent

variable {s s' : Instance} (hs : s.Consistent)

include hs

/-- A step that saves and announces nothing: it adds the same updates, `d`, to those
    to be saved and to those to be announced, which it may also reorder. -/
theorem pending (d : Int32 → Updates) (hm : s'.modules = s.modules)
    (hn : s'.idCounter = s.idCounter) (hh : s'.handled = s.handled) (hd : s'.default? = s.default?)
    (hrequests : ∀ t ∈ s'.threadLoop, t.isRequest = false)
    (hloop : ∀ request, s'.loop ≠ .callback request) (hu : ∀ c json, s'.handler c ≠ .updating json)
    (hcalls : ∀ c ∈ s'.calls, Announceable c.2)
    (hrange : ∀ id ps m, Task.savePropertiesList id ps ∈ s'.threadLoop →
      s.modules.find? id = some m → InRange ps m.properties.length)
    (hsave : ∀ id, s'.toSave id = s.toSave id ++ d id)
    (hnew : ∀ id, s.idCounter ≤ id → d id = [] ∧ (s.toAnnounce id = [] → s'.toAnnounce id = []))
    (hann : ∀ id m k p, s.modules.find? id = some m → m.properties[k]? = some p →
      p.readOnly = false → ∀ v, overwrite (s'.toAnnounce id) k v =
        overwrite (s.toAnnounce id ++ d id) k v) : s'.Consistent := by
  have ha := announced_of_handled hh
  refine ⟨by rw [Fresh, hm, hn]; exact hs.fresh, hrequests, hloop, hu, hcalls, fun {id} hid => ?_,
    fun {id ps m} hmem hm' => hrange id ps m hmem (hm ▸ hm'), fun {id m} hm' => ?_⟩
  · rw [hn] at hid
    obtain ⟨h₁, h₂, h₃, h₄⟩ := hs.new hid
    refine ⟨hd ▸ h₁, ha ▸ h₂, ?_, (hnew id hid).2 h₄⟩
    rw [hsave, h₃, (hnew id hid).1, List.append_nil]
  · rw [hm] at hm'
    obtain ⟨m₀, hm₀, hshape, hval⟩ := hs.values hm'
    refine ⟨m₀, hd ▸ hm₀, hshape, fun k p hp hro => ?_⟩
    obtain ⟨p₀, hp₀, hov⟩ := hval k p hp hro
    refine ⟨p₀, hp₀, ?_⟩
    rw [Module.overwrite_append] at hov
    rw [hsave, ha, Module.overwrite_append, Module.overwrite_append, hov, hann id m k p hm' hp hro,
      Module.overwrite_append]

/-- A step that posts a task neither saving nor announcing updates, at most. -/
theorem inert (t? : Option Task) (hm : s'.modules = s.modules) (hn : s'.idCounter = s.idCounter)
    (hh : s'.handled = s.handled) (hd : s'.default? = s.default?)
    (hq : s'.threadLoop = s.threadLoop ++ t?.toList)
    (ht : ∀ t ∈ t?, t.isRequest = false ∧ (∀ id, t.saves id = []) ∧ ∀ id, t.announces id = [])
    (hcalls : s'.calls = s.calls) (hloop : ∀ request, s'.loop ≠ .callback request)
    (hu : ∀ c json, s'.handler c ≠ .updating json) : s'.Consistent := by
  have hann : s'.toAnnounce = s.toAnnounce := by
    funext id
    rw [toAnnounce, hq, List.flatMap_append, toAnnounce, hcalls]
    cases t? <;> simp_all
  refine hs.pending (fun _ => []) hm hn hh hd (fun t hmem => ?_) hloop hu (hcalls ▸ hs.announceable)
    (fun id ps m hmem hm' => ?_) (fun id => ?_) (by simp [hann]) (by simp [hann])
  · rw [hq] at hmem
    rcases List.mem_append.1 hmem with h | h
    · exact hs.requests t h
    · exact (ht t (Option.mem_toList.1 h)).1
  · rw [hq] at hmem
    rcases List.mem_append.1 hmem with h | h
    · exact hs.inRange h hm'
    · -- A task saving nothing.
      have hnil := (ht _ (Option.mem_toList.1 h)).2.1 id
      rw [Task.saves, if_pos rfl] at hnil
      exact fun p hp => by simp [hnil] at hp
  · rw [toSave, hq, List.flatMap_append, toSave]
    cases t? <;> simp_all

/-- A call of `UpdateProperties` posts its first task. -/
theorem updateProperties {id : Int32} {ps : Updates}
    (hid : ∃ m, s.modules.find? id = some m ∧ InRange ps m.properties.length)
    (hps : Announceable ps) :
    Consistent { s.post (.savePropertiesList id ps) with calls := s.calls ++ [(id, ps)] } := by
  obtain ⟨m₁, hm₁, hrange⟩ := hid
  have hann : ∀ id', toAnnounce { s.post (.savePropertiesList id ps) with
      calls := s.calls ++ [(id, ps)] } id' = s.toAnnounce id' ++ if id = id' then ps else [] := by
    intro id'
    simp only [toAnnounce, post, callUpdates, List.flatMap_append, List.flatMap_cons,
      List.flatMap_nil, List.append_nil, List.append_assoc]
    rfl
  refine hs.pending (fun id' => if id = id' then ps else []) rfl rfl rfl rfl (fun t hmem => ?_)
    hs.callback hs.updating (fun c hc => ?_) (fun id' ps' m hmem hm => ?_) (fun id' => ?_)
    (fun id' hlt => ?_) (fun id' _ _ _ _ _ _ v => by rw [hann])
  · rcases List.mem_append.1 hmem with h | h
    · exact hs.requests t h
    · cases List.mem_singleton.1 h
      rfl
  · rcases List.mem_append.1 hc with h | h
    · exact hs.announceable c h
    · cases List.mem_singleton.1 h
      exact hps
  · rcases List.mem_append.1 hmem with h | h
    · exact hs.inRange h hm
    · cases List.mem_singleton.1 h
      cases hm₁.symm.trans hm
      exact hrange
  · simp only [toSave, post, List.flatMap_append, List.flatMap_cons, List.flatMap_nil,
      List.append_nil]
    rfl
  · have hne : id ≠ id' := by
      rintro rfl
      exact absurd (hs.fresh.key hm₁).2.2 (not_lt.2 hlt)
    refine ⟨if_neg hne, fun h => ?_⟩
    rw [hann, h, if_neg hne, List.append_nil]

/-- A call of `UpdateProperties` posts its second task. -/
theorem announce {i : Nat} {id : Int32} {ps : Updates} {msg : Text}
    (hi : s.calls[i]? = some (id, ps)) (hmsg : createPropertyUpdated id ps = .ok msg)
    (hp : s.InOrder (.announce i)) :
    Consistent (({ s with calls := s.calls.eraseIdx i } : Instance).post (.handleMessage msg)) := by
  -- The calls before this one and after it.
  obtain ⟨before, after, hbefore, herase⟩ : ∃ before after, s.calls = before ++ (id, ps) :: after ∧
      s.calls.eraseIdx i = before ++ after := by
    obtain ⟨hlt, hget⟩ := List.getElem?_eq_some_iff.1 hi
    refine ⟨s.calls.take i, s.calls.drop (i + 1), ?_, List.eraseIdx_eq_take_drop_succ ..⟩
    rw [← hget, List.cons_getElem_drop_succ, List.take_append_drop]
  have hcalls : ∀ id', callUpdates s.calls id' = callUpdates before id' ++
      (if id = id' then ps else []) ++ callUpdates after id' := by
    intro id'
    simp [hbefore, callUpdates]
  have herase' : ∀ id', callUpdates (s.calls.eraseIdx i) id' =
      callUpdates before id' ++ callUpdates after id' := by
    intro id'
    simp [herase, callUpdates]
  have hann : ∀ id', toAnnounce (({ s with calls := s.calls.eraseIdx i } : Instance).post
      (.handleMessage msg)) id' = s.threadLoop.flatMap (·.announces id') ++
        ((if id = id' then ps else []) ++ (callUpdates before id' ++ callUpdates after id')) := by
    intro id'
    simp only [toAnnounce, post, herase', List.flatMap_append, List.flatMap_cons, List.flatMap_nil,
      List.append_nil, Task.announces, updatesOf_createPropertyUpdated hmsg, List.append_assoc]
  refine hs.pending (fun _ => []) rfl rfl rfl rfl (fun t hmem => ?_) hs.callback hs.updating
    (fun c hc => hs.announceable c (List.mem_of_mem_eraseIdx hc)) (fun id' ps' m hmem hm => ?_)
    (fun id' => ?_) (fun id' hlt => ⟨rfl, fun h => ?_⟩) (fun id' m k p hm hp' hro v => ?_)
  · rcases List.mem_append.1 hmem with h | h
    · exact hs.requests t h
    · cases List.mem_singleton.1 h
      rfl
  · rcases List.mem_append.1 hmem with h | h
    · exact hs.inRange h hm
    · cases List.mem_singleton.1 h
  · simp [toSave, post, Task.saves]
  · rw [toAnnounce, hcalls] at h
    rw [hann]
    simp only [List.append_eq_nil_iff] at h ⊢
    exact ⟨h.1, h.2.1.2, h.2.1.1, h.2.2⟩
  · rw [hann, List.append_nil, toAnnounce, hcalls,
      Module.overwrite_append (s.threadLoop.flatMap _),
      Module.overwrite_append (s.threadLoop.flatMap _)]
    refine Module.overwrite_move ?_ _
    by_cases hid : id = id'
    · subst hid
      have := hp _ hi m hm k (List.getElem?_eq_some_iff.1 hp').1 p hp' hro
      rwa [herase', hcalls] at this
    · rw [if_neg hid, List.append_nil]
      exact .inr rfl

/-- A step of a thread other than the loop. -/
theorem offLoop {a : Action} (h : Transition s a s') (ha : a.onLoop = false) (hown : s.OwnUpdates a)
    (hp : s.InOrder a) : s'.Consistent := by
  have hoff := h.offLoop ha
  have hh := hoff.handled
  have hd := hoff.default?
  cases h <;> simp only [Action.onLoop, reduceCtorEq] at ha
  case registerModule =>
    exact hs.inert (some _) rfl rfl hh hd rfl (by simp [Task.isRequest, Task.saves, Task.announces])
      rfl hs.callback hs.updating
  case unregisterModule =>
    exact hs.inert (some _) rfl rfl hh hd rfl (by simp [Task.isRequest, Task.saves, Task.announces])
      rfl hs.callback hs.updating
  case updateProperties => exact hs.updateProperties hown hp
  case announce hi hmsg => exact hs.announce hi hmsg hp
  case announceThrows id ps hi hps => exact absurd (hs.announceable _ (List.mem_of_getElem? hi)) hps
  case connectingProxy =>
    exact hs.inert (some _) rfl rfl hh hd rfl (by simp [Task.isRequest, Task.saves, Task.announces])
      rfl hs.callback hs.updating
  case connectingHost =>
    exact hs.inert (some _) rfl rfl hh hd rfl (by simp [Task.isRequest, Task.saves, Task.announces])
      rfl hs.callback hs.updating
  case proxyRead => exact hown.elim
  case wsNotJson => exact hown.elim
  case wsRequest => exact hown.elim
  case readAdd =>
    exact hs.inert (some _) rfl rfl hh hd rfl (by simp [Task.isRequest, Task.saves, Task.announces])
      rfl hs.callback fun c json hc => hs.updating c json (handler_of_setHandler
        HandlerPc.noConfusion hc)
  case readDel =>
    exact hs.inert (some _) rfl rfl hh hd rfl (by simp [Task.isRequest, Task.saves, Task.announces])
      rfl hs.callback hs.updating
  case readUpdate hjson htype _ _ _ =>
    exact absurd htype (hown _ (by rw [hjson]; rfl))
  case resumeUpdate hpc _ => exact absurd hpc (hs.updating _ _)
  case resumeClosing =>
    exact hs.inert (some _) rfl rfl hh hd rfl (by simp [Task.isRequest, Task.saves, Task.announces])
      rfl hs.callback hs.updating
  case resumeAdd =>
    exact hs.inert none rfl rfl hh hd (List.append_nil _).symm (by simp) rfl hs.callback
      fun c json hc => hs.updating c json (handler_of_setHandler HandlerPc.noConfusion hc)
  case resumeClosed =>
    exact hs.inert none rfl rfl hh hd (List.append_nil _).symm (by simp) rfl hs.callback
      fun c json hc => hs.updating c json (handler_of_setHandler HandlerPc.noConfusion hc)
  case closed =>
    exact hs.inert none rfl rfl hh hd (List.append_nil _).symm (by simp) rfl hs.callback
      fun c json hc => hs.updating c json (handler_of_setHandler HandlerPc.noConfusion hc)
  all_goals
    exact hs.inert none rfl rfl hh hd (List.append_nil _).symm (by simp) rfl hs.callback hs.updating

/-- A step that takes a task. -/
theorem takes {t : Task} {q : List Task} (ht : Takes s t q) (hf : s'.Fresh)
    (hq : s'.threadLoop = q) (hloop : ∀ request, s'.loop ≠ .callback request)
    (hcalls : s'.calls = s.calls) (hu : ∀ c json, s'.handler c ≠ .updating json)
    (hnew : ∀ id, s'.idCounter ≤ id → s.idCounter ≤ id ∧ s'.default? id = s.default? id ∧
      (s.announced id = [] → t.announces id = [] → s'.announced id = []))
    (hrange : ∀ id m', s'.modules.find? id = some m' → (∃ m, s.modules.find? id = some m ∧
      m.properties.length = m'.properties.length) ∨ s.toSave id = [])
    (hvalues : ∀ {id m'}, s'.modules.find? id = some m' → ∃ m₀, s'.default? id = some m₀ ∧
      m₀.shape = m'.shape ∧ ∀ k p', m'.properties[k]? = some p' → p'.readOnly = false →
        ∃ p₀, m₀.properties[k]? = some p₀ ∧
          overwrite (s'.toSave id) k p'.value =
            overwrite (s'.announced id ++ s'.toAnnounce id) k p₀.value) : s'.Consistent := by
  have hsave : ∀ id, s.toSave id = t.saves id ++ s'.toSave id := by
    intro id
    rw [toSave, ht.threadLoop, List.flatMap_cons, toSave, hq]
  have hann : ∀ id, s.toAnnounce id = t.announces id ++ s'.toAnnounce id := by
    intro id
    rw [toAnnounce, ht.threadLoop, List.flatMap_cons, toAnnounce, hq, hcalls, List.append_assoc]
  refine ⟨hf, fun u hmem => hs.requests u ?_, hloop, hu, hcalls ▸ hs.announceable,
    fun {id} hid => ?_, fun {id ps m'} hmem hm' => ?_, hvalues⟩
  · rw [ht.threadLoop, ← hq]
    exact List.mem_cons_of_mem _ hmem
  · obtain ⟨hlt, hd, ha⟩ := hnew id hid
    obtain ⟨h₁, h₂, h₃, h₄⟩ := hs.new hlt
    rw [hsave, List.append_eq_nil_iff] at h₃
    rw [hann, List.append_eq_nil_iff] at h₄
    exact ⟨hd.trans h₁, ha h₂ h₄.1, h₃.2, h₄.2⟩
  · have hmem' : Task.savePropertiesList id ps ∈ s.threadLoop := by
      rw [ht.threadLoop, ← hq]
      exact List.mem_cons_of_mem _ hmem
    rcases hrange id m' hm' with ⟨m, hm, hlen⟩ | hnil
    · exact hlen ▸ hs.inRange hmem' hm
    · have : ps = [] := by
        have := List.flatMap_eq_nil_iff.1 hnil _ hmem'
        rwa [Task.saves, if_pos rfl] at this
      exact fun p hp => by simp [this] at hp

/-- A step that takes a task, saving and announcing its updates. -/
theorem takesOld {t : Task} {q : List Task} (ht : Takes s t q) (hf : s'.Fresh)
    (hq : s'.threadLoop = q) (hloop : ∀ request, s'.loop ≠ .callback request)
    (hcalls : s'.calls = s.calls) (hhandler : s'.handler = s.handler)
    (hn : s'.idCounter = s.idCounter) (hd : s'.default? = s.default?)
    (ha : ∀ id, s'.announced id = s.announced id ++ t.announces id)
    (hm : ∀ id m', s'.modules.find? id = some m' → ∃ m, s.modules.find? id = some m ∧
      m'.shape = m.shape ∧ ∀ k p p', m.properties[k]? = some p → m'.properties[k]? = some p' →
        p.readOnly = false → p'.value = overwrite (t.saves id) k p.value) : s'.Consistent := by
  refine hs.takes ht hf hq hloop hcalls (hhandler ▸ hs.updating)
    (fun id hid => ⟨hn ▸ hid, by rw [hd], fun h₁ h₂ => by rw [ha, h₁, h₂]; rfl⟩)
    (fun id m' hm' => ?_) fun {id m'} hm' => ?_
  · obtain ⟨m, hm, hshape, -⟩ := hm id m' hm'
    exact .inl ⟨m, hm, by
      simpa [Module.shape] using congrArg (fun s : Shape => s.2.length) hshape.symm⟩
  · obtain ⟨m, hm, hshape, hsave⟩ := hm id m' hm'
    obtain ⟨m₀, hm₀, hshape₀, hval⟩ := hs.values hm
    refine ⟨m₀, hd ▸ hm₀, hshape₀.trans hshape.symm, fun k p' hp' hro => ?_⟩
    obtain ⟨p, hp, hro'⟩ := Module.exists_property_of_shape hshape hp'
    obtain ⟨p₀, hp₀, hov⟩ := hval k p hp (hro'.trans hro)
    refine ⟨p₀, hp₀, ?_⟩
    rw [toSave, ht.threadLoop, List.flatMap_cons, toAnnounce, ht.threadLoop, List.flatMap_cons,
      Module.overwrite_append, ← hq, ← hsave k p p' hp hp' (hro'.trans hro)] at hov
    rw [toSave, toAnnounce, ha, hcalls, hov]
    simp only [List.append_assoc]

omit hs in
/-- A module that is not changed, by a task saving nothing. -/
theorem unchanged {t : Task} {id : Int32} {m' : Module} (hm' : s.modules.find? id = some m')
    (hsave : t.saves id = []) : ∃ m, s.modules.find? id = some m ∧ m'.shape = m.shape ∧
      ∀ k p p', m.properties[k]? = some p → m'.properties[k]? = some p' → p.readOnly = false →
        p'.value = overwrite (t.saves id) k p.value := by
  refine ⟨m', hm', rfl, fun k p p' hp hp' _ => ?_⟩
  cases hp.symm.trans hp'
  rw [hsave, Module.overwrite_nil]

/-- A message of the queue is passed on. -/
theorem taskHandle {msg : Text} {q : List Task} (ht : Takes s (.handleMessage msg) q)
    (h : handleMessage { s with threadLoop := q } false msg = .ok s') (hf : s'.Fresh) :
    s'.Consistent := by
  have he := handleMessage_emits h
  have hh := handled_handleMessage h
  refine hs.takesOld ht hf he.threadLoop ?_ he.calls he.handler he.idCounter he.default?
    (fun id => ?_) fun id m' hm' => unchanged (he.modules ▸ hm') rfl
  · rw [he.loop]
    exact hs.callback
  · rw [announced, hh, List.flatMap_append, List.flatMap_cons, List.flatMap_nil, List.append_nil]
    rfl

/-- A module is registered, with its default values. -/
theorem taskRegister {m : Module} {promise : Promise} {q : List Task} {msg : Text}
    {s₁ : Instance} (ht : Takes s (.doRegisterModule m promise) q)
    (hmax : s.idCounter ≠ Int32.maxValue)
    (hmsg : createModuleAdded (m.setId s.idCounter) = .ok msg)
    (h : handleMessage (({ s with threadLoop := q } : Instance).added promise m) false msg = .ok s₁)
    (hf : (fulfil s₁ promise s.idCounter).Fresh) : (fulfil s₁ promise s.idCounter).Consistent := by
  have he := handleMessage_emits h
  have hh := (handled_handleMessage h).trans (congrArg (· ++ [msg]) (handled_added ..))
  have hn : s₁.idCounter = s.idCounter + 1 := he.idCounter
  have hlt := lt_add_one hmax
  have hmods : s₁.modules = s.modules.insert s.idCounter (m.setId s.idCounter) := he.modules
  have hd : ∀ id, s₁.default? id = (s.default? id).or
      (if s.idCounter = id then some (m.setId s.idCounter) else none) := by
    intro id
    rw [he.default?, default?, added, List.findSome?_append, List.findSome?_singleton]
    rfl
  have ha : s₁.announced = s.announced := by
    funext id
    rw [announced, hh, List.flatMap_append, List.flatMap_cons, List.flatMap_nil,
      updatesOf_createModuleAdded hmsg]
    exact List.append_nil _
  have hsaves : ∀ id, s.toSave id = (fulfil s₁ promise s.idCounter).toSave id := by
    intro id
    rw [toSave, ht.threadLoop, List.flatMap_cons, toSave, fulfil_threadLoop, he.threadLoop]
    rfl
  have hanns : ∀ id, s.toAnnounce id = (fulfil s₁ promise s.idCounter).toAnnounce id := by
    intro id
    rw [toAnnounce, ht.threadLoop, List.flatMap_cons, toAnnounce, fulfil_threadLoop,
      he.threadLoop, fulfil_calls, he.calls]
    rfl
  have hloop : ∀ request, (fulfil s₁ promise s.idCounter).loop ≠ .callback request := by
    have hidle := he.loop.trans ht.idle
    rw [fulfil_loop _ _ _ fun r => by rw [hidle]; exact LoopPc.noConfusion, hidle]
    exact fun _ => LoopPc.noConfusion
  refine hs.takes ht hf ((fulfil_threadLoop ..).trans he.threadLoop) hloop
    ((fulfil_calls ..).trans he.calls) (fun c json hc => ?_) (fun id hid => ?_)
    (fun id m' hm' => ?_) fun {id m'} hm' => ?_
  · have := handler_of_fulfil hc
    rw [he.handler] at this
    exact hs.updating c json this
  · rw [fulfil_idCounter, hn] at hid
    have hne : s.idCounter ≠ id := (hlt.trans_le hid).ne
    rw [default?_fulfil, hd, if_neg hne, Option.or_none, announced_fulfil, ha]
    exact ⟨hlt.le.trans hid, rfl, fun h _ => h⟩
  · rw [fulfil_modules, hmods, OrdMap.find?_insert] at hm'
    split_ifs at hm' with hid
    · exact .inr (hs.new (hid ▸ le_rfl)).2.2.1
    · exact .inl ⟨m', hm', rfl⟩
  · rw [default?_fulfil, hd, announced_fulfil, ha, ← hsaves, ← hanns]
    rw [fulfil_modules, hmods, FreshIds.find?_insert hs.fresh] at hm'
    split_ifs at hm' with hid
    · -- The module registered has its default values.
      subst hid
      obtain ⟨hd₀, ha₀, hs₀, hann₀⟩ := hs.new le_rfl
      cases hm'
      rw [hd₀, if_pos rfl, ha₀, hs₀, hann₀]
      exact ⟨_, rfl, rfl, fun k p hp _ => ⟨p, hp, rfl⟩⟩
    · obtain ⟨m₀, hm₀, h⟩ := hs.values hm'
      exact ⟨m₀, by rw [hm₀]; rfl, h⟩

/-- A module is unregistered. -/
theorem taskUnregister {i : Int32} {q : List Task} {msg : Text}
    (ht : Takes s (.unregisterModule i) q) (hmsg : createModuleRemoved i = .ok msg)
    (h : handleMessage (({ s with threadLoop := q } : Instance).removed i) false msg = .ok s')
    (hf : s'.Fresh) : s'.Consistent := by
  have he := handleMessage_emits h
  have hh := (handled_handleMessage h).trans (congrArg (· ++ [msg]) (handled_removed ..))
  refine hs.takesOld ht hf he.threadLoop (by rw [he.loop]; exact hs.callback) he.calls he.handler
    he.idCounter (he.default?.trans (default?_of_trace (s := s) rfl (by simp))) (fun id => ?_)
    fun id m' hm' => ?_
  · rw [announced, hh, List.flatMap_append, List.flatMap_cons, List.flatMap_nil,
      updatesOf_createModuleRemoved hmsg]
    rfl
  · rw [he.modules] at hm'
    change (s.modules.erase i).find? id = some m' at hm'
    rw [OrdMap.find?_erase] at hm'
    split_ifs at hm'
    exact unchanged hm' rfl

/-- Updates are saved in the module they are for. -/
theorem taskSave {id : Int32} {ps : Updates} {m m₁ : Module} {q : List Task}
    (ht : Takes s (.savePropertiesList id ps) q) (hm : s.modules.find? id = some m)
    (hsave : m.save ps = .ok m₁)
    (hf : (({ s with threadLoop := q } : Instance).saved id ps m₁).Fresh) :
    (({ s with threadLoop := q } : Instance).saved id ps m₁).Consistent := by
  refine hs.takesOld ht hf rfl hs.callback rfl rfl rfl ?_ (fun id => ?_) fun id' m' hfind => ?_
  · exact default?_of_trace (s := s) rfl (by simp)
  · rw [announced_of_handled (handled_saved ..)]
    exact (List.append_nil _).symm
  · change (s.modules.modify id fun _ => m₁).find? id' = some m' at hfind
    rw [OrdMap.find?_modify] at hfind
    split_ifs at hfind with hid
    · subst hid
      rw [hm, Option.map_some, Option.some.injEq] at hfind
      subst hfind
      refine ⟨_, hm, (Module.save_saved hsave).shape, fun k p p' hp hp' hro => ?_⟩
      have := Module.save_value hsave (hs.inRange (ht.threadLoop ▸ List.mem_cons_self) hm) hp hro
      cases hp'.symm.trans this
      rw [Task.saves, if_pos rfl]
    · exact unchanged hfind (if_neg (Ne.symm hid))

/-- A step of the loop thread. -/
theorem onLoop {a : Action} (h : Transition s a s') (ha : a.onLoop = true) : s'.Consistent := by
  have hf := h.registry.fresh hs.fresh
  cases h with
  | taskRole ht =>
    exact hs.takesOld ht hf rfl (fun _ => LoopPc.noConfusion) rfl rfl rfl rfl
      (fun id => (List.append_nil _).symm) fun id m' hm' => unchanged hm' rfl
  | taskHandle ht h => exact hs.taskHandle ht h hf
  | taskRegister ht hmax hmsg h => exact hs.taskRegister ht hmax hmsg h hf
  | taskUnregister ht hmsg h => exact hs.taskUnregister ht hmsg h hf
  | taskSaveNone ht hm =>
    refine hs.takesOld ht hf rfl hs.callback rfl rfl rfl rfl (fun id => (List.append_nil _).symm)
      fun id m' hm' => unchanged hm' (if_neg ?_)
    rintro rfl
    cases hm.symm.trans hm'
  | taskSave ht hm hsave => exact hs.taskSave ht hm hsave hf
  | taskOther ht _ _ =>
    exact absurd (hs.requests _ (ht.threadLoop ▸ List.mem_cons_self)) (by simp [Task.isRequest])
  | taskLoad ht _ _ h =>
    exact absurd (hs.requests _ (ht.threadLoop ▸ List.mem_cons_self)) (by simp [Task.isRequest])
  | taskApply ht _ h =>
    exact absurd (hs.requests _ (ht.threadLoop ▸ List.mem_cons_self)) (by simp [Task.isRequest])
  | taskPass ht h =>
    exact absurd (hs.requests _ (ht.threadLoop ▸ List.mem_cons_self)) (by simp [Task.isRequest])
  | flushed hl _ =>
    exact hs.inert none rfl rfl rfl rfl (List.append_nil _).symm (by simp) rfl
      (fun _ => LoopPc.noConfusion) hs.updating
  | flush hl _ h =>
    have he := pushMsg_emits h
    have hh := handled_pushMsg h
    refine hs.inert none he.modules he.idCounter hh he.default?
      (he.threadLoop.trans (List.append_nil _).symm) (by simp) he.calls ?_ ?_
    · rw [he.loop]
      exact hs.callback
    · rw [he.handler]
      exact hs.updating
  | callbackRegister hl => exact absurd hl (hs.callback _)
  | callbackUnregister hl hmsg h => exact absurd hl (hs.callback _)
  | callbackUpdate hl hsave hmsg h => exact absurd hl (hs.callback _)
  | callbackUpdateThrows hl hsave _ => exact absurd hl (hs.callback _)
  | callbackReturn hl => exact absurd hl (hs.callback _)
  | callbackAnswer hl => exact absurd hl (hs.callback _)
  | _ => simp only [Action.onLoop, Bool.false_eq_true] at ha

end Instance.Consistent

/-! ## Whole runs -/

/-- The steps of the runs considered in which announcements are in order. -/
def Instance.InOrderUpdates (s : Instance) (a : Action) : Prop := s.OwnUpdates a ∧ s.InOrder a

theorem consistent_of_runs {as : List Action} {s : Instance}
    (h : Lts.Run (Lts.Under Instance.InOrderUpdates Instance.Steps) {} as s) : s.Consistent := by
  refine h.invariant ⟨⟨le_rfl, fun hm => by simp at hm⟩, fun _ ht => absurd ht List.not_mem_nil,
    fun _ => LoopPc.noConfusion, fun _ _ => HandlerPc.noConfusion,
    fun _ hc => absurd hc List.not_mem_nil, fun _ => ⟨rfl, rfl, rfl, rfl⟩,
    fun ht => absurd ht List.not_mem_nil, fun hm => by simp at hm⟩ ?_
  rintro s a s' hs ⟨⟨hown, horder⟩, hst⟩
  have h := transition_of_step hst
  cases ha : a.onLoop with
  | false => exact hs.offLoop h ha hown horder
  | true => exact hs.onLoop h ha

/-- When nothing is pending, the values stored are those announced, in a run in
    which the announcements of calls are in order. -/
theorem replays_of_drained {as : List Action} {s : Instance}
    (h : Lts.Run (Lts.Under Instance.InOrderUpdates Instance.Steps) {} as s)
    (hq : s.threadLoop = []) (hcalls : s.calls = []) : s.Replays := by
  intro id m hm
  obtain ⟨m₀, hm₀, hshape, hval⟩ := (consistent_of_runs h).values hm
  refine ⟨m₀, hm₀, hshape, fun k p hp hro => ?_⟩
  obtain ⟨p₀, hp₀, hov⟩ := hval k p hp hro
  rw [Instance.toSave, Instance.toAnnounce, hq, hcalls] at hov
  exact ⟨p₀, hp₀, by simpa [callUpdates] using hov⟩

instance instDecidableInRange (ps : Updates) (n : Nat) : Decidable (InRange ps n) :=
  inferInstanceAs (Decidable (∀ p ∈ ps, _))

instance instDecidableOwnUpdates (s : Instance) (a : Action) : Decidable (s.OwnUpdates a) := by
  cases a <;> unfold Instance.OwnUpdates <;> infer_instance

instance instDecidableInOrder (s : Instance) (a : Action) : Decidable (s.InOrder a) := by
  cases a <;> unfold Instance.InOrder <;> infer_instance

instance instDecidableInOrderUpdates (s : Instance) (a : Action) : Decidable (s.InOrderUpdates a) :=
  inferInstanceAs (Decidable (_ ∧ _))

/-- A module with one property, `Value`, whose value is empty, is registered. -/
def registration : List Action :=
  [.registerModule (Str.lit "Main") [⟨0, Str.lit "Value", [], false⟩] none, .task]

/-- Two threads update the property, and the second one announces its value first:
    the value stored is not the one announced last. -/
theorem not_replays_of_overtaking : ∃ s, Lts.Run (Lts.Under Instance.OwnUpdates Instance.Steps) {}
    (registration ++ [.updateProperties 0 [(0, Str.lit "a")],
      .updateProperties 0 [(0, Str.lit "b")], .announce 1, .announce 0, .task, .task, .task, .task])
    s ∧ s.threadLoop = [] ∧ s.calls = [] ∧ ¬s.Replays := by
  obtain ⟨s, h, hs⟩ := Instance.exists_runs_under Instance.OwnUpdates
    (registration ++ [.updateProperties 0 [(0, Str.lit "a")],
      .updateProperties 0 [(0, Str.lit "b")], .announce 1, .announce 0, .task, .task, .task, .task])
    (fun s => ((s.threadLoop.length, s.calls.length), [s.modules.find? 0, s.default? 0],
      s.announced 0))
    ((0, 0), [some ⟨0, Str.lit "Main", [⟨0, Str.lit "Value", Str.lit "b", false⟩], none⟩,
      some ⟨0, Str.lit "Main", [⟨0, Str.lit "Value", [], false⟩], none⟩],
      [(0, Str.lit "b"), (0, Str.lit "a")]) (by decide +kernel)
  simp only [Prod.mk.injEq, List.length_eq_zero_iff, List.cons.injEq, and_true] at hs
  obtain ⟨⟨hq, hc⟩, ⟨hm, hd⟩, ha⟩ := hs
  refine ⟨s, h, hq, hc, fun hr => ?_⟩
  obtain ⟨m₀, hm₀, -, hval⟩ := hr 0 _ hm
  obtain ⟨p₀, hp₀, hov⟩ := hval 0 _ rfl rfl
  cases hd.symm.trans hm₀
  cases hp₀
  rw [ha] at hov
  revert hov
  decide

/-- Two threads update the property, announcing their values in order. -/
theorem replays_of_announcing : ∃ s, Lts.Run (Lts.Under Instance.InOrderUpdates Instance.Steps) {}
    (registration ++ [.updateProperties 0 [(0, Str.lit "a")],
      .updateProperties 0 [(0, Str.lit "b")], .announce 0, .announce 0, .task, .task, .task, .task])
    s ∧ s.Replays := by
  obtain ⟨s, h, hs⟩ := Instance.exists_runs_under Instance.InOrderUpdates
    (registration ++ [.updateProperties 0 [(0, Str.lit "a")],
      .updateProperties 0 [(0, Str.lit "b")], .announce 0, .announce 0, .task, .task, .task, .task])
    (fun s => (s.threadLoop.length, s.calls.length)) (0, 0) (by decide +kernel)
  simp only [Prod.mk.injEq, List.length_eq_zero_iff] at hs
  exact ⟨s, h, replays_of_drained h hs.1 hs.2⟩

end Sacs
