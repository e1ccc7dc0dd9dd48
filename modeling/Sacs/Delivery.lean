import Sacs.Values

/-!
# The delivery of requests

A request of a web client is a task of the loop, which is run after those
queued before it (`fifo_threadLoop`). A request to apply updates
calls the callback of the module they are for (`exists_apply`), which is the one
it was registered with (`registration?_of_run`), or is sent on to the instance the
module is of (`exists_route`), which then calls it (`exists_pass`).
-/

namespace Sacs

open JsonMsg ModuleManager

/-! ## The queue -/

def Action.isTask : Action → Bool
  | .task => true
  | _ => false

theorem Transition.fifo {s s' : Instance} {a : Action} (h : Transition s a s') :
    (a.isTask = true ∧ ∃ t, s.threadLoop = t :: s'.threadLoop) ∨
      (a.isTask = false ∧ ∃ ts, s'.threadLoop = s.threadLoop ++ ts) := by
  rcases h.posts with ⟨rfl, t, ht⟩ | ⟨ha, ts, hts, -⟩
  · exact .inl ⟨rfl, t, ht.threadLoop⟩
  · refine .inr ⟨?_, ts, hts⟩
    cases a with
    | task => exact absurd rfl ha
    | _ => rfl

/-- The queue of the loop is first in, first out. -/
theorem fifo_threadLoop : Lts.Fifo Instance.threadLoop Action.isTask Instance.Steps :=
  fun _ _ _ hst => (transition_of_step hst).fifo

/-! ## Applying updates -/

/-- The state in which the callback of the module is called with the updates. -/
def Instance.applied (s : Instance) (id : Int32) (ps : Updates) (m : Module) (callback : Callback)
    (w : ClientId) : Instance :=
  answer (invoke (s.saved id ps m) callback id ps) w emptyJson

theorem Instance.invocations_applied (s : Instance) (id : Int32) (ps : Updates) (m : Module)
    (callback : Callback) (w : ClientId) :
    (s.applied id ps m callback w).invocations = s.invocations ++
      [⟨callback, id, ps.map Prod.fst, ps.map fun p => p.2.cString⟩] := by
  rw [Instance.applied, invocations_answer]
  simp only [Instance.invocations, Instance.saved, invoke, Instance.log, List.filterMap_append,
    List.append_assoc]
  rfl

theorem savePropertiesList_of_save {s : Instance} {id : Int32} {m m' : Module} {ps : Updates}
    (hm : s.modules.find? id = some m) (hm' : m.save ps = .ok m') :
    savePropertiesList s false id ps = .ok (s.saved id ps m') := by
  rw [savePropertiesList, if_neg Bool.false_ne_true]
  simp only [hm, hm', bind_ok]
  rfl

/-- Passing updates to a module calls its callback. -/
theorem passPropertyUpdate_of_callback {s : Instance} {json : JsonMsg} {id : Int32} {m m' : Module}
    {ps : Updates} {callback : Callback} (hid : json.findId = .ok id)
    (hm : s.modules.find? id = some m) (hps : json.getPropertiesList.map Prod.fst = .ok ps)
    (hne : ps ≠ []) (hm' : m.save ps = .ok m') (hcb : m.callback = some callback) :
    passPropertyUpdateToModule s false json = .ok (invoke (s.saved id ps m') callback id ps) := by
  obtain ⟨⟨ps', json'⟩, hlist, hfst⟩ := map_eq_ok.1 hps
  obtain rfl : ps' = ps := hfst
  rw [passPropertyUpdateToModule, if_neg Bool.false_ne_true, hid, bind_ok]
  simp only [hm, hlist, bind_ok, hne, if_false, savePropertiesList_of_save hm hm', hcb, pure_eq_ok]

/-- Passing updates to an image sends one message to the instance it is of. -/
theorem passPropertyUpdate_of_image {s : Instance} {json json' : JsonMsg} {id r : Int32}
    {c : ClientId} {m m' : Module} {ps : Updates} {msg : Text} (hid : json.findId = .ok id)
    (hm : s.modules.find? id = some m) (hps : json.getPropertiesList = .ok (ps, json))
    (hne : ps ≠ []) (hm' : m.save ps = .ok m') (hcb : m.callback = none) (hserver : s.server = true)
    (himage : s.remoteModules.find? id = some (r, c)) (hc : (s.clients c).isSome)
    (hset : json.setId r = .ok json') (hmsg : json'.toString = .ok msg) :
    passPropertyUpdateToModule s false json = .ok (ProxyServer.send (s.saved id ps m') c msg) := by
  have hremote : ProxyServer.remoteIdFromLocal (s.saved id ps m') id = (r, c) := by
    rw [ProxyServer.remoteIdFromLocal]
    exact congrArg (Option.getD · _) himage
  have hserver' : (s.saved id ps m').server = true := hserver
  have hc' : ((s.saved id ps m').clients c).isSome := hc
  have hsend : Proxy.handlePropertyUpdate (s.saved id ps m') json =
      .ok (ProxyServer.send (s.saved id ps m') c msg) := by
    rw [Proxy.handlePropertyUpdate, if_pos hserver', ProxyServer.handlePropertyUpdate, hid, bind_ok]
    simp only [hremote, hc', if_true, hset, hmsg, bind_ok, pure_eq_ok]
  rw [passPropertyUpdateToModule, if_neg Bool.false_ne_true, hid, bind_ok]
  simp only [hm, hps, bind_ok, hne, if_false, savePropertiesList_of_save hm hm', hcb, hsend]

/-- The task of a request to apply updates calls the callback of the module. -/
theorem exists_apply {s : Instance} {json : JsonMsg} {w : ClientId} {q : List Task} {id : Int32}
    {m m' : Module} {ps : Updates} {callback : Callback}
    (ht : Takes s (.doProcessJSRequest json w) q) (hjson : json.Carries .reqApply id ps)
    (hm : s.modules.find? id = some m) (hne : ps ≠ []) (hm' : m.save ps = .ok m')
    (hcb : m.callback = some callback) :
    s.step .task = .ok (({ s with threadLoop := q } : Instance).applied id ps m' callback w) := by
  have hpass := @passPropertyUpdate_of_callback { s with threadLoop := q } _ _ _ _ _ _ hjson.findId
    hm hjson.properties hne hm' hcb
  rw [ht.step_task, runTask, doProcessJSRequest, hjson.type]
  simp only [hpass, bind_ok, pure_eq_ok]
  rfl

/-- The task of a request to apply updates of an image sends one message to the instance
    of the module, a request to apply the updates there. -/
theorem exists_route {s : Instance} {json : JsonMsg} {w : ClientId} {q : List Task} {id r : Int32}
    {c : ClientId} {m m' : Module} {ps : Updates} {out : List Text}
    {hutf8 : (applyRequest id ps).isUtf8 = true}
    (hjson : parse (.json (applyRequest id ps) hutf8) = .ok json)
    (ht : Takes s (.doProcessJSRequest json w) q) (hm : s.modules.find? id = some m) (hne : ps ≠ [])
    (hm' : m.save ps = .ok m') (hcb : m.callback = none) (hserver : s.server = true)
    (himage : s.remoteModules.find? id = some (r, c)) (hc : s.clients c = some out) :
    ∃ s' msg json', s.step .task = .ok s' ∧ s'.invocations = s.invocations ∧
      s'.clients = Function.update s.clients c (some (out ++ [msg])) ∧
      parse msg = .ok json' ∧ json'.Carries .reqApply r ps := by
  obtain ⟨json₀, hjson₀, htype, hid, hlist, hsome⟩ := @parse_applyRequest id ps hutf8
  cases hjson.symm.trans hjson₀
  obtain ⟨json₁, hjson₁, -, hrelay⟩ := relays_of_parse hjson htype (.inr rfl) hid hlist hsome
  cases hjson.symm.trans hjson₁
  obtain ⟨json', msg, json'', hset, hstring, hparse, hcarries⟩ := hrelay r
  have hpass := @passPropertyUpdate_of_image { s with threadLoop := q } _ _ _ _ _ _ _ _ _ hid hm
    hlist hne hm' hcb hserver himage (Option.isSome_of_eq_some hc) hset hstring
  generalize hs₁ : ({ s with threadLoop := q } : Instance).saved id ps m' = s₁ at hpass
  refine ⟨answer (ProxyServer.send s₁ c msg) w emptyJson, msg, json'', ?_, ?_, ?_, hparse, hcarries⟩
  · rw [ht.step_task, runTask, doProcessJSRequest, htype]
    simp only [hpass, bind_ok, pure_eq_ok]
  · rw [invocations_answer, ← hs₁]
    simp only [Instance.invocations, ProxyServer.send, Instance.saved, List.filterMap_append]
    exact List.append_nil _
  · have hclients : (ProxyServer.send s₁ c msg).clients =
        Function.update s.clients c (some (out ++ [msg])) := by
      rw [← hs₁]
      simp only [ProxyServer.send, Instance.saved, hc, Option.map_some]
    rw [answer]
    split <;> exact hclients

/-- The task of a request sent on by the host calls the callback of the module. -/
theorem exists_pass {s : Instance} {json : JsonMsg} {q : List Task} {r : Int32} {m m' : Module}
    {ps : Updates} {callback : Callback} (ht : Takes s (.passPropertyUpdateToModule json) q)
    (hjson : json.Carries .reqApply r ps) (hm : s.modules.find? r = some m) (hne : ps ≠ [])
    (hm' : m.save ps = .ok m') (hcb : m.callback = some callback) :
    ∃ s', s.step .task = .ok s' ∧ s'.invocations = s.invocations ++
      [⟨callback, r, ps.map Prod.fst, ps.map fun p => p.2.cString⟩] := by
  have hpass := @passPropertyUpdate_of_callback { s with threadLoop := q } _ _ _ _ _ _ hjson.findId
    hm hjson.properties hne hm' hcb
  refine ⟨_, ht.step_task.trans hpass, ?_⟩
  simp only [Instance.invocations, Instance.saved, invoke, Instance.log, List.filterMap_append,
    List.append_assoc]
  rfl

/-- A module that is not registered any more is passed nothing. -/
theorem exists_pass_of_none {s : Instance} {json : JsonMsg} {q : List Task} {r : Int32}
    {ps : Updates} (ht : Takes s (.passPropertyUpdateToModule json) q)
    (hjson : json.Carries .reqApply r ps) (hm : s.modules.find? r = none) :
    s.step .task = .ok { s with threadLoop := q } := by
  rw [ht.step_task, runTask, passPropertyUpdateToModule, if_neg Bool.false_ne_true, hjson.findId,
    bind_ok]
  simp only [hm, pure_eq_ok]

/-! ## The module a request is for -/

/-- What is registered as an id stays so in the history. -/
theorem registration?_of_run {s t : Instance} {as : List Action} {id : Int32} {m : Module}
    (h : Lts.Run Instance.Steps s as t) (hm : s.registration? id = some m) :
    t.registration? id = some m := by
  refine h.invariant (P := fun t => t.registration? id = some m) hm ?_
  exact fun t a u ht hst => (transition_of_step hst).registration?_eq ht

/-- A module registered is still what it was, up to values of its properties. -/
theorem Instance.Kept.saved {s : Instance} (hs : s.Kept) {id : Int32} {m m₀ : Module}
    (hm : s.modules.find? id = some m) (hm₀ : s.registration? id = some m₀) : m₀.Saved m := by
  obtain ⟨m₁, hm₁, hkeeps⟩ := hs.kept hm
  cases hm₀.symm.trans hm₁
  exact hkeeps.saved

end Sacs
