import Sacs.Routing
import Sacs.Lib.Rank
import Mathlib.Algebra.BigOperators.Group.Finset.Sigma
import Mathlib.Algebra.Order.BigOperators.Group.Finset

/-!
# The work of the instances

What is left to be done by an instance, as a number (`Instance.work`): for every
task, message and handler, how many steps it can still lead to, here and in the
instances that the messages are sent to. A message to the host counts `up`, one to
a client `down`.

The steps of an instance that no one asks for (`Action.isInternal`) lower its work
(`work_internal`), the others raise it by their `cost` at most (`work_outer`). As a
message counts more than reading it costs, the same holds of the host with the
other instances (`Network.work`).

So nothing goes on for ever, or multiplies: in every run, the steps that no one
asks for are at most eleven times the others (`internal_le_of_runs`).
-/

namespace Sacs

open JsonMsg ModuleManager

/-- Client ids are finitely many. -/
noncomputable instance instFintypeUInt32 : Fintype UInt32 :=
  .ofInjective UInt32.toFin fun _ _ h => UInt32.toFin_inj.1 h

/-! ## The work -/

section

variable (up down : ℕ)

def Task.work : Task → ℕ
  | .onProxyInitialized _ => 2
  | .handleMessage _ | .doRegisterModule .. | .unregisterModule _ => up + 2
  | .savePropertiesList .. => 1
  | .doProcessJSRequest .. => down + 3
  | .passPropertyUpdateToModule _ => down + 2

/-- A callback that returns may have to answer a request. -/
def LoopPc.work : LoopPc → ℕ
  | .idle => 0
  | .flushing => 1
  | .callback none | .waiting none => 1
  | .callback (some _) | .waiting (some _) => 2

/-- The image added by a handler is removed again, sooner or later. -/
def HandlerPc.work : HandlerPc → ℕ
  | .idle => 0
  | .registering _ | .registered .. => up + 4
  | .updating _ => up + 3
  | .closing => 1

def WebPc.work : WebPc → ℕ
  | .idle | .waiting => 0
  | .ready _ => 1

/-- The length of a stream, if it is open. -/
def streamLength (stream : Option (List Text)) : ℕ := stream.elim 0 List.length

noncomputable def Instance.work (s : Instance) : ℕ :=
  (s.threadLoop.map (Task.work up down)).sum + (up + 1) * s.msgQueue.length +
    (up + 3) * s.calls.length + s.loop.work + ∑ c, (s.handler c).work up + ∑ w, (s.web w).work +
    (up + 3) * s.remoteModules.entries.length + up * streamLength s.client +
    ∑ c, down * streamLength (s.clients c)

end

/-- The step is one that no one asks for: what was begun goes on. -/
def Action.isInternal : Action → Bool
  | .task | .flush | .announce _ | .callbackReturn | .resume _ | .wsReply _ => true
  | _ => false

/-- What the other steps add to the work. -/
def Action.cost (up down : ℕ) : Action → ℕ
  | .registerModule .. | .unregisterModule _ | .callbackRegisterModule .. => up + 2
  | .callbackUnregisterModule _ | .callbackUpdateProperties .. => up + 1
  | .updateProperties .. => up + 4
  | .connecting _ => 2
  | .proxyRead _ => down + 2
  | .read .. => 2 * up + 6
  | .closed _ => 1
  | .wsMessage .. => down + 3
  | _ => 0

/-! ## The parts of a step -/

section

variable (up down : ℕ) (s : Instance)

theorem work_post (t : Task) : (s.post t).work up down = s.work up down + t.work up down := by
  simp only [Instance.work, Instance.post, List.map_append, List.map_cons, List.map_nil,
    List.sum_append, List.sum_singleton]
  omega

theorem work_take {s : Instance} {t : Task} {q : List Task} (ht : Takes s t q) :
    ({ s with threadLoop := q } : Instance).work up down + t.work up down = s.work up down := by
  simp only [Instance.work, ht.threadLoop, List.map_cons, List.sum_cons]
  omega

theorem work_setHandler (c : ClientId) (pc : HandlerPc) :
    (ProxyServer.setHandler s c pc).work up down + (s.handler c).work up =
      s.work up down + pc.work up := by
  have := sum_update_add (HandlerPc.work up) s.handler c pc
  simp only [Instance.work, ProxyServer.setHandler]
  omega

theorem work_setWeb (w : ClientId) (pc : WebPc) :
    (ServerImpl.setWeb s w pc).work up down + (s.web w).work = s.work up down + pc.work := by
  have := sum_update_add WebPc.work s.web w pc
  simp only [Instance.work, ServerImpl.setWeb]
  omega

theorem work_setClient (c : ClientId) (stream : Option (List Text)) :
    ({ s with clients := Function.update s.clients c stream } : Instance).work up down +
      down * streamLength (s.clients c) = s.work up down + down * streamLength stream := by
  have := sum_update_add (fun stream => down * streamLength stream) s.clients c stream
  simp only [Instance.work]
  omega

theorem work_send {s : Instance} {c : ClientId} {out : List Text} (h : s.clients c = some out)
    (msg : Text) :
    ({ s with clients := Function.update s.clients c (some (out ++ [msg])) } : Instance).work
      up down = s.work up down + down := by
  have := work_setClient up down s c (some (out ++ [msg]))
  simp only [h, streamLength, Option.elim_some, List.length_append, List.length_singleton,
    Nat.mul_add, Nat.mul_one] at this
  omega

theorem work_setLoop (pc : LoopPc) :
    ({ s with loop := pc } : Instance).work up down + s.loop.work = s.work up down + pc.work := by
  simp only [Instance.work]
  omega

theorem work_addModule (localId remoteId : Int32) (c : ClientId) :
    (ProxyServer.addModule s localId remoteId c).work up down ≤ s.work up down + (up + 3) := by
  have := Nat.mul_le_mul_left (up + 3) (s.remoteModules.length_insert_le localId (remoteId, c))
  rw [Nat.mul_add, Nat.mul_one] at this
  simp only [Instance.work, ProxyServer.addModule]
  omega

theorem work_removeModule (localId : Int32) :
    (ProxyServer.removeModule s localId).work up down ≤ s.work up down := by
  have := Nat.mul_le_mul_left (up + 3) (s.remoteModules.length_erase_le localId)
  simp only [Instance.work, ProxyServer.removeModule]
  omega

theorem work_removeModule_of_find? {s : Instance} {localId : Int32} {remote : Int32 × ClientId}
    (h : s.remoteModules.find? localId = some remote) :
    (ProxyServer.removeModule s localId).work up down + (up + 3) ≤ s.work up down := by
  have := Nat.mul_le_mul_left (up + 3) (OrdMap.length_erase_lt h)
  simp only [Instance.work, ProxyServer.removeModule]
  rw [Nat.succ_eq_add_one, Nat.mul_add, Nat.mul_one] at this
  omega

theorem work_pushMsg {s s' : Instance} {msg : Text} (h : pushMsg s msg = .ok s') :
    s'.work up down ≤ s.work up down + up := by
  obtain ⟨-, rfl⟩ | ⟨-, sent, hsent, rfl⟩ := pushMsg_cases h
  · obtain ⟨ls, h, -⟩ := ServerImpl.pushMsgForJS_eq (s := s) msg
    rw [h]
    exact Nat.le_add_right ..
  · simp only [Instance.work, hsent, streamLength, Option.elim_some, List.length_append,
      List.length_singleton, Nat.mul_add, Nat.mul_one]
    omega

theorem work_handleMessage {s s' : Instance} {msg : Text}
    (h : handleMessage s false msg = .ok s') : s'.work up down ≤ s.work up down + (up + 1) := by
  obtain ⟨-, rfl⟩ | ⟨-, h⟩ := handleMessage_cases h
  · simp only [Instance.work, List.length_append, List.length_singleton, Nat.mul_add, Nat.mul_one]
    omega
  · exact (work_pushMsg up down h).trans (Nat.add_le_add_left (Nat.le_succ up) _)

theorem work_savePropertiesList {s s' : Instance} {id : Int32} {ps : Updates}
    (h : savePropertiesList s false id ps = .ok s') : s'.work up down = s.work up down := by
  obtain ⟨_, _, rfl⟩ := savePropertiesList_frame h
  rfl

theorem Passes.work {s s' : Instance} {json : JsonMsg} (h : Passes s json s') :
    s'.work up down ≤ s.work up down + (down + 1) := by
  cases h with
  | nothing => exact Nat.le_add_right ..
  | unrouted => exact Nat.le_add_right ..
  | @sent id m m' ps _ _ out msg _ _ _ _ _ _ _ hout =>
    exact (work_send up down (s := s.saved id ps m') hout msg).le.trans
      (Nat.add_le_add_left (Nat.le_succ down) _)
  | @invoked id m m' ps =>
    have := work_setLoop up down (s.saved id ps m') (.callback none)
    have hsaved : (s.saved id ps m').work up down = s.work up down := rfl
    have hlog : ∀ s₁ : Instance, ∀ e, (s₁.log e).work up down = s₁.work up down := fun _ _ => rfl
    rw [invoke, hlog]
    simp only [LoopPc.work] at this
    omega

theorem work_answer (w : ClientId) (response : Text) :
    (answer s w response).work up down ≤ s.work up down + 1 := by
  rw [answer]
  split
  · rename_i request hcb
    have := work_setLoop up down s (.callback (some (w, response)))
    rw [hcb] at this
    cases request <;> simp only [LoopPc.work] at this <;> omega
  · have := work_setWeb up down s w (.ready response)
    have hlog : (respond s w response).work up down =
      (ServerImpl.setWeb s w (.ready response)).work up down := rfl
    simp only [WebPc.work] at this
    omega

theorem work_fulfil (promise : Promise) (id : Int32) :
    (fulfil s promise id).work up down = s.work up down := by
  unfold fulfil
  split
  · rfl
  · rename_i request hw
    have := work_setLoop up down s (.callback request)
    rw [hw] at this
    cases request <;> simp only [LoopPc.work] at this <;> omega
  · rfl
  · split
    · rename_i c _ remoteId hreg
      have := work_setHandler up down s c (.registered remoteId id)
      rw [hreg] at this
      exact Nat.add_right_cancel this
    · rfl

end

/-! ## Steps -/

section

variable (up down : ℕ) {s s' : Instance}

theorem work_eraseCall {i : ℕ} {call : Int32 × Updates} (hi : s.calls[i]? = some call) :
    ({ s with calls := s.calls.eraseIdx i } : Instance).work up down + (up + 3) =
      s.work up down := by
  have hpos := (List.getElem?_eq_some_iff.1 hi).1
  have hlen : s.calls.length = (s.calls.eraseIdx i).length + 1 := by
    rw [List.length_eraseIdx_of_lt hpos]
    omega
  simp only [Instance.work, hlen, Nat.mul_add, Nat.mul_one]
  omega

theorem work_call (call : Int32 × Updates) :
    ({ s with calls := s.calls ++ [call] } : Instance).work up down =
      s.work up down + (up + 3) := by
  simp only [Instance.work, List.length_append, List.length_singleton, Nat.mul_add, Nat.mul_one]
  omega

/-- A task is removed from the queue, and leads to less than it counts. -/
theorem work_task (h : Transition s .task s') : s'.work up down < s.work up down := by
  cases h with
  | @taskRole hostMode q ht =>
    have hq := work_take up down ht
    have hloop := work_setLoop up down { s with threadLoop := q } .flushing
    have hrole : Instance.work up down { s with
        threadLoop := q, serverImpl := s.serverImpl || hostMode, initialized := true
        loop := .flushing } = Instance.work up down { s with threadLoop := q, loop := .flushing } :=
      rfl
    simp only [Task.work, LoopPc.work] at hq hloop
    omega
  | @taskHandle msg q _ ht h =>
    have hq := work_take up down ht
    have := work_handleMessage up down h
    simp only [Task.work] at hq
    omega
  | @taskRegister m promise q msg s₁ ht _ _ h =>
    have hq := work_take up down ht
    have := work_handleMessage up down h
    have hadd : Instance.work up down (({ s with threadLoop := q } : Instance).added promise m) =
      Instance.work up down { s with threadLoop := q } := rfl
    rw [work_fulfil]
    simp only [Task.work] at hq
    omega
  | @taskUnregister id q _ _ ht _ h =>
    have hq := work_take up down ht
    have := work_handleMessage up down h
    have hremove : Instance.work up down (({ s with threadLoop := q } : Instance).removed id) =
      Instance.work up down { s with threadLoop := q } := rfl
    simp only [Task.work] at hq
    omega
  | taskSaveNone ht =>
    have hq := work_take up down ht
    simp only [Task.work] at hq
    omega
  | @taskSave id ps m m' q ht =>
    have hq := work_take up down ht
    have hsave : Instance.work up down (({ s with threadLoop := q } : Instance).saved id ps m') =
      Instance.work up down { s with threadLoop := q } := rfl
    simp only [Task.work] at hq
    omega
  | @taskOther json w q ht =>
    have hq := work_take up down ht
    have hweb := work_setWeb up down { s with threadLoop := q } w
      (.ready emptyJson)
    have hrespond : Instance.work up down (respond { s with threadLoop := q } w emptyJson) =
      Instance.work up down (ServerImpl.setWeb { s with threadLoop := q } w (.ready emptyJson)) :=
      rfl
    simp only [Task.work, WebPc.work] at hq hweb
    omega
  | @taskLoad json w q result s₁ ht _ _ h =>
    have hq := work_take up down ht
    have := h.work up down
    have := work_answer up down s₁ w result
    simp only [Task.work] at hq
    omega
  | @taskApply json w q s₁ ht _ h =>
    have hq := work_take up down ht
    have := h.work up down
    have := work_answer up down s₁ w emptyJson
    simp only [Task.work] at hq
    omega
  | @taskPass json q _ ht h =>
    have hq := work_take up down ht
    have := h.work up down
    simp only [Task.work] at hq
    omega

theorem work_resume {c : ClientId} (h : Transition s (.resume c) s') :
    s'.work up down < s.work up down := by
  cases h with
  | @resumeAdd _ remoteId localId hpc =>
    have := work_addModule up down s localId remoteId c
    have hset := work_setHandler up down
      (ProxyServer.addModule s localId remoteId c) c .idle
    have hpc' : (ProxyServer.addModule s localId remoteId c).handler c = _ := hpc
    simp only [hpc', HandlerPc.work] at hset
    omega
  | @resumeUpdate _ json msg hpc =>
    have := work_post up down s (.handleMessage msg)
    have hset := work_setHandler up down (s.post (.handleMessage msg)) c .idle
    have hpc' : (s.post (.handleMessage msg)).handler c = _ := hpc
    simp only [hpc', HandlerPc.work, Task.work] at hset this
    omega
  | @resumeClosing _ localId remote hpc hnext =>
    -- The image was counted, with the task that removes it.
    have := work_post up down s (.unregisterModule localId)
    have := work_removeModule_of_find? up down
      (s := s.post (.unregisterModule localId)) (OrdMap.of_first?_eq_some hnext).1
    simp only [Task.work] at *
    omega
  | @resumeClosed _ hpc =>
    have hclient := work_setClient up down s c none
    have hset := work_setHandler up down
      { s with clients := Function.update s.clients c none } c .idle
    simp only [hpc, HandlerPc.work, streamLength, Option.elim_none, Nat.mul_zero] at hclient hset
    omega

theorem work_internal {a : Action} (h : Transition s a s') (ha : a.isInternal = true) :
    s'.work up down < s.work up down := by
  cases a <;> simp only [Action.isInternal, Bool.false_eq_true] at ha
  case task => exact work_task up down h
  case resume => exact work_resume up down h
  case announce i =>
    cases h with
    | @announce _ _ _ msg hi =>
      have hcall := work_eraseCall up down hi
      have := work_post up down { s with calls := s.calls.eraseIdx i }
        (.handleMessage msg)
      simp only [Task.work] at this
      omega
    | announceThrows hi =>
      have := work_eraseCall up down hi
      omega
  case flush =>
    cases h with
    | flushed hl =>
      have := work_setLoop up down s .idle
      simp only [hl, LoopPc.work] at this
      omega
    | @flush msg q _ hl hq h =>
      have hpush := work_pushMsg up down h
      have hmsg : Instance.work up down { s with msgQueue := q } + (up + 1) =
          s.work up down := by
        simp only [Instance.work, hq, List.length_cons, Nat.mul_add, Nat.mul_one]
        omega
      omega
  case callbackReturn =>
    cases h with
    | callbackReturn hl =>
      have := work_setLoop up down s .idle
      simp only [hl, LoopPc.work] at this
      omega
    | @callbackAnswer w response hl =>
      have hloop := work_setLoop up down s .idle
      have hweb := work_setWeb up down { s with loop := .idle } w (.ready response)
      have hrespond : Instance.work up down (respond { s with loop := .idle } w response) =
        Instance.work up down (ServerImpl.setWeb { s with loop := .idle } w (.ready response)) :=
        rfl
      simp only [hl, LoopPc.work, WebPc.work] at hloop hweb
      omega
  case wsReply w =>
    cases h with
    | @wsReply _ response hw =>
      have hset := work_setWeb up down (ServerImpl.send s w response) w .idle
      have hw' : (ServerImpl.send s w response).web w = _ := hw
      have hsend : Instance.work up down (ServerImpl.send s w response) = s.work up down := rfl
      simp only [hw', WebPc.work] at hset
      omega

/-- Reading a message posts a task at most, and starts the handler. -/
theorem work_read {c : ClientId} {msg : Text} (h : Transition s (.read c msg) s') :
    s'.work up down ≤ s.work up down + (2 * up + 6) := by
  have hset : ∀ (t : Task) {pc : HandlerPc}, s.handler c = .idle →
      (ProxyServer.setHandler (s.post t) c pc).work up down =
        s.work up down + t.work up down + pc.work up := by
    intro t pc hidle
    have := work_setHandler up down (s.post t) c pc
    rwa [show (s.post t).handler c = _ from hidle, work_post] at this
  cases h with
  | readNothing => exact Nat.le_add_right ..
  | @readAdd _ _ json m _ hidle =>
    rw [hset _ hidle]
    simp only [Task.work, HandlerPc.work]
    omega
  | @readDel _ _ json id =>
    refine (work_removeModule ..).trans ?_
    rw [work_post]
    simp only [Task.work]
    omega
  | readUpdate _ hidle =>
    rw [hset _ hidle]
    simp only [Task.work, HandlerPc.work]
    omega

theorem work_proxyRead {msg : Text} (h : Transition s (.proxyRead msg) s') :
    s'.work up down = s.work up down + (down + 2) := by
  cases h with
  | proxyRead => exact work_post ..

theorem work_outer {a : Action} (h : Transition s a s') (ha : a.isInternal = false) :
    s'.work up down ≤ s.work up down + a.cost up down := by
  have hloop : ∀ {request : Option (ClientId × Text)}, s.loop = .callback request →
      Instance.work up down { s with loop := .waiting request } = s.work up down := by
    intro request hl
    have := work_setLoop up down s (.waiting request)
    rw [hl] at this
    cases request <;> simp only [LoopPc.work] at this <;> omega
  cases a <;> simp only [Action.isInternal, Bool.true_eq_false] at ha <;> simp only [Action.cost]
  case registerModule =>
    cases h with
    | registerModule => exact (work_post ..).le
  case unregisterModule id =>
    cases h with
    | unregisterModule => exact (work_post up down (s.log (.unregister id)) _).le
  case updateProperties id ps =>
    cases h with
    | updateProperties =>
      have := work_post up down { s with calls := s.calls ++ [(id, ps)] }
        (.savePropertiesList id ps)
      rw [work_call] at this
      exact this.le
  case callbackRegisterModule n ps cb =>
    cases h with
    | @callbackRegister _ _ _ request hl =>
      have := work_post up down { s with loop := .waiting request }
        (.doRegisterModule ⟨-1, n, ps, cb⟩ .callback)
      rw [hloop hl] at this
      exact this.le
  case callbackUnregisterModule id =>
    cases h with
    | callbackUnregister _ _ h =>
      have hremove : Instance.work up down ((s.log (.unregister id)).removed id) =
        s.work up down := rfl
      have := work_handleMessage up down h
      omega
  case callbackUpdateProperties =>
    cases h with
    | callbackUpdate _ hs _ h =>
      have hsave := work_savePropertiesList up down hs
      have := work_handleMessage up down h
      omega
    | callbackUpdateThrows _ hs =>
      have := work_savePropertiesList up down hs
      omega
  case connecting =>
    cases h with
    | connectingAgain => exact Nat.le_add_right ..
    | connectingProxy =>
      rw [work_post]
      simp only [Instance.work, Task.work, streamLength, Option.elim_some, List.length_nil]
      omega
    | connectingHost => exact (work_post ..).le
  case proxyRead => exact (work_proxyRead up down h).le
  case accept c =>
    cases h with
    | accept _ hc =>
      have := work_setClient up down s c (some [])
      simp only [hc, streamLength, Option.elim_none, Option.elim_some, List.length_nil] at this
      exact this.le
  case read => exact work_read up down h
  case closed c =>
    cases h with
    | closed _ hidle =>
      have := work_setHandler up down s c .closing
      rw [hidle] at this
      exact this.le
  case wsConnected =>
    cases h with
    | wsConnected => exact Nat.le_refl _
  case wsMessage w _ =>
    cases h with
    | wsLarge => exact Nat.le_add_right ..
    | wsNotJson => exact Nat.le_add_right ..
    | @wsRequest _ _ json _ hidle =>
      have := work_setWeb up down (s.post (.doProcessJSRequest json w)) w .waiting
      rw [show (s.post (.doProcessJSRequest json w)).web w = _ from hidle, work_post] at this
      exact this.le
  case wsClosed =>
    cases h with
    | wsClosed => exact Nat.le_refl _
  case wsExpired =>
    cases h with
    | wsExpired => exact Nat.le_refl _

end

/-! ## The network -/

namespace Network

variable {ι : Type}

/-- A message to the host counts seven, one of the host three. -/
noncomputable def work [Fintype ι] (n : Network ι) : ℕ :=
  n.host.work 0 3 + ∑ p, (n.inst p).work 7 0

/-- The step is one that no one asks for. -/
def Action.isInternal : Action ι → Bool
  | .host a => a.isInternal
  | .inst _ a => a.isInternal
  | .deliverUp _ | .deliverDown _ => true
  | .connect .. | .disconnect _ => false

variable [Fintype ι] [DecidableEq ι] {n n' : Network ι}

/-- What is bounded for the host and one of the instances is bounded for the network. -/
theorem work_le_of_inst {host s : Instance} {p : ι} {i j : ℕ} (hhost : n'.host = host)
    (hinst : n'.inst = Function.update n.inst p s)
    (h : host.work 0 3 + s.work 7 0 + i ≤ n.host.work 0 3 + (n.inst p).work 7 0 + j) :
    n'.work + i ≤ n.work + j := by
  have := sum_update_add (Instance.work 7 0) n.inst p s
  rw [work, work, hhost, hinst]
  omega

omit [DecidableEq ι] in
theorem work_le_of_host {host : Instance} {i j : ℕ} (hhost : n'.host = host)
    (hinst : n'.inst = n.inst) (h : host.work 0 3 + i ≤ n.host.work 0 3 + j) :
    n'.work + i ≤ n.work + j := by
  rw [work, work, hhost, hinst]
  omega

omit [DecidableEq ι] in
theorem work_init : ({} : Network ι).work = 0 := by
  simp [work, Instance.work, LoopPc.work, HandlerPc.work, WebPc.work, streamLength, OrdMap.empty]

-- From here on, the lemmas above say all about the work.
attribute [local irreducible] work

/-- A message leaves a stream: reading it costs less than it counts. -/
theorem work_of_internal {a : Action ι} (h : n.Moves a n') (ha : a.isInternal = true) :
    n'.work < n.work := by
  cases h with
  | host _ h =>
    have := work_internal 0 3 h ha
    refine work_le_of_host (i := 1) (j := 0) rfl rfl ?_
    dsimp only
    omega
  | inst _ h =>
    have := work_internal 7 0 h ha
    refine work_le_of_inst (i := 1) (j := 0) rfl rfl ?_
    dsimp only [setInst]
    omega
  | connect => cases ha
  | @deliverUp p _ _ sent _ _ hclient h =>
    have hread := work_read 0 3 h
    have hsent : Instance.work 7 0 { n.inst p with client := some sent } + 7 =
        (n.inst p).work 7 0 := by
      simp only [Instance.work, hclient, streamLength, Option.elim_some, List.length_cons]
      omega
    refine work_le_of_inst (i := 1) (j := 0) rfl rfl ?_
    dsimp only [setInst] at hsent ⊢
    omega
  | @deliverDown p c _ sent _ _ hclients h =>
    have hread := work_proxyRead 7 0 h
    have hsent := work_setClient 0 3 n.host c (some sent)
    simp only [hclients, streamLength, Option.elim_some, List.length_cons] at hsent
    refine work_le_of_inst (i := 1) (j := 0) rfl rfl ?_
    dsimp only [setInst]
    omega
  | disconnect => cases ha

/-- A call, a request or a change of a connection adds eleven to the work, at most. -/
theorem work_of_outer {a : Action ι} (h : n.Moves a n') (ha : a.isInternal = false) :
    n'.work ≤ n.work + 11 := by
  have hcost : ∀ a : Sacs.Action, a.ofHost → a.cost 0 3 ≤ 11 := fun a _ => by
    cases a <;> simp [Action.cost]
  have hcost' : ∀ a : Sacs.Action, a.isLocal → a.cost 7 0 ≤ 11 := fun a hlocal => by
    cases a <;> simp_all [Action.cost, Action.isLocal]
  cases h with
  | host hof h =>
    have := work_outer 0 3 h ha
    have := hcost _ hof
    refine work_le_of_host (i := 0) (j := 11) rfl rfl ?_
    dsimp only
    omega
  | inst hlocal h =>
    have := work_outer 7 0 h ha
    have := hcost' _ hlocal
    refine work_le_of_inst (i := 0) (j := 11) rfl rfl ?_
    dsimp only [setInst]
    omega
  | connect _ hhost hinst =>
    have := work_outer 0 3 hhost rfl
    have := work_outer 7 0 hinst rfl
    simp only [Action.cost] at *
    refine work_le_of_inst (i := 0) (j := 11) rfl rfl ?_
    dsimp only [setInst]
    omega
  | deliverUp => cases ha
  | deliverDown => cases ha
  | disconnect _ h =>
    have := work_outer 0 3 h rfl
    simp only [Action.cost] at this
    refine work_le_of_host (i := 0) (j := 11) rfl rfl ?_
    dsimp only
    omega

/-- Of the steps of a run, those no one asks for, with those still to come, are at most
    eleven times the others. -/
theorem internal_le_of_runs {as : List (Action ι)} (h : Lts.Run Steps {} as n) :
    as.countP Action.isInternal + n.work ≤ 11 * as.countP (!·.isInternal) := by
  have := h.countP_add_le (fun s a t hst => work_of_internal (moves_of_step hst))
    fun s a t hst => work_of_outer (moves_of_step hst)
  rwa [work_init, Nat.zero_add] at this

/-- An instance with a module connects, and the module is announced. -/
theorem internal_le_of_imaging : ∃ n : Network Unit, Lts.Run Steps {} imaging n ∧
    n.conn () = some 7 ∧
    imaging.countP Action.isInternal + n.work ≤ 11 * imaging.countP (!·.isInternal) := by
  obtain ⟨n, hrun, hconn⟩ := Lts.exists_run_of_foldlM step {} imaging
    (fun n : Network Unit => n.conn ()) (some 7) (by decide +kernel)
  exact ⟨n, hrun, hconn, internal_le_of_runs hrun⟩

end Network

end Sacs
