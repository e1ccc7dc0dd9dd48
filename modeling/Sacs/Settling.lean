import Sacs.Faultless
import Sacs.Pointers
import Sacs.Replies
import Sacs.Work

/-!
# The network settles

The steps of a network whose applications are careful (`Network.Careful`): they give
their instances nothing that cannot be announced, callbacks register no module, and
an instance that is not the host has modules with a callback only. Then no message
of another instance, and nothing else, makes an instance fail (`faultless_of_runs`).

So when nobody asks for anything any more, the network goes on until everything is
done (`settles_of_runs`): no thread is left waiting, all messages are delivered, and
the host has one image of every module of the instances connected.
-/

namespace Sacs

open JsonMsg ModuleManager

/-! ## Instances that are not the host -/

/-- A role depends on what the state says of it. -/
theorem Instance.Role.congr {s s' : Instance} (hs : s.Role) (h : SameRole s s') : s'.Role := by
  have hclient : s.client = none → s'.client = none := fun hc => by
    have := h.client
    rwa [hc, Option.isSome_none, Option.isSome_eq_false_iff, Option.isNone_iff_eq_none] at this
  have hdecided : s.Decided → s'.Decided := fun hd =>
    ⟨h.proxyInitialized.trans hd.1, by rw [h.client, h.server, hd.2]⟩
  cases hs with
  | undecided hp hc hserver hr hi himpl =>
    exact .undecided (h.proxyInitialized.trans hp) (hclient hc) (h.server.trans hserver)
      (h.roles.trans hr) (h.initialized.trans hi) (h.serverImpl.trans himpl)
  | told hd hr hi himpl =>
    exact .told (hdecided hd) (by rw [h.roles, h.server, hr]) (h.initialized.trans hi)
      (h.serverImpl.trans himpl)
  | initialized hd hr hi himpl =>
    exact .initialized (hdecided hd) (h.roles.trans hr) (h.initialized.trans hi)
      (by rw [h.serverImpl, h.server, himpl])

/-- Streams do not matter to an instance being tame, as long as they are open. -/
theorem Instance.Tame.setStreams {s : Instance} (hs : s.Tame) {client : Option (List Text)}
    (hclient : client.isSome = s.client.isSome) (clients : ClientId → Option (List Text)) :
    ({ s with client, clients } : Instance).Tame where
  hosting := ⟨hs.hosting.role.congr ⟨rfl, hclient, rfl, rfl, rfl, rfl⟩,
    ⟨hs.hosting.posts.queued, hs.hosting.posts.updating⟩, hs.hosting.web, hs.hosting.requests,
    hs.hosting.modules⟩
  queues := ⟨hs.queues.handled, hs.queues.flushed, hs.queues.ready⟩
  fresh := hs.fresh
  valid := ⟨hs.valid.modules, hs.valid.passed⟩
  tasks := hs.tasks
  calls := hs.calls
  waiting := hs.waiting
  flushing := hs.flushing

/-- What is known of an instance that is not the host: it has modules with a callback, and
    sends announcements. -/
structure Instance.Speaks (s : Instance) : Prop where
  tame : s.Tame
  proxying : s.Proxying
  idle : ∀ c, s.handler c = .idle
  modules : ∀ id m, s.modules.find? id = some m → m.callback.isSome
  tasks : ∀ t ∈ s.threadLoop, ∀ m promise, t = .doRegisterModule m promise → m.callback.isSome
  posted : ∀ t ∈ s.threadLoop, ∀ msg, t = .handleMessage msg → msg.IsNews
  handled : ∀ msg ∈ s.handled, msg.IsNews
  client : ∀ sent msg, s.client = some sent → msg ∈ sent → msg.IsNews

/-- The application registers modules with a callback. -/
def Action.Calls (a : Action) : Prop := ∀ n ps, a ≠ .registerModule n ps none

namespace Instance.Speaks

variable {s s' : Instance} (hs : s.Speaks)

include hs

theorem modules_step {a : Action} (h : Transition s a s') (id : Int32) (m : Module)
    (hm : s'.modules.find? id = some m) : m.callback.isSome := by
  cases h.edits with
  | keep hmodules => exact hs.modules id m (hmodules ▸ hm)
  | @add m₁ promise q _ ht _ hmodules =>
    rw [hmodules, hs.tame.fresh.find?_insert] at hm
    split_ifs at hm
    · cases hm
      exact hs.tasks _ (ht.threadLoop ▸ List.mem_cons_self) m₁ promise rfl
    · exact hs.modules id m hm
  | remove _ hmodules =>
    rw [hmodules, OrdMap.find?_erase] at hm
    split_ifs at hm
    exact hs.modules id m hm
  | @save id' ps m₀ m' _ hm₀ hm' hmodules =>
    rw [hmodules, OrdMap.find?_modify] at hm
    split_ifs at hm with hid
    · rw [hm₀, Option.map_some, Option.some.injEq] at hm
      subst hm
      rw [(Module.save_saved hm').callback]
      exact hs.modules _ _ hm₀
    · exact hs.modules id m hm

/-- A handler of a client never starts. -/
theorem client?_ne {a : Action}
    (ha : a.isLocal ∨ (∃ msg, a = .proxyRead msg) ∨ ∃ ok, a = .connecting ok)
    (h : Transition s a s') (c : ClientId) : a.client? ≠ some c := by
  intro hc
  cases a with
  | read c' msg => rcases ha with ha | ⟨_, ha⟩ | ⟨_, ha⟩ <;> cases ha
  | closed c' => rcases ha with ha | ⟨_, ha⟩ | ⟨_, ha⟩ <;> cases ha
  | resume c' =>
    have hidle := hs.idle c'
    cases h with
    | resumeAdd hpc => cases hidle.symm.trans hpc
    | resumeUpdate hpc => cases hidle.symm.trans hpc
    | resumeClosing hpc => cases hidle.symm.trans hpc
    | resumeClosed hpc => cases hidle.symm.trans hpc
  | _ => cases hc

theorem step_of {a : Action} (ha : a.Tame) (hcalls : a.Calls)
    (hlocal : a.isLocal ∨ (∃ msg, a = .proxyRead msg) ∨ ∃ ok, a = .connecting ok)
    (h : Transition s a s') (hproxying : s'.Proxying)
    (hclient : ∀ sent msg, s'.client = some sent → msg ∈ sent → msg ∈ s'.handled ∨ msg.IsNews) :
    s'.Speaks := by
  have hne := hs.client?_ne hlocal h
  have hhandled : ∀ msg ∈ s'.handled, msg.IsNews := by
    intro msg hmsg
    rcases h.mem_handled ha hmsg with hmsg | hmsg | hmsg
    · exact hs.handled msg hmsg
    · exact hs.posted _ hmsg msg rfl
    · exact hmsg
  refine ⟨hs.tame.step ha h, hproxying, fun c => h.handler_idle (hs.idle c) (hne c),
    hs.modules_step h, h.forall_tasks hs.tasks (fun _ ht => ht) fun ts hts => ?_,
    h.forall_tasks hs.posted (fun _ ht => ht) fun ts hts => ?_, hhandled,
    fun sent msg hsent hmsg => (hclient sent msg hsent hmsg).elim (hhandled msg) id⟩
  · cases hts with
    | @registerModule n ps cb =>
      intro t ht m promise hm
      cases List.mem_singleton.1 ht
      cases hm
      cases cb with
      | none => exact absurd rfl (hcalls n ps)
      | some cb => rfl
    | callbackRegister => exact ha.elim
    | readAdd => exact absurd rfl (hne _)
    | _ => simp
  · cases hts with
    | @announce i id ps msg hi hmsg =>
      intro t ht msg' hmsg'
      cases List.mem_singleton.1 ht
      cases hmsg'
      exact .updated id ps hmsg (hs.tame.calls _ (List.mem_of_getElem? hi))
    | resumeUpdate => exact absurd rfl (hne _)
    | _ => simp

/-- A step other than the connection to the host. -/
theorem step {a : Action} (ha : a.Tame) (hcalls : a.Calls)
    (hlocal : a.isLocal ∨ ∃ msg, a = .proxyRead msg) (h : Transition s a s') : s'.Speaks := by
  have hconn : ∀ ok, a ≠ .connecting ok := by
    rintro ok rfl
    rcases hlocal with ha | ⟨_, ha⟩ <;> cases ha
  obtain ⟨news, hnews, hclient, -⟩ := h.uplinks hconn hs.proxying.serverImpl
  refine hs.step_of ha hcalls (hlocal.imp_right .inl) h (hs.proxying.step h hconn)
    fun sent msg hsent hmsg => ?_
  rw [hclient] at hsent
  obtain ⟨sent₀, hsent₀, rfl⟩ := Option.map_eq_some_iff.1 hsent
  rcases List.mem_append.1 hmsg with hmsg | hmsg
  · exact .inr (hs.client sent₀ msg hsent₀ hmsg)
  · -- What is sent was pushed, and so handled.
    refine .inl ?_
    rw [(hs.tame.queues.step h).handled, hnews]
    exact List.mem_append_left _ (List.mem_append_right _ hmsg)

theorem connect (h : Transition s (.connecting true) s') (hp : s.proxyInitialized = false) :
    s'.Speaks := by
  obtain ⟨hproxying, hclient, -⟩ := hs.proxying.connect h hp
  refine hs.step_of (a := .connecting true) trivial nofun (.inr (.inr ⟨true, rfl⟩)) h hproxying
    fun sent msg hsent hmsg => ?_
  cases hclient.symm.trans hsent
  cases hmsg

/-- The host reads a message. -/
theorem deliver {msg : Text} {sent : List Text} (hclient : s.client = some (msg :: sent)) :
    ({ s with client := some sent } : Instance).Speaks where
  tame := hs.tame.setStreams (by rw [hclient]; rfl) s.clients
  proxying := ⟨hs.proxying.server, hs.proxying.serverImpl, hs.proxying.role, hs.proxying.clients,
    fun hp => absurd (hclient.symm.trans (hs.proxying.unconnected hp)) nofun, nofun⟩
  idle := hs.idle
  modules := hs.modules
  tasks := hs.tasks
  posted := hs.posted
  handled := hs.handled
  client sent' msg' hsent hmsg := by
    cases hsent
    exact hs.client _ msg' hclient (List.mem_cons_of_mem _ hmsg)

end Instance.Speaks

theorem speaks_init : ({} : Instance).Speaks where
  tame := tame_init
  proxying := ⟨rfl, rfl, nofun, fun _ => rfl, fun _ => rfl, fun _ => rfl⟩
  idle _ := rfl
  modules _ _ hm := by simp at hm
  tasks _ ht := absurd ht List.not_mem_nil
  posted _ ht := absurd ht List.not_mem_nil
  handled _ hmsg := absurd hmsg List.not_mem_nil
  client _ _ hsent := by cases hsent

/-! ## Nothing left to do -/

/-- No thread of the instance is left in the middle of something. -/
structure Instance.Rests (s : Instance) : Prop where
  loop : s.loop = .idle
  threadLoop : s.threadLoop = []
  calls : s.calls = []
  handler : ∀ c, s.handler c = .idle
  web : ∀ w, s.web w = .idle

/-- Only someone else can make the instance do something. -/
def Instance.Done (s : Instance) : Prop := ∀ a s', a.isInternal = true → s.step a ≠ .ok s'

theorem Instance.Done.not_exists {s : Instance} (h : s.Done) {a : Action}
    (ha : a.isInternal = true) : ¬∃ s', s.step a = .ok s' :=
  fun ⟨s', hst⟩ => h a s' ha hst

/-- An instance that does nothing more has done everything: nobody waits for nothing. -/
theorem Instance.Tame.rests {s : Instance} (hs : s.Tame) (hdone : s.Done)
    (hserved : s.Served False) (hids : ¬s.Exhausted)
    (hcb : ∀ json, .passPropertyUpdateToModule json ∈ s.threadLoop →
      ∀ id m, s.modules.find? id = some m → m.callback.isSome)
    (hwaits : ∀ {c r}, s.handler c = .registering r → s.threadLoop ≠ []) : s.Rests := by
  have hloop : s.loop = .idle := by
    cases hl : s.loop with
    | idle => rfl
    | flushing => exact absurd (hs.exists_flush hl) (hdone.not_exists rfl)
    | callback request =>
      refine absurd ?_ (hdone.not_exists (a := .callbackReturn) rfl)
      simp only [Instance.step, returnCallback, hl]
      split
      · exact ⟨_, rfl⟩
      · exact ⟨_, rfl⟩
      · rename_i h₁ h₂
        cases request with
        | none => exact absurd rfl h₁
        | some request => exact absurd rfl (h₂ request.1 request.2)
    | waiting request => exact absurd hl (hs.waiting request)
  have hqueue : s.threadLoop = [] := by
    cases hq : s.threadLoop with
    | nil => rfl
    | cons t q =>
      have ht : Takes s t q := ⟨hloop, hq⟩
      refine absurd (hs.exists_task ht (fun json hjson => ?_) hids) (hdone.not_exists rfl)
      exact hcb json (hq ▸ hjson ▸ List.mem_cons_self)
  refine ⟨hloop, hqueue, ?_, fun c => ?_, fun w => ?_⟩
  · cases hcalls : s.calls with
    | nil => rfl
    | cons call calls =>
      refine absurd ?_ (hdone.not_exists (a := .announce 0) rfl)
      simp only [Instance.step, announceCall, hcalls, List.getElem?_cons_zero]
      split <;> exact ⟨_, rfl⟩
  · by_contra hidle
    exact hdone.not_exists rfl
      (hs.exists_resume hidle fun r hpc => hwaits hpc hqueue)
  · cases hw : s.web w with
    | idle => rfl
    | waiting =>
      -- Its request would be in the queue, or the callback of it running.
      have := hserved.waiting hw
      simp [Instance.requests, hqueue, hloop, LoopPc.client?] at this
    | ready response =>
      refine absurd ?_ (hdone.not_exists (a := .wsReply w) rfl)
      exact ⟨_, by simp only [Instance.step, hw]; rfl⟩

/-- The role, once decided, is told to the module manager by a task. -/
theorem Instance.Role.initialized_of_rests {s : Instance} (hs : s.Role) (hr : s.Rests)
    (hp : s.proxyInitialized = true) : s.initialized = true := by
  cases hs with
  | undecided hp' => exact absurd (hp'.symm.trans hp) Bool.false_ne_true
  | told _ hroles => simp [Instance.roles, hr.threadLoop] at hroles
  | initialized _ _ hi => exact hi

theorem Transition.proxyInitialized {s s' : Instance} {a : Action} (h : Transition s a s')
    (hp : s.proxyInitialized = true) : s'.proxyInitialized = true := by
  cases h.role with
  | keep h => exact h.proxyInitialized.trans hp
  | tell _ _ hs' => rw [hs']; exact hp
  | connect _ _ hs' => rw [hs']; rfl
  | serve _ _ hs' => rw [hs']; rfl

/-! ## The network -/

namespace Network

variable {ι : Type} {n n' : Network ι}

/-- What the applications and the web clients give the instances is fit for them. -/
def Careful (_ : Network ι) : Action ι → Prop
  | .host a => a.Tame
  | .inst _ a => a.Tame ∧ a.Calls
  | _ => True

structure Tame (n : Network ι) : Prop where
  host : n.host.Tame
  passed : ∀ t ∈ n.host.threadLoop, ∀ json, t ≠ .passPropertyUpdateToModule json
  inst : ∀ p, (n.inst p).Speaks
  down : ∀ {c sent msg}, n.host.clients c = some sent → msg ∈ sent → msg.IsOrder

variable [DecidableEq ι]

theorem speaks_setInst (hn : n.Tame) {p : ι} {s : Instance} (hs : s.Speaks) (q : ι) :
    (Function.update n.inst p s q).Speaks := by
  rw [Function.update_apply]
  split_ifs
  · exact hs
  · exact hn.inst q

omit [DecidableEq ι] in
/-- The host makes a step, and is given nothing that it does not take. -/
theorem Tame.host_step (hn : n.Tame) {a : Sacs.Action} {host : Instance} (ha : a.Tame)
    (hread : ∀ msg, a ≠ .proxyRead msg) (h : Transition n.host a host) : host.Tame ∧
      (∀ t ∈ host.threadLoop, ∀ json, t ≠ .passPropertyUpdateToModule json) ∧
      ∀ {c sent msg}, host.clients c = some sent → msg ∈ sent → msg.IsOrder := by
  refine ⟨hn.host.step ha h, h.forall_tasks hn.passed (fun _ ht => ht) fun ts hts => ?_,
    fun hc hmsg => ?_⟩
  · cases hts with
    | proxyRead => exact absurd rfl (hread _)
    | _ => simp
  · rcases hn.host.mem_clients h hc hmsg with ⟨sent₀, hsent₀, hmsg⟩ | hmsg
    · exact hn.down hsent₀ hmsg
    · exact hmsg

theorem Tame.step {a : Action ι} (hn : n.Tame) (ha : n.Careful a) (h : n.Moves a n') :
    n'.Tame := by
  cases h with
  | @host a host hof h =>
    obtain ⟨hhost, hpassed, hdown⟩ := hn.host_step ha (by rintro msg rfl; cases hof) h
    exact ⟨hhost, hpassed, hn.inst, hdown⟩
  | inst hlocal h =>
    exact ⟨hn.host, hn.passed, speaks_setInst hn ((hn.inst _).step ha.1 ha.2 (.inl hlocal) h),
      hn.down⟩
  | connect hp hhost h =>
    obtain ⟨hhost, hpassed, hdown⟩ := hn.host_step (a := .accept _) trivial nofun hhost
    exact ⟨hhost, hpassed, speaks_setInst hn ((hn.inst _).connect h hp), hdown⟩
  | deliverUp _ hclient h =>
    have hnews := (hn.inst _).client _ _ hclient List.mem_cons_self
    obtain ⟨hhost, hpassed, hdown⟩ := hn.host_step (a := .read _ _) hnews nofun h
    exact ⟨hhost, hpassed, speaks_setInst hn ((hn.inst _).deliver hclient), hdown⟩
  | @deliverDown p c msg sent s _ hclients h =>
    have horder := hn.down hclients List.mem_cons_self
    refine ⟨hn.host.setStreams rfl _, hn.passed, speaks_setInst hn
      ((hn.inst _).step (a := .proxyRead _) horder nofun (.inr ⟨_, rfl⟩) h),
      fun {c' sent' msg'} hc hmsg => ?_⟩
    change Function.update n.host.clients c (some sent) c' = _ at hc
    rw [Function.update_apply] at hc
    split_ifs at hc
    · cases hc
      exact hn.down hclients (List.mem_cons_of_mem _ hmsg)
    · exact hn.down hc hmsg
  | disconnect _ h =>
    obtain ⟨hhost, hpassed, hdown⟩ := hn.host_step (a := .closed _) trivial nofun h
    exact ⟨hhost, hpassed, hn.inst, hdown⟩

theorem tame_of_runs {as : List (Action ι)} (h : Lts.Run (Lts.Under Careful Steps) {} as n) :
    n.Tame :=
  h.invariant ⟨tame_init, fun _ ht => absurd ht List.not_mem_nil, fun _ => speaks_init,
    fun hc => by cases hc⟩ fun _ _ _ hn hst => hn.step hst.1 (moves_of_step hst.2)

/-! ### Nothing fails -/

/-- The loop thread that takes the step has a module to register, and no id left. -/
def Exhausted (n : Network ι) : Action ι → Prop
  | .host a => a = .task ∧ n.host.Exhausted
  | .inst p a => a = .task ∧ (n.inst p).Exhausted
  | _ => False

omit [DecidableEq ι] in
theorem Tame.host_error (hn : n.Tame) {a : Sacs.Action} (ha : a.Tame) {e : Fault}
    (he : n.host.step a = .error e) : e = .disabled ∨ a = .task ∧ n.host.Exhausted :=
  hn.host.eq_disabled ha (fun json _ ht =>
    absurd rfl (hn.passed _ (ht.threadLoop ▸ List.mem_cons_self) json)) he

omit [DecidableEq ι] in
theorem Tame.inst_error (hn : n.Tame) {p : ι} {a : Sacs.Action} (ha : a.Tame) {e : Fault}
    (he : (n.inst p).step a = .error e) : e = .disabled ∨ a = .task ∧ (n.inst p).Exhausted :=
  (hn.inst p).tame.eq_disabled ha (fun _ _ _ => (hn.inst p).modules) he

theorem Tame.eq_disabled (hn : n.Tame) {a : Action ι} (ha : n.Careful a) {e : Fault}
    (he : n.step a = .error e) : e = .disabled ∨ n.Exhausted a := by
  have hdisabled : ∀ {β : Type} {x : Except Fault β}, x = .error .disabled → x = .error e →
      e = .disabled := fun h he => Except.error.inj (he.symm.trans h)
  cases a with
  | host a =>
    rw [Network.step] at he
    split_ifs at he
    · rcases bind_eq_error.1 he with he | ⟨_, _, he⟩
      · exact hn.host_error ha he
      · cases he
    · exact .inl (hdisabled rfl he)
  | inst p a =>
    rw [Network.step] at he
    split_ifs at he
    · rcases bind_eq_error.1 he with he | ⟨_, _, he⟩
      · exact hn.inst_error ha.1 he
      · cases he
    · exact .inl (hdisabled rfl he)
  | connect p c =>
    rw [Network.step] at he
    split_ifs at he
    · exact .inl (hdisabled rfl he)
    · rcases bind_eq_error.1 he with he | ⟨_, _, he⟩
      · exact (hn.host_error (a := .accept c) trivial he).imp_right fun h => by cases h.1
      · rcases bind_eq_error.1 he with he | ⟨_, _, he⟩ <;> cases he
  | deliverUp p =>
    rw [Network.step] at he
    split at he
    · rename_i c msg sent _ hclient
      have hnews := (hn.inst p).client _ _ hclient List.mem_cons_self
      rcases bind_eq_error.1 he with he | ⟨_, _, he⟩
      · exact (hn.host_error (a := .read c msg) hnews he).imp_right fun h => by cases h.1
      · cases he
    · exact .inl (hdisabled rfl he)
  | deliverDown p =>
    rw [Network.step] at he
    split at he
    · exact .inl (hdisabled rfl he)
    · split at he
      · rename_i msg sent hsent
        have horder := hn.down hsent List.mem_cons_self
        rcases bind_eq_error.1 he with he | ⟨_, _, he⟩
        · exact (hn.inst_error (a := .proxyRead msg) horder he).imp_right fun h => by cases h.1
        · cases he
      · exact .inl (hdisabled rfl he)
  | disconnect p =>
    rw [Network.step] at he
    split at he
    · rename_i c _
      rcases bind_eq_error.1 he with he | ⟨_, _, he⟩
      · exact (hn.host_error (a := .closed c) trivial he).imp_right fun h => by cases h.1
      · cases he
    · exact .inl (hdisabled rfl he)

/-- Nothing that an instance or the host sends makes the other fail, nor do careful
    applications: a step that is possible throws nothing and goes through no null pointer, as
    long as ids are left. -/
theorem faultless_of_runs {as : List (Action ι)} (h : Lts.Run (Lts.Under Careful Steps) {} as n)
    {a : Action ι} (ha : n.Careful a) {e : Fault} (he : n.step a = .error e) :
    e = .disabled ∨ n.Exhausted a :=
  (tame_of_runs h).eq_disabled ha he

/-- The applications of `imaging` are careful. -/
theorem careful_of_mem_imaging {a : Action Unit} (ha : a ∈ imaging) (n : Network Unit) :
    n.OwnOnly a ∧ n.Careful a := by
  have hlamp : Module.IsUtf8 ⟨-1, Str.lit "Lamp",
      [⟨1, Str.lit "On", Str.lit "0", false⟩], some 5⟩ := ⟨rfl, by simpa using ⟨rfl, rfl⟩⟩
  revert a
  simp only [imaging, List.forall_mem_cons]
  exact ⟨⟨trivial, trivial⟩, ⟨trivial, trivial⟩, ⟨trivial, trivial⟩, ⟨trivial, hlamp, nofun⟩,
    ⟨trivial, trivial, nofun⟩, ⟨trivial, trivial⟩, ⟨trivial, trivial, nofun⟩,
    ⟨trivial, trivial, nofun⟩, ⟨trivial, trivial, nofun⟩, ⟨trivial, trivial⟩, ⟨trivial, trivial⟩,
    ⟨trivial, trivial⟩, ⟨trivial, trivial⟩, List.forall_mem_nil _⟩

/-- The loop thread can register a module. -/
def registers (s : Instance) : Bool :=
  match s.loop, s.threadLoop with
  | .idle, .doRegisterModule .. :: _ => true
  | _, _ => false

def isDisabled {α : Type} : Except Fault α → Bool
  | .error .disabled => true
  | _ => false

/-- The host registers an image, which would fail for strings that cannot be encoded. -/
theorem faultless_of_imaging : ∃ n : Network Unit,
    Lts.Run (Lts.Under Careful Steps) {} (imaging.take 10) n ∧
    (∃ m promise q, Takes n.host (.doRegisterModule m promise) q) ∧
    ∃ n', n.step (.host .task) = .ok n' := by
  obtain ⟨n, hrun, hobs⟩ := Lts.exists_run_of_foldlM step {} (imaging.take 10)
    (fun n : Network Unit => decide (registers n.host ∧ n.host.idCounter = 0 ∧
      isDisabled (n.step (.host .task)) = false)) true (by decide +kernel)
  simp only [decide_eq_true_eq] at hobs
  obtain ⟨htakes, hcounter, henabled⟩ := hobs
  have hcareful := hrun.under_of_forall (C := Careful) fun a ha n =>
    (careful_of_mem_imaging (List.mem_of_mem_take ha) n).2
  refine ⟨n, hcareful, ?_, ?_⟩
  · rw [registers] at htakes
    split at htakes
    · rename_i m promise q hl hq
      exact ⟨m, promise, q, hl, hq⟩
    · cases htakes
  · cases he : n.step (.host .task) with
    | ok n' => exact ⟨n', rfl⟩
    | error e =>
      rcases faultless_of_runs hcareful (a := .host .task) trivial he with rfl | ⟨-, hmax, -⟩
      · rw [he] at henabled
        cases henabled
      · exact absurd (hcounter.symm.trans hmax) (by decide)

/-! ### Everything is done in the end -/

omit [DecidableEq ι] in
/-- What an instance is from its creation on, whatever its streams are given, every instance
    of the network is. -/
theorem forall_of_runs [DecidableEq ι] {P : Instance → Prop} (h₀ : P {})
    (hstep : ∀ {s a s'}, P s → Transition s a s' → P s')
    (hstreams : ∀ {s : Instance} client clients, P s → P { s with client, clients })
    {as : List (Action ι)} (h : Lts.Run Steps {} as n) : P n.host ∧ ∀ p, P (n.inst p) := by
  refine h.invariant (P := fun n => P n.host ∧ ∀ p, P (n.inst p)) ⟨h₀, fun _ => h₀⟩ ?_
  rintro n a n' ⟨hhost, hinst⟩ hst
  have hset : ∀ {p s}, P s → ∀ q, P (Function.update n.inst p s q) := by
    intro p s hs q
    rw [Function.update_apply]
    split_ifs
    · exact hs
    · exact hinst q
  cases moves_of_step hst with
  | host _ h => exact ⟨hstep hhost h, hinst⟩
  | inst _ h => exact ⟨hhost, hset (hstep (hinst _) h)⟩
  | connect _ hhost' h => exact ⟨hstep hhost hhost', hset (hstep (hinst _) h)⟩
  | @deliverUp p _ _ sent _ _ _ h =>
    exact ⟨hstep hhost h, hset (hstreams (some sent) (n.inst p).clients (hinst p))⟩
  | deliverDown _ _ h =>
    exact ⟨hstreams n.host.client _ hhost, hset (hstep (hinst _) h)⟩
  | disconnect _ h => exact ⟨hstep hhost h, hinst⟩

theorem served_of_network {as : List (Action ι)} (h : Lts.Run Steps {} as n) :
    n.host.Served False ∧ ∀ p, (n.inst p).Served False := by
  refine forall_of_runs (served_of_runs .nil) (fun {s a s'} hs h => ?_) (fun _ _ hs => ?_) h
  · cases ha : a.onLoop with
    | false => exact hs.offLoop h ha
    | true => exact hs.onLoop h ha False.elim
  · exact hs.keep rfl rfl rfl rfl

/-- The steps that no one asks for. -/
abbrev Inner : Network ι → Action ι → Network ι → Prop :=
  Lts.Under (fun _ a => a.isInternal = true) Steps

omit [DecidableEq ι] in
theorem careful_of_isInternal {a : Action ι} (ha : a.isInternal = true) :
    n.OwnOnly a ∧ n.Careful a := by
  cases a with
  | host a => cases a <;> first | exact ⟨trivial, trivial⟩ | cases ha
  | inst p a => cases a <;> first | exact ⟨trivial, trivial, nofun⟩ | cases ha
  | _ => exact ⟨trivial, trivial⟩

/-- A loop thread has used up the ids. -/
def Spent (n : Network ι) : Prop := n.host.Exhausted ∨ ∃ p, (n.inst p).Exhausted

/-- Nobody has anything left to do, nothing is on its way between the host and the instances
    connected, and the host has its own modules, and one image of each of theirs. -/
structure Settled (n : Network ι) : Prop where
  host : n.host.Rests
  inst : ∀ p, (n.inst p).Rests
  quiet : n.Quiet
  down : ∀ {p c}, n.conn p = some c → n.host.clients c = some []
  mirrored : n.Mirrored

/-- Of the final states of the network. -/
theorem done_of_final (hf : Lts.Final Inner n) : n.host.Done ∧ ∀ p, (n.inst p).Done := by
  have hlocal : ∀ {a : Sacs.Action}, a.isInternal = true → a.isLocal = true ∧ a.ofHost = true := by
    intro a ha
    cases a <;> first | exact ⟨rfl, rfl⟩ | cases ha
  refine ⟨fun a s ha hst => hf (.host a) { n with host := s } ⟨ha, ?_⟩, fun p a s ha hst =>
    hf (.inst p a) (n.setInst p s) ⟨ha, ?_⟩⟩
  · simp only [Lts.Exec, step, if_pos (hlocal ha).2, hst, bind_ok]
    rfl
  · simp only [Lts.Exec, step, if_pos (hlocal ha).1, hst, bind_ok]
    rfl

/-- Nothing is left in the streams. -/
theorem Tame.streams (hn : n.Tame) (hj : n.Joined) (hf : Lts.Final Inner n)
    (hidle : ∀ c, n.host.handler c = .idle) {p : ι} {c : ClientId} (hp : n.conn p = some c) :
    (n.inst p).client = some [] ∧ n.host.clients c = some [] := by
  constructor
  · obtain ⟨sent, hsent⟩ := Option.isSome_iff_exists.1 (hj.client hp).1
    cases sent with
    | nil => exact hsent
    | cons msg sent =>
      -- The host can read the message.
      obtain ⟨out, hout⟩ := Option.isSome_iff_exists.1 (hj.opened hp).2.1
      obtain ⟨host, hread⟩ := Text.IsNews.exists_read
        ((hn.inst p).client _ msg hsent List.mem_cons_self) n.host c
      have hstep : n.host.step (.read c msg) = .ok host := by
        simp only [Instance.step, hout, hidle c]
        exact hread
      refine absurd ⟨rfl, ?_⟩ (hf (.deliverUp p) { n.setInst p { n.inst p with
        client := some sent } with host })
      change n.step (.deliverUp p) = _
      rw [Network.step, hp, hsent]
      simp only [hstep, bind_ok]
      rfl
  · obtain ⟨sent, hsent⟩ := Option.isSome_iff_exists.1 (hj.opened hp).2.1
    cases sent with
    | nil => exact hsent
    | cons msg sent =>
      obtain ⟨s, hs⟩ | hs := (hn.inst p).tame.exists_step (a := .proxyRead msg)
        (hn.down hsent List.mem_cons_self) (fun _ _ _ => (hn.inst p).modules) (by simp)
      · refine absurd ⟨rfl, ?_⟩ (hf (.deliverDown p) { n.setInst p s with
          host := { n.host with clients := Function.update n.host.clients c (some sent) } })
        change n.step (.deliverDown p) = _
        rw [Network.step, hp]
        simp only [hsent, hs, bind_ok]
        rfl
      · -- The message is a request, and the instance is connected.
        obtain ⟨json, hjson, -⟩ := hn.down hsent List.mem_cons_self
        simp [Instance.step, (hj.client hp).1, Proxy.onClientRead, hjson,
          passPropertyUpdateToModule] at hs

/-- What is left once nothing happens any more, if no ids are used up. -/
theorem Tame.settled (hn : n.Tame) (hl : n.Linked) (hj : n.Joined)
    (hserved : n.host.Served False ∧ ∀ p, (n.inst p).Served False)
    (hhost : n.host.proxyInitialized = true) (hf : Lts.Final Inner n) (hids : ¬n.Spent) :
    n.Settled := by
  obtain ⟨hdone, hdones⟩ := done_of_final hf
  have hrest : n.host.Rests := by
    refine hn.host.rests hdone hserved.1 (fun h => hids (.inl h))
      (fun json hjson => absurd rfl (hn.passed _ hjson json)) fun {c r} hc hq => ?_
    -- The registration that the handler waits for would be in the queue.
    obtain ⟨v, hv⟩ := hj.served.waits (c := c) (r := r) (by simp [Instance.hub, hc, HandlerPc.toPc])
    simp [Hub.awaited, Instance.hub, hq] at hv
  have hrests : ∀ p, (n.inst p).Rests := fun p =>
    (hn.inst p).tame.rests (hdones p) (hserved.2 p) (fun h => hids (.inr ⟨p, h⟩))
      (fun _ _ => (hn.inst p).modules) fun {c r} hc =>
        absurd (((hn.inst p).idle c).symm.trans hc) (by simp)
  have hempty : ∀ {s : Instance}, s.Tame → s.Rests → s.proxyInitialized = true → s.Quiet :=
    fun hs hr hp => ⟨hs.queues.flushed (hs.hosting.role.initialized_of_rests hr hp)
      (by simp [hr.loop]), hr.threadLoop⟩
  have hstreams := fun {p c} (hp : n.conn p = some c) => hn.streams hj hf hrest.handler hp
  have hq : n.Quiet := ⟨hempty hn.host hrest hhost, hrest.handler, fun {p c} hp =>
    ⟨hempty (hn.inst p).tame (hrests p) (hj.client hp).2, (hstreams hp).1⟩⟩
  exact ⟨hrest, hrests, hq, fun hp => (hstreams hp).2, hl.mirrored hq⟩

theorem proxyInitialized_of_inner {bs : List (Action ι)} (h : Lts.Run Inner n bs n')
    (hhost : n.host.proxyInitialized = true) : n'.host.proxyInitialized = true := by
  refine h.invariant (P := fun n => n.host.proxyInitialized = true) hhost ?_
  rintro n a n' hp ⟨-, hst⟩
  cases moves_of_step hst with
  | host _ h => exact h.proxyInitialized hp
  | inst => exact hp
  | connect _ h _ => exact h.proxyInitialized hp
  | deliverUp _ _ h => exact h.proxyInitialized hp
  | deliverDown => exact hp
  | disconnect _ h => exact h.proxyInitialized hp

/-- Where nothing happens any more, everything is settled, unless ids are used up. -/
theorem settled_of_final {as : List (Action ι)}
    (h : Lts.Run (Lts.Under (fun n a => n.OwnOnly a ∧ n.Careful a) Steps) {} as n)
    (hhost : n.host.proxyInitialized = true) (hf : Lts.Final Inner n) : n.Spent ∨ n.Settled :=
  or_iff_not_imp_left.2 fun hids => Tame.settled
    (tame_of_runs (h.mono fun _ _ _ hst => ⟨hst.1.2, hst.2⟩))
    (linked_of_runs (h.mono fun _ _ _ hst => ⟨hst.1.1, hst.2⟩))
    (joined_of_runs h.of_under) (served_of_network h.of_under) hhost hf hids

/-- When no one asks for anything any more, everything is done in the end. Of the steps that
    are left there are no more than the work there is, some of them lead to where none is, and
    there everything is settled, unless ids are used up. It is decided already who the host
    is. -/
theorem settles_of_runs [Fintype ι] {as : List (Action ι)}
    (h : Lts.Run (Lts.Under (fun n a => n.OwnOnly a ∧ n.Careful a) Steps) {} as n)
    (hhost : n.host.proxyInitialized = true) :
    (∀ {bs n'}, Lts.Run Inner n bs n' → bs.length ≤ n.work) ∧
    (∃ bs n', Lts.Run Inner n bs n' ∧ Lts.Final Inner n') ∧
    ∀ {bs n'}, Lts.Run Inner n bs n' → Lts.Final Inner n' → n'.Spent ∨ n'.Settled := by
  have hlower : ∀ (n : Network ι) a n', Inner n a n' → n'.work < n.work :=
    fun n a n' hst => work_of_internal (moves_of_step hst.2) hst.1
  refine ⟨fun hbs => (Nat.le_add_right _ _).trans (hbs.length_add_le hlower),
    Lts.exists_final (measure work).wf hlower n, fun {bs n'} hbs hf => ?_⟩
  -- The run goes on as one of careful applications.
  have hrun := h.append (hbs.mono fun n a n' hst => ⟨careful_of_isInternal hst.1, hst.2⟩)
  exact settled_of_final hrun (proxyInitialized_of_inner hbs hhost) hf

/-- A module that was registered, connected and announced, with a web client watching. -/
theorem settles_of_imaging : ∃ n : Network Unit,
    Lts.Run (Lts.Under (fun n a => n.OwnOnly a ∧ n.Careful a) Steps) {} imaging n ∧
    n.conn () = some 7 ∧ ∃ bs n', Lts.Run Inner n bs n' ∧ bs.length ≤ n.work ∧
      (n'.Spent ∨ n'.Settled) := by
  obtain ⟨n, hrun, hobs⟩ := Lts.exists_run_of_foldlM step {} imaging
    (fun n : Network Unit => decide (n.host.proxyInitialized = true ∧ n.conn () = some 7)) true
    (by decide +kernel)
  simp only [decide_eq_true_eq] at hobs
  have hcareful := hrun.under_of_forall (C := fun n a => n.OwnOnly a ∧ n.Careful a) fun a ha n =>
    careful_of_mem_imaging ha n
  obtain ⟨hlength, ⟨bs, n', hbs, hf⟩, hsettled⟩ := settles_of_runs hcareful hobs.1
  exact ⟨n, hcareful, hobs.2, bs, n', hbs, hlength hbs, hsettled hbs hf⟩

end Network

end Sacs
