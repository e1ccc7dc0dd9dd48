import Sacs.Changes

/-!
# The role of an instance

An instance is the host, with a `ProxyServer`, or it is connected to the host:
the outcome of its connection attempt decides, once. The module manager is told
by a task, and keeps the messages it has to send out until then.

* A step decides the role, tells the module manager, or does not concern it
  (`Transition.role`).
* The invariant `Instance.Role` says which of the three phases an instance is
  in: the role is not decided, the module manager is still to be told, or it is
  initialized, with the role that was decided.
* The module manager is initialized once, in a role that never changes, and no
  message is lost on the way (`initialized_once`).
-/

namespace Sacs

open JsonMsg ModuleManager

/-- The role a task tells the module manager. -/
def Task.role? : Task → Option Bool
  | .onProxyInitialized hostMode => some hostMode
  | _ => none

/-- The roles the module manager is still to be told. -/
def Instance.roles (s : Instance) : List Bool := s.threadLoop.filterMap Task.role?

/-- The role of the instance is decided, as far as its module manager has been
    told. -/
def Instance.Ready (s : Instance) : Prop :=
  s.initialized = true ∨ ∃ hostMode, Task.onProxyInitialized hostMode ∈ s.threadLoop

/-- A step that does not concern the role. -/
structure SameRole (s s' : Instance) : Prop where
  server : s'.server = s.server
  client : s'.client.isSome = s.client.isSome
  proxyInitialized : s'.proxyInitialized = s.proxyInitialized
  initialized : s'.initialized = s.initialized
  serverImpl : s'.serverImpl = s.serverImpl
  roles : s'.roles = s.roles

theorem mem_roles {s : Instance} {hostMode : Bool} :
    hostMode ∈ s.roles ↔ Task.onProxyInitialized hostMode ∈ s.threadLoop := by
  rw [Instance.roles, List.mem_filterMap]
  constructor
  · rintro ⟨t, ht, hrole⟩
    cases t with
    | onProxyInitialized b => rwa [← Option.some.inj hrole]
    | _ => cases hrole
  · exact fun h => ⟨_, h, rfl⟩

namespace SameRole

variable {s s' s'' : Instance}

theorem refl (s : Instance) : SameRole s s := ⟨rfl, rfl, rfl, rfl, rfl, rfl⟩

theorem trans (h : SameRole s s') (h' : SameRole s' s'') : SameRole s s'' :=
  ⟨h'.server.trans h.server, h'.client.trans h.client,
    h'.proxyInitialized.trans h.proxyInitialized, h'.initialized.trans h.initialized,
    h'.serverImpl.trans h.serverImpl, h'.roles.trans h.roles⟩

/-- The loop thread takes a task. -/
theorem take {t : Task} {q : List Task} (ht : Takes s t q) (hrole : t.role? = none) :
    SameRole s { s with threadLoop := q } := by
  refine ⟨rfl, rfl, rfl, rfl, rfl, ?_⟩
  rw [Instance.roles, Instance.roles, ht.threadLoop, List.filterMap_cons_none hrole]

theorem post (s : Instance) {t : Task} (hrole : t.role? = none) : SameRole s (s.post t) := by
  refine ⟨rfl, rfl, rfl, rfl, rfl, ?_⟩
  rw [Instance.roles, Instance.post, List.filterMap_append, List.filterMap_cons_none hrole,
    List.filterMap_nil, List.append_nil]
  rfl

end SameRole

theorem client_of_pushMsg {s s' : Instance} {msg : Text} (h : pushMsg s msg = .ok s') :
    s'.client.isSome = s.client.isSome := by
  obtain ⟨-, rfl⟩ | ⟨-, sent, hsent, rfl⟩ := pushMsg_cases h
  · obtain ⟨ls, h, -⟩ := ServerImpl.pushMsgForJS_eq (s := s) msg
    rw [h]
  · rw [hsent]
    rfl

theorem sameRole_of_pushMsg {s s' : Instance} {msg : Text} (h : pushMsg s msg = .ok s') :
    SameRole s s' := by
  have he := pushMsg_emits h
  exact ⟨he.server, client_of_pushMsg h, he.proxyInitialized, he.initialized, he.serverImpl,
    congrArg (List.filterMap Task.role?) he.threadLoop⟩

theorem sameRole_of_handleMessage {s s' : Instance} {msg : Text}
    (h : handleMessage s false msg = .ok s') : SameRole s s' := by
  obtain ⟨-, rfl⟩ | ⟨-, h⟩ := handleMessage_cases h
  · exact ⟨rfl, rfl, rfl, rfl, rfl, rfl⟩
  · have hlog : SameRole s (s.log (.handled msg)) := ⟨rfl, rfl, rfl, rfl, rfl, rfl⟩
    exact hlog.trans (sameRole_of_pushMsg h)

theorem sameRole_of_savePropertiesList {s s' : Instance} {id : Int32} {ps : Updates}
    (h : savePropertiesList s false id ps = .ok s') : SameRole s s' := by
  obtain ⟨-, rfl⟩ | ⟨m, m', -, -, rfl⟩ := savePropertiesList_cases h <;>
    exact ⟨rfl, rfl, rfl, rfl, rfl, rfl⟩

theorem Passes.sameRole {s s' : Instance} {json : JsonMsg} (h : Passes s json s') :
    SameRole s s' := by
  obtain ⟨_, _, _, _, rfl⟩ := h.frame
  exact ⟨rfl, rfl, rfl, rfl, rfl, rfl⟩

theorem sameRole_answer (s : Instance) (w : ClientId) (response : Text) :
    SameRole s (answer s w response) := by
  rw [answer]
  split <;> exact ⟨rfl, rfl, rfl, rfl, rfl, rfl⟩

theorem sameRole_fulfil (s : Instance) (promise : Promise) (id : Int32) :
    SameRole s (fulfil s promise id) := by
  obtain ⟨_, _, hf⟩ := fulfil_frame s promise id
  rw [hf]
  exact ⟨rfl, rfl, rfl, rfl, rfl, rfl⟩

/-- What a step does to the role. -/
inductive RoleStep (s s' : Instance) (a : Action) : Prop
  | keep : SameRole s s' → RoleStep s s' a
  /-- The module manager is told. -/
  | tell {hostMode : Bool} {q : List Task} :
      a = .task → Takes s (.onProxyInitialized hostMode) q →
      s' = { s with
        threadLoop := q, serverImpl := s.serverImpl || hostMode, initialized := true
        loop := .flushing } → RoleStep s s' a
  /-- The connection attempt has succeeded. -/
  | connect :
      s.proxyInitialized = false → a = .connecting true →
      s' = ({ s with proxyInitialized := true, client := some [] } : Instance).post
        (.onProxyInitialized s.server) → RoleStep s s' a
  /-- The connection attempt has failed. -/
  | serve :
      s.proxyInitialized = false → a = .connecting false →
      s' = ({ s with proxyInitialized := true, server := true } : Instance).post
        (.onProxyInitialized true) → RoleStep s s' a

theorem Transition.role {s s' : Instance} {a : Action} (h : Transition s a s') :
    RoleStep s s' a := by
  cases h with
  | taskRole ht => exact .tell rfl ht rfl
  | connectingProxy hp => exact .connect hp rfl rfl
  | connectingHost hp => exact .serve hp rfl rfl
  | taskHandle ht h => exact .keep ((SameRole.take ht rfl).trans (sameRole_of_handleMessage h))
  | @taskRegister m promise q msg s₁ ht _ _ h =>
    have hadd : SameRole { s with threadLoop := q }
        (({ s with threadLoop := q } : Instance).added promise m) := ⟨rfl, rfl, rfl, rfl, rfl, rfl⟩
    exact .keep ((((SameRole.take ht rfl).trans hadd).trans (sameRole_of_handleMessage h)).trans
      (sameRole_fulfil ..))
  | @taskUnregister id q msg _ ht _ h =>
    have hremove : SameRole { s with threadLoop := q }
        (({ s with threadLoop := q } : Instance).removed id) := ⟨rfl, rfl, rfl, rfl, rfl, rfl⟩
    exact .keep (((SameRole.take ht rfl).trans hremove).trans (sameRole_of_handleMessage h))
  | taskSaveNone ht => exact .keep (.take ht rfl)
  | taskSave ht => exact .keep ((SameRole.take ht rfl).trans ⟨rfl, rfl, rfl, rfl, rfl, rfl⟩)
  | taskOther ht => exact .keep ((SameRole.take ht rfl).trans ⟨rfl, rfl, rfl, rfl, rfl, rfl⟩)
  | taskLoad ht _ _ h =>
    exact .keep (((SameRole.take ht rfl).trans h.sameRole).trans (sameRole_answer ..))
  | taskApply ht _ h =>
    exact .keep (((SameRole.take ht rfl).trans h.sameRole).trans (sameRole_answer ..))
  | taskPass ht h => exact .keep ((SameRole.take ht rfl).trans h.sameRole)
  | @flush msg q _ _ _ h =>
    have hq : SameRole s { s with msgQueue := q } := ⟨rfl, rfl, rfl, rfl, rfl, rfl⟩
    exact .keep (hq.trans (sameRole_of_pushMsg h))
  | @callbackUnregister id _ _ _ _ _ h =>
    have hremove : SameRole s ((s.log (.unregister id)).removed id) :=
      ⟨rfl, rfl, rfl, rfl, rfl, rfl⟩
    exact .keep (hremove.trans (sameRole_of_handleMessage h))
  | callbackUpdate _ hs _ h =>
    exact .keep ((sameRole_of_savePropertiesList hs).trans (sameRole_of_handleMessage h))
  | callbackUpdateThrows _ hs _ => exact .keep (sameRole_of_savePropertiesList hs)
  | callbackRegister _ =>
    exact .keep ((SameRole.post s rfl).trans ⟨rfl, rfl, rfl, rfl, rfl, rfl⟩)
  | _ =>
    -- Nothing is posted, or a task that does not tell a role.
    first
    | exact .keep ⟨rfl, rfl, rfl, rfl, rfl, rfl⟩
    | exact .keep ((SameRole.post _ rfl).trans ⟨rfl, rfl, rfl, rfl, rfl, rfl⟩)

/-- A step that does not decide the role of the instance. -/
structure KeepsRole (s s' : Instance) : Prop where
  server : s'.server = s.server
  client : s'.client.isSome = s.client.isSome
  proxyInitialized : s'.proxyInitialized = s.proxyInitialized
  ready : s'.Ready → s.Ready

theorem Transition.keepsRole {s s' : Instance} {a : Action} (h : Transition s a s')
    (ha : ∀ ok, a ≠ .connecting ok) : KeepsRole s s' := by
  cases h.role with
  | keep h =>
    exact ⟨h.server, h.client, h.proxyInitialized, fun hr => by
      simp only [Instance.Ready, ← mem_roles, h.initialized, h.roles] at hr ⊢
      exact hr⟩
  | tell _ ht hs' =>
    subst hs'
    exact ⟨rfl, rfl, rfl, fun _ => .inr ⟨_, ht.threadLoop ▸ List.mem_cons_self⟩⟩
  | connect _ hok _ => exact absurd hok (ha _)
  | serve _ hok _ => exact absurd hok (ha _)

/-- The instance remains the host. -/
theorem Transition.server {s s' : Instance} {a : Action} (h : Transition s a s')
    (hs : s.server = true) : s'.server = true := by
  cases h.role with
  | keep h => rw [h.server, hs]
  | tell _ _ h => rw [h, hs]
  | connect _ _ h =>
    rw [h]
    exact hs
  | serve _ _ h => rw [h]; rfl

/-! ## The phases -/

/-- Exactly one of `_client` and `_server` is not null: `_server` if the instance is
    the host. -/
def Instance.Decided (s : Instance) : Prop :=
  s.proxyInitialized = true ∧ s.client.isSome = !s.server

/-- How far the instance is in learning its role. -/
inductive Instance.Role (s : Instance) : Prop
  | undecided :
      s.proxyInitialized = false → s.client = none → s.server = false → s.roles = [] →
      s.initialized = false → s.serverImpl = false → Role s
  | told :
      s.Decided → s.roles = [s.server] → s.initialized = false → s.serverImpl = false → Role s
  | initialized :
      s.Decided → s.roles = [] → s.initialized = true → s.serverImpl = s.server → Role s

namespace Instance.Role

variable {s s' : Instance} (hs : s.Role)

include hs

theorem step {a : Action} (h : Transition s a s') : s'.Role := by
  cases h.role with
  | keep h =>
    have hclient : s.client = none → s'.client = none := fun hc => by
      have := h.client
      rwa [hc, Option.isSome_none, Option.isSome_eq_false_iff, Option.isNone_iff_eq_none] at this
    have hdecided : s.Decided → s'.Decided := fun hd =>
      ⟨h.proxyInitialized.trans hd.1, by rw [h.client, h.server, hd.2]⟩
    cases hs with
    | undecided hp hc hserver hr hi himpl =>
      exact .undecided (h.proxyInitialized.trans hp) (hclient hc) (h.server.trans hserver)
        (h.roles.trans hr) (h.initialized.trans hi) (h.serverImpl.trans himpl)
    | told hd hr hi himpl =>
      exact .told (hdecided hd) (by rw [h.roles, h.server, hr]) (h.initialized.trans hi)
        (h.serverImpl.trans himpl)
    | initialized hd hr hi himpl =>
      exact .initialized (hdecided hd) (h.roles.trans hr) (h.initialized.trans hi)
        (by rw [h.serverImpl, h.server, himpl])
  | @tell hostMode q _ ht hs' =>
    have hroles : s.roles = hostMode :: q.filterMap Task.role? := by
      rw [Instance.roles, ht.threadLoop]
      rfl
    subst hs'
    cases hs with
    | undecided _ _ _ hr => rw [hroles] at hr; cases hr
    | told hd hr hi himpl =>
      rw [hroles, List.cons.injEq] at hr
      exact .initialized hd hr.2 rfl (by simp [himpl, hr.1])
    | initialized _ hr => rw [hroles] at hr; cases hr
  | connect hp _ hs' =>
    subst hs'
    cases hs with
    | undecided _ hc hserver hr hi himpl =>
      refine .told ⟨rfl, by simp [Instance.post, hserver]⟩ ?_ hi himpl
      rw [Instance.roles, Instance.post, List.filterMap_append]
      exact congrArg (· ++ [s.server]) hr
    | told hd => exact absurd (hp.symm.trans hd.1) Bool.false_ne_true
    | initialized hd => exact absurd (hp.symm.trans hd.1) Bool.false_ne_true
  | serve hp _ hs' =>
    subst hs'
    cases hs with
    | undecided _ hc hserver hr hi himpl =>
      refine .told ⟨rfl, by simp [Instance.post, hc]⟩ ?_ hi himpl
      rw [Instance.roles, Instance.post, List.filterMap_append]
      exact congrArg (· ++ [true]) hr
    | told hd => exact absurd (hp.symm.trans hd.1) Bool.false_ne_true
    | initialized hd => exact absurd (hp.symm.trans hd.1) Bool.false_ne_true

/-- A role that is decided, or that the module manager was told, is so for good. -/
theorem settled {bs : List Action} {t : Instance} (h : Lts.Run Instance.Steps s bs t)
    (hd : s.Decided) : t.Role ∧ t.Decided ∧ t.server = s.server ∧
      (s.initialized = true → t.initialized = true) := by
  refine h.invariant (P := fun t => t.Role ∧ t.Decided ∧ t.server = s.server ∧
    (s.initialized = true → t.initialized = true)) ⟨hs, hd, rfl, id⟩ ?_
  rintro t a u ⟨ht, htd, hserver, hi⟩ hst
  have h := transition_of_step hst
  refine ⟨ht.step h, ?_⟩
  cases h.role with
  | keep h =>
    exact ⟨⟨h.proxyInitialized.trans htd.1, by rw [h.client, h.server, htd.2]⟩,
      h.server.trans hserver, fun h' => h.initialized.trans (hi h')⟩
  | tell _ _ hu =>
    subst hu
    exact ⟨htd, hserver, fun _ => rfl⟩
  | connect hp => exact absurd (hp.symm.trans htd.1) Bool.false_ne_true
  | serve hp => exact absurd (hp.symm.trans htd.1) Bool.false_ne_true

/-- An initialized module manager is told no role any more, and pushes its messages
    as the one it has. -/
theorem of_initialized (hi : s.initialized = true) :
    s.Decided ∧ s.serverImpl = s.server ∧ ∀ {hostMode q},
      ¬Takes s (.onProxyInitialized hostMode) q := by
  cases hs with
  | undecided _ _ _ _ hi' => exact absurd (hi'.symm.trans hi) Bool.false_ne_true
  | told _ _ hi' => exact absurd (hi'.symm.trans hi) Bool.false_ne_true
  | initialized hd hr _ himpl =>
    refine ⟨hd, himpl, fun {hostMode q} ht => ?_⟩
    rw [Instance.roles, ht.threadLoop] at hr
    cases hr

/-- The role the module manager is told is the one decided. -/
theorem of_takes {hostMode : Bool} {q : List Task} (ht : Takes s (.onProxyInitialized hostMode) q) :
    s.Decided ∧ hostMode = s.server := by
  have hroles : s.roles = hostMode :: q.filterMap Task.role? := by
    rw [Instance.roles, ht.threadLoop]
    rfl
  cases hs with
  | undecided _ _ _ hr => rw [hroles] at hr; cases hr
  | told hd hr =>
    rw [hroles, List.cons.injEq] at hr
    exact ⟨hd, hr.1⟩
  | initialized _ hr => rw [hroles] at hr; cases hr

omit hs in
theorem of_runs {as : List Action} {s : Instance} (h : Instance.Runs as s) : s.Role :=
  h.invariant (.undecided rfl rfl rfl rfl rfl rfl) fun _ _ _ hs hst =>
    hs.step (transition_of_step hst)

end Instance.Role

/-- The module manager is told its role once, which is the one its proxy has decided
    for good, and the messages it handles are pushed in this role, in order, but for
    those it still keeps. -/
theorem initialized_once {as : List Action} {s : Instance} (h : Instance.Runs as s) :
    s.pushed ++ s.msgQueue = s.handled ∧
    (s.proxyInitialized = true → s.client.isSome = !s.server ∧
      ∀ {bs t}, Lts.Run Instance.Steps s bs t →
        t.server = s.server ∧ t.client.isSome = s.client.isSome) ∧
    ∀ {hostMode q s'}, Takes s (.onProxyInitialized hostMode) q → s.step .task = .ok s' →
      ∀ {bs t}, Lts.Run Instance.Steps s' bs t →
        t.serverImpl = hostMode ∧ t.server = hostMode ∧ t.client.isSome = !hostMode ∧
        ∀ {hostMode' q'}, ¬Takes t (.onProxyInitialized hostMode') q' := by
  have hrole := Instance.Role.of_runs h
  refine ⟨(queues_of_runs h).handled.symm, fun hp => ?_, fun {hostMode q s'} ht hst bs t hbs => ?_⟩
  · have hd : s.Decided := by
      cases hrole with
      | undecided hp' => exact absurd (hp'.symm.trans hp) Bool.false_ne_true
      | told hd => exact hd
      | initialized hd => exact hd
    refine ⟨hd.2, fun hbs => ?_⟩
    obtain ⟨-, htd, hserver, -⟩ := hrole.settled hbs hd
    exact ⟨hserver, by rw [htd.2, hserver, hd.2]⟩
  · obtain ⟨hd, rfl⟩ := hrole.of_takes ht
    have hs' : s' = { s with
        threadLoop := q, serverImpl := s.serverImpl || s.server, initialized := true
        loop := .flushing } := by
      exact (Except.ok.inj (ht.step_task.symm.trans hst)).symm
    have hrole' := hrole.step (transition_of_step hst)
    have hd' : s'.Decided := hs' ▸ hd
    obtain ⟨htrole, htd, hserver, hi⟩ := hrole'.settled hbs hd'
    obtain ⟨-, himpl, hnone⟩ := htrole.of_initialized (hi (by rw [hs']))
    have hserver' : t.server = s.server := hserver.trans (by rw [hs'])
    exact ⟨himpl.trans hserver', hserver', by rw [htd.2, hserver'], hnone⟩

/-- A module is registered before the role is decided, and the outcome of a second
    connection attempt is reported. -/
theorem initialized_once_early : ∃ s, Instance.Runs [.registerModule [] [] none, .task,
      .connecting true, .connecting false, .task, .flush, .flush] s ∧
    (s.initialized = true ∧ s.handled.length = 1 ∧ s.msgQueue = []) ∧
    s.pushed ++ s.msgQueue = s.handled := by
  obtain ⟨s, h, hs⟩ := Instance.exists_runs [.registerModule [] [] none, .task,
    .connecting true, .connecting false, .task, .flush, .flush]
    (fun s => (s.initialized, s.handled.length, s.msgQueue.length)) (true, 1, 0) (by decide +kernel)
  simp only [Prod.mk.injEq, List.length_eq_zero_iff] at hs
  exact ⟨s, h, hs, (initialized_once h).1⟩

/-! ## Pushing -/

/-- The instance can push messages, if it is to. -/
def Instance.Pushes (s : Instance) : Prop :=
  s.initialized = true → s.serverImpl = true ∨ s.client.isSome = true

theorem pushes_of_runs {as : List Action} {s : Instance} (h : Instance.Runs as s) : s.Pushes := by
  intro hi
  obtain ⟨hd, himpl, -⟩ := (Instance.Role.of_runs h).of_initialized hi
  rw [himpl, hd.2]
  cases s.server <;> simp

theorem exists_pushMsg {s : Instance} (hs : s.serverImpl = true ∨ s.client.isSome = true)
    (msg : Text) : ∃ s', pushMsg s msg = .ok s' := by
  rw [pushMsg]
  split_ifs with h
  · exact ⟨_, rfl⟩
  · obtain ⟨sent, hsent⟩ := Option.isSome_iff_exists.1 (hs.resolve_left h)
    rw [Proxy.pushMsgForJS, hsent]
    exact ⟨_, rfl⟩

/-- Handling a message never fails. -/
theorem exists_handleMessage {s : Instance} (hs : s.Pushes) (msg : Text) :
    ∃ s', handleMessage s false msg = .ok s' := by
  rw [handleMessage, if_neg Bool.false_ne_true]
  dsimp only
  split_ifs with hi
  · exact ⟨_, rfl⟩
  · rw [Bool.not_eq_true', Bool.not_eq_false] at hi
    exact exists_pushMsg (s := s.log (.handled msg)) (hs hi) msg

end Sacs
