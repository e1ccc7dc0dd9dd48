import Sacs.Uplink

/-!
# A host and the other instances

The instances of SACS on a port: a host, and instances that connect to it
(`Network`). The messages between an instance and the host are in the streams of
the two ends, `Instance.client` and `Instance.clients`, and are delivered in
order (`Network.Action.deliverUp`, `deliverDown`). What the actions are is said by
`Network.Moves`.

The host is a hub that reads the changes of the others. What it has of a connected
instance is what this has sent and is delivered (`Network.Linked.link`), and the
rest is still on its way. Once everything is delivered and done, the modules of
the host are its own and images of those of the instances connected
(`Network.mirrored_of_runs`), provided that the applications unregister modules
of their own only (`Network.OwnOnly`).
-/

namespace Sacs

open JsonMsg ModuleManager

/-! ## The system -/

variable {ι : Type}

structure Network (ι : Type) where
  host : Instance := {}
  inst : ι → Instance := fun _ => {}
  /-- The client that an instance is for the host, while it is connected. -/
  conn : ι → Option ClientId := fun _ => none

/-- What a host may do besides serving its clients. -/
def Action.ofHost : Action → Bool
  | .connecting ok => !ok
  | a => a.isLocal

namespace Network

inductive Action (ι : Type)
  | host (a : Sacs.Action)
  | inst (p : ι) (a : Sacs.Action)
  /-- An instance connects, and is given a client id. -/
  | connect (p : ι) (c : ClientId)
  /-- The host reads the next message of an instance. -/
  | deliverUp (p : ι)
  /-- An instance reads the next message of the host. -/
  | deliverDown (p : ι)
  /-- The connection of an instance is lost. -/
  | disconnect (p : ι)

variable [DecidableEq ι]

def setInst (n : Network ι) (p : ι) (s : Instance) : Network ι :=
  { n with inst := Function.update n.inst p s }

def step (n : Network ι) : Action ι → Except Fault (Network ι)
  | .host a =>
    if a.ofHost then do return { n with host := ← n.host.step a } else .error .disabled
  | .inst p a =>
    if a.isLocal then do return n.setInst p (← (n.inst p).step a) else .error .disabled
  | .connect p c =>
    if (n.inst p).proxyInitialized then .error .disabled
    else do
      let host ← n.host.step (.accept c)
      let s ← (n.inst p).step (.connecting true)
      return { n.setInst p s with host, conn := Function.update n.conn p (some c) }
  | .deliverUp p => match n.conn p, (n.inst p).client with
    | some c, some (msg :: sent) => do
      let host ← n.host.step (.read c msg)
      return { n.setInst p { n.inst p with client := some sent } with host }
    | _, _ => .error .disabled
  | .deliverDown p => match n.conn p with
    | none => .error .disabled
    | some c => match n.host.clients c with
      | some (msg :: sent) => do
        let host := { n.host with clients := Function.update n.host.clients c (some sent) }
        return { n.setInst p (← (n.inst p).step (.proxyRead msg)) with host }
      | _ => .error .disabled
  | .disconnect p => match n.conn p with
    | some c => do
      let host ← n.host.step (.closed c)
      return { n with host, conn := Function.update n.conn p none }
    | none => .error .disabled

@[simp] theorem setInst_self (n : Network ι) (p : ι) (s : Instance) :
    (n.setInst p s).inst p = s := Function.update_self ..

@[simp] theorem setInst_of_ne (n : Network ι) {p q : ι} (h : q ≠ p) (s : Instance) :
    (n.setInst p s).inst q = n.inst q := Function.update_of_ne h ..

@[simp] theorem setInst_conn (n : Network ι) (p : ι) (s : Instance) :
    (n.setInst p s).conn = n.conn := rfl

abbrev Steps : Network ι → Action ι → Network ι → Prop := Lts.Exec step

/-- What an action does. -/
inductive Moves (n : Network ι) : Action ι → Network ι → Prop
  | host {a : Sacs.Action} {host : Instance} :
      a.ofHost → Transition n.host a host → Moves n (.host a) { n with host }
  | inst {p : ι} {a : Sacs.Action} {s : Instance} :
      a.isLocal → Transition (n.inst p) a s → Moves n (.inst p a) (n.setInst p s)
  | connect {p : ι} {c : ClientId} {host s : Instance} :
      (n.inst p).proxyInitialized = false → Transition n.host (.accept c) host →
      Transition (n.inst p) (.connecting true) s →
      Moves n (.connect p c)
        { n.setInst p s with host, conn := Function.update n.conn p (some c) }
  | deliverUp {p : ι} {c : ClientId} {msg : Text} {sent : List Text} {host : Instance} :
      n.conn p = some c → (n.inst p).client = some (msg :: sent) →
      Transition n.host (.read c msg) host →
      Moves n (.deliverUp p) { n.setInst p { n.inst p with client := some sent } with host }
  | deliverDown {p : ι} {c : ClientId} {msg : Text} {sent : List Text} {s : Instance} :
      n.conn p = some c → n.host.clients c = some (msg :: sent) →
      Transition (n.inst p) (.proxyRead msg) s →
      Moves n (.deliverDown p) { n.setInst p s with
        host := { n.host with clients := Function.update n.host.clients c (some sent) } }
  | disconnect {p : ι} {c : ClientId} {host : Instance} :
      n.conn p = some c → Transition n.host (.closed c) host →
      Moves n (.disconnect p) { n with host, conn := Function.update n.conn p none }

theorem moves_of_step {n n' : Network ι} {a : Action ι} (h : n.step a = .ok n') : n.Moves a n' := by
  cases a with
  | host a =>
    rw [step] at h
    split_ifs at h with ha
    obtain ⟨host, hst, ⟨⟩⟩ := bind_eq_ok.1 h
    exact .host ha (transition_of_step hst)
  | inst p a =>
    rw [step] at h
    split_ifs at h with ha
    obtain ⟨s, hst, ⟨⟩⟩ := bind_eq_ok.1 h
    exact .inst ha (transition_of_step hst)
  | connect p c =>
    rw [step] at h
    split_ifs at h with hp
    obtain ⟨host, hhost, h⟩ := bind_eq_ok.1 h
    obtain ⟨s, hst, ⟨⟩⟩ := bind_eq_ok.1 h
    exact .connect (Bool.eq_false_of_not_eq_true hp) (transition_of_step hhost)
      (transition_of_step hst)
  | deliverUp p =>
    rw [step] at h
    split at h
    · rename_i c msg sent hc hclient
      obtain ⟨host, hst, ⟨⟩⟩ := bind_eq_ok.1 h
      exact .deliverUp hc hclient (transition_of_step hst)
    · cases h
  | deliverDown p =>
    rw [step] at h
    split at h
    · cases h
    · rename_i c hc
      split at h
      · rename_i msg sent hclient
        obtain ⟨s, hst, ⟨⟩⟩ := bind_eq_ok.1 h
        exact .deliverDown hc hclient (transition_of_step hst)
      · cases h
  | disconnect p =>
    rw [step] at h
    split at h
    · rename_i c hc
      obtain ⟨host, hst, ⟨⟩⟩ := bind_eq_ok.1 h
      exact .disconnect hc (transition_of_step hst)
    · cases h

/-! ## The property -/

end Network

/-- `RegisterModule` has given the application this id. -/
def Instance.Owns (s : Instance) (id : Int32) : Prop :=
  ∃ x ∈ s.trace.filterMap Event.registered?, x.1 = id ∧ x.2.1 = none

/-- The application has registered a module of this shape with this id, and not
    unregistered it. -/
def Instance.Live (s : Instance) (id : Int32) (v : Shape) : Prop :=
  (∃ promise m, .registered id promise m ∈ s.trace ∧ promise.client? = none ∧ m.shape = v) ∧
    .unregister id ∉ s.trace

/-- Nothing is left to be done on the loop thread. -/
structure Instance.Quiet (s : Instance) : Prop where
  msgQueue : s.msgQueue = []
  threadLoop : s.threadLoop = []

namespace Network

/-- An instance unregisters modules of its own. -/
def Unregisters (s : Instance) : Sacs.Action → Prop
  | .unregisterModule id | .callbackUnregisterModule id => s.Owns id
  | _ => True

/-- Applications unregister modules of their own only. -/
def OwnOnly (n : Network ι) : Action ι → Prop
  | .host a => Unregisters n.host a
  | .inst p a => Unregisters (n.inst p) a
  | _ => True

/-- Nothing is left to be done, and the host has read all messages of the instances
    connected. Its own may still be on their way. -/
structure Quiet (n : Network ι) : Prop where
  host : n.host.Quiet
  handler : ∀ c, n.host.handler c = .idle
  inst : ∀ {p c}, n.conn p = some c → (n.inst p).Quiet ∧ (n.inst p).client = some []

/-- The host has its own modules, and one image of each module of the instances
    connected. -/
structure Mirrored (n : Network ι) : Prop where
  modules : ∀ id v, (id, v) ∈ n.host.shapes ↔ n.host.Live id v ∨
    ∃ p c r, n.conn p = some c ∧ n.host.remoteModules.find? id = some (r, c) ∧ (n.inst p).Live r v
  own : ∀ {id v}, n.host.Live id v → n.host.remoteModules.find? id = none
  image : ∀ {p c r v}, n.conn p = some c → (n.inst p).Live r v →
    ∃! id, n.host.remoteModules.find? id = some (r, c) ∧ (id, v) ∈ n.host.shapes
  remote : ∀ {id r c}, n.host.remoteModules.find? id = some (r, c) →
    ∃ p v, n.conn p = some c ∧ (n.inst p).Live r v ∧ (id, v) ∈ n.host.shapes
  injective : ∀ {id id' x}, n.host.remoteModules.find? id = some x →
    n.host.remoteModules.find? id' = some x → id = id'
  localId : ∀ {id r c}, n.host.remoteModules.find? id = some (r, c) →
    ProxyServer.localIdFromRemote n.host r c = id
  remoteId : ∀ {p c r v}, n.conn p = some c → (n.inst p).Live r v →
    ProxyServer.remoteIdFromLocal n.host (ProxyServer.localIdFromRemote n.host r c) = (r, c)

/-! ## The invariant -/

/-- The host has the images of what is delivered from `p`, its client `c`. -/
def Link (n : Network ι) (p : ι) (c : ClientId) : Prop :=
  ∃ delivered sent, (n.inst p).client = some sent ∧ (n.inst p).pushed = delivered ++ sent ∧
    ∀ r v, n.host.hub.Shows c r v ↔ (r, v) ∈ Feed.replay [] (delivered.filterMap Text.change?)

/-- What is known of an instance that is not the host. -/
structure Peer (s : Instance) : Prop where
  announced : s.Announced
  queues : s.Queues
  proxying : s.Proxying
  hub : Hub.Inv (-1) s.hub

structure Linked (n : Network ι) : Prop where
  fresh : n.host.Fresh
  hub : Hub.Inv (-1) n.host.hub
  peer : ∀ p, Peer (n.inst p)
  opened : ∀ {c}, n.host.hub.Open c ↔ ∃ p, n.conn p = some c
  inj : ∀ {p q c}, n.conn p = some c → n.conn q = some c → p = q
  link : ∀ {p c}, n.conn p = some c → n.Link p c

/-! ### The instances -/

theorem registered_of_owns {s : Instance} {id : Int32} (h : s.Owns id) :
    ∃ v, (id, none, v) ∈ s.hub.registered := by
  obtain ⟨⟨id', owner, v⟩, hx, rfl, rfl⟩ := h
  exact ⟨v, hx⟩

theorem hub_allows {s : Instance} {a : Sacs.Action} (ha : a.ofHost) (hown : Unregisters s a) :
    s.hub.Allows a.label := by
  cases a with
  | unregisterModule id => exact registered_of_owns hown
  | callbackUnregisterModule id => exact registered_of_owns hown
  | read c msg => cases ha
  | _ => trivial

theorem ofHost_of_isLocal {a : Sacs.Action} (ha : a.isLocal) : a.ofHost := by
  cases a with
  | connecting ok => cases ha
  | _ => exact ha

/-- What a host does besides serving its clients concerns none of them. -/
theorem label_of_ofHost {a : Sacs.Action} (ha : a.ofHost) (c : ClientId) :
    a.label ≠ .accept c ∧ a.label ≠ .close c ∧ a.label.feed c = [] := by
  cases a with
  | accept c => cases ha
  | read c msg => cases ha
  | closed c => cases ha
  | _ => exact ⟨nofun, nofun, rfl⟩

theorem Peer.step {s s' : Instance} {a : Sacs.Action} (hs : Peer s) (h : Transition s a s')
    (hallows : s.hub.Allows a.label) (ha : ∀ ok, a ≠ .connecting ok) : Peer s' :=
  ⟨hs.announced.step h, hs.queues.step h, hs.proxying.step h ha,
    hs.hub.step hallows (h.hub hs.announced.fresh)⟩

/-- Only the stream to the host has changed. -/
theorem Peer.deliver {s : Instance} (hs : Peer s) {msg : Text} {sent : List Text}
    (hclient : s.client = some (msg :: sent)) : Peer { s with client := some sent } where
  announced := ⟨hs.announced.fresh, ⟨hs.announced.posts.queued, hs.announced.posts.updating⟩,
    hs.announced.valid, hs.announced.replay⟩
  queues := ⟨hs.queues.handled, hs.queues.flushed, hs.queues.ready⟩
  proxying := ⟨hs.proxying.server, hs.proxying.serverImpl, hs.proxying.role, hs.proxying.clients,
    fun hp => absurd (hclient.symm.trans (hs.proxying.unconnected hp)) nofun, nofun⟩
  hub := hs.hub

/-! ### The links -/

variable {n n' : Network ι} {p : ι} {c : ClientId}

/-- A step of the host that reads nothing from the client. -/
theorem Link.host {a : Sacs.Action} (hl : n.Link p c) (hn : n.Linked)
    (h : Transition n.host a n'.host) (hallows : n.host.hub.Allows a.label)
    (hp : n.conn p = some c) (hclose : a.label ≠ .close c) (hfeed : a.label.feed c = [])
    (hinst : n'.inst p = n.inst p) : n'.Link p c := by
  obtain ⟨delivered, sent, hclient, hpushed, hshows⟩ := hl
  refine ⟨delivered, sent, hinst ▸ hclient, hinst ▸ hpushed, fun r v => ?_⟩
  have := (h.hub hn.fresh).shows hn.hub hallows (hn.opened.2 ⟨p, hp⟩).2 hclose hshows r v
  rwa [hfeed, Feed.replay_nil] at this

/-- What an instance pushes is on its way. -/
theorem Link.push (hl : n.Link p c) (h : Uplinks (n.inst p) (n'.inst p))
    (hhost : n'.host.hub = n.host.hub) : n'.Link p c := by
  obtain ⟨delivered, sent, hclient, hpushed, hshows⟩ := hl
  obtain ⟨news, hnews, hclient', -⟩ := h
  refine ⟨delivered, sent ++ news, ?_, ?_, fun r v => hhost ▸ hshows r v⟩
  · rw [hclient', hclient]
    rfl
  · rw [hnews, hpushed, List.append_assoc]

theorem Link.congr (hl : n.Link p c) (hhost : n'.host.hub = n.host.hub)
    (hinst : n'.inst p = n.inst p) : n'.Link p c :=
  hl.push (hinst ▸ .of_silent rfl rfl) hhost

/-- The values an instance announces are new, as far as it is delivered. -/
theorem Link.allows (hl : n.Link p c) (hp : Peer (n.inst p)) {msg : Text} {sent : List Text}
    (hclient : (n.inst p).client = some (msg :: sent)) :
    n.host.hub.Allows (.read c msg.change?) := by
  obtain ⟨delivered, sent', hclient', hpushed, hshows⟩ := hl
  cases hclient.symm.trans hclient'
  cases hchange : msg.change? with
  | none => trivial
  | some change =>
    cases change with
    | remove r => trivial
    | add r v =>
      have hvalid := hp.announced.valid
      rw [Instance.changes, hp.queues.handled, hpushed, List.append_assoc, List.filterMap_append,
        Feed.valid_append, List.cons_append, List.filterMap_cons_some hchange] at hvalid
      intro v' h
      exact hvalid.2.1 r v rfl (List.mem_map_of_mem ((hshows r v').1 h))

/-- The connections, once there is one more. -/
theorem conn_of_connect [DecidableEq ι] {q : ι} {c' : ClientId}
    (h : Function.update n.conn p (some c) q = some c') :
    (q = p ∧ c' = c) ∨ (q ≠ p ∧ n.conn q = some c') := by
  rw [Function.update_apply] at h
  split_ifs at h with hq
  · exact .inl ⟨hq, (Option.some.inj h).symm⟩
  · exact .inr ⟨hq, h⟩

/-- The connections, once there is one less. -/
theorem conn_disconnect [DecidableEq ι] {q : ι} {c' : ClientId} :
    Function.update n.conn p none q = some c' ↔ q ≠ p ∧ n.conn q = some c' := by
  rw [Function.update_apply]
  split_ifs with hq <;> simp [hq]

namespace Linked

variable [DecidableEq ι] (hn : n.Linked)

include hn

omit [DecidableEq ι] in
theorem conn_ne_of_ne {q : ι} {c' : ClientId} (hp : n.conn p = some c) (hq : n.conn q = some c')
    (hne : q ≠ p) : c ≠ c' := by
  rintro rfl
  exact hne (hn.inj hq hp)

omit [DecidableEq ι] in
theorem open_step {a : Sacs.Action} {host : Instance} (h : Transition n.host a host)
    (c : ClientId) : host.hub.Open c ↔
      ((∃ p, n.conn p = some c) ∧ a.label ≠ .close c) ∨ a.label = .accept c := by
  rw [← hn.opened]
  exact (h.hub hn.fresh).open_iff hn.hub.leaving c

omit [DecidableEq ι] in
theorem host {a : Sacs.Action} {host : Instance} (ha : a.ofHost) (h : Transition n.host a host)
    (hown : Unregisters n.host a) : ({ n with host } : Network ι).Linked where
  fresh := h.registry.fresh hn.fresh
  hub := hn.hub.step (hub_allows ha hown) (h.hub hn.fresh)
  peer := hn.peer
  opened {c} := by
    obtain ⟨haccept, hclose, -⟩ := label_of_ofHost ha c
    rw [hn.open_step h]
    simp [haccept, hclose]
  inj := hn.inj
  link {p c} hp := by
    obtain ⟨-, hclose, hfeed⟩ := label_of_ofHost ha c
    exact (hn.link hp).host hn h (hub_allows ha hown) hp hclose hfeed rfl

/-- An instance makes a step, of which the host knows nothing. -/
theorem inst {s : Instance} (hs : Peer s) (hu : Uplinks (n.inst p) s) {host : Instance}
    (hhost : host.hub = n.host.hub) (hfresh : host.Fresh) :
    ({ n.setInst p s with host } : Network ι).Linked where
  fresh := hfresh
  hub := hhost ▸ hn.hub
  peer q := by
    by_cases hq : q = p
    · subst hq
      simpa using hs
    · simpa [hq] using hn.peer q
  opened := hhost ▸ hn.opened
  inj := hn.inj
  link {q c} hc := by
    by_cases hq : q = p
    · subst hq
      exact (hn.link hc).push (by simpa using hu) hhost
    · exact (hn.link hc).congr hhost (by simp [hq])

theorem connect {host s : Instance} (hp : (n.inst p).proxyInitialized = false)
    (hhost : Transition n.host (.accept c) host) (h : Transition (n.inst p) (.connecting true) s) :
    ({ n.setInst p s with host, conn := Function.update n.conn p (some c) } :
        Network ι).Linked := by
  obtain ⟨hproxying, hclient, hpushed⟩ := (hn.peer p).proxying.connect h hp
  -- The instance was not connected, and the host does not know the client.
  have hconn : ∀ c, n.conn p ≠ some c := by
    intro c hc
    obtain ⟨_, sent, hsent, -⟩ := hn.link hc
    cases hsent.symm.trans ((hn.peer p).proxying.unconnected hp)
  have hnone : n.host.hub.connected c = false := by
    cases hhost with
    | accept _ hc _ => exact congrArg Option.isSome hc
  have hfree : ∀ q, n.conn q ≠ some c := fun q hq =>
    Bool.false_ne_true (hnone.symm.trans (hn.opened.2 ⟨q, hq⟩).1)
  refine ⟨hhost.registry.fresh hn.fresh, hn.hub.step (by trivial) (hhost.hub hn.fresh), fun q => ?_,
    fun {c'} => ?_, fun {q q' c'} h h' => ?_, fun {q c'} h => ?_⟩
  · by_cases hq : q = p
    · subst hq
      have := (hn.peer q).announced.step h
      simpa using (⟨this, (hn.peer q).queues.step h, hproxying,
        (hn.peer q).hub.step (by trivial) (h.hub (hn.peer q).announced.fresh)⟩ : Peer s)
    · simpa [hq] using hn.peer q
  · rw [hn.open_step hhost]
    constructor
    · rintro (⟨⟨q, hq⟩, -⟩ | h)
      · refine ⟨q, (Function.update_of_ne ?_ ..).trans hq⟩
        rintro rfl
        exact hconn _ hq
      · cases h
        exact ⟨p, Function.update_self ..⟩
    · rintro ⟨q, hq⟩
      rcases conn_of_connect hq with ⟨-, rfl⟩ | ⟨-, hq⟩
      · exact .inr rfl
      · exact .inl ⟨⟨q, hq⟩, nofun⟩
  · rcases conn_of_connect h with ⟨hq, hc⟩ | ⟨-, h₁⟩ <;>
      rcases conn_of_connect h' with ⟨hq', hc'⟩ | ⟨-, h₁'⟩
    · rw [hq, hq']
    · exact absurd (hc ▸ h₁') (hfree _)
    · exact absurd (hc' ▸ h₁) (hfree _)
    · exact hn.inj h₁ h₁'
  · rcases conn_of_connect h with ⟨rfl, rfl⟩ | ⟨hq, h⟩
    · refine ⟨[], [], by simpa using hclient, by simpa using hpushed, ?_⟩
      refine (hhost.hub hn.fresh).shows hn.hub trivial (fun hpc => ?_) nofun fun r v => ?_
      · exact Bool.false_ne_true (hnone.symm.trans (hn.hub.leaving hpc))
      · exact iff_of_false (hn.hub.not_shows hnone r v) List.not_mem_nil
    · exact (hn.link h).host hn hhost trivial h nofun rfl (by simp [hq])

theorem deliverUp {msg : Text} {sent : List Text} {host : Instance} (hp : n.conn p = some c)
    (hclient : (n.inst p).client = some (msg :: sent)) (h : Transition n.host (.read c msg) host) :
    ({ n.setInst p { n.inst p with client := some sent } with host } : Network ι).Linked := by
  have hallows := (hn.link hp).allows (hn.peer p) hclient
  have hlabel : ∀ c', (Action.read c msg).label ≠ .accept c' ∧
      (Action.read c msg).label ≠ .close c' := fun _ => ⟨nofun, nofun⟩
  refine ⟨h.registry.fresh hn.fresh, hn.hub.step hallows (h.hub hn.fresh), fun q => ?_,
    fun {c'} => ?_, hn.inj, fun {q c'} hq => ?_⟩
  · by_cases hqp : q = p
    · subst hqp
      simpa using (hn.peer q).deliver hclient
    · simpa [hqp] using hn.peer q
  · rw [hn.open_step h]
    simp [hlabel]
  · by_cases hqp : q = p
    · subst hqp
      cases hp.symm.trans hq
      obtain ⟨delivered, sent', hsent, hpushed, hshows⟩ := hn.link hp
      cases hclient.symm.trans hsent
      refine ⟨delivered ++ [msg], sent, by simp, ?_, fun r v => ?_⟩
      · rw [setInst_self]
        exact hpushed.trans (List.append_cons ..)
      · have := (h.hub hn.fresh).shows hn.hub hallows (hn.opened.2 ⟨q, hp⟩).2 nofun hshows r v
        rw [Action.label, Hub.Label.feed, if_pos rfl, ← Feed.replay_append] at this
        rw [List.filterMap_append]
        convert this using 4
        cases hchange : msg.change? <;> simp [hchange]
    · refine (hn.link hq).host hn h hallows hq nofun (if_neg ?_) (by simp [hqp])
      exact hn.conn_ne_of_ne hp hq hqp

omit [DecidableEq ι] in
theorem step_peer {a : Sacs.Action} {s : Instance} (ha : a.isLocal ∨ ∃ msg, a = .proxyRead msg)
    (h : Transition (n.inst p) a s) (hown : Unregisters (n.inst p) a) :
    Peer s ∧ Uplinks (n.inst p) s := by
  have hne : ∀ ok, a ≠ .connecting ok := by
    rintro ok rfl
    rcases ha with ha | ⟨msg, ha⟩ <;> cases ha
  have hallows : (n.inst p).hub.Allows a.label := by
    rcases ha with ha | ⟨msg, rfl⟩
    · exact hub_allows (ofHost_of_isLocal ha) hown
    · trivial
  exact ⟨(hn.peer p).step h hallows hne, h.uplinks hne (hn.peer p).proxying.serverImpl⟩

theorem disconnect {host : Instance} (hp : n.conn p = some c)
    (h : Transition n.host (.closed c) host) :
    ({ n with host, conn := Function.update n.conn p none } : Network ι).Linked := by
  refine ⟨h.registry.fresh hn.fresh, hn.hub.step (by trivial) (h.hub hn.fresh), hn.peer,
    fun {c'} => ?_, fun h h' => hn.inj (conn_disconnect.1 h).2 (conn_disconnect.1 h').2,
    fun {q c'} hq => ?_⟩
  · rw [hn.open_step h]
    constructor
    · rintro (⟨⟨q, hq⟩, hc⟩ | h)
      · refine ⟨q, conn_disconnect.2 ⟨?_, hq⟩⟩
        rintro rfl
        cases hp.symm.trans hq
        exact hc rfl
      · cases h
    · rintro ⟨q, hq⟩
      obtain ⟨hqp, hq⟩ := conn_disconnect.1 hq
      refine .inl ⟨⟨q, hq⟩, fun h => hn.conn_ne_of_ne hp hq hqp ?_⟩
      cases h
      rfl
  · obtain ⟨hqp, hq⟩ := conn_disconnect.1 hq
    refine (hn.link hq).host hn h (by trivial) hq (fun h => ?_) rfl rfl
    cases h
    exact hqp (hn.inj hq hp)

theorem step {a : Action ι} (hown : n.OwnOnly a) (h : n.Moves a n') : n'.Linked := by
  cases h with
  | host ha h => exact hn.host ha h hown
  | inst ha h =>
    obtain ⟨hs, hu⟩ := hn.step_peer (.inl ha) h hown
    exact hn.inst hs hu rfl hn.fresh
  | connect hp hhost h => exact hn.connect hp hhost h
  | deliverUp hp hclient h => exact hn.deliverUp hp hclient h
  | @deliverDown p c msg sent s hp hclient h =>
    obtain ⟨hs, hu⟩ := hn.step_peer (.inr ⟨msg, rfl⟩) h trivial
    refine hn.inst hs hu (hub_congr rfl (fun _ => rfl) rfl (fun c' => ?_) (fun _ => rfl) rfl
      ⟨[], by simp⟩) hn.fresh
    dsimp only
    rw [Function.update_apply]
    split_ifs with hc
    · rw [hc, hclient]
      rfl
    · rfl
  | disconnect hp h => exact hn.disconnect hp h

end Linked

theorem linked_of_runs [DecidableEq ι] {as : List (Action ι)} {n : Network ι}
    (h : Lts.Run (Lts.Under OwnOnly Steps) {} as n) : n.Linked := by
  refine h.invariant ?_ fun _ _ _ hn hst => hn.step hst.1 (moves_of_step hst.2)
  have hfresh : ({} : Instance).Fresh := ⟨le_rfl, fun hm => by simp at hm⟩
  have hhub : Hub.Inv (-1) ({} : Instance).hub := Hub.inv_init (by decide)
  refine ⟨hfresh, hhub, fun p => ⟨announced_of_runs .nil, queues_of_runs .nil,
    ⟨rfl, rfl, nofun, fun _ => rfl, fun _ => rfl, fun _ => rfl⟩, hhub⟩, fun {c} => ?_, nofun, nofun⟩
  exact iff_of_false (fun h => Bool.false_ne_true h.1) nofun

/-! ### What is left in the end -/

end Network

theorem Instance.live_iff {s : Instance} {id : Int32} {v : Shape} :
    s.Live id v ↔ (id, none, v) ∈ s.hub.registered ∧ id ∉ s.hub.dropped := by
  refine and_congr ?_ (not_congr ?_)
  · constructor
    · rintro ⟨promise, m, hmem, hp, rfl⟩
      exact List.mem_filterMap.2 ⟨_, hmem, by rw [Event.registered?, hp]⟩
    · intro h
      obtain ⟨e, he, hreg⟩ := List.mem_filterMap.1 h
      cases e with
      | registered id' promise m =>
        simp only [Event.registered?, Option.some.injEq, Prod.mk.injEq] at hreg
        obtain ⟨rfl, hp, hm⟩ := hreg
        exact ⟨promise, m, he, hp, hm⟩
      | _ => cases hreg
  · constructor
    · exact fun h => List.mem_filterMap.2 ⟨_, h, rfl⟩
    · intro h
      obtain ⟨e, he, hdrop⟩ := List.mem_filterMap.1 h
      cases e with
      | unregister id' =>
        cases hdrop
        exact he
      | _ => cases hdrop

theorem mem_shapes_iff {s : Instance} {id : Int32} {v : Shape} :
    (id, v) ∈ s.shapes ↔ s.hub.module id = some v := by
  rw [Instance.shapes, List.mem_map]
  constructor
  · rintro ⟨⟨id', m⟩, hm, h⟩
    cases h
    exact congrArg (Option.map Module.shape) (OrdMap.find?_eq_some_iff.2 hm)
  · intro h
    obtain ⟨m, hm, rfl⟩ := Option.map_eq_some_iff.1 h
    exact ⟨(id, m), OrdMap.find?_eq_some_iff.1 hm, rfl⟩

theorem exists_mem_shapes_iff {s : Instance} {id : Int32} :
    (∃ v, (id, v) ∈ s.shapes) ↔ (s.modules.find? id).isSome := by
  simp only [mem_shapes_iff, Option.isSome_iff_exists]
  constructor
  · rintro ⟨v, hv⟩
    obtain ⟨m, hm, -⟩ := Option.map_eq_some_iff.1 hv
    exact ⟨m, hm⟩
  · rintro ⟨m, hm⟩
    exact ⟨m.shape, congrArg (Option.map Module.shape) hm⟩

theorem Instance.Quiet.jobs {s : Instance} (h : s.Quiet) : s.hub.jobs = [] := by
  rw [Instance.hub, h.threadLoop]
  rfl

namespace Network

variable {n : Network ι} {p : ι} {c : ClientId}

/-- An instance without clients has its own modules only. -/
theorem Peer.live_iff {s : Instance} (hs : Peer s) (hq : s.Quiet) {r : Int32} {v : Shape} :
    s.Live r v ↔ (r, v) ∈ s.shapes := by
  have hc : ∀ c, s.hub.connected c ≠ true := by
    intro c h
    replace h : (s.clients c).isSome = true := h
    rw [hs.proxying.clients] at h
    cases h
  rw [Instance.live_iff, mem_shapes_iff, hs.hub.module_iff hq.jobs fun c => hs.hub.pc_idle (hc c)]
  refine ⟨.inl, fun h => h.resolve_right ?_⟩
  rintro ⟨r', c, himage, -⟩
  exact hc c (hs.hub.linked himage).1

/-- The host has images of the modules of an instance, once this is quiet. -/
theorem Linked.shows_iff (hn : n.Linked) (hp : n.conn p = some c) (hq : (n.inst p).Quiet)
    (hclient : (n.inst p).client = some []) {r : Int32} {v : Shape} :
    n.host.hub.Shows c r v ↔ (n.inst p).Live r v := by
  obtain ⟨delivered, sent, hsent, hpushed, hshows⟩ := hn.link hp
  cases hclient.symm.trans hsent
  rw [(hn.peer p).live_iff hq, hshows, ← (hn.peer p).announced.replay, Instance.changes,
    (hn.peer p).queues.handled, hq.msgQueue, hpushed, List.append_nil, List.append_nil]

theorem Linked.mirrored (hn : n.Linked) (hq : n.Quiet) : n.Mirrored := by
  have hjobs := hq.host.jobs
  have hidle : ∀ c, n.host.hub.pc c = .idle := fun c => congrArg HandlerPc.toPc (hq.handler c)
  -- With nothing under way, the host shows for a client what is live at its instance.
  have hshows : ∀ {p c r v}, n.conn p = some c → (n.host.hub.Shows c r v ↔ (n.inst p).Live r v) :=
    fun hp => hn.shows_iff hp (hq.inst hp).1 (hq.inst hp).2
  have hconn : ∀ {id r c}, n.host.hub.image id = some (r, c) → ∃ p, n.conn p = some c :=
    fun {id r c} h => hn.opened.1 ⟨(hn.hub.linked h).1, by rw [hidle]; nofun⟩
  have himage : ∀ {p c r v}, n.conn p = some c → (n.inst p).Live r v →
      ∃! id, n.host.hub.image id = some (r, c) ∧ n.host.hub.module id = some v :=
    fun hp hv => hn.hub.existsUnique_image (hidle _) ((hshows hp).2 hv)
  have hlocal : ∀ {id r c}, n.host.hub.image id = some (r, c) →
      ProxyServer.localIdFromRemote n.host r c = id := by
    intro id r c h
    rcases localIdFromRemote_cases n.host r c with h' | ⟨-, h'⟩
    · exact hn.hub.inj h' h
    · exact absurd h (h' id)
  refine ⟨fun id v => ?_, fun {id v} h => ?_, fun {p c r v} hp hv => ?_, fun {id r c} h => ?_,
    hn.hub.inj, hlocal, fun {p c r v} hp hv => ?_⟩
  · rw [mem_shapes_iff, hn.hub.module_iff hjobs hidle, Instance.live_iff]
    refine or_congr_right ⟨?_, ?_⟩
    · rintro ⟨r, c, himg, hs⟩
      obtain ⟨p, hp⟩ := hconn himg
      exact ⟨p, c, r, hp, himg, (hshows hp).1 hs⟩
    · rintro ⟨p, c, r, hp, himg, hv⟩
      exact ⟨r, c, himg, (hshows hp).2 hv⟩
  · exact (hn.hub.image_eq_none_of_own (Instance.live_iff.1 h).1).1
  · simp only [mem_shapes_iff]
    exact himage hp hv
  · obtain ⟨p, hp⟩ := hconn h
    obtain ⟨v, hs⟩ := hn.hub.shows_of_image h
    obtain ⟨id', ⟨h', hv⟩, -⟩ := himage hp ((hshows hp).1 hs)
    exact ⟨p, v, hp, (hshows hp).1 hs, mem_shapes_iff.2 (hn.hub.inj h h' ▸ hv)⟩
  · obtain ⟨id, ⟨h, -⟩, -⟩ := himage hp hv
    rw [hlocal h, ProxyServer.remoteIdFromLocal]
    exact congrArg (Option.getD · _) h

/-- When everything is delivered and done, the host mirrors the modules of the
    instances connected. -/
theorem mirrored_of_runs [DecidableEq ι] {as : List (Action ι)}
    (h : Lts.Run (Lts.Under OwnOnly Steps) {} as n) (hq : n.Quiet) : n.Mirrored :=
  (linked_of_runs h).mirrored hq

/-! ### An example -/

/-- The client whose handler runs, or that is accepted. -/
def Action.client? : Action ι → Option ClientId
  | .host a => a.client?
  | .connect _ c => some c
  | _ => none

/-- Nobody is served as a client that is not accepted. -/
theorem handler_idle_of_runs [DecidableEq ι] {as : List (Action ι)} (h : Lts.Run Steps {} as n)
    (has : ∀ a ∈ as, a.client? ≠ some c) : n.host.handler c = .idle := by
  refine ((h.under_of_forall (C := fun _ a => a.client? ≠ some c) fun a ha _ => has a ha).invariant
    (P := fun n => (∀ p, n.conn p ≠ some c) ∧ n.host.handler c = .idle) ⟨nofun, rfl⟩ ?_).2
  rintro n a n' ⟨hconn, hidle⟩ ⟨ha, hst⟩
  have hupdate : ∀ {q x}, x ≠ some c → ∀ p, Function.update n.conn q x p ≠ some c := by
    intro q x hx p
    rw [Function.update_apply]
    split_ifs
    · exact hx
    · exact hconn p
  cases moves_of_step hst with
  | host _ h => exact ⟨hconn, h.handler_idle hidle ha⟩
  | inst => exact ⟨hconn, hidle⟩
  | connect _ hhost _ => exact ⟨hupdate ha, hhost.handler_idle hidle nofun⟩
  | @deliverUp p c' _ _ _ hp _ hhost =>
    refine ⟨hconn, hhost.handler_idle hidle fun e => hconn p ?_⟩
    rwa [hp]
  | deliverDown => exact ⟨hconn, hidle⟩
  | @disconnect p c' _ hp hhost =>
    refine ⟨hupdate nofun, hhost.handler_idle hidle fun e => hconn p ?_⟩
    rwa [hp]

instance instDecidableOwns (s : Instance) (id : Int32) : Decidable (s.Owns id) :=
  inferInstanceAs (Decidable (∃ x ∈ _, _))

instance instDecidableUnregisters (s : Instance) (a : Sacs.Action) : Decidable (Unregisters s a) :=
  match a with
  | .unregisterModule id | .callbackUnregisterModule id => inferInstanceAs (Decidable (s.Owns id))
  | .registerModule .. | .updateProperties .. | .announce _ | .task | .flush
  | .callbackRegisterModule .. | .callbackUpdateProperties .. | .callbackReturn | .connecting _
  | .proxyRead _ | .accept _ | .read .. | .resume _ | .closed _ | .wsConnected _ | .wsMessage ..
  | .wsReply _ | .wsClosed _ | .wsExpired _ => .isTrue trivial

instance instDecidableOwnOnly (n : Network ι) (a : Action ι) : Decidable (n.OwnOnly a) := by
  cases a <;> dsimp only [OwnOnly] <;> infer_instance

/-- An instance registers two modules and unregisters the first, then connects. -/
def joining : List (Action Unit) :=
  [.host (.connecting false), .host .task, .host .flush] ++
  ([.registerModule (Str.lit "First") [] none, .task, .registerModule (Str.lit "Second") [] none,
    .task, .unregisterModule 0, .task].map (.inst ())) ++
  [.connect () 7] ++ ([.task, .flush, .flush, .flush, .flush].map (.inst ())) ++
  [.deliverUp (), .host .task, .host (.resume 7), .deliverUp (), .host .task, .host (.resume 7),
    .deliverUp (), .host .task]

/-- The host has an image of the second module. -/
theorem mirrored_of_joining : ∃ n : Network Unit, Lts.Run (Lts.Under OwnOnly Steps) {} joining n ∧
    n.Mirrored ∧ n.host.modules.find? 1 = some ⟨1, Str.lit "Second", [], none⟩ ∧
    n.host.remoteModules.find? 1 = some (1, 7) := by
  obtain ⟨n, hn, hobs⟩ := Lts.exists_run_of_foldlM (Lts.guard OwnOnly step .disabled) {}
    joining (fun n : Network Unit => decide (
      n.host.modules.find? 1 = some ⟨1, Str.lit "Second", [], none⟩ ∧
      n.host.remoteModules.find? 1 = some (1, 7) ∧ (n.host.handler 7).isIdle ∧
      (n.inst ()).client.map List.length = some 0 ∧
      n.host.threadLoop.length = 0 ∧ n.host.msgQueue.length = 0 ∧
      (n.inst ()).threadLoop.length = 0 ∧ (n.inst ()).msgQueue.length = 0)) true (by decide +kernel)
  simp only [decide_eq_true_eq, List.length_eq_zero_iff, Option.map_eq_some_iff] at hobs
  obtain ⟨hm, hr, hidle, ⟨sent, hsent, rfl⟩, hq, hmsgs, hq', hmsgs'⟩ := hobs
  have hrun := hn.under_of_guard
  refine ⟨n, hrun, mirrored_of_runs hrun ⟨⟨hmsgs, hq⟩, fun c => ?_,
    fun _ => ⟨⟨hmsgs', hq'⟩, hsent⟩⟩, hm, hr⟩
  by_cases hc : c = 7
  · subst hc
    exact HandlerPc.eq_idle hidle
  · refine handler_idle_of_runs hrun.of_under ?_
    simp [joining, Action.client?, Sacs.Action.client?, Ne.symm hc]

end Network

end Sacs
