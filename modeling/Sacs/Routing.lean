import Sacs.Delivery
import Sacs.Isolation
import Sacs.Network

/-!
# Web updates across the network

A request of a web client to apply updates is run by the loop thread of the host,
in its turn. If it is about an image, the host sends it on to the instance the
module is of, where it is run in its turn again: the messages of the host to an
instance are a queue as well (`Network.fifo_clients`).

* `Network.Joined` is what is always true of the instances connected, whatever their
  applications do.
* `Network.routed_of_runs`: the callback of the addressed module is called, with the
  updates, and no other one.
-/

namespace Sacs

open JsonMsg ModuleManager

/-! ## Images -/

theorem callback_of_toModule {json : JsonMsg} {m : Module} (h : json.toModule = .ok (some m)) :
    m.callback = none := by
  rw [toModule] at h
  split at h
  · cases h
  · obtain ⟨id, -, h⟩ := bind_eq_ok.1 h
    obtain ⟨name, -, h⟩ := bind_eq_ok.1 h
    obtain ⟨jproperties, -, h⟩ := bind_eq_ok.1 h
    obtain ⟨elements, -, h⟩ := bind_eq_ok.1 h
    obtain ⟨properties, -, h⟩ := bind_eq_ok.1 h
    cases h
    rfl

/-- The modules registered for clients are images. -/
structure Instance.Imaged (s : Instance) : Prop where
  queued : ∀ t ∈ s.threadLoop, ∀ m c, t = .doRegisterModule m (.handler c) → m.callback = none
  registered : ∀ id m c, .registered id (.handler c) m ∈ s.record → m.callback = none

theorem Instance.Imaged.step {s s' : Instance} {a : Action} (hs : s.Imaged)
    (h : Transition s a s') : s'.Imaged where
  queued := by
    refine h.forall_tasks hs.queued (fun _ => id) fun ts hts t ht m c heq => ?_
    cases hts with
    | readAdd _ _ hm =>
      cases (List.mem_singleton.1 ht).symm.trans heq
      exact callback_of_toModule hm
    | none => cases ht
    | _ => cases (List.mem_singleton.1 ht).symm.trans heq
  registered := by
    have hother : ∀ {e : Event}, (∀ id m c, e ≠ .registered id (.handler c) m) →
        s'.record = s.record ++ [e] → ∀ id m c, .registered id (.handler c) m ∈ s'.record →
          m.callback = none := by
      intro e he hrecord id m c hmem
      rw [hrecord, List.mem_append, List.mem_singleton] at hmem
      rcases hmem with hmem | hmem
      · exact hs.registered id m c hmem
      · exact absurd hmem.symm (he id m c)
    cases h.edits with
    | keep _ _ hrecord => exact hrecord ▸ hs.registered
    | @add m promise q _ ht _ _ _ hrecord =>
      intro id m' c hmem
      rw [hrecord, List.mem_append, List.mem_singleton] at hmem
      rcases hmem with hmem | hmem
      · exact hs.registered id m' c hmem
      · cases hmem
        exact hs.queued _ (ht.threadLoop ▸ List.mem_cons_self) m c rfl
    | remove _ _ _ hrecord => exact hother (fun _ _ _ => Event.noConfusion) hrecord
    | save _ _ _ _ _ hrecord => exact hother (fun _ _ _ => Event.noConfusion) hrecord

/-- A module linked to a client has no callback. -/
theorem callback_of_image {s : Instance} (hkept : s.Kept) (hserved : Hub.Served (-1) s.hub)
    (himaged : s.Imaged) {id : Int32} {m : Module} {x : Int32 × ClientId}
    (hm : s.modules.find? id = some m) (hx : s.remoteModules.find? id = some x) :
    m.callback = none := by
  obtain ⟨m₀, hm₀, hkeeps⟩ := hkept.kept hm
  obtain ⟨e, he, hreg⟩ := List.exists_of_findSome?_eq_some hm₀
  obtain ⟨promise, rfl⟩ : ∃ promise, e = .registered id promise m₀ := by
    cases e with
    | registered id' promise m' =>
      rw [Event.registration?] at hreg
      split_ifs at hreg with hid
      cases hreg
      exact ⟨promise, by rw [hid]⟩
    | _ => cases hreg
  -- It is the client's, hence registered for it.
  obtain ⟨-, v, hv⟩ := hserved.held ⟨x.1, .inl hx⟩
  have hmem : (id, promise.client?, m₀.shape) ∈ s.hub.registered :=
    List.mem_filterMap.2 ⟨_, (List.mem_filter.1 he).1, rfl⟩
  have howner := hserved.unique hmem hv
  cases promise with
  | handler c => exact hkeeps.saved.callback.trans (himaged.registered id m₀ c he)
  | _ => cases howner

/-- A step of an instance that has a role, or a connection, keeps it. -/
theorem Transition.keepsConnection {s s' : Instance} {a : Action} (h : Transition s a s') :
    (s.server = true → s'.server = true) ∧
      (s.client.isSome → s.proxyInitialized = true →
        s'.client.isSome ∧ s'.proxyInitialized = true) := by
  cases h.role with
  | keep hsame =>
    rw [hsame.server, hsame.client, hsame.proxyInitialized]
    exact ⟨id, And.intro⟩
  | tell _ _ hs' =>
    subst hs'
    exact ⟨id, And.intro⟩
  | connect hp _ hs' =>
    subst hs'
    exact ⟨id, fun _ hp' => absurd (hp.symm.trans hp') Bool.false_ne_true⟩
  | serve hp _ hs' =>
    subst hs'
    exact ⟨fun _ => rfl, fun _ hp' => absurd (hp.symm.trans hp') Bool.false_ne_true⟩

theorem eq_closed_of_label {a : Action} {c : ClientId} (h : a.label = .close c) :
    a = .closed c := by
  cases a with
  | closed c' =>
    cases h
    rfl
  | _ => cases h

namespace Network

variable {ι : Type}

/-! ## The instances connected -/

/-- The host, or another instance. -/
def node (n : Network ι) : Option ι → Instance
  | none => n.host
  | some p => n.inst p

/-- What is known of the instances connected. -/
structure Joined (n : Network ι) : Prop where
  kept : n.host.Kept
  served : Hub.Served (-1) n.host.hub
  imaged : n.host.Imaged
  opened : ∀ {p c}, n.conn p = some c → n.host.server = true ∧ n.host.hub.Open c
  client : ∀ {p c}, n.conn p = some c →
    (n.inst p).client.isSome ∧ (n.inst p).proxyInitialized = true
  inj : ∀ {p q c}, n.conn p = some c → n.conn q = some c → p = q

variable {n n' : Network ι}

/-- A step of the host. -/
theorem Joined.host_step (hn : n.Joined) {a : Sacs.Action} {host : Instance}
    (h : Transition n.host a host) : host.Kept ∧ Hub.Served (-1) host.hub ∧ host.Imaged ∧
      ∀ {p c}, n.conn p = some c → a ≠ .closed c → host.server = true ∧ host.hub.Open c := by
  have hhub := h.hub hn.kept.fresh
  refine ⟨hn.kept.step h, hn.served.step hhub, hn.imaged.step h, fun {p c} hp ha => ?_⟩
  obtain ⟨hserver, hopen⟩ := hn.opened hp
  refine ⟨h.keepsConnection.1 hserver, (hhub.open_iff (fun hpc => ?_) c).2 (.inl ⟨hopen, ?_⟩)⟩
  · exact hn.served.busy (by simp [hpc])
  · exact fun hlabel => ha (eq_closed_of_label hlabel)

variable [DecidableEq ι]

theorem Joined.step {a : Action ι} (hn : n.Joined) (h : n.Moves a n') : n'.Joined := by
  have hclient : ∀ {p q c b s}, Transition (n.inst p) b s → n.conn q = some c →
      (Function.update n.inst p s q).client.isSome ∧
        (Function.update n.inst p s q).proxyInitialized = true := by
    intro p q c b s h hq
    rw [Function.update_apply]
    split_ifs with he
    · subst he
      exact h.keepsConnection.2 (hn.client hq).1 (hn.client hq).2
    · exact hn.client hq
  cases h with
  | host ha h =>
    obtain ⟨hkept, hserved, himaged, hopened⟩ := hn.host_step h
    refine ⟨hkept, hserved, himaged, fun hp => hopened hp ?_, hn.client, hn.inj⟩
    rintro rfl
    cases ha
  | inst _ h =>
    exact ⟨hn.kept, hn.served, hn.imaged, hn.opened, fun hq => hclient h hq, hn.inj⟩
  | @connect p c host s hp hhost h =>
    obtain ⟨hkept, hserved, himaged, hopened⟩ := hn.host_step hhost
    -- The host accepts a client that it does not know, so no instance is connected as it.
    have hfree : ∀ q, n.conn q ≠ some c := by
      intro q hq
      cases hhost with
      | accept _ hc _ =>
        exact Bool.false_ne_true ((congrArg Option.isSome hc).symm.trans (hn.opened hq).2.1)
    refine ⟨hkept, hserved, himaged, fun {q c'} hq => ?_, fun {q c'} hq => ?_,
      fun {q q' c'} hq hq' => ?_⟩
    · rcases conn_of_connect hq with ⟨-, rfl⟩ | ⟨-, hq⟩
      · refine ⟨?_, ((hhost.hub hn.kept.fresh).open_iff (fun hpc => ?_) _).2 (.inr rfl)⟩
        · cases hhost with
          | accept hserver => exact hserver
        · exact hn.served.busy (by simp [hpc])
      · exact hopened hq Sacs.Action.noConfusion
    · rcases conn_of_connect hq with ⟨rfl, -⟩ | ⟨hqp, hq⟩
      · cases h with
        | connectingAgain hp' => exact absurd (hp.symm.trans hp') Bool.false_ne_true
        | connectingProxy =>
          exact ⟨by simp [setInst, Instance.post], by simp [setInst, Instance.post]⟩
      · simpa [setInst, Function.update_of_ne hqp] using hn.client hq
    · rcases conn_of_connect hq with ⟨rfl, rfl⟩ | ⟨-, h₁⟩ <;>
        rcases conn_of_connect hq' with ⟨hq₂, hc⟩ | ⟨-, h₂⟩
      · exact hq₂.symm
      · exact absurd h₂ (hfree _)
      · exact absurd (hc ▸ h₁) (hfree _)
      · exact hn.inj h₁ h₂
  | @deliverUp p c msg sent host hp hc h =>
    obtain ⟨hkept, hserved, himaged, hopened⟩ := hn.host_step h
    refine ⟨hkept, hserved, himaged, fun hq => hopened hq Sacs.Action.noConfusion,
      fun {q c'} hq => ?_, hn.inj⟩
    by_cases he : q = p
    · subst he
      simpa [setInst] using (hn.client hq).2
    · simpa [setInst, Function.update_of_ne he] using hn.client hq
  | @deliverDown p c msg sent s hp hc h =>
    -- The host only loses a message that it has sent, which its hub does not see.
    have hhub : ({ n.host with clients := Function.update n.host.clients c (some sent) } :
        Instance).hub = n.host.hub := by
      refine hub_congr rfl (fun _ => rfl) rfl (fun c' => ?_) (fun _ => rfl) rfl ⟨[], by simp⟩
      change (Function.update n.host.clients c (some sent) c').isSome = (n.host.clients c').isSome
      rw [Function.update_apply]
      split_ifs with he
      · rw [he, hc]
        rfl
      · rfl
    refine ⟨⟨hn.kept.fresh, hn.kept.unused, hn.kept.kept⟩, ?_,
      ⟨hn.imaged.queued, hn.imaged.registered⟩, ?_, fun hq => hclient h hq, hn.inj⟩
    · rw [hhub]
      exact hn.served
    · intro q c' hq
      change n.host.server = true ∧ (Instance.hub _).Open c'
      rw [hhub]
      exact hn.opened hq
  | @disconnect p c host hp h =>
    obtain ⟨hkept, hserved, himaged, hopened⟩ := hn.host_step h
    refine ⟨hkept, hserved, himaged, fun {q c'} hq => ?_,
      fun hq => hn.client (conn_disconnect.1 hq).2,
      fun hq hq' => hn.inj (conn_disconnect.1 hq).2 (conn_disconnect.1 hq').2⟩
    obtain ⟨hne, hq⟩ := conn_disconnect.1 hq
    -- The client closed is that of one instance only.
    refine hopened hq fun hclosed => ?_
    cases hclosed
    exact hne (hn.inj hq hp)

theorem joined_of_runs {as : List (Action ι)} (h : Lts.Run Steps {} as n) : n.Joined := by
  refine h.invariant ?_ fun _ _ _ hn hst => hn.step (moves_of_step hst)
  refine ⟨kept_of_runs .nil, served_init, ⟨fun t ht => ?_, fun id m c hm => ?_⟩,
    fun hp => ?_, fun hp => ?_, fun hp => ?_⟩
  · cases ht
  · cases hm
  all_goals cases hp

/-! ## The queues -/

/-- The loop thread of `x` runs a task. -/
def Action.isTaskOf (x : Option ι) : Action ι → Bool
  | .host a => x = none ∧ a.isTask
  | .inst p a => x = some p ∧ a.isTask
  | _ => false

/-- The instance reads a message of the host. -/
def Action.isDeliveryTo (p : ι) : Action ι → Bool
  | .deliverDown q => q = p
  | _ => false

/-- What an action does to one of the instances, or to the host. -/
theorem Moves.node {a : Action ι} (h : n.Moves a n') (x : Option ι) :
    (a.isTaskOf x = false ∧ (n'.node x).threadLoop = (n.node x).threadLoop) ∨
      ∃ b, a.isTaskOf x = b.isTask ∧ Transition (n.node x) b (n'.node x) := by
  cases h with
  | @host b host _ h =>
    cases x with
    | none => exact .inr ⟨b, by simp [Action.isTaskOf], h⟩
    | some q => exact .inl ⟨by simp [Action.isTaskOf], rfl⟩
  | @inst p b s _ h =>
    cases x with
    | none => exact .inl ⟨by simp [Action.isTaskOf], rfl⟩
    | some q =>
      by_cases he : q = p
      · subst he
        exact .inr ⟨b, by simp [Action.isTaskOf], by simpa [Network.node] using h⟩
      · refine .inl ⟨by simp [Action.isTaskOf, he], ?_⟩
        simp [Network.node, he]
  | @connect p c host s _ hhost h =>
    cases x with
    | none => exact .inr ⟨_, rfl, hhost⟩
    | some q =>
      by_cases he : q = p
      · subst he
        exact .inr ⟨_, rfl, by simpa [Network.node] using h⟩
      · exact .inl ⟨rfl, by simp [Network.node, he]⟩
  | @deliverUp p c msg sent host _ _ h =>
    cases x with
    | none => exact .inr ⟨_, rfl, h⟩
    | some q =>
      by_cases he : q = p
      · subst he
        exact .inl ⟨rfl, by simp [Network.node]⟩
      · exact .inl ⟨rfl, by simp [Network.node, he]⟩
  | @deliverDown p c msg sent s _ _ h =>
    cases x with
    | none => exact .inl ⟨rfl, rfl⟩
    | some q =>
      by_cases he : q = p
      · subst he
        exact .inr ⟨_, rfl, by simpa [Network.node] using h⟩
      · exact .inl ⟨rfl, by simp [Network.node, he]⟩
  | @disconnect p c host _ h =>
    cases x with
    | none => exact .inr ⟨_, rfl, h⟩
    | some q => exact .inl ⟨rfl, rfl⟩

theorem fifo_threadLoop (x : Option ι) :
    Lts.Fifo (fun n : Network ι => (n.node x).threadLoop) (Action.isTaskOf x) Steps := by
  intro n a n' hst
  rcases (moves_of_step hst).node x with ⟨hpop, hq⟩ | ⟨b, hb, h⟩
  · exact .inr ⟨hpop, [], hq.trans (List.append_nil _).symm⟩
  · rw [hb]
    exact h.fifo

/-- The steps as long as the instance stays connected. -/
abbrev StepsWith (p : ι) : Network ι → Action ι → Network ι → Prop :=
  Lts.Under (fun _ a => ∀ q, a = .disconnect q → q ≠ p) Steps

/-- The instance is connected as this client. -/
def JoinedAs (p : ι) (c : ClientId) (n : Network ι) : Prop := n.Joined ∧ n.conn p = some c

theorem JoinedAs.step {p : ι} {c : ClientId} {a : Action ι} (hn : JoinedAs p c n)
    (h : StepsWith p n a n') : JoinedAs p c n' := by
  have hmoves := moves_of_step h.2
  refine ⟨hn.1.step hmoves, ?_⟩
  cases hmoves with
  | @connect q _ _ _ hq =>
    refine (Function.update_of_ne ?_ ..).trans hn.2
    rintro rfl
    exact Bool.false_ne_true (hq.symm.trans (hn.1.client hn.2).2)
  | @disconnect q => exact (Function.update_of_ne (h.1 q rfl).symm ..).trans hn.2
  | _ => exact hn.2

/-- The messages of the host to an instance are read in order. -/
theorem fifo_clients (p : ι) (c : ClientId) :
    Lts.Fifo (fun n : Network ι => (n.host.clients c).getD []) (Action.isDeliveryTo p)
      (Lts.Under (fun n _ => JoinedAs p c n) (StepsWith p)) := by
  intro n a n' hst
  obtain ⟨hn, hst⟩ := hst
  obtain ⟨hn', hp'⟩ := hn.step hst
  have hconnected : ∀ {m : Network ι}, m.Joined → m.conn p = some c →
      ∃ out, m.host.clients c = some out :=
    fun hm hp => Option.isSome_iff_exists.1 (hm.opened hp).2.1
  obtain ⟨out, hout⟩ := hconnected hn.1 hn.2
  obtain ⟨out', hout'⟩ := hconnected hn' hp'
  have hhost : ∀ {b : Sacs.Action}, Transition n.host b n'.host →
      ∃ xs, (n'.host.clients c).getD [] = (n.host.clients c).getD [] ++ xs := by
    intro b h
    rw [hout, hout']
    rcases h.sends hout hout' with rfl | ⟨_, _, msg, -, -, rfl⟩
    · exact ⟨[], (List.append_nil _).symm⟩
    · exact ⟨[msg], rfl⟩
  cases moves_of_step hst.2 with
  | host _ h => exact .inr ⟨rfl, hhost h⟩
  | inst => exact .inr ⟨rfl, [], (List.append_nil _).symm⟩
  | connect _ h => exact .inr ⟨rfl, hhost h⟩
  | deliverUp _ _ h => exact .inr ⟨rfl, hhost h⟩
  | @deliverDown q c' msg sent _ hq hc =>
    by_cases he : q = p
    · subst he
      cases hq.symm.trans hn.2
      refine .inl ⟨by simp [Action.isDeliveryTo], msg, ?_⟩
      simp [hc]
    · refine .inr ⟨by simp [Action.isDeliveryTo, he], [], ?_⟩
      have hne : c ≠ c' := by
        rintro rfl
        exact he (hn.1.inj hq hn.2)
      simp [Function.update_of_ne hne]
  | disconnect _ h => exact .inr ⟨rfl, hhost h⟩

/-! ## A request -/

/-- The task last queued for `x` in `n` is the next one in `n'`. -/
structure TaskDue (n : Network ι) (x : Option ι) (as : List (Action ι)) (n' : Network ι) :
    Prop where
  run : Lts.Run Steps n as n'
  before : as.countP (Action.isTaskOf x) + 1 = (n.node x).threadLoop.length
  idle : (n'.node x).loop = .idle

/-- The message last sent to the instance in `n` is the next one it reads in `n'`. -/
structure DeliveryDue (n : Network ι) (p : ι) (c : ClientId) (as : List (Action ι))
    (n' : Network ι) : Prop where
  run : Lts.Run (StepsWith p) n as n'
  before : (n.host.clients c).map List.length = some (as.countP (Action.isDeliveryTo p) + 1)

omit [DecidableEq ι] in
/-- One callback is called, in `x`. -/
def Calls (n : Network ι) (x : Option ι) (inv : Invocation) (n' : Network ι) : Prop :=
  (n'.node x).invocations = (n.node x).invocations ++ [inv] ∧
    ∀ y, y ≠ x → (n'.node y).invocations = (n.node y).invocations

/-- No callback is called. -/
def CallsNone (n n' : Network ι) : Prop := ∀ x, (n'.node x).invocations = (n.node x).invocations

/-- One message is sent, to the client. -/
def Sends (n : Network ι) (c : ClientId) (n' : Network ι) : Prop :=
  ∃ msg, n'.inst = n.inst ∧ n'.host.clients =
    Function.update n.host.clients c ((n.host.clients c).map (· ++ [msg]))

theorem TaskDue.takes {x : Option ι} {as : List (Action ι)} (h : n.TaskDue x as n') {t : Task}
    {q : List Task} (ht : (n.node x).threadLoop = q ++ [t]) : ∃ q', Takes (n'.node x) t q' := by
  have hcount : as.countP (Action.isTaskOf x) = q.length := by
    have := h.before
    rw [ht, List.length_append, List.length_singleton] at this
    omega
  obtain ⟨q', hq'⟩ := (fifo_threadLoop x).last h.run ht hcount
  exact ⟨q', h.idle, hq'⟩

theorem DeliveryDue.reads {p : ι} {c : ClientId} {as : List (Action ι)}
    (h : n.DeliveryDue p c as n') (hn : JoinedAs p c n) {out : List Text} {msg : Text}
    (hc : n.host.clients c = some (out ++ [msg])) :
    JoinedAs p c n' ∧ ∃ rest, n'.host.clients c = some (msg :: rest) := by
  have hcount : as.countP (Action.isDeliveryTo p) = out.length := by
    have := h.before
    rw [hc, Option.map_some, Option.some.injEq, List.length_append, List.length_singleton] at this
    omega
  have hn' : JoinedAs p c n' := h.run.invariant hn fun _ _ _ hm hst => hm.step hst
  have hrun := h.run.under_invariant hn fun _ _ _ hm hst => hm.step hst
  have hqueue : (n.host.clients c).getD [] = out ++ [msg] := by rw [hc, Option.getD_some]
  obtain ⟨rest, hrest⟩ := (fifo_clients p c).last hrun hqueue hcount
  obtain ⟨out', hout'⟩ := Option.isSome_iff_exists.1 (hn'.1.opened hn'.2).2.1
  rw [hout', Option.getD_some] at hrest
  exact ⟨hn', rest, hrest ▸ hout'⟩

omit [DecidableEq ι] in
theorem callsNone_host {host : Instance} (h : host.invocations = n.host.invocations) :
    n.CallsNone { n with host } := by
  intro x
  cases x with
  | none => exact h
  | some p => rfl

omit [DecidableEq ι] in
theorem calls_host {host : Instance} {inv : Invocation}
    (h : host.invocations = n.host.invocations ++ [inv]) : n.Calls none inv { n with host } := by
  refine ⟨h, fun x hx => ?_⟩
  cases x with
  | none => exact absurd rfl hx
  | some p => rfl

theorem callsNone_inst {p : ι} {s : Instance} (h : s.invocations = (n.inst p).invocations) :
    n.CallsNone (n.setInst p s) := by
  intro x
  cases x with
  | none => rfl
  | some q =>
    by_cases he : q = p
    · subst he
      simpa [node] using h
    · simp [node, he]

theorem calls_inst {p : ι} {s : Instance} {inv : Invocation}
    (h : s.invocations = (n.inst p).invocations ++ [inv]) :
    n.Calls (some p) inv (n.setInst p s) := by
  refine ⟨by simpa [node] using h, fun x hx => ?_⟩
  cases x with
  | none => rfl
  | some q =>
    have he : q ≠ p := fun e => hx (congrArg some e)
    simp [node, he]

/-- The updates of the module `id`, whose request the loop thread of the host is about to
    run, reach this module and no other. -/
structure Routed (n : Network ι) (id : Int32) (ps : Updates) : Prop where
  /-- A module of the application of the host. -/
  own : ∀ {m callback}, n.host.modules.find? id = some m → Module.InRange ps m.properties.length →
    m.callback = some callback → ∃ n', n.step (.host .task) = .ok n' ∧
      n.Calls none ⟨callback, id, ps.map Prod.fst, ps.map Prod.snd⟩ n' ∧
      n'.inst = n.inst ∧ n'.host.clients = n.host.clients
  /-- An image of the module `r` of the instance `p`: the updates are sent to this, which
      reads them in turn, and runs them in turn. -/
  image : ∀ {m p c r}, n.host.modules.find? id = some m → Module.InRange ps m.properties.length →
    n.host.remoteModules.find? id = some (r, c) → n.conn p = some c →
    ∃ n₁, n.step (.host .task) = .ok n₁ ∧ n.CallsNone n₁ ∧ n.Sends c n₁ ∧
      ∀ as n₂, n₁.DeliveryDue p c as n₂ →
        ∃ n₃, n₂.step (.deliverDown p) = .ok n₃ ∧ n₂.CallsNone n₃ ∧
          ∀ bs n₄, n₃.TaskDue (some p) bs n₄ →
            (∀ m' callback, (n₄.inst p).modules.find? r = some m' → m'.callback = some callback →
              ∃ n₅, n₄.step (.inst p .task) = .ok n₅ ∧
                n₄.Calls (some p) ⟨callback, r, ps.map Prod.fst, ps.map Prod.snd⟩ n₅) ∧
            ((n₄.inst p).modules.find? r = none →
              ∃ n₅, n₄.step (.inst p .task) = .ok n₅ ∧ n₄.CallsNone n₅)
  /-- In every case. -/
  others : ∀ {n'}, n.step (.host .task) = .ok n' → n.CallsNone n' ∨
    ∃ m callback, n.host.modules.find? id = some m ∧ m.callback = some callback ∧
      n.Calls none ⟨callback, id, ps.map Prod.fst, ps.map Prod.snd⟩ n'

section Requests

variable {id : Int32} {ps : Updates} {hutf8 : (applyRequest id ps).isUtf8 = true} {json : JsonMsg}
  {w : ClientId} {q : List Task} (hn : n.Joined)
  (hjson : parse (.json (applyRequest id ps) hutf8) = .ok json)
  (ht : Takes n.host (.doProcessJSRequest json w) q) (hne : ps ≠ []) (hnul : ∀ u ∈ ps, 0 ∉ u.2)

include hnul in
omit [DecidableEq ι] in
theorem cStrings_eq : (ps.map fun u => u.2.cString) = ps.map Prod.snd :=
  List.map_congr_left fun u hu => Str.cString_eq (hnul u hu)

omit [DecidableEq ι] in
theorem exists_save_of_inRange {m : Module} (m' : Module)
    (hps : Module.InRange ps m.properties.length) :
    ∃ m₁, m'.save ps = .ok m₁ := by
  refine Module.exists_save fun u hu => ?_
  have := (hps u hu).1
  rwa [Int32.le_iff_toInt_le] at this

theorem step_host_task {host : Instance} (h : n.host.step .task = .ok host) :
    n.step (.host .task) = .ok { n with host } := by
  have htask : Sacs.Action.task.ofHost = true := rfl
  rw [Network.step, if_pos htask, h]
  rfl

theorem step_inst_task {p : ι} {s : Instance} (h : (n.inst p).step .task = .ok s) :
    n.step (.inst p .task) = .ok (n.setInst p s) := by
  have htask : Sacs.Action.task.isLocal = true := rfl
  rw [Network.step, if_pos htask, h]
  rfl

include hjson ht hne hnul

/-- The callback of a module of the host is called. -/
theorem exists_calls {m : Module} {callback : Callback} (hm : n.host.modules.find? id = some m)
    (hps : Module.InRange ps m.properties.length) (hcb : m.callback = some callback) :
    ∃ n', n.step (.host .task) = .ok n' ∧
      n.Calls none ⟨callback, id, ps.map Prod.fst, ps.map Prod.snd⟩ n' ∧
      n'.inst = n.inst ∧ n'.host.clients = n.host.clients := by
  obtain ⟨json₀, hjson₀, htype, hid, hlist, -⟩ := @parse_applyRequest id ps hutf8
  cases hjson.symm.trans hjson₀
  obtain ⟨m', hm'⟩ := exists_save_of_inRange m hps
  have hstep := exists_apply ht ⟨htype, hid, by rw [hlist]; rfl⟩ hm hne hm' hcb
  refine ⟨_, step_host_task hstep, calls_host ?_, rfl, rfl⟩
  rw [Instance.invocations_applied, cStrings_eq hnul]
  rfl

omit hne in
/-- In every case, no other callback is called. -/
theorem calls_of_step {n' : Network ι} (hst : n.step (.host .task) = .ok n') : n.CallsNone n' ∨
    ∃ m callback, n.host.modules.find? id = some m ∧ m.callback = some callback ∧
      n.Calls none ⟨callback, id, ps.map Prod.fst, ps.map Prod.snd⟩ n' := by
  obtain ⟨json₀, hjson₀, htype, hid, hlist, -⟩ := @parse_applyRequest id ps hutf8
  cases hjson.symm.trans hjson₀
  cases moves_of_step hst with
  | host _ h =>
    cases h with
    | taskApply ht' _ h =>
      cases (ht.inj ht').1
      have hsaved : ∀ {s₁ : Instance} {id ps}, s₁.trace = n.host.trace ++ [.saved id ps] →
          s₁.invocations = n.host.invocations := by
        intro s₁ id ps h
        rw [Instance.invocations, h, List.filterMap_append]
        exact List.append_nil _
      have hnone : ∀ {s₁ : Instance}, s₁.invocations = n.host.invocations →
          n.CallsNone { n with host := answer s₁ w emptyJson } := fun h =>
        callsNone_host ((invocations_answer ..).trans h)
      cases h with
      | nothing => exact .inl (hnone rfl)
      | unrouted => exact .inl (hnone (hsaved rfl))
      | sent => exact .inl (hnone (hsaved rfl))
      | invoked hid' hm hps _ _ hcb =>
        cases hid.symm.trans hid'
        cases hlist.symm.trans hps
        refine .inr ⟨_, _, hm, hcb, calls_host ?_⟩
        rw [← cStrings_eq hnul]
        exact Instance.invocations_applied _ id ps _ _ w
    | taskLoad ht' htype' =>
      cases (ht.inj ht').1
      rw [htype] at htype'
      cases htype'
    | taskOther ht' _ htype' =>
      cases (ht.inj ht').1
      exact absurd htype htype'
    | _ => exact Task.noConfusion (ht.inj ‹_›).1

include hn
omit hnul

/-- The updates of an image are sent to the instance of the module. -/
theorem exists_sends {m : Module} {p : ι} {c : ClientId} {r : Int32}
    (hm : n.host.modules.find? id = some m) (hps : Module.InRange ps m.properties.length)
    (himage : n.host.remoteModules.find? id = some (r, c)) (hp : n.conn p = some c) :
    ∃ n₁ out msg json', n.step (.host .task) = .ok n₁ ∧ n.CallsNone n₁ ∧ n₁.inst = n.inst ∧
      n₁.conn = n.conn ∧ n.host.clients c = some out ∧
      n₁.host.clients = Function.update n.host.clients c (some (out ++ [msg])) ∧
      parse msg = .ok json' ∧ json'.Carries .reqApply r ps := by
  obtain ⟨hserver, hopen⟩ := hn.opened hp
  obtain ⟨out, hout⟩ := Option.isSome_iff_exists.1 hopen.1
  obtain ⟨m', hm'⟩ := exists_save_of_inRange m hps
  obtain ⟨host, msg, json', hstep, hinvs, hclients, hparse, hcarries⟩ :=
    exists_route hjson ht hm hne hm'
      (callback_of_image hn.kept hn.served hn.imaged hm himage) hserver himage hout
  exact ⟨_, out, msg, json', step_host_task hstep, callsNone_host hinvs, rfl, rfl, hout, hclients,
    hparse, hcarries⟩

end Requests

/-- A request sent on is read by the instance, which posts it, and calls nothing. -/
theorem exists_reads {p : ι} {c : ClientId} {msg : Text} {rest : List Text} {json : JsonMsg}
    (hn : JoinedAs p c n) (hc : n.host.clients c = some (msg :: rest))
    (hjson : parse msg = .ok json) :
    ∃ n', n.step (.deliverDown p) = .ok n' ∧ n.CallsNone n' ∧
      (n'.inst p).threadLoop = (n.inst p).threadLoop ++ [.passPropertyUpdateToModule json] := by
  have hread : (n.inst p).step (.proxyRead msg) =
      .ok ((n.inst p).post (.passPropertyUpdateToModule json)) := by
    rw [Instance.step, if_pos (hn.1.client hn.2).1, Proxy.onClientRead, hjson]
    rfl
  refine ⟨{ n.setInst p ((n.inst p).post (.passPropertyUpdateToModule json)) with
    host := { n.host with clients := Function.update n.host.clients c (some rest) } }, ?_, ?_, ?_⟩
  · rw [Network.step]
    simp only [hn.2, hc, hread]
    rfl
  · intro x
    cases x with
    | none => rfl
    | some q =>
      exact callsNone_inst (s := (n.inst p).post (.passPropertyUpdateToModule json)) rfl (some q)
  · simp [Instance.post]

/-- A request to apply updates is posted by the host, and calls nothing. -/
theorem exists_wsRequest {w : ClientId} {id : Int32} {ps : Updates}
    {hutf8 : (applyRequest id ps).isUtf8 = true} {json : JsonMsg}
    (hjson : parse (.json (applyRequest id ps) hutf8) = .ok json)
    (hw : (n.host.wsClients w).isSome) (hidle : n.host.web w = .idle) :
    ∃ n₁, n.step (.host (.wsMessage w ⟨.json (applyRequest id ps) hutf8, false⟩)) = .ok n₁ ∧
      n.CallsNone n₁ ∧ n₁.inst = n.inst ∧ n₁.host.clients = n.host.clients ∧
      n₁.host.threadLoop = n.host.threadLoop ++ [.doProcessJSRequest json w] := by
  have hvalid : json.isValid = true := by
    cases hjson
    rfl
  refine ⟨{ n with
    host := ServerImpl.setWeb (n.host.post (.doProcessJSRequest json w)) w .waiting },
    ?_, callsNone_host rfl, rfl, rfl, rfl⟩
  rw [Network.step, if_pos (by rfl), Instance.step_wsMessage _ hw hidle,
    ServerImpl.onWsClientMessage, if_neg Bool.false_ne_true, hjson, bind_ok, hvalid]
  rfl

/-- A large request changes nothing. -/
theorem step_large {w : ClientId} (text : Text) (hw : (n.host.wsClients w).isSome)
    (hidle : n.host.web w = .idle) : n.step (.host (.wsMessage w ⟨text, true⟩)) = .ok n := by
  rw [Network.step, if_pos (by rfl), Instance.step_wsMessage_large _ hw hidle]
  rfl

/-- In every state reached, a request to apply updates is run by the host in its turn, and
    the updates reach the module they are for, and no other. A large request is dropped. -/
theorem routed_of_runs {as : List (Action ι)} (h : Lts.Run Steps {} as n)
    {w : ClientId} {id : Int32} {ps : Updates} (hutf8 : (applyRequest id ps).isUtf8 = true)
    (hne : ps ≠ []) (hnul : ∀ u ∈ ps, 0 ∉ u.2)
    (hw : (n.host.wsClients w).isSome) (hidle : n.host.web w = .idle) :
    (∃ n₁, n.step (.host (.wsMessage w ⟨.json (applyRequest id ps) hutf8, false⟩)) = .ok n₁ ∧
      n.CallsNone n₁ ∧ n₁.inst = n.inst ∧ n₁.host.clients = n.host.clients ∧
      ∀ bs n₂, n₁.TaskDue none bs n₂ → n₂.Routed id ps) ∧
    n.step (.host (.wsMessage w ⟨.json (applyRequest id ps) hutf8, true⟩)) = .ok n := by
  obtain ⟨json, hjson, -⟩ := @parse_applyRequest id ps hutf8
  obtain ⟨n₁, hreq, hnone, hinst₁, hclients₁, hposts⟩ := exists_wsRequest hjson hw hidle
  refine ⟨⟨n₁, hreq, hnone, hinst₁, hclients₁, fun bs n₂ hdue => ?_⟩, step_large _ hw hidle⟩
  obtain ⟨q, ht⟩ := hdue.takes (x := none) hposts
  have hn₂ : n₂.Joined := joined_of_runs ((h.snoc hreq).append hdue.run)
  refine ⟨fun hm hps hcb => exists_calls hjson ht hne hnul hm hps hcb, ?_,
    fun hst => calls_of_step hjson ht hnul hst⟩
  intro m p c r hm hps himage hp
  obtain ⟨n₃, out, msg, json', hst, hcalls, hinst, hconn, hout, hclients, hparse, hcarries⟩ :=
    exists_sends hn₂ hjson ht hne hm hps himage hp
  have hn₃ : JoinedAs p c n₃ := ⟨hn₂.step (moves_of_step hst), hconn ▸ hp⟩
  have hlast : n₃.host.clients c = some (out ++ [msg]) := by
    rw [hclients, Function.update_self]
  refine ⟨n₃, hst, hcalls, ⟨msg, hinst, by rw [hclients, hout]; rfl⟩, fun cs n₄ hdelivery => ?_⟩
  obtain ⟨hn₄, rest, hrest⟩ := hdelivery.reads hn₃ hlast
  obtain ⟨n₅, hst₅, hcalls₅, hposts₅⟩ := exists_reads hn₄ hrest hparse
  refine ⟨n₅, hst₅, hcalls₅, fun ds n₆ hdue₆ => ?_⟩
  obtain ⟨q₆, ht₆⟩ := hdue₆.takes (x := some p) hposts₅
  refine ⟨fun m' callback hm' hcb => ?_, fun hm' => ?_⟩
  · obtain ⟨m'', hm''⟩ := exists_save_of_inRange m' hps
    obtain ⟨s, hs, hinvs⟩ := exists_pass ht₆ hcarries hm' hne hm'' hcb
    exact ⟨_, step_inst_task hs, calls_inst (by rw [hinvs, cStrings_eq hnul]; rfl)⟩
  · exact ⟨_, step_inst_task (exists_pass_of_none ht₆ hcarries hm'), callsNone_inst rfl⟩

/-- An instance with a module connects, and a web client is connected to the host. -/
def imaging : List (Action Unit) :=
  [.host (.connecting false), .host .task, .host .flush,
    .inst () (.registerModule (Str.lit "Lamp") [⟨1, Str.lit "On", Str.lit "0", false⟩] (some 5)),
    .inst () .task, .connect () 7, .inst () .task, .inst () .flush, .inst () .flush,
    .deliverUp (), .host .task, .host (.resume 7), .host (.wsConnected 3)]

theorem isUtf8_switch : (applyRequest 0 [(0, Str.lit "1")]).isUtf8 = true := rfl

/-- The image of the lamp. -/
def lampImage : Module := ⟨0, Str.lit "Lamp", [⟨1, Str.lit "On", Str.lit "0", false⟩], none⟩

theorem exists_imaging : ∃ n : Network Unit, Lts.Run Steps {} imaging n ∧ n.conn () = some 7 ∧
    n.host.remoteModules.find? 0 = some (0, 7) ∧
    n.host.modules.find? 0 = some lampImage ∧ (n.host.wsClients 3).isSome ∧
    n.host.web 3 = .idle ∧ n.host.threadLoop = [] ∧ n.host.loop = .idle := by
  obtain ⟨n, hrun, hobs⟩ := Lts.exists_run_of_foldlM step {} imaging
    (fun n : Network Unit => decide (n.conn () = some 7 ∧
      n.host.remoteModules.find? 0 = some (0, 7) ∧
      n.host.modules.find? 0 = some lampImage ∧ (n.host.wsClients 3).isSome ∧
      (n.host.web 3).isIdle ∧ n.host.threadLoop.length = 0 ∧ n.host.loop.isIdle)) true
    (by decide +kernel)
  simp only [decide_eq_true_eq] at hobs
  obtain ⟨hconn, himage, hm, hw, hweb, hlen, hloop⟩ := hobs
  exact ⟨n, hrun, hconn, himage, hm, hw, WebPc.eq_idle hweb, List.length_eq_zero_iff.1 hlen,
    LoopPc.eq_idle hloop⟩

/-- The web client switches the lamp on. -/
theorem routed_of_imaging : ∃ n n₁ : Network Unit, Lts.Run Steps {} imaging n ∧
    n.step (.host (.wsMessage 3
      ⟨.json (applyRequest 0 [(0, Str.lit "1")]) isUtf8_switch, false⟩)) = .ok n₁ ∧
    n₁.Routed 0 [(0, Str.lit "1")] ∧ n₁.conn () = some 7 ∧
    n₁.host.remoteModules.find? 0 = some (0, 7) ∧ (n₁.host.modules.find? 0).isSome := by
  obtain ⟨n, hrun, hconn, himage, hm, hw, hidle, hq, hloop⟩ := exists_imaging
  obtain ⟨⟨n₁, hreq, -, -, -, hrouted⟩, -⟩ := routed_of_runs hrun isUtf8_switch
    (List.cons_ne_nil _ _) (by decide) hw hidle
  refine ⟨n, n₁, hrun, hreq, ?_⟩
  cases moves_of_step hreq with
  | host _ h =>
    cases h with
    | wsLarge _ _ hlarge => cases hlarge
    | wsRequest =>
      exact ⟨hrouted [] _ ⟨.nil, by simp [hq, node, Instance.post, ServerImpl.setWeb], hloop⟩,
        hconn, himage, Option.isSome_iff_exists.2 ⟨_, hm⟩⟩

theorem isUtf8_large (n : Nat) : (applyRequest 0 [(0, Str.letters n)]).isUtf8 = true :=
  isUtf8_applyRequest 0 fun u hu => by
    cases List.mem_singleton.1 hu
    exact Str.isUtf8_letters n

/-- The web client sets the lamp to 64 MiB of letters, which the network library keeps on the
    drive: the host does nothing at all. -/
theorem not_routed_of_large : ∃ n : Network Unit, Lts.Run Steps {} imaging n ∧
    n.conn () = some 7 ∧ n.host.remoteModules.find? 0 = some (0, 7) ∧
    n.host.modules.find? 0 = some lampImage ∧
    (∀ u ∈ [((0 : Int32), Str.letters (2 ^ 26))], 0 ∉ u.2) ∧
    n.step (.host (.wsMessage 3
      ⟨.json (applyRequest 0 [(0, Str.letters (2 ^ 26))]) (isUtf8_large _), true⟩)) = .ok n ∧
    n.host.threadLoop = [] ∧ ¬n.Routed 0 [(0, Str.letters (2 ^ 26))] := by
  obtain ⟨n, hrun, hconn, himage, hm, hw, hidle, hq, -⟩ := exists_imaging
  refine ⟨n, hrun, hconn, himage, hm, fun u hu => ?_, step_large _ hw hidle, hq,
    fun hrouted => ?_⟩
  · cases List.mem_singleton.1 hu
    exact Str.zero_notMem_letters _
  · have hrange : Module.InRange [((0 : Int32), Str.letters (2 ^ 26))] 1 := by
      intro u hu
      cases List.mem_singleton.1 hu
      exact ⟨by decide, by decide⟩
    obtain ⟨n₁, hst, -⟩ := hrouted.image hm hrange himage hconn
    cases moves_of_step hst with
    | host _ h =>
      obtain ⟨t, ht⟩ := h.takes
      exact absurd (hq.symm.trans ht.threadLoop) (List.cons_ne_nil _ _).symm

end Network

end Sacs
