import Sacs.Departures
import Sacs.Traffic

/-!
# What an instance publishes of a module

An instance that is not the host announces a module of it, and then its updates, to the
host (`Instance.Publishes`): the host finds the registration, with the properties that the
module is registered with, before every update.

* `Publishes.step` is the step lemma, for the actions of an instance on a network, and
  `Publishes.deliver` the one for a message that is delivered.
-/

namespace Sacs

open JsonMsg ModuleManager

variable {s s' : Instance} {a : Action} {r : Int32}

/-! ## The invariant -/

structure Instance.Publishes (s : Instance) (r : Int32) : Prop where
  kept : s.Kept
  idle : ∀ c, s.handler c = .idle
  web : ∀ w, ¬(s.wsClients w).isSome
  requests : ∀ {json w}, .doProcessJSRequest json w ∉ s.threadLoop
  caller : s.OneCaller r
  /-- Nothing is known of a module that is not registered yet. -/
  new : s.idCounter ≤ r → s.inbox r = [] ∧ s.outbox r = [] ∧ s.announced r = []
  added : 0 ≤ r → r < s.idCounter → ∃ v, .add r v ∈ s.changes
  /-- It is added before it is updated. -/
  preceded : 0 ≤ r → ∀ {before after}, s.handled = before ++ after →
    before.flatMap (·.updatesOf r) ≠ [] → ∃ v, .add r v ∈ before.filterMap Text.change?
  removed : r ∈ s.removals → GoneId s.modules s.idCounter r
  properties : ∀ {msg ps}, msg ∈ s.handled → msg.added? r = some ps →
    ∃ m, s.registration? r = some m ∧ m.properties = ps

/-- The application updates the module by one call at a time once it is registered, and its
    callback does not. -/
structure Instance.InTurn (s : Instance) (r : Int32) (a : Action) : Prop where
  call : ∀ {ps}, a = .updateProperties r ps →
    (s.modules.find? r).isSome ∧ ∀ call ∈ s.calls, call.1 ≠ r
  callback : ∀ {ps}, a ≠ .callbackUpdateProperties r ps

theorem Instance.InTurn.of_ne (hcall : ∀ id ps, a ≠ .updateProperties id ps)
    (hcallback : ∀ id ps, a ≠ .callbackUpdateProperties id ps) : s.InTurn r a :=
  ⟨fun h => absurd h (hcall _ _), fun h => hcallback _ _ h⟩

/-! ## Steps -/

/-- A module is registered by the task to do so. -/
theorem Transition.registers (h : Transition s .task s') {m : Module} {promise : Promise}
    {q : List Task} (ht : Takes s (.doRegisterModule m promise) q) :
    s'.record = s.record ++ [.registered s.idCounter promise (m.setId s.idCounter)] := by
  cases h with
  | taskRegister ht' _ _ h =>
    cases (ht.inj ht').1
    rw [record_fulfil, (handleMessage_emits h).record]
    exact record_edit rfl rfl
  | _ => cases (ht.inj ‹_›).1

/-- What an instance unregisters is gone, as it was registered. -/
theorem Transition.gone_of_unregisters (h : Transition s a s') (hp : Network.Peer s)
    (hown : Network.Unregisters s a) {id : Int32} (hu : s.Unregisters a id) :
    GoneId s'.modules s'.idCounter id := by
  have hlt : id < s.idCounter := by
    rcases hu with ⟨rfl, q, ht⟩ | rfl
    · exact (hp.hub.posted (jobs_take ht rfl ▸ List.mem_cons_self)).1
    · obtain ⟨v, hv⟩ := Network.registered_of_owns hown
      exact hp.hub.id_lt hv
  refine ⟨hlt.trans_le h.registry.counter_le, ?_⟩
  have hrecord := (h.departs hu).record
  cases h.edits with
  | keep _ _ hrecord' => simp [hrecord] at hrecord'
  | add _ _ _ _ _ hrecord' => simp [hrecord] at hrecord'
  | @remove id' _ hmodules _ hrecord' =>
    rw [hrecord, List.append_cancel_left_eq, List.cons.injEq, Event.unregistered.injEq] at hrecord'
    rw [hmodules, hrecord'.1, OrdMap.find?_erase, if_pos rfl]
  | save _ _ _ _ _ hrecord' => simp [hrecord] at hrecord'

/-- The calls are those before the step, and the one it makes. -/
theorem Transition.calls_sublist (h : Transition s a s') (ha : s.InTurn r a) :
    (s'.calls.filter fun c => c.1 = r).Sublist (s.calls.filter fun c => c.1 = r) ∨
      s'.OneCaller r := by
  have hkeep : s'.calls = s.calls →
      (s'.calls.filter fun c => c.1 = r).Sublist (s.calls.filter fun c => c.1 = r) ∨
        s'.OneCaller r := fun h => .inl (by rw [h])
  cases hloop : a.onLoop with
  | true => exact hkeep (h.announces_onLoop hloop fun _ => ha.callback).1
  | false =>
    cases h <;> simp only [Action.onLoop, reduceCtorEq] at hloop
    case updateProperties id ps =>
      by_cases hid : id = r
      · -- There is no other call.
        refine .inr ?_
        have hnone : (s.calls.filter fun c => c.1 = r) = [] :=
          List.filter_eq_nil_iff.2 fun c hc => by simpa using (ha.call (by rw [hid])).2 c hc
        rw [Instance.OneCaller, List.filter_append, hnone]
        exact List.length_filter_le ..
      · refine .inl ?_
        rw [List.filter_append, List.filter_cons_of_neg (by simpa using hid), List.filter_nil,
          List.append_nil]
    case announce => exact .inl ((List.eraseIdx_sublist ..).filter _)
    case announceThrows => exact .inl ((List.eraseIdx_sublist ..).filter _)
    all_goals exact hkeep rfl

/-- What the connection changes for the host. -/
theorem Transition.outbox_connecting (h : Transition s (.connecting true) s')
    (hp : s.proxyInitialized = false) (hclient : s.client = none) : s'.outbox r = s.outbox r := by
  cases h with
  | connectingAgain hp' => cases hp.symm.trans hp'
  | connectingProxy =>
    simp [Instance.outbox, Instance.undelivered, Instance.toTell, Instance.post, hclient,
      Task.announces]

/-- The actions of an instance on a network. -/
def Action.OfPeer (s : Instance) (a : Action) : Prop :=
  a.isLocal ∨ (∃ msg, a = .proxyRead msg) ∨ a = .connecting true ∧ s.proxyInitialized = false

namespace Instance.Publishes

variable (hs : s.Publishes r)

include hs

theorem request_eq : s.request r = [] := by
  rw [Instance.request]
  split
  · rename_i hq
    exact absurd (hq ▸ List.mem_cons_self) hs.requests
  · rfl

/-- No client of another instance is served. -/
theorem client_ne (h : Transition s a s') (ha : a.OfPeer s) (c : ClientId) :
    a.client? ≠ some c := by
  intro hc
  cases a with
  | read c' msg => rcases ha with ha | ⟨_, ha⟩ | ⟨ha, -⟩ <;> cases ha
  | closed c' => rcases ha with ha | ⟨_, ha⟩ | ⟨ha, -⟩ <;> cases ha
  | resume c' =>
    have hidle := hs.idle c'
    cases h with
    | resumeAdd hpc => cases hidle.symm.trans hpc
    | resumeUpdate hpc => cases hidle.symm.trans hpc
    | resumeClosing hpc => cases hidle.symm.trans hpc
    | resumeClosed hpc => cases hidle.symm.trans hpc
  | _ => cases hc

/-- A step adds the updates of a call to those for the host. -/
theorem outbox_step (hp : Network.Peer s) (h : Transition s a s') (ha : a.OfPeer s)
    (hup : s.InTurn r a) : s'.outbox r = s.outbox r ++ a.calls r := by
  by_cases hconn : a = .connecting true ∧ s.proxyInitialized = false
  · obtain ⟨rfl, hinit⟩ := hconn
    rw [h.outbox_connecting hinit (hp.proxying.unconnected hinit)]
    exact (List.append_nil _).symm
  · have hne : ∀ ok, a ≠ .connecting ok := by
      rintro ok rfl
      rcases ha with ha | ⟨_, ha⟩ | ha
      · cases ha
      · cases ha
      · exact hconn ha
    exact h.outbox hs.caller (by simp [hs.idle]) (fun _ => hup.callback)
      (h.uplinks hne hp.proxying.serverImpl) hp.queues (hp.queues.step h)

/-- The updates saved and to be saved, but for those that are brought. -/
theorem inbox_step (h : Transition s a s') (ha : a.OfPeer s) (hup : s.InTurn r a)
    (hgone : ¬GoneId s.modules s.idCounter r) :
    (a = .task ∧ ∃ ws, s.inbox r = ws ++ s'.inbox r ∧ s'.writes r = s.writes r ++ ws) ∨
      (a ≠ .task ∧ s'.inbox r = s.inbox r ++ a.brings r ∧ s'.writes r = s.writes r) := by
  by_cases htask : a = .task
  · subst htask
    refine .inl ⟨rfl, ?_⟩
    have hreg : (s.modules.find? r).isSome ∨ s.inbox r = [] ∧ s.request r = [] := by
      by_cases hr : s.idCounter ≤ r
      · exact .inr ⟨(hs.new hr).1, hs.request_eq⟩
      · refine .inl (Option.isSome_iff_ne_none.2 fun hnone => hgone ⟨not_le.1 hr, hnone⟩)
    rcases h.drains hreg with ⟨hne, -⟩ | ⟨-, hdrains⟩
    · exact absurd hs.request_eq hne
    · exact hdrains
  · refine .inr ⟨htask, h.inbox htask (fun _ => hup.callback) ?_, (h.fills htask fun _ =>
      hup.callback).1⟩
    rintro c msg rfl
    exact hs.client_ne h ha c rfl

theorem step (hp : Network.Peer s) (h : Transition s a s') (ha : a.OfPeer s)
    (hup : s.InTurn r a) (hown : Network.Unregisters s a)
    (hnew : s.idCounter ≤ r → a.brings r = []) : s'.Publishes r := by
  have hp' : s'.Announced := hp.announced.step h
  have hfeed := h.feed hp.announced.fresh hp.announced.posts
  have hcalls : s.idCounter ≤ r → a.calls r = [] := by
    intro hr
    cases a with
    | updateProperties id ps =>
      refine if_neg fun hid => ?_
      obtain ⟨m, hm⟩ := Option.isSome_iff_exists.1 (hup.call (by rw [hid.1])).1
      exact absurd (hp.announced.fresh.key hm).2.2 (not_lt.2 hr)
    | _ => rfl
  obtain ⟨msgs, hhandled, hmsgs⟩ :=
    h.tells hs.caller (by simp [hs.idle]) fun _ => hup.callback
  have hchanges : s'.changes = s.changes ++ msgs.filterMap Text.change? := by
    rw [Instance.changes, hhandled, List.filterMap_append, Instance.changes]
  constructor
  case kept => exact hs.kept.step h
  case idle => exact fun c => h.handler_idle (hs.idle c) (hs.client_ne h ha c)
  case web =>
    intro w hw
    rcases h.wsClients hw with hw | himpl
    · exact hs.web w hw
    · exact Bool.false_ne_true (hp.proxying.serverImpl.symm.trans himpl)
  case requests =>
    intro json w hmem
    refine h.forall_tasks (P := fun t => ∀ json w, t ≠ .doProcessJSRequest json w)
      (Q := fun t => ∀ json w, t ≠ .doProcessJSRequest json w)
      (fun t ht json w e => hs.requests (e ▸ ht)) (fun _ => id) (fun ts hts => ?_) _ hmem json w rfl
    cases hts with
    | wsRequest hw => exact absurd hw (hs.web _)
    | _ => simp
  case caller =>
    rcases h.calls_sublist hup with hsub | hone
    · exact hsub.length_le.trans hs.caller
    · exact hone
  case new =>
    intro hr
    have hr₀ : s.idCounter ≤ r := h.registry.counter_le.trans hr
    obtain ⟨hinbox, houtbox, hannounced⟩ := hs.new hr₀
    have htell : s.toTell r = [] := (List.append_eq_nil_iff.1 houtbox).2
    rw [htell, hcalls hr₀, List.append_nil, List.append_eq_nil_iff] at hmsgs
    refine ⟨?_, by rw [hs.outbox_step hp h ha hup, houtbox, hcalls hr₀, List.append_nil], ?_⟩
    · rcases hs.inbox_step h ha hup fun hgone => not_lt.2 hr₀ hgone.1 with
        ⟨-, ws, hws, -⟩ | ⟨-, hbrings, -⟩
      · rw [hinbox] at hws
        exact (List.append_eq_nil_iff.1 hws.symm).2
      · rw [hbrings, hinbox, hnew hr₀, List.append_nil]
    · rw [Instance.announced, hhandled, List.flatMap_append, hmsgs.1, List.append_nil]
      exact hannounced
  case added =>
    intro hpos hlt
    by_cases hr : r < s.idCounter
    · obtain ⟨v, hv⟩ := hs.added hpos hr
      exact ⟨v, by rw [hchanges]; exact List.mem_append_left _ hv⟩
    · -- It is registered by this step, and what is registered was added.
      have hmem : r ∈ Feed.keys s'.shapes := by
        rw [mem_keys_shapes]
        cases h.edits with
        | add _ _ hmax hmodules hcounter =>
          have hid : r = s.idCounter := by
            rw [hcounter, Int32.lt_iff_toInt_lt, toInt_add_one hmax] at hlt
            rw [not_lt, Int32.le_iff_toInt_le] at hr
            exact Int32.toInt_inj.1 (by omega)
          rw [hmodules, hp.announced.fresh.find?_insert, if_pos hid]
          rfl
        | keep _ hcounter => exact absurd (hcounter ▸ hlt) hr
        | remove _ _ hcounter => exact absurd (hcounter ▸ hlt) hr
        | save _ _ _ _ hcounter => exact absurd (hcounter ▸ hlt) hr
      obtain ⟨⟨r', v⟩, hrv, rfl⟩ := List.mem_map.1 hmem
      rw [← hp'.replay] at hrv
      rcases Feed.mem_replay hrv with hnil | hadd
      · cases hnil
      · exact ⟨v, hadd⟩
  case preceded =>
    intro hpos before after hsplit hne
    rw [hhandled] at hsplit
    rcases List.append_eq_append_iff.1 hsplit with ⟨front, hbefore, hfront⟩ | ⟨rest, hrest, -⟩
    · by_cases hr : s.idCounter ≤ r
      · -- There is nothing to be announced.
        obtain ⟨-, houtbox, hannounced⟩ := hs.new hr
        have htell : s.toTell r = [] := (List.append_eq_nil_iff.1 houtbox).2
        rw [htell, hcalls hr, List.append_nil, List.append_eq_nil_iff, hfront, List.flatMap_append,
          List.append_eq_nil_iff] at hmsgs
        rw [hbefore, List.flatMap_append, hmsgs.1.1, List.append_nil] at hne
        exact absurd hannounced hne
      · obtain ⟨v, hv⟩ := hs.added hpos (not_le.1 hr)
        rw [hbefore, List.filterMap_append]
        exact ⟨v, List.mem_append_left _ hv⟩
    · exact hs.preceded hpos hrest hne
  case removed =>
    intro hr
    by_cases hu : ∃ id, s.Unregisters a id
    · obtain ⟨id, hu⟩ := hu
      have hd := h.departs hu
      rw [hd.removals, List.mem_append, List.mem_singleton] at hr
      rcases hr with hr | rfl
      · exact h.registry.gone (hs.removed hr)
      · exact h.gone_of_unregisters hp hown hu
    · rw [h.stays hp.announced.posts fun id hid => hu ⟨id, hid⟩] at hr
      exact h.registry.gone (hs.removed hr)
  case properties =>
    intro msg ps hmem hadded
    rw [hhandled, List.mem_append] at hmem
    rcases hmem with hmem | hmem
    · obtain ⟨m, hm, hps⟩ := hs.properties hmem hadded
      exact ⟨m, h.registration?_eq hm, hps⟩
    · obtain ⟨m, promise, q, rfl, ht, rfl, -, hm⟩ :=
        hfeed.added hhandled hmem (by rw [hadded]; exact Option.some_ne_none _)
      refine ⟨m.setId s.idCounter, ?_, Option.some.inj (hm.symm.trans hadded)⟩
      rw [registration?_of_record (h.registers ht), (hs.kept.unused _ le_rfl).1]
      simp [Event.registration?]

/-- The host reads the next message. -/
theorem deliver {msg : Text} {sent : List Text} (hclient : s.client = some (msg :: sent)) :
    ({ s with client := some sent } : Instance).Publishes r ∧
      s.outbox r = msg.updatesOf r ++ ({ s with client := some sent } : Instance).outbox r := by
  have houtbox : s.outbox r =
      msg.updatesOf r ++ ({ s with client := some sent } : Instance).outbox r := by
    simp only [Instance.outbox, Instance.undelivered, hclient, Option.getD_some,
      List.cons_append, List.flatMap_cons, List.append_assoc]
    rfl
  refine ⟨⟨⟨hs.kept.fresh, hs.kept.unused, hs.kept.kept⟩, hs.idle, hs.web, hs.requests, hs.caller,
    fun hr => ?_, hs.added, hs.preceded, hs.removed, hs.properties⟩, houtbox⟩
  obtain ⟨hinbox, hnil, hannounced⟩ := hs.new hr
  rw [houtbox, List.append_eq_nil_iff] at hnil
  exact ⟨hinbox, hnil.2, hannounced⟩

end Instance.Publishes

end Sacs
