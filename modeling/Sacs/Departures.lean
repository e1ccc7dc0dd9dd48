import Sacs.Lib.HubTally
import Sacs.Network

/-!
# The modules of clients that leave

When a client of another instance leaves, the host unregisters the modules
registered through it, whatever its messages were: also if several have the same id
in the instance, if others were deleted before, or if what it has deleted it has
never added. As a hub, the host keeps a tally of its unregistrations
(`Hub.Tally`); the ids unregistered are those it has announced the removal of
(`Transition.departs`).

* `departed_of_runs`: once the queue is drained, each of the modules is gone, was
  unregistered once, and its removal was announced once.
-/

namespace Sacs

open JsonMsg ModuleManager Str

def Event.unregistered? : Event → Option Int32
  | .unregistered id => some id
  | _ => none

/-- The ids of the modules unregistered so far, in order. -/
def Instance.unregistered (s : Instance) : List Int32 := s.trace.filterMap Event.unregistered?

/-- The module whose removal a message announces. -/
def Text.removed? (msg : Text) : Option Int32 := msg.change?.bind Feed.Change.removed?

/-- The ids of the modules announced to be removed so far, in order. -/
def Instance.removals (s : Instance) : List Int32 := s.handled.filterMap Text.removed?

/-! ## What a step unregisters and announces -/

theorem unregistered_of_record (s : Instance) :
    s.unregistered = s.record.filterMap Event.unregistered? := by
  rw [Instance.unregistered, Instance.record, List.filterMap_filter]
  refine List.filterMap_congr fun e _ => ?_
  cases e <;> rfl

theorem removals_of_handled {s s' : Instance} {msgs : List Text}
    (h : s'.handled = s.handled ++ msgs) (hmsgs : ∀ msg ∈ msgs, msg.removed? = none) :
    s'.removals = s.removals := by
  rw [Instance.removals, h, List.filterMap_append, List.filterMap_eq_nil_iff.2 hmsgs,
    List.append_nil, Instance.removals]

theorem Text.IsUpdate.removed? {msg : Text} (h : msg.IsUpdate) : msg.removed? = none := by
  rw [Text.removed?, h.change?, Option.bind_none]

/-- What is unregistered is recorded, and its removal is announced. -/
structure Departs (s s' : Instance) (id : Int32) : Prop where
  record : s'.record = s.record ++ [.unregistered id]
  removals : s'.removals = s.removals ++ [id]

theorem departs_of_handleMessage {s s₁ s' : Instance} {id : Int32} {msg : Text}
    (hmsg : createModuleRemoved id = .ok msg) (h : handleMessage s₁ false msg = .ok s')
    (hrecord : s₁.record = s.record ++ [.unregistered id]) (hhandled : s₁.handled = s.handled) :
    Departs s s' id := by
  refine ⟨(handleMessage_emits h).record.trans hrecord, ?_⟩
  rw [Instance.removals, handled_handleMessage h, hhandled, List.filterMap_append,
    List.filterMap_cons_some (b := id), List.filterMap_nil, Instance.removals]
  rw [Text.removed?, change?_createModuleRemoved hmsg]
  rfl

/-- A step that unregisters a module announces this. -/
theorem Transition.departs {s s' : Instance} {a : Action} {id : Int32} (h : Transition s a s')
    (hu : s.Unregisters a id) : Departs s s' id := by
  rcases hu with ⟨rfl, q, ht⟩ | rfl
  · cases h with
    | taskUnregister ht' hmsg h =>
      cases (ht.inj ht').1
      exact departs_of_handleMessage hmsg h (record_edit rfl rfl) (handled_removed ..)
    | _ => exact Task.noConfusion (ht.inj ‹_›).1
  · cases h with
    | callbackUnregister hl hmsg h =>
      refine departs_of_handleMessage hmsg h ?_ ?_
      · rw [record_of_trace (s := s) (l := [_, _]) (List.append_assoc ..)]
        rfl
      · rw [handled_removed]
        exact (handled_of_trace rfl).trans (List.append_nil _)

/-- The other steps announce no removal. -/
theorem Transition.stays {s s' : Instance} {a : Action} (h : Transition s a s')
    (hs : s.PostsUpdates) (hno : ∀ id, ¬s.Unregisters a id) : s'.removals = s.removals := by
  have hkeep : s'.handled = s.handled → s'.removals = s.removals := fun h =>
    removals_of_handled (h.trans (List.append_nil _).symm) (by simp)
  have hone : ∀ {msg}, s'.handled = s.handled ++ [msg] → msg.removed? = none →
      s'.removals = s.removals := fun h hmsg => removals_of_handled h (by simpa using hmsg)
  cases ha : a.onLoop with
  | false => exact hkeep (h.offLoop ha).handled
  | true =>
  cases h with
  | taskHandle ht h =>
    exact hone ((handled_handleMessage h).trans rfl)
      (hs.queued (ht.threadLoop ▸ List.mem_cons_self)).removed?
  | @taskRegister _ _ _ msg _ ht hmax hmsg h =>
    have hmsg' : msg.removed? = none := by
      rw [Text.removed?, change?_createModuleAdded hmsg]
      rfl
    refine hone ?_ hmsg'
    rw [handled_fulfil, handled_handleMessage h, handled_added]
    rfl
  | taskUnregister ht => exact absurd (.inl ⟨rfl, _, ht⟩) (hno _)
  | taskSave => exact hkeep (handled_saved ..)
  | taskOther => exact hkeep ((handled_of_trace rfl).trans (List.append_nil _))
  | taskLoad _ _ _ h => exact hkeep ((handled_answer ..).trans h.handled)
  | taskApply _ _ h => exact hkeep ((handled_answer ..).trans h.handled)
  | taskPass _ h => exact hkeep h.handled
  | flush _ _ h => exact hkeep ((handled_pushMsg h).trans rfl)
  | callbackUnregister => exact absurd (.inr rfl) (hno _)
  | callbackUpdate _ hs₁ hmsg h =>
    refine hone ?_ (isUpdate_createPropertyUpdated hmsg).removed?
    rw [handled_handleMessage h, handled_savePropertiesList hs₁]
  | callbackUpdateThrows _ hs₁ => exact hkeep (handled_savePropertiesList hs₁)
  | callbackAnswer => exact hkeep ((handled_of_trace rfl).trans (List.append_nil _))
  | taskRole | taskSaveNone | flushed | callbackRegister | callbackReturn => exact hkeep rfl
  | _ => simp only [Action.onLoop, Bool.false_eq_true] at ha

/-- As a hub, the instance unregisters the same modules. -/
theorem Transition.hub_unregisters {s s' : Instance} {a : Action} (h : Transition s a s')
    (id : Int32) : s.Unregisters a id ↔ Hub.Unregisters s.hub a.label s'.hub id := by
  constructor
  · rintro (⟨rfl, q, ht⟩ | rfl)
    · obtain ⟨t, ht'⟩ := h.takes
      obtain ⟨rfl, rfl⟩ := ht'.inj ht
      exact .inl (jobs_take ht rfl)
    · have hq : s'.threadLoop = s.threadLoop := by
        rcases h.threadLoop_callback rfl (by simp) with hq | ⟨_, _, _, _, ha, -⟩
        · exact hq
        · cases ha
      exact .inr ⟨rfl, congrArg (List.filterMap Task.job?) hq⟩
  · have hposts : ∀ {ts}, s'.threadLoop = s.threadLoop ++ ts →
        s'.hub.jobs = s.hub.jobs ++ ts.filterMap Task.job? := by
      intro ts hts
      rw [Instance.hub, hts, List.filterMap_append]
      rfl
    rintro (hjobs | ⟨hlabel, hjobs⟩)
    · obtain ⟨rfl, t, ht⟩ | ⟨-, ts, hts⟩ := h.threadLoop
      · refine .inl ⟨rfl, s'.threadLoop, ?_⟩
        cases hj : t.job? with
        | none =>
          have htail : s.hub.jobs = s'.hub.jobs := by
            rw [Instance.hub, ht.threadLoop, List.filterMap_cons_none hj]
            rfl
          exact absurd (hjobs.symm.trans htail) (List.cons_ne_self _ _)
        | some j =>
          rw [jobs_take ht hj] at hjobs
          rw [(List.cons.inj hjobs).1] at hj
          cases t with
          | unregisterModule id' =>
            cases hj
            exact ht
          | _ => cases hj
      · have := congrArg List.length hjobs
        rw [hposts hts, List.length_cons, List.length_append] at this
        omega
    · cases a with
      | callbackUnregisterModule id' =>
        cases hlabel
        exact .inr rfl
      | unregisterModule id' =>
        cases h
        have := (hposts rfl).symm.trans hjobs
        simp [Task.job?] at this
      | _ => cases hlabel

theorem Transition.erases {s s' : Instance} {a : Action} (h : Transition s a s')
    (hs : s.PostsUpdates) (hr : s.removals = s.unregistered) :
    s'.removals = s'.unregistered ∧ ∃ ids, s'.unregistered = s.unregistered ++ ids ∧
      Hub.Erases s.hub a.label s'.hub ids := by
  have hrecord : ∀ {ids}, s'.record = s.record ++ ids →
      s'.unregistered = s.unregistered ++ ids.filterMap Event.unregistered? := by
    intro ids hids
    rw [unregistered_of_record, hids, List.filterMap_append, ← unregistered_of_record]
  by_cases hu : ∃ id, s.Unregisters a id
  · obtain ⟨id, hu⟩ := hu
    have hd := h.departs hu
    refine ⟨?_, [id], hrecord hd.record, .inr ⟨id, rfl, (h.hub_unregisters id).1 hu⟩⟩
    rw [hd.removals, hrecord hd.record, hr]
    rfl
  · have hno : ∀ id, ¬s.Unregisters a id := fun id hid => hu ⟨id, hid⟩
    have hkeep : s'.unregistered = s.unregistered := by
      cases h.edits with
      | keep _ _ h => exact (hrecord (h.trans (List.append_nil _).symm)).trans (List.append_nil _)
      | add _ _ _ _ _ h => exact (hrecord h).trans (List.append_nil _)
      | remove hid => exact absurd hid (hno _)
      | save _ _ _ _ _ h => exact (hrecord h).trans (List.append_nil _)
    refine ⟨(h.stays hs hno).trans (hr.trans hkeep.symm), [], ?_, .inl ⟨rfl, fun id hid => ?_⟩⟩
    · rw [hkeep, List.append_nil]
    · exact hno id ((h.hub_unregisters id).2 hid)

/-! ## The tally -/

theorem served_init : Hub.Served (-1) (Instance.hub {}) := by
  have hheld : ∀ {c id}, ¬Hub.Held (Instance.hub {}) c id := by
    rintro c id ⟨r, h | h⟩ <;> cases h
  constructor
  case unknown_lt => decide
  case held => exact fun hid => absurd hid hheld
  case idle => exact fun _ => rfl
  case busy => exact fun hne => absurd rfl hne
  case waits =>
    intro c r hc
    cases hc
  all_goals exact fun hmem => absurd hmem List.not_mem_nil

/-- The modules registered through clients are unregistered once, which is announced. -/
structure Instance.Tallied (s : Instance) : Prop where
  fresh : s.Fresh
  posts : s.PostsUpdates
  served : Hub.Served (-1) s.hub
  tally : s.hub.Tally s.unregistered
  removals : s.removals = s.unregistered
  /-- Only the host has clients. -/
  connected : ∀ {c}, s.hub.connected c = true → s.server = true
  registered : ∀ {id c v}, (id, some c, v) ∈ s.hub.registered → s.server = true

theorem dropsOwn_of_unregisters {s : Instance} {a : Action} (h : Network.Unregisters s a) :
    s.hub.DropsOwn a.label := by
  intro id hlabel
  cases a with
  | unregisterModule id' =>
    cases hlabel
    exact Network.registered_of_owns h
  | callbackUnregisterModule id' =>
    cases hlabel
    exact Network.registered_of_owns h
  | _ => cases hlabel

theorem Instance.Tallied.step {s s' : Instance} {a : Action} (hs : s.Tallied)
    (h : Transition s a s') (hown : Network.Unregisters s a) : s'.Tallied := by
  have hhub := h.hub hs.fresh
  obtain ⟨hremovals, ids, hids, herases⟩ := h.erases hs.posts hs.removals
  have hconnected : ∀ {c}, s.hub.connected c = true → s'.server = true :=
    fun hc => h.server (hs.connected hc)
  constructor
  case fresh => exact h.registry.fresh hs.fresh
  case posts => exact hs.posts.step h
  case served => exact hs.served.step hhub
  case tally =>
    rw [hids]
    exact hs.tally.step hs.served hhub herases (dropsOwn_of_unregisters hown)
  case removals => exact hremovals
  case connected =>
    intro c hc
    rcases hhub.connected hc with hc | hlabel
    · exact hconnected hc
    · cases a with
      | accept c' =>
        cases h with
        | accept hserver => exact hserver
      | _ => cases hlabel
  case registered =>
    intro id c v hmem
    rcases hs.served.registered hhub hmem with hmem | hc
    · exact h.server (hs.registered hmem)
    · exact hconnected hc

theorem tallied_of_runs {as : List Action} {s : Instance}
    (h : Lts.Run (Lts.Under Network.Unregisters Instance.Steps) {} as s) : s.Tallied := by
  refine h.invariant ?_ fun s a s' hs hst => hs.step (transition_of_step hst.2) hst.1
  constructor
  case fresh => exact ⟨le_rfl, fun hm => by simp at hm⟩
  case posts => exact ⟨fun hmsg => absurd hmsg List.not_mem_nil, fun hc => HandlerPc.noConfusion hc⟩
  case served => exact served_init
  case tally =>
    constructor
    case lt => exact fun hmem => absurd hmem List.not_mem_nil
    all_goals exact fun hmem => absurd hmem List.not_mem_nil
  case removals => rfl
  case connected => exact fun hc => Bool.noConfusion hc
  case registered => exact fun hmem => absurd hmem List.not_mem_nil

/-- The modules registered through a client. -/
theorem mem_registered_iff {s : Instance} {id : Int32} {c : ClientId} {v : Shape} :
    (id, some c, v) ∈ s.hub.registered ↔
      ∃ m, .registered id (.handler c) m ∈ s.trace ∧ m.shape = v := by
  constructor
  · intro h
    obtain ⟨e, he, hv⟩ := List.mem_filterMap.1 h
    cases e with
    | registered id' promise m =>
      cases promise with
      | handler c' =>
        cases hv
        exact ⟨m, he, rfl⟩
      | _ => cases hv
    | _ => cases hv
  · rintro ⟨m, h, rfl⟩
    exact List.mem_filterMap.2 ⟨_, h, rfl⟩

/-- What a client that is gone has registered is not its any more. -/
theorem Instance.released_of_run {s t : Instance} {bs : List Action} {c : ClientId} {id : Int32}
    {v : Shape} (hs : s.Tallied) (hc : s.clients c = none)
    (hreg : (id, some c, v) ∈ s.hub.registered) (h : Lts.Run Instance.Steps s bs t) :
    (id, some c, v) ∈ t.hub.registered ∧ ¬t.hub.Held c id := by
  have haway := hs.served.away (c := c) (congrArg Option.isSome hc)
  refine (h.invariant (P := fun t => (t.Fresh ∧ id < t.idCounter) ∧
    (id, some c, v) ∈ t.hub.registered ∧ ¬t.hub.Held c id)
    ⟨⟨hs.fresh, hs.served.id_lt hreg⟩, hreg, haway.2.2 id⟩ ?_).2
  rintro t a u ⟨⟨hf, hid⟩, hmem, hnot⟩ hst
  have h := transition_of_step hst
  refine ⟨⟨h.registry.fresh hf, hid.trans_le h.registry.counter_le⟩,
    (h.hub hf).registered_subset hmem, fun hu => ?_⟩
  rcases (h.hub hf).held hu with ht | ⟨hcounter, -⟩
  · exact hnot ht
  · exact absurd hcounter hid.ne

/-- The host with nothing to do has pushed all that was announced. -/
theorem Instance.Tallied.pushed {s : Instance} (hs : s.Tallied) {as : List Action}
    (h : Instance.Runs as s) (hserver : s.server = true) (hq : s.threadLoop = [])
    (hl : s.loop ≠ .flushing) : s.pushed.filterMap Text.removed? = s.unregistered := by
  have hinit : s.initialized = true := by
    cases Instance.Role.of_runs h with
    | undecided _ _ hno => exact absurd (hno.symm.trans hserver) Bool.false_ne_true
    | told _ hroles =>
      rw [Instance.roles, hq] at hroles
      cases hroles
    | initialized _ _ hi => exact hi
  have hqueues := queues_of_runs h
  have hhandled := hqueues.handled
  rw [hqueues.flushed hinit hl, List.append_nil] at hhandled
  rw [← hhandled]
  exact hs.removals

/-- A client has left: once the queue is drained, the modules registered through it
    are gone, each was unregistered once, and its removal was announced once. -/
theorem departed_of_runs {as bs : List Action} {s t : Instance} {c : ClientId}
    (h : Lts.Run (Lts.Under Network.Unregisters Instance.Steps) {} as s) (hc : s.clients c = none)
    (hbs : Lts.Run (Lts.Under Network.Unregisters Instance.Steps) s bs t)
    (hq : t.threadLoop = []) (hl : t.loop ≠ .flushing) :
    (∀ id m, .registered id (.handler c) m ∈ s.trace →
      t.modules.find? id = none ∧ t.remoteModules.find? id = none ∧
        t.unregistered.count id = 1 ∧ (t.pushed.filterMap Text.removed?).count id = 1) ∧
      (t.clients c = none → ∀ id r, t.remoteModules.find? id ≠ some (r, c)) := by
  have ht := tallied_of_runs (h.append hbs)
  refine ⟨fun id m hmem => ?_, fun hct id r himage => ?_⟩
  · have hreg := mem_registered_iff.2 ⟨m, hmem, rfl⟩
    obtain ⟨hreg', hnot⟩ := Instance.released_of_run (tallied_of_runs h) hc hreg hbs.of_under
    have hcount : t.unregistered.count id = 1 := by
      have := ht.tally.released hreg' hnot
      rwa [Hub.leaving, Instance.hub, hq] at this
    refine ⟨?_, ?_, hcount, ?_⟩
    · have hnone := (ht.tally.module hreg').2 (List.count_pos_iff.1 (by omega))
      exact Option.map_eq_none_iff.1 hnone
    · by_contra hne
      obtain ⟨⟨r, c'⟩, himage⟩ := Option.ne_none_iff_exists'.1 hne
      have hheld : t.hub.Held c' id := ⟨r, .inl himage⟩
      obtain rfl := ht.served.owner_of_held hheld hreg'
      exact hnot hheld
    · rw [ht.pushed (h.append hbs).of_under (ht.registered hreg') hq hl]
      exact hcount
  · exact (ht.served.away (c := c) (congrArg Option.isSome hct)).2.2 id ⟨r, .inl himage⟩

/-- A message that adds a module with this id. -/
def addition (id : Int32) : Json :=
  .obj [(lit "type", .str (lit "module_added")),
    (lit "module", moduleToJson ⟨id, lit "Remote", [], none⟩)]

/-- A message that removes the module with this id. -/
def removal (id : Int32) : Json :=
  .obj [(lit "type", .str (lit "module_removed")), (lit "id", .int id.toInt)]

theorem isUtf8_addition (id : Int32) : (addition id).isUtf8 = true := rfl

theorem isUtf8_removal (id : Int32) : (removal id).isUtf8 = true := rfl

/-- A client adds a module twice, removes what it has not added, and leaves. -/
def leaving : List Action :=
  [.connecting false, .task, .flush, .accept 7,
    .read 7 (.json (addition 5) (isUtf8_addition 5)), .task, .resume 7,
    .read 7 (.json (addition 5) (isUtf8_addition 5)), .task, .resume 7,
    .read 7 (.json (removal 3) (isUtf8_removal 3)),
    .closed 7, .resume 7, .resume 7, .resume 7]

def LoopPc.isFlushing : LoopPc → Bool
  | .flushing => true
  | _ => false

/-- The two modules are unregistered once the host goes on. -/
theorem departed_of_leaving : ∃ s t m, Lts.Run (Lts.Under Network.Unregisters Instance.Steps) {}
      leaving s ∧ .registered 1 (.handler 7) m ∈ s.trace ∧
    Lts.Run (Lts.Under Network.Unregisters Instance.Steps) s [.task, .task, .task] t ∧
    t.unregistered.count 1 = 1 ∧ (t.pushed.filterMap Text.removed?).count 1 = 1 := by
  obtain ⟨s, hs, hobs⟩ := Instance.exists_runs_under Network.Unregisters leaving
    (fun s => decide (s.clients 7 = none ∧ (1, some 7, (lit "Remote", [])) ∈ s.hub.registered)) true
    (by decide +kernel)
  obtain ⟨t, ht, hquiet⟩ := Instance.exists_runs_under Network.Unregisters
    (leaving ++ [.task, .task, .task])
    (fun t => (t.threadLoop.length, t.loop.isFlushing)) (0, false) (by decide +kernel)
  simp only [decide_eq_true_eq, Prod.mk.injEq, List.length_eq_zero_iff] at hobs hquiet
  obtain ⟨m, hm, -⟩ := mem_registered_iff.1 hobs.2
  obtain ⟨s', hs', hst⟩ := ht.split
  cases Lts.run_unique hs.of_under hs'.of_under
  have hl : t.loop ≠ .flushing := by
    intro hl
    rw [hl] at hquiet
    cases hquiet.2
  obtain ⟨-, -, hcounts⟩ := (departed_of_runs hs hobs.1 hst hquiet.1 hl).1 1 m hm
  exact ⟨s, t, m, hs, hm, hst, hcounts⟩

end Sacs
