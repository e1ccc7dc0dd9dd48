import Sacs.Delivery
import Sacs.Faults
import Sacs.Values

/-!
# Strings that cannot be encoded

The application may give modules names and values that are no valid UTF-8, and
building an announcement with one throws. By then, the modules are changed, or going
to be: `DoRegisterModule` has inserted the module, `UpdateProperties` has saved the
values or posted the task that does.

* What a call leaves that cannot be announced (`untouched_iff`): the loop thread throws
  for a module, and the modules stay as they were after an update if and only if it
  repeats the values that are stored.
* In the runs in which such updates do, every list of modules can be encoded.
-/

namespace Sacs

open JsonMsg ModuleManager

/-! ## Updates that change nothing -/

namespace Module

/-- The last values the updates have for the properties are those they have already. -/
def Repeats (m : Module) (ps : Updates) : Prop :=
  ∀ k p v, m.properties[k]? = some p → p.readOnly = false → m.Reaches k →
    lastWrite ps k = some v → v = p.value

theorem written_eq_self_iff {ps : Updates} {k : Nat} {p : Property} :
    written ps k p = p ↔ (p.readOnly = false → ∀ v, lastWrite ps k = some v → v = p.value) := by
  obtain ⟨type, name, value, readOnly⟩ := p
  rw [written, overwrite_eq]
  cases readOnly with
  | true => simp
  | false => cases lastWrite ps k <;> simp

theorem save_eq_iff {m m' : Module} {ps : Updates} (h : m.save ps = .ok m') :
    m' = m ↔ m.Repeats ps := by
  have hsaved := save_saved h
  constructor
  · rintro rfl k p v hp hro hk hv
    have hget := (save_getElem?_cases h k).1 hk
    rw [hp, Option.map_some, Option.some.injEq] at hget
    exact written_eq_self_iff.1 hget.symm hro v hv
  · intro hrep
    have hproperties : m'.properties = m.properties := by
      ext k : 1
      by_cases hk : m.Reaches k
      · rw [(save_getElem?_cases h k).1 hk]
        cases hp : m.properties[k]? with
        | none => rfl
        | some p =>
          exact congrArg some (written_eq_self_iff.2 fun hro v hv => hrep k p v hp hro hk hv)
      · exact (save_getElem?_cases h k).2 hk
    have hname : m'.name = m.name := congrArg Prod.fst hsaved.shape
    obtain ⟨id, name, properties, callback⟩ := m
    obtain ⟨id', name', properties', callback'⟩ := m'
    cases hsaved.id
    cases hsaved.callback
    cases hproperties
    cases hname
    rfl

/-- Values that can be announced keep the module one that can be. -/
theorem IsUtf8.save {m m' : Module} {ps : Updates} (hm : m.IsUtf8) (h : m.save ps = .ok m')
    (hps : Announceable ps) : m'.IsUtf8 := by
  have hsaved := save_saved h
  have hname : m'.name = m.name := congrArg Prod.fst hsaved.shape
  refine ⟨by rw [hname]; exact hm.name, fun p' hp' => ?_⟩
  obtain ⟨k, hk⟩ := List.mem_iff_getElem?.1 hp'
  have hvalue : ∀ v, v.isUtf8 = true → (overwrite ps k v).isUtf8 = true := by
    intro v hv
    rw [overwrite_eq]
    cases hw : lastWrite ps k with
    | none => exact hv
    | some w =>
      obtain ⟨u, hu, he⟩ := List.mem_filterMap.1 (List.mem_of_getLast? hw)
      split_ifs at he with hi
      cases he
      exact hps u hu
  by_cases hreach : m.Reaches k
  · rw [(save_getElem?_cases h k).1 hreach, Option.map_eq_some_iff] at hk
    obtain ⟨p, hp, rfl⟩ := hk
    have hpm := hm.properties p (List.mem_of_getElem? hp)
    rw [written]
    split_ifs
    · exact hpm
    · exact ⟨hpm.1, hvalue _ hpm.2⟩
  · rw [(save_getElem?_cases h k).2 hreach] at hk
    exact hm.properties p' (List.mem_of_getElem? hk)

end Module

/-! ## What is saved -/

theorem JsonMsg.announceable_of_getPropertiesList {msg msg' : JsonMsg} {ps : Updates}
    (h : msg.getPropertiesList = .ok (ps, msg')) (hmsg : msg.json.isUtf8 = true) :
    Announceable ps := by
  rw [getPropertiesList] at h
  split_ifs at h with htype
  · cases h
    exact fun _ hp => absurd hp List.not_mem_nil
  · obtain ⟨⟨v, json⟩, hv, h⟩ := bind_eq_ok.1 h
    obtain ⟨es, hes, h⟩ := bind_eq_ok.1 h
    obtain ⟨us, hus, h⟩ := bind_eq_ok.1 h
    cases h
    refine (forall_of_mapM hus _).2 fun x hx u hu => ?_
    obtain ⟨id, -, hu⟩ := bind_eq_ok.1 hu
    obtain ⟨value, hvalue, hu⟩ := bind_eq_ok.1 hu
    cases hu
    exact isUtf8_of_valueToString hvalue (isUtf8_of_elements hv hes hmsg x hx)

theorem JsonMsg.isUtf8_of_parse {t : Text} {msg : JsonMsg} (h : parse t = .ok msg) :
    msg.json.isUtf8 = true := by
  obtain ⟨-, rfl⟩ | ⟨hp, -⟩ := parsed_of_parse h
  · rfl
  · exact hp.utf8

/-- The updates are saved, if the module is registered, and change nothing. -/
def Instance.Repeats (s : Instance) (id : Int32) (ps : Updates) : Prop :=
  ∀ m, s.modules.find? id = some m → (∃ m', m.save ps = .ok m') ∧ m.Repeats ps

/-- Updates that cannot be announced are saved only if they change nothing. -/
def Instance.Harmless (s : Instance) (a : Action) : Prop :=
  ∀ id ps, s.appSaves? a = some (id, ps) → ¬Announceable ps → s.Repeats id ps

/-- Everything registered can be announced, and what the messages to be processed say. -/
structure Instance.Valid (s : Instance) : Prop where
  modules : ∀ id m, s.modules.find? id = some m → m.IsUtf8
  passed : ∀ t ∈ s.threadLoop, ∀ json, t.passed? = some json → json.json.isUtf8 = true

theorem Transition.isUtf8_of_takes {s s' : Instance} (h : Transition s .task s') {m : Module}
    {promise : Promise} {q : List Task} (ht : Takes s (.doRegisterModule m promise) q) :
    m.IsUtf8 := by
  cases h with
  | taskRegister ht' _ hmsg =>
    cases (ht.inj ht').1
    have hset := exists_createModuleAdded.1 ⟨_, hmsg⟩
    exact ⟨hset.name, hset.properties⟩
  | _ => exact Task.noConfusion (ht.inj ‹_›).1

theorem Instance.Valid.step {s s' : Instance} {a : Action} (hs : s.Valid) (h : Transition s a s')
    (hC : s.Harmless a) : s'.Valid := by
  refine ⟨fun id m hm => ?_, h.forall_tasks hs.passed (fun t ht => ht) fun ts hts => ?_⟩
  · cases h.edits with
    | keep hmodules => exact hs.modules id m (hmodules ▸ hm)
    | @add m₁ promise q ha ht _ hmodules =>
      subst ha
      rw [hmodules, OrdMap.find?_insert] at hm
      split_ifs at hm with hid
      · cases hm
        cases hold : s.modules.find? s.idCounter with
        | some m₀ => exact hs.modules _ _ hold
        | none =>
          have hm₁ := h.isUtf8_of_takes ht
          exact ⟨hm₁.name, hm₁.properties⟩
      · exact hs.modules id m hm
    | remove _ hmodules =>
      rw [hmodules, OrdMap.find?_erase] at hm
      split_ifs at hm
      exact hs.modules id m hm
    | @save id' ps m₀ m' hsaves hm₀ hm' hmodules =>
      rw [hmodules, OrdMap.find?_modify] at hm
      split_ifs at hm with hid
      · rw [hm₀, Option.map_some, Option.some.injEq] at hm
        subst hm
        have hold := hs.modules _ _ hm₀
        by_cases hps : Announceable ps
        · exact hold.save hm' hps
        rcases hsaves with happ | ⟨-, t, q, json, json', ht, hpassed, -, hlist, -⟩
        · -- What cannot be announced changes nothing.
          have hrep := (hC id' ps happ hps m₀ hm₀).2
          rw [(Module.save_eq_iff hm').2 hrep]
          exact hold
        · have hutf8 := hs.passed t (ht.threadLoop ▸ List.mem_cons_self) json hpassed
          exact absurd (announceable_of_getPropertiesList hlist hutf8) hps
      · exact hs.modules id m hm
  · cases hts with
    | proxyRead _ hjson =>
      intro t ht json hpassed
      cases List.mem_singleton.1 ht
      cases hpassed
      exact isUtf8_of_parse hjson
    | wsRequest _ hjson =>
      intro t ht json hpassed
      cases List.mem_singleton.1 ht
      rw [Task.passed?] at hpassed
      split_ifs at hpassed
      cases hpassed
      exact isUtf8_of_parse hjson
    | _ => simp [Task.passed?]

theorem valid_of_runs {as : List Action} {s : Instance}
    (h : Lts.Run (Lts.Under Instance.Harmless Instance.Steps) {} as s) : s.Valid := by
  refine h.invariant ⟨fun id m hm => by simp at hm, fun t ht => absurd ht List.not_mem_nil⟩ ?_
  exact fun _ _ _ hs hst => hs.step (transition_of_step hst.2) hst.1

/-! ## Calls that cannot be announced -/

/-- Saving leaves the modules as they were. -/
theorem savePropertiesList_eq_iff {s : Instance} {id : Int32} {ps : Updates} :
    (∃ s', savePropertiesList s false id ps = .ok s' ∧ s'.modules = s.modules) ↔
      s.Repeats id ps := by
  constructor
  · rintro ⟨s', h, hmodules⟩ m hm
    obtain ⟨hnone, -⟩ | ⟨m₀, m', hm₀, hm', rfl⟩ := savePropertiesList_cases h
    · cases hm.symm.trans hnone
    · cases hm.symm.trans hm₀
      replace hmodules : s.modules.modify id (fun _ => m') = s.modules := hmodules
      have hsame : m' = m := OrdMap.modify_eq_self_iff.1 hmodules m hm
      exact ⟨⟨m', hm'⟩, (Module.save_eq_iff hm').1 hsame⟩
  · intro hrep
    cases hm : s.modules.find? id with
    | none => exact ⟨s, by rw [savePropertiesList, if_neg Bool.false_ne_true, hm], rfl⟩
    | some m =>
      obtain ⟨⟨m', hm'⟩, hsame⟩ := hrep m hm
      refine ⟨s.saved id ps m', savePropertiesList_of_save hm hm', ?_⟩
      rw [(Module.save_eq_iff hm').2 hsame]
      exact OrdMap.modify_eq_self_iff.2 fun v hv => Option.some.inj (hm.symm.trans hv)

/-- An update that cannot be announced, and whose announcement posts nothing, leaves the
    modules as they were when the loop thread has run its other half if and only if it is
    saved and repeats the values stored; likewise one by a module callback. A module that
    cannot be announced stops the loop thread. After a run in which such updates change
    nothing, all modules can be listed. -/
theorem untouched_iff (s : Instance) :
    (∀ id ps bs t, Lts.Run Instance.Steps s (.updateProperties id ps :: bs) t →
      bs.countP Action.isTask = s.threadLoop.length → t.loop = .idle → ¬Announceable ps →
      ((∃ t', t.step .task = .ok t' ∧ t'.modules = t.modules) ↔ t.Repeats id ps)) ∧
    (∀ i id ps, s.calls[i]? = some (id, ps) → ¬Announceable ps →
      s.step (.announce i) = .ok { s with calls := s.calls.eraseIdx i }) ∧
    (∀ id ps request, s.loop = .callback request → ¬Announceable ps →
      ((∃ s', s.step (.callbackUpdateProperties id ps) = .ok s' ∧ s'.modules = s.modules) ↔
        s.Repeats id ps)) ∧
    (∀ m promise q, Takes s (.doRegisterModule m promise) q → ¬m.IsUtf8 →
      ∀ s', s.step .task ≠ .ok s') ∧
    (∀ as, Lts.Run (Lts.Under Instance.Harmless Instance.Steps) {} as s →
      ∃ msg, createModuleList (s.modules.entries.map Prod.snd) = .ok msg) := by
  refine ⟨fun id ps bs t hbs hcount hidle hps => ?_, fun i id ps hi hps => ?_,
    fun id ps request hl hps => ?_, fun m promise q ht hm s' hst => ?_, fun as hrun => ?_⟩
  · -- The task of the call is the next one.
    obtain ⟨s₁, hs₁, hbs⟩ := hbs.uncons
    obtain rfl := Except.ok.inj hs₁
    obtain ⟨q, hq⟩ := fifo_threadLoop.last hbs rfl hcount
    have ht : Takes t (.savePropertiesList id ps) q := ⟨hidle, hq⟩
    rw [ht.step_task]
    exact savePropertiesList_eq_iff (s := { t with threadLoop := q })
  · obtain ⟨-, e, he⟩ := (exists_update_msg_or id ps).resolve_left fun hmsg =>
      hps (createPropertyUpdated_eq_ok_iff.1 hmsg)
    rw [Instance.step, Instance.announceCall, hi]
    simp only [announce, he]
    rfl
  · obtain ⟨-, e, he⟩ := (exists_update_msg_or id ps).resolve_left fun hmsg =>
      hps (createPropertyUpdated_eq_ok_iff.1 hmsg)
    have hstep : s.step (.callbackUpdateProperties id ps) = savePropertiesList s false id ps := by
      rw [Instance.step, hl]
      simp only [Instance.callbackUpdate, updateProperties, he]
      cases savePropertiesList s false id ps <;> rfl
    rw [hstep]
    exact savePropertiesList_eq_iff
  · exact hm ((transition_of_step hst).isUtf8_of_takes ht)
  · refine exists_createModuleList.2 fun m hm => ?_
    obtain ⟨⟨id, m⟩, he, rfl⟩ := List.mem_map.1 hm
    exact (valid_of_runs hrun).modules id m (OrdMap.find?_eq_some_iff.2 he)

/-- A module with a text. -/
def titled : List Action :=
  [.registerModule (Str.lit "Clock") [⟨3, Str.lit "Time", [49], false⟩] none, .task]

/-- A property that there is none of is set to a byte that is no UTF-8. -/
def spoilNone : Updates := [(5, [255])]

/-- The announcement fails, and the modules stay as they were. -/
theorem untouched_iff_none : ∃ s t u u', Instance.Runs titled s ∧ ¬Announceable spoilNone ∧
    s.step (.updateProperties 0 spoilNone) = .ok t ∧ t.step (.announce 0) = .ok u ∧
    u.threadLoop = t.threadLoop ∧ u.step .task = .ok u' ∧ u'.modules = s.modules ∧
    (s.modules.find? 0).isSome := by
  obtain ⟨s, hs, hobs⟩ := Instance.exists_runs titled
    (fun s => (s.threadLoop.length, s.loop.isIdle, s.calls.length, s.modules.find? 0))
    (0, true, 0, some ⟨0, Str.lit "Clock", [⟨3, Str.lit "Time", [49], false⟩], none⟩)
    (by decide +kernel)
  simp only [Prod.mk.injEq, List.length_eq_zero_iff] at hobs
  obtain ⟨hq, hidle, hcalls, hm⟩ := hobs
  have hps : ¬Announceable spoilNone := by decide
  let t : Instance :=
    { s.post (.savePropertiesList 0 spoilNone) with calls := s.calls ++ [(0, spoilNone)] }
  have hst : s.step (.updateProperties 0 spoilNone) = .ok t := rfl
  have hannounce := (untouched_iff t).2.1 0 0 spoilNone (by simp [t, hcalls]) hps
  have hrepeats : ({ t with calls := t.calls.eraseIdx 0 } : Instance).Repeats 0 spoilNone := by
    intro m hm'
    cases hm.symm.trans hm'
    refine ⟨⟨_, rfl⟩, fun k p v hp _ _ hk => ?_⟩
    match k, hp with
    | 0, _ => cases hk
  obtain ⟨u', hu', hmodules⟩ := ((untouched_iff s).1 0 spoilNone [.announce 0] _
    ((Lts.Run.single hst).snoc hannounce) (by rw [hq]; rfl) (LoopPc.eq_idle hidle) hps).2 hrepeats
  exact ⟨s, t, _, u', hs, hps, hst, hannounce, rfl, hu', hmodules, by rw [hm]; rfl⟩

/-- It is set to a byte that is no UTF-8. -/
def spoil : List Action := [.updateProperties 0 [(0, [255])], .announce 0, .task]

/-- The byte is stored, and the modules cannot be listed any more. -/
theorem not_untouched_of_spoil : ∃ s t, Instance.Runs titled s ∧ s.threadLoop = [] ∧
    ¬Announceable [(0, [255])] ∧ Lts.Run Instance.Steps s spoil t ∧ t.threadLoop = [] ∧
    t.modules ≠ s.modules ∧ ∀ msg, createModuleList (t.modules.entries.map Prod.snd) ≠ .ok msg := by
  obtain ⟨s, hs, hobs⟩ := Instance.exists_runs titled
    (fun s => (s.threadLoop.length, s.modules.find? 0,
      (spoil.foldlM Instance.step s).toOption.map fun t =>
        (t.threadLoop.length, t.modules.find? 0)))
    (0, some ⟨0, Str.lit "Clock", [⟨3, Str.lit "Time", [49], false⟩], none⟩,
      some (0, some ⟨0, Str.lit "Clock", [⟨3, Str.lit "Time", [255], false⟩], none⟩))
    (by decide +kernel)
  simp only [Prod.mk.injEq, List.length_eq_zero_iff] at hobs
  obtain ⟨hq, hm, hspoil⟩ := hobs
  obtain ⟨t, ht, hobs⟩ := Lts.exists_run_of_foldlM Instance.step s spoil _ _ hspoil
  simp only [Prod.mk.injEq, List.length_eq_zero_iff] at hobs
  refine ⟨s, t, hs, hq, by decide, ht, hobs.1, fun he => ?_, fun msg hmsg => ?_⟩
  · rw [he, hm] at hobs
    exact absurd hobs.2 (by decide)
  · have hvalid := exists_createModuleList.1 ⟨msg, hmsg⟩ _
      (List.mem_map.2 ⟨_, OrdMap.find?_eq_some_iff.1 hobs.2, rfl⟩)
    exact absurd (hvalid.properties _ List.mem_cons_self).2 (by decide)

end Sacs
