import Sacs.Delivery
import Sacs.Departures

/-!
# What an id stands for

The ids are given one after the other, by one counter, whoever registers a module
(`Instance.Numbered`), and an id given is never given again. What is found under an id is
thus the module first registered as it, with the updates saved since, or nothing, from its
registration on and for good (`identity_of_runs`).
-/

namespace Sacs

open JsonMsg ModuleManager

def Event.givenId? : Event → Option Int32
  | .registered id _ _ => some id
  | _ => none

/-- The ids given, in the order of the registrations. -/
def Instance.givenIds (s : Instance) : List Int32 := s.record.filterMap Event.givenId?

theorem givenIds_of_record {s s' : Instance} {es : List Event} (h : s'.record = s.record ++ es) :
    s'.givenIds = s.givenIds ++ es.filterMap Event.givenId? := by
  rw [Instance.givenIds, h, List.filterMap_append]
  rfl

/-- The ids given are `0`, `1` and so on, up to the counter. -/
structure Instance.Numbered (s : Instance) : Prop where
  ids : s.givenIds.map Int32.toInt = (List.range s.givenIds.length).map Int.ofNat
  counter : s.idCounter.toInt = s.givenIds.length

theorem Instance.Numbered.step {s s' : Instance} {a : Action} (hs : s.Numbered)
    (h : Transition s a s') : s'.Numbered := by
  have hkeep : ∀ {es}, s'.record = s.record ++ es → es.filterMap Event.givenId? = [] →
      s'.idCounter = s.idCounter → s'.Numbered := by
    intro es hes hnil hcounter
    have hids : s'.givenIds = s.givenIds := by
      rw [givenIds_of_record hes, hnil, List.append_nil]
    exact ⟨by rw [hids, hs.ids], by rw [hids, hcounter, hs.counter]⟩
  cases h.edits with
  | keep _ hcounter hrecord => exact hkeep (hrecord.trans (List.append_nil _).symm) rfl hcounter
  | add _ _ hmax _ hcounter hrecord =>
    have hids : s'.givenIds = s.givenIds ++ [s.idCounter] := givenIds_of_record hrecord
    refine ⟨?_, ?_⟩
    · rw [hids, List.map_append, hs.ids, List.length_append, List.length_singleton,
        List.range_succ, List.map_append, List.map_singleton, hs.counter]
      rfl
    · rw [hids, hcounter, toInt_add_one hmax, hs.counter, List.length_append]
      rfl
  | remove _ _ hcounter hrecord => exact hkeep hrecord rfl hcounter
  | save _ _ _ _ hcounter hrecord => exact hkeep hrecord rfl hcounter

theorem numbered_of_runs {as : List Action} {s : Instance} (h : Instance.Runs as s) : s.Numbered :=
  h.invariant ⟨rfl, rfl⟩ fun _ _ _ hs hst => hs.step (transition_of_step hst)

theorem Instance.Numbered.nodup {s : Instance} (hs : s.Numbered) : s.givenIds.Nodup := by
  refine List.Nodup.of_map Int32.toInt ?_
  rw [hs.ids]
  exact List.nodup_range.map Int.ofNat_injective

/-! ## What is returned -/

/-- The id a handler is left with was given to a module of its client. -/
theorem Transition.handler_registered {s s' : Instance} {a : Action} (h : Transition s a s')
    {c : ClientId} {remoteId localId : Int32} (hc : s'.handler c = .registered remoteId localId) :
    s.handler c = .registered remoteId localId ∨
      ∃ m, .registered localId (.handler c) m ∈ s'.record := by
  cases h with
  | taskHandle _ h => exact .inl ((handleMessage_emits h).handler ▸ hc)
  | @taskRegister m promise q msg s₁ _ _ _ h =>
    have h₁ : s₁.handler = s.handler := (handleMessage_emits h).handler
    have hrecord : (fulfil s₁ promise s.idCounter).record =
        s.record ++ [.registered s.idCounter promise (m.setId s.idCounter)] := by
      rw [record_fulfil, (handleMessage_emits h).record]
      exact record_edit rfl rfl
    rw [hrecord]
    -- The future made ready is that of the promise, with the id given.
    unfold fulfil at hc
    split at hc
    · exact .inl (h₁ ▸ hc)
    · exact .inl (h₁ ▸ hc)
    · exact .inl (h₁ ▸ hc)
    · rename_i c' _
      split at hc
      · by_cases hne : c = c'
        · subst hne
          cases (Function.update_self ..).symm.trans hc
          exact .inr ⟨_, List.mem_append_right _ (List.mem_singleton_self _)⟩
        · exact .inl (h₁ ▸ (Function.update_of_ne hne ..).symm.trans hc)
      · exact .inl (h₁ ▸ hc)
  | taskUnregister _ _ h => exact .inl ((handleMessage_emits h).handler ▸ hc)
  | taskLoad _ _ _ h => exact .inl (h.handler ▸ answer_handler .. ▸ hc)
  | taskApply _ _ h => exact .inl (h.handler ▸ answer_handler .. ▸ hc)
  | taskPass _ h => exact .inl (h.handler ▸ hc)
  | flush _ _ h => exact .inl ((pushMsg_emits h).handler ▸ hc)
  | callbackUnregister _ _ h => exact .inl ((handleMessage_emits h).handler ▸ hc)
  | callbackUpdate _ hs _ h =>
    rw [(handleMessage_emits h).handler] at hc
    obtain ⟨_, _, rfl⟩ := savePropertiesList_frame hs
    exact .inl hc
  | callbackUpdateThrows _ hs _ =>
    obtain ⟨_, _, rfl⟩ := savePropertiesList_frame hs
    exact .inl hc
  | resumeClosed =>
    exact .inl (handler_of_setHandler (s := { s with clients := _ }) HandlerPc.noConfusion hc)
  | readAdd | readUpdate | resumeAdd | resumeUpdate | closed =>
    exact .inl (handler_of_setHandler (s := s) HandlerPc.noConfusion hc)
  | _ => exact .inl hc

/-- Every id that a handler is left with was given to a module of its client. -/
def Instance.Returned (s : Instance) : Prop := ∀ {c remoteId localId},
  s.handler c = .registered remoteId localId → ∃ m, .registered localId (.handler c) m ∈ s.record

theorem Instance.Returned.step {s s' : Instance} {a : Action} (hs : s.Returned)
    (h : Transition s a s') : s'.Returned := by
  intro c remoteId localId hc
  rcases h.handler_registered hc with hc | hm
  · obtain ⟨m, hm⟩ := hs hc
    obtain ⟨es, hes⟩ := h.exists_record
    exact ⟨m, hes ▸ List.mem_append_left es hm⟩
  · exact hm

/-! ## What is found -/

theorem mem_givenIds {s : Instance} {id : Int32} :
    id ∈ s.givenIds ↔ ∃ m, s.registration? id = some m := by
  rw [← Option.isSome_iff_exists, Instance.registration?, List.findSome?_isSome_iff,
    Instance.givenIds, List.mem_filterMap]
  refine exists_congr fun e => and_congr_right fun _ => ?_
  cases e <;> simp [Event.givenId?, Event.registration?]

theorem stored_of_run {s t : Instance} {as : List Action} (hs : s.Kept ∧ s.Stored)
    (h : Lts.Run Instance.Steps s as t) : t.Kept ∧ t.Stored := by
  refine h.invariant (P := fun s => s.Kept ∧ s.Stored) hs ?_
  intro s a s' hs hst
  have hstored : s'.Stored := Instance.Stored.step hs.2 hs.1 (transition_of_step hst)
  exact ⟨hs.1.step (transition_of_step hst), hstored⟩

theorem gone_of_run {s t : Instance} {as : List Action} {id : Int32}
    (hid : GoneId s.modules s.idCounter id) (h : Lts.Run Instance.Steps s as t) :
    GoneId t.modules t.idCounter id := by
  refine h.invariant (P := fun s => GoneId s.modules s.idCounter id) hid ?_
  intro s a s' hs hst
  exact (transition_of_step hst).registry.gone hs

/-- In every state reached, whatever the threads do:

    * every key of the modules is the id of its module, non-negative and below the counter;
    * the ids given are distinct, and as many as the counter says, which can overflow only
      with the registration number `2 ^ 31`; those returned to the handlers are among them;
    * what is found under an id given, then and later, is the module registered as it, with
      the updates saved since, or nothing for good. -/
theorem identity_of_runs {as : List Action} {s : Instance} (h : Instance.Runs as s) :
    (∀ k m, s.modules.find? k = some m → 0 ≤ k ∧ k < s.idCounter ∧ m.id = k ∧ k ∈ s.givenIds) ∧
    (s.givenIds.Nodup ∧ s.idCounter.toInt = s.givenIds.length ∧
      (s.idCounter = Int32.maxValue ↔ s.givenIds.length = 2 ^ 31 - 1) ∧
      ∀ c remoteId localId, s.handler c = .registered remoteId localId →
        ∃ m, .registered localId (.handler c) m ∈ s.record) ∧
    ∀ k ∈ s.givenIds, ∃ m₀, s.registration? k = some m₀ ∧
      ∀ bs t, Lts.Run Instance.Steps s bs t →
        (∀ m, t.modules.find? k = some m → m₀.Saved m ∧ m₀.Becomes m (t.writes k)) ∧
        (s.modules.find? k = none → t.modules.find? k = none) := by
  have hnumbered := numbered_of_runs h
  have hstored := stored_of_run ⟨kept_of_runs .nil, fun hm => by simp at hm⟩ h
  have hreturned : s.Returned := h.invariant (P := Instance.Returned) (fun hc => by cases hc)
    fun _ _ _ hs hst => Instance.Returned.step hs (transition_of_step hst)
  have hmax : s.idCounter = Int32.maxValue ↔ s.givenIds.length = 2 ^ 31 - 1 := by
    rw [← Int32.toInt_inj, hnumbered.counter, Int32.toInt_maxValue]
    omega
  refine ⟨fun k m hm => ?_, ⟨hnumbered.nodup, hnumbered.counter, hmax, fun _ _ _ => hreturned⟩, ?_⟩
  · obtain ⟨hid, hnonneg, hlt⟩ := hstored.1.fresh.key hm
    obtain ⟨m₀, hm₀, -⟩ := hstored.2 hm
    exact ⟨hnonneg, hlt, hid, mem_givenIds.2 ⟨m₀, hm₀⟩⟩
  · intro k hk
    obtain ⟨m₀, hm₀⟩ := mem_givenIds.1 hk
    have hlt : k < s.idCounter := by
      by_contra hle
      cases hm₀.symm.trans (hstored.1.unused k (not_lt.1 hle)).1
    refine ⟨m₀, hm₀, fun bs t ht => ⟨fun m hm => ?_, fun hnone => ?_⟩⟩
    · have hstored' := stored_of_run hstored ht
      obtain ⟨m₁, hm₁, hbecomes⟩ := hstored'.2 hm
      cases hm₁.symm.trans (registration?_of_run ht hm₀)
      exact ⟨hstored'.1.saved hm hm₁, hbecomes⟩
    · exact (gone_of_run ⟨hlt, hnone⟩ ht).2

/-- A client adds a module, which is unregistered, and adds another one with the same id. -/
theorem identity_of_additions : ∃ s, Instance.Runs [
      .connecting false, .task, .flush, .accept 7,
      .read 7 (.json (addition 5) (isUtf8_addition 5)), .task, .resume 7,
      .unregisterModule 0, .task,
      .read 7 (.json (addition 5) (isUtf8_addition 5)), .task] s ∧
    s.givenIds = [0, 1] ∧ s.givenIds.Nodup ∧ s.idCounter.toInt = 2 ∧
    ∀ bs t, Lts.Run Instance.Steps s bs t → t.modules.find? 0 = none := by
  obtain ⟨s, h, hs⟩ := Instance.exists_runs [
      .connecting false, .task, .flush, .accept 7,
      .read 7 (.json (addition 5) (isUtf8_addition 5)), .task, .resume 7,
      .unregisterModule 0, .task,
      .read 7 (.json (addition 5) (isUtf8_addition 5)), .task]
    (fun s => (s.givenIds, s.modules.find? 0)) ([0, 1], none) (by decide +kernel)
  rw [Prod.mk.injEq] at hs
  obtain ⟨hids, hnone⟩ := hs
  obtain ⟨-, ⟨hnodup, hcounter, -⟩, hfound⟩ := identity_of_runs h
  obtain ⟨m₀, -, hlater⟩ := hfound 0 (by rw [hids]; exact List.mem_cons_self)
  refine ⟨s, h, hids, hnodup, by rw [hcounter, hids]; rfl, fun bs t ht => (hlater bs t ht).2 hnone⟩

end Sacs
