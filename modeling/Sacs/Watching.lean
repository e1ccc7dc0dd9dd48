import Sacs.Display
import Sacs.Replay
import Sacs.Replies

/-!
# Watching a module

A page can be there while a module is updated, and follow the updates, or load the module
afterwards. The first is given one value after the other, by `setValue` of the class of
the property, the second one makes its object from the value stored.

* Both show the same (`alike_of_watching`), but for a log: it is meant to be watched, and
  shows the values since the last empty one, the latest first, while a page that loads it
  afterwards has the latest only (`logText`).
-/

namespace Sacs

open JsonMsg ModuleManager
open Sacs.Module (InRange lastWrite_eq save valid valuesOf written written_eq_self)

variable {S : Script}

/-! ## Logs -/

theorem normalizeNewlines_eq_nil {s : Str} : normalizeNewlines s = [] ↔ s = [] := by
  fun_induction normalizeNewlines s <;> simp

/-- Lines that come after the first one can be normalized before. -/
theorem normalizeNewlines_append (s t : Str) :
    normalizeNewlines (s ++ 10 :: normalizeNewlines t) = normalizeNewlines (s ++ 10 :: t) := by
  fun_induction normalizeNewlines s with
  | case1 s ih => simp only [List.cons_append, normalizeNewlines, ih]
  | case2 s hs ih =>
    cases s with
    | nil =>
      -- The line break ends what is now CR LF.
      simp only [List.cons_append, List.nil_append, normalizeNewlines, normalizeNewlines_idem]
    | cons b s =>
      have hcr : ∀ u, normalizeNewlines (13 :: (b :: s ++ 10 :: u)) =
          10 :: normalizeNewlines (b :: s ++ 10 :: u) := fun u => by
        rw [normalizeNewlines]
        exact fun _ he => hs s (by rw [(List.cons.inj he).1])
      rw [List.cons_append (a := 13), List.cons_append (a := 13), hcr, hcr, ih]
  | case3 b s _ hb ih =>
    have hb' : b ≠ 13 := fun he => hb he
    rw [List.cons_append, List.cons_append, normalizeNewlines_cons hb', normalizeNewlines_cons hb',
      ih]
  | case4 =>
    rw [List.nil_append, List.nil_append, normalizeNewlines_cons (by decide),
      normalizeNewlines_cons (by decide), normalizeNewlines_idem]

/-- What a log shows that was given these values: those since the last empty one, the
    latest first. -/
def logText (values : List Str) : Str :=
  List.intercalate [10] (values.reverse.takeWhile (· ≠ []))

theorem logText_append_of_nil {values : List Str} (h : logText values = []) (value : Str) :
    logText (values ++ [value]) = value := by
  have hnil : values.reverse.takeWhile (· ≠ []) = [] := by
    cases hl : values.reverse.takeWhile (· ≠ []) with
    | nil => rfl
    | cons v vs =>
      have hmem : v ∈ values.reverse.takeWhile (· ≠ []) := hl ▸ List.mem_cons_self
      have hv : v ≠ [] := by simpa only [decide_eq_true_eq] using List.mem_takeWhile_imp hmem
      rw [logText, hl] at h
      cases vs <;> simp [List.intercalate, hv] at h
  rw [logText, List.reverse_append, List.reverse_singleton, List.singleton_append,
    List.takeWhile_cons, hnil]
  by_cases hv : value = [] <;> simp [List.intercalate, hv]

theorem logText_append_nil (values : List Str) : logText (values ++ [[]]) = [] := by
  rw [logText, List.reverse_append, List.reverse_singleton, List.singleton_append,
    List.takeWhile_cons_of_neg (by simp)]
  rfl

theorem logText_append {values : List Str} (h : logText values ≠ []) {value : Str}
    (hv : value ≠ []) : logText (values ++ [value]) = value ++ 10 :: logText values := by
  rw [logText, List.reverse_append, List.reverse_singleton, List.singleton_append,
    List.takeWhile_cons_of_pos (by simpa using hv), logText]
  cases hl : values.reverse.takeWhile (· ≠ []) with
  | nil =>
    rw [logText, hl] at h
    exact absurd rfl h
  | cons v vs => simp [List.intercalate]

namespace PropertyView

/-- A log that was given values shows them. -/
theorem foldlM_setValue_log {v : PropertyView S} (hlog : v.type = .log) {values : List Str}
    (hv : v.input = .textArea (normalizeNewlines (logText values))) (values' : List Str) :
    values'.foldlM setValue v =
      some { v with input := .textArea (normalizeNewlines (logText (values ++ values'))) } := by
  induction values' using List.reverseRecOn with
  | nil =>
    rw [List.foldlM_nil, List.append_nil, ← hv]
    rfl
  | append_singleton values' value ih =>
    rw [List.foldlM_append, ih, ← List.append_assoc]
    generalize values ++ values' = vs
    simp only [Option.bind_eq_bind, Option.bind_some, List.foldlM_cons, List.foldlM_nil, setValue,
      hlog, true_and, ne_eq, normalizeNewlines_eq_nil]
    by_cases hvs : logText vs = []
    · rw [if_neg fun h => h.2 hvs, logText_append_of_nil hvs]
      rfl
    · by_cases hvalue : value = []
      · rw [if_neg fun h => h.1 hvalue, hvalue, logText_append_nil]
        rfl
      · rw [if_pos ⟨hvalue, hvs⟩, logText_append hvs hvalue, normalizeNewlines_append]
        rfl

/-- Any other property shows the last value, as if it was made with it. -/
theorem setValue_of_create {v : PropertyView S} {old : Str}
    (hv : create S v.type old = some v.input) (hlog : v.type ≠ .log) (hscript : v.type ≠ .script)
    (value : Str) : ∃ input, create S v.type value = some input ∧
      v.setValue value = some { v with input } := by
  obtain ⟨id, type, label, input⟩ := v
  cases type with
  | log => exact absurd rfl hlog
  | script => exact absurd rfl hscript
  | _ =>
    cases hv
    exact ⟨_, rfl, rfl⟩

theorem foldlM_setValue_of_create {v : PropertyView S} {old : Str}
    (hv : create S v.type old = some v.input) (hlog : v.type ≠ .log) (hscript : v.type ≠ .script)
    (values : List Str) : ∃ input, create S v.type (values.getLast?.getD old) = some input ∧
      values.foldlM setValue v = some { v with input } := by
  induction values using List.reverseRecOn with
  | nil => exact ⟨v.input, hv, rfl⟩
  | append_singleton values value ih =>
    obtain ⟨input, hinput, hfold⟩ := ih
    obtain ⟨input', hinput', hset⟩ :=
      @setValue_of_create S { v with input } _ hinput hlog hscript value
    refine ⟨input', ?_, ?_⟩
    · rw [List.getLast?_append_cons, List.getLast?_singleton]
      exact hinput'
    · rw [List.foldlM_append, hfold]
      simp only [Option.bind_eq_bind, Option.bind_some, List.foldlM_cons, List.foldlM_nil, hset]
      rfl

end PropertyView

/-! ## The host -/

/-- The updates of a call of `UpdateProperties`. -/
def Action.updates? : Action → Option Updates
  | .updateProperties _ ps => some ps
  | _ => none

/-- A host that has nothing to do. -/
structure Instance.Settled (s : Instance) : Prop where
  initialized : s.initialized = true
  serverImpl : s.serverImpl = true
  loop : s.loop = .idle
  threadLoop : s.threadLoop = []
  calls : s.calls = []

/-- The application calls `UpdateProperties` for the module `id`, again once the call has
    returned, and nothing else happens than the loop thread doing its work. -/
def Instance.Updating (id : Int32) (s : Instance) : Action → Prop
  | .updateProperties i _ => i = id ∧ s.calls = []
  | .announce _ | .task => True
  | _ => False

/-- The message that a call announces its updates with. -/
def announcement? (id : Int32) (ps : Updates) : Option Text :=
  (createPropertyUpdated id ps).toOption

/-- The tasks that a call posts. -/
def posts (id : Int32) (ps : Updates) : List Task :=
  .savePropertiesList id ps :: ((announcement? id ps).map Task.handleMessage).toList

def Task.message? : Task → Option Text
  | .handleMessage msg => some msg
  | _ => none

/-- Every list of valid UTF-8 is announced. -/
theorem forall₂_announcement? {id : Int32} {us : List Updates} (hus : ∀ ps ∈ us, Announceable ps) :
    List.Forall₂ (fun ps msg => createPropertyUpdated id ps = .ok msg) us
      (us.filterMap (announcement? id)) := by
  induction us with
  | nil => exact .nil
  | cons ps us ih =>
    obtain ⟨msg, hmsg⟩ := (@createPropertyUpdated_eq_ok_iff id ps).2 (hus ps List.mem_cons_self)
    have hann : announcement? id ps = some msg := by
      rw [announcement?, hmsg]
      rfl
    rw [List.filterMap_cons_some hann]
    exact .cons hmsg (ih fun qs hqs => hus qs (List.mem_cons_of_mem _ hqs))

/-- From `s` to `u`, the application has called `UpdateProperties` with the lists `us`, one
    after the other, and the loop thread has done a part of what this has posted. -/
structure Instance.HasUpdated (s u : Instance) (id : Int32) (m : Module) (w : ClientId)
    (us : List Updates) : Prop where
  initialized : u.initialized = true
  serverImpl : u.serverImpl = true
  loop : u.loop = .idle
  listening : w ∈ ServerImpl.listening u
  calls : u.calls = [] ∨ ∃ ps, u.calls = [(id, ps)]
  tasks : ∃ done, done ++ u.threadLoop ++ u.calls.flatMap (fun c => (posts id c.2).tail) =
    us.flatMap (posts id) ∧
    (∃ m', m.save (done.flatMap (·.saves id)) = .ok m' ∧ u.modules.find? id = some m') ∧
    u.wsClients w = (s.wsClients w).map (· ++ done.filterMap Task.message?)

theorem Module.save_append {m m' m'' : Module} {ps qs : Updates} (h : m.save ps = .ok m')
    (h' : m'.save qs = .ok m'') : m.save (ps ++ qs) = .ok m'' := by
  rw [save, List.foldlM_append]
  exact bind_eq_ok.2 ⟨m', h, h'⟩

namespace Instance.HasUpdated

variable {s u u' : Instance} {id : Int32} {m : Module} {w : ClientId} {us : List Updates}

theorem call (hs : s.HasUpdated u id m w us) {ps : Updates} (hcalls : u.calls = []) :
    s.HasUpdated { u with
      threadLoop := u.threadLoop ++ [.savePropertiesList id ps]
      calls := u.calls ++ [(id, ps)] } id m w (us ++ [ps]) := by
  obtain ⟨done, htasks, hsaved, hsent⟩ := hs.tasks
  refine ⟨hs.initialized, hs.serverImpl, hs.loop, hs.listening, .inr ⟨ps, ?_⟩,
    done, ?_, hsaved, hsent⟩
  · rw [hcalls, List.nil_append]
  · rw [hcalls, List.flatMap_nil, List.append_nil] at htasks
    rw [@List.flatMap_append _ _ us, ← htasks]
    simp [hcalls, posts]

theorem announce (hs : s.HasUpdated u id m w us) {i : Nat} (h : u.announceCall i = .ok u') :
    s.HasUpdated u' id m w us := by
  obtain ⟨done, htasks, hsaved, hsent⟩ := hs.tasks
  rw [announceCall] at h
  rcases hs.calls with hcalls | ⟨ps, hcalls⟩
  · rw [hcalls] at h
    cases h
  · cases i with
    | succ i =>
      rw [hcalls] at h
      cases h
    | zero =>
      rw [hcalls, List.flatMap_singleton] at htasks
      rw [hcalls] at h
      dsimp only [List.getElem?_cons_zero, List.eraseIdx_cons_zero] at h
      rw [ModuleManager.announce] at h
      cases hmsg : createPropertyUpdated id ps with
      | ok msg =>
        rw [hmsg] at h
        cases h
        refine ⟨hs.initialized, hs.serverImpl, hs.loop, hs.listening, .inl rfl,
          done, ?_, hsaved, hsent⟩
        rw [← htasks]
        simp [posts, announcement?, hmsg, Except.toOption, Instance.post]
      | error e =>
        rw [hmsg] at h
        cases h
        refine ⟨hs.initialized, hs.serverImpl, hs.loop, hs.listening, .inl rfl,
          done, ?_, hsaved, hsent⟩
        rw [← htasks]
        simp [posts, announcement?, hmsg, Except.toOption]

theorem save (hs : s.HasUpdated u id m w us) {ps : Updates} {q : List Task}
    (hq : u.threadLoop = .savePropertiesList id ps :: q)
    (h : savePropertiesList { u with threadLoop := q } false id ps = .ok u') :
    s.HasUpdated u' id m w us := by
  obtain ⟨done, htasks, ⟨m₁, hm₁, hfind⟩, hsent⟩ := hs.tasks
  obtain ⟨hnone, -⟩ | ⟨m₁', m₂, hm₁', hm₂, rfl⟩ := savePropertiesList_cases h
  · exact absurd (hfind.symm.trans hnone) (by simp)
  · obtain rfl : m₁ = m₁' := Option.some.inj (hfind.symm.trans hm₁')
    refine ⟨hs.initialized, hs.serverImpl, hs.loop, hs.listening, hs.calls,
      done ++ [.savePropertiesList id ps], ?_, ⟨m₂, ?_, ?_⟩, ?_⟩
    · rw [← htasks, hq]
      simp [Instance.saved]
    · have hsaves : Task.saves (.savePropertiesList id ps) id = ps := if_pos rfl
      rw [List.flatMap_append, List.flatMap_singleton, hsaves]
      exact Module.save_append hm₁ hm₂
    · rw [Instance.saved, OrdMap.find?_modify, if_pos rfl, hfind]
      rfl
    · rw [List.filterMap_append, List.filterMap_cons_none rfl, List.filterMap_nil,
        List.append_nil]
      exact hsent

theorem send (hs : s.HasUpdated u id m w us) {msg : Text} {q : List Task}
    (hq : u.threadLoop = .handleMessage msg :: q)
    (h : handleMessage { u with threadLoop := q } false msg = .ok u') :
    s.HasUpdated u' id m w us := by
  obtain ⟨done, htasks, ⟨m₁, hm₁, hfind⟩, hsent⟩ := hs.tasks
  obtain ⟨hi, -⟩ | ⟨-, h⟩ := handleMessage_cases h
  · exact absurd (hs.initialized.symm.trans hi) (by decide)
  obtain ⟨-, rfl⟩ | ⟨hno, -⟩ := pushMsg_cases h
  · clear h
    have hlistening : w ∈ ServerImpl.listening (({ u with threadLoop := q } : Instance).log
      (.handled msg)) := hs.listening
    generalize hu : ({ u with threadLoop := q } : Instance).log (.handled msg) = u₁ at hlistening
    have hemits := pushMsgForJS_emits u₁ msg
    have hbroadcast := broadcast_pushMsgForJS u₁ msg
    subst hu
    refine ⟨hemits.initialized.trans hs.initialized, hemits.serverImpl.trans hs.serverImpl,
      hemits.loop.trans hs.loop, hbroadcast.listening w hlistening, ?_,
      done ++ [.handleMessage msg], ?_, ⟨m₁, ?_, ?_⟩, ?_⟩
    · rw [hemits.calls]
      exact hs.calls
    · rw [hemits.threadLoop, hemits.calls, ← htasks, hq]
      simp [Instance.log]
    · rw [List.flatMap_append]
      simpa [Task.saves] using hm₁
    · rw [hemits.modules]
      exact hfind
    · rw [hbroadcast.wsClients, if_pos hlistening]
      dsimp only [Instance.log]
      rw [hsent, Option.map_map, List.filterMap_append]
      congr 1
      funext sent
      simp [Task.message?]
  · exact absurd (hs.serverImpl.symm.trans hno) (by decide)

theorem task (hs : s.HasUpdated u id m w us) (h : u.step .task = .ok u') :
    s.HasUpdated u' id m w us := by
  obtain ⟨done, htasks, -⟩ := hs.tasks
  cases hq : u.threadLoop with
  | nil =>
    rw [Instance.step, nextTask, hq, hs.loop] at h
    cases h
  | cons t q =>
    have hmem : t ∈ us.flatMap (posts id) := by
      rw [← htasks, hq]
      simp
    have ht : Takes u t q := ⟨hs.loop, hq⟩
    rw [ht.step_task] at h
    obtain ⟨ps, -, hposts⟩ := List.mem_flatMap.1 hmem
    rw [posts, List.mem_cons, Option.mem_toList, Option.map_eq_some_iff] at hposts
    obtain rfl | ⟨msg, -, rfl⟩ := hposts
    · exact hs.save hq h
    · exact hs.send hq h

theorem step (hs : s.HasUpdated u id m w us) {a : Action} (ha : u.Updating id a)
    (h : u.step a = .ok u') : s.HasUpdated u' id m w (us ++ a.updates?.toList) := by
  cases a with
  | updateProperties i ps =>
    obtain ⟨rfl, hcalls⟩ := ha
    cases h
    exact hs.call hcalls
  | announce i =>
    rw [show Action.updates? (.announce i) = none from rfl, Option.toList_none, List.append_nil]
    exact hs.announce h
  | task =>
    rw [show Action.updates? .task = none from rfl, Option.toList_none, List.append_nil]
    exact hs.task h
  | _ => exact ha.elim

theorem of_run {as : List Action} (h : Lts.Run (Lts.Under (Updating id) Steps) s as u)
    (hs : s.Settled) (hm : s.modules.find? id = some m) (hw : w ∈ ServerImpl.listening s) :
    s.HasUpdated u id m w (as.filterMap Action.updates?) := by
  induction h with
  | nil =>
    refine ⟨hs.initialized, hs.serverImpl, hs.loop, hw, .inl hs.calls, [], ?_, ⟨m, rfl, hm⟩, ?_⟩
    · rw [hs.threadLoop, hs.calls]
      rfl
    · cases s.wsClients w <;> simp
  | @snoc as t u a _ hst ih =>
    have hlast : [a].filterMap Action.updates? = a.updates?.toList := by
      rw [List.filterMap_cons]
      cases a.updates? <;> rfl
    rw [List.filterMap_append, hlast]
    exact ih.step hst.1 hst.2

/-- Once all is done, the lists are saved, and those that can be announced are sent. -/
theorem settled (hs : s.HasUpdated u id m w us) (hu : u.Settled) :
    (∃ m', m.save us.flatten = .ok m' ∧ u.modules.find? id = some m') ∧
    u.wsClients w = (s.wsClients w).map (· ++ us.filterMap (announcement? id)) := by
  obtain ⟨done, htasks, ⟨m', hm', hfind⟩, hsent⟩ := hs.tasks
  rw [hu.threadLoop, hu.calls, List.flatMap_nil, List.append_nil, List.append_nil] at htasks
  have hsaves : done.flatMap (·.saves id) = us.flatten := by
    rw [htasks, List.flatMap_assoc, List.flatten_eq_flatMap]
    refine congrArg (us.flatMap ·) (funext fun ps => ?_)
    cases h : announcement? id ps <;> simp [posts, Task.saves, h]
  have hmsgs : done.filterMap Task.message? = us.filterMap (announcement? id) := by
    rw [htasks, List.filterMap_flatMap, List.filterMap_eq_flatMap_toList]
    refine congrArg (us.flatMap ·) (funext fun ps => ?_)
    rw [posts, List.filterMap_cons_none rfl]
    cases announcement? id ps <;> rfl
  exact ⟨⟨m', hsaves ▸ hm', hfind⟩, hmsgs ▸ hsent⟩

end Instance.HasUpdated

/-! ## The page -/

theorem Module.valid_eq_self {ps : Updates} {n : Nat} (h : InRange ps n) : valid n ps = ps := by
  rw [valid, List.takeWhile_eq_self_iff]
  intro u hu
  have := h.toInt u hu
  simp [this]

namespace ModuleView

theorem isPlain_setValues {view : ModuleView S} (hview : ∀ v ∈ view.properties, v.IsPlain)
    (ps : Updates) : ∀ v ∈ (view.setValues ps).properties, v.IsPlain := by
  induction ps generalizing view with
  | nil => exact hview
  | cons u ps ih =>
    rw [setValues]
    obtain ⟨v, v', -, -, -, hplain, hset⟩ | ⟨-, hset⟩ := setPoropertyValue_cases hview u.1 u.2
    · rw [hset]
      refine ih fun w hw => ?_
      exact (List.mem_or_eq_of_mem_set hw).elim (hview w) fun he => he ▸ hplain
    · rw [hset]
      exact hview

theorem length_foldl_setValues (view : ModuleView S) (us : List Updates) :
    (us.foldl setValues view).properties.length = view.properties.length := by
  induction us generalizing view with
  | nil => rfl
  | cons ps us ih => rw [List.foldl_cons, ih, length_setValues]

/-- Lists processed one after the other are one list, if none throws. -/
theorem foldl_setValues {view : ModuleView S} (hview : ∀ v ∈ view.properties, v.IsPlain)
    {us : List Updates} (hus : ∀ ps ∈ us, InRange ps view.properties.length) (k : Nat) :
    (us.foldl setValues view).properties[k]? = (view.properties[k]?).bind fun v =>
      (valuesOf us.flatten k).foldlM PropertyView.setValue v := by
  induction us generalizing view with
  | nil => cases h : view.properties[k]? <;> simp [valuesOf, h]
  | cons ps us ih =>
    have hps := hus ps List.mem_cons_self
    have hus' : ∀ qs ∈ us, InRange qs (view.setValues ps).properties.length := fun qs hqs => by
      rw [length_setValues]
      exact hus qs (List.mem_cons_of_mem _ hqs)
    rw [List.foldl_cons, ih (isPlain_setValues hview ps) hus', setValues_getElem? hview,
      Module.valid_eq_self hps, List.flatten_cons, Module.valuesOf_append, Option.bind_assoc]
    congr 1
    funext v
    rw [List.foldlM_append]
    rfl

end ModuleView

/-- The page processes the messages of lists of updates. -/
theorem Page.objects_foldl_onMessage {page : Page S} {id : Int32} {k : Nat} {view : ModuleView S}
    (hmodule : page.modules.find? id = some k) (hview : page.objects[k]? = some view)
    {us : List Updates} {msgs : List Text}
    (hmsgs : List.Forall₂ (fun ps msg => createPropertyUpdated id ps = .ok msg) us msgs) :
    (msgs.foldl Page.onMessage page).objects[k]? = some (us.foldl ModuleView.setValues view) := by
  induction hmsgs generalizing page view with
  | nil => exact hview
  | @cons ps msg us msgs hmsg _ ih =>
    obtain ⟨hlt, -⟩ := List.getElem?_eq_some_iff.1 hview
    have hpage : page.onMessage msg =
        { page with objects := page.objects.set k (view.setValues ps) } := by
      rw [Page.onMessage_eq, Page.msgOf_createPropertyUpdated hmsg, Page.handle,
        Page.setModulePoperties_page hmodule hview]
    rw [List.foldl_cons, List.foldl_cons, hpage]
    exact ih hmodule (List.getElem?_set_self hlt)

/-! ## Both pages -/

/-- The page makes the object `k`, a view of the module `id`, on the message. -/
structure Page.Loads (page : Page S) (msg : Text) (id : Int32) (k : Nat) (view : ModuleView S) :
    Prop where
  new : page.objects.length ≤ k
  module : (page.onMessage msg).modules.find? id = some k
  object : (page.onMessage msg).objects[k]? = some view
  id : view.id = id

/-- The properties are of types the wrapper has, and no scripts. -/
def Module.OfWrapper (m : Module) : Prop :=
  ∀ p ∈ m.properties, p.readOnly = false ∧
    ∃ type : ModuleProperty.Type, type ≠ .script ∧ p.type = type.toInt

/-- What a page shows that watches, for a property that has had these values, and a page
    that loads the module afterwards. -/
structure PropertyView.Alike (values : List Str) (v v' : PropertyView S) : Prop where
  id : v.id = v'.id
  type : v.type = v'.type
  label : v.label = v'.label
  input : v.type ≠ .log → v.input = v'.input
  log : v.type = .log → v.input = .textArea (normalizeNewlines (logText values)) ∧
    v'.input = .textArea (normalizeNewlines (values.getLast?.getD []))

theorem Module.ofWrapper_of_saved {m₀ m : Module} {properties : List ModuleProperty}
    (h : m₀.Saved m) (hm₀ : m₀.properties = properties.map SacsWrapper.toProperty)
    (hscript : ∀ p ∈ properties, p.type ≠ .script) : m.OfWrapper := by
  intro p hp
  have hshape := congrArg Prod.snd h.shape
  simp only [shape, hm₀, List.map_map] at hshape
  have hmem := List.mem_map_of_mem (f := fun p : Property => (p.type, p.name, p.readOnly)) hp
  rw [hshape, List.mem_map] at hmem
  obtain ⟨q, hq, he⟩ := hmem
  simp only [Function.comp_apply, SacsWrapper.toProperty, Prod.mk.injEq] at he
  refine ⟨?_, q.type, hscript q hq, he.1.symm⟩
  rw [← he.2.2, SacsWrapper.isPropertyTypeForReadOnly, decide_eq_false (hscript q hq)]

theorem ModuleProperty.Type.exists_fromId {type : ModuleProperty.Type} (h : type ≠ .script) :
    ∃ t, PropertyType.fromId type.toInt = some t ∧ t ≠ .script := by
  cases type with
  | script => exact absurd rfl h
  | _ => exact ⟨_, rfl, by decide⟩

theorem Module.OfWrapper.known {m : Module} (h : m.OfWrapper) :
    ∀ p ∈ m.properties, p.known = true := by
  intro p hp
  obtain ⟨-, type, hscript, htype⟩ := h p hp
  obtain ⟨t, ht, -⟩ := type.exists_fromId hscript
  rw [Property.known, htype, ht]
  rfl

/-- A view has one object for each property, at its place. -/
theorem Module.OfWrapper.getElem? {m : Module} (h : m.OfWrapper) {view : ModuleView S}
    (hview : view.Renders { m with callback := none }) {i : Nat} {p : Property}
    (hp : m.properties[i]? = some p) :
    ∃ v, view.properties[i]? = some v ∧ v.id = i ∧ v.Shows p ∧ v.type ≠ .script := by
  have hknown := h.known p (List.mem_of_getElem? hp)
  obtain ⟨hi, -⟩ := List.getElem?_eq_some_iff.1 hp
  obtain ⟨v, hv⟩ := Module.exists_makes hview hp hknown
  obtain ⟨hget, hid, p', hp', hshows⟩ := hv.getElem? hview
  obtain rfl : p = p' := Option.some.inj (hp.symm.trans hp')
  have hmade : Module.made { m with callback := none } i = i :=
    (Module.made_eq_iff hi).2 fun j q _ hq => h.known q (List.mem_of_getElem? hq)
  rw [hmade] at hget hid
  refine ⟨v, hget, hid, hshows, ?_⟩
  obtain ⟨-, type, hscript, htype⟩ := h p (List.mem_of_getElem? hp)
  obtain ⟨t, ht, hne⟩ := type.exists_fromId hscript
  have hv' := hshows.type
  rw [htype, ht] at hv'
  rwa [← Option.some.inj hv']

theorem Module.OfWrapper.length {m : Module} (h : m.OfWrapper) {view : ModuleView S}
    (hview : view.Renders { m with callback := none }) :
    view.properties.length = m.properties.length := by
  obtain ⟨view₀, hview₀, rfl⟩ := hview
  obtain ⟨vs, hvs, hlen⟩ := ModuleView.append_of_addProperty hview₀
  have hcount : m.properties.countP Property.known = m.properties.length :=
    List.countP_eq_length.2 h.known
  exact (congrArg List.length (hvs.trans (List.nil_append vs))).trans (hlen.trans hcount)

theorem Module.OfWrapper.isPlain {m : Module} (h : m.OfWrapper) {view : ModuleView S}
    (hview : view.Renders { m with callback := none }) : ∀ v ∈ view.properties, v.IsPlain := by
  intro v hv obj hinput
  obtain ⟨i, hi⟩ := List.mem_iff_getElem?.1 hv
  obtain ⟨hlt, -⟩ := List.getElem?_eq_some_iff.1 hi
  obtain ⟨v', hv', -, hshows, hne⟩ := h.getElem? hview
    (List.getElem?_eq_getElem (h.length hview ▸ hlt))
  obtain rfl : v = v' := Option.some.inj (hi.symm.trans hv')
  have hcreate := hshows.input
  rw [hinput] at hcreate
  cases htype : v.type with
  | script => exact hne htype
  | _ =>
    rw [htype] at hcreate
    cases hcreate

/-- The object made for a value before updates, and given their values, and the one made
    for the value after them. -/
theorem PropertyView.alike_of_shows {p : Property} {v v' : PropertyView S} (hid : v.id = v'.id)
    (hv : v.Shows p) (hscript : v.type ≠ .script) {values : List Str}
    (hv' : v'.Shows { p with value := values.getLast?.getD p.value }) :
    ∃ v'', values.foldlM setValue v = some v'' ∧ v''.Alike (p.value :: values) v' := by
  have htype : v.type = v'.type := Option.some.inj (hv.type.symm.trans hv'.type)
  have hlabel : v.label = v'.label := hv.label.trans hv'.label.symm
  by_cases hlog : v.type = .log
  · have hinput : v.input = .textArea (normalizeNewlines (logText [p.value])) := by
      have hcreate := hv.input
      have hone : logText [p.value] = p.value := @logText_append_of_nil [] rfl p.value
      rw [hlog] at hcreate
      rw [hone]
      exact (Option.some.inj hcreate).symm
    have hinput' : v'.input =
        .textArea (normalizeNewlines (values.getLast?.getD p.value)) := by
      have hcreate := hv'.input
      rw [← htype, hlog] at hcreate
      exact (Option.some.inj hcreate).symm
    refine ⟨_, foldlM_setValue_log hlog hinput values, hid, htype, hlabel, fun hno => ?_,
      fun _ => ⟨rfl, ?_⟩⟩
    · exact absurd hlog hno
    · rw [hinput', List.getLast?_cons, Option.getD_some]
  · obtain ⟨input, hinput, hfold⟩ := foldlM_setValue_of_create hv.input hlog hscript values
    refine ⟨_, hfold, hid, htype, hlabel, fun _ => ?_, fun h => absurd h hlog⟩
    have hcreate := hv'.input
    rw [← htype, hinput] at hcreate
    exact Option.some.inj hcreate

/-- A module was registered with the wrapper, without scripts, and the host processes calls
    of `UpdateProperties` for it, one after the other. A web client is sent a message for
    each. If its page has loaded the module before, and processes the messages, it shows
    what a page shows that loads the module after the calls, but for logs. -/
theorem alike_of_watching {as bs : List Action} {s s' : Instance} (h : Instance.Runs as s)
    (hs : s.Settled) {id : Int32} {m₀ m : Module} {properties : List ModuleProperty}
    (hreg : s.registration? id = some m₀)
    (hm₀ : m₀.properties = properties.map SacsWrapper.toProperty)
    (hscript : ∀ p ∈ properties, p.type ≠ .script) (hm : s.modules.find? id = some m)
    {w : ClientId} (hw : w ∈ ServerImpl.listening s) {page : Page S} {msg : Text} {k : Nat}
    {view : ModuleView S} (hmsg : s.Describes msg) (hview : page.Loads msg id k view)
    (h' : Lts.Run (Lts.Under (Instance.Updating id) Instance.Steps) s bs s') (hs' : s'.Settled)
    (hbs : ∀ ps ∈ bs.filterMap Action.updates?, InRange ps properties.length ∧ Announceable ps)
    {page' : Page S} {msg' : Text} {k' : Nat} {view' : ModuleView S} (hmsg' : s'.Describes msg')
    (hview' : page'.Loads msg' id k' view') :
    ∃ msgs view'', s'.wsClients w = (s.wsClients w).map (· ++ msgs) ∧
      List.Forall₂ (fun ps msg => createPropertyUpdated id ps = .ok msg)
        (bs.filterMap Action.updates?) msgs ∧
      (msgs.foldl Page.onMessage (page.onMessage msg)).objects[k]? = some view'' ∧
      view''.properties.length = properties.length ∧
      view'.properties.length = properties.length ∧
      ∀ i p, m.properties[i]? = some p → ∃ v v' : PropertyView S,
        view''.properties[i]? = some v ∧ view'.properties[i]? = some v' ∧
        v.Alike (p.value :: valuesOf (bs.filterMap Action.updates?).flatten i) v' := by
  have hkept := kept_of_runs h
  have hsaved := hkept.saved hm hreg
  have hwrapper := Module.ofWrapper_of_saved hsaved hm₀ hscript
  have hlen : m.properties.length = properties.length := by
    rw [hsaved.length_eq, hm₀, List.length_map]
  -- What the host does.
  obtain ⟨⟨m', hm', hfind'⟩, hsent⟩ :=
    (Instance.HasUpdated.of_run h' hs hm hw).settled hs'
  generalize bs.filterMap Action.updates? = us at *
  have hmsgs := @forall₂_announcement? id us fun ps hps => (hbs ps hps).2
  have hrange : ∀ ps ∈ us, InRange ps m.properties.length := fun ps hps => hlen ▸ (hbs ps hps).1
  have hstored := Module.save_of_inRange hm' fun u hu => by
    obtain ⟨ps, hps, hu⟩ := List.mem_flatten.1 hu
    exact hrange ps hps u hu
  -- What the pages load.
  have hrenders : view.Renders { m with callback := none } := by
    obtain ⟨id', m₁, hm₁, hrenders⟩ := renders_of_describes hmsg hview.object hview.new
    obtain rfl : id' = id :=
      ((hkept.fresh.key hm₁).1.symm.trans hrenders.id_eq.symm).trans hview.id
    rwa [Option.some.inj (hm.symm.trans hm₁)]
  have hrenders' : view'.Renders { m' with callback := none } := by
    obtain ⟨id', m₁, hm₁, hrenders'⟩ := renders_of_describes hmsg' hview'.object hview'.new
    have hkept' := kept_of_runs (h.append h'.of_under)
    obtain rfl : id' = id :=
      ((hkept'.fresh.key hm₁).1.symm.trans hrenders'.id_eq.symm).trans hview'.id
    rwa [Option.some.inj (hfind'.symm.trans hm₁)]
  have hsaved' := Module.save_saved hm'
  have hwrapper' := Module.ofWrapper_of_saved (hsaved.trans hsaved') hm₀ hscript
  have hlength := hwrapper.length hrenders
  have hupdated := ModuleView.foldl_setValues (hwrapper.isPlain hrenders)
    fun ps hps => hlength.symm ▸ hrange ps hps
  refine ⟨us.filterMap (announcement? id), us.foldl ModuleView.setValues view, hsent, hmsgs,
    Page.objects_foldl_onMessage hview.module hview.object hmsgs, ?_, ?_, fun i p hp => ?_⟩
  · rw [ModuleView.length_foldl_setValues, hlength, hlen]
  · rw [hwrapper'.length hrenders', hsaved'.length_eq, hlen]
  · obtain ⟨v, hv, hvid, hshows, hne⟩ := hwrapper.getElem? hrenders hp
    have hro := (hwrapper p (List.mem_of_getElem? hp)).1
    have hp' := hstored i
    rw [hp, Option.map_some, Module.written, if_neg (hro ▸ Bool.false_ne_true),
      Module.overwrite_eq, lastWrite_eq] at hp'
    obtain ⟨v', hv', hvid', hshows', -⟩ := hwrapper'.getElem? hrenders' hp'
    obtain ⟨v'', hfold, halike⟩ :=
      PropertyView.alike_of_shows (hvid.trans hvid'.symm) hshows hne hshows'
    refine ⟨v'', v', ?_, hv', halike⟩
    rw [hupdated, hv, Option.bind_some, hfold]

/-! ### A station -/

instance instDecidableUpdating (id : Int32) (s : Instance) (a : Action) :
    Decidable (s.Updating id a) :=
  haveI : Decidable (s.calls = []) := decidable_of_iff _ List.isEmpty_iff
  match a with
  | .updateProperties i _ => inferInstanceAs (Decidable (i = id ∧ s.calls = []))
  | .announce _ | .task => .isTrue trivial
  | .registerModule .. | .unregisterModule _ | .flush | .callbackRegisterModule ..
  | .callbackUnregisterModule _ | .callbackUpdateProperties .. | .callbackReturn | .connecting _
  | .proxyRead _ | .accept _ | .read .. | .resume _ | .closed _ | .wsConnected _ | .wsMessage ..
  | .wsReply _ | .wsClosed _ | .wsExpired _ => .isFalse False.elim

def stationProperties : List ModuleProperty :=
  [⟨.text, Str.lit "Level", Str.lit "low"⟩, ⟨.log, Str.lit "Events", Str.lit "on"⟩]

/-- A module with a text and a log. -/
def station (level events : Str) : Module :=
  ⟨0, Str.lit "Station", [⟨3, Str.lit "Level", level, false⟩,
    ⟨9, Str.lit "Events", events, false⟩], none⟩

def stationView (level events : Str) : ModuleView plain where
  id := 0
  name := Str.lit "Station"
  properties := [⟨0, .text, Str.lit "Level", .text (stripNewlines level)⟩,
    ⟨1, .log, Str.lit "Events", .textArea (normalizeNewlines events)⟩]
  applyButton := true

/-- An instance becomes the host, registers the module and has a web client. -/
def watched : List Action :=
  [.connecting false, .task, .flush, SacsWrapper.registerModule (Str.lit "Station")
    stationProperties none, .task, .wsConnected 5]

def reports : List Updates :=
  [[(0, Str.lit "high"), (1, Str.lit "hot")], [(1, Str.lit "off")]]

/-- The station is updated twice. The first announcement waits for the loop. -/
def watching : List Action :=
  [.updateProperties 0 [(0, Str.lit "high"), (1, Str.lit "hot")], .task, .announce 0,
    .updateProperties 0 [(1, Str.lit "off")], .announce 0, .task, .task, .task]

def Instance.isSettled (s : Instance) : Bool :=
  s.initialized && s.serverImpl && s.loop.isIdle && s.threadLoop.isEmpty && s.calls.isEmpty

theorem Instance.settled_of_isSettled {s : Instance} (h : s.isSettled = true) : s.Settled := by
  simp only [isSettled, Bool.and_eq_true, List.isEmpty_iff] at h
  obtain ⟨⟨⟨⟨hinit, hserver⟩, hloop⟩, hqueue⟩, hcalls⟩ := h
  exact ⟨hinit, hserver, LoopPc.eq_idle hloop, hqueue, hcalls⟩

theorem loads_station {level events : Str} {msg : Text}
    (hmsg : createModuleAdded (station level events) = .ok msg) :
    ({} : Page plain).Loads msg 0 0 (stationView level events) := by
  have hpage : ({} : Page plain).onMessage msg =
      ((({} : Page plain).handle (.moduleAdded (station level events))).page) := by
    rw [Page.onMessage_eq, Page.msgOf_createModuleAdded hmsg]
    rfl
  have hobjects : (({} : Page plain).onMessage msg).objects = [stationView level events] := by
    rw [hpage]
    rfl
  refine ⟨le_rfl, ?_, by rw [hobjects]; rfl, rfl⟩
  rw [hpage]
  rfl

/-- The host before and after the updates, and what pages load from it. -/
theorem exists_watching : ∃ s s' m₀ msg msg', Instance.Runs watched s ∧ s.Settled ∧
    s.registration? 0 = some m₀ ∧ m₀.properties = stationProperties.map SacsWrapper.toProperty ∧
    s.modules.find? 0 = some (station (Str.lit "low") (Str.lit "on")) ∧
    5 ∈ ServerImpl.listening s ∧ s.Describes msg ∧
    ({} : Page plain).Loads msg 0 0 (stationView (Str.lit "low") (Str.lit "on")) ∧
    Lts.Run (Lts.Under (Instance.Updating 0) Instance.Steps) s watching s' ∧ s'.Settled ∧
    s'.Describes msg' ∧
    ({} : Page plain).Loads msg' 0 0 (stationView (Str.lit "high") (Str.lit "off")) := by
  obtain ⟨s, s', h, h', hobs⟩ := Lts.exists_runs_of_foldlM (Instance.Updating 0)
    Instance.step .disabled {} watched watching
    (fun s s' => ((s.isSettled, s'.isSettled, decide (5 ∈ ServerImpl.listening s)),
      s.registration? 0, s.modules.find? 0, s'.modules.find? 0))
    ((true, true, true), some (station (Str.lit "low") (Str.lit "on")),
      some (station (Str.lit "low") (Str.lit "on")),
      some (station (Str.lit "high") (Str.lit "off")))
    (by decide +kernel)
  simp only [Prod.mk.injEq, decide_eq_true_eq] at hobs
  obtain ⟨⟨hs, hs', hw⟩, hreg, hm, hm'⟩ := hobs
  obtain ⟨msg, hmsg⟩ := (@exists_createModuleAdded
    (station (Str.lit "low") (Str.lit "on"))).2 ⟨by decide, by decide⟩
  obtain ⟨msg', hmsg'⟩ := (@exists_createModuleAdded
    (station (Str.lit "high") (Str.lit "off"))).2 ⟨by decide, by decide⟩
  exact ⟨s, s', _, msg, msg', h, Instance.settled_of_isSettled hs, hreg, rfl, hm, hw,
    .inl ⟨0, _, hm, hmsg⟩, loads_station hmsg, h', Instance.settled_of_isSettled hs',
    .inl ⟨0, _, hm', hmsg'⟩, loads_station hmsg'⟩

/-- The text shows `high` in both pages. -/
theorem alike_of_watching_station : ∃ s s' msg msg' msgs view'', Instance.Runs watched s ∧
    s.Describes msg ∧ Lts.Run Instance.Steps s watching s' ∧ s'.Describes msg' ∧
    s'.wsClients 5 = (s.wsClients 5).map (· ++ msgs) ∧
    (msgs.foldl Page.onMessage (({} : Page plain).onMessage msg)).objects[0]? = some view'' ∧
    ∀ i p, (station (Str.lit "low") (Str.lit "on")).properties[i]? = some p →
      ∃ v v' : PropertyView plain, view''.properties[i]? = some v ∧
        (stationView (Str.lit "high") (Str.lit "off")).properties[i]? = some v' ∧
        v.Alike (p.value :: valuesOf reports.flatten i) v' := by
  obtain ⟨s, s', m₀, msg, msg', h, hs, hreg, hm₀, hm, hw, hmsg, hview, h', hs', hmsg', hview'⟩ :=
    exists_watching
  obtain ⟨msgs, view'', hsent, -, hobject, -, -, halike⟩ := alike_of_watching h hs hreg hm₀
    (by decide) hm hw hmsg hview h' hs' (by decide) hmsg' hview'
  exact ⟨s, s', msg, msg', msgs, view'', h, hmsg, h'.of_under, hmsg', hsent, hobject, halike⟩

/-- The log shows the latest value in a page that loads it, and those before as well in the
    page that has watched. -/
theorem not_alike_of_log : ∃ s s' msg msg' msgs v v', Instance.Runs watched s ∧
    s.Describes msg ∧ Lts.Run (Lts.Under (Instance.Updating 0) Instance.Steps) s watching s' ∧
    s'.Describes msg' ∧ s'.wsClients 5 = (s.wsClients 5).map (· ++ msgs) ∧
    ((msgs.foldl Page.onMessage (({} : Page plain).onMessage msg)).objects[0]?).bind
      (·.properties[1]?) = some v ∧
    ((({} : Page plain).onMessage msg').objects[0]?).bind (·.properties[1]?) = some v' ∧
    v.input = .textArea (Str.lit "off\nhot\non") ∧ v'.input = .textArea (Str.lit "off") := by
  obtain ⟨s, s', m₀, msg, msg', h, hs, -, -, hm, hw, hmsg, hview, h', hs', hmsg', hview'⟩ :=
    exists_watching
  obtain ⟨-, hsent⟩ := (Instance.HasUpdated.of_run h' hs hm hw).settled hs'
  have hmsgs := @forall₂_announcement? 0 reports (by decide)
  have hobject := Page.objects_foldl_onMessage hview.module hview.object hmsgs
  refine ⟨s, s', msg, msg', _, ⟨1, .log, Str.lit "Events", .textArea (Str.lit "off\nhot\non")⟩,
    ⟨1, .log, Str.lit "Events", .textArea (Str.lit "off")⟩, h, hmsg, h', hmsg', hsent,
    ?_, ?_, rfl, rfl⟩
  · exact (Option.bind_eq_some_iff).2 ⟨_, hobject, rfl⟩
  · exact (Option.bind_eq_some_iff).2 ⟨_, hview'.object, rfl⟩

end Sacs
