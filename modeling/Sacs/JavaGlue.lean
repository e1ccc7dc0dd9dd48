import Sacs.Android
import Sacs.Routing

/-!
# The Java side of the Android glue

The `SacsWrapper` of Java keeps the objects that handle the updates of the modules in a
map, by the ids of the modules. `registerModule` puts the object there only when the native
`RegisterModule` has returned the id, at which time the module is known to the web clients
already. The `MsgThread` looks the object up for every update (`JavaGlue.step`).

* An update may come before the object is in the map: nothing is found, and the call of
  its handler throws (`not_sound_of_early`).
* What is found is the object the module was registered with, in exactly the runs in which
  no update is handed to Java while the thread that has registered its module is about to
  put the object in the map (`sound_iff_putFirst`).

The `SacsWrapper` is there and valid. An access to the map is one step.
-/

namespace Sacs

open JsonMsg ModuleManager

/-! ## Modules of the application -/

/-- The task registers a module for a thread of the application. -/
def Task.isApp : Task → Bool
  | .doRegisterModule _ .app => true
  | _ => false

theorem Task.eq_of_isApp {t : Task} (h : t.isApp = true) : ∃ m, t = .doRegisterModule m .app := by
  cases t with
  | doRegisterModule m promise =>
    cases promise with
    | app => exact ⟨m, rfl⟩
    | _ => cases h
  | _ => cases h

/-- The id that the step gives to a module of the application. -/
def Instance.appId? (s : Instance) : Action → Option Int32
  | .task => if s.threadLoop.head?.any Task.isApp then some s.idCounter else none
  | _ => none

/-- The calls of `RegisterModule` by the application that the action is. -/
def Action.registers : Action → Nat
  | .registerModule .. => 1
  | _ => 0

theorem Instance.appId?_eq_none {s : Instance} {a : Action} (h : a ≠ .task) :
    s.appId? a = none := by
  cases a with
  | task => exact absurd rfl h
  | _ => rfl

theorem Takes.appId? {s : Instance} {t : Task} {q : List Task} (h : Takes s t q) :
    s.appId? .task = if t.isApp then some s.idCounter else none := by
  rw [Instance.appId?, h.threadLoop]
  rfl

/-- The id given is the counter, which is increased. -/
theorem Transition.counter_of_appId {s s' : Instance} {a : Action} {id : Int32}
    (h : Transition s a s') (hid : s.appId? a = some id) :
    id = s.idCounter ∧ s.idCounter < s'.idCounter := by
  by_cases hne : a = .task
  · subst hne
    obtain ⟨t, ht⟩ := h.takes
    generalize s'.threadLoop = q at ht
    rw [ht.appId?] at hid
    split_ifs at hid with happ
    obtain ⟨m, rfl⟩ := Task.eq_of_isApp happ
    cases hid
    refine ⟨rfl, ?_⟩
    cases h with
    | taskRegister _ hmax _ h =>
      rw [fulfil_idCounter, (handleMessage_emits h).idCounter]
      exact lt_add_one hmax
    | _ => exact Task.noConfusion (ht.inj ‹_›).1
  · rw [Instance.appId?_eq_none hne] at hid
    cases hid

/-- Every module of the application is registered by its task. -/
theorem Transition.count_app {s s' : Instance} {a : Action} (h : Transition s a s') :
    s'.threadLoop.countP Task.isApp + (s.appId? a).toList.length =
      s.threadLoop.countP Task.isApp + a.registers := by
  rcases h.posts with ⟨rfl, t, ht⟩ | ⟨hne, ts, hts, hposts⟩
  · rw [ht.appId?, ht.threadLoop, List.countP_cons]
    split_ifs <;> rfl
  · rw [Instance.appId?_eq_none hne, hts, List.countP_append]
    by_cases hreg : a.registers = 0
    · rw [hreg]
      cases hposts with
      | registerModule => cases hreg
      | _ => rfl
    · cases a with
      | registerModule n ps cb =>
        cases h
        rw [← List.append_cancel_left hts]
        rfl
      | _ => exact absurd rfl hreg

/-- The application registers its modules with the ids `ids`, and no other ones have a
    callback. -/
structure Instance.Named (s : Instance) (ids : List Int32) : Prop where
  fresh : s.Fresh
  queued : ∀ t ∈ s.threadLoop, ∀ m promise, t = .doRegisterModule m promise →
    m.callback.isSome → promise = .app
  modules : ∀ {id m}, s.modules.find? id = some m → m.callback.isSome → id ∈ ids
  invocations : ∀ inv ∈ s.invocations, inv.moduleId ∈ ids
  lt : ∀ id ∈ ids, id < s.idCounter

theorem Instance.Named.step {s s' : Instance} {ids : List Int32} {a : Action} (hs : s.Named ids)
    (h : Transition s a s') (ha : Android.allows a = true ∨ a = .callbackReturn) :
    s'.Named (ids ++ (s.appId? a).toList) where
  fresh := h.registry.fresh hs.fresh
  queued := by
    refine h.forall_tasks hs.queued (fun _ => id) fun ts hts t ht m promise heq hsome => ?_
    cases hts with
    | none => cases ht
    | registerModule =>
      cases (List.mem_singleton.1 ht).symm.trans heq
      rfl
    | callbackRegister => simp [Android.allows] at ha
    | readAdd _ _ hm =>
      cases (List.mem_singleton.1 ht).symm.trans heq
      rw [callback_of_toModule hm] at hsome
      cases hsome
    | _ => cases (List.mem_singleton.1 ht).symm.trans heq
  modules := by
    intro id m hm hsome
    have hold : ∀ {m₀}, s.modules.find? id = some m₀ → m₀.callback.isSome →
        id ∈ ids ++ (s.appId? a).toList :=
      fun hm₀ hsome₀ => List.mem_append_left _ (hs.modules hm₀ hsome₀)
    cases h.edits with
    | keep hmodules => exact hold (hmodules ▸ hm) hsome
    | @add m₀ promise q ha' ht _ hmodules =>
      rw [hmodules, hs.fresh.find?_insert] at hm
      split_ifs at hm with hid
      · -- A module with a callback is registered for the application.
        cases hm
        have happ := hs.queued _ (ht.threadLoop ▸ List.mem_cons_self) m₀ promise rfl hsome
        subst ha' happ
        rw [ht.appId?, hid]
        simp [Task.isApp]
      · exact hold hm hsome
    | remove _ hmodules =>
      rw [hmodules, OrdMap.find?_erase] at hm
      split_ifs at hm
      exact hold hm hsome
    | @save id' ps m₀ m₁ _ hm₀ hm₁ hmodules =>
      rw [hmodules, OrdMap.find?_modify] at hm
      split_ifs at hm with hid
      · subst hid
        rw [hm₀, Option.map_some, Option.some.injEq] at hm
        subst hm
        exact hold hm₀ ((Module.save_saved hm₁).callback ▸ hsome)
      · exact hold hm hsome
  invocations := by
    intro inv hinv
    rcases h.invocations with heq | ⟨inv', m, callback, t, heq, hm, hcb, -⟩
    · exact List.mem_append_left _ (hs.invocations inv (heq ▸ hinv))
    · rw [heq, List.mem_append, List.mem_singleton] at hinv
      rcases hinv with hinv | rfl
      · exact List.mem_append_left _ (hs.invocations inv hinv)
      · exact List.mem_append_left _ (hs.modules hm (by rw [hcb]; rfl))
  lt := by
    intro id hid
    rcases List.mem_append.1 hid with hid | hid
    · exact (hs.lt id hid).trans_le h.registry.counter_le
    · obtain ⟨rfl, hlt⟩ := h.counter_of_appId (Option.mem_toList.1 hid)
      exact hlt

/-! ## The threads of Java -/

namespace Android

/-- What the action does of the instance. -/
def Action.call? : Action → Option Sacs.Action
  | .inst a | .handlerCall a => some a
  | .callbackReturn => some .callbackReturn
  | .handlerRegister name properties => some (.registerModule name properties (some jniCallback))
  | _ => none

theorem Moves.call {s s' : Android} {a : Action} (h : s.Moves a s') :
    (a.call? = none ∧ s'.inst = s.inst) ∨ ∃ b, a.call? = some b ∧
      (allows b = true ∨ b = .callbackReturn) ∧ Transition s.inst b s'.inst := by
  cases h with
  | @inst a inst hallows h =>
    have hrun : (s.run a inst).inst = inst := by cases a <;> rfl
    exact .inr ⟨a, rfl, .inl hallows, by rw [hrun]; exact h⟩
  | callbackReturn _ h => exact .inr ⟨_, rfl, .inr rfl, h⟩
  | @handlerCall a _ _ _ hcall h =>
    refine .inr ⟨a, rfl, .inl ?_, h⟩
    cases a <;> simp [isCall, allows] at hcall ⊢
  | handlerRegister => exact .inr ⟨_, rfl, .inl rfl, .registerModule⟩
  | _ => exact .inl ⟨rfl, rfl⟩

end Android

/-- The updates the `MsgThread` is still to hand to Java. -/
def MsgPc.callbacks : MsgPc → List QueuedCallback
  | .handling callbacks | .registering _ callbacks => callbacks
  | _ => []

/-- It waits for the future of a `RegisterModule`. -/
def MsgPc.isRegistering : MsgPc → Bool
  | .registering .. => true
  | _ => false

theorem MsgPc.callbacks_task (pc : MsgPc) : pc.task.callbacks = pc.callbacks := by
  cases pc with
  | registering n callbacks => cases n <;> rfl
  | _ => rfl

namespace Android

/-- The callback is on its way to Java. -/
def Queues (s : Android) (c : QueuedCallback) : Prop :=
  s.glue = .adding c ∨ c ∈ s.collector ∨ c ∈ s.msg.callbacks

/-- The callbacks on their way to Java come from calls of `JniGlue::Callback`. -/
theorem Moves.queues {s s' : Android} {a : Action} (h : s.Moves a s') {c : QueuedCallback}
    (hc : s'.Queues c) : s.Queues c ∨ ∃ inv ∈ s'.inst.invocations, inv.moduleId = c.moduleId := by
  -- Only a task of the instance brings a callback; the other steps move it on.
  cases h with
  | @inst a inst hallows h =>
    by_cases htask : a = .task
    · subst htask
      rcases hc with hglue | hcollector | hmsg
      · change GluePc.enter inst = .adding c at hglue
        rw [GluePc.enter] at hglue
        split at hglue
        · rename_i inv _ hinv
          cases hglue
          exact .inr ⟨inv, List.mem_of_getLast? hinv, rfl⟩
        · cases hglue
      · exact .inl (.inr (.inl hcollector))
      · exact .inl (.inr (.inr (s.msg.callbacks_task ▸ hmsg)))
    · rw [s.run_of_ne htask] at hc
      exact .inl hc
  | @add callback hglue =>
    rcases hc with hc | hc | hc
    · cases hc
    · rcases List.mem_append.1 hc with hc | hc
      · exact .inl (.inr (.inl hc))
      · exact .inl (.inl (List.mem_singleton.1 hc ▸ hglue))
    · exact .inl (.inr (.inr hc))
  | notify =>
    rcases hc with hc | hc
    · cases hc
    · exact .inl (.inr hc)
  | callbackReturn =>
    rcases hc with hc | hc
    · cases hc
    · exact .inl (.inr hc)
  | wake =>
    rcases hc with hc | hc | hc
    · exact .inl (.inl hc)
    · exact .inl (.inr (.inl hc))
    · cases hc
  | collect =>
    rcases hc with hc | hc | hc
    · exact .inl (.inl hc)
    · cases hc
    · exact .inl (.inr (.inl hc))
  | handlerCall => exact .inl hc
  | handlerRegister hmsg =>
    rcases hc with hc | hc | hc
    · exact .inl (.inl hc)
    · exact .inl (.inr (.inl hc))
    · exact .inl (.inr (.inr (by rw [hmsg]; exact hc)))
  | registered hmsg =>
    rcases hc with hc | hc | hc
    · exact .inl (.inl hc)
    · exact .inl (.inr (.inl hc))
    · exact .inl (.inr (.inr (by rw [hmsg]; exact hc)))
  | handlerReturn hmsg =>
    rcases hc with hc | hc | hc
    · exact .inl (.inl hc)
    · exact .inl (.inr (.inl hc))
    · exact .inl (.inr (.inr (by rw [hmsg]; exact List.mem_cons_of_mem _ hc)))
  | unlock =>
    rcases hc with hc | hc | hc
    · exact .inl (.inl hc)
    · exact .inl (.inr (.inl hc))
    · cases hc

end Android

/-- An object of the Java application, which handles the updates of modules. -/
abbrev SacsObject := Nat

/-- A call of `registerModule`. -/
structure JavaCall where
  obj : SacsObject
  /-- It is made by a handler, on the `MsgThread`. -/
  byHandler : Bool

/-- Where the `MsgThread` is in `internalOnPropertiesUpdated`. -/
inductive DispatchPc
  | out
  /-- In the handler of the object. -/
  | running
  /-- There was no object: what the native code does with the exception is not followed. -/
  | thrown
  deriving DecidableEq

/-- The Java `SacsWrapper`, and the threads that use it. -/
structure JavaGlue where
  android : Android := {}
  modules : OrdMap Int32 SacsObject := .empty
  /-- The calls of `registerModule` that wait for the native one, in order. -/
  waiting : List JavaCall := []
  /-- Those that have their id, and are to put the object in the map. -/
  returned : OrdMap Int32 JavaCall := .empty
  dispatch : DispatchPc := .out
  -- History
  /-- The ids returned by the native `RegisterModule`, and the objects of the calls. -/
  given : List (Int32 × SacsObject) := []
  /-- The lookups of `internalOnPropertiesUpdated`, and what was found. -/
  lookups : List (Int32 × Option SacsObject) := []

namespace JavaGlue

inductive Action
  /-- An action of the other threads, or of the native code. -/
  | android (a : Android.Action)
  /-- A thread of the application calls `registerModule`, up to where it waits. -/
  | registerModule (name : Str) (properties : List Property) (obj : SacsObject)
  /-- So does a handler. -/
  | handlerRegister (name : Str) (properties : List Property) (obj : SacsObject)
  /-- `modules.put`, by the thread that has registered the module. -/
  | put (id : Int32)
  /-- The `MsgThread` looks an object up, and calls its handler. -/
  | dispatch
  | handlerReturn

variable (s : JavaGlue)

/-- A handler is running, and not in `registerModule`. -/
def inHandler : Bool :=
  s.dispatch = .running && s.returned.entries.all fun e => !e.2.byHandler

/-- The update that the `MsgThread` is to hand to Java, or is handing. -/
def current? : Option QueuedCallback := s.android.msg.callbacks.head?

/-- The module of the first call that waits is given its id. -/
def settle (a : Android.Action) : JavaGlue :=
  match a.call?.bind s.android.inst.appId?, s.waiting with
  | some id, call :: waiting =>
    { s with
      waiting
      returned := s.returned.set id call
      given := s.given ++ [(id, call.obj)] }
  | _, _ => s

/-- An action of the rest of the system, which is the start of the calls of
    `registerModule` given. -/
def run (a : Android.Action) (calls : List JavaCall) : Except Fault JavaGlue := do
  let android ← s.android.step a
  return { s.settle a with android, waiting := (s.settle a).waiting ++ calls }

/-- The actions that go with one of Java. -/
def isOwn : Android.Action → Bool
  | .inst (.registerModule ..) | .handlerRegister .. | .handlerReturn => true
  | _ => false

def isCall : Android.Action → Bool
  | .handlerCall _ => true
  | _ => false

def step : Action → Except Fault JavaGlue
  | .android a =>
    if isOwn a = false ∧ (isCall a → s.inHandler) then s.run a [] else .error .disabled
  | .registerModule name properties obj =>
    s.run (.inst (.registerModule name properties (some jniCallback))) [⟨obj, false⟩]
  | .handlerRegister name properties obj =>
    if s.inHandler then s.run (.handlerRegister name properties) [⟨obj, true⟩]
    else .error .disabled
  | .put id => match s.returned.find? id with
    | some call =>
      -- The native call on the `MsgThread` has not returned yet.
      if call.byHandler ∧ s.android.msg.isRegistering then .error .disabled
      else .ok { s with modules := s.modules.set id call.obj, returned := s.returned.erase id }
    | none => .error .disabled
  | .dispatch => match s.android.msg, s.dispatch with
    | .handling (c :: _), .out =>
      .ok { s with
        dispatch := if (s.modules.find? c.moduleId).isSome then .running else .thrown
        lookups := s.lookups ++ [(c.moduleId, s.modules.find? c.moduleId)] }
    | _, _ => .error .disabled
  | .handlerReturn =>
    if s.inHandler then do return { ← s.run .handlerReturn [] with dispatch := .out }
    else .error .disabled

abbrev Steps : JavaGlue → Action → JavaGlue → Prop := Lts.Exec step

/-- Every lookup finds the object that the module was registered with. -/
def Sound : Prop :=
  ∀ l ∈ s.lookups, ∃ obj, l.2 = some obj ∧ ∀ obj', (l.1, obj') ∈ s.given ↔ obj' = obj

def Action.isDispatch : Action → Bool
  | .dispatch => true
  | _ => false

/-- An update is handed to Java only when no thread that has registered its module is still
    about to put the object in the map. -/
def PutFirst (a : Action) : Prop :=
  a.isDispatch = true → ∀ c ∈ s.current?, (s.returned.find? c.moduleId).isNone

instance instDecidablePutFirst (s : JavaGlue) (a : Action) : Decidable (s.PutFirst a) :=
  inferInstanceAs (Decidable (_ → _))

/-- What is true of the tables, whatever the threads do: the objects of the calls returned
    are in the map, or about to be put there, and nothing else is. -/
structure Inv : Prop where
  waiting : s.waiting.length = s.android.inst.threadLoop.countP Task.isApp
  named : s.android.inst.Named (s.given.map Prod.fst)
  queued : ∀ {c}, s.android.Queues c → c.moduleId ∈ s.given.map Prod.fst
  given : ∀ {id obj}, (id, obj) ∈ s.given ↔ s.modules.find? id = some obj ∨
    ∃ call, s.returned.find? id = some call ∧ call.obj = obj
  new : ∀ {id}, (s.returned.find? id).isSome → s.modules.find? id = none

variable {s}

theorem inv_init : Inv {} where
  waiting := rfl
  named := ⟨⟨le_rfl, fun hm => by simp at hm⟩, by simp, fun hm => by simp at hm,
    by simp [Instance.invocations], by simp⟩
  queued := by
    rintro c (hc | hc | hc) <;> cases hc
  given := by simp
  new := by simp

/-- An id that is not given yet is in no table. -/
theorem Inv.not_mem (hs : s.Inv) {id : Int32} (hid : id ∉ s.given.map Prod.fst) :
    s.modules.find? id = none ∧ s.returned.find? id = none := by
  refine ⟨Option.eq_none_iff_forall_ne_some.2 fun obj hobj => hid ?_,
    Option.eq_none_iff_forall_ne_some.2 fun call hcall => hid ?_⟩
  · exact List.mem_map.2 ⟨(id, obj), hs.given.2 (.inl hobj), rfl⟩
  · exact List.mem_map.2 ⟨(id, call.obj), hs.given.2 (.inr ⟨call, hcall, rfl⟩), rfl⟩

theorem Inv.run {s' : JavaGlue} {a : Android.Action} {calls : List JavaCall} (hs : s.Inv)
    (hcalls : calls.length = (a.call?.map Sacs.Action.registers).getD 0)
    (h : s.run a calls = .ok s') : s'.Inv ∧ (s.Sound → s'.Sound) := by
  obtain ⟨android, hst, ⟨⟩⟩ := bind_eq_ok.1 h
  have hmoves := Android.moves_of_step hst
  have hqueued : ∀ {ids}, android.inst.Named (s.given.map Prod.fst ++ ids) → ∀ {c},
      android.Queues c → c.moduleId ∈ s.given.map Prod.fst ++ ids := by
    intro ids hnamed c hc
    rcases hmoves.queues hc with hc | ⟨inv, hinv, heq⟩
    · exact List.mem_append_left _ (hs.queued hc)
    · exact heq ▸ hnamed.invocations inv hinv
  rcases hmoves.call with ⟨hnone, hinst⟩ | ⟨b, hb, hallows, htr⟩
  · have hsettle : s.settle a = s := by rw [settle, hnone]; rfl
    rw [hnone] at hcalls
    obtain rfl := List.length_eq_zero_iff.1 hcalls
    have hnamed : android.inst.Named (s.given.map Prod.fst ++ []) := by
      rw [hinst, List.append_nil]
      exact hs.named
    rw [hsettle]
    refine ⟨⟨?_, ?_, ?_, hs.given, hs.new⟩, id⟩
    · rw [List.append_nil, hs.waiting, hinst]
    · simpa using hnamed
    · exact fun hc => by simpa using hqueued hnamed hc
  · have hnamed := hs.named.step htr hallows
    have hcount := htr.count_app
    rw [hb, Option.map_some, Option.getD_some] at hcalls
    cases hid : s.android.inst.appId? b with
    | none =>
      have hsettle : s.settle a = s := by rw [settle, hb, Option.bind_some, hid]
      rw [hid] at hnamed hcount
      rw [hsettle]
      refine ⟨⟨?_, ?_, ?_, hs.given, hs.new⟩, id⟩
      · rw [List.length_append, hs.waiting, hcalls]
        exact hcount.symm
      · simpa using hnamed
      · exact fun hc => by simpa using hqueued hnamed hc
    | some id =>
      -- The call that waits for the task is given the id, which is new.
      obtain rfl : id = s.android.inst.idCounter := (htr.counter_of_appId hid).1
      have htask : b = .task := by
        by_contra hne
        exact absurd (Instance.appId?_eq_none hne ▸ hid) (by simp)
      obtain rfl : calls = [] := List.length_eq_zero_iff.1 (by rw [hcalls, htask]; rfl)
      rw [hid, htask] at hcount
      change android.inst.threadLoop.countP Task.isApp + 1 =
        s.android.inst.threadLoop.countP Task.isApp at hcount
      obtain ⟨call, waiting, hw⟩ : ∃ call waiting, s.waiting = call :: waiting :=
        List.exists_cons_of_length_pos (by rw [hs.waiting]; omega)
      have hsettle : s.settle a = { s with
          waiting
          returned := s.returned.set s.android.inst.idCounter call
          given := s.given ++ [(s.android.inst.idCounter, call.obj)] } := by
        rw [settle, hb, Option.bind_some, hid, hw]
      have hwaiting := hs.waiting
      rw [hw, List.length_cons] at hwaiting
      rw [hid] at hnamed
      have hmap : (s.given ++ [(s.android.inst.idCounter, call.obj)]).map Prod.fst =
          s.given.map Prod.fst ++ (some s.android.inst.idCounter).toList := by
        rw [List.map_append]
        rfl
      have hnew : s.android.inst.idCounter ∉ s.given.map Prod.fst := fun hmem =>
        lt_irrefl _ (hs.named.lt _ hmem)
      obtain ⟨hmodules, hreturned⟩ := hs.not_mem hnew
      rw [hsettle]
      refine ⟨⟨?_, hmap ▸ hnamed, fun hc => hmap ▸ hqueued hnamed hc, fun {id obj} => ?_,
        fun {id} hsome => ?_⟩, fun hsound l hl => ?_⟩
      · rw [List.append_nil]
        change waiting.length = android.inst.threadLoop.countP Task.isApp
        omega
      · rw [List.mem_append, List.mem_singleton, hs.given, OrdMap.find?_set]
        by_cases hne : id = s.android.inst.idCounter
        · subst hne
          simp [hmodules, hreturned, eq_comm]
        · simp [hne]
      · rw [OrdMap.find?_set] at hsome
        by_cases hne : id = s.android.inst.idCounter
        · exact hne ▸ hmodules
        · rw [if_neg hne] at hsome
          exact hs.new hsome
      · obtain ⟨obj, hobj, huniq⟩ := hsound l hl
        refine ⟨obj, hobj, fun obj' => ?_⟩
        have hne : l.1 ≠ s.android.inst.idCounter := fun he =>
          hnew (he ▸ List.mem_map.2 ⟨_, (huniq obj).2 rfl, rfl⟩)
        rw [List.mem_append, huniq, List.mem_singleton, Prod.mk.injEq]
        simp [hne]

/-- The object is put in the map. -/
theorem Inv.put (hs : s.Inv) {id : Int32} {call : JavaCall}
    (hcall : s.returned.find? id = some call) :
    Inv { s with modules := s.modules.set id call.obj, returned := s.returned.erase id } := by
  have hnone : s.modules.find? id = none := hs.new (by rw [hcall]; rfl)
  refine ⟨hs.waiting, hs.named, hs.queued, fun {id' obj} => ?_, fun {id'} hsome => ?_⟩
  · rw [hs.given, OrdMap.find?_set, OrdMap.find?_erase]
    by_cases hne : id' = id
    · subst hne
      simp [hnone, hcall]
    · simp [hne]
  · rw [OrdMap.find?_erase] at hsome
    split_ifs at hsome with hne
    · cases hsome
    · rw [OrdMap.find?_set, if_neg hne]
      exact hs.new hsome

theorem Inv.step {s' : JavaGlue} {a : Action} (hs : s.Inv) (h : Steps s a s')
    (ha : a.isDispatch = false) : s'.Inv ∧ (s.Sound → s'.Sound) := by
  rw [Steps, Lts.Exec] at h
  cases a with
  | android a =>
    rw [JavaGlue.step] at h
    split_ifs at h with hown
    refine hs.run ?_ h
    cases a with
    | inst b => cases b <;> first | rfl | cases hown.1
    | handlerCall b =>
      obtain ⟨android, hst, -⟩ := bind_eq_ok.1 h
      cases Android.moves_of_step hst with
      | handlerCall _ hcall => cases b <;> first | rfl | cases hcall
    | handlerRegister => cases hown.1
    | _ => rfl
  | registerModule n ps obj => exact hs.run rfl h
  | handlerRegister n ps obj =>
    rw [JavaGlue.step] at h
    split_ifs at h
    exact hs.run rfl h
  | put id =>
    rw [JavaGlue.step] at h
    cases hcall : s.returned.find? id with
    | none => rw [hcall] at h; cases h
    | some call =>
      rw [hcall] at h
      dsimp only at h
      split_ifs at h
      cases h
      exact ⟨hs.put hcall, fun hsound => hsound⟩
  | dispatch => cases ha
  | handlerReturn =>
    rw [JavaGlue.step] at h
    split_ifs at h
    obtain ⟨s₁, h₁, ⟨⟩⟩ := bind_eq_ok.1 h
    obtain ⟨hinv, hsound⟩ := hs.run rfl h₁
    exact ⟨⟨hinv.waiting, hinv.named, hinv.queued, hinv.given, hinv.new⟩, hsound⟩

/-- What a lookup does. -/
theorem dispatch_cases {s' : JavaGlue} {a : Action} (h : Steps s a s')
    (ha : a.isDispatch = true) : ∃ c, s.current? = some c ∧ s.android.Queues c ∧
      ∃ dispatch, s' = { s with
        dispatch, lookups := s.lookups ++ [(c.moduleId, s.modules.find? c.moduleId)] } := by
  rw [Steps, Lts.Exec] at h
  cases a with
  | dispatch =>
    rw [JavaGlue.step] at h
    split at h
    · rename_i c callbacks hmsg _
      cases h
      refine ⟨c, by rw [current?, hmsg]; rfl, .inr (.inr ?_), _, rfl⟩
      rw [hmsg]
      exact List.mem_cons_self
    · cases h
  | _ => cases ha

theorem Inv.dispatch {s' : JavaGlue} {a : Action} (hs : s.Inv) (h : Steps s a s')
    (ha : a.isDispatch = true) : s'.Inv ∧ (s.Sound → (s'.Sound ↔ s.PutFirst a)) := by
  obtain ⟨c, hc, hqueues, dispatch, rfl⟩ := dispatch_cases h ha
  refine ⟨⟨hs.waiting, hs.named, hs.queued, hs.given, hs.new⟩, fun hsound => ?_⟩
  obtain ⟨⟨id, obj⟩, hgiven, hid⟩ := List.mem_map.1 (hs.queued hqueues)
  change id = c.moduleId at hid
  subst hid
  constructor
  · intro hsound' _ c' hc'
    cases hc.symm.trans hc'
    -- What is found is in the map, hence not to be put there.
    obtain ⟨obj', hobj', -⟩ := hsound' _ (List.mem_append_right _ (List.mem_singleton_self _))
    by_contra hsome
    rw [Bool.not_eq_true, Option.isNone_eq_false_iff] at hsome
    cases (hs.new hsome).symm.trans hobj'
  · intro hput l hl
    rcases List.mem_append.1 hl with hl | hl
    · exact hsound l hl
    · obtain rfl := List.mem_singleton.1 hl
      have hnone : s.returned.find? c.moduleId = none := by simpa using hput ha c hc
      have hiff : ∀ {obj'}, (c.moduleId, obj') ∈ s.given ↔
          s.modules.find? c.moduleId = some obj' := by
        intro obj'
        rw [hs.given, hnone]
        simp
      have hobj := hiff.1 hgiven
      refine ⟨obj, hobj, fun obj' => ?_⟩
      rw [hiff, hobj, Option.some.injEq, eq_comm]

/-- What is found is the object that the module was registered with, in every state of a
    run, if and only if an update is handed to Java only once the object is in the map. -/
theorem sound_iff_putFirst {as : List Action} (h : Lts.Run Steps {} as s) :
    (∀ before after t, as = before ++ after → Lts.Run Steps {} before t → t.Sound) ↔
      Lts.Run (Lts.Under PutFirst Steps) {} as s := by
  refine h.under_iff (J := fun s => s.Inv ∧ s.Sound) (P := Sound) ⟨inv_init, by simp [Sound]⟩
    (fun s hs => hs.2) ?_ ?_
  · rintro s a s' ⟨hinv, hsound⟩ hput hst
    cases ha : a.isDispatch with
    | true => exact (hinv.dispatch hst ha).imp_right fun hiff => (hiff hsound).2 hput
    | false => exact (hinv.step hst ha).imp_right fun hkeep => hkeep hsound
  · rintro s a s' ⟨hinv, hsound⟩ hput hst hsound'
    cases ha : a.isDispatch with
    | true => exact hput (((hinv.dispatch hst ha).2 hsound).1 hsound')
    | false => exact hput fun ha' => absurd (ha.symm.trans ha') (by decide)

/-- A thread registers a module, and the user of a web client activates its property: the
    thread has its id, and the `MsgThread` is about to hand the update to Java. -/
def handing : List Action :=
  [.android (.inst (.connecting false)), .android (.inst .task), .android (.inst .flush),
    .registerModule (Str.lit "Main") [⟨0, Str.lit "Create", [], false⟩] 7] ++
  ([.inst .task, .inst (.wsConnected 0), .inst (.wsMessage 0 ⟨activate, false⟩), .inst .task,
    .add, .notify, .callbackReturn, .wake, .collect] : List Android.Action).map .android

/-- The thread puts the object in the map first. -/
theorem sound_of_put : ∃ s, Lts.Run Steps {} (handing ++ [.put 0, .dispatch, .handlerReturn]) s ∧
    s.Sound ∧ s.lookups = [(0, some 7)] := by
  obtain ⟨s, h, hlookups⟩ := Lts.exists_run_of_foldlM (Lts.guard PutFirst step .disabled) {}
    (handing ++ [.put 0, .dispatch, .handlerReturn]) (·.lookups) [(0, some 7)]
    (by decide +kernel)
  have hunder := h.under_of_guard
  exact ⟨s, hunder.of_under,
    (sound_iff_putFirst hunder.of_under).2 hunder _ [] s (List.append_nil _).symm hunder.of_under,
    hlookups⟩

/-- The `MsgThread` comes first. -/
theorem not_sound_of_early : ∃ s, Lts.Run Steps {} (handing ++ [.dispatch]) s ∧
    s.given = [(0, 7)] ∧ s.lookups = [(0, none)] ∧ s.dispatch = .thrown ∧ ¬s.Sound := by
  obtain ⟨s, h, hs⟩ := Lts.exists_run_of_foldlM step {} (handing ++ [.dispatch])
    (fun s => (s.given, s.lookups, s.dispatch)) ([(0, 7)], [(0, none)], .thrown)
    (by decide +kernel)
  simp only [Prod.mk.injEq] at hs
  obtain ⟨hgiven, hlookups, hdispatch⟩ := hs
  refine ⟨s, h, hgiven, hlookups, hdispatch, fun hsound => ?_⟩
  obtain ⟨obj, hobj, -⟩ := hsound (0, none) (by simp [hlookups])
  cases hobj

end JavaGlue

end Sacs
