import Sacs.Values

/-!
# The wrapper

The class applications use, `SacsWrapper`: it hands the properties of a module
over as C strings, with a `read_only` flag by their type. The documentation
lists types whose values the web interface cannot change
(`ModuleProperty.Type.isReadOnly`); the flag is set for none of them
(`readOnly_toProperty`), and the code does not look at the type.

Such a property keeps the last value the application gave it in the runs in
which no request writes another one (`readOnly_of_runs`). What the application
has saved is kept as a history along the run (`Instance.AppSteps`).
-/

namespace Sacs

open JsonMsg ModuleManager

/-- The values of the `enum` are `0`, `1` and so on, in this order. -/
inductive ModuleProperty.Type
  | button
  | buttonSw
  | buttonSwIn
  | text
  | textBt
  | textRo
  | textArea
  | textAreaBt
  | textAreaRo
  | log
  | script
  deriving DecidableEq

/-- A property, as an application describes it. -/
structure ModuleProperty where
  type : ModuleProperty.Type
  name : Str
  defaultValue : Str := []

namespace ModuleProperty.Type

def toInt : ModuleProperty.Type → Int32
  | button => 0
  | buttonSw => 1
  | buttonSwIn => 2
  | text => 3
  | textBt => 4
  | textRo => 5
  | textArea => 6
  | textAreaBt => 7
  | textAreaRo => 8
  | log => 9
  | script => 10

/-- The column "Is Read Only" of the documentation. -/
def isReadOnly : ModuleProperty.Type → Bool
  | button | textRo | textAreaRo | log => true
  | _ => false

/-- The column "Is Independent" of the documentation. -/
def isIndependent : ModuleProperty.Type → Bool
  | buttonSw | text | textArea => false
  | _ => true

end ModuleProperty.Type

namespace SacsWrapper

def isPropertyTypeForReadOnly (type : ModuleProperty.Type) : Bool := type = .script

/-- What `register_module` makes of a property. -/
def toProperty (p : ModuleProperty) : Property :=
  { type := p.type.toInt
    name := p.name.cString
    value := p.defaultValue.cString
    readOnly := isPropertyTypeForReadOnly p.type }

/-- The call of `RegisterModule`. -/
def registerModule (name : Str) (properties : List ModuleProperty)
    (callback : Option Callback) : Action :=
  .registerModule name.cString (properties.map toProperty) callback

/-- No property that is documented as read only is flagged so. -/
theorem readOnly_toProperty {p : ModuleProperty} (h : p.type.isReadOnly = true) :
    (toProperty p).readOnly = false := by
  rw [toProperty, isPropertyTypeForReadOnly, decide_eq_false_iff_not]
  intro hscript
  rw [hscript] at h
  cases h

end SacsWrapper

/-! ## What the application has saved -/

namespace Instance

/-- The updates the application has saved so far, with the ids of their modules; those
    of a module that is not registered are lost. -/
def logAppSaves (s : Instance) (a : Action) (_ : Instance) (log : List (Int32 × Updates)) :
    List (Int32 × Updates) :=
  log ++ ((s.appSaves? a).filter fun e => (s.modules.find? e.1).isSome).toList

/-- The steps of an instance, with what the application has saved. -/
abbrev AppSteps (C : Instance → Action → Prop) :
    Instance × List (Int32 × Updates) → Action → Instance × List (Int32 × Updates) → Prop :=
  Lts.History logAppSaves (Lts.Under C Steps)

/-- The updates of the module `id`, one after the other. -/
def appWrites (log : List (Int32 × Updates)) (id : Int32) : Updates :=
  log.flatMap fun e => if e.1 = id then e.2 else []

/-- The value of the property is documented as the application's alone. -/
def IsReadOnlyType (type : Int32) : Prop :=
  ∃ t : ModuleProperty.Type, t.isReadOnly = true ∧ t.toInt = type

/-- A request the step passes to a module writes no property of a read only type, or
    last the value it has. -/
def LeavesReadOnly (s : Instance) (a : Action) : Prop :=
  ∀ id ps, s.WebSaves a id ps → ∀ m k p, s.modules.find? id = some m →
    m.properties[k]? = some p → IsReadOnlyType p.type →
      Module.lastWrite ps k = none ∨ Module.lastWrite ps k = some p.value

theorem appWrites_append (log log' : List (Int32 × Updates)) (id : Int32) :
    appWrites (log ++ log') id = appWrites log id ++ appWrites log' id :=
  List.flatMap_append

/-- As far as the properties of read only types go, the application has saved what
    was saved. -/
structure AppOnly (s : Instance) (log : List (Int32 × Updates)) : Prop where
  kept : s.Kept
  unused : ∀ id, s.idCounter ≤ id → appWrites log id = []
  same : ∀ {id m m₀ k p₀}, s.modules.find? id = some m → s.registration? id = some m₀ →
    m₀.properties.length < 2 ^ 31 → m₀.properties[k]? = some p₀ → IsReadOnlyType p₀.type →
    p₀.readOnly = false →
    Module.overwrite (s.writes id) k p₀.value = Module.overwrite (appWrites log id) k p₀.value

namespace AppOnly

variable {s s' : Instance} {log : List (Int32 × Updates)} {a : Action} (hs : s.AppOnly log)

include hs

/-- The step saves updates of the application. -/
theorem stepApp (h : Transition s a s') {id : Int32} {ps : Updates} {m m' : Module}
    (hm : s.modules.find? id = some m)
    (hmodules : s'.modules = s.modules.modify id fun _ => m')
    (hcounter : s'.idCounter = s.idCounter)
    (hrecord : s'.record = s.record ++ [.saved id ps]) : s'.AppOnly (log ++ [(id, ps)]) := by
  have happ : ∀ id', appWrites (log ++ [(id, ps)]) id' =
      appWrites log id' ++ if id = id' then ps else [] := fun id' => by
    rw [appWrites_append]
    simp [appWrites]
  have hwrites : ∀ id', s'.writes id' = s.writes id' ++ if id = id' then ps else [] := fun id' => by
    rw [writes_of_record hrecord]
    simp [Event.written]
  have hreg : ∀ id', s'.registration? id' = s.registration? id' := fun id' => by
    rw [registration?_of_record hrecord]
    simp [Event.registration?]
  refine ⟨hs.kept.step h, fun id' hid' => ?_, fun {id' m₁ m₀ k p₀} hm₁ hm₀ hlen hp₀ htype hro => ?_⟩
  · rw [hcounter] at hid'
    have hne : id ≠ id' := fun e =>
      absurd (hs.kept.fresh.key hm).2.2 (not_lt.2 (e ▸ hid'))
    rw [happ, hs.unused id' hid', if_neg hne, List.append_nil]
  · have hfound : ∃ m₂, s.modules.find? id' = some m₂ := by
      rw [hmodules, OrdMap.find?_modify] at hm₁
      split_ifs at hm₁ with h
      · exact ⟨m, h ▸ hm⟩
      · exact ⟨m₁, hm₁⟩
    obtain ⟨m₂, hm₂⟩ := hfound
    rw [hreg] at hm₀
    rw [hwrites, happ, Module.overwrite_append, Module.overwrite_append,
      hs.same hm₂ hm₀ hlen hp₀ htype hro]

/-- The step saves nothing of the application. -/
theorem stepOther (h : Transition s a s') (hC : s.LeavesReadOnly a)
    (happ : ∀ id ps, s.appSaves? a = some (id, ps) → s.modules.find? id = none) :
    s'.AppOnly log := by
  have hkept := hs.kept.step h
  cases h.edits with
  | keep hmodules hcounter hrecord =>
    refine ⟨hkept, fun id hid => hs.unused id (hcounter ▸ hid), fun hm hm₀ => ?_⟩
    rw [Instance.writes, hrecord]
    rw [Instance.registration?, hrecord] at hm₀
    exact hs.same (hmodules ▸ hm) hm₀
  | @add m promise q _ _ hmax hmodules hcounter hrecord =>
    refine ⟨hkept, fun id hid => hs.unused id ((lt_add_one hmax).le.trans (hcounter ▸ hid)),
      fun {id m₁ m₀ k p₀} hm hm₀ hlen hp₀ htype hro => ?_⟩
    have hwrites : s'.writes id = s.writes id := by
      rw [writes_of_record hrecord]
      exact List.append_nil _
    rw [hwrites]
    by_cases hid : id = s.idCounter
    · subst hid
      rw [(hs.kept.unused _ le_rfl).2, hs.unused _ le_rfl]
    · rw [hmodules, OrdMap.find?_insert, if_neg hid] at hm
      rw [registration?_of_record hrecord] at hm₀
      refine hs.same hm ?_ hlen hp₀ htype hro
      simpa [Event.registration?, Ne.symm hid] using hm₀
  | @remove id _ hmodules hcounter hrecord =>
    refine ⟨hkept, fun id hid => hs.unused id (hcounter ▸ hid),
      fun {id' m₁ m₀ k p₀} hm hm₀ hlen hp₀ htype hro => ?_⟩
    have hwrites : s'.writes id' = s.writes id' := by
      rw [writes_of_record hrecord]
      exact List.append_nil _
    rw [hmodules, OrdMap.find?_erase] at hm
    split_ifs at hm with hid
    rw [hwrites]
    rw [registration?_of_record hrecord] at hm₀
    refine hs.same hm ?_ hlen hp₀ htype hro
    simpa [Event.registration?] using hm₀
  | @save id ps m m' hsaves hm hm' hmodules hcounter hrecord =>
    refine ⟨hkept, fun id hid => hs.unused id (hcounter ▸ hid),
      fun {id' m₁ m₀ k p₀} hm₁ hm₀ hlen hp₀ htype hro => ?_⟩
    rw [registration?_of_record hrecord] at hm₀
    replace hm₀ : s.registration? id' = some m₀ := by simpa [Event.registration?] using hm₀
    rw [writes_of_record hrecord, Module.overwrite_append]
    by_cases hid : id = id'
    · subst hid
      have hweb : s.WebSaves a id ps :=
        hsaves.resolve_left fun h => by rw [happ id ps h] at hm; cases hm
      -- What the request writes is the value the property has.
      obtain ⟨m₂, hm₂, hkeeps⟩ := hs.kept.kept hm
      cases hm₀.symm.trans hm₂
      have hp : m.properties[k]? =
          some { p₀ with value := Module.overwrite (s.writes id) k p₀.value } := by
        rw [hkeeps.value hlen, hp₀, Option.map_some, Module.written, if_neg (by simp [hro])]
      have hlast := hC id ps hweb m k _ hm hp htype
      have hev : [Event.saved id ps].flatMap (Event.written id) = ps := by simp [Event.written]
      rw [hev, Module.overwrite_eq ps, ← hs.same hm hm₀ hlen hp₀ htype hro]
      rcases hlast with hlast | hlast <;> rw [hlast] <;> rfl
    · have hev : [Event.saved id ps].flatMap (Event.written id') = [] := by
        simp [Event.written, hid]
      rw [hmodules, OrdMap.find?_modify, if_neg (Ne.symm hid)] at hm₁
      rw [hev, Module.overwrite_nil]
      exact hs.same hm₁ hm₀ hlen hp₀ htype hro

theorem step (h : Transition s a s') (hC : s.LeavesReadOnly a) :
    s'.AppOnly (s.logAppSaves a s' log) := by
  rw [logAppSaves]
  cases happ : s.appSaves? a with
  | none =>
    rw [Option.filter_none, Option.toList_none, List.append_nil]
    exact hs.stepOther h hC fun id ps h' => by rw [happ] at h'; cases h'
  | some e =>
    obtain ⟨id, ps⟩ := e
    rcases h.saves (.inl happ) with ⟨hm, -⟩ | ⟨m, m', hm, -, hmodules, hrecord⟩
    · rw [Option.filter_some, hm]
      simp only [Option.isSome_none, Bool.false_eq_true, if_false, Option.toList_none,
        List.append_nil]
      refine hs.stepOther h hC fun id' ps' h' => ?_
      cases happ.symm.trans h'
      exact hm
    · rw [Option.filter_some, hm]
      have hcounter : s'.idCounter = s.idCounter := by
        cases h.edits with
        | keep _ hcounter => exact hcounter
        | add _ _ _ _ _ hrecord' =>
          have := List.append_cancel_left (hrecord.symm.trans hrecord')
          cases this
        | remove _ _ hcounter => exact hcounter
        | save _ _ _ _ hcounter => exact hcounter
      exact hs.stepApp h hm hmodules hcounter hrecord

end AppOnly

theorem appOnly_of_runs {as : List Action} {x : Instance × List (Int32 × Updates)}
    (h : Lts.Run (AppSteps LeavesReadOnly) ({}, []) as x) : x.1.AppOnly x.2 := by
  refine h.invariant (P := fun x => x.1.AppOnly x.2) ?_ ?_
  · exact ⟨kept_of_runs .nil, fun _ _ => rfl, fun hm => by simp at hm⟩
  · rintro x a y hx ⟨⟨hC, hst⟩, hlog⟩
    rw [hlog]
    exact hx.step (transition_of_step hst) hC

end Instance

/-- A property of a read only type, of a module registered by the wrapper, has the last
    value the application has saved, or its first one, in the runs in which no request
    of a web client writes another one. -/
theorem readOnly_of_runs {as : List Action} {s : Instance} {log : List (Int32 × Updates)}
    (h : Lts.Run (Instance.AppSteps Instance.LeavesReadOnly) ({}, []) as (s, log))
    {id : Int32} {m m₀ : Module} (hm : s.modules.find? id = some m)
    (hm₀ : s.registration? id = some m₀) {properties : List ModuleProperty}
    (hprops : m₀.properties = properties.map SacsWrapper.toProperty)
    (hlen : properties.length < 2 ^ 31) {k : Nat} {p : ModuleProperty}
    (hp : properties[k]? = some p) (hro : p.type.isReadOnly = true) :
    ∃ p', m.properties[k]? = some p' ∧ p'.value =
      (Module.lastWrite (Instance.appWrites log id) k).getD p.defaultValue.cString := by
  have happ := Instance.appOnly_of_runs h
  obtain ⟨m₁, hm₁, hkeeps⟩ := happ.kept.kept hm
  cases hm₀.symm.trans hm₁
  have hlen₀ : m₀.properties.length < 2 ^ 31 := by rwa [hprops, List.length_map]
  have hp₀ : m₀.properties[k]? = some (SacsWrapper.toProperty p) := by
    rw [hprops, List.getElem?_map, hp, Option.map_some]
  have hflag := SacsWrapper.readOnly_toProperty hro
  have hsame := happ.same hm hm₀ hlen₀ hp₀ ⟨p.type, hro, rfl⟩ hflag
  refine ⟨_, by rw [hkeeps.value hlen₀, hp₀, Option.map_some], ?_⟩
  rw [Module.written, if_neg (by simp [hflag]), ← Module.overwrite_eq]
  exact hsame

/-- The description of a text the web interface cannot change. -/
def status : ModuleProperty := { type := .textRo, name := [], defaultValue := [97] }

/-- A request to write it. -/
def writeStatus : Text := .json (applyRequest 0 [(0, [98])]) (by decide +kernel)

/-- The step passes no request to a module. -/
def Instance.PassesNothing (s : Instance) (_ : Action) : Prop :=
  (s.threadLoop.head?.bind Task.passed?).isNone = true

instance instDecidablePassesNothing (s : Instance) (a : Action) : Decidable (s.PassesNothing a) :=
  inferInstanceAs (Decidable (_ = true))

theorem Instance.PassesNothing.leavesReadOnly {s : Instance} {a : Action} (h : s.PassesNothing a) :
    s.LeavesReadOnly a := by
  rintro id ps ⟨-, t, q, json, json', ht, hpassed, -⟩
  rw [Instance.PassesNothing, ht.threadLoop, List.head?_cons, Option.bind_some, hpassed] at h
  cases h

/-- The request is executed: the value changes, which the application has not saved. -/
theorem not_readOnly_of_request : ∃ s log, Lts.Run (Instance.AppSteps fun _ _ => True) ({}, [])
      [SacsWrapper.registerModule [] [status] (some 0), .task, .connecting false, .task, .flush,
        .flush, .wsConnected 0, .wsMessage 0 ⟨writeStatus, false⟩, .task] (s, log) ∧
    log = [] ∧ ∃ m, s.modules.find? 0 = some m ∧ m.properties.map Property.value = [[98]] := by
  obtain ⟨x, h, hx⟩ := Lts.exists_run_of_foldlM
    (Lts.historyStep Instance.logAppSaves (Lts.guard (fun _ _ => True) Instance.step .disabled))
    (({}, []) : Instance × List (Int32 × Updates))
    [SacsWrapper.registerModule [] [status] (some 0), .task, .connecting false, .task, .flush,
      .flush, .wsConnected 0, .wsMessage 0 ⟨writeStatus, false⟩, .task]
    (fun x => decide (x.2 = [] ∧
      (x.1.modules.find? 0).map (fun m => m.properties.map Property.value) = some [[98]])) true
    (by decide +kernel)
  rw [decide_eq_true_iff, Option.map_eq_some_iff] at hx
  exact ⟨x.1, x.2, h.history_of_exec, hx⟩

/-- The application writes it. -/
theorem readOnly_of_update : ∃ s log m p,
    Lts.Run (Instance.AppSteps Instance.LeavesReadOnly) ({}, [])
      [SacsWrapper.registerModule [] [status] (some 0), .task, .updateProperties 0 [(0, [98])],
        .task] (s, log) ∧
    s.modules.find? 0 = some m ∧ m.properties[0]? = some p ∧ p.value = [98] := by
  obtain ⟨x, h, hx⟩ := Lts.exists_run_of_foldlM
    (Lts.historyStep Instance.logAppSaves
      (Lts.guard Instance.PassesNothing Instance.step .disabled))
    (({}, []) : Instance × List (Int32 × Updates))
    [SacsWrapper.registerModule [] [status] (some 0), .task, .updateProperties 0 [(0, [98])], .task]
    (fun x => decide (x.2 = [(0, [(0, [98])])] ∧ (x.1.modules.find? 0).isSome ∧
      (x.1.registration? 0).map Module.properties = some [SacsWrapper.toProperty status])) true
    (by decide +kernel)
  simp only [decide_eq_true_iff, Option.isSome_iff_exists, Option.map_eq_some_iff] at hx
  obtain ⟨hlog, ⟨m, hm⟩, m₀, hm₀, hprops⟩ := hx
  have hrun : Lts.Run (Instance.AppSteps Instance.LeavesReadOnly) _ _ x :=
    h.history_of_exec.history_mono fun s a t hst => ⟨hst.1.leavesReadOnly, hst.2⟩
  replace hprops : m₀.properties = [status].map SacsWrapper.toProperty := hprops
  obtain ⟨p, hp, hvalue⟩ := readOnly_of_runs hrun hm hm₀ hprops (by decide) (k := 0) rfl rfl
  refine ⟨x.1, x.2, m, p, hrun, hm, hp, hvalue.trans ?_⟩
  rw [hlog]
  decide

end Sacs
