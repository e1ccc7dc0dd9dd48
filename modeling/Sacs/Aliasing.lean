import Sacs.Delivery
import Mathlib.Data.Int.ModEq

/-!
# Ids in messages

JSON has integers of 64 bits, and the ids in a message are converted to an `int`, which
keeps 32 of them. An integer that is no `int` is then taken for another one, and what
looks for a module or a property finds that one.

* The integer is taken for an `int` if and only if they are equal modulo `2 ^ 32`
  (`ofInt_eq_iff`).
* A message addresses the modules and properties its integers are the ids of, and no
  others, if and only if none of its integers differs from the id of one by a multiple of
  `2 ^ 32` (`exact_iff`).
-/

namespace Sacs

open JsonMsg ModuleManager

/-- Converting an integer gives the `int` it is equal to modulo `2 ^ 32`. -/
theorem ofInt_eq_iff {n : Int} {k : Int32} : Int32.ofInt n = k ↔ n ≡ k.toInt [ZMOD 2 ^ 32] := by
  rw [Int.ModEq]
  constructor
  · rintro rfl
    rw [Int32.toInt_ofInt]
    exact (Int.bmod_emod ..).symm
  · intro h
    have hbmod : n.bmod (2 ^ 32) = k.toInt.bmod (2 ^ 32) := by
      rw [← Int.emod_bmod n, ← Int.emod_bmod k.toInt]
      exact congrArg (Int.bmod · (2 ^ 32)) h
    rw [← Int32.toInt_inj, Int32.toInt_ofInt]
    exact hbmod.trans k.toInt_bmod

/-! ## Messages with ids -/

/-- The ids in the message are integers: that of the module, and those of the updates. -/
structure JsonMsg.HasIds (json : JsonMsg) (n : Int) (js : List Int) : Prop where
  type : json.type = .reqApply ∨ json.type = .propertyUpdate ∨ json.type = .moduleDel
  id : json.json.find? (Str.lit "id") = some (.int n)
  none : json.type = .moduleDel → js = []
  updates : json.type ≠ .moduleDel → ∃ list json' xs,
    json.json.index (Str.lit "properties") = .ok (list, json') ∧ list.elements = .ok xs ∧
    List.Forall₂ (fun x j => x.find? (Str.lit "id") = some (.int j) ∧
      ∃ value, valueToString x (Str.lit "value") = .ok value) xs js

namespace JsonMsg.HasIds

variable {json : JsonMsg} {n : Int} {js : List Int} (h : json.HasIds n js)

include h

theorem findId : json.findId = .ok (Int32.ofInt n) := by
  have hid : valueToInt json.json (Str.lit "id") = .ok (Int32.ofInt n) := by
    rw [valueToInt, h.id]
    rfl
  rcases h.type with ht | ht | ht <;> rw [JsonMsg.findId, ht] <;> exact hid

end JsonMsg.HasIds

/-- The ids of updates listed are the integers converted. -/
theorem exists_mapM_toUpdate {xs : List Json} {js : List Int}
    (h : List.Forall₂ (fun x j => x.find? (Str.lit "id") = some (.int j) ∧
      ∃ value, valueToString x (Str.lit "value") = .ok value) xs js) :
    ∃ ps, xs.mapM toUpdate = .ok ps ∧ ps.map Prod.fst = js.map Int32.ofInt := by
  induction h with
  | nil => exact ⟨[], rfl, rfl⟩
  | @cons x j xs js hx _ ih =>
    obtain ⟨hid, value, hvalue⟩ := hx
    obtain ⟨ps, hps, hids⟩ := ih
    have hupdate : toUpdate x = .ok (Int32.ofInt j, value) := by
      simp only [toUpdate, valueToInt, hid, Json.getInt, hvalue, bind_ok, pure_eq_ok]
    refine ⟨(Int32.ofInt j, value) :: ps, ?_, ?_⟩
    · rw [List.mapM_cons, hupdate, hps]
      rfl
    · rw [List.map_cons, List.map_cons, hids]

/-- Assigning another member does not change what is found at the key. -/
theorem Json.exists_index_assign {j j₁ j₂ v w : Json} {key key' : Str} (hkey : key' ≠ key)
    (h : j.assign key' w = .ok j₁) (hindex : j.index key = .ok (v, j₂)) :
    ∃ j₃, j₁.index key = .ok (v, j₃) := by
  have hfind : j₁.find? key = j.find? key := by
    rw [find?_assign h, if_neg hkey]
  rw [Json.index] at hindex
  cases hj : j.find? key with
  | some v' =>
    rw [hj] at hindex
    cases hindex
    exact ⟨j₁, by rw [Json.index, hfind, hj]⟩
  | none =>
    rw [hj] at hindex
    obtain ⟨j', -, he⟩ := map_eq_ok.1 hindex
    cases he
    have hobj : ∃ j₃, j₁.assign key .null = .ok j₃ := by
      cases j <;> simp only [Json.assign, reduceCtorEq, Except.ok.injEq] at h <;> subst h <;>
        exact ⟨_, rfl⟩
    obtain ⟨j₃, hj₃⟩ := hobj
    exact ⟨j₃, by rw [Json.index, hfind, hj, hj₃]; rfl⟩

namespace JsonMsg.HasIds

variable {json json' : JsonMsg} {n : Int} {js : List Int} {ps : Updates} (h : json.HasIds n js)

include h

theorem exists_getPropertiesList (ht : json.type ≠ .moduleDel) :
    ∃ ps json', json.getPropertiesList = .ok (ps, json') ∧
      ps.map Prod.fst = js.map Int32.ofInt := by
  obtain ⟨list, j, xs, hindex, hxs, hall⟩ := h.updates ht
  obtain ⟨ps, hps, hids⟩ := exists_mapM_toUpdate hall
  have htype : ¬(json.type ≠ .reqApply ∧ json.type ≠ .propertyUpdate) := by
    rcases h.type with ht' | ht' | ht'
    · exact fun h => h.1 ht'
    · exact fun h => h.2 ht'
    · exact absurd ht' ht
  refine ⟨ps, { json with json := j }, ?_, hids⟩
  rw [getPropertiesList, if_neg htype]
  simp only [hindex, hxs, hps, bind_ok, pure_eq_ok]

/-- The ids of the updates are the integers converted. -/
theorem ids_eq (hps : json.getPropertiesList = .ok (ps, json')) :
    ps.map Prod.fst = js.map Int32.ofInt := by
  by_cases ht : json.type = .moduleDel
  · rw [getPropertiesList, if_pos (by rw [ht]; decide)] at hps
    cases hps
    rw [h.none ht]
    rfl
  · obtain ⟨ps', j, hps', hids⟩ := h.exists_getPropertiesList ht
    cases hps.symm.trans hps'
    exact hids

/-- The ids of a message with another id for the module. -/
theorem setId {id : Int32} (hset : json.setId id = .ok json') : json'.HasIds id.toInt js := by
  obtain ⟨j, hj, rfl⟩ := map_eq_ok.1 hset
  refine ⟨h.type, ?_, h.none, fun ht => ?_⟩
  · rw [find?_assign hj, if_pos rfl]
  · obtain ⟨list, j', xs, hindex, hxs, hall⟩ := h.updates ht
    obtain ⟨j'', hj''⟩ := Json.exists_index_assign (by decide) hj hindex
    exact ⟨list, j'', xs, hj'', hxs, hall⟩

end JsonMsg.HasIds

/-! ## Handling -/

/-- Who has sent the message. -/
inductive Sender
  | web (w : ClientId)
  | host
  | client (c : ClientId)

/-- The handler of the message, of which the network library has the content in memory. -/
def Sender.reads (msg : Text) : Sender → Action
  | .web w => .wsMessage w ⟨msg, false⟩
  | .host => .proxyRead msg
  | .client c => .read c msg

/-- The id here of the module that has this id for the sender. -/
def Instance.resolve (s : Instance) : Sender → Int32 → Int32
  | .client c, id => ProxyServer.localIdFromRemote s id c
  | _, id => id

/-- The task that the handler posts. -/
inductive Instance.Posted (s : Instance) (json : JsonMsg) : Sender → Task → Prop
  | web {w : ClientId} : Posted s json (.web w) (.doProcessJSRequest json w)
  | host : Posted s json .host (.passPropertyUpdateToModule json)
  | removal {c : ClientId} {id : Int32} : json.type = .moduleDel → json.findId = .ok id →
      Posted s json (.client c) (.unregisterModule (ProxyServer.localIdFromRemote s id c))
  | update {c : ClientId} {id : Int32} {json' json'' : JsonMsg} {ps : Updates} :
      json.type = .propertyUpdate → json.findId = .ok id →
      json.setId (ProxyServer.localIdFromRemote s id c) = .ok json' →
      json'.getPropertiesList = .ok (ps, json'') →
      Posted s json (.client c) (.savePropertiesList (ProxyServer.localIdFromRemote s id c) ps)

theorem posted_of_reads {s s₁ : Instance} {sender : Sender} {msg : Text} {json : JsonMsg}
    (h : s.step (sender.reads msg) = .ok s₁) (hparse : parse msg = .ok json)
    (hadd : json.type ≠ .moduleAdd) {t : Task} (hq : s₁.threadLoop = s.threadLoop ++ [t]) :
    s.Posted json sender t := by
  have hnone : s.threadLoop ≠ s.threadLoop ++ [t] := by simp
  have hpost : ∀ {t'}, s.threadLoop ++ [t'] = s.threadLoop ++ [t] → t' = t := fun h =>
    List.singleton_inj.1 (List.append_cancel_left h)
  cases sender with
  | web w =>
    cases transition_of_step h with
    | wsRequest _ _ hjson =>
      cases hparse.symm.trans hjson
      obtain rfl := hpost hq
      exact .web
    | wsLarge _ _ hlarge => cases hlarge
    | wsNotJson => exact absurd hq hnone
  | host =>
    cases transition_of_step h with
    | proxyRead _ hjson =>
      cases hparse.symm.trans hjson
      obtain rfl := hpost hq
      exact .host
  | client c =>
    cases transition_of_step h with
    | readNothing => exact absurd hq hnone
    | readAdd _ _ hjson ht =>
      cases hparse.symm.trans hjson
      exact absurd ht hadd
    | readDel _ _ hjson ht hid =>
      cases hparse.symm.trans hjson
      obtain rfl := hpost hq
      exact .removal ht hid
    | readUpdate _ _ hjson ht hid hset hps =>
      cases hparse.symm.trans hjson
      obtain rfl := hpost hq
      exact .update ht hid hset hps

/-- What the loop thread does to the modules, once it takes the task: it saves updates of
    the module addressed, or removes this module, or leaves all as they are. -/
theorem Instance.Posted.modules_cases {s u u' : Instance} {sender : Sender} {json : JsonMsg}
    {n : Int} {js : List Int} {t : Task} {q : List Task} (h : s.Posted json sender t)
    (hids : json.HasIds n js) (ht : Takes u t q) (hst : u.step .task = .ok u') :
    u'.modules = u.modules ∨
    (json.type = .moduleDel ∧
      u'.modules = u.modules.erase (s.resolve sender (Int32.ofInt n))) ∨
    ∃ m m' ps, u.modules.find? (s.resolve sender (Int32.ofInt n)) = some m ∧ m.save ps = .ok m' ∧
      ps.map Prod.fst = js.map Int32.ofInt ∧
      u'.modules = u.modules.modify (s.resolve sender (Int32.ofInt n)) fun _ => m' := by
  have htask : ∀ {t' q'}, Takes u t' q' → t = t' := fun ht' =>
    (List.cons.inj (ht.threadLoop.symm.trans ht'.threadLoop)).1
  have hid : ∀ {id}, json.findId = .ok id → Int32.ofInt n = id := fun h =>
    Except.ok.inj (hids.findId.symm.trans h)
  -- The task posted is the one taken, so the module edited is the one addressed.
  cases (transition_of_step hst).edits with
  | keep hmodules => exact .inl hmodules
  | add _ ht' =>
    obtain rfl := htask ht'
    cases h
  | remove ha hmodules =>
    obtain ⟨-, q', ht'⟩ | ha := ha
    · obtain rfl := htask ht'
      cases h with
      | removal htype hfind => exact .inr (.inl ⟨htype, hid hfind ▸ hmodules⟩)
    · cases ha
  | @save id ps m m' ha hm hm' hmodules =>
    refine .inr (.inr ?_)
    obtain happ | ⟨-, t', q', json', json'', ht', hpassed, hfind, hps, -⟩ := ha
    · rw [Instance.appSaves?, ht.threadLoop] at happ
      cases h with
      | web => cases happ
      | host => cases happ
      | removal => cases happ
      | update _ hfind hset hps =>
        cases happ
        exact ⟨m, m', _, hid hfind ▸ hm, hm', (hids.setId hset).ids_eq hps, hid hfind ▸ hmodules⟩
    · obtain rfl := htask ht'
      cases h with
      | web =>
        rw [Task.passed?] at hpassed
        split_ifs at hpassed with htype
        obtain rfl := Option.some.inj hpassed
        exact ⟨m, m', ps, hid hfind ▸ hm, hm', hids.ids_eq hps, hid hfind ▸ hmodules⟩
      | host =>
        obtain rfl := Option.some.inj hpassed
        exact ⟨m, m', ps, hid hfind ▸ hm, hm', hids.ids_eq hps, hid hfind ▸ hmodules⟩
      | removal => cases hpassed
      | update => cases hpassed

/-! ## What is addressed -/

/-- The message, read in the state `s`, and the task posted for it, run in the state `u`,
    concern the module and the properties that the integers in it are the ids of. -/
structure Exact (s u : Instance) (sender : Sender) (msg : Text) (json : JsonMsg) (n : Int)
    (js : List Int) : Prop where
  module : ∀ {id m}, json.findId = .ok id → u.modules.find? (s.resolve sender id) = some m →
    n = id.toInt
  property : ∀ {id m ps json'}, json.findId = .ok id →
    u.modules.find? (s.resolve sender id) = some m → json.getPropertiesList = .ok (ps, json') →
    ∀ (i : Nat) (k : Int32) (value : Str) (j : Int), ps[i]? = some (k, value) → js[i]? = some j →
      0 ≤ k.toInt → k.toInt < m.properties.length → j = k.toInt
  /-- A message that names no module changes none. -/
  unaddressed : (∀ id m, u.modules.find? (s.resolve sender id) = some m → n ≠ id.toInt) →
    ∀ {s₁ t q u'}, s.step (sender.reads msg) = .ok s₁ → s₁.threadLoop = s.threadLoop ++ [t] →
      Takes u t q → u.step .task = .ok u' → u'.modules = u.modules
  /-- A property that the message does not name is not changed. -/
  unchanged : ∀ {s₁ t q u'}, s.step (sender.reads msg) = .ok s₁ →
    s₁.threadLoop = s.threadLoop ++ [t] → Takes u t q → u.step .task = .ok u' →
    ∀ {id m m'} (k : Nat), u.modules.find? id = some m → u'.modules.find? id = some m' →
      (k : Int) ∉ js → m'.properties[k]? = m.properties[k]?

/-- No integer in the message differs by a multiple of `2 ^ 32` from the id of a module,
    or, if it addresses this one, of a property. -/
def Unaliased (s u : Instance) (sender : Sender) (n : Int) (js : List Int) : Prop :=
  ∀ id m, u.modules.find? (s.resolve sender id) = some m → n ≡ id.toInt [ZMOD 2 ^ 32] →
    n = id.toInt ∧ ∀ j ∈ js, ∀ k : Int32, 0 ≤ k.toInt → k.toInt < m.properties.length →
      j ≡ k.toInt [ZMOD 2 ^ 32] → j = k.toInt

/-- A message addresses what its integers are the ids of, and nothing else, if and only if
    none of them differs by a multiple of `2 ^ 32` from the id of a module or, in the
    module addressed, of a property. -/
theorem exact_iff {s u : Instance} {sender : Sender} {msg : Text} {json : JsonMsg}
    (hparse : parse msg = .ok json) {n : Int} {js : List Int} (hids : json.HasIds n js) :
    Exact s u sender msg json n js ↔ Unaliased s u sender n js := by
  have hadd : json.type ≠ .moduleAdd := by
    rcases hids.type with ht | ht | ht <;> rw [ht] <;> decide
  constructor
  · intro hexact id m hm hn
    obtain rfl := ofInt_eq_iff.2 hn
    refine ⟨hexact.module hids.findId hm, fun j hj k hk hlt hjk => ?_⟩
    obtain rfl := ofInt_eq_iff.2 hjk
    -- A message with updates lists this one.
    have ht : json.type ≠ .moduleDel := fun ht => by
      rw [hids.none ht] at hj
      cases hj
    obtain ⟨ps, json', hps, hfst⟩ := hids.exists_getPropertiesList ht
    obtain ⟨i, hi⟩ := List.mem_iff_getElem?.1 hj
    have hget := congrArg (·[i]?) hfst
    simp only [List.getElem?_map, hi, Option.map_some, Option.map_eq_some_iff] at hget
    obtain ⟨⟨k, value⟩, hp, rfl⟩ := hget
    exact hexact.property hids.findId hm hps i _ value j hp hi hk hlt
  · intro hun
    have hmodule : ∀ {m}, u.modules.find? (s.resolve sender (Int32.ofInt n)) = some m →
        n = (Int32.ofInt n).toInt ∧ ∀ j ∈ js, ∀ k : Int32, 0 ≤ k.toInt →
          k.toInt < m.properties.length → j ≡ k.toInt [ZMOD 2 ^ 32] → j = k.toInt :=
      fun hm => hun _ _ hm (ofInt_eq_iff.1 rfl)
    refine ⟨fun {id m} hid hm => ?_, fun {id m ps json'} hid hm hps i k value j hp hj hk hlt => ?_,
      fun hne s₁ t q u' hst hq ht hst' => ?_,
      fun {s₁ t q u'} hst hq ht hst' id m m' k hm hm' hk => ?_⟩
    · cases hids.findId.symm.trans hid
      exact (hmodule hm).1
    · cases hids.findId.symm.trans hid
      have hget := congrArg (·[i]?) (hids.ids_eq hps)
      simp only [List.getElem?_map, hp, hj, Option.map_some, Option.some.injEq] at hget
      exact (hmodule hm).2 j (List.mem_of_getElem? hj) k hk hlt (ofInt_eq_iff.1 hget.symm)
    · have hnone : u.modules.find? (s.resolve sender (Int32.ofInt n)) = none := by
        cases hm : u.modules.find? (s.resolve sender (Int32.ofInt n)) with
        | none => rfl
        | some m => exact absurd (hmodule hm).1 (hne _ m hm)
      obtain hmodules | ⟨-, hmodules⟩ | ⟨m, m', ps, hm, -⟩ :=
        (posted_of_reads hst hparse hadd hq).modules_cases hids ht hst'
      · exact hmodules
      · rw [hmodules, OrdMap.erase_eq_self hnone]
      · cases hnone.symm.trans hm
    · obtain hmodules | ⟨-, hmodules⟩ | ⟨m₁, m₁', ps, hm₁, hsave, hfst, hmodules⟩ :=
        (posted_of_reads hst hparse hadd hq).modules_cases hids ht hst'
      · rw [hmodules, hm] at hm'
        rw [Option.some.inj hm']
      · rw [hmodules, OrdMap.find?_erase] at hm'
        split_ifs at hm' with hid
        rw [hm] at hm'
        rw [Option.some.inj hm']
      · rw [hmodules, OrdMap.find?_modify] at hm'
        split_ifs at hm' with hid
        · -- The module addressed: none of the updates is one of this property.
          subst hid
          obtain rfl : m = m₁ := Option.some.inj (hm.symm.trans hm₁)
          rw [hm, Option.map_some] at hm'
          obtain rfl := Option.some.inj hm'
          have hother : k < m.properties.length → ∀ u ∈ ps, u.1.toInt ≠ (k : Int) := by
            intro hlt u hu he
            have hmem := List.mem_map_of_mem (f := Prod.fst) hu
            rw [hfst, List.mem_map] at hmem
            obtain ⟨j, hj, hju⟩ := hmem
            have hjk := (hmodule hm).2 j hj u.1 (by omega) (by omega) (ofInt_eq_iff.1 hju)
            exact hk (by rwa [← he, ← hjk])
          by_cases hlt : k < m.properties.length
          · by_cases hreach : m.Reaches k
            · rw [(Module.save_getElem?_cases hsave k).1 hreach,
                funext (Module.written_eq_self (hother hlt)), Option.map_id']
            · exact (Module.save_getElem?_cases hsave k).2 hreach
          · have hlen := (Module.save_saved hsave).length_eq
            rw [List.getElem?_eq_none (by omega), List.getElem?_eq_none (by omega)]
        · rw [hm] at hm'
          rw [Option.some.inj hm']

/-- Integers that are `int`s are taken for what they are. -/
theorem unaliased_of_int {s u : Instance} {sender : Sender} {n : Int} {js : List Int}
    (hint : ∀ j ∈ n :: js, -2 ^ 31 ≤ j ∧ j < 2 ^ 31) : Unaliased s u sender n js := by
  have hself : ∀ j ∈ n :: js, ∀ k : Int32, j ≡ k.toInt [ZMOD 2 ^ 32] → j = k.toInt := by
    intro j hj k hjk
    have hk := ofInt_eq_iff.2 hjk
    have hrange := hint j hj
    rw [← hk, Int32.toInt_ofInt_of_le (by omega) (by omega)]
  exact fun id m _ hn => ⟨hself n List.mem_cons_self id hn,
    fun j hj k _ _ hjk => hself j (List.mem_cons_of_mem _ hj) k hjk⟩

/-- A host with a module and a web client. -/
def doorHost : List Action :=
  [.connecting false, .task, .flush,
    .registerModule (Str.lit "Door") [⟨3, Str.lit "State", Str.lit "shut", false⟩] none, .task,
    .wsConnected 5]

def doorModule (state : Str) : Module :=
  ⟨0, Str.lit "Door", [⟨3, Str.lit "State", state, false⟩], none⟩

/-- A request to open the property `id'` of the module `id`. -/
def openRequest (id id' : Int) : JsonMsg where
  json := .obj [(Str.lit "type", .str (Str.lit "apply")), (Str.lit "id", .int id),
    (Str.lit "properties", .arr [.obj [(Str.lit "id", .int id'),
      (Str.lit "value", .str (Str.lit "open"))]])]
  isValid := true
  type := .reqApply

theorem openRequest_isUtf8 (id id' : Int) : (openRequest id id').json.isUtf8 = true := by
  have hkeys : (Str.lit "type").isUtf8 = true ∧ (Str.lit "apply").isUtf8 = true ∧
      (Str.lit "id").isUtf8 = true ∧ (Str.lit "properties").isUtf8 = true ∧
      (Str.lit "value").isUtf8 = true ∧ (Str.lit "open").isUtf8 = true := by decide
  simp [openRequest, hkeys]

theorem parse_openRequest (id id' : Int) :
    parse (.json (openRequest id id').json (openRequest_isUtf8 id id')) =
      .ok (openRequest id id') := rfl

theorem hasIds_openRequest (id id' : Int) : (openRequest id id').HasIds id [id'] :=
  ⟨.inl rfl, rfl, fun h => absurd (show MsgType.reqApply = .moduleDel from h) (by decide),
    fun _ => ⟨_, _, _, rfl, rfl, .cons ⟨rfl, _, rfl⟩ .nil⟩⟩

/-- There is no module with the id `1`: the request changes nothing. -/
theorem exact_iff_open : ∃ s, Instance.Runs doorHost s ∧
    (Exact s s (.web 5) (.json (openRequest 1 0).json (openRequest_isUtf8 1 0)) (openRequest 1 0)
      1 [0] ↔ Unaliased s s (.web 5) 1 [0]) := by
  obtain ⟨s, h, -⟩ := Instance.exists_runs doorHost (fun s => s.modules.find? 0)
    (some (doorModule (Str.lit "shut"))) (by decide +kernel)
  exact ⟨s, h, exact_iff (parse_openRequest 1 0) (hasIds_openRequest 1 0)⟩

/-- There is no module with the id `2 ^ 32` either, but the request opens the door. -/
theorem not_exact_of_open : ∃ s s₁ s₂, Instance.Runs doorHost s ∧
    s.step (.wsMessage 5 ⟨.json (openRequest 4294967296 (-4294967296)).json
      (openRequest_isUtf8 ..), false⟩) = .ok s₁ ∧
    s₁.step .task = .ok s₂ ∧ s₁.modules.find? 0 = some (doorModule (Str.lit "shut")) ∧
    s₂.modules.find? 0 = some (doorModule (Str.lit "open")) ∧
    ¬Exact s s₁ (.web 5) (.json (openRequest 4294967296 (-4294967296)).json
      (openRequest_isUtf8 ..)) (openRequest 4294967296 (-4294967296)) 4294967296 [-4294967296] := by
  obtain ⟨s, s₂, h, h', hobs⟩ := Lts.exists_runs_of_foldlM (fun _ _ => True) Instance.step .disabled
    {} doorHost [.wsMessage 5 ⟨.json (openRequest 4294967296 (-4294967296)).json
      (openRequest_isUtf8 ..), false⟩, .task]
    (fun s s₂ => (s.modules.find? 0, s₂.modules.find? 0))
    (some (doorModule (Str.lit "shut")), some (doorModule (Str.lit "open"))) (by decide +kernel)
  obtain ⟨hshut, hopen⟩ := Prod.mk.inj hobs
  obtain ⟨s₁, h₁, h'⟩ := h'.uncons
  obtain ⟨t, h₂, h'⟩ := h'.uncons
  obtain rfl := h'.eq_of_nil
  have hmodules : s₁.modules = s.modules := by
    cases transition_of_step h₁.2 with
    | wsLarge => rfl
    | wsRequest => rfl
  have hshut' : s₁.modules.find? 0 = some (doorModule (Str.lit "shut")) := hmodules ▸ hshut
  refine ⟨s, s₁, s₂, h, h₁.2, h₂.2, hshut', hopen, fun hexact => ?_⟩
  have hid := (hasIds_openRequest 4294967296 (-4294967296)).findId
  exact absurd (hexact.module hid hshut') (by decide)

end Sacs
