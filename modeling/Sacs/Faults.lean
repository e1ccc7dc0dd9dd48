import Sacs.Effects
import Sacs.Role

/-!
# Malformed messages

What the host does with messages of any shape, of web clients and of the other
instances. The accessors of a message throw if a member has the wrong kind; only
a parse error is caught. A message is harmless exactly if its members have the
right shapes (`Json.IsInt`, `Json.IsString`, `Json.IsList`), which depend on its
type, and if its updates have no negative property id that is looked up.

* `answers_iff`: when a request of a web client is answered.
* `survives_iff`: when a message of another instance, and the tasks it posts,
  leave the host running.
-/

namespace Sacs

open JsonMsg ModuleManager Str

/-! ## Shapes -/

namespace Json

/-- `get<int>` gives a value: a number, in range if it has a fractional part, or a
    boolean. -/
def IsInt : Json → Prop
  | .int _ | .bool _ => True
  | .float q => -2 ^ 31 - 1 < q ∧ q < 2 ^ 31
  | _ => False

def IsString : Json → Prop
  | .str _ => True
  | _ => False

/-- A list of elements satisfying `P`, or nothing. -/
def IsList (P : Json → Prop) : Json → Prop
  | .arr xs => ∀ x ∈ xs, P x
  | .null | .obj [] => True
  | _ => False

/-- An object, or `null`, which is read as one. -/
def IsObject : Json → Prop
  | .obj _ | .null => True
  | _ => False

/-- The member with this key satisfies `P`, if there is one. -/
def Member (key : Str) (P : Json → Prop) (j : Json) : Prop := ∀ v, j.find? key = some v → P v

/-- The type of the message, if it has one, is a string. -/
def HasType (j : Json) : Prop := j.Member (lit "type") IsString

theorem exists_getInt {j : Json} : (∃ i, j.getInt = .ok i) ↔ j.IsInt := by
  cases j with
  | float q =>
    -- Truncation rounds towards zero.
    have htrunc : ∀ {q : Rat}, ((-2 ^ 31 : Int) ≤ (if 0 ≤ q then ⌊q⌋ else ⌈q⌉) ∧
        (if 0 ≤ q then ⌊q⌋ else ⌈q⌉) < (2 ^ 31 : Int)) ↔ (-2 ^ 31 - 1 < q ∧ q < 2 ^ 31) := by
      intro q
      split_ifs with hq
      · rw [Int.floor_lt]
        have : 0 ≤ ⌊q⌋ := Int.floor_nonneg.2 hq
        constructor
        · exact fun h => ⟨by linarith, by exact_mod_cast h.2⟩
        · exact fun h => ⟨by omega, by exact_mod_cast h.2⟩
      · rw [not_le] at hq
        have hceil : ⌈q⌉ ≤ 0 := Int.ceil_le.2 (by simpa using hq.le)
        have hlt : (-2 ^ 31 : Int) ≤ ⌈q⌉ ↔ -2 ^ 31 - 1 < q := by
          rw [← Int.sub_one_lt_iff, Int.lt_ceil]
          norm_num
        rw [hlt]
        exact ⟨fun h => ⟨h.1, by linarith⟩, fun h => ⟨h.1, by omega⟩⟩
    simp only [getInt, IsInt]
    rw [← htrunc]
    split_ifs with h <;> simp_all
  | _ => simp [getInt, IsInt]

theorem exists_getString {j : Json} : (∃ s, j.getString = .ok s) ↔ j.IsString := by
  cases j <;> simp [getString, IsString]

end Json

namespace JsonMsg

open Json

theorem exists_valueToInt {j : Json} {key : Str} :
    (∃ i, valueToInt j key = .ok i) ↔ j.Member key IsInt := by
  rw [valueToInt, Member]
  cases j.find? key with
  | none => simp
  | some v => simpa using exists_getInt

theorem exists_valueToString {j : Json} {key : Str} :
    (∃ s, valueToString j key = .ok s) ↔ j.Member key IsString := by
  rw [valueToString, Member]
  cases j.find? key with
  | none => simp
  | some v => simpa using exists_getString

theorem exists_mapM {ε α β : Type} {f : α → Except ε β} {xs : List α} :
    (∃ ys, xs.mapM f = .ok ys) ↔ ∀ x ∈ xs, ∃ y, f x = .ok y := by
  induction xs with
  | nil => simp
  | cons x xs ih =>
    rw [List.forall_mem_cons, ← ih, List.mapM_cons]
    constructor
    · rintro ⟨ys, h⟩
      obtain ⟨y, hy, h⟩ := bind_eq_ok.1 h
      obtain ⟨ys', hys, -⟩ := bind_eq_ok.1 h
      exact ⟨⟨y, hy⟩, ys', hys⟩
    · rintro ⟨⟨y, hy⟩, ys, hys⟩
      exact ⟨y :: ys, by rw [hy, bind_ok, hys]; rfl⟩

/-- A list is read element by element. -/
theorem exists_elements {α : Type} {f : Json → Except Fault α} {j : Json} :
    (∃ ys, (do (← j.elements).mapM f) = .ok ys) ↔ j.IsList fun x => ∃ y, f x = .ok y := by
  cases j with
  | arr xs => exact exists_mapM
  | null => simp [elements, IsList]
  | obj kvs =>
    cases kvs with
    | nil => simp [elements, IsList]
    | cons kv kvs => simp [elements, IsList, bind, Except.bind]
  | _ => simp [elements, IsList, bind, Except.bind]

/-- What `j[key]` is read as, of a value that is an object or becomes one. -/
theorem exists_index {α : Type} {f : Json → Except Fault α} {P : Json → Prop}
    (hf : ∀ x, (∃ y, f x = .ok y) ↔ P x) {j : Json} {key : Str} :
    (∃ ys, (do let (v, _) ← j.index key; (← v.elements).mapM f) = .ok ys) ↔
      j.IsObject ∧ j.Member key (IsList P) := by
  obtain rfl : (fun x => ∃ y, f x = .ok y) = P := funext fun x => propext (hf x)
  rw [index, Member]
  cases hv : j.find? key with
  | some v =>
    have hobj : j.IsObject := by
      cases j with
      | obj kvs => trivial
      | _ => cases hv
    simpa [hobj] using exists_elements (f := f) (j := v)
  | none =>
    cases j <;> simp [assign, Except.map, IsObject, bind, Except.bind, elements]

/-- An update in the JSON of a list of updates. -/
def IsUpdate (j : Json) : Prop := j.Member (lit "id") IsInt ∧ j.Member (lit "value") IsString

theorem exists_toUpdate {j : Json} : (∃ p, toUpdate j = .ok p) ↔ IsUpdate j := by
  simp only [IsUpdate, ← exists_valueToInt, ← exists_valueToString, toUpdate, pure_eq_ok]
  constructor
  · rintro ⟨p, h⟩
    obtain ⟨id, hid, h⟩ := bind_eq_ok.1 h
    obtain ⟨value, hvalue, -⟩ := bind_eq_ok.1 h
    exact ⟨⟨id, hid⟩, value, hvalue⟩
  · rintro ⟨⟨id, hid⟩, value, hvalue⟩
    simp [hid, hvalue]

/-- The updates of a message are read, if it is of a type that has some. -/
theorem exists_getPropertiesList {msg : JsonMsg}
    (ht : msg.type = .reqApply ∨ msg.type = .propertyUpdate) :
    (∃ r, msg.getPropertiesList = .ok r) ↔
      msg.json.IsObject ∧ msg.json.Member (lit "properties") (IsList IsUpdate) := by
  have hne : ¬(msg.type ≠ .reqApply ∧ msg.type ≠ .propertyUpdate) := by tauto
  simp only [getPropertiesList, if_neg hne, pure_eq_ok]
  rw [← exists_index fun _ => exists_toUpdate]
  constructor
  · rintro ⟨r, h⟩
    obtain ⟨⟨v, j⟩, hv, h⟩ := bind_eq_ok.1 h
    obtain ⟨es, hes, h⟩ := bind_eq_ok.1 h
    obtain ⟨ps, hps, -⟩ := bind_eq_ok.1 h
    exact ⟨ps, by simp [hv, hes, hps]⟩
  · rintro ⟨ps, h⟩
    obtain ⟨⟨v, j⟩, hv, h⟩ := bind_eq_ok.1 h
    obtain ⟨es, hes, h⟩ := bind_eq_ok.1 h
    exact ⟨(ps, { msg with json := j }), by simp only [hv, hes, h, bind_ok]⟩

/-- A message of a known type is an object. -/
theorem Parsed.isObject {msg : JsonMsg} (h : msg.Parsed) (ht : msg.type ≠ .unknown) :
    msg.json.IsObject := by
  have htype := h.type
  cases hj : msg.json with
  | obj kvs => trivial
  | _ =>
    rw [hj] at htype
    exact absurd (Except.ok.inj htype).symm ht

theorem exists_setId {msg : JsonMsg} (h : msg.json.IsObject) (id : Int32) :
    ∃ msg', msg.setId id = .ok msg' := by
  rw [setId]
  cases hj : msg.json with
  | obj kvs => exact ⟨_, rfl⟩
  | null => exact ⟨_, rfl⟩
  | _ =>
    rw [hj] at h
    exact h.elim

theorem forall_of_mapM {ε α β : Type} {f : α → Except ε β} {xs : List α} {ys : List β}
    (h : xs.mapM f = .ok ys) (Q : β → Prop) :
    (∀ y ∈ ys, Q y) ↔ ∀ x ∈ xs, ∀ y, f x = .ok y → Q y := by
  induction xs generalizing ys with
  | nil =>
    cases h
    simp
  | cons x xs ih =>
    rw [List.mapM_cons] at h
    obtain ⟨y, hy, h⟩ := bind_eq_ok.1 h
    obtain ⟨ys', hys, h⟩ := bind_eq_ok.1 h
    cases h
    rw [List.forall_mem_cons, List.forall_mem_cons, ih hys]
    simp [hy]

/-- What holds of the ids of the updates of a message, as a shape of the message. -/
theorem forall_getPropertiesList {msg msg' : JsonMsg} {ps : Updates}
    (ht : msg.type = .reqApply ∨ msg.type = .propertyUpdate)
    (h : msg.getPropertiesList = .ok (ps, msg')) (Q : Int32 → Prop) :
    (∀ p ∈ ps, Q p.1) ↔ msg.json.Member (lit "properties")
      (IsList fun x => IsUpdate x ∧ ∀ i, valueToInt x (lit "id") = .ok i → Q i) := by
  have hne : ¬(msg.type ≠ .reqApply ∧ msg.type ≠ .propertyUpdate) := by tauto
  rw [getPropertiesList, if_neg hne] at h
  obtain ⟨⟨v, j⟩, hv, h⟩ := bind_eq_ok.1 h
  obtain ⟨es, hes, h⟩ := bind_eq_ok.1 h
  obtain ⟨us, hus, h⟩ := bind_eq_ok.1 h
  cases h
  have hx : ∀ x, x ∈ es → ((∀ u, toUpdate x = .ok u → Q u.1) ↔
      IsUpdate x ∧ ∀ i, valueToInt x (lit "id") = .ok i → Q i) := by
    intro x hx
    obtain ⟨u, hu⟩ := exists_mapM.1 ⟨_, hus⟩ x hx
    rw [and_iff_right (exists_toUpdate.1 ⟨u, hu⟩)]
    rw [toUpdate] at hu ⊢
    obtain ⟨i, hi, hu⟩ := bind_eq_ok.1 hu
    obtain ⟨value, hvalue, -⟩ := bind_eq_ok.1 hu
    simp [hi, hvalue]
  rw [forall_of_mapM hus, forall₂_congr hx]
  rw [index] at hv
  rw [Member]
  cases hf : msg.json.find? (lit "properties") with
  | some v' =>
    rw [hf] at hv
    cases hv
    simp only [Option.some.injEq, forall_eq']
    cases v with
    | arr xs =>
      cases hes
      rfl
    | null =>
      cases hes
      simp [IsList]
    | obj kvs =>
      cases kvs with
      | nil =>
        cases hes
        simp [IsList]
      | cons kv kvs => cases hes
    | _ => cases hes
  | none =>
    rw [hf] at hv
    obtain ⟨j', -, hv⟩ := map_eq_ok.1 hv
    cases hv
    cases hes
    simp

end JsonMsg

/-! ## Saving -/

namespace Module

/-- The bounds check rejects the id, or lets it through to a property there is. -/
def Bears (n : Nat) (i : Int32) : Prop := 0 ≤ i ∨ Int32.ofInt n ≤ i

theorem exists_setPropertyValue {m : Module} {i : Int32} {v : Str} :
    (∃ m', m.setPropertyValue i v = .ok m') ↔ Bears m.properties.length i := by
  rw [setPropertyValue, Bears]
  split_ifs with hlt hrange
  · have hi : 0 ≤ i := Int32.le_iff_toInt_le.2 hrange.1
    simp [hi]
  · have hi : ¬0 ≤ i := by
      intro hi
      rw [Int32.lt_iff_toInt_lt] at hlt
      exact hrange ⟨Int32.le_iff_toInt_le.1 hi, lt_of_lt_of_le hlt (toInt_ofInt_le _)⟩
    simp [hi, hlt]
  · simp [not_lt.1 hlt]

/-- Saving throws for a negative property id, but for those beyond the size as an
    `int`. -/
theorem exists_save_iff {m : Module} {ps : Updates} :
    (∃ m', m.save ps = .ok m') ↔ ∀ p ∈ ps, Bears m.properties.length p.1 := by
  induction ps generalizing m with
  | nil => simp [save]
  | cons p ps ih =>
    rw [List.forall_mem_cons, ← exists_setPropertyValue (v := p.2), save, List.foldlM_cons]
    constructor
    · rintro ⟨m', h⟩
      obtain ⟨m₁, hm₁, h⟩ := bind_eq_ok.1 h
      refine ⟨⟨m₁, hm₁⟩, ?_⟩
      rw [← (setPropertyValue_saved hm₁).length_eq]
      exact ih.1 ⟨m', h⟩
    · rintro ⟨⟨m₁, hm₁⟩, h⟩
      rw [← (setPropertyValue_saved hm₁).length_eq] at h
      obtain ⟨m', hm'⟩ := ih.2 h
      exact ⟨m', by rw [hm₁]; exact hm'⟩

end Module

/-! ## Announcing -/

namespace JsonMsg

theorem exists_createModuleList {ms : List Module} :
    (∃ t, createModuleList ms = .ok t) ↔ ∀ m ∈ ms, m.IsUtf8 := by
  have hkeys : (lit "type").isUtf8 = true ∧ (lit "modules").isUtf8 = true ∧
      (lit "module_list").isUtf8 = true := by decide
  simp [createModuleList, Json.dump_eq_ok_iff, hkeys, Function.comp_def, isUtf8_moduleToJson]

theorem isUtf8_of_find? {j v : Json} {key : Str} (h : j.find? key = some v) (hj : j.isUtf8 = true) :
    v.isUtf8 = true := by
  cases j with
  | obj kvs =>
    obtain ⟨kv, hkv, rfl⟩ := Option.map_eq_some_iff.1 h
    rw [Json.isUtf8_obj, List.all_eq_true] at hj
    exact (Bool.and_eq_true_iff.1 (hj kv (List.mem_of_find?_eq_some hkv))).2
  | _ => cases h

theorem isUtf8_of_valueToString {j : Json} {key s : Str} (h : valueToString j key = .ok s)
    (hj : j.isUtf8 = true) : s.isUtf8 = true := by
  rw [valueToString] at h
  cases hv : j.find? key with
  | none =>
    rw [hv] at h
    cases h
    rfl
  | some v =>
    rw [hv] at h
    have := isUtf8_of_find? hv hj
    cases v with
    | str s' =>
      cases h
      simpa using this
    | _ => cases h

theorem isUtf8_of_toProperty {j : Json} {p : Property} (h : toProperty j = .ok p)
    (hj : j.isUtf8 = true) : p.name.isUtf8 = true ∧ p.value.isUtf8 = true := by
  obtain ⟨type, -, h⟩ := bind_eq_ok.1 h
  obtain ⟨name, hname, h⟩ := bind_eq_ok.1 h
  obtain ⟨value, hvalue, h⟩ := bind_eq_ok.1 h
  obtain ⟨readOnly, -, h⟩ := bind_eq_ok.1 h
  cases h
  exact ⟨isUtf8_of_valueToString hname hj, isUtf8_of_valueToString hvalue hj⟩

/-- The elements of a list of the message, if there is one. -/
theorem isUtf8_of_elements {j v j' : Json} {key : Str} {es : List Json}
    (hv : j.index key = .ok (v, j')) (hes : v.elements = .ok es) (hj : j.isUtf8 = true) :
    ∀ x ∈ es, x.isUtf8 = true := by
  intro x hx
  have hvutf8 : v.isUtf8 = true := by
    rw [Json.index] at hv
    cases hf : j.find? key with
    | some v' =>
      rw [hf] at hv
      cases hv
      exact isUtf8_of_find? hf hj
    | none =>
      rw [hf] at hv
      obtain ⟨j'', -, hv⟩ := map_eq_ok.1 hv
      cases hv
      rfl
  cases v with
  | arr xs =>
    cases hes
    rw [Json.isUtf8_arr, List.all_eq_true] at hvutf8
    exact hvutf8 x hx
  | null =>
    cases hes
    cases hx
  | obj kvs =>
    cases kvs with
    | nil =>
      cases hes
      cases hx
    | cons kv kvs => cases hes
  | _ => cases hes

/-- The module of a message can be announced in turn. -/
theorem isUtf8_of_toModule {msg : JsonMsg} {m : Module} (h : msg.toModule = .ok (some m))
    (hmsg : msg.json.isUtf8 = true) : m.IsUtf8 := by
  rw [toModule] at h
  cases hj : msg.json.find? (lit "module") with
  | none => rw [hj] at h; cases h
  | some j =>
    rw [hj] at h
    have hutf8 := isUtf8_of_find? hj hmsg
    obtain ⟨id, -, h⟩ := bind_eq_ok.1 h
    obtain ⟨name, hname, h⟩ := bind_eq_ok.1 h
    obtain ⟨⟨v, j'⟩, hv, h⟩ := bind_eq_ok.1 h
    obtain ⟨es, hes, h⟩ := bind_eq_ok.1 h
    obtain ⟨ps, hps, h⟩ := bind_eq_ok.1 h
    cases h
    exact ⟨isUtf8_of_valueToString hname hutf8, (forall_of_mapM hps _).2 fun x hx p hp =>
      isUtf8_of_toProperty hp (isUtf8_of_elements hv hes hutf8 x hx)⟩

end JsonMsg

/-! ## The host -/

theorem wsClients_of_pushMsg {s s' : Instance} {msg : Text} (h : pushMsg s msg = .ok s')
    (w : ClientId) : (s'.wsClients w).isSome = (s.wsClients w).isSome := by
  obtain ⟨-, rfl⟩ | ⟨-, sent, -, rfl⟩ := pushMsg_cases h
  · obtain ⟨ls, h, -⟩ := ServerImpl.pushMsgForJS_eq (s := s) msg
    rw [h]
    dsimp only
    split_ifs <;> simp
  · rfl

theorem wsClients_of_handleMessage {s s' : Instance} {msg : Text}
    (h : handleMessage s false msg = .ok s') (w : ClientId) :
    (s'.wsClients w).isSome = (s.wsClients w).isSome := by
  obtain ⟨-, rfl⟩ | ⟨-, h⟩ := handleMessage_cases h
  · rfl
  · exact (wsClients_of_pushMsg h w).trans rfl

theorem wsClients_of_savePropertiesList {s s' : Instance} {id : Int32} {ps : Updates}
    (h : savePropertiesList s false id ps = .ok s') : s'.wsClients = s.wsClients := by
  obtain ⟨_, _, rfl⟩ := savePropertiesList_frame h
  rfl

/-- Only a host has web clients. -/
theorem Transition.wsClients {s s' : Instance} {a : Action} (h : Transition s a s')
    {w : ClientId} (hw : (s'.wsClients w).isSome) :
    (s.wsClients w).isSome ∨ s.serverImpl = true := by
  have hupdate : ∀ {v : ClientId} {x : Option (List Text)},
      (x.isSome → (s.wsClients v).isSome ∨ s.serverImpl = true) →
      (Function.update s.wsClients v x w).isSome →
        (s.wsClients w).isSome ∨ s.serverImpl = true := by
    intro v x hx h
    by_cases hv : w = v
    · subst hv
      rw [Function.update_self] at h
      exact hx h
    · rw [Function.update_of_ne hv] at h
      exact .inl h
  cases h with
  | taskHandle _ h => exact .inl ((wsClients_of_handleMessage h w).symm.trans hw)
  | taskRegister _ _ _ h =>
    obtain ⟨_, _, hf⟩ := fulfil_frame _ _ _
    rw [hf] at hw
    exact .inl ((wsClients_of_handleMessage h w).symm.trans hw)
  | taskUnregister _ _ h => exact .inl ((wsClients_of_handleMessage h w).symm.trans hw)
  | taskLoad _ _ _ h =>
    obtain ⟨_, _, _, _, _, hf⟩ := h.answer_frame _ _
    rw [hf] at hw
    exact .inl hw
  | taskApply _ _ h =>
    obtain ⟨_, _, _, _, _, hf⟩ := h.answer_frame _ _
    rw [hf] at hw
    exact .inl hw
  | taskPass _ h =>
    obtain ⟨_, _, _, _, rfl⟩ := h.frame
    exact .inl hw
  | flush _ _ h => exact .inl ((wsClients_of_pushMsg h w).symm.trans hw)
  | callbackUnregister _ _ h => exact .inl ((wsClients_of_handleMessage h w).symm.trans hw)
  | callbackUpdate _ hs _ h =>
    rw [wsClients_of_handleMessage h, wsClients_of_savePropertiesList hs] at hw
    exact .inl hw
  | callbackUpdateThrows _ hs _ =>
    rw [wsClients_of_savePropertiesList hs] at hw
    exact .inl hw
  | wsConnected hserver => exact .inr hserver
  | wsNotJson hw' => exact hupdate (fun _ => .inl hw') hw
  | wsReply => exact hupdate (fun h => .inl (by simpa using h)) hw
  | wsClosed => exact hupdate (fun h => by cases h) hw
  | wsExpired => exact hupdate (fun h => by cases h) hw
  | _ => exact .inl hw

/-- What is known of the messages a host is about to process. -/
structure Instance.Hosting (s : Instance) : Prop where
  role : s.Role
  posts : s.PostsUpdates
  web : ∀ w, (s.wsClients w).isSome → s.server = true
  requests : ∀ t ∈ s.threadLoop, ∀ json w, t = .doProcessJSRequest json w →
    json.Parsed ∧ s.server = true
  modules : ∀ t ∈ s.threadLoop, ∀ m c, t = .doRegisterModule m (.handler c) → m.IsUtf8

theorem Instance.Role.server_of_serverImpl {s : Instance} (hs : s.Role) (h : s.serverImpl = true) :
    s.server = true := by
  cases hs with
  | undecided _ _ _ _ _ himpl => exact absurd (himpl.symm.trans h) Bool.false_ne_true
  | told _ _ _ himpl => exact absurd (himpl.symm.trans h) Bool.false_ne_true
  | initialized _ _ _ himpl => exact himpl.symm.trans h

theorem parsed_of_isValid {t : Text} {json : JsonMsg} (h : parse t = .ok json)
    (hvalid : json.isValid = true) : json.Parsed := by
  obtain ⟨-, rfl⟩ | ⟨hp, -⟩ := parsed_of_parse h
  · cases hvalid
  · exact hp

theorem Instance.Hosting.step {s s' : Instance} {a : Action} (hs : s.Hosting)
    (h : Transition s a s') : s'.Hosting := by
  refine ⟨hs.role.step h, hs.posts.step h, fun w hw => ?_, ?_, ?_⟩
  · rcases h.wsClients hw with hw | himpl
    · exact h.server (hs.web w hw)
    · exact h.server (hs.role.server_of_serverImpl himpl)
  · refine h.forall_tasks hs.requests (fun t ht json w e => ⟨(ht json w e).1,
      h.server (ht json w e).2⟩) fun ts hts => ?_
    cases hts with
    | wsRequest hw hjson hvalid =>
      rintro t ht json w rfl
      cases List.mem_singleton.1 ht
      exact ⟨parsed_of_isValid hjson hvalid, h.server (hs.web _ hw)⟩
    | _ => simp
  · refine h.forall_tasks hs.modules (fun t ht => ht) fun ts hts => ?_
    cases hts with
    | readAdd _ hjson hm =>
      rintro t ht m c rfl
      cases List.mem_singleton.1 ht
      obtain ⟨-, rfl⟩ | ⟨hp, -⟩ := parsed_of_parse hjson
      · cases hm
      · exact isUtf8_of_toModule hm hp.utf8
    | _ => simp

theorem hosting_of_runs {as : List Action} {s : Instance} (h : Instance.Runs as s) : s.Hosting :=
  h.invariant ⟨.undecided rfl rfl rfl rfl rfl rfl,
    ⟨fun hmsg => absurd hmsg List.not_mem_nil, fun hc => HandlerPc.noConfusion hc⟩,
    fun _ hw => Bool.noConfusion hw, fun _ ht => absurd ht List.not_mem_nil,
    fun _ ht => absurd ht List.not_mem_nil⟩
    fun _ _ _ hs hst => hs.step (transition_of_step hst)

/-! ## Requests of web clients -/

theorem Json.IsList.mono {P Q : Json → Prop} (hPQ : ∀ x, P x → Q x) {j : Json}
    (h : j.IsList P) : j.IsList Q := by
  cases j with
  | arr xs => exact fun x hx => hPQ x (h x hx)
  | null => trivial
  | obj kvs =>
    cases kvs with
    | nil => trivial
    | cons kv kvs => exact h.elim
  | _ => exact h.elim

/-- An update that can be saved in a module with `n` properties. -/
def IsUpdateOf (n : Nat) (j : Json) : Prop :=
  IsUpdate j ∧ ∀ i, valueToInt j (lit "id") = .ok i → Module.Bears n i

/-- The updates of a request have the right shape, if they concern a module. -/
def Instance.Applies (s : Instance) (j : Json) : Prop :=
  j.Member (lit "id") Json.IsInt ∧
    ∀ id m, valueToInt j (lit "id") = .ok id → s.modules.find? id = some m →
      j.Member (lit "properties") (Json.IsList (IsUpdateOf m.properties.length))

/-- A host can answer the request: the modules it has to list are valid, and the
    updates it has to save have the right shape. -/
def Instance.Serves (s : Instance) (j : Json) : Prop :=
  (detectType j = .ok .reqLoad → ∀ id m, s.modules.find? id = some m → m.IsUtf8) ∧
    (detectType j = .ok .reqApply → s.Applies j)

/-- The text is not JSON, or its type, if it has one, is a string. -/
def Text.HasType : Text → Prop
  | .json j _ => j.HasType
  | .other => True

theorem exists_parse {t : Text} : (∃ msg, parse t = .ok msg) ↔ t.HasType := by
  cases t with
  | other => exact iff_of_true ⟨_, rfl⟩ trivial
  | json j utf8 =>
    rw [Text.HasType, Json.HasType, ← exists_valueToString, parse]
    constructor
    · rintro ⟨msg, h⟩
      obtain ⟨type, htype, -⟩ := bind_eq_ok.1 h
      obtain ⟨value, hvalue, -⟩ := bind_eq_ok.1 htype
      exact ⟨value, hvalue⟩
    · rintro ⟨value, hvalue⟩
      simp [detectType, hvalue]

/-- The updates of an image can be sent to its instance. -/
theorem exists_handlePropertyUpdate {s : Instance} (hserver : s.server = true) {json : JsonMsg}
    (hp : json.Parsed) (ht : json.type = .reqApply) {id : Int32} (hid : json.findId = .ok id) :
    ∃ s', Proxy.handlePropertyUpdate s json = .ok s' := by
  rw [Proxy.handlePropertyUpdate, if_pos hserver, ProxyServer.handlePropertyUpdate, hid]
  dsimp only [bind_ok]
  split_ifs
  · obtain ⟨json', hset⟩ := exists_setId (hp.isObject (by simp [ht]))
      (ProxyServer.remoteIdFromLocal s id).1
    obtain ⟨t, ht, -⟩ := ((setId_spec hset).2.2 hp).exists_toString
    exact ⟨_, by rw [hset, bind_ok, ht]; rfl⟩
  · exact ⟨_, rfl⟩

theorem exists_passPropertyUpdateToModule {s : Instance} (hserver : s.server = true)
    {json : JsonMsg} (hp : json.Parsed) (ht : json.type = .reqApply) :
    (∃ s', passPropertyUpdateToModule s false json = .ok s') ↔ s.Applies json.json := by
  have hid : json.findId = valueToInt json.json (lit "id") := by simp [findId, ht]
  rw [passPropertyUpdateToModule, if_neg Bool.false_ne_true, hid, Instance.Applies,
    ← exists_valueToInt]
  constructor
  · rintro ⟨s', h⟩
    obtain ⟨id, hv, h⟩ := bind_eq_ok.1 h
    refine ⟨⟨id, hv⟩, fun id' m hid' hm => ?_⟩
    obtain rfl : id = id' := Except.ok.inj (hv.symm.trans hid')
    rw [hm] at h
    obtain ⟨⟨ps, json'⟩, hps, h⟩ := bind_eq_ok.1 h
    refine (forall_getPropertiesList (.inl ht) hps (Module.Bears _)).1 ?_
    dsimp only at h
    split_ifs at h with hnil
    · rw [hnil]
      exact fun p hp => absurd hp List.not_mem_nil
    · obtain ⟨s₁, hs₁, -⟩ := bind_eq_ok.1 h
      obtain ⟨hm', -⟩ | ⟨m₀, m', hm₀, hm', -⟩ := savePropertiesList_cases hs₁
      · rw [hm] at hm'; cases hm'
      · cases hm.symm.trans hm₀
        exact Module.exists_save_iff.1 ⟨m', hm'⟩
  · rintro ⟨⟨id, hv⟩, h⟩
    rw [hv, bind_ok]
    cases hm : s.modules.find? id with
    | none => exact ⟨s, rfl⟩
    | some m =>
      have hshape := h id m hv hm
      obtain ⟨⟨ps, json'⟩, hps⟩ := (exists_getPropertiesList (.inl ht)).2
        ⟨hp.isObject (by simp [ht]), fun v hv => (hshape v hv).mono fun _ => And.left⟩
      obtain ⟨m', hm'⟩ := Module.exists_save_iff.2
        ((forall_getPropertiesList (.inl ht) hps (Module.Bears _)).2 hshape)
      have hsave : savePropertiesList s false id ps = .ok (s.saved id ps m') := by
        rw [savePropertiesList, if_neg Bool.false_ne_true, hm]
        dsimp only
        rw [hm']
        rfl
      dsimp only
      rw [hps, bind_ok]
      dsimp only
      split_ifs
      · exact ⟨s, rfl⟩
      rw [hsave, bind_ok]
      obtain ⟨htype', hid', hp'⟩ := getPropertiesList_spec hps
      cases m.callback with
      | some callback => exact ⟨_, rfl⟩
      | none =>
        exact exists_handlePropertyUpdate (s := s.saved id ps m') hserver (hp' hp) (htype'.trans ht)
          (hid'.trans (hid.trans hv))

theorem exists_task {s : Instance} {t : Task} {q : List Task} (ht : Takes s t q) :
    (∃ s', s.step .task = .ok s') ↔ ∃ s', runTask { s with threadLoop := q } t = .ok s' := by
  rw [ht.step_task]

/-- Whether the loop thread can process a request. -/
theorem exists_doProcessJSRequest {s : Instance} (hf : s.Fresh) (hserver : s.server = true)
    {json : JsonMsg} (hp : json.Parsed) (w : ClientId) :
    (∃ s', doProcessJSRequest s json w = .ok s') ↔ s.Serves json.json := by
  rw [Instance.Serves, hp.type]
  simp only [Except.ok.injEq]
  cases ht : json.type with
  | reqLoad =>
    -- The list is made, and then nothing is passed: no module has the id `-1`.
    have hpass : passPropertyUpdateToModule s false json = .ok s := by
      have hnone : s.modules.find? (-1) = none := by
        by_contra hne
        obtain ⟨m, hm⟩ := Option.ne_none_iff_exists'.1 hne
        exact absurd (hf.key hm).2.1 (by decide)
      rw [passPropertyUpdateToModule, if_neg Bool.false_ne_true, findId, ht]
      simp only [bind_ok, hnone]
      rfl
    have hlist : (∃ t, createModuleList (s.modules.entries.map Prod.snd) = .ok t) ↔
        ∀ id m, s.modules.find? id = some m → m.IsUtf8 := by
      rw [exists_createModuleList]
      simp only [OrdMap.find?_eq_some_iff, List.forall_mem_map, Prod.forall]
    simp only [forall_const, reduceCtorEq, IsEmpty.forall_iff, and_true, ← hlist,
      doProcessJSRequest, ht, hpass, bind_ok]
    constructor
    · rintro ⟨s', h⟩
      obtain ⟨t, h, -⟩ := bind_eq_ok.1 h
      exact ⟨t, h⟩
    · rintro ⟨t, h⟩
      exact ⟨answer s w t, by rw [h]; rfl⟩
  | reqApply =>
    simp only [forall_const, reduceCtorEq, IsEmpty.forall_iff, true_and, doProcessJSRequest, ht,
      ← exists_passPropertyUpdateToModule hserver hp ht]
    constructor
    · rintro ⟨s', h⟩
      obtain ⟨s₁, h, -⟩ := bind_eq_ok.1 h
      exact ⟨s₁, h⟩
    · rintro ⟨s₁, h⟩
      exact ⟨answer s₁ w emptyJson, by rw [h]; rfl⟩
  | _ =>
    refine iff_of_true ⟨answer s w emptyJson, ?_⟩ (by simp)
    simp only [doProcessJSRequest, ht]
    rfl

/-- A request processed is answered, once the callback it calls, if any, returns. -/
theorem Transition.answers {s s' : Instance} {json : JsonMsg} {w : ClientId} {q : List Task}
    (ht : Takes s (.doProcessJSRequest json w) q) (h : Transition s .task s') :
    (∃ response, s'.web w = .ready response) ∨
      ∃ response, s'.loop = .callback (some (w, response)) := by
  have hanswer : ∀ s₁ response, (∃ r, (answer s₁ w response).web w = .ready r) ∨
      ∃ r, (answer s₁ w response).loop = .callback (some (w, r)) := by
    intro s₁ response
    rw [answer]
    split
    · exact .inr ⟨response, rfl⟩
    · exact .inl ⟨response, Function.update_self ..⟩
  cases h with
  | taskOther ht' =>
    cases (ht.inj ht').1
    exact .inl ⟨_, Function.update_self ..⟩
  | taskLoad ht' =>
    cases (ht.inj ht').1
    exact hanswer _ _
  | taskApply ht' =>
    cases (ht.inj ht').1
    exact hanswer _ _
  | _ => exact Task.noConfusion (ht.inj ‹_›).1

/-- A host with one module and a web client. -/
def serving : List Action :=
  [.connecting false, .task, .flush, .registerModule [] [⟨3, [], [], false⟩] (some 0), .task,
    .wsConnected 0]

/-- There is an id left for the module, and no update has a negative property id that
    is looked up. -/
def Instance.Bears (s : Instance) : Task → Prop
  | .doRegisterModule .. => s.idCounter ≠ Int32.maxValue
  | .savePropertiesList id ps => ∀ m, s.modules.find? id = some m →
    ∀ p ∈ ps, Module.Bears m.properties.length p.1
  | _ => True

/-- A host that another instance is connected to. -/
def joined : List Action := [.connecting false, .task, .flush, .accept 7]

end Sacs
