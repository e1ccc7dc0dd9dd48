import Mathlib.Tactic.Abel
import Sacs.Lib.Heap
import Sacs.Android
import Sacs.JavaStrings

/-!
# Local references

The objects of Java that the `MsgThread` makes to hand the updates to the handlers: an array
for every callback, and a string and a `ModulePropertyUpdate` for every update. It has a local
reference to each, which keeps it alive, and deletes the one to the array only; the thread
stays in native code for good, so the others are never deleted for it. The handlers are
taken to return: an exception of Java that one of them throws is not modelled.

* The handlers get the updates, if all values are strings of Java; otherwise making one of
  them fails.
* Two references remain for every update ever handed over (`callJavaPropertiesUpdate_run`).
-/

namespace Sacs

namespace LocalRefs

open Heap JniGlue

/-- The fields and elements of the objects. -/
inductive Cell
  | int (n : Int32)
  | unit (c : UInt16)
  | ref (a : ℕ)

/-! ## In native code -/

def newStringUtf (s : Str) : Prog Cell ℕ :=
  match Sacs.newStringUtf s with
  | none => fail .invalid
  | some t => do
    let str ← new t.length
    writeAll str 0 (t.map .unit)
    return str

/-- `NewObject`, with the constructor of `ModulePropertyUpdate`. -/
def newObject (id : Int32) (value : ℕ) : Prog Cell ℕ := do
  let obj ← new 2
  write obj 0 (.int id)
  write obj 1 (.ref value)
  return obj

/-- The body of the loop that fills the array. -/
def setElement (updateVec : Updates) (updateArray i : ℕ) : Prog Cell Unit := do
  let update ← elem updateVec i
  let value ← newStringUtf update.2
  let obj ← newObject update.1 value
  write updateArray i (.ref obj)

/-! ## In Java -/

def readRef (a i : ℕ) : Prog Cell ℕ := do
  match ← read a i with
  | .ref b => return b
  | _ => fail .type

def readInt (a i : ℕ) : Prog Cell Int32 := do
  match ← read a i with
  | .int n => return n
  | _ => fail .type

def Cell.unit? : Option Cell → Option UInt16
  | some (.unit c) => some c
  | _ => none

def readString (a : ℕ) : Prog Cell JString := do
  match (← cells a).mapM Cell.unit? with
  | some t => return t
  | none => fail .type

/-- A handler reads an update. -/
def readUpdate (properties i : ℕ) : Prog Cell JavaUpdate := do
  let obj ← readRef properties i
  let id ← readInt obj 0
  let value ← readString (← readRef obj 1)
  return { id, value := some value }

/-! ## The calls -/

/-- The body of the loop of `CallJavaPropertiesUpdate`, with what the handler is called with. -/
def callJava (callback : QueuedCallback) : Prog Cell (Int32 × List JavaUpdate) := do
  let updateArray ← new callback.updateVec.length
  forRange (setElement callback.updateVec updateArray) callback.updateVec.length
  let properties ← mapRange (readUpdate updateArray) callback.updateVec.length
  delete updateArray
  return (callback.moduleId, properties)

def callJavaPropertiesUpdate (callbacks : List QueuedCallback) :
    Prog Cell (List (Int32 × List JavaUpdate)) :=
  callbacks.mapM callJava

/-! ## The objects -/

variable {m : Multiset (Block Cell)} {i n : ℕ}

def objectCells (u : JavaUpdate) (value : ℕ) : List (Option Cell) :=
  [some (.int u.id), some (.ref value)]

def stringCells (t : JString) : List (Option Cell) := (t.map Cell.unit).map some

theorem mapM_unit (t : JString) : (stringCells t).mapM Cell.unit? = some t := by
  induction t with
  | nil => rfl
  | cons c t ih =>
    rw [stringCells, List.map_cons, List.map_cons, List.mapM_cons]
    change (do let t ← (stringCells t).mapM Cell.unit?; _) = _
    rw [ih]
    rfl

theorem newStringUtf_triple {s : Str} {t : JString} (h : Sacs.newStringUtf s = some t) :
    Triple m (newStringUtf s) fun a m' => m' = {(a, stringCells t)} + m := by
  rw [newStringUtf, h]
  refine .bind (.new _) ?_
  rintro a _ rfl
  refine .bind (.writeAll m rfl (by simp)) ?_
  rintro _ _ rfl
  refine .pure ?_
  simp [stringCells]

theorem newObject_triple (id : Int32) (value : ℕ) :
    Triple m (newObject id value) fun a m' =>
      m' = {(a, [some (.int id), some (.ref value)])} + m := by
  refine .bind (.new _) ?_
  rintro a _ rfl
  refine .bind (.write m (Cell.int id) rfl (by simp)) ?_
  rintro _ _ rfl
  refine .bind (.write m (Cell.ref value) rfl (by simp)) ?_
  rintro _ _ rfl
  exact .pure rfl

theorem readRef_triple {a b : ℕ} {l : List (Option Cell)} (hm : (a, l) ∈ m)
    (hb : l[i]? = some (some (.ref b))) :
    Triple m (readRef a i) fun r m' => r = b ∧ m' = m := by
  refine .bind (.read hm hb) ?_
  rintro _ _ ⟨rfl, rfl⟩
  exact .pure ⟨rfl, rfl⟩

theorem readInt_triple {a : ℕ} {z : Int32} {cs : List (Option Cell)} (hm : (a, cs) ∈ m)
    (hz : cs[i]? = some (some (.int z))) :
    Triple m (readInt a i) fun r m' => r = z ∧ m' = m := by
  refine .bind (.read hm hz) ?_
  rintro _ _ ⟨rfl, rfl⟩
  exact .pure ⟨rfl, rfl⟩

theorem readString_triple {a : ℕ} {t : JString} (hm : (a, stringCells t) ∈ m) :
    Triple m (readString a) fun r m' => r = t ∧ m' = m := by
  refine .bind (.cells hm) ?_
  rintro _ _ ⟨rfl, rfl⟩
  rw [mapM_unit]
  exact .pure ⟨rfl, rfl⟩

/-- The objects of the updates, and their strings. -/
def objects (us : List JavaUpdate) (objs strs : List ℕ) : Multiset (Block Cell) :=
  arrays objs (List.zipWith objectCells us strs) +
    arrays strs (us.map fun u => stringCells (u.value.getD []))

theorem objects_concat {us : List JavaUpdate} {objs strs : List ℕ} (u : JavaUpdate)
    (hobjs : objs.length = us.length) (hstrs : strs.length = us.length) (obj str : ℕ) :
    objects (us ++ [u]) (objs ++ [obj]) (strs ++ [str]) =
      {(obj, objectCells u str)} + {(str, stringCells (u.value.getD []))} +
        objects us objs strs := by
  rw [objects, List.zipWith_append hstrs.symm, List.map_append, List.map_singleton,
    List.zipWith_cons_cons, List.zipWith_nil_left,
    arrays_concat (by rw [List.length_zipWith, hobjs, hstrs, min_self]),
    arrays_concat (by rw [List.length_map, hstrs]), objects]
  abel

theorem javaUpdates_getElem? {ps : Updates} {us : List JavaUpdate} (h : javaUpdates ps = some us) :
    us.length = ps.length ∧ ∀ {i : ℕ} {u : JavaUpdate}, us[i]? = some u →
      ∃ p t, ps[i]? = some p ∧ Sacs.newStringUtf p.2 = some t ∧ u = ⟨p.1, some t⟩ := by
  induction ps generalizing us with
  | nil =>
    cases h
    exact ⟨rfl, fun h => by cases h⟩
  | cons p ps ih =>
    obtain ⟨t, us, ht, hus, rfl⟩ := javaUpdates_cons.1 h
    obtain ⟨hlen, hget⟩ := ih hus
    refine ⟨by rw [List.length_cons, List.length_cons, hlen], fun {i u} hu => ?_⟩
    cases i with
    | zero =>
      obtain rfl := Option.some.inj hu
      exact ⟨p, t, rfl, ht, rfl⟩
    | succ i => exact hget hu

section Loop

variable {ps : Updates} {us : List JavaUpdate} {objs strs : List ℕ} {array : ℕ}

/-- One more update is made. -/
theorem setElement_triple {p : Int32 × Str} {t : JString} {k : Multiset (Block Cell)}
    (hp : ps[i]? = some p) (ht : Sacs.newStringUtf p.2 = some t) (hobjs : objs.length = i)
    (hn : i < n) :
    Triple ({(array, filled (objs.map .ref) n)} + k) (setElement ps array i) fun _ m' =>
      ∃ obj str, m' = {(array, filled ((objs ++ [obj]).map .ref) n)} +
        ({(obj, objectCells ⟨p.1, some t⟩ str)} + {(str, stringCells t)} + k) := by
  refine .bind (.elem hp) ?_
  rintro p _ ⟨rfl, rfl⟩
  refine .bind (newStringUtf_triple ht) ?_
  rintro str _ rfl
  refine .bind (newObject_triple p.1 str) ?_
  rintro obj _ rfl
  refine .conseq (.write_filled ({(obj, objectCells ⟨p.1, some t⟩ str)} +
    {(str, stringCells t)} + k) (.ref obj) (l := objs.map .ref) (n := n)
    (by rw [objectCells]; abel) (by rw [List.length_map, hobjs]) hn) ?_
  rintro _ _ rfl
  refine ⟨obj, str, ?_⟩
  rw [List.map_append]
  rfl

/-- The first `i` of the updates `us` are made. -/
def Made (array n : ℕ) (us : List JavaUpdate) (m : Multiset (Block Cell)) (i : ℕ)
    (m' : Multiset (Block Cell)) : Prop :=
  ∃ objs strs, objs.length = i ∧ strs.length = i ∧
    m' = {(array, filled (objs.map .ref) n)} + (objects (us.take i) objs strs + m)

theorem made_zero : Made array n us m 0 ({(array, List.replicate n none)} + m) := by
  refine ⟨[], [], rfl, rfl, ?_⟩
  rw [objects, arrays_nil, arrays_nil, zero_add, zero_add, List.map_nil, filled_nil]

theorem Made.setElement (hus : javaUpdates (ps.take us.length) = some us) (hi : i < us.length)
    (hn : us.length ≤ n) {m' : Multiset (Block Cell)} (hm' : Made array n us m i m') :
    Triple m' (setElement ps array i) fun _ m'' => Made array n us m (i + 1) m'' := by
  obtain ⟨objs, strs, hobjs, hstrs, rfl⟩ := hm'
  have hu : us[i]? = some us[i] := List.getElem?_eq_getElem hi
  obtain ⟨p, t, hp, ht, hpt⟩ := (javaUpdates_getElem? hus).2 hu
  have hp : ps[i]? = some p := by
    rw [List.getElem?_take] at hp
    split_ifs at hp
    exact hp
  have htake : (us.take i).length = i := by rw [List.length_take, min_eq_left hi.le]
  refine (setElement_triple hp ht hobjs (by omega)).conseq ?_
  rintro _ _ ⟨obj, str, rfl⟩
  refine ⟨objs ++ [obj], strs ++ [str], by rw [List.length_append, hobjs]; rfl,
    by rw [List.length_append, hstrs]; rfl, ?_⟩
  rw [List.take_add_one, hu, Option.toList_some,
    objects_concat _ (hobjs.trans htake.symm) (hstrs.trans htake.symm), hpt, Option.getD_some]
  abel

/-- A handler reads what was written. -/
theorem readUpdate_triple {u : JavaUpdate} {t : JString} (hu : us[i]? = some u)
    (ht : u.value = some t) (hobjs : objs.length = us.length) (hstrs : strs.length = us.length)
    (hm : m = {(array, filled (objs.map .ref) n)} + (objects us objs strs + k)) :
    Triple m (readUpdate array i) fun r m' => r = u ∧ m' = m := by
  have hi := (List.getElem?_eq_some_iff.1 hu).1
  have hobj : objs[i]? = some objs[i] := List.getElem?_eq_getElem (hobjs ▸ hi)
  have hstr : strs[i]? = some strs[i] := List.getElem?_eq_getElem (hstrs ▸ hi)
  have hmem : (objs[i], objectCells u strs[i]) ∈ m := by
    rw [hm, objects]
    have := mem_arrays (l := List.zipWith objectCells us strs) hobj
      (List.getElem?_zipWith_eq_some.2 ⟨u, strs[i], hu, hstr, rfl⟩)
    simp [this]
  have hmem' : (strs[i], stringCells t) ∈ m := by
    rw [hm, objects]
    have := mem_arrays (l := us.map fun u => stringCells (u.value.getD [])) hstr
      (c := stringCells t) (by rw [List.getElem?_map, hu, Option.map_some, ht, Option.getD_some])
    simp [this]
  refine .bind (readRef_triple (a := array) (l := filled (objs.map .ref) n) (by simp [hm])
    (getElem?_filled (by rw [List.getElem?_map, hobj, Option.map_some]))) ?_
  rintro obj _ ⟨rfl, rfl⟩
  refine .bind (readInt_triple hmem rfl) ?_
  rintro id _ ⟨rfl, rfl⟩
  refine .bind (readRef_triple hmem rfl) ?_
  rintro str _ ⟨rfl, rfl⟩
  refine .bind (readString_triple hmem') ?_
  rintro value _ ⟨rfl, rfl⟩
  refine .pure ⟨?_, rfl⟩
  rw [← ht]

/-- A callback is handed over, and the references to the objects of its updates remain. -/
theorem callJava_triple {callback : QueuedCallback}
    (hus : javaUpdates callback.updateVec = some us) :
    Triple m (callJava callback) fun r m' => r = (callback.moduleId, us) ∧
      ∃ k, m' = k + m ∧ k.card = 2 * callback.updateVec.length := by
  obtain ⟨hlen, hget⟩ := javaUpdates_getElem? hus
  rw [callJava, ← hlen]
  refine .bind (.new _) ?_
  rintro array _ rfl
  refine .bind (.forRange made_zero fun i hi m' hm' =>
    hm'.setElement (by rwa [hlen, List.take_length]) hi le_rfl) ?_
  rintro _ _ ⟨objs, strs, hobjs, hstrs, rfl⟩
  rw [List.take_length]
  refine .bind (.mapRange fun i u hu => ?_) ?_
  · obtain ⟨p, t, -, -, hut⟩ := hget hu
    exact readUpdate_triple hu (by rw [hut]) hobjs hstrs rfl
  rintro us _ ⟨rfl, rfl⟩
  refine .bind (.delete _ _ rfl) ?_
  rintro _ _ rfl
  refine .pure ⟨rfl, objects us objs strs, rfl, ?_⟩
  rw [objects, Multiset.card_add,
    card_arrays (by rw [List.length_zipWith, hobjs, hstrs, min_self]),
    card_arrays (by rw [List.length_map, hstrs]), hobjs, hstrs, two_mul]

/-- Where the first value is that is no string of Java. -/
theorem exists_of_javaUpdates_eq_none {ps : Updates} (h : javaUpdates ps = none) :
    ∃ us p, us.length < ps.length ∧ javaUpdates (ps.take us.length) = some us ∧
      ps[us.length]? = some p ∧ Sacs.newStringUtf p.2 = none := by
  induction ps with
  | nil => cases h
  | cons p ps ih =>
    cases ht : Sacs.newStringUtf p.2 with
    | none => exact ⟨[], p, Nat.succ_pos _, rfl, rfl, ht⟩
    | some t =>
      have hnone : javaUpdates ps = none := by
        cases hus : javaUpdates ps with
        | none => rfl
        | some us => cases h.symm.trans (javaUpdates_cons.2 ⟨t, us, ht, hus, rfl⟩)
      obtain ⟨us, q, hlt, hus, hq, hqt⟩ := ih hnone
      exact ⟨⟨p.1, some t⟩ :: us, q, Nat.succ_lt_succ hlt,
        javaUpdates_cons.2 ⟨t, us, ht, hus, rfl⟩, hq, hqt⟩

theorem callJava_fails {callback : QueuedCallback} (h : javaUpdates callback.updateVec = none) :
    Fails m (callJava callback) := by
  obtain ⟨us, p, hlt, hus, hp, ht⟩ := exists_of_javaUpdates_eq_none h
  rw [callJava]
  refine .after (.new _) ?_
  rintro array _ rfl
  refine .bind _ (.forRange hlt made_zero (fun i hi m' hm' => hm'.setElement hus hi hlt.le) ?_)
  intro m' _
  refine .after (.elem hp) ?_
  rintro p _ ⟨rfl, rfl⟩
  refine .bind _ ?_
  rw [newStringUtf, ht]
  exact .fail .invalid

end Loop

/-! ## Every callback -/

/-- What the handlers are called with, if all values are strings of Java. -/
def handlerCalls (callbacks : List QueuedCallback) : Option (List (Int32 × List JavaUpdate)) :=
  callbacks.mapM fun c => (javaUpdates c.updateVec).map (c.moduleId, ·)

theorem handlerCalls_cons (c : QueuedCallback) (cs : List QueuedCallback) :
    handlerCalls (c :: cs) = (javaUpdates c.updateVec).bind fun us =>
      (handlerCalls cs).map ((c.moduleId, us) :: ·) := by
  rw [handlerCalls, List.mapM_cons]
  cases javaUpdates c.updateVec with
  | none => rfl
  | some us =>
    rw [← handlerCalls]
    cases handlerCalls cs <;> rfl

theorem callJavaPropertiesUpdate_triple {cs : List QueuedCallback}
    {calls : List (Int32 × List JavaUpdate)} (h : handlerCalls cs = some calls) :
    Triple m (callJavaPropertiesUpdate cs) fun r m' => r = calls ∧
      ∃ k, m' = k + m ∧ k.card = 2 * (cs.map fun c => c.updateVec.length).sum := by
  induction cs generalizing m calls with
  | nil =>
    cases h
    exact .pure ⟨rfl, 0, (zero_add m).symm, rfl⟩
  | cons c cs ih =>
    rw [handlerCalls_cons, Option.bind_eq_some_iff] at h
    obtain ⟨us, hus, h⟩ := h
    obtain ⟨calls, hcalls, rfl⟩ := Option.map_eq_some_iff.1 h
    rw [callJavaPropertiesUpdate, List.mapM_cons]
    refine .bind (callJava_triple hus) ?_
    rintro _ _ ⟨rfl, k, rfl, hk⟩
    refine .bind (ih hcalls) ?_
    rintro _ _ ⟨rfl, k', rfl, hk'⟩
    refine .pure ⟨rfl, k' + k, (add_assoc ..).symm, ?_⟩
    rw [Multiset.card_add, hk, hk', List.map_cons, List.sum_cons]
    omega

theorem callJavaPropertiesUpdate_fails {cs : List QueuedCallback} (h : handlerCalls cs = none) :
    Fails m (callJavaPropertiesUpdate cs) := by
  induction cs generalizing m with
  | nil => cases h
  | cons c cs ih =>
    rw [handlerCalls_cons] at h
    rw [callJavaPropertiesUpdate, List.mapM_cons]
    cases hus : javaUpdates c.updateVec with
    | none => exact .bind _ (callJava_fails hus)
    | some us =>
      rw [hus, Option.bind_some, Option.map_eq_none_iff] at h
      exact .after (callJava_triple hus) fun _ _ _ => .bind _ (ih h)

/-- From every heap: the handlers are called with the updates, and two references remain for
    each, if all values are strings of Java and the handlers return. Otherwise making one
    fails. -/
theorem callJavaPropertiesUpdate_run (callbacks : List QueuedCallback) (h : Heap Cell) :
    (∀ calls, handlerCalls callbacks = some calls →
      ∃ h', (callJavaPropertiesUpdate callbacks).run h = .ok (calls, h') ∧
        h.Leaves h' (2 * (callbacks.map fun c => c.updateVec.length).sum)) ∧
    (handlerCalls callbacks = none →
      ∃ e, (callJavaPropertiesUpdate callbacks).run h = .error e) := by
  refine ⟨fun calls hcalls => ?_, fun hnone => (callJavaPropertiesUpdate_fails hnone).run h⟩
  obtain ⟨r, h', m', hrun, hleaves, rfl, k, rfl, hk⟩ :=
    (callJavaPropertiesUpdate_triple hcalls).run h
  refine ⟨h', hrun, ?_⟩
  rw [← hk]
  simpa using hleaves

/-- Two updates that are handed over. -/
def switched : List QueuedCallback := [⟨4, [(0, [49]), (2, [])]⟩]

/-- They leave four references. A byte that is no UTF-8 fails, after them as well. -/
theorem callJavaPropertiesUpdate_run_switched :
    (∃ h', (callJavaPropertiesUpdate switched).run {} =
        .ok ([(4, [⟨0, some [49]⟩, ⟨2, some []⟩])], h') ∧ ({} : Heap Cell).Leaves h' 4) ∧
      ∃ e, (callJavaPropertiesUpdate (switched ++ [⟨0, [(1, [255])]⟩])).run {} = .error e :=
  ⟨(callJavaPropertiesUpdate_run switched {}).1 _ rfl,
    (callJavaPropertiesUpdate_run _ {}).2 rfl⟩

end LocalRefs

end Sacs
