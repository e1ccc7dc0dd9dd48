import Mathlib.Tactic.Abel
import Sacs.Lib.Heap
import Sacs.Marshalling

/-!
# The arrays behind the C interface

The class `SacsWrapper` makes the arrays it hands to the functions of the library, and the
module manager those it hands to a callback. Here these functions are programs on a heap of
arrays, with their loops as in the code: they read a string by looking for its NUL character,
and write and delete an array by its elements.

* Whatever the lengths of the lists, no array is used that is deleted, no element that an
  array does not have or that is not assigned, and the module manager, or the callback of the
  Java classes, gets what it gets when the arrays are lists (`registerModule_triple`,
  `updateProperties_triple`, `internalCallback_triple`).
* All arrays are deleted, unless `UpdateProperties` of the module manager throws, which it
  does on the thread that calls it when the values cannot be announced. Then all those of the
  call remain (`calls_run`).
-/

namespace Sacs

namespace Memory

open Heap JsonMsg

/-- The elements of the arrays. -/
inductive Cell
  | int (n : Int32)
  | char (c : UInt8)
  | ptr (a : ℕ)
  deriving DecidableEq

/-! ## Reading -/

def readInt (a i : ℕ) : Prog Cell Int32 := do
  match ← read a i with
  | .int n => return n
  | _ => fail .type

def readChar (a i : ℕ) : Prog Cell UInt8 := do
  match ← read a i with
  | .char c => return c
  | _ => fail .type

def readPtr (a i : ℕ) : Prog Cell ℕ := do
  match ← read a i with
  | .ptr b => return b
  | _ => fail .type

/-- `delete[] a[i]`. -/
def deletePtr (a i : ℕ) : Prog Cell Unit := do
  delete (← readPtr a i)

/-- The characters up to the first NUL character. -/
def scan : List (Option Cell) → Except Heap.Fault Str
  | [] => .error .outOfBounds
  | none :: _ => .error .unassigned
  | some (.char c) :: cells => if c = 0 then .ok [] else (c :: ·) <$> scan cells
  | some _ :: _ => .error .type

/-- A `std::string` made of a `const char*`. -/
def readString (a : ℕ) : Prog Cell Str := do
  match scan (← cells a) with
  | .ok s => return s
  | .error e => fail e

/-! ## The library -/

namespace SacsLib

/-- The body of the loop of `register_module`. -/
def readProperty (propertTypes propertiesNames propertiesDefaults propertiesReadOnly i : ℕ) :
    Prog Cell Property := do
  let type ← readInt propertTypes i
  let name ← readString (← readPtr propertiesNames i)
  let value ← readString (← readPtr propertiesDefaults i)
  let readOnly ← readChar propertiesReadOnly i
  return { type, name, value, readOnly := readOnly ≠ 0 }

/-- `register_module`, up to the call of the module manager. -/
def registerModule (moduleName : Str) (propertiesCount : Int32)
    (propertTypes propertiesNames propertiesDefaults propertiesReadOnly : ℕ)
    (callback : Option Callback) : Prog Cell Action := do
  let vecProps ← mapRange (readProperty propertTypes propertiesNames propertiesDefaults
    propertiesReadOnly) propertiesCount.toInt.toNat
  return .registerModule moduleName.cString vecProps callback

/-- The body of the loop of `update_properties`. -/
def readUpdate (propertyIds propertiesValues i : ℕ) : Prog Cell (Int32 × Str) := do
  let id ← readInt propertyIds i
  let value ← readString (← readPtr propertiesValues i)
  return (id, value)

/-- `update_properties`, up to the call of the module manager. -/
def updateProperties (propertiesCount : Int32) (propertyIds propertiesValues : ℕ) :
    Prog Cell Updates :=
  mapRange (readUpdate propertyIds propertiesValues) propertiesCount.toInt.toNat

end SacsLib

/-! ## The wrapper -/

/-- The `strcpy` of the characters of a string. -/
def strcpy (a : ℕ) (str : Str) : Prog Cell Unit := writeAll a 0 ((Sacs.strcpy str).map .char)

namespace SacsWrapper

def strToChrA (str : Str) : Prog Cell ℕ := do
  if str ≠ [] then
    let res ← new (str.length + 1)
    strcpy res str
    return res
  else
    let res ← new 1
    write res 0 (.char 0)
    return res

/-- The body of the loop that fills the arrays. -/
def writeProperty (properties : List ModuleProperty) (types names vals readOnly i : ℕ) :
    Prog Cell Unit := do
  let p ← elem properties i
  write types i (.int p.type.toInt)
  write names i (.ptr (← strToChrA p.name))
  write vals i (.ptr (← strToChrA p.defaultValue))
  write readOnly i (.char (if SacsWrapper.isPropertyTypeForReadOnly p.type then 1 else 0))

/-- The body of the loop that deletes the strings. -/
def deleteProperty (names vals i : ℕ) : Prog Cell Unit := do
  deletePtr names i
  deletePtr vals i

def registerModule (name : Str) (properties : List ModuleProperty) (callback : Option Callback) :
    Prog Cell Action := do
  let propsNo := Int32.ofInt properties.length
  let types ← new properties.length
  let names ← new properties.length
  let vals ← new properties.length
  let readOnly ← new properties.length
  forRange (writeProperty properties types names vals readOnly) propsNo.toInt.toNat
  let res ← SacsLib.registerModule (name ++ [0]) propsNo types names vals readOnly callback
  delete types
  delete readOnly
  forRange (deleteProperty names vals) propsNo.toInt.toNat
  delete names
  delete vals
  return res

/-- The body of the loop that fills the arrays. -/
def writeUpdate (properties : Updates) (ids values i : ℕ) : Prog Cell Unit := do
  let p ← elem properties i
  write ids i (.int p.1)
  let value ← new (p.2.length + 1)
  write values i (.ptr value)
  strcpy value p.2

/-- The arrays remain if the module manager throws. -/
def updateProperties (moduleId : Int32) (properties : Updates) : Prog Cell Action := do
  let propsNo := Int32.ofInt properties.length
  let ids ← new properties.length
  let values ← new properties.length
  forRange (writeUpdate properties ids values) propsNo.toInt.toNat
  let ps ← SacsLib.updateProperties propsNo ids values
  match createPropertyUpdated moduleId ps with
  | .error _ => return .updateProperties moduleId ps
  | .ok _ =>
    delete ids
    forRange (deletePtr values) propsNo.toInt.toNat
    delete values
    return .updateProperties moduleId ps

end SacsWrapper

/-! ## The module manager -/

/-- The body of the loop that fills the arrays. -/
def copyUpdate (properties : Updates) (propIds propVals i : ℕ) : Prog Cell Unit := do
  let p ← elem properties i
  write propIds i (.int p.1)
  if p.2 ≠ [] then
    let str ← new (p.2.length + 1)
    write str p.2.length (.char 0)
    writeAll str 0 (p.2.map .char)
    write propVals i (.ptr str)
  else
    let str ← new 1
    write str 0 (.char 0)
    write propVals i (.ptr str)

/-- The end of `PassPropertyUpdateToModule`, which calls the callback with the arrays. -/
def passPropertyUpdateToModule {α : Type} (callback : Int32 → ℕ → ℕ → Prog Cell α)
    (properties : Updates) : Prog Cell α := do
  let propIds ← new properties.length
  let propVals ← new properties.length
  forRange (copyUpdate properties propIds propVals) properties.length
  let res ← callback (Int32.ofInt properties.length) propIds propVals
  delete propIds
  forRange (deletePtr propVals) properties.length
  delete propVals
  return res

/-- The callback of the Java classes, up to the call of `_collector.Add`. -/
def internalCallback (count : Int32) (propertyNo propertyVal : ℕ) : Prog Cell Updates :=
  SacsLib.updateProperties count propertyNo propertyVal

/-! ## Ownership -/

variable {m k : Multiset (Block Cell)} {a i n : ℕ}

theorem scan_append {t : Str} (h : 0 ∈ t) (rest : List (Option Cell)) :
    scan ((t.map .char).map some ++ rest) = .ok t.cString := by
  induction t with
  | nil => cases h
  | cons c t ih =>
    rw [List.map_cons, List.map_cons, List.cons_append, scan, Str.cString, List.takeWhile_cons]
    split_ifs with hc hc' hc'
    · simp [hc] at hc'
    · rfl
    · rw [ih ((List.mem_cons.1 h).resolve_left (Ne.symm hc))]
      rfl
    · simp [hc] at hc'

/-- An array with the characters `t`, one of which is a NUL character. -/
def chars (t : Str) (n : ℕ) : List (Option Cell) := filled (t.map .char) n

theorem scan_chars {t : Str} (h : 0 ∈ t) (n : ℕ) : scan (chars t n) = .ok t.cString :=
  scan_append h _

/-! ### Triples of the operations -/

theorem readInt_triple {l : List Cell} {z : Int32} (hm : (a, filled l n) ∈ m)
    (hv : l[i]? = some (.int z)) :
    Triple m (readInt a i) fun r m' => r = z ∧ m' = m := by
  refine .bind (.read hm (getElem?_filled hv)) ?_
  rintro _ _ ⟨rfl, rfl⟩
  exact .pure ⟨rfl, rfl⟩

theorem readChar_triple {l : List Cell} {c : UInt8} (hm : (a, filled l n) ∈ m)
    (hv : l[i]? = some (.char c)) :
    Triple m (readChar a i) fun r m' => r = c ∧ m' = m := by
  refine .bind (.read hm (getElem?_filled hv)) ?_
  rintro _ _ ⟨rfl, rfl⟩
  exact .pure ⟨rfl, rfl⟩

theorem readPtr_triple {as : List ℕ} {b : ℕ} (hm : (a, filled (as.map .ptr) n) ∈ m)
    (hb : as[i]? = some b) :
    Triple m (readPtr a i) fun r m' => r = b ∧ m' = m := by
  have hv : (as.map Cell.ptr)[i]? = some (.ptr b) := by rw [List.getElem?_map, hb, Option.map_some]
  refine .bind (.read hm (getElem?_filled hv)) ?_
  rintro _ _ ⟨rfl, rfl⟩
  exact .pure ⟨rfl, rfl⟩

theorem readString_triple {cs : List (Option Cell)} {s : Str} (hm : (a, cs) ∈ m)
    (hs : scan cs = .ok s) :
    Triple m (readString a) fun r m' => r = s ∧ m' = m := by
  refine .bind (.cells hm) ?_
  rintro _ _ ⟨rfl, rfl⟩
  rw [hs]
  exact .pure ⟨rfl, rfl⟩

/-- A pointer of an array of pointers points to its array. -/
theorem readPtr_arrays {p : List ℕ} {css : List (List (Option Cell))} {cs : List (Option Cell)}
    (hm : (a, filled (p.map .ptr) n) ∈ m) (hsub : arrays p css ⊆ m)
    (hlen : p.length = css.length) (hcs : css[i]? = some cs) :
    Triple m (readPtr a i) fun b m' => (b, cs) ∈ m ∧ m' = m := by
  obtain ⟨b, hb⟩ : ∃ b, p[i]? = some b :=
    ⟨_, List.getElem?_eq_getElem (hlen ▸ (List.getElem?_eq_some_iff.1 hcs).1)⟩
  refine (readPtr_triple hm hb).conseq ?_
  rintro _ _ ⟨rfl, rfl⟩
  exact ⟨hsub (mem_arrays hb hcs), rfl⟩

/-- The next array that an array of pointers points to is deleted. -/
theorem deletePtr_triple {p : List ℕ} {css : List (List (Option Cell))}
    (hm : (a, filled (p.map .ptr) n) ∈ m) (hlen : p.length = css.length) (hi : i < p.length)
    (hown : m = arrays (p.drop i) (css.drop i) + k) :
    Triple m (deletePtr a i) fun _ m' =>
      m' = arrays (p.drop (i + 1)) (css.drop (i + 1)) + k := by
  refine .bind (readPtr_triple hm (List.getElem?_eq_getElem hi)) ?_
  rintro _ _ ⟨rfl, rfl⟩
  have hi' : i < css.length := hlen ▸ hi
  refine .delete css[i] _ ?_
  rw [hown, List.drop_eq_getElem_cons hi, List.drop_eq_getElem_cons hi', arrays_cons, add_assoc]

/-! ### Strings -/

theorem strcpy_triple {str : Str}
    (hm : m = {(a, List.replicate (str.length + 1) none)} + k) :
    Triple m (strcpy a str) fun _ m' =>
      m' = {(a, chars (Sacs.strcpy str) (str.length + 1))} + k := by
  have hle : (Sacs.strcpy str).length ≤ str.length + 1 := by
    rw [Sacs.strcpy, List.length_append, List.length_singleton]
    exact Nat.add_le_add_right (List.takeWhile_prefix _).length_le 1
  refine (Triple.writeAll k hm ?_).conseq ?_
  · rwa [List.length_map, List.length_replicate, Nat.zero_add]
  rintro _ _ rfl
  rw [List.take_zero, List.nil_append, Nat.zero_add, List.drop_replicate]
  rfl

/-- A copy of all characters in front of a NUL character. -/
theorem memcpy_triple {str : Str}
    (hm : m = {(a, (List.replicate (str.length + 1) none).set str.length (some (.char 0)))} + k) :
    Triple m (writeAll a 0 (str.map .char)) fun _ m' =>
      m' = {(a, chars (str ++ [0]) (str.length + 1))} + k := by
  have hset : (List.replicate (str.length + 1) (none : Option Cell)).set str.length
      (some (.char 0)) = List.replicate str.length none ++ [some (.char 0)] := by
    rw [List.replicate_succ', List.set_append_right _ _ (by simp)]
    simp
  rw [hset] at hm
  refine (Triple.writeAll k hm ?_).conseq ?_
  · simp
  rintro _ _ rfl
  have hchars : chars (str ++ [0]) (str.length + 1) =
      (str.map Cell.char).map some ++ [some (.char 0)] := by
    simp [chars, filled]
  rw [hchars, List.take_zero, List.nil_append, Nat.zero_add, List.length_map]
  simp

theorem zero_mem_strToChrA (s : Str) : 0 ∈ Sacs.SacsWrapper.strToChrA s := by
  rw [Sacs.SacsWrapper.strToChrA, Sacs.strcpy]
  split_ifs <;> simp

theorem strToChrA_triple (str : Str) :
    Triple m (SacsWrapper.strToChrA str) fun a m' =>
      m' = {(a, chars (Sacs.SacsWrapper.strToChrA str) (str.length + 1))} + m := by
  rw [SacsWrapper.strToChrA, Sacs.SacsWrapper.strToChrA]
  split_ifs with h
  · refine .bind (.new _) fun a m₁ hm₁ => ?_
    refine .bind (strcpy_triple (k := m) hm₁) fun _ m₂ hm₂ => ?_
    exact .pure hm₂
  · rw [not_not.1 h]
    refine .bind (.new _) fun a m₁ hm₁ => ?_
    refine .bind (.write_filled (l := []) (n := 1) m (.char 0) (by rw [hm₁, filled_nil]) rfl
      Nat.one_pos) fun _ m₂ hm₂ => ?_
    exact .pure hm₂

/-! ## Registering -/

/-- The loops visit no element that the list does not have. -/
theorem visited_length {α : Type} (l : List α) :
    (Int32.ofInt l.length).toInt.toNat = (Sacs.SacsWrapper.visited l).length ∧
      (Sacs.SacsWrapper.visited l).length ≤ l.length := by
  have hle : (Int32.ofInt l.length).toInt.toNat ≤ l.length := by
    have := toInt_ofInt_le l.length
    omega
  rw [Sacs.SacsWrapper.visited, List.length_take, min_eq_left hle]
  exact ⟨rfl, hle⟩

theorem take_visited {α : Type} (l : List α) :
    l.take (Sacs.SacsWrapper.visited l).length = Sacs.SacsWrapper.visited l := by
  rw [← (visited_length l).1]
  rfl

/-- The array of `StrToChrA`. -/
def text (s : Str) : List (Option Cell) :=
  chars (Sacs.SacsWrapper.strToChrA s) (s.length + 1)

theorem scan_text (s : Str) : scan (text s) = .ok s.cString := by
  rw [text, scan_chars (zero_mem_strToChrA s), Sacs.SacsWrapper.cString_strToChrA]

def typeCell (p : ModuleProperty) : Cell := .int p.type.toInt

def flagCell (p : ModuleProperty) : Cell :=
  .char (if Sacs.SacsWrapper.isPropertyTypeForReadOnly p.type then 1 else 0)

section Register

variable {t nm vl ro : ℕ} {properties ps : List ModuleProperty} {as bs : List ℕ}

/-- The four arrays of `RegisterModule` with the properties `ps`, and room for `n`. -/
def registerArrays (t nm vl ro n : ℕ) (ps : List ModuleProperty) (as bs : List ℕ) :
    Multiset (Block Cell) :=
  {(t, filled (ps.map typeCell) n)} + {(nm, filled (as.map .ptr) n)} +
    {(vl, filled (bs.map .ptr) n)} + {(ro, filled (ps.map flagCell) n)}

/-- One more property is written. -/
theorem writeProperty_triple {p : ModuleProperty} (hp : properties[i]? = some p)
    (hps : ps.length = i) (has : as.length = i) (hbs : bs.length = i) (hn : i < n) :
    Triple (registerArrays t nm vl ro n ps as bs + k)
      (SacsWrapper.writeProperty properties t nm vl ro i) fun _ m' =>
        ∃ a b, m' = registerArrays t nm vl ro n (ps ++ [p]) (as ++ [a]) (bs ++ [b]) +
          ({(a, text p.name)} + {(b, text p.defaultValue)} + k) := by
  refine .bind (Triple.elem hp) ?_
  rintro p _ ⟨rfl, rfl⟩
  refine .bind (.write_filled ({(nm, filled (as.map .ptr) n)} + {(vl, filled (bs.map .ptr) n)} +
    {(ro, filled (ps.map flagCell) n)} + k) (typeCell p) (by rw [registerArrays]; abel)
    (by rw [List.length_map, hps]) hn) ?_
  rintro _ _ rfl
  refine .bind (strToChrA_triple _) ?_
  rintro a _ rfl
  refine .bind (.write_filled ({(t, filled (ps.map typeCell ++ [typeCell p]) n)} +
    {(vl, filled (bs.map .ptr) n)} + {(ro, filled (ps.map flagCell) n)} +
    ({(a, text p.name)} + k)) (.ptr a) (l := as.map .ptr) (n := n) (by rw [text]; abel)
    (by rw [List.length_map, has]) hn) ?_
  rintro _ _ rfl
  refine .bind (strToChrA_triple _) ?_
  rintro b _ rfl
  refine .bind (.write_filled ({(t, filled (ps.map typeCell ++ [typeCell p]) n)} +
    {(nm, filled (as.map .ptr ++ [.ptr a]) n)} + {(ro, filled (ps.map flagCell) n)} +
    ({(a, text p.name)} + {(b, text p.defaultValue)} + k)) (.ptr b) (l := bs.map .ptr) (n := n)
    (by simp only [text]; abel) (by rw [List.length_map, hbs]) hn) ?_
  rintro _ _ rfl
  refine (Triple.write_filled ({(t, filled (ps.map typeCell ++ [typeCell p]) n)} +
    {(nm, filled (as.map .ptr ++ [.ptr a]) n)} + {(vl, filled (bs.map .ptr ++ [.ptr b]) n)} +
    ({(a, text p.name)} + {(b, text p.defaultValue)} + k)) (flagCell p) (l := ps.map flagCell)
    (n := n) (by abel) (by rw [List.length_map, hps]) hn).conseq ?_
  rintro _ _ rfl
  refine ⟨a, b, ?_⟩
  rw [registerArrays, List.map_append, List.map_append, List.map_append, List.map_append]
  simp only [List.map_cons, List.map_nil]
  abel

/-- The strings of the properties `ps`. -/
def registerStrings (ps : List ModuleProperty) (as bs : List ℕ) : Multiset (Block Cell) :=
  arrays as (ps.map fun p => text p.name) + arrays bs (ps.map fun p => text p.defaultValue)

/-- The loop that fills the arrays. -/
theorem forRange_writeProperty {c : ℕ} (hc : c ≤ properties.length) :
    Triple (registerArrays t nm vl ro properties.length [] [] [] + k)
      (forRange (SacsWrapper.writeProperty properties t nm vl ro) c) fun _ m' =>
        ∃ as bs, as.length = c ∧ bs.length = c ∧
          m' = registerArrays t nm vl ro properties.length (properties.take c) as bs +
            (registerStrings (properties.take c) as bs + k) := by
  refine .forRange (I := fun i m' => ∃ as bs, as.length = i ∧ bs.length = i ∧
    m' = registerArrays t nm vl ro properties.length (properties.take i) as bs +
      (registerStrings (properties.take i) as bs + k)) ?_ ?_
  · refine ⟨[], [], rfl, rfl, ?_⟩
    rw [List.take_zero, registerStrings, arrays_nil, arrays_nil, zero_add, zero_add]
  rintro i hi _ ⟨as, bs, has, hbs, rfl⟩
  have hlt : i < properties.length := hi.trans_le hc
  have hp : properties[i]? = some properties[i] := List.getElem?_eq_getElem hlt
  have htake : (properties.take i).length = i := by rw [List.length_take, min_eq_left hlt.le]
  refine (writeProperty_triple hp htake has hbs hlt).conseq ?_
  rintro _ _ ⟨a, b, rfl⟩
  refine ⟨as ++ [a], bs ++ [b], by rw [List.length_append, has]; rfl,
    by rw [List.length_append, hbs]; rfl, ?_⟩
  rw [List.take_add_one, hp, Option.toList_some, registerStrings, registerStrings, List.map_append,
    List.map_append, List.map_singleton, List.map_singleton,
    arrays_concat (by rw [has, List.length_map, htake]),
    arrays_concat (by rw [hbs, List.length_map, htake])]
  abel

/-- What `register_module` reads in the arrays. -/
theorem readProperty_triple {p : ModuleProperty} (has : as.length = ps.length)
    (hbs : bs.length = ps.length) (hp : ps[i]? = some p)
    (hm : m = registerArrays t nm vl ro n ps as bs + (registerStrings ps as bs + k)) :
    Triple m (SacsLib.readProperty t nm vl ro i) fun r m' =>
      r = Sacs.SacsWrapper.toProperty p ∧ m' = m := by
  have hcell : ∀ {α : Type} (f : ModuleProperty → α), (ps.map f)[i]? = some (f p) := fun f => by
    rw [List.getElem?_map, hp, Option.map_some]
  refine .bind (readInt_triple (l := ps.map typeCell) (n := n) (by simp [hm, registerArrays])
    (hcell typeCell)) ?_
  rintro type _ ⟨rfl, rfl⟩
  refine .bind (readPtr_arrays (p := as) (n := n) (by simp [hm, registerArrays])
    (fun e he => by simp [hm, registerStrings, he]) (by rw [has, List.length_map])
    (hcell fun p => text p.name)) ?_
  rintro a _ ⟨ha, rfl⟩
  refine .bind (readString_triple ha (scan_text _)) ?_
  rintro name _ ⟨rfl, rfl⟩
  refine .bind (readPtr_arrays (p := bs) (n := n) (by simp [hm, registerArrays])
    (fun e he => by simp [hm, registerStrings, he]) (by rw [hbs, List.length_map])
    (hcell fun p => text p.defaultValue)) ?_
  rintro b _ ⟨hb, rfl⟩
  refine .bind (readString_triple hb (scan_text _)) ?_
  rintro value _ ⟨rfl, rfl⟩
  refine .bind (readChar_triple (l := ps.map flagCell) (n := n) (by simp [hm, registerArrays])
    (hcell flagCell)) ?_
  rintro readOnly _ ⟨rfl, rfl⟩
  refine .pure ⟨?_, rfl⟩
  rw [Sacs.SacsWrapper.toProperty]
  cases Sacs.SacsWrapper.isPropertyTypeForReadOnly p.type <;> rfl

theorem registerModule_sacsLib (name : Str) (callback : Option Callback) {c : Int32}
    (has : as.length = ps.length) (hbs : bs.length = ps.length) (hc : c.toInt.toNat = ps.length)
    (hm : m = registerArrays t nm vl ro n ps as bs + (registerStrings ps as bs + k)) :
    Triple m (SacsLib.registerModule name c t nm vl ro callback) fun r m' =>
      r = .registerModule name.cString (ps.map Sacs.SacsWrapper.toProperty) callback ∧
        m' = m := by
  rw [SacsLib.registerModule, hc, ← @List.length_map _ _ ps Sacs.SacsWrapper.toProperty]
  refine .bind (.mapRange fun i r hr => ?_) ?_
  · rw [List.getElem?_map, Option.map_eq_some_iff] at hr
    obtain ⟨p, hp, rfl⟩ := hr
    exact readProperty_triple has hbs hp hm
  · rintro _ _ ⟨rfl, rfl⟩
    exact .pure ⟨rfl, rfl⟩

/-- The loop that deletes the strings. -/
theorem forRange_deleteProperty (has : as.length = ps.length) (hbs : bs.length = ps.length)
    (hnm : (nm, filled (as.map .ptr) n) ∈ k) (hvl : (vl, filled (bs.map .ptr) n) ∈ k) :
    Triple (registerStrings ps as bs + k)
      (forRange (SacsWrapper.deleteProperty nm vl) ps.length) fun _ m' => m' = k := by
  have hloop : Triple (registerStrings ps as bs + k)
      (forRange (SacsWrapper.deleteProperty nm vl) ps.length) fun _ m' =>
        m' = arrays (as.drop ps.length) ((ps.map fun p => text p.name).drop ps.length) +
          (arrays (bs.drop ps.length) ((ps.map fun p => text p.defaultValue).drop ps.length) +
            k) := by
    refine .forRange (I := fun i m' =>
      m' = arrays (as.drop i) ((ps.map fun p => text p.name).drop i) +
        (arrays (bs.drop i) ((ps.map fun p => text p.defaultValue).drop i) + k)) ?_ ?_
    · rw [List.drop_zero, List.drop_zero, List.drop_zero, List.drop_zero, registerStrings,
        add_assoc]
    rintro i hi _ rfl
    refine .bind (deletePtr_triple (p := as) (n := n) (by simp [hnm])
      (by rw [has, List.length_map]) (has ▸ hi) rfl) ?_
    rintro _ _ rfl
    refine (deletePtr_triple (p := bs) (n := n) (by simp [hvl])
      (by rw [hbs, List.length_map]) (hbs ▸ hi) (add_left_comm ..)).conseq ?_
    rintro _ _ rfl
    exact add_left_comm ..
  have hnil : ∀ {l : List ℕ}, l.length = ps.length → l.drop ps.length = [] := fun h => by
    rw [← h, List.drop_length]
  rwa [hnil has, hnil hbs, arrays_nil, arrays_nil, zero_add, zero_add] at hloop

/-- What the wrapper calls the module manager with; and it deletes all its arrays. -/
theorem registerModule_triple (name : Str) (callback : Option Callback) :
    Triple m (SacsWrapper.registerModule name properties callback) fun r m' =>
      r = .registerModule name.cString
        ((Sacs.SacsWrapper.visited properties).map Sacs.SacsWrapper.toProperty) callback ∧
      m' = m := by
  obtain ⟨hcount, hle⟩ := visited_length properties
  refine .bind (.new _) ?_
  rintro t _ rfl
  refine .bind (.new _) ?_
  rintro nm _ rfl
  refine .bind (.new _) ?_
  rintro vl _ rfl
  refine .bind (.new _) ?_
  rintro ro _ rfl
  rw [hcount]
  refine .bind (.of_eq (k := registerArrays t nm vl ro properties.length [] [] [] + m) ?_
    (forRange_writeProperty hle)) ?_
  · simp only [registerArrays, List.map_nil, filled_nil]
    abel
  rintro _ _ ⟨as, bs, has, hbs, rfl⟩
  rw [take_visited]
  refine .bind (registerModule_sacsLib (name ++ [0]) callback has hbs hcount rfl) ?_
  rintro r _ ⟨rfl, rfl⟩
  set ps := Sacs.SacsWrapper.visited properties
  refine .bind (.delete (filled (ps.map typeCell) properties.length)
    ({(nm, filled (as.map .ptr) properties.length)} +
      {(vl, filled (bs.map .ptr) properties.length)} +
      {(ro, filled (ps.map flagCell) properties.length)} + (registerStrings ps as bs + m))
    (by rw [registerArrays]; abel)) ?_
  rintro _ _ rfl
  refine .bind (.delete (filled (ps.map flagCell) properties.length)
    (registerStrings ps as bs + ({(nm, filled (as.map .ptr) properties.length)} +
      {(vl, filled (bs.map .ptr) properties.length)} + m)) (by abel)) ?_
  rintro _ _ rfl
  refine .bind (forRange_deleteProperty has hbs (n := properties.length) (by simp) (by simp)) ?_
  rintro _ _ rfl
  refine .bind (.delete (filled (as.map .ptr) properties.length)
    ({(vl, filled (bs.map .ptr) properties.length)} + m) (by abel)) ?_
  rintro _ _ rfl
  refine .bind (.delete (filled (bs.map .ptr) properties.length) m rfl) ?_
  rintro _ _ rfl
  refine .pure ⟨?_, rfl⟩
  rw [Sacs.SacsWrapper.cString_append_zero]

end Register

/-! ## Updating -/

section Update

variable {ids values : ℕ} {properties ps : Updates} {as : List ℕ}

/-- The two arrays of `UpdateProperties` with the updates `ps`, and room for `n`. -/
def updateArrays (ids values n : ℕ) (ps : Updates) (as : List ℕ) : Multiset (Block Cell) :=
  {(ids, filled (ps.map fun p => .int p.1) n)} + {(values, filled (as.map .ptr) n)}

/-- The arrays of their values. -/
def updateStrings (f : Str → List (Option Cell)) (ps : Updates) (as : List ℕ) :
    Multiset (Block Cell) :=
  arrays as (ps.map fun p => f p.2)

theorem updateArrays_concat (p : Int32 × Str) (a : ℕ) :
    updateArrays ids values n (ps ++ [p]) (as ++ [a]) =
      {(ids, filled ((ps.map fun p => .int p.1) ++ [.int p.1]) n)} +
        {(values, filled (as.map .ptr ++ [.ptr a]) n)} := by
  rw [updateArrays, List.map_append, List.map_append]
  rfl

/-- One more update is written by the wrapper. -/
theorem writeUpdate_triple {p : Int32 × Str} (hp : properties[i]? = some p) (hps : ps.length = i)
    (has : as.length = i) (hn : i < n) :
    Triple (updateArrays ids values n ps as + k) (SacsWrapper.writeUpdate properties ids values i)
      fun _ m' => ∃ a, m' = updateArrays ids values n (ps ++ [p]) (as ++ [a]) +
        ({(a, chars (Sacs.strcpy p.2) (p.2.length + 1))} + k) := by
  refine .bind (Triple.elem hp) ?_
  rintro p _ ⟨rfl, rfl⟩
  refine .bind (.write_filled ({(values, filled (as.map .ptr) n)} + k) (.int p.1)
    (by rw [updateArrays]; abel) (by rw [List.length_map, hps]) hn) ?_
  rintro _ _ rfl
  refine .bind (.new _) ?_
  rintro a _ rfl
  refine .bind (.write_filled ({(ids, filled ((ps.map fun p => .int p.1) ++ [.int p.1]) n)} +
    ({(a, List.replicate (p.2.length + 1) none)} + k)) (.ptr a) (l := as.map .ptr) (n := n)
    (by abel) (by rw [List.length_map, has]) hn) ?_
  rintro _ _ rfl
  refine (strcpy_triple (k := updateArrays ids values n (ps ++ [p]) (as ++ [a]) + k)
    (by rw [updateArrays_concat]; abel)).conseq ?_
  rintro _ _ rfl
  exact ⟨a, add_left_comm ..⟩

/-- One more update is written by the module manager. -/
theorem copyUpdate_triple {p : Int32 × Str} (hp : properties[i]? = some p) (hps : ps.length = i)
    (has : as.length = i) (hn : i < n) :
    Triple (updateArrays ids values n ps as + k) (copyUpdate properties ids values i)
      fun _ m' => ∃ a, m' = updateArrays ids values n (ps ++ [p]) (as ++ [a]) +
        ({(a, chars (p.2 ++ [0]) (p.2.length + 1))} + k) := by
  refine .bind (Triple.elem hp) ?_
  rintro p _ ⟨rfl, rfl⟩
  refine .bind (.write_filled ({(values, filled (as.map .ptr) n)} + k) (.int p.1)
    (by rw [updateArrays]; abel) (by rw [List.length_map, hps]) hn) ?_
  rintro _ _ rfl
  -- In both branches, the pointer is written last.
  have hlast : ∀ a, Triple ({(ids, filled ((ps.map fun p => .int p.1) ++ [.int p.1]) n)} +
      {(values, filled (as.map .ptr) n)} + ({(a, chars (p.2 ++ [0]) (p.2.length + 1))} + k))
      (write values i (Cell.ptr a)) fun _ m' =>
        ∃ a, m' = updateArrays ids values n (ps ++ [p]) (as ++ [a]) +
          ({(a, chars (p.2 ++ [0]) (p.2.length + 1))} + k) := by
    intro a
    refine .conseq (.write_filled ({(ids, filled ((ps.map fun p => .int p.1) ++ [.int p.1]) n)} +
      ({(a, chars (p.2 ++ [0]) (p.2.length + 1))} + k)) (.ptr a) (l := as.map .ptr) (n := n)
      (by abel) (by rw [List.length_map, has]) hn) ?_
    rintro _ _ rfl
    refine ⟨a, ?_⟩
    rw [updateArrays_concat]
    abel
  split_ifs with hne
  · refine .bind (.new _) ?_
    rintro a _ rfl
    refine .bind (.write _ (Cell.char 0) rfl (by simp)) ?_
    rintro _ _ rfl
    refine .bind (memcpy_triple rfl) ?_
    rintro _ _ rfl
    exact .of_eq (by abel) (hlast a)
  · rw [not_not.1 hne] at hlast ⊢
    refine .bind (.new _) ?_
    rintro a _ rfl
    refine .bind (.write _ (Cell.char 0) rfl Nat.one_pos) ?_
    rintro _ _ rfl
    have hnul : (List.replicate 1 none).set 0 (some (Cell.char 0)) =
        chars ([] ++ [0]) (List.length ([] : Str) + 1) := rfl
    rw [hnul]
    exact .of_eq (by abel) (hlast a)

/-- The loop that fills the arrays. -/
theorem forRange_concat {body : ℕ → Prog Cell Unit} {f : Str → List (Option Cell)} {c : ℕ}
    (hbody : ∀ {i ps as p k}, properties[i]? = some p → ps.length = i → as.length = i →
      i < properties.length → Triple (updateArrays ids values properties.length ps as + k) (body i)
        fun _ m' => ∃ a, m' = updateArrays ids values properties.length (ps ++ [p]) (as ++ [a]) +
          ({(a, f p.2)} + k))
    (hc : c ≤ properties.length) :
    Triple (updateArrays ids values properties.length [] [] + k) (forRange body c) fun _ m' =>
      ∃ as, as.length = c ∧
        m' = updateArrays ids values properties.length (properties.take c) as +
          (updateStrings f (properties.take c) as + k) := by
  refine .forRange (I := fun i m' => ∃ as, as.length = i ∧
    m' = updateArrays ids values properties.length (properties.take i) as +
      (updateStrings f (properties.take i) as + k)) ?_ ?_
  · refine ⟨[], rfl, ?_⟩
    rw [List.take_zero, updateStrings, arrays_nil, zero_add]
  rintro i hi _ ⟨as, has, rfl⟩
  have hlt : i < properties.length := hi.trans_le hc
  have hp : properties[i]? = some properties[i] := List.getElem?_eq_getElem hlt
  have htake : (properties.take i).length = i := by rw [List.length_take, min_eq_left hlt.le]
  refine (hbody hp htake has hlt).conseq ?_
  rintro _ _ ⟨a, rfl⟩
  refine ⟨as ++ [a], by rw [List.length_append, has]; rfl, ?_⟩
  rw [List.take_add_one, hp, Option.toList_some, updateStrings, updateStrings, List.map_append,
    List.map_singleton, arrays_concat (by rw [has, List.length_map, htake]), add_assoc]

/-- What `update_properties` reads in the arrays. -/
theorem updateProperties_sacsLib {f : Str → List (Option Cell)} {c : Int32}
    (hf : ∀ s, scan (f s) = .ok s.cString) (has : as.length = ps.length)
    (hc : c.toInt.toNat ≤ ps.length)
    (hm : m = updateArrays ids values n ps as + (updateStrings f ps as + k)) :
    Triple m (SacsLib.updateProperties c ids values) fun r m' =>
      r = (ps.take c.toInt.toNat).map (fun u => (u.1, u.2.cString)) ∧ m' = m := by
  have hlen : ((ps.take c.toInt.toNat).map fun u => (u.1, u.2.cString)).length =
      c.toInt.toNat := by
    rw [List.length_map, List.length_take, min_eq_left hc]
  have hread : ∀ i r, ((ps.take c.toInt.toNat).map fun u => (u.1, u.2.cString))[i]? = some r →
      Triple m (SacsLib.readUpdate ids values i) fun r' m' => r' = r ∧ m' = m := by
    intro i r hr
    rw [List.getElem?_map, Option.map_eq_some_iff] at hr
    obtain ⟨p, hp, rfl⟩ := hr
    have hp : ps[i]? = some p := by
      rw [List.getElem?_take] at hp
      split_ifs at hp
      exact hp
    have hcell : ∀ {α : Type} (f : Int32 × Str → α), (ps.map f)[i]? = some (f p) := fun f => by
      rw [List.getElem?_map, hp, Option.map_some]
    refine .bind (readInt_triple (l := ps.map fun p => .int p.1) (n := n)
      (by simp [hm, updateArrays]) (hcell fun p => Cell.int p.1)) ?_
    rintro id _ ⟨rfl, rfl⟩
    refine .bind (readPtr_arrays (p := as) (n := n) (by simp [hm, updateArrays])
      (fun e he => by simp [hm, updateStrings, he]) (by rw [has, List.length_map])
      (hcell fun p => f p.2)) ?_
    rintro a _ ⟨ha, rfl⟩
    refine .bind (readString_triple ha (hf _)) ?_
    rintro value _ ⟨rfl, rfl⟩
    exact .pure ⟨rfl, rfl⟩
  have hrange := Triple.mapRange hread
  rwa [hlen] at hrange

/-- The loop that deletes the values. -/
theorem forRange_deletePtr {css : List (List (Option Cell))} (hlen : as.length = css.length)
    (hm : (values, filled (as.map .ptr) n) ∈ k) :
    Triple (arrays as css + k) (forRange (deletePtr values) as.length) fun _ m' => m' = k := by
  have hloop : Triple (arrays as css + k) (forRange (deletePtr values) as.length) fun _ m' =>
      m' = arrays (as.drop as.length) (css.drop as.length) + k := by
    refine .forRange (I := fun i m' => m' = arrays (as.drop i) (css.drop i) + k) ?_ ?_
    · rw [List.drop_zero, List.drop_zero]
    rintro i hi _ rfl
    exact deletePtr_triple (n := n) (Multiset.mem_add.2 (.inr hm)) hlen hi rfl
  rwa [List.drop_length, arrays_nil, zero_add] at hloop

/-- The updates with their values as C strings. -/
def cStrings (ps : Updates) : Updates := ps.map fun u => (u.1, u.2.cString)

/-- What the wrapper calls the module manager with. Its arrays remain if the module
    manager throws. -/
theorem updateProperties_triple (moduleId : Int32) (properties : Updates) :
    Triple m (SacsWrapper.updateProperties moduleId properties) fun r m' =>
      r = .updateProperties moduleId (cStrings (Sacs.SacsWrapper.visited properties)) ∧
      ∃ k, m' = k + m ∧ k.card =
        if Announceable (cStrings (Sacs.SacsWrapper.visited properties)) then 0
        else (Sacs.SacsWrapper.visited properties).length + 2 := by
  obtain ⟨hcount, hle⟩ := visited_length properties
  refine .bind (.new _) ?_
  rintro ids _ rfl
  refine .bind (.new _) ?_
  rintro values _ rfl
  rw [hcount]
  have hf : ∀ s : Str, scan (chars (Sacs.strcpy s) (s.length + 1)) = .ok s.cString := fun s => by
    rw [scan_chars (by simp [Sacs.strcpy]), Sacs.SacsWrapper.cString_strcpy]
  refine .bind (.of_eq (k := updateArrays ids values properties.length [] [] + m) ?_
    (forRange_concat (f := fun s => chars (Sacs.strcpy s) (s.length + 1)) writeUpdate_triple
      hle)) ?_
  · simp only [updateArrays, List.map_nil, filled_nil]
    abel
  rintro _ _ ⟨as, has, rfl⟩
  rw [take_visited]
  refine .bind (updateProperties_sacsLib hf has hcount.le rfl) ?_
  rintro r _ ⟨rfl, rfl⟩
  rw [hcount, List.take_length]
  set ps := Sacs.SacsWrapper.visited properties
  change Triple _ (match createPropertyUpdated moduleId (cStrings ps) with
    | .error _ => _
    | .ok _ => _) _
  by_cases hps : Announceable (cStrings ps)
  · obtain ⟨msg, hmsg⟩ : ∃ msg, createPropertyUpdated moduleId (cStrings ps) = .ok msg :=
      createPropertyUpdated_eq_ok_iff.2 hps
    rw [hmsg]
    refine .bind (.delete (filled (ps.map fun p => .int p.1) properties.length)
      (arrays as (ps.map fun p => chars (Sacs.strcpy p.2) (p.2.length + 1)) +
        ({(values, filled (as.map .ptr) properties.length)} + m))
      (by rw [updateArrays, updateStrings]; abel)) ?_
    rintro _ _ rfl
    rw [← has]
    refine .bind (forRange_deletePtr (n := properties.length) (by rw [has, List.length_map])
      (by simp)) ?_
    rintro _ _ rfl
    refine .bind (.delete (filled (as.map .ptr) properties.length) m rfl) fun _ m' hm' => ?_
    refine .pure ⟨rfl, 0, hm'.trans (zero_add m).symm, ?_⟩
    rw [if_pos hps, Multiset.card_zero]
  · cases hmsg : createPropertyUpdated moduleId (cStrings ps) with
    | ok msg => exact absurd (createPropertyUpdated_eq_ok_iff.1 ⟨msg, hmsg⟩) hps
    | error e =>
      refine .pure ⟨rfl, _, (add_assoc ..).symm, ?_⟩
      rw [if_neg hps, updateArrays, updateStrings, arrays]
      simp [has]

/-- A callback that leaves the arrays as they are is called with the updates, which can be
    read there, and the arrays are deleted. -/
theorem passPropertyUpdateToModule_triple {α : Type} {callback : Int32 → ℕ → ℕ → Prog Cell α}
    {Q : α → Multiset (Block Cell) → Prop} (properties : Updates)
    (hcallback : ∀ ids values as, as.length = properties.length →
      Triple (updateArrays ids values properties.length properties as +
        (updateStrings (fun s => chars (s ++ [0]) (s.length + 1)) properties as + m))
        (callback (Int32.ofInt properties.length) ids values) fun r m' => ∃ k, Q r k ∧
          m' = updateArrays ids values properties.length properties as +
            (updateStrings (fun s => chars (s ++ [0]) (s.length + 1)) properties as + k)) :
    Triple m (passPropertyUpdateToModule callback properties) Q := by
  refine .bind (.new _) ?_
  rintro ids _ rfl
  refine .bind (.new _) ?_
  rintro values _ rfl
  refine .bind (.of_eq (k := updateArrays ids values properties.length [] [] + m) ?_
    (forRange_concat (f := fun s => chars (s ++ [0]) (s.length + 1)) copyUpdate_triple
      le_rfl)) ?_
  · simp only [updateArrays, List.map_nil, filled_nil]
    abel
  rintro _ _ ⟨as, has, rfl⟩
  rw [List.take_length]
  refine .bind (hcallback ids values as has) ?_
  rintro r _ ⟨k, hQ, rfl⟩
  refine .bind (.delete (filled (properties.map fun p => .int p.1) properties.length)
    (arrays as (properties.map fun p => chars (p.2 ++ [0]) (p.2.length + 1)) +
      ({(values, filled (as.map .ptr) properties.length)} + k))
    (by rw [updateArrays, updateStrings]; abel)) ?_
  rintro _ _ rfl
  have hloop : Triple (arrays as (properties.map fun p => chars (p.2 ++ [0]) (p.2.length + 1)) +
      ({(values, filled (as.map .ptr) properties.length)} + k))
      (forRange (deletePtr values) as.length)
      fun _ m' => m' = {(values, filled (as.map .ptr) properties.length)} + k :=
    forRange_deletePtr (n := properties.length) (by rw [has, List.length_map]) (by simp)
  rw [has] at hloop
  refine .bind hloop ?_
  rintro _ _ rfl
  refine .bind (.delete (filled (as.map .ptr) properties.length) k rfl) ?_
  rintro _ _ rfl
  exact .pure hQ

/-- The callback of the Java classes collects the updates, with their values as C strings. -/
theorem internalCallback_triple (properties : Updates) :
    Triple m (passPropertyUpdateToModule internalCallback properties) fun r m' =>
      r = cStrings (Sacs.SacsWrapper.visited properties) ∧ m' = m := by
  obtain ⟨hcount, hle⟩ := visited_length properties
  have hf : ∀ s : Str, scan (chars (s ++ [0]) (s.length + 1)) = .ok s.cString := fun s => by
    rw [scan_chars (by simp), Sacs.SacsWrapper.cString_append_zero]
  refine passPropertyUpdateToModule_triple properties fun ids values as has => ?_
  refine (updateProperties_sacsLib hf has (hcount ▸ hle) rfl).conseq ?_
  rintro r _ ⟨rfl, rfl⟩
  exact ⟨m, ⟨rfl, rfl⟩, rfl⟩

end Update

/-! ## Calls -/

/-- The uses of the arrays. -/
inductive Call
  | registerModule (name : Str) (properties : List ModuleProperty) (callback : Option Callback)
  | updateProperties (moduleId : Int32) (properties : Updates)
  /-- The module manager calls the callback of the Java classes. -/
  | internalCallback (properties : Updates)

/-- What the module manager is called with, or what the callback collects. -/
inductive Result
  | called (action : Action)
  | collected (properties : Updates)

namespace Call

def run : Call → Prog Cell Result
  | registerModule name properties callback =>
    .called <$> SacsWrapper.registerModule name properties callback
  | updateProperties moduleId properties =>
    .called <$> SacsWrapper.updateProperties moduleId properties
  | internalCallback properties =>
    .collected <$> passPropertyUpdateToModule Memory.internalCallback properties

/-- The result if the arrays are lists. -/
def result? : Call → Option Result
  | registerModule name properties callback =>
    (Sacs.SacsLib.registerModule (Sacs.SacsWrapper.registerArgs name properties callback)).map
      .called
  | updateProperties moduleId properties =>
    (Sacs.SacsLib.updateProperties (Sacs.SacsWrapper.updateArgs moduleId properties)).map .called
  | internalCallback properties =>
    some (.collected (cStrings (Sacs.SacsWrapper.visited properties)))

/-- How many arrays remain. -/
def leaked : Call → ℕ
  | updateProperties _ properties =>
    if Announceable (cStrings (Sacs.SacsWrapper.visited properties)) then 0
    else (Sacs.SacsWrapper.visited properties).length + 2
  | _ => 0

end Call

theorem registerModule_registerArgs (name : Str) (properties : List ModuleProperty)
    (callback : Option Callback) :
    Sacs.SacsLib.registerModule (Sacs.SacsWrapper.registerArgs name properties callback) =
      some (.registerModule name.cString
        ((Sacs.SacsWrapper.visited properties).map Sacs.SacsWrapper.toProperty) callback) := by
  simp only [Sacs.SacsLib.registerModule, Sacs.SacsWrapper.registerArgs,
    (visited_length properties).1, Sacs.SacsWrapper.cString_append_zero]
  rw [Sacs.SacsWrapper.mapM_range _ _ Sacs.SacsWrapper.toProperty]
  · rfl
  · intro i p hp
    simp only [List.getElem?_map, hp, Option.map_some, Option.bind_eq_bind, Option.bind_some,
      Sacs.SacsWrapper.cString_strToChrA, Option.pure_def, Option.some.injEq]
    rw [Sacs.SacsWrapper.toProperty]
    cases Sacs.SacsWrapper.isPropertyTypeForReadOnly p.type <;> rfl

theorem updateProperties_updateArgs (id : Int32) (ps : Updates) :
    Sacs.SacsLib.updateProperties (Sacs.SacsWrapper.updateArgs id ps) =
      some (.updateProperties id (cStrings (Sacs.SacsWrapper.visited ps))) := by
  simp only [Sacs.SacsLib.updateProperties, Sacs.SacsWrapper.updateArgs, (visited_length ps).1]
  rw [Sacs.SacsWrapper.mapM_range _ _ fun u => (u.1, u.2.cString)]
  · rfl
  · intro i u hu
    simp only [List.getElem?_map, hu, Option.map_some, Option.bind_eq_bind, Option.bind_some,
      Sacs.SacsWrapper.cString_strcpy, Option.pure_def]

theorem Call.run_triple {m : Multiset (Block Cell)} (c : Call) :
    Triple m c.run fun r m' => c.result? = some r ∧ ∃ k, m' = k + m ∧ k.card = c.leaked := by
  cases c with
  | registerModule name properties callback =>
    refine .map ((registerModule_triple name callback).conseq ?_)
    rintro _ _ ⟨rfl, rfl⟩
    refine ⟨?_, 0, (zero_add _).symm, rfl⟩
    rw [Call.result?, registerModule_registerArgs, Option.map_some]
  | updateProperties moduleId properties =>
    refine .map ((updateProperties_triple moduleId properties).conseq ?_)
    rintro _ _ ⟨rfl, k, rfl, hk⟩
    refine ⟨?_, k, rfl, hk⟩
    rw [Call.result?, updateProperties_updateArgs, Option.map_some]
  | internalCallback properties =>
    refine .map ((internalCallback_triple properties).conseq ?_)
    rintro _ _ ⟨rfl, rfl⟩
    exact ⟨rfl, 0, (zero_add _).symm, rfl⟩

/-- Whatever calls are made, in which order and with lists of which lengths, none fails, each
    does what it does on lists, and the arrays that remain are those of the calls of
    `UpdateProperties` that throw. -/
theorem calls_run (cs : List Call) (h : Heap Cell) :
    ∃ rs h', (cs.mapM Call.run).run h = .ok (rs, h') ∧ cs.mapM Call.result? = some rs ∧
      h.Leaves h' (cs.map Call.leaked).sum := by
  have hcalls : ∀ m, Triple m (cs.mapM Call.run) fun rs m' => cs.mapM Call.result? = some rs ∧
      ∃ k, m' = k + m ∧ k.card = (cs.map Call.leaked).sum := by
    induction cs with
    | nil => exact fun m => .pure ⟨rfl, 0, (zero_add m).symm, rfl⟩
    | cons c cs ih =>
      intro m
      rw [List.mapM_cons]
      refine .bind c.run_triple ?_
      rintro r _ ⟨hr, k, rfl, hk⟩
      refine .bind (ih _) ?_
      rintro rs _ ⟨hrs, k', rfl, hk'⟩
      refine .pure ⟨?_, k' + k, (add_assoc ..).symm, ?_⟩
      · rw [List.mapM_cons, hr, hrs]
        rfl
      · rw [Multiset.card_add, hk, hk', List.map_cons, List.sum_cons, add_comm]
  obtain ⟨rs, h', m', hrun, hleaves, hrs, k, rfl, hk⟩ := (hcalls 0).run h
  refine ⟨rs, h', hrun, hrs, ?_⟩
  rw [← hk]
  simpa using hleaves

end Memory

end Sacs
