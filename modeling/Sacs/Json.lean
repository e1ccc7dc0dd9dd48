import Sacs.Basic
import Mathlib.Data.Rat.Floor

/-!
# JSON values

What the code uses of `nlohmann::json`, a library that is not part of the
repository: values, their accessors with the errors these throw, and texts.

A text is what the instances and the browser exchange, a string. Only two
things are ever done with one: it is the dump of a value, or it is parsed.
As parsing gives back what was dumped, a text is modelled by the value it
parses to (`Text.json`); `Text.other` is any string that is not JSON. Values
are dumped only if their strings are valid UTF-8, and only such values are
parsed: a text carries this as a proof.
-/

namespace Sacs

/-- A JSON value. The members of an object have distinct keys when made by
    `Json.assign`; the first one with a key is the one found. -/
inductive Json
  | null
  | bool (b : Bool)
  | int (n : Int)
  | float (q : Rat)
  | str (s : Str)
  | arr (xs : List Json)
  | obj (members : List (Str × Json))

namespace Json

/-! ### Accessors -/

/-- `find(key)`: only objects have members. -/
def find? : Json → Str → Option Json
  | .obj kvs, key => (kvs.find? fun kv => kv.1 = key).map Prod.snd
  | _, _ => none

/-- The members `kvs` with the value `v` for `key`. -/
def assignMember (key : Str) (v : Json) : List (Str × Json) → List (Str × Json)
  | [] => [(key, v)]
  | kv :: kvs => if kv.1 = key then (key, v) :: kvs else kv :: assignMember key v kvs

/-- `j[key] = v`. -/
def assign : Json → Str → Json → Except Fault Json
  | .obj kvs, key, v => .ok (.obj (assignMember key v kvs))
  | .null, key, v => .ok (.obj [(key, v)])
  | _, _, _ => .error .typeError

/-- `j[key]`: the value of the member, which is inserted as `null` if there is
    none, with the value it is then a member of. -/
def index (j : Json) (key : Str) : Except Fault (Json × Json) :=
  match j.find? key with
  | some v => .ok (v, j)
  | none => (j.assign key .null).map fun j' => (.null, j')

/-- The elements visited by `for(i < j.size()) j.at(i)`: `at` throws on what is
    not an array, but is not called on an empty object or on `null`, whose
    sizes are `0`. The size of a scalar is `1`. -/
def elements : Json → Except Fault (List Json)
  | .arr xs => .ok xs
  | .null => .ok []
  | .obj [] => .ok []
  | _ => .error .typeError

/-- `get<std::string>()`. -/
def getString : Json → Except Fault Str
  | .str s => .ok s
  | _ => .error .typeError

/-- `get<int>()`: a conversion to 32 bits; that of a number with a fractional
    part truncates, and is undefined out of range. -/
def getInt : Json → Except Fault Int32
  | .int n => .ok (Int32.ofInt n)
  | .bool b => .ok (if b then 1 else 0)
  | .float q =>
    let n := if 0 ≤ q then ⌊q⌋ else ⌈q⌉
    if -2 ^ 31 ≤ n ∧ n < 2 ^ 31 then .ok (Int32.ofInt n) else .error .overflow
  | _ => .error .typeError

@[simp] theorem find?_obj_cons (k : Str) (v : Json) (kvs : List (Str × Json)) (key : Str) :
    (obj ((k, v) :: kvs)).find? key = if k = key then some v else (obj kvs).find? key := by
  simp only [find?, List.find?_cons]
  split_ifs with h <;> simp [h]

@[simp] theorem find?_obj_nil (key : Str) : (obj []).find? key = none := rfl

theorem find?_assignMember (kvs : List (Str × Json)) (k key : Str) (v : Json) :
    (obj (assignMember k v kvs)).find? key =
      if k = key then some v else (obj kvs).find? key := by
  induction kvs with
  | nil => simp [assignMember]
  | cons kv kvs ih =>
    obtain ⟨k', v'⟩ := kv
    rw [assignMember]
    split_ifs with h₁ h₂ h₂
    · simp [h₂]
    · simp only [find?_obj_cons, h₂, if_false]
      rw [if_neg (fun h => h₂ (h₁ ▸ h))]
    · subst h₂
      rw [find?_obj_cons, if_neg h₁, ih, if_pos rfl]
    · simp only [find?_obj_cons, ih, h₂, if_false]

/-! ### UTF-8 -/

mutual

/-- All strings of the value, and all keys, are valid UTF-8. -/
def isUtf8 : Json → Bool
  | .str s => s.isUtf8
  | .arr xs => isUtf8Elements xs
  | .obj kvs => isUtf8Members kvs
  | _ => true
  termination_by structural j => j

def isUtf8Elements : List Json → Bool
  | [] => true
  | x :: xs => isUtf8 x && isUtf8Elements xs
  termination_by structural xs => xs

def isUtf8Members : List (Str × Json) → Bool
  | [] => true
  | kv :: kvs => isUtf8Member kv && isUtf8Members kvs
  termination_by structural kvs => kvs

def isUtf8Member : Str × Json → Bool
  | (k, v) => k.isUtf8 && isUtf8 v
  termination_by structural kv => kv

end

@[simp] theorem isUtf8_null : null.isUtf8 = true := rfl

@[simp] theorem isUtf8_str (s : Str) : (str s).isUtf8 = s.isUtf8 := rfl

@[simp] theorem isUtf8_int (n : Int) : (int n).isUtf8 = true := rfl

@[simp] theorem isUtf8_arr (xs : List Json) : (arr xs).isUtf8 = xs.all isUtf8 := by
  rw [isUtf8]
  induction xs with
  | nil => rfl
  | cons x xs ih => rw [isUtf8Elements, ih, List.all_cons]

@[simp] theorem isUtf8_obj (kvs : List (Str × Json)) :
    (obj kvs).isUtf8 = kvs.all fun kv => kv.1.isUtf8 && kv.2.isUtf8 := by
  rw [isUtf8]
  induction kvs with
  | nil => rfl
  | cons kv kvs ih => rw [isUtf8Members, ih, List.all_cons, isUtf8Member]

/-- Assigning a member keeps the strings valid. -/
theorem isUtf8_assign {j j' : Json} {key : Str} {v : Json} (h : j.assign key v = .ok j')
    (hj : j.isUtf8) (hkey : key.isUtf8) (hv : v.isUtf8) : j'.isUtf8 := by
  cases j <;> simp only [assign, reduceCtorEq, Except.ok.injEq] at h <;> subst h
  case null => simp [hkey, hv]
  case obj kvs =>
    induction kvs with
    | nil => simp [assignMember, hkey, hv]
    | cons kv kvs ih =>
      simp only [isUtf8_obj, List.all_cons, Bool.and_eq_true] at hj ih ⊢
      rw [assignMember]
      split_ifs
      · simpa [hkey, hv] using hj.2
      · simpa [hj.1] using ih hj.2

end Json

/-! ### Texts -/

/-- A string sent from one process to another, or to the browser. -/
inductive Text
  /-- The string parses to `j`. -/
  | json (j : Json) (utf8 : j.isUtf8 = true)
  /-- The string is not JSON. -/
  | other

/-- `dump()`, which throws if a string is not valid UTF-8. -/
def Json.dump (j : Json) : Except Fault Text :=
  if h : j.isUtf8 = true then .ok (.json j h) else .error .typeError

theorem Json.dump_eq_ok_iff {j : Json} {t : Text} :
    j.dump = .ok t ↔ ∃ h : j.isUtf8 = true, t = .json j h := by
  rw [Json.dump]
  split_ifs with h
  · simp [h, eq_comm]
  · simp [h]

end Sacs
