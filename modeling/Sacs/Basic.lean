import Mathlib.Order.Defs.LinearOrder
import Mathlib.Data.List.TakeWhile

/-!
# Integers, strings and failures of the C++ code

The code's own types: `int` is `Int32`, the client ids of the network library
are `UInt32`, and a `std::string` is the list of its bytes (`Str`). Strings
travel as JSON, which must be valid UTF-8 (`Str.isUtf8`), and are handed to
callbacks as C strings, which end at the first NUL (`Str.cString`).

A function that throws or that goes through a null pointer gives a `Fault`
instead of a result. `int` overflow is undefined behaviour, and a fault as
well, so that no state after it is ever described.
-/

namespace Sacs

/-- The bytes of a `std::string`. -/
abbrev Str := List UInt8

/-- The id the network library gives to a connected client. -/
abbrev ClientId := UInt32

/-- Why an execution cannot go on. -/
inductive Fault
  /-- The action is not possible in the current state. -/
  | disabled
  /-- A `nlohmann::json` value has the wrong kind. -/
  | typeError
  /-- An `at()` out of range. -/
  | outOfRange
  /-- A null pointer is dereferenced. -/
  | nullPointer
  /-- Undefined behaviour of the arithmetic. -/
  | overflow
  deriving DecidableEq

/-- The order of `int`, that of `std::map<int, _>`. -/
instance instLinearOrderInt32 : LinearOrder Int32 where
  le_refl := Int32.le_refl
  le_trans _ _ _ := Int32.le_trans
  le_antisymm _ _ := Int32.le_antisymm
  le_total := Int32.le_total
  lt_iff_le_not_ge a b := by
    rw [Int32.lt_iff_toInt_lt, Int32.le_iff_toInt_le, Int32.le_iff_toInt_le]
    omega
  toDecidableLE := inferInstance
  toDecidableEq := inferInstance

/-- The order of `uint32_t`, that of `std::map<uint32_t, _>`. -/
instance instLinearOrderUInt32 : LinearOrder UInt32 where
  le_refl := UInt32.le_refl
  le_trans _ _ _ := UInt32.le_trans
  le_antisymm _ _ := UInt32.le_antisymm
  le_total := UInt32.le_total
  lt_iff_le_not_ge a b := by
    rw [UInt32.lt_iff_toNat_lt, UInt32.le_iff_toNat_le, UInt32.le_iff_toNat_le]
    omega
  toDecidableLE := inferInstance
  toDecidableEq := inferInstance

/-- `i++` on an `int` below the largest one. -/
theorem toInt_add_one {i : Int32} (h : i ≠ Int32.maxValue) : (i + 1).toInt = i.toInt + 1 := by
  have hmax : i.toInt ≠ 2147483647 := fun e => h (Int32.toInt_inj.1 (by rw [e]; rfl))
  have hlo := i.minValue_le_toInt
  have hhi := i.toInt_lt
  rw [Int32.toInt_add, show (1 : Int32).toInt = 1 from rfl, Int.bmod_eq_of_le] <;>
    simp at * <;> omega

/-- A size, converted to an `int`, is at most the size. -/
theorem toInt_ofInt_le (n : Nat) : (Int32.ofInt n).toInt ≤ n := by
  have hlen : (n : Int).bmod (2 ^ 32) ≤ n := by
    rw [Int.bmod_def]; split_ifs <;> omega
  rwa [Int32.toInt_ofInt]

/-! ## Strings -/

namespace Str

/-- An ASCII string literal. -/
def lit (s : String) : Str := s.toList.map fun c => UInt8.ofNat c.toNat

/-- The rest of a string is well-formed UTF-8, when `n` more bytes of the current
    sequence are due and the first of these is between `lo` and `hi`. -/
def isUtf8From (lo hi : UInt8) : Nat → Str → Bool
  | n, [] => n = 0
  | n + 1, b :: s => lo ≤ b && b ≤ hi && isUtf8From 0x80 0xBF n s
  | 0, b :: s =>
    if b ≤ 0x7F then isUtf8From 0x80 0xBF 0 s
    else if b < 0xC2 then false
    else if b ≤ 0xDF then isUtf8From 0x80 0xBF 1 s
    else if b = 0xE0 then isUtf8From 0xA0 0xBF 2 s
    else if b = 0xED then isUtf8From 0x80 0x9F 2 s
    else if b ≤ 0xEF then isUtf8From 0x80 0xBF 2 s
    else if b = 0xF0 then isUtf8From 0x90 0xBF 3 s
    else if b ≤ 0xF3 then isUtf8From 0x80 0xBF 3 s
    else if b = 0xF4 then isUtf8From 0x80 0x8F 3 s
    else false
  termination_by structural _ s => s

/-- Well-formed UTF-8: no stray or missing continuation byte, no overlong
    sequence, no surrogate, nothing above U+10FFFF. -/
def isUtf8 (s : Str) : Bool := isUtf8From 0x80 0xBF 0 s

/-- A string of this length. -/
def letters (n : Nat) : Str := List.replicate n 65

theorem isUtf8_letters (n : Nat) : (letters n).isUtf8 = true := by
  rw [letters, isUtf8]
  induction n with
  | zero => rfl
  | succ n ih => rw [List.replicate_succ, isUtf8From, if_pos (by decide), ih]

theorem zero_notMem_letters (n : Nat) : 0 ∉ letters n := by
  simp [letters, List.mem_replicate]

/-- What reading the bytes of `s`, copied into a NUL-terminated buffer, as a C
    string gives. -/
def cString (s : Str) : Str := s.takeWhile (· ≠ 0)

theorem cString_eq {s : Str} (h : 0 ∉ s) : s.cString = s := by
  refine List.takeWhile_eq_self_iff.2 fun b hb => ?_
  simpa using fun e : b = 0 => h (e ▸ hb)

end Str

/-! ### Line ends -/

/-- CR LF and CR are read as LF: by a `textarea`, and by the compiler. -/
def normalizeNewlines : Str → Str
  | 13 :: 10 :: s => 10 :: normalizeNewlines s
  | 13 :: s => 10 :: normalizeNewlines s
  | b :: s => b :: normalizeNewlines s
  | [] => []

theorem normalizeNewlines_of_not_mem {s : Str} (h : 13 ∉ s) : normalizeNewlines s = s := by
  induction s with
  | nil => rfl
  | cons b s ih =>
    rw [List.mem_cons, not_or] at h
    rw [normalizeNewlines, ih h.2]
    · exact fun _ he => absurd he.symm h.1
    · exact fun he => absurd he.symm h.1

theorem not_mem_normalizeNewlines (s : Str) : 13 ∉ normalizeNewlines s := by
  fun_induction normalizeNewlines s with
  | case1 s ih => simpa using ih
  | case2 s _ ih => simpa using ih
  | case3 b s _ hb ih => simpa [ih, eq_comm] using hb
  | case4 => simp

theorem normalizeNewlines_idem (s : Str) :
    normalizeNewlines (normalizeNewlines s) = normalizeNewlines s :=
  normalizeNewlines_of_not_mem (not_mem_normalizeNewlines s)

theorem normalizeNewlines_cons {b : UInt8} (hb : b ≠ 13) (s : Str) :
    normalizeNewlines (b :: s) = b :: normalizeNewlines s := by
  rw [normalizeNewlines]
  · exact fun _ he => absurd he hb
  · exact fun he => absurd he hb

end Sacs
