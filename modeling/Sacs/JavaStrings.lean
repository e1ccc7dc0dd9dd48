import Mathlib.Data.List.ReduceOption
import Sacs.Lib.ModifiedUtf8
import Sacs.Marshalling

/-!
# The strings of Java

The strings of Java are code units of 16 bits, and the native functions get and make them as
modified UTF-8, while announcements have to be UTF-8.

* A Java application registers and saves what can be announced if and only if no string is
  null, or has a NUL character or half of a pair of surrogates (`IsText`,
  `JniLib.registerModule_iff`, `JniLib.updateProperties_iff`). Objects that are null are left
  out of the properties of a module, but not of updates.
* Values that come from Java get back to it as they were. Others, which are UTF-8, get to Java
  if and only if there are no sequences of four bytes in them, and come back from it up to
  their first NUL character (`java_roundTrip`).
-/

namespace Sacs

open ModifiedUtf8

/-! ## UTF-8 and modified UTF-8 -/

namespace Str

theorem isUtf8_one {a : UInt8} (ha : a.toNat < 0x80) (s : Str) :
    isUtf8 (a :: s) = isUtf8 s := by
  have hle : a ≤ 0x7F := UInt8.le_iff_toNat_le.2 (Nat.lt_succ_iff.1 ha)
  rw [isUtf8, isUtf8From, if_pos hle]
  rfl

/-- The first bytes of the sequences of two and three bytes. -/
theorem isUtf8_two {a : UInt8} (ha : 0xC2 ≤ a.toNat ∧ a.toNat < 0xE0) (s : Str) :
    isUtf8 (a :: s) = isUtf8From 0x80 0xBF 1 s := by
  have h₁ : ¬a ≤ 0x7F := fun h => by have := UInt8.le_iff_toNat_le.1 h; simp at this; omega
  have h₂ : ¬a < 0xC2 := fun h => by have := UInt8.lt_iff_toNat_lt.1 h; simp at this; omega
  have h₃ : a ≤ 0xDF := UInt8.le_iff_toNat_le.2 (Nat.lt_succ_iff.1 ha.2)
  rw [isUtf8, isUtf8From, if_neg h₁, if_neg h₂, if_pos h₃]

/-- The bounds of the second byte of a sequence of three. -/
def lowest (a : UInt8) : UInt8 := if a = 0xE0 then 0xA0 else 0x80

def highest (a : UInt8) : UInt8 := if a = 0xED then 0x9F else 0xBF

theorem toNat_lowest (a : UInt8) : (lowest a).toNat = if a.toNat = 0xE0 then 0xA0 else 0x80 := by
  have ha : a = 0xE0 ↔ a.toNat = 0xE0 := UInt8.toNat_inj.symm
  rw [lowest, apply_ite UInt8.toNat]
  exact if_congr ha rfl rfl

theorem toNat_highest (a : UInt8) :
    (highest a).toNat = if a.toNat = 0xED then 0x9F else 0xBF := by
  have ha : a = 0xED ↔ a.toNat = 0xED := UInt8.toNat_inj.symm
  rw [highest, apply_ite UInt8.toNat]
  exact if_congr ha rfl rfl

theorem isUtf8_three {a : UInt8} (ha : 0xE0 ≤ a.toNat ∧ a.toNat < 0xF0) (s : Str) :
    isUtf8 (a :: s) = isUtf8From (lowest a) (highest a) 2 s := by
  have h₁ : ¬a ≤ 0x7F := fun h => by have := UInt8.le_iff_toNat_le.1 h; simp at this; omega
  have h₂ : ¬a < 0xC2 := fun h => by have := UInt8.lt_iff_toNat_lt.1 h; simp at this; omega
  have h₃ : ¬a ≤ 0xDF := fun h => by have := UInt8.le_iff_toNat_le.1 h; simp at this; omega
  have h₄ : a ≤ 0xEF := UInt8.le_iff_toNat_le.2 (Nat.lt_succ_iff.1 ha.2)
  rw [isUtf8, isUtf8From, if_neg h₁, if_neg h₂, if_neg h₃, lowest, highest]
  split_ifs with h₅ h₆
  · rw [h₅] at h₆
    exact absurd h₆ (by decide)
  all_goals rfl

theorem isUtf8From_succ {lo hi b : UInt8} {n : ℕ} {s : Str} :
    isUtf8From lo hi (n + 1) (b :: s) = true ↔
      (lo.toNat ≤ b.toNat ∧ b.toNat ≤ hi.toNat) ∧ isUtf8From 0x80 0xBF n s = true := by
  rw [isUtf8From, Bool.and_eq_true, Bool.and_eq_true, decide_eq_true_eq, decide_eq_true_eq,
    UInt8.le_iff_toNat_le, UInt8.le_iff_toNat_le]

theorem isUtf8From_succ_nil {lo hi : UInt8} {n : ℕ} : isUtf8From lo hi (n + 1) [] = false := by
  rw [isUtf8From]
  rfl

/-- Other bytes begin no sequence, or one of four bytes. -/
theorem isUtf8_eq_false {a : UInt8} (ha : 0x80 ≤ a.toNat ∧ a.toNat < 0xC2) (s : Str) :
    isUtf8 (a :: s) = false := by
  have h₁ : ¬a ≤ 0x7F := fun h => by have := UInt8.le_iff_toNat_le.1 h; simp at this; omega
  have h₂ : a < 0xC2 := UInt8.lt_iff_toNat_lt.2 ha.2
  rw [isUtf8, isUtf8From, if_neg h₁, if_pos h₂]

end Str

/-- A unit that is neither a NUL character nor half of a pair of surrogates. -/
def IsPlain (c : UInt16) : Prop := c ≠ 0 ∧ ¬(0xD800 ≤ c.toNat ∧ c.toNat < 0xE000)

instance instDecidableIsPlain : DecidablePred IsPlain := fun _ =>
  inferInstanceAs (Decidable (_ ∧ ¬_))

theorem isUtf8_encodeUnit (c : UInt16) (s : Str) :
    Str.isUtf8 (encodeUnit c ++ s) = true ↔ IsPlain c ∧ s.isUtf8 = true := by
  have hc : c.toNat < 65536 := c.toNat_lt
  have hzero : c ≠ 0 ↔ c.toNat ≠ 0 := by rw [Ne, ← UInt16.toNat_inj]; rfl
  rw [encodeUnit, IsPlain, hzero]
  split_ifs with h₁ h₂
  · have ha : (UInt8.ofNat c.toNat).toNat = c.toNat := toNat_ofNat (by omega)
    rw [List.cons_append, Str.isUtf8_one (by omega)]
    exact (and_iff_right ⟨h₁.1, by omega⟩).symm
  · have ha : (UInt8.ofNat (0xC0 + c.toNat / 64)).toNat = 0xC0 + c.toNat / 64 :=
      toNat_ofNat (by omega)
    have hb : (UInt8.ofNat (0x80 + c.toNat % 64)).toNat = 0x80 + c.toNat % 64 :=
      toNat_ofNat (by omega)
    by_cases h0 : c.toNat = 0
    · -- The NUL character has two bytes, which is one too many.
      rw [List.cons_append, Str.isUtf8_eq_false (by omega)]
      exact iff_of_false Bool.false_ne_true fun h => h.1.1 h0
    · rw [List.cons_append, Str.isUtf8_two (by omega), List.cons_append, Str.isUtf8From_succ, hb]
      refine and_congr (iff_of_true ⟨?_, ?_⟩ ⟨h0, by omega⟩) Iff.rfl
      · exact Nat.le_add_right ..
      · change _ ≤ 0xBF
        omega
  · have ha : (UInt8.ofNat (0xE0 + c.toNat / 4096)).toNat = 0xE0 + c.toNat / 4096 :=
      toNat_ofNat (by omega)
    have hb : (UInt8.ofNat (0x80 + c.toNat / 64 % 64)).toNat = 0x80 + c.toNat / 64 % 64 :=
      toNat_ofNat (by omega)
    have hd : (UInt8.ofNat (0x80 + c.toNat % 64)).toNat = 0x80 + c.toNat % 64 :=
      toNat_ofNat (by omega)
    rw [List.cons_append, Str.isUtf8_three (by omega), List.cons_append, Str.isUtf8From_succ, hb,
      List.cons_append, Str.isUtf8From_succ, hd, ← and_assoc]
    refine and_congr ?_ Iff.rfl
    rw [Str.toNat_lowest, Str.toNat_highest, ha]
    change _ ∧ 0x80 ≤ _ ∧ _ ≤ 0xBF ↔ _
    split_ifs <;> omega

/-- A string of Java can be announced if it is plain. -/
theorem isUtf8_encode {s : List UInt16} :
    Str.isUtf8 (encode s) = true ↔ ∀ c ∈ s, IsPlain c := by
  induction s with
  | nil => exact iff_of_true rfl (by simp)
  | cons c s ih => rw [encode_cons, isUtf8_encodeUnit, ih, List.forall_mem_cons]

/-- The first sequence of a string that is well-formed UTF-8. -/
theorem Str.isUtf8_cons {a : UInt8} {s : Str} (h : isUtf8 (a :: s) = true) :
    a.toNat < 0x80 ∧ s.isUtf8 = true ∨
    (0xC2 ≤ a.toNat ∧ a.toNat < 0xE0) ∧
      (∃ b s', s = b :: s' ∧ (0x80 ≤ b.toNat ∧ b.toNat < 0xC0) ∧ isUtf8 s' = true) ∨
    (0xE0 ≤ a.toNat ∧ a.toNat < 0xF0) ∧
      (∃ b c s', s = b :: c :: s' ∧ ((lowest a).toNat ≤ b.toNat ∧ b.toNat ≤ (highest a).toNat) ∧
        (0x80 ≤ c.toNat ∧ c.toNat < 0xC0) ∧ isUtf8 s' = true) ∨
    0xF0 ≤ a.toNat := by
  by_cases h₁ : a.toNat < 0x80
  · rw [isUtf8_one h₁] at h
    exact .inl ⟨h₁, h⟩
  by_cases h₂ : a.toNat < 0xC2
  · rw [isUtf8_eq_false ⟨not_lt.1 h₁, h₂⟩] at h
    cases h
  by_cases h₃ : a.toNat < 0xE0
  · rw [isUtf8_two ⟨not_lt.1 h₂, h₃⟩] at h
    refine .inr (.inl ⟨⟨not_lt.1 h₂, h₃⟩, ?_⟩)
    cases s with
    | nil =>
      rw [isUtf8From_succ_nil] at h
      cases h
    | cons b s =>
      obtain ⟨⟨hlo, hhi⟩, h⟩ := isUtf8From_succ.1 h
      exact ⟨b, s, rfl, ⟨hlo, Nat.lt_succ_iff.2 hhi⟩, h⟩
  by_cases h₄ : a.toNat < 0xF0
  · rw [isUtf8_three ⟨not_lt.1 h₃, h₄⟩] at h
    refine .inr (.inr (.inl ⟨⟨not_lt.1 h₃, h₄⟩, ?_⟩))
    cases s with
    | nil =>
      rw [isUtf8From_succ_nil] at h
      cases h
    | cons b s =>
      obtain ⟨hb, h⟩ := isUtf8From_succ.1 h
      cases s with
      | nil =>
        rw [isUtf8From_succ_nil] at h
        cases h
      | cons c s =>
        obtain ⟨⟨hlo, hhi⟩, h⟩ := isUtf8From_succ.1 h
        exact ⟨b, c, s, rfl, hb, ⟨hlo, Nat.lt_succ_iff.2 hhi⟩, h⟩
  · exact .inr (.inr (.inr (not_lt.1 h₄)))

/-- No sequence has a NUL character in the middle. -/
theorem Str.isUtf8From_cString {lo hi : UInt8} {n : ℕ} {s : Str} (hlo : n = 0 ∨ lo ≠ 0)
    (h : isUtf8From lo hi n s = true) : isUtf8From lo hi n s.cString = true := by
  have hcons : ∀ {b : UInt8} {s : Str}, b ≠ 0 → cString (b :: s) = b :: cString s := fun hb => by
    rw [cString, List.takeWhile_cons, if_pos (decide_eq_true hb)]
    rfl
  induction s generalizing lo hi n with
  | nil => exact h
  | cons b s ih =>
    cases n with
    | succ n =>
      rw [isUtf8From_succ] at h
      have hb : b ≠ 0 := by
        rintro rfl
        have hne := hlo.resolve_left (Nat.succ_ne_zero n)
        exact hne (UInt8.toNat_inj.1 (Nat.le_zero.1 h.1.1))
      rw [hcons hb, isUtf8From_succ]
      exact ⟨h.1, ih (.inr (by decide)) h.2⟩
    | zero =>
      by_cases hb : b = 0
      · rw [hb]
        rfl
      · rw [hcons hb]
        rw [isUtf8From] at h ⊢
        split_ifs at h ⊢ with h₁
        · exact ih (.inl rfl) h
        all_goals exact ih (.inr (by decide)) h

theorem Str.isUtf8_cString {s : Str} (h : s.isUtf8 = true) : s.cString.isUtf8 = true :=
  isUtf8From_cString (.inl rfl) h

/-- Well-formed UTF-8 without NUL characters and sequences of four bytes is what Java makes of
    a string. -/
theorem exists_encode_eq {s : Str} (h : s.isUtf8 = true) (h0 : 0 ∉ s)
    (hlt : ∀ b ∈ s, b.toNat < 0xF0) : ∃ t, encode t = s := by
  have hbyte : ∀ {n : ℕ} {a : UInt8}, n = a.toNat → UInt8.ofNat n = a := fun h => by
    rw [h, UInt8.ofNat_toNat]
  induction hn : s.length using Nat.strongRecOn generalizing s with
  | _ n ih =>
    cases s with
    | nil => exact ⟨[], rfl⟩
    | cons a s =>
      rw [List.length_cons] at hn
      rcases Str.isUtf8_cons h with ⟨ha, hs⟩ | ⟨ha, b, s', rfl, hb, hs⟩ |
        ⟨ha, b, c, s', rfl, hb, hc, hs⟩ | ha
      · obtain ⟨t, rfl⟩ := ih s.length (by omega) hs (fun h => h0 (List.mem_cons_of_mem _ h))
          (fun b hb => hlt b (List.mem_cons_of_mem _ hb)) rfl
        have hne : a.toNat ≠ 0 := fun he => by
          have hzero : a = 0 := UInt8.toNat_inj.1 he
          exact h0 (hzero ▸ List.mem_cons_self)
        refine ⟨.ofNat a.toNat :: t, ?_⟩
        rw [encode_cons, encodeUnit_ofNat (by omega), if_pos ⟨hne, ha⟩, hbyte rfl]
        rfl
      · rw [List.length_cons] at hn
        obtain ⟨t, rfl⟩ := ih s'.length (by omega) hs (fun h => h0 (by simp [h]))
          (fun b hb => hlt b (by simp [hb])) rfl
        refine ⟨.ofNat ((a.toNat - 0xC0) * 64 + (b.toNat - 0x80)) :: t, ?_⟩
        rw [encode_cons, encodeUnit_ofNat (by omega), if_neg (by omega), if_pos (by omega),
          hbyte (a := a) (by omega), hbyte (a := b) (by omega)]
        rfl
      · rw [List.length_cons, List.length_cons] at hn
        obtain ⟨t, rfl⟩ := ih s'.length (by omega) hs (fun h => h0 (by simp [h]))
          (fun b hb => hlt b (by simp [hb])) rfl
        rw [Str.toNat_lowest, Str.toNat_highest] at hb
        have hb' : 0x80 ≤ b.toNat ∧ b.toNat < 0xC0 ∧ (a.toNat = 0xE0 → 0xA0 ≤ b.toNat) := by
          split_ifs at hb <;> omega
        refine ⟨.ofNat ((a.toNat - 0xE0) * 4096 + (b.toNat - 0x80) * 64 + (c.toNat - 0x80)) :: t,
          ?_⟩
        rw [encode_cons, encodeUnit_ofNat (by omega), if_neg (by omega), if_neg (by omega),
          hbyte (a := a) (by omega), hbyte (a := b) (by omega), hbyte (a := c) (by omega)]
        rfl
      · exact absurd (hlt a List.mem_cons_self) (not_lt.2 ha)

/-! ## The arguments of the native functions -/

open JsonMsg

/-- A `String`, by its code units. -/
abbrev JString := List UInt16

/-- A `ModuleProperty` of Java. The reference to a string may be null. -/
structure JavaProperty where
  type : ModuleProperty.Type
  name : Option JString
  value : Option JString

/-- A `ModulePropertyUpdate`. -/
structure JavaUpdate where
  id : Int32
  value : Option JString

/-- What is made of the characters of `GetStringUTFChars`, which end with a NUL character. -/
def getStringUtfChars : Option JString → Except Fault Str
  | some s => .ok (Str.cString (encode s))
  | none => .error .nullPointer

/-- `NewStringUTF`, for the characters of a string up to the first NUL character. -/
def newStringUtf (s : Str) : Option JString := decode s.cString

namespace JniGlue

/-- References that are null are left out. -/
def jniPropsToVec : List (Option JavaProperty) → Except Fault (List ModuleProperty)
  | [] => .ok []
  | none :: jniArray => jniPropsToVec jniArray
  | some jprop :: jniArray => do
    let name ← getStringUtfChars jprop.name
    let value ← getStringUtfChars jprop.value
    return { type := jprop.type, name, defaultValue := value } :: (← jniPropsToVec jniArray)

/-- Here they are not. -/
def jniUpdatePropsToVec : List (Option JavaUpdate) → Except Fault Updates
  | [] => .ok []
  | none :: _ => .error .nullPointer
  | some jprop :: jniArray => do
    let value ← getStringUtfChars jprop.value
    return (jprop.id, value) :: (← jniUpdatePropsToVec jniArray)

/-- The objects made in `CallJavaPropertiesUpdate`, if all strings are ones of Java. -/
def javaUpdates (updates : Updates) : Option (List JavaUpdate) :=
  updates.mapM fun u => (newStringUtf u.2).map fun value => ⟨u.1, some value⟩

end JniGlue

namespace JniLib

def registerModule (name : Option JString) (properties : Option (List (Option JavaProperty)))
    (callback : Callback) : Except Fault Action := do
  let cname ← getStringUtfChars name
  -- No array is an empty one.
  let vec ← JniGlue.jniPropsToVec (properties.getD [])
  return SacsWrapperNoLib.registerModule cname vec (some callback)

def updateProperties (moduleId : Int32) (properties : Option (List (Option JavaUpdate))) :
    Except Fault Action :=
  match properties with
  | none => .error .nullPointer
  | some properties => do
    return SacsWrapperNoLib.updateProperties moduleId
      (← JniGlue.jniUpdatePropsToVec properties)

end JniLib

/-- The string is there, and can be announced. -/
def IsText (s : Option JString) : Prop := ∃ t, s = some t ∧ ∀ c ∈ t, IsPlain c

theorem cString_encode (s : JString) : Str.cString (encode s) = encode s :=
  Str.cString_eq (zero_not_mem_encode s)

theorem getStringUtfChars_some (s : JString) : getStringUtfChars (some s) = .ok (encode s) := by
  rw [getStringUtfChars, cString_encode]

theorem newStringUtf_encode (s : JString) : newStringUtf (encode s) = some s := by
  rw [newStringUtf, cString_encode, decode_encode_eq]

theorem zero_not_mem_cString (s : Str) : 0 ∉ s.cString := fun hmem =>
  absurd (List.mem_takeWhile_imp hmem) (by decide)

/-- What Java cannot make a string of are the sequences of four bytes. -/
theorem newStringUtf_eq_some {s : Str} (h : s.isUtf8 = true) :
    (∃ t, newStringUtf s = some t) ↔ ∀ b ∈ s.cString, b.toNat < 0xF0 := by
  refine ⟨fun ⟨t, ht⟩ => lt_of_decode ht, fun hlt => ?_⟩
  have h0 := zero_not_mem_cString s
  obtain ⟨t, ht⟩ := exists_encode_eq (Str.isUtf8_cString h) h0 hlt
  refine ⟨t, ?_⟩
  rw [newStringUtf, ← ht, decode_encode_eq]

theorem encode_of_newStringUtf {s : Str} {t : JString} (h : s.isUtf8 = true)
    (ht : newStringUtf s = some t) : encode t = s.cString := by
  have h0 := zero_not_mem_cString s
  obtain ⟨t', ht'⟩ := exists_encode_eq (Str.isUtf8_cString h) h0 (lt_of_decode ht)
  have hsome : newStringUtf s = some t' := by rw [newStringUtf, ← ht', decode_encode_eq]
  rw [Option.some.inj (ht.symm.trans hsome), ht']

/-! ## Registering a module -/

theorem getStringUtfChars_eq_ok {s : Option JString} {t : Str} :
    getStringUtfChars s = .ok t ↔ s.map encode = some t := by
  cases s with
  | none => simp [getStringUtfChars]
  | some s => rw [getStringUtfChars_some, Except.ok.injEq, Option.map_some, Option.some.injEq]

theorem isText_iff {s : Option JString} :
    IsText s ↔ ∃ t : Str, s.map encode = some t ∧ t.isUtf8 = true := by
  constructor
  · rintro ⟨js, rfl, hplain⟩
    exact ⟨encode js, rfl, isUtf8_encode.2 hplain⟩
  · rintro ⟨t, ht, hutf8⟩
    obtain ⟨js, rfl, rfl⟩ := Option.map_eq_some_iff.1 ht
    exact ⟨js, rfl, isUtf8_encode.1 hutf8⟩

/-- The objects whose references are not null are converted, one after the other. -/
theorem JniGlue.jniPropsToVec_eq_ok {l : List (Option JavaProperty)} {ps : List ModuleProperty} :
    jniPropsToVec l = .ok ps ↔
      l.reduceOption.map (fun p => (p.type, p.name.map encode, p.value.map encode)) =
        ps.map fun p => (p.type, some p.name, some p.defaultValue) := by
  induction l generalizing ps with
  | nil =>
    rw [jniPropsToVec, Except.ok.injEq, List.reduceOption_nil, List.map_nil, eq_comm,
      eq_comm (a := []), List.map_eq_nil_iff]
  | cons p l ih =>
    cases p with
    | none => exact ih
    | some p =>
      rw [List.reduceOption_cons_of_some, List.map_cons]
      constructor
      · intro h
        rw [jniPropsToVec] at h
        obtain ⟨name, hname, h⟩ := bind_eq_ok.1 h
        obtain ⟨value, hvalue, h⟩ := bind_eq_ok.1 h
        obtain ⟨rest, hrest, h⟩ := bind_eq_ok.1 h
        cases h
        rw [List.map_cons, ih.1 hrest, getStringUtfChars_eq_ok.1 hname,
          getStringUtfChars_eq_ok.1 hvalue]
      · intro h
        cases ps with
        | nil => cases h
        | cons q ps =>
          rw [List.map_cons, List.cons.injEq, Prod.mk.injEq, Prod.mk.injEq] at h
          obtain ⟨⟨htype, hname, hvalue⟩, hrest⟩ := h
          rw [jniPropsToVec, getStringUtfChars_eq_ok.2 hname, getStringUtfChars_eq_ok.2 hvalue,
            ih.2 hrest, bind_ok, bind_ok, bind_ok, htype]
          rfl

/-- All properties are converted if all strings are there. -/
theorem JniGlue.exists_jniPropsToVec {l : List (Option JavaProperty)}
    (h : ∀ p ∈ l.reduceOption, IsText p.name ∧ IsText p.value) :
    ∃ ps, jniPropsToVec l = .ok ps := by
  induction l with
  | nil => exact ⟨[], rfl⟩
  | cons p l ih =>
    cases p with
    | none => exact ih h
    | some p =>
      rw [List.reduceOption_cons_of_some, List.forall_mem_cons] at h
      obtain ⟨⟨hname, hvalue⟩, hrest⟩ := h
      obtain ⟨name, hname, -⟩ := isText_iff.1 hname
      obtain ⟨value, hvalue, -⟩ := isText_iff.1 hvalue
      obtain ⟨ps, hps⟩ := ih hrest
      refine ⟨⟨p.type, name, value⟩ :: ps, ?_⟩
      rw [jniPropsToVec, getStringUtfChars_eq_ok.2 hname, getStringUtfChars_eq_ok.2 hvalue, hps]
      rfl

/-- What a Java application registers can be announced if and only if all its strings are
    text. -/
theorem JniLib.registerModule_iff {name : Option JString}
    {properties : Option (List (Option JavaProperty))} {callback : Callback} {id : Int32} :
    (∃ (m : Module) (t : Text), JniLib.registerModule name properties callback =
        .ok (.registerModule m.name m.properties (some callback)) ∧
      createModuleAdded { m with id } = .ok t) ↔
    IsText name ∧ ∀ p ∈ (properties.getD []).reduceOption, IsText p.name ∧ IsText p.value := by
  -- The strings of a module registered are those of the objects.
  have hutf8 : ∀ {cname : Str} {ps : List ModuleProperty}, name.map encode = some cname →
      JniGlue.jniPropsToVec (properties.getD []) = .ok ps →
      ((⟨id, cname, ps.map SacsWrapperNoLib.toProperty, some callback⟩ : Module).IsUtf8 ↔
        IsText name ∧ ∀ p ∈ (properties.getD []).reduceOption, IsText p.name ∧ IsText p.value) := by
    intro cname ps hname hps
    have hall : ∀ (P : ModuleProperty.Type × Option Str × Option Str → Prop),
        (∀ p ∈ (properties.getD []).reduceOption, P (p.type, p.name.map encode,
          p.value.map encode)) ↔ ∀ p ∈ ps, P (p.type, some p.name, some p.defaultValue) := by
      intro P
      have := congrArg (fun l => ∀ x ∈ l, P x) (JniGlue.jniPropsToVec_eq_ok.1 hps)
      rwa [List.forall_mem_map, List.forall_mem_map, eq_iff_iff] at this
    have hprops := hall fun x => (∃ t, x.2.1 = some t ∧ t.isUtf8 = true) ∧
      ∃ t, x.2.2 = some t ∧ t.isUtf8 = true
    simp only [← isText_iff, Option.some.injEq, exists_eq_left'] at hprops
    have hcname : IsText name ↔ cname.isUtf8 = true := by
      rw [isText_iff, hname]
      simp
    rw [hprops, hcname]
    refine ⟨fun h => ⟨h.name, List.forall_mem_map.1 h.properties⟩, fun h => ⟨h.1, ?_⟩⟩
    exact List.forall_mem_map.2 h.2
  constructor
  · rintro ⟨m, t, hm, ht⟩
    rw [JniLib.registerModule] at hm
    obtain ⟨cname, hname, hm⟩ := bind_eq_ok.1 hm
    obtain ⟨ps, hps, hm⟩ := bind_eq_ok.1 hm
    rw [pure_eq_ok, Except.ok.injEq, SacsWrapperNoLib.registerModule,
      Action.registerModule.injEq] at hm
    refine (hutf8 (getStringUtfChars_eq_ok.1 hname) hps).1 ?_
    have hset := exists_createModuleAdded.1 ⟨t, ht⟩
    exact ⟨hm.1 ▸ hset.name, hm.2.1 ▸ hset.properties⟩
  · rintro ⟨hname, hps⟩
    obtain ⟨cname, hcname, -⟩ := isText_iff.1 hname
    obtain ⟨ps, hvec⟩ := JniGlue.exists_jniPropsToVec hps
    obtain ⟨t, ht⟩ := exists_createModuleAdded.2 ((hutf8 hcname hvec).2 ⟨hname, hps⟩)
    refine ⟨⟨id, cname, ps.map SacsWrapperNoLib.toProperty, some callback⟩, t, ?_, ht⟩
    rw [JniLib.registerModule, getStringUtfChars_eq_ok.2 hcname, hvec]
    rfl

/-! ## Updating -/

namespace JniGlue

/-- No reference is null. -/
theorem exists_map_some {l : List (Option JavaUpdate)} {ps : Updates}
    (h : jniUpdatePropsToVec l = .ok ps) : ∃ us : List JavaUpdate, l = us.map some := by
  induction l generalizing ps with
  | nil => exact ⟨[], rfl⟩
  | cons u l ih =>
    cases u with
    | none => cases h
    | some u =>
      rw [jniUpdatePropsToVec] at h
      obtain ⟨value, -, h'⟩ := bind_eq_ok.1 h
      obtain ⟨rest, hrest, -⟩ := bind_eq_ok.1 h'
      obtain ⟨us, rfl⟩ := ih hrest
      exact ⟨u :: us, rfl⟩

theorem jniUpdatePropsToVec_eq_ok {us : List JavaUpdate} {ps : Updates} :
    jniUpdatePropsToVec (us.map some) = .ok ps ↔
      us.map (fun u => (u.id, u.value.map encode)) = ps.map fun u => (u.1, some u.2) := by
  induction us generalizing ps with
  | nil =>
    rw [List.map_nil, jniUpdatePropsToVec, Except.ok.injEq, List.map_nil, eq_comm,
      eq_comm (a := []), List.map_eq_nil_iff]
  | cons u us ih =>
    rw [List.map_cons, List.map_cons]
    constructor
    · intro h
      rw [jniUpdatePropsToVec] at h
      obtain ⟨value, hvalue, h⟩ := bind_eq_ok.1 h
      obtain ⟨rest, hrest, h⟩ := bind_eq_ok.1 h
      cases h
      rw [List.map_cons, ih.1 hrest, getStringUtfChars_eq_ok.1 hvalue]
    · intro h
      cases ps with
      | nil => cases h
      | cons p ps =>
        rw [List.map_cons, List.cons.injEq, Prod.mk.injEq] at h
        obtain ⟨⟨hid, hvalue⟩, hrest⟩ := h
        rw [jniUpdatePropsToVec, getStringUtfChars_eq_ok.2 hvalue, ih.2 hrest, bind_ok, bind_ok,
          hid]
        rfl

theorem exists_jniUpdatePropsToVec {us : List JavaUpdate} (h : ∀ u ∈ us, IsText u.value) :
    ∃ ps, jniUpdatePropsToVec (us.map some) = .ok ps := by
  induction us with
  | nil => exact ⟨[], rfl⟩
  | cons u us ih =>
    obtain ⟨hvalue, hrest⟩ := List.forall_mem_cons.1 h
    obtain ⟨value, hvalue, -⟩ := isText_iff.1 hvalue
    obtain ⟨ps, hps⟩ := ih hrest
    refine ⟨(u.id, value) :: ps, ?_⟩
    rw [List.map_cons, jniUpdatePropsToVec, getStringUtfChars_eq_ok.2 hvalue, hps]
    rfl

theorem javaUpdates_cons {u : Int32 × Str} {ps : Updates} {us : List JavaUpdate} :
    javaUpdates (u :: ps) = some us ↔ ∃ value us', newStringUtf u.2 = some value ∧
      javaUpdates ps = some us' ∧ us = ⟨u.1, some value⟩ :: us' := by
  rw [javaUpdates, List.mapM_cons]
  cases newStringUtf u.2 with
  | none => simp
  | some value =>
    rw [← javaUpdates]
    cases javaUpdates ps with
    | none => simp
    | some us' => simp [eq_comm]

/-- Java gets back the updates it has made. -/
theorem javaUpdates_of_jniUpdatePropsToVec {us : List JavaUpdate} {ps : Updates}
    (h : jniUpdatePropsToVec (us.map some) = .ok ps) : javaUpdates ps = some us := by
  have h := jniUpdatePropsToVec_eq_ok.1 h
  induction ps generalizing us with
  | nil =>
    rw [List.map_nil, List.map_eq_nil_iff] at h
    rw [h]
    rfl
  | cons p ps ih =>
    cases us with
    | nil => cases h
    | cons u us =>
      rw [List.map_cons, List.map_cons, List.cons.injEq, Prod.mk.injEq] at h
      obtain ⟨⟨hid, hvalue⟩, hrest⟩ := h
      obtain ⟨js, hjs, hencode⟩ := Option.map_eq_some_iff.1 hvalue
      refine javaUpdates_cons.2 ⟨js, us, ?_, ih (jniUpdatePropsToVec_eq_ok.2 hrest) hrest, ?_⟩
      · rw [← hencode, newStringUtf_encode]
      · rw [← hid, ← hjs]

/-- And its updates are those it was given, up to the first NUL character of each. -/
theorem jniUpdatePropsToVec_of_javaUpdates {us : List JavaUpdate} {ps : Updates}
    (hps : Announceable ps) (h : javaUpdates ps = some us) :
    jniUpdatePropsToVec (us.map some) = .ok (ps.map fun u => (u.1, u.2.cString)) := by
  induction ps generalizing us with
  | nil =>
    cases h
    rfl
  | cons u ps ih =>
    obtain ⟨js, us, hjs, hus, rfl⟩ := javaUpdates_cons.1 h
    have hutf8 := List.forall_mem_cons.1 hps
    rw [List.map_cons, jniUpdatePropsToVec, getStringUtfChars_some, ih hutf8.2 hus,
      encode_of_newStringUtf hutf8.1 hjs]
    rfl

/-- There are no updates for Java if it cannot make a string of a value. -/
theorem exists_javaUpdates {ps : Updates} (hps : Announceable ps) :
    (∃ us, javaUpdates ps = some us) ↔ ∀ u ∈ ps, ∀ b ∈ u.2.cString, b.toNat < 0xF0 := by
  induction ps with
  | nil => exact iff_of_true ⟨[], rfl⟩ (by simp)
  | cons u ps ih =>
    have hutf8 := List.forall_mem_cons.1 hps
    rw [List.forall_mem_cons, ← ih hutf8.2, ← newStringUtf_eq_some hutf8.1]
    constructor
    · rintro ⟨us, hus⟩
      obtain ⟨js, us', hjs, hus', -⟩ := javaUpdates_cons.1 hus
      exact ⟨⟨js, hjs⟩, us', hus'⟩
    · rintro ⟨⟨js, hjs⟩, us', hus'⟩
      exact ⟨_, javaUpdates_cons.2 ⟨js, us', hjs, hus', rfl⟩⟩

end JniGlue

/-- What a Java application saves can be announced if and only if all its strings are text. -/
theorem JniLib.updateProperties_iff {moduleId : Int32}
    {properties : Option (List (Option JavaUpdate))} :
    (∃ ps t, JniLib.updateProperties moduleId properties = .ok (.updateProperties moduleId ps) ∧
      createPropertyUpdated moduleId ps = .ok t) ↔
    ∃ us, properties = some (List.map some us) ∧ ∀ u ∈ us, IsText u.value := by
  -- The values saved are those of the objects.
  have hutf8 : ∀ {us : List JavaUpdate} {ps : Updates},
      JniGlue.jniUpdatePropsToVec (us.map some) = .ok ps →
      (Announceable ps ↔ ∀ u ∈ us, IsText u.value) := by
    intro us ps h
    have hall := congrArg (fun l => ∀ x ∈ l, ∃ t : Str, x.2 = some t ∧ t.isUtf8 = true)
      (JniGlue.jniUpdatePropsToVec_eq_ok.1 h)
    rw [List.forall_mem_map, List.forall_mem_map, eq_iff_iff] at hall
    simp only [← isText_iff, Option.some.injEq, exists_eq_left'] at hall
    exact hall.symm
  constructor
  · rintro ⟨ps, t, hps, ht⟩
    cases properties with
    | none => cases hps
    | some l =>
      rw [JniLib.updateProperties] at hps
      obtain ⟨ps', hvec, hps'⟩ := bind_eq_ok.1 hps
      rw [pure_eq_ok, Except.ok.injEq, SacsWrapperNoLib.updateProperties,
        Action.updateProperties.injEq] at hps'
      obtain ⟨us, rfl⟩ := JniGlue.exists_map_some hvec
      exact ⟨us, rfl, (hutf8 hvec).1 (hps'.2 ▸ createPropertyUpdated_eq_ok_iff.1 ⟨t, ht⟩)⟩
  · rintro ⟨us, rfl, hus⟩
    obtain ⟨ps, hps⟩ := JniGlue.exists_jniUpdatePropsToVec hus
    obtain ⟨t, ht⟩ := createPropertyUpdated_eq_ok_iff.2 ((hutf8 hps).2 hus)
    refine ⟨ps, t, ?_, ht⟩
    rw [JniLib.updateProperties, hps]
    rfl

/-- Between Java and the module manager, what is text gets through in both directions, and
    nothing else can be announced, or handed to Java. -/
theorem java_roundTrip :
    (∀ name properties callback id,
      (∃ (m : Module) (t : Text), JniLib.registerModule name properties callback =
          .ok (.registerModule m.name m.properties (some callback)) ∧
        createModuleAdded { m with id } = .ok t) ↔
      IsText name ∧ ∀ p ∈ (properties.getD []).reduceOption, IsText p.name ∧ IsText p.value) ∧
    (∀ moduleId properties,
      (∃ ps t, JniLib.updateProperties moduleId properties = .ok (.updateProperties moduleId ps) ∧
        createPropertyUpdated moduleId ps = .ok t) ↔
      ∃ us, properties = some (List.map some us) ∧ ∀ u ∈ us, IsText u.value) ∧
    (∀ moduleId us ps, JniLib.updateProperties moduleId (some (us.map some)) =
        .ok (.updateProperties moduleId ps) → JniGlue.javaUpdates ps = some us) ∧
    ∀ ps, Announceable ps →
      ((∃ us, JniGlue.javaUpdates ps = some us) ↔
        ∀ u ∈ ps, ∀ b ∈ u.2.cString, b.toNat < 0xF0) ∧
      ∀ moduleId us, JniGlue.javaUpdates ps = some us →
        JniLib.updateProperties moduleId (some (us.map some)) =
          .ok (.updateProperties moduleId (ps.map fun u => (u.1, u.2.cString))) := by
  refine ⟨fun _ _ _ _ => JniLib.registerModule_iff, fun _ _ => JniLib.updateProperties_iff,
    fun moduleId us ps h => ?_, fun ps hps => ⟨JniGlue.exists_javaUpdates hps,
    fun moduleId us hus => ?_⟩⟩
  · rw [JniLib.updateProperties] at h
    obtain ⟨ps', hvec, h⟩ := bind_eq_ok.1 h
    cases h
    exact JniGlue.javaUpdates_of_jniUpdatePropsToVec hvec
  · rw [JniLib.updateProperties, JniGlue.jniUpdatePropsToVec_of_javaUpdates hps hus]
    rfl

/-- An umlaut comes back, and a character of four bytes does not get to Java. -/
theorem java_roundTrip_umlaut :
    JniGlue.javaUpdates [(0, [0xC3, 0xA4])] = some [⟨0, some [0xE4]⟩] ∧
    ¬∃ us, JniGlue.javaUpdates [(0, [0xF0, 0x9F, 0x98, 0x80])] = some us := by
  refine ⟨java_roundTrip.2.2.1 0 [⟨0, some [0xE4]⟩] [(0, [0xC3, 0xA4])] rfl, fun h => ?_⟩
  have hlt := (java_roundTrip.2.2.2 [(0, [0xF0, 0x9F, 0x98, 0x80])] (by decide)).1.1 h
  exact absurd (hlt _ List.mem_cons_self 0xF0 (by decide)) (by decide)

end Sacs
