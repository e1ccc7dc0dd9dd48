import Mathlib.Data.List.Basic
import Mathlib.Tactic.SplitIfs

/-!
# Modified UTF-8

A string of 16-bit code units as bytes: every unit for itself, in one to three bytes. It
differs from UTF-8 in two points. A unit `0` takes two bytes, so that no byte is zero
(`zero_not_mem_encode`), and a pair of surrogates takes three bytes each.

Reading is the inverse of writing (`decode_encode_eq`); the bytes need not be the shortest ones
of their unit.
-/

namespace ModifiedUtf8

/-- The bytes of a unit. -/
def encodeUnit (c : UInt16) : List UInt8 :=
  let n := c.toNat
  if n ≠ 0 ∧ n < 0x80 then [.ofNat n]
  else if n < 0x800 then [.ofNat (0xC0 + n / 64), .ofNat (0x80 + n % 64)]
  else [.ofNat (0xE0 + n / 4096), .ofNat (0x80 + n / 64 % 64), .ofNat (0x80 + n % 64)]

def encode (s : List UInt16) : List UInt8 := s.flatMap encodeUnit

/-- The byte continues a unit. -/
def isCont (b : UInt8) : Bool := 0x80 ≤ b ∧ b < 0xC0

def decode : List UInt8 → Option (List UInt16)
  | [] => some []
  | a :: s =>
    if a = 0 then none
    else if a < 0x80 then (UInt16.ofNat a.toNat :: ·) <$> decode s
    else if a < 0xC0 then none
    else if a < 0xE0 then
      match s with
      | b :: s =>
        if isCont b then
          (UInt16.ofNat ((a.toNat - 0xC0) * 64 + (b.toNat - 0x80)) :: ·) <$> decode s
        else none
      | [] => none
    else if a < 0xF0 then
      match s with
      | b :: c :: s =>
        if isCont b ∧ isCont c then
          (UInt16.ofNat ((a.toNat - 0xE0) * 4096 + (b.toNat - 0x80) * 64 + (c.toNat - 0x80)) :: ·)
            <$> decode s
        else none
      | _ => none
    else none

theorem encode_cons (c : UInt16) (s : List UInt16) : encode (c :: s) = encodeUnit c ++ encode s :=
  List.flatMap_cons ..

theorem decode_one {a : UInt8} {s : List UInt8} (h0 : a.toNat ≠ 0) (h : a.toNat < 0x80) :
    decode (a :: s) = (UInt16.ofNat a.toNat :: ·) <$> decode s := by
  have hne : a ≠ 0 := fun he => h0 (by rw [he]; rfl)
  have hlt : a < 0x80 := UInt8.lt_iff_toNat_lt.2 h
  conv_lhs => unfold decode
  simp only [if_neg hne, if_pos hlt]

theorem isCont_iff {b : UInt8} : isCont b = true ↔ 0x80 ≤ b.toNat ∧ b.toNat < 0xC0 := by
  rw [isCont, decide_eq_true_eq, UInt8.le_iff_toNat_le, UInt8.lt_iff_toNat_lt]
  rfl

theorem decode_two {a b : UInt8} {s : List UInt8} (ha : 0xC0 ≤ a.toNat ∧ a.toNat < 0xE0)
    (hb : 0x80 ≤ b.toNat ∧ b.toNat < 0xC0) :
    decode (a :: b :: s) =
      (UInt16.ofNat ((a.toNat - 0xC0) * 64 + (b.toNat - 0x80)) :: ·) <$> decode s := by
  have hne : a ≠ 0 := fun he => by simp [he] at ha
  have h₁ : ¬a < 0x80 := fun h => by have := UInt8.lt_iff_toNat_lt.1 h; simp at this; omega
  have h₂ : ¬a < 0xC0 := fun h => by have := UInt8.lt_iff_toNat_lt.1 h; simp at this; omega
  have h₃ : a < 0xE0 := UInt8.lt_iff_toNat_lt.2 ha.2
  conv_lhs => unfold decode
  simp only [if_neg hne, if_neg h₁, if_neg h₂, if_pos h₃, if_pos (isCont_iff.2 hb)]

theorem decode_three {a b c : UInt8} {s : List UInt8} (ha : 0xE0 ≤ a.toNat ∧ a.toNat < 0xF0)
    (hb : 0x80 ≤ b.toNat ∧ b.toNat < 0xC0) (hc : 0x80 ≤ c.toNat ∧ c.toNat < 0xC0) :
    decode (a :: b :: c :: s) =
      (UInt16.ofNat ((a.toNat - 0xE0) * 4096 + (b.toNat - 0x80) * 64 + (c.toNat - 0x80)) :: ·)
        <$> decode s := by
  have hne : a ≠ 0 := fun he => by simp [he] at ha
  have h₁ : ¬a < 0x80 := fun h => by have := UInt8.lt_iff_toNat_lt.1 h; simp at this; omega
  have h₂ : ¬a < 0xC0 := fun h => by have := UInt8.lt_iff_toNat_lt.1 h; simp at this; omega
  have h₃ : ¬a < 0xE0 := fun h => by have := UInt8.lt_iff_toNat_lt.1 h; simp at this; omega
  have h₄ : a < 0xF0 := UInt8.lt_iff_toNat_lt.2 ha.2
  have hcont : isCont b = true ∧ isCont c = true := ⟨isCont_iff.2 hb, isCont_iff.2 hc⟩
  conv_lhs => unfold decode
  simp only [if_neg hne, if_neg h₁, if_neg h₂, if_neg h₃, if_pos h₄, if_pos hcont]

theorem toNat_ofNat {n : ℕ} (h : n < 256) : (UInt8.ofNat n).toNat = n := by
  rw [UInt8.toNat_ofNat', Nat.mod_eq_of_lt h]

theorem decode_encodeUnit (c : UInt16) (s : List UInt8) :
    decode (encodeUnit c ++ s) = (c :: ·) <$> decode s := by
  have hc : c.toNat < 65536 := c.toNat_lt
  have hunit : ∀ {n : ℕ}, n = c.toNat → UInt16.ofNat n = c := fun h => by
    rw [h, UInt16.ofNat_toNat]
  rw [encodeUnit]
  split_ifs with h₁ h₂
  · have ha : (UInt8.ofNat c.toNat).toNat = c.toNat := toNat_ofNat (by omega)
    refine (decode_one (by omega) (by omega)).trans ?_
    rw [ha, hunit rfl]
    rfl
  · have ha : (UInt8.ofNat (0xC0 + c.toNat / 64)).toNat = 0xC0 + c.toNat / 64 :=
      toNat_ofNat (by omega)
    have hb : (UInt8.ofNat (0x80 + c.toNat % 64)).toNat = 0x80 + c.toNat % 64 :=
      toNat_ofNat (by omega)
    refine (decode_two (by omega) (by omega)).trans ?_
    rw [ha, hb, hunit (by omega)]
    rfl
  · have ha : (UInt8.ofNat (0xE0 + c.toNat / 4096)).toNat = 0xE0 + c.toNat / 4096 :=
      toNat_ofNat (by omega)
    have hb : (UInt8.ofNat (0x80 + c.toNat / 64 % 64)).toNat = 0x80 + c.toNat / 64 % 64 :=
      toNat_ofNat (by omega)
    have hd : (UInt8.ofNat (0x80 + c.toNat % 64)).toNat = 0x80 + c.toNat % 64 :=
      toNat_ofNat (by omega)
    refine (decode_three (by omega) (by omega) (by omega)).trans ?_
    rw [ha, hb, hd, hunit (by omega)]
    rfl

theorem decode_encode_eq (s : List UInt16) : decode (encode s) = some s := by
  induction s with
  | nil => rw [encode, List.flatMap_nil, decode]
  | cons c s ih => rw [encode_cons, decode_encodeUnit, ih, Option.map_eq_map, Option.map_some]

/-- There is no zero byte. -/
theorem zero_not_mem_encode (s : List UInt16) : 0 ∉ encode s := by
  have hne : ∀ {n : ℕ}, n ≠ 0 → n < 256 → (0 : UInt8) ≠ .ofNat n := by
    intro n h0 h he
    have := toNat_ofNat h
    rw [← he] at this
    exact h0 this.symm
  intro h
  obtain ⟨c, -, hc⟩ := List.mem_flatMap.1 h
  have hlt : c.toNat < 65536 := c.toNat_lt
  rw [encodeUnit] at hc
  split_ifs at hc with h₁ h₂
  · exact hne h₁.1 (by omega) (List.mem_singleton.1 hc)
  · rcases List.mem_cons.1 hc with hc | hc
    · exact hne (by omega) (by omega) hc
    · exact hne (by omega) (by omega) (List.mem_singleton.1 hc)
  · rcases List.mem_cons.1 hc with hc | hc
    · exact hne (by omega) (by omega) hc
    · rcases List.mem_cons.1 hc with hc | hc
      · exact hne (by omega) (by omega) hc
      · exact hne (by omega) (by omega) (List.mem_singleton.1 hc)

/-- The first sequence of what can be read. -/
theorem decode_cons {a : UInt8} {s : List UInt8} {t : List UInt16} (h : decode (a :: s) = some t) :
    a.toNat < 0x80 ∧ (∃ t', decode s = some t') ∨
    a.toNat < 0xE0 ∧ (∃ b s' t', s = b :: s' ∧ b.toNat < 0xC0 ∧ decode s' = some t') ∨
    a.toNat < 0xF0 ∧ ∃ b c s' t', s = b :: c :: s' ∧ b.toNat < 0xC0 ∧ c.toNat < 0xC0 ∧
      decode s' = some t' := by
  unfold decode at h
  split_ifs at h with h₀ h₁ h₂ h₃ h₄
  · obtain ⟨t', ht', -⟩ := Option.map_eq_some_iff.1 h
    exact .inl ⟨UInt8.lt_iff_toNat_lt.1 h₁, t', ht'⟩
  · refine .inr (.inl ⟨UInt8.lt_iff_toNat_lt.1 h₃, ?_⟩)
    split at h
    · split_ifs at h with hb
      obtain ⟨t', ht', -⟩ := Option.map_eq_some_iff.1 h
      exact ⟨_, _, t', rfl, (isCont_iff.1 hb).2, ht'⟩
    · cases h
  · refine .inr (.inr ⟨UInt8.lt_iff_toNat_lt.1 h₄, ?_⟩)
    split at h
    · split_ifs at h with hbc
      obtain ⟨t', ht', -⟩ := Option.map_eq_some_iff.1 h
      exact ⟨_, _, _, t', rfl, (isCont_iff.1 hbc.1).2, (isCont_iff.1 hbc.2).2, ht'⟩
    · cases h

/-- No sequence has four bytes. -/
theorem lt_of_decode {s : List UInt8} {t : List UInt16} (h : decode s = some t) :
    ∀ b ∈ s, b.toNat < 0xF0 := by
  induction hn : s.length using Nat.strongRecOn generalizing s t with
  | _ n ih =>
    cases s with
    | nil => simp
    | cons a s =>
      rw [List.length_cons] at hn
      rcases decode_cons h with ⟨ha, t', ht'⟩ | ⟨ha, b, s', t', rfl, hb, ht'⟩ |
        ⟨ha, b, c, s', t', rfl, hb, hc, ht'⟩
      · have hs := ih s.length (by omega) ht' rfl
        exact List.forall_mem_cons.2 ⟨by omega, hs⟩
      · rw [List.length_cons] at hn
        have hs := ih s'.length (by omega) ht' rfl
        exact List.forall_mem_cons.2 ⟨by omega, List.forall_mem_cons.2 ⟨by omega, hs⟩⟩
      · rw [List.length_cons, List.length_cons] at hn
        have hs := ih s'.length (by omega) ht' rfl
        exact List.forall_mem_cons.2 ⟨ha, List.forall_mem_cons.2 ⟨by omega,
          List.forall_mem_cons.2 ⟨by omega, hs⟩⟩⟩

theorem encodeUnit_ofNat {n : ℕ} (h : n < 65536) : encodeUnit (.ofNat n) =
    if n ≠ 0 ∧ n < 0x80 then [.ofNat n]
    else if n < 0x800 then [.ofNat (0xC0 + n / 64), .ofNat (0x80 + n % 64)]
    else [.ofNat (0xE0 + n / 4096), .ofNat (0x80 + n / 64 % 64), .ofNat (0x80 + n % 64)] := by
  rw [encodeUnit, UInt16.toNat_ofNat', Nat.mod_eq_of_lt h]

end ModifiedUtf8
