import Mathlib.Data.List.Basic

/-!
# Two replicas of a value

A value kept at two ends, a host and a peer, which both write it and tell each other
(`Replicas.Step`). Writes are told without versions: each end stores its own writes and
those it is told of, in the order in which they come to it.

* `Replicas.Agree`: both ends have the same value once everything on its way is stored.
* A write is *crossed* (`Replicas.Crosses`) if another one is on its way in the opposite
  direction. As long as none is, the ends agree, and one that is not makes them agree
  again (`Step.agree`).
-/

@[ext] structure Replicas (V W : Type*) where
  /-- What the host has stored. -/
  host : V
  /-- The writes of the peer that the host has not stored yet. -/
  up : List W
  /-- What the peer has stored. -/
  peer : V
  /-- The writes that have come to the peer, its own among them, to be stored. -/
  inbox : List W
  /-- The writes of the host on their way to the peer. -/
  down : List W

namespace Replicas

variable {V W : Type*}

/-- The writes that are made by a step. -/
inductive Label (W : Type*)
  | silent
  /-- The peer writes. -/
  | write (ws : List W)
  /-- The host writes. -/
  | edit (ws : List W)
  /-- One end writes, and the other is not told. -/
  | hush (ws : List W)

/-- The writes made. -/
def Label.writes : Label W → List W
  | .silent => []
  | .write ws | .edit ws | .hush ws => ws

/-- The steps, where `f` stores a write. -/
inductive Step (f : V → W → V) (s : Replicas V W) : Label W → Replicas V W → Prop
  /-- The host stores writes of the peer. -/
  | store {ws us : List W} :
      s.up = ws ++ us → Step f s .silent { s with host := ws.foldl f s.host, up := us }
  /-- The peer stores writes. -/
  | save {ws us : List W} :
      s.inbox = ws ++ us → Step f s .silent { s with peer := ws.foldl f s.peer, inbox := us }
  /-- Writes of the host come to the peer. -/
  | read {ws us : List W} :
      s.down = ws ++ us → Step f s .silent { s with inbox := s.inbox ++ ws, down := us }
  /-- The peer writes. -/
  | write (ws : List W) :
      Step f s (.write ws) { s with up := s.up ++ ws, inbox := s.inbox ++ ws }
  /-- The host writes, and tells the peer. -/
  | edit (ws : List W) :
      Step f s (.edit ws) { s with host := ws.foldl f s.host, down := s.down ++ ws }
  /-- The peer writes, and does not tell the host. -/
  | keep (ws : List W) : Step f s (.hush ws) { s with inbox := s.inbox ++ ws }
  /-- The host writes, and does not tell the peer. -/
  | hide (ws : List W) : Step f s (.hush ws) { s with host := ws.foldl f s.host }

variable (f : V → W → V)

/-- The write changes nothing. -/
def Ignored (w : W) : Prop := ∀ v, f v w = v

/-- What is there before the write does not matter after it. -/
def Replaces (w : W) : Prop := ∀ v v', f v w = f v' w

/-- Both ends will have the same value, unless there are more writes. -/
def Agree (s : Replicas V W) : Prop := s.up.foldl f s.host = (s.inbox ++ s.down).foldl f s.peer

/-- The step makes a write. -/
def Label.Writes (l : Label W) : Prop := ∃ w ∈ l.writes, ¬Ignored f w

/-- A write is on its way in the opposite direction, or the other end is not told. -/
def Crosses (s : Replicas V W) : Label W → Prop
  | .silent => False
  | .write _ => ∃ w ∈ s.down, ¬Ignored f w
  | .edit _ => ∃ w ∈ s.up, ¬Ignored f w
  | .hush _ => True

variable {f}

theorem foldl_eq_of_ignored {ws : List W} (h : ∀ w ∈ ws, Ignored f w) (v : V) :
    ws.foldl f v = v := by
  induction ws with
  | nil => rfl
  | cons w ws ih =>
    rw [List.foldl_cons, h w List.mem_cons_self]
    exact ih fun w hw => h w (List.mem_cons_of_mem _ hw)

/-- After a write that replaces the value, it does not matter what was there before. -/
theorem foldl_eq_of_replaces {ws : List W} {w : W} (hw : w ∈ ws) (h : Replaces f w) (v v' : V) :
    ws.foldl f v = ws.foldl f v' := by
  obtain ⟨before, after, rfl⟩ := List.append_of_mem hw
  rw [List.foldl_append, List.foldl_append, List.foldl_cons, List.foldl_cons, h]

variable {s s' : Replicas V W} {l : Label W}

theorem Step.refl : Step f s .silent s := @Step.store _ _ f s [] s.up rfl

theorem Step.of_eq {t t' : Replicas V W} (h : Step f s l t) (ht : t' = t) : Step f s l t' := by
  rwa [ht]

/-- The ends agree after a step if they did before and it writes nothing, or if it does
    and this is not crossed. -/
theorem Step.agree (hf : ∀ w, Ignored f w ∨ Replaces f w) (h : Step f s l s')
    (hs : ¬l.Writes f → s.Agree f) (hl : l.Writes f → ¬s.Crosses f l) : s'.Agree f := by
  have hignored : ∀ {ws : List W}, (¬∃ w ∈ ws, ¬Ignored f w) → ∀ v, ws.foldl f v = v :=
    fun hws => foldl_eq_of_ignored fun w hw => by_contra fun h => hws ⟨w, hw, h⟩
  have hreplaces : ∀ {ws : List W}, (∃ w ∈ ws, ¬Ignored f w) →
      ∀ v v', ws.foldl f v = ws.foldl f v' := by
    intro ws ⟨w, hw, hne⟩
    exact foldl_eq_of_replaces hw ((hf w).resolve_left hne)
  have hsilent : ¬(Label.silent : Label W).Writes f := fun ⟨_, hw, _⟩ => List.not_mem_nil hw
  cases h with
  | store hup =>
    have hagree := hs hsilent
    rwa [Agree, hup, List.foldl_append] at hagree
  | save hinbox =>
    have hagree := hs hsilent
    rwa [Agree, hinbox, List.append_assoc, List.foldl_append] at hagree
  | read hdown =>
    have hagree := hs hsilent
    rwa [Agree, hdown, ← List.append_assoc] at hagree
  | write ws =>
    simp only [Agree, List.foldl_append]
    by_cases hw : Label.Writes f (.write ws)
    · -- Nothing that the host has written comes after it.
      rw [hignored (hl hw)]
      exact hreplaces hw _ _
    · have hnone : ∀ v, ws.foldl f v = v := hignored hw
      rw [hnone, hnone, ← List.foldl_append]
      exact hs hw
  | edit ws =>
    simp only [Agree, List.foldl_append]
    by_cases hw : Label.Writes f (.edit ws)
    · -- Nothing that the peer has written comes after it.
      rw [hignored (hl hw)]
      exact hreplaces hw _ _
    · have hnone : ∀ v, ws.foldl f v = v := hignored hw
      rw [hnone, hnone, ← List.foldl_append]
      exact hs hw
  | keep ws =>
    have hw : ¬Label.Writes f (.hush ws) := fun hw => hl hw trivial
    have hnone : ∀ v, ws.foldl f v = v := hignored hw
    have hagree := hs hw
    rw [Agree, List.foldl_append] at hagree
    simpa only [Agree, List.foldl_append, hnone] using hagree
  | hide ws =>
    have hw : ¬Label.Writes f (.hush ws) := fun hw => hl hw trivial
    have hnone : ∀ v, ws.foldl f v = v := hignored hw
    simp only [Agree, hnone]
    exact hs hw

end Replicas
