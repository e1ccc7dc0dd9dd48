import Sacs.Lib.Feed
import Mathlib.Logic.Function.Basic
import Mathlib.Order.Lattice

/-!
# Hubs

A registry that keeps, besides the values of its own application, images of the
values of clients, each of which sends a feed of its changes (`Feed`). Values are
registered and unregistered by jobs, run in order: an image is linked to its
client once the job registering it was run, and unlinked when its job is posted.
Clients come and go; the images of one that goes are unlinked.

* `Hub.Step` says what can happen, `Hub.Inv` what is always true, provided that
  the application drops values of its own only and that clients add no key that
  they have (`Inv.step`).
* Clients are open from when they are accepted to when they are known to be gone
  (`Step.open_iff`).
* The images of a client are always those of the changes read from it
  (`Step.shows`), be they linked or still to be.
* Once no job is left and no client is served, the values are those of the
  application and the images linked (`Inv.module_iff`).
-/

namespace Hub

/-- What is posted: the registration of a value, of the application or of a
    client, or an unregistration. -/
inductive Job (κ σ γ : Type*)
  | register (v : σ) (owner : Option γ)
  | unregister (id : κ)

/-- How far the service of a client is. -/
inductive Pc (κ ρ : Type*)
  | idle
  /-- The registration of its value with this key is posted. -/
  | registering (r : ρ)
  /-- It was registered, and is to be linked. -/
  | registered (r : ρ) (id : κ)
  | closing

/-- What others see of a step. -/
inductive Label (κ ρ σ γ : Type*)
  | silent
  /-- The application drops a value. -/
  | drop (id : κ)
  | accept (c : γ)
  /-- A message of a client is read, a change of its values if it is one. -/
  | read (c : γ) (change : Option (Feed.Change ρ σ))
  | close (c : γ)

end Hub

open Hub

@[ext] structure Hub (κ ρ σ γ : Type*) where
  /-- The next id given. -/
  counter : κ
  module : κ → Option σ
  image : κ → Option (ρ × γ)
  connected : γ → Bool
  pc : γ → Pc κ ρ
  jobs : List (Job κ σ γ)
  /-- All registrations ever made. -/
  registered : List (κ × Option γ × σ)
  /-- What the application has dropped. -/
  dropped : List κ

namespace Hub

variable {κ ρ σ γ : Type*} [LinearOrder κ] [DecidableEq γ]

/-- The value of the client that is registered by the job. -/
def Job.awaited (c : γ) : Job κ σ γ → Option σ
  | .register v (some c') => if c' = c then some v else none
  | _ => none

variable (s : Hub κ ρ σ γ)

/-- The values of the client whose registration is posted. -/
def awaited (c : γ) : List σ := s.jobs.filterMap (Job.awaited c)

/-- What the service of a client is told once its value is registered. -/
def fulfil : Option γ → γ → Pc κ ρ
  | none => s.pc
  | some c => match s.pc c with
    | .registering r => Function.update s.pc c (.registered r s.counter)
    | _ => s.pc

/-- The steps of a hub, where `unknown` stands for no value. -/
inductive Step (unknown : κ) (s : Hub κ ρ σ γ) : Label κ ρ σ γ → Hub κ ρ σ γ → Prop
  | keep : Step unknown s .silent s
  | post (v : σ) : Step unknown s .silent { s with jobs := s.jobs ++ [.register v none] }
  | drop (id : κ) :
      Step unknown s (.drop id)
        { s with dropped := s.dropped ++ [id], jobs := s.jobs ++ [.unregister id] }
  | dropNow (id : κ) :
      Step unknown s (.drop id)
        { s with dropped := s.dropped ++ [id], module := Function.update s.module id none }
  | register {v : σ} {owner : Option γ} {q : List (Job κ σ γ)} {n : κ} :
      s.jobs = .register v owner :: q → s.counter < n →
      Step unknown s .silent { s with
        jobs := q, counter := n, pc := s.fulfil owner
        module := Function.update s.module s.counter (some v)
        registered := s.registered ++ [(s.counter, owner, v)] }
  | unregister {id : κ} {q : List (Job κ σ γ)} :
      s.jobs = .unregister id :: q →
      Step unknown s .silent { s with jobs := q, module := Function.update s.module id none }
  | accept {c : γ} :
      s.connected c = false →
      Step unknown s (.accept c) { s with connected := Function.update s.connected c true }
  | readOther {c : γ} :
      s.connected c = true → s.pc c = .idle → Step unknown s (.read c none) s
  | readAdd {c : γ} {r : ρ} {v : σ} :
      s.connected c = true → s.pc c = .idle →
      Step unknown s (.read c (some (.add r v))) { s with
        jobs := s.jobs ++ [.register v (some c)]
        pc := Function.update s.pc c (.registering r) }
  | readRemove {c : γ} {r : ρ} {id : κ} :
      s.connected c = true → s.pc c = .idle → s.image id = some (r, c) →
      Step unknown s (.read c (some (.remove r))) { s with
        jobs := s.jobs ++ [.unregister id], image := Function.update s.image id none }
  | readUnknown {c : γ} {r : ρ} :
      s.connected c = true → s.pc c = .idle → (∀ id, s.image id ≠ some (r, c)) →
      Step unknown s (.read c (some (.remove r))) { s with
        jobs := s.jobs ++ [.unregister unknown], image := Function.update s.image unknown none }
  | link {c : γ} {r : ρ} {id : κ} :
      s.pc c = .registered r id →
      Step unknown s .silent { s with
        image := Function.update s.image id (some ((s.image id).getD (r, c)))
        pc := Function.update s.pc c .idle }
  | close {c : γ} :
      s.connected c = true → s.pc c = .idle →
      Step unknown s (.close c) { s with pc := Function.update s.pc c .closing }
  | unlink {c : γ} {r : ρ} {id : κ} :
      s.pc c = .closing → s.image id = some (r, c) →
      Step unknown s .silent { s with
        jobs := s.jobs ++ [.unregister id], image := Function.update s.image id none }
  | closed {c : γ} :
      s.pc c = .closing → (∀ id r, s.image id ≠ some (r, c)) →
      Step unknown s .silent { s with
        connected := Function.update s.connected c false, pc := Function.update s.pc c .idle }

/-- The client has an image of the value `v`, with its key `r`, or is about to. -/
def Shows (c : γ) (r : ρ) (v : σ) : Prop :=
  (∃ id, s.module id = some v ∧ (s.image id = some (r, c) ∨ s.pc c = .registered r id)) ∨
    (s.pc c = .registering r ∧ v ∈ s.awaited c)

/-- The application drops what it has registered, and a client adds what it does
    not have. -/
def Allows : Label κ ρ σ γ → Prop
  | .drop id => ∃ v, (id, none, v) ∈ s.registered
  | .read c (some (.add r _)) => ∀ v, ¬s.Shows c r v
  | _ => True

/-- What is always true of a hub. -/
structure Inv (unknown : κ) (s : Hub κ ρ σ γ) : Prop where
  unknown_lt : unknown < s.counter
  lt_id : ∀ {id o v}, (id, o, v) ∈ s.registered → unknown < id
  id_lt : ∀ {id o v}, (id, o, v) ∈ s.registered → id < s.counter
  unique : ∀ {id o v o' v'}, (id, o, v) ∈ s.registered → (id, o', v') ∈ s.registered →
    o = o' ∧ v = v'
  origin : ∀ {id v}, s.module id = some v → ∃ o, (id, o, v) ∈ s.registered
  /-- What the application has registered and not dropped is there. -/
  live : ∀ {id v}, (id, none, v) ∈ s.registered → id ∉ s.dropped → s.module id = some v
  own : ∀ {id}, id ∈ s.dropped → ∃ v, (id, none, v) ∈ s.registered
  gone : ∀ {id}, id ∈ s.dropped → s.module id = none ∨ .unregister id ∈ s.jobs
  /-- What is to be unregistered was dropped, or is an image no longer linked. -/
  posted : ∀ {id}, .unregister id ∈ s.jobs → id < s.counter ∧
    (∀ v, (id, none, v) ∈ s.registered → id ∈ s.dropped) ∧ s.image id = none ∧
      ∀ c r, s.pc c ≠ .registered r id
  linked : ∀ {id r c}, s.image id = some (r, c) →
    s.connected c = true ∧ ∃ v, s.module id = some v ∧ (id, some c, v) ∈ s.registered
  inj : ∀ {id id' x}, s.image id = some x → s.image id' = some x → id = id'
  waits : ∀ {c r}, s.pc c = .registering r →
    s.connected c = true ∧ (∀ id, s.image id ≠ some (r, c)) ∧ ∃ v, s.awaited c = [v]
  served : ∀ {c}, (∀ r, s.pc c ≠ .registering r) → s.awaited c = []
  answered : ∀ {c r id}, s.pc c = .registered r id →
    s.connected c = true ∧ (∀ id, s.image id ≠ some (r, c)) ∧ s.image id = none ∧
      ∃ v, s.module id = some v ∧ (id, some c, v) ∈ s.registered
  leaving : ∀ {c}, s.pc c = .closing → s.connected c = true
  owner : ∀ {id v}, s.module id = some v → (id, none, v) ∈ s.registered ∨
    (∃ x, s.image id = some x) ∨ (∃ c r, s.pc c = .registered r id) ∨ .unregister id ∈ s.jobs

variable {s} {s' : Hub κ ρ σ γ} {unknown : κ}

theorem Step.of_eq {t t' : Hub κ ρ σ γ} {l : Label κ ρ σ γ} (h : Step unknown s l t) (ht : t' = t) :
    Step unknown s l t' := by
  rwa [ht]

omit [LinearOrder κ] in
theorem awaited_append {jobs : List (Job κ σ γ)} (h : s'.jobs = s.jobs ++ jobs) (c : γ) :
    s'.awaited c = s.awaited c ++ jobs.filterMap (Job.awaited c) := by
  rw [awaited, h, List.filterMap_append, awaited]

/-- An id given is none of an image, nor about to be one of another client. -/
theorem Inv.image_eq_none_of_own (hs : Inv unknown s) {id : κ} {v : σ}
    (h : (id, none, v) ∈ s.registered) : s.image id = none ∧ ∀ c r, s.pc c ≠ .registered r id := by
  refine ⟨?_, fun c r hpc => ?_⟩
  · by_contra hne
    obtain ⟨⟨r, c⟩, himg⟩ := Option.ne_none_iff_exists'.1 hne
    obtain ⟨-, v', -, h'⟩ := hs.linked himg
    cases (hs.unique h h').1
  · obtain ⟨-, -, -, v', -, h'⟩ := hs.answered hpc
    cases (hs.unique h h').1

/-- What is not registered yet is nobody's. -/
theorem Inv.fresh (hs : Inv unknown s) {id : κ} (h : s.counter ≤ id) :
    s.module id = none ∧ s.image id = none ∧ ∀ c r, s.pc c ≠ .registered r id := by
  have hnot : ∀ {o v}, (id, o, v) ∉ s.registered := fun h' => absurd (hs.id_lt h') (not_lt.2 h)
  refine ⟨?_, ?_, fun c r hpc => ?_⟩
  · by_contra hne
    obtain ⟨v, hv⟩ := Option.ne_none_iff_exists'.1 hne
    obtain ⟨o, h⟩ := hs.origin hv
    exact hnot h
  · by_contra hne
    obtain ⟨⟨r, c⟩, himg⟩ := Option.ne_none_iff_exists'.1 hne
    obtain ⟨-, v, -, h⟩ := hs.linked himg
    exact hnot h
  · obtain ⟨-, -, -, v, -, h⟩ := hs.answered hpc
    exact hnot h

theorem Inv.image_unknown (hs : Inv unknown s) : s.image unknown = none := by
  by_contra hne
  obtain ⟨⟨r, c⟩, himg⟩ := Option.ne_none_iff_exists'.1 hne
  obtain ⟨-, v, -, h⟩ := hs.linked himg
  exact lt_irrefl _ (hs.lt_id h)

/-! ### The steps -/

theorem Inv.post (hs : Inv unknown s) (v : σ) :
    Inv unknown { s with jobs := s.jobs ++ [.register v none] } := by
  have hmem : ∀ {id}, .unregister id ∈ s.jobs ++ [.register v none] → .unregister id ∈ s.jobs := by
    simp
  have haw : ∀ c, awaited { s with jobs := s.jobs ++ [.register v none] } c = s.awaited c :=
    fun c => (awaited_append rfl c).trans (List.append_nil _)
  exact { hs with
    gone := fun h => (hs.gone h).imp_right (List.mem_append_left _)
    posted := fun h => hs.posted (hmem h)
    waits := fun h => by rw [haw]; exact hs.waits h
    served := fun h => by rw [haw]; exact hs.served h
    owner := fun h => (hs.owner h).imp_right fun h => h.imp_right fun h =>
      h.imp_right (List.mem_append_left _) }

/-- The job of unregistering what is nobody's any more. -/
theorem Inv.drop (hs : Inv unknown s) {id : κ} {v : σ} (hid : (id, none, v) ∈ s.registered) :
    Inv unknown { s with dropped := s.dropped ++ [id], jobs := s.jobs ++ [.unregister id] } := by
  obtain ⟨himage, hpc⟩ := hs.image_eq_none_of_own hid
  have haw : ∀ c, awaited { s with
      dropped := s.dropped ++ [id], jobs := s.jobs ++ [.unregister id] } c = s.awaited c :=
    fun c => (awaited_append rfl c).trans (List.append_nil _)
  exact { hs with
    live := fun h hd => hs.live h fun h' => hd (List.mem_append_left _ h')
    own := fun {id'} h => by
      rcases List.mem_append.1 h with h | h
      · exact hs.own h
      · cases List.mem_singleton.1 h
        exact ⟨v, hid⟩
    gone := fun {id'} h => by
      rcases List.mem_append.1 h with h | h
      · exact (hs.gone h).imp_right (List.mem_append_left _)
      · exact .inr (List.mem_append_right _ (by rw [List.mem_singleton.1 h]; simp))
    posted := fun {id'} h => by
      rcases List.mem_append.1 h with h | h
      · obtain ⟨hlt, hown, h'⟩ := hs.posted h
        exact ⟨hlt, fun v h => List.mem_append_left _ (hown v h), h'⟩
      · cases List.mem_singleton.1 h
        exact ⟨hs.id_lt hid, fun _ _ => by simp, himage, hpc⟩
    waits := fun h => by rw [haw]; exact hs.waits h
    served := fun h => by rw [haw]; exact hs.served h
    owner := fun h => (hs.owner h).imp_right fun h => h.imp_right fun h =>
      h.imp_right (List.mem_append_left _) }

/-- A value that is no image is unregistered, as the application may have asked for
    just now. -/
theorem Inv.erase (hs : Inv unknown s) {id : κ} (himage : s.image id = none)
    (hpc : ∀ c r, s.pc c ≠ .registered r id) {d : List κ}
    (hds : ∀ id' ∈ d, id' = id ∧ ∃ v, (id, none, v) ∈ s.registered)
    (hown : ∀ v, (id, none, v) ∈ s.registered → id ∈ s.dropped ++ d) :
    Inv unknown { s with
      dropped := s.dropped ++ d, module := Function.update s.module id none } := by
  have hupdate : ∀ {id' v}, Function.update s.module id none id' = some v →
      s.module id' = some v := by
    intro id' v h
    rw [Function.update_apply] at h
    split_ifs at h
    exact h
  have hkeep : ∀ {id' x}, s.module id' = x → id' ≠ id → Function.update s.module id none id' = x :=
    fun h hne => by rwa [Function.update_of_ne hne]
  -- The id is no image and no client is answered with it, so only its module changes.
  exact { hs with
    origin := fun h => hs.origin (hupdate h)
    live := fun {id' v} h hd => by
      refine hkeep (hs.live h fun h' => hd (List.mem_append_left _ h')) ?_
      rintro rfl
      exact hd (hown v h)
    own := fun {id'} h => by
      rcases List.mem_append.1 h with h | h
      · exact hs.own h
      · obtain ⟨rfl, h⟩ := hds id' h
        exact h
    gone := fun {id'} h => by
      by_cases he : id' = id
      · subst he
        exact .inl (Function.update_self ..)
      · rcases List.mem_append.1 h with h | h
        · exact (hs.gone h).imp_left fun h => hkeep h he
        · exact absurd (hds id' h).1 he
    posted := fun h => by
      obtain ⟨hlt, hd, h'⟩ := hs.posted h
      exact ⟨hlt, fun v h => List.mem_append_left _ (hd v h), h'⟩
    linked := fun {id'} r c h => by
      obtain ⟨hc, v, hv, hr⟩ := hs.linked h
      refine ⟨hc, v, hkeep hv ?_, hr⟩
      rintro rfl
      exact Option.some_ne_none _ (h.symm.trans himage)
    answered := fun {c r id'} h => by
      obtain ⟨hc, hne, hi, v, hv, hr⟩ := hs.answered h
      refine ⟨hc, hne, hi, v, hkeep hv ?_, hr⟩
      rintro rfl
      exact hpc _ _ h
    owner := fun h => hs.owner (hupdate h) }

/-- The first job is done, an unregistration. -/
theorem Inv.pop (hs : Inv unknown s) {id : κ} {q : List (Job κ σ γ)}
    (hq : s.jobs = .unregister id :: q) (hid : s.module id = none) :
    Inv unknown { s with jobs := q } := by
  have hmem : ∀ {id'}, .unregister id' ∈ s.jobs → id' = id ∨ .unregister id' ∈ q := fun h => by
    rw [hq] at h
    exact (List.mem_cons.1 h).imp_left fun h => by cases h; rfl
  have haw : ∀ c, awaited { s with jobs := q } c = s.awaited c := fun c => by
    rw [awaited, awaited, hq]
    rfl
  exact { hs with
    gone := fun h => (hs.gone h).elim .inl fun h => (hmem h).imp_left fun e =>
      (congrArg s.module e).trans hid
    posted := fun h => hs.posted (hq ▸ List.mem_cons_of_mem _ h)
    waits := fun h => by rw [haw]; exact hs.waits h
    served := fun h => by rw [haw]; exact hs.served h
    owner := fun {id' v} h => (hs.owner h).imp_right fun h' => h'.imp_right fun h' =>
      h'.imp_right fun h' => (hmem h').resolve_left fun e => by rw [e, hid] at h; cases h }

omit [LinearOrder κ] in
theorem awaited_register {v : σ} {owner : Option γ} {q : List (Job κ σ γ)}
    (hq : s.jobs = .register v owner :: q) (c : γ) :
    s.awaited c = (if owner = some c then [v] else []) ++ q.filterMap (Job.awaited c) := by
  rw [awaited, hq, List.filterMap_cons]
  cases owner with
  | none => rfl
  | some c' =>
    rw [Job.awaited]
    by_cases h : c' = c
    · simp [h]
    · simp [h]

omit [LinearOrder κ] in
/-- A registration is that of the client that waits for it, whose service then goes
    on, or it does not matter to the client. -/
theorem fulfil_cases {v : σ} {owner : Option γ} {q : List (Job κ σ γ)}
    (hq : s.jobs = .register v owner :: q) {c : γ}
    (hwaits : ∀ {r}, s.pc c = .registering r → ∃ v, s.awaited c = [v])
    (hidle : (∀ r, s.pc c ≠ .registering r) → s.awaited c = []) :
    (owner = some c ∧ s.awaited c = [v] ∧ q.filterMap (Job.awaited c) = [] ∧
        ∃ r, s.pc c = .registering r ∧ s.fulfil owner c = .registered r s.counter) ∨
      (owner ≠ some c ∧ q.filterMap (Job.awaited c) = s.awaited c ∧ s.fulfil owner c = s.pc c) := by
  have haw := awaited_register hq c
  by_cases ho : owner = some c
  · left
    subst ho
    rw [if_pos rfl] at haw
    by_cases h : ∃ r, s.pc c = .registering r
    · obtain ⟨r, hr⟩ := h
      obtain ⟨v', hv⟩ := hwaits hr
      rw [hv] at haw
      obtain ⟨rfl, hnil⟩ := List.cons.inj haw
      refine ⟨rfl, hv, hnil.symm, r, hr, ?_⟩
      rw [fulfil, hr]
      exact Function.update_self ..
    · rw [hidle fun r hr => h ⟨r, hr⟩] at haw
      cases haw
  · right
    rw [if_neg ho] at haw
    refine ⟨ho, haw.symm, ?_⟩
    cases owner with
    | none => rfl
    | some c' =>
      rw [fulfil]
      cases s.pc c' with
      | registering r => exact Function.update_of_ne (fun e => ho (by rw [e])) ..
      | _ => rfl

theorem Inv.fulfil_cases (hs : Inv unknown s) {v : σ} {owner : Option γ} {q : List (Job κ σ γ)}
    (hq : s.jobs = .register v owner :: q) (c : γ) :
    (owner = some c ∧ s.awaited c = [v] ∧ q.filterMap (Job.awaited c) = [] ∧
        ∃ r, s.pc c = .registering r ∧ s.fulfil owner c = .registered r s.counter) ∨
      (owner ≠ some c ∧ q.filterMap (Job.awaited c) = s.awaited c ∧ s.fulfil owner c = s.pc c) :=
  Hub.fulfil_cases hq (fun hr => (hs.waits hr).2.2) hs.served

/-- A value is registered, with an id that was nobody's. -/
theorem Inv.register (hs : Inv unknown s) {v : σ} {owner : Option γ} {q : List (Job κ σ γ)} {n : κ}
    (hq : s.jobs = .register v owner :: q) (hn : s.counter < n) :
    Inv unknown { s with
      jobs := q, counter := n, pc := s.fulfil owner
      module := Function.update s.module s.counter (some v)
      registered := s.registered ++ [(s.counter, owner, v)] } := by
  obtain ⟨hmodule, himage, hpc⟩ := hs.fresh le_rfl
  have hmem : ∀ {id}, .unregister id ∈ s.jobs ↔ .unregister id ∈ q := by simp [hq]
  have hreg : ∀ {id o v'}, (id, o, v') ∈ s.registered ++ [(s.counter, owner, v)] →
      (id, o, v') ∈ s.registered ∨ (id = s.counter ∧ o = owner ∧ v' = v) := by
    intro id o v' h
    rcases List.mem_append.1 h with h | h
    · exact .inl h
    · cases List.mem_singleton.1 h
      exact .inr ⟨rfl, rfl, rfl⟩
  have hold : ∀ {id x}, s.module id = x → id ≠ s.counter →
      Function.update s.module s.counter (some v) id = x := by
    intro id x h hne
    rwa [Function.update_of_ne hne]
  have hkeep : ∀ {id v'}, s.module id = some v' →
      Function.update s.module s.counter (some v) id = some v' := by
    -- No image, job or client has the new id yet, and only the client that the value is
    -- registered for, if any, goes on.
    refine fun h => hold h ?_
    rintro rfl
    exact Option.some_ne_none _ (h.symm.trans hmodule)
  have hnew : ∀ {id v'}, Function.update s.module s.counter (some v) id = some v' →
      s.module id = some v' ∨ (id = s.counter ∧ v' = v) := by
    intro id v' h
    rw [Function.update_apply] at h
    split_ifs at h with he
    · exact .inr ⟨he, (Option.some.inj h).symm⟩
    · exact .inl h
  refine
    { hs with
      unknown_lt := hs.unknown_lt.trans hn
      lt_id := fun h => ?_
      id_lt := fun h => ?_
      unique := fun h h' => ?_
      origin := fun {id v'} h => ?_
      live := fun h hd => ?_
      own := fun h => ?_
      gone := fun h => ?_
      posted := fun h => ?_
      linked := fun h => ?_
      waits := fun {c r} h => ?_
      served := fun {c} h => ?_
      answered := fun {c r id} h => ?_
      leaving := fun {c} h => ?_
      owner := fun {id v'} h => ?_ }
  · rcases hreg h with h | ⟨rfl, -⟩
    · exact hs.lt_id h
    · exact hs.unknown_lt
  · rcases hreg h with h | ⟨rfl, -⟩
    · exact (hs.id_lt h).trans hn
    · exact hn
  · rcases hreg h with h₁ | ⟨hid, rfl, rfl⟩ <;> rcases hreg h' with h₂ | ⟨hid', rfl, rfl⟩
    · exact hs.unique h₁ h₂
    · exact absurd (hs.id_lt h₁) (by rw [hid']; exact lt_irrefl _)
    · exact absurd (hs.id_lt h₂) (by rw [hid]; exact lt_irrefl _)
    · exact ⟨rfl, rfl⟩
  · rcases hnew h with h | ⟨rfl, rfl⟩
    · obtain ⟨o, ho⟩ := hs.origin h
      exact ⟨o, List.mem_append_left _ ho⟩
    · exact ⟨owner, by simp⟩
  · rcases hreg h with h | ⟨rfl, -, rfl⟩
    · exact hkeep (hs.live h hd)
    · exact Function.update_self ..
  · obtain ⟨v', h⟩ := hs.own h
    exact ⟨v', List.mem_append_left _ h⟩
  · obtain ⟨v', hv⟩ := hs.own h
    exact (hs.gone h).imp (fun h => hold h (hs.id_lt hv).ne) hmem.1
  · -- An id whose removal is posted is below the counter: it is not the new one.
    obtain ⟨hlt, hd, hi, hne⟩ := hs.posted (hmem.2 h)
    refine ⟨hlt.trans hn, fun v' h => ?_, hi, fun c r hpc' => ?_⟩
    · rcases hreg h with h | ⟨rfl, -⟩
      · exact hd v' h
      · exact absurd hlt (lt_irrefl _)
    · rcases hs.fulfil_cases hq c with ⟨-, -, -, r', -, h⟩ | ⟨-, -, h⟩
      · cases h.symm.trans hpc'
        exact lt_irrefl _ hlt
      · exact hne c r (h.symm.trans hpc')
  · obtain ⟨hc, v', hv, hr⟩ := hs.linked h
    exact ⟨hc, v', hkeep hv, List.mem_append_left _ hr⟩
  · rcases hs.fulfil_cases hq c with ⟨-, -, -, r', -, h'⟩ | ⟨-, haw, h'⟩
    · cases h'.symm.trans h
    · obtain ⟨hc, hne, v', hv⟩ := hs.waits (h'.symm.trans h)
      exact ⟨hc, hne, v', haw.trans hv⟩
  · rcases hs.fulfil_cases hq c with ⟨-, -, hnil, -⟩ | ⟨-, haw, h'⟩
    · exact hnil
    · exact haw.trans (hs.served fun r hr => h r (h'.trans hr))
  · rcases hs.fulfil_cases hq c with ⟨rfl, -, -, r', hr', h'⟩ | ⟨-, -, h'⟩
    · cases h'.symm.trans h
      obtain ⟨hc, hne, -⟩ := hs.waits hr'
      exact ⟨hc, hne, himage, v, Function.update_self .., by simp⟩
    · obtain ⟨hc, hne, hi, v', hv, hr⟩ := hs.answered (h'.symm.trans h)
      exact ⟨hc, hne, hi, v', hkeep hv, List.mem_append_left _ hr⟩
  · rcases hs.fulfil_cases hq c with ⟨-, -, -, _, -, h'⟩ | ⟨-, -, h'⟩
    · cases h'.symm.trans h
    · exact hs.leaving (h'.symm.trans h)
  · -- The new value is the application's, or its client has just been answered with it.
    rcases hnew h with h | ⟨rfl, rfl⟩
    · rcases hs.owner h with h | h | ⟨c, r, h⟩ | h
      · exact .inl (List.mem_append_left _ h)
      · exact .inr (.inl h)
      · rcases hs.fulfil_cases hq c with ⟨-, -, -, r', hr', -⟩ | ⟨-, -, h'⟩
        · cases hr'.symm.trans h
        · exact .inr (.inr (.inl ⟨c, r, h'.trans h⟩))
      · exact .inr (.inr (.inr (hmem.1 h)))
    · cases owner with
      | none => exact .inl (by simp)
      | some c =>
        rcases hs.fulfil_cases hq c with ⟨-, -, -, r, -, h'⟩ | ⟨hne, -⟩
        · exact .inr (.inr (.inl ⟨c, r, h'⟩))
        · exact absurd rfl hne

theorem Inv.accept (hs : Inv unknown s) (c : γ) :
    Inv unknown { s with connected := Function.update s.connected c true } := by
  have hc : ∀ {c'}, s.connected c' = true → Function.update s.connected c true c' = true := by
    intro c' h
    rw [Function.update_apply]
    split_ifs
    · rfl
    · exact h
  exact { hs with
    linked := fun h => ⟨hc (hs.linked h).1, (hs.linked h).2⟩
    waits := fun h => ⟨hc (hs.waits h).1, (hs.waits h).2⟩
    answered := fun h => ⟨hc (hs.answered h).1, (hs.answered h).2⟩
    leaving := fun h => hc (hs.leaving h) }

/-- A client, not served yet, adds a value. -/
theorem Inv.readAdd (hs : Inv unknown s) {c : γ} {r : ρ} {v : σ} (hc : s.connected c = true)
    (hidle : s.pc c = .idle) (hr : ∀ id, s.image id ≠ some (r, c)) :
    Inv unknown { s with
      jobs := s.jobs ++ [.register v (some c)]
      pc := Function.update s.pc c (.registering r) } := by
  have hmem : ∀ {id}, .unregister id ∈ s.jobs ++ [.register v (some c)] →
      .unregister id ∈ s.jobs := by
    simp
  have haw : ∀ {c'}, awaited { s with
      jobs := s.jobs ++ [.register v (some c)]
      pc := Function.update s.pc c (.registering r) } c' =
        s.awaited c' ++ if c = c' then [v] else [] := fun {c'} => by
    refine (awaited_append rfl c').trans (congrArg _ ?_)
    by_cases h : c = c' <;> simp [Job.awaited, h]
  -- The other clients are served as before.
  have hpc : ∀ {c' pc}, Function.update s.pc c (.registering r) c' = pc →
      (c' = c ∧ pc = .registering r) ∨ (c' ≠ c ∧ s.pc c' = pc) := by
    intro c' pc h
    rw [Function.update_apply] at h
    split_ifs at h with he
    · exact .inl ⟨he, h.symm⟩
    · exact .inr ⟨he, h⟩
  refine
    { hs with
      gone := fun h => (hs.gone h).imp_right (List.mem_append_left _)
      posted := fun h => ?_
      waits := fun {c' r'} h => ?_
      served := fun {c'} h => ?_
      answered := fun h => ?_
      leaving := fun h => ?_
      owner := fun h => (hs.owner h).imp_right fun h => h.imp_right fun h =>
        h.imp (fun ⟨c', r', h'⟩ => ⟨c', r', ?_⟩) (List.mem_append_left _) }
  · obtain ⟨hlt, hd, hi, hne⟩ := hs.posted (hmem h)
    refine ⟨hlt, hd, hi, fun c' r' h => ?_⟩
    rcases hpc h with ⟨-, h⟩ | ⟨-, h⟩
    · cases h
    · exact hne c' r' h
  · rw [haw]
    rcases hpc h with ⟨hcc, h₁⟩ | ⟨hne, h₁⟩
    · cases h₁
      rw [hcc, hs.served fun r => by rw [hidle]; exact nofun, if_pos rfl]
      exact ⟨hc, hr, v, rfl⟩
    · rw [if_neg hne.symm, List.append_nil]
      exact hs.waits h₁
  · rw [haw]
    have hne : c ≠ c' := by
      rintro rfl
      exact h r (Function.update_self ..)
    rw [if_neg hne, List.append_nil]
    exact hs.served fun r' h' => h r' ((Function.update_of_ne hne.symm ..).trans h')
  · rcases hpc h with ⟨-, h⟩ | ⟨-, h⟩
    · cases h
    · exact hs.answered h
  · rcases hpc h with ⟨-, h⟩ | ⟨-, h⟩
    · cases h
    · exact hs.leaving h
  · refine (Function.update_of_ne ?_ ..).trans h'
    rintro rfl
    rw [hidle] at h'
    cases h'

/-- An id that is to be no image, if it is one, is unlinked, and its unregistration
    posted. -/
theorem Inv.unlink (hs : Inv unknown s) {id : κ} (hlt : id < s.counter)
    (hown : ∀ v, (id, none, v) ∉ s.registered) (hpc : ∀ c r, s.pc c ≠ .registered r id) :
    Inv unknown { s with
      jobs := s.jobs ++ [.unregister id], image := Function.update s.image id none } := by
  have himage : ∀ {id' x}, Function.update s.image id none id' = some x → s.image id' = some x := by
    intro id' x h
    rw [Function.update_apply] at h
    split_ifs at h
    exact h
  have hnone : ∀ {id'}, s.image id' = none → Function.update s.image id none id' = none := by
    intro id' h
    rw [Function.update_apply]
    split_ifs
    · rfl
    · exact h
  have haw : ∀ c, awaited { s with
      jobs := s.jobs ++ [.unregister id], image := Function.update s.image id none } c =
        s.awaited c := fun c => (awaited_append rfl c).trans (List.append_nil _)
  refine
    { hs with
      gone := fun h => (hs.gone h).imp_right (List.mem_append_left _)
      posted := fun {id'} h => ?_
      linked := fun h => hs.linked (himage h)
      inj := fun h h' => hs.inj (himage h) (himage h')
      waits := fun h => ?_
      served := fun h => (haw _).trans (hs.served h)
      answered := fun h => ?_
      owner := fun {id' v} h => ?_ }
  · rcases List.mem_append.1 h with h | h
    · obtain ⟨hlt, hd, hi, hne⟩ := hs.posted h
      exact ⟨hlt, hd, hnone hi, hne⟩
    · cases List.mem_singleton.1 h
      exact ⟨hlt, fun v h => absurd h (hown v), Function.update_self .., hpc⟩
  · obtain ⟨hc, hne, h⟩ := hs.waits h
    rw [haw]
    exact ⟨hc, fun id' h' => hne id' (himage h'), h⟩
  · obtain ⟨hc, hne, hi, h⟩ := hs.answered h
    exact ⟨hc, fun id' h' => hne id' (himage h'), hnone hi, h⟩
  · -- The value that was an image waits to be unregistered.
    rcases hs.owner h with h | ⟨x, h⟩ | h | h
    · exact .inl h
    · by_cases he : id' = id
      · exact .inr (.inr (.inr (by simp [he])))
      · exact .inr (.inl ⟨x, (Function.update_of_ne he ..).trans h⟩)
    · exact .inr (.inr (.inl h))
    · exact .inr (.inr (.inr (List.mem_append_left _ h)))

/-- An image is linked, its client no longer served. -/
theorem Inv.link (hs : Inv unknown s) {c : γ} {r : ρ} {id : κ} (hpc : s.pc c = .registered r id) :
    Inv unknown { s with
      image := Function.update s.image id (some (r, c)), pc := Function.update s.pc c .idle } := by
  obtain ⟨hc, hr, hid, v, hv, hreg⟩ := hs.answered hpc
  have himage : ∀ {id' x}, Function.update s.image id (some (r, c)) id' = some x →
      (id' = id ∧ x = (r, c)) ∨ s.image id' = some x := by
    intro id' x h
    rw [Function.update_apply] at h
    split_ifs at h with he
    · exact .inl ⟨he, (Option.some.inj h).symm⟩
    · exact .inr h
  have hpcs : ∀ {c' pc}, Function.update s.pc c .idle c' = pc →
      pc = .idle ∨ (c' ≠ c ∧ s.pc c' = pc) := by
    intro c' pc h
    rw [Function.update_apply] at h
    split_ifs at h with he
    · exact .inl h.symm
    · exact .inr ⟨he, h⟩
  refine
    { hs with
      posted := fun {id'} h => ?_
      linked := fun h => ?_
      inj := fun h h' => ?_
      waits := fun h => ?_
      served := fun {c'} h => ?_
      answered := fun {c' r' id'} h => ?_
      leaving := fun h => ?_
      owner := fun {id' v} h => ?_ }
  · -- The removal of the id is not posted: its client has just been answered with it.
    obtain ⟨hlt, hd, hi, hne⟩ := hs.posted h
    refine ⟨hlt, hd, (Function.update_of_ne ?_ ..).trans hi, fun c' r' h => ?_⟩
    · rintro rfl
      exact hne c r hpc
    · rcases hpcs h with h | ⟨-, h⟩
      · cases h
      · exact hne c' r' h
  · rcases himage h with ⟨rfl, h₁⟩ | h₁
    · cases h₁
      exact ⟨hc, v, hv, hreg⟩
    · exact hs.linked h₁
  · rcases himage h with ⟨rfl, rfl⟩ | h₁ <;> rcases himage h' with ⟨hid', he⟩ | h₂
    · exact hid'.symm
    · exact absurd h₂ (hr _)
    · exact absurd (he ▸ h₁) (hr _)
    · exact hs.inj h₁ h₂
  · rcases hpcs h with h | ⟨hne, h⟩
    · cases h
    · obtain ⟨hc', hr', h⟩ := hs.waits h
      refine ⟨hc', fun id' h' => ?_, h⟩
      rcases himage h' with ⟨-, h'⟩ | h'
      · cases h'
        exact hne rfl
      · exact hr' id' h'
  · refine hs.served fun r' h' => ?_
    by_cases he : c' = c
    · rw [he, hpc] at h'
      cases h'
    · exact h r' ((Function.update_of_ne he ..).trans h')
  · rcases hpcs h with h | ⟨hne, h⟩
    · cases h
    · obtain ⟨hc', hr', hi, v', hv', hreg'⟩ := hs.answered h
      refine ⟨hc', fun id'' h' => ?_, (Function.update_of_ne ?_ ..).trans hi, v', hv', hreg'⟩
      · rcases himage h' with ⟨-, h'⟩ | h'
        · cases h'
          exact hne rfl
        · exact hr' id'' h'
      · rintro rfl
        cases (hs.unique hreg hreg').1
        exact hne rfl
  · rcases hpcs h with h | ⟨-, h⟩
    · cases h
    · exact hs.leaving h
  · -- The value that the client was answered with is an image from now on.
    by_cases he : id' = id
    · subst he
      exact .inr (.inl ⟨_, Function.update_self ..⟩)
    · rcases hs.owner h with h | ⟨x, h⟩ | ⟨c', r', h⟩ | h
      · exact .inl h
      · exact .inr (.inl ⟨x, (Function.update_of_ne he ..).trans h⟩)
      · refine .inr (.inr (.inl ⟨c', r', (Function.update_of_ne ?_ ..).trans h⟩))
        intro hcc
        rw [hcc, hpc] at h
        cases h
        exact he rfl
      · exact .inr (.inr (.inr h))

/-- The service of a client begins to end, or has ended. -/
theorem Inv.setPc (hs : Inv unknown s) {c : γ} {p : Pc κ ρ} (hold : ∀ r, s.pc c ≠ .registering r)
    (hold' : ∀ r id, s.pc c ≠ .registered r id) (hnew : ∀ r, p ≠ .registering r)
    (hnew' : ∀ r id, p ≠ .registered r id) (hc : p = .closing → s.connected c = true) :
    Inv unknown { s with pc := Function.update s.pc c p } := by
  have hpcs : ∀ {c' pc'}, Function.update s.pc c p c' = pc' →
      (c' = c ∧ p = pc') ∨ (c' ≠ c ∧ s.pc c' = pc') := by
    intro c' pc' h
    rw [Function.update_apply] at h
    split_ifs at h with he
    · exact .inl ⟨he, h⟩
    · exact .inr ⟨he, h⟩
  refine
    { hs with
      posted := fun h => ?_
      waits := fun h => ?_
      served := fun {c'} h => ?_
      answered := fun h => ?_
      leaving := fun h => ?_
      owner := fun {id' v} h => ?_ }
  · obtain ⟨hlt, hd, hi, hne⟩ := hs.posted h
    refine ⟨hlt, hd, hi, fun c' r' h => ?_⟩
    rcases hpcs h with ⟨-, h⟩ | ⟨-, h⟩
    · exact hnew' _ _ h
    · exact hne c' r' h
  · rcases hpcs h with ⟨-, h⟩ | ⟨-, h⟩
    · exact absurd h (hnew _)
    · exact hs.waits h
  · refine hs.served fun r' h' => ?_
    by_cases he : c' = c
    · exact hold r' (he ▸ h')
    · exact h r' ((Function.update_of_ne he ..).trans h')
  · rcases hpcs h with ⟨-, h⟩ | ⟨-, h⟩
    · exact absurd h (hnew' _ _)
    · exact hs.answered h
  · rcases hpcs h with ⟨hcc, h₁⟩ | ⟨-, h₁⟩
    · rw [hcc]
      exact hc h₁
    · exact hs.leaving h₁
  · refine (hs.owner h).imp_right fun h => h.imp_right fun h => h.imp_left ?_
    rintro ⟨c', r', h'⟩
    refine ⟨c', r', (Function.update_of_ne ?_ ..).trans h'⟩
    rintro rfl
    exact hold' _ _ h'

/-- A client that has no image is gone. -/
theorem Inv.disconnect (hs : Inv unknown s) {c : γ} (hpc : s.pc c = .idle)
    (himage : ∀ id r, s.image id ≠ some (r, c)) :
    Inv unknown { s with connected := Function.update s.connected c false } := by
  have hc : ∀ {c'}, s.connected c' = true → c' ≠ c →
      Function.update s.connected c false c' = true :=
    fun h hne => (Function.update_of_ne hne ..).trans h
  have hne : ∀ {c' pc}, s.pc c' = pc → pc ≠ .idle → c' ≠ c := by
    rintro c' pc h hne rfl
    exact hne (h.symm.trans hpc)
  exact { hs with
    linked := fun {id r c'} h => by
      refine ⟨hc (hs.linked h).1 ?_, (hs.linked h).2⟩
      rintro rfl
      exact himage _ _ h
    waits := fun h => ⟨hc (hs.waits h).1 (hne h nofun), (hs.waits h).2⟩
    answered := fun h => ⟨hc (hs.answered h).1 (hne h nofun), (hs.answered h).2⟩
    leaving := fun h => hc (hs.leaving h) (hne h nofun) }

/-- A client that is not connected shows nothing. -/
theorem Inv.not_shows (hs : Inv unknown s) {c : γ} (hc : s.connected c = false) (r : ρ) (v : σ) :
    ¬s.Shows c r v := by
  have hne : s.connected c ≠ true := ne_true_of_eq_false hc
  rintro (⟨id, -, h | h⟩ | ⟨h, -⟩)
  · exact hne (hs.linked h).1
  · exact hne (hs.answered h).1
  · exact hne (hs.waits h).1

theorem Inv.pc_idle (hs : Inv unknown s) {c : γ} (hc : s.connected c ≠ true) : s.pc c = .idle := by
  cases hpc : s.pc c with
  | idle => rfl
  | registering r => exact absurd (hs.waits hpc).1 hc
  | registered r id => exact absurd (hs.answered hpc).1 hc
  | closing => exact absurd (hs.leaving hpc) hc

/-- What an image has was registered for its client. -/
theorem Inv.shows_of_image (hs : Inv unknown s) {id : κ} {r : ρ} {c : γ}
    (h : s.image id = some (r, c)) : ∃ v, s.Shows c r v := by
  obtain ⟨-, v, hv, -⟩ := hs.linked h
  exact ⟨v, .inl ⟨id, hv, .inl h⟩⟩

theorem Inv.not_own_of_image (hs : Inv unknown s) {id : κ} {r : ρ} {c : γ}
    (h : s.image id = some (r, c)) :
    id < s.counter ∧ (∀ v, (id, none, v) ∉ s.registered) ∧ ∀ c r, s.pc c ≠ .registered r id := by
  obtain ⟨-, v, -, hr⟩ := hs.linked h
  refine ⟨hs.id_lt hr, fun v' h' => ?_, fun c' r' hpc => ?_⟩
  · cases (hs.unique hr h').1
  · rw [(hs.answered hpc).2.2.1] at h
    cases h

/-- The invariant is kept by every step that is allowed. -/
theorem Inv.step (hs : Inv unknown s) {l : Label κ ρ σ γ} (hl : s.Allows l)
    (h : Step unknown s l s') : Inv unknown s' := by
  cases h with
  | keep => exact hs
  | post v => exact hs.post v
  | drop id =>
    obtain ⟨v, hv⟩ := hl
    exact hs.drop hv
  | dropNow id =>
    obtain ⟨v, hv⟩ := hl
    obtain ⟨himage, hpc⟩ := hs.image_eq_none_of_own hv
    refine hs.erase himage hpc (fun id' h => ?_) fun v _ => by simp
    exact ⟨List.mem_singleton.1 h, v, hv⟩
  | register hq hn => exact hs.register hq hn
  | @unregister id q hq =>
    obtain ⟨-, hd, himage, hpc⟩ := hs.posted (show .unregister id ∈ s.jobs by simp [hq])
    have herase := hs.erase himage hpc (d := []) (by simp) (by simpa using hd)
    rw [List.append_nil] at herase
    exact herase.pop hq (Function.update_self ..)
  | @accept c => exact hs.accept c
  | readOther => exact hs
  | readAdd hc hidle =>
    refine hs.readAdd hc hidle fun id h => ?_
    obtain ⟨v, hv⟩ := hs.shows_of_image h
    exact hl v hv
  | readRemove _ _ himage =>
    obtain ⟨hlt, hown, hpc⟩ := hs.not_own_of_image himage
    exact hs.unlink hlt hown hpc
  | readUnknown =>
    refine hs.unlink hs.unknown_lt (fun v h => lt_irrefl _ (hs.lt_id h)) fun c r hpc => ?_
    obtain ⟨-, -, -, v, -, h⟩ := hs.answered hpc
    exact lt_irrefl _ (hs.lt_id h)
  | @link c r id hpc =>
    rw [(hs.answered hpc).2.2.1]
    exact hs.link hpc
  | close hc hidle => exact hs.setPc (by simp [hidle]) (by simp [hidle]) nofun nofun fun _ => hc
  | unlink _ himage =>
    obtain ⟨hlt, hown, hpc⟩ := hs.not_own_of_image himage
    exact hs.unlink hlt hown hpc
  | @closed c hpc himage =>
    exact (hs.setPc (p := .idle) (by simp [hpc]) (by simp [hpc]) nofun nofun nofun).disconnect
      (c := c) (Function.update_self ..) himage

/-! ### The clients -/

/-- The client is connected, and not known to be gone. -/
def Open (s : Hub κ ρ σ γ) (c : γ) : Prop := s.connected c = true ∧ s.pc c ≠ .closing

theorem Step.open_iff {l : Label κ ρ σ γ} (h : Step unknown s l s')
    (hleaving : ∀ {c}, s.pc c = .closing → s.connected c = true) (c : γ) :
    s'.Open c ↔ (s.Open c ∧ l ≠ .close c) ∨ l = .accept c := by
  have keep : s'.connected = s.connected → (s'.pc c = .closing ↔ s.pc c = .closing) →
      l ≠ .close c → l ≠ .accept c → (s'.Open c ↔ (s.Open c ∧ l ≠ .close c) ∨ l = .accept c) := by
    intro hc hpc hclose haccept
    rw [Open, Open, hc, Ne, hpc]
    simp [hclose, haccept]
  have setPc : ∀ {c' pc pc'}, s.pc c' = pc → pc ≠ .closing → pc' ≠ .closing →
      (Function.update s.pc c' pc' c = .closing ↔ s.pc c = .closing) := by
    intro c' pc pc' h hpc hpc'
    rw [Function.update_apply]
    split_ifs with he
    · rw [he, h]
      exact iff_of_false hpc' hpc
    · rfl
  -- Connections change when a client is accepted or closed; else the service of a client
  -- starts or ends, and it is not leaving.
  cases h with
  | @register v owner =>
    refine keep rfl ?_ nofun nofun
    cases owner with
    | none => rfl
    | some c' =>
      cases hpc : s.pc c' with
      | registering r =>
        simp only [fulfil, hpc]
        exact setPc hpc nofun nofun
      | _ => simp only [fulfil, hpc]
  | @accept c' hc =>
    by_cases he : c' = c
    · subst he
      refine iff_of_true ⟨Function.update_self .., fun h => ?_⟩ (.inr rfl)
      exact Bool.false_ne_true (hc.symm.trans (hleaving h))
    · simp [Open, Function.update_of_ne (Ne.symm he), he]
  | readAdd _ hidle => exact keep rfl (setPc hidle nofun nofun) nofun nofun
  | link hpc => exact keep rfl (setPc hpc nofun nofun) nofun nofun
  | @close c' =>
    by_cases he : c' = c
    · simp [Open, he]
    · simp [Open, Function.update_of_ne (Ne.symm he), he]
  | @closed c' hpc =>
    by_cases he : c' = c
    · simp [Open, ← he, hpc]
    · simp [Open, Function.update_of_ne (Ne.symm he)]
  | _ => exact keep rfl .rfl nofun nofun

/-! ### The images of a client -/

/-- The change read from the client. -/
def Label.feed (c : γ) : Label κ ρ σ γ → List (Feed.Change ρ σ)
  | .read c' change => if c' = c then change.toList else []
  | _ => []

omit [LinearOrder κ] in
/-- What a client shows depends on what is linked, or about to be, only. -/
theorem shows_congr {c : γ} (himage : ∀ id r, s'.image id = some (r, c) ↔ s.image id = some (r, c))
    (hpc : s'.pc c = s.pc c) (haw : s'.awaited c = s.awaited c)
    (hmodule : ∀ id r, s.image id = some (r, c) ∨ s.pc c = .registered r id →
      s'.module id = s.module id) (r : ρ) (v : σ) : s'.Shows c r v ↔ s.Shows c r v := by
  rw [Shows, Shows, hpc, haw]
  refine or_congr_left (exists_congr fun id => ?_)
  rw [himage]
  refine ⟨fun h => ?_, fun h => ?_⟩
  · rwa [hmodule id r h.2] at h
  · rwa [hmodule id r h.2]

omit [DecidableEq γ] in
/-- A change of the image of another client, or of nobody's. -/
theorem update_image_iff {c : γ} {id : κ} {x y : Option (ρ × γ)} (hx : s.image id = x)
    (hne : ∀ r, x ≠ some (r, c)) (hne' : ∀ r, y ≠ some (r, c)) (id' : κ) (r : ρ) :
    Function.update s.image id y id' = some (r, c) ↔ s.image id' = some (r, c) := by
  rw [Function.update_apply]
  split_ifs with he
  · rw [he, hx]
    exact iff_of_false (hne' r) (hne r)
  · rfl

omit [DecidableEq γ] in
/-- A change of a value that is no image. -/
theorem update_module_eq {c : γ} {id : κ} {x : Option σ} (hi : s.image id = none)
    (hpc : ∀ r, s.pc c ≠ .registered r id) (id' : κ) (r : ρ)
    (h : s.image id' = some (r, c) ∨ s.pc c = .registered r id') :
    Function.update s.module id x id' = s.module id' := by
  refine Function.update_of_ne ?_ ..
  rintro rfl
  exact h.elim (fun h => by rw [hi] at h; cases h) (hpc r)

omit [LinearOrder κ] in
theorem shows_of_idle {c : γ} (hpc : s.pc c = .idle) {r : ρ} {v : σ} :
    s.Shows c r v ↔ ∃ id, s.module id = some v ∧ s.image id = some (r, c) := by
  simp [Shows, hpc]

omit [LinearOrder κ] in
theorem shows_of_registering {c : γ} {r₀ : ρ} (hpc : s.pc c = .registering r₀) {r : ρ} {v : σ} :
    s.Shows c r v ↔ (∃ id, s.module id = some v ∧ s.image id = some (r, c)) ∨
      r₀ = r ∧ v ∈ s.awaited c := by
  simp [Shows, hpc]

omit [LinearOrder κ] in
theorem shows_of_registered {c : γ} {r₀ : ρ} {id₀ : κ} (hpc : s.pc c = .registered r₀ id₀) {r : ρ}
    {v : σ} : s.Shows c r v ↔ (∃ id, s.module id = some v ∧ s.image id = some (r, c)) ∨
      r₀ = r ∧ s.module id₀ = some v := by
  simp only [Shows, hpc, Pc.registered.injEq, reduceCtorEq, false_and, or_false, and_or_left,
    exists_or]
  refine or_congr_right ⟨?_, ?_⟩
  · rintro ⟨_, hv, rfl, rfl⟩
    exact ⟨rfl, hv⟩
  · rintro ⟨rfl, hv⟩
    exact ⟨_, hv, rfl, rfl⟩

/-- A registration changes nothing: the value awaited is now registered. -/
theorem Inv.shows_register (hs : Inv unknown s) {v₀ : σ} {owner : Option γ}
    {q : List (Job κ σ γ)} {n : κ} (hq : s.jobs = .register v₀ owner :: q) (c : γ) (r : ρ) (v : σ) :
    Shows { s with
      jobs := q, counter := n, pc := s.fulfil owner
      module := Function.update s.module s.counter (some v₀)
      registered := s.registered ++ [(s.counter, owner, v₀)] } c r v ↔ s.Shows c r v := by
  obtain ⟨-, hi, hpc⟩ := hs.fresh le_rfl
  rcases hs.fulfil_cases hq c with ⟨rfl, hv, -, r₀, hr, hful⟩ | ⟨-, hrest, hful⟩
  · -- The registration the client waits for.
    refine (shows_of_registered hful).trans ?_
    rw [shows_of_registering hr, hv, List.mem_singleton]
    refine or_congr (exists_congr fun id => and_congr_left fun h => ?_) (and_congr_right' ?_)
    · exact Iff.of_eq (congrArg (· = some v) (update_module_eq hi (hpc c) id r (.inl h)))
    · have hself : Function.update s.module s.counter (some v₀) s.counter = some v₀ :=
        Function.update_self ..
      exact (Iff.of_eq (congrArg (· = some v) hself)).trans (Option.some_inj.trans eq_comm)
  · apply shows_congr
    · exact fun _ _ => .rfl
    · exact hful
    · exact hrest
    · exact update_module_eq hi (hpc c)

/-- A value that is added is awaited. -/
theorem Inv.shows_readAdd (hs : Inv unknown s) {c : γ} {r₀ : ρ} {v₀ : σ} (hidle : s.pc c = .idle)
    (r : ρ) (v : σ) :
    Shows { s with
      jobs := s.jobs ++ [.register v₀ (some c)]
      pc := Function.update s.pc c (.registering r₀) } c r v ↔
        s.Shows c r v ∨ r = r₀ ∧ v = v₀ := by
  have hempty : s.awaited c = [] := hs.served fun r => by simp [hidle]
  rw [shows_of_registering (s := { s with
      jobs := s.jobs ++ [.register v₀ (some c)]
      pc := Function.update s.pc c (.registering r₀) }) (Function.update_self ..),
    shows_of_idle hidle, awaited_append (s := s) rfl, hempty]
  simp [Job.awaited, eq_comm]

/-- A value that is removed is linked no more. -/
theorem Inv.shows_readRemove (hs : Inv unknown s) {c : γ} {r₀ : ρ} {id₀ : κ}
    (hidle : s.pc c = .idle) (hi : s.image id₀ = some (r₀, c)) (r : ρ) (v : σ) :
    Shows { s with
      jobs := s.jobs ++ [.unregister id₀], image := Function.update s.image id₀ none } c r v ↔
        s.Shows c r v ∧ r ≠ r₀ := by
  rw [shows_of_idle (s := { s with
      jobs := s.jobs ++ [.unregister id₀], image := Function.update s.image id₀ none }) hidle,
    shows_of_idle hidle]
  constructor
  · rintro ⟨id, hm, h⟩
    have hne : id ≠ id₀ := by
      rintro rfl
      cases (Function.update_self ..).symm.trans h
    have h := (Function.update_of_ne hne ..).symm.trans h
    refine ⟨⟨id, hm, h⟩, ?_⟩
    rintro rfl
    exact hne (hs.inj h hi)
  · rintro ⟨⟨id, hm, h⟩, hr⟩
    refine ⟨id, hm, (Function.update_of_ne ?_ ..).trans h⟩
    rintro rfl
    cases hi.symm.trans h
    exact hr rfl

/-- A link changes nothing: what was to be linked is linked. -/
theorem Inv.shows_link (hs : Inv unknown s) {c : γ} {r₀ : ρ} {id₀ : κ}
    (hpc : s.pc c = .registered r₀ id₀) (r : ρ) (v : σ) :
    Shows { s with
      image := Function.update s.image id₀ (some ((s.image id₀).getD (r₀, c)))
      pc := Function.update s.pc c .idle } c r v ↔ s.Shows c r v := by
  have hi := (hs.answered hpc).2.2.1
  rw [shows_of_idle (s := { s with
      image := Function.update s.image id₀ (some ((s.image id₀).getD (r₀, c)))
      pc := Function.update s.pc c .idle }) (Function.update_self ..), shows_of_registered hpc]
  constructor
  · rintro ⟨id, hm, h⟩
    by_cases he : id = id₀
    · subst he
      have h := (Function.update_self ..).symm.trans h
      rw [hi, Option.getD_none] at h
      cases h
      exact .inr ⟨rfl, hm⟩
    · exact .inl ⟨id, hm, (Function.update_of_ne he ..).symm.trans h⟩
  · rintro (⟨id, hm, h⟩ | ⟨rfl, hm⟩)
    · refine ⟨id, hm, (Function.update_of_ne ?_ ..).trans h⟩
      rintro rfl
      cases hi.symm.trans h
    · refine ⟨id₀, hm, (Function.update_self ..).trans ?_⟩
      rw [hi]
      rfl

variable [DecidableEq ρ]

theorem Step.shows {l : Label κ ρ σ γ} (h : Step unknown s l s') (hs : Inv unknown s)
    (hallows : s.Allows l) {c : γ} (hopen : s.pc c ≠ .closing) (hl : l ≠ .close c)
    {es : List (ρ × σ)}
    (hes : ∀ r v, s.Shows c r v ↔ (r, v) ∈ es) (r : ρ) (v : σ) :
    s'.Shows c r v ↔ (r, v) ∈ Feed.replay es (l.feed c) := by
  have hnone : ∀ r, (none : Option (ρ × γ)) ≠ some (r, c) := fun _ => (Option.some_ne_none _).symm
  have haw : ∀ {s' : Hub κ ρ σ γ} {j : Job κ σ γ}, s'.jobs = s.jobs ++ [j] → j.awaited c = none →
      s'.awaited c = s.awaited c := fun h hj => by
    rw [awaited_append h, List.filterMap_cons_none hj]
    exact List.append_nil _
  -- A step that does not concern the client.
  have hsame : ∀ {s' : Hub κ ρ σ γ},
      (∀ id r, s'.image id = some (r, c) ↔ s.image id = some (r, c)) → s'.pc c = s.pc c →
      s'.awaited c = s.awaited c →
      (∀ id r, s.image id = some (r, c) ∨ s.pc c = .registered r id →
        s'.module id = s.module id) → (s'.Shows c r v ↔ (r, v) ∈ es) :=
    fun h₁ h₂ h₃ h₄ => (shows_congr h₁ h₂ h₃ h₄ r v).trans (hes r v)
  have hother : ∀ {c' : γ} {change : Option (Feed.Change ρ σ)}, c' ≠ c →
      ((Label.read c' change : Label κ ρ σ γ).feed c) = [] := fun hne => if_neg hne
  have hread : ∀ {change : Option (Feed.Change ρ σ)},
      ((Label.read c change : Label κ ρ σ γ).feed c) = change.toList := if_pos rfl
  cases h with
  | keep => exact hes r v
  | post v' => exact hsame (fun _ _ => .rfl) rfl (haw rfl rfl) fun _ _ _ => rfl
  | drop id => exact hsame (fun _ _ => .rfl) rfl (haw rfl rfl) fun _ _ _ => rfl
  | dropNow id =>
    obtain ⟨v', hv⟩ := hallows
    obtain ⟨hi, hpc⟩ := hs.image_eq_none_of_own hv
    exact hsame (fun _ _ => .rfl) rfl rfl (update_module_eq hi (hpc c))
  | register hq _ => exact (hs.shows_register hq c r v).trans (hes r v)
  | @unregister id q hq =>
    obtain ⟨-, -, hi, hpc⟩ := hs.posted (show .unregister id ∈ s.jobs by simp [hq])
    refine hsame (fun _ _ => .rfl) rfl ?_ (update_module_eq hi (hpc c))
    rw [awaited, awaited, hq]
    rfl
  | accept => exact hsame (fun _ _ => .rfl) rfl rfl fun _ _ _ => rfl
  | @readOther c' =>
    have : (Label.read c' none : Label κ ρ σ γ).feed c = [] := by
      rw [Label.feed]
      split_ifs <;> rfl
    rw [this]
    exact hes r v
  | @readAdd c' r' v' hc hidle =>
    by_cases hcc : c' = c
    · subst hcc
      rw [hread, Option.toList_some, Feed.replay_cons, Feed.replay_nil, Feed.apply, List.mem_append,
        ← hes, List.mem_singleton, Prod.mk.injEq]
      exact hs.shows_readAdd hidle r v
    · rw [hother hcc]
      exact hsame (fun _ _ => .rfl) (Function.update_of_ne (fun e => hcc e.symm) ..)
        (haw rfl (if_neg hcc)) fun _ _ _ => rfl
  | @readRemove c' r' id hc hidle hi =>
    by_cases hcc : c' = c
    · subst hcc
      rw [hread, Option.toList_some, Feed.replay_cons, Feed.replay_nil, Feed.apply, List.mem_filter,
        ← hes, decide_eq_true_eq]
      exact hs.shows_readRemove hidle hi r v
    · rw [hother hcc]
      refine hsame (update_image_iff hi (fun r h => ?_) hnone) rfl (haw rfl rfl) fun _ _ _ => rfl
      cases h
      exact hcc rfl
  | @readUnknown c' r' hc hidle hi =>
    have hkeep : Shows { s with
        jobs := s.jobs ++ [.unregister unknown]
        image := Function.update s.image unknown none } c r v ↔ (r, v) ∈ es :=
      hsame (update_image_iff hs.image_unknown hnone hnone) rfl (haw rfl rfl) fun _ _ _ => rfl
    by_cases hcc : c' = c
    · subst hcc
      rw [hread, Option.toList_some, Feed.replay_cons, Feed.replay_nil, Feed.apply, List.mem_filter,
        hkeep, decide_eq_true_eq]
      refine ⟨fun h => ⟨h, ?_⟩, And.left⟩
      rintro rfl
      obtain ⟨id, -, h⟩ := (shows_of_idle hidle).1 ((hes r v).2 h)
      exact hi id h
    · rw [hother hcc]
      exact hkeep
  | @link c' r' id hpc =>
    by_cases hcc : c' = c
    · subst hcc
      exact (hs.shows_link hpc r v).trans (hes r v)
    · have hi := (hs.answered hpc).2.2.1
      refine hsame (update_image_iff hi hnone fun r h => ?_)
        (Function.update_of_ne (fun e => hcc e.symm) ..) rfl fun _ _ _ => rfl
      rw [hi] at h
      cases h
      exact hcc rfl
  | @close c' =>
    exact hsame (fun _ _ => .rfl) (Function.update_of_ne (fun e => hl (by rw [e])) ..) rfl
      fun _ _ _ => rfl
  | @unlink c' r' id hpc hi =>
    refine hsame (update_image_iff hi (fun r h => ?_) hnone) rfl (haw rfl rfl) fun _ _ _ => rfl
    cases h
    exact hopen hpc
  | @closed c' hpc =>
    refine hsame (fun _ _ => .rfl) (Function.update_of_ne ?_ ..) rfl fun _ _ _ => rfl
    rintro rfl
    exact hopen hpc

/-! ### Beginning and end -/

omit [DecidableEq ρ] in
/-- A hub that has nothing yet. -/
theorem inv_init {n : κ} (hn : unknown < n) : Inv unknown
    ({ counter := n, module := fun _ => none, image := fun _ => none, connected := fun _ => false
       pc := fun _ => .idle, jobs := [], registered := [], dropped := [] } : Hub κ ρ σ γ) where
  unknown_lt := hn
  lt_id := nofun
  id_lt := nofun
  unique := nofun
  origin := nofun
  live := nofun
  own := nofun
  gone := nofun
  posted := nofun
  linked := nofun
  inj := nofun
  waits := nofun
  served _ := rfl
  answered := nofun
  leaving := nofun
  owner := nofun

omit [DecidableEq ρ] in
/-- When nothing is left to be done, a value is one of the application, not
    dropped, or an image. -/
theorem Inv.module_iff (hs : Inv unknown s) (hjobs : s.jobs = []) (hidle : ∀ c, s.pc c = .idle)
    {id : κ} {v : σ} : s.module id = some v ↔
      ((id, none, v) ∈ s.registered ∧ id ∉ s.dropped) ∨
        ∃ r c, s.image id = some (r, c) ∧ s.Shows c r v := by
  constructor
  · intro hv
    rcases hs.owner hv with h | ⟨⟨r, c⟩, h⟩ | ⟨c, r, h⟩ | h
    · refine .inl ⟨h, fun hd => ?_⟩
      rcases hs.gone hd with h | h
      · rw [hv] at h
        cases h
      · rw [hjobs] at h
        cases h
    · exact .inr ⟨r, c, h, .inl ⟨id, hv, .inl h⟩⟩
    · rw [hidle] at h
      cases h
    · rw [hjobs] at h
      cases h
  · rintro (⟨h, hd⟩ | ⟨r, c, hi, ⟨id', hv, h | h⟩ | ⟨h, -⟩⟩)
    · exact hs.live h hd
    · exact hs.inj hi h ▸ hv
    · cases (hidle c).symm.trans h
    · cases (hidle c).symm.trans h

omit [DecidableEq ρ] in
/-- What a client that is not served shows is linked, once. -/
theorem Inv.existsUnique_image (hs : Inv unknown s) {c : γ} (hidle : s.pc c = .idle) {r : ρ} {v : σ}
    (h : s.Shows c r v) : ∃! id, s.image id = some (r, c) ∧ s.module id = some v := by
  rcases h with ⟨id, hv, h | h⟩ | ⟨h, -⟩
  · exact ⟨id, ⟨h, hv⟩, fun id' h' => hs.inj h'.1 h⟩
  · cases hidle.symm.trans h
  · cases hidle.symm.trans h

end Hub
