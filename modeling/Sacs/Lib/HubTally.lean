import Sacs.Lib.Hub

/-!
# Hubs whose clients are not trusted

What is true of a hub (`Hub`) whatever its clients send, also if they add a key
they have, so that several images have the same key.

* An id is *held* by a client (`Hub.Held`) from its registration to when the
  registration is undone, for which a job is posted at once. Only ids that a client
  has registered are held by it (`Served.held`), and only by a client connected.
* Values are unregistered once (`Tally`): an id that a client has registered is
  either held, or its unregistration was posted, or done, exactly once. The
  application must drop values of its own only.
-/

namespace Hub

variable {κ ρ σ γ : Type*} [LinearOrder κ] [DecidableEq γ]

/-- The client has registered a value with its key `r`, and the service of the client has
    not undone it: it is linked, or about to be. -/
def Placed (s : Hub κ ρ σ γ) (c : γ) (r : ρ) (id : κ) : Prop :=
  s.image id = some (r, c) ∨ s.pc c = .registered r id

/-- The client has registered a value with this id, and the service of the client
    has not undone it. -/
def Held (s : Hub κ ρ σ γ) (c : γ) (id : κ) : Prop :=
  ∃ r, s.image id = some (r, c) ∨ s.pc c = .registered r id

/-- The ids whose unregistration is posted. -/
def Job.unregisters? : Job κ σ γ → Option κ
  | .unregister id => some id
  | .register .. => none

def leaving (s : Hub κ ρ σ γ) : List κ := s.jobs.filterMap Job.unregisters?

/-- What is always true of the service of the clients. -/
structure Served (unknown : κ) (s : Hub κ ρ σ γ) : Prop where
  unknown_lt : unknown < s.counter
  lt_id : ∀ {id o v}, (id, o, v) ∈ s.registered → unknown < id
  id_lt : ∀ {id o v}, (id, o, v) ∈ s.registered → id < s.counter
  unique : ∀ {id o v o' v'}, (id, o, v) ∈ s.registered → (id, o', v') ∈ s.registered → o = o'
  held : ∀ {c id}, s.Held c id → s.connected c = true ∧ ∃ v, (id, some c, v) ∈ s.registered
  waits : ∀ {c r}, s.pc c = .registering r → ∃ v, s.awaited c = [v]
  idle : ∀ {c}, (∀ r, s.pc c ≠ .registering r) → s.awaited c = []
  busy : ∀ {c}, s.pc c ≠ .idle → s.connected c = true

section

variable {s s' : Hub κ ρ σ γ} {unknown : κ} {l : Label κ ρ σ γ}

/-- A step that registers a value for the client. -/
def Registers (s s' : Hub κ ρ σ γ) (c : γ) (id : κ) : Prop :=
  id = s.counter ∧ s.counter < s'.counter ∧
    ∃ r v q, s.pc c = .registering r ∧ s.jobs = .register v (some c) :: q ∧
      s'.registered = s.registered ++ [(id, some c, v)]

/-- What is placed was placed before, or it is registered just now. -/
theorem Step.placed (h : Step unknown s l s') {c : γ} {r : ρ} {id : κ} (hid : s'.Placed c r id) :
    s.Placed c r id ∨ Registers s s' c id ∧ s.pc c = .registering r := by
  -- Images and services other than that of the client change for the worse only.
  have himage : ∀ {id'}, Function.update s.image id' none id = some (r, c) → s.Placed c r id := by
    intro id' h
    rw [Function.update_apply] at h
    split_ifs at h
    exact .inl h
  have hpc : ∀ {c' pc}, (∀ r, pc ≠ .registered r id) →
      Function.update s.pc c' pc c = .registered r id → s.Placed c r id := by
    intro c' pc hne h
    rw [Function.update_apply] at h
    split_ifs at h
    · exact absurd h (hne r)
    · exact .inr h
  cases h with
  | @register v owner q n hq hn =>
    rcases hid with hid | hid
    · exact .inl (.inl hid)
    cases owner with
    | none => exact .inl (.inr hid)
    | some c' =>
      cases hc' : s.pc c' with
      | registering r' =>
        simp only [fulfil, hc', Function.update_apply] at hid
        split_ifs at hid with hcc'
        · subst hcc'
          cases hid
          exact .inr ⟨⟨rfl, hn, r, v, q, hc', hq, rfl⟩, hc'⟩
        · exact .inl (.inr hid)
      | _ =>
        simp only [fulfil, hc'] at hid
        exact .inl (.inr hid)
  | readAdd _ _ => exact .inl (hid.elim .inl (hpc (by simp)))
  | readRemove => exact .inl (hid.elim himage .inr)
  | readUnknown => exact .inl (hid.elim himage .inr)
  | @link c' r' id' hreg =>
    refine .inl (hid.elim (fun h => ?_) (hpc (by simp)))
    simp only [Function.update_apply] at h
    split_ifs at h with hid
    · -- The image is the one linked, unless there is one already.
      subst hid
      cases himg : s.image id with
      | none =>
        rw [himg, Option.getD_none] at h
        cases h
        exact .inr hreg
      | some x =>
        rw [himg, Option.getD_some] at h
        exact .inl (himg.trans h)
    · exact .inl h
  | close => exact .inl (hid.elim .inl (hpc (by simp)))
  | unlink => exact .inl (hid.elim himage .inr)
  | closed => exact .inl (hid.elim .inl (hpc (by simp)))
  | _ => exact .inl hid

/-- An image remains, unless the client removes it or is gone. -/
theorem Step.keeps_image (h : Step unknown s l s') (hs : Inv unknown s) {c : γ} {r : ρ} {id : κ}
    (hid : s.image id = some (r, c)) (hc : s.pc c ≠ .closing)
    (hremove : l ≠ .read c (some (.remove r))) : s'.image id = some (r, c) := by
  -- Another image is unlinked.
  have hother : ∀ {id' x}, s.image id' = x → x ≠ some (r, c) →
      Function.update s.image id' none id = some (r, c) := by
    intro id' x hx hne
    refine (Function.update_of_ne ?_ ..).trans hid
    rintro rfl
    exact hne (hx.symm.trans hid)
  cases h with
  | readRemove _ _ h =>
    refine hother h fun he => ?_
    cases he
    exact hremove rfl
  | readUnknown => exact hother hs.image_unknown nofun
  | link =>
    simp only [Function.update_apply]
    split_ifs with he
    · rw [← he, hid, Option.getD_some]
    · exact hid
  | unlink hclosing h =>
    refine hother h fun he => ?_
    cases he
    exact hc hclosing
  | _ => exact hid

/-- What is placed remains so, unless the client removes it or is gone. -/
theorem Step.keeps_placed (h : Step unknown s l s') (hs : Inv unknown s) {c : γ} {r : ρ} {id : κ}
    (hid : s.Placed c r id) (hc : s.pc c ≠ .closing)
    (hremove : l ≠ .read c (some (.remove r))) : s'.Placed c r id := by
  rcases hid with hid | hid
  · exact .inl (h.keeps_image hs hid hc hremove)
  have hpc : ∀ {c' pc}, (∀ r, s.pc c' ≠ .registered r id) →
      Function.update s.pc c' pc c = .registered r id := by
    intro c' pc hne
    refine (Function.update_of_ne ?_ ..).trans hid
    rintro rfl
    exact hne r hid
  cases h with
  | @register v owner q n hq hn =>
    refine .inr ?_
    cases owner with
    | none => exact hid
    | some c' =>
      cases hc' : s.pc c' with
      | registering r' =>
        simp only [fulfil, hc']
        exact hpc (by simp [hc'])
      | _ =>
        simp only [fulfil, hc']
        exact hid
  | readAdd _ hidle => exact .inr (hpc (by simp [hidle]))
  | @link c' r' id' hreg =>
    by_cases hcc : c = c'
    · -- It is linked now.
      subst hcc
      cases hreg.symm.trans hid
      refine .inl ?_
      simp only [Function.update_self, (hs.answered hid).2.2.1, Option.getD_none]
    · exact .inr ((Function.update_of_ne hcc ..).trans hid)
  | close _ hidle => exact .inr (hpc (by simp [hidle]))
  | closed hclosing => exact .inr (hpc (by simp [hclosing]))
  | _ => exact .inr hid

/-- A client waits for a registration from when it is read. -/
theorem Step.registering (h : Step unknown s l s') {c : γ} {r : ρ}
    (hpc : s'.pc c = .registering r) :
    s.pc c = .registering r ∨ ∃ v, l = .read c (some (.add r v)) := by
  have hset : ∀ {c' pc}, (∀ r, pc ≠ .registering r) →
      Function.update s.pc c' pc c = .registering r → s.pc c = .registering r := by
    intro c' pc hne h
    rw [Function.update_apply] at h
    split_ifs at h
    · exact absurd h (hne r)
    · exact h
  cases h with
  | @register v owner q n hq hn =>
    cases owner with
    | none => exact .inl hpc
    | some c' =>
      cases hc' : s.pc c' with
      | registering r' =>
        simp only [fulfil, hc'] at hpc
        exact .inl (hset (by simp) hpc)
      | _ =>
        simp only [fulfil, hc'] at hpc
        exact .inl hpc
  | @readAdd c' r' v =>
    simp only [Function.update_apply] at hpc
    split_ifs at hpc with hcc
    · cases hpc
      exact .inr ⟨v, by rw [hcc]⟩
    · exact .inl hpc
  | link => exact .inl (hset (by simp) hpc)
  | close => exact .inl (hset (by simp) hpc)
  | closed => exact .inl (hset (by simp) hpc)
  | _ => exact .inl hpc

/-- What a client holds it has held before, or it is registered just now. -/
theorem Step.held (h : Step unknown s l s') {c : γ} {id : κ} (hid : s'.Held c id) :
    s.Held c id ∨ Registers s s' c id := by
  obtain ⟨r, hid⟩ := hid
  exact (h.placed hid).imp (fun h => ⟨r, h⟩) And.left

/-- Who is not connected is not served, and holds nothing. -/
theorem Served.away (hs : Served unknown s) {c : γ} (hc : s.connected c = false) :
    s.pc c = .idle ∧ s.awaited c = [] ∧ ∀ id, ¬s.Held c id := by
  have hpc : s.pc c = .idle := by
    by_contra hne
    exact Bool.false_ne_true (hc.symm.trans (hs.busy hne))
  refine ⟨hpc, hs.idle (by simp [hpc]), fun id hid => ?_⟩
  exact Bool.false_ne_true (hc.symm.trans (hs.held hid).1)

theorem Step.registered_subset (h : Step unknown s l s') : s.registered ⊆ s'.registered := by
  cases h with
  | register => exact List.subset_append_left ..
  | _ => exact List.Subset.refl _

theorem Step.connected (h : Step unknown s l s') {c : γ} (hc : s'.connected c = true) :
    s.connected c = true ∨ l = .accept c := by
  cases h with
  | @accept c' hc' =>
    change Function.update s.connected c' true c = true at hc
    rw [Function.update_apply] at hc
    split_ifs at hc with he
    · exact .inr (congrArg _ he.symm)
    · exact .inl hc
  | @closed c' _ _ =>
    change Function.update s.connected c' false c = true at hc
    rw [Function.update_apply] at hc
    split_ifs at hc
    exact .inl hc
  | _ => exact .inl hc

theorem Served.fulfil_cases (hs : Served unknown s) {v : σ} {owner : Option γ}
    {q : List (Job κ σ γ)} (hq : s.jobs = .register v owner :: q) (c : γ) :
    (owner = some c ∧ s.awaited c = [v] ∧ q.filterMap (Job.awaited c) = [] ∧
        ∃ r, s.pc c = .registering r ∧ s.fulfil owner c = .registered r s.counter) ∨
      (owner ≠ some c ∧ q.filterMap (Job.awaited c) = s.awaited c ∧ s.fulfil owner c = s.pc c) :=
  Hub.fulfil_cases hq hs.waits hs.idle

/-- Values are registered for clients connected. -/
theorem Served.registered (hs : Served unknown s) (h : Step unknown s l s') {id : κ} {c : γ} {v : σ}
    (hmem : (id, some c, v) ∈ s'.registered) :
    (id, some c, v) ∈ s.registered ∨ s.connected c = true := by
  cases h with
  | @register v' owner q n hq hn =>
    rcases List.mem_append.1 hmem with hmem | hmem
    · exact .inl hmem
    · cases List.mem_singleton.1 hmem
      rcases hs.fulfil_cases hq c with ⟨-, -, -, r, hr, -⟩ | ⟨hne, -⟩
      · exact .inr (hs.busy (by simp [hr]))
      · exact absurd rfl hne
  | _ => exact .inl hmem

/-- Nothing is registered, and the clients wait for the same registrations. -/
theorem Served.congr (hs : Served unknown s) (hcounter : s'.counter = s.counter)
    (hreg : s'.registered = s.registered) (hconn : ∀ c, s.connected c → s'.connected c)
    (hheld : ∀ {c id}, s'.Held c id → s.Held c id) (haw : ∀ c, s'.awaited c = s.awaited c)
    (hpc : ∀ {c}, s'.pc c = s.pc c ∨ (s'.pc c = .idle ∧ ∀ r, s.pc c ≠ .registering r) ∨
      (s'.pc c = .closing ∧ s.connected c = true ∧ ∀ r, s.pc c ≠ .registering r)) :
    Served unknown s' where
  unknown_lt := hcounter ▸ hs.unknown_lt
  lt_id := hreg ▸ hs.lt_id
  id_lt := hreg ▸ hcounter ▸ hs.id_lt
  unique := hreg ▸ hs.unique
  held hid := by
    obtain ⟨hc, h⟩ := hs.held (hheld hid)
    exact ⟨hconn _ hc, hreg ▸ h⟩
  waits {c r} h := by
    rcases hpc (c := c) with hpc | ⟨hpc, -⟩ | ⟨hpc, -⟩
    · rw [haw]
      exact hs.waits (hpc ▸ h)
    · cases hpc.symm.trans h
    · cases hpc.symm.trans h
  idle {c} h := by
    rw [haw]
    rcases hpc (c := c) with hpc | ⟨-, hne⟩ | ⟨-, -, hne⟩
    · exact hs.idle (hpc ▸ h)
    · exact hs.idle hne
    · exact hs.idle hne
  busy {c} h := by
    rcases hpc (c := c) with hpc | ⟨hpc, -⟩ | ⟨-, hc, -⟩
    · exact hconn c (hs.busy (hpc ▸ h))
    · exact absurd hpc h
    · exact hconn c hc

theorem Served.register (hs : Served unknown s) {v : σ} {owner : Option γ} {q : List (Job κ σ γ)}
    {n : κ} (hq : s.jobs = .register v owner :: q) (hn : s.counter < n) :
    Served unknown { s with
      jobs := q, counter := n, pc := s.fulfil owner
      module := Function.update s.module s.counter (some v)
      registered := s.registered ++ [(s.counter, owner, v)] } := by
  have hreg : ∀ {id o v'}, (id, o, v') ∈ s.registered ++ [(s.counter, owner, v)] →
      (id, o, v') ∈ s.registered ∨ (id = s.counter ∧ o = owner) := by
    intro id o v' h
    rcases List.mem_append.1 h with h | h
    · exact .inl h
    · cases List.mem_singleton.1 h
      exact .inr ⟨rfl, rfl⟩
  constructor
  case unknown_lt => exact hs.unknown_lt.trans hn
  case lt_id =>
    intro id o v' h
    rcases hreg h with h | ⟨rfl, -⟩
    · exact hs.lt_id h
    · exact hs.unknown_lt
  case id_lt =>
    intro id o v' h
    rcases hreg h with h | ⟨rfl, -⟩
    · exact (hs.id_lt h).trans hn
    · exact hn
  case unique =>
    intro id o v' o' v'' h h'
    rcases hreg h with h | ⟨rfl, rfl⟩ <;> rcases hreg h' with h' | ⟨hid, ho'⟩
    · exact hs.unique h h'
    · exact absurd (hs.id_lt h) (hid ▸ lt_irrefl _)
    · exact absurd (hs.id_lt h') (lt_irrefl _)
    · exact ho'.symm
  case held =>
    intro c id hid
    have hstep : Step unknown s .silent _ := .register hq hn
    rcases hstep.held hid with hid | ⟨-, -, r, v', q', hr, hq', h⟩
    · obtain ⟨hc, v', hv'⟩ := hs.held hid
      exact ⟨hc, v', List.mem_append_left _ hv'⟩
    · refine ⟨hs.busy (by simp [hr]), v', ?_⟩
      rw [h]
      exact List.mem_append_right _ (List.mem_singleton_self _)
  case waits =>
    intro c r h
    rcases hs.fulfil_cases hq c with ⟨-, -, -, r', -, h'⟩ | ⟨-, haw, h'⟩
    · cases h'.symm.trans h
    · obtain ⟨v', hv'⟩ := hs.waits (h'.symm.trans h)
      exact ⟨v', haw.trans hv'⟩
  case idle =>
    intro c h
    rcases hs.fulfil_cases hq c with ⟨-, -, hnil, -⟩ | ⟨-, haw, h'⟩
    · exact hnil
    · exact haw.trans (hs.idle fun r hr => h r (h'.trans hr))
  case busy =>
    intro c h
    rcases hs.fulfil_cases hq c with ⟨-, -, -, r, hr, -⟩ | ⟨-, -, h'⟩
    · exact hs.busy (by simp [hr])
    · exact hs.busy fun hidle => h (h'.trans hidle)

theorem Served.step (hs : Served unknown s) (h : Step unknown s l s') : Served unknown s' := by
  have hheld : ∀ {c id}, s'.registered = s.registered → s'.Held c id → s.Held c id := by
    intro c id hreg hid
    rcases h.held hid with hid | ⟨-, -, -, v, -, -, -, hreg'⟩
    · exact hid
    · rw [hreg] at hreg'
      exact absurd hreg'.symm (by simp)
  have haw : ∀ {s₁ : Hub κ ρ σ γ} {id}, s₁.jobs = s.jobs ++ [.unregister id] →
      ∀ c, s₁.awaited c = s.awaited c :=
    fun h c => (awaited_append h c).trans (List.append_nil _)
  have hupdate : ∀ {c₀ c : γ} {pc}, s.pc c₀ = pc → (∀ r, pc ≠ .registering r) →
      Function.update s.pc c₀ .idle c = s.pc c ∨
        (Function.update s.pc c₀ .idle c = .idle ∧ ∀ r, s.pc c ≠ .registering r) ∨
        (Function.update s.pc c₀ .idle c = .closing ∧ s.connected c = true ∧
          ∀ r, s.pc c ≠ .registering r) := by
    intro c₀ c pc hpc hne
    by_cases hc : c = c₀
    · subst hc
      exact .inr (.inl ⟨Function.update_self .., fun r hr => hne r (hpc.symm.trans hr)⟩)
    · exact .inl (Function.update_of_ne hc ..)
  cases h with
  | keep => exact hs
  | readOther => exact hs
  | post v =>
    exact hs.congr rfl rfl (fun _ => id) (hheld rfl)
      (fun c => (awaited_append rfl c).trans (List.append_nil _)) (.inl rfl)
  | drop => exact hs.congr rfl rfl (fun _ => id) (hheld rfl) (haw rfl) (.inl rfl)
  | dropNow => exact hs.congr rfl rfl (fun _ => id) (hheld rfl) (fun _ => rfl) (.inl rfl)
  | register hq hn => exact hs.register hq hn
  | unregister hq =>
    refine hs.congr rfl rfl (fun _ => id) (hheld rfl) (fun c => ?_) (.inl rfl)
    rw [awaited, awaited, hq]
    rfl
  | @accept c =>
    refine hs.congr rfl rfl (fun c' hc' => ?_) (hheld rfl) (fun _ => rfl) (.inl rfl)
    change Function.update s.connected c true c' = true
    rw [Function.update_apply]
    split_ifs
    · rfl
    · exact hc'
  | @readAdd c r v hc hidle =>
    have hempty : s.awaited c = [] := hs.idle (by simp [hidle])
    have haw' : ∀ c', (s.jobs ++ [Job.register v (some c)]).filterMap (Job.awaited c') =
        s.awaited c' ++ if c = c' then [v] else [] := by
      intro c'
      rw [List.filterMap_append]
      by_cases h : c = c' <;> simp [awaited, Job.awaited, h]
    constructor
    case unknown_lt => exact hs.unknown_lt
    case lt_id => exact hs.lt_id
    case id_lt => exact hs.id_lt
    case unique => exact hs.unique
    case held => exact fun hid => hs.held (hheld rfl hid)
    case waits =>
      intro c' r' h
      by_cases hcc' : c' = c
      · subst hcc'
        exact ⟨v, (haw' c').trans (by rw [hempty, if_pos rfl]; rfl)⟩
      · obtain ⟨v', hv'⟩ := hs.waits ((Function.update_of_ne hcc' ..).symm.trans h)
        exact ⟨v', (haw' c').trans (by rw [hv', if_neg (Ne.symm hcc'), List.append_nil])⟩
    case idle =>
      intro c' h
      by_cases hcc' : c' = c
      · subst hcc'
        exact absurd (Function.update_self ..) (h r)
      · refine (haw' c').trans ?_
        rw [if_neg (Ne.symm hcc'), List.append_nil]
        exact hs.idle fun r' hr' => h r' ((Function.update_of_ne hcc' ..).trans hr')
    case busy =>
      intro c' h
      by_cases hcc' : c' = c
      · exact hcc' ▸ hc
      · exact hs.busy fun hidle' => h ((Function.update_of_ne hcc' ..).trans hidle')
  | readRemove => exact hs.congr rfl rfl (fun _ => id) (hheld rfl) (haw rfl) (.inl rfl)
  | readUnknown => exact hs.congr rfl rfl (fun _ => id) (hheld rfl) (haw rfl) (.inl rfl)
  | link hpc =>
    exact hs.congr rfl rfl (fun _ => id) (hheld rfl) (fun _ => rfl) (hupdate hpc (by simp))
  | @close c hc hidle =>
    refine hs.congr rfl rfl (fun _ => id) (hheld rfl) (fun _ => rfl) fun {c'} => ?_
    by_cases hcc' : c' = c
    · subst hcc'
      exact .inr (.inr ⟨Function.update_self .., hc, by simp [hidle]⟩)
    · exact .inl (Function.update_of_ne hcc' ..)
  | unlink => exact hs.congr rfl rfl (fun _ => id) (hheld rfl) (haw rfl) (.inl rfl)
  | @closed c hpc hnone =>
    -- The client is known to be gone only now that it holds nothing.
    have hother : ∀ {c'}, c' ≠ c → Function.update s.connected c false c' = s.connected c' :=
      fun h => Function.update_of_ne h ..
    have hs' : Served unknown { s with pc := Function.update s.pc c .idle } :=
      hs.congr rfl rfl (fun _ => id) (hheld rfl) (fun _ => rfl) (hupdate hpc (by simp))
    constructor
    case unknown_lt => exact hs.unknown_lt
    case lt_id => exact hs.lt_id
    case id_lt => exact hs.id_lt
    case unique => exact hs.unique
    case waits => exact hs'.waits
    case idle => exact hs'.idle
    case held =>
      intro c' id hid
      have hcc' : c' ≠ c := by
        intro h
        obtain ⟨r, himage | hreg⟩ := hheld rfl hid
        · exact hnone id r (h ▸ himage)
        · rw [h, hpc] at hreg
          cases hreg
      obtain ⟨hc', h⟩ := hs.held (hheld rfl hid)
      exact ⟨(hother hcc').trans hc', h⟩
    case busy =>
      intro c' h
      by_cases hcc' : c' = c
      · subst hcc'
        exact absurd (Function.update_self ..) h
      · exact (hother hcc').trans (hs'.busy h)

/-! ## Unregistering -/

/-- The step unregisters the id, by its job or because the application drops it. -/
def Unregisters (s : Hub κ ρ σ γ) (l : Label κ ρ σ γ) (s' : Hub κ ρ σ γ) (id : κ) : Prop :=
  s.jobs = .unregister id :: s'.jobs ∨ (l = .drop id ∧ s'.jobs = s.jobs)

/-- The ids the step unregisters, one or none. -/
def Erases (s : Hub κ ρ σ γ) (l : Label κ ρ σ γ) (s' : Hub κ ρ σ γ) (ids : List κ) : Prop :=
  (ids = [] ∧ ∀ id, ¬Unregisters s l s' id) ∨ ∃ id, ids = [id] ∧ Unregisters s l s' id

/-- The application drops values of its own. -/
def DropsOwn (s : Hub κ ρ σ γ) (l : Label κ ρ σ γ) : Prop :=
  ∀ id, l = .drop id → ∃ v, (id, none, v) ∈ s.registered

/-- The ids `es` are those unregistered so far: what a client has registered is held
    by it, or unregistered once, now or by a job posted. -/
structure Tally (s : Hub κ ρ σ γ) (es : List κ) : Prop where
  lt : ∀ {id}, id ∈ s.leaving ++ es → id < s.counter
  module : ∀ {id o v}, (id, o, v) ∈ s.registered → (s.module id = none ↔ id ∈ es)
  held : ∀ {id c v}, (id, some c, v) ∈ s.registered → s.Held c id →
    (s.leaving ++ es).count id = 0
  released : ∀ {id c v}, (id, some c, v) ∈ s.registered → ¬s.Held c id →
    (s.leaving ++ es).count id = 1

omit [LinearOrder κ] [DecidableEq γ] in
theorem leaving_append {jobs : List (Job κ σ γ)} (h : s'.jobs = s.jobs ++ jobs) :
    s'.leaving = s.leaving ++ jobs.filterMap Job.unregisters? := by
  rw [leaving, h, List.filterMap_append, leaving]

omit [LinearOrder κ] [DecidableEq γ] in
theorem leaving_concat {id : κ} (h : s'.jobs = s.jobs ++ [.unregister id]) :
    s'.leaving = s.leaving ++ [id] := leaving_append h

omit [LinearOrder κ] [DecidableEq γ] in
theorem Erases.eq_nil {ids : List κ} (h : Erases s l s' ids) (hne : ∀ id, ¬Unregisters s l s' id) :
    ids = [] := by
  rcases h with ⟨h, -⟩ | ⟨id, -, h⟩
  · exact h
  · exact absurd h (hne id)

omit [LinearOrder κ] [DecidableEq γ] in
theorem Erases.eq_of_append {ids : List κ} (h : Erases s l s' ids) {jobs : List (Job κ σ γ)}
    (hjobs : s'.jobs = s.jobs ++ jobs) (hl : jobs = [] → ∀ id, l ≠ .drop id) : ids = [] := by
  refine h.eq_nil fun id hid => ?_
  rcases hid with hid | ⟨hdrop, hid⟩
  · have := congrArg List.length hid
    simp only [hjobs, List.length_cons, List.length_append] at this
    omega
  · rw [hjobs] at hid
    exact hl (by simpa using hid) id hdrop

/-- One more id is to be unregistered. -/
theorem count_concat_append {α : Type*} [DecidableEq α] (xs ys : List α) (x y : α) :
    (xs ++ [x] ++ ys).count y = (xs ++ ys).count y + if x = y then 1 else 0 := by
  simp only [List.count_append, List.count_singleton, beq_iff_eq]
  omega

omit [DecidableEq γ]

/-- The clients hold what they have held, or release something that is posted. -/
theorem Tally.of_balance {es es' : List κ} (hs : Tally s es) (hreg : s'.registered = s.registered)
    (hlt : ∀ id ∈ s'.leaving ++ es', id < s'.counter)
    (hmodule : ∀ {id o v}, (id, o, v) ∈ s.registered → (s'.module id = none ↔ id ∈ es'))
    (hbalance : ∀ {id c v}, (id, some c, v) ∈ s.registered →
      ((s'.Held c id ↔ s.Held c id) ∧ (s'.leaving ++ es').count id = (s.leaving ++ es).count id) ∨
        (s.Held c id ∧ ¬s'.Held c id ∧
          (s'.leaving ++ es').count id = (s.leaving ++ es).count id + 1)) :
    Tally s' es' := by
  refine ⟨fun h => hlt _ h, fun h => hmodule (hreg ▸ h), fun h hid => ?_, fun h hid => ?_⟩
  · rcases hbalance (hreg ▸ h) with ⟨hiff, hcount⟩ | ⟨-, hnot, -⟩
    · exact hcount.trans (hs.held (hreg ▸ h) (hiff.1 hid))
    · exact absurd hid hnot
  · rcases hbalance (hreg ▸ h) with ⟨hiff, hcount⟩ | ⟨hheld, -, hcount⟩
    · exact hcount.trans (hs.released (hreg ▸ h) fun hid' => hid (hiff.2 hid'))
    · rw [hcount, hs.held (hreg ▸ h) hheld]

/-- Nothing is registered, unregistered or posted. -/
theorem Tally.congr {es : List κ} (hs : Tally s es) (hreg : s'.registered = s.registered)
    (hcounter : s'.counter = s.counter) (hmodule : s'.module = s.module)
    (hleaving : s'.leaving = s.leaving)
    (hheld : ∀ {c id v}, (id, some c, v) ∈ s.registered → (s'.Held c id ↔ s.Held c id)) :
    Tally s' es := by
  refine hs.of_balance hreg (fun id h => ?_) (fun h => hmodule ▸ hs.module h)
    fun h => .inl ⟨hheld h, by rw [hleaving]⟩
  rw [hcounter]
  exact hs.lt (hleaving ▸ h)

theorem Tally.lt_concat {es : List κ} (hs : Tally s es) {id : κ} (hid : id < s.counter) :
    ∀ id' ∈ s.leaving ++ [id] ++ es, id' < s.counter := by
  intro id' h
  rw [List.append_assoc, List.mem_append, List.mem_append, List.mem_singleton] at h
  rcases h with h | rfl | h
  · exact hs.lt (List.mem_append_left _ h)
  · exact hid
  · exact hs.lt (List.mem_append_right _ h)

/-- What is of no client is to be unregistered. -/
theorem Tally.post {es : List κ} (hs : Tally s es) (hreg : s'.registered = s.registered)
    (hcounter : s'.counter = s.counter) (hmodule : s'.module = s.module) {id : κ}
    (hid : id < s.counter) (hleaving : s'.leaving = s.leaving ++ [id])
    (hheld : ∀ {c id v}, (id, some c, v) ∈ s.registered → (s'.Held c id ↔ s.Held c id))
    (hno : ∀ c v, (id, some c, v) ∉ s.registered) : Tally s' es := by
  refine hs.of_balance hreg ?_ (fun h => hmodule ▸ hs.module h)
    fun {id' c v} h => .inl ⟨hheld h, ?_⟩
  · rw [hcounter, hleaving]
    exact hs.lt_concat hid
  · have hne : id ≠ id' := by
      rintro rfl
      exact hno c v h
    rw [hleaving, count_concat_append, if_neg hne, Nat.add_zero]

/-- A client releases what it holds, which is to be unregistered. -/
theorem Tally.release {es : List κ} (hs : Tally s es) (hreg : s'.registered = s.registered)
    (hcounter : s'.counter = s.counter) (hmodule : s'.module = s.module) {id : κ} {c : γ}
    (hid : s.Held c id) (hlt : id < s.counter) (hleaving : s'.leaving = s.leaving ++ [id])
    (howner : ∀ {c' v}, (id, some c', v) ∈ s.registered → c' = c)
    (hheld : ∀ {c' id' v}, (id', some c', v) ∈ s.registered →
      (s'.Held c' id' ↔ s.Held c' id' ∧ id' ≠ id)) : Tally s' es := by
  refine hs.of_balance hreg ?_ (fun h => hmodule ▸ hs.module h) fun {id' c' v} h => ?_
  · rw [hcounter, hleaving]
    exact hs.lt_concat hlt
  · rw [hleaving, count_concat_append]
    by_cases he : id = id'
    · subst he
      cases howner h
      exact .inr ⟨hid, fun h' => ((hheld h).1 h').2 rfl, by rw [if_pos rfl]⟩
    · refine .inl ⟨⟨fun h' => ((hheld h).1 h').1, fun h' => (hheld h).2 ⟨h', Ne.symm he⟩⟩, ?_⟩
      rw [if_neg he, Nat.add_zero]

/-- A value is unregistered: its job is done, or it is of no client. -/
theorem Tally.erase {es : List κ} (hs : Tally s es) (hreg : s'.registered = s.registered)
    (hcounter : s'.counter = s.counter) {id : κ} (hid : id < s.counter)
    (hmodule : s'.module = Function.update s.module id none)
    (hheld : ∀ {c id}, s'.Held c id ↔ s.Held c id)
    (hleaving : (s.leaving = id :: s'.leaving) ∨
      (s.leaving = s'.leaving ∧ ∀ c v, (id, some c, v) ∉ s.registered)) :
    Tally s' (es ++ [id]) := by
  have hcount : ∀ id', (s'.leaving ++ (es ++ [id])).count id' =
      (s'.leaving ++ es).count id' + if id = id' then 1 else 0 := by
    intro id'
    simp only [List.count_append, List.count_singleton, beq_iff_eq]
    omega
  -- What leaves the queue is erased: the two together count as before.
  refine hs.of_balance hreg (fun id' h => ?_) (fun {id' o v} h => ?_) fun {id' c v} h =>
    .inl ⟨hheld, ?_⟩
  · rw [hcounter]
    rw [← List.append_assoc, List.mem_append, List.mem_singleton] at h
    rcases h with h | rfl
    · refine hs.lt ?_
      rcases hleaving with hl | ⟨hl, -⟩
      · rw [hl]
        exact List.mem_cons_of_mem _ h
      · rwa [hl]
    · exact hid
  · rw [hmodule, Function.update_apply, List.mem_append, List.mem_singleton]
    split_ifs with he
    · exact ⟨fun _ => .inr he, fun _ => rfl⟩
    · rw [or_iff_left he]
      exact hs.module h
  · rw [hcount]
    rcases hleaving with hl | ⟨hl, hno⟩
    · rw [hl, List.cons_append, List.count_cons]
      simp only [beq_iff_eq]
    · have hne : id ≠ id' := by
        rintro rfl
        exact hno c v h
      rw [hl, if_neg hne, Nat.add_zero]

end

section

variable {s s' : Hub κ ρ σ γ} {unknown : κ} {l : Label κ ρ σ γ}

/-- A value is registered, which its client holds from now on. -/
theorem Tally.register {es : List κ} (hs : Tally s es) (hserved : Served unknown s) {v : σ}
    {owner : Option γ} {q : List (Job κ σ γ)} {n : κ} (hq : s.jobs = .register v owner :: q)
    (hn : s.counter < n) :
    Tally { s with
      jobs := q, counter := n, pc := s.fulfil owner
      module := Function.update s.module s.counter (some v)
      registered := s.registered ++ [(s.counter, owner, v)] } es := by
  have hleaving : s.leaving = q.filterMap Job.unregisters? := by
    rw [leaving, hq]
    rfl
  have hmem : ∀ {id o v'}, (id, o, v') ∈ s.registered ++ [(s.counter, owner, v)] →
      ((id, o, v') ∈ s.registered ∧ id ≠ s.counter) ∨ (id = s.counter ∧ o = owner) := by
    intro id o v' h
    rcases List.mem_append.1 h with h | h
    · exact .inl ⟨h, (hserved.id_lt h).ne⟩
    · cases List.mem_singleton.1 h
      exact .inr ⟨rfl, rfl⟩
  have hnew : s.counter ∉ s.leaving ++ es := fun h => lt_irrefl _ (hs.lt h)
  have hkeep : ∀ {c id}, s.Held c id → Held { s with
      jobs := q, counter := n, pc := s.fulfil owner
      module := Function.update s.module s.counter (some v)
      registered := s.registered ++ [(s.counter, owner, v)] } c id := by
    rintro c id ⟨r, h | h⟩
    · exact ⟨r, .inl h⟩
    · rcases hserved.fulfil_cases hq c with ⟨-, -, -, r', hr', -⟩ | ⟨-, -, h'⟩
      · cases hr'.symm.trans h
      · exact ⟨r, .inr (h'.trans h)⟩
  constructor
  case lt =>
    intro id h
    exact (hs.lt (hleaving ▸ h)).trans hn
  case module =>
    intro id o v' h
    rcases hmem h with ⟨h, hne⟩ | ⟨rfl, -⟩
    · change Function.update s.module s.counter (some v) id = none ↔ _
      rw [Function.update_of_ne hne]
      exact hs.module h
    · change Function.update s.module s.counter (some v) s.counter = none ↔ _
      rw [Function.update_self]
      exact ⟨fun h => absurd h (Option.some_ne_none v),
        fun h => absurd (List.mem_append_right _ h) hnew⟩
  -- The new id is counted nowhere yet.
  case held =>
    intro id c v' h hid
    change (q.filterMap Job.unregisters? ++ es).count id = 0
    rw [← hleaving]
    have hstep : Step unknown s .silent _ := .register hq hn
    rcases hstep.held hid with hid | ⟨rfl, -⟩
    · obtain ⟨-, v'', h⟩ := hserved.held hid
      exact hs.held h hid
    · exact List.count_eq_zero_of_not_mem hnew
  case released =>
    intro id c v' h hid
    change (q.filterMap Job.unregisters? ++ es).count id = 1
    rw [← hleaving]
    rcases hmem h with ⟨h, -⟩ | ⟨rfl, rfl⟩
    · exact hs.released h fun h' => hid (hkeep h')
    · rcases hserved.fulfil_cases hq c with ⟨-, -, -, r, -, h'⟩ | ⟨hne, -⟩
      · exact absurd ⟨r, .inr h'⟩ hid
      · exact absurd rfl hne

omit [DecidableEq γ] in
/-- Only the image of this id changes. -/
theorem held_update {s : Hub κ ρ σ γ} {id : κ} {jobs : List (Job κ σ γ)}
    (hpc : ∀ {c v}, (id, some c, v) ∈ s.registered → ∀ r, s.pc c ≠ .registered r id)
    {c : γ} {id' : κ} {v : σ} (h : (id', some c, v) ∈ s.registered) :
    Held { s with jobs, image := Function.update s.image id none } c id' ↔
      s.Held c id' ∧ id' ≠ id := by
  constructor
  · rintro ⟨r, hid | hid⟩
    · change Function.update s.image id none id' = _ at hid
      rw [Function.update_apply] at hid
      split_ifs at hid with he
      exact ⟨⟨r, .inl hid⟩, he⟩
    · refine ⟨⟨r, .inr hid⟩, ?_⟩
      rintro rfl
      exact hpc h r hid
  · rintro ⟨⟨r, hid | hid⟩, hne⟩
    · exact ⟨r, .inl ((Function.update_of_ne hne ..).trans hid)⟩
    · exact ⟨r, .inr hid⟩

omit [LinearOrder κ] in
/-- The service of a client goes on, but for registering. -/
theorem held_setPc {s : Hub κ ρ σ γ} {c₀ : γ} {pc : Pc κ ρ}
    {jobs : List (Job κ σ γ)} {connected : γ → Bool} (hold : ∀ r id, s.pc c₀ ≠ .registered r id)
    (hnew : ∀ r id, pc ≠ .registered r id) {c : γ} {id : κ} :
    Held { s with jobs, connected, pc := Function.update s.pc c₀ pc } c id ↔ s.Held c id := by
  have hpc : ∀ r, Function.update s.pc c₀ pc c = .registered r id ↔ s.pc c = .registered r id := by
    intro r
    rw [Function.update_apply]
    split_ifs with hc
    · rw [hc]
      exact ⟨fun h => absurd h (hnew r id), fun h => absurd h (hold r id)⟩
    · exact Iff.rfl
  exact exists_congr fun r => or_congr Iff.rfl (hpc r)

/-- What is registered through a client is its own. -/
theorem Served.owner_of_held (hs : Served unknown s) {id : κ} {c c' : γ} {v : σ}
    (hid : s.Held c id) (h : (id, some c', v) ∈ s.registered) : c' = c := by
  obtain ⟨-, v', h'⟩ := hs.held hid
  exact Option.some.inj (hs.unique h h')

/-- What a client has linked is released. -/
theorem Tally.unlink {es : List κ} (hs : Tally s es) (hserved : Served unknown s) {c : γ} {r : ρ}
    {id : κ} (hid : s.image id = some (r, c)) (hpc : ∀ r id, s.pc c ≠ .registered r id) :
    Tally { s with
      jobs := s.jobs ++ [.unregister id], image := Function.update s.image id none } es := by
  have hheld : s.Held c id := ⟨r, .inl hid⟩
  obtain ⟨-, v, h⟩ := hserved.held hheld
  refine hs.release rfl rfl rfl hheld (hserved.id_lt h) (leaving_concat rfl)
    (fun h' => hserved.owner_of_held hheld h') (held_update fun h' r' => ?_)
  rw [hserved.owner_of_held hheld h']
  exact hpc r' id

/-- The registration of a client is linked, which held it already. -/
theorem Tally.link {es : List κ} (hs : Tally s es) (hserved : Served unknown s) {c : γ} {r : ρ}
    {id : κ} (hpc : s.pc c = .registered r id) :
    Tally { s with
      image := Function.update s.image id (some ((s.image id).getD (r, c)))
      pc := Function.update s.pc c .idle } es := by
  refine hs.congr rfl rfl rfl rfl fun {c' id' v} h => ⟨fun hid => ?_, ?_⟩
  · have hstep : Step unknown s .silent _ := .link hpc
    rcases hstep.held hid with hid | ⟨-, hlt, -⟩
    · exact hid
    · exact absurd hlt (lt_irrefl _)
  rintro ⟨r', hid | hid⟩
  · refine ⟨r', .inl ?_⟩
    change Function.update s.image id _ id' = _
    rw [Function.update_apply]
    split_ifs with he
    · rw [← he, hid, Option.getD_some]
    · exact hid
  · by_cases hc : c' = c
    · subst hc
      cases hpc.symm.trans hid
      -- An image with this id would be of the same client.
      refine ⟨((s.image id).getD (r, c')).1, .inl ((Function.update_self ..).trans ?_)⟩
      cases himage : s.image id with
      | none => rfl
      | some x =>
        have := hserved.owner_of_held ⟨x.1, .inl himage⟩ h
        rw [Option.getD_some, this]
    · exact ⟨r', .inr ((Function.update_of_ne hc ..).trans hid)⟩

theorem Tally.step {es ids : List κ} (hs : Tally s es) (hserved : Served unknown s)
    (h : Step unknown s l s') (hids : Erases s l s' ids) (hown : DropsOwn s l) :
    Tally s' (es ++ ids) := by
  have hkeep : ids = [] → Tally s' es → Tally s' (es ++ ids) := by
    rintro rfl h
    rwa [List.append_nil]
  have hone : ∀ {id}, Unregisters s l s' id → (∀ id', Unregisters s l s' id' → id' = id) →
      ids = [id] := by
    intro id hid huniq
    rcases hids with ⟨-, h⟩ | ⟨id', h, hid'⟩
    · exact absurd hid (h id)
    · rw [h, huniq id' hid']
  have hidle : ∀ {c}, s.pc c = .idle → ∀ r id, s.pc c ≠ .registered r id := by
    intro c h
    simp [h]
  -- A step erases nothing (`hkeep`), or one id (`hone`).
  cases h with
  | keep => exact hkeep (hids.eq_of_append (List.append_nil _).symm (by simp)) hs
  | readOther => exact hkeep (hids.eq_of_append (List.append_nil _).symm (by simp)) hs
  | post v =>
    refine hkeep (hids.eq_of_append rfl (by simp)) ?_
    exact hs.congr rfl rfl rfl ((leaving_append rfl).trans (List.append_nil _)) fun _ => Iff.rfl
  | drop id =>
    obtain ⟨v, hv⟩ := hown id rfl
    refine hkeep (hids.eq_of_append rfl (by simp)) ?_
    refine hs.post rfl rfl rfl (hserved.id_lt hv) (leaving_concat rfl) (fun _ => Iff.rfl)
      fun c v' h => ?_
    cases hserved.unique hv h
  | dropNow id =>
    obtain ⟨v, hv⟩ := hown id rfl
    have hno : ∀ c v, (id, some c, v) ∉ s.registered := by
      intro c v' h
      cases hserved.unique hv h
    obtain rfl : ids = [id] := by
      refine hone (.inr ⟨rfl, rfl⟩) fun id' hid' => ?_
      rcases hid' with hid' | ⟨hid', -⟩
      · exact absurd (congrArg List.length hid') (by simp)
      · cases hid'
        rfl
    refine hs.erase ?_ ?_ (hserved.id_lt hv) ?_ ?_ ?_
    exacts [rfl, rfl, rfl, Iff.rfl, .inr ⟨rfl, hno⟩]
  | @register v owner q n hq hn =>
    refine hkeep (hids.eq_nil fun id hid => ?_) (hs.register hserved hq hn)
    rcases hid with hid | ⟨hid, -⟩
    · cases hq.symm.trans hid
    · cases hid
  | @unregister id q hq =>
    have hleaving : s.leaving = id :: q.filterMap Job.unregisters? := by
      rw [leaving, hq]
      rfl
    have hid : id < s.counter := hs.lt (by simp [hleaving])
    obtain rfl : ids = [id] := by
      refine hone (.inl hq) fun id' hid' => ?_
      rcases hid' with hid' | ⟨hid', -⟩
      · cases hq.symm.trans hid'
        rfl
      · cases hid'
    refine hs.erase ?_ ?_ hid ?_ ?_ ?_
    exacts [rfl, rfl, rfl, Iff.rfl, .inl hleaving]
  | accept =>
    refine hkeep (hids.eq_of_append (List.append_nil _).symm (by simp)) ?_
    exact hs.congr rfl rfl rfl rfl fun _ => Iff.rfl
  | readAdd _ hc =>
    refine hkeep (hids.eq_of_append rfl (by simp)) ?_
    exact hs.congr rfl rfl rfl ((leaving_append rfl).trans (List.append_nil _)) fun _ =>
      held_setPc (hidle hc) (by simp)
  | readRemove _ hc hid =>
    exact hkeep (hids.eq_of_append rfl (by simp)) (hs.unlink hserved hid (hidle hc))
  | readUnknown _ hc hno =>
    refine hkeep (hids.eq_of_append rfl (by simp)) ?_
    have hunknown : ∀ {o v}, (unknown, o, v) ∉ s.registered := fun h =>
      lt_irrefl _ (hserved.lt_id h)
    refine hs.post rfl rfl rfl hserved.unknown_lt (leaving_concat rfl) (fun h => ?_)
      fun _ _ => hunknown
    refine (held_update (fun h _ => absurd h hunknown) h).trans (and_iff_left ?_)
    rintro rfl
    exact hunknown h
  | link hpc =>
    exact hkeep (hids.eq_of_append (List.append_nil _).symm (by simp)) (hs.link hserved hpc)
  | close _ hc =>
    refine hkeep (hids.eq_of_append (List.append_nil _).symm (by simp)) ?_
    exact hs.congr rfl rfl rfl rfl fun _ => held_setPc (hidle hc) (by simp)
  | unlink hpc hid =>
    exact hkeep (hids.eq_of_append rfl (by simp)) (hs.unlink hserved hid (by simp [hpc]))
  | closed hpc =>
    refine hkeep (hids.eq_of_append (List.append_nil _).symm (by simp)) ?_
    exact hs.congr rfl rfl rfl rfl fun _ => held_setPc (by simp [hpc]) (by simp)

end

end Hub
