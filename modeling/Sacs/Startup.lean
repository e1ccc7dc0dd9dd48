import Sacs.Role
import Mathlib.Data.Fintype.Sets

/-!
# The start-up of the instances

Instances starting on the same port elect a host: each tries to connect to the
port, and one whose attempt fails becomes the host, and listens on the port.
Between the failed attempt and the listening socket, other attempts fail as
well, and there are several hosts (`not_singleHost_of_race`). The socket is
given to the first, which the others do not check.

If no instance tries to connect while another one is between its failed attempt
and its socket (`Startup.Serialized`), there is a single host
(`singleHost_of_runs`).

The library of the network is modelled by whom it gives the socket to: a
connection attempt succeeds if there is an instance listening at that moment.
-/

namespace Sacs

open JsonMsg ModuleManager

/-! ## Instances starting on one port -/

variable {ι : Type}

/-- How far an instance is in its start-up. -/
inductive Boot (ι : Type)
  | created
  /-- The connection attempt was made, its outcome, the instance connected to if
      any, is still to be reported. -/
  | attempted (peer : Option ι)
  /-- In `ProxyServer::Init`, about to call `CreateServer`. -/
  | creatingServer
  | connected (peer : ι)
  | host
  deriving DecidableEq

/-- Instances starting on one port. -/
structure Startup (ι : Type) where
  inst : ι → Instance := fun _ => {}
  boot : ι → Boot ι := fun _ => .created
  /-- The instance listening on the port. -/
  listening : Option ι := none

namespace Startup

inductive Action (ι : Type)
  /-- `CreateClient`, in `Proxy::Init`. -/
  | createClient (i : ι)
  | onClientConnecting (i : ι)
  /-- `CreateServer`, in `ProxyServer::Init`, and the rest of `OnClientConnecting`. -/
  | createServer (i : ι)
  /-- Another step of an instance. -/
  | run (i : ι) (a : Sacs.Action)

variable [DecidableEq ι]

def setBoot (w : Startup ι) (i : ι) (b : Boot ι) : Startup ι :=
  { w with boot := Function.update w.boot i b }

def setInst (w : Startup ι) (i : ι) (s : Instance) : Startup ι :=
  { w with inst := Function.update w.inst i s }

/-- The socket is obtained if no instance has it. The code does not look at the
    result. -/
def step (w : Startup ι) : Action ι → Except Fault (Startup ι)
  | .createClient i => match w.boot i with
    | .created => .ok (w.setBoot i (.attempted w.listening))
    | _ => .error .disabled
  | .onClientConnecting i => match w.boot i with
    | .attempted (some h) => do
      return (w.setInst i (← (w.inst i).step (.connecting true))).setBoot i (.connected h)
    | .attempted none => .ok (w.setBoot i .creatingServer)
    | _ => .error .disabled
  | .createServer i => match w.boot i with
    | .creatingServer => do
      let w := { w with listening := w.listening.or (some i) }
      return (w.setInst i (← (w.inst i).step (.connecting false))).setBoot i .host
    | _ => .error .disabled
  | .run i a => match a with
    | .connecting _ => .error .disabled
    | a => do return w.setInst i (← (w.inst i).step a)

abbrev Steps : Startup ι → Action ι → Startup ι → Prop := Lts.Exec step

/-- The instance has chosen to be the host. -/
def ChoseHost (w : Startup ι) (i : ι) : Prop :=
  w.boot i = .creatingServer ∨ (w.inst i).server = true

/-- At most one instance is the host, and the initialized ones are the one listening
    or are connected to it. -/
structure SingleHost (w : Startup ι) : Prop where
  unique : ∀ {i j}, w.ChoseHost i → w.ChoseHost j → i = j
  joined : ∀ {i}, (w.inst i).initialized = true → w.listening = some i ∨
    ∃ h, w.listening = some h ∧ w.boot i = .connected h ∧ (w.inst i).client.isSome

/-- The attempt of the instance has failed, and it has not obtained the socket yet. -/
def Pending (w : Startup ι) (i : ι) : Prop :=
  w.boot i = .attempted none ∨ w.boot i = .creatingServer

/-- No instance attempts to connect between the failed attempt of another one and
    its socket. -/
def Serialized (w : Startup ι) : Action ι → Prop
  | .createClient _ => ∀ j, ¬w.Pending j
  | _ => True

/-! ### The invariant -/

/-- What is known of an instance at a stage of its start-up. -/
structure Stage (b : Boot ι) (s : Instance) : Prop where
  server : s.server = true → b = .host
  proxyInitialized : s.proxyInitialized = true → b = .host ∨ ∃ h, b = .connected h
  ready : s.Ready → b = .host ∨ ∃ h, b = .connected h
  client : ∀ {h}, b = .connected h → s.client.isSome

structure Elected (w : Startup ι) : Prop where
  stage : ∀ i, Stage (w.boot i) (w.inst i)
  unique : ∀ {i j}, w.Pending i → w.Pending j → i = j
  free : ∀ {i}, w.Pending i → w.listening = none
  listening : ∀ {i}, w.boot i = .host ↔ w.listening = some i
  peer : ∀ {i h}, w.boot i = .attempted (some h) ∨ w.boot i = .connected h → w.listening = some h

namespace Stage

variable {b b' : Boot ι} {s s' : Instance}

omit [DecidableEq ι] in
theorem congr (h : Stage b s) (hs : KeepsRole s s') : Stage b s' :=
  ⟨fun hr => h.server (hs.server ▸ hr), fun hr => h.proxyInitialized (hs.proxyInitialized ▸ hr),
    fun hr => h.ready (hs.ready hr), fun hb => by rw [hs.client]; exact h.client hb⟩

omit [DecidableEq ι] in
/-- Nothing is known at the stages before the outcome of the attempt is reported. -/
theorem unstarted (h : Stage b s) (hb : ¬(b = .host ∨ ∃ h, b = .connected h))
    (hb' : ∀ h, b' ≠ .connected h) : Stage b' s :=
  ⟨fun hr => absurd (.inl (h.server hr)) hb, fun hr => absurd (h.proxyInitialized hr) hb,
    fun hr => absurd (h.ready hr) hb, fun hr => absurd hr (hb' _)⟩

end Stage

namespace Elected

variable {w : Startup ι} (hw : w.Elected)

include hw

/-- A step of the instance `i`, now at the stage `b`. -/
theorem touch {w' : Startup ι} {i : ι} {b : Boot ι} (hboot : w'.boot = Function.update w.boot i b)
    (hinst : ∀ j, j ≠ i → w'.inst j = w.inst j) (hlistening : w'.listening = w.listening)
    (hstage : Stage b (w'.inst i))
    (hpending : b = .attempted none ∨ b = .creatingServer →
      w.listening = none ∧ ∀ j, j ≠ i → ¬w.Pending j)
    (hhost : b = .host ↔ w.listening = some i)
    (hpeer : ∀ {h}, b = .attempted (some h) ∨ b = .connected h → w.listening = some h) :
    w'.Elected := by
  have hself : w'.boot i = b := by rw [hboot, Function.update_self]
  have hother : ∀ j, j ≠ i → w'.boot j = w.boot j := fun j hj => by
    rw [hboot, Function.update_of_ne hj]
  have hp : ∀ {j}, w'.Pending j → (j = i ∧ w.listening = none ∧ ∀ k, k ≠ i → ¬w.Pending k) ∨
      (j ≠ i ∧ w.Pending j) := by
    intro j hj
    by_cases hji : j = i
    · subst hji
      rw [Pending, hself] at hj
      exact .inl ⟨rfl, hpending hj⟩
    · rw [Pending, hother j hji] at hj
      exact .inr ⟨hji, hj⟩
  refine ⟨fun j => ?_, fun {j k} hj hk => ?_, fun hj => ?_, fun {j} => ?_, fun {j h} hj => ?_⟩
  · by_cases hji : j = i
    · subst hji
      rwa [hself]
    · rw [hother j hji, hinst j hji]
      exact hw.stage j
  · rcases hp hj with ⟨rfl, -, hnone⟩ | ⟨hji, hj⟩ <;> rcases hp hk with ⟨rfl, -, hnone'⟩ | ⟨hki, hk⟩
    · rfl
    · exact absurd hk (hnone _ hki)
    · exact absurd hj (hnone' _ hji)
    · exact hw.unique hj hk
  · rw [hlistening]
    rcases hp hj with ⟨-, hl, -⟩ | ⟨-, hj⟩
    · exact hl
    · exact hw.free hj
  · rw [hlistening]
    by_cases hji : j = i
    · subst hji
      rwa [hself]
    · rw [hother j hji]
      exact hw.listening
  · rw [hlistening]
    by_cases hji : j = i
    · subst hji
      rw [hself] at hj
      exact hpeer hj
    · rw [hother j hji] at hj
      exact hw.peer hj

omit [DecidableEq ι] in
theorem not_listening {i : ι} (hi : w.boot i ≠ .host) : w.listening ≠ some i :=
  fun h => hi (hw.listening.2 h)

theorem createClient {i : ι} (hi : w.boot i = .created) (hser : ∀ j, ¬w.Pending j) :
    (w.setBoot i (.attempted w.listening)).Elected := by
  refine hw.touch rfl (fun _ _ => rfl) rfl ((hw.stage i).unstarted (by simp [hi]) (by simp))
    (fun h => ⟨by simpa using h, fun j _ => hser j⟩) ?_ (by simp)
  simpa using hw.not_listening (i := i) (by simp [hi])

/-- The attempt has succeeded. -/
theorem connected {i h : ι} {s : Instance} (hi : w.boot i = .attempted (some h))
    (hs : (w.inst i).step (.connecting true) = .ok s) :
    ((w.setInst i s).setBoot i (.connected h)).Elected := by
  have hl := hw.peer (.inl hi)
  refine hw.touch rfl (fun j hj => Function.update_of_ne hj _ _) rfl ?_ (by simp) ?_
    (by simpa using hl)
  · have hself : ((w.setInst i s).setBoot i (.connected h)).inst i = s := Function.update_self ..
    have hst := hw.stage i
    rw [hself]
    cases transition_of_step hs with
    | connectingAgain hp => simpa [hi] using hst.proxyInitialized hp
    | connectingProxy =>
      exact ⟨fun hr => by simpa [hi] using hst.server hr, fun _ => .inr ⟨h, rfl⟩,
        fun _ => .inr ⟨h, rfl⟩, fun _ => rfl⟩
  · simpa using hw.not_listening (i := i) (by simp [hi])

/-- The attempt has failed. -/
theorem failed {i : ι} (hi : w.boot i = .attempted none) :
    (w.setBoot i .creatingServer).Elected := by
  refine hw.touch rfl (fun _ _ => rfl) rfl ((hw.stage i).unstarted (by simp [hi]) (by simp))
    (fun _ => ⟨hw.free (.inl hi), fun j hj hp => hj (hw.unique hp (.inl hi))⟩) ?_ (by simp)
  simpa using hw.not_listening (i := i) (by simp [hi])

/-- The only instance whose attempt has failed obtains the socket. -/
theorem createServer {i : ι} {s : Instance} (hi : w.boot i = .creatingServer)
    (hs : (w.inst i).step (.connecting false) = .ok s) :
    ((setInst { w with listening := w.listening.or (some i) } i s).setBoot i .host).Elected := by
  have hfree := hw.free (.inr hi)
  rw [hfree, Option.none_or]
  generalize hw' : (setInst { w with listening := some i } i s).setBoot i .host = w'
  have hlistening : w'.listening = some i := hw' ▸ rfl
  have hself : w'.boot i = .host := hw' ▸ Function.update_self ..
  have hother : ∀ j, j ≠ i → w'.boot j = w.boot j := fun j hj =>
    hw' ▸ Function.update_of_ne hj _ _
  have hnone : ∀ j, ¬w'.Pending j := by
    intro j hj
    by_cases hji : j = i
    · subst hji
      simp [Pending, hself] at hj
    · rw [Pending, hother j hji] at hj
      exact hji (hw.unique hj (.inr hi))
  refine ⟨fun j => ?_, fun hj => absurd hj (hnone _), fun hj => absurd hj (hnone _), fun {j} => ?_,
    fun {j h} hj => ?_⟩ <;> by_cases hji : j = i
  · subst hji
    rw [hself, ← hw']
    have hs' : ((setInst { w with listening := some j } j s).setBoot j .host).inst j = s :=
      Function.update_self ..
    rw [hs']
    exact ⟨fun _ => rfl, fun _ => .inl rfl, fun _ => .inl rfl, fun hb => by cases hb⟩
  · have hs' : w'.inst j = w.inst j := hw' ▸ Function.update_of_ne hji _ _
    rw [hother j hji, hs']
    exact hw.stage j
  · simp [hji, hself, hlistening]
  · rw [hother j hji, hw.listening, hfree, hlistening]
    simp [Ne.symm hji]
  · rw [hji, hself] at hj
    simp at hj
  · -- No instance was connected yet.
    rw [hother j hji] at hj
    have := hw.peer hj
    rw [hfree] at this
    cases this

theorem run {i : ι} {s : Instance} (hs : KeepsRole (w.inst i) s) : (w.setInst i s).Elected := by
  refine ⟨fun j => ?_, hw.unique, hw.free, hw.listening, hw.peer⟩
  by_cases hji : j = i
  · subst hji
    have : (w.setInst j s).inst j = s := Function.update_self ..
    rw [this]
    exact (hw.stage j).congr hs
  · have : (w.setInst i s).inst j = w.inst j := Function.update_of_ne hji _ _
    rw [this]
    exact hw.stage j

omit [DecidableEq ι] in
theorem singleHost : w.SingleHost := by
  refine ⟨fun {i j} hi hj => ?_, fun {i} hi => ?_⟩
  · have hserver : ∀ {k}, (w.inst k).server = true → w.listening = some k :=
      fun {k} h => hw.listening.1 ((hw.stage k).server h)
    rcases hi with hi | hi <;> rcases hj with hj | hj
    · exact hw.unique (.inr hi) (.inr hj)
    · have := (hw.free (.inr hi)).symm.trans (hserver hj)
      cases this
    · have := (hw.free (.inr hj)).symm.trans (hserver hi)
      cases this
    · exact Option.some.inj ((hserver hi).symm.trans (hserver hj))
  · rcases (hw.stage i).ready (.inl hi) with hb | ⟨h, hb⟩
    · exact .inl (hw.listening.1 hb)
    · exact .inr ⟨h, hw.peer (.inr hb), hb, (hw.stage i).client hb⟩

end Elected

/-! ### Whole runs -/

theorem elected_of_runs {as : List (Action ι)} {w : Startup ι}
    (h : Lts.Run (Lts.Under Serialized Steps) {} as w) : w.Elected := by
  refine h.invariant ⟨fun _ => ⟨by simp, by simp, ?_, by simp⟩, by simp [Pending],
    by simp [Pending], by simp, by simp⟩ ?_
  · rintro (h | ⟨b, hb⟩)
    · cases h
    · exact absurd hb List.not_mem_nil
  rintro w a w' hw ⟨hser, hst⟩
  cases a with
  | createClient i =>
    simp only [Lts.Exec, step] at hst
    split at hst <;> cases hst
    exact hw.createClient ‹_› hser
  | onClientConnecting i =>
    simp only [Lts.Exec, step] at hst
    split at hst
    · obtain ⟨s, hs, hst⟩ := bind_eq_ok.1 hst
      cases hst
      exact hw.connected ‹_› hs
    · cases hst
      exact hw.failed ‹_›
    · cases hst
  | createServer i =>
    simp only [Lts.Exec, step] at hst
    split at hst
    case h_2 => cases hst
    obtain ⟨s, hs, hst⟩ := bind_eq_ok.1 hst
    cases hst
    exact hw.createServer ‹_› hs
  | run i a =>
    simp only [Lts.Exec, step] at hst
    split at hst
    · cases hst
    · rename_i hne
      obtain ⟨s, hs, hst⟩ := bind_eq_ok.1 hst
      cases hst
      exact hw.run ((transition_of_step hs).keepsRole hne)

/-- There is a single host, in a run in which no instance attempts to connect
    between the failed attempt of another one and its socket. -/
theorem singleHost_of_runs {as : List (Action ι)} {w : Startup ι}
    (h : Lts.Run (Lts.Under Serialized Steps) {} as w) : w.SingleHost :=
  (elected_of_runs h).singleHost

/-- Two instances attempt to connect before any has a socket: both are hosts. -/
theorem not_singleHost_of_race : ∃ w : Startup Bool, Lts.Run Steps {}
    [.createClient false, .createClient true, .onClientConnecting false, .onClientConnecting true,
      .createServer false, .createServer true] w ∧ ¬w.SingleHost := by
  obtain ⟨w, h, hw⟩ := Lts.exists_run_of_foldlM step ({} : Startup Bool)
    [.createClient false, .createClient true, .onClientConnecting false,
      .onClientConnecting true, .createServer false, .createServer true]
    (fun w => ((w.inst false).server, (w.inst true).server)) (true, true) (by decide +kernel)
  refine ⟨w, h, fun hs => ?_⟩
  rw [Prod.mk.injEq] at hw
  exact Bool.false_ne_true (hs.unique (.inr hw.1) (.inr hw.2))

instance instDecidableSerialized [Fintype ι] (w : Startup ι) (a : Action ι) :
    Decidable (w.Serialized a) := by
  cases a <;> unfold Serialized Pending <;> infer_instance

/-- The second instance attempts to connect when the first one listens. -/
theorem singleHost_of_turns : ∃ w : Startup Bool, Lts.Run (Lts.Under Serialized Steps) {}
    [.createClient false, .onClientConnecting false, .createServer false, .run false .task,
      .createClient true, .onClientConnecting true, .run true .task] w ∧
    ((w.inst false).initialized = true ∧ (w.inst true).initialized = true) ∧ w.SingleHost := by
  obtain ⟨w, h, hw⟩ := Lts.exists_run_of_foldlM (Lts.guard Serialized step .disabled)
    ({} : Startup Bool)
    [.createClient false, .onClientConnecting false, .createServer false, .run false .task,
      .createClient true, .onClientConnecting true, .run true .task]
    (fun w => ((w.inst false).initialized, (w.inst true).initialized)) (true, true)
    (by decide +kernel)
  rw [Prod.mk.injEq] at hw
  exact ⟨w, h.under_of_guard, hw, singleHost_of_runs h.under_of_guard⟩

end Startup

end Sacs
