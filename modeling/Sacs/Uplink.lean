import Sacs.Images
import Sacs.Startup

/-!
# The messages of an instance to the host

An instance that is not the host sends what it pushes to the host, in order
(`Uplinks`). It has no web server and no clients (`Instance.Proxying`), also
before it knows its role.
-/

namespace Sacs

open JsonMsg ModuleManager

/-! ## What is pushed -/

/-- What is pushed from `s` to `s'` is sent to the host. -/
def Uplinks (s s' : Instance) : Prop :=
  ∃ news, s'.pushed = s.pushed ++ news ∧ s'.client = s.client.map (· ++ news) ∧
    (s.client = none → news = [])

theorem Uplinks.of_silent {s s' : Instance} (hp : s'.pushed = s.pushed)
    (hc : s'.client = s.client) : Uplinks s s' := by
  refine ⟨[], by rw [hp, List.append_nil], ?_, fun _ => rfl⟩
  rw [hc]
  cases s.client <;> simp

theorem Uplinks.of_eq {s s₁ s' : Instance} (h : Uplinks s₁ s') (hp : s₁.pushed = s.pushed)
    (hc : s₁.client = s.client) : Uplinks s s' := by
  obtain ⟨news, hnews, hclient, hnone⟩ := h
  exact ⟨news, hp ▸ hnews, hc ▸ hclient, fun h => hnone (hc.trans h)⟩

theorem uplinks_of_pushMsg {s s' : Instance} {msg : Text} (h : pushMsg s msg = .ok s')
    (hserver : s.serverImpl = false) : Uplinks s s' := by
  have hp := (pushed_pushMsg h).1
  obtain ⟨hs, -⟩ | ⟨-, sent, hsent, rfl⟩ := pushMsg_cases h
  · exact absurd (hs.symm.trans hserver) Bool.noConfusion
  · refine ⟨[msg], hp, ?_, fun h => ?_⟩
    · rw [hsent]
      rfl
    · rw [hsent] at h
      cases h

theorem uplinks_of_handleMessage {s s' : Instance} {msg : Text}
    (h : handleMessage s false msg = .ok s')
    (hserver : s.serverImpl = false) : Uplinks s s' := by
  have hlog : (s.log (.handled msg)).pushed = s.pushed :=
    (pushed_of_trace (s := s) rfl).trans (List.append_nil _)
  obtain ⟨-, rfl⟩ | ⟨-, h⟩ := handleMessage_cases h
  · exact .of_silent hlog rfl
  · exact (uplinks_of_pushMsg h hserver).of_eq hlog rfl

/-- What is not pushed by a step is not sent. -/
theorem Transition.uplinks {s s' : Instance} {a : Action} (h : Transition s a s')
    (ha : ∀ ok, a ≠ .connecting ok) (hserver : s.serverImpl = false) : Uplinks s s' := by
  have hhandle : ∀ {s₁ : Instance} {msg : Text}, handleMessage s₁ false msg = .ok s' →
      s₁.serverImpl = s.serverImpl → s₁.pushed = s.pushed → s₁.client = s.client → Uplinks s s' :=
    fun h hs hp hc => (uplinks_of_handleMessage h (hs.trans hserver)).of_eq hp hc
  have hlog : ∀ {s₁ : Instance} {l : List Event}, s₁.trace = s.trace ++ l →
      l.filterMap Event.pushed? = [] → s₁.pushed = s.pushed := fun h hes => by
    rw [pushed_of_trace h, hes, List.append_nil]
  cases h with
  | taskRole => exact .of_silent rfl rfl
  | taskHandle _ h => exact hhandle h rfl rfl rfl
  | @taskRegister m promise q msg s₁ ht _ _ h =>
    have h₁ : Uplinks s s₁ :=
      (uplinks_of_handleMessage h hserver).of_eq (hlog (l := [_]) rfl rfl) rfl
    obtain ⟨news, hnews, hclient, hnone⟩ := h₁
    have hsil := silent_fulfil s₁ promise s.idCounter
    obtain ⟨_, _, hf⟩ := fulfil_frame s₁ promise s.idCounter
    refine ⟨news, hsil.pushed.trans hnews, ?_, hnone⟩
    rw [hf]
    exact hclient
  | taskUnregister ht _ h => exact hhandle h rfl (hlog (l := [_]) rfl rfl) rfl
  | taskSaveNone => exact .of_silent rfl rfl
  | taskSave => exact .of_silent (hlog (l := [_]) rfl rfl) rfl
  | taskOther => exact .of_silent (hlog (l := [_]) rfl rfl) rfl
  | @taskLoad json w q result s₁ ht _ _ h =>
    refine .of_silent (((silent_take s q).trans h.silent).trans (silent_answer ..)).pushed ?_
    obtain ⟨_, _, _, _, _, hf⟩ := h.answer_frame _ _
    rw [hf]
  | @taskApply json w q s₁ ht _ h =>
    refine .of_silent (((silent_take s q).trans h.silent).trans (silent_answer ..)).pushed ?_
    obtain ⟨_, _, _, _, _, hf⟩ := h.answer_frame _ _
    rw [hf]
  | @taskPass json q _ ht h =>
    refine .of_silent ((silent_take s q).trans h.silent).pushed ?_
    obtain ⟨_, _, _, _, rfl⟩ := h.frame
    rfl
  | flush _ _ h => exact (uplinks_of_pushMsg h hserver).of_eq rfl rfl
  | callbackUnregister _ _ h =>
    exact hhandle h rfl (hlog (l := [_, _]) (List.append_assoc ..) rfl) rfl
  | callbackUpdate _ hs _ h =>
    have hsil := (silent_savePropertiesList hs).1
    obtain ⟨_, _, rfl⟩ := savePropertiesList_frame hs
    exact hhandle h rfl hsil.pushed rfl
  | callbackUpdateThrows _ hs _ =>
    have hsil := (silent_savePropertiesList hs).1
    obtain ⟨_, _, rfl⟩ := savePropertiesList_frame hs
    exact .of_silent hsil.pushed rfl
  | callbackAnswer => exact .of_silent (hlog (l := [_]) rfl rfl) rfl
  | unregisterModule => exact .of_silent (hlog (l := [_]) rfl rfl) rfl
  | wsNotJson => exact .of_silent (hlog (l := [_]) rfl rfl) rfl
  | connectingAgain => exact absurd rfl (ha _)
  | connectingProxy => exact absurd rfl (ha _)
  | connectingHost => exact absurd rfl (ha _)
  | _ => exact .of_silent rfl rfl

/-! ## Instances that are not the host -/

/-- The instance is not the host, nor going to be. -/
structure Instance.Proxying (s : Instance) : Prop where
  server : s.server = false
  serverImpl : s.serverImpl = false
  role : ∀ {hostMode}, .onProxyInitialized hostMode ∈ s.threadLoop → hostMode = false
  clients : ∀ c, s.clients c = none
  /-- It has a connection once it knows its role. -/
  unconnected : s.proxyInitialized = false → s.client = none
  pushed : s.client = none → s.pushed = []

/-- The actions that are none of the network between the instances. -/
def Action.isLocal : Action → Bool
  | .connecting _ | .proxyRead _ | .accept _ | .read _ _ | .closed _ => false
  | _ => true

namespace Instance.Proxying

variable {s s' : Instance} (hs : s.Proxying)

include hs

/-- Nobody is connected, and nobody can be. -/
theorem clients_step {a : Action} (h : Transition s a s') (c : ClientId) : s'.clients c = none := by
  have hpasses : ∀ {s₁ s₂ : Instance} {json : JsonMsg}, Passes s₁ json s₂ →
      s₁.clients = s.clients → s₂.clients c = none := by
    intro s₁ s₂ json h h₁
    have hc : s₁.clients c = none := by rw [h₁, hs.clients]
    cases h with
    | sent _ _ _ _ _ _ _ hout =>
      rw [h₁, hs.clients] at hout
      cases hout
    | _ => exact hc
  cases h with
  | taskHandle _ h => rw [(handleMessage_emits h).clients]; exact hs.clients c
  | taskRegister _ _ _ h =>
    obtain ⟨_, _, hf⟩ := fulfil_frame _ _ _
    rw [hf]
    dsimp only
    rw [(handleMessage_emits h).clients]
    exact hs.clients c
  | taskUnregister _ _ h => rw [(handleMessage_emits h).clients]; exact hs.clients c
  | taskLoad _ _ _ h =>
    have hc := hpasses h rfl
    obtain ⟨_, _, _, hf⟩ := answer_frame _ _ _
    rwa [hf]
  | taskApply _ _ h =>
    have hc := hpasses h rfl
    obtain ⟨_, _, _, hf⟩ := answer_frame _ _ _
    rwa [hf]
  | taskPass _ h => exact hpasses h rfl
  | flush _ _ h => rw [(pushMsg_emits h).clients]; exact hs.clients c
  | callbackUnregister _ _ h => rw [(handleMessage_emits h).clients]; exact hs.clients c
  | callbackUpdate _ hs₁ _ h =>
    rw [(handleMessage_emits h).clients]
    obtain ⟨_, _, rfl⟩ := savePropertiesList_frame hs₁
    exact hs.clients c
  | callbackUpdateThrows _ hs₁ _ =>
    obtain ⟨_, _, rfl⟩ := savePropertiesList_frame hs₁
    exact hs.clients c
  | accept hserver => exact absurd (hserver.symm.trans hs.server) Bool.noConfusion
  | resumeClosed => exact (Function.update_apply ..).trans (by split_ifs <;> simp [hs.clients])
  | _ => exact hs.clients c

theorem step {a : Action} (h : Transition s a s') (ha : ∀ ok, a ≠ .connecting ok) :
    s'.Proxying := by
  have hrole := h.keepsRole ha
  obtain ⟨news, hnews, hclient, hnone⟩ := h.uplinks ha hs.serverImpl
  refine ⟨hrole.server.trans hs.server, ?_, ?_, hs.clients_step h, fun hp => ?_, fun hc => ?_⟩
  · obtain h | ⟨_, _, ht, h⟩ := h.serverImpl_cases <;> rw [h, hs.serverImpl]
    exact hs.role (ht.threadLoop ▸ List.mem_cons_self)
  · exact fun hm => hs.role (h.mem_threadLoop_role ha hm)
  · rw [hclient, hs.unconnected (hrole.proxyInitialized ▸ hp)]
    rfl
  · have hc : s.client = none := by
      cases h : s.client with
      | none => rfl
      | some sent =>
        rw [hclient, h] at hc
        cases hc
    rw [hnews, hs.pushed hc, hnone hc]
    rfl

/-- The connection attempt succeeds. -/
theorem connect (h : Transition s (.connecting true) s') (hp : s.proxyInitialized = false) :
    s'.Proxying ∧ s'.client = some [] ∧ s'.pushed = [] := by
  cases h with
  | connectingAgain hp' => exact absurd (hp.symm.trans hp') Bool.noConfusion
  | connectingProxy =>
    refine ⟨⟨hs.server, hs.serverImpl, fun h => ?_, hs.clients, nofun, nofun⟩, rfl,
      hs.pushed (hs.unconnected hp)⟩
    rcases List.mem_append.1 h with h | h
    · exact hs.role h
    · cases List.mem_singleton.1 h
      exact hs.server

end Instance.Proxying

end Sacs
