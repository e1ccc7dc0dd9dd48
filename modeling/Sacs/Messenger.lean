import Sacs.WebApp
import Sacs.Lib.Lts

/-!
# The connection of a page

The sockets that the page of a web client makes: one when it is loaded, and another one
with every attempt to reconnect, by a click on the button of the overlay or at the end of
its countdown (`WebApp.reconnect`). The overlay is shown, and the countdown is started, when
a socket is closed, and both end when one is opened.

The handlers of a socket are called with the socket as `this`: `onWsClose` does not change
the `websocket` of the messenger, and `onWsError` closes nothing.

An attempt does not end the countdown, nor disable the button, while it is on its way.
There is one live socket at most, the one held, as long as none is made during an attempt
(`sound_iff_waits`).
-/

namespace Sacs

/-- The `readyState` of a socket. -/
inductive ReadyState
  | connecting
  | opened
  | closing
  | closed
  deriving DecidableEq

/-- The web application of a page. -/
structure WebApp (S : Script) where
  page : Page S := {}
  /-- The sockets made so far. -/
  sockets : List ReadyState := []
  -- `Messenger`
  websocket : Option Nat := none
  -- `ReconnectInfo`
  visible : Bool := false
  /-- The counter that the timeout set is to call `updateReconnectionCounter` with. -/
  reconnectTimeout : Option Nat := none
  -- History
  /-- The messages processed: the socket of each, and the one held then. -/
  received : List (Nat × Option Nat) := []
  /-- The load requests: the socket opened, and the one the request was sent on. -/
  loads : List (Nat × Option Nat) := []

namespace WebApp

variable {S : Script} (app : WebApp S)

def createWs : WebApp S :=
  { app with
    sockets := app.sockets ++ [.connecting]
    websocket := some app.sockets.length }

def reconnect : WebApp S := app.createWs

def init (S : Script) : WebApp S := createWs {}

def releseTimeout : WebApp S := { app with reconnectTimeout := none }

def updateReconnectionCounter (counter : Nat) : WebApp S :=
  let app := app.releseTimeout
  if 0 < counter then { app with reconnectTimeout := some (counter - 1) } else app.reconnect

def enable : WebApp S := updateReconnectionCounter { app with visible := true } 10

def disable : WebApp S := { app.releseTimeout with visible := false }

/-- The socket that a message is sent on: `send` throws if the socket held is connecting,
    and sends nothing if it is closing or closed. -/
def sendsOn : Option Nat := app.websocket.filter fun i => app.sockets[i]? = some .opened

/-- `onConnected`, called by the socket `i`. -/
def onConnected (i : Nat) : WebApp S :=
  let app := app.disable
  { app with loads := app.loads ++ [(i, app.sendsOn)] }

def onDisconnected : WebApp S := enable { app with page := app.page.clear }

/-- `onMessage`, called by the socket `i`. -/
def onMessage (i : Nat) (msg : Text) : WebApp S :=
  { app with
    page := app.page.onMessage msg
    received := app.received ++ [(i, app.websocket)] }

def setReadyState (i : Nat) (state : ReadyState) : WebApp S :=
  { app with sockets := app.sockets.set i state }

/-- What happens in the browser. -/
inductive Action
  | opened (i : Nat)
  | message (i : Nat) (msg : Text)
  /-- The closing handshake of the socket is started. -/
  | closing (i : Nat)
  /-- The socket is closed, after an error or not. -/
  | closed (i : Nat)
  /-- The timeout is over. -/
  | tick
  /-- On the button of the overlay. -/
  | click

def step : Action → Except Fault (WebApp S)
  | .opened i =>
    if app.sockets[i]? = some .connecting then .ok ((app.setReadyState i .opened).onConnected i)
    else .error .disabled
  | .message i msg =>
    if app.sockets[i]? = some .opened then .ok (app.onMessage i msg) else .error .disabled
  | .closing i =>
    if app.sockets[i]? = some .opened then .ok (app.setReadyState i .closing)
    else .error .disabled
  | .closed i =>
    if i < app.sockets.length ∧ app.sockets[i]? ≠ some .closed then
      .ok (app.setReadyState i .closed).onDisconnected
    else .error .disabled
  | .tick => match app.reconnectTimeout with
    | some counter => .ok (app.updateReconnectionCounter counter)
    | none => .error .disabled
  | .click => if app.visible then .ok app.reconnect else .error .disabled

abbrev Steps : WebApp S → Action → WebApp S → Prop := Lts.Exec step

/-- The socket `i` is connecting or open. -/
def Live (i : Nat) : Prop :=
  app.sockets[i]? = some .connecting ∨ app.sockets[i]? = some .opened

/-- One socket is live at most. The messages processed came from the one held, and the load
    requests were sent on the one opened. -/
structure Sound : Prop where
  single : ∀ i j, app.Live i → app.Live j → i = j
  received : ∀ r ∈ app.received, r.2 = some r.1
  loads : ∀ l ∈ app.loads, l.2 = some l.1

/-- The user reconnects, or the countdown ends. -/
def Reconnects : Action → Bool
  | .click => true
  | .tick => app.reconnectTimeout = some 0
  | _ => false

/-- Nobody reconnects while a socket is connecting. -/
def Waits (a : Action) : Prop := app.Reconnects a = true → .connecting ∉ app.sockets

instance instDecidableWaits (app : WebApp S) (a : Action) : Decidable (app.Waits a) :=
  inferInstanceAs (Decidable (_ → _))

/-- The socket held is `i`, and all others are closed. While it is open or closing, there is
    no overlay and no countdown. -/
structure Holds (i : Nat) : Prop where
  websocket : app.websocket = some i
  lt : i < app.sockets.length
  others : ∀ j state, app.sockets[j]? = some state → j ≠ i → state = .closed
  quiet : app.sockets[i]? = some .opened ∨ app.sockets[i]? = some .closing →
    app.visible = false ∧ app.reconnectTimeout = none
  received : ∀ r ∈ app.received, r.2 = some r.1
  loads : ∀ l ∈ app.loads, l.2 = some l.1

variable {app}

theorem Holds.eq_of {i j : Nat} {state : ReadyState} (h : app.Holds i)
    (hj : app.sockets[j]? = some state) (hstate : state ≠ .closed) : j = i := by
  by_contra hne
  exact hstate (h.others j state hj hne)

theorem Holds.sound {i : Nat} (h : app.Holds i) : app.Sound := by
  have hlive : ∀ j, app.Live j → j = i := by
    rintro j (hj | hj)
    · exact h.eq_of hj (by decide)
    · exact h.eq_of hj (by decide)
  exact ⟨fun j k hj hk => (hlive j hj).trans (hlive k hk).symm, h.received, h.loads⟩

theorem holds_init (S : Script) : (init S).Holds 0 := by
  refine ⟨rfl, Nat.one_pos, fun j state hj hne => ?_, fun h => ?_, by simp [init, createWs],
    by simp [init, createWs]⟩
  · have hlt : j < 1 := (List.getElem?_eq_some_iff.1 hj).1
    exact absurd (Nat.lt_one_iff.1 hlt) hne
  · rcases h with h | h <;> cases h

theorem Holds.releseTimeout {i : Nat} (h : app.Holds i) : app.releseTimeout.Holds i :=
  ⟨h.websocket, h.lt, h.others, fun hquiet => ⟨(h.quiet hquiet).1, rfl⟩, h.received, h.loads⟩

/-- A socket is made once all others are closed. -/
theorem Holds.reconnect {i : Nat} (h : app.Holds i) (hclosed : app.sockets[i]? = some .closed) :
    app.reconnect.Holds app.sockets.length := by
  have hnew : app.reconnect.sockets[app.sockets.length]? = some .connecting :=
    List.getElem?_concat_length
  refine ⟨rfl, ?_, fun j state hj hne => ?_, fun hquiet => ?_, h.received, h.loads⟩
  · simp [WebApp.reconnect, createWs]
  · have hlt : j < app.sockets.length := by
      have := (List.getElem?_eq_some_iff.1 hj).1
      simp only [WebApp.reconnect, createWs, List.length_append, List.length_singleton] at this
      omega
    have hj' : app.sockets[j]? = some state := by
      rw [← hj]
      exact (List.getElem?_append_left hlt).symm
    by_cases hji : j = i
    · subst hji
      exact Option.some.inj (hj'.symm.trans hclosed)
    · exact h.others j state hj' hji
  · rw [hnew] at hquiet
    rcases hquiet with hquiet | hquiet <;> cases hquiet

/-- What a change of the state of the socket held leaves to show. -/
theorem Holds.of_set {app' : WebApp S} {i : Nat} {state : ReadyState} (h : app.Holds i)
    (hsockets : app'.sockets = app.sockets.set i state)
    (hwebsocket : app'.websocket = app.websocket)
    (hquiet : state = .opened ∨ state = .closing →
      app'.visible = false ∧ app'.reconnectTimeout = none)
    (hreceived : app'.received = app.received) (hloads : ∀ l ∈ app'.loads, l.2 = some l.1) :
    app'.Holds i := by
  have hself : app'.sockets[i]? = some state := by
    rw [hsockets, List.getElem?_set_self h.lt]
  refine ⟨hwebsocket.trans h.websocket, ?_, fun j st hj hne => ?_, fun hst => ?_,
    fun r hr => h.received r (hreceived ▸ hr), hloads⟩
  · rw [hsockets, List.length_set]
    exact h.lt
  · rw [hsockets, List.getElem?_set_ne (Ne.symm hne)] at hj
    exact h.others j st hj hne
  · rw [hself, Option.some.injEq, Option.some.injEq] at hst
    exact hquiet hst

theorem Holds.step {app' : WebApp S} {a : Action} {i : Nat} (h : app.Holds i)
    (hwaits : app.Waits a) (hst : Steps app a app') : ∃ j, app'.Holds j := by
  obtain ⟨state, hstate⟩ : ∃ state, app.sockets[i]? = some state :=
    ⟨_, List.getElem?_eq_getElem h.lt⟩
  -- Nobody reconnects but when the socket held is closed.
  have hclosed : app.Reconnects a = true →
      app.visible = true ∨ app.reconnectTimeout ≠ none → app.sockets[i]? = some .closed := by
    intro hrec hvisible
    cases state with
    | connecting => exact absurd (List.mem_of_getElem? hstate) (hwaits hrec)
    | opened =>
      obtain ⟨hhidden, htimeout⟩ := h.quiet (.inl hstate)
      simp [hhidden, htimeout] at hvisible
    | closing =>
      obtain ⟨hhidden, htimeout⟩ := h.quiet (.inr hstate)
      simp [hhidden, htimeout] at hvisible
    | closed => exact hstate
  cases a with
  | opened j =>
    rw [Steps, Lts.Exec, WebApp.step] at hst
    split_ifs at hst with hj
    cases hst
    obtain rfl := h.eq_of hj (by decide)
    refine ⟨j, h.of_set rfl rfl (fun _ => ⟨rfl, rfl⟩) rfl fun l hl => ?_⟩
    rcases List.mem_append.1 hl with hl | hl
    · exact h.loads l hl
    · rw [List.mem_singleton.1 hl]
      have hself : (app.sockets.set j .opened)[j]? = some ReadyState.opened :=
        List.getElem?_set_self h.lt
      exact (congrArg (Option.filter _) h.websocket).trans
        (Option.filter_some_pos (decide_eq_true hself))
  | message j msg =>
    rw [Steps, Lts.Exec, WebApp.step] at hst
    split_ifs at hst with hj
    cases hst
    obtain rfl := h.eq_of hj (by decide)
    refine ⟨j, h.websocket, h.lt, h.others, h.quiet, fun r hr => ?_, h.loads⟩
    rcases List.mem_append.1 hr with hr | hr
    · exact h.received r hr
    · rw [List.mem_singleton.1 hr]
      exact h.websocket
  | closing j =>
    rw [Steps, Lts.Exec, WebApp.step] at hst
    split_ifs at hst with hj
    cases hst
    obtain rfl := h.eq_of hj (by decide)
    exact ⟨j, h.of_set rfl rfl (fun _ => h.quiet (.inl hj)) rfl h.loads⟩
  | closed j =>
    rw [Steps, Lts.Exec, WebApp.step] at hst
    split_ifs at hst with hj
    cases hst
    obtain rfl := h.eq_of (List.getElem?_eq_getElem hj.1) fun he =>
      hj.2 (he ▸ List.getElem?_eq_getElem hj.1)
    exact ⟨j, h.of_set rfl rfl (by simp) rfl h.loads⟩
  | tick =>
    rw [Steps, Lts.Exec, WebApp.step] at hst
    cases htimeout : app.reconnectTimeout with
    | none => rw [htimeout] at hst; cases hst
    | some counter =>
      rw [htimeout] at hst
      cases hst
      cases counter with
      | zero =>
        exact ⟨_, h.releseTimeout.reconnect
          (hclosed (by simp [Reconnects, htimeout]) (.inr (by simp [htimeout])))⟩
      | succ counter =>
        refine ⟨i, h.websocket, h.lt, h.others, fun hquiet => ?_, h.received, h.loads⟩
        exact absurd (htimeout.symm.trans (h.quiet hquiet).2) (by simp)
  | click =>
    rw [Steps, Lts.Exec, WebApp.step] at hst
    split_ifs at hst with hvisible
    cases hst
    exact ⟨_, h.reconnect (hclosed rfl (.inl hvisible))⟩

theorem sockets_of_reconnects {app' : WebApp S} {a : Action} (hst : Steps app a app')
    (ha : app.Reconnects a = true) : app'.sockets = app.sockets ++ [.connecting] := by
  rw [Steps, Lts.Exec] at hst
  cases a with
  | tick =>
    rw [WebApp.step, of_decide_eq_true ha] at hst
    cases hst
    rfl
  | click =>
    rw [WebApp.step] at hst
    split_ifs at hst
    cases hst
    rfl
  | _ => cases ha

/-- Reconnecting while a socket is connecting makes two live ones. -/
theorem not_sound_of_reconnects {app' : WebApp S} {a : Action} (hst : Steps app a app')
    (h : ¬app.Waits a) : ¬app'.Sound := by
  intro hsound
  obtain ⟨ha, hmem⟩ := Classical.not_imp.1 h
  obtain ⟨i, hi⟩ := List.mem_iff_getElem?.1 (not_not.1 hmem)
  have hsockets := sockets_of_reconnects hst ha
  have hlt : i < app.sockets.length := (List.getElem?_eq_some_iff.1 hi).1
  have hold : app'.Live i := by
    rw [Live, hsockets, List.getElem?_append_left hlt]
    exact .inl hi
  have hnew : app'.Live app.sockets.length := by
    rw [Live, hsockets, List.getElem?_concat_length]
    exact .inl rfl
  exact absurd (hsound.single _ _ hold hnew) hlt.ne

/-- There is one live socket at most in every state of a run, the one held, if and only if
    nobody reconnects while a socket is connecting. -/
theorem sound_iff_waits {as : List Action} (h : Lts.Run Steps (init S) as app) :
    (∀ before after t, as = before ++ after → Lts.Run Steps (init S) before t → t.Sound) ↔
      Lts.Run (Lts.Under Waits Steps) (init S) as app := by
  refine h.under_iff (J := fun app => ∃ i, app.Holds i) (P := Sound) ⟨0, holds_init S⟩ ?_ ?_ ?_
  · rintro app ⟨i, hi⟩
    exact hi.sound
  · rintro app a app' ⟨i, hi⟩ hwaits hst
    exact hi.step hwaits hst
  · exact fun app a app' _ hwaits hst => not_sound_of_reconnects hst hwaits

/-- Scripts that do nothing. -/
def idle : Script where
  Obj := Unit
  construct _ := some ()
  setValue _ _ := some ()

/-- The connection is lost, and the countdown ends. -/
def lost : List Action := [.opened 0, .message 0 .other, .closed 0] ++ List.replicate 10 .tick

/-- After the countdown, the page is connected again. -/
theorem sound_of_lost : ∃ app : WebApp idle,
    Lts.Run Steps (init idle) (lost ++ [.opened 1, .message 1 .other]) app ∧ app.Sound ∧
      app.received = [(0, some 0), (1, some 1)] := by
  obtain ⟨app, h, hreceived⟩ := Lts.exists_run_of_foldlM (Lts.guard Waits step .disabled)
    (init idle) (lost ++ [.opened 1, .message 1 .other]) (·.received)
    [(0, some 0), (1, some 1)] (by decide +kernel)
  have hunder := h.under_of_guard
  exact ⟨app, hunder.of_under,
    (sound_iff_waits hunder.of_under).2 hunder _ [] app (List.append_nil _).symm hunder.of_under,
    hreceived⟩

/-- The user clicks twice: two sockets are connecting, and then open. The first one opened
    is not the one held, on which the request cannot be sent. -/
theorem not_sound_of_clicks : ∃ app : WebApp idle,
    Lts.Run Steps (init idle)
      [.opened 0, .closed 0, .click, .click, .opened 1, .opened 2, .message 1 .other] app ∧
    app.Live 1 ∧ app.Live 2 ∧ (1, some 2) ∈ app.received ∧ (1, none) ∈ app.loads ∧
    ¬app.Sound := by
  obtain ⟨app, h, hs⟩ := Lts.exists_run_of_foldlM step (init idle)
    [.opened 0, .closed 0, .click, .click, .opened 1, .opened 2, .message 1 .other]
    (fun app => (app.sockets, app.received, app.loads))
    ([.closed, .opened, .opened], [(1, some 2)], [(0, some 0), (1, none), (2, some 2)])
    (by decide +kernel)
  simp only [Prod.mk.injEq] at hs
  obtain ⟨hsockets, hreceived, hloads⟩ := hs
  have h₁ : app.Live 1 := by simp [Live, hsockets]
  have h₂ : app.Live 2 := by simp [Live, hsockets]
  refine ⟨app, h, h₁, h₂, by simp [hreceived], by simp [hloads], fun hsound => ?_⟩
  exact absurd (hsound.single 1 2 h₁ h₂) (by decide)

end WebApp

end Sacs
