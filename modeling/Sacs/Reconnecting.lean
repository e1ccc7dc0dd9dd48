import Mathlib.Algebra.Order.BigOperators.Group.List
import Sacs.Lib.Rank
import Sacs.Messenger

/-!
# Reconnecting

A page that has lost its connection tries to get another one, until it has one: when all its
sockets are closed, the overlay is shown, and the countdown is on. It does not try more often
than once for each socket that was closed, and each click. Once attempts succeed, there is an
open socket, and neither an overlay nor a countdown (`reconnects_of_runs`).
-/

namespace Sacs

/-- The steps that a socket is good for: once it is closed, there is a countdown. -/
def ReadyState.work : ReadyState → ℕ
  | .connecting => 1
  | .closing => 12
  | .opened => 0
  | .closed => 0

namespace WebApp

variable {S : Script}

/-! ## Steps -/

/-- What a step does. -/
inductive Moves (app : WebApp S) : Action → WebApp S → Prop
  | opened {i : ℕ} : app.sockets[i]? = some .connecting →
      Moves app (.opened i) ((app.setReadyState i .opened).onConnected i)
  | message {i : ℕ} {msg : Text} : app.sockets[i]? = some .opened →
      Moves app (.message i msg) (app.onMessage i msg)
  | closing {i : ℕ} : app.sockets[i]? = some .opened →
      Moves app (.closing i) (app.setReadyState i .closing)
  | closed {i : ℕ} {state : ReadyState} : app.sockets[i]? = some state → state ≠ .closed →
      Moves app (.closed i) (app.setReadyState i .closed).onDisconnected
  | tick {counter : ℕ} : app.reconnectTimeout = some (counter + 1) →
      Moves app .tick { app with reconnectTimeout := some counter }
  | expire : app.reconnectTimeout = some 0 → Moves app .tick app.releseTimeout.reconnect
  | click : app.visible = true → Moves app .click app.reconnect

theorem moves_of_step {app app' : WebApp S} {a : Action} (h : Steps app a app') :
    app.Moves a app' := by
  rw [Steps, Lts.Exec] at h
  cases a with
  | opened i =>
    rw [WebApp.step] at h
    split_ifs at h with hi
    cases h
    exact .opened hi
  | message i msg =>
    rw [WebApp.step] at h
    split_ifs at h with hi
    cases h
    exact .message hi
  | closing i =>
    rw [WebApp.step] at h
    split_ifs at h with hi
    cases h
    exact .closing hi
  | closed i =>
    rw [WebApp.step] at h
    split_ifs at h with hi
    cases h
    have hstate := List.getElem?_eq_getElem hi.1
    exact .closed hstate fun he => hi.2 (hstate.trans (congrArg some he))
  | tick =>
    rw [WebApp.step] at h
    cases htimeout : app.reconnectTimeout with
    | none => rw [htimeout] at h; cases h
    | some counter =>
      rw [htimeout] at h
      cases h
      cases counter with
      | zero => exact .expire htimeout
      | succ counter => exact .tick htimeout
  | click =>
    rw [WebApp.step] at h
    split_ifs at h with hvisible
    cases h
    exact .click hvisible

/-! ## Attempts -/

def Action.isTick : Action → Bool
  | .tick => true
  | _ => false

def Action.isClosed : Action → Bool
  | .closed _ => true
  | _ => false

def Action.isClick : Action → Bool
  | .click => true
  | _ => false

/-- The ticks to the next attempt. -/
def ticks (app : WebApp S) : ℕ := app.reconnectTimeout.elim 0 (· + 1)

/-- The attempts, with the one that is due. -/
def attempts (app : WebApp S) : ℕ := app.sockets.length + app.reconnectTimeout.elim 0 fun _ => 1

section

variable {app app' : WebApp S} {a : Action}

theorem Moves.ticks_le (h : app.Moves a app') :
    app'.ticks + a.isTick.toNat ≤ app.ticks + 10 * a.isClosed.toNat := by
  cases h with
  | opened => exact Nat.zero_le _
  | message => exact le_rfl
  | closing => exact le_rfl
  | closed => exact Nat.le_add_left 10 _
  | tick htimeout =>
    rw [ticks, ticks, htimeout]
    exact le_rfl
  | expire htimeout =>
    rw [ticks, ticks, htimeout]
    exact le_rfl
  | click => exact le_rfl

theorem Moves.attempts_le (h : app.Moves a app') :
    app'.attempts ≤ app.attempts + (a.isClosed || a.isClick).toNat := by
  have hset : ∀ (i : ℕ) (state : ReadyState),
      (app.sockets.set i state).length = app.sockets.length := fun _ _ => List.length_set
  have hnew : ∀ state : ReadyState, (app.sockets ++ [state]).length = app.sockets.length + 1 :=
    fun _ => List.length_append
  cases h with
  | opened => exact (hset _ _).trans_le (Nat.le_add_right _ _)
  | message => exact le_rfl
  | closing => exact (Nat.add_le_add_right (hset _ _).le _)
  | closed => exact Nat.add_le_add ((hset _ _).trans_le (Nat.le_add_right _ _)) le_rfl
  | tick htimeout =>
    rw [attempts, attempts, htimeout]
    exact le_rfl
  | expire htimeout =>
    have hlength : app.releseTimeout.reconnect.attempts = app.sockets.length + 1 := hnew _
    rw [hlength, attempts, htimeout]
    exact le_rfl
  | click =>
    have hlength : app.reconnect.attempts = app.sockets.length + 1 + _ :=
      congrArg (· + _) (hnew .connecting)
    rw [hlength, attempts, Nat.add_right_comm]
    exact le_rfl

end

/-! ## Outages -/

/-- When all sockets are closed, the overlay is shown and the countdown is on. When the overlay
    is shown, the countdown is on, or an attempt is on its way. -/
structure Tries (app : WebApp S) : Prop where
  outage : (∀ state ∈ app.sockets, state = .closed) →
    app.visible = true ∧ app.reconnectTimeout ≠ none
  overlay : app.visible = true → app.reconnectTimeout ≠ none ∨ .connecting ∈ app.sockets
  counter : ∀ counter ∈ app.reconnectTimeout, counter < 10

namespace Tries

variable {app app' : WebApp S}

theorem init : (WebApp.init S).Tries where
  outage h := by cases h .connecting (List.mem_singleton_self _)
  overlay h := by cases h
  counter _ h := by cases h

theorem reconnect (counter : ∀ counter ∈ app.reconnectTimeout, counter < 10) :
    app.reconnect.Tries := by
  have hnew : ReadyState.connecting ∈ app.sockets ++ [.connecting] :=
    List.mem_append_right _ (List.mem_singleton_self _)
  exact ⟨fun h => absurd (h _ hnew) (by decide), fun _ => .inr hnew, counter⟩

theorem step {a : Action} (hs : app.Tries) (h : app.Moves a app') : app'.Tries := by
  cases h with
  | @opened i hi =>
    have hself : ReadyState.opened ∈ app.sockets.set i .opened :=
      List.mem_set (List.getElem?_eq_some_iff.1 hi).1 _
    exact ⟨fun h => absurd (h _ hself) (by decide), fun h => absurd h Bool.false_ne_true,
      fun _ h => by cases h⟩
  | message => exact ⟨hs.outage, hs.overlay, hs.counter⟩
  | @closing i hi =>
    have hself : ReadyState.closing ∈ app.sockets.set i .closing :=
      List.mem_set (List.getElem?_eq_some_iff.1 hi).1 _
    refine ⟨fun h => absurd (h _ hself) (by decide),
      fun h => (hs.overlay h).imp_right fun hmem => ?_, hs.counter⟩
    obtain ⟨j, hj⟩ := List.mem_iff_getElem?.1 hmem
    have hne : i ≠ j := by
      rintro rfl
      cases hi.symm.trans hj
    exact List.mem_of_getElem? ((List.getElem?_set_ne hne).trans hj)
  | closed =>
    refine ⟨fun _ => ⟨rfl, Option.some_ne_none _⟩, fun _ => .inl (Option.some_ne_none _), ?_⟩
    rintro counter h
    cases h
    decide
  | tick htimeout =>
    refine ⟨fun h => ⟨(hs.outage h).1, Option.some_ne_none _⟩,
      fun _ => .inl (Option.some_ne_none _), ?_⟩
    rintro counter h
    cases h
    exact Nat.lt_of_succ_lt (hs.counter _ htimeout)
  | expire => exact reconnect fun _ h => by cases h
  | click => exact reconnect hs.counter

end Tries

theorem tries_of_runs {app : WebApp S} {as : List Action} (h : Lts.Run Steps (init S) as app) :
    app.Tries := by
  induction h with
  | nil => exact .init
  | snoc _ hst ih => exact ih.step (moves_of_step hst)

/-! ## Attempts that succeed -/

/-- Nothing is lost any more: attempts succeed, and the sockets that are closing are closed. -/
def Recovers (app : WebApp S) : Action → Prop
  | .opened _ => True
  | .tick => True
  | .closed i => app.sockets[i]? = some .closing
  | _ => False

abbrev Recovering : WebApp S → Action → WebApp S → Prop := Lts.Under Recovers Steps

/-- The steps to go, at most. -/
def work (app : WebApp S) : ℕ :=
  (app.sockets.map ReadyState.work).sum + app.reconnectTimeout.elim 0 (· + 2)

theorem work_lt {app app' : WebApp S} {a : Action} (h : Recovering app a app') :
    app'.work < app.work := by
  obtain ⟨ha, hst⟩ := h
  cases moves_of_step hst with
  | @opened i hi =>
    have hsum : ((app.sockets.set i .opened).map ReadyState.work).sum + 1 =
        (app.sockets.map ReadyState.work).sum := sum_set_add ReadyState.work hi .opened
    have hwork : ((app.setReadyState i .opened).onConnected i).work =
        ((app.sockets.set i .opened).map ReadyState.work).sum := rfl
    rw [hwork, work]
    omega
  | message => exact ha.elim
  | closing => exact ha.elim
  | @closed i =>
    -- The countdown may have been on, too.
    have hsum : ((app.sockets.set i .closed).map ReadyState.work).sum + 12 =
        (app.sockets.map ReadyState.work).sum := sum_set_add ReadyState.work ha .closed
    have hwork : (app.setReadyState i .closed).onDisconnected.work =
        ((app.sockets.set i .closed).map ReadyState.work).sum + 11 := rfl
    rw [hwork, work]
    omega
  | @tick counter htimeout =>
    have hwork : WebApp.work { app with reconnectTimeout := some counter } =
        (app.sockets.map ReadyState.work).sum + (counter + 2) := rfl
    rw [hwork, work, htimeout]
    exact Nat.add_lt_add_left (Nat.lt_succ_self _) _
  | expire htimeout =>
    have hwork : app.releseTimeout.reconnect.work =
        ((app.sockets ++ [ReadyState.connecting]).map ReadyState.work).sum := rfl
    rw [hwork, work, htimeout, List.map_append, List.sum_append]
    exact Nat.add_lt_add_left (Nat.lt_succ_self 1) _
  | click => exact ha.elim

theorem Tries.work_le {app : WebApp S} (hs : app.Tries) :
    app.work ≤ 12 * app.sockets.length + 11 := by
  have hsum : (app.sockets.map ReadyState.work).sum ≤ app.sockets.length * 12 := by
    have hle : ∀ n ∈ app.sockets.map ReadyState.work, n ≤ 12 := by
      rintro n hn
      obtain ⟨state, -, rfl⟩ := List.mem_map.1 hn
      cases state <;> decide
    have := List.sum_le_card_nsmul _ 12 hle
    rwa [List.length_map, nsmul_eq_mul, Nat.cast_id] at this
  have htimeout : app.reconnectTimeout.elim 0 (· + 2) ≤ 11 := by
    cases h : app.reconnectTimeout with
    | none => exact Nat.zero_le _
    | some counter => exact Nat.succ_le_succ (hs.counter counter h)
  rw [work]
  omega

/-- When nothing is left to do, there is a connection. -/
theorem Tries.of_final {app : WebApp S} (hs : app.Tries) (hf : Lts.Final Recovering app) :
    .opened ∈ app.sockets ∧ app.visible = false ∧ app.reconnectTimeout = none := by
  have hconnecting : .connecting ∉ app.sockets := fun h => by
    obtain ⟨i, hi⟩ := List.mem_iff_getElem?.1 h
    exact hf (.opened i) _ ⟨trivial, if_pos hi⟩
  have htimeout : app.reconnectTimeout = none := by
    cases h : app.reconnectTimeout with
    | none => rfl
    | some counter =>
      have hstep : app.step .tick = .ok (app.updateReconnectionCounter counter) := by
        rw [WebApp.step, h]
      exact (hf .tick _ ⟨trivial, hstep⟩).elim
  refine ⟨by_contra fun hopened => ?_, ?_, htimeout⟩
  · -- All sockets would be closed, and the countdown on.
    refine (hs.outage fun state hstate => ?_).2 htimeout
    cases state with
    | connecting => exact absurd hstate hconnecting
    | opened => exact absurd hstate hopened
    | closing =>
      obtain ⟨i, hi⟩ := List.mem_iff_getElem?.1 hstate
      have hstep : app.step (.closed i) = .ok (app.setReadyState i .closed).onDisconnected :=
        if_pos ⟨(List.getElem?_eq_some_iff.1 hi).1, hi.trans_ne (by decide)⟩
      exact (hf (.closed i) _ ⟨hi, hstep⟩).elim
    | closed => rfl
  · by_contra hvisible
    rcases hs.overlay (by simpa using hvisible) with h | h
    · exact h htimeout
    · exact hconnecting h

/-! ## Runs -/

/-- In every run, whoever clicks and whatever becomes of the sockets: there are not more attempts
    than sockets that were closed and clicks, besides the first, nor more than ten ticks for each
    socket that was closed. When all sockets are closed, the overlay is shown and the countdown
    is on. From then on, if nothing is lost any more, the page has a connection after a bounded
    number of steps. -/
theorem reconnects_of_runs {as : List Action} {app : WebApp S}
    (h : Lts.Run Steps (init S) as app) :
    app.sockets.length ≤ 1 + as.countP (fun a => a.isClosed || a.isClick) ∧
    as.countP Action.isTick ≤ 10 * as.countP Action.isClosed ∧
    ((∀ state ∈ app.sockets, state = .closed) →
      app.visible = true ∧ app.reconnectTimeout ≠ none) ∧
    (∃ bs t, Lts.Run Recovering app bs t ∧ Lts.Final Recovering t) ∧
    ∀ {bs t}, Lts.Run Recovering app bs t → bs.length ≤ 12 * app.sockets.length + 11 ∧
      (Lts.Final Recovering t →
        .opened ∈ t.sockets ∧ t.visible = false ∧ t.reconnectTimeout = none) := by
  have hs := tries_of_runs h
  have hlower : ∀ app (a : Action) (app' : WebApp S), Recovering app a app' →
      app'.work < app.work := fun app a app' => work_lt
  refine ⟨?_, ?_, hs.outage, Lts.exists_final (measure work).wf hlower app, fun {bs t} hbs => ?_⟩
  · have hattempts := @Lts.Run.countP_le _ _ Steps attempts (fun _ => false) _ 1
      (fun app a app' hst => (moves_of_step hst).attempts_le.trans_eq (by rw [Nat.one_mul]))
      (init S) app as h
    have hinit : (init S).attempts = 1 := rfl
    have hle : app.sockets.length ≤ app.attempts := Nat.le_add_right _ _
    omega
  · have hticks := @Lts.Run.countP_le _ _ Steps ticks _ _ 10
      (fun app a app' hst => (moves_of_step hst).ticks_le) (init S) app as h
    have hinit : (init S).ticks = 0 := rfl
    omega
  · have hlength := hbs.length_add_le hlower
    have hwork := hs.work_le
    refine ⟨by omega, fun hf => ?_⟩
    have hrun := h.append hbs.of_under
    exact (tries_of_runs hrun).of_final hf

/-- The connection is lost, and so is the first attempt; the next one that succeeds ends the
    outage. -/
theorem reconnects_of_lost : ∃ app : WebApp idle,
    Lts.Run Steps (init idle) (lost ++ [.closed 1]) app ∧
    (∀ state ∈ app.sockets, state = .closed) ∧ app.visible = true ∧
    ∃ bs t, Lts.Run Recovering app bs t ∧ bs.length ≤ 35 ∧ .opened ∈ t.sockets ∧
      t.visible = false := by
  obtain ⟨app, h, hsockets⟩ := Lts.exists_run_of_foldlM step (init idle) (lost ++ [.closed 1])
    (fun app => app.sockets) [.closed, .closed] (by decide +kernel)
  obtain ⟨-, -, houtage, ⟨bs, t, hbs, hf⟩, hrecovers⟩ := reconnects_of_runs h
  have hclosed : ∀ state ∈ app.sockets, state = .closed := by
    rw [hsockets]
    decide
  obtain ⟨hlength, hconnected⟩ := hrecovers hbs
  rw [hsockets] at hlength
  exact ⟨app, h, hclosed, (houtage hclosed).1, bs, t, hbs, hlength, (hconnected hf).1,
    (hconnected hf).2.1⟩

end WebApp

end Sacs
