import Sacs.Outgoing
import Sacs.Settling

/-!
# The host, the other instances and the pages

The whole of SACS: the instances on a port, and the pages of the web clients of the host
(`Site`). A page connects, asks for the list of the modules, processes what it is sent, in
this order, and may leave at any time; then its web client is gone.

What a page has processed, and is still to process, is what the host has made for it since
it is connected (`Site.view`), as long as no answer is overtaken. In the end, when no one
asks for anything any more, all pages show the same: one tab for every module that is
registered, at the host or at an instance connected to it (`Site.shown_of_runs`).
-/

namespace Sacs

open JsonMsg ModuleManager Page

variable {ι : Type} {S : Script}

/-! ## The system -/

/-- The page of a web client. -/
structure Visitor (S : Script) where
  page : Page S := {}
  /-- The number of messages processed, of those it has been sent. -/
  read : ℕ := 0
  connected : Bool := false
  /-- The list of the modules has been asked for. -/
  loaded : Bool := false

structure Site (ι : Type) (S : Script) where
  net : Network ι := {}
  visitor : ClientId → Visitor S := fun _ => {}

/-- The action ends the connection of the web client. -/
def Network.Action.leaves (w : ClientId) : Network.Action ι → Bool
  | .host a => a.leaves w
  | _ => false

/-- The web client that sends a message. -/
def Network.Action.asks? : Network.Action ι → Option ClientId
  | .host (.wsMessage w _) => some w
  | _ => none

namespace Site

inductive Action (ι : Type)
  /-- A step of the network, in which no page asks for anything. -/
  | net (a : Network.Action ι)
  | connect (w : ClientId)
  /-- `onConnected`. -/
  | load (w : ClientId)
  /-- The user changes something. -/
  | apply (w : ClientId) (msg : WebsocketMessage)
  /-- The page processes the next message. -/
  | receive (w : ClientId)
  /-- The user clicks on a tab. -/
  | click (w : ClientId) (module : Nat)

def setVisitor (s : Site ι S) (w : ClientId) (v : Visitor S) : Site ι S :=
  { s with visitor := Function.update s.visitor w v }

/-- The next message that the page is to process. -/
def next? (s : Site ι S) (w : ClientId) : Option Text :=
  if (s.visitor w).connected then
    (s.net.host.wsClients w).bind fun sent => sent[(s.visitor w).read]?
  else none

section

variable [DecidableEq ι]

def step (s : Site ι S) : Action ι → Except Fault (Site ι S)
  | .net a =>
    if a.asks?.any fun w => (s.visitor w).connected then .error .disabled
    else do
      return { net := ← s.net.step a, visitor w := if a.leaves w then {} else s.visitor w }
  | .connect w =>
    if (s.visitor w).connected then .error .disabled
    else do
      return { s.setVisitor w { connected := true } with
        net := ← s.net.step (.host (.wsConnected w)) }
  | .load w =>
    if (s.visitor w).connected ∧ ¬(s.visitor w).loaded then do
      return { s.setVisitor w { s.visitor w with loaded := true } with
        net := ← s.net.step (.host (.wsMessage w ⟨Sacs.load, false⟩)) }
    else .error .disabled
  | .apply w msg =>
    if (s.visitor w).loaded ∧ msg.text.isApply then do
      return { s with net := ← s.net.step (.host (.wsMessage w msg)) }
    else .error .disabled
  | .receive w => match s.next? w with
    | some msg =>
      .ok (s.setVisitor w { s.visitor w with
        page := (s.visitor w).page.onMessage msg, read := (s.visitor w).read + 1 })
    | none => .error .disabled
  | .click w module =>
    if module ∈ (s.visitor w).page.tabs then match (s.visitor w).page.selectModule module with
      | .ok page => .ok (s.setVisitor w { s.visitor w with page })
      | .error page => .ok (s.setVisitor w { s.visitor w with page })
    else .error .disabled

abbrev Steps : Site ι S → Action ι → Site ι S → Prop := Lts.Exec step

/-! ### What the network does -/

/-- What the action is for the network. -/
def Action.net? : Action ι → Option (Network.Action ι)
  | .net a => some a
  | .connect w => some (.host (.wsConnected w))
  | .load w => some (.host (.wsMessage w ⟨Sacs.load, false⟩))
  | .apply w msg => some (.host (.wsMessage w msg))
  | .receive _ | .click _ _ => none

theorem net_of_step {s s' : Site ι S} {a : Action ι} (h : s.step a = .ok s') :
    (∃ b, a.net? = some b ∧ s.net.step b = .ok s'.net) ∨ (a.net? = none ∧ s'.net = s.net) := by
  cases a with
  | net a =>
    rw [step] at h
    split_ifs at h
    obtain ⟨net, hnet, ⟨⟩⟩ := bind_eq_ok.1 h
    exact .inl ⟨_, rfl, hnet⟩
  | connect w =>
    rw [step] at h
    split_ifs at h
    obtain ⟨net, hnet, ⟨⟩⟩ := bind_eq_ok.1 h
    exact .inl ⟨_, rfl, hnet⟩
  | load w =>
    rw [step] at h
    split_ifs at h
    obtain ⟨net, hnet, ⟨⟩⟩ := bind_eq_ok.1 h
    exact .inl ⟨_, rfl, hnet⟩
  | apply w msg =>
    rw [step] at h
    split_ifs at h
    obtain ⟨net, hnet, ⟨⟩⟩ := bind_eq_ok.1 h
    exact .inl ⟨_, rfl, hnet⟩
  | receive w =>
    rw [step] at h
    split at h
    · cases h
      exact .inr ⟨rfl, rfl⟩
    · cases h
  | click w module =>
    rw [step] at h
    split_ifs at h
    split at h <;> cases h <;> exact .inr ⟨rfl, rfl⟩

/-- A run of the site is one of the network. -/
theorem exists_run_net {C : Network ι → Network.Action ι → Prop} {as : List (Action ι)}
    {s t : Site ι S}
    (h : Lts.Run (Lts.Under (fun s a => ∀ b, a.net? = some b → C s.net b) Steps) s as t) :
    Lts.Run (Lts.Under C Network.Steps) s.net (as.filterMap Action.net?) t.net := by
  induction h with
  | nil => exact .nil
  | @snoc as t u a _ hst ih =>
    rw [List.filterMap_append]
    rcases net_of_step hst.2 with ⟨b, hb, hst'⟩ | ⟨hnone, hu⟩
    · rw [List.filterMap_cons_some hb]
      exact ih.snoc ⟨hst.1 b hb, hst'⟩
    · rw [List.filterMap_cons_none hnone, List.filterMap_nil, List.append_nil, hu]
      exact ih

end

/-! ### What a page sees -/

/-- The session of a page: what it is still to process is what it has been sent and has not
    processed, and the answer waiting to be sent. -/
def view (s : Site ι S) (w : ClientId) : Session S where
  host := s.net.host
  page := (s.visitor w).page
  inbox := if (s.visitor w).connected then (s.net.host.outgoing w).drop (s.visitor w).read else []
  seen :=
    if (s.visitor w).connected then ((s.net.host.wsClients w).getD []).take (s.visitor w).read
    else []
  connected := (s.visitor w).connected
  loaded := (s.visitor w).loaded

/-- What the host does meets the conditions under which a page follows it: no answer is
    overtaken, no module listed was announced before, and no script throws. -/
def Orderly (s : Site ι S) : Action ι → Prop
  | .net (.host a) => s.net.host.Unhurried a ∧ ∀ w, (s.view w).Untold w (.host a)
  | .receive w => (s.view w).Untold w .receive
  | _ => True

/-- What is known of a page. -/
structure Serves (s : Site ι S) (w : ClientId) : Prop where
  session : (s.view w).Inv w
  stream : (s.visitor w).connected = true →
    ∃ sent, s.net.host.wsClients w = some sent ∧ (s.visitor w).read ≤ sent.length
  /-- The list that was asked for is made, or there is a request for it. -/
  asked : (s.visitor w).loaded = true → (s.view w).Listed ∨ 0 < s.net.host.loads w

namespace Serves

variable {s s' : Site ι S} {w : ClientId} (hs : s.Serves w)

/-- A page that is not connected. -/
theorem fresh {host : Instance} (h : Session.HostInv host) :
    Session.Inv w ({ host } : Session S) where
  host := h
  neat := neat_empty
  listening hc := by cases hc
  unconnected _ := ⟨rfl, rfl, rfl, rfl⟩
  unloaded _ := by
    rintro ⟨msg, hmsg, -⟩
    cases hmsg
  loads hc := by cases hc
  shows hc := by cases hc

theorem of_fresh (hv : s.visitor w = {}) (h : Session.HostInv s.net.host) : s.Serves w := by
  have hview : s.view w = { host := s.net.host } := by rw [view, hv]; rfl
  exact ⟨hview ▸ fresh h, by rw [hv]; nofun, by rw [hv]; nofun⟩

include hs

/-- Nothing that concerns the page is changed. -/
theorem congr (hv : s'.visitor w = s.visitor w) (hhost : s'.net.host = s.net.host) :
    s'.Serves w := by
  have hview : s'.view w = s.view w := by rw [view, view, hv, hhost]
  exact ⟨hview ▸ hs.session, by rw [hv, hhost]; exact hs.stream,
    by rw [hv, hhost, hview]; exact hs.asked⟩

/-- A step of the host adds to what the page is to process what is made in it. -/
theorem hostStep_view {a : Sacs.Action} (h : Transition s.net.host a s'.net.host)
    (hU : s.net.host.Unhurried a) (ha : a.leaves w = false) (hv : s'.visitor w = s.visitor w) :
    Session.HostStep w (s.view w) a (s'.view w) ∧ ((s.visitor w).connected = true →
      ∃ sent, s'.net.host.wsClients w = some sent ∧ (s.visitor w).read ≤ sent.length) := by
  by_cases hc : (s.visitor w).connected = true
  · obtain ⟨sent, hsent, hread⟩ := hs.stream hc
    obtain ⟨more, news, hsent', hprod, hmore⟩ :=
      h.delivers hs.session.host.served hU ha sent hsent
    refine ⟨⟨h, ?_, ?_, ?_, ?_, ?_⟩, fun _ => ⟨_, hsent', ?_⟩⟩
    · simp only [view, hv]
    · simp only [view, hv, if_pos hc, hsent, hsent', Option.getD_some]
      exact List.take_append_of_le_length hread
    · have hout : s'.net.host.outgoing w = s.net.host.outgoing w ++ news := by
        rw [Instance.outgoing, Instance.outgoing, hsent, hsent', Option.getD_some,
          Option.getD_some, List.append_assoc, hmore, List.append_assoc]
      have hle : (s.visitor w).read ≤ (s.net.host.outgoing w).length := by
        rw [Instance.outgoing, hsent, Option.getD_some, List.length_append]
        exact hread.trans (Nat.le_add_right _ _)
      simp only [view, hv, if_pos hc, hout, hprod, List.drop_left]
      exact List.drop_append_of_le_length hle
    · simp only [view, hv]
    · simp only [view, hv]
    · rw [List.length_append]
      exact hread.trans (Nat.le_add_right _ _)
  · refine ⟨⟨h, ?_, ?_, ?_, ?_, ?_⟩, fun h => absurd h hc⟩ <;> simp [view, hv, hc]

/-- A list asked for is made, or still asked for. -/
theorem hostStep_asked {a : Sacs.Action} (h : Session.HostStep w (s.view w) a (s'.view w))
    (hl : (s'.visitor w).loaded = true) : (s'.view w).Listed ∨ 0 < s'.net.host.loads w := by
  have hloaded : (s.visitor w).loaded = true := h.loaded.symm.trans hl
  have hc : (s.view w).connected = true := by
    by_contra hc
    exact Bool.false_ne_true ((hs.session.unconnected hc).2.2.2.symm.trans hloaded)
  have hlisted := Session.listed_append h.seen h.inbox
  rcases hs.asked hloaded with hlist | hasks
  · exact .inl (hlisted.2 (.inl hlist))
  · rcases h.host.loads_or hs.session.host.announced.fresh hasks with hasks | ⟨result, hr, hlist⟩
    · exact .inr hasks
    · refine .inl (hlisted.2 (.inr ⟨result, ?_, hlist⟩))
      rw [if_pos hc, hr, List.drop_left]
      exact List.mem_singleton_self _

/-- A step of the host in which the page asks for nothing, or for an update. -/
theorem hostStep {a : Sacs.Action} (h : Transition s.net.host a s'.net.host)
    (hU : s.net.host.Unhurried a) (hv : s'.visitor w = if a.leaves w then {} else s.visitor w)
    (hmsg : (s.visitor w).connected = true → ∀ msg, a = .wsMessage w msg → msg.text.isApply)
    (hu : a = .task → (s.view w).Untold w (.host a)) : s'.Serves w := by
  cases ha : a.leaves w with
  | true =>
    rw [ha, if_pos rfl] at hv
    exact of_fresh hv (hs.session.host.step h)
  | false =>
    rw [ha, if_neg Bool.false_ne_true] at hv
    obtain ⟨hstep, hstream⟩ := hs.hostStep_view h hU ha hv
    refine ⟨?_, by rw [hv]; exact hstream, hs.hostStep_asked hstep⟩
    by_cases hc : (s.visitor w).connected = true
    · refine hs.session.hostStep_connected hc hstep ha (hmsg hc) ?_
      rintro t q rfl ht hload
      refine hu rfl hc t ?_ hload
      rw [ht.threadLoop]
      rfl
    · exact (hs.session.hostStep_unconnected hc hstep).1

/-- Only what is sent to the instances is changed. -/
theorem setStreams {clients : ClientId → Option (List Text)}
    (hhost : s'.net.host = { s.net.host with clients }) (hv : s'.visitor w = s.visitor w) :
    s'.Serves w := by
  have hview : s'.view w = { s.view w with host := s'.net.host } := by
    rw [view, view, hv, hhost]
    rfl
  have hinv := hs.session
  have hhostInv : Session.HostInv s'.net.host := by
    rw [hhost]
    have ⟨hann, hq, hserved, hempty, hmsgs⟩ := hinv.host
    exact ⟨⟨hann.fresh, ⟨hann.posts.queued, hann.posts.updating⟩, hann.valid, hann.replay⟩,
      ⟨hq.handled, hq.flushed, hq.ready⟩, hserved.keep rfl rfl rfl rfl, hempty, hmsgs⟩
  have hlisted : (s'.view w).Listed ↔ (s.view w).Listed := by rw [hview]; rfl
  refine ⟨?_, ?_, ?_⟩
  · rw [hview]
    refine ⟨hhostInv, hinv.neat, fun hc => ?_, hinv.unconnected, hinv.unloaded, fun hc => ?_,
      fun hc => ?_⟩
    · rw [hhost]
      exact hinv.listening hc
    · rw [hhost]
      exact hinv.loads hc
    · obtain ⟨es, es', hes, hrun, hshows⟩ := hinv.shows hc
      refine ⟨es, es', hes, hrun, fun hl => ?_, fun hl => ?_⟩
      · rw [hhost]
        exact hshows.listed hl
      · rw [hhost]
        exact hshows.unlisted hl
  · rw [hv, hhost]
    exact hs.stream
  · rw [hv, hhost, hlisted]
    exact hs.asked

/-- The page connects. -/
theorem connect (h : Transition s.net.host (.wsConnected w) s'.net.host)
    (hv : s'.visitor w = { connected := true }) : s'.Serves w := by
  have hstep : Session.HostStep w ({ host := s.net.host } : Session S) (.wsConnected w)
    { host := s'.net.host } := ⟨h, rfl, rfl, rfl, rfl, rfl⟩
  have hempty := h.outgoing_of_wsConnected hs.session.host.served
  have hview : s'.view w = { ({ host := s'.net.host } : Session S) with connected := true } := by
    simp [view, hv, Instance.outgoing, hempty]
  refine ⟨?_, fun _ => ⟨[], hempty.1, by rw [hv]; rfl⟩, fun hl => by rw [hv] at hl; cases hl⟩
  rw [hview]
  exact (fresh hs.session.host).connect nofun hstep

/-- The page asks for the list. -/
theorem load (h : Transition s.net.host (.wsMessage w ⟨Sacs.load, false⟩) s'.net.host)
    (hc : (s.visitor w).connected = true) (hl : (s.visitor w).loaded = false)
    (hv : s'.visitor w = { s.visitor w with loaded := true }) : s'.Serves w := by
  -- The step of the host, and then that of the page.
  have hU : s.net.host.Unhurried (.wsMessage w ⟨Sacs.load, false⟩) := fun h => h.elim
  obtain ⟨hstep, hstream⟩ :=
    @hostStep_view _ _ s { net := s'.net, visitor := s.visitor } w hs _ h hU rfl rfl
  refine ⟨?_, fun _ => by rw [hv]; exact hstream hc, fun _ => .inr ?_⟩
  · have hview : s'.view w =
        { view { net := s'.net, visitor := s.visitor } w with loaded := true } := by
      simp [view, hv]
    rw [hview]
    exact hs.session.load hc (by rw [show (s.view w).loaded = false from hl]; nofun) hstep
  · exact h.loads_of_load

omit hs in
theorem of_next {msg : Text} (hnext : s.next? w = some msg) :
    (s.visitor w).connected = true ∧ ∃ sent, s.net.host.wsClients w = some sent ∧
      sent[(s.visitor w).read]? = some msg := by
  rw [next?] at hnext
  split_ifs at hnext with hc
  exact ⟨hc, Option.bind_eq_some_iff.1 hnext⟩

omit hs in
/-- The next message is the first one of those still to be processed. -/
theorem inbox_of_next {msg : Text} (hnext : s.next? w = some msg) :
    (s.view w).inbox = msg :: (s.net.host.outgoing w).drop ((s.visitor w).read + 1) := by
  obtain ⟨hc, sent, hsent, hget⟩ := of_next hnext
  obtain ⟨hlt, hmsg⟩ := List.getElem?_eq_some_iff.1 hget
  simp only [view, if_pos hc, Instance.outgoing, hsent, Option.getD_some]
  rw [List.drop_append_of_le_length hlt.le, List.drop_append_of_le_length hlt,
    List.drop_eq_getElem_cons hlt, hmsg, List.cons_append]

/-- The page processes a message. -/
theorem receive {msg : Text} (hnext : s.next? w = some msg)
    (hmade : ∀ m ∈ (msgOf msg).made, Renders S m) (hhost : s'.net.host = s.net.host)
    (hv : s'.visitor w = { s.visitor w with
      page := (s.visitor w).page.onMessage msg, read := (s.visitor w).read + 1 }) :
    s'.Serves w := by
  obtain ⟨hc, sent, hsent, hget⟩ := of_next hnext
  obtain ⟨hlt, -⟩ := List.getElem?_eq_some_iff.1 hget
  have hinbox : (s.view w).inbox = msg :: (s'.view w).inbox := by
    rw [inbox_of_next hnext]
    simp only [view, hv, hhost, if_pos hc]
  have hseen : (s'.view w).seen = (s.view w).seen ++ [msg] := by
    simp only [view, hv, hhost, if_pos hc, hsent, Option.getD_some]
    rw [List.take_add_one, hget]
    rfl
  have hview : s'.view w = { s.view w with
      page := (s.view w).page.onMessage msg, inbox := (s'.view w).inbox,
      seen := (s.view w).seen ++ [msg] } := by
    rw [← hseen]
    simp [view, hv, hhost]
  refine ⟨?_, fun _ => ⟨sent, by rw [hhost, hsent], by rw [hv]; exact hlt⟩, fun hl => ?_⟩
  · rw [hview]
    exact hs.session.receive hinbox hmade
  · have hlisted : (s'.view w).Listed ↔ (s.view w).Listed := by
      rw [Session.Listed, Session.Listed, hseen, hinbox, List.append_assoc]
      rfl
    rw [hlisted, hhost]
    exact hs.asked (by rw [hv] at hl; exact hl)

/-- The user clicks on a tab. -/
theorem click {page : Page S} (hn : page.Neat) (hids : page.tabIds = (s.visitor w).page.tabIds)
    (hhost : s'.net.host = s.net.host) (hv : s'.visitor w = { s.visitor w with page }) :
    s'.Serves w := by
  have hview : s'.view w = { s.view w with page } := by simp [view, hv, hhost]
  refine ⟨hview ▸ hs.session.click hn hids, by rw [hv, hhost]; exact hs.stream, ?_⟩
  rw [hv, hhost, hview]
  exact hs.asked

end Serves

/-! ### The steps -/

variable [DecidableEq ι]

/-- The steps of the network. -/
theorem serves_net {s : Site ι S} (hs : ∀ w, s.Serves w) {a : Network.Action ι} {net : Network ι}
    (ha : s.Orderly (.net a)) (hasks : ∀ w, a.asks? = some w → (s.visitor w).connected = false)
    (h : s.net.step a = .ok net) (w : ClientId) :
    ({ net, visitor w := if a.leaves w then {} else s.visitor w } : Site ι S).Serves w := by
  have hhost : ∀ {b : Sacs.Action}, Transition s.net.host b net.host →
      (b.onLoop = false ∧ ∀ v msg, b ≠ .wsMessage v msg) → a.leaves w = b.leaves w →
      ({ net, visitor w := if a.leaves w then {} else s.visitor w } : Site ι S).Serves w := by
    intro b hb hother hleaves
    refine (hs w).hostStep hb (fun hB => ?_) (by rw [← hleaves]) (fun _ msg he =>
      absurd he (hother.2 w msg)) fun he => ?_
    · cases b <;> first | exact hB.elim | cases hother.1
    · cases he
      cases hother.1
  cases Network.moves_of_step h with
  | @host b host hof hb =>
    refine (hs w).hostStep hb ha.1 rfl (fun hc msg he => ?_) fun _ => ha.2 w
    subst he
    exact absurd ((hasks w rfl).symm.trans hc) Bool.false_ne_true
  | inst => exact (hs w).congr rfl rfl
  | connect _ hb _ => exact hhost hb ⟨rfl, nofun⟩ rfl
  | deliverUp _ _ hb => exact hhost hb ⟨rfl, nofun⟩ rfl
  | deliverDown => exact (hs w).setStreams rfl rfl
  | disconnect _ hb => exact hhost hb ⟨rfl, nofun⟩ rfl

theorem serves_step {s s' : Site ι S} {a : Action ι} (hs : ∀ w, s.Serves w) (ha : s.Orderly a)
    (h : s.step a = .ok s') (w : ClientId) : s'.Serves w := by
  have hkeep : ∀ {v : ClientId} {x : Visitor S}, w ≠ v →
      Function.update s.visitor v x w = s.visitor w := fun hv => Function.update_of_ne hv ..
  have hself : ∀ {v : ClientId} {x : Visitor S}, Function.update s.visitor v x v = x :=
    Function.update_self ..
  cases a with
  | net a =>
    rw [step] at h
    split_ifs at h with hasks
    obtain ⟨net, hnet, ⟨⟩⟩ := bind_eq_ok.1 h
    refine serves_net hs ha (fun v hv => ?_) hnet w
    rw [hv] at hasks
    simpa using hasks
  | connect v =>
    rw [step] at h
    split_ifs at h with hc
    obtain ⟨net, hnet, ⟨⟩⟩ := bind_eq_ok.1 h
    cases Network.moves_of_step hnet with
    | host _ hb =>
      by_cases hv : w = v
      · subst hv
        exact (hs w).connect hb hself
      · refine (hs w).hostStep hb (fun hB => hB.elim) (hkeep hv) (fun _ _ he => ?_) nofun
        cases he
  | load v =>
    rw [step] at h
    split_ifs at h with hc
    obtain ⟨net, hnet, ⟨⟩⟩ := bind_eq_ok.1 h
    cases Network.moves_of_step hnet with
    | host _ hb =>
      by_cases hv : w = v
      · subst hv
        exact (hs w).load hb hc.1 (by simpa using hc.2) hself
      · refine (hs w).hostStep hb (fun hB => hB.elim) (hkeep hv) (fun _ _ he => ?_) nofun
        cases he
        exact absurd rfl hv
  | apply v msg =>
    rw [step] at h
    split_ifs at h with hc
    obtain ⟨net, hnet, ⟨⟩⟩ := bind_eq_ok.1 h
    cases Network.moves_of_step hnet with
    | host _ hb =>
      refine (hs w).hostStep hb (fun hB => hB.elim) rfl (fun _ _ he => ?_) nofun
      cases he
      exact hc.2
  | receive v =>
    rw [step] at h
    split at h
    · rename_i msg hnext
      cases h
      by_cases hv : w = v
      · subst hv
        refine (hs w).receive hnext (fun m hm => ha msg ?_ m hm) rfl hself
        rw [Serves.inbox_of_next hnext]
        rfl
      · exact (hs w).congr (hkeep hv) rfl
    · cases h
  | click v module =>
    rw [step] at h
    split_ifs at h with hmem
    obtain ⟨page, hpage, hn, hids⟩ := (hs v).session.neat.selectModule hmem
    have hpage' : (s.visitor v).page.selectModule module = .ok page := hpage
    rw [hpage'] at h
    cases h
    by_cases hv : w = v
    · subst hv
      exact (hs w).click hn hids rfl hself
    · exact (hs w).congr (hkeep hv) rfl

omit [DecidableEq ι] in
theorem serves_init (w : ClientId) : ({} : Site ι S).Serves w :=
  .of_fresh rfl (@Session.inv_init S w).host

theorem serves_of_runs {as : List (Action ι)} {s : Site ι S}
    (h : Lts.Run (Lts.Under Orderly Steps) {} as s) (w : ClientId) : s.Serves w :=
  h.invariant (P := fun s : Site ι S => ∀ w, s.Serves w) serves_init
    (fun _ _ _ hs hst => serves_step hs hst.1 hst.2) w

/-! ### Everything is shown in the end -/

/-- The step is one that no one asks for. -/
def Action.isInternal : Action ι → Bool
  | .net a => a.isInternal
  | .receive _ => true
  | _ => false

abbrev Inner : Site ι S → Action ι → Site ι S → Prop :=
  Lts.Under (fun _ a => a.isInternal = true) Steps

omit [DecidableEq ι] in
/-- The messages that the pages have not processed yet. -/
noncomputable def unread (s : Site ι S) : ℕ :=
  ∑ w, if (s.visitor w).connected then
    ((s.net.host.wsClients w).getD []).length - (s.visitor w).read else 0

omit [DecidableEq ι] in
theorem unread_of_next {s : Site ι S} {w : ClientId} {msg : Text} (hnext : s.next? w = some msg)
    (page : Page S) : (s.setVisitor w { s.visitor w with
      page, read := (s.visitor w).read + 1 }).unread < s.unread := by
  obtain ⟨hc, sent, hsent, hget⟩ := Serves.of_next hnext
  obtain ⟨hlt, -⟩ := List.getElem?_eq_some_iff.1 hget
  refine Finset.sum_lt_sum (fun v _ => ?_) ⟨w, Finset.mem_univ w, ?_⟩
  · by_cases hv : v = w
    · subst hv
      simp only [setVisitor, Function.update_self]
      split_ifs
      exact Nat.sub_le_sub_left (Nat.le_succ _) _
    · simp only [setVisitor, Function.update_of_ne hv, le_refl]
  · simp only [setVisitor, Function.update_self, hc, if_true, hsent, Option.getD_some]
    omega

/-- The network has less to do, or the pages. -/
theorem lex_of_inner [Fintype ι] {s s' : Site ι S} {a : Action ι} (h : Inner s a s') :
    Prod.Lex (· < ·) (· < ·) (s'.net.work, s'.unread) (s.net.work, s.unread) := by
  obtain ⟨ha, h⟩ := h
  cases a with
  | net a =>
    rcases net_of_step h with ⟨b, hb, hnet⟩ | ⟨hnone, -⟩
    · cases hb
      exact .left _ _ (Network.work_of_internal (Network.moves_of_step hnet) ha)
    · cases hnone
  | receive w =>
    change s.step (.receive w) = _ at h
    rw [step] at h
    split at h
    · rename_i msg hnext
      cases h
      exact .right _ (unread_of_next hnext _)
    · cases h
  | _ => cases ha

theorem final_net {s : Site ι S} (hf : Lts.Final Inner s) : Lts.Final Network.Inner s.net := by
  rintro a net ⟨ha, hst⟩
  have hasks : a.asks? = none := by
    cases a with
    | host a => cases a <;> first | rfl | cases ha
    | _ => rfl
  refine hf (.net a) { net, visitor w := if a.leaves w then {} else s.visitor w } ⟨ha, ?_⟩
  change s.step (.net a) = _
  rw [step, hasks, show s.net.step a = .ok net from hst]
  rfl

/-- A page that has nothing more to process has processed all it has been sent. -/
theorem read_of_final {s : Site ι S} (hf : Lts.Final Inner s) {w : ClientId} (hs : s.Serves w)
    (hreply : s.net.host.reply w = []) : (s.view w).inbox = [] := by
  by_cases hc : (s.visitor w).connected = true
  · obtain ⟨sent, hsent, hread⟩ := hs.stream hc
    cases hnext : s.next? w with
    | none =>
      rw [next?, if_pos hc, hsent, Option.bind_some, List.getElem?_eq_none_iff] at hnext
      simp only [view, if_pos hc, Instance.outgoing, hsent, Option.getD_some, hreply,
        List.append_nil]
      exact List.drop_eq_nil_iff.2 hnext
    | some msg =>
      refine absurd ⟨rfl, ?_⟩ (hf (.receive w) (s.setVisitor w { s.visitor w with
        page := (s.visitor w).page.onMessage msg, read := (s.visitor w).read + 1 }))
      change s.step (.receive w) = _
      rw [step, hnext]
  · exact if_neg hc

/-- A page that has the list shows what is registered, once nothing is left to do. -/
theorem Serves.mirrors {s : Site ι S} {w : ClientId} (hs : s.Serves w)
    (hf : Lts.Final Inner s) (hr : s.net.host.Rests) (hl : (s.visitor w).loaded = true) :
    (s.view w).Mirrors := by
  have hinbox := read_of_final hf hs (by rw [Instance.reply, hr.web])
  refine hs.session.mirrors ⟨hinbox, ?_⟩
  rcases hs.asked hl with ⟨msg, hmsg, hlist⟩ | hasks
  · rw [hinbox, List.append_nil] at hmsg
    exact ⟨msg, hmsg, hlist⟩
  · simp [Instance.loads, hr.threadLoop] at hasks

/-- The module `id` of the host is registered: at the host itself, or as the image of a module
    of an instance that is connected. -/
def Registered (s : Site ι S) (id : Int32) : Prop :=
  ∃ v, s.net.host.Live id v ∨ ∃ p c r, s.net.conn p = some c ∧
    s.net.host.remoteModules.find? id = some (r, c) ∧ (s.net.inst p).Live r v

/-- The ids of the modules whose tabs the page has. -/
def tabIds (s : Site ι S) (w : ClientId) : List Int32 :=
  (s.visitor w).page.tabs.filterMap fun module =>
    (s.visitor w).page.objects[module]?.map (·.id)

/-- The page has one tab for each module registered at the host or at an instance connected,
    and no other tab. -/
structure Shows (s : Site ι S) (w : ClientId) : Prop where
  own : ∀ {id v}, s.net.host.Live id v → id ∈ s.tabIds w
  image : ∀ {p c r v}, s.net.conn p = some c → (s.net.inst p).Live r v →
    ∃! id, s.net.host.remoteModules.find? id = some (r, c) ∧ id ∈ s.tabIds w
  registered : ∀ {id}, id ∈ s.tabIds w → s.Registered id
  nodup : (s.tabIds w).Nodup

omit [DecidableEq ι] in
/-- A page that mirrors a host that mirrors the instances shows all their modules. -/
theorem shows_of_mirrors {s : Site ι S} {w : ClientId} (hpage : (s.view w).Mirrors)
    (hnet : s.net.Mirrored) : s.Shows w := by
  have hkeys : s.tabIds w = s.net.host.modules.keys := by
    have h := congrArg (List.filterMap id) hpage.2
    rwa [List.filterMap_map, List.filterMap_map, Function.id_comp, Function.id_comp,
      List.filterMap_some] at h
  have hmem : ∀ {id}, id ∈ s.tabIds w ↔ ∃ v, (id, v) ∈ s.net.host.shapes := fun {id} => by
    rw [hkeys, OrdMap.mem_keys_iff, exists_mem_shapes_iff]
  refine ⟨fun {id v} hv => hmem.2 ⟨v, (hnet.modules id v).2 (.inl hv)⟩,
    fun {p c r v} hp hv => ?_, fun {id} hid => ?_, ?_⟩
  · obtain ⟨id, ⟨himage, hshape⟩, -⟩ := hnet.image hp hv
    exact ⟨id, ⟨himage, hmem.2 ⟨v, hshape⟩⟩, fun id' h => hnet.injective h.1 himage⟩
  · obtain ⟨v, hv⟩ := hmem.1 hid
    exact ⟨v, (hnet.modules id v).1 hv⟩
  · rw [hkeys]
    exact (OrdMap.sorted_keys _).imp fun h => h.ne

/-- The applications and the web clients are careful, and unregister modules of their own
    only. -/
def Careful (s : Site ι S) (a : Action ι) : Prop :=
  ∀ b, a.net? = some b → s.net.OwnOnly b ∧ s.net.Careful b

/-- When no one asks for anything any more, the host, the instances and the pages come to an
    end, and then everything is shown: every page that has asked for the list has one tab for
    each module registered anywhere, and no other tab, unless ids are used up. It is decided
    already who the host is. -/
theorem shown_of_runs [Fintype ι] {as : List (Action ι)} {s : Site ι S}
    (h : Lts.Run (Lts.Under (fun s a => s.Careful a ∧ s.Orderly a) Steps) {} as s)
    (hhost : s.net.host.proxyInitialized = true) :
    (¬∃ (f : ℕ → Site ι S) (a : ℕ → Action ι), f 0 = s ∧ ∀ n, Inner (f n) (a n) (f (n + 1))) ∧
    ∀ {bs s'}, Lts.Run (Lts.Under Orderly Inner) s bs s' → Lts.Final Inner s' →
      s'.net.Spent ∨ s'.net.Settled ∧ ∀ w, (s'.visitor w).loaded = true →
        (s'.view w).Mirrors ∧ s'.Shows w ∧
        ∀ id, ((s'.visitor w).page.modules.find? id).isSome ↔ s'.Registered id := by
  refine ⟨?_, fun {bs s'} hbs hf => ?_⟩
  · rintro ⟨f, a, -, hf⟩
    exact Lts.not_forever (R := Inner) (InvImage.wf (fun s : Site ι S => (s.net.work, s.unread))
      (WellFounded.prod_lex wellFounded_lt wellFounded_lt)) (fun _ _ _ hst => lex_of_inner hst)
      ⟨f, a, hf⟩
  -- The steps left are careful, too, and leave the role of the host as it is.
  have hinner : ∀ {s s' : Site ι S} {a}, Inner s a s' → ∀ b, a.net? = some b →
      b.isInternal = true := by
    rintro s s' a ⟨ha, -⟩ b hb
    cases a with
    | net a =>
      cases hb
      exact ha
    | receive w => cases hb
    | _ => cases ha
  have hrun := exists_run_net (C := fun n a => n.OwnOnly a ∧ n.Careful a)
    ((h.mono fun _ _ _ hst => ⟨hst.1.1, hst.2⟩).append (hbs.mono fun _ _ _ hst =>
      ⟨fun b hb => Network.careful_of_isInternal (hinner hst.2 b hb), hst.2.2⟩))
  have hnet := exists_run_net (C := fun _ a => a.isInternal = true)
    (hbs.mono fun _ _ _ hst => ⟨fun b hb => hinner hst.2 b hb, hst.2.2⟩)
  refine (Network.settled_of_final hrun (Network.proxyInitialized_of_inner hnet hhost)
    (final_net hf)).imp_right fun hsettled => ⟨hsettled, fun w hl => ?_⟩
  have hserves : ∀ w, s'.Serves w := serves_of_runs
    ((h.mono fun _ _ _ hst => ⟨hst.1.2, hst.2⟩).append (hbs.mono fun _ _ _ hst =>
      ⟨hst.1, hst.2.2⟩))
  have hmirrors := (hserves w).mirrors hf hsettled.host hl
  refine ⟨hmirrors, shows_of_mirrors hmirrors hsettled.mirrored,
    fun id => (hmirrors.1 id).trans ?_⟩
  rw [Registered, ← exists_congr (hsettled.mirrored.modules id)]
  exact exists_mem_shapes_iff.symm

/-- The host pushes nothing while an answer waits. -/
def Unhurried (s : Site ι S) : Action ι → Prop
  | .net (.host a) => s.net.host.Unhurried a
  | _ => True

instance instDecidableUnhurried (s : Site ι S) (a : Action ι) : Decidable (s.Unhurried a) :=
  match a with
  | .net (.host _) => inferInstanceAs (Decidable (Instance.Unhurried _ _))
  | .net (.inst ..) | .net (.connect ..) | .net (.deliverUp _) | .net (.deliverDown _)
  | .net (.disconnect _) | .connect _ | .load _ | .apply .. | .receive _ | .click .. =>
    .isTrue trivial

/-- As long as no page is connected, the order of the messages is all that matters. -/
theorem orderly_of_net {as : List (Network.Action ι)} {s : Site ι S}
    (h : Lts.Run (Lts.Under Unhurried Steps) {} (as.map .net) s) :
    Lts.Run (Lts.Under Orderly Steps) {} (as.map .net) s := by
  have hnet := h.under_of_forall (C := fun _ a => ∃ b, a = .net b) fun a ha _ => by
    obtain ⟨b, -, rfl⟩ := List.mem_map.1 ha
    exact ⟨b, rfl⟩
  have hempty := hnet.under_invariant (P := fun s => ∀ w, s.visitor w = {}) (fun _ => rfl) ?_
  · refine hempty.mono ?_
    rintro s _ s' ⟨hs, ⟨b, rfl⟩, hU, hst⟩
    refine ⟨?_, hst⟩
    cases b with
    | host a =>
      refine ⟨hU, fun w => ?_⟩
      cases a with
      | task => exact fun hc => by rw [view, hs w] at hc; cases hc
      | _ => trivial
    | _ => trivial
  · rintro s _ s' hs ⟨⟨b, rfl⟩, -, hst⟩ w
    change s.step (.net b) = _ at hst
    rw [step] at hst
    split_ifs at hst
    obtain ⟨net, -, ⟨⟩⟩ := bind_eq_ok.1 hst
    dsimp only
    split_ifs
    · rfl
    · exact hs w

theorem isRequest_load : Text.IsRequest Sacs.load := by
  refine ⟨exists_parse.1 ⟨_, parse_load⟩, fun msg hmsg htype => ?_⟩
  cases parse_load.symm.trans hmsg
  cases htype

/-- A page connects to the host of `imaging`, and asks for the list. -/
def visiting : List (Action Unit) := Network.imaging.map .net ++ [.connect 4, .load 4]

theorem shown_of_visiting : ∃ s : Site Unit Session.quiet,
    Lts.Run (Lts.Under (fun s a => s.Careful a ∧ s.Orderly a) Steps) {} visiting s ∧
    (s.visitor 4).loaded = true ∧
    ∀ {bs s'}, Lts.Run (Lts.Under Orderly Inner) s bs s' → Lts.Final Inner s' →
      s'.net.Spent ∨ s'.net.Settled ∧ ∀ w, (s'.visitor w).loaded = true →
        (s'.view w).Mirrors ∧ s'.Shows w ∧
        ∀ id, ((s'.visitor w).page.modules.find? id).isSome ↔ s'.Registered id := by
  obtain ⟨s, hrun, hobs⟩ := Lts.exists_run_of_foldlM (Lts.guard Unhurried step .disabled) {}
    visiting (fun s : Site Unit Session.quiet => decide (s.net.host.proxyInitialized = true ∧
      (s.visitor 4).loaded = true)) true (by decide +kernel)
  simp only [decide_eq_true_eq] at hobs
  obtain ⟨t, ht, hlast⟩ := hrun.under_of_guard.split
  have horderly : Lts.Run (Lts.Under Orderly Steps) {} visiting s :=
    (orderly_of_net ht).append ((hlast.of_under.under_of_forall (C := Orderly) fun a ha s => by
      rcases List.mem_pair.1 ha with rfl | rfl <;> trivial))
  have hcareful := horderly.under_of_forall (C := Careful) fun a ha s b hb => by
    rcases List.mem_append.1 ha with ha | ha
    · obtain ⟨b', hb', rfl⟩ := List.mem_map.1 ha
      cases hb
      exact Network.careful_of_mem_imaging hb' s.net
    · rcases List.mem_pair.1 ha with rfl | rfl <;> cases hb
      · exact ⟨trivial, trivial⟩
      · exact ⟨trivial, fun _ => isRequest_load⟩
  have h : Lts.Run (Lts.Under (fun s a => s.Careful a ∧ s.Orderly a) Steps) {} visiting s :=
    hcareful.mono fun _ _ _ hst => ⟨⟨hst.1, hst.2.1⟩, hst.2.2⟩
  exact ⟨s, h, hobs.2, (shown_of_runs h hobs.1).2⟩

end Site

end Sacs
