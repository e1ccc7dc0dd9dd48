import Sacs.Lib.Audience
import Sacs.Replies

/-!
# What the web clients are sent

The web clients are the audience of the messages pushed: each is there from when it
connects to when it is closed, or gone (`WsEvent.audience`). The listeners of the web
server may have clients that are gone, until a message is pushed.

`WsEvent.Follows` relates the listeners to the audience, and `WsEvent.Sent` what a client
has been sent to what it has heard. So every client is sent the messages pushed from when
it connects to its end (`broadcast_of_events`).

Nothing else is sent to the clients here. An id stands for its client: the entry of a
listener is of the client that had the id when it connected, and no other client gets the
id later (`WsEvent.NewClients`).
-/

namespace Sacs

/-- A call of the `ServerImpl`, or the end of a client that it is not told of. -/
inductive WsEvent
  | connected (w : ClientId)
  | closed (w : ClientId)
  | expired (w : ClientId)
  | push (msg : Text)

namespace WsEvent

/-- A client closed is alive as long as somebody holds it. -/
def serve (s : Instance) : WsEvent → Instance
  | .connected w => ServerImpl.addEventListener
      { s with wsClients := Function.update s.wsClients w (some []) } w
  | .closed w => ServerImpl.removeEventListener s w
  | .expired w => { s with wsClients := Function.update s.wsClients w none }
  | .push msg => ServerImpl.pushMsgForJS s msg

/-- The state after the events, from that of a server without clients. -/
def served (es : List WsEvent) : Instance := es.foldl serve {}

def connected? : WsEvent → Option ClientId
  | .connected w => some w
  | _ => none

def pushed? : WsEvent → Option Text
  | .push msg => some msg
  | _ => none

/-- The client `w` is closed, or gone. -/
def Ends (w : ClientId) (e : WsEvent) : Prop := e = .closed w ∨ e = .expired w

/-- What happens to the audience. -/
def audience : WsEvent → Audience.Event ClientId Text
  | .connected w => .join w
  | .closed w | .expired w => .leave w
  | .push msg => .say msg

/-- `w` is connected, not closed, and alive. -/
def listens (es : List WsEvent) (w : ClientId) : Bool :=
  Audience.present w false (es.map audience)

/-- The clients connected were not before. -/
def NewClients (es : List WsEvent) : Prop := (es.filterMap connected?).Nodup

theorem served_concat (es : List WsEvent) (e : WsEvent) :
    served (es ++ [e]) = serve (served es) e := List.foldl_concat ..

theorem listens_concat (es : List WsEvent) (e : WsEvent) (w : ClientId) :
    listens (es ++ [e]) w = e.audience.next w (listens es w) := by
  rw [listens, List.map_append, Audience.present_append]
  rfl

theorem heard_concat (es : List WsEvent) (e : WsEvent) (w : ClientId) :
    Audience.heard w false ((es ++ [e]).map audience) =
      Audience.heard w false (es.map audience) ++
        if listens es w then e.pushed?.toList else [] := by
  rw [List.map_append, Audience.heard_append]
  congr 1
  cases e <;> exact List.append_nil _

/-- The listeners alive are the audience, and were sent what it has heard. -/
structure Follows (es : List WsEvent) (s : Instance) : Prop where
  listeners : ∀ w, listens es w = true ↔
    (s.eventListeners.find? w).isSome ∧ (s.wsClients w).isSome
  produced : ∀ w, s.produced w = Audience.heard w false (es.map audience)

theorem Follows.step {es : List WsEvent} {s : Instance} (hs : Follows es s) (e : WsEvent) :
    Follows (es ++ [e]) (serve s e) := by
  -- Nothing is sent but what is pushed.
  have hsent : (serve s e).trace = s.trace → e.pushed? = none →
      ∀ w, (serve s e).produced w = Audience.heard w false ((es ++ [e]).map audience) := by
    intro htrace hpushed w
    rw [heard_concat, hpushed, Instance.produced, htrace, ← hs.produced w]
    exact ((congrArg _ (ite_self [])).trans (List.append_nil _)).symm
  cases e with
  | connected v =>
    refine ⟨fun w => ?_, hsent rfl rfl⟩
    rw [listens_concat]
    by_cases hw : v = w
    · subst hw
      simp [audience, Audience.Event.next, serve, ServerImpl.addEventListener, OrdMap.find?_insert]
    · have hw' : w ≠ v := Ne.symm hw
      simp [audience, Audience.Event.next, serve, ServerImpl.addEventListener,
        OrdMap.find?_insert, hw, hw', hs.listeners w]
  | closed v =>
    refine ⟨fun w => ?_, hsent rfl rfl⟩
    rw [listens_concat]
    by_cases hw : v = w
    · subst hw
      simp [audience, Audience.Event.next, serve, ServerImpl.removeEventListener,
        OrdMap.find?_erase]
    · have hw' : w ≠ v := Ne.symm hw
      simp [audience, Audience.Event.next, serve, ServerImpl.removeEventListener,
        OrdMap.find?_erase, hw, hw', hs.listeners w]
  | expired v =>
    refine ⟨fun w => ?_, hsent rfl rfl⟩
    rw [listens_concat]
    by_cases hw : v = w
    · subst hw
      simp [audience, Audience.Event.next, serve]
    · have hw' : w ≠ v := Ne.symm hw
      simp [audience, Audience.Event.next, serve, hw, hw', hs.listeners w]
  | push msg =>
    obtain ⟨ls, hpush, hls⟩ := ServerImpl.pushMsgForJS_eq (s := s) msg
    refine ⟨fun w => ?_, fun w => ?_⟩
    · rw [listens_concat, serve, hpush]
      change listens es w = true ↔ _
      rw [hs.listeners w, hls w]
      dsimp only
      split_ifs <;> simp
    · -- The message goes to the listeners alive, the audience.
      rw [serve, heard_concat, (broadcast_pushMsgForJS s msg).produced w, ← hs.produced w]
      refine congrArg _ (if_congr ?_ rfl rfl)
      rw [mem_listening, hs.listeners w]

theorem follows_served (es : List WsEvent) : Follows es (served es) := by
  induction es using List.reverseRecOn with
  | nil => exact ⟨fun w => by simp [listens, Audience.present, served], fun w => rfl⟩
  | append_singleton es e ih =>
    rw [served_concat]
    exact ih.step e

/-- A message is pushed to the audience. -/
theorem served_push (es : List WsEvent) (msg : Text) :
    (∃ ws : List ClientId, ws.Nodup ∧ (∀ w, w ∈ ws ↔ listens es w = true) ∧
      (served (es ++ [.push msg])).trace =
        (served es).trace ++ .pushed msg :: ws.map (.produced · msg)) ∧
    ∀ w, ((served (es ++ [.push msg])).eventListeners.find? w).isSome ↔ listens es w = true := by
  have hs := follows_served es
  obtain ⟨ls, hpush, hls⟩ := ServerImpl.pushMsgForJS_eq (s := served es) msg
  rw [served_concat, serve, hpush]
  refine ⟨⟨ServerImpl.listening (served es), nodup_listening _, fun w => ?_, rfl⟩, fun w => ?_⟩
  · rw [mem_listening, hs.listeners w]
  · rw [hs.listeners w]
    exact hls w

/-- What the client has been sent, if the events since it connected are `rest`: what it has
    heard, if it is alive. -/
structure Sent (w : ClientId) (rest : List WsEvent) (s : Instance) : Prop where
  gone : .expired w ∈ rest → s.wsClients w = none
  alive : .expired w ∉ rest →
    s.wsClients w = some (Audience.heard w true (rest.map audience))

/-- An event that does not concern the client. -/
theorem Sent.keep {w : ClientId} {rest : List WsEvent} {s : Instance} (hs : Sent w rest s)
    {e : WsEvent} (he : e ≠ .expired w) (hpushed : e.pushed? = none)
    (hsame : (serve s e).wsClients w = s.wsClients w) : Sent w (rest ++ [e]) (serve s e) := by
  have hmem : .expired w ∈ rest ++ [e] ↔ .expired w ∈ rest := by simp [Ne.symm he]
  have hsaid : e.audience.said? = none := by cases e <;> first | rfl | cases hpushed
  refine ⟨fun h => hsame.trans (hs.gone (hmem.1 h)), fun h => ?_⟩
  rw [hsame, hs.alive (mt hmem.2 h), List.map_append, Audience.heard_append]
  simp [Audience.heard, hsaid]

theorem Sent.step {before rest : List WsEvent} {w : ClientId} {s : Instance} (hs : Sent w rest s)
    (hfollows : Follows (before ++ .connected w :: rest) s) {e : WsEvent}
    (he : e ≠ .connected w) : Sent w (rest ++ [e]) (serve s e) := by
  cases e with
  | connected v =>
    refine hs.keep (by simp) rfl (Function.update_of_ne ?_ ..)
    rintro rfl
    exact he rfl
  | closed v => exact hs.keep (by simp) rfl rfl
  | expired v =>
    by_cases hv : w = v
    · subst hv
      exact ⟨fun _ => Function.update_self .., fun h => absurd (by simp) h⟩
    · refine hs.keep ?_ rfl (Function.update_of_ne hv ..)
      rintro ⟨⟩
      exact hv rfl
  | push msg =>
    -- It hears the message if it is still there, and then it is among the listeners alive.
    have hpresent : listens (before ++ .connected w :: rest) w =
        Audience.present w true (rest.map audience) := by
      rw [listens, List.map_append, Audience.present_append, List.map_cons]
      simp [Audience.present, audience, Audience.Event.next]
    have hsent := (broadcast_pushMsgForJS s msg).wsClients w
    simp only [mem_listening, ← hfollows.listeners w, hpresent] at hsent
    have hmem : .expired w ∈ rest ++ [.push msg] ↔ .expired w ∈ rest := by simp
    refine ⟨fun h => ?_, fun h => ?_⟩
    · rw [serve, hsent, hs.gone (hmem.1 h)]
      exact ite_self _
    · rw [serve, hsent, hs.alive (mt hmem.2 h), List.map_append, Audience.heard_append]
      split_ifs with hhere <;> simp [hhere, Audience.heard, audience, Audience.Event.said?]

theorem sent_served (before : List WsEvent) {w : ClientId} {rest : List WsEvent}
    (hrest : .connected w ∉ rest) : Sent w rest (served (before ++ .connected w :: rest)) := by
  induction rest using List.reverseRecOn with
  | nil =>
    rw [served_concat]
    exact ⟨nofun, fun _ => Function.update_self ..⟩
  | append_singleton rest e ih =>
    rw [List.mem_append, List.mem_singleton, not_or] at hrest
    rw [← List.cons_append, ← List.append_assoc, served_concat]
    exact (ih hrest.1).step (follows_served _) (Ne.symm hrest.2)

/-- A client that does not connect is sent nothing. -/
theorem wsClients_of_absent {es : List WsEvent} {w : ClientId} (h : .connected w ∉ es) :
    (served es).wsClients w = none := by
  induction es using List.reverseRecOn with
  | nil => rfl
  | append_singleton es e ih =>
    rw [List.mem_append, List.mem_singleton, not_or] at h
    rw [served_concat]
    cases e with
    | connected v =>
      have hv : w ≠ v := fun hv => h.2 (hv ▸ rfl)
      simp [serve, ServerImpl.addEventListener, hv, ih h.1]
    | closed v => exact ih h.1
    | expired v =>
      simp only [serve, Function.update_apply, ih h.1, ite_self]
    | push msg =>
      rw [serve, (broadcast_pushMsgForJS _ msg).wsClients w, ih h.1]
      split_ifs <;> rfl

/-- A message is sent to the audience, once. -/
theorem wsClients_push (es : List WsEvent) (msg : Text) (w : ClientId) :
    (listens es w = true → ∃ sent, (served es).wsClients w = some sent ∧
      (served (es ++ [.push msg])).wsClients w = some (sent ++ [msg])) ∧
    (listens es w = false →
      (served (es ++ [.push msg])).wsClients w = (served es).wsClients w) := by
  have hlisteners := (follows_served es).listeners w
  rw [served_concat, serve, (broadcast_pushMsgForJS _ msg).wsClients w]
  simp only [mem_listening, ← hlisteners]
  refine ⟨fun hw => ?_, fun hw => by simp [hw]⟩
  obtain ⟨sent, hsent⟩ := Option.isSome_iff_exists.1 (hlisteners.1 hw).2
  exact ⟨sent, hsent, by simp [hw, hsent]⟩

theorem join_not_mem {es : List WsEvent} {w : ClientId} (h : .connected w ∉ es) :
    .join w ∉ es.map audience := by
  intro hmem
  obtain ⟨e, he, haudience⟩ := List.mem_map.1 hmem
  cases e with
  | connected v =>
    cases haudience
    exact h he
  | _ => cases haudience

theorem leave_not_mem {es : List WsEvent} {w : ClientId} (h : ∀ e ∈ es, ¬e.Ends w) :
    .leave w ∉ es.map audience := by
  intro hmem
  obtain ⟨e, he, haudience⟩ := List.mem_map.1 hmem
  cases e with
  | closed v =>
    cases haudience
    exact h _ he (.inl rfl)
  | expired v =>
    cases haudience
    exact h _ he (.inr rfl)
  | _ => cases haudience

theorem Ends.audience {e : WsEvent} {w : ClientId} (h : e.Ends w) : e.audience = .leave w := by
  rcases h with rfl | rfl <;> rfl

theorem said_audience (es : List WsEvent) :
    (es.map audience).filterMap Audience.Event.said? = es.filterMap pushed? := by
  rw [List.filterMap_map]
  refine List.filterMap_congr fun e _ => ?_
  cases e <;> rfl

/-- After every sequence of events, with client ids that are not used twice:

    * a message pushed is sent once to every client that is connected, not closed and
      alive, and to no other, and these are the listeners then;
    * a client that does not connect is sent nothing;
    * a client is sent the messages pushed from when it connects to its end, in order, and
      none after that. -/
theorem broadcast_of_events {es : List WsEvent} (hids : NewClients es) :
    (∀ before msg after, es = before ++ .push msg :: after →
      (∀ w, (listens before w = true → ∃ sent, (served before).wsClients w = some sent ∧
          (served (before ++ [.push msg])).wsClients w = some (sent ++ [msg])) ∧
        (listens before w = false →
          (served (before ++ [.push msg])).wsClients w = (served before).wsClients w)) ∧
      (∃ ws : List ClientId, ws.Nodup ∧ (∀ w, w ∈ ws ↔ listens before w = true) ∧
        (served (before ++ [.push msg])).trace =
          (served before).trace ++ .pushed msg :: ws.map (.produced · msg)) ∧
      ∀ w, ((served (before ++ [.push msg])).eventListeners.find? w).isSome ↔
        listens before w = true) ∧
    (∀ w, .connected w ∉ es → (served es).wsClients w = none ∧ (served es).produced w = []) ∧
    ∀ before w mid after, es = before ++ .connected w :: (mid ++ after) →
      (∀ e ∈ mid, ¬e.Ends w) → (after = [] ∨ ∃ e rest, after = e :: rest ∧ e.Ends w) →
      (served (before ++ .connected w :: mid)).wsClients w = some (mid.filterMap pushed?) ∧
      (.expired w ∈ after → (served es).wsClients w = none) ∧
      (.expired w ∉ after → (served es).wsClients w = some (mid.filterMap pushed?)) ∧
      (served es).produced w = mid.filterMap pushed? := by
  refine ⟨fun before msg _ _ => ⟨wsClients_push before msg, served_push before msg⟩,
    fun w hw => ⟨wsClients_of_absent hw, ?_⟩, ?_⟩
  · rw [(follows_served es).produced w]
    exact Audience.heard_of_absent (join_not_mem hw)
  · intro before w mid after hes hmid hafter
    -- The client connects only once.
    have hcount : .connected w ∉ before ∧ .connected w ∉ mid ++ after := by
      rw [NewClients, hes, List.filterMap_append, List.filterMap_cons, List.nodup_append] at hids
      obtain ⟨-, hids, hdisjoint⟩ := hids
      refine ⟨fun hmem => ?_, fun hmem => ?_⟩
      · exact hdisjoint w (List.mem_filterMap.2 ⟨_, hmem, rfl⟩) w List.mem_cons_self rfl
      · exact (List.nodup_cons.1 hids).1 (List.mem_filterMap.2 ⟨_, hmem, rfl⟩)
    obtain ⟨hjoin, hrest⟩ := hcount
    have hafter' : after.map audience = [] ∨ ∃ rest, after.map audience = .leave w :: rest ∧
        .join w ∉ rest := by
      rcases hafter with rfl | ⟨e, rest, rfl, he⟩
      · exact .inl rfl
      · refine .inr ⟨rest.map audience, by rw [List.map_cons, he.audience], join_not_mem ?_⟩
        exact fun hmem => hrest (List.mem_append_right _ (List.mem_cons_of_mem _ hmem))
    -- The client does not expire before its end.
    have halive : .expired w ∉ mid := fun hmem => hmid _ hmem (.inr rfl)
    have hheard := Audience.heard_between (join_not_mem hjoin) (leave_not_mem hmid) hafter'
    have hheard' : Audience.heard w true ((mid ++ after).map audience) =
        mid.filterMap pushed? := by
      rw [List.map_append, Audience.heard_until (leave_not_mem hmid) hafter', said_audience]
    obtain ⟨hgone, hsent⟩ := sent_served before hrest
    rw [List.mem_append, or_iff_right halive, ← hes] at hgone
    rw [List.mem_append, or_iff_right halive, ← hes, hheard'] at hsent
    refine ⟨?_, hgone, hsent, ?_⟩
    · rw [(sent_served before fun h => hrest (List.mem_append_left _ h)).alive halive,
        (Audience.heard_of_stays (leave_not_mem hmid)).2, said_audience]
    · rw [(follows_served es).produced w, hes, List.map_append, List.map_cons, List.map_append,
        ← said_audience]
      exact hheard

/-- Three clients, one of which is closed, and one gone before the second message. -/
def visits : List WsEvent :=
  [.connected 1, .connected 2, .push (.json (.str (Str.lit "a")) (by decide)), .connected 3,
    .closed 1, .expired 2, .push (.json (.str (Str.lit "b")) (by decide))]

/-- The first client is sent the first message, the third one the second, and the second
    one is gone. -/
theorem broadcast_of_visits :
    NewClients visits ∧
      (served visits).wsClients 1 = some [.json (.str (Str.lit "a")) (by decide)] ∧
      (served visits).wsClients 2 = none ∧
      (served visits).wsClients 3 = some [.json (.str (Str.lit "b")) (by decide)] := by
  have hids : NewClients visits := by
    change ([1, 2, 3] : List ClientId).Nodup
    decide
  obtain ⟨-, -, hsent⟩ := broadcast_of_events hids
  refine ⟨hids, ?_, ?_, ?_⟩
  · exact (hsent [] 1 [.connected 2, .push (.json (.str (Str.lit "a")) (by decide)), .connected 3]
      _ rfl (by simp [Ends]) (.inr ⟨_, _, rfl, .inl rfl⟩)).2.2.1 (by simp)
  · exact (hsent [.connected 1] 2
      [.push (.json (.str (Str.lit "a")) (by decide)), .connected 3, .closed 1] _ rfl
      (by simp [Ends]) (.inr ⟨_, _, rfl, .inr rfl⟩)).2.1 (by simp)
  · exact (hsent (visits.take 3) 3
      [.closed 1, .expired 2, .push (.json (.str (Str.lit "b")) (by decide))] [] rfl
      (by simp [Ends]) (.inl rfl)).1

end WsEvent

end Sacs
