import Sacs.State

/-!
# The web server

The listeners of the web clients: every connected client is one, and is sent
the messages pushed. The map holds weak pointers: an entry whose client is gone
is dropped by the next push.

Pushing changes the listeners and what the web clients were sent, nothing else
(`pushMsgForJS_eq`).
-/

namespace Sacs

namespace ServerImpl

variable (s : Instance)

/-- One iteration of the loop of `PushMsgForJS`. -/
def pushTo (msg : Text) (s : Instance) (w : ClientId) : Instance :=
  match s.wsClients w with
  | some sent =>
    { s with
      wsClients := Function.update s.wsClients w (some (sent ++ [msg]))
      trace := s.trace ++ [.produced w msg] }
  | none => { s with eventListeners := s.eventListeners.erase w }

def pushMsgForJS (msg : Text) : Instance :=
  s.eventListeners.keys.foldl (pushTo msg) (s.log (.pushed msg))

def addEventListener (w : ClientId) : Instance :=
  { s with eventListeners := s.eventListeners.insert w () }

def removeEventListener (w : ClientId) : Instance :=
  { s with eventListeners := s.eventListeners.erase w }

/-! ### What pushing does -/

/-- The listeners with a client alive, in the order of the ids. -/
def listening : List ClientId := s.eventListeners.keys.filter fun w => (s.wsClients w).isSome

theorem foldl_pushTo (msg : Text) (ws : List ClientId) (hws : ws.Nodup) (s : Instance) :
    ∃ ls, ws.foldl (pushTo msg) s =
      { s with
        eventListeners := ls
        wsClients := fun w => if w ∈ ws then (s.wsClients w).map (· ++ [msg]) else s.wsClients w
        trace := s.trace ++
          (ws.filter fun w => (s.wsClients w).isSome).map (.produced · msg) } ∧
      ∀ w, ls.find? w =
        if w ∈ ws ∧ s.wsClients w = none then none else s.eventListeners.find? w := by
  induction ws generalizing s with
  | nil => exact ⟨s.eventListeners, by simp, by simp⟩
  | cons w ws ih =>
    obtain ⟨hw, hws⟩ := List.nodup_cons.1 hws
    obtain ⟨ls, hls, hfind⟩ := ih hws (pushTo msg s w)
    refine ⟨ls, ?_, fun v => ?_⟩
    · rw [List.foldl_cons, hls]
      cases h : s.wsClients w with
      | some sent =>
        have hne : ∀ v ∈ ws, v ≠ w := fun v hv e => hw (e ▸ hv)
        simp only [pushTo, h, List.filter_cons, Option.isSome_some, if_true, List.map_cons,
          List.append_assoc, List.singleton_append]
        congr 1
        · funext v
          by_cases hv : v = w
          · subst hv
            simp [hw, h]
          · simp [hv]
        · congr 3
          exact List.filter_congr fun v hv => by rw [Function.update_of_ne (hne v hv)]
      | none =>
        simp only [pushTo, h, List.filter_cons, Option.isSome_none, Bool.false_eq_true, if_false]
        congr 1
        funext v
        by_cases hv : v = w
        · subst hv
          simp [hw, h]
        · simp [hv]
    · rw [hfind]
      cases h : s.wsClients w with
      | some sent =>
        by_cases hv : v = w
        · subst hv
          simp [hw, h, pushTo]
        · simp [hv, h, pushTo]
      | none =>
        by_cases hv : v = w
        · subst hv
          simp [hw, h, pushTo, OrdMap.find?_erase]
        · simp [hv, h, pushTo, OrdMap.find?_erase]

variable {s} in
/-- Pushing a message sends it to every listener alive, and drops the others. -/
theorem pushMsgForJS_eq (msg : Text) :
    ∃ ls, pushMsgForJS s msg =
      { s with
        eventListeners := ls
        wsClients := fun w =>
          if (s.eventListeners.find? w).isSome then (s.wsClients w).map (· ++ [msg])
          else s.wsClients w
        trace := s.trace ++ .pushed msg :: (listening s).map (.produced · msg) } ∧
      ∀ w, (ls.find? w).isSome ↔ (s.eventListeners.find? w).isSome ∧ (s.wsClients w).isSome := by
  obtain ⟨ls, hls, hfind⟩ := foldl_pushTo msg s.eventListeners.keys
    (s.eventListeners.sorted_keys.imp ne_of_lt) (s.log (.pushed msg))
  refine ⟨ls, ?_, fun w => ?_⟩
  · rw [pushMsgForJS, hls]
    simp [Instance.log, OrdMap.mem_keys_iff, listening]
  · rw [hfind]
    cases h : s.wsClients w <;> cases h' : s.eventListeners.find? w <;>
      simp [Instance.log, OrdMap.mem_keys_iff, h, h']

end ServerImpl

end Sacs
