import Sacs.Departures

/-!
# Clients are isolated from each other

Clients of other instances send the host what they like, naming modules by ids of
their choice. What they do is to be told from what the application and the other
clients do: a ledger (`Ledger`) is kept along a run, of who posted each task of the
queue, and of who has registered each module. As ids of clients can be given again,
a client is known by its connection.

* `Ledger.Sound` is the invariant: tasks posted for a client are about modules it
  has registered, or about none.
* `isolated_of_runs`: a step due to a client changes nothing of the modules it has not
  registered, and only updates of the modules it has registered are sent to it.
-/

namespace Sacs

open JsonMsg ModuleManager Str

/-! ## The ledger -/

/-- Who a step is due to. -/
inductive Party
  /-- The application, also in a module callback, or the connection to the host. -/
  | application
  | browser (w : ClientId)
  /-- The client of another instance, on its connection of this number. -/
  | client (c : ClientId) (connection : Nat)
  deriving DecidableEq

def Party.client? : Party → Option ClientId
  | .client c _ => some c
  | _ => none

structure Ledger where
  /-- How often the client has connected. -/
  connections : ClientId → Nat := fun _ => 0
  /-- Who has posted the tasks of the queue. -/
  queue : List Party := []
  /-- Who has registered the module. -/
  owner : Int32 → Option Party := fun _ => none

/-! ### What is left to the clients -/

/-- The images are linked and unlinked by the handlers of the clients. -/
theorem Transition.remoteModules {s s' : Instance} {a : Action} (h : Transition s a s')
    (ha : a.client? = none) : s'.remoteModules = s.remoteModules := by
  have hsave : ∀ {s₁ s₂ : Instance} {id ps}, savePropertiesList s₁ false id ps = .ok s₂ →
      s₂.remoteModules = s₁.remoteModules := by
    intro s₁ s₂ id ps h
    obtain ⟨_, _, rfl⟩ := savePropertiesList_frame h
    rfl
  have hpass : ∀ {s₁ s₂ : Instance} {json}, Passes s₁ json s₂ →
      s₂.remoteModules = s₁.remoteModules := by
    intro s₁ s₂ json h
    obtain ⟨_, _, _, _, rfl⟩ := h.frame
    rfl
  have hanswer : ∀ (s₁ : Instance) w response,
      (answer s₁ w response).remoteModules = s₁.remoteModules := by
    intro s₁ w response
    obtain ⟨_, _, _, hf⟩ := answer_frame s₁ w response
    rw [hf]
  cases h with
  | taskHandle _ h => exact (handleMessage_emits h).remoteModules
  | @taskRegister m promise q msg s₁ ht _ _ h =>
    obtain ⟨_, _, hfulfil⟩ := fulfil_frame s₁ promise s.idCounter
    rw [hfulfil]
    exact (handleMessage_emits h).remoteModules
  | taskUnregister _ _ h => exact (handleMessage_emits h).remoteModules
  | taskLoad _ _ _ h =>
    rw [hanswer, hpass h]
  | taskApply _ _ h =>
    rw [hanswer, hpass h]
  | taskPass _ h =>
    rw [hpass h]
  | flush _ _ h => exact (pushMsg_emits h).remoteModules
  | callbackUnregister _ _ h => exact (handleMessage_emits h).remoteModules
  | callbackUpdate _ hs _ h => exact (handleMessage_emits h).remoteModules.trans (hsave hs)
  | callbackUpdateThrows _ hs _ => exact hsave hs
  | readAdd | readDel | readUpdate | resumeAdd | resumeUpdate | resumeClosing | resumeClosed
  | closed => cases ha
  | _ => rfl

/-- An update of an image is sent to the client it is of. -/
theorem Passes.clients {s s' : Instance} {json : JsonMsg} (h : Passes s json s') (c : ClientId) :
    s'.clients c = s.clients c ∨
      ∃ id ps json' out msg, json.findId = .ok id ∧ json.getPropertiesList = .ok (ps, json') ∧
        ps ≠ [] ∧ (ProxyServer.remoteIdFromLocal s id).2 = c ∧ s.clients c = some out ∧
        s'.clients c = some (out ++ [msg]) := by
  cases h with
  | @sent id m m' ps json' _ out msg hid _ hps hne _ _ _ hout =>
    by_cases hc : c = (ProxyServer.remoteIdFromLocal s id).2
    · subst hc
      exact .inr ⟨id, ps, json', out, msg, hid, hps, hne, rfl, hout, Function.update_self ..⟩
    · exact .inl (Function.update_of_ne hc ..)
  | _ => exact .inl rfl

/-- What is sent to a client is an update of an image of it. -/
theorem Transition.sends {s s' : Instance} {a : Action} (h : Transition s a s') {c : ClientId}
    {out out' : List Text} (hc : s.clients c = some out) (hc' : s'.clients c = some out') :
    out' = out ∨ ∃ id ps msg, s.WebSaves a id ps ∧ (ProxyServer.remoteIdFromLocal s id).2 = c ∧
      out' = out ++ [msg] := by
  have hkeep : s'.clients c = s.clients c → out' = out := fun h => by
    rw [hc', hc] at h
    exact Option.some.inj h
  have hsave : ∀ {s₁ s₂ : Instance} {id ps}, savePropertiesList s₁ false id ps = .ok s₂ →
      s₂.clients = s₁.clients := by
    intro s₁ s₂ id ps h
    obtain ⟨_, _, rfl⟩ := savePropertiesList_frame h
    rfl
  have hanswer : ∀ (s₁ : Instance) w response, (answer s₁ w response).clients = s₁.clients := by
    intro s₁ w response
    obtain ⟨_, _, _, hf⟩ := answer_frame s₁ w response
    rw [hf]
  have hpass : ∀ {t q json s₁}, Takes s t q → Passes { s with threadLoop := q } json s₁ →
      s'.clients = s₁.clients → a = .task →
      (∀ ps json', json.getPropertiesList = .ok (ps, json') → ps ≠ [] → t.passed? = some json) →
      out' = out ∨ ∃ id ps msg, s.WebSaves a id ps ∧ (ProxyServer.remoteIdFromLocal s id).2 = c ∧
        out' = out ++ [msg] := by
    intro t q json s₁ ht hp h₁ ha hpassed
    rcases hp.clients c with h | ⟨id, ps, json', out₁, msg, hid, hps, hne, himage, hout, hsent⟩
    · exact .inl (hkeep ((congrFun h₁ c).trans h))
    · refine .inr ⟨id, ps, msg, ⟨ha, t, q, json, json', ht, hpassed _ _ hps hne, hid, hps, hne⟩,
        himage, ?_⟩
      rw [h₁, hsent, Option.some.injEq] at hc'
      rw [← hc', Option.some.inj (hout.symm.trans hc)]
  cases h with
  | taskHandle _ h => exact .inl (hkeep (congrFun (handleMessage_emits h).clients c))
  | @taskRegister m promise q msg s₁ ht _ _ h =>
    obtain ⟨_, _, hfulfil⟩ := fulfil_frame s₁ promise s.idCounter
    refine .inl (hkeep ?_)
    rw [hfulfil]
    exact congrFun (handleMessage_emits h).clients c
  | taskUnregister _ _ h => exact .inl (hkeep (congrFun (handleMessage_emits h).clients c))
  | taskLoad ht htype _ h =>
    refine hpass ht h (hanswer ..) rfl fun ps json' hps hne => ?_
    rw [getPropertiesList, htype, if_pos (by decide)] at hps
    cases hps
    exact absurd rfl hne
  | taskApply ht htype h => exact hpass ht h (hanswer ..) rfl fun _ _ _ _ => if_pos htype
  | taskPass ht h => exact hpass ht h rfl rfl fun _ _ _ _ => rfl
  | flush _ _ h => exact .inl (hkeep (congrFun (pushMsg_emits h).clients c))
  | callbackUnregister _ _ h => exact .inl (hkeep (congrFun (handleMessage_emits h).clients c))
  | callbackUpdate _ hs _ h =>
    exact .inl (hkeep (congrFun ((handleMessage_emits h).clients.trans (hsave hs)) c))
  | callbackUpdateThrows _ hs _ => exact .inl (hkeep (congrFun (hsave hs) c))
  | @accept c' _ hnone _ =>
    refine .inl (hkeep (Function.update_of_ne ?_ ..))
    rintro rfl
    exact Option.some_ne_none _ (hc.symm.trans hnone)
  | @resumeClosed c' _ _ =>
    change Function.update s.clients c' none c = some out' at hc'
    rw [Function.update_apply] at hc'
    split_ifs at hc'
    exact .inl (Option.some.inj (hc'.symm.trans hc))
  | _ => exact .inl (hkeep rfl)

namespace Ledger

/-- Who an action other than a task is due to. -/
def poster (l : Ledger) : Action → Party
  | .read c _ | .resume c | .closed c => .client c (l.connections c)
  | .wsConnected w | .wsMessage w _ | .wsReply w | .wsClosed w | .wsExpired w => .browser w
  | _ => .application

/-- Who a step is due to: a task to who has posted it. -/
def party (l : Ledger) : Action → Option Party
  | .task => l.queue.head?
  | a => some (l.poster a)

/-- The ledger after a step. -/
def next (s : Instance) (a : Action) (s' : Instance) (l : Ledger) : Ledger where
  connections := match a with
    | .accept c => Function.update l.connections c (l.connections c + 1)
    | _ => l.connections
  queue := match a with
    | .task => l.queue.tail
    | a => l.queue ++ List.replicate (s'.threadLoop.length - s.threadLoop.length) (l.poster a)
  owner := if s'.idCounter = s.idCounter then l.owner
    else Function.update l.owner s.idCounter (l.party a)

/-- What a client may have posted: the registration of a module, an operation on one
    that it has registered, or on none, and announcements. -/
def Fits (l : Ledger) (t : Task) : Party → Prop
  | .client c n => match t with
    | .doRegisterModule _ promise => promise = .handler c ∧ n = l.connections c
    | .unregisterModule id | .savePropertiesList id _ =>
      id = -1 ∨ l.owner id = some (.client c n)
    | .handleMessage _ => True
    | _ => False
  | _ => ∀ m c, t ≠ .doRegisterModule m (.handler c)

/-- The tasks are those their posters may have posted, and clients hold what they have
    registered. -/
structure Sound (s : Instance) (l : Ledger) : Prop where
  fits : List.Forall₂ l.Fits s.threadLoop l.queue
  owner : ∀ {id p}, l.owner id = some p → 0 ≤ id ∧ id < s.idCounter
  held : ∀ {id c}, s.hub.Held c id → l.owner id = some (.client c (l.connections c))
  noClient : s.clients ProxyServer.noClient = none
  /-- The module was registered by who has got its id. -/
  registered : ∀ {id promise m}, .registered id promise m ∈ s.record →
    ∃ p, l.owner id = some p ∧ p.client? = promise.client?

variable {s s' : Instance} {l l' : Ledger} {a : Action}

theorem next_owner_of_eq (h : s'.idCounter = s.idCounter) : (l.next s a s').owner = l.owner :=
  if_pos h

theorem next_owner_of_ne (h : s'.idCounter ≠ s.idCounter) :
    (l.next s a s').owner = Function.update l.owner s.idCounter (l.party a) :=
  if_neg h

theorem Fits.mono {t : Task} {p : Party} (h : l.Fits t p) (hconn : l'.connections = l.connections)
    (howner : ∀ {id p}, l.owner id = some p → l'.owner id = some p) : l'.Fits t p := by
  cases p with
  | client c n =>
    cases t with
    | doRegisterModule m promise => exact ⟨h.1, hconn ▸ h.2⟩
    | unregisterModule id => exact h.imp_right howner
    | savePropertiesList id ps => exact h.imp_right howner
    | handleMessage msg => trivial
    | _ => exact h.elim
  | _ => exact h

/-- The id looked up is one of the client, or of no module. -/
theorem Sound.localId (hs : l.Sound s) (r : Int32) (c : ClientId) :
    ProxyServer.localIdFromRemote s r c = -1 ∨
      l.owner (ProxyServer.localIdFromRemote s r c) = some (.client c (l.connections c)) := by
  rcases localIdFromRemote_cases s r c with h | ⟨h, -⟩
  · exact .inr (hs.held ⟨r, .inl h⟩)
  · exact .inl h

theorem Sound.fits_of_posts (hs : l.Sound s) {ts : List Task} (h : Posts s a ts) :
    ∀ t ∈ ts, l.Fits t (l.poster a) := by
  have hone : ∀ {t}, l.Fits t (l.poster a) → ∀ t' ∈ [t], l.Fits t' (l.poster a) := by
    intro t ht t' ht'
    rwa [List.mem_singleton.1 ht']
  cases h with
  | none => simp
  | readAdd => exact hone ⟨rfl, rfl⟩
  | readDel => exact hone (hs.localId _ _)
  | readUpdate => exact hone (hs.localId _ _)
  | resumeUpdate => exact hone trivial
  | @resumeClosing c localId remote hpc hnext =>
    obtain ⟨h, hp⟩ := OrdMap.of_first?_eq_some hnext
    rw [decide_eq_true_eq] at hp
    exact hone (.inr (hs.held ⟨remote.1, .inl (hp ▸ h)⟩))
  | _ => exact hone fun m c => by simp

/-- Modules are registered by tasks only. -/
theorem idCounter_of_ne (h : Transition s a s') (htask : a ≠ .task) :
    s'.idCounter = s.idCounter := by
  cases h.edits with
  | keep _ h => exact h
  | add ha => exact absurd ha htask
  | remove _ _ h => exact h
  | save _ _ _ _ h => exact h

/-- Another step posts for one party. -/
theorem next_of_ne (h : Transition s a s') (htask : a ≠ .task) {ts : List Task}
    (hq : s'.threadLoop = s.threadLoop ++ ts) :
    (l.next s a s').queue = l.queue ++ List.replicate ts.length (l.poster a) ∧
      (l.next s a s').owner = l.owner := by
  refine ⟨?_, next_owner_of_eq (idCounter_of_ne h htask)⟩
  have hlen : s'.threadLoop.length - s.threadLoop.length = ts.length := by
    rw [hq, List.length_append]
    omega
  rw [← hlen]
  cases a with
  | task => exact absurd rfl htask
  | _ => rfl

theorem noClient_of_step (hs : s.clients ProxyServer.noClient = none) (hf : s.Fresh)
    (h : Transition s a s') : s'.clients ProxyServer.noClient = none := by
  by_contra hne
  have hc' : s'.hub.connected ProxyServer.noClient = true := Option.isSome_iff_ne_none.2 hne
  rcases (h.hub hf).connected hc' with hc | hlabel
  · exact Option.isSome_iff_ne_none.1 hc hs
  · cases a with
    | accept c =>
      cases hlabel
      cases h with
      | accept _ _ hno => exact hno rfl
    | _ => cases hlabel

/-- A module is registered by the task doing so. -/
theorem takes_of_registers (h : Transition s a s') (hlt : s.idCounter < s'.idCounter) {c : ClientId}
    {v : Shape} {js : List (Hub.Job Int32 Shape ClientId)}
    (hjobs : s.hub.jobs = .register v (some c) :: js) :
    ∃ m q, Takes s (.doRegisterModule m (.handler c)) q := by
  cases h.edits with
  | @add m promise q _ ht =>
    rw [jobs_take ht rfl] at hjobs
    cases promise with
    | handler c' =>
      cases (List.cons.inj hjobs).1
      exact ⟨m, q, ht⟩
    | _ => cases (List.cons.inj hjobs).1
  | keep _ hcounter => exact absurd hcounter hlt.ne'
  | remove _ _ hcounter => exact absurd hcounter hlt.ne'
  | save _ _ _ _ hcounter => exact absurd hcounter hlt.ne'

/-- Who has posted the task that is taken. -/
theorem Sound.takes (hs : l.Sound s) {t : Task} {q : List Task} (ht : Takes s t q) :
    ∃ p ps, l.queue = p :: ps ∧ l.Fits t p ∧ List.Forall₂ l.Fits q ps := by
  have := hs.fits
  rw [ht.threadLoop] at this
  obtain ⟨p, ps, hp, hps, hq⟩ := List.forall₂_cons_left_iff.1 this
  exact ⟨p, ps, hq, hp, hps⟩

theorem Sound.owner_next (hs : l.Sound s) {id : Int32} {p : Party} (h : l.owner id = some p) :
    (l.next s a s').owner id = some p := by
  by_cases hcounter : s'.idCounter = s.idCounter
  · rwa [next_owner_of_eq hcounter]
  · rw [next_owner_of_ne hcounter, Function.update_of_ne (hs.owner h).2.ne]
    exact h

theorem Sound.step_task (hs : l.Sound s) (hf : s.Fresh) (h : Transition s .task s') :
    (l.next s .task s').Sound s' := by
  obtain ⟨t, ht⟩ := h.takes
  obtain ⟨p, ps, hq, hp, hps⟩ := hs.takes ht
  have hparty : l.party .task = some p := by rw [party, hq, List.head?_cons]
  have hnew : s'.idCounter ≠ s.idCounter → (l.next s .task s').owner =
      Function.update l.owner s.idCounter (some p) := fun hne => by
    rw [next_owner_of_ne hne, hparty]
  have howner : ∀ {id p}, l.owner id = some p → (l.next s .task s').owner id = some p :=
    fun hid => hs.owner_next hid
  constructor
  case fits =>
    have htail : (l.next s .task s').queue = ps := by
      change l.queue.tail = ps
      rw [hq, List.tail_cons]
    rw [htail]
    exact hps.imp fun _ _ hfits => hfits.mono rfl howner
  case owner =>
    intro id p' hid
    by_cases hcounter : s'.idCounter = s.idCounter
    · rw [next_owner_of_eq hcounter] at hid
      rw [hcounter]
      exact hs.owner hid
    · rw [hnew hcounter, Function.update_apply] at hid
      have hlt : s.idCounter < s'.idCounter :=
        lt_of_le_of_ne h.registry.counter_le (Ne.symm hcounter)
      split_ifs at hid with he
      · exact he ▸ ⟨hf.counter, hlt⟩
      · exact (hs.owner hid).imp_right fun h => h.trans hlt
  case held =>
    intro id c hid
    rcases (h.hub hf).held hid with hid | ⟨hcounter, hlt, r, v, q, -, hjobs, -⟩
    · exact howner (hs.held hid)
    · -- The task registers the module for the client.
      subst hcounter
      rw [hnew hlt.ne']
      obtain ⟨m, q', ht'⟩ := takes_of_registers h hlt hjobs
      obtain ⟨rfl, -⟩ := ht.inj ht'
      rw [show s.hub.counter = s.idCounter from rfl, Function.update_self]
      cases p with
      | client c' n =>
        obtain ⟨hpromise, rfl⟩ := hp
        cases hpromise
        rfl
      | _ => exact absurd rfl (hp m c)
  case noClient => exact noClient_of_step hs.noClient hf h
  case registered =>
    have hold : ∀ {id promise m}, .registered id promise m ∈ s.record →
        ∃ p, (l.next s .task s').owner id = some p ∧ p.client? = promise.client? := by
      intro id promise m hmem
      obtain ⟨p', hp', hclient⟩ := hs.registered hmem
      exact ⟨p', howner hp', hclient⟩
    intro id promise m hmem
    cases h.edits with
    | keep _ _ hrecord => exact hold (hrecord ▸ hmem)
    | @add m' promise' q _ ht' hmax _ hcounter hrecord =>
      rw [hrecord, List.mem_append, List.mem_singleton] at hmem
      rcases hmem with hmem | hmem
      · exact hold hmem
      · cases hmem
        have hne : s'.idCounter ≠ s.idCounter := hcounter ▸ (lt_add_one hmax).ne'
        refine ⟨p, by rw [hnew hne, Function.update_self], ?_⟩
        obtain ⟨rfl, -⟩ := ht.inj ht'
        cases p with
        | client c n => rw [hp.1]; rfl
        | _ =>
          cases promise with
          | handler c => exact absurd rfl (hp m' c)
          | _ => rfl
    | remove _ _ _ hrecord =>
      rw [hrecord, List.mem_append, List.mem_singleton] at hmem
      exact hold (hmem.resolve_right Event.noConfusion)
    | save _ _ _ _ _ hrecord =>
      rw [hrecord, List.mem_append, List.mem_singleton] at hmem
      exact hold (hmem.resolve_right Event.noConfusion)

theorem Sound.step (hs : l.Sound s) (hf : s.Fresh) (hserved : Hub.Served (-1) s.hub)
    (h : Transition s a s') : (l.next s a s').Sound s' := by
  by_cases htask : a = .task
  · subst htask
    exact hs.step_task hf h
  obtain ⟨ts, hq, hts⟩ : ∃ ts, s'.threadLoop = s.threadLoop ++ ts ∧ Posts s a ts := by
    rcases h.posts with ⟨ha, -⟩ | ⟨-, hposts⟩
    · exact absurd ha htask
    · exact hposts
  obtain ⟨hqueue, howner⟩ := next_of_ne (l := l) h htask hq
  have hcounter := idCounter_of_ne h htask
  have hheld : ∀ {id c}, s'.hub.Held c id → s.hub.Held c id := by
    intro id c hid
    rcases (h.hub hf).held hid with hid | ⟨-, hlt, -⟩
    · exact hid
    · exact absurd hcounter hlt.ne'
  -- Who connects is served, and has registered, nothing that is left.
  have hconn : ∀ {c}, s.hub.connected c = true →
      (l.next s a s').connections c = l.connections c := by
    intro c hc
    cases a with
    | accept c' =>
      cases h with
      | accept _ hnone _ =>
        refine Function.update_of_ne ?_ ..
        rintro rfl
        exact Option.isSome_iff_ne_none.1 hc hnone
    | _ => rfl
  have hfits : ∀ {t p}, t ∈ s.threadLoop → l.Fits t p → (l.next s a s').Fits t p := by
    intro t p ht hp
    cases p with
    | client c n =>
      cases t with
      | doRegisterModule m promise =>
        obtain ⟨rfl, hn⟩ := hp
        refine ⟨rfl, hn.trans (hconn ?_).symm⟩
        by_contra hno
        have := (hserved.away (Bool.eq_false_iff.2 hno)).2.1
        rw [Hub.awaited, List.filterMap_eq_nil_iff] at this
        have hjob := this (.register m.shape (some c)) (List.mem_filterMap.2 ⟨_, ht, rfl⟩)
        rw [Hub.Job.awaited, if_pos rfl] at hjob
        cases hjob
      | unregisterModule id => exact hp.imp_right fun h => howner ▸ h
      | savePropertiesList id ps => exact hp.imp_right fun h => howner ▸ h
      | handleMessage msg => trivial
      | _ => exact hp.elim
    | _ => exact hp
  have hposts : ∀ t ∈ ts, (l.next s a s').Fits t (l.poster a) := by
    intro t ht
    cases a with
    | accept c =>
      cases hts
      cases ht
    | _ => exact (hs.fits_of_posts hts t ht).mono rfl fun h => howner ▸ h
  constructor
  case fits =>
    rw [hq, hqueue]
    refine List.rel_append ?_ ?_
    · have hmem := (List.forall₂_and_left _ _).2 ⟨fun t ht => ht, hs.fits⟩
      exact hmem.imp fun t p h => hfits h.1 h.2
    · clear hq hts hqueue
      induction ts with
      | nil => exact .nil
      | cons t ts ih =>
        exact .cons (hposts t List.mem_cons_self)
          (ih fun t ht => hposts t (List.mem_cons_of_mem _ ht))
  case owner =>
    intro id p hid
    rw [howner] at hid
    rw [hcounter]
    exact hs.owner hid
  case held =>
    intro id c hid
    have hid := hheld hid
    rw [howner, hconn (hserved.held hid).1]
    exact hs.held hid
  case noClient => exact noClient_of_step hs.noClient hf h
  case registered =>
    intro id promise m hmem
    rw [howner]
    cases h.edits with
    | keep _ _ hrecord => exact hs.registered (hrecord ▸ hmem)
    | add ha => exact absurd ha htask
    | remove _ _ _ hrecord =>
      rw [hrecord, List.mem_append, List.mem_singleton] at hmem
      exact hs.registered (hmem.resolve_right Event.noConfusion)
    | save _ _ _ _ _ hrecord =>
      rw [hrecord, List.mem_append, List.mem_singleton] at hmem
      exact hs.registered (hmem.resolve_right Event.noConfusion)

/-! ## What is due to a client -/

theorem Sound.modules (hs : l.Sound s) (hf : s.Fresh) (h : Transition s a s') {c : ClientId}
    {n : Nat} (ha : l.party a = some (.client c n)) {id : Int32}
    (hid : (l.next s a s').owner id ≠ some (.client c n)) :
    s'.modules.find? id = s.modules.find? id := by
  by_cases htask : a = .task
  · subst htask
    have hnone : ∀ {m}, s.modules.find? (-1) ≠ some m :=
      fun hm => absurd (hf.key hm).2.1 (by decide)
    have hfits : ∀ {t q}, Takes s t q → l.Fits t (.client c n) := by
      intro t q ht
      obtain ⟨p, ps, hq, hp, -⟩ := hs.takes ht
      rw [party, hq, List.head?_cons, Option.some.injEq] at ha
      exact ha ▸ hp
    -- The loop thread edits at most one module, that of the task taken, which fits the
    -- client.
    cases h.edits with
    | keep hmodules => rw [hmodules]
    | add _ _ hmax hmodules hcounter =>
      rw [hmodules, OrdMap.find?_insert, if_neg]
      rintro rfl
      have hne : s'.idCounter ≠ s.idCounter := hcounter ▸ (lt_add_one hmax).ne'
      rw [next_owner_of_ne hne, Function.update_self] at hid
      exact hid ha
    | @remove id' hu hmodules hcounter =>
      rw [hmodules, OrdMap.find?_erase]
      split_ifs with he
      · subst he
        rcases hu with ⟨-, q, ht⟩ | hcallback
        · rcases hfits ht with rfl | howner
          · cases hm : s.modules.find? (-1) with
            | none => rfl
            | some m => exact absurd hm hnone
          · rw [next_owner_of_eq hcounter] at hid
            exact absurd howner hid
        · cases hcallback
      · rfl
    | @save id' ps m m' hsaves hm _ hmodules hcounter =>
      rw [hmodules, OrdMap.find?_modify]
      split_ifs with he
      · subst he
        rcases hsaves with happ | ⟨-, t, q, json, json', ht, hpassed, -⟩
        · obtain ⟨t, ht⟩ := h.takes
          rw [Instance.appSaves?, ht.threadLoop] at happ
          cases t with
          | savePropertiesList id' ps' =>
            cases happ
            rcases hfits ht with rfl | howner
            · exact absurd hm hnone
            · rw [next_owner_of_eq hcounter] at hid
              exact absurd howner hid
          | _ => cases happ
        · cases t with
          | doProcessJSRequest json w => exact (hfits ht).elim
          | passPropertyUpdateToModule json => exact (hfits ht).elim
          | _ => cases hpassed
      · rfl
  · have hloop : a.onLoop = false := by
      cases a with
      | task => exact absurd rfl htask
      | read | resume | closed => rfl
      | _ => cases ha
    rw [(h.offLoop hloop).modules]

theorem Sound.remoteModules (hs : l.Sound s) (h : Transition s a s') {c : ClientId} {n : Nat}
    (ha : l.party a = some (.client c n)) {id : Int32}
    (hid : (l.next s a s').owner id ≠ some (.client c n)) :
    s'.remoteModules.find? id = s.remoteModules.find? id := by
  by_cases htask : a = .task
  · rw [h.remoteModules (by rw [htask]; rfl)]
  have hnot : l.owner id ≠ some (l.poster a) := by
    rw [next_owner_of_eq (idCounter_of_ne h htask)] at hid
    cases a with
    | task => exact absurd rfl htask
    | _ => exact fun howner => hid (howner.trans ha)
  -- The image of a client is unlinked, or none.
  have herase : ∀ {id' : Int32}, id' = -1 ∨ l.owner id' = some (l.poster a) →
      (s.remoteModules.erase id').find? id = s.remoteModules.find? id := by
    intro id' hid'
    rw [OrdMap.find?_erase]
    split_ifs with he
    · subst he
      rcases hid' with rfl | howner
      · cases himage : s.remoteModules.find? (-1) with
        | none => rfl
        | some x =>
          exact absurd (hs.owner (hs.held ⟨x.1, .inl himage⟩)).1 (by decide)
      · exact absurd howner hnot
    · rfl
  cases h with
  | readDel => exact herase (hs.localId _ _)
  | resumeAdd hpc =>
    refine (OrdMap.find?_insert ..).trans (if_neg ?_)
    rintro rfl
    exact hnot (hs.held ⟨_, .inr (congrArg HandlerPc.toPc hpc)⟩)
  | @resumeClosing c localId remote hpc hnext =>
    obtain ⟨himage, hp⟩ := OrdMap.of_first?_eq_some hnext
    rw [decide_eq_true_eq] at hp
    exact herase (.inr (hs.held ⟨remote.1, .inl (hp ▸ himage)⟩))
  | readNothing | readAdd | readUpdate | resumeUpdate | resumeClosed | closed => rfl
  | taskRole | taskHandle | taskRegister | taskUnregister | taskSaveNone | taskSave | taskOther
  | taskLoad | taskApply | taskPass => exact absurd rfl htask
  | _ => cases ha

/-- Updates of the modules of a client only are sent to it. -/
theorem Sound.owner_of_sent (hs : l.Sound s) {id : Int32} {c : ClientId} {out : List Text}
    (hc : s.clients c = some out) (h : (ProxyServer.remoteIdFromLocal s id).2 = c) :
    l.owner id = some (.client c (l.connections c)) := by
  rw [ProxyServer.remoteIdFromLocal] at h
  cases himage : s.remoteModules.find? id with
  | none =>
    rw [himage, Option.getD_none] at h
    exact absurd (hs.noClient.symm.trans (h ▸ hc)) (Option.some_ne_none _).symm
  | some remote =>
    rw [himage, Option.getD_some] at h
    exact hs.held ⟨remote.1, .inl (h ▸ himage)⟩

theorem sound_of_runs {as : List Action} {x : Instance × Ledger}
    (h : Lts.Run (Lts.History next Instance.Steps) ({}, {}) as x) :
    x.2.Sound x.1 ∧ x.1.Fresh ∧ Hub.Served (-1) x.1.hub := by
  refine h.invariant (P := fun x => x.2.Sound x.1 ∧ x.1.Fresh ∧ Hub.Served (-1) x.1.hub) ?_ ?_
  · refine ⟨?_, ⟨le_rfl, fun hm => by simp at hm⟩, served_init⟩
    constructor
    case fits => exact .nil
    case owner =>
      intro id p h
      cases h
    case held => exact fun hid => Bool.noConfusion (served_init.held hid).1
    case noClient => rfl
    case registered => exact fun hmem => absurd hmem List.not_mem_nil
  · rintro ⟨s, l⟩ a ⟨s', l'⟩ ⟨hs, hf, hserved⟩ ⟨hst, hl⟩
    obtain rfl : l' = l.next s a s' := hl
    have h := transition_of_step hst
    exact ⟨hs.step hf hserved h, h.registry.fresh hf, hserved.step (h.hub hf)⟩

end Ledger

/-- What is due to a client, its messages, the tasks they post and its disconnection,
    changes nothing of the modules it has not registered, nor of the images of other
    clients. Only updates of modules it has registered are ever sent to it. -/
theorem isolated_of_runs {as : List Action} {s s' : Instance} {l : Ledger} {a : Action}
    (h : Lts.Run (Lts.History Ledger.next Instance.Steps) ({}, {}) as (s, l))
    (hst : s.step a = .ok s') :
    (∀ id promise m, .registered id promise m ∈ s.trace →
      ∃ p, l.owner id = some p ∧ p.client? = promise.client?) ∧
    (∀ c n, l.party a = some (.client c n) →
      (∀ id, (l.next s a s').owner id ≠ some (.client c n) →
        s'.modules.find? id = s.modules.find? id ∧
          s'.remoteModules.find? id = s.remoteModules.find? id) ∧
      ∀ id r c', c' ≠ c →
        (s'.remoteModules.find? id = some (r, c') ↔ s.remoteModules.find? id = some (r, c'))) ∧
    ∀ c out out', s.clients c = some out → s'.clients c = some out' → out' = out ∨
      ∃ id ps msg, s.WebSaves a id ps ∧ l.owner id = some (.client c (l.connections c)) ∧
        out' = out ++ [msg] := by
  obtain ⟨hs, hf, hserved⟩ := Ledger.sound_of_runs h
  dsimp only at hs hf hserved
  have ht := transition_of_step hst
  refine ⟨fun id promise m hmem => hs.registered (List.mem_filter.2 ⟨hmem, rfl⟩),
    fun c n ha => ⟨fun id hid => ⟨hs.modules hf ht ha hid, hs.remoteModules ht ha hid⟩, ?_⟩, ?_⟩
  · intro id r c' hne
    by_cases hid : (l.next s a s').owner id = some (.client c n)
    · -- The image would be one of the client `c`.
      have hother : ∀ {k}, (l.next s a s').owner id ≠ some (.client c' k) := by
        intro k h
        cases hid.symm.trans h
        exact hne rfl
      constructor
      · intro himage
        exact absurd ((hs.step hf hserved ht).held ⟨r, .inl himage⟩) hother
      · intro himage
        exact absurd (hs.owner_next (hs.held ⟨r, .inl himage⟩)) hother
    · rw [hs.remoteModules ht ha hid]
  · intro c out out' hc hc'
    rcases ht.sends hc hc' with h | ⟨id, ps, msg, hsaves, himage, h⟩
    · exact .inl h
    · exact .inr ⟨id, ps, msg, hsaves, hs.owner_of_sent hc himage, h⟩

/-- Two clients add a module with the same id, and one of them removes its own. -/
def meddling : List Action :=
  [.connecting false, .task, .flush, .accept 7, .accept 8,
    .read 7 (.json (addition 6) (isUtf8_addition 6)), .task, .resume 7,
    .read 8 (.json (addition 6) (isUtf8_addition 6)), .task, .resume 8,
    .read 8 (.json (removal 6) (isUtf8_removal 6))]

/-- The module of the other client is still there. -/
theorem isolated_of_meddling : ∃ s s' l,
    Lts.Run (Lts.History Ledger.next Instance.Steps) ({}, {}) meddling (s, l) ∧
      s.step .task = .ok s' ∧ (s.modules.find? 0).isSome ∧
      s'.modules.find? 0 = s.modules.find? 0 ∧
      s'.remoteModules.find? 0 = s.remoteModules.find? 0 := by
  obtain ⟨⟨s, l⟩, h, hobs⟩ := Lts.exists_run_of_foldlM
    (Lts.historyStep Ledger.next (Lts.guard (fun _ _ => True) Instance.step .disabled)) ({}, {})
    meddling (fun x => (x.2.party .task, x.2.owner 0, (x.1.modules.find? 0).isSome,
      (x.1.step .task).toOption.isSome))
    (some (.client 8 1), some (.client 7 1), true, true) (by decide +kernel)
  simp only [Prod.mk.injEq] at hobs
  obtain ⟨hparty, howner, hsome, hok⟩ := hobs
  have hrun := h.history_of_exec.history_mono fun _ _ _ h => h.2
  obtain ⟨s', hs'⟩ : ∃ s', s.step .task = .ok s' := by
    cases hst : s.step .task with
    | error e => rw [hst] at hok; cases hok
    | ok s' => exact ⟨s', rfl⟩
  have hkept : (l.next s .task s').owner 0 = some (.client 7 1) :=
    (Ledger.sound_of_runs hrun).1.owner_next howner
  have hother : (l.next s .task s').owner 0 ≠ some (.client 8 1) := by
    rw [hkept]
    decide
  exact ⟨s, s', l, hrun, hs', hsome, ((isolated_of_runs hrun hs').2.1 8 1 hparty).1 0 hother⟩

end Sacs
