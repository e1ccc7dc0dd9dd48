import Sacs.Lib.Replicas
import Sacs.Publisher
import Sacs.Routing

/-!
# Properties at both ends

The properties of a module of an instance are also those of its image on the host. Web
clients write them at the host, the application at the instance, and each end tells the
other: they are replicas (`Replicas`), whose writes are not versioned.

Two writes of a property that cross each other on their way leave the ends with different
values, until it is written again. The property *crosses* (`Image.crossing`) when the last
write of it met another one, or was not told: a call with values that are no UTF-8, or a
request served before the image was linked.

* `Image.Sound` is the invariant of the runs in which only web clients write at the host,
  and one thread of the application at the instance (`Image.Shares`).
* `Network.converged_of_runs`: once everything is delivered and done, the properties that
  do not cross are the same at both ends.
-/

namespace Sacs

open JsonMsg ModuleManager
open Sacs.Module (lastWrite)

/-! ## The last value of a property -/

/-- The last value of the property `k`, after another update. -/
def lastOf (k : ℕ) (v : Option Str) (u : Int32 × Str) : Option Str :=
  if u.1.toInt = (k : Int) then some u.2 else v

theorem foldl_lastOf (ps qs : Updates) (k : ℕ) :
    qs.foldl (lastOf k) (lastWrite ps k) = lastWrite (ps ++ qs) k := by
  induction qs generalizing ps with
  | nil => rw [List.foldl_nil, List.append_nil]
  | cons u qs ih =>
    have hu : lastWrite [u] k = if u.1.toInt = (k : Int) then some u.2 else none := by
      simp only [lastWrite, List.filterMap_cons, List.filterMap_nil]
      split_ifs <;> rfl
    have hone : lastOf k (lastWrite ps k) u = lastWrite (ps ++ [u]) k := by
      rw [Module.lastWrite_append, hu, lastOf]
      split_ifs <;> rfl
    rw [List.foldl_cons, hone, ih, List.append_assoc, List.singleton_append]

/-- An update of another property is ignored, and one of this property replaces its value. -/
theorem ignored_or_replaces (k : ℕ) (u : Int32 × Str) :
    Replicas.Ignored (lastOf k) u ∨ Replicas.Replaces (lastOf k) u := by
  by_cases hu : u.1.toInt = (k : Int)
  · exact .inr fun _ _ => by rw [lastOf, lastOf, if_pos hu, if_pos hu]
  · exact .inl fun _ => if_neg hu

theorem isSome_lastWrite_iff {ps : Updates} {k : ℕ} :
    (lastWrite ps k).isSome ↔ ∃ u ∈ ps, ¬Replicas.Ignored (lastOf k) u := by
  have hignored : ∀ u : Int32 × Str, ¬Replicas.Ignored (lastOf k) u ↔ u.1.toInt = (k : Int) := by
    intro u
    constructor
    · intro h
      by_contra hu
      exact h fun _ => if_neg hu
    · intro hu h
      have := h none
      rw [lastOf, if_pos hu] at this
      cases this
  simp only [hignored, lastWrite, List.getLast?_isSome, ne_eq, List.filterMap_eq_nil_iff,
    not_forall, exists_prop]
  refine exists_congr fun u => and_congr_right fun _ => ?_
  by_cases hu : u.1.toInt = (k : Int) <;> simp [hu]

/-! ## The image of a module -/

namespace Network

variable {ι : Type}

/-- A module of an instance, which is a client of the host, and its image there. -/
structure Image (ι : Type) where
  inst : ι
  client : ClientId
  remoteId : Int32
  localId : Int32

namespace Image

variable (x : Image ι) (n : Network ι)

def Linked : Prop :=
  n.conn x.inst = some x.client ∧
    n.host.remoteModules.find? x.localId = some (x.remoteId, x.client)

instance instDecidableLinked : Decidable (x.Linked n) := inferInstanceAs (Decidable (_ ∧ _))

/-- The updates of the module on their way to the image. -/
def up : Updates := n.host.inbox x.localId ++ (n.inst x.inst).outbox x.remoteId

/-- The updates of the image on their way to the instance. -/
def down : Updates :=
  if n.conn x.inst = some x.client then
    ((n.host.clients x.client).getD []).flatMap (·.passes x.remoteId)
  else []

variable [DecidableEq ι]

/-- The properties that cross after a step: those written by the step cross if an update of
    them is on its way in the other direction, or if the other end is not told. -/
def crossing (n : Network ι) (a : Action ι) (_ : Network ι) (crossed : ℕ → Bool) : ℕ → Bool :=
  fun k => match a with
    | .inst p (.updateProperties id ps) =>
      if p = x.inst ∧ id = x.remoteId ∧ (lastWrite ps k).isSome then
        (lastWrite (x.down n) k).isSome || !decide (Announceable ps)
      else crossed k
    | .host .task =>
      if (n.host.modules.find? x.localId).isSome ∧
          (lastWrite (n.host.request x.localId) k).isSome then
        (lastWrite (x.up n) k).isSome || !decide (x.Linked n)
      else crossed k
    | _ => crossed k

/-- At the host the image is updated by web clients only, and at the instance by one thread
    of its application, once the module is registered. -/
def Shares (n : Network ι) : Action ι → Prop
  | .host (.updateProperties id _) | .host (.callbackUpdateProperties id _) => id ≠ x.localId
  | .inst p (.updateProperties id _) => p = x.inst → id = x.remoteId →
      ((n.inst p).modules.find? id).isSome ∧ ∀ call ∈ (n.inst p).calls, call.1 ≠ id
  | .inst p (.callbackUpdateProperties id _) => p = x.inst → id ≠ x.remoteId
  | _ => True

/-- The actions of the host that leave the image to its web clients and its instance. -/
structure Leaves (a : Sacs.Action) : Prop where
  connecting : a ≠ .connecting true
  proxyRead : ∀ {msg}, a ≠ .proxyRead msg
  call : ∀ {ps}, a ≠ .updateProperties x.localId ps
  callback : ∀ {ps}, a ≠ .callbackUpdateProperties x.localId ps

/-- The runs considered, with the properties that cross. -/
abbrev Runs (as : List (Action ι)) (n : Network ι) (crossed : ℕ → Bool) : Prop :=
  Lts.Run (Lts.History x.crossing (Lts.Under (fun n a => n.OwnOnly a ∧ x.Shares n a) Steps))
    ({}, fun _ => false) as (n, crossed)

/-- Nothing of the module is left to be done, nor on its way. -/
structure Drained : Prop where
  host : n.host.threadLoop = []
  inst : (n.inst x.inst).threadLoop = []
  msgQueue : (n.inst x.inst).msgQueue = []
  calls : (n.inst x.inst).calls = []
  client : (n.inst x.inst).client = some []
  clients : n.host.clients x.client = some []

/-! ## The invariant -/

/-- The module is linked to the image `id`, or about to be. -/
def PlacedAs (id : Int32) : Prop :=
  n.conn x.inst = some x.client ∧ n.host.hub.Placed x.client x.remoteId id

/-- The instance is the client, or can become it. -/
def Open : Prop :=
  n.conn x.inst = some x.client ∨ (n.inst x.inst).proxyInitialized = false

/-- The module is registered, or not yet. -/
def Live : Prop := ¬GoneId (n.inst x.inst).modules (n.inst x.inst).idCounter x.remoteId

/-- The updates the image has stored, and those it will: none before it is there. -/
inductive Stage : Updates → Updates → Prop
  | waiting : x.Open n → (∀ id, ¬x.PlacedAs n id) → Stage [] []
  | placed : x.PlacedAs n x.localId → Stage (n.host.writes x.localId) (n.host.inbox x.localId)

/-- The replicas of the property `k`. -/
def view (k : ℕ) (stored queued : Updates) : Replicas (Option Str) (Int32 × Str) where
  host := lastWrite stored k
  up := queued ++ (n.inst x.inst).outbox x.remoteId
  peer := lastWrite ((n.inst x.inst).writes x.remoteId) k
  inbox := (n.inst x.inst).inbox x.remoteId
  down := x.down n

/-- The module was registered at the instance with the properties of `m`. -/
def Registers (m : Module) : Prop :=
  ∃ m₀, (n.inst x.inst).registration? x.remoteId = some m₀ ∧ m₀.properties = m.properties

structure Sound (crossed : ℕ → Bool) : Prop where
  linked : n.Linked
  joined : n.Joined
  serving : n.host.Serving
  publishes : x.Open n → (n.inst x.inst).Publishes x.remoteId
  client : n.conn x.inst = some x.client → x.client ≠ ProxyServer.noClient
  /-- Nothing is to be saved in an image that is not registered yet. -/
  waiting : n.host.idCounter ≤ x.localId → n.host.inbox x.localId = []
  /-- Nothing is sent on before there is an image. -/
  quiet : x.Live n → (∀ id, n.host.remoteModules.find? id ≠ some (x.remoteId, x.client)) →
    x.down n = []
  /-- The image is registered with the properties that the module is registered with. -/
  asked : n.conn x.inst = some x.client → n.host.handler x.client = .registering x.remoteId →
    ∀ m, .doRegisterModule m (.handler x.client) ∈ n.host.threadLoop → x.Registers n m
  made : ∀ id, x.PlacedAs n id → ∃ m, n.host.registration? id = some m ∧ x.Registers n m
  agree : x.Live n → ∀ {stored queued}, x.Stage n stored queued → ∀ k, crossed k = false →
    (x.view n k stored queued).Agree (lastOf k)

/-- The replicas have taken a step. The property crosses if what is written does, or if
    it did before and nothing is written. -/
def Advances (n : Network ι) (a : Action ι) (n' : Network ι) (crossed : ℕ → Bool)
    (k : ℕ) (stored queued : Updates) : Prop :=
  ∃ stored₀ queued₀ l, x.Stage n stored₀ queued₀ ∧
    (x.view n k stored₀ queued₀).Step (lastOf k) l (x.view n' k stored queued) ∧
    (x.crossing n a n' crossed k = false → (¬l.Writes (lastOf k) → crossed k = false) ∧
      (l.Writes (lastOf k) → ¬(x.view n k stored₀ queued₀).Crosses (lastOf k) l))

end Image

theorem eq_registering {pc : HandlerPc} {r : Int32} (h : pc.toPc = .registering r) :
    pc = .registering r := by
  cases pc with
  | registering r' =>
    cases h
    rfl
  | _ => cases h

variable [DecidableEq ι] {n n' : Network ι} {a : Action ι}

/-- A step of the network is one of the host as a hub, which reads the message delivered, and
    closes the client that is disconnected. -/
theorem Moves.hub_step (h : n.Moves a n') (hf : n.host.Fresh) :
    ∃ l, Hub.Step (-1) n.host.hub l n'.host.hub ∧
      (∀ c change, l = .read c change → ∃ p msg sent, a = .deliverUp p ∧ n.conn p = some c ∧
        (n.inst p).client = some (msg :: sent) ∧ change = msg.change?) ∧
      ∀ c, l = .close c → ∃ p, n.conn p = some c ∧ a = .disconnect p := by
  cases h with
  | @host a host ha h =>
    refine ⟨a.label, h.hub hf, fun c change hl => ?_, fun c hl => ?_⟩
    · cases a with
      | read c' msg => cases ha
      | _ => cases hl
    · exact absurd hl (label_of_ofHost ha c).2.1
  | inst => exact ⟨.silent, .keep, nofun, nofun⟩
  | connect _ hhost => exact ⟨_, hhost.hub hf, nofun, nofun⟩
  | @deliverUp p c msg sent _ hp hclient h =>
    refine ⟨_, h.hub hf, fun c' change hl => ?_, nofun⟩
    cases hl
    exact ⟨p, msg, sent, rfl, hp, hclient, rfl⟩
  | @deliverDown p c msg sent s hp hclient =>
    refine ⟨.silent, Hub.Step.keep.of_eq ?_, nofun, nofun⟩
    refine hub_congr rfl (fun _ => rfl) rfl (fun c' => ?_) (fun _ => rfl) rfl ⟨[], by simp⟩
    dsimp only
    rw [Function.update_apply]
    split_ifs with hc
    · rw [hc, hclient]
      rfl
    · rfl
  | disconnect hp h =>
    refine ⟨_, h.hub hf, nofun, fun c hl => ?_⟩
    cases hl
    exact ⟨_, hp, rfl⟩

/-- A step of the network is one of an instance, or the host reads a message of it, or it
    does not concern it. -/
theorem Moves.inst_step (h : n.Moves a n') (p : ι) : n'.inst p = n.inst p ∨
    (∃ msg sent, (n.inst p).client = some (msg :: sent) ∧
      n'.inst p = { n.inst p with client := some sent }) ∨
    ∃ b, Transition (n.inst p) b (n'.inst p) := by
  have hset : ∀ {q s}, q ≠ p → (n.setInst q s).inst p = n.inst p :=
    fun hq => setInst_of_ne n (Ne.symm hq) _
  cases h with
  | host => exact .inl rfl
  | @inst q b s _ h =>
    by_cases hq : q = p
    · subst hq
      exact .inr (.inr ⟨b, by rwa [setInst_self]⟩)
    · exact .inl (hset hq)
  | @connect q c host s _ _ h =>
    by_cases hq : q = p
    · subst hq
      exact .inr (.inr ⟨_, by rwa [← setInst_self n q s] at h⟩)
    · exact .inl (hset hq)
  | @deliverUp q c msg sent host _ hclient _ =>
    by_cases hq : q = p
    · subst hq
      exact .inr (.inl ⟨msg, sent, hclient, setInst_self ..⟩)
    · exact .inl (hset hq)
  | @deliverDown q c msg sent s _ _ h =>
    by_cases hq : q = p
    · subst hq
      exact .inr (.inr ⟨_, by rwa [← setInst_self n q s] at h⟩)
    · exact .inl (hset hq)
  | disconnect => exact .inl rfl

omit [DecidableEq ι] in
theorem Image.leaves_of_ofHost {x : Image ι} {b : Sacs.Action} (hb : b.ofHost)
    (ha : x.Shares n (.host b)) : x.Leaves b := by
  constructor
  · rintro rfl
    cases hb
  · rintro msg rfl
    cases hb
  · rintro ps rfl
    exact ha rfl
  · rintro ps rfl
    exact ha rfl

omit [DecidableEq ι] in
theorem Image.Shares.inTurn {x : Image ι} {b : Sacs.Action} (ha : x.Shares n (.inst x.inst b)) :
    (n.inst x.inst).InTurn x.remoteId b := by
  constructor
  · rintro ps rfl
    exact ha rfl rfl
  · rintro ps rfl
    exact ha rfl rfl

/-- A step of the network is one of the host, or concerns only what it has sent. -/
theorem Moves.host_step {x : Image ι} (h : n.Moves a n') (ha : x.Shares n a) :
    (∃ clients, n'.host = { n.host with clients }) ∨
      ∃ b, Transition n.host b n'.host ∧ x.Leaves b := by
  cases h with
  | host hb h => exact .inr ⟨_, h, x.leaves_of_ofHost hb ha⟩
  | inst => exact .inl ⟨n.host.clients, rfl⟩
  | connect _ hhost => exact .inr ⟨_, hhost, ⟨nofun, nofun, nofun, nofun⟩⟩
  | deliverUp _ _ h => exact .inr ⟨_, h, ⟨nofun, nofun, nofun, nofun⟩⟩
  | deliverDown => exact .inl ⟨_, rfl⟩
  | disconnect _ h => exact .inr ⟨_, h, ⟨nofun, nofun, nofun, nofun⟩⟩

/-- Who is connected was connected before, or connects just now. -/
theorem Moves.conn_back (h : n.Moves a n') {p : ι} {c : ClientId} (hconn : n'.conn p = some c) :
    n.conn p = some c ∨ (n.inst p).proxyInitialized = false ∧ n.host.clients c = none ∧
      c ≠ ProxyServer.noClient ∧ n'.host.clients c = some [] := by
  cases h with
  | host | inst | deliverUp | deliverDown => exact .inl hconn
  | @connect q c' _ _ hq hhost =>
    dsimp only at hconn
    rw [Function.update_apply] at hconn
    split_ifs at hconn with hp
    · cases hconn
      subst hp
      cases hhost with
      | accept _ hnone hne => exact .inr ⟨hq, hnone, hne, Function.update_self ..⟩
    · exact .inl hconn
  | disconnect =>
    dsimp only at hconn
    rw [Function.update_apply] at hconn
    split_ifs at hconn
    exact .inl hconn

omit [DecidableEq ι] in
/-- Nothing is brought to the image by the other steps of the host than reading. -/
theorem Image.Leaves.inbox {x : Image ι} {b : Sacs.Action} (hb : x.Leaves b) {s s' : Instance}
    (h : Transition s b s') (htask : b ≠ .task) (hread : ∀ c msg, b ≠ .read c msg) :
    s'.inbox x.localId = s.inbox x.localId ∧ s'.writes x.localId = s.writes x.localId := by
  refine ⟨?_, (h.fills htask fun _ => hb.callback).1⟩
  rw [h.inbox htask (fun _ => hb.callback) hread]
  cases b with
  | updateProperties id ps =>
    have hid : id ≠ x.localId := by
      rintro rfl
      exact hb.call rfl
    rw [Sacs.Action.brings, if_neg hid, List.append_nil]
  | proxyRead msg => exact absurd rfl hb.proxyRead
  | _ => exact List.append_nil _

theorem Moves.gone (h : n.Moves a n') {p : ι} {id : Int32}
    (hid : GoneId (n.inst p).modules (n.inst p).idCounter id) :
    GoneId (n'.inst p).modules (n'.inst p).idCounter id := by
  rcases h.inst_step p with h | ⟨_, _, -, h⟩ | ⟨_, h⟩
  · rwa [h]
  · rwa [h]
  · exact h.registry.gone hid

theorem Moves.registration?_eq (h : n.Moves a n') {p : ι} {id : Int32} {m : Module}
    (hm : (n.inst p).registration? id = some m) : (n'.inst p).registration? id = some m := by
  rcases h.inst_step p with h | ⟨_, _, -, h⟩ | ⟨_, h⟩
  · rwa [h]
  · rw [h]
    exact hm
  · exact h.registration?_eq hm

theorem Moves.live {x : Image ι} (h : n.Moves a n') (hlive : x.Live n') : x.Live n :=
  fun hgone => hlive (h.gone hgone)

/-- Who can be the client could be before. -/
theorem Moves.open_back {x : Image ι} (h : n.Moves a n') (hopen : x.Open n') : x.Open n := by
  rcases hopen with hconn | hp
  · exact (h.conn_back hconn).imp_right And.left
  · refine .inr ?_
    rcases h.inst_step x.inst with h | ⟨_, _, -, h⟩ | ⟨_, h⟩
    · rwa [h] at hp
    · rwa [h] at hp
    · cases h.role with
      | keep hsame => exact hsame.proxyInitialized.symm.trans hp
      | tell _ _ hs' =>
        rw [hs'] at hp
        exact hp
      | connect hp' => exact hp'
      | serve hp' => exact hp'

theorem Image.Registers.step {x : Image ι} {m m' : Module} (hm : x.Registers n m)
    (h : n.Moves a n') (hprops : m.properties = m'.properties) : x.Registers n' m' := by
  obtain ⟨m₀, hm₀, h₀⟩ := hm
  exact ⟨m₀, h.registration?_eq hm₀, h₀.trans hprops⟩

omit [DecidableEq ι] in
/-- What is on its way to the host was announced. -/
theorem Linked.mem_handled (hn : n.Linked) {p : ι} {c : ClientId} (hconn : n.conn p = some c)
    {msg : Text} {sent : List Text} (hclient : (n.inst p).client = some (msg :: sent)) :
    msg ∈ (n.inst p).handled := by
  obtain ⟨delivered, sent', hsent, hpushed, -⟩ := hn.link hconn
  cases hclient.symm.trans hsent
  rw [(hn.peer p).queues.handled, hpushed]
  simp

namespace Image.Sound

variable {x : Image ι} {crossed : ℕ → Bool} (hs : x.Sound n crossed)

omit [DecidableEq ι] in
include hs in
/-- What the instance has announced to be removed is gone. -/
theorem gone_of_client {msg : Text} {sent : List Text} (hconn : n.conn x.inst = some x.client)
    (hclient : (n.inst x.inst).client = some (msg :: sent))
    (hmsg : msg.change? = some (.remove x.remoteId)) : ¬x.Live n := by
  refine not_not.2 ((hs.publishes (.inl hconn)).removed ?_)
  refine List.mem_filterMap.2 ⟨msg, hs.linked.mem_handled hconn hclient, ?_⟩
  rw [Text.removed?, hmsg]
  rfl

omit [DecidableEq ι] in
include hs in
/-- Nothing is asked for by a client whose handler is idle. -/
theorem not_awaited (hidle : n.host.handler x.client = .idle) (m : Module) :
    .doRegisterModule m (.handler x.client) ∉ n.host.threadLoop := by
  intro hm
  have hpc : n.host.hub.pc x.client = .idle := congrArg HandlerPc.toPc hidle
  have hnil := hs.joined.served.idle (c := x.client) (by simp [hpc])
  have hmem : m.shape ∈ n.host.hub.awaited x.client :=
    List.mem_filterMap.2 ⟨_, List.mem_filterMap.2 ⟨_, hm, rfl⟩, if_pos rfl⟩
  rw [hnil] at hmem
  cases hmem

include hs

/-- A client that connects just now is not served yet. -/
theorem away (h : n.Moves a n') (hconn : n'.conn x.inst = some x.client)
    (hne : n.conn x.inst ≠ some x.client) : n.host.hub.pc x.client = .idle ∧
      n.host.hub.awaited x.client = [] ∧ ∀ id, ¬n.host.hub.Held x.client id := by
  obtain ⟨-, hnone, -⟩ := (h.conn_back hconn).resolve_left hne
  exact hs.joined.served.away (congrArg Option.isSome hnone)

/-- What is placed was placed before, or is registered by the step. -/
theorem placed_back (h : n.Moves a n') {id : Int32} (hid : x.PlacedAs n' id) :
    x.PlacedAs n id ∨ n.conn x.inst = some x.client ∧
      Hub.Registers n.host.hub n'.host.hub x.client id ∧
      n.host.hub.pc x.client = .registering x.remoteId := by
  obtain ⟨l, hhub, -, -⟩ := h.hub_step hs.linked.fresh
  have hplaced := hhub.placed hid.2
  by_cases hconn : n.conn x.inst = some x.client
  · exact hplaced.imp (fun h => ⟨hconn, h⟩) fun h => ⟨hconn, h⟩
  · -- A client that connects just now has registered nothing.
    obtain ⟨hpc, -, hheld⟩ := hs.away h hid.1 hconn
    rcases hplaced with hplaced | ⟨-, hpc'⟩
    · exact absurd ⟨_, hplaced⟩ (hheld id)
    · cases hpc.symm.trans hpc'

/-- What is placed remains so while the instance is connected, and the module registered. -/
theorem placed_forth (h : n.Moves a n') {id : Int32} (hid : x.PlacedAs n id)
    (hconn : n'.conn x.inst = some x.client) (hlive : x.Live n') : x.PlacedAs n' id := by
  obtain ⟨l, hhub, hread, -⟩ := h.hub_step hs.linked.fresh
  refine ⟨hconn, hhub.keeps_placed hs.linked.hub hid.2 (hs.linked.opened.2 ⟨_, hid.1⟩).2 ?_⟩
  intro hl
  obtain ⟨q, msg, sent, -, hq, hclient, hchange⟩ := hread _ _ hl
  cases hs.linked.inj hq hid.1
  exact hs.gone_of_client hid.1 hclient hchange.symm (h.live hlive)

/-! ### What is on its way to the instance -/

omit [DecidableEq ι] in
/-- A step of the host, but a task, sends nothing. -/
theorem down_eq {b : Sacs.Action} (h : Transition n.host b n'.host) (hb : b ≠ .task)
    (hconn : n'.conn x.inst = n.conn x.inst) (hn' : n'.Linked) : x.down n' = x.down n := by
  by_cases hc : n.conn x.inst = some x.client
  · obtain ⟨out, hout⟩ := Option.isSome_iff_exists.1 (hs.linked.opened.2 ⟨_, hc⟩).1
    obtain ⟨out', hout'⟩ := Option.isSome_iff_exists.1 (hn'.opened.2 ⟨_, hconn.trans hc⟩).1
    rcases h.sends hout hout' with rfl | ⟨_, _, _, hsaves, -⟩
    · rw [down, down, hconn, hout, hout']
    · exact absurd hsaves.1 hb
  · rw [down, down, hconn, if_neg hc, if_neg hc]

omit [DecidableEq ι] in
/-- A task of the host sends the updates of a request, if the image is linked. -/
theorem down_task {host : Instance} (h : Transition n.host .task host) :
    ∃ us, x.down { n with host } = x.down n ++ us ∧
      ((∀ id, n.host.remoteModules.find? id ≠ some (x.remoteId, x.client)) → us = []) ∧
      (x.Linked n → us = n.host.request x.localId) := by
  by_cases hc : n.conn x.inst = some x.client
  · obtain ⟨out, hout⟩ := Option.isSome_iff_exists.1 (hs.linked.opened.2 ⟨_, hc⟩).1
    obtain ⟨msgs, hsent, hnone, himage⟩ :=
      h.sends_updates hs.serving hout (hs.client hc) x.remoteId
    refine ⟨msgs.flatMap (·.passes x.remoteId), ?_, hnone, fun hlinked => ?_⟩
    · rw [down, down, if_pos hc, if_pos hc, hsent, hout, Option.getD_some, Option.getD_some,
        List.flatMap_append]
    · obtain ⟨-, v, hv, -⟩ := hs.linked.hub.linked hlinked.2
      obtain ⟨m, hm, -⟩ := Option.map_eq_some_iff.1 hv
      exact himage _ hlinked.2 (fun id' h' => hs.linked.hub.inj h' hlinked.2) ⟨m, hm,
        callback_of_image hs.joined.kept hs.joined.served hs.joined.imaged hm hlinked.2⟩
  · refine ⟨[], ?_, fun _ => rfl, fun hlinked => absurd hlinked.1 hc⟩
    rw [down, down, if_neg hc, if_neg hc, List.append_nil]

omit hs [DecidableEq ι] in
/-- The instance reads the next message, which is on its way no longer. -/
theorem down_deliver {q : ι} {c : ClientId} {msg : Text} {sent : List Text}
    (hq : n.conn q = some c) (hout : n.host.clients c = some (msg :: sent))
    (hclients : n'.host.clients = Function.update n.host.clients c (some sent))
    (hconn : n'.conn x.inst = n.conn x.inst) (hinj : n.conn x.inst = some c → x.inst = q) :
    (q = x.inst ∧ c = x.client ∧ x.down n = msg.passes x.remoteId ++ x.down n') ∨
      (¬(q = x.inst ∧ c = x.client) ∧ x.down n' = x.down n) := by
  by_cases hx : q = x.inst ∧ c = x.client
  · obtain ⟨rfl, rfl⟩ := hx
    refine .inl ⟨rfl, rfl, ?_⟩
    rw [down, down, hconn, if_pos hq, if_pos hq, hout, hclients, Function.update_self,
      Option.getD_some, Option.getD_some, List.flatMap_cons]
  · refine .inr ⟨hx, ?_⟩
    rw [down, down, hconn]
    split_ifs with hc
    · have hne : x.client ≠ c := by
        rintro rfl
        exact hx ⟨(hinj hc).symm, rfl⟩
      rw [hclients, Function.update_of_ne hne]
    · rfl

/-- Nothing is sent on before there is an image. -/
theorem quiet_step (h : n.Moves a n') (hn' : n'.Linked) (hlive : x.Live n')
    (himage : ∀ id, n'.host.remoteModules.find? id ≠ some (x.remoteId, x.client)) :
    x.down n' = [] := by
  by_cases hconn' : n'.conn x.inst = some x.client
  swap
  · exact if_neg hconn'
  rcases h.conn_back hconn' with hconn | ⟨-, -, -, hout⟩
  swap
  · rw [down, if_pos hconn', hout]
    rfl
  -- The image would only have gone with the module, which is still live.
  have hnone : ∀ id, n.host.remoteModules.find? id ≠ some (x.remoteId, x.client) := by
    intro id hid
    obtain ⟨l, hhub, hread, -⟩ := h.hub_step hs.linked.fresh
    refine himage id (hhub.keeps_image hs.linked.hub hid (hs.linked.opened.2 ⟨_, hconn⟩).2 ?_)
    intro hl
    obtain ⟨q, msg, sent, -, hq, hclient, hchange⟩ := hread _ _ hl
    cases hs.linked.inj hq hconn
    exact hs.gone_of_client hconn hclient hchange.symm (h.live hlive)
  have hnil := hs.quiet (h.live hlive) hnone
  have hsame : n'.conn x.inst = n.conn x.inst := hconn'.trans hconn.symm
  cases h with
  | @host b host hb hhost =>
    by_cases htask : b = .task
    · subst htask
      obtain ⟨us, hus, hno, -⟩ := hs.down_task hhost
      rw [hus, hnil, hno hnone, List.nil_append]
    · have hdown : x.down { n with host } = x.down n := hs.down_eq hhost htask rfl hn'
      exact hdown.trans hnil
  | inst => exact hnil
  | connect _ hhost => exact (hs.down_eq hhost (by simp) hsame hn').trans hnil
  | deliverUp _ _ hhost => exact (hs.down_eq hhost (by simp) hsame hn').trans hnil
  | deliverDown hq hout _ =>
    rcases down_deliver hq hout rfl hsame (fun hc => hs.linked.inj hc hq) with
      ⟨-, -, hdown⟩ | ⟨-, hdown⟩
    · rw [hnil] at hdown
      exact (List.append_eq_nil_iff.1 hdown.symm).2
    · exact hdown.trans hnil
  | disconnect _ hhost => exact (hs.down_eq hhost (by simp) hsame hn').trans hnil

/-! ### What else is kept -/

theorem waiting_step (h : n.Moves a n') (ha : x.Shares n a)
    (hid : n'.host.idCounter ≤ x.localId) : n'.host.inbox x.localId = [] := by
  rcases h.host_step ha with ⟨clients, hhost⟩ | ⟨b, hb, hleaves⟩
  · rw [hhost] at hid ⊢
    exact hs.waiting hid
  have hid₀ : n.host.idCounter ≤ x.localId := hb.registry.counter_le.trans hid
  have hnil := hs.waiting hid₀
  by_cases htask : b = .task
  · subst htask
    exact hb.inbox_eq_nil hnil
  by_cases hread : ∃ c msg, b = .read c msg
  · -- What is looked up is registered, or the id of none.
    obtain ⟨c, msg, rfl⟩ := hread
    obtain ⟨r, ps, -, hinbox⟩ := hb.reads_updates
    rw [hinbox, hnil, List.nil_append, if_neg]
    intro hlocal
    rcases localIdFromRemote_cases n.host r c with himage | ⟨hnone, -⟩
    · rw [hlocal] at himage
      exact Option.some_ne_none _ (himage.symm.trans (hs.linked.hub.fresh hid₀).2.1)
    · rw [← hlocal, hnone] at hid₀
      exact absurd (hs.linked.fresh.counter.trans hid₀) (by decide)
  · rw [(hleaves.inbox hb htask fun c msg e => hread ⟨c, msg, e⟩).1]
    exact hnil

theorem serving_step (h : n.Moves a n') (ha : x.Shares n a) : n'.host.Serving := by
  rcases h.host_step ha with ⟨clients, hhost⟩ | ⟨b, hb, hleaves⟩
  · rw [hhost]
    exact ⟨hs.serving.client, hs.serving.parsed, hs.serving.passes⟩
  · exact hs.serving.step hb hleaves.connecting

theorem client_step (h : n.Moves a n') (hconn : n'.conn x.inst = some x.client) :
    x.client ≠ ProxyServer.noClient := by
  rcases h.conn_back hconn with hconn | ⟨-, -, hne, -⟩
  · exact hs.client hconn
  · exact hne

/-- What is placed was registered with the properties of the module. -/
theorem made_step (h : n.Moves a n') (ha : x.Shares n a) {id : Int32} (hid : x.PlacedAs n' id) :
    ∃ m, n'.host.registration? id = some m ∧ x.Registers n' m := by
  rcases h.host_step ha with ⟨clients, hhost⟩ | ⟨b, hb, -⟩
  · rcases hs.placed_back h hid with hid | ⟨-, ⟨-, hlt, -⟩, -⟩
    · obtain ⟨m, hm, hreg⟩ := hs.made id hid
      exact ⟨m, by rw [hhost]; exact hm, hreg.step h rfl⟩
    · rw [hhost] at hlt
      exact absurd hlt (lt_irrefl _)
  · rcases hs.placed_back h hid with hid | ⟨hconn, ⟨rfl, hlt, _, _, q, -, hjobs, -⟩, hpc⟩
    · obtain ⟨m, hm, hreg⟩ := hs.made id hid
      exact ⟨m, hb.registration?_eq hm, hreg.step h rfl⟩
    · -- It is registered by the task that was asked for.
      obtain ⟨m, q, ht⟩ := Ledger.takes_of_registers hb hlt hjobs
      have htask : b = .task := by
        by_contra hne
        exact absurd (Ledger.idCounter_of_ne hb hne) hlt.ne'
      subst htask
      have hreg : x.Registers n m :=
        hs.asked hconn (eq_registering hpc) m (ht.threadLoop ▸ List.mem_cons_self)
      refine ⟨m.setId n.host.idCounter, ?_, hreg.step h rfl⟩
      rw [registration?_of_record (hb.registers ht),
        show n.host.hub.counter = n.host.idCounter from rfl,
        (hs.joined.kept.unused _ le_rfl).1]
      simp [Event.registration?]

/-- What a client has asked to register is what the instance has announced. -/
theorem asked_step (h : n.Moves a n') (hconn : n'.conn x.inst = some x.client)
    (hpc : n'.host.handler x.client = .registering x.remoteId) {m : Module}
    (hm : .doRegisterModule m (.handler x.client) ∈ n'.host.threadLoop) : x.Registers n' m := by
  have hstep : x.Registers n m → x.Registers n' m := fun hm => hm.step h rfl
  have hkeep : n.conn x.inst = some x.client →
      n.host.handler x.client = .registering x.remoteId →
      .doRegisterModule m (.handler x.client) ∈ n.host.threadLoop → x.Registers n' m :=
    fun hconn hpc hm => hstep (hs.asked hconn hpc m hm)
  have haway : n.conn x.inst ≠ some x.client → n.host.hub.pc x.client = .idle :=
    fun hne => (hs.away h hconn hne).1
  -- The host reads nothing from the client.
  have hold : ∀ {b}, Transition n.host b n'.host → n.conn x.inst = some x.client →
      (∀ msg, b ≠ .read x.client msg) → x.Registers n' m := by
    intro b hb hconn hread
    refine hkeep hconn (eq_registering ?_) ?_
    · refine ((hb.hub hs.linked.fresh).registering (congrArg HandlerPc.toPc hpc)).resolve_right ?_
      rintro ⟨v, hlabel⟩
      cases b with
      | read c msg =>
        rw [Action.label, Hub.Label.read.injEq] at hlabel
        exact hread msg (hlabel.1 ▸ rfl)
      | _ => cases hlabel
    · rcases hb.posts with ⟨-, t, ht⟩ | ⟨-, ts, hts, hposts⟩
      · rw [ht.threadLoop]
        exact List.mem_cons_of_mem _ hm
      · rw [hts, List.mem_append] at hm
        refine hm.resolve_right fun hm => ?_
        cases hposts with
        | readAdd =>
          cases List.mem_singleton.1 hm
          exact hread _ rfl
        | none => cases hm
        | _ => cases List.mem_singleton.1 hm
  cases h with
  | host hb hhost =>
    refine hold hhost hconn ?_
    rintro msg rfl
    cases hb
  | inst => exact hkeep hconn hpc hm
  | @connect q c _ _ _ hhost =>
    by_cases hc : n.conn x.inst = some x.client
    · exact hold hhost hc (by simp)
    · -- Nothing is asked for by a client that connects just now.
      have hidle := haway hc
      rcases (hhost.hub hs.linked.fresh).registering (congrArg HandlerPc.toPc hpc) with h | ⟨_, h⟩
      · cases hidle.symm.trans h
      · cases h
  | @deliverUp q c msg sent host hq hclient hhost =>
    by_cases hqp : q = x.inst
    · subst hqp
      cases hq.symm.trans hconn
      cases hhost with
      | readAdd _ hidle hjson htype hm₁ =>
        have hid := (Function.update_self ..).symm.trans hpc
        rcases List.mem_append.1 hm with hm | hm
        · exact absurd hm (hs.not_awaited hidle m)
        · cases List.mem_singleton.1 hm
          refine hstep ((hs.publishes (.inl hconn)).properties
            (hs.linked.mem_handled hconn hclient) ?_)
          rw [Text.added?, hjson]
          simp only [htype, hm₁]
          exact if_pos (HandlerPc.registering.inj hid)
      | readNothing _ hidle => cases hidle.symm.trans hpc
      | readDel _ hidle => cases hidle.symm.trans hpc
      | readUpdate => cases (Function.update_self ..).symm.trans hpc
    · refine hold hhost hconn fun msg' hread => hqp ?_
      cases hread
      exact hs.linked.inj hq hconn
  | deliverDown => exact hkeep hconn hpc hm
  | @disconnect q c _ hq hhost =>
    dsimp only at hconn
    rw [Function.update_apply] at hconn
    split_ifs at hconn
    exact hold hhost hconn (by simp)

omit [DecidableEq ι] in
/-- Nothing is sent to a module that is not registered yet. -/
theorem passes_of_new {msg : Text} {sent : List Text} (hconn : n.conn x.inst = some x.client)
    (hout : n.host.clients x.client = some (msg :: sent))
    (hr : (n.inst x.inst).idCounter ≤ x.remoteId) : msg.passes x.remoteId = [] := by
  have hnil : x.down n = [] := by
    refine hs.quiet (fun hgone => not_lt.2 hr hgone.1) fun id hid => ?_
    obtain ⟨_, -, _, hm, -⟩ := hs.made id ⟨hconn, .inl hid⟩
    exact Option.some_ne_none _
      (hm.symm.trans ((hs.publishes (.inl hconn)).kept.unused _ hr).1)
  rw [down, if_pos hconn, hout, Option.getD_some, List.flatMap_cons, List.append_eq_nil_iff] at hnil
  exact hnil.1

theorem publishes_step (h : n.Moves a n') (hown : n.OwnOnly a) (ha : x.Shares n a)
    (hopen : x.Open n') : (n'.inst x.inst).Publishes x.remoteId := by
  have hopen₀ := h.open_back hopen
  have hpub := hs.publishes hopen₀
  have hpeer := hs.linked.peer x.inst
  cases h with
  | host => exact hpub
  | @inst q b s hb h =>
    by_cases hq : q = x.inst
    · subst hq
      rw [setInst_self]
      refine hpub.step hpeer h (.inl hb) ha.inTurn hown fun hr => ?_
      -- A module that is not registered yet has no call of the application.
      cases b with
      | updateProperties id ps =>
        refine if_neg fun hid => ?_
        obtain ⟨m, hm⟩ := Option.isSome_iff_exists.1 (ha rfl hid).1
        exact absurd (hpub.kept.fresh.key hm).2.2 (not_lt.2 (hid ▸ hr))
      | proxyRead => cases hb
      | _ => rfl
    · rwa [setInst_of_ne n (Ne.symm hq)]
  | @connect q c host s hp _ h =>
    by_cases hq : q = x.inst
    · subst hq
      have := hpub.step hpeer h (.inr (.inr ⟨rfl, hp⟩)) (.of_ne (by simp) (by simp)) trivial
        fun _ => rfl
      simpa using this
    · simpa [setInst, Function.update_of_ne (Ne.symm hq)] using hpub
  | @deliverUp q c msg sent host hq hclient hhost =>
    by_cases hqp : q = x.inst
    · subst hqp
      simpa using (hpub.deliver hclient).1
    · simpa [setInst, Function.update_of_ne (Ne.symm hqp)] using hpub
  | @deliverDown q c msg sent s hq hout h =>
    by_cases hqp : q = x.inst
    · subst hqp
      -- The instance reads what the host has sent to the client of the image.
      have hconn : n.conn x.inst = some x.client := by
        refine hopen₀.resolve_right fun hp => ?_
        exact Bool.false_ne_true (hp.symm.trans (hs.joined.client hq).2)
      cases hq.symm.trans hconn
      have := hpub.step hpeer h (.inr (.inl ⟨msg, rfl⟩)) (.of_ne (by simp) (by simp)) trivial
        (hs.passes_of_new hconn hout)
      simpa using this
    · simpa [setInst, Function.update_of_ne (Ne.symm hqp)] using hpub
  | disconnect => exact hpub

/-! ### The replicas -/

omit hs in
/-- Nothing is written, and the property does not cross if it did not before. -/
theorem advances_silent {stored queued stored₀ queued₀ : Updates} {k : ℕ}
    (hst : x.Stage n stored₀ queued₀)
    (hstep : (x.view n k stored₀ queued₀).Step (lastOf k) .silent (x.view n' k stored queued))
    (hcross : x.crossing n a n' crossed k = false → crossed k = false) :
    x.Advances n a n' crossed k stored queued :=
  ⟨stored₀, queued₀, .silent, hst, hstep, fun h => ⟨fun _ => hcross h, fun ⟨_, hmem, _⟩ =>
    absurd hmem List.not_mem_nil⟩⟩

omit hs in
/-- One end writes `ps`. -/
theorem advances_writes {l : Replicas.Label (Int32 × Str)} {ps : Updates}
    {stored queued stored₀ queued₀ : Updates} {k : ℕ} {b : Bool}
    (hst : x.Stage n stored₀ queued₀)
    (hstep : (x.view n k stored₀ queued₀).Step (lastOf k) l (x.view n' k stored queued))
    (hl : l.writes = ps)
    (hcross : x.crossing n a n' crossed k = if (lastWrite ps k).isSome then b else crossed k)
    (hb : b = false → ¬(x.view n k stored₀ queued₀).Crosses (lastOf k) l) :
    x.Advances n a n' crossed k stored queued := by
  have hwrites : l.Writes (lastOf k) ↔ (lastWrite ps k).isSome := by
    rw [isSome_lastWrite_iff, ← hl]
    rfl
  refine ⟨stored₀, queued₀, l, hst, hstep, fun hc => ?_⟩
  rw [hcross] at hc
  refine ⟨fun hw => ?_, fun hw => ?_⟩
  · rwa [if_neg fun h => hw (hwrites.2 h)] at hc
  · rw [if_pos (hwrites.1 hw)] at hc
    exact hb hc

/-- What was the stage before the step. -/
theorem stage_back (h : n.Moves a n') (hlive : x.Live n') {stored queued : Updates}
    (hst : x.Stage n' stored queued) :
    (x.Open n ∧ (∀ id, ¬x.PlacedAs n id) ∧ stored = [] ∧ queued = []) ∨
    x.PlacedAs n' x.localId ∧ stored = n'.host.writes x.localId ∧
      queued = n'.host.inbox x.localId ∧ (x.PlacedAs n x.localId ∨
        n.conn x.inst = some x.client ∧
          Hub.Registers n.host.hub n'.host.hub x.client x.localId ∧
          n.host.hub.pc x.client = .registering x.remoteId) := by
  cases hst with
  | waiting hopen hnone =>
    refine .inl ⟨h.open_back hopen, fun id hid => ?_, rfl, rfl⟩
    rcases hopen with hconn | hp
    · exact hnone id (hs.placed_forth h hid hconn hlive)
    · -- Who is connected remains so, or is connected no more.
      have hp₀ : (n.inst x.inst).proxyInitialized = true := (hs.joined.client hid.1).2
      rcases h.inst_step x.inst with h' | ⟨_, _, -, h'⟩ | ⟨_, h'⟩
      · rw [h', hp₀] at hp
        cases hp
      · rw [h'] at hp
        exact Bool.false_ne_true (hp.symm.trans hp₀)
      · exact Bool.false_ne_true (hp.symm.trans
          (h'.keepsConnection.2 (hs.joined.client hid.1).1 hp₀).2)
  | placed hid => exact .inr ⟨hid, rfl, rfl, hs.placed_back h hid⟩

/-- A step of an instance. -/
theorem advances_inst {q : ι} {b : Sacs.Action} {s : Instance} (hb : b.isLocal)
    (h : Transition (n.inst q) b s) (ha : x.Shares n (.inst q b))
    (hlive : x.Live (n.setInst q s)) {stored queued : Updates}
    (hst : x.Stage (n.setInst q s) stored queued) (k : ℕ) :
    x.Advances n (.inst q b) (n.setInst q s) crossed k stored queued := by
  have hmoves : n.Moves (.inst q b) (n.setInst q s) := .inst hb h
  have hst₀ : x.Stage n stored queued := by
    cases hst with
    | waiting hopen hnone => exact .waiting (hmoves.open_back hopen) hnone
    | placed hid => exact .placed hid
  by_cases hq : q = x.inst
  swap
  · -- It is another instance.
    refine advances_silent hst₀ (Replicas.Step.refl.of_eq ?_) fun hcross => ?_
    · simp only [view, setInst_of_ne n (Ne.symm hq)]
      rfl
    · cases b with
      | updateProperties => exact (if_neg fun h => hq h.1).symm.trans hcross
      | _ => exact hcross
  subst hq
  have hopen : x.Open n := by
    cases hst₀ with
    | waiting hopen => exact hopen
    | placed hid => exact .inl hid.1
  have hpub := hs.publishes hopen
  have hup : (n.inst x.inst).InTurn x.remoteId b := ha.inTurn
  have houtbox := hpub.outbox_step (hs.linked.peer _) h (.inl hb) hup
  rcases hpub.inbox_step h (.inl hb) hup (hmoves.live hlive) with
    ⟨rfl, ws, hinbox, hwrites⟩ | ⟨-, hinbox, hwrites⟩
  · -- Updates are saved.
    refine advances_silent hst₀ ((Replicas.Step.save hinbox).of_eq ?_) id
    rw [view, setInst_self, hwrites, houtbox, ← foldl_lastOf]
    exact congrArg (fun up => Replicas.mk _ (_ ++ up) _ _ _) (List.append_nil _)
  · by_cases hcall : ∃ ps, b = .updateProperties x.remoteId ps
    · obtain ⟨ps, rfl⟩ := hcall
      have hbrings : Action.brings (.updateProperties x.remoteId ps) x.remoteId = ps := if_pos rfl
      have hcross : x.crossing n (.inst x.inst (.updateProperties x.remoteId ps))
          (n.setInst x.inst s) crossed k = if (lastWrite ps k).isSome then
            (lastWrite (x.down n) k).isSome || !decide (Announceable ps) else crossed k := by
        simp [crossing]
      rw [hbrings] at hinbox
      by_cases hps : Announceable ps
      · -- The application writes, and the host is to be told.
        have hcalls : Action.calls (.updateProperties x.remoteId ps) x.remoteId = ps :=
          if_pos ⟨rfl, hps⟩
        rw [hcalls] at houtbox
        refine advances_writes hst₀ ((Replicas.Step.write ps).of_eq ?_) rfl hcross fun hb => ?_
        · rw [view, setInst_self, hwrites, houtbox, hinbox, ← List.append_assoc]
          rfl
        · rw [decide_eq_true hps, Bool.not_true, Bool.or_false] at hb
          exact fun hw => Bool.false_ne_true (hb.symm.trans (isSome_lastWrite_iff.2 hw))
      · -- It writes, and the call throws before the host is told.
        have hcalls : Action.calls (.updateProperties x.remoteId ps) x.remoteId = [] :=
          if_neg fun h => hps h.2
        rw [hcalls, List.append_nil] at houtbox
        refine advances_writes hst₀ ((Replicas.Step.keep ps).of_eq ?_) rfl hcross fun hb => ?_
        · rw [view, setInst_self, hwrites, houtbox, hinbox]
          rfl
        · rw [decide_eq_false hps, Bool.not_false, Bool.or_true] at hb
          cases hb
    · -- Nothing is written.
      have hnone : b.brings x.remoteId = [] ∧ b.calls x.remoteId = [] := by
        cases b with
        | updateProperties id ps =>
          have hid : id ≠ x.remoteId := fun hid => hcall ⟨ps, by rw [hid]⟩
          exact ⟨if_neg hid, if_neg fun h => hid h.1⟩
        | proxyRead => cases hb
        | _ => exact ⟨rfl, rfl⟩
      rw [hnone.1, List.append_nil] at hinbox
      rw [hnone.2, List.append_nil] at houtbox
      refine advances_silent hst₀ (Replicas.Step.refl.of_eq ?_) fun hcross => ?_
      · rw [view, setInst_self, hwrites, houtbox, hinbox]
        rfl
      · cases b with
        | updateProperties id ps =>
          exact (if_neg fun h => hcall ⟨ps, by rw [h.2.1]⟩).symm.trans hcross
        | _ => exact hcross

omit [DecidableEq ι] in
/-- The image is registered at the host. -/
theorem isSome_of_placedAs {id : Int32} (hid : x.PlacedAs n id) :
    (n.host.modules.find? id).isSome := by
  obtain ⟨v, hv⟩ : ∃ v, n.host.hub.module id = some v := by
    rcases hid.2 with himage | hpc
    · obtain ⟨-, v, hv, -⟩ := hs.linked.hub.linked himage
      exact ⟨v, hv⟩
    · obtain ⟨-, -, -, v, hv, -⟩ := hs.linked.hub.answered hpc
      exact ⟨v, hv⟩
  obtain ⟨m, hm, -⟩ := Option.map_eq_some_iff.1 hv
  exact hm ▸ rfl

/-- A task of the host, which may run a request of a web client. -/
theorem advances_task {host : Instance} (h : Transition n.host .task host)
    (hlive : x.Live { n with host }) {stored queued : Updates}
    (hst : x.Stage { n with host } stored queued) (k : ℕ) :
    x.Advances n (.host .task) { n with host } crossed k stored queued := by
  have hmoves : n.Moves (.host .task) { n with host } := .host rfl h
  obtain ⟨us, hdown, hnone, hlinked⟩ := hs.down_task h
  have hcross : x.crossing n (.host .task) { n with host } crossed k =
      if (n.host.modules.find? x.localId).isSome ∧
        (lastWrite (n.host.request x.localId) k).isSome then
        (lastWrite (x.up n) k).isSome || !decide (x.Linked n) else crossed k := rfl
  rcases hs.stage_back hmoves hlive hst with
    ⟨hopen, hno, rfl, rfl⟩ | ⟨hid, rfl, rfl, hid₀ | ⟨hconn, hreg, hpc⟩⟩
  · -- There is no image, and nothing is sent.
    have hnot : ¬x.Linked n := fun hl => hno _ ⟨hl.1, .inl hl.2⟩
    have hsame : x.down { n with host } = x.down n := by
      by_cases hconn : n.conn x.inst = some x.client
      · rw [hdown, hnone fun id hid => hno id ⟨hconn, .inl hid⟩, List.append_nil]
      · exact (if_neg hconn).trans (if_neg hconn).symm
    refine advances_silent (.waiting hopen hno) (Replicas.Step.refl.of_eq ?_) fun hc => ?_
    · rw [view, hsame]
      rfl
    · rw [hcross, decide_eq_false hnot, Bool.not_false, Bool.or_true] at hc
      split_ifs at hc
      exact hc
  · have hm := hs.isSome_of_placedAs hid₀
    simp only [hm, true_and] at hcross
    rcases h.drains (.inl hm) with ⟨-, hinbox, hwrites⟩ | ⟨hnil, ws, hinbox, hwrites⟩
    · -- The request of a web client is run.
      by_cases hl : x.Linked n
      · refine advances_writes (.placed hid₀)
          ((Replicas.Step.edit (n.host.request x.localId)).of_eq ?_) rfl hcross fun hb => ?_
        · rw [view, hdown, hlinked hl, hwrites, hinbox, ← foldl_lastOf]
          rfl
        · rw [decide_eq_true hl, Bool.not_true, Bool.or_false] at hb
          exact fun hw => Bool.false_ne_true (hb.symm.trans (isSome_lastWrite_iff.2 hw))
      · -- The image is not linked yet, and the instance is not told.
        have hpc := hid₀.2.resolve_left fun himage => hl ⟨hid₀.1, himage⟩
        have hus : us = [] := hnone (hs.linked.hub.answered hpc).2.1
        refine advances_writes (.placed hid₀)
          ((Replicas.Step.hide (n.host.request x.localId)).of_eq ?_) rfl hcross fun hb => ?_
        · rw [view, hdown, hus, List.append_nil, hwrites, hinbox, ← foldl_lastOf]
          rfl
        · rw [decide_eq_false hl, Bool.not_false, Bool.or_true] at hb
          cases hb
    · -- Updates are saved.
      have hus : us = [] := by
        by_cases hl : x.Linked n
        · rw [hlinked hl, hnil]
        · have hpc := hid₀.2.resolve_left fun himage => hl ⟨hid₀.1, himage⟩
          exact hnone (hs.linked.hub.answered hpc).2.1
      have hup : n.host.inbox x.localId ++ (n.inst x.inst).outbox x.remoteId =
          ws ++ (host.inbox x.localId ++ (n.inst x.inst).outbox x.remoteId) := by
        rw [hinbox, List.append_assoc]
      refine advances_silent (.placed hid₀) ((Replicas.Step.store hup).of_eq ?_) fun hc => ?_
      · rw [view, hdown, hus, List.append_nil, hwrites, ← foldl_lastOf]
        rfl
      · rw [hcross, hnil] at hc
        exact (if_neg Bool.false_ne_true).symm.trans hc
  · -- The image is registered just now.
    obtain ⟨hlocal, hlt, _, _, q, -, hjobs, -⟩ := hreg
    obtain ⟨m, q, ht⟩ := Ledger.takes_of_registers h hlt hjobs
    have hle : n.host.idCounter ≤ x.localId := hlocal.ge
    have hno : ∀ id, n.host.hub.image id ≠ some (x.remoteId, x.client) :=
      (hs.linked.hub.waits hpc).2.1
    have hwaiting : x.Stage n [] [] := by
      refine .waiting (.inl hconn) fun id hid => ?_
      rcases hid.2 with himage | hpc'
      · exact hno id himage
      · cases hpc.symm.trans hpc'
    have hinbox : host.inbox x.localId = [] := h.inbox_eq_nil (hs.waiting hle)
    have hwrites : host.writes x.localId = [] := by
      rw [writes_of_record (h.registers ht), (hs.joined.kept.unused _ hle).2]
      rfl
    refine advances_silent hwaiting (Replicas.Step.refl.of_eq ?_) fun hc => ?_
    · rw [view, hdown, hnone hno, List.append_nil, hwrites, hinbox]
      rfl
    · rw [hcross, if_neg] at hc
      · exact hc
      · rintro ⟨hm, -⟩
        obtain ⟨m₀, hm₀⟩ := Option.isSome_iff_exists.1 hm
        exact absurd (hs.linked.fresh.key hm₀).2.2 (not_lt.2 hle)

/-- A step of the host that saves nothing leaves the values, and what is on its way. -/
theorem advances_host {b : Sacs.Action} (h : n.Moves a n') (hb : Transition n.host b n'.host)
    (htask : b ≠ .task) (hleaves : x.Leaves b)
    (hwait : (∀ id, ¬x.PlacedAs n id) →
      (n'.inst x.inst).outbox x.remoteId = (n.inst x.inst).outbox x.remoteId)
    (hplaced : x.PlacedAs n x.localId → x.up n' = x.up n)
    (hinst : (n'.inst x.inst).inbox x.remoteId = (n.inst x.inst).inbox x.remoteId ∧
      (n'.inst x.inst).writes x.remoteId = (n.inst x.inst).writes x.remoteId)
    (hdown : x.down n' = x.down n) (hlive : x.Live n') {stored queued : Updates}
    (hst : x.Stage n' stored queued) (k : ℕ)
    (hcross : x.crossing n a n' crossed k = crossed k) :
    x.Advances n a n' crossed k stored queued := by
  rcases hs.stage_back h hlive hst with
    ⟨hopen, hno, rfl, rfl⟩ | ⟨hid, rfl, rfl, hid₀ | ⟨-, ⟨-, hlt, -⟩, -⟩⟩
  · refine advances_silent (.waiting hopen hno) (Replicas.Step.refl.of_eq ?_) hcross.symm.trans
    rw [view, view, hwait hno, hinst.1, hinst.2, hdown]
  · have hwrites := (hb.fills htask fun _ => hleaves.callback).1
    have hup := hplaced hid₀
    rw [up, up] at hup
    refine advances_silent (.placed hid₀) (Replicas.Step.refl.of_eq ?_) hcross.symm.trans
    rw [view, view, hup, hinst.1, hinst.2, hdown, hwrites]
  · -- Nothing is registered.
    exact absurd (Ledger.idCounter_of_ne hb htask) hlt.ne'

omit [DecidableEq ι] in
theorem ne_unknown {id : Int32} (hid : x.PlacedAs n id) : id ≠ -1 := by
  rintro rfl
  obtain ⟨m, hm⟩ := Option.isSome_iff_exists.1 (hs.isSome_of_placedAs hid)
  exact absurd (hs.linked.fresh.key hm).2.1 (by decide)

omit [DecidableEq ι] in
/-- What is read from another client is not for the image. -/
theorem reads_other {c : ClientId} {msg : Text} (hid : x.PlacedAs n x.localId)
    (hc : c ≠ x.client) (h : Transition n.host (.read c msg) n'.host) :
    n'.host.inbox x.localId = n.host.inbox x.localId := by
  obtain ⟨r, ps, -, hinbox⟩ := h.reads_updates
  rw [hinbox, if_neg, List.append_nil]
  intro hlocal
  rcases localIdFromRemote_cases n.host r c with himage | ⟨hnone, -⟩
  · rw [hlocal] at himage
    rcases hid.2 with himage' | hpc
    · cases himage.symm.trans himage'
      exact hc rfl
    · exact Option.some_ne_none _ (himage.symm.trans (hs.linked.hub.answered hpc).2.2.1)
  · exact hs.ne_unknown hid (hlocal.symm.trans hnone)

omit [DecidableEq ι] in
/-- What is read from the instance is for the image, once there is one. -/
theorem reads_placed {msg : Text} {sent : List Text} (hid : x.PlacedAs n x.localId)
    (h : Transition n.host (.read x.client msg) n'.host)
    (hclient : (n.inst x.inst).client = some (msg :: sent))
    (hinst : n'.inst x.inst = { n.inst x.inst with client := some sent }) :
    x.up n' = x.up n := by
  obtain ⟨r, ps, hupdates, hinbox⟩ := h.reads_updates
  have hidle := h.idle_of_read
  have himage : n.host.remoteModules.find? x.localId = some (x.remoteId, x.client) := by
    refine hid.2.resolve_right fun hpc => ?_
    cases (congrArg HandlerPc.toPc hidle).symm.trans hpc
  have hlocal : ProxyServer.localIdFromRemote n.host r x.client = x.localId ↔
      r = x.remoteId := by
    rcases localIdFromRemote_cases n.host r x.client with h | ⟨hnone, h⟩
    · constructor
      · intro hlocal
        rw [hlocal, himage] at h
        cases h
        rfl
      · rintro rfl
        exact hs.linked.hub.inj h himage
    · -- The id of none is the one of no module.
      refine iff_of_false (fun hlocal => ?_) fun hr => h _ (hr ▸ himage)
      exact hs.ne_unknown hid (hlocal.symm.trans hnone)
  rw [up, up, hinbox, hinst, ((hs.publishes (.inl hid.1)).deliver hclient).2, hupdates,
    List.append_assoc]
  simp only [hlocal]

omit [DecidableEq ι] in
/-- No module has a negative id. -/
theorem nonneg_of_live (hlive : x.Live n) : 0 ≤ x.remoteId := by
  have hf := (hs.linked.peer x.inst).announced.fresh
  by_contra hneg
  refine hlive ⟨(not_le.1 hneg).trans_le hf.counter, Option.eq_none_iff_forall_ne_some.2 ?_⟩
  exact fun m hm => hneg (hf.key hm).2.1

omit [DecidableEq ι] in
/-- There is an image before the updates of the module come to the host. -/
theorem reads_waiting {msg : Text} {sent : List Text} (hno : ∀ id, ¬x.PlacedAs n id)
    (hconn : n.conn x.inst = some x.client) (hidle : n.host.handler x.client = .idle)
    (hclient : (n.inst x.inst).client = some (msg :: sent)) (hlive : x.Live n) :
    msg.updatesOf x.remoteId = [] := by
  by_contra hne
  have hpub := hs.publishes (.inl hconn)
  obtain ⟨delivered, sent', hsent, hpushed, hshows⟩ := hs.linked.link hconn
  cases hclient.symm.trans hsent
  have hhandled : (n.inst x.inst).handled =
      (delivered ++ [msg]) ++ (sent ++ (n.inst x.inst).msgQueue) := by
    rw [(hs.linked.peer x.inst).queues.handled, hpushed]
    simp
  -- The module was added by a message before, and is not removed.
  obtain ⟨v, hv⟩ := hpub.preceded (hs.nonneg_of_live hlive) hhandled (by simp [hne])
  rw [List.filterMap_append, List.filterMap_cons, change?_of_updatesOf_ne_nil hne,
    List.filterMap_nil, List.append_nil] at hv
  have hremove : x.remoteId ∉
      (delivered.filterMap Text.change?).filterMap Feed.Change.removed? := by
    intro h
    rw [List.filterMap_filterMap] at h
    refine hlive (hpub.removed ?_)
    rw [Instance.removals, hhandled, List.append_assoc, List.filterMap_append]
    exact List.mem_append_left _ h
  rcases (hshows _ v).2 (Feed.mem_replay_of_add hv hremove) with ⟨id, -, hid⟩ | ⟨hpc, -⟩
  · exact hno id ⟨hconn, hid⟩
  · cases (congrArg HandlerPc.toPc hidle).symm.trans hpc

omit hs [DecidableEq ι] in
theorem open_of_stage {stored queued : Updates} (hst : x.Stage n stored queued) : x.Open n := by
  cases hst with
  | waiting hopen => exact hopen
  | placed hid => exact .inl hid.1

/-- Nor does it if it does not concern the instance. -/
theorem advances_away {b : Sacs.Action} (h : n.Moves a n') (hb : Transition n.host b n'.host)
    (htask : b ≠ .task) (hleaves : x.Leaves b) (hx : n'.inst x.inst = n.inst x.inst)
    (hread : x.PlacedAs n x.localId → n'.host.inbox x.localId = n.host.inbox x.localId)
    (hdown : x.down n' = x.down n) (hlive : x.Live n') {stored queued : Updates}
    (hst : x.Stage n' stored queued) (k : ℕ)
    (hcross : x.crossing n a n' crossed k = crossed k) :
    x.Advances n a n' crossed k stored queued := by
  refine hs.advances_host h hb htask hleaves (fun _ => by rw [hx]) (fun hid => ?_)
    ⟨by rw [hx], by rw [hx]⟩ hdown hlive hst k hcross
  rw [up, up, hx, hread hid]

omit [DecidableEq ι] in
/-- The instance is the client, once it is connected. -/
theorem conn_of_open {c : ClientId} (hopen : x.Open n) (hconn : n.conn x.inst = some c) :
    c = x.client ∧ n.conn x.inst = some x.client := by
  rcases hopen with hopen | hp
  · exact ⟨Option.some.inj (hconn.symm.trans hopen), hopen⟩
  · exact absurd (hp.symm.trans (hs.joined.client hconn).2) Bool.false_ne_true

/-- An instance connects. -/
theorem advances_connect {q : ι} {c : ClientId} (h : n.Moves (.connect q c) n') (hn' : n'.Linked)
    (hlive : x.Live n') {stored queued : Updates} (hst : x.Stage n' stored queued) (k : ℕ) :
    x.Advances n (.connect q c) n' crossed k stored queued := by
  have hleaves : x.Leaves (.accept c) := ⟨nofun, nofun, nofun, nofun⟩
  have hmoves := h
  have hpub := hs.publishes (h.open_back (open_of_stage hst))
  cases h with
  | @connect _ _ host s hp hhost hinst =>
    by_cases hqp : q = x.inst
    swap
    · exact hs.advances_away hmoves hhost (by simp) hleaves
        (Function.update_of_ne (Ne.symm hqp) ..)
        (fun _ => (hleaves.inbox hhost (by simp) (by simp)).1)
        (hs.down_eq hhost (by simp) (Function.update_of_ne (Ne.symm hqp) ..) hn') hlive hst k rfl
    -- Nothing was on its way to it.
    subst hqp
    have hconn : n.conn x.inst ≠ some x.client := fun hconn =>
      Bool.false_ne_true (hp.symm.trans (hs.joined.client hconn).2)
    have ha : Action.OfPeer (n.inst x.inst) (.connecting true) := .inr (.inr ⟨rfl, hp⟩)
    have hup : (n.inst x.inst).InTurn x.remoteId (.connecting true) :=
      .of_ne (by simp) (by simp)
    have houtbox : s.outbox x.remoteId = (n.inst x.inst).outbox x.remoteId :=
      (hpub.outbox_step (hs.linked.peer _) hinst ha hup).trans (List.append_nil _)
    obtain ⟨-, hinbox, hwrites⟩ := (hpub.inbox_step hinst ha hup
      (hmoves.live hlive)).resolve_left fun h => Sacs.Action.noConfusion h.1
    have hdown : x.down { n.setInst x.inst s with
        host, conn := Function.update n.conn x.inst (some c) } = [] := by
      rw [down]
      split_ifs with hconn'
      · obtain ⟨-, -, -, hout⟩ := (hmoves.conn_back hconn').resolve_left hconn
        rw [hout]
        rfl
      · rfl
    refine hs.advances_host hmoves hhost (by simp) hleaves (fun _ => ?_)
      (fun hid => absurd hid.1 hconn) ?_ ?_ hlive hst k rfl
    · simpa using houtbox
    · simpa using ⟨hinbox.trans (List.append_nil _), hwrites⟩
    · rw [hdown, down, if_neg hconn]

/-- The host reads a message. -/
theorem advances_up {q : ι} (h : n.Moves (.deliverUp q) n') (hn' : n'.Linked)
    (hlive : x.Live n') {stored queued : Updates} (hst : x.Stage n' stored queued) (k : ℕ) :
    x.Advances n (.deliverUp q) n' crossed k stored queued := by
  have hmoves := h
  have hopen := h.open_back (open_of_stage hst)
  cases h with
  | @deliverUp _ c msg sent host hq hclient hhost =>
    have hleaves : x.Leaves (.read c msg) := ⟨nofun, nofun, nofun, nofun⟩
    have hdown : x.down { n.setInst q { n.inst q with client := some sent } with host } =
        x.down n := hs.down_eq hhost (by simp) rfl hn'
    by_cases hqp : q = x.inst
    · subst hqp
      have hx := setInst_self n x.inst { n.inst x.inst with client := some sent }
      obtain ⟨rfl, -⟩ := hs.conn_of_open hopen hq
      refine hs.advances_host hmoves hhost (by simp) hleaves (fun hno => ?_)
        (fun hid => hs.reads_placed hid hhost hclient hx) ?_ hdown hlive hst k rfl
      · have hnil := hs.reads_waiting hno hq hhost.idle_of_read hclient (hmoves.live hlive)
        rw [((hs.publishes hopen).deliver hclient).2, hnil, List.nil_append]
        exact congrArg (fun s : Instance => s.outbox _) hx
      · simp [Instance.inbox, Instance.writes, Instance.record]
    · refine hs.advances_away hmoves hhost (by simp) hleaves
        (Function.update_of_ne (Ne.symm hqp) ..) (fun hid => ?_) hdown hlive hst k rfl
      refine hs.reads_other hid ?_ hhost
      rintro rfl
      exact hqp (hs.linked.inj hq hid.1)

/-- An instance reads a message of the host. -/
theorem advances_down {q : ι} (h : n.Moves (.deliverDown q) n') (hlive : x.Live n')
    {stored queued : Updates} (hst : x.Stage n' stored queued) (k : ℕ) :
    x.Advances n (.deliverDown q) n' crossed k stored queued := by
  have hmoves := h
  have hopen := h.open_back (open_of_stage hst)
  have hpub := hs.publishes hopen
  cases h with
  | @deliverDown _ c msg sent s hq hout hinst =>
    have hdown : (q = x.inst ∧ c = x.client ∧ x.down n = msg.passes x.remoteId ++
        x.down { n.setInst q s with
          host := { n.host with clients := Function.update n.host.clients c (some sent) } }) ∨
        (¬(q = x.inst ∧ c = x.client) ∧ x.down { n.setInst q s with
          host := { n.host with clients := Function.update n.host.clients c (some sent) } } =
            x.down n) := down_deliver hq hout rfl rfl fun hc => hs.linked.inj hc hq
    -- An image is not made by this step, so the stage was the same.
    have hst₀ : x.Stage n stored queued := by
      rcases hs.stage_back hmoves hlive hst with
        ⟨hopen, hno, rfl, rfl⟩ | ⟨-, rfl, rfl, hid | ⟨-, ⟨-, hlt, -⟩, -⟩⟩
      · exact .waiting hopen hno
      · exact .placed hid
      · exact absurd hlt (lt_irrefl _)
    by_cases hqp : q = x.inst
    · subst hqp
      obtain ⟨rfl, -⟩ := hs.conn_of_open hopen hq
      have ha : Action.OfPeer (n.inst x.inst) (.proxyRead msg) := .inr (.inl ⟨msg, rfl⟩)
      have hup : (n.inst x.inst).InTurn x.remoteId (.proxyRead msg) := .of_ne (by simp) (by simp)
      have houtbox : s.outbox x.remoteId = (n.inst x.inst).outbox x.remoteId :=
        (hpub.outbox_step (hs.linked.peer _) hinst ha hup).trans (List.append_nil _)
      obtain ⟨-, hinbox, hwrites⟩ := (hpub.inbox_step hinst ha hup
        (hmoves.live hlive)).resolve_left fun h => Sacs.Action.noConfusion h.1
      have hread := (hdown.resolve_right fun h => h.1 ⟨rfl, rfl⟩).2.2
      refine advances_silent hst₀ ((Replicas.Step.read hread).of_eq ?_) id
      simp only [view, setInst_self, houtbox, hinbox, hwrites]
      rfl
    · have hx : (n.setInst q s).inst x.inst = n.inst x.inst := setInst_of_ne n (Ne.symm hqp) s
      have hsame := (hdown.resolve_left fun h => hqp h.1).2
      refine advances_silent hst₀ (Replicas.Step.refl.of_eq ?_) id
      simp only [view, hsame, hx]

/-- A connection is lost. -/
theorem advances_disconnect {q : ι} (h : n.Moves (.disconnect q) n') (hn' : n'.Linked)
    (hlive : x.Live n') {stored queued : Updates} (hst : x.Stage n' stored queued) (k : ℕ) :
    x.Advances n (.disconnect q) n' crossed k stored queued := by
  have hmoves := h
  have hopen := open_of_stage hst
  cases h with
  | @disconnect _ c host hq hhost =>
    have hleaves : x.Leaves (.closed c) := ⟨nofun, nofun, nofun, nofun⟩
    have hqp : x.inst ≠ q := by
      rintro rfl
      rcases hopen with hconn | hp
      · cases (Function.update_self ..).symm.trans hconn
      · exact Bool.false_ne_true (hp.symm.trans (hs.joined.client hq).2)
    exact hs.advances_away hmoves hhost (by simp) hleaves rfl
      (fun _ => (hleaves.inbox hhost (by simp) (by simp)).1)
      (hs.down_eq hhost (by simp) (Function.update_of_ne hqp ..) hn') hlive hst k rfl

theorem advances (h : n.Moves a n') (ha : x.Shares n a) (hn' : n'.Linked) (hlive : x.Live n')
    {stored queued : Updates} (hst : x.Stage n' stored queued) (k : ℕ) :
    x.Advances n a n' crossed k stored queued := by
  cases h with
  | @host b host hb hhost =>
    by_cases htask : b = .task
    · subst htask
      exact hs.advances_task hhost hlive hst k
    · have hleaves := x.leaves_of_ofHost hb ha
      have hread : ∀ c msg, b ≠ .read c msg := by
        rintro c msg rfl
        cases hb
      have hdown : x.down { n with host } = x.down n := hs.down_eq hhost htask rfl hn'
      refine hs.advances_away (.host hb hhost) hhost htask hleaves rfl
        (fun _ => (hleaves.inbox hhost htask hread).1) hdown hlive hst k ?_
      cases b with
      | task => exact absurd rfl htask
      | _ => rfl
  | inst hb hinst => exact hs.advances_inst hb hinst ha hlive hst k
  | connect hp hhost hinst => exact hs.advances_connect (.connect hp hhost hinst) hn' hlive hst k
  | deliverUp hq hclient hhost => exact hs.advances_up (.deliverUp hq hclient hhost) hn' hlive hst k
  | deliverDown hq hout hinst => exact hs.advances_down (.deliverDown hq hout hinst) hlive hst k
  | disconnect hq hhost => exact hs.advances_disconnect (.disconnect hq hhost) hn' hlive hst k

theorem step (h : n.Moves a n') (hown : n.OwnOnly a) (ha : x.Shares n a) :
    x.Sound n' (x.crossing n a n' crossed) := by
  have hn' : n'.Linked := hs.linked.step hown h
  constructor
  case linked => exact hn'
  case joined => exact hs.joined.step h
  case serving => exact hs.serving_step h ha
  case publishes => exact hs.publishes_step h hown ha
  case client => exact hs.client_step h
  case waiting => exact hs.waiting_step h ha
  case quiet => exact fun hlive himage => hs.quiet_step h hn' hlive himage
  case asked => exact fun hconn hpc _ hm => hs.asked_step h hconn hpc hm
  case made => exact fun _ hid => hs.made_step h ha hid
  case agree =>
    intro hlive stored queued hst k hk
    obtain ⟨stored₀, queued₀, l, hst₀, hstep, hcross⟩ := hs.advances h ha hn' hlive hst k
    obtain ⟨hsilent, hwrites⟩ := hcross hk
    exact hstep.agree (ignored_or_replaces k)
      (fun hl => hs.agree (h.live hlive) hst₀ k (hsilent hl)) hwrites

end Image.Sound

variable {x : Image ι} {crossed : ℕ → Bool} {as : List (Action ι)}

theorem Image.sound_init : x.Sound {} crossed where
  linked := linked_of_runs .nil
  joined := joined_of_runs .nil
  serving := ⟨rfl, nofun, nofun⟩
  publishes _ := {
    kept := kept_of_runs .nil
    idle := fun _ => rfl
    web := nofun
    requests := nofun
    caller := Nat.zero_le 1
    new := fun _ => ⟨rfl, rfl, rfl⟩
    added := fun hpos hlt => absurd hlt (not_lt.2 hpos)
    preceded := fun _ => by simp [Instance.handled]
    removed := nofun
    properties := nofun }
  client := nofun
  waiting _ := rfl
  quiet _ _ := rfl
  asked := nofun
  made _ hid := absurd hid.1 nofun
  agree _ _ _ hst _ _ := by
    cases hst with
    | waiting => rfl
    | placed hid => cases hid.1

/-- What is stored is what the host and the instance were told to. -/
structure Image.Stored (x : Image ι) (n : Network ι) : Prop where
  host : n.host.Stored
  kept : (n.inst x.inst).Kept
  inst : (n.inst x.inst).Stored

theorem Image.Stored.step (hs : x.Stored n) (hkept : n.host.Kept) (h : n.Moves a n')
    (ha : x.Shares n a) : x.Stored n' := by
  have hhost : n'.host.Stored := by
    rcases h.host_step ha with ⟨clients, hhost⟩ | ⟨b, hb, -⟩
    · rw [hhost]
      exact hs.host
    · exact Instance.Stored.step hs.host hkept hb
  rcases h.inst_step x.inst with h | ⟨_, _, -, h⟩ | ⟨_, h⟩
  · exact ⟨hhost, by rw [h]; exact hs.kept, by rw [h]; exact hs.inst⟩
  · refine ⟨hhost, ?_, ?_⟩
    · rw [h]
      exact ⟨hs.kept.fresh, hs.kept.unused, hs.kept.kept⟩
    · rw [h]
      exact hs.inst
  · exact ⟨hhost, hs.kept.step h, Instance.Stored.step hs.inst hs.kept h⟩

theorem Image.sound_of_runs (h : x.Runs as n crossed) : x.Sound n crossed ∧ x.Stored n := by
  refine Lts.Run.invariant (P := fun y => x.Sound y.1 y.2 ∧ x.Stored y.1) h
    ⟨sound_init, nofun, kept_of_runs .nil, nofun⟩ ?_
  rintro ⟨n, crossed⟩ a ⟨n', crossed'⟩ ⟨hs, hstored⟩ ⟨⟨⟨hown, ha⟩, hst⟩, hcrossed⟩
  have hmoves := moves_of_step hst
  have hsound := hs.step hmoves hown ha
  rw [← hcrossed] at hsound
  exact ⟨hsound, hstored.step hs.joined.kept hmoves ha⟩

omit [DecidableEq ι] in
/-- Once everything is delivered and done, nothing is on its way. -/
theorem Image.Drained.view (hd : x.Drained n) (hconn : n.conn x.inst = some x.client) :
    n.host.inbox x.localId ++ (n.inst x.inst).outbox x.remoteId = [] ∧
      (n.inst x.inst).inbox x.remoteId = [] ∧ x.down n = [] := by
  refine ⟨?_, ?_, ?_⟩
  · simp [Instance.inbox, Instance.outbox, Instance.undelivered, Instance.toTell, toldUpdates,
      hd.host, hd.inst, hd.msgQueue, hd.calls, hd.client]
  · simp [Instance.inbox, hd.inst]
  · simp [down, hconn, hd.clients]

/-- In every run in which the image is written by web clients, and the module by one thread
    of its application: once everything is delivered and done, the properties that do not
    cross have the same values at both ends, and those that are read only. -/
theorem converged_of_runs (h : x.Runs as n crossed) (hlinked : x.Linked n) (hdrained : x.Drained n)
    {m : Module} (hm : (n.inst x.inst).modules.find? x.remoteId = some m) :
    ∃ m', n.host.modules.find? x.localId = some m' ∧
      m'.properties.length = m.properties.length ∧
      ∀ k p, m.properties[k]? = some p → (p.readOnly = true ∨ crossed k = false) →
        m'.properties[k]? = some p := by
  obtain ⟨hs, hstored⟩ := Image.sound_of_runs h
  have hplaced : x.PlacedAs n x.localId := ⟨hlinked.1, .inl hlinked.2⟩
  obtain ⟨m', hm'⟩ := Option.isSome_iff_exists.1 (hs.isSome_of_placedAs hplaced)
  -- Both were registered with the same properties.
  obtain ⟨m₁', hm₁', m₁, hm₁, hprops⟩ := hs.made _ hplaced
  obtain ⟨m₀, hm₀, hbecomes⟩ := hstored.inst hm
  obtain ⟨m₀', hm₀', hbecomes'⟩ := hstored.host hm'
  cases hm₁.symm.trans hm₀
  cases hm₁'.symm.trans hm₀'
  have hlength : m'.properties.length = m.properties.length := by
    obtain ⟨m₂, hm₂, hkeeps⟩ := hstored.kept.kept hm
    obtain ⟨m₂', hm₂', hkeeps'⟩ := hs.joined.kept.kept hm'
    cases hm₂.symm.trans hm₁
    cases hm₂'.symm.trans hm₁'
    rw [hkeeps'.saved.length_eq, hkeeps.saved.length_eq, hprops]
  refine ⟨m', hm', hlength, fun k p hp hk => ?_⟩
  refine hbecomes.eq_of_lastWrite hbecomes' hprops hp (hk.imp_right fun hk => ?_)
  have hlive : x.Live n := fun hgone => Option.some_ne_none _ (hm.symm.trans hgone.2)
  have hagree := hs.agree hlive (.placed hplaced) k hk
  obtain ⟨hup, hinbox, hdown⟩ := hdrained.view hlinked.1
  simpa only [Replicas.Agree, Image.view, hup, hinbox, hdown, List.append_nil, List.foldl_nil]
    using hagree

/-! ### A lamp -/

/-- `Image.Shares`, evaluated. -/
def Image.shares (x : Image ι) (n : Network ι) : Action ι → Bool
  | .host (.updateProperties id _) | .host (.callbackUpdateProperties id _) =>
    decide (id ≠ x.localId)
  | .inst p (.updateProperties id _) => decide (p = x.inst → id = x.remoteId →
      ((n.inst p).modules.find? id).isSome ∧ ∀ call ∈ (n.inst p).calls, call.1 ≠ id)
  | .inst p (.callbackUpdateProperties id _) => decide (p = x.inst → id ≠ x.remoteId)
  | _ => true

theorem Image.shares_iff {x : Image ι} : x.shares n a = true ↔ x.Shares n a := by
  cases a with
  | host a => cases a <;> simp [shares, Shares]
  | inst p a => cases a <;> simp only [shares, Shares, decide_eq_true_eq]
  | _ => simp [shares, Shares]

instance Image.instDecidableShares (x : Image ι) (n : Network ι) (a : Action ι) :
    Decidable (x.Shares n a) := decidable_of_iff _ Image.shares_iff

omit [DecidableEq ι] in
theorem Image.drained_iff {x : Image ι} : x.Drained n ↔
    n.host.threadLoop.isEmpty ∧ (n.inst x.inst).threadLoop.isEmpty ∧
      (n.inst x.inst).msgQueue.isEmpty ∧ (n.inst x.inst).calls.isEmpty ∧
      (n.inst x.inst).client.map List.isEmpty = some true ∧
      (n.host.clients x.client).map List.isEmpty = some true := by
  simp only [Option.map_eq_some_iff, List.isEmpty_iff]
  constructor
  · intro h
    exact ⟨h.host, h.inst, h.msgQueue, h.calls, ⟨_, h.client, rfl⟩, ⟨_, h.clients, rfl⟩⟩
  · rintro ⟨h₁, h₂, h₃, h₄, ⟨_, h₅, rfl⟩, ⟨_, h₆, rfl⟩⟩
    exact ⟨h₁, h₂, h₃, h₄, h₅, h₆⟩

instance Image.instDecidableDrained (x : Image ι) (n : Network ι) : Decidable (x.Drained n) :=
  decidable_of_iff' _ Image.drained_iff

/-- The lamp of an instance, with its image. -/
def lamp : Image Unit := ⟨(), 7, 0, 0⟩

/-- A web client sets the lamp to 1. -/
def switching : List (Action Unit) :=
  [.host (.wsMessage 3 ⟨.json (applyRequest 0 [(0, Str.lit "1")]) isUtf8_switch, false⟩),
    .host .task, .host (.wsReply 3)]

/-- The instance saves what its application has set, and announces it. -/
def dimming : List (Action Unit) :=
  [.inst () .task, .inst () (.announce 0), .inst () .task]

/-- It saves what it is told of by the host. -/
def passing : List (Action Unit) := [.deliverDown (), .inst () .task, .inst () .callbackReturn]

/-- The host saves what is announced. -/
def reporting : List (Action Unit) := [.deliverUp (), .host .task, .host (.resume 7), .host .task]

/-- The application and a web client set the lamp at the same time. -/
def racing : List (Action Unit) :=
  imaging ++ [.inst () (.updateProperties 0 [(0, Str.lit "2")])] ++ switching ++ dimming ++
    passing ++ reporting

/-- Each end stores the value of the other. -/
theorem diverged_of_racing : ∃ (n : Network Unit) (crossed : ℕ → Bool) (m m' : Module),
    lamp.Runs racing n crossed ∧ lamp.Linked n ∧ lamp.Drained n ∧
    (n.inst ()).modules.find? 0 = some m ∧ n.host.modules.find? 0 = some m' ∧
    m.callback = some 5 ∧ m.properties.map Property.value = [Str.lit "1"] ∧
    m'.properties.map Property.value = [Str.lit "2"] := by
  obtain ⟨⟨n, crossed⟩, h, hobs⟩ := Lts.exists_run_of_foldlM
    (Lts.historyStep lamp.crossing
      (Lts.guard (fun n a => n.OwnOnly a ∧ lamp.Shares n a) Network.step .disabled))
    ({}, fun _ => false) racing
    (fun y => decide (lamp.Linked y.1 ∧ lamp.Drained y.1 ∧
      ((y.1.inst ()).modules.find? 0).map (fun m => (m.callback, m.properties.map Property.value)) =
        some (some 5, [Str.lit "1"]) ∧
      (y.1.host.modules.find? 0).map (fun m => m.properties.map Property.value) =
        some [Str.lit "2"])) true (by decide +kernel)
  simp only [decide_eq_true_eq, Option.map_eq_some_iff, Prod.mk.injEq] at hobs
  obtain ⟨hlinked, hdrained, ⟨m, hm, hcb, hvalue⟩, m', hm', hvalue'⟩ := hobs
  exact ⟨n, crossed, m, m', h.history_of_exec, hlinked, hdrained, hm, hm', hcb, hvalue, hvalue'⟩

/-- The application sets it once it is told of the web client. -/
def following : List (Action Unit) :=
  imaging ++ switching ++ [.deliverDown (), .inst () (.updateProperties 0 [(0, Str.lit "2")]),
    .inst () .task, .inst () .callbackReturn] ++ dimming ++ reporting

theorem converged_of_following : ∃ (n : Network Unit) (crossed : ℕ → Bool) (m' : Module),
    lamp.Runs following n crossed ∧ n.host.modules.find? 0 = some m' ∧
    m'.properties[0]? = some ⟨1, Str.lit "On", Str.lit "2", false⟩ := by
  obtain ⟨⟨n, crossed⟩, h, hobs⟩ := Lts.exists_run_of_foldlM
    (Lts.historyStep lamp.crossing
      (Lts.guard (fun n a => n.OwnOnly a ∧ lamp.Shares n a) Network.step .disabled))
    ({}, fun _ => false) following
    (fun y => decide (lamp.Linked y.1 ∧ lamp.Drained y.1 ∧ y.2 0 = false ∧
      ((y.1.inst ()).modules.find? 0).map Module.properties =
        some [⟨1, Str.lit "On", Str.lit "2", false⟩])) true (by decide +kernel)
  simp only [decide_eq_true_eq, Option.map_eq_some_iff] at hobs
  obtain ⟨hlinked, hdrained, hcrossed, m, hm, hprops⟩ := hobs
  obtain ⟨m', hm', -, hvalue⟩ := converged_of_runs h.history_of_exec hlinked hdrained hm
  exact ⟨n, crossed, m', h.history_of_exec, hm', hvalue 0 _ (by rw [hprops]; rfl) (.inr hcrossed)⟩

end Network

end Sacs
