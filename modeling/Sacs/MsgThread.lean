import Sacs.Android

/-!
# The queue of the `MsgThread`

The updates given to `JniGlue::InternalCallback` are handed to Java by the
`MsgThread`. In between they are in the collector. The flag `_is_ready` and the
condition variable tell the `MsgThread` of them: it tests the flag, and goes to
sleep, with the mutex locked, but takes the updates from the collector whenever
they are there, and those who add them do not lock the mutex for it.

The model has every step the threads take between the accesses to what they
share (`MsgThread.step`). Any number of threads may call `InternalCallback`, and a
thread asleep may wake up for no reason.

* Nothing is lost, doubled or reordered, and the `MsgThread` does not sleep while
  updates are in the collector, unless it is going to be woken
  (`MsgThread.delivered_of_runs`).
* The `MsgThread` of `Android`, whose steps are larger, is one
  (`Android.exists_msgThread`).
-/

namespace Sacs

/-! ## The threads -/

/-- Where a thread is in `JniGlue::InternalCallback`. -/
inductive NotifyPc
  /-- In no call of it, or about to add the updates. -/
  | out
  /-- In `Notify`, to lock the mutex. -/
  | locking
  /-- To set `_is_ready`. -/
  | setting
  /-- To unlock the mutex. -/
  | unlocking
  /-- To signal the condition. -/
  | signalling
  deriving DecidableEq

/-- Where the `MsgThread` is in the loop of `OnThreadStarted`. -/
inductive MsgThreadPc
  /-- To lock the mutex: at the top of the loop, or woken in `wait`. -/
  | locking
  /-- In `wait`, to test `_is_ready`. -/
  | testing
  /-- In `wait`: the flag was not set. -/
  | sleeping
  /-- In `wait`, with the mutex unlocked. -/
  | asleep
  /-- To clear `_is_ready`. -/
  | clearing
  /-- To take the updates from the collector. -/
  | collecting
  /-- To hand these to Java. -/
  | calling (callbacks : List QueuedCallback)

/-- The updates taken from the collector, but not handed to Java yet. -/
def MsgThreadPc.batch : MsgThreadPc → List QueuedCallback
  | .calling callbacks => callbacks
  | _ => []

/-- Who has locked the mutex. -/
inductive Owner (ι : Type)
  | msgThread
  | caller (t : ι)
  deriving DecidableEq

def NotifyPc.holdsMutex : NotifyPc → Bool
  | .setting | .unlocking => true
  | _ => false

def MsgThreadPc.holdsMutex : MsgThreadPc → Bool
  | .locking | .asleep => false
  | _ => true

def MsgThreadPc.isAsleep : MsgThreadPc → Bool
  | .asleep => true
  | _ => false

theorem MsgThreadPc.eq_asleep {pc : MsgThreadPc} (h : pc.isAsleep = true) : pc = .asleep := by
  cases pc with
  | asleep => rfl
  | _ => cases h

/-- The thread has added updates, but not set `_is_ready` yet. -/
def NotifyPc.setsReady : NotifyPc → Bool
  | .locking | .setting => true
  | _ => false

/-- The thread is going to signal the condition. -/
def NotifyPc.signals : NotifyPc → Bool
  | .out => false
  | _ => true

/-- The `MsgThread`, and the threads `ι` that call `InternalCallback`. -/
structure MsgThread (ι : Type) where
  collector : List QueuedCallback := []
  isReady : Bool := false
  /-- `_condition_mutex`. -/
  mutex : Option (Owner ι) := none
  caller : ι → NotifyPc := fun _ => .out
  pc : MsgThreadPc := .locking
  -- History
  /-- The updates added to the collector. -/
  added : List QueuedCallback := []
  /-- The updates handed to Java. -/
  handed : List QueuedCallback := []

namespace MsgThread

inductive Action (ι : Type)
  -- `InternalCallback`
  | add (t : ι) (callback : QueuedCallback)
  | lock (t : ι)
  | setReady (t : ι)
  | unlock (t : ι)
  | signal (t : ι)
  -- `OnThreadStarted`
  | msgLock
  | test
  | sleep
  /-- The thread wakes up without a signal. -/
  | wake
  | clear
  | collect
  | callJava
  | msgUnlock

variable {ι : Type} [DecidableEq ι]

def setCaller (s : MsgThread ι) (t : ι) (pc : NotifyPc) : MsgThread ι :=
  { s with caller := Function.update s.caller t pc }

theorem setCaller_caller (s : MsgThread ι) (t u : ι) (pc : NotifyPc) :
    (s.setCaller t pc).caller u = if u = t then pc else s.caller u := Function.update_apply ..

def step (s : MsgThread ι) : Action ι → Except Fault (MsgThread ι)
  | .add t callback =>
    if s.caller t = .out then
      .ok { s.setCaller t .locking with
        collector := s.collector ++ [callback], added := s.added ++ [callback] }
    else .error .disabled
  | .lock t =>
    if s.caller t = .locking ∧ s.mutex = none then
      .ok { s.setCaller t .setting with mutex := some (.caller t) }
    else .error .disabled
  | .setReady t =>
    if s.caller t = .setting then .ok { s.setCaller t .unlocking with isReady := true }
    else .error .disabled
  | .unlock t =>
    if s.caller t = .unlocking then .ok { s.setCaller t .signalling with mutex := none }
    else .error .disabled
  | .signal t =>
    if s.caller t = .signalling then
      match s.pc with
      | .asleep => .ok { s.setCaller t .out with pc := .locking }
      | _ => .ok (s.setCaller t .out)
    else .error .disabled
  | .msgLock => match s.pc, s.mutex with
    | .locking, none => .ok { s with pc := .testing, mutex := some .msgThread }
    | _, _ => .error .disabled
  | .test => match s.pc with
    | .testing => .ok { s with pc := if s.isReady then .clearing else .sleeping }
    | _ => .error .disabled
  | .sleep => match s.pc with
    | .sleeping => .ok { s with pc := .asleep, mutex := none }
    | _ => .error .disabled
  | .wake => match s.pc with
    | .asleep => .ok { s with pc := .locking }
    | _ => .error .disabled
  | .clear => match s.pc with
    | .clearing => .ok { s with pc := .collecting, isReady := false }
    | _ => .error .disabled
  | .collect => match s.pc with
    | .collecting => .ok { s with pc := .calling s.collector, collector := [] }
    | _ => .error .disabled
  | .callJava => match s.pc with
    | .calling (callback :: callbacks) =>
      .ok { s with pc := .calling callbacks, handed := s.handed ++ [callback] }
    | _ => .error .disabled
  | .msgUnlock => match s.pc with
    | .calling [] => .ok { s with pc := .locking, mutex := none }
    | _ => .error .disabled

abbrev Steps : MsgThread ι → Action ι → MsgThread ι → Prop := Lts.Exec step

/-- What an action does. -/
inductive Moves (s : MsgThread ι) : Action ι → MsgThread ι → Prop
  | add {t : ι} {callback : QueuedCallback} :
      s.caller t = .out →
      Moves s (.add t callback) { s.setCaller t .locking with
        collector := s.collector ++ [callback], added := s.added ++ [callback] }
  | lock {t : ι} :
      s.caller t = .locking → s.mutex = none →
      Moves s (.lock t) { s.setCaller t .setting with mutex := some (.caller t) }
  | setReady {t : ι} :
      s.caller t = .setting →
      Moves s (.setReady t) { s.setCaller t .unlocking with isReady := true }
  | unlock {t : ι} :
      s.caller t = .unlocking →
      Moves s (.unlock t) { s.setCaller t .signalling with mutex := none }
  | signalAsleep {t : ι} :
      s.caller t = .signalling → s.pc = .asleep →
      Moves s (.signal t) { s.setCaller t .out with pc := .locking }
  | signal {t : ι} :
      s.caller t = .signalling → s.pc ≠ .asleep → Moves s (.signal t) (s.setCaller t .out)
  | msgLock :
      s.pc = .locking → s.mutex = none →
      Moves s .msgLock { s with pc := .testing, mutex := some .msgThread }
  | testReady :
      s.pc = .testing → s.isReady = true → Moves s .test { s with pc := .clearing }
  | testNotReady :
      s.pc = .testing → s.isReady = false → Moves s .test { s with pc := .sleeping }
  | sleep : s.pc = .sleeping → Moves s .sleep { s with pc := .asleep, mutex := none }
  | wake : s.pc = .asleep → Moves s .wake { s with pc := .locking }
  | clear : s.pc = .clearing → Moves s .clear { s with pc := .collecting, isReady := false }
  | collect :
      s.pc = .collecting →
      Moves s .collect { s with pc := .calling s.collector, collector := [] }
  | callJava {callback : QueuedCallback} {callbacks : List QueuedCallback} :
      s.pc = .calling (callback :: callbacks) →
      Moves s .callJava { s with pc := .calling callbacks, handed := s.handed ++ [callback] }
  | msgUnlock :
      s.pc = .calling [] → Moves s .msgUnlock { s with pc := .locking, mutex := none }

theorem moves_of_step {s s' : MsgThread ι} {a : Action ι} (h : s.step a = .ok s') :
    s.Moves a s' := by
  cases a with
  | add t callback =>
    rw [step] at h
    split_ifs at h with hc
    cases h
    exact .add hc
  | lock t =>
    rw [step] at h
    split_ifs at h with hc
    cases h
    exact .lock hc.1 hc.2
  | setReady t =>
    rw [step] at h
    split_ifs at h with hc
    cases h
    exact .setReady hc
  | unlock t =>
    rw [step] at h
    split_ifs at h with hc
    cases h
    exact .unlock hc
  | signal t =>
    rw [step] at h
    split_ifs at h with hc
    split at h
    · cases h
      exact .signalAsleep hc ‹_›
    · cases h
      exact .signal hc ‹_›
  | msgLock =>
    rw [step] at h
    split at h
    · cases h
      exact .msgLock ‹_› ‹_›
    · cases h
  | test =>
    rw [step] at h
    split at h
    · cases h
      split_ifs with hr
      · exact .testReady ‹_› hr
      · exact .testNotReady ‹_› (by simpa using hr)
    · cases h
  | sleep =>
    rw [step] at h
    split at h
    · cases h
      exact .sleep ‹_›
    · cases h
  | wake =>
    rw [step] at h
    split at h
    · cases h
      exact .wake ‹_›
    · cases h
  | clear =>
    rw [step] at h
    split at h
    · cases h
      exact .clear ‹_›
    · cases h
  | collect =>
    rw [step] at h
    split at h
    · cases h
      exact .collect ‹_›
    · cases h
  | callJava =>
    rw [step] at h
    split at h
    · cases h
      exact .callJava ‹_›
    · cases h
  | msgUnlock =>
    rw [step] at h
    split at h
    · cases h
      exact .msgUnlock ‹_›
    · cases h

/-! ## The invariant -/

/-- The mutex is locked by the thread that holds it, and by no other. -/
structure Exclusive (s : MsgThread ι) : Prop where
  caller : ∀ t, (s.caller t).holdsMutex = true ↔ s.mutex = some (.caller t)
  msgThread : s.pc.holdsMutex = true ↔ s.mutex = some .msgThread

/-- The callers are as they were, but for this one. -/
theorem Exclusive.setCaller {s s' : MsgThread ι} {t : ι} {pc : NotifyPc} (hs : s.Exclusive)
    (hcaller : s'.caller = (s.setCaller t pc).caller)
    (hpc : s'.pc.holdsMutex = s.pc.holdsMutex)
    (hmutex : pc.holdsMutex = (s.caller t).holdsMutex ∧ s'.mutex = s.mutex ∨
      pc.holdsMutex = true ∧ s.mutex = none ∧ s'.mutex = some (.caller t) ∨
      pc.holdsMutex = false ∧ s.mutex = some (.caller t) ∧ s'.mutex = none) : s'.Exclusive := by
  refine ⟨fun u => ?_, ?_⟩
  · rw [hcaller, setCaller_caller]
    have hu := hs.caller u
    have ht := hs.caller t
    split_ifs with h
    · subst h
      grind
    · grind
  · rw [hpc, hs.msgThread]
    grind

theorem Exclusive.step {s s' : MsgThread ι} {a : Action ι} (hs : s.Exclusive)
    (h : s.Moves a s') : s'.Exclusive := by
  -- The steps of the `MsgThread` that keep the mutex, or do not have it.
  have hkeep : ∀ {s' : MsgThread ι}, s'.caller = s.caller → s'.mutex = s.mutex →
      s'.pc.holdsMutex = s.pc.holdsMutex → s'.Exclusive := by
    intro s' hcaller hmutex hpc
    refine ⟨fun t => ?_, ?_⟩
    · rw [hcaller, hmutex]
      exact hs.caller t
    · rw [hpc, hmutex]
      exact hs.msgThread
  -- Those that lock or unlock it: no caller holds it before or after.
  have hmsg : ∀ {s' : MsgThread ι}, s'.caller = s.caller → s'.pc.holdsMutex = !s.pc.holdsMutex →
      (s.mutex = none ∧ s'.mutex = some .msgThread ∨ s.mutex = some .msgThread ∧ s'.mutex = none) →
      s'.Exclusive := by
    intro s' hcaller hpc hmutex
    have hpc' := hs.msgThread
    refine ⟨fun t => ?_, ?_⟩
    · have ht := hs.caller t
      rw [hcaller]
      grind
    · rw [hpc]
      grind
  cases h with
  | @add t _ hc => exact hs.setCaller rfl rfl (.inl ⟨by rw [hc]; rfl, rfl⟩)
  | lock hc hm => exact hs.setCaller rfl rfl (.inr (.inl ⟨rfl, hm, rfl⟩))
  | setReady hc => exact hs.setCaller rfl rfl (.inl ⟨by rw [hc]; rfl, rfl⟩)
  | @unlock t hc =>
    have hm : s.mutex = some (.caller t) := (hs.caller t).1 (by rw [hc]; rfl)
    exact hs.setCaller rfl rfl (.inr (.inr ⟨rfl, hm, rfl⟩))
  | signalAsleep hc hp => exact hs.setCaller rfl (by rw [hp]; rfl) (.inl ⟨by rw [hc]; rfl, rfl⟩)
  | signal hc hp => exact hs.setCaller rfl rfl (.inl ⟨by rw [hc]; rfl, rfl⟩)
  | msgLock hp hm => exact hmsg rfl (by rw [hp]; rfl) (.inl ⟨hm, rfl⟩)
  | testReady hp => exact hkeep rfl rfl (by rw [hp]; rfl)
  | testNotReady hp => exact hkeep rfl rfl (by rw [hp]; rfl)
  | sleep hp =>
    exact hmsg rfl (by rw [hp]; rfl) (.inr ⟨hs.msgThread.1 (by rw [hp]; rfl), rfl⟩)
  | wake hp => exact hkeep rfl rfl (by rw [hp]; rfl)
  | clear hp => exact hkeep rfl rfl (by rw [hp]; rfl)
  | collect hp => exact hkeep rfl rfl (by rw [hp]; rfl)
  | callJava hp => exact hkeep rfl rfl (by rw [hp]; rfl)
  | msgUnlock hp =>
    exact hmsg rfl (by rw [hp]; rfl) (.inr ⟨hs.msgThread.1 (by rw [hp]; rfl), rfl⟩)

/-- What is true of the threads in every state reached. -/
structure Inv (s : MsgThread ι) : Prop where
  exclusive : s.Exclusive
  order : s.handed ++ s.pc.batch ++ s.collector = s.added
  /-- Somebody has been told, or is going to be told, of what is in the collector. -/
  told : s.collector ≠ [] →
    s.isReady = true ∨ (∃ t, (s.caller t).setsReady = true) ∨ s.pc = .collecting
  /-- The flag is not set before the `MsgThread` is asleep. -/
  sleeping : s.pc = .sleeping → s.isReady = false
  /-- If the flag is set when it is, a signal is to come. -/
  asleep : s.pc = .asleep → s.isReady = true → ∃ t, (s.caller t).signals = true

/-- The callers at work still are, but for this one. -/
theorem exists_caller {s : MsgThread ι} {t : ι} {pc : NotifyPc} {f : NotifyPc → Bool}
    (h : ∃ u, f (s.caller u) = true) (ht : f (s.caller t) = false ∨ f pc = true) :
    ∃ u, f ((s.setCaller t pc).caller u) = true := by
  obtain ⟨u, hu⟩ := h
  refine ⟨u, ?_⟩
  rw [setCaller_caller]
  split_ifs with he
  · subst he
    exact ht.resolve_left (by simp [hu])
  · exact hu

omit [DecidableEq ι] in
theorem Inv.init : Inv ({} : MsgThread ι) := by
  refine ⟨⟨fun t => ?_, ?_⟩, rfl, fun hne => absurd rfl hne, fun _ => rfl, fun hp => ?_⟩
  · exact iff_of_false Bool.false_ne_true (Option.some_ne_none _).symm
  · exact iff_of_false Bool.false_ne_true (Option.some_ne_none _).symm
  · exact MsgThreadPc.noConfusion hp

theorem Inv.step {s s' : MsgThread ι} {a : Action ι} (hs : s.Inv) (h : s.Moves a s') :
    s'.Inv := by
  have hexclusive := hs.exclusive.step h
  have horder : s'.handed = s.handed → s'.pc.batch = s.pc.batch → s'.collector = s.collector →
      s'.added = s.added → s'.handed ++ s'.pc.batch ++ s'.collector = s'.added := by
    intro hhanded hbatch hcollector hadded
    rw [hhanded, hbatch, hcollector, hadded, hs.order]
  -- A step of the `MsgThread` elsewhere than at the collector.
  have htold : s.pc ≠ .collecting → s.collector ≠ [] → s.isReady = true ∨
      (∃ t, (s.caller t).setsReady = true) ∨ s'.pc = .collecting := fun hp hne =>
    (hs.told hne).imp_right (.imp_right fun h => absurd h hp)
  cases h with
  | @add t callback hc =>
    refine ⟨hexclusive, ?_, fun _ => .inr (.inl ⟨t, ?_⟩), hs.sleeping, fun hp hr => ?_⟩
    · rw [← hs.order]
      exact (List.append_assoc ..).symm
    · simp [setCaller_caller, NotifyPc.setsReady]
    · exact exists_caller (hs.asleep hp hr) (.inr rfl)
  | @lock t hc hm =>
    refine ⟨hexclusive, hs.order, fun _ => .inr (.inl ⟨t, ?_⟩), hs.sleeping, fun hp hr => ?_⟩
    · simp [setCaller_caller, NotifyPc.setsReady]
    · exact exists_caller (hs.asleep hp hr) (.inr rfl)
  | @setReady t hc =>
    refine ⟨hexclusive, hs.order, fun _ => .inl rfl, fun hp => ?_, fun _ _ => ⟨t, ?_⟩⟩
    · -- The `MsgThread` would hold the mutex as well.
      have ht : s.mutex = some (.caller t) := (hs.exclusive.caller t).1 (by rw [hc]; rfl)
      have hpc : s.pc = .sleeping := hp
      have hmsg : s.mutex = some .msgThread := hs.exclusive.msgThread.1 (by rw [hpc]; rfl)
      cases ht.symm.trans hmsg
    · simp [setCaller_caller, NotifyPc.signals]
  | @unlock t hc =>
    refine ⟨hexclusive, hs.order, fun hne => ?_, hs.sleeping, fun _ _ => ⟨t, ?_⟩⟩
    · exact (hs.told hne).imp_right (.imp_left (exists_caller · (.inl (by rw [hc]; rfl))))
    · simp [setCaller_caller, NotifyPc.signals]
  | @signalAsleep t hc hp =>
    refine ⟨hexclusive, horder rfl (by rw [hp]; rfl) rfl rfl, fun hne => ?_,
      MsgThreadPc.noConfusion, MsgThreadPc.noConfusion⟩
    exact (htold (by simp [hp]) hne).imp_right
      (.imp_left (exists_caller · (.inl (by rw [hc]; rfl))))
  | @signal t hc hp =>
    refine ⟨hexclusive, hs.order, fun hne => ?_, hs.sleeping, fun hp' => absurd hp' hp⟩
    exact (hs.told hne).imp_right (.imp_left (exists_caller · (.inl (by rw [hc]; rfl))))
  | msgLock hp hm =>
    exact ⟨hexclusive, horder rfl (by rw [hp]; rfl) rfl rfl, htold (by simp [hp]),
      MsgThreadPc.noConfusion, MsgThreadPc.noConfusion⟩
  | testReady hp hr =>
    exact ⟨hexclusive, horder rfl (by rw [hp]; rfl) rfl rfl, fun _ => .inl hr,
      MsgThreadPc.noConfusion, MsgThreadPc.noConfusion⟩
  | testNotReady hp hr =>
    exact ⟨hexclusive, horder rfl (by rw [hp]; rfl) rfl rfl, htold (by simp [hp]), fun _ => hr,
      MsgThreadPc.noConfusion⟩
  | sleep hp =>
    have hr := hs.sleeping hp
    refine ⟨hexclusive, horder rfl (by rw [hp]; rfl) rfl rfl, htold (by simp [hp]),
      MsgThreadPc.noConfusion, fun _ hr' => ?_⟩
    exact absurd (hr'.symm.trans hr) Bool.noConfusion
  | wake hp =>
    exact ⟨hexclusive, horder rfl (by rw [hp]; rfl) rfl rfl, htold (by simp [hp]),
      MsgThreadPc.noConfusion, MsgThreadPc.noConfusion⟩
  | clear hp =>
    exact ⟨hexclusive, horder rfl (by rw [hp]; rfl) rfl rfl, fun _ => .inr (.inr rfl),
      fun _ => rfl, MsgThreadPc.noConfusion⟩
  | collect hp =>
    refine ⟨hexclusive, ?_, fun hne => absurd rfl hne, MsgThreadPc.noConfusion,
      MsgThreadPc.noConfusion⟩
    -- What was in the collector is the batch now.
    rw [← hs.order, hp]
    exact (List.append_nil _).trans (congrArg (· ++ s.collector) (List.append_nil _).symm)
  | @callJava callback callbacks hp =>
    refine ⟨hexclusive, ?_, htold (by simp [hp]), MsgThreadPc.noConfusion,
      MsgThreadPc.noConfusion⟩
    rw [← hs.order, hp]
    exact congrArg (· ++ s.collector) (List.append_assoc ..)
  | msgUnlock hp =>
    exact ⟨hexclusive, horder rfl (by rw [hp]; rfl) rfl rfl, htold (by simp [hp]),
      MsgThreadPc.noConfusion, MsgThreadPc.noConfusion⟩

/-- The updates an action adds to the collector. -/
def Action.added? : Action ι → Option QueuedCallback
  | .add _ callback => some callback
  | _ => none

theorem Moves.added {s s' : MsgThread ι} {a : Action ι} (h : s.Moves a s') :
    s'.added = s.added ++ a.added?.toList := by
  cases h <;> first | rfl | exact (List.append_nil _).symm

/-- In every state reached, the updates handed to Java, those the `MsgThread` is about
    to hand over, and those in the collector, are the updates added, in order. If there
    are any in the collector, `_is_ready` is set, or is going to be set by the thread that
    has added some, or the `MsgThread` is between clearing it and taking them. If it is
    asleep then, it is going to be woken. -/
theorem delivered_of_runs {as : List (Action ι)} {s : MsgThread ι} (h : Lts.Run Steps {} as s) :
    s.handed ++ s.pc.batch ++ s.collector = as.filterMap Action.added? ∧
      (s.collector ≠ [] → s.isReady = true ∨ (∃ t, (s.caller t).setsReady = true) ∨
        s.pc = .collecting) ∧
      (s.collector ≠ [] → s.pc = .asleep → ∃ t, (s.caller t).signals = true) := by
  have hs : s.Inv := h.invariant Inv.init fun _ _ _ hs hst => hs.step (moves_of_step hst)
  have hadded : s.added = as.filterMap Action.added? := by
    clear hs
    induction h with
    | nil => rfl
    | @snoc as t u a _ hst ih =>
      rw [(moves_of_step hst).added, ih, List.filterMap_append]
      cases ha : a.added? <;> simp [ha]
  refine ⟨hs.order.trans hadded, hs.told, fun hne hp => ?_⟩
  rcases hs.told hne with hr | ⟨t, ht⟩ | hc
  · exact hs.asleep hp hr
  · exact ⟨t, by revert ht; cases s.caller t <;> simp [NotifyPc.setsReady, NotifyPc.signals]⟩
  · cases hp.symm.trans hc

/-- Updates are added between the clearing of the flag and the next look at the collector:
    they are taken with the others, and the flag is set for nothing then. -/
def late : List (Action Bool) :=
  [.add false ⟨0, [(0, [49])]⟩, .lock false, .setReady false, .unlock false, .msgLock, .test,
    .signal false, .clear, .add true ⟨1, [(0, [50])]⟩, .collect, .callJava, .callJava, .msgUnlock,
    .lock true, .setReady true, .unlock true, .msgLock, .test, .clear, .collect, .msgUnlock,
    .msgLock, .test, .sleep, .add false ⟨0, [(0, [51])]⟩]

theorem delivered_of_late : ∃ s, Lts.Run Steps {} late s ∧
    s.handed ++ s.pc.batch ++ s.collector =
      [⟨0, [(0, [49])]⟩, ⟨1, [(0, [50])]⟩, ⟨0, [(0, [51])]⟩] ∧
    ∃ t, (s.caller t).signals = true := by
  obtain ⟨s, hs, hobs⟩ := Lts.exists_run_of_foldlM step {} late
    (fun s => (s.collector.isEmpty, s.pc.isAsleep)) (false, true) (by decide +kernel)
  obtain ⟨hne, hp⟩ := Prod.mk.inj hobs
  obtain ⟨horder, -, hwoken⟩ := delivered_of_runs hs
  exact ⟨s, hs, horder, hwoken (by simpa using hne) (MsgThreadPc.eq_asleep hp)⟩

end MsgThread

/-! ## The `MsgThread` of an instance -/

def GluePc.toPc : GluePc → NotifyPc
  | .notifying => .locking
  | _ => .out

def MsgPc.toPc : MsgPc → MsgThreadPc
  | .waiting => .locking
  | .collecting => .collecting
  | .handling callbacks | .registering _ callbacks => .calling callbacks

namespace Android

/-- The `MsgThread`, and the loop thread. -/
def msgThread (s : Android) (added handed : List QueuedCallback) : MsgThread Unit where
  collector := s.collector
  isReady := s.isReady
  mutex := if s.msg.holdsMutex then some .msgThread else none
  caller _ := s.glue.toPc
  pc := s.msg.toPc
  added := added
  handed := handed

/-- Every step is one of the `MsgThread` and the loop thread, or several, or none. -/
theorem Moves.msgThread {s s' : Android} {a : Action} (h : s.Moves a s') (hs : s.Calling)
    (added handed : List QueuedCallback) : ∃ as added' handed',
      Lts.Run MsgThread.Steps (s.msgThread added handed) as (s'.msgThread added' handed') := by
  have hstutter : s'.msgThread added handed = s.msgThread added handed →
      ∃ as added' handed',
        Lts.Run MsgThread.Steps (s.msgThread added handed) as (s'.msgThread added' handed') :=
    fun h => ⟨[], added, handed, h ▸ .nil⟩
  have hrun : ∀ (as : List (MsgThread.Action Unit)) (added' handed' : List QueuedCallback),
      as.foldlM MsgThread.step (s.msgThread added handed) = .ok (s'.msgThread added' handed') →
      ∃ as added' handed',
        Lts.Run MsgThread.Steps (s.msgThread added handed) as (s'.msgThread added' handed') := by
    intro as added' handed' h
    obtain ⟨t, ht, rfl⟩ := Lts.exists_run_of_foldlM MsgThread.step _ as id _
      (congrArg (fun x => x.toOption.map id) h)
    exact ⟨as, added', handed', ht⟩
  have hone : ∀ (f : Unit → NotifyPc) (pc : NotifyPc), Function.update f () pc = fun _ => pc :=
    fun f pc => funext fun _ => Function.update_self ..
  cases h with
  | @inst a inst _ h =>
    cases a with
    | task =>
      -- The loop thread is in no callback before, and not in `Notify` after.
      obtain ⟨t, ht⟩ := h.takes
      have hout : s.glue = .out := by
        by_contra hne
        obtain ⟨request, hl⟩ := hs hne
        cases hl.symm.trans ht.idle
      refine hstutter ?_
      have henter : (GluePc.enter inst).toPc = .out := by
        rw [GluePc.enter]
        split <;> rfl
      have htask : s.msg.task.toPc = s.msg.toPc ∧ s.msg.task.holdsMutex = s.msg.holdsMutex := by
        cases s.msg with
        | registering n callbacks => cases n <;> exact ⟨rfl, rfl⟩
        | _ => exact ⟨rfl, rfl⟩
      simp only [run, Android.msgThread, henter, htask, hout]
      rfl
    | _ => exact hstutter rfl
  | @add callback hglue =>
    refine hrun [.add () callback] (added ++ [callback]) handed ?_
    simp [MsgThread.step, MsgThread.setCaller, Android.msgThread, hglue, GluePc.toPc, hone]
  | notify hglue hmutex =>
    have hmsg : s.msg = .waiting := by
      cases hm : s.msg with
      | waiting => rfl
      | _ => rw [hm] at hmutex; cases hmutex
    refine hrun [.lock (), .setReady (), .unlock (), .signal ()] added handed ?_
    simp [MsgThread.step, MsgThread.setCaller, Android.msgThread, hglue, GluePc.toPc, hone, hmsg,
      MsgPc.toPc, MsgPc.holdsMutex, bind, Except.bind, pure, Except.pure]
  | callbackReturn hglue => exact hstutter (by simp [Android.msgThread, hglue, GluePc.toPc])
  | wake hmsg hready =>
    refine hrun [.msgLock, .test, .clear] added handed ?_
    simp [MsgThread.step, Android.msgThread, hmsg, MsgPc.toPc, MsgPc.holdsMutex, hready]
  | collect hmsg =>
    refine hrun [.collect] added handed ?_
    simp [MsgThread.step, Android.msgThread, hmsg, MsgPc.toPc, MsgPc.holdsMutex]
  | handlerCall => exact hstutter rfl
  | handlerRegister hmsg =>
    exact hstutter (by simp [Android.msgThread, hmsg, MsgPc.toPc, MsgPc.holdsMutex])
  | registered hmsg =>
    exact hstutter (by simp [Android.msgThread, hmsg, MsgPc.toPc, MsgPc.holdsMutex])
  | @handlerReturn callback _ hmsg =>
    refine hrun [.callJava] added (handed ++ [callback]) ?_
    simp [MsgThread.step, Android.msgThread, hmsg, MsgPc.toPc, MsgPc.holdsMutex]
  | unlock hmsg =>
    refine hrun [.msgUnlock] added handed ?_
    simp [MsgThread.step, Android.msgThread, hmsg, MsgPc.toPc, MsgPc.holdsMutex]

/-- Every run is one of the `MsgThread` and the loop thread. -/
theorem exists_msgThread {as : List Action} {s : Android} (h : Lts.Run Steps {} as s) :
    ∃ as' added handed, Lts.Run MsgThread.Steps {} as' (s.msgThread added handed) := by
  induction h with
  | nil => exact ⟨[], [], [], .nil⟩
  | @snoc as t u a h hst ih =>
    obtain ⟨as', added, handed, hrun⟩ := ih
    have hcall : t.Calling :=
      h.invariant (fun hne => absurd rfl hne) fun _ _ _ hs hst => hs.step (moves_of_step hst)
    obtain ⟨bs, added', handed', hstep⟩ := (moves_of_step hst).msgThread hcall added handed
    exact ⟨as' ++ bs, added', handed', hrun.append hstep⟩

/-- Updates in the collector are not forgotten: the flag is set, or the loop thread is
    going to set it, or the `MsgThread` is about to take them. -/
theorem told_of_runs {as : List Action} {s : Android} (h : Lts.Run Steps {} as s)
    (hne : s.collector ≠ []) :
    s.isReady = true ∨ s.glue.locks = true ∨ s.msg.toPc = .collecting := by
  obtain ⟨as', added, handed, hrun⟩ := exists_msgThread h
  rcases (MsgThread.delivered_of_runs hrun).2.1 hne with hr | ⟨t, ht⟩ | hp
  · exact .inl hr
  · have hlocks : s.glue.toPc.setsReady = true → s.glue.locks = true := by
      cases s.glue <;> simp [GluePc.toPc, NotifyPc.setsReady, GluePc.locks]
    exact .inr (.inl (hlocks ht))
  · exact .inr (.inr hp)

end Android

end Sacs
