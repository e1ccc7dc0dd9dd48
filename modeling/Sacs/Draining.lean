import Sacs.Lib.Rank
import Sacs.MsgThread

/-!
# The queue is drained

The threads of `Sacs.MsgThread` do not work for ever on what they are given: the steps that
no one asks for, all but those that add updates and those that wake the `MsgThread` for no
reason, lower a number (`MsgThread.work`).

When they cannot go on, the `MsgThread` is asleep and the other threads have left
`InternalCallback`; for one of them could unlock the mutex otherwise, or could lock it. Then
all the updates added have been handed to Java (`MsgThread.drained_of_runs`): none is left
over until more are added.
-/

namespace Sacs

def NotifyPc.work : NotifyPc → ℕ
  | .out => 0
  | .locking => 17
  | .setting => 16
  | .unlocking => 5
  | .signalling => 4

/-- The work of the `MsgThread`, which goes once more through its loop if the flag is set. -/
def MsgThreadPc.work (isReady : Bool) : MsgThreadPc → ℕ
  | .asleep => if isReady then 10 else 0
  | .sleeping => if isReady then 11 else 1
  | .testing => if isReady then 12 else 2
  | .locking => if isReady then 13 else 3
  | .clearing => 11
  | .collecting => if isReady then 15 else 5
  | .calling callbacks => (if isReady then 14 else 4) + callbacks.length

/-- The flag sends it through the loop once more. -/
theorem MsgThreadPc.work_true_le (pc : MsgThreadPc) (isReady : Bool) :
    pc.work true ≤ pc.work isReady + 10 := by
  cases isReady with
  | true => omega
  | false => cases pc <;> simp only [work, if_true, Bool.false_eq_true, if_false] <;> omega

namespace MsgThread

variable {ι : Type}

/-- The step is one that no one asks for. -/
def Action.isInternal : Action ι → Bool
  | .add .. | .wake => false
  | _ => true

def callersWork [Fintype ι] (s : MsgThread ι) : ℕ := ∑ t, (s.caller t).work

def work [Fintype ι] (s : MsgThread ι) : ℕ :=
  s.collector.length + s.callersWork + s.pc.work s.isReady

variable [DecidableEq ι]

/-- The steps that no one asks for. -/
def Inner (s : MsgThread ι) (a : Action ι) (s' : MsgThread ι) : Prop :=
  a.isInternal = true ∧ Steps s a s'

theorem Inner.run {s s' : MsgThread ι} {as : List (Action ι)} (h : Lts.Run Inner s as s') :
    Lts.Run Steps s as s' :=
  h.mono fun _ _ _ hst => hst.2

@[simp] theorem setCaller_collector (s : MsgThread ι) (t : ι) (pc : NotifyPc) :
    (s.setCaller t pc).collector = s.collector := rfl

@[simp] theorem setCaller_pc (s : MsgThread ι) (t : ι) (pc : NotifyPc) :
    (s.setCaller t pc).pc = s.pc := rfl

@[simp] theorem setCaller_isReady (s : MsgThread ι) (t : ι) (pc : NotifyPc) :
    (s.setCaller t pc).isReady = s.isReady := rfl

section Work

variable [Fintype ι]

theorem callersWork_setCaller {s : MsgThread ι} {t : ι} {pc : NotifyPc} (hc : s.caller t = pc)
    (pc' : NotifyPc) : (s.setCaller t pc').callersWork + pc.work = s.callersWork + pc'.work :=
  hc ▸ sum_update_add NotifyPc.work s.caller t pc'

theorem Moves.work_lt {s s' : MsgThread ι} {a : Action ι} (h : s.Moves a s')
    (ha : a.isInternal = true) : s'.work < s.work := by
  cases h with
  | add | wake => cases ha
  | @lock t hc =>
    have : (s.setCaller t .setting).callersWork + 17 = s.callersWork + 16 :=
      callersWork_setCaller hc .setting
    change (s.setCaller t .setting).work < s.work
    simp only [work, setCaller_collector, setCaller_pc, setCaller_isReady]
    omega
  | @setReady t hc =>
    have : (s.setCaller t .unlocking).callersWork + 16 = s.callersWork + 5 :=
      callersWork_setCaller hc .unlocking
    have := s.pc.work_true_le s.isReady
    change s.collector.length + (s.setCaller t .unlocking).callersWork + s.pc.work true < s.work
    rw [work]
    omega
  | @unlock t hc =>
    have : (s.setCaller t .signalling).callersWork + 5 = s.callersWork + 4 :=
      callersWork_setCaller hc .signalling
    change (s.setCaller t .signalling).work < s.work
    simp only [work, setCaller_collector, setCaller_pc, setCaller_isReady]
    omega
  | @signalAsleep t hc hp =>
    have : (s.setCaller t .out).callersWork + 4 = s.callersWork + 0 :=
      callersWork_setCaller hc .out
    change s.collector.length + (s.setCaller t .out).callersWork +
      MsgThreadPc.locking.work s.isReady < s.work
    simp only [work, hp, MsgThreadPc.work]
    split_ifs <;> omega
  | @signal t hc =>
    have : (s.setCaller t .out).callersWork + 4 = s.callersWork + 0 :=
      callersWork_setCaller hc .out
    simp only [work, setCaller_collector, setCaller_pc, setCaller_isReady]
    omega
  | msgLock hp | sleep hp | callJava hp | msgUnlock hp =>
    change s.collector.length + s.callersWork + MsgThreadPc.work s.isReady _ < s.work
    simp only [work, hp, MsgThreadPc.work, List.length_nil, List.length_cons]
    split_ifs <;> omega
  | testReady hp hr | testNotReady hp hr =>
    change s.collector.length + s.callersWork + MsgThreadPc.work s.isReady _ < s.work
    rw [work, hp, hr]
    simp only [MsgThreadPc.work, if_true, Bool.false_eq_true, if_false]
    omega
  | clear hp =>
    change s.collector.length + s.callersWork + 5 < s.work
    rw [work, hp, MsgThreadPc.work]
    omega
  | collect hp =>
    change 0 + s.callersWork + ((if s.isReady then 14 else 4) + s.collector.length) < s.work
    simp only [work, hp, MsgThreadPc.work]
    split_ifs <;> omega

theorem Moves.work_le {s s' : MsgThread ι} {a : Action ι} (h : s.Moves a s')
    (ha : a.isInternal = false) : s'.work ≤ s.work + 18 := by
  cases h with
  | @add t callback hc =>
    have : (s.setCaller t .locking).callersWork + 0 = s.callersWork + 17 :=
      callersWork_setCaller hc .locking
    change (s.collector ++ [callback]).length + (s.setCaller t .locking).callersWork +
      s.pc.work s.isReady ≤ s.work + 18
    rw [work, List.length_append, List.length_singleton]
    omega
  | wake hp =>
    change s.collector.length + s.callersWork + MsgThreadPc.work s.isReady .locking ≤ s.work + 18
    simp only [work, hp, MsgThreadPc.work]
    split_ifs <;> omega
  | _ => cases ha

end Work

/-! ## Final states -/

/-- Who holds the mutex can go on. -/
theorem Exclusive.mutex_eq_none {s : MsgThread ι} (hs : s.Exclusive) (hf : Lts.Final Inner s) :
    s.mutex = none := by
  have hstuck : ∀ {a : Action ι} {s'}, a.isInternal = true → s.step a ≠ .ok s' :=
    fun ha hstep => hf _ _ ⟨ha, hstep⟩
  cases hm : s.mutex with
  | none => rfl
  | some owner =>
    exfalso
    cases owner with
    | msgThread =>
      have hholds := hs.msgThread.2 hm
      cases hp : s.pc with
      | locking | asleep => rw [hp] at hholds; cases hholds
      | testing => exact hstuck (a := .test) rfl (by rw [MsgThread.step, hp])
      | sleeping => exact hstuck (a := .sleep) rfl (by rw [MsgThread.step, hp])
      | clearing => exact hstuck (a := .clear) rfl (by rw [MsgThread.step, hp])
      | collecting => exact hstuck (a := .collect) rfl (by rw [MsgThread.step, hp])
      | calling callbacks =>
        cases callbacks with
        | nil => exact hstuck (a := .msgUnlock) rfl (by rw [MsgThread.step, hp])
        | cons callback callbacks => exact hstuck (a := .callJava) rfl (by rw [MsgThread.step, hp])
    | caller t =>
      have hholds := (hs.caller t).2 hm
      cases hc : s.caller t with
      | out | locking | signalling => rw [hc] at hholds; cases hholds
      | setting => exact hstuck (a := .setReady t) rfl (by rw [MsgThread.step, if_pos hc])
      | unlocking => exact hstuck (a := .unlock t) rfl (by rw [MsgThread.step, if_pos hc])

/-- Who can lock the mutex can go on. -/
theorem Exclusive.eq_out {s : MsgThread ι} (hs : s.Exclusive) (hf : Lts.Final Inner s) :
    s.pc = .asleep ∧ ∀ t, s.caller t = .out := by
  have hstuck : ∀ {a : Action ι} {s'}, a.isInternal = true → s.step a ≠ .ok s' :=
    fun ha hstep => hf _ _ ⟨ha, hstep⟩
  have hmutex := hs.mutex_eq_none hf
  constructor
  · have hfree : s.pc.holdsMutex = false := by
      rw [← Bool.not_eq_true, hs.msgThread, hmutex]
      exact (Option.some_ne_none _).symm
    cases hp : s.pc with
    | asleep => rfl
    | locking => exact absurd (by rw [MsgThread.step, hp, hmutex]) (hstuck (a := .msgLock) rfl)
    | _ => rw [hp] at hfree; cases hfree
  · intro t
    have hfree : (s.caller t).holdsMutex = false := by
      rw [← Bool.not_eq_true, hs.caller t, hmutex]
      exact (Option.some_ne_none _).symm
    cases hc : s.caller t with
    | out => rfl
    | locking =>
      exact absurd (by rw [MsgThread.step, if_pos ⟨hc, hmutex⟩]) (hstuck (a := .lock t) rfl)
    | signalling =>
      exfalso
      cases hp : s.pc with
      | _ => exact hstuck (a := .signal t) rfl (by rw [MsgThread.step, if_pos hc, hp])
    | _ => rw [hc] at hfree; cases hfree

/-- Nothing is in the collector, as nobody is going to wake the `MsgThread`. -/
theorem Inv.drained {s : MsgThread ι} (hs : s.Inv) (hf : Lts.Final Inner s) :
    s.collector = [] ∧ s.handed = s.added := by
  obtain ⟨hp, hout⟩ := hs.exclusive.eq_out hf
  have hempty : s.collector = [] := by
    by_contra hne
    rcases hs.told hne with hr | ⟨t, ht⟩ | hc
    · obtain ⟨t, ht⟩ := hs.asleep hp hr
      rw [hout t] at ht
      cases ht
    · rw [hout t] at ht
      cases ht
    · cases hp.symm.trans hc
  refine ⟨hempty, ?_⟩
  rw [← hs.order, hempty, hp, List.append_nil]
  exact (List.append_nil _).symm

theorem inv_of_runs {as : List (Action ι)} {s : MsgThread ι} (h : Lts.Run Steps {} as s) :
    s.Inv :=
  h.invariant Inv.init fun _ _ _ hs hst => hs.step (moves_of_step hst)

theorem added_of_runs {as : List (Action ι)} {s : MsgThread ι} (h : Lts.Run Steps {} as s) :
    s.added = as.filterMap Action.added? := by
  induction h with
  | nil => rfl
  | @snoc as t u a _ hst ih =>
    rw [(moves_of_step hst).added, ih, List.filterMap_append]
    cases ha : a.added? <;> simp [ha]

/-- The inner steps add nothing. -/
theorem Inner.filterMap_added {s s' : MsgThread ι} {as : List (Action ι)}
    (h : Lts.Run Inner s as s') : as.filterMap Action.added? = [] := by
  induction h with
  | nil => rfl
  | @snoc as t u a _ hst ih =>
    have ha : a.added? = none := by
      cases a with
      | add => exact absurd hst.1 Bool.false_ne_true
      | _ => rfl
    rw [List.filterMap_append, ih, List.filterMap_cons, ha]
    rfl

/-- However many threads add updates, and however their steps are interleaved: the steps that
    no one asks for are at most eighteen times the others, and from every state reached they
    lead to one, at the latest after this many, in which they cannot go on. In such a state the
    `MsgThread` is asleep, no thread is in `InternalCallback`, and all the updates added have
    been handed to Java, in order. -/
theorem drained_of_runs [Fintype ι] {as : List (Action ι)} {s : MsgThread ι}
    (h : Lts.Run Steps {} as s) :
    as.countP Action.isInternal ≤ 3 + 18 * as.countP (!Action.isInternal ·) ∧
    (∃ bs t, Lts.Run Inner s bs t ∧ Lts.Final Inner t) ∧
    ∀ {bs t}, Lts.Run Inner s bs t → Lts.Final Inner t →
      t.pc = .asleep ∧ (∀ u, t.caller u = .out) ∧ t.collector = [] ∧
        t.handed = as.filterMap Action.added? := by
  have hlower : ∀ s (a : Action ι) t, Inner s a t → t.work < s.work := fun s a t hst =>
    (moves_of_step hst.2).work_lt hst.1
  refine ⟨?_, Lts.exists_final (measure work).wf hlower s, fun {bs t} hbs hf => ?_⟩
  · have hrank := @Lts.Run.countP_add_le _ _ Steps work _ 18
      (fun s a t hst ha => (moves_of_step hst).work_lt ha)
      (fun s a t hst ha => (moves_of_step hst).work_le ha) {} s as h
    have hinit : ({} : MsgThread ι).work = 3 := by
      simp [work, callersWork, NotifyPc.work, MsgThreadPc.work]
    omega
  · have hrun := h.append (Inner.run hbs)
    have hinv := inv_of_runs hrun
    obtain ⟨hp, hout⟩ := hinv.exclusive.eq_out hf
    obtain ⟨hempty, hhanded⟩ := hinv.drained hf
    refine ⟨hp, hout, hempty, ?_⟩
    rw [hhanded, added_of_runs hrun, List.filterMap_append, Inner.filterMap_added hbs,
      List.append_nil]

/-- The last updates are added when the `MsgThread` is asleep. -/
theorem drained_of_late : ∃ s, Lts.Run Steps {} late s ∧ ∃ bs t, Lts.Run Inner s bs t ∧
    Lts.Final Inner t ∧
    t.handed = [⟨0, [(0, [49])]⟩, ⟨1, [(0, [50])]⟩, ⟨0, [(0, [51])]⟩] := by
  obtain ⟨s, hs, -⟩ := Lts.exists_run_of_foldlM step {} late (fun s => s.pc.isAsleep) true
    (by decide +kernel)
  obtain ⟨-, ⟨bs, t, hbs, hf⟩, hdrained⟩ := drained_of_runs hs
  exact ⟨s, hs, bs, t, hbs, hf, (hdrained hbs hf).2.2.2⟩

end MsgThread

end Sacs
