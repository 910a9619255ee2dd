import LinuxKerDev.Signals.Machine
import LinuxKerDev.Signals.Threads

/-!
# What holds of the processes at all times

`ThreadOk` is what a thread may be like at its place in the code, and `GroupOk` what the
threads of a process add up to.
-/

namespace LinuxKerDev.Signals.Machine

open Lib

variable {a : Arch}

/-! ### Places -/

/-- A sleep inside `get_signal_to_deliver`. -/
def Wait.isJobctl : Wait a → Bool
  | .stop => true
  | .trap _ => true
  | _ => false

def Wait.isTrap : Wait a → Bool
  | .trap _ => true
  | _ => false

def Then.isGone : Then → Bool
  | .gone => true
  | _ => false

/-- The thread has called `ptrace_notify` from `do_exit`. -/
def Caller.exits : Caller → Bool
  | .notify exits => exits
  | _ => false

def Wait.exits : Wait a → Bool
  | .trap tr => tr.caller.exits
  | _ => false

def Then.exits : Then → Bool
  | .trap tr => tr.caller.exits
  | .untrapped tr => tr.caller.exits
  | k => k.isGone

def Then.isTrap : Then → Bool
  | .trap _ => true
  | .untrapped _ => true
  | _ => false

/-- The thread will look at its signals before it leaves the kernel, or recompute
`TIF_SIGPENDING`, as the end of `ptrace_stop` does. -/
def Pc.looks : Pc a → Bool
  | .relock => true
  | .locked => true
  | .trapping _ => true
  | .untrapped _ => true
  | .telling _ k => !k.isGone
  | .nap k => k.isJobctl
  | .asleep k => k.isJobctl
  | _ => false

/-- The thread may be `TASK_STOPPED` or `TASK_TRACED`. -/
def Pc.halts : Pc a → Bool
  | .trapping _ => true
  | .telling _ .stop => true
  | .telling _ k => k.isTrap
  | .nap k => k.isJobctl
  | .asleep k => k.isJobctl
  | _ => false

theorem Pc.looks_of_halts {pc : Pc a} (h : pc.halts = true) : pc.looks = true := by
  cases pc with
  | telling todo k =>
    cases k with
    | gone => cases h
    | _ => rfl
  | nap k => exact h
  | asleep k => exact h
  | trapping tr => rfl
  | _ => cases h

def Pc.traps : Pc a → Bool
  | .trapping _ => true
  | .untrapped _ => true
  | .telling _ k => k.isTrap
  | .nap k => k.isTrap
  | .asleep k => k.isTrap
  | _ => false

/-- The thread is past `exit_signals`. -/
def Pc.isGone : Pc a → Bool
  | .gone => true
  | .telling _ k => k.isGone
  | _ => false

/-- The thread is on its way out. -/
def Pc.isDead : Pc a → Bool
  | .dying => true
  | .dumping _ => true
  | .gone => true
  | .trapping tr => tr.caller.exits
  | .untrapped tr => tr.caller.exits
  | .telling _ k => k.exits
  | .nap k => k.exits
  | .asleep k => k.exits
  | _ => false

theorem Pc.isDead_of_isGone {pc : Pc a} (h : pc.isGone = true) : pc.isDead = true := by
  cases pc with
  | telling todo k =>
    cases k with
    | gone => rfl
    | _ => cases h
  | gone => rfl
  | _ => cases h

/-- The thread has got its `SIGKILL`. -/
def Pc.isDoomed : Pc a → Bool
  | .rearm sig _ => decide (sig = SIGKILL)
  | pc => pc.isDead

theorem Pc.isDoomed_of_isDead {pc : Pc a} (h : pc.isDead = true) : pc.isDoomed = true := by
  cases pc with
  | rearm sig info => cases h
  | _ => exact h

/-- The thread has been told to look at its signals, or is about to. -/
def Alert (s : Task a) (pc : Pc a) : Prop := s.tifSigpending = true ∨ pc.looks = true

def Pc.Sound (s : Task a) : Pc a → Prop
  | .toSleep k state => k.isJobctl = false ∧ state &&& (TASK_STOPPED_BIT ||| TASK_TRACED_BIT) = 0
  | .asleep _ => signalPendingState s = false
  | _ => True

theorem Pc.Sound.congr {s s' : Task a} {pc : Pc a} (h : pc.Sound s) (hs : s'.state = s.state)
    (ht : s'.tifSigpending = s.tifSigpending) (hp : s'.pending = s.pending) : pc.Sound s' := by
  cases pc with
  | asleep k =>
    have hsame : signalPendingState s' = signalPendingState s := by
      rw [signalPendingState, signalPendingState, signalPending, signalPending, hs, ht, hp]
    exact hsame.trans h
  | _ => exact h

/-! ### One thread -/

/-- What holds of a thread, with `ge` for whether its process is exiting. -/
structure ThreadOk (ge : Bool) (s : Task a) (m : Thread a) (pc : Pc a) : Prop where
  /-- A thread that is counted is to stop. -/
  consumes : s.consumes = true → s.stopPending = true
  /-- It has not stopped yet. -/
  awake : s.consumes = true → taskIsStopped s = false
  /-- Nor has it left, unless nobody counts any more. -/
  leaving : m.exiting = true → s.consumes = true → s.threadGroup = [] ∨ ge = true
  dead : ge = true → s.consumes = true → pc.isDead = true
  gone : m.exiting = pc.isGone
  zombie : s.exitState ≠ 0 → m.exiting = true
  /-- A `SIGKILL` of its own is the end of the process. -/
  kill : sigismember s.pending SIGKILL = true → m.exiting = true ∨ ge = true
  fatal : sigismember s.pending SIGKILL = true → m.exiting = false → s.tifSigpending = true
  unblocked : sigismember s.blocked SIGKILL = false ∧ sigismember m.realBlocked SIGKILL = false
  stopAlert : m.exiting = false → s.stopPending = true → Alert s pc
  alert : m.exiting = false → ∀ sig, sigismember s.pending sig = true →
    sigismember s.blocked sig = false → Alert s pc
  stopped : taskIsStopped s = true → s.state = TASK_STOPPED
  halts : s.state &&& (TASK_STOPPED_BIT ||| TASK_TRACED_BIT) ≠ 0 → pc.halts = true
  untraced : m.ptrace = 0 → s.jobctl &&& JOBCTL_TRAP_MASK = 0 ∧ pc.traps = false
  sound : pc.Sound s

namespace ThreadOk

variable {ge : Bool} {s s' : Task a} {m m' : Thread a} {pc : Pc a}

theorem signalPendingState_eq_true {s : Task a} : signalPendingState s = true ↔
    s.state &&& (TASK_INTERRUPTIBLE ||| TASK_WAKEKILL) ≠ 0 ∧ s.tifSigpending = true ∧
      (s.state &&& TASK_INTERRUPTIBLE ≠ 0 ∨ sigismember s.pending SIGKILL = true) := by
  rw [signalPendingState, signalPending]
  split
  · next hs => exact iff_of_false Bool.false_ne_true fun h => h.1 hs
  · next hs =>
    split
    · next ht =>
      rw [ht]
      exact iff_of_false Bool.false_ne_true fun h => Bool.false_ne_true h.2.1
    · next ht =>
      rw [Bool.or_eq_true, decide_eq_true_eq, and_iff_right hs,
        and_iff_right (Bool.eq_true_of_not_eq_false ht)]

theorem signalPendingState_running {s : Task a} (hs : s.state = TASK_RUNNING) :
    signalPendingState s = false := by
  rw [signalPendingState, hs]
  rfl

theorem not_exiting (h : ThreadOk ge s m pc) (hpc : pc.isGone = false) : m.exiting = false :=
  h.gone.trans hpc

/-- A thread that sleeps through no signal sleeps through none after a wake-up. -/
theorem sound_eases (h : ThreadOk ge s m pc) (he : Eases s s') : pc.Sound s' := by
  have hsound := h.sound
  cases pc with
  | asleep k =>
    rcases he.state with hs | hs
    · refine Bool.eq_false_iff.mpr fun hp => ?_
      obtain ⟨hstate, hflag, hwhy⟩ := signalPendingState_eq_true.mp hp
      rw [hs] at hstate hwhy
      rw [he.kill] at hwhy
      -- a flag that is new comes with a wake-up, so only `SIGKILL` could matter
      have hold : s.tifSigpending = true := by
        rcases he.woken hflag with hold | hno
        · exact hold
        · rw [hs] at hno
          exact h.fatal (hwhy.resolve_left fun hyes => hyes hno) (h.not_exiting rfl)
      exact Bool.false_ne_true
        (hsound.symm.trans (signalPendingState_eq_true.mpr ⟨hstate, hold, hwhy⟩))
    · exact signalPendingState_running hs
  | _ => exact hsound

/-- **What a send does, short of making a signal pending, is harmless.** -/
theorem eases (h : ThreadOk ge s m pc) (he : Eases s s') (hm : SameThread m m')
    (htraps : m.ptrace = 0 → s.jobctl &&& JOBCTL_TRAP_MASK = 0 →
      s'.jobctl &&& JOBCTL_TRAP_MASK = 0) : ThreadOk ge s' m' pc := by
  have hc : s'.consumes = true → s.consumes = true := fun hc => by
    rcases he.stop with ⟨-, heq⟩ | ⟨-, hno⟩
    · rw [← heq, hc]
    · rw [hno] at hc
      cases hc
  have hp : s'.stopPending = true → s.stopPending = true := fun hp => by
    rcases he.stop with ⟨heq, -⟩ | ⟨hno, -⟩
    · rw [← heq, hp]
    · rw [hno] at hp
      cases hp
  have halert : Alert s pc → Alert s' pc := fun ha => ha.imp_left he.flag
  have hrunning : ∀ bits : BitVec 32, TASK_RUNNING &&& bits = 0 := fun bits => BitVec.zero_and
  have hstopped : taskIsStopped s' = true → s'.state = s.state ∧ taskIsStopped s = true := by
    intro hs
    rcases he.state with heq | heq
    · rw [taskIsStopped, heq] at hs
      exact ⟨heq, hs⟩
    · rw [taskIsStopped, heq, hrunning] at hs
      cases hs
  refine
    { consumes := fun h' => ?_
      awake := fun h' => Bool.eq_false_iff.mpr fun hs => ?_
      leaving := fun hx h' => ?_
      dead := fun hge h' => h.dead hge (hc h')
      gone := hm.exiting.trans h.gone
      zombie := fun hx => hm.exiting.trans (h.zombie (he.exitState ▸ hx))
      kill := fun hk => hm.exiting ▸ h.kill (he.kill ▸ hk)
      fatal := fun hk hx => he.flag (h.fatal (he.kill ▸ hk) (hm.exiting ▸ hx))
      unblocked := hm.realBlocked ▸ he.blocked ▸ h.unblocked
      stopAlert := fun hx h' => halert (h.stopAlert (hm.exiting ▸ hx) (hp h'))
      alert := fun hx sig hs hb =>
        halert (h.alert (hm.exiting ▸ hx) sig (he.pending sig hs) (he.blocked ▸ hb))
      stopped := fun hs => ?_
      halts := fun hs => ?_
      untraced := fun h0 => by
        rw [hm.ptrace] at h0
        exact ⟨htraps h0 (h.untraced h0).1, (h.untraced h0).2⟩
      sound := h.sound_eases he }
  · rcases he.stop with ⟨heq, -⟩ | ⟨-, hno⟩
    · rw [heq]
      exact h.consumes (hc h')
    · rw [hno] at h'
      cases h'
  · have hno := h.awake (hc h')
    rw [(hstopped hs).2] at hno
    cases hno
  · rw [he.threadGroup]
    exact h.leaving (hm.exiting ▸ hx) (hc h')
  · rw [(hstopped hs).1]
    exact h.stopped (hstopped hs).2
  · rcases he.state with heq | heq
    · rw [heq] at hs
      exact h.halts hs
    · rw [heq, hrunning] at hs
      exact absurd rfl hs

theorem sharedPending (h : ThreadOk ge s m pc) (set : Sigset a) :
    ThreadOk ge { s with sharedPending := set } m pc where
  consumes := h.consumes
  awake := h.awake
  leaving := h.leaving
  dead := h.dead
  gone := h.gone
  zombie := h.zombie
  kill := h.kill
  fatal := h.fatal
  unblocked := h.unblocked
  stopAlert := h.stopAlert
  alert := h.alert
  stopped := h.stopped
  halts := h.halts
  untraced := h.untraced
  sound := by
    have hsound := h.sound
    cases pc with
    | asleep k => exact hsound
    | _ => exact hsound

/-- **A signal that is made pending for the thread is seen.** -/
theorem add (h : ThreadOk ge s m pc) (sig : Signal)
    (halert : m.exiting = false → sigismember s.blocked sig = false → Alert s pc)
    (hkill : sig = SIGKILL → m.exiting = true ∨ ge = true ∧ s.tifSigpending = true ∧
      s.state &&& (TASK_INTERRUPTIBLE ||| TASK_WAKEKILL) = 0) :
    ThreadOk ge { s with pending := sigaddset s.pending sig } m pc := by
  have hmem : ∀ {sig'}, sigismember (sigaddset s.pending sig) sig' = true →
      sig' = sig ∨ sigismember s.pending sig' = true := fun hs =>
    (sigismember_sigaddset _ _ _).mp hs
  refine
    { consumes := h.consumes
      awake := h.awake
      leaving := h.leaving
      dead := h.dead
      gone := h.gone
      zombie := h.zombie
      kill := fun hk => ?_
      fatal := fun hk hx => ?_
      unblocked := h.unblocked
      stopAlert := h.stopAlert
      alert := fun hx sig' hs hb => ?_
      stopped := h.stopped
      halts := h.halts
      untraced := h.untraced
      sound := ?_ }
  · rcases hmem hk with heq | hk
    · exact (hkill heq.symm).imp_right And.left
    · exact h.kill hk
  · rcases hmem hk with heq | hk
    · rcases hkill heq.symm with hx' | ⟨-, ht, -⟩
      · rw [hx] at hx'
        cases hx'
      · exact ht
    · exact h.fatal hk hx
  · rcases hmem hs with rfl | hs
    · exact halert hx hb
    · exact h.alert hx sig' hs hb
  · have hsound := h.sound
    cases pc with
    | asleep k =>
      refine Bool.eq_false_iff.mpr fun hp => ?_
      obtain ⟨hstate, hflag, hwhy⟩ := signalPendingState_eq_true.mp hp
      refine Bool.false_ne_true
        (hsound.symm.trans (signalPendingState_eq_true.mpr ⟨hstate, hflag, hwhy.imp_right fun hk => ?_⟩))
      rcases hmem hk with heq | hk
      · rcases hkill heq.symm with hx | ⟨-, -, hno⟩
        · exact absurd (h.not_exiting rfl) (by rw [hx]; decide)
        · exact absurd hno hstate
      · exact hk
    | _ => exact hsound

/-- **A fatal signal leaves a thread as a thread of an exiting process may be.** -/
theorem doomed (h : ThreadOk ge s m pc) {own shared : Sigset a}
    (hd : Doomed { s with pending := own, sharedPending := shared } s') : ThreadOk true s' m pc := by
  have hno : ∀ {P : Prop}, s'.consumes = true → P := fun hc => by
    rw [hd.out.2] at hc
    cases hc
  have hrunning : ∀ bits : BitVec 32, TASK_RUNNING &&& bits = 0 := fun bits => BitVec.zero_and
  have hstate : s'.state = s.state ∧ s.state &&& (TASK_WAKEKILL ||| TASK_INTERRUPTIBLE) = 0 ∨
      s'.state = TASK_RUNNING := by
    have heq := hd.state
    split at heq
    · next h0 => exact Or.inl ⟨heq, h0⟩
    · exact Or.inr heq
  refine
    { consumes := fun hc => hno hc
      awake := fun hc => hno hc
      leaving := fun _ hc => hno hc
      dead := fun _ hc => hno hc
      gone := h.gone
      zombie := fun hx => h.zombie (hd.exitState ▸ hx)
      kill := fun _ => Or.inr rfl
      fatal := fun _ _ => hd.flag
      unblocked := hd.blocked ▸ h.unblocked
      stopAlert := fun _ _ => Or.inl hd.flag
      alert := fun _ _ _ _ => Or.inl hd.flag
      stopped := fun hs => ?_
      halts := fun hs => ?_
      untraced := fun h0 => ⟨hd.traps, (h.untraced h0).2⟩
      sound := ?_ }
  · rcases hstate with ⟨heq, -⟩ | heq
    · rw [heq]
      rw [taskIsStopped, heq] at hs
      exact h.stopped hs
    · rw [taskIsStopped, heq, hrunning] at hs
      cases hs
  · rcases hstate with ⟨heq, -⟩ | heq
    · rw [heq] at hs
      exact h.halts hs
    · rw [heq, hrunning] at hs
      exact absurd rfl hs
  · have hsound := h.sound
    cases pc with
    | asleep k =>
      refine Bool.eq_false_iff.mpr fun hp => ?_
      obtain ⟨hbits, -, -⟩ := signalPendingState_eq_true.mp hp
      rcases hstate with ⟨heq, h0⟩ | heq
      · rw [heq, BitVec.or_comm] at hbits
        exact hbits h0
      · rw [heq, hrunning] at hbits
        exact hbits rfl
    | _ => exact hsound

end ThreadOk

/-! ### `recalc_sigpending` -/

/-- The thread has been told to look at its signals, if there is anything to look at. -/
structure Told (s : Task a) : Prop where
  recalced : s.Recalced
  stop : s.stopPending = true → s.tifSigpending = true

theorem stopPending_bits {s : Task a} (hs : s.stopPending = true) :
    s.jobctl &&& JOBCTL_PENDING_MASK ≠ 0 := by
  rw [JOBCTL_PENDING_MASK, BitVec.and_or_distrib_left]
  exact fun h0 => of_decide_eq_true hs (BitVec.or_eq_zero_iff.mp h0).1

theorem told_recalcSigpendingTsk (s : Task a) : Told (recalcSigpendingTsk s).1 := by
  refine ⟨recalcSigpendingTsk_recalced s, fun hs => ?_⟩
  unfold recalcSigpendingTsk at hs ⊢
  by_cases hj : s.jobctl &&& JOBCTL_PENDING_MASK ≠ 0 ∨ s.ready = true
  · rw [if_pos hj]
  · rw [if_neg hj] at hs
    exact absurd (Or.inl (stopPending_bits hs)) hj

theorem told_recalcSigpending (freezing : Bool) (s : Task a) :
    Told (recalcSigpending freezing s) := by
  unfold recalcSigpending
  dsimp only
  split
  · next hno =>
    have hj : ¬ (s.jobctl &&& JOBCTL_PENDING_MASK ≠ 0 ∨ s.ready = true) := fun hj => by
      rw [recalcSigpendingTsk, if_pos hj] at hno
      cases hno.1
    rw [recalcSigpendingTsk, if_neg hj]
    refine ⟨fun hs => ?_, fun hs => ?_⟩
    · exact absurd (Or.inr (s.ready_iff.mpr hs)) hj
    · exact absurd (Or.inl (stopPending_bits hs)) hj
  · exact told_recalcSigpendingTsk s

/-- The task has looked over its signals, and may have lost some. -/
structure Refreshed (s s' : Task a) : Prop where
  threadGroup : s'.threadGroup = s.threadGroup
  exitState : s'.exitState = s.exitState
  state : s'.state = s.state
  pending : ∀ sig, sigismember s'.pending sig = true → sigismember s.pending sig = true
  stop : s'.stopPending = s.stopPending ∧ s'.consumes = s.consumes
  traps : s.jobctl &&& JOBCTL_TRAP_MASK = 0 → s'.jobctl &&& JOBCTL_TRAP_MASK = 0
  told : Told s'

theorem ThreadOk.refreshed {ge : Bool} {s s' : Task a} {m m' : Thread a} {pc : Pc a}
    (h : ThreadOk ge s m pc) (hr : Refreshed s s') (hx : m'.exiting = m.exiting)
    (hp : m'.ptrace = m.ptrace)
    (hb : sigismember s'.blocked SIGKILL = false ∧ sigismember m'.realBlocked SIGKILL = false)
    (hsound : pc.Sound s') : ThreadOk ge s' m' pc := by
  refine
    { consumes := fun hc => by
        rw [hr.stop.1]
        exact h.consumes (hr.stop.2 ▸ hc)
      awake := fun hc => by
        rw [taskIsStopped, hr.state]
        exact h.awake (hr.stop.2 ▸ hc)
      leaving := fun hx' hc => by
        rw [hr.threadGroup]
        exact h.leaving (hx ▸ hx') (hr.stop.2 ▸ hc)
      dead := fun hge hc => h.dead hge (hr.stop.2 ▸ hc)
      gone := hx.trans h.gone
      zombie := fun hz => hx.trans (h.zombie (hr.exitState ▸ hz))
      kill := fun hk => hx ▸ h.kill (hr.pending _ hk)
      fatal := fun hk _ => hr.told.recalced ⟨SIGKILL, Or.inl hk, hb.1⟩
      unblocked := hb
      stopAlert := fun _ hs => Or.inl (hr.told.stop hs)
      alert := fun _ sig hs hb' => Or.inl (hr.told.recalced ⟨sig, Or.inl hs, hb'⟩)
      stopped := fun hs => ?_
      halts := fun hs => h.halts (hr.state ▸ hs)
      untraced := fun h0 => by
        rw [hp] at h0
        exact ⟨hr.traps (h.untraced h0).1, (h.untraced h0).2⟩
      sound := hsound }
  rw [hr.state]
  exact h.stopped (by rw [taskIsStopped, hr.state] at hs; exact hs)

structure Follows (s : Task a) (m : Thread a) (pc pc' : Pc a) : Prop where
  gone : pc'.isGone = pc.isGone
  dead : pc.isDead = true → pc'.isDead = true
  doomed : pc.isDoomed = true → pc'.isDoomed = true
  looks : pc.looks = true → pc'.looks = true ∨ Told s
  halts : pc.halts = true → pc'.halts = true ∨ s.state &&& (TASK_STOPPED_BIT ||| TASK_TRACED_BIT) = 0
  traps : pc'.traps = true → pc.traps = true ∨ m.ptrace ≠ 0
  sound : pc'.Sound s

theorem ThreadOk.goto {ge : Bool} {s : Task a} {m : Thread a} {pc pc' : Pc a}
    (h : ThreadOk ge s m pc) (hf : Follows s m pc pc') : ThreadOk ge s m pc' where
  consumes := h.consumes
  awake := h.awake
  leaving := h.leaving
  dead hge hc := hf.dead (h.dead hge hc)
  gone := h.gone.trans hf.gone.symm
  zombie := h.zombie
  kill := h.kill
  fatal := h.fatal
  unblocked := h.unblocked
  stopAlert hx hs := by
    rcases h.stopAlert hx hs with ht | hl
    · exact Or.inl ht
    · exact (hf.looks hl).elim Or.inr fun ht => Or.inl (ht.stop hs)
  alert hx sig hs hb := by
    rcases h.alert hx sig hs hb with ht | hl
    · exact Or.inl ht
    · exact (hf.looks hl).elim Or.inr fun ht => Or.inl (ht.recalced ⟨sig, Or.inl hs, hb⟩)
  stopped := h.stopped
  halts hs := (hf.halts (h.halts hs)).resolve_right hs
  untraced h0 := by
    refine ⟨(h.untraced h0).1, Bool.eq_false_iff.mpr fun ht => ?_⟩
    rcases hf.traps ht with hold | hp
    · rw [(h.untraced h0).2] at hold
      cases hold
    · exact hp h0
  sound := hf.sound

/-! ### A process -/

def CanTake (w : World a) (sig : Signal) (t : Nat) : Prop :=
  (w.thread t).exiting = false ∧ sigismember (w.task t).blocked sig = false

/-- No debugger has a thread of the process. -/
def Untraced (w : World a) (p : Nat) : Prop := ∀ u ∈ w.threads p, (w.thread u).ptrace = 0

structure GroupOk (w : World a) (pc : Nat → Pc a) (p : Nat) : Prop where
  killable : (w.signalOf p).flags &&& SIGNAL_UNKILLABLE = 0
  /-- The count is the number of the threads that are to stop. -/
  count : signalGroupExit (w.signalOf p) = false →
    Awaits (w.threads p) (fun u => (w.task u).consumes) (w.signalOf p).groupStopCount
  spent : signalGroupExit (w.signalOf p) = true → (w.signalOf p).groupStopCount = 0
  doomed : signalGroupExit (w.signalOf p) = true → ∀ u ∈ w.threads p,
    sigismember (w.task u).pending SIGKILL = true ∨ (pc u).isDoomed = true
  /-- While a process stops, each thread is to stop or has. -/
  quorum : Untraced w p → signalGroupExit (w.signalOf p) = false →
    (w.signalOf p).groupStopCount ≠ 0 → ∀ u ∈ w.threads p,
      (w.task u).consumes = true ∨ taskIsStopped (w.task u) = true ∨ (w.thread u).exiting = true
  /-- Once it has stopped, each thread has. -/
  halted : Untraced w p → signalGroupExit (w.signalOf p) = false →
    (w.signalOf p).flags &&& SIGNAL_STOP_STOPPED ≠ 0 → ∀ u ∈ w.threads p,
      taskIsStopped (w.task u) = true ∨ (w.thread u).exiting = true
  /-- A signal for the process that some thread may be given is seen by one. -/
  taker : signalGroupExit (w.signalOf p) = false → ∀ sig,
    sigismember (w.task p).sharedPending sig = true → (∃ u ∈ w.threads p, CanTake w sig u) →
      ∃ u ∈ w.threads p, CanTake w sig u ∧ Alert (w.task u) (pc u)

structure Ok (w : World a) (pc : Nat → Pc a) : Prop where
  grouped : Grouped w
  dfl : ∀ d, (w.action d SIGKILL).handler = .dfl
  thread : ∀ t, ThreadOk (signalGroupExit (w.signalOf t)) (w.task t) (w.thread t) (pc t)
  group : ∀ p, GroupOk w pc p

section

variable {w w' : World a} {pc pc' : Nat → Pc a} {p u : Nat}

theorem untraced_iff (hg : Grouped w) (hu : u ∈ w.threads p) : Untraced w u ↔ Untraced w p :=
  ⟨fun h v hv => h v (hg.trans (hg.symm hu) hv), fun h v hv => h v (hg.trans hu hv)⟩

theorem GroupOk.of_mem (hg : Grouped w) (hu : u ∈ w.threads p) (h : GroupOk w pc p) :
    GroupOk w pc u := by
  have hsig := hg.signalOf hu
  have hto : ∀ {v}, v ∈ w.threads u → v ∈ w.threads p := fun hv => hg.trans hu hv
  have hfrom : ∀ {v}, v ∈ w.threads p → v ∈ w.threads u := fun hv => hg.trans (hg.symm hu) hv
  refine
    { killable := by
        rw [hsig]
        exact h.killable
      count := fun hge => ?_
      spent := fun hge => ?_
      doomed := fun hge v hv => h.doomed (hsig ▸ hge) v (hto hv)
      quorum := fun hn hge hc v hv =>
        h.quorum ((untraced_iff hg hu).mp hn) (hsig ▸ hge) (hsig ▸ hc) v (hto hv)
      halted := fun hn hge hf v hv =>
        h.halted ((untraced_iff hg hu).mp hn) (hsig ▸ hge) (hsig ▸ hf) v (hto hv)
      taker := fun hge sig hs ⟨v, hv, hcan⟩ => ?_ }
  · rw [hsig]
    exact (h.count (hsig ▸ hge)).perm (hg.perm hu)
  · rw [hsig]
    exact h.spent (hsig ▸ hge)
  · obtain ⟨t, ht, hcan'⟩ := h.taker (hsig ▸ hge) sig (hg.shared p u hu ▸ hs) ⟨v, hto hv, hcan⟩
    exact ⟨t, hfrom ht, hcan'⟩

theorem signalGroupExit_of_queue {m m' : SignalStruct} (hq : SameButQueue m m') :
    signalGroupExit m' = signalGroupExit m := by
  rw [signalGroupExit, signalGroupExit, hq]

structure SameFlags (m m' : SignalStruct) : Prop where
  unkillable : m'.flags &&& SIGNAL_UNKILLABLE = m.flags &&& SIGNAL_UNKILLABLE
  groupExit : signalGroupExit m' = signalGroupExit m
  stopped : m'.flags &&& SIGNAL_STOP_STOPPED = m.flags &&& SIGNAL_STOP_STOPPED

theorem SameFlags.of_eq {m m' : SignalStruct} (he : m'.flags = m.flags) : SameFlags m m' := by
  refine ⟨by rw [he], ?_, by rw [he]⟩
  rw [signalGroupExit, signalGroupExit, he]

theorem SameFlags.of_queue {m m' : SignalStruct} (hq : SameButQueue m m') : SameFlags m m' :=
  of_eq (by rw [hq])

theorem GroupOk.congr (h : GroupOk w pc p) (hthreads : w'.threads p = w.threads p)
    (htask : ∀ u ∈ w.threads p, w'.task u = w.task u)
    (hthread : ∀ u ∈ w.threads p, SameThread (w.thread u) (w'.thread u))
    (hflags : SameFlags (w.signalOf p) (w'.signalOf p))
    (hcount : (w'.signalOf p).groupStopCount = (w.signalOf p).groupStopCount)
    (hpc : ∀ u ∈ w.threads p, pc' u = pc u) : GroupOk w' pc' p := by
  have hge := hflags.groupExit
  have hself : p ∈ w.threads p := List.mem_cons_self
  have hun : Untraced w' p → Untraced w p := fun hn v hv => by
    rw [← (hthread v hv).ptrace]
    exact hn v (by rw [hthreads]; exact hv)
  have hcan : ∀ {sig v}, v ∈ w.threads p → (CanTake w' sig v ↔ CanTake w sig v) := fun hv => by
    rw [CanTake, CanTake, (hthread _ hv).exiting, htask _ hv]
  refine
    { killable := hflags.unkillable.trans h.killable
      count := fun h' => ?_
      spent := fun h' => by
        rw [hcount]
        exact h.spent (hge ▸ h')
      doomed := fun h' v hv => ?_
      quorum := fun hn h' hc v hv => ?_
      halted := fun hn h' hf v hv => ?_
      taker := fun h' sig hs hex => ?_ }
  · rw [hthreads, hcount]
    exact (h.count (hge ▸ h')).congr fun v hv => by rw [htask v hv]
  · rw [hthreads] at hv
    rw [htask v hv, hpc v hv]
    exact h.doomed (hge ▸ h') v hv
  · rw [hthreads] at hv
    rw [htask v hv, (hthread v hv).exiting]
    exact h.quorum (hun hn) (hge ▸ h') (hcount ▸ hc) v hv
  · rw [hthreads] at hv
    rw [htask v hv, (hthread v hv).exiting]
    exact h.halted (hun hn) (hge ▸ h') (hflags.stopped ▸ hf) v hv
  · rw [hthreads] at hex ⊢
    obtain ⟨v, hv, hv'⟩ := hex
    rw [htask p hself] at hs
    obtain ⟨t, ht, ht', halert⟩ := h.taker (hge ▸ h') sig hs ⟨v, hv, (hcan hv).mp hv'⟩
    refine ⟨t, ht, (hcan ht).mpr ht', ?_⟩
    rw [htask t ht, hpc t ht]
    exact halert

/-! ### What a step leaves of a process -/

/-- A process that cannot be killed any more is on its way out. -/
theorem signalGroupExit_of_flags {m : SignalStruct} (hk : m.flags &&& SIGNAL_UNKILLABLE = 0)
    (hf : m.flags &&& (SIGNAL_UNKILLABLE ||| SIGNAL_GROUP_EXIT) ≠ 0) : signalGroupExit m = true := by
  rw [BitVec.and_or_distrib_left, hk] at hf
  exact decide_eq_true fun h0 => hf (BitVec.or_eq_zero_iff.mpr ⟨rfl, h0⟩)

/-- Every thread but `own` has been eased, and the shared sets may be others. -/
structure Settled (own : Option Nat) (w w' : World a) : Prop where
  threads : ∀ u, w'.threads u = w.threads u
  ptrace : ∀ u, (w'.thread u).ptrace = (w.thread u).ptrace
  task : ∀ u, own ≠ some u → ∃ set, Eases { w.task u with sharedPending := set } (w'.task u)
  thread : ∀ u, own ≠ some u → SameThread (w.thread u) (w'.thread u)
  traps : ∀ u, own ≠ some u → (w.thread u).ptrace = 0 →
    (w.task u).jobctl &&& JOBCTL_TRAP_MASK = 0 → (w'.task u).jobctl &&& JOBCTL_TRAP_MASK = 0

/-- The count of a group stop that a thread may have left. -/
inductive Tally (own : Option Nat) (w w' : World a) (p : Nat) : Prop
  | same (hconsumes : ∀ t ∈ w.threads p, own = some t →
        (w'.task t).consumes = (w.task t).consumes)
      (hflags : SameFlags (w.signalOf p) (w'.signalOf p))
      (hcount : (w'.signalOf p).groupStopCount = (w.signalOf p).groupStopCount)
  | left (t : Nat) (hown : own = some t) (ht : t ∈ w.threads p)
      (hlive : signalGroupExit (w.signalOf p) = false)
      (hin : (w.task t).consumes = true) (hout : (w'.task t).consumes = false)
      (hcount : (w'.signalOf p).groupStopCount = (w.signalOf p).groupStopCount - 1)
      (hflags : (w'.signalOf p).flags =
        if (w'.signalOf p).groupStopCount = 0 ∧ (w.signalOf p).flags &&& SIGNAL_STOP_STOPPED = 0 then
          SIGNAL_STOP_STOPPED
        else (w.signalOf p).flags)

/-- A thread that goes on is doomed, in the count or stopped if it was. -/
structure Stays (w w' : World a) (pc pc' : Nat → Pc a) (t : Nat) : Prop where
  doomed : signalGroupExit (w.signalOf t) = true →
    sigismember (w.task t).pending SIGKILL = true ∨ (pc t).isDoomed = true →
      sigismember (w'.task t).pending SIGKILL = true ∨ (pc' t).isDoomed = true
  quorum : Untraced w t → signalGroupExit (w.signalOf t) = false →
    (w.task t).consumes = true ∨ taskIsStopped (w.task t) = true ∨ (w.thread t).exiting = true →
      (w'.task t).consumes = true ∨ taskIsStopped (w'.task t) = true ∨ (w'.thread t).exiting = true
  halted : Untraced w t → signalGroupExit (w.signalOf t) = false →
    taskIsStopped (w.task t) = true ∨ (w.thread t).exiting = true →
      taskIsStopped (w'.task t) = true ∨ (w'.thread t).exiting = true

namespace Settled

variable {own : Option Nat}

theorem threadOk (hs : Settled own w w') (h : Ok w pc) {t : Nat} (ht : own ≠ some t)
    (hge : signalGroupExit (w'.signalOf t) = signalGroupExit (w.signalOf t)) :
    ThreadOk (signalGroupExit (w'.signalOf t)) (w'.task t) (w'.thread t) (pc t) := by
  obtain ⟨set, he⟩ := hs.task t ht
  rw [hge]
  exact ((h.thread t).sharedPending set).eases he (hs.thread t ht) (hs.traps t ht)

theorem blocked (hs : Settled own w w') {t : Nat} (ht : own ≠ some t) :
    (w'.task t).blocked = (w.task t).blocked := by
  obtain ⟨_, he⟩ := hs.task t ht
  exact he.blocked

theorem exiting (hs : Settled own w w') {t : Nat} (ht : own ≠ some t) :
    (w'.thread t).exiting = (w.thread t).exiting := (hs.thread t ht).exiting

theorem canTake (hs : Settled own w w') (hu : own ≠ some u) {sig : Signal} :
    CanTake w' sig u ↔ CanTake w sig u := by
  rw [CanTake, CanTake, hs.exiting hu, hs.blocked hu]

theorem untraced (hs : Settled own w w') : Untraced w' p ↔ Untraced w p := by
  rw [Untraced, Untraced, hs.threads p]
  exact forall₂_congr fun u _ => by rw [hs.ptrace u]

theorem alert (hs : Settled own w w') (hu : own ≠ some u) {k : Pc a} (h : Alert (w.task u) k) :
    Alert (w'.task u) k := by
  obtain ⟨_, he⟩ := hs.task u hu
  exact h.imp_left he.flag

theorem kill (hs : Settled own w w') {t : Nat} (ht : own ≠ some t) :
    sigismember (w'.task t).pending SIGKILL = sigismember (w.task t).pending SIGKILL := by
  obtain ⟨_, he⟩ := hs.task t ht
  exact he.kill

/-- A signal for a process keeps the thread that sees it, if the own thread does not turn
away. -/
theorem taker (hs : Settled own w w') (h : GroupOk w pc p) {sig : Signal}
    (hge : signalGroupExit (w.signalOf p) = false)
    (hpc : ∀ u ∈ w.threads p, own ≠ some u → pc' u = pc u)
    (hown : ∀ t ∈ w.threads p, own = some t →
      (CanTake w' sig t → CanTake w sig t ∨ Alert (w'.task t) (pc' t)) ∧
      (CanTake w sig t → Alert (w.task t) (pc t) → CanTake w' sig t ∧ Alert (w'.task t) (pc' t)))
    (hsig : sigismember (w.task p).sharedPending sig = true)
    (hex : ∃ u ∈ w'.threads p, CanTake w' sig u) :
    ∃ u ∈ w'.threads p, CanTake w' sig u ∧ Alert (w'.task u) (pc' u) := by
  rw [hs.threads p] at hex ⊢
  obtain ⟨v, hv, hv'⟩ := hex
  have hor : CanTake w sig v ∨ own = some v ∧ Alert (w'.task v) (pc' v) := by
    by_cases he : own = some v
    · exact ((hown v hv he).1 hv').imp_right (⟨he, ·⟩)
    · exact Or.inl ((hs.canTake he).mp hv')
  rcases hor with hcan | ⟨-, ha⟩
  · obtain ⟨t, ht, hcan', halert⟩ := h.taker hge sig hsig ⟨v, hv, hcan⟩
    refine ⟨t, ht, ?_⟩
    by_cases he : own = some t
    · exact (hown t ht he).2 hcan' halert
    · rw [hpc t ht he]
      exact ⟨(hs.canTake he).mpr hcan', hs.alert he halert⟩
  · exact ⟨v, hv, hv', ha⟩

/-- **What a step leaves of a process whose group stop, if any, goes on.** -/
theorem groupOk (hs : Settled own w w') (hg : Grouped w) (h : GroupOk w pc p)
    (hother : ∀ u ∈ w.threads p, own ≠ some u → pc' u = pc u ∧
      (w'.task u).consumes = (w.task u).consumes ∧
      taskIsStopped (w'.task u) = taskIsStopped (w.task u))
    (htally : Tally own w w' p)
    (hstays : ∀ t ∈ w.threads p, own = some t → Stays w w' pc pc' t)
    (htaker : signalGroupExit (w.signalOf p) = false → ∀ sig,
      sigismember (w'.task p).sharedPending sig = true → (∃ u ∈ w'.threads p, CanTake w' sig u) →
        ∃ u ∈ w'.threads p, CanTake w' sig u ∧ Alert (w'.task u) (pc' u)) :
    GroupOk w' pc' p := by
  have hge : signalGroupExit (w'.signalOf p) = signalGroupExit (w.signalOf p) := by
    cases htally with
    | same _ hflags => exact hflags.groupExit
    | left t _ _ hlive _ _ _ hflags =>
      rw [signalGroupExit, signalGroupExit, hflags]
      split
      · exact hlive.symm
      · rfl
  have hun : ∀ {v}, v ∈ w.threads p → Untraced w' p → Untraced w v := fun hv hn =>
    (untraced_iff hg hv).mpr (hs.untraced.mp hn)
  have hlive' : ∀ {v}, v ∈ w.threads p → signalGroupExit (w'.signalOf p) = false →
      signalGroupExit (w.signalOf v) = false := fun hv h' => by
    rw [hg.signalOf hv, ← hge]
    exact h'
  -- who is to stop or has still is, or has
  have hquorum : Untraced w' p → signalGroupExit (w'.signalOf p) = false → ∀ v ∈ w.threads p,
      (w.task v).consumes = true ∨ taskIsStopped (w.task v) = true ∨ (w.thread v).exiting = true →
      (w'.task v).consumes = true ∨ taskIsStopped (w'.task v) = true ∨
        (w'.thread v).exiting = true := by
    intro hn h' v hv hwas
    by_cases he : own = some v
    · exact (hstays v hv he).quorum (hun hv hn) (hlive' hv h') hwas
    · obtain ⟨-, hc, hst⟩ := hother v hv he
      rw [hc, hst, hs.exiting he]
      exact hwas
  have hhalted : Untraced w' p → signalGroupExit (w'.signalOf p) = false → ∀ v ∈ w.threads p,
      taskIsStopped (w.task v) = true ∨ (w.thread v).exiting = true →
      taskIsStopped (w'.task v) = true ∨ (w'.thread v).exiting = true := by
    intro hn h' v hv hwas
    by_cases he : own = some v
    · exact (hstays v hv he).halted (hun hv hn) (hlive' hv h') hwas
    · obtain ⟨-, hc, hst⟩ := hother v hv he
      rw [hst, hs.exiting he]
      exact hwas
  have hcount : signalGroupExit (w'.signalOf p) = false →
      Awaits (w'.threads p) (fun u => (w'.task u).consumes) (w'.signalOf p).groupStopCount := by
    intro h'
    rw [hs.threads p]
    cases htally with
    | same hconsumes _ hcount =>
      rw [hcount]
      refine (h.count (hge ▸ h')).congr fun v hv => ?_
      by_cases he : own = some v
      · exact hconsumes v hv he
      · exact (hother v hv he).2.1
    | left t hown ht hlive hin hout hcount =>
      rw [hcount]
      refine (h.count hlive).leave (hg.nodup p) ht hin hout fun v hv hne => ?_
      refine (hother v hv fun he => hne ?_).2.1
      exact Option.some.inj (he.symm.trans hown)
  refine
    { killable := ?_
      count := hcount
      spent := fun h' => ?_
      doomed := fun h' v hv => ?_
      quorum := fun hn h' hc v hv => ?_
      halted := fun hn h' hf v hv => ?_
      taker := fun h' => htaker (hge ▸ h') }
  · cases htally with
    | same _ hflags => exact hflags.unkillable.trans h.killable
    | left _ _ _ _ _ _ _ hflags =>
      rw [hflags]
      split
      · rfl
      · exact h.killable
  · cases htally with
    | same _ _ hcount =>
      rw [hcount]
      exact h.spent (hge ▸ h')
    | left _ _ _ hlive =>
      rw [hge, hlive] at h'
      cases h'
  · rw [hs.threads p] at hv
    have hwas := h.doomed (hge ▸ h') v hv
    by_cases he : own = some v
    · exact (hstays v hv he).doomed (by rw [hg.signalOf hv, ← hge]; exact h') hwas
    · rw [hs.kill he, (hother v hv he).1]
      exact hwas
  · rw [hs.threads p] at hv
    refine hquorum hn h' v hv (h.quorum (hs.untraced.mp hn) (hge ▸ h') ?_ v hv)
    cases htally with
    | same _ _ hcount => exact hcount ▸ hc
    | left _ _ _ _ _ _ hcount =>
      rw [hcount] at hc
      omega
  · rw [hs.threads p] at hv
    have hstop : ∀ hf' : (w.signalOf p).flags &&& SIGNAL_STOP_STOPPED ≠ 0,
        taskIsStopped (w'.task v) = true ∨ (w'.thread v).exiting = true := fun hf' =>
      hhalted hn h' v hv (h.halted (hs.untraced.mp hn) (hge ▸ h') hf' v hv)
    cases htally with
    | same _ hflags => exact hstop (hflags.stopped ▸ hf)
    | left t hown ht hlive hin hout hcount' hflags =>
      by_cases hlast : (w'.signalOf p).groupStopCount = 0 ∧
          (w.signalOf p).flags &&& SIGNAL_STOP_STOPPED = 0
      · -- the last one has left the count, so everybody who was in it has stopped
        have hnobody : (w'.task v).consumes = false :=
          (hcount h').eq_zero.mp hlast.1 v (by rw [hs.threads p]; exact hv)
        have hne : (w.signalOf p).groupStopCount ≠ 0 := (h.count hlive).ne_zero ht hin
        have hwas := hquorum hn h' v hv (h.quorum (hs.untraced.mp hn) hlive hne v hv)
        rw [hnobody] at hwas
        exact hwas.resolve_left Bool.false_ne_true
      · rw [if_neg hlast] at hflags
        exact hstop (hflags ▸ hf)

end Settled

/-- A thread of another process. -/
structure Aside (w w' : World a) (u : Nat) : Prop where
  consumes : (w'.task u).consumes = (w.task u).consumes
  stopped : taskIsStopped (w'.task u) = taskIsStopped (w.task u)
  shared : ∀ sig, sigismember (w'.task u).sharedPending sig = true →
    sigismember (w.task u).sharedPending sig = true
  flags : SameFlags (w.signalOf u) (w'.signalOf u)
  count : (w'.signalOf u).groupStopCount = (w.signalOf u).groupStopCount

/-- **The end of a process keeps the invariant.** -/
theorem Ok.of_doomed (h : Ok w pc) {p : Nat} (hg : Grouped w')
    (hdfl : ∀ d, (w'.action d SIGKILL).handler = .dfl)
    (hthreads : ∀ u, w'.threads u = w.threads u)
    (hpc : ∀ u, u ∉ w.threads p → pc' u = pc u)
    (hown : ∀ u ∈ w.threads p, ThreadOk true (w'.task u) (w'.thread u) (pc' u) ∧
      (sigismember (w'.task u).pending SIGKILL = true ∨ (pc' u).isDoomed = true))
    (hflags : ∀ u ∈ w.threads p, (w'.signalOf u).flags = SIGNAL_GROUP_EXIT ∧
      (w'.signalOf u).groupStopCount = 0)
    (hother : ∀ u, u ∉ w.threads p → w'.task u = w.task u ∧ SameThread (w.thread u) (w'.thread u) ∧
      w'.signalOf u = w.signalOf u) : Ok w' pc' := by
  have hexit : ∀ u ∈ w.threads p, signalGroupExit (w'.signalOf u) = true := fun u hu => by
    rw [signalGroupExit, (hflags u hu).1]
    rfl
  have hdead : ∀ {P : Prop}, ∀ u ∈ w.threads p, signalGroupExit (w'.signalOf u) = false → P :=
    fun u hu hlive => by
      rw [hexit u hu] at hlive
      cases hlive
  refine ⟨hg, hdfl, fun u => ?_, fun q => ?_⟩
  · by_cases hu : u ∈ w.threads p
    · rw [hexit u hu]
      exact (hown u hu).1
    · obtain ⟨htask, hthread, hsignal⟩ := hother u hu
      rw [htask, hsignal, hpc u hu]
      exact (h.thread u).eases (.refl _) hthread fun _ => id
  · by_cases hq : q ∈ w.threads p
    · exact
        { killable := by
            rw [(hflags q hq).1]
            rfl
          count := hdead q hq
          spent := fun _ => (hflags q hq).2
          doomed := fun _ v hv => by
            rw [hthreads] at hv
            exact (hown v (h.grouped.trans hq hv)).2
          quorum := fun _ => hdead q hq
          halted := fun _ => hdead q hq
          taker := hdead q hq }
    · have hout : ∀ {v}, v ∈ w.threads q → v ∉ w.threads p := fun hv hp =>
        hq (h.grouped.trans hp (h.grouped.symm hv))
      refine (h.group q).congr (hthreads q) (fun v hv => (hother v (hout hv)).1)
        (fun v hv => (hother v (hout hv)).2.1) ?_ ?_ fun v hv => hpc v (hout hv)
      · rw [(hother q hq).2.2]
        exact .of_eq rfl
      · rw [(hother q hq).2.2]

/-- **A step of one thread keeps the invariant** if it keeps that of its own process. -/
theorem Ok.of_step (h : Ok w pc) {t : Nat} (hs : Settled (some t) w w') (hg : Grouped w')
    (hdfl : ∀ d, (w'.action d SIGKILL).handler = .dfl)
    (hge : ∀ u, signalGroupExit (w'.signalOf u) = signalGroupExit (w.signalOf u))
    (hpc : ∀ u, u ≠ t → pc' u = pc u)
    (hown : ThreadOk (signalGroupExit (w.signalOf t)) (w'.task t) (w'.thread t) (pc' t))
    (hother : ∀ u, u ∉ w.threads t → Aside w w' u)
    (hgroup : GroupOk w' pc' t) : Ok w' pc' := by
  refine ⟨hg, hdfl, fun u => ?_, fun q => ?_⟩
  · by_cases hu : u = t
    · rw [hu, hge]
      exact hown
    · rw [hpc u hu]
      exact hs.threadOk h (fun he => hu (Option.some.inj he).symm) (hge u)
  · by_cases hq : q ∈ w.threads t
    · refine GroupOk.of_mem hg ?_ hgroup
      rw [hs.threads t]
      exact hq
    · have hout : ∀ {v}, v ∈ w.threads q → v ∉ w.threads t := fun hv ht =>
        hq (h.grouped.trans ht (h.grouped.symm hv))
      have hne : ∀ {v}, v ∈ w.threads q → (some t : Option Nat) ≠ some v := fun hv he =>
        hout hv (Option.some.inj he ▸ h.grouped.self t)
      refine hs.groupOk h.grouped (h.group q) (fun v hv he => ?_) ?_ (fun v hv he => ?_)
        fun hlive sig hsig hex => ?_
      · have haside := hother v (hout hv)
        exact ⟨hpc v fun heq => he (heq ▸ rfl), haside.consumes, haside.stopped⟩
      · exact .same (fun v hv he => absurd he (hne hv)) (hother q hq).flags (hother q hq).count
      · exact absurd he (hne hv)
      · exact hs.taker (h.group q) hlive (fun v _ he => hpc v fun heq => he (heq ▸ rfl))
          (fun v hv he => absurd he (hne hv)) ((hother q hq).shared sig hsig) hex

/-- A thread of a world in which nothing that the invariant is about has changed. -/
structure Same (w w' : World a) (u : Nat) : Prop where
  task : w'.task u = w.task u
  thread : SameThread (w.thread u) (w'.thread u)
  flags : SameFlags (w.signalOf u) (w'.signalOf u)
  count : (w'.signalOf u).groupStopCount = (w.signalOf u).groupStopCount
  currTarget : (w'.signalOf u).currTarget = (w.signalOf u).currTarget

theorem Ok.of_same (h : Ok w pc) (hsame : ∀ u, Same w w' u)
    (hdfl : ∀ d, (w'.action d SIGKILL).handler = .dfl) : Ok w' pc := by
  have hthreads : ∀ u, w'.threads u = w.threads u := fun u => by
    rw [World.threads, World.threads, (hsame u).task]
  refine ⟨?_, hdfl, fun u => ?_, fun q => ?_⟩
  · refine h.grouped.of_same (fun u => ?_) (fun u => (hsame u).thread.signal) (fun q u hu => ?_)
      fun q => ?_
    · rw [(hsame u).task]
      exact ⟨rfl, rfl⟩
    · rw [(hsame u).task, (hsame q).task]
      exact h.grouped.shared q u hu
    · rw [(hsame q).currTarget]
      exact h.grouped.currTarget q
  · rw [(hsame u).task, (hsame u).flags.groupExit]
    exact (h.thread u).eases (.refl _) (hsame u).thread fun _ => id
  · exact (h.group q).congr (hthreads q) (fun u _ => (hsame u).task) (fun u _ => (hsame u).thread)
      (hsame q).flags (hsame q).count fun _ _ => rfl

theorem Ok.onThread (h : Ok w pc) (t : Nat) {f : Thread a → Thread a}
    (hf : SameThread (w.thread t) (f (w.thread t))) : Ok (w.onThread t f) pc := by
  have hsignal := fun u => w.onThread_signalOf t u f hf.signal
  refine h.of_same (fun u => ⟨rfl, ?_, .of_eq ?_, ?_, ?_⟩) h.dfl
  · by_cases hu : u = t
    · rw [hu, World.onThread_thread_self]
      exact hf
    · rw [World.onThread_thread_of_ne _ _ hu]
      exact .refl _
  · rw [hsignal]
  · rw [hsignal]
  · rw [hsignal]

/-- A change of a process that leaves the count, and the flags that matter here. -/
theorem Ok.onSignal (h : Ok w pc) (t : Nat) {f : SignalStruct → SignalStruct}
    (hflags : SameFlags (w.signalOf t) (f (w.signalOf t)))
    (hcount : (f (w.signalOf t)).groupStopCount = (w.signalOf t).groupStopCount)
    (htarget : (f (w.signalOf t)).currTarget = (w.signalOf t).currTarget) :
    Ok (w.onSignal t f) pc := by
  refine h.of_same (fun u => ?_) h.dfl
  by_cases hu : u ∈ w.threads t
  · have heq := h.grouped.onSignal_signalOf f hu
    have hold := h.grouped.signalOf hu
    refine ⟨rfl, .refl _, ?_, ?_, ?_⟩
    · rw [heq, hold]
      exact hflags
    · rw [heq, hold, hcount]
    · rw [heq, hold, htarget]
  · have heq := h.grouped.onSignal_signalOf_other f hu
    refine ⟨rfl, .refl _, .of_eq ?_, ?_, ?_⟩
    · rw [heq]
    · rw [heq]
    · rw [heq]

theorem Ok.addEntry (h : Ok w pc) (p : Nat) (group : Bool) (q : Entry) :
    Ok (addEntry w p group q) pc := by
  unfold Signals.addEntry
  split
  · exact h.onSignal p (.of_eq rfl) rfl rfl
  · exact h.onThread p (.of_queue rfl)

theorem settled_onTask (t : Nat) {f : Task a → Task a}
    (hf : (f (w.task t)).threadGroup = (w.task t).threadGroup) :
    Settled (some t) w (w.onTask t f) := by
  have hne : ∀ {u}, (some t : Option Nat) ≠ some u → (w.onTask t f).task u = w.task u := fun hu =>
    w.onTask_task_of_ne f fun he => hu (he ▸ rfl)
  exact
    { threads := fun u => congrArg (u :: ·) (w.onTask_field t u Task.threadGroup hf)
      ptrace := fun _ => rfl
      task := fun u hu => ⟨(w.task u).sharedPending, by
        rw [hne hu]
        exact .refl _⟩
      thread := fun _ _ => .refl _
      traps := fun u hu _ ht => by
        rw [hne hu]
        exact ht }

/-- A step of one thread that writes only its task, and leaves the process's signals to
somebody. -/
theorem Ok.onTask_of_taker (h : Ok w pc) (t : Nat) {f : Task a → Task a}
    (hsame : (f (w.task t)).threadGroup = (w.task t).threadGroup ∧
      (f (w.task t)).sighand = (w.task t).sighand ∧
      (f (w.task t)).sharedPending = (w.task t).sharedPending)
    (hpc : ∀ u, u ≠ t → pc' u = pc u)
    (hown : ThreadOk (signalGroupExit (w.signalOf t)) (f (w.task t)) (w.thread t) (pc' t))
    (hconsumes : (f (w.task t)).consumes = (w.task t).consumes)
    (hstopped : Untraced w t → signalGroupExit (w.signalOf t) = false →
      taskIsStopped (w.task t) = true → taskIsStopped (f (w.task t)) = true)
    (hdoomed : sigismember (w.task t).pending SIGKILL = true ∨ (pc t).isDoomed = true →
      sigismember (f (w.task t)).pending SIGKILL = true ∨ (pc' t).isDoomed = true)
    (htaker : signalGroupExit (w.signalOf t) = false → ∀ sig,
      sigismember (w.task t).sharedPending sig = true →
        (∃ u ∈ w.threads t, CanTake (w.onTask t f) sig u) →
          ∃ u ∈ w.threads t, CanTake (w.onTask t f) sig u ∧
            Alert ((w.onTask t f).task u) (pc' u)) :
    Ok (w.onTask t f) pc' := by
  have hg := h.grouped
  have hself := w.onTask_task_self t f
  have hne : ∀ {u}, u ≠ t → (w.onTask t f).task u = w.task u := fun hu => w.onTask_task_of_ne f hu
  have hshared : ∀ u, ((w.onTask t f).task u).sharedPending = (w.task u).sharedPending := fun u =>
    w.onTask_field t u Task.sharedPending hsame.2.2
  have hs := settled_onTask t hsame.1
  have hgrouped : Grouped (w.onTask t f) := by
    refine hg.of_same (fun u => ⟨?_, ?_⟩) (fun _ => rfl) (fun q u hu => ?_) fun q => ?_
    · exact w.onTask_field t u Task.threadGroup hsame.1
    · exact w.onTask_field t u Task.sighand hsame.2.1
    · rw [hshared, hshared]
      exact hg.shared q u hu
    · exact hg.currTarget q
  refine h.of_step hs hgrouped h.dfl (fun _ => rfl) hpc ?_ (fun u hu => ?_) (hs.groupOk hg (h.group t)
    (fun u _ hu => ?_) ?_ (fun u _ he => ?_) fun hlive sig hsig hex => ?_)
  · rw [hself]
    exact hown
  · have htask : (w.onTask t f).task u = w.task u := hne fun he => hu (he ▸ hg.self t)
    exact ⟨by rw [htask], by rw [htask], fun sig hs => htask ▸ hs, .of_eq rfl, rfl⟩
  · have hu' : u ≠ t := fun he => hu (he ▸ rfl)
    rw [hne hu', hpc u hu']
    exact ⟨rfl, rfl, rfl⟩
  · refine .same (fun u _ he => ?_) (.of_eq rfl) rfl
    rw [← Option.some.inj he, hself]
    exact hconsumes
  · obtain rfl := Option.some.inj he
    refine ⟨fun _ hd => ?_, fun hn hlive hwas => ?_, fun hn hlive hwas => ?_⟩
    · rw [hself]
      exact hdoomed hd
    · rw [hself, hconsumes]
      exact hwas.imp_right (Or.imp_left (hstopped hn hlive))
    · rw [hself]
      exact hwas.imp_left (hstopped hn hlive)
  · rw [hs.threads] at hex ⊢
    exact htaker hlive sig (hshared t ▸ hsig) hex

/-- **A step of one thread that writes only its task.** -/
theorem Ok.onTask (h : Ok w pc) (t : Nat) {f : Task a → Task a}
    (hsame : (f (w.task t)).threadGroup = (w.task t).threadGroup ∧
      (f (w.task t)).sighand = (w.task t).sighand ∧
      (f (w.task t)).sharedPending = (w.task t).sharedPending)
    (hpc : ∀ u, u ≠ t → pc' u = pc u)
    (hown : ThreadOk (signalGroupExit (w.signalOf t)) (f (w.task t)) (w.thread t) (pc' t))
    (hconsumes : (f (w.task t)).consumes = (w.task t).consumes)
    (hstopped : Untraced w t → signalGroupExit (w.signalOf t) = false →
      taskIsStopped (w.task t) = true → taskIsStopped (f (w.task t)) = true)
    (hdoomed : sigismember (w.task t).pending SIGKILL = true ∨ (pc t).isDoomed = true →
      sigismember (f (w.task t)).pending SIGKILL = true ∨ (pc' t).isDoomed = true)
    (htaker : (w.thread t).exiting = false → ∀ sig,
      sigismember (w.task t).sharedPending sig = true →
        (sigismember (f (w.task t)).blocked sig = false →
          sigismember (w.task t).blocked sig = false ∨ Alert (f (w.task t)) (pc' t)) ∧
        (sigismember (w.task t).blocked sig = false → Alert (w.task t) (pc t) →
          sigismember (f (w.task t)).blocked sig = false ∧ Alert (f (w.task t)) (pc' t))) :
    Ok (w.onTask t f) pc' := by
  refine h.onTask_of_taker t hsame hpc hown hconsumes hstopped hdoomed fun hlive sig hsig hex => ?_
  have hs := settled_onTask t hsame.1
  rw [← hs.threads t] at hex ⊢
  refine hs.taker (h.group t) hlive (fun u _ hu => hpc u fun he => hu (he ▸ rfl)) (fun u _ he => ?_)
    hsig hex
  obtain rfl := Option.some.inj he
  rw [CanTake, CanTake, w.onTask_task_self]
  refine ⟨fun hcan => ?_, fun hcan ha => ?_⟩
  · exact ((htaker hcan.1 sig hsig).1 hcan.2).imp_left (⟨hcan.1, ·⟩)
  · obtain ⟨hb, ha'⟩ := (htaker hcan.1 sig hsig).2 hcan.2 ha
    exact ⟨⟨hcan.1, hb⟩, ha'⟩

/-- **A step that only eases keeps the invariant.** -/
theorem Ok.of_settled (h : Ok w pc) (hs : Settled none w w') (hg : Grouped w')
    (hdfl : ∀ d, (w'.action d SIGKILL).handler = .dfl) (haside : ∀ u, Aside w w' u) : Ok w' pc :=
  ⟨hg, hdfl, fun u => hs.threadOk h nofun (haside u).flags.groupExit, fun q =>
    hs.groupOk h.grouped (h.group q) (fun u _ _ => ⟨rfl, (haside u).consumes, (haside u).stopped⟩)
      (.same nofun (haside q).flags (haside q).count) nofun fun hlive sig hsig hex =>
        hs.taker (h.group q) hlive (fun _ _ _ => rfl) nofun ((haside q).shared sig hsig) hex⟩

theorem Ok.goto (h : Ok w pc) (t : Nat) {k : Pc a}
    (hf : Follows (w.task t) (w.thread t) (pc t) k) : Ok w (Function.update pc t k) := by
  have hself : Function.update pc t k t = k := Function.update_self ..
  have hne : ∀ {u}, u ≠ t → Function.update pc t k u = pc u := fun hu => Function.update_of_ne hu ..
  have hs : Settled (some t) w w :=
    { threads := fun _ => rfl
      ptrace := fun _ => rfl
      task := fun u _ => ⟨(w.task u).sharedPending, .refl _⟩
      thread := fun _ _ => .refl _
      traps := fun _ _ _ => id }
  refine h.of_step hs h.grouped h.dfl (fun _ => rfl) (fun _ => hne) ?_
    (fun u _ => ⟨rfl, rfl, fun _ => id, .of_eq rfl, rfl⟩) (hs.groupOk h.grouped (h.group t)
    (fun u _ hu => ⟨hne fun he => hu (he ▸ rfl), rfl, rfl⟩) (.same (fun _ _ _ => rfl) (.of_eq rfl) rfl)
    (fun u _ he => ?_) fun hlive sig hsig hex => ?_)
  · rw [hself]
    exact (h.thread t).goto hf
  · obtain rfl := Option.some.inj he
    refine ⟨fun _ hd => hd.imp_right fun hd => ?_, fun _ _ => id, fun _ _ => id⟩
    rw [hself]
    exact hf.doomed hd
  · refine hs.taker (h.group t) hlive (fun u _ hu => hne fun he => hu (he ▸ rfl)) (fun u _ he => ?_)
      hsig hex
    obtain rfl := Option.some.inj he
    refine ⟨Or.inl, fun hcan ha => ⟨hcan, ?_⟩⟩
    rw [hself]
    rcases ha with ht | hl
    · exact Or.inl ht
    · exact (hf.looks hl).elim Or.inr fun ht =>
        Or.inl (ht.recalced ⟨sig, Or.inr hsig, hcan.2⟩)

end

end LinuxKerDev.Signals.Machine
