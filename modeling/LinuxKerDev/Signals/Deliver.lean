import Mathlib
import LinuxKerDev.Signals.Dequeue
import LinuxKerDev.Signals.Generate
import LinuxKerDev.Signals.Jobctl

/-!
# What a thread does about its own signals (`signal.c`)

`dequeue_signal`, the signal mask, `exit_signals`, `zap_other_threads`, `do_sigaction` and
the parts of `ptrace_stop` between two changes of the lock.  `t` is `current` throughout, but
for the loops over the other threads.

An entry of a pending list is known by its signal; `Infos` is the rest of its `siginfo`.  The
notifier, the freezer and the debugger are not here, so what they answer is an input.
-/

namespace LinuxKerDev.Signals

open Lib

variable {a : Arch}

/-! ### Sets -/

def sigandsets (s t : Sigset a) : Sigset a := WordSet.inter s t

def sigorsets (s t : Sigset a) : Sigset a := WordSet.union s t

def sigandnsets (s t : Sigset a) : Sigset a := WordSet.diff s t

def signotset (s : Sigset a) : Sigset a := WordSet.compl s

def sigemptyset : Sigset a := fun _ => 0#_

def sigisemptyset (s : Sigset a) : Bool := decide (∀ k, s k = 0#_)

section

variable (s t : Sigset a) (sig : Signal)

theorem sigismember_sigandsets :
    sigismember (sigandsets s t) sig = (sigismember s sig && sigismember t sig) :=
  WordSet.mem_inter s t _

theorem sigismember_sigorsets :
    sigismember (sigorsets s t) sig = (sigismember s sig || sigismember t sig) :=
  WordSet.mem_union s t _

theorem sigismember_sigandnsets :
    sigismember (sigandnsets s t) sig = (sigismember s sig && !sigismember t sig) :=
  WordSet.mem_diff s t _

theorem sigismember_signotset : sigismember (signotset s) sig = !sigismember s sig :=
  WordSet.mem_compl s (sig.lt a)

theorem sigismember_sigemptyset : sigismember (sigemptyset : Sigset a) sig = false :=
  sigismember_empty sig

theorem sigisemptyset_iff : sigisemptyset s = true ↔ ∀ sig, sigismember s sig = false := by
  rw [sigisemptyset, decide_eq_true_eq]
  constructor
  · intro h sig
    rw [show s = sigemptyset from funext h, sigismember_sigemptyset]
  · intro h k
    by_contra hk
    obtain ⟨i, hi⟩ := (WordSet.exists_word_ne_zero s).mp ⟨k, hk⟩
    have hlt := WordSet.lt_of_mem s hi
    rw [a.nsig] at hlt
    have hno := h ⟨i + 1, by omega, by omega⟩
    rw [sigismember_eq, Nat.add_sub_cancel, hi] at hno
    cases hno

end

/-! ### `dequeue_signal` -/

/-- More of what the headers that are not in the repository define. -/
structure JobHeaders (a : Arch) where
  sync : Synchronous
  SIGSTOP : Signal
  SIG_KERNEL_ONLY_MASK : Sigset a
  PTRACE_EVENT_STOP : BitVec 32

theorem Signal.pos_of {n : Nat} (hn : 1 ≤ n ∧ n ≤ 64) : 1 ≤ n := hn.1

theorem Signal.le_of {n : Nat} (hn : 1 ≤ n ∧ n ≤ 64) : n ≤ 64 := hn.2

def toSignal (n : Nat) : Option Signal :=
  if hn : 1 ≤ n ∧ n ≤ 64 then some ⟨n, Signal.pos_of hn, Signal.le_of hn⟩ else none

def headerSignal (n : Nat) : Signal := (toSignal n).getD SIGKILL

def JobHeaders.x86 (a : Arch) : JobHeaders a where
  sync :=
    { SIGBUS := headerSignal 7
      SIGILL := headerSignal 4
      SIGTRAP := headerSignal 5
      SIGFPE := headerSignal 8 }
  SIGSTOP := headerSignal 19
  SIG_KERNEL_ONLY_MASK := sigmaskOf [SIGKILL, headerSignal 19]
  PTRACE_EVENT_STOP := 7

def sigKernelOnly (h : Headers a) (j : JobHeaders a) (sig : Signal) : Bool :=
  siginmask h sig j.SIG_KERNEL_ONLY_MASK

/-- What the headers say of `SIGKILL` and the stop signals. -/
structure JobHeaders.Sound (h : Headers a) (j : JobHeaders a) : Prop extends h.StopCont where
  kill_stop : sigismember h.SIG_KERNEL_STOP_MASK SIGKILL = false
  kill_ignore : sigKernelIgnore h SIGKILL = false
  kill_coredump : sigKernelCoredump h SIGKILL = false
  only : ∀ sig, sigKernelOnly h j sig = true ↔ sig = SIGKILL ∨ sig = j.SIGSTOP
  stop : sigKernelStop h j.SIGSTOP = true

theorem JobHeaders.sound_x86 (a : Arch) : JobHeaders.Sound (Headers.x86 a) (JobHeaders.x86 a) where
  toStopCont := Headers.stopCont_x86 a
  kill_stop := by cases a <;> decide
  kill_ignore := by cases a <;> decide
  kill_coredump := by cases a <;> decide
  only sig := by
    have hmem : sigismember (JobHeaders.x86 a).SIG_KERNEL_ONLY_MASK sig = true ↔
        sig = SIGKILL ∨ sig = (JobHeaders.x86 a).SIGSTOP := by
      show sigismember (sigaddset (sigaddset _ _) _) sig = true ↔ _
      rw [sigismember_sigaddset, sigismember_sigaddset, sigismember_empty]
      exact or_left_comm.trans (or_congr_right (or_iff_left Bool.false_ne_true))
    rw [sigKernelOnly, siginmask, Bool.and_eq_true, decide_eq_true_eq, hmem]
    refine and_iff_right_of_imp fun hs => ?_
    rcases hs with rfl | rfl
    · exact (by decide : 9 < 32)
    · exact (by decide : 19 < 32)
  stop := by cases a <;> decide

structure Infos where
  info : Entry → Siginfo
  signo : ∀ q, (info q).siSigno = q.signo

def Infos.simplest : Infos where
  info q := ⟨q.signo, 0, SI_USER, 0, 0⟩
  signo _ := rfl

/-- `recalc_sigpending`.  `freezing` is whether the task is to freeze. -/
def recalcSigpending (freezing : Bool) (s : Task a) : Task a :=
  let (s, pending) := recalcSigpendingTsk s
  if pending = false ∧ freezing = false then { s with tifSigpending := false } else s

namespace World

/-- `t->pending`, or `t->signal->shared_pending` -/
def sigpending (w : World a) (t : Nat) (group : Bool) : Sigpending a Entry where
  signal := pendingSet w t group
  list := if group = true then (w.signalOf t).queue else (w.thread t).queue

def setSigpending (w : World a) (t : Nat) (group : Bool) (p : Sigpending a Entry) : World a :=
  if group = true then
    (w.onShared t fun _ => p.signal).onSignal t fun m => { m with queue := p.list }
  else
    (w.onTask t fun s => { s with pending := p.signal }).onThread t fun m =>
      { m with queue := p.list }

end World

/-- `__dequeue_signal`, from one of the two lists.  A preallocated sigqueue is not freed. -/
def dequeueFrom (j : JobHeaders a) (i : Infos) (notifier : Option (Notifier a)) (w : World a)
    (t : Nat) (mask : Sigset a) (group : Bool) : World a × Option (Dequeued Entry) :=
  match dequeueSignal₀ i.info j.sync notifier mask (w.sigpending t group) with
  | (_, .nothing) => (w, none)
  | (_, .held) => (w.onTask t fun s => { s with tifSigpending := false }, none)
  | (p, .dequeued d) => ((w.setSigpending t group p).unlink d.freed.toList, some d)

/-- `dequeue_signal`, up to the restart of a posix timer.  The restart of the interval timer
touches nothing else. -/
def dequeueSignal (h : Headers a) (j : JobHeaders a) (i : Infos) (notifier : Option (Notifier a))
    (freezing : Bool) (w : World a) (t : Nat) (mask : Sigset a) :
    World a × Option (Signal × Siginfo) :=
  let (w, d) :=
    match dequeueFrom j i notifier w t mask false with
    | (w, some d) => (w, some d)
    | (w, none) => dequeueFrom j i notifier w t mask true
  let w := w.onTask t (recalcSigpending freezing)
  match d with
  | none => (w, none)
  | some d =>
    (if sigKernelStop h d.sig = true then
        w.onTask t fun s => { s with jobctl := s.jobctl ||| JOBCTL_STOP_DEQUEUED }
      else w, some (d.sig, d.info))

/-! ### The signal mask -/

def retargetLoop (x : Extern a) : List Nat → World a → Sigset a → World a
  | [], w, _ => w
  | t :: ts, w, retarget =>
    if (w.thread t).exiting = true then retargetLoop x ts w retarget
    else if hasPendingSignals retarget (w.task t).blocked = false then retargetLoop x ts w retarget
    else
      let retarget := sigandsets retarget (w.task t).blocked
      let w :=
        if signalPending (w.task t) = true then w else w.onTask t fun s => signalWakeUp x s false
      if sigisemptyset retarget = true then w else retargetLoop x ts w retarget

def retargetSharedPending (x : Extern a) (w : World a) (t : Nat) (which : Sigset a) : World a :=
  let retarget := sigandsets (w.task t).sharedPending which
  if sigisemptyset retarget = true then w else retargetLoop x (w.task t).threadGroup w retarget

def setTaskBlocked (x : Extern a) (freezing : Bool) (w : World a) (t : Nat)
    (newset : Sigset a) : World a :=
  let w :=
    if signalPending (w.task t) = true ∧ (w.task t).threadGroup ≠ [] then
      retargetSharedPending x w t (sigandnsets newset (w.task t).blocked)
    else w
  w.onTask t fun s => recalcSigpending freezing { s with blocked := newset }

inductive How
  | block
  | unblock
  | setmask
  deriving DecidableEq, Repr

def How.newset (how : How) (blocked set : Sigset a) : Sigset a :=
  match how with
  | .block => sigorsets blocked set
  | .unblock => sigandnsets blocked set
  | .setmask => set

def sigprocmask (x : Extern a) (freezing : Bool) (w : World a) (t : Nat) (how : How)
    (set : Sigset a) : World a :=
  setTaskBlocked x freezing w t (how.newset (w.task t).blocked set)

def unblockable (j : JobHeaders a) : Sigset a := sigmaskOf [SIGKILL, j.SIGSTOP]

/-- `rt_sigprocmask`, once `nset` has been read -/
def rtSigprocmask (x : Extern a) (j : JobHeaders a) (freezing : Bool) (w : World a) (t : Nat)
    (how : How) (nset : Sigset a) : World a :=
  sigprocmask x freezing w t how (sigdelsetmask nset (unblockable j))

/-! ### Leaving -/

/-- `exit_signals`, up to the notification that it may have to send. -/
def exitSignals (x : Extern a) (w : World a) (t : Nat) : World a × Bool × List Warning :=
  let leave (w : World a) := w.onThread t fun m => { m with exiting := true }
  if (w.task t).threadGroup = [] ∨ signalGroupExit (w.signalOf t) = true then (leave w, false, [])
  else if signalPending (w.task t) = false then (leave w, false, [])
  else
    let w := retargetSharedPending x (leave w) t (signotset (w.task t).blocked)
    if (w.task t).stopPending = true then taskParticipateGroupStop w t else (w, false, [])

def zapThread (x : Extern a) (w : World a) (t : Nat) : World a :=
  if (w.task t).exitState ≠ 0 then taskClearJobctlPending w t JOBCTL_PENDING_MASK
  else killThread x w t

/-- `zap_other_threads`, with how many there are -/
def zapOtherThreads (x : Extern a) (w : World a) (p : Nat) : World a × Nat :=
  let w := w.onSignal p fun m => { m with groupStopCount := 0 }
  ((w.task p).threadGroup.foldl (zapThread x) w, (w.task p).threadGroup.length)

/-! ### `do_sigaction` -/

def rmFromQueueFull (mask : Sigset a) (group : Bool) (w : World a) (t : Nat) : World a :=
  let s := w.sigpending t group
  if sigisemptyset (sigandsets mask s.signal) = true then w
  else
    (w.setSigpending t group ⟨sigandnsets s.signal mask,
      s.list.filter fun q => !sigismember mask q.signo⟩).unlink
        (s.list.filter fun q => sigismember mask q.signo)

/-- `do_sigaction` on a valid signal, with an action to set.  The mask and the other flags of
the action are not read here. -/
def doSigaction (h : Headers a) (j : JobHeaders a) (w : World a) (t : Nat) (sig : Signal)
    (act : SigAction) : Option (World a × Int) :=
  if sigKernelOnly h j sig = true then some (w, -EINVAL)
  else
    match (w.task t).sighand with
    | none => none
    | some d =>
      let w := { w with
        action := Function.update w.action d (Function.update (w.action d) sig act) }
      if sigHandlerIgnored h act.handler sig = true then
        let mask := sigaddset sigemptyset sig
        let w := rmFromQueueFull mask true w t
        some ((w.threads t).foldl (rmFromQueueFull mask false) w, 0)
      else some (w, 0)

/-! ### `ptrace_stop` -/

def ptraceReparented (w : World a) (t : Nat) : Bool :=
  decide ((w.thread (w.thread t).realParent).signal ≠ (w.thread (w.thread t).parent).signal)

/-- `may_ptrace_stop`.  `coredump` is whether the tracer is part of a dump of the same
memory. -/
def mayPtraceStop (w : World a) (t : Nat) (coredump : Bool) : Bool :=
  decide ((w.thread t).ptrace ≠ 0) && !coredump

/-- `ptrace_stop`, after the hook of the architecture and until it lets go of the lock.
`event` is whether `info` says `PTRACE_EVENT_STOP`. -/
def ptraceStop (w : World a) (t : Nat) (exitCode : BitVec 32) (why : Cld) (event : Bool) :
    World a × Bool × List Warning :=
  let w := w.onTask t fun s => { s with state := TASK_TRACED }
  let w := w.onThread t fun m => { m with exitCode := exitCode }
  let (w, gstopDone, warnings) :=
    if why = .stopped ∧ (w.task t).stopPending = true then taskParticipateGroupStop w t
    else (w, false, [])
  let w := taskClearJobctlPending w t JOBCTL_TRAP_STOP
  let w := if event = true then taskClearJobctlPending w t JOBCTL_TRAP_NOTIFY else w
  (w.onTask t fun s => { s with jobctl := s.jobctl &&& ~~~JOBCTL_TRAPPING }, gstopDone, warnings)

/-- The end of `ptrace_stop`, once it has the lock back. -/
def ptraceResume (w : World a) (t : Nat) : World a :=
  w.onTask t fun s => (recalcSigpendingTsk { s with jobctl := s.jobctl &&& ~~~JOBCTL_LISTENING }).1

end LinuxKerDev.Signals
