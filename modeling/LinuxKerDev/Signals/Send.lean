import LinuxKerDev.Signals.Task

/-!
# Sending a signal (`signal.c`)

`__send_signal` and what it calls, with the functions that reach it or the
pending lists.  `World` is the tasks of `Task.lean` with what sending reads and
writes besides: the rest of a thread (`Thread`), the `signal_struct` it points
to, the `sighand` with its actions and with the counters this repository adds,
and the sigqueues.  `sharedPending` of a task is the set of its `signal_struct`,
so a write to it reaches all the threads of the group.

Left out are the locks the callers hold, the tracing, `signalfd_notify`,
`__wake_up_parent` and the wake-up of a tracer, none of which touches a task
that sleeps elsewhere.  Whether `__sigqueue_alloc` gets its memory, and what the
permission checks answer, are inputs.

`Spares` is what all of these functions leave alone.  A task in an
uninterruptible sleep stays in it: each wake-up has a mask of its own, and none
of them meets that state.  `sendSignal₀_ret` says when `__send_signal` fails.
-/

namespace LinuxKerDev.Signals

open Lib

variable {a : Arch}

/-! ### What sending looks at -/

inductive Handler
  | dfl
  | ign
  | user
  deriving DecidableEq, Repr

structure SigAction where
  handler : Handler
  noCldStop : Bool
  noCldWait : Bool
  deriving DecidableEq, Repr

/-- A `struct siginfo *`: one of the three special values, or a real one. -/
inductive Info
  | noinfo
  | priv
  | forced
  | real (siSigno : Signal) (siCode : Int)
  deriving DecidableEq, Repr

inductive Cld
  | exited
  | killed
  | dumped
  | trapped
  | stopped
  | continued
  deriving DecidableEq, Repr

/-- What the headers that are not in the repository define. -/
structure Headers (a : Arch) where
  SIGCONT : Signal
  SIGCHLD : Signal
  SIGRTMIN : Nat
  SIG_KERNEL_STOP_MASK : Sigset a
  SIG_KERNEL_IGNORE_MASK : Sigset a
  SIG_KERNEL_COREDUMP_MASK : Sigset a
  PT_SEIZED : BitVec 32
  cld : Cld → Int
  cont_lt : SIGCONT.num < SIGRTMIN
  cont_ignore : sigismember SIG_KERNEL_IGNORE_MASK SIGCONT = true

def sigmaskOf (sigs : List Signal) : Sigset a := sigs.foldl sigaddset fun _ => 0#_

def Headers.x86 (a : Arch) : Headers a where
  SIGCONT := ⟨18, by decide, by decide⟩
  SIGCHLD := ⟨17, by decide, by decide⟩
  SIGRTMIN := 32
  SIG_KERNEL_STOP_MASK := sigmaskOf [⟨19, by decide, by decide⟩, ⟨20, by decide, by decide⟩,
    ⟨21, by decide, by decide⟩, ⟨22, by decide, by decide⟩]
  SIG_KERNEL_IGNORE_MASK := sigmaskOf [⟨18, by decide, by decide⟩, ⟨17, by decide, by decide⟩,
    ⟨28, by decide, by decide⟩, ⟨23, by decide, by decide⟩]
  SIG_KERNEL_COREDUMP_MASK := sigmaskOf [⟨3, by decide, by decide⟩, ⟨4, by decide, by decide⟩,
    ⟨5, by decide, by decide⟩, ⟨6, by decide, by decide⟩, ⟨8, by decide, by decide⟩,
    SIGSEGV, ⟨7, by decide, by decide⟩, ⟨31, by decide, by decide⟩,
    ⟨24, by decide, by decide⟩, ⟨25, by decide, by decide⟩]
  PT_SEIZED := 0x10000
  cld
    | .exited => 1
    | .killed => 2
    | .dumped => 3
    | .trapped => 4
    | .stopped => 5
    | .continued => 6
  cont_lt := by decide
  cont_ignore := by cases a <;> rfl

def SI_USER : Int := 0

def EAGAIN : Int := 11
def ESRCH : Int := 3
def EINVAL : Int := 22
def EPERM : Int := 1

def SIGNAL_STOP_STOPPED : BitVec 32 := 0x1
def SIGNAL_STOP_CONTINUED : BitVec 32 := 0x2
def SIGNAL_GROUP_EXIT : BitVec 32 := 0x4
def SIGNAL_CLD_STOPPED : BitVec 32 := 0x10
def SIGNAL_CLD_CONTINUED : BitVec 32 := 0x20
def SIGNAL_UNKILLABLE : BitVec 32 := 0x40

def JOBCTL_STOP_DEQUEUED : BitVec 32 := 1#32 <<< 16
def JOBCTL_STOP_CONSUME : BitVec 32 := 1#32 <<< 18
def JOBCTL_TRAPPING : BitVec 32 := 1#32 <<< 21
def JOBCTL_LISTENING : BitVec 32 := 1#32 <<< 22

/-- An entry of a pending list.  `prealloc` says which preallocated sigqueue it is. -/
structure Entry where
  signo : Signal
  prealloc : Option Nat
  deriving DecidableEq, Repr

structure Sigqueue where
  signo : Signal
  listed : Bool
  overrun : BitVec 32
  deriving DecidableEq, Repr

structure SignalStruct where
  flags : BitVec 32
  groupStopCount : Nat
  groupExitCode : Nat
  currTarget : Nat
  queue : List Entry
  deriving DecidableEq, Repr

/-- The rest of a thread.  `exiting` is `PF_EXITING`, and `running` is `task_curr`. -/
structure Thread (a : Arch) where
  signal : Nat
  realBlocked : Sigset a
  ptrace : BitVec 32
  exiting : Bool
  running : Bool
  queue : List Entry
  parent : Nat
  realParent : Nat
  groupLeader : Nat
  exitCode : BitVec 32
  parentExecId : Nat
  selfExecId : Nat

structure World (a : Arch) where
  kernel : Kernel a
  thread : Nat → Thread a
  signal : Nat → SignalStruct
  action : Nat → Signal → SigAction
  counters : Nat → Nat → BitVec 32
  sigqueue : Nat → Sigqueue

namespace World

/-- Each task is a process of its own that handles nothing and has been sent nothing. -/
def ofKernel (k : Kernel a) : World a where
  kernel := k
  thread t :=
    { signal := t, realBlocked _ := 0, ptrace := 0, exiting := false, running := false,
      queue := [], parent := t, realParent := t, groupLeader := t, exitCode := 0,
      parentExecId := 0, selfExecId := 0 }
  signal t :=
    { flags := 0, groupStopCount := 0, groupExitCode := 0, currTarget := t, queue := [] }
  action _ _ := ⟨.dfl, false, false⟩
  counters _ _ := 0
  sigqueue _ := ⟨SIGKILL, false, 0⟩

variable (w : World a)

def task (t : Nat) : Task a := w.kernel.task t

def signalOf (t : Nat) : SignalStruct := w.signal (w.thread t).signal

/-- The threads in the order `do ... while_each_thread(p, t)` goes through them. -/
def threads (p : Nat) : List Nat := p :: (w.task p).threadGroup

def onTask (t : Nat) (f : Task a → Task a) : World a :=
  { w with kernel := w.kernel.setTask t (f (w.task t)) }

def onThread (t : Nat) (f : Thread a → Thread a) : World a :=
  { w with thread := Function.update w.thread t (f (w.thread t)) }

def onSignal (t : Nat) (f : SignalStruct → SignalStruct) : World a :=
  { w with signal := Function.update w.signal (w.thread t).signal (f (w.signalOf t)) }

/-- A write to `p->signal->shared_pending.signal`. -/
def onShared (p : Nat) (f : Sigset a → Sigset a) : World a :=
  (w.threads p).foldl
    (fun w t => w.onTask t fun s => { s with sharedPending := f s.sharedPending }) w

/-- The sigqueues of these entries have been taken off their lists. -/
def unlink (removed : List Entry) : World a :=
  { w with sigqueue := fun q =>
    if removed.any (fun e => e.prealloc = some q) = true then { w.sigqueue q with listed := false }
    else w.sigqueue q }

@[simp] theorem onTask_task (t : Nat) (f : Task a → Task a) :
    (w.onTask t f).task = Function.update w.task t (f (w.task t)) := rfl

@[simp] theorem onTask_signal (t : Nat) (f : Task a → Task a) : (w.onTask t f).signal = w.signal :=
  rfl

@[simp] theorem signalOf_onSignal (t : Nat) (f : SignalStruct → SignalStruct) :
    (w.onSignal t f).signalOf t = f (w.signalOf t) := by
  show Function.update w.signal (w.thread t).signal _ (w.thread t).signal = _
  rw [Function.update_self]

@[simp] theorem unlink_signal (removed : List Entry) : (w.unlink removed).signal = w.signal := rfl

theorem onShared_signal (p : Nat) (f : Sigset a → Sigset a) :
    (w.onShared p f).signal = w.signal := by
  have hfold : ∀ (l : List Nat) (w : World a), (l.foldl
      (fun w t => w.onTask t fun s => { s with sharedPending := f s.sharedPending }) w).signal =
        w.signal := by
    intro l
    induction l with
    | nil => exact fun _ => rfl
    | cons t l ih => exact fun w => ih _
  exact hfold _ w

end World

/-! ### Sets and masks -/

def sigdelset (set : Sigset a) (sig : Signal) : Sigset a := fun k =>
  if k.val = (sig.num - 1) / a.nsigBpw then set k &&& ~~~(1#_ <<< ((sig.num - 1) % a.nsigBpw))
  else set k

def sigmask (sig : Signal) : Sigset a := sigmaskOf [sig]

def sigtestsetmask (set mask : Sigset a) : Bool := decide (∃ k, set k &&& mask k ≠ 0#_)

def sigdelsetmask (set mask : Sigset a) : Sigset a := set.diff mask

def siginmask (h : Headers a) (sig : Signal) (mask : Sigset a) : Bool :=
  sig.num < h.SIGRTMIN && sigismember mask sig

def sigKernelStop (h : Headers a) (sig : Signal) : Bool := siginmask h sig h.SIG_KERNEL_STOP_MASK

def sigKernelIgnore (h : Headers a) (sig : Signal) : Bool :=
  siginmask h sig h.SIG_KERNEL_IGNORE_MASK

def sigKernelCoredump (h : Headers a) (sig : Signal) : Bool :=
  siginmask h sig h.SIG_KERNEL_COREDUMP_MASK

def siFromuser : Info → Bool
  | .noinfo => true
  | .real _ code => code ≤ 0
  | _ => false

/-! ### Ignored signals -/

/-- `sig_handler`, for a task that has a `sighand` -/
def sigHandler (w : World a) (t : Nat) (sig : Signal) : Handler :=
  match (w.task t).sighand with
  | some d => (w.action d sig).handler
  | none => .dfl

def sigHandlerIgnored (h : Headers a) (handler : Handler) (sig : Signal) : Bool :=
  handler = .ign || (handler = .dfl && sigKernelIgnore h sig)

def sigTaskIgnored (h : Headers a) (w : World a) (t : Nat) (sig : Signal)
    (fromAncestorNs : Bool) : Bool :=
  if (w.signalOf t).flags &&& SIGNAL_UNKILLABLE ≠ 0 ∧ sigHandler w t sig = .dfl ∧
      fromAncestorNs = false then true
  else sigHandlerIgnored h (sigHandler w t sig) sig

def sigIgnored (h : Headers a) (w : World a) (t : Nat) (sig : Signal)
    (fromAncestorNs : Bool) : Bool :=
  if sigismember (w.task t).blocked sig || sigismember (w.thread t).realBlocked sig then false
  else if !sigTaskIgnored h w t sig fromAncestorNs then false
  else (w.thread t).ptrace = 0

def sigFatal (h : Headers a) (w : World a) (t : Nat) (sig : Signal) : Bool :=
  !sigKernelIgnore h sig && !sigKernelStop h sig && sigHandler w t sig = .dfl

/-! ### `prepare_signal` -/

/-- The entries of a list that `rm_from_queue` takes off. -/
def unqueued (h : Headers a) (mask : Sigset a) (q : Entry) : Bool :=
  q.signo.num < h.SIGRTMIN && sigismember mask q.signo

def rmFromQueue (h : Headers a) (mask : Sigset a) (w : World a) (t : Nat) : World a :=
  if sigtestsetmask (w.task t).pending mask = true then
    let removed := (w.thread t).queue.filter (unqueued h mask)
    let w := w.onTask t fun s => { s with pending := sigdelsetmask s.pending mask }
    (w.onThread t fun m => { m with queue := m.queue.filter fun q => !unqueued h mask q }).unlink
      removed
  else w

def rmFromShared (h : Headers a) (mask : Sigset a) (w : World a) (p : Nat) : World a :=
  if sigtestsetmask (w.task p).sharedPending mask = true then
    let removed := (w.signalOf p).queue.filter (unqueued h mask)
    let w := w.onShared p fun set => sigdelsetmask set mask
    (w.onSignal p fun m => { m with queue := m.queue.filter fun q => !unqueued h mask q }).unlink
      removed
  else w

def taskClearJobctlPending (w : World a) (t : Nat) (mask : BitVec 32) : World a :=
  let mask :=
    if mask &&& JOBCTL_STOP_PENDING ≠ 0 then mask ||| JOBCTL_STOP_CONSUME ||| JOBCTL_STOP_DEQUEUED
    else mask
  w.onTask t fun s =>
    let jobctl := s.jobctl &&& ~~~mask
    -- `task_clear_jobctl_trapping`; the tracer it wakes waits for that bit
    { s with
      jobctl := if jobctl &&& JOBCTL_PENDING_MASK = 0 then jobctl &&& ~~~JOBCTL_TRAPPING else jobctl }

def taskSetTrapNotify (w : World a) (t : Nat) : World a :=
  if fatalSignalPending (w.task t) = true ∨ (w.thread t).exiting = true then w
  else w.onTask t fun s => { s with jobctl := s.jobctl ||| JOBCTL_TRAP_NOTIFY }

def ptraceSignalWakeUp (x : Extern a) (t : Task a) (resume : Bool) : Task a :=
  signalWakeUpState x t (if resume then TASK_TRACED_BIT else 0)

def ptraceTrapNotify (x : Extern a) (w : World a) (t : Nat) : World a :=
  (taskSetTrapNotify w t).onTask t fun s =>
    ptraceSignalWakeUp x s (decide (s.jobctl &&& JOBCTL_LISTENING ≠ 0))

def continueThread (x : Extern a) (h : Headers a) (w : World a) (t : Nat) : World a :=
  let w := taskClearJobctlPending w t JOBCTL_STOP_PENDING
  let w := rmFromQueue h h.SIG_KERNEL_STOP_MASK w t
  if (w.thread t).ptrace &&& h.PT_SEIZED = 0 then
    w.onTask t fun s => x.wakeUpState s TASK_STOPPED_BIT
  else ptraceTrapNotify x w t

/-- What the parent is to be told about a `SIGCONT`. -/
def continuedWhy (m : SignalStruct) : BitVec 32 :=
  if m.flags &&& SIGNAL_STOP_STOPPED ≠ 0 then SIGNAL_CLD_CONTINUED
  else if m.groupStopCount ≠ 0 then SIGNAL_CLD_STOPPED
  else 0

def prepareSignal (x : Extern a) (h : Headers a) (w : World a) (sig : Signal) (p : Nat)
    (fromAncestorNs : Bool) : World a × Bool :=
  let w :=
    if (w.signalOf p).flags &&& SIGNAL_GROUP_EXIT ≠ 0 then w
    else if sigKernelStop h sig = true then
      let w := rmFromShared h (sigmask h.SIGCONT) w p
      (w.threads p).foldl (rmFromQueue h (sigmask h.SIGCONT)) w
    else if sig = h.SIGCONT then
      let w := rmFromShared h h.SIG_KERNEL_STOP_MASK w p
      let w := (w.threads p).foldl (continueThread x h) w
      let why := continuedWhy (w.signalOf p)
      if why ≠ 0 then
        w.onSignal p fun m => { m with
          flags := why ||| SIGNAL_STOP_CONTINUED
          groupStopCount := 0
          groupExitCode := 0 }
      else w
    else w
  (w, !sigIgnored h w p sig fromAncestorNs)

/-! ### `complete_signal` -/

def wantsSignal (w : World a) (sig : Signal) (p : Nat) : Bool :=
  if sigismember (w.task p).blocked sig then false
  else if (w.thread p).exiting then false
  else if sig = SIGKILL then true
  else if (w.task p).state &&& (TASK_STOPPED_BIT ||| TASK_TRACED_BIT) ≠ 0 then false
  else (w.thread p).running || !signalPending (w.task p)

/-- The thread that is to take the signal, with `curr_target` moved on to it when it
is not the one the signal was sent to. -/
def chooseThread (w : World a) (sig : Signal) (p : Nat) (group : Bool) : Option (World a × Nat) :=
  if wantsSignal w sig p = true then some (w, p)
  else if group = false ∨ (w.task p).threadGroup = [] then none
  else
    match (w.threads (w.signalOf p).currTarget).find? (wantsSignal w sig) with
    | none => none
    | some t => some (w.onSignal p fun m => { m with currTarget := t }, t)

/-- The signal takes the whole group down, and dumps no core. -/
def takesGroupDown (h : Headers a) (w : World a) (sig : Signal) (p t : Nat) : Bool :=
  sigFatal h w p sig &&
    decide ((w.signalOf p).flags &&& (SIGNAL_UNKILLABLE ||| SIGNAL_GROUP_EXIT) = 0) &&
    !sigismember (w.thread t).realBlocked sig &&
    (decide (sig = SIGKILL) || decide ((w.thread t).ptrace = 0)) && !sigKernelCoredump h sig

def killThread (x : Extern a) (w : World a) (t : Nat) : World a :=
  (taskClearJobctlPending w t JOBCTL_PENDING_MASK).onTask t fun s =>
    signalWakeUp x { s with pending := sigaddset s.pending SIGKILL } true

def completeSignal (x : Extern a) (h : Headers a) (w : World a) (sig : Signal) (p : Nat)
    (group : Bool) : World a :=
  match chooseThread w sig p group with
  | none => w
  | some (w, t) =>
    if takesGroupDown h w sig p t = true then
      let w := w.onSignal p fun m => { m with
        flags := SIGNAL_GROUP_EXIT
        groupExitCode := sig.num
        groupStopCount := 0 }
      (w.threads p).foldl (killThread x) w
    else w.onTask t fun s => signalWakeUp x s (decide (sig = SIGKILL))

/-! ### `__send_signal` -/

def pendingSet (w : World a) (t : Nat) (group : Bool) : Sigset a :=
  if group = true then (w.task t).sharedPending else (w.task t).pending

def legacyQueue (h : Headers a) (pending : Sigset a) (sig : Signal) : Bool :=
  sig.num < h.SIGRTMIN && sigismember pending sig

def addPending (w : World a) (t : Nat) (group : Bool) (sig : Signal) : World a :=
  if group = true then w.onShared t fun set => sigaddset set sig
  else w.onTask t fun s => { s with pending := sigaddset s.pending sig }

def addEntry (w : World a) (t : Nat) (group : Bool) (q : Entry) : World a :=
  if group = true then w.onSignal t fun m => { m with queue := m.queue ++ [q] }
  else w.onThread t fun m => { m with queue := m.queue ++ [q] }

def outSet (x : Extern a) (h : Headers a) (w : World a) (sig : Signal) (t : Nat)
    (group : Bool) : World a :=
  completeSignal x h (addPending w t group sig) sig t group

def entrySigno (info : Info) (sig : Signal) : Signal :=
  match info with
  | .real signo _ => signo
  | _ => sig

/-- `__send_signal`.  `alloc` is whether `__sigqueue_alloc` gets its memory. -/
def sendSignal₀ (x : Extern a) (h : Headers a) (alloc : Bool) (w : World a) (sig : Signal)
    (info : Info) (t : Nat) (group fromAncestorNs : Bool) : World a × Int :=
  let (w, deliver) := prepareSignal x h w sig t fromAncestorNs
  if deliver = false then (w, 0)
  else if legacyQueue h (pendingSet w t group) sig = true then (w, 0)
  else if info = .forced then (outSet x h w sig t group, 0)
  else if alloc = true then
    (outSet x h (addEntry w t group ⟨entrySigno info sig, none⟩) sig t group, 0)
  else
    match info with
    | .real _ code =>
      if h.SIGRTMIN ≤ sig.num ∧ code ≠ SI_USER then (w, -EAGAIN)
      else (outSet x h w sig t group, 0)
    | _ => (outSet x h w sig t group, 0)

/-- `send_signal`.  `hidden` is whether the sender has no pid where the target is. -/
def sendSignal (x : Extern a) (h : Headers a) (alloc hidden : Bool) (w : World a) (sig : Signal)
    (info : Info) (t : Nat) (group : Bool) : World a × Int :=
  sendSignal₀ x h alloc w sig info t group (siFromuser info && hidden)

/-! ### What is left alone -/

/-- The task is who it was, and an uninterruptible sleep goes on. -/
structure SleepsOn (s s' : Task a) : Prop where
  sighand : s'.sighand = s.sighand
  threadGroup : s'.threadGroup = s.threadGroup
  exitState : s'.exitState = s.exitState
  asleep : s.state = TASK_UNINTERRUPTIBLE → s'.state = TASK_UNINTERRUPTIBLE

structure SparesTask (s s' : Task a) : Prop extends SleepsOn s s' where
  blocked : s'.blocked = s.blocked

structure SparesThread (m m' : Thread a) : Prop where
  signal : m'.signal = m.signal
  realBlocked : m'.realBlocked = m.realBlocked
  ptrace : m'.ptrace = m.ptrace

/-- What `__send_signal` leaves alone. -/
structure Spares (w w' : World a) : Prop where
  pids : w'.kernel.pids = w.kernel.pids
  task : ∀ t, SparesTask (w.task t) (w'.task t)
  thread : ∀ t, SparesThread (w.thread t) (w'.thread t)
  action : w'.action = w.action
  counters : w'.counters = w.counters

/-- What no way of sending changes. -/
structure AllSleepOn (w w' : World a) : Prop where
  pids : w'.kernel.pids = w.kernel.pids
  task : ∀ t, SleepsOn (w.task t) (w'.task t)

/-- What only `do_send_sig_info` changes is left alone as well. -/
structure Uncounted (w w' : World a) : Prop extends AllSleepOn w w' where
  counters : w'.counters = w.counters

namespace SleepsOn

theorem refl (s : Task a) : SleepsOn s s := ⟨rfl, rfl, rfl, id⟩

theorem trans {s s' s'' : Task a} (h : SleepsOn s s') (h' : SleepsOn s' s'') : SleepsOn s s'' :=
  ⟨h'.sighand.trans h.sighand, h'.threadGroup.trans h.threadGroup,
    h'.exitState.trans h.exitState, fun hs => h'.asleep (h.asleep hs)⟩

end SleepsOn

theorem AllSleepOn.refl (w : World a) : AllSleepOn w w := ⟨rfl, fun _ => .refl _⟩

theorem AllSleepOn.trans {w w' w'' : World a} (h : AllSleepOn w w') (h' : AllSleepOn w' w'') :
    AllSleepOn w w'' := ⟨h'.pids.trans h.pids, fun t => (h.task t).trans (h'.task t)⟩

theorem Uncounted.refl (w : World a) : Uncounted w w := ⟨.refl w, rfl⟩

theorem Uncounted.trans {w w' w'' : World a} (h : Uncounted w w') (h' : Uncounted w' w'') :
    Uncounted w w'' := ⟨h.toAllSleepOn.trans h'.toAllSleepOn, h'.counters.trans h.counters⟩

namespace SparesTask

theorem refl (s : Task a) : SparesTask s s := ⟨.refl s, rfl⟩

theorem trans {s s' s'' : Task a} (h : SparesTask s s') (h' : SparesTask s' s'') :
    SparesTask s s'' := ⟨h.toSleepsOn.trans h'.toSleepsOn, h'.blocked.trans h.blocked⟩

theorem pending (s : Task a) (set : Sigset a) : SparesTask s { s with pending := set } :=
  ⟨⟨rfl, rfl, rfl, id⟩, rfl⟩

theorem sharedPending (s : Task a) (set : Sigset a) :
    SparesTask s { s with sharedPending := set } := ⟨⟨rfl, rfl, rfl, id⟩, rfl⟩

theorem jobctl (s : Task a) (flags : BitVec 32) : SparesTask s { s with jobctl := flags } :=
  ⟨⟨rfl, rfl, rfl, id⟩, rfl⟩

theorem tifSigpending (s : Task a) : SparesTask s { s with tifSigpending := true } :=
  ⟨⟨rfl, rfl, rfl, id⟩, rfl⟩

theorem wakeUpState (x : Extern a) (s : Task a) {m : BitVec 32}
    (hm : TASK_UNINTERRUPTIBLE &&& m = 0) : SparesTask s (x.wakeUpState s m) := by
  rw [x.wakeUpState_eq]
  refine ⟨⟨rfl, rfl, rfl, fun hs => ?_⟩, rfl⟩
  rw [hs, if_pos hm]

theorem signalWakeUpState (x : Extern a) (s : Task a) {m : BitVec 32}
    (hm : TASK_UNINTERRUPTIBLE &&& (m ||| TASK_INTERRUPTIBLE) = 0) :
    SparesTask s (signalWakeUpState x s m) :=
  (tifSigpending s).trans (wakeUpState x _ hm)

theorem signalWakeUp (x : Extern a) (s : Task a) (resume : Bool) :
    SparesTask s (signalWakeUp x s resume) := by
  cases resume
  · exact signalWakeUpState x s (by decide)
  · exact signalWakeUpState x s (by decide)

theorem signalWakeUp_pending (x : Extern a) (s : Task a) (set : Sigset a) (resume : Bool) :
    SparesTask s (Signals.signalWakeUp x { s with pending := set } resume) :=
  (pending s set).trans (signalWakeUp x _ resume)

theorem ptraceSignalWakeUp (x : Extern a) (s : Task a) (resume : Bool) :
    SparesTask s (ptraceSignalWakeUp x s resume) := by
  cases resume
  · exact signalWakeUpState x s (by decide)
  · exact signalWakeUpState x s (by decide)

end SparesTask

theorem SparesThread.refl (m : Thread a) : SparesThread m m := ⟨rfl, rfl, rfl⟩

theorem SparesThread.trans {m m' m'' : Thread a} (h : SparesThread m m')
    (h' : SparesThread m' m'') : SparesThread m m'' :=
  ⟨h'.signal.trans h.signal, h'.realBlocked.trans h.realBlocked, h'.ptrace.trans h.ptrace⟩

namespace Spares

theorem uncounted {w w' : World a} (h : Spares w w') : Uncounted w w' :=
  ⟨⟨h.pids, fun t => (h.task t).toSleepsOn⟩, h.counters⟩

theorem refl (w : World a) : Spares w w := ⟨rfl, fun _ => .refl _, fun _ => .refl _, rfl, rfl⟩

theorem trans {w w' w'' : World a} (h : Spares w w') (h' : Spares w' w'') : Spares w w'' :=
  ⟨h'.pids.trans h.pids, fun t => (h.task t).trans (h'.task t),
    fun t => (h.thread t).trans (h'.thread t), h'.action.trans h.action,
    h'.counters.trans h.counters⟩

theorem onTask (w : World a) (t : Nat) {f : Task a → Task a}
    (hf : SparesTask (w.task t) (f (w.task t))) : Spares w (w.onTask t f) := by
  refine ⟨rfl, fun u => ?_, fun _ => .refl _, rfl, rfl⟩
  rw [World.onTask_task]
  by_cases hu : u = t
  · subst hu
    rw [Function.update_self]
    exact hf
  · rw [Function.update_of_ne hu]
    exact .refl _

theorem onThread (w : World a) (t : Nat) {f : Thread a → Thread a}
    (hf : SparesThread (w.thread t) (f (w.thread t))) : Spares w (w.onThread t f) := by
  refine ⟨rfl, fun _ => .refl _, fun u => ?_, rfl, rfl⟩
  show SparesThread (w.thread u) (Function.update w.thread t (f (w.thread t)) u)
  by_cases hu : u = t
  · subst hu
    rw [Function.update_self]
    exact hf
  · rw [Function.update_of_ne hu]
    exact .refl _

theorem onSignal (w : World a) (t : Nat) (f : SignalStruct → SignalStruct) :
    Spares w (w.onSignal t f) := ⟨rfl, fun _ => .refl _, fun _ => .refl _, rfl, rfl⟩

theorem unlink (w : World a) (removed : List Entry) : Spares w (w.unlink removed) :=
  ⟨rfl, fun _ => .refl _, fun _ => .refl _, rfl, rfl⟩

theorem foldl {f : World a → Nat → World a} (hf : ∀ w t, Spares w (f w t)) :
    ∀ (l : List Nat) (w : World a), Spares w (l.foldl f w) := by
  intro l
  induction l with
  | nil => exact refl
  | cons t l ih => exact fun w => (hf w t).trans (ih (f w t))

theorem onShared (w : World a) (p : Nat) (f : Sigset a → Sigset a) : Spares w (w.onShared p f) :=
  foldl (fun w t => onTask w t (.sharedPending _ _)) _ w

section

variable (x : Extern a) (h : Headers a)

theorem rmFromQueue (mask : Sigset a) (w : World a) (t : Nat) :
    Spares w (rmFromQueue h mask w t) := by
  unfold Signals.rmFromQueue
  split
  · exact ((onTask w t (.pending _ _)).trans (onThread _ _ ⟨rfl, rfl, rfl⟩)).trans (unlink _ _)
  · exact refl w

theorem rmFromShared (mask : Sigset a) (w : World a) (p : Nat) :
    Spares w (rmFromShared h mask w p) := by
  unfold Signals.rmFromShared
  split
  · exact ((onShared w p _).trans (onSignal _ _ _)).trans (unlink _ _)
  · exact refl w

theorem taskClearJobctlPending (w : World a) (t : Nat) (mask : BitVec 32) :
    Spares w (taskClearJobctlPending w t mask) := by
  unfold Signals.taskClearJobctlPending
  exact onTask w t (.jobctl _ _)

theorem taskSetTrapNotify (w : World a) (t : Nat) : Spares w (taskSetTrapNotify w t) := by
  unfold Signals.taskSetTrapNotify
  split
  · exact refl w
  · exact onTask w t (.jobctl _ _)

theorem ptraceTrapNotify (w : World a) (t : Nat) : Spares w (ptraceTrapNotify x w t) :=
  (taskSetTrapNotify w t).trans (onTask _ _ (SparesTask.ptraceSignalWakeUp x _ _))

theorem continueThread (w : World a) (t : Nat) : Spares w (continueThread x h w t) := by
  have hclear := taskClearJobctlPending w t JOBCTL_STOP_PENDING
  have hrm := rmFromQueue h h.SIG_KERNEL_STOP_MASK
    (Signals.taskClearJobctlPending w t JOBCTL_STOP_PENDING) t
  dsimp only [Signals.continueThread]
  refine (hclear.trans hrm).trans ?_
  split
  · exact onTask _ _ (SparesTask.wakeUpState x _ (by decide))
  · exact ptraceTrapNotify x _ _

theorem prepareSignal (w : World a) (sig : Signal) (p : Nat) (fromAncestorNs : Bool) :
    Spares w (prepareSignal x h w sig p fromAncestorNs).1 := by
  dsimp only [Signals.prepareSignal]
  split_ifs
  · exact refl w
  · exact (rmFromShared h _ w p).trans (foldl (rmFromQueue h _) _ _)
  · exact ((rmFromShared h _ w p).trans (foldl (continueThread x h) _ _)).trans (onSignal _ _ _)
  · exact (rmFromShared h _ w p).trans (foldl (continueThread x h) _ _)
  · exact refl w

theorem killThread (w : World a) (t : Nat) : Spares w (killThread x w t) := by
  refine (taskClearJobctlPending w t JOBCTL_PENDING_MASK).trans (onTask _ t ?_)
  exact SparesTask.signalWakeUp_pending x _ _ true

theorem chooseThread {w w' : World a} {sig : Signal} {p t : Nat} {group : Bool}
    (hc : chooseThread w sig p group = some (w', t)) : Spares w w' := by
  unfold Signals.chooseThread at hc
  split_ifs at hc
  · obtain ⟨rfl, -⟩ := Prod.mk.inj (Option.some.inj hc)
    exact refl w
  · split at hc
    · cases hc
    · obtain ⟨rfl, -⟩ := Prod.mk.inj (Option.some.inj hc)
      exact onSignal w p _

theorem completeSignal (w : World a) (sig : Signal) (p : Nat) (group : Bool) :
    Spares w (completeSignal x h w sig p group) := by
  unfold Signals.completeSignal
  split
  · exact refl w
  · next w' t hc =>
    refine (chooseThread hc).trans ?_
    split
    · exact (onSignal w' p _).trans (foldl (killThread x) _ _)
    · exact onTask w' t (SparesTask.signalWakeUp x _ _)

theorem addPending (w : World a) (t : Nat) (group : Bool) (sig : Signal) :
    Spares w (addPending w t group sig) := by
  unfold Signals.addPending
  split
  · exact onShared w t _
  · exact onTask w t (.pending _ _)

theorem addEntry (w : World a) (t : Nat) (group : Bool) (q : Entry) :
    Spares w (addEntry w t group q) := by
  unfold Signals.addEntry
  split
  · exact onSignal w t _
  · exact onThread w t ⟨rfl, rfl, rfl⟩

theorem outSet (w : World a) (sig : Signal) (t : Nat) (group : Bool) :
    Spares w (outSet x h w sig t group) :=
  (addPending w t group sig).trans (completeSignal x h _ sig t group)

/-- **`__send_signal` leaves uninterruptible sleeps and the counters alone.** -/
theorem sendSignal₀ (alloc : Bool) (w : World a) (sig : Signal) (info : Info) (t : Nat)
    (group fromAncestorNs : Bool) :
    Spares w (sendSignal₀ x h alloc w sig info t group fromAncestorNs).1 := by
  have hp := prepareSignal x h w sig t fromAncestorNs
  unfold Signals.sendSignal₀
  split
  next w' deliver he =>
  rw [he] at hp
  have hout : ∀ w'', Spares w' w'' → Spares w (Signals.outSet x h w'' sig t group) := fun w'' hw =>
    (hp.trans hw).trans (outSet x h w'' sig t group)
  split_ifs
  · exact hp
  · exact hp
  · exact hout _ (refl w')
  · exact hout _ (addEntry w' t group _)
  · split
    · split_ifs
      · exact hp
      · exact hout _ (refl w')
    · exact hout _ (refl w')

end

end Spares

/-! ### When it fails -/

section

variable (x : Extern a) (h : Headers a) (w : World a) (sig : Signal) (t : Nat)
  (fromAncestorNs : Bool)

def SameFlags (w w' : World a) : Prop := ∀ i, (w'.signal i).flags = (w.signal i).flags

theorem rmFromQueue_signal (mask : Sigset a) : (rmFromQueue h mask w t).signal = w.signal := by
  unfold rmFromQueue
  split
  · rfl
  · rfl

theorem sameFlags_rmFromShared (mask : Sigset a) : SameFlags w (rmFromShared h mask w t) := by
  intro i
  unfold rmFromShared
  split
  · rw [World.unlink_signal]
    show (Function.update (w.onShared t _).signal _ _ i).flags = _
    rw [Function.update_apply]
    split
    · next hi => rw [hi, World.signalOf, World.onShared_signal]
    · rw [World.onShared_signal]
  · rfl

theorem sameFlags_rmFromQueues (mask : Sigset a) (l : List Nat) :
    SameFlags w (l.foldl (rmFromQueue h mask) w) := by
  induction l generalizing w with
  | nil => exact fun _ => rfl
  | cons t l ih => exact fun i => (ih _ i).trans (by rw [rmFromQueue_signal])

theorem sigKernelIgnore_cont : sigKernelIgnore h h.SIGCONT = true := by
  rw [sigKernelIgnore, siginmask, h.cont_ignore, decide_eq_true h.cont_lt]
  rfl

/-- A signal that is ignored by default does not depend on `SIGNAL_UNKILLABLE`. -/
theorem sigTaskIgnored_of_kernelIgnore (hk : sigKernelIgnore h sig = true) :
    sigTaskIgnored h w t sig fromAncestorNs = sigHandlerIgnored h (sigHandler w t sig) sig := by
  unfold sigTaskIgnored
  split
  · next hd => rw [sigHandlerIgnored, hd.2.1, hk]; rfl
  · rfl

theorem sigHandler_of_spares {w w' : World a} (hs : Spares w w') :
    sigHandler w' t sig = sigHandler w t sig := by
  rw [sigHandler, sigHandler, (hs.task t).sighand, hs.action]

theorem sigIgnored_of_spares {w w' : World a} (hs : Spares w w')
    (hf : SameFlags w w' ∨ sigKernelIgnore h sig = true) :
    sigIgnored h w' t sig fromAncestorNs = sigIgnored h w t sig fromAncestorNs := by
  have htask : sigTaskIgnored h w' t sig fromAncestorNs = sigTaskIgnored h w t sig fromAncestorNs := by
    rcases hf with hf | hk
    · rw [sigTaskIgnored, sigTaskIgnored, sigHandler_of_spares sig t hs, World.signalOf,
        World.signalOf, (hs.thread t).signal, hf]
    · rw [sigTaskIgnored_of_kernelIgnore h _ sig t _ hk, sigTaskIgnored_of_kernelIgnore h _ sig t _ hk,
        sigHandler_of_spares sig t hs]
  rw [sigIgnored, sigIgnored, htask, (hs.task t).blocked, (hs.thread t).realBlocked,
    (hs.thread t).ptrace]

/-- **What `prepare_signal` answers** can be told before it starts. -/
theorem prepareSignal_deliver :
    (prepareSignal x h w sig t fromAncestorNs).2 = !sigIgnored h w t sig fromAncestorNs := by
  have hs := Spares.prepareSignal x h w sig t fromAncestorNs
  show (!sigIgnored h (prepareSignal x h w sig t fromAncestorNs).1 t sig fromAncestorNs) = _
  refine congrArg _ (sigIgnored_of_spares h sig t fromAncestorNs hs ?_)
  by_cases hc : sig = h.SIGCONT
  · exact Or.inr (hc ▸ sigKernelIgnore_cont h)
  · refine Or.inl fun i => ?_
    dsimp only [prepareSignal]
    rw [if_neg hc]
    split_ifs
    · rfl
    · exact (sameFlags_rmFromQueues h _ _ _ i).trans (sameFlags_rmFromShared h w t _ i)
    · rfl

theorem legacyQueue_of_le (set : Sigset a) {sig : Signal} (hrt : h.SIGRTMIN ≤ sig.num) :
    legacyQueue h set sig = false := by
  rw [legacyQueue, decide_eq_false (by omega), Bool.false_and]

/-- A signal that has to be queued, and no memory for it. -/
def mustQueue (alloc : Bool) (info : Info) : Bool :=
  match info with
  | .real _ code => decide (h.SIGRTMIN ≤ sig.num) && decide (code ≠ SI_USER) && !alloc
  | _ => false

theorem le_of_mustQueue {alloc : Bool} {info : Info} (hm : mustQueue h sig alloc info = true) :
    h.SIGRTMIN ≤ sig.num := by
  cases info with
  | real signo code =>
    rw [mustQueue, Bool.and_eq_true, Bool.and_eq_true, decide_eq_true_eq] at hm
    exact hm.1.1
  | noinfo => cases hm
  | priv => cases hm
  | forced => cases hm

/-- The same, of a signal that is not ignored. -/
def overflows (alloc : Bool) (info : Info) : Bool :=
  mustQueue h sig alloc info && !sigIgnored h w t sig fromAncestorNs

def sendRet (failed : Bool) : Int := if failed = true then -EAGAIN else 0

theorem sendRet_eq_zero (failed : Bool) : sendRet failed = 0 ↔ failed = false := by
  cases failed with
  | false => exact iff_of_true rfl rfl
  | true => exact iff_of_false (by decide) nofun

theorem mustQueue_of_alloc (info : Info) : mustQueue h sig true info = false := by
  cases info with
  | real signo code => rw [mustQueue, Bool.not_true, Bool.and_false]
  | _ => rfl

variable {h sig} in
theorem mustQueue_of_legacy {set : Sigset a} (hl : legacyQueue h set sig = true) (alloc : Bool)
    (info : Info) : mustQueue h sig alloc info = false := by
  refine Bool.eq_false_iff.mpr fun hm => ?_
  rw [legacyQueue_of_le h set (le_of_mustQueue h sig hm)] at hl
  cases hl

/-- What `__send_signal` comes to, with `w'` what `prepare_signal` has left. -/
inductive Sent (alloc : Bool) (info : Info) (group ignored : Bool) (w' : World a) :
    World a × Int → Prop
  | ignored (hi : ignored = true) : Sent alloc info group ignored w' (w', 0)
  | pending (hi : ignored = false) (hl : legacyQueue h (pendingSet w' t group) sig = true) :
      Sent alloc info group ignored w' (w', 0)
  | failed (hi : ignored = false) (hm : mustQueue h sig alloc info = true) :
      Sent alloc info group ignored w' (w', -EAGAIN)
  | out (hi : ignored = false) (hm : mustQueue h sig alloc info = false) {v : World a}
      (hv : v = w' ∨ ∃ q, v = addEntry w' t group q) :
      Sent alloc info group ignored w' (outSet x h v sig t group, 0)

/-- **Everything `__send_signal` can do.** -/
theorem sendSignal₀_cases (alloc : Bool) (info : Info) (group : Bool) :
    Sent x h sig t alloc info group (sigIgnored h w t sig fromAncestorNs)
      (prepareSignal x h w sig t fromAncestorNs).1
      (sendSignal₀ x h alloc w sig info t group fromAncestorNs) := by
  have hd := prepareSignal_deliver x h w sig t fromAncestorNs
  unfold sendSignal₀
  split
  next w' deliver he =>
  rw [he] at hd ⊢
  have hyes : ¬ deliver = false → sigIgnored h w t sig fromAncestorNs = false := by
    intro hno
    cases hi : sigIgnored h w t sig fromAncestorNs with
    | false => rfl
    | true =>
      rw [hi] at hd
      exact absurd hd hno
  split_ifs with hno hlegacy hforced halloc
  · rw [hno] at hd
    exact .ignored (by simpa using hd.symm)
  · exact .pending (hyes hno) hlegacy
  · subst hforced
    exact .out (hyes hno) rfl (Or.inl rfl)
  · subst halloc
    exact .out (hyes hno) (mustQueue_of_alloc h sig info) (Or.inr ⟨_, rfl⟩)
  · cases info with
    | real signo code =>
      have hfalse : alloc = false := Bool.eq_false_iff.mpr halloc
      simp only
      split_ifs with hq
      · exact .failed (hyes hno) (by simp [mustQueue, hq, hfalse])
      · refine .out (hyes hno) ?_ (Or.inl rfl)
        rw [mustQueue, ← Bool.decide_and, decide_eq_false hq, Bool.false_and]
    | _ => exact .out (hyes hno) rfl (Or.inl rfl)

/-- **`__send_signal` fails exactly on an overflow.** -/
theorem sendSignal₀_ret (alloc : Bool) (info : Info) (group : Bool) :
    (sendSignal₀ x h alloc w sig info t group fromAncestorNs).2 =
      sendRet (overflows h w sig t fromAncestorNs alloc info) := by
  have hs := sendSignal₀_cases x h w sig t fromAncestorNs alloc info group
  rw [overflows]
  generalize sendSignal₀ x h alloc w sig info t group fromAncestorNs = r at hs ⊢
  cases hs with
  | ignored hi =>
    rw [hi, Bool.not_true, Bool.and_false]
    rfl
  | pending _ hl =>
    rw [mustQueue_of_legacy hl alloc info]
    rfl
  | failed hi hm =>
    rw [hi, hm]
    rfl
  | out _ hm _ =>
    rw [hm]
    rfl

end

end LinuxKerDev.Signals
