import LinuxKerDev.Signals.Deliver

/-!
# Processes that signal each other

The system that `signal.c` is a part of: any number of processes of any number of threads,
each thread at a place of its own (`Pc`), and a `siglock` for each `sighand`.  A step is a
thread's, from one change of its lock to the next, or that of somebody who sends a signal,
wakes a thread, moves it on or off a processor, or traces it.  What a thread does while it
has the lock is one step, but for `get_signal_to_deliver`: there every round of the loop is a
step, and the lock is held between them.  A thread takes its own lock and gives it back with
`spinLock` and `spinUnlock`; a step that needs somebody else's waits until it is free.

`schedule`, `do_group_exit`, `do_coredump` and what a debugger does are not in `signal.c`.
`Outer` is what is assumed of them.  The set of the threads does not change, nobody starts or
ends to trace anybody, and the mask of a thread changes by its own system calls.
-/

namespace LinuxKerDev.Signals.Machine

open Lib

variable {a : Arch}

/-! ### Where a thread is -/

inductive Caller
  | jobctlTrap (seized : Bool)
  | signal (sig : Signal) (info : Siginfo)
  /-- `ptrace_notify`, which `do_exit` calls as well -/
  | notify (exits : Bool)

structure Trap where
  why : Cld
  gstopDone : Bool
  clearCode : Bool
  caller : Caller

inductive Wait (a : Arch)
  | plain
  | pause
  | suspend
  /-- `do_sigtimedwait`, with the signals it does not wait for -/
  | timed (mask : Sigset a)
  /-- `do_signal_stop` -/
  | stop
  /-- `ptrace_stop` -/
  | trap (trap : Trap)

/-- What a thread does once the parents have been notified. -/
inductive Then
  | relock
  | stop
  | trap (trap : Trap)
  | untrapped (trap : Trap)
  | gone

/-- A call of `do_notify_parent_cldstop`. -/
structure Notice where
  tsk : Nat
  forPtracer : Bool
  why : Cld
  deriving DecidableEq, Repr

inductive Pc (a : Arch)
  /-- in user mode, or in the kernel with nothing of this going on -/
  | user
  /-- about to set its state -/
  | toSleep (k : Wait a) (state : BitVec 32)
  /-- about to call `schedule` -/
  | nap (k : Wait a)
  | asleep (k : Wait a)
  /-- back at the loop of `pause` -/
  | paused
  /-- back in `do_sigtimedwait` -/
  | waited (mask : Sigset a)
  /-- at `relock` -/
  | relock
  /-- with these notices still to be given -/
  | telling (todo : List Notice) (k : Then)
  /-- at the head of the loop, with the lock -/
  | locked
  /-- in `do_schedule_next_timer` -/
  | rearm (sig : Signal) (info : Siginfo)
  /-- in `is_current_pgrp_orphaned` -/
  | orphan (info : Siginfo)
  /-- in `ptrace_stop`, with the lock just dropped -/
  | trapping (trap : Trap)
  /-- in `ptrace_stop`, and about to take the lock again -/
  | untrapped (trap : Trap)
  /-- in `do_coredump`; `started` is whether it makes the process exit -/
  | dumping (started : Bool)
  /-- in `do_group_exit` or `do_exit` -/
  | dying
  | gone

/-- The thread has the lock. -/
def Pc.isLocked : Pc a → Bool
  | .locked => true
  | _ => false

def Wait.after : Wait a → Pc a
  | .plain => .user
  | .pause => .paused
  | .suspend => .user
  | .timed mask => .waited mask
  | .stop => .relock
  | .trap tr => .untrapped tr

def Then.pc : Then → Pc a
  | .relock => .relock
  | .stop => .nap .stop
  | .trap tr => .nap (.trap tr)
  | .untrapped tr => .untrapped tr
  | .gone => .gone

/-! ### The system -/

/-- `holder` is who has the lock of a `sighand`, `saMask` and `oneshot` the rest of an action,
and `saved` is `saved_sigmask` where it is to be restored. -/
structure Sys (a : Arch) where
  world : World a
  pc : Nat → Pc a
  holder : Nat → Option Nat
  saMask : Nat → Signal → Sigset a
  oneshot : Nat → Signal → Bool
  saved : Nat → Option (Sigset a)

/-- A call on the `siglock` of the thread. -/
inductive LockCall
  | spinLock
  | spinUnlock
  deriving DecidableEq, Repr

inductive Event
  | warning (w : Warning)
  /-- the thread takes a lock that it has, or gives back one that it has not -/
  | misused (t : Nat) (call : LockCall)
  /-- the thread has completed a group stop -/
  | completed (t : Nat)
  /-- a parent has been notified -/
  | cldstop (notice : Notice)
  /-- the handler is to be run -/
  | handled (t : Nat) (sig : Signal)
  /-- a stop signal is acted on -/
  | stopping (t : Nat) (sig : Signal)
  | fatal (t : Nat) (sig : Signal)
  /-- what `do_sigtimedwait` returns -/
  | returned (t : Nat) (sig : Option Signal)
  deriving DecidableEq, Repr

namespace Sys

variable (s : Sys a)

def lockFree (t : Nat) : Bool :=
  match (s.world.task t).sighand with
  | none => false
  | some d => s.holder d = none

/-- `spin_lock_irq`, which waits as long as another thread has the lock. -/
def spinLock (t : Nat) : Option (Sys a × List Event) :=
  match (s.world.task t).sighand with
  | none => none
  | some d =>
    match s.holder d with
    | none => some ({ s with holder := Function.update s.holder d (some t) }, [])
    | some u => if u = t then some (s, [.misused t .spinLock]) else none

/-- `spin_unlock_irq`, which does not look whose the lock is. -/
def spinUnlock (t : Nat) : Sys a × List Event :=
  match (s.world.task t).sighand with
  | none => (s, [.misused t .spinUnlock])
  | some d =>
    ({ s with holder := Function.update s.holder d none },
      if s.holder d = some t then [] else [.misused t .spinUnlock])

def goto (t : Nat) (pc : Pc a) : Sys a := { s with pc := Function.update s.pc t pc }

def setWorld (w : World a) : Sys a := { s with world := w }

end Sys

/-! ### `get_signal_to_deliver` -/

/-- What a thread that has the lock has come to, and whether it has called `spin_unlock_irq`
on its way. -/
structure Round (a : Arch) where
  world : World a
  pc : Pc a
  events : List Event
  unlocks : Bool

/-- The thread is where the round has left it. -/
def Sys.finish (s : Sys a) (t : Nat) (r : Round a) : Sys a × List Event :=
  let s := s.setWorld r.world
  if r.unlocks = true then ((s.spinUnlock t).1.goto t r.pc, r.events ++ (s.spinUnlock t).2)
  else (s.goto t r.pc, r.events)

/-- The thread takes its lock, and has it for the round. -/
def Sys.locked (s : Sys a) (t : Nat) (r : Round a) : Option (Sys a × List Event) :=
  (s.spinLock t).map fun q => ((q.1.finish t r).1, q.2 ++ (q.1.finish t r).2)

def completedEvent (t : Nat) (done : Bool) : List Event :=
  if done = true then [.completed t] else []

def completedNotice (t : Nat) (done : Bool) : List Notice :=
  if done = true then [⟨t, false, .stopped⟩] else []

/-- `si_signo`, for `do_signal_stop` -/
def signr (info : Siginfo) : BitVec 32 := BitVec.ofNat 32 info.siSigno.num

section

variable (x : Extern a) (h : Headers a) (j : JobHeaders a) (i : Infos)

/-- `do_signal_stop`, and where the thread is then. -/
def stopRound (w : World a) (t : Nat) (signr : BitVec 32) : Round a :=
  let (w, stopped, warnings) := doSignalStop x h w t signr
  match stopped with
  | some notify =>
    ⟨w, .telling (completedNotice t notify) .stop,
      warnings.map .warning ++ completedEvent t notify, true⟩
  | none => ⟨w, .locked, warnings.map .warning, false⟩

/-- `ptrace_stop`, and where the thread is then. -/
def trapRound (w : World a) (t : Nat) (exitCode : BitVec 32) (why : Cld)
    (clearCode event : Bool) (caller : Caller) : Round a :=
  let (w, gstopDone, warnings) := ptraceStop w t exitCode why event
  ⟨w, .trapping ⟨why, gstopDone, clearCode, caller⟩,
    warnings.map .warning ++ completedEvent t gstopDone, true⟩

def doJobctlTrap (w : World a) (t : Nat) : Round a :=
  let signr := (w.task t).jobctl &&& JOBCTL_STOP_SIGMASK
  let seized := decide ((w.thread t).ptrace &&& h.PT_SEIZED ≠ 0)
  let signr :=
    if seized = true ∧ (w.signalOf t).groupStopCount = 0 ∧
        (w.signalOf t).flags &&& SIGNAL_STOP_STOPPED = 0 then
      BitVec.ofNat 32 j.sync.SIGTRAP.num
    else signr
  let r :=
    if seized = true then
      trapRound w t (signr ||| j.PTRACE_EVENT_STOP <<< 8) .stopped true true (.jobctlTrap true)
    else trapRound w t signr .stopped false false (.jobctlTrap false)
  { r with events := (if signr = 0 then [.warning .noSigno] else []) ++ r.events }

/-- The end of a round of the loop, on a signal that no debugger has a say in any more. -/
def actOn (oneshot : Nat → Signal → Bool) (w : World a) (t : Nat) (sig : Signal)
    (info : Siginfo) : Round a :=
  match (w.task t).sighand with
  | none => ⟨w, .locked, [], false⟩
  | some d =>
    match (w.action d sig).handler with
    | .ign => ⟨w, .locked, [], false⟩
    | .user =>
      ⟨if oneshot d sig = true then w.setHandler d sig .dfl else w, .user, [.handled t sig], true⟩
    | .dfl =>
      if sigKernelIgnore h sig = true then ⟨w, .locked, [], false⟩
      else if (w.signalOf t).flags &&& SIGNAL_UNKILLABLE ≠ 0 ∧ sigKernelOnly h j sig = false then
        ⟨w, .locked, [], false⟩
      else if sigKernelStop h sig = true then
        if sig ≠ j.SIGSTOP then ⟨w, .orphan info, [.stopping t sig], true⟩
        else
          let r := stopRound x h w t (signr info)
          { r with events := .stopping t sig :: r.events }
      else if sigKernelCoredump h sig = true then ⟨w, .dumping false, [.fatal t sig], true⟩
      else ⟨w, .dying, [.fatal t sig], true⟩

/-- The loop from the signal on that has been dequeued. -/
def afterDequeue (oneshot : Nat → Signal → Bool) (w : World a) (t : Nat) (sig : Signal)
    (info : Siginfo) : Round a :=
  if (w.thread t).ptrace ≠ 0 ∧ sig ≠ SIGKILL then
    -- `ptrace_signal`
    let w := w.onTask t fun s => { s with jobctl := s.jobctl ||| JOBCTL_STOP_DEQUEUED }
    trapRound w t (BitVec.ofNat 32 sig.num) .trapped false
      (decide (info.siCode >>> 8 = (j.PTRACE_EVENT_STOP.toNat : Int))) (.signal sig info)
  else actOn x h j oneshot w t sig info

/-- A round of the loop.  `rearms` is whether the signal is that of a posix timer that
`dequeue_signal` has to start again. -/
def iterate (oneshot : Nat → Signal → Bool) (notifier : Option (Notifier a))
    (freezing rearms : Bool) (w : World a) (t : Nat) : Round a :=
  let r := if (w.task t).stopPending = true then stopRound x h w t 0 else ⟨w, .locked, [], false⟩
  -- `do_signal_stop` has stopped the thread
  if r.unlocks = true then r
  else if (r.world.task t).jobctl &&& JOBCTL_TRAP_MASK ≠ 0 then
    let r' := doJobctlTrap h j r.world t
    { r' with events := r.events ++ r'.events }
  else
    match dequeueSignal h j i notifier freezing r.world t (r.world.task t).blocked with
    | (w, none) => ⟨w, .user, r.events, true⟩
    | (w, some (sig, info)) =>
      if rearms = true then ⟨w, .rearm sig info, r.events, true⟩
      else
        let r' := afterDequeue x h j oneshot w t sig info
        { r' with events := r.events ++ r'.events }

/-- What the callers of `ptrace_stop` do after it.  `pid` and `uid` are the debugger's. -/
def afterTrap (oneshot : Nat → Signal → Bool) (alloc hidden : Bool) (pid : Int) (uid : Nat)
    (w : World a) (t : Nat) (caller : Caller) : Option (Round a) :=
  match caller with
  | .jobctlTrap seized =>
    let w := if seized = true then w else w.onThread t fun m => { m with exitCode := 0 }
    some ⟨w, .relock, [], true⟩
  | .notify exits => some ⟨w, if exits = true then .dying else .user, [], true⟩
  | .signal _ info =>
    let code := (w.thread t).exitCode
    if code = 0 then some ⟨w, .locked, [], false⟩
    else
      match toSignal code.toNat with
      | none => none
      | some sig =>
        let w := w.onThread t fun m => { m with exitCode := 0 }
        let info := if sig = info.siSigno then info else ⟨sig, 0, SI_USER, pid, uid⟩
        if sigismember (w.task t).blocked sig = true then
          some ⟨(specificSendSigInfo x h alloc hidden w sig (.real sig info.siCode) t).1, .locked, [],
            false⟩
        else some (actOn x h j oneshot w t sig info)

end

/-! ### The rest of the kernel -/

/-- `signal_pending_state`, for the task's own state -/
def signalPendingState (s : Task a) : Bool :=
  if s.state &&& (TASK_INTERRUPTIBLE ||| TASK_WAKEKILL) = 0 then false
  else if signalPending s = false then false
  else decide (s.state &&& TASK_INTERRUPTIBLE ≠ 0) || sigismember s.pending SIGKILL

/-- The process of `t` exits with the code, and its other threads are told. -/
def killGroup (x : Extern a) (w : World a) (t code : Nat) : World a :=
  (zapOtherThreads x (w.onSignal t fun m => { m with
    flags := SIGNAL_GROUP_EXIT
    groupExitCode := code }) t).1

/-- What the code around `signal.c` may do, with what is assumed of it. -/
structure Outer (x : Extern a) where
  /-- `do_group_exit`, with the lock, in a process of several threads -/
  doGroupExit : World a → Nat → Nat → Option (World a)
  /-- Who comes first sets the code, and "our do_group_exit call below will use that value". -/
  doGroupExit_spec : ∀ {w t code w'}, doGroupExit w t code = some w' →
    signalGroupExit (w.signalOf t) = false ∧ w' = killGroup x w t code
  /-- `do_coredump`, with the lock; what it waits for and writes is left out -/
  doCoredump : World a → Nat → Nat → Option (World a)
  /-- "this kills all other threads in the group", unless "we lost the race". -/
  doCoredump_spec : ∀ {w t code w'}, doCoredump w t code = some w' →
    signalGroupExit (w.signalOf t) = false ∧ w' = killGroup x w t code
  /-- whether `schedule` takes the thread off the processor -/
  sleeps : Task a → Bool
  sleeps_spec : ∀ s, sleeps s = true ↔ s.state ≠ TASK_RUNNING ∧ signalPendingState s = false
  /-- A debugger lets the thread go on, with a signal for it or none. -/
  ptraceResume : World a → Nat → Nat → Option (World a)
  ptraceResume_spec : ∀ {w t code w'}, ptraceResume w t code = some w' → code ≤ 64 ∧
    w' = (w.onThread t fun m => { m with exitCode := BitVec.ofNat 32 code }).onTask t fun s =>
      x.wakeUpState s TASK_TRACED_BIT
  /-- `PTRACE_LISTEN` -/
  ptraceListen : World a → Nat → Option (World a)
  ptraceListen_spec : ∀ {w t w'}, ptraceListen w t = some w' →
    w' = w.onTask t fun s => { s with jobctl := s.jobctl ||| JOBCTL_LISTENING }
  /-- whether something is reported to the debugger with `ptrace_notify` -/
  notifies : Thread a → Bool
  notifies_spec : ∀ {m}, notifies m = true → m.ptrace ≠ 0

/-- All of it as linux does it, with whatever is reported reported. -/
def Outer.linux (x : Extern a) : Outer x where
  doGroupExit w t code :=
    if signalGroupExit (w.signalOf t) = false then some (killGroup x w t code) else none
  doGroupExit_spec h := by
    obtain ⟨hlive, h⟩ := Option.ite_none_right_eq_some.mp h
    exact ⟨hlive, (Option.some.inj h).symm⟩
  doCoredump w t code :=
    if signalGroupExit (w.signalOf t) = false then some (killGroup x w t code) else none
  doCoredump_spec h := by
    obtain ⟨hlive, h⟩ := Option.ite_none_right_eq_some.mp h
    exact ⟨hlive, (Option.some.inj h).symm⟩
  sleeps s := decide (s.state ≠ TASK_RUNNING) && !signalPendingState s
  sleeps_spec s := by rw [Bool.and_eq_true, decide_eq_true_eq, Bool.not_eq_true']
  ptraceResume w t code :=
    if (w.task t).state &&& TASK_TRACED_BIT ≠ 0 ∧ code ≤ 64 then
      some ((w.onThread t fun m => { m with exitCode := BitVec.ofNat 32 code }).onTask t fun s =>
        x.wakeUpState s TASK_TRACED_BIT)
    else none
  ptraceResume_spec h := by
    obtain ⟨hcode, h⟩ := Option.ite_none_right_eq_some.mp h
    exact ⟨hcode.2, (Option.some.inj h).symm⟩
  ptraceListen w t := some (w.onTask t fun s => { s with jobctl := s.jobctl ||| JOBCTL_LISTENING })
  ptraceListen_spec h := (Option.some.inj h).symm
  notifies m := decide (m.ptrace ≠ 0)
  notifies_spec := of_decide_eq_true

/-! ### The steps -/

inductive Act (a : Arch)
  -- somebody sends a signal
  | send (alloc hidden : Bool) (sig : Signal) (info : Info) (p : Nat) (group : Bool)
  | sendSigqueue (q t : Nat) (group : Bool)
  | forceSig (alloc hidden : Bool) (sig : Signal) (info : Info) (t : Nat)
  -- `get_signal_to_deliver`
  | deliver (t : Nat)
  | lock (t : Nat)
  | tell (t : Nat) (alloc hidden : Bool)
  | iterate (t : Nat) (notifier : Option (Notifier a)) (freezing rearms : Bool)
  | rearmed (t : Nat)
  | orphaned (t : Nat) (orphaned : Bool)
  | trap (t : Nat) (coredump : Bool)
  | resumed (t : Nat) (alloc hidden : Bool) (pid : Int) (uid : Nat)
  | ptraceNotify (t : Nat) (exitCode : BitVec 32)
  -- the debugger, the scheduler and the rest of the kernel
  | ptraceResume (t code : Nat)
  | ptraceListen (t : Nat)
  | setRunning (t : Nat) (running : Bool)
  | wake (t : Nat)
  -- sleeping
  | sleep (t : Nat) (state : BitVec 32)
  | setState (t : Nat)
  | schedule (t : Nat)
  | awoken (t : Nat)
  -- system calls
  | rtSigprocmask (t : Nat) (freezing : Bool) (how : How) (nset : Sigset a)
  | rtSigsuspend (t : Nat) (freezing : Bool) (unewset : Sigset a)
  | restoreSigmask (t : Nat) (freezing : Bool)
  | pause (t : Nat)
  | sigtimedwait (t : Nat) (notifier : Option (Notifier a)) (freezing timeout : Bool)
      (which : Sigset a)
  | sigtimedwaitEnd (t : Nat) (notifier : Option (Notifier a)) (freezing : Bool)
  | rtSigaction (t : Nat) (sig : Signal) (act : SigAction) (saMask : Sigset a) (oneshot : Bool)
  -- exit
  | coredump (t code : Nat)
  | dumped (t : Nat) (wrote : Bool)
  | groupExit (t code : Nat)
  | exit (t : Nat)

/-- The signals that `do_sigtimedwait` does not wait for. -/
def waitMask (j : JobHeaders a) (which : Sigset a) : Sigset a :=
  signotset (sigdelsetmask which (unblockable j))

def Sys.arrive (t : Nat) (pc : Pc a) (s : Sys a) : Option (Sys a × List Event) :=
  some (s.goto t pc, [])

/-- A system call of the thread, under its lock, after which it is at `pc`. -/
def Sys.locally (s : Sys a) (t : Nat) (w : World a) (pc : Pc a) (events : List Event) :
    Option (Sys a × List Event) :=
  s.locked t ⟨w, pc, events, true⟩

section

variable (x : Extern a) (o : Outer x) (h : Headers a) (j : JobHeaders a) (i : Infos)

/-- The head of `get_signal_to_deliver`. -/
def relockRound (w : World a) (t : Nat) : Round a :=
  let flags := (w.signalOf t).flags
  if flags &&& SIGNAL_CLD_MASK ≠ 0 then
    let why := if flags &&& SIGNAL_CLD_CONTINUED ≠ 0 then Cld.continued else .stopped
    let leader := (w.thread t).groupLeader
    let todo : List Notice :=
      ⟨t, false, why⟩ :: if ptraceReparented w leader = true then [⟨leader, true, why⟩] else []
    ⟨w.onSignal t fun m => { m with flags := m.flags &&& ~~~SIGNAL_CLD_MASK },
      .telling todo .relock, [], true⟩
  else ⟨w, .locked, [], false⟩

/-- What a thread still does after the notifications: one that is not to stop for a debugger
runs again. -/
def Then.settle (k : Then) (w : World a) (t : Nat) : World a :=
  match k with
  | .untrapped tr =>
    let w := w.onTask t fun s => { s with state := TASK_RUNNING }
    if tr.clearCode = true then w.onThread t fun m => { m with exitCode := 0 } else w
  | _ => w

/-- A notification, which needs the lock of the one that is notified. -/
def Sys.tell (s : Sys a) (t : Nat) (alloc hidden : Bool) (todo : List Notice) (k : Then) :
    Option (Sys a × List Event) :=
  match todo with
  | [] => (s.setWorld (k.settle s.world t)).arrive t k.pc
  | n :: todo =>
    if s.lockFree (cldstopParent s.world n.tsk n.forPtracer) = true then
      (doNotifyParentCldstop x h alloc hidden s.world n.tsk n.forPtracer n.why).map fun r =>
        ((s.setWorld r.1).goto t (.telling todo k), [.cldstop n])
    else none

/-- `ptrace_notify`, up to where `ptrace_stop` lets go of the lock -/
def Sys.ptraceNotify (s : Sys a) (t : Nat) (exitCode : BitVec 32) (exits : Bool) :
    Option (Sys a × List Event) :=
  -- the `BUG_ON`
  if exitCode &&& (0x7f ||| ~~~0xffff) ≠ BitVec.ofNat 32 j.sync.SIGTRAP.num then none
  else
    s.locked t (trapRound s.world t exitCode .trapped true
      (decide (exitCode >>> 8 = j.PTRACE_EVENT_STOP)) (.notify exits))

/-- `ptrace_stop`, once it has let go of the lock. -/
def Sys.trap (s : Sys a) (t : Nat) (trap : Trap) (coredump : Bool) :
    Option (Sys a × List Event) :=
  if mayPtraceStop s.world t coredump = true then
    let todo : List Notice :=
      ⟨t, true, trap.why⟩ ::
        if (trap.gstopDone && ptraceReparented s.world t) = true then [⟨t, false, trap.why⟩] else []
    s.arrive t (.telling todo (.trap trap))
  else
    let todo : List Notice := if trap.gstopDone = true then [⟨t, false, trap.why⟩] else []
    s.arrive t (.telling todo (.untrapped trap))

/-- `do_sigtimedwait`, until it sleeps -/
def Sys.sigtimedwait (s : Sys a) (t : Nat) (notifier : Option (Notifier a))
    (freezing timeout : Bool) (which : Sigset a) : Option (Sys a × List Event) :=
  let mask := waitMask j which
  match dequeueSignal h j i notifier freezing s.world t mask with
  | (w, some (sig, _)) => s.locally t w .user [.returned t (some sig)]
  | (w, none) =>
    if timeout = false then s.locally t w .user [.returned t none]
    else
      let w := w.onThread t fun m => { m with realBlocked := (w.task t).blocked }
      let w := w.onTask t fun s =>
        recalcSigpending freezing { s with blocked := sigandsets s.blocked mask }
      s.locally t w (.toSleep (.timed mask) TASK_INTERRUPTIBLE) []

/-- `do_sigtimedwait`, after it has slept -/
def Sys.sigtimedwaitEnd (s : Sys a) (t : Nat) (mask : Sigset a) (notifier : Option (Notifier a))
    (freezing : Bool) : Option (Sys a × List Event) :=
  let w := setTaskBlocked x freezing s.world t (s.world.thread t).realBlocked
  let w := w.onThread t fun m => { m with realBlocked := sigemptyset }
  let r := dequeueSignal h j i notifier freezing w t mask
  s.locally t r.1 .user [.returned t (r.2.map Prod.fst)]

/-- `do_sigaction`, with the whole of the action -/
def Sys.rtSigaction (s : Sys a) (t : Nat) (sig : Signal) (act : SigAction) (saMask : Sigset a)
    (oneshot : Bool) : Option (Sys a × List Event) :=
  match (s.world.task t).sighand with
  | none => none
  | some d =>
    (doSigaction h j s.world t sig act).bind fun r =>
      if r.2 = 0 then
        Sys.locally
          { s with
            saMask := Function.update s.saMask d
              (Function.update (s.saMask d) sig (sigdelsetmask saMask (unblockable j)))
            oneshot := Function.update s.oneshot d (Function.update (s.oneshot d) sig oneshot) }
          t r.1 .user []
      else s.locally t s.world .user []

def Sys.groupExit (s : Sys a) (t code : Nat) : Option (Sys a × List Event) :=
  (o.doGroupExit s.world t code).bind fun w => s.locally t w .dying []

def Sys.coredump (s : Sys a) (t code : Nat) : Option (Sys a × List Event) :=
  (o.doCoredump s.world t code).bind fun w => s.locally t w (.dumping true) []

/-- The end of `do_coredump`, which marks the code of a process that it has made exit. -/
def Sys.dumped (s : Sys a) (t : Nat) (wrote : Bool) : Option (Sys a × List Event) :=
  (s.setWorld (if wrote = true then
    s.world.onSignal t fun m => { m with groupExitCode := m.groupExitCode ||| 0x80 }
  else s.world)).arrive t .dying

def Sys.exit (s : Sys a) (t : Nat) : Option (Sys a × List Event) :=
  let (w, notify, warnings) := exitSignals x s.world t
  let events := warnings.map .warning ++ completedEvent t notify
  let early := (s.world.task t).threadGroup = [] ∨ signalGroupExit (s.world.signalOf t) = true
  let pc : Pc a := .telling (completedNotice t notify) .gone
  match s.pc t with
  | .user => if early then some ((s.setWorld w).goto t pc, events) else s.locally t w pc events
  | .dying => if early then some ((s.setWorld w).goto t pc, events) else none
  | _ => none

/-- The callers fill in `si_signo`. -/
def properInfo (info : Info) (sig : Signal) : Bool := decide (entrySigno info sig = sig)

def step : Step (Sys a) (Act a) Event
  | s, .send alloc hidden sig info p group =>
    if s.lockFree p = true ∧ properInfo info sig = true then
      some (s.setWorld (sendSignal x h alloc hidden s.world sig info p group).1, [])
    else none
  | s, .sendSigqueue q t group =>
    if s.lockFree t = true then
      some (s.setWorld (lockedSendSigqueue x h s.world q t group).1, [])
    else none
  | s, .forceSig alloc hidden sig info t =>
    if s.lockFree t = true ∧ properInfo info sig = true then
      (forceSigInfo x h alloc hidden s.world sig info t).map fun r => (s.setWorld r.1, [])
    else none
  | s, .deliver t =>
    match s.pc t with
    | .user => s.arrive t .relock
    | _ => none
  | s, .lock t =>
    match s.pc t with
    | .relock => s.locked t (relockRound s.world t)
    | _ => none
  | s, .tell t alloc hidden =>
    match s.pc t with
    | .telling todo k => s.tell x h t alloc hidden todo k
    | _ => none
  | s, .iterate t notifier freezing rearms =>
    match s.pc t with
    | .locked => some (s.finish t (iterate x h j i s.oneshot notifier freezing rearms s.world t))
    | _ => none
  | s, .rearmed t =>
    match s.pc t with
    | .rearm sig info => s.locked t (afterDequeue x h j s.oneshot s.world t sig info)
    | _ => none
  | s, .orphaned t orphaned =>
    match s.pc t with
    | .orphan info =>
      if orphaned = true then s.arrive t .relock
      else s.locked t (stopRound x h s.world t (signr info))
    | _ => none
  | s, .trap t coredump =>
    match s.pc t with
    | .trapping trap => s.trap t trap coredump
    | _ => none
  | s, .resumed t alloc hidden pid uid =>
    match s.pc t with
    | .untrapped trap =>
      (afterTrap x h j s.oneshot alloc hidden pid uid (ptraceResume s.world t) t
        trap.caller).bind (s.locked t)
    | _ => none
  | s, .ptraceNotify t exitCode =>
    match s.pc t with
    | .user =>
      if o.notifies (s.world.thread t) = true then s.ptraceNotify j t exitCode false else none
    | .dying =>
      if o.notifies (s.world.thread t) = true then s.ptraceNotify j t exitCode true else none
    | _ => none
  | s, .ptraceResume t code =>
    match s.pc t with
    | .asleep (.trap _) => (o.ptraceResume s.world t code).map fun w => (s.setWorld w, [])
    | _ => none
  | s, .ptraceListen t =>
    match s.pc t with
    | .asleep (.trap _) =>
      if s.lockFree t = true then (o.ptraceListen s.world t).map fun w => (s.setWorld w, [])
      else none
    | _ => none
  | s, .setRunning t running =>
    some (s.setWorld (s.world.onThread t fun m => { m with running := running }), [])
  | s, .wake t =>
    some (s.setWorld (s.world.onTask t fun s => x.wakeUpState s TASK_NORMAL), [])
  | s, .sleep t state =>
    match s.pc t with
    | .user =>
      if state &&& (TASK_STOPPED_BIT ||| TASK_TRACED_BIT) = 0 then s.arrive t (.toSleep .plain state)
      else none
    | _ => none
  | s, .setState t =>
    match s.pc t with
    | .toSleep k state =>
      (s.setWorld (s.world.onTask t fun s => { s with state := state })).arrive t (.nap k)
    | _ => none
  | s, .schedule t =>
    match s.pc t with
    | .nap k =>
      if o.sleeps (s.world.task t) = true then s.arrive t (.asleep k)
      else (s.setWorld (s.world.onTask t fun s => { s with state := TASK_RUNNING })).arrive t k.after
    | _ => none
  | s, .awoken t =>
    match s.pc t with
    | .asleep k => if (s.world.task t).state = TASK_RUNNING then s.arrive t k.after else none
    | _ => none
  | s, .rtSigprocmask t freezing how nset =>
    match s.pc t with
    | .user => s.locally t (rtSigprocmask x j freezing s.world t how nset) .user []
    | _ => none
  | s, .rtSigsuspend t freezing unewset =>
    match s.pc t with
    | .user =>
      Sys.locally { s with saved := Function.update s.saved t (some (s.world.task t).blocked) } t
        (setTaskBlocked x freezing s.world t (sigdelsetmask unewset (unblockable j)))
        (.toSleep .suspend TASK_INTERRUPTIBLE) []
    | _ => none
  | s, .restoreSigmask t freezing =>
    match s.pc t, s.saved t with
    | .user, some mask =>
      Sys.locally { s with saved := Function.update s.saved t none } t
        (setTaskBlocked x freezing s.world t mask) .user []
    | _, _ => none
  | s, .pause t =>
    match s.pc t with
    | .user | .paused =>
      if signalPending (s.world.task t) = true then s.arrive t .user
      else s.arrive t (.toSleep .pause TASK_INTERRUPTIBLE)
    | _ => none
  | s, .sigtimedwait t notifier freezing timeout which =>
    match s.pc t with
    | .user => s.sigtimedwait h j i t notifier freezing timeout which
    | _ => none
  | s, .sigtimedwaitEnd t notifier freezing =>
    match s.pc t with
    | .waited mask => s.sigtimedwaitEnd x h j i t mask notifier freezing
    | _ => none
  | s, .rtSigaction t sig act saMask oneshot =>
    match s.pc t with
    | .user => s.rtSigaction h j t sig act saMask oneshot
    | _ => none
  | s, .coredump t code =>
    match s.pc t with
    | .dumping false => s.coredump x o t code
    | _ => none
  | s, .dumped t wrote =>
    match s.pc t with
    | .dumping started => if wrote = true ∧ started = false then none else s.dumped t wrote
    | _ => none
  | s, .groupExit t code =>
    match s.pc t with
    | .user | .dying => s.groupExit x o t code
    | _ => none
  | s, .exit t => s.exit x t
end

end LinuxKerDev.Signals.Machine
