import LinuxKerDev.Lib.Roster
import LinuxKerDev.Signals.StopCont

/-!
# Job control (`signal.c`)

`task_set_jobctl_pending`, `task_participate_group_stop` and `do_signal_stop`.

A group stop is a countdown.  The thread that starts it marks every thread of the process
that is not stopped or dying with `JOBCTL_STOP_CONSUME` and counts the marks in
`group_stop_count`.  Each marked thread takes its mark off when it stops or exits and takes
the count down by one, and the one that takes it to zero declares the process stopped.

The count is only right if nothing else touches the marks, and the code says so in its
`WARN_ON_ONCE`s.  `Warning` has one for each, and the functions here return the ones whose
condition was met.  The two `BUG_ON`s of `task_set_jobctl_pending` are about masks that all
its callers write out.
-/

namespace LinuxKerDev.Signals

open Lib

variable {a : Arch}

def TASK_STOPPED : BitVec 32 := TASK_WAKEKILL ||| TASK_STOPPED_BIT
def TASK_TRACED : BitVec 32 := TASK_WAKEKILL ||| TASK_TRACED_BIT
def JOBCTL_STOP_SIGMASK : BitVec 32 := 0xffff
def SIGNAL_CLD_MASK : BitVec 32 := SIGNAL_CLD_STOPPED ||| SIGNAL_CLD_CONTINUED

/-- The condition of a `WARN_ON_ONCE` that was met. -/
inductive Warning
  /-- `task_participate_group_stop`: `JOBCTL_STOP_PENDING` is not set -/
  | notPending
  /-- `task_participate_group_stop`: `group_stop_count` is zero already -/
  | countZero
  /-- `do_signal_stop`: not a signal number -/
  | notSigno
  /-- `do_jobctl_trap`: no signal number -/
  | noSigno
  deriving DecidableEq, Repr

def taskIsStopped (s : Task a) : Bool := decide (s.state &&& TASK_STOPPED_BIT ≠ 0)

def Task.stopPending (s : Task a) : Bool := decide (s.jobctl &&& JOBCTL_STOP_PENDING ≠ 0)

/-- `group_stop_count` has the task in it. -/
def Task.consumes (s : Task a) : Bool := decide (s.jobctl &&& JOBCTL_STOP_CONSUME ≠ 0)

/-- `signal_group_exit`.  Nothing here sets `group_exit_task`, which an `exec` does. -/
def signalGroupExit (m : SignalStruct) : Bool := decide (m.flags &&& SIGNAL_GROUP_EXIT ≠ 0)

def taskSetJobctlPending (w : World a) (t : Nat) (mask : BitVec 32) : World a × Bool :=
  if fatalSignalPending (w.task t) = true ∨ (w.thread t).exiting = true then (w, false)
  else
    (w.onTask t fun s => { s with
      jobctl :=
        (if mask &&& JOBCTL_STOP_SIGMASK ≠ 0 then s.jobctl &&& ~~~JOBCTL_STOP_SIGMASK
          else s.jobctl) ||| mask }, true)

def taskParticipateGroupStop (w : World a) (t : Nat) : World a × Bool × List Warning :=
  let consume := (w.task t).consumes
  let notPending : List Warning := if (w.task t).stopPending = true then [] else [.notPending]
  let w := taskClearJobctlPending w t JOBCTL_STOP_PENDING
  if consume = false then (w, false, notPending)
  else
    let countZero : List Warning :=
      if (w.signalOf t).groupStopCount = 0 then [.countZero] else []
    -- at zero the count stays where it is
    let w := w.onSignal t fun m => { m with groupStopCount := m.groupStopCount - 1 }
    if (w.signalOf t).groupStopCount = 0 ∧ (w.signalOf t).flags &&& SIGNAL_STOP_STOPPED = 0 then
      (w.onSignal t fun m => { m with flags := SIGNAL_STOP_STOPPED }, true, notPending ++ countZero)
    else (w, false, notPending ++ countZero)

/-- One round of the loop of `do_signal_stop` over the threads other than `current`. -/
def enlist (x : Extern a) (h : Headers a) (current : Nat) (mask : BitVec 32) (w : World a)
    (t : Nat) : World a :=
  if taskIsStopped (w.task t) = true then w
  else if (taskSetJobctlPending w t mask).2 = false then w
  else
    let w := (taskSetJobctlPending w t mask).1
    let w := w.onSignal current fun m => { m with groupStopCount := m.groupStopCount + 1 }
    if (w.thread t).ptrace &&& h.PT_SEIZED = 0 then w.onTask t fun s => signalWakeUp x s false
    else ptraceTrapNotify x w t

/-- `do_signal_stop`, where it starts a group stop -/
def initiateGroupStop (x : Extern a) (h : Headers a) (w : World a) (current : Nat)
    (signr : BitVec 32) : World a :=
  let mask := signr ||| (JOBCTL_STOP_PENDING ||| JOBCTL_STOP_CONSUME)
  let w := w.onSignal current fun m => { m with
    groupExitCode :=
      if m.flags &&& SIGNAL_STOP_STOPPED = 0 then signr.toNat else m.groupExitCode
    groupStopCount := 0 }
  let r := taskSetJobctlPending w current mask
  let w :=
    if r.2 = true then
      r.1.onSignal current fun m => { m with groupStopCount := m.groupStopCount + 1 }
    else r.1
  (w.task current).threadGroup.foldl (enlist x h current mask) w

/-- `do_signal_stop`.  The answer is `some notify` where the task has stopped, and `none`
where the source returns false. -/
def doSignalStop (x : Extern a) (h : Headers a) (w : World a) (current : Nat)
    (signr : BitVec 32) : World a × Option Bool × List Warning :=
  let notSigno : List Warning :=
    if (w.task current).stopPending = false ∧ signr &&& ~~~JOBCTL_STOP_SIGMASK ≠ 0 then [.notSigno]
    else []
  if (w.task current).stopPending = false ∧
      ((w.task current).jobctl &&& JOBCTL_STOP_DEQUEUED = 0 ∨
        signalGroupExit (w.signalOf current) = true) then (w, none, notSigno)
  else
    let w := if (w.task current).stopPending = true then w else initiateGroupStop x h w current signr
    if (w.thread current).ptrace = 0 then
      let (w, notify, warnings) := taskParticipateGroupStop w current
      (w.onTask current fun s => { s with state := TASK_STOPPED }, some notify, notSigno ++ warnings)
    else ((taskSetJobctlPending w current JOBCTL_TRAP_STOP).1, none, notSigno)

end LinuxKerDev.Signals
