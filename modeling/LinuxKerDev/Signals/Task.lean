import LinuxKerDev.Lib.Ledger
import LinuxKerDev.Signals.Sigset

/-!
# Tasks, and what `signal.c` and `sched.h` do to them

`Task` is the part of `task_struct` that the signal code reads or writes, and
`Kernel` the table of the tasks, with a log of the locks taken and released and
of the lines printed.  Tasks are reached by reference, as in the source, so a
task that is no longer in the table may still be looked at.

`wake_up_state`, `wake_up_process` and `release_task` are not in this
repository.  `Extern` is any three functions that do what these are documented
to do: the wake-ups make a task runnable when its run state is among the ones
they wake and do nothing else, and `release_task` takes the task out of the table
and takes its `sighand` away.  Which states `wake_up_process` wakes is left open.
-/

namespace LinuxKerDev.Signals

open Lib

/-! ### Run states (`sched.h`) -/

def TASK_RUNNING : BitVec 32 := 0
def TASK_INTERRUPTIBLE : BitVec 32 := 1
def TASK_UNINTERRUPTIBLE : BitVec 32 := 2
def TASK_STOPPED_BIT : BitVec 32 := 4
def TASK_TRACED_BIT : BitVec 32 := 8
def EXIT_ZOMBIE : BitVec 32 := 16
def EXIT_DEAD : BitVec 32 := 32
def TASK_WAKEKILL : BitVec 32 := 128
def TASK_NORMAL : BitVec 32 := TASK_INTERRUPTIBLE ||| TASK_UNINTERRUPTIBLE
def TASK_ALL : BitVec 32 := TASK_NORMAL ||| TASK_STOPPED_BIT ||| TASK_TRACED_BIT
def JOBCTL_STOP_PENDING : BitVec 32 := 1#32 <<< 17
def JOBCTL_TRAP_STOP : BitVec 32 := 1#32 <<< 19
def JOBCTL_TRAP_NOTIFY : BitVec 32 := 1#32 <<< 20
def JOBCTL_TRAP_MASK : BitVec 32 := JOBCTL_TRAP_STOP ||| JOBCTL_TRAP_NOTIFY
def JOBCTL_PENDING_MASK : BitVec 32 := JOBCTL_STOP_PENDING ||| JOBCTL_TRAP_MASK

/-- `sighand` is `none` for `NULL`, and `threadGroup` lists the other threads. -/
structure Task (a : Arch) where
  state : BitVec 32
  exitState : BitVec 32
  sighand : Option Nat
  threadGroup : List Nat
  pending : Sigset a
  sharedPending : Sigset a
  blocked : Sigset a
  jobctl : BitVec 32
  tifSigpending : Bool

inductive Lock
  | rcu
  | irq
  | siglock (sighand : Nat)
  deriving DecidableEq, Repr

structure Kernel (a : Arch) where
  pids : Int → Option Nat
  task : Nat → Task a
  log : List (LockOp Lock)
  printed : List String

variable {a : Arch}

namespace Kernel

def acquire (k : Kernel a) (l : Lock) : Kernel a := { k with log := k.log ++ [.acquire l] }
def release (k : Kernel a) (l : Lock) : Kernel a := { k with log := k.log ++ [.release l] }

/-- `printk`, at `KERN_ALERT` throughout. -/
def printk (k : Kernel a) (line : String) : Kernel a := { k with printed := k.printed ++ [line] }

def setTask (k : Kernel a) (t : Nat) (s : Task a) : Kernel a :=
  { k with task := Function.update k.task t s }

section

variable (k : Kernel a) (l : Lock) (line : String) (t : Nat) (s : Task a)

@[simp] theorem acquire_pids : (k.acquire l).pids = k.pids := rfl
@[simp] theorem acquire_task : (k.acquire l).task = k.task := rfl
@[simp] theorem acquire_log : (k.acquire l).log = k.log ++ [.acquire l] := rfl
@[simp] theorem release_pids : (k.release l).pids = k.pids := rfl
@[simp] theorem release_task : (k.release l).task = k.task := rfl
@[simp] theorem release_log : (k.release l).log = k.log ++ [.release l] := rfl
@[simp] theorem printk_pids : (k.printk line).pids = k.pids := rfl
@[simp] theorem printk_task : (k.printk line).task = k.task := rfl
@[simp] theorem printk_log : (k.printk line).log = k.log := rfl
@[simp] theorem setTask_pids : (k.setTask t s).pids = k.pids := rfl
@[simp] theorem setTask_task : (k.setTask t s).task = Function.update k.task t s := rfl
@[simp] theorem setTask_log : (k.setTask t s).log = k.log := rfl

end

def SameTasks (k k' : Kernel a) : Prop := k'.pids = k.pids ∧ k'.task = k.task

def OnlyTask (t : Nat) (k k' : Kernel a) : Prop :=
  k'.pids = k.pids ∧ ∀ u, u ≠ t → k'.task u = k.task u

theorem SameTasks.trans {k k' k'' : Kernel a} (h : SameTasks k k') (h' : SameTasks k' k'') :
    SameTasks k k'' := ⟨h'.1.trans h.1, h'.2.trans h.2⟩

end Kernel

/-! ### The missing code -/

structure Extern (a : Arch) where
  /-- `wake_up_state(t, state)` -/
  wakeUpState : Task a → BitVec 32 → Task a
  /-- `wake_up_process(t)` -/
  wakeUpProcess : Task a → Task a
  /-- The run states that `wake_up_process` wakes. -/
  woken : BitVec 32
  /-- `release_task(t)` -/
  releaseTask : Kernel a → Nat → Kernel a
  wakeUpState_eq : ∀ t m, wakeUpState t m =
    { t with state := if t.state &&& m = 0 then t.state else TASK_RUNNING }
  wakeUpProcess_eq : ∀ t, wakeUpProcess t =
    { t with state := if t.state &&& woken = 0 then t.state else TASK_RUNNING }
  releaseTask_pids : ∀ k t pid, (releaseTask k t).pids pid =
    if k.pids pid = some t then none else k.pids pid
  releaseTask_sighand : ∀ k t, ((releaseTask k t).task t).sighand = none
  releaseTask_log : ∀ k t, (releaseTask k t).log = k.log

/-- `wake_up_process` wakes sleeping, stopped and traced tasks. -/
def Extern.WakesAll (x : Extern a) : Prop :=
  ∀ state : BitVec 32, state &&& TASK_ALL ≠ 0 → state &&& x.woken ≠ 0

/-- The three functions at their simplest. -/
def Extern.simplest (a : Arch) : Extern a where
  wakeUpState t m := { t with state := if t.state &&& m = 0 then t.state else TASK_RUNNING }
  wakeUpProcess t := { t with state := if t.state &&& TASK_ALL = 0 then t.state else TASK_RUNNING }
  woken := TASK_ALL
  releaseTask k t :=
    { pids := fun pid => if k.pids pid = some t then none else k.pids pid
      task := Function.update k.task t { k.task t with sighand := none }
      log := k.log
      printed := k.printed }
  wakeUpState_eq _ _ := rfl
  wakeUpProcess_eq _ := rfl
  releaseTask_pids _ _ _ := rfl
  releaseTask_sighand k t := by simp only [Function.update_self]
  releaseTask_log _ _ := rfl

theorem Extern.simplest_wakesAll (a : Arch) : (Extern.simplest a).WakesAll := fun _ h => h

/-! ### `signal.c` -/

/-- `has_pending_signals` of the private and of the shared set, as
`recalc_sigpending_tsk` asks for them. -/
def Task.ready (t : Task a) : Bool :=
  hasPendingSignals t.pending t.blocked || hasPendingSignals t.sharedPending t.blocked

def recalcSigpendingTsk (t : Task a) : Task a × Bool :=
  if t.jobctl &&& JOBCTL_PENDING_MASK ≠ 0 ∨ t.ready = true then
    ({ t with tifSigpending := true }, true)
  else (t, false)

/-- `signal_wake_up_state` (`kick_process` touches nothing of the task) -/
def signalWakeUpState (x : Extern a) (t : Task a) (state : BitVec 32) : Task a :=
  x.wakeUpState { t with tifSigpending := true } (state ||| TASK_INTERRUPTIBLE)

def signalWakeUp (x : Extern a) (t : Task a) (resume : Bool) : Task a :=
  signalWakeUpState x t (if resume then TASK_WAKEKILL else 0)

def signalPending (t : Task a) : Bool := t.tifSigpending

def fatalSignalPending (t : Task a) : Bool := signalPending t && sigismember t.pending SIGKILL

/-- `__lock_task_sighand`.  `exchanged` are the rounds in which the task got
another `sighand` between the two looks at it, with the one seen first. -/
def lockTaskSighand (k : Kernel a) (t : Nat) : List Nat → Kernel a × Option Nat
  | seen :: exchanged =>
    let k := ((k.acquire .irq).acquire .rcu).acquire (.siglock seen)
    lockTaskSighand (((k.release (.siglock seen)).release .rcu).release .irq) t exchanged
  | [] =>
    let k := (k.acquire .irq).acquire .rcu
    match (k.task t).sighand with
    | none => ((k.release .rcu).release .irq, none)
    | some sighand => ((k.acquire (.siglock sighand)).release .rcu, some sighand)

def unlockTaskSighand (k : Kernel a) (t : Nat) : Kernel a :=
  match (k.task t).sighand with
  | none => k
  | some sighand => (k.release (.siglock sighand)).release .irq

/-! ### What they do -/

/-- The condition that `recalc_sigpending_tsk` establishes: a signal that is
pending and not blocked has the thread flag up. -/
def Task.Recalced (t : Task a) : Prop :=
  (∃ s, (sigismember t.pending s = true ∨ sigismember t.sharedPending s = true) ∧
    sigismember t.blocked s = false) → t.tifSigpending = true

theorem Task.ready_iff (t : Task a) : t.ready = true ↔
    ∃ s, (sigismember t.pending s = true ∨ sigismember t.sharedPending s = true) ∧
      sigismember t.blocked s = false := by
  rw [Task.ready, Bool.or_eq_true, hasPendingSignals_iff, hasPendingSignals_iff, ← exists_or]
  simp only [or_and_right]

theorem recalcSigpendingTsk_recalced (t : Task a) : (recalcSigpendingTsk t).1.Recalced := by
  intro h
  by_cases hj : t.jobctl &&& JOBCTL_PENDING_MASK ≠ 0 ∨ t.ready = true
  · rw [recalcSigpendingTsk, if_pos hj]
  · rw [recalcSigpendingTsk, if_neg hj] at h
    exact absurd (Or.inr (t.ready_iff.mpr h)) hj

theorem signalWakeUp_eq (x : Extern a) (t : Task a) :
    signalWakeUp x t false =
      { t with
        tifSigpending := true
        state := if t.state &&& TASK_INTERRUPTIBLE = 0 then t.state else TASK_RUNNING } := by
  have h0 : (0 : BitVec 32) ||| TASK_INTERRUPTIBLE = TASK_INTERRUPTIBLE := by decide
  show signalWakeUpState x t 0 = _
  rw [signalWakeUpState, x.wakeUpState_eq, h0]

section Locking

variable (k : Kernel a) (t : Nat)

def roundLog (seen : Nat) : List (LockOp Lock) :=
  [.acquire .irq, .acquire .rcu, .acquire (.siglock seen), .release (.siglock seen),
    .release .rcu, .release .irq]

theorem balanced_roundLog (seen : Nat) : LockOp.Balanced (roundLog seen) := by
  simp [LockOp.Balanced, roundLog, LockOp.replay, LockOp.apply]

theorem balanced_rounds (exchanged : List Nat) :
    LockOp.Balanced (exchanged.flatMap roundLog) := by
  induction exchanged with
  | nil => exact LockOp.balanced_nil
  | cons seen exchanged ih =>
    rw [List.flatMap_cons]
    exact (balanced_roundLog seen).append ih

def lastLog : Option Nat → List (LockOp Lock)
  | none => [.acquire .irq, .acquire .rcu, .release .rcu, .release .irq]
  | some sighand => [.acquire .irq, .acquire .rcu, .acquire (.siglock sighand), .release .rcu]

/-- **`__lock_task_sighand` answers with the task's `sighand`**, touches no task,
and after any number of rounds has only the last one's locks taken. -/
theorem lockTaskSighand_eq (exchanged : List Nat) :
    lockTaskSighand k t exchanged =
      ({ k with log := k.log ++ exchanged.flatMap roundLog ++ lastLog (k.task t).sighand },
        (k.task t).sighand) := by
  induction exchanged generalizing k with
  | nil =>
    rw [lockTaskSighand]
    cases h : (k.task t).sighand with
    | none => simp [h, lastLog, Kernel.acquire, Kernel.release]
    | some sighand => simp [h, lastLog, Kernel.acquire, Kernel.release]
  | cons seen exchanged ih =>
    rw [lockTaskSighand, ih]
    simp [roundLog, Kernel.acquire, Kernel.release]

theorem unlockTaskSighand_eq {sighand : Nat} (h : (k.task t).sighand = some sighand) :
    unlockTaskSighand k t =
      { k with log := k.log ++ [.release (.siglock sighand), .release .irq] } := by
  simp [unlockTaskSighand, h, Kernel.release]

end Locking

end LinuxKerDev.Signals
