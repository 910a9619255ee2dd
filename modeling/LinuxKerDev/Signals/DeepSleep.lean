import LinuxKerDev.Lib.Run
import LinuxKerDev.Signals.Generate
import LinuxKerDev.Signals.Smunch

/-!
# `deepsleep`

`deepsleep` (`RW/deepsleeper.c`) sleeps on a queue that nothing wakes.  `sleep_on`
is not in this repository; it puts the caller in exactly `TASK_UNINTERRUPTIBLE`.

A signal, however it is generated, wakes its target with a mask made of
`TASK_INTERRUPTIBLE`, `TASK_WAKEKILL`, `__TASK_TRACED` and `__TASK_STOPPED`, and so
does a `smunch` without `SIGKILL`.  None of these meets `TASK_UNINTERRUPTIBLE`:
`step_sleeps` says that whatever sleeps so sleeps on, and `deepsleep_blocked` that
it does over whole runs.  `SIGKILL` by `smunch` goes through `wake_up_process`
instead, which wakes it.
-/

namespace LinuxKerDev.Signals

open Lib

variable {a : Arch}

/-- `sleep_on`, up to where the caller is off the run queue. -/
def sleepOn (w : World a) (current : Nat) : World a :=
  w.onTask current fun s => { s with state := TASK_UNINTERRUPTIBLE }

def deepsleep (w : World a) (current : Nat) : World a := sleepOn w current

/-- The two files with a `smunch`. -/
inductive File
  | rw
  | driverCode
  deriving DecidableEq, Repr

def File.ignored : File → Task a → BitVec 64 → Bool
  | rw => RW.ignored
  | driverCode => DriverCode.ignored

def File.smunch (x : Extern a) : File → List Nat → Kernel a → Int → BitVec 64 → Kernel a × Int
  | rw => RW.smunch x
  | driverCode => DriverCode.smunch x

theorem File.smunch_eq (x : Extern a) (file : File) : file.smunch x = smunchOf file.ignored x := by
  cases file with
  | rw => rfl
  | driverCode => rfl

theorem File.ignored_of_live (file : File) {t : Task a} {bitPattern : BitVec 64}
    (hx : t.exited = false) : file.ignored t bitPattern = false := by
  cases file with
  | rw => exact RW.ignored_of_live hx
  | driverCode => exact DriverCode.ignored_of_live hx

theorem allSleepOn_deepsleep (w : World a) (current : Nat) :
    AllSleepOn w (deepsleep w current) := by
  unfold deepsleep sleepOn
  exact (Uncounted.onTask w current ⟨rfl, rfl, rfl, fun _ => rfl⟩).toAllSleepOn

/-! ### The steps -/

namespace DeepSleep

inductive Act
  | signal (c : Call)
  | smunch (file : File) (exchanged : List Nat) (pid : Int) (bitPattern : BitVec 64)
  deriving DecidableEq, Repr

def step (x : Extern a) (h : Headers a) : Step (World a) Act Mark
  | w, .signal c => c.run x h w
  | w, .smunch file exchanged pid bitPattern =>
    some (w.setKernel (file.smunch x exchanged w.kernel pid bitPattern).1, [])

/-- The act is not a `smunch` with `SIGKILL`. -/
def Act.LacksKill : Act → Prop
  | .signal _ => True
  | .smunch _ _ _ bitPattern => inPattern bitPattern SIGKILL = false

instance : DecidablePred Act.LacksKill
  | .signal _ => inferInstanceAs (Decidable True)
  | .smunch _ _ _ bitPattern => inferInstanceAs (Decidable (inPattern bitPattern SIGKILL = false))

end DeepSleep

section

variable (x : Extern a) (h : Headers a)

/-- A `smunch` without `SIGKILL` lets sleepers sleep on. -/
theorem allSleepOn_smunch (w : World a) (file : File) (exchanged : List Nat) (pid : Int)
    {bitPattern : BitVec 64} (hk : inPattern bitPattern SIGKILL = false) :
    AllSleepOn w (w.setKernel (file.smunch x exchanged w.kernel pid bitPattern).1) := by
  rw [← killBit_eq] at hk
  rw [File.smunch_eq]
  by_cases h : ∃ t, Single w.kernel pid t
  · obtain ⟨t, hsingle⟩ := h
    have hbranch : ∃ s, (branch file.ignored x (w.task t) bitPattern).2 = (s, .handled) ∧
        SleepsOn (w.task t) s := by
      cases hi : file.ignored (w.task t) bitPattern with
      | true => exact ⟨_, branch_ignored x hsingle.alone hk hi, .refl _⟩
      | false =>
        exact ⟨_, branch_posted x hsingle.alone hk hi,
          (SparesTask.signalWakeUp_pending x _ _ false).toSleepsOn⟩
    obtain ⟨s, hb, hs⟩ := hbranch
    obtain ⟨k', hpids, htask, -, heq⟩ := smunchOf_handled _ x exchanged bitPattern hsingle hb
    rw [heq]
    refine ⟨hpids, fun u => ?_⟩
    show SleepsOn (w.task u) (k'.task u)
    rw [htask, Function.update_apply]
    split
    · next hu =>
      rw [hu]
      exact hs
    · exact .refl _
  · obtain ⟨k', hsame, -, heq⟩ := smunchOf_refused file.ignored x exchanged bitPattern
      (not_exists.mp h)
    rw [heq]
    exact (Uncounted.setKernel hsame).toAllSleepOn

/-- **One step wakes no one from an uninterruptible sleep**, unless it is a `smunch`
with `SIGKILL`. -/
theorem DeepSleep.step_sleeps {w w' : World a} {b : Act} {ms : List Mark} (hb : b.LacksKill)
    (hs : step x h w b = some (w', ms)) : AllSleepOn w w' := by
  cases b with
  | signal c => exact (Call.run_spec x h hs).2.2
  | smunch file exchanged pid bitPattern =>
    obtain ⟨rfl, -⟩ := Prod.mk.inj (Option.some.inj hs)
    exact allSleepOn_smunch x w file exchanged pid hb

/-- A `smunch` with `SIGKILL` wakes a live task, whatever it sleeps in. -/
theorem smunch_kill_wakes (hw : x.WakesAll) {k : Kernel a} {pid : Int} {t : Nat}
    (hsingle : Single k pid t) (hlive : (k.task t).exited = false)
    (hasleep : (k.task t).state &&& TASK_ALL ≠ 0) (file : File) (exchanged : List Nat)
    {bitPattern : BitVec 64} (hk : inPattern bitPattern SIGKILL = true) :
    ((file.smunch x exchanged k pid bitPattern).1.task t).state = TASK_RUNNING := by
  rw [← killBit_eq] at hk
  obtain ⟨k', -, htask, -, heq⟩ := smunchOf_handled _ x exchanged bitPattern hsingle
    (branch_killed x hsingle.alone hlive hk (file.ignored_of_live hlive))
  rw [File.smunch_eq, heq, htask, Function.update_self]
  exact (killed_wakeUpProcess x hw (k.task t)).runnable hasleep

/-- The target of a call stays the target while it sleeps on. -/
theorem Single.of_allSleepOn {w w' : World a} {pid : Int} {t : Nat}
    (hsingle : Single w.kernel pid t) (hs : AllSleepOn w w') : Single w'.kernel pid t where
  found := by rw [hs.pids, hsingle.found]
  locked := by
    rw [← World.task, (hs.task t).sighand]
    exact hsingle.locked
  alone := (hs.task t).threadGroup.trans hsingle.alone

/-- **A task in `deepsleep` stays blocked** through every run of signals and of
`smunch`s without `SIGKILL`, and the first `smunch` of it with `SIGKILL` ends that. -/
theorem deepsleep_blocked (hw : x.WakesAll) {w : World a} {pid : Int} {t : Nat}
    (hsingle : Single w.kernel pid t) (hlive : (w.task t).exited = false)
    {as : List DeepSleep.Act} {ms : List Mark} {w' : World a}
    (hr : Run (DeepSleep.step x h) (deepsleep w t) as ms w') (has : ∀ b ∈ as, b.LacksKill) :
    AllStates (DeepSleep.step x h) (deepsleep w t)
        (fun _ v => (v.task t).state = TASK_UNINTERRUPTIBLE) as ∧
      ∀ (file : File) exchanged bitPattern, inPattern bitPattern SIGKILL = true →
        ((file.smunch x exchanged w'.kernel pid bitPattern).1.task t).state = TASK_RUNNING := by
  have hguard : AllSteps (DeepSleep.step x h) (deepsleep w t) (fun _ _ b => b.LacksKill) as :=
    allSteps_of_forall has
  have hstart := allSleepOn_deepsleep w t
  have hasleep : ((deepsleep w t).task t).state = TASK_UNINTERRUPTIBLE := by
    rw [deepsleep, sleepOn, World.onTask_task, Function.update_self]
  have hkept : AllSleepOn (deepsleep w t) w' :=
    hr.inv_of_guard (I := fun _ v => AllSleepOn (deepsleep w t) v) hguard (.refl _)
      fun hI hb hs => hI.trans (DeepSleep.step_sleeps x h hb hs)
  constructor
  · exact allStates_of_guard (I := fun _ v => AllSleepOn (deepsleep w t) v) hguard (.refl _)
      (fun hI hb hs => hI.trans (DeepSleep.step_sleeps x h hb hs))
      fun hI => (hI.task t).asleep hasleep
  · intro file exchanged bitPattern hk
    have hlive' : (w'.task t).exited = false := by
      rw [Task.exited, ((hstart.trans hkept).task t).exitState]
      exact hlive
    have hall : (w'.kernel.task t).state &&& TASK_ALL ≠ 0 := by
      rw [← World.task, (hkept.task t).asleep hasleep]
      decide
    exact smunch_kill_wakes x hw (hsingle.of_allSleepOn (hstart.trans hkept)) hlive' hall file
      exchanged hk

end

/-- Task 0, under the pid 7, in `deepsleep`: `SIGKILL` by `kill`, `SIGINT` by `smunch`,
`SIGCONT` by `kill`. -/
theorem deepsleep_blocked_killed :
    ∃ ms w', Run (DeepSleep.step (Extern.simplest .oneWord) (Headers.x86 .oneWord))
        (deepsleep (.ofKernel (oneTask (sleeper .oneWord))) 0)
        [.signal (.doSendSigInfo [] true false SIGKILL .noinfo 0 true), .smunch .rw [] 7 2,
          .signal (.killPidInfoAsCred [] true true 0 18 .priv 7)] ms w' ∧
      (w'.task 0).state = TASK_UNINTERRUPTIBLE ∧
      ((File.smunch (Extern.simplest .oneWord) .rw [] w'.kernel 7 256).1.task 0).state =
        TASK_RUNNING := by
  obtain ⟨ms, w', hr⟩ := exists_run_of_isSome
    (DeepSleep.step (Extern.simplest .oneWord) (Headers.x86 .oneWord))
    (deepsleep (.ofKernel (oneTask (sleeper .oneWord))) 0)
    [.signal (.doSendSigInfo [] true false SIGKILL .noinfo 0 true), .smunch .rw [] 7 2,
      .signal (.killPidInfoAsCred [] true true 0 18 .priv 7)] rfl
  have hsingle : Single (World.ofKernel (oneTask (sleeper .oneWord))).kernel 7 0 := ⟨rfl, nofun, rfl⟩
  obtain ⟨hblocked, hwakes⟩ := deepsleep_blocked (Extern.simplest .oneWord)
    (Headers.x86 .oneWord) (Extern.simplest_wakesAll .oneWord) hsingle rfl hr (by decide)
  exact ⟨ms, w', hr, hblocked _ [] (List.append_nil _).symm ms w' hr, hwakes .rw [] 256 (by decide)⟩

end LinuxKerDev.Signals
