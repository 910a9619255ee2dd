import LinuxKerDev.Signals.Task

/-!
# `smunch`

Two files have a `smunch`: `RW/smunch.c`, which is built into the kernel, and
`systemCall/deepSmunch/driverCode/smunch.c`.  They differ in one test, the one
that is to leave a zombie alone: there the first has lost a `!`.  `smunchOf` is
both, with that test as a parameter.

`smunchOf_refused` and `smunchOf_found` say what a call comes to: either the
target cannot be had, or everything that happens to it is `branch`, with the
locks given back by then.  The results about the two files rest on these.
-/

namespace LinuxKerDev.Signals

open Lib

variable {a : Arch}

def Task.exited (t : Task a) : Bool := t.exitState &&& (EXIT_ZOMBIE ||| EXIT_DEAD) ≠ 0

/-- `bit_pattern & (1 << (SIGKILL-1))`, where the `int` is widened with its sign. -/
def killBit (bitPattern : BitVec 64) : Bool :=
  bitPattern &&& (1#32 <<< (SIGKILL.num - 1)).signExtend 64 ≠ 0

/-- What is left to do when the target is unlocked. -/
inductive Verdict
  /-- return -1 -/
  | refused
  /-- release the target and return 0 -/
  | reap
  /-- return 0 -/
  | handled
  deriving DecidableEq, Repr

/-- The tests under the lock: the line printed, the target as it is then, and
what is left to do.  `ignored` is the test for leaving a zombie alone. -/
def branch (ignored : Task a → BitVec 64 → Bool) (x : Extern a) (t : Task a)
    (bitPattern : BitVec 64) : String × Task a × Verdict :=
  if t.threadGroup ≠ [] then ("process is not a single thread!\n", t, .refused)
  else if t.exited && killBit bitPattern then
    ("Target is a zombie and SIGKILL is set\n", t, .reap)
  else if ignored t bitPattern then
    ("ingnore signals that are not a sigkill when the process is a zombie;\n", t, .handled)
  else if !t.exited && killBit bitPattern then
    ("the regular process is unconditionally killed when one of the signals sent is SIGKILL!\n",
      x.wakeUpProcess { t with pending := sigaddset t.pending SIGKILL }, .handled)
  else
    ("target is not a zombie, and there is no sigkill signal!\n",
      signalWakeUp x { t with pending := postPattern t.pending bitPattern } false, .handled)

def lookup (k : Kernel a) (pid : Int) : Kernel a × Option Nat :=
  let k := k.acquire .rcu
  let t := k.pids pid
  let k := k.release .rcu
  match t with
  | none => (k.printk "could not found process entry table!\n", none)
  | some t => (k.printk "found process entry table!\n", some t)

/-- The locked part: the lock, and `branch` with it held.  No verdict is that
there was no lock. -/
def check (ignored : Task a → BitVec 64 → Bool) (x : Extern a) (exchanged : List Nat)
    (k : Kernel a) (t : Nat) (bitPattern : BitVec 64) : Kernel a × Option Verdict :=
  match lockTaskSighand k t exchanged with
  | (k, none) => (k.printk "could not acquire a lock!\n", none)
  | (k, some _) =>
    let (line, task, verdict) := branch ignored x (k.task t) bitPattern
    ((k.printk line).setTask t task, some verdict)

def smunchOf (ignored : Task a → BitVec 64 → Bool) (x : Extern a) (exchanged : List Nat)
    (k : Kernel a) (pid : Int) (bitPattern : BitVec 64) : Kernel a × Int :=
  match lookup k pid with
  | (k, none) => (k, -1)
  | (k, some t) =>
    match check ignored x exchanged k t bitPattern with
    | (k, none) => (k, -1)
    | (k, some .refused) => (unlockTaskSighand k t, -1)
    | (k, some .reap) => (x.releaseTask (unlockTaskSighand k t) t, 0)
    | (k, some .handled) => (unlockTaskSighand k t, 0)

/-- The test in `RW/smunch.c`, the one above it over again. -/
def RW.ignored (t : Task a) (bitPattern : BitVec 64) : Bool := t.exited && killBit bitPattern

def RW.smunch (x : Extern a) := smunchOf RW.ignored x

def DriverCode.ignored (t : Task a) (bitPattern : BitVec 64) : Bool :=
  t.exited && !killBit bitPattern

def DriverCode.smunch (x : Extern a) := smunchOf DriverCode.ignored x

/-! ### A call, up to its end -/

def inPattern (bitPattern : BitVec 64) (s : Signal) : Bool := bitPattern.getLsbD (s.num - 1)

theorem killBit_eq (bitPattern : BitVec 64) :
    killBit bitPattern = inPattern bitPattern SIGKILL := by
  have hbit : (1#32 <<< (SIGKILL.num - 1)).signExtend 64 = BitVec.twoPow 64 8 := by decide
  rw [killBit, hbit, BitVec.and_twoPow, inPattern, show SIGKILL.num - 1 = 8 from rfl]
  split
  · next h => rw [h]; rfl
  · next h => rw [Bool.eq_false_iff.mpr h]; rfl

/-- The target of a call that gets as far as `branch` and finds one thread. -/
structure Single (k : Kernel a) (pid : Int) (t : Nat) : Prop where
  found : k.pids pid = some t
  locked : (k.task t).sighand ≠ none
  alone : (k.task t).threadGroup = []

def LocksReturned (k k' : Kernel a) : Prop :=
  ∃ ops, k'.log = k.log ++ ops ∧ LockOp.Balanced ops

theorem branch_sighand (ignored : Task a → BitVec 64 → Bool) (x : Extern a) (t : Task a)
    (bitPattern : BitVec 64) : (branch ignored x t bitPattern).2.1.sighand = t.sighand := by
  unfold branch
  split_ifs
  · rfl
  · rfl
  · rfl
  · rw [x.wakeUpProcess_eq]
  · rw [signalWakeUp_eq]

/-- The locks of the lookup and of the rounds, before the locks of the last one. -/
theorem balanced_call (exchanged : List Nat) {tail : List (LockOp Lock)}
    (h : LockOp.Balanced tail) :
    LockOp.Balanced ([.acquire .rcu, .release .rcu] ++ (exchanged.flatMap roundLog ++ tail)) :=
  (show LockOp.Balanced [.acquire Lock.rcu, .release .rcu] from rfl).append
    ((balanced_rounds exchanged).append h)

theorem lookup_none {k : Kernel a} {pid : Int} (h : k.pids pid = none) :
    ∃ k', lookup k pid = (k', none) ∧ k.SameTasks k' ∧
      k'.log = k.log ++ [.acquire .rcu, .release .rcu] := by
  refine ⟨(lookup k pid).1, ?_⟩
  simp [lookup, h, Kernel.SameTasks]

theorem lookup_some {k : Kernel a} {pid : Int} {t : Nat} (h : k.pids pid = some t) :
    ∃ k', lookup k pid = (k', some t) ∧ k.SameTasks k' ∧
      k'.log = k.log ++ [.acquire .rcu, .release .rcu] := by
  refine ⟨(lookup k pid).1, ?_⟩
  simp [lookup, h, Kernel.SameTasks]

section

variable (ignored : Task a → BitVec 64 → Bool) (x : Extern a) (exchanged : List Nat)
  (bitPattern : BitVec 64) {k : Kernel a} {pid : Int} {t sighand : Nat}

theorem check_none (h : (k.task t).sighand = none) :
    ∃ k', check ignored x exchanged k t bitPattern = (k', none) ∧ k.SameTasks k' ∧
      k'.log = k.log ++ exchanged.flatMap roundLog ++ lastLog none := by
  refine ⟨(check ignored x exchanged k t bitPattern).1, ?_⟩
  simp [check, lockTaskSighand_eq, h, Kernel.SameTasks]

theorem check_some (h : (k.task t).sighand = some sighand) :
    ∃ k', check ignored x exchanged k t bitPattern =
        (k', some (branch ignored x (k.task t) bitPattern).2.2) ∧
      k'.pids = k.pids ∧
      k'.task = Function.update k.task t (branch ignored x (k.task t) bitPattern).2.1 ∧
      k'.log = k.log ++ exchanged.flatMap roundLog ++ lastLog (some sighand) := by
  refine ⟨(check ignored x exchanged k t bitPattern).1, ?_⟩
  simp [check, lockTaskSighand_eq, h]

/-- The target is not there, or its `sighand` is gone. -/
theorem smunchOf_gone (h : ∀ t, k.pids pid = some t → (k.task t).sighand = none) :
    ∃ k', smunchOf ignored x exchanged k pid bitPattern = (k', -1) ∧ k.SameTasks k' ∧
      LocksReturned k k' := by
  cases hp : k.pids pid with
  | none =>
    obtain ⟨k₁, hl, hsame, hlog⟩ := lookup_none hp
    refine ⟨k₁, ?_, hsame, _, hlog, rfl⟩
    rw [smunchOf, hl]
  | some t =>
    obtain ⟨k₁, hl, hsame₁, hlog₁⟩ := lookup_some hp
    have hs : (k₁.task t).sighand = none := by
      rw [hsame₁.2]
      exact h t hp
    obtain ⟨k₂, hc, hsame₂, hlog₂⟩ := check_none ignored x exchanged bitPattern hs
    have htail : LockOp.Balanced (lastLog none) := rfl
    refine ⟨k₂, ?_, hsame₁.trans hsame₂, _, ?_, balanced_call exchanged htail⟩
    · rw [smunchOf, hl]
      simp only [hc]
    · rw [hlog₂, hlog₁, List.append_assoc, List.append_assoc]

/-- The target is there, with a `sighand`: what happens to it is `branch`. -/
theorem smunchOf_found (hp : k.pids pid = some t) (hs : (k.task t).sighand = some sighand) :
    ∃ k', k'.pids = k.pids ∧
      k'.task = Function.update k.task t (branch ignored x (k.task t) bitPattern).2.1 ∧
      LocksReturned k k' ∧
      smunchOf ignored x exchanged k pid bitPattern =
        match (branch ignored x (k.task t) bitPattern).2.2 with
        | .refused => (k', -1)
        | .reap => (x.releaseTask k' t, 0)
        | .handled => (k', 0) := by
  obtain ⟨k₁, hl, hsame₁, hlog₁⟩ := lookup_some hp
  rw [← hsame₁.2] at hs ⊢
  obtain ⟨k₂, hc, hpids₂, htask₂, hlog₂⟩ := check_some ignored x exchanged bitPattern hs
  have hs₂ : (k₂.task t).sighand = some sighand := by
    rw [htask₂, Function.update_self, branch_sighand, hs]
  refine ⟨unlockTaskSighand k₂ t, ?_, ?_, ?_, ?_⟩
  · rw [unlockTaskSighand_eq k₂ t hs₂]
    exact hpids₂.trans hsame₁.1
  · rw [unlockTaskSighand_eq k₂ t hs₂]
    exact htask₂
  · have htail : LockOp.Balanced
        (lastLog (some sighand) ++ [.release (.siglock sighand), .release .irq]) := by
      simp [LockOp.Balanced, lastLog, LockOp.replay, LockOp.apply]
    refine ⟨_, ?_, balanced_call exchanged htail⟩
    rw [unlockTaskSighand_eq k₂ t hs₂, hlog₂, hlog₁]
    simp only [List.append_assoc]
  · rw [smunchOf, hl]
    simp only [hc]
    cases (branch ignored x (k₁.task t) bitPattern).2.2 <;> rfl

end

/-! ### The branches -/

section Branch

variable {ignored : Task a → BitVec 64 → Bool} (x : Extern a) {t : Task a}
  {bitPattern : BitVec 64}

theorem branch_many (h : t.threadGroup ≠ []) :
    (branch ignored x t bitPattern).2 = (t, .refused) := by
  rw [branch, if_pos h]

theorem branch_reap (h : t.threadGroup = []) (hx : t.exited = true)
    (hk : killBit bitPattern = true) : (branch ignored x t bitPattern).2 = (t, .reap) := by
  rw [branch, if_neg (not_not_intro h), if_pos (by rw [hx, hk]; rfl)]

theorem branch_ignored (h : t.threadGroup = []) (hk : killBit bitPattern = false)
    (hi : ignored t bitPattern = true) :
    (branch ignored x t bitPattern).2 = (t, .handled) := by
  rw [branch, if_neg (not_not_intro h), if_neg (by simp [hk]), if_pos hi]

theorem branch_killed (h : t.threadGroup = []) (hx : t.exited = false)
    (hk : killBit bitPattern = true) (hi : ignored t bitPattern = false) :
    (branch ignored x t bitPattern).2 =
      (x.wakeUpProcess { t with pending := sigaddset t.pending SIGKILL }, .handled) := by
  rw [branch, if_neg (not_not_intro h), if_neg (by simp [hx]), if_neg (by simp [hi]),
    if_pos (by simp [hx, hk])]

theorem branch_posted (h : t.threadGroup = []) (hk : killBit bitPattern = false)
    (hi : ignored t bitPattern = false) :
    (branch ignored x t bitPattern).2 =
      (signalWakeUp x { t with pending := postPattern t.pending bitPattern } false, .handled) := by
  rw [branch, if_neg (not_not_intro h), if_neg (by simp [hk]), if_neg (by simp [hi]),
    if_neg (by simp [hk])]

theorem RW.ignored_of_live (hx : t.exited = false) : RW.ignored t bitPattern = false := by
  rw [RW.ignored, hx, Bool.false_and]

theorem DriverCode.ignored_of_live (hx : t.exited = false) :
    DriverCode.ignored t bitPattern = false := by
  rw [DriverCode.ignored, hx, Bool.false_and]

end Branch

/-! ### A call, by its outcome -/

section Outcome

variable (ignored : Task a → BitVec 64 → Bool) (x : Extern a) (exchanged : List Nat)
  (bitPattern : BitVec 64) {k : Kernel a} {pid : Int} {t : Nat}

theorem smunchOf_refused (h : ∀ t, ¬ Single k pid t) :
    ∃ k', k.SameTasks k' ∧ LocksReturned k k' ∧
      smunchOf ignored x exchanged k pid bitPattern = (k', -1) := by
  by_cases hgone : ∀ t, k.pids pid = some t → (k.task t).sighand = none
  · obtain ⟨k', heq, hsame, hlocks⟩ := smunchOf_gone ignored x exchanged bitPattern hgone
    exact ⟨k', hsame, hlocks, heq⟩
  · push Not at hgone
    obtain ⟨t, hp, hs⟩ := hgone
    have hmany : (k.task t).threadGroup ≠ [] := fun halone => h t ⟨hp, hs, halone⟩
    obtain ⟨sighand, hs⟩ := Option.ne_none_iff_exists'.mp hs
    obtain ⟨k', hpids, htask, hlocks, heq⟩ :=
      smunchOf_found ignored x exchanged bitPattern hp hs
    rw [branch_many x hmany] at htask heq
    rw [Function.update_eq_self] at htask
    exact ⟨k', ⟨hpids, htask⟩, hlocks, heq⟩

theorem smunchOf_reaped (h : Single k pid t) (hx : (k.task t).exited = true)
    (hk : killBit bitPattern = true) :
    ∃ k', k.SameTasks k' ∧ LocksReturned k k' ∧
      smunchOf ignored x exchanged k pid bitPattern = (x.releaseTask k' t, 0) := by
  obtain ⟨sighand, hs⟩ := Option.ne_none_iff_exists'.mp h.locked
  obtain ⟨k', hpids, htask, hlocks, heq⟩ :=
    smunchOf_found ignored x exchanged bitPattern h.found hs
  rw [branch_reap x h.alone hx hk] at htask heq
  rw [Function.update_eq_self] at htask
  exact ⟨k', ⟨hpids, htask⟩, hlocks, heq⟩

theorem smunchOf_handled (h : Single k pid t) {s : Task a}
    (hb : (branch ignored x (k.task t) bitPattern).2 = (s, .handled)) :
    ∃ k', k'.pids = k.pids ∧ k'.task = Function.update k.task t s ∧ LocksReturned k k' ∧
      smunchOf ignored x exchanged k pid bitPattern = (k', 0) := by
  obtain ⟨sighand, hs⟩ := Option.ne_none_iff_exists'.mp h.locked
  obtain ⟨k', hpids, htask, hlocks, heq⟩ :=
    smunchOf_found ignored x exchanged bitPattern h.found hs
  rw [hb] at htask heq
  exact ⟨k', hpids, htask, hlocks, heq⟩

/-- **Every call gives its locks back.** -/
theorem smunchOf_locks :
    LocksReturned k (smunchOf ignored x exchanged k pid bitPattern).1 := by
  by_cases hgone : ∀ t, k.pids pid = some t → (k.task t).sighand = none
  · obtain ⟨k', heq, -, hlocks⟩ := smunchOf_gone ignored x exchanged bitPattern hgone
    rw [heq]
    exact hlocks
  · push Not at hgone
    obtain ⟨t, hp, hs⟩ := hgone
    obtain ⟨sighand, hs⟩ := Option.ne_none_iff_exists'.mp hs
    obtain ⟨k', -, -, hlocks, heq⟩ := smunchOf_found ignored x exchanged bitPattern hp hs
    rw [heq]
    split
    · exact hlocks
    · rw [LocksReturned, x.releaseTask_log]
      exact hlocks
    · exact hlocks

end Outcome

/-! ### The contract -/

structure Killed (t t' : Task a) : Prop where
  pending : ∀ s, sigismember t'.pending s = true ↔ s = SIGKILL ∨ sigismember t.pending s = true
  runnable : t.state &&& TASK_ALL ≠ 0 → t'.state = TASK_RUNNING
  rest : t' = { t with pending := t'.pending, state := t'.state }

structure Posted (bitPattern : BitVec 64) (t t' : Task a) : Prop where
  pending : ∀ s, sigismember t'.pending s = true ↔
    sigismember t.pending s = true ∨ inPattern bitPattern s = true
  flag : t'.tifSigpending = true
  woken : t.state &&& TASK_INTERRUPTIBLE ≠ 0 → t'.state = TASK_RUNNING
  asleep : t.state &&& TASK_INTERRUPTIBLE = 0 → t'.state = t.state
  rest : t' = { t with pending := t'.pending, tifSigpending := true, state := t'.state }

/-- What is asked of a call and its result `r`. -/
structure Contract (x : Extern a) (k : Kernel a) (pid : Int) (bitPattern : BitVec 64)
    (r : Kernel a × Int) : Prop where
  refused : (∀ t, ¬ Single k pid t) → r.2 = -1 ∧ k.SameTasks r.1
  reaped : ∀ t, Single k pid t → (k.task t).exited = true → inPattern bitPattern SIGKILL = true →
    r.2 = 0 ∧ ∃ k', k.SameTasks k' ∧ r.1 = x.releaseTask k' t
  ignored : ∀ t, Single k pid t → (k.task t).exited = true →
    inPattern bitPattern SIGKILL = false → r.2 = 0 ∧ k.SameTasks r.1
  killed : ∀ t, Single k pid t → (k.task t).exited = false →
    inPattern bitPattern SIGKILL = true →
      r.2 = 0 ∧ k.OnlyTask t r.1 ∧ Killed (k.task t) (r.1.task t)
  posted : ∀ t, Single k pid t → (k.task t).exited = false →
    inPattern bitPattern SIGKILL = false →
      r.2 = 0 ∧ k.OnlyTask t r.1 ∧ Posted bitPattern (k.task t) (r.1.task t)
  locks : LocksReturned k r.1

theorem killed_wakeUpProcess (x : Extern a) (hw : x.WakesAll) (t : Task a) :
    Killed t (x.wakeUpProcess { t with pending := sigaddset t.pending SIGKILL }) := by
  rw [x.wakeUpProcess_eq]
  exact ⟨sigismember_sigaddset t.pending SIGKILL, fun h => if_neg (hw _ h), rfl⟩

theorem posted_signalWakeUp (x : Extern a) (t : Task a) (bitPattern : BitVec 64) :
    Posted bitPattern t
      (signalWakeUp x { t with pending := postPattern t.pending bitPattern } false) := by
  rw [signalWakeUp_eq]
  exact ⟨sigismember_postPattern t.pending bitPattern, rfl, fun h => if_neg h, fun h => if_pos h,
    rfl⟩

/-- **`smunch` of `driverCode/smunch.c` keeps its contract**, in every state and
after any number of rounds for the lock. -/
theorem smunch_contract (x : Extern a) (hw : x.WakesAll) (exchanged : List Nat) (k : Kernel a)
    (pid : Int) (bitPattern : BitVec 64) :
    Contract x k pid bitPattern (DriverCode.smunch x exchanged k pid bitPattern) := by
  refine ⟨fun h => ?_, fun t h hx hk => ?_, fun t h hx hk => ?_, fun t h hx hk => ?_,
    fun t h hx hk => ?_, smunchOf_locks _ x exchanged bitPattern⟩
  · obtain ⟨k', hsame, -, heq⟩ := smunchOf_refused _ x exchanged bitPattern h
    rw [DriverCode.smunch, heq]
    exact ⟨rfl, hsame⟩
  · rw [← killBit_eq] at hk
    obtain ⟨k', hsame, -, heq⟩ := smunchOf_reaped _ x exchanged bitPattern h hx hk
    rw [DriverCode.smunch, heq]
    exact ⟨rfl, k', hsame, rfl⟩
  · rw [← killBit_eq] at hk
    have hi : DriverCode.ignored (k.task t) bitPattern = true := by
      rw [DriverCode.ignored, hx, hk]
      rfl
    obtain ⟨k', hpids, htask, -, heq⟩ :=
      smunchOf_handled _ x exchanged bitPattern h (branch_ignored x h.alone hk hi)
    rw [DriverCode.smunch, heq]
    rw [Function.update_eq_self] at htask
    exact ⟨rfl, hpids, htask⟩
  · rw [← killBit_eq] at hk
    obtain ⟨k', hpids, htask, -, heq⟩ := smunchOf_handled _ x exchanged bitPattern h
      (branch_killed x h.alone hx hk (DriverCode.ignored_of_live hx))
    rw [DriverCode.smunch, heq, Kernel.OnlyTask, htask, Function.update_self]
    exact ⟨rfl, ⟨hpids, fun u hu => Function.update_of_ne hu _ _⟩, killed_wakeUpProcess x hw _⟩
  · rw [← killBit_eq] at hk
    obtain ⟨k', hpids, htask, -, heq⟩ := smunchOf_handled _ x exchanged bitPattern h
      (branch_posted x h.alone hk (DriverCode.ignored_of_live hx))
    rw [DriverCode.smunch, heq, Kernel.OnlyTask, htask, Function.update_self]
    exact ⟨rfl, ⟨hpids, fun u hu => Function.update_of_ne hu _ _⟩, posted_signalWakeUp x _ _⟩

/-! ### A table of one task -/

/-- Task 0, under the pid 7. -/
def oneTask (t : Task a) : Kernel a where
  pids pid := if pid = 7 then some 0 else none
  task _ := t
  log := []
  printed := []

/-- A task in an interruptible sleep, with nothing pending and nothing blocked. -/
def sleeper (a : Arch) : Task a where
  state := TASK_INTERRUPTIBLE
  exitState := 0
  sighand := some 0
  threadGroup := []
  pending _ := 0
  sharedPending _ := 0
  blocked _ := 0
  jobctl := 0
  tifSigpending := false

def zombie (a : Arch) : Task a := { sleeper a with exitState := EXIT_ZOMBIE }

theorem sleeper_recalced (a : Arch) : (sleeper a).Recalced := by
  rintro ⟨s, hs, -⟩
  exact absurd ((sigismember_empty s).symm.trans (hs.elim id id)) (by decide)

/-- A stopped task and a pattern with `SIGINT`, `SIGKILL` and signal 40, in two words. -/
theorem smunch_contract_stopped :
    Killed { sleeper .twoWords with state := TASK_STOPPED_BIT }
      ((DriverCode.smunch (Extern.simplest .twoWords) [3]
        (oneTask { sleeper .twoWords with state := TASK_STOPPED_BIT }) 7
        (2#64 ||| 1#64 <<< 8 ||| 1#64 <<< 39)).1.task 0) :=
  ((smunch_contract (Extern.simplest .twoWords) (Extern.simplest_wakesAll .twoWords) [3]
    (oneTask { sleeper .twoWords with state := TASK_STOPPED_BIT }) 7
    (2#64 ||| 1#64 <<< 8 ||| 1#64 <<< 39)).killed 0 ⟨rfl, nofun, rfl⟩ rfl rfl).2.2

end LinuxKerDev.Signals
