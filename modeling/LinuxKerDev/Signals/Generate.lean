import LinuxKerDev.Signals.Send

/-!
# The ways a signal is generated

The functions of `signal.c` that send a signal to a process, down to the
locks they take themselves, and the two system calls on the counters.  All but
`send_sigqueue` go through `__send_signal`; `do_send_sig_info` is the one that
counts.

A `NULL` pointer that the source follows is `none`.  `Call` is a call of any of
these functions, and `Call.run` its effect, with the signal it has generated.
None of them wakes a task in an uninterruptible sleep (`Call.run_spec`).
-/

namespace LinuxKerDev.Signals

open Lib

variable {a : Arch}

namespace World

def setKernel (w : World a) (k : Kernel a) : World a := { w with kernel := k }

theorem setKernel_task (w : World a) (k : Kernel a) (t : Nat) :
    (w.setKernel k).task t = k.task t := rfl

def count (w : World a) (p : Nat) (sig : Signal) : World a :=
  match (w.task p).sighand with
  | none => w
  | some d =>
    { w with
      counters := Function.update w.counters d
        (Function.update (w.counters d) sig.num (w.counters d sig.num + 1)) }

def onSigqueue (w : World a) (q : Nat) (f : Sigqueue → Sigqueue) : World a :=
  { w with sigqueue := Function.update w.sigqueue q (f (w.sigqueue q)) }

def setHandler (w : World a) (d : Nat) (sig : Signal) (handler : Handler) : World a :=
  { w with
    action := Function.update w.action d
      (Function.update (w.action d) sig { w.action d sig with handler := handler }) }

end World

section

variable (x : Extern a) (h : Headers a)

/-! ### `do_send_sig_info` -/

/-- `do_send_sig_info`.  `exchanged` are the rounds for the lock. -/
def doSendSigInfo (exchanged : List Nat) (alloc hidden : Bool) (w : World a) (sig : Signal)
    (info : Info) (p : Nat) (group : Bool) : World a × Int :=
  match lockTaskSighand w.kernel p exchanged with
  | (k, none) => (w.setKernel k, -ESRCH)
  | (k, some _) =>
    let (w, ret) := sendSignal x h alloc hidden (w.setKernel k) sig info p group
    let w := w.count p sig
    (w.setKernel (unlockTaskSighand w.kernel p), ret)

/-! ### The others -/

def groupSendSigInfo (alloc hidden : Bool) (w : World a) (sig : Signal) (info : Info)
    (p : Nat) : World a × Int := sendSignal x h alloc hidden w sig info p true

def specificSendSigInfo (alloc hidden : Bool) (w : World a) (sig : Signal) (info : Info)
    (t : Nat) : World a × Int := sendSignal x h alloc hidden w sig info t false

def recalcSigpendingAndWake (t : Task a) : Task a :=
  let (t, pending) := recalcSigpendingTsk t
  if pending = true then signalWakeUp x t false else t

/-- `force_sig_info` on a signal that is blocked or ignored. -/
def forceHandler (w : World a) (d : Nat) (sig : Signal) (t : Nat) : World a :=
  let ignored := (w.action d sig).handler = .ign
  let blocked := sigismember (w.task t).blocked sig
  if blocked = true ∨ ignored then
    let w := w.setHandler d sig .dfl
    if blocked = true then
      w.onTask t fun s => recalcSigpendingAndWake x { s with blocked := sigdelset s.blocked sig }
    else w
  else w

/-- `force_sig_info`, before it sends -/
def forceDefault (w : World a) (d : Nat) (sig : Signal) (t : Nat) : World a :=
  let w := forceHandler x w d sig t
  if (w.action d sig).handler = .dfl then
    w.onSignal t fun m => { m with flags := m.flags &&& ~~~SIGNAL_UNKILLABLE }
  else w

def forceSigInfo (alloc hidden : Bool) (w : World a) (sig : Signal) (info : Info) (t : Nat) :
    Option (World a × Int) :=
  match (w.task t).sighand with
  | none => none
  | some d =>
    let w := w.setKernel ((w.kernel.acquire .irq).acquire (.siglock d))
    let w := forceDefault x w d sig t
    let (w, ret) := specificSendSigInfo x h alloc hidden w sig info t
    some (w.setKernel ((w.kernel.release (.siglock d)).release .irq), ret)

/-- `kill_pid_info_as_cred`.  `perm` is what `kill_as_cred_perm` answers, and
`security` what `security_task_kill` does. -/
def killPidInfoAsCred (exchanged : List Nat) (alloc perm : Bool) (security : Int) (w : World a)
    (sig : Nat) (info : Info) (pid : Int) : World a × Int :=
  if 64 < sig then (w, -EINVAL)
  else
    let w := w.setKernel (w.kernel.acquire .rcu)
    let unlock (r : World a × Int) : World a × Int := (r.1.setKernel (r.1.kernel.release .rcu), r.2)
    match w.kernel.pids pid with
    | none => unlock (w, -ESRCH)
    | some p =>
      if siFromuser info = true ∧ perm = false then unlock (w, -EPERM)
      else if security ≠ 0 then unlock (w, security)
      else if hs : 1 ≤ sig ∧ sig ≤ 64 then
        match lockTaskSighand w.kernel p exchanged with
        | (k, none) => unlock (w.setKernel k, -ESRCH)
        | (k, some _) =>
          let (w, ret) :=
            sendSignal₀ x h alloc (w.setKernel k) ⟨sig, hs.1, hs.2⟩ info p true false
          unlock (w.setKernel (unlockTaskSighand w.kernel p), ret)
      else unlock (w, 0)

def exitCode (exitCode : BitVec 32) : Cld :=
  if exitCode &&& 0x80 ≠ 0 then .dumped
  else if exitCode &&& 0x7f ≠ 0 then .killed
  else .exited

def exitInfo (w : World a) (tsk : Nat) (sig : Signal) : Info :=
  .real sig (h.cld (exitCode (w.thread tsk).exitCode))

/-- The signal `do_notify_parent` sends to the parent, whose `sighand` is `d`, or
none; and whether it answers `autoreap`. -/
def parentSignal (w : World a) (tsk d : Nat) (sig : Option Signal) : Option Signal × Bool :=
  let sig :=
    if sig ≠ some h.SIGCHLD ∧
        (w.thread tsk).parentExecId ≠ (w.thread (w.thread tsk).parent).selfExecId then
      some h.SIGCHLD
    else sig
  let act := w.action d h.SIGCHLD
  if (w.thread tsk).ptrace = 0 ∧ sig = some h.SIGCHLD ∧
      (act.handler = .ign ∨ act.noCldWait = true) then
    (if act.handler = .ign then none else sig, true)
  else (sig, false)

/-- `do_notify_parent`, with what it has sent and the answer to that, which it
drops.  No signal is a `sig` of 0. -/
def doNotifyParent (alloc hidden : Bool) (w : World a) (tsk : Nat) (sig : Option Signal) :
    Option (World a × Bool × Option (Signal × Int)) :=
  let parent := (w.thread tsk).parent
  match (w.task parent).sighand with
  | none => none
  | some d =>
    -- the two `BUG_ON`s about the state of `tsk`
    if (w.task tsk).state &&& (TASK_STOPPED_BIT ||| TASK_TRACED_BIT) ≠ 0 ∨
        (w.thread tsk).ptrace = 0 ∧
          ((w.thread tsk).groupLeader ≠ tsk ∨ (w.task tsk).threadGroup ≠ []) then none
    else
      let w := w.setKernel ((w.kernel.acquire .irq).acquire (.siglock d))
      match parentSignal h w tsk d sig with
      | (none, autoreap) =>
        some (w.setKernel ((w.kernel.release (.siglock d)).release .irq), autoreap, none)
      | (some sig, autoreap) =>
        let info := exitInfo h w tsk sig
        let (w, ret) := groupSendSigInfo x h alloc hidden w sig info parent
        some (w.setKernel ((w.kernel.release (.siglock d)).release .irq), autoreap, some (sig, ret))

def cldstopParent (w : World a) (tsk : Nat) (forPtracer : Bool) : Nat :=
  if forPtracer = true then (w.thread tsk).parent
  else (w.thread (w.thread tsk).groupLeader).realParent

/-- `do_notify_parent_cldstop`, with the answer of what it sends. -/
def doNotifyParentCldstop (alloc hidden : Bool) (w : World a) (tsk : Nat) (forPtracer : Bool)
    (why : Cld) : Option (World a × Option Int) :=
  let parent := cldstopParent w tsk forPtracer
  match (w.task parent).sighand with
  | none => none
  | some d =>
    if why = .continued ∨ why = .stopped ∨ why = .trapped then
      let w := w.setKernel ((w.kernel.acquire .irq).acquire (.siglock d))
      let act := w.action d h.SIGCHLD
      if act.handler ≠ .ign ∧ act.noCldStop = false then
        let (w, ret) :=
          groupSendSigInfo x h alloc hidden w h.SIGCHLD (.real h.SIGCHLD (h.cld why)) parent
        some (w.setKernel ((w.kernel.release (.siglock d)).release .irq), some ret)
      else some (w.setKernel ((w.kernel.release (.siglock d)).release .irq), none)
    else none

/-- `send_sigqueue`, with the lock held -/
def lockedSendSigqueue (w : World a) (q t : Nat) (group : Bool) : World a × Int :=
  let sig := (w.sigqueue q).signo
  let (w, deliver) := prepareSignal x h w sig t false
  if deliver = false then (w, 1)
  else if (w.sigqueue q).listed = true then
    (w.onSigqueue q fun m => { m with overrun := m.overrun + 1 }, 0)
  else
    let w := w.onSigqueue q fun m => { m with listed := true, overrun := 0 }
    (outSet x h (addEntry w t group ⟨sig, some q⟩) sig t group, 0)

def sendSigqueue (exchanged : List Nat) (w : World a) (q t : Nat) (group : Bool) : World a × Int :=
  match lockTaskSighand w.kernel t exchanged with
  | (k, none) => (w.setKernel k, -1)
  | (k, some _) =>
    let (w, ret) := lockedSendSigqueue x h (w.setKernel k) q t group
    (w.setKernel (unlockTaskSighand w.kernel t), ret)

end

/-! ### A call, whichever it is -/

inductive Call
  | doSendSigInfo (exchanged : List Nat) (alloc hidden : Bool) (sig : Signal) (info : Info)
      (p : Nat) (group : Bool)
  | killPidInfoAsCred (exchanged : List Nat) (alloc perm : Bool) (security : Int) (sig : Nat)
      (info : Info) (pid : Int)
  | forceSigInfo (alloc hidden : Bool) (sig : Signal) (info : Info) (t : Nat)
  | groupSendSigInfo (alloc hidden : Bool) (sig : Signal) (info : Info) (p : Nat)
  | doNotifyParent (alloc hidden : Bool) (tsk : Nat) (sig : Option Signal)
  | doNotifyParentCldstop (alloc hidden : Bool) (tsk : Nat) (forPtracer : Bool) (why : Cld)
  | sendSigqueue (exchanged : List Nat) (q t : Nat) (group : Bool)
  deriving DecidableEq, Repr

/-- A signal has been generated for the process with this `sighand`, or the counters
of that have been cleared. -/
inductive Mark
  | sent (sighand : Nat) (sig : Signal)
  | cleared (sighand : Nat)
  deriving DecidableEq, Repr

/-- The mark of a signal that was sent to `t`, with the answer `ret`. -/
def generated (w : World a) (t : Nat) (sig : Signal) (ret : Int) : List Mark :=
  match (w.task t).sighand with
  | some d => if ret = 0 then [.sent d sig] else []
  | none => []

/-- `__group_send_sig_info` is called with the lock of a `sighand`, so there is one. -/
def Call.run (x : Extern a) (h : Headers a) (w : World a) : Call → Option (World a × List Mark)
  | .doSendSigInfo exchanged alloc hidden sig info p group =>
    let r := Signals.doSendSigInfo x h exchanged alloc hidden w sig info p group
    some (r.1, generated w p sig r.2)
  | .killPidInfoAsCred exchanged alloc perm security sig info pid =>
    let r := Signals.killPidInfoAsCred x h exchanged alloc perm security w sig info pid
    some (r.1,
      match w.kernel.pids pid with
      | none => []
      | some p => if hs : 1 ≤ sig ∧ sig ≤ 64 then generated w p ⟨sig, hs.1, hs.2⟩ r.2 else [])
  | .forceSigInfo alloc hidden sig info t =>
    (Signals.forceSigInfo x h alloc hidden w sig info t).map fun r =>
      (r.1, generated w t sig r.2)
  | .groupSendSigInfo alloc hidden sig info p =>
    let r := Signals.groupSendSigInfo x h alloc hidden w sig info p
    if (w.task p).sighand = none then none else some (r.1, generated w p sig r.2)
  | .doNotifyParent alloc hidden tsk sig =>
    (Signals.doNotifyParent x h alloc hidden w tsk sig).map fun r =>
      (r.1,
        match r.2.2 with
        | none => []
        | some (sig, ret) => generated w (w.thread tsk).parent sig ret)
  | .doNotifyParentCldstop alloc hidden tsk forPtracer why =>
    (Signals.doNotifyParentCldstop x h alloc hidden w tsk forPtracer why).map fun r =>
      (r.1,
        match r.2 with
        | none => []
        | some ret => generated w (cldstopParent w tsk forPtracer) h.SIGCHLD ret)
  | .sendSigqueue exchanged q t group =>
    let r := Signals.sendSigqueue x h exchanged w q t group
    some (r.1, generated w t (w.sigqueue q).signo r.2)

/-! ### What is left alone -/

theorem lockTaskSighand_sameTasks (k : Kernel a) (t : Nat) (exchanged : List Nat) :
    k.SameTasks (lockTaskSighand k t exchanged).1 := by
  rw [lockTaskSighand_eq]
  exact ⟨rfl, rfl⟩

theorem unlockTaskSighand_sameTasks (k : Kernel a) (t : Nat) :
    k.SameTasks (unlockTaskSighand k t) := by
  unfold unlockTaskSighand
  split
  · exact ⟨rfl, rfl⟩
  · exact ⟨rfl, rfl⟩

namespace Uncounted

theorem of_kernel {w w' : World a} (hk : w.kernel.SameTasks w'.kernel)
    (hc : w'.counters = w.counters) : Uncounted w w' := by
  refine ⟨⟨hk.1, fun t => ?_⟩, hc⟩
  rw [World.task, World.task, hk.2]
  exact .refl _

theorem setKernel {w : World a} {k : Kernel a} (hk : w.kernel.SameTasks k) :
    Uncounted w (w.setKernel k) := of_kernel hk rfl

theorem onTask (w : World a) (t : Nat) {f : Task a → Task a}
    (hf : SleepsOn (w.task t) (f (w.task t))) : Uncounted w (w.onTask t f) := by
  refine ⟨⟨rfl, fun u => ?_⟩, rfl⟩
  rw [World.onTask_task]
  by_cases hu : u = t
  · subst hu
    rw [Function.update_self]
    exact hf
  · rw [Function.update_of_ne hu]
    exact .refl _

theorem lock (w : World a) (t : Nat) (exchanged : List Nat) :
    Uncounted w (w.setKernel (lockTaskSighand w.kernel t exchanged).1) :=
  setKernel (lockTaskSighand_sameTasks w.kernel t exchanged)

theorem unlock (w : World a) (t : Nat) :
    Uncounted w (w.setKernel (unlockTaskSighand w.kernel t)) :=
  setKernel (unlockTaskSighand_sameTasks w.kernel t)

end Uncounted

theorem SleepsOn.blocked (s : Task a) (set : Sigset a) : SleepsOn s { s with blocked := set } :=
  ⟨rfl, rfl, rfl, id⟩

theorem SleepsOn.recalcSigpendingAndWake (x : Extern a) (s : Task a) :
    SleepsOn s (recalcSigpendingAndWake x s) := by
  have hrecalc : SleepsOn s (recalcSigpendingTsk s).1 := by
    unfold recalcSigpendingTsk
    split
    · exact (SparesTask.tifSigpending s).toSleepsOn
    · exact .refl s
  unfold Signals.recalcSigpendingAndWake
  split
  next s' pending he =>
  rw [he] at hrecalc
  split
  · exact hrecalc.trans (SparesTask.signalWakeUp x s' false).toSleepsOn
  · exact hrecalc

theorem count_counters_congr {w w' : World a} (hw : Uncounted w w') (p : Nat) (sig : Signal) :
    (w'.count p sig).counters = (w.count p sig).counters := by
  rw [World.count, World.count, (hw.task p).sighand]
  split
  · exact hw.counters
  · simp only [hw.counters]

theorem allSleepOn_count (w : World a) (p : Nat) (sig : Signal) : AllSleepOn w (w.count p sig) := by
  unfold World.count
  split
  · exact .refl w
  · exact ⟨rfl, fun _ => .refl _⟩

section

variable (x : Extern a) (h : Headers a)

/-! ### What each of them does -/

theorem sendSignal_spec (alloc hidden : Bool) (w : World a) (sig : Signal) (info : Info)
    (t : Nat) (group : Bool) :
    Spares w (sendSignal x h alloc hidden w sig info t group).1 ∧
      (sendSignal x h alloc hidden w sig info t group).2 =
        sendRet (overflows h w sig t (siFromuser info && hidden) alloc info) :=
  ⟨Spares.sendSignal₀ x h alloc w sig info t group _, sendSignal₀_ret x h w sig t _ alloc info group⟩

/-- **`do_send_sig_info` counts every signal that it sends**, and those that it fails
to queue. -/
theorem doSendSigInfo_spec (exchanged : List Nat) (alloc hidden : Bool) (w : World a)
    (sig : Signal) (info : Info) (p : Nat) (group : Bool) :
    ∃ w', AllSleepOn w w' ∧ w'.counters = (w.count p sig).counters ∧
      doSendSigInfo x h exchanged alloc hidden w sig info p group =
        (w', if (w.task p).sighand = none then -ESRCH
          else sendRet (overflows h w sig p (siFromuser info && hidden) alloc info)) := by
  cases hs : (w.task p).sighand with
  | none =>
    have hk : (w.kernel.task p).sighand = none := hs
    refine ⟨_, (Uncounted.lock w p exchanged).toAllSleepOn, ?_, ?_⟩
    · rw [World.count, hs]
      rfl
    · rw [doSendSigInfo, lockTaskSighand_eq, hk, if_pos rfl]
  | some d =>
    have hk : (w.kernel.task p).sighand = some d := hs
    have hlock := Uncounted.lock w p exchanged
    obtain ⟨hspares, hret⟩ := sendSignal_spec x h alloc hidden
      (w.setKernel (lockTaskSighand w.kernel p exchanged).1) sig info p group
    have hsent := hlock.trans hspares.uncounted
    refine ⟨_, (hsent.toAllSleepOn.trans (allSleepOn_count _ p sig)).trans
      (Uncounted.unlock _ p).toAllSleepOn, count_counters_congr hsent p sig, ?_⟩
    rw [doSendSigInfo, if_neg (Option.some_ne_none d)]
    simp only [lockTaskSighand_eq, hk] at hret ⊢
    exact Prod.ext rfl hret

/-- `__group_send_sig_info` and the like, between the two halves of a lock. -/
theorem locked_send_spec (alloc hidden : Bool) {w w₁ : World a} (hw : Uncounted w w₁)
    (sig : Signal) (info : Info) (t d : Nat) (group : Bool) :
    Uncounted w ((sendSignal x h alloc hidden w₁ sig info t group).1.setKernel
      (((sendSignal x h alloc hidden w₁ sig info t group).1.kernel.release (.siglock d)).release
        .irq)) :=
  (hw.trans (sendSignal_spec x h alloc hidden w₁ sig info t group).1.uncounted).trans
    (Uncounted.setKernel ⟨rfl, rfl⟩)

theorem forceHandler_ne_ign (w : World a) (d : Nat) (sig : Signal) (t : Nat) :
    ((forceHandler x w d sig t).action d sig).handler ≠ .ign := by
  have hset : (((w.setHandler d sig .dfl).action d sig).handler) = .dfl := by
    simp only [World.setHandler, Function.update_self]
  unfold forceHandler
  dsimp only
  split_ifs with hf
  · exact fun hh => nomatch hset.symm.trans hh
  · exact fun hh => nomatch hset.symm.trans hh
  · exact fun hh => hf (Or.inr hh)

theorem uncounted_forceDefault (w : World a) (d : Nat) (sig : Signal) (t : Nat) :
    Uncounted w (forceDefault x w d sig t) := by
  have hset : Uncounted w (w.setHandler d sig .dfl) := .of_kernel ⟨rfl, rfl⟩ rfl
  have hunblock : ∀ w : World a, Uncounted w (w.onTask t fun s =>
      recalcSigpendingAndWake x { s with blocked := sigdelset s.blocked sig }) := fun w =>
    .onTask w t (.trans (.blocked _ _) (.recalcSigpendingAndWake x _))
  have hhandler : Uncounted w (forceHandler x w d sig t) := by
    unfold forceHandler
    dsimp only
    split_ifs
    · exact hset.trans (hunblock _)
    · exact hset
    · exact .refl w
  unfold forceDefault
  dsimp only
  split
  · exact hhandler.trans (Spares.onSignal _ t _).uncounted
  · exact hhandler

/-- `force_sig_info` has made sure that a real-time signal is not ignored. -/
theorem sigIgnored_forceDefault {w : World a} {d t : Nat} {sig : Signal}
    (hd : (w.task t).sighand = some d) (hrt : h.SIGRTMIN ≤ sig.num) (fromAncestorNs : Bool) :
    sigIgnored h (forceDefault x w d sig t) t sig fromAncestorNs = false := by
  have hkernel : sigKernelIgnore h sig = false := by
    rw [sigKernelIgnore, siginmask, decide_eq_false (by omega), Bool.false_and]
  have hsighand : ((forceDefault x w d sig t).task t).sighand = some d :=
    ((uncounted_forceDefault x w d sig t).task t).sighand.trans hd
  have hhandler : sigHandler (forceDefault x w d sig t) t sig =
      ((forceHandler x w d sig t).action d sig).handler := by
    rw [sigHandler, hsighand]
    unfold forceDefault
    dsimp only
    split
    · rfl
    · rfl
  have htask : sigTaskIgnored h (forceDefault x w d sig t) t sig fromAncestorNs = false := by
    have hign := forceHandler_ne_ign x w d sig t
    unfold sigTaskIgnored
    rw [hhandler]
    cases hh : ((forceHandler x w d sig t).action d sig).handler with
    | ign => exact absurd hh hign
    | user => rw [if_neg (by simp), sigHandlerIgnored]; rfl
    | dfl =>
      have hflags : ((forceDefault x w d sig t).signalOf t).flags &&& SIGNAL_UNKILLABLE = 0 := by
        unfold forceDefault
        dsimp only
        rw [if_pos hh, World.signalOf_onSignal, BitVec.and_assoc, BitVec.and_comm (~~~_),
          BitVec.and_not_self]
        exact BitVec.and_zero
      rw [if_neg (fun hc => hc.1 hflags), sigHandlerIgnored, hkernel]
      rfl
  rw [sigIgnored, htask]
  split
  · rfl
  · rfl

theorem forceSigInfo_spec (alloc hidden : Bool) {w : World a} (sig : Signal) (info : Info)
    {t d : Nat} (hd : (w.task t).sighand = some d) :
    ∃ w', Uncounted w w' ∧ forceSigInfo x h alloc hidden w sig info t =
      some (w', sendRet (mustQueue h sig alloc info)) := by
  have hlock : Uncounted w (w.setKernel ((w.kernel.acquire .irq).acquire (.siglock d))) :=
    .setKernel ⟨rfl, rfl⟩
  have hdefault := hlock.trans (uncounted_forceDefault x _ d sig t)
  refine ⟨_, locked_send_spec x h alloc hidden hdefault sig info t d false, ?_⟩
  have hret := (sendSignal_spec x h alloc hidden (forceDefault x
    (w.setKernel ((w.kernel.acquire .irq).acquire (.siglock d))) d sig t) sig info t false).2
  have hover : overflows h (forceDefault x
      (w.setKernel ((w.kernel.acquire .irq).acquire (.siglock d))) d sig t) sig t
      (siFromuser info && hidden) alloc info = mustQueue h sig alloc info := by
    cases hm : mustQueue h sig alloc info with
    | false => rw [overflows, hm, Bool.false_and]
    | true =>
      have hrt := le_of_mustQueue h sig hm
      rw [overflows, hm, sigIgnored_forceDefault x h ?_ hrt]
      · rfl
      · exact hd
  rw [hover] at hret
  unfold forceSigInfo
  rw [hd]
  exact congrArg some (Prod.ext rfl hret)

theorem uncounted_killPidInfoAsCred (exchanged : List Nat) (alloc perm : Bool) (security : Int)
    (w : World a) (sig : Nat) (info : Info) (pid : Int) :
    Uncounted w (killPidInfoAsCred x h exchanged alloc perm security w sig info pid).1 := by
  have hlock : Uncounted w (w.setKernel (w.kernel.acquire .rcu)) := .setKernel ⟨rfl, rfl⟩
  have hunlock : ∀ {w' : World a}, Uncounted (w.setKernel (w.kernel.acquire .rcu)) w' →
      Uncounted w (w'.setKernel (w'.kernel.release .rcu)) := fun hw =>
    (hlock.trans hw).trans (.setKernel ⟨rfl, rfl⟩)
  have hrefl := Uncounted.refl (w.setKernel (w.kernel.acquire .rcu))
  have hpids : (w.setKernel (w.kernel.acquire .rcu)).kernel.pids pid = w.kernel.pids pid := rfl
  unfold killPidInfoAsCred
  dsimp only
  by_cases h64 : 64 < sig
  · rw [if_pos h64]
    exact .refl w
  · rw [if_neg h64, hpids]
    cases w.kernel.pids pid with
    | none => exact hunlock hrefl
    | some p =>
      dsimp only
      split_ifs
      · exact hunlock hrefl
      · exact hunlock hrefl
      · have htry := Uncounted.lock (w.setKernel (w.kernel.acquire .rcu)) p exchanged
        split
        · next he =>
          rw [he] at htry
          exact hunlock htry
        · next k d he =>
          rw [he] at htry
          refine hunlock (htry.trans ((Spares.uncounted ?_).trans (.unlock _ p)))
          exact Spares.sendSignal₀ x h alloc _ _ info p true false
      · exact hunlock hrefl

theorem killPidInfoAsCred_ret (exchanged : List Nat) (alloc perm : Bool) (security : Int)
    {w : World a} {sig : Nat} (info : Info) {pid : Int} {p d : Nat}
    (hp : w.kernel.pids pid = some p) (hd : (w.task p).sighand = some d)
    (hs : 1 ≤ sig ∧ sig ≤ 64) :
    (killPidInfoAsCred x h exchanged alloc perm security w sig info pid).2 = 0 ↔
      (siFromuser info && !perm || decide (security ≠ 0) ||
        overflows h w ⟨sig, hs.1, hs.2⟩ p false alloc info) = false := by
  unfold killPidInfoAsCred
  dsimp only
  rw [if_neg (by omega)]
  have hpids : (w.setKernel (w.kernel.acquire .rcu)).kernel.pids pid = some p := hp
  rw [hpids]
  dsimp only
  split_ifs with hperm hsec
  · have hret : -EPERM ≠ 0 := by decide
    exact iff_of_false hret (by simp [hperm])
  · exact iff_of_false hsec (by simp [hsec])
  · have hk : ((w.setKernel (w.kernel.acquire .rcu)).kernel.task p).sighand = some d := hd
    have hallowed : (siFromuser info && !perm) = false := by
      cases hb : perm with
      | true => rw [Bool.not_true, Bool.and_false]
      | false => rw [Bool.eq_false_iff.mpr fun hfrom => hperm ⟨hfrom, hb⟩, Bool.false_and]
    simp only [lockTaskSighand_eq, hk, sendSignal₀_ret, sendRet_eq_zero]
    rw [hallowed, decide_eq_false hsec]
    rfl

theorem doNotifyParent_spec {alloc hidden : Bool} {w : World a} {tsk : Nat}
    {sig : Option Signal} {r : World a × Bool × Option (Signal × Int)}
    (hr : doNotifyParent x h alloc hidden w tsk sig = some r) :
    ∃ d, (w.task (w.thread tsk).parent).sighand = some d ∧ Uncounted w r.1 ∧
      r.2.2 = (parentSignal h w tsk d sig).1.map fun s =>
        (s, sendRet (overflows h w s (w.thread tsk).parent
          (siFromuser (exitInfo h w tsk s) && hidden) alloc (exitInfo h w tsk s))) := by
  unfold doNotifyParent at hr
  dsimp only at hr
  cases hd : (w.task (w.thread tsk).parent).sighand with
  | none => rw [hd] at hr; cases hr
  | some d =>
    rw [hd] at hr
    dsimp only at hr
    split_ifs at hr
    have hsame : parentSignal h (w.setKernel ((w.kernel.acquire .irq).acquire (.siglock d))) tsk d
      sig = parentSignal h w tsk d sig := rfl
    refine ⟨d, rfl, ?_⟩
    have hlock : Uncounted w (w.setKernel ((w.kernel.acquire .irq).acquire (.siglock d))) :=
      .setKernel ⟨rfl, rfl⟩
    rw [hsame] at hr
    split at hr
    · next autoreap hp =>
      obtain rfl := Option.some.inj hr
      rw [hp]
      exact ⟨hlock.trans (.setKernel ⟨rfl, rfl⟩), rfl⟩
    · next s autoreap hp =>
      obtain rfl := Option.some.inj hr
      rw [hp]
      have hret := (sendSignal_spec x h alloc hidden (w.setKernel ((w.kernel.acquire .irq).acquire
        (.siglock d))) s (exitInfo h w tsk s) (w.thread tsk).parent true).2
      exact ⟨locked_send_spec x h alloc hidden hlock s _ _ d true,
        congrArg (fun ret => some (s, ret)) hret⟩

theorem doNotifyParentCldstop_spec {alloc hidden : Bool} {w : World a} {tsk : Nat}
    {forPtracer : Bool} {why : Cld} {r : World a × Option Int}
    (hr : doNotifyParentCldstop x h alloc hidden w tsk forPtracer why = some r) :
    ∃ d, (w.task (cldstopParent w tsk forPtracer)).sighand = some d ∧ Uncounted w r.1 ∧
      r.2 = if (w.action d h.SIGCHLD).handler ≠ .ign ∧ (w.action d h.SIGCHLD).noCldStop = false then
        some (sendRet (overflows h w h.SIGCHLD (cldstopParent w tsk forPtracer)
          (siFromuser (.real h.SIGCHLD (h.cld why)) && hidden) alloc (.real h.SIGCHLD (h.cld why))))
      else none := by
  unfold doNotifyParentCldstop at hr
  dsimp only at hr
  cases hd : (w.task (cldstopParent w tsk forPtracer)).sighand with
  | none => rw [hd] at hr; cases hr
  | some d =>
    rw [hd] at hr
    dsimp only at hr
    have hsame : (w.setKernel ((w.kernel.acquire .irq).acquire (.siglock d))).action = w.action := rfl
    have hlock : Uncounted w (w.setKernel ((w.kernel.acquire .irq).acquire (.siglock d))) :=
      .setKernel ⟨rfl, rfl⟩
    rw [hsame] at hr
    refine ⟨d, rfl, ?_⟩
    split_ifs at hr ⊢ with hwhy hact
    · obtain rfl := Option.some.inj hr
      have hret := (sendSignal_spec x h alloc hidden (w.setKernel ((w.kernel.acquire .irq).acquire
        (.siglock d))) h.SIGCHLD (.real h.SIGCHLD (h.cld why)) (cldstopParent w tsk forPtracer)
        true).2
      exact ⟨locked_send_spec x h alloc hidden hlock _ _ _ d true, congrArg some hret⟩
    · obtain rfl := Option.some.inj hr
      exact ⟨hlock.trans (.setKernel ⟨rfl, rfl⟩), rfl⟩

theorem lockedSendSigqueue_spec (w : World a) (q t : Nat) (group : Bool) :
    Uncounted w (lockedSendSigqueue x h w q t group).1 ∧
      (lockedSendSigqueue x h w q t group).2 =
        if sigIgnored h w t (w.sigqueue q).signo false = true then 1 else 0 := by
  have hprepared := (Spares.prepareSignal x h w (w.sigqueue q).signo t false).uncounted
  have hdeliver := prepareSignal_deliver x h w (w.sigqueue q).signo t false
  unfold lockedSendSigqueue
  dsimp only
  rw [hdeliver]
  cases hign : sigIgnored h w t (w.sigqueue q).signo false with
  | true => exact ⟨hprepared, rfl⟩
  | false =>
    have hqueue : ∀ f : Sigqueue → Sigqueue,
        Uncounted w ((prepareSignal x h w (w.sigqueue q).signo t false).1.onSigqueue q f) :=
      fun f => hprepared.trans (.of_kernel ⟨rfl, rfl⟩ rfl)
    rw [if_neg (show ¬ (!false) = false by decide), if_neg (show ¬ false = true by decide)]
    split_ifs
    · exact ⟨hqueue fun m => { m with overrun := m.overrun + 1 }, rfl⟩
    · have hentry := Spares.addEntry ((prepareSignal x h w (w.sigqueue q).signo t false).1.onSigqueue
        q fun m => { m with listed := true, overrun := 0 }) t group ⟨(w.sigqueue q).signo, some q⟩
      exact ⟨(hqueue _).trans (hentry.trans (Spares.outSet x h _ _ t group)).uncounted, rfl⟩

theorem sendSigqueue_spec (exchanged : List Nat) (w : World a) (q t : Nat) (group : Bool) :
    Uncounted w (sendSigqueue x h exchanged w q t group).1 ∧
      (sendSigqueue x h exchanged w q t group).2 =
        if (w.task t).sighand = none then -1
        else if sigIgnored h w t (w.sigqueue q).signo false = true then 1
        else 0 := by
  have hlock := Uncounted.lock w t exchanged
  cases hd : (w.task t).sighand with
  | none =>
    have hk : (w.kernel.task t).sighand = none := hd
    rw [sendSigqueue]
    simp only [lockTaskSighand_eq, hk] at hlock ⊢
    exact ⟨hlock, rfl⟩
  | some d =>
    have hk : (w.kernel.task t).sighand = some d := hd
    obtain ⟨hsent, hret⟩ := lockedSendSigqueue_spec x h
      (w.setKernel (lockTaskSighand w.kernel t exchanged).1) q t group
    have hdone := (hlock.trans hsent).trans (.unlock _ t)
    rw [sendSigqueue, if_neg (Option.some_ne_none d)]
    simp only [lockTaskSighand_eq, hk] at hdone hret ⊢
    exact ⟨hdone, hret⟩

/-! ### What a call does -/

/-- The mark of a signal that is sent to `t`, unless that fails. -/
def reaches (w : World a) (t : Nat) (sig : Signal) (failed : Bool) : List Mark :=
  match (w.task t).sighand with
  | some d => if failed = true then [] else [.sent d sig]
  | none => []

/-- What a call generates, told from the state before it. -/
def Call.generates (h : Headers a) (w : World a) : Call → List Mark
  | .doSendSigInfo _ alloc hidden sig info p _ =>
    reaches w p sig (overflows h w sig p (siFromuser info && hidden) alloc info)
  | .killPidInfoAsCred _ alloc perm security sig info pid =>
    match w.kernel.pids pid with
    | none => []
    | some p =>
      if hs : 1 ≤ sig ∧ sig ≤ 64 then
        reaches w p ⟨sig, hs.1, hs.2⟩
          (siFromuser info && !perm || decide (security ≠ 0) ||
            overflows h w ⟨sig, hs.1, hs.2⟩ p false alloc info)
      else []
  | .forceSigInfo alloc _ sig info t => reaches w t sig (mustQueue h sig alloc info)
  | .groupSendSigInfo alloc hidden sig info p =>
    reaches w p sig (overflows h w sig p (siFromuser info && hidden) alloc info)
  | .doNotifyParent alloc hidden tsk sig =>
    match (w.task (w.thread tsk).parent).sighand with
    | none => []
    | some d =>
      match (parentSignal h w tsk d sig).1 with
      | none => []
      | some s =>
        let info := exitInfo h w tsk s
        reaches w (w.thread tsk).parent s
          (overflows h w s (w.thread tsk).parent (siFromuser info && hidden) alloc info)
  | .doNotifyParentCldstop alloc hidden tsk forPtracer why =>
    let parent := cldstopParent w tsk forPtracer
    match (w.task parent).sighand with
    | none => []
    | some d =>
      if (w.action d h.SIGCHLD).handler ≠ .ign ∧ (w.action d h.SIGCHLD).noCldStop = false then
        let info := .real h.SIGCHLD (h.cld why)
        reaches w parent h.SIGCHLD
          (overflows h w h.SIGCHLD parent (siFromuser info && hidden) alloc info)
      else []
  | .sendSigqueue _ q t _ =>
    reaches w t (w.sigqueue q).signo (sigIgnored h w t (w.sigqueue q).signo false)

theorem generated_eq (w : World a) (t : Nat) (sig : Signal) {ret : Int} {failed : Bool}
    (hr : (w.task t).sighand ≠ none → (ret = 0 ↔ failed = false)) :
    generated w t sig ret = reaches w t sig failed := by
  unfold generated reaches
  cases hd : (w.task t).sighand with
  | none => rfl
  | some d =>
    have hret := hr (by rw [hd]; exact Option.some_ne_none d)
    cases failed with
    | false => exact if_pos (hret.mpr rfl)
    | true => exact if_neg fun h0 => absurd (hret.mp h0) (by decide)

/-- The call is one of `do_send_sig_info`. -/
def Call.counts (w w' : World a) : Call → Prop
  | .doSendSigInfo _ _ _ sig _ p _ => w'.counters = (w.count p sig).counters
  | _ => w'.counters = w.counters

/-- **What a call does**: it generates what can be told before it, only
`do_send_sig_info` counts it, and whoever is in an uninterruptible sleep sleeps on. -/
theorem Call.run_spec {c : Call} {w w' : World a} {ms : List Mark}
    (hc : c.run x h w = some (w', ms)) :
    ms = c.generates h w ∧ c.counts w w' ∧ AllSleepOn w w' := by
  cases c with
  | doSendSigInfo exchanged alloc hidden sig info p group =>
    obtain ⟨w₁, hsleep, hcount, heq⟩ :=
      doSendSigInfo_spec x h exchanged alloc hidden w sig info p group
    obtain ⟨rfl, rfl⟩ := Prod.mk.inj (Option.some.inj hc)
    rw [heq]
    refine ⟨generated_eq w p sig fun hd => ?_, hcount, hsleep⟩
    rw [if_neg hd, sendRet_eq_zero]
  | killPidInfoAsCred exchanged alloc perm security sig info pid =>
    have hsame := uncounted_killPidInfoAsCred x h exchanged alloc perm security w sig info pid
    obtain ⟨rfl, rfl⟩ := Prod.mk.inj (Option.some.inj hc)
    refine ⟨?_, hsame.counters, hsame.toAllSleepOn⟩
    unfold Call.generates
    dsimp only
    cases hp : w.kernel.pids pid with
    | none => rfl
    | some p =>
      dsimp only
      split
      · next hs =>
        refine generated_eq w p ⟨sig, hs.1, hs.2⟩ fun hd => ?_
        obtain ⟨d, hd⟩ := Option.ne_none_iff_exists'.mp hd
        exact killPidInfoAsCred_ret x h exchanged alloc perm security info hp hd hs
      · rfl
  | forceSigInfo alloc hidden sig info t =>
    obtain ⟨r, hr, hc⟩ := Option.map_eq_some_iff.mp hc
    obtain ⟨rfl, rfl⟩ := Prod.mk.inj hc
    cases hd : (w.task t).sighand with
    | none =>
      unfold Signals.forceSigInfo at hr
      rw [hd] at hr
      cases hr
    | some d =>
      obtain ⟨w₁, hsame, heq⟩ := forceSigInfo_spec x h alloc hidden sig info hd
      obtain rfl := Option.some.inj (heq.symm.trans hr)
      exact ⟨generated_eq w t sig fun _ => sendRet_eq_zero _, hsame.counters, hsame.toAllSleepOn⟩
  | groupSendSigInfo alloc hidden sig info p =>
    obtain ⟨hspares, hret⟩ := sendSignal_spec x h alloc hidden w sig info p true
    unfold Call.run at hc
    dsimp only at hc
    split_ifs at hc
    obtain ⟨rfl, rfl⟩ := Prod.mk.inj (Option.some.inj hc)
    refine ⟨generated_eq w p sig fun _ => ?_, hspares.counters, hspares.uncounted.toAllSleepOn⟩
    rw [Signals.groupSendSigInfo, hret, sendRet_eq_zero]
  | doNotifyParent alloc hidden tsk sig =>
    obtain ⟨r, hr, hc⟩ := Option.map_eq_some_iff.mp hc
    obtain ⟨rfl, rfl⟩ := Prod.mk.inj hc
    obtain ⟨d, hd, hsame, hsent⟩ := doNotifyParent_spec x h hr
    refine ⟨?_, hsame.counters, hsame.toAllSleepOn⟩
    unfold Call.generates
    dsimp only
    rw [hsent, hd]
    dsimp only
    cases (parentSignal h w tsk d sig).1 with
    | none => rfl
    | some s => exact generated_eq w _ s fun _ => sendRet_eq_zero _
  | doNotifyParentCldstop alloc hidden tsk forPtracer why =>
    obtain ⟨r, hr, hc⟩ := Option.map_eq_some_iff.mp hc
    obtain ⟨rfl, rfl⟩ := Prod.mk.inj hc
    obtain ⟨d, hd, hsame, hsent⟩ := doNotifyParentCldstop_spec x h hr
    refine ⟨?_, hsame.counters, hsame.toAllSleepOn⟩
    unfold Call.generates
    dsimp only
    rw [hsent, hd]
    dsimp only
    by_cases hact : (w.action d h.SIGCHLD).handler ≠ .ign ∧
        (w.action d h.SIGCHLD).noCldStop = false
    · rw [if_pos hact, if_pos hact]
      exact generated_eq w _ h.SIGCHLD fun _ => sendRet_eq_zero _
    · rw [if_neg hact, if_neg hact]
  | sendSigqueue exchanged q t group =>
    obtain ⟨hsame, hret⟩ := sendSigqueue_spec x h exchanged w q t group
    obtain ⟨rfl, rfl⟩ := Prod.mk.inj (Option.some.inj hc)
    refine ⟨generated_eq w t _ fun hd => ?_, hsame.counters, hsame.toAllSleepOn⟩
    rw [hret, if_neg hd]
    cases sigIgnored h w t (w.sigqueue q).signo false with
    | true => exact iff_of_false (by decide) nofun
    | false => exact iff_of_true rfl rfl

end

/-! ### The counters -/

/-- `init_sigcounter`.  It clears 66 counters of an array of 64, so two words that
lie behind it as well. -/
def initSigcounter (exchanged : List Nat) (w : World a) (current pid : Int) : Option (World a) :=
  match w.kernel.pids pid with
  | none => none
  | some p =>
    match lockTaskSighand w.kernel p exchanged with
    | (_, none) => none
    | (k, some d) =>
      let w := { w.setKernel k with
        counters := Function.update w.counters d fun i => if i < 66 then 0 else w.counters d i }
      some (w.setKernel ((unlockTaskSighand w.kernel p).printk
        ("current pid:" ++ toString current ++ "\npid:" ++ toString pid ++ "\n")))

def getSigcounter (exchanged : List Nat) (w : World a) (current signumber : Nat) :
    Option (World a × BitVec 32) :=
  match lockTaskSighand w.kernel current exchanged with
  | (_, none) => none
  | (k, some d) =>
    let w := w.setKernel k
    some (w.setKernel (unlockTaskSighand w.kernel current), w.counters d signumber)

end LinuxKerDev.Signals
