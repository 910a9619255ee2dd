import LinuxKerDev.Signals.Deliver

/-!
# The threads of a process

`signal.c` works on a process by loops over its threads, and the loops are told apart by what
they do to one thread: `rm_from_queue`, the wake-up by `SIGCONT`, the kill.  Here is what
each of them does to a thread, and that a loop over a process does just that to each of its
threads (`task_foldl`).

`Grouped` says what a process is: the threads that point to one `signal_struct`.
-/

namespace LinuxKerDev.Signals

open Lib

variable {a : Arch}

namespace World

section

variable (w : World a) (t u : Nat) (f : Task a → Task a) (g : Thread a → Thread a)
  (k : SignalStruct → SignalStruct) (removed : List Entry)

@[simp] theorem onTask_thread : (w.onTask t f).thread = w.thread := rfl
@[simp] theorem onTask_action : (w.onTask t f).action = w.action := rfl
@[simp] theorem onTask_signalOf : (w.onTask t f).signalOf u = w.signalOf u := rfl
@[simp] theorem onThread_task : (w.onThread t g).task = w.task := rfl
@[simp] theorem onThread_thread :
    (w.onThread t g).thread = Function.update w.thread t (g (w.thread t)) := rfl
@[simp] theorem onThread_signal : (w.onThread t g).signal = w.signal := rfl
@[simp] theorem onThread_action : (w.onThread t g).action = w.action := rfl
@[simp] theorem onSignal_task : (w.onSignal t k).task = w.task := rfl
@[simp] theorem onSignal_thread : (w.onSignal t k).thread = w.thread := rfl
@[simp] theorem onSignal_action : (w.onSignal t k).action = w.action := rfl
@[simp] theorem unlink_task : (w.unlink removed).task = w.task := rfl
@[simp] theorem unlink_thread : (w.unlink removed).thread = w.thread := rfl
@[simp] theorem unlink_action : (w.unlink removed).action = w.action := rfl
@[simp] theorem unlink_signalOf : (w.unlink removed).signalOf u = w.signalOf u := rfl

theorem onTask_task_self : (w.onTask t f).task t = f (w.task t) := Function.update_self ..

theorem onTask_task_of_ne {t u : Nat} (hu : u ≠ t) : (w.onTask t f).task u = w.task u :=
  Function.update_of_ne hu ..

theorem onThread_thread_self : (w.onThread t g).thread t = g (w.thread t) := Function.update_self ..

theorem onThread_thread_of_ne {t u : Nat} (hu : u ≠ t) :
    (w.onThread t g).thread u = w.thread u := Function.update_of_ne hu ..

theorem onThread_signalOf (hg : (g (w.thread t)).signal = (w.thread t).signal) :
    (w.onThread t g).signalOf u = w.signalOf u := by
  rw [signalOf, signalOf, onThread_signal]
  by_cases hu : u = t
  · rw [hu, onThread_thread_self, hg]
  · rw [onThread_thread_of_ne _ _ hu]

theorem signalOf_onSignal_of_eq {t u : Nat} (hu : (w.thread u).signal = (w.thread t).signal) :
    (w.onSignal t k).signalOf u = k (w.signalOf t) := by
  rw [← signalOf_onSignal w t k, signalOf, signalOf, onSignal_thread, hu]

theorem signalOf_onSignal_of_ne {t u : Nat} (hu : (w.thread u).signal ≠ (w.thread t).signal) :
    (w.onSignal t k).signalOf u = w.signalOf u := Function.update_of_ne hu ..

/-- What a loop over threads works on. -/
def member : Task a × Thread a := (w.task t, w.thread t)

end

end World

/-! ### What a process is -/

/-- A process is the threads that share a `signal_struct`; they share a `sighand` as well. -/
structure Grouped (w : World a) : Prop where
  nodup : ∀ t, (w.threads t).Nodup
  mem : ∀ t u, u ∈ w.threads t ↔ (w.thread u).signal = (w.thread t).signal
  sighand : ∀ t, ∀ u ∈ w.threads t, (w.task u).sighand = (w.task t).sighand
  shared : ∀ t, ∀ u ∈ w.threads t, (w.task u).sharedPending = (w.task t).sharedPending
  currTarget : ∀ t, (w.signalOf t).currTarget ∈ w.threads t

namespace Grouped

variable {w : World a} {t u v : Nat}

theorem self (_ : Grouped w) (t : Nat) : t ∈ w.threads t := List.mem_cons_self

theorem symm (hg : Grouped w) (hu : u ∈ w.threads t) : t ∈ w.threads u :=
  (hg.mem u t).mpr ((hg.mem t u).mp hu).symm

theorem trans (hg : Grouped w) (hu : u ∈ w.threads t) (hv : v ∈ w.threads u) :
    v ∈ w.threads t := (hg.mem t v).mpr (((hg.mem u v).mp hv).trans ((hg.mem t u).mp hu))

/-- **The threads of a process are the same seen from any of them.** -/
theorem perm (hg : Grouped w) (hu : u ∈ w.threads t) : (w.threads u).Perm (w.threads t) := by
  refine (List.perm_ext_iff_of_nodup (hg.nodup u) (hg.nodup t)).mpr fun v => ?_
  rw [hg.mem, hg.mem, (hg.mem t u).mp hu]

theorem signalOf (hg : Grouped w) (hu : u ∈ w.threads t) : w.signalOf u = w.signalOf t := by
  rw [World.signalOf, World.signalOf, (hg.mem t u).mp hu]

theorem onSignal_signalOf (hg : Grouped w) (k : SignalStruct → SignalStruct)
    (hu : u ∈ w.threads t) : (w.onSignal t k).signalOf u = k (w.signalOf t) :=
  w.signalOf_onSignal_of_eq k ((hg.mem t u).mp hu)

theorem onSignal_signalOf_other (hg : Grouped w) (k : SignalStruct → SignalStruct)
    (hu : u ∉ w.threads t) : (w.onSignal t k).signalOf u = w.signalOf u :=
  w.signalOf_onSignal_of_ne k fun he => hu ((hg.mem t u).mpr he)

theorem others_nodup (hg : Grouped w) (t : Nat) : (w.task t).threadGroup.Nodup :=
  (List.nodup_cons.mp (hg.nodup t)).2

theorem notMem_others (hg : Grouped w) (t : Nat) : t ∉ (w.task t).threadGroup :=
  (List.nodup_cons.mp (hg.nodup t)).1

end Grouped

/-- The threads are where they were: what loops and sends leave of `Grouped`. -/
theorem Grouped.of_same {w w' : World a} (hg : Grouped w)
    (htask : ∀ t, (w'.task t).threadGroup = (w.task t).threadGroup ∧
      (w'.task t).sighand = (w.task t).sighand)
    (hsignal : ∀ t, (w'.thread t).signal = (w.thread t).signal)
    (hshared : ∀ t, ∀ u ∈ w.threads t, (w'.task u).sharedPending = (w'.task t).sharedPending)
    (htarget : ∀ t, (w'.signalOf t).currTarget ∈ w.threads t) : Grouped w' := by
  have hthreads : ∀ t, w'.threads t = w.threads t := fun t =>
    congrArg (t :: ·) (htask t).1
  refine ⟨fun t => ?_, fun t u => ?_, fun t u hu => ?_, fun t u hu => ?_, fun t => ?_⟩
  · rw [hthreads]
    exact hg.nodup t
  · rw [hthreads, hsignal, hsignal]
    exact hg.mem t u
  · rw [(htask u).2, (htask t).2]
    exact hg.sighand t u (hthreads t ▸ hu)
  · exact hshared t u (hthreads t ▸ hu)
  · rw [hthreads]
    exact htarget t

/-! ### Bits -/

theorem and_eq_zero_of_clear {j mask bit : BitVec 32} (hb : bit &&& ~~~mask = 0) :
    j &&& ~~~mask &&& bit = 0 := by
  rw [BitVec.and_assoc, BitVec.and_comm (~~~mask), hb]
  exact BitVec.and_zero

theorem and_of_clear_other {j mask bit : BitVec 32} (hb : bit &&& mask = 0) :
    j &&& ~~~mask &&& bit = j &&& bit := by
  have hbit : ~~~mask &&& bit = bit := by
    refine BitVec.eq_of_getLsbD_eq fun k hk => ?_
    have h0 : (bit &&& mask).getLsbD k = false := by
      rw [hb]
      exact BitVec.getLsbD_zero
    rw [BitVec.getLsbD_and] at h0
    rw [BitVec.getLsbD_and, BitVec.getLsbD_not, decide_eq_true hk, Bool.true_and]
    cases hm : mask.getLsbD k with
    | false => rw [Bool.not_false, Bool.true_and]
    | true =>
      rw [hm, Bool.and_true] at h0
      rw [h0, Bool.not_true, Bool.and_false]
  rw [BitVec.and_assoc, hbit]

theorem or_and_eq_zero {j k bit : BitVec 32} :
    (j ||| k) &&& bit = 0 ↔ j &&& bit = 0 ∧ k &&& bit = 0 := by
  rw [BitVec.and_or_distrib_right]
  exact BitVec.or_eq_zero_iff

theorem or_and_of_other {j k bit : BitVec 32} (hk : k &&& bit = 0) :
    (j ||| k) &&& bit = j &&& bit := by
  rw [BitVec.and_or_distrib_right, hk]
  exact BitVec.or_zero

theorem and_eq_zero_of_and {j k bit : BitVec 32} (hb : j &&& bit = 0) : j &&& k &&& bit = 0 := by
  rw [BitVec.and_assoc, BitVec.and_comm k, ← BitVec.and_assoc, hb]
  exact BitVec.zero_and

section

variable (s : Task a)

theorem Task.stopPending_eq_false : s.stopPending = false ↔ s.jobctl &&& JOBCTL_STOP_PENDING = 0 := by
  rw [Task.stopPending, decide_eq_false_iff_not, not_not]

theorem Task.consumes_eq_false : s.consumes = false ↔ s.jobctl &&& JOBCTL_STOP_CONSUME = 0 := by
  rw [Task.consumes, decide_eq_false_iff_not, not_not]

theorem taskIsStopped_eq_false : taskIsStopped s = false ↔ s.state &&& TASK_STOPPED_BIT = 0 := by
  rw [taskIsStopped, decide_eq_false_iff_not, not_not]

theorem stopBits_congr {s s' : Task a} (hj : s'.jobctl = s.jobctl) :
    s'.stopPending = s.stopPending ∧ s'.consumes = s.consumes := by
  rw [Task.stopPending, Task.stopPending, Task.consumes, Task.consumes, hj]
  exact ⟨rfl, rfl⟩

end

section

variable (s : Task a) {k : BitVec 32}

theorem stopBits_or (hp : k &&& JOBCTL_STOP_PENDING = 0) (hc : k &&& JOBCTL_STOP_CONSUME = 0) :
    { s with jobctl := s.jobctl ||| k }.stopPending = s.stopPending ∧
      { s with jobctl := s.jobctl ||| k }.consumes = s.consumes := by
  rw [Task.stopPending, Task.stopPending, Task.consumes, Task.consumes]
  dsimp only
  rw [or_and_of_other hp, or_and_of_other hc]
  exact ⟨rfl, rfl⟩

theorem stopBits_clear (hp : JOBCTL_STOP_PENDING &&& k = 0) (hc : JOBCTL_STOP_CONSUME &&& k = 0) :
    { s with jobctl := s.jobctl &&& ~~~k }.stopPending = s.stopPending ∧
      { s with jobctl := s.jobctl &&& ~~~k }.consumes = s.consumes := by
  rw [Task.stopPending, Task.stopPending, Task.consumes, Task.consumes]
  dsimp only
  rw [and_of_clear_other hp, and_of_clear_other hc]
  exact ⟨rfl, rfl⟩

end

/-- What `task_clear_jobctl_pending` clears. -/
def clearMask (mask : BitVec 32) : BitVec 32 :=
  if mask &&& JOBCTL_STOP_PENDING ≠ 0 then mask ||| JOBCTL_STOP_CONSUME ||| JOBCTL_STOP_DEQUEUED
  else mask

section

variable (w : World a) (t : Nat) (mask : BitVec 32) {b : BitVec 32}

theorem task_taskClearJobctlPending :
    (taskClearJobctlPending w t mask).task t = { w.task t with
      jobctl :=
        if (w.task t).jobctl &&& ~~~clearMask mask &&& JOBCTL_PENDING_MASK = 0 then
          (w.task t).jobctl &&& ~~~clearMask mask &&& ~~~JOBCTL_TRAPPING
        else (w.task t).jobctl &&& ~~~clearMask mask } := World.onTask_task_self ..

theorem jobctl_taskClearJobctlPending (hb : b &&& ~~~clearMask mask = 0) :
    ((taskClearJobctlPending w t mask).task t).jobctl &&& b = 0 := by
  rw [task_taskClearJobctlPending]
  dsimp only
  split
  · exact and_eq_zero_of_and (and_eq_zero_of_clear hb)
  · exact and_eq_zero_of_clear hb

theorem jobctl_taskClearJobctlPending_other (hb : b &&& clearMask mask = 0)
    (hb' : b &&& JOBCTL_TRAPPING = 0) :
    ((taskClearJobctlPending w t mask).task t).jobctl &&& b = (w.task t).jobctl &&& b := by
  rw [task_taskClearJobctlPending]
  dsimp only
  split
  · rw [and_of_clear_other hb', and_of_clear_other hb]
  · rw [and_of_clear_other hb]

theorem stopBits_taskClearJobctlPending (hp : JOBCTL_STOP_PENDING &&& ~~~clearMask mask = 0)
    (hc : JOBCTL_STOP_CONSUME &&& ~~~clearMask mask = 0) :
    ((taskClearJobctlPending w t mask).task t).stopPending = false ∧
      ((taskClearJobctlPending w t mask).task t).consumes = false :=
  ⟨(Task.stopPending_eq_false _).mpr (jobctl_taskClearJobctlPending w t mask hp),
    (Task.consumes_eq_false _).mpr (jobctl_taskClearJobctlPending w t mask hc)⟩

end

/-! ### What a send does to a thread, short of making a signal pending -/

/-- The task has lost signals, been woken, and perhaps been taken out of a group stop. -/
structure Eases (s s' : Task a) : Prop where
  threadGroup : s'.threadGroup = s.threadGroup
  exitState : s'.exitState = s.exitState
  blocked : s'.blocked = s.blocked
  pending : ∀ sig, sigismember s'.pending sig = true → sigismember s.pending sig = true
  kill : sigismember s'.pending SIGKILL = sigismember s.pending SIGKILL
  shared : s'.sharedPending = s.sharedPending
  stop : s'.stopPending = s.stopPending ∧ s'.consumes = s.consumes ∨
    s'.stopPending = false ∧ s'.consumes = false
  state : s'.state = s.state ∨ s'.state = TASK_RUNNING
  flag : s.tifSigpending = true → s'.tifSigpending = true
  -- the flag goes up with a wake-up
  woken : s'.tifSigpending = true →
    s.tifSigpending = true ∨ s'.state &&& TASK_INTERRUPTIBLE = 0

namespace Eases

theorem refl (s : Task a) : Eases s s :=
  ⟨rfl, rfl, rfl, fun _ => id, rfl, rfl, Or.inl ⟨rfl, rfl⟩, Or.inl rfl, id, Or.inl⟩

theorem trans {s s' s'' : Task a} (h : Eases s s') (h' : Eases s' s'') : Eases s s'' where
  threadGroup := h'.threadGroup.trans h.threadGroup
  exitState := h'.exitState.trans h.exitState
  blocked := h'.blocked.trans h.blocked
  pending sig hs := h.pending sig (h'.pending sig hs)
  kill := h'.kill.trans h.kill
  shared := h'.shared.trans h.shared
  stop := by
    rcases h'.stop with ⟨hp', hc'⟩ | h0
    · rcases h.stop with ⟨hp, hc⟩ | ⟨hp, hc⟩
      · exact Or.inl ⟨hp'.trans hp, hc'.trans hc⟩
      · exact Or.inr ⟨hp'.trans hp, hc'.trans hc⟩
    · exact Or.inr h0
  state := by
    rcases h'.state with hs' | hs'
    · rw [hs']
      exact h.state
    · exact Or.inr hs'
  flag ht := h'.flag (h.flag ht)
  woken ht := by
    rcases h'.woken ht with ht' | hs'
    · rcases h.woken ht' with ht | hs
      · exact Or.inl ht
      · refine Or.inr ?_
        rcases h'.state with heq | heq
        · rw [heq, hs]
        · rw [heq]
          decide
    · exact Or.inr hs'

theorem drop (s : Task a) (set : Sigset a)
    (hset : ∀ sig, sigismember set sig = true → sigismember s.pending sig = true)
    (hkill : sigismember set SIGKILL = sigismember s.pending SIGKILL) :
    Eases s { s with pending := set } :=
  ⟨rfl, rfl, rfl, hset, hkill, rfl, Or.inl ⟨rfl, rfl⟩, Or.inl rfl, id, Or.inl⟩

theorem unstop (s : Task a) {j : BitVec 32}
    (hj : { s with jobctl := j }.stopPending = false ∧ { s with jobctl := j }.consumes = false) :
    Eases s { s with jobctl := j } :=
  ⟨rfl, rfl, rfl, fun _ => id, rfl, rfl, Or.inr hj, Or.inl rfl, id, Or.inl⟩

theorem jobctl (s : Task a) {j : BitVec 32}
    (hj : { s with jobctl := j }.stopPending = s.stopPending ∧
      { s with jobctl := j }.consumes = s.consumes) :
    Eases s { s with jobctl := j } :=
  ⟨rfl, rfl, rfl, fun _ => id, rfl, rfl, Or.inl hj, Or.inl rfl, id, Or.inl⟩

theorem wakeUpState (x : Extern a) (s : Task a) (m : BitVec 32) : Eases s (x.wakeUpState s m) := by
  rw [x.wakeUpState_eq]
  refine ⟨rfl, rfl, rfl, fun _ => id, rfl, rfl, Or.inl ⟨rfl, rfl⟩, ?_, id, Or.inl⟩
  by_cases hm : s.state &&& m = 0
  · exact Or.inl (if_pos hm)
  · exact Or.inr (if_neg hm)

theorem signalWakeUpState (x : Extern a) (s : Task a) (m : BitVec 32) :
    Eases s (signalWakeUpState x s m) := by
  have heq : Signals.signalWakeUpState x s m = { s with
      tifSigpending := true
      state := if s.state &&& (m ||| TASK_INTERRUPTIBLE) = 0 then s.state else TASK_RUNNING } :=
    x.wakeUpState_eq _ _
  rw [heq]
  by_cases hm : s.state &&& (m ||| TASK_INTERRUPTIBLE) = 0
  · refine ⟨rfl, rfl, rfl, fun _ => id, rfl, rfl, Or.inl ⟨rfl, rfl⟩, Or.inl (if_pos hm),
      fun _ => rfl, fun _ => Or.inr ?_⟩
    show (if s.state &&& (m ||| TASK_INTERRUPTIBLE) = 0 then s.state else TASK_RUNNING) &&& _ = 0
    rw [if_pos hm]
    rw [BitVec.and_or_distrib_left] at hm
    exact (BitVec.or_eq_zero_iff.mp hm).2
  · refine ⟨rfl, rfl, rfl, fun _ => id, rfl, rfl, Or.inl ⟨rfl, rfl⟩, Or.inr (if_neg hm),
      fun _ => rfl, fun _ => Or.inr ?_⟩
    show (if s.state &&& (m ||| TASK_INTERRUPTIBLE) = 0 then s.state else TASK_RUNNING) &&& _ = 0
    rw [if_neg hm]
    rfl

theorem signalWakeUp (x : Extern a) (s : Task a) (resume : Bool) :
    Eases s (signalWakeUp x s resume) := signalWakeUpState x s _

end Eases

/-- A thread is who it was: what happens to it, but for its lists and its debugger. -/
structure SameThread (m m' : Thread a) : Prop extends SparesThread m m' where
  exiting : m'.exiting = m.exiting

theorem SameThread.refl (m : Thread a) : SameThread m m := ⟨.refl m, rfl⟩

theorem SameThread.of_queue {m m' : Thread a} (hm : m' = { m with queue := m'.queue }) :
    SameThread m m' := by
  rw [hm]
  exact ⟨⟨rfl, rfl, rfl⟩, rfl⟩

structure Eased (w w' : World a) : Prop where
  task : ∀ t, Eases (w.task t) (w'.task t)
  thread : ∀ t, w'.thread t = { w.thread t with queue := (w'.thread t).queue }
  -- only a debugger's threads are to trap
  traps : ∀ t, (w.thread t).ptrace = 0 → (w.task t).jobctl &&& JOBCTL_TRAP_MASK = 0 →
    (w'.task t).jobctl &&& JOBCTL_TRAP_MASK = 0

namespace Eased

theorem refl (w : World a) : Eased w w := ⟨fun _ => .refl _, fun _ => rfl, fun _ _ => id⟩

theorem trans {w w' w'' : World a} (h : Eased w w') (h' : Eased w' w'') : Eased w w'' := by
  refine ⟨fun t => (h.task t).trans (h'.task t), fun t => by rw [h'.thread t, h.thread t],
    fun t hp ht => h'.traps t ?_ (h.traps t hp ht)⟩
  rw [h.thread t]
  exact hp

theorem onTask (w : World a) (t : Nat) {f : Task a → Task a}
    (hf : Eases (w.task t) (f (w.task t)))
    (ht : (w.thread t).ptrace = 0 → (w.task t).jobctl &&& JOBCTL_TRAP_MASK = 0 →
      (f (w.task t)).jobctl &&& JOBCTL_TRAP_MASK = 0) : Eased w (w.onTask t f) := by
  refine ⟨fun u => ?_, fun _ => rfl, fun u hp hu => ?_⟩
  · by_cases he : u = t
    · subst he
      rw [World.onTask_task_self]
      exact hf
    · rw [World.onTask_task_of_ne _ _ he]
      exact .refl _
  · by_cases he : u = t
    · subst he
      rw [World.onTask_task_self]
      exact ht hp hu
    · rw [World.onTask_task_of_ne _ _ he]
      exact hu

theorem onTask_same (w : World a) (t : Nat) {f : Task a → Task a}
    (hf : Eases (w.task t) (f (w.task t))) (hj : (f (w.task t)).jobctl = (w.task t).jobctl) :
    Eased w (w.onTask t f) := onTask w t hf fun _ ht => hj ▸ ht

theorem onQueue (w : World a) (t : Nat) (f : List Entry → List Entry) :
    Eased w (w.onThread t fun m => { m with queue := f m.queue }) := by
  refine ⟨fun _ => .refl _, fun u => ?_, fun _ _ => id⟩
  by_cases hu : u = t
  · subst hu
    rw [World.onThread_thread_self]
  · rw [World.onThread_thread_of_ne _ _ hu]

theorem onSignal (w : World a) (t : Nat) (f : SignalStruct → SignalStruct) :
    Eased w (w.onSignal t f) := ⟨fun _ => .refl _, fun _ => rfl, fun _ _ => id⟩

theorem unlink (w : World a) (removed : List Entry) : Eased w (w.unlink removed) :=
  ⟨fun _ => .refl _, fun _ => rfl, fun _ _ => id⟩

theorem foldl {f : World a → Nat → World a} (hf : ∀ w t, Eased w (f w t)) (l : List Nat)
    (w : World a) : Eased w (l.foldl f w) := by
  induction l generalizing w with
  | nil => exact refl w
  | cons t l ih => exact (hf w t).trans (ih (f w t))

section

variable (x : Extern a) {h : Headers a} {mask : Sigset a}

theorem wakeUpState (w : World a) (t : Nat) (m : BitVec 32) :
    Eased w (w.onTask t fun s => x.wakeUpState s m) :=
  onTask_same w t (.wakeUpState x _ m) (by rw [x.wakeUpState_eq])

theorem signalWakeUpState (w : World a) (t : Nat) (m : Task a → BitVec 32) :
    Eased w (w.onTask t fun s => signalWakeUpState x s (m s)) :=
  onTask_same w t (.signalWakeUpState x _ _) (by rw [Signals.signalWakeUpState, x.wakeUpState_eq])

theorem rmFromQueue (hmask : sigismember mask SIGKILL = false) (w : World a) (t : Nat) :
    Eased w (rmFromQueue h mask w t) := by
  unfold Signals.rmFromQueue
  split
  · refine (onTask_same w t (.drop _ _ (fun sig hs => ?_) ?_) rfl).trans
      ((onQueue _ t _).trans (unlink _ _))
    · exact ((sigismember_diff _ _ sig).mp hs).1
    · rw [Bool.eq_iff_iff, sigdelsetmask, sigismember_diff, and_iff_left hmask]
  · exact refl w

theorem taskClearStopPending (w : World a) (t : Nat) :
    Eased w (taskClearJobctlPending w t JOBCTL_STOP_PENDING) := by
  have hbits := stopBits_taskClearJobctlPending w t JOBCTL_STOP_PENDING (by decide) (by decide)
  have htraps := jobctl_taskClearJobctlPending_other w t JOBCTL_STOP_PENDING
    (b := JOBCTL_TRAP_MASK) (by decide) (by decide)
  rw [task_taskClearJobctlPending] at hbits htraps
  unfold taskClearJobctlPending
  refine onTask w t ?_ fun _ ht => ?_
  · exact .unstop _ hbits
  · exact htraps.trans ht

theorem taskSetTrapNotify (w : World a) (t : Nat) (ht : (w.thread t).ptrace ≠ 0) :
    Eased w (taskSetTrapNotify w t) := by
  unfold Signals.taskSetTrapNotify
  split
  · exact refl w
  · exact onTask w t (.jobctl _ (stopBits_or _ (by decide) (by decide))) fun h0 => absurd h0 ht

theorem ptraceTrapNotify (w : World a) (t : Nat) (ht : (w.thread t).ptrace ≠ 0) :
    Eased w (ptraceTrapNotify x w t) :=
  (taskSetTrapNotify w t ht).trans (onTask_same _ t (.signalWakeUpState x _ _)
    (by rw [ptraceSignalWakeUp, Signals.signalWakeUpState, x.wakeUpState_eq]))

theorem ptrace_ne_zero {m bit : BitVec 32} (hb : ¬ m &&& bit = 0) : m ≠ 0 := by
  rintro rfl
  exact hb BitVec.zero_and

theorem continueThread_rest (hmask : sigismember h.SIG_KERNEL_STOP_MASK SIGKILL = false)
    (w : World a) (t : Nat) :
    Eased (taskClearJobctlPending w t JOBCTL_STOP_PENDING) (continueThread x h w t) := by
  refine (rmFromQueue (h := h) hmask _ t).trans ?_
  unfold Signals.continueThread
  dsimp only
  split
  · exact wakeUpState x _ t _
  · next hp => exact ptraceTrapNotify x _ t (ptrace_ne_zero hp)

theorem continueThread (hmask : sigismember h.SIG_KERNEL_STOP_MASK SIGKILL = false)
    (w : World a) (t : Nat) : Eased w (continueThread x h w t) :=
  (taskClearStopPending w t).trans (continueThread_rest x hmask w t)

end

end Eased

/-! ### Loops over threads -/

namespace World

variable {β : Type*} (w : World a) (t u : Nat)

theorem onTask_field {f : Task a → Task a} (g : Task a → β)
    (hg : g (f (w.task t)) = g (w.task t)) : g ((w.onTask t f).task u) = g (w.task u) := by
  by_cases hu : u = t
  · rw [hu, onTask_task_self, hg]
  · rw [onTask_task_of_ne _ _ hu]

theorem onThread_field {f : Thread a → Thread a} (g : Thread a → β)
    (hg : g (f (w.thread t)) = g (w.thread t)) : g ((w.onThread t f).thread u) = g (w.thread u) := by
  by_cases hu : u = t
  · rw [hu, onThread_thread_self, hg]
  · rw [onThread_thread_of_ne _ _ hu]

end World

theorem local_onTask (f : Task a → Task a) : Local World.member fun w t => w.onTask t f where
  other hne := by rw [World.member, World.onTask_task_of_ne _ _ hne]; rfl
  own {w w' t} he := by
    obtain ⟨hs, hm⟩ := Prod.mk.inj he
    rw [World.member, World.member, World.onTask_task_self, World.onTask_task_self, hs]
    exact congrArg _ hm

section

variable (x : Extern a) (h : Headers a)

/-- **`rm_from_queue` on the thread's own list.** -/
theorem member_rmFromQueue (mask : Sigset a) (w : World a) (t : Nat) :
    (rmFromQueue h mask w t).member t =
      if sigtestsetmask (w.task t).pending mask = true then
        ({ w.task t with pending := sigdelsetmask (w.task t).pending mask },
          { w.thread t with queue := (w.thread t).queue.filter fun q => !unqueued h mask q })
      else (w.task t, w.thread t) := by
  unfold rmFromQueue
  split
  · rw [World.member, World.unlink_task, World.onThread_task, World.onTask_task_self,
      World.unlink_thread, World.onThread_thread_self]
    rfl
  · rfl

theorem local_rmFromQueue (mask : Sigset a) : Local World.member (rmFromQueue h mask) where
  other {w t u} hne := by
    unfold rmFromQueue
    split
    · rw [World.member, World.unlink_task, World.onThread_task, World.onTask_task_of_ne _ _ hne,
        World.unlink_thread, World.onThread_thread_of_ne _ _ hne]
      rfl
    · rfl
  own he := by
    obtain ⟨hs, hm⟩ := Prod.mk.inj he
    rw [member_rmFromQueue, member_rmFromQueue, hs, hm]

theorem local_taskClearJobctlPending (mask : BitVec 32) :
    Local World.member fun w t => taskClearJobctlPending (a := a) w t mask := by
  unfold taskClearJobctlPending
  exact local_onTask _

theorem local_taskSetTrapNotify : Local World.member (taskSetTrapNotify (a := a)) := by
  refine Local.ite (.of_same fun _ _ _ => rfl) (local_onTask _) fun he => ?_
  obtain ⟨hs, hm⟩ := Prod.mk.inj he
  rw [hs, hm]

theorem local_ptraceTrapNotify : Local World.member (ptraceTrapNotify (a := a) x) :=
  local_taskSetTrapNotify.comp (local_onTask _)

theorem local_continueThread : Local World.member (continueThread x h) := by
  refine ((local_taskClearJobctlPending _).comp (local_rmFromQueue h _)).comp
    (g := fun w t =>
      if (w.thread t).ptrace &&& h.PT_SEIZED = 0 then
        w.onTask t fun s => x.wakeUpState s TASK_STOPPED_BIT
      else ptraceTrapNotify x w t) ?_
  refine Local.ite (local_onTask _) (local_ptraceTrapNotify x) fun he => ?_
  rw [(Prod.mk.inj he).2]

theorem local_killThread : Local World.member (killThread (a := a) x) :=
  (local_taskClearJobctlPending _).comp (local_onTask _)

theorem local_zapThread : Local World.member (zapThread (a := a) x) := by
  refine Local.ite (local_taskClearJobctlPending _) (local_killThread x) fun he => ?_
  rw [(Prod.mk.inj he).1]

end

theorem Spares.threads {w w' : World a} (hs : Spares w w') (t : Nat) : w'.threads t = w.threads t :=
  congrArg (t :: ·) (hs.task t).threadGroup

theorem Eases.out {s s' : Task a} (h : Eases s s')
    (h0 : s.stopPending = false ∧ s.consumes = false) :
    s'.stopPending = false ∧ s'.consumes = false := by
  rcases h.stop with ⟨hp, hc⟩ | h'
  · rw [hp, hc]
    exact h0
  · exact h'

/-! ### `prepare_signal` -/

/-- Only the list of the `signal_struct` is different. -/
def SameButQueue (m m' : SignalStruct) : Prop := m' = { m with queue := m'.queue }

theorem SameButQueue.of_eq {m m' : SignalStruct} (he : m' = m) : SameButQueue m m' := by
  rw [SameButQueue, he]

namespace World

variable (w : World a) (p u : Nat)

@[simp] theorem onShared_thread (f : Sigset a → Sigset a) : (w.onShared p f).thread = w.thread := by
  refine foldl_same (fun w : World a => w.thread) ?_ _ w
  exact fun _ _ => rfl

@[simp] theorem onShared_action (f : Sigset a → Sigset a) : (w.onShared p f).action = w.action := by
  refine foldl_same (fun w : World a => w.action) ?_ _ w
  exact fun _ _ => rfl

@[simp] theorem onShared_signalOf (f : Sigset a → Sigset a) :
    (w.onShared p f).signalOf u = w.signalOf u := by
  rw [signalOf, onShared_signal, onShared_thread]
  rfl

theorem onQueue_signalOf (f : List Entry → List Entry) :
    SameButQueue (w.signalOf u)
      ((w.onSignal p fun m => { m with queue := f m.queue }).signalOf u) := by
  by_cases hu : (w.thread u).signal = (w.thread p).signal
  · have heq : w.signalOf u = w.signalOf p := congrArg w.signal hu
    rw [signalOf_onSignal_of_eq _ _ hu, heq, SameButQueue]
  · exact .of_eq (w.signalOf_onSignal_of_ne _ hu)

end World

structure SameStop (w w' : World a) (t : Nat) : Prop where
  stopPending : (w'.task t).stopPending = (w.task t).stopPending
  consumes : (w'.task t).consumes = (w.task t).consumes
  stopped : taskIsStopped (w'.task t) = taskIsStopped (w.task t)
  signalOf : SameButQueue (w.signalOf t) (w'.signalOf t)

theorem SameStop.refl (w : World a) (t : Nat) : SameStop w w t := ⟨rfl, rfl, rfl, .of_eq rfl⟩

theorem SameStop.trans {w w' w'' : World a} {u : Nat} (hs : SameStop w w' u)
    (hs' : SameStop w' w'' u) : SameStop w w'' u := by
  refine ⟨hs'.1.trans hs.1, hs'.2.trans hs.2, hs'.3.trans hs.3, ?_⟩
  have h1 := hs.signalOf
  have h2 := hs'.signalOf
  rw [SameButQueue] at *
  rw [h2, h1]

inductive Prepared (w : World a) (p : Nat) (w' : World a) : Prop
  | calm (hsame : ∀ u, SameStop w w' u)
  | continued (hlive : signalGroupExit (w.signalOf p) = false)
      (hout : ∀ u ∈ w.threads p, (w'.task u).stopPending = false ∧ (w'.task u).consumes = false)
      (hother : ∀ u, u ∉ w.threads p → SameStop w w' u)
      (hwhy : ∀ u ∈ w.threads p,
        continuedWhy (w.signalOf p) = 0 ∧ SameButQueue (w.signalOf p) (w'.signalOf u) ∨
        continuedWhy (w.signalOf p) ≠ 0 ∧
          (w'.signalOf u).flags = continuedWhy (w.signalOf p) ||| SIGNAL_STOP_CONTINUED ∧
          (w'.signalOf u).groupStopCount = 0 ∧
          (w'.signalOf u).currTarget = (w.signalOf p).currTarget)

section

variable (x : Extern a) (h : Headers a) {j : JobHeaders a} (w : World a) (p : Nat)

theorem continueThread_signal (t : Nat) : (continueThread x h w t).signal = w.signal := by
  unfold continueThread
  dsimp only
  split
  · rw [World.onTask_signal, rmFromQueue_signal]
    rfl
  · have htrap : ∀ (w : World a) t, (ptraceTrapNotify x w t).signal = w.signal := by
      intro w t
      unfold ptraceTrapNotify taskSetTrapNotify
      split
      · rfl
      · rfl
    rw [htrap, rmFromQueue_signal]
    rfl

theorem task_rmFromShared {β : Type*} (g : Task a → β)
    (hg : ∀ (s : Task a) set, g { s with sharedPending := set } = g s) (mask : Sigset a) (u : Nat) :
    g ((rmFromShared h mask w p).task u) = g (w.task u) := by
  have honly : ∀ f : Sigset a → Sigset a, g ((w.onShared p f).task u) = g (w.task u) := fun f =>
    foldl_same (fun w : World a => g (w.task u)) (fun w t => w.onTask_field t u g (hg _ _)) _ w
  unfold rmFromShared
  split
  · exact honly _
  · rfl

theorem task_rmFromQueue {β : Type*} (g : Task a → β)
    (hg : ∀ (s : Task a) set, g { s with pending := set } = g s) (mask : Sigset a) (t u : Nat) :
    g ((rmFromQueue h mask w t).task u) = g (w.task u) := by
  unfold rmFromQueue
  split
  · exact w.onTask_field t u (f := fun s => { s with pending := sigdelsetmask s.pending mask }) g
      (hg _ _)
  · rfl

theorem signalOf_rmFromShared (mask : Sigset a) (u : Nat) :
    SameButQueue (w.signalOf u) ((rmFromShared h mask w p).signalOf u) := by
  unfold rmFromShared
  split
  · have hq := (w.onShared p fun set => sigdelsetmask set mask).onQueue_signalOf p u
      (List.filter fun q => !unqueued h mask q)
    rw [World.onShared_signalOf] at hq
    exact hq
  · exact .of_eq rfl

theorem sameStop_rmFromShared (mask : Sigset a) (u : Nat) :
    SameStop w (rmFromShared h mask w p) u :=
  ⟨task_rmFromShared h w p Task.stopPending (fun _ _ => rfl) mask u,
    task_rmFromShared h w p Task.consumes (fun _ _ => rfl) mask u,
    task_rmFromShared h w p taskIsStopped (fun _ _ => rfl) mask u,
    signalOf_rmFromShared h w p mask u⟩

theorem sameStop_rmFromQueue (mask : Sigset a) (t u : Nat) :
    SameStop w (rmFromQueue h mask w t) u :=
  ⟨task_rmFromQueue h w Task.stopPending (fun _ _ => rfl) mask t u,
    task_rmFromQueue h w Task.consumes (fun _ _ => rfl) mask t u,
    task_rmFromQueue h w taskIsStopped (fun _ _ => rfl) mask t u, .of_eq (by
      rw [World.signalOf, rmFromQueue_signal, ((Spares.rmFromQueue h mask w t).thread u).signal]
      rfl)⟩

theorem sameStop_rmFromQueues (mask : Sigset a) (l : List Nat) (u : Nat) :
    SameStop w (l.foldl (rmFromQueue h mask) w) u := by
  induction l generalizing w with
  | nil => exact .refl w u
  | cons t l ih => exact (sameStop_rmFromQueue h w mask t u).trans (ih _)

theorem out_continueThread (hk : sigismember h.SIG_KERNEL_STOP_MASK SIGKILL = false) (t : Nat) :
    ((continueThread x h w t).task t).stopPending = false ∧
      ((continueThread x h w t).task t).consumes = false := by
  exact ((Eased.continueThread_rest x hk w t).task t).out
    (stopBits_taskClearJobctlPending w t _ (by decide) (by decide))

theorem continuedWhy_congr {m m' : SignalStruct} (hm : SameButQueue m m') :
    continuedWhy m' = continuedWhy m := by
  rw [hm]
  rfl

variable {w p}

/-- The part of `prepare_signal` for `SIGCONT`, but for the flags. -/
theorem continueThreads_spec (hj : JobHeaders.Sound h j) (hg : Grouped w) {w' : World a}
    (hw : w' = (w.threads p).foldl (continueThread x h) (rmFromShared h h.SIG_KERNEL_STOP_MASK w p)) :
    (∀ u ∈ w.threads p, (w'.task u).stopPending = false ∧ (w'.task u).consumes = false) ∧
      (∀ u, u ∉ w.threads p → SameStop w w' u) ∧
      ∀ u, SameButQueue (w.signalOf u) (w'.signalOf u) := by
  subst hw
  have hsame := fun u => sameStop_rmFromShared h w p h.SIG_KERNEL_STOP_MASK u
  generalize rmFromShared h h.SIG_KERNEL_STOP_MASK w p = v at hsame ⊢
  have hlocal := local_continueThread (a := a) x h
  have hsignal : ∀ u, ((w.threads p).foldl (continueThread x h) v).signalOf u = v.signalOf u := by
    intro u
    rw [World.signalOf, World.signalOf,
      foldl_same (fun w : World a => w.signal) (continueThread_signal x h),
      ((Spares.foldl (Spares.continueThread x h) _ v).thread u).signal]
  refine ⟨fun u hu => ?_, fun u hu => ?_, fun u => ?_⟩
  · have hmember := hlocal.foldl_mem (hg.nodup p) hu v
    have htask : ((w.threads p).foldl (continueThread x h) v).task u = _ := (Prod.mk.inj hmember).1
    rw [htask]
    exact out_continueThread x h v hj.kill_stop u
  · have htask : ((w.threads p).foldl (continueThread x h) v).task u = _ :=
      (Prod.mk.inj (hlocal.foldl_notMem hu v)).1
    refine ⟨?_, ?_, ?_, ?_⟩
    · rw [htask, (hsame u).stopPending]
    · rw [htask, (hsame u).consumes]
    · rw [htask, (hsame u).stopped]
    · rw [hsignal]
      exact (hsame u).signalOf
  · rw [hsignal]
    exact (hsame u).signalOf

/-- **Everything `prepare_signal` can do to a group stop.** -/
theorem prepareSignal_cases (hj : JobHeaders.Sound h j) (hg : Grouped w) (sig : Signal)
    (fromAncestorNs : Bool) :
    Prepared w p (prepareSignal x h w sig p fromAncestorNs).1 := by
  have hthreads : ∀ mask, (rmFromShared h mask w p).threads p = w.threads p := fun mask =>
    (Spares.rmFromShared h mask w p).threads p
  dsimp only [prepareSignal]
  by_cases hexit : (w.signalOf p).flags &&& SIGNAL_GROUP_EXIT ≠ 0
  · rw [if_pos hexit]
    exact .calm fun u => .refl w u
  by_cases hstop : sigKernelStop h sig = true
  · rw [if_neg hexit, if_pos hstop]
    exact .calm fun u =>
      (sameStop_rmFromShared h w p _ u).trans (sameStop_rmFromQueues h _ _ _ u)
  by_cases hcont : sig = h.SIGCONT
  · rw [if_neg hexit, if_neg hstop, if_pos hcont, hthreads]
    have hlive : signalGroupExit (w.signalOf p) = false := decide_eq_false hexit
    obtain ⟨hout, hother, hsignal⟩ := continueThreads_spec x h hj hg rfl
    have hgroup : ∀ u v, (((w.threads p).foldl (continueThread x h)
        (rmFromShared h h.SIG_KERNEL_STOP_MASK w p)).thread u).signal =
        (((w.threads p).foldl (continueThread x h)
          (rmFromShared h h.SIG_KERNEL_STOP_MASK w p)).thread v).signal ↔
        (w.thread u).signal = (w.thread v).signal := by
      intro u v
      have hs := (Spares.rmFromShared h h.SIG_KERNEL_STOP_MASK w p).trans
        (Spares.foldl (Spares.continueThread x h) (w.threads p) _)
      rw [(hs.thread u).signal, (hs.thread v).signal]
    generalize (w.threads p).foldl (continueThread x h)
      (rmFromShared h h.SIG_KERNEL_STOP_MASK w p) = w' at hout hother hsignal hgroup ⊢
    have hwhy := continuedWhy_congr (hsignal p)
    rw [hwhy]
    by_cases h0 : continuedWhy (w.signalOf p) = 0
    · rw [if_neg (not_not_intro h0)]
      refine .continued hlive hout hother fun u hu => Or.inl ⟨h0, ?_⟩
      rw [← hg.signalOf hu]
      exact hsignal u
    · rw [if_pos h0]
      refine .continued hlive hout (fun u hu => ?_) fun u hu => Or.inr ⟨h0, ?_⟩
      · obtain ⟨hp, hc, hs, hq⟩ := hother u hu
        refine ⟨hp, hc, hs, ?_⟩
        rw [World.signalOf_onSignal_of_ne _ _ fun he =>
          hu ((hg.mem p u).mpr ((hgroup u p).mp he))]
        exact hq
      · rw [World.signalOf_onSignal_of_eq _ _ ((hgroup u p).mpr ((hg.mem p u).mp hu))]
        have hq := hsignal p
        rw [SameButQueue] at hq
        exact ⟨rfl, rfl, by rw [hq]⟩
  · rw [if_neg hexit, if_neg hstop, if_neg hcont]
    exact .calm fun u => .refl w u

/-! ### The shared set -/

theorem shared_onShared (hg : Grouped w) (f : Sigset a → Sigset a) (u : Nat) :
    ((w.onShared p f).task u).sharedPending =
      if u ∈ w.threads p then f (w.task u).sharedPending else (w.task u).sharedPending := by
  have hlocal := local_onTask (a := a) fun s => { s with sharedPending := f s.sharedPending }
  split
  · next hu =>
    have htask : (w.onShared p f).task u = _ := (Prod.mk.inj (hlocal.foldl_mem (hg.nodup p) hu w)).1
    rw [htask, World.onTask_task_self]
  · next hu =>
    have htask : (w.onShared p f).task u = _ := (Prod.mk.inj (hlocal.foldl_notMem hu w)).1
    rw [htask]

/-- **A write to the shared set is one to each thread of the process.** -/
theorem task_onShared (hg : Grouped w) (f : Sigset a → Sigset a) (u : Nat) :
    (w.onShared p f).task u = { w.task u with
      sharedPending :=
        if u ∈ w.threads p then f (w.task u).sharedPending else (w.task u).sharedPending } := by
  have hrest : { (w.onShared p f).task u with sharedPending := sigemptyset } =
      { w.task u with sharedPending := sigemptyset } :=
    foldl_same (fun w : World a => { w.task u with sharedPending := sigemptyset })
      (fun w t => w.onTask_field t u (fun s => { s with sharedPending := sigemptyset }) rfl) _ w
  rw [← shared_onShared hg]
  exact congrArg (fun s : Task a =>
    { s with sharedPending := ((w.onShared p f).task u).sharedPending }) hrest

theorem shared_rmFromShared (hg : Grouped w) (mask : Sigset a) (u : Nat) :
    ((rmFromShared h mask w p).task u).sharedPending =
      if u ∈ w.threads p then sigdelsetmask (w.task u).sharedPending mask
      else (w.task u).sharedPending := by
  unfold rmFromShared
  by_cases ht : sigtestsetmask (w.task p).sharedPending mask = true
  · rw [if_pos ht]
    exact shared_onShared hg _ u
  · rw [if_neg ht]
    split
    · next hu => rw [hg.shared p u hu, sigdelsetmask_of_not_test ht]
    · rfl

/-- **But for the shared set, `prepare_signal` only eases.** -/
theorem eased_prepareSignal (hj : JobHeaders.Sound h j) (sig : Signal) (fromAncestorNs : Bool) :
    Eased (rmFromShared h (takenOff h w sig p) w p)
      (prepareSignal x h w sig p fromAncestorNs).1 := by
  have hempty : rmFromShared h (fun _ => 0#_) w p = w := by
    have ht : sigtestsetmask (w.task p).sharedPending (fun _ => 0#_) = false := by
      rw [sigtestsetmask, decide_eq_false_iff_not, not_exists]
      exact fun k => not_not_intro BitVec.and_zero
    unfold rmFromShared
    rw [if_neg (by rw [ht]; decide)]
  have hcont : sigismember (sigmask h.SIGCONT : Sigset a) SIGKILL = false :=
    Bool.eq_false_iff.mpr fun hk => hj.ne ((sigismember_sigmask _ _).mp hk)
  dsimp only [prepareSignal]
  unfold takenOff
  split_ifs
  · rw [hempty]
    exact .refl w
  · exact .foldl (Eased.rmFromQueue hcont) _ _
  · exact (Eased.foldl (Eased.continueThread x hj.kill_stop) _ _).trans (.onSignal _ _ _)
  · exact .foldl (Eased.continueThread x hj.kill_stop) _ _
  · rw [hempty]
    exact .refl w

theorem shared_prepareSignal (hj : JobHeaders.Sound h j) (hg : Grouped w) (sig : Signal)
    (fromAncestorNs : Bool) (u : Nat) :
    ((prepareSignal x h w sig p fromAncestorNs).1.task u).sharedPending =
      if u ∈ w.threads p then sigdelsetmask (w.task u).sharedPending (takenOff h w sig p)
      else (w.task u).sharedPending := by
  rw [((eased_prepareSignal x h hj sig fromAncestorNs).task u).shared,
    shared_rmFromShared h hg]

theorem Grouped.prepareSignal (hj : JobHeaders.Sound h j) (hg : Grouped w) (sig : Signal)
    (fromAncestorNs : Bool) : Grouped (prepareSignal x h w sig p fromAncestorNs).1 := by
  have hs := Spares.prepareSignal x h w sig p fromAncestorNs
  refine hg.of_same (fun t => ⟨(hs.task t).threadGroup, (hs.task t).sighand⟩)
    (fun t => (hs.thread t).signal) (fun t u hu => ?_) fun t => ?_
  · rw [shared_prepareSignal x h hj hg, shared_prepareSignal x h hj hg, hg.shared t u hu]
    have hiff : u ∈ w.threads p ↔ t ∈ w.threads p :=
      ⟨fun h' => hg.trans h' (hg.symm hu), fun h' => hg.trans h' hu⟩
    simp only [hiff]
  · have htarget : ((Signals.prepareSignal x h w sig p fromAncestorNs).1.signalOf t).currTarget =
        (w.signalOf t).currTarget := by
      cases prepareSignal_cases x h hj hg sig fromAncestorNs with
      | calm hsame =>
        rw [(hsame t).signalOf]
      | continued hlive hout hother hwhy =>
        by_cases ht : t ∈ w.threads p
        · rcases hwhy t ht with ⟨-, hq⟩ | ⟨-, -, -, hq⟩
          · rw [hq, hg.signalOf ht]
          · rw [hq, hg.signalOf ht]
        · rw [(hother t ht).signalOf]
    rw [htarget]
    exact hg.currTarget t

end

/-! ### `complete_signal` -/

structure Doomed (s s' : Task a) : Prop where
  threadGroup : s'.threadGroup = s.threadGroup
  exitState : s'.exitState = s.exitState
  blocked : s'.blocked = s.blocked
  shared : s'.sharedPending = s.sharedPending
  pending : s'.pending = sigaddset s.pending SIGKILL
  out : s'.stopPending = false ∧ s'.consumes = false
  traps : s'.jobctl &&& JOBCTL_TRAP_MASK = 0
  flag : s'.tifSigpending = true
  state : s'.state =
    if s.state &&& (TASK_WAKEKILL ||| TASK_INTERRUPTIBLE) = 0 then s.state else TASK_RUNNING

inductive Completed (x : Extern a) (w : World a) (sig : Signal) (p : Nat) (group : Bool)
    (w' : World a) : Prop
  | unwanted (hw : w' = w) (hp : wantsSignal w sig p = false)
      (hgroup : group = true → ∀ u ∈ w.threads p, wantsSignal w sig u = false)
  | killed (hflags : (w.signalOf p).flags &&& (SIGNAL_UNKILLABLE ||| SIGNAL_GROUP_EXIT) = 0)
      (hthread : w'.thread = w.thread)
      (hall : ∀ u ∈ w.threads p, Doomed (w.task u) (w'.task u) ∧
        (w'.signalOf u).flags = SIGNAL_GROUP_EXIT ∧ (w'.signalOf u).groupStopCount = 0 ∧
        (w'.signalOf u).currTarget ∈ w.threads p)
      (hother : ∀ u, u ∉ w.threads p → w'.task u = w.task u ∧ w'.signalOf u = w.signalOf u)
  | woken (t : Nat) (ht : t ∈ w.threads p) (htp : group = false → t = p)
      (hwants : wantsSignal w sig t = true)
      (htakes : sig = SIGKILL → sigHandler w p SIGKILL = .dfl →
        sigismember (w.thread t).realBlocked SIGKILL = false →
        (w.signalOf p).flags &&& (SIGNAL_UNKILLABLE ||| SIGNAL_GROUP_EXIT) ≠ 0)
      (hthread : w'.thread = w.thread)
      (htask : w'.task t = signalWakeUp x (w.task t) (decide (sig = SIGKILL)))
      (hother : ∀ u, u ≠ t → w'.task u = w.task u)
      (hsignal : ∀ u, (w'.signalOf u) =
          { w.signalOf u with currTarget := (w'.signalOf u).currTarget } ∧
        (w'.signalOf u).currTarget ∈ w.threads u)

section

variable (x : Extern a) (h : Headers a) {j : JobHeaders a} {w : World a} {p : Nat}

theorem task_killThread (w : World a) (t : Nat) :
    Doomed (w.task t) ((killThread x w t).task t) := by
  have hbits := stopBits_taskClearJobctlPending w t JOBCTL_PENDING_MASK (by decide) (by decide)
  have htraps := jobctl_taskClearJobctlPending w t JOBCTL_PENDING_MASK
    (b := JOBCTL_TRAP_MASK) (by decide)
  have heq : (killThread x w t).task t = { (taskClearJobctlPending w t JOBCTL_PENDING_MASK).task t with
      pending := sigaddset (w.task t).pending SIGKILL
      tifSigpending := true
      state := if (w.task t).state &&& (TASK_WAKEKILL ||| TASK_INTERRUPTIBLE) = 0 then (w.task t).state
        else TASK_RUNNING } := by
    unfold killThread
    rw [World.onTask_task_self, task_taskClearJobctlPending]
    exact x.wakeUpState_eq _ _
  rw [heq]
  rw [task_taskClearJobctlPending] at hbits htraps ⊢
  exact ⟨rfl, rfl, rfl, rfl, rfl, hbits, htraps, rfl, rfl⟩

theorem chooseThread_none {sig : Signal} {group : Bool} (hg : Grouped w)
    (hc : chooseThread w sig p group = none) :
    wantsSignal w sig p = false ∧ (group = true → ∀ u ∈ w.threads p, wantsSignal w sig u = false) := by
  unfold chooseThread at hc
  split_ifs at hc with hp halone
  · refine ⟨Bool.eq_false_iff.mpr hp, fun hgroup u hu => ?_⟩
    rcases halone with hno | halone
    · rw [hno] at hgroup
      cases hgroup
    · rw [threads_of_alone halone, List.mem_singleton] at hu
      rw [hu]
      exact Bool.eq_false_iff.mpr hp
  · refine ⟨Bool.eq_false_iff.mpr hp, fun _ u hu => ?_⟩
    split at hc
    · next hf =>
      have hin : u ∈ w.threads (w.signalOf p).currTarget :=
        hg.trans (hg.symm (hg.currTarget p)) hu
      exact Bool.eq_false_iff.mpr (List.find?_eq_none.mp hf u hin)
    · cases hc

theorem chooseThread_some {sig : Signal} {group : Bool} {w' : World a} {t : Nat} (hg : Grouped w)
    (hc : chooseThread w sig p group = some (w', t)) :
    t ∈ w.threads p ∧ wantsSignal w sig t = true ∧ (group = false → t = p) ∧
      (w' = w ∨ w' = w.onSignal p fun m => { m with currTarget := t }) := by
  unfold chooseThread at hc
  split_ifs at hc with hp halone
  · obtain ⟨rfl, rfl⟩ := Prod.mk.inj (Option.some.inj hc)
    exact ⟨hg.self _, hp, fun _ => rfl, Or.inl rfl⟩
  · split at hc
    · cases hc
    · next t' hf =>
      obtain ⟨rfl, rfl⟩ := Prod.mk.inj (Option.some.inj hc)
      refine ⟨hg.trans (hg.currTarget p) (List.mem_of_find?_eq_some hf), List.find?_some hf,
        fun hgroup => absurd (Or.inl hgroup) halone, Or.inr rfl⟩

theorem takesGroupDown_kill {t : Nat} (hj : JobHeaders.Sound h j)
    (hd : sigHandler w p SIGKILL = .dfl)
    (hr : sigismember (w.thread t).realBlocked SIGKILL = false)
    (hf : (w.signalOf p).flags &&& (SIGNAL_UNKILLABLE ||| SIGNAL_GROUP_EXIT) = 0) :
    takesGroupDown h w SIGKILL p t = true := by
  have hfatal : sigFatal h w p SIGKILL = true := by
    rw [sigFatal, hj.kill_ignore, hj.kill, hd]
    rfl
  rw [takesGroupDown, hfatal, decide_eq_true hf, hr, hj.kill_coredump]
  rfl

theorem takesGroupDown_flags {sig : Signal} {t : Nat} (ht : takesGroupDown h w sig p t = true) :
    (w.signalOf p).flags &&& (SIGNAL_UNKILLABLE ||| SIGNAL_GROUP_EXIT) = 0 := by
  simp only [takesGroupDown, Bool.and_eq_true, decide_eq_true_eq] at ht
  exact ht.1.1.1.2

theorem killThreads_spec {l : List Nat} (hn : l.Nodup) (v : World a) :
    (l.foldl (killThread x) v).thread = v.thread ∧
      (∀ u, (l.foldl (killThread x) v).signalOf u = v.signalOf u) ∧
      (∀ u ∈ l, Doomed (v.task u) ((l.foldl (killThread x) v).task u)) ∧
      ∀ u, u ∉ l → (l.foldl (killThread x) v).task u = v.task u := by
  have hlocal := local_killThread (a := a) x
  have hthread : (l.foldl (killThread x) v).thread = v.thread := by
    refine foldl_same (fun w : World a => w.thread) ?_ l v
    exact fun _ _ => rfl
  have hsignal : (l.foldl (killThread x) v).signal = v.signal := by
    refine foldl_same (fun w : World a => w.signal) ?_ l v
    exact fun _ _ => rfl
  refine ⟨hthread, fun u => ?_, fun u hu => ?_, fun u hu => ?_⟩
  · rw [World.signalOf, World.signalOf, hsignal, hthread]
  · have htask : (l.foldl (killThread x) v).task u = _ :=
      (Prod.mk.inj (hlocal.foldl_mem hn hu v)).1
    rw [htask]
    exact task_killThread x v u
  · exact (Prod.mk.inj (hlocal.foldl_notMem hu v)).1

/-- **Everything `complete_signal` can do.** -/
theorem completeSignal_cases (hj : JobHeaders.Sound h j) (hg : Grouped w) (sig : Signal)
    (group : Bool) : Completed x w sig p group (completeSignal x h w sig p group) := by
  unfold completeSignal
  cases hc : chooseThread w sig p group with
  | none =>
    obtain ⟨hp, hgroup⟩ := chooseThread_none hg hc
    exact .unwanted rfl hp hgroup
  | some r =>
    obtain ⟨v, t⟩ := r
    obtain ⟨ht, hwants, htp, hv⟩ := chooseThread_some hg hc
    have hvtask : v.task = w.task := by
      rcases hv with rfl | rfl
      · rfl
      · rfl
    have hvthread : v.thread = w.thread := by
      rcases hv with rfl | rfl
      · rfl
      · rfl
    have hvaction : v.action = w.action := by
      rcases hv with rfl | rfl
      · rfl
      · rfl
    have hvsignal : ∀ u, v.signalOf u = { w.signalOf u with currTarget := (v.signalOf u).currTarget } ∧
        (v.signalOf u).currTarget ∈ w.threads u := by
      intro u
      rcases hv with rfl | rfl
      · exact ⟨rfl, hg.currTarget u⟩
      · by_cases hu : u ∈ w.threads p
        · rw [hg.onSignal_signalOf _ hu, ← hg.signalOf hu]
          exact ⟨rfl, hg.trans (hg.symm hu) ht⟩
        · rw [hg.onSignal_signalOf_other _ hu]
          exact ⟨rfl, hg.currTarget u⟩
    have hthreads : v.threads p = w.threads p := by rw [World.threads, World.threads, hvtask]
    show Completed x w sig p group (if takesGroupDown h v sig p t = true then _ else _)
    by_cases htakes : takesGroupDown h v sig p t = true
    · rw [if_pos htakes]
      have hflags := takesGroupDown_flags h htakes
      rw [(hvsignal p).1] at hflags
      show Completed x w sig p group ((v.threads p).foldl (killThread x) (v.onSignal p _))
      rw [hthreads]
      have hgroup : ∀ u, u ∈ w.threads p ↔ (v.thread u).signal = (v.thread p).signal := fun u => by
        rw [hvthread]
        exact hg.mem p u
      obtain ⟨hthread, hsignal, hkill, hother⟩ := killThreads_spec x (hg.nodup p) (v.onSignal p
        fun m => { m with
          flags := SIGNAL_GROUP_EXIT
          groupExitCode := sig.num
          groupStopCount := 0 })
      refine .killed hflags (hthread.trans hvthread) (fun u hu => ⟨?_, ?_⟩) fun u hu => ⟨?_, ?_⟩
      · rw [← hvtask]
        exact hkill u hu
      · rw [hsignal, World.signalOf_onSignal_of_eq _ _ ((hgroup u).mp hu)]
        exact ⟨rfl, rfl, (hvsignal p).2⟩
      · rw [← hvtask]
        exact hother u hu
      · rw [hsignal, World.signalOf_onSignal_of_ne _ _ fun he => hu ((hgroup u).mpr he)]
        rcases hv with rfl | rfl
        · rfl
        · exact hg.onSignal_signalOf_other _ hu
    · rw [if_neg htakes]
      refine .woken t ht htp hwants (fun hsig hd hr hf => htakes ?_) hvthread ?_ ?_ hvsignal
      · subst hsig
        refine takesGroupDown_kill h hj ?_ ?_ ?_
        · rw [← hd, sigHandler, sigHandler, hvtask, hvaction]
        · rw [hvthread]
          exact hr
        · rw [(hvsignal p).1]
          exact hf
      · rw [World.onTask_task_self, hvtask]
      · intro u hu
        rw [World.onTask_task_of_ne _ _ hu, hvtask]

end

end LinuxKerDev.Signals
