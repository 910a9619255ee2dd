import LinuxKerDev.Signals.DeepSleep

/-!
# `SIGCONT` and the stop signals

`SIGCONT` undoes the stop signals and they undo it, so a process is not to have both
pending.  `prepare_signal` sees to that when a signal is generated: it takes `takenOff`
off the pending sets before the signal goes there, unless the process is on its way out.

`smunch` is a second writer of the private set, and ORs its pattern into it with nothing
taken off.  `sendSignal₀_pends` and `smunch_pends` are what the two do to the signals that
are pending, all but `SIGKILL`, and `exclusive_iff` says which runs keep the two kinds
apart.
-/

namespace LinuxKerDev.Signals

open Lib

variable {a : Arch}

/-! ### The signals in question -/

/-- What the headers say of `SIGCONT` and the stop signals. -/
structure Headers.StopCont (h : Headers a) : Prop where
  cont : sigKernelStop h h.SIGCONT = false
  kill : sigKernelStop h SIGKILL = false
  ne : SIGKILL ≠ h.SIGCONT

/-- `SIGSTOP`, `SIGTSTP`, `SIGTTIN` and `SIGTTOU` -/
theorem sigKernelStop_x86 (s : Signal) : sigKernelStop (Headers.x86 a) s = true ↔
    s.num = 19 ∨ s.num = 20 ∨ s.num = 21 ∨ s.num = 22 := by
  have hnum : ∀ (n : Nat) (hn : 1 ≤ n) (hn' : n ≤ 64), s = ⟨n, hn, hn'⟩ ↔ s.num = n :=
    fun n hn hn' => ⟨fun he => by rw [he], fun he => by cases s; cases he; rfl⟩
  rw [sigKernelStop, siginmask, Bool.and_eq_true, decide_eq_true_eq]
  simp only [Headers.x86, sigmaskOf, List.foldl_cons, List.foldl_nil, sigismember_sigaddset,
    sigismember_empty, hnum, Bool.false_eq_true, or_false]
  omega

theorem Headers.stopCont_x86 (a : Arch) : (Headers.x86 a).StopCont where
  cont := Bool.eq_false_iff.mpr fun hs => by
    have hnum : 18 = 19 ∨ 18 = 20 ∨ 18 = 21 ∨ 18 = 22 := (sigKernelStop_x86 _).mp hs
    omega
  kill := Bool.eq_false_iff.mpr fun hs => by
    have hnum : 9 = 19 ∨ 9 = 20 ∨ 9 = 21 ∨ 9 = 22 := (sigKernelStop_x86 _).mp hs
    omega
  ne he := by
    have hnum : 9 = 18 := congrArg Signal.num he
    omega

theorem Headers.StopCont.ne_cont {h : Headers a} (hh : h.StopCont) {s : Signal}
    (hs : sigKernelStop h s = true) : s ≠ h.SIGCONT := by
  rintro rfl
  rw [hh.cont] at hs
  cases hs

theorem Headers.StopCont.ne_kill {h : Headers a} (hh : h.StopCont) {s : Signal}
    (hs : s = h.SIGCONT ∨ sigKernelStop h s = true) : s ≠ SIGKILL := by
  rintro rfl
  rcases hs with heq | hs
  · exact hh.ne heq
  · rw [hh.kill] at hs
    cases hs

def World.Pends (w : World a) (t : Nat) (s : Signal) : Prop :=
  sigismember (w.task t).pending s = true ∨ sigismember (w.task t).sharedPending s = true

instance (w : World a) (t : Nat) (s : Signal) : Decidable (w.Pends t s) :=
  inferInstanceAs (Decidable (_ ∨ _))

/-- `SIGCONT` is not pending together with a stop signal. -/
def Exclusive (h : Headers a) (t : Nat) (w : World a) : Prop :=
  ∀ s, sigKernelStop h s = true → w.Pends t s → ¬ w.Pends t h.SIGCONT

/-! ### Taking signals off -/

theorem sigismember_sigmask (sig s : Signal) :
    sigismember (sigmask sig : Sigset a) s = true ↔ s = sig := by
  show sigismember (sigaddset _ sig) s = true ↔ _
  rw [sigismember_sigaddset, sigismember_empty]
  exact or_iff_left (by decide)

/-- Where `rm_from_queue` finds nothing of the mask, there is nothing to take off. -/
theorem sigdelsetmask_of_not_test {set mask : Sigset a} (ht : ¬ sigtestsetmask set mask = true) :
    sigdelsetmask set mask = set := by
  rw [sigtestsetmask, decide_eq_true_eq, not_exists] at ht
  exact WordSet.diff_eq_self _ _ fun k => not_not.mp (ht k)

/-- The signals that `prepare_signal` takes off the pending sets. -/
def takenOff (h : Headers a) (w : World a) (sig : Signal) (t : Nat) : Sigset a :=
  if (w.signalOf t).flags &&& SIGNAL_GROUP_EXIT ≠ 0 then fun _ => 0#_
  else if sigKernelStop h sig = true then sigmask h.SIGCONT
  else if sig = h.SIGCONT then h.SIG_KERNEL_STOP_MASK
  else fun _ => 0#_

def World.sets (w : World a) (t : Nat) : Sigset a × Sigset a :=
  ((w.task t).pending, (w.task t).sharedPending)

theorem pends_of_sets {w w' : World a} {t : Nat} (hs : w'.sets t = w.sets t) (s : Signal) :
    w'.Pends t s ↔ w.Pends t s := by
  obtain ⟨hp, hq⟩ := Prod.mk.inj hs
  rw [World.Pends, World.Pends, hp, hq]

theorem sets_onTask (w : World a) (t : Nat) (f : Task a → Task a) :
    (w.onTask t f).sets t = ((f (w.task t)).pending, (f (w.task t)).sharedPending) := by
  rw [World.sets, World.onTask_task, Function.update_self]

theorem sets_onTask_same {w : World a} {t : Nat} {f : Task a → Task a}
    (hp : (f (w.task t)).pending = (w.task t).pending)
    (hq : (f (w.task t)).sharedPending = (w.task t).sharedPending) :
    (w.onTask t f).sets t = w.sets t := by
  rw [sets_onTask, hp, hq, World.sets]

theorem sets_signalWakeUpState (x : Extern a) (s : Task a) (m : BitVec 32) :
    (signalWakeUpState x s m).pending = s.pending ∧
      (signalWakeUpState x s m).sharedPending = s.sharedPending := by
  rw [signalWakeUpState, x.wakeUpState_eq]
  exact ⟨rfl, rfl⟩

section

variable (x : Extern a) (h : Headers a) (mask : Sigset a) {w : World a} {t : Nat}

theorem sets_rmFromQueue : (rmFromQueue h mask w t).sets t =
    (sigdelsetmask (w.sets t).1 mask, (w.sets t).2) := by
  unfold rmFromQueue
  split
  · exact sets_onTask w t fun s => { s with pending := sigdelsetmask s.pending mask }
  · next ht => rw [World.sets, sigdelsetmask_of_not_test ht]

theorem threads_of_alone (halone : (w.task t).threadGroup = []) : w.threads t = [t] := by
  rw [World.threads, halone]

theorem sets_rmFromShared (halone : (w.task t).threadGroup = []) :
    (rmFromShared h mask w t).sets t = ((w.sets t).1, sigdelsetmask (w.sets t).2 mask) := by
  unfold rmFromShared
  split
  · show (w.onShared t _).sets t = _
    rw [World.onShared, threads_of_alone halone]
    exact sets_onTask w t fun s => { s with sharedPending := sigdelsetmask s.sharedPending mask }
  · next ht => rw [World.sets, sigdelsetmask_of_not_test ht]

theorem sets_ptraceTrapNotify : (ptraceTrapNotify x w t).sets t = w.sets t := by
  have hset : (taskSetTrapNotify w t).sets t = w.sets t := by
    unfold taskSetTrapNotify
    split
    · rfl
    · exact sets_onTask_same rfl rfl
  rw [← hset, ptraceTrapNotify]
  refine sets_onTask_same ?_ ?_
  · exact (sets_signalWakeUpState x _ _).1
  · exact (sets_signalWakeUpState x _ _).2

theorem sets_continueThread : (continueThread x h w t).sets t =
    (sigdelsetmask (w.sets t).1 h.SIG_KERNEL_STOP_MASK, (w.sets t).2) := by
  have hclear : (taskClearJobctlPending w t JOBCTL_STOP_PENDING).sets t = w.sets t :=
    sets_onTask_same rfl rfl
  rw [← hclear, ← sets_rmFromQueue h, continueThread]
  split
  · refine sets_onTask_same ?_ ?_
    · rw [x.wakeUpState_eq]
    · rw [x.wakeUpState_eq]
  · exact sets_ptraceTrapNotify x

/-- **What `prepare_signal` does to the pending sets** of a single-threaded process. -/
theorem sets_prepareSignal (sig : Signal) (fromAncestorNs : Bool)
    (halone : (w.task t).threadGroup = []) :
    (prepareSignal x h w sig t fromAncestorNs).1.sets t =
      (sigdelsetmask (w.sets t).1 (takenOff h w sig t),
        sigdelsetmask (w.sets t).2 (takenOff h w sig t)) := by
  have hempty : ∀ set : Sigset a, sigdelsetmask set (fun _ => 0#_) = set := fun set =>
    WordSet.diff_eq_self _ _ fun _ => BitVec.and_zero
  have halone' : ∀ mask, ((rmFromShared h mask w t).task t).threadGroup = [] := fun mask =>
    ((Spares.rmFromShared h mask w t).task t).threadGroup.trans halone
  dsimp only [prepareSignal]
  unfold takenOff
  split_ifs
  · rw [hempty, hempty]
  · rw [threads_of_alone (halone' _)]
    show (rmFromQueue h _ _ t).sets t = _
    rw [sets_rmFromQueue, sets_rmFromShared h _ halone]
  · rw [threads_of_alone (halone' _)]
    show (continueThread x h _ t).sets t = _
    rw [sets_continueThread, sets_rmFromShared h _ halone]
  · rw [threads_of_alone (halone' _)]
    show (continueThread x h _ t).sets t = _
    rw [sets_continueThread, sets_rmFromShared h _ halone]
  · rw [hempty, hempty]

/-! ### Sending -/

theorem killThread_pends {s : Signal} (hs : s ≠ SIGKILL) :
    (killThread x w t).Pends t s ↔ w.Pends t s := by
  have hclear : (taskClearJobctlPending w t JOBCTL_PENDING_MASK).sets t = w.sets t :=
    sets_onTask_same rfl rfl
  rw [← pends_of_sets hclear, killThread]
  generalize taskClearJobctlPending w t JOBCTL_PENDING_MASK = v
  rw [World.Pends, World.onTask_task, Function.update_self, signalWakeUp,
    (sets_signalWakeUpState x _ _).1, (sets_signalWakeUpState x _ _).2, sigismember_sigaddset,
    World.Pends]
  exact or_congr_left (or_iff_right hs)

/-- `complete_signal` puts in no signal but `SIGKILL`, and takes none out. -/
theorem completeSignal_pends (sig : Signal) (group : Bool) (halone : (w.task t).threadGroup = [])
    {s : Signal} (hs : s ≠ SIGKILL) :
    (completeSignal x h w sig t group).Pends t s ↔ w.Pends t s := by
  unfold completeSignal
  split
  · exact Iff.rfl
  · next w' t' hc =>
    -- the process has no other thread to take the signal
    obtain ⟨rfl, rfl⟩ : w' = w ∧ t' = t := by
      unfold chooseThread at hc
      split_ifs at hc with hwants hgone
      · obtain ⟨rfl, rfl⟩ := Prod.mk.inj (Option.some.inj hc)
        exact ⟨rfl, rfl⟩
      · exact absurd (Or.inr halone) hgone
    split
    · show ((w'.threads t').foldl (killThread x) _).Pends t' s ↔ _
      rw [threads_of_alone halone]
      exact killThread_pends x hs
    · refine pends_of_sets (sets_onTask_same ?_ ?_) s
      · exact (sets_signalWakeUpState x _ _).1
      · exact (sets_signalWakeUpState x _ _).2

theorem addPending_pends (sig : Signal) (group : Bool) (halone : (w.task t).threadGroup = [])
    (s : Signal) : (addPending w t group sig).Pends t s ↔ s = sig ∨ w.Pends t s := by
  unfold addPending
  split
  · rw [World.onShared, threads_of_alone halone, List.foldl_cons, List.foldl_nil, World.Pends,
      World.onTask_task, Function.update_self, sigismember_sigaddset, World.Pends]
    exact or_left_comm
  · rw [World.Pends, World.onTask_task, Function.update_self, sigismember_sigaddset, World.Pends]
    exact or_assoc

theorem outSet_pends (sig : Signal) (group : Bool) (halone : (w.task t).threadGroup = [])
    {s : Signal} (hs : s ≠ SIGKILL) :
    (outSet x h w sig t group).Pends t s ↔ s = sig ∨ w.Pends t s := by
  have halone' := ((Spares.addPending w t group sig).task t).threadGroup.trans halone
  rw [outSet, completeSignal_pends x h sig group halone' hs, addPending_pends sig group halone]

theorem prepareSignal_pends (sig : Signal) (fromAncestorNs : Bool)
    (halone : (w.task t).threadGroup = []) (s : Signal) :
    (prepareSignal x h w sig t fromAncestorNs).1.Pends t s ↔
      w.Pends t s ∧ sigismember (takenOff h w sig t) s = false := by
  obtain ⟨hp, hq⟩ := Prod.mk.inj (sets_prepareSignal x h sig fromAncestorNs halone)
  rw [World.Pends, hp, hq, sigdelsetmask, sigismember_diff, sigdelsetmask, sigismember_diff,
    World.Pends, or_and_right]
  exact Iff.rfl

theorem addEntry_task (w : World a) (t : Nat) (group : Bool) (q : Entry) :
    (addEntry w t group q).task = w.task := by
  unfold addEntry
  split
  · rfl
  · rfl

/-- The signal gets as far as the pending sets: it is not ignored, and there is no lack of
memory that it would fail for. -/
def GoesIn (h : Headers a) (alloc : Bool) (w : World a) (sig : Signal) (info : Info) (t : Nat)
    (fromAncestorNs : Bool) : Prop :=
  sigIgnored h w t sig fromAncestorNs = false ∧ mustQueue h sig alloc info = false

/-- **What `__send_signal` leaves pending** for a single-threaded process. -/
theorem sendSignal₀_pends (alloc : Bool) (sig : Signal) (info : Info)
    (group fromAncestorNs : Bool) (halone : (w.task t).threadGroup = []) {s : Signal}
    (hs : s ≠ SIGKILL) :
    (sendSignal₀ x h alloc w sig info t group fromAncestorNs).1.Pends t s ↔
      (s = sig ∧ GoesIn h alloc w sig info t fromAncestorNs) ∨
        w.Pends t s ∧ sigismember (takenOff h w sig t) s = false := by
  have hcases := sendSignal₀_cases x h w sig t fromAncestorNs alloc info group
  have halone' := ((Spares.prepareSignal x h w sig t fromAncestorNs).task t).threadGroup.trans halone
  rw [← prepareSignal_pends x h sig fromAncestorNs halone, GoesIn]
  generalize sendSignal₀ x h alloc w sig info t group fromAncestorNs = r at hcases ⊢
  generalize (prepareSignal x h w sig t fromAncestorNs).1 = w' at hcases halone' ⊢
  cases hcases with
  | ignored hi =>
    rw [hi]
    exact (or_iff_right fun hin => Bool.noConfusion hin.2.1).symm
  | failed hi hm =>
    rw [hm]
    exact (or_iff_right fun hin => Bool.noConfusion hin.2.2).symm
  | pending hi hl =>
    -- the signal is pending already
    refine (or_iff_right_of_imp fun hin => ?_).symm
    rw [legacyQueue, Bool.and_eq_true, pendingSet] at hl
    rw [hin.1]
    split at hl
    · exact Or.inr hl.2
    · exact Or.inl hl.2
  | @out hi hm v hv =>
    have htask : v.task = w'.task := by
      rcases hv with rfl | ⟨q, rfl⟩
      · rfl
      · exact addEntry_task w' t group q
    rw [outSet_pends x h sig group (by rw [htask, halone']) hs, and_iff_left ⟨hi, hm⟩,
      World.Pends, htask, ← World.Pends]

/-- **A send keeps the two apart**, for as long as the process is not on its way out. -/
theorem Exclusive.sendSignal₀ (hh : h.StopCont) (he : Exclusive h t w)
    (halone : (w.task t).threadGroup = [])
    (hexit : (w.signalOf t).flags &&& SIGNAL_GROUP_EXIT = 0) (alloc : Bool) (sig : Signal)
    (info : Info) (group fromAncestorNs : Bool) :
    Exclusive h t (sendSignal₀ x h alloc w sig info t group fromAncestorNs).1 := by
  intro s hs hp hc
  rw [sendSignal₀_pends x h alloc sig info group fromAncestorNs halone
    (hh.ne_kill (Or.inr hs))] at hp
  rw [sendSignal₀_pends x h alloc sig info group fromAncestorNs halone
    (hh.ne_kill (Or.inl rfl))] at hc
  rw [takenOff, if_neg (not_not_intro hexit)] at hp hc
  rcases hp with ⟨rfl, -⟩ | ⟨hp, hoff⟩
  · -- a stop signal has taken `SIGCONT` off
    rcases hc with ⟨heq, -⟩ | ⟨-, hoff⟩
    · exact hh.ne_cont hs heq.symm
    · rw [if_pos hs, (sigismember_sigmask _ _).mpr rfl] at hoff
      cases hoff
  · rcases hc with ⟨rfl, -⟩ | ⟨hc, -⟩
    · -- `SIGCONT` has taken the stop signals off
      rw [if_neg (by rw [hh.cont]; decide), if_pos rfl] at hoff
      rw [sigKernelStop, siginmask, hoff, Bool.and_false] at hs
      cases hs
    · exact he s hs hp hc

end

/-! ### The runs -/

namespace StopCont

/-- The calls with the task as their target. -/
inductive Act
  | send (alloc hidden : Bool) (sig : Signal) (info : Info) (group : Bool)
  | smunch (file : File) (exchanged : List Nat) (bitPattern : BitVec 64)
  deriving DecidableEq, Repr

def step (x : Extern a) (h : Headers a) (pid : Int) (t : Nat) : Step (World a) Act Empty
  | w, .send alloc hidden sig info group =>
    some ((sendSignal x h alloc hidden w sig info t group).1, [])
  | w, .smunch file exchanged bitPattern =>
    some (w.setKernel (file.smunch x exchanged w.kernel pid bitPattern).1, [])

/-- The signals that the call makes pending with the opposite kind left where it is: those
of a pattern without `SIGKILL`, and one sent to a process on its way out. -/
def Act.unprepared (h : Headers a) (t : Nat) (w : World a) : Act → Signal → Prop
  | .send _ hidden sig info _, s =>
    s = sig ∧ (w.signalOf t).flags &&& SIGNAL_GROUP_EXIT ≠ 0 ∧
      sigIgnored h w t sig (siFromuser info && hidden) = false
  | .smunch _ _ bitPattern, s =>
    inPattern bitPattern SIGKILL = false ∧ inPattern bitPattern s = true

/-- None of these signals meets its opposite, pending or of the same pattern. -/
structure Act.Careful (h : Headers a) (t : Nat) (w : World a) (b : Act) : Prop where
  cont : b.unprepared h t w h.SIGCONT → ∀ s, sigKernelStop h s = true →
    ¬ w.Pends t s ∧ ¬ b.unprepared h t w s
  stop : ∀ s, sigKernelStop h s = true → b.unprepared h t w s → ¬ w.Pends t h.SIGCONT

structure Target (pid : Int) (t : Nat) (w : World a) : Prop where
  single : Single w.kernel pid t
  live : (w.task t).exited = false

section

variable {x : Extern a} {h : Headers a} {pid : Int} {t : Nat} {w w' : World a} {b : Act}
  {es : List Empty}

theorem exclusive_iff_careful (he : Exclusive h t w)
    (hput : ∀ s, s = h.SIGCONT ∨ sigKernelStop h s = true →
      (w'.Pends t s ↔ b.unprepared h t w s ∨ w.Pends t s)) :
    Exclusive h t w' ↔ b.Careful h t w := by
  have hcont := hput h.SIGCONT (Or.inl rfl)
  constructor
  · intro he'
    refine ⟨fun hc s hs => ⟨fun hp => ?_, fun hu => ?_⟩, fun s hs hu hc => ?_⟩
    · exact he' s hs ((hput s (Or.inr hs)).mpr (Or.inr hp)) (hcont.mpr (Or.inl hc))
    · exact he' s hs ((hput s (Or.inr hs)).mpr (Or.inl hu)) (hcont.mpr (Or.inl hc))
    · exact he' s hs ((hput s (Or.inr hs)).mpr (Or.inl hu)) (hcont.mpr (Or.inr hc))
  · intro hb s hs hp hc
    rcases hcont.mp hc with hc | hc
    · obtain ⟨hno, hno'⟩ := hb.cont hc s hs
      exact ((hput s (Or.inr hs)).mp hp).elim hno' hno
    · rcases (hput s (Or.inr hs)).mp hp with hu | hp
      · exact hb.stop s hs hu hc
      · exact he s hs hp hc

theorem careful_send (hexit : (w.signalOf t).flags &&& SIGNAL_GROUP_EXIT = 0) {alloc hidden : Bool}
    {sig : Signal} {info : Info} {group : Bool} :
    (Act.send alloc hidden sig info group).Careful h t w :=
  ⟨fun hu => absurd hexit hu.2.1, fun _ _ hu => absurd hexit hu.2.1⟩

theorem smunch_target (x : Extern a) (ht : Target pid t w) (file : File) (exchanged : List Nat)
    (bitPattern : BitVec 64) {k : Kernel a}
    (hk : (file.smunch x exchanged w.kernel pid bitPattern).1 = k) :
    k.pids = w.kernel.pids ∧
      ((k.task t).sighand = (w.task t).sighand ∧ (k.task t).threadGroup = (w.task t).threadGroup ∧
        (k.task t).exitState = (w.task t).exitState) ∧
      (k.task t).sharedPending = (w.task t).sharedPending ∧
      (k.task t).pending =
        if inPattern bitPattern SIGKILL = true then sigaddset (w.task t).pending SIGKILL
        else postPattern (w.task t).pending bitPattern := by
  have hi : file.ignored (w.task t) bitPattern = false := file.ignored_of_live ht.live
  rw [File.smunch_eq] at hk
  rw [← killBit_eq]
  by_cases hkill : killBit bitPattern = true
  · obtain ⟨k', hpids, htask, -, heq⟩ := smunchOf_handled file.ignored x exchanged bitPattern
      ht.single (branch_killed x ht.single.alone ht.live hkill hi)
    rw [heq] at hk
    subst hk
    rw [if_pos hkill, htask, Function.update_self, x.wakeUpProcess_eq]
    exact ⟨hpids, ⟨rfl, rfl, rfl⟩, rfl, rfl⟩
  · obtain ⟨k', hpids, htask, -, heq⟩ := smunchOf_handled file.ignored x exchanged bitPattern
      ht.single (branch_posted x ht.single.alone (Bool.eq_false_iff.mpr hkill) hi)
    rw [heq] at hk
    subst hk
    rw [if_neg hkill, htask, Function.update_self, signalWakeUp_eq]
    exact ⟨hpids, ⟨rfl, rfl, rfl⟩, rfl, rfl⟩

theorem smunch_pends (ht : Target pid t w) (file : File) (exchanged : List Nat)
    (bitPattern : BitVec 64) {s : Signal} (hs : s ≠ SIGKILL) :
    (w.setKernel (file.smunch x exchanged w.kernel pid bitPattern).1).Pends t s ↔
      (inPattern bitPattern SIGKILL = false ∧ inPattern bitPattern s = true) ∨ w.Pends t s := by
  obtain ⟨-, -, hshared, hpending⟩ := smunch_target x ht file exchanged bitPattern rfl
  rw [World.Pends, World.setKernel_task, hshared, hpending, World.Pends]
  split
  · next hk =>
    rw [sigismember_sigaddset, or_iff_right hs, hk]
    exact (or_iff_right fun hin => by cases hin.1).symm
  · next hk =>
    rw [sigismember_postPattern, and_iff_right (Bool.eq_false_iff.mpr hk), inPattern]
    tauto

theorem Target.of_step (ht : Target pid t w) (hf : step x h pid t w b = some (w', es)) :
    Target pid t w' := by
  cases b with
  | send alloc hidden sig info group =>
    obtain ⟨rfl, -⟩ := Prod.mk.inj (Option.some.inj hf)
    have hspares := (Spares.sendSignal₀ x h alloc w sig info t group
      (siFromuser info && hidden)).uncounted.toAllSleepOn
    refine ⟨ht.single.of_allSleepOn hspares, ?_⟩
    rw [Task.exited, sendSignal, (hspares.task t).exitState]
    exact ht.live
  | smunch file exchanged bitPattern =>
    obtain ⟨rfl, -⟩ := Prod.mk.inj (Option.some.inj hf)
    obtain ⟨hpids, ⟨hsighand, hgroup, hexit⟩, -⟩ := smunch_target x ht file exchanged bitPattern rfl
    refine ⟨⟨?_, ?_, ?_⟩, ?_⟩
    · exact (congrFun hpids pid).trans ht.single.found
    · exact fun hn => ht.single.locked (hsighand.symm.trans hn)
    · exact hgroup.trans ht.single.alone
    · rw [World.setKernel_task, Task.exited, hexit]
      exact ht.live

/-- **One step keeps the two apart exactly if it is careful.** -/
theorem step_exclusive_iff (hh : h.StopCont) (ht : Target pid t w) (he : Exclusive h t w)
    (hf : step x h pid t w b = some (w', es)) : Exclusive h t w' ↔ b.Careful h t w := by
  cases b with
  | smunch file exchanged bitPattern =>
    obtain ⟨rfl, -⟩ := Prod.mk.inj (Option.some.inj hf)
    exact exclusive_iff_careful he fun s hs =>
      smunch_pends ht file exchanged bitPattern (hh.ne_kill hs)
  | send alloc hidden sig info group =>
    obtain ⟨rfl, -⟩ := Prod.mk.inj (Option.some.inj hf)
    by_cases hexit : (w.signalOf t).flags &&& SIGNAL_GROUP_EXIT = 0
    · exact iff_of_true (he.sendSignal₀ x h hh ht.single.alone hexit alloc sig info group _)
        (careful_send hexit)
    · -- on the way out nothing is taken off
      refine exclusive_iff_careful he fun s hs => ?_
      have hlt : s.num < h.SIGRTMIN := by
        rcases hs with rfl | hs
        · exact h.cont_lt
        · rw [sigKernelStop, siginmask, Bool.and_eq_true, decide_eq_true_eq] at hs
          exact hs.1
      have hnone : sigismember (takenOff h w sig t) s = false := by
        rw [takenOff, if_pos hexit, sigismember_empty]
      rw [sendSignal, sendSignal₀_pends x h alloc sig info group _ ht.single.alone
        (hh.ne_kill hs), and_iff_left hnone]
      refine or_congr_left (and_congr_right fun heq => ?_)
      have hfits : mustQueue h sig alloc info = false := Bool.eq_false_iff.mpr fun hm => by
        have hle := le_of_mustQueue h sig hm
        rw [← heq] at hle
        omega
      rw [GoesIn, and_iff_left hfits, and_iff_right hexit]

/-- **Exactly the careful runs keep `SIGCONT` and the stop signals apart.** -/
theorem exclusive_iff (hh : h.StopCont) (ht : Target pid t w) (he : Exclusive h t w)
    {as : List Act} (hr : Run (step x h pid t) w as es w') :
    AllStates (step x h pid t) w (fun _ v => Exclusive h t v) as ↔
      AllSteps (step x h pid t) w (fun _ v b => b.Careful h t v) as := by
  rw [allStates_iff, and_iff_right he]
  have hstep : ∀ {v : World a} {b : Act} {v' : World a} {es₂ : List Empty},
      Target pid t v ∧ Exclusive h t v → b.Careful h t v →
        step x h pid t v b = some (v', es₂) → Target pid t v' ∧ Exclusive h t v' :=
    fun hI hb hf => ⟨hI.1.of_step hf, (step_exclusive_iff hh hI.1 hI.2 hf).mpr hb⟩
  refine allSteps_iff (I := fun _ v => Target pid t v ∧ Exclusive h t v) hr ⟨ht, he⟩
    hstep ?_
  intro es₁ v b v' es₂ hI hf
  rw [← step_exclusive_iff hh hI.1 hI.2 hf]
  constructor
  · intro hall
    exact hall v' es₂ hf
  · intro he' v₁ es₃ hf₁
    obtain ⟨rfl, -⟩ := Prod.mk.inj (Option.some.inj (hf.symm.trans hf₁))
    exact he'

end

/-- The sleeper, under the pid 7. -/
def asleep : World .oneWord := .ofKernel (oneTask (sleeper .oneWord))

theorem target_asleep : Target 7 0 asleep := ⟨⟨rfl, nofun, rfl⟩, rfl⟩

theorem exclusive_asleep : Exclusive (Headers.x86 .oneWord) 0 asleep := by
  intro s _ hp
  exact absurd ((sigismember_empty s).symm.trans (hp.elim id id)) (by decide)

/-- The signal is sent to the process, and `smunch` posts the pattern. -/
def sendThenSmunch (sig : Signal) (bitPattern : BitVec 64) : List Act :=
  [.send true false sig .priv true, .smunch .rw [] bitPattern]

/-- `SIGSTOP` and then `SIGINT` -/
theorem exclusive_iff_asleep : ∃ es w',
    Run (step (Extern.simplest .oneWord) (Headers.x86 .oneWord) 7 0) asleep
      (sendThenSmunch ⟨19, by decide, by decide⟩ 2) es w' ∧
    AllStates (step (Extern.simplest .oneWord) (Headers.x86 .oneWord) 7 0) asleep
      (fun _ v => Exclusive (Headers.x86 .oneWord) 0 v)
      (sendThenSmunch ⟨19, by decide, by decide⟩ 2) := by
  obtain ⟨es, w', hr⟩ := exists_run_of_isSome
    (step (Extern.simplest .oneWord) (Headers.x86 .oneWord) 7 0) asleep
    (sendThenSmunch ⟨19, by decide, by decide⟩ 2) rfl
  refine ⟨es, w', hr, ?_⟩
  rw [exclusive_iff (Headers.stopCont_x86 .oneWord) target_asleep exclusive_asleep hr]
  refine allSteps_snoc.mpr ⟨allSteps_snoc.mpr ⟨allSteps_nil _ _ _, ?_⟩, ?_⟩
  · intro _ v hv
    obtain ⟨-, rfl⟩ := Run.nil.det hv
    exact careful_send rfl
  · -- the pattern has neither kind
    intro _ v _
    have hstop : ∀ s : Signal, sigKernelStop (Headers.x86 .oneWord) s = true →
        inPattern 2 s = false := by
      intro s hs
      rw [inPattern]
      rcases (sigKernelStop_x86 s).mp hs with hn | hn | hn | hn
      · rw [hn]; rfl
      · rw [hn]; rfl
      · rw [hn]; rfl
      · rw [hn]; rfl
    refine ⟨fun hu => absurd hu.2 (by decide), fun s hs hu => ?_⟩
    rw [Act.unprepared, hstop s hs] at hu
    cases hu.2

/-- `SIGSTOP` and then `SIGCONT` -/
theorem not_exclusive :
    Target 7 0 asleep ∧ Exclusive (Headers.x86 .oneWord) 0 asleep ∧
    ∃ es w', Run (step (Extern.simplest .oneWord) (Headers.x86 .oneWord) 7 0) asleep
        (sendThenSmunch ⟨19, by decide, by decide⟩ (1#64 <<< 17)) es w' ∧
      (w'.signalOf 0).flags &&& SIGNAL_GROUP_EXIT = 0 ∧
      ¬ Exclusive (Headers.x86 .oneWord) 0 w' := by
  refine ⟨target_asleep, exclusive_asleep, ?_⟩
  obtain ⟨es, w', hr, hexit, hstop, hcont⟩ := exists_run
    (step (Extern.simplest .oneWord) (Headers.x86 .oneWord) 7 0) asleep
    (sendThenSmunch ⟨19, by decide, by decide⟩ (1#64 <<< 17))
    (fun _ w' => (w'.signalOf 0).flags &&& SIGNAL_GROUP_EXIT = 0 ∧
      w'.Pends 0 ⟨19, by decide, by decide⟩ ∧ w'.Pends 0 (Headers.x86 .oneWord).SIGCONT)
    (by decide)
  exact ⟨es, w', hr, hexit, fun he => he _ rfl hstop hcont⟩

end StopCont

end LinuxKerDev.Signals
