import LinuxKerDev.Signals.StopOk

/-!
# A process that exits

`signal_group_exit` is for good, whatever is sent afterwards, and the exit code that the process
then has is the one it exits with (`Lasts`).  The flags and the code are in fields that
`do_signal_stop` and `prepare_signal` write as well; it takes the invariant to see that a thread
that takes part in a group stop is of a process that does not exit.
-/

namespace LinuxKerDev.Signals.Machine

open Lib

variable {a : Arch} {t u : Nat}

def Lasts (w w' : World a) : Prop :=
  ∀ p, signalGroupExit (w.signalOf p) = true →
    signalGroupExit (w'.signalOf p) = true ∧
      (w'.signalOf p).groupExitCode = (w.signalOf p).groupExitCode

theorem retarget_signalOf (x : Extern a) (w : World a) (t : Nat) (which : Sigset a) (u : Nat) :
    (retargetSharedPending x w t which).signalOf u = w.signalOf u := by
  have hr := Signals.Machine.retargeted x w t which
  rw [World.signalOf, World.signalOf, hr.signal, hr.thread]

theorem groupExitCode_of_queue {m m' : SignalStruct} (hq : SameButQueue m m') :
    m'.groupExitCode = m.groupExitCode := by
  rw [SameButQueue] at hq
  rw [hq]

namespace Lasts

variable {w w' : World a}

theorem refl (w : World a) : Lasts w w := fun _ hge => ⟨hge, rfl⟩

theorem trans {w'' : World a} (hl : Lasts w w') (hl' : Lasts w' w'') : Lasts w w'' := fun p hge =>
  ⟨(hl' p (hl p hge).1).1, (hl' p (hl p hge).1).2.trans (hl p hge).2⟩

theorem of_queue (hq : ∀ u, SameButQueue (w.signalOf u) (w'.signalOf u)) : Lasts w w' := fun p hge =>
  ⟨(signalGroupExit_of_queue (hq p)).trans hge, groupExitCode_of_queue (hq p)⟩

theorem of_signalOf (hs : ∀ u, w'.signalOf u = w.signalOf u) : Lasts w w' :=
  of_queue fun u => .of_eq (hs u)

/-- Only the process of `t` is different, and it does not exit. -/
theorem of_live (hlive : signalGroupExit (w.signalOf t) = false)
    (hother : ∀ u, (w.thread u).signal ≠ (w.thread t).signal →
      SameButQueue (w.signalOf u) (w'.signalOf u)) : Lasts w w' := by
  intro p hge
  have hne : (w.thread p).signal ≠ (w.thread t).signal := fun he => by
    have heq : w.signalOf p = w.signalOf t := congrArg w.signal he
    rw [heq, hlive] at hge
    cases hge
  exact ⟨(signalGroupExit_of_queue (hother p hne)).trans hge, groupExitCode_of_queue (hother p hne)⟩

theorem onTask (w : World a) (t : Nat) (f : Task a → Task a) : Lasts w (w.onTask t f) :=
  of_signalOf fun _ => rfl

theorem onThread (w : World a) (t : Nat) {f : Thread a → Thread a}
    (hf : (f (w.thread t)).signal = (w.thread t).signal) : Lasts w (w.onThread t f) :=
  of_signalOf fun u => w.onThread_signalOf t u f hf

theorem onSignal (w : World a) (t : Nat) {f : SignalStruct → SignalStruct}
    (hge : signalGroupExit (f (w.signalOf t)) = signalGroupExit (w.signalOf t))
    (hcode : (f (w.signalOf t)).groupExitCode = (w.signalOf t).groupExitCode) :
    Lasts w (w.onSignal t f) := by
  intro p hp
  by_cases hsame : (w.thread p).signal = (w.thread t).signal
  · have heq : w.signalOf p = w.signalOf t := congrArg w.signal hsame
    rw [World.signalOf_onSignal_of_eq _ _ hsame, hge, hcode, heq]
    exact ⟨heq ▸ hp, rfl⟩
  · rw [World.signalOf_onSignal_of_ne _ _ hsame]
    exact ⟨hp, rfl⟩

theorem setKernel (w : World a) (k : Kernel a) : Lasts w (w.setKernel k) := of_signalOf fun _ => rfl

theorem clearJobctl (w : World a) (t : Nat) (mask : BitVec 32) :
    Lasts w (taskClearJobctlPending w t mask) := of_signalOf fun _ => rfl

theorem setJobctl (w : World a) (t : Nat) (mask : BitVec 32) :
    Lasts w (taskSetJobctlPending w t mask).1 := by
  unfold taskSetJobctlPending
  split
  · exact .refl w
  · exact .of_signalOf fun _ => rfl

theorem clearCld (w : World a) (t : Nat) :
    Lasts w (w.onSignal t fun m => { m with flags := m.flags &&& ~~~SIGNAL_CLD_MASK }) := by
  refine .onSignal w t ?_ rfl
  rw [signalGroupExit, signalGroupExit]
  dsimp only
  rw [and_of_clear_other (by decide)]

theorem retarget (x : Extern a) (w : World a) (t : Nat) (which : Sigset a) :
    Lasts w (retargetSharedPending x w t which) := of_signalOf (retarget_signalOf x w t which)

theorem setTaskBlocked (x : Extern a) (freezing : Bool) (w : World a) (t : Nat) (set : Sigset a) :
    Lasts w (setTaskBlocked x freezing w t set) := by
  unfold Signals.setTaskBlocked
  dsimp only
  split
  · exact (Lasts.retarget x w t _).trans (.onTask _ t _)
  · exact .onTask w t _

theorem looked {mask : Sigset a} {d : Option Signal} (hl : Looked w t mask d w') : Lasts w w' :=
  of_queue hl.signal

/-- **Only a thread of a process that does not exit takes part in a group stop.** -/
theorem participate (hlive : (w.task t).consumes = true → signalGroupExit (w.signalOf t) = false) :
    Lasts w (taskParticipateGroupStop w t).1 := by
  rw [taskParticipateGroupStop_world]
  dsimp only
  by_cases hc : (w.task t).consumes = false
  · rw [if_pos hc]
    exact .clearJobctl w t _
  · rw [if_neg hc]
    refine of_live (hlive (Bool.eq_true_of_not_eq_false hc)) fun u hu => .of_eq ?_
    have hone : ∀ (v : World a) k, v.thread = w.thread →
        (v.onSignal t k).signalOf u = v.signalOf u := fun v k hv =>
      v.signalOf_onSignal_of_ne k (by rw [hv]; exact hu)
    split
    · refine Eq.trans (hone _ _ ?_) (hone (taskClearJobctlPending w t JOBCTL_STOP_PENDING) _ rfl)
      rfl
    · exact hone _ _ rfl

end Lasts

/-! ### The sends -/

section

variable (x : Extern a) (h : Headers a) {j : JobHeaders a} {w : World a} {pc : Nat → Pc a} {p : Nat}

theorem lasts_prepareSignal (hj : JobHeaders.Sound h j) (hg : Grouped w) (sig : Signal) (p : Nat)
    (fromAncestorNs : Bool) : Lasts w (prepareSignal x h w sig p fromAncestorNs).1 := by
  cases prepareSignal_cases x h (p := p) hj hg sig fromAncestorNs with
  | calm hsame => exact .of_queue fun u => (hsame u).signalOf
  | continued hlive hout hother =>
    exact .of_live hlive fun u hu => (hother u fun hm => hu ((hg.mem p u).mp hm)).signalOf

theorem lasts_outSet (hj : JobHeaders.Sound h j) (hg : Grouped w) (sig : Signal) (p : Nat)
    (group : Bool) : Lasts w (outSet x h w sig p group) := by
  have hg' := Grouped.addPending hg (p := p) sig group
  have hadd : Lasts w (addPending w p group sig) := .of_signalOf fun _ => addPending_signalOf sig group
  refine hadd.trans ?_
  unfold outSet
  cases completeSignal_cases x h (p := p) hj hg' sig group with
  | unwanted hw =>
    rw [hw]
    exact .refl _
  | killed hflags hthread hall hother =>
    rw [BitVec.and_or_distrib_left] at hflags
    have hlive : signalGroupExit ((addPending w p group sig).signalOf p) = false :=
      decide_eq_false (not_not.mpr (BitVec.or_eq_zero_iff.mp hflags).2)
    exact .of_live hlive fun u hu => .of_eq (hother u fun hm => hu ((hg'.mem p u).mp hm)).2
  | woken t ht htp hwants htakes hthread htask hother hsignal =>
    intro q hge
    have hs := (hsignal q).1
    rw [hs]
    exact ⟨hge, rfl⟩

theorem lasts_addEntry (w : World a) (p : Nat) (group : Bool) (q : Entry) :
    Lasts w (addEntry w p group q) := by
  unfold addEntry
  split
  · exact .of_queue fun u => w.onQueue_signalOf p u fun l => l ++ [q]
  · exact .onThread w p rfl

theorem lasts_sendSignal₀ (hj : JobHeaders.Sound h j) (hok : Ok w pc) (alloc : Bool) (sig : Signal)
    (info : Info) (p : Nat) (group fromAncestorNs : Bool) :
    Lasts w (sendSignal₀ x h alloc w sig info p group fromAncestorNs).1 := by
  have hcases := sendSignal₀_cases x h w sig p fromAncestorNs alloc info group
  have hprepared := hok.prepareSignal x h hj sig p fromAncestorNs
  have hl := lasts_prepareSignal x h hj hok.grouped sig p fromAncestorNs
  generalize Signals.sendSignal₀ x h alloc w sig info p group fromAncestorNs = r at hcases ⊢
  generalize (Signals.prepareSignal x h w sig p fromAncestorNs).1 = v at hcases hprepared hl
  cases hcases with
  | ignored => exact hl
  | pending => exact hl
  | failed => exact hl
  | out hi hm hv =>
    rcases hv with rfl | ⟨q, rfl⟩
    · exact hl.trans (lasts_outSet x h hj hprepared.grouped sig p group)
    · exact (hl.trans (lasts_addEntry v p group q)).trans
        (lasts_outSet x h hj (hprepared.addEntry p group q).grouped sig p group)

theorem lasts_lockedSendSigqueue (hj : JobHeaders.Sound h j) (hok : Ok w pc) (q p : Nat)
    (group : Bool) : Lasts w (lockedSendSigqueue x h w q p group).1 := by
  have hprepared := hok.prepareSignal x h hj (w.sigqueue q).signo p false
  have hl := lasts_prepareSignal x h hj hok.grouped (w.sigqueue q).signo p false
  have hqueue : ∀ (v : World a) (f : Sigqueue → Sigqueue), Lasts v (v.onSigqueue q f) := fun _ _ =>
    .of_signalOf fun _ => rfl
  have hok' : ∀ (v : World a) (f : Sigqueue → Sigqueue), Ok v pc → Ok (v.onSigqueue q f) pc :=
    fun v f hv => hv.of_same (fun _ => ⟨rfl, .refl _, .of_eq rfl, rfl, rfl⟩) hv.dfl
  unfold lockedSendSigqueue
  dsimp only
  split_ifs
  · exact hl
  · dsimp only
    exact hl.trans (hqueue _ _)
  · exact ((hl.trans (hqueue _ _)).trans (lasts_addEntry _ p group _)).trans
      (lasts_outSet x h hj ((hok' _ _ hprepared).addEntry p group _).grouped _ p group)

theorem lasts_forceDefault (w : World a) (d : Nat) (sig : Signal) (t : Nat) :
    Lasts w (forceDefault x w d sig t) := by
  have hset : ∀ v : World a, Lasts v (v.setHandler d sig .dfl) := fun _ => .of_signalOf fun _ => rfl
  have hhandler : Lasts w (forceHandler x w d sig t) := by
    unfold forceHandler
    dsimp only
    split_ifs
    · exact (hset w).trans (.onTask _ t _)
    · exact hset w
    · exact .refl w
  unfold forceDefault
  dsimp only
  split
  · refine hhandler.trans (.onSignal _ t ?_ rfl)
    rw [signalGroupExit, signalGroupExit]
    dsimp only
    rw [and_of_clear_other (by decide)]
  · exact hhandler

theorem lasts_forceSigInfo (hj : JobHeaders.Sound h j) (hok : Ok w pc) {alloc hidden : Bool}
    {sig : Signal} {info : Info} {t : Nat} {r : World a × Int}
    (hr : forceSigInfo x h alloc hidden w sig info t = some r) : Lasts w r.1 := by
  unfold forceSigInfo at hr
  split at hr
  · cases hr
  · next d hd =>
    obtain rfl := Option.some.inj hr
    have hlock := Lasts.setKernel w ((w.kernel.acquire .irq).acquire (.siglock d))
    have hlocked : Ok (w.setKernel ((w.kernel.acquire .irq).acquire (.siglock d))) pc :=
      hok.setKernel rfl
    exact ((hlock.trans (lasts_forceDefault x _ d sig t)).trans
      (lasts_sendSignal₀ x h hj (Ok.forceDefault x hlocked d sig t) alloc sig info t false _)).trans
        (.setKernel _ _)

theorem lasts_doNotifyParentCldstop (hj : JobHeaders.Sound h j) (hok : Ok w pc) {alloc hidden : Bool}
    {tsk : Nat} {forPtracer : Bool} {why : Cld} {r : World a × Option Int}
    (hr : doNotifyParentCldstop x h alloc hidden w tsk forPtracer why = some r) : Lasts w r.1 := by
  unfold doNotifyParentCldstop at hr
  dsimp only at hr
  split at hr
  · cases hr
  · next d hd =>
    have hlock := Lasts.setKernel w ((w.kernel.acquire .irq).acquire (.siglock d))
    have hlocked : Ok (w.setKernel ((w.kernel.acquire .irq).acquire (.siglock d))) pc :=
      hok.setKernel rfl
    split_ifs at hr
    · obtain rfl := Option.some.inj hr
      exact (hlock.trans (lasts_sendSignal₀ x h hj hlocked alloc _ _ _ true _)).trans (.setKernel _ _)
    · obtain rfl := Option.some.inj hr
      exact hlock.trans (.setKernel _ _)

end

end LinuxKerDev.Signals.Machine
