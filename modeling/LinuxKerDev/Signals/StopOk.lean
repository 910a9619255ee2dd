import LinuxKerDev.Signals.DeliverOk

/-!
# Group stops and the invariant

`initiateGroupStop` puts every thread that is neither stopped nor on its way out into the count,
and `task_participate_group_stop` takes one out.  That the count starts from zero each time is
right because no thread is in it that is not put in again: only a thread that is leaving or has a
`SIGKILL` would be passed over.
-/

namespace LinuxKerDev.Signals.Machine

open Lib

variable {a : Arch} {w w' : World a} {pc pc' : Nat → Pc a} {t u : Nat}

/-! ### Taking part in a group stop -/

def leaveStop (m : SignalStruct) : SignalStruct :=
  { m with
    groupStopCount := m.groupStopCount - 1
    flags :=
      if m.groupStopCount - 1 = 0 ∧ m.flags &&& SIGNAL_STOP_STOPPED = 0 then SIGNAL_STOP_STOPPED
      else m.flags }

/-- What is left when a thread is out of the group stop, in whatever state it is then. -/
structure Left (w : World a) (t : Nat) (w' : World a) : Prop where
  action : w'.action = w.action
  task : w'.task t = { w.task t with jobctl := (w'.task t).jobctl, state := (w'.task t).state }
  other : ∀ u, u ≠ t → w'.task u = w.task u
  thread : ∀ u, SparesThread (w.thread u) (w'.thread u)
  exiting : ∀ u, u ≠ t → (w'.thread u).exiting = (w.thread u).exiting
  out : (w'.task t).stopPending = false ∧ (w'.task t).consumes = false
  traps : (w.task t).jobctl &&& JOBCTL_TRAP_MASK = 0 → (w'.task t).jobctl &&& JOBCTL_TRAP_MASK = 0
  signal : ∀ u, w'.signalOf u =
    if u ∈ w.threads t ∧ (w.task t).consumes = true then leaveStop (w.signalOf t) else w.signalOf u

theorem taskParticipateGroupStop_world (w : World a) (t : Nat) : (taskParticipateGroupStop w t).1 =
    let v := taskClearJobctlPending w t JOBCTL_STOP_PENDING
    let v' := v.onSignal t fun m => { m with groupStopCount := m.groupStopCount - 1 }
    if (w.task t).consumes = false then v
    else if (w.signalOf t).groupStopCount - 1 = 0 ∧
        (w.signalOf t).flags &&& SIGNAL_STOP_STOPPED = 0 then
      v'.onSignal t fun m => { m with flags := SIGNAL_STOP_STOPPED }
    else v' := by
  have hv : (taskClearJobctlPending w t JOBCTL_STOP_PENDING).signalOf t = w.signalOf t := rfl
  unfold taskParticipateGroupStop
  dsimp only
  rw [World.signalOf_onSignal, hv]
  dsimp only
  by_cases hc : (w.task t).consumes = false
  · rw [if_pos hc, if_pos hc]
  · rw [if_neg hc, if_neg hc]
    by_cases hl : (w.signalOf t).groupStopCount - 1 = 0 ∧
        (w.signalOf t).flags &&& SIGNAL_STOP_STOPPED = 0
    · rw [if_pos hl, if_pos hl]
    · rw [if_neg hl, if_neg hl]

/-- **What `task_participate_group_stop` leaves.** -/
theorem left_taskParticipateGroupStop (hg : Grouped w) (t : Nat) :
    Left w t (taskParticipateGroupStop w t).1 ∧
      ((taskParticipateGroupStop w t).1.task t).state = (w.task t).state ∧
      (taskParticipateGroupStop w t).1.thread = w.thread := by
  have hbits := stopBits_taskClearJobctlPending w t JOBCTL_STOP_PENDING (by decide) (by decide)
  have htraps := jobctl_taskClearJobctlPending_other w t JOBCTL_STOP_PENDING
    (b := JOBCTL_TRAP_MASK) (by decide) (by decide)
  have htask := task_taskClearJobctlPending w t JOBCTL_STOP_PENDING
  have hne : ∀ u, u ≠ t → (taskClearJobctlPending w t JOBCTL_STOP_PENDING).task u = w.task u :=
    fun u hu => w.onTask_task_of_ne _ hu
  have hsig : ∀ u, (taskClearJobctlPending w t JOBCTL_STOP_PENDING).signalOf u = w.signalOf u :=
    fun _ => rfl
  have hmem : ∀ u, u ∈ w.threads t ↔ (w.thread u).signal = (w.thread t).signal := hg.mem t
  -- all three outcomes write the same task
  have hleft : ∀ w' : World a, w'.task = (taskClearJobctlPending w t JOBCTL_STOP_PENDING).task →
      w'.thread = w.thread → w'.action = w.action →
      (∀ u, w'.signalOf u = if u ∈ w.threads t ∧ (w.task t).consumes = true then
        leaveStop (w.signalOf t) else w.signalOf u) →
      Left w t w' ∧ (w'.task t).state = (w.task t).state ∧ w'.thread = w.thread := by
    intro w' h1 h2 h3 h4
    refine ⟨⟨h3, ?_, fun u hu => ?_, fun u => ?_, fun u _ => ?_, ?_, ?_, h4⟩, ?_, h2⟩
    · rw [h1, htask]
    · rw [h1, hne u hu]
    · rw [h2]
      exact .refl _
    · rw [h2]
    · rw [h1]
      exact hbits
    · rw [h1, htraps]
      exact id
    · rw [h1, htask]
  have hwrite : ∀ v : World a, v.thread = w.thread → ∀ (k : SignalStruct → SignalStruct) u,
      (v.onSignal t k).signalOf u = if u ∈ w.threads t then k (v.signalOf t) else v.signalOf u := by
    intro v hv k u
    by_cases hu : u ∈ w.threads t
    · rw [if_pos hu]
      exact v.signalOf_onSignal_of_eq k (by rw [hv]; exact (hmem u).mp hu)
    · rw [if_neg hu]
      exact v.signalOf_onSignal_of_ne k fun he => hu ((hmem u).mpr (by rw [hv] at he; exact he))
  have hdec := hwrite (taskClearJobctlPending w t JOBCTL_STOP_PENDING) rfl fun m =>
    { m with groupStopCount := m.groupStopCount - 1 }
  rw [taskParticipateGroupStop_world]
  by_cases hc : (w.task t).consumes = false
  · rw [if_pos hc]
    refine hleft _ rfl rfl rfl fun u => (hsig u).trans (if_neg fun h' => ?_).symm
    rw [hc] at h'
    exact Bool.false_ne_true h'.2
  · have hyes : (w.task t).consumes = true := Bool.eq_true_of_not_eq_false hc
    rw [if_neg hc]
    split
    · next hlast =>
      refine hleft _ rfl rfl rfl fun u => ?_
      rw [hwrite ((taskClearJobctlPending w t JOBCTL_STOP_PENDING).onSignal t fun m =>
        { m with groupStopCount := m.groupStopCount - 1 }) rfl, hdec, hdec, if_pos (hg.self t), hyes,
        hsig, hsig]
      by_cases hu : u ∈ w.threads t
      · rw [if_pos hu, if_pos ⟨hu, rfl⟩, leaveStop, if_pos hlast]
      · rw [if_neg hu, if_neg hu, if_neg fun h' => hu h'.1]
    · next hlast =>
      refine hleft _ rfl rfl rfl fun u => ?_
      rw [hdec, hyes, hsig, hsig]
      by_cases hu : u ∈ w.threads t
      · rw [if_pos hu, if_pos ⟨hu, rfl⟩, leaveStop, if_neg hlast]
      · rw [if_neg hu, if_neg fun h' => hu h'.1]

theorem ThreadOk.left {ge : Bool} {s s' : Task a} {m m' : Thread a} {k k' : Pc a}
    (h : ThreadOk ge s m k)
    (hs : s' = { s with jobctl := s'.jobctl, state := s'.state }) (hm : SparesThread m m')
    (hout : s'.stopPending = false ∧ s'.consumes = false)
    (htraps : s.jobctl &&& JOBCTL_TRAP_MASK = 0 → s'.jobctl &&& JOBCTL_TRAP_MASK = 0)
    (hexit : m.exiting = true → m'.exiting = true) (hgone : m'.exiting = k'.isGone)
    (halert : m'.exiting = false → Alert s k → Alert s' k')
    (hstopped : taskIsStopped s' = true → s'.state = TASK_STOPPED)
    (hhalts : s'.state &&& (TASK_STOPPED_BIT ||| TASK_TRACED_BIT) ≠ 0 → k'.halts = true)
    (hplace : k'.traps = true → k.traps = true) (hsound : k'.Sound s') : ThreadOk ge s' m' k' := by
  have hno : ∀ {P : Prop}, s'.consumes = true → P := fun hc => by
    rw [hout.2] at hc
    cases hc
  have hlive : m'.exiting = false → m.exiting = false := fun hx =>
    Bool.eq_false_iff.mpr fun hx' => Bool.false_ne_true (hx.symm.trans (hexit hx'))
  have hpending : s'.pending = s.pending := by rw [hs]
  refine
    { consumes := fun hc => hno hc
      awake := fun hc => hno hc
      leaving := fun _ hc => hno hc
      dead := fun _ hc => hno hc
      gone := hgone
      zombie := fun hz => hexit (h.zombie (by rw [hs] at hz; exact hz))
      kill := fun hk => (h.kill (hpending ▸ hk)).imp_left hexit
      fatal := fun hk hx => by
        rw [hs]
        exact h.fatal (hpending ▸ hk) (hlive hx)
      unblocked := by
        rw [hs, hm.realBlocked]
        exact h.unblocked
      stopAlert := fun _ hp => by
        rw [hout.1] at hp
        cases hp
      alert := fun hx sig hsig hb => ?_
      stopped := hstopped
      halts := hhalts
      untraced := fun h0 => ?_
      sound := hsound }
  · rw [hpending] at hsig
    exact halert hx (h.alert (hlive hx) sig hsig (by rw [hs] at hb; exact hb))
  · rw [hm.ptrace] at h0
    obtain ⟨ht, hn⟩ := h.untraced h0
    refine ⟨htraps ht, Bool.eq_false_iff.mpr fun hyes => ?_⟩
    rw [hplace hyes] at hn
    cases hn

/-- **A thread that is out of the group stop keeps the invariant**, if it has stopped or is
leaving, or has a debugger, and turns away from nothing that nobody else sees. -/
theorem Ok.left_of_taker (h : Ok w pc) (hl : Left w t w')
    (hlive : (w.task t).consumes = true → signalGroupExit (w.signalOf t) = false)
    (hpc : ∀ u, u ≠ t → pc' u = pc u)
    (hown : ThreadOk (signalGroupExit (w.signalOf t)) (w'.task t) (w'.thread t) (pc' t))
    (hdoomed : (pc t).isDoomed = true → (pc' t).isDoomed = true)
    (hout : Untraced w t → signalGroupExit (w.signalOf t) = false →
      taskIsStopped (w'.task t) = true ∨ (w'.thread t).exiting = true)
    (htaker : signalGroupExit (w.signalOf t) = false → ∀ sig,
      sigismember (w.task t).sharedPending sig = true → (∃ u ∈ w.threads t, CanTake w' sig u) →
        ∃ u ∈ w.threads t, CanTake w' sig u ∧ Alert (w'.task u) (pc' u)) : Ok w' pc' := by
  have hg := h.grouped
  have hthreads : ∀ u, w'.threads u = w.threads u := fun u => by
    by_cases hu : u = t
    · rw [World.threads, World.threads, hu, hl.task]
    · rw [World.threads, World.threads, hl.other u hu]
  have hshared : ∀ u, (w'.task u).sharedPending = (w.task u).sharedPending := fun u => by
    by_cases hu : u = t
    · rw [hu, hl.task]
    · rw [hl.other u hu]
  have hs : Settled (some t) w w' :=
    { threads := hthreads
      ptrace := fun u => (hl.thread u).ptrace
      task := fun u hu => ⟨(w.task u).sharedPending, by
        rw [hl.other u fun he => hu (he ▸ rfl)]
        exact .refl _⟩
      thread := fun u hu => ⟨hl.thread u, hl.exiting u fun he => hu (he ▸ rfl)⟩
      traps := fun u hu _ ht => by
        rw [hl.other u fun he => hu (he ▸ rfl)]
        exact ht }
  have hge : ∀ u, signalGroupExit (w'.signalOf u) = signalGroupExit (w.signalOf u) := fun u => by
    rw [hl.signal u]
    split
    · next hu =>
      rw [hg.signalOf hu.1, hlive hu.2, signalGroupExit, leaveStop]
      dsimp only
      split
      · rfl
      · exact hlive hu.2
    · rfl
  have htarget : ∀ u, (w'.signalOf u).currTarget = (w.signalOf u).currTarget := fun u => by
    rw [hl.signal u]
    split
    · next hu => rw [hg.signalOf hu.1]; rfl
    · rfl
  have hgrouped : Grouped w' := by
    refine hg.of_same (fun u => ?_) (fun u => (hl.thread u).signal) (fun q u hu => ?_) fun q => ?_
    · by_cases hu : u = t
      · rw [hu, hl.task]
        exact ⟨rfl, rfl⟩
      · rw [hl.other u hu]
        exact ⟨rfl, rfl⟩
    · rw [hshared, hshared]
      exact hg.shared q u hu
    · rw [htarget]
      exact hg.currTarget q
  refine h.of_step hs hgrouped (fun d => by rw [hl.action]; exact h.dfl d) hge hpc hown
    (fun u hu => ?_) (hs.groupOk hg (h.group t) (fun u _ hu => ?_) ?_ (fun u _ he => ?_)
    fun hlive' sig hsig hex => ?_)
  · have hne : u ≠ t := fun he => hu (he ▸ hg.self t)
    have hsignal := (hl.signal u).trans (if_neg fun h' => hu h'.1)
    refine ⟨by rw [hl.other u hne], by rw [hl.other u hne], fun sig hsig => hshared u ▸ hsig,
      .of_eq (by rw [hsignal]), by rw [hsignal]⟩
  · have hne : u ≠ t := fun he => hu (he ▸ rfl)
    rw [hl.other u hne, hpc u hne]
    exact ⟨rfl, rfl, rfl⟩
  · cases hc : (w.task t).consumes with
    | true =>
      have hsignal := (hl.signal t).trans (if_pos ⟨hg.self t, hc⟩)
      refine .left t rfl (hg.self t) (hlive hc) hc hl.out.2 ?_ ?_
      · rw [hsignal]
        rfl
      · rw [hsignal]
        rfl
    | false =>
      have hsignal := (hl.signal t).trans (if_neg fun h' => by
        rw [hc] at h'
        exact Bool.false_ne_true h'.2)
      refine .same (fun u _ he => ?_) (.of_eq (by rw [hsignal])) (by rw [hsignal])
      rw [← Option.some.inj he, hl.out.2, hc]
  · obtain rfl := Option.some.inj he
    refine ⟨fun _ hd => ?_, fun hn hlive' _ => Or.inr (hout hn hlive'), fun hn hlive' _ =>
      hout hn hlive'⟩
    rw [show (w'.task t).pending = (w.task t).pending by rw [hl.task]]
    exact hd.imp_right hdoomed
  · rw [hthreads] at hex ⊢
    exact htaker hlive' sig (hshared t ▸ hsig) hex

/-- **A thread that is out of the group stop and goes on keeps the invariant.** -/
theorem Ok.left (h : Ok w pc) (hl : Left w t w')
    (hlive : (w.task t).consumes = true → signalGroupExit (w.signalOf t) = false)
    (hpc : ∀ u, u ≠ t → pc' u = pc u)
    (hown : ThreadOk (signalGroupExit (w.signalOf t)) (w'.task t) (w'.thread t) (pc' t))
    (hexit : (w'.thread t).exiting = (w.thread t).exiting)
    (hdoomed : (pc t).isDoomed = true → (pc' t).isDoomed = true)
    (hout : Untraced w t → signalGroupExit (w.signalOf t) = false →
      taskIsStopped (w'.task t) = true ∨ (w'.thread t).exiting = true)
    (halert : (w.thread t).exiting = false → Alert (w.task t) (pc t) →
      Alert (w'.task t) (pc' t)) : Ok w' pc' := by
  refine h.left_of_taker hl hlive hpc hown hdoomed hout
    fun hlive' sig hsig hex => ?_
  have hcan : ∀ {u}, CanTake w' sig u ↔ CanTake w sig u := fun {u} => by
    by_cases hu : u = t
    · rw [CanTake, CanTake, hu, hexit, hl.task]
    · rw [CanTake, CanTake, hl.exiting u hu, hl.other u hu]
  obtain ⟨u, hu, hu'⟩ := hex
  obtain ⟨q, hq, hq', ha⟩ := (h.group t).taker hlive' sig hsig ⟨u, hu, hcan.mp hu'⟩
  refine ⟨q, hq, hcan.mpr hq', ?_⟩
  by_cases hqt : q = t
  · subst hqt
    exact halert hq'.1 ha
  · rw [hl.other q hqt, hpc q hqt]
    exact ha

/-! ### Starting a group stop -/

theorem and_eq_zero_of_subset {s m b : BitVec 32} (hs : s &&& ~~~m = 0) (hb : b &&& m = 0) :
    s &&& b = 0 := by
  rw [← and_of_clear_other (j := s) hb, hs]
  exact BitVec.zero_and

/-- The thread is to take part in a group stop that starts now. -/
def joins (w : World a) (u : Nat) : Bool :=
  !taskIsStopped (w.task u) && !fatalSignalPending (w.task u) && !(w.thread u).exiting

structure Enlisted (s s' : Task a) : Prop where
  same : s' = { s with
    jobctl := s'.jobctl
    state := s'.state
    tifSigpending := s'.tifSigpending }
  bits : s'.stopPending = true ∧ s'.consumes = true
  state : s'.state = s.state ∨ s'.state = TASK_RUNNING

/-- What `do_signal_stop` puts into `jobctl`. -/
def stopMask (signr : BitVec 32) : BitVec 32 :=
  signr ||| (JOBCTL_STOP_PENDING ||| JOBCTL_STOP_CONSUME)

/-- `task_set_jobctl_pending` with that. -/
theorem enlisted_jobctl {signr : BitVec 32} (hs : signr &&& ~~~JOBCTL_STOP_SIGMASK = 0)
    (s : Task a) {j : BitVec 32}
    (hj : j = (if stopMask signr &&& JOBCTL_STOP_SIGMASK ≠ 0 then s.jobctl &&& ~~~JOBCTL_STOP_SIGMASK
      else s.jobctl) ||| stopMask signr) :
    Enlisted s { s with jobctl := j } ∧ j &&& JOBCTL_TRAP_MASK = s.jobctl &&& JOBCTL_TRAP_MASK := by
  have hbit : ∀ b, (JOBCTL_STOP_PENDING ||| JOBCTL_STOP_CONSUME) &&& b ≠ 0 → j &&& b ≠ 0 := by
    intro b hb h0
    rw [hj] at h0
    exact hb (or_and_eq_zero.mp (or_and_eq_zero.mp h0).2).2
  refine ⟨⟨rfl, ⟨decide_eq_true (hbit _ (by decide)), decide_eq_true (hbit _ (by decide))⟩,
    Or.inl rfl⟩, ?_⟩
  have hmask : stopMask signr &&& JOBCTL_TRAP_MASK = 0 :=
    or_and_eq_zero.mpr ⟨and_eq_zero_of_subset hs (by decide), by decide⟩
  rw [hj, or_and_of_other hmask]
  split
  · exact and_of_clear_other (by decide)
  · rfl

/-- **A thread that is put into the count.** -/
theorem ThreadOk.enlisted {ge : Bool} {s s' : Task a} {m : Thread a} {k : Pc a}
    (h : ThreadOk ge s m k) (he : Enlisted s s') (hge : ge = false) (hx : m.exiting = false)
    (hs : taskIsStopped s = false)
    (htraps : m.ptrace = 0 → s.jobctl &&& JOBCTL_TRAP_MASK = 0 →
      s'.jobctl &&& JOBCTL_TRAP_MASK = 0)
    (halert : Alert s' k) (hsound : k.Sound s') : ThreadOk ge s' m k := by
  have hrunning : ∀ bits : BitVec 32, TASK_RUNNING &&& bits = 0 := fun bits => BitVec.zero_and
  have hnot : taskIsStopped s' = false := by
    rw [taskIsStopped]
    rcases he.state with heq | heq
    · rw [heq]
      exact hs
    · rw [heq, hrunning]
      rfl
  have hpending : s'.pending = s.pending := by rw [he.same]
  have hkill : ∀ {P : Prop}, sigismember s'.pending SIGKILL = true → P := fun hk => by
    rw [hpending] at hk
    rcases h.kill hk with hx' | hge'
    · rw [hx] at hx'
      cases hx'
    · rw [hge] at hge'
      cases hge'
  refine
    { consumes := fun _ => he.bits.1
      awake := fun _ => hnot
      leaving := fun hx' => by
        rw [hx] at hx'
        cases hx'
      dead := fun hge' => by
        rw [hge] at hge'
        cases hge'
      gone := h.gone
      zombie := fun hz => h.zombie (by rw [he.same] at hz; exact hz)
      kill := hkill
      fatal := fun hk _ => hkill hk
      unblocked := by
        rw [he.same]
        exact h.unblocked
      stopAlert := fun _ _ => halert
      alert := fun _ _ _ _ => halert
      stopped := fun hyes => by
        rw [hnot] at hyes
        cases hyes
      halts := fun hs' => ?_
      untraced := fun h0 => ⟨htraps h0 (h.untraced h0).1, (h.untraced h0).2⟩
      sound := hsound }
  rcases he.state with heq | heq
  · rw [heq] at hs'
    exact h.halts hs'
  · rw [heq, hrunning] at hs'
    exact absurd rfl hs'

/-! #### One round of the loop -/

section

variable (x : Extern a) (h : Headers a)

theorem taskSetJobctlPending_eq (w : World a) (u : Nat) (mask : BitVec 32) :
    (taskSetJobctlPending w u mask).2 = (!fatalSignalPending (w.task u) && !(w.thread u).exiting) := by
  unfold taskSetJobctlPending
  split
  · next hno =>
    rcases hno with hf | hx
    · rw [hf]
      rfl
    · rw [hx, Bool.not_true, Bool.and_false]
  · next hyes =>
    obtain ⟨hf, hx⟩ := not_or.mp hyes
    rw [Bool.eq_false_iff.mpr hf, Bool.eq_false_iff.mpr hx]
    rfl

theorem enlist_of_not (mask : BitVec 32) (hn : joins w u = false) : enlist x h t mask w u = w := by
  unfold enlist
  split
  · rfl
  · next hs =>
    rw [joins, Bool.eq_false_iff.mpr hs, Bool.not_false, Bool.true_and] at hn
    rw [taskSetJobctlPending_eq, if_pos hn]

/-- A round that puts a thread into the count of the process of `t`. -/
structure Enlists (t : Nat) (w : World a) (u : Nat) (w' : World a) : Prop where
  thread : w'.thread = w.thread
  action : w'.action = w.action
  other : ∀ v, v ≠ u → w'.task v = w.task v
  signal : w'.signal = Function.update w.signal (w.thread t).signal
    { w.signalOf t with groupStopCount := (w.signalOf t).groupStopCount + 1 }
  own : Enlisted (w.task u) (w'.task u)
  traps : (w.thread u).ptrace = 0 → (w.task u).jobctl &&& JOBCTL_TRAP_MASK = 0 →
    (w'.task u).jobctl &&& JOBCTL_TRAP_MASK = 0
  told : (w'.task u).tifSigpending = true
  awake : (w'.task u).state &&& TASK_INTERRUPTIBLE = 0

theorem Enlisted.woken {s s' : Task a} (he : Enlisted s s') (m : BitVec 32) :
    Enlisted s (signalWakeUpState x s' m) ∧ (signalWakeUpState x s' m).tifSigpending = true ∧
      (signalWakeUpState x s' m).state &&& TASK_INTERRUPTIBLE = 0 := by
  have heases := Eases.signalWakeUpState x s' m
  have hstate := heases.state
  rw [signalWakeUpState_eq] at heases hstate ⊢
  refine ⟨⟨by rw [he.same], he.bits, ?_⟩, rfl, ?_⟩
  · rcases hstate with heq | heq
    · rw [heq]
      exact he.state
    · exact Or.inr heq
  · dsimp only
    split
    · next h0 =>
      rw [BitVec.and_or_distrib_left] at h0
      exact (BitVec.or_eq_zero_iff.mp h0).2
    · rfl

theorem Enlisted.trapNotify {s s' : Task a} (he : Enlisted s s') :
    Enlisted s { s' with jobctl := s'.jobctl ||| JOBCTL_TRAP_NOTIFY } := by
  have hbits := stopBits_or s' (k := JOBCTL_TRAP_NOTIFY) (by decide) (by decide)
  refine ⟨by rw [he.same], ?_, he.state⟩
  rw [hbits.1, hbits.2]
  exact he.bits

theorem enlists {signr : BitVec 32} (hs : signr &&& ~~~JOBCTL_STOP_SIGMASK = 0)
    (hn : joins w u = true) : Enlists t w u (enlist x h t (stopMask signr) w u) := by
  simp only [joins, Bool.and_eq_true, Bool.not_eq_true'] at hn
  obtain ⟨⟨hstop, hfatal⟩, hexit⟩ := hn
  obtain ⟨hown, htraps⟩ := enlisted_jobctl hs (w.task u) rfl
  obtain ⟨v, hset, hself, hne, hthread, hsignal, haction⟩ : ∃ v : World a,
      taskSetJobctlPending w u (stopMask signr) = (v, true) ∧
      v.task u = { w.task u with
        jobctl := (if stopMask signr &&& JOBCTL_STOP_SIGMASK ≠ 0 then
          (w.task u).jobctl &&& ~~~JOBCTL_STOP_SIGMASK else (w.task u).jobctl) ||| stopMask signr } ∧
      (∀ q, q ≠ u → v.task q = w.task q) ∧ v.thread = w.thread ∧ v.signal = w.signal ∧
      v.action = w.action := by
    refine ⟨w.onTask u fun s => { s with
      jobctl :=
        (if stopMask signr &&& JOBCTL_STOP_SIGMASK ≠ 0 then s.jobctl &&& ~~~JOBCTL_STOP_SIGMASK
          else s.jobctl) ||| stopMask signr }, ?_, w.onTask_task_self u _,
      fun q hq => w.onTask_task_of_ne _ hq, rfl, rfl, rfl⟩
    unfold taskSetJobctlPending
    rw [if_neg (by rw [hfatal, hexit]; decide)]
  rw [← hself] at hown
  -- however it is woken
  have hdone : ∀ (w' : World a) (m : Task a → BitVec 32), w'.thread = w.thread →
      w'.action = w.action → w'.signal = Function.update w.signal (w.thread t).signal
        { w.signalOf t with groupStopCount := (w.signalOf t).groupStopCount + 1 } →
      (∀ q, q ≠ u → w'.task q = w.task q) → Enlisted (w.task u) (w'.task u) →
      ((w.thread u).ptrace = 0 → (w.task u).jobctl &&& JOBCTL_TRAP_MASK = 0 →
        (w'.task u).jobctl &&& JOBCTL_TRAP_MASK = 0) →
      Enlists t w u (w'.onTask u fun s => signalWakeUpState x s (m s)) := by
    intro w' m h1 h2 h3 h4 h5 h6
    have hown' := w'.onTask_task_self u fun s => signalWakeUpState x s (m s)
    obtain ⟨hwoken, htold, hawake⟩ := h5.woken x (m (w'.task u))
    refine ⟨h1, h2, fun q hq => ?_, h3, ?_, fun h0 ht => ?_, ?_, ?_⟩
    · rw [World.onTask_task_of_ne _ _ hq, h4 q hq]
    · rw [hown']
      exact hwoken
    · rw [hown', signalWakeUpState_eq]
      exact h6 h0 ht
    · rw [hown']
      exact htold
    · rw [hown']
      exact hawake
  have hcount : (v.onSignal t fun m => { m with groupStopCount := m.groupStopCount + 1 }).signal =
      Function.update w.signal (w.thread t).signal
        { w.signalOf t with groupStopCount := (w.signalOf t).groupStopCount + 1 } := by
    show Function.update v.signal (v.thread t).signal _ = _
    rw [World.signalOf, World.signalOf, hsignal, hthread]
  have hsame : (w.thread u).ptrace = 0 → (w.task u).jobctl &&& JOBCTL_TRAP_MASK = 0 →
      (v.task u).jobctl &&& JOBCTL_TRAP_MASK = 0 := fun _ ht => by
    rw [hself]
    exact htraps.trans ht
  unfold enlist
  rw [if_neg (by rw [hstop]; decide), hset, if_neg fun h0 => Bool.noConfusion h0]
  dsimp only
  split
  · exact hdone _ (fun _ => 0) hthread haction hcount hne hown hsame
  · next hp =>
    have htraced : (w.thread u).ptrace ≠ 0 := fun h0 => hp (by
      rw [World.onSignal_thread, hthread, h0]
      exact BitVec.zero_and)
    unfold ptraceTrapNotify taskSetTrapNotify
    split
    · exact hdone _ _ hthread haction hcount hne hown hsame
    · refine hdone _ _ hthread haction hcount (fun q hq => ?_) ?_ fun h0 => absurd h0 htraced
      · rw [World.onTask_task_of_ne _ _ hq]
        exact hne q hq
      · rw [World.onTask_task_self]
        exact hown.trapNotify

/-! #### The loop -/

theorem local_taskSetJobctlPending (mask : BitVec 32) :
    Local World.member fun (w : World a) u => (taskSetJobctlPending w u mask).1 := by
  have hite : (fun (w : World a) u => (taskSetJobctlPending w u mask).1) = fun w u =>
      if fatalSignalPending (w.task u) = true ∨ (w.thread u).exiting = true then w
      else w.onTask u fun s => { s with
        jobctl :=
          (if mask &&& JOBCTL_STOP_SIGMASK ≠ 0 then s.jobctl &&& ~~~JOBCTL_STOP_SIGMASK
            else s.jobctl) ||| mask } := by
    funext w u
    unfold taskSetJobctlPending
    split
    · rfl
    · rfl
  rw [hite]
  refine Local.ite (.of_same fun _ _ _ => rfl) (local_onTask _) fun he => ?_
  obtain ⟨hs, hm⟩ := Prod.mk.inj he
  rw [hs, hm]

theorem local_enlist (mask : BitVec 32) : Local World.member (enlist x h t mask) := by
  have hsame : Local World.member fun (w : World a) (_ : Nat) => w := .of_same fun _ _ _ => rfl
  have hcount : Local World.member fun (w : World a) (_ : Nat) => w.onSignal t fun m =>
      { m with groupStopCount := m.groupStopCount + 1 } := .of_same fun _ _ _ => rfl
  have hwake : Local World.member fun (w : World a) u =>
      if (w.thread u).ptrace &&& h.PT_SEIZED = 0 then w.onTask u fun s => signalWakeUp x s false
      else ptraceTrapNotify x w u :=
    Local.ite (local_onTask fun s => signalWakeUp x s false) (local_ptraceTrapNotify x) fun he => by
      rw [(Prod.mk.inj he).2]
  have hbody := ((local_taskSetJobctlPending mask).comp hcount).comp hwake
  refine Local.ite hsame (Local.ite hsame hbody fun he => ?_) fun he => ?_
  · obtain ⟨hs, hm⟩ := Prod.mk.inj he
    rw [taskSetJobctlPending_eq, taskSetJobctlPending_eq, hs, hm]
  · rw [(Prod.mk.inj he).1]

theorem joins_congr {w w' : World a} (hm : w'.member u = w.member u) : joins w' u = joins w u := by
  obtain ⟨hs, ht⟩ := Prod.mk.inj hm
  rw [joins, joins, hs, ht]

/-- The threads of a process after some of them have been put into the count. -/
structure Counting (t : Nat) (l : List Nat) (w w' : World a) : Prop where
  thread : w'.thread = w.thread
  action : w'.action = w.action
  outside : ∀ u, u ∉ l → w'.task u = w.task u
  joined : ∀ u ∈ l, joins w u = true → Enlisted (w.task u) (w'.task u) ∧
    ((w.thread u).ptrace = 0 → (w.task u).jobctl &&& JOBCTL_TRAP_MASK = 0 →
      (w'.task u).jobctl &&& JOBCTL_TRAP_MASK = 0) ∧
    (w'.task u).tifSigpending = true ∧ (w'.task u).state &&& TASK_INTERRUPTIBLE = 0
  passed : ∀ u ∈ l, joins w u = false → w'.task u = w.task u
  other : ∀ k, k ≠ (w.thread t).signal → w'.signal k = w.signal k
  signalOf : w'.signalOf t = { w.signalOf t with
    groupStopCount := (w.signalOf t).groupStopCount + l.countP (joins w) }

/-- **The loop puts every thread that joins into the count, once.** -/
theorem counting_loop {signr : BitVec 32} (hs : signr &&& ~~~JOBCTL_STOP_SIGMASK = 0)
    {l : List Nat} (hn : l.Nodup) (w : World a) :
    Counting t l w (l.foldl (enlist x h t (stopMask signr)) w) := by
  have hlocal := local_enlist (t := t) x h (stopMask signr)
  have hround : ∀ (w : World a) u, enlist x h t (stopMask signr) w u = w ∧ joins w u = false ∨
      Enlists t w u (enlist x h t (stopMask signr) w u) ∧ joins w u = true := fun w u => by
    cases hn : joins w u with
    | false => exact Or.inl ⟨enlist_of_not x h _ hn, rfl⟩
    | true => exact Or.inr ⟨enlists x h hs hn, rfl⟩
  have hthread : (l.foldl (enlist x h t (stopMask signr)) w).thread = w.thread := by
    refine foldl_same (fun w : World a => w.thread) (fun w u => ?_) l w
    rcases hround w u with ⟨heq, -⟩ | ⟨he, -⟩
    · rw [heq]
    · exact he.thread
  have haction : (l.foldl (enlist x h t (stopMask signr)) w).action = w.action := by
    refine foldl_same (fun w : World a => w.action) (fun w u => ?_) l w
    rcases hround w u with ⟨heq, -⟩ | ⟨he, -⟩
    · rw [heq]
    · exact he.action
  have hother : ∀ k, k ≠ (w.thread t).signal →
      (l.foldl (enlist x h t (stopMask signr)) w).signal k = w.signal k := by
    intro k hk
    have hsame := foldl_same
      (fun w : World a => (w.thread, if k = (w.thread t).signal then none else some (w.signal k)))
      (f := enlist x h t (stopMask signr)) (fun w u => ?_) l w
    · have hsome := (Prod.mk.inj hsame).2
      rw [hthread, if_neg hk, if_neg hk] at hsome
      exact Option.some.inj hsome
    · rcases hround w u with ⟨heq, -⟩ | ⟨he, -⟩
      · rw [heq]
      · rw [he.thread, he.signal]
        by_cases hk : k = (w.thread t).signal
        · rw [if_pos hk, if_pos hk]
        · rw [if_neg hk, if_neg hk, Function.update_of_ne hk]
  have hone : ∀ (w : World a) u, (enlist x h t (stopMask signr) w u).signalOf t =
      { w.signalOf t with
        groupStopCount := (w.signalOf t).groupStopCount + if joins w u = true then 1 else 0 } := by
    intro w u
    rcases hround w u with ⟨heq, hno⟩ | ⟨he, hyes⟩
    · rw [heq, hno]
      rfl
    · rw [World.signalOf, he.thread, he.signal, Function.update_self, hyes]
      rfl
  have hrest : { (l.foldl (enlist x h t (stopMask signr)) w).signalOf t with groupStopCount := 0 } =
      { w.signalOf t with groupStopCount := 0 } := by
    refine foldl_same (fun w : World a => { w.signalOf t with groupStopCount := 0 }) (fun w u => ?_) l w
    rw [hone]
  have hcount : ((l.foldl (enlist x h t (stopMask signr)) w).signalOf t).groupStopCount =
      (w.signalOf t).groupStopCount + l.countP (joins w) := by
    refine foldl_count (fun w : World a => (w.signalOf t).groupStopCount) (P := joins)
      (fun w u => ?_) (fun w u v hv => ?_) hn w
    · rw [hone]
    · exact joins_congr (hlocal.other hv)
  have hmem : ∀ u ∈ l, (l.foldl (enlist x h t (stopMask signr)) w).task u =
      (enlist x h t (stopMask signr) w u).task u := fun u hu =>
    (Prod.mk.inj (hlocal.foldl_mem hn hu w)).1
  refine ⟨hthread, haction, fun u hu => (Prod.mk.inj (hlocal.foldl_notMem hu w)).1,
    fun u hu hj => ?_, fun u hu hj => ?_, hother, ?_⟩
  · have he := enlists (t := t) x h hs hj
    rw [hmem u hu]
    exact ⟨he.own, he.traps, he.told, he.awake⟩
  · rw [hmem u hu, enlist_of_not x h _ hj]
  · rw [← hcount]
    exact congrArg (fun m : SignalStruct => { m with groupStopCount :=
      ((l.foldl (enlist x h t (stopMask signr)) w).signalOf t).groupStopCount }) hrest

/-! #### The whole of it -/

theorem Pc.not_gone_of_looks {k : Pc a} (hl : k.looks = true) : k.isGone = false := by
  cases k with
  | telling todo k =>
    cases k with
    | gone => cases hl
    | _ => rfl
  | gone => cases hl
  | _ => rfl

theorem Pc.sound_of_looks {k : Pc a} (hl : k.looks = true) (hh : k.halts = false) (s : Task a) :
    k.Sound s := by
  cases k with
  | toSleep k state => cases hl
  | asleep k =>
    rw [show (Pc.asleep k).halts = k.isJobctl from rfl] at hh
    rw [show (Pc.asleep k).looks = k.isJobctl from rfl, hh] at hl
    cases hl
  | _ => trivial

theorem ThreadOk.sound_of_awake {s s' : Task a} {m : Thread a} {k : Pc a}
    (h : ThreadOk false s m k) (hx : m.exiting = false) (hp : s'.pending = s.pending)
    (hawake : s'.state &&& TASK_INTERRUPTIBLE = 0) : k.Sound s' := by
  have hsound := h.sound
  cases k with
  | asleep k =>
    refine Bool.eq_false_iff.mpr fun hp' => ?_
    obtain ⟨-, -, hwhy⟩ := ThreadOk.signalPendingState_eq_true.mp hp'
    rcases hwhy with hi | hk
    · exact hi hawake
    · rcases h.kill (hp ▸ hk) with hx' | hge
      · rw [hx] at hx'
        cases hx'
      · cases hge
  | toSleep k state => exact hsound
  | _ => trivial

structure Initiated (t : Nat) (w w' : World a) : Prop where
  thread : w'.thread = w.thread
  action : w'.action = w.action
  outside : ∀ u, u ∉ w.threads t → w'.task u = w.task u ∧ w'.signalOf u = w.signalOf u
  current : Enlisted (w.task t) (w'.task t) ∧ (w'.task t).state = (w.task t).state ∧
    (w'.task t).jobctl &&& JOBCTL_TRAP_MASK = (w.task t).jobctl &&& JOBCTL_TRAP_MASK
  joined : ∀ u ∈ (w.task t).threadGroup, joins w u = true →
    Enlisted (w.task u) (w'.task u) ∧
    ((w.thread u).ptrace = 0 → (w.task u).jobctl &&& JOBCTL_TRAP_MASK = 0 →
      (w'.task u).jobctl &&& JOBCTL_TRAP_MASK = 0) ∧
    (w'.task u).tifSigpending = true ∧ (w'.task u).state &&& TASK_INTERRUPTIBLE = 0
  passed : ∀ u ∈ (w.task t).threadGroup, joins w u = false → w'.task u = w.task u
  signalOf : (w'.signalOf t).flags = (w.signalOf t).flags ∧
    (w'.signalOf t).currTarget = (w.signalOf t).currTarget ∧
    (w'.signalOf t).groupStopCount = (w.task t).threadGroup.countP (joins w) + 1

theorem Initiated.task (hi : Initiated t w w') (u : Nat) : w'.task u = { w.task u with
    jobctl := (w'.task u).jobctl
    state := (w'.task u).state
    tifSigpending := (w'.task u).tifSigpending } := by
  by_cases hu : u ∈ w.threads t
  · rcases List.mem_cons.mp hu with rfl | hl
    · rw [hi.current.1.same]
    · cases hj : joins w u with
      | true => rw [(hi.joined u hl hj).1.same]
      | false => rw [hi.passed u hl hj]
  · rw [(hi.outside u hu).1]

/-- `do_signal_stop` up to its loop over the others, for a thread that it puts into the count. -/
def startStop (w : World a) (t : Nat) (signr : BitVec 32) : World a :=
  let w := w.onSignal t fun m => { m with
    groupExitCode :=
      if m.flags &&& SIGNAL_STOP_STOPPED = 0 then signr.toNat else m.groupExitCode
    groupStopCount := 0 }
  let w := w.onTask t fun s => { s with
    jobctl :=
      (if stopMask signr &&& JOBCTL_STOP_SIGMASK ≠ 0 then s.jobctl &&& ~~~JOBCTL_STOP_SIGMASK
        else s.jobctl) ||| stopMask signr }
  w.onSignal t fun m => { m with groupStopCount := m.groupStopCount + 1 }

theorem startStop_spec (w : World a) (t : Nat) (signr : BitVec 32) :
    (startStop w t signr).thread = w.thread ∧ (startStop w t signr).action = w.action ∧
      (∀ u, u ≠ t → (startStop w t signr).task u = w.task u) ∧
      (startStop w t signr).task t = { w.task t with
        jobctl := (if stopMask signr &&& JOBCTL_STOP_SIGMASK ≠ 0 then
          (w.task t).jobctl &&& ~~~JOBCTL_STOP_SIGMASK else (w.task t).jobctl) ||| stopMask signr } ∧
      (∀ u, (w.thread u).signal ≠ (w.thread t).signal →
        (startStop w t signr).signalOf u = w.signalOf u) ∧
      ((startStop w t signr).signalOf t).flags = (w.signalOf t).flags ∧
      ((startStop w t signr).signalOf t).currTarget = (w.signalOf t).currTarget ∧
      ((startStop w t signr).signalOf t).groupStopCount = 1 := by
  refine ⟨rfl, rfl, fun u hu => ?_, ?_, fun u hu => ?_, ?_, ?_, ?_⟩
  · unfold startStop
    dsimp only
    rw [World.onSignal_task, World.onTask_task_of_ne _ _ hu, World.onSignal_task]
  · unfold startStop
    dsimp only
    rw [World.onSignal_task, World.onTask_task_self, World.onSignal_task]
  · unfold startStop
    dsimp only
    refine (World.signalOf_onSignal_of_ne _ _ (by exact hu)).trans ?_
    rw [World.onTask_signalOf]
    exact World.signalOf_onSignal_of_ne w _ hu
  · unfold startStop
    dsimp only
    rw [World.signalOf_onSignal, World.onTask_signalOf, World.signalOf_onSignal]
  · unfold startStop
    dsimp only
    rw [World.signalOf_onSignal, World.onTask_signalOf, World.signalOf_onSignal]
  · unfold startStop
    dsimp only
    rw [World.signalOf_onSignal, World.onTask_signalOf, World.signalOf_onSignal]

theorem initiateGroupStop_eq {signr : BitVec 32} (hfatal : fatalSignalPending (w.task t) = false)
    (hexit : (w.thread t).exiting = false) : initiateGroupStop x h w t signr =
      (w.task t).threadGroup.foldl (enlist x h t (stopMask signr)) (startStop w t signr) := by
  have hset : taskSetJobctlPending (w.onSignal t fun m => { m with
      groupExitCode :=
        if m.flags &&& SIGNAL_STOP_STOPPED = 0 then signr.toNat else m.groupExitCode
      groupStopCount := 0 }) t (stopMask signr) =
        ((w.onSignal t fun m => { m with
          groupExitCode :=
            if m.flags &&& SIGNAL_STOP_STOPPED = 0 then signr.toNat else m.groupExitCode
          groupStopCount := 0 }).onTask t fun s => { s with
            jobctl :=
              (if stopMask signr &&& JOBCTL_STOP_SIGMASK ≠ 0 then
                s.jobctl &&& ~~~JOBCTL_STOP_SIGMASK else s.jobctl) ||| stopMask signr }, true) := by
    unfold taskSetJobctlPending
    rw [World.onSignal_task, World.onSignal_thread, if_neg (by rw [hfatal, hexit]; decide)]
  unfold initiateGroupStop
  dsimp only
  rw [← stopMask, hset, if_pos rfl]
  show ((startStop w t signr).task t).threadGroup.foldl _ (startStop w t signr) = _
  rw [(startStop_spec w t signr).2.2.2.1]

theorem initiated {signr : BitVec 32} (hs : signr &&& ~~~JOBCTL_STOP_SIGMASK = 0)
    (hg : Grouped w) (hfatal : fatalSignalPending (w.task t) = false)
    (hexit : (w.thread t).exiting = false) : Initiated t w (initiateGroupStop x h w t signr) := by
  obtain ⟨hown, htraps⟩ := enlisted_jobctl hs (w.task t) rfl
  obtain ⟨hthread, haction, hne, hself, hother, hflags, htarget, hcount⟩ := startStop_spec w t signr
  have hloop := counting_loop (t := t) x h hs (hg.others_nodup t) (startStop w t signr)
  rw [initiateGroupStop_eq x h hfatal hexit]
  generalize startStop w t signr = v at *
  have hnot := hg.notMem_others t
  have hout : ∀ {u}, u ∈ (w.task t).threadGroup → v.task u = w.task u := fun hu =>
    hne _ fun he => hnot (he ▸ hu)
  have hjoins : ∀ {u}, u ∈ (w.task t).threadGroup → joins v u = joins w u := fun hu =>
    joins_congr (by rw [World.member, World.member, hout hu, hthread])
  refine ⟨hloop.thread.trans hthread, hloop.action.trans haction, fun u hu => ⟨?_, ?_⟩, ?_,
    fun u hu hj => ?_, fun u hu hj => ?_, ?_⟩
  · obtain ⟨hut, hl⟩ := not_or.mp (List.mem_cons.not.mp hu)
    rw [hloop.outside u hl, hne u hut]
  · have hsig : (w.thread u).signal ≠ (w.thread t).signal := fun he => hu ((hg.mem t u).mpr he)
    rw [← hother u hsig, World.signalOf, World.signalOf, hloop.thread]
    exact hloop.other _ (by rw [hthread]; exact hsig)
  · rw [hloop.outside t hnot, hself]
    exact ⟨hown, rfl, htraps⟩
  · have hjoined := hloop.joined u hu (by rw [hjoins hu]; exact hj)
    rw [hout hu, hthread] at hjoined
    exact hjoined
  · rw [hloop.passed u hu (by rw [hjoins hu]; exact hj), hout hu]
  · have hsame : (w.task t).threadGroup.countP (joins v) = (w.task t).threadGroup.countP (joins w) :=
      List.countP_congr fun u hu => by rw [hjoins hu]
    rw [hloop.signalOf, hflags, htarget, hcount, hsame]
    exact ⟨rfl, rfl, Nat.add_comm _ _⟩

/-- **A group stop that starts keeps the invariant.** -/
theorem Ok.initiated (hok : Ok w pc) (hi : Initiated t w w')
    (hlive : signalGroupExit (w.signalOf t) = false) (hlooks : (pc t).looks = true)
    (hhalts : (pc t).halts = false) : Ok w' pc := by
  have hg := hok.grouped
  have hexit : (w.thread t).exiting = false :=
    (hok.thread t).not_exiting (Pc.not_gone_of_looks hlooks)
  have hstop : taskIsStopped (w.task t) = false := by
    refine Bool.eq_false_iff.mpr fun hs => ?_
    have hstate := (hok.thread t).stopped hs
    have hyes := (hok.thread t).halts (by rw [hstate]; decide)
    rw [hhalts] at hyes
    cases hyes
  have hlive' : ∀ u ∈ w.threads t, signalGroupExit (w.signalOf u) = false := fun u hu => by
    rw [hg.signalOf hu]
    exact hlive
  -- whoever is passed over has stopped or is leaving, and is not in the count
  have hpassed : ∀ u ∈ (w.task t).threadGroup, joins w u = false →
      (taskIsStopped (w.task u) = true ∨ (w.thread u).exiting = true) ∧
        (w.task u).consumes = false := by
    intro u hu hj
    have hth := hok.thread u
    have hgroup := hlive' u (List.mem_cons_of_mem t hu)
    have hwhy : taskIsStopped (w.task u) = true ∨ (w.thread u).exiting = true := by
      by_contra hno
      obtain ⟨hs, hx⟩ := not_or.mp hno
      rw [joins, Bool.eq_false_iff.mpr hs, Bool.eq_false_iff.mpr hx, Bool.not_false, Bool.true_and,
        Bool.and_true, Bool.not_eq_false', fatalSignalPending, Bool.and_eq_true] at hj
      rcases hth.kill hj.2 with hx' | hge
      · exact hx hx'
      · rw [hgroup] at hge
        cases hge
    refine ⟨hwhy, Bool.eq_false_iff.mpr fun hc => ?_⟩
    rcases hwhy with hs | hx
    · rw [hth.awake hc] at hs
      cases hs
    · rcases hth.leaving hx hc with halone | hge
      · have htu := hg.symm (List.mem_cons_of_mem t hu)
        rw [threads_of_alone halone, List.mem_singleton] at htu
        exact hg.notMem_others t (htu ▸ hu)
      · rw [hgroup] at hge
        cases hge
  have htask := hi.task
  have hthreads : ∀ u, w'.threads u = w.threads u := fun u => by
    rw [World.threads, World.threads, htask]
  have htif : ∀ u, (w.task u).tifSigpending = true → (w'.task u).tifSigpending = true ∨ u = t := by
    intro u ht
    by_cases hu : u ∈ w.threads t
    · rcases List.mem_cons.mp hu with rfl | hl
      · exact Or.inr rfl
      · cases hj : joins w u with
        | true => exact Or.inl (hi.joined u hl hj).2.2.1
        | false => exact Or.inl (by rw [hi.passed u hl hj]; exact ht)
    · exact Or.inl (by rw [(hi.outside u hu).1]; exact ht)
  have halert : ∀ u, Alert (w.task u) (pc u) → Alert (w'.task u) (pc u) := fun u ha => by
    rcases ha with ht | hl
    · rcases htif u ht with ht' | rfl
      · exact Or.inl ht'
      · exact Or.inr hlooks
    · exact Or.inr hl
  have hsignal : ∀ u, (w'.signalOf u).flags = (w.signalOf u).flags ∧
      (w'.signalOf u).currTarget = (w.signalOf u).currTarget := fun u => by
    by_cases hu : u ∈ w.threads t
    · have hsame : w'.signalOf u = w'.signalOf t := by
        rw [World.signalOf, World.signalOf, hi.thread, (hg.mem t u).mp hu]
      rw [hsame, hg.signalOf hu]
      exact ⟨hi.signalOf.1, hi.signalOf.2.1⟩
    · rw [(hi.outside u hu).2]
      exact ⟨rfl, rfl⟩
  have hge : ∀ u, signalGroupExit (w'.signalOf u) = signalGroupExit (w.signalOf u) := fun u => by
    rw [signalGroupExit, signalGroupExit, (hsignal u).1]
  have hgrouped : Grouped w' := by
    refine hg.of_same (fun u => ?_) (fun u => by rw [hi.thread]) (fun q u hu => ?_) fun q => ?_
    · rw [htask]
      exact ⟨rfl, rfl⟩
    · rw [htask u, htask q]
      exact hg.shared q u hu
    · rw [(hsignal q).2]
      exact hg.currTarget q
  have hthread : ∀ u, ThreadOk (signalGroupExit (w.signalOf u)) (w'.task u) (w'.thread u) (pc u) := by
    intro u
    rw [hi.thread]
    by_cases hu : u ∈ w.threads t
    · rcases List.mem_cons.mp hu with rfl | hl
      · obtain ⟨hin, hstate, htraps⟩ := hi.current
        exact (hok.thread u).enlisted hin hlive hexit hstop (fun _ ht => htraps.trans ht)
          (Or.inr hlooks) (Pc.sound_of_looks hlooks hhalts _)
      · cases hj : joins w u with
        | true =>
          obtain ⟨hin, htraps, htold, hawake⟩ := hi.joined u hl hj
          simp only [joins, Bool.and_eq_true, Bool.not_eq_true'] at hj
          refine (hok.thread u).enlisted hin (hlive' u hu) hj.2 hj.1.1 htraps (Or.inl htold) ?_
          have hth := hok.thread u
          rw [hlive' u hu] at hth
          exact hth.sound_of_awake hj.2 (by rw [htask]) hawake
        | false =>
          rw [hi.passed u hl hj]
          exact hok.thread u
    · rw [(hi.outside u hu).1]
      exact hok.thread u
  -- the process of `t`
  have hin : ∀ u ∈ w.threads t, (w'.task u).consumes = true ∨
      w'.task u = w.task u ∧ (taskIsStopped (w.task u) = true ∨ (w.thread u).exiting = true) := by
    intro u hu
    rcases List.mem_cons.mp hu with rfl | hl
    · exact Or.inl hi.current.1.bits.2
    · cases hj : joins w u with
      | true => exact Or.inl (hi.joined u hl hj).1.bits.2
      | false => exact Or.inr ⟨hi.passed u hl hj, (hpassed u hl hj).1⟩
  have hcount : Awaits (w.threads t) (fun u => (w'.task u).consumes)
      (w'.signalOf t).groupStopCount := by
    have hothers : (w.task t).threadGroup.countP (joins w) =
        (w.task t).threadGroup.countP fun u => (w'.task u).consumes :=
      List.countP_congr fun u hl => by
        cases hj : joins w u with
        | true => rw [(hi.joined u hl hj).1.bits.2]
        | false => rw [hi.passed u hl hj, (hpassed u hl hj).2]
    rw [Awaits, hi.signalOf.2.2, hothers, World.threads, List.countP_cons, hi.current.1.bits.2,
      if_pos rfl]
  have hwas := hok.group t
  have hown : GroupOk w' pc t := by
    refine
      { killable := by
          rw [(hsignal t).1]
          exact hwas.killable
        count := fun _ => by
          rw [hthreads]
          exact hcount
        spent := fun hge' => ?_
        doomed := fun hge' => ?_
        quorum := fun _ _ _ u hu => ?_
        halted := fun hn _ hf => ?_
        taker := fun _ sig hs hex => ?_ }
    · rw [hge, hlive] at hge'
      cases hge'
    · rw [hge, hlive] at hge'
      cases hge'
    · rw [hthreads] at hu
      rw [hi.thread]
      refine (hin u hu).imp_right fun h' => ?_
      rw [h'.1]
      exact h'.2
    · -- a process that has stopped has no thread that could start another stop
      rw [(hsignal t).1] at hf
      have hn' : Untraced w t := fun v hv => by
        rw [← hi.thread]
        exact hn v (by rw [hthreads]; exact hv)
      rcases hwas.halted hn' hlive hf t (hg.self t) with hs | hx
      · rw [hstop] at hs
        cases hs
      · rw [hexit] at hx
        cases hx
    · have hcan : ∀ u, CanTake w' sig u ↔ CanTake w sig u := fun u => by
        rw [CanTake, CanTake, hi.thread, htask]
      rw [hthreads] at hex ⊢
      rw [htask] at hs
      obtain ⟨v, hv, hv'⟩ := hex
      obtain ⟨q, hq, hq', ha⟩ := hwas.taker hlive sig hs ⟨v, hv, (hcan v).mp hv'⟩
      exact ⟨q, hq, (hcan q).mpr hq', halert q ha⟩
  refine ⟨hgrouped, fun d => by rw [hi.action]; exact hok.dfl d, fun u => ?_, fun q => ?_⟩
  · rw [hge]
    exact hthread u
  · by_cases hq : q ∈ w.threads t
    · exact GroupOk.of_mem hgrouped (by rw [hthreads]; exact hq) hown
    · have hout : ∀ {v}, v ∈ w.threads q → v ∉ w.threads t := fun hv ht =>
        hq (hg.trans ht (hg.symm hv))
      have hsame := (hi.outside q hq).2
      refine (hok.group q).congr (hthreads q) (fun v hv => (hi.outside v (hout hv)).1)
        (fun v _ => by rw [hi.thread]; exact .refl _) (.of_eq (by rw [hsame])) (by rw [hsame])
        fun _ _ => rfl

end

end LinuxKerDev.Signals.Machine
