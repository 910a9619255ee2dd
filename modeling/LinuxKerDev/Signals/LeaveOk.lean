import LinuxKerDev.Signals.RoundOk

/-!
# Threads that leave, and the invariant

`zap_other_threads` ends a process, and `exit_signals` takes one thread out of it: out of the
count of a group stop, and off the list of those that may see a signal of the process.
`do_sigaction` throws signals away.
-/

namespace LinuxKerDev.Signals.Machine

open Lib

variable {a : Arch} {w w' : World a} {pc pc' : Nat → Pc a} {t u : Nat}

/-! ### `zap_other_threads` -/

/-- What `zap_other_threads` makes of a thread: one that is a zombie just stops no more. -/
def Zapped (s s' : Task a) : Prop :=
  s.exitState = 0 ∧ Doomed s s' ∨
    s.exitState ≠ 0 ∧ s' = { s with jobctl := s'.jobctl } ∧
      (s'.stopPending = false ∧ s'.consumes = false) ∧ s'.jobctl &&& JOBCTL_TRAP_MASK = 0

section

variable (x : Extern a)

theorem zapped_zapThread (w : World a) (t : Nat) :
    Zapped (w.task t) ((zapThread x w t).task t) := by
  unfold zapThread
  by_cases hz : (w.task t).exitState ≠ 0
  · rw [if_pos hz]
    refine Or.inr ⟨hz, ?_, stopBits_taskClearJobctlPending w t _ (by decide) (by decide),
      jobctl_taskClearJobctlPending w t _ (by decide)⟩
    rw [task_taskClearJobctlPending]
  · rw [if_neg hz]
    exact Or.inl ⟨not_not.mp hz, task_killThread x w t⟩

theorem spares_zapThread (w : World a) (t : Nat) : Spares w (zapThread x w t) := by
  unfold zapThread
  split
  · exact .taskClearJobctlPending w t _
  · exact .killThread x w t

theorem zapThreads_spec {l : List Nat} (hn : l.Nodup) (v : World a) :
    (l.foldl (zapThread x) v).thread = v.thread ∧
      (∀ u, (l.foldl (zapThread x) v).signalOf u = v.signalOf u) ∧
      (∀ u ∈ l, Zapped (v.task u) ((l.foldl (zapThread x) v).task u)) ∧
      ∀ u, u ∉ l → (l.foldl (zapThread x) v).task u = v.task u := by
  have hlocal := local_zapThread (a := a) x
  have hsame : ∀ (w : World a) t, (zapThread x w t).thread = w.thread ∧
      (zapThread x w t).signal = w.signal := fun w t => by
    unfold zapThread
    split
    · exact ⟨rfl, rfl⟩
    · exact ⟨rfl, rfl⟩
  have hthread : (l.foldl (zapThread x) v).thread = v.thread :=
    foldl_same (fun w : World a => w.thread) (fun w t => (hsame w t).1) l v
  have hsignal : (l.foldl (zapThread x) v).signal = v.signal :=
    foldl_same (fun w : World a => w.signal) (fun w t => (hsame w t).2) l v
  refine ⟨hthread, fun u => ?_, fun u hu => ?_, fun u hu => ?_⟩
  · rw [World.signalOf, World.signalOf, hsignal, hthread]
  · have htask : (l.foldl (zapThread x) v).task u = _ :=
      (Prod.mk.inj (hlocal.foldl_mem hn hu v)).1
    rw [htask]
    exact zapped_zapThread x v u
  · exact (Prod.mk.inj (hlocal.foldl_notMem hu v)).1

end

theorem ThreadOk.exit {ge : Bool} {s : Task a} {m : Thread a} {k : Pc a} (h : ThreadOk ge s m k)
    (hd : s.consumes = true → k.isDead = true) : ThreadOk true s m k where
  consumes := h.consumes
  awake := h.awake
  leaving _ _ := Or.inr rfl
  dead _ := hd
  gone := h.gone
  zombie := h.zombie
  kill _ := Or.inr rfl
  fatal := h.fatal
  unblocked := h.unblocked
  stopAlert := h.stopAlert
  alert := h.alert
  stopped := h.stopped
  halts := h.halts
  untraced := h.untraced
  sound := h.sound

/-- **A thread that has been zapped is one of an exiting process**, and will die of it. -/
theorem ThreadOk.zapped {ge : Bool} {s s' : Task a} {m : Thread a} {k : Pc a}
    (h : ThreadOk ge s m k) (hz : Zapped s s') :
    ThreadOk true s' m k ∧ (sigismember s'.pending SIGKILL = true ∨ k.isDoomed = true) := by
  rcases hz with ⟨-, hd⟩ | ⟨hz, heq, hout, htraps⟩
  · refine ⟨h.doomed hd, Or.inl ?_⟩
    rw [hd.pending]
    exact (sigismember_sigaddset _ _ _).mpr (Or.inl rfl)
  · have hno : s'.consumes = true → k.isDead = true := fun hc => by
      rw [hout.2] at hc
      cases hc
    have hth : ThreadOk ge s' m k := by
      rw [heq] at hout htraps ⊢
      exact h.eases (.unstop s hout) (.refl m) fun _ _ => htraps
    exact ⟨hth.exit hno, Or.inr (Pc.isDoomed_of_isDead (Pc.isDead_of_isGone
      (h.gone.symm.trans (h.zombie hz))))⟩

/-- **A process that begins to exit keeps the invariant.** -/
theorem Ok.killGroup (hok : Ok w pc) (x : Extern a) (code : Nat) {k : Pc a} (hk : k.isDead = true)
    (hf : Follows (w.task t) (w.thread t) (pc t) k) :
    Ok (killGroup x w t code) (Function.update pc t k) := by
  have hg := hok.grouped
  obtain ⟨v, hv⟩ : ∃ v, v = (w.onSignal t fun m => { m with
      flags := SIGNAL_GROUP_EXIT
      groupExitCode := code }).onSignal t fun m => { m with groupStopCount := 0 } := ⟨_, rfl⟩
  have hself : Function.update pc t k t = k := Function.update_self ..
  have hne : ∀ {u}, u ≠ t → Function.update pc t k u = pc u := fun hu => Function.update_of_ne hu ..
  have htask : v.task = w.task := by rw [hv]; rfl
  have hthread : v.thread = w.thread := by rw [hv]; rfl
  have haction : v.action = w.action := by rw [hv]; rfl
  have hsig : ∀ u ∈ w.threads t, (v.signalOf u).flags = SIGNAL_GROUP_EXIT ∧
      (v.signalOf u).groupStopCount = 0 ∧
      (v.signalOf u).currTarget = (w.signalOf u).currTarget := fun u hu => by
    have hsame := (hg.mem t u).mp hu
    rw [hv, World.signalOf_onSignal_of_eq _ _ (by exact hsame), World.signalOf_onSignal,
      hg.signalOf hu]
    exact ⟨rfl, rfl, rfl⟩
  have hsig' : ∀ u, u ∉ w.threads t → v.signalOf u = w.signalOf u := fun u hu => by
    have hother : (w.thread u).signal ≠ (w.thread t).signal := fun he => hu ((hg.mem t u).mpr he)
    rw [hv, World.signalOf_onSignal_of_ne _ _ (by exact hother),
      World.signalOf_onSignal_of_ne _ _ hother]
  unfold Machine.killGroup Signals.zapOtherThreads
  dsimp only
  rw [← hv]
  obtain ⟨hthread', hsignal', hin, hout⟩ := zapThreads_spec x (l := (v.task t).threadGroup)
    (by rw [htask]; exact hg.others_nodup t) v
  have hspares : Spares v ((v.task t).threadGroup.foldl (zapThread x) v) :=
    .foldl (spares_zapThread x) _ v
  generalize (v.task t).threadGroup.foldl (zapThread x) v = w' at hthread' hsignal' hin hout hspares ⊢
  rw [htask] at hin hout
  rw [hthread] at hthread'
  have hshared : ∀ u, (w'.task u).sharedPending = (w.task u).sharedPending := fun u => by
    by_cases hu : u ∈ (w.task t).threadGroup
    · rcases hin u hu with ⟨-, hd⟩ | ⟨-, heq, -⟩
      · rw [hd.shared]
      · rw [heq]
    · rw [hout u hu]
  have htask' : ∀ u, SparesTask (w.task u) (w'.task u) := fun u => by
    have hs := hspares.task u
    rw [htask] at hs
    exact hs
  have hgrouped : Grouped w' := by
    refine hg.of_same (fun u => ⟨(htask' u).threadGroup, (htask' u).sighand⟩)
      (fun u => by rw [hthread']) (fun q u hu => ?_) fun q => ?_
    · rw [hshared, hshared]
      exact hg.shared q u hu
    · rw [hsignal']
      by_cases hq : q ∈ w.threads t
      · rw [(hsig q hq).2.2]
        exact hg.currTarget q
      · rw [hsig' q hq]
        exact hg.currTarget q
  refine hok.of_doomed (p := t) hgrouped
    (fun d => by rw [hspares.action, haction]; exact hok.dfl d)
    (fun u => congrArg (u :: ·) (htask' u).threadGroup)
    (fun u hu => hne fun he => hu (he ▸ hg.self t)) (fun u hu => ?_)
    (fun u hu => by rw [hsignal']; exact ⟨(hsig u hu).1, (hsig u hu).2.1⟩)
    fun u hu => ⟨?_, ?_, ?_⟩
  · rw [hthread']
    rcases List.mem_cons.mp hu with rfl | hl
    · rw [hself, hout u (hg.notMem_others u)]
      exact ⟨((hok.thread u).goto hf).exit fun _ => hk, Or.inr (Pc.isDoomed_of_isDead hk)⟩
    · have hut : u ≠ t := by
        rintro rfl
        exact hg.notMem_others u hl
      rw [hne hut]
      exact (hok.thread u).zapped (hin u hl)
  · exact hout u fun hl => hu (List.mem_cons_of_mem t hl)
  · rw [hthread']
    exact .refl _
  · rw [hsignal']
    exact hsig' u hu

/-! ### `exit_signals` -/

/-- The loop over the others does not look at the thread itself. -/
theorem retargetLoop_onThread (x : Extern a) {l : List Nat} (ht : t ∉ l) (f : Thread a → Thread a)
    (w : World a) (retarget : Sigset a) :
    retargetLoop x l (w.onThread t f) retarget = (retargetLoop x l w retarget).onThread t f := by
  induction l generalizing w retarget with
  | nil => rfl
  | cons u l ih =>
    obtain ⟨hne, hl⟩ := not_or.mp (List.mem_cons.not.mp ht)
    have hthread : (w.onThread t f).thread u = w.thread u :=
      World.onThread_thread_of_ne _ _ fun he => hne he.symm
    unfold retargetLoop
    rw [hthread, World.onThread_task]
    by_cases hx : (w.thread u).exiting = true
    · rw [if_pos hx, if_pos hx]
      exact ih hl w retarget
    · rw [if_neg hx, if_neg hx]
      by_cases hp : hasPendingSignals retarget (w.task u).blocked = false
      · rw [if_pos hp, if_pos hp]
        exact ih hl w retarget
      · rw [if_neg hp, if_neg hp]
        dsimp only
        by_cases hs : signalPending (w.task u) = true
        · rw [if_pos hs, if_pos hs]
          split
          · rfl
          · exact ih hl w _
        · rw [if_neg hs, if_neg hs]
          split
          · rfl
          · exact ih hl (w.onTask u fun s => signalWakeUp x s false) _

theorem retargetSharedPending_onThread (x : Extern a) (hg : Grouped w) (f : Thread a → Thread a)
    (which : Sigset a) : retargetSharedPending x (w.onThread t f) t which =
      (retargetSharedPending x w t which).onThread t f := by
  unfold retargetSharedPending
  rw [World.onThread_task]
  dsimp only
  split
  · rfl
  · exact retargetLoop_onThread x (hg.notMem_others t) f w _

def leaving (m : Thread a) : Thread a := { m with exiting := true }

theorem leaving_spares (m : Thread a) : SparesThread m (leaving m) := ⟨rfl, rfl, rfl⟩

theorem exitSignals_eq (x : Extern a) (hg : Grouped w) : exitSignals x w t =
    if (w.task t).threadGroup = [] ∨ signalGroupExit (w.signalOf t) = true then
      (w.onThread t leaving, false, [])
    else if signalPending (w.task t) = false then (w.onThread t leaving, false, [])
    else
      let v := (retargetSharedPending x w t (signotset (w.task t).blocked)).onThread t leaving
      if (v.task t).stopPending = true then taskParticipateGroupStop v t else (v, false, []) := by
  rw [← retargetSharedPending_onThread x hg leaving]
  rfl

/-- A thread that is out of a group stop, or was not in one, and has changed in a way that does
not matter here. -/
theorem Left.of_onThread {f : Thread a → Thread a} (hf : SparesThread (w.thread t) (f (w.thread t)))
    (hl : Left (w.onThread t f) t w') : Left w t w' := by
  have hsignal := fun u => w.onThread_signalOf t u f hf.signal
  have hthreads : ∀ u, (w.onThread t f).threads u = w.threads u := fun _ => rfl
  refine ⟨hl.action, hl.task, hl.other, fun u => ?_, fun u hu => ?_, hl.out, hl.traps, fun u => ?_⟩
  · refine SparesThread.trans ?_ (hl.thread u)
    by_cases hu : u = t
    · rw [hu, World.onThread_thread_self]
      exact hf
    · rw [World.onThread_thread_of_ne _ _ hu]
      exact .refl _
  · rw [hl.exiting u hu, World.onThread_thread_of_ne _ _ hu]
  · have heq := hl.signal u
    rw [hsignal, hsignal, hthreads] at heq
    exact heq

theorem Left.refl (h0 : (w.task t).stopPending = false ∧ (w.task t).consumes = false) :
    Left w t w := by
  refine ⟨rfl, rfl, fun _ _ => rfl, fun _ => .refl _, fun _ _ => rfl, h0, id, fun u => ?_⟩
  refine (if_neg fun h' => ?_).symm
  rw [h0.2] at h'
  exact Bool.false_ne_true h'.2

theorem ThreadOk.leave {ge : Bool} {s : Task a} {m m' : Thread a} {k : Pc a} {todo : List Notice}
    (h : ThreadOk ge s m k) (hm : SparesThread m m') (hx : m'.exiting = true)
    (hwhy : s.consumes = true → s.threadGroup = [] ∨ ge = true) (hhalts : k.halts = false) :
    ThreadOk ge s m' (.telling todo .gone) := by
  have hno : ∀ {P : Prop}, m'.exiting = false → P := fun hx' => by
    rw [hx] at hx'
    cases hx'
  exact
    { consumes := h.consumes
      awake := h.awake
      leaving := fun _ => hwhy
      dead := fun _ _ => rfl
      gone := hx
      zombie := fun _ => hx
      kill := fun _ => Or.inl hx
      fatal := fun _ hx' => hno hx'
      unblocked := hm.realBlocked ▸ h.unblocked
      stopAlert := fun hx' => hno hx'
      alert := fun hx' => hno hx'
      stopped := h.stopped
      halts := fun hs => by
        rw [h.halts hs] at hhalts
        cases hhalts
      untraced := fun h0 => ⟨(h.untraced (hm.ptrace ▸ h0)).1, rfl⟩
      sound := trivial }

/-- A thread that leaves a process of which it is the only one, or which exits. -/
theorem Ok.leaveEarly (hok : Ok w pc) {f : Thread a → Thread a}
    (hf : SparesThread (w.thread t) (f (w.thread t))) (hx : (f (w.thread t)).exiting = true)
    (hearly : (w.task t).threadGroup = [] ∨ signalGroupExit (w.signalOf t) = true)
    (hhalts : (pc t).halts = false) (todo : List Notice) :
    Ok (w.onThread t f) (Function.update pc t (.telling todo .gone)) := by
  have hg := hok.grouped
  have hself : Function.update pc t (.telling todo .gone) t = .telling todo .gone :=
    Function.update_self ..
  have hne : ∀ {u}, u ≠ t → Function.update pc t (.telling todo .gone) u = pc u := fun hu =>
    Function.update_of_ne hu ..
  have hsignal := fun u => w.onThread_signalOf t u f hf.signal
  have hthread := w.onThread_thread_self t f
  have hother : ∀ {u}, u ≠ t → (w.onThread t f).thread u = w.thread u := fun hu =>
    w.onThread_thread_of_ne f hu
  have hs : Settled (some t) w (w.onThread t f) :=
    { threads := fun _ => rfl
      ptrace := fun u => w.onThread_field t u Thread.ptrace hf.ptrace
      task := fun u _ => ⟨(w.task u).sharedPending, .refl _⟩
      thread := fun u hu => by
        rw [hother fun he => hu (he ▸ rfl)]
        exact .refl _
      traps := fun _ _ _ => id }
  have hgrouped : Grouped (w.onThread t f) := by
    refine hg.of_same (fun _ => ⟨rfl, rfl⟩) (fun u => w.onThread_field t u Thread.signal hf.signal)
      hg.shared fun q => ?_
    rw [hsignal]
    exact hg.currTarget q
  refine hok.of_step hs hgrouped hok.dfl (fun u => by rw [hsignal]) (fun u hu => hne hu) ?_
    (fun u _ => ⟨rfl, rfl, fun _ => id, .of_eq (by rw [hsignal]), by rw [hsignal]⟩)
    (hs.groupOk hg (hok.group t) (fun u _ hu => ⟨hne fun he => hu (he ▸ rfl), rfl, rfl⟩)
      (.same (fun _ _ _ => rfl) (.of_eq (by rw [hsignal])) (by rw [hsignal])) (fun u _ he => ?_)
      fun hlive sig _ ⟨u, hu, hcan⟩ => ?_)
  · rw [hself, hthread]
    refine (hok.thread t).leave hf hx (fun _ => hearly) hhalts
  · obtain rfl := Option.some.inj he
    have hexit : ((w.onThread t f).thread t).exiting = true := by rw [hthread, hx]
    exact ⟨fun _ _ => Or.inr (by rw [hself]; rfl), fun _ _ _ => Or.inr (Or.inr hexit),
      fun _ _ _ => Or.inr hexit⟩
  · -- nobody is left who could take a signal
    rcases hearly with halone | hge
    · have hut : u = t := by
        rw [hs.threads, threads_of_alone halone, List.mem_singleton] at hu
        exact hu
      rw [hut] at hcan
      have hno := hcan.1
      rw [hthread, hx] at hno
      cases hno
    · rw [hge] at hlive
      cases hlive

/-- **`exit_signals` keeps the invariant**, and shows no warning. -/
theorem Ok.exitSignals (hok : Ok w pc) (x : Extern a) (hlooks : (pc t).looks = false)
    (hhalts : (pc t).halts = false) (hgone : (pc t).isGone = false) (todo : List Notice) :
    Ok (exitSignals x w t).1 (Function.update pc t (.telling todo .gone)) ∧
      (exitSignals x w t).2.2 = [] := by
  rw [exitSignals_eq x hok.grouped]
  by_cases hearly : (w.task t).threadGroup = [] ∨ signalGroupExit (w.signalOf t) = true
  · rw [if_pos hearly]
    exact ⟨hok.leaveEarly (leaving_spares _) rfl hearly hhalts todo, rfl⟩
  · rw [if_neg hearly]
    have hlive : signalGroupExit (w.signalOf t) = false :=
      Bool.eq_false_iff.mpr fun hge => hearly (Or.inr hge)
    have hself : Function.update pc t (.telling todo .gone) t = .telling todo .gone :=
      Function.update_self ..
    have hne : ∀ {u}, u ≠ t → Function.update pc t (.telling todo .gone) u = pc u := fun hu =>
      Function.update_of_ne hu ..
    -- whatever it is that the others have been told, the thread is out then
    have hdone : ∀ v w' : World a, Warned w t (signotset (w.task t).blocked) v → Left v t w' →
        (w'.task t).state = (w.task t).state → (w'.thread t).exiting = true →
        (∀ u, u ≠ t → w'.thread u = v.thread u) →
        Ok w' (Function.update pc t (.telling todo .gone)) := by
      intro v w' hr hl hstate hx hthreads
      have hv := hr.ok hok
      have hvt := hr.task hok.grouped
      have hthreads' : v.threads t = w.threads t := by rw [World.threads, World.threads, hvt]
      refine hv.left_of_taker hl (fun _ => by rw [hr.signalOf]; exact hlive) (fun _ hu => hne hu) ?_
        (fun _ => by rw [hself]; rfl) (fun _ _ => Or.inr hx) fun _ sig hsig hex => ?_
      · rw [hself]
        refine (hv.thread t).left hl.task (hl.thread t) hl.out hl.traps (fun _ => hx) hx
          (fun hx' => ?_) (fun hs => ?_) (fun hs => ?_) (fun h' => by cases h') trivial
        · rw [hx] at hx'
          cases hx'
        · rw [taskIsStopped, hstate] at hs
          rw [hstate]
          exact (hok.thread t).stopped hs
        · rw [hstate] at hs
          rw [(hok.thread t).halts hs] at hhalts
          cases hhalts
      · rw [hvt] at hsig
        rw [hthreads'] at hex ⊢
        refine hr.taker hok hlooks hlive hsig (fun u hu => ⟨hl.other u hu, hthreads u hu, hne hu⟩)
          (fun hcan _ => ?_) (fun hcan => ?_) hex
        · rw [sigismember_signotset, hcan.2]
          rfl
        · have hno := hcan.1
          rw [hx] at hno
          cases hno
    by_cases hp : signalPending (w.task t) = false
    · rw [if_pos hp]
      have hstop : (w.task t).stopPending = false := by
        refine Bool.eq_false_iff.mpr fun hs => ?_
        rcases (hok.thread t).stopAlert ((hok.thread t).not_exiting hgone) hs with ht | hl
        · rw [signalPending, ht] at hp
          cases hp
        · rw [hlooks] at hl
          cases hl
      have hconsumes : (w.task t).consumes = false := by
        refine Bool.eq_false_iff.mpr fun hc => ?_
        rw [(hok.thread t).consumes hc] at hstop
        cases hstop
      have hl : Left (w.onThread t leaving) t (w.onThread t leaving) := .refl ⟨hstop, hconsumes⟩
      have hexit : ((w.onThread t leaving).thread t).exiting = true := by
        rw [World.onThread_thread_self]
        rfl
      exact ⟨hdone w _ (Or.inl ⟨Or.inl hp, rfl⟩) (.of_onThread (leaving_spares _) hl) rfl hexit
        fun u hu => w.onThread_thread_of_ne _ hu, rfl⟩
    · rw [if_neg hp]
      have hr := Signals.Machine.retargeted x w t (signotset (w.task t).blocked)
      generalize retargetSharedPending x w t (signotset (w.task t).blocked) = v at hr ⊢
      have hw : Warned w t (signotset (w.task t).blocked) v := Or.inr hr
      have hv := hw.ok hok
      have hvt := hw.task hok.grouped
      have hexit : ((v.onThread t leaving).thread t).exiting = true := by
        rw [World.onThread_thread_self]
        rfl
      have hne' : ∀ u, u ≠ t → (v.onThread t leaving).thread u = v.thread u := fun u hu =>
        v.onThread_thread_of_ne _ hu
      have hsignal := fun u => v.onThread_signalOf t u leaving rfl
      have hgrouped : Grouped (v.onThread t leaving) := by
        refine hv.grouped.of_same (fun _ => ⟨rfl, rfl⟩)
          (fun u => v.onThread_field t u Thread.signal rfl) hv.grouped.shared fun q => ?_
        rw [hsignal]
        exact hv.grouped.currTarget q
      dsimp only
      rw [World.onThread_task]
      by_cases hs : (v.task t).stopPending = true
      · rw [if_pos hs]
        obtain ⟨hl, hstate, hthread⟩ := left_taskParticipateGroupStop hgrouped t
        refine ⟨hdone v _ hw (.of_onThread (leaving_spares _) hl) ?_ (by rw [hthread, hexit])
          fun u hu => by rw [hthread, hne' u hu], participate_quiet hs fun hc => ?_⟩
        · rw [hstate, World.onThread_task, hvt]
        · rw [hsignal]
          exact hv.count_ne_zero (by rw [hw.signalOf]; exact hlive) hc
      · rw [if_neg hs]
        have hstop : (v.task t).stopPending = false := Bool.eq_false_iff.mpr hs
        have hconsumes : (v.task t).consumes = false := by
          refine Bool.eq_false_iff.mpr fun hc => ?_
          rw [(hv.thread t).consumes hc] at hstop
          cases hstop
        have hl : Left (v.onThread t leaving) t (v.onThread t leaving) := .refl ⟨hstop, hconsumes⟩
        refine ⟨hdone v _ hw (.of_onThread (leaving_spares _) hl) ?_ hexit hne', rfl⟩
        rw [World.onThread_task, hvt]

theorem kept_exitSignals (x : Extern a) (hg : Grouped w) : Kept w (exitSignals x w t).1 := by
  have hleave : ∀ v : World a, Kept v (v.onThread t leaving) := fun v => .onThread v t rfl
  rw [exitSignals_eq x hg]
  split
  · exact hleave w
  · split
    · exact hleave w
    · have hr := Signals.Machine.retargeted x w t (signotset (w.task t).blocked)
      dsimp only
      generalize retargetSharedPending x w t (signotset (w.task t).blocked) = v at hr ⊢
      have hv : Kept w v :=
        .of_eq hr.sighand (fun u => (hr.eased.task u).blocked) fun u => by rw [hr.thread]
      split
      · refine (hv.trans (hleave v)).trans ?_
        have hclear := Spares.taskClearJobctlPending (v.onThread t leaving) t JOBCTL_STOP_PENDING
        rw [taskParticipateGroupStop_world]
        dsimp only
        split
        · exact .of_spares hclear
        · split
          · exact .of_spares ((hclear.trans (.onSignal _ t _)).trans (.onSignal _ t _))
          · exact .of_spares (hclear.trans (.onSignal _ t _))
      · exact hv.trans (hleave v)

theorem lasts_exitSignals (x : Extern a) (hg : Grouped w) : Lasts w (exitSignals x w t).1 := by
  rw [exitSignals_eq x hg]
  by_cases hearly : (w.task t).threadGroup = [] ∨ signalGroupExit (w.signalOf t) = true
  · rw [if_pos hearly]
    exact .onThread w t rfl
  · rw [if_neg hearly]
    split
    · exact .onThread w t rfl
    · have hl : Lasts w ((retargetSharedPending x w t (signotset (w.task t).blocked)).onThread t leaving) :=
        (Lasts.retarget x w t _).trans (.onThread _ t rfl)
      dsimp only
      split
      · refine hl.trans (.participate fun _ => ?_)
        rw [World.onThread_signalOf _ _ _ _ rfl, retarget_signalOf]
        exact Bool.eq_false_iff.mpr fun hge => hearly (Or.inr hge)
      · exact hl

/-! ### `do_sigaction` -/

/-- Signals other than `SIGKILL` have been thrown away. -/
structure Thrown (w w' : World a) : Prop where
  action : w'.action = w.action
  task : ∀ u, w'.task u = { w.task u with
    pending := (w'.task u).pending
    sharedPending := (w'.task u).sharedPending }
  pending : ∀ u sig, sigismember (w'.task u).pending sig = true →
    sigismember (w.task u).pending sig = true
  kill : ∀ u, sigismember (w.task u).pending SIGKILL = true →
    sigismember (w'.task u).pending SIGKILL = true
  shared : ∀ u sig, sigismember (w'.task u).sharedPending sig = true →
    sigismember (w.task u).sharedPending sig = true
  same : ∀ q, ∀ u ∈ w.threads q, (w'.task u).sharedPending = (w'.task q).sharedPending
  thread : ∀ u, SameThread (w.thread u) (w'.thread u)
  signal : ∀ u, SameButQueue (w.signalOf u) (w'.signalOf u)

namespace Thrown

theorem of_picked {mask : Sigset a} (hp : Picked w t mask none w')
    (ht : (w'.task t).tifSigpending = (w.task t).tifSigpending) : Thrown w w' := by
  refine ⟨hp.action, fun u => ?_, fun u sig hs => ?_, fun u hs => ?_, hp.shared, hp.same, hp.thread,
    hp.signal⟩
  · by_cases hu : u = t
    · have hown := hp.own
      rw [ht] at hown
      rw [hu, hown]
    · rw [hp.other u hu]
  · by_cases hu : u = t
    · rw [hu] at hs ⊢
      exact hp.pending sig hs
    · rw [hp.other u hu] at hs
      exact hs
  · by_cases hu : u = t
    · rw [hu] at hs ⊢
      exact (hp.kill hs).resolve_right nofun
    · rw [hp.other u hu]
      exact hs

theorem threads (ht : Thrown w w') (u : Nat) : w'.threads u = w.threads u := by
  rw [World.threads, World.threads, ht.task]

theorem grouped (ht : Thrown w w') (hg : Grouped w) : Grouped w' := by
  refine hg.of_same (fun u => ?_) (fun u => (ht.thread u).signal) ht.same fun q => ?_
  · rw [ht.task]
    exact ⟨rfl, rfl⟩
  · rw [ht.signal q]
    exact hg.currTarget q

theorem trans {w'' : World a} (ht : Thrown w w') (ht' : Thrown w' w'') : Thrown w w'' where
  action := ht'.action.trans ht.action
  task u := by rw [ht'.task, ht.task]
  pending u sig hs := ht.pending u sig (ht'.pending u sig hs)
  kill u hk := ht'.kill u (ht.kill u hk)
  shared u sig hs := ht.shared u sig (ht'.shared u sig hs)
  same q u hu := ht'.same q u (by rw [ht.threads]; exact hu)
  thread u := ⟨(ht.thread u).toSparesThread.trans (ht'.thread u).toSparesThread,
    (ht'.thread u).exiting.trans (ht.thread u).exiting⟩
  signal u := by
    have h1 := ht.signal u
    have h2 := ht'.signal u
    rw [SameButQueue] at *
    rw [h2, h1]

theorem kept (ht : Thrown w w') : Kept w w' :=
  .of_eq (fun u => by rw [ht.task]) (fun u => by rw [ht.task]) fun u => (ht.thread u).realBlocked

end Thrown

theorem thrown_rmFromQueueFull (hg : Grouped w) {mask : Sigset a}
    (hk : sigismember mask SIGKILL = false) (group : Bool) (t : Nat) :
    Thrown w (rmFromQueueFull mask group w t) := by
  unfold rmFromQueueFull
  dsimp only
  split
  · exact .of_picked (t := t) (.refl sigemptyset hg) rfl
  · have hmem : ∀ set : Sigset a, ∀ sig, sigismember (sigandnsets set mask) sig = true →
        sigismember set sig = true := fun set sig hs => by
      rw [sigismember_sigandnsets, Bool.and_eq_true] at hs
      exact hs.1
    have hkill : sigismember (w.task t).pending SIGKILL = true → group = false →
        sigismember (sigandnsets (w.sigpending t group).signal mask) SIGKILL = true ∨
          (none : Option Signal) = some SIGKILL := fun hs hgroup => by
      subst hgroup
      refine Or.inl ?_
      show sigismember (sigandnsets (w.task t).pending mask) SIGKILL = true
      rw [sigismember_sigandnsets, hs, hk]
      rfl
    obtain ⟨hp, ht⟩ := picked_setSigpending sigemptyset (t := t) hg group
      (p := ⟨sigandnsets (w.sigpending t group).signal mask,
        (w.sigpending t group).list.filter fun q => !sigismember mask q.signo⟩)
      ((w.sigpending t group).list.filter fun q => sigismember mask q.signo)
      (fun s hs => hmem _ s hs) hkill nofun
    exact .of_picked hp ht

theorem thrown_foldl (hg : Grouped w) {mask : Sigset a} (hk : sigismember mask SIGKILL = false)
    (l : List Nat) : Thrown w (l.foldl (rmFromQueueFull mask false) w) := by
  induction l generalizing w with
  | nil => exact .of_picked (t := 0) (.refl sigemptyset hg) rfl
  | cons u l ih =>
    have hone := thrown_rmFromQueueFull hg hk false u
    exact hone.trans (ih (hone.grouped hg))

/-- **Throwing signals away keeps the invariant.** -/
theorem Ok.thrown (hok : Ok w pc) (ht : Thrown w w') : Ok w' pc := by
  have hg := hok.grouped
  have hs : Settled none w w' :=
    { threads := ht.threads
      ptrace := fun u => (ht.thread u).ptrace
      task := fun u _ => ⟨(w'.task u).sharedPending, by
        have hdrop := Eases.drop { w.task u with sharedPending := (w'.task u).sharedPending }
          (w'.task u).pending (ht.pending u) (Bool.eq_iff_iff.mpr ⟨ht.pending u _, ht.kill u⟩)
        rw [ht.task u]
        exact hdrop⟩
      thread := fun u _ => ht.thread u
      traps := fun u _ _ hj => by
        rw [ht.task]
        exact hj }
  refine hok.of_settled hs (ht.grouped hg) (fun d => by rw [ht.action]; exact hok.dfl d)
    fun u => ⟨?_, ?_, ht.shared u, .of_queue (ht.signal u), ?_⟩
  · rw [ht.task u]
    rfl
  · rw [ht.task u]
    rfl
  · rw [ht.signal u]

/-- **A change of an action keeps the invariant**: that of `SIGKILL` cannot be changed. -/
theorem Ok.doSigaction (hok : Ok w pc) {h : Headers a} {j : JobHeaders a}
    (hj : JobHeaders.Sound h j) {sig : Signal} {act : SigAction} {r : World a × Int}
    (hr : doSigaction h j w t sig act = some r) : Ok r.1 pc ∧ Kept w r.1 ∧ Lasts w r.1 := by
  unfold Signals.doSigaction at hr
  by_cases honly : sigKernelOnly h j sig = true
  · rw [if_pos honly] at hr
    obtain rfl := Option.some.inj hr
    exact ⟨hok, .refl w, .refl w⟩
  · rw [if_neg honly] at hr
    have hne : sig ≠ SIGKILL := fun he => honly ((hj.only sig).mpr (Or.inl he))
    cases hd : (w.task t).sighand with
    | none =>
      rw [hd] at hr
      cases hr
    | some d =>
      rw [hd] at hr
      dsimp only at hr
      have hset : Ok { w with
          action := Function.update w.action d (Function.update (w.action d) sig act) } pc := by
        refine hok.of_same (fun _ => ⟨rfl, .refl _, .of_eq rfl, rfl, rfl⟩) fun d' => ?_
        dsimp only
        by_cases hd' : d' = d
        · rw [hd', Function.update_self, Function.update_of_ne hne.symm]
          exact hok.dfl d
        · rw [Function.update_of_ne hd']
          exact hok.dfl d'
      have hkept : Kept w { w with
          action := Function.update w.action d (Function.update (w.action d) sig act) } :=
        .of_eq (fun _ => rfl) (fun _ => rfl) fun _ => rfl
      by_cases hign : sigHandlerIgnored h act.handler sig = true
      · rw [if_pos hign] at hr
        obtain rfl := Option.some.inj hr
        have hk : sigismember (sigaddset sigemptyset sig : Sigset a) SIGKILL = false := by
          refine Bool.eq_false_iff.mpr fun hs => ?_
          rcases (sigismember_sigaddset _ _ _).mp hs with he | he
          · exact hne he.symm
          · rw [sigismember_sigemptyset] at he
            cases he
        have hshared := thrown_rmFromQueueFull hset.grouped hk true t
        have hall := hshared.trans (thrown_foldl (hshared.grouped hset.grouped) hk
          ((rmFromQueueFull (sigaddset sigemptyset sig) true { w with
            action := Function.update w.action d (Function.update (w.action d) sig act) } t).threads t))
        exact ⟨hset.thrown hall, hkept.trans hall.kept, .of_queue hall.signal⟩
      · rw [if_neg hign] at hr
        obtain rfl := Option.some.inj hr
        exact ⟨hset, hkept, .of_signalOf fun _ => rfl⟩

end LinuxKerDev.Signals.Machine
