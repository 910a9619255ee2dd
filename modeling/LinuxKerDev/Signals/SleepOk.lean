import LinuxKerDev.Signals.LeaveOk

/-!
# Sleeping and waiting, and the invariant

A thread that is about to sleep sets its state first and asks `signal_pending_state` then, so a
signal that comes in between keeps it awake, and one that comes later wakes it.
-/

namespace LinuxKerDev.Signals.Machine

open Lib

variable {a : Arch} {w w' : World a} {pc pc' : Nat → Pc a} {t u : Nat}

/-! ### Waking up -/

/-- **A wake-up that is not for stopped threads keeps the invariant.** -/
theorem Ok.wake (hok : Ok w pc) (x : Extern a) {m : BitVec 32} (hm : TASK_STOPPED &&& m = 0)
    (t : Nat) : Ok (w.onTask t fun s => x.wakeUpState s m) pc := by
  have heq := x.wakeUpState_eq (w.task t) m
  have heases := Eases.wakeUpState x (w.task t) m
  refine hok.onTask t ?_ (fun _ _ => rfl) ?_ ?_ (fun _ _ hs => ?_) (fun hd => ?_)
    fun _ sig _ => ⟨fun hb => Or.inl ?_, fun hb ha => ⟨?_, ?_⟩⟩
  · rw [heq]
    exact ⟨rfl, rfl, rfl⟩
  · refine (hok.thread t).eases heases (.refl _) fun _ ht => ?_
    rw [heq]
    exact ht
  · rw [heq]
    rfl
  · have hstate : (w.task t).state &&& m = 0 := by
      rw [(hok.thread t).stopped hs]
      exact hm
    rw [heq, taskIsStopped, if_pos hstate]
    exact hs
  · rw [heq]
    exact hd
  · rw [heq] at hb
    exact hb
  · rw [heq]
    exact hb
  · exact ha.imp_left heases.flag

/-! ### Going to sleep -/

theorem ThreadOk.setState {ge : Bool} {s : Task a} {m : Thread a} {k : Pc a}
    (h : ThreadOk ge s m k) {state : BitVec 32}
    (hs : state &&& (TASK_STOPPED_BIT ||| TASK_TRACED_BIT) = 0)
    (hsound : k.Sound { s with state := state }) : ThreadOk ge { s with state := state } m k := by
  have hnot : taskIsStopped { s with state := state } = false := by
    rw [BitVec.and_or_distrib_left] at hs
    exact decide_eq_false (not_not.mpr (BitVec.or_eq_zero_iff.mp hs).1)
  exact
    { consumes := h.consumes
      awake := fun _ => hnot
      leaving := h.leaving
      dead := h.dead
      gone := h.gone
      zombie := h.zombie
      kill := h.kill
      fatal := h.fatal
      unblocked := h.unblocked
      stopAlert := h.stopAlert
      alert := h.alert
      stopped := fun hs' => by
        rw [hnot] at hs'
        cases hs'
      halts := fun hs' => absurd hs hs'
      untraced := h.untraced
      sound := hsound }

theorem Ok.setState (hok : Ok w pc) {state : BitVec 32}
    (hs : state &&& (TASK_STOPPED_BIT ||| TASK_TRACED_BIT) = 0)
    (hnot : Untraced w t → signalGroupExit (w.signalOf t) = false → taskIsStopped (w.task t) = false)
    (hsound : (pc t).Sound { w.task t with state := state }) :
    Ok (w.onTask t fun s => { s with state := state }) pc := by
  refine hok.onTask t ⟨rfl, rfl, rfl⟩ (fun _ _ => rfl) ((hok.thread t).setState hs hsound) rfl
    (fun hn hlive hyes => ?_) id fun _ sig _ => ⟨Or.inl, fun hb ha => ⟨hb, ha⟩⟩
  rw [hnot hn hlive] at hyes
  cases hyes

theorem Ok.not_stopped (hok : Ok w pc) (hh : (pc t).halts = false) :
    taskIsStopped (w.task t) = false := by
  refine Bool.eq_false_iff.mpr fun hs => ?_
  rw [(hok.thread t).halts (by rw [(hok.thread t).stopped hs]; decide)] at hh
  cases hh

/-- **A thread sets its state.** -/
theorem Ok.toNap (hok : Ok w pc) {k : Wait a} {state : BitVec 32} (hpc : pc t = .toSleep k state) :
    Ok (w.onTask t fun s => { s with state := state }) (Function.update pc t (.nap k)) := by
  have hsound := (hok.thread t).sound
  rw [hpc] at hsound
  have hnap : Ok w (Function.update pc t (.nap k)) := by
    refine hok.goto t ?_
    rw [hpc]
    refine ⟨rfl, nofun, nofun, nofun, nofun, fun ht => ?_, trivial⟩
    cases k with
    | trap tr => cases hsound.1
    | _ => cases ht
  refine hnap.setState hsound.2 (fun _ _ => hok.not_stopped (by rw [hpc]; rfl)) ?_
  rw [Function.update_self]
  trivial

theorem Wait.after_follows {k : Wait a} {s : Task a} {m : Thread a}
    (hs : s.state &&& (TASK_STOPPED_BIT ||| TASK_TRACED_BIT) = 0) :
    Follows s m (.nap k) k.after ∧ Follows s m (.asleep k) k.after := by
  cases k with
  | stop => exact
      ⟨⟨rfl, nofun, nofun, fun _ => Or.inl rfl, fun _ => Or.inr hs, nofun, trivial⟩,
        ⟨rfl, nofun, nofun, fun _ => Or.inl rfl, fun _ => Or.inr hs, nofun, trivial⟩⟩
  | trap tr => exact
      ⟨⟨rfl, id, id, fun _ => Or.inl rfl, fun _ => Or.inr hs, fun _ => Or.inl rfl, trivial⟩,
        ⟨rfl, id, id, fun _ => Or.inl rfl, fun _ => Or.inr hs, fun _ => Or.inl rfl, trivial⟩⟩
  | _ => exact ⟨⟨rfl, nofun, nofun, nofun, nofun, nofun, trivial⟩,
      ⟨rfl, nofun, nofun, nofun, nofun, nofun, trivial⟩⟩

/-- **A thread that signals keep awake goes on.** -/
theorem Ok.stayAwake (hok : Ok w pc) {k : Wait a} (hpc : pc t = .nap k)
    (hwhy : (w.task t).state = TASK_RUNNING ∨ signalPendingState (w.task t) = true) :
    Ok (w.onTask t fun s => { s with state := TASK_RUNNING }) (Function.update pc t k.after) := by
  have hrun : Ok (w.onTask t fun s => { s with state := TASK_RUNNING }) pc := by
    refine hok.setState BitVec.zero_and (fun _ hlive => Bool.eq_false_iff.mpr fun hs => ?_) ?_
    · have hstate := (hok.thread t).stopped hs
      rcases hwhy with hrun | hp
      · rw [hstate] at hrun
        cases hrun
      · -- only a `SIGKILL` wakes a stopped thread
        obtain ⟨-, -, hi | hk⟩ := ThreadOk.signalPendingState_eq_true.mp hp
        · rw [hstate] at hi
          exact hi rfl
        · rcases (hok.thread t).kill hk with hx | hge
          · rw [(hok.thread t).gone, hpc] at hx
            cases hx
          · rw [hlive] at hge
            cases hge
    · rw [hpc]
      trivial
  refine hrun.goto t ?_
  rw [hpc]
  refine (Wait.after_follows ?_).1
  rw [World.onTask_task_self]
  exact BitVec.zero_and

/-- **A thread goes to sleep when no signal keeps it awake.** -/
theorem Ok.fallAsleep (hok : Ok w pc) {k : Wait a} (hpc : pc t = .nap k)
    (hp : signalPendingState (w.task t) = false) : Ok w (Function.update pc t (.asleep k)) := by
  refine hok.goto t ?_
  rw [hpc]
  exact ⟨rfl, id, id, Or.inl, Or.inl, Or.inl, hp⟩

/-- **A thread that has been woken goes on.** -/
theorem Ok.wakeUp (hok : Ok w pc) {k : Wait a} (hpc : pc t = .asleep k)
    (hs : (w.task t).state = TASK_RUNNING) : Ok w (Function.update pc t k.after) := by
  refine hok.goto t ?_
  rw [hpc]
  refine (Wait.after_follows ?_).2
  rw [hs]
  exact BitVec.zero_and

/-! ### `do_sigtimedwait` -/

theorem Ok.setRealBlocked (hok : Ok w pc) {set : Sigset a} (hk : sigismember set SIGKILL = false) :
    Ok (w.onThread t fun m => { m with realBlocked := set }) pc := by
  have hg := hok.grouped
  have hsignal := fun u => w.onThread_signalOf t u (fun m => { m with realBlocked := set }) rfl
  have hexit := fun u => w.onThread_field t u Thread.exiting (f := fun m =>
    { m with realBlocked := set }) rfl
  have hother : ∀ {u}, u ≠ t → (w.onThread t fun m => { m with realBlocked := set }).thread u =
      w.thread u := fun hu => w.onThread_thread_of_ne _ hu
  have hs : Settled (some t) w (w.onThread t fun m => { m with realBlocked := set }) :=
    { threads := fun _ => rfl
      ptrace := fun u => w.onThread_field t u Thread.ptrace rfl
      task := fun u _ => ⟨(w.task u).sharedPending, .refl _⟩
      thread := fun u hu => by
        rw [hother fun he => hu (he ▸ rfl)]
        exact .refl _
      traps := fun _ _ _ => id }
  have hgrouped : Grouped (w.onThread t fun m => { m with realBlocked := set }) := by
    refine hg.of_same (fun _ => ⟨rfl, rfl⟩) (fun u => w.onThread_field t u Thread.signal rfl) hg.shared
      fun q => ?_
    rw [hsignal]
    exact hg.currTarget q
  refine hok.of_step hs hgrouped hok.dfl (fun u => by rw [hsignal]) (fun _ _ => rfl) ?_
    (fun u _ => ⟨rfl, rfl, fun _ => id, .of_eq (by rw [hsignal]), by rw [hsignal]⟩)
    (hs.groupOk hg (hok.group t) (fun u _ _ => ⟨rfl, rfl, rfl⟩)
      (.same (fun _ _ _ => rfl) (.of_eq (by rw [hsignal])) (by rw [hsignal])) (fun u _ _ => ?_)
      fun hlive sig hsig hex => hs.taker (hok.group t) hlive (fun _ _ _ => rfl) (fun u _ _ => ?_) hsig hex)
  · have hth := hok.thread t
    rw [World.onThread_thread_self]
    exact { hth with unblocked := ⟨hth.unblocked.1, hk⟩ }
  · refine ⟨fun _ => id, fun _ _ hwas => ?_, fun _ _ hwas => ?_⟩
    · rw [hexit]
      exact hwas
    · rw [hexit]
      exact hwas
  · rw [CanTake, CanTake, hexit u]
    exact ⟨Or.inl, fun hc ha => ⟨hc, ha⟩⟩

/-- A thread blocks less, and is told of what that makes pending. -/
theorem Ok.shedBlocked (hok : Ok w pc) (freezing : Bool) {set : Sigset a}
    (hset : ∀ sig, sigismember set sig = true → sigismember (w.task t).blocked sig = true)
    (hsound : ∀ s, (pc t).Sound s) :
    Ok (w.onTask t fun s => recalcSigpending freezing { s with blocked := set }) pc := by
  have hrecalc := recalcSigpending_eq freezing { w.task t with blocked := set }
  have htold := told_recalcSigpending freezing { w.task t with blocked := set }
  have hless : ∀ sig, sigismember (w.task t).blocked sig = false → sigismember set sig = false :=
    fun sig hb => Bool.eq_false_iff.mpr fun hs => by
      rw [hset sig hs] at hb
      cases hb
  have htell : ∀ sig, sigismember (w.task t).sharedPending sig = true → sigismember set sig = false →
      Alert (recalcSigpending freezing { w.task t with blocked := set }) (pc t) := fun sig hsig hb => by
    refine Or.inl (htold.recalced ⟨sig, Or.inr ?_, ?_⟩)
    · rw [hrecalc]
      exact hsig
    · rw [hrecalc]
      exact hb
  refine hok.onTask t (by rw [hrecalc]; exact ⟨rfl, rfl, rfl⟩) (fun _ _ => rfl) ?_
    (by rw [hrecalc]; rfl) (fun _ _ hs => by rw [hrecalc]; exact hs)
    (fun hd => by rw [hrecalc]; exact hd) fun _ sig hsig => ⟨fun hb => Or.inr ?_, fun hb _ => ⟨?_, ?_⟩⟩
  · refine (hok.thread t).refreshed ⟨?_, ?_, ?_, ?_, ?_, ?_, htold⟩ rfl rfl ⟨?_, ?_⟩ (hsound _)
    · rw [hrecalc]
    · rw [hrecalc]
    · rw [hrecalc]
    · rw [hrecalc]
      exact fun _ => id
    · rw [hrecalc]
      exact ⟨rfl, rfl⟩
    · rw [hrecalc]
      exact id
    · rw [hrecalc]
      exact hless _ (hok.thread t).unblocked.1
    · exact (hok.thread t).unblocked.2
  · rw [hrecalc] at hb
    exact htell sig hsig hb
  · rw [hrecalc]
    exact hless sig hb
  · exact htell sig hsig (hless sig hb)

end LinuxKerDev.Signals.Machine
