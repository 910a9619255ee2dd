import LinuxKerDev.Signals.Stops

/-!
# Sends and the invariant

A send keeps the invariant, whoever sends it and whatever the process is doing: the stop
signals and `SIGCONT` take each other off, `SIGCONT` ends a group stop, and `complete_signal`
finds a thread that will see the signal, or kills them all.
-/

namespace LinuxKerDev.Signals.Machine

open Lib

variable {a : Arch} {w w' : World a} {pc pc' : Nat → Pc a} {p u : Nat}

/-! ### `prepare_signal` -/

/-- What `SIGCONT` tells the parent says nothing of an exit, or of a stop. -/
theorem continuedWhy_flags {m : SignalStruct} (h0 : continuedWhy m ≠ 0) {bits : BitVec 32}
    (hb : (SIGNAL_CLD_CONTINUED ||| SIGNAL_STOP_CONTINUED) &&& bits = 0)
    (hb' : (SIGNAL_CLD_STOPPED ||| SIGNAL_STOP_CONTINUED) &&& bits = 0) :
    (continuedWhy m ||| SIGNAL_STOP_CONTINUED) &&& bits = 0 := by
  unfold continuedWhy at h0 ⊢
  split
  · exact hb
  · split
    · exact hb'
    · next hs hc =>
      rw [if_neg hs, if_neg hc] at h0
      exact absurd rfl h0

theorem continuedWhy_eq_zero {m : SignalStruct} (h0 : continuedWhy m = 0) :
    m.flags &&& SIGNAL_STOP_STOPPED = 0 ∧ m.groupStopCount = 0 := by
  unfold continuedWhy at h0
  split at h0
  · exact absurd h0 (by decide)
  · next hs =>
    split at h0
    · exact absurd h0 (by decide)
    · next hc => exact ⟨not_not.mp hs, not_not.mp hc⟩

section

variable (x : Extern a) (h : Headers a) {j : JobHeaders a}

theorem rmFromShared_thread (mask : Sigset a) : (rmFromShared h mask w p).thread = w.thread := by
  unfold rmFromShared
  split
  · rw [World.unlink_thread, World.onSignal_thread, World.onShared_thread]
  · rfl

theorem rmFromShared_task (mask : Sigset a) (t : Nat) :
    (rmFromShared h mask w p).task t = { w.task t with
      sharedPending := ((rmFromShared h mask w p).task t).sharedPending } := by
  have hrest := task_rmFromShared h w p (fun s => { s with sharedPending := sigemptyset })
    (fun _ _ => rfl) mask t
  exact congrArg (fun s : Task a =>
    { s with sharedPending := ((rmFromShared h mask w p).task t).sharedPending }) hrest

theorem settled_prepareSignal (hj : JobHeaders.Sound h j) (sig : Signal)
    (fromAncestorNs : Bool) : Settled none w (prepareSignal x h w sig p fromAncestorNs).1 := by
  have hspares := Spares.prepareSignal x h w sig p fromAncestorNs
  have heased := eased_prepareSignal x h (w := w) (p := p) hj sig fromAncestorNs
  have hthread : ∀ t, (prepareSignal x h w sig p fromAncestorNs).1.thread t = { w.thread t with
      queue := ((prepareSignal x h w sig p fromAncestorNs).1.thread t).queue } := fun t => by
    have heq := heased.thread t
    rw [rmFromShared_thread] at heq
    exact heq
  refine
    { threads := hspares.threads
      ptrace := fun t => by rw [hthread t]
      task := fun t _ => ⟨_, rmFromShared_task h _ t ▸ heased.task t⟩
      thread := fun t _ => .of_queue (hthread t)
      traps := fun t _ h0 ht => heased.traps t ?_ ?_ }
  · rw [rmFromShared_thread]
    exact h0
  · rw [rmFromShared_task]
    exact ht

theorem shared_of_prepareSignal (hj : JobHeaders.Sound h j) (hg : Grouped w) {sig : Signal}
    {fromAncestorNs : Bool} {sig' : Signal}
    (hs : sigismember ((prepareSignal x h w sig p fromAncestorNs).1.task u).sharedPending sig' = true) :
    sigismember (w.task u).sharedPending sig' = true := by
  rw [shared_prepareSignal x h hj hg] at hs
  split at hs
  · exact ((sigismember_diff _ _ _).mp hs).1
  · exact hs

/-- **`prepare_signal` keeps the invariant.** -/
theorem Ok.prepareSignal (hj : JobHeaders.Sound h j) (hok : Ok w pc) (sig : Signal) (p : Nat)
    (fromAncestorNs : Bool) : Ok (prepareSignal x h w sig p fromAncestorNs).1 pc := by
  have hg := hok.grouped
  have hgrouped := hg.prepareSignal x h (p := p) hj sig fromAncestorNs
  have haction := (Spares.prepareSignal x h w sig p fromAncestorNs).action
  have hs := settled_prepareSignal x h (w := w) (p := p) hj sig fromAncestorNs
  have hcases := prepareSignal_cases x h (p := p) hj hg sig fromAncestorNs
  have hshared : ∀ u sig', sigismember
      ((Signals.prepareSignal x h w sig p fromAncestorNs).1.task u).sharedPending sig' = true →
        sigismember (w.task u).sharedPending sig' = true :=
    fun u sig' => shared_of_prepareSignal x h hj hg
  generalize (Signals.prepareSignal x h w sig p fromAncestorNs).1 = w' at *
  have hgoes : ∀ q, (∀ u ∈ w.threads q, SameStop w w' u) → GroupOk w' pc q := by
    intro q hsame
    have hq := (hsame q (hg.self q)).signalOf
    refine hs.groupOk hg (hok.group q) (fun v hv _ => ⟨rfl, (hsame v hv).consumes,
      (hsame v hv).stopped⟩) (.same (fun _ _ he => by cases he) (.of_queue hq) (by rw [hq]))
      (fun _ _ he => by cases he) ?_
    exact fun hlive sig' hsig hex => hs.taker (hok.group q) hlive (fun _ _ _ => rfl)
      (fun _ _ he => by cases he) (hshared _ _ hsig) hex
  cases hcases with
  | calm hsame =>
    refine hok.of_settled hs hgrouped (fun d => by rw [haction]; exact hok.dfl d) fun u => ?_
    have hq := (hsame u).signalOf
    exact ⟨(hsame u).consumes, (hsame u).stopped, fun sig' => hshared u sig', .of_queue hq, by rw [hq]⟩
  | continued hlive hout hother hwhy =>
    have hflags : ∀ u ∈ w.threads p, ∀ {bits : BitVec 32}, (w.signalOf p).flags &&& bits = 0 →
        (SIGNAL_CLD_CONTINUED ||| SIGNAL_STOP_CONTINUED) &&& bits = 0 →
        (SIGNAL_CLD_STOPPED ||| SIGNAL_STOP_CONTINUED) &&& bits = 0 →
        (w'.signalOf u).flags &&& bits = 0 := by
      intro u hu bits h0 hb hb'
      rcases hwhy u hu with ⟨-, hq⟩ | ⟨hne, hflags, -⟩
      · rw [hq]
        exact h0
      · rw [hflags]
        exact continuedWhy_flags hne hb hb'
    have hlive' : ∀ u ∈ w.threads p, signalGroupExit (w'.signalOf u) = false := fun u hu => by
      have h0 : (w.signalOf p).flags &&& SIGNAL_GROUP_EXIT = 0 :=
        not_not.mp (decide_eq_false_iff_not.mp hlive)
      rw [signalGroupExit, hflags u hu h0 (by decide) (by decide)]
      rfl
    have hspent : ∀ u ∈ w.threads p, (w'.signalOf u).groupStopCount = 0 := fun u hu => by
      rcases hwhy u hu with ⟨h0, hq⟩ | ⟨-, -, hc, -⟩
      · rw [hq]
        exact (continuedWhy_eq_zero h0).2
      · exact hc
    have hgroup : GroupOk w' pc p :=
      { killable := hflags p (hg.self p) (hok.group p).killable (by decide) (by decide)
        count := fun _ => by
          rw [hspent p (hg.self p), hs.threads p]
          exact .none fun v hv => (hout v hv).2
        spent := fun _ => hspent p (hg.self p)
        doomed := fun h' => by
          rw [hlive' p (hg.self p)] at h'
          cases h'
        quorum := fun _ _ hc => absurd (hspent p (hg.self p)) hc
        halted := fun _ _ hf => by
          rcases hwhy p (hg.self p) with ⟨h0, hq⟩ | ⟨hne, hflags', -⟩
          · rw [hq] at hf
            exact absurd (continuedWhy_eq_zero h0).1 hf
          · rw [hflags'] at hf
            exact absurd (continuedWhy_flags hne (by decide) (by decide)) hf
        taker := fun _ sig' hsig hex =>
          hs.taker (hok.group p) hlive (fun _ _ _ => rfl) (fun _ _ he => by cases he)
            (hshared _ _ hsig) hex }
    refine ⟨hgrouped, fun d => by rw [haction]; exact hok.dfl d, fun t => ?_, fun q => ?_⟩
    · refine hs.threadOk hok (fun he => by cases he) ?_
      by_cases ht : t ∈ w.threads p
      · rw [hlive' t ht, hg.signalOf ht, hlive]
      · exact signalGroupExit_of_queue (hother t ht).signalOf
    · by_cases hq : q ∈ w.threads p
      · refine hgroup.of_mem hgrouped ?_
        rw [hs.threads p]
        exact hq
      · exact hgoes q fun u hu => hother u fun hu' => hq (hg.trans hu' (hg.symm hu))

/-! ### `complete_signal` -/

/-- A thread that may be given the signal and is not wanted for it will look at its signals
anyway. -/
theorem alert_of_unwanted {sig : Signal} (hok : Ok w pc) (hw : wantsSignal w sig u = false)
    (hcan : CanTake w sig u) : Alert (w.task u) (pc u) := by
  rw [wantsSignal, hcan.1, hcan.2, if_neg Bool.false_ne_true, if_neg Bool.false_ne_true] at hw
  split at hw
  · cases hw
  · split at hw
    · next hs => exact Or.inr (Pc.looks_of_halts ((hok.thread u).halts hs))
    · refine Or.inl ?_
      rw [Bool.or_eq_false_iff, Bool.not_eq_false'] at hw
      exact hw.2

theorem canTake_of_wants {sig : Signal} (hw : wantsSignal w sig u = true) : CanTake w sig u := by
  rw [wantsSignal] at hw
  constructor
  · refine Bool.eq_false_iff.mpr fun hx => ?_
    rw [hx] at hw
    split at hw
    · cases hw
    · cases hw
  · refine Bool.eq_false_iff.mpr fun hb => ?_
    rw [hb] at hw
    cases hw

/-- **`sigaddset`, on the set that the signal goes to.** -/
theorem task_addPending (hg : Grouped w) (sig : Signal) (group : Bool) (u : Nat) :
    (addPending w p group sig).task u = { w.task u with
      pending :=
        if group = false ∧ u = p then sigaddset (w.task u).pending sig else (w.task u).pending
      sharedPending :=
        if group = true ∧ u ∈ w.threads p then sigaddset (w.task u).sharedPending sig
        else (w.task u).sharedPending } := by
  unfold addPending
  cases group with
  | true =>
    simp only [true_and, ↓reduceIte, reduceCtorEq, false_and]
    exact task_onShared hg (fun set => sigaddset set sig) u
  | false =>
    simp only [Bool.false_eq_true, false_and, ↓reduceIte, true_and]
    by_cases hu : u = p
    · rw [if_pos hu, hu, World.onTask_task_self]
    · rw [if_neg hu, World.onTask_task_of_ne _ _ hu]

theorem addPending_thread (sig : Signal) (group : Bool) :
    (addPending w p group sig).thread = w.thread := by
  unfold addPending
  split
  · exact w.onShared_thread p _
  · rfl

theorem addPending_signalOf (sig : Signal) (group : Bool) :
    (addPending w p group sig).signalOf u = w.signalOf u := by
  unfold addPending
  split
  · exact w.onShared_signalOf p u _
  · rfl

theorem Grouped.addPending (hg : Grouped w) (sig : Signal) (group : Bool) :
    Grouped (addPending w p group sig) := by
  refine hg.of_same (fun t => ?_) (fun t => by rw [addPending_thread]) (fun t u hu => ?_) fun t => ?_
  · rw [task_addPending hg]
    exact ⟨rfl, rfl⟩
  · rw [task_addPending hg, task_addPending hg, hg.shared t u hu]
    have hiff : u ∈ w.threads p ↔ t ∈ w.threads p :=
      ⟨fun h' => hg.trans h' (hg.symm hu), fun h' => hg.trans h' hu⟩
    simp only [hiff]
  · rw [addPending_signalOf]
    exact hg.currTarget t

theorem signalWakeUpState_eq (s : Task a) (m : BitVec 32) :
    signalWakeUpState x s m = { s with
      tifSigpending := true
      state := if s.state &&& (m ||| TASK_INTERRUPTIBLE) = 0 then s.state else TASK_RUNNING } := by
  rw [signalWakeUpState, x.wakeUpState_eq]

/-- A stopped thread is not woken for less than a `SIGKILL`. -/
theorem taskIsStopped_signalWakeUp {s : Task a}
    (hs : taskIsStopped s = true → s.state = TASK_STOPPED) :
    taskIsStopped (signalWakeUp x s false) = taskIsStopped s := by
  rw [signalWakeUp_eq]
  by_cases h0 : s.state &&& TASK_INTERRUPTIBLE = 0
  · rw [if_pos h0]
    rfl
  · have hno : taskIsStopped s = false := Bool.eq_false_iff.mpr fun hyes => by
      rw [hs hyes] at h0
      exact h0 rfl
    rw [if_neg h0, hno]
    exact (taskIsStopped_eq_false _).mpr BitVec.zero_and

theorem ThreadOk.woken {ge : Bool} {s : Task a} {m : Thread a} {k : Pc a}
    (h : ThreadOk ge s m k) {own shared : Sigset a} {sig : Signal}
    (hown : own = s.pending ∨ own = sigaddset s.pending sig)
    (hkill : sig = SIGKILL → ge = true) :
    ThreadOk ge (signalWakeUp x { s with pending := own, sharedPending := shared }
      (decide (sig = SIGKILL))) m k := by
  have heases := (h.sharedPending shared).eases (Eases.signalWakeUp x
    { s with sharedPending := shared } (decide (sig = SIGKILL))) (.refl m) fun _ => by
      rw [signalWakeUp, signalWakeUpState_eq]
      exact id
  rcases hown with rfl | rfl
  · exact heases
  · have hadd := heases.add sig (fun _ _ => Or.inl (by
      rw [signalWakeUp, signalWakeUpState_eq])) fun hsig => Or.inr ⟨hkill hsig, by
        rw [signalWakeUp, signalWakeUpState_eq], by
        rw [signalWakeUp, signalWakeUpState_eq, decide_eq_true hsig, if_pos rfl]
        dsimp only
        split
        · next h0 => rwa [BitVec.or_comm]
        · exact BitVec.zero_and⟩
    rw [signalWakeUp, signalWakeUpState_eq] at hadd ⊢
    exact hadd

/-- What is left of a signal that has been made pending, and a thread perhaps woken for it. -/
structure Added (w : World a) (sig : Signal) (p : Nat) (group : Bool) (t : Nat) (w' : World a) :
    Prop where
  spares : Spares w w'
  mem : t ∈ w.threads p
  own : group = false → t = p
  task : ∀ u, u ≠ t → w'.task u = (addPending w p group sig).task u
  shared : (w'.task t).sharedPending = ((addPending w p group sig).task t).sharedPending
  pending : ∀ sig', sigismember (w.task t).pending sig' = true →
    sigismember (w'.task t).pending sig' = true
  flag : (w.task t).tifSigpending = true → (w'.task t).tifSigpending = true
  jobctl : (w'.task t).jobctl = (w.task t).jobctl
  thread : w'.thread = w.thread
  signal : ∀ u, w'.signalOf u = { w.signalOf u with currTarget := (w'.signalOf u).currTarget } ∧
    (w'.signalOf u).currTarget ∈ w.threads u

theorem Ok.of_added (hok : Ok w pc) {sig : Signal} {group : Bool} {t : Nat}
    (hadd : Added w sig p group t w')
    (hown : ThreadOk (signalGroupExit (w.signalOf t)) (w'.task t) (w.thread t) (pc t))
    (hstopped : signalGroupExit (w.signalOf t) = false →
      taskIsStopped (w'.task t) = taskIsStopped (w.task t))
    (htaker : group = true → (∃ u ∈ w.threads p, CanTake w sig u) →
      ∃ u ∈ w.threads p, CanTake w sig u ∧ Alert (w'.task u) (pc u)) : Ok w' pc := by
  have hg := hok.grouped
  have hrest : ∀ u, u ≠ t → w'.task u = { w.task u with sharedPending := (w'.task u).sharedPending } := by
    intro u hu
    rw [hadd.task u hu, task_addPending hg, if_neg fun hc => hu (hc.2.trans (hadd.own hc.1).symm)]
  have hshared : ∀ u, (w'.task u).sharedPending = if group = true ∧ u ∈ w.threads p then
      sigaddset (w.task u).sharedPending sig else (w.task u).sharedPending := by
    intro u
    by_cases hu : u = t
    · rw [hu, hadd.shared, task_addPending hg]
    · rw [hadd.task u hu, task_addPending hg]
  have hthreads := hadd.spares.threads
  have hgrouped : Grouped w' := by
    refine hg.of_same (fun u => ⟨(hadd.spares.task u).threadGroup, (hadd.spares.task u).sighand⟩)
      (fun u => by rw [hadd.thread]) (fun q u hu => ?_) fun u => (hadd.signal u).2
    rw [hshared, hshared, hg.shared q u hu]
    have hiff : u ∈ w.threads p ↔ q ∈ w.threads p :=
      ⟨fun h' => hg.trans h' (hg.symm hu), fun h' => hg.trans h' hu⟩
    simp only [hiff]
  have hs : Settled (some t) w w' :=
    { threads := hthreads
      ptrace := fun u => by rw [hadd.thread]
      task := fun u hu => ⟨(w'.task u).sharedPending, by
        have heq := hrest u fun he => hu (he ▸ rfl)
        rw [← heq]
        exact .refl _⟩
      thread := fun u _ => hadd.thread ▸ .refl _
      traps := fun u hu _ ht => by
        rw [hrest u fun he => hu (he ▸ rfl)]
        exact ht }
  have hcan : ∀ {sig' u}, CanTake w' sig' u ↔ CanTake w sig' u := fun {_ u} => by
    rw [CanTake, CanTake, hadd.thread, (hadd.spares.task u).blocked]
  have halert : ∀ {u}, Alert (w.task u) (pc u) → Alert (w'.task u) (pc u) := fun {u} ha => by
    by_cases hu : u = t
    · rw [hu] at ha ⊢
      exact ha.imp_left hadd.flag
    · rw [hrest u hu]
      exact ha
  refine hok.of_step hs hgrouped (fun d => by rw [hadd.spares.action]; exact hok.dfl d)
    (fun u => by rw [(hadd.signal u).1]; rfl) (fun _ _ => rfl) (hadd.thread ▸ hown) (fun u hu => ?_)
    (hs.groupOk hg (hok.group t) (fun u _ hu => ?_) ?_ (fun u hu he => ?_) fun hlive sig' hsig hex => ?_)
  · have hne : u ≠ t := fun he => hu (he ▸ hg.self t)
    have htask : w'.task u = w.task u := by
      rw [hrest u hne, hshared, if_neg fun hc => hu (hg.trans (hg.symm hadd.mem) hc.2)]
    exact ⟨by rw [htask], by rw [htask], fun sig' hs' => htask ▸ hs',
      .of_eq (by rw [(hadd.signal u).1]), by rw [(hadd.signal u).1]⟩
  · rw [hrest u fun he => hu (he ▸ rfl)]
    exact ⟨rfl, rfl, rfl⟩
  · refine .same (fun u _ he => ?_) (.of_eq (by rw [(hadd.signal t).1])) (by rw [(hadd.signal t).1])
    rw [← Option.some.inj he]
    exact (stopBits_congr hadd.jobctl).2
  · obtain rfl := Option.some.inj he
    refine ⟨fun _ hd => hd.imp_left (hadd.pending SIGKILL), fun _ hlive hwas => ?_,
      fun _ hlive hwas => ?_⟩
    · rw [(stopBits_congr hadd.jobctl).2, hstopped hlive, hadd.thread]
      exact hwas
    · rw [hstopped hlive, hadd.thread]
      exact hwas
  · rw [hthreads] at hex ⊢
    obtain ⟨u, hu, hu'⟩ := hex
    by_cases hnew : group = true ∧ sig' = sig
    · -- this is the signal that has just been sent
      obtain ⟨hgroup, rfl⟩ := hnew
      obtain ⟨v, hv, hv', ha⟩ := htaker hgroup ⟨u, hg.trans hadd.mem hu, hcan.mp hu'⟩
      exact ⟨v, hg.trans (hg.symm hadd.mem) hv, hcan.mpr hv', ha⟩
    · have hold : sigismember (w.task t).sharedPending sig' = true := by
        rw [hshared] at hsig
        split at hsig
        · next hc =>
          exact ((sigismember_sigaddset _ _ _).mp hsig).resolve_left fun he => hnew ⟨hc.1, he⟩
        · exact hsig
      obtain ⟨v, hv, hv', ha⟩ := (hok.group t).taker hlive sig' hold ⟨u, hu, hcan.mp hu'⟩
      exact ⟨v, hv, hcan.mpr hv', halert ha⟩

/-- **`complete_signal` keeps the invariant**, with the signal that it is called for. -/
theorem Ok.outSet (hj : JobHeaders.Sound h j) (hok : Ok w pc) (sig : Signal) (p : Nat)
    (group : Bool) : Ok (outSet x h w sig p group) pc := by
  have hg := hok.grouped
  have hg' := Grouped.addPending hg (p := p) sig group
  have hspares := (Spares.addPending w p group sig).trans (Spares.completeSignal x h _ sig p group)
  have hcases := completeSignal_cases x h (p := p) hj hg' sig group
  have htask := fun u => task_addPending (p := p) hg sig group u
  have hthread := addPending_thread (w := w) (p := p) sig group
  have hsignal := fun u => addPending_signalOf (w := w) (p := p) (u := u) sig group
  have hthreads : ∀ u, (addPending w p group sig).threads u = w.threads u := fun u => by
    rw [World.threads, World.threads, htask]
  have hwants : ∀ u, wantsSignal (addPending w p group sig) sig u = wantsSignal w sig u := fun u => by
    rw [wantsSignal, wantsSignal, htask, hthread]
    rfl
  unfold Signals.outSet
  generalize completeSignal x h (addPending w p group sig) sig p group = w' at hspares hcases ⊢
  cases hcases with
  | unwanted hw hp hgroup =>
    rw [hwants] at hp
    have hadd : Added w sig p group p w' :=
      { spares := hspares
        mem := hg.self p
        own := fun _ => rfl
        task := fun u _ => by rw [hw]
        shared := by rw [hw]
        pending := fun sig' hs => by
          rw [hw, htask]
          dsimp only
          split
          · exact (sigismember_sigaddset _ _ _).mpr (Or.inr hs)
          · exact hs
        flag := fun hf => by
          rw [hw, htask]
          exact hf
        jobctl := by rw [hw, htask]
        thread := by rw [hw, hthread]
        signal := fun u => by
          rw [hw, hsignal]
          exact ⟨rfl, hg.currTarget u⟩ }
    refine hok.of_added hadd ?_ (fun _ => by rw [hw, htask]; rfl) fun hgroup' hex => ?_
    · rw [hw, htask]
      by_cases hown : group = false
      · have hadd := ((hok.thread p).add sig
          (fun hx hb => alert_of_unwanted hok hp ⟨hx, hb⟩) fun hsig =>
            Or.inl (Bool.eq_true_of_not_eq_false fun hx => ?_)).sharedPending
              (if group = true ∧ p ∈ w.threads p then sigaddset (w.task p).sharedPending sig
                else (w.task p).sharedPending)
        · rw [if_pos ⟨hown, rfl⟩]
          exact hadd
        · -- everybody who is still there is wanted for a `SIGKILL`
          rw [hsig, wantsSignal, (hok.thread p).unblocked.1, hx] at hp
          cases hp
      · rw [if_neg fun hc => hown hc.1]
        exact (hok.thread p).sharedPending _
    · obtain ⟨u, hu, hcan⟩ := hex
      have ha := alert_of_unwanted hok (hwants u ▸ hgroup hgroup' u (by rw [hthreads]; exact hu)) hcan
      refine ⟨u, hu, hcan, ?_⟩
      rw [hw, htask]
      exact ha
  | killed hflags hthread' hall hother =>
    rw [hsignal] at hflags
    have hrest : ∀ u, u ∉ w.threads p → (addPending w p group sig).task u = w.task u := fun u hu => by
      rw [htask, if_neg (fun hc : group = false ∧ u = p => hu (hc.2 ▸ hg.self p)),
        if_neg (fun hc : group = true ∧ u ∈ w.threads p => hu hc.2)]
    have hgrouped : Grouped w' := by
      refine hg.of_same (fun u => ⟨(hspares.task u).threadGroup, (hspares.task u).sighand⟩)
        (fun u => by rw [hthread', hthread]) (fun q u hu => ?_) fun q => ?_
      · by_cases hq : q ∈ w.threads p
        · have hu' : u ∈ w.threads p := hg.trans hq hu
          rw [(hall u (by rw [hthreads]; exact hu')).1.shared,
            (hall q (by rw [hthreads]; exact hq)).1.shared]
          exact hg'.shared q u (by rw [hthreads]; exact hu)
        · have hu' : u ∉ w.threads p := fun hp => hq (hg.trans hp (hg.symm hu))
          rw [(hother u (by rw [hthreads]; exact hu')).1, (hother q (by rw [hthreads]; exact hq)).1]
          exact hg'.shared q u (by rw [hthreads]; exact hu)
      · by_cases hq : q ∈ w.threads p
        · have htarget := (hall q (by rw [hthreads]; exact hq)).2.2.2
          rw [hthreads] at htarget
          exact hg.trans (hg.symm hq) htarget
        · rw [(hother q (by rw [hthreads]; exact hq)).2, hsignal]
          exact hg.currTarget q
    rw [hthreads] at hall hother
    refine hok.of_doomed (p := p) hgrouped (fun d => by rw [hspares.action]; exact hok.dfl d)
      hspares.threads (fun _ _ => rfl) (fun u hu => ⟨?_, Or.inl ?_⟩)
      (fun u hu => ⟨(hall u hu).2.1, (hall u hu).2.2.1⟩) fun u hu => ⟨?_, ?_, ?_⟩
    · rw [hthread', hthread]
      have hdoomed := (hall u hu).1
      rw [htask] at hdoomed
      exact (hok.thread u).doomed hdoomed
    · rw [(hall u hu).1.pending]
      exact (sigismember_sigaddset _ _ _).mpr (Or.inl rfl)
    · rw [(hother u hu).1, hrest u hu]
    · rw [hthread', hthread]
      exact .refl _
    · rw [(hother u hu).2, hsignal]
  | woken t ht htp hwants' htakes hthread' htask' hother hsignal' =>
    rw [hthreads] at ht
    rw [hthread] at hthread'
    rw [hwants] at hwants'
    have hge : sig = SIGKILL → signalGroupExit (w.signalOf t) = true := fun hsig => by
      rw [hg.signalOf ht]
      refine signalGroupExit_of_flags (hok.group p).killable ?_
      rw [← hsignal]
      refine htakes hsig ?_ ?_
      · rw [sigHandler]
        split
        · rw [(Spares.addPending w p group sig).action]
          exact hok.dfl _
        · rfl
      · rw [hthread]
        exact (hok.thread t).unblocked.2
    have heq := htask'
    rw [signalWakeUp, signalWakeUpState_eq, htask] at heq
    have hadd : Added w sig p group t w' :=
      { spares := hspares
        mem := ht
        own := htp
        task := hother
        shared := by rw [heq, htask]
        pending := fun sig' hs => by
          rw [heq]
          dsimp only
          split
          · exact (sigismember_sigaddset _ _ _).mpr (Or.inr hs)
          · exact hs
        flag := fun _ => by rw [heq]
        jobctl := by rw [heq]
        thread := hthread'
        signal := fun u => by
          have htarget := hsignal' u
          rw [hsignal, hthreads] at htarget
          exact htarget }
    refine hok.of_added hadd ?_ (fun hlive => ?_) fun _ _ => ⟨t, ht, ?_, Or.inl ?_⟩
    · rw [htask', htask]
      refine (hok.thread t).woken x ?_ hge
      split
      · exact Or.inr rfl
      · exact Or.inl rfl
    · have hsig : sig ≠ SIGKILL := fun hsig => by
        rw [hge hsig] at hlive
        cases hlive
      rw [htask', decide_eq_false hsig, taskIsStopped_signalWakeUp]
      · rw [htask]
        rfl
      · rw [htask]
        exact (hok.thread t).stopped
    · exact canTake_of_wants hwants'
    · rw [heq]

/-! ### The sends -/

theorem Ok.sendSignal₀ (hj : JobHeaders.Sound h j) (hok : Ok w pc) (alloc : Bool) (sig : Signal)
    (info : Info) (p : Nat) (group fromAncestorNs : Bool) :
    Ok (sendSignal₀ x h alloc w sig info p group fromAncestorNs).1 pc := by
  have hcases := sendSignal₀_cases x h w sig p fromAncestorNs alloc info group
  have hprepared := hok.prepareSignal x h hj sig p fromAncestorNs
  generalize Signals.sendSignal₀ x h alloc w sig info p group fromAncestorNs = r at hcases ⊢
  generalize (Signals.prepareSignal x h w sig p fromAncestorNs).1 = v at hcases hprepared
  cases hcases with
  | ignored => exact hprepared
  | pending => exact hprepared
  | failed => exact hprepared
  | out hi hm hv =>
    refine Ok.outSet x h hj ?_ sig p group
    rcases hv with rfl | ⟨q, rfl⟩
    · exact hprepared
    · exact hprepared.addEntry p group q

theorem Ok.sendSignal (hj : JobHeaders.Sound h j) (hok : Ok w pc) (alloc hidden : Bool)
    (sig : Signal) (info : Info) (p : Nat) (group : Bool) :
    Ok (sendSignal x h alloc hidden w sig info p group).1 pc :=
  hok.sendSignal₀ x h hj alloc sig info p group _

theorem Ok.lockedSendSigqueue (hj : JobHeaders.Sound h j) (hok : Ok w pc) (q p : Nat)
    (group : Bool) : Ok (lockedSendSigqueue x h w q p group).1 pc := by
  have hprepared := hok.prepareSignal x h hj (w.sigqueue q).signo p false
  unfold Signals.lockedSendSigqueue
  dsimp only
  split
  · exact hprepared
  · split
    · exact hprepared.of_same (fun _ => ⟨rfl, .refl _, .of_eq rfl, rfl, rfl⟩) hprepared.dfl
    · refine Ok.outSet x h hj (Ok.addEntry ?_ p group _) _ p group
      exact hprepared.of_same (fun _ => ⟨rfl, .refl _, .of_eq rfl, rfl, rfl⟩) hprepared.dfl

/-! ### `force_sig_info` -/

theorem recalcSigpendingAndWake_eq (s : Task a) : recalcSigpendingAndWake x s =
    if s.jobctl &&& JOBCTL_PENDING_MASK ≠ 0 ∨ s.ready = true then signalWakeUp x s false else s := by
  unfold recalcSigpendingAndWake recalcSigpendingTsk
  by_cases hj : s.jobctl &&& JOBCTL_PENDING_MASK ≠ 0 ∨ s.ready = true
  · rw [if_pos hj, if_pos hj]
    dsimp only
    rw [if_pos rfl, signalWakeUp_eq, signalWakeUp_eq]
  · rw [if_neg hj, if_neg hj]
    rfl

theorem Ok.setHandler (hok : Ok w pc) (d : Nat) (sig : Signal) :
    Ok (w.setHandler d sig .dfl) pc := by
  refine hok.of_same (fun _ => ⟨rfl, .refl _, .of_eq rfl, rfl, rfl⟩) fun d' => ?_
  show (Function.update w.action d (Function.update (w.action d) sig _) d' SIGKILL).handler = .dfl
  by_cases hd : d' = d
  · rw [hd, Function.update_self]
    by_cases hs : SIGKILL = sig
    · rw [← hs, Function.update_self]
    · rw [Function.update_of_ne hs]
      exact hok.dfl d
  · rw [Function.update_of_ne hd]
    exact hok.dfl d'

theorem Ok.unblock (hok : Ok w pc) (sig : Signal) (t : Nat) :
    Ok (w.onTask t fun s => recalcSigpendingAndWake x { s with blocked := sigdelset s.blocked sig })
      pc := by
  have hth := hok.thread t
  have hdel : ∀ sig', sigismember (w.task t).blocked sig' = false →
      sigismember (sigdelset (w.task t).blocked sig) sig' = false := fun sig' hb => by
    refine Bool.eq_false_iff.mpr fun hm => ?_
    rw [((sigismember_sigdelset _ _ _).mp hm).2] at hb
    cases hb
  have hwoken := taskIsStopped_signalWakeUp x hth.stopped
  have heq := recalcSigpendingAndWake_eq x { w.task t with
    blocked := sigdelset (w.task t).blocked sig }
  by_cases hj : (w.task t).jobctl &&& JOBCTL_PENDING_MASK ≠ 0 ∨
      ({ w.task t with blocked := sigdelset (w.task t).blocked sig } : Task a).ready = true
  · rw [if_pos hj, signalWakeUp_eq] at heq
    rw [signalWakeUp_eq] at hwoken
    have heases := hth.eases (Eases.signalWakeUp x (w.task t) false) (.refl _) fun _ ht => by
      rw [signalWakeUp_eq]
      exact ht
    rw [signalWakeUp_eq] at heases
    refine hok.onTask t (by rw [heq]; exact ⟨rfl, rfl, rfl⟩) (fun _ _ => rfl) ?_ (by rw [heq]; rfl)
      (fun _ _ hs => ?_) (fun hd => by rw [heq]; exact hd) fun hx sig' hsig => ?_
    · rw [heq]
      exact heases.refreshed ⟨rfl, rfl, rfl, fun _ => id, ⟨rfl, rfl⟩, id, fun _ => rfl, fun _ => rfl⟩
        rfl rfl ⟨hdel _ hth.unblocked.1, hth.unblocked.2⟩ (heases.sound.congr rfl rfl rfl)
    · rw [heq]
      exact hwoken.trans hs
    · rw [heq]
      exact ⟨fun _ => Or.inr (Or.inl rfl), fun hb _ => ⟨hdel sig' hb, Or.inl rfl⟩⟩
  · rw [if_neg hj] at heq
    have htold : Told ({ w.task t with blocked := sigdelset (w.task t).blocked sig } : Task a) :=
      ⟨fun hs => absurd (Or.inr ((Task.ready_iff _).mpr hs)) hj,
        fun hs => absurd (Or.inl (stopPending_bits hs)) hj⟩
    refine hok.onTask t (by rw [heq]; exact ⟨rfl, rfl, rfl⟩) (fun _ _ => rfl) ?_ (by rw [heq]; rfl)
      (fun _ _ hs => by rw [heq]; exact hs) (fun hd => by rw [heq]; exact hd) fun hx sig' hsig => ?_
    · rw [heq]
      exact hth.refreshed ⟨rfl, rfl, rfl, fun _ => id, ⟨rfl, rfl⟩, id, htold⟩ rfl rfl
        ⟨hdel _ hth.unblocked.1, hth.unblocked.2⟩ (hth.sound.congr rfl rfl rfl)
    · rw [heq]
      exact ⟨fun hb => Or.inr (Or.inl (htold.recalced ⟨sig', Or.inr hsig, hb⟩)),
        fun hb _ => ⟨hdel sig' hb, Or.inl (htold.recalced ⟨sig', Or.inr hsig, hdel sig' hb⟩)⟩⟩

theorem Ok.forceDefault (hok : Ok w pc) (d : Nat) (sig : Signal) (t : Nat) :
    Ok (forceDefault x w d sig t) pc := by
  have hhandler : Ok (forceHandler x w d sig t) pc := by
    unfold forceHandler
    dsimp only
    split
    · split
      · exact (hok.setHandler d sig).unblock x sig t
      · exact hok.setHandler d sig
    · exact hok
  unfold Signals.forceDefault
  dsimp only
  split
  · have hkill := (hhandler.group t).killable
    refine hhandler.onSignal t ⟨?_, ?_, ?_⟩ rfl rfl
    · rw [hkill]
      exact and_eq_zero_of_clear (by decide)
    · rw [signalGroupExit, signalGroupExit]
      dsimp only
      rw [and_of_clear_other (by decide)]
    · exact and_of_clear_other (by decide)
  · exact hhandler

theorem Ok.setKernel (hok : Ok w pc) {k : Kernel a} (hk : k.task = w.kernel.task) :
    Ok (w.setKernel k) pc :=
  hok.of_same (fun u => ⟨by rw [World.setKernel_task, hk]; rfl, .refl _, .of_eq rfl, rfl, rfl⟩) hok.dfl

theorem Ok.forceSigInfo (hj : JobHeaders.Sound h j) (hok : Ok w pc) {alloc hidden : Bool}
    {sig : Signal} {info : Info} {t : Nat} {r : World a × Int}
    (hr : forceSigInfo x h alloc hidden w sig info t = some r) : Ok r.1 pc := by
  unfold Signals.forceSigInfo at hr
  split at hr
  · cases hr
  · next d hd =>
    obtain rfl := Option.some.inj hr
    refine Ok.setKernel (Ok.sendSignal x h hj (Ok.forceDefault x (hok.setKernel ?_) d sig t) alloc
      hidden sig info t false) ?_
    · rfl
    · rfl

theorem Ok.doNotifyParentCldstop (hj : JobHeaders.Sound h j) (hok : Ok w pc)
    {alloc hidden : Bool} {tsk : Nat} {forPtracer : Bool} {why : Cld} {r : World a × Option Int}
    (hr : doNotifyParentCldstop x h alloc hidden w tsk forPtracer why = some r) : Ok r.1 pc := by
  unfold Signals.doNotifyParentCldstop at hr
  dsimp only at hr
  split at hr
  · cases hr
  · next d hd =>
    split_ifs at hr
    · obtain rfl := Option.some.inj hr
      refine Ok.setKernel (Ok.sendSignal x h hj (hok.setKernel ?_) alloc hidden _ _ _ true) ?_
      · rfl
      · rfl
    · obtain rfl := Option.some.inj hr
      refine Ok.setKernel (hok.setKernel ?_) ?_
      · rfl
      · rfl

end

end LinuxKerDev.Signals.Machine
