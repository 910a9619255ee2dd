import LinuxKerDev.Signals.SendOk

/-!
# Signals that a thread takes or turns away from, and the invariant

`dequeue_signal` recomputes `TIF_SIGPENDING`, so a thread that has looked at its signals has been
told of what is left (`Told`).  A thread that blocks signals of its process has to find others
that will see them, and `retarget_shared_pending` does (`Retargeted`).
-/

namespace LinuxKerDev.Signals.Machine

open Lib

variable {a : Arch} {w w' : World a} {pc pc' : Nat → Pc a} {t u : Nat}

/-! ### `dequeue_signal` -/

structure Looked (w : World a) (t : Nat) (mask : Sigset a) (d : Option Signal) (w' : World a) :
    Prop where
  action : w'.action = w.action
  other : ∀ u, u ≠ t → w'.task u = { w.task u with sharedPending := (w'.task u).sharedPending }
  sighand : (w'.task t).sighand = (w.task t).sighand
  blocked : (w'.task t).blocked = (w.task t).blocked
  own : Refreshed (w.task t) (w'.task t)
  kill : sigismember (w.task t).pending SIGKILL = true →
    sigismember (w'.task t).pending SIGKILL = true ∨ d = some SIGKILL
  shared : ∀ u sig, sigismember (w'.task u).sharedPending sig = true →
    sigismember (w.task u).sharedPending sig = true
  same : ∀ q, ∀ u ∈ w.threads q, (w'.task u).sharedPending = (w'.task q).sharedPending
  thread : ∀ u, SameThread (w.thread u) (w'.thread u)
  signal : ∀ u, SameButQueue (w.signalOf u) (w'.signalOf u)
  found : ∀ sig, d = some sig → sigismember mask sig = false

structure Picked (w : World a) (t : Nat) (mask : Sigset a) (d : Option Signal) (w' : World a) :
    Prop where
  action : w'.action = w.action
  other : ∀ u, u ≠ t → w'.task u = { w.task u with sharedPending := (w'.task u).sharedPending }
  own : w'.task t = { w.task t with
    pending := (w'.task t).pending
    sharedPending := (w'.task t).sharedPending
    tifSigpending := (w'.task t).tifSigpending }
  pending : ∀ sig, sigismember (w'.task t).pending sig = true →
    sigismember (w.task t).pending sig = true
  kill : sigismember (w.task t).pending SIGKILL = true →
    sigismember (w'.task t).pending SIGKILL = true ∨ d = some SIGKILL
  shared : ∀ u sig, sigismember (w'.task u).sharedPending sig = true →
    sigismember (w.task u).sharedPending sig = true
  same : ∀ q, ∀ u ∈ w.threads q, (w'.task u).sharedPending = (w'.task q).sharedPending
  thread : ∀ u, SameThread (w.thread u) (w'.thread u)
  signal : ∀ u, SameButQueue (w.signalOf u) (w'.signalOf u)
  found : ∀ sig, d = some sig → sigismember mask sig = false

section

variable (h : Headers a) (j : JobHeaders a) (i : Infos) (notifier : Option (Notifier a))
  (mask : Sigset a)

/-- What `__dequeue_signal` can do to a list. -/
theorem dequeueSignal₀_cases {β : Type} {info : β → Siginfo} {c : Synchronous}
    {p p' : Sigpending a β} {answer : Answer β}
    (hd : dequeueSignal₀ info c notifier mask p = (p', answer)) :
    p' = p ∧ (answer = .nothing ∨ answer = .held) ∨
      ∃ sig, sigismember mask sig = false ∧ sigismember p.signal sig = true ∧
        p' = (collectSignal info sig p).1 ∧ answer = .dequeued (collectSignal info sig p).2 := by
  unfold dequeueSignal₀ at hd
  rcases nextSignal_spec c p.signal mask with ⟨sig, hn, hp, hm⟩ | ⟨hn, -⟩
  · rw [hn] at hd
    dsimp only at hd
    split at hd
    · obtain ⟨rfl, rfl⟩ := Prod.mk.inj hd
      exact Or.inl ⟨rfl, Or.inr rfl⟩
    · obtain ⟨rfl, rfl⟩ := Prod.mk.inj hd
      exact Or.inr ⟨sig, hm, hp, rfl, rfl⟩
  · rw [hn] at hd
    obtain ⟨rfl, rfl⟩ := Prod.mk.inj hd
    exact Or.inl ⟨rfl, Or.inl rfl⟩

theorem collectSignal_sig {β : Type} (info : β → Siginfo) (sig : Signal) (p : Sigpending a β) :
    (collectSignal info sig p).2.sig = sig := by
  rcases collectSignal_cases info sig p with ⟨-, heq⟩ | ⟨q, rest, -, heq⟩
  · rw [heq]
  · rw [heq]

theorem Picked.refl (hg : Grouped w) : Picked w t mask none w where
  action := rfl
  other _ _ := rfl
  own := rfl
  pending _ := id
  kill := Or.inl
  shared _ _ := id
  same := hg.shared
  thread _ := .refl _
  signal _ := .of_eq rfl
  found := nofun

/-- What one of the two lists is written with is what was in it, and less. -/
theorem picked_setSigpending (hg : Grouped w) (group : Bool) {p : Sigpending a Entry}
    {d : Option Signal} (freed : List Entry)
    (hpending : ∀ s, sigismember p.signal s = true → sigismember (pendingSet w t group) s = true)
    (hkill : sigismember (w.task t).pending SIGKILL = true → group = false →
      sigismember p.signal SIGKILL = true ∨ d = some SIGKILL)
    (hfound : ∀ s, d = some s → sigismember mask s = false) :
    Picked w t mask d ((w.setSigpending t group p).unlink freed) ∧
      (((w.setSigpending t group p).unlink freed).task t).tifSigpending = (w.task t).tifSigpending := by
  cases group with
  | true =>
    have htask := fun u => task_onShared (p := t) hg (fun _ => p.signal) u
    have hset : (w.setSigpending t true p).task = (w.onShared t fun _ => p.signal).task := rfl
    have hthread : (w.setSigpending t true p).thread = w.thread := w.onShared_thread t _
    refine ⟨
      { action := w.onShared_action t _
        other := fun u _ => ?_
        own := ?_
        pending := fun s hs => ?_
        kill := fun hs => Or.inl ?_
        shared := fun u s hs => ?_
        same := fun q u hu => ?_
        thread := fun u => ?_
        signal := fun u => ?_
        found := hfound }, ?_⟩
    · rw [World.unlink_task, hset, htask]
    · rw [World.unlink_task, hset, htask]
    · rw [World.unlink_task, hset, htask] at hs
      exact hs
    · rw [World.unlink_task, hset, htask]
      exact hs
    · rw [World.unlink_task, hset, htask] at hs
      dsimp only at hs
      split at hs
      · next hu =>
        rw [hg.shared t u hu]
        exact hpending s hs
      · exact hs
    · rw [World.unlink_task, hset, htask, htask]
      have hiff : u ∈ w.threads t ↔ q ∈ w.threads t :=
        ⟨fun h' => hg.trans h' (hg.symm hu), fun h' => hg.trans h' hu⟩
      simp only [hiff, hg.shared q u hu]
    · rw [World.unlink_thread, hthread]
      exact .refl _
    · rw [World.unlink_signalOf]
      have hq := (w.onShared t fun _ => p.signal).onQueue_signalOf t u fun _ => p.list
      rw [World.onShared_signalOf] at hq
      exact hq
    · rw [World.unlink_task, hset, htask]
  | false =>
    have hset : (w.setSigpending t false p).task =
        (w.onTask t fun s => { s with pending := p.signal }).task := rfl
    have hthread : w.setSigpending t false p = (w.onTask t fun s =>
        { s with pending := p.signal }).onThread t fun m => { m with queue := p.list } := rfl
    have hself := w.onTask_task_self t fun s => { s with pending := p.signal }
    have hne : ∀ u, u ≠ t → (w.onTask t fun s => { s with pending := p.signal }).task u =
        w.task u := fun u hu => w.onTask_task_of_ne _ hu
    have hshared : ∀ u, ((w.onTask t fun s => { s with pending := p.signal }).task u).sharedPending =
        (w.task u).sharedPending := fun u => w.onTask_field t u Task.sharedPending rfl
    refine ⟨
      { action := rfl
        other := fun u hu => ?_
        own := ?_
        pending := fun s hs => ?_
        kill := fun hs => ?_
        shared := fun u s hs => ?_
        same := fun q u hu => ?_
        thread := fun u => ?_
        signal := fun u => ?_
        found := hfound }, ?_⟩
    · rw [World.unlink_task, hset, hne u hu]
    · rw [World.unlink_task, hset, hself]
    · rw [World.unlink_task, hset, hself] at hs
      exact hpending s hs
    · rw [World.unlink_task, hset, hself]
      exact hkill hs rfl
    · rw [World.unlink_task, hset, hshared] at hs
      exact hs
    · rw [World.unlink_task, hset, hshared, hshared]
      exact hg.shared q u hu
    · rw [World.unlink_thread, hthread]
      by_cases hu : u = t
      · subst hu
        refine .of_queue ?_
        rw [World.onThread_thread_self, World.onTask_thread]
      · rw [World.onThread_thread_of_ne _ _ hu]
        exact .refl _
    · rw [World.unlink_signalOf, hthread]
      exact .of_eq (World.onThread_signalOf _ t u (fun m => { m with queue := p.list }) rfl)
    · rw [World.unlink_task, hset, hself]

theorem picked_dequeueFrom (hg : Grouped w) (group : Bool) :
    Picked w t mask ((dequeueFrom j i notifier w t mask group).2.map Dequeued.sig)
      (dequeueFrom j i notifier w t mask group).1 := by
  unfold dequeueFrom
  cases hd : dequeueSignal₀ i.info j.sync notifier mask (w.sigpending t group) with
  | mk p answer =>
    rcases dequeueSignal₀_cases notifier mask hd with ⟨rfl, rfl | rfl⟩ | ⟨sig, hm, -, rfl, rfl⟩
    · exact .refl mask hg
    · -- the notifier keeps the signal back
      have hne : ∀ u, u ≠ t → (w.onTask t fun s => { s with tifSigpending := false }).task u =
          w.task u := fun u hu => w.onTask_task_of_ne _ hu
      have hself := w.onTask_task_self t fun s => { s with tifSigpending := false }
      have hshared : ∀ u, ((w.onTask t fun s => { s with tifSigpending := false }).task u).sharedPending =
          (w.task u).sharedPending := fun u => w.onTask_field t u Task.sharedPending rfl
      exact
        { action := rfl
          other := fun u hu => by rw [hne u hu]
          own := by rw [hself]
          pending := fun sig hs => by rw [hself] at hs; exact hs
          kill := fun hs => Or.inl (by rw [hself]; exact hs)
          shared := fun u sig hs => hshared u ▸ hs
          same := fun q u hu => by
            rw [hshared, hshared]
            exact hg.shared q u hu
          thread := fun _ => .refl _
          signal := fun _ => .of_eq rfl
          found := nofun }
    · rw [Option.map_some, collectSignal_sig]
      have hless := collectSignal_signal i.info sig (w.sigpending t group)
      generalize (collectSignal i.info sig (w.sigpending t group)).1 = p at hless ⊢
      dsimp only
      generalize (collectSignal i.info sig (w.sigpending t group)).2.freed.toList = freed
      refine (picked_setSigpending mask hg group freed (fun s hs => ((hless s).mp hs).1)
        (fun hs hgroup => ?_) fun s he => ?_).1
      · subst hgroup
        by_cases hk : sig = SIGKILL
        · exact Or.inr (hk ▸ rfl)
        · exact Or.inl ((hless SIGKILL).mpr ⟨hs, fun he => absurd he.symm hk⟩)
      · rw [← Option.some.inj he]
        exact hm

theorem Picked.threads {d : Option Signal} (hp : Picked w t mask d w') (u : Nat) :
    w'.threads u = w.threads u := by
  by_cases hu : u = t
  · rw [World.threads, World.threads, hu, hp.own]
  · rw [World.threads, World.threads, hp.other u hu]

theorem Picked.grouped {d : Option Signal} (hp : Picked w t mask d w') (hg : Grouped w) :
    Grouped w' := by
  refine hg.of_same (fun u => ?_) (fun u => (hp.thread u).signal) hp.same fun q => ?_
  · by_cases hu : u = t
    · rw [hu, hp.own]
      exact ⟨rfl, rfl⟩
    · rw [hp.other u hu]
      exact ⟨rfl, rfl⟩
  · rw [hp.signal q]
    exact hg.currTarget q

theorem Picked.trans {v : World a} {d : Option Signal} (hp : Picked w t mask none v)
    (hp' : Picked v t mask d w') : Picked w t mask d w' where
  action := hp'.action.trans hp.action
  other u hu := by rw [hp'.other u hu, hp.other u hu]
  own := by rw [hp'.own, hp.own]
  pending sig hs := hp.pending sig (hp'.pending sig hs)
  kill hk := hp'.kill ((hp.kill hk).resolve_right nofun)
  shared u sig hs := hp.shared u sig (hp'.shared u sig hs)
  same q u hu := hp'.same q u (by rw [hp.threads]; exact hu)
  thread u := ⟨(hp.thread u).toSparesThread.trans (hp'.thread u).toSparesThread,
    (hp'.thread u).exiting.trans (hp.thread u).exiting⟩
  signal u := by
    have h1 := hp.signal u
    have h2 := hp'.signal u
    rw [SameButQueue] at *
    rw [h2, h1]
  found := hp'.found

theorem recalcSigpending_eq (freezing : Bool) (s : Task a) : recalcSigpending freezing s =
    { s with tifSigpending := (recalcSigpending freezing s).tifSigpending } := by
  unfold recalcSigpending recalcSigpendingTsk
  by_cases hj : s.jobctl &&& JOBCTL_PENDING_MASK ≠ 0 ∨ s.ready = true
  · rw [if_pos hj]
    rfl
  · rw [if_neg hj]
    dsimp only
    split
    · rfl
    · rfl

theorem Picked.recalc {d : Option Signal} (hp : Picked w t mask d w') (freezing : Bool) :
    Looked w t mask d (w'.onTask t (recalcSigpending freezing)) := by
  have htold := told_recalcSigpending freezing (w'.task t)
  have heq := recalcSigpending_eq freezing (w'.task t)
  have hself := w'.onTask_task_self t (recalcSigpending freezing)
  have hne : ∀ u, u ≠ t → (w'.onTask t (recalcSigpending freezing)).task u = w'.task u :=
    fun u hu => w'.onTask_task_of_ne _ hu
  have hshared : ∀ u, ((w'.onTask t (recalcSigpending freezing)).task u).sharedPending =
      (w'.task u).sharedPending := fun u =>
    w'.onTask_field t u Task.sharedPending (by rw [heq])
  have hown := hp.own
  refine
    { action := hp.action
      other := fun u hu => by rw [hne u hu]; exact hp.other u hu
      sighand := by rw [hself, heq, hown]
      blocked := by rw [hself, heq, hown]
      own := ⟨?_, ?_, ?_, ?_, ?_, ?_, ?_⟩
      kill := fun hk => ?_
      shared := fun u sig hs => hp.shared u sig (hshared u ▸ hs)
      same := fun q u hu => by rw [hshared, hshared]; exact hp.same q u hu
      thread := hp.thread
      signal := hp.signal
      found := hp.found }
  · rw [hself, heq, hown]
  · rw [hself, heq, hown]
  · rw [hself, heq, hown]
  · intro sig hs
    rw [hself, heq] at hs
    exact hp.pending sig hs
  · rw [hself, heq, hown]
    exact ⟨rfl, rfl⟩
  · rw [hself, heq, hown]
    exact id
  · rw [hself]
    exact htold
  · rw [hself, heq]
    exact hp.kill hk

theorem Looked.stopDequeued {d : Option Signal} (hl : Looked w t mask d w') :
    Looked w t mask d (w'.onTask t fun s => { s with jobctl := s.jobctl ||| JOBCTL_STOP_DEQUEUED }) := by
  have hself := w'.onTask_task_self t fun s => { s with jobctl := s.jobctl ||| JOBCTL_STOP_DEQUEUED }
  have hne := fun u (hu : u ≠ t) =>
    w'.onTask_task_of_ne (fun s => { s with jobctl := s.jobctl ||| JOBCTL_STOP_DEQUEUED }) hu
  have hshared : ∀ u, ((w'.onTask t fun s => { s with
      jobctl := s.jobctl ||| JOBCTL_STOP_DEQUEUED }).task u).sharedPending =
        (w'.task u).sharedPending := fun u => w'.onTask_field t u Task.sharedPending rfl
  have hstop := stopBits_or (w'.task t) (k := JOBCTL_STOP_DEQUEUED) (by decide) (by decide)
  refine
    { action := hl.action
      other := fun u hu => by rw [hne u hu]; exact hl.other u hu
      sighand := by rw [hself]; exact hl.sighand
      blocked := by rw [hself]; exact hl.blocked
      own := ⟨?_, ?_, ?_, ?_, ?_, ?_, ?_, ?_⟩
      kill := fun hk => by rw [hself]; exact hl.kill hk
      shared := fun u sig hs => hl.shared u sig (hshared u ▸ hs)
      same := fun q u hu => by rw [hshared, hshared]; exact hl.same q u hu
      thread := hl.thread
      signal := hl.signal
      found := hl.found }
  · rw [hself]
    exact hl.own.threadGroup
  · rw [hself]
    exact hl.own.exitState
  · rw [hself]
    exact hl.own.state
  · rw [hself]
    exact hl.own.pending
  · rw [hself, hstop.1, hstop.2]
    exact hl.own.stop
  · rw [hself]
    dsimp only
    rw [or_and_of_other (by decide)]
    exact hl.own.traps
  · rw [hself]
    exact hl.own.told.recalced
  · rw [hself, hstop.1]
    exact hl.own.told.stop

/-- **What `dequeue_signal` leaves.** -/
theorem looked_dequeueSignal (hg : Grouped w) (freezing : Bool) :
    Looked w t mask ((dequeueSignal h j i notifier freezing w t mask).2.map Prod.fst)
      (dequeueSignal h j i notifier freezing w t mask).1 := by
  have hown := picked_dequeueFrom (t := t) j i notifier mask hg false
  unfold dequeueSignal
  cases hd : dequeueFrom j i notifier w t mask false with
  | mk v d =>
    rw [hd] at hown
    cases d with
    | some d =>
      dsimp only
      split
      · exact (hown.recalc mask freezing).stopDequeued
      · exact hown.recalc mask freezing
    | none =>
      dsimp only
      have hshared := hown.trans mask (picked_dequeueFrom (t := t) j i notifier mask
        (hown.grouped mask hg) true)
      cases hd' : dequeueFrom j i notifier v t mask true with
      | mk v' d' =>
        rw [hd'] at hshared
        cases d' with
        | none => exact hshared.recalc mask freezing
        | some d' =>
          dsimp only
          split
          · exact (hshared.recalc mask freezing).stopDequeued
          · exact hshared.recalc mask freezing

end

/-- **A look at the signals keeps the invariant**, if a thread that gets a `SIGKILL` goes
where it will die. -/
theorem Ok.looked (h : Ok w pc) {mask : Sigset a} {d : Option Signal}
    (hl : Looked w t mask d w') {k : Pc a} (hsound : (pc t).Sound (w'.task t))
    (hf : Follows (w'.task t) (w'.thread t) (pc t) k)
    (hkill : d = some SIGKILL → k.isDoomed = true) : Ok w' (Function.update pc t k) := by
  have hg := h.grouped
  have hself : Function.update pc t k t = k := Function.update_self ..
  have hne : ∀ {u}, u ≠ t → Function.update pc t k u = pc u := fun hu => Function.update_of_ne hu ..
  have hthreads : ∀ u, w'.threads u = w.threads u := fun u => by
    by_cases hu : u = t
    · rw [World.threads, World.threads, hu, hl.own.threadGroup]
    · rw [World.threads, World.threads, hl.other u hu]
  have hs : Settled (some t) w w' :=
    { threads := hthreads
      ptrace := fun u => (hl.thread u).ptrace
      task := fun u hu => ⟨(w'.task u).sharedPending, by
        rw [← hl.other u fun he => hu (he ▸ rfl)]
        exact .refl _⟩
      thread := fun u _ => hl.thread u
      traps := fun u hu _ ht => by
        rw [hl.other u fun he => hu (he ▸ rfl)]
        exact ht }
  have hgrouped : Grouped w' := by
    refine hg.of_same (fun u => ?_) (fun u => (hl.thread u).signal) hl.same fun q => ?_
    · by_cases hu : u = t
      · rw [hu]
        exact ⟨hl.own.threadGroup, hl.sighand⟩
      · rw [hl.other u hu]
        exact ⟨rfl, rfl⟩
    · rw [hl.signal q]
      exact hg.currTarget q
  have hblocked := (h.thread t).unblocked
  have hown : ThreadOk (signalGroupExit (w.signalOf t)) (w'.task t) (w'.thread t) k := by
    refine ((h.thread t).refreshed hl.own (hl.thread t).exiting (hl.thread t).ptrace ?_ hsound).goto hf
    rw [hl.blocked, (hl.thread t).realBlocked]
    exact hblocked
  have hstate : taskIsStopped (w'.task t) = taskIsStopped (w.task t) := by
    rw [taskIsStopped, taskIsStopped, hl.own.state]
  have hexit := (hl.thread t).exiting
  refine h.of_step hs hgrouped (fun d => by rw [hl.action]; exact h.dfl d)
    (fun u => signalGroupExit_of_queue (hl.signal u)) (fun u => hne) (by rw [hself]; exact hown)
    (fun u hu => ?_) (hs.groupOk hg (h.group t) (fun u _ hu => ?_) ?_ (fun u _ he => ?_)
    fun hlive sig hsig hex => ?_)
  · have hne' : u ≠ t := fun he => hu (he ▸ hg.self t)
    refine ⟨?_, ?_, hl.shared u, .of_queue (hl.signal u), ?_⟩
    · rw [hl.other u hne']
      rfl
    · rw [hl.other u hne']
      rfl
    · rw [hl.signal u]
  · have hne' : u ≠ t := fun he => hu (he ▸ rfl)
    rw [hl.other u hne', hne hne']
    exact ⟨rfl, rfl, rfl⟩
  · refine .same (fun u _ he => ?_) (.of_queue (hl.signal t)) (by rw [hl.signal t])
    rw [← Option.some.inj he]
    exact hl.own.stop.2
  · obtain rfl := Option.some.inj he
    refine ⟨fun _ hd => ?_, fun _ _ hwas => ?_, fun _ _ hwas => ?_⟩
    · rw [hself]
      rcases hd with hd | hd
      · exact (hl.kill hd).imp_right hkill
      · exact Or.inr (hf.doomed hd)
    · rw [hl.own.stop.2, hstate, hexit]
      exact hwas
    · rw [hstate, hexit]
      exact hwas
  · refine hs.taker (h.group t) hlive (fun u _ hu => hne fun he => hu (he ▸ rfl)) (fun u _ he => ?_)
      (hl.shared t sig hsig) hex
    obtain rfl := Option.some.inj he
    rw [CanTake, CanTake, hl.blocked, hexit]
    refine ⟨Or.inl, fun hcan ha => ⟨hcan, Or.inl ?_⟩⟩
    exact hl.own.told.recalced ⟨sig, Or.inr hsig, by rw [hl.blocked]; exact hcan.2⟩

/-! ### The signal mask -/

structure Retargeted (l : List Nat) (retarget : Sigset a) (w w' : World a) : Prop where
  eased : Eased w w'
  thread : w'.thread = w.thread
  signal : w'.signal = w.signal
  action : w'.action = w.action
  outside : ∀ u, u ∉ l → w'.task u = w.task u
  sighand : ∀ u, (w'.task u).sighand = (w.task u).sighand
  jobctl : ∀ u, (w'.task u).jobctl = (w.task u).jobctl
  stopped : ∀ u, (taskIsStopped (w.task u) = true → (w.task u).state = TASK_STOPPED) →
    taskIsStopped (w'.task u) = taskIsStopped (w.task u)
  taker : ∀ sig, sigismember retarget sig = true → (∃ u ∈ l, CanTake w sig u) →
    ∃ u ∈ l, CanTake w sig u ∧ (w'.task u).tifSigpending = true

namespace Retargeted

variable {l : List Nat} {retarget : Sigset a} (x : Extern a)

theorem refl (hno : ∀ sig, sigismember retarget sig = true → ∀ u ∈ l, ¬ CanTake w sig u) :
    Retargeted l retarget w w where
  eased := .refl w
  thread := rfl
  signal := rfl
  action := rfl
  outside _ _ := rfl
  sighand _ := rfl
  jobctl _ := rfl
  stopped _ _ := rfl
  taker sig hs := fun ⟨u, hu, hcan⟩ => absurd hcan (hno sig hs u hu)

theorem skip (hr : Retargeted l retarget w w')
    (hno : ∀ sig, sigismember retarget sig = true → ¬ CanTake w sig t) :
    Retargeted (t :: l) retarget w w' :=
  { hr with
    outside := fun u hu => hr.outside u fun h' => hu (List.mem_cons_of_mem t h')
    taker := fun sig hs ⟨u, hu, hcan⟩ => by
      rcases List.mem_cons.mp hu with rfl | hu
      · exact absurd hcan (hno sig hs)
      · obtain ⟨v, hv, hv'⟩ := hr.taker sig hs ⟨u, hu, hcan⟩
        exact ⟨v, List.mem_cons_of_mem t hv, hv'⟩ }

theorem wake {v : World a} (hv : v = if signalPending (w.task t) = true then w else
      w.onTask t fun s => signalWakeUp x s false) (hexit : (w.thread t).exiting = false)
    (hr : Retargeted l (sigandsets retarget (w.task t).blocked) v w') :
    Retargeted (t :: l) retarget w w' := by
  have hwoken : Retargeted [t] retarget w v ∧ (v.task t).tifSigpending = true := by
    by_cases ht : signalPending (w.task t) = true
    · rw [if_pos ht] at hv
      subst hv
      refine ⟨⟨.refl v, rfl, rfl, rfl, fun _ _ => rfl, fun _ => rfl, fun _ => rfl, fun _ _ => rfl,
        fun sig _ hex => ?_⟩, ht⟩
      obtain ⟨u, hu, hcan⟩ := hex
      refine ⟨u, hu, hcan, ?_⟩
      rw [List.mem_singleton.mp hu]
      exact ht
    · rw [if_neg ht] at hv
      subst hv
      have hself := w.onTask_task_self t fun s => signalWakeUp x s false
      have heq := signalWakeUp_eq x (w.task t)
      have htif : ((w.onTask t fun s => signalWakeUp x s false).task t).tifSigpending = true := by
        rw [hself, heq]
      refine ⟨⟨.signalWakeUpState x w t fun _ => 0, rfl, rfl, rfl, fun u hu => ?_, fun u => ?_,
        fun u => ?_, fun u hs => ?_, fun sig _ hex => ?_⟩, htif⟩
      · exact w.onTask_task_of_ne _ (List.mem_singleton.not.mp hu)
      · exact w.onTask_field t u Task.sighand (by rw [heq])
      · exact w.onTask_field t u Task.jobctl (by rw [heq])
      · by_cases hu : u = t
        · subst hu
          rw [hself]
          exact taskIsStopped_signalWakeUp x hs
        · rw [w.onTask_task_of_ne _ hu]
      · obtain ⟨u, hu, hcan⟩ := hex
        refine ⟨u, hu, hcan, ?_⟩
        rw [List.mem_singleton.mp hu]
        exact htif
  obtain ⟨hone, htif⟩ := hwoken
  have hcan : ∀ {sig u}, CanTake v sig u ↔ CanTake w sig u := fun {_ u} => by
    rw [CanTake, CanTake, hone.thread, (hone.eased.task u).blocked]
  refine
    { eased := hone.eased.trans hr.eased
      thread := hr.thread.trans hone.thread
      signal := hr.signal.trans hone.signal
      action := hr.action.trans hone.action
      outside := fun u hu => ?_
      sighand := fun u => (hr.sighand u).trans (hone.sighand u)
      jobctl := fun u => (hr.jobctl u).trans (hone.jobctl u)
      stopped := fun u hs => ?_
      taker := fun sig hs hex => ?_ }
  · obtain ⟨hne, hl⟩ := not_or.mp (List.mem_cons.not.mp hu)
    exact (hr.outside u hl).trans (hone.outside u (List.mem_singleton.not.mpr hne))
  · have hone' := hone.stopped u hs
    refine (hr.stopped u fun hyes => ?_).trans hone'
    rcases (hone.eased.task u).state with heq | heq
    · rw [heq]
      exact hs (hone' ▸ hyes)
    · rw [taskIsStopped, heq] at hyes
      cases hyes
  · obtain ⟨u, hu, hu'⟩ := hex
    by_cases hb : sigismember (w.task t).blocked sig = true
    · have hl : u ∈ l := by
        rcases List.mem_cons.mp hu with rfl | hl
        · rw [hu'.2] at hb
          cases hb
        · exact hl
      have hs' : sigismember (sigandsets retarget (w.task t).blocked) sig = true := by
        rw [sigismember_sigandsets, hs, hb]
        rfl
      obtain ⟨q, hq, hq', ht⟩ := hr.taker sig hs' ⟨u, hl, hcan.mpr hu'⟩
      exact ⟨q, List.mem_cons_of_mem t hq, hcan.mp hq', ht⟩
    · exact ⟨t, List.mem_cons_self, ⟨hexit, Bool.eq_false_iff.mpr hb⟩,
        (hr.eased.task t).flag htif⟩

end Retargeted

/-- **Each signal finds one of the threads that may be given it, and that one is told.** -/
theorem retargeted_loop (x : Extern a) (l : List Nat) (w : World a) (retarget : Sigset a) :
    Retargeted l retarget w (retargetLoop x l w retarget) := by
  induction l generalizing w retarget with
  | nil => exact .refl fun _ _ _ hu => absurd hu List.not_mem_nil
  | cons t l ih =>
    unfold retargetLoop
    by_cases hexit : (w.thread t).exiting = true
    · rw [if_pos hexit]
      refine (ih w retarget).skip fun sig _ hcan => ?_
      rw [hcan.1] at hexit
      cases hexit
    · rw [if_neg hexit]
      by_cases hnone : hasPendingSignals retarget (w.task t).blocked = false
      · rw [if_pos hnone]
        refine (ih w retarget).skip fun sig hs hcan => ?_
        exact Bool.eq_false_iff.mp hnone ((hasPendingSignals_iff _ _).mpr ⟨sig, hs, hcan.2⟩)
      · rw [if_neg hnone]
        refine Retargeted.wake x rfl (Bool.eq_false_iff.mpr hexit) ?_
        by_cases hempty : sigisemptyset (sigandsets retarget (w.task t).blocked) = true
        · rw [if_pos hempty]
          refine .refl fun sig hs => ?_
          rw [(sigisemptyset_iff _).mp hempty] at hs
          cases hs
        · rw [if_neg hempty]
          exact ih _ _

theorem retargeted (x : Extern a) (w : World a) (t : Nat) (which : Sigset a) :
    Retargeted (w.task t).threadGroup (sigandsets (w.task t).sharedPending which) w
      (retargetSharedPending x w t which) := by
  unfold retargetSharedPending
  dsimp only
  split
  · next hempty =>
    refine .refl fun sig hs => ?_
    rw [(sigisemptyset_iff _).mp hempty] at hs
    cases hs
  · exact retargeted_loop x _ w _

theorem Ok.retargeted (h : Ok w pc) {l : List Nat} {retarget : Sigset a}
    (hr : Retargeted l retarget w w') : Ok w' pc := by
  have hg := h.grouped
  have hthreads : ∀ u, w'.threads u = w.threads u := fun u =>
    congrArg (u :: ·) (hr.eased.task u).threadGroup
  have hsignal : ∀ u, w'.signalOf u = w.signalOf u := fun u => by
    rw [World.signalOf, World.signalOf, hr.signal, hr.thread]
  have hs : Settled none w w' :=
    { threads := hthreads
      ptrace := fun u => by rw [hr.thread]
      task := fun u _ => ⟨(w.task u).sharedPending, hr.eased.task u⟩
      thread := fun u _ => by
        rw [hr.thread]
        exact .refl _
      traps := fun u _ => hr.eased.traps u }
  refine h.of_settled hs (hg.of_same (fun u => ⟨(hr.eased.task u).threadGroup, hr.sighand u⟩)
    (fun u => by rw [hr.thread]) (fun q u hu => ?_) fun q => ?_)
    (fun d => by rw [hr.action]; exact h.dfl d) fun u => ?_
  · rw [(hr.eased.task u).shared, (hr.eased.task q).shared]
    exact hg.shared q u hu
  · rw [hsignal]
    exact hg.currTarget q
  · exact ⟨(stopBits_congr (hr.jobctl u)).2, hr.stopped u (h.thread u).stopped,
      fun sig hsig => (hr.eased.task u).shared ▸ hsig, .of_eq (by rw [hsignal]), by rw [hsignal]⟩

/-- What a thread has done about the others before it turns away from some signals: nothing, if
it had not been told of any or is alone. -/
def Warned (w : World a) (t : Nat) (which : Sigset a) (v : World a) : Prop :=
  ((w.task t).tifSigpending = false ∨ (w.task t).threadGroup = []) ∧ v = w ∨
    Retargeted (w.task t).threadGroup (sigandsets (w.task t).sharedPending which) w v

namespace Warned

variable {which : Sigset a} {v : World a}

theorem thread (hr : Warned w t which v) : v.thread = w.thread := by
  rcases hr with ⟨-, rfl⟩ | hr
  · rfl
  · exact hr.thread

theorem task (hr : Warned w t which v) (hg : Grouped w) : v.task t = w.task t := by
  rcases hr with ⟨-, rfl⟩ | hr
  · rfl
  · exact hr.outside t (hg.notMem_others t)

theorem signalOf (hr : Warned w t which v) (u : Nat) : v.signalOf u = w.signalOf u := by
  rcases hr with ⟨-, rfl⟩ | hr
  · rfl
  · rw [World.signalOf, World.signalOf, hr.signal, hr.thread]

theorem canTake (hr : Warned w t which v) {sig : Signal} : CanTake v sig u ↔ CanTake w sig u := by
  rcases hr with ⟨-, rfl⟩ | hr
  · exact Iff.rfl
  · rw [CanTake, CanTake, hr.thread, (hr.eased.task u).blocked]

theorem ok (hr : Warned w t which v) (h : Ok w pc) : Ok v pc := by
  rcases hr with ⟨-, rfl⟩ | hr
  · exact h
  · exact h.retargeted hr

/-- **Nobody is missed when a thread turns away.** -/
theorem find (hr : Warned w t which v) (h : Ok w pc) (hlooks : (pc t).looks = false)
    (hlive : signalGroupExit (w.signalOf t) = false) {sig : Signal}
    (hsig : sigismember (w.task t).sharedPending sig = true)
    (hwhich : CanTake w sig t → sigismember which sig = true)
    (hex : ∃ u ∈ (w.task t).threadGroup, CanTake w sig u) :
    ∃ u ∈ (w.task t).threadGroup, CanTake w sig u ∧ Alert (v.task u) (pc u) := by
  obtain ⟨u, hu, hcan⟩ := hex
  obtain ⟨q, hq, hq', ha⟩ := (h.group t).taker hlive sig hsig ⟨u, List.mem_cons_of_mem t hu, hcan⟩
  rcases List.mem_cons.mp hq with rfl | hl
  · rcases hr with ⟨ht | halone, rfl⟩ | hr
    · rcases ha with ha | ha
      · rw [ht] at ha
        cases ha
      · rw [hlooks] at ha
        cases ha
    · rw [halone] at hu
      cases hu
    · have hin : sigismember (sigandsets (w.task q).sharedPending which) sig = true := by
        rw [sigismember_sigandsets, hsig, hwhich hq']
        rfl
      obtain ⟨r, hr', hcan', htif⟩ := hr.taker sig hin ⟨u, hu, hcan⟩
      exact ⟨r, hr', hcan', Or.inl htif⟩
  · refine ⟨q, hl, hq', ?_⟩
    rcases hr with ⟨-, rfl⟩ | hr
    · exact ha
    · exact ha.imp_left (hr.eased.task q).flag

/-- The signals of a process after one of its threads has turned away. -/
theorem taker (hr : Warned w t which v) (h : Ok w pc) (hlooks : (pc t).looks = false)
    (hlive : signalGroupExit (w.signalOf t) = false) {sig : Signal}
    (hsig : sigismember (w.task t).sharedPending sig = true)
    (hother : ∀ u, u ≠ t → w'.task u = v.task u ∧ w'.thread u = v.thread u ∧ pc' u = pc u)
    (hwhich : CanTake w sig t → ¬ CanTake w' sig t → sigismember which sig = true)
    (hown : CanTake w' sig t → Alert (w'.task t) (pc' t))
    (hex : ∃ u ∈ w.threads t, CanTake w' sig u) :
    ∃ u ∈ w.threads t, CanTake w' sig u ∧ Alert (w'.task u) (pc' u) := by
  by_cases hcan : CanTake w' sig t
  · exact ⟨t, List.mem_cons_self, hcan, hown hcan⟩
  · have hiff : ∀ {u}, u ≠ t → (CanTake w' sig u ↔ CanTake w sig u) := fun {u} hu => by
      obtain ⟨htask, hthread, -⟩ := hother u hu
      rw [← hr.canTake, CanTake, CanTake, htask, hthread]
    have hne : ∀ {u}, u ∈ (w.task t).threadGroup → u ≠ t := fun hu he =>
      h.grouped.notMem_others t (he ▸ hu)
    obtain ⟨u, hu, hu'⟩ := hex
    have hl : u ∈ (w.task t).threadGroup := by
      rcases List.mem_cons.mp hu with rfl | hl
      · exact absurd hu' hcan
      · exact hl
    obtain ⟨q, hq, hq', ha⟩ := hr.find h hlooks hlive hsig (fun hc => hwhich hc hcan)
      ⟨u, hl, (hiff (hne hl)).mp hu'⟩
    refine ⟨q, List.mem_cons_of_mem t hq, (hiff (hne hq)).mpr hq', ?_⟩
    obtain ⟨htask, -, hpc⟩ := hother q (hne hq)
    rw [htask, hpc]
    exact ha

end Warned

/-- **A change of the mask keeps the invariant**, of a thread that is not about to look at its
signals anyway. -/
theorem Ok.setTaskBlocked (h : Ok w pc) (x : Extern a) (freezing : Bool) {newset : Sigset a}
    (hkill : sigismember newset SIGKILL = false) (hlooks : (pc t).looks = false)
    (hsound : ∀ s, (pc t).Sound s) : Ok (setTaskBlocked x freezing w t newset) pc := by
  obtain ⟨v, heq, hr⟩ : ∃ v, Signals.setTaskBlocked x freezing w t newset =
      v.onTask t (fun s => recalcSigpending freezing { s with blocked := newset }) ∧
      Warned w t (sigandnsets newset (w.task t).blocked) v := by
    refine ⟨_, rfl, ?_⟩
    split
    · exact Or.inr (Signals.Machine.retargeted x w t _)
    · next hno =>
      refine Or.inl ⟨?_, rfl⟩
      rw [signalPending, not_and_or, not_not] at hno
      exact hno.imp_left Bool.eq_false_iff.mpr
  rw [heq]
  have hv := hr.ok h
  have htask := hr.task h.grouped
  have htold := told_recalcSigpending freezing { v.task t with blocked := newset }
  have hrecalc := recalcSigpending_eq freezing { v.task t with blocked := newset }
  have hself := v.onTask_task_self t fun s => recalcSigpending freezing { s with blocked := newset }
  have hblocked : (recalcSigpending freezing { v.task t with blocked := newset }).blocked = newset := by
    rw [hrecalc]
  have hshared : (recalcSigpending freezing { v.task t with blocked := newset }).sharedPending =
      (w.task t).sharedPending := by rw [hrecalc, htask]
  refine hv.onTask_of_taker t (by rw [hrecalc]; exact ⟨rfl, rfl, rfl⟩) (fun _ _ => rfl) ?_
    (by rw [hrecalc]; rfl) (fun _ _ hs => by rw [hrecalc]; exact hs)
    (fun hd => by rw [hrecalc]; exact hd) fun hlive sig hsig hex => ?_
  · refine (hv.thread t).refreshed ⟨?_, ?_, ?_, ?_, ?_, ?_, htold⟩ rfl rfl ⟨?_, ?_⟩ (hsound _)
    · rw [hrecalc]
    · rw [hrecalc]
    · rw [hrecalc]
    · rw [hrecalc]
      exact fun _ => id
    · rw [hrecalc]
      exact ⟨rfl, rfl⟩
    · rw [hrecalc]
      exact id
    · rw [hrecalc]
      exact hkill
    · exact (hv.thread t).unblocked.2
  · have hthreads : v.threads t = w.threads t := by rw [World.threads, World.threads, htask]
    rw [hthreads] at hex ⊢
    rw [htask] at hsig
    rw [hr.signalOf] at hlive
    refine hr.taker h hlooks hlive hsig (fun u hu => ⟨v.onTask_task_of_ne _ hu, rfl, rfl⟩)
      (fun hcan hnot => ?_) (fun hcan => ?_) hex
    · rw [sigismember_sigandnsets, hcan.2, Bool.not_false, Bool.and_true]
      refine Bool.eq_true_of_not_eq_false fun hno => hnot ⟨hr.thread ▸ hcan.1, ?_⟩
      rw [hself, hblocked]
      exact hno
    · have hb := hcan.2
      rw [hself] at hb ⊢
      refine Or.inl (htold.recalced ⟨sig, Or.inr ?_, hb⟩)
      rw [hshared]
      exact hsig

end LinuxKerDev.Signals.Machine
