import LinuxKerDev.Signals.AllRuns

/-!
# What is delivered

A signal is off its list for a while before it is acted on: `dequeue_signal` may let go of the
lock to start a timer again, and `ptrace_signal` lets a debugger put another signal in its
place.  `Proper` is what holds of it all the same when a thread acts on it, with a handler, a
stop or its death: the thread does not block it.  The signals that `do_sigtimedwait` answers
with are its own to choose, but for `SIGKILL` and `SIGSTOP`.
-/

namespace LinuxKerDev.Signals.Machine

open Lib

variable {a : Arch} {t u : Nat}

/-- What may be shown where the step leaves `w`. -/
def Proper (j : JobHeaders a) (w : World a) : Event → Prop
  | .handled t sig => sigismember (w.task t).blocked sig = false ∧ sig ≠ SIGKILL
  | .stopping t sig => sigismember (w.task t).blocked sig = false
  | .fatal t sig => sigismember (w.task t).blocked sig = false
  | .returned _ sig => sig ≠ some SIGKILL ∧ sig ≠ some j.SIGSTOP
  | _ => True

/-- A signal that is off its list and waits for its timer is one the thread does not block. -/
def Rearms (w : World a) (pc : Nat → Pc a) : Prop :=
  ∀ t sig info, pc t = .rearm sig info → sigismember (w.task t).blocked sig = false

structure Delivers (j : JobHeaders a) (t : Nat) (r : Round a) : Prop where
  proper : ∀ e ∈ r.events, Proper j r.world e
  rearm : ∀ sig info, r.pc = .rearm sig info → sigismember (r.world.task t).blocked sig = false

def Pc.isRearm : Pc a → Bool
  | .rearm _ _ => true
  | _ => false

theorem Pc.ne_rearm {k : Pc a} (hk : k.isRearm = false) {sig : Signal} {info : Siginfo} :
    k ≠ .rearm sig info := fun he => by
  rw [he] at hk
  cases hk

theorem Delivers.of_proper {j : JobHeaders a} {r : Round a} (hk : r.pc.isRearm = false)
    (hp : ∀ e ∈ r.events, Proper j r.world e) : Delivers j t r :=
  ⟨hp, fun _ _ he => absurd he (Pc.ne_rearm hk)⟩

theorem follows_rearm {s : Task a} {m : Thread a} {sig : Signal} {info : Siginfo} (ht : Told s) :
    Follows s m .locked (.rearm sig info) :=
  ⟨rfl, nofun, nofun, fun _ => Or.inr ht, nofun, nofun, trivial⟩

section

variable (j : JobHeaders a) {w w' : World a} {pc : Nat → Pc a}

theorem proper_nil (w : World a) : ∀ e ∈ ([] : List Event), Proper j w e := nofun

theorem proper_warnings (w : World a) (warnings : List Warning) :
    ∀ e ∈ warnings.map Event.warning, Proper j w e := by
  intro e he
  obtain ⟨v, -, rfl⟩ := List.mem_map.mp he
  trivial

theorem proper_completedEvent (w : World a) (t : Nat) (done : Bool) :
    ∀ e ∈ completedEvent t done, Proper j w e := by
  intro e he
  unfold completedEvent at he
  split at he
  · rw [List.mem_singleton.mp he]
    trivial
  · cases he

theorem proper_append {w : World a} {l l' : List Event} (h : ∀ e ∈ l, Proper j w e)
    (h' : ∀ e ∈ l', Proper j w e) : ∀ e ∈ l ++ l', Proper j w e := fun e he =>
  (List.mem_append.mp he).elim (h e) (h' e)

theorem Kept.unblocked (hk : Kept w w') {sig : Signal} (hb : sigismember (w.task t).blocked sig = false) :
    sigismember (w'.task t).blocked sig = false :=
  Bool.eq_false_iff.mpr fun hb' => by
    rw [hk.blocked t sig hb'] at hb
    cases hb

theorem Rearms.of_kept (hr : Rearms w pc) (hk : Kept w w') : Rearms w' pc := fun t sig info hpc =>
  hk.unblocked (hr t sig info hpc)

end

section

variable (x : Extern a) (h : Headers a) (j : JobHeaders a) (i : Infos) {w : World a}
  {pc : Nat → Pc a}

theorem stopRound_events (w : World a) (t : Nat) (signr : BitVec 32) :
    (∀ v : World a, ∀ e ∈ (stopRound x h w t signr).events, Proper j v e) ∧
      (stopRound x h w t signr).pc.isRearm = false := by
  unfold stopRound
  generalize doSignalStop x h w t signr = d
  obtain ⟨w', stopped, warnings⟩ := d
  cases stopped with
  | none => exact ⟨fun v => proper_warnings j v warnings, rfl⟩
  | some notify =>
    exact ⟨fun v => proper_append j (proper_warnings j v warnings)
      (proper_completedEvent j v t notify), rfl⟩

theorem trapRound_events (w : World a) (t : Nat) (code : BitVec 32) (why : Cld)
    (clearCode event : Bool) (caller : Caller) :
    (∀ v : World a, ∀ e ∈ (trapRound w t code why clearCode event caller).events, Proper j v e) ∧
      (trapRound w t code why clearCode event caller).pc.isRearm = false := by
  unfold trapRound
  generalize ptraceStop w t code why event = d
  obtain ⟨w', done, warnings⟩ := d
  exact ⟨fun v => proper_append j (proper_warnings j v warnings) (proper_completedEvent j v t done),
    rfl⟩

theorem doJobctlTrap_events (w : World a) (t : Nat) :
    (∀ v : World a, ∀ e ∈ (doJobctlTrap h j w t).events, Proper j v e) ∧
      (doJobctlTrap h j w t).pc.isRearm = false := by
  have hno : ∀ (n : BitVec 32) (v : World a), ∀ e ∈ (if n = 0 then [Event.warning .noSigno] else []),
      Proper j v e := by
    intro n v e he
    split at he
    · rw [List.mem_singleton.mp he]
      trivial
    · cases he
  unfold doJobctlTrap
  dsimp only
  by_cases hseized : decide ((w.thread t).ptrace &&& h.PT_SEIZED ≠ 0) = true
  · rw [if_pos hseized]
    obtain ⟨he, hpc⟩ := trapRound_events j w t _ .stopped true true (.jobctlTrap true)
    exact ⟨fun v => proper_append j (hno _ v) (he v), hpc⟩
  · rw [if_neg hseized]
    obtain ⟨he, hpc⟩ := trapRound_events j w t _ .stopped false false (.jobctlTrap false)
    exact ⟨fun v => proper_append j (hno _ v) (he v), hpc⟩

/-- **A thread acts on a signal that it does not block.** -/
theorem delivers_actOn (hok : Ok w pc) (oneshot : Nat → Signal → Bool) {sig : Signal} {info : Siginfo}
    (hb : sigismember ((actOn x h j oneshot w t sig info).world.task t).blocked sig = false) :
    Delivers j t (actOn x h j oneshot w t sig info) := by
  have hone : ∀ {e : Event} {v : World a}, Proper j v e → ∀ e' ∈ [e], Proper j v e' := fun he e' hm => by
    rw [List.mem_singleton.mp hm]
    exact he
  revert hb
  unfold actOn
  split
  · exact fun _ => .of_proper rfl (proper_nil j w)
  · next d hd =>
    split
    · exact fun _ => .of_proper rfl (proper_nil j w)
    · next hh =>
      refine fun hb => .of_proper rfl (hone ⟨hb, fun hk => ?_⟩)
      rw [hk, hok.dfl d] at hh
      cases hh
    · split_ifs
      · exact fun _ => .of_proper rfl (proper_nil j w)
      · exact fun _ => .of_proper rfl (proper_nil j w)
      · exact fun hb => .of_proper rfl (hone hb)
      · obtain ⟨he, hpc⟩ := stopRound_events x h j w t (signr info)
        refine fun hb => .of_proper hpc fun e hm => ?_
        rcases List.mem_cons.mp hm with rfl | hm
        · exact hb
        · exact he _ e hm
      · exact fun hb => .of_proper rfl (hone hb)
      · exact fun hb => .of_proper rfl (hone hb)

theorem delivers_afterDequeue (hok : Ok w pc) (oneshot : Nat → Signal → Bool) {sig : Signal}
    {info : Siginfo} (hb : sigismember (w.task t).blocked sig = false)
    (hround : RoundOk w pc t (afterDequeue x h j oneshot w t sig info)) :
    Delivers j t (afterDequeue x h j oneshot w t sig info) := by
  have hb' := hround.kept.unblocked hb
  revert hb'
  unfold afterDequeue
  split
  · obtain ⟨he, hpc⟩ := trapRound_events j
      (w.onTask t fun s => { s with jobctl := s.jobctl ||| JOBCTL_STOP_DEQUEUED }) t
      (BitVec.ofNat 32 sig.num) .trapped false
      (decide (info.siCode >>> 8 = (j.PTRACE_EVENT_STOP.toNat : Int))) (.signal sig info)
    exact fun _ => .of_proper hpc (he _)
  · exact delivers_actOn x h j hok oneshot

/-- **A round of the loop.** -/
theorem delivers_iterate (hok : Ok w pc) (hj : JobHeaders.Sound h j) (hpc : pc t = .locked)
    (hsome : (w.task t).sighand ≠ none) (oneshot : Nat → Signal → Bool)
    (notifier : Option (Notifier a)) (freezing rearms : Bool) :
    Delivers j t (iterate x h j i oneshot notifier freezing rearms w t) := by
  obtain ⟨r, hr, hrok, he, hne⟩ : ∃ r : Round a, r = (if (w.task t).stopPending = true then
      stopRound x h w t 0 else ⟨w, .locked, [], false⟩) ∧ RoundOk w pc t r ∧
      (∀ v : World a, ∀ e ∈ r.events, Proper j v e) ∧ r.pc.isRearm = false := by
    refine ⟨_, rfl, ?_⟩
    split
    · exact ⟨hok.stopRound x h hpc BitVec.zero_and, stopRound_events x h j w t 0⟩
    · refine ⟨⟨?_, quiet_nil, .refl w, rfl, .refl w, rfl⟩, fun v => proper_nil j v, rfl⟩
      rw [← hpc, Function.update_eq_self]
      exact hok
  unfold iterate
  dsimp only
  rw [← hr]
  by_cases hu : r.unlocks = true
  · rw [if_pos hu]
    exact .of_proper hne (he _)
  · rw [if_neg hu]
    have hrpc : Ok r.world pc := by
      have hok' := hrok.ok
      rw [hrok.eq_locked hu, ← hpc, Function.update_eq_self] at hok'
      exact hok'
    by_cases ht : (r.world.task t).jobctl &&& JOBCTL_TRAP_MASK ≠ 0
    · rw [if_pos ht]
      obtain ⟨he', hne'⟩ := doJobctlTrap_events h j r.world t
      exact .of_proper hne' (proper_append j (he _) (he' _))
    · rw [if_neg ht]
      have hlook := looked_dequeueSignal (t := t) h j i notifier (r.world.task t).blocked hrpc.grouped
        freezing
      cases hd : dequeueSignal h j i notifier freezing r.world t (r.world.task t).blocked with
      | mk v d =>
        rw [hd] at hlook
        cases d with
        | none => exact .of_proper rfl (he _)
        | some d =>
          obtain ⟨sig, info⟩ := d
          have hb : sigismember (v.task t).blocked sig = false := by
            rw [hlook.blocked]
            exact hlook.found sig rfl
          dsimp only
          split
          · refine ⟨he _, fun sig' info' h' => ?_⟩
            obtain ⟨rfl, -⟩ := Pc.rearm.inj h'
            exact hb
          · have hgot : Ok v (Function.update pc t (.rearm sig info)) := by
              refine hrpc.looked hlook (by rw [hpc]; trivial) ?_ fun hk =>
                decide_eq_true (Option.some.inj hk)
              rw [hpc]
              exact follows_rearm hlook.own.told
            have hround := hgot.afterDequeue x h j hj oneshot info
              (by rw [Function.update_self]; exact given_rearm)
              (by rw [(hrok.kept.trans (.of_looked hlook)).sighand]; exact hsome)
            have hafter := delivers_afterDequeue x h j hgot oneshot hb hround
            exact ⟨proper_append j (he _) hafter.proper, hafter.rearm⟩

/-- A debugger's signal is acted on only if the thread does not block it. -/
theorem delivers_afterTrap (hok : Ok w pc) (oneshot : Nat → Signal → Bool) (alloc hidden : Bool)
    (pid : Int) (uid : Nat) {caller : Caller} {r : Round a} (hk : Kept w r.world)
    (hr : afterTrap x h j oneshot alloc hidden pid uid w t caller = some r) : Delivers j t r := by
  unfold afterTrap at hr
  cases caller with
  | jobctlTrap seized =>
    obtain rfl := Option.some.inj hr
    exact .of_proper rfl (proper_nil j _)
  | notify exits =>
    obtain rfl := Option.some.inj hr
    refine .of_proper ?_ (proper_nil j _)
    cases exits with
    | _ => rfl
  | signal sig₀ info =>
    dsimp only at hr
    split at hr
    · obtain rfl := Option.some.inj hr
      exact .of_proper rfl (proper_nil j _)
    · split at hr
      · cases hr
      · next sig _ =>
        split at hr
        · obtain rfl := Option.some.inj hr
          exact .of_proper rfl (proper_nil j _)
        · next hb =>
          obtain rfl := Option.some.inj hr
          exact delivers_actOn x h j (hok.setExitCode (t := t) 0) oneshot
            (hk.unblocked (Bool.eq_false_iff.mpr hb))

end

/-! ### The steps -/

theorem Wait.after_isRearm (k : Wait a) : k.after.isRearm = false := by
  cases k with
  | _ => rfl

theorem Then.pc_isRearm (k : Then) : (k.pc : Pc a).isRearm = false := by
  cases k with
  | _ => rfl

structure Shows (j : JobHeaders a) (r : Sys a × List Event) : Prop where
  proper : ∀ e ∈ r.2, Proper j r.1.world e
  rearms : Rearms r.1.world r.1.pc

/-- A step of `do_sigtimedwait` answers with what it waited for. -/
theorem proper_returned {j : JobHeaders a} {mask : Sigset a} (hm : Covers j mask) (w : World a)
    (t : Nat) {d : Option Signal} (hd : ∀ sig, d = some sig → sigismember mask sig = false) :
    ∀ e ∈ [Event.returned t d], Proper j w e := by
  intro e he
  rw [List.mem_singleton.mp he]
  have hno : ∀ sig, sig = SIGKILL ∨ sig = j.SIGSTOP → d ≠ some sig := fun sig hsig h' => by
    have hout := hd sig h'
    rw [hm sig hsig] at hout
    cases hout
  exact ⟨hno _ (Or.inl rfl), hno _ (Or.inr rfl)⟩

namespace Rearms

variable {j : JobHeaders a} {s : Sys a} {w : World a} {k : Pc a} {r : Sys a × List Event}

theorem setWorld (hr : Rearms s.world s.pc) (hk : Kept s.world w) : Shows j (s.setWorld w, []) :=
  ⟨proper_nil j _, hr.of_kept hk⟩

theorem goes (hr : Rearms s.world s.pc)
    (hb : ∀ u, u ≠ t → ∀ sig, sigismember (w.task u).blocked sig = true →
      sigismember (s.world.task u).blocked sig = true)
    (hk : ∀ sig info, k = .rearm sig info → sigismember (w.task t).blocked sig = false) :
    Rearms w (Function.update s.pc t k) := by
  intro u sig info hpc
  by_cases hu : u = t
  · subst hu
    rw [Function.update_self] at hpc
    exact hk sig info hpc
  · rw [Function.update_of_ne hu] at hpc
    refine Bool.eq_false_iff.mpr fun hm => ?_
    have hno := hr u sig info hpc
    rw [hb u hu sig hm] at hno
    cases hno

theorem arrive (hr : Rearms s.world s.pc) (hk : Kept s.world w) (hne : k.isRearm = false)
    (hs : (s.setWorld w).arrive t k = some r) : Shows j r := by
  obtain rfl := Option.some.inj hs
  exact ⟨proper_nil j _, hr.goes (fun u _ => hk.blocked u) fun _ _ he => absurd he (Pc.ne_rearm hne)⟩

theorem ends (hr : Rearms s.world s.pc) {round : Round a} (hd : Delivers j t round)
    (hb : ∀ u, u ≠ t → ∀ sig, sigismember (round.world.task u).blocked sig = true →
      sigismember (s.world.task u).blocked sig = true)
    (hs : s.Ends t round r) : Shows j r := by
  refine ⟨fun e he => ?_, ?_⟩
  · rw [hs.world]
    rcases hs.events e he with hm | ⟨call, rfl⟩
    · exact hd.proper e hm
    · trivial
  · rw [hs.world, hs.pc]
    exact hr.goes hb hd.rearm

theorem locally {events : List Event} (hs : s.locally t w k events = some r) (hr : Rearms s.world s.pc)
    (hb : ∀ u, u ≠ t → ∀ sig, sigismember (w.task u).blocked sig = true →
      sigismember (s.world.task u).blocked sig = true)
    (hne : k.isRearm = false) (he : ∀ e ∈ events, Proper j w e) : Shows j r :=
  hr.ends (.of_proper hne he) hb (Sys.ends_locked hs).1

end Rearms

section

variable (x : Extern a) (o : Outer x) (h : Headers a) (j : JobHeaders a) (i : Infos) {s : Sys a}
  {r : Sys a × List Event}

theorem delivers_relockRound (w : World a) (t : Nat) : Delivers j t (relockRound w t) := by
  unfold relockRound
  dsimp only
  split
  · exact .of_proper rfl (proper_nil j _)
  · exact .of_proper rfl (proper_nil j _)

/-- A thread that takes its lock for a round. -/
theorem Rearms.locked (hrearm : Rearms s.world s.pc) {round : Round a} (hr : s.locked t round = some r)
    (hd : Delivers j t round) (hround : (s.world.task t).sighand ≠ none → RoundOk s.world s.pc t round) :
    Shows j r := by
  obtain ⟨hends, hsome⟩ := Sys.ends_locked hr
  exact hrearm.ends hd (fun u _ => (hround hsome).kept.blocked u) hends

theorem Rearms.step_ptraceNotify (hs : SysOk j s) (hrearm : Rearms s.world s.pc) {exits : Bool}
    (hmay : MayTrap (s.pc t) (.notify exits) .trapped) (hn : o.notifies (s.world.thread t) = true)
    {exitCode : BitVec 32} (hr : s.ptraceNotify j t exitCode exits = some r) : Shows j r := by
  unfold Sys.ptraceNotify at hr
  split at hr
  · cases hr
  · obtain ⟨he, hpc⟩ := trapRound_events j s.world t exitCode .trapped true
      (decide (exitCode >>> 8 = j.PTRACE_EVENT_STOP)) (.notify exits)
    exact hrearm.locked j hr (.of_proper hpc (he _)) fun _ => hs.notified x o j hmay hn exitCode

theorem Rearms.step_tell (hs : SysOk j s) (hrearm : Rearms s.world s.pc) {alloc hidden : Bool}
    {todo : List Notice} {k : Then} (hpc : s.pc t = .telling todo k)
    (hr : s.tell x h t alloc hidden todo k = some r) : Shows j r := by
  cases todo with
  | nil => exact hrearm.arrive (hs.ok.settle hpc).2 k.pc_isRearm hr
  | cons n todo =>
    unfold Sys.tell at hr
    dsimp only at hr
    split at hr
    · obtain ⟨r', hr', rfl⟩ := Option.map_eq_some_iff.mp hr
      refine ⟨fun e he => ?_, hrearm.goes (fun u _ => (kept_doNotifyParentCldstop x h hr').blocked u)
        fun _ _ h' => by cases h'⟩
      rw [List.mem_singleton.mp he]
      trivial
    · cases hr

theorem Rearms.step_sigtimedwait (hs : SysOk j s) (hrearm : Rearms s.world s.pc)
    {notifier : Option (Notifier a)} {freezing timeout : Bool} {which : Sigset a}
    (hr : s.sigtimedwait h j i t notifier freezing timeout which = some r) : Shows j r := by
  have hlook := looked_dequeueSignal (t := t) h j i notifier (waitMask j which) hs.ok.grouped freezing
  unfold Sys.sigtimedwait at hr
  dsimp only at hr
  generalize dequeueSignal h j i notifier freezing s.world t (waitMask j which) = d at hlook hr
  obtain ⟨w, d⟩ := d
  have hk := Kept.of_looked hlook
  have hreturned := proper_returned (covers_waitMask which) w t hlook.found
  cases d with
  | some d => exact Rearms.locally hr hrearm (fun u _ => hk.blocked u) rfl hreturned
  | none =>
    dsimp only at hr
    split at hr
    · exact Rearms.locally hr hrearm (fun u _ => hk.blocked u) rfl hreturned
    · refine Rearms.locally hr hrearm (fun u hu sig hm => ?_) rfl (proper_nil j _)
      rw [World.onTask_task_of_ne _ _ hu] at hm
      exact hk.blocked u sig hm

theorem Rearms.step_sigtimedwaitEnd (hs : SysOk j s) (hrearm : Rearms s.world s.pc) {mask : Sigset a}
    (hpc : s.pc t = .waited mask) {notifier : Option (Notifier a)} {freezing : Bool}
    (hr : s.sigtimedwaitEnd x h j i t mask notifier freezing = some r) : Shows j r := by
  have hlook := looked_dequeueSignal (t := t) h j i notifier mask
    (hs.unwaited x j hpc freezing).2.grouped freezing
  unfold Sys.sigtimedwaitEnd at hr
  refine Rearms.locally hr hrearm (fun u hu sig hm => ?_) rfl
    (proper_returned (hs.waits t mask (by rw [hpc]; rfl)) _ t hlook.found)
  have hm' := (Kept.of_looked hlook).blocked u sig hm
  rw [World.onThread_task, (setTaskBlocked_kept x freezing s.world t _).2.1, if_neg hu] at hm'
  exact hm'

theorem Rearms.step_rtSigaction (hj : JobHeaders.Sound h j) (hs : SysOk j s)
    (hrearm : Rearms s.world s.pc) {sig : Signal} {act : SigAction} {saMask : Sigset a}
    {oneshot : Bool} (hr : s.rtSigaction h j t sig act saMask oneshot = some r) : Shows j r := by
  unfold Sys.rtSigaction at hr
  split at hr
  · cases hr
  · obtain ⟨r', hr', hr⟩ := Option.bind_eq_some_iff.mp hr
    have hk := (hs.ok.doSigaction hj hr').2.1
    split at hr
    · exact Rearms.locally hr hrearm (fun u _ => hk.blocked u) rfl (proper_nil j _)
    · exact Rearms.locally hr hrearm (fun _ _ _ hm => hm) rfl (proper_nil j _)

theorem Rearms.step_exit (hs : SysOk j s) (hrearm : Rearms s.world s.pc) (hr : s.exit x t = some r) :
    Shows j r := by
  have hb : ∀ u, u ≠ t → ∀ sig,
      sigismember ((exitSignals x s.world t).1.task u).blocked sig = true →
        sigismember (s.world.task u).blocked sig = true :=
    fun u _ => (kept_exitSignals x hs.ok.grouped).blocked u
  have hshown : ∀ w : World a, ∀ e ∈ (exitSignals x s.world t).2.2.map .warning ++
      completedEvent t (exitSignals x s.world t).2.1, Proper j w e := fun w =>
    proper_append j (proper_warnings j w _) (proper_completedEvent j w t _)
  have hgo : ∀ todo, Rearms (exitSignals x s.world t).1
      (Function.update s.pc t (.telling todo .gone)) := fun todo =>
    hrearm.goes hb fun _ _ h' => by cases h'
  unfold Sys.exit at hr
  dsimp only at hr
  split at hr
  · split at hr
    · obtain rfl := Option.some.inj hr
      exact ⟨hshown _, hgo _⟩
    · exact Rearms.locally hr hrearm hb rfl (hshown _)
  · split at hr
    · obtain rfl := Option.some.inj hr
      exact ⟨hshown _, hgo _⟩
    · cases hr
  · cases hr

theorem Rearms.mask (freezing : Bool) (set : Sigset a) : ∀ u, u ≠ t → ∀ sig,
    sigismember ((setTaskBlocked x freezing s.world t set).task u).blocked sig = true →
      sigismember (s.world.task u).blocked sig = true := fun u hu sig hm => by
  rw [(setTaskBlocked_kept x freezing s.world t set).2.1, if_neg hu] at hm
  exact hm

/-- **Every step** shows nothing improper, and keeps a signal that waits for its timer unblocked. -/
theorem Rearms.step (hj : JobHeaders.Sound h j) (hs : SysOk j s) (hrearm : Rearms s.world s.pc)
    {act : Act a} (hr : step x o h j i s act = some r) : Shows j r := by
  cases act with
  | send alloc hidden sig info p group =>
    dsimp only [Machine.step] at hr
    split at hr
    · obtain rfl := Option.some.inj hr
      exact hrearm.setWorld (.of_spares (.sendSignal₀ x h alloc _ sig info p group _))
    · cases hr
  | sendSigqueue q p group =>
    dsimp only [Machine.step] at hr
    split at hr
    · obtain rfl := Option.some.inj hr
      exact hrearm.setWorld (kept_lockedSendSigqueue x h _ q p group)
    · cases hr
  | forceSig alloc hidden sig info p =>
    dsimp only [Machine.step] at hr
    split at hr
    · obtain ⟨r', hr', rfl⟩ := Option.map_eq_some_iff.mp hr
      exact hrearm.setWorld (kept_forceSigInfo x h hr')
    · cases hr
  | deliver p =>
    dsimp only [Machine.step] at hr
    split at hr
    · exact hrearm.arrive (.refl _) rfl hr
    · cases hr
  | lock p =>
    dsimp only [Machine.step] at hr
    split at hr
    · next hpc =>
      exact hrearm.locked j hr (delivers_relockRound j s.world p) fun _ => hs.relocked j hpc
    · cases hr
  | tell p alloc hidden =>
    dsimp only [Machine.step] at hr
    split at hr
    · next hpc => exact hrearm.step_tell x h j hs hpc hr
    · cases hr
  | iterate p notifier freezing rearms =>
    dsimp only [Machine.step] at hr
    split at hr
    · next hpc =>
      obtain ⟨d, hd, -⟩ := hs.locked p (by rw [hpc]; rfl)
      have hsome : (s.world.task p).sighand ≠ none := by
        rw [hd]
        exact Option.some_ne_none d
      exact hrearm.ends
        (delivers_iterate x h j i hs.ok hj hpc hsome s.oneshot notifier freezing rearms)
        (fun u _ => (hs.iterated x h j i hj hpc notifier freezing rearms).2.kept.blocked u)
        (Sys.ends_of_some hr)
    · cases hr
  | rearmed p =>
    dsimp only [Machine.step] at hr
    split at hr
    · next sig info hpc =>
      obtain ⟨hends, hsome⟩ := Sys.ends_locked hr
      have hround := hs.rearmed x h j hj hpc hsome
      exact hrearm.ends (delivers_afterDequeue x h j hs.ok s.oneshot (hrearm p sig info hpc) hround)
        (fun u _ => hround.kept.blocked u) hends
    · cases hr
  | orphaned p orphaned =>
    dsimp only [Machine.step] at hr
    split at hr
    · next info hpc =>
      split at hr
      · exact hrearm.arrive (.refl _) rfl hr
      · obtain ⟨he, hne⟩ := stopRound_events x h j s.world p (signr info)
        exact hrearm.locked j hr (.of_proper hne (he _)) fun _ => hs.orphaned x h j hpc
    · cases hr
  | trap p coredump =>
    dsimp only [Machine.step] at hr
    split at hr
    · unfold Sys.trap at hr
      split at hr
      · exact hrearm.arrive (.refl _) rfl hr
      · exact hrearm.arrive (.refl _) rfl hr
    · cases hr
  | resumed p alloc hidden pid uid =>
    dsimp only [Machine.step] at hr
    split at hr
    · next hpc =>
      obtain ⟨round, hround, hr⟩ := Option.bind_eq_some_iff.mp hr
      obtain ⟨hends, hsome⟩ := Sys.ends_locked hr
      obtain ⟨hok, hk, hrok⟩ := hs.resumed x h j hj hpc hsome hround
      exact hrearm.ends (delivers_afterTrap x h j hok s.oneshot alloc hidden pid uid hk hround)
        (fun u _ => hrok.kept.blocked u) hends
    · cases hr
  | ptraceNotify p exitCode =>
    obtain ⟨exits, hmay, -, hn, hr⟩ := notify_cases x o h j i hr
    exact hrearm.step_ptraceNotify x o j hs hmay hn hr
  | ptraceResume p code =>
    dsimp only [Machine.step] at hr
    split at hr
    · obtain ⟨w, hw, rfl⟩ := Option.map_eq_some_iff.mp hr
      obtain ⟨-, rfl⟩ := o.ptraceResume_spec hw
      refine hrearm.setWorld ((Kept.onThread s.world p rfl).trans (.onTask _ p ?_))
      rw [x.wakeUpState_eq]
      exact ⟨rfl, rfl⟩
    · cases hr
  | ptraceListen p =>
    dsimp only [Machine.step] at hr
    split at hr
    · split at hr
      · obtain ⟨w, hw, rfl⟩ := Option.map_eq_some_iff.mp hr
        obtain rfl := o.ptraceListen_spec hw
        exact hrearm.setWorld (.onTask _ p ⟨rfl, rfl⟩)
      · cases hr
    · cases hr
  | setRunning p running =>
    obtain rfl := Option.some.inj hr
    exact hrearm.setWorld (.onThread _ p rfl)
  | wake p =>
    obtain rfl := Option.some.inj hr
    refine hrearm.setWorld (.onTask _ p ?_)
    rw [x.wakeUpState_eq]
    exact ⟨rfl, rfl⟩
  | sleep p state =>
    dsimp only [Machine.step] at hr
    split at hr
    · split at hr
      · exact hrearm.arrive (.refl _) rfl hr
      · cases hr
    · cases hr
  | setState p =>
    dsimp only [Machine.step] at hr
    split at hr
    · exact hrearm.arrive (.onTask _ p ⟨rfl, rfl⟩) rfl hr
    · cases hr
  | schedule p =>
    dsimp only [Machine.step] at hr
    split at hr
    · next k _ =>
      split at hr
      · exact hrearm.arrive (.refl _) rfl hr
      · exact hrearm.arrive (.onTask _ p ⟨rfl, rfl⟩) k.after_isRearm hr
    · cases hr
  | awoken p =>
    dsimp only [Machine.step] at hr
    split at hr
    · next k _ =>
      split at hr
      · exact hrearm.arrive (.refl _) k.after_isRearm hr
      · cases hr
    · cases hr
  | rtSigprocmask p freezing how nset =>
    dsimp only [Machine.step] at hr
    split at hr
    · exact Rearms.locally hr hrearm (Rearms.mask x freezing _) rfl (proper_nil j _)
    · cases hr
  | rtSigsuspend p freezing unewset =>
    dsimp only [Machine.step] at hr
    split at hr
    · exact Rearms.locally hr hrearm (Rearms.mask x freezing _) rfl
        (proper_nil j _)
    · cases hr
  | restoreSigmask p freezing =>
    dsimp only [Machine.step] at hr
    split at hr
    · exact Rearms.locally hr hrearm (Rearms.mask x freezing _) rfl
        (proper_nil j _)
    · cases hr
  | pause p =>
    dsimp only [Machine.step] at hr
    split at hr
    · split at hr
      · exact hrearm.arrive (.refl _) rfl hr
      · exact hrearm.arrive (.refl _) rfl hr
    · split at hr
      · exact hrearm.arrive (.refl _) rfl hr
      · exact hrearm.arrive (.refl _) rfl hr
    · cases hr
  | sigtimedwait p notifier freezing timeout which =>
    dsimp only [Machine.step] at hr
    split at hr
    · exact hrearm.step_sigtimedwait h j i hs hr
    · cases hr
  | sigtimedwaitEnd p notifier freezing =>
    dsimp only [Machine.step] at hr
    split at hr
    · next hpc => exact hrearm.step_sigtimedwaitEnd x h j i hs hpc hr
    · cases hr
  | rtSigaction p sig act saMask oneshot =>
    dsimp only [Machine.step] at hr
    split at hr
    · exact hrearm.step_rtSigaction h j hj hs hr
    · cases hr
  | coredump p code =>
    dsimp only [Machine.step] at hr
    split at hr
    · obtain ⟨w, hw, hr⟩ := Option.bind_eq_some_iff.mp hr
      obtain ⟨-, rfl⟩ := o.doCoredump_spec hw
      exact Rearms.locally hr hrearm (fun u _ => (kept_killGroup x s.world p code).blocked u) rfl
        (proper_nil j _)
    · cases hr
  | dumped p wrote =>
    dsimp only [Machine.step] at hr
    split at hr
    · split at hr
      · cases hr
      · refine hrearm.arrive ?_ rfl hr
        split
        · exact .of_spares (.onSignal s.world p _)
        · exact .refl _
    · cases hr
  | groupExit p code =>
    have hgo : s.groupExit x o p code = some r → Shows j r := by
      intro hr
      obtain ⟨w, hw, hr⟩ := Option.bind_eq_some_iff.mp hr
      obtain ⟨-, rfl⟩ := o.doGroupExit_spec hw
      exact Rearms.locally hr hrearm (fun u _ => (kept_killGroup x s.world p code).blocked u) rfl
        (proper_nil j _)
    dsimp only [Machine.step] at hr
    split at hr
    · exact hgo hr
    · exact hgo hr
    · cases hr
  | exit p => exact hrearm.step_exit x j hs hr

end

/-! ### Every run -/

section

variable {x : Extern a} {o : Outer x} {h : Headers a} {j : JobHeaders a} {i : Infos} {s₀ : Sys a}

theorem rearms_of_run {as : List (Act a)} {es : List Event} {s : Sys a} (hj : JobHeaders.Sound h j)
    (h₀ : Fresh j s₀) (hr : Run (step x o h j i) s₀ as es s) : Rearms s.world s.pc :=
  hr.inv_using (I := fun _ s => Rearms s.world s.pc) (K := fun _ s => SysOk j s)
    (fun hr' => (sysOk_of_run hj h₀ hr').1)
    (fun t sig info hpc => by
      rw [h₀.user] at hpc
      cases hpc)
    fun hs hrearm hf => (hrearm.step x o h j i hj hs hf).rearms

/-- **No thread acts on a signal that it blocks**, be it one that waited for its timer or one
that a debugger put in another's place; `SIGKILL` is never handled; and `do_sigtimedwait`
returns neither `SIGKILL` nor `SIGSTOP`. -/
theorem delivered_unblocked (hj : JobHeaders.Sound h j) (h₀ : Fresh j s₀) (as : List (Act a)) :
    AllSteps (step x o h j i) s₀
      (fun _ s act => ∀ r, step x o h j i s act = some r → ∀ e ∈ r.2, Proper j r.1.world e) as :=
  fun _ _ _ _ _ _ hr _ hstep =>
    ((rearms_of_run hj h₀ hr).step x o h j i hj (sysOk_of_run hj h₀ hr).1 hstep).proper

/-- Thread 0 runs its handler of `SIGUSR1`. -/
theorem delivered_unblocked_pair : ∃ es s,
    Run pairStep pair [.rtSigaction 0 SIGUSR1 ⟨.user, false, false⟩ sigemptyset false, usr1,
      .deliver 0, .lock 0] es s ∧
    ∃ r, pairStep s (.iterate 0 none false false) = some r ∧ .handled 0 SIGUSR1 ∈ r.2 ∧
      sigismember (r.1.world.task 0).blocked SIGUSR1 = false := by
  obtain ⟨es, s, hr, hany⟩ := exists_run pairStep pair [.rtSigaction 0 SIGUSR1 ⟨.user, false, false⟩
      sigemptyset false, usr1, .deliver 0, .lock 0]
    (fun _ s => (pairStep s (.iterate 0 none false false)).any
      (fun r => decide (.handled 0 SIGUSR1 ∈ r.2)) = true) (by decide +kernel)
  obtain ⟨r, hstep, hmem⟩ := (Option.any_eq_true _ _).mp hany
  have hproper := delivered_unblocked (JobHeaders.sound_x86 _) fresh_pair _ _ _ [] rfl es s hr r
    hstep _ (of_decide_eq_true hmem)
  exact ⟨es, s, hr, r, hstep, of_decide_eq_true hmem, hproper.1⟩

end

end LinuxKerDev.Signals.Machine
