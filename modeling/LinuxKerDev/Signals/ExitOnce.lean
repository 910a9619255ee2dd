import LinuxKerDev.Signals.Delivered

/-!
# A process exits once

`complete_signal`, `do_group_exit` and `do_coredump` all make a process exit, with the code of a
signal or with one of their own.  Whoever comes first settles it: every step keeps `Lasts`, but
for `do_coredump`, which marks the code when the dump is written (`Settles`).
-/

namespace LinuxKerDev.Signals.Machine

open Lib

variable {a : Arch} {t : Nat}

/-- A process that exits does so still, with the code that it had or with that code marked. -/
def Settles (w w' : World a) : Prop :=
  ∀ p, signalGroupExit (w.signalOf p) = true →
    signalGroupExit (w'.signalOf p) = true ∧
      ((w'.signalOf p).groupExitCode = (w.signalOf p).groupExitCode ∨
        (w'.signalOf p).groupExitCode = (w.signalOf p).groupExitCode ||| 0x80)

theorem Lasts.settles {w w' : World a} (hl : Lasts w w') : Settles w w' := fun p hge =>
  ⟨(hl p hge).1, Or.inl (hl p hge).2⟩

theorem Settles.trans {w w' w'' : World a} (hs : Settles w w') (hs' : Settles w' w'') :
    Settles w w'' := by
  intro p hge
  obtain ⟨hge', hcode⟩ := hs p hge
  obtain ⟨hge'', hcode'⟩ := hs' p hge'
  refine ⟨hge'', ?_⟩
  rcases hcode with hcode | hcode
  · rwa [hcode] at hcode'
  · rw [hcode, Nat.or_assoc, Nat.or_self, or_self] at hcode'
    exact Or.inr hcode'

theorem settles_mark (w : World a) (t : Nat) :
    Settles w (w.onSignal t fun m => { m with groupExitCode := m.groupExitCode ||| 0x80 }) := by
  intro p hge
  by_cases hsame : (w.thread p).signal = (w.thread t).signal
  · have heq : w.signalOf p = w.signalOf t := congrArg w.signal hsame
    rw [World.signalOf_onSignal_of_eq _ _ hsame, heq]
    exact ⟨heq ▸ hge, Or.inr rfl⟩
  · rw [World.signalOf_onSignal_of_ne _ _ hsame]
    exact ⟨hge, Or.inl rfl⟩

section

variable {s : Sys a} {w : World a} {k : Pc a} {r : Sys a × List Event}

theorem Lasts.arrive (hl : Lasts s.world w) (hr : (s.setWorld w).arrive t k = some r) :
    Lasts s.world r.1.world := by
  obtain rfl := Option.some.inj hr
  exact hl

theorem Lasts.locally {v : World a} {events : List Event} (hr : s.locally t w k events = some r)
    (hl : Lasts v w) : Lasts v r.1.world := by
  rw [(Sys.ends_locked hr).1.world]
  exact hl

theorem Lasts.ends {round : Round a} (hl : Lasts s.world round.world) (he : s.Ends t round r) :
    Lasts s.world r.1.world := by
  rw [he.world]
  exact hl

theorem Lasts.locked {round : Round a} (hr : s.locked t round = some r)
    (hl : (s.world.task t).sighand ≠ none → Lasts s.world round.world) : Lasts s.world r.1.world :=
  (hl (Sys.ends_locked hr).2).ends (Sys.ends_locked hr).1

end

section

variable (x : Extern a) (o : Outer x) (h : Headers a) (j : JobHeaders a) (i : Infos) {s : Sys a}
  {r : Sys a × List Event}

theorem SysOk.lasts_tell (hj : JobHeaders.Sound h j) (hs : SysOk j s) {alloc hidden : Bool}
    {todo : List Notice} {k : Then} (hr : s.tell x h t alloc hidden todo k = some r) :
    Lasts s.world r.1.world := by
  cases todo with
  | nil =>
    refine Lasts.arrive ?_ hr
    cases k with
    | untrapped tr =>
      unfold Then.settle
      dsimp only
      split
      · exact (Lasts.onTask s.world t _).trans (.onThread _ t rfl)
      · exact .onTask s.world t _
    | _ => exact .refl _
  | cons n todo =>
    unfold Sys.tell at hr
    dsimp only at hr
    split at hr
    · obtain ⟨r', hr', rfl⟩ := Option.map_eq_some_iff.mp hr
      exact lasts_doNotifyParentCldstop x h hj hs.ok hr'
    · cases hr

theorem lasts_relockRound (w : World a) (t : Nat) : Lasts w (relockRound w t).world := by
  unfold relockRound
  dsimp only
  split
  · exact .clearCld w t
  · exact .refl w

theorem SysOk.lasts_ptraceNotify (hs : SysOk j s) {exits : Bool}
    (hmay : MayTrap (s.pc t) (.notify exits) .trapped) (hn : o.notifies (s.world.thread t) = true)
    {exitCode : BitVec 32} (hr : s.ptraceNotify j t exitCode exits = some r) :
    Lasts s.world r.1.world := by
  unfold Sys.ptraceNotify at hr
  split at hr
  · cases hr
  · exact Lasts.locked hr fun _ => (hs.notified x o j hmay hn exitCode).lasts

theorem SysOk.lasts_sigtimedwait (hs : SysOk j s) {notifier : Option (Notifier a)}
    {freezing timeout : Bool} {which : Sigset a}
    (hr : s.sigtimedwait h j i t notifier freezing timeout which = some r) :
    Lasts s.world r.1.world := by
  have hlook := looked_dequeueSignal (t := t) h j i notifier (waitMask j which) hs.ok.grouped freezing
  unfold Sys.sigtimedwait at hr
  dsimp only at hr
  generalize dequeueSignal h j i notifier freezing s.world t (waitMask j which) = d at hlook hr
  obtain ⟨w, d⟩ := d
  have hl := Lasts.looked hlook
  cases d with
  | some d => exact Lasts.locally hr hl
  | none =>
    dsimp only at hr
    split at hr
    · exact Lasts.locally hr hl
    · exact Lasts.locally hr ((hl.trans (.onThread w t rfl)).trans (.onTask _ t _))

theorem SysOk.lasts_sigtimedwaitEnd (hs : SysOk j s) {mask : Sigset a} (hpc : s.pc t = .waited mask)
    {notifier : Option (Notifier a)} {freezing : Bool}
    (hr : s.sigtimedwaitEnd x h j i t mask notifier freezing = some r) : Lasts s.world r.1.world := by
  have hlook := looked_dequeueSignal (t := t) h j i notifier mask
    (hs.unwaited x j hpc freezing).2.grouped freezing
  unfold Sys.sigtimedwaitEnd at hr
  have hback := (Lasts.setTaskBlocked x freezing s.world t (s.world.thread t).realBlocked).trans
    (.onThread _ t (f := fun m => { m with realBlocked := sigemptyset }) rfl)
  exact Lasts.locally hr (hback.trans (.looked hlook))

theorem SysOk.lasts_rtSigaction (hj : JobHeaders.Sound h j) (hs : SysOk j s) {sig : Signal}
    {act : SigAction} {saMask : Sigset a} {oneshot : Bool}
    (hr : s.rtSigaction h j t sig act saMask oneshot = some r) : Lasts s.world r.1.world := by
  unfold Sys.rtSigaction at hr
  split at hr
  · cases hr
  · obtain ⟨r', hr', hr⟩ := Option.bind_eq_some_iff.mp hr
    split at hr
    · exact Lasts.locally hr (hs.ok.doSigaction hj hr').2.2
    · exact Lasts.locally hr (.refl _)

theorem SysOk.lasts_groupExit (hs : SysOk j s) {code : Nat} (hr : s.groupExit x o t code = some r) :
    Lasts s.world r.1.world := by
  obtain ⟨w, hw, hr⟩ := Option.bind_eq_some_iff.mp hr
  obtain ⟨hlive, rfl⟩ := o.doGroupExit_spec hw
  exact Lasts.locally hr (lasts_killGroup x hs.ok.grouped code hlive)

theorem SysOk.lasts_coredump (hs : SysOk j s) {code : Nat} (hr : s.coredump x o t code = some r) :
    Lasts s.world r.1.world := by
  obtain ⟨w, hw, hr⟩ := Option.bind_eq_some_iff.mp hr
  obtain ⟨hlive, rfl⟩ := o.doCoredump_spec hw
  exact Lasts.locally hr (lasts_killGroup x hs.ok.grouped code hlive)

theorem SysOk.lasts_exit (hs : SysOk j s) (hr : s.exit x t = some r) : Lasts s.world r.1.world := by
  have hl := lasts_exitSignals (t := t) x hs.ok.grouped
  unfold Sys.exit at hr
  dsimp only at hr
  split at hr
  · split at hr
    · obtain rfl := Option.some.inj hr
      exact hl
    · exact Lasts.locally hr hl
  · split at hr
    · obtain rfl := Option.some.inj hr
      exact hl
    · cases hr
  · cases hr

/-- **Every step leaves a process that exits to exit, with its code**, but for the end of a core
dump that has been written. -/
theorem SysOk.lasts (hj : JobHeaders.Sound h j) (hs : SysOk j s) {act : Act a}
    (hact : ∀ p, act ≠ .dumped p true) (hr : Machine.step x o h j i s act = some r) :
    Lasts s.world r.1.world := by
  cases act with
  | send alloc hidden sig info p group =>
    dsimp only [Machine.step] at hr
    split at hr
    · obtain rfl := Option.some.inj hr
      exact lasts_sendSignal₀ x h hj hs.ok alloc sig info p group _
    · cases hr
  | sendSigqueue q p group =>
    dsimp only [Machine.step] at hr
    split at hr
    · obtain rfl := Option.some.inj hr
      exact lasts_lockedSendSigqueue x h hj hs.ok q p group
    · cases hr
  | forceSig alloc hidden sig info p =>
    dsimp only [Machine.step] at hr
    split at hr
    · obtain ⟨r', hr', rfl⟩ := Option.map_eq_some_iff.mp hr
      exact lasts_forceSigInfo x h hj hs.ok hr'
    · cases hr
  | deliver p =>
    dsimp only [Machine.step] at hr
    split at hr
    · exact (Lasts.refl _).arrive hr
    · cases hr
  | lock p =>
    dsimp only [Machine.step] at hr
    split at hr
    · exact Lasts.locked hr fun _ => lasts_relockRound s.world p
    · cases hr
  | tell p alloc hidden =>
    dsimp only [Machine.step] at hr
    split at hr
    · exact hs.lasts_tell x h j hj hr
    · cases hr
  | iterate p notifier freezing rearms =>
    dsimp only [Machine.step] at hr
    split at hr
    · next hpc =>
      exact (hs.iterated x h j i hj hpc notifier freezing rearms).2.lasts.ends (Sys.ends_of_some hr)
    · cases hr
  | rearmed p =>
    dsimp only [Machine.step] at hr
    split at hr
    · next hpc => exact Lasts.locked hr fun hsome => (hs.rearmed x h j hj hpc hsome).lasts
    · cases hr
  | orphaned p orphaned =>
    dsimp only [Machine.step] at hr
    split at hr
    · next hpc =>
      split at hr
      · exact (Lasts.refl _).arrive hr
      · exact Lasts.locked hr fun _ => (hs.orphaned x h j hpc).lasts
    · cases hr
  | trap p coredump =>
    dsimp only [Machine.step] at hr
    split at hr
    · unfold Sys.trap at hr
      split at hr
      · exact (Lasts.refl _).arrive hr
      · exact (Lasts.refl _).arrive hr
    · cases hr
  | resumed p alloc hidden pid uid =>
    dsimp only [Machine.step] at hr
    split at hr
    · next hpc =>
      obtain ⟨round, hround, hr⟩ := Option.bind_eq_some_iff.mp hr
      exact Lasts.locked hr fun hsome => (hs.resumed x h j hj hpc hsome hround).2.2.lasts
    · cases hr
  | ptraceNotify p exitCode =>
    obtain ⟨exits, hmay, -, hn, hr⟩ := notify_cases x o h j i hr
    exact hs.lasts_ptraceNotify x o j hmay hn hr
  | ptraceResume p code =>
    dsimp only [Machine.step] at hr
    split at hr
    · obtain ⟨w, hw, rfl⟩ := Option.map_eq_some_iff.mp hr
      obtain ⟨-, rfl⟩ := o.ptraceResume_spec hw
      dsimp only [Sys.setWorld]
      exact (Lasts.onThread s.world p rfl).trans (.onTask _ p _)
    · cases hr
  | ptraceListen p =>
    dsimp only [Machine.step] at hr
    split at hr
    · split at hr
      · obtain ⟨w, hw, rfl⟩ := Option.map_eq_some_iff.mp hr
        obtain rfl := o.ptraceListen_spec hw
        dsimp only [Sys.setWorld]
        exact .onTask s.world p _
      · cases hr
    · cases hr
  | setRunning p running =>
    obtain rfl := Option.some.inj hr
    dsimp only [Sys.setWorld]
    exact .onThread s.world p rfl
  | wake p =>
    obtain rfl := Option.some.inj hr
    dsimp only [Sys.setWorld]
    exact .onTask s.world p _
  | sleep p state =>
    dsimp only [Machine.step] at hr
    split at hr
    · split at hr
      · exact (Lasts.refl _).arrive hr
      · cases hr
    · cases hr
  | setState p =>
    dsimp only [Machine.step] at hr
    split at hr
    · exact (Lasts.onTask s.world p _).arrive hr
    · cases hr
  | schedule p =>
    dsimp only [Machine.step] at hr
    split at hr
    · split at hr
      · exact (Lasts.refl _).arrive hr
      · exact (Lasts.onTask s.world p _).arrive hr
    · cases hr
  | awoken p =>
    dsimp only [Machine.step] at hr
    split at hr
    · split at hr
      · exact (Lasts.refl _).arrive hr
      · cases hr
    · cases hr
  | rtSigprocmask p freezing how nset =>
    dsimp only [Machine.step] at hr
    split at hr
    · exact Lasts.locally hr (.setTaskBlocked x freezing s.world p _)
    · cases hr
  | rtSigsuspend p freezing unewset =>
    dsimp only [Machine.step] at hr
    split at hr
    · exact Lasts.locally hr (.setTaskBlocked x freezing s.world p _)
    · cases hr
  | restoreSigmask p freezing =>
    dsimp only [Machine.step] at hr
    split at hr
    · exact Lasts.locally hr (.setTaskBlocked x freezing s.world p _)
    · cases hr
  | pause p =>
    dsimp only [Machine.step] at hr
    split at hr
    · split at hr
      · exact (Lasts.refl _).arrive hr
      · exact (Lasts.refl _).arrive hr
    · split at hr
      · exact (Lasts.refl _).arrive hr
      · exact (Lasts.refl _).arrive hr
    · cases hr
  | sigtimedwait p notifier freezing timeout which =>
    dsimp only [Machine.step] at hr
    split at hr
    · exact hs.lasts_sigtimedwait h j i hr
    · cases hr
  | sigtimedwaitEnd p notifier freezing =>
    dsimp only [Machine.step] at hr
    split at hr
    · next hpc => exact hs.lasts_sigtimedwaitEnd x h j i hpc hr
    · cases hr
  | rtSigaction p sig act saMask oneshot =>
    dsimp only [Machine.step] at hr
    split at hr
    · exact hs.lasts_rtSigaction h j hj hr
    · cases hr
  | coredump p code =>
    dsimp only [Machine.step] at hr
    split at hr
    · exact hs.lasts_coredump x o j hr
    · cases hr
  | dumped p wrote =>
    dsimp only [Machine.step] at hr
    cases wrote with
    | true => exact absurd rfl (hact p)
    | false =>
      split at hr
      · split at hr
        · cases hr
        · obtain rfl := Option.some.inj hr
          exact .refl s.world
      · cases hr
  | groupExit p code =>
    dsimp only [Machine.step] at hr
    split at hr
    · exact hs.lasts_groupExit x o j hr
    · exact hs.lasts_groupExit x o j hr
    · cases hr
  | exit p => exact hs.lasts_exit x j hr

/-- **Every step.** -/
theorem SysOk.settles (hj : JobHeaders.Sound h j) (hs : SysOk j s) {act : Act a}
    (hr : Machine.step x o h j i s act = some r) : Settles s.world r.1.world := by
  by_cases hact : ∃ p, act = .dumped p true
  · obtain ⟨p, rfl⟩ := hact
    dsimp only [Machine.step] at hr
    split at hr
    · split at hr
      · cases hr
      · obtain rfl := Option.some.inj hr
        exact settles_mark s.world p
    · cases hr
  · exact (hs.lasts x o h j i hj (fun p he => hact ⟨p, he⟩) hr).settles

end

/-! ### Every run -/

section

variable {x : Extern a} {o : Outer x} {h : Headers a} {j : JobHeaders a} {i : Infos} {s₀ s : Sys a}
  {as : List (Act a)} {es : List Event}

/-- What the steps come to, and without a dump that is written. -/
theorem settles_of_run (hj : JobHeaders.Sound h j) (h₀ : Fresh j s₀)
    (hr : Run (step x o h j i) s₀ as es s) {bs : List (Act a)} {es' : List Event} {s' : Sys a}
    (hr' : Run (step x o h j i) s bs es' s') :
    Settles s.world s'.world ∧ ((∀ t, Act.dumped t true ∉ bs) → Lasts s.world s'.world) := by
  induction hr' with
  | nil => exact ⟨(Lasts.refl s.world).settles, fun _ => .refl s.world⟩
  | snoc hv hf ih =>
    have hs := (sysOk_of_run hj h₀ (hr.append hv)).1
    refine ⟨ih.1.trans (hs.settles x o h j i hj hf), fun hno => ?_⟩
    refine (ih.2 fun t hm => hno t (List.mem_append_left _ hm)).trans
      (hs.lasts x o h j i hj (fun p he => ?_) hf)
    exact hno p (List.mem_append_right _ (List.mem_singleton.mpr he.symm))

/-- **A process that exits does so for good**, and with the exit code that it has first, which
`do_coredump` marks when it has written a dump. -/
theorem group_exit_final (hj : JobHeaders.Sound h j) (h₀ : Fresh j s₀)
    (hr : Run (step x o h j i) s₀ as es s) {bs : List (Act a)} {es' : List Event} {s' : Sys a}
    (hr' : Run (step x o h j i) s bs es' s') {p : Nat}
    (hge : signalGroupExit (s.world.signalOf p) = true) :
    signalGroupExit (s'.world.signalOf p) = true ∧
      ((s'.world.signalOf p).groupExitCode = (s.world.signalOf p).groupExitCode ∨
        (s'.world.signalOf p).groupExitCode = (s.world.signalOf p).groupExitCode ||| 0x80) ∧
      ((∀ t, Act.dumped t true ∉ bs) →
        (s'.world.signalOf p).groupExitCode = (s.world.signalOf p).groupExitCode) := by
  obtain ⟨hsettles, hlasts⟩ := settles_of_run hj h₀ hr hr'
  exact ⟨(hsettles p hge).1, (hsettles p hge).2, fun hno => (hlasts hno p hge).2⟩

def SIGQUIT : Signal := headerSignal 3

/-- Thread 0 takes a `SIGQUIT`, and begins to dump. -/
def quitting : List (Act .oneWord) :=
  .send true false SIGQUIT .noinfo 0 true :: (look 0 ++ [.coredump 0 3])

/-- The dump is written, a `SIGSTOP` stops nobody, and thread 1 finds its `SIGKILL`. -/
def quit : List (Act .oneWord) :=
  .send true false (JobHeaders.x86 .oneWord).SIGSTOP .noinfo 0 true :: .dumped 0 true :: look 1

theorem group_exit_final_pair : ∃ es s, Run pairStep pair (quitting ++ quit) es s ∧
    signalGroupExit (s.world.signalOf 0) = true ∧
      ((s.world.signalOf 0).groupExitCode = 3 ∨ (s.world.signalOf 0).groupExitCode = 3 ||| 0x80) := by
  obtain ⟨es, s, hr, hge, hcode, hsome⟩ := exists_run pairStep pair quitting
    (fun _ s => signalGroupExit (s.world.signalOf 0) = true ∧
      (s.world.signalOf 0).groupExitCode = 3 ∧
      (exec pairStep s quit).isSome = true) (by decide +kernel)
  obtain ⟨es', s', hr'⟩ := exists_run_of_isSome pairStep s quit hsome
  obtain ⟨hge', hcode', -⟩ := group_exit_final (JobHeaders.sound_x86 _) fresh_pair hr hr' hge
  rw [hcode] at hcode'
  exact ⟨_, s', hr.append hr', hge', hcode'⟩

end

end LinuxKerDev.Signals.Machine
