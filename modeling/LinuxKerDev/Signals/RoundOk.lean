import LinuxKerDev.Signals.Lasts

/-!
# The rounds of `get_signal_to_deliver` and the invariant

A round ends in one of a few ways: the thread looks again, goes back to user mode, stops, traps
or dies.  Each of them is a place that the invariant allows (`RoundOk`), and none of the warnings
about the count of a group stop is ever shown.
-/

namespace LinuxKerDev.Signals.Machine

open Lib

variable {a : Arch} {w w' : World a} {pc pc' : Nat → Pc a} {t u : Nat}

/-- No warning is shown, or just that a debugger's stop has no signal. -/
def Event.Quiet : Event → Prop
  | .warning v => v = .noSigno
  | .misused _ _ => False
  | _ => True

def Quiet (events : List Event) : Prop := ∀ e ∈ events, e.Quiet

theorem Quiet.append {l l' : List Event} (h : Quiet l) (h' : Quiet l') : Quiet (l ++ l') :=
  fun e he => (List.mem_append.mp he).elim (h e) (h' e)

theorem quiet_nil : Quiet [] := nofun

theorem quiet_singleton {e : Event} (he : e.Quiet) : Quiet [e] := fun _ h => List.mem_singleton.mp h ▸ he

theorem quiet_completedEvent (t : Nat) (done : Bool) : Quiet (completedEvent t done) := by
  unfold completedEvent
  split
  · exact quiet_singleton trivial
  · exact quiet_nil

/-- Who shares a `sighand` with whom is as it was, and no thread blocks more. -/
structure Kept (w w' : World a) : Prop where
  sighand : ∀ u, (w'.task u).sighand = (w.task u).sighand
  blocked : ∀ u sig, sigismember (w'.task u).blocked sig = true →
    sigismember (w.task u).blocked sig = true
  realBlocked : ∀ u, (w'.thread u).realBlocked = (w.thread u).realBlocked

namespace Kept

theorem of_eq (hsighand : ∀ u, (w'.task u).sighand = (w.task u).sighand)
    (hblocked : ∀ u, (w'.task u).blocked = (w.task u).blocked)
    (hreal : ∀ u, (w'.thread u).realBlocked = (w.thread u).realBlocked) : Kept w w' :=
  ⟨hsighand, fun u _ hs => hblocked u ▸ hs, hreal⟩

theorem refl (w : World a) : Kept w w := of_eq (fun _ => rfl) (fun _ => rfl) fun _ => rfl

theorem trans {w'' : World a} (hk : Kept w w') (hk' : Kept w' w'') : Kept w w'' :=
  ⟨fun u => (hk'.sighand u).trans (hk.sighand u), fun u sig hs => hk.blocked u sig (hk'.blocked u sig hs),
    fun u => (hk'.realBlocked u).trans (hk.realBlocked u)⟩

theorem of_spares (hs : Spares w w') : Kept w w' :=
  of_eq (fun u => (hs.task u).sighand) (fun u => (hs.task u).blocked)
    fun u => (hs.thread u).realBlocked

theorem onTask (w : World a) (t : Nat) {f : Task a → Task a}
    (hf : (f (w.task t)).sighand = (w.task t).sighand ∧
      (f (w.task t)).blocked = (w.task t).blocked) : Kept w (w.onTask t f) :=
  of_eq (fun u => w.onTask_field t u Task.sighand hf.1) (fun u => w.onTask_field t u Task.blocked hf.2)
    fun _ => rfl

theorem onThread (w : World a) (t : Nat) {f : Thread a → Thread a}
    (hf : (f (w.thread t)).realBlocked = (w.thread t).realBlocked) : Kept w (w.onThread t f) :=
  of_eq (fun _ => rfl) (fun _ => rfl) fun u => w.onThread_field t u Thread.realBlocked hf

theorem of_looked {mask : Sigset a} {d : Option Signal} (hl : Looked w t mask d w') : Kept w w' := by
  refine of_eq (fun u => ?_) (fun u => ?_) fun u => (hl.thread u).realBlocked
  · by_cases hu : u = t
    · rw [hu, hl.sighand]
    · rw [hl.other u hu]
  · by_cases hu : u = t
    · rw [hu, hl.blocked]
    · rw [hl.other u hu]

theorem of_left (hl : Left w t w') : Kept w w' := by
  refine of_eq (fun u => ?_) (fun u => ?_) fun u => (hl.thread u).realBlocked
  · by_cases hu : u = t
    · rw [hu, hl.task]
    · rw [hl.other u hu]
  · by_cases hu : u = t
    · rw [hu, hl.task]
    · rw [hl.other u hu]

theorem of_initiated (hi : Initiated t w w') : Kept w w' :=
  of_eq (fun u => by rw [hi.task]) (fun u => by rw [hi.task]) fun u => by rw [hi.thread]

end Kept

/-- The signals that a sleep in `do_sigtimedwait` does not wait for. -/
def Wait.timedMask : Wait a → Option (Sigset a)
  | .timed mask => some mask
  | _ => none

def Pc.timedMask : Pc a → Option (Sigset a)
  | .toSleep k _ => k.timedMask
  | .nap k => k.timedMask
  | .asleep k => k.timedMask
  | .waited mask => some mask
  | _ => none

structure RoundOk (w : World a) (pc : Nat → Pc a) (t : Nat) (r : Round a) : Prop where
  ok : Ok r.world (Function.update pc t r.pc)
  quiet : Quiet r.events
  kept : Kept w r.world
  untimed : r.pc.timedMask = none
  lasts : Lasts w r.world
  /-- The thread has its lock at the head of the loop, and has given it back elsewhere. -/
  unlocks : r.unlocks = !r.pc.isLocked

/-- A round may as well have begun at a place that the thread has gone to. -/
theorem RoundOk.of_goto {k : Pc a} {r : Round a} (h : RoundOk w (Function.update pc t k) t r) :
    RoundOk w pc t r := by
  have heq : Function.update (Function.update pc t k) t r.pc = Function.update pc t r.pc :=
    Function.update_idem ..
  exact ⟨heq ▸ h.ok, h.quiet, h.kept, h.untimed, h.lasts, h.unlocks⟩

/-! ### Taking part -/

theorem Ok.live_of_consumes (h : Ok w pc) (hd : (pc t).isDead = false)
    (hc : (w.task t).consumes = true) : signalGroupExit (w.signalOf t) = false := by
  refine Bool.eq_false_iff.mpr fun hge => ?_
  rw [(h.thread t).dead hge hc] at hd
  cases hd

/-- **The count of a group stop is never zero where a thread takes part in it.** -/
theorem Ok.count_ne_zero (h : Ok w pc) (hlive : signalGroupExit (w.signalOf t) = false)
    (hc : (w.task t).consumes = true) : (w.signalOf t).groupStopCount ≠ 0 :=
  ((h.group t).count hlive).ne_zero (h.grouped.self t) hc

theorem participate_quiet (hp : (w.task t).stopPending = true)
    (hcount : (w.task t).consumes = true → (w.signalOf t).groupStopCount ≠ 0) :
    (taskParticipateGroupStop w t).2.2 = [] := by
  have hsig : (taskClearJobctlPending w t JOBCTL_STOP_PENDING).signalOf t = w.signalOf t := rfl
  unfold taskParticipateGroupStop
  dsimp only
  rw [if_pos hp, hsig]
  by_cases hc : (w.task t).consumes = false
  · rw [if_pos hc]
  · rw [if_neg hc, if_neg (hcount (Bool.eq_true_of_not_eq_false hc))]
    split
    · rfl
    · rfl

theorem Left.setState (hl : Left w t w') (state : BitVec 32) :
    Left w t (w'.onTask t fun s => { s with state := state }) := by
  have hself := w'.onTask_task_self t fun s => { s with state := state }
  refine ⟨hl.action, ?_, fun u hu => ?_, hl.thread, hl.exiting, ?_, fun ht => ?_, hl.signal⟩
  · rw [hself, hl.task]
  · rw [World.onTask_task_of_ne _ _ hu, hl.other u hu]
  · rw [hself]
    exact hl.out
  · rw [hself]
    exact hl.traps ht

theorem Ok.setJobctl (h : Ok w pc) {f : Task a → BitVec 32}
    (hbits : { w.task t with jobctl := f (w.task t) }.stopPending = (w.task t).stopPending ∧
      { w.task t with jobctl := f (w.task t) }.consumes = (w.task t).consumes)
    (htraps : (w.thread t).ptrace = 0 → (w.task t).jobctl &&& JOBCTL_TRAP_MASK = 0 →
      f (w.task t) &&& JOBCTL_TRAP_MASK = 0) :
    Ok (w.onTask t fun s => { s with jobctl := f s }) pc := by
  refine h.onTask t ⟨rfl, rfl, rfl⟩ (fun _ _ => rfl) ?_ hbits.2 (fun _ _ => id) id
    fun _ sig _ => ⟨Or.inl, fun hb ha => ⟨hb, ha⟩⟩
  exact (h.thread t).eases (.jobctl _ hbits) (.refl _) htraps

/-- A thread with a debugger that is to trap instead of stopping. -/
theorem Ok.setTrapStop (h : Ok w pc) (hp : (w.thread t).ptrace ≠ 0) :
    Ok (taskSetJobctlPending w t JOBCTL_TRAP_STOP).1 pc := by
  unfold taskSetJobctlPending
  split
  · exact h
  · have hmask : ¬ (JOBCTL_TRAP_STOP &&& JOBCTL_STOP_SIGMASK ≠ 0) := by decide
    simp only [if_neg hmask]
    exact h.setJobctl (f := fun s => s.jobctl ||| JOBCTL_TRAP_STOP)
      (stopBits_or _ (by decide) (by decide)) fun h0 => absurd h0 hp

theorem kept_setTrapStop (w : World a) (t : Nat) :
    Kept w (taskSetJobctlPending w t JOBCTL_TRAP_STOP).1 := by
  unfold taskSetJobctlPending
  split
  · exact .refl w
  · dsimp only
    exact .of_spares (.onTask w t (.jobctl _ _))

/-! ### Stopping -/

section

variable (x : Extern a) (h : Headers a) (j : JobHeaders a) (i : Infos)

/-- **`do_signal_stop` keeps the invariant.** -/
theorem Ok.stopRound (hok : Ok w pc) (hpc : pc t = .locked) {signr : BitVec 32}
    (hs : signr &&& ~~~JOBCTL_STOP_SIGMASK = 0) : RoundOk w pc t (stopRound x h w t signr) := by
  have hnotSigno : (if (w.task t).stopPending = false ∧ signr &&& ~~~JOBCTL_STOP_SIGMASK ≠ 0 then
      [.notSigno] else [] : List Warning) = [] := if_neg fun h' => h'.2 hs
  have hlooks : (pc t).looks = true := by rw [hpc]; rfl
  have hhalts : (pc t).halts = false := by rw [hpc]; rfl
  have hexit : (w.thread t).exiting = false := (hok.thread t).not_exiting (by rw [hpc]; rfl)
  unfold Machine.stopRound doSignalStop
  dsimp only
  rw [hnotSigno]
  by_cases hno : (w.task t).stopPending = false ∧
      ((w.task t).jobctl &&& JOBCTL_STOP_DEQUEUED = 0 ∨ signalGroupExit (w.signalOf t) = true)
  · rw [if_pos hno]
    refine ⟨?_, quiet_nil, .refl w, rfl, .refl w, rfl⟩
    rw [← hpc, Function.update_eq_self]
    exact hok
  · rw [if_neg hno]
    obtain ⟨v, hv, hvok, hp, hvs, hvl⟩ : ∃ v, v = (if (w.task t).stopPending = true then w
        else initiateGroupStop x h w t signr) ∧ Ok v pc ∧ (v.task t).stopPending = true ∧
        Kept w v ∧ Lasts w v := by
      by_cases hp : (w.task t).stopPending = true
      · exact ⟨w, (if_pos hp).symm, hok, hp, .refl w, .refl w⟩
      · have hp' : (w.task t).stopPending = false := Bool.eq_false_iff.mpr hp
        have hlive : signalGroupExit (w.signalOf t) = false :=
          Bool.eq_false_iff.mpr fun hge => hno ⟨hp', Or.inr hge⟩
        have hfatal : fatalSignalPending (w.task t) = false := by
          refine Bool.eq_false_iff.mpr fun hf => ?_
          rw [fatalSignalPending, Bool.and_eq_true] at hf
          rcases (hok.thread t).kill hf.2 with hx | hge
          · rw [hexit] at hx
            cases hx
          · rw [hlive] at hge
            cases hge
        have hi := Signals.Machine.initiated x h hs hok.grouped hfatal hexit
        exact ⟨_, (if_neg hp).symm, hok.initiated hi hlive hlooks hhalts, hi.current.1.bits.1,
          .of_initiated hi, .of_live hlive fun u hu =>
            .of_eq (hi.outside u fun hm => hu ((hok.grouped.mem t u).mp hm)).2⟩
    rw [← hv]
    have hlive := hvok.live_of_consumes (t := t) (by rw [hpc]; rfl)
    have hself : ∀ k : Pc a, Function.update pc t k t = k := fun k => Function.update_self ..
    have hne : ∀ (k : Pc a) u, u ≠ t → Function.update pc t k u = pc u := fun k u hu =>
      Function.update_of_ne hu ..
    by_cases hp0 : (v.thread t).ptrace = 0
    · rw [if_pos hp0]
      obtain ⟨hl, -, hthread⟩ := left_taskParticipateGroupStop hvok.grouped t
      have hquiet := participate_quiet hp fun hc => hvok.count_ne_zero (hlive hc) hc
      have hlast := Lasts.participate hlive
      generalize taskParticipateGroupStop v t = r at hl hthread hquiet hlast ⊢
      obtain ⟨w', notify, warnings⟩ := r
      obtain rfl : warnings = [] := hquiet
      have hl' := hl.setState TASK_STOPPED
      have hlast' : Lasts w' (w'.onTask t fun s => { s with state := TASK_STOPPED }) := .onTask w' t _
      have hstate : ((w'.onTask t fun s => { s with state := TASK_STOPPED }).task t).state =
          TASK_STOPPED := by rw [World.onTask_task_self]
      have hstopped : taskIsStopped ((w'.onTask t fun s => { s with state := TASK_STOPPED }).task t) =
          true := by
        rw [taskIsStopped, hstate]
        rfl
      have hexit' : (w'.thread t).exiting = (v.thread t).exiting := by rw [hthread]
      refine ⟨hvok.left hl' hlive (hne _) ?_ hexit' (fun h' => by rw [hpc] at h'; cases h')
        (fun _ _ => Or.inl hstopped) (fun _ _ => Or.inr (by rw [hself]; rfl)),
        quiet_nil.append (quiet_completedEvent t notify), hvs.trans (.of_left hl'), rfl,
        (hvl.trans hlast).trans hlast', rfl⟩
      rw [hself]
      refine (hvok.thread t).left hl'.task (hl'.thread t) hl'.out hl'.traps (fun hx => hexit'.trans hx)
        (hexit'.trans ((hvok.thread t).not_exiting (by rw [hpc]; rfl))) (fun _ _ => Or.inr rfl)
        (fun _ => hstate) (fun _ => rfl) (fun h' => by cases h') trivial
    · rw [if_neg hp0]
      refine ⟨?_, quiet_nil, hvs.trans (kept_setTrapStop v t), rfl, hvl.trans (.setJobctl v t _), rfl⟩
      rw [← hpc, Function.update_eq_self]
      exact hvok.setTrapStop hp0

end

/-! ### Trapping -/

theorem Ok.clearTrap (h : Ok w pc) (mask : BitVec 32) (hp : (w.thread t).ptrace ≠ 0)
    (hpending : JOBCTL_STOP_PENDING &&& clearMask mask = 0)
    (hconsume : JOBCTL_STOP_CONSUME &&& clearMask mask = 0) :
    Ok (taskClearJobctlPending w t mask) pc := by
  have hbit := jobctl_taskClearJobctlPending_other w t mask hpending (by decide)
  have hbit' := jobctl_taskClearJobctlPending_other w t mask hconsume (by decide)
  rw [task_taskClearJobctlPending] at hbit hbit'
  unfold taskClearJobctlPending
  refine h.setJobctl ⟨?_, ?_⟩ fun h0 => absurd h0 hp
  · exact congrArg (fun j : BitVec 32 => decide (j ≠ 0)) hbit
  · exact congrArg (fun j : BitVec 32 => decide (j ≠ 0)) hbit'

theorem taskIsStopped_traced {s : Task a} (hs : s.state = TASK_TRACED) : taskIsStopped s = false := by
  rw [taskIsStopped, hs]
  rfl

theorem Ok.setExitCode (h : Ok w pc) (code : BitVec 32) :
    Ok (w.onThread t fun m => { m with exitCode := code }) pc :=
  h.onThread t ⟨⟨rfl, rfl, rfl⟩, rfl⟩

/-- A thread may call `ptrace_stop` where it is. -/
structure MayTrap (k : Pc a) (caller : Caller) (why : Cld) : Prop where
  gone : k.isGone = false
  halts : k.halts = false
  dead : k.isDead = true → caller.exits = true
  doomed : k.isDoomed = true → caller.exits = true
  /-- A thread that exits takes part in no group stop. -/
  stays : why = .stopped → caller.exits = false

theorem mayTrap_locked {caller : Caller} {why : Cld} (hc : caller.exits = false) :
    MayTrap (.locked : Pc a) caller why :=
  ⟨rfl, rfl, nofun, nofun, fun _ => hc⟩

/-- **`ptrace_stop` keeps the invariant.** -/
theorem Ok.trapRound (hok : Ok w pc) {caller : Caller} {why : Cld} (hf : MayTrap (pc t) caller why)
    (hp : (w.thread t).ptrace ≠ 0) (exitCode : BitVec 32) (clearCode event : Bool) :
    RoundOk w pc t (trapRound w t exitCode why clearCode event caller) := by
  have hself : ∀ k : Pc a, Function.update pc t k t = k := fun k => Function.update_self ..
  have hne : ∀ (k : Pc a) u, u ≠ t → Function.update pc t k u = pc u := fun k u hu =>
    Function.update_of_ne hu ..
  have hstops : taskIsStopped (w.task t) = false := by
    refine Bool.eq_false_iff.mpr fun hs => ?_
    have hyes := (hok.thread t).halts (by rw [(hok.thread t).stopped hs]; decide)
    rw [hf.halts] at hyes
    cases hyes
  -- the state goes first
  have htraced : ∀ done, Ok ((w.onTask t fun s => { s with state := TASK_TRACED }).onThread t fun m =>
      { m with exitCode := exitCode })
      (Function.update pc t (.trapping ⟨why, done, clearCode, caller⟩)) := by
    intro done
    refine Ok.setExitCode (hok.onTask t ⟨rfl, rfl, rfl⟩ (hne _) ?_ rfl
      (fun _ _ hs => ?_) (fun hd => ?_) fun _ sig _ => ?_) exitCode
    · rw [hself]
      have hth := hok.thread t
      exact
        { consumes := hth.consumes
          awake := fun _ => taskIsStopped_traced rfl
          leaving := hth.leaving
          dead := fun hge hc => hf.dead (hth.dead hge hc)
          gone := hth.not_exiting hf.gone
          zombie := hth.zombie
          kill := hth.kill
          fatal := hth.fatal
          unblocked := hth.unblocked
          stopAlert := fun _ _ => Or.inr rfl
          alert := fun _ _ _ _ => Or.inr rfl
          stopped := fun hs => by
            rw [taskIsStopped_traced rfl] at hs
            cases hs
          halts := fun _ => rfl
          untraced := fun h0 => absurd h0 hp
          sound := trivial }
    · rw [hstops] at hs
      cases hs
    · rw [hself]
      exact hd.imp_right hf.doomed
    · rw [hself]
      exact ⟨Or.inl, fun hb _ => ⟨hb, Or.inr rfl⟩⟩
  unfold Machine.trapRound ptraceStop
  dsimp only
  generalize hw : (w.onTask t fun s => { s with state := TASK_TRACED }).onThread t (fun m =>
    { m with exitCode := exitCode }) = v at htraced ⊢
  have hpv : (v.thread t).ptrace ≠ 0 := by
    rw [← hw, World.onThread_thread_self]
    exact hp
  have hstate : (v.task t).state = TASK_TRACED := by
    rw [← hw, World.onThread_task, World.onTask_task_self]
  have hlive : why = .stopped → (v.task t).consumes = true → signalGroupExit (v.signalOf t) = false :=
    fun hwhy => (htraced false).live_of_consumes (by rw [hself]; exact hf.stays hwhy)
  -- then the thread takes part in a group stop, if there is one
  obtain ⟨r, hr, hrok, hquiet, hpr, hrs, hrl⟩ : ∃ r : World a × Bool × List Warning,
      r = (if why = .stopped ∧ (v.task t).stopPending = true then taskParticipateGroupStop v t
        else (v, false, [])) ∧
      (∀ done, Ok r.1 (Function.update pc t (.trapping ⟨why, done, clearCode, caller⟩))) ∧ r.2.2 = [] ∧
      (r.1.thread t).ptrace ≠ 0 ∧ Kept v r.1 ∧ Lasts v r.1 := by
    refine ⟨_, rfl, ?_⟩
    split
    · next hstop =>
      have hlive := hlive hstop.1
      obtain ⟨hl, hsame, hthread⟩ := left_taskParticipateGroupStop (htraced false).grouped t
      refine ⟨fun done => ?_, participate_quiet hstop.2 fun hc =>
          (htraced false).count_ne_zero (hlive hc) hc,
        by rw [hthread]; exact hpv, .of_left hl, .participate hlive⟩
      have hth := (htraced done).thread t
      have hexit : ((taskParticipateGroupStop v t).1.thread t).exiting = (v.thread t).exiting := by
        rw [hthread]
      refine (htraced done).left hl hlive (fun _ _ => rfl) ?_ hexit id
        (fun hn _ => absurd (hn t ((htraced done).grouped.self t)) hpv)
        fun _ _ => Or.inr (by rw [hself]; rfl)
      rw [hself] at hth ⊢
      refine hth.left hl.task (hl.thread t) hl.out hl.traps (fun hx => hexit.trans hx)
        (hexit.trans hth.gone) (fun _ _ => Or.inr rfl) (fun hs => ?_) (fun _ => rfl) id trivial
      rw [taskIsStopped_traced (hsame.trans hstate)] at hs
      cases hs
    · exact ⟨htraced, rfl, hpv, .refl v, .refl v⟩
  rw [← hr]
  obtain ⟨v', done, warnings⟩ := r
  obtain rfl : warnings = [] := hquiet
  have hws : Kept w v' := by
    have hs : Kept w (w.onTask t fun s => { s with state := TASK_TRACED }) := .onTask w t ⟨rfl, rfl⟩
    have hs' := hs.trans (.onThread _ t (f := fun m => { m with exitCode := exitCode }) rfl)
    rw [hw] at hs'
    exact hs'.trans hrs
  have hls : Lasts w (taskClearJobctlPending v' t JOBCTL_TRAP_STOP) := by
    have hl : Lasts w (w.onTask t fun s => { s with state := TASK_TRACED }) := .onTask w t _
    have hl' := hl.trans (.onThread _ t (f := fun m => { m with exitCode := exitCode }) rfl)
    rw [hw] at hl'
    exact (hl'.trans hrl).trans (.clearJobctl v' t _)
  have hclear := (hrok done).clearTrap JOBCTL_TRAP_STOP hpr
    (by decide) (by decide)
  have hcs : Kept w (taskClearJobctlPending v' t JOBCTL_TRAP_STOP) :=
    hws.trans (.of_spares (.taskClearJobctlPending v' t _))
  refine ⟨?_, quiet_nil.append (quiet_completedEvent t done), ?_, rfl, ?_, rfl⟩
  · dsimp only
    split
    · refine (hclear.clearTrap JOBCTL_TRAP_NOTIFY hpr (by decide) (by decide)).setJobctl
        (stopBits_clear _ (by decide) (by decide)) fun h0 => absurd h0 hpr
    · exact hclear.setJobctl (stopBits_clear _ (by decide) (by decide)) fun h0 => absurd h0 hpr
  · dsimp only
    split
    · exact (hcs.trans (.of_spares (.taskClearJobctlPending _ t _))).trans
        (.of_spares (.onTask _ t (.jobctl _ _)))
    · exact hcs.trans (.of_spares (.onTask _ t (.jobctl _ _)))
  · dsimp only
    split
    · exact (hls.trans (.clearJobctl _ t _)).trans (.onTask _ t _)
    · exact hls.trans (.onTask _ t _)

section

variable (x : Extern a) (h : Headers a) (j : JobHeaders a) (i : Infos)

/-- **Only a thread with a debugger traps.** -/
theorem Ok.doJobctlTrap (hok : Ok w pc) (hpc : pc t = .locked)
    (htrap : (w.task t).jobctl &&& JOBCTL_TRAP_MASK ≠ 0) : RoundOk w pc t (doJobctlTrap h j w t) := by
  have hp : (w.thread t).ptrace ≠ 0 := fun h0 => htrap ((hok.thread t).untraced h0).1
  have hmay : ∀ seized, MayTrap (pc t) (.jobctlTrap seized) .stopped := fun _ => by
    rw [hpc]
    exact mayTrap_locked rfl
  have hquiet : ∀ n : BitVec 32, Quiet (if n = 0 then [.warning .noSigno] else []) := fun n => by
    split
    · exact quiet_singleton rfl
    · exact quiet_nil
  unfold Machine.doJobctlTrap
  dsimp only
  split
  · have hr := hok.trapRound (hmay true) hp
      ((if decide ((w.thread t).ptrace &&& h.PT_SEIZED ≠ 0) = true ∧
          (w.signalOf t).groupStopCount = 0 ∧ (w.signalOf t).flags &&& SIGNAL_STOP_STOPPED = 0 then
        BitVec.ofNat 32 j.sync.SIGTRAP.num else (w.task t).jobctl &&& JOBCTL_STOP_SIGMASK) |||
        j.PTRACE_EVENT_STOP <<< 8) true true
    exact ⟨hr.ok, (hquiet _).append hr.quiet, hr.kept, hr.untimed, hr.lasts, hr.unlocks⟩
  · have hr := hok.trapRound (hmay false) hp
      (if decide ((w.thread t).ptrace &&& h.PT_SEIZED ≠ 0) = true ∧
          (w.signalOf t).groupStopCount = 0 ∧ (w.signalOf t).flags &&& SIGNAL_STOP_STOPPED = 0 then
        BitVec.ofNat 32 j.sync.SIGTRAP.num else (w.task t).jobctl &&& JOBCTL_STOP_SIGMASK)
      false false
    exact ⟨hr.ok, (hquiet _).append hr.quiet, hr.kept, hr.untimed, hr.lasts, hr.unlocks⟩

/-! ### Acting on a signal -/

/-- A thread that has been given a signal, with its place: it is told of what is left if it has
been looking, and has only got a `SIGKILL` if that is the signal. -/
structure Given (s : Task a) (k : Pc a) (sig : Signal) : Prop where
  gone : k.isGone = false
  dead : k.isDead = false
  halts : k.halts = false
  doomed : k.isDoomed = true → sig = SIGKILL
  told : k.looks = true → Told s

theorem given_rearm {s : Task a} {sig : Signal} {info : Siginfo} :
    Given s (.rearm sig info : Pc a) sig :=
  ⟨rfl, rfl, rfl, of_decide_eq_true, nofun⟩

theorem signr_stop (info : Siginfo) : signr info &&& ~~~JOBCTL_STOP_SIGMASK = 0 := by
  have hall : ∀ n : Fin 65, BitVec.ofNat 32 n.val &&& ~~~JOBCTL_STOP_SIGMASK = 0 := by decide
  exact hall ⟨info.siSigno.num, Nat.lt_succ_of_le info.siSigno.le⟩

theorem Ok.gotoGiven (hok : Ok w pc) {sig : Signal} (hg : Given (w.task t) (pc t) sig) {k : Pc a}
    (hgone : k.isGone = false) (htraps : k.traps = false) (hsound : k.Sound (w.task t))
    (hdoomed : sig = SIGKILL → k.isDoomed = true) : Ok w (Function.update pc t k) := by
  refine hok.goto t ⟨hgone.trans hg.gone.symm, fun hd => ?_, fun hd => hdoomed (hg.doomed hd),
    fun hl => Or.inr (hg.told hl), fun hh => ?_, fun ht => ?_, hsound⟩
  · rw [hg.dead] at hd
    cases hd
  · rw [hg.halts] at hh
    cases hh
  · rw [htraps] at ht
    cases ht

/-- **What a signal does keeps the invariant.** -/
theorem Ok.actOn (hok : Ok w pc) (hj : JobHeaders.Sound h j) (oneshot : Nat → Signal → Bool)
    {sig : Signal} (info : Siginfo) (hg : Given (w.task t) (pc t) sig)
    (hsome : (w.task t).sighand ≠ none) : RoundOk w pc t (actOn x h j oneshot w t sig info) := by
  have hlocked : sig ≠ SIGKILL → Ok w (Function.update pc t .locked) := fun hne =>
    hok.gotoGiven hg rfl rfl trivial fun he => absurd he hne
  unfold Machine.actOn
  cases hd : (w.task t).sighand with
  | none => exact absurd hd hsome
  | some d =>
    have hkill : (w.action d sig).handler ≠ .dfl → sig ≠ SIGKILL := fun hh he => by
      rw [he] at hh
      exact hh (hok.dfl d)
    dsimp only
    cases hh : (w.action d sig).handler with
    | ign =>
      rw [hh] at hkill
      exact ⟨hlocked (hkill nofun), quiet_nil, .refl w, rfl, .refl w, rfl⟩
    | user =>
      rw [hh] at hkill
      have huser : Ok w (Function.update pc t .user) :=
        hok.gotoGiven hg rfl rfl trivial fun he => absurd he (hkill nofun)
      refine ⟨?_, quiet_singleton trivial, ?_, rfl, ?_, rfl⟩
      · dsimp only
        split
        · exact huser.setHandler d sig
        · exact huser
      · dsimp only
        split
        · exact .of_eq (fun _ => rfl) (fun _ => rfl) fun _ => rfl
        · exact .refl w
      · dsimp only
        split
        · exact .of_signalOf fun _ => rfl
        · exact .refl w
    | dfl =>
      dsimp only
      by_cases hi : sigKernelIgnore h sig = true
      · rw [if_pos hi]
        refine ⟨hlocked fun he => ?_, quiet_nil, .refl w, rfl, .refl w, rfl⟩
        rw [he, hj.kill_ignore] at hi
        cases hi
      · rw [if_neg hi, if_neg fun h' => h'.1 (hok.group t).killable]
        by_cases hs : sigKernelStop h sig = true
        · have hne : sig ≠ SIGKILL := fun he => by
            rw [he, sigKernelStop, siginmask, hj.kill_stop, Bool.and_false] at hs
            cases hs
          rw [if_pos hs]
          by_cases hstop : sig ≠ j.SIGSTOP
          · rw [if_pos hstop]
            exact ⟨hok.gotoGiven hg rfl rfl trivial fun he => absurd he hne, quiet_singleton trivial,
              .refl w, rfl, .refl w, rfl⟩
          · rw [if_neg hstop]
            have hr := ((hlocked hne).stopRound x h (Function.update_self ..)
              (signr_stop info)).of_goto
            exact ⟨hr.ok, (quiet_singleton (e := .stopping t sig) trivial).append hr.quiet, hr.kept,
              hr.untimed, hr.lasts, hr.unlocks⟩
        · rw [if_neg hs]
          split
          · exact ⟨hok.gotoGiven hg rfl rfl trivial fun _ => rfl, quiet_singleton trivial, .refl w, rfl,
              .refl w, rfl⟩
          · exact ⟨hok.gotoGiven hg rfl rfl trivial fun _ => rfl, quiet_singleton trivial, .refl w, rfl,
              .refl w, rfl⟩

/-- **The rest of a round keeps the invariant.** -/
theorem Ok.afterDequeue (hok : Ok w pc) (hj : JobHeaders.Sound h j)
    (oneshot : Nat → Signal → Bool) {sig : Signal} (info : Siginfo)
    (hg : Given (w.task t) (pc t) sig) (hsome : (w.task t).sighand ≠ none) :
    RoundOk w pc t (afterDequeue x h j oneshot w t sig info) := by
  unfold Machine.afterDequeue
  split
  · next hp =>
    have hlocked : Ok w (Function.update pc t .locked) :=
      hok.gotoGiven hg rfl rfl trivial fun he => absurd he hp.2
    have hbits := hlocked.setJobctl (t := t) (f := fun s => s.jobctl ||| JOBCTL_STOP_DEQUEUED)
      (stopBits_or _ (by decide) (by decide)) fun h0 => absurd h0 hp.1
    have hsame : Kept w (w.onTask t fun s =>
        { s with jobctl := s.jobctl ||| JOBCTL_STOP_DEQUEUED }) := .onTask w t ⟨rfl, rfl⟩
    have hmay : MayTrap (Function.update pc t .locked t) (.signal sig info) .trapped := by
      rw [Function.update_self]
      exact mayTrap_locked rfl
    have hr := hbits.trapRound hmay hp.1 (BitVec.ofNat 32 sig.num) false
      (decide (info.siCode >>> 8 = (j.PTRACE_EVENT_STOP.toNat : Int)))
    exact RoundOk.of_goto ⟨hr.ok, hr.quiet, hsame.trans hr.kept, hr.untimed,
      (Lasts.onTask w t _).trans hr.lasts, hr.unlocks⟩
  · exact hok.actOn x h j hj oneshot info hg hsome

theorem Pc.eq_locked {k : Pc a} (hk : k.isLocked ≠ false) : k = .locked := by
  cases k with
  | locked => rfl
  | _ => exact absurd rfl hk

theorem RoundOk.eq_locked {r : Round a} (h : RoundOk w pc t r) (hl : ¬ r.unlocks = true) :
    r.pc = .locked := by
  refine Pc.eq_locked fun hno => hl ?_
  rw [h.unlocks, hno]
  rfl

/-- **A round of the loop keeps the invariant.** -/
theorem Ok.iterate (hok : Ok w pc) (hj : JobHeaders.Sound h j) (hpc : pc t = .locked)
    (hsome : (w.task t).sighand ≠ none) (oneshot : Nat → Signal → Bool)
    (notifier : Option (Notifier a)) (freezing rearms : Bool) :
    RoundOk w pc t (iterate x h j i oneshot notifier freezing rearms w t) := by
  unfold Machine.iterate
  dsimp only
  obtain ⟨r, hr, hrok⟩ : ∃ r : Round a, r = (if (w.task t).stopPending = true then
      Machine.stopRound x h w t 0 else ⟨w, .locked, [], false⟩) ∧ RoundOk w pc t r := by
    refine ⟨_, rfl, ?_⟩
    split
    · exact hok.stopRound x h hpc BitVec.zero_and
    · refine ⟨?_, quiet_nil, .refl w, rfl, .refl w, rfl⟩
      rw [← hpc, Function.update_eq_self]
      exact hok
  rw [← hr]
  by_cases hl : r.unlocks = true
  · rw [if_pos hl]
    exact hrok
  · rw [if_neg hl]
    have hrpc : Ok r.world pc := by
      have hok' := hrok.ok
      rw [hrok.eq_locked hl, ← hpc, Function.update_eq_self] at hok'
      exact hok'
    by_cases ht : (r.world.task t).jobctl &&& JOBCTL_TRAP_MASK ≠ 0
    · rw [if_pos ht]
      have hr' := hrpc.doJobctlTrap h j hpc ht
      exact ⟨hr'.ok, hrok.quiet.append hr'.quiet, hrok.kept.trans hr'.kept, hr'.untimed,
        hrok.lasts.trans hr'.lasts, hr'.unlocks⟩
    · rw [if_neg ht]
      have hlook := looked_dequeueSignal (t := t) h j i notifier (r.world.task t).blocked hrpc.grouped
        freezing
      cases hd : dequeueSignal h j i notifier freezing r.world t (r.world.task t).blocked with
      | mk v d =>
        rw [hd] at hlook
        have hs := hrok.kept.trans (.of_looked hlook)
        have hls := hrok.lasts.trans (.looked hlook)
        cases d with
        | none =>
          refine ⟨hrpc.looked hlook (by rw [hpc]; trivial) ?_ nofun, hrok.quiet, hs, rfl, hls, rfl⟩
          rw [hpc]
          exact ⟨rfl, nofun, nofun, fun _ => Or.inr hlook.own.told, nofun, nofun, trivial⟩
        | some d =>
          obtain ⟨sig, info⟩ := d
          -- the thread has the signal now
          have hgot : Ok v (Function.update pc t (.rearm sig info)) := by
            refine hrpc.looked hlook (by rw [hpc]; trivial) ?_ fun he =>
              decide_eq_true (Option.some.inj he)
            rw [hpc]
            exact ⟨rfl, nofun, nofun, fun _ => Or.inr hlook.own.told, nofun, nofun, trivial⟩
          dsimp only
          split
          · exact ⟨hgot, hrok.quiet, hs, rfl, hls, rfl⟩
          · have hgiven : Given (v.task t) (Function.update pc t (.rearm sig info) t) sig := by
              rw [Function.update_self]
              exact given_rearm
            have hr' := (hgot.afterDequeue x h j hj oneshot info hgiven
              (by rw [hs.sighand]; exact hsome)).of_goto
            exact ⟨hr'.ok, hrok.quiet.append hr'.quiet, hs.trans hr'.kept, hr'.untimed,
              hls.trans hr'.lasts, hr'.unlocks⟩

/-! ### After a trap -/

theorem recalcSigpendingTsk_eq (s : Task a) : (recalcSigpendingTsk s).1 =
    { s with tifSigpending := (recalcSigpendingTsk s).1.tifSigpending } := by
  unfold recalcSigpendingTsk
  split
  · rfl
  · rfl

/-- **The end of `ptrace_stop` keeps the invariant**, and the thread has been told then. -/
theorem Ok.ptraceResume (hok : Ok w pc) (hhalts : ∀ s, (pc t).Sound s)
    (hlooks : (pc t).looks = true) :
    Ok (ptraceResume w t) pc ∧ Told ((ptraceResume w t).task t) ∧ Kept w (ptraceResume w t) := by
  have hbits := stopBits_clear (w.task t) (k := JOBCTL_LISTENING) (by decide) (by decide)
  have htold := told_recalcSigpendingTsk
    { w.task t with jobctl := (w.task t).jobctl &&& ~~~JOBCTL_LISTENING }
  have heq := recalcSigpendingTsk_eq
    { w.task t with jobctl := (w.task t).jobctl &&& ~~~JOBCTL_LISTENING }
  unfold Signals.ptraceResume
  refine ⟨hok.onTask t ?_ (fun _ _ => rfl) ?_ ?_ (fun _ _ hs => ?_) (fun hd => ?_)
    fun _ sig _ => ⟨fun hb => ?_, fun hb _ => ?_⟩, ?_, .onTask w t (by rw [heq]; exact ⟨rfl, rfl⟩)⟩
  · rw [heq]
    exact ⟨rfl, rfl, rfl⟩
  · refine (hok.thread t).refreshed ⟨?_, ?_, ?_, ?_, ?_, ?_, htold⟩ rfl rfl ?_ (hhalts _)
    · rw [heq]
    · rw [heq]
    · rw [heq]
    · rw [heq]
      exact fun _ => id
    · rw [heq]
      exact hbits
    · rw [heq]
      exact fun ht => and_eq_zero_of_and ht
    · rw [heq]
      exact (hok.thread t).unblocked
  · rw [heq]
    exact hbits.2
  · rw [heq]
    exact hs
  · rw [heq]
    exact hd
  · rw [heq] at hb
    exact Or.inl hb
  · rw [heq]
    exact ⟨hb, Or.inr hlooks⟩
  · rw [World.onTask_task_self]
    exact htold

/-- From the end of `ptrace_stop` to a place that a thread is at which does not exit. -/
theorem follows_untrapped {s : Task a} {m : Thread a} {trap : Trap} {k : Pc a} {caller : Caller}
    (hc : trap.caller = caller) (he : caller.exits = false) (hg : k.isGone = false)
    (hl : (Pc.untrapped trap : Pc a).looks = true → k.looks = true ∨ Told s)
    (hs : k.Sound s) (ht : k.traps = false) : Follows s m (.untrapped trap) k := by
  have hdead : (Pc.untrapped trap : Pc a).isDead = false := (congrArg Caller.exits hc).trans he
  exact ⟨hg, fun h => absurd (hdead.symm.trans h) Bool.false_ne_true,
    fun h => absurd (hdead.symm.trans h) Bool.false_ne_true, hl, nofun,
    fun h => absurd (ht.symm.trans h) Bool.false_ne_true, hs⟩

/-- **What a thread does after a trap keeps the invariant.** -/
theorem Ok.afterTrap (hok : Ok w pc) (hj : JobHeaders.Sound h j) {trap : Trap}
    (hpc : pc t = .untrapped trap) (htold : Told (w.task t)) (hsome : (w.task t).sighand ≠ none)
    (oneshot : Nat → Signal → Bool) (alloc hidden : Bool) (pid : Int) (uid : Nat) {r : Round a}
    (hr : afterTrap x h j oneshot alloc hidden pid uid w t trap.caller = some r) :
    RoundOk w pc t r := by
  unfold Machine.afterTrap at hr
  cases hc : trap.caller with
  | jobctlTrap seized =>
    rw [hc] at hr
    obtain rfl := Option.some.inj hr
    have hlook : Ok w (Function.update pc t .relock) := by
      refine hok.goto t ?_
      rw [hpc]
      exact follows_untrapped hc rfl rfl (fun _ => Or.inl rfl) trivial rfl
    refine ⟨?_, quiet_nil, ?_, rfl, ?_, rfl⟩
    · dsimp only
      split
      · exact hlook
      · exact hlook.setExitCode 0
    · dsimp only
      split
      · exact .refl w
      · exact .onThread w t rfl
    · dsimp only
      split
      · exact .refl w
      · exact .onThread w t rfl
  | notify exits =>
    rw [hc] at hr
    obtain rfl := Option.some.inj hr
    refine ⟨hok.goto t ?_, quiet_nil, .refl w, ?_, .refl w, ?_⟩
    · rw [hpc]
      cases exits with
      | true =>
        exact ⟨rfl, fun _ => rfl, fun _ => rfl, fun _ => Or.inr htold, nofun, nofun, trivial⟩
      | false => exact follows_untrapped hc rfl rfl (fun _ => Or.inr htold) trivial rfl
    · cases exits with
      | _ => rfl
    · cases exits with
      | _ => rfl
  | signal sig₀ info =>
    rw [hc] at hr
    dsimp only at hr
    have hlook : Ok w (Function.update pc t .locked) := by
      refine hok.goto t ?_
      rw [hpc]
      exact follows_untrapped hc rfl rfl (fun _ => Or.inl rfl) trivial rfl
    by_cases hcode : (w.thread t).exitCode = 0
    · rw [if_pos hcode] at hr
      obtain rfl := Option.some.inj hr
      exact ⟨hlook, quiet_nil, .refl w, rfl, .refl w, rfl⟩
    · rw [if_neg hcode] at hr
      cases hsig : toSignal (w.thread t).exitCode.toNat with
      | none =>
        rw [hsig] at hr
        cases hr
      | some sig =>
        rw [hsig] at hr
        dsimp only at hr
        split at hr
        · obtain rfl := Option.some.inj hr
          have hsent := Spares.sendSignal₀ x h alloc (w.onThread t fun m => { m with exitCode := 0 })
            sig (.real sig (if sig = info.siSigno then info else ⟨sig, 0, SI_USER, pid, uid⟩).siCode) t
            false (siFromuser (.real sig
              (if sig = info.siSigno then info else ⟨sig, 0, SI_USER, pid, uid⟩).siCode) && hidden)
          exact ⟨(hlook.setExitCode 0).sendSignal x h hj alloc hidden sig _ t false, quiet_nil,
            (Kept.onThread w t rfl).trans (.of_spares hsent), rfl, (Lasts.onThread w t rfl).trans
              (lasts_sendSignal₀ x h hj (hlook.setExitCode 0) alloc sig _ t false _), rfl⟩
        · obtain rfl := Option.some.inj hr
          have hgiven : Given ((w.onThread t fun m => { m with exitCode := 0 }).task t) (pc t) sig := by
            have hdead : (Pc.untrapped trap : Pc a).isDead = false := congrArg Caller.exits hc
            rw [hpc]
            exact ⟨rfl, hdead, rfl, fun hd => absurd (hdead.symm.trans hd) Bool.false_ne_true,
              fun _ => htold⟩
          have hact := (hok.setExitCode (t := t) 0).actOn x h j hj oneshot
            (if sig = info.siSigno then info else ⟨sig, 0, SI_USER, pid, uid⟩) hgiven hsome
          exact ⟨hact.ok, hact.quiet, (Kept.onThread w t rfl).trans hact.kept, hact.untimed,
            (Lasts.onThread w t rfl).trans hact.lasts, hact.unlocks⟩

end

end LinuxKerDev.Signals.Machine
