import LinuxKerDev.Signals.Counters
import LinuxKerDev.Signals.MachineOk

/-!
# What holds of the processes in every run

`Fresh` is a system of threads in user mode that have not been sent anything yet.  Whatever
they and the rest of the kernel then do, in whatever order, `SysOk` holds, and the theorems
here are what it comes to: the count of a group stop is right, a process that has stopped has
stopped with all its threads, one that exits has told them all, no signal is slept through,
and nothing ever blocks `SIGKILL` or `SIGSTOP`.
-/

namespace LinuxKerDev.Signals.Machine

open Lib

variable {a : Arch}

/-- Nothing has been sent to anybody.  No process is `SIGNAL_UNKILLABLE`, as `init` would be. -/
structure Fresh (j : JobHeaders a) (s : Sys a) : Prop where
  grouped : Grouped s.world
  dfl : ∀ d sig, sig = SIGKILL ∨ sig = j.SIGSTOP → (s.world.action d sig).handler = .dfl
  signal : ∀ p, (s.world.signalOf p).flags = 0 ∧ (s.world.signalOf p).groupStopCount = 0
  state : ∀ t, (s.world.task t).state = TASK_RUNNING ∧ (s.world.task t).exitState = 0
  jobctl : ∀ t, (s.world.task t).jobctl = 0
  pending : ∀ t sig, sigismember (s.world.task t).pending sig = false
  shared : ∀ t sig, sigismember (s.world.task t).sharedPending sig = false
  queues : ∀ t, (s.world.thread t).queue = [] ∧ (s.world.signalOf t).queue = []
  blocked : ∀ t, Clear j (s.world.task t).blocked
  realBlocked : ∀ t, Clear j (s.world.thread t).realBlocked
  exiting : ∀ t, (s.world.thread t).exiting = false
  user : ∀ t, s.pc t = .user
  holder : ∀ d, s.holder d = none
  saved : ∀ t, s.saved t = none
  saMask : ∀ d sig, Clear j (s.saMask d sig)

namespace Fresh

variable {j : JobHeaders a} {s : Sys a} (h : Fresh j s)
include h

theorem not_stopPending (t : Nat) : (s.world.task t).stopPending = false := by
  rw [Task.stopPending, h.jobctl]
  rfl

theorem not_consumes (t : Nat) : (s.world.task t).consumes = false := by
  rw [Task.consumes, h.jobctl]
  rfl

theorem live (p : Nat) : signalGroupExit (s.world.signalOf p) = false := by
  rw [signalGroupExit, (h.signal p).1]
  rfl

theorem not_pending {t : Nat} {sig : Signal} {P : Prop}
    (hs : sigismember (s.world.task t).pending sig = true) : P := by
  rw [h.pending] at hs
  cases hs

theorem threadOk (t : Nat) :
    ThreadOk (signalGroupExit (s.world.signalOf t)) (s.world.task t) (s.world.thread t) (s.pc t) := by
  have hstate := (h.state t).1
  have hstopped : taskIsStopped (s.world.task t) = false := by
    rw [taskIsStopped, hstate]
    rfl
  have hno : ∀ {P : Prop}, (s.world.task t).consumes = true → P := fun hc => by
    rw [h.not_consumes] at hc
    cases hc
  rw [h.user]
  exact
    { consumes := hno
      awake := hno
      leaving := fun _ => hno
      dead := fun _ => hno
      gone := h.exiting t
      zombie := fun hx => absurd (h.state t).2 hx
      kill := h.not_pending
      fatal := h.not_pending
      unblocked := ⟨h.blocked t _ (Or.inl rfl), h.realBlocked t _ (Or.inl rfl)⟩
      stopAlert := fun _ hs => by
        rw [h.not_stopPending] at hs
        cases hs
      alert := fun _ _ => h.not_pending
      stopped := fun hs => by
        rw [hstopped] at hs
        cases hs
      halts := fun hs => by
        rw [hstate] at hs
        exact absurd rfl hs
      untraced := fun _ => ⟨by rw [h.jobctl]; rfl, rfl⟩
      sound := trivial }

theorem groupOk (p : Nat) : GroupOk s.world s.pc p := by
  have hflags : ∀ bit : BitVec 32, (s.world.signalOf p).flags &&& bit = 0 := fun bit => by
    rw [(h.signal p).1]
    exact BitVec.zero_and
  have hdead : ∀ {P : Prop}, signalGroupExit (s.world.signalOf p) = true → P := fun hge => by
    rw [h.live] at hge
    cases hge
  refine
    { killable := hflags _
      count := fun _ => ?_
      spent := hdead
      doomed := hdead
      quorum := fun _ _ hc => absurd (h.signal p).2 hc
      halted := fun _ _ hf => absurd (hflags _) hf
      taker := fun _ sig hs => ?_ }
  · rw [(h.signal p).2]
    exact .none fun u _ => h.not_consumes u
  · rw [h.shared] at hs
    cases hs

/-- **The invariant holds at first.** -/
theorem sysOk : SysOk j s where
  ok := ⟨h.grouped, fun d => h.dfl d _ (Or.inl rfl), h.threadOk, h.groupOk⟩
  blocked := h.blocked
  realBlocked := h.realBlocked
  saved t set hs := by
    rw [h.saved] at hs
    cases hs
  saMask := h.saMask
  waits t mask hm := by
    rw [h.user] at hm
    cases hm
  locked t hl := by
    rw [h.user] at hl
    cases hl
  holder d t hh := by
    rw [h.holder] at hh
    cases hh

end Fresh

/-! ### Two threads -/

/-- Threads 0 and 1 are a process, and everybody else is one alone. -/
def others (t : Nat) : List Nat := if t = 0 then [1] else if t = 1 then [0] else []

def leader (t : Nat) : Nat := if t = 1 then 0 else t

/-- Threads in user mode, with 2 for the parent of all. -/
def pair : Sys .oneWord where
  world :=
    { World.ofKernel
        { pids := fun _ => none
          task := fun t =>
            { state := TASK_RUNNING
              exitState := 0
              sighand := some (leader t)
              threadGroup := others t
              pending := sigemptyset
              sharedPending := sigemptyset
              blocked := sigemptyset
              jobctl := 0
              tifSigpending := false }
          log := []
          printed := [] } with
      thread := fun t =>
        { signal := leader t
          realBlocked := sigemptyset
          ptrace := 0
          exiting := false
          running := false
          queue := []
          parent := 2
          realParent := 2
          groupLeader := leader t
          exitCode := 0
          parentExecId := 0
          selfExecId := 0 } }
  pc _ := .user
  holder _ := none
  saMask _ _ := sigemptyset
  oneshot _ _ := false
  saved _ := none

theorem grouped_pair : Grouped pair.world := by
  have hthreads : ∀ t, pair.world.threads t = t :: others t := fun _ => rfl
  have hmem : ∀ t u, u ∈ t :: others t ↔ leader u = leader t := by
    intro t u
    have hlist : u ∈ t :: others t ↔ u = t ∨ t = 0 ∧ u = 1 ∨ t = 1 ∧ u = 0 := by
      unfold others
      by_cases h0 : t = 0
      · rw [if_pos h0, List.mem_cons, List.mem_singleton]
        omega
      · by_cases h1 : t = 1
        · rw [if_neg h0, if_pos h1, List.mem_cons, List.mem_singleton]
          omega
        · rw [if_neg h0, if_neg h1, List.mem_singleton]
          omega
    rw [hlist, leader, leader]
    split_ifs
    all_goals omega
  refine ⟨fun t => ?_, fun t u => by rw [hthreads]; exact hmem t u, fun t u hu => ?_,
    fun _ _ _ => rfl, fun t => ?_⟩
  · rw [hthreads]
    unfold others
    split_ifs
    · exact List.nodup_cons.mpr ⟨by rw [List.mem_singleton]; omega, List.nodup_singleton 1⟩
    · exact List.nodup_cons.mpr ⟨by rw [List.mem_singleton]; omega, List.nodup_singleton 0⟩
    · exact List.nodup_singleton t
  · rw [hthreads] at hu
    exact congrArg some ((hmem t u).mp hu)
  · rw [hthreads]
    refine (hmem t _).mpr ?_
    show leader (leader t) = leader t
    unfold leader
    split_ifs
    all_goals omega

theorem fresh_pair : Fresh (JobHeaders.x86 .oneWord) pair where
  grouped := grouped_pair
  dfl _ _ _ := rfl
  signal _ := ⟨rfl, rfl⟩
  state _ := ⟨rfl, rfl⟩
  jobctl _ := rfl
  pending _ sig := sigismember_sigemptyset sig
  shared _ sig := sigismember_sigemptyset sig
  queues _ := ⟨rfl, rfl⟩
  blocked _ := clear_sigemptyset
  realBlocked _ := clear_sigemptyset
  exiting _ := rfl
  user _ := rfl
  holder _ := rfl
  saved _ := rfl
  saMask _ _ := clear_sigemptyset

abbrev pairStep : Step (Sys .oneWord) (Act .oneWord) Event :=
  step (Extern.simplest .oneWord) (.linux _) (Headers.x86 .oneWord) (JobHeaders.x86 .oneWord)
    Infos.simplest

/-- A thread goes into the loop and looks once. -/
def look (t : Nat) : List (Act .oneWord) := [.deliver t, .lock t, .iterate t none false false]

def stopping : List (Act .oneWord) :=
  .send true false (JobHeaders.x86 .oneWord).SIGSTOP .noinfo 0 true :: look 0

def doze (t : Nat) : List (Act .oneWord) := [.sleep t TASK_INTERRUPTIBLE, .setState t, .schedule t]

def SIGUSR1 : Signal := ⟨10, by decide, by decide⟩

/-- Thread 0 has `SIGUSR1` handled and blocked. -/
def handling : List (Act .oneWord) :=
  [.rtSigaction 0 SIGUSR1 ⟨.user, false, false⟩ sigemptyset false,
    .rtSigprocmask 0 false .block (sigmask SIGUSR1)]

def usr1 : Act .oneWord := .send true false SIGUSR1 .noinfo 0 true

/-! ### Every run -/

/-- The thread sleeps, and not because it has been stopped. -/
def Pc.dozes : Pc a → Bool
  | .asleep k => !k.isJobctl
  | _ => false

section

variable {x : Extern a} {o : Outer x} {h : Headers a} {j : JobHeaders a} {i : Infos} {s₀ s : Sys a}
  {as : List (Act a)} {es : List Event}

/-- **The invariant holds whatever happens.** -/
theorem sysOk_of_run (hj : JobHeaders.Sound h j) (h₀ : Fresh j s₀)
    (hr : Run (step x o h j i) s₀ as es s) : SysOk j s ∧ Quiet es :=
  hr.inv (I := fun es s => SysOk j s ∧ Quiet es) ⟨h₀.sysOk, quiet_nil⟩ fun hI hs => by
    have hstep := SysOk.step x o h j i hj hI.1 hs
    exact ⟨hstep.ok, hI.2.append hstep.quiet⟩

/-- **The count of a group stop is the number of the threads that have yet to stop**, and is
zero in a process on its way out, so that no thread that takes part finds it at zero. -/
theorem group_stop_counted (hj : JobHeaders.Sound h j) (h₀ : Fresh j s₀)
    (hr : Run (step x o h j i) s₀ as es s) (p : Nat) :
    (s.world.signalOf p).groupStopCount =
        (if signalGroupExit (s.world.signalOf p) = true then 0
          else (s.world.threads p).countP fun u => (s.world.task u).consumes) ∧
      ∀ v, Event.warning v ∈ es → v = .noSigno := by
  obtain ⟨hs, hq⟩ := sysOk_of_run hj h₀ hr
  refine ⟨?_, fun v hv => hq _ hv⟩
  split
  · next hge => exact (hs.ok.group p).spent hge
  · next hge => exact (hs.ok.group p).count (Bool.eq_false_iff.mpr hge)

/-- Thread 0 has stopped, and thread 1 has yet to. -/
theorem group_stop_counted_pair : ∃ es s, Run pairStep pair stopping es s ∧
    ((s.world.threads 0).countP fun u => (s.world.task u).consumes) = 1 ∧
      ∀ v, Event.warning v ∈ es → v = .noSigno := by
  obtain ⟨es, s, hr, hlive, hcount⟩ := exists_run pairStep pair stopping
    (fun _ s => signalGroupExit (s.world.signalOf 0) = false ∧
      (s.world.signalOf 0).groupStopCount = 1) (by decide +kernel)
  obtain ⟨hc, hw⟩ := group_stop_counted (JobHeaders.sound_x86 _) fresh_pair hr 0
  rw [hlive, hcount] at hc
  exact ⟨es, s, hr, hc.symm, hw⟩

theorem SysOk.alert_of_consumes (hs : SysOk j s) {t : Nat}
    (hc : (s.world.task t).consumes = true) (hx : (s.world.thread t).exiting = false) :
    Alert (s.world.task t) (s.pc t) :=
  (hs.ok.thread t).stopAlert hx ((hs.ok.thread t).consumes hc)

/-- **A process without a debugger that stops does so with all its threads**: once it has
stopped there is none that has not, and until then each has stopped, is leaving, or knows
that it has to. -/
theorem group_stop_complete (hj : JobHeaders.Sound h j) (h₀ : Fresh j s₀)
    (hr : Run (step x o h j i) s₀ as es s) {p : Nat} (hn : Untraced s.world p)
    (hlive : signalGroupExit (s.world.signalOf p) = false) :
    ((s.world.signalOf p).flags &&& SIGNAL_STOP_STOPPED ≠ 0 → ∀ u ∈ s.world.threads p,
        (s.world.task u).state = TASK_STOPPED ∨ (s.world.thread u).exiting = true) ∧
      ((s.world.signalOf p).groupStopCount ≠ 0 → ∀ u ∈ s.world.threads p,
        (s.world.task u).consumes = true ∧ Alert (s.world.task u) (s.pc u) ∨
          (s.world.task u).state = TASK_STOPPED ∨ (s.world.thread u).exiting = true) := by
  obtain ⟨hs, -⟩ := sysOk_of_run hj h₀ hr
  have hstate : ∀ {u}, taskIsStopped (s.world.task u) = true → (s.world.task u).state = TASK_STOPPED :=
    fun {u} => (hs.ok.thread u).stopped
  refine ⟨fun hf u hu => ((hs.ok.group p).halted hn hlive hf u hu).imp_left hstate, fun hc u hu => ?_⟩
  rcases (hs.ok.group p).quorum hn hlive hc u hu with hin | hst | hx
  · cases hx : (s.world.thread u).exiting with
    | true => exact Or.inr (Or.inr rfl)
    | false => exact Or.inl ⟨hin, hs.alert_of_consumes hin hx⟩
  · exact Or.inr (Or.inl (hstate hst))
  · exact Or.inr (Or.inr hx)

/-- Thread 1 stops as well. -/
theorem group_stop_complete_pair : ∃ es s, Run pairStep pair (stopping ++ look 1) es s ∧
    ∀ u ∈ s.world.threads 0,
      (s.world.task u).state = TASK_STOPPED ∨ (s.world.thread u).exiting = true := by
  obtain ⟨es, s, hr, hn, hlive, hflags⟩ := exists_run pairStep pair (stopping ++ look 1)
    (fun _ s => (∀ u ∈ s.world.threads 0, (s.world.thread u).ptrace = 0) ∧
      signalGroupExit (s.world.signalOf 0) = false ∧
      (s.world.signalOf 0).flags &&& SIGNAL_STOP_STOPPED ≠ 0) (by decide +kernel)
  exact ⟨es, s, hr, (group_stop_complete (JobHeaders.sound_x86 _) fresh_pair hr hn hlive).1 hflags⟩

/-- **A signal for a process finds a thread.**  If there is one that does not block it and is
not leaving, there is one that also knows of it. -/
theorem shared_signal_taken (hj : JobHeaders.Sound h j) (h₀ : Fresh j s₀)
    (hr : Run (step x o h j i) s₀ as es s) {p : Nat} {sig : Signal}
    (hlive : signalGroupExit (s.world.signalOf p) = false)
    (hsig : sigismember (s.world.task p).sharedPending sig = true)
    (hex : ∃ u ∈ s.world.threads p, CanTake s.world sig u) :
    ∃ u ∈ s.world.threads p, CanTake s.world sig u ∧ Alert (s.world.task u) (s.pc u) :=
  ((sysOk_of_run hj h₀ hr).1.ok.group p).taker hlive sig hsig hex

/-- Thread 0 blocks `SIGUSR1`, so thread 1 is told. -/
theorem shared_signal_taken_pair : ∃ es s, Run pairStep pair (handling ++ [usr1]) es s ∧
    ∃ u ∈ s.world.threads 0, CanTake s.world SIGUSR1 u ∧ Alert (s.world.task u) (s.pc u) := by
  obtain ⟨es, s, hr, hlive, hsig, hex⟩ := exists_run pairStep pair (handling ++ [usr1])
    (fun _ s => signalGroupExit (s.world.signalOf 0) = false ∧
      sigismember (s.world.task 0).sharedPending SIGUSR1 = true ∧
      ∃ u ∈ s.world.threads 0, (s.world.thread u).exiting = false ∧
        sigismember (s.world.task u).blocked SIGUSR1 = false) (by decide +kernel)
  exact ⟨es, s, hr, shared_signal_taken (JobHeaders.sound_x86 _) fresh_pair hr hlive hsig hex⟩

/-- A thread that dozes interruptibly has not been told of anything. -/
theorem SysOk.not_alert (hs : SysOk j s) {t : Nat} (hpc : (s.pc t).dozes = true)
    (hstate : (s.world.task t).state &&& TASK_INTERRUPTIBLE ≠ 0) :
    ¬ Alert (s.world.task t) (s.pc t) := by
  have hsound := (hs.ok.thread t).sound
  generalize s.pc t = pc at hpc hsound ⊢
  cases pc with
  | asleep k =>
    rintro (htif | hlooks)
    · refine Bool.false_ne_true (hsound.symm.trans (ThreadOk.signalPendingState_eq_true.mpr
        ⟨fun h0 => hstate ?_, htif, Or.inl hstate⟩))
      rw [BitVec.and_or_distrib_left] at h0
      exact (BitVec.or_eq_zero_iff.mp h0).1
    · have hk : k.isJobctl = false := by simpa [Pc.dozes] using hpc
      have hyes : k.isJobctl = true := hlooks
      rw [hk] at hyes
      cases hyes
  | _ => cases hpc

/-- **No signal is slept through.**  Where every thread of a process that is not leaving sleeps
interruptibly, whatever is pending for one of them is blocked there. -/
theorem no_signal_slept_through (hj : JobHeaders.Sound h j) (h₀ : Fresh j s₀)
    (hr : Run (step x o h j i) s₀ as es s) {p : Nat}
    (hall : ∀ u ∈ s.world.threads p, (s.world.thread u).exiting = true ∨
      (s.pc u).dozes = true ∧ (s.world.task u).state &&& TASK_INTERRUPTIBLE ≠ 0) :
    ∀ u ∈ s.world.threads p, (s.world.thread u).exiting = false → ∀ sig,
      sigismember (s.world.task u).pending sig = true ∨
        sigismember (s.world.task u).sharedPending sig = true →
      sigismember (s.world.task u).blocked sig = true := by
  obtain ⟨hs, -⟩ := sysOk_of_run hj h₀ hr
  have hdeaf : ∀ u ∈ s.world.threads p, (s.world.thread u).exiting = false →
      ¬ Alert (s.world.task u) (s.pc u) := fun u hu hx => by
    rcases hall u hu with hx' | ⟨hpc, hstate⟩
    · rw [hx] at hx'
      cases hx'
    · exact hs.not_alert hpc hstate
  intro u hu hx sig hsig
  by_contra hb
  have hcan : CanTake s.world sig u := ⟨hx, Bool.eq_false_iff.mpr hb⟩
  rcases hsig with hown | hshared
  · exact hdeaf u hu hx ((hs.ok.thread u).alert hx sig hown hcan.2)
  · -- an exiting process would have told the thread
    have hlive : signalGroupExit (s.world.signalOf p) = false := Bool.eq_false_iff.mpr fun hge => by
      rcases (hs.ok.group p).doomed hge u hu with hkill | hdoomed
      · exact hdeaf u hu hx (Or.inl ((hs.ok.thread u).fatal hkill hx))
      · rcases hall u hu with hx' | ⟨hpc, -⟩
        · rw [hx] at hx'
          cases hx'
        · generalize s.pc u = pc at hpc hdoomed
          cases pc with
          | asleep k =>
            cases k with
            | trap tr => cases hpc
            | _ => cases hdoomed
          | _ => cases hpc
    rw [hs.ok.grouped.shared p u hu] at hshared
    obtain ⟨v, hv, hcan', halert⟩ := (hs.ok.group p).taker hlive sig hshared ⟨u, hu, hcan⟩
    exact hdeaf v hv hcan'.1 halert

/-- Both sleep on a `SIGUSR1` that both block. -/
theorem no_signal_slept_through_pair : ∃ es s,
    Run pairStep pair (handling ++ .rtSigprocmask 1 false .block (sigmask SIGUSR1) :: usr1 ::
      (doze 0 ++ doze 1)) es s ∧ sigismember (s.world.task 1).blocked SIGUSR1 = true := by
  obtain ⟨es, s, hr, hall, hmem, hx, hsig⟩ := exists_run pairStep pair
    (handling ++ .rtSigprocmask 1 false .block (sigmask SIGUSR1) :: usr1 :: (doze 0 ++ doze 1))
    (fun _ s => (∀ u ∈ s.world.threads 0, (s.world.thread u).exiting = true ∨
        (s.pc u).dozes = true ∧ (s.world.task u).state &&& TASK_INTERRUPTIBLE ≠ 0) ∧
      1 ∈ s.world.threads 0 ∧ (s.world.thread 1).exiting = false ∧
      sigismember (s.world.task 1).sharedPending SIGUSR1 = true) (by decide +kernel)
  exact ⟨es, s, hr, no_signal_slept_through (JobHeaders.sound_x86 _) fresh_pair hr hall 1 hmem hx
    SIGUSR1 (Or.inr hsig)⟩

/-- **Nothing ever blocks `SIGKILL` or `SIGSTOP`**: no mask, none that is set aside and none of
an action; and no `do_sigtimedwait` waits for them. -/
theorem kill_stop_unblocked (hj : JobHeaders.Sound h j) (h₀ : Fresh j s₀)
    (hr : Run (step x o h j i) s₀ as es s) {sig : Signal} (hsig : sig = SIGKILL ∨ sig = j.SIGSTOP) :
    (∀ t, sigismember (s.world.task t).blocked sig = false ∧
        sigismember (s.world.thread t).realBlocked sig = false) ∧
      (∀ t set, s.saved t = some set → sigismember set sig = false) ∧
      (∀ d sig', sigismember (s.saMask d sig') sig = false) ∧
      ∀ t mask, (s.pc t).timedMask = some mask → sigismember mask sig = true := by
  obtain ⟨hs, -⟩ := sysOk_of_run hj h₀ hr
  exact ⟨fun t => ⟨hs.blocked t sig hsig, hs.realBlocked t sig hsig⟩,
    fun t set hset => hs.saved t set hset sig hsig, fun d sig' => hs.saMask d sig' sig hsig,
    fun t mask hm => hs.waits t mask hm sig hsig⟩

/-- A thread that blocks all signals it can. -/
theorem kill_stop_unblocked_pair : ∃ es s,
    Run pairStep pair [.rtSigprocmask 0 false .setmask (signotset sigemptyset)] es s ∧
      sigismember (s.world.task 0).blocked SIGUSR1 = true ∧
      sigismember (s.world.task 0).blocked SIGKILL = false := by
  obtain ⟨es, s, hr, hyes⟩ := exists_run pairStep pair
    [.rtSigprocmask 0 false .setmask (signotset sigemptyset)]
    (fun _ s => sigismember (s.world.task 0).blocked SIGUSR1 = true) (by decide +kernel)
  exact ⟨es, s, hr, hyes,
    ((kill_stop_unblocked (JobHeaders.sound_x86 _) fresh_pair hr (Or.inl rfl)).1 0).1⟩

/-- **One thread at a time goes through the loop of `get_signal_to_deliver`**, of those that
share a `sighand`, and it is the one that has the lock.  Nobody takes a lock that it has, and
nobody gives one back that it has not. -/
theorem siglock_exclusive (hj : JobHeaders.Sound h j) (h₀ : Fresh j s₀)
    (hr : Run (step x o h j i) s₀ as es s) :
    (∀ d t, s.holder d = some t ↔ s.pc t = .locked ∧ (s.world.task t).sighand = some d) ∧
      (∀ t u, s.pc t = .locked → s.pc u = .locked →
        (s.world.task t).sighand = (s.world.task u).sighand → t = u) ∧
      ∀ t call, Event.misused t call ∉ es := by
  obtain ⟨hs, hq⟩ := sysOk_of_run hj h₀ hr
  have hlocked : ∀ {t}, s.pc t = .locked → (s.pc t).isLocked = true := fun hpc => by
    rw [hpc]
    rfl
  refine ⟨fun d t => ⟨fun hh => ?_, fun ⟨hpc, hd⟩ => ?_⟩, fun t u ht hu hsame => ?_,
    fun t call he => hq _ he⟩
  · obtain ⟨hl, hd⟩ := hs.holder d t hh
    exact ⟨Pc.eq_locked (by rw [hl]; decide), hd⟩
  · obtain ⟨d', hd', hh⟩ := hs.locked t (hlocked hpc)
    rw [hd'] at hd
    rwa [← Option.some.inj hd]
  · obtain ⟨d, hd, hh⟩ := hs.locked t (hlocked ht)
    obtain ⟨d', hd', hh'⟩ := hs.locked u (hlocked hu)
    rw [hd, hd'] at hsame
    rw [Option.some.inj hsame, hh'] at hh
    exact (Option.some.inj hh).symm

/-- Thread 0 is at the head of the loop, and thread 1 waits for the lock. -/
theorem siglock_exclusive_pair : ∃ es s,
    Run pairStep pair [.deliver 0, .deliver 1, .lock 0] es s ∧ s.pc 0 = .locked ∧ s.pc 1 ≠ .locked := by
  obtain ⟨es, s, hr, hl, hd⟩ := exists_run pairStep pair [.deliver 0, .deliver 1, .lock 0]
    (fun _ s => (s.pc 0).isLocked = true ∧
      (s.world.task 0).sighand = (s.world.task 1).sighand) (by decide +kernel)
  have h0 : s.pc 0 = .locked := Pc.eq_locked (by rw [hl]; decide)
  refine ⟨es, s, hr, h0, fun h1 => ?_⟩
  have heq := (siglock_exclusive (JobHeaders.sound_x86 _) fresh_pair hr).2.1 0 1 h0 h1 hd
  exact absurd heq (by decide)

/-- **A thread is stopped or traced only inside `do_signal_stop` and `ptrace_stop`**, and after
either it looks at its signals again, or at whether it has any, before it goes back to user
mode.  Only a thread with a debugger is in `ptrace_stop`. -/
theorem halted_inside (hj : JobHeaders.Sound h j) (h₀ : Fresh j s₀)
    (hr : Run (step x o h j i) s₀ as es s) (t : Nat) :
    ((s.world.task t).state &&& (TASK_STOPPED_BIT ||| TASK_TRACED_BIT) ≠ 0 →
        (s.pc t).halts = true ∧ (s.pc t).looks = true) ∧
      ((s.world.thread t).ptrace = 0 →
        (s.world.task t).jobctl &&& JOBCTL_TRAP_MASK = 0 ∧ (s.pc t).traps = false) := by
  obtain ⟨hs, -⟩ := sysOk_of_run hj h₀ hr
  refine ⟨fun hstate => ?_, (hs.ok.thread t).untraced⟩
  have hhalts := (hs.ok.thread t).halts hstate
  exact ⟨hhalts, Pc.looks_of_halts hhalts⟩

/-- Thread 0 has stopped. -/
theorem halted_inside_pair : ∃ es s, Run pairStep pair stopping es s ∧ (s.pc 0).halts = true := by
  obtain ⟨es, s, hr, hstate⟩ := exists_run pairStep pair stopping
    (fun _ s => (s.world.task 0).state &&& (TASK_STOPPED_BIT ||| TASK_TRACED_BIT) ≠ 0)
    (by decide +kernel)
  exact ⟨es, s, hr, ((halted_inside (JobHeaders.sound_x86 _) fresh_pair hr 0).1 hstate).1⟩

end

end LinuxKerDev.Signals.Machine
