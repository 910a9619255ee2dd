import LinuxKerDev.Signals.SleepOk

/-!
# The invariant of the whole system

Every step of every thread, and of whoever sends a signal, wakes a thread or traces it, keeps
`SysOk`: the invariant of the tasks (`Ok`), what may be in the sets of signals that a thread
blocks or waits for, and that a `siglock` has one holder.
-/

namespace LinuxKerDev.Signals.Machine

open Lib

variable {a : Arch} {t u : Nat}

/-! ### What the sends keep -/

section

variable (x : Extern a) (h : Headers a) {w : World a}

theorem kept_lockedSendSigqueue (w : World a) (q t : Nat) (group : Bool) :
    Kept w (lockedSendSigqueue x h w q t group).1 := by
  have hprepared : Kept w (prepareSignal x h w (w.sigqueue q).signo t false).1 :=
    .of_spares (.prepareSignal x h w _ t false)
  have hqueue : ∀ (v : World a) (f : Sigqueue → Sigqueue), Kept v (v.onSigqueue q f) := fun _ _ =>
    .of_eq (fun _ => rfl) (fun _ => rfl) fun _ => rfl
  unfold lockedSendSigqueue
  dsimp only
  split_ifs
  · exact hprepared
  · dsimp only
    exact hprepared.trans (hqueue _ _)
  · exact (hprepared.trans (hqueue _ _)).trans
      (.of_spares ((Spares.addEntry _ t group _).trans (.outSet x h _ _ t group)))

theorem kept_setKernel {k : Kernel a} (hk : k.task = w.kernel.task) : Kept w (w.setKernel k) :=
  .of_eq (fun u => by rw [World.setKernel_task, hk]; rfl) (fun u => by rw [World.setKernel_task, hk]; rfl)
    fun _ => rfl

theorem kept_unblock (w : World a) (sig : Signal) (t : Nat) :
    Kept w (w.onTask t fun s =>
      recalcSigpendingAndWake x { s with blocked := sigdelset s.blocked sig }) := by
  have heq : ∃ state tif, recalcSigpendingAndWake x
      { w.task t with blocked := sigdelset (w.task t).blocked sig } =
        { w.task t with
          blocked := sigdelset (w.task t).blocked sig
          state := state
          tifSigpending := tif } := by
    rw [recalcSigpendingAndWake_eq]
    split
    · rw [signalWakeUp_eq]
      exact ⟨_, _, rfl⟩
    · exact ⟨_, _, rfl⟩
  obtain ⟨state, tif, heq⟩ := heq
  refine ⟨fun u => ?_, fun u sig' hs => ?_, fun _ => rfl⟩
  · exact w.onTask_field t u Task.sighand (by rw [heq])
  · by_cases hu : u = t
    · subst hu
      rw [World.onTask_task_self, heq] at hs
      exact ((sigismember_sigdelset _ _ _).mp hs).2
    · rw [World.onTask_task_of_ne _ _ hu] at hs
      exact hs

theorem kept_forceSigInfo {alloc hidden : Bool} {sig : Signal} {info : Info} {t : Nat}
    {r : World a × Int} (hr : forceSigInfo x h alloc hidden w sig info t = some r) : Kept w r.1 := by
  have hset : ∀ (v : World a) d, Kept v (v.setHandler d sig .dfl) := fun _ _ =>
    .of_eq (fun _ => rfl) (fun _ => rfl) fun _ => rfl
  have hhandler : ∀ (v : World a) d, Kept v (forceHandler x v d sig t) := fun v d => by
    unfold forceHandler
    dsimp only
    split_ifs
    · exact (hset v d).trans (kept_unblock x _ sig t)
    · exact hset v d
    · exact .refl v
  have hdefault : ∀ (v : World a) d, Kept v (forceDefault x v d sig t) := fun v d => by
    unfold forceDefault
    dsimp only
    split
    · exact (hhandler v d).trans (.of_spares (.onSignal _ t _))
    · exact hhandler v d
  unfold forceSigInfo at hr
  split at hr
  · cases hr
  · next d hd =>
    obtain rfl := Option.some.inj hr
    have hlock : Kept w (w.setKernel ((w.kernel.acquire .irq).acquire (.siglock d))) :=
      kept_setKernel rfl
    exact ((hlock.trans (hdefault _ d)).trans
      (.of_spares (.sendSignal₀ x h alloc _ sig info t false _))).trans (kept_setKernel rfl)

theorem kept_doNotifyParentCldstop {alloc hidden : Bool} {tsk : Nat} {forPtracer : Bool} {why : Cld}
    {r : World a × Option Int}
    (hr : doNotifyParentCldstop x h alloc hidden w tsk forPtracer why = some r) :
    Kept w r.1 := by
  unfold doNotifyParentCldstop at hr
  dsimp only at hr
  split at hr
  · cases hr
  · next d hd =>
    have hlock : Kept w (w.setKernel ((w.kernel.acquire .irq).acquire (.siglock d))) :=
      kept_setKernel rfl
    split_ifs at hr
    · obtain rfl := Option.some.inj hr
      exact (hlock.trans (.of_spares (.sendSignal₀ x h alloc _ _ _ _ true _))).trans (kept_setKernel rfl)
    · obtain rfl := Option.some.inj hr
      exact hlock.trans (kept_setKernel rfl)

end

/-! ### The invariant -/

/-- Neither `SIGKILL` nor `SIGSTOP` is in the set. -/
def Clear (j : JobHeaders a) (set : Sigset a) : Prop :=
  ∀ sig, sig = SIGKILL ∨ sig = j.SIGSTOP → sigismember set sig = false

/-- Both of them are. -/
def Covers (j : JobHeaders a) (set : Sigset a) : Prop :=
  ∀ sig, sig = SIGKILL ∨ sig = j.SIGSTOP → sigismember set sig = true

section

variable {j : JobHeaders a}

theorem sigismember_unblockable (sig : Signal) :
    sigismember (unblockable j) sig = true ↔ sig = SIGKILL ∨ sig = j.SIGSTOP := by
  show sigismember (sigaddset (sigaddset _ _) _) sig = true ↔ _
  rw [sigismember_sigaddset, sigismember_sigaddset, sigismember_empty]
  exact or_left_comm.trans (or_congr_right (or_iff_left Bool.false_ne_true))

theorem Clear.of_subset {set set' : Sigset a} (h : Clear j set)
    (hs : ∀ sig, sigismember set' sig = true → sigismember set sig = true) : Clear j set' :=
  fun sig hsig => Bool.eq_false_iff.mpr fun hm =>
    Bool.false_ne_true ((h sig hsig).symm.trans (hs sig hm))

theorem clear_sigdelsetmask (set : Sigset a) : Clear j (sigdelsetmask set (unblockable j)) := by
  intro sig hsig
  refine Bool.eq_false_iff.mpr fun hm => ?_
  rw [sigdelsetmask, sigismember_diff, (sigismember_unblockable sig).mpr hsig] at hm
  exact Bool.noConfusion hm.2

theorem clear_sigemptyset : Clear j (sigemptyset : Sigset a) := fun sig _ => sigismember_sigemptyset sig

/-- The mask that `sigprocmask` makes. -/
theorem Clear.newset {blocked set : Sigset a} (hb : Clear j blocked) (hs : Clear j set) (how : How) :
    Clear j (how.newset blocked set) := by
  intro sig hsig
  cases how with
  | block =>
    show sigismember (sigorsets _ _) sig = false
    rw [sigismember_sigorsets, hb sig hsig, hs sig hsig]
    rfl
  | unblock =>
    show sigismember (sigandnsets _ _) sig = false
    rw [sigismember_sigandnsets, hb sig hsig]
    rfl
  | setmask => exact hs sig hsig

/-- `do_sigtimedwait` waits for neither. -/
theorem covers_waitMask (which : Sigset a) : Covers j (waitMask j which) := by
  intro sig hsig
  rw [waitMask, sigismember_signotset, clear_sigdelsetmask which sig hsig]
  rfl

end

structure SysOk (j : JobHeaders a) (s : Sys a) : Prop where
  ok : Ok s.world s.pc
  blocked : ∀ t, Clear j (s.world.task t).blocked
  realBlocked : ∀ t, Clear j (s.world.thread t).realBlocked
  saved : ∀ t set, s.saved t = some set → Clear j set
  saMask : ∀ d sig, Clear j (s.saMask d sig)
  waits : ∀ t mask, (s.pc t).timedMask = some mask → Covers j mask
  /-- A thread at the head of the loop has the lock. -/
  locked : ∀ t, (s.pc t).isLocked = true →
    ∃ d, (s.world.task t).sighand = some d ∧ s.holder d = some t
  /-- Nobody else has one. -/
  holder : ∀ d t, s.holder d = some t →
    (s.pc t).isLocked = true ∧ (s.world.task t).sighand = some d

structure Goes (j : JobHeaders a) (s : Sys a) (t : Nat) (w : World a) (k : Pc a) : Prop where
  ok : Ok w (Function.update s.pc t k)
  sighand : ∀ u, (w.task u).sighand = (s.world.task u).sighand
  blocked : ∀ u, Clear j (w.task u).blocked
  realBlocked : ∀ u, Clear j (w.thread u).realBlocked
  waits : ∀ mask, k.timedMask = some mask → Covers j mask

theorem untimed (j : JobHeaders a) {k : Pc a} (hk : k.timedMask = none) :
    ∀ mask, k.timedMask = some mask → Covers j mask := fun mask hm => by
  rw [hk] at hm
  cases hm

/-- A round that leaves the thread with the lock, or has given it back. -/
structure Ended (j : JobHeaders a) (s : Sys a) (t : Nat) (r : Round a) : Prop extends
    Goes j s t r.world r.pc where
  quiet : Quiet r.events
  unlocks : r.unlocks = !r.pc.isLocked

structure Holds (j : JobHeaders a) (r : Sys a × List Event) : Prop where
  ok : SysOk j r.1
  quiet : Quiet r.2

/-- The end of a round, whatever is said about the lock. -/
structure Sys.Ends (s : Sys a) (t : Nat) (round : Round a) (r : Sys a × List Event) : Prop where
  world : r.1.world = round.world
  pc : r.1.pc = Function.update s.pc t round.pc
  events : ∀ e ∈ r.2, e ∈ round.events ∨ ∃ call, e = .misused t call

theorem Sys.ends_finish (s : Sys a) (t : Nat) (round : Round a) :
    s.Ends t round (s.finish t round) := by
  unfold Sys.finish Sys.spinUnlock
  dsimp only
  split
  · split
    · refine ⟨rfl, rfl, fun e he => (List.mem_append.mp he).imp_right fun hm => ?_⟩
      exact ⟨_, List.mem_singleton.mp hm⟩
    · refine ⟨rfl, rfl, fun e he => (List.mem_append.mp he).imp_right fun hm => ?_⟩
      dsimp only at hm
      split at hm
      · cases hm
      · exact ⟨_, List.mem_singleton.mp hm⟩
  · exact ⟨rfl, rfl, fun e he => Or.inl he⟩

theorem Sys.ends_of_some {s : Sys a} {round : Round a} {r : Sys a × List Event}
    (hr : some (s.finish t round) = some r) : s.Ends t round r :=
  Option.some.inj hr ▸ Sys.ends_finish s t round

/-- A thread that gets its lock has a `sighand`. -/
theorem Sys.ends_locked {s : Sys a} {round : Round a} {r : Sys a × List Event}
    (hr : s.locked t round = some r) : s.Ends t round r ∧ (s.world.task t).sighand ≠ none := by
  obtain ⟨q, hq, rfl⟩ := Option.map_eq_some_iff.mp hr
  unfold Sys.spinLock at hq
  split at hq
  · cases hq
  · next d hd =>
    refine ⟨?_, by rw [hd]; exact Option.some_ne_none d⟩
    split at hq
    · obtain rfl := Option.some.inj hq
      have he := Sys.ends_finish { s with holder := Function.update s.holder d (some t) } t round
      exact ⟨he.world, he.pc, he.events⟩
    · split at hq
      · obtain rfl := Option.some.inj hq
        have he := Sys.ends_finish s t round
        refine ⟨he.world, he.pc, fun e hm => ?_⟩
        rcases List.mem_append.mp hm with hm | hm
        · exact Or.inr ⟨_, List.mem_singleton.mp hm⟩
        · exact he.events e hm
      · cases hq

theorem Sys.spinUnlock_eq {s : Sys a} {d : Nat} (hd : (s.world.task t).sighand = some d)
    (hh : s.holder d = some t) :
    s.spinUnlock t = ({ s with holder := Function.update s.holder d none }, []) := by
  unfold Sys.spinUnlock
  rw [hd]
  dsimp only
  rw [if_pos hh]

namespace SysOk

variable {j : JobHeaders a} {s : Sys a} {w : World a} {k : Pc a}

theorem kept (hs : SysOk j s) (hk : Kept s.world w) :
    (∀ u, (w.task u).sighand = (s.world.task u).sighand) ∧ (∀ u, Clear j (w.task u).blocked) ∧
      ∀ u, Clear j (w.thread u).realBlocked :=
  ⟨hk.sighand, fun u => (hs.blocked u).of_subset (hk.blocked u),
    fun u => by rw [hk.realBlocked]; exact hs.realBlocked u⟩

theorem goesOf (hs : SysOk j s) (hok : Ok w (Function.update s.pc t k)) (hk : Kept s.world w)
    (hw : ∀ mask, k.timedMask = some mask → Covers j mask) : Goes j s t w k :=
  ⟨hok, (hs.kept hk).1, (hs.kept hk).2.1, (hs.kept hk).2.2, hw⟩

theorem setWorld (hs : SysOk j s) (hok : Ok w s.pc) (hk : Kept s.world w) : SysOk j (s.setWorld w) where
  ok := hok
  blocked := (hs.kept hk).2.1
  realBlocked := (hs.kept hk).2.2
  saved := hs.saved
  saMask := hs.saMask
  waits := hs.waits
  locked t hl := by
    obtain ⟨d, hd, hh⟩ := hs.locked t hl
    exact ⟨d, (hk.sighand t).trans hd, hh⟩
  holder d t hh := ⟨(hs.holder d t hh).1, (hk.sighand t).trans (hs.holder d t hh).2⟩

/-- **A thread without the lock goes on without it.** -/
theorem goes (hs : SysOk j s) (hg : Goes j s t w k) (hfree : (s.pc t).isLocked = false)
    (hk : k.isLocked = false) : SysOk j ((s.setWorld w).goto t k) := by
  have hself : ((s.setWorld w).goto t k).pc t = k := Function.update_self ..
  have hne : ∀ {u}, u ≠ t → ((s.setWorld w).goto t k).pc u = s.pc u := fun hu =>
    Function.update_of_ne hu ..
  refine ⟨hg.ok, hg.blocked, hg.realBlocked, hs.saved, hs.saMask, fun u mask hm => ?_, fun u hl => ?_,
    fun d u hh => ?_⟩
  · by_cases hu : u = t
    · subst hu
      exact hg.waits mask (hself ▸ hm)
    · exact hs.waits u mask (hne hu ▸ hm)
  · by_cases hu : u = t
    · subst hu
      rw [hself, hk] at hl
      cases hl
    · obtain ⟨d, hd, hh⟩ := hs.locked u (hne hu ▸ hl)
      exact ⟨d, (hg.sighand u).trans hd, hh⟩
  · obtain ⟨hl, hd⟩ := hs.holder d u hh
    have hu : u ≠ t := fun he => by
      rw [he, hfree] at hl
      cases hl
    exact ⟨(congrArg Pc.isLocked (hne hu)).trans hl, (hg.sighand u).trans hd⟩

theorem arrive (hs : SysOk j s) (hg : Goes j s t w k) (hfree : (s.pc t).isLocked = false)
    (hk : k.isLocked = false) {r : Sys a × List Event} (hr : (s.setWorld w).arrive t k = some r) :
    Holds j r := by
  obtain rfl := Option.some.inj hr
  exact ⟨hs.goes hg hfree hk, quiet_nil⟩

/-- **A thread that has the lock ends its round with it or without**, and gives it back only
if it has it. -/
theorem finish (hs : SysOk j s) {r : Round a} (hr : Ended j s t r) {d : Nat}
    (hd : (s.world.task t).sighand = some d) (hmine : ∀ u, s.holder d = some u → u = t) :
    Holds j ({ s with holder := Function.update s.holder d (some t) }.finish t r) := by
  have hd' : (r.world.task t).sighand = some d := (hr.sighand t).trans hd
  have heq : { s with holder := Function.update s.holder d (some t) }.finish t r =
      ({ s.setWorld r.world with
        holder := Function.update s.holder d (if r.pc.isLocked = true then some t else none) }.goto
          t r.pc, r.events) := by
    unfold Sys.finish
    dsimp only
    rw [hr.unlocks]
    cases hl : r.pc.isLocked with
    | true => rfl
    | false =>
      rw [if_pos Bool.not_false, Sys.spinUnlock_eq hd' (by exact Function.update_self ..)]
      dsimp only [Sys.setWorld]
      rw [Function.update_idem, List.append_nil]
      rfl
  rw [heq]
  refine ⟨?_, hr.quiet⟩
  have hself : Function.update s.pc t r.pc t = r.pc := Function.update_self ..
  have hne : ∀ {u}, u ≠ t → Function.update s.pc t r.pc u = s.pc u := fun hu =>
    Function.update_of_ne hu ..
  refine ⟨hr.ok, hr.blocked, hr.realBlocked, hs.saved, hs.saMask,
    fun u mask (hm : (Function.update s.pc t r.pc u).timedMask = some mask) => ?_,
    fun u (hl : (Function.update s.pc t r.pc u).isLocked = true) => ?_,
    fun d' u (hh : Function.update s.holder d _ d' = some u) => ?_⟩
  · by_cases hu : u = t
    · rw [hu, hself] at hm
      exact hr.waits mask hm
    · exact hs.waits u mask (hne hu ▸ hm)
  · by_cases hu : u = t
    · rw [hu, hself] at hl
      refine ⟨d, hu ▸ hd', ?_⟩
      dsimp only [Sys.goto]
      rw [Function.update_self, if_pos hl, hu]
    · rw [hne hu] at hl
      obtain ⟨d', hu', hh⟩ := hs.locked u hl
      have hne' : d' ≠ d := fun he => hu (hmine u (he ▸ hh))
      refine ⟨d', (hr.sighand u).trans hu', ?_⟩
      dsimp only [Sys.goto]
      rw [Function.update_of_ne hne', hh]
  · by_cases hdd : d' = d
    · rw [hdd, Function.update_self] at hh
      split at hh
      · next hl =>
        obtain rfl := Option.some.inj hh
        exact ⟨(congrArg Pc.isLocked hself).trans hl, hdd ▸ hd'⟩
      · cases hh
    · rw [Function.update_of_ne hdd] at hh
      obtain ⟨hl, hu'⟩ := hs.holder d' u hh
      have hu : u ≠ t := fun he => by
        rw [he, hd] at hu'
        exact hdd (Option.some.inj hu').symm
      exact ⟨(congrArg Pc.isLocked (hne hu)).trans hl, (hr.sighand u).trans hu'⟩

theorem ended (hs : SysOk j s) {r : Round a} (hr : RoundOk s.world s.pc t r) : Ended j s t r :=
  { hs.goesOf hr.ok hr.kept (untimed j hr.untimed) with quiet := hr.quiet, unlocks := hr.unlocks }

/-- At the head of the loop it has the lock. -/
theorem goes_on (hs : SysOk j s) {r : Round a} (hr : RoundOk s.world s.pc t r)
    (hl : (s.pc t).isLocked = true) : Holds j (s.finish t r) := by
  obtain ⟨d, hd, hh⟩ := hs.locked t hl
  have hsame : Function.update s.holder d (some t) = s.holder := by
    rw [← hh]
    exact Function.update_eq_self d s.holder
  have hgo := hs.finish (hs.ended hr) hd fun u hu => Option.some.inj (hu.symm.trans hh)
  rw [hsame] at hgo
  exact hgo

/-- **Elsewhere it takes the lock**, which it has not. -/
theorem takes (hs : SysOk j s) {round : Round a} {r : Sys a × List Event}
    (hfree : (s.pc t).isLocked = false)
    (hround : (s.world.task t).sighand ≠ none → Ended j s t round)
    (hr : s.locked t round = some r) : Holds j r := by
  have hok := hround (Sys.ends_locked hr).2
  obtain ⟨q, hq, rfl⟩ := Option.map_eq_some_iff.mp hr
  unfold Sys.spinLock at hq
  split at hq
  · cases hq
  · next d hd =>
    split at hq
    · next hnone =>
      obtain rfl := Option.some.inj hq
      refine hs.finish hok hd fun u hu => ?_
      rw [hnone] at hu
      cases hu
    · next u hu =>
      split at hq
      · next hut =>
        have hl := (hs.holder d u hu).1
        rw [hut, hfree] at hl
        cases hl
      · cases hq

theorem locally (hs : SysOk j s) (hg : Goes j s t w k) (hfree : (s.pc t).isLocked = false)
    (hk : k.isLocked = false) {events : List Event} (hq : Quiet events) {r : Sys a × List Event}
    (hr : s.locally t w k events = some r) : Holds j r :=
  hs.takes hfree (fun _ => { hg with quiet := hq, unlocks := by rw [hk]; rfl }) hr

end SysOk

/-! ### The steps -/

section

variable (x : Extern a) (o : Outer x) (h : Headers a) (j : JobHeaders a) (i : Infos) {s : Sys a}
  {r : Sys a × List Event}

theorem SysOk.step_goto (hs : SysOk j s) {k : Pc a}
    (hf : Follows (s.world.task t) (s.world.thread t) (s.pc t) k)
    (hw : ∀ mask, k.timedMask = some mask → Covers j mask) (hfree : (s.pc t).isLocked = false)
    (hk : k.isLocked = false) (hr : s.arrive t k = some r) : Holds j r :=
  hs.arrive (hs.goesOf (hs.ok.goto t hf) (.refl _) hw) hfree hk hr

theorem follows_relock {s : Task a} {m : Thread a} {k : Pc a} (hg : k.isGone = false)
    (hl : k.looks = true) (ht : k.traps = false) (hs : k.Sound s) : Follows s m .relock k :=
  ⟨hg, nofun, nofun, fun _ => Or.inl hl, nofun,
    fun h' => absurd (ht.symm.trans h') Bool.false_ne_true, hs⟩

theorem SysOk.relocked (hs : SysOk j s) (hpc : s.pc t = .relock) :
    RoundOk s.world s.pc t (relockRound s.world t) := by
  unfold relockRound
  dsimp only
  split
  · refine ⟨?_, quiet_nil, ?_, rfl, .clearCld s.world t, rfl⟩
    · dsimp only
      refine Ok.onSignal (hs.ok.goto t ?_) t ⟨?_, ?_, ?_⟩ rfl rfl
      · rw [hpc]
        exact follows_relock rfl rfl rfl trivial
      · exact and_of_clear_other (by decide)
      · rw [signalGroupExit, signalGroupExit]
        dsimp only
        rw [and_of_clear_other (by decide)]
      · exact and_of_clear_other (by decide)
    · dsimp only
      exact .of_spares (.onSignal s.world t _)
  · refine ⟨hs.ok.goto t ?_, quiet_nil, .refl _, rfl, .refl _, rfl⟩
    rw [hpc]
    exact follows_relock rfl rfl rfl trivial

theorem Ok.settle {w : World a} {pc : Nat → Pc a} (hok : Ok w pc) {k : Then}
    (hpc : pc t = .telling [] k) :
    Ok (k.settle w t) (Function.update pc t k.pc) ∧ Kept w (k.settle w t) := by
  cases k with
  | untrapped tr =>
    have htraced : (w.thread t).ptrace ≠ 0 := fun h0 => by
      have hno := ((hok.thread t).untraced h0).2
      rw [hpc] at hno
      cases hno
    have hrun : Ok (w.onTask t fun s => { s with state := TASK_RUNNING }) pc := by
      refine hok.setState BitVec.zero_and (fun hn _ => absurd (hn t (hok.grouped.self t)) htraced) ?_
      rw [hpc]
      trivial
    have hgo : Ok (w.onTask t fun s => { s with state := TASK_RUNNING })
        (Function.update pc t (.untrapped tr)) := by
      refine hrun.goto t ?_
      rw [hpc]
      refine ⟨rfl, id, id, fun _ => Or.inl rfl, fun _ => Or.inr ?_, fun _ => Or.inl rfl, trivial⟩
      rw [World.onTask_task_self]
      exact BitVec.zero_and
    have hk : Kept w (w.onTask t fun s => { s with state := TASK_RUNNING }) := .onTask w t ⟨rfl, rfl⟩
    unfold Then.settle
    dsimp only
    split
    · exact ⟨hgo.setExitCode 0, hk.trans (.onThread _ t rfl)⟩
    · exact ⟨hgo, hk⟩
  | gone =>
    refine ⟨hok.goto t ?_, .refl w⟩
    rw [hpc]
    exact ⟨rfl, fun _ => rfl, fun _ => rfl, nofun, nofun, nofun, trivial⟩
  | trap tr =>
    refine ⟨hok.goto t ?_, .refl w⟩
    rw [hpc]
    exact ⟨rfl, id, id, fun _ => Or.inl rfl, fun _ => Or.inl rfl, fun _ => Or.inl rfl, trivial⟩
  | relock =>
    refine ⟨hok.goto t ?_, .refl w⟩
    rw [hpc]
    exact ⟨rfl, nofun, nofun, fun _ => Or.inl rfl, nofun, nofun, trivial⟩
  | stop =>
    refine ⟨hok.goto t ?_, .refl w⟩
    rw [hpc]
    exact ⟨rfl, nofun, nofun, fun _ => Or.inl rfl, fun _ => Or.inl rfl, nofun, trivial⟩

theorem Then.pc_plain (k : Then) : (k.pc : Pc a).isLocked = false ∧ (k.pc : Pc a).timedMask = none := by
  cases k with
  | _ => exact ⟨rfl, rfl⟩

theorem Wait.after_plain (k : Wait a) : k.after.isLocked = false ∧ k.after.timedMask = k.timedMask := by
  cases k with
  | _ => exact ⟨rfl, rfl⟩

theorem follows_telling {s : Task a} {m : Thread a} {todo todo' : List Notice} {k : Then} :
    Follows s m (.telling todo k) (.telling todo' k) := by
  cases k with
  | _ => exact ⟨rfl, id, id, Or.inl, Or.inl, Or.inl, trivial⟩

theorem SysOk.step_tell (hj : JobHeaders.Sound h j) (hs : SysOk j s) {alloc hidden : Bool}
    {todo : List Notice} {k : Then} (hpc : s.pc t = .telling todo k)
    (hr : s.tell x h t alloc hidden todo k = some r) : Holds j r := by
  have hfree : (s.pc t).isLocked = false := by
    rw [hpc]
    rfl
  cases todo with
  | nil =>
    obtain ⟨hok, hk⟩ := hs.ok.settle hpc
    exact hs.arrive (hs.goesOf hok hk (untimed j k.pc_plain.2)) hfree k.pc_plain.1 hr
  | cons n todo =>
    unfold Sys.tell at hr
    dsimp only at hr
    split at hr
    · obtain ⟨r', hr', rfl⟩ := Option.map_eq_some_iff.mp hr
      have hgo : Ok r'.1 (Function.update s.pc t (.telling todo k)) := by
        refine Ok.doNotifyParentCldstop x h hj (hs.ok.goto t ?_) hr'
        rw [hpc]
        exact follows_telling
      exact ⟨hs.goes (hs.goesOf hgo (kept_doNotifyParentCldstop x h hr') (untimed j rfl)) hfree rfl,
        quiet_singleton trivial⟩
    · cases hr

theorem SysOk.step_trap (hs : SysOk j s) {trap : Trap} (hpc : s.pc t = .trapping trap)
    {coredump : Bool} (hr : s.trap t trap coredump = some r) : Holds j r := by
  have hfree : (s.pc t).isLocked = false := by
    rw [hpc]
    rfl
  unfold Sys.trap at hr
  split at hr
  · refine hs.step_goto j ?_ (untimed j rfl) hfree rfl hr
    rw [hpc]
    exact ⟨rfl, id, id, fun _ => Or.inl rfl, fun _ => Or.inl rfl, fun _ => Or.inl rfl, trivial⟩
  · refine hs.step_goto j ?_ (untimed j rfl) hfree rfl hr
    rw [hpc]
    exact ⟨rfl, id, id, fun _ => Or.inl rfl, fun _ => Or.inl rfl, fun _ => Or.inl rfl, trivial⟩

/-! What a thread that has the lock, or takes it again, goes on with. -/

theorem SysOk.iterated (hj : JobHeaders.Sound h j) (hs : SysOk j s) (hpc : s.pc t = .locked)
    (notifier : Option (Notifier a)) (freezing rearms : Bool) : (s.pc t).isLocked = true ∧
      RoundOk s.world s.pc t (iterate x h j i s.oneshot notifier freezing rearms s.world t) := by
  have hl : (s.pc t).isLocked = true := by
    rw [hpc]
    rfl
  obtain ⟨d, hd, -⟩ := hs.locked t hl
  refine ⟨hl, hs.ok.iterate x h j i hj hpc ?_ s.oneshot notifier freezing rearms⟩
  rw [hd]
  exact Option.some_ne_none d

theorem SysOk.rearmed (hj : JobHeaders.Sound h j) (hs : SysOk j s) {sig : Signal} {info : Siginfo}
    (hpc : s.pc t = .rearm sig info) (hsome : (s.world.task t).sighand ≠ none) :
    RoundOk s.world s.pc t (afterDequeue x h j s.oneshot s.world t sig info) := by
  refine hs.ok.afterDequeue x h j hj s.oneshot info ?_ hsome
  rw [hpc]
  exact given_rearm

theorem SysOk.orphaned (hs : SysOk j s) {info : Siginfo} (hpc : s.pc t = .orphan info) :
    RoundOk s.world s.pc t (stopRound x h s.world t (signr info)) := by
  have hlocked : Ok s.world (Function.update s.pc t .locked) := by
    refine hs.ok.goto t ?_
    rw [hpc]
    exact ⟨rfl, nofun, nofun, nofun, nofun, nofun, trivial⟩
  exact (hlocked.stopRound x h (Function.update_self ..) (signr_stop info)).of_goto

theorem SysOk.resumed (hj : JobHeaders.Sound h j) (hs : SysOk j s) {trap : Trap}
    (hpc : s.pc t = .untrapped trap) (hsome : (s.world.task t).sighand ≠ none)
    {alloc hidden : Bool} {pid : Int} {uid : Nat} {round : Round a}
    (hr : afterTrap x h j s.oneshot alloc hidden pid uid (ptraceResume s.world t) t
      trap.caller = some round) :
    Ok (ptraceResume s.world t) s.pc ∧ Kept (ptraceResume s.world t) round.world ∧
      RoundOk s.world s.pc t round := by
  obtain ⟨hok, htold, hk⟩ := hs.ok.ptraceResume (t := t) (fun _ => by rw [hpc]; trivial)
    (by rw [hpc]; rfl)
  have hafter := hok.afterTrap x h j hj hpc htold
    (by rw [hk.sighand]; exact hsome) s.oneshot alloc hidden pid uid hr
  exact ⟨hok, hafter.kept, hafter.ok, hafter.quiet, hk.trans hafter.kept, hafter.untimed,
    (Lasts.onTask s.world t _).trans hafter.lasts, hafter.unlocks⟩

theorem mayTrap_user : MayTrap (.user : Pc a) (.notify false) .trapped :=
  ⟨rfl, rfl, nofun, nofun, nofun⟩

theorem mayTrap_dying : MayTrap (.dying : Pc a) (.notify true) .trapped :=
  ⟨rfl, rfl, fun _ => rfl, fun _ => rfl, nofun⟩

theorem notify_cases {exitCode : BitVec 32} (hr : step x o h j i s (.ptraceNotify t exitCode) = some r) :
    ∃ exits, MayTrap (s.pc t) (.notify exits) .trapped ∧ (s.pc t).isLocked = false ∧
      o.notifies (s.world.thread t) = true ∧ s.ptraceNotify j t exitCode exits = some r := by
  dsimp only [Machine.step] at hr
  split at hr
  · next hpc =>
    split at hr
    · next hn => exact ⟨false, by rw [hpc]; exact mayTrap_user, by rw [hpc]; rfl, hn, hr⟩
    · cases hr
  · next hpc =>
    split at hr
    · next hn => exact ⟨true, by rw [hpc]; exact mayTrap_dying, by rw [hpc]; rfl, hn, hr⟩
    · cases hr
  · cases hr

theorem SysOk.notified (hs : SysOk j s) {exits : Bool} (hmay : MayTrap (s.pc t) (.notify exits) .trapped)
    (hn : o.notifies (s.world.thread t) = true) (exitCode : BitVec 32) :
    RoundOk s.world s.pc t (trapRound s.world t exitCode .trapped true
      (decide (exitCode >>> 8 = j.PTRACE_EVENT_STOP)) (.notify exits)) :=
  hs.ok.trapRound hmay (o.notifies_spec hn) exitCode true _

theorem SysOk.step_ptraceNotify (hs : SysOk j s) {exits : Bool}
    (hmay : MayTrap (s.pc t) (.notify exits) .trapped) (hfree : (s.pc t).isLocked = false)
    (hn : o.notifies (s.world.thread t) = true) {exitCode : BitVec 32}
    (hr : s.ptraceNotify j t exitCode exits = some r) : Holds j r := by
  unfold Sys.ptraceNotify at hr
  split at hr
  · cases hr
  · exact hs.takes hfree (fun _ => hs.ended (hs.notified x o j hmay hn exitCode)) hr

/-! #### System calls -/

theorem SysOk.setSaved (hs : SysOk j s) {set : Option (Sigset a)}
    (hc : ∀ mask, set = some mask → Clear j mask) :
    SysOk j { s with saved := Function.update s.saved t set } := by
  refine ⟨hs.ok, hs.blocked, hs.realBlocked, fun u mask hm => ?_, hs.saMask, hs.waits, hs.locked,
    hs.holder⟩
  dsimp only at hm
  by_cases hu : u = t
  · rw [hu, Function.update_self] at hm
    exact hc mask hm
  · rw [Function.update_of_ne hu] at hm
    exact hs.saved u mask hm

/-- A thread that is in none of the places that matter. -/
def Pc.isPlain : Pc a → Bool
  | .user => true
  | .paused => true
  | .waited _ => true
  | _ => false

theorem Pc.plain {k : Pc a} (hk : k.isPlain = true) : k.looks = false ∧ k.halts = false ∧
    k.traps = false ∧ k.isGone = false ∧ k.isDoomed = false ∧ k.isLocked = false ∧
    ∀ s, k.Sound s := by
  cases k with
  | user => exact ⟨rfl, rfl, rfl, rfl, rfl, rfl, fun _ => trivial⟩
  | paused => exact ⟨rfl, rfl, rfl, rfl, rfl, rfl, fun _ => trivial⟩
  | waited mask => exact ⟨rfl, rfl, rfl, rfl, rfl, rfl, fun _ => trivial⟩
  | _ => cases hk

theorem follows_plain {s : Task a} {m : Thread a} {k k' : Pc a} (hk : k.isPlain = true)
    (hg : k'.isGone = false) (ht : k'.traps = false) (hs : k'.Sound s) : Follows s m k k' := by
  obtain ⟨hl, hh, -, hgone, hd, -, -⟩ := Pc.plain hk
  refine ⟨hg.trans hgone.symm, fun h' => ?_, fun h' => ?_, fun h' => ?_, fun h' => ?_, fun h' => ?_, hs⟩
  · cases k with
    | user => cases h'
    | paused => cases h'
    | waited mask => cases h'
    | _ => cases hk
  · rw [hd] at h'
    cases h'
  · rw [hl] at h'
    cases h'
  · rw [hh] at h'
    cases h'
  · rw [ht] at h'
    cases h'

theorem setTaskBlocked_kept (freezing : Bool) (w : World a) (t : Nat) (set : Sigset a) :
    (∀ u, ((setTaskBlocked x freezing w t set).task u).sighand = (w.task u).sighand) ∧
      (∀ u, ((setTaskBlocked x freezing w t set).task u).blocked =
        if u = t then set else (w.task u).blocked) ∧
      (setTaskBlocked x freezing w t set).thread = w.thread := by
  obtain ⟨v, heq, hsighand, hblocked, hthread⟩ : ∃ v : World a, setTaskBlocked x freezing w t set =
      v.onTask t (fun s => recalcSigpending freezing { s with blocked := set }) ∧
      (∀ u, (v.task u).sighand = (w.task u).sighand) ∧ (∀ u, (v.task u).blocked = (w.task u).blocked) ∧
      v.thread = w.thread := by
    refine ⟨_, rfl, ?_⟩
    split
    · have hr := Signals.Machine.retargeted x w t (sigandnsets set (w.task t).blocked)
      exact ⟨hr.sighand, fun u => (hr.eased.task u).blocked, hr.thread⟩
    · exact ⟨fun _ => rfl, fun _ => rfl, rfl⟩
  have hrecalc := recalcSigpending_eq freezing { v.task t with blocked := set }
  rw [heq]
  refine ⟨fun u => ?_, fun u => ?_, hthread⟩
  · rw [← hsighand]
    exact v.onTask_field t u Task.sighand (by rw [hrecalc])
  · by_cases hu : u = t
    · rw [if_pos hu, hu, World.onTask_task_self, hrecalc]
    · rw [if_neg hu, World.onTask_task_of_ne _ _ hu, hblocked]

/-- **A new mask**, and the place where the thread is then. -/
theorem SysOk.goes_mask (hs : SysOk j s) (freezing : Bool) {set : Sigset a} (hset : Clear j set)
    (hpc : (s.pc t).isPlain = true) {k : Pc a} (hk : k.isGone = false ∧ k.traps = false)
    (hsound : ∀ s, k.Sound s) (hw : k.timedMask = none) :
    Goes j s t (setTaskBlocked x freezing s.world t set) k := by
  obtain ⟨hl, -, -, -, -, -, hplain⟩ := Pc.plain hpc
  obtain ⟨hsighand, hblocked, hthread⟩ := setTaskBlocked_kept x freezing s.world t set
  have hok := hs.ok.setTaskBlocked x freezing (hset SIGKILL (Or.inl rfl)) hl hplain
  refine ⟨hok.goto t (follows_plain hpc hk.1 hk.2 (hsound _)), hsighand, fun u => ?_, fun u => ?_,
    untimed j hw⟩
  · rw [hblocked]
    split
    · exact hset
    · exact hs.blocked u
  · rw [hthread]
    exact hs.realBlocked u

theorem Ok.take {w : World a} {pc : Nat → Pc a} (hok : Ok w pc)
    (hpc : (pc t).isPlain = true) (notifier : Option (Notifier a)) (freezing : Bool)
    {mask : Sigset a} (hmask : Covers j mask) :
    Ok (dequeueSignal h j i notifier freezing w t mask).1 (Function.update pc t .user) ∧
      Kept w (dequeueSignal h j i notifier freezing w t mask).1 := by
  have hlook := looked_dequeueSignal (t := t) h j i notifier mask hok.grouped freezing
  refine ⟨hok.looked hlook ((Pc.plain hpc).2.2.2.2.2.2 _) (follows_plain hpc rfl rfl trivial)
    fun hd => ?_, .of_looked hlook⟩
  have hno := hlook.found _ hd
  rw [hmask SIGKILL (Or.inl rfl)] at hno
  cases hno

theorem quiet_returned (t : Nat) (sig : Option Signal) : Quiet [.returned t sig] :=
  quiet_singleton trivial

theorem SysOk.step_sigtimedwait (hs : SysOk j s) (hpc : s.pc t = .user)
    {notifier : Option (Notifier a)} {freezing timeout : Bool} {which : Sigset a}
    (hr : s.sigtimedwait h j i t notifier freezing timeout which = some r) : Holds j r := by
  have hplain : (s.pc t).isPlain = true := by
    rw [hpc]
    rfl
  have hfree : (s.pc t).isLocked = false := by
    rw [hpc]
    rfl
  obtain ⟨hok, hk⟩ := hs.ok.take h j i hplain notifier freezing (covers_waitMask which)
  unfold Sys.sigtimedwait at hr
  dsimp only at hr
  generalize dequeueSignal h j i notifier freezing s.world t (waitMask j which) = d at hok hk hr
  obtain ⟨w, d⟩ := d
  dsimp only at hok hk
  have huser : Goes j s t w .user := hs.goesOf hok hk (untimed j rfl)
  cases d with
  | some d => exact hs.locally huser hfree rfl (quiet_returned t _) hr
  | none =>
    dsimp only at hr
    split at hr
    · exact hs.locally huser hfree rfl (quiet_returned t _) hr
    · -- the thread waits, with less blocked
      have hself : Function.update s.pc t (.user : Pc a) t = .user := Function.update_self ..
      have hreal := hok.setRealBlocked (t := t) (huser.blocked t SIGKILL (Or.inl rfl))
      have hless : ∀ sig, sigismember (sigandsets (w.task t).blocked (waitMask j which)) sig = true →
          sigismember (w.task t).blocked sig = true := fun sig hm => by
        rw [sigismember_sigandsets, Bool.and_eq_true] at hm
        exact hm.1
      have hshed := hreal.shedBlocked (t := t) freezing hless fun _ => by
        rw [hself]
        trivial
      have hrecalc := recalcSigpending_eq freezing
        { w.task t with blocked := sigandsets (w.task t).blocked (waitMask j which) }
      refine hs.locally ⟨?_, fun u => ?_, fun u => ?_, fun u => ?_, fun mask hm => ?_⟩ hfree rfl quiet_nil
        hr
      · have hgo := hshed.goto t (k := .toSleep (.timed (waitMask j which)) TASK_INTERRUPTIBLE) (by
          rw [hself]
          exact ⟨rfl, nofun, nofun, nofun, nofun, nofun, rfl, by decide⟩)
        have hidem : Function.update (Function.update s.pc t .user) t
            (.toSleep (.timed (waitMask j which)) TASK_INTERRUPTIBLE) =
            Function.update s.pc t (.toSleep (.timed (waitMask j which)) TASK_INTERRUPTIBLE) :=
          Function.update_idem ..
        rw [hidem] at hgo
        exact hgo
      · refine Eq.trans ?_ (huser.sighand u)
        exact World.onTask_field _ t u Task.sighand (by rw [World.onThread_task, hrecalc])
      · by_cases hu : u = t
        · rw [hu, World.onTask_task_self, World.onThread_task, hrecalc]
          exact (huser.blocked t).of_subset hless
        · rw [World.onTask_task_of_ne _ _ hu]
          exact huser.blocked u
      · rw [World.onTask_thread]
        by_cases hu : u = t
        · rw [hu, World.onThread_thread_self]
          exact huser.blocked t
        · rw [World.onThread_thread_of_ne _ _ hu]
          exact huser.realBlocked u
      · rw [← Option.some.inj hm]
        exact covers_waitMask which

theorem SysOk.unwaited (hs : SysOk j s) {mask : Sigset a} (hpc : s.pc t = .waited mask)
    (freezing : Bool) :
    Goes j s t (setTaskBlocked x freezing s.world t (s.world.thread t).realBlocked) .user ∧
      Ok ((setTaskBlocked x freezing s.world t (s.world.thread t).realBlocked).onThread t fun m =>
        { m with realBlocked := sigemptyset }) (Function.update s.pc t .user) := by
  have hback := hs.goes_mask x j freezing (hs.realBlocked t) (by rw [hpc]; rfl) (k := .user) ⟨rfl, rfl⟩
    (fun _ => trivial) rfl
  exact ⟨hback, hback.ok.setRealBlocked (t := t) (sigismember_sigemptyset SIGKILL)⟩

theorem SysOk.step_sigtimedwaitEnd (hs : SysOk j s) {mask : Sigset a} (hpc : s.pc t = .waited mask)
    {notifier : Option (Notifier a)} {freezing : Bool}
    (hr : s.sigtimedwaitEnd x h j i t mask notifier freezing = some r) : Holds j r := by
  have hfree : (s.pc t).isLocked = false := by
    rw [hpc]
    rfl
  have hself : Function.update s.pc t (.user : Pc a) t = .user := Function.update_self ..
  have hidem : ∀ k : Pc a, Function.update (Function.update s.pc t .user) t k =
      Function.update s.pc t k := fun _ => Function.update_idem ..
  have hmask : Covers j mask := hs.waits t mask (by rw [hpc]; rfl)
  obtain ⟨hback, hreal⟩ := hs.unwaited x j hpc freezing
  obtain ⟨hok, hk⟩ := hreal.take (t := t) h j i (by rw [hself]; rfl) notifier freezing hmask
  rw [hidem] at hok
  unfold Sys.sigtimedwaitEnd at hr
  refine hs.locally ⟨hok, fun u => ?_, fun u => ?_, fun u => ?_, untimed j rfl⟩ hfree rfl
    (quiet_returned t _) hr
  · rw [hk.sighand]
    exact hback.sighand u
  · exact Clear.of_subset (hback.blocked u) (hk.blocked u)
  · rw [hk.realBlocked]
    by_cases hu : u = t
    · rw [hu, World.onThread_thread_self]
      exact clear_sigemptyset
    · rw [World.onThread_thread_of_ne _ _ hu]
      exact hback.realBlocked u

theorem SysOk.step_rtSigaction (hj : JobHeaders.Sound h j) (hs : SysOk j s) (hpc : s.pc t = .user)
    {sig : Signal} {act : SigAction} {saMask : Sigset a} {oneshot : Bool}
    (hr : s.rtSigaction h j t sig act saMask oneshot = some r) : Holds j r := by
  have hfree : (s.pc t).isLocked = false := by
    rw [hpc]
    rfl
  have hstay : Function.update s.pc t .user = s.pc := by
    rw [← hpc]
    exact Function.update_eq_self t s.pc
  unfold Sys.rtSigaction at hr
  split at hr
  · cases hr
  · next d hd =>
    obtain ⟨r', hr', hr⟩ := Option.bind_eq_some_iff.mp hr
    obtain ⟨hok, hk, -⟩ := hs.ok.doSigaction hj hr'
    split at hr
    · have hset : SysOk j { s with
          saMask := Function.update s.saMask d
            (Function.update (s.saMask d) sig (sigdelsetmask saMask (unblockable j)))
          oneshot := Function.update s.oneshot d (Function.update (s.oneshot d) sig oneshot) } := by
        refine ⟨hs.ok, hs.blocked, hs.realBlocked, hs.saved, fun d' sig' => ?_, hs.waits, hs.locked,
          hs.holder⟩
        dsimp only
        by_cases hd' : d' = d
        · rw [hd', Function.update_self]
          by_cases hsig : sig' = sig
          · rw [hsig, Function.update_self]
            exact clear_sigdelsetmask saMask
          · rw [Function.update_of_ne hsig]
            exact hs.saMask d sig'
        · rw [Function.update_of_ne hd']
          exact hs.saMask d' sig'
      refine hset.locally (hset.goesOf ?_ hk (untimed j rfl)) hfree rfl quiet_nil hr
      show Ok r'.1 (Function.update s.pc t .user)
      rw [hstay]
      exact hok
    · refine hs.locally (hs.goesOf ?_ (.refl _) (untimed j rfl)) hfree rfl quiet_nil hr
      rw [hstay]
      exact hs.ok

/-! #### Exits -/

theorem kept_killGroup (w : World a) (t code : Nat) : Kept w (killGroup x w t code) := by
  have hflags := Spares.onSignal w t fun m => { m with
    flags := SIGNAL_GROUP_EXIT
    groupExitCode := code }
  unfold killGroup zapOtherThreads
  exact .of_spares ((hflags.trans (.onSignal _ t _)).trans (.foldl (spares_zapThread x) _ _))

theorem lasts_killGroup {w : World a} (hg : Grouped w) {t : Nat} (code : Nat)
    (hlive : signalGroupExit (w.signalOf t) = false) : Lasts w (killGroup x w t code) := by
  unfold killGroup zapOtherThreads
  refine .of_live hlive fun u hu => .of_eq (((zapThreads_spec x (hg.others_nodup t) _).2.1 u).trans ?_)
  exact Eq.trans (World.signalOf_onSignal_of_ne _ _ (by exact hu)) (w.signalOf_onSignal_of_ne _ hu)

theorem SysOk.step_groupExit (hs : SysOk j s) {code : Nat}
    (hpc : s.pc t = .user ∨ s.pc t = .dying) (hr : s.groupExit x o t code = some r) : Holds j r := by
  have hfree : (s.pc t).isLocked = false := by
    rcases hpc with hpc | hpc
    · rw [hpc]
      rfl
    · rw [hpc]
      rfl
  have hf : Follows (s.world.task t) (s.world.thread t) (s.pc t) .dying := by
    rcases hpc with hpc | hpc
    · rw [hpc]
      exact ⟨rfl, nofun, nofun, nofun, nofun, nofun, trivial⟩
    · rw [hpc]
      exact ⟨rfl, fun _ => rfl, fun _ => rfl, nofun, nofun, nofun, trivial⟩
  obtain ⟨w, hw, hr⟩ := Option.bind_eq_some_iff.mp hr
  obtain ⟨-, rfl⟩ := o.doGroupExit_spec hw
  exact hs.locally (hs.goesOf (hs.ok.killGroup x code rfl hf) (kept_killGroup x s.world t code)
    (untimed j rfl)) hfree rfl quiet_nil hr

theorem SysOk.step_coredump (hs : SysOk j s) {code : Nat} (hpc : s.pc t = .dumping false)
    (hr : s.coredump x o t code = some r) : Holds j r := by
  have hf : Follows (s.world.task t) (s.world.thread t) (s.pc t) (.dumping true) := by
    rw [hpc]
    exact ⟨rfl, fun _ => rfl, fun _ => rfl, nofun, nofun, nofun, trivial⟩
  obtain ⟨w, hw, hr⟩ := Option.bind_eq_some_iff.mp hr
  obtain ⟨-, rfl⟩ := o.doCoredump_spec hw
  exact hs.locally (hs.goesOf (hs.ok.killGroup x code rfl hf) (kept_killGroup x s.world t code)
    (untimed j rfl)) (by rw [hpc]; rfl) rfl quiet_nil hr

theorem SysOk.step_dumped (hs : SysOk j s) {started wrote : Bool} (hpc : s.pc t = .dumping started)
    (hr : s.dumped t wrote = some r) : Holds j r := by
  have hdying : Ok s.world (Function.update s.pc t .dying) := by
    refine hs.ok.goto t ?_
    rw [hpc]
    exact ⟨rfl, fun _ => rfl, fun _ => rfl, nofun, nofun, nofun, trivial⟩
  refine hs.arrive (hs.goesOf ?_ ?_ (untimed j rfl)) (by rw [hpc]; rfl) rfl hr
  · split
    · exact hdying.onSignal t ⟨rfl, rfl, rfl⟩ rfl rfl
    · exact hdying
  · split
    · exact .of_spares (.onSignal s.world t _)
    · exact .refl _

theorem SysOk.step_exit (hs : SysOk j s) (hr : s.exit x t = some r) : Holds j r := by
  have hgo : ∀ todo, (s.pc t).looks = false → (s.pc t).halts = false → (s.pc t).isGone = false →
      Goes j s t (exitSignals x s.world t).1 (.telling todo .gone) ∧
        Quiet ((exitSignals x s.world t).2.2.map .warning ++
          completedEvent t (exitSignals x s.world t).2.1) := by
    intro todo hl hh hg
    obtain ⟨hok, hwarn⟩ := hs.ok.exitSignals x hl hh hg todo
    refine ⟨hs.goesOf hok (kept_exitSignals x hs.ok.grouped) (untimed j rfl), ?_⟩
    rw [hwarn]
    exact quiet_nil.append (quiet_completedEvent t _)
  unfold Sys.exit at hr
  dsimp only at hr
  split at hr
  · next hpc =>
    rw [hpc] at hgo
    obtain ⟨hgoes, hquiet⟩ := hgo (completedNotice t (exitSignals x s.world t).2.1) rfl rfl rfl
    split at hr
    · obtain rfl := Option.some.inj hr
      exact ⟨hs.goes hgoes (by rw [hpc]; rfl) rfl, hquiet⟩
    · exact hs.locally hgoes (by rw [hpc]; rfl) rfl hquiet hr
  · next hpc =>
    rw [hpc] at hgo
    obtain ⟨hgoes, hquiet⟩ := hgo (completedNotice t (exitSignals x s.world t).2.1) rfl rfl rfl
    split at hr
    · obtain rfl := Option.some.inj hr
      exact ⟨hs.goes hgoes (by rw [hpc]; rfl) rfl, hquiet⟩
    · cases hr
  · cases hr

/-! #### All of them -/

/-- **Every step keeps the invariant.** -/
theorem SysOk.step (hj : JobHeaders.Sound h j) (hs : SysOk j s) {act : Act a}
    (hr : step x o h j i s act = some r) : Holds j r := by
  cases act with
  | send alloc hidden sig info p group =>
    dsimp only [Machine.step] at hr
    split at hr
    · obtain rfl := Option.some.inj hr
      exact ⟨hs.setWorld (hs.ok.sendSignal x h hj alloc hidden sig info p group)
        (.of_spares (.sendSignal₀ x h alloc _ sig info p group _)), quiet_nil⟩
    · cases hr
  | sendSigqueue q p group =>
    dsimp only [Machine.step] at hr
    split at hr
    · obtain rfl := Option.some.inj hr
      exact ⟨hs.setWorld (hs.ok.lockedSendSigqueue x h hj q p group)
        (kept_lockedSendSigqueue x h _ q p group), quiet_nil⟩
    · cases hr
  | forceSig alloc hidden sig info p =>
    dsimp only [Machine.step] at hr
    split at hr
    · obtain ⟨r', hr', rfl⟩ := Option.map_eq_some_iff.mp hr
      exact ⟨hs.setWorld (Ok.forceSigInfo x h hj hs.ok hr') (kept_forceSigInfo x h hr'), quiet_nil⟩
    · cases hr
  | deliver p =>
    dsimp only [Machine.step] at hr
    split at hr
    · next hpc =>
      refine hs.step_goto j ?_ (untimed j rfl) (by rw [hpc]; rfl) rfl hr
      rw [hpc]
      exact follows_plain rfl rfl rfl trivial
    · cases hr
  | lock p =>
    dsimp only [Machine.step] at hr
    split at hr
    · next hpc => exact hs.takes (by rw [hpc]; rfl) (fun _ => hs.ended (hs.relocked j hpc)) hr
    · cases hr
  | tell p alloc hidden =>
    dsimp only [Machine.step] at hr
    split at hr
    · next hpc => exact hs.step_tell x h j hj hpc hr
    · cases hr
  | iterate p notifier freezing rearms =>
    dsimp only [Machine.step] at hr
    split at hr
    · next hpc =>
      obtain ⟨hl, hround⟩ := hs.iterated x h j i hj hpc notifier freezing rearms
      exact Option.some.inj hr ▸ hs.goes_on hround hl
    · cases hr
  | rearmed p =>
    dsimp only [Machine.step] at hr
    split at hr
    · next hpc =>
      exact hs.takes (by rw [hpc]; rfl) (fun hsome => hs.ended (hs.rearmed x h j hj hpc hsome)) hr
    · cases hr
  | orphaned p orphaned =>
    dsimp only [Machine.step] at hr
    split at hr
    · next hpc =>
      split at hr
      · refine hs.step_goto j ?_ (untimed j rfl) (by rw [hpc]; rfl) rfl hr
        rw [hpc]
        exact ⟨rfl, nofun, nofun, nofun, nofun, nofun, trivial⟩
      · exact hs.takes (by rw [hpc]; rfl) (fun _ => hs.ended (hs.orphaned x h j hpc)) hr
    · cases hr
  | trap p coredump =>
    dsimp only [Machine.step] at hr
    split at hr
    · next hpc => exact hs.step_trap j hpc hr
    · cases hr
  | resumed p alloc hidden pid uid =>
    dsimp only [Machine.step] at hr
    split at hr
    · next hpc =>
      obtain ⟨round, hround, hr⟩ := Option.bind_eq_some_iff.mp hr
      exact hs.takes (by rw [hpc]; rfl)
        (fun hsome => hs.ended (hs.resumed x h j hj hpc hsome hround).2.2) hr
    · cases hr
  | ptraceNotify p exitCode =>
    obtain ⟨exits, hmay, hfree, hn, hr⟩ := notify_cases x o h j i hr
    exact hs.step_ptraceNotify x o j hmay hfree hn hr
  | ptraceResume p code =>
    dsimp only [Machine.step] at hr
    split at hr
    · obtain ⟨w, hw, rfl⟩ := Option.map_eq_some_iff.mp hr
      obtain ⟨-, rfl⟩ := o.ptraceResume_spec hw
      refine ⟨hs.setWorld ((hs.ok.setExitCode _).wake x (by decide) p) ?_, quiet_nil⟩
      refine (Kept.onThread s.world p rfl).trans (.onTask _ p ?_)
      rw [x.wakeUpState_eq]
      exact ⟨rfl, rfl⟩
    · cases hr
  | ptraceListen p =>
    dsimp only [Machine.step] at hr
    split at hr
    · split at hr
      · obtain ⟨w, hw, rfl⟩ := Option.map_eq_some_iff.mp hr
        obtain rfl := o.ptraceListen_spec hw
        refine ⟨hs.setWorld (hs.ok.setJobctl (stopBits_or _ (by decide) (by decide)) fun _ ht => ?_)
          (.onTask _ p ⟨rfl, rfl⟩), quiet_nil⟩
        exact or_and_eq_zero.mpr ⟨ht, by decide⟩
      · cases hr
    · cases hr
  | setRunning p running =>
    obtain rfl := Option.some.inj hr
    exact ⟨hs.setWorld (hs.ok.onThread p ⟨⟨rfl, rfl, rfl⟩, rfl⟩) (.onThread _ p rfl), quiet_nil⟩
  | wake p =>
    obtain rfl := Option.some.inj hr
    refine ⟨hs.setWorld (hs.ok.wake x (by decide) p) (.onTask _ p ?_), quiet_nil⟩
    rw [x.wakeUpState_eq]
    exact ⟨rfl, rfl⟩
  | sleep p state =>
    dsimp only [Machine.step] at hr
    split at hr
    · next hpc =>
      split at hr
      · next hstate =>
        refine hs.step_goto j ?_ (untimed j rfl) (by rw [hpc]; rfl) rfl hr
        rw [hpc]
        exact follows_plain rfl rfl rfl ⟨rfl, hstate⟩
      · cases hr
    · cases hr
  | setState p =>
    dsimp only [Machine.step] at hr
    split at hr
    · next hpc =>
      have hw := hs.waits p
      rw [hpc] at hw
      exact hs.arrive (hs.goesOf (hs.ok.toNap hpc) (.onTask _ p ⟨rfl, rfl⟩) hw) (by rw [hpc]; rfl) rfl hr
    · cases hr
  | schedule p =>
    dsimp only [Machine.step] at hr
    split at hr
    · next k hpc =>
      have hw := hs.waits p
      rw [hpc] at hw
      split at hr
      · next hsleeps =>
        have hsleep := ((o.sleeps_spec _).mp hsleeps).2
        exact hs.arrive (hs.goesOf (hs.ok.fallAsleep hpc hsleep) (.refl _) hw) (by rw [hpc]; rfl) rfl hr
      · next hsleeps =>
        have hwhy : (s.world.task p).state = TASK_RUNNING ∨
            signalPendingState (s.world.task p) = true := by
          by_contra hno
          obtain ⟨hstate, hp⟩ := not_or.mp hno
          exact hsleeps ((o.sleeps_spec _).mpr ⟨hstate, Bool.eq_false_iff.mpr hp⟩)
        refine hs.arrive (hs.goesOf (hs.ok.stayAwake hpc hwhy) (.onTask _ p ⟨rfl, rfl⟩) ?_)
          (by rw [hpc]; rfl) k.after_plain.1 hr
        rw [k.after_plain.2]
        exact hw
    · cases hr
  | awoken p =>
    dsimp only [Machine.step] at hr
    split at hr
    · next k hpc =>
      have hw := hs.waits p
      rw [hpc] at hw
      split at hr
      · next hstate =>
        refine hs.arrive (hs.goesOf (hs.ok.wakeUp hpc hstate) (.refl _) ?_) (by rw [hpc]; rfl)
          k.after_plain.1 hr
        rw [k.after_plain.2]
        exact hw
      · cases hr
    · cases hr
  | rtSigprocmask p freezing how nset =>
    dsimp only [Machine.step] at hr
    split at hr
    · next hpc =>
      refine hs.locally (hs.goes_mask x j freezing ?_ (by rw [hpc]; rfl) (k := .user) ⟨rfl, rfl⟩
        (fun _ => trivial) rfl) (by rw [hpc]; rfl) rfl quiet_nil hr
      exact (hs.blocked p).newset (clear_sigdelsetmask nset) how
    · cases hr
  | rtSigsuspend p freezing unewset =>
    dsimp only [Machine.step] at hr
    split at hr
    · next hpc =>
      have hsaved : SysOk j { s with
          saved := Function.update s.saved p (some (s.world.task p).blocked) } :=
        hs.setSaved j fun mask hm => Option.some.inj hm ▸ hs.blocked p
      exact hsaved.locally (hsaved.goes_mask x j freezing (clear_sigdelsetmask unewset)
        (by dsimp only; rw [hpc]; rfl) (k := .toSleep .suspend TASK_INTERRUPTIBLE) ⟨rfl, rfl⟩
        (fun _ => ⟨rfl, by decide⟩) rfl) (by dsimp only; rw [hpc]; rfl) rfl quiet_nil hr
    · cases hr
  | restoreSigmask p freezing =>
    dsimp only [Machine.step] at hr
    split at hr
    · next mask hpc hm =>
      have hsaved : SysOk j { s with saved := Function.update s.saved p none } :=
        hs.setSaved j nofun
      exact hsaved.locally (hsaved.goes_mask x j freezing (hs.saved p mask hm)
        (by dsimp only; rw [hpc]; rfl) (k := .user) ⟨rfl, rfl⟩ (fun _ => trivial) rfl)
        (by dsimp only; rw [hpc]; rfl) rfl quiet_nil hr
    · cases hr
  | pause p =>
    have hgo : ∀ k : Pc a, (s.pc p).isPlain = true → k.isGone = false → k.traps = false →
        k.Sound (s.world.task p) → k.timedMask = none → k.isLocked = false →
        s.arrive p k = some r → Holds j r := fun k hp hg ht hsound hw hk =>
      hs.step_goto j (follows_plain hp hg ht hsound) (untimed j hw) (Pc.plain hp).2.2.2.2.2.1 hk
    have hboth : (s.pc p).isPlain = true → (if signalPending (s.world.task p) = true then
        s.arrive p .user else s.arrive p (.toSleep .pause TASK_INTERRUPTIBLE)) = some r → Holds j r := by
      intro hp hr
      split at hr
      · exact hgo .user hp rfl rfl trivial rfl rfl hr
      · exact hgo (.toSleep .pause TASK_INTERRUPTIBLE) hp rfl rfl ⟨rfl, by decide⟩ rfl rfl hr
    dsimp only [Machine.step] at hr
    split at hr
    · next hpc => exact hboth (by rw [hpc]; rfl) hr
    · next hpc => exact hboth (by rw [hpc]; rfl) hr
    · cases hr
  | sigtimedwait p notifier freezing timeout which =>
    dsimp only [Machine.step] at hr
    split at hr
    · next hpc => exact hs.step_sigtimedwait h j i hpc hr
    · cases hr
  | sigtimedwaitEnd p notifier freezing =>
    dsimp only [Machine.step] at hr
    split at hr
    · next hpc => exact hs.step_sigtimedwaitEnd x h j i hpc hr
    · cases hr
  | rtSigaction p sig act saMask oneshot =>
    dsimp only [Machine.step] at hr
    split at hr
    · next hpc => exact hs.step_rtSigaction h j hj hpc hr
    · cases hr
  | coredump p code =>
    dsimp only [Machine.step] at hr
    split at hr
    · next hpc => exact hs.step_coredump x o j hpc hr
    · cases hr
  | dumped p wrote =>
    dsimp only [Machine.step] at hr
    split at hr
    · next hpc =>
      split at hr
      · cases hr
      · exact hs.step_dumped j hpc hr
    · cases hr
  | groupExit p code =>
    dsimp only [Machine.step] at hr
    split at hr
    · next hpc => exact hs.step_groupExit x o j (Or.inl hpc) hr
    · next hpc => exact hs.step_groupExit x o j (Or.inr hpc) hr
    · cases hr
  | exit p => exact hs.step_exit x j hr

end

end LinuxKerDev.Signals.Machine
