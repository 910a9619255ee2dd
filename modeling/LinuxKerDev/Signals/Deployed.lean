import LinuxKerDev.Signals.Smunch

/-!
# What the two `smunch`s do not do alike, and what neither does

The lost `!` of `RW/smunch.c` shows on one kind of call, a zombie and a pattern
without `SIGKILL`: the one file leaves the zombie alone, the other posts the
pattern and wakes it.  `smunch_agree_iff` says that there, and nowhere else, the
two differ, unless the zombie has all of it already.

The branch for `SIGKILL` puts the signal in the pending set and wakes the task
by `wake_up_process`, which does not set `TIF_SIGPENDING`.  `smunch_recalced_iff`
says when the flag is right all the same.
-/

namespace LinuxKerDev.Signals

open Lib

variable {a : Arch}

/-! ### The two files -/

def Agree (r r' : Kernel a × Int) : Prop := r.2 = r'.2 ∧ r.1.SameTasks r'.1

theorem branch_same (x : Extern a) {t : Task a} {bitPattern : BitVec 64}
    (h : t.threadGroup ≠ [] ∨ t.exited = false ∨ killBit bitPattern = true) :
    branch RW.ignored x t bitPattern = branch DriverCode.ignored x t bitPattern := by
  unfold branch
  by_cases hg : t.threadGroup ≠ []
  · rw [if_pos hg, if_pos hg]
  · rw [if_neg hg, if_neg hg]
    rcases h with h | hx | hk
    · exact absurd h hg
    · rw [RW.ignored_of_live hx, DriverCode.ignored_of_live hx]
    · cases hx : t.exited with
      | false => rw [← hx, RW.ignored_of_live hx, DriverCode.ignored_of_live hx]
      | true => rw [hk, Bool.and_self, if_pos rfl, if_pos rfl]

/-- A call looks at its test only in `branch`. -/
theorem smunchOf_congr {ignored ignored' : Task a → BitVec 64 → Bool} (x : Extern a)
    (exchanged : List Nat) {k : Kernel a} {pid : Int} {bitPattern : BitVec 64}
    (h : ∀ t, k.pids pid = some t → (k.task t).sighand ≠ none →
      branch ignored x (k.task t) bitPattern = branch ignored' x (k.task t) bitPattern) :
    smunchOf ignored x exchanged k pid bitPattern =
      smunchOf ignored' x exchanged k pid bitPattern := by
  cases hp : k.pids pid with
  | none =>
    obtain ⟨k₁, hl, -, -⟩ := lookup_none hp
    rw [smunchOf, smunchOf, hl]
  | some t =>
    obtain ⟨k₁, hl, hsame, -⟩ := lookup_some hp
    have hcheck : check ignored x exchanged k₁ t bitPattern =
        check ignored' x exchanged k₁ t bitPattern := by
      rw [check, check, lockTaskSighand_eq, hsame.2]
      cases hs : (k.task t).sighand with
      | none => rfl
      | some sighand =>
        simp only
        rw [h t hp (by rw [hs]; exact Option.some_ne_none _)]
    rw [smunchOf, smunchOf, hl]
    simp only [hcheck]

theorem signalWakeUp_postPattern_eq_self_iff (x : Extern a) (t : Task a) (bitPattern : BitVec 64) :
    signalWakeUp x { t with pending := postPattern t.pending bitPattern } false = t ↔
      (∀ s, inPattern bitPattern s = true → sigismember t.pending s = true) ∧
        t.tifSigpending = true ∧ t.state &&& TASK_INTERRUPTIBLE = 0 := by
  have hp := posted_signalWakeUp x t bitPattern
  constructor
  · intro h
    rw [h] at hp
    refine ⟨fun s hs => (hp.pending s).mpr (Or.inr hs), hp.flag, ?_⟩
    by_contra hne
    -- an interruptible sleep would have ended, and that shows in the state
    rw [hp.woken hne] at hne
    exact hne (BitVec.zero_and)
  · rintro ⟨hpending, hflag, hstate⟩
    rw [hp.rest, hp.asleep hstate, ← hflag]
    have hsame : (signalWakeUp x { t with pending := postPattern t.pending bitPattern }
        false).pending = t.pending :=
      Sigset.ext fun s => (hp.pending s).trans (or_iff_left_of_imp (hpending s))
    rw [hsame]

/-- **The two files agree, except on a zombie and a pattern without `SIGKILL`**
that the zombie does not have already. -/
theorem smunch_agree_iff (x : Extern a) (exchanged : List Nat) (k : Kernel a) (pid : Int)
    (bitPattern : BitVec 64) :
    Agree (RW.smunch x exchanged k pid bitPattern)
        (DriverCode.smunch x exchanged k pid bitPattern) ↔
      ∀ t, Single k pid t → (k.task t).exited = true → inPattern bitPattern SIGKILL = false →
        (∀ s, inPattern bitPattern s = true → sigismember (k.task t).pending s = true) ∧
          (k.task t).tifSigpending = true ∧ (k.task t).state &&& TASK_INTERRUPTIBLE = 0 := by
  by_cases h : ∃ t, Single k pid t ∧ (k.task t).exited = true ∧
      inPattern bitPattern SIGKILL = false
  · obtain ⟨t, hsingle, hx, hk⟩ := h
    have hk' := hk
    rw [← killBit_eq] at hk'
    have hrw : RW.ignored (k.task t) bitPattern = false := by
      rw [RW.ignored, hk', Bool.and_false]
    have hdriver : DriverCode.ignored (k.task t) bitPattern = true := by
      rw [DriverCode.ignored, hx, hk']
      rfl
    obtain ⟨k₁, hpids₁, htask₁, -, heq₁⟩ := smunchOf_handled _ x exchanged bitPattern hsingle
      (branch_posted x hsingle.alone hk' hrw)
    obtain ⟨k₂, hpids₂, htask₂, -, heq₂⟩ := smunchOf_handled _ x exchanged bitPattern hsingle
      (branch_ignored x hsingle.alone hk' hdriver)
    rw [Function.update_eq_self] at htask₂
    have hagree : Agree (RW.smunch x exchanged k pid bitPattern)
        (DriverCode.smunch x exchanged k pid bitPattern) ↔
        signalWakeUp x { k.task t with pending := postPattern (k.task t).pending bitPattern }
          false = k.task t := by
      rw [RW.smunch, DriverCode.smunch, heq₁, heq₂, Agree, Kernel.SameTasks, htask₁, htask₂,
        hpids₁, hpids₂, eq_comm (a := k.task), Function.update_eq_self_iff]
      simp
    rw [hagree, signalWakeUp_postPattern_eq_self_iff]
    constructor
    · intro hall u hu _ _
      obtain rfl : t = u := Option.some.inj (hsingle.found.symm.trans hu.found)
      exact hall
    · intro hall
      exact hall t hsingle hx hk
  · have hsame : RW.smunch x exchanged k pid bitPattern =
        DriverCode.smunch x exchanged k pid bitPattern := by
      refine smunchOf_congr x exchanged fun t hp hs => branch_same x ?_
      by_contra hno
      push Not at hno
      rw [killBit_eq, ne_eq, ne_eq, Bool.not_eq_false, Bool.not_eq_true] at hno
      exact h ⟨t, ⟨hp, hs, hno.1⟩, hno.2⟩
    rw [hsame]
    refine ⟨fun _ t hsingle hx hk => absurd ⟨t, hsingle, hx, hk⟩ h, fun _ => ⟨rfl, rfl, rfl⟩⟩

/-- A zombie with nothing pending, and `SIGINT`: one file leaves it alone, the other
makes the signal pending. -/
theorem zombie_not_alike :
    ¬ Agree (RW.smunch (Extern.simplest .oneWord) [] (oneTask (zombie .oneWord)) 7 2)
      (DriverCode.smunch (Extern.simplest .oneWord) [] (oneTask (zombie .oneWord)) 7 2) := by
  intro h
  have htif := congrArg (fun task => (task 0).tifSigpending) h.2.2
  exact absurd (show false = true from htif) (by decide)

/-! ### The thread flag -/

/-- What `signal_pending` and `fatal_signal_pending` are asked for: a signal in the
private set that is not blocked is seen. -/
def Task.Seen (t : Task a) : Prop :=
  ∀ s, sigismember t.pending s = true → sigismember t.blocked s = false →
    signalPending t = true ∧ (s = SIGKILL → fatalSignalPending t = true)

theorem Task.Recalced.seen {t : Task a} (h : t.Recalced) : t.Seen := by
  intro s hs hb
  have hflag : signalPending t = true := h ⟨s, Or.inl hs, hb⟩
  refine ⟨hflag, ?_⟩
  rintro rfl
  rw [fatalSignalPending, hflag, hs]
  rfl

theorem Posted.recalced {bitPattern : BitVec 64} {t t' : Task a} (h : Posted bitPattern t t') :
    t'.Recalced := fun _ => h.flag

/-- `wake_up_process` leaves the flag as it was, so after it the flag is right only
if it was up, or `SIGKILL` does not count. -/
theorem recalced_killed_iff (x : Extern a) {t : Task a} (h : t.Recalced) :
    (x.wakeUpProcess { t with pending := sigaddset t.pending SIGKILL }).Recalced ↔
      t.tifSigpending = true ∨ sigismember t.blocked SIGKILL = true := by
  rw [x.wakeUpProcess_eq]
  constructor
  · intro hrec
    cases hb : sigismember t.blocked SIGKILL with
    | true => exact Or.inr rfl
    | false =>
      exact Or.inl (hrec ⟨SIGKILL,
        Or.inl ((sigismember_sigaddset t.pending SIGKILL SIGKILL).mpr (Or.inl rfl)), hb⟩)
  · rintro (hflag | hblocked) ⟨s, hs, hb⟩
    · exact hflag
    · refine h ⟨s, hs.imp_left fun hs => ?_, hb⟩
      rcases (sigismember_sigaddset t.pending SIGKILL s).mp hs with rfl | hs
      · exact absurd (hblocked.symm.trans hb) (by decide)
      · exact hs

/-- **When the thread flag is right after `smunch` of `RW/smunch.c`**: unless
`SIGKILL` is sent to a task whose flag is down and that does not block it. -/
theorem smunch_recalced_iff (x : Extern a) (exchanged : List Nat) {k : Kernel a} {pid : Int}
    {bitPattern : BitVec 64} {t : Nat} (hfound : k.pids pid = some t)
    (hlive : (k.task t).exited = false) (hrec : (k.task t).Recalced)
    (hret : (RW.smunch x exchanged k pid bitPattern).2 = 0) :
    (((RW.smunch x exchanged k pid bitPattern).1.task t).Recalced ∧
        ((RW.smunch x exchanged k pid bitPattern).1.task t).Seen) ↔
      (inPattern bitPattern SIGKILL = false ∨ (k.task t).tifSigpending = true ∨
        sigismember (k.task t).blocked SIGKILL = true) := by
  rw [and_iff_left_of_imp Task.Recalced.seen]
  have hsingle : Single k pid t := by
    by_contra hno
    have hnone : ∀ u, ¬ Single k pid u := by
      intro u hu
      obtain rfl : t = u := Option.some.inj (hfound.symm.trans hu.found)
      exact hno hu
    obtain ⟨k', -, -, heq⟩ := smunchOf_refused RW.ignored x exchanged bitPattern hnone
    rw [RW.smunch, heq] at hret
    exact absurd (show (-1 : Int) = 0 from hret) (by decide)
  rw [← killBit_eq]
  cases hk : killBit bitPattern with
  | true =>
    obtain ⟨k', -, htask, -, heq⟩ := smunchOf_handled _ x exchanged bitPattern hsingle
      (branch_killed x hsingle.alone hlive hk (RW.ignored_of_live hlive))
    rw [RW.smunch, heq, htask, Function.update_self, recalced_killed_iff x hrec]
    simp
  | false =>
    obtain ⟨k', -, htask, -, heq⟩ := smunchOf_handled _ x exchanged bitPattern hsingle
      (branch_posted x hsingle.alone hk (RW.ignored_of_live hlive))
    rw [RW.smunch, heq, htask, Function.update_self]
    exact iff_of_true (posted_signalWakeUp x _ bitPattern).recalced (Or.inl rfl)

theorem smunch_recalced_int :
    ((RW.smunch (Extern.simplest .oneWord) [] (oneTask (sleeper .oneWord)) 7 2).1.task
        0).Recalced ∧
      ((RW.smunch (Extern.simplest .oneWord) [] (oneTask (sleeper .oneWord)) 7 2).1.task
        0).Seen :=
  (smunch_recalced_iff (Extern.simplest .oneWord) [] rfl rfl (sleeper_recalced _) rfl).mpr
    (Or.inl rfl)

/-- A sleeping task that is sent `SIGKILL`: the signal is pending and not blocked, and
neither the flag nor `fatal_signal_pending` says so. -/
theorem kill_unseen :
    let r := RW.smunch (Extern.simplest .oneWord) [] (oneTask (sleeper .oneWord)) 7 256
    (sleeper .oneWord).Recalced ∧ r.2 = 0 ∧ sigismember (r.1.task 0).pending SIGKILL = true ∧
      sigismember (r.1.task 0).blocked SIGKILL = false ∧
      fatalSignalPending (r.1.task 0) = false ∧ ¬ (r.1.task 0).Recalced := by
  refine ⟨sleeper_recalced _, rfl, rfl, rfl, rfl, fun h => ?_⟩
  have htif := h ⟨SIGKILL, Or.inl rfl, rfl⟩
  exact absurd (show false = true from htif) (by decide)

end LinuxKerDev.Signals
