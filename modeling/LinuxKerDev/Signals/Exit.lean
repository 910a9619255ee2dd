import LinuxKerDev.Signals.Bounds

/-!
# `init_sigcounter` while its target exits

The call a step at a time: the lookup of the pid, the lock, the counters one after the
other, the unlock and the return.  Any task may exit between two steps, unless the call
holds the lock of its `sighand`; an exit takes the task out of the table and takes its
`sighand` away.

`init_sigcounter` looks neither at what `pid_task` answers nor at what
`lock_task_sighand` does.  So where either finds nothing the next step follows a `NULL`
pointer, and `crashed` is the end of it.  Where both find something the lock keeps the
`sighand` in place until the end (`Inv`).
-/

namespace LinuxKerDev.Signals

open Lib

variable {a : Arch}

namespace World

/-- `__exit_signal` and `__unhash_process`, which `exit.c` has. -/
def exit (w : World a) (t : Nat) : World a :=
  (w.onTask t fun s => { s with sighand := none }).setKernel
    { (w.onTask t fun s => { s with sighand := none }).kernel with
      pids := fun pid => if w.kernel.pids pid = some t then none else w.kernel.pids pid }

def setCounter (w : World a) (d i : Nat) (n : BitVec 32) : World a :=
  { w with counters := Function.update w.counters d (Function.update (w.counters d) i n) }

section

variable (w : World a) (t : Nat)

@[simp] theorem setCounter_counters (d i : Nat) (n : BitVec 32) :
    (w.setCounter d i n).counters =
      Function.update w.counters d (Function.update (w.counters d) i n) := rfl

@[simp] theorem exit_counters : (w.exit t).counters = w.counters := rfl

@[simp] theorem exit_log : (w.exit t).kernel.log = w.kernel.log := rfl

theorem exit_task {u : Nat} (h : u ≠ t) : (w.exit t).task u = w.task u := by
  show Function.update w.kernel.task t _ u = _
  rw [Function.update_of_ne h]
  rfl

end

end World

namespace Exit

/-! ### The steps -/

/-- Where the call is.  `clearing` carries what `lock_task_sighand` has answered, which the
call does not look at. -/
inductive Pc
  | entered
  | looked (p : Option Nat)
  | clearing (p : Nat) (ss : Option Nat) (i : Nat)
  | unlocked
  | returned (r : Int)
  | crashed
  deriving DecidableEq, Repr

structure Sys (a : Arch) where
  w : World a
  pc : Pc

inductive Act
  | exit (t : Nat)
  | run (exchanged : List Nat)
  deriving DecidableEq, Repr

/-- What `pid_task` and `lock_task_sighand` answer. -/
inductive Event
  | looked (p : Option Nat)
  | locked (ss : Option Nat)
  deriving DecidableEq, Repr

/-- The `sighand` whose lock the call holds. -/
def Sys.held (s : Sys a) : Option Nat :=
  match s.pc with
  | .clearing _ ss _ => ss
  | _ => none

def run (current pid : Int) (s : Sys a) (exchanged : List Nat) : Option (Sys a × List Event) :=
  match s.pc with
  | .entered => some ({ s with pc := .looked (s.w.kernel.pids pid) }, [.looked (s.w.kernel.pids pid)])
  | .looked none => some ({ s with pc := .crashed }, [])
  | .looked (some p) =>
    let (k, ss) := lockTaskSighand s.w.kernel p exchanged
    some (⟨s.w.setKernel k, .clearing p ss 0⟩, [.locked ss])
  | .clearing p ss i =>
    -- both the loop and the unlock follow `p->sighand`
    match (s.w.task p).sighand with
    | none => some ({ s with pc := .crashed }, [])
    | some d =>
      if i < 66 then some (⟨s.w.setCounter d i 0, .clearing p ss (i + 1)⟩, [])
      else some (⟨s.w.setKernel (unlockTaskSighand s.w.kernel p), .unlocked⟩, [])
  | .unlocked =>
    some (⟨s.w.setKernel (s.w.kernel.printk
      ("current pid:" ++ toString current ++ "\npid:" ++ toString pid ++ "\n")), .returned 0⟩, [])
  | .returned _ => none
  | .crashed => none

def step (current pid : Int) : Step (Sys a) Act Event
  | s, .exit t =>
    match (s.w.task t).sighand with
    | none => none
    | some d => if s.held = some d then none else some ({ s with w := s.w.exit t }, [])
  | s, .run exchanged => run current pid s exchanged

/-! ### Safety -/

/-- The pid names no task, or the task has no `sighand`. -/
def Absent (es : List Event) : Prop := .looked none ∈ es ∨ .locked none ∈ es

/-- The locks taken since `w₀` and not given back; nothing has been given back that was
not held. -/
def Locks (w₀ w : World a) (held : List Lock) : Prop :=
  ∃ l, w.kernel.log = w₀.kernel.log ++ l ∧ LockOp.replay [] l = some held

/-- No pointer that is `NULL` has been followed, no lock given back that was not held; a
target that is not there means an error and no change, and one that is there means that
all its counters are clear. -/
structure Safe (w₀ : World a) (es : List Event) (s : Sys a) : Prop where
  alive : s.pc ≠ .crashed
  locks : ∃ held, Locks w₀ s.w held ∧ ∀ r, s.pc = .returned r → held = []
  absent : Absent es → s.w.counters = w₀.counters ∧ ∀ r, s.pc = .returned r → r ≠ 0
  cleared : ∀ d r, .locked (some d) ∈ es → s.pc = .returned r →
    r = 0 ∧ ∀ i < NSIG, s.w.counters d i = 0

def Present (pid : Int) (_ : List Event) (s : Sys a) : Act → Prop
  | .exit _ => True
  | .run _ =>
    match s.pc with
    | .entered => s.w.kernel.pids pid ≠ none
    | .looked (some p) => (s.w.task p).sighand ≠ none
    | _ => True

instance (pid : Int) (es : List Event) (s : Sys a) : DecidablePred (Present pid es s)
  | .exit _ => inferInstanceAs (Decidable True)
  | .run _ =>
    show Decidable (match s.pc with
      | .entered => s.w.kernel.pids pid ≠ none
      | .looked (some p) => (s.w.task p).sighand ≠ none
      | _ => True) from
    match s.pc with
    | .entered => inferInstanceAs (Decidable (s.w.kernel.pids pid ≠ none))
    | .looked (some p) => inferInstanceAs (Decidable ((s.w.task p).sighand ≠ none))
    | .looked none | .clearing _ _ _ | .unlocked | .returned _ | .crashed =>
      inferInstanceAs (Decidable True)

/-! ### What every run keeps -/

/-- Where the call is, with what it has been answered. -/
inductive Inv (w₀ : World a) : List Event → Sys a → Prop
  | entered {w : World a} (hl : Locks w₀ w []) (hc : w.counters = w₀.counters) :
      Inv w₀ [] ⟨w, .entered⟩
  | looked {w : World a} {p : Option Nat} (hl : Locks w₀ w []) (hc : w.counters = w₀.counters) :
      Inv w₀ [.looked p] ⟨w, .looked p⟩
  | unlockable {w : World a} {p : Nat} (hl : Locks w₀ w []) (hc : w.counters = w₀.counters)
      (hs : (w.task p).sighand = none) :
      Inv w₀ [.looked (some p), .locked none] ⟨w, .clearing p none 0⟩
  | clearing {w : World a} {p d i : Nat} (hl : Locks w₀ w [.siglock d, .irq])
      (hs : (w.task p).sighand = some d) (hi : i ≤ 66) (hz : ∀ j < i, w.counters d j = 0) :
      Inv w₀ [.looked (some p), .locked (some d)] ⟨w, .clearing p (some d) i⟩
  | unlocked {w : World a} {p d : Nat} (hl : Locks w₀ w []) (hz : ∀ j < 66, w.counters d j = 0) :
      Inv w₀ [.looked (some p), .locked (some d)] ⟨w, .unlocked⟩
  | returned {w : World a} {p d : Nat} (hl : Locks w₀ w []) (hz : ∀ j < 66, w.counters d j = 0) :
      Inv w₀ [.looked (some p), .locked (some d)] ⟨w, .returned 0⟩
  | crashed {es : List Event} {w : World a} (ha : Absent es) : Inv w₀ es ⟨w, .crashed⟩

section

variable {current pid : Int} {w₀ : World a} {as : List Act} {es es' : List Event} {s s' : Sys a}
  {b : Act}

theorem Locks.log {w w' : World a} {held held' : List Lock} {l : List (LockOp Lock)}
    (h : Locks w₀ w held) (hl : w'.kernel.log = w.kernel.log ++ l)
    (hr : LockOp.replay held l = some held') : Locks w₀ w' held' := by
  obtain ⟨l₀, h₀, hr₀⟩ := h
  refine ⟨l₀ ++ l, by rw [hl, h₀, List.append_assoc], ?_⟩
  rw [LockOp.replay_append, hr₀, Option.bind_some, hr]

theorem Locks.refl (w : World a) : Locks w w [] := ⟨[], (List.append_nil _).symm, rfl⟩

/-- **An exit stays clear of the call.** -/
theorem Inv.exit (h : Inv w₀ es s) {t d : Nat} (hd : (s.w.task t).sighand = some d)
    (hheld : s.held ≠ some d) : Inv w₀ es { s with w := s.w.exit t } := by
  cases h with
  | entered hl hc => exact .entered hl hc
  | looked hl hc => exact .looked hl hc
  | @unlockable w p hl hc hs =>
    have hne : p ≠ t := by
      rintro rfl
      cases hs.symm.trans hd
    exact .unlockable hl hc (by rw [World.exit_task w t hne]; exact hs)
  | @clearing w p d' i hl hs hi hz =>
    have hne : p ≠ t := by
      rintro rfl
      exact hheld (hs.symm.trans hd)
    exact .clearing hl (by rw [World.exit_task w t hne]; exact hs) hi hz
  | unlocked hl hz => exact .unlocked hl hz
  | returned hl hz => exact .returned hl hz
  | crashed ha => exact .crashed ha

theorem Inv.run (h : Inv w₀ es s) {exchanged : List Nat}
    (hf : run current pid s exchanged = some (s', es')) : Inv w₀ (es ++ es') s' := by
  cases h with
  | entered hl hc =>
    obtain ⟨rfl, rfl⟩ := Prod.mk.inj (Option.some.inj hf)
    exact .looked hl hc
  | @looked w p hl hc =>
    cases p with
    | none =>
      obtain ⟨rfl, rfl⟩ := Prod.mk.inj (Option.some.inj hf)
      exact .crashed (Or.inl (by simp))
    | some p =>
      simp only [Exit.run, lockTaskSighand_eq] at hf
      obtain ⟨rfl, rfl⟩ := Prod.mk.inj (Option.some.inj hf)
      have hrounds : LockOp.replay [] (exchanged.flatMap roundLog) = some [] :=
        balanced_rounds exchanged
      cases hs : (w.kernel.task p).sighand with
      | none =>
        refine .unlockable (hl.log (List.append_assoc _ _ _) ?_) hc hs
        rw [LockOp.replay_append, hrounds]
        rfl
      | some d =>
        refine .clearing (hl.log (List.append_assoc _ _ _) ?_) hs (Nat.zero_le _)
          fun j hj => absurd hj (Nat.not_lt_zero j)
        rw [LockOp.replay_append, hrounds]
        simp [lastLog, LockOp.replay, LockOp.apply]
  | @unlockable w p hl hc hs =>
    simp only [Exit.run, hs] at hf
    obtain ⟨rfl, rfl⟩ := Prod.mk.inj (Option.some.inj hf)
    exact .crashed (Or.inr (by simp))
  | @clearing w p d i hl hs hi hz =>
    simp only [Exit.run, hs] at hf
    rw [← List.append_nil [Event.looked (some p), Event.locked (some d)]]
    split at hf
    · next hlt =>
      obtain ⟨rfl, rfl⟩ := Prod.mk.inj (Option.some.inj hf)
      refine .clearing hl hs hlt fun j hj => ?_
      show Function.update w.counters d _ d j = 0
      rw [Function.update_self, Function.update_apply]
      split
      · rfl
      · exact hz j (by omega)
    · next hge =>
      obtain ⟨rfl, rfl⟩ := Prod.mk.inj (Option.some.inj hf)
      have hk : (w.kernel.task p).sighand = some d := hs
      refine .unlocked (hl.log (l := [.release (.siglock d), .release .irq]) ?_ ?_)
        fun j hj => hz j (by omega)
      · rw [World.setKernel, unlockTaskSighand_eq w.kernel p hk]
      · simp [LockOp.replay, LockOp.apply]
  | unlocked hl hz =>
    obtain ⟨rfl, rfl⟩ := Prod.mk.inj (Option.some.inj hf)
    exact .returned hl hz
  | returned hl hz => cases hf
  | crashed ha => cases hf

theorem Inv.step (h : Inv w₀ es s) (hf : step current pid s b = some (s', es')) :
    Inv w₀ (es ++ es') s' := by
  cases b with
  | exit t =>
    rw [Exit.step] at hf
    cases hd : (s.w.task t).sighand with
    | none => rw [hd] at hf; cases hf
    | some d =>
      rw [hd] at hf
      obtain ⟨hheld, hf⟩ := Option.ite_none_left_eq_some.mp hf
      obtain ⟨rfl, rfl⟩ := Prod.mk.inj (Option.some.inj hf)
      rw [List.append_nil]
      exact h.exit hd hheld
  | run exchanged => exact h.run hf

theorem inv_of_run (h : Run (step current pid) ⟨w₀, .entered⟩ as es s) : Inv w₀ es s :=
  h.inv (I := fun es s => Inv w₀ es s) (.entered (.refl w₀) rfl) fun hi hf => hi.step hf

/-! ### The call alone -/

theorem clear_run {p d : Nat} : ∀ (n i : Nat) (w : World a), n + i = 66 →
    (w.task p).sighand = some d →
    Run (step current pid) ⟨w, .clearing p (some d) i⟩ (List.replicate n (.run [])) []
      ⟨{ w with counters := Function.update w.counters d fun j =>
        if i ≤ j ∧ j < 66 then 0 else w.counters d j }, .clearing p (some d) 66⟩ := by
  intro n
  induction n with
  | zero =>
    intro i w hi hs
    obtain rfl : i = 66 := by omega
    have hsame : (Function.update w.counters d fun j =>
        if 66 ≤ j ∧ j < 66 then 0 else w.counters d j) = w.counters := by
      rw [Function.update_eq_iff]
      exact ⟨funext fun j => if_neg (by omega), fun _ _ => rfl⟩
    rw [hsame]
    exact .nil
  | succ n ih =>
    intro i w hi hs
    have hone : step current pid ⟨w, .clearing p (some d) i⟩ (.run []) =
        some (⟨w.setCounter d i 0, .clearing p (some d) (i + 1)⟩, []) := by
      simp only [step, run, hs]
      rw [if_pos (by omega)]
    have hrest := ih (i + 1) (w.setCounter d i 0) (by omega) hs
    have hsame : (Function.update (w.setCounter d i 0).counters d fun j =>
        if i + 1 ≤ j ∧ j < 66 then 0 else (w.setCounter d i 0).counters d j) =
          Function.update w.counters d fun j =>
            if i ≤ j ∧ j < 66 then 0 else w.counters d j := by
      rw [World.setCounter_counters, Function.update_idem, Function.update_self]
      refine congrArg _ (funext fun j => ?_)
      rw [Function.update_apply]
      by_cases hj : j = i
      · rw [if_neg (by omega), if_pos hj, if_pos (by omega)]
      · rw [if_neg hj]
        exact if_congr (by omega) rfl rfl
    rw [hsame] at hrest
    exact (run_single hone).append hrest

/-- **Without an exit the call is `init_sigcounter`**, and crashes where that follows a
`NULL` pointer. -/
theorem alone (exchanged : List Nat) (w : World a) : ∃ as es s,
    Run (step current pid) ⟨w, .entered⟩ as es s ∧ (∀ b ∈ as, ∃ l, b = .run l) ∧
      match initSigcounter exchanged w current pid with
      | some w' => s = ⟨w', .returned 0⟩
      | none => s.pc = .crashed := by
  have hlook : step current pid ⟨w, .entered⟩ (.run []) =
      some (⟨w, .looked (w.kernel.pids pid)⟩, [.looked (w.kernel.pids pid)]) := rfl
  unfold initSigcounter
  cases hp : w.kernel.pids pid with
  | none =>
    rw [hp] at hlook
    have hcrash : step current pid ⟨w, .looked none⟩ (.run []) = some (⟨w, .crashed⟩, []) := rfl
    exact ⟨_, _, _, (run_single hlook).snoc hcrash, by simp, rfl⟩
  | some p =>
    rw [hp] at hlook
    dsimp only
    rw [lockTaskSighand_eq]
    have hlock : step current pid ⟨w, .looked (some p)⟩ (.run exchanged) =
        some (⟨w.setKernel (lockTaskSighand w.kernel p exchanged).1,
          .clearing p (w.kernel.task p).sighand 0⟩, [.locked (w.kernel.task p).sighand]) := by
      simp only [step, run, lockTaskSighand_eq]
    rw [lockTaskSighand_eq] at hlock
    cases hs : (w.kernel.task p).sighand with
    | none =>
      rw [hs] at hlock
      have hcrash : step current pid ⟨w.setKernel { w.kernel with
          log := w.kernel.log ++ exchanged.flatMap roundLog ++ lastLog none }, .clearing p none 0⟩
          (.run []) = some (⟨w.setKernel { w.kernel with
            log := w.kernel.log ++ exchanged.flatMap roundLog ++ lastLog none }, .crashed⟩, []) := by
        have hnone : ((w.setKernel { w.kernel with
          log := w.kernel.log ++ exchanged.flatMap roundLog ++ lastLog none }).task p).sighand = none := hs
        simp only [step, run, hnone]
      exact ⟨_, _, _, ((run_single hlook).snoc hlock).snoc hcrash, by simp, rfl⟩
    | some d =>
      rw [hs] at hlock
      dsimp only
      set w₁ := w.setKernel { w.kernel with
        log := w.kernel.log ++ exchanged.flatMap roundLog ++ lastLog (some d) }
      have hs₁ : (w₁.task p).sighand = some d := hs
      have hloop : Run (step current pid) ⟨w₁, .clearing p (some d) 0⟩
          (List.replicate 66 (.run [])) [] _ := clear_run 66 0 w₁ rfl hs₁
      simp only [Nat.zero_le, true_and] at hloop
      set w₂ := { w₁ with
        counters := Function.update w₁.counters d fun j => if j < 66 then 0 else w₁.counters d j }
      have hs₂ : (w₂.task p).sighand = some d := hs
      have hunlock : step current pid ⟨w₂, .clearing p (some d) 66⟩ (.run []) =
          some (⟨w₂.setKernel (unlockTaskSighand w₂.kernel p), .unlocked⟩, []) := by
        simp only [step, run, hs₂]
        rw [if_neg (by omega)]
      have hret : step current pid ⟨w₂.setKernel (unlockTaskSighand w₂.kernel p), .unlocked⟩
          (.run []) = some (⟨w₂.setKernel ((unlockTaskSighand w₂.kernel p).printk
            ("current pid:" ++ toString current ++ "\npid:" ++ toString pid ++ "\n")),
            .returned 0⟩, []) := rfl
      exact ⟨_, _, _, ((((run_single hlook).snoc hlock).append hloop).snoc hunlock).snoc hret,
        by simp, rfl⟩

/-! ### When it is safe -/

theorem absent_step (hf : step current pid s b = some (s', es')) :
    ¬ Absent es' ↔ Present pid es s b := by
  have hnil : ¬ Absent ([] : List Event) := by simp [Absent]
  cases b with
  | exit t =>
    rw [step] at hf
    cases hd : (s.w.task t).sighand with
    | none => rw [hd] at hf; cases hf
    | some d =>
      rw [hd] at hf
      obtain ⟨-, hf⟩ := Option.ite_none_left_eq_some.mp hf
      obtain ⟨rfl, rfl⟩ := Prod.mk.inj (Option.some.inj hf)
      exact iff_of_true hnil trivial
  | run exchanged =>
    obtain ⟨w, pc⟩ := s
    cases pc with
    | entered =>
      obtain ⟨rfl, rfl⟩ := Prod.mk.inj (Option.some.inj hf)
      simp [Absent, Present, eq_comm]
    | looked p =>
      cases p with
      | none =>
        obtain ⟨rfl, rfl⟩ := Prod.mk.inj (Option.some.inj hf)
        exact iff_of_true hnil trivial
      | some p =>
        simp only [step, run, lockTaskSighand_eq] at hf
        obtain ⟨rfl, rfl⟩ := Prod.mk.inj (Option.some.inj hf)
        simp [Absent, Present, World.task, eq_comm]
    | clearing p ss i =>
      refine iff_of_true ?_ trivial
      simp only [step, run] at hf
      split at hf
      · obtain ⟨rfl, rfl⟩ := Prod.mk.inj (Option.some.inj hf)
        exact hnil
      · split at hf
        · obtain ⟨rfl, rfl⟩ := Prod.mk.inj (Option.some.inj hf)
          exact hnil
        · obtain ⟨rfl, rfl⟩ := Prod.mk.inj (Option.some.inj hf)
          exact hnil
    | unlocked =>
      obtain ⟨rfl, rfl⟩ := Prod.mk.inj (Option.some.inj hf)
      exact iff_of_true hnil trivial
    | returned r => cases hf
    | crashed => cases hf

theorem absent_append : ¬ Absent (es ++ es') ↔ ¬ Absent es ∧ ¬ Absent es' := by
  simp only [Absent, List.mem_append]
  tauto

/-- Nothing was missing exactly if every step has found what it looked for. -/
theorem absent_iff {s₀ : Sys a} (h : Run (step current pid) s₀ as es s) :
    ¬ Absent es ↔ AllSteps (step current pid) s₀ (Present pid) as := by
  induction h with
  | nil => exact iff_of_true (by simp [Absent]) (allSteps_nil _ _ _)
  | @snoc as es s b s' es' hr hf ih =>
    rw [allSteps_snoc, ← ih, absent_append, absent_step hf]
    refine and_congr_right fun _ => ⟨fun hp es₁ s₁ hr₁ => ?_, fun hall => hall _ _ hr⟩
    obtain ⟨rfl, rfl⟩ := hr.det hr₁
    exact hp

theorem Inv.safe (h : Inv w₀ es s) (ha : ¬ Absent es) : Safe w₀ es s := by
  cases h with
  | entered hl hc => exact ⟨by simp, ⟨_, hl, by simp⟩, fun hn => absurd hn ha, by simp⟩
  | looked hl hc => exact ⟨by simp, ⟨_, hl, by simp⟩, fun hn => absurd hn ha, by simp⟩
  | unlockable _ _ _ => exact absurd (Or.inr (by simp)) ha
  | clearing hl _ _ _ => exact ⟨by simp, ⟨_, hl, by simp⟩, fun hn => absurd hn ha, by simp⟩
  | unlocked hl _ => exact ⟨by simp, ⟨_, hl, by simp⟩, fun hn => absurd hn ha, by simp⟩
  | @returned w p d hl hz =>
    refine ⟨by simp, ⟨_, hl, fun _ _ => rfl⟩, fun hn => absurd hn ha, fun d' r hd hr => ?_⟩
    obtain rfl : d' = d := by simpa using hd
    exact ⟨(Pc.returned.inj hr).symm, fun i hi => hz i (Nat.lt_of_lt_of_le hi (by decide))⟩
  | crashed hn => exact absurd hn ha

/-- **`init_sigcounter` is safe exactly if the pid names a task when it looks, and the task
has a `sighand` when it locks.** -/
theorem safe_iff (h : Run (step current pid) ⟨w₀, .entered⟩ as es s) :
    (AllSteps (step current pid) ⟨w₀, .entered⟩ (Present pid) as →
      AllStates (step current pid) ⟨w₀, .entered⟩ (Safe w₀) as) ∧
    ((∃ r, s.pc = .returned r) ∨ s.pc = .crashed →
      (Safe w₀ es s ↔ AllSteps (step current pid) ⟨w₀, .entered⟩ (Present pid) as)) := by
  constructor
  · intro hall p r hp es₁ s₁ hr
    have hpre : AllSteps (step current pid) ⟨w₀, .entered⟩ (Present pid) p :=
      fun p' b r' hp' => hall p' b (r' ++ r) (by simp [hp, hp'])
    exact (inv_of_run hr).safe ((absent_iff hr).mpr hpre)
  · intro hend
    rw [← absent_iff h]
    refine ⟨fun hs ha => ?_, (inv_of_run h).safe⟩
    have hinv := inv_of_run h
    rcases hend with ⟨r, hr⟩ | hcrash
    · cases hinv with
      | returned _ _ => simp [Absent] at ha
      | _ => cases hr
    · exact hs.alive hcrash

end

/-- The call alone, for a process that is there: the lookup, the lock, 66 counters, the
unlock and the return. -/
def whole : List Act := List.replicate 70 (.run [])

/-- The process has been sent five of each signal. -/
def fiveOfEach : World .oneWord := { Counters.oneProcess with counters := fun _ _ => 5 }

/-- Its counters are clear after the call. -/
theorem safe_iff_whole : ∃ es s,
    Run (step 0 7) ⟨fiveOfEach, .entered⟩ whole es s ∧ s.pc = .returned 0 ∧
      s.w.counters 0 2 = 0 ∧ AllStates (step 0 7) ⟨fiveOfEach, .entered⟩ (Safe fiveOfEach) whole := by
  obtain ⟨es, s, hr, hpc, hmem⟩ := exists_run (step 0 7) ⟨fiveOfEach, .entered⟩ whole
    (fun es s => s.pc = .returned 0 ∧ .locked (some 0) ∈ es) (by decide +kernel)
  have hall := (safe_iff hr).1 (allSteps_of_check (by decide +kernel))
  have hsafe := hall whole [] (List.append_nil _).symm es s hr
  exact ⟨es, s, hr, hpc, (hsafe.cleared 0 0 hmem hpc).2 2 (by decide), hall⟩

/-- Two ways to a `NULL` pointer: there is no process 8, and process 7 exits between the
lookup and the lock. -/
theorem crashes :
    (∃ es s, Run (step 0 8) ⟨Counters.oneProcess, .entered⟩ [.run [], .run []] es s ∧
      ¬ Safe Counters.oneProcess es s) ∧
    ∃ es s, Run (step 0 7) ⟨Counters.oneProcess, .entered⟩ [.run [], .exit 0, .run [], .run []] es s ∧
      ¬ Safe Counters.oneProcess es s := by
  constructor
  · obtain ⟨es, s, hr, hpc⟩ := exists_run (step 0 8) ⟨Counters.oneProcess, .entered⟩
      [.run [], .run []] (fun _ s => s.pc = .crashed) (by decide +kernel)
    exact ⟨es, s, hr, fun hs => hs.alive hpc⟩
  · obtain ⟨es, s, hr, hpc⟩ := exists_run (step 0 7) ⟨Counters.oneProcess, .entered⟩
      [.run [], .exit 0, .run [], .run []] (fun _ s => s.pc = .crashed) (by decide +kernel)
    exact ⟨es, s, hr, fun hs => hs.alive hpc⟩

end Exit

end LinuxKerDev.Signals
