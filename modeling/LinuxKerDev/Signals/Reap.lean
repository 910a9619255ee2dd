import LinuxKerDev.Lib.Run
import LinuxKerDev.Signals.Smunch

/-!
# Calls of `smunch` at the same time

Any number of calls run on one pid, each a step at a time: the lookup, the locked
check, the unlock and `release_task`.  Nobody else touches the target.  `alone`
says that a call with the machine to itself is `smunch`.

What a call has decided under the lock it does after the lock is gone, and it
leaves no mark in the task.  So two calls may both decide to release one zombie.
`released_once` says that this is the only way it is released twice.
-/

namespace LinuxKerDev.Signals

open Lib

variable {a : Arch} {τ : Type*}

inductive Pc
  | entered
  | found (t : Nat)
  | locked (t : Nat) (verdict : Verdict)
  /-- unlocked, with the release still to come -/
  | unlocked (t : Nat)
  | returned (result : Int)
  deriving DecidableEq, Repr

/-- `held` are the `sighand`s whose lock is taken. -/
structure Conc (τ : Type*) (a : Arch) where
  kernel : Kernel a
  held : Nat → Bool
  pc : τ → Pc

namespace Conc

def init (k : Kernel a) : Conc τ a := ⟨k, fun _ => false, fun _ => .entered⟩

def goto [DecidableEq τ] (s : Conc τ a) (k : Kernel a) (c : τ) (pc : Pc) : Conc τ a :=
  { s with kernel := k, pc := Function.update s.pc c pc }

def setHeld (s : Conc τ a) (t : Nat) (b : Bool) : Conc τ a :=
  match (s.kernel.task t).sighand with
  | none => s
  | some sighand => { s with held := Function.update s.held sighand b }

end Conc

theorem Conc.setHeld_pc (s : Conc τ a) (t : Nat) (b : Bool) : (s.setHeld t b).pc = s.pc := by
  rw [setHeld]
  split <;> rfl

variable [DecidableEq τ]

@[simp] theorem Conc.goto_kernel (s : Conc τ a) (k : Kernel a) (c : τ) (pc : Pc) :
    (s.goto k c pc).kernel = k := rfl

@[simp] theorem Conc.goto_pc (s : Conc τ a) (k : Kernel a) (c : τ) (pc : Pc) :
    (s.goto k c pc).pc = Function.update s.pc c pc := rfl

/-- Where a call goes when it has unlocked. -/
def Verdict.after (t : Nat) : Verdict → Pc
  | refused => .returned (-1)
  | reap => .unlocked t
  | handled => .returned 0

def smunchStep (ignored : Task a → BitVec 64 → Bool) (x : Extern a) (pid : Int)
    (bitPattern : τ → BitVec 64) : Step (Conc τ a) τ Nat := fun s c =>
  match s.pc c with
  | .entered =>
    match lookup s.kernel pid with
    | (k, none) => some (s.goto k c (.returned (-1)), [])
    | (k, some t) => some (s.goto k c (.found t), [])
  | .found t =>
    -- another call has the lock: spin
    if (s.kernel.task t).sighand.any s.held = true then none
    else
      match check ignored x [] s.kernel t (bitPattern c) with
      | (k, none) => some (s.goto k c (.returned (-1)), [])
      | (k, some verdict) => some ((s.setHeld t true).goto k c (.locked t verdict), [])
  | .locked t verdict =>
    -- the unlock follows `t->sighand`
    if (s.kernel.task t).sighand = none then none
    else some ((s.setHeld t false).goto (unlockTaskSighand s.kernel t) c (verdict.after t), [])
  | .unlocked t => some (s.goto (x.releaseTask s.kernel t) c (.returned 0), [t])
  | .returned _ => none

section

variable {ignored : Task a → BitVec 64 → Bool} {x : Extern a} {pid : Int}
  {bitPattern : τ → BitVec 64}

/-- What a step does, by where the call is. -/
inductive StepCase (ignored : Task a → BitVec 64 → Bool) (x : Extern a) (pid : Int)
    (bitPattern : τ → BitVec 64) (s : Conc τ a) (c : τ) (s' : Conc τ a) : List Nat → Prop
  | absent : s.pc c = .entered → s.kernel.pids pid = none → s.kernel.SameTasks s'.kernel →
      s'.pc = Function.update s.pc c (.returned (-1)) →
      StepCase ignored x pid bitPattern s c s' []
  | found (t : Nat) : s.pc c = .entered → s.kernel.pids pid = some t →
      s.kernel.SameTasks s'.kernel → s'.pc = Function.update s.pc c (.found t) →
      StepCase ignored x pid bitPattern s c s' []
  | gone (t : Nat) : s.pc c = .found t → s.kernel.SameTasks s'.kernel →
      s'.pc = Function.update s.pc c (.returned (-1)) →
      StepCase ignored x pid bitPattern s c s' []
  | locked (t : Nat) : s.pc c = .found t → (s.kernel.task t).sighand ≠ none →
      s'.kernel.pids = s.kernel.pids →
      s'.kernel.task = Function.update s.kernel.task t
        (branch ignored x (s.kernel.task t) (bitPattern c)).2.1 →
      s'.pc = Function.update s.pc c
        (.locked t (branch ignored x (s.kernel.task t) (bitPattern c)).2.2) →
      StepCase ignored x pid bitPattern s c s' []
  | unlocked (t : Nat) (verdict : Verdict) : s.pc c = .locked t verdict →
      s.kernel.SameTasks s'.kernel → s'.pc = Function.update s.pc c (verdict.after t) →
      StepCase ignored x pid bitPattern s c s' []
  | released (t : Nat) : s.pc c = .unlocked t → s'.kernel = x.releaseTask s.kernel t →
      s'.pc = Function.update s.pc c (.returned 0) →
      StepCase ignored x pid bitPattern s c s' [t]

theorem step_case {s s' : Conc τ a} {c : τ} {es : List Nat}
    (h : smunchStep ignored x pid bitPattern s c = some (s', es)) :
    StepCase ignored x pid bitPattern s c s' es := by
  rw [smunchStep] at h
  split at h
  · next hpc =>
    cases hp : s.kernel.pids pid with
    | none =>
      obtain ⟨k₁, hl, hsame, -⟩ := lookup_none hp
      simp only [hl, Option.some.injEq, Prod.mk.injEq] at h
      obtain ⟨rfl, rfl⟩ := h
      exact .absent hpc hp hsame rfl
    | some t =>
      obtain ⟨k₁, hl, hsame, -⟩ := lookup_some hp
      simp only [hl, Option.some.injEq, Prod.mk.injEq] at h
      obtain ⟨rfl, rfl⟩ := h
      exact .found t hpc hp hsame rfl
  · next t hpc =>
    obtain ⟨-, h⟩ := Option.ite_none_left_eq_some.mp h
    cases hs : (s.kernel.task t).sighand with
    | none =>
      obtain ⟨k₁, hc, hsame, -⟩ := check_none ignored x [] (bitPattern c) hs
      simp only [hc, Option.some.injEq, Prod.mk.injEq] at h
      obtain ⟨rfl, rfl⟩ := h
      exact .gone t hpc hsame rfl
    | some sighand =>
      obtain ⟨k₁, hc, hpids, htask, -⟩ := check_some ignored x [] (bitPattern c) hs
      simp only [hc, Option.some.injEq, Prod.mk.injEq] at h
      obtain ⟨rfl, rfl⟩ := h
      refine .locked t hpc (by rw [hs]; exact Option.some_ne_none _) hpids htask ?_
      rw [Conc.goto_pc, Conc.setHeld_pc]
  · next t verdict hpc =>
    obtain ⟨hs, h⟩ := Option.ite_none_left_eq_some.mp h
    obtain ⟨sighand, hs⟩ := Option.ne_none_iff_exists'.mp hs
    obtain ⟨rfl, rfl⟩ := Prod.mk.inj (Option.some.inj h)
    refine .unlocked t verdict hpc ?_ ?_
    · rw [Conc.goto_kernel, unlockTaskSighand_eq s.kernel t hs]
      exact ⟨rfl, rfl⟩
    · rw [Conc.goto_pc, Conc.setHeld_pc]
  · next t hpc =>
    obtain ⟨rfl, rfl⟩ := Prod.mk.inj (Option.some.inj h)
    exact .released t hpc rfl rfl
  · cases h

end

/-! ### A call alone -/

/-- **A call with the machine to itself is `smunch`.** -/
theorem alone (ignored : Task a → BitVec 64 → Bool) (x : Extern a) (k : Kernel a) (pid : Int)
    (bitPattern : τ → BitVec 64) (c : τ) :
    ∃ n released s,
      Run (smunchStep ignored x pid bitPattern) (Conc.init k) (List.replicate n c) released s ∧
        s.pc c = .returned (smunchOf ignored x [] k pid (bitPattern c)).2 ∧
        s.kernel = (smunchOf ignored x [] k pid (bitPattern c)).1 := by
  cases hp : k.pids pid with
  | none =>
    obtain ⟨k₁, hl, -, -⟩ := lookup_none hp
    have h₁ : smunchStep ignored x pid bitPattern (Conc.init k) c =
        some ((Conc.init k).goto k₁ c (.returned (-1)), []) := by
      simp only [smunchStep, Conc.init, hl]
    refine ⟨1, _, _, Run.nil.snoc h₁, ?_, ?_⟩
    · rw [smunchOf, hl, Conc.goto_pc, Function.update_self]
    · rw [smunchOf, hl, Conc.goto_kernel]
  | some t =>
    obtain ⟨k₁, hl, hsame, -⟩ := lookup_some hp
    set s₁ := (Conc.init k : Conc τ a).goto k₁ c (.found t)
    have h₁ : smunchStep ignored x pid bitPattern (Conc.init k) c = some (s₁, []) := by
      simp only [smunchStep, Conc.init, hl]
      rfl
    have hpc₁ : s₁.pc c = .found t := Function.update_self _ _ _
    have hfree : (s₁.kernel.task t).sighand.any s₁.held = false := by
      cases (s₁.kernel.task t).sighand <;> rfl
    cases hs : (k₁.task t).sighand with
    | none =>
      obtain ⟨k₂, hc, -, -⟩ := check_none ignored x [] (bitPattern c) hs
      have h₂ : smunchStep ignored x pid bitPattern s₁ c =
          some (s₁.goto k₂ c (.returned (-1)), []) := by
        simp only [smunchStep, hpc₁, hfree]
        rw [show s₁.kernel = k₁ from rfl, hc]
        rfl
      refine ⟨2, _, _, (Run.nil.snoc h₁).snoc h₂, ?_, ?_⟩
      · rw [smunchOf, hl, Conc.goto_pc, Function.update_self]
        simp only [hc]
      · rw [smunchOf, hl, Conc.goto_kernel]
        simp only [hc]
    | some sighand =>
      obtain ⟨k₂, hc, -, htask, -⟩ := check_some ignored x [] (bitPattern c) hs
      have hs₂ : (k₂.task t).sighand = some sighand := by
        rw [htask, Function.update_self, branch_sighand, hs]
      generalize (branch ignored x (k₁.task t) (bitPattern c)).2.2 = verdict at hc
      set s₂ := (s₁.setHeld t true).goto k₂ c (.locked t verdict)
      have h₂ : smunchStep ignored x pid bitPattern s₁ c = some (s₂, []) := by
        simp only [smunchStep, hpc₁, hfree]
        rw [show s₁.kernel = k₁ from rfl, hc]
        rfl
      have hpc₂ : s₂.pc c = .locked t verdict := Function.update_self _ _ _
      set s₃ := (s₂.setHeld t false).goto (unlockTaskSighand k₂ t) c (verdict.after t)
      have h₃ : smunchStep ignored x pid bitPattern s₂ c = some (s₃, []) := by
        simp only [smunchStep, hpc₂]
        rw [show s₂.kernel = k₂ from rfl, if_neg (by rw [hs₂]; exact Option.some_ne_none _)]
      have hpc₃ : s₃.pc c = verdict.after t := Function.update_self _ _ _
      have hrun := ((Run.nil.snoc h₁).snoc h₂).snoc h₃
      rw [smunchOf, hl]
      simp only [hc]
      cases verdict with
      | refused => exact ⟨3, _, s₃, hrun, hpc₃, rfl⟩
      | handled => exact ⟨3, _, s₃, hrun, hpc₃, rfl⟩
      | reap =>
        have h₄ : smunchStep ignored x pid bitPattern s₃ c =
            some (s₃.goto (x.releaseTask s₃.kernel t) c (.returned 0), [t]) := by
          simp only [smunchStep, hpc₃, Verdict.after]
        exact ⟨4, _, _, hrun.snoc h₄, Function.update_self _ _ _, rfl⟩

/-! ### One release -/

namespace Pc

def target : Pc → Option Nat
  | found t | locked t _ | unlocked t => some t
  | entered | returned _ => none

/-- The call has decided to release the target, and has yet to do it. -/
def reaping : Pc → Bool
  | locked _ .reap | unlocked _ => true
  | _ => false

end Pc

theorem Verdict.after_target {t u : Nat} {v : Verdict} (h : (v.after t).target = some u) :
    u = t := by
  cases v with
  | refused => cases h
  | reap => exact (Option.some.inj h).symm
  | handled => cases h

theorem Verdict.after_reaping {t : Nat} {v : Verdict} (h : (v.after t).reaping = true) :
    (Pc.locked t v).reaping = true := by
  cases v with
  | refused => cases h
  | reap => rfl
  | handled => cases h

/-- No call makes its check while another one has decided to release the target and
has yet to do it. -/
def NoneReaping (_ : List Nat) (s : Conc τ a) (c : τ) : Prop :=
  ∀ t, s.pc c = .found t → ∀ c', (s.pc c').reaping = false

/-- `es` are the releases so far. -/
structure ReapInv (pid : Int) (t : Nat) (es : List Nat) (s : Conc τ a) : Prop where
  pids : ∀ u, s.kernel.pids pid = some u → u = t
  target : ∀ c u, (s.pc c).target = some u → u = t
  gone : es ≠ [] → (s.kernel.task t).sighand = none
  one : ∀ c c', (s.pc c).reaping = true → (s.pc c').reaping = true → c = c'
  first : ∀ c, (s.pc c).reaping = true → es = []
  once : es.length ≤ 1

namespace ReapInv

variable {pid : Int} {t : Nat} {es : List Nat} {s s' : Conc τ a} {c : τ} {pc : Pc}

omit [DecidableEq τ] in
theorem init {k : Kernel a} (h : k.pids pid = some t) :
    ReapInv pid t [] (Conc.init k : Conc τ a) where
  pids _ hu := Option.some.inj (hu.symm.trans h)
  target _ _ h := nomatch h
  gone h := absurd rfl h
  one _ _ h := nomatch h
  first _ _ := rfl
  once := Nat.zero_le 1

theorem move (h : ReapInv pid t es s) (hpids : s'.kernel.pids = s.kernel.pids)
    (hsighand : (s'.kernel.task t).sighand = (s.kernel.task t).sighand)
    (hpc : s'.pc = Function.update s.pc c pc) (htarget : ∀ u, pc.target = some u → u = t)
    (hreap : pc.reaping = true →
      (s.pc c).reaping = true ∨ (∀ c', (s.pc c').reaping = false) ∧ es = []) :
    ReapInv pid t (es ++ []) s' := by
  rw [List.append_nil]
  -- whoever is reaping now was, unless it is `c` that has begun
  have was : ∀ {c'}, (s'.pc c').reaping = true →
      (s.pc c').reaping = true ∨ c' = c ∧ (∀ c', (s.pc c').reaping = false) ∧ es = [] := by
    intro c' hc'
    rw [hpc] at hc'
    by_cases hcc : c' = c
    · subst hcc
      rw [Function.update_self] at hc'
      exact (hreap hc').imp_right fun hno => ⟨rfl, hno⟩
    · rw [Function.update_of_ne hcc] at hc'
      exact Or.inl hc'
  refine ⟨?_, ?_, ?_, ?_, ?_, h.once⟩
  · rw [hpids]
    exact h.pids
  · intro c' u hu
    rw [hpc] at hu
    by_cases hcc : c' = c
    · subst hcc
      rw [Function.update_self] at hu
      exact htarget u hu
    · rw [Function.update_of_ne hcc] at hu
      exact h.target c' u hu
  · rw [hsighand]
    exact h.gone
  · intro c₁ c₂ h₁ h₂
    rcases was h₁ with h₁ | ⟨rfl, hno, -⟩
    · rcases was h₂ with h₂ | ⟨rfl, hno, -⟩
      · exact h.one c₁ c₂ h₁ h₂
      · rw [hno c₁] at h₁
        cases h₁
    · rcases was h₂ with h₂ | ⟨rfl, -, -⟩
      · rw [hno c₂] at h₂
        cases h₂
      · rfl
  · intro c' hc'
    rcases was hc' with hc' | ⟨-, -, hes⟩
    · exact h.first c' hc'
    · exact hes

theorem release (h : ReapInv pid t es s) (x : Extern a) {u : Nat} (hu : s.pc c = .unlocked u)
    (hk : s'.kernel = x.releaseTask s.kernel u)
    (hpc : s'.pc = Function.update s.pc c (.returned 0)) : ReapInv pid t (es ++ [u]) s' := by
  obtain rfl : u = t := h.target c u (by rw [hu]; rfl)
  have hc : (s.pc c).reaping = true := by rw [hu]; rfl
  have none : ∀ c', (s'.pc c').reaping = false := by
    intro c'
    rw [hpc]
    by_cases hcc : c' = c
    · rw [hcc, Function.update_self]
      rfl
    · rw [Function.update_of_ne hcc, ← Bool.not_eq_true]
      exact fun hc' => hcc (h.one c' c hc' hc)
  rw [h.first c hc]
  refine ⟨fun v hv => ?_, fun c' v hv => ?_, fun _ => ?_, fun c' _ hc' => ?_, fun c' hc' => ?_,
    Nat.le_refl 1⟩
  · rw [hk, x.releaseTask_pids] at hv
    exact h.pids v (Option.ite_none_left_eq_some.mp hv).2
  · rw [hpc] at hv
    by_cases hcc : c' = c
    · rw [hcc, Function.update_self] at hv
      cases hv
    · rw [Function.update_of_ne hcc] at hv
      exact h.target c' v hv
  · rw [hk]
    exact x.releaseTask_sighand s.kernel u
  · rw [none c'] at hc'
    cases hc'
  · rw [none c'] at hc'
    cases hc'

/-- A step keeps the invariant, if it is no check while another call is reaping. -/
theorem step {ignored : Task a → BitVec 64 → Bool} {x : Extern a} {bitPattern : τ → BitVec 64}
    {es' : List Nat} (h : ReapInv pid t es s) (hguard : NoneReaping es s c)
    (hs : smunchStep ignored x pid bitPattern s c = some (s', es')) :
    ReapInv pid t (es ++ es') s' := by
  cases step_case hs with
  | absent _ _ hsame hpc =>
    exact h.move hsame.1 (by rw [hsame.2]) hpc (fun _ hu => nomatch hu) (fun hr => nomatch hr)
  | found u _ hp hsame hpc =>
    obtain rfl : u = t := h.pids u hp
    exact h.move hsame.1 (by rw [hsame.2]) hpc (fun _ hu => (Option.some.inj hu).symm)
      (fun hr => nomatch hr)
  | gone _ _ hsame hpc =>
    exact h.move hsame.1 (by rw [hsame.2]) hpc (fun _ hu => nomatch hu) (fun hr => nomatch hr)
  | locked u hfound hsig hpids htask hpc =>
    obtain rfl : u = t := h.target c u (by rw [hfound]; rfl)
    refine h.move hpids ?_ hpc (fun _ hu => (Option.some.inj hu).symm) fun _ => Or.inr ?_
    · rw [htask, Function.update_self, branch_sighand]
    · refine ⟨hguard u hfound, ?_⟩
      by_contra hes
      exact hsig (h.gone hes)
  | unlocked u verdict hlocked hsame hpc =>
    obtain rfl : u = t := h.target c u (by rw [hlocked]; rfl)
    refine h.move hsame.1 (by rw [hsame.2]) hpc (fun _ hu => Verdict.after_target hu) fun hr => ?_
    rw [hlocked]
    exact Or.inl (Verdict.after_reaping hr)
  | released u hu hk hpc => exact h.release x hu hk hpc

end ReapInv

/-- **The target is released at most once**, in every run in which no call makes its
check while another one has decided to release the target and has yet to do it. -/
theorem released_once (x : Extern a) {k : Kernel a} {pid : Int} {t : Nat}
    (hfound : k.pids pid = some t) (bitPattern : τ → BitVec 64) {calls : List τ}
    {released : List Nat} {s : Conc τ a}
    (hrun : Run (smunchStep RW.ignored x pid bitPattern) (Conc.init k) calls released s)
    (hguard : AllSteps (smunchStep RW.ignored x pid bitPattern) (Conc.init k) NoneReaping calls) :
    released.count t ≤ 1 := by
  have hinv : ReapInv pid t released s :=
    hrun.inv_of_guard hguard (ReapInv.init hfound) fun h hg hs => h.step hg hs
  exact le_trans List.count_le_length hinv.once

instance (es : List Nat) (s : Conc Bool a) (c : Bool) : Decidable (NoneReaping es s c) :=
  match hpc : s.pc c with
  | .found t =>
    decidable_of_iff (∀ c', (s.pc c').reaping = false)
      ⟨fun h _ _ => h, fun h => h t hpc⟩
  | .entered | .locked _ _ | .unlocked _ | .returned _ =>
    isTrue fun t ht => by rw [hpc] at ht; cases ht

/-- Two calls find the zombie, and the second is too late for the lock. -/
theorem released_once_bothFound :
    ∃ released s, Run (smunchStep RW.ignored (Extern.simplest .oneWord) 7 fun _ : Bool => 256)
      (Conc.init (oneTask (zombie .oneWord)))
      [true, false, true, true, true, false] released s ∧ released.count 0 ≤ 1 := by
  obtain ⟨released, s, hrun⟩ := exists_run_of_isSome
    (smunchStep RW.ignored (Extern.simplest .oneWord) 7 fun _ : Bool => 256)
    (Conc.init (oneTask (zombie .oneWord))) [true, false, true, true, true, false] (by decide)
  exact ⟨released, s, hrun,
    released_once (Extern.simplest .oneWord) rfl _ hrun (allSteps_of_check (by decide))⟩

/-- Two calls with `SIGKILL` both pass the check, one after the other, before either
releases the zombie: both do. -/
theorem zombie_released_twice :
    ∃ released s, Run (smunchStep RW.ignored (Extern.simplest .oneWord) 7 fun _ : Bool => 256)
      (Conc.init (oneTask (zombie .oneWord)))
      [true, false, true, true, false, false, true, false] released s ∧
        released.count 0 = 2 :=
  exists_run _ _ _ (fun released _ => released.count 0 = 2) (by decide)

end LinuxKerDev.Signals
