import Mathlib.Data.List.Induction

/-!
# Runs of a step function

A system is a partial step function: under an action a state either refuses
(`none`) or moves on and shows a list of events.  `Run f s₀ as es s` says that
the actions `as`, in this order, take `s₀` to `s`, and that `es` is everything
that was shown on the way.  The function is deterministic, so the actions fix
the state and the events (`Run.det`); all the freedom of an interleaving is in
the choice of the actions.

The induction rules follow.  `Run.inv` is for an invariant that every step
keeps, `Run.inv_using` for one whose step needs a fact that all runs are known
to have.  `Run.inv_of_guard` is for one that is kept only by the steps that
meet a guard; the guard reads the events shown so far, the state and the
action.  `allSteps_iff` is the rule for saying exactly which runs are good:
where the guarded invariant holds, the property of a step and its guard are the
same, so a run has the property at all its steps exactly when it meets the
guard at all of them.  `Run.simulate` is the rule for a simulation by another system.
-/

namespace Lib

variable {σ α ε : Type*}

abbrev Step (σ α ε : Type*) := σ → α → Option (σ × List ε)

inductive Run (f : Step σ α ε) (s₀ : σ) : List α → List ε → σ → Prop
  | nil : Run f s₀ [] [] s₀
  | snoc {as : List α} {es : List ε} {s : σ} {a : α} {s' : σ} {es' : List ε} :
      Run f s₀ as es s → f s a = some (s', es') → Run f s₀ (as ++ [a]) (es ++ es') s'

theorem Run.append {f : Step σ α ε} {s₀ s₁ s₂ : σ} {as bs : List α} {es fs : List ε}
    (h : Run f s₀ as es s₁) (h' : Run f s₁ bs fs s₂) : Run f s₀ (as ++ bs) (es ++ fs) s₂ := by
  induction h' with
  | nil => simpa using h
  | snoc _ hf ih =>
    rw [← List.append_assoc, ← List.append_assoc]
    exact ih.snoc hf

def exec (f : Step σ α ε) : σ → List α → Option (σ × List ε)
  | s, [] => some (s, [])
  | s, a :: as =>
    match f s a with
    | none => none
    | some (s', es) => (exec f s' as).map fun r => (r.1, es ++ r.2)

theorem exec_append (f : Step σ α ε) : ∀ (as : List α) (s : σ) (bs : List α),
    exec f s (as ++ bs) =
      (exec f s as).bind fun r => (exec f r.1 bs).map fun q => (q.1, r.2 ++ q.2) := by
  intro as
  induction as with
  | nil => intro s bs; simp [exec]
  | cons a as ih =>
    intro s bs
    rw [List.cons_append, exec, exec]
    cases f s a with
    | none => rfl
    | some r =>
      simp only [ih, Option.map_bind, Option.bind_map]
      congr 1
      funext q
      simp only [Function.comp_apply, Option.map_map]
      congr 1
      funext q'
      simp

theorem Run.exec_eq {f : Step σ α ε} {s₀ : σ} {as : List α} {es : List ε} {s : σ}
    (h : Run f s₀ as es s) : exec f s₀ as = some (s, es) := by
  induction h with
  | nil => rfl
  | snoc _ hf ih => simp [exec_append, ih, exec, hf]

theorem run_of_exec {f : Step σ α ε} {s₀ : σ} : ∀ {as : List α} {es : List ε} {s : σ},
    exec f s₀ as = some (s, es) → Run f s₀ as es s := by
  intro as
  induction as using List.reverseRecOn with
  | nil =>
    intro es s h
    simp only [exec, Option.some.injEq, Prod.mk.injEq] at h
    obtain ⟨rfl, rfl⟩ := h
    exact .nil
  | append_singleton as a ih =>
    intro es s h
    rw [exec_append] at h
    obtain ⟨⟨s₁, es₁⟩, h₁, h⟩ := Option.bind_eq_some_iff.mp h
    obtain ⟨⟨s₂, es₂⟩, h₂, h⟩ := Option.map_eq_some_iff.mp h
    simp only [Prod.mk.injEq] at h
    obtain ⟨rfl, rfl⟩ := h
    refine .snoc (ih h₁) ?_
    cases hf : f s₁ a with
    | none => simp [exec, hf] at h₂
    | some r =>
      simp only [exec, hf, Option.map_some, List.append_nil, Option.some.injEq,
        Prod.mk.injEq] at h₂
      obtain ⟨rfl, rfl⟩ := h₂
      rfl

/-- A run found by computing it, with a property of where it ends. -/
theorem exists_run (f : Step σ α ε) (s₀ : σ) (as : List α) (P : List ε → σ → Prop)
    [∀ es s, Decidable (P es s)]
    (h : (exec f s₀ as).any (fun r => decide (P r.2 r.1)) = true) :
    ∃ es s, Run f s₀ as es s ∧ P es s := by
  cases he : exec f s₀ as with
  | none => rw [he] at h; cases h
  | some r =>
    rw [he] at h
    exact ⟨r.2, r.1, run_of_exec he, of_decide_eq_true h⟩

theorem exists_run_of_isSome (f : Step σ α ε) (s₀ : σ) (as : List α)
    (h : (exec f s₀ as).isSome = true) : ∃ es s, Run f s₀ as es s := by
  obtain ⟨r, hr⟩ := Option.isSome_iff_exists.mp h
  exact ⟨r.2, r.1, run_of_exec hr⟩

theorem run_single {f : Step σ α ε} {s s' : σ} {a : α} {es : List ε}
    (h : f s a = some (s', es)) : Run f s [a] es s' := by
  exact Run.nil.snoc h

theorem Run.split {f : Step σ α ε} {s₀ : σ} {as : List α} {a : α} {bs : List α} {es : List ε}
    {s : σ} (h : Run f s₀ (as ++ a :: bs) es s) :
    ∃ es₁ s₁ es₂ s₂ es₃, Run f s₀ as es₁ s₁ ∧ f s₁ a = some (s₂, es₂) ∧ Run f s₂ bs es₃ s := by
  have he := h.exec_eq
  rw [exec_append] at he
  obtain ⟨⟨s₁, es₁⟩, h₁, he⟩ := Option.bind_eq_some_iff.mp he
  obtain ⟨⟨s', es'⟩, h', heq⟩ := Option.map_eq_some_iff.mp he
  obtain ⟨rfl, -⟩ := Prod.mk.inj heq
  rw [exec] at h'
  cases hf : f s₁ a with
  | none =>
    rw [hf] at h'
    cases h'
  | some r =>
    rw [hf] at h'
    obtain ⟨⟨s₃, es₃⟩, h₃, heq⟩ := Option.map_eq_some_iff.mp h'
    obtain ⟨rfl, -⟩ := Prod.mk.inj heq
    exact ⟨es₁, s₁, r.2, r.1, es₃, run_of_exec h₁, hf, run_of_exec h₃⟩

/-- **The actions fix the run.** -/
theorem Run.det {f : Step σ α ε} {s₀ : σ} {as : List α} {es es' : List ε} {s s' : σ}
    (h : Run f s₀ as es s) (h' : Run f s₀ as es' s') : es' = es ∧ s' = s := by
  have he := h.exec_eq.symm.trans h'.exec_eq
  simp only [Option.some.injEq, Prod.mk.injEq] at he
  exact ⟨he.2.symm, he.1.symm⟩

theorem Run.head {f : Step σ α ε} {s : σ} {a : α} {as : List α} {es : List ε} {s' : σ}
    (h : Run f s (a :: as) es s') :
    ∃ s₁ es₁ es₂, f s a = some (s₁, es₁) ∧ Run f s₁ as es₂ s' := by
  have h' : Run f s ([] ++ a :: as) es s' := h
  obtain ⟨es₀, s₀, es₁, s₁, es₂, h₀, hf, hr⟩ := h'.split
  obtain ⟨-, rfl⟩ := Run.nil.det h₀
  exact ⟨s₁, es₁, es₂, hf, hr⟩

/-- **An action that lowers a measure is refused in the end.** -/
theorem exists_run_refused (f : Step σ α ε) (a : α) (μ : σ → Nat)
    (hμ : ∀ {s s' es}, f s a = some (s', es) → μ s' < μ s) (s : σ) :
    ∃ n es s', Run f s (List.replicate n a) es s' ∧ f s' a = none := by
  have hall : ∀ m s, μ s ≤ m →
      ∃ n es s', Run f s (List.replicate n a) es s' ∧ f s' a = none := by
    intro m
    induction m with
    | zero =>
      intro s hs
      refine ⟨0, [], s, .nil, ?_⟩
      cases hf : f s a with
      | none => rfl
      | some r =>
        have hlt := hμ hf
        omega
    | succ m ih =>
      intro s hs
      cases hf : f s a with
      | none => exact ⟨0, [], s, .nil, hf⟩
      | some r =>
        have hlt := hμ hf
        obtain ⟨n, es, s', hr, hend⟩ := ih r.1 (by omega)
        exact ⟨n + 1, r.2 ++ es, s', (run_single hf).append hr, hend⟩
  exact hall (μ s) s (Nat.le_refl _)

/-- A property of the steps of a run: `P` is asked of each step, at the events
shown and the state reached before it. -/
def AllSteps (f : Step σ α ε) (s₀ : σ) (P : List ε → σ → α → Prop) (as : List α) : Prop :=
  ∀ p a r, as = p ++ a :: r → ∀ es s, Run f s₀ p es s → P es s a

theorem allSteps_nil (f : Step σ α ε) (s₀ : σ) (P : List ε → σ → α → Prop) :
    AllSteps f s₀ P [] := by
  intro p a r h
  simp at h

theorem allSteps_snoc {f : Step σ α ε} {s₀ : σ} {P : List ε → σ → α → Prop} {as : List α}
    {a : α} : AllSteps f s₀ P (as ++ [a]) ↔
      AllSteps f s₀ P as ∧ ∀ es s, Run f s₀ as es s → P es s a := by
  constructor
  · intro h
    refine ⟨fun p b r hp => h p b (r ++ [a]) (by simp [hp]), fun es s hr => h as a [] rfl es s hr⟩
  · rintro ⟨hall, hlast⟩ p b r hp
    rcases List.eq_nil_or_concat r with rfl | ⟨r', c, rfl⟩
    · obtain ⟨rfl, hb⟩ := List.append_inj' hp rfl
      obtain rfl : a = b := by simpa using hb
      exact hlast
    · have hp' : as ++ [a] = (p ++ b :: r') ++ [c] := by simpa using hp
      exact hall p b r' (List.append_inj' hp' rfl).1

def checkSteps (f : Step σ α ε) (P : List ε → σ → α → Prop) [∀ es s a, Decidable (P es s a)] :
    List ε → σ → List α → Bool
  | _, _, [] => true
  | es, s, a :: as =>
    decide (P es s a) &&
      match f s a with
      | none => true
      | some r => checkSteps f P (es ++ r.2) r.1 as

theorem checkSteps_sound {f : Step σ α ε} {P : List ε → σ → α → Prop}
    [∀ es s a, Decidable (P es s a)] : ∀ (as : List α) (es₀ : List ε) (s₀ : σ),
    checkSteps f P es₀ s₀ as = true → ∀ p a r, as = p ++ a :: r →
      ∀ es s, exec f s₀ p = some (s, es) → P (es₀ ++ es) s a := by
  intro as
  induction as with
  | nil =>
    intro es₀ s₀ _ p a r hp
    simp at hp
  | cons b as ih =>
    intro es₀ s₀ h p a r hp es s he
    rw [checkSteps, Bool.and_eq_true, decide_eq_true_eq] at h
    obtain ⟨hb, h⟩ := h
    cases p with
    | nil =>
      obtain ⟨rfl, -⟩ := List.cons.inj hp
      obtain ⟨rfl, rfl⟩ := Prod.mk.inj (Option.some.inj he)
      rwa [List.append_nil]
    | cons c p =>
      obtain ⟨rfl, hp'⟩ := List.cons.inj hp
      rw [exec] at he
      cases hf : f s₀ b with
      | none =>
        rw [hf] at he
        cases he
      | some r₁ =>
        rw [hf] at h he
        obtain ⟨r₂, hr₂, he⟩ := Option.map_eq_some_iff.mp he
        obtain ⟨rfl, rfl⟩ := Prod.mk.inj he
        rw [← List.append_assoc]
        exact ih _ _ h p a r hp' _ _ hr₂

theorem allSteps_of_check {f : Step σ α ε} {P : List ε → σ → α → Prop}
    [∀ es s a, Decidable (P es s a)] {s₀ : σ} {as : List α} (h : checkSteps f P [] s₀ as = true) :
    AllSteps f s₀ P as := by
  intro p a r hp es s hr
  exact checkSteps_sound as [] s₀ h p a r hp es s hr.exec_eq

theorem checkSteps_complete {f : Step σ α ε} {P : List ε → σ → α → Prop}
    [∀ es s a, Decidable (P es s a)] : ∀ (as : List α) (es₀ : List ε) (s₀ : σ),
    (∀ p a r, as = p ++ a :: r → ∀ es s, exec f s₀ p = some (s, es) → P (es₀ ++ es) s a) →
      checkSteps f P es₀ s₀ as = true := by
  intro as
  induction as with
  | nil => intro es₀ s₀ _; rfl
  | cons b as ih =>
    intro es₀ s₀ h
    have hb : P es₀ s₀ b := by simpa using h [] b as rfl [] s₀ rfl
    rw [checkSteps, Bool.and_eq_true, decide_eq_true_eq]
    refine ⟨hb, ?_⟩
    cases hf : f s₀ b with
    | none => rfl
    | some r₁ =>
      refine ih _ _ fun p a r hp es s he => ?_
      rw [List.append_assoc]
      exact h (b :: p) a r (by rw [hp, List.cons_append]) _ s (by simp [exec, hf, he])

theorem not_allSteps_of_check {f : Step σ α ε} {P : List ε → σ → α → Prop}
    [∀ es s a, Decidable (P es s a)] {s₀ : σ} {as : List α}
    (h : checkSteps f P [] s₀ as = false) : ¬ AllSteps f s₀ P as := by
  intro hall
  have hc := checkSteps_complete as [] s₀ fun p a r hp es s he => hall p a r hp _ s (run_of_exec he)
  rw [h] at hc
  cases hc

theorem allSteps_congr {f : Step σ α ε} {s₀ : σ} {P Q : List ε → σ → α → Prop} {as : List α}
    (h : ∀ {bs es s}, Run f s₀ bs es s → ∀ a, P es s a ↔ Q es s a) :
    AllSteps f s₀ P as ↔ AllSteps f s₀ Q as :=
  ⟨fun hp p a r he es s hr => (h hr a).mp (hp p a r he es s hr),
    fun hq p a r he es s hr => (h hr a).mpr (hq p a r he es s hr)⟩

theorem allSteps_of_forall {f : Step σ α ε} {s₀ : σ} {Q : α → Prop} {as : List α}
    (h : ∀ a ∈ as, Q a) : AllSteps f s₀ (fun _ _ a => Q a) as := by
  rintro p a r rfl es s _
  exact h a (by simp)

theorem Run.allSteps_isSome {f : Step σ α ε} {s₀ : σ} {as : List α} {es : List ε} {s : σ}
    (h : Run f s₀ as es s) : AllSteps f s₀ (fun _ s a => (f s a).isSome = true) as := by
  induction h with
  | nil => exact allSteps_nil _ _ _
  | snoc hr hf ih =>
    refine allSteps_snoc.mpr ⟨ih, fun es₁ s₁ hr₁ => ?_⟩
    obtain ⟨-, rfl⟩ := hr.det hr₁
    rw [hf]
    rfl

theorem allSteps_and {f : Step σ α ε} {s₀ : σ} {P Q : List ε → σ → α → Prop} {as : List α} :
    AllSteps f s₀ (fun es s a => P es s a ∧ Q es s a) as ↔
      AllSteps f s₀ P as ∧ AllSteps f s₀ Q as := by
  constructor
  · intro h
    exact ⟨fun p a r he es s hr => (h p a r he es s hr).1,
      fun p a r he es s hr => (h p a r he es s hr).2⟩
  · rintro ⟨hp, hq⟩ p a r he es s hr
    exact ⟨hp p a r he es s hr, hq p a r he es s hr⟩

/-- A property of the states a run goes through, the first and the last included. -/
def AllStates (f : Step σ α ε) (s₀ : σ) (Q : List ε → σ → Prop) (as : List α) : Prop :=
  ∀ p r, as = p ++ r → ∀ es s, Run f s₀ p es s → Q es s

theorem allStates_iff {f : Step σ α ε} {s₀ : σ} {Q : List ε → σ → Prop} {as : List α} :
    AllStates f s₀ Q as ↔ Q [] s₀ ∧ AllSteps f s₀
      (fun es s a => ∀ s' es', f s a = some (s', es') → Q (es ++ es') s') as := by
  constructor
  · intro h
    refine ⟨h [] as rfl [] s₀ .nil, ?_⟩
    rintro p a r rfl es s hr s' es' hf
    exact h (p ++ [a]) r (by simp) _ _ (hr.snoc hf)
  · rintro ⟨h₀, hs⟩ p r rfl es s hr
    cases hr with
    | nil => exact h₀
    | @snoc p es s a s' es' hr hf => exact hs p a r (by simp) _ _ hr _ _ hf

/-- **Simulation.**  Where every step that meets the guard is matched by a run of `g`, with
the events renamed, so is every run. -/
theorem Run.simulate {σ' α' ε' : Type*} {f : Step σ α ε} (g : Step σ' α' ε') {s₀ : σ}
    (abs : σ → σ') (name : ε → Option ε') {I : σ → Prop} {G : List ε → σ → α → Prop}
    {as : List α} {es : List ε} {s : σ} (h : Run f s₀ as es s) (hg : AllSteps f s₀ G as)
    (h₀ : I s₀) (hstep : ∀ {es s a s' es'}, I s → G es s a → f s a = some (s', es') →
      I s' ∧ ∃ bs, Run g (abs s) bs (es'.filterMap name) (abs s')) :
    I s ∧ ∃ bs, Run g (abs s₀) bs (es.filterMap name) (abs s) := by
  induction h with
  | nil => exact ⟨h₀, [], .nil⟩
  | snoc hr hf ih =>
    obtain ⟨hall, hlast⟩ := allSteps_snoc.mp hg
    obtain ⟨hi, bs, hb⟩ := ih hall
    obtain ⟨hi', cs, hc⟩ := hstep hi (hlast _ _ hr) hf
    refine ⟨hi', bs ++ cs, ?_⟩
    rw [List.filterMap_append]
    exact hb.append hc

section Invariants

variable {f : Step σ α ε} {s₀ : σ} {I : List ε → σ → Prop} {G P : List ε → σ → α → Prop}
  {as : List α} {es : List ε} {s : σ}

/-- **The invariant rule.** -/
theorem Run.inv (h : Run f s₀ as es s) (h₀ : I [] s₀)
    (hstep : ∀ {es s a s' es'}, I es s → f s a = some (s', es') → I (es ++ es') s') : I es s := by
  induction h with
  | nil => exact h₀
  | snoc _ hf ih => exact hstep ih hf

/-- The invariant rule, on top of what is already known of every run. -/
theorem Run.inv_using {K : List ε → σ → Prop} (h : Run f s₀ as es s)
    (hK : ∀ {as es s}, Run f s₀ as es s → K es s) (h₀ : I [] s₀)
    (hstep : ∀ {es s a s' es'}, K es s → I es s → f s a = some (s', es') → I (es ++ es') s') :
    I es s := by
  induction h with
  | nil => exact h₀
  | snoc hr hf ih => exact hstep (hK hr) ih hf

/-- **The invariant rule under a guard.** -/
theorem Run.inv_of_guard (h : Run f s₀ as es s) (hg : AllSteps f s₀ G as) (h₀ : I [] s₀)
    (hstep : ∀ {es s a s' es'}, I es s → G es s a → f s a = some (s', es') → I (es ++ es') s') :
    I es s := by
  induction h with
  | nil => exact h₀
  | snoc hr hf ih =>
    obtain ⟨hall, hlast⟩ := allSteps_snoc.mp hg
    exact hstep (ih hall) (hlast _ _ hr) hf

/-- **Guarded runs have the property**, when it follows from the invariant and the
guard. -/
theorem allSteps_of_guard (hg : AllSteps f s₀ G as) (h₀ : I [] s₀)
    (hstep : ∀ {es s a s' es'}, I es s → G es s a → f s a = some (s', es') → I (es ++ es') s')
    (hP : ∀ {es s a}, I es s → G es s a → P es s a) : AllSteps f s₀ P as := by
  intro p a r he es s hr
  have hp : AllSteps f s₀ G p := fun p' b r' hp' => hg p' b (r' ++ a :: r) (by simp [he, hp'])
  exact hP (hr.inv_of_guard hp h₀ hstep) (hg p a r he es s hr)

theorem allStates_of_guard {Q : List ε → σ → Prop} (hg : AllSteps f s₀ G as) (h₀ : I [] s₀)
    (hstep : ∀ {es s a s' es'}, I es s → G es s a → f s a = some (s', es') → I (es ++ es') s')
    (hQ : ∀ {es s}, I es s → Q es s) : AllStates f s₀ Q as := by
  intro p r he es s hr
  have hp : AllSteps f s₀ G p := fun p' b r' hp' => hg p' b (r' ++ r) (by simp [he, hp'])
  exact hQ (hr.inv_of_guard hp h₀ hstep)

/-- **Exactly the guarded runs have the property.**  `I` is what a run that has
met the guard so far still knows. -/
theorem allSteps_iff (h : Run f s₀ as es s) (h₀ : I [] s₀)
    (hstep : ∀ {es s a s' es'}, I es s → G es s a → f s a = some (s', es') → I (es ++ es') s')
    (hiff : ∀ {es s a s' es'}, I es s → f s a = some (s', es') → (P es s a ↔ G es s a)) :
    AllSteps f s₀ P as ↔ AllSteps f s₀ G as := by
  induction h with
  | nil => exact iff_of_true (allSteps_nil _ _ _) (allSteps_nil _ _ _)
  | @snoc as es s a s' es' hr hf ih =>
    rw [allSteps_snoc, allSteps_snoc, ih]
    refine and_congr_right fun hall => ?_
    -- the steps before this one met the guard, so the invariant holds here
    have hI : I es s := hr.inv_of_guard hall h₀ hstep
    constructor
    · intro hP es₁ s₁ hr₁
      obtain ⟨rfl, rfl⟩ := hr.det hr₁
      exact (hiff hI hf).mp (hP _ _ hr)
    · intro hG es₁ s₁ hr₁
      obtain ⟨rfl, rfl⟩ := hr.det hr₁
      exact (hiff hI hf).mpr (hG _ _ hr)

end Invariants

end Lib
