import Mathlib.Data.List.Basic
import Mathlib.Tactic

/-!
# Acquire and release logs

A log lists what was acquired and released, in order.  `replay held log` runs it
on the list of what is held, and refuses to acquire what is held already or to
release what is not.  A log is `Balanced` when it can be run from nothing held
and leaves nothing held: whatever it acquires it releases, once, and before it
acquires it again.

`Balanced.append` puts balanced logs one after the other; `Leaves` says what a log that
is not balanced leaves held.
-/

namespace Lib

inductive LockOp (κ : Type*)
  | acquire (l : κ)
  | release (l : κ)
  deriving DecidableEq, Repr

namespace LockOp

variable {κ : Type*} [DecidableEq κ]

def apply (held : List κ) : LockOp κ → Option (List κ)
  | acquire l => if l ∈ held then none else some (l :: held)
  | release l => if l ∈ held then some (held.erase l) else none

def replay : List κ → List (LockOp κ) → Option (List κ)
  | held, [] => some held
  | held, o :: os => (apply held o).bind fun held' => replay held' os

def Balanced (log : List (LockOp κ)) : Prop := replay [] log = some []

instance (log : List (LockOp κ)) : Decidable (Balanced log) := by unfold Balanced; infer_instance

def lock : LockOp κ → κ
  | acquire l => l
  | release l => l

theorem replay_append : ∀ (log : List (LockOp κ)) (held : List κ) (log' : List (LockOp κ)),
    replay held (log ++ log') = (replay held log).bind fun held' => replay held' log' := by
  intro log
  induction log with
  | nil => intro held log'; rfl
  | cons o os ih =>
    intro held log'
    rw [List.cons_append, replay, replay, Option.bind_assoc]
    exact congrArg _ (funext fun held' => ih held' log')

theorem balanced_nil : Balanced ([] : List (LockOp κ)) := rfl

theorem Balanced.append {log log' : List (LockOp κ)} (h : Balanced log) (h' : Balanced log') :
    Balanced (log ++ log') := by
  rw [Balanced, replay_append, h, Option.bind_some, h']

/-! ### What a log leaves held -/

/-- The log runs, and what it leaves held is what `P` says. -/
def Leaves (log : List (LockOp κ)) (P : κ → Prop) : Prop :=
  ∃ held, replay [] log = some held ∧ held.Nodup ∧ ∀ l, l ∈ held ↔ P l

section

variable {log : List (LockOp κ)} {P Q : κ → Prop} {l : κ}

theorem leaves_nil (hP : ∀ l, ¬ P l) : Leaves ([] : List (LockOp κ)) P :=
  ⟨[], rfl, List.nodup_nil, fun l => iff_of_false List.not_mem_nil (hP l)⟩

theorem Leaves.congr (h : Leaves log P) (hPQ : ∀ l, Q l ↔ P l) : Leaves log Q := by
  obtain ⟨held, hr, hn, hm⟩ := h
  exact ⟨held, hr, hn, fun l => (hm l).trans (hPQ l).symm⟩

theorem Leaves.acquire (h : Leaves log P) (hl : ¬ P l) (hQ : ∀ m, Q m ↔ m = l ∨ P m) :
    Leaves (log ++ [.acquire l]) Q := by
  obtain ⟨held, hr, hn, hm⟩ := h
  have hnot : l ∉ held := fun hin => hl ((hm l).mp hin)
  refine ⟨l :: held, ?_, List.nodup_cons.mpr ⟨hnot, hn⟩, fun m => ?_⟩
  · rw [replay_append, hr, Option.bind_some, replay, apply, if_neg hnot]
    rfl
  · rw [List.mem_cons, hm, hQ]

theorem Leaves.release (h : Leaves log P) (hl : P l) (hQ : ∀ m, Q m ↔ m ≠ l ∧ P m) :
    Leaves (log ++ [.release l]) Q := by
  obtain ⟨held, hr, hn, hm⟩ := h
  refine ⟨held.erase l, ?_, hn.erase l, fun m => ?_⟩
  · rw [replay_append, hr, Option.bind_some, replay, apply, if_pos ((hm l).mpr hl)]
    rfl
  · rw [hn.mem_erase_iff, hm, hQ]

/-- **A log that leaves nothing is balanced.** -/
theorem Leaves.balanced (h : Leaves log P) (hP : ∀ l, ¬ P l) : Balanced log := by
  obtain ⟨held, hr, -, hm⟩ := h
  rw [Balanced, hr, List.eq_nil_iff_forall_not_mem.mpr fun l hin => hP l ((hm l).mp hin)]

end

/-- **As many releases as acquisitions**, of every lock. -/
theorem count_of_replay (l : κ) : ∀ (log : List (LockOp κ)) (held held' : List κ),
    replay held log = some held' →
      held.count l + log.count (acquire l) = held'.count l + log.count (release l) := by
  intro log
  induction log with
  | nil =>
    intro held held' h
    obtain rfl := Option.some.inj h
    rfl
  | cons o os ih =>
    intro held held' h
    obtain ⟨mid, ho, h⟩ := Option.bind_eq_some_iff.mp h
    have hrest := ih mid held' h
    cases o with
    | acquire m =>
      rw [apply, Option.ite_none_left_eq_some] at ho
      obtain ⟨-, rfl⟩ := ho.imp_right Option.some.inj
      by_cases hm : m = l
      · subst hm
        simp only [List.count_cons_self, ne_eq, reduceCtorEq, not_false_eq_true,
          List.count_cons_of_ne] at hrest ⊢
        omega
      · simp only [List.count_cons, beq_iff_eq, hm, acquire.injEq, reduceCtorEq, if_false,
          Nat.add_zero] at hrest ⊢
        exact hrest
    | release m =>
      rw [apply, Option.ite_none_right_eq_some] at ho
      obtain ⟨hmem, rfl⟩ := ho.imp_right Option.some.inj
      by_cases hm : m = l
      · subst hm
        have hpos := List.count_pos_iff.mpr hmem
        rw [List.count_erase_self] at hrest
        simp only [List.count_cons, beq_iff_eq, reduceCtorEq, if_false, if_true] at hrest ⊢
        omega
      · rw [List.count_erase_of_ne (Ne.symm hm)] at hrest
        simp only [List.count_cons, beq_iff_eq, hm, release.injEq, reduceCtorEq, if_false,
          Nat.add_zero] at hrest ⊢
        exact hrest

end LockOp

end Lib
