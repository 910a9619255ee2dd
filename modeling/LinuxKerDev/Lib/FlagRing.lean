import Mathlib.Data.ZMod.Defs
import Mathlib.Logic.Function.Basic
import Mathlib.Tactic

/-!
# A ring of slots with dirty bits, and the queue it stands for

A ring has `N` slots.  Each slot carries a value and a dirty bit; `fill` is the
slot the next request goes to and `drain` the slot of the oldest one.  Full and
empty rings have `fill = drain` alike, and only the dirty bit tells them apart.

`Represents r q` says which queue a ring stands for: the slots at distance less
than `q.length` from `drain` are dirty and hold the entries of `q` in order,
no other slot is dirty, and `fill` is `q.length` slots after `drain`.  Everything
is said by the distance from `drain` (`offset`), so wrap-around never shows.
`Represents.push` and `Represents.pop` are the two operations, and
`Represents.fill_eq_drain_iff` with `Represents.full_fill_iff` say what the
indices and the dirty bit tell about the queue.

The queue itself is bounded: `QOp.replay cap` runs a list of appends and
removals, and refuses an append to a full queue and a removal from an empty
one.  `QOp.replay_eq` reads the queue off the history.
-/

namespace Lib

/-! ### The bounded queue -/

inductive QOp (α : Type*)
  | enq (a : α)
  | deq
  deriving DecidableEq, Repr

namespace QOp

variable {α : Type*}

def apply (cap : Nat) : List α → QOp α → Option (List α)
  | q, enq a => if q.length < cap then some (q ++ [a]) else none
  | [], deq => none
  | _ :: q, deq => some q

def replay (cap : Nat) : List α → List (QOp α) → Option (List α)
  | q, [] => some q
  | q, o :: os => (apply cap q o).bind fun q' => replay cap q' os

def enqs : List (QOp α) → List α
  | [] => []
  | enq a :: os => a :: enqs os
  | deq :: os => enqs os

/-- How many entries were removed. -/
def deqs : List (QOp α) → Nat
  | [] => 0
  | enq _ :: os => deqs os
  | deq :: os => deqs os + 1

@[simp] theorem enqs_append : ∀ os os' : List (QOp α), enqs (os ++ os') = enqs os ++ enqs os'
  | [], _ => rfl
  | enq a :: os, os' => congrArg (a :: ·) (enqs_append os os')
  | deq :: os, os' => enqs_append os os'

@[simp] theorem deqs_append : ∀ os os' : List (QOp α), deqs (os ++ os') = deqs os + deqs os'
  | [], _ => (Nat.zero_add _).symm
  | enq _ :: os, os' => deqs_append os os'
  | deq :: os, os' => by simp only [List.cons_append, deqs, deqs_append os os']; omega

theorem replay_append (cap : Nat) : ∀ (os : List (QOp α)) (q : List α) (os' : List (QOp α)),
    replay cap q (os ++ os') = (replay cap q os).bind fun q' => replay cap q' os' := by
  intro os
  induction os with
  | nil => intro q os'; rfl
  | cons o os ih =>
    intro q os'
    rw [List.cons_append, replay, replay, Option.bind_assoc]
    exact congrArg _ (funext fun q' => ih q' os')

/-- **A queue is what was appended less what was removed.** -/
theorem replay_eq {cap : Nat} : ∀ {os : List (QOp α)} {q q' : List α},
    replay cap q os = some q' →
      deqs os ≤ q.length + (enqs os).length ∧ q' = (q ++ enqs os).drop (deqs os) := by
  intro os
  induction os with
  | nil =>
    intro q q' h
    obtain rfl : q = q' := by simpa [replay] using h
    simp [deqs, enqs]
  | cons o os ih =>
    intro q q' h
    obtain ⟨q₁, h₁, h⟩ := Option.bind_eq_some_iff.mp h
    obtain ⟨hle, rfl⟩ := ih h
    cases o with
    | enq a =>
      simp only [apply, Option.ite_none_right_eq_some, Option.some.injEq] at h₁
      obtain ⟨-, rfl⟩ := h₁
      simp only [List.length_append, List.length_singleton] at hle
      exact ⟨by simp only [deqs, enqs, List.length_cons]; omega, by simp [deqs, enqs]⟩
    | deq =>
      cases q with
      | nil => simp [apply] at h₁
      | cons x q =>
        obtain rfl : q = q₁ := by simpa [apply] using h₁
        exact ⟨by simp only [deqs, enqs, List.length_cons]; omega, by simp [deqs, enqs]⟩

theorem replay_enq {cap : Nat} {q q' : List α} {a : α} :
    replay cap q [enq a] = some q' ↔ q.length < cap ∧ q ++ [a] = q' := by
  by_cases h : q.length < cap <;> simp [replay, apply, h]

theorem replay_deq {cap : Nat} {q q' : List α} :
    replay cap q [deq] = some q' ↔ ∃ x, q = x :: q' := by
  cases q <;> simp [replay, apply, eq_comm]

end QOp

/-! ### Distances on the ring -/

variable {N : Nat}

def offset (d i : Fin N) : Nat := (i - d).val

theorem offset_lt (d i : Fin N) : offset d i < N := (i - d).isLt

variable [NeZero N]

@[simp] theorem offset_self (d : Fin N) : offset d d = 0 := by simp [offset]

theorem offset_inj (d : Fin N) {i j : Fin N} : offset d i = offset d j ↔ i = j := by
  rw [offset, offset, Fin.val_inj, sub_left_inj]

theorem offset_eq_zero {d i : Fin N} : offset d i = 0 ↔ i = d := by
  rw [← offset_self d, offset_inj]

theorem offset_add_one (d i : Fin N) : offset d (i + 1) = (offset d i + 1) % N := by
  rw [offset, offset, add_sub_right_comm, Fin.val_add, Fin.val_one', Nat.add_mod_mod]

/-- Seen from one slot on, the distances are one less, and the slot left behind
is the furthest. -/
theorem offset_from_succ (d i : Fin N) :
    offset (d + 1) i = if i = d then N - 1 else offset d i - 1 := by
  have h : (offset (d + 1) i + 1) % N = offset d i := by
    rw [← offset_add_one, offset, offset, add_sub_add_right_eq_sub]
  have hlt := offset_lt (d + 1) i
  split
  · next he =>
    subst he
    rw [offset_self] at h
    have := Nat.le_of_dvd (Nat.succ_pos _) (Nat.dvd_of_mod_eq_zero h)
    omega
  · next hne =>
    have h0 : offset d i ≠ 0 := fun h0 => hne (offset_eq_zero.mp h0)
    have hN : offset (d + 1) i + 1 ≠ N := fun hN => h0 (by rw [← h, hN, Nat.mod_self])
    rw [Nat.mod_eq_of_lt (by omega)] at h
    omega

theorem offset_add_ofNat (d : Fin N) (j : Nat) : offset d (d + Fin.ofNat N j) = j % N := by
  rw [offset, add_sub_cancel_left]
  rfl

theorem ofNat_add (m n : Nat) : Fin.ofNat N (m + n) = Fin.ofNat N m + Fin.ofNat N n := by
  apply Fin.ext
  rw [Fin.val_add, Fin.val_ofNat, Fin.val_ofNat, Fin.val_ofNat, Nat.add_mod]

theorem ofNat_succ (n : Nat) : Fin.ofNat N n + 1 = Fin.ofNat N (n + 1) := by
  rw [ofNat_add]
  rfl

/-! ### The ring -/

structure FlagRing (N : Nat) (α : Type*) where
  fill : Fin N
  drain : Fin N
  full : Fin N → Bool
  val : Fin N → α

namespace FlagRing

variable {α : Type*}

/-- Store `x` at `fill`, mark the slot dirty and advance. -/
def push (r : FlagRing N α) (x : α) : FlagRing N α where
  fill := r.fill + 1
  drain := r.drain
  full := Function.update r.full r.fill true
  val := Function.update r.val r.fill x

/-- Clean the slot at `drain` and advance. -/
def pop (r : FlagRing N α) : FlagRing N α :=
  { r with full := Function.update r.full r.drain false, drain := r.drain + 1 }

structure Represents (r : FlagRing N α) (q : List α) : Prop where
  length_le : q.length ≤ N
  offset_fill : offset r.drain r.fill = q.length % N
  full_iff : ∀ i, r.full i = true ↔ offset r.drain i < q.length
  val_eq : ∀ i, offset r.drain i < q.length → q[offset r.drain i]? = some (r.val i)

namespace Represents

variable {r : FlagRing N α} {q : List α}

theorem nil (hfd : r.fill = r.drain) (hfull : ∀ i, r.full i = false) : Represents r [] where
  length_le := Nat.zero_le _
  offset_fill := by rw [hfd, offset_self]; rfl
  full_iff i := by simp [hfull i]
  val_eq i hi := absurd hi (Nat.not_lt_zero _)

/-- **Equal indices mean empty or full.** -/
theorem fill_eq_drain_iff (h : Represents r q) :
    r.fill = r.drain ↔ q.length = 0 ∨ q.length = N := by
  have hle := h.length_le
  have hN := Nat.pos_of_neZero N
  rw [← offset_eq_zero, h.offset_fill]
  constructor
  · intro h0
    rcases Nat.lt_or_eq_of_le hle with hlt | heq
    · exact Or.inl (by rwa [Nat.mod_eq_of_lt hlt] at h0)
    · exact Or.inr heq
  · rintro (h0 | heq)
    · rw [h0, Nat.zero_mod]
    · rw [heq, Nat.mod_self]

/-- **The dirty bit at `fill` is set exactly on a full ring.** -/
theorem full_fill_iff (h : Represents r q) : r.full r.fill = true ↔ q.length = N := by
  have hle := h.length_le
  rw [h.full_iff, h.offset_fill]
  constructor
  · intro hlt
    by_contra hne
    rw [Nat.mod_eq_of_lt (by omega)] at hlt
    omega
  · intro heq
    rw [heq, Nat.mod_self]
    exact Nat.pos_of_neZero N

theorem full_drain_iff (h : Represents r q) : r.full r.drain = true ↔ q ≠ [] := by
  rw [h.full_iff, offset_self, List.length_pos_iff]

theorem val_drain {x : α} (h : Represents r (x :: q)) : r.val r.drain = x := by
  have hv := h.val_eq r.drain (by simp)
  simpa using hv.symm

/-- The dirty slots, written out from `drain` on. -/
theorem full_iff_exists (h : Represents r q) (i : Fin N) :
    r.full i = true ↔ ∃ j < q.length, i = r.drain + Fin.ofNat N j := by
  rw [h.full_iff]
  constructor
  · intro hi
    refine ⟨offset r.drain i, hi, (offset_inj r.drain).mp ?_⟩
    rw [offset_add_ofNat, Nat.mod_eq_of_lt (offset_lt _ _)]
  · rintro ⟨j, hj, rfl⟩
    rw [offset_add_ofNat, Nat.mod_eq_of_lt (lt_of_lt_of_le hj h.length_le)]
    exact hj

theorem val_add (h : Represents r q) {j : Nat} (hj : j < q.length) :
    q[j]? = some (r.val (r.drain + Fin.ofNat N j)) := by
  have ho : offset r.drain (r.drain + Fin.ofNat N j) = j := by
    rw [offset_add_ofNat, Nat.mod_eq_of_lt (lt_of_lt_of_le hj h.length_le)]
  have hv := h.val_eq (r.drain + Fin.ofNat N j) (by rw [ho]; exact hj)
  rwa [ho] at hv

theorem fill_eq (h : Represents r q) : r.fill = r.drain + Fin.ofNat N q.length := by
  apply (offset_inj r.drain).mp
  rw [h.offset_fill, offset_add_ofNat]

/-- **Storing at `fill` appends**, as long as the ring is not full. -/
theorem push (h : Represents r q) (hlt : q.length < N) (x : α) :
    Represents (r.push x) (q ++ [x]) := by
  have hfill : offset r.drain r.fill = q.length := by rw [h.offset_fill, Nat.mod_eq_of_lt hlt]
  refine ⟨by simpa using hlt, ?_, ?_, ?_⟩
  · show offset r.drain (r.fill + 1) = _
    rw [offset_add_one, hfill, List.length_append, List.length_singleton]
  · intro i
    show Function.update r.full r.fill true i = true ↔ offset r.drain i < _
    rw [List.length_append, List.length_singleton]
    by_cases hi : i = r.fill
    · subst hi
      simp [hfill]
    · have hne : offset r.drain i ≠ q.length := fun he => hi ((offset_inj _).mp (he.trans hfill.symm))
      rw [Function.update_of_ne hi, h.full_iff]
      omega
  · intro i hi
    change offset r.drain i < (q ++ [x]).length at hi
    show (q ++ [x])[offset r.drain i]? = some (Function.update r.val r.fill x i)
    rw [List.length_append, List.length_singleton] at hi
    by_cases he : i = r.fill
    · subst he
      rw [hfill, Function.update_self, List.getElem?_concat_length]
    · have hne : offset r.drain i ≠ q.length := fun h' => he ((offset_inj _).mp (h'.trans hfill.symm))
      rw [List.getElem?_append_left (by omega), Function.update_of_ne he]
      exact h.val_eq i (by omega)

/-- **Cleaning `drain` removes the head.** -/
theorem pop {x : α} (h : Represents r (x :: q)) : Represents r.pop q := by
  have hle : q.length + 1 ≤ N := h.length_le
  refine ⟨by omega, ?_, ?_, ?_⟩
  · show offset (r.drain + 1) r.fill = _
    have hf : offset r.drain r.fill = (q.length + 1) % N := h.offset_fill
    rw [offset_from_succ]
    split
    · next he =>
      rw [he, offset_self] at hf
      have := Nat.le_of_dvd (Nat.succ_pos _) (Nat.dvd_of_mod_eq_zero hf.symm)
      rw [Nat.mod_eq_of_lt (by omega)]
      omega
    · next hne =>
      have hlt : q.length + 1 ≠ N := fun he =>
        hne (offset_eq_zero.mp (by rw [hf, he, Nat.mod_self]))
      rw [hf, Nat.mod_eq_of_lt (by omega), Nat.mod_eq_of_lt (by omega)]
      omega
  · intro i
    show Function.update r.full r.drain false i = true ↔ offset (r.drain + 1) i < q.length
    rw [offset_from_succ]
    by_cases hi : i = r.drain
    · subst hi
      simp only [Function.update_self, if_pos]
      exact iff_of_false (by simp) (by omega)
    · have hpos : offset r.drain i ≠ 0 := fun h0 => hi (offset_eq_zero.mp h0)
      rw [Function.update_of_ne hi, if_neg hi, h.full_iff, List.length_cons]
      omega
  · intro i hi
    change offset (r.drain + 1) i < q.length at hi
    show q[offset (r.drain + 1) i]? = some (r.val i)
    rw [offset_from_succ] at hi ⊢
    by_cases he : i = r.drain
    · rw [if_pos he] at hi
      omega
    · have hpos : offset r.drain i ≠ 0 := fun h0 => he (offset_eq_zero.mp h0)
      rw [if_neg he] at hi ⊢
      have hv := h.val_eq i (by rw [List.length_cons]; omega)
      rwa [show offset r.drain i = offset r.drain i - 1 + 1 by omega, List.getElem?_cons_succ] at hv

end Represents

end FlagRing

end Lib
