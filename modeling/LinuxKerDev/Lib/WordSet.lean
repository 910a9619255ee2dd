import Mathlib.Data.Set.Basic
import Mathlib.Tactic

/-!
# Sets of numbers kept in machine words

A set of numbers below `n * w` is kept in an array of `n` words of `w` bits: the
number `i` is in the set when bit `i % w` of word `i / w` is one.  `mem` reads
one number, and every operation is described by what it does to `mem`:
`mem_insert`, `mem_erase`, `mem_union`, `mem_diff`, `mem_inter`, `mem_compl` and `mem_split`
for the array read off one wide word.  `toSet` is the set itself, `card` counts it, and
`ffz_not` finds a number of it.

Nothing here depends on how many words there are, so a statement about the
numbers holds for every layout of the same set.
-/

namespace Lib

abbrev WordSet (n w : Nat) := Fin n → BitVec w

namespace WordSet

variable {n w : Nat}

def mem (s : WordSet n w) (i : Nat) : Bool :=
  if h : i / w < n then (s ⟨i / w, h⟩).getLsbD (i % w) else false

def toSet (s : WordSet n w) : Set Nat := {i | s.mem i = true}

def insert (s : WordSet n w) (i : Nat) : WordSet n w := fun k =>
  if k.val = i / w then s k ||| 1#w <<< (i % w) else s k

def erase (s : WordSet n w) (i : Nat) : WordSet n w := fun k =>
  if k.val = i / w then s k &&& ~~~(1#w <<< (i % w)) else s k

def union (s t : WordSet n w) : WordSet n w := fun k => s k ||| t k

def diff (s t : WordSet n w) : WordSet n w := fun k => s k &&& ~~~t k

def inter (s t : WordSet n w) : WordSet n w := fun k => s k &&& t k

def compl (s : WordSet n w) : WordSet n w := fun k => ~~~s k

/-- The words of one wide word, the lowest first. -/
def split {m : Nat} (x : BitVec m) : WordSet n w := fun k => (x >>> (k.val * w)).setWidth w

def ffz (x : BitVec w) : Option (Fin w) := (List.finRange w).find? fun b => !x.getLsbD b

def card (s : WordSet n w) : Nat := ((Finset.range (n * w)).filter fun i => s.mem i = true).card

def orAll (s : WordSet n w) : BitVec w :=
  (List.finRange n).foldl (fun ready k => ready ||| s k) 0#w

variable (s t : WordSet n w)

theorem mem_of_lt {i : Nat} (h : i / w < n) : s.mem i = (s ⟨i / w, h⟩).getLsbD (i % w) :=
  dif_pos h

theorem mem_of_le {i : Nat} (h : n ≤ i / w) : s.mem i = false :=
  dif_neg (Nat.not_lt.mpr h)

/-- Bit `b` of word `k` is the number `k * w + b`. -/
theorem mem_word (k : Fin n) {b : Nat} (hb : b < w) : s.mem (k.val * w + b) = (s k).getLsbD b := by
  have hw : 0 < w := by omega
  have hk : (k.val * w + b) / w = k.val := by
    rw [Nat.mul_comm, Nat.mul_add_div hw, Nat.div_eq_of_lt hb, Nat.add_zero]
  have hm : (k.val * w + b) % w = b := by
    rw [Nat.mul_comm, Nat.mul_add_mod, Nat.mod_eq_of_lt hb]
  have hlt : (k.val * w + b) / w < n := by rw [hk]; exact k.isLt
  have hf : (⟨(k.val * w + b) / w, hlt⟩ : Fin n) = k := Fin.ext hk
  rw [mem_of_lt s hlt, hm, hf]

theorem mem_union (i : Nat) : (s.union t).mem i = (s.mem i || t.mem i) := by
  by_cases h : i / w < n
  · rw [mem_of_lt _ h, mem_of_lt _ h, mem_of_lt _ h, union, BitVec.getLsbD_or]
  · rw [mem_of_le _ (by omega), mem_of_le _ (by omega), mem_of_le _ (by omega)]
    rfl

theorem mem_diff (i : Nat) : (s.diff t).mem i = (s.mem i && !t.mem i) := by
  by_cases h : i / w < n
  · rw [mem_of_lt _ h, mem_of_lt _ h, mem_of_lt _ h, diff, BitVec.getLsbD_and, BitVec.getLsbD_not]
    by_cases hb : i % w < w
    · simp [hb]
    · rw [BitVec.getLsbD_of_ge _ _ (by omega)]
      rfl
  · rw [mem_of_le _ (by omega), mem_of_le _ (by omega)]
    rfl

theorem mem_inter (i : Nat) : (s.inter t).mem i = (s.mem i && t.mem i) := by
  by_cases h : i / w < n
  · rw [mem_of_lt _ h, mem_of_lt _ h, mem_of_lt _ h, inter, BitVec.getLsbD_and]
  · rw [mem_of_le _ (by omega), mem_of_le _ (by omega), mem_of_le _ (by omega)]
    rfl

theorem mem_compl {i : Nat} (hi : i < n * w) : s.compl.mem i = !s.mem i := by
  have hw : 0 < w := Nat.pos_of_mul_pos_left (Nat.zero_lt_of_lt hi)
  have h : i / w < n := Nat.div_lt_of_lt_mul (by rwa [Nat.mul_comm])
  rw [mem_of_lt _ h, mem_of_lt _ h, compl, BitVec.getLsbD_not, decide_eq_true (Nat.mod_lt i hw),
    Bool.true_and]

theorem diff_eq_self (h : ∀ k, s k &&& t k = 0#w) : s.diff t = s := by
  funext k
  refine BitVec.eq_of_getLsbD_eq fun b hb => ?_
  have hbit := congrArg (fun x => x.getLsbD b) (h k)
  simp only [BitVec.getLsbD_and, BitVec.getLsbD_zero] at hbit
  rw [diff, BitVec.getLsbD_and, BitVec.getLsbD_not, decide_eq_true hb, Bool.true_and]
  cases hs : (s k).getLsbD b with
  | false => rfl
  | true =>
    rw [hs, Bool.true_and] at hbit
    rw [hbit]
    rfl

/-- In one word a number is told by its bit. -/
theorem mod_eq_iff {i j : Nat} (hq : j / w = i / w) : j % w = i % w ↔ j = i := by
  constructor
  · intro hm
    rw [← Nat.div_add_mod j w, ← Nat.div_add_mod i w, hq, hm]
  · rintro rfl
    rfl

theorem mem_insert {i : Nat} (hi : i < n * w) (j : Nat) :
    (s.insert i).mem j = (decide (j = i) || s.mem j) := by
  have hw : 0 < w := Nat.pos_of_mul_pos_left (Nat.zero_lt_of_lt hi)
  have hin : i / w < n := Nat.div_lt_of_lt_mul (by rwa [Nat.mul_comm])
  by_cases h : j / w < n
  · rw [mem_of_lt _ h, mem_of_lt _ h, insert]
    by_cases hq : j / w = i / w
    · -- the word of `i`: the bit of `i` is set, the others stay
      rw [if_pos hq, ← BitVec.twoPow_eq, BitVec.getLsbD_or, BitVec.getLsbD_twoPow, Bool.or_comm]
      simp only [Nat.mod_lt i hw, decide_true, Bool.true_and, eq_comm (a := i % w),
        mod_eq_iff hq]
    · have hne : j ≠ i := fun he => hq (by rw [he])
      rw [if_neg hq, decide_eq_false hne, Bool.false_or]
  · have hne : j ≠ i := fun he => h (he ▸ hin)
    rw [mem_of_le _ (by omega), mem_of_le _ (by omega), decide_eq_false hne]
    rfl

theorem mem_erase {i : Nat} (hi : i < n * w) (j : Nat) :
    (s.erase i).mem j = (!decide (j = i) && s.mem j) := by
  have hw : 0 < w := Nat.pos_of_mul_pos_left (Nat.zero_lt_of_lt hi)
  by_cases h : j / w < n
  · rw [mem_of_lt _ h, mem_of_lt _ h, erase]
    by_cases hq : j / w = i / w
    · -- the word of `i`: the bit of `i` is taken out, the others stay
      rw [if_pos hq, ← BitVec.twoPow_eq, BitVec.getLsbD_and, BitVec.getLsbD_not,
        BitVec.getLsbD_twoPow, Bool.and_comm]
      simp only [Nat.mod_lt j hw, Nat.mod_lt i hw, decide_true, Bool.true_and,
        eq_comm (a := i % w), mod_eq_iff hq]
    · have hne : j ≠ i := fun he => hq (by rw [he])
      rw [if_neg hq, decide_eq_false hne, Bool.not_false, Bool.true_and]
  · rw [mem_of_le _ (by omega), mem_of_le _ (by omega), Bool.and_false]

theorem mem_split {m : Nat} (x : BitVec m) {i : Nat} (hi : i < n * w) :
    (split x : WordSet n w).mem i = x.getLsbD i := by
  have hw : 0 < w := Nat.pos_of_mul_pos_left (Nat.zero_lt_of_lt hi)
  have hin : i / w < n := Nat.div_lt_of_lt_mul (by rwa [Nat.mul_comm])
  rw [mem_of_lt _ hin, split, BitVec.getLsbD_setWidth, BitVec.getLsbD_ushiftRight,
    decide_eq_true (Nat.mod_lt i hw), Bool.true_and, Nat.mul_comm, Nat.div_add_mod]

theorem lt_of_mem {i : Nat} (h : s.mem i = true) : i < n * w := by
  by_contra hge
  by_cases hw : w = 0
  · subst hw
    rw [mem] at h
    split at h
    · rw [BitVec.getLsbD_of_ge _ _ (Nat.zero_le _)] at h
      cases h
    · cases h
  · have hle : n ≤ i / w := (Nat.le_div_iff_mul_le (Nat.pos_of_ne_zero hw)).mpr (by omega)
    rw [mem_of_le s hle] at h
    cases h

/-- **Some word is not zero exactly when some number is in the set.** -/
theorem exists_word_ne_zero : (∃ k, s k ≠ 0) ↔ ∃ i, s.mem i = true := by
  constructor
  · rintro ⟨k, hk⟩
    by_contra hno
    refine hk (BitVec.eq_of_getLsbD_eq fun b hb => ?_)
    rw [← mem_word s k hb, Bool.eq_false_iff.mpr fun h => hno ⟨_, h⟩]
    exact (BitVec.getLsbD_zero).symm
  · rintro ⟨i, hi⟩
    by_cases h : i / w < n
    · refine ⟨⟨i / w, h⟩, fun h0 => ?_⟩
      rw [mem_of_lt s h, h0] at hi
      simp at hi
    · rw [mem_of_le s (by omega)] at hi
      cases hi

theorem foldl_or_ne_zero : ∀ (l : List (Fin n)) (x : BitVec w),
    l.foldl (fun ready k => ready ||| s k) x ≠ 0#w ↔ x ≠ 0#w ∨ ∃ k ∈ l, s k ≠ 0#w := by
  intro l
  induction l with
  | nil => intro x; simp
  | cons k l ih =>
    intro x
    rw [List.foldl_cons, ih, ne_eq, BitVec.or_eq_zero_iff, not_and_or]
    simp only [List.mem_cons, exists_eq_or_imp, or_assoc]

/-- **All the words ORed together are not zero exactly when some number is in the
set.** -/
theorem orAll_ne_zero : s.orAll ≠ 0#w ↔ ∃ i, s.mem i = true := by
  rw [orAll, foldl_or_ne_zero, ← exists_word_ne_zero]
  simp

theorem ext_mem {s t : WordSet n w} (h : ∀ i < n * w, s.mem i = t.mem i) : s = t := by
  funext k
  refine BitVec.eq_of_getLsbD_eq fun b hb => ?_
  rw [← mem_word s k hb, ← mem_word t k hb]
  refine h _ ?_
  calc k.val * w + b < k.val * w + w := by omega
    _ = (k.val + 1) * w := by rw [Nat.add_mul, Nat.one_mul]
    _ ≤ n * w := Nat.mul_le_mul_right w k.isLt

/-! ### The lowest bit -/

/-- **In a word that is not zero the lowest one is found.** -/
theorem ffz_not {x : BitVec w} (hx : x ≠ 0#w) :
    ∃ b, ffz (~~~x) = some b ∧ x.getLsbD b.val = true := by
  have hone : ∃ b : Fin w, x.getLsbD b.val = true := by
    by_contra hno
    refine hx (BitVec.eq_of_getLsbD_eq fun b hb => ?_)
    rw [Bool.eq_false_iff.mpr fun h => hno ⟨⟨b, hb⟩, h⟩, BitVec.getLsbD_zero]
  have hnot : ∀ b : Fin w, (!(~~~x).getLsbD b.val) = x.getLsbD b.val := by
    intro b
    rw [BitVec.getLsbD_not, decide_eq_true b.isLt, Bool.true_and, Bool.not_not]
  cases hf : ffz (~~~x) with
  | none =>
    obtain ⟨b, hb⟩ := hone
    have hzero := List.find?_eq_none.mp hf b (List.mem_finRange b)
    rw [hnot b] at hzero
    exact absurd hb hzero
  | some b =>
    have hb := List.find?_some hf
    rw [hnot b] at hb
    exact ⟨b, rfl, hb⟩

/-! ### How many there are -/

theorem card_le_card {s t : WordSet n w} (h : s.toSet ⊆ t.toSet) : s.card ≤ t.card := by
  refine Finset.card_le_card fun i hi => ?_
  rw [Finset.mem_filter] at hi ⊢
  exact ⟨hi.1, h hi.2⟩

theorem card_lt_card {s t : WordSet n w} (h : s.toSet ⊆ t.toSet) {j : Nat}
    (hs : s.mem j = false) (ht : t.mem j = true) : s.card < t.card := by
  have hj : j ∈ (Finset.range (n * w)).filter fun i => t.mem i = true :=
    Finset.mem_filter.mpr ⟨Finset.mem_range.mpr (lt_of_mem t ht), ht⟩
  refine Finset.card_lt_card (Finset.ssubset_iff_of_subset ?_ |>.mpr ⟨j, hj, ?_⟩)
  · intro i hi
    rw [Finset.mem_filter] at hi ⊢
    exact ⟨hi.1, h hi.2⟩
  · rw [Finset.mem_filter, hs]
    exact fun hf => absurd hf.2 (by decide)

end WordSet

end Lib
