import Mathlib.Data.List.Nodup
import Mathlib.Tactic

/-!
# Loops over the members of a roster

A roster is a list of members, each of them there once.  A loop over it that does to each
member something that depends on that member alone leaves every member as the loop's body
by itself would leave it (`Local.foldl_mem`), however long the loop is.

`Awaits l P n` says that a counter stands at the number of members that `P` picks.  A
member that is no longer picked takes the counter down by one (`Awaits.leave`), and at zero
nobody is picked (`Awaits.eq_zero`).
`foldl_count` is a loop that does the counting itself.
-/

namespace Lib

variable {σ ι τ : Type*}

/-! ### What a loop does to each member -/

/-- `f` changes nothing but the member that it is called for, and what it makes of that
member depends on nothing else. -/
structure Local (get : σ → ι → τ) (f : σ → ι → σ) : Prop where
  other : ∀ {s : σ} {i j : ι}, j ≠ i → get (f s i) j = get s j
  own : ∀ {s s' : σ} {i : ι}, get s i = get s' i → get (f s i) i = get (f s' i) i

namespace Local

variable {get : σ → ι → τ} {f g : σ → ι → σ} {l : List ι} {i : ι}

theorem of_same (h : ∀ s i j, get (f s i) j = get s j) : Local get f where
  other _ := h _ _ _
  own he := by rw [h, h, he]

theorem comp (hf : Local get f) (hg : Local get g) : Local get fun s i => g (f s i) i where
  other hne := by rw [hg.other hne, hf.other hne]
  own he := hg.own (hf.own he)

theorem ite {c : σ → ι → Prop} [∀ s i, Decidable (c s i)] (hf : Local get f) (hg : Local get g)
    (hc : ∀ {s s' i}, get s i = get s' i → (c s i ↔ c s' i)) :
    Local get fun s i => if c s i then f s i else g s i where
  other {s i _} hne := by
    by_cases h : c s i
    · rw [if_pos h, hf.other hne]
    · rw [if_neg h, hg.other hne]
  own {s s' i} he := by
    by_cases h : c s i
    · rw [if_pos h, if_pos ((hc he).mp h), hf.own he]
    · rw [if_neg h, if_neg fun h' => h ((hc he).mpr h'), hg.own he]

theorem foldl_notMem (h : Local get f) (hi : i ∉ l) (s : σ) : get (l.foldl f s) i = get s i := by
  induction l generalizing s with
  | nil => rfl
  | cons j l ih =>
    obtain ⟨hne, hi⟩ := not_or.mp (List.mem_cons.not.mp hi)
    rw [List.foldl_cons, ih hi, h.other hne]

/-- **A loop leaves each member as its body alone would.** -/
theorem foldl_mem (h : Local get f) (hn : l.Nodup) (hi : i ∈ l) (s : σ) :
    get (l.foldl f s) i = get (f s i) i := by
  induction l generalizing s with
  | nil => cases hi
  | cons j l ih =>
    obtain ⟨hj, hn⟩ := List.nodup_cons.mp hn
    rw [List.foldl_cons]
    rcases List.mem_cons.mp hi with rfl | hi
    · exact h.foldl_notMem hj _
    · have hne : i ≠ j := fun he => hj (he ▸ hi)
      rw [ih hn hi]
      exact h.own (h.other hne)

end Local

/-- Something that no round of a loop changes. -/
theorem foldl_same (get : σ → τ) {f : σ → ι → σ} (h : ∀ s i, get (f s i) = get s) (l : List ι)
    (s : σ) : get (l.foldl f s) = get s := by
  induction l generalizing s with
  | nil => rfl
  | cons i l ih => rw [List.foldl_cons, ih, h]

/-! ### Counting members -/

/-- The counter stands at the number of the members in question. -/
def Awaits (l : List ι) (P : ι → Bool) (n : Nat) : Prop := n = l.countP P

theorem countP_drop {l : List ι} {P Q : ι → Bool} {i : ι} (hn : l.Nodup) (hi : i ∈ l)
    (hP : P i = true) (hQ : Q i = false) (hother : ∀ j ∈ l, j ≠ i → Q j = P j) :
    l.countP P = l.countP Q + 1 := by
  induction l with
  | nil => cases hi
  | cons j l ih =>
    obtain ⟨hj, hn⟩ := List.nodup_cons.mp hn
    rw [List.countP_cons, List.countP_cons]
    rcases List.mem_cons.mp hi with rfl | hi
    · have hrest : l.countP P = l.countP Q := List.countP_congr fun k hk => by
        rw [hother k (List.mem_cons_of_mem i hk) fun he => hj (he ▸ hk)]
      rw [hP, hQ, hrest]
      rfl
    · have hne : j ≠ i := fun he => hj (he ▸ hi)
      rw [ih hn hi fun k hk => hother k (List.mem_cons_of_mem j hk),
        hother j List.mem_cons_self hne]
      omega

namespace Awaits

variable {l : List ι} {P Q : ι → Bool} {n : Nat} {i : ι}

theorem congr (h : Awaits l P n) (hPQ : ∀ i ∈ l, Q i = P i) : Awaits l Q n :=
  h.trans (List.countP_congr fun i hi => by rw [hPQ i hi])

theorem perm {l' : List ι} (h : Awaits l P n) (hl : l'.Perm l) : Awaits l' P n :=
  h.trans (hl.countP_eq P).symm

theorem none (hP : ∀ i ∈ l, P i = false) : Awaits l P 0 := by
  refine (List.countP_eq_zero.mpr fun i hi => ?_).symm
  rw [hP i hi]
  exact Bool.false_ne_true

/-- **At zero nobody is awaited.** -/
theorem eq_zero (h : Awaits l P n) : n = 0 ↔ ∀ i ∈ l, P i = false := by
  rw [h, List.countP_eq_zero]
  exact forall₂_congr fun _ _ => Bool.eq_false_iff.symm

theorem ne_zero (h : Awaits l P n) (hi : i ∈ l) (hP : P i = true) : n ≠ 0 := by
  intro h0
  rw [h.eq_zero.mp h0 i hi] at hP
  cases hP

/-- **The counter goes down by one when a member is no longer awaited.** -/
theorem leave (h : Awaits l P n) (hn : l.Nodup) (hi : i ∈ l) (hP : P i = true)
    (hQ : Q i = false) (hother : ∀ j ∈ l, j ≠ i → Q j = P j) : Awaits l Q (n - 1) := by
  rw [Awaits, h, countP_drop hn hi hP hQ hother, Nat.add_sub_cancel]

end Awaits

/-- **A loop that counts.**  Each round adds one for a member that it picks, and leaves open
whether the others are picked. -/
theorem foldl_count (count : σ → Nat) {f : σ → ι → σ} {P : σ → ι → Bool}
    (hcount : ∀ s i, count (f s i) = count s + if P s i = true then 1 else 0)
    (hP : ∀ s i j, j ≠ i → P (f s i) j = P s j) {l : List ι} (hn : l.Nodup) (s : σ) :
    count (l.foldl f s) = count s + l.countP (P s) := by
  induction l generalizing s with
  | nil => rfl
  | cons i l ih =>
    obtain ⟨hi, hn⟩ := List.nodup_cons.mp hn
    have hrest : l.countP (P (f s i)) = l.countP (P s) := List.countP_congr fun j hj => by
      rw [hP s i j fun he => hi (he ▸ hj)]
    rw [List.foldl_cons, ih hn, hcount, hrest, List.countP_cons]
    omega

end Lib
