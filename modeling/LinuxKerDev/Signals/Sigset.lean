import LinuxKerDev.Lib.WordSet

/-!
# Signal sets

A `sigset_t` is an array of `_NSIG_WORDS` words of `_NSIG_BPW` bits, 64 bits in
all: one 64-bit word, or two 32-bit words.  Signal `s` is bit
`(s-1) % _NSIG_BPW` of word `(s-1) / _NSIG_BPW`.  `Signal` carries the range of
the signal numbers, so that there is always such a bit.

The functions follow the kernel's, word by word; `sigismember_sigaddset`,
`sigismember_postPattern` and `hasPendingSignals_iff` say what they do to the
signals, whatever the layout.
-/

namespace LinuxKerDev.Signals

open Lib

inductive Arch
  | oneWord
  | twoWords
  deriving DecidableEq, Repr

namespace Arch

def nsigBpw : Arch → Nat
  | oneWord => 64
  | twoWords => 32

def nsigWords : Arch → Nat
  | oneWord => 1
  | twoWords => 2

theorem nsig (a : Arch) : a.nsigWords * a.nsigBpw = 64 := by cases a <;> rfl

end Arch

structure Signal where
  num : Nat
  pos : 1 ≤ num
  le : num ≤ 64
  deriving DecidableEq, Repr

def SIGINT : Signal := ⟨2, by decide, by decide⟩
def SIGKILL : Signal := ⟨9, by decide, by decide⟩
def SIGSEGV : Signal := ⟨11, by decide, by decide⟩

abbrev Sigset (a : Arch) := WordSet a.nsigWords a.nsigBpw

variable {a : Arch}

theorem Signal.lt (s : Signal) (a : Arch) : s.num - 1 < a.nsigWords * a.nsigBpw := by
  rw [a.nsig]
  have := s.pos
  have := s.le
  omega

theorem Signal.sub_one_inj {s t : Signal} : s.num - 1 = t.num - 1 ↔ s = t := by
  constructor
  · intro h
    cases s with
    | mk n hn hn' =>
      cases t with
      | mk m hm hm' =>
        obtain rfl : n = m := by
          simp only at h
          omega
        rfl
  · rintro rfl
    rfl

def sigaddset (set : Sigset a) (sig : Signal) : Sigset a := fun k =>
  if k.val = (sig.num - 1) / a.nsigBpw then set k ||| 1#_ <<< ((sig.num - 1) % a.nsigBpw)
  else set k

def sigismember (set : Sigset a) (sig : Signal) : Bool :=
  if h : (sig.num - 1) / a.nsigBpw < a.nsigWords then
    (set ⟨(sig.num - 1) / a.nsigBpw, h⟩).getLsbD ((sig.num - 1) % a.nsigBpw)
  else false

/-- The pattern as `smunch` ORs it in: `sig[0] |= bit_pattern` for one word, else
`sig[0] |= (u32)bit_pattern` and `sig[1] |= bit_pattern >> 32`. -/
def postPattern (set : Sigset a) (bitPattern : BitVec 64) : Sigset a := fun k =>
  if a.nsigWords = 1 then
    if k.val = 0 then set k ||| bitPattern.setWidth _ else set k
  else
    if k.val = 0 then set k ||| (bitPattern.setWidth 32).setWidth _
    else if k.val = 1 then set k ||| (bitPattern >>> 32).setWidth _
    else set k

/-- `has_pending_signals`.  The `switch` only unrolls its `default` loop. -/
def hasPendingSignals (signal blocked : Sigset a) : Bool :=
  (List.finRange a.nsigWords).foldl (fun ready k => ready ||| (signal k &&& ~~~blocked k)) 0#_ ≠ 0#_

/-! ### What they do to the signals -/

theorem sigismember_eq (set : Sigset a) (sig : Signal) :
    sigismember set sig = set.mem (sig.num - 1) := rfl

theorem sigaddset_eq (set : Sigset a) (sig : Signal) :
    sigaddset set sig = set.insert (sig.num - 1) := rfl

theorem hasPendingSignals_eq (signal blocked : Sigset a) :
    hasPendingSignals signal blocked = decide ((signal.diff blocked).orAll ≠ 0#_) := rfl

/-- **`sigaddset` adds the signal and no other one.** -/
theorem sigismember_sigaddset (set : Sigset a) (sig s : Signal) :
    sigismember (sigaddset set sig) s = true ↔ s = sig ∨ sigismember set s = true := by
  rw [sigismember_eq, sigismember_eq, sigaddset_eq, WordSet.mem_insert set (sig.lt a),
    Bool.or_eq_true, decide_eq_true_eq, Signal.sub_one_inj]

theorem sigismember_empty (s : Signal) : sigismember (fun _ => 0#_ : Sigset a) s = false := by
  simp [sigismember]

theorem sigismember_diff (set mask : Sigset a) (s : Signal) :
    sigismember (set.diff mask) s = true ↔
      sigismember set s = true ∧ sigismember mask s = false := by
  rw [sigismember_eq, WordSet.mem_diff, Bool.and_eq_true, Bool.not_eq_true']
  exact Iff.rfl

/-- The pattern, as a set of the same layout. -/
theorem postPattern_eq (set : Sigset a) (bitPattern : BitVec 64) :
    postPattern set bitPattern = set.union (WordSet.split bitPattern) := by
  cases a with
  | oneWord =>
    funext k
    have hk : k.val = 0 := by
      have := k.isLt
      simp only [Arch.nsigWords] at this
      omega
    simp [postPattern, WordSet.union, WordSet.split, hk, Arch.nsigWords]
  | twoWords =>
    funext k
    have hk : k.val = 0 ∨ k.val = 1 := by
      have := k.isLt
      simp only [Arch.nsigWords] at this
      omega
    rcases hk with hk | hk
    · simp [postPattern, WordSet.union, WordSet.split, hk, Arch.nsigWords, Arch.nsigBpw]
    · simp [postPattern, WordSet.union, WordSet.split, hk, Arch.nsigWords, Arch.nsigBpw]

/-- **Posting a pattern adds the signals whose bit is one**: signal `s` is bit
`s-1`, in either layout. -/
theorem sigismember_postPattern (set : Sigset a) (bitPattern : BitVec 64) (s : Signal) :
    sigismember (postPattern set bitPattern) s = true ↔
      sigismember set s = true ∨ bitPattern.getLsbD (s.num - 1) = true := by
  rw [sigismember_eq, sigismember_eq, postPattern_eq, WordSet.mem_union,
    WordSet.mem_split bitPattern (s.lt a), Bool.or_eq_true]

theorem Sigset.ext {set set' : Sigset a}
    (h : ∀ s, sigismember set s = true ↔ sigismember set' s = true) : set = set' := by
  refine WordSet.ext_mem fun i hi => ?_
  rw [a.nsig] at hi
  exact Bool.eq_iff_iff.mpr (h ⟨i + 1, by omega, by omega⟩)

theorem Sigset.toSet_subset {set set' : Sigset a}
    (h : ∀ s, sigismember set s = true → sigismember set' s = true) :
    WordSet.toSet set ⊆ WordSet.toSet set' := by
  intro i hi
  have hlt := WordSet.lt_of_mem set hi
  rw [a.nsig] at hlt
  exact h ⟨i + 1, by omega, by omega⟩ hi

/-- **A signal is pending exactly when one is in the set and not blocked.** -/
theorem hasPendingSignals_iff (signal blocked : Sigset a) :
    hasPendingSignals signal blocked = true ↔
      ∃ s, sigismember signal s = true ∧ sigismember blocked s = false := by
  rw [hasPendingSignals_eq, decide_eq_true_eq, WordSet.orAll_ne_zero]
  constructor
  · rintro ⟨i, hi⟩
    have hlt := WordSet.lt_of_mem _ hi
    rw [a.nsig] at hlt
    rw [WordSet.mem_diff, Bool.and_eq_true, Bool.not_eq_true'] at hi
    exact ⟨⟨i + 1, by omega, by omega⟩, hi⟩
  · rintro ⟨s, hs⟩
    refine ⟨s.num - 1, ?_⟩
    rw [WordSet.mem_diff, Bool.and_eq_true, Bool.not_eq_true']
    exact hs

end LinuxKerDev.Signals
