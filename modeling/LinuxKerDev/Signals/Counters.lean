import Mathlib.Data.List.DropRight
import LinuxKerDev.Lib.Run
import LinuxKerDev.Signals.Generate
import LinuxKerDev.Signals.Smunch

/-!
# The signal counters

`init_sigcounter` clears the counters of a process, `get_sigcounter` reads one, and
`do_send_sig_info` counts.  A process is known by its `sighand`, which holds the
counters.  There is one for each of the signals 1 to 63.

The account is right if every signal that was generated is counted, once, and
nothing else is (`Accounts`).  The other ways a signal is generated do not count,
and `do_send_sig_info` counts what it fails to send, too.  `counters_account_iff`
says that these are the only gaps, and what `get_sigcounter` answers without them;
`doSendSigInfo_counted_iff` says of one call of `do_send_sig_info` when it counts rightly.
-/

namespace LinuxKerDev.Signals

open Lib

variable {a : Arch}

namespace Counters

inductive Act
  | init (exchanged : List Nat) (current pid : Int)
  | signal (c : Call)
  deriving DecidableEq, Repr

def clearing (w : World a) (pid : Int) : List Mark :=
  match w.kernel.pids pid with
  | none => []
  | some p => ((w.task p).sighand.map Mark.cleared).toList

def step (x : Extern a) (h : Headers a) : Step (World a) Act Mark
  | w, .init exchanged current pid =>
    (initSigcounter exchanged w current pid).map fun w' => (w', clearing w pid)
  | w, .signal c => c.run x h w

end Counters

/-! ### The account -/

/-- Signal `s` was sent to process `d`. -/
def Mark.isSent (d s : Nat) : Mark → Bool
  | .sent d' sig => d' = d && sig.num = s
  | .cleared _ => false

/-- How many signals `s` have been sent to process `d` since its last `init_sigcounter`. -/
def sinceInit (d s : Nat) (ms : List Mark) : Nat :=
  (ms.rtakeWhile (· ≠ .cleared d)).countP (Mark.isSent d s)

/-- What the counters say is what has happened. -/
def Accounts (w : World a) (ms : List Mark) (w' : World a) : Prop :=
  ∀ d s, 1 ≤ s → s ≤ 63 →
    w'.counters d s =
      (if .cleared d ∈ ms then 0 else w.counters d s) + BitVec.ofNat 32 (sinceInit d s ms)

@[simp] theorem sinceInit_nil (d s : Nat) : sinceInit d s [] = 0 := rfl

theorem sinceInit_snoc (d s : Nat) (ms : List Mark) (m : Mark) :
    sinceInit d s (ms ++ [m]) =
      if m = .cleared d then 0
      else if m.isSent d s = true then sinceInit d s ms + 1
      else sinceInit d s ms := by
  unfold sinceInit
  rw [List.rtakeWhile_concat]
  by_cases hm : m = .cleared d
  · rw [if_neg (by simp [hm]), if_pos hm, List.countP_nil]
  · rw [if_pos (by simp [hm]), if_neg hm, List.countP_append, List.countP_singleton]
    split
    · rfl
    · rfl

theorem sinceInit_append (d s : Nat) (ms ms' : List Mark) :
    sinceInit d s (ms ++ ms') =
      if .cleared d ∈ ms' then sinceInit d s ms' else sinceInit d s ms + sinceInit d s ms' := by
  induction ms' using List.reverseRecOn with
  | nil => simp
  | append_singleton ms' m ih =>
    rw [← List.append_assoc, sinceInit_snoc, sinceInit_snoc, ih]
    by_cases hm : m = .cleared d
    · simp [hm]
    · have hmem : Mark.cleared d ∈ ms' ++ [m] ↔ Mark.cleared d ∈ ms' := by
        simp [Ne.symm hm]
      rw [if_neg hm, if_neg hm]
      by_cases hc : Mark.cleared d ∈ ms'
      · rw [if_pos hc, if_pos (hmem.mpr hc)]
      · rw [if_neg hc, if_neg (mt hmem.mp hc)]
        split_ifs
        · omega
        · rfl

theorem Accounts.trans {w w' w'' : World a} {ms ms' : List Mark} (h : Accounts w ms w')
    (h' : Accounts w' ms' w'') : Accounts w (ms ++ ms') w'' := by
  intro d s h1 h63
  rw [h' d s h1 h63, h d s h1 h63, sinceInit_append]
  by_cases hc' : Mark.cleared d ∈ ms'
  · rw [if_pos hc', if_pos hc', if_pos (List.mem_append_right ms hc')]
  · rw [if_neg hc', if_neg hc', BitVec.ofNat_add, ← BitVec.add_assoc]
    by_cases hc : Mark.cleared d ∈ ms
    · rw [if_pos hc, if_pos (List.mem_append_left ms' hc)]
    · rw [if_neg hc, if_neg (by simp [hc, hc'])]

theorem accounts_singleton_iff {w w' : World a} {m : Mark} :
    Accounts w [m] w' ↔ ∀ d s, 1 ≤ s → s ≤ 63 → w'.counters d s =
      if m = .cleared d then 0
      else if m.isSent d s = true then w.counters d s + 1
      else w.counters d s := by
  have hone : ∀ d s, (if .cleared d ∈ [m] then 0 else w.counters d s) +
      BitVec.ofNat 32 (sinceInit d s [m]) =
        if m = .cleared d then 0
        else if m.isSent d s = true then w.counters d s + 1
        else w.counters d s := by
    intro d s
    rw [← List.nil_append [m], sinceInit_snoc, List.nil_append]
    by_cases hm : m = .cleared d
    · simp [hm]
    · rw [if_neg (by simp [Ne.symm hm]), if_neg hm, if_neg hm]
      split_ifs
      · simp
      · simp
  unfold Accounts
  simp only [hone]

theorem accounts_sent_iff {w w' : World a} {d : Nat} {sig : Signal} :
    Accounts w [.sent d sig] w' ↔ ∀ d' s, 1 ≤ s → s ≤ 63 → w'.counters d' s =
      if Mark.isSent d' s (.sent d sig) = true then w.counters d' s + 1 else w.counters d' s := by
  rw [accounts_singleton_iff]
  simp only [reduceCtorEq, if_false]

theorem accounts_nil_iff {w w' : World a} :
    Accounts w [] w' ↔ ∀ d s, 1 ≤ s → s ≤ 63 → w'.counters d s = w.counters d s := by
  simp [Accounts]

/-! ### What is counted -/

/-- There is a counter for the signal. -/
def Mark.hasCounter : Mark → Bool
  | .sent _ sig => sig.num ≤ 63
  | .cleared _ => false

/-- A call whose signals are all counted, and that counts nothing else. -/
def Call.Counted (h : Headers a) (w : World a) : Call → Prop
  | .doSendSigInfo _ alloc hidden sig info p _ =>
    sig.num ≤ 63 → (w.task p).sighand ≠ none →
      overflows h w sig p (siFromuser info && hidden) alloc info = false
  | c => ∀ m ∈ c.generates h w, m.hasCounter = false

instance (h : Headers a) (w : World a) (c : Call) : Decidable (c.Counted h w) := by
  cases c
  case doSendSigInfo exchanged alloc hidden sig info p group =>
    exact inferInstanceAs (Decidable (sig.num ≤ 63 → (w.task p).sighand ≠ none →
      overflows h w sig p (siFromuser info && hidden) alloc info = false))
  all_goals exact inferInstanceAs (Decidable (∀ m ∈ Call.generates h w _, m.hasCounter = false))

theorem reaches_cases (w : World a) (t : Nat) (sig : Signal) (failed : Bool) :
    reaches w t sig failed = [] ∨ ∃ d sig', reaches w t sig failed = [.sent d sig'] := by
  unfold reaches
  cases (w.task t).sighand with
  | none => exact Or.inl rfl
  | some d =>
    cases failed with
    | false => exact Or.inr ⟨d, sig, rfl⟩
    | true => exact Or.inl rfl

theorem Call.generates_cases (h : Headers a) (w : World a) (c : Call) :
    c.generates h w = [] ∨ ∃ d sig, c.generates h w = [.sent d sig] := by
  cases c with
  | doSendSigInfo => exact reaches_cases w _ _ _
  | forceSigInfo => exact reaches_cases w _ _ _
  | groupSendSigInfo => exact reaches_cases w _ _ _
  | sendSigqueue => exact reaches_cases w _ _ _
  | killPidInfoAsCred exchanged alloc perm security sig info pid =>
    unfold Call.generates
    dsimp only
    split
    · exact Or.inl rfl
    · split_ifs
      · exact reaches_cases w _ _ _
      · exact Or.inl rfl
  | doNotifyParent alloc hidden tsk sig =>
    unfold Call.generates
    dsimp only
    split
    · exact Or.inl rfl
    · split
      · exact Or.inl rfl
      · exact reaches_cases w _ _ _
  | doNotifyParentCldstop alloc hidden tsk forPtracer why =>
    unfold Call.generates
    dsimp only
    split
    · exact Or.inl rfl
    · split_ifs
      · exact reaches_cases w _ _ _
      · exact Or.inl rfl

theorem count_apply {w : World a} {p d : Nat} (hd : (w.task p).sighand = some d) (sig : Signal)
    (d' s : Nat) : (w.count p sig).counters d' s =
      if Mark.isSent d' s (.sent d sig) = true then w.counters d' s + 1 else w.counters d' s := by
  unfold World.count
  rw [hd]
  simp only [Mark.isSent, Bool.and_eq_true, decide_eq_true_eq, Function.update_apply]
  by_cases hd' : d' = d
  · subst hd'
    rw [if_pos rfl, Function.update_apply]
    by_cases hs : s = sig.num
    · rw [if_pos hs, if_pos ⟨rfl, hs.symm⟩, hs]
    · rw [if_neg hs, if_neg fun hc => hs hc.2.symm]
  · rw [if_neg hd', if_neg fun hc => hd' hc.1.symm]

/-- What is generated and not counted is missing, if there is a counter for it. -/
theorem accounts_iff_of_same {w w' : World a} {ms : List Mark} (hc : w'.counters = w.counters)
    (hms : ms = [] ∨ ∃ d sig, ms = [.sent d sig]) :
    Accounts w ms w' ↔ ∀ m ∈ ms, m.hasCounter = false := by
  rcases hms with rfl | ⟨d, sig, rfl⟩
  · refine iff_of_true (accounts_nil_iff.mpr fun d s _ _ => ?_) nofun
    rw [hc]
  · rw [accounts_sent_iff, List.forall_mem_singleton, Mark.hasCounter, decide_eq_false_iff_not]
    constructor
    · intro hall hle
      have hone := hall d sig.num sig.pos hle
      rw [hc, if_pos (by simp [Mark.isSent])] at hone
      simp at hone
    · intro hgt d' s _ hs
      have hother : ¬ Mark.isSent d' s (.sent d sig) = true := by
        simp only [Mark.isSent, Bool.and_eq_true, decide_eq_true_eq, not_and]
        omega
      rw [hc, if_neg hother]

/-- **A call is accounted for exactly if it is counted.** -/
theorem Call.accounts_iff (x : Extern a) (h : Headers a) {c : Call} {w w' : World a}
    {ms : List Mark} (hc : c.run x h w = some (w', ms)) : Accounts w ms w' ↔ c.Counted h w := by
  obtain ⟨rfl, hcounts, -⟩ := Call.run_spec x h hc
  have hcases := Call.generates_cases h w c
  cases c with
  | killPidInfoAsCred => exact accounts_iff_of_same hcounts hcases
  | forceSigInfo => exact accounts_iff_of_same hcounts hcases
  | groupSendSigInfo => exact accounts_iff_of_same hcounts hcases
  | doNotifyParent => exact accounts_iff_of_same hcounts hcases
  | doNotifyParentCldstop => exact accounts_iff_of_same hcounts hcases
  | sendSigqueue => exact accounts_iff_of_same hcounts hcases
  | doSendSigInfo exchanged alloc hidden sig info p group =>
    unfold Call.generates Call.Counted reaches
    unfold Call.counts at hcounts
    dsimp only at hcounts ⊢
    cases hd : (w.task p).sighand with
    | none =>
      have hsame : (w.count p sig).counters = w.counters := by rw [World.count, hd]
      exact iff_of_true (accounts_nil_iff.mpr fun d s _ _ => by rw [hcounts, hsame])
        fun _ hne => absurd rfl hne
    | some d =>
      dsimp only
      cases overflows h w sig p (siFromuser info && hidden) alloc info with
      | false =>
        refine iff_of_true (accounts_sent_iff.mpr fun d' s _ _ => ?_) fun _ _ => rfl
        rw [hcounts, count_apply hd]
      | true =>
        -- counted, and not sent
        rw [if_pos rfl, accounts_nil_iff]
        constructor
        · intro hall hle _
          have hone := hall d sig.num sig.pos hle
          rw [hcounts, count_apply hd, if_pos (by simp [Mark.isSent])] at hone
          simp at hone
        · intro hno d' s _ hs
          have hgt : ¬ sig.num ≤ 63 := fun hle =>
            absurd (hno hle (Option.some_ne_none d)) (by simp)
          have hother : ¬ Mark.isSent d' s (.sent d sig) = true := by
            simp only [Mark.isSent, Bool.and_eq_true, decide_eq_true_eq, not_and]
            omega
          rw [hcounts, count_apply hd, if_neg hother]

/-- **`init_sigcounter` starts the account anew.** -/
theorem initSigcounter_accounts {exchanged : List Nat} {w w' : World a} {current pid : Int}
    (hi : initSigcounter exchanged w current pid = some w') :
    Accounts w (Counters.clearing w pid) w' := by
  unfold initSigcounter at hi
  unfold Counters.clearing
  cases hp : w.kernel.pids pid with
  | none => rw [hp] at hi; cases hi
  | some p =>
    rw [hp] at hi
    dsimp only at hi ⊢
    rw [lockTaskSighand_eq] at hi
    cases hd : (w.task p).sighand with
    | none =>
      have hk : (w.kernel.task p).sighand = none := hd
      rw [hk] at hi
      cases hi
    | some d =>
      have hk : (w.kernel.task p).sighand = some d := hd
      rw [hk] at hi
      obtain rfl := Option.some.inj hi
      refine accounts_singleton_iff.mpr fun d' s _ hs => ?_
      show Function.update w.counters d _ d' s = _
      rw [Function.update_apply]
      by_cases hd' : d' = d
      · subst hd'
        rw [if_pos rfl, if_pos rfl, if_pos (by omega)]
      · rw [if_neg hd', if_neg (by simpa using Ne.symm hd')]
        rfl

theorem getSigcounter_eq (exchanged : List Nat) {w : World a} {current d : Nat}
    (hd : (w.task current).sighand = some d) (signumber : Nat) :
    ∃ w', getSigcounter exchanged w current signumber = some (w', w.counters d signumber) := by
  have hk : (w.kernel.task current).sighand = some d := hd
  unfold getSigcounter
  rw [lockTaskSighand_eq, hk]
  exact ⟨_, rfl⟩

/-! ### Whole runs -/

namespace Counters

variable (x : Extern a) (h : Headers a)

def Accounted (_ : List Mark) (w : World a) (b : Act) : Prop :=
  ∀ w' ms, step x h w b = some (w', ms) → Accounts w ms w'

def Act.Counted (_ : List Mark) (w : World a) : Act → Prop
  | .init _ _ _ => True
  | .signal c => c.Counted h w

theorem step_accounts_iff {b : Act} {w w' : World a} {ms : List Mark}
    (hs : step x h w b = some (w', ms)) : Accounts w ms w' ↔ b.Counted h [] w := by
  cases b with
  | init exchanged current pid =>
    obtain ⟨v, hv, hs⟩ := Option.map_eq_some_iff.mp hs
    obtain ⟨rfl, rfl⟩ := Prod.mk.inj hs
    exact iff_of_true (initSigcounter_accounts hv) trivial
  | signal c => exact Call.accounts_iff x h hs

/-- **A run in which every signal is counted has the right account.** -/
theorem accounts_of_run {w₀ w : World a} {as : List Act} {ms : List Mark}
    (hr : Run (step x h) w₀ as ms w)
    (hg : AllSteps (step x h) w₀ (fun es w b => b.Counted h es w) as) : Accounts w₀ ms w :=
  hr.inv_of_guard (I := fun es w => Accounts w₀ es w) hg (accounts_nil_iff.mpr fun _ _ _ _ => rfl)
    fun hI hb hs => hI.trans ((step_accounts_iff x h hs).mpr hb)

theorem accounted_iff {w₀ w : World a} {as : List Act} {ms : List Mark}
    (hr : Run (step x h) w₀ as ms w) :
    AllSteps (step x h) w₀ (Accounted x h) as ↔
      AllSteps (step x h) w₀ (fun es w b => b.Counted h es w) as := by
  refine allSteps_iff (I := fun _ _ => True) hr trivial (fun _ _ _ => trivial) fun _ hs => ?_
  rw [Accounted, hs]
  constructor
  · intro hall
    exact (step_accounts_iff x h hs).mp (hall _ _ rfl)
  · intro hb w' ms he
    obtain ⟨rfl, rfl⟩ := Prod.mk.inj (Option.some.inj he)
    exact (step_accounts_iff x h hs).mpr hb

/-- **When the account is right**: exactly when everything is sent by
`do_send_sig_info`, and nothing fails there for want of memory.  The counter of a
signal is then how often it was sent since the last `init_sigcounter`. -/
theorem counters_account_iff {w₀ w : World a} {as : List Act} {ms : List Mark}
    (hr : Run (step x h) w₀ as ms w) :
    (AllSteps (step x h) w₀ (Accounted x h) as ↔
        AllSteps (step x h) w₀ (fun es w b => b.Counted h es w) as) ∧
      (AllSteps (step x h) w₀ (fun es w b => b.Counted h es w) as →
        ∀ exchanged current d s, (w.task current).sighand = some d → .cleared d ∈ ms → 1 ≤ s →
          s ≤ 63 → ∃ w', getSigcounter exchanged w current s =
            some (w', BitVec.ofNat 32 (sinceInit d s ms))) := by
  refine ⟨accounted_iff x h hr, fun hg exchanged current d s hd hc h1 h63 => ?_⟩
  obtain ⟨w', hget⟩ := getSigcounter_eq exchanged hd s
  have hzero : 0 + BitVec.ofNat 32 (sinceInit d s ms) = BitVec.ofNat 32 (sinceInit d s ms) :=
    BitVec.zero_add _
  rw [accounts_of_run x h hr hg d s h1 h63, if_pos hc, hzero] at hget
  exact ⟨w', hget⟩

instance : DecidablePred (Act.Counted h ms w) := fun b => by
  cases b with
  | init => exact inferInstanceAs (Decidable True)
  | signal c => exact inferInstanceAs (Decidable (c.Counted h w))

/-- A process with one thread, at pid 7. -/
def oneProcess : World .oneWord := .ofKernel (oneTask (sleeper .oneWord))

/-- `SIGINT` three times, twice of them after the `init_sigcounter`. -/
theorem counters_account_kill :
    ∃ ms w, Run (step (Extern.simplest .oneWord) (Headers.x86 .oneWord)) oneProcess
        [.signal (.doSendSigInfo [] true false SIGINT .noinfo 0 true), .init [] 0 7,
          .signal (.doSendSigInfo [] true false SIGINT .noinfo 0 true),
          .signal (.doSendSigInfo [] true false SIGINT .priv 0 false)] ms w ∧
      ∃ w', getSigcounter [] w 0 2 = some (w', 2) := by
  obtain ⟨ms, w, hr, hd, hclear, hsent⟩ := exists_run
    (step (Extern.simplest .oneWord) (Headers.x86 .oneWord)) oneProcess
    [.signal (.doSendSigInfo [] true false SIGINT .noinfo 0 true), .init [] 0 7,
      .signal (.doSendSigInfo [] true false SIGINT .noinfo 0 true),
      .signal (.doSendSigInfo [] true false SIGINT .priv 0 false)]
    (fun ms w => (w.task 0).sighand = some 0 ∧ .cleared 0 ∈ ms ∧ sinceInit 0 2 ms = 2)
    (by decide +kernel)
  obtain ⟨w', hget⟩ := (counters_account_iff _ _ hr).2 (allSteps_of_check (by decide +kernel)) []
    0 0 2 hd hclear (by decide) (by decide)
  rw [hsent] at hget
  exact ⟨ms, w, hr, w', hget⟩

/-- A `SIGSEGV` after a page fault, by `force_sig_info`, is not counted. -/
theorem forced_uncounted :
    ∃ ms w, Run (step (Extern.simplest .oneWord) (Headers.x86 .oneWord)) oneProcess
        [.init [] 0 7, .signal (.forceSigInfo true false SIGSEGV .priv 0)] ms w ∧
      sinceInit 0 11 ms = 1 ∧ (getSigcounter [] w 0 11).map Prod.snd = some 0 ∧
      ¬ AllSteps (step (Extern.simplest .oneWord) (Headers.x86 .oneWord)) oneProcess
        (Accounted (Extern.simplest .oneWord) (Headers.x86 .oneWord))
        [.init [] 0 7, .signal (.forceSigInfo true false SIGSEGV .priv 0)] := by
  obtain ⟨ms, w, hr, hsent, hget⟩ := exists_run
    (step (Extern.simplest .oneWord) (Headers.x86 .oneWord)) oneProcess
    [.init [] 0 7, .signal (.forceSigInfo true false SIGSEGV .priv 0)]
    (fun ms w => sinceInit 0 11 ms = 1 ∧ (getSigcounter [] w 0 11).map Prod.snd = some 0)
    (by decide +kernel)
  refine ⟨ms, w, hr, hsent, hget, ?_⟩
  rw [accounted_iff _ _ hr]
  exact not_allSteps_of_check (by decide +kernel)

end Counters

/-! ### A send that fails -/

/-- A send that fails changes no counter, and one that succeeds adds one to the counter of
its signal. -/
structure CountedIfSent (w : World a) (sig : Signal) (p : Nat) (r : World a × Int) : Prop where
  failed : r.2 ≠ 0 → r.1.counters = w.counters
  sent : r.2 = 0 → ∃ d, (w.task p).sighand = some d ∧ ∀ d' s, r.1.counters d' s =
    if d' = d ∧ s = sig.num then w.counters d' s + 1 else w.counters d' s

/-- **`do_send_sig_info` counts what it sends and nothing else, unless there is no memory
for a signal that has to be queued.**  It does not look at what `send_signal` answers. -/
theorem doSendSigInfo_counted_iff (x : Extern a) (h : Headers a) (exchanged : List Nat)
    (alloc hidden : Bool) (w : World a) (sig : Signal) (info : Info) (p : Nat) (group : Bool) :
    CountedIfSent w sig p (doSendSigInfo x h exchanged alloc hidden w sig info p group) ↔
      (w.task p).sighand = none ∨
        overflows h w sig p (siFromuser info && hidden) alloc info = false := by
  obtain ⟨w', -, hcounts, heq⟩ := doSendSigInfo_spec x h exchanged alloc hidden w sig info p group
  rw [heq]
  cases hd : (w.task p).sighand with
  | none =>
    refine iff_of_true ⟨fun _ => ?_, fun h0 => ?_⟩ (Or.inl rfl)
    · show w'.counters = w.counters
      rw [hcounts, World.count, hd]
    · rw [if_pos rfl] at h0
      exact absurd (show (-ESRCH : Int) = 0 from h0) (by decide)
  | some d =>
    have hcount : ∀ d' s, w'.counters d' s =
        if d' = d ∧ s = sig.num then w.counters d' s + 1 else w.counters d' s := fun d' s => by
      rw [hcounts, count_apply hd]
      refine if_congr ?_ rfl rfl
      rw [Mark.isSent, Bool.and_eq_true, decide_eq_true_eq, decide_eq_true_eq]
      exact and_congr eq_comm eq_comm
    rw [if_neg (Option.some_ne_none d), or_iff_right (Option.some_ne_none d), ← sendRet_eq_zero]
    constructor
    · intro hc
      by_contra hfail
      have hsame := congrFun (congrFun (hc.failed hfail) d) sig.num
      rw [show w'.counters d sig.num = _ from hcount d sig.num, if_pos ⟨rfl, rfl⟩] at hsame
      simp at hsame
    · intro hsent
      exact ⟨fun hfail => absurd hsent hfail, fun _ => ⟨d, hd, hcount⟩⟩

def realtime : Signal := ⟨34, by decide, by decide⟩

/-- A real-time signal has to be queued, and there is no memory for it. -/
def sendWithoutMemory : World .oneWord × Int :=
  doSendSigInfo (Extern.simplest .oneWord) (Headers.x86 .oneWord) [] false false Counters.oneProcess
    realtime (.real realtime (-1)) 0 true

/-- It fails, and is counted. -/
theorem failed_counted :
    sendWithoutMemory.2 = -EAGAIN ∧ sendWithoutMemory.1.counters 0 34 = 1 ∧
      ¬ CountedIfSent Counters.oneProcess realtime 0 sendWithoutMemory := by
  have hfail : sendWithoutMemory.2 = -EAGAIN := by decide +kernel
  have hcount : sendWithoutMemory.1.counters 0 34 = 1 := by decide +kernel
  refine ⟨hfail, hcount, fun hc => ?_⟩
  have hsame := hc.failed (by rw [hfail]; decide)
  rw [hsame] at hcount
  exact absurd hcount (by decide)

end LinuxKerDev.Signals
