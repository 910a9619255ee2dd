import LinuxKerDev.Signals.Counters

/-!
# The indices into `counters`

`struct sighand_struct` has 64 counters, and three functions index them.
`init_sigcounter` goes up to 65.  `get_sigcounter` takes the number from its caller as it
is.  `do_send_sig_info` uses the signal number, which `valid_signal` has let through on
every way to it (`CounterCall.sends_valid`): that is 64 at most, so only the last signal is out
of range.

A C `int` is a word of 32 bits here.  `CounterCall` is a call that comes to one of the three
functions, with what it finds on its way: a `Target` is a task that a chain of calls comes
to, in the state it is in by then, with what the permission checks answer.
-/

namespace LinuxKerDev.Signals

variable {a : Arch}

def NSIG : Nat := 64

/-- `valid_signal`, of an `int` that is made an `unsigned long` -/
def validSignal (sig : BitVec 32) : Bool := decide ((sig.signExtend 64).toNat ≤ NSIG)

def SI_TKILL : Int := -6

/-! ### The ways to `do_send_sig_info` -/

/-- A task that a chain of calls comes to. -/
structure Target (a : Arch) where
  w : World a
  p : Nat
  permission : Int
  exchanged : List Nat
  alloc : Bool
  hidden : Bool

structure Send (a : Arch) where
  w : World a
  p : Nat
  sig : BitVec 32

namespace CounterCall

section

variable (x : Extern a) (h : Headers a) (sig : BitVec 32) (info : Signal → Info)

def checkKillPermission (t : Target a) : Int :=
  if validSignal sig = false then -EINVAL else t.permission

def sendAnswer (t : Target a) (group : Bool) : Int :=
  if hs : 1 ≤ sig.toNat ∧ sig.toNat ≤ 64 then
    (doSendSigInfo x h t.exchanged t.alloc t.hidden t.w ⟨sig.toNat, hs.1, hs.2⟩
      (info ⟨sig.toNat, hs.1, hs.2⟩) t.p group).2
  else 0

/-- `check_kill_permission` and then `do_send_sig_info`, unless it is the null signal. -/
def checkAndSend (t : Target a) (group : Bool) : List (Send a) × Int :=
  if checkKillPermission sig t = 0 ∧ sig ≠ 0 then
    ([⟨t.w, t.p, sig⟩], sendAnswer x h sig info t group)
  else ([], checkKillPermission sig t)

def groupSendSigInfo (t : Target a) : List (Send a) × Int := checkAndSend x h sig info t true

/-- `kill_pid_info`.  The targets are what `pid_task` finds, each time it looks. -/
def killPidInfo : List (Target a) → List (Send a)
  | [] => []
  | t :: ts =>
    let r := groupSendSigInfo x h sig info t
    if r.2 = -ESRCH then r.1 ++ killPidInfo ts else r.1

/-- `kill_something_info`.  The targets of a `pid` that is not positive are the tasks of
the group, or all tasks. -/
def killSomethingInfo (pid : BitVec 32) (targets : List (Target a)) : List (Send a) :=
  if 0 < pid.toInt then killPidInfo x h sig info targets
  else targets.flatMap fun t => (groupSendSigInfo x h sig info t).1

/-- `do_send_specific`.  A target comes with its thread group. -/
def doSendSpecific (tgid : BitVec 32) : Option (Target a × BitVec 32) → List (Send a)
  | none => []
  | some (t, vnr) =>
    if tgid.toInt ≤ 0 ∨ vnr = tgid then (checkAndSend x h sig info t false).1 else []

def sendBySigInfo (w : World a) (p : Nat) : List (Send a) :=
  if validSignal sig = false then [] else [⟨w, p, sig⟩]

end

end CounterCall

/-! ### The calls -/

/-- A call that may come to one of the three functions. -/
inductive CounterCall (a : Arch)
  | initSigcounter (w : World a) (pid : Int)
  | getSigcounter (w : World a) (current : Nat) (signumber : BitVec 32)
  | kill (pid sig : BitVec 32) (targets : List (Target a))
  | tkill (pid sig : BitVec 32) (target : Option (Target a × BitVec 32))
  | tgkill (tgid pid sig : BitVec 32) (target : Option (Target a × BitVec 32))
  | rtSigqueueinfo (copied : Bool) (siCode : Int) (sig : BitVec 32) (targets : List (Target a))
  | rtTgsigqueueinfo (copied : Bool) (siCode : Int) (tgid pid sig : BitVec 32)
      (target : Option (Target a × BitVec 32))
  | sendSigInfo (sig : BitVec 32) (w : World a) (p : Nat)

namespace CounterCall

def sends (x : Extern a) (h : Headers a) : CounterCall a → List (Send a)
  | initSigcounter _ _ => []
  | getSigcounter _ _ _ => []
  | kill pid sig targets => killSomethingInfo x h sig (.real · SI_USER) pid targets
  | tkill pid sig target =>
    if pid.toInt ≤ 0 then [] else doSendSpecific x h sig (.real · SI_TKILL) 0 target
  | tgkill tgid pid sig target =>
    if pid.toInt ≤ 0 ∨ tgid.toInt ≤ 0 then []
    else doSendSpecific x h sig (.real · SI_TKILL) tgid target
  | rtSigqueueinfo copied siCode sig targets =>
    if copied = false ∨ 0 ≤ siCode ∨ siCode = SI_TKILL then []
    else killPidInfo x h sig (.real · siCode) targets
  | rtTgsigqueueinfo copied siCode tgid pid sig target =>
    if copied = false ∨ pid.toInt ≤ 0 ∨ tgid.toInt ≤ 0 ∨ 0 ≤ siCode ∨ siCode = SI_TKILL then []
    else doSendSpecific x h sig (.real · siCode) tgid target
  | sendSigInfo sig w p => sendBySigInfo sig w p

end CounterCall

/-- The index that `do_send_sig_info` uses, once it has the lock. -/
def Send.indices (s : Send a) : List Int :=
  if (s.w.task s.p).sighand = none then [] else [s.sig.toInt]

namespace CounterCall

def indices (x : Extern a) (h : Headers a) : CounterCall a → List Int
  | initSigcounter w pid =>
    match w.kernel.pids pid with
    | none => []
    | some p => if (w.task p).sighand = none then [] else (List.range 66).map Int.ofNat
  | getSigcounter w current signumber =>
    if (w.task current).sighand = none then [] else [signumber.toInt]
  | e => (e.sends x h).flatMap Send.indices

/-- The indices used on `counters` are those of the array. -/
def InBounds (x : Extern a) (h : Headers a) (e : CounterCall a) : Prop :=
  ∀ i ∈ e.indices x h, 0 ≤ i ∧ i < NSIG

/-- No counters are there to be cleared, the number asked for is below 64, and signal 64
reaches no process. -/
def Fits (x : Extern a) (h : Headers a) : CounterCall a → Prop
  | initSigcounter w pid => ∀ p, w.kernel.pids pid = some p → (w.task p).sighand = none
  | getSigcounter w current signumber =>
    (w.task current).sighand ≠ none → signumber.toNat < NSIG
  | e => ∀ s ∈ e.sends x h, s.sig.toNat = NSIG → (s.w.task s.p).sighand = none

end CounterCall

/-! ### The indices are those of the functions -/

theorem doSendSigInfo_index (x : Extern a) (h : Headers a) (exchanged : List Nat)
    (alloc hidden : Bool) (w : World a) (sig : Signal) (info : Info) (p : Nat) (group : Bool)
    {d i : Nat} (hne : (doSendSigInfo x h exchanged alloc hidden w sig info p group).1.counters d i ≠
      w.counters d i) : Int.ofNat i ∈ Send.indices ⟨w, p, BitVec.ofNat 32 sig.num⟩ := by
  obtain ⟨w', -, hcounts, heq⟩ := doSendSigInfo_spec x h exchanged alloc hidden w sig info p group
  rw [heq] at hne
  change w'.counters d i ≠ w.counters d i at hne
  rw [hcounts] at hne
  unfold Send.indices
  cases hd : (w.task p).sighand with
  | none =>
    rw [World.count, hd] at hne
    exact absurd rfl hne
  | some d' =>
    rw [count_apply hd] at hne
    have hsent : Mark.isSent d i (.sent d' sig) = true := by
      by_contra hn
      rw [if_neg hn] at hne
      exact hne rfl
    rw [Mark.isSent, Bool.and_eq_true, decide_eq_true_eq, decide_eq_true_eq] at hsent
    rw [if_neg (Option.some_ne_none d'), List.mem_singleton, ← hsent.2]
    have hle := sig.le
    have hnat : (BitVec.ofNat 32 sig.num).toNat = sig.num := by
      rw [BitVec.toNat_ofNat]
      omega
    have hint : (BitVec.ofNat 32 sig.num).toInt = sig.num := by
      rw [BitVec.toInt_eq_toNat_cond, if_pos (by omega), hnat]
    exact hint.symm

/-- `init_sigcounter` clears the counters at its indices, and no other one. -/
theorem initSigcounter_index (x : Extern a) (h : Headers a) {exchanged : List Nat} {w w' : World a}
    {current pid : Int} (hi : initSigcounter exchanged w current pid = some w') :
    ∃ d, ∀ d' i, w'.counters d' i =
      if d' = d ∧ Int.ofNat i ∈ (CounterCall.initSigcounter w pid).indices x h then 0
      else w.counters d' i := by
  unfold initSigcounter at hi
  cases hp : w.kernel.pids pid with
  | none =>
    rw [hp] at hi
    cases hi
  | some p =>
    rw [hp] at hi
    dsimp only at hi
    rw [lockTaskSighand_eq] at hi
    cases hd : (w.task p).sighand with
    | none =>
      have hk : (w.kernel.task p).sighand = none := hd
      rw [hk] at hi
      cases hi
    | some d =>
      have hk : (w.kernel.task p).sighand = some d := hd
      rw [hk] at hi
      obtain rfl := Option.some.inj hi
      have hidx : (CounterCall.initSigcounter w pid).indices x h = (List.range 66).map Int.ofNat := by
        unfold CounterCall.indices
        dsimp only
        rw [hp]
        exact if_neg (by rw [hd]; exact Option.some_ne_none d)
      refine ⟨d, fun d' i => ?_⟩
      show Function.update w.counters d _ d' i = _
      rw [Function.update_apply, hidx]
      by_cases hd' : d' = d
      · subst hd'
        simp
      · rw [if_neg hd', if_neg fun hc => hd' hc.1]

/-! ### What is validated -/

/-- **`valid_signal` lets 64 through**, and no negative number. -/
theorem validSignal_iff (sig : BitVec 32) : validSignal sig = true ↔ sig.toNat ≤ NSIG := by
  have hlt := sig.isLt
  have hmsb := sig.msb_eq_decide
  unfold validSignal NSIG
  rw [decide_eq_true_eq, BitVec.toNat_signExtend, BitVec.toNat_setWidth]
  cases hm : sig.msb with
  | true =>
    rw [hm, eq_comm, decide_eq_true_eq] at hmsb
    rw [if_pos rfl]
    omega
  | false =>
    rw [if_neg (by decide)]
    omega

theorem toInt_eq_of_le {sig : BitVec 32} (h : sig.toNat ≤ NSIG) : sig.toInt = sig.toNat := by
  rw [BitVec.toInt_eq_toNat_cond, if_pos]
  simp only [NSIG] at h
  omega

namespace CounterCall

section

variable (x : Extern a) (h : Headers a) {sig : BitVec 32} (info : Signal → Info)

def AllValid (l : List (Send a)) : Prop := ∀ s ∈ l, validSignal s.sig = true

theorem checkAndSend_valid (t : Target a) (group : Bool) :
    AllValid (checkAndSend x h sig info t group).1 := by
  unfold checkAndSend
  split
  · next hc =>
    intro s hs
    obtain rfl := List.mem_singleton.mp hs
    by_contra hv
    rw [checkKillPermission, if_pos (Bool.eq_false_iff.mpr hv)] at hc
    exact absurd hc.1 (by decide)
  · exact fun s hs => absurd hs List.not_mem_nil

theorem killPidInfo_valid (targets : List (Target a)) :
    AllValid (killPidInfo x h sig info targets) := by
  induction targets with
  | nil => exact fun s hs => absurd hs List.not_mem_nil
  | cons t ts ih =>
    have hone : AllValid (checkAndSend x h sig info t true).1 := checkAndSend_valid x h info t true
    rw [killPidInfo]
    split
    · exact fun s hs => (List.mem_append.mp hs).elim (hone s) (ih s)
    · exact hone

theorem killSomethingInfo_valid (pid : BitVec 32) (targets : List (Target a)) :
    AllValid (killSomethingInfo x h sig info pid targets) := by
  unfold killSomethingInfo
  split
  · exact killPidInfo_valid x h info targets
  · intro s hs
    obtain ⟨t, -, hs⟩ := List.mem_flatMap.mp hs
    exact checkAndSend_valid x h info t true s hs

theorem doSendSpecific_valid (tgid : BitVec 32) (target : Option (Target a × BitVec 32)) :
    AllValid (doSendSpecific x h sig info tgid target) := by
  intro s hs
  cases target with
  | none => exact absurd hs List.not_mem_nil
  | some t =>
    rw [doSendSpecific] at hs
    split at hs
    · exact checkAndSend_valid x h info t.1 false s hs
    · exact absurd hs List.not_mem_nil

end

theorem AllValid.refused {p : Prop} [Decidable p] {l : List (Send a)} (hl : AllValid l) :
    AllValid (if p then [] else l) := by
  split
  · exact fun s hs => absurd hs List.not_mem_nil
  · exact hl

/-- **On every way to `do_send_sig_info` the signal is validated.** -/
theorem sends_valid (x : Extern a) (h : Headers a) (c : CounterCall a) : AllValid (c.sends x h) := by
  cases c with
  | initSigcounter w pid => exact fun s hs => absurd hs List.not_mem_nil
  | getSigcounter w current signumber => exact fun s hs => absurd hs List.not_mem_nil
  | kill pid sig targets => exact killSomethingInfo_valid x h _ pid targets
  | tkill pid sig target => exact (doSendSpecific_valid x h _ 0 target).refused
  | tgkill tgid pid sig target => exact (doSendSpecific_valid x h _ tgid target).refused
  | rtSigqueueinfo copied siCode sig targets => exact (killPidInfo_valid x h _ targets).refused
  | rtTgsigqueueinfo copied siCode tgid pid sig target =>
    exact (doSendSpecific_valid x h _ tgid target).refused
  | sendSigInfo sig w p =>
    show AllValid (if validSignal sig = false then [] else _)
    split
    · exact fun s hs => absurd hs List.not_mem_nil
    · next hv =>
      intro s hs
      obtain rfl := List.mem_singleton.mp hs
      simpa using hv

/-! ### In bounds -/

/-- A call of `do_send_sig_info` is out of bounds for signal 64 only. -/
theorem inBounds_send_iff {s : Send a} (hv : validSignal s.sig = true) :
    (∀ i ∈ s.indices, 0 ≤ i ∧ i < NSIG) ↔
      (s.sig.toNat = NSIG → (s.w.task s.p).sighand = none) := by
  have hle := (validSignal_iff s.sig).mp hv
  unfold Send.indices
  split
  · next hd => exact iff_of_true (fun i hi => absurd hi List.not_mem_nil) fun _ => hd
  · next hd =>
    rw [List.forall_mem_singleton, toInt_eq_of_le hle]
    constructor
    · rintro ⟨-, hlt⟩ he
      omega
    · intro hne
      have hlt : s.sig.toNat ≠ NSIG := fun he => hd (hne he)
      omega

theorem inBounds_sends_iff {l : List (Send a)} (hv : AllValid l) :
    (∀ i ∈ l.flatMap Send.indices, 0 ≤ i ∧ i < NSIG) ↔
      ∀ s ∈ l, s.sig.toNat = NSIG → (s.w.task s.p).sighand = none := by
  constructor
  · intro hall s hs
    exact (inBounds_send_iff (hv s hs)).mp fun i hi => hall i (List.mem_flatMap.mpr ⟨s, hs, hi⟩)
  · intro hall i hi
    obtain ⟨s, hs, hi⟩ := List.mem_flatMap.mp hi
    exact (inBounds_send_iff (hv s hs)).mpr (hall s hs) i hi

/-- **Which calls stay inside the array.** -/
theorem inBounds_iff (x : Extern a) (h : Headers a) (c : CounterCall a) :
    c.InBounds x h ↔ c.Fits x h := by
  cases c with
  | initSigcounter w pid =>
    unfold InBounds Fits indices
    dsimp only
    cases hp : w.kernel.pids pid with
    | none => exact iff_of_true (fun i hi => absurd hi List.not_mem_nil) fun p he => by cases he
    | some p =>
      dsimp only
      split
      · next hd =>
        exact iff_of_true (fun i hi => absurd hi List.not_mem_nil)
          fun q he => Option.some.inj he ▸ hd
      · next hd =>
        -- the loop goes up to 65
        refine iff_of_false (fun hall => ?_) fun hall => hd (hall p rfl)
        exact absurd (hall 65 (by decide)).2 (by decide)
  | getSigcounter w current signumber =>
    unfold InBounds Fits indices
    dsimp only
    split
    · next hd => exact iff_of_true (fun i hi => absurd hi List.not_mem_nil) fun hn => absurd hd hn
    · next hd =>
      rw [List.forall_mem_singleton]
      have hlt := signumber.isLt
      have hint := signumber.toInt_eq_toNat_cond
      simp only [NSIG]
      constructor
      · rintro ⟨h0, h64⟩ -
        split at hint
        · omega
        · omega
      · intro h64
        have h64' := h64 hd
        rw [if_pos (by omega)] at hint
        omega
  | kill => exact inBounds_sends_iff (sends_valid x h _)
  | tkill => exact inBounds_sends_iff (sends_valid x h _)
  | tgkill => exact inBounds_sends_iff (sends_valid x h _)
  | rtSigqueueinfo => exact inBounds_sends_iff (sends_valid x h _)
  | rtTgsigqueueinfo => exact inBounds_sends_iff (sends_valid x h _)
  | sendSigInfo => exact inBounds_sends_iff (sends_valid x h _)

end CounterCall

/-- `init_sigcounter` of a process, `get_sigcounter(-1)` and `kill(7, 64)`. -/
theorem out_of_bounds :
    ¬ (CounterCall.initSigcounter Counters.oneProcess 7).InBounds (Extern.simplest .oneWord)
      (Headers.x86 .oneWord) ∧
    ¬ (CounterCall.getSigcounter Counters.oneProcess 0 (-1)).InBounds (Extern.simplest .oneWord)
      (Headers.x86 .oneWord) ∧
    ¬ (CounterCall.kill 7 64 [⟨Counters.oneProcess, 0, 0, [], true, false⟩]).InBounds
      (Extern.simplest .oneWord) (Headers.x86 .oneWord) := by
  refine ⟨fun hall => ?_, fun hall => ?_, fun hall => ?_⟩
  · exact absurd (hall 65 (by decide)).2 (by decide)
  · exact absurd (hall (-1) (by decide)).1 (by decide)
  · exact absurd (hall 64 (by decide +kernel)).2 (by decide)

end LinuxKerDev.Signals
