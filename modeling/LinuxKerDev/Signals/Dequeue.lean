import LinuxKerDev.Lib.Run
import LinuxKerDev.Signals.Send
import LinuxKerDev.Signals.Smunch

/-!
# Dequeueing (`signal.c`)

`next_signal`, `collect_signal` and `__dequeue_signal`, for one `struct sigpending`.  The
entries of its list are of any type that has a `siginfo` to each.

A pending signal may have no entry, one, or many.  `collect_signal` takes the first entry
off, and the bit with it unless there is a second one; a signal without an entry gives up
its bit at once.  `due` is what is still to be returned of a signal, and every call takes
the first of it (`step_due`), whatever `next_signal` picks.  So calls until the answer is 0
return exactly what was due at the start (`drained`).

`smunch` puts in bits without entries.  `smunch_dequeued` is `drained` after a `smunch`.
-/

namespace LinuxKerDev.Signals

open Lib

variable {a : Arch} {β : Type}

/-! ### `next_signal` -/

/-- The signals that the hardware raises, by the numbers the headers have for them. -/
structure Synchronous where
  SIGBUS : Signal
  SIGILL : Signal
  SIGTRAP : Signal
  SIGFPE : Signal

def SYNCHRONOUS_MASK (c : Synchronous) : Sigset a :=
  sigmaskOf [SIGSEGV, c.SIGBUS, c.SIGILL, c.SIGTRAP, c.SIGFPE]

/-- `ffz(~x) + i*_NSIG_BPW + 1` -/
def wordSignal (i : Fin a.nsigWords) (x : BitVec a.nsigBpw) : Option Signal :=
  (WordSet.ffz (~~~x)).map fun b =>
    { num := b.val + i.val * a.nsigBpw + 1
      pos := Nat.le_add_left 1 _
      le := by
        have hword : (i.val + 1) * a.nsigBpw ≤ a.nsigWords * a.nsigBpw :=
          Nat.mul_le_mul_right _ i.isLt
        rw [a.nsig, Nat.add_mul] at hword
        omega }

def Arch.zero (a : Arch) : Fin a.nsigWords := ⟨0, by cases a <;> decide⟩

/-- `next_signal`, with `none` for 0.  The `switch` only unrolls its `default` loop. -/
def nextSignal (c : Synchronous) (pending mask : Sigset a) : Option Signal :=
  let x := pending.diff mask
  let sync := x a.zero &&& SYNCHRONOUS_MASK c a.zero
  if x a.zero ≠ 0 then wordSignal a.zero (if sync ≠ 0 then sync else x a.zero)
  else (((List.finRange a.nsigWords).drop 1).find? fun i => x i ≠ 0).bind fun i =>
    wordSignal i (x i)

/-! ### `collect_signal` -/

structure Siginfo where
  siSigno : Signal
  siErrno : Int
  siCode : Int
  siPid : Int
  siUid : Nat
  deriving DecidableEq, Repr

structure Sigpending (a : Arch) (β : Type) where
  signal : Sigset a
  list : List β

/-- What a call returns of a signal, with the entry it has freed. -/
structure Dequeued (β : Type) where
  sig : Signal
  info : Siginfo
  freed : Option β
  deriving DecidableEq, Repr

/-- The `info` of a signal that has no entry. -/
def zeroedInfo (sig : Signal) : Siginfo := ⟨sig, 0, SI_USER, 0, 0⟩

section

variable (info : β → Siginfo)

/-- The loop over the list: the first entry of the signal, and whether there is another. -/
def firstEntry (sig : Signal) (first : Option β) : List β → Option β × Bool
  | [] => (first, false)
  | q :: list =>
    if (info q).siSigno = sig then
      match first with
      | some first => (some first, true)
      | none => firstEntry sig (some q) list
    else firstEntry sig first list

def collectSignal (sig : Signal) (p : Sigpending a β) : Sigpending a β × Dequeued β :=
  let (first, stillPending) := firstEntry info sig none p.list
  let p := if stillPending = true then p else { p with signal := sigdelset p.signal sig }
  match first with
  | some q =>
    ({ p with list := p.list.eraseP fun q => (info q).siSigno = sig }, ⟨sig, info q, some q⟩)
  | none => (p, ⟨sig, zeroedInfo sig, none⟩)

/-! ### `__dequeue_signal` -/

/-- `current->notifier`, by the signals it is asked about and its answer. -/
structure Notifier (a : Arch) where
  mask : Sigset a
  answer : Bool

/-- The notifier keeps the signal from being acted upon. -/
def heldBack (notifier : Option (Notifier a)) (sig : Signal) : Bool :=
  match notifier with
  | none => false
  | some n => sigismember n.mask sig && !n.answer

inductive Answer (β : Type)
  /-- return 0 -/
  | nothing
  /-- clear `TIF_SIGPENDING` and return 0 -/
  | held
  /-- return the signal -/
  | dequeued (d : Dequeued β)

def dequeueSignal₀ (c : Synchronous) (notifier : Option (Notifier a)) (mask : Sigset a)
    (p : Sigpending a β) : Sigpending a β × Answer β :=
  match nextSignal c p.signal mask with
  | none => (p, .nothing)
  | some sig =>
    if heldBack notifier sig = true then (p, .held)
    else
      let (p, d) := collectSignal info sig p
      (p, .dequeued d)

/-- One call after the other, until one answers 0. -/
def dequeueStep (c : Synchronous) (notifier : Option (Notifier a)) (mask : Sigset a) :
    Step (Sigpending a β) Unit (Dequeued β) := fun p _ =>
  match dequeueSignal₀ info c notifier mask p with
  | (p, .dequeued d) => some (p, [d])
  | (_, .nothing) => none
  | (_, .held) => none

def entries (list : List β) (sig : Signal) : List β :=
  list.filter fun q => (info q).siSigno = sig

/-- Every entry's signal has its bit. -/
def Consistent (p : Sigpending a β) : Prop :=
  ∀ q ∈ p.list, sigismember p.signal (info q).siSigno = true

end

/-! ### What `next_signal` picks -/

theorem wordSignal_spec {s : Sigset a} {i : Fin a.nsigWords} {x : BitVec a.nsigBpw} (hx : x ≠ 0)
    (hs : ∀ b, x.getLsbD b = true → (s i).getLsbD b = true) :
    ∃ sig, wordSignal i x = some sig ∧ sigismember s sig = true := by
  obtain ⟨b, hb, hbit⟩ := WordSet.ffz_not hx
  refine ⟨_, by rw [wordSignal, hb, Option.map_some], ?_⟩
  rw [sigismember_eq]
  show s.mem (b.val + i.val * a.nsigBpw + 1 - 1) = true
  rw [Nat.add_sub_cancel, Nat.add_comm, WordSet.mem_word s i b.isLt]
  exact hs b hbit

theorem mem_drop_one : ∀ i : Fin a.nsigWords, i ≠ a.zero →
    i ∈ (List.finRange a.nsigWords).drop 1 := by
  cases a with
  | oneWord => decide
  | twoWords => decide

section

variable (c : Synchronous) (pending mask : Sigset a)

/-- **`next_signal` finds a signal that is pending and not masked, if there is one.** -/
theorem nextSignal_spec :
    (∃ sig, nextSignal c pending mask = some sig ∧
        sigismember pending sig = true ∧ sigismember mask sig = false) ∨
      nextSignal c pending mask = none ∧
        ∀ s, ¬ (sigismember pending s = true ∧ sigismember mask s = false) := by
  unfold nextSignal
  by_cases hx : (pending.diff mask) a.zero ≠ 0
  · left
    simp only [if_pos hx, ← sigismember_diff]
    split
    · next hsync =>
      refine wordSignal_spec hsync fun b hb => ?_
      rw [BitVec.getLsbD_and, Bool.and_eq_true] at hb
      exact hb.1
    · exact wordSignal_spec hx fun _ => id
  · simp only [if_neg hx, ← sigismember_diff]
    cases hf : ((List.finRange a.nsigWords).drop 1).find? fun i => pending.diff mask i ≠ 0 with
    | some i =>
      left
      have hi := List.find?_some hf
      exact wordSignal_spec (of_decide_eq_true hi) fun _ => id
    | none =>
      right
      refine ⟨rfl, fun s hs => ?_⟩
      -- every word is zero: the first one, and those of the loop
      obtain ⟨i, hi⟩ := (WordSet.exists_word_ne_zero _).mpr ⟨s.num - 1, hs⟩
      by_cases h0 : i = a.zero
      · exact hx (h0 ▸ hi)
      · exact List.find?_eq_none.mp hf i (mem_drop_one i h0) (decide_eq_true hi)

end

/-! ### What `collect_signal` takes -/

section

variable (info : β → Siginfo) (sig : Signal) (p : Sigpending a β)

theorem firstEntry_some (q : β) (list : List β) :
    firstEntry info sig (some q) list = (some q, !(entries info list sig).isEmpty) := by
  induction list with
  | nil => rfl
  | cons q' list ih =>
    rw [firstEntry, entries, List.filter_cons]
    by_cases hq : (info q').siSigno = sig
    · rw [if_pos hq, if_pos (decide_eq_true hq)]
      rfl
    · rw [if_neg hq, if_neg (by simpa using hq), ih, entries]

/-- **The loop finds the first entry and looks for a second one.** -/
theorem firstEntry_none (list : List β) :
    firstEntry info sig none list =
      ((entries info list sig).head?, !(entries info list sig).tail.isEmpty) := by
  induction list with
  | nil => rfl
  | cons q list ih =>
    rw [firstEntry, entries, List.filter_cons]
    by_cases hq : (info q).siSigno = sig
    · rw [if_pos hq, if_pos (decide_eq_true hq)]
      exact firstEntry_some info sig q list
    · rw [if_neg hq, if_neg (by simpa using hq), ih, entries]

theorem split_of_entries {list : List β} {q : β} {rest : List β}
    (he : entries info list sig = q :: rest) :
    ∃ l₁ l₂, list = l₁ ++ q :: l₂ ∧
      (list.eraseP fun q => (info q).siSigno = sig) = l₁ ++ l₂ ∧
      entries info l₁ sig = [] ∧ (info q).siSigno = sig ∧ entries info l₂ sig = rest := by
  obtain ⟨l₁, l₂, rfl, hnone, hq, hrest⟩ := List.filter_eq_cons_iff.mp he
  refine ⟨l₁, l₂, rfl, ?_, List.filter_eq_nil_iff.mpr hnone, of_decide_eq_true hq, hrest⟩
  rw [List.eraseP_append_right _ hnone]
  exact congrArg (l₁ ++ ·) (List.eraseP_cons_of_pos (p := fun q => (info q).siSigno = sig) hq)

theorem collectSignal_cases :
    (entries info p.list sig = [] ∧
      collectSignal info sig p =
        ({ p with signal := sigdelset p.signal sig }, ⟨sig, zeroedInfo sig, none⟩)) ∨
    ∃ q rest, entries info p.list sig = q :: rest ∧
      collectSignal info sig p =
        (⟨if rest.isEmpty = true then sigdelset p.signal sig else p.signal,
          p.list.eraseP fun q => (info q).siSigno = sig⟩, ⟨sig, info q, some q⟩) := by
  rw [collectSignal, firstEntry_none]
  cases he : entries info p.list sig with
  | nil => exact Or.inl ⟨rfl, rfl⟩
  | cons q rest =>
    refine Or.inr ⟨q, rest, rfl, ?_⟩
    cases rest with
    | nil => rfl
    | cons q' rest => rfl

theorem sigismember_sigdelset (set : Sigset a) (s : Signal) :
    sigismember (sigdelset set sig) s = true ↔ s ≠ sig ∧ sigismember set s = true := by
  have heq : sigdelset set sig = set.erase (sig.num - 1) := rfl
  rw [sigismember_eq, sigismember_eq, heq, WordSet.mem_erase set (sig.lt a), Bool.and_eq_true,
    Bool.not_eq_true', decide_eq_false_iff_not, Signal.sub_one_inj]

/-- The bit goes with the last entry. -/
theorem collectSignal_signal (s : Signal) :
    sigismember (collectSignal info sig p).1.signal s = true ↔
      sigismember p.signal s = true ∧ (s = sig → (entries info p.list sig).tail ≠ []) := by
  rcases collectSignal_cases info sig p with ⟨he, heq⟩ | ⟨q, rest, he, heq⟩
  · rw [heq, he, sigismember_sigdelset, and_comm]
    exact and_congr_right fun _ => ⟨fun hne h => absurd h hne, fun h hs => h hs rfl⟩
  · rw [heq, he, List.tail_cons]
    cases rest with
    | nil =>
      rw [List.isEmpty_nil, if_pos rfl, sigismember_sigdelset, and_comm]
      exact and_congr_right fun _ => ⟨fun hne h => absurd h hne, fun h hs => h hs rfl⟩
    | cons q' rest =>
      rw [List.isEmpty_cons, if_neg (by decide)]
      exact (and_iff_left fun _ => List.cons_ne_nil _ _).symm

theorem collectSignal_entries (s : Signal) :
    entries info (collectSignal info sig p).1.list s =
      if s = sig then (entries info p.list sig).tail else entries info p.list s := by
  rcases collectSignal_cases info sig p with ⟨he, heq⟩ | ⟨q, rest, he, heq⟩
  · rw [heq, he]
    split
    · next hs => rw [hs, he, List.tail_nil]
    · rfl
  · obtain ⟨l₁, l₂, hlist, herase, hnone, hq, hrest⟩ := split_of_entries info sig he
    rw [heq, he, List.tail_cons, herase, hlist]
    simp only [entries, List.filter_append, List.filter_cons] at hnone hrest ⊢
    split
    · next hs => rw [hs, hnone, hrest, List.nil_append]
    · next hs => rw [if_neg (by simpa [hq] using Ne.symm hs)]

theorem collectSignal_perm :
    ((collectSignal info sig p).2.freed.toList ++ (collectSignal info sig p).1.list).Perm
      p.list := by
  rcases collectSignal_cases info sig p with ⟨-, heq⟩ | ⟨q, rest, he, heq⟩
  · rw [heq]
    exact .refl _
  · obtain ⟨l₁, l₂, hlist, herase, -⟩ := split_of_entries info sig he
    rw [heq, herase, hlist]
    show (q :: (l₁ ++ l₂)).Perm (l₁ ++ q :: l₂)
    exact List.perm_middle.symm

end

/-! ### One call after the other -/

section

variable (info : β → Siginfo) (mask : Sigset a)

/-- What is still to be returned of a signal. -/
def due (p : Sigpending a β) (s : Signal) : List Siginfo :=
  if sigismember p.signal s = true ∧ sigismember mask s = false then
    if (entries info p.list s).isEmpty = true then [zeroedInfo s]
    else (entries info p.list s).map info
  else []

/-- Bits not masked, and entries: every call takes one of the two. -/
def outstanding (p : Sigpending a β) : Nat :=
  WordSet.card (p.signal.diff mask) + p.list.length

variable {info mask} {c : Synchronous} {p p' q : Sigpending a β} {ds : List (Dequeued β)}

theorem dequeueStep_cases {u : Unit} (hf : dequeueStep info c none mask p u = some (p', ds)) :
    ∃ sig, sigismember p.signal sig = true ∧ sigismember mask sig = false ∧
      p' = (collectSignal info sig p).1 ∧ ds = [(collectSignal info sig p).2] := by
  rcases nextSignal_spec c p.signal mask with ⟨sig, hn, hp, hm⟩ | ⟨hn, -⟩
  · simp only [dequeueStep, dequeueSignal₀, hn, heldBack] at hf
    obtain ⟨rfl, rfl⟩ := Prod.mk.inj (Option.some.inj hf)
    exact ⟨sig, hp, hm, rfl, rfl⟩
  · simp only [dequeueStep, dequeueSignal₀, hn] at hf
    cases hf

/-- It answers 0 only when no signal is left that is not masked. -/
theorem dequeueStep_none (hf : dequeueStep info c none mask p () = none) (s : Signal)
    (hm : sigismember mask s = false) : sigismember p.signal s = false := by
  rcases nextSignal_spec c p.signal mask with ⟨sig, hn, -⟩ | ⟨-, hno⟩
  · simp only [dequeueStep, dequeueSignal₀, hn, heldBack] at hf
    cases hf
  · exact Bool.eq_false_iff.mpr fun hp => hno s ⟨hp, hm⟩

theorem outstanding_lt {u : Unit} (hf : dequeueStep info c none mask p u = some (p', ds)) :
    outstanding mask p' < outstanding mask p := by
  obtain ⟨sig, hp, hm, rfl, -⟩ := dequeueStep_cases hf
  have hkept : ∀ s, sigismember ((collectSignal info sig p).1.signal.diff mask) s = true →
      sigismember (p.signal.diff mask) s = true := by
    intro s hs
    rw [sigismember_diff, collectSignal_signal] at hs
    exact (sigismember_diff _ _ _).mpr ⟨hs.1.1, hs.2⟩
  have hcard := WordSet.card_le_card (Sigset.toSet_subset hkept)
  have hlength := (collectSignal_perm info sig p).length_eq
  rw [List.length_append] at hlength
  unfold outstanding
  rcases collectSignal_cases info sig p with ⟨he, heq⟩ | ⟨q, rest, -, heq⟩
  · -- no entry: the bit goes
    have hold : sigismember (p.signal.diff mask) sig = true :=
      (sigismember_diff _ _ _).mpr ⟨hp, hm⟩
    have hnew : sigismember ((collectSignal info sig p).1.signal.diff mask) sig = false := by
      refine Bool.eq_false_iff.mpr fun hs => ?_
      rw [sigismember_diff, collectSignal_signal, he] at hs
      exact hs.1.2 rfl rfl
    have hfewer := WordSet.card_lt_card (Sigset.toSet_subset hkept) hnew hold
    omega
  · have hfreed : (collectSignal info sig p).2.freed.toList.length = 1 := by rw [heq]; rfl
    omega

theorem due_off {s : Signal} (hoff : ¬ sigismember p.signal s = true) : due info mask p s = [] :=
  if_neg fun h => hoff h.1

theorem due_bare {s : Signal} (hp : sigismember p.signal s = true)
    (hm : sigismember mask s = false) (he : entries info p.list s = []) :
    due info mask p s = [zeroedInfo s] := by
  rw [due, if_pos ⟨hp, hm⟩, he]
  rfl

theorem due_entries {s : Signal} (hp : sigismember p.signal s = true)
    (hm : sigismember mask s = false) {q : β} {rest : List β}
    (he : entries info p.list s = q :: rest) :
    due info mask p s = info q :: rest.map info := by
  rw [due, if_pos ⟨hp, hm⟩, he]
  rfl

theorem due_of_iff {s : Signal}
    (hs : sigismember p'.signal s = true ↔ sigismember p.signal s = true)
    (he : entries info p'.list s = entries info p.list s) :
    due info mask p' s = due info mask p s := by
  rw [due, due, he]
  exact if_congr (and_congr_left fun _ => hs) rfl rfl

/-- **A call takes the first of what is due of one signal**, and nothing of the others. -/
theorem step_due {u : Unit} (hf : dequeueStep info c none mask p u = some (p', ds)) (s : Signal) :
    due info mask p s =
      ((ds.filter fun d => d.sig = s).map Dequeued.info) ++ due info mask p' s := by
  obtain ⟨sig, hp, hm, rfl, rfl⟩ := dequeueStep_cases hf
  have hsig : (collectSignal info sig p).2.sig = sig := by
    rcases collectSignal_cases info sig p with ⟨-, heq⟩ | ⟨q, rest, -, heq⟩
    · rw [heq]
    · rw [heq]
  have hsignal := collectSignal_signal info sig p s
  have hentries := collectSignal_entries info sig p s
  rw [List.filter_cons, List.filter_nil, hsig]
  by_cases hs : s = sig
  · subst hs
    rw [if_pos (decide_eq_true rfl), List.map_cons, List.map_nil, List.singleton_append]
    rw [if_pos rfl] at hentries
    rcases collectSignal_cases info s p with ⟨he, heq⟩ | ⟨q, rest, he, heq⟩
    · have hinfo : (collectSignal info s p).2.info = zeroedInfo s := by rw [heq]
      rw [he, List.tail_nil] at hsignal
      rw [due_bare hp hm he, hinfo, due_off fun h => (hsignal.mp h).2 rfl rfl]
    · have hinfo : (collectSignal info s p).2.info = info q := by rw [heq]
      rw [he, List.tail_cons] at hsignal hentries
      rw [due_entries hp hm he, hinfo]
      cases rest with
      | nil => rw [due_off fun h => (hsignal.mp h).2 rfl rfl, List.map_nil]
      | cons q' rest =>
        have hon := hsignal.mpr ⟨hp, fun _ => List.cons_ne_nil q' rest⟩
        rw [due_entries hon hm hentries, List.map_cons]
  · rw [if_neg (by simpa using Ne.symm hs), List.map_nil, List.nil_append]
    refine (due_of_iff ?_ ?_).symm
    · exact hsignal.trans (and_iff_left fun h => absurd h hs)
    · rw [hentries, if_neg hs]

theorem Consistent.step {u : Unit} (hc : Consistent info p)
    (hf : dequeueStep info c none mask p u = some (p', ds)) : Consistent info p' := by
  obtain ⟨sig, -, -, rfl, -⟩ := dequeueStep_cases hf
  intro q hq
  have hmem : q ∈ p.list :=
    (collectSignal_perm info sig p).subset (List.mem_append_right _ hq)
  refine (collectSignal_signal info sig p _).mpr ⟨hc q hmem, fun hs hnil => ?_⟩
  -- the entry is one of the signal's others
  have hin : q ∈ entries info (collectSignal info sig p).1.list sig :=
    List.mem_filter.mpr ⟨hq, decide_eq_true hs⟩
  rw [collectSignal_entries, if_pos rfl, hnil] at hin
  cases hin

/-- The `info` is the freed entry's, or the zeroed one. -/
def Dequeued.Filled (info : β → Siginfo) (d : Dequeued β) : Prop :=
  match d.freed with
  | some q => d.info = info q ∧ (info q).siSigno = d.sig
  | none => d.info = zeroedInfo d.sig

theorem collectSignal_filled (sig : Signal) : (collectSignal info sig p).2.Filled info := by
  rcases collectSignal_cases info sig p with ⟨-, heq⟩ | ⟨q, rest, he, heq⟩
  · rw [heq]
    exact rfl
  · obtain ⟨-, -, -, -, -, hq, -⟩ := split_of_entries info sig he
    rw [heq]
    exact ⟨rfl, hq⟩

/-- What is known after any number of calls. -/
structure Draining (info : β → Siginfo) (mask : Sigset a) (p : Sigpending a β)
    (ds : List (Dequeued β)) (q : Sigpending a β) : Prop where
  due : ∀ s, due info mask p s =
    ((ds.filter fun d => d.sig = s).map Dequeued.info) ++ due info mask q s
  freed : (ds.filterMap Dequeued.freed ++ q.list).Perm p.list
  filled : ∀ d ∈ ds, d.Filled info
  masked : ∀ s, sigismember mask s = true →
    (sigismember q.signal s = true ↔ sigismember p.signal s = true)
  consistent : Consistent info q

theorem Draining.step {u : Unit} (hd : Draining info mask p ds q)
    {ds' : List (Dequeued β)} (hf : dequeueStep info c none mask q u = some (p', ds')) :
    Draining info mask p (ds ++ ds') p' := by
  have hdue := step_due hf
  have hconsistent := hd.consistent.step hf
  obtain ⟨sig, hp, hm, rfl, rfl⟩ := dequeueStep_cases hf
  refine ⟨fun s => ?_, ?_, ?_, fun s hs => ?_, hconsistent⟩
  · rw [hd.due s, hdue s, List.filter_append, List.map_append, List.append_assoc]
  · rw [List.filterMap_append, List.append_assoc]
    refine (List.Perm.append_left _ ?_).trans hd.freed
    have hone : [(collectSignal info sig q).2].filterMap Dequeued.freed =
        (collectSignal info sig q).2.freed.toList := by
      cases hfreed : (collectSignal info sig q).2.freed with
      | none => rw [List.filterMap_cons_none hfreed]; rfl
      | some q' => rw [List.filterMap_cons_some hfreed]; rfl
    rw [hone]
    exact collectSignal_perm info sig q
  · intro d hin
    rcases List.mem_append.mp hin with hin | hin
    · exact hd.filled d hin
    · rw [List.mem_singleton.mp hin]
      exact collectSignal_filled sig
  · rw [collectSignal_signal]
    refine (and_iff_left fun heq => ?_).trans (hd.masked s hs)
    rw [heq, hm] at hs
    cases hs

/-- What calls until the answer is 0 come to, where `sigs` are the signals pending at the
start and `list` is the list. -/
structure Drained (info : β → Siginfo) (mask : Sigset a) (sigs : Signal → Bool) (list : List β)
    (ds : List (Dequeued β)) (q : Sigpending a β) : Prop where
  returned : ∀ s, (ds.map Dequeued.sig).count s =
    if sigs s = true ∧ sigismember mask s = false then max 1 (entries info list s).length else 0
  infos : ∀ s, (ds.filter fun d => d.sig = s).map Dequeued.info =
    if sigs s = true ∧ sigismember mask s = false then
      if (entries info list s).isEmpty = true then [zeroedInfo s]
      else (entries info list s).map info
    else []
  freed : (ds.filterMap Dequeued.freed ++ q.list).Perm list
  filled : ∀ d ∈ ds, d.Filled info
  left : ∀ s, sigismember q.signal s = (sigs s && sigismember mask s)
  consistent : Consistent info q

/-- **Every signal that is not masked is returned once for each of its entries, or once if
it has none**, and then the answer is 0. -/
theorem drained (c : Synchronous) (mask : Sigset a) (hc : Consistent info p) :
    ∃ n ds q, Run (dequeueStep info c none mask) p (List.replicate n ()) ds q ∧
      dequeueStep info c none mask q () = none ∧
      Drained info mask (sigismember p.signal) p.list ds q := by
  obtain ⟨n, ds, q, hr, hend⟩ := exists_run_refused (dequeueStep info c none mask) ()
    (outstanding mask) outstanding_lt p
  have hd : Draining info mask p ds q :=
    hr.inv (I := Draining info mask p) ⟨fun _ => rfl, .refl _, nofun, fun _ _ => Iff.rfl, hc⟩
      fun hd hf => hd.step hf
  have hinfos : ∀ s, (ds.filter fun d => d.sig = s).map Dequeued.info = due info mask p s := by
    intro s
    have hnone : due info mask q s = [] := if_neg fun h => by
      rw [dequeueStep_none hend s h.2] at h
      cases h.1
    rw [hd.due s, hnone, List.append_nil]
  refine ⟨n, ds, q, hr, hend, fun s => ?_, hinfos, hd.freed, hd.filled, fun s => ?_,
    hd.consistent⟩
  · have hcount : (ds.map Dequeued.sig).count s = (due info mask p s).length := by
      rw [← hinfos s, List.length_map, ← List.countP_eq_length_filter, List.count,
        List.countP_map]
      refine List.countP_congr fun d _ => ?_
      simp
    rw [hcount, due]
    split
    · cases entries info p.list s with
      | nil => rfl
      | cons q rest =>
        simp
    · rfl
  · cases hm : sigismember mask s with
    | false => rw [Bool.and_false, dequeueStep_none hend s hm]
    | true =>
      rw [Bool.and_true]
      exact Bool.eq_iff_iff.mpr (hd.masked s hm)

/-! ### After a `smunch` -/

/-- **Signals that `smunch` has posted are dequeued like the queued ones.** -/
theorem smunch_dequeued (x : Extern a) (exchanged : List Nat) {k : Kernel a} {pid : Int} {t : Nat}
    (hsingle : Single k pid t) (hlive : (k.task t).exited = false) {bitPattern : BitVec 64}
    (hk : inPattern bitPattern SIGKILL = false) {list : List β}
    (hc : Consistent info ⟨(k.task t).pending, list⟩) (c : Synchronous) (mask : Sigset a) :
    ∃ n ds q,
      Run (dequeueStep info c none mask)
        ⟨((RW.smunch x exchanged k pid bitPattern).1.task t).pending, list⟩
        (List.replicate n ()) ds q ∧
      dequeueStep info c none mask q () = none ∧
      Drained info mask (fun s => sigismember (k.task t).pending s || inPattern bitPattern s) list
        ds q := by
  obtain ⟨k', -, htask, -, heq⟩ := smunchOf_handled RW.ignored x exchanged bitPattern hsingle
    (branch_posted x hsingle.alone ((killBit_eq bitPattern).trans hk) (RW.ignored_of_live hlive))
  have hposted : ∀ s, sigismember ((RW.smunch x exchanged k pid bitPattern).1.task t).pending s =
      (sigismember (k.task t).pending s || inPattern bitPattern s) := by
    intro s
    rw [RW.smunch, heq, htask, Function.update_self, Bool.eq_iff_iff, Bool.or_eq_true]
    exact (posted_signalWakeUp x (k.task t) bitPattern).pending s
  have hc' : Consistent info
      ⟨((RW.smunch x exchanged k pid bitPattern).1.task t).pending, list⟩ := by
    intro q hq
    have hold : sigismember (k.task t).pending (info q).siSigno = true := hc q hq
    rw [hposted, hold, Bool.true_or]
  rw [← funext hposted]
  exact drained c mask hc'

end

def interrupted : Sigpending .oneWord Siginfo :=
  ⟨sigmask SIGINT, [⟨SIGINT, 0, SI_USER, 7, 0⟩, ⟨SIGINT, 4, -1, 8, 0⟩]⟩

/-- The sleeper with these signals pending, under the pid 7. -/
def interruptedTask : Kernel .oneWord :=
  oneTask { sleeper .oneWord with pending := interrupted.signal }

/-- `smunch` posts `SIGINT` and `SIGSEGV` to it. -/
theorem smunch_dequeued_interrupted :
    ∃ n ds q,
      Run (dequeueStep id ⟨⟨7, by decide, by decide⟩, ⟨4, by decide, by decide⟩,
          ⟨5, by decide, by decide⟩, ⟨8, by decide, by decide⟩⟩ none fun _ => 0)
        ⟨((RW.smunch (Extern.simplest .oneWord) [3] interruptedTask 7
          (2#64 ||| 1#64 <<< 10)).1.task 0).pending, interrupted.list⟩
        (List.replicate n ()) ds q ∧
      (ds.map Dequeued.sig).count SIGINT = 2 ∧ (ds.map Dequeued.sig).count SIGSEGV = 1 := by
  have hsingle : Single interruptedTask 7 0 := ⟨rfl, nofun, rfl⟩
  have hk : inPattern (2#64 ||| 1#64 <<< 10) SIGKILL = false := by decide
  have hc : Consistent id interrupted := by
    intro q hq
    have hint : q.siSigno = SIGINT := by
      rcases List.mem_cons.mp hq with rfl | hq
      · rfl
      · rw [List.mem_singleton.mp hq]
    rw [id, hint]
    decide
  obtain ⟨n, ds, q, hr, -, hd⟩ := smunch_dequeued (Extern.simplest .oneWord) [3] hsingle rfl hk hc
    ⟨⟨7, by decide, by decide⟩, ⟨4, by decide, by decide⟩, ⟨5, by decide, by decide⟩,
      ⟨8, by decide, by decide⟩⟩ fun _ => 0
  exact ⟨n, ds, q, hr, hd.returned SIGINT, hd.returned SIGSEGV⟩

end LinuxKerDev.Signals
