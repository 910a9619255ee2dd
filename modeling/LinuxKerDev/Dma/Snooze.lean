import LinuxKerDev.Dma.Ring

/-!
# `wait_event_interruptible` in `initiateTransfer`, read by read

In `StartDma.lean` a waiter looks at its condition in one step, and the handler's
`wake_up_interruptible` runs with the update it follows.  Here both are taken apart,
for one submitter.

* The wait is the loop the macro stands for: enqueue on `dma_snooze` and mark the
  task as sleeping (`prepare_to_wait`); read `fill`, `drain`, `fill` again and
  `isFull`, each in a step of its own and without the lock; leave if the condition
  holds, else leave if a signal is pending, else `schedule`.
* The handler updates the ring under the lock, releases the lock, and calls
  `wake_up_interruptible` at some later time.  Any number of handlers may be on
  their way to that call.  Handlers are entered at any time and with any flags,
  whether or not the card has finished a transfer.

The task sleeps only if it is still marked when it comes to `schedule`; a wake-up
takes the mark away.  `no_wakeup_lost` says that this is enough.  A signal ends the
wait with `-ERESTARTSYS`, which `initiateTransfer` does not look at: see
`interrupted_stores`.
-/

namespace LinuxKerDev.Dma.Snooze

open Lib

/-- Where the submitter is.  The wait carries the size, and the two reads that are
compared later; `relock` carries what the wait returned. -/
inductive Pc
  | idle
  | entered
  | enqueue (numBytes : UInt32)
  | readFill (numBytes : UInt32)
  | readDrain (numBytes : UInt32) (fill : Fin BUFFERS)
  | readIndex (numBytes : UInt32)
  | readFull (numBytes : UInt32) (i : Fin BUFFERS)
  | schedule (numBytes : UInt32)
  | asleep (numBytes : UInt32)
  | relock (numBytes : UInt32) (ret : Int)
  | copyOut
  deriving DecidableEq, Repr

/-- What a run shows; `returned` is the result of the `ioctl`. -/
inductive Event
  | submit (size : UInt32)
  | store (numBytes : UInt32)
  | irq
  | handout (addr : UInt64)
  | returned (result : Int)
  deriving DecidableEq, Repr

/-- `sleeping` is the mark of `prepare_to_wait`.  `lock` says whether a handler holds
the lock, and whether that handler will wake the sleepers; `waking` counts the
handlers that have released the lock and are to call `wake_up_interruptible`. -/
structure Sys where
  drv : Kyouko2
  dev : Device
  pc : Pc
  sleeping : Bool
  signalled : Bool
  lock : Option Bool
  waking : Nat

inductive Action
  | startDma (size : UInt32)
  | run
  | irq (flags : UInt32)
  | unlock
  | wakeUp
  | signal
  deriving DecidableEq, Repr

def ERESTARTSYS : Int := 512

namespace Sys

def afterBind (ans : BindAnswers) (k : Kyouko2) : Sys where
  drv := (bindDma ans (k, [])).1
  dev := .fresh
  pc := .idle
  sleeping := false
  signalled := false
  lock := none
  waking := 0

/-- `finish_wait`, and on to the second locked section. -/
def leave (s : Sys) (numBytes : UInt32) (ret : Int) : Sys :=
  { s with sleeping := false, pc := .relock numBytes ret }

/-- The task is woken: it is no longer marked, and goes round the loop if it sleeps. -/
def wake (s : Sys) : Sys :=
  { s with
    sleeping := false
    pc := match s.pc with
      | .asleep n => .enqueue n
      | p => p }

/-- A handler that is in progress will still call `wake_up_interruptible`. -/
def WakeDue (s : Sys) : Prop := s.lock = some true ∨ 0 < s.waking

end Sys

def run (s : Sys) : Option (Sys × List Event) :=
  match s.pc with
  | .idle => none
  | .entered =>
    if s.drv.size ≠ 0 ∧ s.lock ≠ none then none
    else
      match initiateTransfer s.drv s.dev s.drv.size with
      | .done k d =>
        some ({ s with drv := k, dev := d, pc := .copyOut },
          if s.drv.size = 0 then [] else [.store s.drv.size])
      | .suspend => some ({ s with pc := .enqueue s.drv.size }, [])
  | .enqueue n => some ({ s with sleeping := true, pc := .readFill n }, [])
  | .readFill n => some ({ s with pc := .readDrain n s.drv.fill }, [])
  | .readDrain n f =>
    some (if f ≠ s.drv.drain then s.leave n 0 else { s with pc := .readIndex n }, [])
  | .readIndex n => some ({ s with pc := .readFull n s.drv.fill }, [])
  | .readFull n i =>
    some (if (s.drv.dmaBuffer i).isFull = false then s.leave n 0
      else { s with pc := .schedule n }, [])
  | .schedule n =>
    some (if s.signalled = true then s.leave n (-ERESTARTSYS)
      else if s.sleeping = true then { s with pc := .asleep n }
      else { s with pc := .enqueue n }, [])
  | .asleep _ => none
  | .relock n _ =>
    -- whatever the wait has returned
    if s.lock ≠ none then none
    else some ({ s with drv := initiateTransferWoken s.drv n, pc := .copyOut }, [.store n])
  | .copyOut =>
    some ({ s with pc := .idle, signalled := false },
      [.handout (s.drv.userVirtAddr s.drv.fill), .returned 0])

def step (s : Sys) : Action → Option (Sys × List Event)
  | .startDma size =>
    if s.pc = .idle then
      some ({ s with drv := { s.drv with size := size }, pc := .entered }, [.submit size])
    else none
  | .run => run s
  | .irq flags =>
    if flags &&& 0x2 = 0 then some (s, [])
    else if s.lock ≠ none then none
    else
      let r := dmaInterrupt s.drv s.dev.flush flags
      some ({ s with drv := r.1, dev := r.2.1, lock := some r.2.2 }, [.irq])
  | .unlock =>
    match s.lock with
    | none => none
    | some wakes =>
      some ({ s with lock := none, waking := if wakes then s.waking + 1 else s.waking }, [])
  | .wakeUp => if s.waking = 0 then none else some ({ s with waking := s.waking - 1 }.wake, [])
  | .signal => some ({ s with signalled := true }.wake, [])

/-! ### No wake-up is lost -/

/-- The fields of the task and of the handlers say what the ring looks like: the two
reads of `fill` are up to date, a thread past its wait has room, and if the task may
fall asleep, or sleeps, on a condition that holds, a wake-up is due. -/
structure Inv (s : Sys) (q : List UInt32) : Prop where
  rep : s.drv.ring.Represents q
  quiet : s.signalled = false
  first : ∀ n f, s.pc = .readDrain n f → f = s.drv.fill
  index : ∀ n i, s.pc = .readFull n i → i = s.drv.fill
  room : ∀ n r, s.pc = .relock n r → q.length < BUFFERS
  due : ∀ n, s.pc = .schedule n ∧ s.sleeping = true ∨ s.pc = .asleep n →
    waitCondition s.drv → s.WakeDue

theorem Sys.wake_pc (s : Sys) :
    (∃ n, s.wake.pc = .enqueue n) ∨ s.wake.pc = s.pc ∧ ∀ n, s.pc ≠ .asleep n := by
  unfold Sys.wake
  cases s.pc with
  | asleep n => exact Or.inl ⟨n, rfl⟩
  | _ => exact Or.inr ⟨rfl, fun _ h => by cases h⟩

theorem dmaInterrupt_wakes {k : Kyouko2} {flags : UInt32} (hf : flags &&& 0x2 ≠ 0)
    (hc : ¬ waitCondition k) (d : Device) : (dmaInterrupt k d flags).2.2 = true := by
  obtain ⟨hfd, hfull⟩ := not_or.mp hc
  rw [dmaInterrupt_full hf (not_not.mp hfd) (Bool.not_eq_false _ ▸ hfull)]

namespace Inv

variable {s s' : Sys} {q : List UInt32} {es : List Event}

theorem afterBind (ans : BindAnswers) (k : Kyouko2) : Inv (.afterBind ans k) [] where
  rep := .nil rfl fun i => bindDma_isFull ans (k, []) i
  quiet := rfl
  first n f h := by cases h
  index n i h := by cases h
  room n r h := by cases h
  due n h := by rcases h with ⟨h, -⟩ | h <;> cases h

theorem goto (h : Inv s q) {k : Kyouko2} {d : Device} {p : Pc} {q' : List UInt32}
    (hrep : k.ring.Represents q') (hp : p = .idle ∨ p = .entered ∨ p = .copyOut ∨
      ∃ n, p = .enqueue n ∨ p = .readFill n ∨ p = .readIndex n) (b : Bool) :
    Inv { s with drv := k, dev := d, pc := p, sleeping := b } q' where
  rep := hrep
  quiet := h.quiet
  first n f hf := by rcases hp with rfl | rfl | rfl | ⟨n, rfl | rfl | rfl⟩ <;> cases hf
  index n f hf := by rcases hp with rfl | rfl | rfl | ⟨n, rfl | rfl | rfl⟩ <;> cases hf
  room n f hf := by rcases hp with rfl | rfl | rfl | ⟨n, rfl | rfl | rfl⟩ <;> cases hf
  due n hf := by
    rcases hp with rfl | rfl | rfl | ⟨n, rfl | rfl | rfl⟩ <;> rcases hf with ⟨hf, -⟩ | hf <;> cases hf

theorem leave (h : Inv s q) (hroom : q.length < BUFFERS) (n : UInt32) (r : Int) :
    Inv (s.leave n r) q where
  rep := h.rep
  quiet := h.quiet
  first m f hf := by cases hf
  index m f hf := by cases hf
  room m r' _ := hroom
  due m hf := by rcases hf with ⟨hf, -⟩ | hf <;> cases hf

/-- **The submitter's step.**  A task that has found `isFull` set at `fill` has seen a
full ring, so every wake-up for the room that it waits for is still to come. -/
theorem run (h : Inv s q) (hf : Snooze.run s = some (s', es)) : ∃ q', Inv s' q' := by
  unfold Snooze.run at hf
  cases hpc : s.pc with
  | idle => rw [hpc] at hf; cases hf
  | asleep n => rw [hpc] at hf; cases hf
  | entered =>
    rw [hpc] at hf
    dsimp only at hf
    rw [Option.ite_none_left_eq_some] at hf
    obtain ⟨-, hf⟩ := hf
    rw [initiateTransfer] at hf
    by_cases h0 : s.drv.size = 0
    · rw [if_pos h0] at hf
      obtain ⟨rfl, -⟩ := Prod.mk.inj (Option.some.inj hf)
      exact ⟨q, h.goto h.rep (by simp) _⟩
    rw [if_neg h0] at hf
    by_cases hfd : s.drv.fill = s.drv.drain
    · rw [if_pos hfd] at hf
      by_cases hfull : (s.drv.dmaBuffer s.drv.fill).isFull = true
      · rw [if_pos hfull] at hf
        obtain ⟨rfl, -⟩ := Prod.mk.inj (Option.some.inj hf)
        exact ⟨q, h.goto h.rep (by simp) _⟩
      · have hroom := (waitCondition_iff_of_rep h.rep).mp (Or.inr (Bool.eq_false_iff.mpr hfull))
        rw [if_neg hfull] at hf
        obtain ⟨rfl, -⟩ := Prod.mk.inj (Option.some.inj hf)
        exact ⟨_, h.goto (s.drv.ring_store _ ▸ h.rep.push hroom _) (by simp) _⟩
    · have hroom := (waitCondition_iff_of_rep h.rep).mp (Or.inl hfd)
      rw [if_neg hfd] at hf
      obtain ⟨rfl, -⟩ := Prod.mk.inj (Option.some.inj hf)
      exact ⟨_, h.goto (s.drv.ring_store _ ▸ h.rep.push hroom _) (by simp) _⟩
  | enqueue n =>
    rw [hpc] at hf
    obtain ⟨rfl, -⟩ := Prod.mk.inj (Option.some.inj hf)
    exact ⟨q, h.goto h.rep (by simp) _⟩
  | readFill n =>
    rw [hpc] at hf
    obtain ⟨rfl, -⟩ := Prod.mk.inj (Option.some.inj hf)
    refine ⟨q, h.rep, h.quiet, ?_, by simp, by simp, by simp⟩
    rintro m f ⟨⟩
    rfl
  | readDrain n f =>
    have hfill := h.first n f hpc
    rw [hpc] at hf
    obtain ⟨rfl, -⟩ := Prod.mk.inj (Option.some.inj hf)
    by_cases hne : f = s.drv.drain
    · rw [if_neg (not_not.mpr hne)]
      exact ⟨q, h.goto h.rep (by simp) _⟩
    · rw [if_pos hne]
      exact ⟨q, h.leave ((waitCondition_iff_of_rep h.rep).mp (Or.inl (hfill ▸ hne))) n 0⟩
  | readIndex n =>
    rw [hpc] at hf
    obtain ⟨rfl, -⟩ := Prod.mk.inj (Option.some.inj hf)
    refine ⟨q, h.rep, h.quiet, by simp, ?_, by simp, by simp⟩
    rintro m i ⟨⟩
    rfl
  | readFull n i =>
    have hfill := h.index n i hpc
    rw [hpc] at hf
    obtain ⟨rfl, -⟩ := Prod.mk.inj (Option.some.inj hf)
    subst hfill
    by_cases hfull : (s.drv.dmaBuffer s.drv.fill).isFull = false
    · rw [if_pos hfull]
      exact ⟨q, h.leave ((waitCondition_iff_of_rep h.rep).mp (Or.inr hfull)) n 0⟩
    · rw [if_neg hfull]
      have h8 : q.length = BUFFERS := h.rep.full_fill_iff.mp (Bool.not_eq_false _ ▸ hfull)
      refine ⟨q, h.rep, h.quiet, by simp, by simp, by simp, fun _ _ hc => ?_⟩
      exact absurd ((waitCondition_iff_of_rep h.rep).mp hc) (by omega)
  | schedule n =>
    have hdue := h.due n
    rw [hpc] at hf
    obtain ⟨rfl, -⟩ := Prod.mk.inj (Option.some.inj hf)
    rw [if_neg (by simp [h.quiet])]
    split
    · next hs =>
      refine ⟨q, h.rep, h.quiet, by simp, by simp, by simp, fun _ _ hc => ?_⟩
      exact hdue (Or.inl ⟨hpc, hs⟩) hc
    · exact ⟨q, h.goto h.rep (by simp) _⟩
  | relock n r =>
    have hroom := h.room n r hpc
    rw [hpc] at hf
    dsimp only at hf
    rw [Option.ite_none_left_eq_some] at hf
    obtain ⟨rfl, -⟩ := Prod.mk.inj (Option.some.inj hf.2)
    exact ⟨_, h.goto (s.drv.ring_store _ ▸ h.rep.push hroom _) (by simp) _⟩
  | copyOut =>
    rw [hpc] at hf
    obtain ⟨rfl, -⟩ := Prod.mk.inj (Option.some.inj hf)
    refine ⟨q, h.rep, rfl, by simp, by simp, by simp, by simp⟩

/-- **The handler's update.**  It only makes room; where it makes the first, it takes
the branch that wakes. -/
theorem irq (h : Inv s q) {flags : UInt32} (hf : flags &&& 0x2 ≠ 0) (hl : s.lock = none) :
    ∃ q', Inv { s with
      drv := (dmaInterrupt s.drv s.dev.flush flags).1
      dev := (dmaInterrupt s.drv s.dev.flush flags).2.1
      lock := some (dmaInterrupt s.drv s.dev.flush flags).2.2 } q' := by
  have hdrv := dmaInterrupt_of_rep h.rep hf s.dev.flush
  have hfill : (dmaInterrupt s.drv s.dev.flush flags).1.fill = s.drv.fill := by
    rw [hdrv]
    split <;> rfl
  -- a wake-up that is due stays due; if none is due, the ring is full or nobody sleeps
  have hdue : ∀ n, s.pc = .schedule n ∧ s.sleeping = true ∨ s.pc = .asleep n →
      (dmaInterrupt s.drv s.dev.flush flags).2.2 = true ∨ 0 < s.waking := by
    intro n hn
    by_cases hc : waitCondition s.drv
    · rcases h.due n hn hc with hlt | hw
      · rw [hl] at hlt
        cases hlt
      · exact Or.inr hw
    · exact Or.inl (dmaInterrupt_wakes hf hc _)
  cases q with
  | nil =>
    rw [if_pos rfl] at hdrv
    have hrep : (dmaInterrupt s.drv s.dev.flush flags).1.ring.Represents [] := by
      rw [hdrv]
      exact h.rep
    exact ⟨[], hrep, h.quiet, fun n f hpc => hfill ▸ h.first n f hpc,
      fun n i hpc => hfill ▸ h.index n i hpc, h.room,
      fun n hn _ => (hdue n hn).imp_left (congrArg some)⟩
  | cons x r =>
    rw [if_neg (List.cons_ne_nil x r)] at hdrv
    have hrep : (dmaInterrupt s.drv s.dev.flush flags).1.ring.Represents r := by
      rw [hdrv, Kyouko2.ring_retire]
      exact h.rep.pop
    exact ⟨r, hrep, h.quiet, fun n f hpc => hfill ▸ h.first n f hpc,
      fun n i hpc => hfill ▸ h.index n i hpc,
      fun n r' hpc => lt_trans (Nat.lt_succ_self _) (h.room n r' hpc),
      fun n hn _ => (hdue n hn).imp_left (congrArg some)⟩

theorem unlock (h : Inv s q) {wakes : Bool} (hl : s.lock = some wakes) :
    Inv { s with lock := none, waking := if wakes then s.waking + 1 else s.waking } q where
  rep := h.rep
  quiet := h.quiet
  first := h.first
  index := h.index
  room := h.room
  due n hn hc := by
    refine Or.inr ?_
    rcases h.due n hn hc with hw | hw
    · rw [hl] at hw
      obtain rfl := Option.some.inj hw
      exact Nat.succ_pos _
    · show 0 < if wakes = true then s.waking + 1 else s.waking
      split <;> omega

/-- **The call of `wake_up_interruptible`.**  After it nobody sleeps. -/
theorem wakeUp (h : Inv s q) (w : Nat) : Inv { s with waking := w }.wake q := by
  rcases Sys.wake_pc { s with waking := w } with ⟨n, hpc⟩ | ⟨hpc, hne⟩
  · refine ⟨h.rep, h.quiet, ?_, ?_, ?_, ?_⟩
    all_goals simp [hpc]
  · refine ⟨h.rep, h.quiet, fun m f hf => h.first m f (hpc ▸ hf), fun m i hi => h.index m i (hpc ▸ hi),
      fun m r hr => h.room m r (hpc ▸ hr), fun m hm => ?_⟩
    rcases hm with ⟨-, hs⟩ | hm
    · cases hs
    · exact absurd (hpc ▸ hm) (hne m)

theorem step (h : Inv s q) {a : Action} (ha : a ≠ .signal)
    (hf : Snooze.step s a = some (s', es)) : ∃ q', Inv s' q' := by
  cases a with
  | startDma n =>
    rw [Snooze.step, Option.ite_none_right_eq_some] at hf
    obtain ⟨rfl, -⟩ := Prod.mk.inj (Option.some.inj hf.2)
    exact ⟨q, h.goto (k := { s.drv with size := n }) h.rep (Or.inr (Or.inl rfl)) _⟩
  | run => exact h.run hf
  | irq flags =>
    rw [Snooze.step] at hf
    by_cases h0 : flags &&& 0x2 = 0
    · rw [if_pos h0] at hf
      obtain ⟨rfl, -⟩ := Prod.mk.inj (Option.some.inj hf)
      exact ⟨q, h⟩
    · rw [if_neg h0, Option.ite_none_left_eq_some] at hf
      obtain ⟨rfl, -⟩ := Prod.mk.inj (Option.some.inj hf.2)
      exact h.irq h0 (not_not.mp hf.1)
  | unlock =>
    rw [Snooze.step] at hf
    cases hl : s.lock with
    | none => rw [hl] at hf; cases hf
    | some wakes =>
      rw [hl] at hf
      obtain ⟨rfl, -⟩ := Prod.mk.inj (Option.some.inj hf)
      exact ⟨q, h.unlock hl⟩
  | wakeUp =>
    rw [Snooze.step, Option.ite_none_left_eq_some] at hf
    obtain ⟨rfl, -⟩ := Prod.mk.inj (Option.some.inj hf.2)
    exact ⟨q, h.wakeUp _⟩
  | signal => exact absurd rfl ha

end Inv

variable {ans : BindAnswers} {k : Kyouko2} {as : List Action} {es : List Event} {s : Sys}

/-- **No wake-up is lost.**  Where the submitter sleeps although the condition it waits
for holds, a handler in progress is still to wake it. -/
theorem no_wakeup_lost (h : Run step (.afterBind ans k) as es s) (hsig : .signal ∉ as)
    {n : UInt32} (hpc : s.pc = .asleep n) (hc : waitCondition s.drv) : s.WakeDue := by
  have hg : AllSteps step (.afterBind ans k) (fun _ _ a => a ≠ .signal) as :=
    allSteps_of_forall fun a ha he => hsig (he ▸ ha)
  obtain ⟨q, hq⟩ := h.inv_of_guard (I := fun _ s => ∃ q, Inv s q) hg ⟨[], .afterBind ans k⟩
    fun hi ha hf => hi.elim fun q hq => hq.step ha hf
  exact hq.due n (Or.inr hpc) hc

def eightCalls : List Action := (List.replicate 8 ([.startDma 148, .run, .run] : List Action)).flatten

/-- Eight requests, the ninth asleep, and one handler that has updated the ring and
released the lock. -/
def asleepOnRoom : List Action :=
  eightCalls.append [.startDma 148, .run, .run, .run, .run, .run, .run, .run, .irq 2, .unlock]

theorem no_wakeup_lost_asleep : ∃ es s,
    Run step (.afterBind someAnswers .zeroed) asleepOnRoom es s ∧ s.pc = .asleep 148 ∧
      waitCondition s.drv ∧ s.WakeDue := by
  obtain ⟨es, s, hr, hpc, hc⟩ := exists_run step (.afterBind someAnswers .zeroed) asleepOnRoom
    (fun _ s => s.pc = .asleep 148 ∧ waitCondition s.drv) (by decide +kernel)
  exact ⟨es, s, hr, hpc, hc, no_wakeup_lost hr (by decide) hpc hc⟩

/-! ### The wait in one step -/

/-- A task anywhere in the loop is, in `StartDma.lean`, before its look at the condition
or asleep, and asleep exactly where the condition fails. -/
def Sys.coarsePc (s : Sys) : Dma.Pc :=
  match s.pc with
  | .idle => .idle
  | .entered => .entered
  | .relock n _ => .relock n
  | .copyOut => .copyOut
  | .enqueue n | .readFill n | .readDrain n _ | .readIndex n | .readFull n _ | .schedule n
  | .asleep n => if waitCondition s.drv then .check n else .asleep n

def Sys.coarse (s : Sys) : Dma.Sys Unit := { drv := s.drv, dev := s.dev, pc := fun _ => s.coarsePc }

def Event.coarse : Event → Option (Dma.Event Unit)
  | submit n => some (.submit () n)
  | store n => some (.store () n)
  | irq => some .irq
  | handout a => some (.handout () a)
  | returned _ => none

/-- A handler with bit 1 set is entered because a transfer has finished. -/
def Backed (_ : List Event) (s : Sys) : Action → Prop
  | .irq flags => flags &&& 0x2 ≠ 0 → s.dev.busy ≠ []
  | .signal => False
  | _ => True

def Pc.Waits (p : Pc) (n : UInt32) : Prop :=
  p = .enqueue n ∨ p = .readFill n ∨ (∃ f, p = .readDrain n f) ∨ p = .readIndex n ∨
    (∃ i, p = .readFull n i) ∨ p = .schedule n ∨ p = .asleep n

section

variable {s s' : Sys} {n : UInt32} {q : List UInt32} {es : List Event}

theorem coarsePc_of_waits (h : s.pc.Waits n) :
    s.coarsePc = if waitCondition s.drv then .check n else .asleep n := by
  unfold Sys.coarsePc
  rcases h with h | h | ⟨f, h⟩ | h | ⟨i, h⟩ | h | h <;> rw [h]

theorem coarse_of_waits (h : s.pc.Waits n) (h' : s'.pc.Waits n) (hdrv : s'.drv = s.drv)
    (hdev : s'.dev = s.dev) : ∃ bs, Run Dma.step s.coarse bs [] s'.coarse := by
  have hs : s'.coarse = s.coarse := by
    rw [Sys.coarse, Sys.coarse, coarsePc_of_waits h, coarsePc_of_waits h', hdrv, hdev]
  exact ⟨[], hs ▸ .nil⟩

theorem setPc_unit (r : Dma.Sys Unit) (p : Dma.Pc) : r.setPc () p = { r with pc := fun _ => p } := by
  have hu : Function.update r.pc () p = fun _ => p := funext fun _ => Function.update_self ..
  rw [Dma.Sys.setPc, hu]

theorem coarse_wake (s : Sys) (w : Nat) : ({ s with waking := w } : Sys).wake.coarse = s.coarse := by
  have hto : ({ s with waking := w } : Sys).wake.coarsePc = s.coarsePc := by
    unfold Sys.coarsePc Sys.wake
    cases hpc : s.pc <;> rfl
  rw [Sys.coarse, hto]
  rfl

theorem coarse_leave (h : s.pc.Waits n) (hc : waitCondition s.drv) (ret : Int) :
    Run Dma.step s.coarse [.run ()] [] (s.leave n ret).coarse := by
  refine run_single ?_
  have hpc : s.coarse.pc () = .check n := (coarsePc_of_waits h).trans (if_pos hc)
  have hc' : waitCondition s.coarse.drv := hc
  rw [Dma.step, hpc, threadStep, if_pos hc', Option.map_some, setPc_unit]
  rfl

/-- The first locked section that finds the ring full: the task is asleep at once. -/
theorem coarse_suspend (hpc : s.pc = .entered)
    (hs : initiateTransfer s.drv s.dev s.drv.size = .suspend) (hc : ¬ waitCondition s.drv) :
    Run Dma.step s.coarse [.run (), .run ()] []
      ({ s with pc := .enqueue s.drv.size } : Sys).coarse := by
  have hpc₀ : s.coarse.pc () = .entered := by
    show s.coarsePc = _
    rw [Sys.coarsePc, hpc]
  have h₁ : Dma.step s.coarse (.run ()) = some (s.coarse.setPc () (.check s.drv.size), []) := by
    rw [Dma.step, hpc₀, threadStep]
    have hs' : initiateTransfer s.coarse.drv s.coarse.dev s.coarse.drv.size = .suspend := hs
    rw [hs']
    rfl
  have h₂ : Dma.step (s.coarse.setPc () (.check s.drv.size)) (.run ()) =
      some (({ s with pc := .enqueue s.drv.size } : Sys).coarse, []) := by
    have hc' : ¬ waitCondition s.coarse.drv := hc
    have hto : ({ s with pc := .enqueue s.drv.size } : Sys).coarse =
        { s.coarse with pc := fun _ => .asleep s.drv.size } :=
      congrArg (fun p => ({ s.coarse with pc := fun _ => p } : Dma.Sys Unit)) (if_neg hc)
    rw [setPc_unit, hto]
    simp only [Dma.step, threadStep, if_neg hc', Option.map_some, setPc_unit]
  exact (run_single h₁).append (run_single h₂)

theorem coarsePc_irq (h : Inv s q) {flags : UInt32} (hf : flags &&& 0x2 ≠ 0)
    {r : Kyouko2 × Device × Bool} (hr : dmaInterrupt s.drv s.dev.flush flags = r) {d : Device} {l : Option Bool} :
    ({ s with drv := r.1, dev := d, lock := l } : Sys).coarsePc =
      if r.2.2 = true then s.coarsePc.wake else s.coarsePc := by
  cases hpc : s.pc with
  | idle | entered | relock _ _ | copyOut => simp [Sys.coarsePc, hpc, Pc.wake]
  | enqueue n | readFill n | readDrain n _ | readIndex n | readFull n _ | schedule n | asleep n =>
    simp only [Sys.coarsePc, hpc]
    cases q with
    | nil =>
      -- nothing to take off, and nobody to wake
      have hroom : waitCondition s.drv := (waitCondition_iff_of_rep h.rep).mpr (by decide)
      have hdrv : r.1 = s.drv := hr ▸ dmaInterrupt_of_rep h.rep hf s.dev.flush
      rw [hdrv, if_pos hroom]
      split <;> rfl
    | cons x r' =>
      have hdrv : r.1 = s.drv.retire := hr ▸ dmaInterrupt_of_rep h.rep hf s.dev.flush
      have hroom : waitCondition r.1 := by
        rw [hdrv, waitCondition_iff_of_rep (s.drv.ring_retire ▸ h.rep.pop)]
        exact h.rep.length_le
      rw [if_pos hroom]
      by_cases hc : waitCondition s.drv
      · rw [if_pos hc]
        split <;> rfl
      · rw [if_neg hc, ← hr, if_pos (dmaInterrupt_wakes hf hc _)]
        rfl

/-- The handler's update, with the wake-up that is to follow. -/
theorem coarse_irq (h : Inv s q) {flags : UInt32} (hf : flags &&& 0x2 ≠ 0) (hb : s.dev.busy ≠ []) :
    Run Dma.step s.coarse [.irq flags] [.irq]
      ({ s with
        drv := (dmaInterrupt s.drv s.dev.flush flags).1
        dev := (dmaInterrupt s.drv s.dev.flush flags).2.1
        lock := some (dmaInterrupt s.drv s.dev.flush flags).2.2 } : Sys).coarse := by
  refine run_single ?_
  have hstep : Dma.step s.coarse (.irq flags) =
      some (s.coarse.interrupted (dmaInterrupt s.drv s.dev.flush flags), [.irq]) := by
    rw [Dma.step, if_neg hf]
    exact if_neg hb
  rw [hstep]
  refine congrArg (fun p => some (({ drv := _, dev := _, pc := p } : Dma.Sys Unit), _)) ?_
  funext _
  rw [coarsePc_irq h hf rfl]
  split <;> rfl

/-- **The submitter's step** is one or two steps there, or none. -/
theorem coarse_run (h : Inv s q) (hf : run s = some (s', es)) :
    ∃ bs, Run Dma.step s.coarse bs (es.filterMap Event.coarse) s'.coarse := by
  have hto : ∀ p, s.coarsePc = p → s.coarse.pc () = p := fun p hp => hp
  unfold run at hf
  cases hpc : s.pc with
  | idle => rw [hpc] at hf; cases hf
  | asleep n => rw [hpc] at hf; cases hf
  | entered =>
    have hco := hto .entered (by rw [Sys.coarsePc, hpc])
    rw [hpc] at hf
    dsimp only at hf
    rw [Option.ite_none_left_eq_some] at hf
    obtain ⟨-, hf⟩ := hf
    cases hi : initiateTransfer s.drv s.dev s.drv.size with
    | suspend =>
      rw [hi] at hf
      obtain ⟨rfl, rfl⟩ := Prod.mk.inj (Option.some.inj hf)
      refine ⟨_, coarse_suspend hpc hi fun hc => ?_⟩
      rw [initiateTransfer] at hi
      split_ifs at hi with h0 hfd hfull
      rcases hc with hc | hc
      · exact hc hfd
      · rw [hfull] at hc
        cases hc
    | done k d =>
      rw [hi] at hf
      obtain ⟨rfl, rfl⟩ := Prod.mk.inj (Option.some.inj hf)
      refine ⟨[.run ()], run_single ?_⟩
      have hi' : initiateTransfer s.coarse.drv s.coarse.dev s.coarse.drv.size = .done k d := hi
      rw [Dma.step, hco, threadStep, hi', Option.map_some, setPc_unit]
      show some (_, if s.drv.size = 0 then _ else _) = _
      by_cases h0 : s.drv.size = 0
      · rw [if_pos h0, if_pos h0]
        rfl
      · rw [if_neg h0, if_neg h0]
        rfl
  | enqueue n =>
    rw [hpc] at hf
    obtain ⟨rfl, rfl⟩ := Prod.mk.inj (Option.some.inj hf)
    exact coarse_of_waits (n := n) (by simp [Pc.Waits, hpc]) (by simp [Pc.Waits]) rfl rfl
  | readFill n =>
    rw [hpc] at hf
    obtain ⟨rfl, rfl⟩ := Prod.mk.inj (Option.some.inj hf)
    exact coarse_of_waits (n := n) (by simp [Pc.Waits, hpc]) (by simp [Pc.Waits]) rfl rfl
  | readDrain n f =>
    have hfill := h.first n f hpc
    rw [hpc] at hf
    obtain ⟨rfl, rfl⟩ := Prod.mk.inj (Option.some.inj hf)
    by_cases hne : f = s.drv.drain
    · rw [if_neg (not_not.mpr hne)]
      exact coarse_of_waits (n := n) (by simp [Pc.Waits, hpc]) (by simp [Pc.Waits]) rfl rfl
    · rw [if_pos hne]
      exact ⟨_, coarse_leave (by simp [Pc.Waits, hpc]) (Or.inl (hfill ▸ hne)) _⟩
  | readIndex n =>
    rw [hpc] at hf
    obtain ⟨rfl, rfl⟩ := Prod.mk.inj (Option.some.inj hf)
    exact coarse_of_waits (n := n) (by simp [Pc.Waits, hpc]) (by simp [Pc.Waits]) rfl rfl
  | readFull n i =>
    have hfill := h.index n i hpc
    rw [hpc] at hf
    obtain ⟨rfl, rfl⟩ := Prod.mk.inj (Option.some.inj hf)
    by_cases hfull : (s.drv.dmaBuffer i).isFull = false
    · rw [if_pos hfull]
      exact ⟨_, coarse_leave (by simp [Pc.Waits, hpc]) (Or.inr (hfill ▸ hfull)) _⟩
    · rw [if_neg hfull]
      exact coarse_of_waits (n := n) (by simp [Pc.Waits, hpc]) (by simp [Pc.Waits]) rfl rfl
  | schedule n =>
    rw [hpc] at hf
    obtain ⟨rfl, rfl⟩ := Prod.mk.inj (Option.some.inj hf)
    rw [if_neg (by simp [h.quiet])]
    split
    · exact coarse_of_waits (n := n) (by simp [Pc.Waits, hpc]) (by simp [Pc.Waits]) rfl rfl
    · exact coarse_of_waits (n := n) (by simp [Pc.Waits, hpc]) (by simp [Pc.Waits]) rfl rfl
  | relock n r =>
    have hco := hto (.relock n) (by rw [Sys.coarsePc, hpc])
    rw [hpc] at hf
    dsimp only at hf
    rw [Option.ite_none_left_eq_some] at hf
    obtain ⟨rfl, rfl⟩ := Prod.mk.inj (Option.some.inj hf.2)
    refine ⟨[.run ()], run_single ?_⟩
    rw [step_relock hco, setPc_unit]
    rfl
  | copyOut =>
    have hco := hto .copyOut (by rw [Sys.coarsePc, hpc])
    rw [hpc] at hf
    obtain ⟨rfl, rfl⟩ := Prod.mk.inj (Option.some.inj hf)
    refine ⟨[.run ()], run_single ?_⟩
    rw [Dma.step, hco, threadStep, Option.map_some, setPc_unit]
    rfl

/-- **A step is a run of the wait in one step**, with the same events. -/
theorem coarse_step (h : Inv s q) {a : Action} (hg : Backed es s a) {es' : List Event}
    (hf : step s a = some (s', es')) :
    ∃ bs, Run Dma.step s.coarse bs (es'.filterMap Event.coarse) s'.coarse := by
  cases a with
  | startDma n =>
    rw [step, Option.ite_none_right_eq_some] at hf
    obtain ⟨hpc, hf⟩ := hf
    obtain ⟨rfl, rfl⟩ := Prod.mk.inj (Option.some.inj hf)
    refine ⟨[.startDma () n], run_single ?_⟩
    have hco : s.coarse.pc () = .idle := by
      show s.coarsePc = _
      rw [Sys.coarsePc, hpc]
    rw [Dma.step, if_pos hco, setPc_unit]
    rfl
  | run => exact coarse_run h hf
  | irq flags =>
    rw [step] at hf
    by_cases h0 : flags &&& 0x2 = 0
    · rw [if_pos h0] at hf
      obtain ⟨rfl, rfl⟩ := Prod.mk.inj (Option.some.inj hf)
      exact ⟨[], .nil⟩
    · rw [if_neg h0, Option.ite_none_left_eq_some] at hf
      obtain ⟨rfl, rfl⟩ := Prod.mk.inj (Option.some.inj hf.2)
      exact ⟨_, coarse_irq h h0 (hg h0)⟩
  | unlock =>
    rw [step] at hf
    cases hl : s.lock with
    | none => rw [hl] at hf; cases hf
    | some wakes =>
      rw [hl] at hf
      obtain ⟨rfl, rfl⟩ := Prod.mk.inj (Option.some.inj hf)
      exact ⟨[], .nil⟩
  | wakeUp =>
    rw [step, Option.ite_none_left_eq_some] at hf
    obtain ⟨rfl, rfl⟩ := Prod.mk.inj (Option.some.inj hf.2)
    exact ⟨[], coarse_wake s _ ▸ .nil⟩
  | signal => exact hg.elim

end

/-- **The wait read by read allows nothing that the wait in one step does not.** -/
theorem refines_step (h : Run step (.afterBind ans k) as es s)
    (hg : AllSteps step (.afterBind ans k) Backed as) :
    ∃ bs, Run Dma.step (.afterBind ans k) bs (es.filterMap Event.coarse) s.coarse := by
  refine (h.simulate Dma.step Sys.coarse Event.coarse (I := fun s => ∃ q, Inv s q) hg
    ⟨[], .afterBind ans k⟩ ?_).2
  rintro es s a s' es' ⟨q, hq⟩ hb hf
  refine ⟨hq.step ?_ hf, coarse_step hq hb hf⟩
  rintro rfl
  exact hb

/-! ### A wait that a signal ends -/

/-- The `ioctl` has had no effect on the ring and the card, and reports an error. -/
structure Refused (s s' : Sys) (es : List Event) : Prop where
  fill : s'.drv.fill = s.drv.fill
  drain : s'.drv.drain = s.drv.drain
  slots : ∀ i, (s'.drv.dmaBuffer i).isFull = (s.drv.dmaBuffer i).isFull ∧
    (s'.drv.dmaBuffer i).count = (s.drv.dmaBuffer i).count
  dev : s'.dev = s.dev
  result : ∀ r, .returned r ∈ es → r < 0

/-- What is left of a call whose wait a signal has ended.  A handler that holds the
lock releases it first. -/
def restOfCall : Option Bool → List Action
  | none => [.run, .run, .run]
  | some _ => [.run, .unlock, .run, .run]

/-- **The interrupted call stores its request**, over the one at `fill`, and returns 0. -/
theorem run_interrupted {s : Sys} {n : UInt32} (hpc : s.pc = .schedule n)
    (hsig : s.signalled = true) : ∃ s', Run step s (restOfCall s.lock)
      [.store n, .handout ((s.drv.store n).userVirtAddr (s.drv.fill + 1)), .returned 0] s' ∧
        s'.drv = s.drv.store n ∧ s'.dev = s.dev ∧ s'.pc = .idle := by
  cases hl : s.lock with
  | none =>
    refine ⟨{ s with drv := s.drv.store n, pc := .idle, sleeping := false, signalled := false },
      run_of_exec ?_, rfl, rfl, rfl⟩
    simp [restOfCall, exec, step, run, hpc, hsig, hl, Sys.leave, initiateTransferWoken]
  | some wakes =>
    refine ⟨{ s with
      drv := s.drv.store n, pc := .idle, sleeping := false, signalled := false, lock := none
      waking := if wakes then s.waking + 1 else s.waking }, run_of_exec ?_, rfl, rfl, rfl⟩
    simp [restOfCall, exec, step, run, hpc, hsig, hl, Sys.leave, initiateTransferWoken]

/-- A ring that was full stands for no queue after that. -/
theorem store_of_full_not_represents {k : Kyouko2} {q : List UInt32} (h : k.ring.Represents q)
    (hfull : ¬ waitCondition k) (n : UInt32) : ∀ q', ¬ (k.store n).ring.Represents q' := by
  intro q' h'
  have hN : BUFFERS = 8 := rfl
  have h8 : q.length = BUFFERS := by
    have hle : q.length ≤ BUFFERS := h.length_le
    have hge := mt (waitCondition_iff_of_rep h).mpr hfull
    omega
  -- every slot is full, so the queue would have to be full, and `fill` at `drain`
  have hnext : (k.store n).ring.full (k.store n).ring.fill = true := by
    rw [Kyouko2.ring_store]
    show Function.update k.ring.full k.ring.fill true (k.ring.fill + 1) = true
    rw [Function.update_of_ne (by simp), h.full_iff, h8]
    exact offset_lt _ _
  have hfd : k.fill + 1 = k.drain := h'.fill_eq_drain_iff.mpr (Or.inr (h'.full_fill_iff.mp hnext))
  have hfd' : k.fill = k.drain := h.fill_eq_drain_iff.mpr (Or.inr h8)
  rw [hfd'] at hfd
  simp at hfd

/-- **No interrupted call is refused**: whatever the ring and whatever the size. -/
theorem interrupted_stores {s : Sys} {n : UInt32} (hpc : s.pc = .schedule n)
    (hsig : s.signalled = true) :
    ¬ ∀ es s', Run step s (restOfCall s.lock) es s' → Refused s s' es := by
  intro hall
  obtain ⟨s', hr, hdrv, -, -⟩ := run_interrupted hpc hsig
  have hfill := (hall _ _ hr).fill
  rw [hdrv, Kyouko2.store_fill] at hfill
  simp at hfill

/-- Eight requests; the ninth finds the ring full, and a signal comes. -/
def ninthSignalled : List Action :=
  eightCalls.append [.startDma 152, .run, .run, .run, .run, .run, .run, .signal]

theorem interrupted_stores_ninth : ∃ es s,
    Run step (.afterBind someAnswers .zeroed) ninthSignalled es s ∧ ¬ waitCondition s.drv ∧
      ¬ ∀ es s', Run step s (restOfCall s.lock) es s' → Refused s s' es := by
  obtain ⟨es, s, hr, hpc, hsig, hfull⟩ := exists_run step (.afterBind someAnswers .zeroed)
    ninthSignalled (fun _ s => s.pc = .schedule 152 ∧ s.signalled = true ∧ ¬ waitCondition s.drv)
    (by decide +kernel)
  exact ⟨es, s, hr, hfull, interrupted_stores hpc hsig⟩

/-- The interrupted ninth call overwrites the slot in flight and reports success. -/
theorem interrupted_overwrites : ∃ es s es' s',
    Run step (.afterBind someAnswers .zeroed) ninthSignalled es s ∧ ¬ waitCondition s.drv ∧
      s.dev.busy = [s.drv.slotTransfer s.drv.fill] ∧ (s.drv.dmaBuffer s.drv.fill).count = 148 ∧
      Run step s (restOfCall s.lock) es' s' ∧ (s'.drv.dmaBuffer s.drv.fill).count = 152 ∧
      .returned 0 ∈ es' ∧ ¬ Refused s s' es' := by
  obtain ⟨es, s, hr, hpc, hsig, hfull, hb, hcount⟩ := exists_run step
    (.afterBind someAnswers .zeroed) ninthSignalled
    (fun _ s => s.pc = .schedule 152 ∧ s.signalled = true ∧ ¬ waitCondition s.drv ∧
      s.dev.busy = [s.drv.slotTransfer s.drv.fill] ∧ (s.drv.dmaBuffer s.drv.fill).count = 148)
    (by decide +kernel)
  obtain ⟨s', hr', hdrv, -, -⟩ := run_interrupted hpc hsig
  refine ⟨es, s, _, s', hr, hfull, hb, hcount, hr', ?_, by simp, fun hrefused => ?_⟩
  · rw [hdrv, Kyouko2.store_dmaBuffer, if_pos rfl]
  · exact absurd (hrefused.result 0 (by simp)) (by decide)

end LinuxKerDev.Dma.Snooze
