import LinuxKerDev.Dma.Driver
import LinuxKerDev.Lib.Run

/-!
# Runs of `START_DMA` with completion interrupts

Any number of threads (`τ`) issue `START_DMA`, each with any size, while the
card raises one flush interrupt for each transfer that was started.  The atomic
steps of a thread are those the source gives it:

* `copy_from_user` into the file-level `size`;
* the first locked section of `initiateTransfer(size)`;
* in the full case, `wait_event_interruptible`: look at the condition and
  either go on or fall asleep on `dma_snooze`, and look again when woken;
* the second locked section;
* the read of `fill` that picks the address copied back to the caller.

Between any two of them other threads and interrupts may run, so any number of
interrupts may fall between a waiter's look at the condition and its second
locked section.  No signals arrive, so nothing but the condition ends a wait.
`wake_up_interruptible` runs with the interrupt that calls it: a woken thread
may wait as long as it likes before it looks at the condition again, so a later
wake-up would allow nothing new.

`Sys.afterBind` is where runs start: a `BIND_DMA` on any left-over state.
`StepCase` names the cases of a step, and `step_cases` is the inversion.
-/

namespace LinuxKerDev.Dma

open Lib

inductive Pc
  | idle
  | entered
  | check (numBytes : UInt32)
  | asleep (numBytes : UInt32)
  | relock (numBytes : UInt32)
  | copyOut
  deriving DecidableEq, Repr

namespace Pc

def wake : Pc → Pc
  | asleep n => check n
  | p => p

/-- The size a thread is carrying through the wait. -/
def carried : Pc → Option UInt32
  | check n | asleep n | relock n => some n
  | _ => none

@[simp] theorem carried_wake (p : Pc) : p.wake.carried = p.carried := by cases p <;> rfl

@[simp] theorem wake_eq_idle {p : Pc} : p.wake = idle ↔ p = idle := by
  cases p <;> simp [wake]

end Pc

/-- What a run shows: a size has been copied in, a request has been queued, a
flush interrupt has been handled, an address has been copied out. -/
inductive Event (τ : Type*)
  | submit (t : τ) (size : UInt32)
  | store (t : τ) (numBytes : UInt32)
  | irq
  | handout (t : τ) (addr : UInt64)
  deriving DecidableEq, Repr

structure Sys (τ : Type*) where
  drv : Kyouko2
  dev : Device
  pc : τ → Pc

inductive Action (τ : Type*)
  | startDma (t : τ) (size : UInt32)
  | run (t : τ)
  | irq (flags : UInt32)
  deriving DecidableEq, Repr

def threadStep {τ : Type*} (t : τ) (k : Kyouko2) (d : Device) :
    Pc → Option (Kyouko2 × Device × Pc × List (Event τ))
  | .idle => none
  | .entered =>
    match initiateTransfer k d k.size with
    | .done k' d' => some (k', d', .copyOut, if k.size = 0 then [] else [.store t k.size])
    | .suspend => some (k, d, .check k.size, [])
  | .check n => some (k, d, if waitCondition k then .relock n else .asleep n, [])
  | .asleep _ => none
  | .relock n => some (initiateTransferWoken k n, d, .copyOut, [.store t n])
  | .copyOut => some (k, d, .idle, [.handout t (k.userVirtAddr k.fill)])

namespace Sys

variable {τ : Type*}

def setPc [DecidableEq τ] (s : Sys τ) (t : τ) (p : Pc) : Sys τ :=
  { s with pc := Function.update s.pc t p }

/-- `dma_interrupt` has run and, if it says so, woken the sleepers. -/
def interrupted (s : Sys τ) (r : Kyouko2 × Device × Bool) : Sys τ where
  drv := r.1
  dev := r.2.1
  pc := if r.2.2 then fun t => (s.pc t).wake else s.pc

/-- The state `BIND_DMA` leaves behind, with the card idle and nobody inside. -/
def afterBind (ans : BindAnswers) (k : Kyouko2) : Sys τ where
  drv := (bindDma ans (k, [])).1
  dev := .fresh
  pc _ := .idle

end Sys

variable {τ : Type*} [DecidableEq τ]

def step (s : Sys τ) : Action τ → Option (Sys τ × List (Event τ))
  | .startDma t size =>
    if s.pc t = .idle then
      some ({ s with drv := { s.drv with size := size } }.setPc t .entered, [.submit t size])
    else none
  | .run t =>
    (threadStep t s.drv s.dev (s.pc t)).map fun r =>
      ({ s with drv := r.1, dev := r.2.1 }.setPc t r.2.2.1, r.2.2.2)
  | .irq flags =>
    -- the line is shared, so the handler may also run with bit 1 clear
    if flags &&& 0x2 = 0 then some (s.interrupted (dmaInterrupt s.drv s.dev flags), [])
    else if s.dev.busy = [] then none
    else some (s.interrupted (dmaInterrupt s.drv s.dev.flush flags), [.irq])

/-- A woken thread stores its request, whatever the ring looks like by then. -/
theorem step_relock {s : Sys τ} {t : τ} {n : UInt32} (hpc : s.pc t = .relock n) :
    step s (.run t) =
      some ({ s with drv := s.drv.store n }.setPc t .copyOut, [.store t n]) := by
  simp only [step, hpc, threadStep, initiateTransferWoken, Option.map_some]

/-! ### The cases of a step -/

inductive StepCase (s : Sys τ) : Action τ → Sys τ → List (Event τ) → Prop
  | submit {t : τ} {n : UInt32} (hpc : s.pc t = .idle) :
      StepCase s (.startDma t n) ({ s with drv := { s.drv with size := n } }.setPc t .entered)
        [.submit t n]
  | zero {t : τ} (hpc : s.pc t = .entered) (h0 : s.drv.size = 0) :
      StepCase s (.run t) (s.setPc t .copyOut) []
  | suspend {t : τ} (hpc : s.pc t = .entered) (h0 : s.drv.size ≠ 0)
      (hfd : s.drv.fill = s.drv.drain) (hfull : (s.drv.dmaBuffer s.drv.fill).isFull = true) :
      StepCase s (.run t) (s.setPc t (.check s.drv.size)) []
  | launch {t : τ} (hpc : s.pc t = .entered) (h0 : s.drv.size ≠ 0)
      (hfd : s.drv.fill = s.drv.drain) (hfull : (s.drv.dmaBuffer s.drv.fill).isFull = false) :
      StepCase s (.run t)
        ({ s with
            drv := s.drv.store s.drv.size
            dev := program s.dev (s.drv.dmaHandle s.drv.fill).toUInt32 s.drv.size }.setPc t .copyOut)
        [.store t s.drv.size]
  | queue {t : τ} (hpc : s.pc t = .entered) (h0 : s.drv.size ≠ 0)
      (hfd : s.drv.fill ≠ s.drv.drain) :
      StepCase s (.run t) ({ s with drv := s.drv.store s.drv.size }.setPc t .copyOut)
        [.store t s.drv.size]
  | pass {t : τ} {n : UInt32} (hpc : s.pc t = .check n) (hc : waitCondition s.drv) :
      StepCase s (.run t) (s.setPc t (.relock n)) []
  | sleep {t : τ} {n : UInt32} (hpc : s.pc t = .check n) (hc : ¬ waitCondition s.drv) :
      StepCase s (.run t) (s.setPc t (.asleep n)) []
  | relock {t : τ} {n : UInt32} (hpc : s.pc t = .relock n) :
      StepCase s (.run t) ({ s with drv := s.drv.store n }.setPc t .copyOut) [.store t n]
  | copyOut {t : τ} (hpc : s.pc t = .copyOut) :
      StepCase s (.run t) (s.setPc t .idle) [.handout t (s.drv.userVirtAddr s.drv.fill)]
  | spurious {flags : UInt32} (hf : flags &&& 0x2 = 0) : StepCase s (.irq flags) s []
  | irqFull {flags : UInt32} (hf : flags &&& 0x2 ≠ 0) (hb : s.dev.busy ≠ [])
      (hfd : s.drv.fill = s.drv.drain) (hfull : (s.drv.dmaBuffer s.drv.fill).isFull = true) :
      StepCase s (.irq flags)
        { drv := s.drv.retire
          dev := program s.dev.flush (s.drv.retire.slotTransfer s.drv.retire.drain).1
            (s.drv.retire.slotTransfer s.drv.retire.drain).2
          pc := fun t => (s.pc t).wake } [.irq]
  | irqStray {flags : UInt32} (hf : flags &&& 0x2 ≠ 0) (hb : s.dev.busy ≠ [])
      (hfd : s.drv.fill = s.drv.drain) (hfull : (s.drv.dmaBuffer s.drv.fill).isFull = false) :
      StepCase s (.irq flags) { s with dev := s.dev.flush } [.irq]
  | irqMore {flags : UInt32} (hf : flags &&& 0x2 ≠ 0) (hb : s.dev.busy ≠ [])
      (hfd : s.drv.fill ≠ s.drv.drain) (hmore : s.drv.fill ≠ s.drv.drain + 1) :
      StepCase s (.irq flags)
        { s with
          drv := s.drv.retire
          dev := program s.dev.flush (s.drv.retire.slotTransfer s.drv.retire.drain).1
            (s.drv.retire.slotTransfer s.drv.retire.drain).2 } [.irq]
  | irqLast {flags : UInt32} (hf : flags &&& 0x2 ≠ 0) (hb : s.dev.busy ≠ [])
      (hfd : s.drv.fill ≠ s.drv.drain) (hlast : s.drv.fill = s.drv.drain + 1) :
      StepCase s (.irq flags) { s with drv := s.drv.retire, dev := s.dev.flush } [.irq]

theorem threadStep_cases {s : Sys τ} {t : τ} {r : Kyouko2 × Device × Pc × List (Event τ)}
    (h : threadStep t s.drv s.dev (s.pc t) = some r) :
    StepCase s (.run t) ({ s with drv := r.1, dev := r.2.1 }.setPc t r.2.2.1) r.2.2.2 := by
  cases hpc : s.pc t with
  | idle => simp [threadStep, hpc] at h
  | asleep n => simp [threadStep, hpc] at h
  | check n =>
    rw [hpc, threadStep, Option.some.injEq] at h
    subst h
    by_cases hc : waitCondition s.drv
    · simpa [hc] using StepCase.pass hpc hc
    · simpa [hc] using StepCase.sleep hpc hc
  | relock n =>
    rw [hpc, threadStep, Option.some.injEq] at h
    subst h
    exact .relock hpc
  | copyOut =>
    rw [hpc, threadStep, Option.some.injEq] at h
    subst h
    exact .copyOut hpc
  | entered =>
    rw [hpc, threadStep, initiateTransfer] at h
    by_cases h0 : s.drv.size = 0
    · rw [if_pos h0] at h
      obtain rfl := Option.some.inj h
      simpa [h0] using StepCase.zero hpc h0
    by_cases hfd : s.drv.fill = s.drv.drain
    · cases hfull : (s.drv.dmaBuffer s.drv.fill).isFull with
      | true =>
        rw [if_neg h0, if_pos hfd, if_pos hfull] at h
        obtain rfl := Option.some.inj h
        exact .suspend hpc h0 hfd hfull
      | false =>
        rw [if_neg h0, if_pos hfd, if_neg (by simp [hfull])] at h
        obtain rfl := Option.some.inj h
        simpa [h0] using StepCase.launch hpc h0 hfd hfull
    · rw [if_neg h0, if_neg hfd] at h
      obtain rfl := Option.some.inj h
      simpa [h0] using StepCase.queue hpc h0 hfd

theorem interrupt_cases {s : Sys τ} {flags : UInt32} (hf : flags &&& 0x2 ≠ 0)
    (hb : s.dev.busy ≠ []) :
    StepCase s (.irq flags) (s.interrupted (dmaInterrupt s.drv s.dev.flush flags)) [.irq] := by
  by_cases hfd : s.drv.fill = s.drv.drain
  · cases hfull : (s.drv.dmaBuffer s.drv.fill).isFull with
    | true =>
      rw [dmaInterrupt_full hf hfd hfull]
      exact .irqFull hf hb hfd hfull
    | false =>
      rw [dmaInterrupt_stray hf hfd hfull]
      exact .irqStray hf hb hfd hfull
  · by_cases hlast : s.drv.fill = s.drv.drain + 1
    · rw [dmaInterrupt_last hf hlast]
      exact .irqLast hf hb hfd hlast
    · rw [dmaInterrupt_more hf hfd hlast]
      exact .irqMore hf hb hfd hlast

/-- **Everything a step can do.** -/
theorem step_cases {s s' : Sys τ} {a : Action τ} {es : List (Event τ)}
    (h : step s a = some (s', es)) : StepCase s a s' es := by
  cases a with
  | startDma t n =>
    rw [step, Option.ite_none_right_eq_some] at h
    obtain ⟨hpc, h⟩ := h
    obtain ⟨rfl, rfl⟩ := Prod.mk.inj (Option.some.inj h)
    exact .submit hpc
  | run t =>
    rw [step] at h
    obtain ⟨r, hr, h⟩ := Option.map_eq_some_iff.mp h
    obtain ⟨rfl, rfl⟩ := Prod.mk.inj h
    exact threadStep_cases hr
  | irq flags =>
    rw [step] at h
    by_cases hf : flags &&& 0x2 = 0
    · rw [if_pos hf] at h
      obtain ⟨rfl, rfl⟩ := Prod.mk.inj (Option.some.inj h)
      simpa [dmaInterrupt, hf, Sys.interrupted] using StepCase.spurious hf
    · rw [if_neg hf, Option.ite_none_left_eq_some] at h
      obtain ⟨hb, h⟩ := h
      obtain ⟨rfl, rfl⟩ := Prod.mk.inj (Option.some.inj h)
      exact interrupt_cases hf hb

/-- With no call running and nothing in flight a step starts a call, or it changes nothing. -/
theorem StepCase.of_quiet {s s' : Sys τ} {a : Action τ} {es : List (Event τ)}
    (h : StepCase s a s' es) (hpc : ∀ t, s.pc t = .idle) (hb : s.dev.busy = []) :
    (∃ t n, a = .startDma t n) ∨ s' = s ∧ es = [] := by
  cases h with
  | submit _ => exact Or.inl ⟨_, _, rfl⟩
  | spurious _ => exact Or.inr ⟨rfl, rfl⟩
  | irqFull _ hne _ _ => exact absurd hb hne
  | irqStray _ hne _ _ => exact absurd hb hne
  | irqMore _ hne _ _ => exact absurd hb hne
  | irqLast _ hne _ _ => exact absurd hb hne
  | zero hp _ => cases (hpc _).symm.trans hp
  | suspend hp _ _ _ => cases (hpc _).symm.trans hp
  | launch hp _ _ _ => cases (hpc _).symm.trans hp
  | queue hp _ _ => cases (hpc _).symm.trans hp
  | pass hp _ => cases (hpc _).symm.trans hp
  | sleep hp _ => cases (hpc _).symm.trans hp
  | relock hp => cases (hpc _).symm.trans hp
  | copyOut hp => cases (hpc _).symm.trans hp

/-! ### Fixed inputs -/

/-- The statics of the module as it is loaded. -/
def Kyouko2.zeroed : Kyouko2 where
  pControlBase := 0
  pCardRamBase := 0
  dmaBuffer _ := { buffer := 0, count := 0, isFull := false }
  userVirtAddr _ := 0
  dmaHandle _ := 0
  fill := 0
  drain := 0
  size := 0

def someAnswers : BindAnswers where
  buffer i := UInt64.ofNat (0xC0100000 + i.val * 0x20000)
  handle i := UInt64.ofNat (0x100000 + i.val * 0x20000)
  addr i := UInt64.ofNat (0x40000000 + i.val * 0x20000)

def quickCall {τ : Type*} (t : τ) (n : UInt32) : List (Action τ) :=
  [.startDma t n, .run t, .run t]

/-- Eight requests, three completions and two more requests. -/
def wrapAround : List (Action Unit) :=
  ((List.range 8).flatMap fun i => quickCall () (UInt32.ofNat (i + 1))) ++
    [.irq 2, .irq 2, .irq 2] ++ quickCall () 9 ++ quickCall () 10

end LinuxKerDev.Dma
