import LinuxKerDev.Dma.Solo

/-!
# What the wait in `initiateTransfer` leaves open

A submitter that finds the ring full waits for
`fill != drain || dmaBuffer[fill].isFull == 0` and then stores its request under
a freshly taken lock, without looking at the ring again.  What it saw may be
stale by then, in both directions.

* The ring may have run empty.  Then nothing is in flight, and the request is
  queued without being written to the registers: no interrupt will ever come for
  it.  `served_iff` says that this is the only way a request is left behind.
* Another waiter may have taken the free slot.  Then the store overwrites a
  request that is queued or in flight.  `stores_free_iff` says that this is the
  only way a slot in use is written.

The address copied back is read after the store, so the request that fills the
ring is answered with the buffer that is in flight; `handouts_free_iff` says when
a caller is handed a free one.
-/

namespace LinuxKerDev.Dma

open Lib

/-! ### Requests left behind -/

section Solo

variable {es : List (Event Unit)} {s : Sys Unit}

/-- If the ring holds a request, the card is at work on the oldest one. -/
def Served (_ : List (Event Unit)) (s : Sys Unit) : Prop :=
  (s.drv.dmaBuffer s.drv.drain).isFull = true → s.drv.slotTransfer s.drv.drain ∈ s.dev.busy

/-- A woken submitter re-takes the lock while the ring still holds a request. -/
def RelockNonempty (_ : List (Event Unit)) (s : Sys Unit) (a : Action Unit) : Prop :=
  ∀ n, a = .run () → s.pc () = .relock n → s.drv.fill ≠ s.drv.drain

instance (es : List (Event Unit)) (s : Sys Unit) : DecidablePred (RelockNonempty es s) := fun a =>
  match a, hpc : s.pc () with
  | .run (), .relock n =>
    decidable_of_iff (s.drv.fill ≠ s.drv.drain)
      ⟨fun h _ _ _ => h, fun h => h n rfl hpc⟩
  | .startDma _ _, _ | .irq _, _ => .isTrue fun _ ha => by cases ha
  | .run (), .idle | .run (), .entered | .run (), .check _ | .run (), .asleep _
  | .run (), .copyOut => .isTrue fun _ _ h => by rw [hpc] at h; cases h

def Working (es : List (Event Unit)) (s : Sys Unit) : Prop :=
  ∃ q, SoloRing es s q ∧ (q ≠ [] → s.dev.busy ≠ [])

theorem Working.served (h : Working es s) : Served es s := by
  obtain ⟨q, hq, hw⟩ := h
  intro hfull
  have hne := hq.1.isFull_drain_iff.mp hfull
  rcases hq.1.busy with hb | ⟨-, hb⟩
  · exact absurd hb (hw hne)
  · rw [hb]
    exact List.mem_singleton_self _

theorem Working.step {a : Action Unit} {s' : Sys Unit} {es' : List (Event Unit)}
    (h : Working es s) (hg : RelockNonempty es s a) (hs : StepCase s a s' es') :
    Working (es ++ es') s' := by
  obtain ⟨q, hq, hw⟩ := h
  obtain ⟨q', hrep, hq'⟩ := hq.step hs
  have hm := hq.1.mapped
  have hm' : s.dev.flush.mapped = true := hm
  -- where `fill` and `drain` differ there is a request, and the card is at work on it
  have hwork : s.drv.fill ≠ s.drv.drain → s.dev.busy ≠ [] := by
    intro hfd
    refine hw fun hnil => hfd (hq.1.fill_eq_drain_iff.mpr (Or.inl ?_))
    rw [hnil, List.length_nil]
  refine ⟨q', hq', fun hne => ?_⟩
  cases hs with
  | launch _ _ _ _ => exact program_busy_ne_nil hm _ _
  | queue _ _ hfd => exact hwork hfd
  | relock hpc => exact hwork (hg _ rfl hpc)
  | irqFull _ _ _ _ => exact program_busy_ne_nil hm' _ _
  | irqMore _ _ _ _ => exact program_busy_ne_nil hm' _ _
  | irqStray _ hb hfd hfull => exact absurd (hq.1.eq_nil hfd hfull) (hq.1.ne_nil hb)
  | irqLast _ _ hfd hlast =>
    obtain ⟨x, rfl⟩ := List.length_eq_one_iff.mp (hq.1.length_eq_one hfd hlast)
    obtain ⟨y, hy⟩ := QOp.replay_deq.mp hrep
    exact absurd (List.cons.inj hy).2.symm hne
  | _ =>
    obtain rfl : q = q' := Option.some.inj hrep
    exact hw hne

/-- A woken submitter that finds the ring empty queues a request that nobody
will start. -/
theorem not_served_of_empty {q : List UInt32} (hq : SoloRing es s q) {n : UInt32}
    (hpc : s.pc () = .relock n) (hfd : s.drv.fill = s.drv.drain) (es' : List (Event Unit)) :
    ¬ Served es' ({ s with drv := s.drv.store n }.setPc () .copyOut) := by
  have hlt := hq.2 n hpc
  have hb : s.dev.busy = [] := by
    by_contra hb
    have hne := hq.1.ne_nil hb
    rcases hq.1.fill_eq_drain_iff.mp hfd with h0 | h8
    · exact hne (List.length_eq_zero_iff.mp h0)
    · omega
  intro hs
  have hmem := hs (by
    show ((s.drv.store n).dmaBuffer s.drv.drain).isFull = true
    rw [Kyouko2.store_dmaBuffer, if_pos hfd.symm])
  simp [Sys.setPc, hb] at hmem

/-- **Exactly the runs in which the ring does not run empty under a woken
submitter leave no request behind.** -/
theorem served_iff {ans : BindAnswers} {k : Kyouko2} {as : List (Action Unit)}
    (h : Run step (.afterBind ans k) as es s) :
    AllStates step (.afterBind ans k) Served as ↔
      AllSteps step (.afterBind ans k) RelockNonempty as := by
  have h₀ : Working [] (.afterBind ans k) :=
    ⟨[], ⟨.afterBind ans k, fun n hpc => by cases hpc⟩, fun hne => absurd rfl hne⟩
  rw [allStates_iff, and_iff_right h₀.served]
  refine allSteps_iff (I := Working) h h₀ (fun hi hg hf => hi.step hg (step_cases hf)) ?_
  intro es s a s' es' hi hf
  constructor
  · rintro hserved n rfl hpc hfd
    obtain ⟨q, hq, -⟩ := hi
    exact not_served_of_empty hq hpc hfd _ (hserved _ _ (step_relock hpc))
  · intro hg s₁ es₁ hf₁
    exact (hi.step hg (step_cases hf₁)).served

/-- Nine requests.  The ninth has to wait, the first completion wakes it, and the
other seven come before it runs again. -/
def drainedWhileWoken : List (Action Unit) :=
  (List.replicate 8 (quickCall () 148)).flatten ++ [.startDma () 148, .run (), .run ()] ++
    List.replicate 8 (.irq 2) ++ [.run (), .run ()]

/-- The ninth request is queued on an idle card. -/
theorem ninth_left_behind : ∃ es s,
    Run step (.afterBind someAnswers .zeroed) drainedWhileWoken es s ∧
      (s.drv.dmaBuffer s.drv.drain).isFull = true ∧ s.dev.busy = [] ∧ ¬ Served es s := by
  obtain ⟨es, s, hr, hfull, hb⟩ := exists_run step (.afterBind someAnswers .zeroed) drainedWhileWoken
    (fun _ s => (s.drv.dmaBuffer s.drv.drain).isFull = true ∧ s.dev.busy = [])
    (by decide +kernel)
  refine ⟨es, s, hr, hfull, hb, fun hs => ?_⟩
  have hmem := hs hfull
  rw [hb] at hmem
  cases hmem

/-- The ninth request is stored after one completion, and the other eight follow. -/
def storedInTime : List (Action Unit) :=
  (List.replicate 8 (quickCall () 148)).flatten ++
    [.startDma () 148, .run (), .run (), .irq 2, .run (), .run ()] ++ List.replicate 8 (.irq 2)

/-- Of the two runs only the second meets the condition. -/
theorem served_iff_drained :
    (∃ es s, Run step (.afterBind someAnswers .zeroed) drainedWhileWoken es s ∧
      (AllStates step (.afterBind someAnswers .zeroed) Served drainedWhileWoken ↔
        AllSteps step (.afterBind someAnswers .zeroed) RelockNonempty drainedWhileWoken)) ∧
    ∃ es s, Run step (.afterBind someAnswers .zeroed) storedInTime es s ∧
      flushed es = 9 ∧ AllStates step (.afterBind someAnswers .zeroed) Served storedInTime := by
  constructor
  · obtain ⟨es, s, hr⟩ := exists_run_of_isSome step (.afterBind someAnswers .zeroed)
      drainedWhileWoken (by decide +kernel)
    exact ⟨es, s, hr, served_iff hr⟩
  · obtain ⟨es, s, hr, hflushed⟩ := exists_run step (.afterBind someAnswers .zeroed) storedInTime
      (fun es _ => flushed es = 9) (by decide +kernel)
    exact ⟨es, s, hr, hflushed, (served_iff hr).mpr (allSteps_of_check (by decide +kernel))⟩

/-! ### The buffer handed out -/

/-- The address copied back is that of a free buffer. -/
def HandoutFree (_ : List (Event Unit)) (s : Sys Unit) (a : Action Unit) : Prop :=
  a = .run () → s.pc () = .copyOut → (s.drv.dmaBuffer s.drv.fill).isFull = false

/-- When an address is copied back, fewer than `BUFFERS` of the requests made are
uncompleted. -/
def HandoutRoom (es : List (Event Unit)) (s : Sys Unit) (a : Action Unit) : Prop :=
  a = .run () → s.pc () = .copyOut →
    ((submitted es).filter fun n => decide (n ≠ 0)).length < flushed es + BUFFERS

/-- **The caller is handed a free buffer exactly when the ring is not full.** -/
theorem handouts_free_iff (ans : BindAnswers) (k : Kyouko2) (as : List (Action Unit)) :
    AllSteps step (.afterBind ans k) HandoutFree as ↔
      AllSteps step (.afterBind ans k) HandoutRoom as := by
  refine allSteps_congr fun {bs es s} hr a => ?_
  obtain ⟨q, hq⟩ := solo_ring hr
  refine imp_congr_right fun _ => imp_congr_right fun hpc => ?_
  -- the caller is past its store, so everything it has asked for is accepted
  have hsub : (submitted es).filter (fun n => decide (n ≠ 0)) = accepted es := by
    rw [← requests_sizes es (ans.addr 0), (solo_call hr).queued, pending, hpc, List.append_nil]
  have hlen := hq.1.length_eq
  have hle := hq.1.length_le
  rw [hsub, ← Bool.not_eq_true, hq.1.isFull_fill_iff]
  omega

/-- Eight requests, with no completion so far, and the eighth address about to be
copied back. -/
def eighthHandout : List (Action Unit) :=
  (List.replicate 7 (quickCall () 148)).flatten ++ [.startDma () 148, .run ()]

/-- The eighth caller is handed the buffer in flight. -/
theorem eighth_handout_in_flight : ∃ es s,
    Run step (.afterBind someAnswers .zeroed) eighthHandout es s ∧ s.pc () = .copyOut ∧
      s.drv.fill = s.drv.drain ∧ s.dev.busy = [s.drv.slotTransfer s.drv.fill] ∧
      ¬ HandoutFree es s (.run ()) := by
  obtain ⟨es, s, hr, hpc, hfd, hb, hfull⟩ := exists_run step (.afterBind someAnswers .zeroed)
    eighthHandout
    (fun _ s => s.pc () = .copyOut ∧ s.drv.fill = s.drv.drain ∧
      s.dev.busy = [s.drv.slotTransfer s.drv.fill] ∧ (s.drv.dmaBuffer s.drv.fill).isFull = true)
    (by decide +kernel)
  refine ⟨es, s, hr, hpc, hfd, hb, fun hfree => ?_⟩
  rw [hfree rfl hpc] at hfull
  cases hfull

end Solo

/-! ### Slots overwritten -/

section Many

variable {τ : Type*} [DecidableEq τ] {es : List (Event τ)} {s : Sys τ}

def StoresFree (_ : List (Event τ)) (s : Sys τ) (a : Action τ) : Prop :=
  ∀ s' es' t n, step s a = some (s', es') → .store t n ∈ es' →
    (s.drv.dmaBuffer s.drv.fill).isFull = false

/-- With the ring invariant, a store finds its slot free exactly when there is
room. -/
theorem RingInv.storesFree_iff {q : List UInt32} (h : RingInv es s.drv s.dev q) {a : Action τ}
    {s' : Sys τ} {es' : List (Event τ)} (hf : Dma.step s a = some (s', es')) :
    StoresFree es s a ↔ Room es s a := by
  have hlen := h.length_eq
  have hle := h.length_le
  have hfree : (s.drv.dmaBuffer s.drv.fill).isFull = false ↔
      (accepted es).length < flushed es + BUFFERS := by
    rw [← Bool.not_eq_true, h.isFull_fill_iff]
    omega
  constructor
  · rintro hfr t n rfl hpc
    exact hfree.mp (hfr _ _ t n (step_relock hpc) (List.mem_singleton_self _))
  · intro hroom s₁ es₁ t n hf₁ hmem
    cases step_cases hf₁ with
    | launch _ _ _ hfull => exact hfull
    | queue _ _ hfd =>
      have hlt := h.waitCondition_iff.mp (Or.inl hfd)
      exact hfree.mpr (by omega)
    | @relock t' n' hpc => exact hfree.mpr (hroom t' n' rfl hpc)
    | _ => simp at hmem

/-- **Exactly the runs in which every woken thread re-takes the lock with room in
the ring never overwrite a slot in use.**  Any number of threads may call. -/
theorem stores_free_iff {ans : BindAnswers} {k : Kyouko2} {as : List (Action τ)}
    (h : Run step (.afterBind ans k) as es s) :
    AllSteps step (.afterBind ans k) StoresFree as ↔ AllSteps step (.afterBind ans k) Room as := by
  refine allSteps_iff (I := fun es s => ∃ q, RingInv es s.drv s.dev q) h
    ⟨[], .afterBind ans k⟩ ?_ ?_
  · rintro es s a s' es' ⟨q, hq⟩ hroom hf
    obtain ⟨q', -, hq'⟩ := hq.step hroom (step_cases hf)
    exact ⟨q', hq'⟩
  · rintro es s a s' es' ⟨q, hq⟩ hf
    exact hq.storesFree_iff hf

end Many

/-- A full ring and two threads that wait; one completion wakes both, both look,
and the first has stored its request. -/
def twoWaiters : List (Action (Fin 2)) :=
  (List.replicate 8 (quickCall 0 148)).flatten ++
    [.startDma 0 152, .run 0, .run 0, .startDma 1 156, .run 1, .run 1, .irq 2,
      .run 0, .run 1, .run 0]

/-- The second one overwrites the slot in flight. -/
theorem second_waiter_overwrites : ∃ es s,
    Run step (.afterBind someAnswers .zeroed) twoWaiters es s ∧
      s.dev.busy = [s.drv.slotTransfer s.drv.fill] ∧ s.pc 1 = .relock 156 ∧
      ¬ StoresFree es s (.run 1) := by
  obtain ⟨es, s, hr, hb, hpc, hfull⟩ := exists_run step (.afterBind someAnswers .zeroed) twoWaiters
    (fun _ s => s.dev.busy = [s.drv.slotTransfer s.drv.fill] ∧ s.pc 1 = .relock 156 ∧
      (s.drv.dmaBuffer s.drv.fill).isFull = true)
    (by decide +kernel)
  refine ⟨es, s, hr, hb, hpc, fun hfr => ?_⟩
  have hfree := hfr _ _ 1 156 (step_relock hpc) (List.mem_singleton_self _)
  rw [hfree] at hfull
  cases hfull

theorem stores_free_iff_twoWaiters : ∃ es s,
    Run step (.afterBind someAnswers .zeroed) twoWaiters es s ∧
      (AllSteps step (.afterBind someAnswers .zeroed) StoresFree twoWaiters ↔
        AllSteps step (.afterBind someAnswers .zeroed) Room twoWaiters) := by
  obtain ⟨es, s, hr⟩ := exists_run_of_isSome step (.afterBind someAnswers .zeroed)
    twoWaiters (by decide +kernel)
  exact ⟨es, s, hr, stores_free_iff hr⟩

end LinuxKerDev.Dma
