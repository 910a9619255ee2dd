import LinuxKerDev.Dma.Ring

/-!
# One submitter

With one thread issuing `START_DMA`, nothing but interrupts can run between its
look at the wait condition and its second locked section, and interrupts only
make room.  So the ring invariant holds in every run (`solo_ring`), and with it
the ring is a queue of capacity `BUFFERS` whose operations are exactly the
accepted requests and the flush interrupts (`ring_refines_queue`).

`CallInv` follows the calls: which sizes have been submitted, which of them are
queued, and which address the caller was last told to write to.
-/

namespace LinuxKerDev.Dma

open Lib

/-! ### What the calls of a run ask for -/

def sizes {τ : Type*} (as : List (Action τ)) : List UInt32 :=
  as.filterMap fun
    | .startDma _ n => some n
    | _ => none

def submitted {τ : Type*} (es : List (Event τ)) : List UInt32 :=
  es.filterMap fun
    | .submit _ n => some n
    | _ => none

section

variable {τ : Type*}

/-- The address most recently copied out to the caller, `a` before the first. -/
def lastAddr : UInt64 → List (Event τ) → UInt64
  | a, [] => a
  | _, .handout _ b :: es => lastAddr b es
  | a, .submit _ _ :: es => lastAddr a es
  | a, .store _ _ :: es => lastAddr a es
  | a, .irq :: es => lastAddr a es

/-- The requests submitted with a nonzero size, each with the address most
recently copied out before it. -/
def requests : UInt64 → List (Event τ) → List (UInt64 × UInt32)
  | _, [] => []
  | _, .handout _ b :: es => requests b es
  | a, .submit _ n :: es => if n = 0 then requests a es else (a, n) :: requests a es
  | a, .store _ _ :: es => requests a es
  | a, .irq :: es => requests a es

theorem lastAddr_append (es' : List (Event τ)) : ∀ (es : List (Event τ)) (a : UInt64),
    lastAddr a (es ++ es') = lastAddr (lastAddr a es) es' := by
  intro es
  induction es with
  | nil => intro a; rfl
  | cons e es ih => intro a; cases e <;> exact ih _

theorem requests_append (es' : List (Event τ)) : ∀ (es : List (Event τ)) (a : UInt64),
    requests a (es ++ es') = requests a es ++ requests (lastAddr a es) es' := by
  intro es
  induction es with
  | nil => intro a; rfl
  | cons e es ih =>
    intro a
    cases e with
    | submit t n =>
      simp only [List.cons_append, requests, lastAddr, ih]
      split <;> rfl
    | store t n => exact ih a
    | irq => exact ih a
    | handout t b => exact ih b

theorem requests_sizes : ∀ (es : List (Event τ)) (a : UInt64),
    (requests a es).map Prod.snd = (submitted es).filter (fun n => decide (n ≠ 0)) := by
  intro es
  induction es with
  | nil => intro a; rfl
  | cons e es ih =>
    intro a
    cases e with
    | submit t n =>
      by_cases h : n = 0
      · simpa [requests, submitted, h] using ih a
      · simpa [requests, submitted, h] using ih a
    | store t n => exact ih a
    | irq => exact ih a
    | handout t b => exact ih b

variable [DecidableEq τ]

theorem submitted_eq {s₀ s : Sys τ} {as : List (Action τ)} {es : List (Event τ)}
    (h : Run step s₀ as es s) : submitted es = sizes as := by
  induction h with
  | nil => rfl
  | snoc _ hf ih =>
    rw [submitted, List.filterMap_append, sizes, List.filterMap_append]
    refine congrArg₂ (· ++ ·) ih ?_
    cases step_cases hf <;> rfl

theorem StepCase.keeps {s s' : Sys τ} {a : Action τ} {es : List (Event τ)}
    (h : StepCase s a s' es) :
    s'.drv.dmaHandle = s.drv.dmaHandle ∧ s'.drv.userVirtAddr = s.drv.userVirtAddr := by
  cases h <;> exact ⟨rfl, rfl⟩

theorem dmaHandle_eq {ans : BindAnswers} {k : Kyouko2} {as : List (Action τ)}
    {es : List (Event τ)} {s : Sys τ} (h : Run step (.afterBind ans k) as es s)
    (i : Fin BUFFERS) : s.drv.dmaHandle i = ans.handle i :=
  h.inv (I := fun _ s => s.drv.dmaHandle i = ans.handle i) (bindDma_dmaHandle ans (k, []) i)
    fun hi hf => by rw [(step_cases hf).keeps.1, hi]

theorem userVirtAddr_eq {ans : BindAnswers} {k : Kyouko2} {as : List (Action τ)}
    {es : List (Event τ)} {s : Sys τ} (h : Run step (.afterBind ans k) as es s)
    (i : Fin BUFFERS) : s.drv.userVirtAddr i = ans.addr i :=
  h.inv (I := fun _ s => s.drv.userVirtAddr i = ans.addr i) (bindDma_userVirtAddr ans (k, []) i)
    fun hi hf => by rw [(step_cases hf).keeps.2, hi]

end

/-! ### The ring with one submitter -/

variable {ans : BindAnswers} {k : Kyouko2} {as : List (Action Unit)} {es : List (Event Unit)}
  {s : Sys Unit}

/-- An interrupt leaves room. -/
theorem length_of_deq {q q' : List UInt32} (hle : q.length ≤ BUFFERS)
    (h : QOp.replay BUFFERS q [.deq] = some q') : q'.length < BUFFERS := by
  obtain ⟨x, rfl⟩ := QOp.replay_deq.mp h
  exact hle

/-- The ring invariant, and room for a submitter that is past its wait. -/
def SoloRing (es : List (Event Unit)) (s : Sys Unit) (q : List UInt32) : Prop :=
  RingInv es s.drv s.dev q ∧ ∀ n, s.pc () = .relock n → q.length < BUFFERS

theorem SoloRing.room {q : List UInt32} (h : SoloRing es s q) (a : Action Unit) : Room es s a := by
  intro t n _ hpc
  have hlt := h.2 n hpc
  have hlen := h.1.length_eq
  omega

theorem SoloRing.step {q : List UInt32} (h : SoloRing es s q) {a : Action Unit} {s' : Sys Unit}
    {es' : List (Event Unit)} (hs : StepCase s a s' es') :
    ∃ q', QOp.replay BUFFERS q (ops es') = some q' ∧ SoloRing (es ++ es') s' q' := by
  obtain ⟨q', hrep, hi⟩ := h.1.step (h.room a) hs
  refine ⟨q', hrep, hi, fun n hpc => ?_⟩
  have hle := h.1.length_le
  cases hs with
  | pass _ hc =>
    obtain rfl : q = q' := by simpa [QOp.replay] using hrep
    exact h.1.waitCondition_iff.mp hc
  | spurious _ =>
    obtain rfl : q = q' := by simpa [QOp.replay] using hrep
    exact h.2 n hpc
  | irqFull _ _ _ _ => exact length_of_deq hle hrep
  | irqStray _ _ _ _ => exact length_of_deq hle hrep
  | irqMore _ _ _ _ => exact length_of_deq hle hrep
  | irqLast _ _ _ _ => exact length_of_deq hle hrep
  | _ => simp [Sys.setPc, Function.update] at hpc

theorem solo_ring (h : Run step (.afterBind ans k) as es s) : ∃ q, SoloRing es s q := by
  refine h.inv (I := fun es s => ∃ q, SoloRing es s q) ?_ ?_
  · exact ⟨[], .afterBind ans k, fun n hpc => by cases hpc⟩
  · rintro es s a s' es' ⟨q, hi⟩ hf
    obtain ⟨q', -, hi'⟩ := hi.step (step_cases hf)
    exact ⟨q', hi'⟩


/-! ### The calls of the one submitter -/

def pending (s : Sys Unit) : List UInt32 :=
  match s.pc () with
  | .entered => if s.drv.size = 0 then [] else [s.drv.size]
  | .check n | .asleep n | .relock n => [n]
  | _ => []

theorem mem_pending_of_entered (hpc : s.pc () = .entered) (h0 : s.drv.size ≠ 0) :
    s.drv.size ∈ pending s := by
  rw [pending, hpc]
  simp only [h0, if_false, List.mem_singleton]

theorem mem_pending_of_carried {n : UInt32} (h : (s.pc ()).carried = some n) : n ∈ pending s := by
  unfold pending
  cases hpc : s.pc () with
  | check m | asleep m | relock m =>
    rw [hpc] at h
    obtain rfl : m = n := Option.some.inj h
    exact List.mem_singleton_self _
  | idle | entered | copyOut => simp [hpc, Pc.carried] at h

theorem pending_interrupt {s' : Sys Unit} (hpc : s'.pc () = s.pc () ∨ s'.pc () = (s.pc ()).wake)
    (hsize : s'.drv.size = s.drv.size) : pending s' = pending s := by
  rw [pending, pending, hsize]
  rcases hpc with hpc | hpc <;> rw [hpc]
  cases s.pc () <;> rfl

/-- The submitted requests are the accepted ones and the pending one; request
`i` came with the address of buffer `i` modulo `BUFFERS`; and a caller that is
outside the driver was last told the address of the buffer `fill`. -/
structure CallInv (ans : BindAnswers) (es : List (Event Unit)) (s : Sys Unit) : Prop where
  queued : (requests (ans.addr 0) es).map Prod.snd = accepted es ++ pending s
  carried : ∀ n, (s.pc ()).carried = some n → n ≠ 0
  addr : ∀ i r, (requests (ans.addr 0) es)[i]? = some r → r.1 = ans.addr (Fin.ofNat BUFFERS i)
  last : s.pc () = .idle → lastAddr (ans.addr 0) es = ans.addr s.drv.fill

namespace CallInv

theorem quiet (h : CallInv ans es s) {es' : List (Event Unit)} {s' : Sys Unit}
    (hreq : ∀ a, requests a es' = []) (hpend : accepted es' ++ pending s' = pending s)
    (hcar : ∀ n, (s'.pc ()).carried = some n → n ≠ 0)
    (hlast : s'.pc () = .idle → lastAddr (lastAddr (ans.addr 0) es) es' = ans.addr s'.drv.fill) :
    CallInv ans (es ++ es') s' where
  queued := by
    rw [requests_append, hreq, List.append_nil, h.queued, accepted_append, List.append_assoc, hpend]
  carried := hcar
  addr i r hr := by
    rw [requests_append, hreq, List.append_nil] at hr
    exact h.addr i r hr
  last hpc := by rw [lastAddr_append, hlast hpc]

/-- A step of the interrupt handler: it leaves `fill`, `size` and the call alone,
but for waking the caller. -/
theorem interrupt (h : CallInv ans es s) {s' : Sys Unit}
    (hpc : s'.pc () = s.pc () ∨ s'.pc () = (s.pc ()).wake)
    (hsize : s'.drv.size = s.drv.size) (hfill : s'.drv.fill = s.drv.fill) :
    CallInv ans (es ++ [.irq]) s' := by
  refine h.quiet (fun _ => rfl) (pending_interrupt hpc hsize) (fun n hn => h.carried n ?_)
    fun hi => ?_
  · rcases hpc with hpc | hpc <;> rw [hpc] at hn
    · exact hn
    · rwa [Pc.carried_wake] at hn
  · have hidle : s.pc () = .idle := by
      rcases hpc with hpc | hpc <;> rw [hpc] at hi
      · exact hi
      · exact Pc.wake_eq_idle.mp hi
    rw [hfill, ← h.last hidle]
    rfl

theorem submit {q : List UInt32} (h : CallInv ans es s) (hq : SoloRing es s q)
    (hpc : s.pc () = .idle) (n : UInt32) :
    CallInv ans (es ++ [.submit () n])
      ({ s with drv := { s.drv with size := n } }.setPc () .entered) := by
  have hp : pending s = [] := by rw [pending, hpc]
  have hlen : (requests (ans.addr 0) es).length = (accepted es).length := by
    rw [← List.length_map (f := Prod.snd), h.queued, hp, List.append_nil]
  refine ⟨?_, fun m hm => by simp [Sys.setPc, Pc.carried] at hm, fun i r hr => ?_,
    fun hi => by simp [Sys.setPc] at hi⟩
  · rw [requests_append, List.map_append, h.queued, hp, accepted_append]
    by_cases h0 : n = 0 <;> simp [requests, pending, Sys.setPc, h0, accepted, QOp.enqs]
  · rw [requests_append] at hr
    rcases Nat.lt_or_ge i (requests (ans.addr 0) es).length with hlt | hge
    · rw [List.getElem?_append_left hlt] at hr
      exact h.addr i r hr
    · rw [List.getElem?_append_right hge] at hr
      by_cases h0 : n = 0
      · simp [requests, h0] at hr
      · have hi : i - (requests (ans.addr 0) es).length = 0 := by
          have := (List.getElem?_eq_some_iff.mp hr).1
          simp only [requests, if_neg h0, List.length_singleton] at this
          omega
        have he : i = (accepted es).length := by omega
        rw [hi] at hr
        simp only [requests, if_neg h0, List.getElem?_cons_zero, Option.some.injEq] at hr
        subst hr
        rw [h.last hpc, hq.1.fill_eq, he]

theorem step {q : List UInt32} (h : CallInv ans es s) (hq : SoloRing es s q)
    (haddr : ∀ i, s.drv.userVirtAddr i = ans.addr i) {a : Action Unit} {s' : Sys Unit}
    {es' : List (Event Unit)} (hs : StepCase s a s' es') : CallInv ans (es ++ es') s' := by
  cases hs with
  | submit hpc => exact h.submit hq hpc _
  | zero hpc h0 =>
    exact h.quiet (fun _ => rfl) (by simp [pending, Sys.setPc, hpc, h0, accepted, QOp.enqs])
      (by simp [Sys.setPc, Pc.carried]) (by simp [Sys.setPc])
  | suspend hpc h0 _ _ =>
    exact h.quiet (fun _ => rfl) (by simp [pending, Sys.setPc, hpc, h0, accepted, QOp.enqs])
      (by simpa [Sys.setPc, Pc.carried] using h0) (by simp [Sys.setPc])
  | launch hpc h0 _ _ =>
    exact h.quiet (fun _ => rfl) (by simp [pending, Sys.setPc, hpc, h0, accepted, QOp.enqs])
      (by simp [Sys.setPc, Pc.carried]) (by simp [Sys.setPc])
  | queue hpc h0 _ =>
    exact h.quiet (fun _ => rfl) (by simp [pending, Sys.setPc, hpc, h0, accepted, QOp.enqs])
      (by simp [Sys.setPc, Pc.carried]) (by simp [Sys.setPc])
  | @pass t n hpc _ =>
    have hn : n ≠ 0 := h.carried n (by rw [hpc]; rfl)
    exact h.quiet (fun _ => rfl) (by simp [pending, Sys.setPc, hpc, accepted, QOp.enqs])
      (by simpa [Sys.setPc, Pc.carried] using hn) (by simp [Sys.setPc])
  | @sleep t n hpc _ =>
    have hn : n ≠ 0 := h.carried n (by rw [hpc]; rfl)
    exact h.quiet (fun _ => rfl) (by simp [pending, Sys.setPc, hpc, accepted, QOp.enqs])
      (by simpa [Sys.setPc, Pc.carried] using hn) (by simp [Sys.setPc])
  | relock hpc =>
    exact h.quiet (fun _ => rfl) (by simp [pending, Sys.setPc, hpc, accepted, QOp.enqs])
      (by simp [Sys.setPc, Pc.carried]) (by simp [Sys.setPc])
  | copyOut hpc =>
    exact h.quiet (fun _ => rfl) (by simp [pending, Sys.setPc, hpc, accepted, QOp.enqs])
      (by simp [Sys.setPc, Pc.carried]) fun _ => haddr _
  | spurious _ => simpa using h
  | irqFull _ _ _ _ => exact h.interrupt (Or.inr rfl) rfl rfl
  | irqStray _ _ _ _ => exact h.interrupt (Or.inl rfl) rfl rfl
  | irqMore _ _ _ _ => exact h.interrupt (Or.inl rfl) rfl rfl
  | irqLast _ _ _ _ => exact h.interrupt (Or.inl rfl) rfl rfl

end CallInv


theorem solo_call (h : Run step (.afterBind ans k) as es s) : CallInv ans es s := by
  refine h.inv_using (I := CallInv ans)
    (K := fun es s => (∃ q, SoloRing es s q) ∧ ∀ i, s.drv.userVirtAddr i = ans.addr i)
    (fun hr => ⟨solo_ring hr, userVirtAddr_eq hr⟩) ?_ ?_
  · constructor
    · rfl
    · intro n hn
      cases hn
    · intro i r hr
      simp [requests] at hr
    · intro _
      rfl
  · rintro es s a s' es' ⟨⟨q, hq⟩, haddr⟩ hi hf
    exact hi.step hq haddr (step_cases hf)

/-- The nonzero sizes asked for are the accepted ones and the pending one. -/
theorem accepted_pending (h : Run step (.afterBind ans k) as es s) :
    (sizes as).filter (fun n => decide (n ≠ 0)) = accepted es ++ pending s := by
  rw [← (solo_call h).queued, requests_sizes, submitted_eq h]

/-! ### The ring is a queue -/

/-- What the slots and the indices have to say for the driver to hold `q`. -/
structure IsQueue (k : Kyouko2) (q : List UInt32) : Prop where
  length_le : q.length ≤ BUFFERS
  isFull_iff : ∀ i, (k.dmaBuffer i).isFull = true ↔
    ∃ j < q.length, i = k.drain + Fin.ofNat BUFFERS j
  count_eq : ∀ j < q.length, q[j]? = some (k.dmaBuffer (k.drain + Fin.ofNat BUFFERS j)).count
  fill_eq : k.fill = k.drain + Fin.ofNat BUFFERS q.length
  fill_eq_drain_iff : k.fill = k.drain ↔ q.length = 0 ∨ q.length = BUFFERS
  isFull_fill_iff : (k.dmaBuffer k.fill).isFull = true ↔ q.length = BUFFERS

theorem isQueue_of_rep {k : Kyouko2} {q : List UInt32} (h : k.ring.Represents q) :
    IsQueue k q where
  length_le := h.length_le
  isFull_iff := h.full_iff_exists
  count_eq _ hj := h.val_add hj
  fill_eq := h.fill_eq
  fill_eq_drain_iff := h.fill_eq_drain_iff
  isFull_fill_iff := h.full_fill_iff

/-- The size that the running call of `initiateTransfer` was given. -/
def callSize (s : Sys Unit) : Option UInt32 :=
  match s.pc () with
  | .entered => some s.drv.size
  | .check n | .asleep n | .relock n => some n
  | _ => none

/-- What a step may do to the queue: `initiateTransfer` returns and has appended
its nonzero size, or has done nothing with a zero size; a flush interrupt takes
off the head; or nothing of the kind happens and the ring stays as it was. -/
inductive QueueStep (s s' : Sys Unit) (q : List UInt32) : Action Unit → List UInt32 → Prop
  | append {n : UInt32} (hcall : callSize s = some n) (hn : n ≠ 0) (hroom : q.length < BUFFERS)
      (hret : s'.pc () = .copyOut) : QueueStep s s' q (.run ()) (q ++ [n])
  | zero (hcall : callSize s = some 0) (hret : s'.pc () = .copyOut) (hdrv : s'.drv = s.drv)
      (hdev : s'.dev = s.dev) : QueueStep s s' q (.run ()) q
  | remove {flags : UInt32} {x : UInt32} {q' : List UInt32} (hf : flags &&& 0x2 ≠ 0)
      (hq : q = x :: q') : QueueStep s s' q (.irq flags) q'
  | other {a : Action Unit} (hret : s'.pc () = .copyOut → s.pc () = .copyOut)
      (hirq : ∀ flags, a = .irq flags → flags &&& 0x2 = 0)
      (hring : s'.drv.ring = s.drv.ring) : QueueStep s s' q a q

theorem SoloRing.queueStep {q : List UInt32} (h : SoloRing es s q) (hc : CallInv ans es s)
    {a : Action Unit} {s' : Sys Unit} {es' : List (Event Unit)} (hs : StepCase s a s' es') :
    ∃ q', QueueStep s s' q a q' ∧ IsQueue s'.drv q' := by
  obtain ⟨q', hrep, hi⟩ := h.step hs
  refine ⟨q', ?_, isQueue_of_rep hi.1.rep⟩
  cases hs with
  | launch hpc h0 _ _ =>
    obtain ⟨hlt, rfl⟩ := QOp.replay_enq.mp hrep
    exact .append (by rw [callSize, hpc]) h0 hlt (by simp [Sys.setPc])
  | queue hpc h0 _ =>
    obtain ⟨hlt, rfl⟩ := QOp.replay_enq.mp hrep
    exact .append (by rw [callSize, hpc]) h0 hlt (by simp [Sys.setPc])
  | relock hpc =>
    obtain ⟨hlt, rfl⟩ := QOp.replay_enq.mp hrep
    exact .append (by rw [callSize, hpc]) (hc.carried _ (by rw [hpc]; rfl)) hlt
      (by simp [Sys.setPc])
  | irqFull hf _ _ _ =>
    obtain ⟨x, hq⟩ := QOp.replay_deq.mp hrep
    exact .remove hf hq
  | irqStray hf _ _ _ =>
    obtain ⟨x, hq⟩ := QOp.replay_deq.mp hrep
    exact .remove hf hq
  | irqMore hf _ _ _ =>
    obtain ⟨x, hq⟩ := QOp.replay_deq.mp hrep
    exact .remove hf hq
  | irqLast hf _ _ _ =>
    obtain ⟨x, hq⟩ := QOp.replay_deq.mp hrep
    exact .remove hf hq
  | zero hpc h0 =>
    obtain rfl : q = q' := Option.some.inj hrep
    exact .zero (by rw [callSize, hpc, h0]) (by simp [Sys.setPc]) rfl rfl
  | spurious hf =>
    obtain rfl : q = q' := Option.some.inj hrep
    exact .other id (by rintro _ ⟨⟩; exact hf) rfl
  | submit _ =>
    obtain rfl : q = q' := Option.some.inj hrep
    exact .other (by simp [Sys.setPc]) (by simp) rfl
  | suspend _ _ _ _ =>
    obtain rfl : q = q' := Option.some.inj hrep
    exact .other (by simp [Sys.setPc]) (by simp) rfl
  | pass _ _ =>
    obtain rfl : q = q' := Option.some.inj hrep
    exact .other (by simp [Sys.setPc]) (by simp) rfl
  | sleep _ _ =>
    obtain rfl : q = q' := Option.some.inj hrep
    exact .other (by simp [Sys.setPc]) (by simp) rfl
  | copyOut _ =>
    obtain rfl : q = q' := Option.some.inj hrep
    exact .other (by simp [Sys.setPc]) (by simp) rfl

/-- **The ring refines a queue of capacity `BUFFERS`.**  In every state that one
submitter and the interrupts can reach, the slots hold the requests that are
accepted and not completed, oldest first; and from there every step is one
append, one removal, or leaves the ring alone. -/
theorem ring_refines_queue (h : Run step (.afterBind ans k) as es s) :
    ∃ q, IsQueue s.drv q ∧ q = (accepted es).drop (flushed es) ∧
      (sizes as).filter (fun n => decide (n ≠ 0)) = accepted es ++ pending s ∧
      QOp.replay BUFFERS [] (ops es) = some q ∧
      ∀ a s' es', step s a = some (s', es') → ∃ q', QueueStep s s' q a q' ∧ IsQueue s'.drv q' := by
  obtain ⟨q, hq⟩ := solo_ring h
  refine ⟨q, isQueue_of_rep hq.1.rep, hq.1.eq_drop, accepted_pending h, hq.1.replay, ?_⟩
  intro a s' es' hf
  exact hq.queueStep (solo_call h) (step_cases hf)

/-- Ten requests and three completions, after which `fill` has wrapped around. -/
theorem ring_refines_queue_wrapped : ∃ es s,
    Run step (.afterBind someAnswers .zeroed) wrapAround es s ∧
      s.drv.fill = 2 ∧ s.drv.drain = 3 ∧
      ∃ q, IsQueue s.drv q ∧ q = (accepted es).drop (flushed es) := by
  obtain ⟨es, s, hr, hfill, hdrain⟩ := exists_run step (.afterBind someAnswers .zeroed) wrapAround
    (fun _ s => s.drv.fill = 2 ∧ s.drv.drain = 3)
    (by decide +kernel)
  obtain ⟨q, hq, he, -⟩ := ring_refines_queue hr
  exact ⟨es, s, hr, hfill, hdrain, q, hq, he⟩

end LinuxKerDev.Dma
