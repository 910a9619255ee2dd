import LinuxKerDev.Dma.StartDma

/-!
# The ring of `dmaBuffer.c` is a queue

`RingInv` is the invariant that ties the slots, the card and the history of a
run together: the slots stand for the queue of the requests accepted and not
yet completed, `drain` counts the flush interrupts, and the card has at most
one transfer in flight, which is then the request at the head.

No step breaks it but one: a woken thread stores without looking at the ring
again, so `RingInv.step` asks for `Room`, that fewer than `BUFFERS` requests are
uncompleted when a thread re-takes the lock.  Whether a run has `Room` depends
on who else is running; that is settled for one submitter in `Solo.lean` and
for many in `Waits.lean`.

What can *not* be proved is that the queue is empty when the card is idle: the
invariant leaves open that requests are queued and nothing is in flight.
-/

namespace LinuxKerDev.Dma

open Lib

variable {τ : Type*}

/-! ### Queue operations in a run -/

def Event.op : Event τ → Option (QOp UInt32)
  | store _ n => some (.enq n)
  | irq => some .deq
  | _ => none

def ops (es : List (Event τ)) : List (QOp UInt32) := es.filterMap Event.op

def accepted (es : List (Event τ)) : List UInt32 := QOp.enqs (ops es)

def flushed (es : List (Event τ)) : Nat := QOp.deqs (ops es)

theorem ops_append (es es' : List (Event τ)) : ops (es ++ es') = ops es ++ ops es' :=
  List.filterMap_append

@[simp] theorem ops_nil : ops ([] : List (Event τ)) = [] := rfl
@[simp] theorem ops_submit (t : τ) (n : UInt32) : ops [Event.submit t n] = [] := rfl
@[simp] theorem ops_store (t : τ) (n : UInt32) : ops [Event.store t n] = [.enq n] := rfl
@[simp] theorem ops_irq : ops [(Event.irq : Event τ)] = [.deq] := rfl
@[simp] theorem ops_handout (t : τ) (a : UInt64) : ops [Event.handout t a] = [] := rfl

@[simp] theorem accepted_append (es es' : List (Event τ)) :
    accepted (es ++ es') = accepted es ++ accepted es' := by
  rw [accepted, ops_append, QOp.enqs_append, accepted, accepted]

@[simp] theorem flushed_append (es es' : List (Event τ)) :
    flushed (es ++ es') = flushed es + flushed es' := by
  rw [flushed, ops_append, QOp.deqs_append, flushed, flushed]

/-! ### The invariant -/

/-- The ring stands for the queue that the run has built, and the card has at
most one transfer in flight, which is then the head of the queue. -/
structure RingInv (es : List (Event τ)) (k : Kyouko2) (d : Device) (q : List UInt32) : Prop where
  replay : QOp.replay BUFFERS [] (ops es) = some q
  rep : k.ring.Represents q
  drain_eq : k.drain = Fin.ofNat BUFFERS (flushed es)
  mapped : d.mapped = true
  busy : d.busy = [] ∨ q ≠ [] ∧ d.busy = [k.slotTransfer k.drain]

theorem slotTransfer_store_of_ne {k : Kyouko2} {i : Fin BUFFERS} (h : i ≠ k.fill) (n : UInt32) :
    (k.store n).slotTransfer i = k.slotTransfer i := by
  simp [Kyouko2.slotTransfer, Kyouko2.store_dmaBuffer, h]

theorem slotTransfer_store_fill (k : Kyouko2) (n : UInt32) :
    (k.store n).slotTransfer k.fill = ((k.dmaHandle k.fill).toUInt32, n) := by
  simp [Kyouko2.slotTransfer, Kyouko2.store_dmaBuffer]

/-- What a waiter waits for is room in the ring. -/
theorem waitCondition_iff_of_rep {k : Kyouko2} {q : List UInt32} (h : k.ring.Represents q) :
    waitCondition k ↔ q.length < BUFFERS := by
  have hle := h.length_le
  have hN : BUFFERS = 8 := rfl
  have hfd : k.fill = k.drain ↔ q.length = 0 ∨ q.length = BUFFERS := h.fill_eq_drain_iff
  have hfull : (k.dmaBuffer k.fill).isFull = true ↔ q.length = BUFFERS := h.full_fill_iff
  rw [waitCondition, ne_eq, hfd, ← Bool.not_eq_true, hfull]
  omega

/-- The handler takes off the head of the queue, if there is one. -/
theorem dmaInterrupt_of_rep {k : Kyouko2} {q : List UInt32} (h : k.ring.Represents q)
    {flags : UInt32} (hf : flags &&& 0x2 ≠ 0) (d : Device) :
    (dmaInterrupt k d flags).1 = if q = [] then k else k.retire := by
  have hN : BUFFERS = 8 := rfl
  have hfd : k.fill = k.drain ↔ q.length = 0 ∨ q.length = BUFFERS := h.fill_eq_drain_iff
  have hfull : (k.dmaBuffer k.fill).isFull = true ↔ q.length = BUFFERS := h.full_fill_iff
  cases q with
  | nil =>
    have hb : (k.dmaBuffer k.fill).isFull = false :=
      Bool.eq_false_iff.mpr fun hb => absurd (hfull.mp hb) (by decide)
    rw [dmaInterrupt_stray hf (hfd.mpr (Or.inl rfl)) hb, if_pos rfl]
  | cons x r =>
    rw [if_neg (List.cons_ne_nil x r)]
    by_cases he : k.fill = k.drain
    · have hlen : (x :: r).length = BUFFERS := (hfd.mp he).resolve_left (by simp)
      rw [dmaInterrupt_full hf he (hfull.mpr hlen)]
    · by_cases hl : k.fill = k.drain + 1
      · rw [dmaInterrupt_last hf hl]
      · rw [dmaInterrupt_more hf he hl]

namespace RingInv

variable {es : List (Event τ)} {k : Kyouko2} {d : Device} {q : List UInt32}

theorem length_eq (h : RingInv es k d q) : (accepted es).length = flushed es + q.length := by
  obtain ⟨hle, hq⟩ := QOp.replay_eq h.replay
  rw [List.nil_append] at hq
  rw [hq, List.length_drop, accepted, flushed]
  simp only [List.length_nil, Nat.zero_add] at hle
  omega

theorem eq_drop (h : RingInv es k d q) : q = (accepted es).drop (flushed es) := by
  simpa [accepted, flushed] using (QOp.replay_eq h.replay).2

theorem length_le (h : RingInv es k d q) : q.length ≤ BUFFERS := h.rep.length_le

theorem fill_eq (h : RingInv es k d q) : k.fill = Fin.ofNat BUFFERS (accepted es).length := by
  rw [h.length_eq, ofNat_add, ← h.drain_eq]
  exact h.rep.fill_eq

theorem fill_eq_drain_iff (h : RingInv es k d q) :
    k.fill = k.drain ↔ q.length = 0 ∨ q.length = BUFFERS := h.rep.fill_eq_drain_iff

theorem isFull_fill_iff (h : RingInv es k d q) :
    (k.dmaBuffer k.fill).isFull = true ↔ q.length = BUFFERS := h.rep.full_fill_iff

theorem isFull_drain_iff (h : RingInv es k d q) :
    (k.dmaBuffer k.drain).isFull = true ↔ q ≠ [] := h.rep.full_drain_iff

theorem waitCondition_iff (h : RingInv es k d q) : waitCondition k ↔ q.length < BUFFERS :=
  waitCondition_iff_of_rep h.rep

theorem eq_nil (h : RingInv es k d q) (hfd : k.fill = k.drain)
    (hfull : (k.dmaBuffer k.fill).isFull = false) : q = [] := by
  rcases h.fill_eq_drain_iff.mp hfd with h0 | h8
  · exact List.length_eq_zero_iff.mp h0
  · exact absurd (h.isFull_fill_iff.mpr h8) (by simp [hfull])

theorem length_eq_one (h : RingInv es k d q) (hfd : k.fill ≠ k.drain)
    (hlast : k.fill = k.drain + 1) : q.length = 1 := by
  have hlt : q.length < BUFFERS := h.waitCondition_iff.mp (Or.inl hfd)
  have ho := h.rep.offset_fill
  rw [Kyouko2.ring_fill, Kyouko2.ring_drain, hlast, offset_add_one, offset_self,
    Nat.mod_eq_of_lt hlt] at ho
  exact ho.symm

theorem ne_nil (h : RingInv es k d q) (hb : d.busy ≠ []) : q ≠ [] := by
  rcases h.busy with h0 | ⟨hq, -⟩
  · exact absurd h0 hb
  · exact hq

theorem quiet (h : RingInv es k d q) {es' : List (Event τ)} (ho : ops es' = []) :
    RingInv (es ++ es') k d q :=
  { h with
    replay := by rw [ops_append, ho, List.append_nil, h.replay]
    drain_eq := by rw [h.drain_eq, flushed, flushed, ops_append, ho, List.append_nil] }

theorem setSize (h : RingInv es k d q) (n : UInt32) : RingInv es { k with size := n } d q :=
  ⟨h.replay, h.rep, h.drain_eq, h.mapped, h.busy⟩

/-- **A request is stored**, not written to the registers. -/
theorem store (h : RingInv es k d q) (hlt : q.length < BUFFERS) (t : τ) (n : UInt32) :
    RingInv (es ++ [.store t n]) (k.store n) d (q ++ [n]) where
  replay := by
    rw [ops_append, QOp.replay_append, h.replay]
    simp [QOp.replay, QOp.apply, hlt]
  rep := k.ring_store n ▸ h.rep.push hlt n
  drain_eq := by rw [Kyouko2.store_drain, h.drain_eq, flushed_append]; rfl
  mapped := h.mapped
  busy := by
    rcases h.busy with hb | ⟨hq, hb⟩
    · exact Or.inl hb
    · refine Or.inr ⟨by simp, ?_⟩
      -- the slot written is not the one in flight: the ring is neither empty nor full
      have hne : k.drain ≠ k.fill := by
        intro he
        have hpos := List.length_pos_iff.mpr hq
        rcases h.fill_eq_drain_iff.mp he.symm with h0 | h8 <;> omega
      rw [hb, Kyouko2.store_drain, slotTransfer_store_of_ne hne]

/-- **A request goes to an empty ring** and to the registers. -/
theorem launch (h : RingInv es k d []) (hfd : k.fill = k.drain) (t : τ) (n : UInt32) :
    RingInv (es ++ [.store t n]) (k.store n) (program d (k.dmaHandle k.fill).toUInt32 n) [n] := by
  have hs := h.store (by decide) t n
  have hb : d.busy = [] := by
    by_contra hb
    exact h.ne_nil hb rfl
  refine ⟨hs.replay, hs.rep, hs.drain_eq, by rw [program_keeps_mapped, h.mapped], Or.inr ⟨by simp, ?_⟩⟩
  rw [program_mapped h.mapped, hb, Kyouko2.store_drain, ← hfd, slotTransfer_store_fill]
  rfl

theorem retire_drain_eq (h : RingInv es k d q) :
    k.retire.drain = Fin.ofNat BUFFERS (flushed (es ++ [.irq])) := by
  rw [Kyouko2.retire_drain, h.drain_eq, flushed_append]
  exact ofNat_succ _

theorem retireLast {x : UInt32} (h : RingInv es k d [x]) :
    RingInv (es ++ [.irq]) k.retire d.flush [] where
  replay := by
    rw [ops_append, QOp.replay_append, h.replay]
    rfl
  rep := k.ring_retire ▸ h.rep.pop
  drain_eq := h.retire_drain_eq
  mapped := h.mapped
  busy := by
    refine Or.inl ?_
    rw [flush_busy]
    rcases h.busy with hb | ⟨-, hb⟩ <;> rw [hb] <;> rfl

/-- **The head is taken off and the next request goes to the registers.** -/
theorem retireLaunch {x : UInt32} (h : RingInv es k d (x :: q)) (hq : q ≠ []) :
    RingInv (es ++ [.irq]) k.retire
      (program d.flush (k.retire.slotTransfer k.retire.drain).1
        (k.retire.slotTransfer k.retire.drain).2) q := by
  refine ⟨?_, k.ring_retire ▸ h.rep.pop, h.retire_drain_eq,
    by rw [program_keeps_mapped]; exact h.mapped, Or.inr ⟨hq, ?_⟩⟩
  · rw [ops_append, QOp.replay_append, h.replay]
    rfl
  · have hb : d.flush.busy = [] := by
      rw [flush_busy]
      rcases h.busy with hb | ⟨-, hb⟩ <;> rw [hb] <;> rfl
    rw [program_mapped (by exact h.mapped), hb]
    rfl

/-- A transfer completes and no handler is told: the slots stay as they are. -/
theorem unnoticed (h : RingInv es k d q) : RingInv es k d.flush q :=
  { h with
    busy := by
      refine Or.inl ?_
      rw [flush_busy]
      rcases h.busy with hb | ⟨-, hb⟩ <;> rw [hb] <;> rfl }

theorem remap (h : RingInv es k d q) : RingInv es k { d with mapped := true } q :=
  { h with mapped := rfl }

theorem empty (hfill : k.fill = 0) (hdrain : k.drain = 0)
    (hfull : ∀ i, (k.dmaBuffer i).isFull = false) (hmapped : d.mapped = true)
    (hbusy : d.busy = []) : RingInv ([] : List (Event τ)) k d [] where
  replay := rfl
  rep := .nil (hfill.trans hdrain.symm) hfull
  drain_eq := hdrain
  mapped := hmapped
  busy := Or.inl hbusy

theorem afterBind (ans : BindAnswers) (k : Kyouko2) :
    RingInv ([] : List (Event τ)) (bindDma ans (k, [])).1 .fresh [] where
  replay := rfl
  rep := .nil rfl fun i => bindDma_isFull ans (k, []) i
  drain_eq := rfl
  mapped := rfl
  busy := Or.inl rfl

end RingInv

/-! ### One step -/

/-- A woken thread re-takes the lock while fewer than `BUFFERS` accepted
requests are uncompleted. -/
def Room (es : List (Event τ)) (s : Sys τ) (a : Action τ) : Prop :=
  ∀ t n, a = .run t → s.pc t = .relock n → (accepted es).length < flushed es + BUFFERS

variable [DecidableEq τ]

/-- **A step is a queue operation or none.** -/
theorem RingInv.step {es es' : List (Event τ)} {s s' : Sys τ} {a : Action τ} {q : List UInt32}
    (h : RingInv es s.drv s.dev q) (hroom : Room es s a) (hs : StepCase s a s' es') :
    ∃ q', QOp.replay BUFFERS q (ops es') = some q' ∧ RingInv (es ++ es') s'.drv s'.dev q' := by
  have hlen := h.length_eq
  have hle := h.length_le
  -- an interrupt comes from a transfer in flight, so there is a head to take off
  have hcons : s.dev.busy ≠ [] → ∃ x r, q = x :: r :=
    fun hb => List.exists_cons_of_ne_nil (h.ne_nil hb)
  cases hs with
  | submit hpc => exact ⟨q, rfl, (h.setSize _).quiet (ops_submit _ _)⟩
  | zero hpc h0 => exact ⟨q, rfl, h.quiet ops_nil⟩
  | suspend hpc h0 hfd hfull => exact ⟨q, rfl, h.quiet ops_nil⟩
  | launch hpc h0 hfd hfull =>
    obtain rfl := h.eq_nil hfd hfull
    exact ⟨_, rfl, h.launch hfd _ _⟩
  | queue hpc h0 hfd =>
    have hlt : q.length < BUFFERS := h.waitCondition_iff.mp (Or.inl hfd)
    exact ⟨q ++ [s.drv.size], by simp [QOp.replay, QOp.apply, hlt], h.store hlt _ _⟩
  | pass hpc hc => exact ⟨q, rfl, h.quiet ops_nil⟩
  | sleep hpc hc => exact ⟨q, rfl, h.quiet ops_nil⟩
  | @relock t n hpc =>
    have hlt : q.length < BUFFERS := by
      have := hroom t n rfl hpc
      omega
    exact ⟨q ++ [n], by simp [QOp.replay, QOp.apply, hlt], h.store hlt _ _⟩
  | copyOut hpc => exact ⟨q, rfl, h.quiet (ops_handout _ _)⟩
  | spurious hf => exact ⟨q, rfl, h.quiet ops_nil⟩
  | irqFull hf hb hfd hfull =>
    obtain ⟨x, r, rfl⟩ := hcons hb
    have h8 : r.length + 1 = 8 := h.isFull_fill_iff.mp hfull
    have hr : r ≠ [] := by
      rintro rfl
      simp at h8
    exact ⟨r, rfl, h.retireLaunch hr⟩
  | irqStray hf hb hfd hfull =>
    exact absurd (h.eq_nil hfd hfull) (h.ne_nil hb)
  | irqMore hf hb hfd hmore =>
    obtain ⟨x, r, rfl⟩ := hcons hb
    have hr : r ≠ [] := by
      rintro rfl
      exact hmore h.rep.fill_eq
    exact ⟨r, rfl, h.retireLaunch hr⟩
  | irqLast hf hb hfd hlast =>
    obtain ⟨x, rfl⟩ := List.length_eq_one_iff.mp (h.length_eq_one hfd hlast)
    exact ⟨[], rfl, h.retireLast⟩

end LinuxKerDev.Dma
