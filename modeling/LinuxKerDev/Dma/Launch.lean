import LinuxKerDev.Dma.Solo

/-!
# The transfers of one submitter

Transfers are started in three places: by `initiateTransfer` on an empty ring
and by both branches of `dma_interrupt`.  In each of them the slot started is
the new `drain`, so what is started is always the head of the queue
(`RingInv.head_transfer`); and the head of the queue is the request whose number
is the count of the flush interrupts.  `LaunchInv` adds that as many transfers
have been started as have completed or are in flight, and the order follows: the
transfers are the accepted requests from the first on, none left out and none
twice (`transfers_in_order`).

Request `i` is accepted with the address of the buffer `i` modulo `BUFFERS` as
the one last copied out, and `BIND_DMA` has mapped that address to that buffer.
-/

namespace LinuxKerDev.Dma

open Lib

def transfers (ans : BindAnswers) (l : List UInt32) : List Transfer :=
  l.mapIdx fun i n => ((ans.handle (Fin.ofNat BUFFERS i)).toUInt32, n)

theorem transfers_append (ans : BindAnswers) (l l' : List UInt32) :
    transfers ans l <+: transfers ans (l ++ l') := by
  rw [transfers, transfers, List.mapIdx_append]
  exact List.prefix_append _ _

theorem transfers_getElem? (ans : BindAnswers) (l : List UInt32) (i : Nat) :
    (transfers ans l)[i]? =
      l[i]?.map fun n => ((ans.handle (Fin.ofNat BUFFERS i)).toUInt32, n) := by
  rw [transfers, List.getElem?_mapIdx]

theorem prefix_snoc {α : Type*} {l m : List α} {x : α} (h : l <+: m)
    (hx : m[l.length]? = some x) : l ++ [x] <+: m := by
  obtain ⟨r, rfl⟩ := h
  rw [List.getElem?_append_right (Nat.le_refl _), Nat.sub_self] at hx
  cases r with
  | nil => cases hx
  | cons y r =>
    obtain rfl : y = x := by simpa using hx
    exact ⟨r, by simp⟩

/-- **The head of the queue is the next request to start.** -/
theorem RingInv.head_transfer {τ : Type*} {ans : BindAnswers} {es : List (Event τ)} {k : Kyouko2}
    {d : Device} {q : List UInt32} (h : RingInv es k d q) (hq : q ≠ [])
    (hh : ∀ i, k.dmaHandle i = ans.handle i) :
    (transfers ans (accepted es))[flushed es]? = some (k.slotTransfer k.drain) := by
  obtain ⟨x, r, rfl⟩ := List.exists_cons_of_ne_nil hq
  have hx : (accepted es)[flushed es]? = some x := by
    have hd := congrArg List.head? h.eq_drop
    rw [List.head?_drop] at hd
    exact hd.symm
  have hv : (k.dmaBuffer k.drain).count = x := h.rep.val_drain
  rw [transfers_getElem?, hx, Option.map_some, Kyouko2.slotTransfer, hv, hh, ← h.drain_eq]

variable {ans : BindAnswers} {k : Kyouko2} {as : List (Action Unit)} {es : List (Event Unit)}
  {s : Sys Unit}

/-! ### The order of the transfers -/

/-- The transfers started are the first ones asked for, and all but the ones in
flight have completed. -/
structure LaunchInv (ans : BindAnswers) (es : List (Event Unit)) (s : Sys Unit) : Prop where
  started : s.dev.started <+: transfers ans (accepted es)
  length : s.dev.started.length = flushed es + s.dev.busy.length

/-- What a step does to the card: nothing, or the end of a transfer, or the start
of one when no other is in flight. -/
inductive DevStep (d d' : Device) (es : List (Event Unit)) (t : Transfer) : Prop
  | same (hs : d'.started = d.started) (hb : d'.busy = d.busy) (he : flushed es = 0)
  | finish (hs : d'.started = d.started) (hd : d.busy ≠ []) (hb : d'.busy = [])
      (he : flushed es = 1)
  | start (hs : d'.started = d.started ++ [t]) (hd : d.busy = []) (hb : d'.busy = [t])
      (he : flushed es = 0)
  | next (hs : d'.started = d.started ++ [t]) (hd : d.busy ≠ []) (hb : d'.busy = [t])
      (he : flushed es = 1)

theorem RingInv.devStep {q : List UInt32} (h : RingInv es s.drv s.dev q) {a : Action Unit}
    {s' : Sys Unit} {es' : List (Event Unit)} (hs : StepCase s a s' es') :
    DevStep s.dev s'.dev es' (s'.drv.slotTransfer s'.drv.drain) := by
  have hflush : s.dev.flush.busy = [] := by
    rcases h.busy with hb | ⟨-, hb⟩ <;> rw [flush_busy, hb] <;> rfl
  cases hs with
  | launch hpc h0 hfd hfull =>
    have hb : s.dev.busy = [] := by
      by_contra hb
      exact h.ne_nil hb (h.eq_nil hfd hfull)
    have ht : (s.drv.store s.drv.size).slotTransfer s.drv.drain =
        ((s.drv.dmaHandle s.drv.fill).toUInt32, s.drv.size) := by
      rw [← hfd, slotTransfer_store_fill]
    refine .start ?_ hb ?_ rfl
    · exact (program_started h.mapped _ _).trans (by rw [← ht]; rfl)
    · exact (program_busy h.mapped _ _).trans (by rw [hb, ← ht]; rfl)
  | irqFull _ hb _ _ =>
    have hm : s.dev.flush.mapped = true := h.mapped
    exact .next (program_started hm _ _) hb (by rw [program_busy hm, hflush]; rfl) rfl
  | irqMore _ hb _ _ =>
    have hm : s.dev.flush.mapped = true := h.mapped
    exact .next (program_started hm _ _) hb (by rw [program_busy hm, hflush]; rfl) rfl
  | irqLast _ hb _ _ => exact .finish rfl hb hflush rfl
  | irqStray _ hb _ _ => exact .finish rfl hb hflush rfl
  | _ => exact .same rfl rfl rfl

theorem LaunchInv.step {q q' : List UInt32} (h : LaunchInv ans es s)
    (hq : RingInv es s.drv s.dev q) {a : Action Unit} {s' : Sys Unit} {es' : List (Event Unit)}
    (hs : StepCase s a s' es') (hq' : RingInv (es ++ es') s'.drv s'.dev q')
    (hh : ∀ i, s'.drv.dmaHandle i = ans.handle i) : LaunchInv ans (es ++ es') s' := by
  have hpre : s.dev.started <+: transfers ans (accepted (es ++ es')) := by
    rw [accepted_append]
    exact h.started.trans (transfers_append _ _ _)
  have hlen := h.length
  have hfl := flushed_append es es'
  -- a transfer in flight is a single one
  have hone : s.dev.busy ≠ [] → s.dev.busy.length = 1 := by
    intro hb
    rcases hq.busy with h0 | ⟨-, h1⟩
    · exact absurd h0 hb
    · rw [h1, List.length_singleton]
  -- what is started is the head of the queue
  have hhead : s'.dev.busy = [s'.drv.slotTransfer s'.drv.drain] →
      s.dev.started.length = flushed (es ++ es') →
      s.dev.started ++ [s'.drv.slotTransfer s'.drv.drain] <+:
        transfers ans (accepted (es ++ es')) := by
    intro hb hl
    have hne : q' ≠ [] := by
      rcases hq'.busy with h0 | ⟨hne, -⟩
      · rw [hb] at h0
        cases h0
      · exact hne
    exact prefix_snoc hpre (hl ▸ hq'.head_transfer hne hh)
  cases hq.devStep hs with
  | same hs' hb he => exact ⟨hs' ▸ hpre, by rw [hs', hb]; omega⟩
  | finish hs' hd hb he =>
    have := hone hd
    exact ⟨hs' ▸ hpre, by rw [hs', hb, List.length_nil]; omega⟩
  | start hs' hd hb he =>
    rw [hd, List.length_nil] at hlen
    refine ⟨hs' ▸ hhead hb (by omega), ?_⟩
    rw [hs', hb, List.length_append, List.length_singleton]
    omega
  | next hs' hd hb he =>
    have := hone hd
    refine ⟨hs' ▸ hhead hb (by omega), ?_⟩
    rw [hs', hb, List.length_append, List.length_singleton]
    omega

theorem solo_launch (h : Run step (.afterBind ans k) as es s) : LaunchInv ans es s := by
  induction h with
  | nil => exact ⟨List.nil_prefix, rfl⟩
  | @snoc as es s a s' es' hr hf ih =>
    obtain ⟨q, hq⟩ := solo_ring hr
    obtain ⟨q', hq'⟩ := solo_ring (hr.snoc hf)
    exact ih.step hq.1 (step_cases hf) hq'.1 (dmaHandle_eq (hr.snoc hf))

/-! ### The contract -/

theorem toUInt64_toUInt32 {x : UInt64} (h : x.toNat < 2 ^ 32) : x.toUInt32.toUInt64 = x := by
  apply UInt64.toNat_inj.mp
  rw [UInt32.toNat_toUInt64, UInt64.toNat_toUInt32, Nat.mod_eq_of_lt h]

/-- **Every transfer is the next accepted request, on the buffer its caller was
told to fill.**  For every run of one submitter and the interrupts: transfer `i`
is the handle of the buffer `i` modulo `BUFFERS` with the `i`-th nonzero size;
the address last copied out before that size was submitted is mapped to the
buffer behind that handle; and a step that starts a transfer leaves no other one
in flight. -/
theorem transfers_in_order (h : Run step (.afterBind ans k) as es s)
    (h32 : ∀ i, (ans.handle i).toNat < 2 ^ 32) (haddr : Function.Injective ans.addr) :
    s.dev.started <+: transfers ans ((sizes as).filter fun n => decide (n ≠ 0)) ∧
    (∀ (i : Nat) (t : Transfer), s.dev.started[i]? = some t →
      t.1.toUInt64 = ans.handle (Fin.ofNat BUFFERS i) ∧
      ∃ a, (requests (ans.addr 0) es)[i]? = some (a, t.2) ∧
        pfnAt (bindDma ans (k, [])).2 a = some (t.1.toUInt64 >>> 12)) ∧
    ∀ a s' es', step s a = some (s', es') → s'.dev.started ≠ s.dev.started →
      ∃ t, s'.dev.started = s.dev.started ++ [t] ∧ s'.dev.busy = [t] := by
  obtain ⟨q, hq⟩ := solo_ring h
  have hl := solo_launch h
  have hc := solo_call h
  have hpre : s.dev.started <+: transfers ans ((sizes as).filter fun n => decide (n ≠ 0)) := by
    rw [accepted_pending h]
    exact hl.started.trans (transfers_append _ _ _)
  refine ⟨hpre, fun i t ht => ?_, fun a s' es' hf hne => ?_⟩
  · have htr : (transfers ans (accepted es))[i]? = some t := by
      obtain ⟨r, hr⟩ := hl.started
      rw [← hr, List.getElem?_append_left (List.getElem?_eq_some_iff.mp ht).1, ht]
    rw [transfers_getElem?] at htr
    obtain ⟨n, hn, rfl⟩ := Option.map_eq_some_iff.mp htr
    have hreq : ((requests (ans.addr 0) es).map Prod.snd)[i]? = some n := by
      rw [hc.queued, List.getElem?_append_left (List.getElem?_eq_some_iff.mp hn).1, hn]
    rw [List.getElem?_map] at hreq
    obtain ⟨r, hr, rfl⟩ := Option.map_eq_some_iff.mp hreq
    have h64 := toUInt64_toUInt32 (h32 (Fin.ofNat BUFFERS i))
    refine ⟨h64, r.1, hr, ?_⟩
    rw [hc.addr i r hr, bindDma_pfnAt ans (k, []) _ haddr, h64]
  · cases hq.1.devStep (step_cases hf) with
    | same hs _ _ => exact absurd hs hne
    | finish hs _ _ _ => exact absurd hs hne
    | start hs _ hb _ => exact ⟨_, hs, hb⟩
    | next hs _ hb _ => exact ⟨_, hs, hb⟩

theorem transfers_in_order_wrapped : ∃ es s,
    Run step (.afterBind someAnswers .zeroed) wrapAround es s ∧ s.dev.started.length = 4 ∧
      s.dev.started <+:
        transfers someAnswers ((sizes wrapAround).filter fun n => decide (n ≠ 0)) := by
  obtain ⟨es, s, hr, hP⟩ := exists_run step (.afterBind someAnswers .zeroed) wrapAround
    (fun _ s => s.dev.started.length = 4)
    (by decide +kernel)
  have h32 : ∀ i, (someAnswers.handle i).toNat < 2 ^ 32 := by decide
  have haddr : Function.Injective someAnswers.addr := by
    have h : ∀ i j, someAnswers.addr i = someAnswers.addr j → i = j := by decide
    exact h
  exact ⟨es, s, hr, hP, (transfers_in_order hr h32 haddr).1⟩

end LinuxKerDev.Dma
