import LinuxKerDev.Dma.StartDma

/-!
# How `dma_interrupt` acknowledges a completion

The handler reads `INFOSTATUS`, writes `0xFFFFFFFF` to it and then looks at what it
has read.  The card sets bit 1 when a transfer completes, and the bit stays set until
a 1 is written to it.  The three steps of the handler, the completions and the steps
of any number of threads in `START_DMA` come in any order; the handler may be entered
at any time, as the line is shared, but not while it is running.

A completion between the read and the write is acknowledged and never seen.
`account` counts these (`lost`), and `completions_accounted_iff` says that nothing else
goes wrong.  The reason is that the card is given its next transfer only by the handler
that has seen the last one complete, or on an empty ring: `Occupied` is what is needed
of the slots for that, whichever of them the threads may overwrite.
-/

namespace LinuxKerDev.Dma.Acknowledge

open Lib

inductive Handler
  | idle
  | read (flags : UInt32)
  | acked (flags : UInt32)
  deriving DecidableEq, Repr

/-- `between` says that the handler was between its read and its write. -/
inductive Event
  | completed (between : Bool)
  | advanced
  deriving DecidableEq, Repr

structure Sys (τ : Type*) where
  sys : Dma.Sys τ
  status : UInt32
  handler : Handler

inductive Action (τ : Type*)
  | startDma (t : τ) (size : UInt32)
  | run (t : τ)
  | complete
  | raise (bits : UInt32)
  | enter
  | ack
  | update
  deriving DecidableEq, Repr

/-- A write to `INFOSTATUS` takes away the bits in which it is 1. -/
def writeStatus (status value : UInt32) : UInt32 := status &&& ~~~value

def flushedBit (flags : UInt32) : Nat := if flags &&& 0x2 = 0 then 0 else 1

variable {τ : Type*}

/-- After `BIND_DMA`, which has acknowledged whatever there was. -/
def Sys.afterBind (ans : BindAnswers) (k : Kyouko2) (status : UInt32) : Sys τ where
  sys := .afterBind ans k
  status := writeStatus status 0xFFFFFFFF
  handler := .idle

def step [DecidableEq τ] (s : Sys τ) : Action τ → Option (Sys τ × List Event)
  | .startDma t n => (Dma.step s.sys (.startDma t n)).map fun r => ({ s with sys := r.1 }, [])
  | .run t => (Dma.step s.sys (.run t)).map fun r => ({ s with sys := r.1 }, [])
  | .complete =>
    if s.sys.dev.busy = [] then none
    else
      some ({ s with sys := { s.sys with dev := s.sys.dev.flush }, status := s.status ||| 0x2 },
        [.completed (match s.handler with
          | .read _ => true
          | _ => false)])
  | .raise bits =>
    -- what else the card reports
    if bits &&& 0x2 = 0 then some ({ s with status := s.status ||| bits }, []) else none
  | .enter => if s.handler = .idle then some ({ s with handler := .read s.status }, []) else none
  | .ack =>
    match s.handler with
    | .read flags =>
      some ({ s with status := writeStatus s.status 0xFFFFFFFF, handler := .acked flags }, [])
    | _ => none
  | .update =>
    match s.handler with
    | .acked flags =>
      let r := dmaInterrupt s.sys.drv s.sys.dev flags
      some ({ s with sys := s.sys.interrupted r, handler := .idle },
        if r.1.drain = s.sys.drv.drain then [] else [.advanced])
    | _ => none

/-! ### What is counted -/

def completions (es : List Event) : Nat := es.countP fun e => decide (e ≠ .advanced)

def advances (es : List Event) : Nat := es.count .advanced

def lost (es : List Event) : Nat := es.count (.completed true)

/-- Where no handler is running, every completion has been handled or is still to be
seen in `INFOSTATUS`. -/
def Accounted (es : List Event) (s : Sys τ) : Prop :=
  s.handler = .idle → advances es + flushedBit s.status = completions es

/-- No transfer completes between the handler's read and its write. -/
def Apart (_ : List Event) (s : Sys τ) (a : Action τ) : Prop :=
  a = .complete → ∀ flags, s.handler ≠ .read flags

/-- The completions that the handler has seen, or will see when it is entered again. -/
def owed (s : Sys τ) : Nat :=
  match s.handler with
  | .idle => flushedBit s.status
  | .read flags => flushedBit flags
  | .acked flags => flushedBit flags + flushedBit s.status

section

variable (es es' : List Event)

@[simp] theorem completions_append : completions (es ++ es') = completions es + completions es' :=
  List.countP_append

@[simp] theorem advances_append : advances (es ++ es') = advances es + advances es' :=
  List.count_append

@[simp] theorem lost_append : lost (es ++ es') = lost es + lost es' := List.count_append

end

/-! ### The bits of the register -/

theorem flushedBit_eq_zero {flags : UInt32} : flushedBit flags = 0 ↔ flags &&& 0x2 = 0 := by
  unfold flushedBit
  split <;> simp_all

theorem or_and_two (a b : UInt32) : (a ||| b) &&& 0x2 = a &&& 0x2 ||| b &&& 0x2 :=
  UInt32.toBitVec_inj.mp BitVec.and_or_distrib_right

theorem flushedBit_complete (status : UInt32) : flushedBit (status ||| 0x2) = 1 := by
  have h : (status ||| 0x2) &&& 0x2 ≠ 0 := by
    rw [or_and_two, ne_eq, UInt32.or_eq_zero_iff, not_and_or]
    exact Or.inr (by decide)
  rw [flushedBit, if_neg h]

theorem flushedBit_raise (status : UInt32) {bits : UInt32} (hb : bits &&& 0x2 = 0) :
    flushedBit (status ||| bits) = flushedBit status := by
  have h : (status ||| bits) &&& 0x2 = status &&& 0x2 := by
    rw [or_and_two, hb, UInt32.or_zero]
  rw [flushedBit, flushedBit, h]

@[simp] theorem writeStatus_all (status : UInt32) : writeStatus status 0xFFFFFFFF = 0 := by
  have h : ~~~(0xFFFFFFFF : UInt32) = 0 := by decide
  rw [writeStatus, h, UInt32.and_zero]

@[simp] theorem flushedBit_zero : flushedBit 0 = 0 := rfl

/-! ### The slots in use -/

/-- From `drain` up to `fill` every slot is full; with `fill` at `drain` that is all of
them. -/
def Occupied (k : Kyouko2) : Prop :=
  ∀ i, offset k.drain i < offset k.drain k.fill ∨ k.fill = k.drain → (k.dmaBuffer i).isFull = true

namespace Occupied

variable {k : Kyouko2}

theorem isFull_fill (h : Occupied k) (hfd : k.fill = k.drain) :
    (k.dmaBuffer k.fill).isFull = true := h _ (Or.inr hfd)

/-- **A store leaves no gap**, also where it overwrites. -/
theorem store (h : Occupied k) (n : UInt32) : Occupied (k.store n) := by
  intro i hi
  rw [Kyouko2.store_dmaBuffer]
  by_cases he : i = k.fill
  · rw [if_pos he]
  rw [if_neg he]
  rw [Kyouko2.store_drain, Kyouko2.store_fill, offset_add_one] at hi
  refine h i ?_
  by_cases hfd : k.fill = k.drain
  · exact Or.inr hfd
  have hne : offset k.drain i ≠ offset k.drain k.fill := fun h' => he ((offset_inj _).mp h')
  have hlt := offset_lt k.drain k.fill
  have hlt' := offset_lt k.drain i
  have hN : BUFFERS = 8 := rfl
  refine Or.inl ?_
  rcases hi with hi | hi
  · have hmod := Nat.mod_le (offset k.drain k.fill + 1) BUFFERS
    omega
  · -- `fill` comes round to `drain`
    have h0 : offset k.drain (k.fill + 1) = 0 := offset_eq_zero.mpr hi
    rw [offset_add_one] at h0
    have hle := Nat.le_of_dvd (Nat.succ_pos _) (Nat.dvd_of_mod_eq_zero h0)
    omega

theorem launch (hfd : k.fill = k.drain) (n : UInt32) : Occupied (k.store n) := by
  intro i hi
  rw [Kyouko2.store_drain, Kyouko2.store_fill, hfd, offset_add_one, offset_self] at hi
  have hi' : i = k.drain := by
    rcases hi with hi | hi
    · exact offset_eq_zero.mp (Nat.lt_one_iff.mp hi)
    · simp at hi
  rw [Kyouko2.store_dmaBuffer, if_pos (hi'.trans hfd.symm)]

theorem retire (h : Occupied k) (hlast : k.fill ≠ k.drain + 1) : Occupied k.retire := by
  intro i hi
  rw [Kyouko2.retire_drain, Kyouko2.retire_fill, or_iff_left hlast, offset_from_succ,
    offset_from_succ] at hi
  have hlt := offset_lt k.drain k.fill
  have hN : BUFFERS = 8 := rfl
  rw [Kyouko2.retire_dmaBuffer]
  by_cases he : i = k.drain
  · rw [if_pos he] at hi
    split at hi <;> omega
  · rw [if_neg he]
    refine h i ?_
    by_cases hfd : k.fill = k.drain
    · exact Or.inr hfd
    · rw [if_neg he, if_neg hfd] at hi
      exact Or.inl (by omega)

end Occupied

/-! ### The account -/

/-- Every completion has been handled, is owed, or is lost; there is at most one that has
not been handled or is still to come, and while there is one no slot in use is free. -/
structure Inv (es : List Event) (s : Sys τ) : Prop where
  account : completions es = advances es + owed s + lost es
  one : s.sys.dev.busy.length + owed s + lost es ≤ 1
  occupied : s.sys.dev.busy.length + owed s + lost es = 1 → Occupied s.sys.drv
  mapped : s.sys.dev.mapped = true

namespace Inv

variable {es es' : List Event} {s s' : Sys τ}

theorem afterBind (ans : BindAnswers) (k : Kyouko2) (status : UInt32) :
    Inv [] (Sys.afterBind (τ := τ) ans k status) := by
  have howed : owed (Sys.afterBind (τ := τ) ans k status) = 0 := by
    show flushedBit (writeStatus status 0xFFFFFFFF) = 0
    rw [writeStatus_all, flushedBit_zero]
  refine ⟨?_, ?_, fun h => ?_, rfl⟩
  · rw [howed]
    rfl
  · rw [howed]
    exact Nat.zero_le _
  · rw [howed] at h
    cases h

/-- A step that changes neither the transfers, the slots nor what is owed. -/
theorem quiet (h : Inv es s) (hsys : s'.sys = s.sys) (howed : owed s' = owed s) :
    Inv (es ++ []) s' := by
  rw [List.append_nil]
  exact ⟨howed ▸ h.account, by rw [hsys, howed]; exact h.one,
    by rw [hsys, howed]; exact h.occupied, hsys ▸ h.mapped⟩

/-- **A completion** is owed, or lost where the handler is between its read and its
write. -/
theorem complete (h : Inv es s) (hb : s.sys.dev.busy ≠ [])
    {b : Bool} (hbetween : b = match s.handler with
      | .read _ => true
      | _ => false) :
    Inv (es ++ [.completed b])
      { s with sys := { s.sys with dev := s.sys.dev.flush }, status := s.status ||| 0x2 } := by
  have hone := h.one
  have hpos := List.length_pos_iff.mpr hb
  have htail : s.sys.dev.flush.busy.length = s.sys.dev.busy.length - 1 := by
    rw [flush_busy, List.length_tail]
  have h0 : owed s = 0 := by omega
  have hsum :
      owed { s with sys := { s.sys with dev := s.sys.dev.flush }, status := s.status ||| 0x2 } +
      lost [.completed b] = 1 := by
    unfold owed at h0 ⊢
    cases hh : s.handler with
    | idle =>
      rw [hh] at hbetween
      subst hbetween
      exact flushedBit_complete _
    | read flags =>
      rw [hh] at h0 hbetween
      subst hbetween
      exact congrArg (· + 1) h0
    | acked flags =>
      rw [hh] at h0 hbetween
      subst hbetween
      change flushedBit flags + flushedBit s.status = 0 at h0
      show flushedBit flags + flushedBit (s.status ||| 0x2) = 1
      rw [flushedBit_complete]
      omega
  have haccount := h.account
  have hcount : completions [.completed b] = 1 := rfl
  have hadv : advances [.completed b] = 0 := rfl
  refine ⟨?_, ?_, fun _ => h.occupied (by omega), h.mapped⟩
  · rw [completions_append, advances_append, lost_append]
    omega
  · show s.sys.dev.flush.busy.length + _ + _ ≤ 1
    rw [lost_append]
    omega

/-- A handler that has seen a completion: nothing is in flight, nothing else is owed and
nothing is lost. -/
theorem seen (h : Inv es s) {flags : UInt32} (hh : s.handler = .acked flags)
    (hf : flags &&& 0x2 ≠ 0) :
    completions es = advances es + 1 ∧ s.sys.dev.busy = [] ∧ flushedBit s.status = 0 ∧
      lost es = 0 ∧ Occupied s.sys.drv := by
  have howed : owed s = flushedBit flags + flushedBit s.status := by rw [owed, hh]
  have hbit : flushedBit flags = 1 := if_neg hf
  have hone := h.one
  have haccount := h.account
  have hb : s.sys.dev.busy.length = 0 := by omega
  exact ⟨by omega, List.length_eq_zero_iff.mp hb, by omega, by omega, h.occupied (by omega)⟩

/-- The update has taken off the slot `drain` and given the card at most one transfer, and
that only if another slot is in use. -/
theorem retired (h : Inv es s) {flags : UInt32} (hh : s.handler = .acked flags)
    (hf : flags &&& 0x2 ≠ 0) {d : Device} {w : Bool} (hm : d.mapped = true)
    (hle : d.busy.length ≤ 1)
    (hlast : d.busy.length = 1 → s.sys.drv.fill ≠ s.sys.drv.drain + 1) :
    Inv (es ++ [.advanced])
      { s with sys := s.sys.interrupted (s.sys.drv.retire, d, w), handler := .idle } := by
  obtain ⟨haccount, -, hstatus, hlost, hocc⟩ := h.seen hh hf
  have hlost' : lost (es ++ [.advanced]) = 0 := by
    rw [lost_append, hlost]
    rfl
  refine ⟨?_, ?_, fun h1 => hocc.retire (hlast ?_), hm⟩
  · rw [completions_append, advances_append, hlost', haccount]
    show advances es + 1 + 0 = advances es + 1 + flushedBit s.status + 0
    rw [hstatus]
  · show d.busy.length + flushedBit s.status + lost (es ++ [.advanced]) ≤ 1
    rw [hlost', hstatus]
    exact hle
  · change d.busy.length + flushedBit s.status + lost (es ++ [.advanced]) = 1 at h1
    rwa [hlost', hstatus] at h1

/-- **The locked update** takes the completion it has seen off what is owed. -/
theorem update (h : Inv es s) {flags : UInt32} (hh : s.handler = .acked flags) :
    Inv (es ++ if (dmaInterrupt s.sys.drv s.sys.dev flags).1.drain = s.sys.drv.drain then []
        else [.advanced])
      { s with
        sys := s.sys.interrupted (dmaInterrupt s.sys.drv s.sys.dev flags), handler := .idle } := by
  by_cases hf : flags &&& 0x2 = 0
  · rw [dmaInterrupt_none hf, if_pos rfl]
    refine h.quiet rfl ?_
    rw [owed, owed, hh]
    show flushedBit s.status = flushedBit flags + flushedBit s.status
    rw [flushedBit_eq_zero.mpr hf, Nat.zero_add]
  obtain ⟨-, hb, -, -, hocc⟩ := h.seen hh hf
  have hne : s.sys.drv.retire.drain ≠ s.sys.drv.drain := by simp
  have hone : ∀ t : Transfer, (program s.sys.dev t.1 t.2).busy.length ≤ 1 := by
    intro t
    rw [program_busy h.mapped, hb]
    exact le_refl 1
  have hmapped : ∀ t : Transfer, (program s.sys.dev t.1 t.2).mapped = true := by
    intro t
    rw [program_keeps_mapped, h.mapped]
  by_cases hfd : s.sys.drv.fill = s.sys.drv.drain
  · rw [dmaInterrupt_full hf hfd (hocc.isFull_fill hfd), if_neg hne]
    refine h.retired hh hf (hmapped _) (hone _) fun _ => ?_
    rw [hfd]
    simp
  by_cases hl : s.sys.drv.fill = s.sys.drv.drain + 1
  · rw [dmaInterrupt_last hf hl, if_neg hne]
    refine h.retired hh hf h.mapped (hb ▸ Nat.zero_le 1) fun h1 => ?_
    rw [hb] at h1
    cases h1
  · rw [dmaInterrupt_more hf hfd hl, if_neg hne]
    exact h.retired hh hf (hmapped _) (hone _) fun _ => hl

variable [DecidableEq τ]

/-- **The steps of the threads.**  A transfer is started only where the ring is empty. -/
theorem thread (h : Inv es s) {a : Dma.Action τ} (ha : ∀ flags, a ≠ .irq flags) {r : Dma.Sys τ}
    {ev : List (Dma.Event τ)} (hs : StepCase s.sys a r ev) : Inv es { s with sys := r } := by
  have hsame : ∀ {r : Dma.Sys τ}, r.dev = s.sys.dev → (Occupied s.sys.drv → Occupied r.drv) →
      Inv es { s with sys := r } := by
    intro r hdev hocc
    refine ⟨h.account, ?_, ?_, ?_⟩
    · show r.dev.busy.length + _ + _ ≤ 1
      rw [hdev]
      exact h.one
    · show r.dev.busy.length + _ + _ = 1 → _
      rw [hdev]
      exact fun h1 => hocc (h.occupied h1)
    · show r.dev.mapped = true
      rw [hdev]
      exact h.mapped
  cases hs with
  | launch _ _ hfd hfull =>
    have hone := h.one
    -- with a completion outstanding the slot `fill` would be full
    have h0 : s.sys.dev.busy.length + owed s + lost es ≠ 1 := fun h1 => by
      rw [(h.occupied h1).isFull_fill hfd] at hfull
      cases hfull
    have hb : (program s.sys.dev (s.sys.drv.dmaHandle s.sys.drv.fill).toUInt32
        s.sys.drv.size).busy.length = s.sys.dev.busy.length + 1 := by
      rw [program_busy h.mapped, List.length_append, List.length_singleton]
    refine ⟨h.account, ?_, fun _ => Occupied.launch hfd _, ?_⟩
    · show (program _ _ _).busy.length + owed s + lost es ≤ 1
      rw [hb]
      omega
    · show (program _ _ _).mapped = true
      rw [program_keeps_mapped, h.mapped]
  | queue => exact hsame rfl fun ho => ho.store _
  | relock => exact hsame rfl fun ho => ho.store _
  | submit => exact hsame rfl id
  | zero => exact hsame rfl id
  | suspend => exact hsame rfl id
  | pass => exact hsame rfl id
  | sleep => exact hsame rfl id
  | copyOut => exact hsame rfl id
  | @spurious flags | @irqFull flags | @irqStray flags | @irqMore flags | @irqLast flags =>
    exact absurd rfl (ha flags)

theorem step (h : Inv es s) {a : Action τ} (hf : Acknowledge.step s a = some (s', es')) :
    Inv (es ++ es') s' := by
  cases a with
  | startDma t n =>
    obtain ⟨r, hr, hf⟩ := Option.map_eq_some_iff.mp hf
    obtain ⟨rfl, rfl⟩ := Prod.mk.inj hf
    rw [List.append_nil]
    exact h.thread (fun _ ha => by cases ha) (step_cases hr)
  | run t =>
    obtain ⟨r, hr, hf⟩ := Option.map_eq_some_iff.mp hf
    obtain ⟨rfl, rfl⟩ := Prod.mk.inj hf
    rw [List.append_nil]
    exact h.thread (fun _ ha => by cases ha) (step_cases hr)
  | complete =>
    rw [Acknowledge.step, Option.ite_none_left_eq_some] at hf
    obtain ⟨rfl, rfl⟩ := Prod.mk.inj (Option.some.inj hf.2)
    exact h.complete hf.1 rfl
  | raise bits =>
    rw [Acknowledge.step, Option.ite_none_right_eq_some] at hf
    obtain ⟨rfl, rfl⟩ := Prod.mk.inj (Option.some.inj hf.2)
    refine h.quiet rfl ?_
    rw [owed, owed]
    dsimp only
    rw [flushedBit_raise _ hf.1]
  | enter =>
    rw [Acknowledge.step, Option.ite_none_right_eq_some] at hf
    obtain ⟨rfl, rfl⟩ := Prod.mk.inj (Option.some.inj hf.2)
    refine h.quiet rfl ?_
    rw [owed, owed, hf.1]
  | ack =>
    rw [Acknowledge.step] at hf
    cases hh : s.handler with
    | idle => rw [hh] at hf; cases hf
    | acked flags => rw [hh] at hf; cases hf
    | read flags =>
      rw [hh] at hf
      obtain ⟨rfl, rfl⟩ := Prod.mk.inj (Option.some.inj hf)
      refine h.quiet rfl ?_
      rw [owed, owed, hh]
      show flushedBit flags + flushedBit (writeStatus s.status 0xFFFFFFFF) = flushedBit flags
      rw [writeStatus_all]
      rfl
  | update =>
    rw [Acknowledge.step] at hf
    cases hh : s.handler with
    | idle => rw [hh] at hf; cases hf
    | read flags => rw [hh] at hf; cases hf
    | acked flags =>
      rw [hh] at hf
      obtain ⟨rfl, rfl⟩ := Prod.mk.inj (Option.some.inj hf)
      exact h.update hh

end Inv

/-! ### What is lost -/

variable [DecidableEq τ] {ans : BindAnswers} {k : Kyouko2} {status : UInt32} {as : List (Action τ)}
  {es es' : List Event} {s s' : Sys τ}

theorem inv_of_run (h : Run step (.afterBind ans k status) as es s) : Inv es s :=
  h.inv (I := Inv) (.afterBind ans k status) fun hi hf => hi.step hf

/-- A step loses a completion exactly if it is one between the read and the write. -/
theorem lost_step {a : Action τ} (hf : step s a = some (s', es')) : lost es' = 0 ↔ Apart es s a := by
  have hquiet : es' = [] ∨ es' = [.advanced] → a ≠ .complete → (lost es' = 0 ↔ Apart es s a) := by
    intro hes ha
    refine iff_of_true ?_ fun h => absurd h ha
    rcases hes with rfl | rfl <;> rfl
  cases a with
  | complete =>
    rw [step, Option.ite_none_left_eq_some] at hf
    obtain ⟨-, rfl⟩ := Prod.mk.inj (Option.some.inj hf.2)
    unfold Apart
    cases hh : s.handler with
    | read flags => exact iff_of_false (by simp [lost]) fun h => h rfl flags rfl
    | idle => exact iff_of_true (by simp [lost]) fun _ _ h => by cases h
    | acked flags => exact iff_of_true (by simp [lost]) fun _ _ h => by cases h
  | startDma t n =>
    obtain ⟨r, -, hf⟩ := Option.map_eq_some_iff.mp hf
    exact hquiet (Or.inl (Prod.mk.inj hf).2.symm) (by simp)
  | run t =>
    obtain ⟨r, -, hf⟩ := Option.map_eq_some_iff.mp hf
    exact hquiet (Or.inl (Prod.mk.inj hf).2.symm) (by simp)
  | raise bits =>
    rw [step, Option.ite_none_right_eq_some] at hf
    exact hquiet (Or.inl (Prod.mk.inj (Option.some.inj hf.2)).2.symm) (by simp)
  | enter =>
    rw [step, Option.ite_none_right_eq_some] at hf
    exact hquiet (Or.inl (Prod.mk.inj (Option.some.inj hf.2)).2.symm) (by simp)
  | ack =>
    rw [step] at hf
    cases hh : s.handler with
    | read flags =>
      rw [hh] at hf
      exact hquiet (Or.inl (Prod.mk.inj (Option.some.inj hf)).2.symm) (by simp)
    | idle => rw [hh] at hf; cases hf
    | acked flags => rw [hh] at hf; cases hf
  | update =>
    rw [step] at hf
    cases hh : s.handler with
    | acked flags =>
      rw [hh] at hf
      refine hquiet ?_ (by simp)
      rw [← (Prod.mk.inj (Option.some.inj hf)).2]
      split
      · exact Or.inl rfl
      · exact Or.inr rfl
    | idle => rw [hh] at hf; cases hf
    | read flags => rw [hh] at hf; cases hf

theorem lost_eq_zero_iff {s₀ : Sys τ} (h : Run step s₀ as es s) :
    lost es = 0 ↔ AllSteps step s₀ Apart as := by
  induction h with
  | nil => exact iff_of_true rfl (allSteps_nil _ _ _)
  | @snoc as es s a s' es' hr hf ih =>
    have hlost : lost es' = 0 ↔ Apart es s a := lost_step hf
    rw [allSteps_snoc, ← ih, lost_append, Nat.add_eq_zero_iff, hlost]
    refine and_congr_right fun _ => ⟨fun ha es₁ s₁ hr₁ => ?_, fun hall => hall _ _ hr⟩
    obtain ⟨rfl, rfl⟩ := hr.det hr₁
    exact ha

/-- Where no handler is running, the account is short of what was lost. -/
theorem account (h : Run step (.afterBind ans k status) as es s) (hidle : s.handler = .idle) :
    completions es = advances es + flushedBit s.status + lost es := by
  have howed : owed s = flushedBit s.status := by rw [owed, hidle]
  have ha := (inv_of_run h).account
  rwa [howed] at ha

/-- **Exactly the runs in which no transfer completes between a read and the write after
it account for every completion.**  Any number of threads may call. -/
theorem completions_accounted_iff (h : Run step (.afterBind ans k status) as es s) :
    (AllSteps step (.afterBind ans k status) Apart as →
      AllStates step (.afterBind ans k status) Accounted as) ∧
    (s.handler = .idle →
      (advances es + flushedBit s.status = completions es ↔
        AllSteps step (.afterBind ans k status) Apart as)) := by
  constructor
  · intro hall p r hp es₁ s₁ hr hidle
    have hapart : AllSteps step (.afterBind ans k status) Apart p :=
      fun p' a r' hp' => hall p' a (r' ++ r) (by simp [hp, hp'])
    rw [account hr hidle, (lost_eq_zero_iff hr).mpr hapart, Nat.add_zero]
  · intro hidle
    rw [← lost_eq_zero_iff h, account h hidle]
    omega

/-- A spurious interrupt, and a transfer that completes between its read and its write. -/
def completedBetween : List (Action Unit) :=
  [.startDma () 148, .run (), .enter, .complete, .ack, .update]

/-- The completion is lost, and the ring waits for it. -/
theorem completion_lost : ∃ es s,
    Run step (.afterBind someAnswers .zeroed 0) completedBetween es s ∧ s.handler = .idle ∧
      completions es = 1 ∧ advances es = 0 ∧ s.status = 0 ∧ s.sys.dev.busy = [] ∧
      (s.sys.drv.dmaBuffer s.sys.drv.drain).isFull = true ∧ ¬ Accounted es s := by
  obtain ⟨es, s, hr, hidle, hc, ha, hs, hb, hfull⟩ := exists_run step
    (.afterBind someAnswers .zeroed 0) completedBetween
    (fun es s => s.handler = .idle ∧ completions es = 1 ∧ advances es = 0 ∧ s.status = 0 ∧
      s.sys.dev.busy = [] ∧ (s.sys.drv.dmaBuffer s.sys.drv.drain).isFull = true)
    (by decide +kernel)
  refine ⟨es, s, hr, hidle, hc, ha, hs, hb, hfull, fun hacc => ?_⟩
  have h := hacc hidle
  rw [hc, ha, hs] at h
  cases h

def completedBefore : List (Action Unit) :=
  [.startDma () 148, .run (), .complete, .enter, .ack, .update]

/-- Of the two runs only the second meets the condition. -/
theorem completions_accounted_iff_lost :
    (∃ es s, Run step (.afterBind someAnswers .zeroed 0) completedBetween es s ∧ s.handler = .idle ∧
      (advances es + flushedBit s.status = completions es ↔
        AllSteps step (.afterBind someAnswers .zeroed 0) Apart completedBetween)) ∧
    ∃ es s, Run step (.afterBind someAnswers .zeroed 0) completedBefore es s ∧
      completions es = 1 ∧ AllSteps step (.afterBind someAnswers .zeroed 0) Apart completedBefore := by
  constructor
  · obtain ⟨es, s, hr, hidle⟩ := exists_run step (.afterBind someAnswers .zeroed 0) completedBetween
      (fun _ s => s.handler = .idle) (by decide +kernel)
    exact ⟨es, s, hr, hidle, (completions_accounted_iff hr).2 hidle⟩
  · obtain ⟨es, s, hr, hidle, hc, hacc⟩ := exists_run step (.afterBind someAnswers .zeroed 0)
      completedBefore (fun es s => s.handler = .idle ∧ completions es = 1 ∧
        advances es + flushedBit s.status = completions es) (by decide +kernel)
    exact ⟨es, s, hr, hc, ((completions_accounted_iff hr).2 hidle).mp hacc⟩

end LinuxKerDev.Dma.Acknowledge
