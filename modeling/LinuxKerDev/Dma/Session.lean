import LinuxKerDev.Dma.Solo

/-!
# Whole sessions: `open`, `ioctl` and `release`

A program opens the device, issues any `ioctl` calls with any arguments, closes
it, and may start again; at most one file is open, and calls come one after the
other.  A call is the list of the instructions it has still to run, and between
any two of them `dma_interrupt` may run, as long as it is hooked.  `START_DMA` is
the exception: its steps are those of `StartDma.lean`.

What the kernel answers is an input of the step (`Answer`).  The allocator hands
out a buffer of `124*1024` bytes below 4 GiB that overlaps no other one, or
`NULL`, and then says nothing about the handle.  `live` are the handles of the
buffers handed out and not freed since.  Steps that touch nothing of this state
(`copy_to_user`, `pci_enable_msi`, `do_munmap` and the printed texts) are left
out.

What a reboot of the card does to the transfers in flight is left open: they
may complete, or be lost (`Act.lose`).

The driver trusts its caller: a size is taken as it comes, and nothing asks
whether `BIND_DMA` has been called, has got its memory, or has been called twice,
which leaves a second handler hooked after the `release`.  So not every transfer
lies in a buffer of the driver.  `transfers_inside_bufs` says that the ones of a
`Careful` run do.
-/

namespace LinuxKerDev.Dma

open Lib

/-! ### Calls and their instructions -/

inductive Instr
  | writeReg (reg value : UInt32)
  | sync
  | allocSlot (i : Fin BUFFERS)
  | mapSlot (i : Fin BUFFERS)
  | clearFull (i : Fin BUFFERS)
  | clearCount (i : Fin BUFFERS)
  | resetFill
  | resetDrain
  | requestIrq
  | iounmap
  | freeIrq
  | freeSlot (i : Fin BUFFERS)
  deriving DecidableEq, Repr

/-- The calls, with what `copy_from_user` leaves in `size` for a `START_DMA`.
`other` is any command the driver does not know. -/
inductive Call
  | openDev
  | vmode (arg : UInt64)
  | sync
  | bindDma
  | startDma (size : UInt32)
  | flush
  | other
  | release
  deriving DecidableEq, Repr

def graphicsOn : List Instr :=
  [.writeReg frameColumns 1024, .writeReg frameRows 768, .writeReg frameRowPitch (4 * 1024),
    .writeReg framePixelFormat 0xf888, .writeReg frameStartAddress 0,
    .writeReg encoderWidth 1024, .writeReg encoderHeight 768, .writeReg encoderOffsetX 0,
    .writeReg encoderOffsetY 0, .writeReg encoderFrame 0,
    .writeReg configAcceleration 0x40000000, .sync, .writeReg configModeset 1,
    .writeReg drawClearColorR 0x3E4CCCCD, .writeReg drawClearColorG 0x3E4CCCCD,
    .writeReg drawClearColorB 0x3E4CCCCD, .writeReg drawClearColorAlpha 0,
    .writeReg rasterFlush 1, .writeReg rasterClear 1]

def bindRound (i : Fin BUFFERS) : List Instr :=
  [.allocSlot i, .mapSlot i, .clearFull i, .clearCount i]

def bindCode : List Instr :=
  (List.finRange BUFFERS).flatMap bindRound ++
    [.resetFill, .resetDrain, .requestIrq, .writeReg infoStatus 0xFFFFFFFF,
      .writeReg configInterrupt 0x2]

/-- `kyouko2_release`, after its first `K_WRITE_REG`. -/
def releaseCode : List Instr :=
  [.iounmap, .writeReg configInterrupt 0x00, .freeIrq] ++
    (List.finRange BUFFERS).map .freeSlot

def Call.code : Call → List Instr
  | openDev => []
  | vmode arg => if arg.toUInt32 = 1 then graphicsOn else [.sync, .writeReg configReboot 1]
  | sync => [.sync]
  | bindDma => bindCode
  | startDma _ => []
  | flush => [.writeReg rasterFlush 1]
  | other => []
  | release => releaseCode

/-! ### States and steps -/

structure Session where
  drv : Kyouko2
  dev : Device
  pc : Pc
  code : List Instr
  fileOpen : Bool
  hooks : Nat
  live : List UInt64

def Session.loaded : Session where
  drv := .zeroed
  dev := { mapped := false, address := 0, started := [], busy := [] }
  pc := .idle
  code := []
  fileOpen := false
  hooks := 0
  live := []

structure Answer where
  buffer : UInt64
  handle : UInt64
  addr : UInt64
  hooked : Bool
  deriving DecidableEq, Repr

/-- What `pci_alloc_consistent` may answer. -/
def Answer.lawful (ans : Answer) (live : List UInt64) : Prop :=
  ans.buffer ≠ 0 → ans.handle.toNat + bufferBytes ≤ 2 ^ 32 ∧
    ∀ h ∈ live, ans.handle.toNat + bufferBytes ≤ h.toNat ∨ h.toNat + bufferBytes ≤ ans.handle.toNat

instance (ans : Answer) (live : List UInt64) : Decidable (ans.lawful live) :=
  -- one handle after the other, not all of `UInt64`
  letI := List.decidableBAll (fun h : UInt64 => ans.handle.toNat + bufferBytes ≤ h.toNat ∨
    h.toNat + bufferBytes ≤ ans.handle.toNat) live
  inferInstanceAs (Decidable (_ → _ ∧ _))

inductive Mark
  | bound
  | released
  deriving DecidableEq, Repr

inductive Act
  | call (c : Call)
  | run (ans : Answer)
  | irq (flags : UInt32)
  | lose
  deriving DecidableEq, Repr

namespace Session

def sys (s : Session) : Sys Unit := { drv := s.drv, dev := s.dev, pc := fun _ => s.pc }

def setSys (s : Session) (r : Sys Unit) : Session :=
  { s with drv := r.drv, dev := r.dev, pc := r.pc () }

def instr (s : Session) (ans : Answer) (rest : List Instr) : Instr → Option (Session × List Mark)
  | .writeReg reg value => some ({ s with code := rest, dev := kWriteReg s.dev reg value }, [])
  | .sync => some ({ s with code := rest, dev := Dma.sync s.dev }, [])
  | .allocSlot i =>
    if ans.lawful s.live then
      some ({ s with
        code := rest
        drv := s.drv.allocSlot i ans.buffer ans.handle
        live := if ans.buffer = 0 then s.live else ans.handle :: s.live }, [])
    else none
  | .mapSlot i => some ({ s with code := rest, drv := s.drv.setUserVirtAddr i ans.addr }, [])
  | .clearFull i => some ({ s with code := rest, drv := s.drv.clearFull i }, [])
  | .clearCount i => some ({ s with code := rest, drv := s.drv.clearCount i }, [])
  | .resetFill => some ({ s with code := rest, drv := { s.drv with fill := 0 } }, [])
  | .resetDrain => some ({ s with code := rest, drv := { s.drv with drain := 0 } }, [.bound])
  | .requestIrq => some ({ s with code := rest, hooks := if ans.hooked then s.hooks + 1 else s.hooks }, [])
  | .iounmap => some ({ s with code := rest, dev := { s.dev with mapped := false } }, [])
  | .freeIrq => some ({ s with code := rest, hooks := s.hooks - 1 }, [])
  | .freeSlot i => some ({ s with code := rest, live := s.live.erase (s.drv.dmaHandle i) }, [])

def enter (s : Session) : Call → Option (Session × List Mark)
  | .openDev =>
    if s.fileOpen = true then none
    else some ({ s with fileOpen := true, dev := { s.dev with mapped := true } }, [])
  | .release =>
    if s.fileOpen = true then
      some ({ s with
        fileOpen := false
        code := releaseCode
        dev := kWriteReg s.dev 0x1000 1 }, [.released])
    else none
  | .startDma size =>
    if s.fileOpen = true then
      (Dma.step s.sys (.startDma () size)).map fun r => (s.setSys r.1, [])
    else none
  | c => if s.fileOpen = true then some ({ s with code := c.code }, []) else none

/-- A step of a session.  While no handler is hooked a transfer completes
unnoticed. -/
def step (s : Session) : Act → Option (Session × List Mark)
  | .call c => if s.code = [] ∧ s.pc = .idle then s.enter c else none
  | .run ans =>
    match s.code with
    | i :: rest => s.instr ans rest i
    | [] => (Dma.step s.sys (.run ())).map fun r => (s.setSys r.1, [])
  | .irq flags =>
    if s.hooks = 0 then
      if s.dev.busy = [] then none else some ({ s with dev := s.dev.flush }, [])
    else (Dma.step s.sys (.irq flags)).map fun r => (s.setSys r.1, [])
  | .lose => some ({ s with dev := { s.dev with busy := [] } }, [])

/-- What a step of a session may be: the file is opened or closed, another call
begins, an instruction runs, transfers end that no handler is told of, or it is a
step of `START_DMA` or of the handler. -/
inductive Case (s : Session) : Act → Session → List Mark → Prop
  | opened : Case s (.call .openDev)
      { s with fileOpen := true, dev := { s.dev with mapped := true } } []
  | closed (hpc : s.pc = .idle) : Case s (.call .release)
      { s with fileOpen := false, code := releaseCode, dev := kWriteReg s.dev 0x1000 1 }
      [.released]
  | began {c : Call} (hpc : s.pc = .idle) (hc : c ≠ .release) :
      Case s (.call c) { s with code := c.code } []
  | instr {ans : Answer} {x : Instr} {rest : List Instr} {s' : Session} {es : List Mark}
      (hc : s.code = x :: rest) (hf : s.instr ans rest x = some (s', es)) :
      Case s (.run ans) s' es
  | unnoticed {flags : UInt32} (hk : s.hooks = 0) :
      Case s (.irq flags) { s with dev := s.dev.flush } []
  | lost : Case s .lose { s with dev := { s.dev with busy := [] } } []
  | start {a : Act} {b : Action Unit} {r : Sys Unit} {ev : List (Event Unit)}
      (hcode : s.code = [] ∨ ∃ flags, b = .irq flags)
      (hirq : ∀ flags, b = .irq flags → s.hooks ≠ 0)
      (hsub : ∀ n, b = .startDma () n → a = .call (.startDma n)) (hs : StepCase s.sys b r ev) :
      Case s a (s.setSys r) []

/-- **Everything a step of a session can do.** -/
theorem cases_of_step {s s' : Session} {a : Act} {es : List Mark}
    (hf : s.step a = some (s', es)) : Case s a s' es := by
  cases a with
  | call c =>
    rw [step, Option.ite_none_right_eq_some] at hf
    obtain ⟨⟨hc, hpc⟩, hf⟩ := hf
    cases c with
    | openDev =>
      rw [enter, Option.ite_none_left_eq_some] at hf
      obtain ⟨-, hf⟩ := hf
      obtain ⟨rfl, rfl⟩ := Prod.mk.inj (Option.some.inj hf)
      exact .opened
    | release =>
      rw [enter, Option.ite_none_right_eq_some] at hf
      obtain ⟨-, hf⟩ := hf
      obtain ⟨rfl, rfl⟩ := Prod.mk.inj (Option.some.inj hf)
      exact .closed hpc
    | startDma n =>
      rw [enter, Option.ite_none_right_eq_some] at hf
      obtain ⟨-, hf⟩ := hf
      obtain ⟨r, hr, hf⟩ := Option.map_eq_some_iff.mp hf
      obtain ⟨rfl, rfl⟩ := Prod.mk.inj hf
      exact .start (Or.inl hc) (by simp) (by rintro m ⟨⟩; rfl) (step_cases hr)
    | _ =>
      simp only [enter, Option.ite_none_right_eq_some] at hf
      obtain ⟨-, hf⟩ := hf
      obtain ⟨rfl, rfl⟩ := Prod.mk.inj (Option.some.inj hf)
      exact .began hpc (by simp)
  | run ans =>
    cases hc : s.code with
    | cons x rest =>
      rw [step, hc] at hf
      exact .instr hc hf
    | nil =>
      rw [step, hc] at hf
      obtain ⟨r, hr, hf⟩ := Option.map_eq_some_iff.mp hf
      obtain ⟨rfl, rfl⟩ := Prod.mk.inj hf
      exact .start (Or.inl hc) (by simp) (by simp) (step_cases hr)
  | irq flags =>
    rw [step] at hf
    by_cases hk : s.hooks = 0
    · rw [if_pos hk, Option.ite_none_left_eq_some] at hf
      obtain ⟨-, hf⟩ := hf
      obtain ⟨rfl, rfl⟩ := Prod.mk.inj (Option.some.inj hf)
      exact .unnoticed hk
    · rw [if_neg hk] at hf
      obtain ⟨r, hr, hf⟩ := Option.map_eq_some_iff.mp hf
      obtain ⟨rfl, rfl⟩ := Prod.mk.inj hf
      exact .start (Or.inr ⟨flags, rfl⟩) (fun _ _ => hk) (by simp) (step_cases hr)
  | lose =>
    rw [step] at hf
    obtain ⟨rfl, rfl⟩ := Prod.mk.inj (Option.some.inj hf)
    exact .lost

/-! What each action comes to, when it is known which one it is. -/

variable {s s' : Session} {es : List Mark}

theorem step_call {c : Call} (hf : s.step (.call c) = some (s', es)) :
    s.code = [] ∧ s.pc = .idle ∧ s.enter c = some (s', es) := by
  rw [step, Option.ite_none_right_eq_some] at hf
  exact ⟨hf.1.1, hf.1.2, hf.2⟩

theorem step_openDev (hf : s.step (.call .openDev) = some (s', es)) :
    s.fileOpen = false ∧ s' = { s with fileOpen := true, dev := { s.dev with mapped := true } } := by
  obtain ⟨-, -, he⟩ := step_call hf
  rw [enter, Option.ite_none_left_eq_some] at he
  obtain ⟨ho, he⟩ := he
  exact ⟨Bool.not_eq_true _ ▸ ho, (Prod.mk.inj (Option.some.inj he)).1.symm⟩

theorem step_release (hf : s.step (.call .release) = some (s', es)) :
    s.fileOpen = true ∧
      s' = { s with fileOpen := false, code := releaseCode, dev := kWriteReg s.dev 0x1000 1 } := by
  obtain ⟨-, -, he⟩ := step_call hf
  rw [enter, Option.ite_none_right_eq_some] at he
  exact ⟨he.1, (Prod.mk.inj (Option.some.inj he.2)).1.symm⟩

theorem step_startDma {n : UInt32} (hf : s.step (.call (.startDma n)) = some (s', es)) :
    s.fileOpen = true ∧ ∃ r ev, StepCase s.sys (.startDma () n) r ev ∧ s' = s.setSys r := by
  obtain ⟨-, -, he⟩ := step_call hf
  rw [enter, Option.ite_none_right_eq_some] at he
  obtain ⟨ho, he⟩ := he
  obtain ⟨r, hr, he⟩ := Option.map_eq_some_iff.mp he
  exact ⟨ho, r.1, r.2, step_cases hr, (Prod.mk.inj he).1.symm⟩

theorem step_ioctl {c : Call} (hopen : c ≠ .openDev) (hrel : c ≠ .release)
    (hdma : ∀ n, c ≠ .startDma n) (hf : s.step (.call c) = some (s', es)) :
    s.fileOpen = true ∧ s' = { s with code := c.code } := by
  obtain ⟨-, -, he⟩ := step_call hf
  cases c with
  | openDev => exact absurd rfl hopen
  | release => exact absurd rfl hrel
  | startDma n => exact absurd rfl (hdma n)
  | _ =>
    simp only [enter, Option.ite_none_right_eq_some] at he
    exact ⟨he.1, (Prod.mk.inj (Option.some.inj he.2)).1.symm⟩

theorem step_run_cons {ans : Answer} {x : Instr} {rest : List Instr} (hc : s.code = x :: rest)
    (hf : s.step (.run ans) = some (s', es)) : s.instr ans rest x = some (s', es) := by
  rw [step, hc] at hf
  exact hf

theorem step_run_nil {ans : Answer} (hc : s.code = []) (hf : s.step (.run ans) = some (s', es)) :
    ∃ r ev, StepCase s.sys (.run ()) r ev ∧ s' = s.setSys r := by
  rw [step, hc] at hf
  obtain ⟨r, hr, hf⟩ := Option.map_eq_some_iff.mp hf
  exact ⟨r.1, r.2, step_cases hr, (Prod.mk.inj hf).1.symm⟩

theorem step_irq_unhooked {flags : UInt32} (hk : s.hooks = 0)
    (hf : s.step (.irq flags) = some (s', es)) : s' = { s with dev := s.dev.flush } := by
  rw [step, if_pos hk, Option.ite_none_left_eq_some] at hf
  exact (Prod.mk.inj (Option.some.inj hf.2)).1.symm

theorem step_irq_hooked {flags : UInt32} (hk : s.hooks ≠ 0)
    (hf : s.step (.irq flags) = some (s', es)) :
    ∃ r ev, StepCase s.sys (.irq flags) r ev ∧ s' = s.setSys r := by
  rw [step, if_neg hk] at hf
  obtain ⟨r, hr, hf⟩ := Option.map_eq_some_iff.mp hf
  exact ⟨r.1, r.2, step_cases hr, (Prod.mk.inj hf).1.symm⟩

theorem instr_code {ans : Answer} {x : Instr} {rest : List Instr}
    (hf : s.instr ans rest x = some (s', es)) :
    s'.code = rest ∧ s'.pc = s.pc ∧ s'.fileOpen = s.fileOpen := by
  cases x with
  | allocSlot i =>
    rw [instr, Option.ite_none_right_eq_some] at hf
    obtain ⟨rfl, rfl⟩ := Prod.mk.inj (Option.some.inj hf.2)
    exact ⟨rfl, rfl, rfl⟩
  | _ =>
    obtain ⟨rfl, rfl⟩ := Prod.mk.inj (Option.some.inj hf)
    exact ⟨rfl, rfl, rfl⟩

end Session

/-! ### What a step of `START_DMA` or of the handler does -/

section

variable {s s' : Sys Unit} {a : Action Unit} {es : List (Event Unit)}

/-- Whatever is started is read off a slot, by the handler when a transfer has
completed or by a call that has asked for something. -/
theorem StepCase.started (h : StepCase s a s' es) :
    s'.dev.started = s.dev.started ∨
      ((∃ flags, a = .irq flags ∧ s.dev.busy ≠ []) ∨ pending s ≠ []) ∧
        ∃ i, s'.dev.started = s.dev.started ++ [s'.drv.slotTransfer i] := by
  have hprog : ∀ (d : Device) (t : Transfer),
      (program d t.1 t.2).started = d.started ∨ (program d t.1 t.2).started = d.started ++ [t] := by
    intro d t
    cases hm : d.mapped with
    | false => exact Or.inl (by rw [program_unmapped hm])
    | true => exact Or.inr (program_started hm t.1 t.2)
  cases h with
  | launch hpc h0 _ _ =>
    have ht := slotTransfer_store_fill s.drv s.drv.size
    refine (hprog s.dev ((s.drv.dmaHandle s.drv.fill).toUInt32, s.drv.size)).imp id fun h => ?_
    exact ⟨Or.inr (List.ne_nil_of_mem (mem_pending_of_entered hpc h0)), s.drv.fill,
      h.trans (by rw [← ht]; rfl)⟩
  | irqFull _ hb _ _ =>
    exact (hprog s.dev.flush _).imp id fun h => ⟨Or.inl ⟨_, rfl, hb⟩, _, h⟩
  | irqMore _ hb _ _ =>
    exact (hprog s.dev.flush _).imp id fun h => ⟨Or.inl ⟨_, rfl, hb⟩, _, h⟩
  | _ => exact Or.inl rfl

theorem StepCase.count (h : StepCase s a s' es) (i : Fin BUFFERS) :
    (s'.drv.dmaBuffer i).count = (s.drv.dmaBuffer i).count ∨
      (s'.drv.dmaBuffer i).count ∈ pending s := by
  have hstore : ∀ n ∈ pending s, ((s.drv.store n).dmaBuffer i).count = (s.drv.dmaBuffer i).count ∨
      ((s.drv.store n).dmaBuffer i).count ∈ pending s := by
    intro n hn
    rw [Kyouko2.store_dmaBuffer]
    split
    · exact Or.inr hn
    · exact Or.inl rfl
  have hretire : (s.drv.retire.dmaBuffer i).count = (s.drv.dmaBuffer i).count := by
    rw [Kyouko2.retire_dmaBuffer]
    split <;> rfl
  cases h with
  | launch hpc h0 _ _ => exact hstore _ (mem_pending_of_entered hpc h0)
  | queue hpc h0 _ => exact hstore _ (mem_pending_of_entered hpc h0)
  | relock hpc => exact hstore _ (mem_pending_of_carried (by rw [hpc]; rfl))
  | irqFull _ _ _ _ => exact Or.inl hretire
  | irqMore _ _ _ _ => exact Or.inl hretire
  | irqLast _ _ _ _ => exact Or.inl hretire
  | _ => exact Or.inl rfl

/-- A transfer is in flight because one was before or because one was asked for. -/
theorem StepCase.busy (h : StepCase s a s' es) (hb : s'.dev.busy ≠ []) :
    s.dev.busy ≠ [] ∨ pending s ≠ [] := by
  cases h with
  | launch hpc h0 _ _ => exact Or.inr (List.ne_nil_of_mem (mem_pending_of_entered hpc h0))
  | irqFull _ hbusy _ _ => exact Or.inl hbusy
  | irqStray _ hbusy _ _ => exact Or.inl hbusy
  | irqMore _ hbusy _ _ => exact Or.inl hbusy
  | irqLast _ hbusy _ _ => exact Or.inl hbusy
  | _ => exact Or.inl hb

theorem StepCase.mapped (h : StepCase s a s' es) : s'.dev.mapped = s.dev.mapped := by
  cases h with
  | launch _ _ _ _ => exact program_keeps_mapped _ _ _
  | irqFull _ _ _ _ => exact program_keeps_mapped _ _ _
  | irqMore _ _ _ _ => exact program_keeps_mapped _ _ _
  | _ => rfl

def Action.asked : Action Unit → List UInt32
  | .startDma _ n => if n = 0 then [] else [n]
  | .run _ => []
  | .irq _ => []

/-- **What has been asked for is accepted or pending.** -/
theorem StepCase.accepted_pending (h : StepCase s a s' es) :
    accepted es ++ Dma.pending s' = Dma.pending s ++ a.asked := by
  cases h with
  | irqFull _ _ _ _ =>
    rw [Action.asked, List.append_nil]
    exact pending_interrupt (Or.inr rfl) rfl
  | irqStray _ _ _ _ =>
    rw [Action.asked, List.append_nil]
    exact pending_interrupt (Or.inl rfl) rfl
  | irqMore _ _ _ _ =>
    rw [Action.asked, List.append_nil]
    exact pending_interrupt (Or.inl rfl) rfl
  | irqLast _ _ _ _ =>
    rw [Action.asked, List.append_nil]
    exact pending_interrupt (Or.inl rfl) rfl
  | spurious _ => exact (List.append_nil _).symm
  | @submit t n hpc =>
    by_cases h0 : n = 0 <;>
      simp [Dma.pending, Sys.setPc, hpc, h0, accepted, QOp.enqs, Action.asked]
  | zero hpc h0 => simp [Dma.pending, Sys.setPc, hpc, h0, accepted, QOp.enqs, Action.asked]
  | suspend hpc h0 _ _ => simp [Dma.pending, Sys.setPc, hpc, h0, accepted, QOp.enqs, Action.asked]
  | launch hpc h0 _ _ => simp [Dma.pending, Sys.setPc, hpc, h0, accepted, QOp.enqs, Action.asked]
  | queue hpc h0 _ => simp [Dma.pending, Sys.setPc, hpc, h0, accepted, QOp.enqs, Action.asked]
  | pass hpc _ => simp [Dma.pending, Sys.setPc, hpc, accepted, QOp.enqs, Action.asked]
  | sleep hpc _ => simp [Dma.pending, Sys.setPc, hpc, accepted, QOp.enqs, Action.asked]
  | relock hpc => simp [Dma.pending, Sys.setPc, hpc, accepted, QOp.enqs, Action.asked]
  | copyOut hpc => simp [Dma.pending, Sys.setPc, hpc, accepted, QOp.enqs, Action.asked]

theorem StepCase.flushed_eq (h : StepCase s a s' es) :
    flushed es = match a with
      | .irq flags => if flags &&& 0x2 = 0 then 0 else 1
      | _ => 0 := by
  cases h with
  | spurious hf => simp [hf, flushed, QOp.deqs]
  | irqFull hf _ _ _ => simp [hf, flushed, QOp.deqs]
  | irqStray hf _ _ _ => simp [hf, flushed, QOp.deqs]
  | irqMore hf _ _ _ => simp [hf, flushed, QOp.deqs]
  | irqLast hf _ _ _ => simp [hf, flushed, QOp.deqs]
  | _ => simp [flushed, QOp.deqs]

theorem StepCase.idle {flags : UInt32} (h : StepCase s (.irq flags) s' es)
    (hpc : s.pc () = .idle) : s'.pc () = .idle := by
  cases h with
  | irqFull _ _ _ _ => exact Pc.wake_eq_idle.mpr hpc
  | _ => exact hpc

theorem StepCase.inside {t : Unit} (h : StepCase s (.run t) s' es) : s.pc t ≠ .idle := by
  intro hidle
  cases h with
  | zero hpc _ => cases hidle.symm.trans hpc
  | suspend hpc _ _ _ => cases hidle.symm.trans hpc
  | launch hpc _ _ _ => cases hidle.symm.trans hpc
  | queue hpc _ _ => cases hidle.symm.trans hpc
  | pass hpc _ => cases hidle.symm.trans hpc
  | sleep hpc _ => cases hidle.symm.trans hpc
  | relock hpc => cases hidle.symm.trans hpc
  | copyOut hpc => cases hidle.symm.trans hpc

/-- Nothing is pending afterwards that was not before, but for a new submission. -/
theorem StepCase.pending (h : StepCase s a s' es) {n : UInt32} (hn : n ∈ Dma.pending s') :
    n ∈ Dma.pending s ∨ a = .startDma () n ∧ n ≠ 0 := by
  cases h with
  | @submit t m hpc =>
    by_cases h0 : m = 0
    · simp [Dma.pending, Sys.setPc, h0] at hn
    · obtain rfl : n = m := by simpa [Dma.pending, Sys.setPc, h0] using hn
      exact Or.inr ⟨rfl, h0⟩
  | zero _ _ => simp [Dma.pending, Sys.setPc] at hn
  | launch _ _ _ _ => simp [Dma.pending, Sys.setPc] at hn
  | queue _ _ _ => simp [Dma.pending, Sys.setPc] at hn
  | relock _ => simp [Dma.pending, Sys.setPc] at hn
  | copyOut _ => simp [Dma.pending, Sys.setPc] at hn
  | suspend hpc h0 _ _ =>
    obtain rfl : n = s.drv.size := by simpa [Dma.pending, Sys.setPc] using hn
    exact Or.inl (mem_pending_of_entered hpc h0)
  | @pass t m hpc _ =>
    obtain rfl : n = m := by simpa [Dma.pending, Sys.setPc] using hn
    exact Or.inl (mem_pending_of_carried (by rw [hpc]; rfl))
  | @sleep t m hpc _ =>
    obtain rfl : n = m := by simpa [Dma.pending, Sys.setPc] using hn
    exact Or.inl (mem_pending_of_carried (by rw [hpc]; rfl))
  | irqFull _ _ _ _ =>
    rw [pending_interrupt (s := s)] at hn
    · exact Or.inl hn
    · exact Or.inr rfl
    · rfl
  | _ => exact Or.inl hn

end

/-! ### Transfers inside the buffers -/

def Inside (live : List UInt64) (t : Transfer) : Prop :=
  ∃ h ∈ live, h.toNat ≤ t.1.toNat ∧ t.1.toNat + t.2.toNat ≤ h.toNat + bufferBytes

def StartsInside (_ : List Mark) (s : Session) (a : Act) : Prop :=
  ∀ s' es' l, s.step a = some (s', es') → s'.dev.started = s.dev.started ++ l →
    ∀ t ∈ l, Inside s'.live t

/-- `BIND_DMA` has gone through its slots, and no `release` has come since. -/
def Bound (es : List Mark) : Prop := es.getLast? = some .bound

instance (es : List Mark) : Decidable (Bound es) := by unfold Bound; infer_instance

/-- A call asks for at most a buffer, and only while bound; the kernel has memory
for every buffer; and no buffer is freed while a handler is hooked and a transfer
in flight. -/
def Careful (es : List Mark) (s : Session) : Act → Prop
  | .call (.startDma n) => n ≠ 0 → n.toNat ≤ bufferBytes ∧ Bound es
  | .run ans =>
    match s.code.head? with
    | some (.allocSlot _) => ans.buffer ≠ 0
    | some (.freeSlot _) => s.hooks = 0 ∨ s.dev.busy = []
    | _ => True
  | _ => True

instance (es : List Mark) (s : Session) (a : Act) : Decidable (Careful es s a) := by
  unfold Careful
  split
  · infer_instance
  · split <;> infer_instance
  · infer_instance

/-- What may not come after what in the code of a call. -/
def Instr.before : Instr → Instr → Bool
  | .resetDrain, .allocSlot _ => false
  | .resetDrain, .freeSlot _ => false
  | .freeSlot _, .resetDrain => false
  | .requestIrq, .resetDrain => false
  | _, _ => true

/-- Not a write to the DMA engine. -/
def Instr.plain : Instr → Bool
  | .writeReg reg _ => reg != streamBufferAAddress && reg != streamBufferAConfig
  | _ => true

theorem Call.code_shape (c : Call) : (∀ x ∈ c.code, x.plain = true) ∧
    (c.code.Pairwise fun x y => x.before y = true) ∧
    (.resetDrain ∈ c.code → ∀ i, .allocSlot i ∈ c.code) ∧
    (.requestIrq ∈ c.code → .resetDrain ∈ c.code) := by
  cases c with
  | startDma n =>
    rw [Call.code]
    decide
  | vmode arg =>
    rw [Call.code]
    split <;> decide
  | _ => decide

/-- Only `release` frees a buffer. -/
theorem Call.freeSlot_notMem {c : Call} (hc : c ≠ .release) : ∀ i, .freeSlot i ∉ c.code := by
  cases c with
  | release => exact absurd rfl hc
  | startDma n =>
    rw [Call.code]
    decide
  | vmode arg =>
    rw [Call.code]
    split <;> decide
  | _ => decide

/-- What a careful run can rely on.  While the handler may start a transfer, or a
call asks for one, or the driver is bound, every handle is that of a live buffer;
and a running `BIND_DMA` has got the buffers it has asked for, and hooks the
handler last. -/
structure Safe (es : List Mark) (s : Session) : Prop where
  counts : ∀ i, (s.drv.dmaBuffer i).count.toNat ≤ bufferBytes
  asked : ∀ n ∈ pending s.sys, n.toNat ≤ bufferBytes
  fits : ∀ h ∈ s.live, h.toNat + bufferBytes ≤ 2 ^ 32
  granted : (s.hooks ≠ 0 ∧ s.dev.busy ≠ []) ∨ pending s.sys ≠ [] ∨ Bound es →
    ∀ i, s.drv.dmaHandle i ∈ s.live
  alone : s.code ≠ [] → s.pc = .idle
  binding : .resetDrain ∈ s.code → ∀ i, .allocSlot i ∈ s.code ∨ s.drv.dmaHandle i ∈ s.live
  hooking : .requestIrq ∈ s.code → .resetDrain ∈ s.code ∨ Bound es
  freeing : ∀ i, .freeSlot i ∈ s.code → ¬ Bound es
  ordered : s.code.Pairwise fun x y => x.before y = true
  plain : ∀ x ∈ s.code, x.plain = true

namespace Safe

variable {es : List Mark} {s : Session}

theorem loaded : Safe [] .loaded where
  counts _ := Nat.zero_le _
  asked n hn := by cases hn
  fits h hh := by cases hh
  granted h := by
    rcases h with h | h | h
    · exact absurd rfl h.1
    · exact absurd rfl h
    · cases h
  alone h := absurd rfl h
  binding h := by cases h
  hooking h := by cases h
  freeing i h := by cases h
  ordered := .nil
  plain x hx := by cases hx

theorem pending_nil (h : Safe es s) (hc : s.code ≠ []) : pending s.sys = [] := by
  have hpc := h.alone hc
  simp [pending, Session.sys, hpc]

/-- The next instruction is taken off, when the ones that follow do not build on
it. -/
theorem rest (h : Safe es s) {x : Instr} {r : List Instr} (hc : s.code = x :: r)
    (hx : ∀ i, x ≠ .allocSlot i) (hd : x ≠ .resetDrain) : Safe es { s with code := r } := by
  have hmem : ∀ {y}, y ∈ r → y ∈ s.code := fun hy => by rw [hc]; exact List.mem_cons_of_mem _ hy
  refine { h with
    alone := fun _ => h.alone (by simp [hc])
    binding := fun hr i => ?_
    hooking := fun hr => ?_
    freeing := fun i hi => h.freeing i (hmem hi)
    ordered := (List.pairwise_cons.mp (hc ▸ h.ordered)).2
    plain := fun y hy => h.plain y (hmem hy) }
  · refine (h.binding (hmem hr) i).imp (fun ha => ?_) id
    rw [hc] at ha
    exact (List.mem_cons.mp ha).resolve_left fun he => hx i he.symm
  · refine (h.hooking (hmem hr)).imp (fun ha => ?_) id
    rw [hc] at ha
    exact (List.mem_cons.mp ha).resolve_left fun he => hd he.symm

/-- The driver's own data change, but neither the handles nor `size`, and no
count is set beyond a buffer. -/
theorem setDrv (h : Safe es s) {k : Kyouko2} (hh : k.dmaHandle = s.drv.dmaHandle)
    (hsize : k.size = s.drv.size) (hc : ∀ i, (k.dmaBuffer i).count.toNat ≤ bufferBytes) :
    Safe es { s with drv := k } := by
  have hp : pending ({ s with drv := k } : Session).sys = pending s.sys :=
    pending_interrupt (Or.inl rfl) hsize
  refine { h with
    counts := hc
    asked := hp ▸ h.asked
    granted := fun hg => ?_
    binding := fun hd => ?_ }
  · rw [hp] at hg
    show ∀ i, k.dmaHandle i ∈ s.live
    rw [hh]
    exact h.granted hg
  · show ∀ i, _ ∨ k.dmaHandle i ∈ s.live
    rw [hh]
    exact h.binding hd

/-- **A buffer comes in.** -/
theorem alloc (h : Safe es s) {i : Fin BUFFERS} {r : List Instr} (hc : s.code = .allocSlot i :: r)
    {ans : Answer} (hl : ans.lawful s.live) (hb : ans.buffer ≠ 0) :
    Safe es { s with
      code := r, drv := s.drv.allocSlot i ans.buffer ans.handle, live := ans.handle :: s.live } := by
  have hmem : ∀ {y}, y ∈ r → y ∈ s.code := fun hy => by rw [hc]; exact List.mem_cons_of_mem _ hy
  -- a handle that was live still is, and the new one is
  have hlive : ∀ j, j = i ∨ s.drv.dmaHandle j ∈ s.live →
      (s.drv.allocSlot i ans.buffer ans.handle).dmaHandle j ∈ ans.handle :: s.live := by
    intro j hj
    show Function.update s.drv.dmaHandle i ans.handle j ∈ _
    rw [Function.update_apply]
    split
    · exact List.mem_cons_self
    · next hne => exact List.mem_cons_of_mem _ (hj.resolve_left hne)
  refine { h with
    counts := fun j => ?_
    fits := fun x hx => ?_
    granted := fun hg j => hlive j (Or.inr (h.granted hg j))
    alone := fun _ => h.alone (by simp [hc])
    binding := fun hd j => ?_
    hooking := fun hr => ?_
    freeing := fun j hj => h.freeing j (hmem hj)
    ordered := (List.pairwise_cons.mp (hc ▸ h.ordered)).2
    plain := fun y hy => h.plain y (hmem hy) }
  · show ((s.drv.allocSlot i ans.buffer ans.handle).dmaBuffer j).count.toNat ≤ _
    rw [Kyouko2.allocSlot_count]
    exact h.counts j
  · rcases List.mem_cons.mp hx with rfl | hx
    · exact (hl hb).1
    · exact h.fits x hx
  · by_cases hj : j = i
    · exact Or.inr (hlive j (Or.inl hj))
    · refine (h.binding (hmem hd) j).imp (fun ha => ?_) fun ha => hlive j (Or.inr ha)
      rw [hc] at ha
      exact (List.mem_cons.mp ha).resolve_left fun he => hj (by injection he)
  · refine (h.hooking (hmem hr)).imp (fun ha => ?_) id
    rw [hc] at ha
    exact (List.mem_cons.mp ha).resolve_left fun he => by cases he

/-- **`BIND_DMA` has gone through its slots.** -/
theorem bound (h : Safe es s) {r : List Instr} (hc : s.code = .resetDrain :: r) :
    Safe (es ++ [.bound]) { s with code := r, drv := { s.drv with drain := 0 } } := by
  have hmem : ∀ {y}, y ∈ r → y ∈ s.code := fun hy => by rw [hc]; exact List.mem_cons_of_mem _ hy
  have hord := (List.pairwise_cons.mp (hc ▸ h.ordered)).1
  have hbound : Bound (es ++ [.bound]) := List.getLast?_concat
  have hall : ∀ i, s.drv.dmaHandle i ∈ s.live := by
    intro i
    rcases h.binding (by rw [hc]; exact List.mem_cons_self) i with ha | ha
    · rw [hc] at ha
      rcases List.mem_cons.mp ha with he | hr
      · cases he
      · cases hord _ hr
    · exact ha
  exact { h with
    granted := fun _ => hall
    alone := fun _ => h.alone (by simp [hc])
    binding := fun _ i => Or.inr (hall i)
    hooking := fun _ => Or.inr hbound
    freeing := fun i hi => by cases hord _ hi
    ordered := (List.pairwise_cons.mp (hc ▸ h.ordered)).2
    plain := fun y hy => h.plain y (hmem hy) }

/-- **The handler is hooked.** -/
theorem hook (h : Safe es s) {r : List Instr} (hc : s.code = .requestIrq :: r) (n : Nat) :
    Safe es { s with code := r, hooks := n } := by
  have hord := (List.pairwise_cons.mp (hc ▸ h.ordered)).1
  have hbound : Bound es := by
    rcases h.hooking (by rw [hc]; exact List.mem_cons_self) with hd | hb
    · rw [hc] at hd
      rcases List.mem_cons.mp hd with he | hr
      · cases he
      · cases hord _ hr
    · exact hb
  exact { h.rest hc (by simp) (by simp) with
    granted := fun _ => h.granted (Or.inr (Or.inr hbound)) }

/-- **A buffer goes back.** -/
theorem free (h : Safe es s) {i : Fin BUFFERS} {r : List Instr} (hc : s.code = .freeSlot i :: r)
    (hfree : s.hooks = 0 ∨ s.dev.busy = []) :
    Safe es { s with code := r, live := s.live.erase (s.drv.dmaHandle i) } := by
  have hord := (List.pairwise_cons.mp (hc ▸ h.ordered)).1
  have hbound := h.freeing i (by rw [hc]; exact List.mem_cons_self)
  have hnil := h.pending_nil (by simp [hc])
  refine { h.rest hc (by simp) (by simp) with
    fits := fun x hx => h.fits x (List.mem_of_mem_erase hx)
    granted := fun hg => ?_
    binding := fun hd => ?_ }
  · -- the handler starts nothing, nothing is asked for and nothing is bound
    rcases hg with hg | hg | hg
    · rcases hfree with hk | hb
      · exact absurd hk hg.1
      · exact absurd hb hg.2
    · exact absurd hnil hg
    · exact absurd hg hbound
  · cases hord _ hd

theorem kWriteReg_eq (h : Safe es s) {reg value : UInt32} {r : List Instr}
    (hc : s.code = .writeReg reg value :: r) : kWriteReg s.dev reg value = s.dev := by
  have hp := h.plain (.writeReg reg value) (by rw [hc]; exact List.mem_cons_self)
  simp only [Instr.plain, Bool.and_eq_true, bne_iff_ne] at hp
  exact kWriteReg_other hp.1 hp.2 value

/-- **An instruction keeps it.** -/
theorem instr (h : Safe es s) {x : Instr} {r : List Instr} (hc : s.code = x :: r) {ans : Answer}
    (hg : Careful es s (.run ans)) {s' : Session} {es' : List Mark}
    (hf : s.instr ans r x = some (s', es')) : Safe (es ++ es') s' := by
  cases x with
  | allocSlot i =>
    rw [Session.instr, Option.ite_none_right_eq_some] at hf
    obtain ⟨hl, hf⟩ := hf
    obtain ⟨rfl, rfl⟩ := Prod.mk.inj (Option.some.inj hf)
    have hb : ans.buffer ≠ 0 := by simpa [Careful, hc] using hg
    rw [List.append_nil, if_neg hb]
    exact h.alloc hc hl hb
  | resetDrain =>
    obtain ⟨rfl, rfl⟩ := Prod.mk.inj (Option.some.inj hf)
    exact h.bound hc
  | requestIrq =>
    obtain ⟨rfl, rfl⟩ := Prod.mk.inj (Option.some.inj hf)
    rw [List.append_nil]
    exact h.hook hc _
  | freeSlot i =>
    obtain ⟨rfl, rfl⟩ := Prod.mk.inj (Option.some.inj hf)
    rw [List.append_nil]
    exact h.free hc (by simpa [Careful, hc] using hg)
  | writeReg reg value =>
    obtain ⟨rfl, rfl⟩ := Prod.mk.inj (Option.some.inj hf)
    rw [List.append_nil, h.kWriteReg_eq hc]
    exact h.rest hc (by simp) (by simp)
  | clearCount i =>
    obtain ⟨rfl, rfl⟩ := Prod.mk.inj (Option.some.inj hf)
    rw [List.append_nil]
    refine (h.rest hc (by simp) (by simp)).setDrv rfl rfl fun j => ?_
    rw [Kyouko2.clearCount_count]
    split
    · exact Nat.zero_le _
    · exact h.counts j
  | clearFull i =>
    obtain ⟨rfl, rfl⟩ := Prod.mk.inj (Option.some.inj hf)
    rw [List.append_nil]
    refine (h.rest hc (by simp) (by simp)).setDrv rfl rfl fun j => ?_
    rw [Kyouko2.clearFull_count]
    exact h.counts j
  | mapSlot i =>
    obtain ⟨rfl, rfl⟩ := Prod.mk.inj (Option.some.inj hf)
    rw [List.append_nil]
    exact (h.rest hc (by simp) (by simp)).setDrv rfl rfl h.counts
  | resetFill =>
    obtain ⟨rfl, rfl⟩ := Prod.mk.inj (Option.some.inj hf)
    rw [List.append_nil]
    exact (h.rest hc (by simp) (by simp)).setDrv rfl rfl h.counts
  | sync =>
    obtain ⟨rfl, rfl⟩ := Prod.mk.inj (Option.some.inj hf)
    rw [List.append_nil]
    exact h.rest hc (by simp) (by simp)
  | iounmap =>
    obtain ⟨rfl, rfl⟩ := Prod.mk.inj (Option.some.inj hf)
    rw [List.append_nil]
    exact { h.rest hc (by simp) (by simp) with }
  | freeIrq =>
    obtain ⟨rfl, rfl⟩ := Prod.mk.inj (Option.some.inj hf)
    rw [List.append_nil]
    have hhook : s.hooks - 1 ≠ 0 → s.hooks ≠ 0 := by omega
    exact { h.rest hc (by simp) (by simp) with
      granted := fun hw => h.granted (hw.imp_left fun hk => ⟨hhook hk.1, hk.2⟩) }

/-- **A step of `START_DMA` or of the handler keeps it.** -/
theorem start (h : Safe es s) {a : Action Unit} (hrun : s.code = [] ∨ ∃ flags, a = .irq flags)
    (hsub : ∀ n, a = .startDma () n → n ≠ 0 → n.toNat ≤ bufferBytes ∧ Bound es) {r : Sys Unit}
    {ev : List (Event Unit)} (hs : StepCase s.sys a r ev) : Safe es (s.setSys r) := by
  have hkeep : ∀ i, r.drv.dmaHandle i = s.drv.dmaHandle i := congrFun hs.keeps.1
  have hlive : (s.hooks ≠ 0 ∧ r.dev.busy ≠ []) ∨ pending r ≠ [] ∨ Bound es →
      ∀ i, s.drv.dmaHandle i ∈ s.live := by
    rintro (⟨hk, hb⟩ | hp | hb)
    · rcases hs.busy hb with hb | hp
      · exact h.granted (Or.inl ⟨hk, hb⟩)
      · exact h.granted (Or.inr (Or.inl hp))
    · obtain ⟨n, hn⟩ := List.exists_mem_of_ne_nil _ hp
      rcases hs.pending hn with hn | ⟨ha, h0⟩
      · exact h.granted (Or.inr (Or.inl (List.ne_nil_of_mem hn)))
      · exact h.granted (Or.inr (Or.inr (hsub n ha h0).2))
    · exact h.granted (Or.inr (Or.inr hb))
  exact { h with
    counts := fun i => by
      rcases hs.count i with hc | hc
      · exact hc ▸ h.counts i
      · exact h.asked _ hc
    asked := fun n hn => by
      rcases hs.pending hn with hn | ⟨ha, h0⟩
      · exact h.asked n hn
      · exact (hsub n ha h0).1
    granted := fun hg i => (hkeep i) ▸ hlive hg i
    alone := fun hne => by
      obtain ⟨flags, rfl⟩ := hrun.resolve_left hne
      exact hs.idle (h.alone hne)
    binding := fun hd i => (hkeep i) ▸ h.binding hd i }

theorem enterCode (h : Safe es s) {c : Call} (hpc : s.pc = .idle) (hrel : c ≠ .release) :
    Safe es { s with code := c.code } := by
  obtain ⟨hplain, hord, hbind, hhook⟩ := c.code_shape
  exact { h with
    alone := fun _ => hpc
    binding := fun hd i => Or.inl (hbind hd i)
    hooking := fun hi => Or.inl (hhook hi)
    freeing := fun i hi => absurd hi (Call.freeSlot_notMem hrel i)
    ordered := hord
    plain := hplain }

theorem enterRelease (h : Safe es s) (hpc : s.pc = .idle) :
    Safe (es ++ [.released])
      { s with fileOpen := false, code := releaseCode, dev := kWriteReg s.dev 0x1000 1 } := by
  have hbound : ¬ Bound (es ++ [.released]) := by simp [Bound]
  have hdev : kWriteReg s.dev 0x1000 1 = s.dev := kWriteReg_other (by decide) (by decide) 1
  obtain ⟨hplain, hord, -, -⟩ := Call.release.code_shape
  have hd : .resetDrain ∉ releaseCode := by decide
  have hr : .requestIrq ∉ releaseCode := by decide
  rw [hdev]
  exact { h with
    granted := fun hg => h.granted (hg.imp_right (Or.imp_right fun hb => absurd hb hbound))
    alone := fun _ => hpc
    binding := fun hi => absurd hi hd
    hooking := fun hi => absurd hi hr
    freeing := fun _ _ => hbound
    ordered := hord
    plain := hplain }

/-- **One step of a careful run keeps it.** -/
theorem step (h : Safe es s) {a : Act} (hg : Careful es s a) {s' : Session} {es' : List Mark}
    (hs : s.Case a s' es') : Safe (es ++ es') s' := by
  cases hs with
  | opened =>
    rw [List.append_nil]
    exact { h with }
  | closed hpc => exact h.enterRelease hpc
  | began hpc hc =>
    rw [List.append_nil]
    exact h.enterCode hpc hc
  | instr hc hf => exact h.instr hc hg hf
  | unnoticed hk =>
    rw [List.append_nil]
    exact { h with granted := fun hw => h.granted (hw.imp_left fun hw => absurd hk hw.1) }
  | lost =>
    rw [List.append_nil]
    exact { h with granted := fun hw => h.granted (hw.imp_left fun hw => absurd rfl hw.2) }
  | start hrun _ hsub hs =>
    rw [List.append_nil]
    refine h.start hrun (fun n hn h0 => ?_) hs
    obtain rfl := hsub n hn
    exact hg h0

theorem instr_started (h : Safe es s) {x : Instr} {r : List Instr} (hc : s.code = x :: r)
    {ans : Answer} {s' : Session} {es' : List Mark} (hf : s.instr ans r x = some (s', es')) :
    s'.dev.started = s.dev.started := by
  cases x with
  | writeReg reg value =>
    obtain ⟨rfl, rfl⟩ := Prod.mk.inj (Option.some.inj hf)
    exact congrArg Device.started (h.kWriteReg_eq hc)
  | allocSlot i =>
    rw [Session.instr, Option.ite_none_right_eq_some] at hf
    obtain ⟨-, hf⟩ := hf
    obtain ⟨rfl, rfl⟩ := Prod.mk.inj (Option.some.inj hf)
    rfl
  | _ =>
    obtain ⟨rfl, rfl⟩ := Prod.mk.inj (Option.some.inj hf)
    rfl

/-- A slot with a live handle and a count that fits is inside its buffer. -/
theorem inside (h : Safe es s) {i : Fin BUFFERS} (hlive : s.drv.dmaHandle i ∈ s.live) :
    Inside s.live (s.drv.slotTransfer i) := by
  have hfits := h.fits _ hlive
  have hcount := h.counts i
  have hbytes : bufferBytes = 124 * 1024 := rfl
  have hcut : (s.drv.slotTransfer i).1.toNat = (s.drv.dmaHandle i).toNat := by
    rw [Kyouko2.slotTransfer, UInt64.toNat_toUInt32, Nat.mod_eq_of_lt (by omega)]
  refine ⟨s.drv.dmaHandle i, hlive, by rw [hcut], ?_⟩
  rw [hcut]
  exact Nat.add_le_add_left hcount _

theorem startsInside (h : Safe es s) {a : Act} (hg : Careful es s a) : StartsInside es s a := by
  intro s' es' l hf hl t ht
  have hs := Session.cases_of_step hf
  have hsafe := h.step hg hs
  -- a step that starts nothing has nothing to show
  have hsame : s'.dev.started = s.dev.started → Inside s'.live t := by
    intro hst
    have hnil : l = [] := List.append_right_eq_self.mp (hl.symm.trans hst)
    rw [hnil] at ht
    cases ht
  cases hs with
  | opened => exact hsame rfl
  | closed _ => exact hsame (congrArg Device.started (kWriteReg_other (by decide) (by decide) 1))
  | began _ _ => exact hsame rfl
  | instr hc hf => exact hsame (h.instr_started hc hf)
  | unnoticed _ => exact hsame rfl
  | lost => exact hsame rfl
  | @start _ _ r _ _ hirq _ hs =>
    rcases hs.started with hst | ⟨hwhy, i, hst⟩
    · exact hsame hst
    · obtain rfl : l = [r.drv.slotTransfer i] := List.append_cancel_left (hl.symm.trans hst)
      obtain rfl := List.mem_singleton.mp ht
      have hall : ∀ i, s.drv.dmaHandle i ∈ s.live := by
        rcases hwhy with ⟨flags, hb, hbusy⟩ | hp
        · exact h.granted (Or.inl ⟨hirq flags hb, hbusy⟩)
        · exact h.granted (Or.inr (Or.inl hp))
      refine hsafe.inside ?_
      show r.drv.dmaHandle i ∈ s.live
      rw [hs.keeps.1]
      exact hall i

end Safe

/-- **Every transfer of a careful run lies inside a buffer of the driver**, one
that `BIND_DMA` has allocated and that has not been freed.  Any number of
sessions, any calls in any order and any interleaving with the interrupts. -/
theorem transfers_inside_bufs (as : List Act) (hg : AllSteps Session.step .loaded Careful as) :
    AllSteps Session.step .loaded StartsInside as :=
  allSteps_of_guard (I := Safe) hg .loaded
    (fun hi hc hf => hi.step hc (Session.cases_of_step hf)) fun hi hc => hi.startsInside hc

/-- An answer to an instruction that asks for nothing. -/
def noAnswer : Answer := { buffer := 0, handle := 0, addr := 0, hooked := false }

/-- A program that opens the device and asks for a transfer, without a `BIND_DMA`. -/
def withoutBind : List Act := [.call .openDev, .call (.startDma 148)]

/-- The card is told to read from address 0, where there is no buffer. -/
theorem startDma_without_bind : ∃ es s, Run Session.step .loaded withoutBind es s ∧
    s.live = [] ∧ ¬ StartsInside es s (.run noAnswer) := by
  obtain ⟨es, s, hr, hlive, hnew⟩ := exists_run Session.step .loaded withoutBind
    (fun _ s => s.live = [] ∧ (s.step (.run noAnswer)).any (fun r => decide (r.1.live = [] ∧
      r.1.dev.started = s.dev.started ++ [(0, 148)])) = true) (by decide +kernel)
  refine ⟨es, s, hr, hlive, fun hin => ?_⟩
  obtain ⟨r, hf, hd⟩ := (Option.any_eq_true _ _).mp hnew
  obtain ⟨hl, hst⟩ := of_decide_eq_true hd
  obtain ⟨x, hx, -⟩ := hin r.1 r.2 _ hf hst _ (List.mem_singleton_self _)
  rw [hl] at hx
  cases hx

/-- The kernel's answers to one round of the `BIND_DMA` loop. -/
def answerSlot (i : Fin BUFFERS) : List Act :=
  [.run { noAnswer with buffer := someAnswers.buffer i, handle := someAnswers.handle i },
    .run { noAnswer with addr := someAnswers.addr i }, .run noAnswer, .run noAnswer]

def answerBind : List Act :=
  (List.finRange BUFFERS).flatMap answerSlot ++
    [.run noAnswer, .run noAnswer, .run { noAnswer with hooked := true }, .run noAnswer,
      .run noAnswer]

def oneSession : List Act :=
  [.call .openDev, .call .bindDma] ++ answerBind ++
    [.call (.startDma 148), .run noAnswer, .run noAnswer, .irq 2, .call .release] ++
    List.replicate 11 (.run noAnswer)

theorem transfers_inside_oneSession :
    (exec Session.step .loaded oneSession).any
      (fun r => decide (r.1.dev.started = [(0x100000, 148)] ∧ r.1.live = [])) = true ∧
      AllSteps Session.step .loaded StartsInside oneSession :=
  ⟨by decide +kernel, transfers_inside_bufs oneSession (allSteps_of_check (by decide +kernel))⟩

end LinuxKerDev.Dma
