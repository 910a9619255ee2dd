import LinuxKerDev.Cards.Card
import LinuxKerDev.Dma.Session

/-!
# Sessions of `driver.c`

The second driver for the card.  Its ring is that of `dmaBuffer.c`, line for line
and with other names, so `initiateTransfer` and `dma_interrupt` are taken from
there.  What differs is around it: a flag `dma_mapped` says whether `BIND_DMA`
has been called, `START_DMA` and `release` look at it, and `VMODE` off waits for
the ring instead of rebooting the card when it is set.

The header `dataTypes.h` is not there.  A register is known by its name, the
outcome of `(int)arg == GRAPHICS_ON` is the argument of the call, bit 1 stands
for `BUF_A_FLUSHED`, and there are eight buffers, as `kyouko2_mmap` has it.  A
write of 1 to `REBOOT` ends the transfers in flight.

As in `Dma/Session.lean` calls come one after the other, at most one file is open,
and `dma_interrupt` may run between any two instructions while it is hooked.  A run
shows which resources are acquired and released.
-/

namespace LinuxKerDev.DriverC

open Lib Dma
open Cards (Region)

/-! ### Calls and their instructions -/

/-- The registers, but for the two of the DMA engine. -/
inductive Reg
  | reboot
  | modeset
  | interrupt
  | interruptStatus
  | accReg
  | flush
  | clearBufReg
  | frame0Base (offset : UInt32)
  | dac0Base (offset : UInt32)
  | clearColor (offset : UInt32)
  deriving DecidableEq, Repr

inductive Instr
  | writeReg (reg : Reg) (value : UInt32)
  | sync
  | testMapped
  | waitEmpty (i : Fin BUFFERS)
  | ioremap (r : Region)
  | allocSlot (i : Fin BUFFERS)
  | mapSlot (i : Fin BUFFERS)
  | clearFull (i : Fin BUFFERS)
  | clearCount (i : Fin BUFFERS)
  | setMapped
  | resetFill
  | resetDrain
  | enableMsi
  | requestIrq
  | freeIrq
  | disableMsi
  | freeSlot (i : Fin BUFFERS)
  | clearMapped
  | iounmap (r : Region)
  deriving DecidableEq, Repr

/-- The calls, with what `copy_from_user` leaves in `size` for a `START_DMA`. -/
inductive Call
  | openDev
  | mmap
  | vmode (on : Bool)
  | sync
  | bindDma
  | startDma (size : UInt32)
  | flush
  | other
  | release
  deriving DecidableEq, Repr

def graphicsOn : List Instr :=
  [.writeReg (.frame0Base 0) 1024, .writeReg (.frame0Base 0x4) 768,
    .writeReg (.frame0Base 0x8) 4096, .writeReg (.frame0Base 0xc) 0x0000F888,
    .writeReg (.frame0Base 0x10) 0, .writeReg (.dac0Base 0) 1024, .writeReg (.dac0Base 0x4) 768,
    .writeReg (.dac0Base 0x8) 0, .writeReg (.dac0Base 0xc) 0, .writeReg (.dac0Base 0x10) 0,
    .writeReg .accReg 0x40000000, .sync, .writeReg .modeset 1,
    .writeReg (.clearColor 0) 0x3E4CCCCD, .writeReg (.clearColor 0x4) 0x3E4CCCCD,
    .writeReg (.clearColor 0x8) 0x3E4CCCCD, .writeReg (.clearColor 0xc) 0, .writeReg .flush 1,
    .sync, .writeReg .clearBufReg 1]

def bindRound (i : Fin BUFFERS) : List Instr :=
  [.allocSlot i, .mapSlot i, .clearFull i, .clearCount i]

def bindCode : List Instr :=
  (List.finRange BUFFERS).flatMap bindRound ++
    [.setMapped, .resetFill, .resetDrain, .enableMsi, .requestIrq,
      .writeReg .interruptStatus 0xFFFFFFFF, .writeReg .interrupt 0x2]

/-- `kyouko2_release`, where `dma_mapped` is 1. -/
def unbindCode : List Instr :=
  [.writeReg .interrupt 0x00, .freeIrq, .disableMsi] ++
    (List.finRange BUFFERS).map .freeSlot ++ [.clearMapped, .writeReg .reboot 1]

def unmapCode : List Instr := [.iounmap .control, .iounmap .ram]

/-- What a call has to run after its first step; `release` looks at `dma_mapped`
as it begins. -/
def Call.code (dmaMapped : Bool) : Call → List Instr
  | openDev => [.ioremap .control, .ioremap .ram]
  | mmap => []
  | vmode on => if on = true then graphicsOn else [.sync, .testMapped]
  | sync => [.sync]
  | bindDma => bindCode
  | startDma _ => []
  | flush => [.writeReg .flush 0]
  | other => []
  | release => (if dmaMapped = true then unbindCode else []) ++ unmapCode

/-- `VMODE` off, after its `SYNC`: it waits for every slot, or reboots. -/
def offCode (dmaMapped : Bool) : List Instr :=
  if dmaMapped = true then (List.finRange BUFFERS).map .waitEmpty else [.writeReg .reboot 1]

/-! ### States and steps -/

/-- What is acquired and released.  A buffer is its kernel address and its handle. -/
inductive Resource
  | buffer (address handle : UInt64)
  | irq
  | msi
  | mapping (r : Region)
  deriving DecidableEq, Repr

structure Session where
  drv : Kyouko2
  dev : Device
  pc : Pc
  code : List Instr
  fileOpen : Bool
  dmaMapped : Bool
  hooks : Nat
  live : List UInt64

def Session.loaded : Session where
  drv := .zeroed
  dev := { mapped := false, address := 0, started := [], busy := [] }
  pc := .idle
  code := []
  fileOpen := false
  dmaMapped := false
  hooks := 0
  live := []

inductive Act
  | call (c : Call)
  | run (ans : Answer)
  | irq (flags : UInt32)
  deriving DecidableEq, Repr

def writeReg (d : Device) (reg : Reg) (value : UInt32) : Device :=
  if d.mapped = true ∧ reg = .reboot ∧ value = 1 then { d with busy := [] } else d

namespace Session

def sys (s : Session) : Sys Unit := { drv := s.drv, dev := s.dev, pc := fun _ => s.pc }

def setSys (s : Session) (r : Sys Unit) : Session :=
  { s with drv := r.drv, dev := r.dev, pc := r.pc () }

def instr (s : Session) (ans : Answer) (rest : List Instr) :
    Instr → Option (Session × List (LockOp Resource))
  | .writeReg reg value => some ({ s with code := rest, dev := writeReg s.dev reg value }, [])
  | .sync => some ({ s with code := rest, dev := Dma.sync s.dev }, [])
  | .testMapped => some ({ s with code := offCode s.dmaMapped ++ rest }, [])
  | .waitEmpty i =>
    -- the loop goes round as long as the slot is full
    if (s.drv.dmaBuffer i).isFull = true then some (s, []) else some ({ s with code := rest }, [])
  | .ioremap .control =>
    some ({ s with code := rest, dev := { s.dev with mapped := true } },
      [.acquire (.mapping .control)])
  | .ioremap .ram => some ({ s with code := rest }, [.acquire (.mapping .ram)])
  | .allocSlot i =>
    if ans.lawful s.live then
      some ({ s with
        code := rest
        drv := s.drv.allocSlot i ans.buffer ans.handle
        live := if ans.buffer = 0 then s.live else ans.handle :: s.live },
        if ans.buffer = 0 then [] else [.acquire (.buffer ans.buffer ans.handle)])
    else none
  | .mapSlot i => some ({ s with code := rest, drv := s.drv.setUserVirtAddr i ans.addr }, [])
  | .clearFull i => some ({ s with code := rest, drv := s.drv.clearFull i }, [])
  | .clearCount i => some ({ s with code := rest, drv := s.drv.clearCount i }, [])
  | .setMapped => some ({ s with code := rest, dmaMapped := true }, [])
  | .resetFill => some ({ s with code := rest, drv := { s.drv with fill := 0 } }, [])
  | .resetDrain => some ({ s with code := rest, drv := { s.drv with drain := 0 } }, [])
  | .enableMsi => some ({ s with code := rest }, [.acquire .msi])
  | .requestIrq =>
    some ({ s with code := rest, hooks := if ans.hooked then s.hooks + 1 else s.hooks },
      if ans.hooked then [.acquire .irq] else [])
  | .freeIrq => some ({ s with code := rest, hooks := s.hooks - 1 }, [.release .irq])
  | .disableMsi => some ({ s with code := rest }, [.release .msi])
  | .freeSlot i =>
    some ({ s with code := rest, live := s.live.erase (s.drv.dmaHandle i) },
      [.release (.buffer (s.drv.dmaBuffer i).buffer (s.drv.dmaHandle i))])
  | .clearMapped => some ({ s with code := rest, dmaMapped := false }, [])
  | .iounmap .control =>
    some ({ s with code := rest, dev := { s.dev with mapped := false } },
      [.release (.mapping .control)])
  | .iounmap .ram => some ({ s with code := rest }, [.release (.mapping .ram)])

/-- The first step of a call.  Without `dma_mapped` a `START_DMA` is refused. -/
def enter (s : Session) : Call → Option Session
  | .openDev =>
    if s.fileOpen = false then
      some { s with fileOpen := true, code := Call.openDev.code s.dmaMapped }
    else none
  | .release =>
    if s.fileOpen = true then
      some { s with fileOpen := false, code := Call.release.code s.dmaMapped }
    else none
  | .startDma size =>
    if s.fileOpen = true then
      if s.dmaMapped = true then
        (Dma.step s.sys (.startDma () size)).map fun r => s.setSys r.1
      else some s
    else none
  | c => if s.fileOpen = true then some { s with code := c.code s.dmaMapped } else none

def step (s : Session) : Act → Option (Session × List (LockOp Resource))
  | .call c => if s.code = [] ∧ s.pc = .idle then (s.enter c).map fun s' => (s', []) else none
  | .run ans =>
    match s.code with
    | i :: rest => s.instr ans rest i
    | [] => (Dma.step s.sys (.run ())).map fun r => (s.setSys r.1, [])
  | .irq flags =>
    if s.hooks = 0 then
      if s.dev.busy = [] then none else some ({ s with dev := s.dev.flush }, [])
    else (Dma.step s.sys (.irq flags)).map fun r => (s.setSys r.1, [])

/-! ### What each action comes to -/

variable {s s' : Session} {es : List (LockOp Resource)}

theorem step_call {c : Call} (hf : s.step (.call c) = some (s', es)) :
    s.code = [] ∧ s.pc = .idle ∧ s.enter c = some s' ∧ es = [] := by
  rw [step, Option.ite_none_right_eq_some] at hf
  obtain ⟨⟨hc, hpc⟩, hf⟩ := hf
  obtain ⟨r, hr, hf⟩ := Option.map_eq_some_iff.mp hf
  obtain ⟨rfl, rfl⟩ := Prod.mk.inj hf
  exact ⟨hc, hpc, hr, rfl⟩

inductive Entered (s : Session) : Call → Session → Prop
  | opened (ho : s.fileOpen = false) :
      Entered s .openDev { s with fileOpen := true, code := Call.openDev.code s.dmaMapped }
  | closed (ho : s.fileOpen = true) :
      Entered s .release { s with fileOpen := false, code := Call.release.code s.dmaMapped }
  | refused {n : UInt32} (ho : s.fileOpen = true) (hm : s.dmaMapped = false) :
      Entered s (.startDma n) s
  | submitted {n : UInt32} {r : Sys Unit} {ev : List (Event Unit)} (ho : s.fileOpen = true)
      (hm : s.dmaMapped = true) (hs : StepCase s.sys (.startDma () n) r ev) :
      Entered s (.startDma n) (s.setSys r)
  | began {c : Call} (ho : s.fileOpen = true) (h1 : c ≠ .openDev) (h2 : c ≠ .release)
      (h3 : ∀ n, c ≠ .startDma n) : Entered s c { s with code := c.code s.dmaMapped }

theorem entered_of_enter {c : Call} (he : s.enter c = some s') : Entered s c s' := by
  cases c with
  | openDev =>
    rw [enter, Option.ite_none_right_eq_some] at he
    obtain rfl := Option.some.inj he.2
    exact .opened he.1
  | release =>
    rw [enter, Option.ite_none_right_eq_some] at he
    obtain rfl := Option.some.inj he.2
    exact .closed he.1
  | startDma n =>
    rw [enter, Option.ite_none_right_eq_some] at he
    obtain ⟨ho, he⟩ := he
    by_cases hm : s.dmaMapped = true
    · rw [if_pos hm] at he
      obtain ⟨r, hr, rfl⟩ := Option.map_eq_some_iff.mp he
      exact .submitted ho hm (step_cases hr)
    · rw [if_neg hm] at he
      obtain rfl := Option.some.inj he
      exact .refused ho (Bool.eq_false_iff.mpr hm)
  | _ =>
    simp only [enter, Option.ite_none_right_eq_some] at he
    obtain rfl := Option.some.inj he.2
    exact .began he.1 (by simp) (by simp) (by simp)

theorem step_run_cons {ans : Answer} {x : Instr} {rest : List Instr} (hc : s.code = x :: rest)
    (hf : s.step (.run ans) = some (s', es)) : s.instr ans rest x = some (s', es) := by
  rw [step, hc] at hf
  exact hf

theorem step_run_nil {ans : Answer} (hc : s.code = []) (hf : s.step (.run ans) = some (s', es)) :
    es = [] ∧ ∃ r ev, StepCase s.sys (.run ()) r ev ∧ s' = s.setSys r := by
  rw [step, hc] at hf
  obtain ⟨r, hr, hf⟩ := Option.map_eq_some_iff.mp hf
  obtain ⟨rfl, rfl⟩ := Prod.mk.inj hf
  exact ⟨rfl, r.1, r.2, step_cases hr, rfl⟩

theorem step_irq_unhooked {flags : UInt32} (hk : s.hooks = 0)
    (hf : s.step (.irq flags) = some (s', es)) :
    es = [] ∧ s' = { s with dev := s.dev.flush } := by
  rw [step, if_pos hk, Option.ite_none_left_eq_some] at hf
  obtain ⟨rfl, rfl⟩ := Prod.mk.inj (Option.some.inj hf.2)
  exact ⟨rfl, rfl⟩

theorem step_irq_hooked {flags : UInt32} (hk : s.hooks ≠ 0)
    (hf : s.step (.irq flags) = some (s', es)) :
    es = [] ∧ ∃ r ev, StepCase s.sys (.irq flags) r ev ∧ s' = s.setSys r := by
  rw [step, if_neg hk] at hf
  obtain ⟨r, hr, hf⟩ := Option.map_eq_some_iff.mp hf
  obtain ⟨rfl, rfl⟩ := Prod.mk.inj hf
  exact ⟨rfl, r.1, r.2, step_cases hr, rfl⟩

end Session

end LinuxKerDev.DriverC
