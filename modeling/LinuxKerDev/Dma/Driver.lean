import LinuxKerDev.Dma.Device
import LinuxKerDev.Lib.FlagRing

/-!
# The driver state of `dmaBuffer.c` and the code that works on it

`Kyouko2` is the file-level state: the structure `kyouko2` and the statics
`fill`, `drain` and `size`.  The indices live in `Fin BUFFERS`, where `i + 1` is
the source's `(i+1) % BUFFERS`.

The functions here are the pieces of the source that run without being
interrupted by one another: the locked section of `dma_interrupt`, the two
locked sections of `initiateTransfer`, and the steps of the `BIND_DMA` loop.
Which of them may interleave, and how, is said where the runs are defined.

`Kyouko2.ring` reads the slots as a ring of `Lib.FlagRing`; storing a request is
`push` on it and retiring one is `pop`.
-/

namespace LinuxKerDev.Dma

open Lib

/-- `dma_Buffer`.  `buffer` is the kernel address, zero for `NULL`.  `isFull`
is only ever set to `0` or `1`. -/
structure DmaBuffer where
  buffer : UInt64
  count : UInt32
  isFull : Bool
  deriving DecidableEq, Repr, Inhabited

structure Kyouko2 where
  pControlBase : UInt64
  pCardRamBase : UInt64
  dmaBuffer : Fin BUFFERS → DmaBuffer
  userVirtAddr : Fin BUFFERS → UInt64
  dmaHandle : Fin BUFFERS → UInt64
  fill : Fin BUFFERS
  drain : Fin BUFFERS
  size : UInt32

namespace Kyouko2

def updSlot (k : Kyouko2) (i : Fin BUFFERS) (g : DmaBuffer → DmaBuffer) : Kyouko2 :=
  { k with dmaBuffer := Function.update k.dmaBuffer i (g (k.dmaBuffer i)) }

/-- Queue a request in the slot `fill`: set `isFull` and `count`, then advance. -/
def store (k : Kyouko2) (numBytes : UInt32) : Kyouko2 :=
  let k' := k.updSlot k.fill fun b => { b with isFull := true, count := numBytes }
  { k' with fill := k.fill + 1 }

/-- Take the request at `drain` off: clear `isFull`, then advance. -/
def retire (k : Kyouko2) : Kyouko2 :=
  let k' := k.updSlot k.drain fun b => { b with isFull := false }
  { k' with drain := k.drain + 1 }

/-- The register pair for the slot `i`.  `K_WRITE_REG` takes an
`unsigned int`, so the handle is cut to 32 bits. -/
def slotTransfer (k : Kyouko2) (i : Fin BUFFERS) : Transfer :=
  ((k.dmaHandle i).toUInt32, (k.dmaBuffer i).count)

def ring (k : Kyouko2) : FlagRing BUFFERS UInt32 where
  fill := k.fill
  drain := k.drain
  full i := (k.dmaBuffer i).isFull
  val i := (k.dmaBuffer i).count

@[simp] theorem ring_fill (k : Kyouko2) : k.ring.fill = k.fill := rfl
@[simp] theorem ring_drain (k : Kyouko2) : k.ring.drain = k.drain := rfl
@[simp] theorem ring_full (k : Kyouko2) (i : Fin BUFFERS) :
    k.ring.full i = (k.dmaBuffer i).isFull := rfl
@[simp] theorem ring_val (k : Kyouko2) (i : Fin BUFFERS) :
    k.ring.val i = (k.dmaBuffer i).count := rfl

@[simp] theorem store_fill (k : Kyouko2) (n : UInt32) : (k.store n).fill = k.fill + 1 := rfl
@[simp] theorem store_drain (k : Kyouko2) (n : UInt32) : (k.store n).drain = k.drain := rfl
@[simp] theorem store_dmaHandle (k : Kyouko2) (n : UInt32) :
    (k.store n).dmaHandle = k.dmaHandle := rfl
@[simp] theorem store_userVirtAddr (k : Kyouko2) (n : UInt32) :
    (k.store n).userVirtAddr = k.userVirtAddr := rfl
@[simp] theorem retire_fill (k : Kyouko2) : k.retire.fill = k.fill := rfl
@[simp] theorem retire_drain (k : Kyouko2) : k.retire.drain = k.drain + 1 := rfl
@[simp] theorem retire_dmaHandle (k : Kyouko2) : k.retire.dmaHandle = k.dmaHandle := rfl
@[simp] theorem retire_userVirtAddr (k : Kyouko2) :
    k.retire.userVirtAddr = k.userVirtAddr := rfl

theorem store_dmaBuffer (k : Kyouko2) (n : UInt32) (i : Fin BUFFERS) :
    (k.store n).dmaBuffer i =
      if i = k.fill then { k.dmaBuffer i with isFull := true, count := n }
      else k.dmaBuffer i := by
  by_cases h : i = k.fill
  · subst h; simp [store, updSlot]
  · simp [store, updSlot, h]

theorem retire_dmaBuffer (k : Kyouko2) (i : Fin BUFFERS) :
    k.retire.dmaBuffer i =
      if i = k.drain then { k.dmaBuffer i with isFull := false } else k.dmaBuffer i := by
  by_cases h : i = k.drain
  · subst h; simp [retire, updSlot]
  · simp [retire, updSlot, h]

theorem ring_store (k : Kyouko2) (n : UInt32) : (k.store n).ring = k.ring.push n := by
  simp only [ring, FlagRing.push, store_fill, store_drain, FlagRing.mk.injEq, true_and]
  constructor <;> funext i <;> rw [store_dmaBuffer] <;> by_cases h : i = k.fill <;>
    simp [h]

theorem ring_retire (k : Kyouko2) : k.retire.ring = k.ring.pop := by
  simp only [ring, FlagRing.pop, retire_fill, retire_drain, FlagRing.mk.injEq, true_and]
  constructor <;> funext i <;> rw [retire_dmaBuffer] <;> by_cases h : i = k.drain <;>
    simp [h]

end Kyouko2

/-! ### The locked sections -/

/-- What the first locked section of `initiateTransfer` comes to. -/
inductive Entered
  | done (k : Kyouko2) (d : Device)
  | suspend

/-- `initiateTransfer` up to its return or up to `wait_event_interruptible`. -/
def initiateTransfer (k : Kyouko2) (d : Device) (numBytes : UInt32) : Entered :=
  if numBytes = 0 then .done k d
  else if k.fill = k.drain then
    if (k.dmaBuffer k.fill).isFull = true then .suspend
    else
      -- buffer is empty, so the request goes to the registers at once
      .done (k.store numBytes) (program d (k.dmaHandle k.fill).toUInt32 numBytes)
  else .done (k.store numBytes) d

def waitCondition (k : Kyouko2) : Prop :=
  k.fill ≠ k.drain ∨ (k.dmaBuffer k.fill).isFull = false

instance (k : Kyouko2) : Decidable (waitCondition k) := by
  unfold waitCondition; infer_instance

/-- The second locked section of `initiateTransfer`, after the wait.  It
neither looks at the ring again nor at the registers. -/
def initiateTransferWoken (k : Kyouko2) (numBytes : UInt32) : Kyouko2 := k.store numBytes

/-- `dma_interrupt`, with the value it reads from `INFOSTATUS`.  The last
component says whether it calls `wake_up_interruptible`. -/
def dmaInterrupt (k : Kyouko2) (d : Device) (flags : UInt32) : Kyouko2 × Device × Bool :=
  let d := kWriteReg d infoStatus 0xFFFFFFFF
  if flags &&& 0x2 = 0 then (k, d, false)
  else if k.fill = k.drain then
    if (k.dmaBuffer k.fill).isFull = true then
      let k := k.retire
      (k, program d (k.slotTransfer k.drain).1 (k.slotTransfer k.drain).2, true)
    else (k, d, false)  -- "Should not come here!!"
  else
    let k := k.retire
    if k.fill ≠ k.drain then
      (k, program (sync d) (k.slotTransfer k.drain).1 (k.slotTransfer k.drain).2, false)
    else (k, d, false)

/-! What the handler comes to, branch by branch. -/

section

variable {k : Kyouko2} {d : Device} {flags : UInt32}

theorem dmaInterrupt_none (hf : flags &&& 0x2 = 0) : dmaInterrupt k d flags = (k, d, false) := by
  simp [dmaInterrupt, hf]

theorem dmaInterrupt_full (hf : flags &&& 0x2 ≠ 0) (hfd : k.fill = k.drain)
    (hfull : (k.dmaBuffer k.fill).isFull = true) :
    dmaInterrupt k d flags = (k.retire, program d (k.retire.slotTransfer k.retire.drain).1
      (k.retire.slotTransfer k.retire.drain).2, true) := by
  simp [dmaInterrupt, hf, hfd, hfd ▸ hfull]

theorem dmaInterrupt_stray (hf : flags &&& 0x2 ≠ 0) (hfd : k.fill = k.drain)
    (hfull : (k.dmaBuffer k.fill).isFull = false) : dmaInterrupt k d flags = (k, d, false) := by
  simp [dmaInterrupt, hf, hfd, hfd ▸ hfull]

theorem dmaInterrupt_more (hf : flags &&& 0x2 ≠ 0) (hfd : k.fill ≠ k.drain)
    (hmore : k.fill ≠ k.drain + 1) :
    dmaInterrupt k d flags = (k.retire, program d (k.retire.slotTransfer k.retire.drain).1
      (k.retire.slotTransfer k.retire.drain).2, false) := by
  simp [dmaInterrupt, hf, hfd, hmore]

theorem dmaInterrupt_last (hf : flags &&& 0x2 ≠ 0) (hlast : k.fill = k.drain + 1) :
    dmaInterrupt k d flags = (k.retire, d, false) := by
  simp [dmaInterrupt, hf, hlast]

end

/-! ### `kyouko2_mmap` -/

structure Vma where
  vmStart : UInt64
  vmEnd : UInt64
  vmPgoff : UInt64

structure Remap where
  start : UInt64
  pfn : UInt64
  size : UInt64
  deriving DecidableEq, Repr

/-- `kyouko2_mmap`: the remapping it asks for, or `none` for `-1`. -/
def kyouko2Mmap (k : Kyouko2) (vma : Vma) : Option Remap :=
  let off := vma.vmPgoff <<< 12
  let remap (base : UInt64) : Option Remap :=
    some ⟨vma.vmStart, base >>> 12, vma.vmEnd - vma.vmStart⟩
  if off = 0 then remap k.pControlBase
  else if off = 0x80000000 then remap k.pCardRamBase
  else if off = 0x1000 then remap (k.dmaHandle 0)
  else if off = 0x2000 then remap (k.dmaHandle 1)
  else if off = 0x3000 then remap (k.dmaHandle 2)
  else if off = 0x4000 then remap (k.dmaHandle 3)
  else if off = 0x5000 then remap (k.dmaHandle 4)
  else if off = 0x6000 then remap (k.dmaHandle 5)
  else if off = 0x7000 then remap (k.dmaHandle 6)
  else if off = 0x8000 then remap (k.dmaHandle 7)
  else none

def bindOffset (i : Fin BUFFERS) : UInt64 := UInt64.ofNat ((i.val + 1) * 0x1000)

theorem bindOffset_shift : ∀ i : Fin BUFFERS, (bindOffset i >>> 12) <<< 12 = bindOffset i := by
  decide

theorem kyouko2Mmap_bindOffset (k : Kyouko2) (i : Fin BUFFERS) (s e : UInt64) :
    kyouko2Mmap k ⟨s, e, bindOffset i >>> 12⟩ = some ⟨s, k.dmaHandle i >>> 12, e - s⟩ := by
  simp only [kyouko2Mmap, bindOffset_shift]
  fin_cases i <;> simp [bindOffset] <;> rfl

/-- `do_mmap` at an address the kernel has picked: it calls the driver's
`mmap`, and returns the address or the negative result. -/
def doMmap (k : Kyouko2) (maps : List Remap) (addr off : UInt64) : UInt64 × List Remap :=
  match kyouko2Mmap k ⟨addr, addr + UInt64.ofNat bufferBytes, off >>> 12⟩ with
  | some r => (addr, r :: maps)
  | none => (-1, maps)

/-- The page frame a user address is mapped to. -/
def pfnAt (maps : List Remap) (addr : UInt64) : Option UInt64 :=
  (maps.find? fun r => r.start == addr).map Remap.pfn

/-! ### `BIND_DMA` -/

namespace Kyouko2

def allocSlot (k : Kyouko2) (i : Fin BUFFERS) (buffer handle : UInt64) : Kyouko2 :=
  let k' := k.updSlot i fun b => { b with buffer := buffer }
  { k' with dmaHandle := Function.update k.dmaHandle i handle }

def setUserVirtAddr (k : Kyouko2) (i : Fin BUFFERS) (addr : UInt64) : Kyouko2 :=
  { k with userVirtAddr := Function.update k.userVirtAddr i addr }

def clearFull (k : Kyouko2) (i : Fin BUFFERS) : Kyouko2 :=
  k.updSlot i fun b => { b with isFull := false }

def clearCount (k : Kyouko2) (i : Fin BUFFERS) : Kyouko2 :=
  k.updSlot i fun b => { b with count := 0 }

theorem updSlot_dmaBuffer (k : Kyouko2) (i j : Fin BUFFERS) (g : DmaBuffer → DmaBuffer) :
    (k.updSlot i g).dmaBuffer j = if j = i then g (k.dmaBuffer i) else k.dmaBuffer j :=
  Function.update_apply _ _ _ _

theorem allocSlot_count (k : Kyouko2) (i j : Fin BUFFERS) (buffer handle : UInt64) :
    ((k.allocSlot i buffer handle).dmaBuffer j).count = (k.dmaBuffer j).count := by
  show ((k.updSlot i fun b => { b with buffer := buffer }).dmaBuffer j).count = _
  rw [updSlot_dmaBuffer]
  split
  · next h => rw [h]
  · rfl

theorem clearFull_count (k : Kyouko2) (i j : Fin BUFFERS) :
    ((k.clearFull i).dmaBuffer j).count = (k.dmaBuffer j).count := by
  rw [clearFull, updSlot_dmaBuffer]
  split
  · next h => rw [h]
  · rfl

theorem allocSlot_isFull (k : Kyouko2) (i j : Fin BUFFERS) (buffer handle : UInt64) :
    ((k.allocSlot i buffer handle).dmaBuffer j).isFull = (k.dmaBuffer j).isFull := by
  show ((k.updSlot i fun b => { b with buffer := buffer }).dmaBuffer j).isFull = _
  rw [updSlot_dmaBuffer]
  split
  · next h => rw [h]
  · rfl

theorem clearCount_isFull (k : Kyouko2) (i j : Fin BUFFERS) :
    ((k.clearCount i).dmaBuffer j).isFull = (k.dmaBuffer j).isFull := by
  rw [clearCount, updSlot_dmaBuffer]
  split
  · next h => rw [h]
  · rfl

theorem clearFull_isFull (k : Kyouko2) (i j : Fin BUFFERS) :
    ((k.clearFull i).dmaBuffer j).isFull = if j = i then false else (k.dmaBuffer j).isFull := by
  rw [clearFull, updSlot_dmaBuffer]
  split <;> rfl

theorem clearCount_count (k : Kyouko2) (i j : Fin BUFFERS) :
    ((k.clearCount i).dmaBuffer j).count = if j = i then 0 else (k.dmaBuffer j).count := by
  rw [clearCount, updSlot_dmaBuffer]
  split <;> rfl

end Kyouko2

/-- What the kernel answers in a `BIND_DMA` that succeeds: the eight buffers
with their handles, and the eight user addresses. -/
structure BindAnswers where
  buffer : Fin BUFFERS → UInt64
  handle : Fin BUFFERS → UInt64
  addr : Fin BUFFERS → UInt64

def bindSlot (ans : BindAnswers) (km : Kyouko2 × List Remap) (i : Fin BUFFERS) :
    Kyouko2 × List Remap :=
  let k := km.1.allocSlot i (ans.buffer i) (ans.handle i)
  let r := doMmap k km.2 (ans.addr i) (bindOffset i)
  (((k.setUserVirtAddr i r.1).clearFull i).clearCount i, r.2)

def bindLoop (ans : BindAnswers) (km : Kyouko2 × List Remap) (l : List (Fin BUFFERS)) :
    Kyouko2 × List Remap := l.foldl (bindSlot ans) km

/-- `BIND_DMA`, from any state a previous use may have left behind. -/
def bindDma (ans : BindAnswers) (km : Kyouko2 × List Remap) : Kyouko2 × List Remap :=
  let r := bindLoop ans km (List.finRange BUFFERS)
  ({ r.1 with fill := 0, drain := 0 }, r.2)

/-- What a round of the loop sets for its own slot, and the other rounds leave
alone, holds of every slot at the end. -/
theorem bindLoop_rule (ans : BindAnswers) (Q : Fin BUFFERS → Kyouko2 × List Remap → Prop)
    (hself : ∀ km i, Q i (bindSlot ans km i))
    (hkeep : ∀ km i j, i ≠ j → Q i km → Q i (bindSlot ans km j)) :
    ∀ (l : List (Fin BUFFERS)) (km : Kyouko2 × List Remap) (i : Fin BUFFERS),
      i ∈ l ∨ Q i km → Q i (bindLoop ans km l) := by
  intro l
  induction l with
  | nil =>
    rintro km i (h | h)
    · exact absurd h List.not_mem_nil
    · exact h
  | cons j l ih =>
    intro km i h
    refine ih (bindSlot ans km j) i ?_
    by_cases hij : i = j
    · exact Or.inr (hij ▸ hself km i)
    · rcases h with h | h
      · exact Or.inl (List.mem_of_ne_of_mem hij h)
      · exact Or.inr (hkeep km i j hij h)

theorem bindSlot_eq (ans : BindAnswers) (km : Kyouko2 × List Remap) (i : Fin BUFFERS) :
    bindSlot ans km i =
      ((((km.1.allocSlot i (ans.buffer i) (ans.handle i)).setUserVirtAddr i (ans.addr i)).clearFull
        i).clearCount i,
        ⟨ans.addr i, ans.handle i >>> 12, ans.addr i + UInt64.ofNat bufferBytes - ans.addr i⟩ ::
          km.2) := by
  simp only [bindSlot, doMmap, kyouko2Mmap_bindOffset]
  simp [Kyouko2.allocSlot]

section Bound

variable (ans : BindAnswers) (km : Kyouko2 × List Remap) (i : Fin BUFFERS)

@[simp] theorem bindDma_fill : (bindDma ans km).1.fill = 0 := rfl
@[simp] theorem bindDma_drain : (bindDma ans km).1.drain = 0 := rfl

theorem bindSlot_self : ((bindSlot ans km i).1.dmaBuffer i).isFull = false ∧
    (bindSlot ans km i).1.dmaHandle i = ans.handle i ∧
    (bindSlot ans km i).1.userVirtAddr i = ans.addr i := by
  simp [bindSlot_eq, Kyouko2.clearCount, Kyouko2.clearFull, Kyouko2.updSlot,
    Kyouko2.setUserVirtAddr, Kyouko2.allocSlot]

theorem bindSlot_other {j : Fin BUFFERS} (hij : i ≠ j) :
    (bindSlot ans km j).1.dmaBuffer i = km.1.dmaBuffer i ∧
      (bindSlot ans km j).1.dmaHandle i = km.1.dmaHandle i ∧
      (bindSlot ans km j).1.userVirtAddr i = km.1.userVirtAddr i := by
  simp [bindSlot_eq, Kyouko2.clearCount, Kyouko2.clearFull, Kyouko2.updSlot,
    Kyouko2.setUserVirtAddr, Kyouko2.allocSlot, hij]

theorem bindDma_slot : ((bindDma ans km).1.dmaBuffer i).isFull = false ∧
    (bindDma ans km).1.dmaHandle i = ans.handle i ∧
    (bindDma ans km).1.userVirtAddr i = ans.addr i := by
  refine bindLoop_rule ans (fun i km => (km.1.dmaBuffer i).isFull = false ∧
    km.1.dmaHandle i = ans.handle i ∧ km.1.userVirtAddr i = ans.addr i)
    (fun km i => bindSlot_self ans km i) (fun km i j hij h => ?_)
    (List.finRange BUFFERS) km i (Or.inl (List.mem_finRange i))
  obtain ⟨hbuffer, hhandle, haddr⟩ := bindSlot_other ans km i hij
  rw [hbuffer, hhandle, haddr]
  exact h

@[simp] theorem bindDma_isFull : ((bindDma ans km).1.dmaBuffer i).isFull = false :=
  (bindDma_slot ans km i).1

@[simp] theorem bindDma_dmaHandle : (bindDma ans km).1.dmaHandle i = ans.handle i :=
  (bindDma_slot ans km i).2.1

@[simp] theorem bindDma_userVirtAddr : (bindDma ans km).1.userVirtAddr i = ans.addr i :=
  (bindDma_slot ans km i).2.2

/-- **Each user address is mapped to its own buffer**, as `do_mmap` never hands
out an address that is in use. -/
theorem bindDma_pfnAt (hinj : Function.Injective ans.addr) :
    pfnAt (bindDma ans km).2 (ans.addr i) = some (ans.handle i >>> 12) := by
  have h := bindLoop_rule ans
    (fun i km => pfnAt km.2 (ans.addr i) = some (ans.handle i >>> 12))
    (fun km i => by simp [bindSlot_eq, pfnAt])
    (fun km i j hij h => by
      have hne : ans.addr j ≠ ans.addr i := fun he => hij (hinj he.symm)
      rw [bindSlot_eq, pfnAt, List.find?_cons_of_neg (by simpa using hne)]
      exact h)
    _ km i (Or.inl (List.mem_finRange i))
  simpa only [bindDma] using h

end Bound

end LinuxKerDev.Dma
