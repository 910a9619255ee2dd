import LinuxKerDev.Dma.StartDma

/-!
# What `kyouko2_mmap` lets a process map

The offset of a mapping selects a region: the control BAR, the card RAM BAR, or one of
the DMA buffers.  `kyouko2_mmap` starts at the page the region starts in, and maps as
many bytes as the process asks for.  It looks neither at the size of the region nor at
whether the buffer is there: a buffer's handle is zero before `BIND_DMA`, and stays what
it was after the buffer has been freed.

Physical addresses are numbers here, so that a range may end beyond the last of them.
How large the card RAM BAR is and which buffers are allocated are parameters.
-/

namespace LinuxKerDev.Dma

def KYOUKO2_CONTROL_SIZE : Nat := 65536

/-- What `kyouko2_mmap` returns, given what `io_remap_pfn_range` does. -/
def kyouko2MmapFlag (ioRemapPfnRange : Remap → Int) (k : Kyouko2) (vma : Vma) : Int :=
  match kyouko2Mmap k vma with
  | some r => ioRemapPfnRange r
  | none => -1

def bufferAt (off : UInt64) : Option (Fin BUFFERS) :=
  (List.finRange BUFFERS).find? fun i => decide (off = bindOffset i)

/-- The region that an offset selects, as its first address and its size in bytes.  The offset
is the code's `vma->vm_pgoff << 12`, 64 bits wide, so from `vm_pgoff` = 2^52 on it wraps. -/
def selected (k : Kyouko2) (ramSize : Nat) (allocated : Fin BUFFERS → Bool) (off : UInt64) :
    Option (UInt64 × Nat) :=
  if off = 0 then some (k.pControlBase, KYOUKO2_CONTROL_SIZE)
  else if off = 0x80000000 then some (k.pCardRamBase, ramSize)
  else
    match bufferAt off with
    | some i => if allocated i = true then some (k.dmaHandle i, bufferBytes) else none
    | none => none

def Remap.Inside (r : Remap) (base : UInt64) (size : Nat) : Prop :=
  base.toNat ≤ r.pfn.toNat * 4096 ∧ r.pfn.toNat * 4096 + r.size.toNat ≤ base.toNat + size

/-- A mapping stays inside the region selected, and is refused where none is. -/
def MmapInside (ioRemapPfnRange : Remap → Int) (k : Kyouko2) (ramSize : Nat)
    (allocated : Fin BUFFERS → Bool) (vma : Vma) : Prop :=
  match selected k ramSize allocated (vma.vmPgoff <<< 12) with
  | some (base, size) => ∀ r, kyouko2Mmap k vma = some r → r.Inside base size
  | none => kyouko2Mmap k vma = none ∧ kyouko2MmapFlag ioRemapPfnRange k vma < 0

/-- The region starts on a page and is as long as the mapping; the offset of a buffer that
is not allocated is not asked for. -/
def MmapFits (k : Kyouko2) (ramSize : Nat) (allocated : Fin BUFFERS → Bool) (vma : Vma) : Prop :=
  match selected k ramSize allocated (vma.vmPgoff <<< 12) with
  | some (base, size) => base.toNat % 4096 = 0 ∧ (vma.vmEnd - vma.vmStart).toNat ≤ size
  | none => ∀ i, vma.vmPgoff <<< 12 ≠ bindOffset i

theorem bindOffset_inj : ∀ {i j : Fin BUFFERS}, bindOffset i = bindOffset j → i = j := by decide

theorem bufferAt_eq_some {off : UInt64} {i : Fin BUFFERS} :
    bufferAt off = some i ↔ off = bindOffset i := by
  constructor
  · intro h
    simpa using List.find?_some h
  · rintro rfl
    cases h : bufferAt (bindOffset i) with
    | none => exact absurd (List.find?_eq_none.mp h i (List.mem_finRange i)) (by simp)
    | some j =>
      have hj : bindOffset i = bindOffset j := by simpa using List.find?_some h
      rw [bindOffset_inj hj]

theorem bufferAt_eq_none {off : UInt64} : bufferAt off = none ↔ ∀ i, off ≠ bindOffset i := by
  rw [← Option.not_isSome_iff_eq_none, Option.isSome_iff_exists]
  simp [bufferAt_eq_some]

/-- The first address of what an offset selects, whatever is there. -/
def mmapBase (k : Kyouko2) (off : UInt64) : Option UInt64 :=
  if off = 0 then some k.pControlBase
  else if off = 0x80000000 then some k.pCardRamBase
  else (bufferAt off).map k.dmaHandle

/-- **The branches of `kyouko2_mmap` differ in the address only.** -/
theorem kyouko2Mmap_eq (k : Kyouko2) (vma : Vma) :
    kyouko2Mmap k vma = (mmapBase k (vma.vmPgoff <<< 12)).map fun base =>
      ⟨vma.vmStart, base >>> 12, vma.vmEnd - vma.vmStart⟩ := by
  unfold kyouko2Mmap mmapBase
  by_cases h0 : vma.vmPgoff <<< 12 = 0
  · simp [h0]
  by_cases h1 : vma.vmPgoff <<< 12 = 0x80000000
  · simp [h1]
  cases hb : bufferAt (vma.vmPgoff <<< 12) with
  | none =>
    have hne := bufferAt_eq_none.mp hb
    generalize vma.vmPgoff <<< 12 = off at h0 h1 hne
    have hoff : off ≠ 0x1000 ∧ off ≠ 0x2000 ∧ off ≠ 0x3000 ∧ off ≠ 0x4000 ∧ off ≠ 0x5000 ∧
        off ≠ 0x6000 ∧ off ≠ 0x7000 ∧ off ≠ 0x8000 :=
      ⟨hne 0, hne 1, hne 2, hne 3, hne 4, hne 5, hne 6, hne 7⟩
    simp [h0, h1, hoff]
  | some i =>
    rw [bufferAt_eq_some] at hb
    rw [hb]
    fin_cases i <;> simp [bindOffset] <;> rfl

section

variable {k : Kyouko2} {ramSize : Nat} {allocated : Fin BUFFERS → Bool} {off : UInt64}

/-- Where a region is selected, `kyouko2_mmap` maps it. -/
theorem mmapBase_of_selected {base : UInt64} {size : Nat}
    (h : selected k ramSize allocated off = some (base, size)) : mmapBase k off = some base := by
  unfold selected at h
  unfold mmapBase
  split_ifs at h ⊢ with h0 h1
  · exact congrArg some (Prod.mk.inj (Option.some.inj h)).1
  · exact congrArg some (Prod.mk.inj (Option.some.inj h)).1
  · cases hb : bufferAt off with
    | none => rw [hb] at h; cases h
    | some i =>
      rw [hb] at h
      dsimp only at h
      rw [Option.ite_none_right_eq_some] at h
      exact congrArg some (Prod.mk.inj (Option.some.inj h.2)).1

/-- Where none is, it refuses unless the offset is that of a buffer. -/
theorem mmapBase_eq_none (h : selected k ramSize allocated off = none) :
    mmapBase k off = none ↔ ∀ i, off ≠ bindOffset i := by
  unfold selected at h
  unfold mmapBase
  split_ifs at h ⊢ with h0 h1
  rw [Option.map_eq_none_iff, bufferAt_eq_none]

/-- **A range of pages lies inside a region** exactly if the region starts on a page and
is long enough. -/
theorem inside_iff (start len base : UInt64) (size : Nat) :
    Remap.Inside ⟨start, base >>> 12, len⟩ base size ↔ base.toNat % 4096 = 0 ∧ len.toNat ≤ size := by
  have hpfn : (base >>> 12).toNat = base.toNat / 4096 := by
    rw [UInt64.toNat_shiftRight, Nat.shiftRight_eq_div_pow]
    rfl
  unfold Remap.Inside
  dsimp only
  rw [hpfn]
  omega

/-- **A mapping stays inside exactly if it fits.** -/
theorem mmap_inside_iff (ioRemapPfnRange : Remap → Int) (k : Kyouko2) (ramSize : Nat)
    (allocated : Fin BUFFERS → Bool) (vma : Vma) :
    MmapInside ioRemapPfnRange k ramSize allocated vma ↔ MmapFits k ramSize allocated vma := by
  unfold MmapInside MmapFits kyouko2MmapFlag
  rw [kyouko2Mmap_eq]
  cases hs : selected k ramSize allocated (vma.vmPgoff <<< 12) with
  | none =>
    dsimp only
    rw [← mmapBase_eq_none hs, Option.map_eq_none_iff]
    refine and_iff_left_of_imp fun hb => ?_
    rw [hb]
    show (-1 : Int) < 0
    decide
  | some r =>
    obtain ⟨base, size⟩ := r
    dsimp only
    rw [mmapBase_of_selected hs, Option.map_some]
    constructor
    · intro h
      exact (inside_iff _ _ _ _).mp (h _ rfl)
    · rintro h _ ⟨⟩
      exact (inside_iff _ _ _ _).mpr h

end

def boundDriver : Kyouko2 :=
  (bindDma someAnswers ({ Kyouko2.zeroed with pControlBase := 0xF0000000 }, [])).1

/-- Two control BARs, asked for at the offset of the control BAR, and the first buffer,
asked for before there is one: the one mapping runs past the BAR, the other is of page 0. -/
theorem mmap_not_inside :
    ¬ MmapInside (fun _ => 0) boundDriver 0x1000000 (fun _ => true)
      ⟨0x40000000, 0x40020000, 0⟩ ∧
    kyouko2Mmap .zeroed ⟨0x40000000, 0x40001000, 1⟩ = some ⟨0x40000000, 0, 0x1000⟩ ∧
    ¬ MmapInside (fun _ => 0) .zeroed 0x1000000 (fun _ => false) ⟨0x40000000, 0x40001000, 1⟩ := by
  refine ⟨fun h => ?_, by decide, fun h => ?_⟩
  · have hin := h ⟨0x40000000, 0xF0000, 0x20000⟩ (by decide)
    exact absurd hin.2 (by decide)
  · have hnone : kyouko2Mmap .zeroed ⟨0x40000000, 0x40001000, 1⟩ = none := h.1
    cases hnone

end LinuxKerDev.Dma
