import LinuxKerDev.Cards.Card
import LinuxKerDev.Dma.Access

/-!
# `drawLineTriangle.c`

Its `open` starts with `K_READ_REG(0x20)`, before `ioremap_nocache` has set
`k_control_base`: the pointer is still `NULL`, or left over from the session
before.  The file has the constants and the `graphicsOn` sequence of
`dmaBuffer.c`, and no DMA.
-/

namespace LinuxKerDev.Cards

open Lib

inductive Ioctl
  | vmode (arg : UInt64)
  | sync
  | other
  deriving DecidableEq, Repr

def infoFifoDepth : UInt32 := 0x4004

/-- `sync` polls `InfoFifoDepth`; nothing else of this file runs meanwhile. -/
def sync : List Instr := [.readReg infoFifoDepth]

def graphicsOn : List Instr :=
  [.writeReg Dma.frameColumns 1024, .writeReg Dma.frameRows 768,
    .writeReg Dma.frameRowPitch (4 * 1024), .writeReg Dma.framePixelFormat 0xf888,
    .writeReg Dma.frameStartAddress 0, .writeReg Dma.encoderWidth 1024,
    .writeReg Dma.encoderHeight 768, .writeReg Dma.encoderOffsetX 0,
    .writeReg Dma.encoderOffsetY 0, .writeReg Dma.encoderFrame 0,
    .writeReg Dma.configAcceleration 0x40000000] ++ sync ++
  [.writeReg Dma.configModeset 1, .writeReg Dma.drawClearColorR 0x3E4CCCCD,
    .writeReg Dma.drawClearColorG 0x3E4CCCCD, .writeReg Dma.drawClearColorB 0x3E4CCCCD,
    .writeReg Dma.drawClearColorAlpha 0, .writeReg Dma.rasterFlush 1, .writeReg Dma.rasterClear 1]

def drawLineTriangle : Fops Ioctl where
  openCode := [.readReg 0x20, .ioremap .control, .ioremap .ram]
  ioctlCode
    | .vmode arg => if arg.toUInt32 = 1 then graphicsOn else sync ++ [.writeReg Dma.configReboot 1]
    | .sync => sync
    | .other => []
  releaseCode := [.writeReg 0x1000 1, .iounmap .control, .iounmap .ram]

section

variable {φ : Type*} {as : List (Act φ Ioctl)} {s : Card φ}

/-- Nothing is mapped, and a file that has been opened stands before its first
access. -/
structure Unmapped (as : List (Act φ Ioctl)) (s : Card φ) : Prop where
  base : s.base .control = none
  code : ∀ f, s.code f = drawLineTriangle.openCode ∨ s.code f = [] ∧ s.isOpen f = false ∧
    .openDev f ∉ as

theorem Unmapped.notLive (h : Unmapped as s) : ¬ s.Live .control := by
  intro hl
  rw [Card.Live, h.base] at hl
  exact hl

theorem Unmapped.code_ne_nil (h : Unmapped as s) {f : φ} (ho : s.isOpen f = true) :
    s.code f ≠ [] := by
  intro hc
  rcases h.code f with hop | ⟨-, hcl, -⟩
  · rw [hc] at hop
    cases hop
  · rw [ho] at hcl
    cases hcl

variable [DecidableEq φ] {es : List (LockOp Nat)}

/-- **One step of a run whose accesses all find a live mapping.** -/
theorem Unmapped.step (h : Unmapped as s) {a : Act φ Ioctl} (hl : Card.AccessLive es s a)
    {s' : Card φ} {es' : List (LockOp Nat)}
    (hf : Card.step drawLineTriangle s a = some (s', es')) : Unmapped (as ++ [a]) s' := by
  cases a with
  | openDev f =>
    obtain ⟨-, -, rfl, -⟩ := Card.step_openDev hf
    refine ⟨h.base, fun g => ?_⟩
    by_cases hg : g = f
    · subst hg
      exact Or.inl (Function.update_self _ _ _)
    · refine (h.code g).imp (fun hc => ?_) fun ⟨hc, ho, hno⟩ => ⟨?_, ?_, ?_⟩
      · exact (Function.update_of_ne hg _ _).trans hc
      · exact (Function.update_of_ne hg _ _).trans hc
      · exact (Function.update_of_ne hg _ _).trans ho
      · simp [hno, hg]
  | ioctl f i =>
    obtain ⟨hc, ho, -⟩ := Card.step_ioctl hf
    exact absurd hc (h.code_ne_nil ho)
  | release f =>
    obtain ⟨hc, ho, -⟩ := Card.step_release hf
    exact absurd hc (h.code_ne_nil ho)
  | run f =>
    obtain ⟨x, rest, hc, -⟩ := Card.step_run hf
    rcases h.code f with hop | ⟨hnil, -⟩
    · rw [Card.AccessLive, hop] at hl
      exact absurd hl h.notLive
    · rw [hc] at hnil
      cases hnil

theorem unmapped_of_live (h : Run (Card.step drawLineTriangle) .loaded as es s)
    (hl : AllSteps (Card.step drawLineTriangle) .loaded Card.AccessLive as) : Unmapped as s := by
  induction h with
  | nil => exact ⟨rfl, fun f => Or.inr ⟨rfl, rfl, List.not_mem_nil⟩⟩
  | snoc hr hf ih =>
    obtain ⟨hall, hlast⟩ := allSteps_snoc.mp hl
    exact (ih hall).step (hlast _ _ hr) hf

theorem live_of_unopened (hno : ∀ f, .openDev f ∉ as) :
    AllSteps (Card.step drawLineTriangle) (.loaded : Card φ) Card.AccessLive as := by
  have hne : ∀ a ∈ as, ∀ f, a ≠ .openDev f := fun a ha f he => hno f (he ▸ ha)
  refine allSteps_of_guard (I := fun _ s => ∀ f, s.code f = [] ∧ s.isOpen f = false)
    (allSteps_of_forall hne) (fun f => ⟨rfl, rfl⟩) ?_ ?_
  · intro es s a s' es' hi ha hf
    cases a with
    | openDev f => exact absurd rfl (ha f)
    | ioctl f i =>
      obtain ⟨-, ho, -⟩ := Card.step_ioctl hf
      rw [(hi f).2] at ho
      cases ho
    | release f =>
      obtain ⟨-, ho, -⟩ := Card.step_release hf
      rw [(hi f).2] at ho
      cases ho
    | run f =>
      obtain ⟨x, rest, hc, -⟩ := Card.step_run hf
      rw [(hi f).1] at hc
      cases hc
  · intro es s a hi _
    cases a with
    | run f =>
      rw [Card.AccessLive, (hi f).1]
      trivial
    | _ => trivial

/-- **`drawLineTriangle.c`: the accesses of a run of whole calls all find the
control region mapped exactly when no file has been opened.** -/
theorem accesses_live_iff_unopened (h : Run (Card.step drawLineTriangle) .loaded as es s)
    (hc : ∀ f, s.code f = []) :
    AllSteps (Card.step drawLineTriangle) .loaded Card.AccessLive as ↔
      ∀ f, .openDev f ∉ as := by
  constructor
  · intro hl f
    rcases (unmapped_of_live h hl).code f with hop | ⟨-, -, hno⟩
    · rw [hc f] at hop
      cases hop
    · exact hno
  · exact live_of_unopened

end

/-- **Register accesses and the mapping, in both files.**  In `dmaBuffer.c` they
all find the control region mapped as long as no file is closed, and in a run of
whole calls only then; in `drawLineTriangle.c` they do exactly when no file is
opened.  Any calls, over any number of sessions, with any interleaving with the
interrupts. -/
theorem accesses_mapped_iff {as : List Dma.Act} {es : List Dma.Mark} {s : Dma.Session}
    (h : Run Dma.Session.step .loaded as es s) {bs : List (Act Unit Ioctl)}
    {ops : List (LockOp Nat)} {t : Card Unit} (ht : Run (Card.step drawLineTriangle) .loaded bs ops t) :
    (.call .release ∉ as → AllSteps Dma.Session.step .loaded Dma.AccessMapped as) ∧
      (s.code = [] →
        (AllSteps Dma.Session.step .loaded Dma.AccessMapped as ↔ .call .release ∉ as)) ∧
      (t.code () = [] → (AllSteps (Card.step drawLineTriangle) .loaded Card.AccessLive bs ↔
        .openDev () ∉ bs)) := by
  refine ⟨fun hno => Dma.accesses_mapped_of_open h hno, fun hc => Dma.accesses_mapped_iff_open h hc,
    fun hc => ?_⟩
  rw [accesses_live_iff_unopened ht fun _ => hc]
  exact ⟨fun hno => hno (), fun hno _ => hno⟩

/-- `dmaBuffer.c` is opened and polled, the other device is left alone. -/
theorem accesses_mapped_iff_polled :
    AllSteps Dma.Session.step .loaded Dma.AccessMapped
        [.call .openDev, .call .sync, .run Dma.noAnswer] ∧
      AllSteps (Card.step drawLineTriangle) (.loaded : Card Unit) Card.AccessLive [] := by
  obtain ⟨es, s, hr, hc⟩ := exists_run Dma.Session.step .loaded
    [.call .openDev, .call .sync, .run Dma.noAnswer] (fun _ s => s.code = []) (by decide +kernel)
  have hall := accesses_mapped_iff hr
    (Run.nil : Run (Card.step drawLineTriangle) (.loaded : Card Unit) [] [] .loaded)
  exact ⟨(hall.2.1 hc).mpr (by decide), (hall.2.2 rfl).mpr List.not_mem_nil⟩

/-- A session of `dmaBuffer.c` with nothing but its `open` and `release`, up to
the second register write of the latter. -/
def openClose : List Dma.Act :=
  [.call .openDev, .call .release, .run Dma.noAnswer, .run Dma.noAnswer]

def openAlone : List (Act Unit Ioctl) := [.openDev (), .run (), .run (), .run ()]

theorem access_unmapped :
    ((exec Dma.Session.step .loaded openClose).isSome = true ∧
      ¬ AllSteps Dma.Session.step .loaded Dma.AccessMapped openClose) ∧
    (exec (Card.step drawLineTriangle) .loaded openAlone).isSome = true ∧
      ¬ AllSteps (Card.step drawLineTriangle) .loaded Card.AccessLive openAlone :=
  ⟨⟨by decide +kernel, not_allSteps_of_check (by decide +kernel)⟩, by decide +kernel,
    not_allSteps_of_check (by decide +kernel)⟩

end LinuxKerDev.Cards
