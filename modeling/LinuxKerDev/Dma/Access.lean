import LinuxKerDev.Dma.Rebind

/-!
# Register accesses and the mapping of the control region

`K_READ_REG`, `K_WRITE_REG` and `K_WRITE_REG_F` go through `k_control_base`,
which `open` sets and `release` leaves behind.  `Accesses` says which steps go
through it.  Before the first `release` they all find the region mapped; the
`release` itself writes `ConfigInterrupt` after its `iounmap`, so a run in which
a file has been closed has an access that does not (`accesses_mapped_iff`).
-/

namespace LinuxKerDev.Dma

open Lib

/-- The step reads or writes a register: `release` with its first instruction, an
instruction that does, a request that goes to the registers at once, and the
handler. -/
def Accesses (s : Session) : Act → Prop
  | .call c => c = .release
  | .run _ =>
    match s.code with
    | .writeReg _ _ :: _ => True
    | .sync :: _ => True
    | _ :: _ => False
    | [] => s.pc = .entered ∧ s.drv.size ≠ 0 ∧ s.drv.fill = s.drv.drain ∧
        (s.drv.dmaBuffer s.drv.fill).isFull = false
  | .irq _ => s.hooks ≠ 0
  | .lose => False

def AccessMapped (_ : List Mark) (s : Session) (a : Act) : Prop :=
  Accesses s a → s.dev.mapped = true

instance (s : Session) : DecidablePred (Accesses s)
  | .call c => inferInstanceAs (Decidable (c = .release))
  | .run _ => by
    unfold Accesses
    cases s.code with
    | nil =>
      exact inferInstanceAs (Decidable (s.pc = .entered ∧ s.drv.size ≠ 0 ∧
        s.drv.fill = s.drv.drain ∧ (s.drv.dmaBuffer s.drv.fill).isFull = false))
    | cons x r => cases x <;> infer_instance
  | .irq _ => inferInstanceAs (Decidable (s.hooks ≠ 0))
  | .lose => inferInstanceAs (Decidable False)

instance (es : List Mark) (s : Session) (a : Act) : Decidable (AccessMapped es s a) := by
  unfold AccessMapped
  infer_instance

variable {as : List Act} {es : List Mark} {s s' : Session}

/-! ### Before the first `release` -/

/-- Nothing has been opened, or the region is mapped and stays so. -/
def Attached (s : Session) : Prop :=
  (s.fileOpen = false ∧ s.code = [] ∧ s.pc = .idle ∧ s.hooks = 0) ∨
    s.dev.mapped = true ∧ ∀ x ∈ s.code, x.keeps = true

namespace Attached

/-- **A step other than `release` keeps it.** -/
theorem step (h : Attached s) {a : Act} (ha : a ≠ .call .release)
    (hf : s.step a = some (s', es)) : Attached s' := by
  cases a with
  | call c =>
    obtain ⟨hcode, -, -⟩ := Session.step_call hf
    have hrel : c ≠ .release := fun he => ha (congrArg Act.call he)
    have hmapped : c ≠ .openDev → s.dev.mapped = true := by
      intro hc
      rcases h with ⟨ho, -⟩ | ⟨hm, -⟩
      · rw [Session.fileOpen_of_call hc hf] at ho
        cases ho
      · exact hm
    cases c with
    | openDev =>
      obtain ⟨-, rfl⟩ := Session.step_openDev hf
      exact Or.inr ⟨rfl, fun x hx => by rw [hcode] at hx; cases hx⟩
    | release => exact absurd rfl hrel
    | startDma n =>
      obtain ⟨-, r, ev, hs, rfl⟩ := Session.step_startDma hf
      exact Or.inr ⟨hs.mapped.trans (hmapped (by simp)), fun x hx => by
        rw [show (s.setSys r).code = s.code from rfl, hcode] at hx
        cases hx⟩
    | bindDma | vmode _ | sync | flush | other =>
      obtain ⟨-, rfl⟩ := Session.step_ioctl (by simp) (by simp) (by simp) hf
      exact Or.inr ⟨hmapped (by simp), Call.keeps_code hrel⟩
  | run ans =>
    cases hc : s.code with
    | cons x rest =>
      rcases h with ⟨-, hnil, -⟩ | ⟨hm, hk⟩
      · rw [hnil] at hc
        cases hc
      · have hi := Session.step_run_cons hc hf
        have hx := hk x (by rw [hc]; exact List.mem_cons_self)
        refine Or.inr ⟨(Session.instr_keeps hx hi).trans hm, fun y hy => hk y ?_⟩
        rw [(Session.instr_code hi).1] at hy
        rw [hc]
        exact List.mem_cons_of_mem _ hy
    | nil =>
      obtain ⟨r, ev, hs, rfl⟩ := Session.step_run_nil hc hf
      rcases h with ⟨-, -, hpc, -⟩ | ⟨hm, hk⟩
      · exact absurd hpc hs.inside
      · exact Or.inr ⟨hs.mapped.trans hm, hk⟩
  | irq flags =>
    by_cases hk : s.hooks = 0
    · obtain rfl := Session.step_irq_unhooked hk hf
      exact h
    · obtain ⟨r, ev, hs, rfl⟩ := Session.step_irq_hooked hk hf
      rcases h with ⟨-, -, -, h0⟩ | ⟨hm, hcode⟩
      · exact absurd h0 hk
      · exact Or.inr ⟨hs.mapped.trans hm, hcode⟩
  | lose =>
    obtain ⟨rfl, -⟩ := Prod.mk.inj (Option.some.inj hf)
    exact h

theorem accessMapped (h : Attached s) {a : Act} (hf : (s.step a).isSome = true) :
    AccessMapped es s a := by
  intro ha
  rcases h with ⟨ho, hc, hpc, hk⟩ | ⟨hm, -⟩
  · exfalso
    obtain ⟨r, hf⟩ := Option.isSome_iff_exists.mp hf
    cases a with
    | call c =>
      obtain rfl : c = .release := ha
      rw [Session.fileOpen_of_call (by simp) hf] at ho
      cases ho
    | run ans =>
      rw [Accesses, hc] at ha
      rw [hpc] at ha
      cases ha.1
    | irq flags => exact ha hk
    | lose => exact ha
  · exact hm

end Attached

/-- **While no file has been closed, every access finds the region mapped.** -/
theorem accesses_mapped_of_open (h : Run Session.step .loaded as es s)
    (hno : .call .release ∉ as) : AllSteps Session.step .loaded AccessMapped as := by
  have hne : ∀ a ∈ as, a ≠ .call .release := fun a ha he => hno (he ▸ ha)
  have hg := allSteps_and.mpr ⟨allSteps_of_forall hne, h.allSteps_isSome⟩
  exact allSteps_of_guard (I := fun _ s => Attached s) hg (Or.inl ⟨rfl, rfl, rfl, rfl⟩)
    (fun hi hg hf => hi.step hg.1 hf) fun hi hg => hi.accessMapped hg.2

/-! ### The `release` -/

/-- A `release` that has not gone on to its second register write. -/
def Closing (s : Session) : Prop :=
  s.code = releaseCode ∨ s.dev.mapped = false ∧ s.code = releaseCode.tail

theorem Closing.step (h : Closing s) {a : Act} (hm : AccessMapped es s a) {es' : List Mark}
    (hf : s.step a = some (s', es')) : Closing s' := by
  have hne : s.code ≠ [] := by
    rcases h with hc | ⟨-, hc⟩ <;> rw [hc] <;> decide
  cases a with
  | call c => exact absurd (Session.step_call hf).1 hne
  | run ans =>
    rcases h with hc | ⟨hun, hc⟩
    · have hhead : s.code = .iounmap :: releaseCode.tail := hc
      have hi := Session.step_run_cons hhead hf
      obtain ⟨rfl, -⟩ := Prod.mk.inj (Option.some.inj hi)
      exact Or.inr ⟨rfl, rfl⟩
    · have hacc : Accesses s (.run ans) := by
        rw [Accesses, hc]
        trivial
      rw [hm hacc] at hun
      cases hun
  | irq flags =>
    by_cases hk : s.hooks = 0
    · obtain rfl := Session.step_irq_unhooked hk hf
      exact h
    · obtain ⟨r, ev, hs, rfl⟩ := Session.step_irq_hooked hk hf
      exact h.imp_right fun hc => ⟨hs.mapped.trans hc.1, hc.2⟩
  | lose =>
    obtain ⟨rfl, -⟩ := Prod.mk.inj (Option.some.inj hf)
    exact h

/-- Once a file has been closed a run whose accesses all find the region mapped is
still inside that `release`. -/
theorem closing_of_release (h : Run Session.step .loaded as es s)
    (hm : AllSteps Session.step .loaded AccessMapped as) (hrel : .call .release ∈ as) :
    Closing s := by
  induction h with
  | nil => cases hrel
  | @snoc as es s a s' es' hr hf ih =>
    obtain ⟨hall, hlast⟩ := allSteps_snoc.mp hm
    by_cases ha : a = .call .release
    · subst ha
      obtain ⟨-, rfl⟩ := Session.step_release hf
      exact Or.inl rfl
    · have hmem : .call .release ∈ as := by
        rcases List.mem_append.mp hrel with hin | hin
        · exact hin
        · exact absurd (List.mem_singleton.mp hin).symm ha
      exact (ih hall hmem).step (hlast _ _ hr) hf

/-- **`dmaBuffer.c`: the accesses of a run of whole calls all find the control
region mapped exactly when no file has been closed.** -/
theorem accesses_mapped_iff_open (h : Run Session.step .loaded as es s) (hc : s.code = []) :
    AllSteps Session.step .loaded AccessMapped as ↔ .call .release ∉ as := by
  constructor
  · intro hm hrel
    rcases closing_of_release h hm hrel with hcl | ⟨-, hcl⟩ <;> rw [hc] at hcl <;> cases hcl
  · exact accesses_mapped_of_open h

end LinuxKerDev.Dma
