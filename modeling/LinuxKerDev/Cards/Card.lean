import LinuxKerDev.Lib.Ledger
import LinuxKerDev.Lib.Run

/-!
# Drivers that keep their mappings in globals

`contactWithGraphicCard.c` and `drawLineTriangle.c` map the control region and
the card's memory in `open`, unmap both in `release`, and keep the two addresses
in the one file-level structure `kyouko2`, whoever opened the file.

`φ` are the open files; each runs its own calls, instruction by instruction, and
between any two of them another file may run.  Every `ioremap_nocache` makes a
new mapping, which gets a number of its own, and `iounmap` is given whatever the
pointer holds.  A run shows which mappings are made and which are passed to
`iounmap`.
-/

namespace LinuxKerDev.Cards

open Lib

inductive Region
  | control
  | ram
  deriving DecidableEq, Repr

inductive Instr
  | ioremap (r : Region)
  | readReg (reg : UInt32)
  | writeReg (reg value : UInt32)
  | iounmap (r : Region)
  deriving DecidableEq, Repr

/-- The file operations of a driver; `ι` are the `ioctl` requests. -/
structure Fops (ι : Type*) where
  openCode : List Instr
  ioctlCode : ι → List Instr
  releaseCode : List Instr

structure Card (φ : Type*) where
  base : Region → Option Nat
  live : List Nat
  made : Nat
  code : φ → List Instr
  isOpen : φ → Bool

inductive Act (φ ι : Type*)
  | openDev (f : φ)
  | ioctl (f : φ) (i : ι)
  | release (f : φ)
  | run (f : φ)
  deriving DecidableEq, Repr

namespace Card

variable {φ ι : Type*}

def loaded : Card φ where
  base _ := none
  live := []
  made := 0
  code _ := []
  isOpen _ := false

/-- The pointer leads into a mapping that is still there. -/
def Live (s : Card φ) (r : Region) : Prop :=
  match s.base r with
  | some m => m ∈ s.live
  | none => False

instance (s : Card φ) (r : Region) : Decidable (s.Live r) := by
  unfold Live
  split <;> infer_instance

/-- One instruction; a register access goes through `k_control_base` and leaves
the mappings alone. -/
def instr (s : Card φ) : Instr → Card φ × List (LockOp Nat)
  | .ioremap r =>
    ({ s with
      base := Function.update s.base r (some s.made)
      live := s.made :: s.live
      made := s.made + 1 }, [.acquire s.made])
  | .readReg _ => (s, [])
  | .writeReg _ _ => (s, [])
  | .iounmap r =>
    match s.base r with
    | some m => ({ s with live := s.live.erase m }, [.release m])
    | none => (s, [])

theorem instr_code (s : Card φ) (x : Instr) :
    (s.instr x).1.code = s.code ∧ (s.instr x).1.isOpen = s.isOpen := by
  cases x with
  | iounmap r =>
    rw [instr]
    split <;> exact ⟨rfl, rfl⟩
  | _ => exact ⟨rfl, rfl⟩

variable [DecidableEq φ]

def setCode (s : Card φ) (f : φ) (c : List Instr) : Card φ :=
  { s with code := Function.update s.code f c }

def setOpen (s : Card φ) (f : φ) (b : Bool) : Card φ :=
  { s with isOpen := Function.update s.isOpen f b }

def step (d : Fops ι) (s : Card φ) : Act φ ι → Option (Card φ × List (LockOp Nat))
  | .openDev f =>
    if s.code f = [] ∧ s.isOpen f = false then some ((s.setOpen f true).setCode f d.openCode, [])
    else none
  | .ioctl f i =>
    if s.code f = [] ∧ s.isOpen f = true then some (s.setCode f (d.ioctlCode i), []) else none
  | .release f =>
    if s.code f = [] ∧ s.isOpen f = true then
      some ((s.setOpen f false).setCode f d.releaseCode, [])
    else none
  | .run f =>
    match s.code f with
    | [] => none
    | x :: rest => some ((s.setCode f rest).instr x)

section

variable {d : Fops ι} {s s' : Card φ} {es : List (LockOp Nat)} {f : φ}

theorem step_openDev (h : step d s (.openDev f) = some (s', es)) :
    s.code f = [] ∧ s.isOpen f = false ∧ s' = (s.setOpen f true).setCode f d.openCode ∧ es = [] := by
  rw [step, Option.ite_none_right_eq_some] at h
  obtain ⟨⟨hc, ho⟩, h⟩ := h
  obtain ⟨rfl, rfl⟩ := Prod.mk.inj (Option.some.inj h)
  exact ⟨hc, ho, rfl, rfl⟩

theorem step_ioctl {i : ι} (h : step d s (.ioctl f i) = some (s', es)) :
    s.code f = [] ∧ s.isOpen f = true ∧ s' = s.setCode f (d.ioctlCode i) ∧ es = [] := by
  rw [step, Option.ite_none_right_eq_some] at h
  obtain ⟨⟨hc, ho⟩, h⟩ := h
  obtain ⟨rfl, rfl⟩ := Prod.mk.inj (Option.some.inj h)
  exact ⟨hc, ho, rfl, rfl⟩

theorem step_release (h : step d s (.release f) = some (s', es)) :
    s.code f = [] ∧ s.isOpen f = true ∧ s' = (s.setOpen f false).setCode f d.releaseCode ∧
      es = [] := by
  rw [step, Option.ite_none_right_eq_some] at h
  obtain ⟨⟨hc, ho⟩, h⟩ := h
  obtain ⟨rfl, rfl⟩ := Prod.mk.inj (Option.some.inj h)
  exact ⟨hc, ho, rfl, rfl⟩

theorem step_run (h : step d s (.run f : Act φ ι) = some (s', es)) :
    ∃ x rest, s.code f = x :: rest ∧ (s.setCode f rest).instr x = (s', es) := by
  rw [step] at h
  cases hc : s.code f with
  | nil =>
    rw [hc] at h
    cases h
  | cons x rest =>
    rw [hc] at h
    exact ⟨x, rest, rfl, Option.some.inj h⟩

end

/-- A register access goes through a control mapping that is still there. -/
def AccessLive (_ : List (LockOp Nat)) (s : Card φ) : Act φ ι → Prop
  | .run f =>
    match s.code f with
    | .readReg _ :: _ => s.Live .control
    | .writeReg _ _ :: _ => s.Live .control
    | _ => True
  | _ => True

instance (es : List (LockOp Nat)) (s : Card φ) (a : Act φ ι) : Decidable (AccessLive es s a) := by
  unfold AccessLive
  split
  · split <;> infer_instance
  · infer_instance

end Card

end LinuxKerDev.Cards
