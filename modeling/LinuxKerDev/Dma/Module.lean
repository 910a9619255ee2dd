import LinuxKerDev.Lib.Run

/-!
# Loading and unloading the module (`dmaBuffer.c`)

`dmaBuffer_init`, `kyouko2_probe` and `dmaBuffer_exit`, with what their calls answer as an
input.  `Registry` is what the kernel has on record; every call is logged with the record
as it finds it.

`dmaBuffer_init` takes every answer of `pci_register_driver` up to 0 for a success, and
there is none above 0.  It gives nothing back when it fails, and `dmaBuffer_exit` leaves the
device enabled.  So there is little that can go right: `sound_iff`.
-/

namespace LinuxKerDev.Dma.Module

open Lib

/-! ### The kernel's record -/

/-- What the calls of one load answer, 0 or a negative errno.  `probed` are the devices that
`kyouko2_probe` is called for during the registration, which may still fail after that. -/
structure Answers where
  cdevAdd : Int
  registerDriver : Int
  probed : List Nat
  enableDevice : Int
  cdevAdd_le : cdevAdd ≤ 0
  registerDriver_le : registerDriver ≤ 0
  enableDevice_le : enableDevice ≤ 0
  deriving DecidableEq, Repr

inductive Call
  | cdevAdd (flag : Int)
  | cdevDel
  | pciRegisterDriver (probed : List Nat) (flag : Int)
  | pciUnregisterDriver
  | pciEnableDevice (dev : Option Nat) (flag : Int)
  | pciSetMaster (dev : Option Nat)
  deriving DecidableEq, Repr

/-- The registrations made and not given back.  `registered` is whether the driver of the
module that is loaded now is one of them, and `bound` are its devices. -/
structure Registry where
  cdevs : Nat
  drivers : Nat
  registered : Bool
  bound : List Nat
  enables : Nat → Nat

namespace Registry

def apply (k : Registry) : Call → Registry
  | .cdevAdd flag => if flag = 0 then { k with cdevs := k.cdevs + 1 } else k
  | .cdevDel => { k with cdevs := k.cdevs - 1 }
  | .pciRegisterDriver probed flag =>
    if flag = 0 then { k with drivers := k.drivers + 1, registered := true, bound := probed } else k
  | .pciUnregisterDriver =>
    if k.registered = true then
      { k with drivers := k.drivers - 1, registered := false, bound := [] }
    else k
  | .pciEnableDevice (some d) flag =>
    if flag = 0 then { k with enables := Function.update k.enables d (k.enables d + 1) } else k
  | .pciEnableDevice none _ => k
  | .pciSetMaster _ => k

/-- The driver of the module is registered, and this is one of its devices. -/
def Holds (k : Registry) (dev : Option Nat) : Prop :=
  k.registered = true ∧ ∃ d ∈ k.bound, dev = some d

structure Same (k k' : Registry) : Prop where
  cdevs : k'.cdevs = k.cdevs
  drivers : k'.drivers = k.drivers
  enables : k'.enables = k.enables

end Registry

structure Called where
  call : Call
  before : Registry

/-- `pci_enable_device` and `pci_set_master` come after a registration that has succeeded,
for a device that is bound. -/
def Called.Proper (e : Called) : Prop :=
  match e.call with
  | .pciEnableDevice dev _ | .pciSetMaster dev => e.before.Holds dev
  | _ => True

/-! ### The source -/

/-- The module while one of its functions runs.  `pPciDev` is `kyouko2.p_pci_dev`. -/
structure Running where
  registry : Registry
  pPciDev : Option Nat
  log : List Called

def Running.call (m : Running) (c : Call) : Running :=
  { m with registry := m.registry.apply c, log := m.log ++ [⟨c, m.registry⟩] }

def kyouko2Probe (m : Running) (dev : Nat) : Running := { m with pPciDev := some dev }

def dmaBufferInit (ans : Answers) (m : Running) : Running × Int :=
  let flag := ans.cdevAdd
  let m := m.call (.cdevAdd flag)
  if flag ≠ 0 then (m, flag)
  else
    let flag := ans.registerDriver
    let m := (ans.probed.foldl kyouko2Probe m).call (.pciRegisterDriver ans.probed flag)
    if flag ≤ 0 then
      let flag := ans.enableDevice
      let m := m.call (.pciEnableDevice m.pPciDev flag)
      if flag ≠ 0 then (m, flag)
      else (m.call (.pciSetMaster m.pPciDev), flag)
    else (m, flag)

def dmaBufferExit (m : Running) : Running := (m.call .pciUnregisterDriver).call .cdevDel

/-! ### Loads and unloads -/

structure State where
  registry : Registry
  pPciDev : Option Nat
  loaded : Bool

/-- `kept` is whether `kyouko2` still has what an earlier load has left there.  The image of
a module that is loaded anew is all zeros. -/
inductive Act
  | load (kept : Bool) (ans : Answers)
  | unload
  deriving DecidableEq, Repr

/-- The module before the first call of a load. -/
def State.entered (s : State) (kept : Bool) : Running where
  registry := { s.registry with registered := false, bound := [] }
  pPciDev := if kept = true then s.pPciDev else none
  log := []

/-- A load is refused while the module is there, and an unload while it is not.  A load
that returns anything but 0 leaves no module. -/
def step : Step State Act Called
  | s, .load kept ans =>
    if s.loaded = true then none
    else
      let (m, flag) := dmaBufferInit ans (s.entered kept)
      some (⟨m.registry, m.pPciDev, decide (flag = 0)⟩, m.log)
  | s, .unload =>
    if s.loaded = true then
      let m := dmaBufferExit ⟨s.registry, s.pPciDev, []⟩
      some (⟨m.registry, m.pPciDev, false⟩, m.log)
    else none

def boot (enables : Nat → Nat) : State := ⟨⟨0, 0, false, [], enables⟩, none, false⟩

structure Sound (s₀ : State) (as : List Act) (es : List Called) : Prop where
  proper : ∀ e ∈ es, e.Proper
  failed : AllSteps step s₀ (fun _ s b => ∀ kept ans s' es', b = .load kept ans →
    step s b = some (s', es') → s'.loaded = false →
      s'.registry.cdevs = 0 ∧ s'.registry.drivers = 0) as
  undone : ∀ p kept ans r, as = p ++ .load kept ans :: .unload :: r → ∀ es₁ s₁ es₂ s₂,
    Run step s₀ p es₁ s₁ → Run step s₁ [.load kept ans, .unload] es₂ s₂ →
      s₁.registry.Same s₂.registry

/-- The act is not an unload, and a load that gets past `cdev_add` has its driver
registered with a device bound, and the device enabled. -/
def Act.Clean : Act → Prop
  | .load _ ans => ans.cdevAdd = 0 → ans.registerDriver = 0 ∧ ans.probed ≠ [] ∧ ans.enableDevice = 0
  | .unload => False

/-! ### What one load does -/

/-- The module once the driver has been registered, or has not. -/
def Running.enrolled (m : Running) (ans : Answers) : Running :=
  (ans.probed.foldl kyouko2Probe (m.call (.cdevAdd ans.cdevAdd))).call
    (.pciRegisterDriver ans.probed ans.registerDriver)

def Running.asked (m : Running) (ans : Answers) : Running :=
  (m.enrolled ans).call (.pciEnableDevice (m.enrolled ans).pPciDev ans.enableDevice)

theorem foldl_kyouko2Probe (l : List Nat) (m : Running) :
    l.foldl kyouko2Probe m = { m with pPciDev := l.getLast?.or m.pPciDev } := by
  induction l generalizing m with
  | nil => rfl
  | cons d l ih =>
    rw [List.foldl_cons, ih, List.getLast?_cons]
    cases l.getLast? with
    | none => rfl
    | some d' => rfl

section

variable {m : Running} {ans : Answers}

theorem dmaBufferInit_refused (hadd : ans.cdevAdd ≠ 0) :
    dmaBufferInit ans m = (m.call (.cdevAdd ans.cdevAdd), ans.cdevAdd) := by
  simp only [dmaBufferInit, if_pos hadd]

theorem dmaBufferInit_failed (hadd : ans.cdevAdd = 0) (henable : ans.enableDevice ≠ 0) :
    dmaBufferInit ans m = (m.asked ans, ans.enableDevice) := by
  simp only [dmaBufferInit, if_neg (not_not_intro hadd), if_pos ans.registerDriver_le,
    if_pos henable]
  rfl

theorem dmaBufferInit_succeeded (hadd : ans.cdevAdd = 0) (henable : ans.enableDevice = 0) :
    dmaBufferInit ans m = ((m.asked ans).call (.pciSetMaster (m.asked ans).pPciDev), 0) := by
  simp only [dmaBufferInit, if_neg (not_not_intro hadd), if_pos ans.registerDriver_le,
    if_neg (not_not_intro henable)]
  rw [← henable]
  rfl

theorem enrolled_registry (hadd : ans.cdevAdd = 0) : (m.enrolled ans).registry =
    Registry.apply { m.registry with cdevs := m.registry.cdevs + 1 }
      (.pciRegisterDriver ans.probed ans.registerDriver) := by
  rw [Running.enrolled, foldl_kyouko2Probe, hadd]
  rfl

theorem enrolled_pPciDev : (m.enrolled ans).pPciDev = ans.probed.getLast?.or m.pPciDev := by
  rw [Running.enrolled, foldl_kyouko2Probe]
  rfl

/-- The device that is asked for is bound exactly if the registration has succeeded and
`probe` has been called in it. -/
theorem enrolled_holds_iff (hadd : ans.cdevAdd = 0) (hreg : m.registry.registered = false) :
    (m.enrolled ans).registry.Holds (m.enrolled ans).pPciDev ↔
      ans.registerDriver = 0 ∧ ans.probed ≠ [] := by
  rw [enrolled_registry hadd, enrolled_pPciDev, Registry.apply]
  by_cases hflag : ans.registerDriver = 0
  · rw [if_pos hflag, and_iff_right hflag]
    constructor
    · rintro ⟨-, d, hd, -⟩
      exact List.ne_nil_of_mem hd
    · intro hne
      refine ⟨rfl, ans.probed.getLast hne, List.getLast_mem hne, ?_⟩
      rw [List.getLast?_eq_some_getLast hne]
      rfl
  · rw [if_neg hflag]
    refine iff_of_false (fun h => ?_) fun h => hflag h.1
    exact Bool.false_ne_true (hreg.symm.trans h.1)

theorem Registry.apply_enable (k : Registry) (dev : Option Nat) (flag : Int) :
    ∃ n, k.apply (.pciEnableDevice dev flag) = { k with enables := n } := by
  cases dev with
  | none => exact ⟨_, rfl⟩
  | some d =>
    rw [Registry.apply]
    split
    · exact ⟨_, rfl⟩
    · exact ⟨_, rfl⟩

theorem asked_holds : (m.asked ans).registry.Holds (m.asked ans).pPciDev ↔
    (m.enrolled ans).registry.Holds (m.enrolled ans).pPciDev := by
  obtain ⟨n, happly⟩ := (m.enrolled ans).registry.apply_enable (m.enrolled ans).pPciDev
    ans.enableDevice
  show ((m.enrolled ans).registry.apply _).Holds (m.enrolled ans).pPciDev ↔ _
  rw [happly]
  exact Iff.rfl

theorem call_proper {c : Call} : (∀ e ∈ (m.call c).log, e.Proper) ↔
    (∀ e ∈ m.log, e.Proper) ∧ Called.Proper ⟨c, m.registry⟩ := by
  rw [Running.call, List.forall_mem_append, List.forall_mem_singleton]

theorem enrolled_proper (hlog : m.log = []) : ∀ e ∈ (m.enrolled ans).log, e.Proper := by
  rw [Running.enrolled, foldl_kyouko2Probe, call_proper]
  refine ⟨call_proper.mpr ⟨?_, trivial⟩, trivial⟩
  rw [hlog]
  exact List.forall_mem_nil _

/-- **The calls of a load are proper** exactly if it does not get past `cdev_add`, or its
driver is registered with a device bound. -/
theorem dmaBufferInit_proper (hlog : m.log = []) (hreg : m.registry.registered = false) :
    (∀ e ∈ (dmaBufferInit ans m).1.log, e.Proper) ↔
      (ans.cdevAdd = 0 → ans.registerDriver = 0 ∧ ans.probed ≠ []) := by
  by_cases hadd : ans.cdevAdd = 0
  · rw [forall_prop_of_true hadd, ← enrolled_holds_iff hadd hreg]
    have hasked : (∀ e ∈ (m.asked ans).log, e.Proper) ↔
        (m.enrolled ans).registry.Holds (m.enrolled ans).pPciDev :=
      call_proper.trans (and_iff_right (enrolled_proper hlog))
    by_cases henable : ans.enableDevice = 0
    · rw [dmaBufferInit_succeeded hadd henable, call_proper, hasked]
      exact and_iff_left_of_imp asked_holds.mpr
    · rw [dmaBufferInit_failed hadd henable]
      exact hasked
  · rw [dmaBufferInit_refused hadd, call_proper, hlog]
    exact iff_of_true ⟨List.forall_mem_nil _, trivial⟩ fun h => absurd h hadd

/-! ### Steps and runs -/

end

variable {s s' s₀ : State} {kept : Bool} {ans : Answers} {es es' : List Called} {as : List Act}

theorem step_load (hf : step s (.load kept ans) = some (s', es')) : s.loaded = false ∧
    s' = ⟨(dmaBufferInit ans (s.entered kept)).1.registry,
      (dmaBufferInit ans (s.entered kept)).1.pPciDev,
      decide ((dmaBufferInit ans (s.entered kept)).2 = 0)⟩ ∧
    es' = (dmaBufferInit ans (s.entered kept)).1.log := by
  rw [step, Option.ite_none_left_eq_some] at hf
  obtain ⟨rfl, rfl⟩ := Prod.mk.inj (Option.some.inj hf.2)
  exact ⟨Bool.eq_false_iff.mpr hf.1, rfl, rfl⟩

theorem step_unload (hf : step s .unload = some (s', es')) : s.loaded = true ∧
    s'.loaded = false ∧ s'.registry.enables = s.registry.enables ∧ ∀ e ∈ es', e.Proper := by
  rw [step, Option.ite_none_right_eq_some] at hf
  obtain ⟨rfl, rfl⟩ := Prod.mk.inj (Option.some.inj hf.2)
  refine ⟨hf.1, rfl, ?_, ?_⟩
  · show (Registry.apply s.registry .pciUnregisterDriver).enables = s.registry.enables
    rw [Registry.apply]
    split
    · rfl
    · rfl
  · exact call_proper.mpr ⟨call_proper.mpr ⟨List.forall_mem_nil _, trivial⟩, trivial⟩

theorem load_refused (hf : step s (.load kept ans) = some (s', es')) (hadd : ans.cdevAdd ≠ 0) :
    s'.loaded = false ∧ s'.registry = (s.entered kept).registry := by
  obtain ⟨-, rfl, -⟩ := step_load hf
  rw [dmaBufferInit_refused hadd]
  exact ⟨decide_eq_false hadd, if_neg hadd⟩

theorem asked_cdevs {m : Running} (hadd : ans.cdevAdd = 0) :
    (m.asked ans).registry.cdevs = m.registry.cdevs + 1 := by
  obtain ⟨n, happly⟩ := (m.enrolled ans).registry.apply_enable (m.enrolled ans).pPciDev
    ans.enableDevice
  show ((m.enrolled ans).registry.apply _).cdevs = _
  rw [happly]
  show (m.enrolled ans).registry.cdevs = _
  rw [enrolled_registry hadd, Registry.apply]
  split
  · rfl
  · rfl

/-- A load that fails after `cdev_add` leaves its cdev registered. -/
theorem load_failed (hf : step s (.load kept ans) = some (s', es')) (hadd : ans.cdevAdd = 0)
    (henable : ans.enableDevice ≠ 0) : s'.loaded = false ∧ 0 < s'.registry.cdevs := by
  obtain ⟨-, rfl, -⟩ := step_load hf
  rw [dmaBufferInit_failed hadd henable]
  refine ⟨decide_eq_false henable, ?_⟩
  show 0 < ((s.entered kept).asked ans).registry.cdevs
  rw [asked_cdevs hadd]
  exact Nat.succ_pos _

/-- A load that succeeds has enabled its device. -/
theorem load_succeeded (hf : step s (.load kept ans) = some (s', es')) (hadd : ans.cdevAdd = 0)
    (henable : ans.enableDevice = 0) : s'.loaded = true ∧
      ∀ d, ((s.entered kept).enrolled ans).pPciDev = some d →
        s'.registry.enables d = s.registry.enables d + 1 := by
  obtain ⟨-, rfl, -⟩ := step_load hf
  rw [dmaBufferInit_succeeded hadd henable]
  refine ⟨rfl, fun d hd => ?_⟩
  show (((s.entered kept).enrolled ans).registry.apply
    (.pciEnableDevice ((s.entered kept).enrolled ans).pPciDev ans.enableDevice)).enables d = _
  have hkept : ((s.entered kept).enrolled ans).registry.enables = s.registry.enables := by
    rw [enrolled_registry hadd, Registry.apply]
    split
    · rfl
    · rfl
  rw [hd, Registry.apply, if_pos henable, hkept]
  exact Function.update_self _ _ _

/-- A load that gets past `cdev_add` has its driver registered with a device bound. -/
def Act.Binds : Act → Prop
  | .load _ ans => ans.cdevAdd = 0 → ans.registerDriver = 0 ∧ ans.probed ≠ []
  | .unload => True

theorem step_proper {b : Act} (hf : step s b = some (s', es')) :
    (∀ e ∈ es', e.Proper) ↔ b.Binds := by
  cases b with
  | load kept ans =>
    obtain ⟨-, -, rfl⟩ := step_load hf
    exact dmaBufferInit_proper rfl rfl
  | unload => exact iff_of_true (step_unload hf).2.2.2 trivial

/-- **The calls of a run are proper** exactly if each of its loads that gets past `cdev_add`
has its driver registered with a device bound. -/
theorem proper_iff (hr : Run step s₀ as es s) : (∀ e ∈ es, e.Proper) ↔ ∀ b ∈ as, b.Binds := by
  induction hr with
  | nil => exact iff_of_true nofun nofun
  | snoc _ hf ih =>
    rw [List.forall_mem_append, List.forall_mem_append, ih, List.forall_mem_singleton,
      step_proper hf]

/-- A load with a device bound and an unload leave the device enabled once more. -/
theorem enables_of_unload {s₁ s₂ : State} {es₁ es₂ : List Called}
    (hload : step s (.load kept ans) = some (s₁, es₁)) (hbinds : (Act.load kept ans).Binds)
    (hunload : step s₁ .unload = some (s₂, es₂)) :
    s₂.registry.enables ≠ s.registry.enables := by
  obtain ⟨hl, -, hkept, -⟩ := step_unload hunload
  have hadd : ans.cdevAdd = 0 := by
    by_contra hne
    rw [(load_refused hload hne).1] at hl
    cases hl
  have henable : ans.enableDevice = 0 := by
    by_contra hne
    rw [(load_failed hload hadd hne).1] at hl
    cases hl
  obtain ⟨-, d, -, hd⟩ := (enrolled_holds_iff (m := s.entered kept) hadd rfl).mpr (hbinds hadd)
  intro heq
  have hmore := (load_succeeded hload hadd henable).2 d hd
  rw [← hkept, heq] at hmore
  omega

/-- In a run of clean acts nothing is registered while no module is loaded. -/
theorem unregistered_of_clean {enables : Nat → Nat} (hr : Run step (boot enables) as es s)
    (hall : ∀ b ∈ as, b.Clean) :
    s.loaded = false → s.registry.cdevs = 0 ∧ s.registry.drivers = 0 := by
  have hguard : AllSteps step (boot enables) (fun _ _ b => b.Clean) as := allSteps_of_forall hall
  refine hr.inv_of_guard (I := fun _ s => s.loaded = false →
    s.registry.cdevs = 0 ∧ s.registry.drivers = 0) hguard (fun _ => ⟨rfl, rfl⟩) ?_
  intro es s b s' es' hI hb hf hl
  cases b with
  | unload => exact hb.elim
  | load kept ans =>
    by_cases hadd : ans.cdevAdd = 0
    · have hloaded := (load_succeeded hf hadd (hb hadd).2.2).1
      rw [hl] at hloaded
      cases hloaded
    · rw [(load_refused hf hadd).2]
      exact hI (step_load hf).1

theorem Act.Clean.binds {b : Act} (hb : b.Clean) : b.Binds := by
  cases b with
  | load kept ans => exact fun hadd => ⟨(hb hadd).1, (hb hadd).2.1⟩
  | unload => exact trivial

theorem loaded_of_load {enables : Nat → Nat} (hr : Run step (boot enables) as es s)
    (hl : s.loaded = true) : ∃ p es₁ s₁ kept ans es₂, as = p ++ [.load kept ans] ∧
      Run step (boot enables) p es₁ s₁ ∧ step s₁ (.load kept ans) = some (s, es₂) := by
  cases hr with
  | nil => cases hl
  | @snoc p es₁ s₁ b _ es₂ hr hf =>
    cases b with
    | load kept ans => exact ⟨p, es₁, s₁, kept, ans, es₂, rfl, hr, hf⟩
    | unload =>
      rw [(step_unload hf).2.1] at hl
      cases hl

/-- **`dmaBuffer.c` loads and unloads as it should exactly if nothing goes wrong past
`cdev_add`, and nothing is ever unloaded.** -/
theorem sound_iff {enables : Nat → Nat} (hr : Run step (boot enables) as es s) :
    Sound (boot enables) as es ↔ ∀ b ∈ as, b.Clean := by
  constructor
  · intro hs
    have hbinds := (proper_iff hr).mp hs.proper
    intro b hb
    obtain ⟨p, r, rfl⟩ := List.append_of_mem hb
    obtain ⟨es₁, s₁, es₂, s₂, -, hr₁, hf, -⟩ := hr.split
    cases b with
    | load kept ans =>
      intro hadd
      obtain ⟨hreg, hprobed⟩ := hbinds _ hb hadd
      refine ⟨hreg, hprobed, ?_⟩
      by_contra henable
      obtain ⟨hl, hcdevs⟩ := load_failed hf hadd henable
      have hnone := (hs.failed p _ r rfl es₁ s₁ hr₁ kept ans s₂ es₂ rfl hf hl).1
      omega
    | unload =>
      -- the load before it has left its device enabled
      obtain ⟨p', es₁', s₁', kept, ans, es₂', rfl, hr', hload⟩ :=
        loaded_of_load hr₁ (step_unload hf).1
      have hsame := hs.undone p' kept ans r (by simp) _ s₁' _ s₂ hr' ((run_single hload).snoc hf)
      exact enables_of_unload hload (hbinds _ (by simp)) hf hsame.enables
  · intro hall
    refine ⟨(proper_iff hr).mpr fun b hb => (hall b hb).binds, ?_, ?_⟩
    · rintro p b r rfl es₁ s₁ hr₁ kept ans s₂ es₂ rfl hf hl
      refine unregistered_of_clean (hr₁.snoc hf) (fun b hb => hall b ?_) hl
      rcases List.mem_append.mp hb with hb | hb
      · exact List.mem_append_left _ hb
      · exact List.mem_append_right _ (List.mem_singleton.mp hb ▸ List.mem_cons_self)
    · rintro p kept ans r rfl
      exact absurd (hall .unload (by simp)) id

/-! ### Fixed inputs -/

def errnos (cdevAdd registerDriver : Nat) (probed : List Nat) (enableDevice : Nat) : Answers where
  cdevAdd := -cdevAdd
  registerDriver := -registerDriver
  probed := probed
  enableDevice := -enableDevice
  cdevAdd_le := by omega
  registerDriver_le := by omega
  enableDevice_le := by omega

/-- Device 3 is there, and no call fails. -/
theorem sound_iff_loaded : ∃ es s,
    Run step (boot fun _ => 0) [.load false (errnos 0 0 [3] 0)] es s ∧
      Sound (boot fun _ => 0) [.load false (errnos 0 0 [3] 0)] es := by
  obtain ⟨es, s, hr⟩ := exists_run_of_isSome step (boot fun _ => 0)
    [.load false (errnos 0 0 [3] 0)] rfl
  refine ⟨es, s, hr, (sound_iff hr).mpr fun b hb => ?_⟩
  rw [List.mem_singleton.mp hb]
  exact fun _ => ⟨rfl, by decide, rfl⟩

instance : DecidablePred Called.Proper
  | ⟨.pciEnableDevice dev _, k⟩ => inferInstanceAs
      (Decidable (k.registered = true ∧ ∃ d ∈ k.bound, dev = some d))
  | ⟨.pciSetMaster dev, k⟩ => inferInstanceAs
      (Decidable (k.registered = true ∧ ∃ d ∈ k.bound, dev = some d))
  | ⟨.cdevAdd _, _⟩ | ⟨.cdevDel, _⟩ | ⟨.pciRegisterDriver _ _, _⟩ | ⟨.pciUnregisterDriver, _⟩ =>
    inferInstanceAs (Decidable True)

/-- The registration fails; the device cannot be enabled; nothing fails, and the module is
unloaded. -/
theorem not_sound :
    (∃ es s, Run step (boot fun _ => 0) [.load false (errnos 0 19 [] 0)] es s ∧
      ¬ Sound (boot fun _ => 0) [.load false (errnos 0 19 [] 0)] es) ∧
    (∃ es s, Run step (boot fun _ => 0) [.load false (errnos 0 0 [3] 22)] es s ∧
      ¬ Sound (boot fun _ => 0) [.load false (errnos 0 0 [3] 22)] es) ∧
    ∃ es s, Run step (boot fun _ => 0) [.load false (errnos 0 0 [3] 0), .unload] es s ∧
      ¬ Sound (boot fun _ => 0) [.load false (errnos 0 0 [3] 0), .unload] es := by
  refine ⟨?_, ?_, ?_⟩
  · obtain ⟨es, s, hr, e, he, hbad⟩ := exists_run step (boot fun _ => 0)
      [.load false (errnos 0 19 [] 0)] (fun es _ => ∃ e ∈ es, ¬ e.Proper) (by decide)
    exact ⟨es, s, hr, fun hs => hbad (hs.proper e he)⟩
  · obtain ⟨es, s, hr, hl, hcdevs⟩ := exists_run step (boot fun _ => 0)
      [.load false (errnos 0 0 [3] 22)] (fun _ s => s.loaded = false ∧ s.registry.cdevs = 1)
      (by decide)
    refine ⟨es, s, hr, fun hs => ?_⟩
    obtain ⟨s₁, es₁, es₂, hf, hr₁⟩ := hr.head
    obtain ⟨-, rfl⟩ := hr₁.det .nil
    have hnone := (hs.failed [] _ [] rfl [] _ .nil _ _ s₁ es₁ rfl hf hl).1
    omega
  · obtain ⟨es, s, hr, hmore⟩ := exists_run step (boot fun _ => 0)
      [.load false (errnos 0 0 [3] 0), .unload] (fun _ s => s.registry.enables 3 = 1) (by decide)
    refine ⟨es, s, hr, fun hs => ?_⟩
    have hsame := (hs.undone [] _ _ [] rfl [] _ es s .nil hr).enables
    rw [hsame] at hmore
    cases hmore

end LinuxKerDev.Dma.Module
