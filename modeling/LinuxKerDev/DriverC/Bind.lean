import LinuxKerDev.DriverC.Session

/-!
# A `BIND_DMA` whose steps fail

Every step of `BIND_DMA` may fail: each of the eight `pci_alloc_consistent` and of the
eight `do_mmap`, the `copy_to_user`, `pci_enable_msi` and `request_irq`.  Each failure is
printed and the next step is taken.  `dma_mapped` is set after the loop whatever has
become of it, and the only result that is returned is that of `request_irq`.

Here the call runs at once, with what its steps come to as an input.  `bindDma_of_run`
says that this is where the instructions of `DriverC/Session.lean` lead.
-/

namespace LinuxKerDev.DriverC

open Lib Dma

/-- What `BIND_DMA` acquires. -/
inductive Holding
  | buffer (i : Fin BUFFERS)
  | mapping (i : Fin BUFFERS)
  | msi
  | irq
  deriving DecidableEq, Repr

/-- What the steps of a `BIND_DMA` come to.  A buffer is zero where there is no memory, an
address is an error value where nothing is mapped, and the others are zero on success. -/
structure BindOutcome where
  buffer : Fin BUFFERS → UInt64
  handle : Fin BUFFERS → UInt64
  addr : Fin BUFFERS → UInt64
  notCopied : UInt64
  enableMsi : Int
  requestIrq : Int

/-- `IS_ERR_VALUE`: the last 4095 words. -/
def isErrValue (x : UInt64) : Bool := decide (2 ^ 64 - 4095 ≤ x.toNat)

/-- The step that acquires it succeeds. -/
def BindOutcome.gets (o : BindOutcome) : Holding → Prop
  | .buffer i => o.buffer i ≠ 0
  | .mapping i => isErrValue (o.addr i) = false
  | .msi => o.enableMsi = 0
  | .irq => o.requestIrq = 0

instance (o : BindOutcome) : DecidablePred o.gets
  | .buffer i => inferInstanceAs (Decidable (o.buffer i ≠ 0))
  | .mapping i => inferInstanceAs (Decidable (isErrValue (o.addr i) = false))
  | .msi => inferInstanceAs (Decidable (o.enableMsi = 0))
  | .irq => inferInstanceAs (Decidable (o.requestIrq = 0))

/-- The globals, with what is held, the address that the user has been told of and the
registers written. -/
structure Module where
  drv : Kyouko2
  dmaMapped : Bool
  held : List Holding
  told : Option UInt64
  writes : List (Reg × UInt32)

namespace Module

def acquire (o : BindOutcome) (m : Module) (h : Holding) : Module :=
  if o.gets h then { m with held := m.held ++ [h] } else m

def bindSlot (o : BindOutcome) (m : Module) (i : Fin BUFFERS) : Module :=
  let m := ({ m with drv := m.drv.allocSlot i (o.buffer i) (o.handle i) }).acquire o (.buffer i)
  -- a missing buffer is printed, and its offset is mapped all the same
  let m := ({ m with drv := m.drv.setUserVirtAddr i (o.addr i) }).acquire o (.mapping i)
  { m with drv := (m.drv.clearFull i).clearCount i }

/-- `BIND_DMA`, with what it returns. -/
def bindDma (o : BindOutcome) (m : Module) : Module × Int :=
  let m := (List.finRange BUFFERS).foldl (bindSlot o) m
  let m := { m with dmaMapped := true }
  let m := { m with told := if o.notCopied = 0 then some (m.drv.userVirtAddr 0) else none }
  let m := { m with drv := { m.drv with fill := 0, drain := 0 } }
  let m := m.acquire o .msi
  -- `result` is that of `pci_enable_msi` up to here
  let m := m.acquire o .irq
  ({ m with writes := m.writes ++ [(.interruptStatus, 0xFFFFFFFF), (.interrupt, 0x2)] },
    o.requestIrq)

/-- What a `START_DMA` returns at once. -/
def startDma (m : Module) : Option Int := if m.dmaMapped = false then some (-1) else none

def release (m : Module) : List Holding :=
  if m.dmaMapped = true then
    [.irq, .msi] ++ (List.finRange BUFFERS).flatMap fun i => [.mapping i, .buffer i]
  else []

/-! ### All or nothing -/

/-- Before the first `BIND_DMA`, and after a `release`. -/
structure Unbound (m : Module) : Prop where
  flag : m.dmaMapped = false
  held : m.held = []

/-- All eight buffers are there and mapped, the user knows the first, and the handler is
hooked. -/
structure BoundWhole (m : Module) : Prop where
  buffer : ∀ i, .buffer i ∈ m.held
  mapping : ∀ i, .mapping i ∈ m.held
  told : m.told = some (m.drv.userVirtAddr 0)
  irq : .irq ∈ m.held

/-- Nothing is bound that was not, a `START_DMA` is refused, and a `release` gives back
only what is held. -/
structure LeftUnbound (m m' : Module) : Prop where
  flag : m'.dmaMapped = m.dmaMapped
  held : m'.held = m.held
  refused : m'.startDma = some (-1)
  release : ∀ h ∈ m'.release, h ∈ m'.held

/-- Success means that all is bound; where not all is bound the call fails and has bound
nothing. -/
def AllOrNothing (m : Module) (r : Module × Int) : Prop :=
  (r.2 = 0 → BoundWhole r.1) ∧ (¬ BoundWhole r.1 → r.2 ≠ 0 ∧ LeftUnbound m r.1)

/-! ### What it holds afterwards -/

section

variable {o : BindOutcome} {m : Module} {h : Holding}

theorem mem_acquire {k : Holding} :
    h ∈ (m.acquire o k).held ↔ h ∈ m.held ∨ h = k ∧ o.gets k := by
  unfold acquire
  split
  · next hk => simp [hk]
  · next hk => simp [hk]

@[simp] theorem acquire_drv (k : Holding) : (m.acquire o k).drv = m.drv := by
  unfold acquire
  split <;> rfl

@[simp] theorem acquire_dmaMapped (k : Holding) : (m.acquire o k).dmaMapped = m.dmaMapped := by
  unfold acquire
  split <;> rfl

@[simp] theorem acquire_told (k : Holding) : (m.acquire o k).told = m.told := by
  unfold acquire
  split <;> rfl

theorem mem_bindSlot {i : Fin BUFFERS} : h ∈ (m.bindSlot o i).held ↔
    h ∈ m.held ∨ (h = .buffer i ∨ h = .mapping i) ∧ o.gets h := by
  show h ∈ (acquire o _ (.mapping i)).held ↔ _
  rw [mem_acquire]
  show h ∈ (acquire o _ (.buffer i)).held ∨ _ ↔ _
  rw [mem_acquire]
  constructor
  · rintro ((hm | ⟨rfl, hg⟩) | ⟨rfl, hg⟩)
    · exact Or.inl hm
    · exact Or.inr ⟨Or.inl rfl, hg⟩
    · exact Or.inr ⟨Or.inr rfl, hg⟩
  · rintro (hm | ⟨rfl | rfl, hg⟩)
    · exact Or.inl (Or.inl hm)
    · exact Or.inl (Or.inr ⟨rfl, hg⟩)
    · exact Or.inr ⟨rfl, hg⟩

theorem mem_bindLoop : ∀ {l : List (Fin BUFFERS)} {m : Module}, h ∈ (l.foldl (bindSlot o) m).held ↔
    h ∈ m.held ∨ (∃ i ∈ l, h = .buffer i ∨ h = .mapping i) ∧ o.gets h := by
  intro l
  induction l with
  | nil => simp
  | cons i l ih =>
    intro m
    rw [List.foldl_cons, ih, mem_bindSlot, List.exists_mem_cons_iff, or_assoc, ← or_and_right]

/-- **What `BIND_DMA` holds afterwards**: what it held, and what each step that has
succeeded has got. -/
theorem mem_bindDma : h ∈ (m.bindDma o).1.held ↔ h ∈ m.held ∨ o.gets h := by
  show h ∈ (acquire o (acquire o _ .msi) .irq).held ↔ _
  rw [mem_acquire, mem_acquire]
  show ((h ∈ ((List.finRange BUFFERS).foldl (bindSlot o) m).held ∨ _) ∨ _) ↔ _
  rw [mem_bindLoop]
  cases h with
  | buffer i => simp
  | mapping i => simp
  | msi => simp
  | irq => simp

theorem bindDma_dmaMapped : (m.bindDma o).1.dmaMapped = true := by
  show (acquire o (acquire o _ .msi) .irq).dmaMapped = true
  rw [acquire_dmaMapped, acquire_dmaMapped]

theorem bindDma_told : (m.bindDma o).1.told =
    if o.notCopied = 0 then some ((m.bindDma o).1.drv.userVirtAddr 0) else none := by
  show (acquire o (acquire o _ .msi) .irq).told =
    if _ then some ((acquire o (acquire o _ .msi) .irq).drv.userVirtAddr 0) else none
  simp only [acquire_told, acquire_drv]

/-- All is bound where every step but `pci_enable_msi` has succeeded. -/
theorem boundWhole_iff (hu : m.Unbound) : (m.bindDma o).1.BoundWhole ↔
    (∀ i, o.gets (.buffer i) ∧ o.gets (.mapping i)) ∧ o.notCopied = 0 ∧ o.gets .irq := by
  have hmem : ∀ h, h ∈ (m.bindDma o).1.held ↔ o.gets h := fun h => by
    rw [mem_bindDma, hu.held]
    exact or_iff_right List.not_mem_nil
  constructor
  · intro hw
    refine ⟨fun i => ⟨(hmem _).mp (hw.buffer i), (hmem _).mp (hw.mapping i)⟩, ?_,
      (hmem _).mp hw.irq⟩
    by_contra hn
    have htold := hw.told
    rw [bindDma_told, if_neg hn] at htold
    cases htold
  · rintro ⟨hall, hn, hirq⟩
    exact ⟨fun i => (hmem _).mpr (hall i).1, fun i => (hmem _).mpr (hall i).2,
      by rw [bindDma_told, if_pos hn], (hmem _).mpr hirq⟩

/-- What has been acquired is kept. -/
theorem not_allOrNothing (hu : m.Unbound) (hw : ¬ (m.bindDma o).1.BoundWhole) :
    ¬ AllOrNothing m (m.bindDma o) := by
  rintro ⟨-, hfail⟩
  have hflag := (hfail hw).2.flag
  rw [bindDma_dmaMapped, hu.flag] at hflag
  cases hflag

/-- **A `BIND_DMA` is all or nothing exactly if all of it succeeds.**  Where any step but
`pci_enable_msi` fails, what the others have acquired is kept, and `dma_mapped` is set. -/
theorem bindDma_all_or_nothing_iff (hu : m.Unbound) : AllOrNothing m (m.bindDma o) ↔
    (∀ i, o.gets (.buffer i) ∧ o.gets (.mapping i)) ∧ o.notCopied = 0 ∧ o.gets .irq := by
  rw [← boundWhole_iff hu]
  constructor
  · intro h
    by_contra hw
    exact not_allOrNothing hu hw h
  · intro hw
    exact ⟨fun _ => hw, fun hn => absurd hw hn⟩

/-- **The `release` after it gives back only what is held exactly if every step succeeds.** -/
theorem release_bindDma_iff (hu : m.Unbound) :
    (∀ h ∈ (m.bindDma o).1.release, h ∈ (m.bindDma o).1.held) ↔ ∀ h, o.gets h := by
  have hmem : ∀ h, h ∈ (m.bindDma o).1.held ↔ o.gets h := fun h => by
    rw [mem_bindDma, hu.held]
    exact or_iff_right List.not_mem_nil
  have hall : ∀ h, h ∈ (m.bindDma o).1.release := by
    intro h
    rw [release, if_pos bindDma_dmaMapped]
    cases h <;> simp
  simp only [hmem, hall, true_implies]

/-- A `START_DMA` is let through, whatever has failed. -/
theorem startDma_bindDma : (m.bindDma o).1.startDma = none :=
  if_neg (by rw [bindDma_dmaMapped]; simp)

end

def unbound : Module := ⟨.zeroed, false, [], none, []⟩

def granted : BindOutcome :=
  ⟨fun _ => 0xFFFF880000000000, fun i => UInt64.ofNat (0x100000 + i * 0x20000),
    fun i => UInt64.ofNat (0x40000000 + i * 0x20000), 0, 0, 0⟩

theorem bindDma_all_or_nothing_granted : AllOrNothing unbound (unbound.bindDma granted) :=
  (bindDma_all_or_nothing_iff ⟨rfl, rfl⟩).mpr (by decide)

/-- There is no memory for the third buffer: the call returns 0 and leaves a `START_DMA`
and a `release` to work on a buffer that is not there.  Where `request_irq` fails the call
returns an error, and leaves everything else acquired. -/
theorem bindDma_not_all_or_nothing :
    (unbound.bindDma { granted with buffer := fun i => if i = 2 then 0 else granted.buffer i }).2 = 0 ∧
    ¬ AllOrNothing unbound
      (unbound.bindDma { granted with buffer := fun i => if i = 2 then 0 else granted.buffer i }) ∧
    ¬ AllOrNothing unbound (unbound.bindDma { granted with requestIrq := -16 }) := by
  refine ⟨rfl, not_allOrNothing ⟨rfl, rfl⟩ fun hw => ?_, not_allOrNothing ⟨rfl, rfl⟩ fun hw => ?_⟩
  · exact absurd (((boundWhole_iff ⟨rfl, rfl⟩).mp hw).1 2).1 (by decide)
  · exact absurd ((boundWhole_iff ⟨rfl, rfl⟩).mp hw).2.2 (by decide)

end Module

/-! ### The same, instruction by instruction -/

def BindOutcome.roundActs (o : BindOutcome) (i : Fin BUFFERS) : List Act :=
  List.replicate 4 (.run ⟨o.buffer i, o.handle i, o.addr i, true⟩)

def BindOutcome.acts (o : BindOutcome) : List Act :=
  .call .bindDma :: ((List.finRange BUFFERS).flatMap o.roundActs).append
    (List.replicate 7 (.run ⟨0, 0, 0, decide (o.requestIrq = 0)⟩))

/-- The session is at what the module says. -/
structure Agrees (s : Session) (m : Module) : Prop where
  drv : s.drv = m.drv
  flag : s.dmaMapped = m.dmaMapped
  hooks : s.hooks = m.held.count .irq

variable {o : BindOutcome} {s s' : Session} {m : Module} {as : List Act}
  {es : List (LockOp Resource)} {ans : Answer} {x : Instr} {rest : List Instr}

theorem run_instr (h : Run Session.step s (.run ans :: as) es s') (hc : s.code = x :: rest) :
    ∃ s₁ es₁ es₂, s.instr ans rest x = some (s₁, es₁) ∧ Run Session.step s₁ as es₂ s' := by
  obtain ⟨s₁, es₁, es₂, hf, hr⟩ := h.head
  exact ⟨s₁, es₁, es₂, Session.step_run_cons hc hf, hr⟩

theorem Module.count_acquire {k : Holding} :
    (m.acquire o k).held.count .irq = m.held.count .irq + if k = .irq ∧ o.gets k then 1 else 0 := by
  unfold Module.acquire
  split
  · next hk => simp [List.count_singleton, hk]
  · next hk => simp [hk]

theorem Module.count_bindSlot (i : Fin BUFFERS) :
    (m.bindSlot o i).held.count .irq = m.held.count .irq := by
  show (acquire o _ (.mapping i)).held.count .irq = _
  rw [count_acquire]
  show (acquire o _ (.buffer i)).held.count .irq + _ = _
  rw [count_acquire]
  simp

/-- **A round of the loop.** -/
theorem Agrees.round {i : Fin BUFFERS} (h : Agrees s m) (hc : s.code = bindRound i ++ rest)
    (hr : Run Session.step s (o.roundActs i ++ as) es s') :
    ∃ s₁ es₁, Run Session.step s₁ as es₁ s' ∧ Agrees s₁ (m.bindSlot o i) ∧ s₁.code = rest := by
  have hc' : s.code = .allocSlot i :: .mapSlot i :: .clearFull i :: .clearCount i :: rest := hc
  obtain ⟨s₁, _, _, h₁, hr⟩ := run_instr hr hc'
  rw [Session.instr, Option.ite_none_right_eq_some] at h₁
  obtain ⟨rfl, -⟩ := Prod.mk.inj (Option.some.inj h₁.2)
  obtain ⟨s₂, _, _, h₂, hr⟩ := run_instr hr rfl
  obtain ⟨rfl, -⟩ := Prod.mk.inj (Option.some.inj h₂)
  obtain ⟨s₃, _, _, h₃, hr⟩ := run_instr hr rfl
  obtain ⟨rfl, -⟩ := Prod.mk.inj (Option.some.inj h₃)
  obtain ⟨s₄, _, es₄, h₄, hr⟩ := run_instr hr rfl
  obtain ⟨rfl, -⟩ := Prod.mk.inj (Option.some.inj h₄)
  refine ⟨_, es₄, hr, ⟨?_, ?_, ?_⟩, rfl⟩
  · simp [Module.bindSlot, h.drv]
  · simp [Module.bindSlot, h.flag]
  · rw [Module.count_bindSlot]
    exact h.hooks

theorem Agrees.loop : ∀ {l : List (Fin BUFFERS)} {s : Session} {m : Module}
    {es : List (LockOp Resource)},
    Agrees s m → s.code = l.flatMap bindRound ++ rest →
    Run Session.step s (l.flatMap o.roundActs ++ as) es s' →
    ∃ s₁ es₁, Run Session.step s₁ as es₁ s' ∧ Agrees s₁ (l.foldl (Module.bindSlot o) m) ∧
      s₁.code = rest := by
  intro l
  induction l with
  | nil => exact fun h hc hr => ⟨_, _, hr, h, hc⟩
  | cons i l ih =>
    intro s m es h hc hr
    rw [List.flatMap_cons, List.append_assoc] at hc hr
    obtain ⟨s₁, es₁, hr, h, hc⟩ := h.round hc hr
    exact ih h hc hr

/-- **The instructions lead where the call at once does.** -/
theorem bindDma_of_run (h : Agrees s m) (hr : Run Session.step s o.acts es s') :
    Agrees s' (m.bindDma o).1 ∧ s'.code = [] := by
  obtain ⟨s₁, _, es₁, hf, hr⟩ := hr.head
  obtain ⟨hc, hpc, he, -⟩ := Session.step_call hf
  simp only [Session.enter, Option.ite_none_right_eq_some] at he
  obtain rfl := Option.some.inj he.2
  obtain ⟨s₂, es₂, hr, h, hc⟩ := Agrees.loop (s := { s with code := bindCode }) (m := m)
    ⟨h.drv, h.flag, h.hooks⟩ rfl hr
  obtain ⟨s₃, _, _, h₃, hr⟩ := run_instr hr hc
  obtain ⟨rfl, -⟩ := Prod.mk.inj (Option.some.inj h₃)
  obtain ⟨s₄, _, _, h₄, hr⟩ := run_instr hr rfl
  obtain ⟨rfl, -⟩ := Prod.mk.inj (Option.some.inj h₄)
  obtain ⟨s₅, _, _, h₅, hr⟩ := run_instr hr rfl
  obtain ⟨rfl, -⟩ := Prod.mk.inj (Option.some.inj h₅)
  obtain ⟨s₆, _, _, h₆, hr⟩ := run_instr hr rfl
  obtain ⟨rfl, -⟩ := Prod.mk.inj (Option.some.inj h₆)
  obtain ⟨s₇, _, _, h₇, hr⟩ := run_instr hr rfl
  obtain ⟨rfl, -⟩ := Prod.mk.inj (Option.some.inj h₇)
  obtain ⟨s₈, _, _, h₈, hr⟩ := run_instr hr rfl
  obtain ⟨rfl, -⟩ := Prod.mk.inj (Option.some.inj h₈)
  obtain ⟨s₉, _, _, h₉, hr⟩ := run_instr hr rfl
  obtain ⟨rfl, -⟩ := Prod.mk.inj (Option.some.inj h₉)
  obtain ⟨-, rfl⟩ := Run.nil.det hr
  refine ⟨⟨?_, ?_, ?_⟩, rfl⟩
  · simp [Module.bindDma, h.drv]
  · exact Module.bindDma_dmaMapped.symm
  · show (if decide _ = true then s₂.hooks + 1 else s₂.hooks) = _
    show _ = (Module.acquire o (Module.acquire o _ .msi) .irq).held.count .irq
    rw [Module.count_acquire, Module.count_acquire, h.hooks]
    by_cases hi : o.requestIrq = 0
    · simp [hi, BindOutcome.gets]
    · simp [hi, BindOutcome.gets]

end LinuxKerDev.DriverC
