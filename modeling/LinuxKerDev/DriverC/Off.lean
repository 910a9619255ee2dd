import LinuxKerDev.Dma.Launch
import LinuxKerDev.DriverC.Safe

/-!
# `VMODE` off waits for the ring

With `dma_mapped` set, `VMODE` off looks at the slots one after the other and stays
at each until it is empty.  The card empties them in the order of the ring, which may
start anywhere, so it is not the order that makes this right: no slot becomes full
again, as the only process is inside the call.  `Polled` is that invariant, and with the
invariants of the ring `vmode_off_drained` follows, for any session with one `BIND_DMA`.

`shown` is the step of a session with what it does to the ring.  A run goes through three
phases: nothing has been asked for (`Fresh`), the ring is the queue of what has been
asked for (`Going`), and the device has been released (`Gone`).
-/

namespace LinuxKerDev.DriverC

open Lib Dma
open Cards (Region)

/-! ### What a step does to the ring -/

namespace Session

/-- The action on the ring that a step of the session is. -/
def inner (s : Session) : Act → Option (Action Unit)
  | .call (.startDma n) => if s.dmaMapped = true then some (.startDma () n) else none
  | .run _ => if s.code = [] then some (.run ()) else none
  | .irq flags => if s.hooks = 0 then none else some (.irq flags)
  | _ => none

/-- A step, with what it does to the ring. -/
def shown (s : Session) (a : Act) : Option (Session × List (Event Unit)) :=
  (s.step a).map fun r => (r.1, ((s.inner a).bind fun b => Dma.step s.sys b).elim [] Prod.snd)

inductive Shown (s : Session) : Act → Session → List (Event Unit) → Prop
  | ring {a : Act} {b : Action Unit} {r : Sys Unit} {ev : List (Event Unit)}
      (hb : s.inner a = some b) (hs : StepCase s.sys b r ev)
      (hcode : s.code = [] ∨ ∃ flags, b = .irq flags)
      (hk : ∀ flags, b = .irq flags → s.hooks ≠ 0)
      (hm : ∀ n, b = .startDma () n → s.fileOpen = true ∧ s.dmaMapped = true) :
      Shown s a (s.setSys r) ev
  | opened (hc : s.code = []) (ho : s.fileOpen = false) :
      Shown s (.call .openDev)
        { s with fileOpen := true, code := Call.openDev.code s.dmaMapped } []
  | closed (hc : s.code = []) (ho : s.fileOpen = true) :
      Shown s (.call .release)
        { s with fileOpen := false, code := Call.release.code s.dmaMapped } []
  | refused {n : UInt32} (hm : s.dmaMapped = false) : Shown s (.call (.startDma n)) s []
  | began {c : Call} (hc : s.code = []) (ho : s.fileOpen = true) (h1 : c ≠ .openDev)
      (h2 : c ≠ .release) : Shown s (.call c) { s with code := c.code s.dmaMapped } []
  | instr {ans : Answer} {x : Instr} {rest : List Instr} {s' : Session}
      {es : List (LockOp Resource)} (hc : s.code = x :: rest)
      (hf : s.instr ans rest x = some (s', es)) : Shown s (.run ans) s' []
  | unnoticed {flags : UInt32} (hk : s.hooks = 0) :
      Shown s (.irq flags) { s with dev := s.dev.flush } []

variable {s s' : Session} {a : Act} {ev : List (Event Unit)}

theorem step_of_shown (hf : s.shown a = some (s', ev)) : ∃ es, s.step a = some (s', es) := by
  obtain ⟨r, hr, hf⟩ := Option.map_eq_some_iff.mp hf
  obtain ⟨rfl, -⟩ := Prod.mk.inj hf
  exact ⟨r.2, hr⟩

theorem shown_call {c : Call} (hf : s.shown (.call c) = some (s', ev)) : Shown s (.call c) s' ev := by
  obtain ⟨⟨s₁, es⟩, hr, hf⟩ := Option.map_eq_some_iff.mp hf
  obtain ⟨rfl, rfl⟩ := Prod.mk.inj hf
  obtain ⟨hc, -, he, -⟩ := step_call hr
  cases c with
  | startDma n =>
    rw [enter, Option.ite_none_right_eq_some] at he
    obtain ⟨ho, he⟩ := he
    by_cases hm : s.dmaMapped = true
    · rw [if_pos hm] at he
      obtain ⟨r, hr', rfl⟩ := Option.map_eq_some_iff.mp he
      have hb : s.inner (.call (.startDma n)) = some (.startDma () n) := if_pos hm
      rw [hb, Option.bind_some, hr']
      exact .ring hb (step_cases hr') (Or.inl hc) (fun _ hb => by cases hb) fun _ _ => ⟨ho, hm⟩
    · rw [if_neg hm] at he
      obtain rfl := Option.some.inj he
      rw [inner, if_neg hm]
      exact .refused (Bool.eq_false_iff.mpr hm)
  | openDev =>
    rw [enter, Option.ite_none_right_eq_some] at he
    obtain rfl := Option.some.inj he.2
    exact .opened hc he.1
  | release =>
    rw [enter, Option.ite_none_right_eq_some] at he
    obtain rfl := Option.some.inj he.2
    exact .closed hc he.1
  | _ =>
    simp only [enter, Option.ite_none_right_eq_some] at he
    obtain rfl := Option.some.inj he.2
    exact .began hc he.1 (by simp) (by simp)

/-- **Everything a step can do**, to the ring and around it. -/
theorem shown_cases (hf : s.shown a = some (s', ev)) : Shown s a s' ev := by
  cases a with
  | call c => exact shown_call hf
  | run ans =>
    obtain ⟨⟨s₁, es⟩, hr, hf⟩ := Option.map_eq_some_iff.mp hf
    obtain ⟨rfl, rfl⟩ := Prod.mk.inj hf
    cases hc : s.code with
    | nil =>
      rw [step, hc] at hr
      obtain ⟨r, hr', hr⟩ := Option.map_eq_some_iff.mp hr
      obtain ⟨rfl, rfl⟩ := Prod.mk.inj hr
      have hb : s.inner (.run ans) = some (.run ()) := if_pos hc
      rw [hb, Option.bind_some, hr']
      exact .ring hb (step_cases hr') (Or.inl hc) (fun _ hb => by cases hb) fun _ hb => by cases hb
    | cons x rest =>
      rw [inner, if_neg (by simp [hc])]
      exact .instr hc (step_run_cons hc hr)
  | irq flags =>
    obtain ⟨⟨s₁, es⟩, hr, hf⟩ := Option.map_eq_some_iff.mp hf
    obtain ⟨rfl, rfl⟩ := Prod.mk.inj hf
    by_cases hk : s.hooks = 0
    · obtain ⟨-, rfl⟩ := step_irq_unhooked hk hr
      rw [inner, if_pos hk]
      exact .unnoticed hk
    · rw [step, if_neg hk] at hr
      obtain ⟨r, hr', hr⟩ := Option.map_eq_some_iff.mp hr
      obtain ⟨rfl, rfl⟩ := Prod.mk.inj hr
      have hb : s.inner (.irq flags) = some (.irq flags) := if_neg hk
      rw [hb, Option.bind_some, hr']
      exact .ring hb (step_cases hr') (Or.inr ⟨flags, rfl⟩) (fun _ _ => hk) fun _ hb => by cases hb

end Session

/-! ### The three phases -/

/-- The instruction leaves the ring and the card alone. -/
def Instr.aside : Instr → Bool
  | writeReg reg _ => reg != .reboot
  | sync | testMapped | waitEmpty _ => true
  | _ => false

structure Fresh (s : Session) : Prop where
  full : ∀ i, (s.drv.dmaBuffer i).isFull = false
  fill : s.drv.fill = 0
  drain : s.drv.drain = 0
  busy : s.dev.busy = []
  started : s.dev.started = []
  idle : s.pc = .idle

/-- The ring is the queue of what has been asked for, the transfers are the first ones
asked for, and no instruction is about to touch either.  Where the handler is not hooked it
has not seen a transfer complete. -/
structure Going (hist : List (Event Unit)) (s : Session) (q : List UInt32) : Prop where
  ring : SoloRing hist s.sys q
  opened : s.fileOpen = true
  flag : s.dmaMapped = true
  aside : ∀ x ∈ s.code, x.aside = true
  launched : ∃ ans : BindAnswers, (∀ i, s.drv.dmaHandle i = ans.handle i) ∧
    s.dev.started <+: transfers ans (accepted hist)
  length : s.hooks ≠ 0 → s.dev.started.length = flushed hist + s.dev.busy.length
  unseen : s.hooks = 0 → flushed hist = 0

structure Gone (s : Session) : Prop where
  flag : s.fileOpen = true → s.dmaMapped = false
  code : .setMapped ∉ s.code

/-! ### Instructions -/

section

variable {s s' : Session} {ans : Answer} {x : Instr} {rest : List Instr}
  {es : List (LockOp Resource)}

theorem Session.instr_slots (hf : s.instr ans rest x = some (s', es)) :
    (∀ i, (s'.drv.dmaBuffer i).isFull = (s.drv.dmaBuffer i).isFull ∨
      (s'.drv.dmaBuffer i).isFull = false) ∧
    (s'.drv.fill = s.drv.fill ∨ s'.drv.fill = 0) ∧
    (s'.drv.drain = s.drv.drain ∨ s'.drv.drain = 0) ∧ s'.pc = s.pc := by
  cases x with
  | allocSlot j =>
    rw [Session.instr, Option.ite_none_right_eq_some] at hf
    obtain ⟨rfl, -⟩ := Prod.mk.inj (Option.some.inj hf.2)
    exact ⟨fun i => Or.inl (s.drv.allocSlot_isFull j i _ _), Or.inl rfl, Or.inl rfl, rfl⟩
  | clearCount j =>
    obtain ⟨rfl, -⟩ := Prod.mk.inj (Option.some.inj hf)
    exact ⟨fun i => Or.inl (s.drv.clearCount_isFull j i), Or.inl rfl, Or.inl rfl, rfl⟩
  | clearFull j =>
    obtain ⟨rfl, -⟩ := Prod.mk.inj (Option.some.inj hf)
    refine ⟨fun i => ?_, Or.inl rfl, Or.inl rfl, rfl⟩
    rw [Kyouko2.clearFull_isFull]
    by_cases hij : i = j
    · exact Or.inr (if_pos hij)
    · exact Or.inl (if_neg hij)
  | waitEmpty i =>
    rw [Session.instr] at hf
    split at hf <;> obtain ⟨rfl, -⟩ := Prod.mk.inj (Option.some.inj hf) <;>
      exact ⟨fun _ => Or.inl rfl, Or.inl rfl, Or.inl rfl, rfl⟩
  | ioremap r | iounmap r =>
    cases r <;> obtain ⟨rfl, -⟩ := Prod.mk.inj (Option.some.inj hf) <;>
      exact ⟨fun _ => Or.inl rfl, Or.inl rfl, Or.inl rfl, rfl⟩
  | resetFill =>
    obtain ⟨rfl, -⟩ := Prod.mk.inj (Option.some.inj hf)
    exact ⟨fun _ => Or.inl rfl, Or.inr rfl, Or.inl rfl, rfl⟩
  | resetDrain =>
    obtain ⟨rfl, -⟩ := Prod.mk.inj (Option.some.inj hf)
    exact ⟨fun _ => Or.inl rfl, Or.inl rfl, Or.inr rfl, rfl⟩
  | _ =>
    obtain ⟨rfl, -⟩ := Prod.mk.inj (Option.some.inj hf)
    exact ⟨fun _ => Or.inl rfl, Or.inl rfl, Or.inl rfl, rfl⟩

/-- Only an `iounmap` takes the control region away, and an `ioremap` brings it back. -/
theorem Session.instr_mapped (hx : x.frees = false) (hf : s.instr ans rest x = some (s', es))
    (hm : s.dev.mapped = true ∨ x = .ioremap .control) : s'.dev.mapped = true := by
  cases x with
  | allocSlot j =>
    rw [Session.instr, Option.ite_none_right_eq_some] at hf
    obtain ⟨rfl, -⟩ := Prod.mk.inj (Option.some.inj hf.2)
    exact hm.resolve_right (by simp)
  | waitEmpty i =>
    rw [Session.instr] at hf
    split at hf <;> obtain ⟨rfl, -⟩ := Prod.mk.inj (Option.some.inj hf) <;>
      exact hm.resolve_right (by simp)
  | writeReg reg value =>
    obtain ⟨rfl, -⟩ := Prod.mk.inj (Option.some.inj hf)
    exact (writeReg_mapped _ _ _).trans (hm.resolve_right (by simp))
  | ioremap r =>
    cases r with
    | control =>
      obtain ⟨rfl, -⟩ := Prod.mk.inj (Option.some.inj hf)
      rfl
    | ram =>
      obtain ⟨rfl, -⟩ := Prod.mk.inj (Option.some.inj hf)
      exact hm.resolve_right (by simp)
  | iounmap r | freeIrq | disableMsi | freeSlot i => cases hx
  | _ =>
    obtain ⟨rfl, -⟩ := Prod.mk.inj (Option.some.inj hf)
    exact hm.resolve_right (by simp)

theorem Session.instr_aside (hx : x.aside = true) (hf : s.instr ans rest x = some (s', es)) :
    s' = { s with code := s'.code } := by
  cases x with
  | writeReg reg value =>
    obtain ⟨rfl, -⟩ := Prod.mk.inj (Option.some.inj hf)
    have hreg : reg ≠ .reboot := by simpa [Instr.aside] using hx
    rw [writeReg, if_neg fun h => hreg h.2.1]
  | waitEmpty i =>
    rw [Session.instr] at hf
    split at hf <;> obtain ⟨rfl, -⟩ := Prod.mk.inj (Option.some.inj hf) <;> rfl
  | sync | testMapped =>
    obtain ⟨rfl, -⟩ := Prod.mk.inj (Option.some.inj hf)
    rfl
  | _ => cases hx

theorem Session.aside_next (hm : s.dmaMapped = true) (ha : ∀ x ∈ s.code, x.aside = true)
    (hc : s.code = x :: rest) (hf : s.instr ans rest x = some (s', es)) :
    ∀ x ∈ s'.code, x.aside = true := by
  have hrest : ∀ y ∈ rest, y.aside = true :=
    fun y hy => ha y (by rw [hc]; exact List.mem_cons_of_mem _ hy)
  cases Session.flow_of_instr hf with
  | next _ hcode _ _ _ => exact hcode ▸ hrest
  | wait => exact ha
  | test =>
    intro y hy
    rcases List.mem_append.mp hy with hy | hy
    · rw [hm] at hy
      have hoff : ∀ y ∈ offCode true, y.aside = true := by decide
      exact hoff y hy
    · exact hrest y hy

theorem Call.aside_code {c : Call} (h1 : c ≠ .openDev) (h2 : c ≠ .release) (h3 : c ≠ .bindDma)
    (b : Bool) : ∀ x ∈ c.code b, x.aside = true :=
  Call.forall_code h1 h2 h3 (by decide) (by decide) b

theorem isFull_of_irq {τ : Type*} [DecidableEq τ] {r r' : Sys τ} {flags : UInt32} {ev : List (Event τ)}
    (hs : StepCase r (.irq flags) r' ev) {i : Fin BUFFERS} (hi : (r.drv.dmaBuffer i).isFull = false) :
    (r'.drv.dmaBuffer i).isFull = false := by
  have hretire : (r.drv.retire.dmaBuffer i).isFull = false := by
    rw [Kyouko2.retire_dmaBuffer]
    split
    · rfl
    · exact hi
  cases hs with
  | spurious => exact hi
  | irqStray => exact hi
  | irqFull => exact hretire
  | irqMore => exact hretire
  | irqLast => exact hretire

end

/-! ### What the phases keep -/

variable {s s' : Session} {a : Act} {hist ev : List (Event Unit)} {q : List UInt32}
  {ans : Answer} {x : Instr} {rest : List Instr} {es : List (LockOp Resource)}

namespace Fresh

theorem loaded : Fresh .loaded where
  full _ := rfl
  fill := rfl
  drain := rfl
  busy := rfl
  started := rfl
  idle := rfl

theorem instr (h : Fresh s) (hf : s.instr ans rest x = some (s', es)) : Fresh s' := by
  obtain ⟨hfull, hfill, hdrain, hpc⟩ := Session.instr_slots hf
  obtain ⟨hstarted, hbusy⟩ := Session.instr_engine hf
  exact ⟨fun i => (hfull i).elim (fun he => he.trans (h.full i)) id,
    hfill.elim (fun he => he.trans h.fill) id, hdrain.elim (fun he => he.trans h.drain) id,
    hbusy h.busy, hstarted.trans h.started, hpc.trans h.idle⟩

/-- **The first call of `START_DMA`.** -/
theorem going (h : Fresh s) (hc : s.code = []) (hm : s.dev.mapped = true) (ho : s.fileOpen = true)
    (hfl : s.dmaMapped = true) : Going [] s [] where
  ring := by
    refine ⟨.empty h.fill h.drain h.full hm h.busy, fun n hn => ?_⟩
    have hpc : s.pc = .relock n := hn
    rw [h.idle] at hpc
    cases hpc
  opened := ho
  flag := hfl
  aside x hx := by rw [hc] at hx; cases hx
  launched := ⟨⟨fun _ => 0, s.drv.dmaHandle, fun _ => 0⟩, fun _ => rfl, h.started ▸ List.nil_prefix⟩
  length _ := by rw [h.started, h.busy]; rfl
  unseen _ := rfl

end Fresh

namespace Going

/-- **A step of the ring keeps it.** -/
theorem start (h : Going hist s q) {b : Action Unit} {r : Sys Unit} (hs : StepCase s.sys b r ev)
    (hcode : s.code = [] ∨ ∃ flags, b = .irq flags) (hk : ∀ flags, b = .irq flags → s.hooks ≠ 0) :
    ∃ q', Going (hist ++ ev) (s.setSys r) q' := by
  obtain ⟨q', -, hq'⟩ := h.ring.step hs
  obtain ⟨binds, hh, hpre⟩ := h.launched
  have hh' : ∀ i, r.drv.dmaHandle i = binds.handle i := fun i => by
    rw [hs.keeps.1]
    exact hh i
  by_cases h0 : s.hooks = 0
  · -- no interrupt, so only a first transfer can be started
    have hev : flushed ev = 0 := by
      rw [hs.flushed_eq]
      cases b with
      | irq flags => exact absurd h0 (hk flags rfl)
      | _ => rfl
    have hfl : flushed (hist ++ ev) = 0 := by rw [flushed_append, h.unseen h0, hev]
    refine ⟨q', hq', h.opened, h.flag, h.aside, ⟨binds, hh', ?_⟩,
      fun hne => absurd h0 hne, fun _ => hfl⟩
    have hpre' : s.dev.started <+: transfers binds (accepted (hist ++ ev)) := by
      rw [accepted_append]
      exact hpre.trans (transfers_append _ _ _)
    show r.dev.started <+: _
    cases h.ring.1.devStep hs with
    | same hst _ _ => exact hst ▸ hpre'
    | finish hst _ _ _ => exact hst ▸ hpre'
    | next hst _ _ he =>
      rw [hev] at he
      cases he
    | start hst hd hb _ =>
      have hnil : q = [] := by
        cases hs with
        | launch _ _ hfd hfull => exact h.ring.1.eq_nil hfd hfull
        | irqFull | irqStray | irqMore | irqLast | spurious => exact absurd h0 (hk _ rfl)
        | _ => exact absurd hst (by simp [Sys.setPc])
      have hlen : s.dev.started.length = 0 := by
        have hacc := h.ring.1.length_eq
        have hle := hpre.length_le
        rw [hnil, h.unseen h0] at hacc
        rw [transfers, List.length_mapIdx, hacc] at hle
        exact Nat.le_zero.mp hle
      have hne : q' ≠ [] := hq'.1.ne_nil (by
        show r.dev.busy ≠ []
        rw [hb]
        exact List.cons_ne_nil _ _)
      have hhead := hq'.1.head_transfer hne hh'
      rw [hfl, ← hlen] at hhead
      rw [hst]
      exact prefix_snoc hpre' hhead
  · have hl : LaunchInv binds hist s.sys := ⟨hpre, h.length h0⟩
    have hl' := hl.step h.ring.1 hs hq'.1 hh'
    exact ⟨q', hq', h.opened, h.flag, h.aside, ⟨binds, hh', hl'.started⟩,
      fun _ => hl'.length, fun hz => absurd hz h0⟩

/-- **An instruction keeps it.** -/
theorem instr (h : Going hist s q) (hc : s.code = x :: rest)
    (hf : s.instr ans rest x = some (s', es)) : Going hist s' q := by
  have haside := Session.aside_next h.flag h.aside hc hf
  have he := Session.instr_aside (h.aside x (by rw [hc]; exact List.mem_cons_self)) hf
  generalize s'.code = c at he haside
  subst he
  exact ⟨h.ring, h.opened, h.flag, haside, h.launched, h.length, h.unseen⟩

theorem began (h : Going hist s q) {c : Call} (h1 : c ≠ .openDev) (h2 : c ≠ .release)
    (h3 : c ≠ .bindDma) : Going hist { s with code := c.code s.dmaMapped } q :=
  ⟨h.ring, h.opened, h.flag, Call.aside_code h1 h2 h3 _, h.launched, h.length, h.unseen⟩

theorem unnoticed (h : Going hist s q) (hk : s.hooks = 0) :
    Going hist { s with dev := s.dev.flush } q :=
  ⟨⟨h.ring.1.unnoticed, h.ring.2⟩, h.opened, h.flag, h.aside, h.launched,
    fun hne => absurd hk hne, h.unseen⟩

end Going

theorem Gone.instr (h : Gone s) (hc : s.code = x :: rest)
    (hf : s.instr ans rest x = some (s', es)) : Gone s' := by
  have hrest : .setMapped ∉ rest := fun hin => h.code (hc ▸ List.mem_cons_of_mem _ hin)
  cases Session.flow_of_instr hf with
  | next _ hcode _ hfile hflag =>
    refine ⟨fun ho => ?_, hcode ▸ hrest⟩
    rw [hflag]
    by_cases hclr : x = .clearMapped
    · rw [hclr]
      rfl
    · have hset : x ≠ .setMapped := fun he => h.code (by simp [hc, he])
      rw [Instr.flag_eq hset hclr]
      exact h.flag (hfile ▸ ho)
  | wait => exact h
  | test =>
    have hoff : ∀ b, .setMapped ∉ offCode b := by decide
    exact ⟨h.flag, fun hin => (List.mem_append.mp hin).elim (hoff _) hrest⟩

/-- The phases, after `n` calls of `BIND_DMA`. -/
structure InPhase (n : Nat) (hist : List (Event Unit)) (s : Session) : Prop where
  shape : Shape s
  attached : s.fileOpen = true → s.dev.mapped = true ∨ .ioremap .control ∈ s.code
  phase : Fresh s ∧ hist = [] ∧ (Flagged s → 1 ≤ n) ∨
    1 ≤ n ∧ ((∃ q, Going hist s q) ∨ Gone s)

namespace InPhase

variable {n : Nat}

theorem loaded : InPhase 0 [] .loaded where
  shape := .loaded
  attached h := by cases h
  phase := Or.inl ⟨.loaded, rfl, fun h => by rcases h with h | h <;> cases h⟩

theorem ring (h : InPhase n hist s) {b : Action Unit} {r : Sys Unit} (hs : StepCase s.sys b r ev)
    (hcode : s.code = [] ∨ ∃ flags, b = .irq flags) (hk : ∀ flags, b = .irq flags → s.hooks ≠ 0)
    (hm : ∀ n, b = .startDma () n → s.fileOpen = true ∧ s.dmaMapped = true) :
    1 ≤ n ∧ ((∃ q, Going (hist ++ ev) (s.setSys r) q) ∨ Gone (s.setSys r)) ∨
      s.setSys r = s ∧ ev = [] := by
  rcases h.phase with ⟨hfresh, rfl, hn⟩ | ⟨hn, ⟨q, hq⟩ | hgone⟩
  · have hpc : s.sys.pc () = .idle := hfresh.idle
    rcases hs.of_quiet (fun _ => hpc) hfresh.busy with ⟨_, m, rfl⟩ | ⟨rfl, hev⟩
    · obtain ⟨ho, hfl⟩ := hm m rfl
      have hnil : s.code = [] := hcode.resolve_right (by simp)
      have hmapped : s.dev.mapped = true := (h.attached ho).resolve_right (by simp [hnil])
      obtain ⟨q', hq'⟩ := (hfresh.going hnil hmapped ho hfl).start hs (Or.inl hnil) hk
      exact Or.inl ⟨hn (Or.inl hfl), Or.inl ⟨q', hq'⟩⟩
    · exact Or.inr ⟨rfl, hev⟩
  · exact Or.inl ⟨hn, Or.inl (hq.start hs hcode hk)⟩
  · exact Or.inl ⟨hn, Or.inr ⟨hgone.flag, hgone.code⟩⟩

theorem attached_step (h : InPhase n hist s) (hf : s.shown a = some (s', ev))
    (ho : s'.fileOpen = true) : s'.dev.mapped = true ∨ .ioremap .control ∈ s'.code := by
  cases Session.shown_cases hf with
  | ring _ hs _ _ _ => exact (h.attached ho).imp_left hs.mapped.trans
  | opened _ _ => exact Or.inr (by simp [Call.code])
  | closed _ _ => cases ho
  | refused _ => exact h.attached ho
  | began hc ho' _ _ => exact Or.inl ((h.attached ho').resolve_right (by simp [hc]))
  | unnoticed _ => exact h.attached ho
  | @instr ans x rest s' es hc hi =>
    have hflow := Session.flow_of_instr hi
    have ho' : s.fileOpen = true := by
      cases hflow with
      | next _ _ _ hfile _ => exact hfile ▸ ho
      | wait => exact ho
      | test => exact ho
    have hfrees := ((h.shape.openTail ho').frees x (by simp [hc])).1
    have hin : s.dev.mapped = true ∨ x = .ioremap .control ∨ .ioremap .control ∈ rest := by
      have hatt := h.attached ho'
      rw [hc, List.mem_cons] at hatt
      exact hatt.imp_right (Or.imp_left Eq.symm)
    rcases hin with hm | hx | hrest
    · exact Or.inl (Session.instr_mapped hfrees hi (Or.inl hm))
    · exact Or.inl (Session.instr_mapped hfrees hi (Or.inr hx))
    · refine Or.inr ?_
      cases hflow with
      | next _ hcode _ _ _ => exact hcode ▸ hrest
      | wait => exact hc ▸ List.mem_cons_of_mem _ hrest
      | test => exact List.mem_append_right _ hrest

theorem step (h : InPhase n hist s) (hbind : a = .call .bindDma → n = 0)
    (hf : s.shown a = some (s', ev)) :
    InPhase (n + if a = .call .bindDma then 1 else 0) (hist ++ ev) s' := by
  obtain ⟨es, hstep⟩ := Session.step_of_shown hf
  have hflag := flagged_step h.shape hstep
  refine ⟨h.shape.step hstep, h.attached_step hf, ?_⟩
  have hn' : ∀ {k}, 1 ≤ n → 1 ≤ n + k := fun hn => Nat.le_add_right_of_le hn
  -- what a call that asks for nothing does to the three phases
  have hquiet : ev = [] → (Fresh s → Fresh s') → (∀ q, Going hist s q →
      (∃ q', Going hist s' q') ∨ Gone s') → (Gone s → Gone s') →
      (a = .call .bindDma → n = 0) →
      Fresh s' ∧ hist ++ ev = [] ∧ (Flagged s' → 1 ≤ n + if a = .call .bindDma then 1 else 0) ∨
        1 ≤ (n + if a = .call .bindDma then 1 else 0) ∧
          ((∃ q, Going (hist ++ ev) s' q) ∨ Gone s') := by
    rintro rfl hfr hgo hgn hb
    rw [List.append_nil]
    rcases h.phase with ⟨hfresh, hnil, hn⟩ | ⟨hn, ⟨q, hq⟩ | hgone⟩
    · refine Or.inl ⟨hfr hfresh, hnil, fun hfl => ?_⟩
      rcases hflag hfl with ha | ⟨-, hfl⟩
      · rw [if_pos ha]
        exact Nat.le_add_left 1 n
      · exact hn' (hn hfl)
    · exact Or.inr ⟨hn' hn, hgo q hq⟩
    · exact Or.inr ⟨hn' hn, Or.inr (hgn hgone)⟩
  cases Session.shown_cases hf with
  | ring hb hs hcode hk hm =>
    rcases h.ring hs hcode hk hm with ⟨hn, hph⟩ | ⟨he, rfl⟩
    · exact Or.inr ⟨hn' hn, hph⟩
    · exact hquiet rfl (fun hfr => he ▸ hfr) (fun q hq => Or.inl ⟨q, he ▸ hq⟩) (fun hg => he ▸ hg)
        hbind
  | opened hc ho =>
    refine hquiet rfl (fun hfr => ⟨hfr.full, hfr.fill, hfr.drain, hfr.busy, hfr.started, hfr.idle⟩)
      (fun q hq => ?_) (fun _ => ⟨fun _ => h.shape.clear ho hc, by simp [Call.code]⟩) hbind
    rw [hq.opened] at ho
    cases ho
  | closed hc ho =>
    have hcode : ∀ b, .setMapped ∉ Call.release.code b := by decide
    exact hquiet rfl (fun hfr => ⟨hfr.full, hfr.fill, hfr.drain, hfr.busy, hfr.started, hfr.idle⟩)
      (fun q _ => Or.inr ⟨fun ho' => (by cases ho'), hcode _⟩)
      (fun _ => ⟨fun ho' => (by cases ho'), hcode _⟩) hbind
  | refused _ => exact hquiet rfl id (fun q hq => Or.inl ⟨q, hq⟩) id hbind
  | @began c hc ho h1 h2 =>
    by_cases hcb : c = .bindDma
    · -- the only `BIND_DMA` comes before anything has been asked for
      have hn0 : n = 0 := hbind (congrArg Act.call hcb)
      have hfresh : Fresh s := by
        rcases h.phase with ⟨hfr, -⟩ | ⟨hn, -⟩
        · exact hfr
        · omega
      rcases h.phase with ⟨-, hnil, -⟩ | ⟨hn, -⟩
      · refine Or.inl ⟨⟨hfresh.full, hfresh.fill, hfresh.drain, hfresh.busy, hfresh.started,
          hfresh.idle⟩, by rw [hnil]; rfl, fun _ => ?_⟩
        rw [if_pos (congrArg Act.call hcb)]
        exact Nat.le_add_left 1 n
      · omega
    · have haside := Call.aside_code h1 h2 hcb s.dmaMapped
      exact hquiet rfl (fun hfr => ⟨hfr.full, hfr.fill, hfr.drain, hfr.busy, hfr.started, hfr.idle⟩)
        (fun q hq => Or.inl ⟨q, hq.began h1 h2 hcb⟩)
        (fun hg => ⟨hg.flag, fun hx => absurd (haside _ hx) (by simp [Instr.aside])⟩) hbind
  | instr hc hi =>
    exact hquiet rfl (fun hfr => hfr.instr hi)
      (fun q hq => Or.inl ⟨q, hq.instr hc hi⟩) (fun hg => hg.instr hc hi) hbind
  | unnoticed hk =>
    exact hquiet rfl (fun hfr => ⟨hfr.full, hfr.fill, hfr.drain, by rw [flush_busy, hfr.busy]; rfl,
        hfr.started, hfr.idle⟩)
      (fun q hq => Or.inl ⟨q, hq.unnoticed hk⟩) (fun hg => ⟨hg.flag, hg.code⟩) hbind

/-- **Every run goes through the phases**, if it calls `BIND_DMA` once at most. -/
theorem of_run {as : List Act} (h : Run Session.shown .loaded as hist s)
    (hone : as.count (.call .bindDma) ≤ 1) : InPhase (as.count (.call .bindDma)) hist s := by
  induction h with
  | nil => exact .loaded
  | @snoc as hist s a s' ev hr hf ih =>
    simp only [List.count_append, List.count_singleton, beq_iff_eq] at hone ⊢
    refine (ih (by omega)).step (fun ha => ?_) hf
    rw [if_pos ha] at hone
    omega

end InPhase

/-! ### `VMODE` off -/

structure Polled (s : Session) : Prop where
  idle : s.pc = .idle
  flag : s.dmaMapped = true
  aside : ∀ x ∈ s.code, x.aside = true
  looked : s.code = [.sync, .testMapped] ∨ s.code = [.testMapped] ∨
    ∀ i, .waitEmpty i ∈ s.code ∨ (s.drv.dmaBuffer i).isFull = false

namespace Polled

/-- **One instruction.**  It passes a slot that is empty. -/
theorem instr (h : Polled s) (hc : s.code = x :: rest)
    (hf : s.instr ans rest x = some (s', es)) : Polled s' := by
  have haside := Session.aside_next h.flag h.aside hc hf
  have he := Session.instr_aside (h.aside x (by rw [hc]; exact List.mem_cons_self)) hf
  suffices hl : s'.code = [.sync, .testMapped] ∨ s'.code = [.testMapped] ∨
      ∀ i, .waitEmpty i ∈ s'.code ∨ (s.drv.dmaBuffer i).isFull = false by
    generalize s'.code = c at he haside hl
    subst he
    exact ⟨h.idle, h.flag, haside, hl⟩
  cases Session.flow_of_instr hf with
  | next hx hcode _ _ _ =>
    rw [hcode]
    rcases h.looked with hl | hl | hl
    · rw [hc] at hl
      exact Or.inr (Or.inl (List.cons.inj hl).2)
    · rw [hc] at hl
      exact absurd (List.cons.inj hl).1 hx
    · refine Or.inr (Or.inr fun i => (hl i).elim (fun hin => ?_) Or.inr)
      rw [hc] at hin
      rcases List.mem_cons.mp hin with rfl | hin
      · -- the slot that is passed
        refine Or.inr (Bool.eq_false_iff.mpr fun hfull => ?_)
        rw [Session.instr, if_pos hfull] at hf
        obtain ⟨rfl, -⟩ := Prod.mk.inj (Option.some.inj hf)
        exact absurd (hc.symm.trans hcode) (List.cons_ne_self _ _)
      · exact Or.inl hin
  | wait => exact h.looked
  | test =>
    have hall : ∀ i, .waitEmpty i ∈ offCode true := by decide
    exact Or.inr (Or.inr fun i => Or.inl (List.mem_append_left _ (h.flag ▸ hall i)))

/-- **No slot becomes full again.** -/
theorem step (h : Polled s) (hno : ∀ c, a ≠ .call c) (hf : s.shown a = some (s', ev)) :
    Polled s' := by
  cases Session.shown_cases hf with
  | @ring a b r ev hb hs hcode hk hm =>
    cases a with
    | call c => exact absurd rfl (hno c)
    | run ans =>
      -- the process is not in `START_DMA`
      obtain ⟨-, rfl⟩ := Option.ite_some_none_eq_some.mp hb
      exact absurd h.idle hs.inside
    | irq flags =>
      obtain rfl := Option.some.inj (Option.ite_none_left_eq_some.mp hb).2
      exact ⟨hs.idle h.idle, h.flag, h.aside, h.looked.imp_right (Or.imp_right fun hl i =>
        (hl i).imp_right (isFull_of_irq hs))⟩
  | opened _ _ => exact absurd rfl (hno _)
  | closed _ _ => exact absurd rfl (hno _)
  | refused _ => exact absurd rfl (hno _)
  | began _ _ _ _ => exact absurd rfl (hno _)
  | instr hc hi => exact h.instr hc hi
  | unnoticed _ => exact ⟨h.idle, h.flag, h.aside, h.looked⟩

/-- The process does nothing else until it returns. -/
theorem run {bs : List Act} (h : Run Session.shown s bs ev s') (hp : Polled s)
    (hbs : ∀ c, .call c ∉ bs) : Polled s' := by
  induction h with
  | nil => exact hp
  | @snoc bs ev s₁ a s' ev' hr hf ih =>
    refine (ih fun c hin => hbs c (List.mem_append_left _ hin)).step (fun c hc => hbs c ?_) hf
    rw [hc]
    exact List.mem_append_right _ List.mem_cons_self

end Polled

theorem flagged_of_run {bs : List Act} (h : Run Session.shown s bs ev s') (hs : Shape s)
    (hbs : ∀ c, .call c ∉ bs) : Shape s' ∧ (Flagged s' → Flagged s) := by
  induction h with
  | nil => exact ⟨hs, id⟩
  | @snoc bs ev s₁ a s' ev' hr hf ih =>
    obtain ⟨hs₁, hfl₁⟩ := ih fun c hin => hbs c (List.mem_append_left _ hin)
    obtain ⟨es, hstep⟩ := Session.step_of_shown hf
    refine ⟨hs₁.step hstep, fun hfl => hfl₁ ?_⟩
    rcases flagged_step hs₁ hstep hfl with ha | ⟨-, hfl⟩
    · exact absurd (ha ▸ List.mem_append_right _ List.mem_cons_self) (hbs .bindDma)
    · exact hfl

/-- Every request has been launched and has completed, and the ring is empty. -/
structure Drained (hist : List (Event Unit)) (s : Session) : Prop where
  empty : ∀ i, (s.drv.dmaBuffer i).isFull = false
  fill_eq : s.drv.fill = s.drv.drain
  busy : s.dev.busy = []
  launched : s.dev.started.map Prod.snd = accepted hist
  completed : flushed hist = (accepted hist).length

/-- With every slot empty nothing is left of what has been asked for. -/
theorem Going.drained (h : Going hist s q) (he : ∀ i, (s.drv.dmaBuffer i).isFull = false) :
    Drained hist s := by
  have hq : q = [] := by
    by_contra hq
    have hfull : (s.drv.dmaBuffer s.drv.drain).isFull = true := h.ring.1.isFull_drain_iff.mpr hq
    rw [he] at hfull
    cases hfull
  subst hq
  have hlen : (accepted hist).length = flushed hist := h.ring.1.length_eq
  have hbusy : s.dev.busy = [] := h.ring.1.busy.resolve_right fun hb => hb.1 rfl
  obtain ⟨binds, -, hpre⟩ := h.launched
  have hmap : ∀ l, (transfers binds l).map Prod.snd = l := fun l => List.ext_getElem? fun i => by
    rw [List.getElem?_map, transfers_getElem?, Option.map_map]
    exact Option.map_id'
  have hstarted : s.dev.started = transfers binds (accepted hist) := by
    refine hpre.eq_of_length ?_
    rw [transfers, List.length_mapIdx, hlen]
    by_cases hk : s.hooks = 0
    · have hle := hpre.length_le
      rw [transfers, List.length_mapIdx, hlen, h.unseen hk] at hle
      rw [h.unseen hk]
      exact Nat.le_zero.mp hle
    · rw [h.length hk, hbusy]
      rfl
  exact ⟨he, h.ring.1.fill_eq_drain_iff.mpr (Or.inl rfl), hbusy, by rw [hstarted, hmap], hlen.symm⟩

/-- With `dma_mapped` set a `VMODE` off that has returned has passed every slot. -/
theorem drained_of_off {p bs : List Act}
    (h : Run Session.shown .loaded (p ++ .call (.vmode false) :: bs) hist s)
    (hone : p.count (.call .bindDma) ≤ 1) (hbs : ∀ c, .call c ∉ bs) (hret : s.code = [])
    (hm : s.dmaMapped = true) : Drained hist s := by
  have hcount : (p ++ .call (.vmode false) :: bs).count (.call .bindDma) =
      p.count (.call .bindDma) := by
    rw [List.count_append, List.count_cons, List.count_eq_zero_of_not_mem (hbs _)]
    rfl
  have hphase := InPhase.of_run h (hcount ▸ hone)
  obtain ⟨hist₁, s₁, ev₁, s₂, ev₂, hr, hcall, h⟩ := h.split
  obtain ⟨es, hstep⟩ := Session.step_of_shown hcall
  have hshape := (InPhase.of_run hr hone).shape.step hstep
  have hflag := (flagged_of_run h hshape hbs).2 (Or.inl hm)
  have hpolled : Polled s₂ := by
    cases Session.shown_cases hcall with
    | ring hb _ _ _ _ => cases hb
    | began _ _ _ _ =>
      have hm₁ : s₁.dmaMapped = true := hflag.resolve_right (by simp [Call.code])
      exact ⟨(Session.step_call hstep).2.1, hm₁,
        Call.aside_code (c := .vmode false) (by simp) (by simp) (by simp) s₁.dmaMapped,
        Or.inl rfl⟩
  have hp := hpolled.run h hbs
  have he : ∀ i, (s.drv.dmaBuffer i).isFull = false := by
    intro i
    rcases hp.looked with hl | hl | hl
    · rw [hret] at hl
      cases hl
    · rw [hret] at hl
      cases hl
    · exact (hl i).resolve_left (by rw [hret]; exact List.not_mem_nil)
  rcases hphase.phase with ⟨hfr, hnil, -⟩ | ⟨-, ⟨q, hq⟩ | hgone⟩
  · rw [hnil]
    exact ⟨he, hfr.fill.trans hfr.drain.symm, hfr.busy, by rw [hfr.started]; rfl, rfl⟩
  · exact hq.drained he
  · -- a closed file with the call at its end has the flag clear
    have hclear : s.dmaMapped = false := by
      by_cases ho : s.fileOpen = true
      · exact hgone.flag ho
      · exact hphase.shape.clear (Bool.eq_false_iff.mpr ho) hret
    rw [hm] at hclear
    cases hclear

theorem Session.shown_of_run {as : List Act} {rs : List (LockOp Resource)}
    (h : Run Session.step .loaded as rs s) : ∃ hist, Run Session.shown .loaded as hist s := by
  induction h with
  | nil => exact ⟨[], .nil⟩
  | @snoc as rs s a s' rs' hr hf ih =>
    obtain ⟨hist, hr'⟩ := ih
    have hshown : s.shown a = some (s', ((s.inner a).bind fun b => Dma.step s.sys b).elim [] Prod.snd) := by
      rw [Session.shown, hf]
      rfl
    exact ⟨_, hr'.snoc hshown⟩

/-- **A program that turns the graphics off before it closes the file frees the interrupt
with nothing in flight.**  It calls `BIND_DMA` once at most before that, and closes the file
once the `VMODE` has returned. -/
theorem unhooksIdle_of_off {p bs cs : List Act} (hone : p.count (.call .bindDma) ≤ 1)
    (hp : .call .release ∉ p) (hbs : ∀ c, .call c ∉ bs) (hcs : .call .release ∉ cs) :
    AllSteps Session.step .loaded UnhooksIdle
      ((p ++ .call (.vmode false) :: bs) ++ .call .release :: cs) := by
  refine unhooksIdle_of_releasesIdle fun p' a r he es s hr => ?_
  by_cases ha : a = .call .release
  · subst ha
    -- there is just the one `release`
    have hbefore : .call .release ∉ p ++ .call (.vmode false) :: bs := by simp [hp, hbs]
    obtain rfl : p ++ .call (.vmode false) :: bs = p' :=
      ((List.append_cons_inj_of_notMem hbefore hcs).mp he).1
    intro hret hm
    obtain ⟨hist, hr'⟩ := Session.shown_of_run hr
    exact (drained_of_off hr' hone hbs hret hm).busy
  · unfold ReleasesIdle
    split
    · exact absurd rfl ha
    · trivial

/-- **When `VMODE` off returns with `dma_mapped` set, every request has been launched and
has completed.**  One process calls whatever it likes, with one `BIND_DMA`; then it calls
`VMODE` off, and interrupts come anywhere between the steps of its loop, each handled at
once. -/
theorem vmode_off_drained {p bs : List Act}
    (h : Run Session.shown .loaded (p ++ .call (.vmode false) :: bs) hist s)
    (hone : p.count (.call .bindDma) ≤ 1) (hbs : ∀ c, .call c ∉ bs) (hret : s.code = [])
    (hm : s.dmaMapped = true) : Drained hist s :=
  drained_of_off h hone hbs hret hm

/-- A request completes and two more are made before `VMODE` off. -/
def beforeOff : List Act :=
  openActs ++ bindActs 0x100000 ++ (.call (.startDma 64) :: granted 0 2) ++
    (.irq 2 :: .call (.startDma 32) :: granted 0 2) ++ (.call (.startDma 16) :: granted 0 2)

/-- The first slot is passed at once, and the loop goes round at the second one. -/
def afterOff : List Act :=
  (granted 0 5).append (.irq 2 :: (granted 0 2).append (.irq 2 :: granted 0 6))

theorem vmode_off_drained_wrapped : ∃ hist s,
    Run Session.shown .loaded (beforeOff ++ .call (.vmode false) :: afterOff) hist s ∧
      accepted hist = [64, 32, 16] ∧ Drained hist s := by
  obtain ⟨hist, s, hr, hacc, hret, hm⟩ := exists_run Session.shown .loaded
    (beforeOff ++ .call (.vmode false) :: afterOff)
    (fun hist s => accepted hist = [64, 32, 16] ∧ s.code = [] ∧ s.dmaMapped = true)
    (by decide +kernel)
  have hcalls : ∀ c, .call c ∉ afterOff := by
    intro c hc
    simp [afterOff, granted] at hc
  exact ⟨hist, s, hr, hacc, vmode_off_drained hr (by decide +kernel) hcalls hret hm⟩

end LinuxKerDev.DriverC
