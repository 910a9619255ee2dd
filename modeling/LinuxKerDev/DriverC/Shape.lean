import LinuxKerDev.DriverC.Session

/-!
# Where a session of `driver.c` can be

What is left of a call is the end of its code, so what the code says about the
instructions that follow one another (`OpenTail`, `CloseTail`) holds of every state.
`Shape` is what every run keeps: which code it is, and what `dma_mapped` says there.
No run is left out, whatever is called and however often.

The items are what a session acquires and gives back, each with its two
instructions.
-/

namespace LinuxKerDev.DriverC

open Lib Dma
open Cards (Region)

/-! ### Items -/

inductive Item
  | mapping (r : Region)
  | msi
  | irq
  | buffer (i : Fin BUFFERS)
  deriving DecidableEq, Repr

namespace Item

def acq : Item → Instr
  | mapping r => .ioremap r
  | msi => .enableMsi
  | irq => .requestIrq
  | buffer i => .allocSlot i

def rel : Item → Instr
  | mapping r => .iounmap r
  | msi => .disableMsi
  | irq => .freeIrq
  | buffer i => .freeSlot i

def resource (k : Kyouko2) : Item → Resource
  | mapping r => .mapping r
  | msi => .msi
  | irq => .irq
  | buffer i => .buffer (k.dmaBuffer i).buffer (k.dmaHandle i)

theorem acq_inj : ∀ {k k' : Item}, k.acq = k'.acq → k = k' := by
  intro k k' h
  cases k <;> cases k' <;> simp_all [acq]

theorem rel_inj : ∀ {k k' : Item}, k.rel = k'.rel → k = k' := by
  intro k k' h
  cases k <;> cases k' <;> simp_all [rel]

theorem rel_mem_release (k : Item) (b : Bool) :
    k.rel ∈ Call.release.code b ↔ b = true ∨ ∃ r, k = mapping r := by
  cases k with
  | mapping r => cases b <;> cases r <;> simp [rel, Call.code, unbindCode, unmapCode]
  | _ => cases b <;> simp [rel, Call.code, unbindCode, unmapCode]

/-- Only buffers share a kind of name. -/
theorem resource_inj {k : Kyouko2} {x y : Item} (hy : ∀ i, y ≠ buffer i)
    (h : x.resource k = y.resource k) : x = y := by
  cases x <;> cases y <;> simp_all [resource]

end Item

namespace Instr

def gets : Instr → Bool
  | ioremap _ | enableMsi | requestIrq | allocSlot _ => true
  | _ => false

/-- The instruction gives an item back. -/
def frees : Instr → Bool
  | iounmap _ | disableMsi | freeIrq | freeSlot _ => true
  | _ => false

def accesses : Instr → Bool
  | writeReg _ _ | sync => true
  | _ => false

theorem gets_acq (k : Item) : k.acq.gets = true := by cases k <;> rfl
theorem frees_rel (k : Item) : k.rel.frees = true := by cases k <;> rfl

end Instr

/-! ### The codes -/

def openCodes : List (List Instr) :=
  [[], Call.openDev.code false, graphicsOn, [.sync, .testMapped], [.sync], bindCode,
    [.writeReg .flush 0], offCode true, offCode false]

def closeCodes : List (List Instr) := [Call.release.code true, Call.release.code false]

@[mk_iff]
structure OpenTail (l : List Instr) : Prop where
  frees : ∀ x ∈ l, x.frees = false ∧ x ≠ .clearMapped
  once : ∀ x ∈ l.head?, (x.gets = true ∨ x = .setMapped) → x ∉ l.tail
  slot : ∀ i, .allocSlot i ∈ l → .setMapped ∈ l
  bound : .setMapped ∈ l → .enableMsi ∈ l
  hook : .enableMsi ∈ l → .requestIrq ∈ l
  opening : ∀ r, .ioremap r ∈ l → .requestIrq ∉ l ∧ ∀ x ∈ l.head?, x.accesses = false
  last : ∀ x ∈ l.head?, x = .testMapped → l.tail = []

@[mk_iff]
structure CloseTail (l : List Instr) : Prop where
  gets : ∀ x ∈ l, x.gets = false ∧ x ≠ .setMapped ∧ x ≠ .testMapped
  once : ∀ x ∈ l.head?, (x.frees = true ∨ x = .clearMapped) → x ∉ l.tail
  access : ∀ x ∈ l.head?, x.accesses = true → .iounmap .control ∈ l
  unhook : .freeIrq ∈ l → .iounmap .control ∈ l ∧ ∀ i, .freeSlot i ∈ l
  slot : ∀ i, .freeSlot i ∈ l → .clearMapped ∈ l

instance forallRegion (r : Region → Prop) [∀ x, Decidable (r x)] : Decidable (∀ x, r x) :=
  decidable_of_iff (r .control ∧ r .ram) ⟨fun h x => by cases x <;> [exact h.1; exact h.2],
    fun h => ⟨h _, h _⟩⟩

instance (l : List Instr) : Decidable (OpenTail l) := decidable_of_iff _ (openTail_iff l).symm

instance (l : List Instr) : Decidable (CloseTail l) := decidable_of_iff _ (closeTail_iff l).symm

theorem openTail_of_mem : ∀ c ∈ openCodes, ∀ l ∈ c.tails, OpenTail l := by decide +kernel

theorem closeTail_of_mem : ∀ c ∈ closeCodes, ∀ l ∈ c.tails, CloseTail l := by decide +kernel

theorem Call.code_mem {c : Call} (hc : c ≠ .release) (b : Bool) : c.code b ∈ openCodes := by
  cases c with
  | release => exact absurd rfl hc
  | vmode on => cases on <;> simp [Call.code, openCodes]
  | _ => simp [Call.code, openCodes]

theorem offCode_mem (b : Bool) : offCode b ∈ openCodes := by cases b <;> simp [openCodes]

theorem releaseCode_mem (b : Bool) : Call.release.code b ∈ closeCodes := by
  cases b <;> simp [closeCodes]

/-- What holds of these instructions holds of all that a call executes on an open file,
`BIND_DMA` apart. -/
theorem Call.forall_code {P : Instr → Prop} {c : Call} (h1 : c ≠ .openDev) (h2 : c ≠ .release)
    (h3 : c ≠ .bindDma) (hon : ∀ x ∈ graphicsOn, P x)
    (hrest : ∀ x ∈ [.sync, .testMapped, .writeReg .flush 0], P x) (b : Bool) :
    ∀ x ∈ c.code b, P x := by
  intro x hx
  cases c with
  | openDev => exact absurd rfl h1
  | release => exact absurd rfl h2
  | bindDma => exact absurd rfl h3
  | vmode on =>
    cases on with
    | true => exact hon x hx
    | false =>
      have hin : x ∈ [Instr.sync, .testMapped] := hx
      exact hrest x (List.mem_append_left _ hin)
  | sync =>
    obtain rfl := List.mem_singleton.mp (show x ∈ [Instr.sync] from hx)
    exact hrest _ List.mem_cons_self
  | flush =>
    have hin : x ∈ [Instr.writeReg .flush 0] := hx
    exact hrest x (List.mem_append_right [Instr.sync, Instr.testMapped] hin)
  | mmap | startDma _ | other => exact absurd hx List.not_mem_nil

theorem Call.code_quiet {c : Call} (h1 : c ≠ .openDev) (h2 : c ≠ .release) (h3 : c ≠ .bindDma)
    (b : Bool) : ∀ x ∈ c.code b, x.gets = false ∧ x.frees = false ∧ x ≠ .setMapped :=
  Call.forall_code h1 h2 h3 (by decide) (by decide) b

/-- A call on an open file maps nothing, and hooks nothing unless it sets the flag. -/
theorem Call.quiet_code {c : Call} (h1 : c ≠ .openDev) (h2 : c ≠ .release) (b : Bool) :
    (∀ r, .ioremap r ∉ c.code b) ∧ (.requestIrq ∈ c.code b → .setMapped ∈ c.code b) := by
  by_cases h3 : c = .bindDma
  · subst h3
    simp [Call.code, bindCode, bindRound]
  · have hquiet := Call.code_quiet h1 h2 h3 b
    refine ⟨fun r hr => ?_, fun hr => ?_⟩
    · cases (hquiet _ hr).1
    · cases (hquiet _ hr).1

/-! ### The shape of a session -/

def Instr.flag (b : Bool) : Instr → Bool
  | setMapped => true
  | clearMapped => false
  | _ => b

theorem Instr.flag_eq {x : Instr} (hs : x ≠ .setMapped) (hc : x ≠ .clearMapped) (b : Bool) :
    x.flag b = b := by
  cases x <;> first | rfl | contradiction

inductive Flow (s : Session) (rest : List Instr) : Instr → Session → Prop
  | next {x : Instr} {s' : Session} (hx : x ≠ .testMapped) (hcode : s'.code = rest)
      (hpc : s'.pc = s.pc) (hfile : s'.fileOpen = s.fileOpen)
      (hflag : s'.dmaMapped = x.flag s.dmaMapped) : Flow s rest x s'
  | wait {i : Fin BUFFERS} : Flow s rest (.waitEmpty i) s
  | test : Flow s rest .testMapped { s with code := offCode s.dmaMapped ++ rest }

namespace Session

variable {s s' : Session} {es : List (LockOp Resource)} {a : Act} {ans : Answer} {x : Instr}
  {rest : List Instr}

theorem flow_of_instr (hf : s.instr ans rest x = some (s', es)) : Flow s rest x s' := by
  cases x with
  | waitEmpty i =>
    rw [instr] at hf
    split at hf
    · obtain ⟨rfl, rfl⟩ := Prod.mk.inj (Option.some.inj hf)
      exact .wait
    · obtain ⟨rfl, rfl⟩ := Prod.mk.inj (Option.some.inj hf)
      exact .next (by simp) rfl rfl rfl rfl
  | testMapped =>
    obtain ⟨rfl, rfl⟩ := Prod.mk.inj (Option.some.inj hf)
    exact .test
  | allocSlot i =>
    rw [instr, Option.ite_none_right_eq_some] at hf
    obtain ⟨rfl, rfl⟩ := Prod.mk.inj (Option.some.inj hf.2)
    exact .next (by simp) rfl rfl rfl rfl
  | ioremap r | iounmap r =>
    cases r <;> obtain ⟨rfl, rfl⟩ := Prod.mk.inj (Option.some.inj hf) <;>
      exact .next (by simp) rfl rfl rfl rfl
  | _ =>
    obtain ⟨rfl, rfl⟩ := Prod.mk.inj (Option.some.inj hf)
    exact .next (by simp) rfl rfl rfl rfl

def Bound (s : Session) : Prop := s.fileOpen = true ∧ (s.dmaMapped = true ∨ .setMapped ∈ s.code)

end Session

/-- **What every run keeps**: what is left of a call is the end of its code, and the
flag is set where the code says so. -/
structure Shape (s : Session) : Prop where
  opened : s.fileOpen = true → ∃ c ∈ openCodes, s.code <:+ c
  closed : s.fileOpen = false → ∃ c ∈ closeCodes, s.code <:+ c
  clearing : s.fileOpen = false → (s.dmaMapped = true ↔ .clearMapped ∈ s.code)
  opening : ∀ r, .ioremap r ∈ s.code → s.dmaMapped = false
  binding : .requestIrq ∈ s.code → .setMapped ∈ s.code ∨ s.dmaMapped = true
  inside : s.pc ≠ .idle → s.code = [] ∧ s.fileOpen = true ∧ s.dmaMapped = true

namespace Shape

variable {s s' : Session} {es : List (LockOp Resource)} {a : Act}

theorem loaded : Shape .loaded where
  opened h := by cases h
  closed _ := ⟨_, releaseCode_mem false, List.nil_suffix⟩
  clearing _ := by decide
  opening r h := absurd h List.not_mem_nil
  binding h := absurd h List.not_mem_nil
  inside h := absurd rfl h

theorem openTail (h : Shape s) (ho : s.fileOpen = true) : OpenTail s.code := by
  obtain ⟨c, hc, hs⟩ := h.opened ho
  exact openTail_of_mem c hc _ ((List.mem_tails _ _).mpr hs)

theorem closeTail (h : Shape s) (ho : s.fileOpen = false) : CloseTail s.code := by
  obtain ⟨c, hc, hs⟩ := h.closed ho
  exact closeTail_of_mem c hc _ ((List.mem_tails _ _).mpr hs)

theorem clear (h : Shape s) (ho : s.fileOpen = false) (hc : s.code = []) :
    s.dmaMapped = false := by
  have hiff := h.clearing ho
  rw [hc] at hiff
  exact Bool.eq_false_iff.mpr fun hm => List.not_mem_nil (hiff.mp hm)

theorem setSys (h : Shape s) {r : Sys Unit}
    (hpc : r.pc () ≠ .idle → s.code = [] ∧ s.fileOpen = true ∧ s.dmaMapped = true) :
    Shape (s.setSys r) :=
  ⟨h.opened, h.closed, h.clearing, h.opening, h.binding, hpc⟩

theorem call (h : Shape s) {c : Call} (hf : s.step (.call c) = some (s', es)) : Shape s' := by
  obtain ⟨hcode, hpc, he, -⟩ := Session.step_call hf
  have hin : s.pc ≠ .idle → False := fun hn => hn hpc
  cases Session.entered_of_enter he with
  | opened ho =>
    refine ⟨fun _ => ⟨_, Call.code_mem (c := .openDev) nofun s.dmaMapped, List.suffix_rfl⟩,
      nofun, nofun, fun _ _ => h.clear ho hcode, fun hr => ?_, fun hn => (hin hn).elim⟩
    simp [Call.code] at hr
  | closed ho =>
    have ht : CloseTail (Call.release.code s.dmaMapped) :=
      closeTail_of_mem _ (releaseCode_mem _) _ ((List.mem_tails _ _).mpr List.suffix_rfl)
    refine ⟨nofun, fun _ => ⟨_, releaseCode_mem _, List.suffix_rfl⟩, fun _ => ?_,
      fun r hr => ?_, fun hr => ?_, fun hn => (hin hn).elim⟩
    · show s.dmaMapped = true ↔ _ ∈ Call.release.code s.dmaMapped
      cases s.dmaMapped <;> decide
    · exact absurd (ht.gets _ hr).1 (by simp [Instr.gets])
    · exact absurd (ht.gets _ hr).1 (by simp [Instr.gets])
  | refused _ _ => exact h
  | submitted ho hm hs => exact h.setSys fun _ => ⟨hcode, ho, hm⟩
  | began ho h1 h2 h3 =>
    have hclosed : s.fileOpen = false → False := fun hn => by
      rw [ho] at hn
      cases hn
    have hcode := Call.quiet_code h1 h2 s.dmaMapped
    exact ⟨fun _ => ⟨_, Call.code_mem h2 _, List.suffix_rfl⟩, fun hn => (hclosed hn).elim,
      fun hn => (hclosed hn).elim, fun r hr => absurd hr (hcode.1 r), fun hr => Or.inl (hcode.2 hr),
      fun hn => (hin hn).elim⟩

theorem next_open (h : Shape s) (ho : s.fileOpen = true) {x : Instr} {rest : List Instr}
    (hc : s.code = x :: rest) (hcode : s'.code = rest) (hpc : s'.pc = s.pc)
    (hfile : s'.fileOpen = s.fileOpen) (hflag : s'.dmaMapped = x.flag s.dmaMapped) : Shape s' := by
  have ht := h.openTail ho
  have hmem : ∀ {y}, y ∈ s'.code → y ∈ s.code := fun hy => by
    rw [hc]
    exact List.mem_cons_of_mem _ (hcode ▸ hy)
  have hx := (ht.frees x (by simp [hc])).2
  have ho' : s'.fileOpen = false → False := fun hn => by
    rw [hfile, ho] at hn
    cases hn
  refine ⟨fun _ => ?_, fun hn => (ho' hn).elim, fun hn => (ho' hn).elim, fun r hr => ?_,
    fun hr => ?_, fun hn => ?_⟩
  · obtain ⟨c, hcm, hs⟩ := h.opened ho
    rw [hc] at hs
    exact ⟨c, hcm, hcode ▸ (List.suffix_cons x rest).trans hs⟩
  · have hns : x ≠ .setMapped := fun hset =>
      (ht.opening r (hmem hr)).1 (ht.hook (ht.bound (by simp [hc, hset])))
    rw [hflag, Instr.flag_eq hns hx]
    exact h.opening r (hmem hr)
  · by_cases hset : x = .setMapped
    · exact Or.inr (by rw [hflag, hset]; rfl)
    · rw [hflag, Instr.flag_eq hset hx, hcode]
      refine (h.binding (hmem hr)).imp_left fun hin => ?_
      rw [hc] at hin
      exact List.mem_of_ne_of_mem (Ne.symm hset) hin
  · have hnil := (h.inside (hpc ▸ hn)).1
    rw [hc] at hnil
    cases hnil

theorem next_closed (h : Shape s) (ho : s.fileOpen = false) {x : Instr} {rest : List Instr}
    (hc : s.code = x :: rest) (hcode : s'.code = rest) (hpc : s'.pc = s.pc)
    (hfile : s'.fileOpen = s.fileOpen) (hflag : s'.dmaMapped = x.flag s.dmaMapped) : Shape s' := by
  have ht := h.closeTail ho
  have hmem : ∀ {y}, y ∈ s'.code → y ∈ s.code := fun hy => by
    rw [hc]
    exact List.mem_cons_of_mem _ (hcode ▸ hy)
  have hx := (ht.gets x (by simp [hc])).2.1
  have hgets : ∀ {y}, y ∈ s'.code → y.gets = true → False := fun hy hg => by
    rw [(ht.gets _ (hmem hy)).1] at hg
    cases hg
  have ho' : s'.fileOpen = true → False := fun hn => by
    rw [hfile, ho] at hn
    cases hn
  refine ⟨fun hn => (ho' hn).elim, fun _ => ?_, fun _ => ?_, fun r hr => (hgets hr rfl).elim,
    fun hr => (hgets hr rfl).elim, fun hn => ?_⟩
  · obtain ⟨c, hcm, hs⟩ := h.closed ho
    rw [hc] at hs
    exact ⟨c, hcm, hcode ▸ (List.suffix_cons x rest).trans hs⟩
  · by_cases hclr : x = .clearMapped
    · have honce : x ∉ rest := by simpa [hc, hclr] using ht.once x (by simp [hc])
      rw [hflag, hcode]
      subst hclr
      exact iff_of_false (by simp [Instr.flag]) honce
    · rw [hflag, Instr.flag_eq hx hclr, hcode, h.clearing ho, hc, List.mem_cons,
        or_iff_right (Ne.symm hclr)]
  · have hnil := (h.inside (hpc ▸ hn)).1
    rw [hc] at hnil
    cases hnil

theorem tested (h : Shape s) (ho : s.fileOpen = true) {rest : List Instr}
    (hc : s.code = .testMapped :: rest) : Shape { s with code := offCode s.dmaMapped ++ rest } := by
  have hrest : rest = [] := by simpa [hc] using (h.openTail ho).last .testMapped (by simp [hc])
  have hclosed : s.fileOpen = false → False := fun hn => by
    rw [ho] at hn
    cases hn
  have hquiet : ∀ b, (∀ r, .ioremap r ∉ offCode b) ∧ .requestIrq ∉ offCode b := by decide
  rw [hrest, List.append_nil]
  refine ⟨fun _ => ⟨_, offCode_mem _, List.suffix_rfl⟩, fun hn => (hclosed hn).elim,
    fun hn => (hclosed hn).elim, fun r hr => absurd hr ((hquiet _).1 r),
    fun hr => absurd hr (hquiet _).2, fun hn => ?_⟩
  have hnil := (h.inside hn).1
  rw [hc] at hnil
  cases hnil

theorem run (h : Shape s) {ans : Answer} (hf : s.step (.run ans) = some (s', es)) : Shape s' := by
  cases hc : s.code with
  | nil =>
    obtain ⟨-, r, ev, hs, rfl⟩ := Session.step_run_nil hc hf
    exact h.setSys fun _ => h.inside hs.inside
  | cons x rest =>
    cases Session.flow_of_instr (Session.step_run_cons hc hf) with
    | next _ hcode hpc hfile hflag =>
      cases ho : s.fileOpen with
      | true => exact h.next_open ho hc hcode hpc hfile hflag
      | false => exact h.next_closed ho hc hcode hpc hfile hflag
    | wait => exact h
    | test =>
      by_cases ho : s.fileOpen = true
      · exact h.tested ho hc
      · have ht := h.closeTail (Bool.eq_false_iff.mpr ho)
        exact absurd rfl (ht.gets .testMapped (by simp [hc])).2.2

theorem step (h : Shape s) (hf : s.step a = some (s', es)) : Shape s' := by
  cases a with
  | call c => exact h.call hf
  | run ans => exact h.run hf
  | irq flags =>
    by_cases hk : s.hooks = 0
    · obtain ⟨-, rfl⟩ := Session.step_irq_unhooked hk hf
      exact ⟨h.opened, h.closed, h.clearing, h.opening, h.binding, h.inside⟩
    · obtain ⟨-, r, ev, hs, rfl⟩ := Session.step_irq_hooked hk hf
      exact h.setSys fun hn => h.inside fun hidle => hn (hs.idle hidle)

end Shape

theorem shape_of_run {as : List Act} {es : List (LockOp Resource)} {s : Session}
    (h : Run Session.step .loaded as es s) : Shape s :=
  h.inv (I := fun _ s => Shape s) .loaded fun hi hf => hi.step hf

end LinuxKerDev.DriverC
