import LinuxKerDev.Dma.Launch
import LinuxKerDev.DriverC.Balance

/-!
# What the flag is good for

`dma_mapped` and the order of the instructions are all that keeps `driver.c` from a
register whose mapping is gone and from a buffer that has been freed: the indices,
`isFull` and the handles of an earlier session are left behind in the globals.
With one `BIND_DMA` to an `open` that is enough (`accesses_and_transfers_owned`).
Whoever owns the interrupt owns the control region and the eight buffers
(`Shape.has_of_irq`), and so does a `START_DMA` that has got past the flag
(`Shape.has_of_inside`).
-/

namespace LinuxKerDev.DriverC

open Lib LockOp Dma
open Cards (Region)

variable {as : List Act} {es es' : List (LockOp Resource)} {s s' : Session} {a : Act}

/-! ### What is asked of the steps -/

/-- The step reads or writes a register: an instruction that does, a `START_DMA` that
goes to the registers at once, and the handler. -/
def Accesses (s : Session) : Act → Prop
  | .call _ => False
  | .run _ =>
    match s.code with
    | x :: _ => x.accesses = true
    | [] => s.pc = .entered ∧ s.drv.size ≠ 0 ∧ s.drv.fill = s.drv.drain ∧
        (s.drv.dmaBuffer s.drv.fill).isFull = false
  | .irq _ => s.hooks ≠ 0

def AccessMapped (_ : List (LockOp Resource)) (s : Session) (a : Act) : Prop :=
  Accesses s a → s.dev.mapped = true

/-- What the step starts reads a buffer that has been allocated and not freed. -/
def StartsLive (_ : List (LockOp Resource)) (s : Session) (a : Act) : Prop :=
  ∀ s' es', s.step a = some (s', es') →
    ∃ new, s'.dev.started = s.dev.started ++ new ∧ ∀ t ∈ new, t.1.toUInt64 ∈ s.live

/-- An `open` finds no buffer of an earlier session. -/
def OpensEmpty (_ : List (LockOp Resource)) (s : Session) (a : Act) : Prop :=
  a = .call .openDev → s.live = []

/-! ### One `BIND_DMA` to an `open` -/

def boundSince (as : List Act) : Bool :=
  as.foldl (fun b a =>
    match a with
    | .call .openDev => false
    | .call .bindDma => true
    | _ => b) false

/-- At most one `BIND_DMA` for each `open`. -/
def OneBindPerOpen (as : List Act) : Prop :=
  ∀ p r, as = p ++ .call .bindDma :: r → boundSince p = false

instance (as : List Act) : Decidable (OneBindPerOpen as) :=
  decidable_of_iff (∀ n < as.length, as[n]? = some (.call .bindDma) →
    boundSince (as.take n) = false) <| by
  constructor
  · rintro h p r rfl
    simpa using h p.length (by simp) (by simp)
  · intro h n hn hb
    refine h _ (as.drop (n + 1)) ?_
    obtain ⟨_, hget⟩ := List.getElem?_eq_some_iff.mp hb
    rw [← hget, ← List.drop_eq_getElem_cons hn, List.take_append_drop]

theorem boundSince_snoc (as : List Act) (a : Act) :
    boundSince (as ++ [a]) = match a with
      | .call .openDev => false
      | .call .bindDma => true
      | _ => boundSince as := by
  rw [boundSince, List.foldl_append]
  rfl

theorem oneBindPerOpen_snoc : OneBindPerOpen (as ++ [a]) ↔
    OneBindPerOpen as ∧ (a = .call .bindDma → boundSince as = false) := by
  constructor
  · intro h
    exact ⟨fun p r hp => h p (r ++ [a]) (by simp [hp]), fun ha => h as [] (by rw [ha])⟩
  · rintro ⟨hall, hlast⟩ p r hp
    rcases List.eq_nil_or_concat r with rfl | ⟨r', b, rfl⟩
    · obtain ⟨rfl, hb⟩ := List.append_inj' hp rfl
      exact hlast (List.singleton_inj.mp hb)
    · have hp' : as ++ [a] = (p ++ .call .bindDma :: r') ++ [b] := by simpa using hp
      exact hall p r' (List.append_inj' hp' rfl).1

def Flagged (s : Session) : Prop := s.dmaMapped = true ∨ .setMapped ∈ s.code

theorem Session.instr_engine {ans : Answer} {x : Instr} {rest : List Instr}
    (hf : s.instr ans rest x = some (s', es')) :
    s'.dev.started = s.dev.started ∧ (s.dev.busy = [] → s'.dev.busy = []) := by
  cases x with
  | writeReg reg value =>
    obtain ⟨rfl, -⟩ := Prod.mk.inj (Option.some.inj hf)
    show (DriverC.writeReg s.dev reg value).started = _ ∧
      (_ → (DriverC.writeReg s.dev reg value).busy = [])
    unfold DriverC.writeReg
    split
    · exact ⟨rfl, fun _ => rfl⟩
    · exact ⟨rfl, id⟩
  | waitEmpty i =>
    rw [Session.instr] at hf
    split at hf <;> obtain ⟨rfl, -⟩ := Prod.mk.inj (Option.some.inj hf) <;> exact ⟨rfl, id⟩
  | allocSlot i =>
    rw [Session.instr, Option.ite_none_right_eq_some] at hf
    obtain ⟨rfl, -⟩ := Prod.mk.inj (Option.some.inj hf.2)
    exact ⟨rfl, id⟩
  | ioremap r | iounmap r =>
    cases r <;> obtain ⟨rfl, -⟩ := Prod.mk.inj (Option.some.inj hf) <;> exact ⟨rfl, id⟩
  | _ =>
    obtain ⟨rfl, -⟩ := Prod.mk.inj (Option.some.inj hf)
    exact ⟨rfl, id⟩

/-- Only `BIND_DMA` sets the flag, and an `open` finds it clear. -/
theorem flagged_step (h : Shape s) (hf : s.step a = some (s', es')) (hfl : Flagged s') :
    a = .call .bindDma ∨ a ≠ .call .openDev ∧ Flagged s := by
  cases a with
  | call c =>
    obtain ⟨hcode, -, he, -⟩ := Session.step_call hf
    cases Session.entered_of_enter he with
    | opened ho =>
      rcases hfl with hm | hin
      · rw [show _ = _ from h.clear ho hcode] at hm
        cases hm
      · simp [Call.code] at hin
    | closed ho =>
      refine Or.inr ⟨by simp, Or.inl ?_⟩
      rcases hfl with hm | hin
      · exact hm
      · have ht : CloseTail (Call.release.code s.dmaMapped) :=
          closeTail_of_mem _ (releaseCode_mem _) _ ((List.mem_tails _ _).mpr List.suffix_rfl)
        exact absurd rfl (ht.gets _ hin).2.1
    | refused _ _ => exact Or.inr ⟨by simp, hfl⟩
    | submitted _ _ _ => exact Or.inr ⟨by simp, hfl⟩
    | began ho h1 h2 h3 =>
      by_cases hb : c = .bindDma
      · exact Or.inl (congrArg Act.call hb)
      · refine Or.inr ⟨fun he => h1 (Act.call.inj he), Or.inl ?_⟩
        rcases hfl with hm | hin
        · exact hm
        · exact absurd rfl (Call.code_quiet h1 h2 hb _ _ hin).2.2
  | run ans =>
    refine Or.inr ⟨by simp, ?_⟩
    cases hc : s.code with
    | nil =>
      obtain ⟨-, r, ev, -, rfl⟩ := Session.step_run_nil hc hf
      exact hfl
    | cons x rest =>
      cases Session.flow_of_instr (Session.step_run_cons hc hf) with
      | next _ hcode _ _ hflag =>
        by_cases hset : x = .setMapped
        · exact Or.inr (by simp [hc, hset])
        · rcases hfl with hm | hin
          · left
            cases x <;> simp_all [Instr.flag]
          · right
            rw [hc]
            exact List.mem_cons_of_mem _ (hcode ▸ hin)
      | wait => exact hfl
      | test =>
        refine hfl.imp_right fun hin => ?_
        have hoff : ∀ b, .setMapped ∉ offCode b := by decide
        rw [hc]
        exact List.mem_cons_of_mem _ ((List.mem_append.mp hin).resolve_left (hoff _))
  | irq flags =>
    refine Or.inr ⟨by simp, ?_⟩
    by_cases hk : s.hooks = 0
    · obtain ⟨-, rfl⟩ := Session.step_irq_unhooked hk hf
      exact hfl
    · obtain ⟨-, r, ev, -, rfl⟩ := Session.step_irq_hooked hk hf
      exact hfl

theorem boundSince_of_flagged (h : Run Session.step .loaded as es s) (hfl : Flagged s) :
    boundSince as = true := by
  induction h with
  | nil => rcases hfl with hm | hin <;> [cases hm; cases hin]
  | @snoc as es s a s' es' hr hf ih =>
    rw [boundSince_snoc]
    rcases flagged_step (shape_of_run hr) hf hfl with rfl | ⟨hne, hfl⟩
    · rfl
    · split
      · exact absurd rfl hne
      · rfl
      · exact ih hfl

theorem unbound_of_oneBind (h : Run Session.step .loaded as es s) (hone : OneBindPerOpen as) :
    AllSteps Session.step .loaded Unbound as := by
  induction h with
  | nil => exact allSteps_nil _ _ _
  | @snoc as es s a s' es' hr hf ih =>
    obtain ⟨hall, hlast⟩ := oneBindPerOpen_snoc.mp hone
    refine allSteps_snoc.mpr ⟨ih hall, fun es₁ s₁ hr₁ ha => ?_⟩
    obtain ⟨rfl, rfl⟩ := hr.det hr₁
    refine Bool.eq_false_iff.mpr fun hm => ?_
    have hbound := boundSince_of_flagged hr (Or.inl hm)
    rw [hlast ha] at hbound
    cases hbound

/-! ### What comes with what -/

theorem Shape.has_of_irq (h : Shape s) (hirq : s.Has .irq) :
    s.Has (.mapping .control) ∧ ∀ i, s.Has (.buffer i) := by
  by_cases ho : s.fileOpen = true
  · have ht := h.openTail ho
    obtain ⟨hbound, hacq⟩ := (h.has_open ho).mp hirq
    refine ⟨(h.has_open ho).mpr ⟨ho, fun hin => ?_⟩, fun i => (h.has_open ho).mpr
      ⟨hbound, fun hin => hacq (ht.hook (ht.bound (ht.slot i hin)))⟩⟩
    -- an `open` that is still mapping has nothing bound
    rcases hbound.2 with hm | hset
    · rw [h.opening .control hin] at hm
      cases hm
    · exact hacq (ht.hook (ht.bound hset))
  · replace ho : s.fileOpen = false := Bool.eq_false_iff.mpr ho
    obtain ⟨hmap, hfree⟩ := (h.closeTail ho).unhook ((has_closed ho).mp hirq)
    exact ⟨(has_closed ho).mpr hmap, fun i => (has_closed ho).mpr (hfree i)⟩

theorem Shape.has_of_bound (h : Shape s) (ho : s.fileOpen = true) (hm : s.dmaMapped = true)
    (hc : s.code = []) : s.Has (.mapping .control) ∧ ∀ i, s.Has (.buffer i) := by
  have hnil : ∀ x : Instr, x ∉ s.code := fun x hin => List.not_mem_nil (hc ▸ hin)
  exact ⟨(h.has_open ho).mpr ⟨ho, hnil _⟩,
    fun i => (h.has_open ho).mpr ⟨⟨ho, Or.inl hm⟩, hnil _⟩⟩

theorem Shape.has_of_access (h : Shape s) {x : Instr} {rest : List Instr}
    (hc : s.code = x :: rest) (hx : x.accesses = true) : s.Has (.mapping .control) := by
  have hhead : x ∈ s.code.head? := by simp [hc]
  by_cases ho : s.fileOpen = true
  · refine (h.has_open ho).mpr ⟨ho, fun hin => ?_⟩
    have hno := ((h.openTail ho).opening .control hin).2 x hhead
    rw [hx] at hno
    cases hno
  · replace ho : s.fileOpen = false := Bool.eq_false_iff.mpr ho
    exact (has_closed ho).mpr ((h.closeTail ho).access x hhead hx)

namespace Holds

theorem has_irq (h : Holds es s) (hk : s.hooks ≠ 0) : s.Has .irq :=
  (h.hooked.resolve_right fun h0 => hk h0.1).2

theorem accessMapped (h : Holds es s) (hs : Shape s) : AccessMapped es s a := by
  intro ha
  rw [h.control]
  cases a with
  | call c => exact ha.elim
  | run ans =>
    cases hc : s.code with
    | nil =>
      rw [Accesses, hc] at ha
      obtain ⟨-, ho, hm⟩ := hs.inside (by rw [ha.1]; simp)
      exact (hs.has_of_bound ho hm hc).1
    | cons x rest =>
      rw [Accesses, hc] at ha
      exact hs.has_of_access hc ha
  | irq flags => exact (hs.has_of_irq (h.has_irq ha)).1

/-- What `START_DMA` and the handler start is read off a slot that owns its buffer. -/
theorem start_live (h : Holds es s) (hall : ∀ i, s.Has (.buffer i)) {b : Action Unit}
    {r : Sys Unit} {ev : List (Event Unit)} (hs : StepCase s.sys b r ev) :
    ∃ new, r.dev.started = s.dev.started ++ new ∧ ∀ t ∈ new, t.1.toUInt64 ∈ s.live := by
  rcases hs.started with he | ⟨-, i, he⟩
  · exact ⟨[], by rw [List.append_nil]; exact he, nofun⟩
  · refine ⟨_, he, fun t ht => ?_⟩
    obtain rfl := List.mem_singleton.mp ht
    have hin : s.drv.dmaHandle i ∈ s.live := (h.buffers.live _).mpr ⟨i, hall i, rfl⟩
    have hfit : (s.drv.dmaHandle i).toNat < 2 ^ 32 := by
      have hle := h.buffers.fits _ hin
      simp only [bufferBytes] at hle
      omega
    show (r.drv.dmaHandle i).toUInt32.toUInt64 ∈ s.live
    rw [(SameBuffers.of_stepCase hs i).1]
    exact (toUInt64_toUInt32 hfit).symm ▸ hin

theorem startsLive (h : Holds es s) (hs : Shape s) : StartsLive es s a := by
  intro s' es' hf
  have hnone : s'.dev.started = s.dev.started →
      ∃ new, s'.dev.started = s.dev.started ++ new ∧ ∀ t ∈ new, t.1.toUInt64 ∈ s.live :=
    fun he => ⟨[], by rw [he, List.append_nil], nofun⟩
  cases a with
  | call c =>
    obtain ⟨hcode, -, he, -⟩ := Session.step_call hf
    cases Session.entered_of_enter he with
    | submitted ho hm hst => exact h.start_live (hs.has_of_bound ho hm hcode).2 hst
    | _ => exact hnone rfl
  | run ans =>
    cases hc : s.code with
    | nil =>
      obtain ⟨-, r, ev, hst, rfl⟩ := Session.step_run_nil hc hf
      obtain ⟨-, ho, hm⟩ := hs.inside hst.inside
      exact h.start_live (hs.has_of_bound ho hm hc).2 hst
    | cons x rest => exact hnone (Session.instr_engine (Session.step_run_cons hc hf)).1
  | irq flags =>
    by_cases hk : s.hooks = 0
    · obtain ⟨-, rfl⟩ := Session.step_irq_unhooked hk hf
      exact hnone rfl
    · obtain ⟨-, r, ev, hst, rfl⟩ := Session.step_irq_hooked hk hf
      exact h.start_live (hs.has_of_irq (h.has_irq hk)).2 hst

theorem opensEmpty (h : Holds es s) (hf : s.step a = some (s', es')) : OpensEmpty es s a := by
  rintro rfl
  obtain ⟨hcode, -, he, -⟩ := Session.step_call hf
  cases Session.entered_of_enter he with
  | opened ho =>
    refine List.eq_nil_iff_forall_not_mem.mpr fun x hin => ?_
    obtain ⟨i, hi, -⟩ := (h.buffers.live x).mp hin
    rw [Shape.has_closed ho, hcode] at hi
    cases hi
  | began _ hne _ _ => exact absurd rfl hne

end Holds

/-- **`driver.c`, with one `BIND_DMA` to an `open`: every register access finds the
control region mapped, and every transfer reads a buffer that this session has
allocated and not freed.**  The calls may come in any order, over any number of
sessions, with the interrupts anywhere between. -/
theorem accesses_and_transfers_owned (h : Run Session.step .loaded as es s)
    (hone : OneBindPerOpen as) (hg : AllSteps Session.step .loaded Granted as) :
    AllSteps Session.step .loaded AccessMapped as ∧ AllSteps Session.step .loaded StartsLive as ∧
      AllSteps Session.step .loaded OpensEmpty as := by
  have hu := unbound_of_oneBind h hone
  have hguard := allSteps_and.mpr ⟨h.allSteps_isSome, allSteps_and.mpr ⟨hg, hu⟩⟩
  have hall := allSteps_of_guard (I := fun es s => Shape s ∧ Holds es s)
    (P := fun es s a => AccessMapped es s a ∧ StartsLive es s a ∧ OpensEmpty es s a) hguard
    ⟨.loaded, .loaded⟩ (fun hi hgu hf => ⟨hi.1.step hf, hi.2.step hi.1 hgu.2.1 hgu.2.2 hf⟩)
    fun hi hgu => by
      obtain ⟨⟨s', es'⟩, hr⟩ := Option.isSome_iff_exists.mp hgu.1
      exact ⟨hi.2.accessMapped hi.1, hi.2.startsLive hi.1, hi.2.opensEmpty hr⟩
  exact ⟨(allSteps_and.mp hall).1, allSteps_and.mp (allSteps_and.mp hall).2⟩

/-- Two sessions: in the first a transfer is started and completes, the second
starts one on the state that is left behind. -/
def staleRing : List Act :=
  openActs ++ bindActs 0x100000 ++ [.call (.startDma 64)] ++ granted 0 2 ++ [.irq 2] ++ closeActs ++
    openActs ++ bindActs 0x10000000 ++ [.call (.startDma 32)] ++ granted 0 2 ++ [.irq 2] ++ closeActs

theorem accesses_and_transfers_owned_staleRing :
    (∃ es s, Run Session.step .loaded staleRing es s ∧ s.dev.started.length = 2) ∧
      AllSteps Session.step .loaded AccessMapped staleRing ∧
      AllSteps Session.step .loaded StartsLive staleRing ∧
      AllSteps Session.step .loaded OpensEmpty staleRing := by
  obtain ⟨es, s, hr, hn⟩ := exists_run Session.step .loaded staleRing
    (fun _ s => s.dev.started.length = 2) (by decide +kernel)
  exact ⟨⟨es, s, hr, hn⟩,
    accesses_and_transfers_owned hr (by decide +kernel) (allSteps_of_check (by decide +kernel))⟩

/-! ### Freeing a buffer in flight -/

/-- A buffer is freed when nothing started from it is in flight. -/
def FreesIdle (_ : List (LockOp Resource)) (s : Session) : Act → Prop
  | .run _ =>
    match s.code with
    | .freeSlot i :: _ => ∀ t ∈ s.dev.busy, t.1 ≠ (s.drv.dmaHandle i).toUInt32
    | _ => True
  | _ => True

/-- The interrupt is freed when nothing is in flight. -/
def UnhooksIdle (_ : List (LockOp Resource)) (s : Session) : Act → Prop
  | .run _ =>
    match s.code with
    | .freeIrq :: _ => s.dev.busy = []
    | _ => True
  | _ => True

instance (es : List (LockOp Resource)) (s : Session) : DecidablePred (FreesIdle es s)
  | .run _ =>
    show Decidable (match s.code with
      | .freeSlot i :: _ => ∀ t ∈ s.dev.busy, t.1 ≠ (s.drv.dmaHandle i).toUInt32
      | _ => True) from
    match s.code with
    -- one transfer after the other, not all of `UInt32 × UInt32`
    | .freeSlot i :: _ =>
      List.decidableBAll (fun t => t.1 ≠ (s.drv.dmaHandle i).toUInt32) s.dev.busy
    | .writeReg _ _ :: _ | .sync :: _ | .testMapped :: _ | .waitEmpty _ :: _ | .ioremap _ :: _
    | .allocSlot _ :: _ | .mapSlot _ :: _ | .clearFull _ :: _ | .clearCount _ :: _
    | .setMapped :: _ | .resetFill :: _ | .resetDrain :: _ | .enableMsi :: _
    | .requestIrq :: _ | .freeIrq :: _ | .disableMsi :: _ | .clearMapped :: _
    | .iounmap _ :: _ | [] => inferInstanceAs (Decidable True)
  | .call _ | .irq _ => inferInstanceAs (Decidable True)

instance (es : List (LockOp Resource)) (s : Session) : DecidablePred (UnhooksIdle es s)
  | .run _ =>
    show Decidable (match s.code with
      | .freeIrq :: _ => s.dev.busy = []
      | _ => True) from
    match s.code with
    | .freeIrq :: _ => inferInstanceAs (Decidable (s.dev.busy = []))
    | .writeReg _ _ :: _ | .sync :: _ | .testMapped :: _ | .waitEmpty _ :: _ | .ioremap _ :: _
    | .allocSlot _ :: _ | .mapSlot _ :: _ | .clearFull _ :: _ | .clearCount _ :: _
    | .setMapped :: _ | .resetFill :: _ | .resetDrain :: _ | .enableMsi :: _
    | .requestIrq :: _ | .freeSlot _ :: _ | .disableMsi :: _ | .clearMapped :: _
    | .iounmap _ :: _ | [] => inferInstanceAs (Decidable True)
  | .call _ | .irq _ => inferInstanceAs (Decidable True)

/-- The buffers are freed after the interrupt. -/
theorem Shape.unhooked (h : Shape s) {i : Fin BUFFERS} {rest : List Instr}
    (hc : s.code = .freeSlot i :: rest) : .freeIrq ∉ s.code := by
  have ho : s.fileOpen = false := Bool.eq_false_iff.mpr fun ho => by
    have hfree := ((h.openTail ho).frees (.freeSlot i) (by simp [hc])).1
    cases hfree
  obtain ⟨c, hcm, hs⟩ := h.closed ho
  rw [hc] at hs
  have hrest : CloseTail rest :=
    closeTail_of_mem c hcm _ ((List.mem_tails _ _).mpr ((List.suffix_cons _ _).trans hs))
  have honce : .freeSlot i ∉ rest := by
    simpa [hc] using (h.closeTail ho).once (.freeSlot i) (by simp [hc]) (Or.inl rfl)
  rw [hc]
  intro hin
  exact honce ((hrest.unhook (List.mem_of_ne_of_mem (by simp) hin)).2 i)

/-- Once the interrupt has been freed, what is still to be freed is not in flight. -/
def Quiet (s : Session) : Prop := ∀ i, .freeSlot i ∈ s.code → .freeIrq ∉ s.code → s.dev.busy = []

theorem Quiet.step (h : Quiet s) (hg : UnhooksIdle es s a) (hf : s.step a = some (s', es')) :
    Quiet s' := by
  cases a with
  | call c =>
    obtain ⟨hcode, -, he, -⟩ := Session.step_call hf
    cases Session.entered_of_enter he with
    | closed ho =>
      intro i hi hn
      exfalso
      revert hi hn
      show .freeSlot i ∈ Call.release.code s.dmaMapped → .freeIrq ∉ Call.release.code s.dmaMapped → _
      cases s.dmaMapped <;> simp [Call.code, unbindCode, unmapCode]
    | opened ho => exact fun i hi => by simp [Call.code] at hi
    | refused _ _ => exact h
    | submitted _ _ _ =>
      intro i hi
      replace hi : .freeSlot i ∈ s.code := hi
      rw [hcode] at hi
      cases hi
    | began ho h1 h2 h3 =>
      intro i hi
      have ht : OpenTail (c.code s.dmaMapped) :=
        openTail_of_mem _ (Call.code_mem h2 _) _ ((List.mem_tails _ _).mpr List.suffix_rfl)
      exact absurd (ht.frees _ hi).1 (by simp [Instr.frees])
  | run ans =>
    cases hc : s.code with
    | nil =>
      obtain ⟨-, r, ev, -, rfl⟩ := Session.step_run_nil hc hf
      intro i hi
      replace hi : .freeSlot i ∈ s.code := hi
      rw [hc] at hi
      cases hi
    | cons x rest =>
      have hi := Session.step_run_cons hc hf
      have hbusy : s.dev.busy = [] → s'.dev.busy = [] := (Session.instr_engine hi).2
      cases Session.flow_of_instr hi with
      | next _ hcode _ _ _ =>
        intro i hmem hn
        rw [hcode] at hmem hn
        by_cases hx : x = .freeIrq
        · subst hx
          rw [UnhooksIdle, hc] at hg
          exact hbusy hg
        · refine hbusy (h i ?_ ?_) <;> rw [hc]
          · exact List.mem_cons_of_mem _ hmem
          · rintro (_ | ⟨_, hin⟩)
            · exact hx rfl
            · exact hn hin
      | wait => exact h
      | test =>
        intro i hmem hn
        have hoff : ∀ b, .freeSlot i ∉ offCode b := fun b => by cases b <;> simp [offCode]
        have hrest := (List.mem_append.mp hmem).resolve_left (hoff _)
        refine h i ?_ ?_ <;> rw [hc]
        · exact List.mem_cons_of_mem _ hrest
        · rintro (_ | ⟨_, hin⟩)
          exact hn (List.mem_append_right _ hin)
  | irq flags =>
    by_cases hk : s.hooks = 0
    · obtain ⟨-, rfl⟩ := Session.step_irq_unhooked hk hf
      intro i hi hn
      show s.dev.busy.tail = []
      rw [h i hi hn]
      rfl
    · obtain ⟨-, r, ev, hst, rfl⟩ := Session.step_irq_hooked hk hf
      intro i hi hn
      have hb := h i hi hn
      -- with nothing in flight the line can only have been raised by another device
      cases hst with
      | spurious _ => exact hb
      | irqFull _ hne _ _ | irqStray _ hne _ _ | irqMore _ hne _ _ | irqLast _ hne _ _ =>
        exact absurd hb hne

/-- **`driver.c`: where every `release` has the ring empty by the time it frees the
interrupt, no buffer is freed while a transfer from it is in flight.**  `VMODE` off
waits for that; `release` does not, and reboots the card only after the buffers are
gone. -/
theorem frees_idle_of_unhooksIdle (hg : AllSteps Session.step .loaded UnhooksIdle as) :
    AllSteps Session.step .loaded FreesIdle as := by
  refine allSteps_of_guard (I := fun _ s => Shape s ∧ Quiet s) hg
    ⟨.loaded, fun i hi => absurd hi List.not_mem_nil⟩
    (fun hi hu hf => ⟨hi.1.step hf, hi.2.step hu hf⟩) ?_
  rintro es s (_ | _ | _) ⟨hs, hq⟩ -
  · trivial
  · rw [FreesIdle]
    split
    · next i rest hc =>
      have hb : s.dev.busy = [] := hq i (by simp [hc]) (hs.unhooked hc)
      intro t ht
      rw [hb] at ht
      exact absurd ht List.not_mem_nil
    · trivial
  · trivial

/-- `release` is called, with buffers bound, when nothing is in flight. -/
def ReleasesIdle (_ : List (LockOp Resource)) (s : Session) : Act → Prop
  | .call .release => s.code = [] → s.dmaMapped = true → s.dev.busy = []
  | _ => True

/-- A `free_irq` that is still to come finds nothing in flight. -/
def Unhooking (s : Session) : Prop := .freeIrq ∈ s.code → s.dev.busy = []

theorem Unhooking.step (h : Unhooking s) (hg : ReleasesIdle es s a)
    (hf : s.step a = some (s', es')) : Unhooking s' := by
  cases a with
  | call c =>
    obtain ⟨hcode, -, he, -⟩ := Session.step_call hf
    cases Session.entered_of_enter he with
    | closed ho =>
      intro hin
      replace hin : .freeIrq ∈ Call.release.code s.dmaMapped := hin
      refine hg hcode (Bool.eq_true_of_not_eq_false fun hm => ?_)
      rw [hm] at hin
      simp [Call.code, unmapCode] at hin
    | opened ho => exact fun hin => by simp [Call.code] at hin
    | refused _ _ => exact h
    | submitted _ _ _ =>
      intro hin
      replace hin : .freeIrq ∈ s.code := hin
      rw [hcode] at hin
      cases hin
    | began ho h1 h2 h3 =>
      intro hin
      have ht : OpenTail (c.code s.dmaMapped) :=
        openTail_of_mem _ (Call.code_mem h2 _) _ ((List.mem_tails _ _).mpr List.suffix_rfl)
      exact absurd (ht.frees _ hin).1 (by simp [Instr.frees])
  | run ans =>
    cases hc : s.code with
    | nil =>
      obtain ⟨-, r, ev, -, rfl⟩ := Session.step_run_nil hc hf
      intro hin
      replace hin : .freeIrq ∈ s.code := hin
      rw [hc] at hin
      cases hin
    | cons x rest =>
      have hi := Session.step_run_cons hc hf
      have hbusy : s.dev.busy = [] → s'.dev.busy = [] := (Session.instr_engine hi).2
      cases Session.flow_of_instr hi with
      | next _ hcode _ _ _ =>
        intro hin
        rw [hcode] at hin
        exact hbusy (h (hc ▸ List.mem_cons_of_mem _ hin))
      | wait => exact h
      | test =>
        intro hin
        have hoff : ∀ b, .freeIrq ∉ offCode b := by decide
        exact h (hc ▸ List.mem_cons_of_mem _ ((List.mem_append.mp hin).resolve_left (hoff _)))
  | irq flags =>
    by_cases hk : s.hooks = 0
    · obtain ⟨-, rfl⟩ := Session.step_irq_unhooked hk hf
      intro hin
      show s.dev.busy.tail = []
      rw [h hin]
      rfl
    · obtain ⟨-, r, ev, hst, rfl⟩ := Session.step_irq_hooked hk hf
      intro hin
      have hb := h hin
      cases hst with
      | spurious _ => exact hb
      | irqFull _ hne _ _ | irqStray _ hne _ _ | irqMore _ hne _ _ | irqLast _ hne _ _ =>
        exact absurd hb hne

/-- **When a program meets the condition**: nothing is started between the call of `release`
and its `free_irq`, so it is enough that the call comes when nothing is in flight. -/
theorem unhooksIdle_of_releasesIdle (hg : AllSteps Session.step .loaded ReleasesIdle as) :
    AllSteps Session.step .loaded UnhooksIdle as := by
  refine allSteps_of_guard (I := fun _ s => Unhooking s) hg (fun hin => by cases hin)
    (fun hi hr hf => hi.step hr hf) ?_
  rintro es s (_ | _ | _) hi -
  · trivial
  · rw [UnhooksIdle]
    split
    · next rest hc => exact hi (hc ▸ List.mem_cons_self)
    · trivial
  · trivial

/-- In both sessions the transfer completes before the `release`. -/
theorem frees_idle_staleRing : AllSteps Session.step .loaded FreesIdle staleRing :=
  frees_idle_of_unhooksIdle (allSteps_of_check (by decide +kernel))

def releaseEarly : List Act :=
  openActs ++ bindActs 0x100000 ++ [.call (.startDma 64)] ++ granted 0 2 ++ closeActs

/-- **The first buffer is freed while the card reads from it.** -/
theorem freed_in_flight :
    (∃ es s, Run Session.step .loaded releaseEarly es s ∧ s.fileOpen = false ∧ s.code = []) ∧
      ¬ AllSteps Session.step .loaded FreesIdle releaseEarly :=
  ⟨exists_run Session.step .loaded releaseEarly (fun _ s => s.fileOpen = false ∧ s.code = [])
    (by decide +kernel), not_allSteps_of_check (by decide +kernel)⟩

end LinuxKerDev.DriverC
