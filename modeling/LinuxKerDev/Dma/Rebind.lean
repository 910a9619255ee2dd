import LinuxKerDev.Dma.Session

/-!
# Binding again

`BIND_DMA` sets the slots free and both indices to zero, without the lock and
without a look at the card.  A transfer that is in flight at that moment stays
in flight, and the ring no longer knows of it.

A session whose file stays open is in one of two phases.  `Reset`: nothing is in
flight and the ring is empty, or a `BIND_DMA` is on its way to emptying it.
`Going`: the ring stands for a queue, as in `Solo.lean`.  A `BIND_DMA` that is
called while nothing is in flight leads from the second to the first, and a
`START_DMA` leads back; so `bind_keeps_ring` asks for just that.
`rebind_in_flight` shows what happens otherwise.
-/

namespace LinuxKerDev.Dma

open Lib

/-- The calls of a program that binds and draws; it does not turn the graphics
off or close the file, so no transfer is lost. -/
def Drawing (_ : List Mark) (_ : Session) : Act → Prop
  | .call (.vmode arg) => arg.toUInt32 = 1
  | .call .release => False
  | .lose => False
  | _ => True

/-- `BIND_DMA` is called while no started transfer is outstanding.  An interrupt and its
handler are one step here, so the completion of each has been handled by then. -/
def BindsIdle (_ : List Mark) (s : Session) : Act → Prop
  | .call .bindDma => s.dev.busy = []
  | _ => True

/-- `dma_interrupt` comes to "Should not come here!!". -/
def Stray (s : Session) : Act → Prop
  | .irq flags => s.hooks ≠ 0 ∧ s.dev.busy ≠ [] ∧ flags &&& 0x2 ≠ 0 ∧
      s.drv.fill = s.drv.drain ∧ (s.drv.dmaBuffer s.drv.fill).isFull = false
  | _ => False

instance (es : List Mark) (s : Session) : DecidablePred (Drawing es s)
  | .call (.vmode arg) => inferInstanceAs (Decidable (arg.toUInt32 = 1))
  | .call .release | .lose => inferInstanceAs (Decidable False)
  | .call .openDev | .call .sync | .call .bindDma | .call (.startDma _) | .call .flush
  | .call .other | .run _ | .irq _ => inferInstanceAs (Decidable True)

instance (es : List Mark) (s : Session) (a : Act) : Decidable (BindsIdle es s a) := by
  unfold BindsIdle
  split <;> infer_instance

instance (s : Session) (a : Act) : Decidable (Stray s a) := by
  unfold Stray
  split <;> infer_instance

/-! ### Instructions and calls -/

def Instr.aside : Instr → Bool
  | .writeReg reg value => (Instr.writeReg reg value).plain
  | .sync | .requestIrq => true
  | _ => false

def Instr.keeps : Instr → Bool
  | .iounmap | .freeIrq | .freeSlot _ => false
  | x => x.plain

theorem Call.keeps_code {c : Call} (hc : c ≠ .release) : ∀ x ∈ c.code, x.keeps = true := by
  cases c with
  | release => exact absurd rfl hc
  | startDma n =>
    rw [Call.code]
    decide
  | vmode arg =>
    rw [Call.code]
    split <;> decide
  | _ => decide

theorem Call.aside_code {c : Call} (hb : c ≠ .bindDma) (hc : c ≠ .release) :
    ∀ x ∈ c.code, x.aside = true := by
  cases c with
  | release => exact absurd rfl hc
  | bindDma => exact absurd rfl hb
  | startDma n =>
    rw [Call.code]
    decide
  | vmode arg =>
    rw [Call.code]
    split <;> decide
  | _ => decide

theorem clearFull_mem_bindCode : ∀ i, .clearFull i ∈ bindCode := by
  decide

namespace Session

variable {s s' : Session} {ans : Answer} {x : Instr} {r : List Instr} {es : List Mark}

theorem instr_aside (hx : x.aside = true) (hf : s.instr ans r x = some (s', es)) :
    ∃ n, s' = { s with code := r, hooks := n } := by
  cases x with
  | writeReg reg value =>
    obtain ⟨rfl, rfl⟩ := Prod.mk.inj (Option.some.inj hf)
    have hplain : (reg != streamBufferAAddress && reg != streamBufferAConfig) = true := hx
    rw [Bool.and_eq_true, bne_iff_ne, bne_iff_ne] at hplain
    exact ⟨s.hooks, by rw [kWriteReg_other hplain.1 hplain.2]⟩
  | sync =>
    obtain ⟨rfl, rfl⟩ := Prod.mk.inj (Option.some.inj hf)
    exact ⟨s.hooks, rfl⟩
  | requestIrq =>
    obtain ⟨rfl, rfl⟩ := Prod.mk.inj (Option.some.inj hf)
    exact ⟨_, rfl⟩
  | _ => cases hx

theorem instr_keeps (hx : x.keeps = true) (hf : s.instr ans r x = some (s', es)) :
    s'.dev.mapped = s.dev.mapped := by
  cases x with
  | allocSlot j =>
    rw [instr, Option.ite_none_right_eq_some] at hf
    obtain ⟨rfl, rfl⟩ := Prod.mk.inj (Option.some.inj hf.2)
    rfl
  | writeReg reg value =>
    obtain ⟨rfl, rfl⟩ := Prod.mk.inj (Option.some.inj hf)
    exact kWriteReg_mapped _ _ _
  | iounmap => cases hx
  | _ =>
    obtain ⟨rfl, rfl⟩ := Prod.mk.inj (Option.some.inj hf)
    rfl

theorem instr_isFull (hf : s.instr ans r x = some (s', es)) (i : Fin BUFFERS) :
    (s'.drv.dmaBuffer i).isFull = (s.drv.dmaBuffer i).isFull ∨
      (s'.drv.dmaBuffer i).isFull = false := by
  cases x with
  | allocSlot j =>
    rw [instr, Option.ite_none_right_eq_some] at hf
    obtain ⟨rfl, rfl⟩ := Prod.mk.inj (Option.some.inj hf.2)
    exact Or.inl (s.drv.allocSlot_isFull j i _ _)
  | clearCount j =>
    obtain ⟨rfl, rfl⟩ := Prod.mk.inj (Option.some.inj hf)
    exact Or.inl (s.drv.clearCount_isFull j i)
  | clearFull j =>
    obtain ⟨rfl, rfl⟩ := Prod.mk.inj (Option.some.inj hf)
    rw [Kyouko2.clearFull_isFull]
    by_cases hij : i = j
    · exact Or.inr (if_pos hij)
    · exact Or.inl (if_neg hij)
  | _ =>
    obtain ⟨rfl, rfl⟩ := Prod.mk.inj (Option.some.inj hf)
    exact Or.inl rfl

theorem fileOpen_of_call {c : Call} (hc : c ≠ .openDev) {p : Session × List Mark}
    (hf : s.step (.call c) = some p) : s.fileOpen = true := by
  rw [step, Option.ite_none_right_eq_some] at hf
  cases c with
  | openDev => exact absurd rfl hc
  | _ =>
    simp only [enter, Option.ite_none_right_eq_some] at hf
    exact hf.2.1

end Session

/-! ### The two phases -/

/-- Nothing is in flight, and the ring is empty or will be when the `BIND_DMA`
that runs is done. -/
structure Reset (s : Session) : Prop where
  busy : s.dev.busy = []
  idle : s.pc = .idle
  full : ∀ i, .clearFull i ∈ s.code ∨ (s.drv.dmaBuffer i).isFull = false
  fill : .resetFill ∈ s.code ∨ s.drv.fill = 0
  drain : .resetDrain ∈ s.code ∨ s.drv.drain = 0
  keeps : ∀ x ∈ s.code, x.keeps = true

/-- The ring stands for the queue `q` that the history `hist` has built, and no
call that runs is about to touch it. -/
structure Going (hist : List (Event Unit)) (s : Session) (q : List UInt32) : Prop where
  ring : SoloRing hist s.sys q
  aside : ∀ x ∈ s.code, x.aside = true

namespace Reset

variable {s : Session}

theorem loaded : Reset .loaded where
  busy := rfl
  idle := rfl
  full _ := Or.inr rfl
  fill := Or.inr rfl
  drain := Or.inr rfl
  keeps x hx := by cases hx

/-- **With no call running the ring is empty.** -/
theorem going (h : Reset s) (hc : s.code = []) (hm : s.dev.mapped = true) : Going [] s [] where
  ring := by
    have hno : ∀ x, x ∉ s.code := fun x hx => by rw [hc] at hx; cases hx
    refine ⟨.empty (h.fill.resolve_left (hno _)) (h.drain.resolve_left (hno _))
      (fun i => (h.full i).resolve_left (hno _)) hm h.busy, fun n hn => ?_⟩
    have hpc : s.pc = .relock n := hn
    rw [h.idle] at hpc
    cases hpc
  aside x hx := by rw [hc] at hx; cases hx

/-- The next instruction is taken off.  It has done its part, or it was not the
one to do it. -/
theorem next (h : Reset s) {x : Instr} {r : List Instr} (hc : s.code = x :: r) (k : Kyouko2)
    (hfull : ∀ i, (k.dmaBuffer i).isFull = false ∨
      x ≠ .clearFull i ∧ (k.dmaBuffer i).isFull = (s.drv.dmaBuffer i).isFull)
    (hfill : k.fill = 0 ∨ x ≠ .resetFill ∧ k.fill = s.drv.fill)
    (hdrain : k.drain = 0 ∨ x ≠ .resetDrain ∧ k.drain = s.drv.drain) (n : Nat) (l : List UInt64) :
    Reset { s with code := r, drv := k, hooks := n, live := l } := by
  have hmem : ∀ {y}, y ∈ s.code → x ≠ y → y ∈ r := by
    intro y hy hne
    rw [hc] at hy
    exact (List.mem_cons.mp hy).resolve_left (Ne.symm hne)
  refine { h with
    full := fun i => ?_
    fill := ?_
    drain := ?_
    keeps := fun y hy => h.keeps y (by rw [hc]; exact List.mem_cons_of_mem _ hy) }
  · rcases hfull i with h0 | ⟨hne, hsame⟩
    · exact Or.inr h0
    · exact (h.full i).imp (fun hy => hmem hy hne) fun h0 => hsame.trans h0
  · rcases hfill with h0 | ⟨hne, hsame⟩
    · exact Or.inr h0
    · exact h.fill.imp (fun hy => hmem hy hne) fun h0 => hsame.trans h0
  · rcases hdrain with h0 | ⟨hne, hsame⟩
    · exact Or.inr h0
    · exact h.drain.imp (fun hy => hmem hy hne) fun h0 => hsame.trans h0

/-- **An instruction keeps it.** -/
theorem instr (h : Reset s) {x : Instr} {r : List Instr} (hc : s.code = x :: r) {ans : Answer}
    {s' : Session} {es : List Mark} (hf : s.instr ans r x = some (s', es)) :
    Reset s' ∧ s'.dev.mapped = s.dev.mapped ∧ s'.fileOpen = s.fileOpen := by
  have hx := h.keeps x (by rw [hc]; exact List.mem_cons_self)
  -- an instruction that changes neither a flag nor an index
  have hsame : ∀ k : Kyouko2, (∀ i, x ≠ .clearFull i) → x ≠ .resetFill → x ≠ .resetDrain →
      (∀ i, (k.dmaBuffer i).isFull = (s.drv.dmaBuffer i).isFull) → k.fill = s.drv.fill →
      k.drain = s.drv.drain → ∀ n l, Reset { s with code := r, drv := k, hooks := n, live := l } :=
    fun k h1 h2 h3 hfull hfill hdrain n l =>
      h.next hc k (fun i => Or.inr ⟨h1 i, hfull i⟩) (Or.inr ⟨h2, hfill⟩) (Or.inr ⟨h3, hdrain⟩) n l
  cases x with
  | writeReg reg value =>
    have hx' : (Instr.writeReg reg value).aside = true := hx
    obtain ⟨n, rfl⟩ := Session.instr_aside hx' hf
    exact ⟨hsame s.drv (by simp) (by simp) (by simp) (fun _ => rfl) rfl rfl n _, rfl, rfl⟩
  | sync =>
    obtain ⟨n, rfl⟩ := Session.instr_aside rfl hf
    exact ⟨hsame s.drv (by simp) (by simp) (by simp) (fun _ => rfl) rfl rfl n _, rfl, rfl⟩
  | requestIrq =>
    obtain ⟨n, rfl⟩ := Session.instr_aside rfl hf
    exact ⟨hsame s.drv (by simp) (by simp) (by simp) (fun _ => rfl) rfl rfl n _, rfl, rfl⟩
  | allocSlot i =>
    rw [Session.instr, Option.ite_none_right_eq_some] at hf
    obtain ⟨-, hf⟩ := hf
    obtain ⟨rfl, rfl⟩ := Prod.mk.inj (Option.some.inj hf)
    exact ⟨hsame _ (by simp) (by simp) (by simp) (s.drv.allocSlot_isFull i · ans.buffer ans.handle)
      rfl rfl _ _, rfl, rfl⟩
  | mapSlot i =>
    obtain ⟨rfl, rfl⟩ := Prod.mk.inj (Option.some.inj hf)
    exact ⟨hsame (s.drv.setUserVirtAddr i ans.addr) (by simp) (by simp) (by simp) (fun _ => rfl)
      rfl rfl _ _, rfl, rfl⟩
  | clearCount i =>
    obtain ⟨rfl, rfl⟩ := Prod.mk.inj (Option.some.inj hf)
    exact ⟨hsame _ (by simp) (by simp) (by simp) (s.drv.clearCount_isFull i) rfl rfl _ _, rfl, rfl⟩
  | clearFull i =>
    obtain ⟨rfl, rfl⟩ := Prod.mk.inj (Option.some.inj hf)
    refine ⟨h.next hc (s.drv.clearFull i) (fun j => ?_) (Or.inr ⟨by simp, rfl⟩)
      (Or.inr ⟨by simp, rfl⟩) _ _, rfl, rfl⟩
    rw [Kyouko2.clearFull_isFull]
    by_cases hj : j = i
    · exact Or.inl (if_pos hj)
    · exact Or.inr ⟨fun he => hj (Instr.clearFull.inj he).symm, if_neg hj⟩
  | resetFill =>
    obtain ⟨rfl, rfl⟩ := Prod.mk.inj (Option.some.inj hf)
    exact ⟨h.next hc { s.drv with fill := 0 } (fun _ => Or.inr ⟨by simp, rfl⟩) (Or.inl rfl)
      (Or.inr ⟨by simp, rfl⟩) _ _, rfl, rfl⟩
  | resetDrain =>
    obtain ⟨rfl, rfl⟩ := Prod.mk.inj (Option.some.inj hf)
    exact ⟨h.next hc { s.drv with drain := 0 } (fun _ => Or.inr ⟨by simp, rfl⟩)
      (Or.inr ⟨by simp, rfl⟩) (Or.inl rfl) _ _, rfl, rfl⟩
  | _ => cases hx

theorem began (h : Reset s) (hc : s.code = []) {c : Call} (hrel : c ≠ .release) :
    Reset { s with code := c.code } := by
  have hno : ∀ x, x ∉ s.code := fun x hx => by rw [hc] at hx; cases hx
  exact { h with
    full := fun i => Or.inr ((h.full i).resolve_left (hno _))
    fill := Or.inr (h.fill.resolve_left (hno _))
    drain := Or.inr (h.drain.resolve_left (hno _))
    keeps := Call.keeps_code hrel }

end Reset

namespace Going

variable {hist : List (Event Unit)} {s : Session} {q : List UInt32}

/-- **`BIND_DMA` begins while nothing is in flight.** -/
theorem bind (_ : Going hist s q) (hpc : s.pc = .idle) (hb : s.dev.busy = []) :
    Reset { s with code := bindCode } where
  busy := hb
  idle := hpc
  full i := Or.inl (clearFull_mem_bindCode i)
  fill := Or.inl (show .resetFill ∈ bindCode by decide)
  drain := Or.inl (show .resetDrain ∈ bindCode by decide)
  keeps := Call.keeps_code (c := .bindDma) (by simp)

/-- **An instruction keeps it.** -/
theorem instr (h : Going hist s q) {x : Instr} {r : List Instr} (hc : s.code = x :: r)
    {ans : Answer} {s' : Session} {es : List Mark} (hf : s.instr ans r x = some (s', es)) :
    Going hist s' q := by
  obtain ⟨n, rfl⟩ := Session.instr_aside (h.aside x (by rw [hc]; exact List.mem_cons_self)) hf
  exact ⟨h.ring, fun y hy => h.aside y (by rw [hc]; exact List.mem_cons_of_mem _ hy)⟩

/-- **A step of `START_DMA` or of the handler keeps it.** -/
theorem start (h : Going hist s q) {b : Action Unit} {r : Sys Unit} {ev : List (Event Unit)}
    (hs : StepCase s.sys b r ev) : ∃ q', Going (hist ++ ev) (s.setSys r) q' := by
  obtain ⟨q', -, hq'⟩ := h.ring.step hs
  exact ⟨q', hq', h.aside⟩

theorem unnoticed (h : Going hist s q) : Going hist { s with dev := s.dev.flush } q :=
  ⟨⟨h.ring.1.unnoticed, h.ring.2⟩, h.aside⟩

end Going

/-! ### The ring and the card agree -/

def InPhase (s : Session) : Prop :=
  (s.fileOpen = true → s.dev.mapped = true) ∧ (Reset s ∨ ∃ hist q, Going hist s q)

namespace InPhase

variable {s : Session}

/-- **A step of `START_DMA` or of the handler keeps it.** -/
theorem start (h : InPhase s) {b : Action Unit} {r : Sys Unit} {ev : List (Event Unit)}
    (hcode : s.code = [] ∨ ∃ flags, b = .irq flags)
    (hopen : ∀ n, b = .startDma () n → s.fileOpen = true) (hs : StepCase s.sys b r ev) :
    InPhase (s.setSys r) := by
  have hgoing : (∃ hist q, Going hist s q) → ∃ hist q, Going hist (s.setSys r) q := by
    rintro ⟨hist, q, hq⟩
    obtain ⟨q', hq'⟩ := hq.start hs
    exact ⟨_, q', hq'⟩
  refine ⟨fun ho => hs.mapped.trans (h.1 ho), ?_⟩
  rcases h.2 with hr | hg
  · rcases hs.of_quiet (fun _ => hr.idle) hr.busy with ⟨_, n, rfl⟩ | ⟨rfl, -⟩
    · have hnil : s.code = [] := hcode.resolve_right (by simp)
      exact Or.inr (hgoing ⟨_, _, hr.going hnil (h.1 (hopen n rfl))⟩)
    · exact Or.inl hr
  · exact Or.inr (hgoing hg)

/-- **One step keeps it**, when nothing is in flight at a `BIND_DMA`. -/
theorem step (h : InPhase s) {es : List Mark} {a : Act} (hd : Drawing es s a)
    (hb : BindsIdle es s a) {s' : Session} {es' : List Mark} (hf : s.step a = some (s', es')) :
    InPhase s' := by
  cases Session.cases_of_step hf with
  | opened =>
    refine ⟨fun _ => rfl, h.2.imp (fun hr => { hr with }) ?_⟩
    rintro ⟨hist, q, hq⟩
    exact ⟨hist, q, ⟨⟨hq.ring.1.remap, hq.ring.2⟩, hq.aside⟩⟩
  | closed _ => exact hd.elim
  | lost => exact hd.elim
  | @began c hpc hc =>
    have hcode : s.code = [] := (Option.ite_none_right_eq_some.mp hf).1.1
    refine ⟨h.1, ?_⟩
    rcases h.2 with hr | ⟨hist, q, hq⟩
    · exact Or.inl (hr.began hcode hc)
    · by_cases hbind : c = .bindDma
      · subst hbind
        exact Or.inl (hq.bind hpc hb)
      · exact Or.inr ⟨hist, q, hq.ring, Call.aside_code hbind hc⟩
  | instr hc hi =>
    rcases h.2 with hr | ⟨hist, q, hq⟩
    · obtain ⟨hr', hm, ho⟩ := hr.instr hc hi
      refine ⟨fun hopen => ?_, Or.inl hr'⟩
      rw [hm]
      exact h.1 (ho ▸ hopen)
    · have hq' := hq.instr hc hi
      exact ⟨fun _ => hq'.ring.1.mapped, Or.inr ⟨hist, q, hq'⟩⟩
  | unnoticed _ =>
    refine ⟨h.1, ?_⟩
    rcases h.2 with hr | ⟨hist, q, hq⟩
    · exact Or.inl { hr with busy := by rw [flush_busy, hr.busy]; rfl }
    · exact Or.inr ⟨hist, q, hq.unnoticed⟩
  | start hcode _ hsub hs =>
    refine h.start hcode (fun n hn => ?_) hs
    obtain rfl := hsub n hn
    exact Session.fileOpen_of_call (by simp) hf

theorem busy_le (h : InPhase s) : s.dev.busy.length ≤ 1 := by
  rcases h.2 with hr | ⟨hist, q, hq⟩
  · rw [hr.busy]
    exact Nat.zero_le 1
  · rcases hq.ring.1.busy with hb | ⟨-, hb⟩ <;> rw [show s.dev.busy = _ from hb]
    · exact Nat.zero_le 1
    · exact Nat.le_refl 1

/-- A transfer in flight is one the ring knows of. -/
theorem not_stray (h : InPhase s) (a : Act) : ¬ Stray s a := by
  intro hst
  cases a with
  | irq flags =>
    obtain ⟨-, hbusy, -, hfd, hfull⟩ := hst
    rcases h.2 with hr | ⟨hist, q, hq⟩
    · exact hbusy hr.busy
    · exact hq.ring.1.ne_nil hbusy (hq.ring.1.eq_nil hfd hfull)
  | _ => exact hst

end InPhase

/-- **Bound while the card is idle, the ring agrees with the card.**  At most one
started transfer is outstanding in every state, and `dma_interrupt` never comes
to the branch it should not come to.  Any calls in any order and any
interleaving with the interrupts. -/
theorem bind_keeps_ring (as : List Act) (hd : AllSteps Session.step .loaded Drawing as)
    (hb : AllSteps Session.step .loaded BindsIdle as) :
    AllStates Session.step .loaded (fun _ s => s.dev.busy.length ≤ 1) as ∧
      AllSteps Session.step .loaded (fun _ s a => ¬ Stray s a) as := by
  have hg := allSteps_and.mpr ⟨hd, hb⟩
  have h₀ : InPhase .loaded := ⟨fun h => Bool.noConfusion h, Or.inl Reset.loaded⟩
  exact ⟨allStates_of_guard (I := fun _ s => InPhase s) hg h₀
      (fun hi hg hf => hi.step hg.1 hg.2 hf) fun hi => hi.busy_le,
    allSteps_of_guard (I := fun _ s => InPhase s) hg h₀
      (fun hi hg hf => hi.step hg.1 hg.2 hf) fun hi _ => hi.not_stray _⟩

/-- The kernel's answers to one round of a second `BIND_DMA`. -/
def answerSlotAgain (i : Fin BUFFERS) : List Act :=
  [.run { noAnswer with
      buffer := someAnswers.buffer i + 0x100000, handle := someAnswers.handle i + 0x100000 },
    .run { noAnswer with addr := someAnswers.addr i + 0x100000 }, .run noAnswer, .run noAnswer]

def answerBindAgain : List Act :=
  (List.finRange BUFFERS).flatMap answerSlotAgain ++
    [.run noAnswer, .run noAnswer, .run { noAnswer with hooked := true }, .run noAnswer,
      .run noAnswer]

/-- A program that asks for a transfer, lets it complete and binds a second time. -/
def bindLater : List Act :=
  [.call .openDev, .call .bindDma] ++ answerBind ++
    [.call (.startDma 148), .run noAnswer, .run noAnswer, .irq 2, .call .bindDma] ++
    answerBindAgain ++ [.call (.startDma 152), .run noAnswer, .run noAnswer, .irq 2]

theorem bind_keeps_ring_bindLater : (exec Session.step .loaded bindLater).isSome = true ∧
    AllStates Session.step .loaded (fun _ s => s.dev.busy.length ≤ 1) bindLater ∧
      AllSteps Session.step .loaded (fun _ s a => ¬ Stray s a) bindLater :=
  ⟨by decide +kernel, bind_keeps_ring bindLater (allSteps_of_check (by decide +kernel))
    (allSteps_of_check (by decide +kernel))⟩

/-- The same program, but it does not wait for the first transfer. -/
def bindTwice : List Act :=
  [.call .openDev, .call .bindDma] ++ answerBind ++
    [.call (.startDma 148), .run noAnswer, .run noAnswer, .call .bindDma] ++
    answerBindAgain ++ [.call (.startDma 152), .run noAnswer, .run noAnswer]

/-- **Bound with a transfer in flight**, the ring is empty and the card is not:
the next request is started beside the first one, and when both have completed
the second interrupt finds nothing to take off. -/
theorem rebind_in_flight :
    AllSteps Session.step .loaded Drawing (bindTwice ++ [.irq 2, .irq 2]) ∧
      AllSteps Session.step .loaded Careful (bindTwice ++ [.irq 2, .irq 2]) ∧
      (∃ es s, Run Session.step .loaded bindTwice es s ∧ s.dev.busy.length = 2) ∧
      ∃ es s, Run Session.step .loaded (bindTwice ++ [.irq 2]) es s ∧ Stray s (.irq 2) :=
  ⟨allSteps_of_check (by decide +kernel), allSteps_of_check (by decide +kernel),
    exists_run Session.step .loaded _ (fun _ s => s.dev.busy.length = 2) (by decide +kernel),
    exists_run Session.step .loaded _ (fun _ s => Stray s (.irq 2)) (by decide +kernel)⟩

end LinuxKerDev.Dma
