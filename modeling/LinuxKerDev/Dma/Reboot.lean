import LinuxKerDev.Dma.Rebind

/-!
# Turning the graphics off

`VMODE` with an argument other than `GRAPHICS_ON`, and `release`, write 1 to
`ConfigReboot`.  Before that they wait for the command FIFO (`VMODE`) or for
nothing (`release`); neither looks at the DMA ring.

One program uses the device here: it opens it, binds once, draws and closes.
`Session.noted` is `Session.step` with notes of what matters: the requests asked
for, the completions the handler was told of, and the reboots, each with whether
a transfer was in flight.  A reboot finds the ring empty exactly when every
request has had its completion by then (`reboots_empty_iff`).
-/

namespace LinuxKerDev.Dma

open Lib

/-! ### What is noted -/

inductive Note
  | bind
  | ask
  | done
  | reboot (inFlight : Bool)
  | close
  deriving DecidableEq, Repr

/-- The step writes 1 to `ConfigReboot`: `release` with its first instruction, and
`reboot_1`. -/
def Reboots (s : Session) : Act → Prop
  | .call .release => True
  | .run _ => s.code.head? = some (.writeReg configReboot 1)
  | _ => False

instance (s : Session) : DecidablePred (Reboots s)
  | .call .release => inferInstanceAs (Decidable True)
  | .run _ => inferInstanceAs (Decidable (s.code.head? = some (.writeReg configReboot 1)))
  | .call .openDev | .call (.vmode _) | .call .sync | .call .bindDma | .call (.startDma _)
  | .call .flush | .call .other | .irq _ | .lose => inferInstanceAs (Decidable False)

def notes (s : Session) : Act → List Note
  | .call .bindDma => [.bind]
  | .call (.startDma n) => if n = 0 then [] else [.ask]
  | .call .release => [.reboot (s.dev.busy != []), .close]
  | .run ans => if Reboots s (.run ans) then [.reboot (s.dev.busy != [])] else []
  | .irq flags => if s.hooks = 0 ∨ flags &&& 0x2 = 0 then [] else [.done]
  | _ => []

section

variable (s : Session)

@[simp] theorem notes_openDev : notes s (.call .openDev) = [] := rfl
@[simp] theorem notes_vmode (arg : UInt64) : notes s (.call (.vmode arg)) = [] := rfl
@[simp] theorem notes_sync : notes s (.call .sync) = [] := rfl
@[simp] theorem notes_bindDma : notes s (.call .bindDma) = [.bind] := rfl
@[simp] theorem notes_flush : notes s (.call .flush) = [] := rfl
@[simp] theorem notes_other : notes s (.call .other) = [] := rfl
@[simp] theorem notes_release :
    notes s (.call .release) = [.reboot (s.dev.busy != []), .close] := rfl
@[simp] theorem notes_lose : notes s .lose = [] := rfl

@[simp] theorem notes_startDma (n : UInt32) :
    notes s (.call (.startDma n)) = if n = 0 then [] else [.ask] := rfl

@[simp] theorem notes_run (ans : Answer) : notes s (.run ans) =
    if Reboots s (.run ans) then [.reboot (s.dev.busy != [])] else [] := rfl

@[simp] theorem notes_irq (flags : UInt32) : notes s (.irq flags) =
    if s.hooks = 0 ∨ flags &&& 0x2 = 0 then [] else [.done] := rfl

end

def Session.noted (s : Session) (a : Act) : Option (Session × List Note) :=
  (s.step a).map fun r => (r.1, notes s a)

theorem Session.step_of_noted {s s' : Session} {a : Act} {es : List Note}
    (hf : s.noted a = some (s', es)) : (∃ ms, s.step a = some (s', ms)) ∧ es = notes s a := by
  obtain ⟨r, hr, h⟩ := Option.map_eq_some_iff.mp hf
  obtain ⟨rfl, rfl⟩ := Prod.mk.inj h
  exact ⟨⟨r.2, hr⟩, rfl⟩

/-- One program: it opens the device once, binds once and before it asks for
anything.  A transfer is lost only by a reboot. -/
def OneUse (es : List Note) (_ : Session) : Act → Prop
  | .call .openDev => .close ∉ es
  | .call .bindDma => .bind ∉ es
  | .call (.startDma _) => .bind ∈ es
  | .lose => .reboot true ∈ es
  | _ => True

instance (es : List Note) (s : Session) : DecidablePred (OneUse es s)
  | .call .openDev => inferInstanceAs (Decidable (.close ∉ es))
  | .call .bindDma => inferInstanceAs (Decidable (.bind ∉ es))
  | .call (.startDma _) => inferInstanceAs (Decidable (.bind ∈ es))
  | .lose => inferInstanceAs (Decidable (.reboot true ∈ es))
  | .call (.vmode _) | .call .sync | .call .flush | .call .other | .call .release | .run _
  | .irq _ => inferInstanceAs (Decidable True)

/-- A reboot finds no request queued or in flight. -/
def RebootsEmpty (_ : List Note) (s : Session) (a : Act) : Prop :=
  Reboots s a → s.dev.busy = [] ∧ ∀ i, (s.drv.dmaBuffer i).isFull = false

/-- At a reboot the handler has been told of as many completions as `START_DMA`
calls have asked for. -/
def RebootsDone (es : List Note) (s : Session) (a : Act) : Prop :=
  Reboots s a → es.count .done = es.count .ask

instance (es : List Note) (s : Session) (a : Act) : Decidable (RebootsEmpty es s a) := by
  unfold RebootsEmpty
  infer_instance

instance (es : List Note) (s : Session) (a : Act) : Decidable (RebootsDone es s a) := by
  unfold RebootsDone
  infer_instance

/-! ### The phases of a session -/

structure Unasked (es : List Note) (s : Session) : Prop where
  reset : Reset s
  mapped : s.fileOpen = true → s.dev.mapped = true
  full : ∀ i, (s.drv.dmaBuffer i).isFull = false
  ask : es.count .ask = 0
  done : es.count .done = 0

/-- The ring holds what has been asked for and is not done. -/
structure InUse (es : List Note) (hist : List (Event Unit)) (s : Session) (q : List UInt32) :
    Prop where
  going : Going hist s q
  bound : .bind ∈ es
  alone : s.code ≠ [] → s.pc = .idle
  ask : es.count .ask = (accepted hist).length + (pending s.sys).length
  done : es.count .done = flushed hist

/-- The file has been closed, and no call follows. -/
structure Shut (es : List Note) (s : Session) : Prop where
  close : .close ∈ es
  shut : s.fileOpen = false
  code : ∀ x ∈ s.code, x ≠ .writeReg configReboot 1

/-- A run whose reboots have all come when everything was done. -/
def Books (es : List Note) (s : Session) : Prop :=
  .reboot true ∉ es ∧ (Unasked es s ∨ (∃ hist q, InUse es hist s q) ∨ Shut es s)

variable {es : List Note} {s s' : Session} {ms : List Mark}

theorem pending_of_idle (hpc : s.pc = .idle) : pending s.sys = [] := by
  simp [pending, Session.sys, hpc]

namespace Unasked

theorem note (h : Unasked es s) {l : List Note} (ha : .ask ∉ l) (hd : .done ∉ l) :
    Unasked (es ++ l) s :=
  { h with
    ask := by rw [List.count_append, h.ask, List.count_eq_zero.mpr ha]
    done := by rw [List.count_append, h.done, List.count_eq_zero.mpr hd] }

theorem began (h : Unasked es s) (hc : s.code = []) {c : Call} (hrel : c ≠ .release) :
    Unasked es { s with code := c.code } :=
  { h with reset := h.reset.began hc hrel }

/-- **An instruction keeps it.** -/
theorem instr (h : Unasked es s) {x : Instr} {r : List Instr} (hc : s.code = x :: r) {ans : Answer}
    (hf : s.instr ans r x = some (s', ms)) : Unasked es s' := by
  obtain ⟨hr, hm, ho⟩ := h.reset.instr hc hf
  refine { h with
    reset := hr
    mapped := fun hopen => hm.trans (h.mapped (ho ▸ hopen))
    full := fun i => ?_ }
  rcases Session.instr_isFull hf i with hsame | h0
  · exact hsame.trans (h.full i)
  · exact h0

theorem irq (h : Unasked es s) {flags : UInt32} (hf : s.step (.irq flags) = some (s', ms)) :
    s' = s ∧ notes s (.irq flags) = [] := by
  have hbusy : s.sys.dev.busy = [] := h.reset.busy
  by_cases hk : s.hooks = 0
  · obtain rfl := Session.step_irq_unhooked hk hf
    have hflush : s.dev.flush = s.dev := by
      rw [Device.flush, h.reset.busy]
      exact congrArg _ h.reset.busy.symm
    exact ⟨by rw [hflush], by simp [hk]⟩
  · obtain ⟨r, ev, hs, rfl⟩ := Session.step_irq_hooked hk hf
    cases hs with
    | spurious h0 => exact ⟨rfl, by simp [h0]⟩
    | irqFull _ hb _ _ => exact absurd hbusy hb
    | irqStray _ hb _ _ => exact absurd hbusy hb
    | irqMore _ hb _ _ => exact absurd hbusy hb
    | irqLast _ hb _ _ => exact absurd hbusy hb

/-- With the file open and no call running, the ring is in use with nothing in it. -/
theorem inUse (h : Unasked es s) (hc : s.code = []) (hopen : s.fileOpen = true)
    (hb : .bind ∈ es) : InUse es [] s [] where
  going := h.reset.going hc (h.mapped hopen)
  bound := hb
  alone hne := absurd hc hne
  ask := by rw [h.ask, pending_of_idle h.reset.idle]; rfl
  done := h.done

end Unasked

namespace InUse

variable {hist : List (Event Unit)} {q : List UInt32}

theorem note (h : InUse es hist s q) {l : List Note} (ha : .ask ∉ l) (hd : .done ∉ l) :
    InUse (es ++ l) hist s q :=
  { h with
    bound := List.mem_append_left _ h.bound
    ask := by rw [List.count_append, h.ask, List.count_eq_zero.mpr ha, Nat.add_zero]
    done := by rw [List.count_append, h.done, List.count_eq_zero.mpr hd, Nat.add_zero] }

/-- **A step of `START_DMA` or of the handler keeps it.** -/
theorem start (h : InUse es hist s q) {b : Action Unit} {r : Sys Unit} {ev : List (Event Unit)}
    (hs : StepCase s.sys b r ev) (hcode : s.code ≠ [] → ∃ flags, b = .irq flags) {l : List Note}
    (ha : l.count .ask = b.asked.length) (hd : l.count .done = flushed ev) :
    ∃ hist' q', InUse (es ++ l) hist' (s.setSys r) q' := by
  obtain ⟨q', hq'⟩ := h.going.start hs
  have hlen := congrArg List.length hs.accepted_pending
  rw [List.length_append, List.length_append] at hlen
  refine ⟨hist ++ ev, q', hq', List.mem_append_left _ h.bound, fun hne => ?_, ?_, ?_⟩
  · obtain ⟨flags, rfl⟩ := hcode hne
    exact hs.idle (h.alone hne)
  · have hpend : pending (s.setSys r).sys = pending r := rfl
    rw [List.count_append, h.ask, ha, accepted_append, List.length_append, hpend]
    omega
  · rw [List.count_append, h.done, hd, flushed_append]

/-- **The ring is empty exactly when everything is done.** -/
theorem empty_iff (h : InUse es hist s q) (hp : pending s.sys = []) :
    (s.dev.busy = [] ∧ ∀ i, (s.drv.dmaBuffer i).isFull = false) ↔
      es.count .done = es.count .ask := by
  have hlen := h.going.ring.1.length_eq
  rw [h.ask, h.done, hp, List.length_nil, Nat.add_zero, hlen]
  constructor
  · rintro ⟨-, hfull⟩
    have hq : q = [] := by
      by_contra hne
      have hd := h.going.ring.1.isFull_drain_iff.mpr hne
      rw [show (s.sys.drv.dmaBuffer s.sys.drv.drain).isFull = false from hfull _] at hd
      cases hd
    rw [hq]
    rfl
  · intro he
    obtain rfl : q = [] := List.length_eq_zero_iff.mp (by omega)
    refine ⟨?_, fun i => ?_⟩
    · by_contra hne
      exact h.going.ring.1.ne_nil hne rfl
    · have hno := h.going.ring.1.rep.full_iff_exists i
      rw [Kyouko2.ring_full] at hno
      exact Bool.eq_false_iff.mpr fun ht => by
        obtain ⟨j, hj, -⟩ := hno.mp ht
        exact absurd hj (Nat.not_lt_zero j)

end InUse

namespace Books

theorem loaded : Books [] .loaded :=
  ⟨List.not_mem_nil, Or.inl
    { reset := .loaded
      mapped := fun h => Bool.noConfusion h
      full := fun _ => rfl
      ask := rfl
      done := rfl }⟩

/-- **At a reboot the ring is empty exactly when everything is done.** -/
theorem empty_iff (h : Books es s) {a : Act} (hr : Reboots s a)
    (hf : s.step a = some (s', ms)) :
    (s.dev.busy = [] ∧ ∀ i, (s.drv.dmaBuffer i).isFull = false) ↔
      es.count .done = es.count .ask := by
  rcases h.2 with hu | ⟨hist, q, hi⟩ | hs
  · exact iff_of_true ⟨hu.reset.busy, hu.full⟩ (hu.done.trans hu.ask.symm)
  · refine hi.empty_iff (pending_of_idle ?_)
    cases a with
    | call c => exact (Session.step_call hf).2.1
    | run ans =>
      refine hi.alone fun hnil => ?_
      rw [Reboots, hnil] at hr
      cases hr
    | irq flags => exact hr.elim
    | lose => exact hr.elim
  · -- the file is closed and the code left to run reboots nothing
    exfalso
    cases a with
    | call c =>
      cases c with
      | release => exact Bool.noConfusion (hs.shut.symm.trans (Session.step_release hf).1)
      | _ => exact hr
    | run ans => exact hs.code _ (List.mem_of_mem_head? hr) rfl
    | irq flags => exact hr
    | lose => exact hr

theorem note (h : .reboot true ∉ es) {l : List Note} (hl : .reboot true ∉ l) :
    .reboot true ∉ es ++ l := by
  rw [List.mem_append]
  rintro (he | he)
  · exact h he
  · exact hl he

/-- **A call keeps it.** -/
theorem call (h : Books es s) {c : Call} (hu : OneUse es s (.call c))
    (hd : RebootsDone es s (.call c)) (hf : s.step (.call c) = some (s', ms)) :
    Books (es ++ notes s (.call c)) s' := by
  obtain ⟨hcode, hpc, -⟩ := Session.step_call hf
  have hclosed : s.fileOpen = true → ¬ Shut es s := by
    intro hopen hs
    rw [hs.shut] at hopen
    cases hopen
  -- a call that is neither `open`, `release` nor `START_DMA`
  have hioctl : c ≠ .openDev → c ≠ .release → (∀ n, c ≠ .startDma n) →
      (c = .bindDma → .bind ∉ es) → .reboot true ∉ notes s (.call c) →
      .ask ∉ notes s (.call c) → .done ∉ notes s (.call c) →
        Books (es ++ notes s (.call c)) s' := by
    intro h1 h2 h3 hbind hnr hna hnd
    obtain ⟨hopen, rfl⟩ := Session.step_ioctl h1 h2 h3 hf
    refine ⟨note h.1 hnr, ?_⟩
    rcases h.2 with hf' | ⟨hist, q, hi⟩ | hs
    · exact Or.inl ((hf'.began hcode h2).note hna hnd)
    · have hb : c ≠ .bindDma := fun he => hbind he hi.bound
      refine Or.inr (Or.inl ⟨hist, q, ?_⟩)
      exact { hi.note hna hnd with
        going := ⟨hi.going.ring, Call.aside_code hb h2⟩
        alone := fun _ => hpc }
    · exact absurd hs (hclosed hopen)
  cases c with
  | openDev =>
    obtain ⟨-, rfl⟩ := Session.step_openDev hf
    have hnil : notes s (.call .openDev) = [] := rfl
    rw [hnil, List.append_nil]
    refine ⟨h.1, ?_⟩
    rcases h.2 with hf' | ⟨hist, q, hi⟩ | hs
    · exact Or.inl { hf' with reset := { hf'.reset with }, mapped := fun _ => rfl }
    · exact Or.inr (Or.inl ⟨hist, q, { hi with
        going := ⟨⟨hi.going.ring.1.remap, hi.going.ring.2⟩, hi.going.aside⟩ }⟩)
    · exact absurd hs.close hu
  | release =>
    obtain ⟨-, rfl⟩ := Session.step_release hf
    have hbusy := ((h.empty_iff (a := .call .release) trivial hf).mpr (hd trivial)).1
    refine ⟨note h.1 (by simp [hbusy]), Or.inr (Or.inr ⟨by simp, rfl, ?_⟩)⟩
    show ∀ x ∈ releaseCode, x ≠ .writeReg configReboot 1
    decide
  | startDma n =>
    obtain ⟨hopen, r, ev, hs, rfl⟩ := Session.step_startDma hf
    have hnote : (notes s (.call (.startDma n))).count .ask =
        (Action.startDma () n).asked.length := by
      by_cases h0 : n = 0 <;> simp [Action.asked, h0]
    have hnone : (notes s (.call (.startDma n))).count .done = flushed ev := by
      rw [hs.flushed_eq]
      by_cases h0 : n = 0 <;> simp [h0]
    have hin : ∃ hist q, InUse es hist s q := by
      rcases h.2 with hf' | hi | hs
      · exact ⟨_, _, hf'.inUse hcode hopen hu⟩
      · exact hi
      · exact absurd hs (hclosed hopen)
    obtain ⟨hist, q, hi⟩ := hin
    refine ⟨note h.1 ?_, Or.inr (Or.inl (hi.start hs (fun hne => absurd hcode hne) hnote hnone))⟩
    by_cases h0 : n = 0 <;> simp [h0]
  | bindDma =>
    exact hioctl (by simp) (by simp) (by simp) (fun _ => hu) (by simp) (by simp)
      (by simp)
  | vmode arg =>
    exact hioctl (by simp) (by simp) (by simp) (by simp) (by simp) (by simp)
      (by simp)
  | sync =>
    exact hioctl (by simp) (by simp) (by simp) (by simp) (by simp) (by simp)
      (by simp)
  | flush =>
    exact hioctl (by simp) (by simp) (by simp) (by simp) (by simp) (by simp)
      (by simp)
  | other =>
    exact hioctl (by simp) (by simp) (by simp) (by simp) (by simp) (by simp)
      (by simp)

/-- **A step inside a call keeps it.** -/
theorem run (h : Books es s) {ans : Answer} (hd : RebootsDone es s (.run ans))
    (hf : s.step (.run ans) = some (s', ms)) : Books (es ++ notes s (.run ans)) s' := by
  have hnr : .reboot true ∉ notes s (.run ans) := by
    by_cases hr : Reboots s (.run ans)
    · simp [((h.empty_iff hr hf).mpr (hd hr)).1]
    · simp [hr]
  have hna : .ask ∉ notes s (.run ans) := by
    rw [notes_run]
    split <;> simp
  have hnd : .done ∉ notes s (.run ans) := by
    rw [notes_run]
    split <;> simp
  refine ⟨note h.1 hnr, ?_⟩
  cases hc : s.code with
  | cons x rest =>
    have hi := Session.step_run_cons hc hf
    rcases h.2 with hu | ⟨hist, q, hi'⟩ | hs
    · exact Or.inl ((hu.instr hc hi).note hna hnd)
    · refine Or.inr (Or.inl ⟨hist, q, ?_⟩)
      obtain ⟨-, hpc, -⟩ := Session.instr_code hi
      have hidle := hi'.alone (by rw [hc]; simp)
      have hsys : pending s'.sys = pending s.sys := by
        rw [pending_of_idle (hpc.trans hidle), pending_of_idle hidle]
      exact { hi'.note hna hnd with
        going := hi'.going.instr hc hi
        alone := fun _ => hpc.trans hidle
        ask := hsys ▸ (hi'.note hna hnd).ask }
    · obtain ⟨hcode, -, hopen⟩ := Session.instr_code hi
      refine Or.inr (Or.inr ⟨List.mem_append_left _ hs.close, hopen.trans hs.shut, ?_⟩)
      intro y hy
      rw [hcode] at hy
      exact hs.code y (by rw [hc]; exact List.mem_cons_of_mem _ hy)
  | nil =>
    obtain ⟨r, ev, hs, rfl⟩ := Session.step_run_nil hc hf
    rcases h.2 with hu | ⟨hist, q, hi⟩ | hsh
    · -- nobody is inside `START_DMA`
      exact absurd hu.reset.idle hs.inside
    · refine Or.inr (Or.inl (hi.start hs (fun hne => absurd hc hne) ?_ ?_))
      · rw [List.count_eq_zero.mpr hna]
        rfl
      · rw [List.count_eq_zero.mpr hnd, hs.flushed_eq]
    · exact Or.inr (Or.inr { hsh with close := List.mem_append_left _ hsh.close })

/-- **An interrupt keeps it.** -/
theorem irq (h : Books es s) {flags : UInt32} (hf : s.step (.irq flags) = some (s', ms)) :
    Books (es ++ notes s (.irq flags)) s' := by
  have hnr : .reboot true ∉ notes s (.irq flags) := by
    rw [notes_irq]
    split <;> simp
  refine ⟨note h.1 hnr, ?_⟩
  rcases h.2 with hu | ⟨hist, q, hi⟩ | hsh
  · obtain ⟨rfl, hnil⟩ := hu.irq hf
    rw [hnil, List.append_nil]
    exact Or.inl hu
  · refine Or.inr (Or.inl ?_)
    by_cases hk : s.hooks = 0
    · obtain rfl := Session.step_irq_unhooked hk hf
      rw [notes_irq, if_pos (Or.inl hk), List.append_nil]
      exact ⟨hist, q, { hi with going := hi.going.unnoticed }⟩
    · obtain ⟨r, ev, hs, rfl⟩ := Session.step_irq_hooked hk hf
      refine hi.start hs (fun _ => ⟨flags, rfl⟩) ?_ ?_
      · simp only [notes_irq, hk, false_or]
        split <;> simp [Action.asked]
      · rw [hs.flushed_eq]
        simp only [notes_irq, hk, false_or]
        split <;> simp
  · refine Or.inr (Or.inr ?_)
    have hclose := List.mem_append_left (notes s (.irq flags)) hsh.close
    by_cases hk : s.hooks = 0
    · obtain rfl := Session.step_irq_unhooked hk hf
      exact ⟨hclose, hsh.shut, hsh.code⟩
    · obtain ⟨r, ev, hs, rfl⟩ := Session.step_irq_hooked hk hf
      exact ⟨hclose, hsh.shut, hsh.code⟩

/-- **One step keeps it**, when a reboot comes with everything done. -/
theorem step (h : Books es s) {a : Act} (hu : OneUse es s a) (hd : RebootsDone es s a)
    (hf : s.step a = some (s', ms)) : Books (es ++ notes s a) s' := by
  cases a with
  | call c => exact h.call hu hd hf
  | run ans => exact h.run hd hf
  | irq flags => exact h.irq hf
  | lose => exact absurd hu h.1

end Books

/-- **A reboot finds the ring empty exactly when everything asked for is done.**
In every run of one program, with any calls, arguments and interleaving with the
interrupts: its reboots all come with no request queued or in flight if and only
if, at each of them, the handler has been told of as many completions as
`START_DMA` calls have asked for. -/
theorem reboots_empty_iff {as : List Act} {es : List Note} {s : Session}
    (h : Run Session.noted .loaded as es s) (hu : AllSteps Session.noted .loaded OneUse as) :
    AllSteps Session.noted .loaded RebootsEmpty as ↔
      AllSteps Session.noted .loaded RebootsDone as := by
  have hiff : AllSteps Session.noted .loaded
      (fun es s a => OneUse es s a ∧ RebootsEmpty es s a) as ↔
      AllSteps Session.noted .loaded (fun es s a => OneUse es s a ∧ RebootsDone es s a) as := by
    refine allSteps_iff (I := Books) h .loaded ?_ ?_
    · rintro es s a s' es' hb ⟨hu, hd⟩ hf
      obtain ⟨⟨ms, hs⟩, rfl⟩ := Session.step_of_noted hf
      exact hb.step hu hd hs
    · intro es s a s' es' hb hf
      obtain ⟨⟨ms, hs⟩, -⟩ := Session.step_of_noted hf
      refine and_congr_right fun _ => ?_
      constructor
      · intro he hr
        exact (hb.empty_iff hr hs).mp (he hr)
      · intro hd hr
        exact (hb.empty_iff hr hs).mpr (hd hr)
  rw [allSteps_and, allSteps_and] at hiff
  constructor
  · intro hp
    exact (hiff.mp ⟨hu, hp⟩).2
  · intro hd
    exact (hiff.mpr ⟨hu, hd⟩).2

/-- The program that waits for its transfer and then closes the file. -/
theorem reboots_empty_oneSession : ∃ es s, Run Session.noted .loaded oneSession es s ∧
    AllSteps Session.noted .loaded RebootsEmpty oneSession := by
  obtain ⟨es, s, hr⟩ := exists_run_of_isSome Session.noted .loaded oneSession (by decide +kernel)
  have hdone : AllSteps Session.noted .loaded RebootsDone oneSession :=
    allSteps_of_check (by decide +kernel)
  exact ⟨es, s, hr, (reboots_empty_iff hr (allSteps_of_check (by decide +kernel))).mpr hdone⟩

/-- A program that asks for two transfers and turns the graphics off at once. -/
def offEarly : List Act :=
  [.call .openDev, .call .bindDma] ++ answerBind ++
    [.call (.startDma 148), .run noAnswer, .run noAnswer, .call (.startDma 152), .run noAnswer,
      .run noAnswer, .call (.vmode 0), .run noAnswer, .run noAnswer]

def closeEarly : List Act :=
  [.call .openDev, .call .bindDma] ++ answerBind ++
    [.call (.startDma 148), .run noAnswer, .run noAnswer, .call .release]

/-- **The card is reset with a transfer in flight**, and the ring keeps its
requests. -/
theorem reboot_in_flight :
    (AllSteps Session.noted .loaded OneUse offEarly ∧
      ¬ AllSteps Session.noted .loaded RebootsEmpty offEarly ∧
      ∃ es s, Run Session.noted .loaded offEarly es s ∧ .reboot true ∈ es ∧
        (s.drv.dmaBuffer 0).isFull = true ∧ (s.drv.dmaBuffer 1).isFull = true) ∧
      AllSteps Session.noted .loaded OneUse closeEarly ∧
      ¬ AllSteps Session.noted .loaded RebootsEmpty closeEarly :=
  ⟨⟨allSteps_of_check (by decide +kernel), not_allSteps_of_check (by decide +kernel),
    exists_run Session.noted .loaded _ (fun es s => .reboot true ∈ es ∧
      (s.drv.dmaBuffer 0).isFull = true ∧ (s.drv.dmaBuffer 1).isFull = true) (by decide +kernel)⟩,
    allSteps_of_check (by decide +kernel), not_allSteps_of_check (by decide +kernel)⟩

end LinuxKerDev.Dma
