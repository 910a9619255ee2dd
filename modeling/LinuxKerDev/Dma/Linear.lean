import LinuxKerDev.Dma.Solo

/-!
# `START_DMA` from many threads

The spin lock covers the middle of a `START_DMA` only.  The size goes through the
file-level `size` before it, and `fill` is read again after it, so a call has
three atomic steps that matter, and the steps of two calls may interleave.

A run is linear when its calls could have been made one after the other: there
is an order of the calls, with the interrupts among them, that leaves the same
ring and the same card, and in which each thread sees what it saw
(`Linearizes`).  In such an order every size is queued once, by its own caller,
and the caller is handed the buffer after the one its request went to (`shown`).

Two interleavings break this: another size is copied in between a call's
`copy_from_user` and its locked section, or another call's locked section comes
between its own and its read of `fill`.  Without them every run is linear
(`startDma_linear`), with the locked sections for the points where the calls
happen.
-/

namespace LinuxKerDev.Dma

open Lib

variable {τ : Type*}

/-! ### One call after the other -/

inductive Op (τ : Type*)
  | call (t : τ) (size : UInt32)
  | irq (flags : UInt32)
  deriving DecidableEq, Repr

def Op.actions : Op τ → List (Action τ)
  | .call t n => quickCall t n
  | .irq flags => [.irq flags]

def calls : List (Op τ) → Nat
  | [] => 0
  | .call _ _ :: os => calls os + 1
  | .irq _ :: os => calls os

/-- What calls made one after the other show, when `j` calls have gone before:
each size is queued once, and its caller is handed the buffer after that one. -/
def shown (ans : BindAnswers) : Nat → List (Op τ) → List (Event τ)
  | _, [] => []
  | j, .call t n :: os =>
    [.submit t n, .store t n, .handout t (ans.addr (Fin.ofNat BUFFERS (j + 1)))] ++
      shown ans (j + 1) os
  | j, .irq flags :: os => (if flags &&& 0x2 = 0 then [] else [.irq]) ++ shown ans j os

theorem calls_append (os' : List (Op τ)) : ∀ os : List (Op τ),
    calls (os ++ os') = calls os + calls os' := by
  intro os
  induction os with
  | nil => exact (Nat.zero_add _).symm
  | cons o os ih =>
    cases o with
    | call t n =>
      rw [List.cons_append, calls, calls, ih]
      omega
    | irq flags => exact ih

theorem shown_append (ans : BindAnswers) (os' : List (Op τ)) : ∀ (os : List (Op τ)) (j : Nat),
    shown ans j (os ++ os') = shown ans j os ++ shown ans (j + calls os) os' := by
  intro os
  induction os with
  | nil => intro j; rfl
  | cons o os ih =>
    intro j
    cases o with
    | call t n =>
      have hj : j + 1 + calls os = j + calls (Op.call t n :: os) := by
        rw [calls]
        omega
      rw [List.cons_append, shown, shown, ih, hj, List.append_assoc]
    | irq flags =>
      rw [List.cons_append, shown, shown, ih, List.append_assoc]
      rfl

/-- In calls made one after the other a size is queued by the thread that has
submitted it. -/
theorem submit_mem_shown {ans : BindAnswers} {t : τ} {n : UInt32} : ∀ (os : List (Op τ)) (j : Nat),
    .store t n ∈ shown ans j os → .submit t n ∈ shown ans j os := by
  intro os
  induction os with
  | nil =>
    intro j h
    cases h
  | cons o os ih =>
    intro j h
    cases o with
    | call u m =>
      rw [shown, List.mem_append] at h ⊢
      refine h.imp (fun h => ?_) (ih (j + 1))
      simp only [List.mem_cons, reduceCtorEq, Event.store.injEq, List.not_mem_nil, or_false,
        false_or] at h
      obtain ⟨rfl, rfl⟩ := h
      exact List.mem_cons_self
    | irq flags =>
      rw [shown, List.mem_append] at h ⊢
      refine h.imp (fun h => ?_) (ih j)
      split at h <;> simp at h

def effects (es : List (Event τ)) : List (Event τ) :=
  es.filter fun
    | .store _ _ | .irq => true
    | _ => false

@[simp] theorem effects_append (es es' : List (Event τ)) :
    effects (es ++ es') = effects es ++ effects es' := List.filter_append ..

def Event.thread : Event τ → Option τ
  | .submit t _ | .store t _ | .handout t _ => some t
  | .irq => none

section

variable [DecidableEq τ]

def byThread (t : τ) (es : List (Event τ)) : List (Event τ) :=
  es.filter fun e => decide (e.thread = some t)

/-- **The calls `os`, one after the other, explain a run**: they leave the same ring
and the same card behind, the requests were queued and taken off in that order,
and every thread has seen the same. -/
structure Linearizes (ans : BindAnswers) (k : Kyouko2) (os : List (Op τ)) (es : List (Event τ))
    (s : Sys τ) : Prop where
  run : ∃ s', Run step (.afterBind ans k) (os.flatMap Op.actions) (shown ans 0 os) s' ∧
    s'.drv.ring = s.drv.ring ∧ s'.dev = s.dev
  effects : effects (shown ans 0 os) = effects es
  thread : ∀ t, byThread t (shown ans 0 os) = byThread t es

@[simp] theorem byThread_append (t : τ) (es es' : List (Event τ)) :
    byThread t (es ++ es') = byThread t es ++ byThread t es' := List.filter_append ..

theorem byThread_self {t : τ} {e : Event τ} (h : e.thread = some t) : byThread t [e] = [e] := by
  simp [byThread, h]

theorem byThread_other {t : τ} {e : Event τ} (h : e.thread ≠ some t) : byThread t [e] = [] := by
  simp [byThread, h]

/-! ### The runs in question -/

/-- No call asks for nothing, and none finds the ring full. -/
def NeverFull (_ : List (Event τ)) (s : Sys τ) : Action τ → Prop
  | .startDma _ n => n ≠ 0
  | .run t => s.pc t = .entered →
      ¬ (s.drv.fill = s.drv.drain ∧ (s.drv.dmaBuffer s.drv.fill).isFull = true)
  | .irq _ => True

/-- No size is copied over another one that a call has yet to read, and no call
enters the locked section while another one has yet to read `fill`. -/
def Unmixed (_ : List (Event τ)) (s : Sys τ) : Action τ → Prop
  | .startDma t n => ∀ u, u ≠ t → s.pc u = .entered → n = s.drv.size
  | .run t => s.pc t = .entered → ∀ u, u ≠ t → s.pc u ≠ .copyOut
  | .irq _ => True

end

/-! ### The locked section and the handler -/

theorem threadStep_entered (t : τ) {k : Kyouko2} (d : Device) (h0 : k.size ≠ 0)
    (hno : ¬ (k.fill = k.drain ∧ (k.dmaBuffer k.fill).isFull = true)) :
    ∃ d', threadStep t k d .entered = some (k.store k.size, d', .copyOut, [.store t k.size]) := by
  rw [threadStep, initiateTransfer, if_neg h0]
  by_cases hfd : k.fill = k.drain
  · have hfull : ¬ (k.dmaBuffer k.fill).isFull = true := fun hf => hno ⟨hfd, hf⟩
    refine ⟨program d (k.dmaHandle k.fill).toUInt32 k.size, ?_⟩
    rw [if_pos hfd, if_neg hfull]
    simp only [h0, if_false]
  · refine ⟨d, ?_⟩
    rw [if_neg hfd]
    simp only [h0, if_false]

def Kyouko2.setSize (k : Kyouko2) (n : UInt32) : Kyouko2 := { k with size := n }

section

variable (k : Kyouko2) (n : UInt32)

theorem setSize_size : k.setSize k.size = k := rfl

end

theorem dmaInterrupt_setSize (k : Kyouko2) (d : Device) (flags n : UInt32) :
    dmaInterrupt (k.setSize n) d flags =
      ((dmaInterrupt k d flags).1.setSize n, (dmaInterrupt k d flags).2) := by
  by_cases hf : flags &&& 0x2 = 0
  · rw [dmaInterrupt_none hf, dmaInterrupt_none hf]
  by_cases hfd : k.fill = k.drain
  · have hfd' : (k.setSize n).fill = (k.setSize n).drain := hfd
    cases hfull : (k.dmaBuffer k.fill).isFull with
    | true =>
      rw [dmaInterrupt_full hf hfd hfull, dmaInterrupt_full hf hfd' hfull]
      rfl
    | false => rw [dmaInterrupt_stray hf hfd hfull, dmaInterrupt_stray hf hfd' hfull]
  · have hfd' : (k.setSize n).fill ≠ (k.setSize n).drain := hfd
    by_cases hlast : k.fill = k.drain + 1
    · rw [dmaInterrupt_last hf hlast, dmaInterrupt_last (k := k.setSize n) hf hlast]
      rfl
    · rw [dmaInterrupt_more hf hfd hlast, dmaInterrupt_more hf hfd' hlast]
      rfl

theorem dmaInterrupt_keeps (k : Kyouko2) (d : Device) (flags : UInt32) :
    (dmaInterrupt k d flags).1.fill = k.fill ∧ (dmaInterrupt k d flags).1.size = k.size ∧
      (dmaInterrupt k d flags).1.userVirtAddr = k.userVirtAddr := by
  simp only [dmaInterrupt]
  split_ifs <;> exact ⟨rfl, rfl, rfl⟩

/-! ### The invariant -/

section

variable [DecidableEq τ] {ans : BindAnswers} {k : Kyouko2}

def begun (s : Sys τ) (t : τ) : List (Event τ) :=
  if s.pc t = .entered then [.submit t s.drv.size] else []

/-- What a thread has still to show of a call that has happened. -/
def owed (s : Sys τ) (t : τ) : List (Event τ) :=
  if s.pc t = .copyOut then [.handout t (s.drv.userVirtAddr s.drv.fill)] else []

/-- The calls `os` are the ones that have been through the locked section.  Made
one after the other they lead to `s'`, which is `s` but for `size` and for the
calls that are on their way. -/
structure Follows (ans : BindAnswers) (k : Kyouko2) (es : List (Event τ)) (s : Sys τ)
    (os : List (Op τ)) (s' : Sys τ) : Prop where
  run : Run step (.afterBind ans k) (os.flatMap Op.actions) (shown ans 0 os) s'
  drv : ∃ n, s'.drv = s.drv.setSize n
  dev : s'.dev = s.dev
  idle : ∀ t, s'.pc t = .idle
  fill : s.drv.fill = Fin.ofNat BUFFERS (calls os)
  addr : ∀ i, s.drv.userVirtAddr i = ans.addr i
  pcs : ∀ t, s.pc t = .idle ∨ s.pc t = .entered ∧ s.drv.size ≠ 0 ∨ s.pc t = .copyOut
  effects : Dma.effects (shown ans 0 os) = Dma.effects es
  thread : ∀ t, byThread t (shown ans 0 os) ++ begun s t = byThread t es ++ owed s t

namespace Follows

variable {es : List (Event τ)} {s s' : Sys τ} {os : List (Op τ)}

theorem afterBind : Follows ans k [] (.afterBind ans k) ([] : List (Op τ)) (.afterBind ans k) where
  run := .nil
  drv := ⟨_, (setSize_size (Sys.afterBind ans k : Sys τ).drv).symm⟩
  dev := rfl
  idle _ := rfl
  fill := bindDma_fill ans (k, [])
  addr := bindDma_userVirtAddr ans (k, [])
  pcs _ := Or.inl rfl
  effects := rfl
  thread t := by
    have hpc : (Sys.afterBind ans k : Sys τ).pc t = .idle := rfl
    simp [begun, owed, hpc, shown]

/-- A step that another thread does not see. -/
theorem thread_other (h : Follows ans k es s os s') {u : τ} {es' : List (Event τ)} {s₂ : Sys τ}
    (he : byThread u es' = []) (hpc : s₂.pc u = s.pc u)
    (hb : s.pc u = .entered → s₂.drv.size = s.drv.size)
    (ho : s.pc u = .copyOut →
      s₂.drv.userVirtAddr s₂.drv.fill = s.drv.userVirtAddr s.drv.fill) :
    byThread u (shown ans 0 os) ++ begun s₂ u = byThread u (es ++ es') ++ owed s₂ u := by
  have hbegun : begun s₂ u = begun s u := by
    rw [begun, begun, hpc]
    split
    · next hp => rw [hb hp]
    · rfl
  have howed : owed s₂ u = owed s u := by
    rw [owed, owed, hpc]
    split
    · next hp => rw [ho hp]
    · rfl
  rw [hbegun, howed, byThread_append, he, List.append_nil]
  exact h.thread u

/-- **A size is copied in.** -/
theorem submit (h : Follows ans k es s os s') {t : τ} (hpc : s.pc t = .idle) {n : UInt32}
    (h0 : n ≠ 0) (hu : ∀ u, u ≠ t → s.pc u = .entered → n = s.drv.size) :
    Follows ans k (es ++ [.submit t n])
      ({ s with drv := { s.drv with size := n } }.setPc t .entered) os s' where
  run := h.run
  drv := h.drv
  dev := h.dev
  idle := h.idle
  fill := h.fill
  addr := h.addr
  pcs u := by
    by_cases hut : u = t
    · subst hut
      exact Or.inr (Or.inl ⟨Function.update_self _ _ _, h0⟩)
    · have hsame : ({ s with drv := { s.drv with size := n } }.setPc t .entered).pc u = s.pc u :=
        Function.update_of_ne hut _ _
      rw [hsame]
      exact (h.pcs u).imp id (Or.imp (fun hp => ⟨hp.1, h0⟩) id)
  effects := by
    rw [effects_append, h.effects]
    exact (List.append_nil _).symm
  thread u := by
    by_cases hut : u = t
    · subst hut
      have ht := h.thread u
      rw [begun, owed, hpc, if_neg (by simp), if_neg (by simp), List.append_nil,
        List.append_nil] at ht
      have hpc' : ({ s with drv := { s.drv with size := n } }.setPc u .entered).pc u = .entered :=
        Function.update_self _ _ _
      rw [begun, owed, hpc', if_pos rfl, if_neg (by simp), byThread_append, byThread_self rfl, ht,
        List.append_nil]
      rfl
    · refine h.thread_other (byThread_other ?_) (Function.update_of_ne hut _ _)
        (fun hp => hu u hut hp) fun _ => rfl
      rintro ⟨⟩
      exact hut rfl

theorem run_call (h : Follows ans k es s os s') {t : τ} {d' : Device}
    (hst : threadStep t s.drv s.dev .entered =
      some (s.drv.store s.drv.size, d', .copyOut, [.store t s.drv.size])) :
    ∃ s'', Run step (.afterBind ans k) ((os ++ [Op.call t s.drv.size]).flatMap Op.actions)
        (shown ans 0 (os ++ [Op.call t s.drv.size])) s'' ∧
      s''.drv = s.drv.store s.drv.size ∧ s''.dev = d' ∧ ∀ u, s''.pc u = .idle := by
  obtain ⟨m, hm⟩ := h.drv
  -- once the size is copied in, the driver is as in `s`
  have hdrv : ({ s'.drv with size := s.drv.size } : Kyouko2) = s.drv := by
    rw [hm]
    exact setSize_size s.drv
  have h₁ : step s' (.startDma t s.drv.size) =
      some (({ s with pc := s'.pc } : Sys τ).setPc t .entered, [.submit t s.drv.size]) := by
    rw [step, if_pos (h.idle t), hdrv, h.dev]
  have h₂ : step (({ s with pc := s'.pc } : Sys τ).setPc t .entered) (.run t) =
      some (({ drv := s.drv.store s.drv.size, dev := d', pc := s'.pc } : Sys τ).setPc t .copyOut,
        [.store t s.drv.size]) := by
    simp only [step, Sys.setPc, Function.update_self, hst, Option.map_some, Function.update_idem]
  have h₃ : step (({ drv := s.drv.store s.drv.size, dev := d', pc := s'.pc } : Sys τ).setPc t
        .copyOut) (.run t) =
      some (({ drv := s.drv.store s.drv.size, dev := d', pc := s'.pc } : Sys τ).setPc t .idle,
        [.handout t (s.drv.userVirtAddr (s.drv.fill + 1))]) := by
    simp only [step, Sys.setPc, Function.update_self, threadStep, Option.map_some,
      Function.update_idem, Kyouko2.store_fill, Kyouko2.store_userVirtAddr]
  have haddr : s.drv.userVirtAddr (s.drv.fill + 1) =
      ans.addr (Fin.ofNat BUFFERS (0 + calls os + 1)) := by
    rw [h.addr, h.fill, Nat.zero_add]
    exact congrArg ans.addr (ofNat_succ _)
  refine ⟨({ drv := s.drv.store s.drv.size, dev := d', pc := s'.pc } : Sys τ).setPc t .idle, ?_,
    rfl, rfl, fun u => ?_⟩
  · have hrun := ((h.run.snoc h₁).snoc h₂).snoc h₃
    rw [haddr] at hrun
    rw [List.flatMap_append, shown_append]
    simpa only [shown, List.flatMap_cons, List.flatMap_nil, Op.actions, quickCall,
      List.append_assoc, List.append_nil, List.cons_append, List.nil_append] using hrun
  · show Function.update s'.pc t .idle u = .idle
    by_cases hut : u = t
    · rw [hut, Function.update_self]
    · rw [Function.update_of_ne hut, h.idle]

omit [DecidableEq τ] in
/-- What a call shows: the size, the request stored, and the address handed out. -/
theorem shown_call (ans : BindAnswers) (os : List (Op τ)) (t : τ) (n : UInt32) :
    shown ans 0 (os ++ [Op.call t n]) = shown ans 0 os ++
      ([.submit t n, .store t n, .handout t (ans.addr (Fin.ofNat BUFFERS (calls os + 1)))] :
        List (Event τ)) := by
  rw [shown_append, Nat.zero_add]
  rfl

/-- The thread whose call happens has shown the size and owes the address. -/
theorem thread_call (h : Follows ans k es s os s') {t : τ} (hpc : s.pc t = .entered)
    (d' : Device) :
    byThread t (shown ans 0 (os ++ [.call t s.drv.size])) ++
        begun (({ s with drv := s.drv.store s.drv.size, dev := d' } : Sys τ).setPc t .copyOut) t =
      byThread t (es ++ [.store t s.drv.size]) ++
        owed (({ s with drv := s.drv.store s.drv.size, dev := d' } : Sys τ).setPc t .copyOut) t := by
  have ht := h.thread t
  rw [begun, owed, hpc, if_pos rfl, if_neg (by simp), List.append_nil] at ht
  have hpc' :
      (({ s with drv := s.drv.store s.drv.size, dev := d' } : Sys τ).setPc t .copyOut).pc t =
        .copyOut := Function.update_self _ _ _
  have haddr : ans.addr (Fin.ofNat BUFFERS (calls os + 1)) =
      s.drv.userVirtAddr (s.drv.fill + 1) := by
    rw [h.addr, h.fill]
    exact congrArg ans.addr (ofNat_succ _).symm
  have hnew : byThread t [.submit t s.drv.size, .store t s.drv.size,
      .handout t (ans.addr (Fin.ofNat BUFFERS (calls os + 1)))] =
      [.submit t s.drv.size, .store t s.drv.size,
        .handout t (s.drv.userVirtAddr (s.drv.fill + 1))] := by
    rw [haddr]
    simp [byThread, Event.thread]
  rw [shown_call, byThread_append, hnew, begun, owed, hpc', if_neg (by simp), if_pos rfl,
    byThread_append, byThread_self rfl, ← ht]
  simp [Sys.setPc]

/-- A call shows nothing of the other threads. -/
theorem byThread_call {t u : τ} (hut : u ≠ t) (n : UInt32) :
    byThread u (shown ans 0 (os ++ [.call t n])) = byThread u (shown ans 0 os) := by
  have hnew : byThread u [.submit t n, .store t n,
      .handout t (ans.addr (Fin.ofNat BUFFERS (calls os + 1)))] = [] := by
    simp [byThread, Event.thread, Ne.symm hut]
  rw [shown_call, byThread_append, hnew, List.append_nil]

/-- **A call happens**: it goes through the locked section. -/
theorem call (h : Follows ans k es s os s') {t : τ} (hpc : s.pc t = .entered)
    (hu : ∀ u, u ≠ t → s.pc u ≠ .copyOut) {d' : Device}
    (hst : threadStep t s.drv s.dev .entered =
      some (s.drv.store s.drv.size, d', .copyOut, [.store t s.drv.size])) :
    ∃ s'', Follows ans k (es ++ [.store t s.drv.size])
      (({ s with drv := s.drv.store s.drv.size, dev := d' } : Sys τ).setPc t .copyOut)
      (os ++ [.call t s.drv.size]) s'' := by
  obtain ⟨s'', hrun, hdrv, hdev, hidle⟩ := h.run_call hst
  have hpcs : ∀ u, u ≠ t →
      (({ s with drv := s.drv.store s.drv.size, dev := d' } : Sys τ).setPc t .copyOut).pc u =
        s.pc u :=
    fun u hut => Function.update_of_ne hut _ _
  refine ⟨s'', {
    run := hrun
    drv := ⟨s.drv.size, hdrv⟩
    dev := hdev
    idle := hidle
    fill := ?_
    addr := fun i => (congrFun (s.drv.store_userVirtAddr s.drv.size) i).trans (h.addr i)
    pcs := fun u => ?_
    effects := ?_
    thread := fun u => ?_ }⟩
  · show s.drv.fill + 1 = Fin.ofNat BUFFERS (calls (os ++ [.call t s.drv.size]))
    rw [calls_append, h.fill]
    exact ofNat_succ _
  · by_cases hut : u = t
    · subst hut
      exact Or.inr (Or.inr (Function.update_self _ _ _))
    · rw [hpcs u hut]
      exact h.pcs u
  · rw [shown_call, effects_append, effects_append, h.effects]
    rfl
  · by_cases hut : u = t
    · subst hut
      exact h.thread_call hpc d'
    · have hother : (Event.store t s.drv.size).thread ≠ some u := by
        rintro ⟨⟩
        exact hut rfl
      rw [byThread_call hut]
      exact h.thread_other (byThread_other hother) (hpcs u hut) (fun _ => rfl)
        fun hp => absurd hp (hu u hut)

/-- **An address is copied out.** -/
theorem copyOut (h : Follows ans k es s os s') {t : τ} (hpc : s.pc t = .copyOut) :
    Follows ans k (es ++ [.handout t (s.drv.userVirtAddr s.drv.fill)]) (s.setPc t .idle) os s' where
  run := h.run
  drv := h.drv
  dev := h.dev
  idle := h.idle
  fill := h.fill
  addr := h.addr
  pcs u := by
    by_cases hut : u = t
    · subst hut
      exact Or.inl (Function.update_self _ _ _)
    · have hsame : (s.setPc t .idle).pc u = s.pc u := Function.update_of_ne hut _ _
      rw [hsame]
      exact h.pcs u
  effects := by
    rw [effects_append, h.effects]
    exact (List.append_nil _).symm
  thread u := by
    by_cases hut : u = t
    · subst hut
      have ht := h.thread u
      rw [begun, owed, hpc, if_neg (by simp), if_pos rfl, List.append_nil] at ht
      have hpc' : (s.setPc u .idle).pc u = .idle := Function.update_self _ _ _
      rw [begun, owed, hpc', if_neg (by simp), if_neg (by simp), byThread_append,
        byThread_self rfl, ht, List.append_nil]
    · refine h.thread_other (byThread_other ?_) (Function.update_of_ne hut _ _) (fun _ => rfl)
        fun _ => rfl
      rintro ⟨⟩
      exact hut rfl

theorem interrupted (h : Follows ans k es s os s') {d : Device} {flags : UInt32}
    {ev : List (Event τ)} (hev : shown ans (calls os) [.irq flags] = ev)
    (hst : step s' (.irq flags) = some (s'.interrupted (dmaInterrupt s'.drv d flags), ev)) :
    Follows ans k (es ++ ev) (s.interrupted (dmaInterrupt s.drv d flags)) (os ++ [.irq flags])
      (s'.interrupted (dmaInterrupt s'.drv d flags)) := by
  obtain ⟨m, hm⟩ := h.drv
  obtain ⟨hfill, hsize, haddr⟩ := dmaInterrupt_keeps s.drv d flags
  have hirq := dmaInterrupt_setSize s.drv d flags m
  rw [← hm] at hirq
  -- nobody is asleep
  have hpc : ∀ u, (s.interrupted (dmaInterrupt s.drv d flags)).pc u = s.pc u := by
    intro u
    show (if _ then fun t => (s.pc t).wake else s.pc) u = s.pc u
    split
    · show (s.pc u).wake = s.pc u
      rcases h.pcs u with hp | ⟨hp, -⟩ | hp <;> rw [hp] <;> rfl
    · rfl
  have hshown : shown ans 0 (os ++ [.irq flags]) = shown ans 0 os ++ ev := by
    rw [shown_append, Nat.zero_add, hev]
  have hnone : ∀ u, byThread u ev = [] := by
    intro u
    rw [← hev, shown]
    split <;> rfl
  refine ⟨?_, ⟨m, ?_⟩, ?_, fun u => ?_, ?_, fun i => ?_, fun u => ?_, ?_, fun u => ?_⟩
  · rw [List.flatMap_append, hshown]
    exact h.run.snoc hst
  · exact congrArg Prod.fst hirq
  · exact congrArg (fun r => r.2.1) hirq
  · show (if _ then fun t => (s'.pc t).wake else s'.pc) u = .idle
    split
    · show (s'.pc u).wake = .idle
      rw [h.idle u]
      rfl
    · exact h.idle u
  · rw [calls_append]
    exact hfill.trans h.fill
  · exact (congrFun haddr i).trans (h.addr i)
  · rw [hpc]
    exact (h.pcs u).imp id (Or.imp (fun hp => ⟨hp.1, fun h0 => hp.2 (hsize.symm.trans h0)⟩) id)
  · rw [hshown, effects_append, effects_append, h.effects]
  · rw [hshown, byThread_append, hnone, List.append_nil]
    refine h.thread_other (hnone u) (hpc u) (fun _ => hsize) fun _ => ?_
    show (dmaInterrupt s.drv d flags).1.userVirtAddr (dmaInterrupt s.drv d flags).1.fill = _
    rw [hfill, haddr]

/-- **An interrupt.** -/
theorem irq (h : Follows ans k es s os s') {flags : UInt32} {s₂ : Sys τ} {ev : List (Event τ)}
    (hf : step s (.irq flags) = some (s₂, ev)) :
    ∃ s'', Follows ans k (es ++ ev) s₂ (os ++ [.irq flags]) s'' := by
  rw [step] at hf
  by_cases h0 : flags &&& 0x2 = 0
  · rw [if_pos h0] at hf
    obtain ⟨rfl, rfl⟩ := Prod.mk.inj (Option.some.inj hf)
    exact ⟨_, h.interrupted (by simp [shown, h0]) (by rw [step, if_pos h0, h.dev])⟩
  · rw [if_neg h0, Option.ite_none_left_eq_some] at hf
    obtain ⟨hb, hf⟩ := hf
    obtain ⟨rfl, rfl⟩ := Prod.mk.inj (Option.some.inj hf)
    exact ⟨_, h.interrupted (by simp [shown, h0]) (by rw [step, if_neg h0, h.dev, if_neg hb])⟩

/-- **One step of a run in question.** -/
theorem step (h : Follows ans k es s os s') {a : Action τ} (hn : NeverFull es s a)
    (hu : Unmixed es s a) {s₂ : Sys τ} {ev : List (Event τ)}
    (hf : Dma.step s a = some (s₂, ev)) : ∃ os' s'', Follows ans k (es ++ ev) s₂ os' s'' := by
  cases a with
  | startDma t n =>
    rw [Dma.step, Option.ite_none_right_eq_some] at hf
    obtain ⟨hpc, hf⟩ := hf
    obtain ⟨rfl, rfl⟩ := Prod.mk.inj (Option.some.inj hf)
    exact ⟨os, s', h.submit hpc hn hu⟩
  | irq flags =>
    obtain ⟨s'', hs⟩ := h.irq hf
    exact ⟨_, s'', hs⟩
  | run t =>
    rw [Dma.step] at hf
    rcases h.pcs t with hpc | ⟨hpc, h0⟩ | hpc
    · rw [hpc] at hf
      cases hf
    · obtain ⟨d', hst⟩ := threadStep_entered t s.dev h0 (hn hpc)
      rw [hpc, hst] at hf
      obtain ⟨rfl, rfl⟩ := Prod.mk.inj (Option.some.inj hf)
      obtain ⟨s'', hs⟩ := h.call hpc (hu hpc) hst
      exact ⟨_, s'', hs⟩
    · rw [hpc] at hf
      obtain ⟨rfl, rfl⟩ := Prod.mk.inj (Option.some.inj hf)
      exact ⟨os, s', h.copyOut hpc⟩

/-- With nobody inside, the calls explain the run. -/
theorem linearizes (h : Follows ans k es s os s') (hidle : ∀ t, s.pc t = .idle) :
    Linearizes ans k os es s where
  run := by
    obtain ⟨n, hn⟩ := h.drv
    refine ⟨s', h.run, ?_, h.dev⟩
    rw [hn]
    rfl
  effects := h.effects
  thread t := by
    have ht := h.thread t
    rwa [begun, owed, hidle t, if_neg (by simp), if_neg (by simp), List.append_nil,
      List.append_nil] at ht

end Follows

variable {as : List (Action τ)} {es : List (Event τ)} {s : Sys τ}

/-- **Unmixed runs are linear.**  Any number of threads, any nonzero sizes, any
interleaving of their steps and the interrupts in which no call finds the ring
full: if no size is copied over one that is still to be read, and no call goes
through the locked section while another one has still to read `fill`, the calls
could have been made one after the other. -/
theorem startDma_linear (h : Run step (.afterBind ans k) as es s)
    (hn : AllSteps step (.afterBind ans k) NeverFull as)
    (hu : AllSteps step (.afterBind ans k) Unmixed as) (hidle : ∀ t, s.pc t = .idle) :
    ∃ os, Linearizes ans k os es s := by
  have hg := allSteps_and.mpr ⟨hn, hu⟩
  have hinv : ∃ os s', Follows ans k es s os s' := by
    refine h.inv_of_guard (I := fun es s => ∃ os s', Follows ans k es s os s') hg ?_ ?_
    · exact ⟨[], _, .afterBind⟩
    · rintro es s a s₂ ev ⟨os, s', hi⟩ hg hf
      exact hi.step hg.1 hg.2 hf
  obtain ⟨os, s', hs⟩ := hinv
  exact ⟨os, hs.linearizes hidle⟩

instance (es : List (Event τ)) (s : Sys τ) (a : Action τ) : Decidable (NeverFull es s a) := by
  unfold NeverFull
  split <;> infer_instance

instance [Fintype τ] (es : List (Event τ)) (s : Sys τ) (a : Action τ) :
    Decidable (Unmixed es s a) := by
  unfold Unmixed
  split <;> infer_instance

/-- A run in which a thread queues a size that it has not submitted is not linear. -/
theorem Linearizes.submit_mem {os : List (Op τ)} (h : Linearizes ans k os es s) {t : τ}
    {n : UInt32} (hs : .store t n ∈ es) : .submit t n ∈ es := by
  have heff : Event.store t n ∈ Dma.effects es := List.mem_filter.mpr ⟨hs, rfl⟩
  rw [← h.effects] at heff
  have hsub := submit_mem_shown os 0 (List.mem_of_mem_filter heff)
  have hby : Event.submit t n ∈ byThread t (shown ans 0 os) :=
    List.mem_filter.mpr ⟨hsub, decide_eq_true rfl⟩
  rw [h.thread] at hby
  exact List.mem_of_mem_filter hby

end

/-- Two threads whose calls overlap, but not where it matters. -/
def overlapped : List (Action Bool) :=
  [.startDma false 5, .run false, .startDma true 7, .run false, .run true, .irq 2, .run true]

theorem startDma_linear_overlapped : ∃ es s,
    Run step (.afterBind someAnswers .zeroed) overlapped es s ∧
      ∃ os, Linearizes someAnswers .zeroed os es s := by
  obtain ⟨es, s, hr, hidle⟩ := exists_run step (.afterBind someAnswers .zeroed) overlapped
    (fun _ s => ∀ t, s.pc t = .idle) (by decide +kernel)
  exact ⟨es, s, hr, startDma_linear hr (allSteps_of_check (by decide +kernel))
    (allSteps_of_check (by decide +kernel)) hidle⟩

/-- The second size is copied in before the first is read. -/
def mixedSizes : List (Action Bool) :=
  [.startDma false 5, .startDma true 7, .run false, .run true, .run false, .run true]

/-- The second request is queued before the first caller reads `fill`. -/
def mixedAddresses : List (Action Bool) :=
  [.startDma false 5, .run false, .startDma true 7, .run true, .run false, .run true]

/-- **Mixed runs need not be linear**: one caller's size is queued twice and the
other's not at all; or both are handed the same next buffer. -/
theorem mixed_not_linear :
    AllSteps step (.afterBind someAnswers .zeroed) NeverFull mixedSizes ∧
    (∃ es s, Run step (.afterBind someAnswers .zeroed) mixedSizes es s ∧
      (∀ t, s.pc t = .idle) ∧ ¬ ∃ os, Linearizes someAnswers .zeroed os es s) ∧
    AllSteps step (.afterBind someAnswers .zeroed) NeverFull mixedAddresses ∧
    ∃ es s, Run step (.afterBind someAnswers .zeroed) mixedAddresses es s ∧
      .handout false (someAnswers.addr 2) ∈ es ∧ .handout true (someAnswers.addr 2) ∈ es := by
  refine ⟨allSteps_of_check (by decide +kernel), ?_, allSteps_of_check (by decide +kernel), ?_⟩
  · obtain ⟨es, s, hr, hidle, hst, hsub⟩ := exists_run step (.afterBind someAnswers .zeroed)
      mixedSizes (fun es s => (∀ t, s.pc t = .idle) ∧ .store false 7 ∈ es ∧ .submit false 7 ∉ es)
      (by decide +kernel)
    refine ⟨es, s, hr, hidle, ?_⟩
    rintro ⟨os, hos⟩
    exact hsub (hos.submit_mem hst)
  · exact exists_run step (.afterBind someAnswers .zeroed) mixedAddresses
      (fun es _ => .handout false (someAnswers.addr 2) ∈ es ∧
        .handout true (someAnswers.addr 2) ∈ es) (by decide +kernel)

end LinuxKerDev.Dma
