import LinuxKerDev.DriverC.Shape
import LinuxKerDev.Lib.Ledger

/-!
# What a session of `driver.c` owns

The driver keeps no list of what it has acquired: the two mappings, the MSI, the
interrupt and the eight buffers hang on one flag.  `Session.Has` says what is owned
by the code that is still to run: an item is owned once its instruction has gone
by, up to the one that gives it back.  Under at most one `BIND_DMA` at a time this
is what the log leaves (`Holds.log`), and what the card, the hook and the
allocator know (`Holds`).
-/

namespace LinuxKerDev.DriverC

open Lib LockOp Dma
open Cards (Region)

/-! ### Ownership -/

namespace Session

/-- While this holds an item whose instruction has gone by is owned. -/
def Scope (s : Session) : Item → Prop
  | .mapping _ => s.fileOpen = true
  | _ => s.Bound

def Has (s : Session) (k : Item) : Prop := s.Scope k ∧ k.acq ∉ s.code ∨ k.rel ∈ s.code

inductive Change
  | same
  | gain (k : Item)
  | lose (k : Item)

def Change.of : Instr → Change
  | .ioremap r => .gain (.mapping r)
  | .enableMsi => .gain .msi
  | .requestIrq => .gain .irq
  | .allocSlot i => .gain (.buffer i)
  | .iounmap r => .lose (.mapping r)
  | .disableMsi => .lose .msi
  | .freeIrq => .lose .irq
  | .freeSlot i => .lose (.buffer i)
  | _ => .same

def Changes (s s' : Session) : Change → Prop
  | .same => ∀ k, s'.Has k ↔ s.Has k
  | .gain k₀ => ¬ s.Has k₀ ∧ ∀ k, s'.Has k ↔ k = k₀ ∨ s.Has k
  | .lose k₀ => s.Has k₀ ∧ ∀ k, s'.Has k ↔ k ≠ k₀ ∧ s.Has k

theorem named_gain {s s' : Session} {k : Item} (hc : s.Changes s' (.gain k))
    (hs : ∀ j : Item, s.Has j → j.resource s'.drv = j.resource s.drv) (r : Resource) :
    (∃ j : Item, s'.Has j ∧ j.resource s'.drv = r) ↔
      r = k.resource s'.drv ∨ ∃ j : Item, s.Has j ∧ j.resource s.drv = r := by
  constructor
  · rintro ⟨j, hj, rfl⟩
    rcases (hc.2 j).mp hj with rfl | hj
    · exact Or.inl rfl
    · exact Or.inr ⟨j, hj, (hs j hj).symm⟩
  · rintro (rfl | ⟨j, hj, rfl⟩)
    · exact ⟨k, (hc.2 k).mpr (Or.inl rfl), rfl⟩
    · exact ⟨j, (hc.2 j).mpr (Or.inr hj), hs j hj⟩

/-- The names of what is owned, after an item has been given back whose name no other has. -/
theorem named_lose {s s' : Session} {k : Item} (hc : s.Changes s' (.lose k))
    (hd : s'.drv = s.drv)
    (hinj : ∀ j : Item, s.Has j → j.resource s.drv = k.resource s.drv → j = k) (r : Resource) :
    (∃ j : Item, s'.Has j ∧ j.resource s'.drv = r) ↔
      r ≠ k.resource s.drv ∧ ∃ j : Item, s.Has j ∧ j.resource s.drv = r := by
  rw [hd]
  constructor
  · rintro ⟨j, hj, rfl⟩
    obtain ⟨hne, hj⟩ := (hc.2 j).mp hj
    exact ⟨fun he => hne (hinj j hj he), j, hj, rfl⟩
  · rintro ⟨hne, j, hj, rfl⟩
    exact ⟨j, (hc.2 j).mpr ⟨fun he => hne (he ▸ rfl), hj⟩, rfl⟩

end Session

namespace Shape

variable {s s' : Session} {es : List (LockOp Resource)} {x : Instr} {rest : List Instr} {k : Item}

theorem has_open (h : Shape s) (ho : s.fileOpen = true) : s.Has k ↔ s.Scope k ∧ k.acq ∉ s.code := by
  have hrel : k.rel ∉ s.code := fun hin => by
    have hfree := ((h.openTail ho).frees _ hin).1
    rw [Instr.frees_rel] at hfree
    cases hfree
  rw [Session.Has, or_iff_left hrel]

theorem not_scope (ho : s.fileOpen = false) : ¬ s.Scope k := by
  intro hs
  have hopen : s.fileOpen = true := by
    cases k with
    | mapping r => exact hs
    | _ => exact hs.1
  rw [ho] at hopen
  cases hopen

theorem has_closed (ho : s.fileOpen = false) : s.Has k ↔ k.rel ∈ s.code := by
  rw [Session.Has, or_iff_right fun hs => not_scope ho hs.1]

theorem scope_acq (h : Shape s) (ho : s.fileOpen = true) (hin : k.acq ∈ s.code) : s.Scope k := by
  have ht := h.openTail ho
  have hirq : .requestIrq ∈ s.code → s.Bound := fun hr => ⟨ho, (h.binding hr).symm⟩
  cases k with
  | mapping r => exact ho
  | msi => exact hirq (ht.hook hin)
  | irq => exact hirq hin
  | buffer i => exact ⟨ho, Or.inr (ht.slot i hin)⟩

theorem scope_next (h : Shape s) (ho : s.fileOpen = true) (hc : s.code = x :: rest)
    (hcode : s'.code = rest) (hfile : s'.fileOpen = s.fileOpen)
    (hflag : s'.dmaMapped = x.flag s.dmaMapped) : s'.Scope k ↔ s.Scope k := by
  have hx := ((h.openTail ho).frees x (by simp [hc])).2
  have hbound : s'.Bound ↔ s.Bound := by
    rw [Session.Bound, Session.Bound, hfile, hcode, hc, hflag, List.mem_cons]
    refine and_congr_right fun _ => ?_
    by_cases hset : x = .setMapped
    · exact iff_of_true (Or.inl (by rw [hset]; rfl)) (Or.inr (Or.inl hset.symm))
    · rw [Instr.flag_eq hset hx, or_iff_right (Ne.symm hset)]
  cases k with
  | mapping r => exact Iff.of_eq (congrArg (· = true) hfile)
  | _ => exact hbound

theorem scope_iff (ho : s.fileOpen = true) (hc : s.code = []) :
    s.Scope k ↔ s.dmaMapped = true ∨ ∃ r, k = .mapping r := by
  have hbound : s.Bound ↔ s.dmaMapped = true := by
    rw [Session.Bound, and_iff_right ho, hc, or_iff_left List.not_mem_nil]
  cases k with
  | mapping r => exact iff_of_true ho (Or.inr ⟨r, rfl⟩)
  | _ => exact hbound.trans (by simp)

theorem changes_next (h : Shape s) (h' : Shape s') (hc : s.code = x :: rest)
    (hcode : s'.code = rest) (hfile : s'.fileOpen = s.fileOpen)
    (hflag : s'.dmaMapped = x.flag s.dmaMapped) :
    (∀ k : Item, x = k.acq → s.Changes s' (.gain k)) ∧
      (∀ k : Item, x = k.rel → s.Changes s' (.lose k)) ∧
      (x.gets = false → x.frees = false → s.Changes s' .same) := by
  have hmem : x ∈ s.code := by simp [hc]
  by_cases ho : s.fileOpen = true
  · have ht := h.openTail ho
    have hscope : ∀ k, s'.Scope k ↔ s.Scope k := fun k => h.scope_next ho hc hcode hfile hflag
    have hhas : ∀ k, s.Has k ↔ s.Scope k ∧ k.acq ≠ x ∧ k.acq ∉ rest := fun k => by
      rw [h.has_open ho, hc, List.mem_cons, not_or]
    have hhas' : ∀ k, s'.Has k ↔ s.Scope k ∧ k.acq ∉ rest := fun k => by
      rw [h'.has_open (hfile.trans ho), hscope, hcode]
    refine ⟨?_, ?_, ?_⟩
    · rintro k rfl
      have honce : k.acq ∉ rest := by
        simpa [hc] using ht.once k.acq (by simp [hc]) (Or.inl (Instr.gets_acq k))
      refine ⟨fun hk => ((hhas k).mp hk).2.1 rfl, fun j => ?_⟩
      rw [hhas', hhas]
      by_cases hj : j = k
      · subst hj
        exact iff_of_true ⟨h.scope_acq ho hmem, honce⟩ (Or.inl rfl)
      · rw [or_iff_right hj, and_iff_right fun he => hj (Item.acq_inj he)]
    · rintro k rfl
      have hfree := (ht.frees _ hmem).1
      rw [Instr.frees_rel] at hfree
      cases hfree
    · intro hg _ k
      have hne : k.acq ≠ x := fun he => by
        rw [← he, Instr.gets_acq] at hg
        cases hg
      rw [hhas', hhas, and_iff_right hne]
  · replace ho : s.fileOpen = false := Bool.eq_false_iff.mpr ho
    have ht := h.closeTail ho
    have hhas : ∀ k, s.Has k ↔ k.rel = x ∨ k.rel ∈ rest := fun k => by
      rw [has_closed ho, hc, List.mem_cons]
    have hhas' : ∀ k, s'.Has k ↔ k.rel ∈ rest := fun k => by
      rw [has_closed (hfile.trans ho), hcode]
    refine ⟨?_, ?_, ?_⟩
    · rintro k rfl
      have hget := (ht.gets _ hmem).1
      rw [Instr.gets_acq] at hget
      cases hget
    · rintro k rfl
      have honce : k.rel ∉ rest := by
        simpa [hc] using ht.once k.rel (by simp [hc]) (Or.inl (Instr.frees_rel k))
      refine ⟨(hhas k).mpr (Or.inl rfl), fun j => ?_⟩
      rw [hhas', hhas]
      by_cases hj : j = k
      · subst hj
        exact iff_of_false honce fun hn => hn.1 rfl
      · rw [and_iff_right hj, or_iff_right fun he => hj (Item.rel_inj he)]
    · intro _ hf k
      have hne : k.rel ≠ x := fun he => by
        rw [← he, Instr.frees_rel] at hf
        cases hf
      rw [hhas', hhas, or_iff_right hne]

/-- `VMODE` off goes on to instructions that acquire nothing and give nothing back. -/
theorem changes_tested (h : Shape s) (ho : s.fileOpen = true) (hc : s.code = .testMapped :: rest) :
    s.Changes { s with code := offCode s.dmaMapped ++ rest } .same := by
  have hrest : rest = [] := by simpa [hc] using (h.openTail ho).last .testMapped (by simp [hc])
  have hquiet : ∀ b, ∀ x ∈ offCode b, x.gets = false ∧ x.frees = false ∧ x ≠ .setMapped := by decide
  intro k
  have hacq : k.acq ∉ offCode s.dmaMapped := fun hin => by
    have hget := (hquiet _ _ hin).1
    rw [Instr.gets_acq] at hget
    cases hget
  have hacq' : k.acq ∉ s.code := fun hin => by
    rw [hc, hrest, List.mem_singleton] at hin
    cases k <;> cases hin
  have hscope : Session.Scope { s with code := offCode s.dmaMapped ++ rest } k ↔ s.Scope k := by
    have hset : .setMapped ∉ offCode s.dmaMapped := fun hin => (hquiet _ _ hin).2.2 rfl
    cases k with
    | mapping r => exact Iff.rfl
    | _ => simp [Session.Scope, Session.Bound, hc, hrest, hset]
  rw [(h.tested ho hc).has_open ho, h.has_open ho, hscope, and_iff_left hacq',
    and_iff_left (by rwa [hrest, List.append_nil])]

/-- **What an instruction acquires or gives back is its own item.** -/
theorem changes_instr (h : Shape s) (h' : Shape s') {ans : Answer} (hc : s.code = x :: rest)
    (hf : s.instr ans rest x = some (s', es)) : s.Changes s' (.of x) := by
  cases Session.flow_of_instr hf with
  | next hx hcode _ hfile hflag =>
    obtain ⟨hgain, hlose, hsame⟩ := h.changes_next h' hc hcode hfile hflag
    cases x with
    | ioremap r => exact hgain (.mapping r) rfl
    | enableMsi => exact hgain .msi rfl
    | requestIrq => exact hgain .irq rfl
    | allocSlot i => exact hgain (.buffer i) rfl
    | iounmap r => exact hlose (.mapping r) rfl
    | disableMsi => exact hlose .msi rfl
    | freeIrq => exact hlose .irq rfl
    | freeSlot i => exact hlose (.buffer i) rfl
    | _ => exact hsame rfl rfl
  | wait => exact fun k => Iff.rfl
  | test =>
    by_cases ho : s.fileOpen = true
    · exact h.changes_tested ho hc
    · have ht := h.closeTail (Bool.eq_false_iff.mpr ho)
      exact absurd rfl (ht.gets .testMapped (by simp [hc])).2.2

/-- No item changes hands in a call's first step, if it is not a second `BIND_DMA`. -/
theorem changes_enter (h : Shape s) (hcode : s.code = []) {c : Call}
    (hg : c = .bindDma → s.dmaMapped = false) (he : Session.Entered s c s') :
    s.Changes s' .same := by
  intro k
  cases he with
  | opened ho =>
    have hflag := h.clear ho hcode
    rw [has_closed ho, hcode]
    refine iff_of_false ?_ List.not_mem_nil
    rintro (⟨hscope, hacq⟩ | hrel)
    · cases k with
      | mapping r => exact hacq (by cases r <;> simp [Item.acq, Call.code])
      | _ => simp [Session.Scope, Session.Bound, hflag, Call.code] at hscope
    · cases k <;> simp [Item.rel, Call.code] at hrel
  | closed ho =>
    rw [h.has_open ho, hcode, and_iff_left List.not_mem_nil, has_closed rfl]
    show k.rel ∈ Call.release.code s.dmaMapped ↔ _
    rw [Item.rel_mem_release, scope_iff ho hcode]
  | refused _ _ => rfl
  | submitted _ _ _ => rfl
  | began ho h1 h2 h3 =>
    rw [h.has_open ho, hcode, and_iff_left List.not_mem_nil, scope_iff ho hcode]
    by_cases hbind : c = .bindDma
    · subst hbind
      have hflag := hg rfl
      cases k with
      | mapping r => simp [Session.Has, Session.Scope, ho, Item.acq, Call.code, bindCode, bindRound]
      | _ => simp [Session.Has, hflag, Item.acq, Item.rel, Call.code, bindCode, bindRound]
    · have hq : ∀ x ∈ c.code s.dmaMapped, x.gets = false ∧ x.frees = false ∧ x ≠ .setMapped :=
        Call.code_quiet h1 h2 hbind _
      have hacq : k.acq ∉ c.code s.dmaMapped := fun hin => by
        have hget := (hq _ hin).1
        rw [Instr.gets_acq] at hget
        cases hget
      have hrel : k.rel ∉ c.code s.dmaMapped := fun hin => by
        have hfree := (hq _ hin).2.1
        rw [Instr.frees_rel] at hfree
        cases hfree
      have hset : .setMapped ∉ c.code s.dmaMapped := fun hin => (hq _ hin).2.2 rfl
      rw [Session.Has, or_iff_left hrel, and_iff_left hacq]
      cases k with
      | mapping r => exact iff_of_true ho (Or.inr ⟨r, rfl⟩)
      | _ => simp [Session.Scope, Session.Bound, ho, hset]

end Shape

/-! ### Who knows what is owned -/

def SameBuffers (k k' : Kyouko2) : Prop :=
  ∀ i, k'.dmaHandle i = k.dmaHandle i ∧ (k'.dmaBuffer i).buffer = (k.dmaBuffer i).buffer

theorem SameBuffers.resource {k k' : Kyouko2} (h : SameBuffers k k') (x : Item) :
    x.resource k' = x.resource k := by
  cases x with
  | buffer i =>
    show Resource.buffer _ _ = Resource.buffer _ _
    rw [(h i).1, (h i).2]
  | _ => rfl

theorem SameBuffers.refl (k : Kyouko2) : SameBuffers k k := fun _ => ⟨rfl, rfl⟩

theorem SameBuffers.updSlot (k : Kyouko2) (i : Fin BUFFERS) (g : DmaBuffer → DmaBuffer)
    (hg : ∀ b, (g b).buffer = b.buffer) : SameBuffers k (k.updSlot i g) := by
  intro j
  refine ⟨rfl, ?_⟩
  rw [Kyouko2.updSlot_dmaBuffer]
  split
  · next hj => rw [hg, hj]
  · rfl

/-- `START_DMA` and the handler work on `isFull` and `count`. -/
theorem SameBuffers.of_stepCase {s r : Sys Unit} {a : Action Unit} {ev : List (Event Unit)}
    (h : StepCase s a r ev) : SameBuffers s.drv r.drv := by
  have hstore : ∀ n, SameBuffers s.drv (s.drv.store n) := fun n =>
    SameBuffers.updSlot s.drv s.drv.fill (fun b => { b with isFull := true, count := n }) fun _ => rfl
  have hretire : SameBuffers s.drv s.drv.retire :=
    SameBuffers.updSlot s.drv s.drv.drain (fun b => { b with isFull := false }) fun _ => rfl
  cases h with
  | launch _ _ _ _ | queue _ _ _ => exact hstore _
  | relock _ => exact hstore _
  | irqFull _ _ _ _ | irqMore _ _ _ _ | irqLast _ _ _ _ => exact hretire
  | _ => exact .refl _

@[simp] theorem writeReg_mapped (d : Device) (reg : Reg) (value : UInt32) :
    (writeReg d reg value).mapped = d.mapped := by
  unfold writeReg
  split <;> rfl

def Granted (_ : List (LockOp Resource)) (s : Session) : Act → Prop
  | .run ans =>
    match s.code with
    | .allocSlot _ :: _ => ans.buffer ≠ 0
    | .requestIrq :: _ => ans.hooked = true
    | _ => True
  | _ => True

instance (es : List (LockOp Resource)) (s : Session) (a : Act) : Decidable (Granted es s a) := by
  unfold Granted
  split
  · split <;> infer_instance
  · infer_instance

def Unbound (_ : List (LockOp Resource)) (s : Session) (a : Act) : Prop :=
  a = .call .bindDma → s.dmaMapped = false

instance (es : List (LockOp Resource)) (s : Session) (a : Act) : Decidable (Unbound es s a) := by
  unfold Unbound
  infer_instance

/-- The allocator's list is that of the slots that own a buffer. -/
structure Buffers (s : Session) : Prop where
  live : ∀ h, h ∈ s.live ↔ ∃ i, s.Has (.buffer i) ∧ s.drv.dmaHandle i = h
  nodup : s.live.Nodup
  fits : ∀ h ∈ s.live, h.toNat + bufferBytes ≤ 2 ^ 32
  apart : ∀ i j, s.Has (.buffer i) → s.Has (.buffer j) →
    s.drv.dmaHandle i = s.drv.dmaHandle j → i = j

namespace Buffers

variable {s s' : Session} {i : Fin BUFFERS}

theorem keep (h : Buffers s) (hc : ∀ i, s'.Has (.buffer i) ↔ s.Has (.buffer i))
    (hl : s'.live = s.live) (hb : SameBuffers s.drv s'.drv) : Buffers s' := by
  refine ⟨fun a => ?_, hl ▸ h.nodup, hl ▸ h.fits, fun i j hi hj hij => ?_⟩
  · rw [hl, h.live]
    exact exists_congr fun i => by rw [hc, (hb i).1]
  · rw [hc] at hi hj
    rw [(hb i).1, (hb j).1] at hij
    exact h.apart i j hi hj hij

theorem fresh (_ : Buffers s) {ans : Answer} (hlaw : ans.lawful s.live) (hb : ans.buffer ≠ 0) :
    ans.handle ∉ s.live := by
  intro hin
  rcases (hlaw hb).2 _ hin with hle | hle <;> simp [bufferBytes] at hle

theorem alloc (h : Buffers s) {ans : Answer} (hlaw : ans.lawful s.live) (hb : ans.buffer ≠ 0)
    (hc : s.Changes s' (.gain (.buffer i))) (hl : s'.live = ans.handle :: s.live)
    (hd : s'.drv = s.drv.allocSlot i ans.buffer ans.handle) : Buffers s' := by
  have hfresh := h.fresh hlaw hb
  have hself : s'.drv.dmaHandle i = ans.handle := by simp [hd, Kyouko2.allocSlot]
  have hother : ∀ j, j ≠ i → s'.drv.dmaHandle j = s.drv.dmaHandle j := fun j hj => by
    simp [hd, Kyouko2.allocSlot, hj]
  have hhas : ∀ j, s'.Has (.buffer j) ↔ j = i ∨ s.Has (.buffer j) := fun j => by
    rw [hc.2, Item.buffer.injEq]
  have hne : ∀ j, s.Has (.buffer j) → j ≠ i := fun j hj he => hc.1 (he ▸ hj)
  have hold : ∀ j, s.Has (.buffer j) → s'.drv.dmaHandle j ∈ s.live := fun j hj => by
    rw [hother j (hne j hj), h.live]
    exact ⟨j, hj, rfl⟩
  refine ⟨fun a => ?_, ?_, ?_, fun j j' hj hj' hij => ?_⟩
  · rw [hl, List.mem_cons, h.live]
    constructor
    · rintro (rfl | ⟨j, hj, rfl⟩)
      · exact ⟨i, (hhas i).mpr (Or.inl rfl), hself⟩
      · exact ⟨j, (hhas j).mpr (Or.inr hj), hother j (hne j hj)⟩
    · rintro ⟨j, hj, rfl⟩
      rcases (hhas j).mp hj with rfl | hj
      · exact Or.inl hself
      · exact Or.inr ⟨j, hj, (hother j (hne j hj)).symm⟩
  · rw [hl]
    exact List.nodup_cons.mpr ⟨hfresh, h.nodup⟩
  · rw [hl]
    intro a ha
    rcases List.mem_cons.mp ha with rfl | ha
    · exact (hlaw hb).1
    · exact h.fits a ha
  · rcases (hhas j).mp hj with rfl | hj <;> rcases (hhas j').mp hj' with rfl | hj'
    · rfl
    · have hin := hold j' hj'
      rw [← hij, hself] at hin
      exact absurd hin hfresh
    · have hin := hold j hj
      rw [hij, hself] at hin
      exact absurd hin hfresh
    · rw [hother j (hne j hj), hother j' (hne j' hj')] at hij
      exact h.apart j j' hj hj' hij

theorem free (h : Buffers s) (hc : s.Changes s' (.lose (.buffer i)))
    (hl : s'.live = s.live.erase (s.drv.dmaHandle i)) (hd : s'.drv = s.drv) : Buffers s' := by
  have hhas : ∀ j, s'.Has (.buffer j) ↔ j ≠ i ∧ s.Has (.buffer j) := fun j => by
    rw [hc.2, ne_eq, Item.buffer.injEq]
  refine ⟨fun a => ?_, ?_, fun a ha => ?_, fun j j' hj hj' hij => ?_⟩
  · rw [hl, h.nodup.mem_erase_iff, h.live, hd]
    constructor
    · rintro ⟨hne, j, hj, rfl⟩
      exact ⟨j, (hhas j).mpr ⟨fun he => hne (he ▸ rfl), hj⟩, rfl⟩
    · rintro ⟨j, hj, rfl⟩
      obtain ⟨hne, hj⟩ := (hhas j).mp hj
      exact ⟨fun he => hne (h.apart j i hj hc.1 he), j, hj, rfl⟩
  · rw [hl]
    exact h.nodup.erase _
  · rw [hl] at ha
    exact h.fits a (List.mem_of_mem_erase ha)
  · rw [hd] at hij
    exact h.apart j j' ((hhas j).mp hj).2 ((hhas j').mp hj').2 hij

end Buffers

/-- **What a session owns, and who knows it**: the card whether its registers can be
reached, the hook, the allocator, and the log. -/
structure Holds (es : List (LockOp Resource)) (s : Session) : Prop where
  control : s.dev.mapped = true ↔ s.Has (.mapping .control)
  hooked : s.hooks = 1 ∧ s.Has .irq ∨ s.hooks = 0 ∧ ¬ s.Has .irq
  buffers : Buffers s
  log : Leaves es fun r => ∃ k : Item, s.Has k ∧ k.resource s.drv = r

namespace Holds

variable {s s' : Session} {es : List (LockOp Resource)} {k : Item}

theorem resource_inj (h : Holds es s) {j : Item} (hj : s.Has j) (hk : s.Has k)
    (he : j.resource s.drv = k.resource s.drv) : j = k := by
  by_cases hbuf : ∃ i, k = .buffer i
  · obtain ⟨i, rfl⟩ := hbuf
    cases j with
    | buffer i' => rw [h.buffers.apart _ _ hj hk (Resource.buffer.inj he).2]
    | _ => cases he
  · exact Item.resource_inj (fun i hi => hbuf ⟨i, hi⟩) he

theorem same (h : Holds es s) (hc : s.Changes s' .same) (hm : s'.dev.mapped = s.dev.mapped)
    (hk : s'.hooks = s.hooks) (hl : s'.live = s.live) (hb : SameBuffers s.drv s'.drv) :
    Holds es s' := by
  refine ⟨?_, ?_, h.buffers.keep (fun i => hc _) hl hb, h.log.congr fun r => ?_⟩
  · rw [hm, hc]
    exact h.control
  · rw [hk, hc]
    exact h.hooked
  · exact exists_congr fun k => by rw [hc, hb.resource]

theorem gain (h : Holds es s) (hne : ∀ i, k ≠ .buffer i) (hc : s.Changes s' (.gain k))
    (hm : s'.dev.mapped = true ↔ k = .mapping .control ∨ s.dev.mapped = true)
    (hk : s'.hooks = if k = .irq then s.hooks + 1 else s.hooks) (hl : s'.live = s.live)
    (hd : s'.drv = s.drv) : Holds (es ++ [.acquire (k.resource s.drv)]) s' := by
  refine ⟨?_, ?_, h.buffers.keep (fun i => ?_) hl (hd ▸ fun i => ⟨rfl, rfl⟩),
    h.log.acquire ?_ fun r => ?_⟩
  · rw [hm, hc.2, eq_comm (a := k)]
    exact or_congr_right h.control
  · by_cases hirq : k = .irq
    · subst hirq
      have h0 : s.hooks = 0 := (h.hooked.resolve_left fun hl => hc.1 hl.2).1
      exact Or.inl ⟨by rw [hk, if_pos rfl, h0], (hc.2 _).mpr (Or.inl rfl)⟩
    · rw [hk, if_neg hirq, hc.2, or_iff_right (Ne.symm hirq)]
      exact h.hooked
  · rw [hc.2, or_iff_right (Ne.symm (hne i))]
  · rintro ⟨j, hj, he⟩
    exact hc.1 (Item.resource_inj hne he ▸ hj)
  · have hres : k.resource s'.drv = k.resource s.drv := by rw [hd]
    rw [← hres]
    exact Session.named_gain hc (fun j _ => by rw [hd]) r

theorem lose (h : Holds es s) (hne : ∀ i, k ≠ .buffer i) (hc : s.Changes s' (.lose k))
    (hm : s'.dev.mapped = true ↔ k ≠ .mapping .control ∧ s.dev.mapped = true)
    (hk : s'.hooks = if k = .irq then s.hooks - 1 else s.hooks) (hl : s'.live = s.live)
    (hd : s'.drv = s.drv) : Holds (es ++ [.release (k.resource s.drv)]) s' := by
  refine ⟨?_, ?_, h.buffers.keep (fun i => ?_) hl (hd ▸ fun i => ⟨rfl, rfl⟩),
    h.log.release ⟨k, hc.1, rfl⟩ fun r => Session.named_lose hc hd
      (fun j hj he => h.resource_inj hj hc.1 he) r⟩
  · rw [hm, hc.2, ne_comm]
    exact and_congr_right fun _ => h.control
  · by_cases hirq : k = .irq
    · subst hirq
      have h1 : s.hooks = 1 := (h.hooked.resolve_right fun hl => hl.2 hc.1).1
      exact Or.inr ⟨by rw [hk, if_pos rfl, h1], fun hn => ((hc.2 _).mp hn).1 rfl⟩
    · rw [hk, if_neg hirq, hc.2, and_iff_right (Ne.symm hirq)]
      exact h.hooked
  · rw [hc.2, and_iff_right (Ne.symm (hne i))]

theorem alloc (h : Holds es s) {i : Fin BUFFERS} {ans : Answer} (hlaw : ans.lawful s.live)
    (hb : ans.buffer ≠ 0) (hc : s.Changes s' (.gain (.buffer i)))
    (hm : s'.dev.mapped = s.dev.mapped) (hk : s'.hooks = s.hooks)
    (hl : s'.live = ans.handle :: s.live)
    (hd : s'.drv = s.drv.allocSlot i ans.buffer ans.handle) :
    Holds (es ++ [.acquire (.buffer ans.buffer ans.handle)]) s' := by
  have hself : (Item.buffer i).resource s'.drv = .buffer ans.buffer ans.handle := by
    simp [hd, Item.resource, Kyouko2.allocSlot, Kyouko2.updSlot]
  have hother : ∀ j : Item, s.Has j → j.resource s'.drv = j.resource s.drv := by
    intro j hj
    cases j with
    | buffer j =>
      have hji : j ≠ i := fun he => hc.1 (he ▸ hj)
      simp [hd, Item.resource, Kyouko2.allocSlot, Kyouko2.updSlot, hji]
    | _ => rfl
  refine ⟨?_, ?_, h.buffers.alloc hlaw hb hc hl hd, h.log.acquire ?_ fun r => ?_⟩
  · rw [hm, hc.2, or_iff_right (by simp)]
    exact h.control
  · have hirq : s'.Has .irq ↔ s.Has .irq := (hc.2 _).trans (or_iff_right (by simp))
    rw [hk, hirq]
    exact h.hooked
  · rintro ⟨j, hj, he⟩
    cases j with
    | buffer j =>
      have hin : ans.handle ∈ s.live := (h.buffers.live _).mpr ⟨j, hj, (Resource.buffer.inj he).2⟩
      exact h.buffers.fresh hlaw hb hin
    | _ => cases he
  · rw [← hself]
    exact Session.named_gain hc hother r

theorem free (h : Holds es s) {i : Fin BUFFERS} (hc : s.Changes s' (.lose (.buffer i)))
    (hm : s'.dev.mapped = s.dev.mapped) (hk : s'.hooks = s.hooks)
    (hl : s'.live = s.live.erase (s.drv.dmaHandle i)) (hd : s'.drv = s.drv) :
    Holds (es ++ [.release ((Item.buffer i).resource s.drv)]) s' := by
  refine ⟨?_, ?_, h.buffers.free hc hl hd, h.log.release ⟨_, hc.1, rfl⟩ fun r =>
    Session.named_lose hc hd (fun j hj he => h.resource_inj hj hc.1 he) r⟩
  · rw [hm, hc.2, and_iff_right (by simp)]
    exact h.control
  · have hirq : s'.Has .irq ↔ s.Has .irq := (hc.2 _).trans (and_iff_right (by simp))
    rw [hk, hirq]
    exact h.hooked

theorem instr (h : Holds es s) (hs : Shape s) {ans : Answer} {x : Instr} {rest : List Instr}
    {es' : List (LockOp Resource)} (hcode : s.code = x :: rest)
    (hg : Granted es s (.run ans)) (hf : s.instr ans rest x = some (s', es')) :
    Holds (es ++ es') s' := by
  have hstep : s.step (.run ans) = some (s', es') := by
    rw [Session.step, hcode]
    exact hf
  have hc := hs.changes_instr (hs.step hstep) hcode hf
  rw [Granted, hcode] at hg
  cases x with
  | ioremap r =>
    cases r <;> obtain ⟨rfl, rfl⟩ := Prod.mk.inj (Option.some.inj hf)
    · exact h.gain (by simp) hc (by simp) rfl rfl rfl
    · exact h.gain (by simp) hc (by simp) rfl rfl rfl
  | enableMsi =>
    obtain ⟨rfl, rfl⟩ := Prod.mk.inj (Option.some.inj hf)
    exact h.gain (by simp) hc (by simp) rfl rfl rfl
  | requestIrq =>
    replace hg : ans.hooked = true := hg
    rw [Session.instr, hg, if_pos rfl, if_pos rfl] at hf
    obtain ⟨rfl, rfl⟩ := Prod.mk.inj (Option.some.inj hf)
    exact h.gain (by simp) hc (by simp) rfl rfl rfl
  | allocSlot i =>
    replace hg : ans.buffer ≠ 0 := hg
    rw [Session.instr, Option.ite_none_right_eq_some, if_neg hg, if_neg hg] at hf
    obtain ⟨hlaw, hf⟩ := hf
    obtain ⟨rfl, rfl⟩ := Prod.mk.inj (Option.some.inj hf)
    exact h.alloc hlaw hg hc rfl rfl rfl rfl
  | iounmap r =>
    cases r <;> obtain ⟨rfl, rfl⟩ := Prod.mk.inj (Option.some.inj hf)
    · exact h.lose (by simp) hc (by simp) rfl rfl rfl
    · exact h.lose (by simp) hc (by simp) rfl rfl rfl
  | disableMsi =>
    obtain ⟨rfl, rfl⟩ := Prod.mk.inj (Option.some.inj hf)
    exact h.lose (by simp) hc (by simp) rfl rfl rfl
  | freeIrq =>
    obtain ⟨rfl, rfl⟩ := Prod.mk.inj (Option.some.inj hf)
    exact h.lose (by simp) hc (by simp) rfl rfl rfl
  | freeSlot i =>
    obtain ⟨rfl, rfl⟩ := Prod.mk.inj (Option.some.inj hf)
    exact h.free hc rfl rfl rfl rfl
  | waitEmpty i =>
    rw [Session.instr] at hf
    split at hf <;> obtain ⟨rfl, rfl⟩ := Prod.mk.inj (Option.some.inj hf) <;> rw [List.append_nil]
    · exact h
    · exact h.same hc rfl rfl rfl (.refl _)
  | writeReg reg value =>
    obtain ⟨rfl, rfl⟩ := Prod.mk.inj (Option.some.inj hf)
    rw [List.append_nil]
    exact h.same hc (writeReg_mapped _ _ _) rfl rfl (.refl _)
  | clearFull i =>
    obtain ⟨rfl, rfl⟩ := Prod.mk.inj (Option.some.inj hf)
    rw [List.append_nil]
    exact h.same hc rfl rfl rfl (.updSlot s.drv i (fun b => { b with isFull := false }) fun _ => rfl)
  | clearCount i =>
    obtain ⟨rfl, rfl⟩ := Prod.mk.inj (Option.some.inj hf)
    rw [List.append_nil]
    exact h.same hc rfl rfl rfl (.updSlot s.drv i (fun b => { b with count := 0 }) fun _ => rfl)
  | _ =>
    obtain ⟨rfl, rfl⟩ := Prod.mk.inj (Option.some.inj hf)
    rw [List.append_nil]
    exact h.same hc rfl rfl rfl fun _ => ⟨rfl, rfl⟩

theorem start (h : Holds es s) {a : Action Unit} {r : Sys Unit} {ev : List (Event Unit)}
    (hs : StepCase s.sys a r ev) : Holds es (s.setSys r) :=
  h.same (fun _ => Iff.rfl) hs.mapped rfl rfl (.of_stepCase hs)

/-- **A step keeps it**, if it is not a second `BIND_DMA` and what it asks for is
granted. -/
theorem step (h : Holds es s) (hs : Shape s) {a : Act} (hg : Granted es s a)
    (hu : Unbound es s a) {es' : List (LockOp Resource)} (hf : s.step a = some (s', es')) :
    Holds (es ++ es') s' := by
  cases a with
  | call c =>
    obtain ⟨hcode, -, he, rfl⟩ := Session.step_call hf
    have hent := Session.entered_of_enter he
    have hc := hs.changes_enter hcode (fun hb => hu (congrArg Act.call hb)) hent
    rw [List.append_nil]
    cases hent with
    | refused _ _ => exact h
    | submitted _ _ hst => exact h.start hst
    | _ => exact h.same hc rfl rfl rfl (.refl _)
  | run ans =>
    cases hcode : s.code with
    | nil =>
      obtain ⟨rfl, r, ev, hst, rfl⟩ := Session.step_run_nil hcode hf
      rw [List.append_nil]
      exact h.start hst
    | cons x rest => exact h.instr hs hcode hg (Session.step_run_cons hcode hf)
  | irq flags =>
    by_cases hk : s.hooks = 0
    · obtain ⟨rfl, rfl⟩ := Session.step_irq_unhooked hk hf
      rw [List.append_nil]
      exact h.same (fun _ => Iff.rfl) rfl rfl rfl (.refl _)
    · obtain ⟨rfl, r, ev, hst, rfl⟩ := Session.step_irq_hooked hk hf
      rw [List.append_nil]
      exact h.start hst

theorem loaded : Holds [] .loaded := by
  have hnot : ∀ k : Item, ¬ Session.loaded.Has k := by
    rintro k (⟨hk, -⟩ | hk)
    · exact Shape.not_scope rfl hk
    · exact List.not_mem_nil hk
  refine ⟨iff_of_false nofun (hnot _), Or.inr ⟨rfl, hnot _⟩, ⟨fun a => ?_, List.nodup_nil, nofun,
    fun i j hi => absurd hi (hnot _)⟩, leaves_nil ?_⟩
  · exact iff_of_false List.not_mem_nil fun ⟨i, hi, _⟩ => hnot _ hi
  · rintro r ⟨k, hk, -⟩
    exact hnot k hk

end Holds

/-- **While `BIND_DMA` is called once at a time, the log, the card, the hook and the
allocator agree on what is owned.** -/
theorem holds_of_run {as : List Act} {es : List (LockOp Resource)} {s : Session}
    (h : Run Session.step .loaded as es s) (hg : AllSteps Session.step .loaded Granted as)
    (hu : AllSteps Session.step .loaded Unbound as) : Holds es s := by
  have hi := h.inv_of_guard (I := fun es s => Shape s ∧ Holds es s) (allSteps_and.mpr ⟨hg, hu⟩)
    ⟨.loaded, .loaded⟩ fun hi hgu hf => ⟨hi.1.step hf, hi.2.step hi.1 hgu.1 hgu.2 hf⟩
  exact hi.2

end LinuxKerDev.DriverC
