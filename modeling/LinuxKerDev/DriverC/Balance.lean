import LinuxKerDev.DriverC.Owned

/-!
# What a session acquires it gives back

Between two sessions nothing is owned, so where `BIND_DMA` is called once at a time
the log of any number of whole sessions is balanced.  A second `BIND_DMA` in a
session writes over the handles of the first and hooks the handler again, and the
`release` gives back one of each: `START_DMA` and `release` look at `dma_mapped`,
`BIND_DMA` does not.  The interrupt tells the two apart (`count_irq`): it has been
requested as often as it has been freed, but for the one that is hooked and the
ones that a later `BIND_DMA` has left behind.
-/

namespace LinuxKerDev.DriverC

open Lib LockOp Dma

variable {as : List Act} {es es' : List (LockOp Resource)} {s s' : Session}

instance (s : Session) : Decidable s.Bound := inferInstanceAs (Decidable (_ ∧ _))

instance (s : Session) : (k : Item) → Decidable (s.Scope k)
  | .mapping _ => inferInstanceAs (Decidable (s.fileOpen = true))
  | .msi | .irq | .buffer _ => inferInstanceAs (Decidable s.Bound)

instance (s : Session) (k : Item) : Decidable (s.Has k) := inferInstanceAs (Decidable (_ ∧ _ ∨ _))

def hookedOnce (s : Session) : Nat := if s.Has .irq then 1 else 0

/-! ### The interrupt -/

theorem hookedOnce_congr (h : s'.Has .irq ↔ s.Has .irq) : hookedOnce s' = hookedOnce s :=
  if_congr h rfl rfl

/-- An instruction requests the interrupt where the session comes to own it, and
frees it where the session loses it. -/
theorem count_instr (hs : Shape s) {ans : Answer} {x : Instr} {rest : List Instr}
    (hcode : s.code = x :: rest) (hg : Granted es s (.run ans))
    (hf : s.instr ans rest x = some (s', es')) :
    es'.count (.acquire .irq) + hookedOnce s = es'.count (.release .irq) + hookedOnce s' := by
  have hstep : s.step (.run ans) = some (s', es') := by
    rw [Session.step, hcode]
    exact hf
  have hc := hs.changes_instr (hs.step hstep) hcode hf
  rw [Granted, hcode] at hg
  cases x with
  | requestIrq =>
    replace hg : ans.hooked = true := hg
    rw [Session.instr, hg, if_pos rfl, if_pos rfl] at hf
    obtain ⟨rfl, rfl⟩ := Prod.mk.inj (Option.some.inj hf)
    have hbefore : hookedOnce s = 0 := if_neg hc.1
    have hafter : hookedOnce _ = 1 := if_pos ((hc.2 .irq).mpr (Or.inl rfl))
    rw [hbefore, hafter]
    rfl
  | freeIrq =>
    obtain ⟨rfl, rfl⟩ := Prod.mk.inj (Option.some.inj hf)
    have hbefore : hookedOnce s = 1 := if_pos hc.1
    have hafter : hookedOnce _ = 0 := if_neg fun hn => ((hc.2 .irq).mp hn).1 rfl
    rw [hbefore, hafter]
    rfl
  | allocSlot i =>
    rw [Session.instr, Option.ite_none_right_eq_some] at hf
    obtain ⟨rfl, rfl⟩ := Prod.mk.inj (Option.some.inj hf.2)
    rw [hookedOnce_congr ((hc.2 .irq).trans (or_iff_right (by simp)))]
    split <;> rfl
  | ioremap r =>
    cases r <;> obtain ⟨rfl, rfl⟩ := Prod.mk.inj (Option.some.inj hf)
    · rw [hookedOnce_congr ((hc.2 .irq).trans (or_iff_right (by simp)))]
      rfl
    · rw [hookedOnce_congr ((hc.2 .irq).trans (or_iff_right (by simp)))]
      rfl
  | enableMsi =>
    obtain ⟨rfl, rfl⟩ := Prod.mk.inj (Option.some.inj hf)
    rw [hookedOnce_congr ((hc.2 .irq).trans (or_iff_right (by simp)))]
    rfl
  | iounmap r =>
    cases r <;> obtain ⟨rfl, rfl⟩ := Prod.mk.inj (Option.some.inj hf)
    · rw [hookedOnce_congr ((hc.2 .irq).trans (and_iff_right (by simp)))]
      rfl
    · rw [hookedOnce_congr ((hc.2 .irq).trans (and_iff_right (by simp)))]
      rfl
  | disableMsi | freeSlot i =>
    obtain ⟨rfl, rfl⟩ := Prod.mk.inj (Option.some.inj hf)
    rw [hookedOnce_congr ((hc.2 .irq).trans (and_iff_right (by simp)))]
    rfl
  | waitEmpty i =>
    rw [Session.instr] at hf
    split at hf <;> obtain ⟨rfl, rfl⟩ := Prod.mk.inj (Option.some.inj hf)
    · rfl
    · rw [hookedOnce_congr (hc .irq)]
      rfl
  | _ =>
    obtain ⟨rfl, rfl⟩ := Prod.mk.inj (Option.some.inj hf)
    rw [hookedOnce_congr (hc .irq)]
    rfl

theorem count_step (hs : Shape s) {a : Act} (hg : Granted es s a) (hu : Unbound es s a)
    (hf : s.step a = some (s', es')) :
    es'.count (.acquire .irq) + hookedOnce s = es'.count (.release .irq) + hookedOnce s' := by
  cases a with
  | call c =>
    obtain ⟨hcode, -, he, rfl⟩ := Session.step_call hf
    have hc := hs.changes_enter hcode (fun hb => hu (congrArg Act.call hb))
      (Session.entered_of_enter he)
    rw [hookedOnce_congr (hc .irq)]
    rfl
  | run ans =>
    cases hcode : s.code with
    | nil =>
      obtain ⟨rfl, r, ev, -, rfl⟩ := Session.step_run_nil hcode hf
      rfl
    | cons x rest => exact count_instr hs hcode hg (Session.step_run_cons hcode hf)
  | irq flags =>
    by_cases hk : s.hooks = 0
    · obtain ⟨rfl, rfl⟩ := Session.step_irq_unhooked hk hf
      rfl
    · obtain ⟨rfl, r, ev, -, rfl⟩ := Session.step_irq_hooked hk hf
      rfl

/-- A second `BIND_DMA` forgets that the interrupt is hooked. -/
theorem hookedOnce_rebind (hm : s.dmaMapped = true)
    (hf : s.step (.call .bindDma) = some (s', es')) :
    es' = [] ∧ hookedOnce s = 1 ∧ hookedOnce s' = 0 := by
  obtain ⟨hcode, -, he, rfl⟩ := Session.step_call hf
  cases Session.entered_of_enter he with
  | began ho _ _ _ =>
    have hbefore : s.Has .irq :=
      Or.inl ⟨⟨ho, Or.inl hm⟩, fun hin => List.not_mem_nil (hcode ▸ hin)⟩
    have hafter : ¬ Session.Has { s with code := Call.bindDma.code s.dmaMapped } .irq := by
      rintro (⟨-, hacq⟩ | hrel)
      · exact hacq (by simp [Item.acq, Call.code, bindCode])
      · simp [Item.rel, Call.code, bindCode, bindRound] at hrel
    exact ⟨rfl, if_pos hbefore, if_neg hafter⟩

/-- **The interrupt has been requested as often as it has been freed, but for the one
that is hooked and the ones left behind.**  None has been left behind exactly when
`BIND_DMA` was only called with nothing bound. -/
theorem count_irq (h : Run Session.step .loaded as es s)
    (hg : AllSteps Session.step .loaded Granted as) :
    ∃ lost, es.count (.acquire .irq) = es.count (.release .irq) + hookedOnce s + lost ∧
      (lost = 0 ↔ AllSteps Session.step .loaded Unbound as) := by
  induction h with
  | nil => exact ⟨0, rfl, iff_of_true rfl (allSteps_nil _ _ _)⟩
  | @snoc as es s a s' es' hr hf ih =>
    obtain ⟨hall, hlast⟩ := allSteps_snoc.mp hg
    obtain ⟨lost, hcount, hlost⟩ := ih hall
    simp only [List.count_append, allSteps_snoc, ← hlost]
    by_cases hu : Unbound es s a
    · have hstep := count_step (shape_of_run hr) (hlast _ _ hr) hu hf
      refine ⟨lost, by omega, fun h0 => ⟨h0, fun es₁ s₁ hr₁ => ?_⟩, And.left⟩
      obtain ⟨rfl, rfl⟩ := hr.det hr₁
      exact hu
    · obtain ⟨rfl, hm⟩ : a = .call .bindDma ∧ s.dmaMapped = true := by
        simpa [Unbound] using hu
      obtain ⟨rfl, hbefore, hafter⟩ := hookedOnce_rebind hm hf
      refine ⟨lost + 1, ?_, iff_of_false (by omega) fun hn => hu (hn.2 _ _ hr)⟩
      simp only [List.count_nil]
      omega

/-! ### Whole sessions -/

theorem has_none (ho : s.fileOpen = false) (hc : s.code = []) (k : Item) : ¬ s.Has k := by
  rw [Shape.has_closed ho, hc]
  exact List.not_mem_nil

/-- **`driver.c`: over any number of whole sessions everything acquired is given back,
once, exactly when `BIND_DMA` is only called while nothing is bound.**  The same holds
of the bare numbers of calls. -/
theorem resources_balance_iff (h : Run Session.step .loaded as es s)
    (hg : AllSteps Session.step .loaded Granted as) (ho : s.fileOpen = false) (hc : s.code = []) :
    (Balanced es ↔ AllSteps Session.step .loaded Unbound as) ∧
      ((∀ r, es.count (.acquire r) = es.count (.release r)) ↔
        AllSteps Session.step .loaded Unbound as) := by
  have hbal : AllSteps Session.step .loaded Unbound as → Balanced es := fun hu =>
    (holds_of_run h hg hu).log.balanced fun r ⟨k, hk, _⟩ => has_none ho hc k hk
  have hcount : Balanced es → ∀ r, es.count (.acquire r) = es.count (.release r) := fun hb r => by
    simpa using count_of_replay r es [] [] hb
  have hunbound : (∀ r, es.count (.acquire r) = es.count (.release r)) →
      AllSteps Session.step .loaded Unbound as := by
    intro hall
    obtain ⟨lost, heq, hlost⟩ := count_irq h hg
    have hnone : hookedOnce s = 0 := if_neg (has_none ho hc .irq)
    have hirq := hall .irq
    exact hlost.mp (by omega)
  exact ⟨⟨fun hb => hunbound (hcount hb), hbal⟩, ⟨hunbound, fun hu => hcount (hbal hu)⟩⟩

/-! ### Fixed inputs -/

def granted (base n : Nat) : List Act :=
  (List.range n).map fun j => .run ⟨1, UInt64.ofNat (base + j * 0x20000), 0, true⟩

def openActs : List Act := .call .openDev :: granted 0 2
def bindActs (base : Nat) : List Act := .call .bindDma :: granted base 39
def closeActs : List Act := .call .release :: granted 0 15

def twoSessions : List Act :=
  openActs ++ bindActs 0x100000 ++ closeActs ++ openActs ++ bindActs 0x100000 ++ closeActs

theorem resources_balance_twoSessions :
    ∃ es s, Run Session.step .loaded twoSessions es s ∧ Balanced es := by
  obtain ⟨es, s, hr, ho, hc⟩ := exists_run Session.step .loaded twoSessions
    (fun _ s => s.fileOpen = false ∧ s.code = []) (by decide +kernel)
  have hg : AllSteps Session.step .loaded Granted twoSessions :=
    allSteps_of_check (by decide +kernel)
  have hu : AllSteps Session.step .loaded Unbound twoSessions :=
    allSteps_of_check (by decide +kernel)
  exact ⟨es, s, hr, (resources_balance_iff hr hg ho hc).1.mpr hu⟩

def boundTwice : List Act := openActs ++ bindActs 0x100000 ++ bindActs 0x10000000 ++ closeActs

/-- **A second `BIND_DMA` is not paid back.**  The session ends with the interrupt
requested twice and freed once, and with eight buffers that are never freed. -/
theorem boundTwice_leaks :
    AllSteps Session.step .loaded Granted boundTwice ∧
      ∃ es s, Run Session.step .loaded boundTwice es s ∧
        (s.fileOpen = false ∧ s.code = []) ∧ s.live.length = 8 ∧
        es.count (.acquire .irq) = 2 ∧ es.count (.release .irq) = 1 :=
  ⟨allSteps_of_check (by decide +kernel),
    exists_run Session.step .loaded boundTwice (fun es s => (s.fileOpen = false ∧ s.code = []) ∧
      s.live.length = 8 ∧ es.count (.acquire .irq) = 2 ∧ es.count (.release .irq) = 1)
      (by decide +kernel)⟩

end LinuxKerDev.DriverC
