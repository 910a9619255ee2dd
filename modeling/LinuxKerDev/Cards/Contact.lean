import LinuxKerDev.Cards.Card

/-!
# `contactWithGraphicCard.c`

`open` maps both regions and `release` reboots the card and unmaps them, through
the one pair of pointers.  Nothing keeps a second file from being opened; its
`open` then overwrites the pointers, and the mappings they led to are lost.

A file *holds* a region from its `ioremap_nocache` to its `iounmap`.  As long as
no region is mapped while the mapping its pointer holds is still there, each
region has at most one holder, and the pointer leads to what the holder has
mapped (`Owned`).  The first `ioremap_nocache` that breaks the rule loses a
mapping for good (`Lost`).
-/

namespace LinuxKerDev.Cards

open Lib

def contactWithGraphicCard : Fops Empty where
  openCode := [.ioremap .control, .ioremap .ram]
  ioctlCode := Empty.elim
  releaseCode := [.writeReg 0x1000 1, .iounmap .control, .iounmap .ram]

/-- No region is mapped while the mapping its pointer holds is still there. -/
def Exclusive {φ ι : Type*} (_ : List (LockOp Nat)) (s : Card φ) : Act φ ι → Prop
  | .run f =>
    match s.code f with
    | .ioremap r :: _ => ¬ s.Live r
    | _ => True
  | _ => True

instance {φ ι : Type*} (es : List (LockOp Nat)) (s : Card φ) :
    (a : Act φ ι) → Decidable (Exclusive es s a)
  | .run f =>
    show Decidable (match s.code f with
      | .ioremap r :: _ => ¬ s.Live r
      | _ => True) from
    match s.code f with
    | .ioremap r :: _ => inferInstanceAs (Decidable (¬ s.Live r))
    | .iounmap _ :: _ | .readReg _ :: _ | .writeReg _ _ :: _ | [] =>
      inferInstanceAs (Decidable True)
  | .openDev _ | .ioctl _ _ | .release _ => inferInstanceAs (Decidable True)

section

variable {φ : Type*} {es : List (LockOp Nat)} {s : Card φ}

/-! ### The numbers of the mappings -/

/-- A mapping that is there has been made and not unmapped, no number is used
twice, and the two pointers never lead to the same mapping. -/
structure Ids (es : List (LockOp Nat)) (s : Card φ) : Prop where
  live_lt : ∀ m ∈ s.live, m < s.made
  base_lt : ∀ r m, s.base r = some m → m < s.made
  log_lt : ∀ o ∈ es, o.lock < s.made
  apart : ∀ r r' m, s.base r = some m → s.base r' = some m → r = r'
  once : ∀ m, es.count (.acquire m) ≤ 1
  kept : ∀ m ∈ s.live, .acquire m ∈ es ∧ .release m ∉ es
  nodup : s.live.Nodup

theorem Card.live_iff {r : Region} : s.Live r ↔ ∃ m, s.base r = some m ∧ m ∈ s.live := by
  rw [Card.Live]
  cases s.base r with
  | none => simp
  | some m => simp

theorem Ids.loaded : Ids [] (.loaded : Card φ) where
  live_lt m hm := by cases hm
  base_lt r m hm := by cases hm
  log_lt o ho := by cases ho
  apart r r' m hm := by cases hm
  once m := Nat.zero_le 1
  kept m hm := by cases hm
  nodup := .nil

theorem Ids.notMem_made (h : Ids es s) : s.made ∉ s.live :=
  fun hm => Nat.lt_irrefl _ (h.live_lt _ hm)

theorem Ids.base_ne_made (h : Ids es s) {r : Region} {m : Nat} (hm : s.base r = some m) :
    m ≠ s.made := Nat.ne_of_lt (h.base_lt r m hm)

/-- **An instruction keeps the numbers in order.** -/
theorem Ids.instr (h : Ids es s) {x : Instr} {s' : Card φ} {es' : List (LockOp Nat)}
    (hx : s.instr x = (s', es')) : Ids (es ++ es') s' := by
  cases x with
  | readReg reg =>
    obtain ⟨rfl, rfl⟩ := Prod.mk.inj hx
    rwa [List.append_nil]
  | writeReg reg value =>
    obtain ⟨rfl, rfl⟩ := Prod.mk.inj hx
    rwa [List.append_nil]
  | ioremap r =>
    obtain ⟨rfl, rfl⟩ := Prod.mk.inj hx
    have hno : .acquire s.made ∉ es := fun hm => Nat.lt_irrefl _ (h.log_lt _ hm)
    have hbase : ∀ q m, Function.update s.base r (some s.made) q = some m →
        q = r ∧ m = s.made ∨ s.base q = some m := by
      intro q m hm
      rw [Function.update_apply] at hm
      split at hm
      · next hq => exact Or.inl ⟨hq, (Option.some.inj hm).symm⟩
      · exact Or.inr hm
    refine ⟨fun m hm => ?_, fun q m hm => ?_, fun o ho => ?_, fun q q' m hm hm' => ?_, fun m => ?_,
      fun m hm => ?_, List.nodup_cons.mpr ⟨h.notMem_made, h.nodup⟩⟩
    · rcases List.mem_cons.mp hm with rfl | hm
      · exact Nat.lt_succ_self _
      · exact Nat.lt_succ_of_lt (h.live_lt m hm)
    · rcases hbase q m hm with ⟨-, rfl⟩ | hm
      · exact Nat.lt_succ_self _
      · exact Nat.lt_succ_of_lt (h.base_lt q m hm)
    · rcases List.mem_append.mp ho with ho | ho
      · exact Nat.lt_succ_of_lt (h.log_lt o ho)
      · rw [List.mem_singleton.mp ho]
        exact Nat.lt_succ_self _
    · rcases hbase q m hm with ⟨rfl, rfl⟩ | hm
      · rcases hbase q' _ hm' with ⟨rfl, -⟩ | hm'
        · rfl
        · exact absurd rfl (h.base_ne_made hm')
      · rcases hbase q' m hm' with ⟨-, rfl⟩ | hm'
        · exact absurd rfl (h.base_ne_made hm)
        · exact h.apart q q' m hm hm'
    · rw [List.count_append]
      by_cases hm : m = s.made
      · subst hm
        rw [List.count_eq_zero.mpr hno]
        simp
      · have hne : LockOp.acquire s.made ≠ .acquire m := fun he =>
          hm (LockOp.acquire.inj he).symm
        rw [List.count_singleton]
        simpa [hne] using h.once m
    · rcases List.mem_cons.mp hm with rfl | hm
      · refine ⟨List.mem_append_right _ List.mem_cons_self, fun hr => ?_⟩
        rcases List.mem_append.mp hr with hr | hr
        · exact Nat.lt_irrefl _ (h.log_lt _ hr)
        · simp at hr
      · obtain ⟨ha, hr⟩ := h.kept m hm
        exact ⟨List.mem_append_left _ ha, by simp [hr]⟩
  | iounmap r =>
    cases hb : s.base r with
    | none =>
      simp only [Card.instr, hb] at hx
      obtain ⟨rfl, rfl⟩ := Prod.mk.inj hx
      rwa [List.append_nil]
    | some m =>
      simp only [Card.instr, hb] at hx
      obtain ⟨rfl, rfl⟩ := Prod.mk.inj hx
      refine ⟨fun k hk => h.live_lt k (List.mem_of_mem_erase hk), h.base_lt, fun o ho => ?_,
        h.apart, fun k => ?_, fun k hk => ?_, h.nodup.erase m⟩
      · rcases List.mem_append.mp ho with ho | ho
        · exact h.log_lt o ho
        · rw [List.mem_singleton.mp ho]
          exact h.base_lt r m hb
      · rw [List.count_append]
        simpa using h.once k
      · obtain ⟨hne, hmem⟩ := (h.nodup.mem_erase_iff).mp hk
        obtain ⟨ha, hr⟩ := h.kept k hmem
        exact ⟨List.mem_append_left _ ha, by simp [hr, hne]⟩

/-! ### A mapping that is lost -/

/-- A mapping is there and no pointer leads to it. -/
def Lost (s : Card φ) : Prop := ∃ m ∈ s.live, ∀ r, s.base r ≠ some m

/-- **What is lost stays lost.** -/
theorem Lost.instr (h : Lost s) (hi : Ids es s) (x : Instr) : Lost (s.instr x).1 := by
  obtain ⟨m, hm, hb⟩ := h
  cases x with
  | readReg reg => exact ⟨m, hm, hb⟩
  | writeReg reg value => exact ⟨m, hm, hb⟩
  | ioremap r =>
    refine ⟨m, List.mem_cons_of_mem _ hm, fun q hq => ?_⟩
    have hq' : Function.update s.base r (some s.made) q = some m := hq
    rw [Function.update_apply] at hq'
    split at hq'
    · exact hi.notMem_made (by rw [Option.some.inj hq']; exact hm)
    · exact hb q hq'
  | iounmap r =>
    cases hr : s.base r with
    | none =>
      simp only [Card.instr, hr]
      exact ⟨m, hm, hb⟩
    | some k =>
      simp only [Card.instr, hr]
      have hne : m ≠ k := fun he => hb r (he ▸ hr)
      exact ⟨m, (List.mem_erase_of_ne hne).mpr hm, hb⟩

theorem Lost.of_ioremap (hi : Ids es s) {r : Region} (hl : s.Live r) :
    Lost (s.instr (.ioremap r)).1 := by
  obtain ⟨m, hb, hm⟩ := Card.live_iff.mp hl
  refine ⟨m, List.mem_cons_of_mem _ hm, fun q hq => ?_⟩
  have hq' : Function.update s.base r (some s.made) q = some m := hq
  rw [Function.update_apply] at hq'
  split at hq'
  · exact hi.base_ne_made hb (Option.some.inj hq').symm
  · next hne => exact hne (hi.apart q r m hq' hb)

/-! ### Who holds a region -/

/-- Each region has at most one holder, its pointer leads to a mapping exactly
while it has one, and there are no other mappings. -/
structure Owned (H : Region → φ → Prop) (s : Card φ) : Prop where
  held : ∀ r f, H r f → s.Live r
  alone : ∀ r f g, H r f → H r g → f = g
  holder : ∀ r, s.Live r → ∃ f, H r f
  based : ∀ m ∈ s.live, ∃ r, s.base r = some m

theorem Card.live_ioremap (hi : Ids es s) (r q : Region) :
    (s.instr (.ioremap r)).1.Live q ↔ q = r ∨ s.Live q := by
  rw [Card.live_iff, Card.live_iff]
  show (∃ m, Function.update s.base r (some s.made) q = some m ∧ m ∈ s.made :: s.live) ↔ _
  rw [Function.update_apply]
  by_cases hq : q = r
  · simp [hq]
  · simp only [hq, if_false, false_or, List.mem_cons]
    constructor
    · rintro ⟨m, hb, rfl | hm⟩
      · exact absurd rfl (hi.base_ne_made hb)
      · exact ⟨m, hb, hm⟩
    · rintro ⟨m, hb, hm⟩
      exact ⟨m, hb, Or.inr hm⟩

theorem Card.live_iounmap (hi : Ids es s) {r : Region} (hl : s.Live r) (q : Region) :
    (s.instr (.iounmap r)).1.Live q ↔ q ≠ r ∧ s.Live q := by
  obtain ⟨m, hb, -⟩ := Card.live_iff.mp hl
  have hs : (s.instr (.iounmap r)).1 = { s with live := s.live.erase m } := by
    simp only [Card.instr, hb]
  rw [Card.live_iff, Card.live_iff, hs]
  show (∃ k, s.base q = some k ∧ k ∈ s.live.erase m) ↔ _
  constructor
  · rintro ⟨k, hk, hmem⟩
    obtain ⟨hne, hlive⟩ := (hi.nodup.mem_erase_iff).mp hmem
    refine ⟨fun hq => hne ?_, k, hk, hlive⟩
    subst hq
    exact Option.some.inj (hk.symm.trans hb)
  · rintro ⟨hq, k, hk, hlive⟩
    refine ⟨k, hk, (hi.nodup.mem_erase_iff).mpr ⟨fun he => hq ?_, hlive⟩⟩
    subst he
    exact hi.apart q r k hk hb

namespace Owned

variable {H K : Region → φ → Prop}

theorem congr (h : Owned H s) (he : ∀ r f, K r f ↔ H r f) : Owned K s where
  held r f hf := h.held r f ((he r f).mp hf)
  alone r f g hf hg := h.alone r f g ((he r f).mp hf) ((he r g).mp hg)
  holder r hl := by
    obtain ⟨f, hf⟩ := h.holder r hl
    exact ⟨f, (he r f).mpr hf⟩
  based := h.based

/-- **A file maps a region that nobody holds.** -/
theorem ioremap (h : Owned H s) (hi : Ids es s) {r : Region} (hno : ¬ s.Live r) (f : φ)
    (he : ∀ q g, K q g ↔ q = r ∧ g = f ∨ H q g) : Owned K (s.instr (.ioremap r)).1 where
  held q g hg := by
    rw [Card.live_ioremap hi]
    exact ((he q g).mp hg).imp And.left (h.held q g)
  alone q g g' hg hg' := by
    rcases (he q g).mp hg with ⟨hq, rfl⟩ | hg
    · rcases (he q g').mp hg' with ⟨-, rfl⟩ | hg'
      · rfl
      · exact absurd (h.held q g' hg') (hq ▸ hno)
    · rcases (he q g').mp hg' with ⟨hq, -⟩ | hg'
      · exact absurd (h.held q g hg) (hq ▸ hno)
      · exact h.alone q g g' hg hg'
  holder q hl := by
    rcases (Card.live_ioremap hi r q).mp hl with hq | hl
    · exact ⟨f, (he q f).mpr (Or.inl ⟨hq, rfl⟩)⟩
    · obtain ⟨g, hg⟩ := h.holder q hl
      exact ⟨g, (he q g).mpr (Or.inr hg)⟩
  based m hm := by
    show ∃ q, Function.update s.base r (some s.made) q = some m
    rcases List.mem_cons.mp hm with rfl | hmem
    · exact ⟨r, Function.update_self _ _ _⟩
    · obtain ⟨q, hq⟩ := h.based m hmem
      have hne : q ≠ r := by
        rintro rfl
        exact hno (Card.live_iff.mpr ⟨m, hq, hmem⟩)
      exact ⟨q, (Function.update_of_ne hne _ _).trans hq⟩

/-- **The holder unmaps the region.** -/
theorem iounmap (h : Owned H s) (hi : Ids es s) {r : Region} {f : φ} (hf : H r f)
    (he : ∀ q g, K q g ↔ q ≠ r ∧ H q g) : Owned K (s.instr (.iounmap r)).1 where
  held q g hg := by
    rw [Card.live_iounmap hi (h.held r f hf)]
    exact ((he q g).mp hg).imp id (h.held q g)
  alone q g g' hg hg' := h.alone q g g' ((he q g).mp hg).2 ((he q g').mp hg').2
  holder q hl := by
    obtain ⟨hq, hl⟩ := (Card.live_iounmap hi (h.held r f hf) q).mp hl
    obtain ⟨g, hg⟩ := h.holder q hl
    exact ⟨g, (he q g).mpr ⟨hq, hg⟩⟩
  based m hm := by
    obtain ⟨k, hk, -⟩ := Card.live_iff.mp (h.held r f hf)
    simp only [Card.instr, hk] at hm ⊢
    exact h.based m (List.mem_of_mem_erase hm)

end Owned

/-- A file that is open or closed and has these instructions still to run stands
between its `ioremap_nocache` and its `iounmap`. -/
def Between (isOpen : Bool) (c : List Instr) (r : Region) : Prop :=
  if isOpen = true then .ioremap r ∉ c else .iounmap r ∈ c

def Holds (s : Card φ) (r : Region) (f : φ) : Prop := Between (s.isOpen f) (s.code f) r

/-- The instructions that a file may still have to run. -/
def AtCode (isOpen : Bool) (c : List Instr) : Prop :=
  if isOpen = true then c ∈ [[.ioremap .control, .ioremap .ram], [.ioremap .ram], []]
  else c ∈ [[.writeReg 0x1000 1, .iounmap .control, .iounmap .ram],
    [.iounmap .control, .iounmap .ram], [.iounmap .ram], []]

inductive NextCase (b : Bool) : List Instr → Prop
  | ioremap {r : Region} {rest : List Instr} (hat : AtCode b rest)
      (h : ∀ q, Between b rest q ↔ q = r ∨ Between b (.ioremap r :: rest) q) :
      NextCase b (.ioremap r :: rest)
  | writeReg {reg value : UInt32} {rest : List Instr} (hat : AtCode b rest)
      (hheld : Between b (.writeReg reg value :: rest) .control)
      (h : ∀ q, Between b rest q ↔ Between b (.writeReg reg value :: rest) q) :
      NextCase b (.writeReg reg value :: rest)
  | iounmap {r : Region} {rest : List Instr} (hat : AtCode b rest)
      (hheld : Between b (.iounmap r :: rest) r)
      (h : ∀ q, Between b rest q ↔ q ≠ r ∧ Between b (.iounmap r :: rest) q) :
      NextCase b (.iounmap r :: rest)

theorem AtCode.next {b : Bool} {x : Instr} {rest : List Instr} (h : AtCode b (x :: rest)) :
    NextCase b (x :: rest) := by
  cases b with
  | true =>
    simp only [AtCode, if_true, List.mem_cons, List.cons.injEq, reduceCtorEq, List.not_mem_nil,
      or_false] at h
    rcases h with ⟨rfl, rfl⟩ | ⟨rfl, rfl⟩
    · exact .ioremap (by simp [AtCode]) fun q => by cases q <;> simp [Between]
    · exact .ioremap (by simp [AtCode]) fun q => by cases q <;> simp [Between]
  | false =>
    simp only [AtCode, Bool.false_eq_true, if_false, List.mem_cons, List.cons.injEq, reduceCtorEq,
      List.not_mem_nil, or_false] at h
    rcases h with ⟨rfl, rfl⟩ | ⟨rfl, rfl⟩ | ⟨rfl, rfl⟩
    · exact .writeReg (by simp [AtCode]) (by simp [Between]) fun q => by
        cases q <;> simp [Between]
    · exact .iounmap (by simp [AtCode]) (by simp [Between]) fun q => by
        cases q <;> simp [Between]
    · exact .iounmap (by simp [AtCode]) (by simp [Between]) fun q => by
        cases q <;> simp [Between]

/-- What a run that has kept the rule so far knows. -/
structure Orderly (es : List (LockOp Nat)) (s : Card φ) : Prop where
  ids : Ids es s
  code : ∀ f, AtCode (s.isOpen f) (s.code f)
  owned : Owned (Holds s) s
  log : LockOp.replay [] es = some s.live

namespace Orderly

theorem loaded : Orderly [] (.loaded : Card φ) where
  ids := .loaded
  code f := by simp [AtCode, Card.loaded]
  owned :=
    { held := fun r f hf => by simp [Holds, Between, Card.loaded] at hf
      alone := fun r f g hf => by simp [Holds, Between, Card.loaded] at hf
      holder := fun r hl => hl.elim
      based := fun m hm => by cases hm }
  log := rfl

theorem accessLive (h : Orderly es s) (a : Act φ Empty) : Card.AccessLive es s a := by
  cases a with
  | run f =>
    have hat := h.code f
    cases hc : s.code f with
    | nil =>
      rw [Card.AccessLive, hc]
      trivial
    | cons x rest =>
      rw [hc] at hat
      rw [Card.AccessLive, hc]
      cases hat.next with
      | ioremap _ _ => trivial
      | iounmap _ _ _ => trivial
      | writeReg _ hheld _ =>
        refine h.owned.held .control f ?_
        rw [Holds, hc]
        exact hheld
  | _ => trivial

theorem live_nil (h : Orderly es s) (hclosed : ∀ f, s.isOpen f = false ∧ s.code f = []) :
    s.live = [] := by
  refine List.eq_nil_iff_forall_not_mem.mpr fun m hm => ?_
  obtain ⟨r, hr⟩ := h.owned.based m hm
  obtain ⟨f, hf⟩ := h.owned.holder r (Card.live_iff.mpr ⟨m, hr, hm⟩)
  obtain ⟨ho, hc⟩ := hclosed f
  rw [Holds, ho, hc] at hf
  simp [Between] at hf

/-- **Every mapping has been unmapped once.** -/
theorem mappings_released_once (h : Orderly es s) (hclosed : ∀ f, s.isOpen f = false ∧ s.code f = [])
    {m : Nat} (hm : .acquire m ∈ es) : es.count (.release m) = 1 := by
  have hlog := h.log
  rw [h.live_nil hclosed] at hlog
  have hcount := LockOp.count_of_replay m es [] [] hlog
  have hpos := List.count_pos_iff.mpr hm
  have honce := h.ids.once m
  omega

variable [DecidableEq φ]

theorem began (h : Orderly es s) {f : φ} {b : Bool} {c : List Instr} (hat : AtCode b c)
    (he : ∀ r, Between b c r ↔ Between (s.isOpen f) (s.code f) r) :
    Orderly es ((s.setOpen f b).setCode f c) where
  ids := { h.ids with }
  code g := by
    show AtCode (Function.update s.isOpen f b g) (Function.update s.code f c g)
    by_cases hg : g = f
    · subst hg
      rwa [Function.update_self, Function.update_self]
    · rw [Function.update_of_ne hg, Function.update_of_ne hg]
      exact h.code g
  owned := by
    have ho : Owned (Holds s) ((s.setOpen f b).setCode f c) := { h.owned with }
    refine ho.congr fun r g => ?_
    show Between (Function.update s.isOpen f b g) (Function.update s.code f c g) r ↔ _
    by_cases hg : g = f
    · subst hg
      rw [Function.update_self, Function.update_self]
      exact he r
    · rw [Function.update_of_ne hg, Function.update_of_ne hg]
      exact Iff.rfl
  log := h.log

/-- **An instruction keeps the order**, when no region is mapped over. -/
theorem instr (h : Orderly es s) {f : φ} {x : Instr} {rest : List Instr} (hc : s.code f = x :: rest)
    (hg : ∀ r, x = .ioremap r → ¬ s.Live r) {s' : Card φ} {es' : List (LockOp Nat)}
    (hx : (s.setCode f rest).instr x = (s', es')) : Orderly (es ++ es') s' := by
  have hids : Ids es (s.setCode f rest) := { h.ids with }
  have hown : Owned (Holds s) (s.setCode f rest) := { h.owned with }
  have hat := h.code f
  rw [hc] at hat
  obtain ⟨hcode, hopen⟩ : s'.code = Function.update s.code f rest ∧ s'.isOpen = s.isOpen := by
    have hs := Card.instr_code (s.setCode f rest) x
    rw [hx] at hs
    exact hs
  -- the regions of the other files are not touched
  have hholds : ∀ q g, Holds s' q g ↔
      if g = f then Between (s.isOpen f) rest q else Holds s q g := by
    intro q g
    rw [Holds, hcode, hopen]
    split
    · next he => rw [he, Function.update_self]
    · next hne => rw [Function.update_of_ne hne, Holds]
  have hself : ∀ q, Holds s q f ↔ Between (s.isOpen f) (x :: rest) q := by
    intro q
    rw [Holds, hc]
  have hcodes : AtCode (s.isOpen f) rest → ∀ g, AtCode (s'.isOpen g) (s'.code g) := by
    intro hrest g
    rw [hcode, hopen]
    by_cases he : g = f
    · rw [he, Function.update_self]
      exact hrest
    · rw [Function.update_of_ne he]
      exact h.code g
  have hlog : ∀ {l}, LockOp.replay s.live es' = some l → LockOp.replay [] (es ++ es') = some l := by
    intro l hl
    rw [LockOp.replay_append, h.log]
    exact hl
  have hids' := hids.instr hx
  cases hat.next with
  | @ioremap r _ hrest hb =>
    obtain ⟨rfl, rfl⟩ := Prod.mk.inj hx
    refine ⟨hids', hcodes hrest, ?_, hlog ?_⟩
    · refine hown.ioremap hids (hg r rfl) f fun q g => ?_
      rw [hholds]
      by_cases he : g = f
      · rw [if_pos he, he, hb, ← hself]
        simp
      · simp [he]
    · simp [LockOp.replay, LockOp.apply, Card.setCode, h.ids.notMem_made]
  | writeReg hrest _ hb =>
    obtain ⟨rfl, rfl⟩ := Prod.mk.inj hx
    refine ⟨hids', hcodes hrest, hown.congr fun q g => ?_, hlog rfl⟩
    rw [hholds]
    by_cases he : g = f
    · rw [if_pos he, he, hb, ← hself]
    · rw [if_neg he]
  | @iounmap r _ hrest hheld hb =>
    have hf : Holds s r f := (hself r).mpr hheld
    obtain ⟨m, hbase, hm⟩ := Card.live_iff.mp (h.owned.held r f hf)
    have hown' := hown.iounmap (K := Holds s') hids hf fun q g => by
      rw [hholds]
      by_cases he : g = f
      · rw [if_pos he, he, hb, ← hself]
      · rw [if_neg he]
        refine ⟨fun hq => ⟨fun hqr => he ?_, hq⟩, And.right⟩
        subst hqr
        exact h.owned.alone q g f hq hf
    rw [hx] at hown'
    refine ⟨hids', hcodes hrest, hown', hlog ?_⟩
    have hinstr : (s.setCode f rest).instr (.iounmap r) =
        ({ s.setCode f rest with live := s.live.erase m }, [.release m]) := by
      simp only [Card.instr, Card.setCode, hbase]
    obtain ⟨rfl, rfl⟩ := Prod.mk.inj (hinstr.symm.trans hx)
    simp [LockOp.replay, LockOp.apply, hm]

/-- **One step keeps the order.** -/
theorem step (h : Orderly es s) {a : Act φ Empty} (hg : Exclusive es s a) {s' : Card φ}
    {es' : List (LockOp Nat)} (hf : Card.step contactWithGraphicCard s a = some (s', es')) :
    Orderly (es ++ es') s' := by
  cases a with
  | openDev f =>
    obtain ⟨hc, ho, rfl, rfl⟩ := Card.step_openDev hf
    rw [List.append_nil]
    refine h.began (by simp [AtCode, contactWithGraphicCard]) fun r => ?_
    rw [hc, ho]
    cases r <;> simp [Between, contactWithGraphicCard]
  | ioctl f i => exact i.elim
  | release f =>
    obtain ⟨hc, ho, rfl, rfl⟩ := Card.step_release hf
    rw [List.append_nil]
    refine h.began (by simp [AtCode, contactWithGraphicCard]) fun r => ?_
    rw [hc, ho]
    cases r <;> simp [Between, contactWithGraphicCard]
  | run f =>
    obtain ⟨x, rest, hc, hx⟩ := Card.step_run hf
    refine h.instr hc (fun r hr => ?_) hx
    subst hr
    rw [Exclusive, hc] at hg
    exact hg

end Orderly

/-! ### Runs -/

variable [DecidableEq φ] {as : List (Act φ Empty)}

theorem ids_of_run (h : Run (Card.step contactWithGraphicCard) .loaded as es s) : Ids es s := by
  refine h.inv (I := Ids) .loaded ?_
  intro es s a s' es' hi hf
  cases a with
  | openDev f =>
    obtain ⟨-, -, rfl, rfl⟩ := Card.step_openDev hf
    rw [List.append_nil]
    exact { hi with }
  | ioctl f i => exact i.elim
  | release f =>
    obtain ⟨-, -, rfl, rfl⟩ := Card.step_release hf
    rw [List.append_nil]
    exact { hi with }
  | run f =>
    obtain ⟨x, rest, -, hx⟩ := Card.step_run hf
    have hi' : Ids es (s.setCode f rest) := { hi with }
    exact hi'.instr hx

/-- **What is lost stays lost**, and a region that is mapped over is lost. -/
theorem lost_step {es' : List (LockOp Nat)} {s' : Card φ} {a : Act φ Empty} (hi : Ids es s)
    (hl : Lost s ∨ ¬ Exclusive es s a)
    (hf : Card.step contactWithGraphicCard s a = some (s', es')) : Lost s' := by
  cases a with
  | openDev f =>
    obtain ⟨-, -, rfl, -⟩ := Card.step_openDev hf
    exact hl.resolve_right fun hno => hno trivial
  | ioctl f i => exact i.elim
  | release f =>
    obtain ⟨-, -, rfl, -⟩ := Card.step_release hf
    exact hl.resolve_right fun hno => hno trivial
  | run f =>
    obtain ⟨x, rest, hc, hx⟩ := Card.step_run hf
    have hi' : Ids es (s.setCode f rest) := { hi with }
    obtain rfl : ((s.setCode f rest).instr x).1 = s' := congrArg Prod.fst hx
    rcases hl with hl | hl
    · have hl' : Lost (s.setCode f rest) := hl
      exact hl'.instr hi' x
    · rw [Exclusive, hc] at hl
      cases x with
      | ioremap r =>
        have hlive : (s.setCode f rest).Live r := not_not.mp hl
        exact .of_ioremap hi' hlive
      | _ => exact absurd trivial hl

theorem exclusive_or_lost (h : Run (Card.step contactWithGraphicCard) .loaded as es s) :
    AllSteps (Card.step contactWithGraphicCard) .loaded Exclusive as ∨ Lost s := by
  induction h with
  | nil => exact Or.inl (allSteps_nil _ _ _)
  | @snoc as es s a s' es' hr hf ih =>
    rcases ih with hall | hl
    · by_cases he : Exclusive es s a
      · refine Or.inl (allSteps_snoc.mpr ⟨hall, fun es₁ s₁ hr₁ => ?_⟩)
        obtain ⟨rfl, rfl⟩ := hr.det hr₁
        exact he
      · exact Or.inr (lost_step (ids_of_run hr) (Or.inr he) hf)
    · exact Or.inr (lost_step (ids_of_run hr) (Or.inl hl) hf)

/-- **The mappings of `contactWithGraphicCard.c`.**  Any number of files, any
opens and releases, with any interleaving of their instructions.  If no region is
mapped while the mapping its pointer holds is still there, every register write
goes through a live mapping; and in a run at whose end every file is closed that
is exactly when, besides, each mapping made has been unmapped once. -/
theorem mappings_once_iff (h : Run (Card.step contactWithGraphicCard) .loaded as es s) :
    (AllSteps (Card.step contactWithGraphicCard) .loaded Exclusive as →
      AllSteps (Card.step contactWithGraphicCard) .loaded Card.AccessLive as) ∧
    ((∀ f, s.isOpen f = false ∧ s.code f = []) →
      ((AllSteps (Card.step contactWithGraphicCard) .loaded Card.AccessLive as ∧
          ∀ m, .acquire m ∈ es → es.count (.release m) = 1) ↔
        AllSteps (Card.step contactWithGraphicCard) .loaded Exclusive as)) := by
  have hlive : AllSteps (Card.step contactWithGraphicCard) .loaded Exclusive as →
      AllSteps (Card.step contactWithGraphicCard) .loaded Card.AccessLive as := fun hg =>
    allSteps_of_guard (I := Orderly) hg .loaded (fun hi he hf => hi.step he hf)
      fun hi _ => hi.accessLive _
  refine ⟨hlive, fun hclosed => ?_⟩
  constructor
  · rintro ⟨-, honce⟩
    rcases exclusive_or_lost h with hall | ⟨m, hm, -⟩
    · exact hall
    · obtain ⟨ha, hr⟩ := (ids_of_run h).kept m hm
      have hone := honce m ha
      rw [List.count_eq_zero.mpr hr] at hone
      cases hone
  · intro hg
    have ho : Orderly es s := h.inv_of_guard hg .loaded fun hi he hf => hi.step he hf
    exact ⟨hlive hg, fun m hm => ho.mappings_released_once hclosed hm⟩

end

/-- An `open` and a `release`, without a pause. -/
def openFile {φ : Type*} (f : φ) : List (Act φ Empty) := [.openDev f, .run f, .run f]

def closeFile {φ : Type*} (f : φ) : List (Act φ Empty) := [.release f, .run f, .run f, .run f]

/-- Two files, one after the other. -/
def inTurn : List (Act Bool Empty) :=
  openFile false ++ closeFile false ++ openFile true ++ closeFile true

theorem mappings_once_inTurn : ∃ es s,
    Run (Card.step contactWithGraphicCard) .loaded inTurn es s ∧
      AllSteps (Card.step contactWithGraphicCard) .loaded Card.AccessLive inTurn ∧
      ∀ m, .acquire m ∈ es → es.count (.release m) = 1 := by
  obtain ⟨es, s, hr, hclosed⟩ := exists_run (Card.step contactWithGraphicCard) .loaded inTurn
    (fun _ s => ∀ f, s.isOpen f = false ∧ s.code f = []) (by decide +kernel)
  exact ⟨es, s, hr, ((mappings_once_iff hr).2 hclosed).mpr (allSteps_of_check (by decide +kernel))⟩

/-- Two files, the second opened while the first still is. -/
def overlapping : List (Act Bool Empty) :=
  openFile false ++ openFile true ++ closeFile false ++ closeFile true

/-- **The first file's mappings are lost**, and the second `release` writes through
the mapping that the first one has unmapped. -/
theorem mapping_lost : ∃ es s,
    Run (Card.step contactWithGraphicCard) .loaded overlapping es s ∧
      (∀ f, s.isOpen f = false ∧ s.code f = []) ∧
      ¬ AllSteps (Card.step contactWithGraphicCard) .loaded Card.AccessLive overlapping ∧
      .acquire 0 ∈ es ∧ es.count (.release 0) = 0 := by
  obtain ⟨es, s, hr, hclosed, hacq, hrel⟩ := exists_run (Card.step contactWithGraphicCard) .loaded
    overlapping (fun es s => (∀ f, s.isOpen f = false ∧ s.code f = []) ∧ .acquire 0 ∈ es ∧
      es.count (.release 0) = 0) (by decide +kernel)
  exact ⟨es, s, hr, hclosed, not_allSteps_of_check (by decide +kernel), hacq, hrel⟩

end LinuxKerDev.Cards
