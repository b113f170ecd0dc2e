import Mathlib.Data.Int.Bitwise
import Mathlib.Data.List.AList
import Mathlib.Tactic.Tauto
import AimSimulator.AddrMapper.LinearMappers
import AimSimulator.Lib.Runs
/-!
# Random translation

`translation/impl/random_translation.cpp`.  The random numbers of a call are an argument of
`translate`, and `none` is an exception, a division by zero, an index outside a table or a
search that has not ended with the numbers given.  The bitmap of the free pages is set by
`init` only: no call takes a page out of it.
-/

namespace AimSimulator.Translation

open AddrMapper

structure TranslationParams where
  maxAddr : Nat
  pagesizeKB : Nat := 4
  numCores : Nat

namespace TranslationParams

variable (p : TranslationParams)

def pagesize : Nat := p.pagesizeKB <<< 10

def offsetbits : Nat := calcLog2 p.pagesize

def numPages : Nat := p.maxAddr / p.pagesize

end TranslationParams

/-- `m_translation`: a map from virtual to physical page numbers for each core. -/
abbrev TranslationMap := AList fun _ : Int => Nat

structure RandomTranslation where
  freePhysicalPages : List Bool
  numFreePhysicalPages : Nat
  translation : List TranslationMap
  reservedPages : List Int := []

namespace RandomTranslation

variable (p : TranslationParams)

def init : RandomTranslation where
  freePhysicalPages := List.replicate p.numPages true
  numFreePhysicalPages := p.numPages
  translation := List.replicate p.numCores ∅

def draw (accept : Nat → Bool) (rng : List Nat) : Option Nat :=
  (rng.map (· % p.numPages)).find? accept

/-- A new page for a virtual page without translation, and how many pages are free after it. -/
def newPage (s : RandomTranslation) (rng : List Nat) : Option (Nat × Nat) :=
  if p.numPages = 0 then none
  else if s.numFreePhysicalPages = 0 then
    (draw p (fun ppn => !s.reservedPages.contains ppn) rng).map fun ppn => (ppn, 0)
  else
    (draw p (fun ppn => !s.reservedPages.contains ppn && s.freePhysicalPages.getD ppn false)
      rng).map fun ppn => (ppn, s.numFreePhysicalPages - 1)

def vpn (req : Request) : Int := req.addr >>> p.offsetbits

def translated (req : Request) (ppn : Nat) : Request :=
  { req with
    addr := Int.lor ((ppn : Int) <<< p.offsetbits)
      (Int.land req.addr (((1 : Int) <<< p.offsetbits) - 1)) }

def translate (s : RandomTranslation) (req : Request) (rng : List Nat) :
    Option (RandomTranslation × Request) :=
  if p.pagesize = 0 ∨ req.sourceId < 0 then none
  else
    (s.translation[req.sourceId.toNat]?).bind fun coreTranslation =>
      match coreTranslation.lookup (vpn p req) with
      | some ppn => some (s, translated p req ppn)
      | none =>
          (s.newPage p rng).map fun (ppn, numFreePhysicalPages) =>
            ({ s with
              numFreePhysicalPages
              translation :=
                s.translation.set req.sourceId.toNat (coreTranslation.insert (vpn p req) ppn) },
              translated p req ppn)

def reserve (s : RandomTranslation) (type : String) (addr : Int) : Option RandomTranslation :=
  if type ≠ "Hydra" then none
  else some { s with reservedPages := (addr >>> p.offsetbits) :: s.reservedPages }

inductive Op
  | reserve (type : String) (addr : Int)
  | translate (req : Request) (rng : List Nat)

def step (s : RandomTranslation) : Op → Option RandomTranslation
  | .reserve type addr => s.reserve p type addr
  | .translate req rng => (s.translate p req rng).map Prod.fst

/-! ## Aliases -/

def record (s : RandomTranslation) (core : Nat) (vpn : Int) : Option Nat :=
  (s.translation[core]?).bind (·.lookup vpn)

def NoAlias (s : RandomTranslation) : Prop :=
  ∀ core core' vpn vpn' ppn, s.record core vpn = some ppn → s.record core' vpn' = some ppn →
    core' = core ∧ vpn' = vpn

/-- The first random page of a call for a page without record, among those that are not
reserved, belongs to no page of a core. -/
def DrawsUnmapped (s : RandomTranslation) : Op → Prop
  | .reserve _ _ => True
  | .translate req rng => s.record req.sourceId.toNat (vpn p req) = none →
      ∀ ppn, draw p (fun ppn => !s.reservedPages.contains ppn) rng = some ppn →
        ∀ core vpn, s.record core vpn ≠ some ppn

variable {p} {s s' : RandomTranslation}

def AllFree (p : TranslationParams) (s : RandomTranslation) : Prop :=
  s.freePhysicalPages = List.replicate p.numPages true

theorem newPage_fst (hfree : AllFree p s) {rng : List Nat} {ppn free : Nat}
    (h : s.newPage p rng = some (ppn, free)) :
    draw p (fun ppn => !s.reservedPages.contains ppn) rng = some ppn := by
  unfold newPage at h
  split at h
  · cases h
  · next hpages =>
      split at h
      · obtain ⟨ppn', hdraw, heq⟩ := Option.map_eq_some_iff.mp h
        obtain ⟨rfl, -⟩ := Prod.mk.inj heq
        exact hdraw
      · obtain ⟨ppn', hdraw, heq⟩ := Option.map_eq_some_iff.mp h
        obtain ⟨rfl, -⟩ := Prod.mk.inj heq
        rw [← hdraw, draw, draw, ← List.head?_filter, ← List.head?_filter]
        congr 1
        refine List.filter_congr fun a ha => ?_
        obtain ⟨r, -, rfl⟩ := List.mem_map.mp ha
        have hlt : r % p.numPages < p.numPages := Nat.mod_lt _ (Nat.pos_of_ne_zero hpages)
        rw [hfree, List.getD_replicate _ hlt, Bool.and_true]

theorem draw_accepted {accept : Nat → Bool} {rng : List Nat} {ppn : Nat}
    (h : draw p accept rng = some ppn) : accept ppn = true := List.find?_some h

/-- What `translate` does: nothing where the page has a record, else a record for it. -/
theorem translate_cases {req req' : Request} {rng : List Nat}
    (h : s.translate p req rng = some (s', req')) :
    s' = s ∧ s.record req.sourceId.toNat (vpn p req) ≠ none ∨
      ∃ ppn, s.record req.sourceId.toNat (vpn p req) = none ∧
      (∃ free, s.newPage p rng = some (ppn, free)) ∧
      s'.reservedPages = s.reservedPages ∧ s'.freePhysicalPages = s.freePhysicalPages ∧
      s'.record req.sourceId.toNat (vpn p req) = some ppn ∧
      ∀ core page, (core ≠ req.sourceId.toNat ∨ page ≠ vpn p req) →
        s'.record core page = s.record core page := by
  unfold translate at h
  split at h
  · cases h
  · obtain ⟨coreTranslation, hcore, h⟩ := Option.bind_eq_some_iff.mp h
    cases hlookup : coreTranslation.lookup (vpn p req) with
    | some ppn =>
        rw [hlookup] at h
        obtain ⟨rfl, -⟩ := Prod.mk.inj (Option.some.inj h)
        refine .inl ⟨rfl, fun hnone => ?_⟩
        rw [record, hcore, Option.bind_some, hlookup] at hnone
        cases hnone
    | none =>
        rw [hlookup] at h
        obtain ⟨⟨ppn, free⟩, hnew, heq⟩ := Option.map_eq_some_iff.mp h
        obtain ⟨rfl, -⟩ := Prod.mk.inj heq
        have hlt := (List.getElem?_eq_some_iff.mp hcore).1
        refine .inr ⟨ppn, ?_, ⟨free, hnew⟩, rfl, rfl, ?_, fun core page hne => ?_⟩
        · rw [record, hcore]
          exact hlookup
        · rw [record]
          dsimp only
          rw [List.getElem?_set_self hlt]
          exact AList.lookup_insert _
        · unfold record
          dsimp only
          by_cases hc : core = req.sourceId.toNat
          · subst hc
            rw [List.getElem?_set_self hlt, hcore]
            exact AList.lookup_insert_ne (hne.resolve_left (· rfl))
          · rw [List.getElem?_set_ne (Ne.symm hc)]

/-! ## Runs -/

abbrev Run (p : TranslationParams) (guard : RandomTranslation → Op → Prop) :
    RandomTranslation → Prop :=
  Runs.Reachable (Eq (init p)) (fun s op s' => s.step p op = some s') guard

theorem allFree_step {op : Op} (hs : AllFree p s) (h : s.step p op = some s') : AllFree p s' := by
  cases op with
  | reserve type addr =>
      simp only [step, reserve] at h
      split at h
      · cases h
      · obtain rfl := Option.some.inj h
        exact hs
  | translate req rng =>
      obtain ⟨⟨t, req'⟩, htranslate, rfl⟩ := Option.map_eq_some_iff.mp h
      rcases translate_cases htranslate with ⟨rfl, -⟩ | ⟨ppn, -, -, -, hfree, -⟩
      · exact hs
      · exact hfree.trans hs

theorem Run.allFree {guard : RandomTranslation → Op → Prop} (h : Run p guard s) : AllFree p s := by
  refine h.invariant (I := AllFree p) ?_ ?_
  · rintro s rfl
    rfl
  · exact fun s op s' hs _ hstep => allFree_step hs hstep

theorem NoAlias.insert {core ppn : Nat} {page : Int} (hs : NoAlias s)
    (hself : s'.record core page = some ppn)
    (hother : ∀ c v, (c ≠ core ∨ v ≠ page) → s'.record c v = s.record c v)
    (hfresh : ∀ c v, s.record c v ≠ some ppn) : NoAlias s' := by
  -- whoever has the new page after the step is the new owner
  have howner : ∀ c v, s'.record c v = some ppn → c = core ∧ v = page := by
    intro c v hv
    by_contra hne
    rw [hother c v (by tauto)] at hv
    exact hfresh c v hv
  intro c c' v v' q hq hq'
  by_cases hsame : c = core ∧ v = page
  · obtain ⟨rfl, rfl⟩ := hsame
    obtain rfl : ppn = q := Option.some.inj (hself.symm.trans hq)
    exact howner c' v' hq'
  · by_cases hsame' : c' = core ∧ v' = page
    · obtain ⟨rfl, rfl⟩ := hsame'
      obtain rfl : ppn = q := Option.some.inj (hself.symm.trans hq')
      exact absurd (howner c v hq) hsame
    · rw [hother c v (by tauto)] at hq
      rw [hother c' v' (by tauto)] at hq'
      exact hs c c' v v' q hq hq'

theorem noAlias_step {op : Op} (hfree : AllFree p s) (hs : NoAlias s)
    (h : s.step p op = some s') : NoAlias s' ↔ DrawsUnmapped p s op := by
  cases op with
  | reserve type addr =>
      simp only [step, reserve] at h
      split at h
      · cases h
      · obtain rfl := Option.some.inj h
        exact iff_of_true hs trivial
  | translate req rng =>
      obtain ⟨⟨t, req'⟩, htranslate, rfl⟩ := Option.map_eq_some_iff.mp h
      rcases translate_cases htranslate with
        ⟨rfl, hsome⟩ | ⟨ppn, hnone, ⟨free, hnew⟩, -, -, hself, hother⟩
      · exact iff_of_true hs fun hnone => absurd hnone hsome
      · have hdraw := newPage_fst hfree hnew
        constructor
        · intro hs' _ ppn' hppn' core page hpage
          obtain rfl : ppn' = ppn := Option.some.inj (hppn'.symm.trans hdraw)
          by_cases hsame : core = req.sourceId.toNat ∧ page = vpn p req
          · obtain ⟨rfl, rfl⟩ := hsame
            rw [hnone] at hpage
            cases hpage
          · rw [← hother core page (by tauto)] at hpage
            exact hsame (hs' _ _ _ _ _ hself hpage)
        · intro hfresh
          exact hs.insert hself hother (hfresh hnone ppn hdraw)

theorem draw_lt {accept : Nat → Bool} {rng : List Nat} {ppn : Nat} (hpages : p.numPages ≠ 0)
    (h : draw p accept rng = some ppn) : ppn < p.numPages := by
  obtain ⟨r, -, rfl⟩ := List.mem_map.mp (List.mem_of_find?_eq_some h)
  exact Nat.mod_lt _ (Nat.pos_of_ne_zero hpages)

theorem newPage_accepted (hfree : AllFree p s) {rng : List Nat} {ppn free : Nat}
    (h : s.newPage p rng = some (ppn, free)) :
    ppn < p.numPages ∧ (ppn : Int) ∉ s.reservedPages := by
  have hdraw := newPage_fst hfree h
  have hpages : p.numPages ≠ 0 := by
    intro hzero
    rw [newPage, if_pos hzero] at h
    cases h
  have haccept := draw_accepted hdraw
  exact ⟨draw_lt hpages hdraw, by simpa using haccept⟩

@[simp] theorem record_init (core : Nat) (page : Int) : (init p).record core page = none := by
  unfold record init
  dsimp only
  rw [List.getElem?_replicate]
  split
  · exact AList.lookup_empty page
  · rfl

/-- While every page that is drawn belongs to nobody, no two pages share a physical page, and
what is handed out is a page of the memory that is not reserved. -/
theorem random_translation_no_alias (h : Run p (DrawsUnmapped p) s) :
    NoAlias s ∧ ∀ req rng s' req', s.translate p req rng = some (s', req') →
      s.record req.sourceId.toNat (vpn p req) = none →
        ∃ ppn, s'.record req.sourceId.toNat (vpn p req) = some ppn ∧
          ppn < p.numPages ∧ (ppn : Int) ∉ s.reservedPages := by
  constructor
  · have hfree : ∀ t, Run p (DrawsUnmapped p) t → AllFree p t := fun t ht => ht.allFree
    refine h.invariant_with (I := NoAlias) hfree ?_ ?_
    · rintro s rfl core core' page page' ppn hpage
      rw [record_init] at hpage
      cases hpage
    · exact fun s op s' hfree _ hs hguard hstep => (noAlias_step hfree hs hstep).mpr hguard
  · intro req rng s' req' htranslate hnone
    rcases translate_cases htranslate with ⟨-, hsome⟩ | ⟨ppn, -, ⟨free, hnew⟩, -, -, hself, -⟩
    · exact absurd hnone hsome
    · exact ⟨ppn, hself, newPage_accepted h.allFree hnew⟩

def small : TranslationParams := { maxAddr := 16384, numCores := 2 }

/-- A core translates an address of its page while the generator gives one number. -/
def touch (core : Nat) (page : Int) (random : Nat) : Op :=
  .translate { addr := page * 4096, sourceId := core } [random]

/-- One page of the first core. -/
theorem random_translation_no_alias_one :
    ∃ s, (init small).step small (touch 0 0 1) = some s ∧ Run small (DrawsUnmapped small) s ∧
      NoAlias s := by
  obtain ⟨s, hs⟩ : ∃ s, (init small).step small (touch 0 0 1) = some s :=
    Option.isSome_iff_exists.mp (by decide +kernel)
  have hguard : DrawsUnmapped small (init small) (touch 0 0 1) := by
    intro _ ppn _ core page hpage
    rw [record_init] at hpage
    cases hpage
  have hrun : Run small (DrawsUnmapped small) s := .next (.start rfl) hguard hs
  exact ⟨s, hs, hrun, (random_translation_no_alias hrun).1⟩

/-- The generator gives the same number for two pages of a core: both get the same page. -/
theorem random_translation_alias :
    ∃ s, Run small (fun _ _ => True) s ∧ ¬ NoAlias s := by
  have hrun : ((Runs.replay (step small) (fun _ _ => true) (init small)
      [touch 0 0 1, touch 0 1 1]).any fun s =>
        decide (s.record 0 0 = some 1) && decide (s.record 0 1 = some 1)) = true := by
    decide +kernel
  obtain ⟨s, hs, htest⟩ := Option.any_eq_true _ _ |>.mp hrun
  obtain ⟨hzero, hone⟩ := Bool.and_eq_true_iff.mp htest
  refine ⟨s, Runs.replay_reachable (fun _ _ _ => trivial) (.start rfl) hs, fun hs' => ?_⟩
  exact absurd (hs' 0 0 0 1 1 (of_decide_eq_true hzero) (of_decide_eq_true hone)).2 (by decide)

end RandomTranslation

end AimSimulator.Translation
