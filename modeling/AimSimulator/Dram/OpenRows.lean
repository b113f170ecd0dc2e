import AimSimulator.Lib.SetBits
import AimSimulator.Dram.Shape
import AimSimulator.Dram.GDDR6Rows
import AimSimulator.Dram.LPDDRRows
/-!
# The open-row masks

Beside the states of the banks a device keeps one mask per channel, with one bit per bank.
`issue_command` updates the masks in a `switch` of its own.  A mask matches its channel when
its set bits are the flat indices of the open banks.
-/

namespace AimSimulator.Dram

def flatBank (numBanks : Nat) : List Nat → Nat
  | [g, b] | [_, g, b] => g * numBanks + b
  | _ => 0

theorem flatBank_inj {n g b g' b' : Nat} (hb : b < n) (hb' : b' < n)
    (h : g * n + b = g' * n + b') : g = g' ∧ b = b' := by
  have hdiv : ∀ g b : Nat, b < n → (g * n + b) / n = g := by
    intro g b hb
    rw [Nat.add_comm, Nat.add_mul_div_right _ _ (by omega), Nat.div_eq_of_lt hb, Nat.zero_add]
  have hg : g = g' := (hdiv g b hb).symm.trans ((congrArg (· / n) h).trans (hdiv g' b' hb'))
  exact ⟨hg, by rw [hg] at h; omega⟩

theorem exists_flatBank {groups n i : Nat} :
    (∃ g b, g < groups ∧ b < n ∧ g * n + b = i) ↔ i < groups * n := by
  constructor
  · rintro ⟨g, b, hg, hb, rfl⟩
    calc g * n + b < g * n + n := Nat.add_lt_add_left hb _
      _ = (g + 1) * n := (Nat.succ_mul g n).symm
      _ ≤ groups * n := Nat.mul_le_mul_right n hg
  · intro hi
    have hn : 0 < n := Nat.pos_of_ne_zero fun h0 => by rw [h0, Nat.mul_zero] at hi; omega
    refine ⟨i / n, i % n, (Nat.div_lt_iff_lt_mul hn).mpr hi, Nat.mod_lt i hn, ?_⟩
    rw [Nat.mul_comm]
    exact Nat.div_add_mod i n

/-- Whether the bit that `issue_command` uses for one bank is the one of its flat index: a bank
of the first bank group, of the first sixteen. -/
def OwnBit (groups banks : Nat) (group bank : Int) : Prop :=
  group = 0 ∧ 0 < groups ∧ 0 ≤ bank ∧ bank < banks ∧ bank < 16

instance {groups banks : Nat} {group bank : Int} : Decidable (OwnBit groups banks group bank) :=
  inferInstanceAs (Decidable (_ ∧ _ ∧ _ ∧ _ ∧ _))

theorem OwnBit.exists_bank {groups banks : Nat} {group bank : Int}
    (h : OwnBit groups banks group bank) :
    ∃ b : Nat, bank = b ∧ bankBit bank = 1#16 <<< b ∧ b < 16 ∧ b < banks := by
  obtain ⟨-, -, hpos, hlt, hwidth⟩ := h
  obtain ⟨b, rfl⟩ := Int.eq_ofNat_of_zero_le hpos
  refine ⟨b, rfl, ?_, by omega, by omega⟩
  rw [bankBit, if_neg (by omega), Int.toNat_natCast]

section

variable {Cmd St Ext : Type} [DecidableEq Cmd] {model : DRAMModel Cmd St Ext}

/-- Whether the set bits of a mask are the indices of the open ones among some banks. -/
def MaskMatches (opened : St) (numBanks : Nat) (mask : BitVec 16)
    (rows : List Nat → Option (BankRows St)) : Prop :=
  ∀ i, mask.getLsbD i = true ↔
    ∃ path r, rows path = some r ∧ flatBank numBanks path = i ∧ r.1 = opened

/-- The paths with banks are those of some groups of `numBanks` banks each. -/
structure BankGrid (groups numBanks : Nat) (name : Nat → Nat → List Nat)
    (rows : List Nat → Option (BankRows St)) : Prop where
  flat : ∀ g b, flatBank numBanks (name g b) = g * numBanks + b
  named : ∀ path r, rows path = some r → ∃ g b, path = name g b ∧ g < groups ∧ b < numBanks
  exists_rows : ∀ g b, g < groups → b < numBanks → ∃ r, rows (name g b) = some r

structure DRAMModel.MasksMatch (model : DRAMModel Cmd St Ext) (opened : St) (numBanks : Nat)
    (dev : model.Dev) : Prop where
  length : dev.openRows.length = dev.channels.length
  mask : ∀ (ch : Nat) mask, dev.openRows[ch]? = some mask →
    MaskMatches opened numBanks mask (model.rowsAt dev ch)

def DRAMModel.someOpen [DecidableEq St] (model : DRAMModel Cmd St Ext) (opened : St)
    (dev : model.Dev) (channel : Nat) : Bool :=
  dev.channels[channel]?.any fun c => (c.banks model.bankLevel).any fun b => b.state = opened

omit [DecidableEq Cmd] in
theorem DRAMModel.someOpen_iff [DecidableEq St] {opened : St} {dev : model.Dev} {channel : Nat} :
    model.someOpen opened dev channel = true ↔
      ∃ path r, model.rowsAt dev channel path = some r ∧ r.1 = opened := by
  rw [someOpen, Option.any_eq_true]
  constructor
  · rintro ⟨c, hc, hany⟩
    obtain ⟨path, r, hr, hopen⟩ :=
      (DRAMNode.any_banks fun r : BankRows St => decide (r.1 = opened)).mp hany
    exact ⟨path, r, by rw [rowsAt, hc]; exact hr, of_decide_eq_true hopen⟩
  · rintro ⟨path, r, hr, hopen⟩
    obtain ⟨c, hc, hrows⟩ := Option.bind_eq_some_iff.mp hr
    exact ⟨c, hc, (DRAMNode.any_banks fun r : BankRows St => decide (r.1 = opened)).mpr
      ⟨path, r, hrows, decide_eq_true hopen⟩⟩

namespace MaskMatches

variable {opened : St} {numBanks : Nat} {mask : BitVec 16}
  {rows : List Nat → Option (BankRows St)} {f : List Nat → BankRows St → BankRows St}

theorem eq_zero_iff (h : MaskMatches opened numBanks mask rows) :
    mask = 0 ↔ ∀ path r, rows path = some r → r.1 ≠ opened := by
  constructor
  · rintro rfl path r hr hopen
    have hbit := (h _).mpr ⟨path, r, hr, rfl, hopen⟩
    simp at hbit
  · intro hclosed
    refine BitVec.eq_of_getLsbD_eq fun i _ => ?_
    rw [show (0 : BitVec 16).getLsbD i = false by simp, ← Bool.not_eq_true, h i]
    rintro ⟨path, r, hr, -, hopen⟩
    exact hclosed path r hr hopen

variable {groups : Nat} {name : Nat → Nat → List Nat}

theorem bit_iff (h : MaskMatches opened numBanks mask rows)
    (hgrid : BankGrid groups numBanks name rows) {g b : Nat} {r : BankRows St}
    (hr : rows (name g b) = some r) : mask.getLsbD (g * numBanks + b) = true ↔ r.1 = opened := by
  rw [h]
  constructor
  · rintro ⟨path, r', hr', hflat, hopen⟩
    obtain ⟨g', b', rfl, -, hb'⟩ := hgrid.named path r' hr'
    obtain ⟨g₀, b₀, hname, -, hb₀⟩ := hgrid.named (name g b) r hr
    have hflat₀ := hgrid.flat g b
    rw [hname, hgrid.flat] at hflat₀
    rw [hgrid.flat, ← hflat₀] at hflat
    obtain ⟨rfl, rfl⟩ := flatBank_inj hb' hb₀ hflat
    rw [← hname, hr] at hr'
    rw [Option.some.inj hr', hopen]
  · exact fun hopen => ⟨_, r, hr, hgrid.flat g b, hopen⟩

theorem keep (h : MaskMatches opened numBanks mask rows)
    (hgrid : BankGrid groups numBanks name rows)
    (hf : ∀ g b r, rows (name g b) = some r → ((f (name g b) r).1 = opened ↔ r.1 = opened)) :
    MaskMatches opened numBanks mask fun path => (rows path).map (f path) := by
  intro i
  rw [h i]
  constructor
  · rintro ⟨path, r, hr, hi, hopen⟩
    obtain ⟨g, b, rfl, -⟩ := hgrid.named path r hr
    exact ⟨_, f _ r, congrArg (Option.map (f _)) hr, hi, (hf g b r hr).mpr hopen⟩
  · rintro ⟨path, r', hr', hi, hopen⟩
    obtain ⟨r, hr, rfl⟩ := Option.map_eq_some_iff.mp hr'
    obtain ⟨g, b, rfl, -⟩ := hgrid.named path r hr
    exact ⟨_, r, hr, hi, (hf g b r hr).mp hopen⟩

theorem zero (hgrid : BankGrid groups numBanks name rows)
    (hf : ∀ g b r, rows (name g b) = some r → (f (name g b) r).1 ≠ opened) :
    MaskMatches opened numBanks 0 fun path => (rows path).map (f path) := by
  intro i
  refine iff_of_false (by simp) ?_
  rintro ⟨path, r', hr', -, hopen⟩
  obtain ⟨r, hr, rfl⟩ := Option.map_eq_some_iff.mp hr'
  obtain ⟨g, b, rfl, -⟩ := hgrid.named path r hr
  exact hf g b r hr hopen

theorem all (hgrid : BankGrid groups numBanks name rows) {mask' : BitVec 16}
    (hmask : ∀ i, mask'.getLsbD i = true ↔ i < groups * numBanks)
    (hf : ∀ g b r, rows (name g b) = some r → (f (name g b) r).1 = opened) :
    MaskMatches opened numBanks mask' fun path => (rows path).map (f path) := by
  intro i
  rw [hmask i, ← exists_flatBank]
  constructor
  · rintro ⟨g, b, hg, hb, rfl⟩
    obtain ⟨r, hr⟩ := hgrid.exists_rows g b hg hb
    exact ⟨_, f _ r, congrArg (Option.map (f _)) hr, hgrid.flat g b, hf g b r hr⟩
  · rintro ⟨path, r', hr', hi, -⟩
    obtain ⟨r, hr, rfl⟩ := Option.map_eq_some_iff.mp hr'
    obtain ⟨g, b, rfl, hg, hb⟩ := hgrid.named path r hr
    exact ⟨g, b, hg, hb, (hgrid.flat g b).symm.trans hi⟩

variable {group bank : Int}

theorem set (h : MaskMatches opened numBanks mask rows)
    (hgrid : BankGrid groups numBanks name rows) (hown : OwnBit groups numBanks group bank)
    (hhere : ∀ (g b : Nat) r, group = g ∧ bank = b → (f (name g b) r).1 = opened)
    (hother : ∀ (g b : Nat) r, ¬ (group = g ∧ bank = b) → f (name g b) r = r) :
    MaskMatches opened numBanks (mask ||| bankBit bank) fun path => (rows path).map (f path) := by
  obtain ⟨b₀, rfl, hbit, hlt, hbanks⟩ := hown.exists_bank
  obtain ⟨rfl, hgroups, -⟩ := hown
  intro i
  rw [hbit, SetBits.getLsbD_set _ hlt, Bool.or_eq_true, h i, decide_eq_true_eq]
  constructor
  · rintro (⟨path, r, hr, hi, hopen⟩ | rfl)
    · obtain ⟨g, b, rfl, -⟩ := hgrid.named path r hr
      refine ⟨_, f _ r, congrArg (Option.map (f _)) hr, hi, ?_⟩
      by_cases hhit : (0 : Int) = g ∧ (b₀ : Int) = b
      · exact hhere g b r hhit
      · rw [hother g b r hhit, hopen]
    · obtain ⟨r, hr⟩ := hgrid.exists_rows 0 i (by omega) (by omega)
      refine ⟨_, f _ r, congrArg (Option.map (f _)) hr, ?_, hhere 0 i r ⟨rfl, rfl⟩⟩
      rw [hgrid.flat, Nat.zero_mul, Nat.zero_add]
  · rintro ⟨path, r', hr', hi, hopen⟩
    obtain ⟨r, hr, rfl⟩ := Option.map_eq_some_iff.mp hr'
    obtain ⟨g, b, rfl, -⟩ := hgrid.named path r hr
    by_cases hhit : (0 : Int) = g ∧ (b₀ : Int) = b
    · refine .inr ?_
      rw [← hi, hgrid.flat, show g = 0 by omega, Nat.zero_mul, Nat.zero_add]
      omega
    · exact .inl ⟨_, r, hr, hi, by rwa [hother g b r hhit] at hopen⟩

theorem clear (h : MaskMatches opened numBanks mask rows)
    (hgrid : BankGrid groups numBanks name rows) (hown : OwnBit groups numBanks group bank)
    (hhere : ∀ (g b : Nat) r, group = g ∧ bank = b → (f (name g b) r).1 ≠ opened)
    (hother : ∀ (g b : Nat) r, ¬ (group = g ∧ bank = b) → f (name g b) r = r) :
    MaskMatches opened numBanks (mask &&& ~~~ bankBit bank)
      fun path => (rows path).map (f path) := by
  obtain ⟨b₀, rfl, hbit, hlt, hbanks⟩ := hown.exists_bank
  obtain ⟨rfl, hgroups, -⟩ := hown
  intro i
  rw [hbit, SetBits.getLsbD_clear, Bool.and_eq_true, h i, decide_eq_true_eq]
  constructor
  · rintro ⟨⟨path, r, hr, hi, hopen⟩, hne⟩
    obtain ⟨g, b, rfl, -⟩ := hgrid.named path r hr
    refine ⟨_, f _ r, congrArg (Option.map (f _)) hr, hi, ?_⟩
    have hmiss : ¬ ((0 : Int) = g ∧ (b₀ : Int) = b) := by
      rintro ⟨hg, hb⟩
      refine hne ?_
      rw [← hi, hgrid.flat, show g = 0 by omega, Nat.zero_mul, Nat.zero_add]
      omega
    rw [hother g b r hmiss, hopen]
  · rintro ⟨path, r', hr', hi, hopen⟩
    obtain ⟨r, hr, rfl⟩ := Option.map_eq_some_iff.mp hr'
    obtain ⟨g, b, rfl, hg, hb⟩ := hgrid.named path r hr
    have hmiss : ¬ ((0 : Int) = g ∧ (b₀ : Int) = b) := fun hhit => hhere g b r hhit hopen
    refine ⟨⟨_, r, hr, hi, by rwa [hother g b r hmiss] at hopen⟩, fun hne => hmiss ?_⟩
    have hflat : g * numBanks + b = 0 * numBanks + b₀ := by
      rw [← hgrid.flat, hi, hne, Nat.zero_mul, Nat.zero_add]
    obtain ⟨rfl, rfl⟩ := flatBank_inj hb (by omega) hflat
    exact ⟨rfl, rfl⟩

end MaskMatches

namespace DRAMModel

variable {opened : St} {numBanks : Nat} {dev : model.Dev} {cmd : Cmd} {a : AddrVec}

omit [DecidableEq Cmd] in
theorem createNodes_masksMatch {count : Nat → Int} (hinit : model.initStates (model.level 0) ≠ opened) :
    model.MasksMatch opened numBanks (model.createNodes count) := by
  refine ⟨by simp [createNodes], fun ch mask hmask i => ?_⟩
  have hzero : mask = 0 := by
    have hmem := List.mem_of_getElem? hmask
    exact (List.mem_replicate.mp hmem).2
  refine iff_of_false (by simp [hzero]) ?_
  rintro ⟨path, r, hr, -, hopen⟩
  rw [model.rowsAt_createNodes hr] at hopen
  exact hinit hopen

omit [DecidableEq Cmd] in
theorem MasksMatch.eq_zero_iff [DecidableEq St] (h : model.MasksMatch opened numBanks dev)
    (ch : Nat) : dev.openRows.getD ch 0 = 0 ↔ model.someOpen opened dev ch = false := by
  rw [← Bool.not_eq_true, someOpen_iff]
  by_cases hch : ch < dev.openRows.length
  · have hmask : dev.openRows[ch]? = some dev.openRows[ch] := List.getElem?_eq_getElem hch
    rw [List.getD_eq_getElem?_getD, hmask, Option.getD_some, (h.mask ch _ hmask).eq_zero_iff]
    constructor
    · rintro hclosed ⟨path, r, hr, hopen⟩
      exact hclosed path r hr hopen
    · exact fun hnone path r hr hopen => hnone ⟨path, r, hr, hopen⟩
  · have hnone : dev.channels[ch]? = none := List.getElem?_eq_none (by rw [← h.length]; omega)
    rw [List.getD_eq_getElem?_getD, List.getElem?_eq_none (by omega)]
    refine iff_of_true rfl ?_
    rintro ⟨path, r, hr, -⟩
    rw [rowsAt, hnone] at hr
    cases hr

theorem issueCommand_masksMatch {f : DRAMSpec.RowAction Cmd St} (hf : model.ActsBy f)
    (h : model.MasksMatch opened numBanks dev)
    (hstep : ∀ (ch : Nat) mask, a.at 0 = ch → dev.openRows[ch]? = some mask →
      MaskMatches opened numBanks mask (model.rowsAt dev ch) →
        MaskMatches opened numBanks (model.openRowsAfter cmd a mask)
          fun path => (model.rowsAt dev ch path).map (model.touch f cmd a model.bankLevel path)) :
    model.MasksMatch opened numBanks (model.issueCommand dev cmd a) := by
  refine ⟨?_, fun ch mask' hmask' => ?_⟩
  · unfold issueCommand
    split
    · exact h.length
    · rw [List.length_modify, List.length_modify]
      exact h.length
  · have hrows : model.rowsAt (model.issueCommand dev cmd a) ch = fun path =>
        (model.rowsAt dev ch path).map fun r =>
          if a.at 0 = ch then model.touch f cmd a model.bankLevel path r else r :=
      funext fun path => model.rowsAt_issueCommand hf dev cmd a ch path
    rw [hrows]
    by_cases hch : a.at 0 = ch
    · have hneg : ¬ a.at 0 < 0 := by omega
      rw [issueCommand, if_neg hneg] at hmask'
      dsimp only at hmask'
      rw [hch, Int.toNat_natCast, List.getElem?_modify_eq] at hmask'
      obtain ⟨mask, hmask, rfl⟩ := Option.map_eq_some_iff.mp hmask'
      simp only [hch, if_true]
      exact hstep ch mask hch hmask (h.mask ch mask hmask)
    · have hmask : dev.openRows[ch]? = some mask' := by
        unfold issueCommand at hmask'
        split at hmask'
        · exact hmask'
        · dsimp only at hmask'
          have hne : (a.at 0).toNat ≠ ch := by omega
          exact (List.getElem?_modify_ne _ _ hne).symm.trans hmask'
      simp only [hch, if_false, Option.map_id']
      exact h.mask ch mask' hmask

end DRAMModel

end

/-! ## GDDR6 -/

namespace GDDR6

variable {V : Timing → Int} {count : Nat → Int} {s : IssueRun (model V).Dev Cmd} {cmd : Cmd}
  {a : AddrVec}

/-- Whether the mask update of a command follows its row actions: the update for one bank uses
the index of the bank in its group, and the one for all banks sets all sixteen bits. -/
def MirrorsBanks (count : Nat → Int) (cmd : Cmd) (a : AddrVec) : Prop :=
  match cmd with
  | .ACT | .PRE | .RDA | .WRA =>
      OwnBit (count bankgroup).toNat (count bank).toNat (a.at bankgroup) (a.at bank)
  | .ACT16 => (count bankgroup).toNat * (count bank).toNat = 16
  | _ => True

instance {count : Nat → Int} {cmd : Cmd} {a : AddrVec} : Decidable (MirrorsBanks count cmd a) := by
  cases cmd <;> unfold MirrorsBanks <;> infer_instance

theorem mem_paths {g b : Nat} : [g, b] ∈ (model V).paths count (model V).bankLevel ↔
    g < (count bankgroup).toNat ∧ b < (count bank).toNat := by
  refine (DRAMSpec.mem_paths_cons (d := 1) (model V).toDRAMSpec).trans (and_congr_right fun _ => ?_)
  refine (DRAMSpec.mem_paths_cons (d := 0) (model V).toDRAMSpec).trans ?_
  exact and_iff_left (List.mem_singleton.mpr rfl)

theorem bankGrid (hs : (model V).DeviceTiming count s) {ch : Nat}
    (hch : ch < s.dev.channels.length) :
    BankGrid (count bankgroup).toNat (count bank).toNat (fun g b => [g, b])
      ((model V).rowsAt s.dev ch) := by
  refine ⟨fun _ _ => rfl, fun path r hr => ?_, fun g b hg hb => ?_⟩
  · obtain ⟨g, b, rfl⟩ := path_cases hr
    exact ⟨g, b, rfl, mem_paths.mp (hs.rowsAt_isSome.mp ⟨r, hr⟩).2⟩
  · exact hs.rowsAt_isSome.mpr ⟨hch, mem_paths.mpr ⟨hg, hb⟩⟩

theorem IsFinal.notGroup {final : Cmd} (h : IsFinal final) : final ≠ .ACT4 ∧ final ≠ .PRE4 := by
  rcases h with ⟨type, h⟩ | ⟨op, h⟩
  · cases type <;> cases h <;> exact ⟨nofun, nofun⟩
  · cases op <;> cases h <;> exact ⟨nofun, nofun⟩

theorem issueCommand_masksMatch (hs : (model V).DeviceTiming count s)
    (h : (model V).MasksMatch .Opened (count bank).toNat s.dev) (hm : MirrorsBanks count cmd a)
    (hgroup : cmd ≠ .ACT4 ∧ cmd ≠ .PRE4) :
    (model V).MasksMatch .Opened (count bank).toNat ((model V).issueCommand s.dev cmd a) := by
  refine DRAMModel.issueCommand_masksMatch (actsBy V) h fun ch mask hch hmask hold => ?_
  have hgrid := @bankGrid V count s hs ch (h.length ▸ (List.getElem?_eq_some_iff.mp hmask).1)
  have heffect : ∀ (g b : Nat) r,
      (model V).touch rowAction cmd a (model V).bankLevel [g, b] r = rowEffect cmd a g b r :=
    touch_rowEffect cmd a
  cases cmd with
  | WRA16 | PREA => exact .zero hgrid fun g b r _ => by rw [heffect]; nofun
  | PRE | RDA | WRA =>
      refine hold.clear hgrid hm (fun g b r hhere hopen => ?_) fun g b r hother => ?_
      · rw [heffect] at hopen
        have hclosed : St.Closed = St.Opened := (congrArg Prod.fst (if_pos hhere)).symm.trans hopen
        cases hclosed
      · rw [heffect]
        exact if_neg hother
  | ACT =>
      refine hold.set hgrid hm (fun g b r hhere => ?_) fun g b r hother => ?_
      · rw [heffect]
        exact congrArg Prod.fst (if_pos hhere)
      · rw [heffect]
        exact if_neg hother
  | ACT16 =>
      refine .all hgrid (fun i => ?_) fun g b r _ => by rw [heffect]; rfl
      rw [show (count bankgroup).toNat * (count bank).toNat = 16 from hm]
      show (BitVec.allOnes 16).getLsbD i = true ↔ i < 16
      rw [BitVec.getLsbD_allOnes, decide_eq_true_eq]
  | ACT4 => exact absurd rfl hgroup.1
  | PRE4 => exact absurd rfl hgroup.2
  | _ => exact hold.keep hgrid fun g b r _ => by rw [heffect]; rfl

end GDDR6

/-! ## LPDDR4 and LPDDR5 -/

namespace LPDDR

/-- Whether the mask that `ACT8-2` sets has the bits of exactly the existing banks. -/
def AllBanksFit (gen : Generation) (groups banks : Int) : Prop :=
  0 ≤ groups ∧ 0 ≤ banks ∧
    match gen with
    | .LPDDR4 => groups * banks ≤ 16
    | .LPDDR5 => groups * banks = 16

instance {gen : Generation} {groups banks : Int} : Decidable (AllBanksFit gen groups banks) := by
  cases gen <;> unfold AllBanksFit <;> infer_instance

variable {gen : Generation} {V : Timing → Int} {count : Nat → Int}
  {s : IssueRun (model gen count V).Dev Cmd} {cmd : Cmd} {a : AddrVec}

/-- Whether the mask update of a command follows its row actions in a channel of one rank: the
update for one bank uses the index of the bank in its group, the one for all banks sets the bits
of existing banks, `ACT8-1` does not close the row of an open bank, and `WRA8`, which closes no
bank, finds none open. -/
def MirrorsBanks (dev : (model gen count V).Dev) (cmd : Cmd) (a : AddrVec) : Prop :=
  match cmd with
  | .ACT_2 | .PRE | .RDA | .WRA =>
      a.at rank = 0 ∧
        OwnBit (count bankgroup).toNat (count bank).toNat (a.at bankgroup) (a.at bank)
  | .ACT8_2 => AllBanksFit gen (count bankgroup) (count bank)
  | .PREA => a.at rank = 0
  | .ACT8_1 | .WRA8 => (model gen count V).someOpen .Opened dev (a.at channel).toNat = false
  | _ => True

instance {dev : (model gen count V).Dev} {cmd : Cmd} {a : AddrVec} :
    Decidable (MirrorsBanks dev cmd a) := by
  cases cmd <;> unfold MirrorsBanks <;> infer_instance

theorem mem_paths (hrank : count rank = 1) {k g b : Nat} :
    [k, g, b] ∈ (model gen count V).paths count (model gen count V).bankLevel ↔
      k = 0 ∧ g < (count bankgroup).toNat ∧ b < (count bank).toNat := by
  have hrank' : (count ((model gen count V).level 2)).toNat = 1 := congrArg Int.toNat hrank
  refine (DRAMSpec.mem_paths_cons (d := 2) (model gen count V).toDRAMSpec).trans ?_
  rw [hrank', Nat.lt_one_iff]
  refine and_congr_right fun _ => ?_
  refine (DRAMSpec.mem_paths_cons (d := 1) (model gen count V).toDRAMSpec).trans ?_
  refine and_congr_right fun _ => ?_
  refine (DRAMSpec.mem_paths_cons (d := 0) (model gen count V).toDRAMSpec).trans ?_
  exact and_iff_left (List.mem_singleton.mpr rfl)

theorem bankGrid (hrank : count rank = 1) (hs : (model gen count V).DeviceTiming count s) {ch : Nat}
    (hch : ch < s.dev.channels.length) :
    BankGrid (count bankgroup).toNat (count bank).toNat (fun g b => [0, g, b])
      ((model gen count V).rowsAt s.dev ch) := by
  refine ⟨fun _ _ => rfl, fun path r hr => ?_, fun g b hg hb => ?_⟩
  · obtain ⟨k, g, b, rfl⟩ := path_cases hr
    obtain ⟨rfl, hg, hb⟩ := (mem_paths hrank).mp (hs.rowsAt_isSome.mp ⟨r, hr⟩).2
    exact ⟨g, b, rfl, hg, hb⟩
  · exact hs.rowsAt_isSome.mpr ⟨hch, (mem_paths hrank).mpr ⟨rfl, hg, hb⟩⟩

theorem getLsbD_openMask {n i : Nat} : (openMask n).getLsbD i = true ↔ i < n ∧ i < 16 := by
  induction n with
  | zero => simp [openMask]
  | succ n ih =>
      have hmask : openMask (n + 1) = openMask n ||| bankBit n := by
        rw [openMask, List.range_succ, List.foldl_append]
        rfl
      have hbit : bankBit n = 1#16 <<< n := by
        rw [bankBit, if_neg (by omega), Int.toNat_natCast]
      rw [hmask, hbit]
      by_cases hn : n < 16
      · rw [SetBits.getLsbD_set _ hn, Bool.or_eq_true, ih, decide_eq_true_eq]
        omega
      · have hzero : 1#16 <<< n = 0#16 := BitVec.shiftLeft_eq_zero (by omega)
        rw [hzero, BitVec.or_zero, ih]
        omega

theorem getLsbD_allBanks (hfit : AllBanksFit gen (count bankgroup) (count bank)) (a : AddrVec)
    (mask : BitVec 16) (i : Nat) : (openRowsAfter gen count .ACT8_2 a mask).getLsbD i = true ↔
      i < (count bankgroup).toNat * (count bank).toNat := by
  obtain ⟨hgroups, hbanks, hfit⟩ := hfit
  rw [← Int.toNat_mul hgroups hbanks]
  cases gen with
  | LPDDR4 =>
      have hle : (count bankgroup * count bank).toNat ≤ 16 := by
        dsimp only at hfit
        omega
      refine getLsbD_openMask.trans ⟨fun h => h.1, fun h => ⟨h, by omega⟩⟩
  | LPDDR5 =>
      have heq : (count bankgroup * count bank).toNat = 16 := congrArg Int.toNat hfit
      rw [heq]
      show (BitVec.allOnes 16).getLsbD i = true ↔ i < 16
      rw [BitVec.getLsbD_allOnes, decide_eq_true_eq]

theorem preqs_ne_act1 {size : Int} {d : Nat} (hd : 0 < d) {preq : PreqFunc Cmd St Int d}
    (h : preqs size d cmd = some preq) (up : List (NodeBase Cmd St Int)) (n : DRAMNode Cmd St Int d)
    (clk : Int) : preq up n a clk ≠ some .ACT_1 := by
  have hact : ∀ op ≠ Cmd.ACT_1, ∀ n, preqRankAct op up n a clk ≠ some .ACT_1 := by
    intro op hop n
    unfold preqRankAct
    split
    · nofun
    · split
      · nofun
      · split
        · nofun
        · exact fun h => hop (Option.some.inj h)
  have hif : ∀ (p : Bool) (op op' : Cmd), op ≠ .ACT_1 → op' ≠ .ACT_1 →
      (if p then some op else some op') ≠ some Cmd.ACT_1 := by
    rintro (_ | _) op op' h h' heq
    · exact h' (Option.some.inj heq)
    · exact h (Option.some.inj heq)
  match d with
  | 2 =>
      cases cmd <;> simp only [preqs, Option.some.injEq, reduceCtorEq] at h <;> subst h
      case MAC8 | AF8 | EWMUL8 => exact hact _ (by decide) n
      case REFpb | RFMpb => exact hif _ _ _ (by decide) (by decide)
      case REFab | RFMab => exact hif _ _ _ (by decide) (by decide)
      all_goals
        unfold preqRankSync
        rw [apply_ite some]
        exact hif _ _ _ (by decide) (by decide)
  | 1 | _ + 3 => simp [preqs] at h

theorem preqBankAct_act1 {hit : List (NodeBase Cmd St Int) → Int → Cmd}
    {up : List (NodeBase Cmd St Int)} {b : NodeBase Cmd St Int} {clk : Int}
    (hne : hit up clk ≠ .ACT_1) (h : preqBankAct hit up (.bank b) a clk = some .ACT_1) :
    b.state = .Closed := by
  unfold preqBankAct at h
  rw [DRAMNode.base_bank] at h
  split at h
  · assumption
  · cases h
  · split at h
    · exact absurd (Option.some.inj h) hne
    · cases h
  all_goals exact absurd (Option.some.inj h) hne

theorem IsFinal.notGroup {final : Cmd} (h : IsFinal final) :
    final ≠ .ACT4_1 ∧ final ≠ .ACT4_2 ∧ final ≠ .PRE4 := by
  rcases h with ⟨type, h⟩ | ⟨op, h⟩
  · cases type <;> cases h <;> exact ⟨nofun, nofun, nofun⟩
  · cases op <;> cases h <;> exact ⟨nofun, nofun, nofun⟩

theorem IsFinal.notBank {final : Cmd} (h : IsFinal final) :
    final ≠ .ACT_1 ∧ final ≠ .RDA ∧ final ≠ .WRA := by
  rcases h with ⟨type, h⟩ | ⟨op, h⟩
  · cases type <;> cases h <;> exact ⟨nofun, nofun, nofun⟩
  · cases op <;> cases h <;> exact ⟨nofun, nofun, nofun⟩

theorem getPreqCommand_act1 {dev : (model gen count V).Dev} {final : Cmd}
    (hisFinal : IsFinal final)
    (h : (model gen count V).getPreqCommand dev final a = .ACT_1) {b : NodeBase Cmd St Int}
    (hb : (model gen count V).addressed dev a = some b) : b.state = .Closed := by
  have hfinal := hisFinal.notBank
  by_cases hmem : final ∈ bankAccesses
  · obtain ⟨hnone, hit, hpreq, hhit⟩ := @bankAccess_preqs gen count V _ hmem
    have hne : ∀ up clk, hit up clk ≠ .ACT_1 := by
      intro up clk heq
      rcases hhit up clk with h' | h' | h' <;> rw [heq] at h'
      · exact hfinal.1 h'.symm
      · cases h'
      · cases h'
    rcases (model gen count V).getPreqCommand_bank hnone dev a with
      ⟨b', up, hb', heq⟩ | ⟨hnobank, -⟩
    · obtain rfl := Option.some.inj (hb'.symm.trans hb)
      rw [heq, DRAMSpec.ownPreq, hpreq] at h
      dsimp only at h
      cases hanswer : preqBankAct hit up (.bank b') a dev.clk with
      | none =>
          rw [hanswer] at h
          cases h
      | some c =>
          rw [hanswer] at h
          obtain rfl : c = .ACT_1 := h
          exact preqBankAct_act1 (hne _ _) hanswer
    · cases hnobank.symm.trans hb
  · refine absurd h ((model gen count V).getPreqCommand_induct (P := (· ≠ .ACT_1)) hfinal.1
      (by rintro ⟨⟩) ?_)
    intro k up n c hc
    unfold DRAMSpec.ownPreq at hc
    split at hc
    · next preq heq =>
        rintro rfl
        cases k with
        | zero =>
            cases final <;> simp only [model, preqs, reduceCtorEq] at heq
            case RDA => exact hfinal.2.1 rfl
            case WRA => exact hfinal.2.2 rfl
            all_goals exact hmem (by decide)
        | succ k => exact preqs_ne_act1 k.succ_pos heq up n _ hc
    · cases hc

theorem issueCommand_masksMatch (hrank : count rank = 1)
    (hs : (model gen count V).DeviceTiming count s)
    (h : (model gen count V).MasksMatch .Opened (count bank).toNat s.dev)
    (hm : MirrorsBanks s.dev cmd a)
    (hact : cmd = .ACT_1 → ∀ ch path r, (model gen count V).Names a ch path →
      (model gen count V).rowsAt s.dev ch path = some r → r.1 ≠ .Opened)
    (hgroup : cmd ≠ .ACT4_1 ∧ cmd ≠ .ACT4_2 ∧ cmd ≠ .PRE4) :
    (model gen count V).MasksMatch .Opened (count bank).toNat
      ((model gen count V).issueCommand s.dev cmd a) := by
  refine DRAMModel.issueCommand_masksMatch (actsBy gen count V) h fun ch mask hch hmask hold => ?_
  have hgrid := @bankGrid gen V count s hrank hs ch (h.length ▸ (List.getElem?_eq_some_iff.mp hmask).1)
  have hclosed : (model gen count V).someOpen .Opened s.dev (a.at channel).toNat = false →
      ∀ (g b : Nat) r, (model gen count V).rowsAt s.dev ch [0, g, b] = some r → r.1 ≠ .Opened := by
    intro hnone g b r hr hopen
    rw [show a.at channel = ch from hch, Int.toNat_natCast] at hnone
    exact Bool.false_ne_true (hnone.symm.trans (DRAMModel.someOpen_iff.mpr ⟨_, r, hr, hopen⟩))
  have heffect : ∀ (g b : Nat) r,
      (model gen count V).touch rowAction cmd a (model gen count V).bankLevel [0, g, b] r =
        rowEffect cmd a 0 g b r := fun g b r => touch_bank cmd a 0 g b r
  cases cmd with
  | WRA8 =>
      exact .zero hgrid fun g b r hr => by rw [heffect]; exact hclosed hm g b r hr
  | PREA =>
      refine .zero hgrid fun g b r hr hopen => ?_
      rw [heffect] at hopen
      have hclosed : St.Closed = St.Opened :=
        (congrArg Prod.fst (if_pos (show a.at rank = (0 : Nat) from hm))).symm.trans hopen
      cases hclosed
  | PRE | RDA | WRA =>
      refine hold.clear hgrid hm.2 (fun g b r hhere hopen => ?_) fun g b r hother => ?_
      · rw [heffect] at hopen
        have hclosed : St.Closed = St.Opened :=
          (congrArg Prod.fst (if_pos ⟨⟨hm.1, hhere.1⟩, hhere.2⟩)).symm.trans hopen
        cases hclosed
      · rw [heffect]
        exact if_neg fun hhere => hother ⟨hhere.1.2, hhere.2⟩
  | ACT_2 =>
      refine hold.set hgrid hm.2 (fun g b r hhere => ?_) fun g b r hother => ?_
      · rw [heffect]
        exact congrArg Prod.fst (if_pos ⟨⟨hm.1, hhere.1⟩, hhere.2⟩)
      · rw [heffect]
        exact if_neg fun hhere => hother ⟨hhere.1.2, hhere.2⟩
  | ACT8_2 =>
      exact .all hgrid (getLsbD_allBanks hm a mask) fun g b r _ => by rw [heffect]; rfl
  | ACT8_1 =>
      refine hold.keep hgrid fun g b r hr => iff_of_false ?_ (hclosed hm g b r hr)
      rw [heffect]
      intro hopen
      by_cases hrank : a.at rank = (0 : Nat)
      · have hstate : St.PreOpened = St.Opened :=
          (congrArg Prod.fst (if_pos hrank)).symm.trans hopen
        cases hstate
      · rw [show rowEffect .ACT8_1 a 0 g b r = r from if_neg hrank] at hopen
        exact hclosed hm g b r hr hopen
  | ACT_1 =>
      refine hold.keep hgrid fun g b r hr => ?_
      rw [heffect]
      by_cases hhere : (a.at rank = (0 : Nat) ∧ a.at bankgroup = g) ∧ a.at bank = b
      · have hnames : (model gen count V).Names a ch [0, g, b] :=
          names_bank hch hhere.1.1 hhere.1.2 hhere.2
        refine iff_of_false (fun hopen => ?_) (hact rfl ch _ r hnames hr)
        have hstate : St.PreOpened = St.Opened :=
          (congrArg Prod.fst (if_pos hhere)).symm.trans hopen
        cases hstate
      · exact iff_of_eq (congrArg (fun r : BankRows St => r.1 = .Opened) (if_neg hhere))
  | ACT4_1 => exact absurd rfl hgroup.1
  | ACT4_2 => exact absurd rfl hgroup.2.1
  | PRE4 => exact absurd rfl hgroup.2.2
  | _ => exact hold.keep hgrid fun g b r _ => by rw [heffect]; rfl

end LPDDR

end AimSimulator.Dram
