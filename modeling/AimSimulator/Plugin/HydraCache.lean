import AimSimulator.Plugin.HydraTracking
/-!
# The row-count cache of Hydra

The sets of the cache keep their size, and the write request of an eviction goes to the
counter of the evicted row: unpacking a tag inverts packing it.
-/

namespace AimSimulator.Plugin

open MisraGries

/-! ## Unpacking a tag -/

theorem toInt_eq {n : Nat} (h : n < 2 ^ 31) : toInt n = n := by
  rw [toInt, BitVec.toInt_ofInt]
  exact Int.bmod_eq_of_le (by omega) (by omega)

namespace HydraParams

variable {p : HydraParams}

theorem Encodes.evictedBankId {i bank row : Nat} {tag : Int} (h : p.Encodes i tag bank row)
    (hp : p.Geometry) (hfits : p.rccTagBits ≤ 32) :
    p.evictedBankId tag = bank := by
  have hshift : p.evictedBankId tag = ((p.rccTag bank row >>> p.rccTagRowBits.toNat : Nat) : Int) := by
    rw [HydraParams.evictedBankId, ← h.tag]
    rfl
  rw [hshift, Nat.shiftRight_eq_div_pow, hp.rccTag_div h.tagRowBits hfits h.bank_lt h.row_lt]

theorem Encodes.evictedRowId {i bank row : Nat} {tag : Int} (h : p.Encodes i tag bank row)
    (hp : p.Geometry) (hfits : p.rccTagBits ≤ 32) :
    p.evictedRowId tag i = row := by
  have hmask : ((1 : Int) <<< p.rccTagRowBits.toNat) - 1 =
      ((2 ^ p.rccTagRowBits.toNat - 1 : Nat) : Int) := by
    rw [Nat.cast_pred (Nat.two_pow_pos _), ← Nat.one_shiftLeft]
    rfl
  have hpack : p.evictedRowId tag i =
      (((p.rccTag bank row &&& (2 ^ p.rccTagRowBits.toNat - 1)) <<< p.rccIndexBits ||| i : Nat) :
        Int) := by
    rw [HydraParams.evictedRowId, hmask, ← h.tag]
    rfl
  have hlow : row % 2 ^ p.rccIndexBits < 2 ^ p.rccIndexBits := Nat.mod_lt _ (Nat.two_pow_pos _)
  rw [hpack, Nat.and_two_pow_sub_one_eq_mod, hp.rccTag_mod h.tagRowBits hfits h.bank_lt h.row_lt,
    ← h.index, HydraParams.Geometry.rccIndex_eq, ← Nat.shiftLeft_add_eq_or_of_lt hlow,
    Nat.shiftLeft_eq, Nat.mul_comm, Nat.div_add_mod]

def counterAddrVec (p : HydraParams) (v : AddrVec) (bank row : Nat) : AddrVec :=
  p.rctAddrVec
    ((v.set 2 ((bank / p.numBanks : Nat) : Int)).set 3 ((bank % p.numBanks : Nat) : Int)) row

theorem Encodes.evictedEntryAddrVec {i bank row : Nat} {tag : Int} (h : p.Encodes i tag bank row)
    (hp : p.Geometry) (hfits : p.rccTagBits ≤ 32) (v : AddrVec) :
    p.evictedEntryAddrVec v tag i = p.counterAddrVec v bank row := by
  rw [HydraParams.evictedEntryAddrVec, h.evictedBankId hp hfits,
    h.evictedRowId hp hfits, counterAddrVec, Int.ofNat_tdiv, Int.ofNat_tmod]

theorem Encodes.toInt_tag {i bank row : Nat} {tag : Int} (h : p.Encodes i tag bank row)
    (hp : p.Geometry) (hfits : p.rccTagBits ≤ 31) :
    toInt tag = tag := by
  have hlt := hp.rccTag_lt h.tagRowBits (by omega) h.bank_lt h.row_lt
  rw [← h.tag]
  exact toInt_eq (Nat.lt_of_lt_of_le hlt (Nat.pow_le_pow_right (by decide) (by omega)))

end HydraParams

/-! ## What an activation does to the cache -/

namespace Hydra

variable {p : HydraParams} {s : Hydra}

def writes (sent : Sent) : List AddrVec := (sent.filter fun x => x.1 = .rctWrite).map Prod.snd

theorem writes_append (sent sent' : Sent) : writes (sent ++ sent') = writes sent ++ writes sent' := by
  rw [writes, List.filter_append, List.map_append]
  rfl

theorem writes_eq_nil {sent : Sent} (h : ∀ x ∈ sent, x.1 ≠ .rctWrite) : writes sent = [] := by
  rw [writes, List.filter_eq_nil_iff.mpr fun x hx => by rw [decide_eq_true_eq]; exact h x hx]
  rfl

theorem rowCountCache_store_ne {a : HydraAccess} {k i : Nat} (h : k ≠ a.rankId ∨ i ≠ a.rccIndex)
    (count : Nat) : (s.store a count).rowCountCache k i = s.rowCountCache k i :=
  setCache_ne h _

theorem rowCountCache_store_self (a : HydraAccess) (count : Nat) :
    (s.store a count).rowCountCache a.rankId a.rccIndex =
      (s.rowCountCache a.rankId a.rccIndex).insert a.rccTag count :=
  setCache_self _ _ _

theorem rowCountCache_store_store (a : HydraAccess) (count count' : Nat) :
    ((s.store a count).store a count').rowCountCache = (s.store a count').rowCountCache := by
  funext k i
  by_cases h : k ≠ a.rankId ∨ i ≠ a.rccIndex
  · rw [rowCountCache_store_ne h, rowCountCache_store_ne h, rowCountCache_store_ne h]
  · obtain ⟨rfl, rfl⟩ : k = a.rankId ∧ i = a.rccIndex := by omega
    rw [rowCountCache_store_self, rowCountCache_store_self, rowCountCache_store_self,
      AList.insert_insert]

theorem checkThreshold_cache (p : HydraParams) (s : Hydra) (a : HydraAccess) (count : Nat) :
    (∃ count', ((s.store a count).checkThreshold p a).1.rowCountCache =
        (s.store a count').rowCountCache) ∧
      writes ((s.store a count).checkThreshold p a).2 = [] := by
  rw [checkThreshold_store]
  split
  · exact ⟨⟨0, rowCountCache_store_store a count 0⟩, rfl⟩
  · exact ⟨⟨count, rfl⟩, rfl⟩

/-- What an activation does to the cache: nothing; a counter is stored for a row that has an
entry, or has none in a set with room; or one entry of a full set makes room. -/
inductive CacheStep (p : HydraParams) (s : Hydra) (a : HydraAccess) (s' : Hydra) (sent : Sent) :
    Prop
  | same : s'.rowCountCache = s.rowCountCache → writes sent = [] → CacheStep p s a s' sent
  | stored {count : Nat} :
      (∃ old, (s.rowCountCache a.rankId a.rccIndex).lookup a.rccTag = some old) ∨
        ((s.rowCountCache a.rankId a.rccIndex).lookup a.rccTag = none ∧
          (s.rowCountCache a.rankId a.rccIndex).entries.length ≠ 16) →
      s'.rowCountCache = (s.store a count).rowCountCache → writes sent = [] →
        CacheStep p s a s' sent
  | evicted {tag : Int} {old count bank row : Nat} :
      (s.rowCountCache a.rankId a.rccIndex).lookup a.rccTag = none →
      (s.rowCountCache a.rankId a.rccIndex).entries.length = 16 →
      (s.rowCountCache a.rankId a.rccIndex).lookup tag = some old →
      p.Encodes a.rccIndex tag bank row →
      s'.rowCountCache = ((s.setCache a.rankId a.rccIndex
        ((s.rowCountCache a.rankId a.rccIndex).erase tag)).store a count).rowCountCache →
      writes sent = [p.counterAddrVec a.addrVec bank row] → CacheStep p s a s' sent

theorem countRow_cacheStep {a : HydraAccess} {bank : Nat} {choice : Nat} {s' : Hydra} {sent : Sent}
    (hp : p.Geometry) (hfits : p.rccTagBits ≤ 31) (hc : Coherent p s) (ha : a.Valid p bank)
    (h : s.countRow p a choice = some (s', sent)) :
    CacheStep p s a (s'.checkThreshold p a).1 (sent ++ (s'.checkThreshold p a).2) := by
  obtain ⟨s₁, sent₁, rfl, hroom⟩ := countRow_cases hp (by omega) hc ha h
  obtain ⟨⟨count, hcache⟩, hwrites⟩ :=
    checkThreshold_cache p s₁ a (s.rowCount a.flatBankId a.rowId + 1)
  rcases hroom with ⟨rfl, rfl, hold⟩ | ⟨hnone, hroom, rfl⟩
  · refine .stored (.inl hold) hcache ?_
    rw [writes_append, hwrites]
    rfl
  · rcases makeRoom_cases hroom with ⟨hlength, rfl, rfl⟩ | ⟨tag, old, hlength, hold, rfl, rfl⟩
    · refine .stored (.inr ⟨hnone, hlength⟩) hcache ?_
      rw [writes_append, hwrites]
      rfl
    · obtain ⟨bank', row, henc, -⟩ := hc _ _ _ _ hold
      have htag := henc.toInt_tag hp hfits
      rw [htag] at hcache hwrites ⊢
      refine .evicted hnone hlength hold henc hcache ?_
      rw [writes_append, hwrites, writes_append,
        henc.evictedEntryAddrVec hp (by omega)]
      rfl

theorem countRct_cacheStep (p : HydraParams) (s : Hydra) (a : HydraAccess) :
    CacheStep p s a (s.countRct p a).1 (s.countRct p a).2 := by
  unfold countRct
  dsimp only
  split
  · exact .same rfl rfl
  · exact .same rfl rfl

theorem CacheStep.of_cache_eq {a : HydraAccess} {s₀ s' : Hydra} {init sent : Sent}
    (hcache : s₀.rowCountCache = s.rowCountCache) (hinit : writes init = [])
    (h : CacheStep p s₀ a s' sent) : CacheStep p s a s' (init ++ sent) := by
  have hstore : ∀ count, (s₀.store a count).rowCountCache = (s.store a count).rowCountCache := by
    intro count
    unfold store setRowCount setCache
    rw [hcache]
  have hwrites : writes (init ++ sent) = writes sent := by
    rw [writes_append, hinit, List.nil_append]
  cases h with
  | same heq hnone => exact .same (heq.trans hcache) (hwrites.trans hnone)
  | stored hroom heq hnone =>
      rw [hcache] at hroom
      exact .stored hroom (heq.trans (hstore _)) (hwrites.trans hnone)
  | @evicted tag old count bank row hnone hlength hold henc heq hwrite =>
      rw [hcache] at hnone hlength hold
      have hevicted : s'.rowCountCache = ((s.setCache a.rankId a.rccIndex
          ((s.rowCountCache a.rankId a.rccIndex).erase tag)).store a count).rowCountCache := by
        rw [heq]
        unfold store setRowCount setCache
        rw [hcache]
      exact .evicted hnone hlength hold henc hevicted (hwrites.trans hwrite)

theorem activate_cacheStep {a : HydraAccess} {bank : Nat} {choice : Nat} {s' : Hydra} {sent : Sent}
    (hp : p.Geometry) (hfits : p.rccTagBits ≤ 31) (hs : Bounded p s) (hc : Coherent p s)
    (ha : a.Valid p bank) (h : s.activate p a choice = some (s', sent)) :
    CacheStep p s a s' sent := by
  unfold activate at h
  dsimp only at h
  split at h
  · obtain ⟨rfl, rfl⟩ := Prod.mk.inj (Option.some.inj h)
    exact countRct_cacheStep p s a
  · split at h
    · next hreached =>
        have hstart := initGroup_starts hp hs hc hreached
        obtain ⟨⟨s₁, sent₁⟩, hcount, heq⟩ := Option.map_eq_some_iff.mp h
        obtain ⟨rfl, rfl⟩ := Prod.mk.inj heq
        have hinit : writes (s.initGroup p a).2 = [] :=
          writes_eq_nil fun x hx => by rw [hstart.sent x hx]; decide
        have hstep := countRow_cacheStep hp hfits hstart.coherent ha hcount
        rw [List.append_assoc]
        exact hstep.of_cache_eq hstart.cache hinit
    · obtain ⟨rfl, rfl⟩ := Prod.mk.inj (Option.some.inj h)
      exact .same rfl rfl

/-! ## The size of a set -/

def Sized (s : Hydra) : Prop := ∀ k i, (s.rowCountCache k i).entries.length ≤ 16

theorem CacheStep.sized {a : HydraAccess} {s' : Hydra} {sent : Sent} (hs : s.Sized)
    (h : CacheStep p s a s' sent) : s'.Sized := by
  intro k i
  cases h with
  | same heq => rw [heq]; exact hs k i
  | stored hroom heq =>
      rw [heq]
      by_cases hki : k ≠ a.rankId ∨ i ≠ a.rccIndex
      · rw [rowCountCache_store_ne hki]
        exact hs k i
      · obtain ⟨rfl, rfl⟩ : k = a.rankId ∧ i = a.rccIndex := by omega
        have hle := hs a.rankId a.rccIndex
        rw [rowCountCache_store_self, Table.length_insert]
        rcases hroom with ⟨old, hold⟩ | ⟨hnone, hne⟩
        · rw [Table.length_erase hold]
          exact hle
        · rw [Table.erase_of_lookup_eq_none hnone]
          omega
  | @evicted tag old count bank row hnone hlength hold henc heq =>
      rw [heq]
      by_cases hki : k ≠ a.rankId ∨ i ≠ a.rccIndex
      · rw [rowCountCache_store_ne hki, setCache_ne hki]
        exact hs k i
      · obtain ⟨rfl, rfl⟩ : k = a.rankId ∧ i = a.rccIndex := by omega
        have hshort := Table.length_erase hold
        rw [rowCountCache_store_self, setCache_self, Table.length_insert,
          Table.erase_of_lookup_eq_none (Summary.lookup_erase_eq_none tag hnone)]
        omega

theorem advance_sized (hs : s.Sized) : (s.advance p).Sized := by
  unfold advance
  split
  · exact fun _ _ => Nat.zero_le _
  · exact hs

theorem Run.sized (hp : p.Geometry) (hfits : p.rccTagBits ≤ 31) {w : Watched} (h : Run p w) :
    w.plugin.Sized := by
  refine h.invariant_with (I := fun w => w.plugin.Sized) (fun w (hw : Run p w) => hw) ?_ ?_
  · rintro w rfl
    exact fun _ _ => Nat.zero_le _
  · intro w call w' hw _ hs haddr hstep
    obtain ⟨⟨s', sent⟩, hupdate, rfl⟩ := Option.map_eq_some_iff.mp hstep
    have htracks := hw.tracks hp (by omega)
    obtain ⟨hbounded, hcoherent⟩ := advance_keeps htracks.bounded htracks.coherent
    rcases update_cases hupdate with ⟨-, rfl, -⟩ | ⟨v, a, hact, haccess, hactivate⟩
    · exact advance_sized hs
    · obtain ⟨rfl, -, -, ha⟩ := HydraParams.access_spec (haddr v hact) haccess
      exact (activate_cacheStep hp hfits hbounded hcoherent ha hactivate).sized (advance_sized hs)

/-! ## Evictions -/

/-- A call loses no entry and writes nothing, or loses the entry of one row, of the rank that the
activation is of, and writes the counter of this row. -/
def EvictionsWritten (p : HydraParams) (s : Hydra) (request : Option Issued) (s' : Hydra)
    (sent : Sent) : Prop :=
  ((∀ k i tag, (s.rowCountCache k i).lookup tag ≠ none →
      (s'.rowCountCache k i).lookup tag ≠ none) ∧ writes sent = []) ∨
  ∃ v k i tag bank row, p.levels.activation request = some v ∧ v.at 1 = ((k : Nat) : Int) ∧
    p.Encodes i tag bank row ∧
    (s.rowCountCache k i).lookup tag ≠ none ∧ (s'.rowCountCache k i).lookup tag = none ∧
    (∀ k' i' tag', (k' ≠ k ∨ i' ≠ i ∨ tag' ≠ tag) → (s.rowCountCache k' i').lookup tag' ≠ none →
      (s'.rowCountCache k' i').lookup tag' ≠ none) ∧
    writes sent = [p.counterAddrVec v bank row]

theorem lookup_insert_ne_none {t : Table Int} {x y : Int} {c : Nat} (h : t.lookup y ≠ none) :
    (t.insert x c).lookup y ≠ none := by
  by_cases hxy : y = x
  · rw [hxy, AList.lookup_insert]
    exact nofun
  · rw [AList.lookup_insert_ne hxy]
    exact h

theorem CacheStep.evictionsWritten {a : HydraAccess} {request : Option Issued} {s' : Hydra}
    {sent : Sent} (hact : p.levels.activation request = some a.addrVec)
    (hrank : a.addrVec.at 1 = (a.rankId : Int)) (h : CacheStep p s a s' sent) :
    EvictionsWritten p s request s' sent := by
  cases h with
  | same heq hnone => exact .inl ⟨fun k i tag h => by rwa [heq], hnone⟩
  | stored hroom heq hnone =>
      refine .inl ⟨fun k i tag h => ?_, hnone⟩
      rw [heq]
      by_cases hki : k ≠ a.rankId ∨ i ≠ a.rccIndex
      · rwa [rowCountCache_store_ne hki]
      · obtain ⟨rfl, rfl⟩ : k = a.rankId ∧ i = a.rccIndex := by omega
        rw [rowCountCache_store_self]
        exact lookup_insert_ne_none h
  | @evicted tag old count bank row hnone hlength hold henc heq hwrite =>
      have hne : tag ≠ a.rccTag := by
        rintro rfl
        rw [hnone] at hold
        cases hold
      refine .inr ⟨a.addrVec, a.rankId, a.rccIndex, tag, bank, row, hact, hrank, henc, ?_, ?_, ?_,
        hwrite⟩
      · rw [hold]
        exact nofun
      · rw [heq, rowCountCache_store_self, setCache_self, AList.lookup_insert_ne hne,
          AList.lookup_erase]
      · intro k i tag' hother h
        rw [heq]
        by_cases hki : k ≠ a.rankId ∨ i ≠ a.rccIndex
        · rwa [rowCountCache_store_ne hki, setCache_ne hki]
        · obtain ⟨rfl, rfl⟩ : k = a.rankId ∧ i = a.rccIndex := by omega
          rw [rowCountCache_store_self, setCache_self]
          refine lookup_insert_ne_none ?_
          rw [AList.lookup_erase_ne (by omega)]
          exact h

theorem Run.evictionsWritten (hp : p.Geometry) (hfits : p.rccTagBits ≤ 31) {w : Watched}
    (h : Run p w) {request : Option Issued} {choice : Nat} (haddr : Addressed p request)
    {s' : Hydra} {sent : Sent} (hupdate : w.plugin.update p request choice = some (s', sent)) :
    EvictionsWritten p (w.plugin.advance p) request s' sent := by
  have htracks := h.tracks hp (by omega)
  obtain ⟨hbounded, hcoherent⟩ := advance_keeps htracks.bounded htracks.coherent
  rcases update_cases hupdate with ⟨-, rfl, rfl⟩ | ⟨v, a, hact, haccess, hactivate⟩
  · exact .inl ⟨fun _ _ _ h => h, rfl⟩
  · have hrank := HydraParams.access_rankId (haddr v hact) haccess
    obtain ⟨rfl, -, -, ha⟩ := HydraParams.access_spec (haddr v hact) haccess
    exact (activate_cacheStep hp hfits hbounded hcoherent ha hactivate).evictionsWritten hact hrank

end Hydra

open Hydra

/-- With powers of two as sizes and tags that fit `int`, in every state of every run: a set of
the cache has at most sixteen entries, each of them encodes one row and holds the counter of
this row, and each eviction writes to the counter of the evicted row. -/
theorem hydra_cache_coherent {c : HydraConfig} {p : HydraParams} (hsetup : c.setup = some p)
    (hsizes : c.PowersOfTwo) (htag : p.rccTagBits ≤ 31) {w : Watched} (h : Run p w) :
    (∀ rank set, (w.plugin.rowCountCache rank set).entries.length ≤ 16) ∧
    (∀ rank set tag count, (w.plugin.rowCountCache rank set).lookup tag = some count →
      ∃ bank row, p.Encodes set tag bank row ∧
        (∀ bank' row', p.Encodes set tag bank' row' → bank' = bank ∧ row' = row) ∧
        w.plugin.rowCount (rank * c.numBanksPerRank + bank) row = count) ∧
    ∀ request choice s' sent, Addressed p request →
      w.plugin.update p request choice = some (s', sent) →
        EvictionsWritten p (w.plugin.advance p) request s' sent := by
  obtain ⟨hp, rfl⟩ := hsizes.geometry hsetup
  refine ⟨h.sized hp htag, fun rank set tag count hlookup => ?_,
    fun request choice s' sent haddr hupdate => h.evictionsWritten hp htag haddr hupdate⟩
  obtain ⟨bank, row, henc, hcount, -⟩ := (h.tracks hp (by omega)).coherent _ _ _ _ hlookup
  exact ⟨bank, row, henc, fun bank' row' henc' => henc.unique hp (by omega) henc', hcount⟩

def oneSetHydra : HydraConfig := { ddr4Hydra with groupThreshold := 1, rccNumPerRank := 16 }

theorem oneSetHydra_powersOfTwo : oneSetHydra.PowersOfTwo :=
  ⟨⟨16, rfl⟩, ⟨4, rfl⟩, ⟨2, rfl⟩, ⟨0, rfl⟩⟩

def groupRow (j : Nat) : Option Issued × Nat := (some ⟨true, 4, [0, 0, 1, 2, 1000 + 4 * j, 0]⟩, 0)

/-- Sixteen rows fill the set, and the row of the next group evicts one of them. -/
theorem hydra_cache_coherent_ddr4 :
    ∃ p w s' sent, oneSetHydra.setup = some p ∧ Run p w ∧
      (w.plugin.rowCountCache 0 0).entries.length = 16 ∧
      (∀ tag count, (w.plugin.rowCountCache 0 0).lookup tag = some count →
        ∃ bank row, p.Encodes 0 tag bank row ∧
          (∀ bank' row', p.Encodes 0 tag bank' row' → bank' = bank ∧ row' = row) ∧
          w.plugin.rowCount (0 * 16 + bank) row = count) ∧
      w.plugin.update p (groupRow 16).1 (groupRow 16).2 = some (s', sent) ∧ writes sent ≠ [] ∧
      EvictionsWritten p (w.plugin.advance p) (groupRow 16).1 s' sent := by
  have hrun : (oneSetHydra.setup.any fun p =>
      (p.rccTagBits ≤ 31 ∧ Addressed p (groupRow 16).1) ∧
        (Runs.replay (Watched.step p) (fun _ call => decide (Addressed p call.1)) {}
          ((List.range 17).map groupRow ++ (List.range 16).map groupRow)).any fun w =>
            (w.plugin.rowCountCache 0 0).entries.length = 16 ∧
              (w.plugin.update p (groupRow 16).1 (groupRow 16).2).any fun r =>
                writes r.2 ≠ []) = true := by
    decide +kernel
  obtain ⟨p, hp, htest⟩ := Option.any_eq_true .. |>.mp hrun
  obtain ⟨⟨htag, haddr⟩, hreplay⟩ := of_decide_eq_true htest
  obtain ⟨w, hw, htest⟩ := Option.any_eq_true .. |>.mp hreplay
  obtain ⟨hfull, hevicts⟩ := of_decide_eq_true htest
  obtain ⟨⟨s', sent⟩, hupdate, hwrites⟩ := Option.any_eq_true .. |>.mp hevicts
  have hr := run_replay (fun _ _ hok => of_decide_eq_true hok) hw
  obtain ⟨-, hentry, hcall⟩ := hydra_cache_coherent hp oneSetHydra_powersOfTwo htag hr
  exact ⟨p, w, s', sent, hp, hr, hfull, hentry 0 0, hupdate, of_decide_eq_true hwrites,
    hcall _ _ _ _ haddr hupdate⟩

instance (p : HydraParams) (i : Nat) (tag : Int) (bank row : Nat) :
    Decidable (p.Encodes i tag bank row) :=
  decidable_of_iff (0 ≤ p.rccTagRowBits ∧ bank < p.numBanksPerRank ∧ row < p.numRows ∧
      p.rccIndex row = i ∧ (p.rccTag bank row : Int) = tag)
    ⟨fun h => ⟨h.1, h.2.1, h.2.2.1, h.2.2.2.1, h.2.2.2.2⟩,
      fun h => ⟨h.tagRowBits, h.bank_lt, h.row_lt, h.index, h.tag⟩⟩

/-- With tags of 33 bits an entry encodes a row of two banks. -/
theorem hydra_tag_shared :
    ∃ p w, wideHydra.setup = some p ∧ wideHydra.PowersOfTwo ∧ Run p w ∧
      ((w.plugin.rowCountCache 0 0).lookup 1000).isSome ∧
      p.Encodes 0 1000 0 1000 ∧ p.Encodes 0 1000 16384 1000 := by
  have hrun : (wideHydra.setup.any fun p => (p.Encodes 0 1000 0 1000 ∧
        p.Encodes 0 1000 16384 1000) ∧
      (Runs.replay (Watched.step p) (fun _ call => decide (Addressed p call.1)) {}
        [(some ⟨true, 4, [0, 0, 0, 0, 1000, 0]⟩, 0),
          (some ⟨true, 4, [0, 0, 0, 0, 1000, 8]⟩, 0)]).any fun w =>
            ((w.plugin.rowCountCache 0 0).lookup 1000).isSome) = true := by
    decide +kernel
  obtain ⟨p, hp, htest⟩ := Option.any_eq_true .. |>.mp hrun
  obtain ⟨hencodes, hreplay⟩ := of_decide_eq_true htest
  obtain ⟨w, hw, hsome⟩ := Option.any_eq_true .. |>.mp hreplay
  exact ⟨p, w, hp, wideHydra_powersOfTwo, run_replay (fun _ _ hok => of_decide_eq_true hok) hw,
    hsome, hencodes⟩

end AimSimulator.Plugin
