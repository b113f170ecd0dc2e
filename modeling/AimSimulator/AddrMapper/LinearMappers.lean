import Mathlib.Data.Int.Bitwise
import AimSimulator.Lib.BitFields
import AimSimulator.Dma.Decode
/-!
# Linear address mappings

`addr_mapper/impl/linear_mappers.cpp` and the bit operations of `base/utils.h`.  The three
mappers cut a transaction address into slices; `MOP4CLXOR` also mixes column bits into the
other levels.
-/

namespace AimSimulator.AddrMapper

open BitFields

/-! ## Bit operations -/

/-- The loop of `calc_log2`; the fuel is the value itself. -/
def calcLog2.loop : Nat → Nat → Nat → Nat
  | 0, _, n => n
  | fuel + 1, val, n => if val >>> 1 ≠ 0 then loop fuel (val >>> 1) (n + 1) else n

def calcLog2 (val : Nat) : Nat := calcLog2.loop val val 0

theorem calcLog2.loop_eq {fuel val : Nat} (n : Nat) (h : val ≤ fuel) :
    calcLog2.loop fuel val n = n + val.log2 := by
  induction fuel generalizing val n with
  | zero =>
      obtain rfl : val = 0 := by omega
      rw [loop, Nat.log2_zero, Nat.add_zero]
  | succ fuel ih =>
      have hhalf : val >>> 1 = val / 2 := by rw [Nat.shiftRight_eq_div_pow, Nat.pow_one]
      rw [loop, hhalf, Nat.log2_def val]
      by_cases h2 : 2 ≤ val
      · rw [if_pos (by omega), if_pos h2, ih (n + 1) (by omega)]
        omega
      · rw [if_neg (by omega), if_neg h2, Nat.add_zero]

theorem calcLog2_two_pow (k : Nat) : calcLog2 (2 ^ k) = k := by
  rw [calcLog2, calcLog2.loop_eq 0 (Nat.le_refl _), Nat.log2_two_pow, Nat.zero_add]

/-- `slice_lower_bits`: the slice and the address that is left. -/
def sliceLowerBits (addr : Int) (numBits : Nat) : Int × Int :=
  (Int.land addr (((1 : Int) <<< numBits) - 1), addr >>> numBits)

theorem sliceLowerBits_natCast (a numBits : Nat) :
    sliceLowerBits a numBits = (((a % 2 ^ numBits : Nat) : Int), ((a / 2 ^ numBits : Nat) : Int)) := by
  have hmask : ((1 : Int) <<< numBits) - 1 = ((2 ^ numBits - 1 : Nat) : Int) := by
    rw [Nat.cast_pred (Nat.two_pow_pos numBits), ← Nat.one_shiftLeft]
    rfl
  rw [sliceLowerBits, hmask, ← Nat.and_two_pow_sub_one_eq_mod, ← Nat.shiftRight_eq_div_pow]
  rfl

def toInt (addr : Int) : Int := (BitVec.ofInt 32 addr).toInt

theorem toInt_natCast {a : Nat} (h : a < 2 ^ 31) : toInt a = a := by
  rw [toInt, BitVec.toInt_ofInt]
  exact Int.bmod_eq_of_le (by omega) (by omega)

/-! ## The mappers -/

/-- An organization with powers of two as counts and at least four transactions in a row.
The counts are of type `int`, and the row and the column are the last levels. -/
structure PowersOfTwo (count : List Nat) (rowLevel internalPrefetchSize : Nat) : Prop where
  counts : ∀ c ∈ count, ∃ k < 31, c = 2 ^ k
  prefetch : ∃ k, internalPrefetchSize = 2 ^ k
  row : rowLevel + 2 = count.length
  transactions : 4 * internalPrefetchSize ≤ count.getD (rowLevel + 1) 0

def levelSize (count : List Nat) (internalPrefetchSize level : Nat) : Nat :=
  if level + 1 = count.length then count.getD level 0 / internalPrefetchSize
  else count.getD level 0

structure LinearMapperBase where
  numLevels : Nat
  addrBits : List Nat
  txOffset : Nat
  colBitsIdx : Nat
  rowBitsIdx : Nat

namespace LinearMapperBase

def setup (count : List Nat) (rowLevel internalPrefetchSize channelWidth : Nat) :
    LinearMapperBase where
  numLevels := count.length
  addrBits := (count.map calcLog2).modify (count.length - 1) (· - calcLog2 internalPrefetchSize)
  txOffset := calcLog2 (internalPrefetchSize * channelWidth / 8)
  colBitsIdx := count.length - 1
  rowBitsIdx := rowLevel

variable (m : LinearMapperBase)

/-- `m_addr_bits[level]`. -/
def bits (level : Nat) : Nat := m.addrBits.getD level 0

/-- `addr_vec[level] = slice_lower_bits(addr, m_addr_bits[level])`. -/
def sliceLevel (st : AddrVec × Int) (level : Nat) : AddrVec × Int :=
  (st.1.set level (sliceLowerBits st.2 (m.bits level)).1, (sliceLowerBits st.2 (m.bits level)).2)

def sliceLevels (order : List Nat) (addrVec : AddrVec) (addr : Int) : AddrVec × Int :=
  order.foldl m.sliceLevel (addrVec, addr)

/-- `ChRaBaRoCo::apply`: from the last level up. -/
def chRaBaRoCo (req : Request) : Request :=
  { req with
    addrVec := (m.sliceLevels (List.range m.addrBits.length).reverse
      (Dma.resize req.addrVec m.numLevels) (req.addr >>> m.txOffset)).1 }

/-- `RoBaRaCoCh::apply`: the channel, the column, then the levels down to the row. -/
def roBaRaCoCh (req : Request) : Request :=
  { req with
    addrVec := (m.sliceLevels (0 :: (m.addrBits.length - 1) :: List.range' 1 m.rowBitsIdx)
      (Dma.resize req.addrVec m.numLevels) (req.addr >>> m.txOffset)).1 }

/-- One turn of the second loop of `MOP4CLXOR`: the vector and `row_xor_index`.  A shift by the
width of `int` or more, which C++ leaves undefined, gives no bits here. -/
def xorLevel (st : AddrVec × Nat) (lvl : Nat) : AddrVec × Nat :=
  if m.bits lvl > 0 then
    let mask := Int.land (st.1.at m.colBitsIdx >>> st.2) (((1 : Int) <<< m.bits lvl) - 1)
    (st.1.set lvl (Int.xor (st.1.at lvl) mask), st.2 + m.bits lvl)
  else st

/-- The slices of `MOP4CLXOR`: two column bits, the levels above the row, the other column
bits, and the row. -/
def mop4Slices (addrVec : AddrVec) (addr : Int) : AddrVec :=
  let (low, addr) := sliceLowerBits addr 2
  let (addrVec, addr) :=
    m.sliceLevels (List.range m.rowBitsIdx) (addrVec.set m.colBitsIdx low) addr
  let (high, addr) := sliceLowerBits addr (m.bits m.colBitsIdx - 2)
  let col := addrVec.at m.colBitsIdx + high <<< (2 : Nat)
  (addrVec.set m.colBitsIdx col).set m.rowBitsIdx (toInt addr)

/-- `MOP4CLXOR::apply`. -/
def mop4clxor (req : Request) : Request :=
  { req with
    addrVec := ((List.range m.colBitsIdx).foldl m.xorLevel
      (m.mop4Slices (Dma.resize req.addrVec m.numLevels) (req.addr >>> m.txOffset), 0)).1 }

end LinearMapperBase

inductive LinearMapper
  | ChRaBaRoCo | RoBaRaCoCh | MOP4CLXOR
  deriving DecidableEq, Repr

def LinearMapper.apply (m : LinearMapperBase) : LinearMapper → Request → Request
  | ChRaBaRoCo => m.chRaBaRoCo
  | RoBaRaCoCh => m.roBaRaCoCh
  | MOP4CLXOR => m.mop4clxor

/-! ## Slicing level by level -/

theorem at_set {v : AddrVec} {level l : Nat} {x : Int} (hlevel : level < v.length) :
    AddrVec.at (v.set level x) l = if l = level then x else v.at l := by
  by_cases h : l = level
  · subst h
    rw [if_pos rfl, AddrVec.at, List.getD_eq_getElem?_getD, List.getElem?_set_self hlevel]
    rfl
  · rw [if_neg h, AddrVec.at, List.getD_eq_getElem?_getD, List.getElem?_set_ne (Ne.symm h)]
    rfl

theorem ext_at {v w : AddrVec} (hlength : v.length = w.length)
    (h : ∀ l < v.length, v.at l = w.at l) : v = w := by
  refine List.ext_getElem hlength fun l hv hw => ?_
  have hl := h l hv
  rwa [AddrVec.at, AddrVec.at, List.getD_eq_getElem _ _ hv, List.getD_eq_getElem _ _ hw] at hl

namespace LinearMapperBase

variable (m : LinearMapperBase)

theorem sliceLevel_natCast (v : AddrVec) (a level : Nat) :
    m.sliceLevel (v, (a : Int)) level =
      (v.set level ((a % 2 ^ m.bits level : Nat) : Int),
        ((a / 2 ^ m.bits level : Nat) : Int)) := by
  rw [sliceLevel, sliceLowerBits_natCast]

theorem length_sliceLevels (order : List Nat) (v : AddrVec) (addr : Int) :
    (m.sliceLevels order v addr).1.length = v.length := by
  unfold sliceLevels
  induction order generalizing v addr with
  | nil => rfl
  | cons level order ih =>
      rw [List.foldl_cons]
      exact (ih _ _).trans List.length_set

theorem sliceLevels_snd (order : List Nat) (v : AddrVec) (a : Nat) :
    (m.sliceLevels order v a).2 = ((a / 2 ^ (order.map m.bits).sum : Nat) : Int) := by
  unfold sliceLevels
  induction order generalizing v a with
  | nil => rw [List.map_nil, List.sum_nil, Nat.pow_zero, Nat.div_one]; rfl
  | cons level order ih =>
      rw [List.foldl_cons, sliceLevel_natCast, ih, Nat.div_div_eq_div_mul, ← Nat.pow_add,
        List.map_cons, List.sum_cons]

theorem sliceLevels_frame {order : List Nat} {v : AddrVec} {l : Nat} (a : Nat)
    (hl : l ∉ order) (horder : ∀ level ∈ order, level < v.length) :
    (m.sliceLevels order v a).1.at l = v.at l := by
  unfold sliceLevels
  induction order generalizing v a with
  | nil => rfl
  | cons level order ih =>
      rw [List.mem_cons, not_or] at hl
      rw [List.foldl_cons, sliceLevel_natCast, ih _ hl.2, at_set (horder level List.mem_cons_self),
        if_neg hl.1]
      intro level' hlevel'
      rw [List.length_set]
      exact horder level' (List.mem_cons_of_mem _ hlevel')

theorem sliceLevels_fields {order : List Nat} {v : AddrVec} (a : Nat) (hnodup : order.Nodup)
    (horder : ∀ level ∈ order, level < v.length) :
    order.map (m.sliceLevels order v a).1.at =
      (slices (order.map m.bits) a).map fun d : Nat => (d : Int) := by
  induction order generalizing v a with
  | nil => rfl
  | cons level order ih =>
      have horder' : ∀ level' ∈ order,
          level' < (v.set level ((a % 2 ^ m.bits level : Nat) : Int)).length := by
        intro level' hlevel'
        rw [List.length_set]
        exact horder level' (List.mem_cons_of_mem _ hlevel')
      have hcons : m.sliceLevels (level :: order) v a =
          m.sliceLevels order (v.set level ((a % 2 ^ m.bits level : Nat) : Int))
            ((a / 2 ^ m.bits level : Nat) : Int) := by
        rw [sliceLevels, List.foldl_cons, sliceLevel_natCast]
        rfl
      rw [List.nodup_cons] at hnodup
      rw [hcons, List.map_cons, ih _ hnodup.2 horder', m.sliceLevels_frame _ hnodup.1 horder',
        at_set (horder level List.mem_cons_self), if_pos rfl]
      rfl

theorem map_bits_range : (List.range m.addrBits.length).map m.bits = m.addrBits := by
  refine List.ext_getElem (by rw [List.length_map, List.length_range]) fun l _ hl => ?_
  rw [List.getElem_map, List.getElem_range, bits, List.getD_eq_getElem _ _ hl]

/-! ## The fields of an address vector -/

def InRange (v : AddrVec) : Prop :=
  v.length = m.numLevels ∧ ∀ l < m.numLevels, 0 ≤ v.at l ∧ v.at l < 2 ^ m.bits l

theorem InRange.toNat_lt {m : LinearMapperBase} {v : AddrVec} (hv : m.InRange v) {l : Nat}
    (hl : l < m.numLevels) : (v.at l).toNat < 2 ^ m.bits l := by
  obtain ⟨hnonneg, hlt⟩ := hv.2 l hl
  have hcast : ((v.at l).toNat : Int) < ((2 ^ m.bits l : Nat) : Int) := by
    rw [Int.toNat_of_nonneg hnonneg, Nat.cast_pow]
    exact hlt
  exact Int.ofNat_lt.mp hcast

theorem InRange.of_natCast {m : LinearMapperBase} {v : AddrVec} (hlength : v.length = m.numLevels)
    {f : Nat → Nat} (hf : ∀ l < m.numLevels, v.at l = f l ∧ f l < 2 ^ m.bits l) : m.InRange v := by
  refine ⟨hlength, fun l hl => ?_⟩
  obtain ⟨hat, hlt⟩ := hf l hl
  rw [hat]
  exact ⟨Int.natCast_nonneg _, by exact_mod_cast hlt⟩

theorem InRange.ext {m : LinearMapperBase} {v w : AddrVec} (hv : m.InRange v) (hw : m.InRange w)
    (h : ∀ l < m.numLevels, (v.at l).toNat = (w.at l).toNat) : v = w := by
  refine ext_at (hv.1.trans hw.1.symm) fun l hl => ?_
  rw [hv.1] at hl
  rw [← Int.toNat_of_nonneg (hv.2 l hl).1, ← Int.toNat_of_nonneg (hw.2 l hl).1, h l hl]

/-- A mapping stores the slices of an address in fields that determine a vector in range. -/
structure Stores (ws : List Nat) (fields : AddrVec → List Nat) (apply : Request → Request) :
    Prop where
  sum_eq : ws.sum = m.addrBits.sum
  fits : ∀ v, m.InRange v → Fits ws (fields v)
  inj : ∀ v w, m.InRange v → m.InRange w → fields v = fields w → v = w
  inRange : ∀ (req : Request) (a : Nat), req.addr >>> m.txOffset = (a : Int) →
    a < 2 ^ ws.sum → m.InRange (apply req).addrVec
  fields_eq : ∀ (req : Request) (a : Nat), req.addr >>> m.txOffset = (a : Int) →
    a < 2 ^ ws.sum → fields (apply req).addrVec = slices ws a

/-! ## Mappings that slice level by level -/

def fieldsOf (order : List Nat) (v : AddrVec) : List Nat := order.map fun l => (v.at l).toNat

theorem fieldsOf_fits {order : List Nat} (horder : ∀ l ∈ order, l < m.numLevels) {v : AddrVec}
    (hv : m.InRange v) : Fits (order.map m.bits) (fieldsOf order v) := by
  rw [Fits, fieldsOf, List.forall₂_map_left_iff, List.forall₂_map_right_iff, List.forall₂_same]
  exact fun l hl => hv.toNat_lt (horder l hl)

theorem fieldsOf_sliceLevels {order : List Nat} {v : AddrVec} (a : Nat) (hnodup : order.Nodup)
    (horder : ∀ level ∈ order, level < v.length) :
    fieldsOf order (m.sliceLevels order v a).1 = slices (order.map m.bits) a := by
  have hfields := congrArg (List.map Int.toNat) (m.sliceLevels_fields a hnodup horder)
  rw [List.map_map, List.map_map] at hfields
  exact hfields.trans (List.map_id _)

theorem sliceLevels_natCast {order : List Nat} {v : AddrVec} (a : Nat) (hnodup : order.Nodup)
    (horder : ∀ level ∈ order, level < v.length) {l : Nat} (hl : l ∈ order) :
    (m.sliceLevels order v a).1.at l = (((m.sliceLevels order v a).1.at l).toNat : Nat) ∧
      ((m.sliceLevels order v a).1.at l).toNat < 2 ^ m.bits l := by
  constructor
  · have hmem := List.mem_map_of_mem (f := (m.sliceLevels order v a).1.at) hl
    rw [m.sliceLevels_fields a hnodup horder] at hmem
    obtain ⟨d, -, hd⟩ := List.mem_map.mp hmem
    rw [← hd]
    rfl
  · have hfits := slices_fits (order.map m.bits) a
    rw [← m.fieldsOf_sliceLevels a hnodup horder, Fits, fieldsOf, List.forall₂_map_left_iff,
      List.forall₂_map_right_iff, List.forall₂_same] at hfits
    exact hfits l hl

theorem sliceLevels_stores {order : List Nat} (hperm : order.Perm (List.range m.numLevels))
    (hlength : m.addrBits.length = m.numLevels) {apply : Request → Request}
    (happly : ∀ req, (apply req).addrVec =
      (m.sliceLevels order (Dma.resize req.addrVec m.numLevels) (req.addr >>> m.txOffset)).1) :
    m.Stores (order.map m.bits) (fieldsOf order) apply := by
  have hnodup : order.Nodup := hperm.nodup_iff.mpr List.nodup_range
  have hmem : ∀ l, l ∈ order ↔ l < m.numLevels := fun l => hperm.mem_iff.trans List.mem_range
  have horder : ∀ (v : AddrVec), ∀ l ∈ order, l < (Dma.resize v m.numLevels).length := by
    intro v l hl
    rw [Dma.length_resize]
    exact (hmem l).mp hl
  refine ⟨?_, fun v => m.fieldsOf_fits fun l hl => (hmem l).mp hl, ?_, ?_, ?_⟩
  · rw [(hperm.map m.bits).sum_nat, ← hlength, map_bits_range]
  · intro v w hv hw h
    exact hv.ext hw fun l hl => List.map_inj_left.mp h l ((hmem l).mpr hl)
  · intro req a ha _
    rw [happly, ha]
    refine .of_natCast ?_ fun l hl =>
      m.sliceLevels_natCast a hnodup (horder _) ((hmem l).mpr hl)
    rw [length_sliceLevels, Dma.length_resize]
  · intro req a ha _
    rw [happly, ha]
    exact m.fieldsOf_sliceLevels a hnodup (horder _)

/-! ## The mapping with exclusive-or -/

def xorIndex (lvl : Nat) : Nat := ((List.range lvl).map m.bits).sum

def mask (col lvl : Nat) : Nat := col / 2 ^ m.xorIndex lvl % 2 ^ m.bits lvl

theorem xorIndex_succ (lvl : Nat) : m.xorIndex (lvl + 1) = m.xorIndex lvl + m.bits lvl := by
  rw [xorIndex, xorIndex, List.range_succ, List.map_append, List.sum_append, List.map_singleton,
    List.sum_singleton]

theorem mask_lt (col lvl : Nat) : m.mask col lvl < 2 ^ m.bits lvl :=
  Nat.mod_lt _ (Nat.two_pow_pos _)

theorem land_shiftRight_natCast (col i n : Nat) :
    Int.land ((col : Int) >>> i) (((1 : Int) <<< n) - 1) = ((col / 2 ^ i % 2 ^ n : Nat) : Int) := by
  have hslice := sliceLowerBits_natCast (col / 2 ^ i) n
  rw [← Nat.shiftRight_eq_div_pow] at hslice
  rw [← Nat.shiftRight_eq_div_pow]
  exact (Prod.mk.inj hslice).1

theorem xorLevel_eq {v : AddrVec} {lvl x col : Nat} (hlvl : lvl < v.length)
    (hx : v.at lvl = (x : Int)) (hcol : v.at m.colBitsIdx = (col : Int)) :
    m.xorLevel (v, m.xorIndex lvl) lvl =
      (v.set lvl ((x ^^^ m.mask col lvl : Nat) : Int), m.xorIndex (lvl + 1)) := by
  unfold xorLevel
  rw [xorIndex_succ]
  by_cases hbits : m.bits lvl > 0
  · rw [if_pos hbits, hx, hcol, land_shiftRight_natCast]
    rfl
  · have hzero : m.bits lvl = 0 := by omega
    have hmask : m.mask col lvl = 0 := by rw [mask, hzero, Nat.pow_zero, Nat.mod_one]
    rw [if_neg hbits, hmask, Nat.xor_zero, hzero, Nat.add_zero, ← hx]
    congr 1
    refine ext_at List.length_set.symm fun l _ => ?_
    rw [at_set hlvl]
    split
    · next h => rw [h]
    · rfl

theorem xorLevels_eq {v : AddrVec} {f : Nat → Nat} (hlength : m.colBitsIdx < v.length)
    (hf : ∀ l < v.length, v.at l = (f l : Int)) {k : Nat} (hk : k ≤ m.colBitsIdx) :
    ((List.range k).foldl m.xorLevel (v, 0)).2 = m.xorIndex k ∧
    ((List.range k).foldl m.xorLevel (v, 0)).1.length = v.length ∧
    ∀ l < v.length, ((List.range k).foldl m.xorLevel (v, 0)).1.at l =
      ((if l < k then f l ^^^ m.mask (f m.colBitsIdx) l else f l : Nat) : Int) := by
  induction k with
  | zero => exact ⟨rfl, rfl, fun l hl => by rw [if_neg (Nat.not_lt_zero l)]; exact hf l hl⟩
  | succ k ih =>
      obtain ⟨hindex, hlen, hat⟩ := ih (by omega)
      have hx := hat k (by omega)
      have hcol := hat m.colBitsIdx hlength
      rw [if_neg (by omega)] at hx hcol
      have hstep : (List.range (k + 1)).foldl m.xorLevel (v, 0) =
          (((List.range k).foldl m.xorLevel (v, 0)).1.set k
            ((f k ^^^ m.mask (f m.colBitsIdx) k : Nat) : Int), m.xorIndex (k + 1)) := by
        rw [List.range_succ, List.foldl_append, List.foldl_cons, List.foldl_nil,
          ← m.xorLevel_eq (by omega) hx hcol, ← hindex]
      rw [hstep]
      refine ⟨rfl, List.length_set.trans hlen, fun l hl => ?_⟩
      rw [at_set (by omega)]
      by_cases hlk : l = k
      · rw [if_pos hlk, if_pos (by omega), hlk]
      · rw [if_neg hlk, hat l hl]
        by_cases hlt : l < k
        · rw [if_pos hlt, if_pos (by omega)]
        · rw [if_neg hlt, if_neg (by omega)]

def mop4Rest (a : Nat) : Nat := a / 2 ^ 2 / 2 ^ m.xorIndex m.rowBitsIdx

theorem mop4Slices_at {v : AddrVec} {a : Nat} (hrow : m.rowBitsIdx + 1 = m.colBitsIdx)
    (hlength : v.length = m.colBitsIdx + 1)
    (hint : m.mop4Rest a / 2 ^ (m.bits m.colBitsIdx - 2) < 2 ^ 31) :
    (m.mop4Slices v a).length = v.length ∧
    (m.mop4Slices v a).at m.colBitsIdx =
      ((a % 2 ^ 2 + 4 * (m.mop4Rest a % 2 ^ (m.bits m.colBitsIdx - 2)) : Nat) : Int) ∧
    (m.mop4Slices v a).at m.rowBitsIdx =
      ((m.mop4Rest a / 2 ^ (m.bits m.colBitsIdx - 2) : Nat) : Int) ∧
    ∀ l < m.rowBitsIdx, (m.mop4Slices v a).at l =
      (m.sliceLevels (List.range m.rowBitsIdx) (v.set m.colBitsIdx ((a % 2 ^ 2 : Nat) : Int))
        ((a / 2 ^ 2 : Nat) : Int)).1.at l := by
  have horder : ∀ level ∈ List.range m.rowBitsIdx,
      level < (v.set m.colBitsIdx ((a % 2 ^ 2 : Nat) : Int)).length := by
    intro level hlevel
    rw [List.length_set, hlength]
    have := List.mem_range.mp hlevel
    omega
  have hcol := m.sliceLevels_frame (a / 2 ^ 2) (l := m.colBitsIdx)
    (fun h => absurd (List.mem_range.mp h) (by omega)) horder
  rw [at_set (by omega), if_pos rfl] at hcol
  have hlen := m.length_sliceLevels (List.range m.rowBitsIdx)
    (v.set m.colBitsIdx ((a % 2 ^ 2 : Nat) : Int)) ((a / 2 ^ 2 : Nat) : Int)
  rw [List.length_set, hlength] at hlen
  have heq : m.mop4Slices v a =
      ((m.sliceLevels (List.range m.rowBitsIdx) (v.set m.colBitsIdx ((a % 2 ^ 2 : Nat) : Int))
        ((a / 2 ^ 2 : Nat) : Int)).1.set m.colBitsIdx
          ((a % 2 ^ 2 + 4 * (m.mop4Rest a % 2 ^ (m.bits m.colBitsIdx - 2)) : Nat) : Int)).set
        m.rowBitsIdx ((m.mop4Rest a / 2 ^ (m.bits m.colBitsIdx - 2) : Nat) : Int) := by
    have hhigh : ∀ low high : Nat,
        (low : Int) + (high : Int) <<< (2 : Nat) = ((low + 4 * high : Nat) : Int) := by
      intro low high
      rw [Int.shiftLeft_eq]
      omega
    unfold mop4Slices
    rw [sliceLowerBits_natCast]
    simp only []
    rw [sliceLevels_snd, ← xorIndex, ← mop4Rest, sliceLowerBits_natCast]
    simp only []
    rw [hcol, toInt_natCast hint, hhigh]
  rw [heq]
  refine ⟨?_, ?_, ?_, fun l hl => ?_⟩
  · rw [List.length_set, List.length_set, hlen, hlength]
  · rw [at_set (by rw [List.length_set]; omega), if_neg (by omega), at_set (by omega), if_pos rfl]
  · rw [at_set (by rw [List.length_set]; omega), if_pos rfl]
  · rw [at_set (by rw [List.length_set]; omega), if_neg (by omega), at_set (by omega),
      if_neg (by omega)]

/-- The last two levels are the row and the column, and a row holds four transactions. -/
structure Regular : Prop where
  levels : m.addrBits.length = m.numLevels
  col : m.colBitsIdx + 1 = m.numLevels
  row : m.rowBitsIdx + 1 = m.colBitsIdx
  col_bits : 2 ≤ m.bits m.colBitsIdx
  row_bits : m.bits m.rowBitsIdx ≤ 31

def mop4Widths : List Nat :=
  2 :: (List.range m.rowBitsIdx).map m.bits ++
    [m.bits m.colBitsIdx - 2, m.bits m.rowBitsIdx]

/-- What `MOP4CLXOR` slices, from the vector it makes of it. -/
def mop4Fields (v : AddrVec) : List Nat :=
  let col := (v.at m.colBitsIdx).toNat
  col % 2 ^ 2 :: (List.range m.rowBitsIdx).map (fun l => (v.at l).toNat ^^^ m.mask col l) ++
    [col / 4, (v.at m.rowBitsIdx).toNat ^^^ m.mask col m.rowBitsIdx]

theorem Regular.bits_sum {m : LinearMapperBase} (hm : m.Regular) :
    m.addrBits.sum =
      m.xorIndex m.rowBitsIdx + m.bits m.rowBitsIdx + m.bits m.colBitsIdx := by
  rw [← map_bits_range, ← xorIndex, hm.levels, ← hm.col, ← hm.row, xorIndex_succ, xorIndex_succ]

theorem Regular.mop4Widths_sum {m : LinearMapperBase} (hm : m.Regular) :
    m.mop4Widths.sum = m.addrBits.sum := by
  have := hm.col_bits
  rw [mop4Widths, hm.bits_sum, List.sum_append, List.sum_cons, ← xorIndex, List.sum_cons,
    List.sum_singleton]
  omega

theorem Regular.mop4Fields_fits {m : LinearMapperBase} (hm : m.Regular) {v : AddrVec}
    (hv : m.InRange v) : Fits m.mop4Widths (m.mop4Fields v) := by
  have hcol := hv.toNat_lt (l := m.colBitsIdx) (by have := hm.col; omega)
  have hxor : ∀ l < m.colBitsIdx,
      (v.at l).toNat ^^^ m.mask (v.at m.colBitsIdx).toNat l < 2 ^ m.bits l := fun l hl =>
    Nat.xor_lt_two_pow (hv.toNat_lt (by have := hm.col; omega)) (m.mask_lt _ _)
  have hhigh : (v.at m.colBitsIdx).toNat / 4 < 2 ^ (m.bits m.colBitsIdx - 2) := by
    refine Nat.div_lt_of_lt_mul ?_
    rw [show 4 = 2 ^ 2 from rfl, ← Nat.pow_add, Nat.add_sub_cancel' hm.col_bits]
    exact hcol
  refine .cons (Nat.mod_lt _ (Nat.two_pow_pos 2)) (List.rel_append ?_ ?_)
  · rw [List.forall₂_map_left_iff, List.forall₂_map_right_iff, List.forall₂_same]
    intro l hl
    exact hxor l (by have := List.mem_range.mp hl; have := hm.row; omega)
  · exact .cons hhigh (.cons (hxor _ (by have := hm.row; omega)) .nil)

theorem Regular.mop4Fields_inj {m : LinearMapperBase} (hm : m.Regular) {v w : AddrVec}
    (hv : m.InRange v) (hw : m.InRange w) (h : m.mop4Fields v = m.mop4Fields w) : v = w := by
  obtain ⟨hlow, htail⟩ := List.cons.inj h
  obtain ⟨hmid, hlast⟩ := List.append_inj htail (by rw [List.length_map, List.length_map])
  obtain ⟨hhigh, hlast⟩ := List.cons.inj hlast
  have hcol : (v.at m.colBitsIdx).toNat = (w.at m.colBitsIdx).toNat := by omega
  rw [hcol] at hmid hlast
  refine hv.ext hw fun l hl => ?_
  have hcolIdx := hm.col
  have hrowIdx := hm.row
  rcases Nat.lt_trichotomy l m.rowBitsIdx with hlt | rfl | hgt
  · exact Nat.xor_left_inj.mp (List.map_inj_left.mp hmid l (List.mem_range.mpr hlt))
  · exact Nat.xor_left_inj.mp (List.cons.inj hlast).1
  · obtain rfl : l = m.colBitsIdx := by omega
    exact hcol

theorem slices_mop4Widths (a : Nat) :
    slices m.mop4Widths a =
      a % 2 ^ 2 :: slices ((List.range m.rowBitsIdx).map m.bits) (a / 2 ^ 2) ++
        [m.mop4Rest a % 2 ^ (m.bits m.colBitsIdx - 2),
          m.mop4Rest a / 2 ^ (m.bits m.colBitsIdx - 2) % 2 ^ m.bits m.rowBitsIdx] := by
  rw [mop4Widths, List.cons_append, slices, slices_append]
  rfl

theorem Regular.mop4Rest_lt {m : LinearMapperBase} (hm : m.Regular) {a : Nat}
    (ha : a < 2 ^ m.addrBits.sum) :
    m.mop4Rest a / 2 ^ (m.bits m.colBitsIdx - 2) < 2 ^ m.bits m.rowBitsIdx := by
  rw [mop4Rest, Nat.div_div_eq_div_mul, ← Nat.pow_add, Nat.div_div_eq_div_mul, ← Nat.pow_add]
  refine Nat.div_lt_of_lt_mul ?_
  have hsum : 2 + (m.xorIndex m.rowBitsIdx + (m.bits m.colBitsIdx - 2)) + m.bits m.rowBitsIdx =
      m.addrBits.sum := by
    have := hm.bits_sum
    have := hm.col_bits
    omega
  rw [← Nat.pow_add, hsum]
  exact ha

theorem Regular.mop4Slices_spec {m : LinearMapperBase} (hm : m.Regular) {v : AddrVec} {a : Nat}
    (hlength : v.length = m.numLevels) (ha : a < 2 ^ m.addrBits.sum) :
    let w := m.mop4Slices v a
    m.InRange w ∧ (w.at m.colBitsIdx).toNat % 2 ^ 2 :: fieldsOf (List.range m.rowBitsIdx) w ++
      [(w.at m.colBitsIdx).toNat / 4, (w.at m.rowBitsIdx).toNat] = slices m.mop4Widths a := by
  have hrest := hm.mop4Rest_lt ha
  have hint := Nat.lt_of_lt_of_le hrest (Nat.pow_le_pow_right (by omega) hm.row_bits)
  have hcolIdx := hm.col
  have hrowIdx := hm.row
  obtain ⟨hlen, hcol, hrow, hmid⟩ := m.mop4Slices_at hm.row (hlength.trans hm.col.symm) hint
  have horder : ∀ level ∈ List.range m.rowBitsIdx,
      level < (v.set m.colBitsIdx ((a % 2 ^ 2 : Nat) : Int)).length := by
    intro level hlevel
    have := List.mem_range.mp hlevel
    rw [List.length_set]
    omega
  have hlow : a % 2 ^ 2 < 4 := Nat.mod_lt _ (Nat.two_pow_pos 2)
  have hhigh : m.mop4Rest a % 2 ^ (m.bits m.colBitsIdx - 2) < 2 ^ (m.bits m.colBitsIdx - 2) :=
    Nat.mod_lt _ (Nat.two_pow_pos _)
  have hwidth : 2 ^ m.bits m.colBitsIdx = 4 * 2 ^ (m.bits m.colBitsIdx - 2) := by
    rw [show 4 = 2 ^ 2 from rfl, ← Nat.pow_add, Nat.add_sub_cancel' hm.col_bits]
  refine ⟨.of_natCast (f := fun l => ((m.mop4Slices v a).at l).toNat)
    (hlen.trans hlength) fun l hl => ?_, ?_⟩
  · rcases Nat.lt_trichotomy l m.rowBitsIdx with hlt | rfl | hgt
    · have hslice := m.sliceLevels_natCast (a / 2 ^ 2) List.nodup_range horder
        (List.mem_range.mpr hlt)
      rw [hmid l hlt]
      exact hslice
    · rw [hrow]
      exact ⟨rfl, hrest⟩
    · obtain rfl : l = m.colBitsIdx := by omega
      rw [hcol, Int.toNat_natCast]
      exact ⟨rfl, by omega⟩
  · have hfields : fieldsOf (List.range m.rowBitsIdx) (m.mop4Slices v a) =
        slices ((List.range m.rowBitsIdx).map m.bits) (a / 2 ^ 2) := by
      rw [← m.fieldsOf_sliceLevels (a / 2 ^ 2) List.nodup_range horder]
      refine List.map_congr_left fun l hl => ?_
      rw [hmid l (List.mem_range.mp hl)]
    rw [slices_mop4Widths, hfields, hcol, hrow, Int.toNat_natCast, Int.toNat_natCast,
      Nat.mod_eq_of_lt hrest]
    congr 2
    · omega
    · omega

theorem Regular.xorLevels_spec {m : LinearMapperBase} (hm : m.Regular) {v : AddrVec}
    (hv : m.InRange v) :
    let w := ((List.range m.colBitsIdx).foldl m.xorLevel (v, 0)).1
    m.InRange w ∧ m.mop4Fields w = (v.at m.colBitsIdx).toNat % 2 ^ 2 ::
      fieldsOf (List.range m.rowBitsIdx) v ++
        [(v.at m.colBitsIdx).toNat / 4, (v.at m.rowBitsIdx).toNat] := by
  have hcolIdx := hm.col
  have hrowIdx := hm.row
  obtain ⟨-, hlen, hat⟩ := m.xorLevels_eq (f := fun l => (v.at l).toNat)
    (by rw [hv.1]; omega)
    (fun l hl => (Int.toNat_of_nonneg (hv.2 l (by rwa [← hv.1])).1).symm)
    (Nat.le_refl m.colBitsIdx)
  rw [hv.1] at hlen hat
  refine ⟨.of_natCast hlen fun l hl => ⟨hat l hl, ?_⟩, ?_⟩
  · split
    · exact Nat.xor_lt_two_pow (hv.toNat_lt hl) (m.mask_lt _ _)
    · exact hv.toNat_lt hl
  · have hcol := hat m.colBitsIdx (by omega)
    rw [if_neg (Nat.lt_irrefl _)] at hcol
    have hxor : ∀ l < m.colBitsIdx,
        (AddrVec.at ((List.range m.colBitsIdx).foldl m.xorLevel (v, 0)).1 l).toNat ^^^
          m.mask (v.at m.colBitsIdx).toNat l = (v.at l).toNat := by
      intro l hl
      rw [hat l (by omega), if_pos hl, Int.toNat_natCast, Nat.xor_xor_cancel_right]
    rw [mop4Fields, hcol, Int.toNat_natCast, hxor m.rowBitsIdx (by omega)]
    congr 2
    refine List.map_congr_left fun l hl => hxor l ?_
    have := List.mem_range.mp hl
    omega

theorem Regular.mop4_stores {m : LinearMapperBase} (hm : m.Regular) :
    m.Stores m.mop4Widths m.mop4Fields m.mop4clxor := by
  have hstored : ∀ (req : Request) (a : Nat), req.addr >>> m.txOffset = (a : Int) →
      a < 2 ^ m.mop4Widths.sum →
      m.InRange (m.mop4clxor req).addrVec ∧
        m.mop4Fields (m.mop4clxor req).addrVec = slices m.mop4Widths a := by
    intro req a ha hlt
    rw [hm.mop4Widths_sum] at hlt
    obtain ⟨hslices, hfields⟩ :=
      hm.mop4Slices_spec (Dma.length_resize req.addrVec m.numLevels) hlt
    rw [← hfields, mop4clxor, ha]
    exact hm.xorLevels_spec hslices
  exact ⟨hm.mop4Widths_sum, fun v hv => hm.mop4Fields_fits hv,
    fun v w hv hw h => hm.mop4Fields_inj hv hw h,
    fun req a ha hlt => (hstored req a ha hlt).1, fun req a ha hlt => (hstored req a ha hlt).2⟩

/-! ## The three mappers -/

theorem Regular.chRaBaRoCo_stores {m : LinearMapperBase} (hm : m.Regular) :
    m.Stores ((List.range m.addrBits.length).reverse.map m.bits)
      (fieldsOf (List.range m.addrBits.length).reverse) m.chRaBaRoCo :=
  m.sliceLevels_stores (hm.levels ▸ List.reverse_perm _) hm.levels fun _ => rfl

theorem Regular.roBaRaCoCh_perm {m : LinearMapperBase} (hm : m.Regular) :
    (0 :: (m.addrBits.length - 1) :: List.range' 1 m.rowBitsIdx).Perm
      (List.range m.numLevels) := by
  have hlast : m.addrBits.length - 1 = 1 + m.rowBitsIdx := by
    have := hm.levels
    have := hm.col
    have := hm.row
    omega
  have hrange : List.range m.numLevels =
      0 :: (List.range' 1 m.rowBitsIdx ++ [1 + m.rowBitsIdx]) := by
    rw [← hm.col, ← hm.row, List.range_eq_range', List.range'_succ, Nat.zero_add,
      List.range'_1_concat]
  rw [hlast, hrange]
  exact ((List.perm_append_singleton _ _).symm).cons 0

theorem Regular.roBaRaCoCh_stores {m : LinearMapperBase} (hm : m.Regular) :
    m.Stores ((0 :: (m.addrBits.length - 1) :: List.range' 1 m.rowBitsIdx).map m.bits)
      (fieldsOf (0 :: (m.addrBits.length - 1) :: List.range' 1 m.rowBitsIdx)) m.roBaRaCoCh :=
  m.sliceLevels_stores hm.roBaRaCoCh_perm hm.levels fun _ => rfl

theorem Regular.exists_stores {m : LinearMapperBase} (hm : m.Regular) (mapper : LinearMapper) :
    ∃ ws fields, m.Stores ws fields (mapper.apply m) :=
  match mapper with
  | .ChRaBaRoCo => ⟨_, _, hm.chRaBaRoCo_stores⟩
  | .RoBaRaCoCh => ⟨_, _, hm.roBaRaCoCh_stores⟩
  | .MOP4CLXOR => ⟨_, _, hm.mop4_stores⟩

def Addressable (req : Request) : Prop :=
  0 ≤ req.addr ∧ req.addr < 2 ^ (m.txOffset + m.addrBits.sum)

theorem Addressable.exists_transaction {m : LinearMapperBase} {req : Request}
    (hreq : m.Addressable req) :
    ∃ a : Nat, req.addr >>> m.txOffset = (a : Int) ∧ a < 2 ^ m.addrBits.sum := by
  obtain ⟨addr, haddr⟩ := Int.eq_ofNat_of_zero_le hreq.1
  have hlt := hreq.2
  rw [haddr] at hlt ⊢
  refine ⟨addr >>> m.txOffset, rfl, ?_⟩
  rw [Nat.shiftRight_eq_div_pow]
  refine Nat.div_lt_of_lt_mul ?_
  rw [← Nat.pow_add]
  exact_mod_cast hlt

namespace Stores

variable {m} {ws : List Nat} {fields : AddrVec → List Nat} {apply : Request → Request}

theorem eq_iff (h : m.Stores ws fields apply) {req req' : Request} (hreq : m.Addressable req)
    (hreq' : m.Addressable req') :
    (apply req).addrVec = (apply req').addrVec ↔
      req.addr >>> m.txOffset = req'.addr >>> m.txOffset := by
  obtain ⟨a, ha, hlt⟩ := hreq.exists_transaction
  obtain ⟨a', ha', hlt'⟩ := hreq'.exists_transaction
  rw [← h.sum_eq] at hlt hlt'
  constructor
  · intro heq
    have hslices : slices ws a = slices ws a' := by
      rw [← h.fields_eq req a ha hlt, ← h.fields_eq req' a' ha' hlt', heq]
    rw [ha, ha', (slices_bijOn ws).injOn hlt hlt' hslices]
  · intro heq
    have haa' : a = a' := by
      rw [ha, ha'] at heq
      exact Int.ofNat_inj.mp heq
    subst haa'
    exact h.inj _ _ (h.inRange req a ha hlt) (h.inRange req' a ha' hlt')
      ((h.fields_eq req a ha hlt).trans (h.fields_eq req' a ha' hlt').symm)

theorem surj (h : m.Stores ws fields apply) {v : AddrVec} (hv : m.InRange v) :
    ∃ req, m.Addressable req ∧ (apply req).addrVec = v := by
  obtain ⟨a, hlt, ha⟩ := (slices_bijOn ws).surjOn (h.fits v hv)
  let req : Request := { addr := ((a <<< m.txOffset : Nat) : Int) }
  have hreq : req.addr >>> m.txOffset = (a : Int) := by
    have hshift : a <<< m.txOffset >>> m.txOffset = a := Nat.shiftLeft_shiftRight a _
    exact congrArg Nat.cast hshift
  refine ⟨req, ⟨Int.natCast_nonneg _, ?_⟩, ?_⟩
  · have hbound : a <<< m.txOffset < 2 ^ (m.txOffset + m.addrBits.sum) := by
      rw [Nat.shiftLeft_eq, Nat.mul_comm, Nat.pow_add, ← h.sum_eq]
      exact Nat.mul_lt_mul_of_pos_left hlt (Nat.two_pow_pos _)
    change ((a <<< m.txOffset : Nat) : Int) < _
    exact_mod_cast hbound
  · exact h.inj _ _ (h.inRange req a hreq hlt) hv ((h.fields_eq req a hreq hlt).trans ha)

end Stores

/-! ## Organizations -/

section

variable {count : List Nat} {rowLevel internalPrefetchSize : Nat}

theorem bits_setup (channelWidth : Nat) {level : Nat} (hlevel : level < count.length) :
    (setup count rowLevel internalPrefetchSize channelWidth).bits level =
      if level + 1 = count.length then
        calcLog2 (count.getD level 0) - calcLog2 internalPrefetchSize
      else calcLog2 (count.getD level 0) := by
  rw [bits, setup, List.getD_eq_getElem?_getD, List.getElem?_modify, List.getElem?_map,
    List.getD_eq_getElem _ _ hlevel, List.getElem?_eq_getElem hlevel]
  by_cases hlast : level + 1 = count.length
  · have hpred : count.length - 1 = level := by omega
    simp [hlast, hpred]
  · have hpred : count.length - 1 ≠ level := by omega
    simp [hlast, hpred]

theorem two_pow_bits_setup (h : PowersOfTwo count rowLevel internalPrefetchSize)
    (channelWidth : Nat) {level : Nat} (hlevel : level < count.length) :
    2 ^ (setup count rowLevel internalPrefetchSize channelWidth).bits level =
      levelSize count internalPrefetchSize level := by
  obtain ⟨k, -, hk⟩ := h.counts count[level] (List.getElem_mem hlevel)
  obtain ⟨p, hp⟩ := h.prefetch
  rw [bits_setup _ hlevel, levelSize, List.getD_eq_getElem _ _ hlevel, hk, hp]
  split
  · next hlast =>
      have htransactions := h.transactions
      have hrow : rowLevel + 1 = level := by have := h.row; omega
      rw [hrow, List.getD_eq_getElem _ _ hlevel, hk, hp] at htransactions
      have hle : 2 ^ p ≤ 2 ^ k := by omega
      rw [calcLog2_two_pow, calcLog2_two_pow,
        Nat.pow_div ((Nat.pow_le_pow_iff_right (by decide)).mp hle) (by decide)]
  · rw [calcLog2_two_pow]

theorem setup_regular (h : PowersOfTwo count rowLevel internalPrefetchSize)
    (channelWidth : Nat) :
    (setup count rowLevel internalPrefetchSize channelWidth).Regular := by
  have hrow := h.row
  refine ⟨?_, ?_, ?_, ?_, ?_⟩
  · rw [setup, List.length_modify, List.length_map]
  · change count.length - 1 + 1 = count.length
    omega
  · change rowLevel + 1 = count.length - 1
    omega
  · obtain ⟨p, hp⟩ := h.prefetch
    have htwo : 2 ^ 2 ≤ 2 ^ (setup count rowLevel internalPrefetchSize channelWidth).bits
        (count.length - 1) := by
      rw [two_pow_bits_setup h _ (by omega), levelSize, if_pos (by omega),
        show count.length - 1 = rowLevel + 1 by omega,
        Nat.le_div_iff_mul_le (hp ▸ Nat.two_pow_pos p)]
      exact h.transactions
    exact (Nat.pow_le_pow_iff_right (by decide)).mp htwo
  · have hlevel : rowLevel < count.length := by omega
    obtain ⟨k, hk31, hk⟩ := h.counts count[rowLevel] (List.getElem_mem hlevel)
    change (setup count rowLevel internalPrefetchSize channelWidth).bits rowLevel ≤ 31
    rw [bits_setup _ hlevel, if_neg (by omega), List.getD_eq_getElem _ _ hlevel, hk,
      calcLog2_two_pow]
    omega

end

end LinearMapperBase

open LinearMapperBase

/-- In every organization of powers of two with four transactions in a row, each linear
mapping is a bijection between the transactions and the address vectors in range. -/
theorem linear_mapping_bijective {count : List Nat} {rowLevel internalPrefetchSize : Nat}
    (h : PowersOfTwo count rowLevel internalPrefetchSize) (channelWidth : Nat)
    (mapper : LinearMapper) :
    let m := setup count rowLevel internalPrefetchSize channelWidth
    let inRange : AddrVec → Prop := fun v => v.length = count.length ∧
      ∀ l < count.length, 0 ≤ v.at l ∧ v.at l < levelSize count internalPrefetchSize l
    (∀ req, m.Addressable req → inRange (mapper.apply m req).addrVec) ∧
    (∀ req req', m.Addressable req → m.Addressable req' →
      ((mapper.apply m req).addrVec = (mapper.apply m req').addrVec ↔
        req.addr >>> m.txOffset = req'.addr >>> m.txOffset)) ∧
    ∀ v, inRange v → ∃ req, m.Addressable req ∧ (mapper.apply m req).addrVec = v := by
  intro m inRange
  obtain ⟨ws, fields, hstores⟩ := (setup_regular h channelWidth).exists_stores mapper
  have hiff : ∀ v, inRange v ↔ m.InRange v := by
    intro v
    refine and_congr Iff.rfl (forall₂_congr fun l hl => ?_)
    rw [← two_pow_bits_setup h channelWidth hl, Nat.cast_pow]
    rfl
  refine ⟨fun req hreq => ?_, fun req req' hreq hreq' => hstores.eq_iff hreq hreq',
    fun v hv => hstores.surj ((hiff v).mp hv)⟩
  obtain ⟨a, ha, hlt⟩ := hreq.exists_transaction
  exact (hiff _).mpr (hstores.inRange req a ha (by rwa [hstores.sum_eq]))

/-- `GDDR6_8Gb_x16` with two channels: a bijection for `MOP4CLXOR`. -/
theorem linear_mapping_bijective_gddr6 :
    PowersOfTwo [2, 4, 4, 16384, 1024] 3 8 ∧
      ∀ v : AddrVec, (v.length = 5 ∧ ∀ l < 5, 0 ≤ v.at l ∧
          v.at l < levelSize [2, 4, 4, 16384, 1024] 8 l) →
        ∃ req, (setup [2, 4, 4, 16384, 1024] 3 8 64).Addressable req ∧
          (LinearMapper.MOP4CLXOR.apply (setup [2, 4, 4, 16384, 1024] 3 8 64) req).addrVec = v := by
  have h : PowersOfTwo [2, 4, 4, 16384, 1024] 3 8 := by
    refine ⟨?_, ⟨3, rfl⟩, rfl, by decide⟩
    intro c hc
    simp only [List.mem_cons, List.not_mem_nil, or_false] at hc
    rcases hc with rfl | rfl | rfl | rfl | rfl
    · exact ⟨1, by decide, rfl⟩
    · exact ⟨2, by decide, rfl⟩
    · exact ⟨2, by decide, rfl⟩
    · exact ⟨14, by decide, rfl⟩
    · exact ⟨10, by decide, rfl⟩
  exact ⟨h, (linear_mapping_bijective h 64 .MOP4CLXOR).2.2⟩

example : (LinearMapper.MOP4CLXOR.apply (LinearMapperBase.setup [2, 4, 4, 16384, 1024] 3 8 64)
    { addr := 0x2345678 }).addrVec = [1, 3, 3, 141, 9] := by decide +kernel

end AimSimulator.AddrMapper
