import AimSimulator.Lib.SetBits
import AimSimulator.Dma.Decode
import AimSimulator.Dma.Run
/-!
# Channel masks

The decoder numbers the low 32 bits of a mask from the top: bit `i` stands for channel
`31 - i`, and a mask with a bit above them and bit 31 clear sends to channel 0 besides.
-/

namespace AimSimulator.Dma

open SetBits

/-! ## The two loops over a mask -/

theorem findFirstChannelIndex_nil {m : BitVec 64} (h : setBits (m.setWidth 32) = []) :
    findFirstChannelIndex m = (0, m) := by
  have hfind := find?_setBit (m.setWidth 32)
  rw [h] at hfind
  simp only [findFirstChannelIndex, channelBit, maxChannelCount]
  rw [hfind]
  rfl

theorem findFirstChannelIndex_cons {m : BitVec 64} {i : Nat} {rest : List Nat}
    (h : setBits (m.setWidth 32) = i :: rest) :
    (findFirstChannelIndex m).1 = 31 - i ∧
      setBits ((findFirstChannelIndex m).2.setWidth 32) = rest := by
  have hfind := find?_setBit (m.setWidth 32)
  rw [h] at hfind
  simp only [findFirstChannelIndex, channelBit, maxChannelCount]
  rw [hfind]
  refine ⟨rfl, ?_⟩
  rw [← setBits_clear h, List.head?_cons]
  congr 1
  exact BitVec.setWidth_setWidth_of_le _ (by omega)

theorem firstChannels_eq (count : Nat) (m : BitVec 64) :
    firstChannels count m = ((setBits (m.setWidth 32)).take count).map (31 - ·) ++
      List.replicate (count - (setBits (m.setWidth 32)).length) 0 := by
  induction count generalizing m with
  | zero => simp [firstChannels]
  | succ count ih =>
      rw [firstChannels, ih]
      cases h : setBits (m.setWidth 32) with
      | nil =>
          rw [findFirstChannelIndex_nil h, h]
          simp [List.replicate_succ]
      | cons i rest =>
          obtain ⟨hchannel, hrest⟩ := findFirstChannelIndex_cons h
          rw [hchannel, hrest]
          simp

theorem and_signBit_bne_zero (m : BitVec 64) :
    (m &&& (channelBit 31).signExtend 64 != 0) = decide (2 ^ 31 ≤ m.toNat) := by
  have hmask : (channelBit 31).signExtend 64 = BitVec.allOnes 64 <<< 31 := by decide
  have hset : ∀ i, ((channelBit 31).signExtend 64).getLsbD i =
      (decide (i < 64) && !decide (i < 31)) := by
    intro i
    rw [hmask, BitVec.getLsbD_shiftLeft, BitVec.getLsbD_allOnes]
    by_cases hi : i < 31
    · simp [hi]
    · by_cases hlt : i < 64
      · simp [hi, hlt, show i - 31 < 64 by omega]
      · simp [hlt]
  generalize (channelBit 31).signExtend 64 = mask at hset
  rw [Bool.eq_iff_iff, bne_iff_ne, decide_eq_true_iff, ← Nat.not_lt]
  refine not_congr ⟨?_, ?_⟩
  · intro hzero
    refine Nat.lt_pow_two_of_testBit _ fun i hi => ?_
    by_cases hlt : i < 64
    · have hbit := congrArg (fun y : BitVec 64 => y.getLsbD i) hzero
      rw [BitVec.getLsbD_and, hset, ← BitVec.testBit_toNat] at hbit
      simpa [hlt, show ¬ i < 31 by omega] using hbit
    · exact Nat.testBit_lt_two_pow (Nat.lt_of_lt_of_le m.isLt
        (Nat.pow_le_pow_right (by omega) (by omega)))
  · intro hlt
    refine BitVec.eq_of_getLsbD_eq fun i _ => ?_
    rw [BitVec.getLsbD_and, hset, ← BitVec.testBit_toNat]
    by_cases hi : i < 31
    · simp [hi]
    · have hbit : m.toNat.testBit i = false := Nat.testBit_lt_two_pow
        (Nat.lt_of_lt_of_le hlt (Nat.pow_le_pow_right (by omega) (by omega)))
      simp [hbit]

def HighBit (m : Nat) : Prop := m.testBit 31 = false ∧ 2 ^ 32 ≤ m

instance (m : Nat) : Decidable (HighBit m) := inferInstanceAs (Decidable (_ ∧ _))

theorem two_pow_le_iff (m : Nat) : 2 ^ 31 ≤ m ↔ m.testBit 31 = true ∨ HighBit m := by
  constructor
  · intro hle
    cases hbit : m.testBit 31 with
    | true => exact .inl rfl
    | false =>
        refine .inr ⟨hbit, Nat.le_of_not_lt fun hlt => ?_⟩
        have hsmall : m < 2 ^ 31 := Nat.lt_pow_two_of_testBit _ fun i hi => by
          by_cases heq : i = 31
          · rw [heq, hbit]
          · exact Nat.testBit_lt_two_pow
              (Nat.lt_of_lt_of_le hlt (Nat.pow_le_pow_right (by omega) (by omega)))
        omega
  · rintro (hbit | ⟨-, hle⟩)
    · exact Nat.le_of_not_lt fun hlt => by simp [Nat.testBit_lt_two_pow hlt] at hbit
    · omega

theorem countSetBit_eq (m : BitVec 64) :
    countSetBit m = (setBits (m.setWidth 32)).length + if HighBit m.toNat then 1 else 0 := by
  have hlow : ∀ i ∈ List.range 31,
      (m &&& (channelBit i).signExtend 64 != 0) = (m.setWidth 32).getLsbD i := by
    intro i hi
    have hi := List.mem_range.mp hi
    have hone : ∀ i < 31, (channelBit i).signExtend 64 = 1#64 <<< i := by decide
    rw [hone i hi, and_shift_bne_zero m (by omega), BitVec.getLsbD_setWidth]
    simp [show i < 32 by omega]
  have hlength : (setBits (m.setWidth 32)).length =
      (List.range 31).countP (fun i => (m.setWidth 32).getLsbD i) +
        [31].countP (fun i => (m.setWidth 32).getLsbD i) := by
    rw [setBits, ← List.countP_eq_length_filter, ← List.countP_append]
    rfl
  have hcount : countSetBit m =
      (List.range 31).countP (fun i => m &&& (channelBit i).signExtend 64 != 0) +
        [31].countP (fun i => m &&& (channelBit i).signExtend 64 != 0) := by
    rw [← List.countP_append]
    rfl
  rw [hcount, hlength, List.countP_congr (fun i hi => by rw [hlow i hi]), Nat.add_assoc]
  congr 1
  have hbit : (m.setWidth 32).getLsbD 31 = m.toNat.testBit 31 := by
    rw [BitVec.getLsbD_setWidth, ← BitVec.testBit_toNat]
    rfl
  simp only [List.countP_singleton, and_signBit_bne_zero, decide_eq_true_eq, two_pow_le_iff, hbit]
  by_cases hhigh : HighBit m.toNat
  · simp [hhigh, hhigh.1]
  · simp [hhigh]

theorem channelsOf_eq (m : BitVec 64) :
    channelsOf m = (setBits (m.setWidth 32)).map (31 - ·) ++
      if HighBit m.toNat then [0] else [] := by
  rw [channelsOf, firstChannels_eq, countSetBit_eq]
  split
  · rw [List.take_of_length_le (by omega), Nat.add_sub_cancel_left]
    rfl
  · rw [List.take_of_length_le (by omega)]
    simp

theorem mem_channelsOf {m : BitVec 64} {channel : Nat} :
    channel ∈ channelsOf m ↔
      (channel < maxChannelCount ∧ m.toNat.testBit (31 - channel) = true) ∨
        (channel = 0 ∧ HighBit m.toNat) := by
  have hbit : ∀ i, (m.setWidth 32).getLsbD i = (decide (i < 32) && m.toNat.testBit i) := by
    intro i
    rw [BitVec.getLsbD_setWidth, ← BitVec.testBit_toNat]
  rw [channelsOf_eq, List.mem_append, List.mem_map]
  refine or_congr ⟨?_, ?_⟩ ?_
  · rintro ⟨i, hi, rfl⟩
    rw [mem_setBits, hbit, Bool.and_eq_true, decide_eq_true_iff] at hi
    rw [maxChannelCount, show 31 - (31 - i) = i by omega]
    exact ⟨by omega, hi.2⟩
  · rintro ⟨hlt, hset⟩
    rw [maxChannelCount] at hlt
    refine ⟨31 - channel, ?_, by omega⟩
    rw [mem_setBits, hbit, hset]
    simp
    omega
  · split <;> simp_all

/-! ## The channels that are offered copies -/

/-- The channels whose controllers a log reports as offered a copy. -/
def offered (log : List HostEvent) : List Nat :=
  log.filterMap fun
    | .copy channel _ _ => some channel
    | _ => none

variable {C : Type} {p : SystemParams} {send : Request → C → Option (Bool × C)}

namespace System

variable {s t : System C}

theorem sendCopies_offered {blocking : Bool} {copies : List (Nat × Request)} :
    ∀ {s t : System C} {allSent : Bool},
      s.sendCopies p send blocking copies = some (allSent, t) →
        ∃ events, t.log = s.log ++ events ∧ offered events = copies.map (·.1) := by
  induction copies with
  | nil =>
      intro s t allSent h
      obtain ⟨-, rfl⟩ := Prod.mk.inj (Option.some.inj h)
      exact ⟨[], by simp, rfl⟩
  | cons c copies ih =>
      intro s t allSent h
      obtain ⟨channel, copy⟩ := c
      obtain ⟨⟨ok, u⟩, hone, h⟩ := Option.bind_eq_some_iff.mp h
      obtain ⟨⟨oks, t'⟩, hrest, heq⟩ := Option.map_eq_some_iff.mp h
      obtain ⟨-, rfl⟩ := Prod.mk.inj heq
      obtain ⟨v, hdeliver, -, rfl⟩ := sendCopy_eq_some hone
      obtain ⟨-, c, -, rfl⟩ := deliver_eq_some hdeliver
      obtain ⟨events, hlog, hoffered⟩ := ih hrest
      refine ⟨.copy channel { copy with aimReqId := s.dma.aimReqId } ok :: events, ?_, ?_⟩
      · rw [hlog]
        exact List.append_assoc ..
      · rw [offered, List.filterMap_cons]
        exact congrArg (channel :: ·) hoffered

theorem popHead_log {arg : Request → Request} (h : s.popHead arg = some t) :
    ∃ events, t.log = s.log ++ events ∧ offered events = [] := by
  unfold popHead at h
  split at h
  · cases h
  · next host _ _ =>
      rw [← Option.some.inj h]
      refine ⟨_, List.append_assoc .., ?_⟩
      split <;> rfl

theorem decodeHead_offered {host : Request} (h : s.decodeHead p send host = some t) :
    ∃ d, decode p s.dma.cfrValues host = some d ∧
      offered (t.log.drop s.log.length) = d.copies.map (·.1) := by
  obtain ⟨d, hd, h⟩ := Option.bind_eq_some_iff.mp h
  obtain ⟨⟨allSent, u⟩, hsend, h⟩ := Option.bind_eq_some_iff.mp h
  obtain ⟨events, hlog, hoffered⟩ := sendCopies_offered hsend
  have hend : ∃ more, t.log = u.log ++ more ∧ offered more = [] := by
    dsimp only at h
    split at h
    · exact popHead_log h
    · rw [← Option.some.inj h]
      exact ⟨[], by simp, rfl⟩
  obtain ⟨more, hmore, hnone⟩ := hend
  refine ⟨d, hd, ?_⟩
  dsimp only at hlog
  rw [hmore, hlog, List.append_assoc, List.append_assoc, List.drop_left]
  unfold offered at hoffered hnone ⊢
  rw [List.filterMap_append, List.filterMap_append, hoffered, hnone, List.append_nil]
  rfl

end System

theorem decode_targets {cfrValues : CFR → Int} {host : Request} {d : Decoded}
    (htype : host.type = .AIM) (hop : isUnrolled host.opcode = true)
    (h : decode p cfrValues host = some d) :
    d.copies.map (fun c => (c.1, c.2.colAddr)) = targetsOf host := by
  have h : decodeAiM p cfrValues host = some d := by
    rw [decode, htype] at h
    exact h
  rw [decodeAiM, if_pos hop] at h
  obtain ⟨isr, -, h⟩ := Option.bind_eq_some_iff.mp h
  split at h
  · cases h
  · obtain ⟨copies, hcopies, rfl⟩ := Option.map_eq_some_iff.mp h
    exact unroll_targets hcopies

/-! ## When a mask names its channels -/

/-- The low 32 bits of a mask read the same from both ends, and it has no bit above them
unless bit 31 is set. -/
def Mirrored (m : Nat) : Prop :=
  (∀ i < maxChannelCount, m.testBit i = m.testBit (31 - i)) ∧
    (m.testBit 31 = true ∨ m < 2 ^ 32)

/-- The channels of a mask are its set bits below 32, with no step of the loop in excess. -/
def NamesChannels (m : Nat) (channels : List Nat) (count : Nat) : Prop :=
  (∀ channel, channel ∈ channels ↔ channel < maxChannelCount ∧ m.testBit channel = true) ∧
    count = (List.range maxChannelCount).countP m.testBit

theorem channelsOf_names_iff {m : BitVec 64} {channels : List Nat}
    (hchannels : ∀ channel, channel ∈ channels ↔ channel ∈ channelsOf m) :
    NamesChannels m.toNat channels (countSetBit m) ↔ Mirrored m.toNat := by
  have hnone : (m.toNat.testBit 31 = true ∨ m.toNat < 2 ^ 32) ↔ ¬ HighBit m.toNat := by
    unfold HighBit
    cases m.toNat.testBit 31 <;> simp
  constructor
  · rintro ⟨hnames, -⟩
    have hnames : ∀ channel, channel ∈ channelsOf m ↔
        channel < maxChannelCount ∧ m.toNat.testBit channel = true :=
      fun channel => (hchannels channel).symm.trans (hnames channel)
    have hhigh : ¬ HighBit m.toNat := by
      intro hhigh
      have hzero := ((hnames 0).mp (mem_channelsOf.mpr (.inr ⟨rfl, hhigh⟩))).2
      have hlast := ((hnames 31).mp (mem_channelsOf.mpr (.inl ⟨by decide, hzero⟩))).2
      rw [hhigh.1] at hlast
      cases hlast
    refine ⟨fun i hi => ?_, hnone.mpr hhigh⟩
    have hmem := (hnames i).symm.trans mem_channelsOf
    simp only [hi, true_and, hhigh, and_false, or_false] at hmem
    exact Bool.eq_iff_iff.mpr hmem
  · rintro ⟨hmirror, hlow⟩
    have hhigh := hnone.mp hlow
    refine ⟨fun channel => (hchannels channel).trans ?_, ?_⟩
    · rw [mem_channelsOf]
      simp only [hhigh, and_false, or_false]
      refine and_congr_right fun hlt => ?_
      rw [← hmirror channel hlt]
    · rw [countSetBit_eq, if_neg hhigh, Nat.add_zero, setBits, ← List.countP_eq_length_filter]
      refine List.countP_congr fun i hi => ?_
      rw [BitVec.getLsbD_setWidth, ← BitVec.testBit_toNat]
      simp [List.mem_range.mp hi]

/-- The channels that an unrolled instruction is sent to are those its mask names exactly
when the mask is mirrored. -/
theorem channelMask_names_iff {s t : System C} {host : Request}
    (hdecode : s.decodeHead p send host = some t) (htype : host.type = .AIM)
    (hop : isUnrolled host.opcode = true) (hsize : host.opsize = -1 ∨ 1 ≤ host.opsize)
    (hpos : 0 < host.channelMask) (hlt : host.channelMask < 2 ^ 63) :
    NamesChannels host.channelMask.toNat (offered (t.log.drop s.log.length))
      (countSetBit (BitVec.ofInt 64 host.channelMask)) ↔ Mirrored host.channelMask.toNat := by
  obtain ⟨d, hd, hoffered⟩ := System.decodeHead_offered hdecode
  have htargets := decode_targets htype hop hd
  have hmask : (BitVec.ofInt 64 host.channelMask).toNat = host.channelMask.toNat := by
    rw [BitVec.toNat_ofInt]
    omega
  rw [← hmask]
  refine channelsOf_names_iff fun channel => ?_
  have hcols : ∃ col, col ∈ columnsOf host := by
    refine ⟨_, List.mem_map.mpr ⟨0, List.mem_range.mpr ?_, rfl⟩⟩
    split <;> omega
  rw [hoffered]
  have hfst : d.copies.map (·.1) = (targetsOf host).map (·.1) := by
    rw [← htargets, List.map_map]
    rfl
  rw [hfst]
  constructor
  · intro hmem
    obtain ⟨⟨c, col⟩, htarget, rfl⟩ := List.mem_map.mp hmem
    obtain ⟨col', -, hinner⟩ := List.mem_flatMap.mp htarget
    obtain ⟨c', hc', heq⟩ := List.mem_map.mp hinner
    rw [← (Prod.mk.inj heq).1]
    exact hc'
  · intro hmem
    obtain ⟨col, hcol⟩ := hcols
    exact List.mem_map.mpr ⟨(channel, col),
      List.mem_flatMap.mpr ⟨col, hcol, List.mem_map.mpr ⟨channel, hmem, rfl⟩⟩, rfl⟩

/-! ## Two masks -/

def writeGB (channelMask : Int) : Request :=
  { type := .AIM, opcode := .ISR_WR_GB, opsize := 1, gprAddr0 := 0, channelMask }

def holding (host : Request) : System (List Bool) :=
  { dma := { requestQueue := [host] }, controllers := fun _ => [] }

/-- Mask `0x80000001` is mirrored. -/
theorem channelMask_names_ends :
    NamesChannels 0x80000001
      (offered (((holding (writeGB 0x80000001)).decodeHead gddr6System scripted
        (writeGB 0x80000001)).get (by decide +kernel)).log)
      (countSetBit (BitVec.ofInt 64 0x80000001)) ↔ Mirrored 0x80000001 :=
  channelMask_names_iff (s := holding (writeGB 0x80000001)) (Option.some_get _).symm rfl rfl
    (.inr (by decide)) (by decide) (by decide)

/-- Mask `1` is sent to channel 31 instead of channel 0. -/
theorem channelMask_one :
    (((holding (writeGB 1)).decodeHead gddr6System scripted (writeGB 1)).map fun t =>
      offered t.log) = some [31] ∧
    ¬ ∀ t, (holding (writeGB 1)).decodeHead gddr6System scripted (writeGB 1) = some t →
      NamesChannels 1 (offered t.log) (countSetBit (BitVec.ofInt 64 1)) := by
  have hoffered : (((holding (writeGB 1)).decodeHead gddr6System scripted (writeGB 1)).map
      fun t => offered t.log) = some [31] := by
    decide +kernel
  refine ⟨hoffered, fun hnames => ?_⟩
  obtain ⟨t, ht, hlog⟩ := Option.map_eq_some_iff.mp hoffered
  have hzero := ((hnames t ht).1 0).mpr (by decide)
  rw [hlog] at hzero
  simp at hzero

end AimSimulator.Dma
