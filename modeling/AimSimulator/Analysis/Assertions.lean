import AimSimulator.Analysis.Forwarding
import AimSimulator.Dma.FanOut
import AimSimulator.Lib.Excepts
/-!
# The assertions of the AiM DMA

The release build drops the assertions of `aim_DRAM_system.cpp`.  Here the decoder tests them
where they stand.  `FindFirstChannelIndex` asserts `ch_mask_u & 0xffffffff != 0`, where `!=`
binds tighter than `&`: it tests bit 0 of the mask, which the first call clears.
-/

namespace AimSimulator.Dma

open SetBits Excepts

/-- How a build with assertions ends before it is through: at an assertion, or where it throws
or exits. -/
inductive Stop
  | assertion | otherwise
  deriving DecidableEq, Repr

def assert (test : Bool) : Except Stop Unit := if test then .ok () else .error .assertion

def orStop {α : Type} : Option α → Except Stop α
  | some a => .ok a
  | none => .error .otherwise

def countSetBitAsserting (chMask : BitVec 64) : Except Stop Nat := do
  assert (decide (0 < chMask.toInt))
  return countSetBit chMask

/-- `0xffffffff != 0`, an `int` in the conjunction. -/
def assertedBits : BitVec 32 := if 0xffffffff#32 != 0 then 1 else 0

def findFirstChannelIndexAsserting (chMask : BitVec 64) : Except Stop (Nat × BitVec 64) := do
  assert (chMask.setWidth 32 &&& assertedBits != 0)
  match (List.range maxChannelCount).find? fun i => chMask.setWidth 32 &&& channelBit i != 0 with
  | some _ => return findFirstChannelIndex chMask
  | none => .error .assertion

/-- The loop over the channels of one column, without the sends. -/
def visitChannels (p : SystemParams) (req : Request) : Nat → BitVec 64 → Except Stop Unit
  | 0, _ => .ok ()
  | count + 1, chMask => do
      let (channel, rest) ← findFirstChannelIndexAsserting chMask
      let _ ← orStop (applyAddrMapp p req channel)
      assert (decide (channel < p.numControllers))
      assert (decide (channel < maxChannelCount))
      visitChannels p req count rest

def decodeAsserting (p : SystemParams) (cfrValues : CFR → Int) (host : Request) :
    Except Stop Unit :=
  match host.type with
  | .AIM => do
      let count ← countSetBitAsserting (BitVec.ofInt 64 host.channelMask)
      if isUnrolled host.opcode then
        let isr ← orStop (convertOpcodeToISR host.opcode)
        if isr.channelCountEqOne ∧ count ≠ 1 then .error .otherwise
        else
          (columnsOf host).forM fun col =>
            visitChannels p { unrolledRequest cfrValues host isr with colAddr := col } count
              (BitVec.ofInt 64 host.channelMask)
      else return ()
  | _ => .ok ()

namespace System

variable {C : Type} (p : SystemParams) (send : Request → C → Option (Bool × C))

/-- The host request that a tick decodes, if it comes to one. -/
def decodes (s : System C) : Option Request :=
  (s.retryChannels p send (List.range maxChannelCount)).bind fun (was, _, s') =>
    if s'.dma.stalledAiMRequests = 0 ∧ was = false then s'.dma.requestQueue.head? else none

def tickAsserting (s : System C) : Except Stop (System C) :=
  (match s.decodes p send with
    | some host => decodeAsserting p s.dma.cfrValues host
    | none => .ok ()) >>= fun _ => orStop (s.tick p send)

def stepAsserting (s : System C) : Op C → Except Stop (System C)
  | .tick => s.tickAsserting p send
  | op => orStop (s.step p send op)

end System

/-! ## When the assertions hold -/

def BankFits (p : SystemParams) (host : Request) : Prop :=
  host.bankIndex = -1 ∨ 0 < p.numBankgroups ∧ 0 < p.banksPerBankgroup ∧
    0 ≤ host.bankIndex ∧ host.bankIndex < p.numBankgroups * p.banksPerBankgroup

/-- A host request whose decoding fails no assertion: an access, or an instruction with a mask
that is not unrolled to more than channel 31, or is stopped by an error before. -/
def AssertsHold (p : SystemParams) (host : Request) : Prop :=
  host.type = .AIM → 0 < host.channelMask ∧ (isUnrolled host.opcode = true →
    (host.opcode = .ISR_WR_ABK ∧ countSetBit (BitVec.ofInt 64 host.channelMask) ≠ 1) ∨
    columnsOf host = [] ∨ host.channelMask = 1 ∨
    (host.channelMask % 2 = 1 ∧ ¬ BankFits p host))

/-! ## The loop over the channels -/

variable {p : SystemParams}

theorem assert_true {test : Bool} (h : test = true) : assert test = .ok () := by
  rw [assert, if_pos h]

theorem assert_false {test : Bool} (h : test = false) : assert test = .error .assertion := by
  rw [assert, if_neg (by rw [h]; exact Bool.false_ne_true)]

theorem assertedBits_test {m : BitVec 64} {i : Nat} {rest : List Nat}
    (h : setBits (m.setWidth 32) = i :: rest) :
    (m.setWidth 32 &&& assertedBits != 0) = decide (i = 0) := by
  have hone : assertedBits = 1#32 <<< 0 := by decide
  rw [hone, and_shift_bne_zero _ (by decide), Bool.eq_iff_iff, decide_eq_true_iff, ← mem_setBits, h]
  constructor
  · intro hmem
    rcases List.mem_cons.mp hmem with rfl | hmem
    · rfl
    · -- the bits are visited from the lowest on
      have hsorted : (i :: rest).Pairwise (· < ·) := by
        rw [← h]
        exact List.pairwise_lt_range.filter _
      exact absurd ((List.pairwise_cons.mp hsorted).1 0 hmem) (Nat.not_lt_zero i)
  · rintro rfl
    exact List.mem_cons_self

theorem findFirstChannelIndexAsserting_cons {m : BitVec 64} {i : Nat} {rest : List Nat}
    (h : setBits (m.setWidth 32) = i :: rest) :
    findFirstChannelIndexAsserting m =
      if i = 0 then .ok (findFirstChannelIndex m) else .error .assertion := by
  have hfind := find?_setBit (m.setWidth 32)
  rw [h] at hfind
  unfold findFirstChannelIndexAsserting
  simp only [channelBit, maxChannelCount]
  rw [assertedBits_test h, hfind]
  by_cases hi : i = 0
  · rw [assert_true (decide_eq_true hi), if_pos hi]
    rfl
  · rw [assert_false (decide_eq_false hi), if_neg hi]
    rfl

theorem visitChannels_cons (hp : p.numControllers = maxChannelCount) (req : Request)
    {m : BitVec 64} {i : Nat} {rest : List Nat} (h : setBits (m.setWidth 32) = i :: rest) :
    visitChannels p req (i :: rest).length m =
      if i ≠ 0 then .error .assertion
      else if applyAddrMapp p req 31 = none then .error .otherwise
      else if rest = [] then .ok () else .error .assertion := by
  rw [List.length_cons, visitChannels, findFirstChannelIndexAsserting_cons h]
  obtain ⟨hchannel, hrest⟩ := findFirstChannelIndex_cons h
  by_cases hi : i = 0
  · rw [if_pos hi, if_neg (not_not_intro hi)]
    rw [hi] at hchannel
    show (do
      let _ ← orStop (applyAddrMapp p req (findFirstChannelIndex m).1)
      assert (decide ((findFirstChannelIndex m).1 < p.numControllers))
      assert (decide ((findFirstChannelIndex m).1 < maxChannelCount))
      visitChannels p req rest.length (findFirstChannelIndex m).2) = _
    rw [hchannel, hp, assert_true (by decide)]
    cases hmap : applyAddrMapp p req 31 with
    | none =>
        rw [if_pos rfl]
        rfl
    | some copy =>
        rw [if_neg (by simp)]
        show visitChannels p req rest.length (findFirstChannelIndex m).2 = _
        cases rest with
        | nil => rfl
        | cons j rest =>
            have hj : j ≠ 0 := by
              rintro rfl
              have hnodup := nodup_setBits (m.setWidth 32)
              rw [h, hi] at hnodup
              exact (List.nodup_cons.mp hnodup).1 List.mem_cons_self
            rw [if_neg (by simp), List.length_cons, visitChannels,
              findFirstChannelIndexAsserting_cons hrest, if_neg hj]
            rfl
  · rw [if_neg hi, if_pos hi]
    rfl

/-! ## The decoder -/

section

variable {host : Request}

theorem applyAddrMapp_eq_none {req : Request} {channel : Nat} (hchannel : channel < maxChannelCount) :
    applyAddrMapp p req channel = none ↔ ¬ BankFits p req := by
  constructor
  · intro hnone hfits
    have hsome := applyAddrMapp_isSome hchannel hfits
    rw [hnone] at hsome
    cases hsome
  · intro hfits
    unfold BankFits at hfits
    unfold applyAddrMapp
    rw [if_neg (by omega)]
    dsimp only
    rw [if_neg (fun h => hfits (.inl h))]
    split
    · rfl
    · rw [if_pos (by omega)]

theorem channelMask_bits (hpos : 0 < host.channelMask) (hlt : host.channelMask < 2 ^ 32) :
    ∃ i rest, setBits ((BitVec.ofInt 64 host.channelMask).setWidth 32) = i :: rest ∧
      countSetBit (BitVec.ofInt 64 host.channelMask) = (i :: rest).length ∧
      (i = 0 ↔ host.channelMask % 2 = 1) ∧ (i = 0 ∧ rest = [] ↔ host.channelMask = 1) := by
  have hnat := channelMask_toNat hpos hlt
  have hmem : ∀ j, j ∈ setBits ((BitVec.ofInt 64 host.channelMask).setWidth 32) ↔
      host.channelMask.toNat.testBit j = true := by
    intro j
    rw [mem_setBits, BitVec.getLsbD_setWidth, ← BitVec.testBit_toNat, hnat]
    by_cases hj : j < 32
    · simp [hj]
    · have hbit : host.channelMask.toNat.testBit j = false := Nat.testBit_lt_two_pow
        (Nat.lt_of_lt_of_le (show host.channelMask.toNat < 2 ^ 32 by omega)
          (Nat.pow_le_pow_right (by omega) (by omega)))
      simp [hbit]
  have hcount := countSetBit_eq (BitVec.ofInt 64 host.channelMask)
  rw [if_neg (not_highBit hpos hlt), Nat.add_zero] at hcount
  cases hbits : setBits ((BitVec.ofInt 64 host.channelMask).setWidth 32) with
  | nil =>
      have hzero : host.channelMask.toNat = 0 := Nat.eq_of_testBit_eq fun j => by
        rw [Nat.zero_testBit, Bool.eq_false_iff, Ne, ← hmem, hbits]
        exact List.not_mem_nil
      omega
  | cons i rest =>
      rw [hbits] at hcount hmem
      have hlow : i = 0 ↔ host.channelMask % 2 = 1 := by
        have htest := assertedBits_test hbits
        have hone : assertedBits = 1#32 <<< 0 := by decide
        rw [hone, and_shift_bne_zero _ (by decide), BitVec.getLsbD_setWidth, ←
          BitVec.testBit_toNat, hnat, Nat.testBit_zero] at htest
        have hiff := Bool.eq_iff_iff.mp htest
        simp only [decide_eq_true_eq, Bool.and_eq_true] at hiff
        rw [← hiff]
        omega
      refine ⟨i, rest, rfl, hcount, hlow, ?_⟩
      constructor
      · rintro ⟨rfl, rfl⟩
        have hone : host.channelMask.toNat = 1 := Nat.eq_of_testBit_eq fun j => by
          rw [Bool.eq_iff_iff, ← hmem, Nat.testBit_one_eq_true_iff_self_eq_zero]
          exact List.mem_singleton
        omega
      · intro hone
        rw [hone] at hbits
        obtain ⟨hi, hrest⟩ := List.cons.inj (hbits.symm.trans
          (show setBits ((BitVec.ofInt 64 1).setWidth 32) = [0] by decide))
        exact ⟨hi, hrest⟩

theorem channelCountEqOne_iff {opcode : Opcode} {isr : AiMISR}
    (h : convertOpcodeToISR opcode = some isr) :
    isr.channelCountEqOne = true ↔ opcode = .ISR_WR_ABK := by
  cases opcode <;> simp [convertOpcodeToISR] at h <;> subst h <;> simp

theorem unroll_assertion_iff (hp : p.numControllers = maxChannelCount) {req : Request}
    (hbank : req.bankIndex = host.bankIndex) (hpos : 0 < host.channelMask)
    (hlt : host.channelMask < 2 ^ 32) :
    ((columnsOf host).forM fun col => visitChannels p { req with colAddr := col }
        (countSetBit (BitVec.ofInt 64 host.channelMask)) (BitVec.ofInt 64 host.channelMask)) =
        .error .assertion ↔
      ¬ (columnsOf host = [] ∨ host.channelMask = 1 ∨
        (host.channelMask % 2 = 1 ∧ ¬ BankFits p host)) := by
  obtain ⟨i, rest, hbits, hcount, hodd, hone⟩ := channelMask_bits hpos hlt
  have hvisit := fun col => visitChannels_cons hp { req with colAddr := col } hbits
  have hmap : ∀ col, applyAddrMapp p { req with colAddr := col } 31 = none ↔ ¬ BankFits p host := by
    intro col
    refine (applyAddrMapp_eq_none (by decide)).trans (not_congr ?_)
    rw [BankFits, BankFits, show ({ req with colAddr := col } : Request).bankIndex =
      host.bankIndex from hbank]
  rw [hcount]
  cases hcols : columnsOf host with
  | nil => exact iff_of_false nofun fun h => h (.inl rfl)
  | cons col cols =>
      -- the first call of the first column decides
      have hfirst : ∀ {stop : Stop}, visitChannels p { req with colAddr := col }
          (i :: rest).length (BitVec.ofInt 64 host.channelMask) = .error stop →
          ((col :: cols).forM fun col => visitChannels p { req with colAddr := col }
            (i :: rest).length (BitVec.ofInt 64 host.channelMask)) = .error stop := by
        intro stop h
        show visitChannels p _ _ _ >>= _ = _
        rw [h]
        rfl
      by_cases hi : i = 0
      · by_cases hfits : BankFits p host
        · by_cases hrest : rest = []
          · rw [Excepts.forM_of_ok fun col _ => by
              rw [hvisit, if_neg (not_not_intro hi), if_neg fun h => (hmap col).mp h hfits,
                if_pos hrest]]
            exact iff_of_false nofun fun h => h (.inr (.inl (hone.mp ⟨hi, hrest⟩)))
          · rw [hfirst (by rw [hvisit, if_neg (not_not_intro hi),
              if_neg fun h => (hmap col).mp h hfits, if_neg hrest])]
            refine iff_of_true rfl ?_
            rintro (h | h | h)
            · cases h
            · exact hrest (hone.mpr h).2
            · exact h.2 hfits
        · rw [hfirst (by rw [hvisit, if_neg (not_not_intro hi), if_pos ((hmap col).mpr hfits)])]
          exact iff_of_false (by decide) fun h => h (.inr (.inr ⟨hodd.mp hi, hfits⟩))
      · rw [hfirst (by rw [hvisit, if_pos hi])]
        refine iff_of_true rfl ?_
        rintro (h | h | h)
        · cases h
        · exact hi (hone.mpr h).1
        · exact hi (hodd.mpr h.1)

theorem decodeAsserting_assertion_iff (hp : p.numControllers = maxChannelCount)
    (hmask : host.type = .AIM → -2 ^ 63 ≤ host.channelMask ∧ host.channelMask < 2 ^ 32)
    (cfrValues : CFR → Int) :
    decodeAsserting p cfrValues host = .error .assertion ↔ ¬ AssertsHold p host := by
  by_cases htype : host.type = .AIM
  · obtain ⟨hlow, hhigh⟩ := hmask htype
    have hint : (BitVec.ofInt 64 host.channelMask).toInt = host.channelMask := by
      rw [BitVec.toInt_ofInt]
      exact Int.bmod_eq_of_le (by omega) (by omega)
    have hcount : decodeAsserting p cfrValues host =
        (assert (decide (0 < host.channelMask)) >>= fun _ =>
          if isUnrolled host.opcode then
            orStop (convertOpcodeToISR host.opcode) >>= fun isr =>
            if isr.channelCountEqOne ∧ countSetBit (BitVec.ofInt 64 host.channelMask) ≠ 1 then
              .error .otherwise
            else
              (columnsOf host).forM fun col =>
                visitChannels p { unrolledRequest cfrValues host isr with colAddr := col }
                  (countSetBit (BitVec.ofInt 64 host.channelMask))
                  (BitVec.ofInt 64 host.channelMask)
          else return ()) := by
      rw [decodeAsserting, htype]
      dsimp only
      rw [countSetBitAsserting, hint]
      by_cases hpos : 0 < host.channelMask
      · rw [assert_true (decide_eq_true hpos)]
        rfl
      · rw [assert_false (decide_eq_false hpos)]
        rfl
    rw [hcount]
    unfold AssertsHold
    by_cases hpos : 0 < host.channelMask
    · rw [assert_true (decide_eq_true hpos)]
      show (if _ then _ else _) = _ ↔ _
      by_cases hop : isUnrolled host.opcode = true
      · obtain ⟨isr, hisr, -⟩ := convertOpcodeToISR_unrolled hop
        rw [if_pos hop, hisr]
        show (if _ then _ else _) = _ ↔ _
        simp only [channelCountEqOne_iff hisr]
        split
        · next hone =>
            exact iff_of_false (by decide) fun h => h fun _ => ⟨hpos, fun _ => .inl hone⟩
        · next hone =>
            rw [unroll_assertion_iff hp (unrolledRequest_bankIndex cfrValues host isr) hpos hhigh]
            refine not_congr ⟨fun h _ => ⟨hpos, fun _ => .inr h⟩, fun h => ?_⟩
            exact ((h htype).2 hop).resolve_left hone
      · rw [if_neg hop]
        exact iff_of_false nofun fun h => h fun _ => ⟨hpos, fun h => absurd h hop⟩
    · rw [assert_false (decide_eq_false hpos)]
      exact iff_of_true rfl fun h => hpos (h htype).1
  · refine iff_of_false (fun h => ?_) fun h => h fun haim => absurd haim htype
    unfold decodeAsserting at h
    split at h
    · next haim => exact htype haim
    · cases h

end

/-! ## Traces -/

open Frontend Analysis

def MaskInRange (req : Request) : Prop :=
  req.type = .AIM → isUnrolled req.opcode = true → 1 ≤ req.channelMask ∧ req.channelMask < 2 ^ 32

instance (req : Request) : Decidable (MaskInRange req) := inferInstanceAs (Decidable (_ → _))

def OfTrace {C : Type} : Op C → Prop
  | .send req => FromTrace req ∧ MaskInRange req
  | _ => True

theorem maskless_illegal {opcode : Opcode} {isr : AiMISR} (h : convertOpcodeToISR opcode = some isr)
    (hop : isUnrolled isr.opcode = false) : isr.isFieldLegal .channelMask = false := by
  cases opcode <;> simp [convertOpcodeToISR] at h <;> subst h <;> revert hop <;> decide

theorem fromTrace_maskless {req : Request} (h : FromTrace req) (htype : req.type = .AIM)
    (hop : isUnrolled req.opcode = false) : req.channelMask = -1 := by
  obtain ⟨t, t', h⟩ := h
  unfold AiMTrace.getHostRequest at h
  split at h
  · cases h
  · split at h
    · cases h
    · split at h
      · cases h
      · obtain ⟨rfl, -⟩ := Prod.mk.inj (Option.some.inj h)
        rfl
    · obtain ⟨req', hreq, heq⟩ := Option.map_eq_some_iff.mp h
      obtain ⟨rfl, -⟩ := Prod.mk.inj heq
      obtain ⟨isr, hisr, hreq⟩ := Option.bind_eq_some_iff.mp hreq
      split at hreq
      · cases hreq
      · obtain ⟨⟨req₁, rest⟩, hfields, rfl⟩ := Option.map_eq_some_iff.mp hreq
        have hopcode : req₁.opcode = isr.opcode :=
          AiMTrace.decodeFields_keeps (fun _ _ field _ => by cases field <;> rfl) hfields
        have hillegal := maskless_illegal hisr (hopcode ▸ hop)
        refine AiMTrace.decodeFields_keeps (f := Request.channelMask) ?_ hfields
        intro value req field hlegal
        cases field with
        | channelMask =>
            rw [hillegal] at hlegal
            cases hlegal
        | _ => rfl
    · split at h
      · next haccess =>
          obtain ⟨req', hreq, heq⟩ := Option.map_eq_some_iff.mp h
          obtain ⟨rfl, -⟩ := Prod.mk.inj heq
          rw [AiMTrace.accessRequest_type hreq] at htype
          rcases haccess with haccess | haccess <;> exact nomatch haccess.symm.trans htype
      · cases h

theorem fromTrace_mask_bounds {req : Request} (h : FromTrace req) (hmask : MaskInRange req)
    (htype : req.type = .AIM) : -2 ^ 63 ≤ req.channelMask ∧ req.channelMask < 2 ^ 32 := by
  cases hop : isUnrolled req.opcode with
  | true =>
      have := hmask htype hop
      omega
  | false =>
      rw [fromTrace_maskless h htype hop]
      decide

/-! ## Runs of a trace -/

namespace System

variable {C : Type} {send : Request → C → Option (Bool × C)}

abbrev AssertingRun (p : SystemParams) (send : Request → C → Option (Bool × C)) (ctls : Nat → C) :
    System C → Prop :=
  Runs.Reachable (fun s => s = { controllers := ctls })
    (fun s op t => s.stepAsserting p send op = .ok t) fun _ op => OfTrace op

theorem orStop_eq_ok {α : Type} {x : Option α} {a : α} : orStop x = .ok a ↔ x = some a := by
  cases x <;> simp [orStop]

theorem stepAsserting_ok {s t : System C} {op : Op C} (h : s.stepAsserting p send op = .ok t) :
    s.step p send op = some t := by
  cases op with
  | tick =>
      obtain ⟨-, -, h⟩ := bind_eq_ok.mp h
      exact orStop_eq_ok.mp h
  | _ => exact orStop_eq_ok.mp h

theorem AssertingRun.hosts {ctls : Nat → C} {s : System C} (hr : AssertingRun p send ctls s) :
    ∃ clk, s.Delivers (fun req => FromTrace req ∧ MaskInRange req) (fun _ _ => True)
      (fun _ _ => True) clk := by
  refine hr.invariant (I := fun s => ∃ clk, s.Delivers (fun req => FromTrace req ∧ MaskInRange req)
    (fun _ _ => True) (fun _ _ => True) clk) ?_ ?_
  · rintro s rfl
    exact ⟨0, rfl, fun _ h => (by cases h), fun _ => trivial, fun _ _ _ => trivial⟩
  · rintro s op t ⟨clk, hs⟩ hop hstep
    replace hstep := stepAsserting_ok hstep
    cases op with
    | send req =>
        obtain ⟨⟨ok, u⟩, hsent, rfl⟩ := Option.map_eq_some_iff.mp hstep
        exact ⟨clk, hs.host hop hsent⟩
    | tick =>
        exact ⟨clk + 1, hs.tick (fun _ _ _ _ _ _ _ _ => trivial)
          (fun _ _ _ _ _ _ _ _ => trivial) hstep⟩
    | receive i =>
        obtain ⟨copy, -, hstep⟩ := Option.bind_eq_some_iff.mp hstep
        have herased : Delivers (fun req => FromTrace req ∧ MaskInRange req) (fun _ _ => True)
            (fun _ _ => True) clk { s with inFlight := s.inFlight.eraseIdx i } :=
          hs.congr rfl rfl rfl rfl
        exact ⟨clk, herased.receive hstep⟩
    | controllers ctls =>
        obtain rfl := Option.some.inj hstep
        exact ⟨clk, hs.clock, hs.hosts, fun _ => trivial, hs.waiting⟩

/-- In every run of a trace on a system of 32 channels, a tick fails an assertion exactly where
the condition fails for the host request that it decodes. -/
theorem tick_assertion_iff (hp : p.numControllers = maxChannelCount) {ctls : Nat → C}
    {s : System C} (hr : AssertingRun p send ctls s) :
    s.tickAsserting p send = .error .assertion ↔
      ∃ host, s.decodes p send = some host ∧ ¬ AssertsHold p host := by
  obtain ⟨clk, hs⟩ := hr.hosts
  have hnever : orStop (s.tick p send) ≠ .error .assertion := by
    cases s.tick p send <;> exact nofun
  unfold tickAsserting
  cases hdecodes : s.decodes p send with
  | none =>
      refine iff_of_false (fun h => hnever h) ?_
      rintro ⟨host, hnone, -⟩
      cases hnone
  | some host =>
      have hhost : FromTrace host ∧ MaskInRange host := by
        obtain ⟨⟨was, isLeft, u⟩, hretry, h⟩ := Option.bind_eq_some_iff.mp hdecodes
        dsimp only at h
        split at h
        · have hu := hs.retryChannels (fun _ _ _ _ _ _ _ _ => trivial) hretry
          exact hu.hosts host (List.mem_of_head? h)
        · cases h
      have hdecode := decodeAsserting_assertion_iff hp
        (fun htype => fromTrace_mask_bounds hhost.1 hhost.2 htype) s.dma.cfrValues
      dsimp only
      rw [bind_eq_error, hdecode]
      constructor
      · rintro (h | ⟨-, -, h⟩)
        · exact ⟨host, rfl, h⟩
        · exact absurd h hnever
      · rintro ⟨host', heq, h⟩
        obtain rfl := Option.some.inj heq
        exact .inl h

/-! ## Three traces -/

def firstRequest (line : TraceLine) : Option Request :=
  (AiMTrace.getHostRequest { lines := [line, .aim .ISR_EOC []] }).map (·.1)

def afterFirst (line : TraceLine) : Option (System (List Bool)) :=
  (firstRequest line).bind fun req =>
    if MaskInRange req then
      (({ controllers := fun _ => [] } : System (List Bool)).send req).map (·.2)
    else none

theorem afterFirst_run {line : TraceLine} {s : System (List Bool)} (h : afterFirst line = some s) :
    AssertingRun gddr6System scripted (fun _ => []) s := by
  obtain ⟨req, hreq, h⟩ := Option.bind_eq_some_iff.mp h
  split at h
  · next hmask =>
      obtain ⟨⟨req', t⟩, htrace, rfl⟩ := Option.map_eq_some_iff.mp hreq
      exact .next (l := .send req') (.start rfl) ⟨⟨_, t, htrace⟩, hmask⟩ (orStop_eq_ok.mpr h)
  · cases h

def failsAssertion {α : Type} : Except Stop α → Bool
  | .error .assertion => true
  | _ => false

theorem failsAssertion_iff {α : Type} {x : Except Stop α} :
    failsAssertion x = true ↔ x = .error .assertion := by
  constructor
  · intro h
    unfold failsAssertion at h
    split at h
    · rfl
    · cases h
  · rintro rfl
    rfl

/-- A `WR_GB` to channel 31, the only mask that passes. -/
theorem tick_assertion_iff_mask_one :
    ∃ s, AssertingRun gddr6System scripted (fun _ => []) s ∧
      ((s.decodes gddr6System scripted).map (·.channelMask)) = some 1 ∧
      failsAssertion (s.tickAsserting gddr6System scripted) = false ∧
      (s.tickAsserting gddr6System scripted = .error .assertion ↔
        ∃ host, s.decodes gddr6System scripted = some host ∧ ¬ AssertsHold gddr6System host) := by
  have hrun : ((afterFirst (.aim .ISR_WR_GB [1, 0, 1])).any fun s =>
      decide (((s.decodes gddr6System scripted).map (·.channelMask)) = some 1) &&
        !failsAssertion (s.tickAsserting gddr6System scripted)) = true := by decide +kernel
  obtain ⟨s, hs, htest⟩ := Option.any_eq_true _ _ |>.mp hrun
  obtain ⟨hmask, hpasses⟩ := Bool.and_eq_true _ _ |>.mp htest
  exact ⟨s, afterFirst_run hs, of_decide_eq_true hmask, by simpa using hpasses,
    tick_assertion_iff rfl (afterFirst_run hs)⟩

/-- A `WR_GB` to channel 30 fails the assertion on its mask, and every `EOC` the one on the
number of channels. -/
theorem write_and_eoc_assert :
    (∃ s, AssertingRun gddr6System scripted (fun _ => []) s ∧
      ((s.decodes gddr6System scripted).map (·.channelMask)) = some 2 ∧
      s.tickAsserting gddr6System scripted = .error .assertion) ∧
    ∃ s, AssertingRun gddr6System scripted (fun _ => []) s ∧
      ((s.decodes gddr6System scripted).map (·.opcode)) = some .ISR_EOC ∧
      s.tickAsserting gddr6System scripted = .error .assertion := by
  have hwrite : ((afterFirst (.aim .ISR_WR_GB [1, 0, 2])).any fun s =>
      decide (((s.decodes gddr6System scripted).map (·.channelMask)) = some 2) &&
        failsAssertion (s.tickAsserting gddr6System scripted)) = true := by decide +kernel
  have heoc : ((afterFirst (.aim .ISR_EOC [])).any fun s =>
      decide (((s.decodes gddr6System scripted).map (·.opcode)) = some .ISR_EOC) &&
        failsAssertion (s.tickAsserting gddr6System scripted)) = true := by decide +kernel
  refine ⟨?_, ?_⟩
  · obtain ⟨s, hs, htest⟩ := Option.any_eq_true _ _ |>.mp hwrite
    obtain ⟨hmask, hfails⟩ := Bool.and_eq_true _ _ |>.mp htest
    exact ⟨s, afterFirst_run hs, of_decide_eq_true hmask, failsAssertion_iff.mp hfails⟩
  · obtain ⟨s, hs, htest⟩ := Option.any_eq_true _ _ |>.mp heoc
    obtain ⟨hopcode, hfails⟩ := Bool.and_eq_true _ _ |>.mp htest
    exact ⟨s, afterFirst_run hs, of_decide_eq_true hopcode, failsAssertion_iff.mp hfails⟩

end System

end AimSimulator.Dma
