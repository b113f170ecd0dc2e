import AimSimulator.Dma.AiMDRAMSystem
/-!
# What the decoder makes of a host request

The copies carry the id of their host request, the callback of the DMA exactly when they
block, and a device address whose first level is the channel they are sent to.
-/

namespace AimSimulator.Dma

/-! ## Addresses -/

theorem at_set_zero {v : AddrVec} {x : Int} (h : 0 < v.length) : AddrVec.at (v.set 0 x) 0 = x := by
  cases v with
  | nil => simp at h
  | cons a v => rfl

theorem at_set_succ (v : AddrVec) (x : Int) (n : Nat) :
    AddrVec.at (v.set (n + 1) x) 0 = AddrVec.at v 0 := by
  cases v <;> rfl

theorem length_resize (addrVec : AddrVec) (n : Nat) : (resize addrVec n).length = n := by
  simp only [resize, List.length_append, List.length_take, List.length_replicate]
  omega

theorem place_at_zero (p : SystemParams) (v : AddrVec) (a b c d : Int) :
    AddrVec.at ((((v.set p.bankgroupLevel a).set (p.bankgroupLevel + 1) b).set
      (p.bankgroupLevel + 2) c).set (p.bankgroupLevel + 3) d) 0 = AddrVec.at v 0 := by
  unfold SystemParams.bankgroupLevel
  split <;> simp only [at_set_succ]

theorem applyAddrMapp_eq_some {p : SystemParams} {req copy : Request} {channelId : Int}
    (h : applyAddrMapp p req channelId = some copy) :
    0 ≤ channelId ∧ channelId < maxChannelCount ∧ copy.addrVec.at 0 = channelId ∧
      copy = { req with addrVec := copy.addrVec } := by
  unfold applyAddrMapp at h
  split at h
  · cases h
  · next hchannel =>
      rw [not_or] at hchannel
      have hlevels : 0 < ((resize req.addrVec p.numLevels).set 0 channelId).length := by
        rw [List.length_set, length_resize, SystemParams.numLevels]
        omega
      have hzero : AddrVec.at (if p.hasRank = true then
          ((resize req.addrVec p.numLevels).set 0 channelId).set 1 0
            else (resize req.addrVec p.numLevels).set 0 channelId) 0 = channelId := by
        have hset := at_set_zero (x := channelId) (by simpa using hlevels)
        split
        · exact (at_set_succ _ _ 0).trans hset
        · exact hset
      dsimp only at h
      refine ⟨by omega, by omega, ?_⟩
      split at h
      · rw [← Option.some.inj h]
        exact ⟨by rw [place_at_zero, hzero], rfl⟩
      · split at h
        · cases h
        · split at h
          · cases h
          · rw [← Option.some.inj h]
            exact ⟨by rw [place_at_zero, hzero], rfl⟩

/-! ## Unrolled instructions -/

theorem map_of_mapM {α β : Type} {f : α → Option β} {l : List α} :
    ∀ {l' : List β}, l.mapM f = some l' → l.map f = l'.map some := by
  induction l with
  | nil =>
      intro l' h
      rw [← Option.some.inj h]
      rfl
  | cons a l ih =>
      intro l' h
      rw [List.mapM_cons] at h
      obtain ⟨b, hb, h⟩ := Option.bind_eq_some_iff.mp h
      obtain ⟨bs, hbs, h⟩ := Option.bind_eq_some_iff.mp h
      rw [← Option.some.inj h, List.map_cons, List.map_cons, ih hbs, hb]

/-- The channels and columns that the loops of the decoder visit, in their order. -/
def targetsOf (host : Request) : List (Nat × Int) :=
  (columnsOf host).flatMap fun col =>
    (channelsOf (BitVec.ofInt 64 host.channelMask)).map fun channel => (channel, col)

theorem unroll_copy {p : SystemParams} {host req : Request} {copies : List (Nat × Request)}
    (h : unroll p host req = some copies) {c : Nat × Request} (hc : c ∈ copies) :
    c.2.addrVec.at 0 = c.1 ∧ c.1 < maxChannelCount ∧
      c.2 = { req with colAddr := c.2.colAddr, addrVec := c.2.addrVec } := by
  have hmap := map_of_mapM h
  have hmem : some c ∈ copies.map some := List.mem_map_of_mem hc
  rw [← hmap] at hmem
  obtain ⟨⟨channel, col⟩, -, heq⟩ := List.mem_map.mp hmem
  obtain ⟨copy, hcopy, rfl⟩ := Option.map_eq_some_iff.mp heq
  obtain ⟨-, hlt, hzero, hsame⟩ := applyAddrMapp_eq_some hcopy
  have hcol : copy.colAddr = col := by rw [hsame]
  exact ⟨hzero, by omega, by rw [hcol]; exact hsame⟩

theorem unroll_targets {p : SystemParams} {host req : Request} {copies : List (Nat × Request)}
    (h : unroll p host req = some copies) :
    copies.map (fun c => (c.1, c.2.colAddr)) = targetsOf host := by
  have hmap := map_of_mapM h
  have hrest : ∀ {l : List (Nat × Int)} {l' : List (Nat × Request)},
      l.map (fun t => (applyAddrMapp p { req with colAddr := t.2 } t.1).map
        fun copy => (t.1, copy)) = l'.map some →
          l'.map (fun c => (c.1, c.2.colAddr)) = l := by
    intro l
    induction l with
    | nil =>
        intro l' h
        rw [List.map_nil, eq_comm, List.map_eq_nil_iff] at h
        rw [h]
        rfl
    | cons t l ih =>
        intro l' h
        cases l' with
        | nil => cases h
        | cons c l' =>
            obtain ⟨hhead, htail⟩ := List.cons.inj h
            obtain ⟨copy, hcopy, rfl⟩ := Option.map_eq_some_iff.mp hhead
            obtain ⟨-, -, -, hsame⟩ := applyAddrMapp_eq_some hcopy
            rw [List.map_cons, ih htail]
            have hcol : copy.colAddr = t.2 := by rw [hsame]
            rw [hcol]
  exact hrest hmap

theorem convertSingleBank_callback (host : Request) :
    (convertSingleBank host).callback = host.callback := by
  unfold convertSingleBank
  split <;> rfl

theorem convertSingleBank_hostReqId (host : Request) :
    (convertSingleBank host).hostReqId = host.hostReqId := by
  unfold convertSingleBank
  split <;> rfl

theorem unrolledRequest_callback (cfrValues : CFR → Int) (host : Request) (isr : AiMISR) :
    (unrolledRequest cfrValues host isr).callback =
      if isr.aimDmaBlocking then .aimReceive else host.callback := by
  simp only [unrolledRequest, apply_ite Request.callback, ite_self, convertSingleBank_callback]

theorem unrolledRequest_hostReqId (cfrValues : CFR → Int) (host : Request) (isr : AiMISR) :
    (unrolledRequest cfrValues host isr).hostReqId = host.hostReqId := by
  simp only [unrolledRequest, apply_ite Request.hostReqId, ite_self, convertSingleBank_hostReqId]

/-! ## All host requests -/

structure CopyOf (host : Request) (blocking : Bool) (copy : Request) : Prop where
  hostReqId : copy.hostReqId = host.hostReqId
  callback : copy.callback = if blocking then .aimReceive else host.callback

theorem decodeMem_copy {p : SystemParams} {cfrValues : CFR → Int} {host : Request} {d : Decoded}
    (h : decodeMem p cfrValues host = some d) {c : Nat × Request} (hc : c ∈ d.copies) :
    CopyOf host d.blocking c.2 := by
  obtain ⟨copy, hcopy, rfl⟩ := Option.map_eq_some_iff.mp h
  obtain rfl := List.mem_singleton.mp hc
  obtain ⟨-, -, -, hsame⟩ := applyAddrMapp_eq_some hcopy
  dsimp only
  rw [hsame]
  exact ⟨rfl, rfl⟩

theorem decodeAiM_copy {p : SystemParams} {cfrValues : CFR → Int} {host : Request} {d : Decoded}
    (h : decodeAiM p cfrValues host = some d) {c : Nat × Request} (hc : c ∈ d.copies) :
    CopyOf host d.blocking c.2 := by
  unfold decodeAiM at h
  split at h
  · obtain ⟨isr, -, h⟩ := Option.bind_eq_some_iff.mp h
    split at h
    · cases h
    · obtain ⟨copies, hcopies, rfl⟩ := Option.map_eq_some_iff.mp h
      obtain ⟨-, -, hsame⟩ := unroll_copy hcopies hc
      constructor
      · rw [hsame]
        exact unrolledRequest_hostReqId ..
      · rw [hsame]
        exact unrolledRequest_callback ..
  · split at h
    · cases h
    · rw [← Option.some.inj h] at hc ⊢
      obtain ⟨channel, -, rfl⟩ := List.mem_map.mp hc
      exact ⟨rfl, rfl⟩
    · rw [← Option.some.inj h] at hc ⊢
      obtain ⟨channel, -, rfl⟩ := List.mem_map.mp hc
      exact ⟨rfl, rfl⟩
    · rw [← Option.some.inj h] at hc
      cases hc

theorem decode_copy {p : SystemParams} {cfrValues : CFR → Int} {host : Request} {d : Decoded}
    (h : decode p cfrValues host = some d) {c : Nat × Request} (hc : c ∈ d.copies) :
    CopyOf host d.blocking c.2 := by
  unfold decode at h
  split at h
  · exact decodeAiM_copy h hc
  · rw [← Option.some.inj h] at hc
    cases hc
  · rw [← Option.some.inj h] at hc
    cases hc
  · exact decodeMem_copy h hc
  · obtain ⟨cfr, -, rfl⟩ := Option.map_eq_some_iff.mp h
    cases hc
  · rw [← Option.some.inj h] at hc
    cases hc
  · exact decodeMem_copy h hc
  · cases h

/-! ## Where copies go -/

/-- The device address of a copy names the channel it is sent to, a barrier's apart. -/
def Addressed (channel : Nat) (copy : Request) : Prop :=
  copy.opcode.isBarrier = true ∨ copy.addrVec.at 0 = channel

theorem decodeMem_addressed {p : SystemParams} {cfrValues : CFR → Int} {host : Request}
    {d : Decoded} (h : decodeMem p cfrValues host = some d) {c : Nat × Request}
    (hc : c ∈ d.copies) : Addressed c.1 c.2 := by
  obtain ⟨copy, hcopy, rfl⟩ := Option.map_eq_some_iff.mp h
  obtain rfl := List.mem_singleton.mp hc
  obtain ⟨hnonneg, -, hzero, -⟩ := applyAddrMapp_eq_some hcopy
  right
  dsimp only
  rw [hzero, Int.toNat_of_nonneg hnonneg]

theorem decodeAiM_addressed {p : SystemParams} {cfrValues : CFR → Int} {host : Request}
    {d : Decoded} (h : decodeAiM p cfrValues host = some d) {c : Nat × Request}
    (hc : c ∈ d.copies) : Addressed c.1 c.2 := by
  unfold decodeAiM at h
  split at h
  · obtain ⟨isr, -, h⟩ := Option.bind_eq_some_iff.mp h
    split at h
    · cases h
    · obtain ⟨copies, hcopies, rfl⟩ := Option.map_eq_some_iff.mp h
      exact .inr (unroll_copy hcopies hc).1
  · split at h
    · cases h
    · next hop =>
        rw [← Option.some.inj h] at hc
        obtain ⟨channel, -, rfl⟩ := List.mem_map.mp hc
        exact .inl (by rw [hop]; rfl)
    · next hop =>
        rw [← Option.some.inj h] at hc
        obtain ⟨channel, -, rfl⟩ := List.mem_map.mp hc
        exact .inl (by rw [hop]; rfl)
    · rw [← Option.some.inj h] at hc
      cases hc

theorem decode_addressed {p : SystemParams} {cfrValues : CFR → Int} {host : Request} {d : Decoded}
    (h : decode p cfrValues host = some d) {c : Nat × Request} (hc : c ∈ d.copies) :
    Addressed c.1 c.2 := by
  unfold decode at h
  split at h
  · exact decodeAiM_addressed h hc
  · rw [← Option.some.inj h] at hc
    cases hc
  · rw [← Option.some.inj h] at hc
    cases hc
  · exact decodeMem_addressed h hc
  · obtain ⟨cfr, -, rfl⟩ := Option.map_eq_some_iff.mp h
    cases hc
  · rw [← Option.some.inj h] at hc
    cases hc
  · exact decodeMem_addressed h hc
  · cases h

/-- Where a copy comes from: an access of the memory, the loops of an unrolled instruction, or a
barrier. -/
theorem decode_cases {p : SystemParams} {cfrValues : CFR → Int} {host : Request} {d : Decoded}
    (h : decode p cfrValues host = some d) {c : Nat × Request} (hc : c ∈ d.copies) :
    (∃ copy, applyAddrMapp p host (toInt32 host.channelMask) = some copy ∧
      c = ((copy.addrVec.at 0).toNat, copy)) ∨
    host.type = .AIM ∧
      ((∃ isr copies, convertOpcodeToISR host.opcode = some isr ∧
        unroll p host (unrolledRequest cfrValues host isr) = some copies ∧ c ∈ copies) ∨
      host.opcode.isBarrier = true ∧ c.2 = { host with callback := .aimReceive }) := by
  have hmem : decodeMem p cfrValues host = some d →
      ∃ copy, applyAddrMapp p host (toInt32 host.channelMask) = some copy ∧
        c = ((copy.addrVec.at 0).toNat, copy) := by
    intro h
    obtain ⟨copy, hcopy, rfl⟩ := Option.map_eq_some_iff.mp h
    exact ⟨copy, hcopy, List.mem_singleton.mp hc⟩
  have hbarrier : (d.copies = (List.range p.numControllers).map fun channel =>
      (channel, { host with callback := .aimReceive })) →
        c.2 = { host with callback := .aimReceive } := by
    intro hcopies
    rw [hcopies] at hc
    obtain ⟨channel, -, rfl⟩ := List.mem_map.mp hc
    rfl
  unfold decode at h
  split at h
  · next htype =>
      refine .inr ⟨htype, ?_⟩
      unfold decodeAiM at h
      split at h
      · obtain ⟨isr, hisr, h⟩ := Option.bind_eq_some_iff.mp h
        split at h
        · cases h
        · obtain ⟨copies, hcopies, rfl⟩ := Option.map_eq_some_iff.mp h
          exact .inl ⟨isr, copies, hisr, hcopies, hc⟩
      · split at h
        · cases h
        · next hop => exact .inr ⟨by rw [hop]; rfl, hbarrier (Option.some.inj h ▸ rfl)⟩
        · next hop => exact .inr ⟨by rw [hop]; rfl, hbarrier (Option.some.inj h ▸ rfl)⟩
        · rw [← Option.some.inj h] at hc
          cases hc
  · rw [← Option.some.inj h] at hc
    cases hc
  · rw [← Option.some.inj h] at hc
    cases hc
  · exact .inl (hmem h)
  · obtain ⟨cfr, -, rfl⟩ := Option.map_eq_some_iff.mp h
    cases hc
  · rw [← Option.some.inj h] at hc
    cases hc
  · exact .inl (hmem h)
  · cases h

/-- A copy for the controller of a channel: its device address names the channel, or it is a
barrier for the AiM buffer. -/
def ForChannel (channel : Nat) (copy : Request) : Prop :=
  copy.addrVec.at 0 = channel ∨ copy.type = .AIM ∧ copy.opcode.isBarrier = true

theorem decode_forChannel {p : SystemParams} {cfrValues : CFR → Int} {host : Request} {d : Decoded}
    (h : decode p cfrValues host = some d) {c : Nat × Request} (hc : c ∈ d.copies) :
    ForChannel c.1 c.2 := by
  rcases decode_cases h hc with ⟨copy, hcopy, rfl⟩ |
    ⟨htype, ⟨isr, copies, -, hcopies, hc⟩ | ⟨hop, hcopy⟩⟩
  · obtain ⟨hnonneg, -, hzero, -⟩ := applyAddrMapp_eq_some hcopy
    left
    dsimp only
    rw [hzero, Int.toNat_of_nonneg hnonneg]
  · exact .inl (unroll_copy hcopies hc).1
  · rw [ForChannel, hcopy]
    exact .inr ⟨htype, hop⟩

theorem convertSingleBank_blocking {host : Request} {isr : AiMISR}
    (hisr : convertOpcodeToISR host.opcode = some isr) (hblocking : isr.aimDmaBlocking = true) :
    convertSingleBank host = host := by
  unfold convertSingleBank
  split
  · next hop =>
      rw [hop] at hisr
      obtain rfl := Option.some.inj hisr
      cases hblocking
  · next hop =>
      rw [hop] at hisr
      obtain rfl := Option.some.inj hisr
      cases hblocking
  · rfl

theorem decode_reads {p : SystemParams} {cfrValues : CFR → Int} {host : Request} {d : Decoded}
    (hhost : host.callback ≠ .aimReceive) (h : decode p cfrValues host = some d)
    {c : Nat × Request} (hc : c ∈ d.copies) (hcallback : c.2.callback = .aimReceive) :
    c.2.type = .AIM ∧ c.2.isReader = true := by
  rcases decode_cases h hc with ⟨copy, hcopy, rfl⟩ |
    ⟨htype, ⟨isr, copies, hisr, hcopies, hc⟩ | ⟨hop, hcopy⟩⟩
  · obtain ⟨-, -, -, hsame⟩ := applyAddrMapp_eq_some hcopy
    dsimp only at hcallback
    rw [hsame] at hcallback
    exact absurd hcallback hhost
  · obtain ⟨-, -, hsame⟩ := unroll_copy hcopies hc
    have hblocking : isr.aimDmaBlocking = true := by
      rw [hsame] at hcallback
      have hkept : (unrolledRequest cfrValues host isr).callback = .aimReceive := hcallback
      rw [unrolledRequest_callback] at hkept
      split at hkept
      · assumption
      · exact absurd hkept hhost
    have hsingle := convertSingleBank_blocking hisr hblocking
    have htype' : c.2.type = .AIM := by
      rw [hsame]
      simp only [unrolledRequest, apply_ite Request.type, ite_self, hsingle, htype]
    have hop : c.2.opcode = host.opcode := by
      rw [hsame]
      simp only [unrolledRequest, apply_ite Request.opcode, ite_self, hsingle]
    refine ⟨htype', ?_⟩
    unfold Request.isReader
    rw [htype', hop, hisr]
    simp [hblocking]
  · rw [hcopy]
    refine ⟨htype, ?_⟩
    unfold Request.isReader
    unfold Opcode.isBarrier at hop
    rcases Bool.or_eq_true_iff.mp hop with hop | hop <;>
      simp [htype, eq_of_beq hop, convertOpcodeToISR]

/-! ## The plain address of a copy -/

theorem convertSingleBank_addr (host : Request) : (convertSingleBank host).addr = host.addr := by
  unfold convertSingleBank
  split <;> rfl

theorem unrolledRequest_addr (cfrValues : CFR → Int) (host : Request) (isr : AiMISR) :
    (unrolledRequest cfrValues host isr).addr = host.addr := by
  simp only [unrolledRequest, apply_ite Request.addr, ite_self, convertSingleBank_addr]

theorem decode_addr {p : SystemParams} {cfrValues : CFR → Int} {host : Request} {d : Decoded}
    (h : decode p cfrValues host = some d) {c : Nat × Request} (hc : c ∈ d.copies) :
    (host.type = .AIM ∨ host.memAccessRegion = .MEM) ∧ c.2.addr = host.addr := by
  have hmem : ∀ {d : Decoded}, decodeMem p cfrValues host = some d → c ∈ d.copies →
      c.2.addr = host.addr := by
    intro d h hc
    obtain ⟨copy, hcopy, rfl⟩ := Option.map_eq_some_iff.mp h
    obtain rfl := List.mem_singleton.mp hc
    obtain ⟨-, -, -, hsame⟩ := applyAddrMapp_eq_some hcopy
    dsimp only
    rw [hsame]
  unfold decode at h
  split at h
  · next htype =>
      refine ⟨.inl htype, ?_⟩
      unfold decodeAiM at h
      split at h
      · obtain ⟨isr, -, h⟩ := Option.bind_eq_some_iff.mp h
        split at h
        · cases h
        · obtain ⟨copies, hcopies, rfl⟩ := Option.map_eq_some_iff.mp h
          obtain ⟨-, -, hsame⟩ := unroll_copy hcopies hc
          rw [hsame]
          exact unrolledRequest_addr ..
      · split at h
        · cases h
        · rw [← Option.some.inj h] at hc
          obtain ⟨channel, -, rfl⟩ := List.mem_map.mp hc
          rfl
        · rw [← Option.some.inj h] at hc
          obtain ⟨channel, -, rfl⟩ := List.mem_map.mp hc
          rfl
        · rw [← Option.some.inj h] at hc
          cases hc
  · rw [← Option.some.inj h] at hc
    cases hc
  · rw [← Option.some.inj h] at hc
    cases hc
  · next hregion => exact ⟨.inr hregion, hmem h hc⟩
  · obtain ⟨cfr, -, rfl⟩ := Option.map_eq_some_iff.mp h
    cases hc
  · rw [← Option.some.inj h] at hc
    cases hc
  · next hregion => exact ⟨.inr hregion, hmem h hc⟩
  · cases h

end AimSimulator.Dma
