import AimSimulator.Dma.FanOut
/-!
# Configuration registers

The registers that the decoder reads hold what the program wrote last.  A copy of a `MAC`
or `AF` carries its register cut to 16 bits, and a copy of an `EWMUL` carries the field of
its host request, whatever the program wrote.
-/

namespace AimSimulator.Dma

/-! ## What a program wrote -/

def WritesCFR (cfr : CFR) (host : Request) : Prop :=
  host.type = .Write ∧ host.memAccessRegion = .CFR ∧ addressToCFR host.addr = some cfr

instance (cfr : CFR) (host : Request) : Decidable (WritesCFR cfr host) :=
  inferInstanceAs (Decidable (_ ∧ _ ∧ _))

/-- The data that a program wrote last to a register, or its initial value. -/
def lastWritten (program : List Request) (cfr : CFR) : Int :=
  program.foldl (fun value host => if WritesCFR cfr host then host.data else value)
    (({} : AiMDRAMSystem).cfrValues cfr)

theorem lastWritten_concat (program : List Request) (host : Request) (cfr : CFR) :
    lastWritten (program ++ [host]) cfr =
      if WritesCFR cfr host then host.data else lastWritten program cfr := by
  rw [lastWritten, List.foldl_append]
  rfl

variable {p : SystemParams} {cfrValues : CFR → Int} {host copy : Request} {d : Decoded}

theorem decode_cfrValues (h : decode p cfrValues host = some d) (cfr : CFR) :
    d.cfrValues cfr = if WritesCFR cfr host then host.data else cfrValues cfr := by
  have hkeep : ¬ (host.type = .Write ∧ host.memAccessRegion = .CFR) →
      (if WritesCFR cfr host then host.data else cfrValues cfr) = cfrValues cfr :=
    fun hne => if_neg fun hwrites => hne ⟨hwrites.1, hwrites.2.1⟩
  have hmem : ∀ {d : Decoded}, decodeMem p cfrValues host = some d →
      d.cfrValues cfr = cfrValues cfr := by
    intro d h
    obtain ⟨copy, -, rfl⟩ := Option.map_eq_some_iff.mp h
    rfl
  unfold decode at h
  split at h
  · next htype =>
      rw [hkeep (by rw [htype]; nofun)]
      unfold decodeAiM at h
      split at h
      · obtain ⟨isr, -, h⟩ := Option.bind_eq_some_iff.mp h
        split at h
        · cases h
        · obtain ⟨copies, -, rfl⟩ := Option.map_eq_some_iff.mp h
          rfl
      · split at h
        · cases h
        all_goals
          rw [← Option.some.inj h]
  · next htype _ =>
      rw [hkeep (by rw [htype]; nofun), ← Option.some.inj h]
  · next htype _ =>
      rw [hkeep (by rw [htype]; nofun), ← Option.some.inj h]
  · next htype _ =>
      rw [hkeep (by rw [htype]; nofun), hmem h]
  · next htype hregion =>
      obtain ⟨written, hwritten, rfl⟩ := Option.map_eq_some_iff.mp h
      dsimp only
      refine ite_congr (propext ?_) (fun _ => rfl) fun _ => rfl
      constructor
      · rintro rfl
        exact ⟨htype, hregion, hwritten⟩
      · rintro ⟨-, -, hcfr⟩
        exact Option.some.inj (hcfr.symm.trans hwritten)
  · next hregion =>
      rw [hkeep (by rw [hregion]; nofun), ← Option.some.inj h]
  · next hregion =>
      rw [hkeep (by rw [hregion]; nofun), hmem h]
  · cases h

/-! ## What a copy carries -/

/-- The fields of a copy that a register or a field of its host request decides. -/
structure Configured (cfrValues : CFR → Int) (host copy : Request) : Prop where
  broadcast : host.opcode = .ISR_MAC_SBK ∨ host.opcode = .ISR_MAC_ABK →
    copy.broadcast = toInt16 (cfrValues .BROADCAST)
  ewmulBg : host.opcode = .ISR_EWMUL → copy.ewmulBg = host.ewmulBg
  afm : host.opcode = .ISR_AF → copy.afm = toInt16 (cfrValues .AFM) ∧
    copy.rowAddr = 2 ^ 29 + toInt16 (cfrValues .AFM)

theorem unrolledRequest_configured {isr : AiMISR}
    (hisr : convertOpcodeToISR host.opcode = some isr) :
    Configured cfrValues host (unrolledRequest cfrValues host isr) := by
  constructor
  · rintro (hop | hop) <;> rw [hop] at hisr <;> obtain rfl := Option.some.inj hisr <;>
      simp [unrolledRequest, convertSingleBank, AiMISR.isFieldLegal, hop]
  · intro hop
    rw [hop] at hisr
    obtain rfl := Option.some.inj hisr
    simp [unrolledRequest, convertSingleBank, AiMISR.isFieldLegal, hop]
  · intro hop
    rw [hop] at hisr
    obtain rfl := Option.some.inj hisr
    simp [unrolledRequest, convertSingleBank, AiMISR.isFieldLegal, hop]

theorem decode_configured (htype : host.type = .AIM) (h : decode p cfrValues host = some d)
    {c : Nat × Request} (hc : c ∈ d.copies) : Configured cfrValues host c.2 := by
  have hdecode : decode p cfrValues host = decodeAiM p cfrValues host := by
    rw [decode, htype]
  rw [hdecode] at h
  unfold decodeAiM at h
  split at h
  · obtain ⟨isr, hisr, h⟩ := Option.bind_eq_some_iff.mp h
    split at h
    · cases h
    · obtain ⟨copies, hcopies, rfl⟩ := Option.map_eq_some_iff.mp h
      obtain ⟨-, -, hsame⟩ := unroll_copy hcopies hc
      have hconfigured : Configured cfrValues host (unrolledRequest cfrValues host isr) :=
        unrolledRequest_configured hisr
      rw [hsame]
      exact ⟨hconfigured.broadcast, hconfigured.ewmulBg, hconfigured.afm⟩
  · next hunrolled =>
      refine ⟨?_, ?_, ?_⟩
      · rintro (hop | hop) <;> rw [hop] at hunrolled <;> exact absurd rfl hunrolled
      · intro hop
        rw [hop] at hunrolled
        exact absurd rfl hunrolled
      · intro hop
        rw [hop] at hunrolled
        exact absurd rfl hunrolled

/-- What a copy should carry of the registers that the program wrote before its host
request. -/
def CarriesConfig (program : List Request) (host copy : Request) : Prop :=
  match host.opcode with
  | .ISR_MAC_SBK | .ISR_MAC_ABK => copy.broadcast = lastWritten program .BROADCAST
  | .ISR_EWMUL => copy.ewmulBg = lastWritten program .EWMUL_BG
  | .ISR_AF => copy.afm = lastWritten program .AFM ∧
      copy.rowAddr = 2 ^ 29 + lastWritten program .AFM
  | _ => True

def FitsInt16 (x : Int) : Prop := -2 ^ 15 ≤ x ∧ x < 2 ^ 15

theorem toInt16_eq_iff (x : Int) : toInt16 x = x ↔ FitsInt16 x := by
  unfold toInt16 FitsInt16
  rw [BitVec.toInt_ofInt]
  constructor
  · intro h
    have hlower := @Int.le_bmod x (2 ^ 16) (by decide)
    have hupper := @Int.bmod_lt x (2 ^ 16) (by decide)
    omega
  · rintro ⟨hlower, hupper⟩
    exact Int.bmod_eq_of_le (by omega) (by omega)

/-- Whether the register of a host request reaches its copies: the data of a `MAC` or `AF`
fits into 16 bits, and that of an `EWMUL` is what its host request carries itself. -/
def ConfigReaches (program : List Request) (host : Request) : Prop :=
  match host.opcode with
  | .ISR_MAC_SBK | .ISR_MAC_ABK => FitsInt16 (lastWritten program .BROADCAST)
  | .ISR_EWMUL => lastWritten program .EWMUL_BG = host.ewmulBg
  | .ISR_AF => FitsInt16 (lastWritten program .AFM)
  | _ => True

theorem Configured.carries_iff {program : List Request}
    (h : Configured (lastWritten program) host copy) :
    CarriesConfig program host copy ↔ ConfigReaches program host := by
  unfold CarriesConfig ConfigReaches
  split
  · next hop => rw [h.broadcast (.inl hop), toInt16_eq_iff]
  · next hop => rw [h.broadcast (.inr hop), toInt16_eq_iff]
  · next hop => rw [h.ewmulBg hop, eq_comm]
  · next hop =>
      obtain ⟨hafm, hrow⟩ := h.afm hop
      rw [hafm, hrow, Int.add_right_inj, and_self, toInt16_eq_iff]
  · rfl

/-! ## The registers in every run -/

/-- A copy was decoded from the last host request of a log, with the registers that the
requests before it wrote. -/
def Current (log : List HostEvent) (copy : Request) : Prop :=
  ∃ program host, decodedHosts log = program ++ [host] ∧
    (host.type = .AIM → Configured (lastWritten program) host copy)

def SentCurrent (log : List HostEvent) : Prop :=
  ∀ before channel copy ok after, log = before ++ .copy channel copy ok :: after →
    Current before copy

theorem SentCurrent.concat {log : List HostEvent} {event : HostEvent} (h : SentCurrent log)
    (hcurrent : ∀ channel copy ok, event = .copy channel copy ok → Current log copy) :
    SentCurrent (log ++ [event]) := by
  intro before channel copy ok after heq
  rcases List.eq_nil_or_concat after with rfl | ⟨after', last, rfl⟩
  · obtain ⟨rfl, hevent⟩ := List.append_inj' heq rfl
    exact hcurrent channel copy ok (List.cons.inj hevent).1
  · rw [List.concat_eq_append, ← List.cons_append, ← List.append_assoc] at heq
    obtain ⟨heq, -⟩ := List.append_inj' heq rfl
    exact h _ _ _ _ _ heq

theorem Current.of_decodedHosts {log log' : List HostEvent}
    (hhosts : decodedHosts log' = decodedHosts log) (h : Current log copy) :
    Current log' copy := by
  obtain ⟨program, host, hlog, hconfigured⟩ := h
  exact ⟨program, host, hhosts.trans hlog, hconfigured⟩

namespace System

variable {C : Type} {send : Request → C → Option (Bool × C)} {s t : System C}

/-- The registers hold what the decoded program wrote, and the copies that were sent or
wait carry it. -/
structure Config (s : System C) : Prop where
  registers : s.dma.cfrValues = lastWritten (decodedHosts s.log)
  waiting : ∀ channel, ∀ copy ∈ s.dma.remaining channel, Current s.log copy
  sent : SentCurrent s.log

theorem Config.concat (h : Config s) (event : HostEvent) (hlog : t.log = s.log ++ [event])
    (hregisters : t.dma.cfrValues = s.dma.cfrValues) (hremaining : t.dma.remaining = s.dma.remaining)
    (hdecode : decodedHosts [event] = []) (hcopy : ∀ channel copy ok, event ≠ .copy channel copy ok) :
    Config t := by
  have hhosts : decodedHosts t.log = decodedHosts s.log := by
    rw [hlog, decodedHosts_append, hdecode, List.append_nil]
  refine ⟨?_, ?_, ?_⟩
  · rw [hregisters, hhosts]
    exact h.registers
  · rw [hremaining]
    exact fun channel copy hcopy => (h.waiting channel copy hcopy).of_decodedHosts hhosts
  · rw [hlog]
    exact h.sent.concat fun channel copy ok heq => absurd heq (hcopy channel copy ok)

theorem deliver_config {channel : Nat} {ok : Bool} (h : Config s) (hcurrent : Current s.log copy)
    (hdeliver : s.deliver p send channel copy = some (ok, t)) :
    Config t ∧ decodedHosts t.log = decodedHosts s.log := by
  obtain ⟨-, c, -, rfl⟩ := deliver_eq_some hdeliver
  have hhosts : decodedHosts (s.log ++ [HostEvent.copy channel copy ok]) = decodedHosts s.log := by
    simp [decodedHosts]
  refine ⟨⟨?_, ?_, ?_⟩, hhosts⟩
  · exact h.registers.trans (congrArg lastWritten hhosts.symm)
  · exact fun channel copy hcopy => (h.waiting channel copy hcopy).of_decodedHosts hhosts
  · refine h.sent.concat fun channel copy ok heq => ?_
    obtain ⟨-, rfl, -⟩ := HostEvent.copy.inj heq
    exact hcurrent

theorem retryChannels_config {channels : List Nat} {was isLeft : Bool}
    (hretry : s.retryChannels p send channels = some (was, isLeft, t)) (h : Config s) :
    Config t := by
  refine retryChannels_induct (I := Config) ?_ ?_ hretry h
  · intro u v channel copy queue hI hqueue hdeliver
    have hcurrent := hI.waiting channel copy (hqueue ▸ List.mem_cons_self ..)
    obtain ⟨hv, hhosts⟩ := deliver_config hI hcurrent hdeliver
    obtain ⟨-, c, -, rfl⟩ := deliver_eq_some hdeliver
    refine ⟨hv.registers, fun other copy' hcopy' => ?_, hv.sent⟩
    refine hv.waiting other copy' ?_
    simp only [setRemaining] at hcopy'
    split at hcopy'
    · next hother =>
        subst hother
        show copy' ∈ u.dma.remaining other
        rw [hqueue]
        exact List.mem_cons_of_mem _ hcopy'
    · exact hcopy'
  · intro u v channel copy queue hI hqueue hdeliver
    exact (deliver_config hI (hI.waiting channel copy (hqueue ▸ List.mem_cons_self ..)) hdeliver).1

theorem sendCopies_config {blocking allSent : Bool} {copies : List (Nat × Request)}
    {hosts : List Request} (hsend : s.sendCopies p send blocking copies = some (allSent, t))
    (hcopies : ∀ c ∈ copies, ∀ log aimReqId, decodedHosts log = hosts →
      Current log { c.2 with aimReqId })
    (h : Config s) (hhosts : decodedHosts s.log = hosts) : Config t := by
  refine (sendCopies_induct (I := fun t => Config t ∧ decodedHosts t.log = hosts) ?_ hsend
    ⟨h, hhosts⟩).1
  rintro u v ok channel copy hmem ⟨hI, hhosts⟩ hone
  obtain ⟨w, hdeliver, -, rfl⟩ := sendCopy_eq_some hone
  have hcurrent := fun log => hcopies _ hmem log u.dma.aimReqId
  obtain ⟨hw, hsame⟩ := deliver_config hI (hcurrent _ hhosts) hdeliver
  obtain ⟨-, c, -, rfl⟩ := deliver_eq_some hdeliver
  refine ⟨⟨hw.registers, fun other copy' hcopy' => ?_, hw.sent⟩, hsame.trans hhosts⟩
  dsimp only at hcopy'
  split at hcopy'
  · rcases List.mem_append.mp hcopy' with hcopy' | hcopy'
    · exact hw.waiting channel copy' hcopy'
    · rw [List.mem_singleton.mp hcopy']
      exact hcurrent _ (hsame.trans hhosts)
  · exact hw.waiting other copy' hcopy'

theorem popHead_config {arg : Request → Request} (hpop : s.popHead arg = some t) (h : Config s) :
    Config t := by
  unfold popHead at hpop
  split at hpop
  · cases hpop
  · next host queue hqueue =>
      rw [← Option.some.inj hpop]
      have hcalled : Config { s with log := s.log ++
          (if host.callback = .empty then [] else [.callback host (arg host)]) } := by
        split
        · rw [List.append_nil]
          exact h
        · exact h.concat (.callback host (arg host)) rfl rfl rfl rfl fun _ _ _ => nofun
      exact hcalled.concat (.remove host) rfl rfl rfl rfl fun _ _ _ => nofun

theorem decodeHead_config {host : Request} (h : Config s)
    (hnil : ∀ channel, s.dma.remaining channel = [])
    (hdecode : s.decodeHead p send host = some t) : Config t := by
  obtain ⟨d, hd, hdecode⟩ := Option.bind_eq_some_iff.mp hdecode
  obtain ⟨⟨allSent, u⟩, hsend, hdecode⟩ := Option.bind_eq_some_iff.mp hdecode
  have hhosts : decodedHosts (s.log ++ [HostEvent.decode host]) = decodedHosts s.log ++ [host] := by
    simp [decodedHosts]
  have hu : Config u := by
    refine sendCopies_config hsend (fun c hc log aimReqId hlog => ?_) ⟨?_, ?_, ?_⟩ hhosts
    · refine ⟨_, _, hlog, fun htype => ?_⟩
      have hconfigured := decode_configured htype hd hc
      rw [h.registers] at hconfigured
      exact ⟨hconfigured.broadcast, hconfigured.ewmulBg, hconfigured.afm⟩
    · funext cfr
      rw [hhosts, lastWritten_concat, ← h.registers]
      exact decode_cfrValues hd cfr
    · intro channel copy hcopy
      rw [show s.dma.remaining channel = [] from hnil channel] at hcopy
      cases hcopy
    · exact h.sent.concat fun _ _ _ heq => by cases heq
  dsimp only at hdecode
  split at hdecode
  · exact popHead_config hdecode hu
  · rw [← Option.some.inj hdecode]
    exact hu

theorem tick_config (hbounded : s.Bounded) (h : Config s) (htick : s.tick p send = some t) :
    Config t := by
  obtain ⟨u, v, ⟨was, isLeft, hretry⟩, rfl, hcases⟩ := tick_cases hbounded htick
  suffices hv : Config v from ⟨hv.registers, hv.waiting, hv.sent⟩
  have hu := retryChannels_config hretry h
  rcases hcases with ⟨rfl, -⟩ | ⟨-, -, hpop⟩ | ⟨hidle, rfl, host, queue, -, hv⟩
  · exact hu
  · exact popHead_config hpop hu
  · exact decodeHead_config hu ((waiting_eq_nil hbounded).mp hidle.2) hv

theorem receive_config (h : Config s) (hreceive : s.receive copy = some t) : Config t := by
  unfold receive at hreceive
  split at hreceive
  · cases hreceive
  · split at hreceive
    · cases hreceive
    · dsimp only at hreceive
      split at hreceive
      · exact popHead_config hreceive ⟨h.registers, h.waiting, h.sent⟩
      · rw [← Option.some.inj hreceive]
        exact ⟨h.registers, h.waiting, h.sent⟩

theorem run_config {ctls : Nat → C} (hr : Run p send ctls s) : Config s := by
  refine hr.invariant_with (fun _ => run_retiring) ?_ ?_
  · rintro s rfl
    exact ⟨rfl, fun _ _ hcopy => (List.not_mem_nil hcopy).elim, fun _ _ _ _ _ heq => by simp at heq⟩
  · intro s op t hretiring _ h _ hstep
    cases op with
    | send req =>
        obtain ⟨⟨ok, t⟩, hsend, rfl⟩ := Option.map_eq_some_iff.mp hstep
        obtain ⟨u, full, rw, aim, rfl | rfl, rfl⟩ := send_cases hsend
        · exact ⟨h.registers, h.waiting, h.sent⟩
        · exact h.concat (.enqueue req) rfl rfl rfl rfl fun _ _ _ => nofun
    | tick =>
        obtain ⟨b, hdelivering⟩ := hretiring.delivering
        exact tick_config hdelivering.bounded h hstep
    | receive i =>
        obtain ⟨copy, hi, hreceive⟩ := Option.bind_eq_some_iff.mp hstep
        have hrest : Config { s with inFlight := s.inFlight.eraseIdx i } :=
          ⟨h.registers, h.waiting, h.sent⟩
        exact receive_config hrest hreceive
    | controllers ctls =>
        rw [← Option.some.inj hstep]
        exact ⟨h.registers, h.waiting, h.sent⟩

theorem decodedHosts_isPrefix (h : Retiring s) : decodedHosts s.log <+: enqueued s.log := by
  obtain ⟨done, henqueued, hphases⟩ := h.history
  have hdecoded : ∀ log, decodedHosts log = (phases log).filterMap fun
      | .decoded host => some host
      | _ => none := by
    intro log
    rw [phases, List.filterMap_filterMap]
    refine List.filterMap_congr fun event _ => ?_
    cases event <;> rfl
  have hlife : ∀ done : List Request, (done.flatMap life).filterMap (fun
      | .decoded host => some host
      | _ => none) = done := by
    intro done
    induction done with
    | nil => rfl
    | cons host done ih =>
        rw [List.flatMap_cons, List.filterMap_append, ih, life]
        split <;> rfl
  have hopened : (s.opened.map Phase.decoded).filterMap (fun
      | .decoded host => some host
      | _ => none) = s.opened := by
    rw [List.filterMap_map]
    exact List.filterMap_some
  rw [hdecoded, hphases, List.filterMap_append, hlife, hopened, henqueued, opened]
  refine List.prefix_append_right_inj _ |>.mpr ?_
  split
  · exact List.nil_prefix
  · exact List.take_prefix 1 _

/-- In every run, a copy that is sent belongs to a host request of the program, and carries
what the program before it wrote last exactly when its register reaches the copies. -/
theorem config_registers_iff {ctls : Nat → C} (hr : Run p send ctls s)
    {before after : List HostEvent} {channel : Nat} {ok : Bool}
    (hlog : s.log = before ++ .copy channel copy ok :: after) :
    ∃ program host, program ++ [host] <+: enqueued s.log ∧
      decodedHosts before = program ++ [host] ∧
        (host.type = .AIM →
          (CarriesConfig program host copy ↔ ConfigReaches program host)) := by
  obtain ⟨program, host, hhosts, hconfigured⟩ := (run_config hr).sent _ _ _ _ _ hlog
  refine ⟨program, host, ?_, hhosts, fun htype => (hconfigured htype).carries_iff⟩
  refine List.IsPrefix.trans ?_ (decodedHosts_isPrefix (run_retiring hr))
  rw [← hhosts, hlog, decodedHosts_append]
  exact List.prefix_append _ _

/-- The copies that a log reports, with their channels and whether these accepted them. -/
def copiesOf (log : List HostEvent) : List (Nat × Request × Bool) :=
  log.filterMap fun
    | .copy channel copy ok => some (channel, copy, ok)
    | _ => none

theorem mem_copiesOf {log : List HostEvent} {channel : Nat} {copy : Request} {ok : Bool} :
    (channel, copy, ok) ∈ copiesOf log ↔ .copy channel copy ok ∈ log := by
  rw [copiesOf, List.mem_filterMap]
  constructor
  · rintro ⟨event, hevent, heq⟩
    cases event <;> simp only [reduceCtorEq, Option.some.injEq, Prod.mk.injEq] at heq
    obtain ⟨rfl, rfl, rfl⟩ := heq
    exact hevent
  · exact fun h => ⟨_, h, rfl⟩

/-- A `W CFR 0` is carried by the `MAC_SBK` after it, which the channel refuses once. -/
theorem config_registers_mac :
    ∃ (s : System (List Bool)) (before after : List HostEvent) (copy : Request),
      s.log = before ++ .copy 31 copy false :: after ∧ copy.broadcast = 1 ∧
        ∃ program host, program ++ [host] <+: enqueued s.log ∧
          decodedHosts before = program ++ [host] ∧
            (host.type = .AIM →
              (CarriesConfig program host copy ↔ ConfigReaches program host)) := by
  have hrun : ((Runs.replay (step gddr6System scripted) (fun _ op => decide (HostCallback op))
      { controllers := fun channel => if channel = 31 then [false] else [] }
      [.send { type := .Write, memAccessRegion := .CFR, addr := 0, data := 1 },
        .send { type := .AIM, opcode := .ISR_MAC_SBK, channelMask := 1, bankIndex := 0 },
        .tick, .tick, .tick]).any fun s =>
            (copiesOf s.log).any fun c =>
              decide (c.1 = 31 ∧ c.2.2 = false ∧ c.2.1.broadcast = 1)) = true := by
    decide +kernel
  obtain ⟨s, hs, htest⟩ := Option.any_eq_true .. |>.mp hrun
  obtain ⟨⟨_, copy, _⟩, hcopy, htest⟩ := List.any_eq_true.mp htest
  obtain ⟨rfl, rfl, hbroadcast⟩ := of_decide_eq_true htest
  obtain ⟨before, after, hlog⟩ := List.append_of_mem (mem_copiesOf.mp hcopy)
  exact ⟨s, before, after, copy, hlog, hbroadcast, config_registers_iff (replay_run hs) hlog⟩

/-- The copy of an `EWMUL` without any `W CFR 1` carries `-1`, and the register holds `1`. -/
theorem ewmul_drops_register :
    ∃ (s : System (List Bool)) (before after : List HostEvent) (host copy : Request),
      Run gddr6System scripted (fun _ => []) s ∧ s.log = before ++ .copy 31 copy true :: after ∧
        decodedHosts before = [host] ∧ host.opcode = .ISR_EWMUL ∧
          copy.ewmulBg = -1 ∧ lastWritten [] .EWMUL_BG = 1 ∧ ¬ CarriesConfig [] host copy := by
  have hrun : ((Runs.replay (step gddr6System scripted) (fun _ op => decide (HostCallback op))
      { controllers := fun _ => [] }
      [.send { type := .AIM, opcode := .ISR_EWMUL, opsize := 1, channelMask := 1, rowAddr := 0 },
        .tick]).any fun s =>
          decide ((decodedHosts s.log).map (·.opcode) = [.ISR_EWMUL]) &&
            (copiesOf s.log).any fun c =>
              decide (c.1 = 31 ∧ c.2.2 = true ∧ c.2.1.ewmulBg = -1)) = true := by
    decide +kernel
  obtain ⟨s, hs, htest⟩ := Option.any_eq_true .. |>.mp hrun
  obtain ⟨hops, htest⟩ := Bool.and_eq_true_iff.mp htest
  obtain ⟨⟨_, copy, _⟩, hcopy, htest⟩ := List.any_eq_true.mp htest
  obtain ⟨rfl, rfl, hbg⟩ := of_decide_eq_true htest
  obtain ⟨before, after, hlog⟩ := List.append_of_mem (mem_copiesOf.mp hcopy)
  obtain ⟨program, host, hhosts, -⟩ := (run_config (replay_run hs)).sent _ _ _ _ _ hlog
  -- the log decodes one host request, which is then the one of the copy
  obtain ⟨rfl, hop⟩ : program = [] ∧ host.opcode = .ISR_EWMUL := by
    have hops := of_decide_eq_true hops
    rw [hlog, decodedHosts_append, hhosts] at hops
    cases program with
    | nil => exact ⟨rfl, (List.cons.inj hops).1⟩
    | cons r program =>
        obtain ⟨-, htail⟩ := List.cons.inj hops
        simp at htail
  refine ⟨s, before, after, host, copy, replay_run hs, hlog, hhosts, hop, hbg, rfl, ?_⟩
  rw [CarriesConfig, hop]
  dsimp only
  rw [hbg]
  decide

end System

end AimSimulator.Dma
