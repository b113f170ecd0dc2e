import AimSimulator.Analysis.TraceReplay
import AimSimulator.Frontend.AiMTrace
/-!
# Forwarded reads

`AiMDRAMController::send` forwards a read when the write buffer holds a request of the same
`addr`.  The DMA fills `addr_vec` only, and no request of a trace that reaches a controller has
an `addr` of its own: each read is forwarded as soon as any write waits.
-/

namespace AimSimulator.Analysis

open Dram Controller Frontend

def SentRead.HoldsLocation (e : SentRead) : Prop :=
  ∃ w ∈ e.writes, w.type = .Write ∧ w.addrVec = e.req.addrVec

instance (e : SentRead) : Decidable e.HoldsLocation :=
  inferInstanceAs (Decidable (∃ w ∈ e.writes, w.type = .Write ∧ w.addrVec = e.req.addrVec))

def FromTrace (req : Request) : Prop :=
  ∃ t t' : AiMTrace, t.getHostRequest = some (req, t')

namespace Simulation

def Op.OfTrace : Op → Prop
  | .host req => FromTrace req
  | .tick | .receive _ => True

abbrev TraceRun {Dev Cmd : Type} [DecidableEq Cmd] (iface : IDRAM Dev Cmd)
    (commandName : Cmd → String) (p : Dma.SystemParams) (params : Params) (dev₀ : Dev) :
    Simulation Dev Cmd → Prop :=
  Runs.Reachable (fun s => s = init iface dev₀)
    (fun s op t => s.step iface commandName p params op = some t) fun _ op => op.OfTrace

end Simulation

section

variable {Dev Cmd : Type} [DecidableEq Cmd] {iface : IDRAM Dev Cmd} {commandName : Cmd → String}
  {p : Dma.SystemParams} {params : Params} {c c' : AiMDRAMController Cmd} {req : Request}
  {ok : Bool} {events : List (Event Cmd)}

omit [DecidableEq Cmd] in
theorem forwards_enqueueTo (c : AiMDRAMController Cmd) (id : BufferId) (q : Queued Cmd) :
    forwards (c.enqueueTo id q).2.2 = false := by
  unfold AiMDRAMController.enqueueTo
  split <;> rfl

omit [DecidableEq Cmd] in
theorem forwards_iff (htype : req.type = .Read) (haddr : req.addr = -1)
    (hwrites : ∀ w ∈ c.writeBuffer.buffer, w.req.addr = -1)
    (h : c.send iface req = some (ok, c', events)) :
    forwards events = true ↔ c.aimBuffer.buffer = [] ∧ c.writeBuffer.buffer ≠ [] := by
  unfold AiMDRAMController.send at h
  rw [if_neg (by rw [htype]; decide)] at h
  split at h
  · next hbusy =>
      obtain ⟨-, -, rfl⟩ : false = ok ∧ c = c' ∧ [] = events := by
        simpa only [Option.some.injEq, Prod.mk.injEq] using h
      refine iff_of_false Bool.false_ne_true fun hidle => hbusy ?_
      rw [ReqBuffer.size, hidle.1, List.length_nil]
  · next hbusy =>
      have hidle : c.aimBuffer.buffer = [] :=
        List.eq_nil_of_length_eq_zero (Classical.not_not.mp hbusy)
      obtain ⟨final, -, h⟩ := Option.bind_eq_some_iff.mp h
      rw [htype] at h
      dsimp only at h
      split at h
      · next hmatch =>
          obtain ⟨-, -, rfl⟩ := by
            simpa only [Option.some.injEq, Prod.mk.injEq] using h
          obtain ⟨w, hw, -⟩ := List.any_eq_true.mp hmatch
          exact iff_of_true rfl ⟨hidle, List.ne_nil_of_mem hw⟩
      · next hmatch =>
          have hevents := congrArg (fun r => forwards r.2.2) (Option.some.inj h)
          dsimp only at hevents
          rw [forwards_enqueueTo] at hevents
          refine iff_of_false (by rw [← hevents]; exact Bool.false_ne_true) fun hwaits => ?_
          obtain ⟨w, hw⟩ := List.exists_mem_of_ne_nil _ hwaits.2
          refine hmatch (List.any_eq_true.mpr ⟨w, hw, decide_eq_true ?_⟩)
          rw [hwrites w hw, haddr]

/-- What holds of a controller whose requests have no address: every read it was sent was
forwarded exactly where a write waited. -/
structure ForwardsAll (t : Traced Cmd) : Prop where
  addrs : ∀ q ∈ t.ctl.outstanding, q.req.addr = -1
  reads : ∀ e ∈ t.reads, e.forwarded = true ↔ e.aimIdle = true ∧ e.writes ≠ []

namespace ForwardsAll

variable {t t' : Traced Cmd}

omit [DecidableEq Cmd] in
theorem send (haddr : req.addr = -1) (ht : ForwardsAll t)
    (h : t.send iface req = some (ok, t')) : ForwardsAll t' := by
  obtain ⟨⟨ok, ctl, events⟩, hsent, heq⟩ := Option.map_eq_some_iff.mp h
  obtain ⟨-, rfl⟩ := Prod.mk.inj heq
  refine ⟨AiMDRAMController.send_requests (P := fun req => req.addr = -1) haddr hsent ht.addrs,
    List.forall_mem_append.mpr ⟨ht.reads, fun e he => ?_⟩⟩
  unfold sentReads at he
  split at he
  · next htype =>
      obtain rfl := List.mem_singleton.mp he
      have hwrites : ∀ w ∈ t.ctl.writeBuffer.buffer, w.req.addr = -1 := fun w hw =>
        ht.addrs w (Queues.mem_outstanding.mpr (.inr (.inr ⟨.write, hw⟩)))
      have hiff := forwards_iff htype haddr hwrites hsent
      dsimp only
      rw [hiff, List.isEmpty_iff, Ne, Ne, List.map_eq_nil_iff]
  · cases he

theorem tick {channel : Nat} {dev dev' : Dev} (ht : ForwardsAll t)
    (h : t.tick iface commandName params channel dev = some (t', dev')) : ForwardsAll t' := by
  obtain ⟨⟨ctl, dev'', events⟩, hticked, heq⟩ := Option.map_eq_some_iff.mp h
  obtain ⟨rfl, -⟩ := Prod.mk.inj heq
  exact ⟨AiMDRAMController.tick_requests (P := fun req => req.addr = -1) (fun _ _ _ => rfl)
    hticked ht.addrs, ht.reads⟩

theorem run {dev₀ : Dev} {s : Simulation Dev Cmd}
    (hr : Simulation.TraceRun iface commandName p params dev₀ s) (channel : Nat) :
    ForwardsAll (s.sys.controllers channel) := by
  have hdelivers := Simulation.run_delivers (G := fun _ t => ForwardsAll t)
    (H := fun host => host.type = .AIM ∨ host.memAccessRegion = .MEM → host.addr = -1)
    (Q := fun _ copy => copy.addr = -1)
    (fun channel => ⟨fun q hq => (List.not_mem_nil hq).elim,
      fun e he => (List.not_mem_nil he).elim⟩)
    (fun s req ⟨t, t', hreq⟩ hmem => AiMTrace.getHostRequest_addr hreq hmem)
    (fun cfrValues host d hhost hd c hc id => by
      obtain ⟨hmem, haddr⟩ := Dma.decode_addr hd hc
      exact haddr.trans (hhost hmem))
    (fun channel req ok t t' hreq ht hsend => ht.send hreq hsend)
    (fun channel t t' dev dev' ht htick => ht.tick htick) hr
  exact hdelivers.controllers channel

end ForwardsAll

end

/-- In every run of a trace, every forwarded read finds a write to its own location exactly
where every read that reaches a controller without AiM requests finds the write buffer empty
or with such a write. -/
theorem forwarding_sound_iff {Dev Cmd : Type} [DecidableEq Cmd] (iface : IDRAM Dev Cmd)
    (commandName : Cmd → String) (p : Dma.SystemParams) (params : Params) (dev₀ : Dev)
    (s : Simulation Dev Cmd) (hr : Simulation.TraceRun iface commandName p params dev₀ s) :
    (∀ channel, ∀ e ∈ (s.sys.controllers channel).reads, e.forwarded = true →
      e.HoldsLocation) ↔
    ∀ channel, ∀ e ∈ (s.sys.controllers channel).reads, e.aimIdle = true →
      e.writes = [] ∨ e.HoldsLocation := by
  have hall := ForwardsAll.run hr
  refine ⟨fun hsound channel e he hidle => ?_, fun hwaits channel e he hforwarded => ?_⟩
  · by_cases hnil : e.writes = []
    · exact .inl hnil
    · exact .inr (hsound channel e he (((hall channel).reads e he).mpr ⟨hidle, hnil⟩))
  · obtain ⟨hidle, hne⟩ := ((hall channel).reads e he).mp hforwarded
    exact (hwaits channel e he hidle).resolve_left hne

def gddr6TraceReplay (lines : List TraceLine) :
    Option (Simulation Dram.GDDR6.aimModel.Dev Dram.GDDR6.Cmd) :=
  gddr6Replay ((AiMTrace.hostRequests lines.length { lines }).map .host ++
    List.replicate 3 .tick)

theorem gddr6TraceReplay_run {lines : List TraceLine}
    {s : Simulation Dram.GDDR6.aimModel.Dev Dram.GDDR6.Cmd}
    (h : gddr6TraceReplay lines = some s) :
    Simulation.TraceRun Dram.GDDR6.aimModel.idram GDDR6.commandName
      (GDDR6.systemParams gddr6Count) { channelId := 0 }
      (Dram.GDDR6.aimModel.createNodes gddr6Count) s := by
  refine Runs.replay_reachable_of_mem (fun op hop _ _ => ?_) (.start rfl) h
  rcases List.mem_append.mp hop with hop | hop
  · obtain ⟨req, hreq, rfl⟩ := List.mem_map.mp hop
    exact AiMTrace.mem_hostRequests hreq
  · obtain rfl := List.eq_of_mem_replicate hop
    trivial

/-- A read of the bank and row that a waiting write goes to. -/
theorem forwarding_sound_iff_sameRow : ∃ s,
    Simulation.TraceRun Dram.GDDR6.aimModel.idram GDDR6.commandName
      (GDDR6.systemParams gddr6Count) { channelId := 0 }
      (Dram.GDDR6.aimModel.createNodes gddr6Count) s ∧
    ((s.sys.controllers 0).reads.map (·.forwarded)) = [true] ∧
    ((∀ channel, ∀ e ∈ (s.sys.controllers channel).reads, e.forwarded = true →
      e.HoldsLocation) ↔
    ∀ channel, ∀ e ∈ (s.sys.controllers channel).reads, e.aimIdle = true →
      e.writes = [] ∨ e.HoldsLocation) := by
  have hrun : ((gddr6TraceReplay
      [.access .Write .MEM [0, 0, 5], .access .Write .MEM [0, 1, 6],
        .access .Read .MEM [0, 1, 6]]).any fun s =>
      ((s.sys.controllers 0).reads.map (·.forwarded)) = [true]) = true := by
    decide +kernel
  obtain ⟨s, hs, htest⟩ := Option.any_eq_true .. |>.mp hrun
  exact ⟨s, gddr6TraceReplay_run hs, of_decide_eq_true htest,
    forwarding_sound_iff _ _ _ _ _ s (gddr6TraceReplay_run hs)⟩

/-- A read of bank 2 is forwarded from a write that waits for bank 1. -/
theorem read_forwarded_from_other_bank : ∃ s,
    Simulation.TraceRun Dram.GDDR6.aimModel.idram GDDR6.commandName
      (GDDR6.systemParams gddr6Count) { channelId := 0 }
      (Dram.GDDR6.aimModel.createNodes gddr6Count) s ∧
    ∃ e ∈ (s.sys.controllers 0).reads, e.forwarded = true ∧ ¬ e.HoldsLocation := by
  have hrun : ((gddr6TraceReplay
      [.access .Write .MEM [0, 0, 5], .access .Write .MEM [0, 1, 6],
        .access .Read .MEM [0, 2, 7]]).any fun s =>
      (s.sys.controllers 0).reads.any fun e => e.forwarded ∧ ¬ e.HoldsLocation) = true := by
    decide +kernel
  obtain ⟨s, hs, htest⟩ := Option.any_eq_true .. |>.mp hrun
  obtain ⟨e, he, htest⟩ := List.any_eq_true.mp htest
  exact ⟨s, gddr6TraceReplay_run hs, e, he, of_decide_eq_true htest⟩

end AimSimulator.Analysis
