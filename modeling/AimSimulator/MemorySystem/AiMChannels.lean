import AimSimulator.Controller.Locality
import AimSimulator.Dma.Decode
import AimSimulator.Dram.GDDR6
import AimSimulator.MemorySystem.AiMMemorySystem
/-!
# The channels of the AiM memory system

The DMA sends each copy to the controller that its device address names, and the barriers,
which issue no command, to all of them.  So the controllers share the device without touching
each other's channel, and each does what it would do alone.
-/

namespace AimSimulator.MemorySystem

open Dram Controller

variable {Dev Cmd : Type} [DecidableEq Cmd] {iface : IDRAM Dev Cmd} {p : AiMParams}
  {agree : Int → Dev → Dev → Prop} {dram₀ dram : Dev}

def OwnCall (k : Nat) : Controller.Op → Prop
  | .send req => Dma.ForChannel k req
  | .prioritySend req => req.addrVec.at 0 = k
  | .tick => True

/-- A controller of a memory system against one with a device of its own under some calls. -/
structure Alone (iface : IDRAM Dev Cmd) (p : AiMParams) (agree : Int → Dev → Dev → Prop)
    (dram₀ dram : Dev) (k : Nat) (calls : List Controller.Op) (c : Logged Cmd) : Prop where
  channel : AiMDRAMController.Local k c.ctl.toQueues
  own : ∀ call ∈ calls, OwnCall k call
  alone : ∃ t : Chan Dev Cmd,
    Runs.exec (Chan.step iface (p.forChannel k)) (Chan.init iface dram₀) calls = some t ∧
      t.ctl = c.ctl ∧ t.log = c.log ∧ agree k dram t.dev

namespace Alone

variable {k : Nat} {calls : List Controller.Op} {c c' : Logged Cmd}

omit [DecidableEq Cmd] in
theorem init [DecidableEq Cmd] (hrefl : ∀ i dev, agree i dev dev) (k : Nat) :
    Alone iface p agree dram₀ dram₀ k [] { ctl := AiMDRAMController.init iface } := by
  refine ⟨fun id q hq => ?_, fun _ hcall => absurd hcall List.not_mem_nil, Chan.init iface dram₀,
    rfl, rfl, rfl, hrefl _ _⟩
  cases id <;> cases hq

theorem send (h : Alone iface p agree dram₀ dram k calls c) {req : Request} {ok : Bool}
    (hreq : Dma.ForChannel k req) (hsend : c.send iface req = some (ok, c')) :
    Alone iface p agree dram₀ dram k (calls ++ [.send req]) c' := by
  obtain ⟨⟨ok', ctl, events⟩, hctl, heq⟩ := Option.map_eq_some_iff.mp hsend
  obtain ⟨-, rfl⟩ := Prod.mk.inj heq
  obtain ⟨t, ht, htctl, htlog, hagree⟩ := h.alone
  refine ⟨?_, Runs.forall_concat h.own hreq, { t with ctl, log := t.log ++ events }, ?_, rfl,
    by rw [htlog], hagree⟩
  · have hadmits : ∀ id, c.ctl.Gate req id → id ≠ .priority →
        AiMDRAMController.OfChannel (k : Int) id req := by
      intro id hgate hid
      rcases hreq with haddr | ⟨haim, hbarrier⟩
      · exact .inl haddr
      · cases hgate with
        | priority => exact absurd rfl hid
        | aim => exact .inr ⟨rfl, hbarrier⟩
        | read htype => rw [haim] at htype; cases htype
        | write htype => rw [haim] at htype; cases htype
    rcases @AiMDRAMController.send_step _ _ iface
      (fun _ => AiMDRAMController.OfChannel (k : Int)) _ _ _ _ _ hadmits hctl with
      ⟨rfl, -⟩ | hstep
    · exact h.channel
    · exact h.channel.queueStep hstep
  · refine Runs.exec_concat ht ?_
    rw [Chan.step, htctl, hctl]
    rfl

theorem prioritySend (h : Alone iface p agree dram₀ dram k calls c) {req : Request}
    (hreq : req.addrVec.at 0 = k) (hsend : c.prioritySend iface req = some c') :
    Alone iface p agree dram₀ dram k (calls ++ [.prioritySend req]) c' := by
  obtain ⟨⟨ok, ctl, events⟩, hctl, rfl⟩ := Option.map_eq_some_iff.mp hsend
  obtain ⟨t, ht, htctl, htlog, hagree⟩ := h.alone
  refine ⟨?_, Runs.forall_concat h.own hreq, { t with ctl, log := t.log ++ events }, ?_, rfl,
    by rw [htlog], hagree⟩
  · rcases @AiMDRAMController.prioritySend_step _ _ iface
      (fun _ => AiMDRAMController.OfChannel (k : Int)) _ _ _ _ _ (.inl hreq) hctl with
      ⟨rfl, -⟩ | hstep
    · exact h.channel
    · exact h.channel.queueStep hstep
  · refine Runs.exec_concat ht ?_
    rw [Chan.step, htctl, hctl]
    rfl

end Alone

/-! ## One turn -/

section Turn

variable {dev dev' e : Dev} {events : List (Event Cmd)}

theorem Logged.turn_cases {k : Nat} {c c' : Logged Cmd}
    (h : Logged.turn iface p k c dev = some (c', dev', events)) :
    c.ctl.tick iface (p.forChannel k) dev = some (c'.ctl, dev', events) ∧
      c'.log = c.log ++ events := by
  obtain ⟨⟨ctl, dev₁, events₁⟩, htick, heq⟩ := Option.map_eq_some_iff.mp h
  simp only [Prod.mk.injEq] at heq
  obtain ⟨rfl, rfl, rfl⟩ := heq
  exact ⟨htick, rfl⟩

variable (hparts : iface.Parts agree) (hlevels : 0 < iface.numLevels)

include hparts hlevels

theorem Logged.turn_own (k : Nat) (c : Logged Cmd) (dev e : Dev) (c' : Logged Cmd) (dev' : Dev)
    (events : List (Event Cmd)) (hlocal : AiMDRAMController.Local k c.ctl.toQueues)
    (hagree : agree k dev e) (h : Logged.turn iface p k c dev = some (c', dev', events)) :
    ∃ e', Logged.turn iface p k c e = some (c', e', events) ∧ agree k dev' e' := by
  obtain ⟨htick, hlog⟩ := Logged.turn_cases h
  have hchannel := AiMDRAMController.refreshRequest_ofChannel hlevels (p.forChannel k)
  obtain ⟨e', htick', hagree'⟩ := AiMDRAMController.tick_own hparts hagree (Int.natCast_nonneg k)
    hchannel hlocal htick
  refine ⟨e', ?_, hagree'⟩
  unfold Logged.turn
  rw [htick', Option.map_some]
  dsimp only
  rw [← hlog]

theorem Logged.turn_other (k i : Nat) (c : Logged Cmd) (dev e : Dev) (c' : Logged Cmd) (dev' : Dev)
    (events : List (Event Cmd)) (hne : k ≠ i)
    (hlocal : AiMDRAMController.Local k c.ctl.toQueues) (hagree : agree i dev e)
    (h : Logged.turn iface p k c dev = some (c', dev', events)) : agree i dev' e :=
  AiMDRAMController.tick_other hparts (show (k : Int) ≠ i by omega) hagree
    (AiMDRAMController.refreshRequest_ofChannel hlevels (p.forChannel k)) hlocal
    (Logged.turn_cases h).1

theorem Alone.cycle {numControllers : Nat} {controllers : Nat → Logged Cmd}
    {controllers' : List (Logged Cmd)} {turns : List (List (Event Cmd))}
    {calls : Nat → List Controller.Op}
    (hs : ∀ k, k < numControllers → Alone iface p agree dram₀ dram k (calls k) (controllers k))
    (h : Sweep.sweep (Logged.turn iface p) 0 ((List.range numControllers).map controllers)
      (iface.tick dram) = some (controllers', dev', turns))
    {k : Nat} (hk : k < numControllers) (c : Logged Cmd) :
    Alone iface p agree dram₀ dev' k (calls k ++ [.tick]) (controllers'.getD k c) := by
  have hget : ((List.range numControllers).map controllers)[k]? = some (controllers k) := by
    rw [List.getElem?_map, List.getElem?_range hk, Option.map_some]
  have hlocal : ∀ j c, ((List.range numControllers).map controllers)[j]? = some c →
      AiMDRAMController.Local ((0 + j : Nat) : Int) c.ctl.toQueues := by
    intro j c hj
    rw [List.getElem?_map, Option.map_eq_some_iff] at hj
    obtain ⟨j', hj', rfl⟩ := hj
    obtain ⟨hlt, hj'⟩ := List.getElem?_eq_some_iff.mp hj'
    rw [List.getElem_range] at hj'
    rw [List.length_range] at hlt
    rw [Nat.zero_add, ← hj']
    exact (hs j hlt).channel
  obtain ⟨t, ht, htctl, htlog, hagree⟩ := (hs k hk).alone
  obtain ⟨c', e', events, hturn, hget', -, hagree'⟩ :=
    Sweep.sweep_project (Logged.turn_own hparts hlevels) (Logged.turn_other hparts hlevels) hlocal h
      hget (by rw [Nat.zero_add]; exact hparts.tick hagree)
  rw [Nat.zero_add] at hturn hagree'
  obtain ⟨htick, hlog⟩ := Logged.turn_cases hturn
  rw [List.getD_eq_getElem?_getD, hget', Option.getD_some]
  have hchannel := AiMDRAMController.refreshRequest_ofChannel hlevels (p.forChannel k)
  refine ⟨AiMDRAMController.tick_local hchannel (hs k hk).channel htick,
    Runs.forall_concat (hs k hk).own trivial, ⟨c'.ctl, e', t.log ++ events⟩, ?_, rfl,
    by rw [hlog, htlog], hagree'⟩
  refine Runs.exec_concat ht ?_
  rw [Chan.step, htctl, htick]
  rfl

end Turn

/-! ## Runs -/

namespace AiMMemorySystem

variable {s t : AiMMemorySystem Dev Cmd} {op : Op}

theorem callbacks_induct {C : Type} {I : Dma.System C → Prop} {copies : List Request}
    (hfire : ∀ host host' copy, copy ∈ copies → I host → fire host copy = some host' → I host') :
    ∀ {host host' : Dma.System C}, copies.foldlM fire host = some host' → I host → I host' := by
  induction copies with
  | nil =>
      intro host host' h hI
      rw [← Option.some.inj h]
      exact hI
  | cons copy copies ih =>
      intro host host' h hI
      rw [List.foldlM_cons] at h
      obtain ⟨host₁, hfirst, h⟩ := Option.bind_eq_some_iff.mp h
      exact ih (fun host host' c hc => hfire host host' c (List.mem_cons_of_mem _ hc)) h
        (hfire _ _ _ List.mem_cons_self hI hfirst)

theorem fire_delivers {C : Type} {H : Request → Prop} {Q : Nat → Request → Prop} {G : Nat → C → Prop}
    {clk : Int} {host host' : Dma.System C} {copy : Request} (h : host.Delivers H Q G clk)
    (hfire : fire host copy = some host') : host'.Delivers H Q G clk := by
  have hfreed := h.congr (t := { host with inFlight := host.inFlight.erase copy }) rfl rfl rfl rfl
  exact hfreed.receive hfire

theorem callbacks_frame {C : Type} {copies : List Request} {host host' : Dma.System C}
    (h : copies.foldlM fire host = some host') : host'.controllers = host.controllers ∧
      ∀ k, Dma.System.offeredTo k host'.log = Dma.System.offeredTo k host.log :=
  callbacks_induct (I := fun u => u.controllers = host.controllers ∧
      ∀ k, Dma.System.offeredTo k u.log = Dma.System.offeredTo k host.log)
    (fun _ _ _ _ hu hfire => ⟨(Dma.System.receive_frame hfire).2.1.trans hu.1,
      fun k => ((Dma.System.receive_frame hfire).2.2 k).trans (hu.2 k)⟩) h ⟨rfl, fun _ => rfl⟩

/-- What a tick does: the DMA ticks, and in a cycle of the controllers these take their turns and
then call back. -/
theorem tick_stages (h : s.tick iface p = some t) :
    ∃ host, s.host.tick p.system (Logged.send iface) = some host ∧
      (t = { s with host } ∨ ∃ controllers dram turns host',
        Sweep.sweep (Logged.turn iface p) 0
          ((List.range p.system.numControllers).map host.controllers) (iface.tick s.dram) =
            some (controllers, dram, turns) ∧
        (callbacks turns).foldlM fire
          { host with controllers := fun k => controllers.getD k (host.controllers k) } =
            some host' ∧
        t = { host := host', dram, cycle := s.cycle + 1,
              issues := issuesOfCycle (s.cycle + 1) turns ++ s.issues }) := by
  obtain ⟨host, hhost, h⟩ := Option.bind_eq_some_iff.mp h
  refine ⟨host, hhost, ?_⟩
  split at h
  · cases h
  · split at h
    · right
      obtain ⟨⟨controllers, dram, turns⟩, hsweep, h⟩ := Option.bind_eq_some_iff.mp h
      obtain ⟨host', hcalls, rfl⟩ := Option.map_eq_some_iff.mp h
      exact ⟨controllers, dram, turns, host', hsweep, hcalls, rfl⟩
    · exact .inl (Option.some.inj h).symm

/-- The calls of the controller of a channel in a step: the request of its plugin, or the copies
that the DMA offers it and, in a cycle of the controllers, its tick. -/
def callsOf (k : Nat) (s : AiMMemorySystem Dev Cmd) :
    Op → AiMMemorySystem Dev Cmd → List Controller.Op
  | .host _, _ => []
  | .plugin channel req, _ => if k = channel then [.prioritySend req] else []
  | .tick, t =>
      ((Dma.System.offeredTo k t.host.log).drop
          (Dma.System.offeredTo k s.host.log).length).map .send ++
        if s.cycle < t.cycle then [.tick] else []

/-- Every controller does what one alone does under its calls, and a copy waits for the controller
that it is for. -/
structure Separate (iface : IDRAM Dev Cmd) (p : AiMParams) (agree : Int → Dev → Dev → Prop)
    (dram₀ : Dev) (calls : Nat → List Controller.Op) (s : AiMMemorySystem Dev Cmd) : Prop where
  delivers : s.host.Delivers (fun _ => True) Dma.ForChannel (fun _ _ => True) s.host.dma.clk
  controllers : ∀ k, k < p.system.numControllers →
    Alone iface p agree dram₀ s.dram k (calls k) (s.host.controllers k)

/-- A tick of the DMA: the calls of a controller are the copies that it is offered. -/
theorem Separate.tickHost {calls : Nat → List Controller.Op} {host : Dma.System (Logged Cmd)}
    (hs : s.Separate iface p agree dram₀ calls)
    (h : s.host.tick p.system (Logged.send iface) = some host) {k : Nat}
    (hk : k < p.system.numControllers) :
    ∃ copies, Dma.System.offeredTo k host.log = Dma.System.offeredTo k s.host.log ++ copies ∧
      Alone iface p agree dram₀ s.dram k (calls k ++ copies.map .send) (host.controllers k) := by
  refine hs.delivers.tick_with (J := fun host => ∃ copies,
    Dma.System.offeredTo k host.log = Dma.System.offeredTo k s.host.log ++ copies ∧
      Alone iface p agree dram₀ s.dram k (calls k ++ copies.map .send) (host.controllers k))
    (fun _ _ _ _ _ _ _ _ => trivial) ?_ ?_ (fun _ _ d _ hd c hc _ => Dma.decode_forChannel hd hc)
    ⟨[], (List.append_nil _).symm, ?_⟩ h
  · rintro u v hcontrollers - hoffered ⟨copies, hlog, halone⟩
    exact ⟨copies, (hoffered k).trans hlog, hcontrollers ▸ halone⟩
  · rintro u v channel copy ok - hcopy ⟨copies, hlog, halone⟩ hdeliver
    obtain ⟨-, c, hsent, rfl⟩ := Dma.System.deliver_eq_some hdeliver
    dsimp only
    rw [Dma.System.offeredTo_copy]
    by_cases hchannel : channel = k
    · subst hchannel
      refine ⟨copies ++ [copy], ?_, ?_⟩
      · rw [if_pos rfl, hlog, List.append_assoc]
      · rw [if_pos rfl, List.map_append, ← List.append_assoc]
        exact halone.send hcopy hsent
    · refine ⟨copies, ?_, ?_⟩
      · rw [if_neg hchannel, List.append_nil, hlog]
      · rw [if_neg (Ne.symm hchannel)]
        exact halone
  · rw [List.map_nil, List.append_nil]
    exact hs.controllers k hk

theorem Separate.step {calls : Nat → List Controller.Op} (hparts : iface.Parts agree)
    (hlevels : 0 < iface.numLevels) (hs : s.Separate iface p agree dram₀ calls)
    (hown : OwnPlugins op) (hstep : s.step iface p op = some t) :
    t.Separate iface p agree dram₀ fun k => calls k ++ callsOf k s op t := by
  cases op with
  | host req =>
      obtain ⟨⟨ok, host⟩, hsend, rfl⟩ := Option.map_eq_some_iff.mp hstep
      refine ⟨(hs.delivers.host trivial hsend).now, fun k hk => ?_⟩
      rw [callsOf, List.append_nil]
      obtain ⟨u, full, rw, aim, rfl | rfl, rfl⟩ := Dma.System.send_cases hsend
      · exact hs.controllers k hk
      · exact hs.controllers k hk
  | plugin channel req =>
      unfold AiMMemorySystem.step at hstep
      dsimp only at hstep
      split at hstep
      · obtain ⟨c, hsend, rfl⟩ := Option.map_eq_some_iff.mp hstep
        refine ⟨⟨rfl, hs.delivers.hosts, fun _ => trivial, hs.delivers.waiting⟩, fun k hk => ?_⟩
        rw [callsOf]
        dsimp only
        split
        · next heq =>
            subst heq
            exact (hs.controllers _ hk).prioritySend hown hsend
        · rw [List.append_nil]
          exact hs.controllers k hk
      · cases hstep
  | tick =>
      obtain ⟨host, hhost, hcases⟩ := tick_stages hstep
      have hdma := (hs.delivers.tick (fun _ _ _ _ _ _ _ _ => trivial)
        (fun _ _ d _ hd c hc _ => Dma.decode_forChannel hd hc) hhost).now
      have hoffers := fun k (hk : k < p.system.numControllers) => hs.tickHost hhost hk
      rcases hcases with rfl | ⟨controllers, dram, turns, host', hsweep, hcalls, rfl⟩
      · refine ⟨hdma, fun k hk => ?_⟩
        obtain ⟨copies, hlog, halone⟩ := hoffers k hk
        rw [callsOf, hlog, List.drop_left, if_neg (Int.lt_irrefl _), List.append_nil]
        exact halone
      · obtain ⟨hcontrollers, hoffered⟩ := callbacks_frame hcalls
        refine ⟨?_, fun k hk => ?_⟩
        · refine callbacks_induct (I := fun host => host.Delivers (fun _ => True) Dma.ForChannel
            (fun _ _ => True) host.dma.clk) ?_ hcalls
            ⟨rfl, hdma.hosts, fun _ => trivial, hdma.waiting⟩
          exact fun host host' copy _ hI hfire => (fire_delivers hI hfire).now
        · choose! copies hlog halone using hoffers
          have hturn := Alone.cycle hparts hlevels halone hsweep hk (host.controllers k)
          rw [callsOf, hoffered, hlog k hk, List.drop_left, if_pos (by dsimp only; omega),
            hcontrollers, ← List.append_assoc]
          exact hturn

theorem exec_separate (hparts : iface.Parts agree) (hrefl : ∀ i dev, agree i dev dev)
    (hlevels : 0 < iface.numLevels) {ops : List Op} (hown : ∀ op ∈ ops, OwnPlugins op)
    (hrun : Runs.exec (step iface p) (init iface dram₀) ops = some s) :
    s.Separate iface p agree dram₀ fun k =>
      Runs.emitted (step iface p) (callsOf k) (init iface dram₀) ops := by
  refine Runs.exec_emitted (I := fun calls s => s.Separate iface p agree dram₀ calls) ?_
    (fun _ => []) ?_ hrun
  · exact fun calls s op t hs hmem hstep => hs.step hparts hlevels (hown op hmem) hstep
  · exact ⟨⟨rfl, fun _ _ => trivial, fun _ => trivial, fun _ _ h => (List.not_mem_nil h).elim⟩,
      fun k _ => .init hrefl k⟩

/-- A system over any DRAM model and of any number of channels, whose plugins keep to their channel,
is on each channel a controller alone on a device of its own: its requests, its statistics, its
events and its channel of the device are those of a single controller under the copies that the
DMA offers it, the requests of its plugins and its ticks, in their order. -/
theorem aim_channels_independent {St Ext : Type} {model : DRAMModel Cmd St Ext} {dram₀ : model.Dev}
    {ops : List Op} (hown : ∀ op ∈ ops, OwnPlugins op) {s : AiMMemorySystem model.Dev Cmd}
    (hrun : Runs.exec (step model.idram p) (init model.idram dram₀) ops = some s) {k : Nat}
    (hk : k < p.system.numControllers) :
    (∀ call ∈ Runs.emitted (step model.idram p) (callsOf k) (init model.idram dram₀) ops,
      OwnCall k call) ∧
    ∃ t : Chan model.Dev Cmd,
      Runs.exec (Chan.step model.idram (p.forChannel k)) (Chan.init model.idram dram₀)
          (Runs.emitted (step model.idram p) (callsOf k) (init model.idram dram₀) ops) = some t ∧
        t.ctl = (s.host.controllers k).ctl ∧ t.log = (s.host.controllers k).log ∧
        DRAMModel.SameChannel k s.dram t.dev :=
  have halone := (exec_separate DRAMModel.idram_parts DRAMModel.SameChannel.refl (Nat.succ_pos _)
    hown hrun).controllers k hk
  ⟨halone.own, halone.alone⟩

/-! ### A run of two channels -/

/-- The controllers of the two channels of `GDDR6_8Gb_x16`. -/
def x16Params : AiMParams where
  system := ⟨2, false, 4, 4⟩
  controller := { channelId := 0 }
  clockRatio := 1

/-- A `RD_MAC` of both channels and a `SYNC` behind it, for a number of ticks. -/
def readThenSync (ticks : Nat) : List Op :=
  .host { type := .AIM, opcode := .ISR_RD_MAC, gprAddr0 := 0, channelMask := 2 ^ 31 + 2 ^ 30 } ::
    .host { type := .AIM, opcode := .ISR_SYNC, hostReqId := 1 } :: List.replicate ticks .tick

def readThenSyncRun (ticks : Nat) : Option (AiMMemorySystem GDDR6.aimModel.Dev GDDR6.Cmd) :=
  Runs.exec (step GDDR6.aimModel.idram x16Params) (init GDDR6.aimModel.idram GDDR6.x16Device)
    (readThenSync ticks)

theorem readThenSync_own {ticks : Nat} :
    ∀ op ∈ readThenSync ticks, OwnCallbacks op ∧ OwnPlugins op := by
  intro op hop
  simp only [readThenSync, List.mem_cons, List.mem_replicate] at hop
  rcases hop with rfl | rfl | ⟨-, rfl⟩
  · exact ⟨by simp [OwnCallbacks], trivial⟩
  · exact ⟨by simp [OwnCallbacks], trivial⟩
  · exact ⟨trivial, trivial⟩

theorem readThenSyncRun_reached {ticks : Nat} {s : AiMMemorySystem GDDR6.aimModel.Dev GDDR6.Cmd}
    (h : readThenSyncRun ticks = some s) :
    Run GDDR6.aimModel.idram x16Params GDDR6.x16Device
      (fun _ op => OwnCallbacks op ∧ OwnPlugins op) s :=
  Runs.exec_reachable (fun op hop _ => readThenSync_own op hop) (.start rfl) h

def readThenSyncCalls (k ticks : Nat) : List Controller.Op :=
  Runs.emitted (step GDDR6.aimModel.idram x16Params) (callsOf k)
    (init GDDR6.aimModel.idram GDDR6.x16Device) (readThenSync ticks)

/-- The controller of the second channel, after its read and its barrier. -/
theorem aim_channels_independent_gddr6 :
    (readThenSyncCalls 1 40).filterMap
        (fun | .send req => some req.opcode | _ => none) = [.ISR_RD_MAC, .ISR_SYNC] ∧
    ∃ s : AiMMemorySystem GDDR6.aimModel.Dev GDDR6.Cmd, (s.host.controllers 1).log.length = 7 ∧
      (∀ call ∈ readThenSyncCalls 1 40, OwnCall 1 call) ∧
      ∃ t : Chan GDDR6.aimModel.Dev GDDR6.Cmd,
        Runs.exec (Chan.step GDDR6.aimModel.idram (x16Params.forChannel 1))
            (Chan.init GDDR6.aimModel.idram GDDR6.x16Device) (readThenSyncCalls 1 40) = some t ∧
          t.ctl = (s.host.controllers 1).ctl ∧ t.log = (s.host.controllers 1).log ∧
          DRAMModel.SameChannel 1 s.dram t.dev := by
  have hrun : ((readThenSyncRun 40).any fun s => (s.host.controllers 1).log.length == 7) = true := by
    decide +kernel
  obtain ⟨s, hs, hlog⟩ := Option.any_eq_true .. |>.mp hrun
  exact ⟨by decide +kernel, s, eq_of_beq hlog,
    aim_channels_independent (fun op hop => (readThenSync_own op hop).2) hs (by decide)⟩

end AiMMemorySystem

end AimSimulator.MemorySystem
