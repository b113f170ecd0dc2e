import AimSimulator.Controller.Held
import AimSimulator.Dma.Retirement
import AimSimulator.MemorySystem.AiMChannels
/-!
# The callbacks of the AiM memory system

The DMA relies on its controllers to call back every blocking copy that they accept, once.  Here
they do: the copies in flight are the ones that stand in the queues of the controllers, so the
DMA of a memory system runs as it runs among controllers that keep its protocol.
-/

namespace AimSimulator.MemorySystem

open Dram Controller

/-! ## The copies that controllers hold -/

section

variable {Cmd : Type}

def copiesHeld (numControllers : Nat) (controllers : Nat → Logged Cmd) : List Request :=
  (List.range numControllers).flatMap fun k => copies (controllers k).ctl.outstanding

theorem copiesHeld_update {n k : Nat} (hk : k < n) {f g : Nat → Logged Cmd} {taken : List Request}
    (hsame : ∀ i, i ≠ k → g i = f i)
    (hone : (copies (g k).ctl.outstanding).Perm (copies (f k).ctl.outstanding ++ taken)) :
    (copiesHeld n g).Perm (copiesHeld n f ++ taken) := by
  rw [List.perm_iff_count] at hone ⊢
  intro r
  have hcount := Counting.countP_flatMap_update (· == r) hk
    (f := fun i => copies (f i).ctl.outstanding) (g := fun i => copies (g i).ctl.outstanding)
    fun i hi => by rw [hsame i hi]
  have hr := hone r
  rw [List.count_append] at hr ⊢
  unfold copiesHeld
  simp only [List.count_eq_countP] at hr ⊢
  omega

theorem callbacks_eq (turns : List (List (Event Cmd))) :
    AiMMemorySystem.callbacks turns = turns.flatMap fun events => copies (completions events) := by
  unfold AiMMemorySystem.callbacks
  rw [List.filter_flatMap]
  refine congrArg List.flatten (List.map_congr_left fun events _ => ?_)
  unfold copies completions Logged.completed
  rw [List.map_filterMap]
  refine congrArg (List.filter _) (List.filterMap_congr fun event _ => ?_)
  cases event <;> rfl

end

namespace AiMMemorySystem

variable {Dev Cmd : Type} [DecidableEq Cmd] {iface : IDRAM Dev Cmd} {p : AiMParams} {dram₀ : Dev}
  {s t : AiMMemorySystem Dev Cmd} {op : Op}

/-- The DMA is in a run of its protocol, and its copies in flight are those that its controllers
hold. -/
structure Accounted (iface : IDRAM Dev Cmd) (p : AiMParams) (host : Dma.System (Logged Cmd)) :
    Prop where
  run : Dma.System.Run p.system (Logged.send iface)
    (fun _ => { ctl := AiMDRAMController.init iface }) host
  delivers : host.Delivers (fun req => req.callback ≠ .aimReceive) (fun _ => ReadsBack)
    (fun _ c => Returning c.ctl.toQueues) host.dma.clk
  flight : host.inFlight.Perm (copiesHeld p.system.numControllers host.controllers)

namespace Accounted

variable {host host' : Dma.System (Logged Cmd)}

omit [DecidableEq Cmd] in
theorem init : Accounted iface p
    { controllers := fun _ => { ctl := AiMDRAMController.init iface } } := by
  refine ⟨.start rfl, ⟨rfl, fun _ h => (List.not_mem_nil h).elim, fun _ => .init,
    fun _ _ h => (List.not_mem_nil h).elim⟩, ?_⟩
  have hnil : copiesHeld p.system.numControllers
      (fun _ => { ctl := AiMDRAMController.init iface }) = [] :=
    List.flatMap_eq_nil_iff.mpr fun _ _ => rfl
  rw [hnil]

omit [DecidableEq Cmd] in
theorem send {req : Request} {ok : Bool} (hs : Accounted iface p host)
    (hreq : req.callback ≠ .aimReceive) (h : host.send req = some (ok, host')) :
    Accounted iface p host' := by
  refine ⟨hs.run.next (l := .send req) hreq (Option.map_eq_some_iff.mpr ⟨_, h, rfl⟩),
    (hs.delivers.host hreq h).now, ?_⟩
  obtain ⟨u, full, rw, aim, rfl | rfl, rfl⟩ := Dma.System.send_cases h
  · exact hs.flight
  · exact hs.flight

omit [DecidableEq Cmd] in
/-- A tick of the DMA: what it delivers and what it has in flight grow by the same copies. -/
theorem tick (hs : Accounted iface p host)
    (h : host.tick p.system (Logged.send iface) = some host') : Accounted iface p host' := by
  have hsend : ∀ (_ : Nat) req ok (c c' : Logged Cmd), ReadsBack req → Returning c.ctl.toQueues →
      Logged.send iface req c = some (ok, c') → Returning c'.ctl.toQueues := by
    intro _ req ok c c' hreq hc hsent
    obtain ⟨⟨ok', ctl, events⟩, hctl, heq⟩ := Option.map_eq_some_iff.mp hsent
    obtain ⟨-, rfl⟩ := Prod.mk.inj heq
    exact AiMDRAMController.send_returning hreq hctl hc
  have hdecode : ∀ cfrValues host d, host.callback ≠ .aimReceive →
      Dma.decode p.system cfrValues host = some d → ∀ c ∈ d.copies, ∀ id,
        ReadsBack { c.2 with aimReqId := id } :=
    fun _ _ _ hhost hd _ hc _ hcallback => Dma.decode_reads hhost hd hc hcallback
  refine ⟨hs.run.next (l := .tick) trivial h, (hs.delivers.tick hsend hdecode h).now, ?_⟩
  refine hs.delivers.tick_with (J := fun host =>
    host.inFlight.Perm (copiesHeld p.system.numControllers host.controllers)) hsend ?_ ?_ hdecode
      hs.flight h
  · intro u v hcontrollers hflight _ hu
    rw [hcontrollers, hflight]
    exact hu
  · intro u v channel copy ok _ _ hu hdeliver
    obtain ⟨hchannel, c, hsent, rfl⟩ := Dma.System.deliver_eq_some hdeliver
    obtain ⟨⟨ok', ctl, events⟩, hctl, heq⟩ := Option.map_eq_some_iff.mp hsent
    obtain ⟨rfl, rfl⟩ := Prod.mk.inj heq
    have hone := copies_add fun p => AiMDRAMController.send_held (p := p) hctl
    have htaken := copiesHeld_update hchannel
      (g := fun i => if i = channel then ⟨ctl, (u.controllers channel).log ++ events⟩
        else u.controllers i) (fun i hi => if_neg hi) (by rw [if_pos rfl]; exact hone)
    refine .trans ?_ htaken.symm
    dsimp only
    split
    · exact hu.append_right _
    · rw [List.append_nil]
      exact hu

omit [DecidableEq Cmd] in
theorem plugin {channel : Nat} {req : Request} {c : Logged Cmd} (hs : Accounted iface p host)
    (hreq : req.callback ≠ .aimReceive) (hchannel : channel < p.system.numControllers)
    (h : (host.controllers channel).prioritySend iface req = some c) :
    Accounted iface p { host with
      controllers := fun k => if k = channel then c else host.controllers k } := by
  obtain ⟨⟨ok, ctl, events⟩, hctl, rfl⟩ := Option.map_eq_some_iff.mp h
  refine ⟨hs.run.next (l := .controllers _) trivial rfl,
    ⟨rfl, hs.delivers.hosts, fun k => ?_, hs.delivers.waiting⟩, ?_⟩
  · dsimp only
    split
    · exact AiMDRAMController.prioritySend_returning (fun hback => absurd hback hreq) hctl
        (hs.delivers.controllers channel)
    · exact hs.delivers.controllers k
  · have hone := copies_add fun p => AiMDRAMController.prioritySend_held (p := p) hctl
    have hnone : (ok && req.callback == .aimReceive) = false := by simp [hreq]
    rw [hnone] at hone
    have htaken := copiesHeld_update hchannel
      (g := fun k => if k = channel then ⟨ctl, (host.controllers channel).log ++ events⟩
        else host.controllers k) (fun k hk => if_neg hk) (by rw [if_pos rfl]; exact hone)
    rw [if_neg (by decide), List.append_nil] at htaken
    exact hs.flight.trans htaken.symm

theorem turns {controllers : List (Logged Cmd)} {dram dram' : Dev}
    {turns : List (List (Event Cmd))} (hs : Accounted iface p host)
    (h : Sweep.sweep (Logged.turn iface p) 0
      ((List.range p.system.numControllers).map host.controllers) dram =
        some (controllers, dram', turns)) :
    (∀ k, Returning (controllers.getD k (host.controllers k)).ctl.toQueues) ∧
      host.inFlight.Perm (copiesHeld p.system.numControllers
        (fun k => controllers.getD k (host.controllers k)) ++ callbacks turns) := by
  have hlength := (Sweep.sweep_length h).1
  rw [List.length_map, List.length_range] at hlength
  obtain ⟨hreturning, hgives⟩ := Sweep.sweep_gives
    (K := fun c : Logged Cmd => Returning c.ctl.toQueues)
    (f := fun c => copies c.ctl.outstanding) (g := fun events => copies (completions events))
    (fun k c dev c' dev' events hc hturn => by
      obtain ⟨hret, hperm⟩ := AiMDRAMController.tick_copies (Logged.turn_cases hturn).1 hc
      exact ⟨hret, copies_append _ _ ▸ hperm⟩)
    (fun c hc => by
      obtain ⟨k, -, rfl⟩ := List.mem_map.mp hc
      exact hs.delivers.controllers k) h
  constructor
  · intro k
    rw [List.getD_eq_getElem?_getD]
    cases hget : controllers[k]? with
    | none => exact hs.delivers.controllers k
    | some c => exact hreturning c (List.mem_of_getElem? hget)
  · rw [callbacks_eq]
    have hafter : controllers = (List.range p.system.numControllers).map
        fun k => controllers.getD k (host.controllers k) := by
      refine List.ext_getElem? fun k => ?_
      rw [List.getElem?_map]
      by_cases hk : k < controllers.length
      · rw [List.getElem?_range (hlength ▸ hk), Option.map_some, List.getD_eq_getElem?_getD,
          List.getElem?_eq_getElem hk, Option.getD_some]
      · rw [List.getElem?_eq_none (Nat.le_of_not_lt hk), List.getElem?_eq_none, Option.map_none]
        rw [List.length_range]
        omega
    have hheld : copiesHeld p.system.numControllers
        (fun k => controllers.getD k (host.controllers k)) =
          controllers.flatMap fun c => copies c.ctl.outstanding := by
      conv_rhs => rw [hafter]
      rw [List.flatMap_map]
      rfl
    have hbefore : copiesHeld p.system.numControllers host.controllers =
        ((List.range p.system.numControllers).map host.controllers).flatMap fun c =>
          copies c.ctl.outstanding := by
      rw [List.flatMap_map]
      rfl
    rw [hheld]
    exact (hbefore ▸ hs.flight).trans hgives.symm

end Accounted

/-! ## The callbacks of a cycle -/

omit [DecidableEq Cmd] in
theorem callbacks_run {send : Request → Logged Cmd → Option (Bool × Logged Cmd)}
    {ctls : Nat → Logged Cmd} {kept calls : List Request} :
    ∀ {host : Dma.System (Logged Cmd)}, Dma.System.Run p.system send ctls host →
      host.inFlight.Perm (kept ++ calls) →
        ∃ host', calls.foldlM fire host = some host' ∧ Dma.System.Run p.system send ctls host' ∧
          host'.inFlight.Perm kept := by
  induction calls with
  | nil =>
      intro host hr hflight
      exact ⟨host, rfl, hr, by rwa [List.append_nil] at hflight⟩
  | cons copy calls ih =>
      intro host hr hflight
      have hmem : copy ∈ host.inFlight :=
        hflight.mem_iff.mpr (List.mem_append_right _ List.mem_cons_self)
      have hi : host.inFlight[host.inFlight.idxOf copy]? = some copy := by
        rw [List.getElem?_eq_getElem (List.idxOf_lt_length_of_mem hmem), List.getElem_idxOf]
      obtain ⟨host₁, hreceive, -⟩ :=
        Dma.System.receive_retiring (Dma.System.run_retiring hr) hi
      have hfire : fire host copy = some host₁ := by
        unfold fire
        rw [List.erase_eq_eraseIdx_of_idxOf rfl]
        exact hreceive
      have hrun : Dma.System.Run p.system send ctls host₁ := by
        refine hr.next (l := .receive (host.inFlight.idxOf copy)) trivial ?_
        rw [Dma.System.step, hi]
        exact hreceive
      obtain ⟨hframe, -⟩ := Dma.System.receive_frame hreceive
      have hrest : host₁.inFlight.Perm (kept ++ calls) := by
        rw [hframe]
        show (host.inFlight.eraseIdx (host.inFlight.idxOf copy)).Perm _
        rw [← List.erase_eq_eraseIdx_of_idxOf rfl]
        have herase := (hflight.trans List.perm_middle).erase copy
        rwa [List.erase_cons_head] at herase
      obtain ⟨host', hcalls, hrun', hflight'⟩ := ih hrun hrest
      refine ⟨host', ?_, hrun', hflight'⟩
      rw [List.foldlM_cons, hfire]
      exact hcalls

/-- A cycle after a tick of the DMA: every callback finds its copy. -/
theorem Accounted.cycle {host : Dma.System (Logged Cmd)} {controllers : List (Logged Cmd)}
    {dram dram' : Dev} {turns : List (List (Event Cmd))} (hs : Accounted iface p host)
    (h : Sweep.sweep (Logged.turn iface p) 0
      ((List.range p.system.numControllers).map host.controllers) dram =
        some (controllers, dram', turns)) :
    ∃ host', (callbacks turns).foldlM fire
        { host with controllers := fun k => controllers.getD k (host.controllers k) } =
          some host' ∧ Accounted iface p host' := by
  obtain ⟨hreturning, hflight⟩ := hs.turns h
  have hswept : Dma.System.Run p.system (Logged.send iface)
      (fun _ => { ctl := AiMDRAMController.init iface })
      { host with controllers := fun k => controllers.getD k (host.controllers k) } :=
    hs.run.next (l := .controllers _) trivial rfl
  obtain ⟨host', hcalls, hrun, hkept⟩ := callbacks_run hswept hflight
  refine ⟨host', hcalls, hrun, ?_, ?_⟩
  · refine callbacks_induct (I := fun host => host.Delivers (fun req => req.callback ≠ .aimReceive)
      (fun _ => ReadsBack) (fun _ c => Returning c.ctl.toQueues) host.dma.clk) ?_ hcalls
      ⟨rfl, hs.delivers.hosts, hreturning, hs.delivers.waiting⟩
    exact fun host host' copy _ hI hfire => (fire_delivers hI hfire).now
  · rw [(callbacks_frame hcalls).1]
    exact hkept

/-! ## Every run -/

theorem Accounted.step (hs : Accounted iface p s.host) (hown : OwnCallbacks op)
    (hstep : s.step iface p op = some t) : Accounted iface p t.host := by
  cases op with
  | host req =>
      obtain ⟨⟨ok, host⟩, hsend, rfl⟩ := Option.map_eq_some_iff.mp hstep
      exact hs.send hown hsend
  | plugin channel req =>
      unfold AiMMemorySystem.step at hstep
      dsimp only at hstep
      split at hstep
      · next hchannel =>
          obtain ⟨c, hsend, rfl⟩ := Option.map_eq_some_iff.mp hstep
          exact hs.plugin hown hchannel hsend
      · cases hstep
  | tick =>
      obtain ⟨host, hhost, hcases⟩ := tick_stages hstep
      have hticked := hs.tick hhost
      rcases hcases with rfl | ⟨controllers, dram, turns, host', hsweep, hcalls, rfl⟩
      · exact hticked
      · obtain ⟨host'', hcalls', hdone⟩ := hticked.cycle hsweep
        obtain rfl := Option.some.inj (hcalls.symm.trans hcalls')
        exact hdone

theorem run_accounted (hr : Run iface p dram₀ (fun _ op => OwnCallbacks op) s) :
    Accounted iface p s.host := by
  refine hr.invariant (I := fun s => Accounted iface p s.host) ?_
    fun s op t hs hown hstep => hs.step hown hstep
  rintro s rfl
  exact .init

/-- The DMA of a memory system is in a run of the protocol in which its controllers accept,
refuse and call back as they like; and where the controllers take their turns, all their
callbacks find their copy in flight and none of them fails. -/
theorem aim_host_runs (hr : Run iface p dram₀ (fun _ op => OwnCallbacks op) s) :
    Dma.System.Run p.system (Logged.send iface)
        (fun _ => { ctl := AiMDRAMController.init iface }) s.host ∧
      ∀ host controllers dram turns,
        s.host.tick p.system (Logged.send iface) = some host →
          Sweep.sweep (Logged.turn iface p) 0
            ((List.range p.system.numControllers).map host.controllers) (iface.tick s.dram) =
              some (controllers, dram, turns) →
            p.clockRatio ≠ 0 → (s.tick iface p).isSome = true := by
  have hs := run_accounted hr
  refine ⟨hs.run, fun host controllers dram turns hhost hsweep hratio => ?_⟩
  obtain ⟨host', hcalls, -⟩ := (hs.tick hhost).cycle hsweep
  unfold tick
  rw [hhost, Option.bind_some, if_neg hratio]
  split
  · unfold cycleTick
    rw [hsweep, Option.bind_some]
    dsimp only
    rw [hcalls]
    rfl
  · rfl

/-- A read of both channels and a barrier, from their sending to the last callback. -/
theorem aim_host_runs_gddr6 :
    ∃ s : AiMMemorySystem GDDR6.aimModel.Dev GDDR6.Cmd, s.host.dma.requestQueue = [] ∧
      Dma.System.Run x16Params.system (Logged.send GDDR6.aimModel.idram)
        (fun _ => { ctl := AiMDRAMController.init GDDR6.aimModel.idram }) s.host := by
  have hrun : ((readThenSyncRun 40).any fun s => s.host.dma.requestQueue.isEmpty) = true := by
    decide +kernel
  obtain ⟨s, hs, hempty⟩ := Option.any_eq_true .. |>.mp hrun
  exact ⟨s, List.isEmpty_iff.mp hempty,
    (aim_host_runs ((readThenSyncRun_reached hs).mono fun _ _ h => h.1)).1⟩

/-- The counter of the DMA is the number of the blocking copies that stand in the queues of the
controllers or wait to be sent: no callback is lost, whatever the device and the plugins do. -/
theorem aim_stall_counts (hr : Run iface p dram₀ (fun _ op => OwnCallbacks op) s) :
    s.host.dma.stalledAiMRequests =
      (copiesHeld p.system.numControllers s.host.controllers).length +
        s.host.waiting.countP Dma.System.isBlocking := by
  have hs := run_accounted hr
  obtain ⟨-, hstalled, -⟩ := Dma.System.run_retires hs.run
  rw [hstalled, Dma.System.unfired_length, hs.flight.length_eq]
  exact Int.natCast_add _ _

/-- Both copies of the read are in their controllers. -/
theorem aim_stall_counts_gddr6 :
    ∃ s : AiMMemorySystem GDDR6.aimModel.Dev GDDR6.Cmd,
      (copiesHeld x16Params.system.numControllers s.host.controllers).length = 2 ∧
      s.host.dma.stalledAiMRequests =
        (copiesHeld x16Params.system.numControllers s.host.controllers).length +
          s.host.waiting.countP Dma.System.isBlocking := by
  have hrun : ((readThenSyncRun 3).any fun s =>
      (copiesHeld x16Params.system.numControllers s.host.controllers).length == 2) = true := by
    decide +kernel
  obtain ⟨s, hs, hheld⟩ := Option.any_eq_true .. |>.mp hrun
  exact ⟨s, eq_of_beq hheld,
    aim_stall_counts ((readThenSyncRun_reached hs).mono fun _ _ h => h.1)⟩

end AiMMemorySystem

end AimSimulator.MemorySystem
