import AimSimulator.Dram.Standard
import AimSimulator.Controller.Locality
import AimSimulator.MemorySystem.GenericDRAMSystem
/-!
# The channels of a memory system

All channels share one device and one clock.  A system of any number of channels still does on
each what a controller alone with a device of its own does.
-/

namespace AimSimulator.MemorySystem

open Dram Controller GenericDRAMController

variable {Dev Cmd : Type} [DecidableEq Cmd] {iface : IDRAM Dev Cmd} {params : GenericParams}
  {apply : Request → Request} {agree : Int → Dev → Dev → Prop}

def PluginsOwn : SystemOp → Prop
  | .send _ => True
  | .tick plugins => ∀ k : Nat, ∀ req ∈ plugins k, req.addrVec.at 0 = k

def callOf (apply : Request → Request) (k : Nat) : SystemOp → Option (Call Cmd)
  | .send req => if (apply req).addrVec.at 0 = k then some (.send (apply req)) else none
  | .tick plugins => some (.tick (plugins k))

/-! ## One turn -/

section Turn

variable {plugins : Nat → List Request} {c c' : GenericDRAMController Cmd} {dev dev' e : Dev}
  {o : Turn Cmd}

theorem turn_own (hparts : iface.Parts agree) (hlevels : 0 < iface.numLevels) (k : Nat)
    (c : GenericDRAMController Cmd) (dev e : Dev) (c' : GenericDRAMController Cmd) (dev' : Dev)
    (o : Turn Cmd) (hold : c.toQueues.Hold (OfChannel k)) (hagree : agree k dev e)
    (h : GenericDRAMSystem.turn iface params plugins k c dev = some (c', dev', o)) :
    ∃ e', GenericDRAMSystem.turn iface params plugins k c e = some (c', e', o) ∧
      agree k dev' e' := by
  obtain ⟨called, htick, rfl⟩ := GenericDRAMSystem.turn_cases h
  have hrefresh := refreshOf_channel hlevels (forChannel params k)
  obtain ⟨e', htick', hagree'⟩ := tick_own hparts hagree hrefresh hold htick
  refine ⟨e', ?_, hagree'⟩
  unfold GenericDRAMSystem.turn
  rw [htick', issued_congr hparts hagree hrefresh hold]
  rfl

theorem turn_other (hparts : iface.Parts agree) (hlevels : 0 < iface.numLevels) (k i : Nat)
    (c : GenericDRAMController Cmd) (dev e : Dev) (c' : GenericDRAMController Cmd) (dev' : Dev)
    (o : Turn Cmd) (hne : k ≠ i) (hold : c.toQueues.Hold (OfChannel k)) (hagree : agree i dev e)
    (h : GenericDRAMSystem.turn iface params plugins k c dev = some (c', dev', o)) :
    agree i dev' e := by
  obtain ⟨called, htick, -⟩ := GenericDRAMSystem.turn_cases h
  exact tick_other hparts (show (k : Int) ≠ i by omega) hagree
    (refreshOf_channel hlevels (forChannel params k)) hold htick

end Turn

/-! ## Runs -/

/-- A controller of a system against a controller of its own that gets the same calls. -/
structure Follows (iface : IDRAM Dev Cmd) (params : GenericParams) (agree : Int → Dev → Dev → Prop)
    (dram : Dev) (calls : List (Call Cmd)) (k : Nat) (s : SystemRun Dev Cmd)
    (c : GenericDRAMController Cmd) : Prop where
  hold : c.toQueues.Hold (OfChannel k)
  own : ∀ call ∈ calls, Own k call
  alone : ∃ t : GenericChan Dev Cmd,
    Runs.exec (GenericChan.call iface (forChannel params k)) (GenericChan.init iface dram) calls =
        some t ∧ t.ctl = c ∧ agree k s.sys.dram t.dev ∧ t.called = s.called k

omit [DecidableEq Cmd] in
theorem Follows.init [DecidableEq Cmd] (hrefl : ∀ i dev, agree i dev dev) (numChannels : Nat)
    (dram : Dev) (k : Nat) : Follows iface params agree dram [] k
      (SystemRun.init iface numChannels dram) (GenericDRAMController.init iface) := by
  refine ⟨fun q hq => ?_, fun _ hcall => absurd hcall List.not_mem_nil,
    GenericChan.init iface dram, rfl, rfl, hrefl _ _, rfl⟩
  rcases Queues.mem_outstanding.mp hq with hq | hq | ⟨id, hq⟩
  · cases hq
  · cases hq
  · cases id <;> cases hq

omit [DecidableEq Cmd] in
theorem Follows.frame [DecidableEq Cmd] {dram : Dev} {calls : List (Call Cmd)} {k : Nat}
    {s t : SystemRun Dev Cmd} {c : GenericDRAMController Cmd}
    (h : Follows iface params agree dram calls k s c) (hdram : t.sys.dram = s.sys.dram)
    (hcalled : t.called = s.called) : Follows iface params agree dram calls k t c := by
  obtain ⟨u, hu, hctl, hagree, hlog⟩ := h.alone
  exact ⟨h.hold, h.own, u, hu, hctl, hdram ▸ hagree, hcalled ▸ hlog⟩

theorem Follows.send {dram : Dev} {calls : List (Call Cmd)} {k : Nat} {s t : SystemRun Dev Cmd}
    {c c' : GenericDRAMController Cmd} (h : Follows iface params agree dram calls k s c)
    {req : Request} (haddr : req.addrVec.at 0 = k) {isSuccess : Bool}
    (hsend : c.send iface req = some (isSuccess, c')) (hdram : t.sys.dram = s.sys.dram)
    (hcalled : t.called = s.called) :
    Follows iface params agree dram (calls ++ [.send req]) k t c' := by
  refine Follows.frame (s := s) ?_ hdram hcalled
  obtain ⟨u, hu, rfl, hagree, hlog⟩ := h.alone
  refine ⟨send_hold hsend (fun _ _ => haddr) h.hold, Runs.forall_concat h.own haddr,
    { u with ctl := c' }, ?_, rfl, hagree, hlog⟩
  refine Runs.exec_concat hu ?_
  rw [GenericChan.call, hsend]
  rfl

theorem tick_project (hparts : iface.Parts agree) (hlevels : 0 < iface.numLevels) {dram : Dev}
    {calls : Nat → List (Call Cmd)} {s t : SystemRun Dev Cmd}
    (hs : ∀ (k : Nat) (c : GenericDRAMController Cmd),
      s.sys.controllers[k]? = some c → Follows iface params agree dram (calls k) k s c)
    {plugins : Nat → List Request} (hstep : s.step iface params apply (.tick plugins) = some t)
    {k : Nat} {c' : GenericDRAMController Cmd} (hget : t.sys.controllers[k]? = some c') :
    ∃ (u : GenericChan Dev Cmd) (dev' : Dev) (called : List (Queued Cmd)),
      Runs.exec (GenericChan.call iface (forChannel params k)) (GenericChan.init iface dram)
          (calls k) = some u ∧
        s.sys.controllers[k]? = some u.ctl ∧ u.called = s.called k ∧
        u.ctl.tick iface (forChannel params k) (iface.tick u.dev) (plugins k) =
          some (c', dev', called) ∧
        agree k t.sys.dram dev' ∧ t.called k = s.called k ++ called := by
  obtain ⟨turns, hsweep, -, -, hcalled, -, -⟩ := SystemRun.tick_cases hstep
  have hlt : k < s.sys.controllers.length := by
    rw [← (Sweep.sweep_length hsweep).1]
    exact (List.getElem?_eq_some_iff.mp hget).1
  have hget₀ := List.getElem?_eq_getElem hlt
  obtain ⟨u, hu, hctl, hagree, hlog⟩ := (hs k _ hget₀).alone
  obtain ⟨c₁, dev', o, hturn, hget', hout, hagree'⟩ :=
    Sweep.sweep_project (turn_own hparts hlevels) (turn_other hparts hlevels)
      (fun j c hc => by rw [Nat.zero_add]; exact (hs j c hc).hold) hsweep hget₀
      (by rw [Nat.zero_add]; exact hparts.tick hagree)
  rw [Nat.zero_add] at hturn hagree'
  obtain rfl := Option.some.inj (hget.symm.trans hget')
  obtain ⟨called, htick, rfl⟩ := GenericDRAMSystem.turn_cases hturn
  refine ⟨u, dev', called, hu, by rw [hctl]; exact hget₀, hlog, by rw [hctl]; exact htick,
    hagree', ?_⟩
  rw [hcalled]
  dsimp only
  rw [hout]
  rfl

theorem follows_tick (hparts : iface.Parts agree) (hlevels : 0 < iface.numLevels) {dram : Dev}
    {calls : Nat → List (Call Cmd)} {s t : SystemRun Dev Cmd}
    (hs : ∀ (k : Nat) (c : GenericDRAMController Cmd),
      s.sys.controllers[k]? = some c → Follows iface params agree dram (calls k) k s c)
    {plugins : Nat → List Request} (hstep : s.step iface params apply (.tick plugins) = some t)
    {k : Nat} (hplugins : Own k (.tick (plugins k) : Call Cmd)) {c : GenericDRAMController Cmd}
    (hget : t.sys.controllers[k]? = some c) :
    Follows iface params agree dram (calls k ++ [.tick (plugins k)]) k t c := by
  obtain ⟨u, dev', called, hu, hget₀, hlog, htick, hagree, hcalled⟩ :=
    tick_project hparts hlevels hs hstep hget
  refine ⟨tick_hold htick (fun req hreq _ _ => hplugins req hreq)
    (refreshOf_channel hlevels (forChannel params k)) (hs k _ hget₀).hold,
    Runs.forall_concat (hs k _ hget₀).own hplugins, ⟨c, dev', u.called ++ called⟩, ?_, rfl,
    hagree, ?_⟩
  · refine Runs.exec_concat hu ?_
    rw [GenericChan.call, htick]
    rfl
  · rw [hcalled, hlog]

/-- After a list of steps whose plugins keep to their channel, the controller of each channel, its
part of the device and its callbacks are those of a controller alone behind its own calls. -/
theorem exec_follows (hparts : iface.Parts agree) (hrefl : ∀ i dev, agree i dev dev)
    (hlevels : 0 < iface.numLevels) {numChannels : Nat} {dram : Dev} {ops : List SystemOp}
    (hown : ∀ op ∈ ops, PluginsOwn op) {s : SystemRun Dev Cmd}
    (hrun : Runs.exec (SystemRun.step iface params apply) (SystemRun.init iface numChannels dram)
      ops = some s) :
    ∀ (k : Nat) (c : GenericDRAMController Cmd), s.sys.controllers[k]? = some c →
      Follows iface params agree dram (ops.filterMap (callOf apply k)) k s c := by
  refine Runs.exec_invariant (I := fun ops s => ∀ (k : Nat)
    (c : GenericDRAMController Cmd), s.sys.controllers[k]? = some c →
      Follows iface params agree dram (ops.filterMap (callOf apply k)) k s c) ?_ [] ?_ hrun
  · rintro ops s op t hs hmem hstep k c hget
    rw [List.filterMap_append]
    cases op with
    | send req =>
        obtain ⟨c₀, c₁, isSuccess, hsend⟩ := SystemRun.send_cases hstep
        obtain ⟨k₀, haddr, hget₀, hctls⟩ := hsend.channel
        rw [hctls, List.getElem?_set] at hget
        split at hget
        · next hk =>
            split at hget
            · obtain rfl := Option.some.inj hget
              subst hk
              have hcall : ([SystemOp.send req].filterMap (callOf apply k₀) : List (Call Cmd)) =
                  [.send (apply req)] := by
                rw [List.filterMap_cons, callOf, if_pos haddr]
                rfl
              rw [hcall]
              exact (hs _ c₀ hget₀).send haddr hsend.sent hsend.dram hsend.called
            · cases hget
        · next hk =>
            have hcall : ([SystemOp.send req].filterMap (callOf apply k) : List (Call Cmd)) =
                [] := by
              rw [List.filterMap_cons, callOf, if_neg fun h => hk (by omega)]
              rfl
            rw [hcall, List.append_nil]
            exact (hs k c hget).frame hsend.dram hsend.called
    | tick plugins => exact follows_tick hparts hlevels hs hstep (hown _ hmem k) hget
  · intro k c hget
    obtain rfl := List.eq_of_mem_replicate (List.mem_of_getElem? hget)
    exact .init hrefl numChannels dram k

theorem reachable_follows (hparts : iface.Parts agree) (hrefl : ∀ i dev, agree i dev dev)
    (hlevels : 0 < iface.numLevels) {numChannels : Nat} {dram : Dev} {s : SystemRun Dev Cmd}
    (hr : SystemRun.Run iface params apply numChannels dram (fun _ op => PluginsOwn op) s) :
    ∃ calls : Nat → List (Call Cmd), ∀ (k : Nat) (c : GenericDRAMController Cmd),
      s.sys.controllers[k]? = some c → Follows iface params agree dram (calls k) k s c := by
  obtain ⟨_, ops, rfl, hown, hrun⟩ := hr.exists_exec
  exact ⟨_, exec_follows hparts hrefl hlevels hown hrun⟩

/-- A system over any DRAM model and of any number of channels is, on each channel, a controller
alone: the controller, its channel of the device and its callbacks are those of a single
controller under the calls for that channel, which are the requests that are mapped to it and the
ticks with its plugins. -/
theorem channels_independent {St Ext : Type} {model : DRAMModel Cmd St Ext} {numChannels : Nat}
    {dram : model.Dev} {ops : List SystemOp} (hown : ∀ op ∈ ops, PluginsOwn op)
    {s : SystemRun model.Dev Cmd}
    (hrun : Runs.exec (SystemRun.step model.idram params apply)
      (SystemRun.init model.idram numChannels dram) ops = some s)
    {k : Nat} {c : GenericDRAMController Cmd} (hget : s.sys.controllers[k]? = some c) :
    ∃ t : GenericChan model.Dev Cmd,
      Runs.exec (GenericChan.call model.idram (forChannel params k))
          (GenericChan.init model.idram dram) (ops.filterMap (callOf apply k)) = some t ∧
        t.ctl = c ∧ DRAMModel.SameChannel k s.sys.dram t.dev ∧ t.called = s.called k :=
  (exec_follows DRAMModel.idram_parts DRAMModel.SameChannel.refl (Nat.succ_pos _) hown hrun k c
    hget).alone

/-! ### A run of two channels -/

def twoChannels : DRAMModel Standard.Cmd Standard.St Unit :=
  Standard.model .DDR3 ⟨fun _ => 0, fun _ => none, .ACT⟩ (fun _ => 2) fun _ => 1

def channelMapper (req : Request) : Request := { req with addrVec := [req.addr, 0, 1, 5, 0] }

def readBoth : List SystemOp :=
  [.send { addr := 0, type := .Read }, .send { addr := 1, type := .Read },
    .tick fun _ => [], .tick fun _ => []]

theorem readBoth_own : ∀ op ∈ readBoth, PluginsOwn op := by
  intro op hop
  simp only [readBoth, List.mem_cons, List.not_mem_nil, or_false] at hop
  rcases hop with rfl | rfl | rfl | rfl
  · trivial
  · trivial
  all_goals
    intro k req hreq
    cases hreq

def readBothRun : Option (SystemRun twoChannels.Dev Standard.Cmd) :=
  Runs.exec (SystemRun.step twoChannels.idram { channelId := 0, readLatency := 2 } channelMapper)
    (SystemRun.init twoChannels.idram 2 (twoChannels.createNodes fun _ => 2)) readBoth

theorem readBothRun_isSome : readBothRun.isSome = true := by decide +kernel

theorem readBothRun_second :
    ((readBothRun.get readBothRun_isSome).sys.controllers[1]?).isSome = true := by decide +kernel

/-- The controller of the second channel and the one read that it was given. -/
theorem channels_independent_ddr3 :
    ∃ c, (readBothRun.get readBothRun_isSome).sys.controllers[1]? = some c ∧
      ∃ t : GenericChan twoChannels.Dev Standard.Cmd,
        Runs.exec (GenericChan.call twoChannels.idram
            (forChannel { channelId := 0, readLatency := 2 } 1))
          (GenericChan.init twoChannels.idram (twoChannels.createNodes fun _ => 2))
          [.send { addr := 1, type := .Read, addrVec := [1, 0, 1, 5, 0] }, .tick [], .tick []] =
            some t ∧ t.ctl = c ∧
        DRAMModel.SameChannel 1 (readBothRun.get readBothRun_isSome).sys.dram t.dev ∧
        t.called = (readBothRun.get readBothRun_isSome).called 1 := by
  obtain ⟨c, hget⟩ := Option.isSome_iff_exists.mp readBothRun_second
  have hrun : readBothRun = some (readBothRun.get readBothRun_isSome) := (Option.some_get _).symm
  exact ⟨c, hget, channels_independent readBoth_own hrun hget⟩

end AimSimulator.MemorySystem
