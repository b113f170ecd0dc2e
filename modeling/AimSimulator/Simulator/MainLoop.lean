import AimSimulator.Frontend.TraceReader
import AimSimulator.MemorySystem.AiMCallbacks
/-!
# The main loop

`main.cpp` with the AiM trace front end and the AiM memory system.  An iteration ticks the front
end, the memory system or both, as their clock ratios say, and the loop ends once the callback of
the `EOC` of the trace has run.
-/

namespace AimSimulator

open Dram Controller Frontend MemorySystem

/-- The clock ratios of the front end and of the memory system, whose product fits an `int`, and
what the memory system is made of. -/
structure SimulatorParams where
  frontendTick : Nat
  memTick : Nat
  memory : AiMParams

/-- The simulator in front of an iteration, with the ticks of the front end so far. -/
structure Simulator (Dev Cmd : Type) where
  reader : AiMTraceReader
  memory : AiMMemorySystem Dev Cmd
  i : Nat := 0
  frontendTicks : Nat := 0
  finished : Bool := false

namespace Simulator

section

variable {Dev Cmd : Type} [DecidableEq Cmd] (iface : IDRAM Dev Cmd) (p : SimulatorParams)

/-- The front end and the memory system in front of the loop. -/
def init (delim : Char) (text : List Char) (dram : Dev) : Simulator Dev Cmd where
  reader := AiMTraceReader.init delim text
  memory := AiMMemorySystem.init iface dram

omit [DecidableEq Cmd] in
/-- `is_finished`: the callback of tag `1`, which is `AiMTrace::receive`, has run. -/
def isFinished (s : Simulator Dev Cmd) : Bool :=
  s.memory.host.log.any fun
    | .callback host _ => host.callback == .frontEnd 1
    | _ => false

omit [DecidableEq Cmd] in
def tickFrontend (s : Simulator Dev Cmd) : Option (Simulator Dev Cmd) :=
  match s.reader.fetch with
  | .error _ => none
  | .ok reader =>
      match reader.remainingReq with
      | none => some { s with reader, frontendTicks := s.frontendTicks + 1 }
      | some req =>
          (s.memory.host.send req).map fun (sent, host) =>
            { s with
              reader := (reader.offer sent).1
              memory := { s.memory with host }
              frontendTicks := s.frontendTicks + 1 }

/-- `memory_system->tick()`, with the requests that the plugins of the controllers send. -/
def tickMemory (plugins : List (Nat × Request)) (s : Simulator Dev Cmd) :
    Option (Simulator Dev Cmd) :=
  ((AiMMemorySystem.Op.tick :: plugins.map fun (channel, req) => .plugin channel req).foldlM
    (AiMMemorySystem.step iface p.memory) s.memory).map fun memory => { s with memory }

/-- An iteration of the loop; `none` where a tick throws, and behind the loop. -/
def iterate (plugins : List (Nat × Request)) (s : Simulator Dev Cmd) : Option (Simulator Dev Cmd) :=
  let tickMult := p.frontendTick * p.memTick
  if s.finished ∨ tickMult = 0 then none
  else
    (if s.i % tickMult % p.memTick = 0 then s.tickFrontend else some s).bind fun s =>
      if s.isFinished then some { s with finished := true }
      else
        (if s.i % tickMult % p.frontendTick = 0 then s.tickMemory iface p plugins
          else some s).map fun s => { s with i := s.i + 1 }

/-- The plugins cannot hand over the private callback of the DMA. -/
def OwnRequests (plugins : List (Nat × Request)) : Prop :=
  ∀ x ∈ plugins, x.2.callback ≠ .aimReceive

/-- The simulators reached from a trace by iterations that all meet a guard. -/
abbrev Run (delim : Char) (text : List Char) (dram : Dev)
    (guard : Simulator Dev Cmd → List (Nat × Request) → Prop) : Simulator Dev Cmd → Prop :=
  Runs.Reachable (fun s => s = init iface delim text dram)
    (fun s plugins t => s.iterate iface p plugins = some t) guard

end

variable {Dev Cmd : Type} [DecidableEq Cmd] {iface : IDRAM Dev Cmd} {p : SimulatorParams}
  {delim : Char} {text : List Char} {dram₀ : Dev} {s t : Simulator Dev Cmd}
  {plugins : List (Nat × Request)}

/-! ## The clocks -/

def ticksBefore (period i : Nat) : Nat := (i + period - 1) / period

theorem ticksBefore_zero (period : Nat) : ticksBefore period 0 = 0 := by
  unfold ticksBefore
  rcases Nat.eq_zero_or_pos period with rfl | hpos
  · rfl
  · exact Nat.div_eq_of_lt (by omega)

theorem ticksBefore_succ {period : Nat} (hpos : 0 < period) (i : Nat) :
    ticksBefore period (i + 1) = ticksBefore period i + if i % period = 0 then 1 else 0 := by
  have hdiv := Nat.div_add_mod i period
  have hlt := Nat.mod_lt i hpos
  have hnext : (i + 1 + period - 1) / period = i / period + 1 := by
    rw [Nat.add_right_comm, Nat.add_sub_cancel, Nat.add_div_right _ hpos]
  have hbefore : (i + period - 1) / period = i / period + if i % period = 0 then 0 else 1 := by
    rw [Nat.mul_comm] at hdiv
    split
    · exact Nat.div_eq_of_lt_le (by rw [Nat.add_zero]; omega) (by rw [Nat.succ_mul]; omega)
    · exact Nat.div_eq_of_lt_le (by rw [Nat.succ_mul]; omega)
        (by rw [Nat.succ_mul, Nat.succ_mul]; omega)
  unfold ticksBefore
  rw [hnext, hbefore]
  split <;> rfl

omit [DecidableEq Cmd] in
theorem tickFrontend_cases (h : s.tickFrontend = some t) :
    ∃ reader, s.reader.fetch = .ok reader ∧ t.i = s.i ∧ t.finished = s.finished ∧
      t.frontendTicks = s.frontendTicks + 1 ∧
      ((reader.remainingReq = none ∧ t.reader = reader ∧ t.memory = s.memory) ∨
        ∃ req sent host, reader.remainingReq = some req ∧
          s.memory.host.send req = some (sent, host) ∧ t.reader = (reader.offer sent).1 ∧
            t.memory = { s.memory with host }) := by
  unfold tickFrontend at h
  split at h
  · cases h
  · next reader hfetch =>
      refine ⟨reader, hfetch, ?_⟩
      split at h
      · next hnone =>
          rw [← Option.some.inj h]
          exact ⟨rfl, rfl, rfl, .inl ⟨hnone, rfl, rfl⟩⟩
      · next req hreq =>
          obtain ⟨⟨sent, host⟩, hsend, rfl⟩ := Option.map_eq_some_iff.mp h
          exact ⟨rfl, rfl, rfl, .inr ⟨req, sent, host, hreq, hsend, rfl, rfl⟩⟩

theorem iterate_cases (h : s.iterate iface p plugins = some t) :
    s.finished = false ∧ p.frontendTick * p.memTick ≠ 0 ∧
      ∃ u, (if s.i % p.memTick = 0 then s.tickFrontend else some s) = some u ∧
        ((u.isFinished = true ∧ t = { u with finished := true }) ∨
          ∃ v, u.isFinished = false ∧
            (if u.i % p.frontendTick = 0 then u.tickMemory iface p plugins else some u) = some v ∧
              t = { v with i := v.i + 1 }) := by
  unfold iterate at h
  dsimp only at h
  split at h
  · cases h
  · next hrunning =>
      rw [not_or] at hrunning
      refine ⟨Bool.not_eq_true _ ▸ hrunning.1, hrunning.2, ?_⟩
      rw [Nat.mod_mul_left_mod] at h
      obtain ⟨u, hu, h⟩ := Option.bind_eq_some_iff.mp h
      refine ⟨u, hu, ?_⟩
      split at h
      · next hdone => exact .inl ⟨hdone, (Option.some.inj h).symm⟩
      · next hdone =>
          rw [Nat.mod_mul_right_mod] at h
          obtain ⟨v, hv, rfl⟩ := Option.map_eq_some_iff.mp h
          exact .inr ⟨v, Bool.not_eq_true _ ▸ hdone, hv, rfl⟩

/-- The tick of the memory system, and behind it whatever the requests of the plugins preserve. -/
theorem tickMemory_cases (h : s.tickMemory iface p plugins = some t) :
    ∃ memory, s.memory.step iface p.memory .tick = some memory ∧
      (∀ I : AiMMemorySystem Dev Cmd → Prop,
        (∀ m m' x, x ∈ plugins → I m → m.step iface p.memory (.plugin x.1 x.2) = some m' → I m') →
          I memory → I t.memory) ∧ t = { s with memory := t.memory } := by
  obtain ⟨last, hops, rfl⟩ := Option.map_eq_some_iff.mp h
  rw [List.foldlM_cons] at hops
  obtain ⟨memory, hticked, hsteps⟩ := Option.bind_eq_some_iff.mp hops
  refine ⟨memory, hticked, fun I hplugin => ?_, rfl⟩
  clear h hops hticked
  induction plugins generalizing memory with
  | nil => exact fun hm => Option.some.inj hsteps ▸ hm
  | cons x plugins ih =>
      intro hm
      rw [List.map_cons, List.foldlM_cons] at hsteps
      obtain ⟨next, hfirst, hsteps⟩ := Option.bind_eq_some_iff.mp hsteps
      exact ih next hsteps (fun m m' y hy => hplugin m m' y (List.mem_cons_of_mem _ hy))
        (hplugin memory next x List.mem_cons_self hm hfirst)

/-! ### The clocks of the memory system -/

structure MemoryClocks (p : AiMParams) (clk : Nat) (m : AiMMemorySystem Dev Cmd) : Prop where
  dma : m.host.dma.clk = clk
  device : m.cycle = ticksBefore p.clockRatio clk

namespace MemoryClocks

variable {p : AiMParams} {m m' : AiMMemorySystem Dev Cmd} {clk : Nat}

omit [DecidableEq Cmd] in
theorem send {req : Request} {sent : Bool} {host : Dma.System (Logged Cmd)}
    (hm : MemoryClocks p clk m) (h : m.host.send req = some (sent, host)) :
    MemoryClocks p clk { m with host } := by
  refine ⟨?_, hm.device⟩
  obtain ⟨u, full, rw, aim, rfl | rfl, rfl⟩ := Dma.System.send_cases h
  · exact hm.dma
  · exact hm.dma

theorem plugin {channel : Nat} {req : Request} (hm : MemoryClocks p clk m)
    (h : m.step iface p (.plugin channel req) = some m') : MemoryClocks p clk m' := by
  unfold AiMMemorySystem.step at h
  dsimp only at h
  split at h
  · obtain ⟨c, -, rfl⟩ := Option.map_eq_some_iff.mp h
    exact ⟨hm.dma, hm.device⟩
  · cases h

theorem tick (hm : MemoryClocks p clk m) (h : m.step iface p .tick = some m') :
    MemoryClocks p (clk + 1) m' := by
  obtain ⟨host, hhost, h⟩ := Option.bind_eq_some_iff.mp h
  have hticked : host.Delivers (fun _ => True) (fun _ _ => True) (fun _ _ => True)
      ((clk + 1 : Nat) : Int) := by
    have hstart : m.host.Delivers (fun _ => True) (fun _ _ => True) (fun _ _ => True)
        (clk : Int) :=
      ⟨hm.dma, fun _ _ => trivial, fun _ => trivial, fun _ _ _ => trivial⟩
    exact hstart.tick (fun _ _ _ _ _ _ _ _ => trivial) (fun _ _ _ _ _ _ _ _ => trivial) hhost
  split at h
  · cases h
  · next hratio =>
      have hsucc := ticksBefore_succ (Nat.pos_of_ne_zero hratio) clk
      rw [hm.dma] at h
      split at h
      · next hzero =>
          obtain ⟨⟨controllers, dram, turns⟩, -, h⟩ := Option.bind_eq_some_iff.mp h
          obtain ⟨host', hcalls, rfl⟩ := Option.map_eq_some_iff.mp h
          rw [if_pos (by omega)] at hsucc
          refine ⟨?_, ?_⟩
          · refine (AiMMemorySystem.callbacks_induct (I := fun host =>
              host.Delivers (fun _ => True) (fun _ _ => True) (fun _ _ => True)
                ((clk + 1 : Nat) : Int)) ?_ hcalls
              ⟨hticked.clock, hticked.hosts, fun _ => trivial, hticked.waiting⟩).clock
            exact fun host host' copy _ hI hfire => AiMMemorySystem.fire_delivers hI hfire
          · show m.cycle + 1 = _
            rw [hsucc, hm.device]
            rfl
      · next hzero =>
          obtain rfl := Option.some.inj h
          rw [if_neg (by omega)] at hsucc
          exact ⟨hticked.clock, by rw [hsucc]; exact hm.device⟩

end MemoryClocks

/-- The three clocks in front of an iteration.  Iteration `i` ticks the front end before it can
leave the loop, so that behind the loop the multiples of `mem_tick` up to `i` count. -/
structure Clocks (p : SimulatorParams) (s : Simulator Dev Cmd) : Prop where
  frontend : s.frontendTicks = ticksBefore p.memTick (s.i + s.finished.toNat)
  memory : MemoryClocks p.memory (ticksBefore p.frontendTick s.i) s.memory

omit [DecidableEq Cmd] in
theorem Clocks.tickFrontend (hs : Clocks p s) (hrunning : s.finished = false)
    (hmem : 0 < p.memTick) (hu : (if s.i % p.memTick = 0 then s.tickFrontend else some s) = some t) :
    t.i = s.i ∧ t.finished = false ∧ t.frontendTicks = ticksBefore p.memTick (s.i + 1) ∧
      MemoryClocks p.memory (ticksBefore p.frontendTick s.i) t.memory := by
  have hfrontend := hs.frontend
  rw [hrunning, Bool.toNat_false, Nat.add_zero] at hfrontend
  rw [ticksBefore_succ hmem, ← hfrontend]
  split at hu
  · next hdue =>
      rw [if_pos hdue]
      obtain ⟨reader, -, hi, hfinished, hticks, hsent⟩ := tickFrontend_cases hu
      refine ⟨hi, hfinished.trans hrunning, hticks, ?_⟩
      rcases hsent with ⟨-, -, hmemory⟩ | ⟨req, sent, host, -, hsend, -, hmemory⟩
      · rw [hmemory]
        exact hs.memory
      · rw [hmemory]
        exact hs.memory.send hsend
  · next hdue =>
      obtain rfl := Option.some.inj hu
      rw [if_neg hdue]
      exact ⟨rfl, hrunning, rfl, hs.memory⟩

theorem Clocks.iterate (hs : Clocks p s) (h : s.iterate iface p plugins = some t) : Clocks p t := by
  obtain ⟨hrunning, hmult, u, hu, hcases⟩ := iterate_cases h
  have hmem : 0 < p.memTick := Nat.pos_of_ne_zero fun hzero => hmult (by rw [hzero, Nat.mul_zero])
  have hfront : 0 < p.frontendTick :=
    Nat.pos_of_ne_zero fun hzero => hmult (by rw [hzero, Nat.zero_mul])
  obtain ⟨hi, hfinished, hticks, hmemory⟩ := hs.tickFrontend hrunning hmem hu
  rcases hcases with ⟨-, rfl⟩ | ⟨v, -, hv, rfl⟩
  · exact ⟨by rw [hticks, ← hi]; rfl, by rw [hi]; exact hmemory⟩
  · have hsucc := ticksBefore_succ hfront s.i
    rw [hi] at hv
    split at hv
    · next hdue =>
        rw [if_pos hdue] at hsucc
        obtain ⟨memory, hticked, hplugins, hv⟩ := tickMemory_cases hv
        have hclocks := hplugins (MemoryClocks p.memory (ticksBefore p.frontendTick s.i + 1))
          (fun m m' x _ hm hstep => hm.plugin hstep) (hmemory.tick hticked)
        rw [hv]
        refine ⟨?_, ?_⟩
        · dsimp only
          rw [hfinished, hticks, hi]
          rfl
        · dsimp only
          rw [hi, hsucc]
          exact hclocks
    · next hdue =>
        rw [if_neg hdue] at hsucc
        obtain rfl := Option.some.inj hv
        refine ⟨?_, ?_⟩
        · dsimp only
          rw [hfinished, hticks, hi]
          rfl
        · dsimp only
          rw [hi, hsucc]
          exact hmemory

/-- Two iterations of the loop for each tick of the memory system. -/
def x16Simulator : SimulatorParams := ⟨2, 1, AiMMemorySystem.x16Params⟩

/-- A write, the end of the attention phase and the `EOC`. -/
def attentionTrace : List Char :=
  "W MEM 1 1 5\n# PHASE attention_end\nAiM EOC\n".toList

def attentionRun (iterations : Nat) : Option (Simulator GDDR6.aimModel.Dev GDDR6.Cmd) :=
  Runs.replay (fun s plugins => s.iterate GDDR6.aimModel.idram x16Simulator plugins)
    (fun _ _ => true)
    (init GDDR6.aimModel.idram ' ' attentionTrace GDDR6.x16Device) (List.replicate iterations [])

theorem attentionRun_reached {iterations : Nat} {s : Simulator GDDR6.aimModel.Dev GDDR6.Cmd}
    (h : attentionRun iterations = some s) :
    Run GDDR6.aimModel.idram x16Simulator ' ' attentionTrace GDDR6.x16Device
      (fun _ plugins => OwnRequests plugins) s := by
  refine Runs.replay_reachable_of_mem (fun plugins hplugins _ _ => ?_) (.start rfl) h
  rw [(List.mem_replicate.mp hplugins).2]
  exact fun x hx => absurd hx List.not_mem_nil

/-- In front of iteration `i` the front end has ticked once for each multiple of `mem_tick` below
`i` (below `i + 1` where iteration `i` has left the loop), the memory system once for each multiple
of `frontend_tick` below `i`, and the device once for each multiple of its clock ratio below the
clock of the memory system. -/
theorem clock_domains (hr : Run iface p delim text dram₀ (fun _ _ => True) s) :
    s.frontendTicks = ticksBefore p.memTick (s.i + s.finished.toNat) ∧
      s.memory.host.dma.clk = ticksBefore p.frontendTick s.i ∧
        s.memory.cycle = ticksBefore p.memory.clockRatio (ticksBefore p.frontendTick s.i) := by
  have hclocks : Clocks p s := by
    refine hr.invariant ?_ fun s plugins t hs _ hstep => hs.iterate hstep
    rintro s rfl
    refine ⟨?_, ?_, ?_⟩
    · exact (ticksBefore_zero p.memTick).symm
    · exact congrArg Int.ofNat (ticksBefore_zero p.frontendTick).symm
    · rw [show (init iface delim text dram₀ : Simulator Dev Cmd).i = 0 from rfl, ticksBefore_zero,
        ticksBefore_zero]
      rfl
  exact ⟨hclocks.frontend, hclocks.memory.dma, hclocks.memory.device⟩

/-- At the end of a trace the front end has ticked twice as often as the memory system. -/
theorem clock_domains_attention :
    ∃ s : Simulator GDDR6.aimModel.Dev GDDR6.Cmd, s.finished = true ∧ s.i = 9 ∧
      s.frontendTicks = 10 ∧ s.memory.host.dma.clk = 5 ∧ s.memory.cycle = 5 := by
  have hrun : ((attentionRun 10).any fun s => s.finished && s.i == 9) = true := by
    decide +kernel
  obtain ⟨s, hs, htest⟩ := Option.any_eq_true .. |>.mp hrun
  obtain ⟨hfinished, hi⟩ := Bool.and_eq_true_iff.mp htest
  have hi : s.i = 9 := eq_of_beq hi
  obtain ⟨hfrontend, hdma, hcycle⟩ :=
    clock_domains ((attentionRun_reached hs).mono fun _ _ _ => trivial)
  rw [hi, hfinished] at hfrontend
  rw [hi] at hdma hcycle
  exact ⟨s, hfinished, hi, hfrontend, hdma, hcycle⟩

/-! ## The execution of a trace -/

theorem tick_enqueued {m m' : AiMMemorySystem Dev Cmd} (h : m.step iface p.memory .tick = some m') :
    Dma.enqueued m'.host.log = Dma.enqueued m.host.log := by
  obtain ⟨host, hhost, hcases⟩ := AiMMemorySystem.tick_stages h
  have hticked := Dma.System.tick_enqueued hhost
  rcases hcases with rfl | ⟨controllers, dram, turns, host', -, hcalls, rfl⟩
  · exact hticked
  · refine .trans ?_ hticked
    exact AiMMemorySystem.callbacks_induct
      (I := fun u => Dma.enqueued u.log = Dma.enqueued host.log)
      (fun u u' copy _ hu hfire => (Dma.System.receive_enqueued hfire).trans hu) hcalls rfl

theorem plugin_enqueued {m m' : AiMMemorySystem Dev Cmd} {channel : Nat} {req : Request}
    (h : m.step iface p.memory (.plugin channel req) = some m') :
    Dma.enqueued m'.host.log = Dma.enqueued m.host.log := by
  unfold AiMMemorySystem.step at h
  dsimp only at h
  split at h
  · obtain ⟨c, -, rfl⟩ := Option.map_eq_some_iff.mp h
    rfl
  · cases h

/-- The memory system is in a run of its own, and the host requests that it accepted are the
instructions of the lines that were read, the one in hand apart. -/
structure Executing (iface : IDRAM Dev Cmd) (p : SimulatorParams) (delim : Char) (text : List Char)
    (dram₀ : Dev) (s : Simulator Dev Cmd) : Prop where
  run : AiMMemorySystem.Run iface p.memory dram₀ (fun _ op => AiMMemorySystem.OwnCallbacks op)
    s.memory
  read : ∃ consumed, AiMTraceReader.HasRead delim (TraceFile.ofText text).lines consumed s.reader
    (Dma.enqueued s.memory.host.log)
  ended : s.finished = true → s.isFinished = true

namespace Executing

theorem tickFrontend (hs : Executing iface p delim text dram₀ s) (hrunning : s.finished = false)
    (h : s.tickFrontend = some t) : Executing iface p delim text dram₀ t := by
  obtain ⟨reader, hfetch, -, hfinished, -, hsent⟩ := tickFrontend_cases h
  obtain ⟨consumed, hread⟩ := hs.read
  obtain ⟨consumed', hread', -⟩ := hread.fetch hfetch
  have hended : t.finished = true → t.isFinished = true := fun hend => by
    rw [hfinished, hrunning] at hend
    cases hend
  rcases hsent with ⟨-, hreader, hmemory⟩ | ⟨req, sent, host, hreq, hsend, hreader, hmemory⟩
  · refine ⟨by rw [hmemory]; exact hs.run, ⟨consumed', ?_⟩, hended⟩
    rw [hreader, hmemory]
    exact hread'
  · have hmem : req ∈ instructions delim 0 consumed' := by
      rw [← hread'.sent, hreq]
      exact List.mem_append_right _ List.mem_cons_self
    refine ⟨?_, ⟨consumed', ?_⟩, hended⟩
    · rw [hmemory]
      exact hs.run.next (l := .host req) (instructions_callback hmem).1
        (Option.map_eq_some_iff.mpr ⟨_, hsend, rfl⟩)
    · rw [hreader, hmemory]
      dsimp only
      rw [Dma.System.send_enqueued hsend]
      have hoffer := hread'.offer sent
      cases sent with
      | false => exact hoffer
      | true =>
          rw [show (reader.offer true).2 = reader.remainingReq from rfl, hreq] at hoffer
          exact hoffer

theorem tickMemory (hs : Executing iface p delim text dram₀ s) (hrunning : s.finished = false)
    (hown : OwnRequests plugins) (h : s.tickMemory iface p plugins = some t) :
    Executing iface p delim text dram₀ t := by
  obtain ⟨memory, hticked, hplugins, ht⟩ := tickMemory_cases h
  obtain ⟨hrun, henqueued⟩ := hplugins (fun m => AiMMemorySystem.Run iface p.memory dram₀
      (fun _ op => AiMMemorySystem.OwnCallbacks op) m ∧
        Dma.enqueued m.host.log = Dma.enqueued s.memory.host.log)
    (fun m m' x hx hm hstep => ⟨hm.1.next (l := .plugin x.1 x.2) (hown x hx) hstep,
      (plugin_enqueued hstep).trans hm.2⟩)
    ⟨hs.run.next (l := .tick) trivial hticked, tick_enqueued hticked⟩
  refine ⟨hrun, ?_, fun hend => ?_⟩
  · rw [henqueued, ht]
    exact hs.read
  · rw [ht, hrunning] at hend
    cases hend

theorem iterate (hs : Executing iface p delim text dram₀ s) (hown : OwnRequests plugins)
    (h : s.iterate iface p plugins = some t) : Executing iface p delim text dram₀ t := by
  obtain ⟨hrunning, -, u, hu, hcases⟩ := iterate_cases h
  have hticked : Executing iface p delim text dram₀ u ∧ u.finished = false := by
    split at hu
    · obtain ⟨-, -, -, hfinished, -⟩ := tickFrontend_cases hu
      exact ⟨hs.tickFrontend hrunning hu, hfinished.trans hrunning⟩
    · rw [← Option.some.inj hu]
      exact ⟨hs, hrunning⟩
  obtain ⟨hu, hgoes⟩ := hticked
  rcases hcases with ⟨hdone, rfl⟩ | ⟨v, -, hv, rfl⟩
  · exact ⟨hu.run, hu.read, fun _ => hdone⟩
  · split at hv
    · have hv := hu.tickMemory hgoes hown hv
      exact ⟨hv.run, hv.read, hv.ended⟩
    · rw [← Option.some.inj hv]
      exact ⟨hu.run, hu.read, hu.ended⟩

end Executing

theorem run_executing (hr : Run iface p delim text dram₀ (fun _ plugins => OwnRequests plugins) s) :
    Executing iface p delim text dram₀ s := by
  refine hr.invariant ?_ fun s plugins t hs hown hstep => hs.iterate hown hstep
  rintro s rfl
  exact ⟨.start rfl, ⟨[], .init delim text⟩, nofun⟩

/-- In every run of the simulator over a trace the memory system has retired the first
instructions of the trace in their order, each decoded, called back and removed before the next
is decoded; behind them come those in its queue and the one that the front end offers. -/
theorem trace_executed
    (hr : Run iface p delim text dram₀ (fun _ plugins => OwnRequests plugins) s) :
    ∃ consumed done, (TraceFile.ofText text).lines = consumed ++ s.reader.file.lines ∧
      instructions delim 0 consumed =
        done ++ s.memory.host.dma.requestQueue ++ s.reader.remainingReq.toList ∧
      Dma.phases s.memory.host.log =
        done.flatMap Dma.life ++ s.memory.host.opened.map .decoded := by
  have hs := run_executing hr
  obtain ⟨consumed, hread⟩ := hs.read
  obtain ⟨⟨done, henqueued, hphases⟩, -⟩ :=
    Dma.System.run_retires (AiMMemorySystem.run_accounted hs.run).run
  exact ⟨consumed, done, hread.lines_eq, by rw [← hread.sent, henqueued], hphases⟩

/-- All lines are read, the barrier of the phase is done, and the `EOC` was decoded. -/
theorem trace_executed_attention :
    ∃ s : Simulator GDDR6.aimModel.Dev GDDR6.Cmd, s.memory.host.opened.length = 1 ∧
      s.memory.host.dma.requestQueue.length = 1 ∧
      ∃ consumed done, (TraceFile.ofText attentionTrace).lines =
          consumed ++ s.reader.file.lines ∧
        instructions ' ' 0 consumed =
          done ++ s.memory.host.dma.requestQueue ++ s.reader.remainingReq.toList ∧
        Dma.phases s.memory.host.log =
          done.flatMap Dma.life ++ s.memory.host.opened.map .decoded := by
  have hrun : ((attentionRun 7).any fun s => s.memory.host.opened.length == 1 &&
      s.memory.host.dma.requestQueue.length == 1) = true := by
    decide +kernel
  obtain ⟨s, hs, htest⟩ := Option.any_eq_true .. |>.mp hrun
  obtain ⟨hopened, hqueue⟩ := Bool.and_eq_true_iff.mp htest
  exact ⟨s, eq_of_beq hopened, eq_of_beq hqueue, trace_executed (attentionRun_reached hs)⟩

theorem mem_of_calledBack {host : Request} {done opened : List Request}
    (h : Dma.Phase.calledBack host ∈ done.flatMap Dma.life ++ opened.map .decoded) :
    host ∈ done := by
  rcases List.mem_append.mp h with h | h
  · obtain ⟨req, hreq, hlife⟩ := List.mem_flatMap.mp h
    unfold Dma.life at hlife
    split at hlife
    · simp at hlife
    · simp only [List.cons_append, List.nil_append, List.mem_cons, reduceCtorEq,
        Dma.Phase.calledBack.injEq, List.not_mem_nil, or_false, false_or] at hlife
      exact hlife ▸ hreq
  · obtain ⟨req, -, heq⟩ := List.mem_map.mp h
    cases heq

omit [DecidableEq Cmd] in
theorem isFinished_calledBack (h : s.isFinished = true) :
    ∃ host, Dma.Phase.calledBack host ∈ Dma.phases s.memory.host.log ∧
      host.callback = .frontEnd 1 := by
  obtain ⟨event, hmem, hevent⟩ := List.any_eq_true.mp h
  cases event with
  | callback host arg =>
      exact ⟨host, List.mem_filterMap.mpr ⟨_, hmem, rfl⟩, eq_of_beq hevent⟩
  | _ => cases hevent

theorem all_done {before : List (List Char)} {eoc : List Char} {done rest : List Request}
    {host : Request} (hbefore : ∀ l ∈ before, ¬ IsEOC delim l) (heoc : IsEOC delim eoc)
    (hdone : host ∈ done) (hend : host.callback = .frontEnd 1)
    (h : instructions delim 0 (before ++ [eoc]) = done ++ rest) : rest = [] := by
  obtain ⟨req, hreq, -⟩ := heoc
  have hlast : instructions delim 0 (before ++ [eoc]) = instructions delim 0 before ++
      [{ req with hostReqId := 0 + ((instructions delim 0 before).length : Int) }] := by
    rw [instructions_append]
    refine congrArg _ (instructions_some ?_)
    rw [instructionOf, hreq]
  rcases List.eq_nil_or_concat rest with hnil | ⟨init, last, rfl⟩
  · exact hnil
  · rw [hlast, List.concat_eq_append, ← List.append_assoc] at h
    have hfirst := (List.append_inj' h rfl).1
    have hmem : host ∈ instructions delim 0 before := by
      rw [hfirst]
      exact List.mem_append_left _ hdone
    obtain ⟨l, hl, hisEOC⟩ := (instructions_callback hmem).2 hend
    exact absurd hisEOC (hbefore l hl)

/-- When the loop ends, the lines up to the first `EOC` have been read and no further one, and
each of their instructions was decoded, called back and removed before the next was decoded;
nothing is left in the front end or in the queue of the DMA, no copy of it waits, and no
controller holds one that calls back. -/
theorem trace_finished
    (hr : Run iface p delim text dram₀ (fun _ plugins => OwnRequests plugins) s)
    (hfinished : s.finished = true) :
    ∃ before eoc, (TraceFile.ofText text).lines = before ++ eoc :: s.reader.file.lines ∧
      IsEOC delim eoc ∧ (∀ l ∈ before, ¬ IsEOC delim l) ∧
      Dma.phases s.memory.host.log =
        (instructions delim 0 (before ++ [eoc])).flatMap Dma.life ∧
      s.reader.remainingReq = none ∧ s.memory.host.dma.requestQueue = [] ∧
      s.memory.host.Idle ∧
      copiesHeld p.memory.system.numControllers s.memory.host.controllers = [] := by
  have hs := run_executing hr
  have haccounted := AiMMemorySystem.run_accounted hs.run
  obtain ⟨consumed, hread⟩ := hs.read
  obtain ⟨⟨done, henqueued, hphases⟩, -⟩ := Dma.System.run_retires haccounted.run
  obtain ⟨host, hcalled, hend⟩ := isFinished_calledBack (hs.ended hfinished)
  rw [hphases] at hcalled
  have hdone := mem_of_calledBack hcalled
  have hsent := hread.sent
  rw [henqueued, List.append_assoc] at hsent
  have hmem : host ∈ instructions delim 0 consumed := by
    rw [← hsent]
    exact List.mem_append_left _ hdone
  obtain ⟨line, hline, hisEOC⟩ := (instructions_callback hmem).2 hend
  have hstopped : s.reader.reachedEOC = true := Bool.of_not_eq_false fun hrunning =>
    hread.running hrunning line hline hisEOC
  obtain ⟨before, eoc, rfl, heoc, hbefore⟩ := hread.stopped hstopped
  have hrest := all_done hbefore heoc hdone hend hsent.symm
  obtain ⟨hqueue, hremaining⟩ := List.append_eq_nil_iff.mp hrest
  have hnone : s.reader.remainingReq = none := Option.toList_eq_nil_iff.mp hremaining
  obtain ⟨b, hdelivering⟩ := (Dma.System.run_retiring haccounted.run).delivering
  have hnocopy : ∀ copy, ¬ (copy ∈ s.memory.host.inFlight ∨ copy ∈ s.memory.host.waiting) := by
    intro copy hcopy
    obtain ⟨head, queue, hhead, -⟩ := hdelivering.owner copy hcopy
    rw [hqueue] at hhead
    cases hhead
  have hflight : s.memory.host.inFlight = [] :=
    List.eq_nil_iff_forall_not_mem.mpr fun copy hcopy => hnocopy copy (.inl hcopy)
  have hwaiting : s.memory.host.waiting = [] :=
    List.eq_nil_iff_forall_not_mem.mpr fun copy hcopy => hnocopy copy (.inr hcopy)
  have hidle : s.memory.host.Idle := by
    refine ⟨?_, hwaiting⟩
    rw [hdelivering.stalled, Dma.System.unfired, hflight, hwaiting]
    rfl
  refine ⟨before, eoc, ?_, heoc, hbefore, ?_, hnone, hqueue, hidle, ?_⟩
  · rw [hread.lines_eq, List.append_assoc]
    rfl
  · rw [hphases, Dma.System.opened, if_pos hidle, ← hsent, hrest, List.append_nil]
    exact List.append_nil _
  · have hheld := haccounted.flight
    rw [hflight] at hheld
    exact List.nil_perm.mp hheld

/-- The write, the barrier and the `EOC` are all done. -/
theorem trace_finished_attention :
    ∃ s : Simulator GDDR6.aimModel.Dev GDDR6.Cmd, (Dma.phases s.memory.host.log).length = 8 ∧
      s.memory.host.dma.requestQueue = [] ∧ ∃ before eoc, IsEOC ' ' eoc ∧
        Dma.phases s.memory.host.log =
          (instructions ' ' 0 (before ++ [eoc])).flatMap Dma.life := by
  have hrun : ((attentionRun 10).any fun s => s.finished &&
      (Dma.phases s.memory.host.log).length == 8) = true := by
    decide +kernel
  obtain ⟨s, hs, htest⟩ := Option.any_eq_true .. |>.mp hrun
  obtain ⟨hfinished, hphases⟩ := Bool.and_eq_true_iff.mp htest
  obtain ⟨before, eoc, -, heoc, -, hlives, -, hqueue, -⟩ :=
    trace_finished (attentionRun_reached hs) hfinished
  exact ⟨s, eq_of_beq hphases, hqueue, before, eoc, heoc, hlives⟩

end Simulator

end AimSimulator
