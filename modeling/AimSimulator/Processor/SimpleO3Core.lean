import AimSimulator.Base.Request
import AimSimulator.Lib.Cyclic
import AimSimulator.Processor.InstWindow
/-!
# The simple core

`SimpleO3Core` of `processor/simpleO3/core.cpp`: the trace, a tick of the core, and the answer of
the memory.  What the translation and the LLC answer in a tick is an argument of the tick.
-/

namespace AimSimulator.Processor

/-- `Trace::Inst`; a store address of `-1` is no store. -/
structure Inst where
  bubbleCount : Int := 0
  loadAddr : Int := -1
  storeAddr : Int := -1
  deriving DecidableEq, Repr

structure Trace where
  insts : List Inst
  currTraceIdx : Nat := 0
  idx_lt : currTraceIdx < insts.length

def Trace.getNextInst (t : Trace) : Inst × Trace :=
  (t.insts.get ⟨t.currTraceIdx, t.idx_lt⟩,
    { t with
      currTraceIdx := (t.currTraceIdx + 1) % t.insts.length
      idx_lt := Nat.mod_lt _ (Nat.zero_lt_of_lt t.idx_lt) })

/-- What a tick does: a bubble is inserted, or the LLC accepts the request that the translation has
made of the load or of the writeback of an address of the trace. -/
inductive Event
  | bubble
  | load (addr : Int) (req : Request)
  | writeback (addr : Int) (req : Request)
  deriving DecidableEq, Repr

/-- What `translate` and `send` of the LLC answer in a tick. -/
structure Answers where
  translate : Request → Option Request
  send : Request → Bool

structure SimpleO3Core where
  id : Int
  trace : Trace
  window : InstWindow
  callback : Callback := .empty
  clk : Int := 0
  numBubbles : Int := 0
  loadAddr : Int := -1
  writebackAddr : Int := -1
  numExpectedInsts : Nat
  lastMemCycle : Int := 0
  reachedExpectedNumInsts : Bool := false
  instsRetired : Nat := 0
  cyclesRecorded : Int := 0
  memAccessCycles : Int := 0

namespace SimpleO3Core

def fetch (c : SimpleO3Core) : SimpleO3Core :=
  { c with
    trace := c.trace.getNextInst.2
    numBubbles := c.trace.getNextInst.1.bubbleCount
    loadAddr := c.trace.getNextInst.1.loadAddr
    writebackAddr := c.trace.getNextInst.1.storeAddr }

def new (id ipc : Int) (depth numExpectedInsts : Nat) (trace : Trace) : SimpleO3Core :=
  fetch { id, trace, window := InstWindow.new ipc depth, numExpectedInsts }

def request (c : SimpleO3Core) (addr : Int) (type : ReqType) (typeId : Int) : Request where
  addr
  type
  typeId
  sourceId := c.id
  callback := c.callback

/-- The first part of `tick`: the clock and the instructions that retire. -/
def retire (c : SimpleO3Core) : SimpleO3Core :=
  let c :=
    { c with
      clk := c.clk + 1
      window := c.window.retire.1
      instsRetired := c.instsRetired + c.window.retire.2 }
  if c.reachedExpectedNumInsts = false ∧ c.numExpectedInsts ≤ c.instsRetired then
    { c with reachedExpectedNumInsts := true, cyclesRecorded := c.clk }
  else c

/-- The loop over the bubbles, of which the first number are left; the other counts the
instructions inserted in this tick.  Where bubbles are left the tick returns. -/
def issueBubbles (c : SimpleO3Core) : Nat → Nat → SimpleO3Core × Nat
  | 0, numInserted => (c, numInserted)
  | left + 1, numInserted =>
      if (numInserted : Int) = c.window.ipc then (c, numInserted)
      else if c.window.isFull then (c, numInserted)
      else
        issueBubbles
          { c with window := c.window.insert true (-1), numBubbles := c.numBubbles - 1 } left
          (numInserted + 1)

def issueWriteback (c : SimpleO3Core) (answers : Answers) : SimpleO3Core × List Event :=
  if c.writebackAddr ≠ -1 then
    match answers.translate (c.request c.writebackAddr .Write 1) with
    | none => (c, [])
    | some req =>
        if answers.send req then (c.fetch, [.writeback c.writebackAddr req]) else (c, [])
  else (c.fetch, [])

def loaded (c : SimpleO3Core) (req : Request) : SimpleO3Core :=
  { c with window := c.window.insert false req.addr, loadAddr := -1 }

def issueLoad (c : SimpleO3Core) (answers : Answers) (numInserted : Nat) :
    SimpleO3Core × List Event :=
  if c.loadAddr ≠ -1 then
    if (numInserted : Int) = c.window.ipc then (c, [])
    else if c.window.isFull then (c, [])
    else
      match answers.translate (c.request c.loadAddr .Read 0) with
      | none => (c, [])
      | some req =>
          if answers.send req then
            if c.writebackAddr ≠ -1 then (c.loaded req, [.load c.loadAddr req])
            else
              (((c.loaded req).issueWriteback answers).1,
                [.load c.loadAddr req] ++ ((c.loaded req).issueWriteback answers).2)
          else (c, [])
  else c.issueWriteback answers

def tick (c : SimpleO3Core) (answers : Answers) : SimpleO3Core × List Event :=
  let c := c.retire
  let (c, numInserted) := c.issueBubbles c.numBubbles.toNat 0
  let bubbles := List.replicate numInserted .bubble
  if 0 < c.numBubbles then (c, bubbles)
  else
    ((c.issueLoad answers numInserted).1, bubbles ++ (c.issueLoad answers numInserted).2)

def receive (c : SimpleO3Core) (req : Request) (arrive depart : Int) : SimpleO3Core :=
  let c := { c with window := c.window.setReady req.addr }
  if arrive ≠ -1 ∧ c.lastMemCycle < depart ∧ c.reachedExpectedNumInsts = false then
    { c with
      memAccessCycles := c.memAccessCycles + (depart - max c.lastMemCycle arrive)
      lastMemCycle := depart }
  else c

end SimpleO3Core

inductive CoreOp
  | tick (answers : Answers)
  | receive (req : Request) (arrive depart : Int)

def SimpleO3Core.step (c : SimpleO3Core) : CoreOp → Option (SimpleO3Core × List Event)
  | .tick answers => some (c.tick answers)
  | .receive req arrive depart => some (c.receive req arrive depart, [])

/-! ## The items of a trace -/

inductive Item
  | bubble
  | load (addr : Int)
  | writeback (addr : Int)
  deriving DecidableEq, Repr

def Event.item : Event → Item
  | .bubble => .bubble
  | .load addr _ => .load addr
  | .writeback addr _ => .writeback addr

def Event.insert (window : InstWindow) : Event → InstWindow
  | .bubble => window.insert true (-1)
  | .load _ req => window.insert false req.addr
  | .writeback _ _ => window

/-- The request of an event is what the translation makes of the core's own, and the LLC accepts
it. -/
def Event.Accepted (owner : Int × Callback) (answers : Answers) : Event → Prop
  | .bubble => True
  | .load addr req =>
      answers.translate
          { addr, type := .Read, typeId := 0, sourceId := owner.1, callback := owner.2 } =
        some req ∧ answers.send req = true
  | .writeback addr req =>
      answers.translate
          { addr, type := .Write, typeId := 1, sourceId := owner.1, callback := owner.2 } =
        some req ∧ answers.send req = true

def storeItems (addr : Int) : List Item := if addr ≠ -1 then [.writeback addr] else []

def Inst.items (inst : Inst) : List Item :=
  List.replicate inst.bubbleCount.toNat .bubble ++ .load inst.loadAddr :: storeItems inst.storeAddr

/-- The items of the first `n` lines of a trace that starts again behind its last line. -/
def replayed (insts : List Inst) (n : Nat) : List Item :=
  (Cyclic.cycle insts n).flatMap Inst.items

namespace SimpleO3Core

variable {c c' : SimpleO3Core} {answers : Answers} {events : List Event}

def pending (c : SimpleO3Core) : List Item :=
  List.replicate c.numBubbles.toNat .bubble ++
    ((if c.loadAddr ≠ -1 then [.load c.loadAddr] else []) ++ storeItems c.writebackAddr)

/-- A part of a tick does the next items of its line, and stays in the line while there are
more of them or goes on to the next line behind the last of them. -/
inductive Advances (c : SimpleO3Core) (events : List Event) : SimpleO3Core → Prop
  | stays {c' : SimpleO3Core} : events.map Event.item ++ c'.pending = c.pending →
      c'.pending ≠ [] → c'.trace = c.trace → Advances c events c'
  | fetches {d : SimpleO3Core} : events.map Event.item = c.pending → d.trace = c.trace →
      Advances c events d.fetch

theorem Advances.trans_stays {done : List Event}
    (hdone : done.map Event.item ++ c'.pending = c.pending) (htrace : c'.trace = c.trace)
    {d : SimpleO3Core} (h : Advances c' events d) : Advances c (done ++ events) d := by
  cases h with
  | stays hevents hpending hsame =>
      refine .stays ?_ hpending (hsame.trans htrace)
      rw [List.map_append, List.append_assoc, hevents, hdone]
  | fetches hevents hsame =>
      refine .fetches ?_ (hsame.trans htrace)
      rw [List.map_append, hevents, hdone]

theorem pending_fetch (hload : c.trace.getNextInst.1.loadAddr ≠ -1) :
    c.fetch.pending = c.trace.getNextInst.1.items := by
  change _ ++ ((if c.trace.getNextInst.1.loadAddr ≠ -1 then _ else _) ++ _) = _
  rw [if_pos hload]
  rfl

theorem pending_retire : c.retire.pending = c.pending ∧ c.retire.trace = c.trace := by
  unfold retire
  dsimp only
  split <;> exact ⟨rfl, rfl⟩

theorem issueBubbles_spec {left : Nat} (hleft : c.numBubbles.toNat = left) (numInserted : Nat) :
    ∃ done, (c.issueBubbles left numInserted).2 = numInserted + done ∧
      List.replicate done .bubble ++ (c.issueBubbles left numInserted).1.pending = c.pending ∧
      (c.issueBubbles left numInserted).1.trace = c.trace := by
  induction left generalizing c numInserted with
  | zero => exact ⟨0, rfl, rfl, rfl⟩
  | succ left ih =>
      rw [issueBubbles]
      split
      · exact ⟨0, rfl, rfl, rfl⟩
      · split
        · exact ⟨0, rfl, rfl, rfl⟩
        · have hrest : (c.numBubbles - 1).toNat = left := by omega
          obtain ⟨done, hcount, hpending, htrace⟩ := ih
            (c := { c with window := c.window.insert true (-1), numBubbles := c.numBubbles - 1 })
            hrest (numInserted + 1)
          refine ⟨done + 1, by rw [hcount]; omega, ?_, htrace⟩
          rw [List.replicate_succ, List.cons_append, hpending, pending, pending, hleft]
          dsimp only
          rw [hrest, List.replicate_succ, List.cons_append]

theorem pending_of_bubbles (h : c.numBubbles ≤ 0) :
    c.pending =
      (if c.loadAddr ≠ -1 then [.load c.loadAddr] else []) ++ storeItems c.writebackAddr := by
  rw [pending, Int.toNat_of_nonpos h]
  rfl

theorem issueWriteback_advances (hbubbles : c.numBubbles ≤ 0) (hload : c.loadAddr = -1) :
    Advances c (c.issueWriteback answers).2 (c.issueWriteback answers).1 := by
  have hpending : c.pending = storeItems c.writebackAddr := by
    rw [pending_of_bubbles hbubbles, if_neg (not_not_intro hload), List.nil_append]
  unfold issueWriteback
  split
  · next hstore =>
      rw [storeItems, if_pos hstore] at hpending
      have hrefused : Advances c [] c := .stays rfl (by rw [hpending]; exact nofun) rfl
      split
      · exact hrefused
      · split
        · exact .fetches hpending.symm rfl
        · exact hrefused
  · next hnone =>
      rw [storeItems, if_neg hnone] at hpending
      exact .fetches hpending.symm rfl

theorem issueLoad_advances (hbubbles : c.numBubbles ≤ 0) (numInserted : Nat) :
    Advances c (c.issueLoad answers numInserted).2 (c.issueLoad answers numInserted).1 := by
  unfold issueLoad
  split
  · next hload =>
      have hpending : c.pending = .load c.loadAddr :: storeItems c.writebackAddr := by
        rw [pending_of_bubbles hbubbles, if_pos hload]
        rfl
      have hrefused : Advances c [] c := .stays rfl (by rw [hpending]; exact nofun) rfl
      split
      · exact hrefused
      · split
        · exact hrefused
        · split
          · exact hrefused
          · next req _ =>
              split
              · have hloaded : (c.loaded req).pending = storeItems c.writebackAddr :=
                  pending_of_bubbles hbubbles
                have hload : [Event.load c.loadAddr req].map Event.item ++ (c.loaded req).pending =
                    c.pending := by
                  rw [hloaded, hpending]
                  rfl
                split
                · next hstore =>
                    refine .stays hload ?_ rfl
                    rw [hloaded, storeItems, if_pos hstore]
                    exact nofun
                · have hrest : Advances (c.loaded req) ((c.loaded req).issueWriteback answers).2
                      ((c.loaded req).issueWriteback answers).1 :=
                    issueWriteback_advances hbubbles rfl
                  exact hrest.trans_stays hload rfl
              · exact hrefused
  · next hload => exact issueWriteback_advances hbubbles (Classical.not_not.mp hload)

theorem tick_advances : Advances c (c.tick answers).2 (c.tick answers).1 := by
  obtain ⟨hpending, htrace⟩ := pending_retire (c := c)
  obtain ⟨done, hcount, hbubbles, hsame⟩ := issueBubbles_spec (c := c.retire) rfl 0
  rw [Nat.zero_add] at hcount
  rw [hpending, ← Event.item, ← List.map_replicate] at hbubbles
  rw [htrace] at hsame
  unfold tick
  dsimp only
  rw [hcount]
  split
  · next hleft =>
      refine .stays hbubbles ?_ hsame
      rw [pending, ← Nat.succ_pred (Nat.ne_of_gt (Int.lt_toNat.mpr hleft)), List.replicate_succ]
      exact nofun
  · next hnone =>
      exact (issueLoad_advances (by omega) done).trans_stays hbubbles hsame

theorem pending_receive (req : Request) (arrive depart : Int) :
    (c.receive req arrive depart).pending = c.pending ∧
      (c.receive req arrive depart).trace = c.trace := by
  unfold receive
  dsimp only
  split <;> exact ⟨rfl, rfl⟩

/-! ## The requests of a tick -/

def owner (c : SimpleO3Core) : Int × Callback := (c.id, c.callback)

def counts (c : SimpleO3Core) : (Int × Callback) × Bool × Nat × Nat :=
  (c.owner, c.reachedExpectedNumInsts, c.numExpectedInsts, c.instsRetired)

theorem counts_issueBubbles (left numInserted : Nat) :
    (c.issueBubbles left numInserted).1.counts = c.counts := by
  induction left generalizing c numInserted with
  | zero => rfl
  | succ left ih =>
      rw [issueBubbles]
      split
      · rfl
      · split
        · rfl
        · exact ih (numInserted + 1)

theorem counts_issueWriteback : (c.issueWriteback answers).1.counts = c.counts := by
  unfold issueWriteback
  split
  · split
    · rfl
    · split <;> rfl
  · rfl

theorem counts_issueLoad (numInserted : Nat) :
    (c.issueLoad answers numInserted).1.counts = c.counts := by
  unfold issueLoad
  split
  · split
    · rfl
    · split
      · rfl
      · split
        · rfl
        · split
          · split
            · rfl
            · exact counts_issueWriteback
          · rfl
  · exact counts_issueWriteback

theorem counts_tick : (c.tick answers).1.counts = c.retire.counts := by
  unfold tick
  dsimp only
  split
  · exact counts_issueBubbles _ 0
  · exact (counts_issueLoad _).trans (counts_issueBubbles _ 0)

theorem counts_receive (req : Request) (arrive depart : Int) :
    (c.receive req arrive depart).counts = c.counts := by
  unfold receive
  dsimp only
  split <;> rfl

theorem owner_retire : c.retire.owner = c.owner := by
  unfold retire
  dsimp only
  split <;> rfl

theorem owner_tick : (c.tick answers).1.owner = c.owner :=
  (congrArg Prod.fst counts_tick).trans owner_retire

theorem window_retire : c.retire.window = c.window.retire.1 := by
  unfold retire
  dsimp only
  split <;> rfl

/-- What a part of a tick makes of the window, by events that are accepted. -/
structure Performs (c : SimpleO3Core) (answers : Answers) (events : List Event)
    (window : InstWindow) : Prop where
  window_eq : window = events.foldl Event.insert c.window
  accepted : ∀ event ∈ events, event.Accepted c.owner answers

theorem performs_nil : Performs c answers [] c.window :=
  ⟨rfl, fun _ hevent => absurd hevent List.not_mem_nil⟩

theorem Performs.trans {done : List Event} {window : InstWindow}
    (hdone : Performs c answers done c'.window) (howner : c'.owner = c.owner)
    (h : Performs c' answers events window) : Performs c answers (done ++ events) window := by
  refine ⟨?_, fun event hevent => ?_⟩
  · rw [h.window_eq, hdone.window_eq, List.foldl_append]
  · rcases List.mem_append.mp hevent with hevent | hevent
    · exact hdone.accepted event hevent
    · exact howner ▸ h.accepted event hevent

theorem issueBubbles_performs (answers : Answers) (left numInserted : Nat) :
    ∃ done, (c.issueBubbles left numInserted).2 = numInserted + done ∧
      Performs c answers (List.replicate done .bubble)
        (c.issueBubbles left numInserted).1.window := by
  induction left generalizing c numInserted with
  | zero => exact ⟨0, rfl, performs_nil⟩
  | succ left ih =>
      rw [issueBubbles]
      split
      · exact ⟨0, rfl, performs_nil⟩
      · split
        · exact ⟨0, rfl, performs_nil⟩
        · obtain ⟨done, hcount, hrest⟩ := ih
            (c := { c with window := c.window.insert true (-1), numBubbles := c.numBubbles - 1 })
            (numInserted + 1)
          refine ⟨done + 1, by rw [hcount]; omega, hrest.window_eq, fun event hevent => ?_⟩
          rw [(List.mem_replicate.mp hevent).2]
          trivial

theorem issueWriteback_performs :
    Performs c answers (c.issueWriteback answers).2 (c.issueWriteback answers).1.window := by
  unfold issueWriteback
  split
  · split
    · exact performs_nil
    · next req hreq =>
        split
        · next hsend => exact ⟨rfl, List.forall_mem_singleton.mpr ⟨hreq, hsend⟩⟩
        · exact performs_nil
  · exact performs_nil

theorem issueLoad_performs (numInserted : Nat) :
    Performs c answers (c.issueLoad answers numInserted).2
      (c.issueLoad answers numInserted).1.window := by
  unfold issueLoad
  split
  · split
    · exact performs_nil
    · split
      · exact performs_nil
      · split
        · exact performs_nil
        · next req hreq =>
            split
            · next hsend =>
                have hloaded : Performs c answers [.load c.loadAddr req] (c.loaded req).window :=
                  ⟨rfl, List.forall_mem_singleton.mpr ⟨hreq, hsend⟩⟩
                split
                · exact hloaded
                · exact hloaded.trans rfl issueWriteback_performs
            · exact performs_nil
  · exact issueWriteback_performs

theorem tick_performs :
    Performs c.retire answers (c.tick answers).2 (c.tick answers).1.window := by
  obtain ⟨done, hcount, hbubbles⟩ := issueBubbles_performs (c := c.retire) answers
    c.retire.numBubbles.toNat 0
  rw [Nat.zero_add] at hcount
  unfold tick
  dsimp only
  rw [hcount]
  split
  · exact hbubbles
  · exact hbubbles.trans (congrArg Prod.fst (counts_issueBubbles _ 0)) (issueLoad_performs done)

/-! ## Runs -/

variable {insts : List Inst} {past : List Event}

/-- The items so far and those still to come in the current line are the items of the lines that
were fetched. -/
structure Replays (insts : List Inst) (c : SimpleO3Core) (past : List Event) (n : Nat) : Prop where
  insts_eq : c.trace.insts = insts
  idx_eq : c.trace.currTraceIdx = n % insts.length
  items_eq : past.map Event.item ++ c.pending = replayed insts n
  pending_ne : c.pending ≠ []

theorem Replays.fetch (hloads : ∀ inst ∈ insts, inst.loadAddr ≠ -1) {n : Nat}
    (hinsts : c.trace.insts = insts) (hidx : c.trace.currTraceIdx = n % insts.length)
    (hpast : past.map Event.item = replayed insts n) : Replays insts c.fetch past (n + 1) := by
  subst hinsts
  have hget : c.trace.insts[n % c.trace.insts.length]? = some c.trace.getNextInst.1 := by
    rw [← hidx]
    exact List.getElem?_eq_getElem c.trace.idx_lt
  have hitems : c.fetch.pending = c.trace.getNextInst.1.items :=
    pending_fetch (hloads _ (List.mem_of_getElem? hget))
  refine ⟨rfl, ?_, ?_, ?_⟩
  · change (c.trace.currTraceIdx + 1) % _ = _
    rw [hidx, Nat.mod_add_mod]
  · rw [hitems, hpast, replayed, replayed, Cyclic.cycle_succ_of_getElem? hget,
      List.flatMap_append, List.flatMap_singleton]
  · rw [hitems, Inst.items]
    exact List.append_ne_nil_of_right_ne_nil _ (List.cons_ne_nil _ _)

theorem Replays.advances (hloads : ∀ inst ∈ insts, inst.loadAddr ≠ -1) {n : Nat}
    (h : Replays insts c past n) (hadv : Advances c events c') :
    ∃ m, Replays insts c' (past ++ events) m := by
  cases hadv with
  | stays hevents hpending htrace =>
      refine ⟨n, htrace ▸ h.insts_eq, htrace ▸ h.idx_eq, ?_, hpending⟩
      rw [List.map_append, List.append_assoc, hevents, h.items_eq]
  | fetches hevents htrace =>
      refine ⟨n + 1, .fetch hloads (htrace ▸ h.insts_eq) (htrace ▸ h.idx_eq) ?_⟩
      rw [List.map_append, hevents, h.items_eq]

theorem Replays.step (hloads : ∀ inst ∈ insts, inst.loadAddr ≠ -1) {n : Nat} {op : CoreOp}
    (h : Replays insts c past n) (hstep : c.step op = some (c', events)) :
    ∃ m, Replays insts c' (past ++ events) m := by
  cases op with
  | tick answers =>
      have heq : c.tick answers = (c', events) := Option.some.inj hstep
      have hadv : Advances c (c.tick answers).2 (c.tick answers).1 := tick_advances
      rw [heq] at hadv
      exact h.advances hloads hadv
  | receive req arrive depart =>
      obtain ⟨rfl, rfl⟩ := Prod.mk.inj (Option.some.inj hstep)
      obtain ⟨hpending, htrace⟩ := pending_receive (c := c) req arrive depart
      refine ⟨n, htrace ▸ h.insts_eq, htrace ▸ h.idx_eq, ?_, hpending ▸ h.pending_ne⟩
      rw [List.append_nil, hpending, h.items_eq]

theorem Replays.run (hloads : ∀ inst ∈ insts, inst.loadAddr ≠ -1) {n : Nat} {ops : List CoreOp}
    (h : Replays insts c past n) (hrun : Runs.outputs SimpleO3Core.step c ops = some (c', events)) :
    ∃ m, Replays insts c' (past ++ events) m :=
  Runs.outputs_preserves (I := fun c past => ∃ n, Replays insts c past n)
    (fun _ _ _ _ _ ⟨_, h⟩ hstep => h.step hloads hstep) past ⟨n, h⟩ hrun

theorem owner_run {ops : List CoreOp}
    (hrun : Runs.outputs SimpleO3Core.step c ops = some (c', events)) : c'.owner = c.owner := by
  refine Runs.outputs_preserves (I := fun d _ => d.owner = c.owner) ?_ [] rfl hrun
  intro d _ op d' _ hd hstep
  cases op with
  | tick answers =>
      obtain ⟨rfl, -⟩ := Prod.mk.inj (Option.some.inj hstep)
      exact owner_tick.trans hd
  | receive req arrive depart =>
      obtain ⟨rfl, -⟩ := Prod.mk.inj (Option.some.inj hstep)
      exact (congrArg Prod.fst (counts_receive req arrive depart)).trans hd

/-! ## Progress -/

/-- Nothing is refused in a tick: the window retires and has room, the translation succeeds and
the LLC accepts. -/
structure Unrefused (c : SimpleO3Core) (answers : Answers) : Prop where
  ipc : c.window.ipc ≠ 0
  room : c.window.retire.1.isFull = false
  translates : ∀ req, (answers.translate req).isSome
  accepts : ∀ req, answers.send req = true

theorem tick_progress (h : Unrefused c answers) (hpending : c.pending ≠ []) :
    (c.tick answers).2 ≠ [] := by
  obtain ⟨hsame, -⟩ := pending_retire (c := c)
  have hwindow := window_retire (c := c)
  have hipc : ((0 : Nat) : Int) ≠ c.retire.window.ipc := by
    rw [hwindow, (InstWindow.retire_shape c.window).1]
    exact Ne.symm h.ipc
  have hroom : c.retire.window.isFull = false := by
    rw [hwindow]
    exact h.room
  rw [← hsame] at hpending
  unfold tick
  dsimp only
  generalize c.retire = d at hpending hipc hroom
  by_cases hbubbles : 0 < d.numBubbles
  · obtain ⟨left, hleft⟩ : ∃ left, d.numBubbles.toNat = left + 1 :=
      ⟨d.numBubbles.toNat - 1, by omega⟩
    obtain ⟨done, hcount, -⟩ := issueBubbles_spec
      (c := { d with window := d.window.insert true (-1), numBubbles := d.numBubbles - 1 })
      (show (d.numBubbles - 1).toNat = left by omega) (0 + 1)
    have hfirst : (d.issueBubbles (left + 1) 0).2 = done + 1 := by
      rw [issueBubbles, if_neg hipc, hroom, if_neg Bool.false_ne_true, hcount]
      omega
    rw [hleft, hfirst, List.replicate_succ]
    split <;> exact nofun
  · rw [Int.toNat_of_nonpos (by omega), issueBubbles]
    dsimp only
    rw [if_neg hbubbles]
    rw [pending_of_bubbles (by omega)] at hpending
    by_cases hload : d.loadAddr ≠ -1
    · obtain ⟨req, hreq⟩ := Option.isSome_iff_exists.mp (h.translates (d.request d.loadAddr .Read 0))
      rw [issueLoad, if_pos hload, if_neg hipc, hroom, if_neg Bool.false_ne_true, hreq]
      dsimp only
      rw [if_pos (h.accepts req)]
      split <;> exact nofun
    · rw [if_neg hload, List.nil_append, storeItems] at hpending
      by_cases hstore : d.writebackAddr ≠ -1
      · obtain ⟨req, hreq⟩ := Option.isSome_iff_exists.mp
          (h.translates (d.request d.writebackAddr .Write 1))
        rw [issueLoad, if_neg hload, issueWriteback, if_pos hstore, hreq]
        dsimp only
        rw [if_pos (h.accepts req)]
        exact nofun
      · exact absurd (if_neg hstore) hpending

end SimpleO3Core

/-- The core replays its trace: whatever the LLC, the translation and the memory answer, the items
it does are those of the lines in cyclic order, and in each tick they are the insertions into the
window and the requests of the core that the LLC accepts.  A tick in which nothing is refused does
the next one. -/
theorem core_replays_trace {trace : Trace} (hstart : trace.currTraceIdx = 0)
    (hloads : ∀ inst ∈ trace.insts, inst.loadAddr ≠ -1) (id ipc : Int) (callback : Callback)
    (depth numExpectedInsts : Nat) {ops : List CoreOp} {c : SimpleO3Core} {events : List Event}
    (hrun : Runs.outputs SimpleO3Core.step
      { SimpleO3Core.new id ipc depth numExpectedInsts trace with callback } ops =
        some (c, events)) :
    (∃ n, events.map Event.item <+: replayed trace.insts n) ∧
      ∀ answers,
        (c.tick answers).1.window = (c.tick answers).2.foldl Event.insert c.window.retire.1 ∧
        (∀ event ∈ (c.tick answers).2, event.Accepted (id, callback) answers) ∧
        (c.Unrefused answers → (c.tick answers).2 ≠ []) := by
  have hfirst : SimpleO3Core.Replays trace.insts
      { SimpleO3Core.new id ipc depth numExpectedInsts trace with callback } [] 1 :=
    .fetch (c := { id, trace, callback, window := InstWindow.new ipc depth, numExpectedInsts })
      hloads rfl (hstart.trans (Nat.zero_mod _).symm) rfl
  obtain ⟨n, h⟩ := hfirst.run hloads hrun
  have howner : c.owner = (id, callback) := SimpleO3Core.owner_run hrun
  refine ⟨⟨n, ⟨c.pending, h.items_eq⟩⟩, fun answers => ⟨?_, ?_, fun hall =>
    SimpleO3Core.tick_progress hall h.pending_ne⟩⟩
  · rw [← SimpleO3Core.window_retire]
    exact SimpleO3Core.tick_performs.window_eq
  · rw [← howner, ← SimpleO3Core.owner_retire]
    exact SimpleO3Core.tick_performs.accepted

/-- Two lines, the second with a store that is refused once. -/
theorem core_replays_trace_store :
    let trace : Trace := { insts := [⟨1, 64, -1⟩, ⟨0, 128, 192⟩], idx_lt := by decide }
    let yes : Answers := ⟨some, fun _ => true⟩
    let no : Answers := ⟨some, fun _ => false⟩
    let ops := [.tick yes, .tick yes, .tick no, .tick yes, .tick no, .tick yes]
    let items : List Item := [.bubble, .load 64, .load 128, .writeback 192, .bubble, .load 64]
    (∃ c events, Runs.outputs SimpleO3Core.step
        { SimpleO3Core.new 0 4 8 100 trace with callback := .frontEnd 0 } ops =
          some (c, events) ∧ events.map Event.item = items ∧
        ∀ event ∈ (c.tick yes).2, event.Accepted (0, .frontEnd 0) yes) ∧
      ∃ n, items <+: replayed trace.insts n := by
  intro trace yes no ops items
  have hitems : ((Runs.outputs SimpleO3Core.step
      { SimpleO3Core.new 0 4 8 100 trace with callback := .frontEnd 0 } ops).map fun o =>
        o.2.map Event.item) = some items := by
    decide +kernel
  obtain ⟨⟨c, events⟩, hrun, hevents⟩ := Option.map_eq_some_iff.mp hitems
  have h := core_replays_trace rfl (by decide) 0 4 (.frontEnd 0) 8 100 hrun
  exact ⟨⟨c, events, hrun, hevents, (h.2 yes).2.1⟩, hevents ▸ h.1⟩

end AimSimulator.Processor
