import AimSimulator.Processor.SimpleO3Core
import AimSimulator.Processor.WakeUps
/-!
# The front end `SimpleO3`

The cores of `processor/simpleO3/simpleO3.cpp` on their cache.  A tick of the front end ticks the
cache and then each core; here the cache, the cores and the callbacks of the memory take their
turns in any order.  Each core replays its trace, and the cache accepts its loads and writebacks
one by one in the order of the trace.
-/

namespace AimSimulator.Processor

/-! ## A tick of a core on the cache -/

namespace SimpleO3Core

variable {c : SimpleO3Core} {answers : Answers}

/-- The access that the cache is asked for behind the bubbles, with its translated request. -/
def access (c : SimpleO3Core) (translate : Request → Option Request) (numInserted : Nat) :
    Option (Event × Request) :=
  if c.loadAddr ≠ -1 then
    if (numInserted : Int) = c.window.ipc then none
    else if c.window.isFull then none
    else (translate (c.request c.loadAddr .Read 0)).map fun req =>
      (.load c.loadAddr req, req)
  else if c.writebackAddr ≠ -1 then
    (translate (c.request c.writebackAddr .Write 1)).map fun req =>
      (.writeback c.writebackAddr req, req)
  else none

def asks (c : SimpleO3Core) (translate : Request → Option Request) : Option (Event × Request) :=
  let (c, numInserted) := c.retire.issueBubbles c.retire.numBubbles.toNat 0
  if 0 < c.numBubbles then none else c.access translate numInserted

def granted (send : Request → Bool) : Option (Event × Request) → List Event
  | none => []
  | some (event, req) => if send req then [event] else []

/-- Without a writeback the next line is fetched, whatever the cache answers. -/
theorem issueWriteback_fetch (hstore : ¬ c.writebackAddr ≠ -1) :
    c.issueWriteback answers = (c.fetch, []) := by
  rw [issueWriteback, if_neg hstore]

theorem issueWriteback_granted (hload : c.loadAddr = -1) (numInserted : Nat) :
    (c.issueWriteback answers).2 =
      granted answers.send (c.access answers.translate numInserted) := by
  unfold issueWriteback access
  rw [if_neg (not_not_intro hload)]
  split
  · split
    · next h => rw [h]; rfl
    · next h =>
        rw [h]
        dsimp only [Option.map_some, granted]
        split <;> rfl
  · rfl

theorem issueLoad_granted (numInserted : Nat) :
    (c.issueLoad answers numInserted).2 =
      granted answers.send (c.access answers.translate numInserted) := by
  by_cases hload : c.loadAddr ≠ -1
  · unfold issueLoad access
    rw [if_pos hload, if_pos hload]
    split
    · rfl
    · split
      · rfl
      · split
        · next h => rw [h]; rfl
        · next req h =>
            rw [h]
            dsimp only [Option.map_some, granted]
            split
            · split
              · rfl
              · next hstore =>
                  rw [issueWriteback_fetch (c := c.loaded req) hstore]
                  rfl
            · rfl
  · have hnone : c.loadAddr = -1 := Classical.not_not.mp hload
    rw [issueLoad, if_neg hload, issueWriteback_granted hnone]

theorem tick_granted (c : SimpleO3Core) (answers : Answers) :
    ∃ n, (c.tick answers).2 =
      List.replicate n .bubble ++ granted answers.send (c.asks answers.translate) := by
  unfold tick asks
  dsimp only
  refine ⟨(c.retire.issueBubbles c.retire.numBubbles.toNat 0).2, ?_⟩
  split
  · exact (List.append_nil _).symm
  · dsimp only
    rw [issueLoad_granted]

/-- A core that has reached the expected number of instructions has retired as many. -/
def Counted (numExpectedInsts : Nat) (c : SimpleO3Core) : Prop :=
  c.numExpectedInsts = numExpectedInsts ∧
    (c.reachedExpectedNumInsts = true → numExpectedInsts ≤ c.instsRetired)

theorem Counted.of_counts {n : Nat} {d : SimpleO3Core} (h : c.Counted n)
    (heq : d.counts = c.counts) : d.Counted n := by
  obtain ⟨-, hrest⟩ := Prod.mk.inj heq
  obtain ⟨hreached, hrest⟩ := Prod.mk.inj hrest
  obtain ⟨hexpected, hretired⟩ := Prod.mk.inj hrest
  exact ⟨hexpected.trans h.1, fun hd => hretired ▸ h.2 (hreached ▸ hd)⟩

theorem Counted.retire {n : Nat} (h : c.Counted n) : c.retire.Counted n := by
  unfold SimpleO3Core.retire
  dsimp only
  split
  · next hreaches => exact ⟨h.1, fun _ => h.1 ▸ hreaches.2⟩
  · exact ⟨h.1, fun hreached => Nat.le_add_right_of_le (h.2 hreached)⟩

end SimpleO3Core

/-! ## Accesses and their requests -/

def Event.isAccess : Event → Bool
  | .bubble => false
  | .load .. | .writeback .. => true

/-- The request for an access of a core to an address that the translation may give. -/
def Issued (translates : Nat → Int → Int → Prop) (k : Nat) : Event → Request → Prop
  | .bubble, _ => False
  | .load v sent, req => sent = req ∧ ∃ addr, translates k v addr ∧
      req = { addr, type := .Read, typeId := 0, sourceId := k, callback := .frontEnd 0 }
  | .writeback v sent, req => sent = req ∧ ∃ addr, translates k v addr ∧
      req = { addr, type := .Write, typeId := 1, sourceId := k, callback := .frontEnd 0 }

def translated (translate : Int → Option Int) (req : Request) : Option Request :=
  (translate req.addr).map fun addr => { req with addr }

section

variable {translates : Nat → Int → Int → Prop} {k : Nat} {event : Event} {req : Request}

theorem Issued.isAccess (h : Issued translates k event req) : event.isAccess = true := by
  cases event with
  | bubble => exact h.elim
  | load => rfl
  | writeback => rfl

theorem Issued.fields (h : Issued translates k event req) :
    (req.type = .Read ∨ req.type = .Write) ∧ req.callback = .frontEnd 0 ∧ req.sourceId = k := by
  cases event with
  | bubble => exact h.elim
  | load =>
      obtain ⟨-, addr, -, rfl⟩ := h
      exact ⟨.inl rfl, rfl, rfl⟩
  | writeback =>
      obtain ⟨-, addr, -, rfl⟩ := h
      exact ⟨.inr rfl, rfl, rfl⟩

theorem SimpleO3Core.access_issued {c : SimpleO3Core} (howner : c.owner = ((k : Int), .frontEnd 0))
    {translate : Int → Option Int}
    (htranslate : ∀ v addr, translate v = some addr → translates k v addr) {numInserted : Nat}
    (h : c.access (translated translate) numInserted = some (event, req)) :
    Issued translates k event req := by
  obtain ⟨hid, hcallback⟩ := Prod.mk.inj howner
  unfold access at h
  split at h
  · split at h
    · cases h
    · split at h
      · cases h
      · obtain ⟨req', hreq, heq⟩ := Option.map_eq_some_iff.mp h
        obtain ⟨rfl, rfl⟩ := Prod.mk.inj heq
        obtain ⟨addr, haddr, rfl⟩ := Option.map_eq_some_iff.mp hreq
        refine ⟨rfl, addr, htranslate _ _ haddr, ?_⟩
        rw [SimpleO3Core.request, hid, hcallback]
  · split at h
    · obtain ⟨req', hreq, heq⟩ := Option.map_eq_some_iff.mp h
      obtain ⟨rfl, rfl⟩ := Prod.mk.inj heq
      obtain ⟨addr, haddr, rfl⟩ := Option.map_eq_some_iff.mp hreq
      refine ⟨rfl, addr, htranslate _ _ haddr, ?_⟩
      rw [SimpleO3Core.request, hid, hcallback]
    · cases h

theorem SimpleO3Core.asks_issued {c : SimpleO3Core} (howner : c.owner = ((k : Int), .frontEnd 0))
    {translate : Int → Option Int}
    (htranslate : ∀ v addr, translate v = some addr → translates k v addr)
    (h : c.asks (translated translate) = some (event, req)) : Issued translates k event req := by
  unfold asks at h
  dsimp only at h
  split at h
  · cases h
  · refine access_issued ?_ htranslate h
    exact (congrArg Prod.fst (counts_issueBubbles _ 0)).trans (owner_retire.trans howner)

end

/-! ## The front end -/

/-- `SimpleO3`: the cache with what the memory holds, and the cores. -/
structure SimpleO3Frontend where
  cache : SimpleO3 := {}
  cores : List SimpleO3Core

/-- A turn of the cache, of a core, or of the memory that answers a request. -/
inductive FrontendOp
  | cache (answers : List Bool)
  | core (k : Nat) (translate : Int → Option Int)
  | respond (req : Request) (arrive depart : Int)

namespace SimpleO3Frontend

def new (ipc : Int) (depth numExpectedInsts : Nat) (traces : List Trace) : SimpleO3Frontend where
  cores := traces.mapIdx fun k trace =>
    { SimpleO3Core.new k ipc depth numExpectedInsts trace with callback := .frontEnd 0 }

/-- The calls of `receive` of the cores. -/
def deliver (cores : List SimpleO3Core) (reqs : List Request) (arrive depart : Int) :
    List SimpleO3Core :=
  reqs.foldl (fun cores req =>
    cores.modify req.sourceId.toNat fun c => c.receive req arrive depart) cores

/-- A tick of a core on the cache: the cache, the core, its events and the request that the
cache accepts. -/
def tickCore (p : LLCParams) (llc : SimpleO3LLC) (c : SimpleO3Core)
    (translate : Request → Option Request) :
    Except Fault (SimpleO3LLC × (SimpleO3Core × List Event) × List Request) :=
  match c.asks translate with
  | none => .ok (llc, c.tick ⟨translate, fun _ => false⟩, [])
  | some (_, req) => (llc.send p req).map fun (llc, accepted) =>
      (llc, c.tick ⟨translate, fun _ => accepted⟩, if accepted then [req] else [])

def isFinished (s : SimpleO3Frontend) : Bool := s.cores.all (·.reachedExpectedNumInsts)

def tickOps (numCores : Nat) (answers : List Bool) (translate : Nat → Int → Option Int) :
    List FrontendOp :=
  .cache answers :: (List.range numCores).map fun k => .core k (translate k)

end SimpleO3Frontend

/-- The front end with the events of the cores and the requests that the cache has accepted. -/
structure Executed where
  frontend : SimpleO3Frontend
  events : List (Nat × Event) := []
  accepted : List Request := []

namespace Executed

open SimpleO3Frontend

variable {p : LLCParams} {t t' : Executed}

/-- A turn.  The requests of the hits that complete have no times yet. -/
def step (p : LLCParams) (t : Executed) : FrontendOp → Option Executed
  | .cache answers => (t.frontend.cache.step p (.tick answers)).toOption.map fun cache =>
      { t with
        frontend.cache := cache
        frontend.cores := deliver t.frontend.cores
          (cache.received.drop t.frontend.cache.received.length) (-1) (-1) }
  | .core k translate => t.frontend.cores[k]?.bind fun c =>
      (tickCore p t.frontend.cache.llc c (translated translate)).toOption.map
        fun (llc, ticked, accepted) =>
          { frontend.cache := { t.frontend.cache with llc }
            frontend.cores := t.frontend.cores.set k ticked.1
            events := t.events ++ ticked.2.map fun event => (k, event)
            accepted := t.accepted ++ accepted }
  | .respond req arrive depart =>
      (t.frontend.cache.step p (.respond req)).toOption.map fun cache =>
        { t with
          frontend.cache := cache
          frontend.cores := deliver t.frontend.cores
            (cache.received.drop t.frontend.cache.received.length) arrive depart }

def eventsOf (t : Executed) (k : Nat) : List Event :=
  (t.events.filter fun e => decide (e.1 = k)).map Prod.snd

def acceptedOf (t : Executed) (k : Nat) : List Request :=
  t.accepted.filter fun req => decide (req.sourceId = k)

/-- The translation gives the addresses that a relation allows, and the memory answers what it
holds. -/
def Allowed (p : LLCParams) (translates : Nat → Int → Int → Prop) (t : Executed) :
    FrontendOp → Prop
  | .cache _ => True
  | .core k translate => ∀ v addr, translate v = some addr → translates k v addr
  | .respond req _ _ => SimpleO3.OfSystem p t.frontend.cache (.respond req)

theorem tickOps_allowed {translates : Nat → Int → Int → Prop} {translate : Nat → Int → Option Int}
    (h : ∀ k v addr, translate k v = some addr → translates k v addr) {numCores : Nat}
    {answers : List Bool} {op : FrontendOp} (hop : op ∈ tickOps numCores answers translate)
    (t : Executed) : Allowed p translates t op := by
  rcases List.mem_cons.mp hop with rfl | hop
  · trivial
  · obtain ⟨k, -, rfl⟩ := List.mem_map.mp hop
    exact h k

/-! ## Runs -/

abbrev Run (p : LLCParams) (translates : Nat → Int → Int → Prop) (start : SimpleO3Frontend) :
    Executed → Prop :=
  Runs.Reachable (Eq { frontend := start }) (fun t op t' => t.step p op = some t')
    (Allowed p translates)

structure CoreReplays (translates : Nat → Int → Int → Prop) (insts : List Inst)
    (expected k : Nat) (c : SimpleO3Core) (past : List Event) (accepted : List Request) :
    Prop where
  owner : c.owner = ((k : Int), .frontEnd 0)
  counted : c.Counted expected
  replays : ∃ n, c.Replays insts past n
  issued : List.Forall₂ (Issued translates k) (past.filter Event.isAccess) accepted

section

variable {translates : Nat → Int → Int → Prop} {insts : List Inst} {expected k : Nat}
  {c : SimpleO3Core} {past : List Event} {accepted : List Request}

theorem CoreReplays.receive (h : CoreReplays translates insts expected k c past accepted)
    (req : Request) (arrive depart : Int) :
    CoreReplays translates insts expected k (c.receive req arrive depart) past accepted := by
  obtain ⟨n, hn⟩ := h.replays
  obtain ⟨hpending, htrace⟩ := SimpleO3Core.pending_receive (c := c) req arrive depart
  have hcounts := SimpleO3Core.counts_receive (c := c) req arrive depart
  refine ⟨(congrArg Prod.fst hcounts).trans h.owner, h.counted.of_counts hcounts, ⟨n, ?_⟩,
    h.issued⟩
  exact ⟨htrace ▸ hn.insts_eq, htrace ▸ hn.idx_eq, by rw [hpending, hn.items_eq],
    hpending ▸ hn.pending_ne⟩

theorem filter_bubbles (n : Nat) (events : List Event) :
    (List.replicate n Event.bubble ++ events).filter Event.isAccess =
      events.filter Event.isAccess := by
  rw [List.filter_append, List.filter_replicate]
  rfl

inductive Ticked (p : LLCParams) (llc : SimpleO3LLC) (c : SimpleO3Core)
    (translate : Request → Option Request) :
    SimpleO3LLC → SimpleO3Core × List Event → List Request → Prop
  | bubbles {answers : Answers} {n : Nat} : (c.tick answers).2 = List.replicate n .bubble →
      Ticked p llc c translate llc (c.tick answers) []
  | access {answers : Answers} {n : Nat} {event : Event} {req : Request} {llc' : SimpleO3LLC}
      {ok : Bool} : c.asks translate = some (event, req) → llc.send p req = .ok (llc', ok) →
      (c.tick answers).2 = List.replicate n .bubble ++ (if ok then [event] else []) →
      Ticked p llc c translate llc' (c.tick answers) (if ok then [req] else [])

theorem tickCore_cases {llc llc' : SimpleO3LLC} {translate : Request → Option Request}
    {ticked : SimpleO3Core × List Event}
    (h : tickCore p llc c translate = .ok (llc', ticked, accepted)) :
    Ticked p llc c translate llc' ticked accepted := by
  unfold tickCore at h
  split at h
  · next hasks =>
      obtain ⟨rfl, heq⟩ := Prod.mk.inj (Except.ok.inj h)
      obtain ⟨rfl, rfl⟩ := Prod.mk.inj heq
      obtain ⟨n, hn⟩ := c.tick_granted ⟨translate, fun _ => false⟩
      rw [hasks] at hn
      exact .bubbles (hn.trans (List.append_nil _))
  · next event req hasks =>
      obtain ⟨⟨llc₁, ok⟩, hsend, heq⟩ := Excepts.map_eq_ok.mp h
      obtain ⟨hllc, heq⟩ := Prod.mk.inj heq
      obtain ⟨hticked, haccepted⟩ := Prod.mk.inj heq
      subst hllc hticked haccepted
      obtain ⟨n, hn⟩ := c.tick_granted ⟨translate, fun _ => ok⟩
      rw [hasks] at hn
      exact .access hasks hsend hn

theorem Ticked.source (howner : c.owner = ((k : Int), .frontEnd 0)) {translate : Int → Option Int}
    (htranslate : ∀ v addr, translate v = some addr → translates k v addr)
    {llc llc' : SimpleO3LLC} {ticked : SimpleO3Core × List Event} {new : List Request}
    (h : Ticked p llc c (translated translate) llc' ticked new) :
    ∀ req ∈ new, req.sourceId = (k : Int) := by
  intro req hreq
  cases h with
  | bubbles => exact absurd hreq List.not_mem_nil
  | @access _ _ event asked _ ok hasks _ _ =>
      cases ok with
      | false => exact absurd hreq List.not_mem_nil
      | true =>
          rw [List.mem_singleton.mp hreq]
          exact (SimpleO3Core.asks_issued howner htranslate hasks).fields.2.2

theorem CoreReplays.tick (hloads : ∀ inst ∈ insts, inst.loadAddr ≠ -1)
    (h : CoreReplays translates insts expected k c past accepted) {translate : Int → Option Int}
    (htranslate : ∀ v addr, translate v = some addr → translates k v addr)
    {llc llc' : SimpleO3LLC} {ticked : SimpleO3Core × List Event} {new : List Request}
    (hticked : Ticked p llc c (translated translate) llc' ticked new) :
    CoreReplays translates insts expected k ticked.1 (past ++ ticked.2) (accepted ++ new) := by
  obtain ⟨n, hn⟩ := h.replays
  cases hticked with
  | @bubbles answers m hevents =>
      have hstep : c.step (.tick answers) = some (c.tick answers) := rfl
      refine ⟨SimpleO3Core.owner_tick.trans h.owner,
        h.counted.retire.of_counts SimpleO3Core.counts_tick, hn.step hloads hstep, ?_⟩
      have hnone := filter_bubbles m []
      rw [List.append_nil] at hnone
      rw [List.filter_append, hevents, hnone, List.filter_nil, List.append_nil, List.append_nil]
      exact h.issued
  | @access answers m event req _ ok hasks _ hevents =>
      have hissued := SimpleO3Core.asks_issued h.owner htranslate hasks
      have hstep : c.step (.tick answers) = some (c.tick answers) := rfl
      refine ⟨SimpleO3Core.owner_tick.trans h.owner,
        h.counted.retire.of_counts SimpleO3Core.counts_tick, hn.step hloads hstep, ?_⟩
      rw [List.filter_append, hevents, filter_bubbles]
      refine List.rel_append h.issued ?_
      cases ok with
      | false => exact .nil
      | true =>
          have hkept : [event].filter Event.isAccess = [event] :=
            List.filter_cons_of_pos hissued.isAccess
          rw [if_pos rfl, if_pos rfl, hkept]
          exact .cons hissued .nil

theorem traced_step {s s' : SimpleO3} {op : SimpleO3.Op} (h : s.step p op = .ok s')
    (accepted : List Request) :
    Traced.step p { system := s, accepted } op =
      some { system := s', accepted := accepted ++ SimpleO3.accepts p s op } := by
  rw [Traced.step, h]
  rfl

theorem Ticked.run (howner : c.owner = ((k : Int), .frontEnd 0)) (hk : k < p.numCores)
    {translate : Int → Option Int}
    (htranslate : ∀ v addr, translate v = some addr → translates k v addr) {cache : SimpleO3}
    {llc : SimpleO3LLC} {ticked : SimpleO3Core × List Event} {new : List Request}
    (h : Ticked p cache.llc c (translated translate) llc ticked new)
    (hrun : Traced.Run p (fun _ _ => True) { system := cache, accepted }) :
    Traced.Run p (fun _ _ => True)
      { system := { cache with llc }, accepted := accepted ++ new } := by
  cases h with
  | bubbles =>
      rw [List.append_nil]
      exact hrun
  | @access _ _ event req _ ok hasks hsend _ =>
      obtain ⟨htype, hcallback, hsource⟩ :=
        (SimpleO3Core.asks_issued howner htranslate hasks).fields
      have hop : SimpleO3.OfSystem p cache (.send req) :=
        ⟨htype, by rw [hcallback]; exact nofun, by omega, by omega⟩
      have hstep : cache.step p (.send req) = .ok { cache with llc } := by
        rw [SimpleO3.step, hsend]
        rfl
      have haccepts : SimpleO3.accepts p cache (.send req) = if ok then [req] else [] := by
        rw [SimpleO3.accepts, hsend]
        cases ok <;> rfl
      have htraced := traced_step hstep accepted
      rw [haccepts] at htraced
      exact .next hrun ⟨hop, trivial⟩ htraced

theorem forall_deliver {P : Nat → SimpleO3Core → Prop} {arrive depart : Int}
    (hreceive : ∀ k c req, P k c → P k (c.receive req arrive depart)) {cores : List SimpleO3Core}
    (h : ∀ k c, cores[k]? = some c → P k c) (reqs : List Request) :
    ∀ k c, (deliver cores reqs arrive depart)[k]? = some c → P k c := by
  induction reqs generalizing cores with
  | nil => exact h
  | cons req reqs ih =>
      have hnext : ∀ k c, (cores.modify req.sourceId.toNat fun c =>
          c.receive req arrive depart)[k]? = some c → P k c := by
        intro k c hc
        rw [List.getElem?_modify] at hc
        obtain ⟨d, hd, rfl⟩ := Option.map_eq_some_iff.mp hc
        split
        · exact hreceive k d req (h k d hd)
        · exact h k d hd
      exact ih hnext

theorem length_deliver (cores : List SimpleO3Core) (reqs : List Request) (arrive depart : Int) :
    (deliver cores reqs arrive depart).length = cores.length := by
  induction reqs generalizing cores with
  | nil => rfl
  | cons req reqs ih => exact (ih _).trans (List.length_modify _ _ _)

theorem eventsOf_append (events : List (Nat × Event)) (k j : Nat) (new : List Event) :
    ((events ++ new.map fun event => (k, event)).filter fun e => decide (e.1 = j)).map Prod.snd =
      (events.filter fun e => decide (e.1 = j)).map Prod.snd ++ if k = j then new else [] := by
  rw [List.filter_append, List.map_append, List.filter_map, List.map_map]
  by_cases hk : k = j
  · simp [hk, Function.comp_def]
  · simp [hk, Function.comp_def]

theorem acceptedOf_append {new : List Request} (hnew : ∀ req ∈ new, req.sourceId = (k : Int))
    (j : Nat) : (accepted ++ new).filter (fun req => decide (req.sourceId = (j : Int))) =
      accepted.filter (fun req => decide (req.sourceId = (j : Int))) ++
        if k = j then new else [] := by
  rw [List.filter_append]
  by_cases hk : k = j
  · have hall : ∀ req ∈ new, decide (req.sourceId = (j : Int)) = true :=
      fun req hreq => decide_eq_true (by rw [hnew req hreq, hk])
    rw [if_pos hk, List.filter_eq_self.mpr hall]
  · have hnone : ∀ req ∈ new, ¬ decide (req.sourceId = (j : Int)) = true := fun req hreq h =>
      hk (Int.ofNat.inj ((hnew req hreq).symm.trans (of_decide_eq_true h)))
    rw [if_neg hk, List.filter_eq_nil_iff.mpr hnone]

end

/-- The cache is in a run of its own, and each core has replayed a part of its trace. -/
structure Follows (p : LLCParams) (translates : Nat → Int → Int → Prop) (traces : List Trace)
    (expected : Nat) (t : Executed) : Prop where
  cache : Traced.Run p (fun _ _ => True) { system := t.frontend.cache, accepted := t.accepted }
  length : t.frontend.cores.length = traces.length
  cores : ∀ k c, t.frontend.cores[k]? = some c → ∃ trace, traces[k]? = some trace ∧
    CoreReplays translates trace.insts expected k c (t.eventsOf k) (t.acceptedOf k)

section

variable {translates : Nat → Int → Int → Prop} {traces : List Trace} {expected : Nat}

theorem Follows.received (h : Follows p translates traces expected t) {op : SimpleO3.Op}
    (hop : SimpleO3.OfSystem p t.frontend.cache op)
    (haccepts : SimpleO3.accepts p t.frontend.cache op = []) {cache : SimpleO3}
    (hstep : t.frontend.cache.step p op = .ok cache) (reqs : List Request) (arrive depart : Int) :
    Follows p translates traces expected
      { t with
        frontend.cache := cache
        frontend.cores := deliver t.frontend.cores reqs arrive depart } := by
  have htraced := traced_step hstep t.accepted
  rw [haccepts, List.append_nil] at htraced
  refine ⟨.next h.cache ⟨hop, trivial⟩ htraced, (length_deliver _ _ _ _).trans h.length, ?_⟩
  refine forall_deliver (P := fun k c => ∃ trace, traces[k]? = some trace ∧
    CoreReplays translates trace.insts expected k c (t.eventsOf k) (t.acceptedOf k)) ?_ h.cores reqs
  rintro k c req ⟨trace, htrace, hcore⟩
  exact ⟨trace, htrace, hcore.receive req arrive depart⟩

theorem Follows.ticked (hcores : p.numCores = traces.length)
    (hloads : ∀ trace ∈ traces, ∀ inst ∈ trace.insts, inst.loadAddr ≠ -1)
    (h : Follows p translates traces expected t) {k : Nat} {c : SimpleO3Core}
    (hc : t.frontend.cores[k]? = some c) {translate : Int → Option Int}
    (htranslate : ∀ v addr, translate v = some addr → translates k v addr) {llc : SimpleO3LLC}
    {ticked : SimpleO3Core × List Event} {new : List Request}
    (hticked : Ticked p t.frontend.cache.llc c (translated translate) llc ticked new) :
    Follows p translates traces expected
      { frontend.cache := { t.frontend.cache with llc }
        frontend.cores := t.frontend.cores.set k ticked.1
        events := t.events ++ ticked.2.map fun event => (k, event)
        accepted := t.accepted ++ new } := by
  obtain ⟨trace, htrace, hcore⟩ := h.cores k c hc
  have hk : k < traces.length := (List.getElem?_eq_some_iff.mp htrace).1
  have hnew := hticked.source hcore.owner htranslate
  have hcache := hticked.run hcore.owner (hcores ▸ hk) htranslate h.cache
  refine ⟨hcache, (List.length_set ..).trans h.length, fun j d hd => ?_⟩
  rw [eventsOf, acceptedOf, eventsOf_append, acceptedOf_append hnew]
  rw [List.getElem?_set] at hd
  split at hd
  · next hj =>
      subst hj
      split at hd
      · obtain rfl := Option.some.inj hd
        rw [if_pos rfl, if_pos rfl]
        exact ⟨trace, htrace, hcore.tick (hloads trace (List.mem_of_getElem? htrace))
          htranslate hticked⟩
      · cases hd
  · next hj =>
      rw [if_neg hj, if_neg hj, List.append_nil, List.append_nil]
      exact h.cores j d hd

theorem Follows.step (hcores : p.numCores = traces.length)
    (hloads : ∀ trace ∈ traces, ∀ inst ∈ trace.insts, inst.loadAddr ≠ -1)
    (h : Follows p translates traces expected t) {op : FrontendOp}
    (hop : Allowed p translates t op) (hstep : t.step p op = some t') :
    Follows p translates traces expected t' := by
  cases op with
  | cache answers =>
      obtain ⟨cache, hcache, rfl⟩ := Option.map_eq_some_iff.mp hstep
      have htick : SimpleO3.OfSystem p t.frontend.cache (.tick answers) := trivial
      exact h.received htick rfl (SimpleO3.toOption_eq_some.mp hcache) _ _ _
  | core k translate =>
      obtain ⟨c, hc, hmap⟩ := Option.bind_eq_some_iff.mp hstep
      obtain ⟨⟨llc, ticked, new⟩, hticked, rfl⟩ := Option.map_eq_some_iff.mp hmap
      exact h.ticked hcores hloads hc hop (tickCore_cases (SimpleO3.toOption_eq_some.mp hticked))
  | respond req arrive depart =>
      obtain ⟨cache, hcache, rfl⟩ := Option.map_eq_some_iff.mp hstep
      have hrespond : SimpleO3.OfSystem p t.frontend.cache (.respond req) := hop
      exact h.received hrespond rfl (SimpleO3.toOption_eq_some.mp hcache) _ _ _

theorem new_follows (hstart : ∀ trace ∈ traces, trace.currTraceIdx = 0)
    (hloads : ∀ trace ∈ traces, ∀ inst ∈ trace.insts, inst.loadAddr ≠ -1) (ipc : Int)
    (depth : Nat) : Follows p translates traces expected
      { frontend := SimpleO3Frontend.new ipc depth expected traces } := by
  refine ⟨.start rfl, List.length_mapIdx, fun k c hc => ?_⟩
  change (traces.mapIdx _)[k]? = some c at hc
  rw [List.getElem?_mapIdx] at hc
  obtain ⟨trace, htrace, rfl⟩ := Option.map_eq_some_iff.mp hc
  have hmem := List.mem_of_getElem? htrace
  have hfirst : SimpleO3Core.Replays trace.insts
      (SimpleO3Core.new k ipc depth expected trace) [] 1 :=
    .fetch (hloads trace hmem) rfl ((hstart trace hmem).trans (Nat.zero_mod _).symm) rfl
  refine ⟨trace, htrace, rfl, ⟨rfl, nofun⟩, ⟨1, ?_⟩, .nil⟩
  exact ⟨hfirst.insts_eq, hfirst.idx_eq, hfirst.items_eq, hfirst.pending_ne⟩

/-- In every run of the front end on traces with load addresses other than `-1`, in whatever order
the cache, the cores and the memory take their turns: the cache is in a run of its own; the events
of each core do a part of its trace, replayed from the first line on; the requests of the core that
the cache has accepted are those of the loads and writebacks among them, each once and in their
order, with addresses that the translation gave; and a front end that is finished has retired the
expected instructions on each core. -/
theorem frontend_replays (hcores : p.numCores = traces.length)
    (hstart : ∀ trace ∈ traces, trace.currTraceIdx = 0)
    (hloads : ∀ trace ∈ traces, ∀ inst ∈ trace.insts, inst.loadAddr ≠ -1) {ipc : Int}
    {depth : Nat}
    (h : Run p translates (SimpleO3Frontend.new ipc depth expected traces) t) :
    Traced.Run p (fun _ _ => True) { system := t.frontend.cache, accepted := t.accepted } ∧
    (∀ k trace, traces[k]? = some trace →
      (∃ n, (t.eventsOf k).map Event.item <+: replayed trace.insts n) ∧
      List.Forall₂ (Issued translates k) ((t.eventsOf k).filter Event.isAccess)
        (t.acceptedOf k)) ∧
    (t.frontend.isFinished = true →
      ∀ c ∈ t.frontend.cores, expected ≤ c.instsRetired) := by
  have hrun : Follows p translates traces expected t := by
    refine h.invariant (I := Follows p translates traces expected) ?_ ?_
    · rintro t rfl
      exact new_follows hstart hloads ipc depth
    · exact fun t op t' ht hop hstep => ht.step hcores hloads hop hstep
  refine ⟨hrun.cache, fun k trace htrace => ?_, fun hfinished c hc => ?_⟩
  · obtain ⟨c, hc⟩ : ∃ c, t.frontend.cores[k]? = some c := by
      refine ⟨_, List.getElem?_eq_getElem ?_⟩
      rw [hrun.length]
      exact (List.getElem?_eq_some_iff.mp htrace).1
    obtain ⟨trace', htrace', hcore⟩ := hrun.cores k c hc
    obtain rfl := Option.some.inj (htrace.symm.trans htrace')
    obtain ⟨n, hn⟩ := hcore.replays
    exact ⟨⟨n, ⟨c.pending, hn.items_eq⟩⟩, hcore.issued⟩
  · obtain ⟨k, hk⟩ := List.getElem?_of_mem hc
    obtain ⟨trace, -, hcore⟩ := hrun.cores k c hk
    exact hcore.counted.2 (List.all_eq_true.mp hfinished c hc)

end

def twoTraces : List Trace :=
  [{ insts := [⟨1, 0, 64⟩], idx_lt := by decide }, { insts := [⟨0, 128, -1⟩], idx_lt := by decide }]

def twoTicks : List FrontendOp :=
  tickOps 2 [] (fun _ => some) ++ tickOps 2 [true, true] (fun _ => some) ++
    [.respond { SimpleO3.read 0 0 with typeId := 0 } 2 5] ++ tickOps 2 [true, true] (fun _ => some)

def answered (t : Executed) : FrontendOp → Bool
  | .respond req _ _ =>
      decide (SimpleO3.OfSystem SimpleO3.small t.frontend.cache (.respond req))
  | .cache _ | .core _ _ => true

theorem frontend_replays_twoTicks :
    let load : Event := .load 0
      { addr := 0, type := .Read, typeId := 0, sourceId := 0, callback := .frontEnd 0 }
    let store : Event := .writeback 64
      { addr := 64, type := .Write, typeId := 1, sourceId := 0, callback := .frontEnd 0 }
    ∃ t, Run SimpleO3.small (fun _ v addr => addr = v) (SimpleO3Frontend.new 4 8 100 twoTraces) t ∧
      t.eventsOf 0 = [.bubble, load, store] ∧
      List.Forall₂ (Issued (fun _ v addr => addr = v) 0) [load, store] (t.acceptedOf 0) := by
  intro load store
  have hrun : ((Runs.replay (step SimpleO3.small) answered
      { frontend := SimpleO3Frontend.new 4 8 100 twoTraces } twoTicks).any fun t =>
        decide (t.eventsOf 0 = [.bubble, load, store])) = true := by decide +kernel
  obtain ⟨t, ht, htest⟩ := Option.any_eq_true _ _ |>.mp hrun
  have hreached : Run SimpleO3.small (fun _ v addr => addr = v)
      (SimpleO3Frontend.new 4 8 100 twoTraces) t := by
    refine Runs.replay_reachable_of_mem (fun op hop s htest => ?_) (.start rfl) ht
    have hsome : ∀ (k : Nat) (v addr : Int), some v = some addr → addr = v :=
      fun _ _ _ heq => (Option.some.inj heq).symm
    rcases List.mem_append.mp hop with hop | hop
    · rcases List.mem_append.mp hop with hop | hop
      · rcases List.mem_append.mp hop with hop | hop
        · exact tickOps_allowed hsome hop s
        · exact tickOps_allowed hsome hop s
      · obtain rfl := List.mem_singleton.mp hop
        exact of_decide_eq_true
          (p := SimpleO3.OfSystem SimpleO3.small s.frontend.cache (.respond _)) htest
    · exact tickOps_allowed hsome hop s
  have hevents := of_decide_eq_true htest
  have h := (frontend_replays rfl (by decide) (by decide) hreached).2.1 0 _ rfl
  refine ⟨t, hreached, hevents, ?_⟩
  have hissued := h.2
  rw [hevents] at hissued
  exact hissued

end Executed

end AimSimulator.Processor
