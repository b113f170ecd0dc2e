import AimSimulator.AddrMapper.LinearMappers
import AimSimulator.Base.Request
import AimSimulator.Lib.Buckets
import AimSimulator.Lib.Runs
/-!
# The last-level cache of `SimpleO3`

`frontend/impl/processor/simpleO3/llc.cpp` and the parts of `simpleO3.cpp` that call it.  A list
iterator is the index of its set with the number of its node; nodes are numbered in the order of
their creation.  What the memory system answers to a `send` is an argument of `tick`.
-/

namespace AimSimulator.Processor

open AddrMapper

structure LLCParams where
  latency : Int
  sizeBytes : Nat
  linesizeBytes : Nat
  associativity : Nat
  numMshrs : Nat
  numCores : Nat

namespace LLCParams

variable (p : LLCParams)

def setSize : Nat := p.sizeBytes / (p.linesizeBytes * p.associativity)

def indexMask : Int := (p.setSize : Int) - 1

def indexOffset : Nat := calcLog2 p.linesizeBytes

def tagOffset : Nat := calcLog2 p.setSize + p.indexOffset

def getIndex (addr : Int) : Int := Int.land (addr >>> p.indexOffset) p.indexMask

def getTag (addr : Int) : Int := addr >>> p.tagOffset

def align (addr : Int) : Int := Int.land addr (Int.lnot ((p.linesizeBytes : Int) - 1))

end LLCParams

/-- `SimpleO3LLC::Line`, with the number of its node. -/
structure Line where
  addr : Int := -1
  tag : Int := -1
  dirty : Bool := false
  ready : Bool := false
  node : Nat
  deriving DecidableEq, Repr

/-- `CacheSet_t::iterator`. -/
@[ext] structure LineIt where
  index : Int
  node : Nat
  deriving DecidableEq, Repr

inductive Fault
  | assertion
  | runtimeError
  | badFunctionCall
  | invalidIterator
  | outOfRange
  deriving DecidableEq, Repr

structure SimpleO3LLC where
  clk : Int := 0
  cacheSets : Int → List Line := fun _ => []
  mshrs : List (Int × LineIt) := []
  receiveRequests : Buckets Int Request := ∅
  missList : List (Int × Request) := []
  hitList : List (Int × Request) := []
  nextNode : Nat := 0

namespace SimpleO3LLC

variable (p : LLCParams)

def checkSetHit (set : List Line) (addr : Int) : Option Line :=
  match set.find? fun l => decide (l.tag = p.getTag addr) with
  | none => none
  | some line => if line.ready then some line else none

def checkMshrHit (llc : SimpleO3LLC) (addr : Int) : Option (Int × LineIt) :=
  llc.mshrs.find? fun mshr => decide (p.align mshr.1 = p.align addr)

def updateLine (cacheSets : Int → List Line) (it : LineIt) (f : Line → Line) :
    Except Fault (Int → List Line) :=
  if (cacheSets it.index).any fun l => decide (l.node = it.node) then
    .ok (Function.update cacheSets it.index
      ((cacheSets it.index).map fun l => if l.node = it.node then f l else l))
  else .error .invalidIterator

/-- `set.erase`. -/
def eraseLine (set : List Line) (node : Nat) : List Line :=
  set.eraseP fun l => decide (l.node = node)

def pushLine (llc : SimpleO3LLC) (index : Int) (line : Nat → Line) : SimpleO3LLC :=
  { llc with
    cacheSets :=
      Function.update llc.cacheSets index (llc.cacheSets index ++ [line llc.nextNode])
    nextNode := llc.nextNode + 1 }

def needEviction (set : List Line) (addr : Int) : Except Fault Bool :=
  if set.any fun l => decide (p.getTag addr = l.tag) then .error .assertion
  else .ok (decide ¬ set.length < p.associativity)

def evictLine (llc : SimpleO3LLC) (index : Int) (victim : Line) : SimpleO3LLC :=
  { llc with
    missList :=
      if victim.dirty then
        llc.missList ++ [(llc.clk + p.latency, { addr := victim.addr, type := .Write })]
      else llc.missList
    cacheSets :=
      Function.update llc.cacheSets index (eraseLine (llc.cacheSets index) victim.node) }

/-- `allocate_line`: the cache and the new line, none where no line can be evicted. -/
def allocateLine (llc : SimpleO3LLC) (index addr : Int) :
    Except Fault (SimpleO3LLC × Option LineIt) :=
  let newLine node : Line := { addr, tag := p.getTag addr, node }
  match needEviction p (llc.cacheSets index) addr with
  | .error fault => .error fault
  | .ok false => .ok (llc.pushLine index newLine, some ⟨index, llc.nextNode⟩)
  | .ok true =>
      match (llc.cacheSets index).find? (·.ready) with
      | none => .ok (llc, none)
      | some victim =>
          .ok ((llc.evictLine p index victim).pushLine index newLine, some ⟨index, llc.nextNode⟩)

/-- Whether the set has a free way or a line that may be evicted. -/
def lineAvailable (set : List Line) : Bool :=
  decide (set.length < p.associativity) || set.any (·.ready)

def sendHit (llc : SimpleO3LLC) (req : Request) (line : Line) : SimpleO3LLC :=
  let index := p.getIndex req.addr
  let pushed := llc.pushLine index fun node =>
    { addr := req.addr, tag := p.getTag req.addr,
      dirty := line.dirty || decide (req.type = .Write), ready := true, node }
  { pushed with
    cacheSets :=
      Function.update pushed.cacheSets index (eraseLine (pushed.cacheSets index) line.node)
    hitList := llc.hitList ++ [(llc.clk + p.latency, req)] }

def missRequest (req : Request) : Request :=
  if req.type = .Write then { req with type := .Read } else req

def sendMshrHit (llc : SimpleO3LLC) (req : Request) (mshr : Int × LineIt) :
    Except Fault SimpleO3LLC :=
  (updateLine llc.cacheSets mshr.2 fun l =>
      { l with dirty := decide (req.type = .Write) || l.dirty }).map fun cacheSets =>
    { llc with
      cacheSets
      receiveRequests := llc.receiveRequests.push mshr.1 (missRequest req) }

def sendAllocate (llc : SimpleO3LLC) (req : Request) : Except Fault SimpleO3LLC :=
  match llc.allocateLine p (p.getIndex req.addr) req.addr with
  | .error fault => .error fault
  | .ok (_, none) => .error .runtimeError
  | .ok (allocated, some newline) =>
      (updateLine allocated.cacheSets newline fun l =>
          { l with dirty := decide (req.type = .Write) }).map fun cacheSets =>
        { allocated with
          cacheSets
          mshrs := allocated.mshrs ++ [(req.addr, newline)]
          receiveRequests := allocated.receiveRequests.put req.addr [missRequest req]
          missList := allocated.missList ++ [(allocated.clk + p.latency, missRequest req)] }

/-- `send`: the cache and whether the request is accepted. -/
def send (llc : SimpleO3LLC) (req : Request) : Except Fault (SimpleO3LLC × Bool) :=
  let set := llc.cacheSets (p.getIndex req.addr)
  match checkSetHit p set req.addr with
  | some line => .ok (llc.sendHit p req line, true)
  | none =>
      match llc.checkMshrHit p req.addr with
      | some mshr => (llc.sendMshrHit req mshr).map fun llc' => (llc', true)
      | none =>
          if llc.mshrs.length = p.numMshrs then .ok (llc, false)
          else if ¬ lineAvailable p set then .ok (llc, false)
          else (llc.sendAllocate p req).map fun llc' => (llc', true)

def receive (llc : SimpleO3LLC) (req : Request) : Except Fault SimpleO3LLC :=
  match llc.checkMshrHit p req.addr with
  | none => .ok llc
  | some mshr =>
      (updateLine llc.cacheSets mshr.2 fun l => { l with ready := true }).map fun cacheSets =>
        { llc with
          cacheSets
          mshrs := llc.mshrs.eraseP fun mshr => decide (p.align mshr.1 = p.align req.addr) }

/-- The first loop of `tick`: the misses that stay and those the memory system takes.  It
answers the calls in order and refuses all after the last answer. -/
def sendMisses (clk : Int) : List Bool → List (Int × Request) → List (Int × Request) × List Request
  | _, [] => ([], [])
  | answers, (due, req) :: rest =>
      if due ≤ clk then
        let after := sendMisses clk answers.tail rest
        if answers.headD false then (after.1, req :: after.2) else ((due, req) :: after.1, after.2)
      else
        let after := sendMisses clk answers rest
        ((due, req) :: after.1, after.2)

end SimpleO3LLC

/-- The cache with what the memory system holds and what the cores received. -/
structure SimpleO3 where
  llc : SimpleO3LLC := {}
  memory : List Request := []
  received : List Request := []

namespace SimpleO3

variable (p : LLCParams)

def receive (s : SimpleO3) (req : Request) : Except Fault SimpleO3 :=
  match s.llc.receive p req with
  | .error fault => .error fault
  | .ok llc =>
      let requests := llc.receiveRequests.get req.addr
      if requests.all fun r => decide (0 ≤ r.sourceId ∧ r.sourceId < p.numCores) then
        .ok { s with
          llc := { llc with receiveRequests := llc.receiveRequests.put req.addr [] }
          received := s.received ++ requests }
      else .error .outOfRange

/-- One hit of the second loop of `tick`. -/
def completeHit (s : SimpleO3) (req : Request) : Except Fault SimpleO3 :=
  if req.callback = .empty then .error .badFunctionCall
  else
    let receiveRequests := s.llc.receiveRequests.put req.addr [req]
    receive p { s with llc := { s.llc with receiveRequests } } req

/-- The second loop of `tick`: the system and the hits that stay. -/
def completeHits (clk : Int) :
    SimpleO3 → List (Int × Request) → Except Fault (SimpleO3 × List (Int × Request))
  | s, [] => .ok (s, [])
  | s, (due, req) :: rest =>
      if due ≤ clk then
        match s.completeHit p req with
        | .error fault => .error fault
        | .ok s' => completeHits clk s' rest
      else (completeHits clk s rest).map fun (s', kept) => (s', (due, req) :: kept)

def tickMisses (s : SimpleO3) (answers : List Bool) : SimpleO3 :=
  let clk := s.llc.clk + 1
  let (missList, sent) := SimpleO3LLC.sendMisses clk answers s.llc.missList
  { s with llc := { s.llc with clk, missList }, memory := s.memory ++ sent }

def tick (s : SimpleO3) (answers : List Bool) : Except Fault SimpleO3 :=
  let s' := s.tickMisses answers
  (s'.completeHits p s'.llc.clk s'.llc.hitList).map fun (s', hitList) =>
    { s' with llc := { s'.llc with hitList } }

inductive Op
  | send (req : Request)
  | tick (answers : List Bool)
  | receive (req : Request)
  | respond (req : Request)

def step (s : SimpleO3) : Op → Except Fault SimpleO3
  | .send req => (s.llc.send p req).map fun (llc, _) => { s with llc }
  | .tick answers => s.tick p answers
  | .receive req => (s.llc.receive p req).map fun llc => { s with llc }
  | .respond req => { s with memory := s.memory.erase req }.receive p req

end SimpleO3

end AimSimulator.Processor
