import AimSimulator.AddrMapper.LinearMappers
import AimSimulator.Frontend.TraceReader
import AimSimulator.Lib.Cyclic
import AimSimulator.Lib.Outputs
/-!
# Traces of memory accesses

The front ends `LoadStoreTrace` and `ReadWriteTrace` over `GenericDRAMSystem`.  Whether the
controller accepts the request of a tick is an argument of the tick.
-/

namespace AimSimulator.Frontend

open AddrMapper

/-! ## The memory system -/

/-- `IAddrMapper`: `apply` sets the address vector of a request. -/
structure IAddrMapper where
  apply : Request → Request
  apply_eq : ∀ req, apply req = { req with addrVec := (apply req).addrVec }

def IAddrMapper.linear (m : LinearMapperBase) (mapper : LinearMapper) : IAddrMapper where
  apply := mapper.apply m
  apply_eq req := by cases mapper <;> rfl

structure GenericDRAMSystem where
  addrMapper : IAddrMapper
  numReadRequests : Nat := 0
  numWriteRequests : Nat := 0
  numOtherRequests : Nat := 0

namespace GenericDRAMSystem

/-- `send`, given the answer of the controller of its channel: the request that the controller
accepted. -/
def send (m : GenericDRAMSystem) (req : Request) (isSuccess : Bool) :
    GenericDRAMSystem × Option Request :=
  let req := m.addrMapper.apply req
  if isSuccess then
    match req.type with
    | .Read => ({ m with numReadRequests := m.numReadRequests + 1 }, some req)
    | .Write => ({ m with numWriteRequests := m.numWriteRequests + 1 }, some req)
    | _ => ({ m with numOtherRequests := m.numOtherRequests + 1 }, some req)
  else (m, none)

end GenericDRAMSystem

def TraceFile.allLines (file : TraceFile) : List (List Char) :=
  file.lines ++ if file.tail = [] then [] else [file.tail]

def fileLines (text : List Char) : List (List Char) := (TraceFile.ofText text).allLines

def formatInvalid (path : String) : TraceFault :=
  .configurationError s!"Trace {path} format invalid!"

/-! ## Load and store addresses -/

structure LoadStoreTrace.Trace where
  isWrite : Bool
  addr : Int
  deriving DecidableEq, Repr

structure LoadStoreTrace where
  trace : List LoadStoreTrace.Trace
  traceLength : Nat
  currTraceIdx : Nat := 0
  traceCount : Nat := 0
  deriving DecidableEq, Repr

namespace LoadStoreTrace

def parseLine (path : String) (line : List Char) : Except TraceFault Trace :=
  match tokenize ' ' line with
  | [kind, addr] =>
      if kind = "LD".toList then (fun addr => { isWrite := false, addr }) <$> tokenDecoder addr
      else if kind = "ST".toList then (fun addr => { isWrite := true, addr }) <$> tokenDecoder addr
      else .error (formatInvalid path)
  | _ => .error (formatInvalid path)

def initTrace (path : String) (text : List Char) : Except TraceFault LoadStoreTrace :=
  (fun trace => { trace, traceLength := trace.length }) <$> (fileLines text).mapM (parseLine path)

def Trace.request (t : Trace) : Request where
  addr := t.addr
  type := if t.isWrite then .Write else .Read
  typeId := if t.isWrite then typeId .Write else typeId .Read

def advance (f : LoadStoreTrace) : LoadStoreTrace :=
  { f with
    currTraceIdx := (f.currTraceIdx + 1) % f.traceLength
    traceCount := f.traceCount + 1 }

/-- `tick`: the front end and the memory system, and what the controller accepted; `none` is an
index past the end of the trace. -/
def tick (s : LoadStoreTrace × GenericDRAMSystem) (isSuccess : Bool) :
    Option ((LoadStoreTrace × GenericDRAMSystem) × List Request) :=
  (s.1.trace[s.1.currTraceIdx]?).map fun t =>
    ((if isSuccess then s.1.advance else s.1, (s.2.send t.request isSuccess).1),
      (s.2.send t.request isSuccess).2.toList)

end LoadStoreTrace

/-! ## Read and write address vectors -/

structure ReadWriteTrace.Trace where
  isWrite : Bool
  addrVec : AddrVec
  deriving DecidableEq, Repr

structure ReadWriteTrace where
  trace : List ReadWriteTrace.Trace
  traceLength : Nat
  currTraceIdx : Nat := 0
  deriving DecidableEq, Repr

namespace ReadWriteTrace

def parseNumbers (token : Token) : Except TraceFault (List Int) :=
  (tokenize ',' token).mapM fun token => (Numerals.stoll 10 token).mapError .stoll

/-- A line of `init_trace`; the entries of an address vector are of type `int`. -/
def parseLine (path : String) (line : List Char) : Except TraceFault Trace :=
  match tokenize ' ' line with
  | [kind, numbers] =>
      if kind = "R".toList then
        (fun numbers => { isWrite := false, addrVec := numbers.map (narrow 32) }) <$>
          parseNumbers numbers
      else if kind = "W".toList then
        (fun numbers => { isWrite := true, addrVec := numbers.map (narrow 32) }) <$>
          parseNumbers numbers
      else .error (formatInvalid path)
  | _ => .error (formatInvalid path)

def initTrace (path : String) (text : List Char) : Except TraceFault ReadWriteTrace :=
  (fun trace => { trace, traceLength := trace.length }) <$> (fileLines text).mapM (parseLine path)

def Trace.request (t : Trace) : Request where
  addrVec := t.addrVec
  type := if t.isWrite then .Read else .Write
  typeId := if t.isWrite then typeId .Read else typeId .Write

/-- `tick`; the result of `send` is not looked at. -/
def tick (s : ReadWriteTrace × GenericDRAMSystem) (isSuccess : Bool) :
    Option ((ReadWriteTrace × GenericDRAMSystem) × List Request) :=
  (s.1.trace[s.1.currTraceIdx]?).map fun t =>
    (({ s.1 with currTraceIdx := (s.1.currTraceIdx + 1) % s.1.traceLength },
        (s.2.send t.request isSuccess).1),
      (s.2.send t.request isSuccess).2.toList)

end ReadWriteTrace

/-! ## Delivery -/

open Excepts

structure GenericDRAMSystem.Counts (m : GenericDRAMSystem) (delivered : List Request) : Prop where
  reads : m.numReadRequests = delivered.countP (·.type = .Read)
  writes : m.numWriteRequests = delivered.countP (·.type = .Write)
  others : m.numReadRequests + m.numWriteRequests + m.numOtherRequests = delivered.length

namespace GenericDRAMSystem

variable {m : GenericDRAMSystem} {req : Request} {delivered : List Request}

theorem send_false : m.send req false = (m, none) := rfl

theorem send_true (m : GenericDRAMSystem) (req : Request) :
    (m.send req true).2 = some (m.addrMapper.apply req) ∧
      (m.send req true).1.addrMapper = m.addrMapper := by
  unfold send
  dsimp only
  rw [if_pos rfl]
  cases (m.addrMapper.apply req).type <;> exact ⟨rfl, rfl⟩

theorem Counts.send (h : m.Counts delivered) (req : Request) (isSuccess : Bool) :
    (m.send req isSuccess).1.Counts (delivered ++ (m.send req isSuccess).2.toList) := by
  cases isSuccess with
  | false =>
      rw [send_false, Option.toList_none, List.append_nil]
      exact h
  | true =>
      have hreads := h.reads
      have hwrites := h.writes
      have hothers := h.others
      rw [(send_true m req).1, Option.toList_some]
      unfold GenericDRAMSystem.send
      dsimp only
      rw [if_pos rfl]
      generalize m.addrMapper.apply req = sent
      cases htype : sent.type <;> refine ⟨?_, ?_, ?_⟩ <;>
        simp [List.countP_append, htype] <;> omega

end GenericDRAMSystem

def accessType (isWrite : Bool) : ReqType := if isWrite then .Write else .Read

namespace LoadStoreTrace

def Trace.access (t : Trace) : ReqType × Int := (accessType t.isWrite, t.addr)

/-- After any answers, the accesses that were delivered are the lines in cyclic order, one for
each request that was accepted. -/
def Delivers (mapper : IAddrMapper) (path : String) (text : List Char) (trace : List Trace)
    (answers : List Bool) : Prop :=
  ∃ f last delivered, initTrace path text = .ok f ∧
    Runs.outputs tick (f, { addrMapper := mapper }) answers = some (last, delivered) ∧
    last.2.Counts delivered ∧
    delivered.map (fun req => (req.type, req.addr)) =
      (Cyclic.cycle trace (answers.count true)).map Trace.access

structure HasDelivered (mapper : IAddrMapper) (trace : List Trace)
    (s : LoadStoreTrace × GenericDRAMSystem) (answers : List Bool) (delivered : List Request) :
    Prop where
  trace_eq : s.1.trace = trace
  length_eq : s.1.traceLength = trace.length
  idx_eq : s.1.currTraceIdx = answers.count true % trace.length
  count_eq : s.1.traceCount = answers.count true
  mapper_eq : s.2.addrMapper = mapper
  counts : s.2.Counts delivered
  delivered_eq :
    delivered = (Cyclic.cycle trace (answers.count true)).map fun t => mapper.apply t.request

variable {mapper : IAddrMapper} {trace : List Trace} {s : LoadStoreTrace × GenericDRAMSystem}
  {answers : List Bool} {delivered : List Request}

theorem HasDelivered.step (hne : trace ≠ []) (h : HasDelivered mapper trace s answers delivered)
    (isSuccess : Bool) :
    ∃ s' out, tick s isSuccess = some (s', out) ∧
      HasDelivered mapper trace s' (answers ++ [isSuccess]) (delivered ++ out) := by
  obtain ⟨t, ht⟩ := Cyclic.exists_getElem? hne (answers.count true)
  have hget : s.1.trace[s.1.currTraceIdx]? = some t := by rw [h.trace_eq, h.idx_eq, ht]
  have hcounts := h.counts.send t.request isSuccess
  refine ⟨_, _, by rw [tick, hget, Option.map_some], ?_⟩
  cases isSuccess with
  | false =>
      have hsame : (answers ++ [false]).count true = answers.count true := by simp
      rw [GenericDRAMSystem.send_false] at hcounts ⊢
      refine ⟨h.trace_eq, h.length_eq, ?_, ?_, h.mapper_eq, hcounts, ?_⟩
      · rw [hsame]
        exact h.idx_eq
      · rw [hsame]
        exact h.count_eq
      · rw [hsame, ← h.delivered_eq]
        exact List.append_nil delivered
  | true =>
      have hnext : (answers ++ [true]).count true = answers.count true + 1 := by simp
      obtain ⟨hsent, hmapper⟩ := GenericDRAMSystem.send_true s.2 t.request
      refine ⟨h.trace_eq, h.length_eq, ?_, ?_, hmapper.trans h.mapper_eq, hcounts, ?_⟩
      · change (s.1.currTraceIdx + 1) % s.1.traceLength = _
        rw [hnext, h.idx_eq, h.length_eq, Nat.mod_add_mod]
      · rw [hnext, ← h.count_eq]
        rfl
      · rw [hsent, h.mapper_eq, hnext, Cyclic.cycle_succ_of_getElem? ht, List.map_append,
          ← h.delivered_eq]
        rfl

theorem run_hasDelivered (mapper : IAddrMapper) (hne : trace ≠ []) (answers : List Bool) :
    ∃ last delivered,
      Runs.outputs tick ({ trace, traceLength := trace.length }, { addrMapper := mapper }) answers =
        some (last, delivered) ∧
      HasDelivered mapper trace last answers delivered := by
  have hinit : HasDelivered mapper trace
      ({ trace, traceLength := trace.length }, { addrMapper := mapper }) [] [] :=
    ⟨rfl, rfl, (Nat.zero_mod _).symm, rfl, rfl, ⟨rfl, rfl, rfl⟩, rfl⟩
  exact Runs.outputs_total (I := HasDelivered mapper trace) (fun _ _ _ l hs => hs.step hne l)
    hinit answers

/-- The retry loses nothing: the trace is delivered whatever the memory system answers. -/
theorem delivers (mapper : IAddrMapper) {path : String} {text : List Char}
    (hlines : (fileLines text).mapM (parseLine path) = .ok trace) (hne : trace ≠ [])
    (answers : List Bool) : Delivers mapper path text trace answers := by
  obtain ⟨last, delivered, hrun, h⟩ := run_hasDelivered mapper hne answers
  refine ⟨_, last, delivered, map_eq_ok.mpr ⟨trace, hlines, rfl⟩, hrun, h.counts, ?_⟩
  rw [h.delivered_eq, List.map_map]
  refine List.map_congr_left fun t _ => ?_
  change ((mapper.apply t.request).type, (mapper.apply t.request).addr) = _
  rw [mapper.apply_eq]
  rfl

end LoadStoreTrace

namespace ReadWriteTrace

def lineNumbers (path : String) (line : List Char) : Except TraceFault (Bool × List Int) :=
  match tokenize ' ' line with
  | [kind, numbers] =>
      if kind = "R".toList then (fun numbers => (false, numbers)) <$> parseNumbers numbers
      else if kind = "W".toList then (fun numbers => (true, numbers)) <$> parseNumbers numbers
      else .error (formatInvalid path)
  | _ => .error (formatInvalid path)

def lineAccess (line : Bool × List Int) : ReqType × AddrVec := (accessType line.1, line.2)

def Trace.ofLine (line : Bool × List Int) : Trace where
  isWrite := line.1
  addrVec := line.2.map (narrow 32)

/-- After any answers, the accesses that were delivered are the lines in cyclic order, one for
each request that was accepted. -/
def Delivers (mapper : IAddrMapper) (path : String) (text : List Char)
    (lines : List (Bool × List Int)) (answers : List Bool) : Prop :=
  ∃ f last delivered, initTrace path text = .ok f ∧
    Runs.outputs tick (f, { addrMapper := mapper }) answers = some (last, delivered) ∧
    last.2.Counts delivered ∧
    delivered.map (fun req => (req.type, req.addrVec)) =
      (Cyclic.cycle lines (answers.count true)).map lineAccess

/-- Line `i` is sent as what line `k` asks for: they are of different types, and the mapper makes
the vector of line `k`. -/
def SentFor (mapper : IAddrMapper) (lines : List (Bool × List Int)) (i k : Nat) : Prop :=
  ∃ line due, lines[i % lines.length]? = some line ∧ lines[k % lines.length]? = some due ∧
    line.1 ≠ due.1 ∧ (mapper.apply (Trace.ofLine line).request).addrVec = due.2

/-- Each tick whose request is accepted sends its line for the line that is due. -/
def Matches (mapper : IAddrMapper) (lines : List (Bool × List Int)) (answers : List Bool) : Prop :=
  ∀ i, answers[i]? = some true → SentFor mapper lines i ((answers.take i).count true)

variable {mapper : IAddrMapper} {lines : List (Bool × List Int)}
  {s : ReadWriteTrace × GenericDRAMSystem} {answers : List Bool} {delivered : List Request}

theorem parseLine_eq (path : String) (line : List Char) :
    parseLine path line = Trace.ofLine <$> lineNumbers path line := by
  unfold parseLine lineNumbers
  split
  · next kind numbers _ =>
      cases parseNumbers numbers <;> (split; rfl; split <;> rfl)
  · rfl

/-- The first tick must be refused: it would send a line with its type swapped. -/
theorem Matches.first_refused (h : Matches mapper lines answers) : answers[0]? ≠ some true := by
  intro hfirst
  obtain ⟨line, due, hline, hdue, hne, -⟩ := h 0 hfirst
  exact hne (congrArg Prod.fst (Option.some.inj (hline.symm.trans hdue)))

theorem matches_concat (isSuccess : Bool) :
    Matches mapper lines (answers ++ [isSuccess]) ↔
      Matches mapper lines answers ∧
        (isSuccess = true → SentFor mapper lines answers.length (answers.count true)) := by
  constructor
  · intro h
    refine ⟨fun i hi => ?_, fun hlast => ?_⟩
    · have hlt : i < answers.length := (List.getElem?_eq_some_iff.mp hi).1
      have hat := h i ((List.getElem?_append_left hlt).trans hi)
      rwa [List.take_append_of_le_length (Nat.le_of_lt hlt)] at hat
    · have hat := h answers.length (by rw [List.getElem?_concat_length, hlast])
      rwa [List.take_left] at hat
  · rintro ⟨h, hlast⟩ i hi
    rcases Nat.lt_trichotomy i answers.length with hlt | rfl | hgt
    · rw [List.getElem?_append_left hlt] at hi
      rw [List.take_append_of_le_length (Nat.le_of_lt hlt)]
      exact h i hi
    · rw [List.getElem?_concat_length] at hi
      rw [List.take_left]
      exact hlast (Option.some.inj hi)
    · rw [List.getElem?_eq_none (by rw [List.length_append, List.length_singleton]; omega)] at hi
      cases hi

structure HasDelivered (mapper : IAddrMapper) (lines : List (Bool × List Int))
    (s : ReadWriteTrace × GenericDRAMSystem) (answers : List Bool) (delivered : List Request) :
    Prop where
  trace_eq : s.1.trace = lines.map Trace.ofLine
  length_eq : s.1.traceLength = lines.length
  idx_eq : s.1.currTraceIdx = answers.length % lines.length
  mapper_eq : s.2.addrMapper = mapper
  counts : s.2.Counts delivered
  length_delivered : delivered.length = answers.count true
  delivered_iff : delivered.map (fun req => (req.type, req.addrVec)) =
    (Cyclic.cycle lines (answers.count true)).map lineAccess ↔ Matches mapper lines answers

theorem request_eq_access_iff {line due : Bool × List Int} :
    ((mapper.apply (Trace.ofLine line).request).type,
        (mapper.apply (Trace.ofLine line).request).addrVec) = lineAccess due ↔
      line.1 ≠ due.1 ∧ (mapper.apply (Trace.ofLine line).request).addrVec = due.2 := by
  have htype : (mapper.apply (Trace.ofLine line).request).type =
      (Trace.ofLine line).request.type := by rw [mapper.apply_eq]
  have hswapped : (Trace.ofLine line).request.type = accessType due.1 ↔ line.1 ≠ due.1 := by
    change (if line.1 = true then ReqType.Read else ReqType.Write) = accessType due.1 ↔ _
    cases line.1 <;> cases due.1 <;> decide
  rw [lineAccess, Prod.mk.injEq, htype, hswapped]

theorem HasDelivered.step (hne : lines ≠ []) (h : HasDelivered mapper lines s answers delivered)
    (isSuccess : Bool) :
    ∃ s' out, tick s isSuccess = some (s', out) ∧
      HasDelivered mapper lines s' (answers ++ [isSuccess]) (delivered ++ out) := by
  obtain ⟨line, hline⟩ := Cyclic.exists_getElem? hne answers.length
  have hget : s.1.trace[s.1.currTraceIdx]? = some (Trace.ofLine line) := by
    rw [h.trace_eq, h.idx_eq, List.getElem?_map, hline, Option.map_some]
  have hcounts := h.counts.send (Trace.ofLine line).request isSuccess
  have hidx : (s.1.currTraceIdx + 1) % s.1.traceLength =
      (answers ++ [isSuccess]).length % lines.length := by
    rw [h.idx_eq, h.length_eq, Nat.mod_add_mod, List.length_append, List.length_singleton]
  refine ⟨_, _, by rw [tick, hget, Option.map_some], ?_⟩
  cases isSuccess with
  | false =>
      have hsame : (answers ++ [false]).count true = answers.count true := by simp
      rw [GenericDRAMSystem.send_false, Option.toList_none, List.append_nil] at hcounts ⊢
      refine ⟨h.trace_eq, h.length_eq, hidx, h.mapper_eq, hcounts, ?_, ?_⟩
      · rw [hsame, h.length_delivered]
      · rw [hsame, h.delivered_iff, matches_concat]
        exact (and_iff_left nofun).symm
  | true =>
      have hnext : (answers ++ [true]).count true = answers.count true + 1 := by simp
      obtain ⟨due, hdue⟩ := Cyclic.exists_getElem? hne (answers.count true)
      obtain ⟨hsent, hmapper⟩ := GenericDRAMSystem.send_true s.2 (Trace.ofLine line).request
      rw [hsent, h.mapper_eq, Option.toList_some] at hcounts ⊢
      refine ⟨h.trace_eq, h.length_eq, hidx, hmapper.trans h.mapper_eq, hcounts, ?_, ?_⟩
      · rw [hnext, List.length_append, h.length_delivered, List.length_singleton]
      · have hfor : SentFor mapper lines answers.length (answers.count true) ↔
            line.1 ≠ due.1 ∧ (mapper.apply (Trace.ofLine line).request).addrVec = due.2 := by
          refine ⟨fun ⟨l, d, hl, hd, hand⟩ => ?_, fun hand => ⟨line, due, hline, hdue, hand⟩⟩
          obtain rfl := Option.some.inj (hl.symm.trans hline)
          obtain rfl := Option.some.inj (hd.symm.trans hdue)
          exact hand
        rw [hnext, Cyclic.cycle_succ_of_getElem? hdue, List.map_append, List.map_append,
          matches_concat, hfor, ← h.delivered_iff, ← request_eq_access_iff]
        refine ⟨fun heq => ?_, fun ⟨hpast, hlast⟩ => ?_⟩
        · obtain ⟨hpast, hlast⟩ := List.append_inj' heq rfl
          exact ⟨hpast, fun _ => List.singleton_inj.mp hlast⟩
        · rw [hpast, List.map_singleton, List.map_singleton, hlast rfl]

/-- A run delivers the trace exactly where each accepted tick sends its line for the line that is
due. -/
theorem delivers_iff (mapper : IAddrMapper) {path : String} {text : List Char}
    (hlines : (fileLines text).mapM (lineNumbers path) = .ok lines) (hne : lines ≠ [])
    (answers : List Bool) :
    Delivers mapper path text lines answers ↔ Matches mapper lines answers := by
  let f : ReadWriteTrace := { trace := lines.map Trace.ofLine, traceLength := lines.length }
  have hparse : (fileLines text).mapM (parseLine path) = .ok (lines.map Trace.ofLine) := by
    refine mapM_of_map_ok ?_
    have hmap := congrArg (List.map (Trace.ofLine <$> ·)) (map_of_mapM_ok hlines)
    rw [List.map_map, List.map_map] at hmap
    rw [funext (parseLine_eq path), List.map_map]
    exact hmap
  have hinitTrace : initTrace path text = .ok f :=
    map_eq_ok.mpr ⟨_, hparse, by rw [List.length_map]⟩
  have hinit : HasDelivered mapper lines (f, { addrMapper := mapper }) [] [] :=
    ⟨rfl, rfl, (Nat.zero_mod _).symm, rfl, ⟨rfl, rfl, rfl⟩, rfl, iff_of_true rfl fun _ h => nomatch h⟩
  obtain ⟨last, delivered, hrun, h⟩ := Runs.outputs_total (I := HasDelivered mapper lines)
    (fun _ _ _ l hs => hs.step hne l) hinit answers
  rw [List.nil_append, List.nil_append] at h
  rw [← h.delivered_iff]
  refine ⟨fun ⟨f', last', delivered', hf', hrun', _, heq⟩ => ?_, fun heq =>
    ⟨f, last, delivered, hinitTrace, hrun, h.counts, heq⟩⟩
  obtain rfl := Except.ok.inj (hf'.symm.trans hinitTrace)
  obtain ⟨-, rfl⟩ := Prod.mk.inj (Option.some.inj (hrun'.symm.trans hrun))
  exact heq

end ReadWriteTrace

/-- Of every trace, `LoadStoreTrace` delivers each access once and in order, whatever the memory
system answers; `ReadWriteTrace` does so exactly in the runs in which each accepted tick sends its
line for the line that is due. -/
theorem trace_front_ends_iff (mapper : IAddrMapper) {path path' : String} {text text' : List Char}
    {trace : List LoadStoreTrace.Trace} {lines : List (Bool × List Int)}
    (htrace : (fileLines text).mapM (LoadStoreTrace.parseLine path) = .ok trace) (hne : trace ≠ [])
    (hlines : (fileLines text').mapM (ReadWriteTrace.lineNumbers path') = .ok lines)
    (hne' : lines ≠ []) (answers : List Bool) :
    LoadStoreTrace.Delivers mapper path text trace answers ∧
      (ReadWriteTrace.Delivers mapper path' text' lines answers ↔
        ReadWriteTrace.Matches mapper lines answers) :=
  ⟨LoadStoreTrace.delivers mapper htrace hne answers,
    ReadWriteTrace.delivers_iff mapper hlines hne' answers⟩

/-- A refused send and two accesses of the vector that the mapper makes of the address `-1`. -/
theorem trace_front_ends_iff_refused :
    let mapper := IAddrMapper.linear (LinearMapperBase.setup [2, 1, 4, 4, 16, 8] 4 8 64) .ChRaBaRoCo
    let answers := [false, true, true]
    LoadStoreTrace.Delivers mapper "loads" "LD 64\nST 0x80\n".toList [⟨false, 64⟩, ⟨true, 128⟩]
        answers ∧
      ReadWriteTrace.Delivers mapper "vectors" "R 1,0,3,3,15,0\nW 1,0,3,3,15,0".toList
        [(false, [1, 0, 3, 3, 15, 0]), (true, [1, 0, 3, 3, 15, 0])] answers := by
  intro mapper answers
  have htrace : (fileLines "LD 64\nST 0x80\n".toList).mapM (LoadStoreTrace.parseLine "loads") =
      .ok [⟨false, 64⟩, ⟨true, 128⟩] := by
    decide +kernel
  have hlines : (fileLines "R 1,0,3,3,15,0\nW 1,0,3,3,15,0".toList).mapM
      (ReadWriteTrace.lineNumbers "vectors") =
        .ok [(false, [1, 0, 3, 3, 15, 0]), (true, [1, 0, 3, 3, 15, 0])] := by
    decide +kernel
  obtain ⟨hload, hread⟩ :=
    trace_front_ends_iff mapper htrace (by decide) hlines (by decide) answers
  refine ⟨hload, hread.mpr fun i hi => ?_⟩
  have hvector : ∀ isWrite, (mapper.apply (ReadWriteTrace.Trace.ofLine
      (isWrite, [1, 0, 3, 3, 15, 0])).request).addrVec = [1, 0, 3, 3, 15, 0] := by
    decide +kernel
  match i, hi with
  | 1, _ => exact ⟨(true, [1, 0, 3, 3, 15, 0]), (false, _), rfl, rfl, nofun, hvector true⟩
  | 2, _ => exact ⟨(false, [1, 0, 3, 3, 15, 0]), (true, _), rfl, rfl, nofun, hvector false⟩

/-- A read that is accepted at once is delivered as a write. -/
theorem read_delivered_as_write :
    let mapper := IAddrMapper.linear (LinearMapperBase.setup [2, 1, 4, 4, 16, 8] 4 8 64) .ChRaBaRoCo
    let lines := [(false, [0, 0, 1, 1, 5, 0])]
    (fileLines "R 0,0,1,1,5,0\n".toList).mapM (ReadWriteTrace.lineNumbers "vectors") = .ok lines ∧
      (∃ last delivered,
        Runs.outputs ReadWriteTrace.tick
            ({ trace := lines.map ReadWriteTrace.Trace.ofLine, traceLength := 1 },
              { addrMapper := mapper }) [true] = some (last, delivered) ∧
          delivered.map Request.type = [.Write]) ∧
      ¬ ReadWriteTrace.Delivers mapper "vectors" "R 0,0,1,1,5,0\n".toList lines [true] := by
  intro mapper lines
  have hlines : (fileLines "R 0,0,1,1,5,0\n".toList).mapM (ReadWriteTrace.lineNumbers "vectors") =
      .ok lines := by
    decide +kernel
  refine ⟨hlines, ⟨_, _, rfl, rfl⟩, fun h => ?_⟩
  exact ((ReadWriteTrace.delivers_iff mapper hlines (by decide) [true]).mp h).first_refused rfl

end AimSimulator.Frontend
