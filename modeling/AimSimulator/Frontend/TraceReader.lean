import AimSimulator.Frontend.TraceFields
/-!
# Reading an AiM trace

`AiMTrace::get_host_request` and `AiMTrace::tick` over the text of a trace.  The reader tests
for the end of the file before it looks at the line it has just got, so a line without a newline
is never looked at.
-/

namespace AimSimulator.Frontend

open Excepts

/-- What `getline` finds in a file: the lines that end with a newline, and what follows the last
newline, at which it sets `eof`. -/
structure TraceFile where
  lines : List (List Char)
  tail : List Char

def allLines (text : List Char) : List (List Char) := text.splitOn '\n'

/-- `init_trace`. -/
def TraceFile.ofText (text : List Char) : TraceFile where
  lines := (allLines text).dropLast
  tail := (allLines text).getLastD []

/-- The state of `AiMTrace`; `remainingReq` is `AiMTrace_request` while `remaining_req` is
set. -/
structure AiMTraceReader where
  delim : Char
  file : TraceFile
  hostReqId : Int := 0
  attentionCheckpoints : Nat := 0
  reachedEOC : Bool := false
  remainingReq : Option Request := none

/-- The request at the boundary of the attention phase; tag `0` is its callback. -/
def attentionEndRequest : Request := { type := .AIM, opcode := .ISR_SYNC, callback := .frontEnd 0 }

namespace AiMTraceReader

def init (delim : Char) (text : List Char) : AiMTraceReader where
  delim
  file := TraceFile.ofText text

/-- The loop of `get_host_request` over the lines that follow. -/
def readRequest (r : AiMTraceReader) :
    List (List Char) → Except TraceFault (Request × AiMTraceReader)
  | [] =>
      .error (.configurationError ("Trace: EOF reached while EOC not reached " ++
        "(trace does not have EOC host request)!"))
  | line :: lines =>
      match decodeLine r.delim line with
      | .error fault => .error fault
      | .ok .skip => r.readRequest lines
      | .ok .attentionEnd =>
          if r.attentionCheckpoints + 1 ≠ 1 then
            .error (.configurationError "Trace has more than one Attention/FFN boundary")
          else
            .ok ({ attentionEndRequest with hostReqId := r.hostReqId },
              { r with
                file := { r.file with lines }
                attentionCheckpoints := r.attentionCheckpoints + 1
                hostReqId := r.hostReqId + 1 })
      | .ok (.request req) =>
          .ok ({ req with hostReqId := r.hostReqId },
            { r with
              file := { r.file with lines }
              hostReqId := r.hostReqId + 1
              reachedEOC := req.opcode = .ISR_EOC })

def getHostRequest (r : AiMTraceReader) : Except TraceFault (Request × AiMTraceReader) :=
  if r.reachedEOC then
    .error (.configurationError "Trace: asking for host request while EOC reached!")
  else r.readRequest r.file.lines

/-- The first part of `tick`: the next request, if none remains. -/
def fetch (r : AiMTraceReader) : Except TraceFault AiMTraceReader :=
  if r.remainingReq = none ∧ r.reachedEOC = false then
    (fun (req, r) => { r with remainingReq := some req }) <$> r.getHostRequest
  else .ok r

/-- The second part of `tick`, given the answer of the memory system: the reader and the
request that the memory system accepted. -/
def offer (r : AiMTraceReader) (sent : Bool) : AiMTraceReader × Option Request :=
  if sent then ({ r with remainingReq := none }, r.remainingReq) else (r, none)

def tick (r : AiMTraceReader) (sent : Bool) :
    Except TraceFault (AiMTraceReader × Option Request) :=
  (fun r => r.offer sent) <$> r.fetch

/-- Successive ticks with the answers of the memory system: the accepted requests. -/
def run (r : AiMTraceReader) : List Bool → Except TraceFault (AiMTraceReader × List Request)
  | [] => .ok (r, [])
  | sent :: answers => do
      let (r, accepted) ← r.tick sent
      let (r, rest) ← r.run answers
      return (r, accepted.toList ++ rest)

end AiMTraceReader

/-! ## The instructions of a trace -/

def instructionOf (delim : Char) (id : Int) (line : List Char) : Option Request :=
  match decodeLine delim line with
  | .ok .attentionEnd => some { attentionEndRequest with hostReqId := id }
  | .ok (.request req) => some { req with hostReqId := id }
  | .ok .skip | .error _ => none

/-- The instructions of the lines of a trace, with consecutive ids from `id` on. -/
def instructions (delim : Char) (id : Int) : List (List Char) → List Request
  | [] => []
  | line :: lines =>
      match instructionOf delim id line with
      | some req => req :: instructions delim (id + 1) lines
      | none => instructions delim id lines

def Accepted (delim : Char) (line : List Char) : Prop := ∃ d, decodeLine delim line = .ok d

def IsEOC (delim : Char) (line : List Char) : Prop :=
  ∃ req, decodeLine delim line = .ok (.request req) ∧ req.opcode = .ISR_EOC

def IsSkipped (delim : Char) (line : List Char) : Prop := decodeLine delim line = .ok .skip

def boundaries (delim : Char) (lines : List (List Char)) : Nat :=
  lines.countP fun line => decodeLine delim line = .ok .attentionEnd

section

variable {delim : Char} {id : Int} {lines before after skipped : List (List Char)} {line : List Char}

theorem instructions_some {req : Request} (h : instructionOf delim id line = some req) :
    instructions delim id (line :: lines) = req :: instructions delim (id + 1) lines := by
  rw [instructions, h]

theorem instructions_none (h : instructionOf delim id line = none) :
    instructions delim id (line :: lines) = instructions delim id lines := by
  rw [instructions, h]

theorem instructions_append :
    instructions delim id (lines ++ after) =
      instructions delim id lines ++
        instructions delim (id + (instructions delim id lines).length) after := by
  induction lines generalizing id with
  | nil => simp [instructions]
  | cons line lines ih =>
      rw [List.cons_append]
      cases hline : instructionOf delim id line with
      | some req =>
          have hshift : ∀ n : Nat, id + 1 + (n : Int) = id + ((n + 1 : Nat) : Int) := by omega
          rw [instructions_some hline, instructions_some hline, ih, List.cons_append,
            List.length_cons, hshift]
      | none => rw [instructions_none hline, instructions_none hline, ih]

theorem instructionOf_skipped (h : IsSkipped delim line) : instructionOf delim id line = none := by
  rw [instructionOf, show decodeLine delim line = .ok .skip from h]

theorem instructions_skipped (h : ∀ line ∈ skipped, IsSkipped delim line) :
    instructions delim id skipped = [] := by
  induction skipped with
  | nil => rfl
  | cons line skipped ih =>
      obtain ⟨hline, hrest⟩ := List.forall_mem_cons.mp h
      rw [instructions_none (instructionOf_skipped hline), ih hrest]

theorem instructionOf_callback {req : Request} (h : instructionOf delim id line = some req) :
    req.callback ≠ .aimReceive ∧ (req.callback = .frontEnd 1 → IsEOC delim line) := by
  unfold instructionOf at h
  split at h
  · rw [← Option.some.inj h]
    exact ⟨nofun, nofun⟩
  · next q hq =>
      rw [← Option.some.inj h]
      dsimp only
      rcases decodeLine_callback hq with hnone | ⟨hend, hopcode⟩
      · rw [hnone]
        exact ⟨nofun, nofun⟩
      · rw [hend]
        exact ⟨nofun, fun _ => ⟨q, hq, hopcode⟩⟩
  · cases h
  · cases h

theorem instructions_callback {req : Request} (h : req ∈ instructions delim id lines) :
    req.callback ≠ .aimReceive ∧
      (req.callback = .frontEnd 1 → ∃ line ∈ lines, IsEOC delim line) := by
  induction lines generalizing id with
  | nil => cases h
  | cons line lines ih =>
      have hrest : ∀ {id}, req ∈ instructions delim id lines → req.callback ≠ .aimReceive ∧
          (req.callback = .frontEnd 1 → ∃ l ∈ line :: lines, IsEOC delim l) := fun hmem =>
        (ih hmem).imp_right fun hend hcallback =>
          (hend hcallback).imp fun l hl => hl.imp_left (List.mem_cons_of_mem _)
      unfold instructions at h
      split at h
      · next head hline =>
          rcases List.mem_cons.mp h with rfl | h
          · exact (instructionOf_callback hline).imp_right fun hend hcallback =>
              ⟨line, List.mem_cons_self, hend hcallback⟩
          · exact hrest h
      · exact hrest h

theorem boundaries_skipped (h : ∀ line ∈ skipped, IsSkipped delim line) :
    boundaries delim skipped = 0 := by
  refine List.countP_eq_zero.mpr fun line hline heq => ?_
  have hskip := h line hline
  unfold IsSkipped at hskip
  rw [of_decide_eq_true heq] at hskip
  cases hskip

end

namespace AiMTraceReader

variable {r r' : AiMTraceReader} {lines : List (List Char)} {req : Request}

inductive Stops (r : AiMTraceReader) (line : List Char) (lines : List (List Char)) :
    Request → AiMTraceReader → Prop
  | attentionEnd : decodeLine r.delim line = .ok .attentionEnd → r.attentionCheckpoints = 0 →
      Stops r line lines { attentionEndRequest with hostReqId := r.hostReqId }
        { r with
          file := { r.file with lines }
          attentionCheckpoints := r.attentionCheckpoints + 1
          hostReqId := r.hostReqId + 1 }
  | request {req : Request} : decodeLine r.delim line = .ok (.request req) →
      Stops r line lines { req with hostReqId := r.hostReqId }
        { r with
          file := { r.file with lines }
          hostReqId := r.hostReqId + 1
          reachedEOC := req.opcode = .ISR_EOC }

theorem readRequest_eq_ok :
    r.readRequest lines = .ok (req, r') ↔
      ∃ skipped line rest, lines = skipped ++ line :: rest ∧
        (∀ l ∈ skipped, IsSkipped r.delim l) ∧ Stops r line rest req r' := by
  induction lines with
  | nil => exact ⟨nofun, fun ⟨_, _, _, h, _⟩ => by simp at h⟩
  | cons line lines ih =>
      unfold readRequest
      constructor
      · intro h
        split at h
        · cases h
        · next hskip =>
            obtain ⟨skipped, line', rest, rfl, hall, hstops⟩ := ih.mp h
            exact ⟨line :: skipped, line', rest, rfl, List.forall_mem_cons.mpr ⟨hskip, hall⟩, hstops⟩
        · next hend =>
            split at h
            · cases h
            · next hfirst =>
                obtain ⟨rfl, rfl⟩ := Prod.mk.inj (Except.ok.inj h)
                exact ⟨[], line, lines, rfl, fun _ h => (nomatch h), .attentionEnd hend (by omega)⟩
        · next req hreq =>
            obtain ⟨rfl, rfl⟩ := Prod.mk.inj (Except.ok.inj h)
            exact ⟨[], line, lines, rfl, fun _ h => (nomatch h), .request hreq⟩
      · rintro ⟨skipped, line', rest, hlines, hall, hstops⟩
        cases skipped with
        | nil =>
            obtain ⟨rfl, rfl⟩ := List.cons.inj hlines
            cases hstops with
            | attentionEnd hend hzero =>
                rw [hend]
                dsimp only
                rw [if_neg (by omega)]
            | request hreq => rw [hreq]
        | cons l skipped =>
            obtain ⟨rfl, rfl⟩ := List.cons.inj hlines
            obtain ⟨hskip, hall⟩ := List.forall_mem_cons.mp hall
            rw [show decodeLine r.delim line = .ok .skip from hskip]
            exact ih.mpr ⟨skipped, line', rest, rfl, hall, hstops⟩

variable {line : List Char}

/-- What a stop says about its line, and what it leaves of the reader. -/
structure StopSpec (r : AiMTraceReader) (line : List Char) (lines : List (List Char))
    (req : Request) (r' : AiMTraceReader) : Prop where
  delim_eq : r'.delim = r.delim
  lines_eq : r'.file.lines = lines
  accepts : Accepted r.delim line
  instruction : instructionOf r.delim r.hostReqId line = some req
  id_eq : r'.hostReqId = r.hostReqId + 1
  checkpoints_eq : r'.attentionCheckpoints = r.attentionCheckpoints + boundaries r.delim [line]
  atMostOne : boundaries r.delim [line] ≤ 1 - r.attentionCheckpoints
  reachedEOC_iff : r'.reachedEOC = true ↔ IsEOC r.delim line

theorem Stops.spec (h : Stops r line lines req r') (hrunning : r.reachedEOC = false) :
    StopSpec r line lines req r' := by
  cases h with
  | attentionEnd hend hzero =>
      have hcount : boundaries r.delim [line] = 1 := by
        rw [boundaries, List.countP_singleton, if_pos (decide_eq_true hend)]
      refine ⟨rfl, rfl, ⟨_, hend⟩, ?_, rfl, ?_, ?_, ?_⟩
      · rw [instructionOf, hend]
      · rw [hcount]
      · rw [hcount, hzero]
      · dsimp only
        rw [hrunning]
        refine iff_of_false Bool.false_ne_true fun ⟨_, hreq, _⟩ => ?_
        cases hend.symm.trans hreq
  | @request q hreq =>
      have hcount : boundaries r.delim [line] = 0 := by
        rw [boundaries, List.countP_singleton, if_neg]
        rw [hreq]
        exact nofun
      refine ⟨rfl, rfl, ⟨_, hreq⟩, ?_, rfl, ?_, ?_, ?_⟩
      · rw [instructionOf, hreq]
      · rw [hcount, Nat.add_zero]
      · rw [hcount]
        exact Nat.zero_le _
      · dsimp only
        rw [decide_eq_true_eq]
        refine ⟨fun heoc => ⟨q, hreq, heoc⟩, fun ⟨q', hreq', heoc⟩ => ?_⟩
        obtain rfl := Decoded.request.inj (Except.ok.inj (hreq.symm.trans hreq'))
        exact heoc

/-- How far a reader has come: the lines it has read, and the requests that were accepted. -/
structure HasRead (delim : Char) (lines consumed : List (List Char)) (r : AiMTraceReader)
    (accepted : List Request) : Prop where
  delim_eq : r.delim = delim
  lines_eq : lines = consumed ++ r.file.lines
  accepts : ∀ l ∈ consumed, Accepted delim l
  sent : accepted ++ r.remainingReq.toList = instructions delim 0 consumed
  id_eq : r.hostReqId = (instructions delim 0 consumed).length
  checkpoints_eq : r.attentionCheckpoints = boundaries delim consumed
  atMostOne : boundaries delim consumed ≤ 1
  running : r.reachedEOC = false → ∀ l ∈ consumed, ¬ IsEOC delim l
  stopped : r.reachedEOC = true → ∃ before eoc, consumed = before ++ [eoc] ∧ IsEOC delim eoc ∧
    ∀ l ∈ before, ¬ IsEOC delim l

theorem IsSkipped.not_isEOC {delim : Char} {l : List Char} (h : IsSkipped delim l) :
    ¬ IsEOC delim l := fun ⟨_, hreq, _⟩ => nomatch Except.ok.inj (h.symm.trans hreq)

namespace HasRead

variable {delim : Char} {consumed : List (List Char)} {accepted : List Request}

theorem init (delim : Char) (text : List Char) :
    HasRead delim (TraceFile.ofText text).lines [] (AiMTraceReader.init delim text) [] where
  delim_eq := rfl
  lines_eq := rfl
  accepts _ h := nomatch h
  sent := rfl
  id_eq := rfl
  checkpoints_eq := rfl
  atMostOne := Nat.zero_le _
  running _ _ h := nomatch h
  stopped h := nomatch h

theorem read (h : HasRead delim lines consumed r accepted) (hnone : r.remainingReq = none)
    (hrunning : r.reachedEOC = false) {skipped rest : List (List Char)}
    (hlines : r.file.lines = skipped ++ line :: rest) (hskipped : ∀ l ∈ skipped, IsSkipped r.delim l)
    (hstops : Stops r line rest req r') :
    HasRead delim lines (consumed ++ skipped ++ [line]) { r' with remainingReq := some req }
      accepted := by
  have hspec := hstops.spec hrunning
  obtain rfl := h.delim_eq
  have hsent := h.sent
  rw [hnone, Option.toList_none, List.append_nil] at hsent
  have hinstructions : instructions r.delim 0 (consumed ++ skipped ++ [line]) =
      instructions r.delim 0 consumed ++ [req] := by
    rw [List.append_assoc, instructions_append, instructions_append, instructions_skipped hskipped,
      List.nil_append, List.length_nil, Int.zero_add, ← h.id_eq]
    exact congrArg _ (instructions_some ((Int.add_zero r.hostReqId).symm ▸ hspec.instruction))
  have hboundaries : boundaries r.delim (consumed ++ skipped ++ [line]) =
      boundaries r.delim consumed + boundaries r.delim [line] := by
    have hnone := boundaries_skipped hskipped
    unfold boundaries at hnone ⊢
    rw [List.countP_append, List.countP_append, hnone, Nat.add_zero]
  have hold : ∀ l ∈ consumed ++ skipped, ¬ IsEOC r.delim l := fun l hl =>
    (List.mem_append.mp hl).elim (h.running hrunning l) fun hl => IsSkipped.not_isEOC (hskipped l hl)
  refine ⟨hspec.delim_eq, ?_, fun l hl => ?_, ?_, ?_, ?_, ?_, fun hgoes l hl => ?_, fun hends => ?_⟩
  · rw [h.lines_eq, hlines, hspec.lines_eq]
    simp only [List.append_assoc, List.singleton_append]
  · rcases List.mem_append.mp hl with hl | hl
    · rcases List.mem_append.mp hl with hl | hl
      · exact h.accepts l hl
      · exact ⟨_, hskipped l hl⟩
    · exact List.mem_singleton.mp hl ▸ hspec.accepts
  · rw [hinstructions, ← hsent]
    rfl
  · rw [hinstructions, List.length_append]
    change r'.hostReqId = _
    rw [hspec.id_eq, h.id_eq]
    rfl
  · rw [hboundaries, ← h.checkpoints_eq]
    exact hspec.checkpoints_eq
  · have hone := hspec.atMostOne
    have hbefore := h.atMostOne
    rw [h.checkpoints_eq] at hone
    rw [hboundaries]
    omega
  · rcases List.mem_append.mp hl with hl | hl
    · exact hold l hl
    · rw [List.mem_singleton.mp hl]
      intro heoc
      have hends := hspec.reachedEOC_iff.mpr heoc
      rw [show r'.reachedEOC = false from hgoes] at hends
      cases hends
  · exact ⟨_, line, rfl, hspec.reachedEOC_iff.mp hends, hold⟩

theorem fetch (h : HasRead delim lines consumed r accepted) (hfetch : r.fetch = .ok r') :
    ∃ consumed', HasRead delim lines consumed' r' accepted ∧
      (r'.remainingReq = none → r'.reachedEOC = true) := by
  unfold AiMTraceReader.fetch at hfetch
  split at hfetch
  · next hnext =>
      obtain ⟨hnone, hrunning⟩ := hnext
      obtain ⟨⟨req, u⟩, hget, rfl⟩ := map_eq_ok.mp hfetch
      unfold getHostRequest at hget
      rw [hrunning, if_neg Bool.false_ne_true] at hget
      obtain ⟨skipped, line, rest, hlines, hskipped, hstops⟩ := readRequest_eq_ok.mp hget
      exact ⟨_, h.read hnone hrunning hlines hskipped hstops, fun h => nomatch h⟩
  · next hnext =>
      obtain rfl := Except.ok.inj hfetch
      refine ⟨consumed, h, fun hnone => ?_⟩
      exact Bool.of_not_eq_false fun hrunning => hnext ⟨hnone, hrunning⟩

theorem offer (h : HasRead delim lines consumed r accepted) (sent : Bool) :
    HasRead delim lines consumed (r.offer sent).1 (accepted ++ (r.offer sent).2.toList) := by
  cases sent with
  | false =>
      rw [show r.offer false = (r, none) from rfl, Option.toList_none, List.append_nil]
      exact h
  | true =>
      refine ⟨h.delim_eq, h.lines_eq, h.accepts, ?_, h.id_eq, h.checkpoints_eq, h.atMostOne,
        h.running, h.stopped⟩
      rw [← h.sent]
      exact List.append_nil _

theorem run {answers : List Bool} {sent : List Request}
    (h : HasRead delim lines consumed r accepted) (hrun : r.run answers = .ok (r', sent)) :
    ∃ consumed', HasRead delim lines consumed' r' (accepted ++ sent) := by
  induction answers generalizing r consumed accepted sent with
  | nil =>
      obtain ⟨rfl, rfl⟩ := Prod.mk.inj (Except.ok.inj hrun)
      exact ⟨consumed, (List.append_nil accepted).symm ▸ h⟩
  | cons answer answers ih =>
      obtain ⟨⟨r₁, first⟩, htick, hrun⟩ := bind_eq_ok.mp hrun
      obtain ⟨⟨r₂, rest⟩, hrest, heq⟩ := bind_eq_ok.mp hrun
      obtain ⟨rfl, rfl⟩ := Prod.mk.inj (Except.ok.inj heq)
      obtain ⟨u, hfetch, hoffer⟩ := map_eq_ok.mp htick
      obtain ⟨consumed', hu, -⟩ := h.fetch hfetch
      have hr₁ := hu.offer answer
      rw [hoffer] at hr₁
      obtain ⟨consumed'', h''⟩ := ih hr₁ hrest
      exact ⟨consumed'', by rwa [← List.append_assoc]⟩

theorem not_isEOC_of_append (h : HasRead delim lines consumed r accepted)
    {before after : List (List Char)} (hconsumed : consumed = before ++ line :: after) :
    ∀ l ∈ before, ¬ IsEOC delim l := by
  intro l hl
  cases hends : r.reachedEOC with
  | false => exact h.running hends l (hconsumed ▸ List.mem_append_left _ hl)
  | true =>
      obtain ⟨first, eoc, hlast, -, hfirst⟩ := h.stopped hends
      refine hfirst l ?_
      have hdrop : first = before ++ (line :: after).dropLast := by
        rw [← List.dropLast_append_of_ne_nil (List.cons_ne_nil line after), ← hconsumed, hlast,
          List.dropLast_concat]
      exact hdrop ▸ List.mem_append_left _ hl

end HasRead

/-! ## Delivery -/

/-- The lines up to the first `EOC` can all be read. -/
structure Readable (delim : Char) (before : List (List Char)) (eoc : List Char) : Prop where
  accepts : ∀ l ∈ before, Accepted delim l
  running : ∀ l ∈ before, ¬ IsEOC delim l
  atMostOne : boundaries delim before ≤ 1
  isEOC : IsEOC delim eoc

theorem readRequest_ok {before rest : List (List Char)} {eoc : List Char}
    (haccepts : ∀ l ∈ before, Accepted r.delim l) (heoc : IsEOC r.delim eoc)
    (hone : r.attentionCheckpoints + boundaries r.delim before ≤ 1) :
    ∃ req r', r.readRequest (before ++ eoc :: rest) = .ok (req, r') := by
  induction before with
  | nil =>
      obtain ⟨req, hreq, -⟩ := heoc
      rw [List.nil_append, readRequest, hreq]
      exact ⟨_, _, rfl⟩
  | cons line before ih =>
      obtain ⟨⟨d, hd⟩, haccepts⟩ := List.forall_mem_cons.mp haccepts
      unfold boundaries at hone
      rw [List.countP_cons] at hone
      rw [List.cons_append, readRequest, hd]
      rw [hd] at hone
      cases d with
      | skip => exact ih haccepts (by unfold boundaries; omega)
      | attentionEnd =>
          dsimp only
          rw [if_pos (decide_eq_true rfl)] at hone
          rw [if_neg (by omega)]
          exact ⟨_, _, rfl⟩
      | request req => exact ⟨_, _, rfl⟩

namespace HasRead

variable {delim : Char} {consumed before rest : List (List Char)} {eoc : List Char}
  {accepted : List Request}

theorem exists_left (h : HasRead delim (before ++ eoc :: rest) consumed r accepted)
    (hreadable : Readable delim before eoc) :
    ∃ left, before ++ [eoc] = consumed ++ left ∧
      (r.reachedEOC = false → ∃ next, before = consumed ++ next ∧ r.file.lines = next ++ eoc :: rest) ∧
      (r.reachedEOC = true → left = []) := by
  have hstopped : r.reachedEOC = true → ∀ next, before ≠ consumed ++ next := by
    intro hends next hbefore
    obtain ⟨first, e, hlast, he, -⟩ := h.stopped hends
    refine hreadable.running e ?_ he
    rw [hbefore, hlast]
    exact List.mem_append_left _ (List.mem_append_right _ List.mem_cons_self)
  rcases List.append_eq_append_iff.mp h.lines_eq with ⟨past, hpast, hrest⟩ | ⟨next, hnext, hrest⟩
  · cases past with
    | nil =>
        rw [List.append_nil] at hpast
        exact ⟨[eoc], by rw [hpast], fun _ => ⟨[], by rw [hpast, List.append_nil], hrest.symm⟩,
          fun hends => absurd (by rw [hpast, List.append_nil]) (hstopped hends [])⟩
    | cons e past =>
        obtain ⟨rfl, -⟩ := List.cons.inj hrest
        have hends : r.reachedEOC = true := Bool.of_not_eq_false fun hrunning =>
          h.running hrunning eoc (hpast ▸ List.mem_append_right _ List.mem_cons_self)
            hreadable.isEOC
        cases past with
        | nil => exact ⟨[], by rw [hpast, List.append_nil],
            fun hrunning => absurd (hrunning.symm.trans hends) Bool.false_ne_true, fun _ => rfl⟩
        | cons l past =>
            have hmem : eoc ∈ before ++ [eoc] := List.mem_append_right _ List.mem_cons_self
            have hsplit : consumed = before ++ [eoc] ++ l :: past := by
              rw [hpast, List.append_assoc, List.singleton_append]
            exact absurd hreadable.isEOC (h.not_isEOC_of_append hsplit eoc hmem)
  · refine ⟨next ++ [eoc], by rw [hnext, List.append_assoc], fun _ => ⟨next, hnext, hrest⟩,
      fun hends => absurd hnext (hstopped hends next)⟩

theorem fetch_ok (h : HasRead delim (before ++ eoc :: rest) consumed r accepted)
    (hreadable : Readable delim before eoc) : ∃ r', r.fetch = .ok r' := by
  unfold AiMTraceReader.fetch
  split
  · next hnext =>
      obtain ⟨left, -, hgoes, -⟩ := h.exists_left hreadable
      obtain ⟨next, hbefore, hlines⟩ := hgoes hnext.2
      have hone := hreadable.atMostOne
      obtain rfl := h.delim_eq
      have haccepts : ∀ l ∈ next, Accepted r.delim l := fun l hl =>
        hreadable.accepts l (hbefore ▸ List.mem_append_right _ hl)
      have hcount : r.attentionCheckpoints + boundaries r.delim next ≤ 1 := by
        rw [h.checkpoints_eq, boundaries, boundaries, ← List.countP_append, ← hbefore]
        exact hone
      obtain ⟨req, r', hread⟩ : ∃ req r', r.readRequest (next ++ eoc :: rest) = .ok (req, r') :=
        readRequest_ok haccepts hreadable.isEOC hcount
      refine ⟨{ r' with remainingReq := some req }, map_eq_ok.mpr ⟨(req, r'), ?_, rfl⟩⟩
      rw [getHostRequest, hnext.2, if_neg Bool.false_ne_true, hlines, hread]
  · exact ⟨r, rfl⟩

theorem offer_take (h : HasRead delim (before ++ eoc :: rest) consumed r accepted)
    (hreadable : Readable delim before eoc) (hfetched : r.remainingReq = none → r.reachedEOC = true)
    {n : Nat} (hn : accepted = (instructions delim 0 (before ++ [eoc])).take n) (sent : Bool) :
    accepted ++ (r.offer sent).2.toList =
      (instructions delim 0 (before ++ [eoc])).take (n + if sent then 1 else 0) := by
  cases sent with
  | false => exact (List.append_nil _).trans hn
  | true =>
      obtain ⟨left, hleft, -, hstopped⟩ := h.exists_left hreadable
      have htotal : instructions delim 0 (before ++ [eoc]) =
          accepted ++ r.remainingReq.toList ++
            instructions delim (0 + (instructions delim 0 consumed).length) left := by
        rw [h.sent, hleft, instructions_append]
      change accepted ++ r.remainingReq.toList = _
      rw [if_pos rfl]
      cases hremaining : r.remainingReq with
      | none =>
          rw [hremaining, hstopped (hfetched hremaining), Option.toList_none, List.append_nil,
            show instructions delim _ [] = [] from rfl, List.append_nil] at htotal
          rw [htotal] at hn ⊢
          have hlength : accepted.length ≤ n := by
            have hle := congrArg List.length hn
            rw [List.length_take] at hle
            omega
          rw [Option.toList_none, List.append_nil]
          exact (List.take_of_length_le (Nat.le_succ_of_le hlength)).symm
      | some req =>
          rw [hremaining] at htotal
          have hlength : accepted.length = n := by
            have hle := congrArg List.length hn
            have hlt := congrArg List.length htotal
            rw [List.length_take] at hle
            simp only [List.length_append, Option.toList_some, List.length_singleton] at hlt
            omega
          rw [htotal, ← hlength]
          exact (List.take_left' (by simp)).symm

theorem run_ok (h : HasRead delim (before ++ eoc :: rest) consumed r accepted)
    (hreadable : Readable delim before eoc) {n : Nat}
    (hn : accepted = (instructions delim 0 (before ++ [eoc])).take n) (answers : List Bool) :
    ∃ r' sent, r.run answers = .ok (r', sent) ∧
      accepted ++ sent = (instructions delim 0 (before ++ [eoc])).take (n + answers.count true) := by
  induction answers generalizing r consumed accepted n with
  | nil => exact ⟨r, [], rfl, (List.append_nil _).trans hn⟩
  | cons answer answers ih =>
      obtain ⟨u, hfetch⟩ := h.fetch_ok hreadable
      obtain ⟨consumed', hu, hfetched⟩ := h.fetch hfetch
      have htake := hu.offer_take hreadable hfetched hn answer
      obtain ⟨r', sent, hrun, hsent⟩ := ih (hu.offer answer) htake
      have htick : r.tick answer = .ok (u.offer answer) := map_eq_ok.mpr ⟨u, hfetch, rfl⟩
      refine ⟨r', (u.offer answer).2.toList ++ sent, ?_, ?_⟩
      · exact bind_eq_ok.mpr ⟨_, htick, bind_eq_ok.mpr ⟨_, hrun, rfl⟩⟩
      · rw [← List.append_assoc, hsent, List.count_cons]
        cases answer with
        | false => rfl
        | true =>
            rw [if_pos rfl, if_pos (beq_self_eq_true true), Nat.add_right_comm, Nat.add_assoc]

end HasRead

end AiMTraceReader

/-- Whatever the memory system answers, the reader never fails, and the requests that were
accepted are the first instructions of the trace, one for each accepted send. -/
def DeliversTrace (delim : Char) (text : List Char) : Prop :=
  ∀ answers, ∃ r, (AiMTraceReader.init delim text).run answers =
    .ok (r, (instructions delim 0 (allLines text)).take (answers.count true))

section

variable {delim : Char} {text : List Char} {before after : List (List Char)} {eoc : List Char}

theorem lines_ofText {last : List Char} (htext : allLines text = before ++ eoc :: (after ++ [last])) :
    (TraceFile.ofText text).lines = before ++ eoc :: after := by
  have happend : before ++ eoc :: (after ++ [last]) = before ++ eoc :: after ++ [last] := by simp
  rw [TraceFile.ofText, htext, happend]
  exact List.dropLast_concat

theorem instructions_isEOC (heoc : IsEOC delim eoc)
    (hafter : ∀ l ∈ after, IsSkipped delim l) (id : Int) :
    instructions delim id (before ++ eoc :: after) = instructions delim id (before ++ [eoc]) ∧
      (instructions delim id (before ++ [eoc])).length =
        (instructions delim id before).length + 1 := by
  obtain ⟨req, hreq, -⟩ := heoc
  have hline : ∀ id, instructionOf delim id eoc = some { req with hostReqId := id } := fun id => by
    rw [instructionOf, hreq]
  refine ⟨?_, ?_⟩
  · rw [instructions_append, instructions_append, instructions_some (hline _),
      instructions_some (hline _), instructions_skipped hafter]
    rfl
  · rw [instructions_append, instructions_some (hline _), List.length_append]
    rfl

theorem delivers_of_readable (hafter : ∀ l ∈ after, IsSkipped delim l) (hne : after ≠ [])
    (htext : allLines text = before ++ eoc :: after)
    (hreadable : AiMTraceReader.Readable delim before eoc) : DeliversTrace delim text := by
  intro answers
  have hlast := List.dropLast_append_getLast hne
  rw [← hlast] at htext
  have hinit := AiMTraceReader.HasRead.init delim text
  rw [lines_ofText htext] at hinit
  obtain ⟨r, sent, hrun, hsent⟩ := hinit.run_ok hreadable (n := 0) rfl answers
  rw [List.nil_append, Nat.zero_add] at hsent
  rw [htext, hlast, (instructions_isEOC hreadable.isEOC hafter 0).1, ← hsent]
  exact ⟨r, hrun⟩

theorem readable_of_delivers (heoc : IsEOC delim eoc) (hafter : ∀ l ∈ after, IsSkipped delim l)
    (htext : allLines text = before ++ eoc :: after) (h : DeliversTrace delim text) :
    after ≠ [] ∧ AiMTraceReader.Readable delim before eoc := by
  obtain ⟨hsame, hlength⟩ :
      instructions delim 0 (before ++ eoc :: after) = instructions delim 0 (before ++ [eoc]) ∧
        (instructions delim 0 (before ++ [eoc])).length =
          (instructions delim 0 before).length + 1 := instructions_isEOC heoc hafter 0
  obtain ⟨r, hrun⟩ := h (List.replicate (instructions delim 0 (allLines text)).length true)
  rw [List.count_replicate_self, List.take_length, htext, hsame] at hrun
  obtain ⟨consumed, hread⟩ := (AiMTraceReader.HasRead.init delim text).run hrun
  have hsent := congrArg List.length hread.sent
  rw [List.nil_append, List.length_append] at hsent
  have hbeyond : ∀ next, before ≠ consumed ++ next := by
    intro next hbefore
    have hshort := congrArg List.length (congrArg (instructions delim 0) hbefore)
    rw [instructions_append, List.length_append] at hshort
    omega
  have hlines : before ++ eoc :: after =
      consumed ++ (r.file.lines ++ [(TraceFile.ofText text).tail]) := by
    have hne : allLines text ≠ [] := by
      rw [htext]
      simp
    rw [← List.append_assoc, ← hread.lines_eq, ← htext, TraceFile.ofText,
      List.getLastD_eq_getLast?, List.getLast?_eq_some_getLast hne]
    exact (List.dropLast_append_getLast hne).symm
  rcases List.append_eq_append_iff.mp hlines with ⟨past, hpast, hrest⟩ | ⟨next, hnext, -⟩
  · cases past with
    | nil => exact absurd (by rw [hpast, List.append_nil, List.append_nil]) (hbeyond [])
    | cons l past =>
        obtain ⟨rfl, hafter⟩ := List.cons.inj hrest
        refine ⟨?_, fun l hl => hread.accepts l (hpast ▸ List.mem_append_left _ hl),
          hread.not_isEOC_of_append hpast, ?_, heoc⟩
        · rw [hafter]
          simp
        · have hone := hread.atMostOne
          rw [hpast, boundaries, List.countP_append] at hone
          exact Nat.le_trans (Nat.le_add_right _ _) hone
  · exact absurd hnext (hbeyond next)

end

/-- A trace whose last instruction is an `EOC` is delivered exactly where that line ends with a
newline, the lines before it are accepted, none of them is an `EOC`, and at most one of them
marks the end of the attention phase. -/
theorem trace_delivered_iff {delim : Char} {text : List Char} {before after : List (List Char)}
    {eoc : List Char} (htext : allLines text = before ++ eoc :: after) (heoc : IsEOC delim eoc)
    (hafter : ∀ l ∈ after, IsSkipped delim l) :
    DeliversTrace delim text ↔
      after ≠ [] ∧ (∀ l ∈ before, Accepted delim l ∧ ¬ IsEOC delim l) ∧
        boundaries delim before ≤ 1 := by
  refine ⟨fun h => ?_, fun ⟨hne, hbefore, hone⟩ => ?_⟩
  · obtain ⟨hne, hreadable⟩ := readable_of_delivers heoc hafter htext h
    exact ⟨hne, fun l hl => ⟨hreadable.accepts l hl, hreadable.running l hl⟩, hreadable.atMostOne⟩
  · exact delivers_of_readable hafter hne htext
      ⟨fun l hl => (hbefore l hl).1, fun l hl => (hbefore l hl).2, hone, heoc⟩

/-- A write, a comment, a blank line and the `EOC`, each with its newline. -/
theorem trace_delivered_write :
    DeliversTrace ' ' "W MEM 0 1 5\n# note\n\nAiM EOC\n".toList := by
  have hlines : allLines "W MEM 0 1 5\n# note\n\nAiM EOC\n".toList =
      ["W MEM 0 1 5".toList, "# note".toList, []] ++ "AiM EOC".toList :: [[]] := by
    decide +kernel
  have hwrite : ∃ req, decodeLine ' ' "W MEM 0 1 5".toList = .ok (.request req) ∧
      req.opcode ≠ .ISR_EOC :=
    ⟨{ type := .Write, typeId := 1, memAccessRegion := .MEM, channelMask := 0, bankIndex := 1,
        rowAddr := 5 }, by decide +kernel, by decide⟩
  have hnote : IsSkipped ' ' "# note".toList := by
    unfold IsSkipped
    decide +kernel
  obtain ⟨write, hdecode, hopcode⟩ := hwrite
  refine (trace_delivered_iff hlines
    ⟨{ type := .AIM, typeId := 4, opcode := .ISR_EOC, callback := .frontEnd 1 }, by decide +kernel,
      rfl⟩ ?_).mpr ⟨by decide, ?_, by decide +kernel⟩
  · rintro l hl
    rw [List.mem_singleton.mp hl]
    rfl
  · intro l hl
    rcases List.mem_cons.mp hl with rfl | hl
    · refine ⟨⟨_, hdecode⟩, fun ⟨req, hreq, heoc⟩ => hopcode ?_⟩
      obtain rfl := Decoded.request.inj (Except.ok.inj (hdecode.symm.trans hreq))
      exact heoc
    · rcases List.mem_cons.mp hl with rfl | hl
      · exact ⟨⟨_, hnote⟩, AiMTraceReader.IsSkipped.not_isEOC hnote⟩
      · rw [List.mem_singleton.mp hl]
        exact ⟨⟨.skip, rfl⟩, AiMTraceReader.IsSkipped.not_isEOC rfl⟩

/-- Without the newline the reader fails at the `EOC`. -/
theorem last_line_not_read :
    allLines "AiM EOC".toList = ["AiM EOC".toList] ∧ IsEOC ' ' "AiM EOC".toList ∧
      (AiMTraceReader.init ' ' "AiM EOC".toList).tick true =
        .error (.configurationError ("Trace: EOF reached while EOC not reached " ++
          "(trace does not have EOC host request)!")) ∧
      ¬ DeliversTrace ' ' "AiM EOC".toList := by
  have htext : allLines "AiM EOC".toList = ["AiM EOC".toList] := by decide +kernel
  have hfails : (AiMTraceReader.init ' ' "AiM EOC".toList).tick true =
      .error (.configurationError ("Trace: EOF reached while EOC not reached " ++
        "(trace does not have EOC host request)!")) := by
    simp only [AiMTraceReader.init, AiMTraceReader.tick, AiMTraceReader.fetch,
      AiMTraceReader.getHostRequest, TraceFile.ofText, htext]
    rfl
  refine ⟨htext, ⟨{ type := .AIM, typeId := 4, opcode := .ISR_EOC, callback := .frontEnd 1 },
    by decide +kernel, rfl⟩, hfails, fun h => ?_⟩
  obtain ⟨r, hrun⟩ := h [true]
  rw [AiMTraceReader.run, hfails] at hrun
  exact nomatch hrun

end AimSimulator.Frontend
