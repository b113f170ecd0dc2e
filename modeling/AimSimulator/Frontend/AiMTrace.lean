import AimSimulator.Base.Request
/-!
# The AiM trace front end

`AiMTrace::get_host_request` of `frontend/impl/memory_trace/aim_trace.cpp`.  A line of the
trace is what its tokens stand for; empty lines and other comments are left out.  A call that
throws, exits or reads behind the last token returns `none`.
-/

namespace AimSimulator.Frontend

/-- The tokens of a line, with the numbers that `token_decoder` reads. -/
inductive TraceLine
  /-- `# PHASE attention_end` -/
  | attentionEnd
  | aim (opcode : Opcode) (fields : List Int)
  | access (type : ReqType) (region : MemAccessRegion) (fields : List Int)
  deriving DecidableEq, Repr

def narrow (width : Nat) (value : Int) : Int := (BitVec.ofInt width value).toInt

/-- `req.name = token_decoder<decltype(req.name)>(…)`. -/
def setField (value : Int) (req : Request) : Field → Request
  | .opsize => { req with opsize := narrow 32 value }
  | .gprAddr0 => { req with gprAddr0 := narrow 64 value }
  | .gprAddr1 => { req with gprAddr1 := narrow 64 value }
  | .channelMask => { req with channelMask := narrow 64 value }
  | .bankIndex => { req with bankIndex := narrow 16 value }
  | .rowAddr => { req with rowAddr := narrow 32 value }
  | .colAddr => { req with colAddr := narrow 32 value }
  | .threadIndex => { req with threadIndex := narrow 8 value }

def getField (req : Request) : Field → Int
  | .opsize => req.opsize
  | .gprAddr0 => req.gprAddr0
  | .gprAddr1 => req.gprAddr1
  | .channelMask => req.channelMask
  | .bankIndex => req.bankIndex
  | .rowAddr => req.rowAddr
  | .colAddr => req.colAddr
  | .threadIndex => req.threadIndex

def decodeField (isr : AiMISR) (req : Request) (values : List Int) (field : Field) :
    Option (Request × List Int) :=
  if isr.isFieldLegal field then
    match values with
    | [] => none
    | value :: rest =>
        let req := setField value req field
        if getField req field = -1 then none else some (req, rest)
  else some (req, values)

def decodeFields (isr : AiMISR) (req : Request) (values : List Int) :
    Option (Request × List Int) :=
  [.opsize, .gprAddr0, .gprAddr1, .channelMask, .bankIndex, .rowAddr, .colAddr,
    .threadIndex].foldlM (fun (req, values) field => decodeField isr req values field)
      (req, values)

/-- The state of `AiMTrace`: the lines that follow, the next id, the checkpoints so far and
whether the trace has reached its `EOC`. -/
structure AiMTrace where
  lines : List TraceLine
  hostReqId : Int := 0
  attentionCheckpoints : Nat := 0
  reachedEOC : Bool := false

namespace AiMTrace

/-- The host request of an instruction; tag `1` is `AiMTrace::receive`. -/
def aimRequest (hostReqId : Int) (opcode : Opcode) (fields : List Int) : Option Request :=
  (convertOpcodeToISR opcode).bind fun isr =>
    if isr.legalFields.length ≠ fields.length then none
    else
      (decodeFields isr { hostReqId, type := .AIM, typeId := 4, opcode := isr.opcode } fields).map
        fun (req, _) =>
          { req with callback := if isr.opcode = .ISR_EOC then .frontEnd 1 else .empty }

def accessRequest (hostReqId : Int) (type : ReqType) (region : MemAccessRegion)
    (fields : List Int) : Option Request :=
  let req : Request :=
    { hostReqId, type, typeId := if type = .Read then 0 else 1, memAccessRegion := region }
  match region, fields with
  | .CFR, addr :: data :: _ => some { req with addr := narrow 64 addr, data := narrow 32 data }
  | .GPR, addr :: _ => some { req with addr := narrow 64 addr }
  | .MEM, channelMask :: bankIndex :: rowAddr :: _ =>
      some { req with
        channelMask := narrow 64 channelMask
        bankIndex := narrow 16 bankIndex
        rowAddr := narrow 32 rowAddr }
  | _, _ => none

/-- `get_host_request`; tag `0` is the callback that reports `attention_end_cycles`. -/
def getHostRequest (t : AiMTrace) : Option (Request × AiMTrace) :=
  if t.reachedEOC then none
  else
    match t.lines with
    | [] => none
    | .attentionEnd :: lines =>
        if t.attentionCheckpoints + 1 ≠ 1 then none
        else
          some ({ hostReqId := t.hostReqId, type := .AIM, opcode := .ISR_SYNC,
                  callback := .frontEnd 0 },
            { t with
              lines
              hostReqId := t.hostReqId + 1
              attentionCheckpoints := t.attentionCheckpoints + 1 })
    | .aim opcode fields :: lines =>
        (aimRequest t.hostReqId opcode fields).map fun req =>
          (req, { t with
            lines
            hostReqId := t.hostReqId + 1
            reachedEOC := req.opcode = .ISR_EOC })
    | .access type region fields :: lines =>
        if type = .Read ∨ type = .Write then
          (accessRequest t.hostReqId type region fields).map fun req =>
            (req, { t with lines, hostReqId := t.hostReqId + 1 })
        else none

def hostRequests : Nat → AiMTrace → List Request
  | 0, _ => []
  | n + 1, t =>
      match t.getHostRequest with
      | some (req, t') => req :: hostRequests n t'
      | none => []

theorem mem_hostRequests {n : Nat} {t : AiMTrace} {req : Request} (h : req ∈ hostRequests n t) :
    ∃ u u' : AiMTrace, u.getHostRequest = some (req, u') := by
  induction n generalizing t with
  | zero => cases h
  | succ n ih =>
      unfold hostRequests at h
      split at h
      · next req' t' heq =>
          rcases List.mem_cons.mp h with rfl | h
          · exact ⟨t, t', heq⟩
          · exact ih h
      · cases h

/-! ## The address of a host request -/

theorem setField_addr (value : Int) (req : Request) (field : Field) :
    (setField value req field).addr = req.addr := by
  cases field <;> rfl

section

variable {β : Type} {f : Request → β} {isr : AiMISR}
  (hf : ∀ value req field, isr.isFieldLegal field = true → f (setField value req field) = f req)

include hf

theorem decodeField_keeps {field : Field} {req req' : Request} {values values' : List Int}
    (h : decodeField isr req values field = some (req', values')) : f req' = f req := by
  unfold decodeField at h
  split at h
  · next hlegal =>
      split at h
      · cases h
      · dsimp only at h
        split at h
        · cases h
        · obtain ⟨rfl, -⟩ := Prod.mk.inj (Option.some.inj h)
          exact hf _ _ field hlegal
  · obtain ⟨rfl, -⟩ := Prod.mk.inj (Option.some.inj h)
    rfl

theorem decodeFields_keeps {req req' : Request} {values values' : List Int}
    (h : decodeFields isr req values = some (req', values')) : f req' = f req := by
  unfold decodeFields at h
  generalize [Field.opsize, .gprAddr0, .gprAddr1, .channelMask, .bankIndex, .rowAddr, .colAddr,
    .threadIndex] = fields at h
  induction fields generalizing req values with
  | nil =>
      obtain ⟨rfl, -⟩ := Prod.mk.inj (Option.some.inj h)
      rfl
  | cons field fields ih =>
      rw [List.foldlM_cons] at h
      obtain ⟨⟨req₁, values₁⟩, hfield, h⟩ := Option.bind_eq_some_iff.mp h
      exact (ih h).trans (decodeField_keeps hf hfield)

end

theorem accessRequest_type {hostReqId : Int} {type : ReqType} {region : MemAccessRegion}
    {fields : List Int} {req : Request}
    (h : accessRequest hostReqId type region fields = some req) : req.type = type := by
  unfold accessRequest at h
  dsimp only at h
  split at h
  · exact (Option.some.inj h) ▸ rfl
  · exact (Option.some.inj h) ▸ rfl
  · exact (Option.some.inj h) ▸ rfl
  · cases h

theorem accessRequest_addr {hostReqId : Int} {type : ReqType} {region : MemAccessRegion}
    {fields : List Int} {req : Request} (htype : type = .Read ∨ type = .Write)
    (h : accessRequest hostReqId type region fields = some req)
    (hmem : req.type = .AIM ∨ req.memAccessRegion = .MEM) : req.addr = -1 := by
  unfold accessRequest at h
  dsimp only at h
  split at h
  · obtain rfl := Option.some.inj h
    rcases htype with rfl | rfl <;> simp at hmem
  · obtain rfl := Option.some.inj h
    rcases htype with rfl | rfl <;> simp at hmem
  · obtain rfl := Option.some.inj h
    rfl
  · cases h

/-- Only the accesses of registers have an address: every other host request of a trace keeps
the sentinel. -/
theorem getHostRequest_addr {t t' : AiMTrace} {req : Request}
    (h : t.getHostRequest = some (req, t'))
    (hmem : req.type = .AIM ∨ req.memAccessRegion = .MEM) : req.addr = -1 := by
  unfold getHostRequest at h
  split at h
  · cases h
  · split at h
    · cases h
    · split at h
      · cases h
      · obtain ⟨rfl, -⟩ := Prod.mk.inj (Option.some.inj h)
        rfl
    · obtain ⟨req', hreq, heq⟩ := Option.map_eq_some_iff.mp h
      obtain ⟨rfl, -⟩ := Prod.mk.inj heq
      obtain ⟨isr, -, hreq⟩ := Option.bind_eq_some_iff.mp hreq
      split at hreq
      · cases hreq
      · obtain ⟨⟨req₁, rest⟩, hfields, rfl⟩ := Option.map_eq_some_iff.mp hreq
        exact decodeFields_keeps (fun value req field _ => setField_addr value req field) hfields
    · split at h
      · next htype =>
          obtain ⟨req', hreq, heq⟩ := Option.map_eq_some_iff.mp h
          obtain ⟨rfl, -⟩ := Prod.mk.inj heq
          exact accessRequest_addr htype hreq hmem
      · cases h

end AiMTrace

end AimSimulator.Frontend
