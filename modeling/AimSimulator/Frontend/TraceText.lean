import AimSimulator.Frontend.AiMTrace
import AimSimulator.Lib.Excepts
import AimSimulator.Lib.Numerals
/-!
# The lines of an AiM trace

What `AiMTrace::get_host_request` does with one line of text: `tokenize` of `base/utils.cpp`,
the tables of `base/request.h`, `token_decoder` and the macros that decode the fields.  The
tokens from `token_idx` on are a list; an index past the last token is the fault
`beyondTokens`.
-/

namespace AimSimulator.Frontend

open Numerals

/-- How a call does not return: the exceptions, `exit`, and undefined behaviour. -/
inductive TraceFault
  | configurationError (message : String)
  | stoll (fault : Numerals.Fault)
  | exit (message : String)
  | beyondTokens
  deriving DecidableEq, Repr

abbrev Token := List Char

def tokenize (delim : Char) (line : List Char) : List Token :=
  ((line.splitOn delim).map fun token => token.filter fun c => !isSpace c).filter (· ≠ [])

/-! ## The tables of `AiMISRInfo` -/

def strToType : List (Token × ReqType) :=
  [("R".toList, .Read), ("W".toList, .Write), ("AiM".toList, .AIM)]

def strToMemAccessRegion : List (Token × MemAccessRegion) :=
  [("GPR".toList, .GPR), ("CFR".toList, .CFR), ("MEM".toList, .MEM)]

def strToOpcode : List (Token × Opcode) :=
  [("ISR_WR_SBK".toList, .ISR_WR_SBK), ("ISR_WR_ABK".toList, .ISR_WR_ABK),
    ("ISR_WR_GB".toList, .ISR_WR_GB), ("ISR_WR_BIAS".toList, .ISR_WR_BIAS),
    ("ISR_WR_AFLUT".toList, .ISR_WR_AFLUT), ("ISR_RD_MAC".toList, .ISR_RD_MAC),
    ("ISR_RD_AF".toList, .ISR_RD_AF), ("ISR_RD_SBK".toList, .ISR_RD_SBK),
    ("ISR_COPY_BKGB".toList, .ISR_COPY_BKGB), ("ISR_COPY_GBBK".toList, .ISR_COPY_GBBK),
    ("ISR_MAC_SBK".toList, .ISR_MAC_SBK), ("ISR_MAC_ABK".toList, .ISR_MAC_ABK),
    ("ISR_AF".toList, .ISR_AF), ("ISR_EWMUL".toList, .ISR_EWMUL),
    ("ISR_EWADD".toList, .ISR_EWADD), ("ISR_SYNC".toList, .ISR_SYNC),
    ("ISR_EOC".toList, .ISR_EOC)]

def convertStrToType (token : Token) : Except TraceFault ReqType :=
  match strToType.lookup token with
  | some type => .ok type
  | none => .error (.configurationError s!"Trace: unknown type {String.ofList token}!")

def convertStrToMemAccessRegion (token : Token) : Except TraceFault MemAccessRegion :=
  match strToMemAccessRegion.lookup token with
  | some region => .ok region
  | none =>
      .error (.configurationError s!"Trace: unknown mem_access_region {String.ofList token}!")

/-- `convert_opcode_str_to_AiM_ISR`. -/
def convertOpcodeStrToISR (token : Token) : Except TraceFault AiMISR :=
  match (strToOpcode.lookup token).bind convertOpcodeToISR with
  | some isr => .ok isr
  | none => .error (.configurationError s!"Trace: unknown AiM opcode {String.ofList token}!")

/-- `convert_AiM_opcode_to_str`. -/
def convertOpcodeToStr (opcode : Opcode) : String :=
  match strToOpcode.find? fun entry => entry.2 = opcode with
  | some entry => String.ofList entry.1
  | none => ""

/-- `(int)req.type`. -/
def typeId : ReqType → Int
  | .Read => 0
  | .Write => 1
  | .RefAllBank => 2
  | .RefSingleBank => 3
  | .AIM => 4
  | .MAX => 5

/-! ## Fields -/

inductive Member
  | isr (field : Field)
  | addr
  | data
  deriving DecidableEq, Repr

namespace Member

def width : Member → Nat
  | .isr .opsize | .isr .rowAddr | .isr .colAddr | .data => 32
  | .isr .gprAddr0 | .isr .gprAddr1 | .isr .channelMask | .addr => 64
  | .isr .bankIndex => 16
  | .isr .threadIndex => 8

/-- `req.name = token_decoder<decltype(req.name)>(…)`. -/
def set (value : Int) (req : Request) : Member → Request
  | .isr field => setField value req field
  | .addr => { req with addr := narrow 64 value }
  | .data => { req with data := narrow 32 value }

def get (req : Request) : Member → Int
  | .isr field => getField req field
  | .addr => req.addr
  | .data => req.data

end Member

def fieldToStr : Field → String
  | .opsize => "opsize"
  | .gprAddr0 => "GPR_addr_0"
  | .gprAddr1 => "GPR_addr_1"
  | .channelMask => "channel_mask"
  | .bankIndex => "bank_index"
  | .rowAddr => "row_addr"
  | .colAddr => "col_addr"
  | .threadIndex => "thread_index"

def tokenDecoder (token : Token) : Except TraceFault Int :=
  match token with
  | '0' :: 'x' :: digits | '0' :: 'X' :: digits => (stoll 16 digits).mapError .stoll
  | _ => (stoll 10 token).mapError .stoll

def decodeAndSetField (member : Member) :
    Request × List Token → Except TraceFault (Request × List Token)
  | (_, []) => .error .beyondTokens
  | (req, token :: tokens) => (tokenDecoder token).map fun value => (member.set value req, tokens)

def isFieldValueLegal (isr : AiMISR) (field : Field) (req : Request) : Except TraceFault Unit :=
  if getField req field = -1 then
    .error (.exit (s!"Trace: opcode {convertOpcodeToStr isr.opcode} must be provided with " ++
      s!"field {fieldToStr field}!"))
  else .ok ()

/-- `DECODE_AIM_HOST_REQ_FIELD_IF_NEEDED`. -/
def decodeFieldIfNeeded (isr : AiMISR) (s : Request × List Token) (field : Field) :
    Except TraceFault (Request × List Token) :=
  if isr.isFieldLegal field then do
    let s ← decodeAndSetField (.isr field) s
    isFieldValueLegal isr field s.1
    return s
  else .ok s

def fieldOrder : List Field :=
  [.opsize, .gprAddr0, .gprAddr1, .channelMask, .bankIndex, .rowAddr, .colAddr, .threadIndex]

def accessMembers : MemAccessRegion → List Member
  | .CFR => [.addr, .data]
  | .GPR => [.addr]
  | _ => [.isr .channelMask, .isr .bankIndex, .isr .rowAddr]

def withPrefix (token : Token) : Token :=
  if "ISR_".toList.isPrefixOf token then token else "ISR_".toList ++ token

def decodeAim (line : List Char) (req : Request) (opcode : Token) (tokens : List Token) :
    Except TraceFault Request := do
  let isr ← convertOpcodeStrToISR (withPrefix opcode)
  if isr.legalFields.length ≠ tokens.length then
    .error (.configurationError (s!"Trace: aim request {convertOpcodeToStr isr.opcode} requires " ++
      s!"{isr.legalFields.length} fields, but {tokens.length} is specified in line: \n" ++
      s!"{String.ofList line}!"))
  else
    let s ← fieldOrder.foldlM (decodeFieldIfNeeded isr) ({ req with opcode := isr.opcode }, tokens)
    return { s.1 with callback := if isr.opcode = .ISR_EOC then .frontEnd 1 else .empty }

def decodeAccess (req : Request) (region : Token) (tokens : List Token) :
    Except TraceFault Request := do
  let region ← convertStrToMemAccessRegion region
  let s ← (accessMembers region).foldlM (fun s member => decodeAndSetField member s)
    ({ req with memAccessRegion := region }, tokens)
  return s.1

def decodeTokens (line : List Char) (type : Token) (tokens : List Token) :
    Except TraceFault Request := do
  let type ← convertStrToType type
  match tokens with
  | [] => throw .beyondTokens
  | token :: tokens =>
      if type = .AIM then decodeAim line { type, typeId := typeId type } token tokens
      else decodeAccess { type, typeId := typeId type } token tokens

/-- What a line is; the id of its request is set by the caller. -/
inductive Decoded
  | skip
  | attentionEnd
  | request (req : Request)
  deriving DecidableEq, Repr

/-- The body of the loop of `get_host_request`. -/
def decodeLine (delim : Char) (line : List Char) : Except TraceFault Decoded :=
  if line = [] then .ok .skip
  else
    match tokenize delim line with
    | [] => .ok .skip
    | type :: tokens =>
        if type = "#".toList then
          .ok (if tokens = ["PHASE".toList, "attention_end".toList] then .attentionEnd else .skip)
        else .request <$> decodeTokens line type tokens

end AimSimulator.Frontend
