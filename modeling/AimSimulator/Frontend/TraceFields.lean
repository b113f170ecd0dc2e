import AimSimulator.Frontend.TraceText
import Mathlib.Data.List.Nodup
import Mathlib.Algebra.Group.Int.Defs
/-!
# The fields of a decoded line

Each member of a request that its type requires comes from one token of the line.  It is the
number that the token writes exactly where that number fits the member; the tokens run out in
the accesses only, where no count is checked.
-/

namespace AimSimulator.Frontend

open Excepts Numerals

/-! ## Members -/

namespace Member

def Fits (m : Member) (value : Int) : Prop :=
  -2 ^ (m.width - 1) ≤ value ∧ value < 2 ^ (m.width - 1)

instance (m : Member) (value : Int) : Decidable (m.Fits value) :=
  inferInstanceAs (Decidable (_ ∧ _))

theorem narrow_eq_self_iff {width : Nat} (hpos : 0 < width) {value : Int} :
    narrow width value = value ↔ -2 ^ (width - 1) ≤ value ∧ value < 2 ^ (width - 1) := by
  have hpow : (2 : Int) ^ width = 2 * 2 ^ (width - 1) := by
    rw [← Int.pow_succ', Nat.sub_add_cancel hpos]
  refine ⟨fun h => ?_, fun ⟨hle, hlt⟩ => ?_⟩
  · have hle := BitVec.le_two_mul_toInt (x := BitVec.ofInt width value)
    have hlt := BitVec.two_mul_toInt_lt (x := BitVec.ofInt width value)
    rw [narrow] at h
    rw [h, hpow] at hle hlt
    omega
  · have hcast : ((2 ^ width : Nat) : Int) = 2 ^ width := Int.natCast_pow 2 width
    rw [narrow, BitVec.toInt_ofInt]
    exact Int.bmod_eq_of_le_mul_two (by omega) (by omega)

theorem width_pos (m : Member) : 0 < m.width := by
  rcases m with field | - | -
  · cases field <;> decide
  · decide
  · decide

theorem narrow_fits (m : Member) (value : Int) : m.Fits (narrow m.width value) := by
  refine (narrow_eq_self_iff m.width_pos).mp ?_
  rw [narrow, narrow, BitVec.ofInt_toInt]

theorem narrow_eq_self (m : Member) {value : Int} (h : m.Fits value) :
    narrow m.width value = value := (narrow_eq_self_iff m.width_pos).mpr h

theorem get_set_self (m : Member) (value : Int) (req : Request) :
    m.get (m.set value req) = narrow m.width value := by
  rcases m with field | - | -
  · cases field <;> rfl
  · rfl
  · rfl

theorem get_set_of_ne {m m' : Member} (h : m ≠ m') (value : Int) (req : Request) :
    m.get (m'.set value req) = m.get req := by
  rcases m with field | - | - <;> rcases m' with field' | - | -
  · cases field <;> cases field' <;> first | rfl | exact absurd rfl h
  · cases field <;> rfl
  · cases field <;> rfl
  · cases field' <;> rfl
  · exact absurd rfl h
  · rfl
  · cases field' <;> rfl
  · rfl
  · exact absurd rfl h

theorem set_kind (m : Member) (value : Int) (req : Request) :
    (m.set value req).type = req.type ∧ (m.set value req).opcode = req.opcode ∧
      (m.set value req).memAccessRegion = req.memAccessRegion := by
  rcases m with field | - | -
  · cases field <;> exact ⟨rfl, rfl, rfl⟩
  · exact ⟨rfl, rfl, rfl⟩
  · exact ⟨rfl, rfl, rfl⟩

end Member

def requiredMembers (req : Request) : List Member :=
  if req.type = .AIM then
    match convertOpcodeToISR req.opcode with
    | some isr => (fieldOrder.filter isr.isFieldLegal).map .isr
    | none => []
  else accessMembers req.memAccessRegion

/-! ## Decoding members -/

inductive DecodesAll : Request → List Token → List Member → Request → List Token → Prop
  | nil {req : Request} {tokens : List Token} : DecodesAll req tokens [] req tokens
  | cons {req req' : Request} {token : Token} {tokens tokens' : List Token} {m : Member}
      {members : List Member} {value : Int} (hvalue : tokenDecoder token = .ok value) :
      DecodesAll (m.set value req) tokens members req' tokens' →
      DecodesAll req (token :: tokens) (m :: members) req' tokens'

namespace DecodesAll

variable {req req' : Request} {tokens tokens' : List Token} {members : List Member}

theorem kind (h : DecodesAll req tokens members req' tokens') :
    req'.type = req.type ∧ req'.opcode = req.opcode ∧
      req'.memAccessRegion = req.memAccessRegion := by
  induction h with
  | nil => exact ⟨rfl, rfl, rfl⟩
  | @cons req _ _ _ _ m _ value _ _ ih =>
      obtain ⟨htype, hopcode, hregion⟩ := m.set_kind value req
      rwa [htype, hopcode, hregion] at ih

theorem length_le (h : DecodesAll req tokens members req' tokens') :
    members.length ≤ tokens.length := by
  induction h with
  | nil => exact Nat.zero_le _
  | cons _ _ ih => exact Nat.succ_le_succ ih

theorem get_of_notMem (h : DecodesAll req tokens members req' tokens') {m : Member}
    (hm : m ∉ members) : m.get req' = m.get req := by
  induction h with
  | nil => rfl
  | cons _ _ ih =>
      rw [List.mem_cons, not_or] at hm
      rw [ih hm.2, Member.get_set_of_ne hm.1]

theorem get_zip (h : DecodesAll req tokens members req' tokens') (hnodup : members.Nodup)
    {m : Member} {token : Token} (hmem : (m, token) ∈ members.zip tokens) :
    ∃ value, tokenDecoder token = .ok value ∧ m.get req' = narrow m.width value := by
  induction h with
  | nil => cases hmem
  | @cons _ _ token' _ _ m' members value hvalue hrest ih =>
      obtain ⟨hnew, hnodup⟩ := List.nodup_cons.mp hnodup
      rw [List.zip_cons_cons] at hmem
      rcases List.mem_cons.mp hmem with heq | hmem
      · obtain ⟨rfl, rfl⟩ := Prod.mk.inj heq
        exact ⟨value, hvalue, by rw [hrest.get_of_notMem hnew, Member.get_set_self]⟩
      · exact ih hnodup hmem

end DecodesAll

theorem decodeAndSetField_eq_ok {m : Member} {s s' : Request × List Token}
    (h : decodeAndSetField m s = .ok s') :
    ∃ token value, s.2 = token :: s'.2 ∧ tokenDecoder token = .ok value ∧
      s'.1 = m.set value s.1 := by
  obtain ⟨req, tokens⟩ := s
  cases tokens with
  | nil => cases h
  | cons token tokens =>
      obtain ⟨value, hvalue, rfl⟩ := map_eq_ok.mp h
      exact ⟨token, value, rfl, hvalue, rfl⟩

theorem decodeAndSetFields_eq_ok {members : List Member} {s s' : Request × List Token}
    (h : members.foldlM (fun s member => decodeAndSetField member s) s = .ok s') :
    DecodesAll s.1 s.2 members s'.1 s'.2 := by
  induction members generalizing s with
  | nil =>
      obtain rfl := Except.ok.inj h
      exact .nil
  | cons m members ih =>
      rw [List.foldlM_cons] at h
      obtain ⟨s₁, hfirst, hrest⟩ := bind_eq_ok.mp h
      obtain ⟨token, value, htokens, hvalue, hreq⟩ := decodeAndSetField_eq_ok hfirst
      have hall := ih hrest
      rw [hreq] at hall
      rw [htokens]
      exact .cons hvalue hall

theorem decodeFieldsIfNeeded_eq_ok {isr : AiMISR} {fields : List Field}
    {s s' : Request × List Token} (h : fields.foldlM (decodeFieldIfNeeded isr) s = .ok s') :
    DecodesAll s.1 s.2 ((fields.filter isr.isFieldLegal).map .isr) s'.1 s'.2 := by
  induction fields generalizing s with
  | nil =>
      obtain rfl := Except.ok.inj h
      exact .nil
  | cons field fields ih =>
      rw [List.foldlM_cons] at h
      obtain ⟨s₁, hfirst, hrest⟩ := bind_eq_ok.mp h
      have hall := ih hrest
      unfold decodeFieldIfNeeded at hfirst
      split at hfirst
      · next hlegal =>
          obtain ⟨s₂, hdecode, hcheck⟩ := bind_eq_ok.mp hfirst
          obtain ⟨-, -, hsame⟩ := bind_eq_ok.mp hcheck
          obtain rfl := Except.ok.inj hsame
          obtain ⟨token, value, htokens, hvalue, hreq⟩ := decodeAndSetField_eq_ok hdecode
          rw [hreq] at hall
          rw [List.filter_cons_of_pos hlegal, List.map_cons, htokens]
          exact .cons hvalue hall
      · next hlegal =>
          obtain rfl := Except.ok.inj hfirst
          rwa [List.filter_cons_of_neg hlegal]

/-! ## The request of a line -/

theorem convertOpcodeToISR_opcode {opcode : Opcode} {isr : AiMISR}
    (h : convertOpcodeToISR opcode = some isr) : isr.opcode = opcode := by
  cases opcode <;> cases h <;> rfl

theorem length_legal {opcode : Opcode} {isr : AiMISR} (h : convertOpcodeToISR opcode = some isr) :
    (fieldOrder.filter isr.isFieldLegal).length = isr.legalFields.length := by
  cases opcode <;> cases h <;> rfl

theorem requiredMembers_nodup (req : Request) : (requiredMembers req).Nodup := by
  have hfields : fieldOrder.Nodup := by decide
  unfold requiredMembers
  split
  · split
    · exact List.Nodup.map (fun _ _ h => Member.isr.inj h) (hfields.filter _)
    · exact List.nodup_nil
  · cases req.memAccessRegion <;> decide

theorem convertOpcodeStrToISR_eq_ok {token : Token} {isr : AiMISR}
    (h : convertOpcodeStrToISR token = .ok isr) : convertOpcodeToISR isr.opcode = some isr := by
  unfold convertOpcodeStrToISR at h
  split at h
  · next isr' hlookup =>
      obtain rfl := Except.ok.inj h
      obtain ⟨opcode, -, hisr⟩ := Option.bind_eq_some_iff.mp hlookup
      rw [convertOpcodeToISR_opcode hisr, hisr]
  · cases h

theorem decodeTokens_eq_ok {line : List Char} {type : Token} {tokens : List Token} {req : Request}
    (h : decodeTokens line type tokens = .ok req) :
    ∃ token rest req₀ req₁ tokens₁, tokens = token :: rest ∧
      DecodesAll req₀ rest (requiredMembers req) req₁ tokens₁ ∧
        ∀ m : Member, m.get req = m.get req₁ := by
  obtain ⟨type, -, h⟩ := bind_eq_ok.mp h
  cases tokens with
  | nil => cases h
  | cons token rest =>
      dsimp only at h
      split at h
      · next htype =>
          obtain ⟨isr, hisr, h⟩ := bind_eq_ok.mp h
          have hcode := convertOpcodeStrToISR_eq_ok hisr
          split at h
          · cases h
          · obtain ⟨s, hfold, h⟩ := bind_eq_ok.mp h
            obtain rfl := Except.ok.inj h
            have hall := decodeFieldsIfNeeded_eq_ok hfold
            obtain ⟨hkind, hopcode, -⟩ := hall.kind
            have hrequired : requiredMembers
                { s.1 with callback := if isr.opcode = .ISR_EOC then .frontEnd 1 else .empty } =
                  (fieldOrder.filter isr.isFieldLegal).map .isr := by
              unfold requiredMembers
              dsimp only at hkind hopcode ⊢
              rw [hkind, if_pos htype, hopcode, hcode]
            refine ⟨token, rest, _, _, _, rfl, hrequired ▸ hall, fun m => ?_⟩
            rcases m with field | - | -
            · cases field <;> rfl
            · rfl
            · rfl
      · next htype =>
          obtain ⟨region, -, h⟩ := bind_eq_ok.mp h
          obtain ⟨s, hfold, h⟩ := bind_eq_ok.mp h
          obtain rfl := Except.ok.inj h
          have hall := decodeAndSetFields_eq_ok hfold
          obtain ⟨hkind, -, hregion⟩ := hall.kind
          have hrequired : requiredMembers s.1 = accessMembers region := by
            unfold requiredMembers
            dsimp only at hkind hregion
            rw [hkind, if_neg htype, hregion]
          exact ⟨token, rest, _, _, _, rfl, hrequired ▸ hall, fun _ => rfl⟩

theorem Member.set_callback (m : Member) (value : Int) (req : Request) :
    (m.set value req).callback = req.callback := by
  rcases m with field | - | -
  · cases field <;> rfl
  · rfl
  · rfl

theorem DecodesAll.callback {req req' : Request} {tokens tokens' : List Token}
    {members : List Member} (h : DecodesAll req tokens members req' tokens') :
    req'.callback = req.callback := by
  induction h with
  | nil => rfl
  | cons _ _ ih => exact ih.trans (Member.set_callback ..)

theorem decodeTokens_callback {line : List Char} {type : Token} {tokens : List Token}
    {req : Request} (h : decodeTokens line type tokens = .ok req) :
    req.callback = .empty ∨ req.callback = .frontEnd 1 ∧ req.opcode = .ISR_EOC := by
  obtain ⟨type, -, h⟩ := bind_eq_ok.mp h
  cases tokens with
  | nil => cases h
  | cons token rest =>
      dsimp only at h
      split at h
      · obtain ⟨isr, -, h⟩ := bind_eq_ok.mp h
        split at h
        · cases h
        · obtain ⟨s, hfold, h⟩ := bind_eq_ok.mp h
          obtain rfl := Except.ok.inj h
          obtain ⟨-, hopcode, -⟩ := (decodeFieldsIfNeeded_eq_ok hfold).kind
          dsimp only at hopcode ⊢
          split
          · next heoc => exact .inr ⟨rfl, hopcode.trans heoc⟩
          · exact .inl rfl
      · obtain ⟨region, -, h⟩ := bind_eq_ok.mp h
        obtain ⟨s, hfold, h⟩ := bind_eq_ok.mp h
        obtain rfl := Except.ok.inj h
        exact .inl (decodeAndSetFields_eq_ok hfold).callback

theorem decodeLine_callback {delim : Char} {line : List Char} {req : Request}
    (h : decodeLine delim line = .ok (.request req)) :
    req.callback = .empty ∨ req.callback = .frontEnd 1 ∧ req.opcode = .ISR_EOC := by
  unfold decodeLine at h
  split at h
  · cases h
  · split at h
    · cases h
    · split at h
      · split at h <;> cases h
      · obtain ⟨req', hreq, heq⟩ := map_eq_ok.mp h
        obtain rfl := Decoded.request.inj heq
        exact decodeTokens_callback hreq

theorem decodeLine_request {delim : Char} {line : List Char} {req : Request}
    (h : decodeLine delim line = .ok (.request req)) :
    (requiredMembers req).length ≤ ((tokenize delim line).drop 2).length ∧
    ∀ m token, (m, token) ∈ (requiredMembers req).zip ((tokenize delim line).drop 2) →
      ∃ value, tokenDecoder token = .ok value ∧ m.get req = narrow m.width value := by
  unfold decodeLine at h
  split at h
  · cases h
  · cases htokens : tokenize delim line with
    | nil =>
        rw [htokens] at h
        cases h
    | cons type tokens =>
        rw [htokens] at h
        dsimp only at h
        split at h
        · split at h <;> cases h
        · obtain ⟨req', hreq, heq⟩ := map_eq_ok.mp h
          obtain rfl := Decoded.request.inj heq
          obtain ⟨token, rest, req₀, req₁, tokens₁, rfl, hall, hget⟩ := decodeTokens_eq_ok hreq
          refine ⟨hall.length_le, fun m token hmem => ?_⟩
          obtain ⟨value, hvalue, hnarrow⟩ := hall.get_zip (requiredMembers_nodup _) hmem
          exact ⟨value, hvalue, (hget m).trans hnarrow⟩

/-! ## The numbers of a line -/

def numeral (token : Token) : Option Int :=
  match token with
  | '0' :: 'x' :: digits | '0' :: 'X' :: digits => hexadecimal digits
  | _ => decimal token

theorem mapError_eq_ok {ε ε' α : Type} {x : Except ε α} {f : ε → ε'} {a : α} :
    x.mapError f = .ok a ↔ x = .ok a := by
  cases x with
  | error e => exact ⟨nofun, nofun⟩
  | ok b => exact ⟨fun h => congrArg _ (Except.ok.inj h), fun h => congrArg _ (Except.ok.inj h)⟩

theorem tokenDecoder_numeral {token : Token} {v w : Int} (h : numeral token = some v)
    (hdecode : tokenDecoder token = .ok w) : w = v := by
  unfold numeral at h
  unfold tokenDecoder at hdecode
  split at h
  · exact stoll_hexadecimal h (mapError_eq_ok.mp hdecode)
  · exact stoll_hexadecimal h (mapError_eq_ok.mp hdecode)
  · next hx hX =>
      split at hdecode
      · exact absurd rfl (hx _)
      · exact absurd rfl (hX _)
      · exact stoll_decimal h (mapError_eq_ok.mp hdecode)

def memberTokens (delim : Char) (line : List Char) (req : Request) : List (Member × Token) :=
  (requiredMembers req).zip ((tokenize delim line).drop 2)

def StoresNumbers (delim : Char) (line : List Char) (req : Request) : Prop :=
  ∀ e ∈ memberTokens delim line req, numeral e.2 = some (e.1.get req)

def NumbersFit (delim : Char) (line : List Char) (req : Request) : Prop :=
  ∀ e ∈ memberTokens delim line req, ∃ value, numeral e.2 = some value ∧ e.1.Fits value

instance (delim : Char) (line : List Char) (req : Request) :
    Decidable (NumbersFit delim line req) :=
  decidable_of_iff (∀ e ∈ memberTokens delim line req,
      (numeral e.2).any fun value => e.1.Fits value) <| by
    refine forall_congr' fun e => forall_congr' fun _ => ?_
    simp only [Option.any_eq_true, decide_eq_true_eq]

/-- An accepted line is stored as it is written exactly where every token writes a number that
fits its member. -/
theorem stores_numbers_iff {delim : Char} {line : List Char} {req : Request}
    (h : decodeLine delim line = .ok (.request req)) :
    StoresNumbers delim line req ↔ NumbersFit delim line req := by
  obtain ⟨-, hdecoded⟩ := decodeLine_request h
  refine forall_congr' fun e => forall_congr' fun hmem => ?_
  obtain ⟨value, hvalue, hget⟩ := hdecoded e.1 e.2 hmem
  refine ⟨fun hstored => ⟨e.1.get req, hstored, ?_⟩, fun ⟨written, hwritten, hfits⟩ => ?_⟩
  · rw [hget]
    exact e.1.narrow_fits value
  · have hsame := tokenDecoder_numeral hwritten hvalue
    rw [hwritten, hget, hsame, e.1.narrow_eq_self hfits]

/-- An instruction with decimal and hexadecimal fields. -/
theorem stores_numbers_iff_mac :
    let line := "AiM MAC_ABK 64 0xFFFFFFFF 12".toList
    let req : Request :=
      { type := .AIM, typeId := 4, opcode := .ISR_MAC_ABK, opsize := 64, channelMask := 0xFFFFFFFF,
        rowAddr := 12 }
    decodeLine ' ' line = .ok (.request req) ∧ StoresNumbers ' ' line req := by
  intro line req
  have hline : decodeLine ' ' line = .ok (.request req) := by decide +kernel
  exact ⟨hline, (stores_numbers_iff hline).mpr (by decide +kernel)⟩

/-- A bank index past its 16 bits is stored as another bank. -/
theorem bank_index_wraps :
    let line := "W MEM 0 65541 7".toList
    let req : Request :=
      { type := .Write, typeId := 1, memAccessRegion := .MEM, channelMask := 0, bankIndex := 5,
        rowAddr := 7 }
    decodeLine ' ' line = .ok (.request req) ∧ numeral "65541".toList = some 65541 ∧
      ¬ StoresNumbers ' ' line req := by
  intro line req
  refine ⟨by decide +kernel, by decide +kernel, fun hstores => ?_⟩
  have hmem : (Member.isr .bankIndex, "65541".toList) ∈ memberTokens ' ' line req := by
    decide +kernel
  exact absurd (hstores _ hmem) (by decide +kernel)

/-! ## Lines that are too short -/

/-- What the members of an access miss: there are fewer tokens, and none of them is refused. -/
def RunsOut (members : List Member) (tokens : List Token) : Prop :=
  tokens.length < members.length ∧ ∀ token ∈ tokens, ∃ value, tokenDecoder token = .ok value

theorem tokenDecoder_ne_beyondTokens (token : Token) :
    tokenDecoder token ≠ .error .beyondTokens := by
  have hmap : ∀ x : Except Numerals.Fault Int,
      x.mapError TraceFault.stoll ≠ .error TraceFault.beyondTokens := by
    intro x
    cases x with
    | error e => exact nofun
    | ok a => exact nofun
  unfold tokenDecoder
  split <;> exact hmap _

theorem decodeAndSetFields_beyondTokens {members : List Member} {s : Request × List Token} :
    members.foldlM (fun s member => decodeAndSetField member s) s = .error .beyondTokens ↔
      RunsOut members s.2 := by
  induction members generalizing s with
  | nil => exact ⟨nofun, fun h => absurd h.1 (Nat.not_lt_zero _)⟩
  | cons m members ih =>
      obtain ⟨req, tokens⟩ := s
      rw [List.foldlM_cons, bind_eq_error]
      cases tokens with
      | nil => exact iff_of_true (.inl rfl) ⟨Nat.succ_pos _, fun _ h => nomatch h⟩
      | cons token tokens =>
          have hfirst : decodeAndSetField m (req, token :: tokens) ≠ .error .beyondTokens :=
            fun h => tokenDecoder_ne_beyondTokens token (map_eq_error.mp h)
          rw [or_iff_right hfirst]
          unfold RunsOut
          rw [List.length_cons, List.length_cons, Nat.add_lt_add_iff_right, List.forall_mem_cons]
          refine ⟨fun ⟨s', hs', hrest⟩ => ?_, fun ⟨hlt, ⟨value, hvalue⟩, hall⟩ => ?_⟩
          · obtain ⟨value, hvalue, rfl⟩ := map_eq_ok.mp hs'
            obtain ⟨hlt, hall⟩ := ih.mp hrest
            exact ⟨hlt, ⟨value, hvalue⟩, hall⟩
          · exact ⟨_, map_eq_ok.mpr ⟨value, hvalue, rfl⟩, ih.mpr ⟨hlt, hall⟩⟩

theorem decodeFieldsIfNeeded_ne_beyondTokens {isr : AiMISR} {fields : List Field}
    {s : Request × List Token} (hlength : (fields.filter isr.isFieldLegal).length ≤ s.2.length) :
    fields.foldlM (decodeFieldIfNeeded isr) s ≠ .error .beyondTokens := by
  induction fields generalizing s with
  | nil => exact nofun
  | cons field fields ih =>
      intro h
      rw [List.foldlM_cons, bind_eq_error] at h
      unfold decodeFieldIfNeeded at h
      by_cases hlegal : isr.isFieldLegal field = true
      · rw [List.filter_cons_of_pos hlegal, List.length_cons] at hlength
        rw [if_pos hlegal] at h
        obtain ⟨req, tokens⟩ := s
        cases tokens with
        | nil => exact absurd hlength (Nat.not_succ_le_zero _)
        | cons token tokens =>
            rcases h with h | ⟨s', hs', hrest⟩
            · rcases bind_eq_error.mp h with h | ⟨s₁, -, h⟩
              · exact tokenDecoder_ne_beyondTokens token (map_eq_error.mp h)
              · rcases bind_eq_error.mp h with h | ⟨_, -, h⟩
                · unfold isFieldValueLegal at h
                  split at h <;> cases h
                · cases h
            · obtain ⟨s₁, hdecode, hcheck⟩ := bind_eq_ok.mp hs'
              obtain ⟨-, -, hsame⟩ := bind_eq_ok.mp hcheck
              obtain rfl := Except.ok.inj hsame
              obtain ⟨value, -, rfl⟩ := map_eq_ok.mp hdecode
              exact ih (Nat.le_of_succ_le_succ hlength) hrest
      · rw [List.filter_cons_of_neg hlegal] at hlength
        rw [if_neg hlegal] at h
        rcases h with h | ⟨s', hs', hrest⟩
        · cases h
        · obtain rfl := Except.ok.inj hs'
          exact ih hlength hrest

theorem decodeAim_ne_beyondTokens (line : List Char) (req : Request) (opcode : Token)
    (tokens : List Token) : decodeAim line req opcode tokens ≠ .error .beyondTokens := by
  intro h
  rcases bind_eq_error.mp h with h | ⟨isr, hisr, h⟩
  · unfold convertOpcodeStrToISR at h
    split at h <;> cases h
  · split at h
    · cases h
    · next hcount =>
        rcases bind_eq_error.mp h with h | ⟨_, -, h⟩
        · refine decodeFieldsIfNeeded_ne_beyondTokens ?_ h
          rw [length_legal (convertOpcodeStrToISR_eq_ok hisr)]
          exact Nat.le_of_eq (Classical.not_not.mp hcount)
        · cases h

/-- The lines whose tokens run out: a type alone, and an access with too few numbers. -/
def TooShort (type : Token) (tokens : List Token) : Prop :=
  ∃ t, convertStrToType type = .ok t ∧
    (tokens = [] ∨ ∃ region rest r, tokens = region :: rest ∧ t ≠ .AIM ∧
      convertStrToMemAccessRegion region = .ok r ∧ RunsOut (accessMembers r) rest)

theorem decodeTokens_beyondTokens {line : List Char} {type : Token} {tokens : List Token} :
    decodeTokens line type tokens = .error .beyondTokens ↔ TooShort type tokens := by
  have htype : convertStrToType type ≠ .error .beyondTokens := by
    unfold convertStrToType
    split <;> exact nofun
  have hregion : ∀ region, convertStrToMemAccessRegion region ≠ .error .beyondTokens := by
    intro region
    unfold convertStrToMemAccessRegion
    split <;> exact nofun
  unfold decodeTokens
  rw [bind_eq_error, or_iff_right htype]
  refine exists_congr fun t => and_congr_right fun _ => ?_
  cases tokens with
  | nil => exact iff_of_true rfl (.inl rfl)
  | cons region rest =>
      dsimp only
      rw [or_iff_right (List.cons_ne_nil _ _)]
      split
      · next haim =>
          refine iff_of_false (decodeAim_ne_beyondTokens line _ region rest) ?_
          rintro ⟨_, _, _, -, hne, -⟩
          exact hne haim
      · next haim =>
          unfold decodeAccess
          rw [bind_eq_error, or_iff_right (hregion region)]
          refine ⟨fun ⟨r, hr, h⟩ => ?_, fun ⟨_, _, r, hcons, _, hr, hout⟩ => ?_⟩
          · rcases bind_eq_error.mp h with h | ⟨_, -, h⟩
            · exact ⟨region, rest, r, rfl, haim, hr, decodeAndSetFields_beyondTokens.mp h⟩
            · cases h
          · obtain ⟨rfl, rfl⟩ := List.cons.inj hcons
            exact ⟨r, hr, bind_eq_error.mpr (.inl (decodeAndSetFields_beyondTokens.mpr hout))⟩

def LineTooShort (delim : Char) (line : List Char) : Prop :=
  match tokenize delim line with
  | [] => False
  | type :: tokens => type ≠ "#".toList ∧ TooShort type tokens

theorem decodeLine_beyondTokens {delim : Char} {line : List Char} :
    decodeLine delim line = .error .beyondTokens ↔ LineTooShort delim line := by
  unfold decodeLine LineTooShort
  split
  · next hnil =>
      subst hnil
      exact iff_of_false nofun id
  · cases tokenize delim line with
    | nil => exact iff_of_false nofun id
    | cons type tokens =>
        dsimp only
        split
        · next hcomment => exact iff_of_false nofun fun h => h.1 hcomment
        · next hcomment =>
            rw [map_eq_error, decodeTokens_beyondTokens]
            exact ⟨fun h => ⟨hcomment, h⟩, fun h => h.2⟩

/-- Every required member of a request is decoded from a token of its line. -/
def FieldsFromTokens (delim : Char) (line : List Char) (req : Request) : Prop :=
  ∀ m ∈ requiredMembers req, ∃ token ∈ tokenize delim line, ∃ value,
    tokenDecoder token = .ok value ∧ m.get req = narrow m.width value

theorem fieldsFromTokens {delim : Char} {line : List Char} {req : Request}
    (h : decodeLine delim line = .ok (.request req)) : FieldsFromTokens delim line req := by
  obtain ⟨hlength, hdecoded⟩ := decodeLine_request h
  intro m hm
  obtain ⟨i, hi, rfl⟩ := List.getElem_of_mem hm
  have hlt : i < ((tokenize delim line).drop 2).length := Nat.lt_of_lt_of_le hi hlength
  have hzip : ((requiredMembers req)[i], ((tokenize delim line).drop 2)[i]) ∈
      (requiredMembers req).zip ((tokenize delim line).drop 2) := by
    rw [← List.getElem_zip (h := by rw [List.length_zip]; omega)]
    exact List.getElem_mem _
  obtain ⟨value, hvalue, hget⟩ := hdecoded _ _ hzip
  exact ⟨_, List.mem_of_mem_drop (List.getElem_mem _), value, hvalue, hget⟩

/-- The parser stays within the tokens of a line, and sets every required member from one of
them, exactly where the line is not too short. -/
theorem parser_in_bounds_iff (delim : Char) (line : List Char) :
    (decodeLine delim line ≠ .error .beyondTokens ∧
      ∀ req, decodeLine delim line = .ok (.request req) → FieldsFromTokens delim line req) ↔
      ¬ LineTooShort delim line := by
  rw [Ne, decodeLine_beyondTokens]
  exact ⟨fun h => h.1, fun h => ⟨h, fun _ hreq => fieldsFromTokens hreq⟩⟩

/-- A type alone, and an access without its row. -/
theorem short_lines_beyondTokens :
    decodeLine ' ' "AiM".toList = .error .beyondTokens ∧
      decodeLine ',' "R,MEM,0,1".toList = .error .beyondTokens :=
  ⟨by decide +kernel, by decide +kernel⟩

end AimSimulator.Frontend
