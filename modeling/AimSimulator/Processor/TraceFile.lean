import AimSimulator.Frontend.MemoryTraces
import AimSimulator.Lib.Decimals
import AimSimulator.Processor.SimpleO3Core
/-!
# The trace files of the cores

The constructor of `SimpleO3Core::Trace`, which reads a file of lines with a number of bubbles, a
load address and perhaps a store address.
-/

namespace AimSimulator.Processor

open Frontend Numerals

/-- A line of the constructor; without a third token the line has no store. -/
def Inst.parseLine (path : String) (line : List Char) : Except TraceFault Inst :=
  match tokenize ' ' line with
  | [bubbles, load] => do
      let bubbleCount ← (stoi bubbles).mapError .stoll
      let loadAddr ← (stoll 10 load).mapError .stoll
      return { bubbleCount, loadAddr, storeAddr := -1 }
  | [bubbles, load, store] => do
      let bubbleCount ← (stoi bubbles).mapError .stoll
      let loadAddr ← (stoll 10 load).mapError .stoll
      let storeAddr ← (stoll 10 store).mapError .stoll
      return { bubbleCount, loadAddr, storeAddr }
  | _ => .error (formatInvalid path)

def readInsts (path : String) (text : List Char) : Except TraceFault (List Inst) :=
  (fileLines text).mapM (Inst.parseLine path)

/-- The members of an instruction have the types `int` and `Addr_t`. -/
structure Inst.InRange (inst : Inst) : Prop where
  bubbleCount : -2 ^ 31 ≤ inst.bubbleCount ∧ inst.bubbleCount < 2 ^ 31
  loadAddr : -2 ^ 63 ≤ inst.loadAddr ∧ inst.loadAddr < 2 ^ 63
  storeAddr : -2 ^ 63 ≤ inst.storeAddr ∧ inst.storeAddr < 2 ^ 63

/-! ## Files that are written -/

def Inst.tokens (inst : Inst) : List Token :=
  if inst.storeAddr = -1 then [decimalText inst.bubbleCount, decimalText inst.loadAddr]
  else
    [decimalText inst.bubbleCount, decimalText inst.loadAddr, decimalText inst.storeAddr]

def Inst.line (inst : Inst) : List Char := [' '].intercalate inst.tokens

def traceText (insts : List Inst) : List Char := ['\n'].intercalate (insts.map Inst.line ++ [[]])

variable {inst : Inst} {insts : List Inst} {path : String}

theorem tokenize_intercalate {tokens : List Token} (hne : tokens ≠ [])
    (h : ∀ token ∈ tokens, token ≠ [] ∧ ∀ c ∈ token, isSpace c = false) :
    tokenize ' ' ([' '].intercalate tokens) = tokens := by
  have hblank : ∀ token ∈ tokens, ' ' ∉ token := by
    intro token htoken hmem
    cases (h token htoken).2 ' ' hmem
  have hkept : ∀ token ∈ tokens, (token.filter fun c => !isSpace c) = token := by
    intro token htoken
    refine List.filter_eq_self.mpr fun c hc => ?_
    rw [(h token htoken).2 c hc]
    rfl
  rw [tokenize, List.splitOn_intercalate ' ' hblank hne, List.map_congr_left hkept, List.map_id']
  exact List.filter_eq_self.mpr fun token htoken => decide_eq_true (h token htoken).1

theorem fileLines_intercalate {lines : List (List Char)} (h : ∀ line ∈ lines, '\n' ∉ line) :
    fileLines (['\n'].intercalate (lines ++ [[]])) = lines := by
  have hline : ∀ line ∈ lines ++ [[]], '\n' ∉ line := by
    intro line hmem
    rcases List.mem_append.mp hmem with hmem | hmem
    · exact h line hmem
    · rw [List.mem_singleton.mp hmem]
      exact List.not_mem_nil
  have hsplit := List.splitOn_intercalate '\n' hline (List.append_ne_nil_of_right_ne_nil _ nofun)
  unfold fileLines TraceFile.allLines TraceFile.ofText allLines
  dsimp only
  rw [hsplit, List.dropLast_concat, List.getLastD_concat, if_pos rfl, List.append_nil]

theorem Inst.tokens_ok (inst : Inst) :
    inst.tokens ≠ [] ∧ ∀ token ∈ inst.tokens, token ≠ [] ∧ ∀ c ∈ token, isSpace c = false := by
  have htext : ∀ v, decimalText v ≠ [] ∧ ∀ c ∈ decimalText v, isSpace c = false :=
    fun v => ⟨decimalText_ne_nil v, fun c hc => isSpace_decimalText hc⟩
  unfold Inst.tokens
  split
  · refine ⟨List.cons_ne_nil _ _, fun token htoken => ?_⟩
    rcases List.mem_pair.mp htoken with rfl | rfl <;> exact htext _
  · refine ⟨List.cons_ne_nil _ _, fun token htoken => ?_⟩
    rcases List.mem_cons.mp htoken with rfl | htoken
    · exact htext _
    · rcases List.mem_pair.mp htoken with rfl | rfl <;> exact htext _

theorem Inst.newline_notMem_line (inst : Inst) : '\n' ∉ inst.line := by
  have htext : ∀ v, '\n' ∉ decimalText v := by
    intro v hmem
    cases isSpace_decimalText hmem
  unfold Inst.line Inst.tokens
  split
  · simp [htext]
  · simp [htext]

theorem Inst.parseLine_line (h : inst.InRange) : Inst.parseLine path inst.line = .ok inst := by
  obtain ⟨hne, hok⟩ := inst.tokens_ok
  unfold Inst.parseLine
  rw [Inst.line, tokenize_intercalate hne hok, Inst.tokens]
  by_cases hstore : inst.storeAddr = -1
  · rw [if_pos hstore]
    dsimp only
    rw [stoi_decimalText h.bubbleCount, stoll_decimalText h.loadAddr, ← hstore]
    rfl
  · rw [if_neg hstore]
    dsimp only
    rw [stoi_decimalText h.bubbleCount, stoll_decimalText h.loadAddr,
      stoll_decimalText h.storeAddr]
    rfl

theorem Inst.parseLine_inRange {line : List Char} (h : Inst.parseLine path line = .ok inst) :
    inst.InRange := by
  have hread : ∀ {token : Token} {v : Int}, (stoll 10 token).mapError TraceFault.stoll = .ok v →
      -2 ^ 63 ≤ v ∧ v < 2 ^ 63 := fun h => stoll_range (mapError_eq_ok.mp h)
  unfold Inst.parseLine at h
  split at h
  · obtain ⟨bubbleCount, hbubbles, h⟩ := Excepts.bind_eq_ok.mp h
    obtain ⟨loadAddr, hload, h⟩ := Excepts.bind_eq_ok.mp h
    obtain rfl := Except.ok.inj h
    have hnone : -2 ^ 63 ≤ (-1 : Int) ∧ (-1 : Int) < 2 ^ 63 := by decide
    exact ⟨stoi_range (mapError_eq_ok.mp hbubbles), hread hload, hnone⟩
  · obtain ⟨bubbleCount, hbubbles, h⟩ := Excepts.bind_eq_ok.mp h
    obtain ⟨loadAddr, hload, h⟩ := Excepts.bind_eq_ok.mp h
    obtain ⟨storeAddr, hstore, h⟩ := Excepts.bind_eq_ok.mp h
    obtain rfl := Except.ok.inj h
    exact ⟨stoi_range (mapError_eq_ok.mp hbubbles), hread hload, hread hstore⟩
  · cases h

theorem readInsts_inRange {text : List Char} (h : readInsts path text = .ok insts) :
    ∀ inst ∈ insts, inst.InRange := by
  intro inst hinst
  have hmap := Excepts.map_of_mapM_ok h
  have hmem : (.ok inst : Except TraceFault Inst) ∈ insts.map .ok := List.mem_map_of_mem hinst
  rw [← hmap] at hmem
  obtain ⟨line, -, hline⟩ := List.mem_map.mp hmem
  exact Inst.parseLine_inRange hline

theorem readInsts_traceText (h : ∀ inst ∈ insts, inst.InRange) :
    readInsts path (traceText insts) = .ok insts := by
  have hlines : ∀ line ∈ insts.map Inst.line, '\n' ∉ line := by
    intro line hline
    obtain ⟨inst, -, rfl⟩ := List.mem_map.mp hline
    exact inst.newline_notMem_line
  rw [readInsts, traceText, fileLines_intercalate hlines]
  refine Excepts.mapM_of_map_ok ?_
  rw [List.map_map]
  exact List.map_congr_left fun inst hinst => Inst.parseLine_line (h inst hinst)

/-- The trace file of a core: the instructions whose file is read back are those in the range of
their types, and whatever file is accepted, the file written for its instructions says the
same. -/
theorem trace_file_round_trip (path : String) :
    (∀ insts, readInsts path (traceText insts) = .ok insts ↔ ∀ inst ∈ insts, inst.InRange) ∧
    ∀ text insts, readInsts path text = .ok insts →
      readInsts path (traceText insts) = readInsts path text := by
  refine ⟨fun insts => ⟨readInsts_inRange, readInsts_traceText⟩, fun text insts h => ?_⟩
  rw [h, readInsts_traceText (readInsts_inRange h)]

/-- A line with a store and one without, with more blanks than there must be. -/
theorem trace_file_round_trip_blanks :
    ∃ insts, readInsts "trace" "3  64 -1\n 0 128 192 ".toList = .ok insts ∧
      readInsts "trace" (traceText insts) = .ok insts := by
  have hread : readInsts "trace" "3  64 -1\n 0 128 192 ".toList =
      .ok [⟨3, 64, -1⟩, ⟨0, 128, 192⟩] := by decide +kernel
  exact ⟨_, hread, ((trace_file_round_trip "trace").2 _ _ hread).trans hread⟩

end AimSimulator.Processor
