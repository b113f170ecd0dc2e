import AimSimulator.Lib.Outputs
import AimSimulator.Lib.Ring
import Mathlib.Data.List.Basic
/-!
# The instruction window

`SimpleO3Core::InstWindow` is a circular buffer in two vectors.  `Fifo` is the bounded queue
that it implements.
-/

namespace AimSimulator.Processor

/-- `InstWindow`; `at` and `[]` of an index past the end are not used while the window is
`Valid`. -/
structure InstWindow where
  ipc : Int := 4
  depth : Nat := 128
  load : Nat := 0
  headIdx : Nat := 0
  tailIdx : Nat := 0
  readyList : List Bool
  addrList : List Int
  deriving DecidableEq, Repr

namespace InstWindow

def new (ipc : Int) (depth : Nat) : InstWindow where
  ipc
  depth
  readyList := List.replicate depth false
  addrList := List.replicate depth (-1)

def isFull (w : InstWindow) : Bool := w.load = w.depth

def insert (w : InstWindow) (ready : Bool) (addr : Int) : InstWindow :=
  { w with
    readyList := w.readyList.set w.headIdx ready
    addrList := w.addrList.set w.headIdx addr
    headIdx := (w.headIdx + 1) % w.depth
    load := w.load + 1 }

def retireLoop (w : InstWindow) : Nat → Nat → InstWindow × Nat
  | 0, numRetired => (w, numRetired)
  | load + 1, numRetired =>
      if (numRetired : Int) < w.ipc then
        if w.readyList[w.tailIdx]? = some true then
          retireLoop { w with tailIdx := (w.tailIdx + 1) % w.depth, load := load } load
            (numRetired + 1)
        else (w, numRetired)
      else (w, numRetired)

def retire (w : InstWindow) : InstWindow × Nat :=
  if w.load = 0 then (w, 0) else w.retireLoop w.load 0

def setReadyLoop (w : InstWindow) (addr : Int) : Nat → Nat → List Bool → List Bool
  | 0, _, ready => ready
  | n + 1, index, ready =>
      w.setReadyLoop addr n (if index + 1 = w.depth then 0 else index + 1)
        (if w.addrList[index]? = some addr then ready.set index true else ready)

def setReady (w : InstWindow) (addr : Int) : InstWindow :=
  if w.load = 0 then w
  else { w with readyList := w.setReadyLoop addr w.load w.tailIdx w.readyList }

end InstWindow

/-! ## The bounded queue -/

/-- A queue of at most `depth` entries, each with its ready bit and its address. -/
structure Fifo (depth : Nat) where
  entries : List (Bool × Int)
  length_le : entries.length ≤ depth

namespace Fifo

variable {depth : Nat}

def empty (depth : Nat) : Fifo depth := ⟨[], Nat.zero_le depth⟩

def insert (f : Fifo depth) (ready : Bool) (addr : Int) : Option (Fifo depth) :=
  if h : f.entries.length < depth then
    some ⟨f.entries ++ [(ready, addr)], by rw [List.length_append]; exact h⟩
  else none

def markReady (addr : Int) (e : Bool × Int) : Bool × Int := if e.2 = addr then (true, e.2) else e

/-- All entries of `addr` become ready. -/
def setReady (f : Fifo depth) (addr : Int) : Fifo depth :=
  ⟨f.entries.map (markReady addr), by rw [List.length_map]; exact f.length_le⟩

/-- How many entries retire: the longest ready prefix, `ipc` at most. -/
def retirable (ipc : Int) (entries : List (Bool × Int)) : Nat :=
  min (entries.takeWhile (·.1)).length ipc.toNat

def retire (f : Fifo depth) (ipc : Int) : Fifo depth × Nat :=
  (⟨f.entries.drop (retirable ipc f.entries), by
    rw [List.length_drop]
    exact Nat.le_trans (Nat.sub_le _ _) f.length_le⟩, retirable ipc f.entries)

end Fifo

/-! ## Runs -/

inductive WindowOp
  | insert (ready : Bool) (addr : Int)
  | setReady (addr : Int)
  | retire
  deriving DecidableEq, Repr

/-- A call of the window, which is refused if it is an `insert` into a full window, and what
`retire` returns. -/
def InstWindow.step (w : InstWindow) : WindowOp → Option (InstWindow × List Nat)
  | .insert ready addr => if w.isFull then none else some (w.insert ready addr, [])
  | .setReady addr => some (w.setReady addr, [])
  | .retire => some (w.retire.1, [w.retire.2])

def Fifo.step {depth : Nat} (ipc : Int) (f : Fifo depth) : WindowOp → Option (Fifo depth × List Nat)
  | .insert ready addr => (f.insert ready addr).map fun f => (f, [])
  | .setReady addr => some (f.setReady addr, [])
  | .retire => some ((f.retire ipc).1, [(f.retire ipc).2])

def inserted : List WindowOp → List Int :=
  List.filterMap fun
    | .insert _ addr => some addr
    | .setReady _ | .retire => none

/-! ## The queue of a window -/

namespace InstWindow

variable {w : InstWindow} {addr : Int}

def live (w : InstWindow) : List Nat := Ring.live w.depth w.tailIdx w.load

def slot (w : InstWindow) (i : Nat) : Option (Bool × Int) :=
  (w.readyList[i]?).bind fun ready => (w.addrList[i]?).map fun addr => (ready, addr)

def entries (w : InstWindow) : List (Bool × Int) := w.live.filterMap w.slot

structure Valid (w : InstWindow) : Prop where
  load_le : w.load ≤ w.depth
  tail_lt : w.tailIdx < w.depth
  head_eq : w.headIdx = (w.tailIdx + w.load) % w.depth
  length_readyList : w.readyList.length = w.depth
  length_addrList : w.addrList.length = w.depth

namespace Valid

theorem depth_pos (h : w.Valid) : 0 < w.depth := Nat.zero_lt_of_lt h.tail_lt

theorem head_lt (h : w.Valid) : w.headIdx < w.depth := h.head_eq ▸ Nat.mod_lt _ h.depth_pos

theorem slot_eq_some (h : w.Valid) {i : Nat} (hi : i < w.depth) :
    ∃ ready addr, w.readyList[i]? = some ready ∧ w.addrList[i]? = some addr ∧
      w.slot i = some (ready, addr) := by
  have hready := List.getElem?_eq_getElem (h.length_readyList.symm ▸ hi)
  have haddr := List.getElem?_eq_getElem (h.length_addrList.symm ▸ hi)
  refine ⟨_, _, hready, haddr, ?_⟩
  rw [slot, hready, haddr]
  rfl

theorem length_entries (h : w.Valid) : w.entries.length = w.load := by
  have hall : ∀ i ∈ w.live, (w.slot i).isSome := by
    intro i hi
    obtain ⟨ready, addr, -, -, hslot⟩ := h.slot_eq_some (Ring.lt_of_mem_live h.depth_pos hi)
    rw [hslot]
    rfl
  rw [entries, List.filterMap_length_eq_length.mpr hall, live, Ring.live, List.length_map,
    List.length_range']

theorem insert_entries (h : w.Valid) (hroom : w.load < w.depth) (ready : Bool) :
    (w.insert ready addr).entries = w.entries ++ [(ready, addr)] := by
  have hfree : w.headIdx ∉ w.live := h.head_eq ▸ Ring.head_not_mem_live hroom
  have hold : ∀ i ∈ w.live, (w.insert ready addr).slot i = w.slot i := by
    intro i hi
    have hne : w.headIdx ≠ i := fun heq => hfree (heq ▸ hi)
    rw [slot, slot, insert]
    dsimp only
    rw [List.getElem?_set_ne hne, List.getElem?_set_ne hne]
  have hnew : (w.insert ready addr).slot w.headIdx = some (ready, addr) := by
    rw [slot, insert]
    dsimp only
    rw [List.getElem?_set_self (h.length_readyList.symm ▸ h.head_lt),
      List.getElem?_set_self (h.length_addrList.symm ▸ h.head_lt)]
    rfl
  have hlive : (w.insert ready addr).live = w.live ++ [w.headIdx] := by
    rw [live, live, h.head_eq]
    exact Ring.live_concat
  rw [entries, hlive, List.filterMap_append, List.filterMap_congr hold]
  exact congrArg (w.entries ++ ·) (by rw [List.filterMap_cons_some hnew, List.filterMap_nil])

theorem insert (h : w.Valid) (hroom : w.load < w.depth) (ready : Bool) :
    (w.insert ready addr).Valid where
  load_le := hroom
  tail_lt := h.tail_lt
  head_eq := by
    change (w.headIdx + 1) % w.depth = (w.tailIdx + (w.load + 1)) % w.depth
    rw [h.head_eq, Nat.mod_add_mod, Nat.add_assoc]
  length_readyList := by
    rw [InstWindow.insert, List.length_set]
    exact h.length_readyList
  length_addrList := by
    rw [InstWindow.insert, List.length_set]
    exact h.length_addrList

theorem pop (h : w.Valid) {load : Nat} (hload : w.load = load + 1) :
    ∃ ready addr,
      let rest := { w with tailIdx := (w.tailIdx + 1) % w.depth, load := load }
      w.readyList[w.tailIdx]? = some ready ∧ w.entries = (ready, addr) :: rest.entries ∧
        rest.Valid := by
  obtain ⟨ready, addr, hready, -, hslot⟩ := h.slot_eq_some h.tail_lt
  refine ⟨ready, addr, hready, ?_, ?_⟩
  · rw [entries, live, hload, Ring.live_succ_wrapped h.tail_lt, List.filterMap_cons_some hslot]
    rfl
  · have hle := h.load_le
    refine ⟨?_, Nat.mod_lt _ h.depth_pos, ?_, h.length_readyList, h.length_addrList⟩
    · change load ≤ w.depth
      omega
    · change w.headIdx = ((w.tailIdx + 1) % w.depth + load) % w.depth
      rw [h.head_eq, hload, Nat.mod_add_mod, Nat.add_assoc, Nat.add_comm 1]

end Valid

theorem retireLoop_shape (w : InstWindow) (load numRetired : Nat) :
    (w.retireLoop load numRetired).1.ipc = w.ipc ∧
      (w.retireLoop load numRetired).1.depth = w.depth := by
  induction load generalizing w numRetired with
  | zero => exact ⟨rfl, rfl⟩
  | succ load ih =>
      rw [retireLoop]
      split
      · split
        · exact ih _ _
        · exact ⟨rfl, rfl⟩
      · exact ⟨rfl, rfl⟩

theorem retire_shape (w : InstWindow) :
    w.retire.1.ipc = w.ipc ∧ w.retire.1.depth = w.depth := by
  rw [retire]
  split
  · exact ⟨rfl, rfl⟩
  · exact retireLoop_shape w w.load 0

/-- What `retire` removes and counts, after it has already counted `numRetired`. -/
structure Retires (w : InstWindow) (r : InstWindow × Nat) (numRetired : Nat) : Prop where
  valid : r.1.Valid
  entries_eq : r.1.entries = w.entries.drop (Fifo.retirable (w.ipc - numRetired) w.entries)
  count_eq : r.2 = numRetired + Fifo.retirable (w.ipc - numRetired) w.entries

theorem Retires.stays (h : w.Valid) (numRetired : Nat)
    (hnone : Fifo.retirable (w.ipc - numRetired) w.entries = 0) :
    Retires w (w, numRetired) numRetired := by
  refine ⟨h, ?_, ?_⟩
  · rw [hnone, List.drop_zero]
  · rw [hnone, Nat.add_zero]

theorem retireLoop_spec {load : Nat} (h : w.Valid) (hload : w.load = load) (numRetired : Nat) :
    Retires w (w.retireLoop load numRetired) numRetired := by
  induction load generalizing w numRetired with
  | zero =>
      have hempty : w.entries = [] :=
        List.eq_nil_of_length_eq_zero (h.length_entries.trans hload)
      exact .stays h _ (by rw [hempty]; exact Nat.zero_min _)
  | succ load ih =>
      obtain ⟨ready, addr, hready, hentries, hrest⟩ := h.pop hload
      rw [retireLoop]
      by_cases hipc : (numRetired : Int) < w.ipc
      · rw [if_pos hipc, hready]
        cases ready with
        | false =>
            rw [if_neg nofun]
            exact .stays h _ (by rw [hentries]; exact Nat.zero_min _)
        | true =>
            rw [if_pos rfl]
            have hih := ih hrest rfl (numRetired + 1)
            have hn : Fifo.retirable (w.ipc - numRetired) w.entries =
                Fifo.retirable (w.ipc - (numRetired + 1 : Nat))
                  (InstWindow.entries
                    { w with tailIdx := (w.tailIdx + 1) % w.depth, load := load }) + 1 := by
              rw [hentries]
              simp only [Fifo.retirable, List.takeWhile_cons_of_pos, List.length_cons]
              omega
            refine ⟨hih.valid, ?_, ?_⟩
            · rw [hn, hentries, List.drop_succ_cons]
              exact hih.entries_eq
            · rw [hn, hih.count_eq, Nat.add_right_comm, Nat.add_assoc]
      · rw [if_neg hipc]
        refine .stays h _ ?_
        rw [Fifo.retirable, Int.toNat_of_nonpos (by omega)]
        exact Nat.min_zero _

theorem retire_spec (h : w.Valid) : Retires w w.retire 0 := by
  have hloop := retireLoop_spec h rfl 0
  rw [retire]
  split
  · next hzero =>
      rw [hzero, retireLoop] at hloop
      exact hloop
  · exact hloop

theorem setReadyLoop_spec (n : Nat) {index : Nat} (hindex : index < w.depth) (ready : List Bool)
    (i : Nat) :
    (w.setReadyLoop addr n index ready)[i]? =
      if i ∈ Ring.live w.depth index n ∧ w.addrList[i]? = some addr then
        (ready[i]?).map fun _ => true
      else ready[i]? := by
  induction n generalizing index ready with
  | zero =>
      rw [setReadyLoop, if_neg]
      exact fun h => nomatch h.1
  | succ n ih =>
      rw [setReadyLoop, Ring.wrap_eq_mod hindex, ih (Nat.mod_lt _ (Nat.zero_lt_of_lt hindex)),
        Ring.live_succ_wrapped hindex]
      by_cases haddr : w.addrList[i]? = some addr
      · simp only [haddr, and_true, List.mem_cons]
        by_cases hi : i = index
        · subst hi
          rw [if_pos haddr, List.getElem?_set_self', if_pos (Or.inl rfl)]
          cases ready[i]? <;> simp
        · have hsame : (if w.addrList[index]? = some addr then ready.set index true
              else ready)[i]? = ready[i]? := by
            split
            · exact List.getElem?_set_ne (Ne.symm hi)
            · rfl
          simp only [hsame, hi, false_or]
      · have hsame : (if w.addrList[index]? = some addr then ready.set index true
            else ready)[i]? = ready[i]? := by
          split
          · next hset =>
              refine List.getElem?_set_ne fun heq => haddr ?_
              rw [← heq]
              exact hset
          · rfl
        rw [hsame, if_neg fun hmem => haddr hmem.2, if_neg fun hmem => haddr hmem.2]

theorem length_setReadyLoop (n index : Nat) (ready : List Bool) :
    (w.setReadyLoop addr n index ready).length = ready.length := by
  induction n generalizing index ready with
  | zero => rfl
  | succ n ih =>
      rw [setReadyLoop, ih]
      split
      · exact List.length_set
      · rfl

theorem setReady_eq :
    w.setReady addr =
      { w with readyList := w.setReadyLoop addr w.load w.tailIdx w.readyList } := by
  rw [setReady]
  split
  · next hzero =>
      have hsame : w.setReadyLoop addr w.load w.tailIdx w.readyList = w.readyList := by
        rw [hzero, setReadyLoop]
      rw [hsame]
  · rfl

theorem setReady_readyList (h : w.Valid) (i : Nat) :
    (w.setReady addr).readyList[i]? =
      if i ∈ w.live ∧ w.addrList[i]? = some addr then (w.readyList[i]?).map fun _ => true
      else w.readyList[i]? := by
  rw [setReady_eq]
  exact setReadyLoop_spec w.load h.tail_lt w.readyList i

theorem setReady_stale (h : w.Valid) {i : Nat} (hi : i ∉ w.live) :
    (w.setReady addr).readyList[i]? = w.readyList[i]? := by
  rw [setReady_readyList h, if_neg fun hmem => hi hmem.1]

theorem setReady_valid (h : w.Valid) : (w.setReady addr).Valid := by
  rw [setReady_eq]
  exact ⟨h.load_le, h.tail_lt, h.head_eq,
    (length_setReadyLoop w.load w.tailIdx w.readyList).trans h.length_readyList,
    h.length_addrList⟩

theorem setReady_entries (h : w.Valid) :
    (w.setReady addr).entries = w.entries.map (Fifo.markReady addr) := by
  have hlive : (w.setReady addr).live = w.live := by rw [setReady_eq]; rfl
  have haddr : (w.setReady addr).addrList = w.addrList := by rw [setReady_eq]
  rw [entries, entries, hlive, List.map_filterMap]
  refine List.filterMap_congr fun i hi => ?_
  obtain ⟨ready, a, hready, ha, hslot⟩ := h.slot_eq_some (Ring.lt_of_mem_live h.depth_pos hi)
  rw [hslot, slot, setReady_readyList h, haddr, hready, ha]
  by_cases hsame : a = addr
  · subst hsame
    have hmark : Fifo.markReady a (ready, a) = (true, a) := if_pos rfl
    rw [if_pos ⟨hi, rfl⟩, Option.map_some, Option.map_some, hmark]
    rfl
  · have hmark : Fifo.markReady addr (ready, a) = (ready, a) := if_neg hsame
    rw [if_neg fun hmem => hsame (Option.some.inj hmem.2), Option.map_some, hmark]
    rfl

end InstWindow

/-! ## Refinement -/

structure InstWindow.Represents {depth : Nat} (ipc : Int) (w : InstWindow) (f : Fifo depth) :
    Prop where
  valid : w.Valid
  ipc_eq : w.ipc = ipc
  depth_eq : w.depth = depth
  entries_eq : w.entries = f.entries

namespace InstWindow.Represents

variable {depth : Nat} {ipc : Int} {w : InstWindow} {f : Fifo depth}

theorem init (ipc : Int) (hdepth : 0 < depth) :
    Represents ipc (InstWindow.new ipc depth) (Fifo.empty depth) where
  valid := ⟨Nat.zero_le _, hdepth, (Nat.zero_mod _).symm, List.length_replicate,
    List.length_replicate⟩
  ipc_eq := rfl
  depth_eq := rfl
  entries_eq := rfl

theorem load_eq (h : Represents ipc w f) : w.load = f.entries.length := by
  rw [← h.entries_eq, h.valid.length_entries]

theorem step (h : Represents ipc w f) (op : WindowOp) :
    Option.Rel (fun x y => Represents ipc x.1 y.1 ∧ x.2 = y.2) (w.step op) (f.step ipc op) := by
  cases op with
  | insert ready addr =>
      rw [InstWindow.step, Fifo.step, Fifo.insert]
      have hload := h.load_eq
      have hdepth := h.depth_eq
      by_cases hroom : f.entries.length < depth
      · have hw : w.load < w.depth := by omega
        rw [dif_pos hroom, if_neg (by simpa [isFull] using Nat.ne_of_lt hw)]
        refine .some ⟨⟨h.valid.insert hw ready, h.ipc_eq, h.depth_eq, ?_⟩, rfl⟩
        rw [h.valid.insert_entries hw, h.entries_eq]
      · have hle := h.valid.load_le
        have hw : w.load = w.depth := by omega
        rw [dif_neg hroom, if_pos (by simpa [isFull] using hw)]
        exact .none
  | setReady addr =>
      refine .some ⟨⟨setReady_valid h.valid, ?_, ?_, ?_⟩, rfl⟩
      · rw [setReady_eq]
        exact h.ipc_eq
      · rw [setReady_eq]
        exact h.depth_eq
      · rw [setReady_entries h.valid, h.entries_eq]
        rfl
  | retire =>
      have hretires := retire_spec h.valid
      have hentries := hretires.entries_eq
      have hcount := hretires.count_eq
      rw [h.entries_eq, h.ipc_eq, Int.natCast_zero, Int.sub_zero] at hentries hcount
      rw [Nat.zero_add] at hcount
      obtain ⟨hipc, hdepth⟩ := retire_shape w
      exact .some ⟨⟨hretires.valid, hipc.trans h.ipc_eq, hdepth.trans h.depth_eq, hentries⟩,
        congrArg (fun n => [n]) hcount⟩

end InstWindow.Represents

/-- The addresses that were inserted are those that retired, the oldest first, and those still
in the queue. -/
structure Fifo.Conserves {depth : Nat} (f : Fifo depth) (ops : List WindowOp)
    (counts : List Nat) : Prop where
  left_eq : f.entries.map Prod.snd = (inserted ops).drop counts.sum
  length_eq : counts.sum + f.entries.length = (inserted ops).length

namespace Fifo

variable {depth : Nat} {ipc : Int} {f f' : Fifo depth} {ops : List WindowOp} {op : WindowOp}
  {counts out : List Nat}

theorem retirable_le (entries : List (Bool × Int)) : retirable ipc entries ≤ entries.length :=
  Nat.le_trans (Nat.min_le_left _ _) (List.takeWhile_prefix _).length_le

theorem inserted_concat (hop : inserted [op] = []) : inserted (ops ++ [op]) = inserted ops := by
  rw [inserted, List.filterMap_append]
  exact (congrArg (inserted ops ++ ·) hop).trans (List.append_nil _)

theorem Conserves.step (h : f.Conserves ops counts) (hstep : f.step ipc op = some (f', out)) :
    f'.Conserves (ops ++ [op]) (counts ++ out) := by
  have hleft := h.left_eq
  have hlength := h.length_eq
  cases op with
  | insert ready addr =>
      obtain ⟨g, hinsert, heq⟩ := Option.map_eq_some_iff.mp hstep
      obtain ⟨rfl, rfl⟩ := Prod.mk.inj heq
      have happend : inserted (ops ++ [.insert ready addr]) = inserted ops ++ [addr] := by
        rw [inserted, List.filterMap_append]
        rfl
      rw [Fifo.insert] at hinsert
      split at hinsert
      · obtain rfl := Option.some.inj hinsert
        refine ⟨?_, ?_⟩
        · rw [happend, List.append_nil, List.drop_append_of_le_length (by omega), ← hleft,
            List.map_append]
          rfl
        · rw [happend, List.append_nil, List.length_append, List.length_append, ← hlength]
          exact (Nat.add_assoc _ _ _).symm
      · cases hinsert
  | setReady addr =>
      obtain ⟨rfl, rfl⟩ := Prod.mk.inj (Option.some.inj hstep)
      have hsnd : ∀ e : Bool × Int, (markReady addr e).2 = e.2 := by
        intro e
        unfold markReady
        split <;> rfl
      refine ⟨?_, ?_⟩
      · rw [inserted_concat rfl, List.append_nil, ← hleft]
        exact (List.map_map ..).trans (List.map_congr_left fun e _ => hsnd e)
      · rw [inserted_concat rfl, List.append_nil, ← hlength]
        exact congrArg (counts.sum + ·) (List.length_map _)
  | retire =>
      obtain ⟨rfl, rfl⟩ := Prod.mk.inj (Option.some.inj hstep)
      have hle : retirable ipc f.entries ≤ f.entries.length := retirable_le f.entries
      refine ⟨?_, ?_⟩
      · rw [inserted_concat rfl, List.sum_append, List.sum_singleton, ← List.drop_drop, ← hleft]
        exact List.map_drop ..
      · rw [inserted_concat rfl, List.sum_append, List.sum_singleton, ← hlength]
        change counts.sum + retirable ipc f.entries +
          (f.entries.drop (retirable ipc f.entries)).length = _
        rw [List.length_drop]
        omega

end Fifo

/-- Over any calls, the window is the bounded queue: the same `insert`s are refused, the same
numbers are returned by `retire`, and the indices and the slots in use represent the queue.
Entries retire in the order of insertion, each once, and `set_ready` changes no slot that is not
in use. -/
theorem window_refines_fifo (ipc : Int) {depth : Nat} (hdepth : 0 < depth) (ops : List WindowOp) :
    Option.Rel (fun x y => InstWindow.Represents ipc x.1 y.1 ∧ x.2 = y.2)
        (Runs.outputs InstWindow.step (InstWindow.new ipc depth) ops)
        (Runs.outputs (Fifo.step ipc) (Fifo.empty depth) ops) ∧
      ∀ w counts, Runs.outputs InstWindow.step (InstWindow.new ipc depth) ops = some (w, counts) →
        w.Valid ∧ w.entries.length = w.load ∧
          w.entries.map Prod.snd = (inserted ops).drop counts.sum ∧
          counts.sum + w.load = (inserted ops).length ∧
          ∀ addr i, i ∉ w.live → (w.setReady addr).readyList[i]? = w.readyList[i]? := by
  have hsim := Runs.outputs_simulates (R := InstWindow.Represents ipc)
    (fun _ _ op h => InstWindow.Represents.step h op) (InstWindow.Represents.init ipc hdepth) ops
  refine ⟨hsim, fun w counts hrun => ?_⟩
  rw [hrun] at hsim
  generalize hqueue : Runs.outputs (Fifo.step ipc) (Fifo.empty depth) ops = y at hsim
  cases hsim with
  | @some _ y hxy =>
      obtain ⟨hrep, rfl⟩ := hxy
      have hempty : (Fifo.empty depth).Conserves [] [] := ⟨rfl, rfl⟩
      have hconserves : y.1.Conserves ops y.2 := Runs.outputs_invariant
        (I := fun f ops counts => Fifo.Conserves f ops counts)
        (fun _ _ _ _ _ _ h hstep => h.step hstep) hempty hqueue
      have hload := hrep.load_eq
      refine ⟨hrep.valid, hrep.valid.length_entries, ?_, ?_, fun addr i hi =>
        InstWindow.setReady_stale hrep.valid hi⟩
      · rw [hrep.entries_eq]
        exact hconserves.left_eq
      · rw [hload]
        exact hconserves.length_eq

/-- Two slots: the third entry is inserted behind the wrap. -/
theorem window_refines_fifo_wraps :
    let ops := [.insert true (-1), .insert false 5, .retire, .insert false 6, .setReady 5,
      .setReady (-1), .retire, .retire]
    ∃ w, Runs.outputs InstWindow.step (InstWindow.new 4 2) ops = some (w, [1, 1, 0]) ∧
      w.entries = [(false, 6)] ∧ w.headIdx = 1 ∧ w.tailIdx = 0 ∧
      w.entries.map Prod.snd = (inserted ops).drop 2 := by
  intro ops
  obtain ⟨w, hrun, hentries, hhead, htail⟩ : ∃ w,
      Runs.outputs InstWindow.step (InstWindow.new 4 2) ops = some (w, [1, 1, 0]) ∧
        w.entries = [(false, 6)] ∧ w.headIdx = 1 ∧ w.tailIdx = 0 :=
    ⟨_, rfl, by decide, by decide, by decide⟩
  obtain ⟨-, -, hleft, -⟩ := (window_refines_fifo 4 (by decide) ops).2 w _ hrun
  exact ⟨w, hrun, hentries, hhead, htail, hleft⟩

end AimSimulator.Processor
