import AimSimulator.Lib.Excepts
import AimSimulator.Processor.SimpleO3LLC
/-!
# The structure of the last-level cache

Each set holds at most one line for a tag and at most as many lines as it has ways, and the
MSHRs are the lines that are not ready.
-/

namespace AimSimulator.Processor

open AddrMapper BitFields

/-! ## Addresses -/

structure LLCParams.PowersOfTwo (p : LLCParams) : Prop where
  linesize : ∃ k, p.linesizeBytes = 2 ^ k
  sets : ∃ m, p.setSize = 2 ^ m

namespace LLCParams

variable {p : LLCParams}

section

variable {k m : Nat} (hk : p.linesizeBytes = 2 ^ k) (hm : p.setSize = 2 ^ m)

include hk

theorem align_two_pow (a : Int) : p.align a = 2 ^ k * (a / 2 ^ k) := by
  have hmask : ((2 ^ k : Nat) : Int) - 1 = ((2 ^ k - 1 : Nat) : Int) :=
    (Nat.cast_pred (Nat.two_pow_pos k)).symm
  rw [align, hk, hmask, land_lnot_mask]

include hm

theorem getIndex_two_pow (a : Int) : p.getIndex a = a / 2 ^ k % 2 ^ m := by
  have hmask : ((2 ^ m : Nat) : Int) - 1 = ((2 ^ m - 1 : Nat) : Int) :=
    (Nat.cast_pred (Nat.two_pow_pos m)).symm
  rw [getIndex, indexMask, indexOffset, hk, hm, hmask, land_mask, calcLog2_two_pow,
    Int.shiftRight_eq_div_pow]
  push_cast
  rfl

theorem getTag_two_pow (a : Int) : p.getTag a = a / 2 ^ k / 2 ^ m := by
  rw [getTag, tagOffset, indexOffset, hk, hm, calcLog2_two_pow, calcLog2_two_pow, Nat.add_comm,
    Int.shiftRight_add, Int.shiftRight_eq_div_pow, Int.shiftRight_eq_div_pow]
  push_cast
  rfl

end

theorem align_eq_iff (hp : p.PowersOfTwo) {a b : Int} :
    p.align a = p.align b ↔ p.getIndex a = p.getIndex b ∧ p.getTag a = p.getTag b := by
  obtain ⟨⟨k, hk⟩, ⟨m, hm⟩⟩ := hp
  rw [align_two_pow hk, align_two_pow hk, getIndex_two_pow hk hm, getIndex_two_pow hk hm,
    getTag_two_pow hk hm, getTag_two_pow hk hm]
  constructor
  · intro h
    have hline := Int.eq_of_mul_eq_mul_left (Int.pow_pos (by decide)).ne' h
    rw [hline]
    exact ⟨rfl, rfl⟩
  · rintro ⟨hi, ht⟩
    rw [← Int.mul_ediv_add_emod (a / 2 ^ k) (2 ^ m), hi, ht, Int.mul_ediv_add_emod]

end LLCParams

namespace SimpleO3LLC

variable {p : LLCParams}

/-! ## Sets -/

/-- A set is no larger than its ways and holds each tag and each node once. -/
structure SetOk (p : LLCParams) (nextNode : Nat) (set : List Line) : Prop where
  ways : set.length ≤ p.associativity
  tags : (set.map Line.tag).Nodup
  nodes : (set.map Line.node).Nodup
  old : ∀ l ∈ set, l.node < nextNode

variable {nextNode : Nat} {set : List Line}

theorem SetOk.eq_of_node (h : SetOk p nextNode set) {l l' : Line} (hl : l ∈ set) (hl' : l' ∈ set)
    (heq : l.node = l'.node) : l = l' := List.inj_on_of_nodup_map h.nodes hl hl' heq

theorem SetOk.eq_of_tag (h : SetOk p nextNode set) {l l' : Line} (hl : l ∈ set) (hl' : l' ∈ set)
    (heq : l.tag = l'.tag) : l = l' := List.inj_on_of_nodup_map h.tags hl hl' heq

theorem SetOk.mono (h : SetOk p nextNode set) {n : Nat} (hn : nextNode ≤ n) : SetOk p n set :=
  ⟨h.ways, h.tags, h.nodes, fun l hl => (h.old l hl).trans_le hn⟩

theorem eraseLine_sublist (set : List Line) (node : Nat) : (eraseLine set node).Sublist set :=
  List.eraseP_sublist

theorem mem_eraseLine {node : Nat} {l : Line} (hl : l ∈ set) (hne : l.node ≠ node) :
    l ∈ eraseLine set node := (List.mem_eraseP_of_neg (by simpa using hne)).mpr hl

theorem SetOk.erase (h : SetOk p nextNode set) (node : Nat) :
    SetOk p nextNode (eraseLine set node) := by
  have hsub := eraseLine_sublist set node
  exact ⟨hsub.length_le.trans h.ways, h.tags.sublist (hsub.map _), h.nodes.sublist (hsub.map _),
    fun l hl => h.old l (hsub.subset hl)⟩

theorem SetOk.perm_erase (h : SetOk p nextNode set) {l : Line} (hl : l ∈ set) :
    set.Perm (l :: eraseLine set l.node) := by
  obtain ⟨l', l₁, l₂, -, hnode, heq, herase⟩ :=
    List.exists_of_eraseP (p := fun l' : Line => decide (l'.node = l.node)) hl (decide_eq_true rfl)
  have hl' : l' ∈ set := heq ▸ List.mem_append_right _ List.mem_cons_self
  obtain rfl := h.eq_of_node hl' hl (of_decide_eq_true hnode)
  rw [eraseLine, herase, heq]
  exact List.perm_middle

theorem SetOk.tag_ne_of_mem_erase (h : SetOk p nextNode set) {l l' : Line} (hl : l ∈ set)
    (hl' : l' ∈ eraseLine set l.node) : l'.tag ≠ l.tag := by
  have htags := ((h.perm_erase hl).map Line.tag).nodup_iff.mp h.tags
  intro htag
  exact (List.nodup_cons.mp htags).1 (htag ▸ List.mem_map_of_mem hl')

theorem SetOk.filter_node (h : SetOk p nextNode set) {l : Line} (hl : l ∈ set) :
    set.filter (fun l' => decide (l'.node = l.node)) = [l] := by
  have hperm := h.perm_erase hl
  have hnodes := List.nodup_cons.mp ((hperm.map Line.node).nodup_iff.mp h.nodes)
  have hrest : (eraseLine set l.node).filter (fun l' => decide (l'.node = l.node)) = [] := by
    refine List.filter_eq_nil_iff.mpr fun l' hl' hnode => hnodes.1 ?_
    exact List.mem_map.mpr ⟨l', hl', of_decide_eq_true hnode⟩
  have hfilter := hperm.filter fun l' => decide (l'.node = l.node)
  rw [List.filter_cons_of_pos (p := fun l' : Line => decide (l'.node = l.node))
    (decide_eq_true rfl), hrest] at hfilter
  exact List.perm_singleton.mp hfilter

theorem SetOk.push (h : SetOk p nextNode set) {line : Line} (hroom : set.length < p.associativity)
    (htag : ∀ l ∈ set, l.tag ≠ line.tag) (hnode : line.node = nextNode) :
    SetOk p (nextNode + 1) (set ++ [line]) := by
  refine ⟨?_, ?_, ?_, fun l hl => ?_⟩
  · rw [List.length_append, List.length_singleton]
    exact hroom
  · rw [List.map_append]
    refine List.nodup_append.mpr ⟨h.tags, List.nodup_singleton _, ?_⟩
    intro t ht t' ht'
    obtain ⟨l, hl, rfl⟩ := List.mem_map.mp ht
    rw [List.mem_singleton.mp ht']
    exact htag l hl
  · rw [List.map_append]
    refine List.nodup_append.mpr ⟨h.nodes, List.nodup_singleton _, ?_⟩
    intro n hn n' hn'
    obtain ⟨l, hl, rfl⟩ := List.mem_map.mp hn
    rw [List.mem_singleton.mp hn', hnode]
    exact (h.old l hl).ne
  · rcases List.mem_append.mp hl with hl | hl
    · exact (h.old l hl).trans (Nat.lt_succ_self _)
    · rw [List.mem_singleton.mp hl, hnode]
      exact Nat.lt_succ_self _

theorem SetOk.map (h : SetOk p nextNode set) {f : Line → Line} (htag : ∀ l, (f l).tag = l.tag)
    (hnode : ∀ l, (f l).node = l.node) : SetOk p nextNode (set.map f) := by
  have htags : Line.tag ∘ f = Line.tag := funext htag
  have hnodes : Line.node ∘ f = Line.node := funext hnode
  refine ⟨?_, ?_, ?_, ?_⟩
  · rw [List.length_map]
    exact h.ways
  · rw [List.map_map, htags]
    exact h.tags
  · rw [List.map_map, hnodes]
    exact h.nodes
  · intro l hl
    obtain ⟨l', hl', rfl⟩ := List.mem_map.mp hl
    rw [hnode]
    exact h.old l' hl'

/-! ## Sets and MSHRs -/

/-- The sets are in order, and the MSHRs are the lines that are not ready: each MSHR has such a
line with its tag in the set of its address, and each such line has an MSHR. -/
structure Structured (p : LLCParams) (cacheSets : Int → List Line) (nextNode : Nat)
    (mshrs : List (Int × LineIt)) : Prop where
  sets : ∀ i, SetOk p nextNode (cacheSets i)
  count : mshrs.length ≤ p.numMshrs
  iterators : (mshrs.map Prod.snd).Nodup
  mshr : ∀ m ∈ mshrs, m.2.index = p.getIndex m.1 ∧ ∃ l ∈ cacheSets m.2.index,
    l.node = m.2.node ∧ l.ready = false ∧ l.tag = p.getTag m.1
  unready : ∀ i, ∀ l ∈ cacheSets i, l.ready = false → ∃ m ∈ mshrs, m.2 = ⟨i, l.node⟩

variable {cacheSets : Int → List Line} {mshrs : List (Int × LineIt)}

theorem forall_update {q : Int → List Line → Prop} {i : Int} {set : List Line}
    (h : ∀ j, q j (cacheSets j)) (hi : q i set) :
    ∀ j, q j (Function.update cacheSets i set j) := by
  rw [Function.forall_update_iff cacheSets (p := q)]
  exact ⟨hi, fun j _ => h j⟩

theorem Structured.replace (h : Structured p cacheSets nextNode mshrs) {i : Int} {n : Nat}
    (hn : nextNode ≤ n) (hset : SetOk p n set)
    (hkept : ∀ l ∈ cacheSets i, l.ready = false →
      ∃ l' ∈ set, l'.node = l.node ∧ l'.ready = false ∧ l'.tag = l.tag)
    (hnone : ∀ l ∈ set, l.ready = false → ∃ l' ∈ cacheSets i, l'.node = l.node ∧ l'.ready = false) :
    Structured p (Function.update cacheSets i set) n mshrs := by
  refine ⟨forall_update (fun j => (h.sets j).mono hn) hset, h.count, h.iterators, ?_,
    forall_update (q := fun j set => ∀ l ∈ set, l.ready = false → ∃ m ∈ mshrs, m.2 = ⟨j, l.node⟩)
      h.unready ?_⟩
  · intro m hm
    obtain ⟨hindex, l, hl, hnode, hready, htag⟩ := h.mshr m hm
    refine ⟨hindex, ?_⟩
    by_cases hi : m.2.index = i
    · rw [hi, Function.update_self]
      rw [hi] at hl
      obtain ⟨l', hl', hnode', hready', htag'⟩ := hkept l hl hready
      exact ⟨l', hl', hnode'.trans hnode, hready', htag'.trans htag⟩
    · rw [Function.update_of_ne hi]
      exact ⟨l, hl, hnode, hready, htag⟩
  · intro l hl hready
    obtain ⟨l', hl', hnode, hready'⟩ := hnone l hl hready
    rw [← hnode]
    exact h.unready i l' hl' hready'

theorem Structured.erase (h : Structured p cacheSets nextNode mshrs) {i : Int} {line : Line}
    (hline : line ∈ cacheSets i) (hready : line.ready = true) :
    Structured p (Function.update cacheSets i (eraseLine (cacheSets i) line.node)) nextNode
      mshrs := by
  refine h.replace (Nat.le_refl _) ((h.sets i).erase _) ?_ ?_
  · intro l hl hl'
    refine ⟨l, mem_eraseLine hl ?_, rfl, hl', rfl⟩
    intro hnode
    rw [(h.sets i).eq_of_node hl hline hnode, hready] at hl'
    cases hl'
  · intro l hl hl'
    exact ⟨l, (eraseLine_sublist _ _).subset hl, rfl, hl'⟩

theorem Structured.push (h : Structured p cacheSets nextNode mshrs) {i : Int} (line : Line)
    (hroom : (cacheSets i).length < p.associativity) (htag : ∀ l ∈ cacheSets i, l.tag ≠ line.tag)
    (hnode : line.node = nextNode) (hready : line.ready = true) :
    Structured p (Function.update cacheSets i (cacheSets i ++ [line])) (nextNode + 1) mshrs := by
  refine h.replace (Nat.le_succ _) ((h.sets i).push hroom htag hnode) ?_ ?_
  · exact fun l hl hl' => ⟨l, List.mem_append_left _ hl, rfl, hl', rfl⟩
  · intro l hl hl'
    rcases List.mem_append.mp hl with hl | hl
    · exact ⟨l, hl, rfl, hl'⟩
    · rw [List.mem_singleton.mp hl, hready] at hl'
      cases hl'

theorem Structured.map (h : Structured p cacheSets nextNode mshrs) (i : Int) {f : Line → Line}
    (htag : ∀ l, (f l).tag = l.tag) (hnode : ∀ l, (f l).node = l.node)
    (hready : ∀ l, (f l).ready = l.ready) :
    Structured p (Function.update cacheSets i ((cacheSets i).map f)) nextNode mshrs := by
  refine h.replace (Nat.le_refl _) ((h.sets i).map htag hnode) ?_ ?_
  · exact fun l hl hl' =>
      ⟨f l, List.mem_map_of_mem hl, hnode l, (hready l).trans hl', htag l⟩
  · intro l hl hl'
    obtain ⟨l', hl'', rfl⟩ := List.mem_map.mp hl
    exact ⟨l', hl'', (hnode l').symm, (hready l').symm.trans hl'⟩

theorem Structured.pushUnready (h : Structured p cacheSets nextNode mshrs) {addr : Int}
    {line : Line} (hroom : (cacheSets (p.getIndex addr)).length < p.associativity)
    (habsent : ∀ l ∈ cacheSets (p.getIndex addr), l.tag ≠ p.getTag addr)
    (htag : line.tag = p.getTag addr) (hnode : line.node = nextNode) (hready : line.ready = false)
    (hcount : mshrs.length < p.numMshrs) :
    Structured p (Function.update cacheSets (p.getIndex addr)
      (cacheSets (p.getIndex addr) ++ [line])) (nextNode + 1)
      (mshrs ++ [(addr, ⟨p.getIndex addr, nextNode⟩)]) := by
  have hset := (h.sets (p.getIndex addr)).push hroom (htag ▸ habsent) hnode
  have hmem : ∀ i, ∀ l ∈ cacheSets i, l ∈ Function.update cacheSets (p.getIndex addr)
      (cacheSets (p.getIndex addr) ++ [line]) i := by
    refine fun i l hl => ?_
    by_cases hi : i = p.getIndex addr
    · rw [hi, Function.update_self]
      exact List.mem_append_left _ (hi ▸ hl)
    · rwa [Function.update_of_ne hi]
  refine ⟨forall_update (fun j => (h.sets j).mono (Nat.le_succ _)) hset, ?_, ?_, ?_, ?_⟩
  · rw [List.length_append, List.length_singleton]
    exact hcount
  · rw [List.map_append]
    refine List.nodup_append.mpr ⟨h.iterators, List.nodup_singleton _, ?_⟩
    intro it hit it' hit'
    obtain ⟨m, hm, rfl⟩ := List.mem_map.mp hit
    obtain ⟨-, l, hl, hl', -⟩ := h.mshr m hm
    rw [List.mem_singleton.mp hit']
    intro heq
    have hlt := (h.sets _).old l hl
    rw [hl', heq] at hlt
    exact Nat.lt_irrefl _ hlt
  · intro m hm
    rcases List.mem_append.mp hm with hm | hm
    · obtain ⟨hindex, l, hl, hrest⟩ := h.mshr m hm
      exact ⟨hindex, l, hmem _ l hl, hrest⟩
    · rw [List.mem_singleton.mp hm]
      refine ⟨rfl, line, ?_, hnode, hready, htag⟩
      rw [Function.update_self]
      exact List.mem_append_right _ (List.mem_singleton_self line)
  · refine forall_update (q := fun j set => ∀ l ∈ set, l.ready = false →
      ∃ m ∈ mshrs ++ [(addr, ⟨p.getIndex addr, nextNode⟩)], m.2 = ⟨j, l.node⟩) ?_ ?_
    · intro j l hl hl'
      obtain ⟨m, hm, heq⟩ := h.unready j l hl hl'
      exact ⟨m, List.mem_append_left _ hm, heq⟩
    · intro l hl hl'
      rcases List.mem_append.mp hl with hl | hl
      · obtain ⟨m, hm, heq⟩ := h.unready _ l hl hl'
        exact ⟨m, List.mem_append_left _ hm, heq⟩
      · rw [List.mem_singleton.mp hl, hnode]
        exact ⟨_, List.mem_append_right _ (List.mem_singleton_self _), rfl⟩

theorem perm_eraseP_of_find? {α : Type} {q : α → Bool} {xs : List α} {x : α}
    (h : xs.find? q = some x) : xs.Perm (x :: xs.eraseP q) := by
  obtain ⟨hx, before, after, rfl, hbefore⟩ := List.find?_eq_some_iff_append.mp h
  have hnone : ∀ y ∈ before, ¬ q y = true := fun y hy => by simpa using hbefore y hy
  rw [List.eraseP_append_right _ hnone, List.eraseP_cons_of_pos hx]
  exact List.perm_middle

theorem Structured.receive (h : Structured p cacheSets nextNode mshrs) {q : Int × LineIt → Bool}
    {m : Int × LineIt} (hm : mshrs.find? q = some m) :
    Structured p (Function.update cacheSets m.2.index ((cacheSets m.2.index).map fun l =>
      if l.node = m.2.node then { l with ready := true } else l)) nextNode (mshrs.eraseP q) := by
  have hperm := perm_eraseP_of_find? hm
  have hits := List.nodup_cons.mp ((hperm.map Prod.snd).nodup_iff.mp h.iterators)
  have hset := (h.sets m.2.index).map
    (f := fun l => if l.node = m.2.node then { l with ready := true } else l)
    (fun l => by split <;> rfl) (fun l => by split <;> rfl)
  refine ⟨forall_update h.sets hset, List.eraseP_sublist.length_le.trans h.count, hits.2, ?_, ?_⟩
  · intro m' hm'
    obtain ⟨hindex, l, hl, hl', hrest⟩ := h.mshr m' (List.eraseP_subset hm')
    refine ⟨hindex, l, ?_, hl', hrest⟩
    have hne : m'.2 ≠ m.2 := fun heq => hits.1 (heq ▸ List.mem_map_of_mem hm')
    by_cases hi : m'.2.index = m.2.index
    · rw [hi, Function.update_self]
      rw [hi] at hl
      have hnode : l.node ≠ m.2.node := fun heq =>
        hne (LineIt.ext hi (hl'.symm.trans heq))
      exact List.mem_map.mpr ⟨l, hl, if_neg hnode⟩
    · rwa [Function.update_of_ne hi]
  · -- an MSHR with another iterator is still there
    have hrest : ∀ it : LineIt, it ≠ m.2 → (∃ m' ∈ mshrs, m'.2 = it) →
        ∃ m' ∈ mshrs.eraseP q, m'.2 = it := by
      rintro it hne ⟨m', hm', rfl⟩
      rcases List.mem_cons.mp (hperm.mem_iff.mp hm') with rfl | hm'
      · exact absurd rfl hne
      · exact ⟨m', hm', rfl⟩
    intro i l hl hl'
    by_cases hi : i = m.2.index
    · rw [hi, Function.update_self] at hl
      obtain ⟨l', hmem, rfl⟩ := List.mem_map.mp hl
      by_cases hnode : l'.node = m.2.node
      · rw [if_pos hnode] at hl'
        cases hl'
      · rw [if_neg hnode] at hl' ⊢
        refine hrest _ (fun heq => hnode (congrArg LineIt.node heq)) ?_
        rw [hi]
        exact h.unready _ l' hmem hl'
    · rw [Function.update_of_ne hi] at hl
      exact hrest _ (fun heq => hi (congrArg LineIt.index heq)) (h.unready i l hl hl')

/-! ## The calls -/

def WellFormed (p : LLCParams) (llc : SimpleO3LLC) : Prop :=
  Structured p llc.cacheSets llc.nextNode llc.mshrs

variable {llc : SimpleO3LLC}

theorem updateLine_eq {it : LineIt} {l : Line} (f : Line → Line) (hl : l ∈ cacheSets it.index)
    (hnode : l.node = it.node) : updateLine cacheSets it f = .ok (Function.update cacheSets it.index
      ((cacheSets it.index).map fun l => if l.node = it.node then f l else l)) :=
  if_pos (List.any_eq_true.mpr ⟨l, hl, decide_eq_true hnode⟩)

theorem receive_cases (h : WellFormed p llc) (req : Request) :
    ∃ llc', llc.receive p req = .ok llc' ∧ WellFormed p llc' ∧
      llc'.mshrs = llc.mshrs.eraseP (fun m => decide (p.align m.1 = p.align req.addr)) ∧
      llc'.receiveRequests = llc.receiveRequests ∧ llc'.missList = llc.missList ∧
      llc'.hitList = llc.hitList ∧ llc'.clk = llc.clk := by
  unfold receive checkMshrHit
  cases hm : llc.mshrs.find? fun m => decide (p.align m.1 = p.align req.addr) with
  | none =>
      refine ⟨llc, rfl, h, ?_, rfl, rfl, rfl, rfl⟩
      have hnone := List.find?_eq_none.mp hm
      exact (List.eraseP_of_forall_not hnone).symm
  | some m =>
      obtain ⟨-, l, hl, hnode, -⟩ := h.mshr m (List.mem_of_find?_eq_some hm)
      dsimp only
      rw [updateLine_eq _ hl hnode]
      exact ⟨_, rfl, Structured.receive h hm, rfl, rfl, rfl, rfl, rfl⟩

theorem WellFormed.align_ne_of_mem_erase (h : WellFormed p llc) (hp : p.PowersOfTwo) {addr : Int}
    {m : Int × LineIt}
    (hm : m ∈ llc.mshrs.eraseP fun m => decide (p.align m.1 = p.align addr)) :
    p.align m.1 ≠ p.align addr := by
  intro halign
  have hmem := List.eraseP_subset hm
  cases hfirst : llc.mshrs.find? fun m => decide (p.align m.1 = p.align addr) with
  | none => exact List.find?_eq_none.mp hfirst m hmem (decide_eq_true halign)
  | some first =>
      have hperm := perm_eraseP_of_find? hfirst
      have hits := List.nodup_cons.mp ((hperm.map Prod.snd).nodup_iff.mp h.iterators)
      refine hits.1 (List.mem_map.mpr ⟨m, hm, ?_⟩)
      -- both MSHRs have the line of the address
      have hfirst' : p.align first.1 = p.align addr := of_decide_eq_true (List.find?_some hfirst :)
      obtain ⟨hindex, htag⟩ :=
        (LLCParams.align_eq_iff hp).mp (halign.trans hfirst'.symm)
      obtain ⟨hi, l, hl, hnode, -, htagM⟩ := h.mshr m hmem
      obtain ⟨hi', l', hlFirst, hnode', -, htagFirst⟩ := h.mshr first (List.mem_of_find?_eq_some hfirst)
      have hset : m.2.index = first.2.index := hi.trans (hindex.trans hi'.symm)
      rw [hset] at hl
      obtain rfl := (h.sets _).eq_of_tag hl hlFirst (htagM.trans (htag.trans htagFirst.symm))
      exact LineIt.ext hset (hnode.symm.trans hnode')

theorem checkSetHit_eq_some {addr : Int} {line : Line} (h : checkSetHit p set addr = some line) :
    line ∈ set ∧ line.tag = p.getTag addr ∧ line.ready = true := by
  unfold checkSetHit at h
  split at h
  · cases h
  · next l hfind =>
      split at h
      · next hready =>
          obtain rfl := Option.some.inj h
          exact ⟨List.mem_of_find?_eq_some hfind, of_decide_eq_true (List.find?_some hfind :), hready⟩
      · cases h

theorem ready_of_checkSetHit_eq_none (hset : SetOk p nextNode set) {addr : Int}
    (h : checkSetHit p set addr = none) {l : Line} (hl : l ∈ set) (htag : l.tag = p.getTag addr) :
    l.ready = false := by
  unfold checkSetHit at h
  split at h
  · next hfind => exact absurd (decide_eq_true htag) (List.find?_eq_none.mp hfind l hl)
  · next l' hfind =>
      have htag' : l'.tag = p.getTag addr := of_decide_eq_true (List.find?_some hfind :)
      obtain rfl := hset.eq_of_tag hl (List.mem_of_find?_eq_some hfind) (htag.trans htag'.symm)
      split at h
      · cases h
      · next hready => exact Bool.eq_false_iff.mpr hready

theorem WellFormed.absent (h : WellFormed p llc) (hp : p.PowersOfTwo) {addr : Int}
    (hset : checkSetHit p (llc.cacheSets (p.getIndex addr)) addr = none)
    (hmshr : llc.checkMshrHit p addr = none) :
    ∀ l ∈ llc.cacheSets (p.getIndex addr), l.tag ≠ p.getTag addr := by
  intro l hl htag
  obtain ⟨m, hm, hit⟩ := h.unready _ l hl (ready_of_checkSetHit_eq_none (h.sets _) hset hl htag)
  obtain ⟨hindex, l', hl', hnode, -, htag'⟩ := h.mshr m hm
  rw [hit] at hindex hl' hnode
  obtain rfl := (h.sets _).eq_of_node hl' hl hnode
  have halign : p.align m.1 = p.align addr :=
    (LLCParams.align_eq_iff hp).mpr ⟨hindex.symm, htag'.symm.trans htag⟩
  exact List.find?_eq_none.mp hmshr m hm (decide_eq_true halign)

theorem exists_victim (havailable : lineAvailable p set = true)
    (hfull : ¬ set.length < p.associativity) : ∃ victim, set.find? (·.ready) = some victim := by
  have hready : set.any (·.ready) = true :=
    (Bool.or_eq_true_iff.mp havailable).resolve_left fun hroom => hfull (of_decide_eq_true hroom)
  obtain ⟨l, hl, hl'⟩ := List.any_eq_true.mp hready
  exact Option.isSome_iff_exists.mp (List.find?_isSome.mpr ⟨l, hl, hl'⟩)

/-- What `allocate_line` does before it pushes the new line. -/
def makeRoom (p : LLCParams) (llc : SimpleO3LLC) (index : Int) : SimpleO3LLC :=
  if (llc.cacheSets index).length < p.associativity then llc
  else
    match (llc.cacheSets index).find? (·.ready) with
    | none => llc
    | some victim => llc.evictLine p index victim

structure RoomMade (p : LLCParams) (llc : SimpleO3LLC) (index : Int) (room : SimpleO3LLC) :
    Prop where
  wellFormed : WellFormed p room
  free : (room.cacheSets index).length < p.associativity
  subset : room.cacheSets index ⊆ llc.cacheSets index
  nextNode : room.nextNode = llc.nextNode
  mshrs : room.mshrs = llc.mshrs
  receiveRequests : room.receiveRequests = llc.receiveRequests
  hitList : room.hitList = llc.hitList
  missList : llc.missList ⊆ room.missList
  clk : room.clk = llc.clk

theorem WellFormed.makeRoom (h : WellFormed p llc) {index : Int}
    (havailable : lineAvailable p (llc.cacheSets index) = true) :
    RoomMade p llc index (makeRoom p llc index) := by
  unfold SimpleO3LLC.makeRoom
  split
  · next hroom => exact ⟨h, hroom, List.Subset.refl _, rfl, rfl, rfl, rfl, List.Subset.refl _, rfl⟩
  · next hfull =>
      obtain ⟨victim, hvictim⟩ := exists_victim havailable hfull
      rw [hvictim]
      have hmem := List.mem_of_find?_eq_some hvictim
      have hlength := ((h.sets index).perm_erase hmem).length_eq
      have hways := (h.sets index).ways
      rw [List.length_cons] at hlength
      refine ⟨Structured.erase h hmem (List.find?_some hvictim :), ?_, ?_, rfl, rfl, rfl, rfl, ?_, rfl⟩
      · simp only [evictLine, Function.update_self]
        omega
      · simp only [evictLine, Function.update_self]
        exact (eraseLine_sublist _ _).subset
      · simp only [evictLine]
        split
        · exact List.subset_append_left _ _
        · exact List.Subset.refl _

/-- Neither the assertion nor the exception is reached where the tag is new and a line is
available. -/
theorem allocateLine_eq {index addr : Int}
    (habsent : ∀ l ∈ llc.cacheSets index, l.tag ≠ p.getTag addr)
    (havailable : lineAvailable p (llc.cacheSets index) = true) :
    llc.allocateLine p index addr =
      .ok ((makeRoom p llc index).pushLine index fun node => { addr, tag := p.getTag addr, node },
        some ⟨index, llc.nextNode⟩) := by
  have hnone : ¬ ((llc.cacheSets index).any fun l => decide (p.getTag addr = l.tag)) = true := by
    intro hany
    obtain ⟨l, hl, htag⟩ := List.any_eq_true.mp hany
    exact habsent l hl (of_decide_eq_true htag).symm
  unfold allocateLine needEviction
  rw [if_neg hnone]
  by_cases hroom : (llc.cacheSets index).length < p.associativity
  · rw [decide_eq_false (not_not_intro hroom), makeRoom, if_pos hroom]
  · obtain ⟨victim, hvictim⟩ := exists_victim havailable hroom
    rw [decide_eq_true hroom, makeRoom, if_neg hroom, hvictim]

theorem updateLine_push {i : Int} (hset : SetOk p nextNode (cacheSets i)) {line : Line}
    (hnode : line.node = nextNode) (f : Line → Line) :
    updateLine (Function.update cacheSets i (cacheSets i ++ [line])) ⟨i, nextNode⟩ f =
      .ok (Function.update cacheSets i (cacheSets i ++ [f line])) := by
  have hmem : line ∈ Function.update cacheSets i (cacheSets i ++ [line]) i := by
    rw [Function.update_self]
    exact List.mem_append_right _ (List.mem_singleton_self line)
  have hold : (cacheSets i).map (fun l => if l.node = nextNode then f l else l) = cacheSets i := by
    refine (List.map_congr_left fun l hl => ?_).trans (List.map_id _)
    exact if_neg (hset.old l hl).ne
  rw [updateLine_eq f hmem hnode]
  dsimp only
  rw [Function.update_self, Function.update_idem, List.map_append, hold, List.map_singleton,
    if_pos hnode]

/-- The condition under which `send` allocates a line. -/
def Allocates (p : LLCParams) (llc : SimpleO3LLC) (req : Request) : Prop :=
  checkSetHit p (llc.cacheSets (p.getIndex req.addr)) req.addr = none ∧
    llc.checkMshrHit p req.addr = none ∧ llc.mshrs.length ≠ p.numMshrs ∧
    lineAvailable p (llc.cacheSets (p.getIndex req.addr)) = true

/-- What `send` does to the lists of requests. -/
inductive Sent (p : LLCParams) (llc : SimpleO3LLC) (req : Request) : SimpleO3LLC → Bool → Prop
  | hit {llc' : SimpleO3LLC} : ¬ Allocates p llc req → llc'.mshrs = llc.mshrs →
      llc'.receiveRequests = llc.receiveRequests → llc'.missList = llc.missList →
      llc'.hitList = llc.hitList ++ [(llc.clk + p.latency, req)] → Sent p llc req llc' true
  | mshrHit {llc' : SimpleO3LLC} {m : Int × LineIt} : ¬ Allocates p llc req → m ∈ llc.mshrs →
      llc'.mshrs = llc.mshrs →
      llc'.receiveRequests = llc.receiveRequests.push m.1 (missRequest req) →
      llc'.missList = llc.missList → llc'.hitList = llc.hitList → Sent p llc req llc' true
  | refused : ¬ Allocates p llc req → Sent p llc req llc false
  | allocate {llc' : SimpleO3LLC} {it : LineIt} {due : Int} : Allocates p llc req →
      llc'.mshrs = llc.mshrs ++ [(req.addr, it)] →
      llc'.receiveRequests = llc.receiveRequests.put req.addr [missRequest req] →
      llc.missList ⊆ llc'.missList → (due, missRequest req) ∈ llc'.missList →
      llc'.hitList = llc.hitList → Sent p llc req llc' true

theorem sendHit_wellFormed (h : WellFormed p llc) {req : Request} {line : Line}
    (hline : checkSetHit p (llc.cacheSets (p.getIndex req.addr)) req.addr = some line) :
    WellFormed p (llc.sendHit p req line) := by
  obtain ⟨hmem, htag, hready⟩ := checkSetHit_eq_some hline
  have hset := h.sets (p.getIndex req.addr)
  have hlength := (hset.perm_erase hmem).length_eq
  have hways := hset.ways
  rw [List.length_cons] at hlength
  have herased := Structured.erase h hmem hready
  have habsent : ∀ l ∈ eraseLine (llc.cacheSets (p.getIndex req.addr)) line.node,
      l.tag ≠ p.getTag req.addr := by
    rw [← htag]
    exact fun l hl => hset.tag_ne_of_mem_erase hmem hl
  have hpushed := herased.push (i := p.getIndex req.addr)
    { addr := req.addr, tag := p.getTag req.addr,
      dirty := line.dirty || decide (req.type = .Write), ready := true, node := llc.nextNode }
    (by rw [Function.update_self]; omega)
    (by rw [Function.update_self]; exact habsent) rfl rfl
  rw [Function.update_self, Function.update_idem] at hpushed
  -- pushing first and erasing after it leaves the same set
  have hcommute : ∀ l, eraseLine (llc.cacheSets (p.getIndex req.addr) ++ [l]) line.node =
      eraseLine (llc.cacheSets (p.getIndex req.addr)) line.node ++ [l] := fun l =>
    List.eraseP_append_left (p := fun l : Line => decide (l.node = line.node))
      (decide_eq_true rfl) _ hmem
  unfold WellFormed sendHit pushLine
  dsimp only
  rw [Function.update_self, Function.update_idem, hcommute]
  exact hpushed

theorem sendAllocate_cases (h : WellFormed p llc) {req : Request}
    (habsent : ∀ l ∈ llc.cacheSets (p.getIndex req.addr), l.tag ≠ p.getTag req.addr)
    (havailable : lineAvailable p (llc.cacheSets (p.getIndex req.addr)) = true)
    (hcount : llc.mshrs.length < p.numMshrs) :
    ∃ llc' it due, llc.sendAllocate p req = .ok llc' ∧ WellFormed p llc' ∧ llc'.clk = llc.clk ∧
      llc'.mshrs = llc.mshrs ++ [(req.addr, it)] ∧
      llc'.receiveRequests = llc.receiveRequests.put req.addr [missRequest req] ∧
      llc.missList ⊆ llc'.missList ∧ (due, missRequest req) ∈ llc'.missList ∧
      llc'.hitList = llc.hitList := by
  have hmade := h.makeRoom havailable
  unfold sendAllocate
  rw [allocateLine_eq habsent havailable]
  generalize makeRoom p llc (p.getIndex req.addr) = room at hmade ⊢
  dsimp only [pushLine]
  rw [← hmade.nextNode, updateLine_push (hmade.wellFormed.sets _) rfl]
  refine ⟨_, _, _, rfl, ?_, hmade.clk, congrArg (· ++ _) hmade.mshrs,
    congrArg (fun b => b.put req.addr [missRequest req]) hmade.receiveRequests,
    List.subset_append_of_subset_left _ hmade.missList,
    List.mem_append_right _ (List.mem_singleton_self _), hmade.hitList⟩
  exact hmade.wellFormed.pushUnready hmade.free (fun l hl => habsent l (hmade.subset hl)) rfl rfl rfl
    (hmade.mshrs ▸ hcount)

theorem send_cases (h : WellFormed p llc) (hp : p.PowersOfTwo) (req : Request) :
    ∃ llc' accepted, llc.send p req = .ok (llc', accepted) ∧ WellFormed p llc' ∧
      llc'.clk = llc.clk ∧ Sent p llc req llc' accepted := by
  unfold send
  dsimp only
  cases hset : checkSetHit p (llc.cacheSets (p.getIndex req.addr)) req.addr with
  | some line =>
      refine ⟨_, true, rfl, sendHit_wellFormed h hset, rfl, .hit ?_ rfl rfl rfl rfl⟩
      intro halloc
      rw [halloc.1] at hset
      cases hset
  | none =>
      cases hmshr : llc.checkMshrHit p req.addr with
      | some m =>
          have hm := List.mem_of_find?_eq_some hmshr
          obtain ⟨-, l, hl, hnode, -⟩ := h.mshr m hm
          dsimp only
          rw [sendMshrHit, updateLine_eq _ hl hnode]
          refine ⟨_, true, rfl, ?_, rfl, .mshrHit ?_ hm rfl rfl rfl rfl⟩
          · exact Structured.map h m.2.index (fun l => by split <;> rfl) (fun l => by split <;> rfl)
              (fun l => by split <;> rfl)
          · intro halloc
            rw [halloc.2.1] at hmshr
            cases hmshr
      | none =>
          dsimp only
          split
          · next hfull => exact ⟨llc, false, rfl, h, rfl, .refused fun halloc => halloc.2.2.1 hfull⟩
          · next hroom =>
              split
              · next hline =>
                  exact ⟨llc, false, rfl, h, rfl, .refused fun halloc => hline halloc.2.2.2⟩
              · next hline =>
                  have havailable := not_not.mp hline
                  have habsent := h.absent hp hset hmshr
                  obtain ⟨llc', it, due, heq, hwf, hclk, hmshrs, hrequests, hmiss, hmem, hhit⟩ :=
                    sendAllocate_cases h habsent havailable (lt_of_le_of_ne h.count hroom)
                  rw [heq]
                  exact ⟨llc', true, rfl, hwf, hclk,
                    .allocate ⟨hset, hmshr, hroom, havailable⟩ hmshrs hrequests hmiss hmem hhit⟩

end SimpleO3LLC

namespace SimpleO3

open SimpleO3LLC

variable {p : LLCParams} {s s' : SimpleO3}

theorem toOption_eq_some {ε α : Type} {e : Except ε α} {a : α} :
    e.toOption = some a ↔ e = .ok a := by
  cases e with
  | error fault => exact iff_of_false nofun nofun
  | ok b => exact ⟨fun h => congrArg _ (Option.some.inj h), fun h => congrArg _ (Except.ok.inj h)⟩

theorem receive_cases (h : WellFormed p s.llc) {req : Request} (hr : s.receive p req = .ok s') :
    WellFormed p s'.llc ∧
      s'.llc.mshrs = s.llc.mshrs.eraseP (fun m => decide (p.align m.1 = p.align req.addr)) ∧
      s'.llc.receiveRequests = s.llc.receiveRequests.put req.addr [] ∧
      s'.received = s.received ++ s.llc.receiveRequests.get req.addr ∧
      s'.llc.missList = s.llc.missList ∧ s'.llc.hitList = s.llc.hitList ∧
      s'.llc.clk = s.llc.clk ∧ s'.memory = s.memory := by
  obtain ⟨llc, heq, hwf, hmshrs, hrequests, hmiss, hhit, hclk⟩ :=
    SimpleO3LLC.receive_cases h req
  rw [receive, heq] at hr
  dsimp only at hr
  split at hr
  · obtain rfl := Except.ok.inj hr
    refine ⟨hwf, hmshrs, ?_, ?_, hmiss, hhit, hclk, rfl⟩
    · dsimp only
      rw [hrequests]
    · dsimp only
      rw [hrequests]
  · cases hr

theorem completeHits_induction {I : SimpleO3 → Prop} {clk : Int} {hits kept : List (Int × Request)}
    (hstep : ∀ s s' due req, (due, req) ∈ hits → due ≤ clk → I s →
      s.completeHit p req = .ok s' → I s')
    (hs : I s) (h : completeHits p clk s hits = .ok (s', kept)) : I s' := by
  induction hits generalizing s s' kept with
  | nil =>
      obtain ⟨rfl, -⟩ := Prod.mk.inj (Except.ok.inj h)
      exact hs
  | cons hit hits ih =>
      obtain ⟨due, req⟩ := hit
      have htail := fun s s' due' req' hmem => hstep s s' due' req' (List.mem_cons_of_mem (due, req) hmem)
      rw [completeHits] at h
      split at h
      · next hdue =>
          split at h
          · cases h
          · next s₁ hhit =>
              exact ih htail (hstep s s₁ due req List.mem_cons_self hdue hs hhit) h
      · obtain ⟨⟨s₁, kept₁⟩, hrest, heq⟩ := Excepts.map_eq_ok.mp h
        obtain ⟨rfl, -⟩ := Prod.mk.inj heq
        exact ih htail hs hrest

/-- What a hit that completes does: all that waits for its address gives way to it. -/
theorem completeHit_cases (h : WellFormed p s.llc) {req : Request}
    (hr : s.completeHit p req = .ok s') :
    WellFormed p s'.llc ∧
      s'.llc.mshrs = s.llc.mshrs.eraseP (fun m => decide (p.align m.1 = p.align req.addr)) ∧
      s'.llc.receiveRequests = s.llc.receiveRequests.put req.addr [] ∧
      s'.received = s.received ++ [req] ∧ s'.llc.missList = s.llc.missList ∧
      s'.llc.clk = s.llc.clk ∧ s'.memory = s.memory := by
  unfold completeHit at hr
  split at hr
  · cases hr
  · obtain ⟨hwf, hmshrs, hrequests, hreceived, hmiss, -, hclk, hmemory⟩ := receive_cases
      (s := { s with
        llc := { s.llc with receiveRequests := s.llc.receiveRequests.put req.addr [req] } }) h hr
    rw [Buckets.get_put_self] at hreceived
    rw [Buckets.put_put] at hrequests
    exact ⟨hwf, hmshrs, hrequests, hreceived, hmiss, hclk, hmemory⟩

theorem tick_cases {answers : List Bool} (h : s.tick p answers = .ok s') :
    ∃ t hitList, completeHits p (s.llc.clk + 1) (s.tickMisses answers) s.llc.hitList =
      .ok (t, hitList) ∧ s' = { t with llc := { t.llc with hitList } } := by
  obtain ⟨⟨t, hitList⟩, hhits, rfl⟩ := Excepts.map_eq_ok.mp h
  exact ⟨t, hitList, hhits, rfl⟩

theorem step_wellFormed (hp : p.PowersOfTwo) (h : WellFormed p s.llc) {op : Op}
    (hstep : s.step p op = .ok s') : WellFormed p s'.llc := by
  cases op with
  | send req =>
      obtain ⟨llc', accepted, heq, hwf, -⟩ := send_cases h hp req
      rw [step, heq] at hstep
      obtain rfl := Except.ok.inj hstep
      exact hwf
  | receive req =>
      obtain ⟨llc', heq, hwf, -⟩ := SimpleO3LLC.receive_cases h req
      rw [step, heq] at hstep
      obtain rfl := Except.ok.inj hstep
      exact hwf
  | respond req =>
      exact (receive_cases (s := { s with memory := s.memory.erase req }) h hstep).1
  | tick answers =>
      obtain ⟨t, hitList, hhits, rfl⟩ := tick_cases hstep
      have ht : WellFormed p t.llc := by
        refine completeHits_induction (I := fun s => WellFormed p s.llc) ?_ ?_ hhits
        · exact fun s s' due req _ _ hs hhit => (completeHit_cases hs hhit).1
        · exact h
      exact ht

abbrev Run (p : LLCParams) (guard : SimpleO3 → Op → Prop) : SimpleO3 → Prop :=
  Runs.Reachable (Eq {}) (fun s op s' => (s.step p op).toOption = some s') guard

theorem init_wellFormed (p : LLCParams) : WellFormed p {} :=
  ⟨fun _ => ⟨Nat.zero_le _, .nil, .nil, nofun⟩, Nat.zero_le _, .nil, nofun, nofun⟩

theorem Run.wellFormed {guard : SimpleO3 → Op → Prop} (hp : p.PowersOfTwo) (h : Run p guard s) :
    WellFormed p s.llc := by
  refine h.invariant (I := fun s => WellFormed p s.llc) ?_ ?_
  · rintro s rfl
    exact init_wellFormed p
  · exact fun s op s' hs _ hstep => step_wellFormed hp hs (toOption_eq_some.mp hstep)

/-- In every state: each set holds at most as many lines as it has ways, with different tags;
there are no more MSHRs than allowed; each MSHR has one line, which is not ready, in the set of
its address with the tag of its address, and each line that is not ready has one MSHR; and
every `send` and every `receive` returns, so neither the assertion that the tag is new nor the
exception of `send` is reached. -/
theorem llc_structure (hp : p.PowersOfTwo) (h : Run p (fun _ _ => True) s) :
    (∀ i, (s.llc.cacheSets i).length ≤ p.associativity ∧
      ((s.llc.cacheSets i).map Line.tag).Nodup) ∧
    s.llc.mshrs.length ≤ p.numMshrs ∧
    (∀ m ∈ s.llc.mshrs, m.2.index = p.getIndex m.1 ∧
      ∃ l ∈ s.llc.cacheSets (p.getIndex m.1),
        (s.llc.cacheSets (p.getIndex m.1)).filter (fun l => decide (l.node = m.2.node)) = [l] ∧
          l.ready = false ∧ l.tag = p.getTag m.1) ∧
    (∀ i, ∀ l ∈ s.llc.cacheSets i, l.ready = false →
      (s.llc.mshrs.map Prod.snd).count ⟨i, l.node⟩ = 1) ∧
    ∀ req, (∃ llc' accepted, s.llc.send p req = .ok (llc', accepted)) ∧
      ∃ llc', s.llc.receive p req = .ok llc' := by
  have hwf := h.wellFormed hp
  refine ⟨fun i => ⟨(hwf.sets i).ways, (hwf.sets i).tags⟩, hwf.count, ?_, ?_, fun req => ⟨?_, ?_⟩⟩
  · intro m hm
    obtain ⟨hindex, l, hl, hnode, hready, htag⟩ := hwf.mshr m hm
    rw [hindex] at hl
    refine ⟨hindex, l, hl, ?_, hready, htag⟩
    rw [← hnode]
    exact (hwf.sets _).filter_node hl
  · intro i l hl hready
    obtain ⟨m, hm, hit⟩ := hwf.unready i l hl hready
    exact List.count_eq_one_of_mem hwf.iterators (hit ▸ List.mem_map_of_mem hm)
  · obtain ⟨llc', accepted, heq, -⟩ := send_cases hwf hp req
    exact ⟨llc', accepted, heq⟩
  · obtain ⟨llc', heq, -⟩ := SimpleO3LLC.receive_cases hwf req
    exact ⟨llc', heq⟩

def small : LLCParams where
  latency := 1
  sizeBytes := 128
  linesizeBytes := 64
  associativity := 2
  numMshrs := 8
  numCores := 2

theorem small_powersOfTwo : small.PowersOfTwo := ⟨⟨6, rfl⟩, ⟨0, rfl⟩⟩

def read (core addr : Int) : Request :=
  { addr, type := .Read, sourceId := core, callback := .frontEnd 0 }

/-- A read that misses. -/
theorem llc_structure_read :
    ∃ s, ((SimpleO3.step small {} (.send (read 0 0))).toOption = some s) ∧
      s.llc.mshrs.length ≤ 8 ∧ ∀ i, (s.llc.cacheSets i).length ≤ 2 := by
  obtain ⟨s, hs⟩ : ∃ s, (SimpleO3.step small {} (.send (read 0 0))).toOption = some s :=
    Option.isSome_iff_exists.mp (by decide +kernel)
  have h := llc_structure small_powersOfTwo (.next (.start rfl) trivial hs)
  exact ⟨s, hs, h.2.1, fun i => (h.1 i).1⟩

end SimpleO3

end AimSimulator.Processor
