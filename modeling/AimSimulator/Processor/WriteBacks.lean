import AimSimulator.Processor.WakeUps
/-!
# The write-backs of the last-level cache

A store makes the line of its address dirty, and only the eviction of the line ends that, with a
write-back.  The set of the dirty lines follows the accepted stores and the write-backs alone: no
line is written back twice for one store, and a line that was stored to is dirty until then.
-/

namespace AimSimulator.Processor

namespace SimpleO3LLC

variable {p : LLCParams} {llc llc' : SimpleO3LLC}

/-! ## Dirty lines of a set -/

section

variable {nextNode : Nat} {set : List Line} {line : Line} {tag : Int}

def Dirty (set : List Line) (tag : Int) : Prop := ∃ l ∈ set, l.tag = tag ∧ l.dirty = true

theorem dirty_append : Dirty (set ++ [line]) tag ↔
    Dirty set tag ∨ (line.tag = tag ∧ line.dirty = true) := by
  constructor
  · rintro ⟨l, hl, hdirty⟩
    rcases List.mem_append.mp hl with hl | hl
    · exact .inl ⟨l, hl, hdirty⟩
    · rw [List.mem_singleton.mp hl] at hdirty
      exact .inr hdirty
  · rintro (⟨l, hl, hdirty⟩ | hdirty)
    · exact ⟨l, List.mem_append_left _ hl, hdirty⟩
    · exact ⟨line, List.mem_append_right _ List.mem_cons_self, hdirty⟩

theorem dirty_erase (h : SetOk p nextNode set) (hline : line ∈ set) :
    Dirty (eraseLine set line.node) tag ↔ Dirty set tag ∧ line.tag ≠ tag := by
  constructor
  · rintro ⟨l, hl, htag, hdirty⟩
    exact ⟨⟨l, (eraseLine_sublist _ _).subset hl, htag, hdirty⟩,
      fun heq => h.tag_ne_of_mem_erase hline hl (htag.trans heq.symm)⟩
  · rintro ⟨⟨l, hl, htag, hdirty⟩, hne⟩
    refine ⟨l, mem_eraseLine hl fun hnode => hne ?_, htag, hdirty⟩
    rw [← h.eq_of_node hl hline hnode, htag]

theorem dirty_tag (h : SetOk p nextNode set) (hline : line ∈ set) :
    Dirty set line.tag ↔ line.dirty = true := by
  constructor
  · rintro ⟨l, hl, htag, hdirty⟩
    rwa [← h.eq_of_tag hl hline htag]
  · exact fun hdirty => ⟨line, hline, rfl, hdirty⟩

theorem dirty_map (h : SetOk p nextNode set) (hline : line ∈ set) {f : Line → Line} {store : Bool}
    (htag : ∀ l, (f l).tag = l.tag) (hdirty : ∀ l, (f l).dirty = (store || l.dirty)) :
    Dirty (set.map fun l => if l.node = line.node then f l else l) tag ↔
      Dirty set tag ∨ (line.tag = tag ∧ store = true) := by
  constructor
  · rintro ⟨l', hl', htag', hdirty'⟩
    obtain ⟨l, hl, rfl⟩ := List.mem_map.mp hl'
    by_cases hnode : l.node = line.node
    · obtain rfl := h.eq_of_node hl hline hnode
      rw [if_pos hnode, hdirty] at hdirty'
      rw [if_pos hnode, htag] at htag'
      rcases Bool.or_eq_true_iff.mp hdirty' with hstore | hold
      · exact .inr ⟨htag', hstore⟩
      · exact .inl ⟨l, hl, htag', hold⟩
    · rw [if_neg hnode] at htag' hdirty'
      exact .inl ⟨l, hl, htag', hdirty'⟩
  · have hmem : ∀ l ∈ set, (if l.node = line.node then f l else l) ∈
        set.map fun l => if l.node = line.node then f l else l :=
      fun l hl => List.mem_map_of_mem hl
    rintro (⟨l, hl, htag', hdirty'⟩ | ⟨htag', hstore⟩)
    · refine ⟨_, hmem l hl, ?_, ?_⟩
      · split
        · exact (htag l).trans htag'
        · exact htag'
      · split
        · rw [hdirty, hdirty', Bool.or_true]
        · exact hdirty'
    · refine ⟨_, hmem line hline, ?_, ?_⟩
      · rw [if_pos rfl, htag, htag']
      · rw [if_pos rfl, hdirty, hstore, Bool.true_or]

end

/-! ## Dirty lines of a cache -/

def DirtyAt (p : LLCParams) (cacheSets : Int → List Line) (addr : Int) : Prop :=
  Dirty (cacheSets (p.getIndex addr)) (p.getTag addr)

/-- Each line stands in the set of its address, under the tag of its address. -/
def Filed (p : LLCParams) (cacheSets : Int → List Line) : Prop :=
  ∀ i, ∀ l ∈ cacheSets i, p.getIndex l.addr = i ∧ p.getTag l.addr = l.tag

section

variable {cacheSets : Int → List Line} {index : Int} {set : List Line}

theorem Filed.update (h : Filed p cacheSets)
    (hset : ∀ l ∈ set, p.getIndex l.addr = index ∧ p.getTag l.addr = l.tag) :
    Filed p (Function.update cacheSets index set) :=
  forall_update (q := fun i set => ∀ l ∈ set, p.getIndex l.addr = i ∧ p.getTag l.addr = l.tag)
    h hset

theorem dirtyAt_store (hp : p.PowersOfTwo) {target : Int} {store : Bool}
    (hindex : p.getIndex target = index)
    (hset : ∀ tag, Dirty set tag ↔
      Dirty (cacheSets index) tag ∨ (p.getTag target = tag ∧ store = true)) (addr : Int) :
    DirtyAt p (Function.update cacheSets index set) addr ↔
      DirtyAt p cacheSets addr ∨ (p.align target = p.align addr ∧ store = true) := by
  unfold DirtyAt
  rw [LLCParams.align_eq_iff hp, hindex]
  by_cases hi : index = p.getIndex addr
  · rw [← hi, Function.update_self, hset, and_iff_right rfl]
  · rw [Function.update_of_ne (Ne.symm hi)]
    exact ⟨.inl, fun h => h.resolve_right fun h => hi h.1.1⟩

theorem dirtyAt_evict (hp : p.PowersOfTwo) {target : Int} (hindex : p.getIndex target = index)
    (hset : ∀ tag, Dirty set tag ↔ Dirty (cacheSets index) tag ∧ p.getTag target ≠ tag)
    (addr : Int) :
    DirtyAt p (Function.update cacheSets index set) addr ↔
      DirtyAt p cacheSets addr ∧ p.align target ≠ p.align addr := by
  unfold DirtyAt
  rw [ne_eq, LLCParams.align_eq_iff hp, hindex]
  by_cases hi : index = p.getIndex addr
  · rw [← hi, Function.update_self, hset, and_iff_right rfl]
  · rw [Function.update_of_ne (Ne.symm hi)]
    exact ⟨fun h => ⟨h, fun heq => hi heq.1⟩, And.left⟩

end

/-! ## The calls -/

def storeOf (req : Request) : Option Int := if req.type = .Write then some req.addr else none

def writtenBack (misses : List (Int × Request)) : List Int :=
  misses.filterMap fun miss => storeOf miss.2

theorem writtenBack_append (misses misses' : List (Int × Request)) :
    writtenBack (misses ++ misses') = writtenBack misses ++ writtenBack misses' :=
  List.filterMap_append

/-- What a call does to the dirty lines: the line of `victim` was dirty and is written back, and
the line of `stored` is dirty behind it. -/
structure WritesBack (p : LLCParams) (llc llc' : SimpleO3LLC) (stored victim : Option Int) :
    Prop where
  filed : Filed p llc'.cacheSets
  misses : ∃ rest, llc'.missList = llc.missList ++ rest ∧ writtenBack rest = victim.toList
  wasDirty : ∀ v ∈ victim, DirtyAt p llc.cacheSets v
  dirtyAt : ∀ addr, DirtyAt p llc'.cacheSets addr ↔
    (DirtyAt p llc.cacheSets addr ∧ ∀ v ∈ victim, p.align v ≠ p.align addr) ∨
      ∃ a ∈ stored, p.align a = p.align addr

theorem or_exists_none {P : Prop} {addr : Int} :
    (P ∨ ∃ a ∈ (none : Option Int), p.align a = p.align addr) ↔ P :=
  or_iff_left fun ⟨_, ha, _⟩ => nomatch ha

theorem WritesBack.quiet (hfiled : Filed p llc'.cacheSets) {stored : Option Int}
    (hmisses : llc'.missList = llc.missList)
    (hdirty : ∀ addr, DirtyAt p llc'.cacheSets addr ↔
      DirtyAt p llc.cacheSets addr ∨ ∃ a ∈ stored, p.align a = p.align addr) :
    WritesBack p llc llc' stored none := by
  refine ⟨hfiled, ⟨[], by rw [hmisses, List.append_nil], rfl⟩, nofun, fun addr => ?_⟩
  rw [hdirty, and_iff_left fun v hv => nomatch hv]

theorem WritesBack.refl (hfiled : Filed p llc.cacheSets) : WritesBack p llc llc none none :=
  .quiet hfiled rfl fun _ => or_exists_none.symm

theorem WritesBack.dirtyAt_iff (h : WritesBack p llc llc' none none) (addr : Int) :
    DirtyAt p llc'.cacheSets addr ↔ DirtyAt p llc.cacheSets addr := by
  rw [h.dirtyAt, or_exists_none]
  exact and_iff_left fun v hv => nomatch hv

structure KeepsDirty (p : LLCParams) (cacheSets cacheSets' : Int → List Line) : Prop where
  filed : Filed p cacheSets'
  dirtyAt : ∀ addr, DirtyAt p cacheSets' addr ↔ DirtyAt p cacheSets addr

theorem KeepsDirty.refl {cacheSets : Int → List Line} (h : Filed p cacheSets) :
    KeepsDirty p cacheSets cacheSets :=
  ⟨h, fun _ => Iff.rfl⟩

theorem KeepsDirty.trans {cacheSets cacheSets' cacheSets'' : Int → List Line}
    (h : KeepsDirty p cacheSets cacheSets') (h' : KeepsDirty p cacheSets' cacheSets'') :
    KeepsDirty p cacheSets cacheSets'' :=
  ⟨h'.filed, fun addr => (h'.dirtyAt addr).trans (h.dirtyAt addr)⟩

theorem exists_storeOf {req : Request} {addr : Int} :
    (∃ a ∈ storeOf req, p.align a = p.align addr) ↔
      p.align req.addr = p.align addr ∧ decide (req.type = .Write) = true := by
  unfold storeOf
  by_cases hwrite : req.type = .Write
  · simp [hwrite]
  · simp [hwrite]

theorem storeOf_missRequest (req : Request) : storeOf (missRequest req) = none := by
  by_cases h : req.type = .Write
  · simp [storeOf, missRequest, h]
  · simp [storeOf, missRequest, h]

theorem writtenBack_cons (due : Int) (req : Request) (misses : List (Int × Request)) :
    writtenBack ((due, req) :: misses) = (storeOf req).toList ++ writtenBack misses := by
  cases h : storeOf req with
  | none => exact List.filterMap_cons_none h
  | some addr => exact List.filterMap_cons_some h

theorem updateLine_cases {cacheSets cacheSets' : Int → List Line} {it : LineIt} {f : Line → Line}
    (h : updateLine cacheSets it f = .ok cacheSets') :
    ∃ line ∈ cacheSets it.index, line.node = it.node ∧
      cacheSets' = Function.update cacheSets it.index
        ((cacheSets it.index).map fun l => if l.node = line.node then f l else l) := by
  unfold updateLine at h
  split at h
  · next hany =>
      obtain ⟨line, hline, hnode⟩ := List.any_eq_true.mp hany
      have hnode : line.node = it.node := of_decide_eq_true hnode
      exact ⟨line, hline, hnode, by rw [hnode]; exact (Except.ok.inj h).symm⟩
  · cases h

theorem filed_map {set : List Line} {index : Int} {node : Nat} {f : Line → Line}
    (haddr : ∀ l, (f l).addr = l.addr) (htag : ∀ l, (f l).tag = l.tag)
    (h : ∀ l ∈ set, p.getIndex l.addr = index ∧ p.getTag l.addr = l.tag) :
    ∀ l ∈ set.map fun l => if l.node = node then f l else l,
      p.getIndex l.addr = index ∧ p.getTag l.addr = l.tag := by
  intro l' hl'
  obtain ⟨l, hl, rfl⟩ := List.mem_map.mp hl'
  split
  · rw [haddr, htag]
    exact h l hl
  · exact h l hl

theorem receive_writesBack (hwf : WellFormed p llc) (hp : p.PowersOfTwo)
    (hfiled : Filed p llc.cacheSets) {req : Request} (h : llc.receive p req = .ok llc') :
    WritesBack p llc llc' none none := by
  unfold receive at h
  split at h
  · obtain rfl := Except.ok.inj h
    exact .refl hfiled
  · next m hm =>
      obtain ⟨cacheSets, hupdate, rfl⟩ := Excepts.map_eq_ok.mp h
      obtain ⟨line, hline, -, rfl⟩ := updateLine_cases hupdate
      have hfile := hfiled _ line hline
      refine .quiet (hfiled.update (filed_map ?_ ?_ (hfiled _))) rfl fun addr => ?_
      · exact fun _ => rfl
      · exact fun _ => rfl
      have hset : ∀ tag, Dirty ((llc.cacheSets m.2.index).map fun l =>
            if l.node = line.node then { l with ready := true } else l) tag ↔
          Dirty (llc.cacheSets m.2.index) tag ∨ (p.getTag line.addr = tag ∧ false = true) := by
        intro tag
        rw [hfile.2]
        exact dirty_map (hwf.sets _) hline (fun _ => rfl) (fun _ => rfl)
      rw [or_exists_none, dirtyAt_store hp hfile.1 hset]
      exact or_iff_left fun h => Bool.false_ne_true h.2

/-- A hit: the line is pushed anew and is dirty if it was or if the request stores. -/
theorem sendHit_writesBack (hwf : WellFormed p llc) (hp : p.PowersOfTwo)
    (hfiled : Filed p llc.cacheSets) {req : Request} {line : Line}
    (hline : checkSetHit p (llc.cacheSets (p.getIndex req.addr)) req.addr = some line) :
    WritesBack p llc (llc.sendHit p req line) (storeOf req) none := by
  obtain ⟨hmem, htag, -⟩ := checkSetHit_eq_some hline
  have hset := hwf.sets (p.getIndex req.addr)
  have hcommute : ∀ l, eraseLine (llc.cacheSets (p.getIndex req.addr) ++ [l]) line.node =
      eraseLine (llc.cacheSets (p.getIndex req.addr)) line.node ++ [l] := fun l =>
    List.eraseP_append_left (p := fun l : Line => decide (l.node = line.node))
      (decide_eq_true rfl) _ hmem
  have hsets : (llc.sendHit p req line).cacheSets = Function.update llc.cacheSets
      (p.getIndex req.addr) (eraseLine (llc.cacheSets (p.getIndex req.addr)) line.node ++
        [{ addr := req.addr, tag := p.getTag req.addr,
           dirty := line.dirty || decide (req.type = .Write), ready := true,
           node := llc.nextNode }]) := by
    unfold sendHit pushLine
    dsimp only
    rw [Function.update_self, Function.update_idem, hcommute]
  refine .quiet ?_ rfl fun addr => ?_
  · rw [hsets]
    refine hfiled.update fun l hl => ?_
    rcases List.mem_append.mp hl with hl | hl
    · exact hfiled _ l ((eraseLine_sublist _ _).subset hl)
    · rw [List.mem_singleton.mp hl]
      exact ⟨rfl, rfl⟩
  · rw [hsets, exists_storeOf]
    refine dirtyAt_store hp rfl (fun tag => ?_) addr
    rw [dirty_append, dirty_erase hset hmem, ← htag]
    by_cases heq : line.tag = tag
    · subst heq
      rw [dirty_tag hset hmem]
      simp
    · simp [heq]

theorem sendMshrHit_writesBack (hwf : WellFormed p llc) (hp : p.PowersOfTwo)
    (hfiled : Filed p llc.cacheSets) {req : Request} {m : Int × LineIt}
    (hm : llc.checkMshrHit p req.addr = some m) (h : llc.sendMshrHit req m = .ok llc') :
    WritesBack p llc llc' (storeOf req) none := by
  obtain ⟨cacheSets, hupdate, rfl⟩ := Excepts.map_eq_ok.mp h
  obtain ⟨line, hline, hnode, rfl⟩ := updateLine_cases hupdate
  obtain ⟨hindex, l, hl, hnode', -, htag⟩ := hwf.mshr m (List.mem_of_find?_eq_some hm)
  obtain rfl := (hwf.sets _).eq_of_node hl hline (hnode'.trans hnode.symm)
  have halign : p.align m.1 = p.align req.addr := of_decide_eq_true (List.find?_some hm :)
  obtain ⟨hsame, htags⟩ := (LLCParams.align_eq_iff hp).mp halign
  refine .quiet (hfiled.update (filed_map ?_ ?_ (hfiled _))) rfl fun addr => ?_
  · exact fun _ => rfl
  · exact fun _ => rfl
  rw [exists_storeOf]
  refine dirtyAt_store hp (hsame.symm.trans hindex.symm) (fun tag => ?_) addr
  rw [← htags, ← htag]
  exact dirty_map (hwf.sets _) hl (fun _ => rfl) (fun _ => rfl)

theorem makeRoom_writesBack (hwf : WellFormed p llc) (hp : p.PowersOfTwo)
    (hfiled : Filed p llc.cacheSets) (index : Int) :
    ∃ victim, WritesBack p llc (makeRoom p llc index) none victim := by
  unfold makeRoom
  split
  · exact ⟨none, .refl hfiled⟩
  · split
    · exact ⟨none, .refl hfiled⟩
    · next victim hvictim =>
        have hmem := List.mem_of_find?_eq_some hvictim
        obtain ⟨hindex, htag⟩ := hfiled index victim hmem
        have hset := hwf.sets index
        have hfiled' : Filed p (llc.evictLine p index victim).cacheSets :=
          hfiled.update fun l hl => hfiled _ l ((eraseLine_sublist _ _).subset hl)
        have hleaves : ∀ addr, DirtyAt p (llc.evictLine p index victim).cacheSets addr ↔
            DirtyAt p llc.cacheSets addr ∧ p.align victim.addr ≠ p.align addr :=
          dirtyAt_evict hp hindex fun tag => by rw [htag]; exact dirty_erase hset hmem
        have hvictim' : DirtyAt p llc.cacheSets victim.addr ↔ victim.dirty = true := by
          unfold DirtyAt
          rw [hindex, htag]
          exact dirty_tag hset hmem
        cases hdirty : victim.dirty with
        | true =>
            refine ⟨some victim.addr, hfiled', ⟨[(llc.clk + p.latency,
              { addr := victim.addr, type := .Write })], if_pos hdirty, rfl⟩, ?_, fun addr => ?_⟩
            · intro v hv
              obtain rfl := Option.some.inj hv
              exact hvictim'.mpr hdirty
            · rw [hleaves, or_exists_none]
              simp
        | false =>
            have hmisses : (llc.evictLine p index victim).missList = llc.missList :=
              if_neg (by rw [hdirty]; exact Bool.false_ne_true)
            refine ⟨none, .quiet hfiled' hmisses fun addr => ?_⟩
            rw [hleaves, or_exists_none]
            refine and_iff_left_of_imp fun haddr heq => ?_
            have hclean : DirtyAt p llc.cacheSets victim.addr := by
              obtain ⟨hindex', htag'⟩ := (LLCParams.align_eq_iff hp).mp heq
              unfold DirtyAt at haddr ⊢
              rwa [hindex', htag']
            rw [hvictim', hdirty] at hclean
            cases hclean

/-- A miss that allocates: the new line is dirty where the request stores. -/
theorem sendAllocate_writesBack (hwf : WellFormed p llc) (hp : p.PowersOfTwo)
    (hfiled : Filed p llc.cacheSets) {req : Request}
    (habsent : ∀ l ∈ llc.cacheSets (p.getIndex req.addr), l.tag ≠ p.getTag req.addr)
    (havailable : lineAvailable p (llc.cacheSets (p.getIndex req.addr)) = true)
    (h : llc.sendAllocate p req = .ok llc') :
    ∃ victim, WritesBack p llc llc' (storeOf req) victim := by
  obtain ⟨victim, hroom⟩ := makeRoom_writesBack hwf hp hfiled (p.getIndex req.addr)
  have hmade := hwf.makeRoom havailable
  unfold sendAllocate at h
  rw [allocateLine_eq habsent havailable] at h
  generalize makeRoom p llc (p.getIndex req.addr) = room at hmade hroom h
  dsimp only [pushLine] at h
  rw [← hmade.nextNode, updateLine_push (hmade.wellFormed.sets _) rfl] at h
  obtain rfl := Except.ok.inj h
  refine ⟨victim, ?_, ?_, hroom.wasDirty, fun addr => ?_⟩
  · refine hroom.filed.update fun l hl => ?_
    rcases List.mem_append.mp hl with hl | hl
    · exact hroom.filed _ l hl
    · rw [List.mem_singleton.mp hl]
      exact ⟨rfl, rfl⟩
  · obtain ⟨rest, hrest, hback⟩ := hroom.misses
    refine ⟨rest ++ [(room.clk + p.latency, missRequest req)], ?_, ?_⟩
    · dsimp only
      rw [hrest, List.append_assoc]
    · have hread : writtenBack [(room.clk + p.latency, missRequest req)] = [] :=
        List.filterMap_cons_none (storeOf_missRequest req)
      rw [writtenBack_append, hback, hread, List.append_nil]
  · rw [exists_storeOf]
    refine (dirtyAt_store hp rfl (fun tag => dirty_append) addr).trans (or_congr_left ?_)
    rw [hroom.dirtyAt, or_exists_none]

theorem send_writesBack (hwf : WellFormed p llc) (hp : p.PowersOfTwo)
    (hfiled : Filed p llc.cacheSets) {req : Request} {accepted : Bool}
    (h : llc.send p req = .ok (llc', accepted)) :
    ∃ victim, WritesBack p llc llc' (if accepted then storeOf req else none) victim := by
  unfold send at h
  dsimp only at h
  split at h
  · next line hline =>
      obtain ⟨rfl, rfl⟩ := Prod.mk.inj (Except.ok.inj h)
      exact ⟨none, sendHit_writesBack hwf hp hfiled hline⟩
  · next hset =>
      split at h
      · next m hm =>
          obtain ⟨llc₁, hsend, heq⟩ := Excepts.map_eq_ok.mp h
          obtain ⟨rfl, rfl⟩ := Prod.mk.inj heq
          exact ⟨none, sendMshrHit_writesBack hwf hp hfiled hm hsend⟩
      · next hmshr =>
          split at h
          · obtain ⟨rfl, rfl⟩ := Prod.mk.inj (Except.ok.inj h)
            exact ⟨none, .refl hfiled⟩
          · split at h
            · obtain ⟨rfl, rfl⟩ := Prod.mk.inj (Except.ok.inj h)
              exact ⟨none, .refl hfiled⟩
            · next hline =>
                obtain ⟨llc₁, hsend, heq⟩ := Excepts.map_eq_ok.mp h
                obtain ⟨rfl, rfl⟩ := Prod.mk.inj heq
                exact sendAllocate_writesBack hwf hp hfiled (hwf.absent hp hset hmshr)
                  (not_not.mp hline) hsend

theorem sendMisses_writtenBack (clk : Int) (answers : List Bool) (misses : List (Int × Request)) :
    (writtenBack misses).Perm ((sendMisses clk answers misses).2.filterMap storeOf ++
      writtenBack (sendMisses clk answers misses).1) := by
  induction misses generalizing answers with
  | nil => exact .refl _
  | cons miss misses ih =>
      obtain ⟨due, req⟩ := miss
      have hkept : ∀ sent kept, (writtenBack misses).Perm (sent ++ writtenBack kept) →
          ((storeOf req).toList ++ writtenBack misses).Perm
            (sent ++ writtenBack ((due, req) :: kept)) := by
        intro sent kept hperm
        rw [writtenBack_cons]
        exact (hperm.append_left _).trans (List.perm_append_comm_assoc _ _ _)
      rw [sendMisses, writtenBack_cons]
      dsimp only
      split
      · split
        · have hsent : ∀ sent : List Request,
              (req :: sent).filterMap storeOf = (storeOf req).toList ++ sent.filterMap storeOf := by
            intro sent
            cases h : storeOf req with
            | none => exact List.filterMap_cons_none h
            | some addr => exact List.filterMap_cons_some h
          dsimp only
          rw [hsent, List.append_assoc]
          exact (ih answers.tail).append_left _
        · exact hkept _ _ (ih answers.tail)
      · exact hkept _ _ (ih answers)

end SimpleO3LLC

/-! ## The set of the dirty lines -/

inductive LineEvent
  | store (addr : Int)
  | writeback (addr : Int)
  deriving DecidableEq

/-- The set of the dirty lines, as a function of their first address: a store adds its line, and
only a line of the set is written back. -/
def LineEvent.track (p : LLCParams) (dirty : Int → Bool) : LineEvent → Option (Int → Bool)
  | .store addr => some (Function.update dirty (p.align addr) true)
  | .writeback addr =>
      if dirty (p.align addr) then some (Function.update dirty (p.align addr) false) else none

def writebacks (events : List LineEvent) : List Int :=
  events.filterMap fun
    | .writeback addr => some addr
    | .store _ => none

open SimpleO3LLC

theorem update_align {p : LLCParams} {dirty : Int → Bool} {target addr : Int} {value : Bool} :
    Function.update dirty (p.align target) value (p.align addr) = true ↔
      (if p.align target = p.align addr then value = true else dirty (p.align addr) = true) := by
  split
  · next heq => rw [heq, Function.update_self]
  · next hne => rw [Function.update_of_ne (Ne.symm hne)]

theorem SimpleO3LLC.WritesBack.track {p : LLCParams} {llc llc' : SimpleO3LLC}
    {stored victim : Option Int} (h : WritesBack p llc llc' stored victim) {dirty : Int → Bool}
    (hdirty : ∀ addr, dirty (p.align addr) = true ↔ DirtyAt p llc.cacheSets addr) :
    ∃ dirty', (victim.toList.map LineEvent.writeback ++
        stored.toList.map LineEvent.store).foldlM (LineEvent.track p) dirty = some dirty' ∧
      ∀ addr, dirty' (p.align addr) = true ↔ DirtyAt p llc'.cacheSets addr := by
  obtain ⟨evicted, hevict, hevicted⟩ : ∃ evicted : Int → Bool,
      (victim.toList.map LineEvent.writeback).foldlM (LineEvent.track p) dirty = some evicted ∧
        ∀ addr, evicted (p.align addr) = true ↔
          DirtyAt p llc.cacheSets addr ∧ ∀ v ∈ victim, p.align v ≠ p.align addr := by
    cases victim with
    | none =>
        exact ⟨dirty, rfl, fun addr => (hdirty addr).trans
          (and_iff_left fun v hv => nomatch hv).symm⟩
    | some v =>
        have hv : dirty (p.align v) = true := (hdirty v).mpr (h.wasDirty v rfl)
        refine ⟨Function.update dirty (p.align v) false, ?_, fun addr => ?_⟩
        · simp [LineEvent.track, hv]
        · rw [update_align, ← hdirty]
          split
          · next heq => simp [heq]
          · next hne => simp [hne]
  cases stored with
  | none =>
      refine ⟨evicted, ?_, fun addr => ?_⟩
      · rw [Option.toList_none, List.map_nil, List.append_nil, hevict]
      · rw [hevicted, h.dirtyAt, or_exists_none]
  | some a =>
      refine ⟨Function.update evicted (p.align a) true, ?_, fun addr => ?_⟩
      · rw [List.foldlM_append, hevict]
        rfl
      · rw [update_align, h.dirtyAt, ← hevicted]
        split
        · next heq => simp [heq]
        · next hne => simp [hne]

namespace SimpleO3

variable {p : LLCParams} {s s' : SimpleO3}

/-- What a call stores, behind the write-backs that it files. -/
def lineEvents (p : LLCParams) (s s' : SimpleO3) : Op → List LineEvent
  | .send req =>
      (writtenBack (s'.llc.missList.drop s.llc.missList.length)).map LineEvent.writeback ++
        ((accepts p s (.send req)).filterMap storeOf).map LineEvent.store
  | .tick _ | .receive _ | .respond _ => []

def handed (s : SimpleO3) : Op → List Int
  | .tick answers => (sendMisses (s.llc.clk + 1) answers s.llc.missList).2.filterMap storeOf
  | .send _ | .receive _ | .respond _ => []

theorem receive_keepsDirty (hs : WellFormed p s.llc) (hp : p.PowersOfTwo)
    (hfiled : Filed p s.llc.cacheSets) {req : Request} (h : s.receive p req = .ok s') :
    KeepsDirty p s.llc.cacheSets s'.llc.cacheSets := by
  unfold receive at h
  split at h
  · cases h
  · next llc hllc =>
      have hback := SimpleO3LLC.receive_writesBack hs hp hfiled hllc
      dsimp only at h
      split at h
      · obtain rfl := Except.ok.inj h
        exact ⟨hback.filed, hback.dirtyAt_iff⟩
      · cases h

theorem completeHit_keepsDirty (hs : WellFormed p s.llc) (hp : p.PowersOfTwo)
    (hfiled : Filed p s.llc.cacheSets) {req : Request} (h : s.completeHit p req = .ok s') :
    KeepsDirty p s.llc.cacheSets s'.llc.cacheSets := by
  unfold completeHit at h
  split at h
  · cases h
  · exact receive_keepsDirty (s := { s with
      llc := { s.llc with receiveRequests := s.llc.receiveRequests.put req.addr [req] } })
      hs hp hfiled h

theorem tick_keepsDirty (hs : WellFormed p s.llc) (hp : p.PowersOfTwo)
    (hfiled : Filed p s.llc.cacheSets) {answers : List Bool} (h : s.tick p answers = .ok s') :
    KeepsDirty p s.llc.cacheSets s'.llc.cacheSets ∧
      s'.llc.missList = (sendMisses (s.llc.clk + 1) answers s.llc.missList).1 := by
  obtain ⟨t, hitList, hhits, rfl⟩ := tick_cases h
  have ht : WellFormed p t.llc ∧ KeepsDirty p s.llc.cacheSets t.llc.cacheSets ∧
      t.llc.missList = (sendMisses (s.llc.clk + 1) answers s.llc.missList).1 := by
    refine completeHits_induction (s := s.tickMisses answers)
      (I := fun t => WellFormed p t.llc ∧ KeepsDirty p s.llc.cacheSets t.llc.cacheSets ∧
        t.llc.missList = (sendMisses (s.llc.clk + 1) answers s.llc.missList).1)
      ?_ ⟨hs, .refl hfiled, rfl⟩ hhits
    rintro t t' due req - - ⟨ht, hdirty, hmisses⟩ hhit
    obtain ⟨ht', -, -, -, hmiss, -, -⟩ := completeHit_cases ht hhit
    have hdirty' := completeHit_keepsDirty ht hp hdirty.filed hhit
    exact ⟨ht', hdirty.trans hdirty', hmiss.trans hmisses⟩
  exact ht.2

/-- The set of the dirty lines follows a call, and the write-backs that it files are those that
are new on the list of misses or handed to the memory. -/
theorem step_writesBack (hs : WellFormed p s.llc) (hp : p.PowersOfTwo)
    (hfiled : Filed p s.llc.cacheSets) {op : Op} (h : s.step p op = .ok s') {dirty : Int → Bool}
    (hdirty : ∀ addr, dirty (p.align addr) = true ↔ DirtyAt p s.llc.cacheSets addr) :
    Filed p s'.llc.cacheSets ∧
      (∃ dirty', (lineEvents p s s' op).foldlM (LineEvent.track p) dirty = some dirty' ∧
        ∀ addr, dirty' (p.align addr) = true ↔ DirtyAt p s'.llc.cacheSets addr) ∧
      (writebacks (lineEvents p s s' op) ++ writtenBack s.llc.missList).Perm
        (s.handed op ++ writtenBack s'.llc.missList) := by
  cases op with
  | send req =>
      obtain ⟨llc', accepted, heq, -⟩ := send_cases hs hp req
      obtain ⟨victim, hback⟩ := send_writesBack hs hp hfiled heq
      rw [step, heq] at h
      obtain rfl := Except.ok.inj h
      obtain ⟨rest, hrest, hvictim⟩ := hback.misses
      have hevents : lineEvents p s { s with llc := llc' } (.send req) =
          victim.toList.map LineEvent.writeback ++
            (if accepted then storeOf req else none).toList.map LineEvent.store := by
        have hstored : (accepts p s (.send req)).filterMap storeOf =
            (if accepted then storeOf req else none).toList := by
          rw [accepts, heq]
          cases accepted with
          | false => rfl
          | true => cases hreq : storeOf req <;> simp [hreq]
        rw [lineEvents, hstored]
        dsimp only
        rw [hrest, List.drop_left, hvictim]
      rw [hevents]
      refine ⟨hback.filed, hback.track hdirty, ?_⟩
      have hwritebacks : writebacks (victim.toList.map LineEvent.writeback ++
          (if accepted then storeOf req else none).toList.map LineEvent.store) =
            victim.toList := by
        generalize (if accepted then storeOf req else none) = stored
        cases victim <;> cases stored <;> rfl
      rw [hwritebacks, handed, List.nil_append]
      dsimp only
      rw [hrest, writtenBack_append, hvictim]
      exact List.perm_append_comm
  | tick answers =>
      obtain ⟨hkeeps, hmisses⟩ := tick_keepsDirty hs hp hfiled h
      refine ⟨hkeeps.filed, ⟨dirty, rfl, fun addr => ?_⟩, ?_⟩
      · rw [hkeeps.dirtyAt, hdirty]
      · rw [hmisses]
        exact sendMisses_writtenBack _ answers s.llc.missList
  | receive req =>
      obtain ⟨llc', heq, -, -, -, hmiss, -, -⟩ := SimpleO3LLC.receive_cases hs req
      have hback := SimpleO3LLC.receive_writesBack hs hp hfiled heq
      rw [step, heq] at h
      obtain rfl := Except.ok.inj h
      refine ⟨hback.filed, hback.track hdirty, ?_⟩
      dsimp only
      rw [hmiss]
      exact .refl _
  | respond req =>
      obtain ⟨-, -, -, -, hmiss, -⟩ :=
        receive_cases (s := { s with memory := s.memory.erase req }) hs h
      have hkeeps :=
        receive_keepsDirty (s := { s with memory := s.memory.erase req }) hs hp hfiled h
      refine ⟨hkeeps.filed, ⟨dirty, rfl, fun addr => ?_⟩, ?_⟩
      · rw [hkeeps.dirtyAt, hdirty]
      · rw [hmiss]
        exact .refl _

end SimpleO3

/-! ## Runs -/

/-- The system with its stores and write-backs and with the write-backs handed to the memory. -/
structure Stored where
  system : SimpleO3 := {}
  events : List LineEvent := []
  written : List Int := []

namespace Stored

variable {p : LLCParams} {t : Stored}

open SimpleO3

def step (p : LLCParams) (t : Stored) (op : Op) : Option Stored :=
  (t.system.step p op).toOption.map fun system =>
    { system
      events := t.events ++ lineEvents p t.system system op
      written := t.written ++ t.system.handed op }

abbrev Run (p : LLCParams) : Stored → Prop :=
  Runs.Reachable (Eq {}) (fun t op t' => t.step p op = some t') fun _ _ => True

/-- The set of the dirty lines follows the events, and each write-back is on the list of misses
or with the memory. -/
structure Followed (p : LLCParams) (t : Stored) : Prop where
  wellFormed : WellFormed p t.system.llc
  filed : Filed p t.system.llc.cacheSets
  dirty : ∃ dirty, t.events.foldlM (LineEvent.track p) (fun _ => false) = some dirty ∧
    ∀ addr, dirty (p.align addr) = true ↔ DirtyAt p t.system.llc.cacheSets addr
  written : (writebacks t.events).Perm (t.written ++ writtenBack t.system.llc.missList)

theorem init_followed (p : LLCParams) : Followed p {} := by
  refine ⟨init_wellFormed p, fun _ _ hl => (nomatch hl), ⟨fun _ => false, rfl, fun addr => ?_⟩,
    .refl _⟩
  exact iff_of_false Bool.false_ne_true fun ⟨_, hl, _⟩ => nomatch hl

theorem Followed.step (hp : p.PowersOfTwo) (h : Followed p t) {op : Op} {t' : Stored}
    (hstep : t.step p op = some t') : Followed p t' := by
  obtain ⟨s', hs', rfl⟩ := Option.map_eq_some_iff.mp hstep
  have hstep' := toOption_eq_some.mp hs'
  obtain ⟨dirty, htrack, hdirty⟩ := h.dirty
  obtain ⟨hfiled, ⟨dirty', htrack', hdirty'⟩, hperm⟩ :=
    step_writesBack h.wellFormed hp h.filed hstep' hdirty
  refine ⟨step_wellFormed hp h.wellFormed hstep', hfiled, ⟨dirty', ?_, hdirty'⟩, ?_⟩
  · rw [List.foldlM_append, htrack]
    exact htrack'
  · dsimp only
    rw [writebacks, List.filterMap_append, List.append_assoc]
    calc List.Perm (writebacks t.events ++ writebacks (lineEvents p t.system s' op))
          (writebacks (lineEvents p t.system s' op) ++
            (t.written ++ writtenBack t.system.llc.missList)) :=
          List.perm_append_comm.trans (h.written.append_left _)
      List.Perm _ (t.written ++
          (writebacks (lineEvents p t.system s' op) ++ writtenBack t.system.llc.missList)) :=
          List.perm_append_comm_assoc _ _ _
      List.Perm _ (t.written ++ (t.system.handed op ++ writtenBack s'.llc.missList)) :=
          hperm.append_left _

/-- In every run the set of the dirty lines follows the stores and the write-backs: only a dirty
line is written back, and a line is dirty from an accepted store until its write-back.  Every
write-back goes to the memory once, or still waits on the list of misses. -/
theorem llc_writebacks (hp : p.PowersOfTwo) (h : Run p t) :
    (∃ dirty, t.events.foldlM (LineEvent.track p) (fun _ => false) = some dirty ∧
      ∀ addr, dirty (p.align addr) = true ↔ DirtyAt p t.system.llc.cacheSets addr) ∧
    (writebacks t.events).Perm (t.written ++ writtenBack t.system.llc.missList) := by
  have hrun : Followed p t := by
    refine h.invariant (I := Followed p) ?_ ?_
    · rintro t rfl
      exact init_followed p
    · exact fun t op t' ht _ hstep => ht.step hp hstep
  exact ⟨hrun.dirty, hrun.written⟩

/-- A line is stored to, and a read of the third line of its set evicts it. -/
def evicted : List Op :=
  [.send { read 0 0 with type := .Write }, .send (read 0 64), .tick [true, true],
    .respond (read 0 0), .respond (read 0 64), .send (read 0 128), .tick [true, true]]

theorem llc_writebacks_evicted :
    ∃ t, Run small t ∧ t.written = [0] ∧
      t.events.foldlM (LineEvent.track small) (fun _ => false) ≠ none := by
  have hrun : ((Runs.replay (step small) (fun _ _ => true) {} evicted).any fun t =>
      decide (t.written = [0])) = true := by decide +kernel
  obtain ⟨t, ht, htest⟩ := Option.any_eq_true _ _ |>.mp hrun
  have hreached : Run small t :=
    Runs.replay_reachable (fun _ _ _ => trivial) (.start rfl) ht
  obtain ⟨⟨dirty, htrack, -⟩, -⟩ := llc_writebacks small_powersOfTwo hreached
  exact ⟨t, hreached, of_decide_eq_true htest, by rw [htrack]; exact Option.some_ne_none _⟩

end Stored

end AimSimulator.Processor
