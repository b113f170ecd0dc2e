import Mathlib.Data.List.InsertIdx
import AimSimulator.Controller.GenericDevice
/-!
# The AiM controller on conventional requests

Given reads, writes and refreshes only, the AiM controller does what the generic controller
does.  `toGeneric` forgets what the generic controller does not have: the issue stamps, the
pending writes, the AiM buffer, the register mode and the statistics.
-/

namespace AimSimulator.Controller

open Dram

/-! ## What is forgotten -/

section Plain

variable {Cmd : Type}

def Queued.plain (q : Queued Cmd) : Queued Cmd := { q with issue := -1 }

def ReqBuffer.plain (b : ReqBuffer Cmd) : ReqBuffer Cmd :=
  { b with buffer := b.buffer.map Queued.plain }

def Queues.plain (c : Queues Cmd) : Queues Cmd where
  clk := c.clk
  pendingReads := c.pendingReads.map Queued.plain
  activeBuffer := c.activeBuffer.plain
  priorityBuffer := c.priorityBuffer.plain
  readBuffer := c.readBuffer.plain
  writeBuffer := c.writeBuffer.plain
  nextSeq := c.nextSeq

def AiMDRAMController.toGeneric (c : AiMDRAMController Cmd) : GenericDRAMController Cmd where
  toQueues := c.toQueues.plain
  isWriteMode := c.isWriteMode
  refresh := c.refresh

def Scheduled.plain (s : Scheduled Cmd) : Scheduled Cmd := { s with req := s.req.plain }

@[simp] theorem ReqBuffer.plain_size (b : ReqBuffer Cmd) : b.plain.size = b.size :=
  List.length_map _

@[simp] theorem ReqBuffer.plain_maxSize (b : ReqBuffer Cmd) : b.plain.maxSize = b.maxSize := rfl

theorem ReqBuffer.plain_enqueue (b : ReqBuffer Cmd) (q : Queued Cmd) :
    b.plain.enqueue q.plain = (b.enqueue q).map ReqBuffer.plain := by
  unfold enqueue
  rw [plain_size, plain_maxSize]
  split
  · simp [plain]
  · rfl

theorem ReqBuffer.plain_enqueue_getD (b : ReqBuffer Cmd) (q : Queued Cmd) :
    (b.plain.enqueue q.plain).getD b.plain = ((b.enqueue q).getD b).plain := by
  rw [plain_enqueue]
  cases b.enqueue q <;> rfl

theorem ReqBuffer.plain_remove (b : ReqBuffer Cmd) (i : Nat) :
    (b.remove i).plain = b.plain.remove i := by
  unfold plain remove
  rw [List.eraseIdx_map]

theorem ReqBuffer.plain_set {b : ReqBuffer Cmd} {i : Nat} {q q' : Queued Cmd}
    (hget : b.buffer[i]? = some q) (hsame : q'.plain = q.plain) : (b.set i q').plain = b.plain := by
  unfold plain set
  rw [List.map_set, hsame]
  congr 1
  refine List.ext_getElem? fun j => ?_
  rw [List.getElem?_set]
  split
  · next heq =>
      subst heq
      obtain ⟨hlt, hget⟩ := List.getElem?_eq_some_iff.mp hget
      rw [List.length_map, if_pos hlt, List.getElem?_map, List.getElem?_eq_getElem hlt, hget]
      rfl
  · rfl

namespace Queues

variable {id : BufferId} (hid : id ≠ .aim) (c : Queues Cmd)

include hid

theorem plain_bufferOf : c.plain.bufferOf id = (c.bufferOf id).plain := by
  cases id <;> first | rfl | exact absurd rfl hid

theorem plain_setBuffer (b : ReqBuffer Cmd) :
    (c.setBuffer id b).plain = c.plain.setBuffer id b.plain := by
  cases id <;> first | rfl | exact absurd rfl hid

theorem plain_removeAt (i : Nat) : (c.removeAt id i).plain = c.plain.removeAt id i := by
  unfold removeAt
  rw [plain_setBuffer hid, ReqBuffer.plain_remove, plain_bufferOf hid]

end Queues

end Plain

/-! ## Conventional requests -/

variable {Dev Cmd : Type} (iface : IDRAM Dev Cmd) (params : GenericParams)

/-- A request that the generic controller knows: no AiM request and no barrier. -/
def IsPlain (req : Request) : Prop := req.type ≠ .AIM ∧ req.opcode.isBarrier = false

instance (req : Request) : Decidable (IsPlain req) :=
  inferInstanceAs (Decidable (_ ∧ _))

/-- A request with its final command; a read departs after the read latency of the device. -/
def PlainRequest (req : Request) (final : Cmd) : Prop :=
  IsPlain req ∧ (req.type = .Read → iface.commandLatencies final = params.readLatency)

structure Conventional (c : AiMDRAMController Cmd) : Prop where
  registers : c.isRegRWMode = false
  noAiM : c.aimBuffer.buffer = []
  plain : c.toGeneric.toQueues.Hold (PlainRequest iface params)

variable {iface params} {c c' : AiMDRAMController Cmd} {dev dev' : Dev}

/-! ## What conventional requests leave alone -/

/-- Two controllers with the same register mode and AiM buffer. -/
structure SameAiM (c c' : AiMDRAMController Cmd) : Prop where
  isRegRWMode : c'.isRegRWMode = c.isRegRWMode
  aimBuffer : c'.aimBuffer = c.aimBuffer

namespace SameAiM

theorem refl (c : AiMDRAMController Cmd) : SameAiM c c := ⟨rfl, rfl⟩

theorem trans {c₁ c₂ c₃ : AiMDRAMController Cmd} (h : SameAiM c₁ c₂) (h' : SameAiM c₂ c₃) :
    SameAiM c₁ c₃ :=
  ⟨h'.isRegRWMode.trans h.isRegRWMode, h'.aimBuffer.trans h.aimBuffer⟩

theorem enqueueTo {id : BufferId} {q : Queued Cmd} {ok : Bool} {events : List (Event Cmd)}
    (h : c.enqueueTo id q = (ok, c', events)) (hid : id ≠ .aim) : SameAiM c c' := by
  unfold AiMDRAMController.enqueueTo at h
  split at h <;> obtain ⟨-, rfl, -⟩ := h
  · cases id <;> first | exact ⟨rfl, rfl⟩ | exact absurd rfl hid
  · exact refl c

theorem send {req : Request} {ok : Bool} {events : List (Event Cmd)}
    (h : c.send iface req = some (ok, c', events)) (hreq : req.type ≠ .AIM) : SameAiM c c' := by
  unfold AiMDRAMController.send at h
  rw [if_neg hreq] at h
  split at h
  · obtain ⟨-, rfl, -⟩ := Option.some.inj h
    exact refl c
  · obtain ⟨final, -, h⟩ := Option.bind_eq_some_iff.mp h
    split at h
    · split at h
      · obtain ⟨-, rfl, -⟩ := Option.some.inj h
        exact ⟨rfl, rfl⟩
      · exact enqueueTo (Option.some.inj h) (by decide)
    · exact enqueueTo (Option.some.inj h) (by decide)
    · cases h

theorem prioritySend {req : Request} {ok : Bool} {events : List (Event Cmd)}
    (h : c.prioritySend iface req = some (ok, c', events)) : SameAiM c c' := by
  obtain ⟨final, -, henqueue⟩ := Option.map_eq_some_iff.mp h
  exact enqueueTo henqueue (by decide)

theorem pluginSends {plugins : List Request} {events : List (Event Cmd)}
    (h : c.pluginSends iface plugins = some (c', events)) : SameAiM c c' := by
  induction plugins generalizing c events with
  | nil =>
      obtain ⟨rfl, -⟩ := Option.some.inj h
      exact refl _
  | cons req reqs ih =>
      obtain ⟨⟨ok, c₁, events₁⟩, hfirst, h⟩ := Option.bind_eq_some_iff.mp h
      obtain ⟨⟨c₂, events₂⟩, hrest, heq⟩ := Option.map_eq_some_iff.mp h
      obtain ⟨rfl, -⟩ := Prod.mk.inj heq
      exact (prioritySend hfirst).trans (ih hrest)

theorem sendRefreshes {params : Params} {ranks : List Nat} {events : List (Event Cmd)}
    (h : c.sendRefreshes iface params ranks = some (c', events)) : SameAiM c c' := by
  induction ranks generalizing c events with
  | nil =>
      obtain ⟨rfl, -⟩ := Option.some.inj h
      exact refl _
  | cons rank ranks ih =>
      obtain ⟨⟨ok, c₁, events₁⟩, hfirst, h⟩ := Option.bind_eq_some_iff.mp h
      dsimp only at h
      split at h
      · obtain ⟨⟨c₂, events₂⟩, hrest, heq⟩ := Option.map_eq_some_iff.mp h
        obtain ⟨rfl, -⟩ := Prod.mk.inj heq
        exact (prioritySend hfirst).trans (ih hrest)
      · cases h

theorem refreshTick {params : Params} {events : List (Event Cmd)}
    (h : c.refreshTick iface params = some (c', events)) : SameAiM c c' := by
  unfold AiMDRAMController.refreshTick at h
  split at h
  · have hsent := sendRefreshes h
    exact ⟨hsent.isRegRWMode, hsent.aimBuffer⟩
  · obtain ⟨rfl, -⟩ := Option.some.inj h
    exact ⟨rfl, rfl⟩

theorem prepare {params : Params} {events : List (Event Cmd)}
    (h : c.prepare iface params = some (c', events)) : SameAiM c c' := by
  obtain ⟨⟨c₂, refreshed⟩, hrefreshed, heq⟩ := Option.map_eq_some_iff.mp h
  obtain ⟨rfl, -⟩ := Prod.mk.inj heq
  have hserved : SameAiM c { c with clk := c.clk + 1 }.serveCompletedReqs.1 := by
    unfold AiMDRAMController.serveCompletedReqs AiMDRAMController.serveReads
    dsimp only
    split
    · split <;> exact ⟨rfl, rfl⟩
    · exact ⟨rfl, rfl⟩
  exact hserved.trans (refreshTick hrefreshed)

variable (iface) in
theorem scheduleRequest (params : Params) (c : AiMDRAMController Cmd) (dev : Dev) :
    SameAiM c (c.scheduleRequest iface params dev).1 := by
  unfold AiMDRAMController.scheduleRequest
  split
  · exact refl c
  · split
    · exact refl c
    · split
      · split <;> exact refl c
      · unfold AiMDRAMController.setWriteMode
        dsimp only
        split <;> split <;> exact ⟨rfl, rfl⟩

end SameAiM

/-! ## Accepting requests -/

theorem toGeneric_enqueueTo (id : BufferId) (hid : id ≠ .aim) (c : AiMDRAMController Cmd)
    (q : Queued Cmd) :
    ((c.enqueueTo id q).1, (c.enqueueTo id q).2.1.toGeneric) =
      c.toGeneric.enqueueTo id q.plain := by
  have hbuffer : c.toGeneric.bufferOf id = (c.bufferOf id).plain := c.toQueues.plain_bufferOf hid
  unfold AiMDRAMController.enqueueTo GenericDRAMController.enqueueTo
  rw [hbuffer, ReqBuffer.plain_enqueue]
  cases (c.bufferOf id).enqueue q with
  | none => rfl
  | some b =>
      cases id <;> first | rfl | exact absurd rfl hid

theorem toGeneric_send (h : Conventional iface params c) {req : Request}
    (hreq : IsPlain req) :
    (c.send iface req).map (fun r => (r.1, r.2.1.toGeneric)) = c.toGeneric.send iface req := by
  have hsize : c.aimBuffer.size = 0 := congrArg List.length h.noAiM
  unfold AiMDRAMController.send GenericDRAMController.send
  rw [if_neg hreq.1, if_neg (not_not_intro hsize)]
  cases iface.requestTranslations req.type with
  | none => rfl
  | some final =>
      have hforward : (c.toGeneric.writeBuffer.buffer.any fun wreq => wreq.req.addr = req.addr) =
          c.writeBuffer.buffer.any fun wreq => wreq.req.addr = req.addr := by
        show (c.writeBuffer.buffer.map Queued.plain).any _ = _
        rw [List.any_map]
        rfl
      rw [Option.bind_some, Option.bind_some]
      cases htype : req.type with
      | Read =>
          dsimp only
          rw [hforward]
          split
          · simp [AiMDRAMController.toGeneric, Queues.plain, Queued.plain]
          · exact congrArg some (toGeneric_enqueueTo .read (by decide) c _)
      | Write => exact congrArg some (toGeneric_enqueueTo .write (by decide) c _)
      | _ => rfl

variable (iface) in
theorem toGeneric_prioritySend (c : AiMDRAMController Cmd) {req : Request}
    (hreq : IsPlain req) :
    (c.prioritySend iface req).map (fun r => (r.1, r.2.1.toGeneric)) =
      c.toGeneric.prioritySend iface req := by
  unfold AiMDRAMController.prioritySend GenericDRAMController.prioritySend
  rw [if_neg hreq.1]
  cases iface.requestTranslations req.type with
  | none => rfl
  | some final => exact congrArg some (toGeneric_enqueueTo .priority (by decide) c _)

theorem toGeneric_pluginSends (c : AiMDRAMController Cmd) {plugins : List Request}
    (hplugins : ∀ req ∈ plugins, IsPlain req) :
    (c.pluginSends iface plugins).map (fun r => r.1.toGeneric) =
      c.toGeneric.pluginSends iface plugins := by
  induction plugins generalizing c with
  | nil => rfl
  | cons req reqs ih =>
      obtain ⟨hreq, hreqs⟩ := List.forall_mem_cons.mp hplugins
      unfold AiMDRAMController.pluginSends GenericDRAMController.pluginSends
      rw [← toGeneric_prioritySend iface c hreq]
      cases c.prioritySend iface req with
      | none => rfl
      | some r =>
          obtain ⟨ok, c₁, events⟩ := r
          dsimp only [Option.bind_some, Option.map_some]
          rw [← ih c₁ hreqs]
          cases c₁.pluginSends iface reqs <;> rfl

/-! ## Before scheduling -/

def completed (log : List (Event Cmd)) : List (Queued Cmd) :=
  log.filterMap fun
    | .complete q => some q
    | _ => none

@[simp] theorem completed_append (log log' : List (Event Cmd)) :
    completed (log ++ log') = completed log ++ completed log' := List.filterMap_append

theorem completed_prioritySend {req : Request} {ok : Bool} {events : List (Event Cmd)}
    (h : c.prioritySend iface req = some (ok, c', events)) : completed events = [] := by
  obtain ⟨final, -, henqueue⟩ := Option.map_eq_some_iff.mp h
  unfold AiMDRAMController.enqueueTo at henqueue
  split at henqueue <;> obtain ⟨-, -, rfl⟩ := henqueue <;> rfl

theorem completed_send {req : Request} {ok : Bool} {events : List (Event Cmd)}
    (h : c.send iface req = some (ok, c', events)) (hreq : req.type ≠ .AIM) :
    completed events = [] := by
  have hqueue : ∀ {id q c' events}, c.enqueueTo id q = (ok, c', events) →
      completed events = [] := by
    intro id q c' events h
    unfold AiMDRAMController.enqueueTo at h
    split at h <;> obtain ⟨-, -, rfl⟩ := h <;> rfl
  unfold AiMDRAMController.send at h
  rw [if_neg hreq] at h
  split at h
  · obtain ⟨-, -, rfl⟩ := Option.some.inj h
    rfl
  · obtain ⟨final, -, h⟩ := Option.bind_eq_some_iff.mp h
    split at h
    · split at h
      · obtain ⟨-, -, rfl⟩ := Option.some.inj h
        rfl
      · exact hqueue (Option.some.inj h)
    · exact hqueue (Option.some.inj h)
    · cases h

theorem completed_pluginSends {plugins : List Request} {events : List (Event Cmd)}
    (h : c.pluginSends iface plugins = some (c', events)) : completed events = [] := by
  induction plugins generalizing c events with
  | nil =>
      obtain ⟨-, rfl⟩ := Option.some.inj h
      rfl
  | cons req reqs ih =>
      obtain ⟨⟨ok, c₁, events₁⟩, hfirst, h⟩ := Option.bind_eq_some_iff.mp h
      obtain ⟨⟨c₂, events₂⟩, hrest, heq⟩ := Option.map_eq_some_iff.mp h
      obtain ⟨rfl, rfl⟩ := Prod.mk.inj heq
      rw [completed_append, completed_prioritySend hfirst, ih hrest, List.nil_append]

theorem completed_refreshTick {params : Params} {events : List (Event Cmd)}
    (h : c.refreshTick iface params = some (c', events)) : completed events = [] := by
  have hsent : ∀ {ranks : List Nat} {c c' : AiMDRAMController Cmd} {events : List (Event Cmd)},
      c.sendRefreshes iface params ranks = some (c', events) → completed events = [] := by
    intro ranks
    induction ranks with
    | nil =>
        intro c c' events h
        obtain ⟨-, rfl⟩ := Option.some.inj h
        rfl
    | cons rank ranks ih =>
        intro c c' events h
        obtain ⟨⟨ok, c₁, events₁⟩, hfirst, h⟩ := Option.bind_eq_some_iff.mp h
        dsimp only at h
        split at h
        · obtain ⟨⟨c₂, events₂⟩, hrest, heq⟩ := Option.map_eq_some_iff.mp h
          obtain ⟨-, rfl⟩ := Prod.mk.inj heq
          rw [completed_append, completed_prioritySend hfirst, ih hrest, List.nil_append]
        · cases h
  unfold AiMDRAMController.refreshTick at h
  split at h
  · exact hsent h
  · obtain ⟨-, rfl⟩ := Option.some.inj h
    rfl

theorem prioritySend_refresh (g : GenericDRAMController Cmd) (manager : AllBankRefresh)
    (req : Request) :
    ({ g with refresh := manager } : GenericDRAMController Cmd).prioritySend iface req =
      (g.prioritySend iface req).map fun r => (r.1, { r.2 with refresh := manager }) := by
  unfold GenericDRAMController.prioritySend GenericDRAMController.enqueueTo
  cases iface.requestTranslations req.type with
  | none => rfl
  | some final =>
      dsimp only [Option.map_some]
      split <;> rfl

theorem toGeneric_sendRefreshes {g : GenericDRAMController Cmd} {manager : AllBankRefresh}
    (hc : c.toGeneric = { g with refresh := manager }) (ranks : List Nat) :
    (c.sendRefreshes iface params.toParams ranks).map (fun r => r.1.toGeneric) =
      ((managerSetup iface params.toParams).sendAll (GenericDRAMController.prioritySend iface)
        g ranks).map fun r => { r.1 with refresh := manager } := by
  induction ranks generalizing c g with
  | nil => exact congrArg some hc
  | cons rank ranks ih =>
      have hplain : IsPlain ((managerSetup iface params.toParams).request rank) :=
        ⟨show ReqType.RefAllBank ≠ .AIM by decide, rfl⟩
      have hfirst := toGeneric_prioritySend iface c hplain
      rw [hc, prioritySend_refresh] at hfirst
      unfold AiMDRAMController.sendRefreshes RefreshSetup.sendAll
      cases hg : g.prioritySend iface ((managerSetup iface params.toParams).request rank) with
      | none =>
          rw [hg] at hfirst
          rw [show c.prioritySend iface (AiMDRAMController.refreshRequest iface params.toParams rank)
            = none from Option.map_eq_none_iff.mp hfirst]
          rfl
      | some r =>
          rw [hg] at hfirst
          obtain ⟨⟨ok, c₁, events⟩, hsent, heq⟩ := Option.map_eq_some_iff.mp hfirst
          obtain ⟨rfl, hc₁⟩ := Prod.mk.inj heq
          rw [show c.prioritySend iface (AiMDRAMController.refreshRequest iface params.toParams rank)
            = _ from hsent]
          dsimp only [Option.bind_some]
          split
          · rw [Option.map_map, Option.map_map]
            exact ih hc₁
          · rfl

theorem toGeneric_refreshTick (c : AiMDRAMController Cmd) :
    (c.refreshTick iface params.toParams).map (fun r => r.1.toGeneric) =
      c.toGeneric.refreshTick iface params := by
  unfold AiMDRAMController.refreshTick GenericDRAMController.refreshTick RefreshSetup.tick
  have hmanager : c.toGeneric.refresh = c.refresh := rfl
  rw [hmanager]
  split
  · have hsent := @toGeneric_sendRefreshes _ _ iface params
      { c with refresh := ⟨c.refresh.clk + 1, c.refresh.nextRefreshCycle + iface.nREFI⟩ }
      c.toGeneric _ rfl (List.range iface.numRanks.toNat)
    rw [hsent, Option.map_map]
    rfl
  · rfl

theorem headDone_plain (h : Conventional iface params c) {q : Queued Cmd}
    (hq : q ∈ c.pendingReads) : c.headDone q = decide (q.depart ≤ c.clk) := by
  have hplain : q.plain ∈ c.toGeneric.toQueues.outstanding :=
    Queues.mem_outstanding.mpr (.inl (List.mem_map_of_mem hq))
  have hbarrier : q.req.opcode.isBarrier = false := (h.plain _ hplain).1.2
  rw [AiMDRAMController.headDone, hbarrier, Bool.not_false, Bool.true_or, Bool.and_true]

/-- The completed requests are served alike; pending writes retire unseen. -/
theorem toGeneric_serveCompletedReqs (h : Conventional iface params c) :
    (c.serveCompletedReqs.1.toGeneric, (completed c.serveCompletedReqs.2).map Queued.plain) =
      c.toGeneric.serveCompletedReads := by
  have hretired : ∀ c : AiMDRAMController Cmd, completed c.serveWrites.2 = [] := by
    intro c
    simp [completed, AiMDRAMController.serveWrites]
  have hserved : c.serveReads.1.toGeneric = c.toGeneric.serveCompletedReads.1 ∧
      (completed c.serveReads.2).map Queued.plain = c.toGeneric.serveCompletedReads.2 := by
    unfold AiMDRAMController.serveReads GenericDRAMController.serveCompletedReads
    have hpending : c.toGeneric.pendingReads = c.pendingReads.map Queued.plain := rfl
    rw [hpending]
    split
    · next q rest heq =>
        rw [headDone_plain h (heq ▸ List.mem_cons_self), heq, List.map_cons]
        have hclk : c.toGeneric.clk = c.clk := rfl
        have hdepart : q.plain.depart = q.depart := rfl
        dsimp only
        rw [hclk, hdepart]
        by_cases hdone : q.depart ≤ c.clk
        · rw [if_pos (decide_eq_true hdone), if_pos hdone]
          exact ⟨rfl, rfl⟩
        · rw [if_neg (by simpa using hdone), if_neg hdone]
          exact ⟨rfl, rfl⟩
    · next heq =>
        rw [heq]
        exact ⟨rfl, rfl⟩
  refine Prod.ext hserved.1 ?_
  show (completed (c.serveReads.2 ++ c.serveReads.1.serveWrites.2)).map Queued.plain = _
  rw [completed, List.filterMap_append, ← completed, ← completed, hretired, List.append_nil]
  exact hserved.2

theorem toGeneric_prepare (h : Conventional iface params c) :
    (c.prepare iface params.toParams).map
        (fun r => (r.1.toGeneric, (completed r.2).map Queued.plain)) =
      c.toGeneric.prepare iface params := by
  have hnext : Conventional iface params { c with clk := c.clk + 1 } := ⟨h.registers, h.noAiM, h.plain⟩
  have hserved := toGeneric_serveCompletedReqs hnext
  unfold AiMDRAMController.prepare GenericDRAMController.prepare
  have hclk : ({ c.toGeneric with clk := c.toGeneric.clk + 1 } : GenericDRAMController Cmd) =
    { c with clk := c.clk + 1 }.toGeneric := rfl
  rw [hclk, ← hserved]
  dsimp only
  rw [← toGeneric_refreshTick, Option.map_map, Option.map_map]
  cases hrefreshed : { c with clk := c.clk + 1 }.serveCompletedReqs.1.refreshTick iface
      params.toParams with
  | none => rfl
  | some r =>
      obtain ⟨c₁, refreshed⟩ := r
      simp only [Option.map_some, Function.comp_apply, completed_append,
        completed_refreshTick hrefreshed, List.append_nil]

/-! ## Scheduling -/

theorem toGeneric_getBestRequest (id : BufferId) (b : ReqBuffer Cmd) :
    FRFCFS.getBestRequest iface dev id b.plain =
      (FRFCFS.getBestRequest iface dev id b).map Scheduled.plain := by
  have hcandidates : b.plain.buffer.mapIdx (candidate iface dev id) =
      (b.buffer.mapIdx (candidate iface dev id)).map Scheduled.plain := by
    refine List.ext_getElem? fun i => ?_
    simp only [ReqBuffer.plain, List.getElem?_mapIdx, List.getElem?_map, Option.map_map]
    rfl
  unfold FRFCFS.getBestRequest
  rw [hcandidates]
  cases b.buffer.mapIdx (candidate iface dev id) with
  | nil => rfl
  | cons s ss =>
      have hprefers : ∀ s s' : Scheduled Cmd,
          FRFCFS.prefers iface dev s.plain s'.plain = FRFCFS.prefers iface dev s s' :=
        fun _ _ => rfl
      exact congrArg some (Best.best_map hprefers s ss)

theorem toGeneric_ready (o : Option (Scheduled Cmd)) :
    (o.map Scheduled.plain).filter (Scheduled.ready iface dev) =
      (o.filter (Scheduled.ready iface dev)).map Scheduled.plain := Option.filter_map

theorem toGeneric_unlessClosing (c : AiMDRAMController Cmd) (s : Scheduled Cmd) :
    c.toGeneric.asAiM.unlessClosing iface s.plain =
      (c.unlessClosing iface s).map Scheduled.plain := by
  have hcloses : c.toGeneric.asAiM.closesActive iface s.plain = c.closesActive iface s := by
    unfold AiMDRAMController.closesActive
    have hactive : c.toGeneric.asAiM.activeBuffer.buffer =
        c.activeBuffer.buffer.map Queued.plain := rfl
    rw [hactive, List.any_map]
    rfl
  unfold AiMDRAMController.unlessClosing
  rw [hcloses]
  split <;> rfl

theorem toGeneric_setWriteMode (c : AiMDRAMController Cmd) :
    c.toGeneric.setWriteMode params = (c.setWriteMode params.toParams).toGeneric := by
  have hmode : (c.toGeneric.asAiM.setWriteMode params.toParams).isWriteMode =
      (c.setWriteMode params.toParams).isWriteMode := by
    have hwrites : c.toGeneric.asAiM.writeBuffer.size = c.writeBuffer.size :=
      c.writeBuffer.plain_size
    have hreads : c.toGeneric.asAiM.readBuffer.size = c.readBuffer.size := c.readBuffer.plain_size
    have hmax : c.toGeneric.asAiM.writeBuffer.maxSize = c.writeBuffer.maxSize := rfl
    have hnow : c.toGeneric.asAiM.isWriteMode = c.isWriteMode := rfl
    unfold AiMDRAMController.setWriteMode
    rw [hwrites, hreads, hmax, hnow]
    split <;> split <;> rfl
  have hrest : (c.setWriteMode params.toParams).toGeneric =
      { c.toGeneric with isWriteMode := (c.setWriteMode params.toParams).isWriteMode } := by
    unfold AiMDRAMController.setWriteMode
    split <;> split <;> rfl
  rw [hrest, ← hmode]
  rfl

theorem toGeneric_scheduleRequest (h : Conventional iface params c) :
    c.toGeneric.scheduleRequest iface params dev =
      ((c.scheduleRequest iface params.toParams dev).1.toGeneric,
        (c.scheduleRequest iface params.toParams dev).2.map Scheduled.plain) := by
  have hactive : c.toGeneric.activeBuffer = c.activeBuffer.plain := rfl
  have hpriority : c.toGeneric.priorityBuffer.buffer =
    c.priorityBuffer.buffer.map Queued.plain := rfl
  have htaken : ∀ (c : AiMDRAMController Cmd) (o : Option (Scheduled Cmd)),
      (o.map Scheduled.plain).bind (c.toGeneric.asAiM.unlessClosing iface) =
        (o.bind (c.unlessClosing iface)).map Scheduled.plain := by
    intro c o
    cases o with
    | none => rfl
    | some s => exact toGeneric_unlessClosing c s
  unfold GenericDRAMController.scheduleRequest AiMDRAMController.scheduleRequest
  rw [hactive, toGeneric_getBestRequest, toGeneric_ready, hpriority, h.noAiM]
  cases (FRFCFS.getBestRequest iface dev .active c.activeBuffer).filter
      (Scheduled.ready iface dev) with
  | some s => exact Prod.ext rfl (toGeneric_unlessClosing c s)
  | none =>
      cases c.priorityBuffer.buffer with
      | cons q qs =>
          have hhead : (some (candidate iface dev .priority 0 q.plain)).filter
              (Scheduled.ready iface dev) = ((some (candidate iface dev .priority 0 q)).filter
                (Scheduled.ready iface dev)).map Scheduled.plain :=
            toGeneric_ready (some (candidate iface dev .priority 0 q))
          show (c.toGeneric, ((some (candidate iface dev .priority 0 q.plain)).filter
            (Scheduled.ready iface dev)).bind (c.toGeneric.asAiM.unlessClosing iface)) = _
          rw [hhead, htaken]
      | nil =>
          dsimp only [Option.map_none]
          rw [toGeneric_setWriteMode]
          generalize c.setWriteMode params.toParams = c'
          have hmode : c'.toGeneric.isWriteMode = c'.isWriteMode := rfl
          have hid : (if c'.isWriteMode then BufferId.write else BufferId.read) ≠ .aim := by
            split <;> decide
          have hbuffer : ∀ id, id ≠ BufferId.aim →
              c'.toGeneric.bufferOf id = (c'.bufferOf id).plain :=
            fun id hid => c'.toQueues.plain_bufferOf hid
          rw [hmode, hbuffer _ hid, toGeneric_getBestRequest, toGeneric_ready, htaken]
          rfl

/-! ## Serving the scheduled request -/

theorem scheduled_plain (h : Conventional iface params c) {s : Scheduled Cmd}
    (hs : (c.scheduleRequest iface params.toParams dev).2 = some s) :
    s.buffer ≠ .aim ∧ (c.bufferOf s.buffer).buffer[s.index]? = some s.req ∧
      PlainRequest iface params s.req.req s.req.finalCommand := by
  have hstands := (AiMDRAMController.scheduleRequest_picked iface hs).stands
  have hid : s.buffer ≠ .aim := by
    intro heq
    rw [heq] at hstands
    have hstands : c.aimBuffer.buffer[s.index]? = some s.req := hstands
    rw [h.noAiM] at hstands
    cases hstands
  refine ⟨hid, hstands, h.plain s.req.plain (Queues.mem_outstanding.mpr (.inr (.inr
    ⟨s.buffer, ?_⟩)))⟩
  have hbuffer : c.toGeneric.bufferOf s.buffer = (c.bufferOf s.buffer).plain :=
    c.toQueues.plain_bufferOf hid
  rw [hbuffer]
  exact List.mem_map_of_mem (List.mem_of_getElem? hstands)

theorem plain_moveIssued [DecidableEq Cmd] {c : Queues Cmd} {s : Scheduled Cmd} (hid : s.buffer ≠ .aim)
    (hstands : (c.bufferOf s.buffer).buffer[s.index]? = some s.req)
    (hplain : PlainRequest iface params s.req.req s.req.finalCommand) :
    (AiMDRAMController.moveIssued iface c s (AiMDRAMController.stampIssue c s.req)
        s.command).plain =
      GenericDRAMController.moveIssued iface params c.plain s.plain := by
  obtain ⟨q, hq⟩ : ∃ q, AiMDRAMController.stampIssue c s.req = q := ⟨_, rfl⟩
  have hsame : q.plain = s.req.plain := by
    rw [← hq]
    unfold AiMDRAMController.stampIssue
    split <;> rfl
  have hreq : q.req = s.req.req := show q.plain.req = s.req.plain.req by rw [hsame]
  have hfinal : q.finalCommand = s.req.finalCommand :=
    show q.plain.finalCommand = s.req.plain.finalCommand by rw [hsame]
  rw [← hreq, ← hfinal] at hplain
  have hplainReq : s.plain.req = q.plain := hsame.symm
  have hremoved := c.plain_removeAt hid s.index
  unfold AiMDRAMController.moveIssued GenericDRAMController.moveIssued
  rw [hq, hplainReq]
  have hplainCommand : s.plain.command = s.command := rfl
  have hplainFinal : q.plain.finalCommand = q.finalCommand := rfl
  have hplainType : q.plain.req.type = q.req.type := rfl
  have hplainBuffer : s.plain.buffer = s.buffer := rfl
  have hplainIndex : s.plain.index = s.index := rfl
  rw [hplainCommand, hplainFinal, hplainType, hplainBuffer, hplainIndex]
  have hnotAiM : q.req.type ≠ .AIM := hplain.1.1
  by_cases hlast : s.command = q.finalCommand
  · rw [if_pos hlast, if_pos hlast]
    have hreader : q.req.isReader = true ↔ q.req.type = .Read := by
      simp [Request.isReader, hnotAiM]
    dsimp only
    rw [← hremoved]
    by_cases hread : q.req.type = .Read
    · rw [if_pos (hreader.mpr hread), if_pos hread, hlast, hplain.2 hread]
      simp only [Queues.plain, List.map_append, List.map_singleton]
      rfl
    · rw [if_neg (fun h => hread (hreader.mp h)), if_neg hread]
      rfl
  · rw [if_neg hlast, if_neg hlast]
    by_cases hopen : (iface.commandMeta s.command).isOpening = true
    · have hactive : c.plain.activeBuffer = c.activeBuffer.plain := rfl
      rw [if_pos ⟨hnotAiM, hopen⟩, if_pos hopen, hactive, ReqBuffer.plain_enqueue_getD]
      exact Queues.plain_removeAt hid _ _
    · rw [if_neg (fun h => hopen h.2), if_neg hopen, Queues.plain_setBuffer hid,
        ReqBuffer.plain_set hstands hsame, ← Queues.plain_bufferOf hid]
      cases s.buffer <;> rfl

theorem pluginSends_stands {plugins : List Request} {events : List (Event Cmd)}
    (h : c.pluginSends iface plugins = some (c', events)) {id : BufferId} {i : Nat}
    {q : Queued Cmd} (hq : (c.bufferOf id).buffer[i]? = some q) :
    (c'.bufferOf id).buffer[i]? = some q := by
  induction plugins generalizing c events with
  | nil =>
      obtain ⟨rfl, -⟩ := Option.some.inj h
      exact hq
  | cons req reqs ih =>
      obtain ⟨⟨ok, c₁, events₁⟩, hfirst, h⟩ := Option.bind_eq_some_iff.mp h
      obtain ⟨⟨c₂, events₂⟩, hrest, heq⟩ := Option.map_eq_some_iff.mp h
      obtain ⟨rfl, -⟩ := Prod.mk.inj heq
      refine ih hrest ?_
      obtain ⟨final, -, henqueue⟩ := Option.map_eq_some_iff.mp hfirst
      unfold AiMDRAMController.enqueueTo at henqueue
      split at henqueue
      · next b hroom =>
          obtain ⟨-, rfl, -⟩ := henqueue
          unfold ReqBuffer.enqueue at hroom
          split at hroom
          · obtain rfl := Option.some.inj hroom
            have hlt := (List.getElem?_eq_some_iff.mp hq).1
            cases id
            case priority => exact (List.getElem?_append_left hlt).trans hq
            all_goals exact hq
          · cases hroom
      · obtain ⟨-, rfl, -⟩ := henqueue
        exact hq

variable (iface) in
theorem toGeneric_countStandby (params : Params) (c : AiMDRAMController Cmd) (dev : Dev) :
    (c.countStandby iface params dev).toGeneric = c.toGeneric ∧
      SameAiM c (c.countStandby iface params dev) := by
  unfold AiMDRAMController.countStandby
  split <;> exact ⟨rfl, rfl, rfl⟩

variable [DecidableEq Cmd]

theorem moveIssued_aimBuffer {s : Scheduled Cmd} (hid : s.buffer ≠ .aim) (c : Queues Cmd)
    (q : Queued Cmd) (cmd : Cmd) :
    (AiMDRAMController.moveIssued iface c s q cmd).aimBuffer = c.aimBuffer := by
  have hset : ∀ (c : Queues Cmd) (b : ReqBuffer Cmd),
      (c.setBuffer s.buffer b).aimBuffer = c.aimBuffer := by
    intro c b
    cases hbuffer : s.buffer <;> first | rfl | exact absurd hbuffer hid
  unfold AiMDRAMController.moveIssued Queues.removeAt
  split
  · dsimp only
    split <;> exact hset _ _
  · split
    · exact hset _ _
    · exact hset _ _

theorem toGeneric_serveScheduled (dev : Dev) (hmode : c.isRegRWMode = false) {s : Scheduled Cmd}
    (hid : s.buffer ≠ .aim) (hstands : (c.bufferOf s.buffer).buffer[s.index]? = some s.req)
    (hplain : PlainRequest iface params s.req.req s.req.finalCommand) :
    ∃ c' q, c.serveScheduled iface dev (some s) =
        some (c', iface.issueCommand dev s.command s.req.req.addrVec, [.issue q s.command]) ∧
      c'.toGeneric = { c.toGeneric with
        toQueues := GenericDRAMController.moveIssued iface params c.toGeneric.toQueues s.plain } ∧
      SameAiM c c' := by
  have hrequires : AiMDRAMController.requiresRegRWMode s.req.req = some false := by
    unfold AiMDRAMController.requiresRegRWMode
    rw [if_neg hplain.1.1]
  have hcommand : c.issuedCommand iface s false = s.command := by
    unfold AiMDRAMController.issuedCommand
    rw [hmode]
    rfl
  have haddr : (AiMDRAMController.stampIssue c.toQueues s.req).req = s.req.req := by
    unfold AiMDRAMController.stampIssue
    split <;> rfl
  have hserve : c.serveScheduled iface dev (some s) = c.serveRequest iface dev s :=
    if_neg (by rw [hplain.1.2]; exact Bool.false_ne_true)
  rw [hserve]
  unfold AiMDRAMController.serveRequest
  rw [hrequires, Option.map_some]
  dsimp only
  rw [hcommand, haddr]
  refine ⟨_, _, rfl, ?_, hmode.symm, moveIssued_aimBuffer hid _ _ _⟩
  unfold AiMDRAMController.toGeneric
  rw [plain_moveIssued hid hstands hplain]

variable (iface) in
theorem serveScheduled_none (c : AiMDRAMController Cmd) (dev : Dev) :
    ∃ c', c.serveScheduled iface dev none = some (c', dev, []) ∧ c'.toGeneric = c.toGeneric ∧
      SameAiM c c' := by
  unfold AiMDRAMController.serveScheduled
  dsimp only
  split
  · exact ⟨_, rfl, rfl, rfl, rfl⟩
  · exact ⟨_, rfl, rfl, rfl, rfl⟩

/-! ## A tick -/

omit [DecidableEq Cmd] in
theorem given_refresh (rank : Nat) : GenericDRAMController.Given iface
    (PlainRequest iface params) (GenericDRAMController.refreshOf iface params rank) :=
  fun _ _ => ⟨⟨show ReqType.RefAllBank ≠ .AIM by decide, rfl⟩,
    fun heq => absurd heq (show ReqType.RefAllBank ≠ .Read by decide)⟩

/-- On conventional requests a tick is one of the generic controller: both throw, or both issue
the same command and call the same requests back. -/
theorem tickWith_cases (h : Conventional iface params c) {plugins : List Request}
    (hplugins : ∀ req ∈ plugins, IsPlain req) :
    (c.tickWith iface params.toParams dev plugins = none ∧
      c.toGeneric.tick iface params dev plugins = none) ∨
    ∃ c' dev' events, c.tickWith iface params.toParams dev plugins = some (c', dev', events) ∧
      c.toGeneric.tick iface params dev plugins =
        some (c'.toGeneric, dev', (completed events).map Queued.plain) ∧ SameAiM c c' := by
  have hprepared := toGeneric_prepare h
  unfold AiMDRAMController.tickWith GenericDRAMController.tick
  cases hprep : c.prepare iface params.toParams with
  | none =>
      rw [hprep] at hprepared
      rw [← hprepared]
      exact .inl ⟨rfl, rfl⟩
  | some r =>
      obtain ⟨c₁, prepared⟩ := r
      rw [hprep] at hprepared
      have hsame := SameAiM.prepare hprep
      have h₁ : Conventional iface params c₁ :=
        ⟨hsame.isRegRWMode.trans h.registers, (congrArg _ hsame.aimBuffer).trans h.noAiM,
          GenericDRAMController.prepare_hold hprepared.symm given_refresh h.plain⟩
      rw [← hprepared, Option.bind_some, Option.map_some, Option.bind_some]
      dsimp only
      rw [toGeneric_scheduleRequest h₁]
      dsimp only
      rw [← toGeneric_pluginSends _ hplugins]
      have hsched := SameAiM.scheduleRequest iface params.toParams c₁ dev
      cases hsent : (c₁.scheduleRequest iface params.toParams dev).1.pluginSends iface plugins with
      | none => exact .inl ⟨rfl, rfl⟩
      | some r =>
          obtain ⟨c₂, sent⟩ := r
          have hsame₂ := (hsame.trans hsched).trans (SameAiM.pluginSends hsent)
          have hlog := completed_pluginSends hsent
          rw [Option.bind_some, Option.map_some, Option.map_some]
          dsimp only
          right
          cases hfound : (c₁.scheduleRequest iface params.toParams dev).2 with
          | none =>
              obtain ⟨c₃, hserve, hc₃, hsame₃⟩ := serveScheduled_none iface c₂ dev
              obtain ⟨hstandby, hsame₄⟩ :=
                toGeneric_countStandby iface params.toParams c₃ dev
              rw [hserve]
              refine ⟨_, _, _, rfl, ?_, (hsame₂.trans hsame₃).trans hsame₄⟩
              rw [hstandby, hc₃, completed_append, completed_append, hlog]
              simp [GenericDRAMController.serveScheduled, completed]
          | some s =>
              obtain ⟨hid, hstands, hplain⟩ := scheduled_plain h₁ hfound
              have hstands₂ : (c₂.bufferOf s.buffer).buffer[s.index]? = some s.req := by
                refine pluginSends_stands hsent ?_
                rw [AiMDRAMController.scheduleRequest_toQueues]
                exact hstands
              obtain ⟨c₃, q, hserve, hc₃, hsame₃⟩ := toGeneric_serveScheduled dev
                (hsame₂.isRegRWMode.trans h.registers) hid hstands₂ hplain
              obtain ⟨hstandby, hsame₄⟩ := toGeneric_countStandby iface params.toParams
                c₃ (iface.issueCommand dev s.command s.req.req.addrVec)
              rw [hserve]
              refine ⟨_, _, _, rfl, ?_, (hsame₂.trans hsame₃).trans hsame₄⟩
              rw [hstandby, hc₃, completed_append, completed_append, hlog]
              simp [GenericDRAMController.serveScheduled, completed]
              rfl

/-! ## Runs -/

def PlainCall : Call Cmd → Prop
  | .send req | .prioritySend req => IsPlain req
  | .tick plugins => ∀ req ∈ plugins, IsPlain req
  | .issueElsewhere _ _ => True

omit [DecidableEq Cmd] in
/-- The generic controller in the state of an AiM controller, over the same device. -/
def Chan.toGeneric (s : Chan Dev Cmd) : GenericChan Dev Cmd where
  ctl := s.ctl.toGeneric
  dev := s.dev
  called := (completed s.log).map Queued.plain

theorem call_cases (hlatency : ∀ final, iface.requestTranslations .Read = some final →
      iface.commandLatencies final = params.readLatency) {s : Chan Dev Cmd} {call : Call Cmd}
    (h : Conventional iface params s.ctl) (hcall : PlainCall call) :
    (s.call iface params.toParams call = none ∧ s.toGeneric.call iface params call = none) ∨
    ∃ t, s.call iface params.toParams call = some t ∧
      s.toGeneric.call iface params call = some t.toGeneric ∧
        Conventional iface params t.ctl := by
  have hgiven : ∀ req, IsPlain req → ∀ final,
      iface.requestTranslations req.type = some final → PlainRequest iface params req final :=
    fun req hreq final hfinal => ⟨hreq, fun htype => hlatency final (htype ▸ hfinal)⟩
  have hconventional : ∀ {ctl : AiMDRAMController Cmd}, SameAiM s.ctl ctl →
      ctl.toGeneric.toQueues.Hold (PlainRequest iface params) → Conventional iface params ctl :=
    fun hsame hold => ⟨hsame.isRegRWMode.trans h.registers,
      (congrArg _ hsame.aimBuffer).trans h.noAiM, hold⟩
  cases call with
  | send req =>
      have hsend := toGeneric_send h hcall
      cases hsent : s.ctl.send iface req with
      | none =>
          rw [hsent] at hsend
          refine .inl ⟨?_, ?_⟩
          · unfold Chan.call Chan.step
            dsimp only
            rw [hsent]
            rfl
          · exact congrArg (Option.map _) hsend.symm
      | some r =>
          obtain ⟨ok, ctl, events⟩ := r
          rw [hsent] at hsend
          refine .inr ⟨⟨ctl, s.dev, s.log ++ events⟩, ?_, ?_, hconventional
            (SameAiM.send hsent hcall.1) (GenericDRAMController.send_hold hsend.symm
              (hgiven req hcall) h.plain)⟩
          · unfold Chan.call Chan.step
            dsimp only
            rw [hsent]
            rfl
          · refine (congrArg (Option.map _) hsend.symm).trans ?_
            unfold Chan.toGeneric
            dsimp only [Option.map_some]
            rw [completed_append, completed_send hsent hcall.1, List.append_nil]
  | prioritySend req =>
      have hsend := toGeneric_prioritySend iface s.ctl hcall
      cases hsent : s.ctl.prioritySend iface req with
      | none =>
          rw [hsent] at hsend
          refine .inl ⟨?_, congrArg (Option.map _) hsend.symm⟩
          unfold Chan.call Chan.step
          dsimp only
          rw [hsent]
          rfl
      | some r =>
          obtain ⟨ok, ctl, events⟩ := r
          rw [hsent] at hsend
          refine .inr ⟨⟨ctl, s.dev, s.log ++ events⟩, ?_, ?_, hconventional
            (SameAiM.prioritySend hsent) (GenericDRAMController.prioritySend_hold hsend.symm
              (hgiven req hcall) h.plain)⟩
          · unfold Chan.call Chan.step
            dsimp only
            rw [hsent]
            rfl
          · refine (congrArg (Option.map _) hsend.symm).trans ?_
            unfold Chan.toGeneric
            dsimp only [Option.map_some]
            rw [completed_append, completed_prioritySend hsent, List.append_nil]
  | tick plugins =>
      rcases @tickWith_cases _ _ iface params _ (iface.tick s.dev) _ h plugins hcall with
        ⟨htick, hgeneric⟩ | ⟨ctl, dev', events, htick, hgeneric, hsame⟩
      · exact .inl ⟨congrArg (Option.map _) htick, congrArg (Option.map _) hgeneric⟩
      · refine .inr ⟨⟨ctl, dev', s.log ++ events⟩, congrArg (Option.map _) htick, ?_,
          hconventional hsame (GenericDRAMController.tick_hold hgeneric
            (fun req hreq => hgiven req (hcall req hreq)) given_refresh h.plain)⟩
        refine (congrArg (Option.map _) hgeneric).trans ?_
        unfold Chan.toGeneric
        dsimp only [Option.map_some]
        rw [completed_append, List.map_append]
  | issueElsewhere cmd addrVec => exact .inr ⟨_, rfl, rfl, h⟩

omit [DecidableEq Cmd] in
theorem init_conventional (dev₀ : Dev) : Conventional iface params (Chan.init iface dev₀).ctl := by
  refine ⟨rfl, rfl, fun q hq => ?_⟩
  rcases Queues.mem_outstanding.mp hq with hq | hq | ⟨id, hq⟩
  · cases hq
  · cases hq
  · cases id <;> cases hq

/-- Where the read latency is that of the last command of a read, the two controllers agree on every
list of conventional calls: both throw, or they end in the same state over the same device and have
called the same requests back, in the same order. -/
theorem conventional_calls_agree (hlatency : ∀ final,
      iface.requestTranslations .Read = some final →
        iface.commandLatencies final = params.readLatency)
    (dev₀ : Dev) {calls : List (Call Cmd)} (hcalls : ∀ call ∈ calls, PlainCall call) :
    (Runs.replay (Chan.call iface params.toParams) (fun _ _ => true) (Chan.init iface dev₀)
        calls).map Chan.toGeneric =
      Runs.replay (GenericChan.call iface params) (fun _ _ => true)
        (GenericChan.init iface dev₀) calls := by
  suffices hgeneral : ∀ s : Chan Dev Cmd, Conventional iface params s.ctl →
      (Runs.replay (Chan.call iface params.toParams) (fun _ _ => true) s calls).map
          Chan.toGeneric =
        Runs.replay (GenericChan.call iface params) (fun _ _ => true) s.toGeneric calls from
    hgeneral _ (init_conventional dev₀)
  induction calls with
  | nil => exact fun s _ => rfl
  | cons call calls ih =>
      intro s h
      obtain ⟨hcall, hrest⟩ := List.forall_mem_cons.mp hcalls
      rw [Runs.replay, Runs.replay, if_pos rfl, if_pos rfl]
      rcases call_cases hlatency h hcall with ⟨hthrows, hgeneric⟩ | ⟨t, hstep, hgeneric, ht⟩
      · rw [hthrows, hgeneric]
        rfl
      · rw [hstep, hgeneric, Option.bind_some, Option.bind_some]
        exact ih hrest t ht

def gddr6Params : GenericParams where
  channelId := 0
  readLatency := GDDR6.aimModel.commandLatencies .RD

def readThenWrite : List (Call GDDR6.Cmd) :=
  [.send { type := .Read, addrVec := [0, 1, 1, 5, 0] },
    .send { type := .Write, addrVec := [0, 1, 1, 5, 1] }, .tick [], .tick [], .tick []]

theorem gddr6_readLatency (final : GDDR6.Cmd)
    (h : GDDR6.aimModel.idram.requestTranslations .Read = some final) :
    GDDR6.aimModel.idram.commandLatencies final = gddr6Params.readLatency := by
  obtain rfl := Option.some.inj h
  rfl

theorem conventional_calls_agree_gddr6 :
    (Runs.replay (Chan.call GDDR6.aimModel.idram gddr6Params.toParams) (fun _ _ => true)
        (Chan.init GDDR6.aimModel.idram GDDR6.x16Device) readThenWrite).map Chan.toGeneric =
      Runs.replay (GenericChan.call GDDR6.aimModel.idram gddr6Params) (fun _ _ => true)
        (GenericChan.init GDDR6.aimModel.idram GDDR6.x16Device) readThenWrite := by
  refine conventional_calls_agree gddr6_readLatency GDDR6.x16Device fun call hcall => ?_
  simp only [readThenWrite, List.mem_cons, List.not_mem_nil, or_false] at hcall
  rcases hcall with rfl | rfl | rfl | rfl | rfl
  · exact ⟨by decide, rfl⟩
  · exact ⟨by decide, rfl⟩
  all_goals
    intro req hreq
    cases hreq

theorem run_of_generic (hlatency : ∀ final, iface.requestTranslations .Read = some final →
      iface.commandLatencies final = params.readLatency) {dev₀ : Dev} {t : GenericChan Dev Cmd}
    (hr : GenericChan.Run iface params dev₀ (fun _ call => PlainCall call) t) :
    ∃ s : Chan Dev Cmd, Chan.CallRun iface params.toParams dev₀ (fun _ call => PlainCall call) s ∧
      s.toGeneric = t ∧ Conventional iface params s.ctl := by
  refine hr.invariant (I := fun t => ∃ s : Chan Dev Cmd,
    Chan.CallRun iface params.toParams dev₀ (fun _ call => PlainCall call) s ∧
      s.toGeneric = t ∧ Conventional iface params s.ctl) ?_ ?_
  · rintro t rfl
    exact ⟨_, .start rfl, rfl, init_conventional dev₀⟩
  · rintro t call t' ⟨s, hs, rfl, h⟩ hcall hstep
    rcases call_cases hlatency h hcall with ⟨-, hnone⟩ | ⟨s', hstep', hgeneric, h'⟩
    · rw [hnone] at hstep
      cases hstep
    · exact ⟨s', hs.next hcall hstep', Option.some.inj (hgeneric.symm.trans hstep), h'⟩

end AimSimulator.Controller
