import Mathlib.Data.List.Perm.Subperm
import AimSimulator.Controller.History
import AimSimulator.Dram.GDDR6Timing
import AimSimulator.Dram.LPDDRTiming
import AimSimulator.Dram.Opening
/-!
# The active buffer never overflows

A request enters the active buffer when a bank was opened for it, and no two requests in it
are for one bank: the second would share its next command with the first, which the
scheduler prefers.  A controller of at most 32 banks therefore never drops a request.
-/

namespace AimSimulator.Controller

open Dram

/-! ## What a serving step does to the active buffer -/

section

variable {Dev Cmd : Type} [DecidableEq Cmd] {iface : IDRAM Dev Cmd}

/-- A serving step removes requests from the active buffer, reorders it, or appends the one
for which a command opened a bank. -/
theorem serve_active {β : Type} {c c' : Queues Cmd} {s : Scheduled Cmd}
    {events : List (Event Cmd)} (h : ServeStep iface c s events c')
    (hs : (c.bufferOf s.buffer).buffer[s.index]? = some s.req) (f : Queued Cmd → β)
    (hf : ∀ {q q'}, SameRequest q q' → f q' = f q) :
    c'.activeBuffer.maxSize = c.activeBuffer.maxSize ∧
    ((c'.activeBuffer.buffer.map f).Subperm (c.activeBuffer.buffer.map f) ∨
      (s.buffer ≠ .active ∧ s.req.req.type ≠ .AIM ∧ s.req.req.opcode.isBarrier = false ∧
        (∃ q cmd, events = [.issue q cmd] ∧ (cmd = iface.tmod ∨ cmd = s.command) ∧
          (iface.commandMeta cmd).isOpening = true) ∧
        c'.activeBuffer.buffer.map f = c.activeBuffer.buffer.map f ++ [f s.req])) := by
  have hremove : (c.removeAt s.buffer s.index).activeBuffer.maxSize = c.activeBuffer.maxSize ∧
      ((c.removeAt s.buffer s.index).activeBuffer.buffer.map f).Subperm
        (c.activeBuffer.buffer.map f) := by
    cases hid : s.buffer with
    | active => exact ⟨rfl, ((List.eraseIdx_sublist ..).map f).subperm⟩
    | _ => exact ⟨rfl, .refl _⟩
  cases h with
  | barrier _ => exact ⟨hremove.1, .inl hremove.2⟩
  | @issue cmd hbarrier hcmd =>
      have hsame := SameRequest.stampIssue c s.req
      unfold AiMDRAMController.moveIssued
      split
      · dsimp only
        split <;> exact ⟨hremove.1, .inl hremove.2⟩
      · split
        · next hopen =>
            dsimp only
            generalize hb : (c.activeBuffer.enqueue (AiMDRAMController.stampIssue c s.req)).getD
              c.activeBuffer = b
            have hmax : b.maxSize = c.activeBuffer.maxSize := by
              rw [← hb]
              unfold ReqBuffer.enqueue
              split <;> rfl
            have hbuffer := enqueue_getD_buffer c.activeBuffer
              (AiMDRAMController.stampIssue c s.req)
            rw [hb] at hbuffer
            cases hid : s.buffer with
            | active =>
                -- the request leaves its old place, and may stand at the end again
                refine ⟨hmax, .inl ?_⟩
                rw [hid] at hs
                have hs : c.activeBuffer.buffer[s.index]? = some s.req := hs
                obtain ⟨hi, hget⟩ := List.getElem?_eq_some_iff.mp hs
                show ((b.buffer.eraseIdx s.index).map f).Subperm _
                rw [hbuffer]
                split
                · rw [List.eraseIdx_append_of_lt_length hi, List.map_append, List.map_singleton,
                    hf hsame]
                  have hperm := (List.getElem_cons_eraseIdx_perm hi).map f
                  rw [hget, List.map_cons] at hperm
                  exact (List.perm_append_singleton _ _ |>.trans hperm).subperm
                · exact ((List.eraseIdx_sublist ..).map f).subperm
            | _ =>
                refine ⟨hmax, ?_⟩
                show (b.buffer.map f).Subperm _ ∨ _
                rw [hbuffer]
                split
                · refine .inr ⟨nofun, hsame.req ▸ hopen.1, hbarrier,
                    ⟨_, cmd, rfl, hcmd, hopen.2⟩, ?_⟩
                  show b.buffer.map f = _
                  rw [hbuffer, if_pos ‹_›, List.map_append, List.map_singleton, hf hsame]
                · exact .inl (.refl _)
        · cases hid : s.buffer with
          | active =>
              rw [hid] at hs
              have hs : (c.activeBuffer.buffer.map f)[s.index]? = some (f s.req) := by
                rw [List.getElem?_map, show c.activeBuffer.buffer[s.index]? = _ from hs]
                rfl
              obtain ⟨hi, hget⟩ := List.getElem?_eq_some_iff.mp hs
              refine ⟨rfl, .inl (List.Perm.subperm (List.Perm.of_eq ?_))⟩
              show (c.activeBuffer.buffer.set s.index _).map f = _
              rw [List.map_set, hf hsame, ← hget, List.set_getElem_self]
          | _ => exact ⟨rfl, .inl (.refl _)⟩

/-- A tick leaves the device alone and at most removes active requests, or issues a command
and serves its request with it. -/
theorem AiMDRAMController.tick_active {β : Type} {params : Params}
    {c c' : AiMDRAMController Cmd} {dev dev' : Dev} {events : List (Event Cmd)}
    (h : c.tick iface params dev = some (c', dev', events)) (f : Queued Cmd → β)
    (hf : ∀ {q q'}, SameRequest q q' → f q' = f q) :
    (dev' = dev ∧
      (c'.activeBuffer.buffer.map f).Subperm (c.activeBuffer.buffer.map f)) ∨
    ∃ c₁ s cmd, Issues iface params c dev c₁ s cmd ∧
      dev' = iface.issueCommand dev cmd s.req.req.addrVec ∧
      ServeStep iface c₁.toQueues s [.issue (stampIssue c₁.toQueues s.req) cmd] c'.toQueues := by
  rw [tick] at h
  obtain ⟨⟨c₁, prepared⟩, hprep, h⟩ := Option.bind_eq_some_iff.mp h
  obtain ⟨⟨c₂, dev₂, served⟩, hserved, heq⟩ := Option.map_eq_some_iff.mp h
  simp only [Prod.mk.injEq] at heq
  obtain ⟨rfl, rfl, rfl⟩ := heq
  have hstandby : (c₂.countStandby iface params dev₂).toQueues = c₂.toQueues := by
    unfold countStandby
    split <;> rfl
  have hqueues := scheduleRequest_toQueues iface params c₁ dev
  have hactive := prepare_activeBuffer hprep
  rw [hstandby]
  cases hsched : (c₁.scheduleRequest iface params dev).2 with
  | none =>
      rw [hsched, serveScheduled] at hserved
      split at hserved <;>
        · obtain ⟨rfl, rfl, -⟩ := Option.some.inj hserved
          refine .inl ⟨rfl, ?_⟩
          rw [hqueues, hactive]
  | some s =>
      have hnext : c.nextScheduled iface params dev = some (c₁, s) := by
        simp [nextScheduled, hprep, hsched]
      rw [hsched, serveScheduled] at hserved
      split at hserved
      · next hbarrier =>
          obtain ⟨rfl, rfl, -⟩ := Option.some.inj hserved
          refine .inl ⟨rfl, ?_⟩
          rw [hqueues, ← hactive]
          have hserve : ServeStep iface c₁.toQueues s _ _ := .barrier hbarrier
          rcases (serve_active hserve (nextScheduled_picked iface hnext).stands f hf).2 with
            hsub | ⟨-, -, -, ⟨_, _, hevents, -⟩, -⟩
          · exact hsub
          · cases hevents
      · next hbarrier =>
          obtain ⟨requires, hrequires, heq⟩ := Option.map_eq_some_iff.mp hserved
          obtain ⟨rfl, rfl, -⟩ := heq
          have hmode : (c₁.scheduleRequest iface params dev).1.isRegRWMode = c.isRegRWMode :=
            (SameRest.scheduleRequest c₁ dev).isRegRWMode.trans (prepare_mode hprep).1
          have hissues : Issues iface params c dev c₁ s
              ((c₁.scheduleRequest iface params dev).1.issuedCommand iface s requires) :=
            ⟨hnext, by simpa using hbarrier, requires, hrequires, by rw [issuedCommand, hmode]⟩
          refine .inr ⟨c₁, s, _, hissues, ?_, ?_⟩
          · rw [hqueues, (SameRequest.stampIssue _ s.req).req]
          · dsimp only
            rw [hqueues]
            exact .issue hissues.notBarrier hissues.command

theorem Chan.step_quiet {params : Params} {s t : Chan Dev Cmd} {op : Op}
    (hstep : s.step iface params op = some t) (hop : op ≠ .tick) :
    t.dev = s.dev ∧ t.ctl.activeBuffer = s.ctl.activeBuffer := by
  cases op with
  | send req =>
      obtain ⟨⟨ok, ctl, events⟩, hsent, rfl⟩ := Option.map_eq_some_iff.mp hstep
      refine ⟨rfl, ?_⟩
      rcases @AiMDRAMController.send_step _ _ iface (fun _ _ _ => True) _ _ _ _ _
        (fun _ _ _ => trivial) hsent with ⟨rfl, -⟩ | h
      · rfl
      · exact h.activeBuffer
  | prioritySend req =>
      obtain ⟨⟨ok, ctl, events⟩, hsent, rfl⟩ := Option.map_eq_some_iff.mp hstep
      refine ⟨rfl, ?_⟩
      rcases @AiMDRAMController.prioritySend_step _ _ iface (fun _ _ _ => True) _ _ _ _ _
        trivial hsent with ⟨rfl, -⟩ | h
      · rfl
      · exact h.activeBuffer
  | tick => exact absurd rfl hop

end

/-! ## One request for each bank -/

section

variable {Cmd St Ext : Type} [DecidableEq Cmd] {model : DRAMModel Cmd St Ext}
  {count : Nat → Int} {params : Params}

/-- The calls of a memory system: a request is sent to the controller of its channel, and a
barrier, which has no address, to every controller. -/
def OwnChannel (params : Params) : Op → Prop
  | .send req | .prioritySend req =>
      req.addrVec.at 0 = params.channelId ∨ req.opcode.isBarrier = true
  | .tick => True

instance (params : Params) : DecidablePred (OwnChannel params)
  | .send req | .prioritySend req => inferInstanceAs
      (Decidable (req.addrVec.at 0 = params.channelId ∨ req.opcode.isBarrier = true))
  | .tick => .isTrue trivial

def activeEntry (q : Queued Cmd) : Request × Cmd := (q.req, q.finalCommand)

/-- The bank that a request is for: its channel, and its place in there. -/
def bankOf (model : DRAMModel Cmd St Ext) (e : Request × Cmd) : Int × Option (List Nat) :=
  (e.1.addrVec.at 0, model.pathOf e.1.addrVec model.bankLevel)

variable (model count) in
/-- The active requests are reads and writes, each for a bank of its own. -/
structure ActiveBanks (active : List (Request × Cmd)) : Prop where
  access : ∀ e ∈ active, model.IsAccess e.2
  named : ∀ e ∈ active, ∃ path ∈ model.paths count model.bankLevel,
    (bankOf model e).2 = some path
  distinct : (active.map (bankOf model)).Nodup

namespace ActiveBanks

variable {active active' : List (Request × Cmd)}

omit [DecidableEq Cmd] in
theorem nil : ActiveBanks model count [] :=
  ⟨fun _ h => (List.not_mem_nil h).elim, fun _ h => (List.not_mem_nil h).elim, List.nodup_nil⟩

omit [DecidableEq Cmd] in
theorem subperm (h : ActiveBanks model count active) (hsub : active'.Subperm active) :
    ActiveBanks model count active' := by
  refine ⟨fun e he => h.access e (hsub.subset he), fun e he => h.named e (hsub.subset he), ?_⟩
  obtain ⟨l, hperm, hsublist⟩ := hsub
  exact (hperm.map _).nodup_iff.mp ((hsublist.map _).nodup h.distinct)

omit [DecidableEq Cmd] in
theorem append (h : ActiveBanks model count active) {e : Request × Cmd}
    (haccess : model.IsAccess e.2) {path : List Nat}
    (hpath : path ∈ model.paths count model.bankLevel) (hbank : (bankOf model e).2 = some path)
    (hnew : ∀ e' ∈ active, bankOf model e' ≠ bankOf model e) :
    ActiveBanks model count (active ++ [e]) := by
  have hmem : ∀ {P : Request × Cmd → Prop}, (∀ e ∈ active, P e) → P e → ∀ x ∈ active ++ [e], P x := by
    intro P hall he x hx
    rcases List.mem_append.mp hx with hx | hx
    · exact hall x hx
    · exact List.mem_singleton.mp hx ▸ he
  refine ⟨hmem h.access haccess, hmem h.named ⟨path, hpath, hbank⟩, ?_⟩
  rw [List.map_append, List.map_singleton]
  refine List.nodup_append.mpr ⟨h.distinct, List.pairwise_singleton _ _, ?_⟩
  intro a ha b hb hab
  obtain ⟨e', he', rfl⟩ := List.mem_map.mp ha
  exact hnew e' he' (hab.trans (List.mem_singleton.mp hb))

omit [DecidableEq Cmd] in
theorem length_le (h : ActiveBanks model count active) {channel : Int}
    (hchannel : ∀ e ∈ active, e.1.addrVec.at 0 = channel) :
    active.length ≤ (model.paths count model.bankLevel).length := by
  have hsub : active.map (bankOf model) ⊆
      (model.paths count model.bankLevel).map fun path => (channel, some path) := by
    intro bank hbank
    obtain ⟨e, he, rfl⟩ := List.mem_map.mp hbank
    obtain ⟨path, hpath, hnamed⟩ := h.named e he
    exact List.mem_map.mpr ⟨path, hpath, Prod.ext (hchannel e he).symm hnamed.symm⟩
  have hlength := (List.subperm_of_subset h.distinct hsub).length_le
  simpa using hlength

end ActiveBanks

/-! ## Every run -/

section Run

variable {guard : Chan model.Dev Cmd → Op → Prop} {s : Chan model.Dev Cmd}
  (hopens : model.OpensBank count) (htmod : (model.commandMeta model.tmod).isOpening = false)

include hopens htmod

theorem ActiveBanks.serveStep {dev : model.Dev} {history : List (Issue Cmd)}
    (hdev : model.DeviceTiming count ⟨dev, history⟩) {c c' : Queues Cmd} {sched : Scheduled Cmd}
    {events : List (Event Cmd)} (hpicked : Picked model.idram c dev sched)
    (hfinal : finalOf model.idram sched.req.req = some sched.req.finalCommand)
    (hserve : ServeStep model.idram c sched events c')
    (h : ActiveBanks model count (c.activeBuffer.buffer.map activeEntry)) :
    ActiveBanks model count (c'.activeBuffer.buffer.map activeEntry) := by
  have hentry : ∀ {q q' : Queued Cmd}, SameRequest q q' → activeEntry q' = activeEntry q :=
    fun h => Prod.ext h.req h.finalCommand
  rcases (serve_active hserve hpicked.stands activeEntry hentry).2 with
    hsub | ⟨hbuffer, htype, hbarrier, ⟨q, cmd, -, hcmd, hopen⟩, happend⟩
  · exact h.subperm hsub
  · obtain ⟨hpreq, hready⟩ := hpicked.command.resolve_left fun h => by
      rw [hbarrier] at h
      cases h.2
    have hcmd : cmd = sched.command := hcmd.resolve_left fun heq => by
      rw [heq, show (model.idram.commandMeta model.idram.tmod).isOpening = false from htmod] at hopen
      cases hopen
    subst hcmd
    rw [hpreq] at hopen
    have hfinal : model.requestTranslations sched.req.req.type = some sched.req.finalCommand := by
      rw [← hfinal, finalOf, if_neg htype]
      rfl
    obtain ⟨haccess, b, hb⟩ := hopens.access hdev hfinal hopen
    obtain ⟨path, hpath, hmem⟩ := hdev.named hb
    rw [happend]
    refine h.append haccess hmem hpath fun e he hbank => ?_
    -- an active request for the same bank would have been preferred
    obtain ⟨q, hq, rfl⟩ := List.mem_map.mp he
    have hsame : model.SameBankAddr sched.req.req.addrVec q.req.addrVec :=
      .of_pathOf (Prod.mk.inj hbank).1.symm hpath ((Prod.mk.inj hbank).2.trans hpath)
    have hshared := hopens.shared hdev haccess (h.access _ he) hsame hopen
    have hover := hpicked.overActive hbuffer q hq
    have hready' : model.checkReady dev sched.command sched.req.req.addrVec = true := hready
    rw [hsame.checkReady, hpreq] at hready'
    have hover' : model.checkReady dev
        (model.getPreqCommand dev q.finalCommand q.req.addrVec) q.req.addrVec = false := hover
    rw [show model.getPreqCommand dev q.finalCommand q.req.addrVec = _ from hshared] at hover'
    exact absurd (hready'.symm.trans hover') Bool.noConfusion

variable (hact : model.ActionsKeepTiming count) (hwin : model.WindowsPositive)

include hact hwin

theorem run_activeBanks
    (hr : Chan.Run model.idram params (model.createNodes count) guard s) :
    s.ctl.activeBuffer.maxSize = 32 ∧
      ActiveBanks model count (s.ctl.activeBuffer.buffer.map activeEntry) := by
  refine Chan.invariant (fun _ _ _ => True)
    (I := fun c _ => c.activeBuffer.maxSize = 32 ∧
      ActiveBanks model count (c.activeBuffer.buffer.map activeEntry))
    ⟨rfl, .nil⟩ ?_ (fun _ _ => trivial) (fun _ _ _ _ _ _ => trivial) (fun _ _ _ => trivial) ?_
    hr.strengthen
  · rintro c log events c' hstep h
    rw [hstep.activeBuffer]
    exact h
  · rintro s c₁ sched ⟨hg, hrun⟩ hnext log events c' ⟨hmax, hactive⟩ hserve
    have hpicked := AiMDRAMController.nextScheduled_picked model.idram hnext
    obtain ⟨history, hdev⟩ := Chan.deviceTiming hact hwin hrun
    refine ⟨(serve_active hserve hpicked.stands activeEntry
      fun h => Prod.ext h.req h.finalCommand).1.trans hmax, ?_⟩
    exact hactive.serveStep hopens htmod hdev hpicked (Chan.picked_final hrun hnext) hserve

omit hopens htmod hact hwin

theorem refreshRequest_channel (rank : Nat) :
    (AiMDRAMController.refreshRequest model.idram params rank).addrVec.at 0 = params.channelId :=
  rfl

variable (hguard : ∀ s op, guard s op → OwnChannel params op)

include hguard

theorem run_activeChannel
    (hr : Chan.Run model.idram params (model.createNodes count) guard s) :
    ∀ e ∈ s.ctl.activeBuffer.buffer.map activeEntry, e.1.addrVec.at 0 = params.channelId := by
  refine Chan.invariant (fun _ _ _ => True)
    (I := fun c _ => ∀ e ∈ c.activeBuffer.buffer.map activeEntry,
      e.1.addrVec.at 0 = params.channelId)
    (fun e he => (List.not_mem_nil he).elim) ?_ (fun _ _ => trivial) (fun _ _ _ _ _ _ => trivial)
    (fun _ _ _ => trivial) ?_ hr.strengthen
  · rintro c log events c' hstep h
    rw [hstep.activeBuffer]
    exact h
  · rintro s c₁ sched ⟨hg, hrun⟩ hnext log events c' hactive hserve
    have hstands := (AiMDRAMController.nextScheduled_picked model.idram hnext).stands
    rcases (serve_active hserve hstands activeEntry
      fun h => Prod.ext h.req h.finalCommand).2 with hsub | ⟨-, -, hbarrier, -, happend⟩
    · exact fun e he => hactive e (hsub.subset he)
    · -- a barrier opens no bank
      have hown := (Chan.requests
        (P := fun req => req.addrVec.at 0 = params.channelId ∨ req.opcode.isBarrier = true)
        (fun s req h => hguard s (.send req) h) (fun s req h => hguard s (.prioritySend req) h)
        (fun _ _ _ rank _ => .inl (refreshRequest_channel rank)) hrun).2 hg hnext
      rw [happend]
      intro e he
      rcases List.mem_append.mp he with he | he
      · exact hactive e he
      · obtain rfl := List.mem_singleton.mp he
        exact hown.resolve_right (by simp [hbarrier])

include hopens htmod hact hwin

/-- In every run of a memory system the active buffer has room, where a channel has at most 32
banks. -/
theorem run_room (hbanks : (model.paths count model.bankLevel).length ≤ 32)
    (hr : Chan.Run model.idram params (model.createNodes count) guard s) :
    s.ctl.activeBuffer.size ≤ s.ctl.activeBuffer.maxSize := by
  obtain ⟨hmax, hactive⟩ := run_activeBanks hopens htmod hact hwin hr
  have hlength := hactive.length_le (run_activeChannel hguard hr)
  rw [List.length_map] at hlength
  rw [hmax]
  exact Nat.le_trans hlength hbanks

end Run

theorem tally_accepted {Dev : Type} {iface : IDRAM Dev Cmd} {c : Queues Cmd}
    {log : List (Event Cmd)} (hsound : Sound iface c log) {q : Queued Cmd}
    (hq : q ∈ accepted log) : tally q.key (accepted log) = 1 := by
  have hle : tally q.key (accepted log) ≤ ((accepted log).map Queued.seq).count q.seq := by
    rw [List.count, List.countP_map]
    refine List.countP_mono_left fun x _ hx => ?_
    exact beq_iff_eq.mpr (Prod.mk.inj (of_decide_eq_true hx)).1
  have hone : ((accepted log).map Queued.seq).count q.seq ≤ 1 := by
    rw [hsound.numbered]
    exact List.nodup_iff_count.mp List.nodup_range q.seq
  have hpos : 0 < tally q.key (accepted log) :=
    List.countP_pos_iff.mpr ⟨q, hq, decide_eq_true rfl⟩
  omega

/-- In every run of a memory system the active buffer has room for one more request, and every
accepted request is exactly once among the outstanding ones, which a buffer or a pending list
holds, and the completed ones. -/
def KeepsRequests (model : DRAMModel Cmd St Ext) (count : Nat → Int) : Prop :=
  ∀ {params : Params} {s : Chan model.Dev Cmd},
    Chan.Run model.idram params (model.createNodes count) (fun _ => OwnChannel params) s →
      s.ctl.activeBuffer.size ≤ s.ctl.activeBuffer.maxSize ∧
        ∀ q ∈ accepted s.log, tally q.key s.ctl.outstanding + tally q.key (finished s.log) = 1

theorem keepsRequests (hopens : model.OpensBank count)
    (htmod : (model.commandMeta model.tmod).isOpening = false)
    (hact : model.ActionsKeepTiming count) (hwin : model.WindowsPositive)
    (hbanks : (model.paths count model.bankLevel).length ≤ 32) : KeepsRequests model count := by
  intro params s hr
  have hroom : ∀ s, Chan.Run model.idram params (model.createNodes count)
      (fun _ => OwnChannel params) s → s.ctl.activeBuffer.size ≤ s.ctl.activeBuffer.maxSize :=
    fun _ hr => run_room hopens htmod hact hwin (fun _ _ h => h) hbanks hr
  have hconserved : Conserved s.ctl.toQueues s.log :=
    Chan.conserved (fun s h => hroom s h.2) hr.strengthen
  refine ⟨hroom s hr, fun q hq => ?_⟩
  rw [hconserved q.key]
  exact tally_accepted (Chan.sound hr) hq

end

/-! ## The presets -/

/-- For every organisation preset of the three models no accepted request is lost or
duplicated. -/
theorem presets_keepRequests (V : GDDR6.Timing → Int) (gen : LPDDR.Generation)
    (W : LPDDR.Timing → Int) :
    (∀ preset ∈ GDDR6.orgPresets, KeepsRequests (GDDR6.model V) preset.2.countAt) ∧
      ∀ preset ∈ LPDDR.orgPresets gen,
        KeepsRequests (LPDDR.model gen preset.2.countAt W) preset.2.countAt := by
  have hgddr6 : ∀ preset ∈ GDDR6.orgPresets,
      (preset.2.countAt 1).toNat * (preset.2.countAt 2).toNat ≤ 16 := by decide
  have hlpddr : ∀ preset ∈ LPDDR.orgPresets gen, (∀ k, k < 3 → 0 < preset.2.countAt (3 - k)) ∧
      (preset.2.countAt 1).toNat * ((preset.2.countAt 2).toNat * (preset.2.countAt 3).toNat) ≤
        16 := by
    cases gen <;> decide
  constructor
  · intro preset hpreset
    refine keepsRequests (GDDR6.opensBank V _) rfl (GDDR6.actionsKeepTiming V _)
      (GDDR6.windowsPositive V) ?_
    rw [GDDR6.length_paths]
    exact Nat.le_trans (hgddr6 preset hpreset) (Nat.le_add_right 16 16)
  · intro preset hpreset
    obtain ⟨hpos, hbanks⟩ := hlpddr preset hpreset
    refine keepsRequests (LPDDR.opensBank hpos) rfl (LPDDR.actionsKeepTiming gen _ W _)
      (LPDDR.windowsPositive gen _ W) ?_
    rw [LPDDR.length_paths]
    exact Nat.le_trans hbanks (Nat.le_add_right 16 16)

/-- A read whose bank was opened waits in the active buffer, and a `SYNC` behind it. -/
theorem presets_keepRequests_read :
    ∃ s : Chan GDDR6.aimModel.Dev GDDR6.Cmd,
      (∃ q ∈ s.ctl.activeBuffer.buffer, q.req = { type := .Read, addrVec := [0, 1, 1, 5, 0] }) ∧
        (∃ q ∈ s.ctl.aimBuffer.buffer, q.req = { type := .AIM, opcode := .ISR_SYNC }) ∧
        ∀ q ∈ accepted s.log, tally q.key s.ctl.outstanding + tally q.key (finished s.log) = 1 := by
  have hrun : ((Chan.replay GDDR6.aimModel.idram { channelId := 0 } GDDR6.x16Device
      (fun _ op => OwnChannel { channelId := 0 } op)
      [.send { type := .Read, addrVec := [0, 1, 1, 5, 0] }, .tick,
        .send { type := .AIM, opcode := .ISR_SYNC }]).any fun s =>
        (s.ctl.activeBuffer.buffer.any fun q =>
          q.req = { type := .Read, addrVec := [0, 1, 1, 5, 0] }) &&
        s.ctl.aimBuffer.buffer.any fun q => q.req = { type := .AIM, opcode := .ISR_SYNC }) =
          true := by
    decide +kernel
  obtain ⟨s, hs, htest⟩ := Option.any_eq_true .. |>.mp hrun
  obtain ⟨hread, hsync⟩ := Bool.and_eq_true_iff.mp htest
  obtain ⟨q, hq, hreq⟩ := List.any_eq_true.mp hread
  obtain ⟨q', hq', hreq'⟩ := List.any_eq_true.mp hsync
  refine ⟨s, ⟨q, hq, of_decide_eq_true hreq⟩, ⟨q', hq', of_decide_eq_true hreq'⟩,
    ((presets_keepRequests _ .LPDDR4 fun _ => 1).1
      ("GDDR6_8Gb_x16", GDDR6.x16Organization) (.tail _ (.head _))
      (Chan.replay_run (fun _ _ hok => of_decide_eq_true hok) hs)).2⟩

end AimSimulator.Controller
