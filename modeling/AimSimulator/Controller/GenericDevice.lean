import AimSimulator.Controller.GenericController
/-!
# What a tick of the generic controller does to the device

A tick issues at most one command: the prerequisite of the request that it scheduled, when
that is ready.  What holds of every request that a controller is given, with the command it
ends with, holds of every request that it schedules.
-/

namespace AimSimulator.Controller

open Dram

variable {Dev Cmd : Type} [DecidableEq Cmd]

def Queues.Hold (P : Request → Cmd → Prop) (c : Queues Cmd) : Prop :=
  ∀ q ∈ c.outstanding, P q.req q.finalCommand

namespace Queues.Hold

omit [DecidableEq Cmd]

variable {P : Request → Cmd → Prop} {c c' : Queues Cmd}

theorem mono (h : c.Hold P) (hsub : ∀ q ∈ c'.outstanding, ∃ q₀ ∈ c.outstanding,
    q.req = q₀.req ∧ q.finalCommand = q₀.finalCommand) : c'.Hold P := by
  intro q hq
  obtain ⟨q₀, hq₀, hreq, hfinal⟩ := hsub q hq
  rw [hreq, hfinal]
  exact h q₀ hq₀

theorem buffered (h : c.Hold P) (id : BufferId) {q : Queued Cmd}
    (hq : q ∈ (c.bufferOf id).buffer) : P q.req q.finalCommand :=
  h q (mem_outstanding.mpr (.inr (.inr ⟨id, hq⟩)))

theorem setBuffer (h : c.Hold P) {id : BufferId} {b : ReqBuffer Cmd}
    (hb : ∀ q ∈ b.buffer, P q.req q.finalCommand) : (c.setBuffer id b).Hold P := by
  intro q hq
  rcases mem_outstanding.mp hq with hq | hq | ⟨id', hq⟩
  · rw [setBuffer_pendingReads] at hq
    exact h q (mem_outstanding.mpr (.inl hq))
  · rw [setBuffer_pendingWrites] at hq
    exact h q (mem_outstanding.mpr (.inr (.inl hq)))
  · rw [bufferOf_setBuffer] at hq
    split at hq
    · exact hb q hq
    · exact h.buffered _ hq

theorem removeAt (h : c.Hold P) (id : BufferId) (i : Nat) : (c.removeAt id i).Hold P :=
  h.setBuffer fun _ hq => h.buffered _ (Counting.mem_of_mem_eraseIdx hq)

theorem pending (h : c.Hold P) {q : Queued Cmd} (hq : P q.req q.finalCommand) :
    Hold P { c with pendingReads := c.pendingReads ++ [q] } := by
  intro x hx
  rcases mem_outstanding.mp hx with hx | hx | ⟨id, hx⟩
  · rcases List.mem_append.mp hx with hx | hx
    · exact h x (mem_outstanding.mpr (.inl hx))
    · obtain rfl := List.mem_singleton.mp hx
      exact hq
  · exact h x (mem_outstanding.mpr (.inr (.inl hx)))
  · exact h.buffered id (by cases id <;> exact hx)

end Queues.Hold

namespace GenericDRAMController

/-! ## The requests of a controller -/

section

variable {iface : IDRAM Dev Cmd} {params : GenericParams} {P : Request → Cmd → Prop}
  {c c' : GenericDRAMController Cmd}

omit [DecidableEq Cmd] in
theorem enqueueTo_hold {id : BufferId} {q : Queued Cmd} {ok : Bool}
    (h : c.enqueueTo id q = (ok, c')) (hq : P q.req q.finalCommand)
    (hold : c.toQueues.Hold P) : c'.toQueues.Hold P := by
  unfold enqueueTo at h
  split at h
  · next b heq =>
      obtain ⟨-, rfl⟩ := h
      unfold ReqBuffer.enqueue at heq
      split at heq
      · obtain rfl := Option.some.inj heq
        have hpushed : (c.toQueues.setBuffer id { c.bufferOf id with
            buffer := (c.bufferOf id).buffer ++ [q] }).Hold P := by
          refine hold.setBuffer fun x hx => ?_
          rcases List.mem_append.mp hx with hx | hx
          · exact hold.buffered _ hx
          · obtain rfl := List.mem_singleton.mp hx
            exact hq
        exact hpushed
      · cases heq
  · obtain ⟨-, rfl⟩ := h
    exact hold

omit [DecidableEq Cmd] in
theorem send_hold {req : Request} {ok : Bool} (h : c.send iface req = some (ok, c'))
    (hreq : ∀ final, iface.requestTranslations req.type = some final → P req final)
    (hold : c.toQueues.Hold P) : c'.toQueues.Hold P := by
  obtain ⟨final, hfinal, h⟩ := Option.bind_eq_some_iff.mp h
  have hP := hreq final hfinal
  split at h
  · split at h
    · obtain ⟨-, rfl⟩ := Option.some.inj h
      exact hold.pending (q := { req, finalCommand := final, depart := c.clk + 1, seq := c.nextSeq })
        hP
    · exact enqueueTo_hold (Option.some.inj h) hP hold
  · exact enqueueTo_hold (Option.some.inj h) hP hold
  · cases h

omit [DecidableEq Cmd] in
theorem prioritySend_hold {req : Request} {ok : Bool} (h : c.prioritySend iface req = some (ok, c'))
    (hreq : ∀ final, iface.requestTranslations req.type = some final → P req final)
    (hold : c.toQueues.Hold P) : c'.toQueues.Hold P := by
  obtain ⟨final, hfinal, henqueue⟩ := Option.map_eq_some_iff.mp h
  exact enqueueTo_hold henqueue (hreq final hfinal) hold

/-- What is known of the requests that a call gives to a controller. -/
def Given (iface : IDRAM Dev Cmd) (P : Request → Cmd → Prop) (req : Request) : Prop :=
  ∀ final, iface.requestTranslations req.type = some final → P req final

omit [DecidableEq Cmd] in
/-- The rule for the plugins: what each `priority_send` keeps. -/
theorem pluginSends_induct {I : Queues Cmd → Prop} {plugins : List Request}
    (h : c.pluginSends iface plugins = some c')
    (hsend : ∀ req ∈ plugins, ∀ {c c' : GenericDRAMController Cmd} {ok : Bool},
      c.prioritySend iface req = some (ok, c') → I c.toQueues → I c'.toQueues)
    (hc : I c.toQueues) : I c'.toQueues := by
  induction plugins generalizing c with
  | nil =>
      obtain rfl := Option.some.inj h
      exact hc
  | cons req reqs ih =>
      obtain ⟨⟨ok, c₁⟩, hfirst, h⟩ := Option.bind_eq_some_iff.mp h
      obtain ⟨hreq, hreqs⟩ := List.forall_mem_cons.mp hsend
      exact ih h hreqs (hreq hfirst hc)

omit [DecidableEq Cmd] in
theorem pluginSends_hold {plugins : List Request} (h : c.pluginSends iface plugins = some c')
    (hplugins : ∀ req ∈ plugins, Given iface P req) (hold : c.toQueues.Hold P) :
    c'.toQueues.Hold P :=
  pluginSends_induct h (fun req hreq _ _ _ hsent => prioritySend_hold hsent (hplugins req hreq)) hold

variable (iface params) in
abbrev refreshOf (rank : Nat) : Request := (managerSetup iface params.toParams).request rank

omit [DecidableEq Cmd] in
theorem sendAll_induct {I : Queues Cmd → Prop} {ranks : List Nat} {sent : List Request}
    (h : (managerSetup iface params.toParams).sendAll (prioritySend iface) c ranks = some (c', sent))
    (hsend : ∀ (rank : Nat) {c c' : GenericDRAMController Cmd} {ok : Bool},
      c.prioritySend iface (refreshOf iface params rank) = some (ok, c') →
        I c.toQueues → I c'.toQueues)
    (hc : I c.toQueues) : I c'.toQueues := by
  induction ranks generalizing c sent with
  | nil =>
      obtain ⟨rfl, -⟩ := Prod.mk.inj (Option.some.inj h)
      exact hc
  | cons rank ranks ih =>
      obtain ⟨⟨ok, c₁⟩, hfirst, h⟩ := Option.bind_eq_some_iff.mp h
      dsimp only at h
      split at h
      · obtain ⟨⟨c₂, rest⟩, hrest, heq⟩ := Option.map_eq_some_iff.mp h
        obtain ⟨rfl, -⟩ := Prod.mk.inj heq
        exact ih hrest (hsend rank hfirst hc)
      · cases h

omit [DecidableEq Cmd] in
/-- The rule for what comes before scheduling: what the refreshes keep of the queues that the
callback leaves. -/
theorem prepare_induct {I : Queues Cmd → Prop} {called : List (Queued Cmd)}
    (h : c.prepare iface params = some (c', called))
    (hsend : ∀ (rank : Nat) {c c' : GenericDRAMController Cmd} {ok : Bool},
      c.prioritySend iface (refreshOf iface params rank) = some (ok, c') →
        I c.toQueues → I c'.toQueues)
    (hserved : I { c with clk := c.clk + 1 }.serveCompletedReads.1.toQueues) : I c'.toQueues := by
  obtain ⟨c₂, hrefreshed, heq⟩ := Option.map_eq_some_iff.mp h
  obtain ⟨rfl, -⟩ := Prod.mk.inj heq
  rcases refreshTick_cases hrefreshed with ⟨-, c₁, sent, hsent, hsame⟩ | ⟨-, hsame⟩
  · rw [hsame]
    exact sendAll_induct hsent hsend hserved
  · rw [hsame]
    exact hserved

omit [DecidableEq Cmd] in
theorem prepare_called {called : List (Queued Cmd)}
    (h : c.prepare iface params = some (c', called)) :
    { c with clk := c.clk + 1 }.serveCompletedReads.2 = called := by
  obtain ⟨c₂, -, heq⟩ := Option.map_eq_some_iff.mp h
  exact (Prod.mk.inj heq).2

omit [DecidableEq Cmd] in
theorem serveCompletedReads_cases (c : GenericDRAMController Cmd) :
    (∃ q rest, c.pendingReads = q :: rest ∧ q.depart ≤ c.clk ∧
      c.serveCompletedReads = ({ c with pendingReads := rest }, [q])) ∨
    c.serveCompletedReads = (c, []) := by
  unfold serveCompletedReads
  split
  · next q rest heq =>
      split
      · next hdone => exact .inl ⟨q, rest, heq, hdone, rfl⟩
      · exact .inr rfl
  · exact .inr rfl

omit [DecidableEq Cmd] in
theorem prepare_hold {called : List (Queued Cmd)} (h : c.prepare iface params = some (c', called))
    (hrefresh : ∀ rank, Given iface P (refreshOf iface params rank)) (hold : c.toQueues.Hold P) :
    c'.toQueues.Hold P := by
  refine prepare_induct h (fun rank _ _ _ hsent => prioritySend_hold hsent (hrefresh rank)) ?_
  refine hold.mono fun q hq => ⟨q, ?_, rfl, rfl⟩
  rcases { c with clk := c.clk + 1 }.serveCompletedReads_cases with
    ⟨head, rest, heq, -, hserved⟩ | hserved <;> rw [hserved] at hq
  · rcases Queues.mem_outstanding.mp hq with hq | hq | ⟨id, hq⟩
    · have heq : c.pendingReads = head :: rest := heq
      exact Queues.mem_outstanding.mpr (.inl (heq ▸ List.mem_cons_of_mem head hq))
    · exact Queues.mem_outstanding.mpr (.inr (.inl hq))
    · exact Queues.mem_outstanding.mpr (.inr (.inr ⟨id, by cases id <;> exact hq⟩))
  · exact hq

theorem moveIssued_hold {c : Queues Cmd} {s : Scheduled Cmd}
    (hs : P s.req.req s.req.finalCommand) (hold : c.Hold P) :
    (moveIssued iface params c s).Hold P := by
  unfold moveIssued
  split
  · dsimp only
    split
    · exact (hold.removeAt s.buffer s.index).pending
        (q := { s.req with depart := c.clk + params.readLatency }) hs
    · exact hold.removeAt s.buffer s.index
  · split
    · refine Queues.Hold.removeAt ?_ s.buffer s.index
      have hoffered : (c.setBuffer .active ((c.activeBuffer.enqueue s.req).getD c.activeBuffer)).Hold
          P := by
        refine hold.setBuffer fun q hq => ?_
        rw [enqueue_getD_buffer] at hq
        split at hq
        · rcases List.mem_append.mp hq with hq | hq
          · exact hold.buffered .active hq
          · obtain rfl := List.mem_singleton.mp hq
            exact hs
        · exact hold.buffered .active hq
      exact hoffered
    · exact hold

end

/-! ## The command of a tick -/

section

variable (iface : IDRAM Dev Cmd) (params : GenericParams)

def issued (c : GenericDRAMController Cmd) (dev : Dev) : Option (Cmd × AddrVec) :=
  (c.nextScheduled iface params dev).map fun s => (s.command, s.req.req.addrVec)

variable {iface params} {P : Request → Cmd → Prop} {c c' : GenericDRAMController Cmd}
  {dev dev' : Dev}

omit [DecidableEq Cmd] in
theorem nextScheduled_cases {s : Scheduled Cmd} (h : c.nextScheduled iface params dev = some s) :
    ∃ c₁ called, c.prepare iface params = some (c₁, called) ∧
      (c₁.scheduleRequest iface params dev).2 = some s := by
  obtain ⟨⟨c₁, called⟩, hprep, hsched⟩ := Option.bind_eq_some_iff.mp h
  exact ⟨c₁, called, hprep, hsched⟩

omit [DecidableEq Cmd] in
theorem scheduleRequest_command {s : Scheduled Cmd}
    (h : (c.scheduleRequest iface params dev).2 = some s) :
    s.command = iface.getPreqCommand dev s.req.finalCommand s.req.req.addrVec ∧
      iface.checkReady dev s.command s.req.req.addrVec = true := by
  have haim := (scheduleRequest_stands h).1
  rw [scheduleRequest_eq] at h
  exact (AiMDRAMController.scheduleRequest_picked iface h).command.resolve_left
    fun hbarrier => haim hbarrier.1

omit [DecidableEq Cmd] in
theorem issued_cases {cmd : Cmd} {addrVec : AddrVec}
    (h : c.issued iface params dev = some (cmd, addrVec))
    (hrefresh : ∀ rank, Given iface P (refreshOf iface params rank)) (hold : c.toQueues.Hold P) :
    ∃ req final, P req final ∧ addrVec = req.addrVec ∧
      cmd = iface.getPreqCommand dev final addrVec ∧ iface.checkReady dev cmd addrVec = true := by
  obtain ⟨s, hnext, heq⟩ := Option.map_eq_some_iff.mp h
  obtain ⟨rfl, rfl⟩ := Prod.mk.inj heq
  obtain ⟨c₁, called, hprep, hsched⟩ := nextScheduled_cases hnext
  obtain ⟨hcommand, hready⟩ := scheduleRequest_command hsched
  have hstands := List.mem_of_getElem? (scheduleRequest_stands hsched).2
  exact ⟨s.req.req, s.req.finalCommand, (prepare_hold hprep hrefresh hold).buffered _ hstands, rfl,
    hcommand, hready⟩

theorem tick_device {plugins : List Request} {called : List (Queued Cmd)}
    (h : c.tick iface params dev plugins = some (c', dev', called)) :
    dev' = (c.issued iface params dev).elim dev fun i => iface.issueCommand dev i.1 i.2 := by
  obtain ⟨⟨c₁, called₁⟩, hprep, h⟩ := Option.bind_eq_some_iff.mp h
  obtain ⟨c₂, -, heq⟩ := Option.map_eq_some_iff.mp h
  simp only [Prod.mk.injEq] at heq
  obtain ⟨-, rfl, -⟩ := heq
  unfold issued nextScheduled
  rw [hprep, Option.bind_some]
  dsimp only
  cases (c₁.scheduleRequest iface params dev).2 with
  | none => rfl
  | some s => rfl

theorem tick_hold {plugins : List Request} {called : List (Queued Cmd)}
    (h : c.tick iface params dev plugins = some (c', dev', called))
    (hplugins : ∀ req ∈ plugins, Given iface P req)
    (hrefresh : ∀ rank, Given iface P (refreshOf iface params rank)) (hold : c.toQueues.Hold P) :
    c'.toQueues.Hold P := by
  obtain ⟨⟨c₁, called₁⟩, hprep, h⟩ := Option.bind_eq_some_iff.mp h
  obtain ⟨c₂, hsent, heq⟩ := Option.map_eq_some_iff.mp h
  simp only [Prod.mk.injEq] at heq
  obtain ⟨rfl, -, -⟩ := heq
  have hold₁ := prepare_hold hprep hrefresh hold
  have hold₂ : c₂.toQueues.Hold P := by
    refine pluginSends_hold hsent hplugins ?_
    rw [scheduleRequest_toQueues]
    exact hold₁
  cases hsched : (c₁.scheduleRequest iface params dev).2 with
  | none => exact hold₂
  | some s =>
      have hstands := List.mem_of_getElem? (scheduleRequest_stands hsched).2
      exact moveIssued_hold (hold₁.buffered _ hstands) hold₂

end

end GenericDRAMController

end AimSimulator.Controller
