import AimSimulator.Lib.Runs
import AimSimulator.Dma.AiMDRAMSystem
/-!
# Runs of the AiM DMA

The DMA runs among controllers that change between its calls as they like and call back
each accepted blocking copy once.  Every call is a sequence of deliveries; the rules here
carry an invariant of the deliveries over the two loops of `tick`.
-/

namespace AimSimulator.Dma

/-- What can happen next: a call of the DMA, the callback of an accepted copy, or any
change of the controllers. -/
inductive Op (C : Type)
  | send (req : Request)
  | tick
  | receive (i : Nat)
  | controllers (ctls : Nat → C)

variable {C : Type} (p : SystemParams) (send : Request → C → Option (Bool × C))

def gddr6System : SystemParams := ⟨32, false, 4, 4⟩

def scripted (_ : Request) : List Bool → Option (Bool × List Bool)
  | [] => some (true, [])
  | answer :: answers => some (answer, answers)

namespace System

def step (s : System C) : Op C → Option (System C)
  | .send req => (s.send req).map (·.2)
  | .tick => s.tick p send
  | .receive i =>
      s.inFlight[i]?.bind fun copy =>
        { s with inFlight := s.inFlight.eraseIdx i }.receive copy
  | .controllers ctls => some { s with controllers := ctls }

/-- A front end cannot hand over the private callback of the DMA. -/
def HostCallback : Op C → Prop
  | .send req => req.callback ≠ .aimReceive
  | _ => True

/-- The states reached from a fresh DMA over some controllers. -/
abbrev Run (ctls : Nat → C) : System C → Prop :=
  Runs.Reachable (fun s => s = { controllers := ctls })
    (fun s op t => s.step p send op = some t) fun _ op => HostCallback op

def waiting (s : System C) : List Request :=
  (List.range maxChannelCount).flatMap s.dma.remaining

def Idle (s : System C) : Prop := s.dma.stalledAiMRequests = 0 ∧ s.waiting = []

instance (s : System C) : Decidable s.Idle := inferInstanceAs (Decidable (_ ∧ _))

/-- Only the channels in front of `MAX_CHANNEL_COUNT` have a retry queue. -/
def Bounded (s : System C) : Prop := ∀ channel, maxChannelCount ≤ channel →
  s.dma.remaining channel = []

variable {p send} {s s' : System C}

instance : (op : Op C) → Decidable (HostCallback op)
  | .send req => inferInstanceAs (Decidable (req.callback ≠ .aimReceive))
  | .tick | .receive _ | .controllers _ => inferInstanceAs (Decidable True)

theorem replay_run {ctls : Nat → C} {ops : List (Op C)}
    (h : Runs.replay (step p send) (fun _ op => decide (HostCallback op))
      { controllers := ctls } ops = some s) : Run p send ctls s :=
  Runs.replay_reachable (fun _ _ => of_decide_eq_true) (.start rfl) h

/-! ## One accepted host request -/

def push (req : Request) (s : System C) : System C :=
  { s with
    dma.requestQueue := s.dma.requestQueue ++ [req]
    log := s.log ++ [.enqueue req] }

theorem send_cases {req : Request} {ok : Bool} {t : System C}
    (h : s.send req = some (ok, t)) :
    ∃ u full rw aim, (u = s ∨ u = s.push req) ∧ t = { u with dma := { u.dma with
      numISRQueueFull := full
      numRWRequests := rw
      numAiMRequests := aim } } := by
  unfold send at h
  split at h
  · obtain ⟨-, rfl⟩ := Prod.mk.inj (Option.some.inj h)
    exact ⟨s, _, _, _, .inl rfl, rfl⟩
  · dsimp only at h
    split at h
    · obtain ⟨-, rfl⟩ := Prod.mk.inj (Option.some.inj h)
      exact ⟨s.push req, _, _, _, .inr rfl, rfl⟩
    · obtain ⟨-, rfl⟩ := Prod.mk.inj (Option.some.inj h)
      exact ⟨s.push req, _, _, _, .inr rfl, rfl⟩
    · obtain ⟨-, rfl⟩ := Prod.mk.inj (Option.some.inj h)
      exact ⟨s.push req, _, _, _, .inr rfl, rfl⟩
    · cases h

/-! ## One delivery -/

theorem deliver_eq_some {channel : Nat} {copy : Request} {ok : Bool}
    (h : s.deliver p send channel copy = some (ok, s')) :
    channel < p.numControllers ∧ ∃ c, send copy (s.controllers channel) = some (ok, c) ∧
      s' = { s with
        controllers := fun i => if i = channel then c else s.controllers i
        inFlight := if ok && copy.callback == .aimReceive then s.inFlight ++ [copy]
          else s.inFlight
        log := s.log ++ [.copy channel copy ok] } := by
  unfold deliver at h
  split at h
  · next hchannel =>
      obtain ⟨⟨ok', c⟩, hsend, heq⟩ := Option.map_eq_some_iff.mp h
      obtain ⟨rfl, rfl⟩ := Prod.mk.inj heq
      exact ⟨hchannel, c, hsend, rfl⟩
  · cases h

theorem mem_waiting {copy : Request} :
    copy ∈ s.waiting ↔ ∃ channel, channel < maxChannelCount ∧ copy ∈ s.dma.remaining channel := by
  simp [waiting]

theorem waiting_eq_nil (hbounded : s.Bounded) :
    s.waiting = [] ↔ ∀ channel, s.dma.remaining channel = [] := by
  constructor
  · intro h channel
    by_cases hchannel : channel < maxChannelCount
    · exact (List.flatMap_eq_nil_iff.mp h) channel (List.mem_range.mpr hchannel)
    · exact hbounded channel (Nat.le_of_not_lt hchannel)
  · intro h
    exact List.flatMap_eq_nil_iff.mpr fun channel _ => h channel

/-! ## The retry queues -/

section Retry

variable {I : System C → Prop}
  (hsent : ∀ s s' channel copy queue, I s → s.dma.remaining channel = copy :: queue →
    s.deliver p send channel copy = some (true, s') → I (s'.setRemaining channel queue))
  (hrefused : ∀ s s' channel copy queue, I s → s.dma.remaining channel = copy :: queue →
    s.deliver p send channel copy = some (false, s') → I s')

include hsent hrefused

theorem retryQueue_induct {channel : Nat} {queue : List Request} :
    ∀ {s s' : System C}, s.retryQueue p send channel queue = some s' →
      s.dma.remaining channel = queue → I s → I s' := by
  induction queue with
  | nil =>
      intro s s' h _ hI
      rw [← Option.some.inj h]
      exact hI
  | cons copy queue ih =>
      intro s s' h hqueue hI
      obtain ⟨⟨ok, t⟩, hdeliver, h⟩ := Option.bind_eq_some_iff.mp h
      dsimp only at h
      split at h
      · next hok =>
          subst hok
          exact ih h (by simp [setRemaining]) (hsent _ _ _ _ _ hI hqueue hdeliver)
      · next hok =>
          rw [Bool.not_eq_true] at hok
          subst hok
          rw [← Option.some.inj h]
          exact hrefused _ _ _ _ _ hI hqueue hdeliver

theorem retryChannels_induct {channels : List Nat} : ∀ {s s' : System C} {was isLeft : Bool},
    s.retryChannels p send channels = some (was, isLeft, s') → I s → I s' := by
  induction channels with
  | nil =>
      intro s s' was isLeft h hI
      simp only [retryChannels, Option.some.injEq, Prod.mk.injEq] at h
      rw [← h.2.2]
      exact hI
  | cons channel channels ih =>
      intro s s' was isLeft h hI
      obtain ⟨t, hretry, h⟩ := Option.bind_eq_some_iff.mp h
      obtain ⟨⟨was', isLeft', t'⟩, hrest, heq⟩ := Option.map_eq_some_iff.mp h
      simp only [Prod.mk.injEq] at heq
      rw [← heq.2.2]
      exact ih hrest (retryQueue_induct hsent hrefused hretry rfl hI)

end Retry

theorem retryQueue_remaining {channel : Nat} {queue : List Request} : ∀ {s s' : System C},
    s.retryQueue p send channel queue = some s' → ∀ other, other ≠ channel →
      s'.dma.remaining other = s.dma.remaining other := by
  induction queue with
  | nil =>
      intro s s' h other _
      rw [← Option.some.inj h]
  | cons copy queue ih =>
      intro s s' h other hother
      obtain ⟨⟨ok, t⟩, hdeliver, h⟩ := Option.bind_eq_some_iff.mp h
      obtain ⟨-, c, -, rfl⟩ := deliver_eq_some hdeliver
      dsimp only at h
      split at h
      · rw [ih h other hother]
        simp [setRemaining, hother]
      · rw [← Option.some.inj h]

/-- The two flags of the retry loop: whether a queue held copies before and after. -/
theorem retryChannels_flags {channels : List Nat} : ∀ {s s' : System C} {was isLeft : Bool},
    channels.Nodup → s.retryChannels p send channels = some (was, isLeft, s') →
      (was = true ↔ ∃ channel ∈ channels, s.dma.remaining channel ≠ []) ∧
      (isLeft = true ↔ ∃ channel ∈ channels, s'.dma.remaining channel ≠ []) ∧
      ∀ other, other ∉ channels → s'.dma.remaining other = s.dma.remaining other := by
  induction channels with
  | nil =>
      intro s s' was isLeft _ h
      simp only [retryChannels, Option.some.injEq, Prod.mk.injEq] at h
      obtain ⟨rfl, rfl, rfl⟩ := h
      simp
  | cons channel channels ih =>
      intro s s' was isLeft hnodup h
      obtain ⟨t, hretry, h⟩ := Option.bind_eq_some_iff.mp h
      obtain ⟨⟨was', isLeft', t'⟩, hrest, heq⟩ := Option.map_eq_some_iff.mp h
      simp only [Prod.mk.injEq] at heq
      obtain ⟨rfl, rfl, rfl⟩ := heq
      obtain ⟨hnew, hnodup⟩ := List.nodup_cons.mp hnodup
      obtain ⟨hwas, hleft, hsame⟩ := ih hnodup hrest
      have hother := retryQueue_remaining hretry
      have hne : ∀ other ∈ channels, other ≠ channel := fun other h heq => hnew (heq ▸ h)
      refine ⟨?_, ?_, ?_⟩
      · simp only [Bool.or_eq_true, Bool.not_eq_true', List.isEmpty_eq_false_iff, hwas,
          List.mem_cons, exists_eq_or_imp]
        refine or_congr Iff.rfl (exists_congr fun other => and_congr_right fun hmem => ?_)
        rw [hother other (hne other hmem)]
      · simp only [Bool.or_eq_true, Bool.not_eq_true', List.isEmpty_eq_false_iff, hleft,
          List.mem_cons, exists_eq_or_imp]
        rw [hsame channel hnew]
      · intro other hmem
        rw [List.mem_cons, not_or] at hmem
        rw [hsame other hmem.2, hother other hmem.1]

theorem retryChannels_nil {channels : List Nat} (h : ∀ channel, s.dma.remaining channel = []) :
    s.retryChannels p send channels = some (false, false, s) := by
  induction channels with
  | nil => rfl
  | cons channel channels ih => simp [retryChannels, retryQueue, h, ih]

/-! ## The copies of one host request -/

/-- What a copy that is sent leaves behind: it is in flight, or at the end of the retry
queue of its channel. -/
theorem sendCopy_eq_some {blocking ok : Bool} {channel : Nat} {copy : Request}
    (h : s.sendCopy p send blocking channel copy = some (ok, s')) :
    ∃ t, s.deliver p send channel { copy with aimReqId := s.dma.aimReqId } = some (ok, t) ∧
      (ok = false → channel < maxChannelCount) ∧
      s' = { t with dma := { s.dma with
        aimReqId := s.dma.aimReqId + 1
        stalledAiMRequests := s.dma.stalledAiMRequests + if blocking then 1 else 0
        remaining := fun i => if ok = false ∧ i = channel then
          s.dma.remaining channel ++ [{ copy with aimReqId := s.dma.aimReqId }]
            else s.dma.remaining i } } := by
  obtain ⟨⟨ok', t⟩, hdeliver, h⟩ := Option.bind_eq_some_iff.mp h
  obtain ⟨-, c, -, ht⟩ := deliver_eq_some hdeliver
  have hdma : t.dma = s.dma := by rw [ht]
  dsimp only at h
  split at h
  · next hok =>
      obtain ⟨rfl, rfl⟩ := Prod.mk.inj (Option.some.inj h)
      refine ⟨t, hok ▸ hdeliver, nofun, ?_⟩
      simp [hdma]
  · next hok =>
      split at h
      · next hchannel =>
          obtain ⟨rfl, rfl⟩ := Prod.mk.inj (Option.some.inj h)
          rw [Bool.not_eq_true] at hok
          refine ⟨t, hok ▸ hdeliver, fun _ => hchannel, ?_⟩
          simp [setRemaining, hdma]
      · cases h

theorem sendCopies_induct {I : System C → Prop} {blocking : Bool}
    {copies : List (Nat × Request)}
    (hcopy : ∀ s s' ok channel copy, (channel, copy) ∈ copies → I s →
      s.sendCopy p send blocking channel copy = some (ok, s') → I s') :
    ∀ {s s' : System C} {allSent : Bool},
      s.sendCopies p send blocking copies = some (allSent, s') → I s → I s' := by
  induction copies with
  | nil =>
      intro s s' allSent h hI
      obtain ⟨-, rfl⟩ := Prod.mk.inj (Option.some.inj h)
      exact hI
  | cons c copies ih =>
      intro s s' allSent h hI
      obtain ⟨channel, copy⟩ := c
      obtain ⟨⟨ok, t⟩, hone, h⟩ := Option.bind_eq_some_iff.mp h
      obtain ⟨⟨oks, t'⟩, hrest, heq⟩ := Option.map_eq_some_iff.mp h
      obtain ⟨-, rfl⟩ := Prod.mk.inj heq
      exact ih (fun s s' ok channel copy hmem => hcopy s s' ok channel copy
        (List.mem_cons_of_mem _ hmem)) hrest (hcopy _ _ _ _ _ (List.mem_cons_self ..) hI hone)

theorem waiting_ne_nil {channel : Nat} (hchannel : channel < maxChannelCount)
    (h : s.dma.remaining channel ≠ []) : s.waiting ≠ [] := fun hnil =>
  h (List.flatMap_eq_nil_iff.mp hnil channel (List.mem_range.mpr hchannel))

/-- The flag of the sending loop: without a refusal the retry queues are as before, and a
refused copy waits in one. -/
theorem sendCopies_allSent {blocking : Bool} {copies : List (Nat × Request)} :
    ∀ {s s' : System C} {allSent : Bool},
      s.sendCopies p send blocking copies = some (allSent, s') →
        (allSent = true → s'.dma.remaining = s.dma.remaining) ∧
        (allSent = false → s'.waiting ≠ []) := by
  induction copies with
  | nil =>
      intro s s' allSent h
      obtain ⟨rfl, rfl⟩ := Prod.mk.inj (Option.some.inj h)
      exact ⟨fun _ => rfl, nofun⟩
  | cons c copies ih =>
      intro s s' allSent h
      obtain ⟨channel, copy⟩ := c
      obtain ⟨⟨ok, t⟩, hone, h⟩ := Option.bind_eq_some_iff.mp h
      obtain ⟨⟨oks, t'⟩, hrest, heq⟩ := Option.map_eq_some_iff.mp h
      obtain ⟨rfl, rfl⟩ := Prod.mk.inj heq
      obtain ⟨u, -, hchannel, ht⟩ := sendCopy_eq_some hone
      obtain ⟨hsame, hwaits⟩ := ih hrest
      refine ⟨fun hall => ?_, fun hall => ?_⟩
      · obtain ⟨rfl, hoks⟩ := Bool.and_eq_true_iff.mp hall
        rw [hsame hoks, ht]
        simp
      · cases ok with
        | true => exact hwaits (by simpa using hall)
        | false =>
            -- later copies only extend the queue of the refused one
            refine waiting_ne_nil (hchannel rfl) (sendCopies_induct
              (I := fun s => s.dma.remaining channel ≠ []) ?_ hrest (by simp [ht]))
            intro s s' ok other copy _ hne h
            obtain ⟨u, -, -, rfl⟩ := sendCopy_eq_some h
            dsimp only
            split
            · simp
            · exact hne

/-! ## One tick -/

theorem retryChannels_dma {channels : List Nat} {was isLeft : Bool}
    (h : s.retryChannels p send channels = some (was, isLeft, s')) :
    s'.dma = { s.dma with remaining := s'.dma.remaining } := by
  refine retryChannels_induct (I := fun s' => s'.dma = { s.dma with
    remaining := s'.dma.remaining }) ?_ ?_ h rfl
  · intro u t channel copy queue hI _ hdeliver
    obtain ⟨-, c, -, rfl⟩ := deliver_eq_some hdeliver
    simp only [setRemaining]
    rw [hI]
  · intro u t channel copy queue hI _ hdeliver
    obtain ⟨-, c, -, rfl⟩ := deliver_eq_some hdeliver
    exact hI

/-- A tick retries the waiting copies; then it does nothing more, removes a host request
whose last copy was just accepted, or decodes the next one. -/
theorem tick_cases {t : System C} (hbounded : s.Bounded) (h : s.tick p send = some t) :
    ∃ u v, (∃ was isLeft, s.retryChannels p send (List.range maxChannelCount) =
        some (was, isLeft, u)) ∧ t = { v with dma.clk := v.dma.clk + 1 } ∧
      ((v = u ∧ (u.Idle ↔ s.Idle)) ∨
        (¬ s.Idle ∧ u.Idle ∧ u.popHead id = some v) ∨
        (s.Idle ∧ u = s ∧ ∃ host queue, s.dma.requestQueue = host :: queue ∧
          s.decodeHead p send host = some v)) := by
  obtain ⟨⟨was, isLeft, u⟩, hretry, h⟩ := Option.bind_eq_some_iff.mp h
  obtain ⟨v, hv, rfl⟩ := Option.map_eq_some_iff.mp h
  refine ⟨u, v, ⟨was, isLeft, hretry⟩, rfl, ?_⟩
  have hstalled : u.dma.stalledAiMRequests = s.dma.stalledAiMRequests := by
    rw [retryChannels_dma hretry]
  obtain ⟨hwas, hleft, -⟩ := retryChannels_flags List.nodup_range hretry
  have hwas : was = true ↔ s.waiting ≠ [] := by
    rw [hwas, waiting, Ne, List.flatMap_eq_nil_iff, Classical.not_forall]
    exact exists_congr fun channel => Classical.not_imp.symm
  have hleft : isLeft = true ↔ u.waiting ≠ [] := by
    rw [hleft, waiting, Ne, List.flatMap_eq_nil_iff, Classical.not_forall]
    exact exists_congr fun channel => Classical.not_imp.symm
  split at hv
  · next hzero =>
      split at hv
      · next hwas' =>
          have hbusy : ¬ s.Idle := fun hidle => hwas.mp hwas' hidle.2
          split at hv
          · next hleft' =>
              refine .inl ⟨(Option.some.inj hv).symm, ?_⟩
              exact iff_of_false (fun hidle => hleft.mp hleft' hidle.2) hbusy
          · next hleft' =>
              exact .inr (.inl ⟨hbusy, ⟨hzero, Classical.not_not.mp (mt hleft.mpr hleft')⟩, hv⟩)
      · next hwas' =>
          have hnil : s.waiting = [] := Classical.not_not.mp (mt hwas.mpr hwas')
          rw [retryChannels_nil ((waiting_eq_nil hbounded).mp hnil)] at hretry
          obtain ⟨-, -, rfl⟩ : false = was ∧ false = isLeft ∧ s = u := by
            simpa only [Option.some.injEq, Prod.mk.injEq] using hretry
          split at hv
          · exact .inl ⟨(Option.some.inj hv).symm, Iff.rfl⟩
          · next host queue hqueue =>
              exact .inr (.inr ⟨⟨hzero, hnil⟩, rfl, host, queue, hqueue, hv⟩)
  · next hzero =>
      refine .inl ⟨(Option.some.inj hv).symm, ?_⟩
      exact iff_of_false (fun hidle => hzero hidle.1) fun hidle => hzero (hstalled.trans hidle.1)

/-! ## The controllers and the copies they receive -/

def offeredTo (channel : Nat) (log : List HostEvent) : List Request :=
  log.filterMap fun
    | .copy k copy _ => if k = channel then some copy else none
    | _ => none

theorem offeredTo_append (channel : Nat) (log log' : List HostEvent) :
    offeredTo channel (log ++ log') = offeredTo channel log ++ offeredTo channel log' :=
  List.filterMap_append

theorem offeredTo_copy (channel k : Nat) (log : List HostEvent) (copy : Request) (ok : Bool) :
    offeredTo channel (log ++ [.copy k copy ok]) =
      offeredTo channel log ++ if k = channel then [copy] else [] := by
  rw [offeredTo_append]
  congr 1
  rw [offeredTo, List.filterMap_cons]
  split <;> simp_all

theorem popHead_offeredTo {arg : Request → Request} (h : s.popHead arg = some s')
    (channel : Nat) : offeredTo channel s'.log = offeredTo channel s.log := by
  unfold popHead at h
  split at h
  · cases h
  · rw [← Option.some.inj h]
    dsimp only
    rw [offeredTo_append, offeredTo_append]
    split <;> exact (List.append_nil _).trans (List.append_nil _)

theorem receive_frame {copy : Request} (h : s.receive copy = some s') :
    s'.inFlight = s.inFlight ∧ s'.controllers = s.controllers ∧
      ∀ channel, offeredTo channel s'.log = offeredTo channel s.log := by
  unfold receive at h
  split at h
  · cases h
  · split at h
    · cases h
    · dsimp only at h
      split at h
      · have hoffered := popHead_offeredTo h
        unfold popHead at h
        split at h
        · cases h
        · exact ⟨by rw [← Option.some.inj h], by rw [← Option.some.inj h], hoffered⟩
      · rw [← Option.some.inj h]
        exact ⟨rfl, rfl, fun _ => rfl⟩

section Delivered

variable {H : Request → Prop} {Q : Nat → Request → Prop} {G : Nat → C → Prop} {clk : Int}

/-- What holds of the host requests, of the controllers, and of the copies that wait for them,
at a clock. -/
structure Delivers (H : Request → Prop) (Q : Nat → Request → Prop) (G : Nat → C → Prop)
    (clk : Int) (s : System C) : Prop where
  clock : s.dma.clk = clk
  hosts : ∀ host ∈ s.dma.requestQueue, H host
  controllers : ∀ channel, G channel (s.controllers channel)
  waiting : ∀ channel, ∀ copy ∈ s.dma.remaining channel, Q channel copy

theorem Delivers.congr {t : System C} (hs : s.Delivers H Q G clk) (hclk : t.dma.clk = s.dma.clk)
    (hqueue : t.dma.requestQueue = s.dma.requestQueue)
    (hcontrollers : t.controllers = s.controllers)
    (hremaining : t.dma.remaining = s.dma.remaining) : t.Delivers H Q G clk :=
  ⟨hclk.trans hs.clock, hqueue ▸ hs.hosts, hcontrollers ▸ hs.controllers,
    hremaining ▸ hs.waiting⟩

theorem Delivers.now (hs : s.Delivers H Q G clk) : s.Delivers H Q G s.dma.clk :=
  ⟨rfl, hs.hosts, hs.controllers, hs.waiting⟩

theorem Delivers.host {req : Request} {ok : Bool} (hs : s.Delivers H Q G clk) (hreq : H req)
    (h : s.send req = some (ok, s')) : s'.Delivers H Q G clk := by
  obtain ⟨u, full, rw, aim, rfl | rfl, rfl⟩ := send_cases h
  · exact ⟨hs.clock, hs.hosts, hs.controllers, hs.waiting⟩
  · exact ⟨hs.clock, List.forall_mem_append.mpr ⟨hs.hosts, List.forall_mem_singleton.mpr hreq⟩,
      hs.controllers, hs.waiting⟩

variable (hsend : ∀ channel req ok c c', Q channel req → G channel c →
  send req c = some (ok, c') → G channel c')

include hsend

theorem Delivers.deliver {channel : Nat} {copy : Request} {ok : Bool} (hs : s.Delivers H Q G clk)
    (hcopy : Q channel copy) (h : s.deliver p send channel copy = some (ok, s')) :
    s'.Delivers H Q G clk := by
  obtain ⟨-, c, hsent, rfl⟩ := deliver_eq_some h
  refine ⟨hs.clock, hs.hosts, fun i => ?_, hs.waiting⟩
  dsimp only
  split
  · next hi =>
      subst hi
      exact hsend _ _ _ _ _ hcopy (hs.controllers _) hsent
  · exact hs.controllers i

omit hsend in
theorem Delivers.setRemaining {channel : Nat} {queue : List Request} (hs : s.Delivers H Q G clk)
    (hqueue : ∀ copy ∈ queue, Q channel copy) :
    (s.setRemaining channel queue).Delivers H Q G clk := by
  refine ⟨hs.clock, hs.hosts, hs.controllers, fun i copy hmem => ?_⟩
  unfold System.setRemaining at hmem
  dsimp only at hmem
  split at hmem
  · next hi => exact hi ▸ hqueue copy hmem
  · exact hs.waiting i copy hmem

theorem Delivers.retryChannels {channels : List Nat} {was isLeft : Bool} (hs : s.Delivers H Q G clk)
    (h : s.retryChannels p send channels = some (was, isLeft, s')) : s'.Delivers H Q G clk := by
  refine retryChannels_induct (I := fun s => s.Delivers H Q G clk) ?_ ?_ h hs
  · intro u t channel copy queue hu hqueue hdeliver
    have hwaiting := hu.waiting channel
    rw [hqueue] at hwaiting
    obtain ⟨hcopy, hrest⟩ := List.forall_mem_cons.mp hwaiting
    exact (hu.deliver hsend hcopy hdeliver).setRemaining hrest
  · intro u t channel copy queue hu hqueue hdeliver
    have hwaiting := hu.waiting channel
    rw [hqueue] at hwaiting
    exact hu.deliver hsend (List.forall_mem_cons.mp hwaiting).1 hdeliver

theorem Delivers.sendCopy {blocking ok : Bool} {channel : Nat} {copy : Request}
    (hs : s.Delivers H Q G clk) (hcopy : ∀ id, Q channel { copy with aimReqId := id })
    (h : s.sendCopy p send blocking channel copy = some (ok, s')) : s'.Delivers H Q G clk := by
  obtain ⟨t, hdeliver, -, rfl⟩ := sendCopy_eq_some h
  refine ⟨hs.clock, hs.hosts, (hs.deliver hsend (hcopy _) hdeliver).controllers,
    fun i copy' hmem => ?_⟩
  dsimp only at hmem
  split at hmem
  · next hrefused =>
      obtain ⟨-, rfl⟩ := hrefused
      rcases List.mem_append.mp hmem with hmem | hmem
      · exact hs.waiting i copy' hmem
      · exact List.mem_singleton.mp hmem ▸ hcopy _
  · exact hs.waiting i copy' hmem

omit hsend in
theorem Delivers.popHead {arg : Request → Request} (hs : s.Delivers H Q G clk)
    (h : s.popHead arg = some s') : s'.Delivers H Q G clk := by
  unfold System.popHead at h
  split at h
  · cases h
  · next host queue hqueue =>
      have hhosts := hs.hosts
      rw [hqueue] at hhosts
      rw [← Option.some.inj h]
      exact ⟨hs.clock, (List.forall_mem_cons.mp hhosts).2, hs.controllers, hs.waiting⟩

omit hsend in
theorem Delivers.receive {copy : Request} (hs : s.Delivers H Q G clk)
    (h : s.receive copy = some s') : s'.Delivers H Q G clk := by
  unfold System.receive at h
  split at h
  · cases h
  · split at h
    · cases h
    · have hcounted : Delivers H Q G clk
          { s with dma.stalledAiMRequests := s.dma.stalledAiMRequests - 1 } :=
        hs.congr rfl rfl rfl rfl
      dsimp only at h
      split at h
      · exact hcounted.popHead h
      · exact Option.some.inj h ▸ hcounted

theorem Delivers.tick
    (hdecode : ∀ cfrValues host d, H host → decode p cfrValues host = some d →
      ∀ c ∈ d.copies, ∀ id, Q c.1 { c.2 with aimReqId := id })
    (hs : s.Delivers H Q G clk) (h : s.tick p send = some s') : s'.Delivers H Q G (clk + 1) := by
  obtain ⟨⟨was, isLeft, u⟩, hretry, h⟩ := Option.bind_eq_some_iff.mp h
  obtain ⟨v, hv, rfl⟩ := Option.map_eq_some_iff.mp h
  have hu : u.Delivers H Q G clk := hs.retryChannels hsend hretry
  suffices hv' : v.Delivers H Q G clk from
    ⟨congrArg (· + 1) hv'.clock, hv'.hosts, hv'.controllers, hv'.waiting⟩
  split at hv
  · split at hv
    · split at hv
      · exact Option.some.inj hv ▸ hu
      · exact hu.popHead hv
    · split at hv
      · exact Option.some.inj hv ▸ hu
      · next host queue hqueue =>
          obtain ⟨d, hd, hv⟩ := Option.bind_eq_some_iff.mp hv
          obtain ⟨⟨allSent, t⟩, hsent, hv⟩ := Option.bind_eq_some_iff.mp hv
          have hhost : H host := hu.hosts host (hqueue ▸ List.mem_cons_self)
          have ht : t.Delivers H Q G clk := by
            refine sendCopies_induct (I := fun s => s.Delivers H Q G clk) ?_ hsent
              (hu.congr rfl rfl rfl rfl)
            intro s s' ok channel copy hmem hs hcopy
            exact hs.sendCopy hsend (hdecode _ _ _ hhost hd _ hmem) hcopy
          dsimp only at hv
          split at hv
          · exact ht.popHead hv
          · exact Option.some.inj hv ▸ ht
  · exact Option.some.inj hv ▸ hu

/-- What every delivery of a waiting copy preserves of the controllers, the copies in flight and
those that were offered, a tick preserves. -/
theorem Delivers.tick_with {J : System C → Prop}
    (hframe : ∀ s s' : System C, s'.controllers = s.controllers → s'.inFlight = s.inFlight →
      (∀ channel, offeredTo channel s'.log = offeredTo channel s.log) → J s → J s')
    (hdeliver : ∀ s s' channel copy ok, s.Delivers H Q G clk → Q channel copy → J s →
      s.deliver p send channel copy = some (ok, s') → J s')
    (hdecode : ∀ cfrValues host d, H host → decode p cfrValues host = some d →
      ∀ c ∈ d.copies, ∀ id, Q c.1 { c.2 with aimReqId := id })
    (hs : s.Delivers H Q G clk) (hJ : J s) (h : s.tick p send = some s') : J s' := by
  obtain ⟨⟨was, isLeft, u⟩, hretry, h⟩ := Option.bind_eq_some_iff.mp h
  obtain ⟨v, hv, rfl⟩ := Option.map_eq_some_iff.mp h
  have hhead : ∀ {s : System C} {channel copy queue}, s.Delivers H Q G clk →
      s.dma.remaining channel = copy :: queue → Q channel copy :=
    fun hs hqueue => hs.waiting _ _ (hqueue ▸ List.mem_cons_self)
  have hretried : u.Delivers H Q G clk ∧ J u := by
    refine ⟨hs.retryChannels hsend hretry, ?_⟩
    refine (retryChannels_induct (I := fun s => s.Delivers H Q G clk ∧ J s) ?_ ?_ hretry ⟨hs, hJ⟩).2
    · rintro s s' channel copy queue ⟨hs, hJ⟩ hqueue hone
      refine ⟨(hs.deliver hsend (hhead hs hqueue) hone).setRemaining fun c hc => ?_,
        hframe s' _ rfl rfl (fun _ => rfl) (hdeliver _ _ _ _ _ hs (hhead hs hqueue) hJ hone)⟩
      exact hs.waiting channel c (hqueue ▸ List.mem_cons_of_mem _ hc)
    · rintro s s' channel copy queue ⟨hs, hJ⟩ hqueue hone
      exact ⟨hs.deliver hsend (hhead hs hqueue) hone,
        hdeliver _ _ _ _ _ hs (hhead hs hqueue) hJ hone⟩
  have hpop : ∀ {s s' : System C} {arg}, J s → s.popHead arg = some s' → J s' := by
    intro s s' arg hJ h
    have hoffered := popHead_offeredTo h
    unfold System.popHead at h
    split at h
    · cases h
    · exact hframe _ _ (by rw [← Option.some.inj h]) (by rw [← Option.some.inj h]) hoffered hJ
  suffices hv : J v from hframe v _ rfl rfl (fun _ => rfl) hv
  split at hv
  · split at hv
    · split at hv
      · exact Option.some.inj hv ▸ hretried.2
      · exact hpop hretried.2 hv
    · split at hv
      · exact Option.some.inj hv ▸ hretried.2
      · next host queue hqueue =>
          obtain ⟨d, hd, hv⟩ := Option.bind_eq_some_iff.mp hv
          obtain ⟨⟨allSent, t⟩, hsent, hv⟩ := Option.bind_eq_some_iff.mp hv
          have hhost : H host := hretried.1.hosts host (hqueue ▸ List.mem_cons_self)
          have ht : t.Delivers H Q G clk ∧ J t := by
            refine sendCopies_induct (I := fun s => s.Delivers H Q G clk ∧ J s) ?_ hsent
              ⟨hretried.1.congr rfl rfl rfl rfl, hframe u _ rfl rfl
                (fun _ => (offeredTo_append ..).trans (List.append_nil _)) hretried.2⟩
            rintro s s' ok channel copy hmem ⟨hs, hJ⟩ hcopy
            refine ⟨hs.sendCopy hsend (hdecode _ _ _ hhost hd _ hmem) hcopy, ?_⟩
            obtain ⟨t, hone, -, rfl⟩ := sendCopy_eq_some hcopy
            exact hframe t _ rfl rfl (fun _ => rfl)
              (hdeliver _ _ _ _ _ hs (hdecode _ _ _ hhost hd _ hmem _) hJ hone)
          dsimp only at hv
          split at hv
          · exact hpop ht.2 hv
          · exact Option.some.inj hv ▸ ht.2
  · exact Option.some.inj hv ▸ hretried.2

end Delivered

end System

end AimSimulator.Dma
