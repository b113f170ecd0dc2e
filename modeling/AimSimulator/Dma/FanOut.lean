import Mathlib.Data.List.Nodup
import AimSimulator.Dram.GDDR6
import AimSimulator.Controller.AiMController
import AimSimulator.Dma.ChannelMask
import AimSimulator.Dma.Retirement
/-!
# Fan-out under back-pressure

A channel accepts the copies of the decoded host requests one host request after the
other and in the order of their columns.  A refused copy and the later ones of its channel
wait in the retry queue, because a controller that refuses a copy refuses the others like
it until it ticks.
-/

namespace AimSimulator.Dma

def tag (copy : Request) : Int × Int := (copy.hostReqId, copy.colAddr)

def taken (channel : Nat) (log : List HostEvent) : List (Int × Int) :=
  log.filterMap fun
    | .copy other copy true => if other = channel then some (tag copy) else none
    | _ => none

def refused (channel : Nat) (log : List HostEvent) : Nat :=
  log.countP fun
    | .copy other _ false => decide (other = channel)
    | _ => false

def decodedHosts (log : List HostEvent) : List Request :=
  log.filterMap fun
    | .decode host => some host
    | _ => none

def due (p : SystemParams) (channel : Nat) (host : Request) : List (Int × Int) :=
  match host.type, host.memAccessRegion with
  | .AIM, _ =>
      if isUnrolled host.opcode then
        (targetsOf host).filterMap fun (other, col) =>
          if other = channel then some (host.hostReqId, col) else none
      else if host.opcode.isBarrier ∧ channel < p.numControllers then [tag host]
      else []
  | .Read, .MEM | .Write, .MEM =>
      if (toInt32 host.channelMask).toNat = channel then [tag host] else []
  | _, _ => []

@[simp] theorem taken_append (channel : Nat) (log log' : List HostEvent) :
    taken channel (log ++ log') = taken channel log ++ taken channel log' :=
  List.filterMap_append

@[simp] theorem refused_append (channel : Nat) (log log' : List HostEvent) :
    refused channel (log ++ log') = refused channel log + refused channel log' :=
  List.countP_append

@[simp] theorem decodedHosts_append (log log' : List HostEvent) :
    decodedHosts (log ++ log') = decodedHosts log ++ decodedHosts log' := List.filterMap_append

@[simp] theorem taken_copy (channel other : Nat) (copy : Request) (ok : Bool) :
    taken channel [.copy other copy ok] =
      if ok = true ∧ other = channel then [tag copy] else [] := by
  cases ok <;> by_cases h : other = channel <;> simp [taken, h]

@[simp] theorem refused_copy (channel other : Nat) (copy : Request) (ok : Bool) :
    refused channel [.copy other copy ok] =
      if ok = false ∧ other = channel then 1 else 0 := by
  cases ok <;> by_cases h : other = channel <;> simp [refused, h]

/-! ## What is due of a host request -/

def tagsFor (channel : Nat) (copies : List (Nat × Request)) : List (Int × Int) :=
  copies.filterMap fun (other, copy) => if other = channel then some (tag copy) else none

variable {p : SystemParams} {cfrValues : CFR → Int} {host : Request} {d : Decoded}

theorem decodeMem_due {channel : Nat} (h : decodeMem p cfrValues host = some d) :
    tagsFor channel d.copies =
      if (toInt32 host.channelMask).toNat = channel then [tag host] else [] := by
  obtain ⟨copy, hcopy, rfl⟩ := Option.map_eq_some_iff.mp h
  obtain ⟨-, -, hzero, hsame⟩ := applyAddrMapp_eq_some hcopy
  have htag : tag copy = tag host := by
    rw [hsame]
    rfl
  dsimp only
  rw [hzero, ← htag]
  by_cases hchannel : (toInt32 host.channelMask).toNat = channel <;> simp [tagsFor, hchannel]

theorem tagsFor_barrier (channel n : Nat) (copy : Request) :
    tagsFor channel ((List.range n).map fun channel => (channel, copy)) =
      if channel < n then [tag copy] else [] := by
  induction n with
  | zero => rfl
  | succ n ih =>
      have happend : tagsFor channel ((List.range (n + 1)).map fun channel => (channel, copy)) =
          tagsFor channel ((List.range n).map fun channel => (channel, copy)) ++
            tagsFor channel [(n, copy)] := by
        rw [List.range_succ, List.map_append]
        exact List.filterMap_append
      rw [happend, ih]
      rcases Nat.lt_trichotomy channel n with h | h | h
      · simp [tagsFor, h, show channel < n + 1 by omega, show n ≠ channel by omega]
      · simp [tagsFor, h]
      · simp [tagsFor, show ¬ channel < n by omega, show ¬ channel < n + 1 by omega,
          show n ≠ channel by omega]

theorem decode_due {channel : Nat} (h : decode p cfrValues host = some d) :
    tagsFor channel d.copies = due p channel host := by
  have hid := fun c hc => (decode_copy (c := c) h hc).hostReqId
  unfold decode at h
  unfold due
  split at h
  · next htype =>
      simp only [htype]
      split
      · next hop =>
          have hdecode : decode p cfrValues host = some d := by
            rw [decode, htype]
            exact h
          have htargets := decode_targets htype hop hdecode
          rw [← htargets, List.filterMap_map]
          refine List.filterMap_congr fun c hc => ?_
          simp only [Function.comp_apply, tag, hid c hc]
      · next hop =>
          rw [decodeAiM, if_neg hop] at h
          split at h
          · cases h
          · next hsync =>
              rw [← Option.some.inj h]
              exact (tagsFor_barrier ..).trans (by simp [Opcode.isBarrier, hsync, tag])
          · next heoc =>
              rw [← Option.some.inj h]
              exact (tagsFor_barrier ..).trans (by simp [Opcode.isBarrier, heoc, tag])
          · next hsync heoc =>
              rw [← Option.some.inj h, if_neg]
              · rfl
              · rintro ⟨hbarrier, -⟩
                rw [Opcode.isBarrier, Bool.or_eq_true, beq_iff_eq, beq_iff_eq] at hbarrier
                exact hbarrier.elim heoc hsync
  · next htype hregion =>
      rw [← Option.some.inj h, htype, hregion]
      rfl
  · next htype hregion =>
      rw [← Option.some.inj h, htype, hregion]
      rfl
  · next htype hregion =>
      rw [decodeMem_due h, htype, hregion]
  · next htype hregion =>
      obtain ⟨cfr, -, rfl⟩ := Option.map_eq_some_iff.mp h
      rw [htype, hregion]
      rfl
  · next htype hregion =>
      rw [← Option.some.inj h, htype, hregion]
      rfl
  · next htype hregion =>
      rw [decodeMem_due h, htype, hregion]
  · cases h

/-! ## Controllers that keep refusing -/

/-- Requests that a controller does not tell apart when it accepts or refuses. -/
def Alike (copy copy' : Request) : Prop := copy.type = copy'.type ∧ copy.addr = copy'.addr

theorem decode_alike (h : decode p cfrValues host = some d) :
    ∃ like, ∀ c ∈ d.copies, Alike like c.2 := by
  have hmem : ∀ {d : Decoded}, decodeMem p cfrValues host = some d →
      ∃ like, ∀ c ∈ d.copies, Alike like c.2 := by
    intro d h
    obtain ⟨copy, -, rfl⟩ := Option.map_eq_some_iff.mp h
    refine ⟨copy, fun c hc => ?_⟩
    rw [List.mem_singleton.mp hc]
    exact ⟨rfl, rfl⟩
  have hnone : ∀ {arg : Request} {values : CFR → Int},
      some { arg, cfrValues := values } = some d → ∃ like, ∀ c ∈ d.copies, Alike like c.2 := by
    intro arg values h
    rw [← Option.some.inj h]
    exact ⟨host, fun c hc => (List.not_mem_nil hc).elim⟩
  unfold decode at h
  split at h
  · unfold decodeAiM at h
    split at h
    · obtain ⟨isr, -, h⟩ := Option.bind_eq_some_iff.mp h
      split at h
      · cases h
      · obtain ⟨copies, hcopies, rfl⟩ := Option.map_eq_some_iff.mp h
        refine ⟨unrolledRequest cfrValues host isr, fun c hc => ?_⟩
        obtain ⟨-, -, hsame⟩ := unroll_copy hcopies hc
        rw [hsame]
        exact ⟨rfl, rfl⟩
    · have hbarrier : ∀ {d : Decoded}, d.copies = (List.range p.numControllers).map
          (fun channel => (channel, { host with callback := .aimReceive })) →
            ∃ like, ∀ c ∈ d.copies, Alike like c.2 := by
        intro d hcopies
        refine ⟨host, fun c hc => ?_⟩
        rw [hcopies] at hc
        obtain ⟨channel, -, rfl⟩ := List.mem_map.mp hc
        exact ⟨rfl, rfl⟩
      split at h
      · cases h
      · exact hbarrier (by rw [← Option.some.inj h])
      · exact hbarrier (by rw [← Option.some.inj h])
      · exact hnone h
  · exact hnone h
  · exact hnone h
  · exact hmem h
  · obtain ⟨cfr, -, h⟩ := Option.map_eq_some_iff.mp h
    exact hnone (congrArg some h)
  · exact hnone h
  · exact hmem h
  · cases h

variable {C : Type} {send : Request → C → Option (Bool × C)}

def Refuses (send : Request → C → Option (Bool × C)) (like : Request) (c : C) : Prop :=
  ∀ copy ok c', Alike like copy → send copy c = some (ok, c') → ok = false

/-- A controller that refused a copy refuses everything alike. -/
def Sticky (send : Request → C → Option (Bool × C)) : Prop :=
  ∀ copy c c', send copy c = some (false, c') → Refuses send copy c'

theorem Refuses.of_alike {like copy : Request} {c : C} (h : Refuses send copy c)
    (halike : Alike like copy) : Refuses send like c := by
  intro copy' ok c' hlike hsend
  exact h copy' ok c' ⟨halike.1.symm.trans hlike.1, halike.2.symm.trans hlike.2⟩ hsend

namespace System

variable {s t : System C}

def takenAndWaiting (channel : Nat) (s : System C) : List (Int × Int) :=
  taken channel s.log ++ (s.dma.remaining channel).map tag

/-- The copies of one host request join what their channels accepted or what waits there,
in their order. -/
theorem sendCopies_takenAndWaiting (hsticky : Sticky send) {blocking : Bool} {like : Request}
    {copies : List (Nat × Request)} (halike : ∀ c ∈ copies, Alike like c.2) :
    ∀ {s t : System C} {allSent : Bool},
      s.sendCopies p send blocking copies = some (allSent, t) →
      (∀ channel, s.dma.remaining channel ≠ [] → Refuses send like (s.controllers channel)) →
      ∀ channel, t.takenAndWaiting channel =
        s.takenAndWaiting channel ++ tagsFor channel copies := by
  induction copies with
  | nil =>
      intro s t allSent h _ channel
      obtain ⟨-, rfl⟩ := Prod.mk.inj (Option.some.inj h)
      exact (List.append_nil _).symm
  | cons c copies ih =>
      intro s t allSent h hrefuses channel
      obtain ⟨other, copy⟩ := c
      obtain ⟨⟨ok, u⟩, hone, h⟩ := Option.bind_eq_some_iff.mp h
      obtain ⟨⟨oks, t'⟩, hrest, heq⟩ := Option.map_eq_some_iff.mp h
      obtain ⟨-, rfl⟩ := Prod.mk.inj heq
      obtain ⟨v, hdeliver, -, rfl⟩ := sendCopy_eq_some hone
      obtain ⟨-, c, hsend, rfl⟩ := deliver_eq_some hdeliver
      have hlike : Alike like { copy with aimReqId := s.dma.aimReqId } :=
        halike _ (List.mem_cons_self ..)
      have htags : tagsFor channel ((other, copy) :: copies) =
          (if other = channel then [tag copy] else []) ++ tagsFor channel copies := by
        by_cases hother : other = channel <;> simp [tagsFor, hother]
      have hempty : ok = true → s.dma.remaining other = [] := by
        intro hok
        refine Classical.byContradiction fun hne => ?_
        have hfalse := hrefuses other hne _ _ _ hlike hsend
        rw [hok] at hfalse
        cases hfalse
      rw [ih (fun c hc => halike c (List.mem_cons_of_mem _ hc)) hrest ?_ channel, htags,
        ← List.append_assoc]
      · congr 1
        by_cases hother : other = channel
        · subst hother
          cases ok with
          | true => simp [takenAndWaiting, hempty rfl, tag]
          | false => simp [takenAndWaiting, tag]
        · have hother' : ¬ channel = other := fun heq => hother heq.symm
          simp [takenAndWaiting, hother, hother']
      · intro i hi
        dsimp only at hi ⊢
        by_cases hother : i = other
        · rw [if_pos hother]
          subst hother
          cases ok with
          | true => exact absurd (hempty rfl) (by simpa using hi)
          | false => exact (hsticky _ _ _ hsend).of_alike hlike
        · rw [if_neg hother]
          exact hrefuses i (by simpa [hother] using hi)

theorem retryChannels_takenAndWaiting {channels : List Nat} {was isLeft : Bool}
    (h : s.retryChannels p send channels = some (was, isLeft, t)) (channel : Nat) :
    t.takenAndWaiting channel = s.takenAndWaiting channel ∧
      decodedHosts t.log = decodedHosts s.log := by
  refine retryChannels_induct (I := fun t => t.takenAndWaiting channel =
    s.takenAndWaiting channel ∧ decodedHosts t.log = decodedHosts s.log) ?_ ?_ h ⟨rfl, rfl⟩
  · rintro u v other copy queue ⟨hI, hhosts⟩ hqueue hdeliver
    obtain ⟨-, c, -, rfl⟩ := deliver_eq_some hdeliver
    rw [← hI, ← hhosts]
    refine ⟨?_, by simp [setRemaining, decodedHosts]⟩
    by_cases hother : other = channel
    · subst hother
      simp [takenAndWaiting, setRemaining, hqueue]
    · have hother' : ¬ channel = other := fun heq => hother heq.symm
      simp [takenAndWaiting, setRemaining, hother, hother']
  · rintro u v other copy queue ⟨hI, hhosts⟩ - hdeliver
    obtain ⟨-, c, -, rfl⟩ := deliver_eq_some hdeliver
    rw [← hI, ← hhosts]
    exact ⟨by simp [takenAndWaiting], by simp [decodedHosts]⟩

end System

/-! ## All copies before the next host request -/

/-- Every channel accepted all that it is due of the decoded host requests. -/
def Settled (p : SystemParams) (log : List HostEvent) : Prop :=
  ∀ channel, taken channel log = (decodedHosts log).flatMap (due p channel)

def HostEvent.isMilestone : HostEvent → Bool
  | .decode _ | .remove _ => true
  | _ => false

/-- Host requests were decoded and removed only when all was settled. -/
def Orderly (p : SystemParams) (log : List HostEvent) : Prop :=
  ∀ before event after, log = before ++ event :: after → event.isMilestone = true →
    Settled p before

theorem Orderly.concat {log : List HostEvent} {event : HostEvent} (h : Orderly p log)
    (hsettled : event.isMilestone = true → Settled p log) : Orderly p (log ++ [event]) := by
  intro before event' after heq hmilestone
  rcases List.eq_nil_or_concat after with rfl | ⟨after', last, rfl⟩
  · obtain ⟨rfl, hevent⟩ := List.append_inj' heq rfl
    rw [← (List.cons.inj hevent).1] at hmilestone
    exact hsettled hmilestone
  · rw [List.concat_eq_append, ← List.cons_append, ← List.append_assoc] at heq
    obtain ⟨heq, -⟩ := List.append_inj' heq rfl
    exact h _ _ _ heq hmilestone

namespace System

variable {s t : System C}

/-- The copies that were accepted and those that wait are what the channels are due. -/
structure FanOut (p : SystemParams) (s : System C) : Prop where
  due : ∀ channel, s.takenAndWaiting channel = (decodedHosts s.log).flatMap (due p channel)
  orderly : Orderly p s.log

theorem FanOut.settled (h : FanOut p s) (hnil : ∀ channel, s.dma.remaining channel = []) :
    Settled p s.log := by
  intro channel
  rw [← h.due channel, takenAndWaiting, hnil channel, List.map_nil, List.append_nil]

theorem retryChannels_orderly {channels : List Nat} {was isLeft : Bool}
    (h : s.retryChannels p send channels = some (was, isLeft, t)) (horderly : Orderly p s.log) :
    Orderly p t.log := by
  refine retryChannels_induct (I := fun t => Orderly p t.log) ?_ ?_ h horderly
  · intro u v channel copy queue hI _ hdeliver
    obtain ⟨-, c, -, rfl⟩ := deliver_eq_some hdeliver
    exact hI.concat nofun
  · intro u v channel copy queue hI _ hdeliver
    obtain ⟨-, c, -, rfl⟩ := deliver_eq_some hdeliver
    exact hI.concat nofun

theorem sendCopies_orderly {blocking allSent : Bool} {copies : List (Nat × Request)}
    (h : s.sendCopies p send blocking copies = some (allSent, t)) (horderly : Orderly p s.log) :
    Orderly p t.log ∧ decodedHosts t.log = decodedHosts s.log := by
  refine sendCopies_induct (I := fun t => Orderly p t.log ∧
    decodedHosts t.log = decodedHosts s.log) ?_ h ⟨horderly, rfl⟩
  rintro u v ok channel copy - ⟨hI, hhosts⟩ hone
  obtain ⟨w, hdeliver, -, rfl⟩ := sendCopy_eq_some hone
  obtain ⟨-, c, -, rfl⟩ := deliver_eq_some hdeliver
  rw [← hhosts]
  exact ⟨hI.concat nofun, by simp [decodedHosts]⟩

theorem popHead_fanOut {arg : Request → Request} (h : FanOut p s)
    (hnil : ∀ channel, s.dma.remaining channel = []) (hpop : s.popHead arg = some t) :
    FanOut p t := by
  have hsettled := h.settled hnil
  unfold popHead at hpop
  split at hpop
  · cases hpop
  · next host queue hqueue =>
      rw [← Option.some.inj hpop]
      refine ⟨fun channel => ?_, ?_⟩
      · rw [takenAndWaiting, hnil channel]
        have hdue := hsettled channel
        dsimp only
        split <;> simpa [taken, decodedHosts] using hdue
      · dsimp only
        split
        · rw [List.append_nil]
          exact h.orderly.concat fun _ => hsettled
        · have hcalled : Orderly p (s.log ++ [.callback host (arg host)]) :=
            h.orderly.concat nofun
          refine hcalled.concat fun _ channel => ?_
          simpa [taken, decodedHosts] using hsettled channel

theorem decodeHead_fanOut (hsticky : Sticky send) {host : Request} (h : FanOut p s)
    (hnil : ∀ channel, s.dma.remaining channel = [])
    (hdecode : s.decodeHead p send host = some t) : FanOut p t := by
  obtain ⟨d, hd, hdecode⟩ := Option.bind_eq_some_iff.mp hdecode
  obtain ⟨⟨allSent, u⟩, hsend, hdecode⟩ := Option.bind_eq_some_iff.mp hdecode
  obtain ⟨like, halike⟩ := decode_alike hd
  have hstart : Orderly p (s.log ++ [HostEvent.decode host]) :=
    h.orderly.concat fun _ => h.settled hnil
  have htaken := sendCopies_takenAndWaiting hsticky halike hsend
    (fun channel hne => absurd (hnil channel) hne)
  obtain ⟨horderly, hhosts⟩ := sendCopies_orderly hsend hstart
  have hall := (sendCopies_allSent hsend).1
  have hsent : FanOut p u := by
    refine ⟨fun channel => ?_, horderly⟩
    rw [htaken channel, hhosts, decode_due hd]
    have hdue := h.due channel
    simp only [takenAndWaiting, taken_append, decodedHosts_append, List.flatMap_append] at hdue ⊢
    rw [← hdue]
    simp [taken, decodedHosts, hnil channel]
  dsimp only at hdecode
  split at hdecode
  · next hdone =>
      refine popHead_fanOut hsent (fun channel => ?_) hdecode
      rw [hall hdone.2]
      exact hnil channel
  · rw [← Option.some.inj hdecode]
    exact hsent

theorem tick_fanOut (hsticky : Sticky send) (hbounded : s.Bounded) (h : FanOut p s)
    (htick : s.tick p send = some t) : FanOut p t := by
  obtain ⟨u, v, ⟨was, isLeft, hretry⟩, rfl, hcases⟩ := tick_cases hbounded htick
  suffices hfan : FanOut p v from ⟨hfan.due, hfan.orderly⟩
  have hu : FanOut p u := by
    refine ⟨fun channel => ?_, retryChannels_orderly hretry h.orderly⟩
    obtain ⟨htaken, hhosts⟩ := retryChannels_takenAndWaiting hretry channel
    rw [htaken, hhosts]
    exact h.due channel
  have hubounded : u.Bounded := by
    intro channel hchannel
    obtain ⟨-, -, hsame⟩ := retryChannels_flags List.nodup_range hretry
    rw [hsame channel (by simpa using hchannel)]
    exact hbounded channel hchannel
  rcases hcases with ⟨rfl, -⟩ | ⟨-, hidle, hpop⟩ | ⟨hidle, rfl, host, queue, -, hv⟩
  · exact hu
  · exact popHead_fanOut hu ((waiting_eq_nil hubounded).mp hidle.2) hpop
  · exact decodeHead_fanOut hsticky hu ((waiting_eq_nil hbounded).mp hidle.2) hv

theorem receive_fanOut {i : Nat} {copy : Request} (hretiring : Retiring s) (h : FanOut p s)
    (hi : s.inFlight[i]? = some copy)
    (hreceive : { s with inFlight := s.inFlight.eraseIdx i }.receive copy = some t) :
    FanOut p t := by
  obtain ⟨b, hdelivering⟩ := hretiring.delivering
  have hmem : copy ∈ s.inFlight := List.mem_of_getElem? hi
  obtain ⟨host, queue, hqueue, hid⟩ := hdelivering.owner copy (.inl hmem)
  rw [receive_of_head (s := { s with inFlight := s.inFlight.eraseIdx i }) hqueue hid] at hreceive
  split at hreceive
  · next hlast =>
      have hwaiting := hdelivering.waiting_of_last hmem hlast
      refine popHead_fanOut (s := { s with
        inFlight := s.inFlight.eraseIdx i
        dma.stalledAiMRequests := s.dma.stalledAiMRequests - 1 }) ⟨h.due, h.orderly⟩ ?_ hreceive
      exact (waiting_eq_nil hdelivering.bounded).mp hwaiting
  · rw [← Option.some.inj hreceive]
    exact ⟨h.due, h.orderly⟩

theorem send_fanOut {req : Request} {ok : Bool} (h : FanOut p s)
    (hsend : s.send req = some (ok, t)) : FanOut p t := by
  obtain ⟨u, full, rw, aim, rfl | rfl, rfl⟩ := send_cases hsend
  · exact ⟨h.due, h.orderly⟩
  · refine ⟨fun channel => ?_, h.orderly.concat nofun⟩
    simpa [push, taken, decodedHosts, takenAndWaiting] using h.due channel

theorem run_fanOut (hsticky : Sticky send) {ctls : Nat → C} (hr : Run p send ctls s) :
    FanOut p s := by
  refine hr.invariant_with (fun _ => run_retiring) ?_ ?_
  · rintro s rfl
    refine ⟨fun _ => rfl, fun before event after heq => ?_⟩
    simp at heq
  · intro s op t hretiring _ h _ hstep
    cases op with
    | send req =>
        obtain ⟨⟨ok, t⟩, hsend, rfl⟩ := Option.map_eq_some_iff.mp hstep
        exact send_fanOut h hsend
    | tick =>
        obtain ⟨b, hdelivering⟩ := hretiring.delivering
        exact tick_fanOut hsticky hdelivering.bounded h hstep
    | receive i =>
        obtain ⟨copy, hi, hreceive⟩ := Option.bind_eq_some_iff.mp hstep
        exact receive_fanOut hretiring h hi hreceive
    | controllers ctls =>
        rw [← Option.some.inj hstep]
        exact ⟨h.due, h.orderly⟩

/-! ## A tick without refusals -/

/-- A retry queue is empty afterwards, unless its channel refused. -/
theorem retryQueue_refused {channel : Nat} {queue : List Request} : ∀ {s t : System C},
    s.retryQueue p send channel queue = some t → s.dma.remaining channel = queue →
      (t.dma.remaining channel = [] ∨ refused channel s.log < refused channel t.log) ∧
      ∀ other, refused other s.log ≤ refused other t.log := by
  induction queue with
  | nil =>
      intro s t h hqueue
      rw [← Option.some.inj h]
      exact ⟨.inl hqueue, fun _ => Nat.le_refl _⟩
  | cons copy queue ih =>
      intro s t h hqueue
      obtain ⟨⟨ok, u⟩, hdeliver, h⟩ := Option.bind_eq_some_iff.mp h
      obtain ⟨-, c, -, rfl⟩ := deliver_eq_some hdeliver
      dsimp only at h
      split at h
      · obtain ⟨hdone, hmono⟩ := ih h (by simp [setRemaining])
        simp only [setRemaining, refused_append] at hdone hmono
        refine ⟨hdone.imp_right fun hlt => by omega, fun other => ?_⟩
        have := hmono other
        omega
      · next hok =>
          rw [Bool.not_eq_true] at hok
          rw [← Option.some.inj h, hok]
          exact ⟨.inr (by simp), fun other => by simp⟩

theorem retryChannels_refused {channels : List Nat} : ∀ {s t : System C} {was isLeft : Bool},
    channels.Nodup → s.retryChannels p send channels = some (was, isLeft, t) →
      (∀ channel ∈ channels, t.dma.remaining channel = [] ∨
        refused channel s.log < refused channel t.log) ∧
      ∀ other, refused other s.log ≤ refused other t.log := by
  induction channels with
  | nil =>
      intro s t was isLeft _ h
      simp only [retryChannels, Option.some.injEq, Prod.mk.injEq] at h
      rw [← h.2.2]
      exact ⟨fun _ hmem => (List.not_mem_nil hmem).elim, fun _ => Nat.le_refl _⟩
  | cons channel channels ih =>
      intro s t was isLeft hnodup h
      obtain ⟨u, hretry, h⟩ := Option.bind_eq_some_iff.mp h
      obtain ⟨⟨was', isLeft', t'⟩, hrest, heq⟩ := Option.map_eq_some_iff.mp h
      simp only [Prod.mk.injEq] at heq
      obtain ⟨-, -, rfl⟩ := heq
      obtain ⟨hnew, hrestNodup⟩ := List.nodup_cons.mp hnodup
      obtain ⟨hone, hmono⟩ := retryQueue_refused hretry rfl
      obtain ⟨hall, hmono'⟩ := ih hrestNodup hrest
      refine ⟨fun other hmem => ?_, fun other => Nat.le_trans (hmono other) (hmono' other)⟩
      rcases List.mem_cons.mp hmem with rfl | hmem
      · obtain ⟨-, -, hsame⟩ := retryChannels_flags hrestNodup hrest
        rw [hsame other hnew]
        exact hone.imp_right fun hlt => Nat.lt_of_lt_of_le hlt (hmono' other)
      · exact (hall other hmem).imp_right fun hlt => Nat.lt_of_le_of_lt (hmono other) hlt

theorem sendCopies_refused {blocking allSent : Bool} {copies : List (Nat × Request)}
    {channel : Nat} (h : s.sendCopies p send blocking copies = some (allSent, t))
    (hnil : s.dma.remaining channel = []) :
    t.dma.remaining channel = [] ∨ refused channel s.log < refused channel t.log := by
  have hI := sendCopies_induct (I := fun t => refused channel s.log ≤ refused channel t.log ∧
    (t.dma.remaining channel = [] ∨ refused channel s.log < refused channel t.log)) ?_ h
      ⟨Nat.le_refl _, .inl hnil⟩
  · exact hI.2
  · rintro u v ok other copy - ⟨hle, hI⟩ hone
    obtain ⟨w, hdeliver, -, rfl⟩ := sendCopy_eq_some hone
    obtain ⟨-, c, -, rfl⟩ := deliver_eq_some hdeliver
    dsimp only
    rw [refused_append, refused_copy]
    by_cases hrefused : ok = false ∧ other = channel
    · rw [if_pos hrefused]
      exact ⟨by omega, .inr (by omega)⟩
    · rw [if_neg hrefused]
      refine ⟨by omega, hI.imp (fun hempty => ?_) fun hlt => by omega⟩
      rw [if_neg fun h => hrefused ⟨h.1, h.2.symm⟩]
      exact hempty

theorem popHead_remaining {arg : Request → Request} (h : s.popHead arg = some t)
    (channel : Nat) : t.dma.remaining = s.dma.remaining ∧
      refused channel t.log = refused channel s.log := by
  unfold popHead at h
  split at h
  · cases h
  · next host queue _ =>
      rw [← Option.some.inj h]
      refine ⟨rfl, ?_⟩
      dsimp only
      split <;> simp [refused]

theorem tick_unrefused (hbounded : s.Bounded) (htick : s.tick p send = some t) {channel : Nat}
    (hnone : refused channel t.log = refused channel s.log) : t.dma.remaining channel = [] := by
  obtain ⟨u, v, ⟨was, isLeft, hretry⟩, rfl, hcases⟩ := tick_cases hbounded htick
  obtain ⟨hretried, hmono⟩ := retryChannels_refused List.nodup_range hretry
  obtain ⟨-, -, hsame⟩ := retryChannels_flags List.nodup_range hretry
  have hu : u.dma.remaining channel = [] ∨ refused channel s.log < refused channel u.log := by
    by_cases hchannel : channel < maxChannelCount
    · exact hretried channel (List.mem_range.mpr hchannel)
    · rw [hsame channel (by simpa using hchannel)]
      exact .inl (hbounded channel (Nat.le_of_not_lt hchannel))
  have hv : v.dma.remaining channel = [] ∨ refused channel s.log < refused channel v.log := by
    rcases hcases with ⟨rfl, -⟩ | ⟨-, -, hpop⟩ | ⟨hidle, rfl, host, queue, -, hv⟩
    · exact hu
    · obtain ⟨hremaining, hrefused⟩ := popHead_remaining hpop channel
      rw [hremaining, hrefused]
      exact hu
    · obtain ⟨d, hd, hv⟩ := Option.bind_eq_some_iff.mp hv
      obtain ⟨⟨allSent, w⟩, hsend, hv⟩ := Option.bind_eq_some_iff.mp hv
      have hw := sendCopies_refused hsend ((waiting_eq_nil hbounded).mp hidle.2 channel)
      have hlog : refused channel (u.log ++ [.decode host]) = refused channel u.log := by
        simp [refused]
      dsimp only at hw hv
      rw [hlog] at hw
      split at hv
      · obtain ⟨hremaining, hrefused⟩ := popHead_remaining hv channel
        rw [hremaining, hrefused]
        exact hw
      · rw [← Option.some.inj hv]
        exact hw
  have hnone : refused channel v.log = refused channel s.log := hnone
  exact hv.resolve_right (by omega)

end System

/-! ## What an unrolled instruction is due -/

def Selected (host : Request) (channel : Nat) : Prop :=
  channel < maxChannelCount ∧ host.channelMask.toNat.testBit (31 - channel) = true

instance (host : Request) (channel : Nat) : Decidable (Selected host channel) :=
  inferInstanceAs (Decidable (_ ∧ _))

theorem filterMap_eq_of_nodup {β : Type} {channels : List Nat} (channel : Nat) (b : β)
    (h : channels.Nodup) :
    channels.filterMap (fun other => if other = channel then some b else none) =
      if channel ∈ channels then [b] else [] := by
  induction channels with
  | nil => rfl
  | cons other channels ih =>
      obtain ⟨hnew, hnodup⟩ := List.nodup_cons.mp h
      rw [List.filterMap_cons, ih hnodup]
      by_cases hother : other = channel
      · subst hother
        simp [hnew]
      · have hother' : ¬ channel = other := fun heq => hother heq.symm
        simp [hother, hother']

section

variable (hpos : 0 < host.channelMask) (hlt : host.channelMask < 2 ^ 32)

include hpos hlt

theorem channelMask_toNat :
    (BitVec.ofInt 64 host.channelMask).toNat = host.channelMask.toNat := by
  rw [BitVec.toNat_ofInt]
  omega

theorem not_highBit : ¬ HighBit (BitVec.ofInt 64 host.channelMask).toNat := by
  rw [channelMask_toNat hpos hlt]
  rintro ⟨-, hhigh⟩
  omega

theorem mem_channelsOf_iff {channel : Nat} :
    channel ∈ channelsOf (BitVec.ofInt 64 host.channelMask) ↔ Selected host channel := by
  rw [mem_channelsOf, channelMask_toNat hpos hlt, ← channelMask_toNat hpos hlt]
  simp only [not_highBit hpos hlt, and_false, or_false]
  rw [channelMask_toNat hpos hlt, Selected]

theorem channelsOf_nodup : (channelsOf (BitVec.ofInt 64 host.channelMask)).Nodup := by
  rw [channelsOf_eq, if_neg (not_highBit hpos hlt), List.append_nil]
  refine List.Nodup.map_on ?_ (SetBits.nodup_setBits _)
  intro i hi j hj heq
  have hi := BitVec.lt_of_getLsbD (SetBits.mem_setBits.mp hi)
  have hj := BitVec.lt_of_getLsbD (SetBits.mem_setBits.mp hj)
  omega

theorem due_unrolled (htype : host.type = .AIM) (hop : isUnrolled host.opcode = true)
    (channel : Nat) :
    due p channel host =
      if Selected host channel then (columnsOf host).map fun col => (host.hostReqId, col)
      else [] := by
  unfold due
  rw [htype]
  simp only [hop, if_true, targetsOf, List.filterMap_flatMap, List.filterMap_map]
  have hcol : ∀ col : Int, (channelsOf (BitVec.ofInt 64 host.channelMask)).filterMap
      ((fun t : Nat × Int => if t.1 = channel then some (host.hostReqId, t.2) else none) ∘
        fun channel => (channel, col)) =
      if Selected host channel then [(host.hostReqId, col)] else [] := by
    intro col
    simp only [← mem_channelsOf_iff hpos hlt]
    exact filterMap_eq_of_nodup channel (host.hostReqId, col) (channelsOf_nodup hpos hlt)
  rw [List.flatMap_congr fun col _ => hcol col]
  split
  · exact List.map_eq_flatMap.symm
  · simp

end

/-! ## What the decoder lets pass -/

/-- The checks of the decoder on an unrolled instruction: `WR_ABK` selects one channel, and
a bank index names a bank. -/
def Passes (p : SystemParams) (host : Request) : Prop :=
  (host.opcode = .ISR_WR_ABK → countSetBit (BitVec.ofInt 64 host.channelMask) = 1) ∧
    (host.bankIndex = -1 ∨ 0 < p.numBankgroups ∧ 0 < p.banksPerBankgroup ∧
      0 ≤ host.bankIndex ∧ host.bankIndex < p.numBankgroups * p.banksPerBankgroup)

theorem applyAddrMapp_isSome {req : Request} {channel : Nat} (hchannel : channel < maxChannelCount)
    (hbank : req.bankIndex = -1 ∨ 0 < p.numBankgroups ∧ 0 < p.banksPerBankgroup ∧
      0 ≤ req.bankIndex ∧ req.bankIndex < p.numBankgroups * p.banksPerBankgroup) :
    (applyAddrMapp p req channel).isSome = true := by
  unfold applyAddrMapp
  rw [if_neg (by omega)]
  rcases hbank with hbank | ⟨hgroups, hbanks, hlow, hhigh⟩
  · simp [hbank]
  · dsimp only
    split
    · rfl
    · rw [if_neg (by omega), if_neg (by omega)]
      rfl

theorem mapM_isSome {α β : Type} {f : α → Option β} {l : List α}
    (h : ∀ a ∈ l, (f a).isSome = true) : (l.mapM f).isSome = true := by
  induction l with
  | nil => rfl
  | cons a l ih =>
      obtain ⟨b, hb⟩ := Option.isSome_iff_exists.mp (h a (List.mem_cons_self ..))
      obtain ⟨bs, hbs⟩ := Option.isSome_iff_exists.mp
        (ih fun a ha => h a (List.mem_cons_of_mem _ ha))
      rw [List.mapM_cons, hb, hbs]
      rfl

theorem convertOpcodeToISR_unrolled {opcode : Opcode} (h : isUnrolled opcode = true) :
    ∃ isr, convertOpcodeToISR opcode = some isr ∧
      (isr.channelCountEqOne = true → opcode = .ISR_WR_ABK) := by
  cases opcode <;> simp [isUnrolled] at h <;> exact ⟨_, rfl, by simp⟩

theorem unrolledRequest_bankIndex (cfrValues : CFR → Int) (host : Request) (isr : AiMISR) :
    (unrolledRequest cfrValues host isr).bankIndex = host.bankIndex := by
  have hconvert : (convertSingleBank host).bankIndex = host.bankIndex := by
    unfold convertSingleBank
    split <;> rfl
  simp only [unrolledRequest, apply_ite Request.bankIndex, ite_self, hconvert]

theorem decode_unrolled_isSome (htype : host.type = .AIM) (hop : isUnrolled host.opcode = true)
    (hpasses : Passes p host) : (decode p cfrValues host).isSome = true := by
  obtain ⟨isr, hisr, hone⟩ := convertOpcodeToISR_unrolled hop
  rw [decode, htype]
  dsimp only
  rw [decodeAiM, if_pos hop, hisr, Option.bind_some, if_neg, Option.isSome_map]
  · refine mapM_isSome fun target htarget => ?_
    obtain ⟨col, -, hmem⟩ := List.mem_flatMap.mp htarget
    obtain ⟨channel, hchannel, rfl⟩ := List.mem_map.mp hmem
    rw [Option.isSome_map]
    refine applyAddrMapp_isSome ?_ ?_
    · rcases mem_channelsOf.mp hchannel with h | h
      · exact h.1
      · rw [h.1]
        decide
    · rw [show ({ unrolledRequest cfrValues host isr with colAddr := col } : Request).bankIndex =
        host.bankIndex from unrolledRequest_bankIndex ..]
      exact hpasses.2
  · rintro ⟨hcount, hne⟩
    exact hne (hpasses.1 (hone hcount))

/-! ## The controllers of the repository -/

section

open Controller Dram

variable {Dev Cmd : Type}

/-- `AiMDRAMController::send` as the DMA sees it. -/
def controllerSend (iface : IDRAM Dev Cmd) (req : Request) (c : AiMDRAMController Cmd) :
    Option (Bool × AiMDRAMController Cmd) :=
  (c.send iface req).map fun (ok, c', _) => (ok, c')

theorem enqueueTo_refused {c c' : AiMDRAMController Cmd} {id : BufferId} {q : Queued Cmd}
    {events : List (Event Cmd)} (h : c.enqueueTo id q = (false, c', events)) :
    c' = c ∧ ∀ q', (c.enqueueTo id q').1 = false := by
  unfold AiMDRAMController.enqueueTo ReqBuffer.enqueue at h ⊢
  by_cases hroom : (c.bufferOf id).size ≤ (c.bufferOf id).maxSize
  · simp [hroom] at h
  · simp only [hroom, if_false, Prod.mk.injEq, true_and] at h ⊢
    exact ⟨h.1.symm, fun _ => trivial⟩

theorem controllerSend_sticky (iface : IDRAM Dev Cmd) : Sticky (controllerSend iface) := by
  intro copy c c' hfirst copy' ok c'' ⟨htype, haddr⟩ hsecond
  obtain ⟨⟨ok₁, c₁, events⟩, hsend, heq⟩ := Option.map_eq_some_iff.mp hfirst
  obtain ⟨rfl, rfl⟩ := Prod.mk.inj heq
  obtain ⟨⟨ok₂, c₂, events'⟩, hsend', heq'⟩ := Option.map_eq_some_iff.mp hsecond
  obtain ⟨rfl, rfl⟩ := Prod.mk.inj heq'
  unfold AiMDRAMController.send at hsend hsend'
  rw [← htype, ← haddr] at hsend'
  have hfull : ∀ {id : BufferId} {q q' : Queued Cmd},
      c.enqueueTo id q = (false, c₁, events) → c₁.enqueueTo id q' = (ok₂, c₂, events') →
        ok₂ = false := by
    intro id q q' hrefused hagain
    obtain ⟨rfl, hall⟩ := enqueueTo_refused hrefused
    have hfirst := hall q'
    rw [hagain] at hfirst
    exact hfirst
  split at hsend
  · next haim =>
      rw [if_pos haim] at hsend'
      split at hsend
      · next hbusy =>
          obtain ⟨-, rfl, -⟩ : false = false ∧ c = c₁ ∧ [] = events := by simpa using hsend
          rw [if_pos hbusy] at hsend'
          exact (Prod.mk.inj (Option.some.inj hsend')).1.symm
      · next hfree =>
          obtain ⟨final, -, hsend⟩ := Option.map_eq_some_iff.mp hsend
          obtain ⟨rfl, -⟩ := enqueueTo_refused hsend
          rw [if_neg hfree] at hsend'
          obtain ⟨final', -, hsend'⟩ := Option.map_eq_some_iff.mp hsend'
          exact hfull hsend hsend'
  · next haim =>
      rw [if_neg haim] at hsend'
      split at hsend
      · next hbusy =>
          obtain ⟨-, rfl, -⟩ : false = false ∧ c = c₁ ∧ [] = events := by simpa using hsend
          rw [if_pos hbusy] at hsend'
          exact (Prod.mk.inj (Option.some.inj hsend')).1.symm
      · next hfree =>
          obtain ⟨final, -, hsend⟩ := Option.bind_eq_some_iff.mp hsend
          split at hsend
          · next hread =>
              split at hsend
              · simp at hsend
              · next hmiss =>
                  have hsend := Option.some.inj hsend
                  obtain ⟨rfl, -⟩ := enqueueTo_refused hsend
                  rw [if_neg hfree] at hsend'
                  obtain ⟨final', -, hsend'⟩ := Option.bind_eq_some_iff.mp hsend'
                  simp only [hread, if_neg hmiss] at hsend'
                  exact hfull hsend (Option.some.inj hsend')
          · next hwrite =>
              have hsend := Option.some.inj hsend
              obtain ⟨rfl, -⟩ := enqueueTo_refused hsend
              rw [if_neg hfree] at hsend'
              obtain ⟨final', -, hsend'⟩ := Option.bind_eq_some_iff.mp hsend'
              simp only [hwrite] at hsend'
              exact hfull hsend (Option.some.inj hsend')
          · cases hsend

namespace System

/-- In every run over the controllers, what a channel accepted and what waits for it is
what it is due of the decoded host requests, in order; all is accepted when the next host
request is decoded and when a host request is removed, and at the latest after a tick
without a refusal; and an unrolled instruction is due on the selected channels alone, one
copy for each column, in order. -/
theorem fanOut_complete {iface : IDRAM Dev Cmd} {ctls : Nat → AiMDRAMController Cmd}
    {s : System (AiMDRAMController Cmd)} (hr : Run p (controllerSend iface) ctls s) :
    (∀ channel, taken channel s.log ++ (s.dma.remaining channel).map tag =
      (decodedHosts s.log).flatMap (due p channel)) ∧
    Orderly p s.log ∧
    (∀ t channel, s.tick p (controllerSend iface) = some t →
      refused channel t.log = refused channel s.log → t.dma.remaining channel = []) ∧
    ∀ host, host.type = .AIM → isUnrolled host.opcode = true → 0 < host.channelMask →
      host.channelMask < 2 ^ 32 →
      (∀ channel, due p channel host =
        if Selected host channel then (columnsOf host).map fun col => (host.hostReqId, col)
        else []) ∧
      (Passes p host → ∀ cfrValues, (decode p cfrValues host).isSome = true) := by
  have hfan := run_fanOut (controllerSend_sticky iface) hr
  obtain ⟨b, hdelivering⟩ := (run_retiring hr).delivering
  refine ⟨hfan.due, hfan.orderly, ?_, ?_⟩
  · intro t channel htick hnone
    exact tick_unrefused hdelivering.bounded htick hnone
  · intro host htype hop hpos hlt
    exact ⟨due_unrolled hpos hlt htype hop, fun hpasses _ =>
      decode_unrolled_isSome htype hop hpasses⟩

def gddr6Controller (writing : Bool) : AiMDRAMController GDDR6.Cmd :=
  let c := AiMDRAMController.init GDDR6.aimModel.idram
  if writing then
    { c with writeBuffer := { buffer := [{ req := { type := .Write }, finalCommand := .WR, seq := 0 }] } }
  else c

/-- A `WR_GB` of two columns for two channels, of which channel 31 refuses at first. -/
theorem fanOut_complete_writeGB :
    ∃ s : System (AiMDRAMController GDDR6.Cmd),
      taken 31 s.log = [(-1, 0), (-1, 1)] ∧ refused 31 s.log = 2 ∧
      (∀ channel, taken channel s.log ++ (s.dma.remaining channel).map tag =
        (decodedHosts s.log).flatMap (due gddr6System channel)) := by
  have hrun : ((Runs.replay (step gddr6System (controllerSend GDDR6.aimModel.idram))
      (fun _ op => decide (HostCallback op))
      { controllers := fun channel => gddr6Controller (channel == 31) }
      [.send { writeGB 3 with opsize := 2 }, .tick,
        .controllers fun _ => gddr6Controller false, .tick]).any fun s =>
          taken 31 s.log == [(-1, 0), (-1, 1)] && refused 31 s.log == 2) = true := by
    decide +kernel
  obtain ⟨s, hs, htest⟩ := Option.any_eq_true .. |>.mp hrun
  rw [Bool.and_eq_true, beq_iff_eq, beq_iff_eq] at htest
  exact ⟨s, htest.1, htest.2, (fanOut_complete (replay_run hs)).1⟩

/-- A host request at the head of an idle DMA, of which a channel accepted nothing. -/
structure Stuck (channel : Nat) (host : Request) (s : System C) : Prop where
  head : ∃ queue, s.dma.requestQueue = host :: queue
  stalled : s.dma.stalledAiMRequests = 0
  remaining : ∀ other, s.dma.remaining other = []
  inFlight : s.inFlight = []
  taken : taken channel s.log = []

theorem Stuck.step {channel : Nat} {s t : System C} {op : Op C} (h : Stuck channel host s)
    (hthrows : ∀ cfrValues, decode p cfrValues host = none)
    (hstep : s.step p send op = some t) : Stuck channel host t := by
  obtain ⟨queue, hqueue⟩ := h.head
  cases op with
  | send req =>
      obtain ⟨⟨ok, t⟩, hsend, rfl⟩ := Option.map_eq_some_iff.mp hstep
      obtain ⟨u, full, rw, aim, rfl | rfl, rfl⟩ := send_cases hsend
      · exact ⟨h.head, h.stalled, h.remaining, h.inFlight, h.taken⟩
      · refine ⟨⟨queue ++ [req], by simp [push, hqueue]⟩, h.stalled, h.remaining, h.inFlight, ?_⟩
        rw [← h.taken]
        simp [push, Dma.taken]
  | tick =>
      rw [System.step, tick, retryChannels_nil h.remaining] at hstep
      simp [h.stalled, hqueue, decodeHead, hthrows] at hstep
  | receive i => simp [System.step, h.inFlight] at hstep
  | controllers ctls =>
      rw [← Option.some.inj hstep]
      exact ⟨h.head, h.stalled, h.remaining, h.inFlight, h.taken⟩

def writeABK : Request :=
  { type := .AIM, opcode := .ISR_WR_ABK, gprAddr0 := 0, channelMask := 3, rowAddr := 0 }

/-- Channel 31 is due one copy of it and never accepts one, whatever happens after it was
sent: the decoder throws. -/
theorem writeABK_two_channels :
    due gddr6System 31 writeABK = [(-1, 0)] ∧
    ∀ s : System (AiMDRAMController GDDR6.Cmd),
      Runs.Reachable (fun s => ∃ ctls, System.send writeABK { controllers := ctls } = some (true, s))
        (fun s op t => s.step gddr6System (controllerSend GDDR6.aimModel.idram) op = some t)
        (fun _ op => HostCallback op) s → taken 31 s.log = [] := by
  refine ⟨by decide +kernel, fun s hr => ?_⟩
  refine (hr.invariant (I := Stuck 31 writeABK) ?_ ?_).taken
  · rintro s ⟨ctls, hsend⟩
    obtain ⟨-, rfl⟩ := Prod.mk.inj (Option.some.inj hsend)
    exact ⟨⟨[], rfl⟩, rfl, fun _ => rfl, rfl, rfl⟩
  · intro s op t h _ hstep
    exact h.step (fun _ => by rfl) hstep

end System

end

end AimSimulator.Dma
