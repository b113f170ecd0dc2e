import AimSimulator.Controller.GenericConservation
import AimSimulator.Dram.StandardOpening
import AimSimulator.Dram.StandardTiming
import AimSimulator.MemorySystem.Channels
/-!
# A memory system loses no read

Every read that a system accepts for a channel is called back by the controller of that channel
or is still held by it, once.
-/

namespace AimSimulator.MemorySystem

open Dram Controller GenericDRAMController

/-- The plugins send no request that satisfies `p`. -/
def PluginsAvoid (p : Request → Bool) : SystemOp → Prop
  | .send _ => True
  | .tick plugins => ∀ k : Nat, ∀ req ∈ plugins k, p req = false

/-- How many of the requests for a channel satisfy `p`. -/
def countFor (p : Request → Bool) (k : Int) (reqs : List Request) : Nat :=
  reqs.countP fun req => decide (req.addrVec.at 0 = k) && p req

theorem countFor_append (p : Request → Bool) (k : Int) (l l' : List Request) :
    countFor p k (l ++ l') = countFor p k l + countFor p k l' :=
  List.countP_append

variable {Cmd St Ext : Type} [DecidableEq Cmd] {model : DRAMModel Cmd St Ext}
  {params : GenericParams} {apply : Request → Request} {count : Nat → Int}
  {s t : SystemRun model.Dev Cmd} {p : Request → Bool}

/-- The reads that are accepted for a channel are called back by its controller, or held. -/
def Balanced (p : Request → Bool) (s : SystemRun model.Dev Cmd) : Prop :=
  ∀ (k : Nat) (c : GenericDRAMController Cmd), s.sys.controllers[k]? = some c →
    countFor p k s.accepted = countReqs p (s.called k) + c.held p

theorem Balanced.send (h : Balanced p s) {req : Request}
    (hstep : s.step model.idram params apply (.send req) = some t) : Balanced p t := by
  obtain ⟨c₀, c₁, isSuccess, hsend⟩ := SystemRun.send_cases hstep
  obtain ⟨k₀, haddr, hget₀, hctls⟩ := hsend.channel
  have hheld := send_held (p := p) hsend.sent
  intro k c hget
  rw [hctls, List.getElem?_set] at hget
  rw [hsend.accepted, hsend.called, countFor_append]
  split at hget
  · next hk =>
      subst hk
      split at hget
      · obtain rfl := Option.some.inj hget
        have hcount : countFor p k₀ (if isSuccess then [apply req] else []) =
            (isSuccess && p (apply req)).toNat := by
          cases isSuccess with
          | false => rfl
          | true =>
              unfold countFor
              rw [if_pos rfl, List.countP_singleton, haddr]
              cases p (apply req) <;> simp
        rw [hcount, hheld, h _ c₀ hget₀, Nat.add_assoc]
      · cases hget
  · next hk =>
      have hcount : countFor p k (if isSuccess then [apply req] else []) = 0 := by
        cases isSuccess with
        | false => rfl
        | true =>
            unfold countFor
            have hne : (k₀ : Int) ≠ k := fun heq => hk (Int.ofNat.inj heq)
            rw [if_pos rfl, List.countP_singleton, haddr, decide_eq_false hne, Bool.false_and]
            rfl
      rw [hcount]
      exact h k c hget

section Runs

variable (hopens : model.OpensBank count) (hact : model.ActionsKeepTiming count)
  (hwin : model.WindowsPositive) (hbanks : (model.paths count model.bankLevel).length ≤ 32)
  (hreads : ∀ req, p req = true → req.type = .Read)

include hopens hact hwin hbanks hreads

theorem Balanced.tick {plugins : Nat → List Request} {calls : Nat → List (Call Cmd)}
    (hfollows : ∀ (k : Nat) (c : GenericDRAMController Cmd), s.sys.controllers[k]? = some c →
      Follows model.idram params DRAMModel.SameChannel (model.createNodes count) (calls k) k s c)
    (h : Balanced p s) (havoid : PluginsAvoid p (.tick plugins))
    (hstep : s.step model.idram params apply (.tick plugins) = some t) : Balanced p t := by
  intro k c' hget
  obtain ⟨u, dev', called, hu, hget₀, -, htick, -, hcalled⟩ :=
    tick_project DRAMModel.idram_parts (Nat.succ_pos _) hfollows hstep hget
  obtain ⟨turns, -, -, -, -, haccepted, -⟩ := SystemRun.tick_cases hstep
  have halone : GenericChan.Run model.idram (forChannel params k) (model.createNodes count)
      (fun _ call => Own k call) u :=
    Runs.exec_reachable (fun call hcall _ => (hfollows k _ hget₀).own call hcall) (.start rfl) hu
  have hroom := (run_hasRoom hopens hact hwin (fun _ _ h => h) halone).room hbanks
  have hheld := tick_held hreads htick (havoid k) hroom
  rw [haccepted, hcalled, countReqs_append, h k _ hget₀]
  omega

/-- In every run of a memory system the reads that are accepted for a channel are called back by
its controller, or held, and the statistics count them. -/
theorem reachable_balanced {numChannels : Nat}
    (hr : SystemRun.Run model.idram params apply numChannels (model.createNodes count)
      (fun _ op => PluginsOwn op ∧ PluginsAvoid p op) s) :
    Balanced p s ∧
      s.sys.numReadRequests = s.accepted.countP fun req => decide (req.type = .Read) := by
  refine hr.strengthen.invariant (I := fun s => Balanced p s ∧ s.sys.numReadRequests =
    s.accepted.countP fun req => decide (req.type = .Read)) ?_ ?_
  · rintro s rfl
    refine ⟨fun k c hget => ?_, rfl⟩
    obtain rfl := List.eq_of_mem_replicate (List.mem_of_getElem? hget)
    rfl
  · rintro s op t ⟨hbalanced, hcount⟩ ⟨⟨hown, havoid⟩, hs⟩ hstep
    cases op with
    | send req =>
        refine ⟨hbalanced.send hstep, ?_⟩
        obtain ⟨c₀, c₁, isSuccess, hsend⟩ := SystemRun.send_cases hstep
        rw [hsend.numReads, hsend.accepted, List.countP_append, hcount]
        cases isSuccess with
        | false => rfl
        | true =>
            rw [if_pos rfl, List.countP_singleton, Bool.true_and]
            cases decide ((apply req).type = .Read) <;> rfl
    | tick plugins =>
        obtain ⟨calls, hfollows⟩ := reachable_follows DRAMModel.idram_parts
          DRAMModel.SameChannel.refl (Nat.succ_pos _) (hs.mono fun _ _ h => h.1)
        refine ⟨hbalanced.tick hopens hact hwin hbanks hreads hfollows havoid hstep, ?_⟩
        obtain ⟨turns, -, -, -, -, haccepted, hreads⟩ := SystemRun.tick_cases hstep
        rw [haccepted, hreads]
        exact hcount

end Runs

/-- In every run of a memory system over DDR3, DDR4, DDR4-VRR, HBM, HBM2 or HBM3 with at most 32
banks a channel and plugins that keep to their channel, each read that is accepted for a channel,
of a kind that no plugin sends, is called back by the controller of the channel or still held by
it, exactly once, and the statistics count the reads that were accepted. -/
theorem reads_conserved {impl : Standard.Impl} {aim : Standard.AimLookups}
    {V : Standard.Timing → Int} {numChannels : Nat}
    (hbanks : Standard.banksPerChannel impl count ≤ 32)
    (hreads : ∀ req, p req = true → req.type = .Read)
    {s : SystemRun (Standard.model impl aim count V).Dev Standard.Cmd}
    (hr : SystemRun.Run (Standard.model impl aim count V).idram params apply numChannels
      ((Standard.model impl aim count V).createNodes count)
      (fun _ op => PluginsOwn op ∧ PluginsAvoid p op) s) :
    (∀ (k : Nat) (c : GenericDRAMController Standard.Cmd), s.sys.controllers[k]? = some c →
      countFor p k s.accepted = countReqs p (s.called k) + c.held p) ∧
    s.sys.numReadRequests = s.accepted.countP fun req => decide (req.type = .Read) :=
  reachable_balanced Standard.opensBank Standard.actionsKeepClocks.actionsKeepTiming
    ((Standard.entriesFit impl).windowsPositive rfl)
    (Nat.le_trans (Nat.le_of_eq Standard.length_paths) hbanks) hreads hr

/-- Two channels that hold a read each. -/
theorem reads_conserved_readBoth :
    ∃ c, (readBothRun.get readBothRun_isSome).sys.controllers[1]? = some c ∧
      countFor (fun req => decide (req.type = .Read)) 1
          (readBothRun.get readBothRun_isSome).accepted =
        countReqs (fun req => decide (req.type = .Read))
          ((readBothRun.get readBothRun_isSome).called 1) +
        c.held fun req => decide (req.type = .Read) := by
  have hrun : readBothRun = some (readBothRun.get readBothRun_isSome) := (Option.some_get _).symm
  have hguard : ∀ op ∈ readBoth, PluginsOwn op ∧
      PluginsAvoid (fun req => decide (req.type = .Read)) op := by
    intro op hop
    refine ⟨readBoth_own op hop, ?_⟩
    simp only [readBoth, List.mem_cons, List.not_mem_nil, or_false] at hop
    rcases hop with rfl | rfl | rfl | rfl
    · trivial
    · trivial
    all_goals
      intro k req hreq
      cases hreq
  obtain ⟨c, hget⟩ := Option.isSome_iff_exists.mp readBothRun_second
  exact ⟨c, hget, (reads_conserved
    (show Standard.banksPerChannel .DDR3 (fun _ => 2) ≤ 32 by decide)
    (fun _ h => of_decide_eq_true h)
    (Runs.exec_reachable (fun op hop _ => hguard op hop) (.start rfl) hrun)).1 1 c hget⟩

end AimSimulator.MemorySystem
