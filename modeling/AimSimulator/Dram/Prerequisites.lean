import AimSimulator.Dram.BankRows
import AimSimulator.Dram.GDDR6
import AimSimulator.Dram.LPDDR
/-!
# The answers of the prerequisites

The commands that a registered prerequisite can answer with.  A request is scheduled with
one of them, with the command of id `1` (which is one of them) or with its own command.
-/

namespace AimSimulator.Dram

namespace GDDR6

def answers : List Cmd :=
  [.ACT, .PRE, .PREA, .ACT16, .RD, .WR, .RDA, .WRA, .RDCP, .WRCP, .MAC, .REFab, .WRA16, .MAC16,
    .AF16, .EWMUL16]

theorem preqs_answers {d : Nat} {cmd a : Cmd} {preq : PreqFunc Cmd St Unit d}
    (h : preqs d cmd = some preq) {up : List (NodeBase Cmd St Unit)} {n : DRAMNode Cmd St Unit d}
    {addrVec : AddrVec} {clk : Int} (ha : preq up n addrVec clk = some a) : a ∈ answers := by
  match d with
  | 0 =>
      have hanswer : ∀ op ∈ answers, requireRowOpen op up n addrVec clk = some a →
          a ∈ answers := by
        intro op hop ha
        unfold requireRowOpen Preq.Bank.RequireRowOpen at ha
        split at ha
        · exact Option.some.inj ha ▸ by decide
        · split at ha
          · split at ha
            · exact Option.some.inj ha ▸ hop
            · exact Option.some.inj ha ▸ by decide
          · exact Option.some.inj ha ▸ hop
      cases cmd <;> simp only [preqs, Option.some.injEq, reduceCtorEq] at h <;> subst h <;>
        exact hanswer _ (by decide) ha
  | 2 =>
      have hanswer : ∀ op ∈ answers, requireAllRowsOpen op up n addrVec clk = some a →
          a ∈ answers := by
        intro op hop ha
        unfold requireAllRowsOpen Preq.Channel.RequireAllRowsOpen at ha
        split at ha
        · exact Option.some.inj ha ▸ by decide
        · split at ha
          · exact Option.some.inj ha ▸ by decide
          · exact Option.some.inj ha ▸ hop
      cases cmd <;> simp only [preqs, Option.some.injEq, reduceCtorEq] at h <;> subst h
      case REFab =>
        unfold Preq.RequireAllBanksClosed at ha
        split at ha <;> exact Option.some.inj ha ▸ by decide
      all_goals exact hanswer _ (by decide) ha
  | 1 | _ + 3 => simp [preqs] at h

theorem getPreqCommand_answers {V : Timing → Int} {P : Cmd → Prop} (hP : ∀ a ∈ answers, P a)
    (dev : (model V).Dev) {final : Cmd} (hfinal : P final) (addrVec : AddrVec) :
    P ((model V).getPreqCommand dev final addrVec) := by
  refine (model V).getPreqCommand_induct hfinal (hP .PREA (by decide)) ?_
  intro k up n a ha
  unfold DRAMSpec.ownPreq at ha
  split at ha
  · next preq heq => exact hP a (preqs_answers heq ha)
  · cases ha

end GDDR6

namespace LPDDR

def answers : List Cmd :=
  [.ACT_1, .ACT_2, .PRE, .PREA, .ACT8_1, .ACT8_2, .CASRD, .CASWR, .CASWRGB, .CASWRMAC8,
    .CASRDMAC8, .CASRDAF8, .CASWRA8, .RD, .WR, .RDA, .WRA, .RDCP, .WRCP, .MAC, .REFab, .RFMab,
    .REFpb, .RFMpb, .MAC8, .AF8, .EWMUL8, .WRGB, .WRMAC8, .RDMAC8, .RDAF8, .WRA8]

theorem preqs_answers {size : Int} {d : Nat} {cmd a : Cmd} {preq : PreqFunc Cmd St Int d}
    (h : preqs size d cmd = some preq) {up : List (NodeBase Cmd St Int)} {n : DRAMNode Cmd St Int d}
    {addrVec : AddrVec} {clk : Int} (ha : preq up n addrVec clk = some a) : a ∈ answers := by
  match d with
  | 0 =>
      have hanswer : ∀ hit : List (NodeBase Cmd St Int) → Int → Cmd, hit up clk ∈ answers →
          preqBankAct hit up n addrVec clk = some a → a ∈ answers := by
        intro hit hhit ha
        unfold preqBankAct at ha
        split at ha
        · exact Option.some.inj ha ▸ by decide
        · exact Option.some.inj ha ▸ by decide
        · split at ha
          · exact Option.some.inj ha ▸ hhit
          · exact Option.some.inj ha ▸ by decide
        · exact Option.some.inj ha ▸ hhit
        · exact Option.some.inj ha ▸ hhit
      have hsync : ∀ op ∈ answers, ∀ casOp ∈ answers,
          (if (up[1]?).any fun rank => needsSync rank clk then casOp else op) ∈ answers := by
        intro op hop casOp hcas
        split
        · exact hcas
        · exact hop
      cases cmd <;> simp only [preqs, Option.some.injEq, reduceCtorEq] at h <;> subst h
      case RD | WR | RDA | WRA => exact hanswer _ (hsync _ (by decide) _ (by decide)) ha
      all_goals exact hanswer _ (show _ ∈ answers by decide) ha
  | 2 =>
      have hact : ∀ op ∈ answers, preqRankAct op up n addrVec clk = some a → a ∈ answers := by
        intro op hop ha
        unfold preqRankAct at ha
        split at ha
        · exact Option.some.inj ha ▸ by decide
        · split at ha
          · exact Option.some.inj ha ▸ by decide
          · split at ha
            · exact Option.some.inj ha ▸ by decide
            · exact Option.some.inj ha ▸ hop
      have hsync : ∀ op ∈ answers, ∀ casOp ∈ answers,
          preqRankSync op casOp up n addrVec clk = some a → a ∈ answers := by
        intro op hop casOp hcas ha
        unfold preqRankSync at ha
        split at ha
        · exact Option.some.inj ha ▸ hcas
        · exact Option.some.inj ha ▸ hop
      have hclosed : ∀ op ∈ answers,
          Preq.RequireAllBanksClosed .Closed .PREA op up n addrVec clk = some a → a ∈ answers := by
        intro op hop ha
        unfold Preq.RequireAllBanksClosed at ha
        split at ha
        · exact Option.some.inj ha ▸ hop
        · exact Option.some.inj ha ▸ by decide
      have hbank : ∀ op ∈ answers, preqPerBank size op up n addrVec clk = some a →
          a ∈ answers := by
        intro op hop ha
        unfold preqPerBank at ha
        dsimp only at ha
        split at ha
        · exact Option.some.inj ha ▸ by decide
        · exact Option.some.inj ha ▸ hop
      cases cmd <;> simp only [preqs, Option.some.injEq, reduceCtorEq] at h <;> subst h
      case REFab | RFMab => exact hclosed _ (by decide) ha
      case REFpb | RFMpb => exact hbank _ (by decide) ha
      case MAC8 | AF8 | EWMUL8 => exact hact _ (by decide) ha
      all_goals exact hsync _ (by decide) _ (by decide) ha
  | 1 | _ + 3 => simp [preqs] at h

theorem getPreqCommand_answers {gen : Generation} {sizes : Nat → Int} {V : Timing → Int}
    {P : Cmd → Prop} (hP : ∀ a ∈ answers, P a) (dev : (model gen sizes V).Dev)
    {final : Cmd} (hfinal : P final) (addrVec : AddrVec) :
    P ((model gen sizes V).getPreqCommand dev final addrVec) := by
  refine (model gen sizes V).getPreqCommand_induct hfinal (hP .ACT_2 (by decide)) ?_
  intro k up n a ha
  unfold DRAMSpec.ownPreq at ha
  split at ha
  · next preq heq => exact hP a (preqs_answers heq ha)
  · cases ha

end LPDDR

end AimSimulator.Dram
