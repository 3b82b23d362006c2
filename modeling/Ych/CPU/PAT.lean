/-! The page attribute table: memory types and the selector bits of the table's eight entries. -/
namespace Ych.PAT

def KR_PAT_UNCACHEABLE : Nat := 0
def KR_PAT_WRITE_COMBINING : Nat := 1
def KR_PAT_WRITE_THROUGH : Nat := 4
def KR_PAT_WRITE_PROTECTED : Nat := 5
def KR_PAT_WRITE_BACK : Nat := 6
def KR_PAT_UNCACHED : Nat := 7

structure KrPatSelect where
  pwt : Bool
  pcd : Bool
  pat : Bool
  deriving DecidableEq

/-- The entry of the table that holds each memory type, in fields of three bits. -/
structure KrPatMsrState where
  PA_UC : Fin 8
  PA_WC : Fin 8
  PA_WT : Fin 8
  PA_WP : Fin 8
  PA_WB : Fin 8
  PA_UCM : Fin 8

def patMsrSetup : KrPatMsrState := ⟨3, 4, 1, 5, 0, 2⟩

def g_PatSelectTable (target : Fin 8) : KrPatSelect :=
  ⟨target.val.testBit 0, target.val.testBit 1, target.val.testBit 2⟩

def krSelectPat (patMsrState : KrPatMsrState) (memType : Nat) : KrPatSelect :=
  g_PatSelectTable <|
    if memType = KR_PAT_UNCACHEABLE then patMsrState.PA_UC
    else if memType = KR_PAT_WRITE_COMBINING then patMsrState.PA_WC
    else if memType = KR_PAT_WRITE_THROUGH then patMsrState.PA_WT
    else if memType = KR_PAT_WRITE_PROTECTED then patMsrState.PA_WP
    else if memType = KR_PAT_WRITE_BACK then patMsrState.PA_WB
    else if memType = KR_PAT_UNCACHED then patMsrState.PA_UCM
    else 0

end Ych.PAT
