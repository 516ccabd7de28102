import PredicatedMesh.Mapping.ModuloMapping

/-!
# The control word of the hardware

The package the hardware is built from declares a control word as a packed record and unpacks it
from 128 bits section by section. An enumeration there is a bit vector with named values; a value
without a name is representable and simply has no enumerator.

Each enumerator is listed with its value and with the contract's symbol for it; the names agree
except for the two functional-unit results.
-/

namespace PredicatedMesh.RTL

/-! ## Enumerations -/

inductive OpE
  | nop
  | pass
  | add
  | sub
  | mul
  | and
  | or
  | xor
  | shl
  | lshr
  | select
  | cmpEq
  | cmpNe
  | cmpUlt
  | cmpUle
  | ppass
  | pnot
  | pand
  | por
  deriving DecidableEq, Repr

namespace OpE

def value : OpE → BitVec 6
  | .nop => 0
  | .pass => 1
  | .add => 2
  | .sub => 3
  | .mul => 4
  | .and => 5
  | .or => 6
  | .xor => 7
  | .shl => 8
  | .lshr => 9
  | .select => 10
  | .cmpEq => 16
  | .cmpNe => 17
  | .cmpUlt => 18
  | .cmpUle => 19
  | .ppass => 32
  | .pnot => 33
  | .pand => 34
  | .por => 35

def symbol : OpE → String
  | .nop => "NOP"
  | .pass => "PASS"
  | .add => "ADD"
  | .sub => "SUB"
  | .mul => "MUL"
  | .and => "AND"
  | .or => "OR"
  | .xor => "XOR"
  | .shl => "SHL"
  | .lshr => "LSHR"
  | .select => "SELECT"
  | .cmpEq => "CMP_EQ"
  | .cmpNe => "CMP_NE"
  | .cmpUlt => "CMP_ULT"
  | .cmpUle => "CMP_ULE"
  | .ppass => "PPASS"
  | .pnot => "PNOT"
  | .pand => "PAND"
  | .por => "POR"

def all : List OpE :=
  [.nop, .pass, .add, .sub, .mul, .and, .or, .xor, .shl, .lshr, .select, .cmpEq, .cmpNe,
    .cmpUlt, .cmpUle, .ppass, .pnot, .pand, .por]

end OpE

inductive DataSrcE
  | rfA
  | rfB
  | northDataIn
  | southDataIn
  | eastDataIn
  | westDataIn
  | constData
  | lsuLoadData
  | zero
  deriving DecidableEq, Repr

namespace DataSrcE

def value : DataSrcE → BitVec 4
  | .rfA => 0
  | .rfB => 1
  | .northDataIn => 2
  | .southDataIn => 3
  | .eastDataIn => 4
  | .westDataIn => 5
  | .constData => 6
  | .lsuLoadData => 7
  | .zero => 8

def symbol : DataSrcE → String
  | .rfA => "RF_A"
  | .rfB => "RF_B"
  | .northDataIn => "NORTH_DATA_IN"
  | .southDataIn => "SOUTH_DATA_IN"
  | .eastDataIn => "EAST_DATA_IN"
  | .westDataIn => "WEST_DATA_IN"
  | .constData => "CONST_DATA"
  | .lsuLoadData => "LSU_LOAD_DATA"
  | .zero => "ZERO"

def all : List DataSrcE :=
  [.rfA, .rfB, .northDataIn, .southDataIn, .eastDataIn, .westDataIn, .constData,
    .lsuLoadData, .zero]

end DataSrcE

inductive PredSrcE
  | rfA
  | rfB
  | northPredIn
  | southPredIn
  | eastPredIn
  | westPredIn
  | constTrue
  | constFalse
  deriving DecidableEq, Repr

namespace PredSrcE

def value : PredSrcE → BitVec 4
  | .rfA => 0
  | .rfB => 1
  | .northPredIn => 2
  | .southPredIn => 3
  | .eastPredIn => 4
  | .westPredIn => 5
  | .constTrue => 6
  | .constFalse => 7

def symbol : PredSrcE → String
  | .rfA => "RF_A"
  | .rfB => "RF_B"
  | .northPredIn => "NORTH_PRED_IN"
  | .southPredIn => "SOUTH_PRED_IN"
  | .eastPredIn => "EAST_PRED_IN"
  | .westPredIn => "WEST_PRED_IN"
  | .constTrue => "CONST_TRUE"
  | .constFalse => "CONST_FALSE"

def all : List PredSrcE :=
  [.rfA, .rfB, .northPredIn, .southPredIn, .eastPredIn, .westPredIn, .constTrue, .constFalse]

end PredSrcE

inductive DataRouteSrcE
  | none
  | northDataIn
  | southDataIn
  | eastDataIn
  | westDataIn
  | fuData
  | rfA
  | rfB
  | constData
  | lsuLoadData
  | zero
  deriving DecidableEq, Repr

namespace DataRouteSrcE

def value : DataRouteSrcE → BitVec 4
  | .none => 0
  | .northDataIn => 1
  | .southDataIn => 2
  | .eastDataIn => 3
  | .westDataIn => 4
  | .fuData => 5
  | .rfA => 6
  | .rfB => 7
  | .constData => 8
  | .lsuLoadData => 9
  | .zero => 10

def symbol : DataRouteSrcE → String
  | .none => "NONE"
  | .northDataIn => "NORTH_DATA_IN"
  | .southDataIn => "SOUTH_DATA_IN"
  | .eastDataIn => "EAST_DATA_IN"
  | .westDataIn => "WEST_DATA_IN"
  | .fuData => "FU_DATA_RESULT"
  | .rfA => "RF_A"
  | .rfB => "RF_B"
  | .constData => "CONST_DATA"
  | .lsuLoadData => "LSU_LOAD_DATA"
  | .zero => "ZERO"

def all : List DataRouteSrcE :=
  [.none, .northDataIn, .southDataIn, .eastDataIn, .westDataIn, .fuData, .rfA, .rfB,
    .constData, .lsuLoadData, .zero]

end DataRouteSrcE

inductive PredRouteSrcE
  | none
  | northPredIn
  | southPredIn
  | eastPredIn
  | westPredIn
  | fuPred
  | rfA
  | rfB
  | constTrue
  | constFalse
  deriving DecidableEq, Repr

namespace PredRouteSrcE

def value : PredRouteSrcE → BitVec 4
  | .none => 0
  | .northPredIn => 1
  | .southPredIn => 2
  | .eastPredIn => 3
  | .westPredIn => 4
  | .fuPred => 5
  | .rfA => 6
  | .rfB => 7
  | .constTrue => 8
  | .constFalse => 9

def symbol : PredRouteSrcE → String
  | .none => "NONE"
  | .northPredIn => "NORTH_PRED_IN"
  | .southPredIn => "SOUTH_PRED_IN"
  | .eastPredIn => "EAST_PRED_IN"
  | .westPredIn => "WEST_PRED_IN"
  | .fuPred => "FU_PRED_RESULT"
  | .rfA => "RF_A"
  | .rfB => "RF_B"
  | .constTrue => "CONST_TRUE"
  | .constFalse => "CONST_FALSE"

def all : List PredRouteSrcE :=
  [.none, .northPredIn, .southPredIn, .eastPredIn, .westPredIn, .fuPred, .rfA, .rfB,
    .constTrue, .constFalse]

end PredRouteSrcE

inductive LsuOpE
  | none
  | load
  | store
  | reserved
  deriving DecidableEq, Repr

namespace LsuOpE

def value : LsuOpE → BitVec 2
  | .none => 0
  | .load => 1
  | .store => 2
  | .reserved => 3

def symbol : LsuOpE → String
  | .none => "NONE"
  | .load => "LOAD"
  | .store => "STORE"
  | .reserved => "RESERVED"

def all : List LsuOpE :=
  [.none, .load, .store, .reserved]

end LsuOpE

/-! ## Widths and positions -/

def opWidth : ℕ := 6
def dataSrcWidth : ℕ := 4
def predSrcWidth : ℕ := 4
def dataW1SrcWidth : ℕ := 4
def predW1SrcWidth : ℕ := 4
def dataRouteSrcWidth : ℕ := 4
def predRouteSrcWidth : ℕ := 4
def lsuOpWidth : ℕ := 2

/-- The base-two logarithms of the depths of 16. -/
def dataRfAddrWidth : ℕ := 4
def predRfAddrWidth : ℕ := 4
def constAddrWidth : ℕ := 4

def execCtrlWidth : ℕ :=
  opWidth + dataSrcWidth + dataSrcWidth + predSrcWidth + predSrcWidth + dataRfAddrWidth +
    dataRfAddrWidth + predRfAddrWidth + predRfAddrWidth

def dataRfCtrlWidth : ℕ := 1 + dataRfAddrWidth + 1 + dataRfAddrWidth + dataW1SrcWidth

def predRfCtrlWidth : ℕ := 1 + predRfAddrWidth + 1 + predRfAddrWidth + predW1SrcWidth

def dataRouteDirCtrlWidth : ℕ := 1 + dataRouteSrcWidth

def predRouteDirCtrlWidth : ℕ := 1 + predRouteSrcWidth

def dataRouteCtrlWidth : ℕ := 4 * dataRouteDirCtrlWidth

def predRouteCtrlWidth : ℕ := 4 * predRouteDirCtrlWidth

def constCtrlWidth : ℕ := constAddrWidth

def lsuCtrlWidth : ℕ := lsuOpWidth + dataSrcWidth + dataSrcWidth + 1 + 1 + predSrcWidth

def execCtrlLsb : ℕ := 0
def dataRfCtrlLsb : ℕ := execCtrlLsb + execCtrlWidth
def predRfCtrlLsb : ℕ := dataRfCtrlLsb + dataRfCtrlWidth
def dataRouteCtrlLsb : ℕ := predRfCtrlLsb + predRfCtrlWidth
def predRouteCtrlLsb : ℕ := dataRouteCtrlLsb + dataRouteCtrlWidth
def constCtrlLsb : ℕ := predRouteCtrlLsb + predRouteCtrlWidth
def lsuCtrlLsb : ℕ := constCtrlLsb + constCtrlWidth

/-! ## The record -/

structure ExecCtrl where
  op : BitVec 6
  srcASel : BitVec 4
  srcBSel : BitVec 4
  srcP0Sel : BitVec 4
  srcP1Sel : BitVec 4
  dataRfRaddrA : BitVec 4
  dataRfRaddrB : BitVec 4
  predRfRaddrA : BitVec 4
  predRfRaddrB : BitVec 4
  deriving DecidableEq, Repr

structure DataRfCtrl where
  dataW0We : Bool
  dataW0Addr : BitVec 4
  dataW1We : Bool
  dataW1Addr : BitVec 4
  dataW1Src : BitVec 4
  deriving DecidableEq, Repr

structure PredRfCtrl where
  predW0We : Bool
  predW0Addr : BitVec 4
  predW1We : Bool
  predW1Addr : BitVec 4
  predW1Src : BitVec 4
  deriving DecidableEq, Repr

/-- The route of one direction, on either network. -/
structure RouteDirCtrl where
  we : Bool
  src : BitVec 4
  deriving DecidableEq, Repr

structure RouteCtrl where
  north : RouteDirCtrl
  south : RouteDirCtrl
  east : RouteDirCtrl
  west : RouteDirCtrl
  deriving DecidableEq, Repr

def RouteCtrl.at (routes : RouteCtrl) : Direction → RouteDirCtrl
  | .north => routes.north
  | .south => routes.south
  | .east => routes.east
  | .west => routes.west

structure LsuCtrl where
  lsuOp : BitVec 2
  lsuAddrSrc : BitVec 4
  lsuStoreDataSrc : BitVec 4
  lsuCommitPredEnable : Bool
  lsuCommitPredInvert : Bool
  lsuCommitPredSrc : BitVec 4
  deriving DecidableEq, Repr

structure TileControlWord where
  execCtrl : ExecCtrl
  dataRfCtrl : DataRfCtrl
  predRfCtrl : PredRfCtrl
  dataRouteCtrl : RouteCtrl
  predRouteCtrl : RouteCtrl
  constAddr : BitVec 4
  lsuCtrl : LsuCtrl
  deriving DecidableEq, Repr

/-! ## Unpacking -/

def unpackExecCtrl (bits : BitVec 38) : ExecCtrl where
  op := bits.extractLsb' 0 6
  srcASel := bits.extractLsb' opWidth 4
  srcBSel := bits.extractLsb' (opWidth + dataSrcWidth) 4
  srcP0Sel := bits.extractLsb' (opWidth + 2 * dataSrcWidth) 4
  srcP1Sel := bits.extractLsb' (opWidth + 2 * dataSrcWidth + predSrcWidth) 4
  dataRfRaddrA := bits.extractLsb' (opWidth + 2 * dataSrcWidth + 2 * predSrcWidth) 4
  dataRfRaddrB :=
    bits.extractLsb' (opWidth + 2 * dataSrcWidth + 2 * predSrcWidth + dataRfAddrWidth) 4
  predRfRaddrA :=
    bits.extractLsb' (opWidth + 2 * dataSrcWidth + 2 * predSrcWidth + 2 * dataRfAddrWidth) 4
  predRfRaddrB :=
    bits.extractLsb'
      (opWidth + 2 * dataSrcWidth + 2 * predSrcWidth + 2 * dataRfAddrWidth + predRfAddrWidth) 4

def unpackDataRfCtrl (bits : BitVec 14) : DataRfCtrl where
  dataW0We := bits.getLsbD 0
  dataW0Addr := bits.extractLsb' 1 4
  dataW1We := bits.getLsbD (1 + dataRfAddrWidth)
  dataW1Addr := bits.extractLsb' (2 + dataRfAddrWidth) 4
  dataW1Src := bits.extractLsb' (2 + 2 * dataRfAddrWidth) 4

def unpackPredRfCtrl (bits : BitVec 14) : PredRfCtrl where
  predW0We := bits.getLsbD 0
  predW0Addr := bits.extractLsb' 1 4
  predW1We := bits.getLsbD (1 + predRfAddrWidth)
  predW1Addr := bits.extractLsb' (2 + predRfAddrWidth) 4
  predW1Src := bits.extractLsb' (2 + 2 * predRfAddrWidth) 4

def unpackRouteDirCtrl (bits : BitVec 5) : RouteDirCtrl where
  we := bits.getLsbD 0
  src := bits.extractLsb' 1 4

/-- The four directions of a network; the two networks differ only in the width constant. -/
def unpackRouteCtrl (dirCtrlWidth : ℕ) (bits : BitVec 20) : RouteCtrl where
  north := unpackRouteDirCtrl (bits.extractLsb' (0 * dirCtrlWidth) 5)
  south := unpackRouteDirCtrl (bits.extractLsb' (1 * dirCtrlWidth) 5)
  east := unpackRouteDirCtrl (bits.extractLsb' (2 * dirCtrlWidth) 5)
  west := unpackRouteDirCtrl (bits.extractLsb' (3 * dirCtrlWidth) 5)

def unpackDataRouteCtrl : BitVec 20 → RouteCtrl := unpackRouteCtrl dataRouteDirCtrlWidth

def unpackPredRouteCtrl : BitVec 20 → RouteCtrl := unpackRouteCtrl predRouteDirCtrlWidth

def unpackLsuCtrl (bits : BitVec 16) : LsuCtrl where
  lsuOp := bits.extractLsb' 0 2
  lsuAddrSrc := bits.extractLsb' lsuOpWidth 4
  lsuStoreDataSrc := bits.extractLsb' (lsuOpWidth + dataSrcWidth) 4
  lsuCommitPredEnable := bits.getLsbD (lsuOpWidth + 2 * dataSrcWidth)
  lsuCommitPredInvert := bits.getLsbD (lsuOpWidth + 2 * dataSrcWidth + 1)
  lsuCommitPredSrc := bits.extractLsb' (lsuOpWidth + 2 * dataSrcWidth + 2) 4

/-- The record of a word. The padding bits are looked at only to catch unknown values in simulation
and never reach the record. -/
def unpackTileControlWord (bits : BitVec 128) : TileControlWord where
  execCtrl := unpackExecCtrl (bits.extractLsb' execCtrlLsb 38)
  dataRfCtrl := unpackDataRfCtrl (bits.extractLsb' dataRfCtrlLsb 14)
  predRfCtrl := unpackPredRfCtrl (bits.extractLsb' predRfCtrlLsb 14)
  dataRouteCtrl := unpackDataRouteCtrl (bits.extractLsb' dataRouteCtrlLsb 20)
  predRouteCtrl := unpackPredRouteCtrl (bits.extractLsb' predRouteCtrlLsb 20)
  constAddr := bits.extractLsb' constCtrlLsb 4
  lsuCtrl := unpackLsuCtrl (bits.extractLsb' lsuCtrlLsb 16)

-- the literal widths of the vectors above are the package's
example : (execCtrlWidth, dataRfCtrlWidth, predRfCtrlWidth, dataRouteCtrlWidth, predRouteCtrlWidth,
    constCtrlWidth, lsuCtrlWidth) = (38, 14, 14, 20, 20, 4, 16) := by decide

end PredicatedMesh.RTL
