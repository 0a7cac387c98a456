/-
**What the switch says of itself: configuration, features, resources and ports.**

The structures of `include/pof_global.h` in which the switch answers during the handshake, and in which it
tells of its ports: `pof_switch_config` of 8 bytes, `pof_switch_features` of 208, `pof_flow_table_resource`
of 80 and `pof_port_status` of 128.  All of them are filled into cleared memory, so that their padding is
zero.

Main definitions:

* `PofSwitch.PofSwitchConfig`, `PofSwitchFeatures`, `PofFlowTableResource`, `PofPort` — the structures;
* `PofSwitch.switchConfigBytes`, `switchFeaturesBytes`, `flowTableResourceBytes`, `portStatusBytes` —
  writing them;
* `PofSwitch.switchConfigOf`, `switchFeaturesOf`, `flowTableResourceOf`, `portStatusOf` — reading them.

Main results:

* `PofSwitch.switchConfigOf_switchConfigBytes`, `portStatusOf_portStatusBytes`, … — **what is written is
  read;**
* `PofSwitch.pofHtoNTransferPortStatus_twice`, … — the routines for both directions undo themselves.
-/

import PofSwitch.ErrorReport

set_option relaxedAutoImplicit false
set_option autoImplicit false

namespace PofSwitch

open Buf

/-! ### The configuration -/

/-- `pof_switch_config`. -/
structure PofSwitchConfig where
  devId : UInt32
  flags : UInt16
  missSendLen : UInt16
deriving DecidableEq, Repr, Inhabited

/-- A `pof_switch_config` in memory. -/
def switchConfigBytes (c : PofSwitchConfig) : Buf :=
  [storeLE c.devId.toNat 4, storeLE c.flags.toNat 2, storeLE c.missSendLen.toNat 2].flatten

/-- A `pof_switch_config`. -/
def switchConfigOf (b : Buf) : PofSwitchConfig := ⟨word b 0, half b 4, half b 6⟩

@[simp] theorem length_switchConfigBytes (c : PofSwitchConfig) : (switchConfigBytes c).length = 8 := by
  simp [switchConfigBytes]

theorem switchConfigOf_switchConfigBytes (c : PofSwitchConfig) : switchConfigOf (switchConfigBytes c) = c := by
  cases c with
  | mk devId flags missSendLen =>
      simp only [switchConfigOf, PofSwitchConfig.mk.injEq]
      exact ⟨word_piece (i := 0) rfl rfl, half_piece (i := 1) rfl rfl, half_piece (i := 2) rfl rfl⟩

theorem pofHtoNTransferSwitchConfig_twice {b : Buf} (hb : b.length = 8) :
    pofHtoNTransferSwitchConfig (pofHtoNTransferSwitchConfig b) = b :=
  transfer_transfer (n := 8) (by decide) hb.ge

/-! ### The features -/

/-- `pof_switch_features`. -/
structure PofSwitchFeatures where
  devId : UInt32
  slotID : UInt16
  portNum : UInt16
  tableNum : UInt16
  capabilities : UInt32
  vendorId : Buf
  devFwId : Buf
  devLkupId : Buf
deriving DecidableEq, Repr

/-- The pieces of a `pof_switch_features`. -/
def switchFeaturesPieces (f : PofSwitchFeatures) : List Buf :=
  [storeLE f.devId.toNat 4, storeLE f.slotID.toNat 2, storeLE f.portNum.toNat 2, storeLE f.tableNum.toNat 2,
    zeros 2, storeLE f.capabilities.toNat 4, bytesAt f.vendorId 0 nameMaxLength,
    bytesAt f.devFwId 0 nameMaxLength, bytesAt f.devLkupId 0 nameMaxLength]

/-- A `pof_switch_features` in memory. -/
def switchFeaturesBytes (f : PofSwitchFeatures) : Buf := (switchFeaturesPieces f).flatten

/-- A `pof_switch_features`. -/
def switchFeaturesOf (b : Buf) : PofSwitchFeatures where
  devId := word b 0
  slotID := half b 4
  portNum := half b 6
  tableNum := half b 8
  capabilities := word b 12
  vendorId := (b.drop 16).take nameMaxLength
  devFwId := (b.drop 80).take nameMaxLength
  devLkupId := (b.drop 144).take nameMaxLength

/-- `pof_HtoN_transfer_switch_features`. -/
def pofHtoNTransferSwitchFeatures : Buf → Buf := transfer [.word 0, .half 4, .half 6, .half 8, .word 12]

/-- The strings fill the arrays. -/
structure PofSwitchFeatures.Shaped (f : PofSwitchFeatures) : Prop where
  length_vendorId : f.vendorId.length = nameMaxLength
  length_devFwId : f.devFwId.length = nameMaxLength
  length_devLkupId : f.devLkupId.length = nameMaxLength

@[simp] theorem length_switchFeaturesBytes (f : PofSwitchFeatures) : (switchFeaturesBytes f).length = 208 := by
  simp [switchFeaturesBytes, switchFeaturesPieces, nameMaxLength]

/-- An array of characters in a structure. -/
theorem name_piece {pieces : List Buf} {i p : ℕ} {name : Buf} (hlen : name.length = nameMaxLength)
    (h : pieces[i]? = some (bytesAt name 0 nameMaxLength)) (hp : pieceStart pieces i = p) :
    (pieces.flatten.drop p).take nameMaxLength = name :=
  (slice_piece h hp (length_bytesAt _ _ _)).trans (bytesAt_of_length hlen)

theorem switchFeaturesOf_switchFeaturesBytes {f : PofSwitchFeatures} (h : f.Shaped) :
    switchFeaturesOf (switchFeaturesBytes f) = f := by
  have hstart : ∀ {i n : ℕ}, ([4, 2, 2, 2, 2, 4, 64, 64, 64].take i).sum = n →
      pieceStart (switchFeaturesPieces f) i = n :=
    fun hn => pieceStart_eq (by simp [switchFeaturesPieces, nameMaxLength]) hn
  have hdevId : word (switchFeaturesBytes f) 0 = f.devId := word_piece (i := 0) rfl (hstart (by decide))
  have hslot : half (switchFeaturesBytes f) 4 = f.slotID := half_piece (i := 1) rfl (hstart (by decide))
  have hportNum : half (switchFeaturesBytes f) 6 = f.portNum := half_piece (i := 2) rfl (hstart (by decide))
  have htableNum : half (switchFeaturesBytes f) 8 = f.tableNum := half_piece (i := 3) rfl (hstart (by decide))
  have hcapabilities : word (switchFeaturesBytes f) 12 = f.capabilities :=
    word_piece (i := 5) rfl (hstart (by decide))
  have hvendor : ((switchFeaturesBytes f).drop 16).take nameMaxLength = f.vendorId :=
    name_piece (i := 6) h.length_vendorId rfl (hstart (by decide))
  have hfw : ((switchFeaturesBytes f).drop 80).take nameMaxLength = f.devFwId :=
    name_piece (i := 7) h.length_devFwId rfl (hstart (by decide))
  have hlkup : ((switchFeaturesBytes f).drop 144).take nameMaxLength = f.devLkupId :=
    name_piece (i := 8) h.length_devLkupId rfl (hstart (by decide))
  rw [switchFeaturesOf, hdevId, hslot, hportNum, htableNum, hcapabilities, hvendor, hfw, hlkup]

theorem pofHtoNTransferSwitchFeatures_twice {b : Buf} (hb : b.length = 208) :
    pofHtoNTransferSwitchFeatures (pofHtoNTransferSwitchFeatures b) = b :=
  transfer_transfer (n := 208) (by decide) hb.ge

/-! ### The resources -/

/-- `pof_table_resource_desc`. -/
structure PofTableResourceDesc where
  deviceId : UInt32
  type : UInt8
  tblNum : UInt8
  keyLen : UInt16
  totalSize : UInt32
deriving DecidableEq, Repr, Inhabited

/-- `POF_MAX_TABLE_TYPE`. -/
def maxTableType : ℕ := 4

/-- `pof_flow_table_resource`; its type is zero. -/
structure PofFlowTableResource where
  slotID : UInt16
  counterNum : UInt32
  meterNum : UInt32
  groupNum : UInt32
  tblRscDesc : List PofTableResourceDesc
deriving DecidableEq, Repr, Inhabited

/-- A `pof_table_resource_desc` in memory. -/
def tableResourceDescBytes (d : PofTableResourceDesc) : Buf :=
  [storeLE d.deviceId.toNat 4, [d.type, d.tblNum], storeLE d.keyLen.toNat 2, storeLE d.totalSize.toNat 4,
    zeros 4].flatten

/-- A `pof_table_resource_desc`. -/
def tableResourceDescOf (s : Buf) : PofTableResourceDesc := ⟨word s 0, s.rd 4, s.rd 5, half s 6, word s 8⟩

/-- A `pof_flow_table_resource` in memory. -/
def flowTableResourceBytes (r : PofFlowTableResource) : Buf :=
  [zeros 2, storeLE r.slotID.toNat 2, storeLE r.counterNum.toNat 4, storeLE r.meterNum.toNat 4,
    storeLE r.groupNum.toNat 4,
    (List.range maxTableType).flatMap fun i => tableResourceDescBytes (r.tblRscDesc.getD i default)].flatten

/-- A `pof_flow_table_resource`. -/
def flowTableResourceOf (b : Buf) : PofFlowTableResource where
  slotID := half b 2
  counterNum := word b 4
  meterNum := word b 8
  groupNum := word b 12
  tblRscDesc := (List.range maxTableType).map fun i => tableResourceDescOf (element 16 i (b.drop 16))

/-- `pof_HtoN_transfer_flow_table_resource`, with a `pof_HtoN_transfer_table_resource_desc` for each type. -/
def pofHtoNTransferFlowTableResource : Buf → Buf :=
  transfer ([.half 2, .word 4, .word 8, .word 12] ++
    (List.range maxTableType).flatMap fun i => [.word (16 + 16 * i), .half (22 + 16 * i), .word (24 + 16 * i)])

@[simp] theorem length_tableResourceDescBytes (d : PofTableResourceDesc) :
    (tableResourceDescBytes d).length = 16 := by
  simp [tableResourceDescBytes]

@[simp] theorem length_flowTableResourceBytes (r : PofFlowTableResource) :
    (flowTableResourceBytes r).length = 80 := by
  simp [flowTableResourceBytes, maxTableType]

theorem tableResourceDescOf_tableResourceDescBytes (d : PofTableResourceDesc) :
    tableResourceDescOf (tableResourceDescBytes d) = d := by
  cases d with
  | mk deviceId type tblNum keyLen totalSize =>
      simp only [tableResourceDescOf, PofTableResourceDesc.mk.injEq]
      exact ⟨word_piece (i := 0) rfl rfl, rd_piece (i := 1) (v := [type, tblNum]) (k := 0) rfl rfl Nat.zero_lt_two,
        rd_piece (i := 1) (v := [type, tblNum]) (k := 1) rfl rfl Nat.one_lt_two, half_piece (i := 2) rfl rfl,
        word_piece (i := 3) rfl rfl⟩

theorem flowTableResourceOf_flowTableResourceBytes {r : PofFlowTableResource}
    (h : r.tblRscDesc.length = maxTableType) :
    flowTableResourceOf (flowTableResourceBytes r) = r := by
  have hdesc : (List.range maxTableType).map (fun i =>
      tableResourceDescOf (element 16 i ((flowTableResourceBytes r).drop 16))) = r.tblRscDesc := by
    have hdrop : (flowTableResourceBytes r).drop 16 = (List.range maxTableType).flatMap
        (fun i => tableResourceDescBytes (r.tblRscDesc.getD i default)) ++ [] :=
      drop_piece (i := 5) (p := 16) rfl rfl
    rw [hdrop]
    exact map_element_flatMap h default (fun _ => length_tableResourceDescBytes)
      (fun _ d _ => tableResourceDescOf_tableResourceDescBytes d) _
  have hslot : half (flowTableResourceBytes r) 2 = r.slotID := half_piece (i := 1) rfl rfl
  have hcounter : word (flowTableResourceBytes r) 4 = r.counterNum := word_piece (i := 2) rfl rfl
  have hmeter : word (flowTableResourceBytes r) 8 = r.meterNum := word_piece (i := 3) rfl rfl
  have hgroup : word (flowTableResourceBytes r) 12 = r.groupNum := word_piece (i := 4) rfl rfl
  rw [flowTableResourceOf, hdesc, hslot, hcounter, hmeter, hgroup]

theorem pofHtoNTransferFlowTableResource_twice {b : Buf} (hb : b.length = 80) :
    pofHtoNTransferFlowTableResource (pofHtoNTransferFlowTableResource b) = b :=
  transfer_transfer (n := 80) (by decide) hb.ge

/-! ### The ports -/

/-- `pof_port`. -/
structure PofPort where
  slotID : UInt16
  portId : UInt16
  deviceId : UInt32
  hwAddr : Buf
  name : Buf
  config : UInt32
  state : UInt32
  curr : UInt32
  advertised : UInt32
  supported : UInt32
  peer : UInt32
  currSpeed : UInt32
  maxSpeed : UInt32
  ofEnable : UInt8
deriving DecidableEq, Repr

/-- The pieces of a `pof_port`. -/
def portPieces (p : PofPort) : List Buf :=
  [storeLE p.slotID.toNat 2, storeLE p.portId.toNat 2, storeLE p.deviceId.toNat 4, bytesAt p.hwAddr 0 6,
    zeros 2, bytesAt p.name 0 nameMaxLength, storeLE p.config.toNat 4, storeLE p.state.toNat 4,
    storeLE p.curr.toNat 4, storeLE p.advertised.toNat 4, storeLE p.supported.toNat 4, storeLE p.peer.toNat 4,
    storeLE p.currSpeed.toNat 4, storeLE p.maxSpeed.toNat 4, [p.ofEnable], zeros 7]

/-- A `pof_port` in memory. -/
def portBytes (p : PofPort) : Buf := (portPieces p).flatten

/-- A `pof_port`. -/
def portOf (b : Buf) : PofPort where
  slotID := half b 0
  portId := half b 2
  deviceId := word b 4
  hwAddr := (b.drop 8).take 6
  name := (b.drop 16).take nameMaxLength
  config := word b 80
  state := word b 84
  curr := word b 88
  advertised := word b 92
  supported := word b 96
  peer := word b 100
  currSpeed := word b 104
  maxSpeed := word b 108
  ofEnable := b.rd 112

/-- The arrays have the lengths of the C arrays. -/
structure PofPort.Shaped (p : PofPort) : Prop where
  length_hwAddr : p.hwAddr.length = 6
  length_name : p.name.length = nameMaxLength

/-- A `pof_port_status` in memory. -/
def portStatusBytes (reason : UInt8) (p : PofPort) : Buf := (reason :: zeros 7) ++ portBytes p

/-- A `pof_port_status`: the reason and the port. -/
def portStatusOf (b : Buf) : UInt8 × PofPort := (b.rd 0, portOf (b.drop 8))

/-- `pof_HtoN_transfer_port_status`; `port` has the statements of `pof_NtoH_transfer_port`. -/
def pofHtoNTransferPortStatus (b : Buf) : Buf := onData 8 pofNtoHTransferPort b

@[simp] theorem length_portBytes (p : PofPort) : (portBytes p).length = 120 := by
  simp [portBytes, portPieces, nameMaxLength]

@[simp] theorem length_portStatusBytes (reason : UInt8) (p : PofPort) :
    (portStatusBytes reason p).length = 128 := by
  simp [portStatusBytes]

/-- Where the pieces of a port start. -/
theorem pieceStart_portPieces (p : PofPort) {i n : ℕ}
    (h : ([2, 2, 4, 6, 2, 64, 4, 4, 4, 4, 4, 4, 4, 4, 1, 7].take i).sum = n) : pieceStart (portPieces p) i = n :=
  pieceStart_eq (by simp [portPieces, nameMaxLength]) h

theorem portOf_portBytes {p : PofPort} (h : p.Shaped) : portOf (portBytes p) = p := by
  have hhwAddr : ((portBytes p).drop 8).take 6 = p.hwAddr :=
    (slice_piece (i := 3) rfl (pieceStart_portPieces p (by decide)) (length_bytesAt _ _ _)).trans
      (bytesAt_of_length h.length_hwAddr)
  have hname : ((portBytes p).drop 16).take nameMaxLength = p.name :=
    name_piece (i := 5) h.length_name rfl (pieceStart_portPieces p (by decide))
  have hnumber : ∀ {i n : ℕ} {v : UInt32}, (portPieces p)[i]? = some (storeLE v.toNat 4) →
      ([2, 2, 4, 6, 2, 64, 4, 4, 4, 4, 4, 4, 4, 4, 1, 7].take i).sum = n → word (portBytes p) n = v :=
    fun hpiece hn => word_piece hpiece (pieceStart_portPieces p hn)
  have hslot : half (portBytes p) 0 = p.slotID := half_piece (i := 0) rfl (pieceStart_portPieces p (by decide))
  have hport : half (portBytes p) 2 = p.portId := half_piece (i := 1) rfl (pieceStart_portPieces p (by decide))
  have henable : (portBytes p).rd 112 = p.ofEnable :=
    rd_piece (i := 14) (v := [p.ofEnable]) (k := 0) rfl
      ((Nat.add_zero _).trans (pieceStart_portPieces p (by decide))) Nat.zero_lt_one
  have hdevice : word (portBytes p) 4 = p.deviceId := hnumber (i := 2) rfl (by decide)
  have hconfig : word (portBytes p) 80 = p.config := hnumber (i := 6) rfl (by decide)
  have hstate : word (portBytes p) 84 = p.state := hnumber (i := 7) rfl (by decide)
  have hcurr : word (portBytes p) 88 = p.curr := hnumber (i := 8) rfl (by decide)
  have hadvertised : word (portBytes p) 92 = p.advertised := hnumber (i := 9) rfl (by decide)
  have hsupported : word (portBytes p) 96 = p.supported := hnumber (i := 10) rfl (by decide)
  have hpeer : word (portBytes p) 100 = p.peer := hnumber (i := 11) rfl (by decide)
  have hcurrSpeed : word (portBytes p) 104 = p.currSpeed := hnumber (i := 12) rfl (by decide)
  have hmaxSpeed : word (portBytes p) 108 = p.maxSpeed := hnumber (i := 13) rfl (by decide)
  rw [portOf, hslot, hport, hdevice, hhwAddr, hname, hconfig, hstate, hcurr, hadvertised, hsupported, hpeer,
    hcurrSpeed, hmaxSpeed, henable]

theorem portStatusOf_portStatusBytes (reason : UInt8) {p : PofPort} (h : p.Shaped) :
    portStatusOf (portStatusBytes reason p) = (reason, p) := by
  have hdrop : (portStatusBytes reason p).drop 8 = portBytes p := List.drop_left' rfl
  rw [portStatusOf, hdrop, portOf_portBytes h]
  rfl

theorem pofHtoNTransferPortStatus_twice {b : Buf} (hb : b.length = 128) :
    pofHtoNTransferPortStatus (pofHtoNTransferPortStatus b) = b := by
  obtain ⟨hd, d, rfl, hhd, hd'⟩ := exists_head_data (n := 8) (m := 120) hb
  have hport : pofNtoHTransferPort (pofNtoHTransferPort d) = d := transfer_transfer (n := 120) (by decide) hd'.ge
  rw [pofHtoNTransferPortStatus, pofHtoNTransferPortStatus, onData_append _ hhd, onData_append _ hhd, hport]

end PofSwitch
