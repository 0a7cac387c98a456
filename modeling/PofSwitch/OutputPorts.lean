/-
**The ports a packet is sent to: `execute_OUTPUT` and the message `POFT_PORT_MOD`.**

A port is named by a number of 16 bits in an `OUTPUT` action and of 32 bits in a `POFT_PORT_MOD`, and both
are cut to eight bits by `poflr_get_port_with_pofindex`.  Number `255` of an `OUTPUT` stands for every port
of the slot but the one the packet came from, the local port and the ports whose `config` says no flood.
The loop over these sets the port in the packet record and sends again, so that it depends on the frame
being put together anew from the same parts.

Main definitions:

* `PofSwitch.PortsDistinct` — the ports of a slot have different numbers;
* `PofSwitch.DpPacket.frame`, `PofSwitch.metadataBytes` — the frame, and the front of it;
* `PofSwitch.SendsToPort`, `PofSwitch.portMod`, `PofSwitch.SetsPort` — what an action and a message are to do.

Main results:

* `PofSwitch.port_ids_iff` — **the port named is the one used exactly when its number is below 256 or no
  port has what is left of it;**
* `PofSwitch.flood_sends_once` — **a flood sends one frame, once to each of the ports.**
-/

import PofSwitch.PacketOut

set_option relaxedAutoImplicit false
set_option autoImplicit false

namespace PofSwitch

open Prog Buf

/-! ### The ports of a slot -/

/-- The ports of a slot are different structures with different numbers, and are found by these. -/
structure PortsDistinct (lr : LocalResource) : Prop where
  addr : (lr.portPofIndexMap.nodes.map PortInfo.addr).Nodup
  index : (lr.portPofIndexMap.nodes.map PortInfo.pofIndex).Nodup
  hash : ∀ port ∈ lr.portPofIndexMap.nodes, port.hash = hmapHashForLinear port.pofIndex.toUInt32

theorem UInt8_toUInt32_inj {a b : UInt8} (h : a.toUInt32 = b.toUInt32) : a = b := by
  refine UInt8.toNat_inj.1 ?_
  rw [← UInt8.toNat_toUInt32 a, h, UInt8.toNat_toUInt32]

section Ports

variable {lr : LocalResource}

/-- The lookup finds the port with the number. -/
theorem PortsDistinct.get_eq_some (h : PortsDistinct lr) {k : UInt8} {port : PortInfo} :
    poflrGetPortWithPofindex k lr = some port ↔ port ∈ lr.portPofIndexMap.nodes ∧ port.pofIndex = k := by
  constructor
  · intro hget
    obtain ⟨hmem, hhash⟩ := Hmap.nodeGetWithHash_eq_some hget
    exact ⟨hmem, UInt8_toUInt32_inj ((h.hash port hmem).symm.trans hhash)⟩
  · rintro ⟨hmem, rfl⟩
    have hself := decide_eq_true (h.hash port hmem)
    refine Hmap.find?_eq_some_of_unique hmem hself fun other hother hfound => ?_
    have hhash : other.hash = hmapHashForLinear port.pofIndex.toUInt32 := of_decide_eq_true hfound
    rw [h.hash other hother] at hhash
    exact List.inj_on_of_nodup_map h.index hother hmem (UInt8_toUInt32_inj hhash)

theorem PortsDistinct.get_eq_none (h : PortsDistinct lr) {k : UInt8} :
    poflrGetPortWithPofindex k lr = none ↔ ∀ port ∈ lr.portPofIndexMap.nodes, port.pofIndex ≠ k := by
  constructor
  · intro hnone port hmem hk
    rw [h.get_eq_some.2 ⟨hmem, hk⟩] at hnone
    cases hnone
  · intro hall
    cases hget : poflrGetPortWithPofindex k lr with
    | none => rfl
    | some port =>
        obtain ⟨hmem, hk⟩ := h.get_eq_some.1 hget
        exact absurd hk (hall port hmem)

end Ports

/-! ### The frame -/

/-- The frame that is sent. -/
def DpPacket.frame (dpp : DpPacket) : Buf := (outputBytes dpp).take dpp.outputWholeLen.toNat

/-- `k` bytes of a buffer from bit `pos` on. -/
def metadataBytes (b : Buf) (pos k : ℕ) : Buf := (List.range k).map fun i => u8 (fieldNat b (pos + 8 * i) 8)

@[simp] theorem length_metadataBytes (b : Buf) (pos k : ℕ) : (metadataBytes b pos k).length = k := by
  simp [metadataBytes]

theorem bit_metadataBytes (b : Buf) (pos : ℕ) {k j : ℕ} (hj : j < 8 * k) :
    (metadataBytes b pos k).bit j = b.bit (pos + j) := by
  have hrd : rd (metadataBytes b pos k) (j / 8) = u8 (fieldNat b (pos + 8 * (j / 8)) 8) := by
    simp [rd, metadataBytes, show j / 8 < k by omega]
  rw [bit, hrd, bitOf, testBit_u8, testBit_fieldNat _ _ (show 7 - j % 8 < 8 by omega)]
  simp only [show 7 - j % 8 < 8 by omega, decide_true, Bool.true_and]
  congr 1
  omega

/-- The bytes up to the end of a copy. -/
theorem take_paste_add {b src : Buf} {p : ℕ} (h : p + src.length ≤ b.length) :
    (paste b p src).take (p + src.length) = b.take p ++ src := by
  rw [paste, List.take_of_length_le (show src.length ≤ b.length - p by omega)]
  exact List.take_left' (by rw [List.length_append, List.length_take, Nat.min_eq_left (by omega)])

/-- The record holds a frame of metadata and packet bytes that fits into `buf_out`. -/
structure FrameReady (frame : Buf) (dpp : DpPacket) : Prop where
  whole : dpp.outputWholeLen.toNat = dpp.outputMetadataLen.toNat + dpp.outputPacketLen.toNat
  room : dpp.outputWholeLen.toNat ≤ dpp.bufOut.length
  mtu : dpp.outputWholeLen.toNat ≤ mtuLength
  bits : 8 * dpp.outputMetadataLen.toNat < 2 ^ 16
  parts : frame = metadataBytes dpp.metadata dpp.outputMetadataOffset.toNat dpp.outputMetadataLen.toNat ++
    dpp.payload

theorem length_outputBytes (dpp : DpPacket) : (outputBytes dpp).length = dpp.bufOut.length := by
  rw [outputBytes, length_paste, length_pofbfCopyBit]

/-- **The frame is the metadata followed by the rest of the packet**, whatever was in `buf_out`. -/
theorem FrameReady.frame_eq {frame : Buf} {dpp : DpPacket} (h : FrameReady frame dpp) : dpp.frame = frame := by
  have hroom := h.room
  have hbits : (dpp.outputMetadataLen * 8).toNat = 8 * dpp.outputMetadataLen.toNat := by
    rw [UInt16.toNat_mul, Nat.mul_comm]
    exact Nat.mod_eq_of_lt h.bits
  have hpayload : dpp.payload.length = dpp.outputPacketLen.toNat := by
    simp [DpPacket.payload, bytesAt]
  rw [h.whole] at hroom
  have hsplit : dpp.frame = (pofbfCopyBit dpp.metadata dpp.bufOut dpp.outputMetadataOffset
      (dpp.outputMetadataLen * 8)).take dpp.outputMetadataLen.toNat ++ dpp.payload := by
    rw [DpPacket.frame, h.whole, ← hpayload]
    exact take_paste_add (by rw [length_pofbfCopyBit, hpayload]; exact hroom)
  rw [hsplit, h.parts]
  congr 1
  refine ext_bit ?_ fun j hj => ?_
  · rw [List.length_take, length_pofbfCopyBit, length_metadataBytes, Nat.min_eq_left (by omega)]
  · rw [List.length_take, length_pofbfCopyBit, Nat.min_eq_left (by omega)] at hj
    rw [bit_take _ hj, bit_metadataBytes _ _ hj, bit_pofbfCopyBit, hbits, if_pos (by omega)]
    simp [hj]

/-! ### Sending -/

section Send

variable {env : DpEnv} {lrPort : LocalResource} {s : DpState}

/-- The state after the frame has been put together. -/
def DpState.assembled (s : DpState) : DpState := { s with dpp := { s.dpp with bufOut := outputBytes s.dpp } }

/-- A frame that is not too long is sent to the port found. -/
theorem exec_pofdpSendRaw_sent (env : DpEnv) (lrPort : LocalResource) {port : PortInfo}
    (hmtu : s.dpp.outputWholeLen.toNat ≤ mtuLength)
    (hport : poflrGetPortWithPofindex s.dpp.outputPortId.toUInt8 lrPort = some port)
    (hsend : env.sendto s.trace port s.dpp.frame = true) :
    exec (pofdpSendRaw env lrPort) s = (.ok (), { s.assembled with
      trace := s.trace ++ [.output lrPort.slotID port s.dpp.frame] }) := by
  rw [pofdpSendRaw, modifyDpp, exec_bind_ok (exec_modify _), exec_bind_ok exec_get,
    exec_bind_ok (exec_failIf_neg (Nat.not_lt.2 hmtu) _ _ _), sendRaw, exec_bind_ok exec_get]
  dsimp only
  rw [hport, exec_bind_ok (exec_liftOption_some port _)]
  exact exec_bind_ok (exec_failIf_neg (show ¬ env.sendto s.trace port s.dpp.frame = false by rw [hsend]; decide)
    _ _ _)

/-- Otherwise nothing is sent. -/
theorem exec_pofdpSendRaw_refused (env : DpEnv) (lrPort : LocalResource)
    (h : s.dpp.outputWholeLen.toNat ≤ mtuLength → ∀ port,
      poflrGetPortWithPofindex s.dpp.outputPortId.toUInt8 lrPort = some port →
        env.sendto s.trace port s.dpp.frame = false) :
    ∃ e, exec (pofdpSendRaw env lrPort) s = (.error (.error e), s.assembled) := by
  rw [pofdpSendRaw, modifyDpp, exec_bind_ok (exec_modify _), exec_bind_ok exec_get]
  by_cases hmtu : s.dpp.outputWholeLen.toNat ≤ mtuLength
  · rw [exec_bind_ok (exec_failIf_neg (Nat.not_lt.2 hmtu) _ _ _), sendRaw, exec_bind_ok exec_get]
    dsimp only
    cases hport : poflrGetPortWithPofindex s.dpp.outputPortId.toUInt8 lrPort with
    | none => exact ⟨_, rfl⟩
    | some port =>
        rw [exec_bind_ok (exec_liftOption_some port _)]
        exact ⟨_, exec_bind_error (exec_failIf_pos (h hmtu port hport) _ _ _)⟩
  · exact ⟨_, exec_bind_error (exec_failIf_pos (Nat.not_le.1 hmtu) _ _ _)⟩

/-- `execute_OUTPUT` fails before it looks for the port, and nothing is sent. -/
theorem exec_outputAction_refused {data : Buf} {value : UInt32}
    (hread : exec (pofdpGet32value (data.rd 0) data 8) s = (.ok value, s))
    (h : ((half data 6).toNat : ℤ) > s.dpp.leftLen ∨
      bytenumCeil ((half data 4).toNat + (half data 2).toNat) > s.dpp.metadataLen.toNat ∨
      pofdpGetLocalResource env (value >>> 16).toUInt16 s.lr = none) :
    ∃ e t, exec (outputAction env data) s = (.error (.error e), t) ∧ t.trace = s.trace := by
  by_cases hlen : ((half data 6).toNat : ℤ) > s.dpp.leftLen
  · refine ⟨⟨.softwareFailed, .pofPacketLenError⟩, s, ?_, rfl⟩
    rw [outputAction, exec_bind_ok exec_get]
    exact exec_bind_error (exec_failIf_pos hlen _ _ s)
  by_cases hmeta : bytenumCeil ((half data 4).toNat + (half data 2).toNat) > s.dpp.metadataLen.toNat
  · refine ⟨⟨.softwareFailed, .pofMetadataLenError⟩, s, ?_, rfl⟩
    rw [outputAction, exec_bind_ok exec_get, exec_bind_ok (exec_failIf_neg hlen _ _ s)]
    exact exec_bind_error (exec_failIf_pos hmeta _ _ s)
  have hslot := (h.resolve_left hlen).resolve_left hmeta
  refine ⟨⟨.softwareFailed, .pofInvalidSlotId⟩, { s with dpp := { s.dpp with
    outputSlotId := (value >>> 16).toUInt16, outputPortId := value.toUInt16 } }, ?_, rfl⟩
  rw [exec_outputAction env hlen hmeta, exec_bind_ok hread, outputTo, modifyDpp, exec_bind_ok (exec_modify _),
    hslot]
  rfl

/-- The record before the frame of an `OUTPUT` is sent. -/
def outputRecord (data : Buf) (value : UInt32) (dpp : DpPacket) : DpPacket :=
  fillOutput data { dpp with outputSlotId := (value >>> 16).toUInt16, outputPortId := value.toUInt16 }

/-- The port of the record is not part of the frame. -/
theorem frame_outputRecord (data : Buf) (value : UInt32) (dpp : DpPacket) :
    (outputRecord data value dpp).frame = (fillOutput data dpp).frame := rfl

/-- `execute_OUTPUT` from the slot on. -/
theorem exec_outputAction_slot {data : Buf} {value : UInt32}
    (hread : exec (pofdpGet32value (data.rd 0) data 8) s = (.ok value, s))
    (hlen : ((half data 6).toNat : ℤ) ≤ s.dpp.leftLen)
    (hmeta : bytenumCeil ((half data 4).toNat + (half data 2).toNat) ≤ s.dpp.metadataLen.toNat)
    (hslot : pofdpGetLocalResource env (value >>> 16).toUInt16 s.lr = some lrPort) :
    exec (outputAction env data) s =
      exec (if value.toUInt16 = 255 then floodLoop env lrPort lrPort.portPofIndexMap.order
        else pofdpSendRaw env lrPort) { s with dpp := outputRecord data value s.dpp } := by
  rw [exec_outputAction env (not_lt.2 hlen) (not_lt.2 hmeta), exec_bind_ok hread, outputTo, modifyDpp,
    exec_bind_ok (exec_modify _), hslot, exec_bind_ok (exec_liftOption_some lrPort _), modifyDpp,
    exec_bind_ok (exec_modify _)]
  rfl

end Send

/-! ### Flooding -/

section Flood

variable {env : DpEnv} {lrPort : LocalResource} {s : DpState} {frame : Buf}

/-- What is sent does not depend on the port in the record and on what was in `buf_out`. -/
theorem FrameReady.next (h : FrameReady frame s.dpp) (port : UInt16) :
    FrameReady frame { s.dpp with outputPortId := port, bufOut := outputBytes s.dpp } where
  whole := h.whole
  room := (length_outputBytes s.dpp).symm ▸ h.room
  mtu := h.mtu
  bits := h.bits
  parts := h.parts

/-- The loop over the ports sends the frame to those it is meant for, in the order of the loop. -/
theorem exec_floodLoop (hports : PortsDistinct lrPort) (hsend : ∀ l port f, env.sendto l port f = true)
    {ports : List PortInfo} (hmem : ∀ port ∈ ports, port ∈ lrPort.portPofIndexMap.nodes)
    (hready : FrameReady frame s.dpp) :
    ∃ t, exec (floodLoop env lrPort ports) s = (.ok (), t) ∧
      t.trace = s.trace ++ (ports.filter (floodTo env s.dpp)).map fun port =>
        .output lrPort.slotID port frame := by
  induction ports generalizing s with
  | nil => exact ⟨s, rfl, by simp⟩
  | cons port ports ih =>
      have hrest : ∀ p ∈ ports, p ∈ lrPort.portPofIndexMap.nodes :=
        fun p hp => hmem p (List.mem_cons_of_mem port hp)
      rw [floodLoop, exec_bind_ok exec_get]
      by_cases hto : floodTo env s.dpp port = true
      · rw [if_pos hto, modifyDpp, exec_bind_ok (exec_modify _)]
        -- the port in the record is this one, and the lookup finds it
        have hready' : FrameReady frame { s.dpp with outputPortId := port.pofIndex.toUInt16 } :=
          ⟨hready.whole, hready.room, hready.mtu, hready.bits, hready.parts⟩
        have hport : poflrGetPortWithPofindex port.pofIndex.toUInt16.toUInt8 lrPort = some port := by
          rw [UInt8.toUInt8_toUInt16]
          exact hports.get_eq_some.2 ⟨hmem port List.mem_cons_self, rfl⟩
        have hsent := exec_pofdpSendRaw_sent env lrPort
          (s := { s with dpp := { s.dpp with outputPortId := port.pofIndex.toUInt16 } }) hready'.mtu hport
          (hsend _ _ _)
        rw [exec_bind_ok hsent]
        obtain ⟨t, ht, htrace⟩ := ih (s := { s with
            dpp := { s.dpp with
              outputPortId := port.pofIndex.toUInt16
              bufOut := outputBytes { s.dpp with outputPortId := port.pofIndex.toUInt16 } }
            trace := s.trace ++ [.output lrPort.slotID port
              (DpPacket.frame { s.dpp with outputPortId := port.pofIndex.toUInt16 })] })
          hrest (hready.next _)
        refine ⟨t, ht, ?_⟩
        rw [htrace, List.filter_cons_of_pos hto, List.map_cons, hready'.frame_eq, List.append_assoc]
        rfl
      · rw [if_neg hto]
        obtain ⟨t, ht, htrace⟩ := ih hrest hready
        refine ⟨t, ht, ?_⟩
        rw [htrace, List.filter_cons_of_neg hto]

/-- The arrays of a packet record have the sizes of the source, and `buf_offset` points into `buf`. -/
structure RecordOk (dpp : DpPacket) : Prop where
  start : 0 ≤ dpp.bufOffset
  bufOut : dpp.bufOut.length = packetRawMaxLen
  metadataLen : dpp.metadataLen.toNat = metadataMaxLen

/-- The frame of an `OUTPUT`: metadata from bit `metadata_offset` on, and the window from `packet_offset`
on. -/
def outputFrame (data : Buf) (dpp : DpPacket) : Buf :=
  metadataBytes dpp.metadata (half data 2).toNat (bytenumCeil (half data 4).toNat) ++
    dpp.window.bytesAt (half data 6).toNat (dpp.leftLen.toNat - (half data 6).toNat)

theorem frameReady_outputRecord {data : Buf} (value : UInt32) {dpp : DpPacket} (hrecord : RecordOk dpp)
    (hlen : ((half data 6).toNat : ℤ) ≤ dpp.leftLen)
    (hmeta : (half data 2).toNat + 8 * bytenumCeil (half data 4).toNat ≤ 8 * metadataMaxLen)
    (htotal : dpp.leftLen - (half data 6).toNat + bytenumCeil (half data 4).toNat ≤ mtuLength) :
    FrameReady (outputFrame data dpp) (outputRecord data value dpp) := by
  rw [metadataMaxLen] at hmeta
  rw [mtuLength] at htotal
  have hmetaLen : (outputRecord data value dpp).outputMetadataLen.toNat = bytenumCeil (half data 4).toNat := by
    change (UInt16.ofNat _).toNat = _
    rw [UInt16.toNat_ofNat', Nat.mod_eq_of_lt (by omega)]
  have hpacketLen : (outputRecord data value dpp).outputPacketLen.toNat =
      dpp.leftLen.toNat - (half data 6).toNat := by
    change (toUInt16 (dpp.leftLen - (half data 6).toNat)).toNat = _
    rw [toUInt16, UInt16.toNat_ofNat']
    omega
  have hwhole : (outputRecord data value dpp).outputWholeLen.toNat =
      (outputRecord data value dpp).outputMetadataLen.toNat +
        (outputRecord data value dpp).outputPacketLen.toNat := by
    change ((outputRecord data value dpp).outputPacketLen + (outputRecord data value dpp).outputMetadataLen).toNat
      = _
    rw [UInt16.toNat_add, Nat.mod_eq_of_lt (by omega), Nat.add_comm]
  refine ⟨hwhole, ?_, ?_, by omega, ?_⟩
  · change _ ≤ dpp.bufOut.length
    rw [hwhole, hrecord.bufOut, packetRawMaxLen]
    omega
  · rw [hwhole, mtuLength]
    omega
  · rw [hmetaLen, outputFrame]
    congr 1
    rw [← hpacketLen]
    exact (@payload_fillOutput data { dpp with
      outputSlotId := (value >>> 16).toUInt16, outputPortId := value.toUInt16 } hrecord.start).symm

/-- **An `OUTPUT` to port `255` sends one frame, once to each port of the slot but the port the packet came
from, the local port and those with `config` 16, and to no other: the bytes of the metadata, and behind
them the packet from `packet_offset` on.** -/
theorem flood_sends_once {data : Buf} {value : UInt32} (hports : PortsDistinct lrPort)
    (hsend : ∀ l port f, env.sendto l port f = true)
    (hread : exec (pofdpGet32value (data.rd 0) data 8) s = (.ok value, s)) (hflood : value.toUInt16 = 255)
    (hslot : pofdpGetLocalResource env (value >>> 16).toUInt16 s.lr = some lrPort)
    (hrecord : RecordOk s.dpp) (hlen : ((half data 6).toNat : ℤ) ≤ s.dpp.leftLen)
    (hmeta : (half data 2).toNat + 8 * bytenumCeil (half data 4).toNat ≤ 1024)
    (htotal : s.dpp.leftLen - (half data 6).toNat + bytenumCeil (half data 4).toNat ≤ mtuLength) :
    ∃ (t : DpState) (ports : List PortInfo), exec (outputAction env data) s = (.ok (), t) ∧
      t.trace = s.trace ++ ports.map (fun port => .output lrPort.slotID port (outputFrame data s.dpp)) ∧
      ports.Nodup ∧ ∀ port, port ∈ ports ↔ port ∈ lrPort.portPofIndexMap.nodes ∧
        port.pofIndex.toUInt32 ≠ s.dpp.oriPortId ∧ port.pofIndex ≠ env.localPortIndex ∧ port.config ≠ 16 := by
  have hready := frameReady_outputRecord value hrecord hlen hmeta htotal
  have hcheck : bytenumCeil ((half data 4).toNat + (half data 2).toNat) ≤ s.dpp.metadataLen.toNat := by
    rw [hrecord.metadataLen, metadataMaxLen]
    unfold bytenumCeil at hmeta ⊢
    omega
  obtain ⟨t, ht, htrace⟩ := exec_floodLoop (s := { s with dpp := outputRecord data value s.dpp }) hports hsend
    (fun port hport => (Hmap.mem_order _).1 hport) hready
  refine ⟨t, lrPort.portPofIndexMap.order.filter (floodTo env s.dpp), ?_, htrace, ?_, fun port => ?_⟩
  · rw [exec_outputAction_slot hread hlen hcheck hslot, if_pos hflood, ht]
  · have hnodup : lrPort.portPofIndexMap.nodes.Nodup := hports.index.of_map _
    exact ((Hmap.order_perm _).nodup_iff.2 hnodup).filter _
  · rw [List.mem_filter, Hmap.mem_order, floodTo, decide_eq_true_eq]

end Flood

/-! ### The port that is named -/

/-- The checks of `execute_OUTPUT` and of `pofdp_send_raw` on the lengths. -/
structure OutputFits (data : Buf) (dpp : DpPacket) : Prop where
  packet : ((half data 6).toNat : ℤ) ≤ dpp.leftLen
  metadata : bytenumCeil ((half data 4).toNat + (half data 2).toNat) ≤ dpp.metadataLen.toNat
  whole : (fillOutput data dpp).outputWholeLen.toNat ≤ mtuLength

/-- An `OUTPUT` sends to the port of the slot whose number is `id`, and fails without sending when there is
none, the lengths are refused or `sendto` fails. -/
structure SendsToPort (env : DpEnv) (data : Buf) (s : DpState) (slot : Option LocalResource) (id : ℕ) : Prop where
  found : ∀ lrPort port, slot = some lrPort → port ∈ lrPort.portPofIndexMap.nodes → port.pofIndex.toNat = id →
    OutputFits data s.dpp → env.sendto s.trace port (fillOutput data s.dpp).frame = true →
    ∃ t, exec (outputAction env data) s = (.ok (), t) ∧
      t.trace = s.trace ++ [.output lrPort.slotID port (fillOutput data s.dpp).frame]
  refused : (∀ lrPort port, slot = some lrPort → port ∈ lrPort.portPofIndexMap.nodes →
      port.pofIndex.toNat = id → OutputFits data s.dpp →
      env.sendto s.trace port (fillOutput data s.dpp).frame = false) →
    ∃ e t, exec (outputAction env data) s = (.error (.error e), t) ∧ t.trace = s.trace

/-- `POFT_PORT_MOD` on the slots of the switch. -/
def portMod (slotID : UInt16) (portId : UInt32) (ofEnable : UInt8) : List LocalResource → Ret × List LocalResource
  | [] => (.error ⟨.softwareFailed, .pofInvalidSlotId⟩, [])
  | lr :: slots =>
      if lr.slotID = slotID then
        let r := poflrPortOpenflowEnable portId ofEnable lr
        (r.1, r.2 :: slots)
      else
        let r := portMod slotID portId ofEnable slots
        (r.1, lr :: r.2)

/-- The slot with another flag for one port. -/
def LocalResource.enablePort (lr : LocalResource) (port : PortInfo) (flag : UInt8) : LocalResource :=
  { lr with portPofIndexMap := { lr.portPofIndexMap with
      nodes := lr.portPofIndexMap.nodes.map fun p => if p = port then { p with ofEnable := flag } else p } }

/-- A `POFT_PORT_MOD` sets the flag of the port with the number, in the slot with the number, and fails
without a change when there is none. -/
structure SetsPort (slotID : UInt16) (portId : UInt32) (flag : UInt8) (slots : List LocalResource) : Prop where
  found : ∀ lr ∈ slots, lr.slotID = slotID → ∀ port ∈ lr.portPofIndexMap.nodes,
    port.pofIndex.toNat = portId.toNat → portMod slotID portId flag slots =
      (.ok (), slots.map fun r => if r.slotID = slotID then lr.enablePort port flag else r)
  missing : (∀ lr ∈ slots, lr.slotID = slotID → ∀ port ∈ lr.portPofIndexMap.nodes,
      port.pofIndex.toNat ≠ portId.toNat) →
    ∃ e, portMod slotID portId flag slots = (.error e, slots)

section Named

variable {lr : LocalResource}

/-- What the lookup finds for a number of which `k` is left. -/
theorem PortsDistinct.get_cut (h : PortsDistinct lr) {id : ℕ} {k : UInt8} (hk : k.toNat = id % 256)
    {port : PortInfo} : poflrGetPortWithPofindex k lr = some port ↔
      port ∈ lr.portPofIndexMap.nodes ∧ port.pofIndex.toNat = id % 256 := by
  rw [h.get_eq_some, ← hk, UInt8.toNat_inj]

section Output

variable {env : DpEnv} {data : Buf} {s : DpState} {value : UInt32}

theorem toNat_outputPortId (data : Buf) (value : UInt32) (dpp : DpPacket) :
    (outputRecord data value dpp).outputPortId.toUInt8.toNat = value.toUInt16.toNat % 256 := by
  change value.toUInt16.toUInt8.toNat = _
  rw [UInt16.toNat_toUInt8]

/-- The action from the slot on, when the lengths pass and the slot is found. -/
theorem exec_outputAction_port {lrPort : LocalResource}
    (hread : exec (pofdpGet32value (data.rd 0) data 8) s = (.ok value, s)) (hflood : value.toUInt16 ≠ 255)
    (hlen : ((half data 6).toNat : ℤ) ≤ s.dpp.leftLen)
    (hmeta : bytenumCeil ((half data 4).toNat + (half data 2).toNat) ≤ s.dpp.metadataLen.toNat)
    (hlr : pofdpGetLocalResource env (value >>> 16).toUInt16 s.lr = some lrPort) :
    exec (outputAction env data) s =
      exec (pofdpSendRaw env lrPort) { s with dpp := outputRecord data value s.dpp } := by
  rw [exec_outputAction_slot hread hlen hmeta hlr, if_neg hflood]

/-- The number that is sent to is the number cut to eight bits, so it is the one that was asked for when
that needs no cut, or when no port has the number that is left. -/
theorem sendsToPort_of (hread : exec (pofdpGet32value (data.rd 0) data 8) s = (.ok value, s))
    (hflood : value.toUInt16 ≠ 255)
    (hports : ∀ lrPort, pofdpGetLocalResource env (value >>> 16).toUInt16 s.lr = some lrPort →
      PortsDistinct lrPort)
    (hcond : ¬ OutputFits data s.dpp ∨ value.toUInt16.toNat < 256 ∨
      ∀ lrPort, pofdpGetLocalResource env (value >>> 16).toUInt16 s.lr = some lrPort →
        ∀ port ∈ lrPort.portPofIndexMap.nodes, port.pofIndex.toNat ≠ value.toUInt16.toNat % 256) :
    SendsToPort env data s (pofdpGetLocalResource env (value >>> 16).toUInt16 s.lr) value.toUInt16.toNat := by
  have hcut := toNat_outputPortId data value s.dpp
  constructor
  · intro lrPort port hlr hmem hindex hfits hsend
    have hlt := port.pofIndex.toNat_lt
    have hget := ((hports lrPort hlr).get_cut hcut).2 ⟨hmem, by rw [hindex, Nat.mod_eq_of_lt (by omega)]⟩
    rw [← frame_outputRecord data value] at hsend ⊢
    have hsent := exec_pofdpSendRaw_sent env lrPort (s := { s with dpp := outputRecord data value s.dpp })
      hfits.whole hget hsend
    rw [exec_outputAction_port hread hflood hfits.packet hfits.metadata hlr, hsent]
    exact ⟨_, rfl, rfl⟩
  · intro hrefused
    by_cases hfits : ((half data 6).toNat : ℤ) ≤ s.dpp.leftLen ∧
        bytenumCeil ((half data 4).toNat + (half data 2).toNat) ≤ s.dpp.metadataLen.toNat
    · cases hlr : pofdpGetLocalResource env (value >>> 16).toUInt16 s.lr with
      | none => exact exec_outputAction_refused hread (Or.inr (Or.inr hlr))
      | some lrPort =>
          have hraw := exec_pofdpSendRaw_refused env lrPort
            (s := { s with dpp := outputRecord data value s.dpp }) fun hmtu port hget => by
              obtain ⟨hmem, hindex⟩ := ((hports lrPort hlr).get_cut hcut).1 hget
              have hall : OutputFits data s.dpp := ⟨hfits.1, hfits.2, hmtu⟩
              rcases hcond with hno | hsmall | hnone
              · exact absurd hall hno
              · refine hrefused lrPort port hlr hmem ?_ hall
                rw [hindex, Nat.mod_eq_of_lt hsmall]
              · exact absurd hindex (hnone lrPort hlr port hmem)
          obtain ⟨e, he⟩ := hraw
          rw [exec_outputAction_port hread hflood hfits.1 hfits.2 hlr, he]
          exact ⟨e, _, rfl, rfl⟩
    · rw [not_and_or, not_le, not_le] at hfits
      exact exec_outputAction_refused hread (hfits.imp_right Or.inl)

/-- The `OUTPUT` action. -/
theorem sendsToPort_iff (hread : exec (pofdpGet32value (data.rd 0) data 8) s = (.ok value, s))
    (hflood : value.toUInt16 ≠ 255)
    (hports : ∀ lrPort, pofdpGetLocalResource env (value >>> 16).toUInt16 s.lr = some lrPort →
      PortsDistinct lrPort) :
    (∀ sendto, SendsToPort { env with sendto := sendto } data s
        (pofdpGetLocalResource env (value >>> 16).toUInt16 s.lr) value.toUInt16.toNat) ↔
      ¬ OutputFits data s.dpp ∨ value.toUInt16.toNat < 256 ∨
        ∀ lrPort, pofdpGetLocalResource env (value >>> 16).toUInt16 s.lr = some lrPort →
          ∀ port ∈ lrPort.portPofIndexMap.nodes, port.pofIndex.toNat ≠ value.toUInt16.toNat % 256 := by
  constructor
  · intro hsends
    by_contra hnot
    rw [not_or, not_or, not_not, not_lt] at hnot
    obtain ⟨hfits, hbig, hport⟩ := hnot
    push Not at hport
    obtain ⟨lrPort, hlr, port, hmem, hindex⟩ := hport
    -- a `sendto` that succeeds sends to a port with another number
    have hcut := toNat_outputPortId data value s.dpp
    have hget := ((hports lrPort hlr).get_cut hcut).2 ⟨hmem, hindex⟩
    obtain ⟨e, t, herror, -⟩ := (hsends fun _ _ _ => true).refused fun lr' port' _ _ hid' _ => by
      have hlt := port'.pofIndex.toNat_lt
      omega
    have hlr' : pofdpGetLocalResource { env with sendto := fun _ _ _ => true } (value >>> 16).toUInt16 s.lr =
      some lrPort := hlr
    rw [exec_outputAction_port hread hflood hfits.packet hfits.metadata hlr',
      exec_pofdpSendRaw_sent _ lrPort (s := { s with dpp := outputRecord data value s.dpp }) hfits.whole hget rfl]
      at herror
    cases herror
  · intro hcond sendto
    exact sendsToPort_of hread hflood hports hcond

end Output

/-- `poflr_port_openflow_enable` on the port found. -/
theorem PortsDistinct.openflowEnable (h : PortsDistinct lr) {portId : UInt32} {flag : UInt8} {port : PortInfo}
    (hget : poflrGetPortWithPofindex portId.toUInt8 lr = some port) :
    poflrPortOpenflowEnable portId flag lr = (.ok (), lr.enablePort port flag) := by
  rw [poflrPortOpenflowEnable, hget]
  dsimp only
  congr 1
  simp only [LocalResource.enablePort, Hmap.modify]
  congr 2
  refine List.map_congr_left fun p hp => ?_
  have hmem := (h.get_eq_some.1 hget).1
  refine if_congr ⟨fun haddr => ?_, fun heq => by rw [heq]; rfl⟩ rfl rfl
  exact List.inj_on_of_nodup_map h.addr hp hmem haddr

/-- The message goes to the slot with the number. -/
theorem portMod_slot {slotID : UInt16} {slots : List LocalResource}
    (hnodup : (slots.map LocalResource.slotID).Nodup) (hmem : lr ∈ slots) (hid : lr.slotID = slotID)
    (portId : UInt32) (flag : UInt8) :
    portMod slotID portId flag slots = ((poflrPortOpenflowEnable portId flag lr).1,
      slots.map fun r => if r.slotID = slotID then (poflrPortOpenflowEnable portId flag lr).2 else r) := by
  induction slots with
  | nil => cases hmem
  | cons r slots ih =>
      rw [List.map_cons, List.nodup_cons] at hnodup
      have hothers : ∀ q ∈ slots, q.slotID ≠ r.slotID :=
        fun q hq heq => hnodup.1 (heq ▸ List.mem_map_of_mem hq)
      rcases List.mem_cons.1 hmem with rfl | hmem
      · rw [portMod, if_pos hid, List.map_cons, if_pos hid]
        have hsame : (slots.map fun q => if q.slotID = slotID then
            (poflrPortOpenflowEnable portId flag lr).2 else q) = slots := by
          conv_rhs => rw [← List.map_id slots]
          exact List.map_congr_left fun q hq => if_neg fun heq => hothers q hq (heq.trans hid.symm)
        rw [hsame]
      · have hne : r.slotID ≠ slotID := fun heq => hothers lr hmem (hid.trans heq.symm)
        rw [portMod, if_neg hne, ih hnodup.2 hmem, List.map_cons, if_neg hne]

theorem portMod_none {slotID : UInt16} {slots : List LocalResource} (h : ∀ r ∈ slots, r.slotID ≠ slotID)
    (portId : UInt32) (flag : UInt8) : ∃ e, portMod slotID portId flag slots = (.error e, slots) := by
  induction slots with
  | nil => exact ⟨_, rfl⟩
  | cons r slots ih =>
      obtain ⟨e, he⟩ := ih fun q hq => h q (List.mem_cons_of_mem r hq)
      exact ⟨e, by rw [portMod, if_neg (h r List.mem_cons_self), he]⟩

/-- The `POFT_PORT_MOD` message. -/
theorem setsPort_iff {slots : List LocalResource} (hnodup : (slots.map LocalResource.slotID).Nodup)
    (hports : ∀ r ∈ slots, PortsDistinct r) (slotID : UInt16) (portId : UInt32) (flag : UInt8) :
    SetsPort slotID portId flag slots ↔ portId.toNat < 256 ∨
      ∀ r ∈ slots, r.slotID = slotID → ∀ port ∈ r.portPofIndexMap.nodes,
        port.pofIndex.toNat ≠ portId.toNat % 256 := by
  have hcut : portId.toUInt8.toNat = portId.toNat % 256 := UInt32.toNat_toUInt8 portId
  constructor
  · intro hsets
    by_contra hnot
    rw [not_or, not_lt] at hnot
    obtain ⟨hbig, hport⟩ := hnot
    push Not at hport
    obtain ⟨r, hr, hid, port, hmem, hindex⟩ := hport
    have hget := ((hports r hr).get_cut hcut).2 ⟨hmem, hindex⟩
    -- the message succeeds although no port has the number
    obtain ⟨e, he⟩ := hsets.missing fun r' _ _ port' _ heq => by
      have hlt := port'.pofIndex.toNat_lt
      omega
    rw [portMod_slot hnodup hr hid, (hports r hr).openflowEnable hget] at he
    cases he
  · intro hcond
    constructor
    · intro r hr hid port hmem hindex
      have hlt := port.pofIndex.toNat_lt
      have hget := ((hports r hr).get_cut hcut).2 ⟨hmem, by rw [hindex, Nat.mod_eq_of_lt (by omega)]⟩
      rw [portMod_slot hnodup hr hid, (hports r hr).openflowEnable hget]
    · intro hmissing
      by_cases hslot : ∃ r ∈ slots, r.slotID = slotID
      · obtain ⟨r, hr, hid⟩ := hslot
        have hnone : poflrGetPortWithPofindex portId.toUInt8 r = none := by
          refine (hports r hr).get_eq_none.2 fun port hmem hk => ?_
          have hindex : port.pofIndex.toNat = portId.toNat % 256 := by rw [hk, hcut]
          rcases hcond with hsmall | hno
          · exact hmissing r hr hid port hmem (hindex.trans (Nat.mod_eq_of_lt hsmall))
          · exact hno r hr hid port hmem hindex
        have henable : poflrPortOpenflowEnable portId flag r = (.error ⟨.portModFailed, .pofpmfcBadPortId⟩, r) := by
          rw [poflrPortOpenflowEnable, hnone]
        refine ⟨⟨.portModFailed, .pofpmfcBadPortId⟩, ?_⟩
        rw [portMod_slot hnodup hr hid, henable]
        have hsame : (slots.map fun q => if q.slotID = slotID then r else q) = slots := by
          conv_rhs => rw [← List.map_id slots]
          refine List.map_congr_left fun q hq => ?_
          split_ifs with hq'
          · exact List.inj_on_of_nodup_map hnodup hr hq (hid.trans hq'.symm)
          · rfl
        rw [hsame]
      · push Not at hslot
        exact portMod_none hslot portId flag

end Named

/-- **A port is named by its full number exactly when the number is below 256 or no port of the slot has
what eight bits leave of it**: then an `OUTPUT` other than a flood sends to that port and a `POFT_PORT_MOD`
sets the flag of that port, and both fail without effect when there is none.  An `OUTPUT` is also right when
the lengths are refused. -/
theorem port_ids_iff {env : DpEnv} {data : Buf} {s : DpState} {value : UInt32}
    (hread : exec (pofdpGet32value (data.rd 0) data 8) s = (.ok value, s)) (hflood : value.toUInt16 ≠ 255)
    (hports : ∀ lrPort, pofdpGetLocalResource env (value >>> 16).toUInt16 s.lr = some lrPort →
      PortsDistinct lrPort)
    {slots : List LocalResource} (hnodup : (slots.map LocalResource.slotID).Nodup)
    (hslots : ∀ r ∈ slots, PortsDistinct r) (slotID : UInt16) (portId : UInt32) (flag : UInt8) :
    ((∀ sendto, SendsToPort { env with sendto := sendto } data s
        (pofdpGetLocalResource env (value >>> 16).toUInt16 s.lr) value.toUInt16.toNat) ↔
      ¬ OutputFits data s.dpp ∨ value.toUInt16.toNat < 256 ∨
        ∀ lrPort, pofdpGetLocalResource env (value >>> 16).toUInt16 s.lr = some lrPort →
          ∀ port ∈ lrPort.portPofIndexMap.nodes, port.pofIndex.toNat ≠ value.toUInt16.toNat % 256) ∧
    (SetsPort slotID portId flag slots ↔ portId.toNat < 256 ∨
      ∀ r ∈ slots, r.slotID = slotID → ∀ port ∈ r.portPofIndexMap.nodes,
        port.pofIndex.toNat ≠ portId.toNat % 256) :=
  ⟨sendsToPort_iff hread hflood hports, setsPort_iff hnodup hslots slotID portId flag⟩

/-! ### A slot with three ports -/

/-- A port of slot `0`. -/
def smallPort (index : UInt8) : PortInfo where
  addr := 10 + index.toNat
  hash := index.toUInt32
  sysIndex := index.toUInt32
  pofIndex := index
  slotID := 0
  ofEnable := 1
  config := 0

/-- A slot with ports `1`, `2` and `3`. -/
def threePorts : LocalResource :=
  pofLocalresourceInit { smallConfig with
    ports := (((Hmap.create 4).nodeInsert (smallPort 1)).nodeInsert (smallPort 2)).nodeInsert (smallPort 3) }

theorem portsDistinct_threePorts : PortsDistinct threePorts :=
  ⟨by decide +kernel, by decide +kernel, by decide +kernel⟩

/-- An `OUTPUT` of two bytes of metadata and the packet to a port of slot `0`. -/
def outputToPort (low high : UInt8) : Buf := [0, 0, 0, 0, 16, 0, 0, 0, low, high, 0, 0]

theorem read_outputToPort (low high : UInt8) (s : DpState) :
    exec (pofdpGet32value (rd (outputToPort low high) 0) (outputToPort low high) 8) s =
      (.ok (word (outputToPort low high) 8), s) := rfl

/-- A packet of three bytes that has come in on port `1`. -/
def atThreePorts : DpState := pofdpForward 1 [7, 8, 9] threePorts

theorem slot_atThreePorts (env : DpEnv) {slot : UInt16} (h : slot = 0) :
    pofdpGetLocalResource env slot atThreePorts.lr = some threePorts := by
  rw [h]
  exact if_pos (by decide +kernel)

/-- A flood sends the frame to ports `2` and `3`. -/
theorem flood_sends_once_three : ∃ (t : DpState) (ports : List PortInfo),
    exec (outputAction openEnv (outputToPort 255 0)) atThreePorts = (.ok (), t) ∧
      t.trace = ports.map (fun port => .output 0 port [0, 3, 7, 8, 9]) ∧ ports.Nodup ∧
      ∀ port, port ∈ ports ↔ port ∈ threePorts.portPofIndexMap.nodes ∧ port.pofIndex.toUInt32 ≠ 1 ∧
        port.pofIndex ≠ 0 ∧ port.config ≠ 16 := by
  have hsend : ∀ l port f, openEnv.sendto l port f = true := fun _ _ _ => rfl
  obtain ⟨t, ports, hexec, htrace, hports⟩ := flood_sends_once (s := atThreePorts)
    portsDistinct_threePorts hsend (read_outputToPort 255 0 atThreePorts) (by decide +kernel)
    (slot_atThreePorts openEnv (by decide +kernel)) ⟨by decide +kernel, by decide +kernel, by decide +kernel⟩
    (by decide +kernel) (by decide +kernel) (by decide +kernel)
  have hframe : outputFrame (outputToPort 255 0) atThreePorts.dpp = [0, 3, 7, 8, 9] := by decide +kernel
  have hslot : threePorts.slotID = 0 := by decide +kernel
  rw [hframe, hslot] at htrace
  exact ⟨t, ports, hexec, htrace, hports⟩

/-- Port `2` gets the packet, and a message turns port `3` off. -/
theorem port_ids_small :
    (∀ sendto, SendsToPort { openEnv with sendto := sendto } (outputToPort 2 0) atThreePorts
      (pofdpGetLocalResource openEnv 0 atThreePorts.lr) 2) ∧ SetsPort 0 3 0 [threePorts] := by
  have hports : ∀ lrPort, pofdpGetLocalResource openEnv ((2 : UInt32) >>> 16).toUInt16 atThreePorts.lr =
      some lrPort → PortsDistinct lrPort := by
    intro lrPort h
    rw [slot_atThreePorts openEnv (by decide)] at h
    cases h
    exact portsDistinct_threePorts
  have hnodup : ([threePorts].map LocalResource.slotID).Nodup := List.nodup_singleton _
  have hslots : ∀ r ∈ [threePorts], PortsDistinct r := by
    intro r hr
    rw [List.mem_singleton.1 hr]
    exact portsDistinct_threePorts
  obtain ⟨hsends, hsets⟩ := port_ids_iff (read_outputToPort 2 0 atThreePorts) (by decide) hports
    hnodup hslots 0 3 0
  exact ⟨hsends.2 (Or.inr (Or.inl (by decide))), hsets.2 (Or.inl (by decide))⟩

/-- Port `258` does not exist: the packet goes to port `2`, and a message for it turns port `2` off. -/
theorem port_ids_fails :
    PortsDistinct threePorts ∧
      (exec (outputAction openEnv (outputToPort 2 1)) atThreePorts).2.trace =
        [.output 0 { smallPort 2 with ofEnable := 0 } [0, 3, 7, 8, 9]] ∧
      ¬ SendsToPort openEnv (outputToPort 2 1) atThreePorts
        (pofdpGetLocalResource openEnv 0 atThreePorts.lr) 258 ∧
      ¬ SetsPort 0 258 1 [threePorts] := by
  refine ⟨portsDistinct_threePorts, by decide +kernel, fun h => ?_, fun h => ?_⟩
  · obtain ⟨e, t, herror, -⟩ := h.refused fun lrPort port _ _ hindex _ => by
      have hlt := port.pofIndex.toNat_lt
      omega
    have hok : (exec (outputAction openEnv (outputToPort 2 1)) atThreePorts).1 = .ok () := by decide +kernel
    rw [herror] at hok
    cases hok
  · obtain ⟨e, he⟩ := h.missing fun r _ _ port _ hindex => by
      have hlt := port.pofIndex.toNat_lt
      have h258 : (258 : UInt32).toNat = 258 := rfl
      omega
    have hok : (portMod 0 258 1 [threePorts]).1 = .ok () := by decide +kernel
    rw [he] at hok
    cases hok

end PofSwitch
