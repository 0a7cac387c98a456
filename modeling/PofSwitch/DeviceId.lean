/-
**The device id: `pofsc_connect` in `switch_control/pof_switch.c`.**

At the first connection the switch takes its device id from the hardware address of the port whose address
is the local one of the socket, and notes the number of that port.  It asks every slot in turn.
`poflr_get_hwaddr_by_ipaddr` returns the number of the port it has found or `POF_ERROR`, which is
`0xffff`; the result is assigned to eight bits before it is compared, so a miss looks like port 255 and
the first slot is the last one asked.

Main definitions:

* `PofSwitch.poflrGetHwaddrByIpaddr`, `PofSwitch.pofscConnect`;
* `PofSwitch.DerivedFromPort` — the device id and the port number are those of a port with the address.

Main results:

* `PofSwitch.searchSlots_cons` — the search ends in the first slot;
* `PofSwitch.derivedFromPort_iff` — **exactly when a port with the address gives the device id**.
-/

import PofSwitch.Config
import PofSwitch.Ports

set_option relaxedAutoImplicit false
set_option autoImplicit false

namespace PofSwitch

open Buf

/-! ### Searching for the port -/

/-- A local resource with its `slotNode` in `slotMap`. -/
structure SlotNode extends PortSlot where
  addr : ℕ
  hash : UInt32

instance : HmapNode SlotNode := ⟨SlotNode.addr, SlotNode.hash⟩

/-- `strncmp` finds no difference within an array, for strings without the zero at their end. -/
def sameAddress (ipaddr ip : Buf) : Bool :=
  ipaddr.take ipAddressStringLen = ip.take ipAddressStringLen

/-- `poflr_get_hwaddr_by_ipaddr`: the result, and `hwaddr` afterwards. -/
def poflrGetHwaddrByIpaddr (hwaddr ipaddr : Buf) (slot : PortSlot) : UInt32 × Buf :=
  match slot.portPofIndexMap.order.find? fun port => sameAddress ipaddr port.ip with
  | some port => (port.pofIndex.toUInt32, port.hwaddr)
  | none => (pofError, hwaddr)

/-- The loop of `pofsc_connect` over the slots: `local_port_index` and `hwaddr` afterwards. -/
def searchSlots (localIP : Buf) : List SlotNode → UInt8 → Buf → UInt8 × Buf
  | [], localPortIndex, hwaddr => (localPortIndex, hwaddr)
  | lr :: slots, _, hwaddr =>
      let found := poflrGetHwaddrByIpaddr hwaddr localIP lr.toPortSlot
      let localPortIndex := found.1.toUInt8
      if localPortIndex.toUInt32 ≠ pofError then (localPortIndex, found.2)
      else searchSlots localIP slots localPortIndex found.2

/-- The device id for a hardware address: its last four bytes in network order, and 1 instead of 0. -/
def devIdOf (hwaddr : Buf) : UInt32 :=
  let id := UInt32.ofNat (loadBE (hwaddr.drop 2) 4)
  if id = 0 then 1 else id

/-! ### Connecting -/

/-- `g_poflr_dev_id`, `g_states.devID.cont`, and the `local_port_index` of `pofsc_conn_desc`. -/
structure DeviceState where
  devId : UInt32
  devIDCont : String
  localPortIndex : UInt8
deriving DecidableEq, Repr

/-- What a call of `pofsc_connect` finds: whether `connect(2)` succeeds, the local address of the socket if
`getsockname(2)` does, and what stands in `local_port_index` before it is assigned. -/
structure ConnectAnswer where
  connected : Bool
  localIP : Option Buf
  junk : UInt8

/-- The results of `pofsc_connect`; the socket is closed unless it is `POF_OK`. -/
inductive ConnectResult
  | ok | connectServerFailure | error
deriving DecidableEq, Repr

/-- `pofsc_connect`. -/
def pofscConnect (slotMap : Hmap SlotNode) (env : ConnectAnswer) (st : DeviceState) :
    ConnectResult × DeviceState :=
  if env.connected = false then (.connectServerFailure, st)
  else if st.devId = 0 then
    match env.localIP with
    | none => (.error, st)
    | some localIP =>
        let found := searchSlots localIP slotMap.order env.junk (Buf.zeros 6)
        (.ok, {
          devId := devIdOf found.2
          devIDCont := toString (devIdOf found.2).toNat
          localPortIndex := found.1 })
  else (.ok, st)

/-! ### What it finds -/

/-- A slot holds the port, and the port has the address. -/
def HoldsAddress (slotMap : Hmap SlotNode) (localIP : Buf) (port : SwitchPort) : Prop :=
  ∃ lr ∈ slotMap.nodes, port ∈ lr.portPofIndexMap.nodes ∧ sameAddress localIP port.ip = true

/-- The device id is that for the hardware address of a port with the address, and the number is that of
the port. -/
def DerivedFromPort (slotMap : Hmap SlotNode) (localIP : Buf) (st : DeviceState) : Prop :=
  ∃ port, HoldsAddress slotMap localIP port ∧ st.devId = devIdOf port.hwaddr ∧
    st.localPortIndex = port.pofIndex

/-- Eight bits are never `POF_ERROR`. -/
theorem toUInt32_ne_pofError (n : UInt8) : n.toUInt32 ≠ pofError := by
  intro heq
  have hnat := congrArg UInt32.toNat heq
  have hlt := n.toNat_lt
  rw [UInt8.toNat_toUInt32] at hnat
  change n.toNat = 65535 at hnat
  omega

/-- **The search ends in the first slot, whatever is found there.** -/
theorem searchSlots_cons (localIP : Buf) (lr : SlotNode) (slots : List SlotNode) (junk : UInt8) (hwaddr : Buf) :
    searchSlots localIP (lr :: slots) junk hwaddr =
      ((poflrGetHwaddrByIpaddr hwaddr localIP lr.toPortSlot).1.toUInt8,
        (poflrGetHwaddrByIpaddr hwaddr localIP lr.toPortSlot).2) := by
  rw [searchSlots, if_pos (toUInt32_ne_pofError _)]

/-- The first connection. -/
theorem pofscConnect_first {slotMap : Hmap SlotNode} {env : ConnectAnswer} {st : DeviceState} {localIP : Buf}
    (hconn : env.connected = true) (hip : env.localIP = some localIP) (hdev : st.devId = 0) :
    (pofscConnect slotMap env st).1 = .ok ∧
      (pofscConnect slotMap env st).2.devId =
        devIdOf (searchSlots localIP slotMap.order env.junk (Buf.zeros 6)).2 ∧
      (pofscConnect slotMap env st).2.localPortIndex =
        (searchSlots localIP slotMap.order env.junk (Buf.zeros 6)).1 := by
  simp [pofscConnect, hconn, hip, hdev]

/-- What the search of one slot returns: a port of the slot with the address, or `POF_ERROR` while the
hardware address stays as it is. -/
theorem poflrGetHwaddrByIpaddr_cases (hwaddr ipaddr : Buf) (slot : PortSlot) :
    (∃ port ∈ slot.portPofIndexMap.nodes, sameAddress ipaddr port.ip = true ∧
      poflrGetHwaddrByIpaddr hwaddr ipaddr slot = (port.pofIndex.toUInt32, port.hwaddr)) ∨
    (∀ port ∈ slot.portPofIndexMap.nodes, sameAddress ipaddr port.ip = false) ∧
      poflrGetHwaddrByIpaddr hwaddr ipaddr slot = (pofError, hwaddr) := by
  have hperm := slot.portPofIndexMap.order_perm
  rw [poflrGetHwaddrByIpaddr]
  cases hfind : slot.portPofIndexMap.order.find? fun port => sameAddress ipaddr port.ip with
  | some port =>
      refine Or.inl ⟨port, hperm.subset (List.mem_of_find?_eq_some hfind), ?_, rfl⟩
      have hfound := List.find?_some hfind
      exact hfound
  | none =>
      refine Or.inr ⟨fun port hport => ?_, rfl⟩
      exact Bool.eq_false_iff.2 (List.find?_eq_none.1 hfind port (hperm.symm.subset hport))

/-- **When some slot holds a port with the local address, the device id and the port number of a first
connection come from such a port exactly when the first slot of the traversal holds one, or when a port
with the address has by chance what a miss leaves: the number 255 and a hardware address for the
device id 1.** -/
theorem derivedFromPort_iff {slotMap : Hmap SlotNode} {env : ConnectAnswer} {st : DeviceState} {localIP : Buf}
    (hconn : env.connected = true) (hip : env.localIP = some localIP) (hdev : st.devId = 0)
    (hport : ∃ port, HoldsAddress slotMap localIP port) :
    DerivedFromPort slotMap localIP (pofscConnect slotMap env st).2 ↔
      (∃ lr ∈ slotMap.order.head?, ∃ port ∈ lr.portPofIndexMap.nodes, sameAddress localIP port.ip = true) ∨
      ∃ port, HoldsAddress slotMap localIP port ∧ port.pofIndex = 255 ∧ devIdOf port.hwaddr = 1 := by
  obtain ⟨_, hid, hindex⟩ := pofscConnect_first hconn hip hdev
  have hperm := slotMap.order_perm
  cases horder : slotMap.order with
  | nil =>
      obtain ⟨_, lr, hlr, _⟩ := hport
      have hmem := hperm.symm.subset hlr
      rw [horder] at hmem
      cases hmem
  | cons lr slots =>
      have hlr : lr ∈ slotMap.nodes := hperm.subset (by rw [horder]; exact List.mem_cons_self)
      rw [horder, searchSlots_cons] at hid hindex
      rcases poflrGetHwaddrByIpaddr_cases (Buf.zeros 6) localIP lr.toPortSlot with
        ⟨port, hmem, hsame, heq⟩ | ⟨hnone, heq⟩
      · rw [heq] at hid hindex
        refine iff_of_true ⟨port, ⟨lr, hlr, hmem, hsame⟩, hid, ?_⟩ (Or.inl ⟨lr, rfl, port, hmem, hsame⟩)
        rw [hindex]
        exact UInt8.toUInt8_toUInt32 port.pofIndex
      · -- a miss leaves `POF_ERROR` cut to eight bits and the zeros
        rw [heq] at hid hindex
        have hindex : (pofscConnect slotMap env st).2.localPortIndex = 255 := hindex
        have hid : (pofscConnect slotMap env st).2.devId = 1 := hid
        constructor
        · rintro ⟨port, hholds, hport_id, hport_index⟩
          exact Or.inr ⟨port, hholds, hport_index.symm.trans hindex, hport_id.symm.trans hid⟩
        · rintro (⟨first, hfirst, port, hmem, hsame⟩ | ⟨port, hholds, hport_index, hport_id⟩)
          · obtain rfl : lr = first := Option.some.inj hfirst
            rw [hnone port hmem] at hsame
            cases hsame
          · exact ⟨port, hholds, hid.trans hport_id.symm, hindex.trans hport_index.symm⟩

/-- A slot with one port, which has the number and the last four bytes `n`, and the address `1.1.1.1` or
none. -/
def connectSlot (slotID : UInt16) (n : UInt8) (local_ : Bool) : SlotNode where
  slotID := slotID
  portPofIndexMap := (Hmap.create 8).nodeInsert { clearedPort n.toNat with
    pofIndex := n
    hash := hmapHashForLinear n.toUInt32
    hwaddr := [0, 0, n, n, n, n]
    ip := if local_ then [0x31, 0x2e, 0x31, 0x2e, 0x31, 0x2e, 0x31] else [] }
  portNameMap := Hmap.create 8
  portNumMax := 8
  portNum := 1
  fromCustom := true
  addr := slotID.toNat
  hash := hmapHashForLinear slotID.toUInt32

/-- Two slots with a port each. -/
def twoSlots (first second : Bool) : Hmap SlotNode :=
  ((Hmap.create 2).nodeInsert (connectSlot 1 2 second)).nodeInsert (connectSlot 0 1 first)

/-- A connection from `1.1.1.1`. -/
def fromLocal : ConnectAnswer := ⟨true, some [0x31, 0x2e, 0x31, 0x2e, 0x31, 0x2e, 0x31], 0⟩

/-- The port is in the first slot. -/
theorem derivedFromPort_first_slot : DerivedFromPort (twoSlots true false) [0x31, 0x2e, 0x31, 0x2e, 0x31, 0x2e, 0x31]
    (pofscConnect (twoSlots true false) fromLocal ⟨0, "", 0⟩).2 :=
  (derivedFromPort_iff rfl rfl rfl ⟨_, _, List.mem_cons_self, List.mem_cons_self, rfl⟩).2
    (Or.inl ⟨connectSlot 0 1 true, rfl, _, List.mem_cons_self, rfl⟩)

/-- The port is in the second slot: the device id is 1 and the port number 255. -/
theorem derivedFromPort_second_slot : ¬ ∀ slotMap env st localIP, env.connected = true →
    env.localIP = some localIP → st.devId = 0 → (∃ port, HoldsAddress slotMap localIP port) →
    DerivedFromPort slotMap localIP (pofscConnect slotMap env st).2 := by
  intro hall
  obtain ⟨port, ⟨lr, hlr, hport, _⟩, _, hindex⟩ := hall (twoSlots false true) fromLocal ⟨0, "", 0⟩ _ rfl rfl rfl
    ⟨_, connectSlot 1 2 true, List.mem_cons_of_mem _ List.mem_cons_self, List.mem_cons_self, rfl⟩
  have hindex' : (255 : UInt8) = port.pofIndex := hindex
  have hnone : ∀ lr ∈ (twoSlots false true).nodes, ∀ port ∈ lr.portPofIndexMap.nodes, port.pofIndex ≠ 255 := by
    decide +kernel
  exact hnone lr hlr port hport hindex'.symm

end PofSwitch
