/-
**The ports of the switch: `local_resource/pof_port.c`.**

A port gets the next value of the global counter `portIndex`, which begins at one and has eight bits, as
its `pofIndex`.  The counter belongs to all slots and is not set back when a port is deleted.  What the
operating system knows of an interface is asked for several times during an addition, and the answers need
not agree: a port whose hardware address or index cannot be read is inserted as `malloc` has cleared it.

The run of the switch is modelled by the start of a slot with the detection of the interfaces, the
addition and the deletion of a port, each with the answers of the operating system as an input.  The task
that detects ports every five seconds adds and deletes by the same functions.

Main definitions:

* `PofSwitch.SwitchPort`, `PofSwitch.PortSlot`, `PofSwitch.PortsState`, `PofSwitch.OsAnswer`;
* `PofSwitch.poflrSetPort`, `poflrAddPort`, `poflrDelPort`, `poflrInitPort`;
* `PofSwitch.PortOp.Regular` — the ports added get a number below 255 and can be read;
* `PofSwitch.PortsOk` — the ports have different numbers, and none has number 0 or 255.

Main results:

* `PofSwitch.portsOk_of_run` — **in a run of regular operations the ports have different numbers, none of
  them 0 or 255;**
* `PofSwitch.not_portsOk_of_irregular` — after an addition that is not regular this is not so.
-/

import PofSwitch.LocalResource

set_option relaxedAutoImplicit false
set_option autoImplicit false

namespace PofSwitch

open Buf

/-! ### Ports and slots -/

/-- `struct portInfo`; `nameHash` is the hash in `nameNode`. -/
structure SwitchPort extends PortInfo where
  name : Buf
  nameHash : UInt32
  hwaddr : Buf
  ip : Buf
  pofState : UInt32
deriving DecidableEq, Repr

instance : HmapNode SwitchPort := ⟨fun port => port.addr, fun port => port.hash⟩

/-- The node of a port in `portNameMap`. -/
structure NameNode where
  addr : ℕ
  hash : UInt32
deriving DecidableEq, Repr

instance : HmapNode NameNode := ⟨NameNode.addr, NameNode.hash⟩

/-- The ports of a `struct pof_local_resource`; `fromCustom` is the flag `POFLRPF_FROM_CUSTOM`. -/
structure PortSlot where
  slotID : UInt16
  portPofIndexMap : Hmap SwitchPort
  portNameMap : Hmap NameNode
  portNumMax : UInt16
  portNum : UInt16
  fromCustom : Bool

/-- `struct portName`. -/
structure PortName where
  name : Buf
  slotID : UInt16
deriving DecidableEq, Repr

/-- The globals of the module, and the slots. -/
structure PortsState where
  portIndex : UInt8
  portNameList : List PortName
  slots : List PortSlot

/-- What the operating system answers during the addition or the deletion of a port: whether it knows the
interface, the memory, the hardware address, index and address of the interface, whether it is up, and
whether the sockets can be opened, the report be sent and the task be created or deleted. -/
structure OsAnswer where
  known : Bool
  memory : Option ℕ
  hwaddr : Option Buf
  ifIndex : Option UInt32
  ip : Buf
  live : Bool
  sockets : Bool
  report : Bool
  task : Bool

/-- Why a function of the module does not return `POF_OK`. -/
inductive PortError
  | noSlot | alreadyHave | notInSystem | noMemory | noPort | reportFailed | taskFailed
deriving DecidableEq, Repr

/-- `map_portInsert`. -/
def mapPortInsert (port : SwitchPort) (slot : PortSlot) : PortSlot :=
  { slot with
    portPofIndexMap := slot.portPofIndexMap.nodeInsert port
    portNameMap := slot.portNameMap.nodeInsert ⟨port.addr, port.nameHash⟩
    portNum := slot.portNum + 1 }

/-- `map_portDelete`. -/
def mapPortDelete (port : SwitchPort) (slot : PortSlot) : PortSlot :=
  { slot with
    portPofIndexMap := slot.portPofIndexMap.nodeDelete port.addr
    portNameMap := slot.portNameMap.nodeDelete port.addr
    portNum := slot.portNum - 1 }

/-- `map_portHashByName`. -/
def mapPortHashByName (name : Buf) : UInt32 := hmapHashForBytes name name.length

/-- `poflr_get_port_with_name`: the structure around the node found; names are not compared. -/
def poflrGetPortWithName (name : Buf) (slot : PortSlot) : Option SwitchPort :=
  (slot.portNameMap.nodeGetWithHash (mapPortHashByName name)).bind fun node =>
    slot.portPofIndexMap.nodes.find? fun port => port.addr = node.addr

/-! ### Adding and deleting -/

/-- The memory `map_portCreate` has cleared. -/
def clearedPort (addr : ℕ) : SwitchPort where
  addr := addr
  hash := 0
  sysIndex := 0
  pofIndex := 0
  slotID := 0
  ofEnable := 0
  config := 0
  name := []
  nameHash := 0
  hwaddr := Buf.zeros 6
  ip := []
  pofState := 0

/-- `poflr_set_port`: the port and `portIndex` afterwards.  When the interface cannot be read it returns
an error that its callers do not look at.  Without sockets the process ends. -/
def poflrSetPort (name : Buf) (slotID : UInt16) (os : OsAnswer) (addr : ℕ) (portIndex : UInt8) :
    Option (SwitchPort × UInt8) :=
  match os.hwaddr, os.ifIndex with
  | none, _ => some (clearedPort addr, portIndex)
  | some hwaddr, none => some ({ clearedPort addr with hwaddr := hwaddr }, portIndex)
  | some hwaddr, some sysIndex =>
      if os.sockets then
        some ({ clearedPort addr with
          hwaddr := hwaddr
          ip := os.ip
          sysIndex := sysIndex
          pofIndex := portIndex
          pofState := if os.live then 4 else 1
          name := name
          ofEnable := pofeDisable
          nameHash := mapPortHashByName name
          hash := hmapHashForLinear portIndex.toUInt32
          slotID := slotID }, portIndex + 1)
      else none

/-- `poflr_add_port_no_report_no_task`; `none` when the process ends. -/
def poflrAddPortNoReportNoTask (name : Buf) (k : ℕ) (os : OsAnswer) (st : PortsState) :
    Option (Except PortError Unit × PortsState) :=
  match st.slots[k]? with
  | none => some (.error .noSlot, st)
  | some slot =>
      if (poflrGetPortWithName name slot).isSome then some (.error .alreadyHave, st)
      else if os.known = false then some (.error .notInSystem, st)
      else
        match os.memory with
        | none => some (.error .noMemory, st)
        | some addr =>
            (poflrSetPort name slot.slotID os addr st.portIndex).map fun r =>
              (.ok (), { st with portIndex := r.2, slots := st.slots.modify k (mapPortInsert r.1) })

/-- `poflr_add_port`, which begins as the function above. -/
def poflrAddPort (name : Buf) (k : ℕ) (os : OsAnswer) (st : PortsState) :
    Option (Except PortError Unit × PortsState) :=
  (poflrAddPortNoReportNoTask name k os st).map fun r =>
    match r.1 with
    | .error e => (.error e, r.2)
    | .ok () =>
        if os.report = false then (.error .reportFailed, r.2)
        else if os.task = false then (.error .taskFailed, r.2)
        else (.ok (), r.2)

/-- `poflr_del_port`. -/
def poflrDelPort (name : Buf) (k : ℕ) (os : OsAnswer) (st : PortsState) :
    Except PortError Unit × PortsState :=
  match st.slots[k]? with
  | none => (.error .noSlot, st)
  | some slot =>
      match poflrGetPortWithName name slot with
      | none => (.error .noPort, st)
      | some port =>
          if os.report = false then (.error .reportFailed, st)
          else if os.task = false then (.error .taskFailed, st)
          else (.ok (), { st with slots := st.slots.modify k (mapPortDelete port) })

/-! ### The start of a slot -/

/-- `poflr_get_port_num_name_by_getifaddrs`: the names of the interfaces but `lo`. -/
def portNamesOf (interfaces : List Buf) : List PortName :=
  (interfaces.filter fun name => name ≠ [0x6c, 0x6f]).map fun name => ⟨name.take 64, 0⟩

/-- The loop of `poflr_init_port` over the names, with an answer for each; an error ends the process. -/
def initPortLoop (k : ℕ) (slotID : UInt16) (os : ℕ → OsAnswer) : List PortName → ℕ → PortsState → Option PortsState
  | [], _, st => some st
  | portName :: names, i, st =>
      if portName.slotID ≠ slotID then initPortLoop k slotID os names (i + 1) st
      else
        match poflrAddPortNoReportNoTask portName.name k (os i) st with
        | some (.ok (), st') => initPortLoop k slotID os names (i + 1) st'
        | _ => none

/-- The new maps of `poflr_init_port`. -/
def newMaps (slot : PortSlot) : PortSlot :=
  { slot with
    portPofIndexMap := Hmap.create slot.portNumMax.toUInt32
    portNameMap := Hmap.create slot.portNumMax.toUInt32 }

/-- The state before the loop of `poflr_init_port`: new maps, and the names of the interfaces when the
slot is the first one and they are to be detected. -/
def beforeInitLoop (k : ℕ) (slot : PortSlot) (interfaces : List Buf) (st : PortsState) : PortsState :=
  { st with
    slots := st.slots.modify k newMaps
    portNameList :=
      if slot.fromCustom = false ∧ slot.slotID = 0 then st.portNameList ++ portNamesOf interfaces
      else st.portNameList }

/-- `poflr_init_port`; `none` when it fails, for then the process ends. -/
def poflrInitPort (k : ℕ) (interfaces : List Buf) (maps : Bool) (os : ℕ → OsAnswer) (st : PortsState) :
    Option PortsState :=
  match st.slots[k]? with
  | none => none
  | some slot =>
      if maps then
        let st' := beforeInitLoop k slot interfaces st
        initPortLoop k slot.slotID os st'.portNameList 0 st'
      else none

/-! ### Runs -/

/-- An operation on the ports, with the answers of the operating system. -/
inductive PortOp
  | init (k : ℕ) (interfaces : List Buf) (maps : Bool) (os : ℕ → OsAnswer)
  | add (name : Buf) (k : ℕ) (os : OsAnswer)
  | del (name : Buf) (k : ℕ) (os : OsAnswer)

/-- The state after an operation; `none` when the process has ended. -/
def PortOp.next : PortOp → PortsState → Option PortsState
  | .init k interfaces maps os, st => poflrInitPort k interfaces maps os st
  | .add name k os, st => (poflrAddPort name k os st).map Prod.snd
  | .del name k os, st => some (poflrDelPort name k os st).2

/-- When a port is added, the counter has not reached 255 and the interface can be read. -/
def AddRegular (name : Buf) (k : ℕ) (os : OsAnswer) (st : PortsState) : Prop :=
  ∀ slot, st.slots[k]? = some slot → poflrGetPortWithName name slot = none → os.known = true →
    os.memory.isSome → st.portIndex ≠ 255 ∧ os.hwaddr.isSome ∧ os.ifIndex.isSome

/-- All the additions of the loop of `poflr_init_port` are so. -/
def InitRegular (k : ℕ) (slotID : UInt16) (os : ℕ → OsAnswer) : List PortName → ℕ → PortsState → Prop
  | [], _, _ => True
  | portName :: names, i, st =>
      if portName.slotID ≠ slotID then InitRegular k slotID os names (i + 1) st
      else AddRegular portName.name k (os i) st ∧
        ∀ st', poflrAddPortNoReportNoTask portName.name k (os i) st = some (.ok (), st') →
          InitRegular k slotID os names (i + 1) st'

/-- Whenever the operation adds a port, the counter has not reached 255 and the interface can be read. -/
def PortOp.Regular : PortOp → PortsState → Prop
  | .init k interfaces _ os, st => ∀ slot, st.slots[k]? = some slot →
      InitRegular k slot.slotID os (beforeInitLoop k slot interfaces st).portNameList 0
        (beforeInitLoop k slot interfaces st)
  | .add name k os, st => AddRegular name k os st
  | .del _ _ _, _ => True

/-- The states of the runs whose operations have a property. -/
inductive PortsRun (C : PortOp → PortsState → Prop) (start : PortsState) : PortsState → Prop
  | start : PortsRun C start start
  | step {st st' : PortsState} {op : PortOp} (hrun : PortsRun C start st) (hC : C op st)
      (hnext : op.next st = some st') : PortsRun C start st'

/-- The state in which the process starts: the counter is one and there are no ports. -/
structure PortsStart (st : PortsState) : Prop where
  portIndex : st.portIndex = 1
  noPorts : ∀ slot ∈ st.slots, slot.portPofIndexMap.nodes = []

/-- The ports of all slots. -/
def PortsState.ports (st : PortsState) : List SwitchPort := st.slots.flatMap fun slot => slot.portPofIndexMap.nodes

/-- The ports have different numbers, and none has number 0 or 255. -/
structure PortsOk (st : PortsState) : Prop where
  distinct : (st.ports.map fun port => port.pofIndex).Nodup
  named : ∀ port ∈ st.ports, port.pofIndex ≠ 0 ∧ port.pofIndex ≠ 255

/-! ### The invariant -/

/-- The numbers are different and below the counter, which is not zero. -/
structure PortsInv (st : PortsState) : Prop where
  distinct : (st.ports.map fun port => port.pofIndex).Nodup
  below : ∀ port ∈ st.ports, 0 < port.pofIndex.toNat ∧ port.pofIndex.toNat < st.portIndex.toNat
  counter : 0 < st.portIndex.toNat

theorem PortsInv.portsOk {st : PortsState} (h : PortsInv st) : PortsOk st where
  distinct := h.distinct
  named := by
    intro port hport
    obtain ⟨hpos, hlt⟩ := h.below port hport
    have hcounter := st.portIndex.toNat_lt
    constructor
    · intro hzero
      rw [hzero] at hpos
      exact absurd hpos (by decide)
    · intro hflood
      rw [hflood] at hlt
      change 255 < _ at hlt
      omega

theorem PortsStart.inv {st : PortsState} (h : PortsStart st) : PortsInv st := by
  have hnone : st.ports = [] := List.flatMap_eq_nil_iff.2 h.noPorts
  refine ⟨by simp [hnone], by simp [hnone], ?_⟩
  rw [h.portIndex]
  decide

section Modify

variable {α β : Type} {f : α → α} {g : α → List β}

/-- One more element in one of the lists. -/
theorem perm_flatMap_modify {b : β} {l : List α} {k : ℕ} {a : α} (hk : l[k]? = some a)
    (hadd : g (f a) = b :: g a) : ((l.modify k f).flatMap g).Perm (b :: l.flatMap g) := by
  induction l generalizing k with
  | nil => simp at hk
  | cons c l ih =>
      cases k with
      | zero =>
          obtain rfl : c = a := by simpa using hk
          rw [List.modify_zero_cons, List.flatMap_cons, List.flatMap_cons, hadd]
          rfl
      | succ k =>
          rw [List.modify_succ_cons, List.flatMap_cons, List.flatMap_cons]
          exact ((ih (by simpa using hk)).append_left (g c)).trans List.perm_middle

/-- Some elements less in one of the lists. -/
theorem sublist_flatMap_modify (hless : ∀ a, (g (f a)).Sublist (g a)) (l : List α) (k : ℕ) :
    ((l.modify k f).flatMap g).Sublist (l.flatMap g) := by
  induction l generalizing k with
  | nil => simp
  | cons c l ih =>
      cases k with
      | zero =>
          rw [List.modify_zero_cons, List.flatMap_cons, List.flatMap_cons]
          exact (hless c).append (List.Sublist.refl _)
      | succ k =>
          rw [List.modify_succ_cons, List.flatMap_cons, List.flatMap_cons]
          exact (List.Sublist.refl _).append (ih k)

end Modify

/-- Ports that are gone, with the counter as it was. -/
theorem PortsInv.less {st st' : PortsState} (h : PortsInv st) (hindex : st'.portIndex = st.portIndex)
    (hless : st'.ports.Sublist st.ports) : PortsInv st' where
  distinct := h.distinct.sublist (hless.map _)
  below port hport := by
    rw [hindex]
    exact h.below port (hless.subset hport)
  counter := by
    rw [hindex]
    exact h.counter

/-- A new port with the number of the counter. -/
theorem PortsInv.more {st st' : PortsState} (h : PortsInv st) {port : SwitchPort}
    (hport : port.pofIndex = st.portIndex) (hlast : st.portIndex ≠ 255)
    (hindex : st'.portIndex = st.portIndex + 1) (hmore : st'.ports.Perm (port :: st.ports)) :
    PortsInv st' := by
  have hnext : st'.portIndex.toNat = st.portIndex.toNat + 1 := by
    have hlt := st.portIndex.toNat_lt
    have hne : st.portIndex.toNat ≠ 255 := fun h255 => hlast (UInt8.toNat_inj.1 h255)
    rw [hindex, UInt8.toNat_add]
    change (st.portIndex.toNat + 1) % 256 = _
    omega
  refine ⟨?_, fun p hp => ?_, by omega⟩
  · refine ((hmore.map fun port => port.pofIndex).nodup_iff).2 ?_
    rw [List.map_cons, List.nodup_cons]
    refine ⟨fun hmem => ?_, h.distinct⟩
    obtain ⟨p, hp, heq⟩ := List.mem_map.1 hmem
    have hbelow := (h.below p hp).2
    rw [heq, hport] at hbelow
    omega
  · rcases List.mem_cons.1 (hmore.subset hp) with rfl | hold
    · rw [hport]
      exact ⟨h.counter, by omega⟩
    · have hbelow := h.below p hold
      omega

/-! ### Steps -/

section Steps

variable {name : Buf} {k : ℕ} {os : OsAnswer} {st st' : PortsState} {r : Except PortError Unit}

/-- What an addition can do: fail and change nothing, or insert the port that `poflr_set_port` fills. -/
theorem poflrAddPortNoReportNoTask_cases
    (h : poflrAddPortNoReportNoTask name k os st = some (r, st')) :
    st' = st ∨ ∃ slot addr port index, st.slots[k]? = some slot ∧ poflrGetPortWithName name slot = none ∧
      os.known = true ∧ os.memory = some addr ∧
      poflrSetPort name slot.slotID os addr st.portIndex = some (port, index) ∧
      st' = { st with portIndex := index, slots := st.slots.modify k (mapPortInsert port) } := by
  unfold poflrAddPortNoReportNoTask at h
  cases hslot : st.slots[k]? with
  | none =>
      rw [hslot] at h
      cases h
      exact Or.inl rfl
  | some slot =>
      rw [hslot] at h
      dsimp only at h
      split_ifs at h with hhave hknown
      · cases h
        exact Or.inl rfl
      · cases h
        exact Or.inl rfl
      · cases hmemory : os.memory with
        | none =>
            rw [hmemory] at h
            cases h
            exact Or.inl rfl
        | some addr =>
            rw [hmemory] at h
            obtain ⟨⟨port, index⟩, hset, hr⟩ := Option.map_eq_some_iff.1 h
            cases hr
            exact Or.inr ⟨slot, addr, port, index, rfl, Option.not_isSome_iff_eq_none.1 hhave,
              Bool.not_eq_false _ ▸ hknown, rfl, hset, rfl⟩

/-- `poflr_add_port` leaves the state its first part leaves. -/
theorem poflrAddPort_next (h : (PortOp.add name k os).next st = some st') :
    ∃ r, poflrAddPortNoReportNoTask name k os st = some (r, st') := by
  simp only [PortOp.next, poflrAddPort, Option.map_map, Option.map_eq_some_iff] at h
  obtain ⟨⟨r, t⟩, hadd, ht⟩ := h
  refine ⟨r, hadd.trans ?_⟩
  rw [← ht]
  rcases r with e | u
  · rfl
  · simp only [Function.comp_apply]
    split_ifs <;> rfl

/-- The ports after an insertion. -/
theorem perm_ports_insert {slot : PortSlot} (hslot : st.slots[k]? = some slot) (port : SwitchPort) (index : UInt8) :
    (PortsState.ports { st with portIndex := index, slots := st.slots.modify k (mapPortInsert port) }).Perm
      (port :: st.ports) :=
  perm_flatMap_modify hslot rfl

/-- The number that `poflr_set_port` gives to an interface that can be read. -/
theorem poflrSetPort_read {slotID : UInt16} {addr : ℕ} {portIndex index : UInt8} {port : SwitchPort}
    (hread : os.hwaddr.isSome ∧ os.ifIndex.isSome)
    (h : poflrSetPort name slotID os addr portIndex = some (port, index)) :
    port.pofIndex = portIndex ∧ index = portIndex + 1 := by
  obtain ⟨hwaddr, hhw⟩ := Option.isSome_iff_exists.1 hread.1
  obtain ⟨sysIndex, hsys⟩ := Option.isSome_iff_exists.1 hread.2
  simp only [poflrSetPort, hhw, hsys] at h
  split at h
  · cases h
    exact ⟨rfl, rfl⟩
  · cases h

/-- An interface that cannot be read gets number 0. -/
theorem poflrSetPort_unread {slotID : UInt16} {addr : ℕ} {portIndex index : UInt8} {port : SwitchPort}
    (hread : ¬ (os.hwaddr.isSome ∧ os.ifIndex.isSome))
    (h : poflrSetPort name slotID os addr portIndex = some (port, index)) : port.pofIndex = 0 := by
  unfold poflrSetPort at h
  split at h
  · cases h
    rfl
  · cases h
    rfl
  · rename_i hhw hsys
    exact absurd ⟨by rw [hhw]; rfl, by rw [hsys]; rfl⟩ hread

/-- A regular addition. -/
theorem PortsInv.add (hinv : PortsInv st) (hregular : AddRegular name k os st)
    (h : poflrAddPortNoReportNoTask name k os st = some (r, st')) : PortsInv st' := by
  rcases poflrAddPortNoReportNoTask_cases h with
    rfl | ⟨slot, addr, port, index, hslot, hnone, hknown, hmemory, hset, rfl⟩
  · exact hinv
  · obtain ⟨hlast, hread⟩ := hregular slot hslot hnone hknown (by rw [hmemory]; rfl)
    obtain ⟨hport, rfl⟩ := poflrSetPort_read hread hset
    exact hinv.more hport hlast rfl (perm_ports_insert hslot port _)

/-- A deletion. -/
theorem PortsInv.del (hinv : PortsInv st) : PortsInv (poflrDelPort name k os st).2 := by
  unfold poflrDelPort
  split
  · exact hinv
  · split
    · exact hinv
    · split_ifs
      · exact hinv
      · exact hinv
      · refine hinv.less rfl (sublist_flatMap_modify (fun slot => ?_) st.slots k)
        rw [mapPortDelete, Hmap.nodes_nodeDelete]
        exact List.filter_sublist

/-- The loop of `poflr_init_port`, by induction on the names that are left. -/
theorem PortsInv.initLoop {slotID : UInt16} {answers : ℕ → OsAnswer} {names : List PortName} {i : ℕ}
    (hinv : PortsInv st) (hregular : InitRegular k slotID answers names i st)
    (h : initPortLoop k slotID answers names i st = some st') : PortsInv st' := by
  induction names generalizing i st with
  | nil =>
      cases h
      exact hinv
  | cons portName names ih =>
      rw [initPortLoop] at h
      rw [InitRegular] at hregular
      by_cases hother : portName.slotID ≠ slotID
      · rw [if_pos hother] at h hregular
        exact ih hinv hregular h
      · rw [if_neg hother] at h hregular
        obtain ⟨hadd, hrest⟩ := hregular
        split at h
        · rename_i st₁ hst₁
          exact ih (hinv.add hadd hst₁) (hrest st₁ hst₁) h
        · cases h

/-- **A regular operation keeps the invariant.** -/
theorem PortsInv.step {op : PortOp} (hinv : PortsInv st) (hregular : op.Regular st)
    (h : op.next st = some st') : PortsInv st' := by
  cases op with
  | init k interfaces maps answers =>
      simp only [PortOp.next, poflrInitPort] at h
      cases hslot : st.slots[k]? with
      | none =>
          rw [hslot] at h
          cases h
      | some slot =>
          rw [hslot] at h
          dsimp only at h
          split_ifs at h
          -- the new maps are empty
          have hbefore : PortsInv (beforeInitLoop k slot interfaces st) := by
            refine hinv.less rfl (sublist_flatMap_modify (fun slot => ?_) st.slots k)
            exact List.nil_sublist _
          exact hbefore.initLoop (hregular slot hslot) h
  | add name k os =>
      obtain ⟨r, hadd⟩ := poflrAddPort_next h
      exact hinv.add hregular hadd
  | del name k os =>
      cases h
      exact hinv.del

/-- **In a run of regular operations the ports of all slots have different numbers, and none has number 0
or 255.** -/
theorem portsOk_of_run {start : PortsState} (hstart : PortsStart start)
    (hrun : PortsRun PortOp.Regular start st) : PortsOk st := by
  have hinv : PortsInv st := by
    induction hrun with
    | start => exact hstart.inv
    | step _ hregular hnext ih => exact ih.step hregular hnext
  exact hinv.portsOk

/-- After an addition that is not regular there is a port with number 0 or 255. -/
theorem not_portsOk_of_irregular (hregular : ¬ AddRegular name k os st)
    (h : (PortOp.add name k os).next st = some st') : ¬ PortsOk st' := by
  unfold AddRegular at hregular
  push Not at hregular
  obtain ⟨slot, hslot, hnone, hknown, hmemory, hbad⟩ := hregular
  obtain ⟨addr, haddr⟩ := Option.isSome_iff_exists.1 hmemory
  obtain ⟨r, hadd⟩ := poflrAddPort_next h
  simp only [poflrAddPortNoReportNoTask, hslot, hnone, Option.isSome_none, Bool.false_eq_true, if_false,
    hknown, Bool.true_eq_false, haddr] at hadd
  obtain ⟨⟨port, index⟩, hset, hr⟩ := Option.map_eq_some_iff.1 hadd
  cases hr
  have hmem : port ∈ PortsState.ports
      { st with portIndex := index, slots := st.slots.modify k (mapPortInsert port) } :=
    (perm_ports_insert hslot port index).symm.subset List.mem_cons_self
  intro hok
  obtain ⟨hzero, hflood⟩ := hok.named port hmem
  by_cases hread : os.hwaddr.isSome ∧ os.ifIndex.isSome
  · have hlast : st.portIndex = 255 := by
      by_contra hne
      exact hbad hne hread.1 hread.2
    exact hflood ((poflrSetPort_read hread hset).1.trans hlast)
  · exact hzero (poflrSetPort_unread hread hset)

end Steps

/-! ### A counter that has run out -/

/-- The process starts with one slot. -/
def onePortSlot : PortsState where
  portIndex := 1
  portNameList := []
  slots := [⟨0, Hmap.create 8, Hmap.create 8, 8, 0, true⟩]

/-- An interface that can be read. -/
def upInterface : OsAnswer := ⟨true, some 7, some (Buf.zeros 6), some 3, [], true, true, true, true⟩

/-- The interface `e0` is added. -/
def addE0 (os : OsAnswer) : PortOp := .add [0x65, 0x30] 0 os

/-- The interface `e0` is deleted. -/
def delE0 : PortOp := .del [0x65, 0x30] 0 upInterface

/-- The state after the interface has been added and deleted `n` times. -/
def cycled : ℕ → Option PortsState
  | 0 => some onePortSlot
  | n + 1 => ((cycled n).bind (addE0 upInterface).next).bind delE0.next

/-- One port is added. -/
theorem portsOk_of_run_one : ∃ st, PortsRun PortOp.Regular onePortSlot st ∧ st.ports.length = 1 ∧ PortsOk st := by
  have hstart : PortsStart onePortSlot := ⟨rfl, by decide⟩
  have hregular : (addE0 upInterface).Regular onePortSlot := fun _ _ _ _ _ => by decide
  obtain ⟨st, hst, hlen⟩ : ∃ st, (addE0 upInterface).next onePortSlot = some st ∧ st.ports.length = 1 :=
    ⟨_, rfl, rfl⟩
  have hrun := PortsRun.step PortsRun.start hregular hst
  exact ⟨st, hrun, hlen, portsOk_of_run hstart hrun⟩

/-- The operations in front of the last addition are part of a run. -/
theorem cycled_run {n : ℕ} {st : PortsState} (h : cycled n = some st) :
    PortsRun (fun _ _ => True) onePortSlot st := by
  induction n generalizing st with
  | zero =>
      cases h
      exact PortsRun.start
  | succ n ih =>
      obtain ⟨st₁, hadd, hdel⟩ := Option.bind_eq_some_iff.1 h
      obtain ⟨st₀, hst₀, hnext⟩ := Option.bind_eq_some_iff.1 hadd
      exact PortsRun.step (PortsRun.step (ih hst₀) trivial hnext) trivial hdel

/-- A port with number 0 or 255. -/
theorem not_portsOk_of_mem {st : PortsState} {n : UInt8} (hn : n = 0 ∨ n = 255)
    (h : n ∈ st.ports.map fun port => port.pofIndex) : ¬ PortsOk st := by
  intro hok
  obtain ⟨port, hport, rfl⟩ := List.mem_map.1 h
  obtain ⟨hzero, hflood⟩ := hok.named port hport
  rcases hn with hn | hn
  · exact hzero hn
  · exact hflood hn

/-- After 254 additions and deletions the next port gets number 255; and a port whose hardware address
cannot be read gets number 0. -/
theorem run_not_portsOk : PortsStart onePortSlot ∧
    (∃ st, PortsRun (fun _ _ => True) onePortSlot st ∧ st.ports.map (fun port => port.pofIndex) = [255] ∧
      ¬ PortsOk st) ∧
    ∃ st, PortsRun (fun _ _ => True) onePortSlot st ∧ st.ports.map (fun port => port.pofIndex) = [0] ∧
      ¬ PortsOk st := by
  refine ⟨⟨rfl, by decide⟩, ?_, ?_⟩
  · have hlast : ((cycled 254).bind (addE0 upInterface).next).map
        (fun st => st.ports.map fun port => port.pofIndex) = some [255] := by decide +kernel
    obtain ⟨st, hst, hports⟩ := Option.map_eq_some_iff.1 hlast
    obtain ⟨st₀, hst₀, hnext⟩ := Option.bind_eq_some_iff.1 hst
    exact ⟨st, PortsRun.step (cycled_run hst₀) trivial hnext, hports,
      not_portsOk_of_mem (Or.inr rfl) (by rw [hports]; exact List.mem_singleton.2 rfl)⟩
  · have hlast : ((addE0 { upInterface with hwaddr := none }).next onePortSlot).map
        (fun st => st.ports.map fun port => port.pofIndex) = some [0] := by decide +kernel
    obtain ⟨st, hst, hports⟩ := Option.map_eq_some_iff.1 hlast
    exact ⟨st, PortsRun.step PortsRun.start trivial hst, hports,
      not_portsOk_of_mem (Or.inl rfl) (by rw [hports]; exact List.mem_singleton.2 rfl)⟩

end PofSwitch
