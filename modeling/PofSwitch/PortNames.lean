/-
**Ports and their names.**

`poflr_get_port_with_name` returns the first port of `portNameMap` with the hash of the name, and does not
compare the names.  The hash is the exclusive or of the hashes of the words, so it is the same for
names with the same words in another order.  `poflr_add_port` refuses a name whose hash is there already,
and `poflr_del_port` deletes the port it finds.

A port whose interface cannot be read is inserted as `malloc` has cleared it, with the empty name and
hash `0`, which is the hash of the empty name.

Main definitions:

* `PofSwitch.PortOp.Fresh` — the memory of a new port is not that of another port;
* `PofSwitch.NamesInv` — the two maps of a slot have the same ports, under the hashes of their names;
* `PofSwitch.FoundByName` — what the lookup, the addition and the deletion promise for a name.

Main results:

* `PofSwitch.namesInv_of_run` — the invariant in every run;
* `PofSwitch.foundByName_iff` — **exactly for which names the promise is kept**.
-/

import PofSwitch.Ports

set_option relaxedAutoImplicit false
set_option autoImplicit false

namespace PofSwitch

/-! ### Runs -/

/-- The memory for a new port is not that of a port there is. -/
def AddFresh (os : OsAnswer) (st : PortsState) : Prop :=
  ∀ addr, os.memory = some addr → ∀ port ∈ st.ports, port.addr ≠ addr

/-- The same for all additions of the loop of `poflr_init_port`. -/
def InitFresh (k : ℕ) (slotID : UInt16) (os : ℕ → OsAnswer) : List PortName → ℕ → PortsState → Prop
  | [], _, _ => True
  | portName :: names, i, st =>
      if portName.slotID ≠ slotID then InitFresh k slotID os names (i + 1) st
      else AddFresh (os i) st ∧
        ∀ st', poflrAddPortNoReportNoTask portName.name k (os i) st = some (.ok (), st') →
          InitFresh k slotID os names (i + 1) st'

/-- `malloc` hands out no memory that is in use. -/
def PortOp.Fresh : PortOp → PortsState → Prop
  | .init k interfaces _ os, st => ∀ slot, st.slots[k]? = some slot →
      InitFresh k slot.slotID os (beforeInitLoop k slot interfaces st).portNameList 0
        (beforeInitLoop k slot interfaces st)
  | .add _ _ os, st => AddFresh os st
  | .del _ _ _, _ => True

/-- The process starts without ports, and with nothing in the maps of names. -/
structure NamesStart (st : PortsState) : Prop extends PortsStart st where
  noNames : ∀ slot ∈ st.slots, slot.portNameMap.nodes = []

/-! ### The invariant -/

/-- The two maps of a slot hold the same ports in the same order, each under the hash of its name.  A port
with the hash of an older one has the empty name. -/
structure NamesInv (slot : PortSlot) : Prop where
  nodes_eq : slot.portNameMap.nodes = slot.portPofIndexMap.nodes.map fun port => ⟨port.addr, port.nameHash⟩
  nodup : (slot.portPofIndexMap.nodes.map fun port => port.addr).Nodup
  hash_eq : ∀ port ∈ slot.portPofIndexMap.nodes, port.nameHash = mapPortHashByName port.name
  newer : slot.portPofIndexMap.nodes.Pairwise fun new old => new.nameHash = old.nameHash → new.name = []

/-- The invariant of all slots. -/
def NamesOk (st : PortsState) : Prop := ∀ (k : ℕ) slot, st.slots[k]? = some slot → NamesInv slot

theorem namesInv_of_nil {slot : PortSlot} (hports : slot.portPofIndexMap.nodes = [])
    (hnames : slot.portNameMap.nodes = []) : NamesInv slot := by
  constructor
  case nodes_eq => rw [hnames, hports, List.map_nil]
  case nodup => simp [hports]
  case hash_eq => simp [hports]
  case newer => simp [hports]

/-- The lookup finds the newest port with the hash of the name. -/
theorem NamesInv.get_eq {slot : PortSlot} (h : NamesInv slot) (name : Buf) :
    poflrGetPortWithName name slot =
      slot.portPofIndexMap.nodes.find? fun port => port.nameHash = mapPortHashByName name := by
  have hnode : slot.portNameMap.nodeGetWithHash (mapPortHashByName name) =
      (slot.portPofIndexMap.nodes.find? fun port => port.nameHash = mapPortHashByName name).map
        fun port => ⟨port.addr, port.nameHash⟩ := by
    rw [Hmap.nodeGetWithHash, h.nodes_eq, List.find?_map]
    rfl
  rw [poflrGetPortWithName, hnode]
  cases hfind : slot.portPofIndexMap.nodes.find? fun port => port.nameHash = mapPortHashByName name with
  | none => rfl
  | some port =>
      have hmem := List.mem_of_find?_eq_some hfind
      -- there is one port at its address
      have hat : slot.portPofIndexMap.nodes.find? (fun p => p.addr = port.addr) = some port := by
        refine Hmap.find?_eq_some_of_unique hmem (decide_eq_true rfl) fun p hp haddr => ?_
        exact List.inj_on_of_nodup_map h.nodup hp hmem (of_decide_eq_true haddr)
      rw [Option.map_some, Option.bind_some, hat]

/-- A miss: no port has the hash of the name. -/
theorem NamesInv.hash_ne {slot : PortSlot} (h : NamesInv slot) {name : Buf}
    (hnone : poflrGetPortWithName name slot = none) :
    ∀ port ∈ slot.portPofIndexMap.nodes, mapPortHashByName port.name ≠ mapPortHashByName name := by
  intro port hport heq
  rw [h.get_eq] at hnone
  have hno := List.find?_eq_none.1 hnone port hport
  rw [h.hash_eq port hport, heq] at hno
  simp at hno

/-- A hit: the port is the newest one with the hash of the name, and has the empty name if there is another
one. -/
theorem NamesInv.first_of_get {slot : PortSlot} (h : NamesInv slot) {name : Buf} {first : SwitchPort}
    (hget : poflrGetPortWithName name slot = some first) :
    first ∈ slot.portPofIndexMap.nodes ∧ mapPortHashByName first.name = mapPortHashByName name ∧
      ∀ port ∈ slot.portPofIndexMap.nodes, mapPortHashByName port.name = mapPortHashByName name →
        port = first ∨ first.name = [] := by
  rw [h.get_eq] at hget
  obtain ⟨hfound, newer, older, hnodes, hnewer⟩ := List.find?_eq_some_iff_append.1 hget
  have hhash : first.nameHash = mapPortHashByName name := of_decide_eq_true hfound
  have hfirst : first ∈ slot.portPofIndexMap.nodes := List.mem_of_find?_eq_some hget
  refine ⟨hfirst, (h.hash_eq first hfirst).symm.trans hhash, fun port hport heq => ?_⟩
  rw [← h.hash_eq port hport] at heq
  have hpairwise := h.newer
  rw [hnodes] at hport hpairwise
  rcases List.mem_append.1 hport with hport | hport
  · have hother := hnewer port hport
    simp [heq] at hother
  · rcases List.mem_cons.1 hport with rfl | hport
    · exact Or.inl rfl
    · have hcons := (List.pairwise_append.1 hpairwise).2.1
      exact Or.inr ((List.pairwise_cons.1 hcons).1 port hport (hhash.trans heq.symm))

/-- The port that `poflr_set_port` fills: it has the name, or no name. -/
theorem poflrSetPort_name {name : Buf} {slotID : UInt16} {os : OsAnswer} {addr : ℕ} {portIndex index : UInt8}
    {port : SwitchPort} (h : poflrSetPort name slotID os addr portIndex = some (port, index)) :
    port.addr = addr ∧ port.nameHash = mapPortHashByName port.name ∧ (port.name = name ∨ port.name = []) := by
  have hempty : mapPortHashByName [] = 0 := by decide
  unfold poflrSetPort at h
  split at h
  · cases h
    exact ⟨rfl, hempty.symm, Or.inr rfl⟩
  · cases h
    exact ⟨rfl, hempty.symm, Or.inr rfl⟩
  · split at h
    · cases h
      exact ⟨rfl, rfl, Or.inl rfl⟩
    · cases h

/-- An insertion after a lookup that has found nothing. -/
theorem NamesInv.insert {slot : PortSlot} (h : NamesInv slot) {name : Buf} {port : SwitchPort}
    (hnone : poflrGetPortWithName name slot = none)
    (hfresh : ∀ p ∈ slot.portPofIndexMap.nodes, p.addr ≠ port.addr)
    (hhash : port.nameHash = mapPortHashByName port.name) (hname : port.name = name ∨ port.name = []) :
    NamesInv (mapPortInsert port slot) := by
  constructor
  case nodes_eq =>
    rw [mapPortInsert, Hmap.nodes_nodeInsert, Hmap.nodes_nodeInsert, h.nodes_eq]
    rfl
  case nodup =>
    rw [mapPortInsert, Hmap.nodes_nodeInsert, List.map_cons, List.nodup_cons]
    refine ⟨fun hmem => ?_, h.nodup⟩
    obtain ⟨p, hp, heq⟩ := List.mem_map.1 hmem
    exact hfresh p hp heq
  case hash_eq =>
    intro p hp
    rcases List.mem_cons.1 hp with rfl | hp
    · exact hhash
    · exact h.hash_eq p hp
  case newer =>
    rw [mapPortInsert, Hmap.nodes_nodeInsert, List.pairwise_cons]
    refine ⟨fun old hold heq => ?_, h.newer⟩
    rcases hname with hname | hname
    · rw [h.get_eq] at hnone
      rw [hhash, hname] at heq
      exact absurd heq.symm (by simpa using List.find?_eq_none.1 hnone old hold)
    · exact hname

theorem NamesInv.delete {slot : PortSlot} (h : NamesInv slot) (port : SwitchPort) :
    NamesInv (mapPortDelete port slot) := by
  have hless : (mapPortDelete port slot).portPofIndexMap.nodes =
      slot.portPofIndexMap.nodes.filter fun p => p.addr ≠ port.addr := Hmap.nodes_nodeDelete _ _
  constructor
  case nodes_eq =>
    rw [hless, mapPortDelete, Hmap.nodes_nodeDelete, h.nodes_eq, List.filter_map]
    rfl
  case nodup =>
    rw [hless]
    exact h.nodup.sublist (List.filter_sublist.map _)
  case hash_eq =>
    intro p hp
    rw [hless] at hp
    exact h.hash_eq p (List.mem_of_mem_filter hp)
  case newer =>
    rw [hless]
    exact h.newer.sublist List.filter_sublist

/-! ### Steps -/

section Steps

variable {name : Buf} {k : ℕ} {os : OsAnswer} {st st' : PortsState} {r : Except PortError Unit}

theorem NamesStart.namesOk (h : NamesStart st) : NamesOk st := by
  intro k slot hslot
  have hmem := List.mem_of_getElem? hslot
  exact namesInv_of_nil (h.noPorts slot hmem) (h.noNames slot hmem)

/-- A change of one slot. -/
theorem NamesOk.modify (h : NamesOk st) {f : PortSlot → PortSlot}
    (hf : ∀ slot, st.slots[k]? = some slot → NamesInv (f slot)) (hslots : st'.slots = st.slots.modify k f) :
    NamesOk st' := by
  intro i slot hslot
  rw [hslots, List.getElem?_modify] at hslot
  obtain ⟨old, hold, rfl⟩ := Option.map_eq_some_iff.1 hslot
  split_ifs with hi
  · subst hi
    exact hf old hold
  · exact h i old hold

theorem mem_ports {slot : PortSlot} (hslot : st.slots[k]? = some slot) {port : SwitchPort}
    (hport : port ∈ slot.portPofIndexMap.nodes) : port ∈ st.ports :=
  List.mem_flatMap.2 ⟨slot, List.mem_of_getElem? hslot, hport⟩

theorem NamesOk.add (hok : NamesOk st) (hfresh : AddFresh os st)
    (h : poflrAddPortNoReportNoTask name k os st = some (r, st')) : NamesOk st' := by
  rcases poflrAddPortNoReportNoTask_cases h with
    rfl | ⟨slot, addr, port, index, hslot, hnone, _, hmemory, hset, rfl⟩
  · exact hok
  · obtain ⟨haddr, hhash, hname⟩ := poflrSetPort_name hset
    refine hok.modify (fun slot' hslot' => ?_) rfl
    obtain rfl : slot' = slot := Option.some.inj (hslot'.symm.trans hslot)
    refine (hok k slot' hslot).insert hnone (fun p hp => ?_) hhash hname
    rw [haddr]
    exact hfresh addr hmemory p (mem_ports hslot hp)

theorem NamesOk.del (hok : NamesOk st) : NamesOk (poflrDelPort name k os st).2 := by
  unfold poflrDelPort
  split
  · exact hok
  · rename_i slot hslot
    split
    · exact hok
    · rename_i port hport
      split_ifs
      · exact hok
      · exact hok
      · exact hok.modify (fun slot' hslot' => (hok k slot' hslot').delete port) rfl

/-- The loop of `poflr_init_port`, by induction on the names that are left. -/
theorem NamesOk.initLoop {slotID : UInt16} {answers : ℕ → OsAnswer} {names : List PortName} {i : ℕ}
    (hok : NamesOk st) (hfresh : InitFresh k slotID answers names i st)
    (h : initPortLoop k slotID answers names i st = some st') : NamesOk st' := by
  induction names generalizing i st with
  | nil =>
      cases h
      exact hok
  | cons portName names ih =>
      rw [initPortLoop] at h
      rw [InitFresh] at hfresh
      by_cases hother : portName.slotID ≠ slotID
      · rw [if_pos hother] at h hfresh
        exact ih hok hfresh h
      · rw [if_neg hother] at h hfresh
        obtain ⟨hadd, hrest⟩ := hfresh
        split at h
        · rename_i st₁ hst₁
          exact ih (hok.add hadd hst₁) (hrest st₁ hst₁) h
        · cases h

/-- **An operation keeps the invariant.** -/
theorem NamesOk.step {op : PortOp} (hok : NamesOk st) (hfresh : op.Fresh st) (h : op.next st = some st') :
    NamesOk st' := by
  cases op with
  | init k interfaces maps answers =>
      simp only [PortOp.next, poflrInitPort] at h
      cases hslot : st.slots[k]? with
      | none =>
          rw [hslot] at h
          cases h
      | some slot =>
          rw [hslot] at h
          dsimp only at h
          split_ifs at h
          have hbefore : NamesOk (beforeInitLoop k slot interfaces st) :=
            hok.modify (fun slot' _ => namesInv_of_nil rfl rfl) rfl
          exact hbefore.initLoop (hfresh slot hslot) h
  | add name k os =>
      obtain ⟨r, hadd⟩ := poflrAddPort_next h
      exact hok.add hfresh hadd
  | del name k os =>
      cases h
      exact hok.del

/-- **In every run the two maps of a slot hold the same ports, each under the hash of its name.** -/
theorem namesInv_of_run {start : PortsState} (hstart : NamesStart start)
    (hrun : PortsRun PortOp.Fresh start st) : NamesOk st := by
  induction hrun with
  | start => exact hstart.namesOk
  | step _ hfresh hnext ih => exact ih.step hfresh hnext

end Steps

/-! ### A name -/

/-- A port that is found has the name, and a port with the name is found.  So an addition refuses the name
only if there is a port with it, and a deletion takes away only ports with it. -/
structure FoundByName (name : Buf) (k : ℕ) (slot : PortSlot) (st : PortsState) : Prop where
  found : ∀ port, poflrGetPortWithName name slot = some port →
    port ∈ slot.portPofIndexMap.nodes ∧ port.name = name
  missed : poflrGetPortWithName name slot = none → ∀ port ∈ slot.portPofIndexMap.nodes, port.name ≠ name
  refused : ∀ os st', poflrAddPort name k os st = some (.error .alreadyHave, st') →
    ∃ port ∈ slot.portPofIndexMap.nodes, port.name = name
  removed : ∀ os slot', (poflrDelPort name k os st).2.slots[k]? = some slot' →
    ∀ port ∈ slot.portPofIndexMap.nodes, port ∉ slot'.portPofIndexMap.nodes → port.name = name

section Lookup

variable {name : Buf} {k : ℕ} {slot : PortSlot} {st : PortsState}

/-- An addition refuses a name when the lookup finds a port. -/
theorem isSome_of_alreadyHave {os : OsAnswer} {st' : PortsState} (hslot : st.slots[k]? = some slot)
    (h : poflrAddPort name k os st = some (.error .alreadyHave, st')) :
    (poflrGetPortWithName name slot).isSome = true := by
  by_contra hnone
  obtain ⟨⟨r, t⟩, hadd, hr⟩ := Option.map_eq_some_iff.1 h
  simp only [poflrAddPortNoReportNoTask, hslot, if_neg hnone] at hadd
  split_ifs at hadd
  · cases hadd
    cases hr
  · cases hmemory : os.memory with
    | none =>
        rw [hmemory] at hadd
        cases hadd
        cases hr
    | some addr =>
        rw [hmemory] at hadd
        obtain ⟨⟨port, index⟩, _, heq⟩ := Option.map_eq_some_iff.1 hadd
        cases heq
        dsimp only at hr
        split_ifs at hr <;> cases hr

/-- A port that a deletion takes away has the address of the one that the lookup finds. -/
theorem exists_of_removed {os : OsAnswer} {slot' : PortSlot} {port : SwitchPort} (hslot : st.slots[k]? = some slot)
    (hslot' : (poflrDelPort name k os st).2.slots[k]? = some slot')
    (hport : port ∈ slot.portPofIndexMap.nodes) (hgone : port ∉ slot'.portPofIndexMap.nodes) :
    ∃ p, poflrGetPortWithName name slot = some p ∧ port.addr = p.addr := by
  have hsame : st.slots[k]? = some slot' → ∃ p, poflrGetPortWithName name slot = some p ∧ port.addr = p.addr := by
    intro heq
    obtain rfl : slot = slot' := Option.some.inj (hslot.symm.trans heq)
    exact absurd hport hgone
  simp only [poflrDelPort, hslot] at hslot'
  cases hget : poflrGetPortWithName name slot with
  | none =>
      rw [hget] at hslot'
      rw [← hget]
      exact hsame hslot'
  | some p =>
      rw [hget] at hslot' hsame
      dsimp only at hslot'
      split_ifs at hslot'
      · exact hsame hslot'
      · exact hsame hslot'
      · rw [List.getElem?_modify, hslot] at hslot'
        obtain rfl : mapPortDelete p slot = slot' := by simpa using hslot'
        refine ⟨p, rfl, ?_⟩
        by_contra hne
        refine hgone ?_
        rw [mapPortDelete, Hmap.nodes_nodeDelete]
        exact List.mem_filter.2 ⟨hport, decide_eq_true hne⟩

/-- Everything follows from what the lookup finds. -/
theorem NamesInv.foundByName (h : NamesInv slot) (hslot : st.slots[k]? = some slot)
    (hfound : ∀ port, poflrGetPortWithName name slot = some port → port.name = name) :
    FoundByName name k slot st := by
  have hmem : ∀ port, poflrGetPortWithName name slot = some port → port ∈ slot.portPofIndexMap.nodes :=
    fun port hport => (h.first_of_get hport).1
  constructor
  case found => exact fun port hport => ⟨hmem port hport, hfound port hport⟩
  case missed => exact fun hnone port hport hname => h.hash_ne hnone port hport (by rw [hname])
  case refused =>
    intro os st' hadd
    obtain ⟨port, hport⟩ := Option.isSome_iff_exists.1 (isSome_of_alreadyHave hslot hadd)
    exact ⟨port, hmem port hport, hfound port hport⟩
  case removed =>
    intro os slot' hslot' port hport hgone
    obtain ⟨p, hp, haddr⟩ := exists_of_removed hslot hslot' hport hgone
    rw [List.inj_on_of_nodup_map h.nodup hport (hmem p hp) haddr]
    exact hfound p hp

/-- The lookup finds a port with the name exactly when the ports with its hash have the name.  Only the
empty name may share its hash with an older port. -/
theorem NamesInv.found_iff (h : NamesInv slot) :
    (∀ port, poflrGetPortWithName name slot = some port → port.name = name) ↔
      (∀ port ∈ slot.portPofIndexMap.nodes, mapPortHashByName port.name = mapPortHashByName name →
        port.name = name) ∨
      name = [] ∧ ∃ port ∈ slot.portPofIndexMap.nodes, port.name = [] := by
  cases hget : poflrGetPortWithName name slot with
  | none =>
      refine iff_of_true (by simp) (Or.inl fun port hport heq => ?_)
      exact absurd heq (h.hash_ne hget port hport)
  | some first =>
      obtain ⟨hfirst, hhash, hothers⟩ := h.first_of_get hget
      constructor
      · intro hall
        have hname := hall first rfl
        by_cases hempty : name = []
        · exact Or.inr ⟨hempty, first, hfirst, hname.trans hempty⟩
        · refine Or.inl fun port hport heq => ?_
          rcases hothers port hport heq with rfl | hnil
          · exact hname
          · exact absurd (hname.symm.trans hnil) hempty
      · rintro (hall | ⟨rfl, port, hport, hname⟩) p ⟨⟩
        · exact hall first hfirst hhash
        · rcases hothers port hport (by rw [hname]) with rfl | hnil
          · exact hname
          · exact hnil

end Lookup

/-- **In every state of a run, the lookup, the addition and the deletion keep to a name exactly when all
ports of the slot with the hash of the name have the name itself; for the empty name, which is no
interface, a port with it is enough.** -/
theorem foundByName_iff {start st : PortsState} (hstart : NamesStart start)
    (hrun : PortsRun PortOp.Fresh start st) {k : ℕ} {slot : PortSlot} (hslot : st.slots[k]? = some slot)
    (name : Buf) :
    FoundByName name k slot st ↔
      (∀ port ∈ slot.portPofIndexMap.nodes, mapPortHashByName port.name = mapPortHashByName name →
        port.name = name) ∨
      name = [] ∧ ∃ port ∈ slot.portPofIndexMap.nodes, port.name = [] := by
  have hinv := namesInv_of_run hstart hrun k slot hslot
  rw [← hinv.found_iff]
  constructor
  · intro h port hport
    exact (h.found port hport).2
  · exact hinv.foundByName hslot

/-- The interface `aaaabbbb` is added. -/
def addAb : PortOp := .add [0x61, 0x61, 0x61, 0x61, 0x62, 0x62, 0x62, 0x62] 0 upInterface

theorem namesStart_onePortSlot : NamesStart onePortSlot where
  portIndex := rfl
  noPorts := by decide
  noNames := by decide

/-- After the addition the slot has the port. -/
theorem exists_run_addAb : ∃ st slot, PortsRun PortOp.Fresh onePortSlot st ∧ st.slots[0]? = some slot ∧
    slot.portPofIndexMap.nodes.map (fun port => port.name) =
      [[0x61, 0x61, 0x61, 0x61, 0x62, 0x62, 0x62, 0x62]] := by
  obtain ⟨st, slot, hst, hslot, hnames⟩ : ∃ st slot, addAb.next onePortSlot = some st ∧
      st.slots[0]? = some slot ∧ slot.portPofIndexMap.nodes.map (fun port => port.name) =
        [[0x61, 0x61, 0x61, 0x61, 0x62, 0x62, 0x62, 0x62]] := ⟨_, _, rfl, rfl, rfl⟩
  have hfresh : addAb.Fresh onePortSlot := by
    intro addr _ port hport
    exact absurd hport (by simp [onePortSlot, PortsState.ports])
  exact ⟨st, slot, PortsRun.step PortsRun.start hfresh hst, hslot, hnames⟩

/-- The name of the port itself. -/
theorem foundByName_own : ∃ st slot, PortsRun PortOp.Fresh onePortSlot st ∧
    FoundByName [0x61, 0x61, 0x61, 0x61, 0x62, 0x62, 0x62, 0x62] 0 slot st := by
  obtain ⟨st, slot, hrun, hslot, hnames⟩ := exists_run_addAb
  refine ⟨st, slot, hrun, (foundByName_iff namesStart_onePortSlot hrun hslot _).2 (Or.inl ?_)⟩
  intro port hport _
  have hmem := List.mem_map_of_mem (f := fun port : SwitchPort => port.name) hport
  rw [hnames] at hmem
  exact List.mem_singleton.1 hmem

/-- The lookup of `bbbbaaaa` finds the port `aaaabbbb`. -/
theorem foundByName_permuted : ¬ ∀ start st, NamesStart start → PortsRun PortOp.Fresh start st →
    ∀ (k : ℕ) slot, st.slots[k]? = some slot → ∀ name, FoundByName name k slot st := by
  intro hall
  obtain ⟨st, slot, hrun, hslot, hnames⟩ := exists_run_addAb
  have hname := hall onePortSlot st namesStart_onePortSlot hrun 0 slot hslot
    [0x62, 0x62, 0x62, 0x62, 0x61, 0x61, 0x61, 0x61]
  have hinv := namesInv_of_run namesStart_onePortSlot hrun 0 slot hslot
  rcases hinv.found_iff.1 fun port hport => (hname.found port hport).2 with hsame | ⟨hnil, _⟩
  · obtain ⟨port, hport, hab⟩ : ∃ port ∈ slot.portPofIndexMap.nodes,
        port.name = [0x61, 0x61, 0x61, 0x61, 0x62, 0x62, 0x62, 0x62] :=
      List.mem_map.1 (by rw [hnames]; exact List.mem_singleton.2 rfl)
    have hba := hsame port hport (by rw [hab]; decide +kernel)
    rw [hab] at hba
    exact absurd hba (by decide)
  · exact absurd hnil (by decide)

end PofSwitch
