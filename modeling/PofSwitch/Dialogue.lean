/-
**The dialogue of switch and controller.**

In a run the switch gets messages, forwards packets, and is cleared when a connection begins.  On bytes this
is a machine whose outputs are the messages that are queued for the messages it gets.  On requests it is a
machine whose outputs are answers.  The reader of the controller takes the runs of one to the runs of the
other: block by block, what it reads in reply to a message is what the switch answers to it.

The packets of a run may change counters, and `g_upward_xid`.  What the datapath sends by itself for a packet,
or by a port for the actions of a `POFT_PACKET_OUT`, is not part of the dialogue.

Main definitions:

* `PofSwitch.SwitchEvent`, `PofSwitch.switchMachine` — what happens to the switch, and what it does;
* `PofSwitch.byteSwitch`, `PofSwitch.answerSwitch` — the machine on bytes, and the one on requests;
* `PofSwitch.Control.start`, `PofSwitch.Control.Promised` — the state at start-up, and what is promised of every
  event.

Main results:

* `PofSwitch.Control.Ok.step` — the switch can be asked again after every event;
* `PofSwitch.dialogue_refines` — **every run on bytes is, to the reader, a run on requests and answers.**
-/

import PofSwitch.Answers

set_option relaxedAutoImplicit false
set_option autoImplicit false

namespace PofSwitch

open Buf Prog HmapNode

/-! ### The machines -/

/-- What happens to the switch: it gets a message, it forwards a packet in the slot at a place, after which
`g_upward_xid` is the one given, or it is cleared. -/
inductive SwitchEvent (μ : Type)
  | message (env : ParseEnv) (msg : μ)
  | packet (env : DpEnv) (slot : ℕ) (portId : UInt8) (packet : Buf) (fuel : ℕ) (upwardXid : UInt32)
  | clear

/-- The event with another form of its message. -/
def SwitchEvent.map {μ ν : Type} (f : μ → ν) : SwitchEvent μ → SwitchEvent ν
  | .message env msg => .message env (f msg)
  | .packet env slot portId bytes fuel upwardXid => .packet env slot portId bytes fuel upwardXid
  | .clear => .clear

/-- `pofdp_forward` in a slot. -/
def Control.forward (env : DpEnv) (slot : ℕ) (portId : UInt8) (packet : Buf) (fuel : ℕ) (upwardXid : UInt32)
    (c : Control) : Option Control :=
  c.slots[slot]?.bind fun lr =>
    match exec (pofdpInstructionExecute env fuel) (pofdpForward portId packet lr) with
    | (.error .fuel, _) => none
    | (_, t) => some { c with slots := c.slots.set slot t.lr, upwardXid := upwardXid }

/-- `poflr_clear_resource` in every slot. -/
def Control.clear (c : Control) : Control := { c with slots := c.slots.map poflrClearResource }

/-- The switch, from what it does with a message. -/
def switchMachine {μ ο : Type} (handle : ParseEnv → μ → Control → Option (Control × List ο)) :
    Machine Control (SwitchEvent μ) ο where
  step c
    | .message env msg => handle env msg c
    | .packet env slot portId packet fuel upwardXid =>
        (c.forward env slot portId packet fuel upwardXid).map fun c => (c, [])
    | .clear => some (c.clear, [])

/-- The switch on bytes. -/
def byteSwitch : Machine Control (SwitchEvent Buf) Buf :=
  switchMachine fun env b c => (c.pofParseMsgFromController env b).map Prod.snd

/-- The switch on requests, each with its `xid`. -/
def answerSwitch : Machine Control (SwitchEvent (UInt32 × Request)) (UInt32 × Answer) :=
  switchMachine fun env msg c => (c.answers env msg.1 msg.2).map Prod.snd

/-- The `xid` and the request of a message. -/
def readMessage (b : Buf) : UInt32 × Request := (word (pofNtoHTransferHeader b) 4, requestOf b)

/-- A description of no tables, as at start-up. -/
def noResource : PofFlowTableResource := ⟨0, 0, 0, 0, List.replicate maxTableType ⟨0, 0, 0, 0, 0⟩⟩

/-- The state after start-up, and after the handshake has found the device id: the slots have been initialised,
and the last of them has described its tables, with the id that was known then. -/
def Control.start (param : LrConfig) (ports : List (Hmap PortInfo)) (bootId devId upwardXid : UInt32) :
    Control where
  slots := pofdpSlotInit param ports
  devId := devId
  config := ⟨0, 0, 0⟩
  resource := (((pofdpSlotInit param ports).getLast?).map (LocalResource.tableResource bootId)).getD noResource
  upwardXid := upwardXid

/-! ### What is promised -/

/-- A request that can be sent back once it is stored. -/
def ModMsg.Codable (msg : ModMsg) : Prop := ∀ call, msg.call = some call → ∀ a, (call a).Codable

/-- What is promised of a request: if it is stored, it can be sent back, and `malloc` keeps its promise. -/
def Control.Serves (env : ParseEnv) (c : Control) (req : Request) : Prop :=
  ∀ msg, req = .mod msg → msg.Codable ∧ msg.Fresh env.alloc c.slots

/-- What is promised of an event: the channel sends, and the requests are served. -/
def Control.Promised (c : Control) : SwitchEvent Buf → Prop
  | .message env b => env.state.sends = true ∧ c.Serves env (requestOf b)
  | _ => True

/-! ### The slots -/

namespace Queryable

variable {nums : Vector UInt16 4} {lr lr' : LocalResource}

theorem request (h : Queryable nums lr) {op : LrOp} {ret : Ret} (hop : op.Codable) (hfresh : op.Fresh lr)
    (hexec : op.exec lr = some (ret, lr')) : Queryable nums lr' where
  run := h.run.request hop hfresh hexec
  nums_eq := (congrArg Limits.tableNumMaxEachType (LrOp.tables_cases hexec hfresh).2).trans h.nums_eq

theorem packet (h : Queryable nums lr) {env : DpEnv} {portId : UInt8} {packet : Buf} {fuel : ℕ}
    {r : Except Halt Unit} {t : DpState}
    (hexec : exec (pofdpInstructionExecute env fuel) (pofdpForward portId packet lr) = (r, t))
    (hr : r ≠ .error .fuel) : Queryable nums t.lr where
  run := h.run.packet hexec hr
  nums_eq := (frame_packet LocalResource.tableNumMaxEachType (fun _ _ => rfl) hexec hr).trans h.nums_eq

end Queryable

/-- The new slots come from the old ones. -/
theorem mem_slotResults {call : ℕ × ℕ → LrOp} {alloc : ℕ → ℕ × ℕ} {i : ℕ} {slots : List LocalResource}
    {rs : List (Ret × LocalResource)} (h : slotResults call alloc i slots = some rs) :
    ∀ r ∈ rs, ∃ j lr, slots[j]? = some lr ∧ (call (alloc (i + j))).exec lr = some r := by
  induction slots generalizing i rs with
  | nil =>
      cases h
      simp
  | cons lr slots ih =>
      obtain ⟨r₀, hr₀, hrest⟩ := Option.bind_eq_some_iff.1 h
      obtain ⟨rs', hrs', rfl⟩ := Option.map_eq_some_iff.1 hrest
      intro r hr
      rcases List.mem_cons.1 hr with rfl | hr
      · exact ⟨0, lr, rfl, hr₀⟩
      · obtain ⟨j, lr', hj, hexec⟩ := ih hrs' r hr
        refine ⟨j + 1, lr', hj, ?_⟩
        rw [← hexec, show i + (j + 1) = i + 1 + j by omega]

theorem mem_portMod {slotID : UInt16} {portId : UInt32} {flag : UInt8} {slots : List LocalResource}
    {lr' : LocalResource} (h : lr' ∈ (portMod slotID portId flag slots).2) :
    lr' ∈ slots ∨ ∃ lr ∈ slots, lr' = (poflrPortOpenflowEnable portId flag lr).2 := by
  induction slots with
  | nil => exact absurd h (by simp [portMod])
  | cons lr slots ih =>
      rw [portMod] at h
      split_ifs at h
      · rcases List.mem_cons.1 h with rfl | h
        · exact Or.inr ⟨lr, List.mem_cons_self, rfl⟩
        · exact Or.inl (List.mem_cons_of_mem lr h)
      · rcases List.mem_cons.1 h with rfl | h
        · exact Or.inl List.mem_cons_self
        · rcases ih h with h | ⟨lr₁, hlr₁, rfl⟩
          · exact Or.inl (List.mem_cons_of_mem lr h)
          · exact Or.inr ⟨lr₁, List.mem_cons_of_mem lr hlr₁, rfl⟩

namespace Control

variable {nums : Vector UInt16 4} {c : Control}

/-- The slots of an answer. -/
theorem Ok.answers (hc : c.Ok nums) {env : ParseEnv} {xid : UInt32} {req : Request} (hserves : c.Serves env req)
    {a : ParseRet × Control × List (UInt32 × Answer)} (h : c.answers env xid req = some a) : a.2.1.Ok nums := by
  cases req with
  | echoRequest | getConfigRequest | counterRequest | queryallRequest | badType | setConfig =>
      cases h
      exact ⟨hc.slots, hc.resource⟩
  | featuresRequest =>
      cases h
      exact ⟨hc.slots, (List.length_map _).trans hc.resource⟩
  | portMod slotID portId ofEnable =>
      cases h
      refine ⟨fun lr' hlr' => ?_, hc.resource⟩
      rcases mem_portMod hlr' with hlr' | ⟨lr, hlr, rfl⟩
      · exact hc.slots lr' hlr'
      · have hfresh : (LrOp.portOpenflowEnable portId.toUInt32 ofEnable).Fresh lr :=
          ⟨List.nodup_nil, by simp [LrOp.allocs]⟩
        have hcodable : (LrOp.portOpenflowEnable portId.toUInt32 ofEnable).Codable := trivial
        exact (hc.slots lr hlr).request hcodable hfresh rfl
  | mod msg =>
      simp only [Control.answers] at h
      cases hcall : msg.call with
      | none =>
          rw [hcall] at h
          cases h
          exact ⟨hc.slots, hc.resource⟩
      | some call =>
          rw [hcall] at h
          obtain ⟨rs, hrs, rfl⟩ := Option.map_eq_some_iff.1 h
          obtain ⟨hcodable, hfresh⟩ := hserves msg rfl
          refine ⟨fun lr' hlr' => ?_, hc.resource⟩
          obtain ⟨r, hr, rfl⟩ := List.mem_map.1 hlr'
          obtain ⟨j, lr, hj, hexec⟩ := mem_slotResults hrs r hr
          rw [Nat.zero_add] at hexec
          have hlr := hc.slots lr (List.mem_of_getElem? hj)
          exact hlr.request (hcodable call hcall _) (hfresh call hcall j lr hj) hexec
  | packetOut msg =>
      obtain ⟨r, hr, rfl⟩ := Option.map_eq_some_iff.1 h
      have hslots : r.slots = c.slots := (packetOutEnd_cases hr).1
      exact ⟨fun lr hlr => hc.slots lr (hslots ▸ hlr), hc.resource⟩

theorem Ok.clear (hc : c.Ok nums) : c.clear.Ok nums := by
  refine ⟨fun lr' hlr' => ?_, hc.resource⟩
  obtain ⟨lr, hlr, rfl⟩ := List.mem_map.1 hlr'
  have hcodable : LrOp.clearResource.Codable := trivial
  exact (hc.slots lr hlr).request hcodable ⟨List.nodup_nil, by simp [LrOp.allocs]⟩ rfl

theorem Ok.forward (hc : c.Ok nums) {env : DpEnv} {slot : ℕ} {portId : UInt8} {packet : Buf} {fuel : ℕ}
    {upwardXid : UInt32} {c' : Control} (h : c.forward env slot portId packet fuel upwardXid = some c') :
    c'.Ok nums := by
  obtain ⟨lr, hlr, hpacket⟩ := Option.bind_eq_some_iff.1 h
  cases hexec : exec (pofdpInstructionExecute env fuel) (pofdpForward portId packet lr) with
  | mk r t =>
      rw [hexec] at hpacket
      have hr : r ≠ .error .fuel := by
        rintro rfl
        cases hpacket
      have hnext : c' = { c with slots := c.slots.set slot t.lr, upwardXid := upwardXid } := by
        split at hpacket
        · cases hpacket
        · next heq =>
            cases heq
            exact (Option.some.inj hpacket).symm
      subst hnext
      refine ⟨fun lr' hlr' => ?_, hc.resource⟩
      rcases List.mem_or_eq_of_mem_set hlr' with hlr' | rfl
      · exact hc.slots lr' hlr'
      · exact (hc.slots lr (List.mem_of_getElem? hlr)).packet hexec hr

/-- **What is queued for a message is what the switch answers to it.** -/
theorem pofParseMsgFromController_answers (htotal : (nums.toList.map UInt16.toNat).sum ≤ 256) (hc : c.Ok nums)
    {env : ParseEnv} (hsends : env.state.sends = true) {b : Buf} {r : ParseRet × Control × List Buf}
    (h : c.pofParseMsgFromController env b = some r) :
    ∃ said, c.answers env (readMessage b).1 (readMessage b).2 = some (r.1, r.2.1, said) ∧
      Conveys r.2.2 said := by
  unfold pofParseMsgFromController at h
  split_ifs at h
  obtain ⟨q, hq, rfl⟩ := Option.map_eq_some_iff.1 h
  have hrel := handle_answers htotal hc hsends (readMessage b).1 (o := ⟨[], c.upwardXid⟩) rfl (requestOf b)
  rw [show c.handle env (readMessage b).1 ⟨[], c.upwardXid⟩ (requestOf b) = some q from hq] at hrel
  cases ha : c.answers env (readMessage b).1 (requestOf b) with
  | none =>
      rw [ha] at hrel
      cases hrel
  | some a =>
      rw [ha] at hrel
      cases hrel with
      | some hrel =>
          obtain ⟨hret, hnext, msgs, hqueue, hconveys⟩ := hrel
          refine ⟨a.2.2, ?_, ?_⟩
          · rw [show c.answers env (readMessage b).1 (readMessage b).2 = some a from ha]
            exact congrArg some (Prod.ext hret.symm (Prod.ext hnext.symm rfl))
          · rw [show q.2.2.queue = msgs from hqueue]
            exact hconveys

/-- **The switch can be asked again after every event**, and what it has queued is what it answers. -/
theorem Ok.step (htotal : (nums.toList.map UInt16.toNat).sum ≤ 256) (hc : c.Ok nums) {e : SwitchEvent Buf}
    (hpromised : c.Promised e) {c' : Control} {msgs : List Buf} (h : byteSwitch.step c e = some (c', msgs)) :
    c'.Ok nums ∧ ∃ said, answerSwitch.step c (e.map readMessage) = some (c', said) ∧ Conveys msgs said := by
  cases e with
  | message env b =>
      obtain ⟨hsends, hserves⟩ := hpromised
      obtain ⟨r, hr, hpair⟩ := Option.map_eq_some_iff.1 h
      obtain ⟨rfl, rfl⟩ := Prod.mk.inj hpair
      obtain ⟨said, hanswers, hconveys⟩ := pofParseMsgFromController_answers htotal hc hsends hr
      exact ⟨hc.answers hserves hanswers, said, congrArg (Option.map Prod.snd) hanswers, hconveys⟩
  | packet env slot portId bytes fuel upwardXid =>
      obtain ⟨c₁, hforward, hpair⟩ := Option.map_eq_some_iff.1 h
      obtain ⟨rfl, rfl⟩ := Prod.mk.inj hpair
      exact ⟨hc.forward hforward, [], congrArg (Option.map fun c => (c, [])) hforward, Conveys.nil⟩
  | clear =>
      cases h
      exact ⟨hc.clear, [], rfl, Conveys.nil⟩

/-- The state at start-up. -/
theorem ok_start {param : LrConfig} (hnums : param.tableNumMaxEachType = nums.toList)
    (ports : List (Hmap PortInfo)) (bootId devId upwardXid : UInt32) :
    (start param ports bootId devId upwardXid).Ok nums := by
  constructor
  · intro lr hlr
    obtain ⟨i, hi, rfl⟩ := List.mem_mapIdx.1 hlr
    refine ⟨CodableRun.init _, ?_⟩
    rw [pofLocalresourceInit, poflrDisableAllPort_frame LocalResource.tableNumMaxEachType _ fun _ _ => rfl]
    exact hnums
  · unfold start
    simp only
    cases (pofdpSlotInit param ports).getLast? <;> rfl

end Control

/-- A channel in which messages are sent, on a host whose memory is cleared. -/
def runningEnv : ParseEnv where
  state := .run
  alloc i := (2 * i + 1, 2 * i + 2)
  mem _ := []
  msgBuf _ := []
  unreturned _ := .ok ()
  portNum _ := 0
  portRest _ := ⟨[], [], 0⟩
  version := cString "1.4.0"
  datapath := openEnv

/-- Counter `1` is added. -/
def addCounter : Buf := [4, 31, 0, 32, 0, 0, 0, 7, 0, 0, 0, 0, 0, 0, 0, 1] ++ List.replicate 16 0

/-- Counter `1` is asked for. -/
def askCounter : Buf := [4, 32, 0, 32, 0, 0, 0, 8, 0, 0, 0, 0, 0, 0, 0, 1] ++ List.replicate 16 0

/-- A packet without bytes, and one action, which is not known. -/
def badPacketOut : Buf :=
  [4, 14, 1, 56, 0, 0, 0, 9] ++ [0, 0, 0, 0, 0, 0, 0, 0, 1, 0, 0, 0, 0, 0, 0, 0] ++ [0, 200] ++
    List.replicate 286 0

/-- A new connection, on which a counter is added and asked for, and a packet is sent. -/
def threeMessages : List (SwitchEvent Buf) :=
  [.clear, .message runningEnv addCounter, .message runningEnv askCounter, .message runningEnv badPacketOut]

/-- The state of a switch with one slot. -/
def oneSlotSwitch : Control := Control.start smallConfig [Hmap.create 1] 0 5 2

theorem serves_addCounter {c : Control}
    (hfresh : ∀ p ∈ c.slots.zipIdx, (LrOp.counterInit 1 (runningEnv.alloc p.2).1).Fresh p.1) :
    c.Serves runningEnv (requestOf addCounter) := by
  have hmod : requestOf addCounter = .mod (.counterMod 0 1) := rfl
  have hcall : (ModMsg.counterMod 0 1).call = some fun a => .counterInit 1 a.1 := rfl
  intro msg hmsg
  rw [hmod] at hmsg
  obtain rfl := Request.mod.inj hmsg
  refine ⟨fun call hcall' a => ?_, ModMsg.fresh_of_slots hcall hfresh⟩
  obtain rfl := Option.some.inj (hcall.symm.trans hcall')
  trivial

/-- Nothing is stored for a request of another kind. -/
theorem serves_of_ne {c : Control} {env : ParseEnv} {req : Request} (h : ∀ msg, req ≠ .mod msg) :
    c.Serves env req := fun msg hmsg => absurd hmsg (h msg)

theorem promised_threeMessages : byteSwitch.Along Control.Promised oneSlotSwitch threeMessages := by
  have hask : requestOf askCounter = .counterRequest 1 := rfl
  have hpacket : ∃ msg, requestOf badPacketOut = .packetOut msg := ⟨_, rfl⟩
  refine ⟨trivial, fun c _ hc => ⟨⟨rfl, serves_addCounter ?_⟩, fun _ _ _ => ⟨⟨rfl, serves_of_ne ?_⟩,
    fun _ _ _ => ⟨⟨rfl, serves_of_ne ?_⟩, fun _ _ _ => trivial⟩⟩⟩⟩
  · cases hc
    decide +kernel
  · rw [hask]
    exact fun _ => Request.noConfusion
  · obtain ⟨msg, hpacket⟩ := hpacket
    rw [hpacket]
    exact fun _ => Request.noConfusion

end PofSwitch
