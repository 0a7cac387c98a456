/-
**What packets add to the counters.**

A packet increases the counter of an entry when `GOTO_TABLE` or `GOTO_DIRECT_TABLE` finds the entry,
the counter of a group when a `GROUP` action enters it, and the counter a `COUNTER` action names.  The
first two add the packet length that the metadata holds at that moment, the last adds no bytes.  The
increments are made in four places of two interpreters; here they are collected along the turns of a
run into one list of charges, and the counters at its end are computed from that list.

Main definitions:

* `PofSwitch.DpCharge`, `PofSwitch.turnCharges` — what one turn is charged for;
* `PofSwitch.DpCharges`, `PofSwitch.Tally` — the charges of a packet and of a sequence of packets;
* `PofSwitch.charged` — a local resource after a list of charges;
* `PofSwitch.CountersPresent` — every counter that is named exists;
* `PofSwitch.SwitchRun` — local resources reached by requests and packets in any order.

Main results:

* `PofSwitch.lr_dpTurn` — a turn changes the local resource by what it is charged for;
* `PofSwitch.counters_grow` — **packets add to the counters exactly what they are charged for.**
-/

import PofSwitch.GroupChain
import PofSwitch.LrStore

set_option relaxedAutoImplicit false
set_option autoImplicit false

namespace PofSwitch

open Buf Prog HmapNode

/-! ### Charges -/

/-- What increases a counter: the match of an entry, the entry into a group, or a `COUNTER` action;
with the packet length in the metadata. -/
inductive DpCharge
  | tableMatch (entry : EntryInfo) (len : UInt16)
  | group (group : GroupInfo) (len : UInt16)
  | counter (counterId : UInt32)
deriving DecidableEq, Repr

namespace DpCharge

/-- The counter that is named; `0` names none. -/
def counterId : DpCharge → UInt32
  | tableMatch entry _ => entry.counterId
  | group g _ => g.counterId
  | counter id => id

/-- The bytes that are counted. -/
def bytes : DpCharge → UInt16
  | tableMatch _ len => len
  | group _ len => len
  | counter _ => 0

/-- The charge is to the counter `id`. -/
def names (id : UInt32) (charge : DpCharge) : Bool := charge.counterId = id ∧ id ≠ 0

end DpCharge

/-- How often a counter is named. -/
def timesNamed (id : UInt32) (cs : List DpCharge) : ℕ := cs.countP (DpCharge.names id)

/-- The bytes counted where a counter is named. -/
def bytesNamed (id : UInt32) (cs : List DpCharge) : ℕ :=
  ((cs.filter (DpCharge.names id)).map fun charge => charge.bytes.toNat).sum

/-- A counter after a list of charges. -/
def CounterInfo.charged (cs : List DpCharge) (c : CounterInfo) : CounterInfo :=
  { c with
    value := c.value + UInt64.ofNat (timesNamed c.id cs)
    byteValue := c.byteValue + UInt64.ofNat (bytesNamed c.id cs) }

/-- A local resource after a list of charges. -/
def charged (cs : List DpCharge) (lr : LocalResource) : LocalResource :=
  { lr with counterMap := { lr.counterMap with nodes := lr.counterMap.nodes.map (CounterInfo.charged cs) } }

theorem CounterInfo.charged_eq_self {cs : List DpCharge} {c : CounterInfo}
    (h : ∀ charge ∈ cs, charge.names c.id = false) : c.charged cs = c := by
  have htimes : timesNamed c.id cs = 0 :=
    List.countP_eq_zero.2 fun charge hcharge => by rw [h charge hcharge]; exact Bool.false_ne_true
  have hbytes : bytesNamed c.id cs = 0 := by
    rw [bytesNamed, List.filter_eq_nil_iff.2 fun charge hcharge => by
      rw [h charge hcharge]; exact Bool.false_ne_true]
    rfl
  rw [CounterInfo.charged, htimes, hbytes]
  simp

theorem charged_eq_self {cs : List DpCharge} {lr : LocalResource}
    (h : ∀ c ∈ lr.counterMap.nodes, ∀ charge ∈ cs, charge.names c.id = false) : charged cs lr = lr := by
  have hmap : lr.counterMap.nodes.map (CounterInfo.charged cs) = lr.counterMap.nodes := by
    conv_rhs => rw [← List.map_id lr.counterMap.nodes]
    exact List.map_congr_left fun c hc => CounterInfo.charged_eq_self (h c hc)
  rw [charged, hmap]

theorem charged_nil (lr : LocalResource) : charged [] lr = lr :=
  charged_eq_self fun _ _ _ h => by cases h

theorem CounterInfo.charged_append (cs cs' : List DpCharge) (c : CounterInfo) :
    (c.charged cs).charged cs' = c.charged (cs ++ cs') := by
  simp only [CounterInfo.charged, timesNamed, bytesNamed, List.countP_append, List.filter_append,
    List.map_append, List.sum_append, UInt64.ofNat_add, UInt64.add_assoc]

theorem charged_append (cs cs' : List DpCharge) (lr : LocalResource) :
    charged cs' (charged cs lr) = charged (cs ++ cs') lr := by
  have hmap : (lr.counterMap.nodes.map (CounterInfo.charged cs)).map (CounterInfo.charged cs') =
      lr.counterMap.nodes.map (CounterInfo.charged (cs ++ cs')) := by
    rw [List.map_map]
    exact List.map_congr_left fun c _ => CounterInfo.charged_append cs cs' c
  simp only [charged, hmap]

/-! ### Counters that exist -/

/-- The identifier names no counter or one that exists. -/
def CounterPresent (lr : LocalResource) (id : UInt32) : Prop :=
  id = 0 ∨ id < lr.counterNumMax ∧ (poflrGetCounterWithID id lr).isSome = true

/-- The `COUNTER` actions of a list name counters that exist. -/
def ActionsPresent (lr : LocalResource) (l : List PofAction) : Prop :=
  ∀ action ∈ l, ActionType.ofCode action.type.toNat = some .counter →
    CounterPresent lr (word action.actionData 0)

/-- The counters that an entry names, itself or in its actions, exist. -/
structure EntryPresent (lr : LocalResource) (entry : EntryInfo) : Prop where
  counter : CounterPresent lr entry.counterId
  actions : ∀ ins ∈ entry.instruction, InstructionType.ofCode ins.type.toNat = some .applyActions →
    ActionsPresent lr
      ((applyActionsList ins.instructionData).take (ins.instructionData.rd 0).toNat)

/-- Every counter that an entry, a group or a `COUNTER` action names exists. -/
structure CountersPresent (lr : LocalResource) : Prop where
  entries : ∀ table ∈ lr.tableIdMap.nodes, ∀ entry ∈ table.entryMap.nodes, EntryPresent lr entry
  groups : ∀ group ∈ lr.groupMap.nodes, CounterPresent lr group.counterId ∧
    ActionsPresent lr (group.action.take group.actionNumber.toNat)

instance (lr : LocalResource) (id : UInt32) : Decidable (CounterPresent lr id) :=
  inferInstanceAs (Decidable (_ ∨ _))

instance (lr : LocalResource) (l : List PofAction) : Decidable (ActionsPresent lr l) :=
  inferInstanceAs (Decidable (∀ _ ∈ _, _))

instance (lr : LocalResource) (entry : EntryInfo) : Decidable (EntryPresent lr entry) :=
  decidable_of_iff (_ ∧ ∀ ins ∈ entry.instruction, _)
    ⟨fun h => ⟨h.1, h.2⟩, fun h => ⟨h.counter, h.actions⟩⟩

instance (lr : LocalResource) : Decidable (CountersPresent lr) :=
  decidable_of_iff ((∀ table ∈ lr.tableIdMap.nodes, ∀ entry ∈ table.entryMap.nodes, EntryPresent lr entry) ∧
      ∀ group ∈ lr.groupMap.nodes, _)
    ⟨fun h => ⟨h.1, h.2⟩, fun h => ⟨h.entries, h.groups⟩⟩

section Present

variable {lr : LocalResource} {cs : List DpCharge}

theorem poflrGetCounterWithID_charged (id : UInt32) :
    poflrGetCounterWithID id (charged cs lr) = (poflrGetCounterWithID id lr).map (CounterInfo.charged cs) := by
  unfold poflrGetCounterWithID Hmap.nodeGetWithHash charged
  rw [List.find?_map]
  rfl

theorem counterPresent_charged (id : UInt32) :
    CounterPresent (charged cs lr) id ↔ CounterPresent lr id := by
  unfold CounterPresent
  rw [poflrGetCounterWithID_charged, Option.isSome_map]
  exact Iff.rfl

theorem actionsPresent_charged {l : List PofAction} :
    ActionsPresent (charged cs lr) l ↔ ActionsPresent lr l := by
  simp only [ActionsPresent, counterPresent_charged]

theorem EntryPresent.charged {entry : EntryInfo} (h : EntryPresent lr entry) :
    EntryPresent (charged cs lr) entry where
  counter := (counterPresent_charged _).2 h.counter
  actions := fun ins hins htype => actionsPresent_charged.2 (h.actions ins hins htype)

theorem CountersPresent.charged (h : CountersPresent lr) : CountersPresent (charged cs lr) where
  entries := fun table htable entry hentry => (h.entries table htable entry hentry).charged
  groups := fun group hgroup =>
    ⟨(counterPresent_charged _).2 (h.groups group hgroup).1,
      actionsPresent_charged.2 (h.groups group hgroup).2⟩

/-- The stores of a local resource are found by address and hash, which charges leave alone. -/
theorem StoreOk.charged (h : StoreOk lr) : StoreOk (charged cs lr) := by
  have hmap : ∀ {β : Type} (part : CounterInfo → β), (∀ c, part (CounterInfo.charged cs c) = part c) →
      (lr.counterMap.nodes.map (CounterInfo.charged cs)).map part = lr.counterMap.nodes.map part := by
    intro β part hpart
    rw [List.map_map]
    exact List.map_congr_left fun c _ => hpart c
  refine { h with counters := ⟨⟨h.counters.wf.mask_eq, ?_, ?_⟩, ?_, ?_⟩, counter_hash := ?_ }
  · exact h.counters.wf.n_eq.trans (by rw [PofSwitch.charged, List.length_map])
  · exact (hmap addr fun _ => rfl) ▸ h.counters.wf.nodup
  · exact (hmap HmapNode.hash fun _ => rfl) ▸ h.counters.nodup_hash
  · intro c hc
    obtain ⟨b, hb, rfl⟩ := List.mem_map.1 hc
    exact h.counters.hash_lt b hb
  · intro c hc
    obtain ⟨b, hb, rfl⟩ := List.mem_map.1 hc
    exact h.counter_hash b hb

/-- **A counter that exists is increased by what is charged to it.** -/
theorem poflrCounterIncreace_charged (charge : DpCharge) (h : StoreOk lr)
    (hc : CounterPresent lr charge.counterId) :
    poflrCounterIncreace charge.counterId charge.bytes lr = some (.ok (), charged [charge] lr) := by
  by_cases hzero : charge.counterId = 0
  · have hnone : charged [charge] lr = lr := by
      refine charged_eq_self fun c _ x hx => ?_
      rw [List.mem_singleton.1 hx, DpCharge.names, decide_eq_false_iff_not]
      exact fun ⟨hid, hne⟩ => hne (hid.symm.trans hzero)
    rw [poflrCounterIncreace, if_pos hzero, hnone]
  · obtain ⟨hlt, hsome⟩ := hc.resolve_left hzero
    obtain ⟨counter, hget⟩ := Option.isSome_iff_exists.1 hsome
    obtain ⟨hmem, hcounter⟩ := h.counter_of_get hget
    rw [poflrCounterIncreace, if_neg hzero, if_neg (UInt32.not_le.2 hlt), hget, Option.map_some]
    congr 2
    simp only [charged, Hmap.modify]
    congr 2
    refine List.map_congr_left fun c hcmem => ?_
    have hiff : addr c = counter.addr ↔ c.id = charge.counterId := by
      rw [← hcounter]
      exact h.counter_addr_eq_iff hcmem hmem
    by_cases hid : c.id = charge.counterId
    · have hnames : charge.names c.id = true := by
        rw [DpCharge.names, hid, decide_eq_true_eq]
        exact ⟨rfl, hzero⟩
      rw [if_pos (hiff.2 hid)]
      simp [CounterInfo.charged, timesNamed, bytesNamed, hnames]
    · have hnames : charge.names c.id = false := by
        rw [DpCharge.names, decide_eq_false_iff_not]
        exact fun hn => hid hn.1.symm
      rw [if_neg (fun haddr => hid (hiff.1 haddr))]
      exact (CounterInfo.charged_eq_self fun x hx => by rw [List.mem_singleton.1 hx, hnames]).symm

end Present

/-! ### What an instruction does to the counters -/

/-- What the turns of the loop over instructions depend on. -/
def DpState.scene (s : DpState) : (Buf × LocalResource) × Cursor := ((s.dpp.metadata, s.lr), s.cursor)

/-- The entry is in a table. -/
def StoredEntry (lr : LocalResource) (entry : EntryInfo) : Prop :=
  ∃ table ∈ lr.tableIdMap.nodes, entry ∈ table.entryMap.nodes

section Instructions

variable {env : DpEnv} {data : Buf} {s t : DpState} {r : Except Halt Unit}

theorem scene_movePacketBufOffset (d : ℤ) : Frame DpState.scene (movePacketBufOffset d) :=
  Frame.prod (Frame.get_bind fun _ => (frame_failIf _ _ _).bind fun _ => Frame.modify fun _ => rfl)
    (frame_cursor (frame_movePacketBufOffset d))

theorem scene_setTable (ID : UInt8) : Frame DpState.scene (setTable ID) :=
  Frame.prod ((held_setTable ID).comp Prod.snd) (frame_cursor (frame_setTable ID))

theorem relLen_eq_of_scene (h : t.scene = s.scene) : t.dpp.relLen = s.dpp.relLen := by
  have hmeta : t.dpp.metadata = s.dpp.metadata := congrArg (fun x => x.1.1) h
  rw [DpPacket.relLen, DpPacket.relLen, hmeta]

theorem lr_eq_of_scene (h : t.scene = s.scene) : t.lr = s.lr := congrArg (fun x => x.1.2) h

theorem ins_eq_of_scene (h : t.scene = s.scene) : t.dpp.ins = s.dpp.ins := congrArg (fun x => x.2.ins) h

theorem poflrGetTableWithID_mem {ID : UInt8} {lr : LocalResource} {table : TableInfo}
    (h : poflrGetTableWithID ID lr = some table) : table ∈ lr.tableIdMap.nodes :=
  List.mem_of_find?_eq_some h

theorem entryAt_mem {table : TableInfo} {ptr : EntryPtr} {entry : EntryInfo}
    (h : entryAt table ptr = some (some entry)) : entry ∈ table.entryMap.nodes := by
  cases ptr with
  | unset => cases h
  | null => cases h
  | ptr p =>
      obtain ⟨e, he, heq⟩ := Option.map_eq_some_iff.1 h
      cases heq
      exact List.mem_of_find?_eq_some he

/-- A miss leaves the counters and the cursor alone. -/
theorem miss_frame (env : DpEnv) : Frame (fun s : DpState => (s.lr, s.cursor)) (do
    onError (pofdpEntryNomatch env) fun _ s =>
      { s with dpp := { s.dpp with packetDone := true }, trace := s.trace ++ [.missed] }
    modifyDpp fun dpp => { dpp with packetDone := true }
    emit .missed) := by
  refine Frame.bind ?_ fun _ => Frame.bind (Frame.modify fun _ => rfl) fun _ => Frame.modify fun _ => rfl
  refine Frame.onError ?_ fun _ _ => rfl
  exact Frame.prod (Frame.lr_of_held (held_pofdpEntryNomatch env)) (frame_pofdpEntryNomatch env)

/-- The match of an entry: its counter is increased and the cursor is set to it. -/
structure EntryMatched (s t : DpState) (entry : EntryInfo) (ret : Ret) : Prop where
  stored : StoredEntry s.lr entry
  increased : poflrCounterIncreace entry.counterId s.dpp.relLen s.lr = some (ret, t.lr)
  flowEntry : t.dpp.flowEntry = some entry
  entry_eq : ret = .ok () → t.dpp.ins.entry = some entry

/-- What a lookup does when it has found an entry, up to the order in which it sets the cursor and looks at
the answer of the counter. -/
theorem matched_cases {entry : EntryInfo} {f : Ret → Dp Unit} {u v : DpState} (hstored : StoredEntry s.lr entry)
    (hu : u.scene = s.scene) (h : exec (counterIncreace entry.counterId u.dpp.relLen >>= f) v = (r, t))
    (hv : v.lr = u.lr)
    (hf : ∀ ret lr', exec (f ret) { v with lr := lr' } = (r, t) → t.lr = lr' ∧
      t.dpp.flowEntry = some entry ∧ (ret = .ok () → t.dpp.ins.entry = some entry) ∧
      (r = .ok () ↔ ret = .ok ())) :
    (t.lr = s.lr ∧ ∃ e, r = .error e) ∨
      ∃ ret, EntryMatched s t entry ret ∧ (r = .ok () ↔ ret = .ok ()) := by
  rcases exec_counterIncreace_cases h with ⟨_, hr, rfl⟩ | ⟨ret, lr', hinc, h⟩
  · exact Or.inl ⟨hv.trans (lr_eq_of_scene hu), _, hr⟩
  · obtain ⟨rfl, hentry, hins, hret⟩ := hf ret lr' h
    rw [relLen_eq_of_scene hu, hv, lr_eq_of_scene hu] at hinc
    exact Or.inr ⟨ret, ⟨hstored, hinc, hentry, hins⟩, hret⟩

/-- What `execute_GOTO_TABLE` does to the counters. -/
theorem executeGotoTable_cases (h : exec (executeGotoTable env data) s = (r, t)) :
    (t.lr = s.lr ∧ (r = .ok () → t.dpp.flowEntry = none ∧ t.dpp.ins = s.dpp.ins)) ∨
      ∃ entry ret, EntryMatched s t entry ret ∧ (r = .ok () ↔ ret = .ok ()) := by
  have hfail : ∀ {e : Halt} {u : DpState}, r = .error e → u.scene = s.scene → t.lr = u.lr →
      (t.lr = s.lr ∧ (r = .ok () → t.dpp.flowEntry = none ∧ t.dpp.ins = s.dpp.ins)) := by
    rintro e u rfl hu ht
    exact ⟨ht.trans (lr_eq_of_scene hu), fun hr => by cases hr⟩
  rw [executeGotoTable] at h
  rcases (scene_movePacketBufOffset _).bind_cases h with ⟨e, hr, hu⟩ | ⟨_, s₁, _, h₁, h⟩
  · exact Or.inl (hfail hr hu rfl)
  rcases (scene_setTable _).bind_cases h with ⟨e, hr, hu⟩ | ⟨_, s₂, _, h₂, h⟩
  · exact Or.inl (hfail hr (hu.trans h₁) rfl)
  have hs₂ := h₂.trans h₁
  rw [exec_bind_ok exec_get] at h
  rcases exec_liftOption_cases h with ⟨_, hr, rfl⟩ | ⟨table, htable, h⟩
  · exact Or.inl (hfail hr hs₂ rfl)
  rcases exec_liftOption_cases h with ⟨_, hr, rfl⟩ | ⟨ptr, _, h⟩
  · exact Or.inl (hfail hr hs₂ rfl)
  rcases exec_liftOption_cases h with ⟨_, hr, rfl⟩ | ⟨found, hfound, h⟩
  · exact Or.inl (hfail hr hs₂ rfl)
  rw [modifyDpp, exec_bind_ok (exec_modify _)] at h
  cases found with
  | none =>
      have hframe := miss_frame env { s₂ with dpp := { s₂.dpp with flowEntry := none } }
      rw [h] at hframe
      refine Or.inl ⟨(congrArg Prod.fst hframe).trans (lr_eq_of_scene hs₂), fun _ => ⟨?_, ?_⟩⟩
      · exact congrArg (fun x => x.2.flowEntry) hframe
      · exact (congrArg (fun x => x.2.ins) hframe).trans (ins_eq_of_scene hs₂)
  | some entry =>
      rw [lr_eq_of_scene hs₂] at htable
      have hstored : StoredEntry s.lr entry := ⟨table, poflrGetTableWithID_mem htable, entryAt_mem hfound⟩
      -- the cursor is set before the answer is looked at
      have hrest : ∀ ret lr', exec (do modifyDpp (gotoEntry entry); checkRetvalue ret)
          { s₂ with dpp := { s₂.dpp with flowEntry := some entry }, lr := lr' } = (r, t) → t.lr = lr' ∧
            t.dpp.flowEntry = some entry ∧ (ret = .ok () → t.dpp.ins.entry = some entry) ∧
            (r = .ok () ↔ ret = .ok ()) := by
        rintro (e | u) lr' hrest
        · cases hrest
          exact ⟨rfl, rfl, fun hret => (by cases hret), by simp⟩
        · cases hrest
          exact ⟨rfl, rfl, fun _ => rfl, by simp⟩
      rcases matched_cases hstored hs₂ h rfl hrest with ⟨hlr, e, hr⟩ | ⟨ret, hmatched⟩
      · exact Or.inl ⟨hlr, fun hok => by rw [hr] at hok; cases hok⟩
      · exact Or.inr ⟨entry, ret, hmatched⟩

/-- What `execute_GOTO_DIRECT_TABLE` does to the counters. -/
theorem executeGotoDirectTable_cases (h : exec (executeGotoDirectTable data) s = (r, t)) :
    (t.lr = s.lr ∧ ∃ e, r = .error e) ∨
      ∃ entry ret, EntryMatched s t entry ret ∧ (r = .ok () ↔ ret = .ok ()) := by
  have hfail : ∀ {e : Halt} {u : DpState}, r = .error e → u.scene = s.scene → t.lr = u.lr →
      (t.lr = s.lr ∧ ∃ e, r = .error e) := by
    rintro e u rfl hu ht
    exact ⟨ht.trans (lr_eq_of_scene hu), e, rfl⟩
  rw [executeGotoDirectTable] at h
  rcases (scene_movePacketBufOffset _).bind_cases h with ⟨e, hr, hu⟩ | ⟨_, s₁, _, h₁, h⟩
  · exact Or.inl (hfail hr hu rfl)
  rcases (scene_setTable _).bind_cases h with ⟨e, hr, hu⟩ | ⟨_, s₂, _, h₂, h⟩
  · exact Or.inl (hfail hr (hu.trans h₁) rfl)
  rcases Frame.bind_cases (frame_pofdpGet32value _ _ _) h with ⟨e, hr, hu⟩ | ⟨index, s₃, _, h₃, h⟩
  · exact Or.inl (hfail hr (hu.trans (h₂.trans h₁)) rfl)
  have hs₃ : s₃.scene = s.scene := h₃.trans (h₂.trans h₁)
  rw [exec_bind_ok exec_get] at h
  rcases exec_liftOption_cases h with ⟨_, hr, rfl⟩ | ⟨table, htable, h⟩
  · exact Or.inl (hfail hr hs₃ rfl)
  rcases Frame.bind_cases (frame_failIf _ _ _) h with ⟨e, hr, hu⟩ | ⟨_, s₄, hif, _, h⟩
  · exact Or.inl (hfail hr (hu.trans hs₃) rfl)
  obtain rfl := Frame.same (frame_failIf _ _ _) hif
  rw [modifyDpp, exec_bind_ok (exec_modify _)] at h
  rcases exec_liftOption_cases h with ⟨_, hr, rfl⟩ | ⟨entry, hentry, h⟩
  · exact Or.inl (hfail hr hs₃ rfl)
  rw [lr_eq_of_scene hs₃] at htable
  have hstored : StoredEntry s.lr entry :=
    ⟨table, poflrGetTableWithID_mem htable, List.mem_of_find?_eq_some hentry⟩
  -- the answer is looked at before the cursor is set
  have hrest : ∀ ret lr', exec (do checkRetvalue ret; modifyDpp (gotoEntry entry))
      { s₄ with dpp := { s₄.dpp with flowEntry := poflrEntryLookupLinear index table }, lr := lr' } = (r, t) →
        t.lr = lr' ∧ t.dpp.flowEntry = some entry ∧ (ret = .ok () → t.dpp.ins.entry = some entry) ∧
        (r = .ok () ↔ ret = .ok ()) := by
    rintro (e | u) lr' hrest
    · cases hrest
      exact ⟨rfl, hentry, fun hret => (by cases hret), by simp⟩
    · cases hrest
      exact ⟨rfl, hentry, fun _ => rfl, by simp⟩
  rcases matched_cases hstored hs₃ h rfl hrest with herror | ⟨ret, hmatched⟩
  · exact Or.inl herror
  · exact Or.inr ⟨entry, ret, hmatched⟩

/-- The local resource and the entry under the cursor. -/
def DpState.place (s : DpState) : LocalResource × Option EntryInfo := (s.lr, s.dpp.ins.entry)

theorem place_instructionUpdate : Frame DpState.place instructionUpdate := by
  refine Frame.modify fun s => ?_
  dsimp only [nextInstruction]
  split <;> rfl

theorem lr_instructionWork (data : Buf) (type : InstructionType) :
    Frame DpState.lr (instructionWork data type) := by
  cases type with
  | meter =>
      exact Frame.get_bind fun _ => (Frame.liftOption _ _).bind fun _ => Frame.modify fun _ => rfl
  | writeMetadata => exact (extent_coverMetadata _ _ _).comp Prod.snd
  | writeMetadataFromPacket =>
      exact Frame.get_bind fun _ => (frame_failIf _ _ _).bind fun _ =>
        (extent_coverMetadata _ _ _).comp Prod.snd
  | calculateField =>
      exact (frame_get32valueFromField _).bind fun _ => (frame_pofdpGet32value _ _ _).bind fun _ =>
        (Frame.liftOption _ _).bind fun _ => (extent_pofdpWrite32valueToField _ _).comp Prod.snd
  | movePacketOffset =>
      refine (frame_pofdpGet32value _ _ _).bind fun _ => ?_
      split
      · exact (scene_movePacketBufOffset _).comp fun x => x.1.2
      · exact (scene_movePacketBufOffset _).comp fun x => x.1.2
  | gotoTable => exact Frame.throw _
  | writeActions => exact Frame.throw _
  | applyActions => exact Frame.throw _
  | clearActions => exact Frame.throw _
  | gotoDirectTable => exact Frame.throw _
  | conditionalJmp => exact Frame.throw _
  | experimenter => exact Frame.throw _

theorem place_executeConditionalJmp (data : Buf) : Frame DpState.place (executeConditionalJmp data) := by
  refine (frame_conditionalJmpTarget data).bind fun _ => Frame.get_bind fun _ => ?_
  split
  · exact (frame_failIf _ _ _).bind fun _ => Frame.modify fun _ => rfl
  · exact (frame_failIf _ _ _).bind fun _ => Frame.modify fun _ => rfl

/-- The instruction looks up an entry. -/
def InstructionType.looksUp : InstructionType → Bool
  | .gotoTable | .gotoDirectTable => true
  | _ => false

/-- Instructions that look up no entry leave the local resource and the entry alone. -/
theorem place_executeInstruction (env : DpEnv) {ins : PofInstruction}
    (h : ∀ type, InstructionType.ofCode ins.type.toNat = some type →
      type.looksUp = false ∧ type ≠ .applyActions) :
    Frame DpState.place (executeInstruction env (pure ()) ins) := by
  unfold executeInstruction
  cases htype : InstructionType.ofCode ins.type.toNat with
  | none => exact Frame.throw _
  | some type =>
      obtain ⟨hlook, happly⟩ := h type htype
      cases type with
      | gotoTable => cases hlook
      | gotoDirectTable => cases hlook
      | applyActions => exact absurd rfl happly
      | conditionalJmp => exact place_executeConditionalJmp _
      | _ =>
          refine Frame.bind (Frame.prod (lr_instructionWork _ _) ?_) fun _ => place_instructionUpdate
          exact (frame_cursor (frame_instructionWork _ _)).comp fun x => x.ins.entry

end Instructions

/-! ### Turns -/

/-- What a turn from `s` to `t` is charged for. -/
def turnCharges (l : DpLoop) (s t : DpState) : List DpCharge :=
  match l with
  | .ins =>
      match s.dpp.ins.read.bind fun ins => InstructionType.ofCode ins.type.toNat with
      | some .gotoTable | some .gotoDirectTable =>
          t.dpp.flowEntry.toList.map fun entry => .tableMatch entry s.dpp.relLen
      | _ => []
  | .act =>
      if s.HasAction then
        match s.dpp.act.head? with
        | none => []
        | some action =>
            match ActionType.ofCode action.type.toNat with
            | some .group =>
                (poflrGetGroupWithID (word action.actionData 0) s.lr).toList.map fun group =>
                  .group group s.dpp.relLen
            | some .counter => [.counter (word action.actionData 0)]
            | _ => []
      else []

/-- What the loops are about to do names counters that exist. -/
structure CursorPresent (l : DpLoop) (s : DpState) : Prop where
  entry : ∀ entry, s.dpp.ins.entry = some entry → EntryPresent s.lr entry
  actions : l = .act → ActionsPresent s.lr (s.dpp.act.take s.dpp.actNum.toNat)

/-- What is proved of a turn: a failure leaves the local resource alone, and success changes it by
what is charged. -/
def TurnCharged (l : DpLoop) (s : DpState) (r : Except Halt DpLoop) (t : DpState) : Prop :=
  (∃ e, r = .error e ∧ t.lr = s.lr) ∨
    ∃ l', r = .ok l' ∧ t.lr = charged (turnCharges l s t) s.lr ∧ CursorPresent l' t

section Turns

variable {env : DpEnv} {l : DpLoop} {s t : DpState} {r : Except Halt DpLoop}

/-- The instruction under the cursor. -/
theorem read_mem {ptr : InsPtr} {ins : PofInstruction} (h : ptr.read = some ins) :
    ins = firstIns ∨ ∃ entry, ptr.entry = some entry ∧ ins ∈ entry.instruction := by
  unfold InsPtr.read at h
  split_ifs at h
  cases hentry : ptr.entry with
  | none =>
      rw [hentry] at h
      exact Or.inl (List.mem_singleton.1 (List.mem_of_getElem? h))
  | some entry =>
      rw [hentry] at h
      exact Or.inr ⟨entry, rfl, List.mem_of_getElem? h⟩

/-- A match. -/
theorem turnCharged_of_matched (hstore : StoreOk s.lr) (hpres : CountersPresent s.lr)
    {entry : EntryInfo} {ret : Ret} {r' : Except Halt Unit} (h : EntryMatched s t entry ret)
    (hr : r' = .ok () ↔ ret = .ok ()) (hcharges : turnCharges .ins s t = [.tableMatch entry s.dpp.relLen]) :
    r' = .ok () ∧ t.lr = charged (turnCharges .ins s t) s.lr ∧ CursorPresent .ins t := by
  obtain ⟨table, htable, hentry⟩ := h.stored
  have hpresent := hpres.entries table htable entry hentry
  have hinc : poflrCounterIncreace entry.counterId s.dpp.relLen s.lr = some (.ok (), _) :=
    poflrCounterIncreace_charged (.tableMatch entry s.dpp.relLen) hstore hpresent.counter
  rw [h.increased] at hinc
  obtain ⟨rfl, hlr⟩ := Prod.mk.inj (Option.some.inj hinc)
  refine ⟨hr.2 rfl, by rw [hcharges]; exact hlr, ?_, fun hl => by cases hl⟩
  intro entry' hentry'
  rw [h.entry_eq rfl] at hentry'
  cases hentry'
  rw [hlr]
  exact hpresent.charged

theorem turnCharges_looksUp {ins : PofInstruction} {type : InstructionType}
    (hread : s.dpp.ins.read = some ins) (htype : InstructionType.ofCode ins.type.toNat = some type)
    (hlook : type.looksUp = true) : turnCharges .ins s t =
      t.dpp.flowEntry.toList.map fun entry => .tableMatch entry s.dpp.relLen := by
  rw [turnCharges, hread, Option.bind_some, htype]
  cases type with
  | gotoTable => rfl
  | gotoDirectTable => rfl
  | _ => cases hlook

theorem turnCharges_ins_nil {ins : PofInstruction} (hread : s.dpp.ins.read = some ins)
    (h : ∀ type, InstructionType.ofCode ins.type.toNat = some type → type.looksUp = false) :
    turnCharges .ins s t = [] := by
  rw [turnCharges, hread, Option.bind_some]
  cases htype : InstructionType.ofCode ins.type.toNat with
  | none => rfl
  | some type =>
      have hlook := h type htype
      cases type with
      | gotoTable => cases hlook
      | gotoDirectTable => cases hlook
      | _ => rfl

/-- An instruction that looks up an entry. -/
theorem turnCharged_lookup (hstore : StoreOk s.lr) (hpres : CountersPresent s.lr)
    (hcur : CursorPresent .ins s) {r' : Except Halt Unit}
    (hcharges : turnCharges .ins s t =
      t.dpp.flowEntry.toList.map fun entry => .tableMatch entry s.dpp.relLen)
    (h : (t.lr = s.lr ∧ (r' = .ok () → t.dpp.flowEntry = none ∧ t.dpp.ins = s.dpp.ins)) ∨
      ∃ entry ret, EntryMatched s t entry ret ∧ (r' = .ok () ↔ ret = .ok ())) :
    (∃ e, r' = .error e ∧ t.lr = s.lr) ∨
      (r' = .ok () ∧ t.lr = charged (turnCharges .ins s t) s.lr ∧ CursorPresent .ins t) := by
  rcases h with ⟨hlr, hok⟩ | ⟨entry, ret, hmatch, hr⟩
  · rcases r' with e | u
    · exact Or.inl ⟨e, rfl, hlr⟩
    · obtain ⟨hnone, hins⟩ := hok rfl
      refine Or.inr ⟨rfl, ?_, ?_, fun hl => by cases hl⟩
      · rw [hcharges, hnone]
        exact hlr.trans (charged_nil s.lr).symm
      · intro entry hentry
        rw [hins] at hentry
        rw [hlr]
        exact hcur.entry entry hentry
  · exact Or.inr (turnCharged_of_matched hstore hpres hmatch hr (by rw [hcharges, hmatch.flowEntry]; rfl))

/-- An instruction other than `APPLY_ACTIONS`. -/
theorem instruction_charged (hstore : StoreOk s.lr) (hpres : CountersPresent s.lr)
    (hcur : CursorPresent .ins s) {ins : PofInstruction} (hread : s.dpp.ins.read = some ins)
    (happly : InstructionType.ofCode ins.type.toNat ≠ some .applyActions) {r' : Except Halt Unit}
    (hx : exec (executeInstruction env (pure ()) ins) s = (r', t)) :
    (∃ e, r' = .error e ∧ t.lr = s.lr) ∨
      (r' = .ok () ∧ t.lr = charged (turnCharges .ins s t) s.lr ∧ CursorPresent .ins t) := by
  cases htype : InstructionType.ofCode ins.type.toNat with
  | none =>
      rw [executeInstruction, htype] at hx
      cases hx
      exact Or.inl ⟨_, rfl, rfl⟩
  | some type =>
      cases hlook : type.looksUp with
      | true =>
          refine turnCharged_lookup hstore hpres hcur (turnCharges_looksUp hread htype hlook) ?_
          rw [executeInstruction, htype] at hx
          cases type with
          | gotoTable => exact executeGotoTable_cases hx
          | gotoDirectTable =>
              rcases executeGotoDirectTable_cases hx with ⟨hlr, e, hr⟩ | hmatch
              · refine Or.inl ⟨hlr, ?_⟩
                rw [hr]
                exact fun hok => by cases hok
              · exact Or.inr hmatch
          | _ => cases hlook
      | false =>
          have hquiet : ∀ type, InstructionType.ofCode ins.type.toNat = some type →
              type.looksUp = false ∧ type ≠ .applyActions := by
            rintro type' htype'
            cases htype.symm.trans htype'
            exact ⟨hlook, fun heq => happly (heq ▸ htype)⟩
          have hplace := place_executeInstruction env hquiet s
          rw [hx] at hplace
          obtain ⟨hlr, hentry⟩ : t.lr = s.lr ∧ t.dpp.ins.entry = s.dpp.ins.entry :=
            Prod.mk.inj hplace
          rcases r' with e | u
          · exact Or.inl ⟨e, rfl, hlr⟩
          · refine Or.inr ⟨rfl, ?_, ?_, fun hl => by cases hl⟩
            · rw [turnCharges_ins_nil hread fun type htype => (hquiet type htype).1]
              exact hlr.trans (charged_nil s.lr).symm
            · rw [hlr, hentry]
              exact hcur.entry

/-- A turn of the loop over instructions. -/
theorem turnCharged_ins (hstore : StoreOk s.lr) (hpres : CountersPresent s.lr)
    (hcur : CursorPresent .ins s) (h : exec (dpTurn env .ins) s = (r, t)) : TurnCharged .ins s r t := by
  cases hread : s.dpp.ins.read with
  | none =>
      rw [exec_dpTurn_ins_none hread] at h
      cases h
      exact Or.inl ⟨_, rfl, rfl⟩
  | some ins =>
      by_cases happly : InstructionType.ofCode ins.type.toNat = some .applyActions
      · rw [exec_dpTurn_apply env hread happly] at h
        cases h
        refine Or.inr ⟨.act, rfl, ?_, hcur.entry, fun _ => ?_⟩
        · rw [turnCharges_ins_nil hread fun type htype => by cases happly.symm.trans htype; rfl]
          exact (charged_nil s.lr).symm
        · rcases read_mem hread with rfl | ⟨entry, hentry, hins⟩
          · cases happly
          · exact (hcur.entry entry hentry).actions ins hins happly
      · rw [exec_dpTurn_ins env hread happly] at h
        rcases hx : exec (executeInstruction env (pure ()) ins) s with ⟨r', t'⟩
        rcases instruction_charged hstore hpres hcur hread happly hx with
          ⟨e, rfl, hlr⟩ | ⟨rfl, hlr, hcur'⟩
        · rw [exec_bind_error hx] at h
          cases h
          exact Or.inl ⟨e, rfl, hlr⟩
        · rw [exec_bind_ok hx] at h
          cases h
          exact Or.inr ⟨.ins, rfl, hlr, hcur'⟩

/-- The actions that are left after `action_update` were left before. -/
theorem actionUpdate_left {s t : DpState} (hnum : 0 < s.dpp.actNum)
    (h : exec actionUpdate s = (.ok (), t)) : t.place = s.place ∧
      ∀ action ∈ t.dpp.act.take t.dpp.actNum.toNat, action ∈ s.dpp.act.take s.dpp.actNum.toNat := by
  rw [actionUpdate, modifyDpp, exec_modify] at h
  obtain ⟨n, hn⟩ : ∃ n, s.dpp.actNum.toNat = n + 1 :=
    Nat.exists_eq_succ_of_ne_zero (UInt8.lt_iff_toNat_lt.1 hnum).ne'
  have hpred : (s.dpp.actNum - 1).toNat = n := by
    rw [UInt8.toNat_sub_of_le _ _ (by rw [UInt8.le_iff_toNat_le, hn]; exact Nat.succ_le_succ n.zero_le), hn]
    rfl
  cases h
  dsimp only
  split_ifs with hlast
  · refine ⟨rfl, fun action hmem => ?_⟩
    have hzero : n = 0 := by
      rw [UInt8.lt_iff_toNat_lt, hpred] at hlast
      exact Nat.lt_one_iff.1 hlast
    dsimp only at hmem
    rw [hpred, hzero] at hmem
    cases hmem
  · refine ⟨rfl, fun action hmem => ?_⟩
    dsimp only at hmem
    rw [hpred] at hmem
    rw [hn]
    cases hl : s.dpp.act with
    | nil =>
        rw [hl] at hmem
        simp at hmem
    | cons b l =>
        rw [hl] at hmem
        exact List.mem_cons_of_mem b hmem

/-- The work of an action that is charged `cs`, and `action_update` after it. -/
theorem work_charged (hcur : CursorPresent .act s) (hs : s.HasAction) {data : Buf} {type : ActionType}
    {cs : List DpCharge} {u : DpState} (hwork : exec (actionWork env data type) s = (.ok (), u))
    (hlr : u.lr = charged cs s.lr) (h : exec actionUpdate u = (.ok (), t)) :
    t.lr = charged cs s.lr ∧ CursorPresent .act t := by
  have hacts := actions_actionWork env data type s
  rw [hwork] at hacts
  obtain ⟨hact, hnum⟩ : u.dpp.act = s.dpp.act ∧ u.dpp.actNum = s.dpp.actNum := Prod.mk.inj hacts
  have hcursor := frame_actionWork env data type s
  rw [hwork] at hcursor
  have hentry : u.dpp.ins.entry = s.dpp.ins.entry := congrArg (fun x => x.ins.entry) hcursor
  obtain ⟨hplace, hleft⟩ := actionUpdate_left (hnum ▸ hs.2) h
  obtain ⟨htlr, htentry⟩ : t.lr = u.lr ∧ t.dpp.ins.entry = u.dpp.ins.entry := Prod.mk.inj hplace
  refine ⟨htlr.trans hlr, ?_, fun _ action hmem => ?_⟩
  · rw [htlr, hlr, htentry, hentry]
    exact fun entry he => (hcur.entry entry he).charged
  · rw [htlr, hlr]
    have hmem' := hleft action hmem
    rw [hact, hnum] at hmem'
    exact actionsPresent_charged.2 (hcur.actions rfl) action hmem'

/-- An action that is neither `GROUP` nor `COUNTER` is not charged. -/
theorem turnCharges_act_nil {action : PofAction} {type : ActionType}
    (ha : s.dpp.act.head? = some action) (htype : ActionType.ofCode action.type.toNat = some type)
    (hgroup : type ≠ .group) (hcounter : type ≠ .counter) : turnCharges .act s t = [] := by
  rw [turnCharges]
  split_ifs
  · rw [ha]
    dsimp only
    rw [htype]
    cases type with
    | group => exact absurd rfl hgroup
    | counter => exact absurd rfl hcounter
    | _ => rfl
  · rfl

/-- A `GROUP` action. -/
theorem group_charged (hstore : StoreOk s.lr) (hpres : CountersPresent s.lr)
    (hcur : CursorPresent .act s) {data : Buf} {r' : Except Halt Unit}
    (h : exec (executeGroup (pure ()) data) s = (r', t)) :
    (∃ e, r' = .error e ∧ t.lr = s.lr) ∨
      (r' = .ok () ∧ t.lr = charged ((poflrGetGroupWithID (word data 0) s.lr).toList.map
        fun group => .group group s.dpp.relLen) s.lr ∧ CursorPresent .act t) := by
  cases hfound : poflrGetGroupWithID (word data 0) s.lr with
  | none =>
      rw [executeGroup, exec_bind_ok exec_get, hfound] at h
      cases h
      exact Or.inl ⟨_, rfl, rfl⟩
  | some group =>
      obtain ⟨hcounter, hactions⟩ := hpres.groups group (List.mem_of_find?_eq_some hfound)
      have hinc : poflrCounterIncreace group.counterId s.dpp.relLen s.lr =
          some (.ok (), charged [.group group s.dpp.relLen] s.lr) :=
        poflrCounterIncreace_charged (.group group s.dpp.relLen) hstore hcounter
      rw [exec_executeGroup_ok.2 ⟨group, _, hfound, hinc, rfl⟩] at h
      cases h
      exact Or.inr ⟨rfl, rfl, fun entry he => (hcur.entry entry he).charged,
        fun _ => actionsPresent_charged.2 hactions⟩

/-- An action. -/
theorem action_charged (hstore : StoreOk s.lr) (hpres : CountersPresent s.lr)
    (hcur : CursorPresent .act s) (hs : s.HasAction) {r' : Except Halt Unit}
    (hx : exec (actTurn env) s = (r', t)) :
    (∃ e, r' = .error e ∧ t.lr = s.lr) ∨
      (r' = .ok () ∧ t.lr = charged (turnCharges .act s t) s.lr ∧ CursorPresent .act t) := by
  cases ha : s.dpp.act.head? with
  | none =>
      rw [exec_actTurn_none ha] at hx
      cases hx
      exact Or.inl ⟨_, rfl, rfl⟩
  | some action =>
      rw [exec_actTurn ha] at hx
      cases htype : ActionType.ofCode action.type.toNat with
      | none =>
          rw [executeAction, htype] at hx
          cases hx
          exact Or.inl ⟨_, rfl, rfl⟩
      | some type =>
          by_cases hgroup : type = .group
          · subst hgroup
            rw [executeAction, htype] at hx
            have hcharges : turnCharges .act s t =
                (poflrGetGroupWithID (word action.actionData 0) s.lr).toList.map
                  fun group => .group group s.dpp.relLen := by
              simp only [turnCharges, if_pos hs, ha, htype]
            rw [hcharges]
            exact group_charged hstore hpres hcur hx
          rw [executeAction_some _ htype hgroup] at hx
          by_cases hcounter : type = .counter
          · subst hcounter
            have hmem : action ∈ s.dpp.act.take s.dpp.actNum.toNat := by
              obtain ⟨l, hl⟩ := List.head?_eq_some_iff.1 ha
              obtain ⟨n, hn⟩ := Nat.exists_eq_succ_of_ne_zero (UInt8.lt_iff_toNat_lt.1 hs.2).ne'
              rw [hl, hn]
              exact List.mem_cons_self
            have hinc : poflrCounterIncreace (word action.actionData 0) 0 s.lr = some (.ok (), _) :=
              poflrCounterIncreace_charged (.counter (word action.actionData 0)) hstore
                (hcur.actions rfl action hmem htype)
            have hwork : exec (actionWork env action.actionData .counter) s = (.ok (), _) :=
              exec_bind_ok (exec_counterIncreace hinc)
            have hcharges : turnCharges .act s t = [.counter (word action.actionData 0)] := by
              simp only [turnCharges, if_pos hs, ha, htype]
            rw [exec_bind_ok hwork] at hx
            cases hx
            rw [hcharges]
            exact Or.inr ⟨rfl, work_charged hcur hs hwork rfl rfl⟩
          · have hlr := lr_actionWork env action.actionData hcounter s
            rcases hwork : exec (actionWork env action.actionData type) s with ⟨e | u, s₁⟩
            · rw [hwork] at hlr
              rw [exec_bind_error hwork] at hx
              cases hx
              exact Or.inl ⟨e, rfl, hlr⟩
            · rw [hwork] at hlr
              rw [exec_bind_ok hwork] at hx
              cases hx
              rw [turnCharges_act_nil ha htype hgroup hcounter]
              exact Or.inr ⟨rfl, work_charged hcur hs hwork (hlr.trans (charged_nil _).symm) rfl⟩

/-- A turn of the loop over actions. -/
theorem turnCharged_act (hstore : StoreOk s.lr) (hpres : CountersPresent s.lr)
    (hcur : CursorPresent .act s) (h : exec (dpTurn env .act) s = (r, t)) : TurnCharged .act s r t := by
  by_cases hs : s.HasAction
  · rw [exec_dpTurn_act env hs] at h
    rcases hx : exec (actTurn env) s with ⟨r', t'⟩
    rcases action_charged hstore hpres hcur hs hx with ⟨e, rfl, hlr⟩ | ⟨rfl, hlr, hcur'⟩
    · rw [exec_bind_error hx] at h
      cases h
      exact Or.inl ⟨e, rfl, hlr⟩
    · rw [exec_bind_ok hx] at h
      cases h
      exact Or.inr ⟨.act, rfl, hlr, hcur'⟩
  · rw [exec_dpTurn_act_done hs] at h
    cases h
    have hplace : DpState.place { s with dpp := nextInstruction s.dpp } = s.place := place_instructionUpdate s
    obtain ⟨hlr, hentry⟩ := Prod.mk.inj hplace
    refine Or.inr ⟨.ins, rfl, ?_, ?_, fun hl => by cases hl⟩
    · rw [turnCharges, if_neg hs]
      exact (charged_nil s.lr).symm
    · intro entry he
      rw [hentry] at he
      exact hcur.entry entry he

/-- **A turn changes the local resource by what it is charged for.** -/
theorem lr_dpTurn (hstore : StoreOk s.lr) (hpres : CountersPresent s.lr) (hcur : CursorPresent l s)
    (h : exec (dpTurn env l) s = (r, t)) : TurnCharged l s r t := by
  cases l with
  | ins => exact turnCharged_ins hstore hpres hcur h
  | act => exact turnCharged_act hstore hpres hcur h

end Turns

/-! ### Packets -/

/-- The charges of a sequence of turns, with the state it ends in. -/
inductive DpCharges (env : DpEnv) : DpLoop → DpState → List DpCharge → DpState → Prop
  | done {s : DpState} : s.dpp.packetDone = true → DpCharges env .ins s [] s
  | fail {l : DpLoop} {s t : DpState} {h : Halt} : s.Goes l →
      exec (dpTurn env l) s = (.error h, t) → DpCharges env l s [] t
  | turn {l l' : DpLoop} {s s' t : DpState} {cs : List DpCharge} : s.Goes l →
      exec (dpTurn env l) s = (.ok l', s') → DpCharges env l' s' cs t →
      DpCharges env l s (turnCharges l s s' ++ cs) t

theorem exists_dpCharges {env : DpEnv} {l : DpLoop} {s t : DpState} {r : Except Halt Unit}
    (h : DpEnds env l s r t) : ∃ cs, DpCharges env l s cs t := by
  induction h with
  | done hdone => exact ⟨[], DpCharges.done hdone⟩
  | fail hgo hturn => exact ⟨[], DpCharges.fail hgo hturn⟩
  | turn hgo hturn _ ih =>
      obtain ⟨cs, hcs⟩ := ih
      exact ⟨_, DpCharges.turn hgo hturn hcs⟩

/-- **A packet changes the local resource by what its turns are charged for.** -/
theorem lr_dpCharges {env : DpEnv} {l : DpLoop} {s t : DpState} {cs : List DpCharge}
    (h : DpCharges env l s cs t) (hstore : StoreOk s.lr) (hpres : CountersPresent s.lr)
    (hcur : CursorPresent l s) : t.lr = charged cs s.lr := by
  induction h with
  | done _ => exact (charged_nil _).symm
  | fail _ hturn =>
      rcases lr_dpTurn hstore hpres hcur hturn with ⟨_, _, hlr⟩ | ⟨_, hok, _⟩
      · exact hlr.trans (charged_nil _).symm
      · cases hok
  | turn _ hturn _ ih =>
      rcases lr_dpTurn hstore hpres hcur hturn with ⟨_, herr, _⟩ | ⟨l', hok, hlr, hcur'⟩
      · cases herr
      · cases hok
        have hrest := ih (hlr ▸ hstore.charged) (hlr ▸ hpres.charged) hcur'
        rw [hrest, hlr, charged_append]

/-- A packet that comes in: the environment it is processed in, its port, its bytes, and the fuel. -/
structure Arrival where
  env : DpEnv
  portId : UInt8
  packet : Buf
  fuel : ℕ

/-- The state in which the loops begin with the packet. -/
def Arrival.start (a : Arrival) (lr : LocalResource) : DpState := pofdpForward a.portId a.packet lr

/-- The processing of the packet. -/
def Arrival.process (a : Arrival) (lr : LocalResource) : Except Halt Unit × DpState :=
  exec (pofdpInstructionExecute a.env a.fuel) (a.start lr)

/-- The packets are processed one after the other, and the processing of each ends. -/
inductive PacketRun : LocalResource → List Arrival → LocalResource → Prop
  | nil (lr : LocalResource) : PacketRun lr [] lr
  | packet {a : Arrival} {rest : List Arrival} {lr lr' : LocalResource} {r : Except Halt Unit} {t : DpState} :
      a.process lr = (r, t) → r ≠ .error .fuel → PacketRun t.lr rest lr' → PacketRun lr (a :: rest) lr'

/-- What is charged while the packets are processed one after the other. -/
inductive Tally : LocalResource → List Arrival → List DpCharge → LocalResource → Prop
  | nil (lr : LocalResource) : Tally lr [] [] lr
  | packet {a : Arrival} {rest : List Arrival} {lr lr' : LocalResource} {r : Except Halt Unit} {t t' : DpState}
      {cs cs' : List DpCharge} :
      a.process lr = (r, t) → r ≠ .error .fuel → DpCharges a.env .ins (a.start lr) cs t' → Recorded t' t →
      Tally t.lr rest cs' lr' → Tally lr (a :: rest) (cs ++ cs') lr'

theorem cursorPresent_pofdpForward (portId : UInt8) (packet : Buf) (lr : LocalResource) :
    CursorPresent .ins (pofdpForward portId packet lr) where
  entry := fun _ h => by cases h
  actions := fun h => by cases h

/-- Every sequence of packets is charged for something. -/
theorem PacketRun.exists_tally {lr lr' : LocalResource} {arrivals : List Arrival}
    (h : PacketRun lr arrivals lr') : ∃ cs, Tally lr arrivals cs lr' := by
  induction h with
  | nil lr => exact ⟨[], Tally.nil lr⟩
  | packet hexec hr _ ih =>
      obtain ⟨t', hends, hrec⟩ := dpEnds_of_execute hexec hr
      obtain ⟨cs, hcs⟩ := exists_dpCharges hends
      obtain ⟨cs', htally⟩ := ih
      exact ⟨cs ++ cs', Tally.packet hexec hr hcs hrec htally⟩

/-- What a sequence of packets adds is what it is charged for. -/
theorem Tally.lr_eq {lr lr' : LocalResource} {arrivals : List Arrival} {cs : List DpCharge}
    (h : Tally lr arrivals cs lr') (hstore : StoreOk lr) (hpres : CountersPresent lr) :
    lr' = charged cs lr := by
  induction h with
  | nil lr => exact (charged_nil lr).symm
  | @packet a rest lr lr' r t t' cs cs' _ _ hcs hrec _ ih =>
      have hlr : t.lr = charged cs lr :=
        hrec.lr_eq.trans (lr_dpCharges hcs hstore hpres (cursorPresent_pofdpForward a.portId a.packet lr))
      have hrest := ih (hlr ▸ hstore.charged) (hlr ▸ hpres.charged)
      rw [hrest, hlr, charged_append]

/-! ### Local resources in use -/

/-- The local resource is as before, or a counter has been increased. -/
def CounterStep (lr lr' : LocalResource) : Prop :=
  lr' = lr ∨ ∃ c n ret, poflrCounterIncreace c n lr = some (ret, lr')

theorem StoreOk.counterStep {lr lr' : LocalResource} (h : StoreOk lr) (hlr : CounterStep lr lr') :
    StoreOk lr' := by
  rcases hlr with rfl | ⟨c, n, ret, hinc⟩
  · exact h
  unfold poflrCounterIncreace at hinc
  split_ifs at hinc
  · cases hinc
    exact h
  · cases hinc
    exact h
  · obtain ⟨counter, _, heq⟩ := Option.map_eq_some_iff.1 hinc
    cases heq
    refine { h with counters := h.counters.modify fun _ _ _ => ⟨rfl, rfl⟩, counter_hash := ?_ }
    intro k hk
    obtain ⟨b, hb, rfl⟩ := List.mem_map.1 hk
    split_ifs
    · exact h.counter_hash b hb
    · exact h.counter_hash b hb

theorem counterStep_actTurn {env : DpEnv} {s t : DpState} {r : Except Halt Unit}
    (h : exec (actTurn env) s = (r, t)) : CounterStep s.lr t.lr := by
  cases ha : s.dpp.act.head? with
  | none =>
      rw [exec_actTurn_none ha] at h
      cases h
      exact Or.inl rfl
  | some action =>
      rw [exec_actTurn ha] at h
      cases htype : ActionType.ofCode action.type.toNat with
      | none =>
          rw [executeAction, htype] at h
          cases h
          exact Or.inl rfl
      | some type =>
          by_cases hgroup : type = .group
          · subst hgroup
            rw [executeAction, htype] at h
            dsimp only at h
            rw [executeGroup, exec_bind_ok exec_get] at h
            rcases exec_liftOption_cases h with ⟨_, _, rfl⟩ | ⟨group, _, h⟩
            · exact Or.inl rfl
            rcases exec_counterIncreace_cases h with ⟨_, _, rfl⟩ | ⟨ret, lr, hinc, h⟩
            · exact Or.inl rfl
            · rcases ret with e | u
              · cases h
                exact Or.inr ⟨_, _, _, hinc⟩
              · cases h
                exact Or.inr ⟨_, _, _, hinc⟩
          rw [executeAction_some _ htype hgroup] at h
          have hupdate : Frame DpState.lr actionUpdate := Frame.lr_of_held held_actionUpdate
          by_cases hcounter : type = .counter
          · subst hcounter
            dsimp only [actionWork] at h
            rw [counterAction, bind_assoc] at h
            rcases exec_counterIncreace_cases h with ⟨_, _, rfl⟩ | ⟨ret, lr, hinc, h⟩
            · exact Or.inl rfl
            · have hframe := (Frame.bind (frame_checkRetvalue ret) fun _ => hupdate) { s with lr := lr }
              rw [h] at hframe
              refine Or.inr ⟨_, _, ret, hinc.trans ?_⟩
              rw [show t.lr = lr from hframe]
          · have hframe := ((lr_actionWork env action.actionData hcounter).bind fun _ => hupdate) s
            rw [h] at hframe
            exact Or.inl hframe

theorem counterStep_executeInstruction {env : DpEnv} {s t : DpState} {ins : PofInstruction}
    {r : Except Halt Unit} (happly : InstructionType.ofCode ins.type.toNat ≠ some .applyActions)
    (h : exec (executeInstruction env (pure ()) ins) s = (r, t)) : CounterStep s.lr t.lr := by
  by_cases hquiet : ∀ type, InstructionType.ofCode ins.type.toNat = some type →
      type.looksUp = false ∧ type ≠ .applyActions
  · have hplace := place_executeInstruction env hquiet s
    rw [h] at hplace
    exact Or.inl (Prod.mk.inj hplace).1
  · push Not at hquiet
    obtain ⟨type, htype, hlook⟩ := hquiet
    rw [executeInstruction, htype] at h
    cases type with
    | gotoTable =>
        rcases executeGotoTable_cases h with ⟨hlr, _⟩ | ⟨entry, ret, hmatch, _⟩
        · exact Or.inl hlr
        · exact Or.inr ⟨_, _, _, hmatch.increased⟩
    | gotoDirectTable =>
        rcases executeGotoDirectTable_cases h with ⟨hlr, _⟩ | ⟨entry, ret, hmatch, _⟩
        · exact Or.inl hlr
        · exact Or.inr ⟨_, _, _, hmatch.increased⟩
    | applyActions => exact absurd htype happly
    | _ => cases hlook rfl

theorem counterStep_dpTurn {env : DpEnv} {l : DpLoop} {s t : DpState} {r : Except Halt DpLoop}
    (h : exec (dpTurn env l) s = (r, t)) : CounterStep s.lr t.lr := by
  cases l with
  | act =>
      by_cases hs : s.HasAction
      · rw [exec_dpTurn_act env hs] at h
        rcases hx : exec (actTurn env) s with ⟨e | u, t'⟩
        · rw [exec_bind_error hx] at h
          cases h
          exact counterStep_actTurn hx
        · rw [exec_bind_ok hx] at h
          cases h
          exact counterStep_actTurn hx
      · rw [exec_dpTurn_act_done hs] at h
        cases h
        exact Or.inl rfl
  | ins =>
      cases hread : s.dpp.ins.read with
      | none =>
          rw [exec_dpTurn_ins_none hread] at h
          cases h
          exact Or.inl rfl
      | some ins =>
          by_cases happly : InstructionType.ofCode ins.type.toNat = some .applyActions
          · rw [exec_dpTurn_apply env hread happly] at h
            cases h
            exact Or.inl rfl
          · rw [exec_dpTurn_ins env hread happly] at h
            rcases hx : exec (executeInstruction env (pure ()) ins) s with ⟨e | u, t'⟩
            · rw [exec_bind_error hx] at h
              cases h
              exact counterStep_executeInstruction happly hx
            · rw [exec_bind_ok hx] at h
              cases h
              exact counterStep_executeInstruction happly hx

theorem StoreOk.dpEnds {env : DpEnv} {l : DpLoop} {s t : DpState} {r : Except Halt Unit}
    (h : DpEnds env l s r t) (hstore : StoreOk s.lr) : StoreOk t.lr := by
  induction h with
  | done _ => exact hstore
  | fail _ hturn => exact hstore.counterStep (counterStep_dpTurn hturn)
  | turn _ hturn _ ih => exact ih (hstore.counterStep (counterStep_dpTurn hturn))

/-- What the increments of counters keep is kept by a packet. -/
theorem packet_keeps {β : Type} (part : LocalResource → β)
    (hpart : ∀ lr lr', CounterStep lr lr' → part lr' = part lr) {env : DpEnv} {portId : UInt8} {packet : Buf}
    {fuel : ℕ} {lr : LocalResource} {r : Except Halt Unit} {t : DpState}
    (hexec : exec (pofdpInstructionExecute env fuel) (pofdpForward portId packet lr) = (r, t))
    (hr : r ≠ .error .fuel) : part t.lr = part lr := by
  have hends : ∀ {l : DpLoop} {s t : DpState} {r : Except Halt Unit}, DpEnds env l s r t →
      part t.lr = part s.lr := by
    intro l s t r h
    induction h with
    | done _ => rfl
    | fail _ hturn => exact hpart _ _ (counterStep_dpTurn hturn)
    | turn _ hturn _ ih => exact ih.trans (hpart _ _ (counterStep_dpTurn hturn))
  obtain ⟨t', hrun, hrec⟩ := dpEnds_of_execute hexec hr
  rw [hrec.lr_eq]
  exact hends hrun

/-- **Packets change the counters of a local resource only.** -/
theorem frame_packet {β : Type} (part : LocalResource → β)
    (hpart : ∀ lr counters, part { lr with counterMap := counters } = part lr) {env : DpEnv}
    {portId : UInt8} {packet : Buf} {fuel : ℕ} {lr : LocalResource} {r : Except Halt Unit} {t : DpState}
    (hexec : exec (pofdpInstructionExecute env fuel) (pofdpForward portId packet lr) = (r, t))
    (hr : r ≠ .error .fuel) : part t.lr = part lr := by
  refine packet_keeps part ?_ hexec hr
  rintro lr lr' (rfl | ⟨c, n, ret, hinc⟩)
  · rfl
  · exact poflrCounterIncreace_frame part hpart hinc

/-- The local resources that requests and packets lead to, in any order. -/
inductive SwitchRun : LocalResource → Prop
  | init (cfg : LrConfig) : SwitchRun (pofLocalresourceInit cfg)
  | request {lr lr' : LocalResource} {op : LrOp} {ret : Ret} : SwitchRun lr → op.Fresh lr →
      op.exec lr = some (ret, lr') → SwitchRun lr'
  | packet {env : DpEnv} {portId : UInt8} {packet : Buf} {fuel : ℕ} {lr : LocalResource}
      {r : Except Halt Unit} {t : DpState} : SwitchRun lr →
      exec (pofdpInstructionExecute env fuel) (pofdpForward portId packet lr) = (r, t) →
      r ≠ .error .fuel → SwitchRun t.lr

theorem SwitchRun.of_reachable {lr : LocalResource} (h : LrReachable lr) : SwitchRun lr := by
  induction h with
  | init cfg _ => exact SwitchRun.init cfg
  | step _ hfresh hexec _ ih => exact ih.request hfresh hexec

theorem storeOk_of_switchRun {lr : LocalResource} (h : SwitchRun lr) : StoreOk lr := by
  induction h with
  | init cfg => exact storeOk_init cfg
  | request _ hfresh hexec ih => exact ih.step hfresh hexec
  | packet _ hexec hr ih =>
      obtain ⟨t', hends, hrec⟩ := dpEnds_of_execute hexec hr
      rw [hrec.lr_eq]
      exact StoreOk.dpEnds hends ih

/-- **Where every counter that is named exists, a sequence of packets adds to the counters exactly
what the packets are charged for: one for each match, `GROUP` action and `COUNTER` action that names
the counter, and for the first two the packet length in the metadata.** -/
theorem counters_grow {lr lr' : LocalResource} {arrivals : List Arrival} (h : SwitchRun lr)
    (hpres : CountersPresent lr) (hrun : PacketRun lr arrivals lr') :
    (∃ cs, Tally lr arrivals cs lr') ∧ ∀ cs, Tally lr arrivals cs lr' → lr' = charged cs lr :=
  ⟨hrun.exists_tally, fun _ htally => htally.lr_eq (storeOk_of_switchRun h) hpres⟩

/-- An `APPLY_ACTIONS` with one `COUNTER` action, for counter `2`. -/
def applyCounter : PofInstruction where
  type := 4
  len := 60
  instructionData := [1, 0, 0, 0, 0, 0, 0, 0, 10, 0, 48, 0, 2] ++ Buf.zeros 283

/-- An entry for every packet that counts it with counter `2`, after the counter has been set up. -/
def countedResource : LocalResource := (LrOp.counterInit 2 5).next (matchAll 1 [applyCounter])

/-- A packet of three bytes. -/
def smallArrival : Arrival := ⟨openEnv, 1, [7, 8, 9], 6⟩

/-- The local resource after two packets of three bytes. -/
def countedTwice : LocalResource :=
  (smallArrival.process (smallArrival.process countedResource).2.lr).2.lr

theorem switchRun_countedResource : SwitchRun countedResource :=
  SwitchRun.of_reachable <|
    (matchAll_reachable 1 [applyCounter]).next (.counterInit 2 5) (by decide +kernel) rfl trivial

/-- Two packets, each with one `COUNTER` action. -/
theorem counters_grow_twice : (poflrGetCounterWithID 2 countedTwice).map CounterInfo.value = some 2 ∧
    (∃ cs, Tally countedResource [smallArrival, smallArrival] cs countedTwice) ∧
      ∀ cs, Tally countedResource [smallArrival, smallArrival] cs countedTwice →
        countedTwice = charged cs countedResource := by
  refine ⟨by decide +kernel, counters_grow switchRun_countedResource (by decide +kernel) ?_⟩
  refine PacketRun.packet (r := .ok ()) (Prod.ext ?_ rfl) (by simp) ?_
  · decide +kernel
  · refine PacketRun.packet (r := .ok ()) (Prod.ext ?_ rfl) (by simp) (PacketRun.nil _)
    decide +kernel

/-! ### One increase -/

/-- `poflr_counter_increace` succeeds and adds to the one counter; a missing counter counts as zero. -/
def CountsUp (c : UInt32) (n : UInt16) (lr : LocalResource) : Prop :=
  ∃ lr' counter, poflrCounterIncreace c n lr = some (.ok (), lr') ∧
    poflrGetCounterWithID c lr' = some counter ∧
    counter.value = ((poflrGetCounterWithID c lr).elim 0 CounterInfo.value) + 1 ∧
    counter.byteValue = ((poflrGetCounterWithID c lr).elim 0 CounterInfo.byteValue) + n.toUInt64 ∧
    ∀ c', c' ≠ c → poflrGetCounterWithID c' lr' = poflrGetCounterWithID c' lr

/-- A counter after an increase by `n` bytes. -/
def CounterInfo.increased (n : UInt16) (c : CounterInfo) : CounterInfo :=
  { c with value := c.value + 1, byteValue := c.byteValue + n.toUInt64 }

/-- A counter that exists is counted up, and no other. -/
theorem StoreOk.countsUp {lr : LocalResource} (h : StoreOk lr) {c : UInt32} (n : UInt16) {counter : CounterInfo}
    (hpos : c ≠ 0) (hlt : c < lr.counterNumMax) (hget : poflrGetCounterWithID c lr = some counter) :
    CountsUp c n lr := by
  obtain ⟨hmem, hhash⟩ := Hmap.nodeGetWithHash_eq_some hget
  have hinc : poflrCounterIncreace c n lr = some (.ok (), { lr with
      counterMap := lr.counterMap.modify counter.addr (CounterInfo.increased n) }) := by
    rw [poflrCounterIncreace, if_neg hpos, if_neg (UInt32.not_le.2 hlt), hget, Option.map_some]
    rfl
  have hkept : ∀ a ∈ lr.counterMap.nodes, addr a = counter.addr →
      HmapNode.hash (CounterInfo.increased n a) = HmapNode.hash a := fun _ _ _ => rfl
  refine ⟨_, counter.increased n, hinc, ?_, ?_, ?_, fun c' hc' => ?_⟩
  · have hlookup := Hmap.nodeGetWithHash_modify (k := hmapHashForLinear c) hkept
    rw [show lr.counterMap.nodeGetWithHash (hmapHashForLinear c) = some counter from hget, Option.map_some,
      if_pos (show addr counter = counter.addr from rfl)] at hlookup
    exact hlookup
  · rw [hget]
    rfl
  · rw [hget]
    rfl
  · exact Hmap.nodeGetWithHash_modify_ne h.counters hmem rfl fun heq => hc' (heq.trans hhash)

/-- **In every local resource that requests and packets lead to, a counter within the limit is counted up
exactly when it exists.**  A missing one is set up, but the pointer that is followed then is the `NULL`
found before. -/
theorem countsUp_iff {lr : LocalResource} (h : SwitchRun lr) {c : UInt32} (n : UInt16) (hpos : 1 ≤ c)
    (hlt : c < lr.counterNumMax) : CountsUp c n lr ↔ (poflrGetCounterWithID c lr).isSome = true := by
  have hne : c ≠ 0 := by
    rintro rfl
    exact absurd hpos (by decide)
  constructor
  · rintro ⟨lr', counter, hinc, -⟩
    rw [poflrCounterIncreace, if_neg hne, if_neg (UInt32.not_le.2 hlt)] at hinc
    obtain ⟨old, hget, -⟩ := Option.map_eq_some_iff.1 hinc
    rw [hget]
    rfl
  · intro hsome
    obtain ⟨counter, hget⟩ := Option.isSome_iff_exists.1 hsome
    exact (storeOk_of_switchRun h).countsUp n hne hlt hget

/-- Counter `2`, which has been set up. -/
theorem countsUp_present : CountsUp 2 100 countedResource :=
  (countsUp_iff switchRun_countedResource 100 (by decide) (by decide +kernel)).2 (by decide +kernel)

/-- Counter `1` of a switch that has just been started. -/
theorem countsUp_fails : SwitchRun (pofLocalresourceInit smallConfig) ∧
    1 < (pofLocalresourceInit smallConfig).counterNumMax ∧
    ¬ CountsUp 1 100 (pofLocalresourceInit smallConfig) := by
  refine ⟨SwitchRun.init smallConfig, by decide +kernel, ?_⟩
  rintro ⟨lr', counter, hinc, -⟩
  have hnone : poflrCounterIncreace 1 100 (pofLocalresourceInit smallConfig) = none := by decide +kernel
  rw [hnone] at hinc
  cases hinc

end PofSwitch
