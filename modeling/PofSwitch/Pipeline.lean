/-
**Every packet comes to its end.**

The instructions of the entries form a graph: an instruction is followed by the next one of its entry, a
`CONDITIONAL_JMP` by one before or behind it, and a `GOTO_TABLE` or `GOTO_DIRECT_TABLE` by the first
instruction of any entry of its table.  The interpreter goes along its edges.  Nothing in the switch keeps the
graph from having cycles, and on a cycle a packet may be processed for ever; but when every way along the
edges ends, and no chain of groups closes, every packet comes to its end.

A controller can see to that with every request by itself: entries only lead to tables with greater numbers,
and jumps go forward.  What is left is one loop that may not end, that of `pofbf_cover_bit` on a field shorter
than a byte that crosses into the next one.

Main definitions:

* `PofSwitch.InsPtr.Leads`, `PofSwitch.InsFlow` — the edges, and those between stored instructions;
* `PofSwitch.CoversShortAt` — the next turn covers a short field;
* `PofSwitch.SwitchPath`, `PofSwitch.GoesAhead` — runs with a condition on the requests, and requests that
  only lead on.

Main results:

* `PofSwitch.insStep_leads` — one turn of the loop goes along an edge, or ends the packet;
* `PofSwitch.ends_of_wellFounded` — **without endless ways in the graph every packet comes to its end;**
* `PofSwitch.wellFounded_of_ahead` — entries that lead on leave no endless way;
* `PofSwitch.packets_end_of_path` — **so every packet comes to its end after requests that only lead on.**
-/

import PofSwitch.CounterTotals
import PofSwitch.EntryLookup
import PofSwitch.GroupChain
import PofSwitch.InstructionCursor

set_option relaxedAutoImplicit false
set_option autoImplicit false

namespace PofSwitch

open Buf Prog Relation

/-! ### The graph of the instructions -/

/-- The `i`-th of the three jumps of a `CONDITIONAL_JMP` goes by `d` instructions.  A number that is found in
a field may be any. -/
def JumpsBy (data : Buf) (i : ℕ) (d : ℤ) : Prop :=
  ∃ n : UInt32, (data.rd (2 * i + 2) = 0 → n = word data (8 * i + 24)) ∧
    d = if data.rd (2 * i + 1) = 0 then (n.toNat : ℤ) else -n.toNat

/-- Where the instruction at a place can lead to. -/
def InsPtr.Leads (tables : Hmap TableInfo) (p q : InsPtr) : Prop :=
  ∃ ins, p.read = some ins ∧
    match InstructionType.ofCode ins.type.toNat with
    | none => False
    | some .gotoTable | some .gotoDirectTable =>
        ∃ table entry,
          tables.nodeGetWithHash (hmapHashForLinear (ins.instructionData.rd 0).toUInt32) = some table ∧
            entry ∈ table.entryMap.nodes ∧ q = ⟨some entry, 0⟩
    | some .conditionalJmp => ∃ i < 3, ∃ d, JumpsBy ins.instructionData i d ∧ q = ⟨p.entry, p.k + d⟩
    | some _ => q = ⟨p.entry, p.k + 1⟩

/-- A place before the first match, or in a stored entry. -/
def InsPtr.Stored (tables : Hmap TableInfo) (p : InsPtr) : Prop :=
  p.entry = none ∨ ∃ table ∈ tables.nodes, ∃ entry ∈ table.entryMap.nodes, p.entry = some entry

/-- The edges that begin at stored instructions. -/
def InsFlow (tables : Hmap TableInfo) (p q : InsPtr) : Prop := p.Stored tables ∧ p.Leads tables q

section Edges

variable {tables : Hmap TableInfo} {p q : InsPtr} {ins : PofInstruction}

theorem InsPtr.Leads.goto (hread : p.read = some ins)
    (htype : InstructionType.ofCode ins.type.toNat = some .gotoTable ∨
      InstructionType.ofCode ins.type.toNat = some .gotoDirectTable) {table : TableInfo} {entry : EntryInfo}
    (htable : tables.nodeGetWithHash (hmapHashForLinear (ins.instructionData.rd 0).toUInt32) = some table)
    (hentry : entry ∈ table.entryMap.nodes) : p.Leads tables ⟨some entry, 0⟩ := by
  refine ⟨ins, hread, ?_⟩
  rcases htype with htype | htype <;>
  · rw [htype]
    exact ⟨table, entry, htable, hentry, rfl⟩

theorem InsPtr.Leads.next (hread : p.read = some ins) {type : InstructionType}
    (htype : InstructionType.ofCode ins.type.toNat = some type) (hgoto : type ≠ .gotoTable)
    (hdirect : type ≠ .gotoDirectTable) (hjump : type ≠ .conditionalJmp) :
    p.Leads tables ⟨p.entry, p.k + 1⟩ := by
  refine ⟨ins, hread, ?_⟩
  rw [htype]
  cases type <;> first | rfl | contradiction

/-- An edge leads to a stored instruction. -/
theorem InsFlow.stored (h : InsFlow tables p q) : q.Stored tables := by
  obtain ⟨hp, ins, _, hleads⟩ := h
  have hsame : ∀ k : ℤ, q = ⟨p.entry, k⟩ → q.Stored tables := by
    rintro k rfl
    exact hp
  split at hleads
  · exact hleads.elim
  · obtain ⟨table, entry, htable, hentry, rfl⟩ := hleads
    exact Or.inr ⟨table, List.mem_of_find?_eq_some htable, entry, hentry, rfl⟩
  · obtain ⟨table, entry, htable, hentry, rfl⟩ := hleads
    exact Or.inr ⟨table, List.mem_of_find?_eq_some htable, entry, hentry, rfl⟩
  · obtain ⟨_, _, _, _, hq⟩ := hleads
    exact hsame _ hq
  · exact hsame _ hleads

end Edges

/-! ### A turn goes along an edge -/

/-- Before the turn: the tables, and where the cursor is. -/
def Stands (tables : Hmap TableInfo) (p : InsPtr) (c : Cursor) : Prop := c.tableIdMap = tables ∧ c.ins = p

/-- After the turn: the packet is done, or the cursor has gone along an edge. -/
structure Went (tables : Hmap TableInfo) (p : InsPtr) (s : DpState) : Prop where
  tables_eq : s.lr.tableIdMap = tables
  leads : s.dpp.packetDone = false → p.Leads tables s.dpp.ins

section Turns

variable {tables : Hmap TableInfo} {p : InsPtr} {ins : PofInstruction} {α : Type} {m : Dp α}

theorem meets_stands (h : Frame DpState.cursor m) :
    Meets (fun s => Stands tables p s.cursor) m (fun _ s => Stands tables p s.cursor) (fun _ _ => True) :=
  Meets.of_frame h (K := Stands tables p) (fun _ hs => hs) (fun _ _ hs => hs) fun _ _ _ => trivial

theorem meets_tables (h : Frame DpState.silent m) :
    Meets (fun s => s.lr.tableIdMap = tables) m (fun _ s => s.lr.tableIdMap = tables) (fun _ _ => True) :=
  Meets.of_frame (frame_cursor h) (K := fun c => c.tableIdMap = tables) (fun _ hs => hs) (fun _ _ hs => hs)
    fun _ _ _ => trivial

/-- The cursor is set to the first instruction of an entry that the instruction leads to. -/
theorem went_gotoEntry {entry : EntryInfo} (hleads : p.Leads tables ⟨some entry, 0⟩) :
    Meets (fun s => s.lr.tableIdMap = tables) (modifyDpp (gotoEntry entry)) (fun _ => Went tables p)
      (fun _ _ => True) :=
  Meets.modify fun _ hs => ⟨hs, fun _ => hleads⟩

theorem went_executeGotoTable (env : DpEnv) (hread : p.read = some ins)
    (htype : InstructionType.ofCode ins.type.toNat = some .gotoTable) :
    Meets (fun s => s.lr.tableIdMap = tables) (executeGotoTable env ins.instructionData)
      (fun _ => Went tables p) (fun _ _ => True) := by
  unfold executeGotoTable
  refine (meets_tables (frame_movePacketBufOffset _)).bind fun _ => ?_
  refine (meets_tables (frame_setTable _)).bind fun _ => Meets.get_bind fun s₀ hs₀ => ?_
  refine Meets.liftOption_bind (fun table htable => ?_) fun _ _ => trivial
  refine Meets.liftOption_bind (fun ptr _ => ?_) fun _ _ => trivial
  refine Meets.liftOption_bind (fun found hfound => ?_) fun _ _ => trivial
  refine Meets.bind (Q := fun _ s => s.lr.tableIdMap = tables)
    (Meets.modify fun s hs => by subst hs; exact hs₀) fun _ => ?_
  cases found with
  | none =>
      -- a miss ends the packet
      refine Meets.bind (Q := fun _ s => s.lr.tableIdMap = tables) ?_ fun _ =>
        Meets.bind (Q := fun _ s => s.lr.tableIdMap = tables ∧ s.dpp.packetDone = true)
          (Meets.modify fun _ hs => ⟨hs, rfl⟩) fun _ => Meets.modify fun _ hs => ⟨hs.1, ?_⟩
      · exact Meets.onError (E := fun _ _ => True) (Meets.of_frame (frame_pofdpEntryNomatch env)
          (K := fun c => c.tableIdMap = tables) (fun _ hs => hs) (fun _ _ hs => hs)
          fun _ _ _ => trivial) fun _ _ _ => trivial
      · intro hnot
        exact absurd (hs.2.symm.trans hnot) Bool.noConfusion
  | some entry =>
      have hentry : entry ∈ table.entryMap.nodes := by
        cases ptr with
        | unset => cases hfound
        | null => cases hfound
        | ptr a =>
            obtain ⟨e, he, heq⟩ := Option.map_eq_some_iff.1 hfound
            cases heq
            exact List.mem_of_find?_eq_some he
      have hleads : p.Leads tables ⟨some entry, 0⟩ :=
        InsPtr.Leads.goto hread (Or.inl htype) (hs₀ ▸ htable) hentry
      refine (meets_tables (frame_counterIncreace _ _)).bind fun ret => ?_
      refine (went_gotoEntry hleads).bind fun _ => ?_
      exact meets_same (frame_checkRetvalue ret)

theorem went_executeGotoDirectTable (hread : p.read = some ins)
    (htype : InstructionType.ofCode ins.type.toNat = some .gotoDirectTable) :
    Meets (fun s => s.lr.tableIdMap = tables) (executeGotoDirectTable ins.instructionData)
      (fun _ => Went tables p) (fun _ _ => True) := by
  unfold executeGotoDirectTable
  refine (meets_tables (frame_movePacketBufOffset _)).bind fun _ => ?_
  refine (meets_tables (frame_setTable _)).bind fun _ => ?_
  refine (meets_tables (frame_pofdpGet32value _ _ _)).bind fun index => Meets.get_bind fun s₀ hs₀ => ?_
  refine Meets.liftOption_bind (fun table htable => ?_) fun _ _ => trivial
  refine Meets.bind (meets_same (frame_failIf _ _ _)) fun _ => ?_
  refine Meets.bind (Q := fun _ s => s.lr.tableIdMap = tables)
    (Meets.modify fun s hs => by subst hs; exact hs₀) fun _ => ?_
  refine Meets.liftOption_bind (fun entry hentry => ?_) fun _ _ => trivial
  have hleads : p.Leads tables ⟨some entry, 0⟩ :=
    InsPtr.Leads.goto hread (Or.inr htype) (hs₀ ▸ htable) (List.mem_of_find?_eq_some hentry)
  refine (meets_tables (frame_counterIncreace _ _)).bind fun ret => ?_
  exact (meets_tables (frame_checkRetvalue ret)).bind fun _ => went_gotoEntry hleads

theorem went_instructionUpdate (hleads : p.Leads tables ⟨p.entry, p.k + 1⟩) :
    Meets (fun s => Stands tables p s.cursor) instructionUpdate (fun _ => Went tables p) (fun _ _ => True) := by
  refine Meets.modify fun s hs => ⟨hs.1, fun hdone => ?_⟩
  simp only [nextInstruction] at hdone ⊢
  split_ifs at hdone ⊢
  obtain rfl : s.dpp.ins = p := hs.2
  exact hleads

theorem went_executeApplyActions (env : DpEnv) (fuel : ℕ) (data : Buf)
    (hleads : p.Leads tables ⟨p.entry, p.k + 1⟩) :
    Meets (fun s => Stands tables p s.cursor) (executeApplyActions (pofdpActionExecute env fuel) data)
      (fun _ => Went tables p) (fun _ _ => True) :=
  Meets.bind (meets_stands (Frame.modify fun _ => rfl)) fun _ =>
    (meets_stands (frame_pofdpActionExecute env fuel)).bind fun _ => went_instructionUpdate hleads

/-- The jump that is taken. -/
theorem jumpsBy_of_target {data : Buf} {s s' : DpState} {direction : UInt8} {n : UInt32}
    (h : exec (conditionalJmpTarget data) s = (.ok (direction, n), s')) :
    ∃ i < 3, JumpsBy data i (if direction = 0 then (n.toNat : ℤ) else -n.toNat) := by
  -- an offset that stands in the instruction is that number
  have hoffset : ∀ {type : UInt8} {k : ℕ} {n : UInt32} {t t' : DpState},
      exec (pofdpGet32value type data k) t = (.ok n, t') → type = 0 → n = word data k := by
    intro type k n t t' hexec htype
    rw [pofdpGet32value, if_pos htype] at hexec
    cases hexec
    rfl
  have hpair : ∀ {i : ℕ} {t t' : DpState}, exec (pofdpGet32value (data.rd (2 * i + 2)) data (8 * i + 24) >>=
      fun offset => pure (data.rd (2 * i + 1), offset)) t = (.ok (direction, n), t') →
      JumpsBy data i (if direction = 0 then (n.toNat : ℤ) else -n.toNat) := by
    intro i t t' hexec
    rcases hget : exec (pofdpGet32value (data.rd (2 * i + 2)) data (8 * i + 24)) t with ⟨e | v, t₁⟩
    · rw [exec_bind_error hget] at hexec
      cases hexec
    · rw [exec_bind_ok hget] at hexec
      cases hexec
      exact ⟨n, hoffset hget, rfl⟩
  unfold conditionalJmpTarget at h
  rcases hfield : exec (get32valueFromField (matchAt data 8)) s with ⟨e | value1, s₁⟩
  · rw [exec_bind_error hfield] at h
    cases h
  rw [exec_bind_ok hfield] at h
  rcases hvalue : exec (pofdpGet32value (data.rd 0) data 16) s₁ with ⟨e | value2, s₂⟩
  · rw [exec_bind_error hvalue] at h
    cases h
  rw [exec_bind_ok hvalue] at h
  split_ifs at h
  · exact ⟨0, by decide, hpair h⟩
  · exact ⟨1, by decide, hpair h⟩
  · exact ⟨2, by decide, hpair h⟩

theorem went_executeConditionalJmp (hread : p.read = some ins)
    (htype : InstructionType.ofCode ins.type.toNat = some .conditionalJmp) :
    Meets (fun s => Stands tables p s.cursor) (executeConditionalJmp ins.instructionData)
      (fun _ => Went tables p) (fun _ _ => True) := by
  refine ⟨fun {s u s'} hs hr => ?_, fun _ _ => trivial⟩
  unfold executeConditionalJmp at hr
  rcases htarget : exec (conditionalJmpTarget ins.instructionData) s with ⟨e | ⟨direction, n⟩, s₁⟩
  · rw [exec_bind_error htarget] at hr
    cases hr
  rw [exec_bind_ok htarget] at hr
  obtain ⟨i, hi, hjumps⟩ := jumpsBy_of_target htarget
  obtain rfl := Frame.same (frame_conditionalJmpTarget ins.instructionData) htarget
  obtain ⟨htables, rfl⟩ := hs
  have hleads : s₁.dpp.ins.Leads tables
      ⟨s₁.dpp.ins.entry, s₁.dpp.ins.k + if direction = 0 then (n.toNat : ℤ) else -n.toNat⟩ := by
    refine ⟨ins, hread, ?_⟩
    rw [htype]
    exact ⟨i, hi, _, hjumps, rfl⟩
  change exec (insJump direction n) s₁ = _ at hr
  rw [insJump, exec_bind_ok exec_get] at hr
  split_ifs at hr hleads with hdir
  · simp only [failIf, check] at hr
    split_ifs at hr
    · cases hr
    · cases hr
      exact ⟨htables, fun _ => hleads⟩
  · simp only [failIf, check] at hr
    split_ifs at hr
    · cases hr
    · cases hr
      exact ⟨htables, fun _ => hleads⟩

/-- **A turn of the loop goes along an edge of the graph, or ends the packet.** -/
theorem insStep_leads {env : DpEnv} {fuel : ℕ} {s s' : DpState}
    (h : exec (insStep env fuel) s = (.ok (), s')) : Went s.lr.tableIdMap s.dpp.ins s' := by
  rw [insStep, exec_bind_ok exec_get] at h
  cases hread : s.dpp.ins.read with
  | none =>
      rw [hread] at h
      cases h
  | some ins =>
      rw [hread] at h
      change exec (logged (executeInstruction env (pofdpActionExecute env fuel) ins)) s = _ at h
      rw [logged, exec_onError] at h
      rcases hexec : exec (executeInstruction env (pofdpActionExecute env fuel) ins) s with ⟨e | u, s₁⟩
      · rw [hexec] at h
        cases h
      · rw [hexec] at h
        cases h
        have hstands : Stands s.lr.tableIdMap s.dpp.ins s.cursor := ⟨rfl, rfl⟩
        unfold executeInstruction at hexec
        split at hexec
        next => cases hexec
        next htype => exact (went_executeGotoTable env hread htype).ok rfl hexec
        next htype => exact (went_executeGotoDirectTable hread htype).ok rfl hexec
        next htype =>
          have hnext : s.dpp.ins.Leads s.lr.tableIdMap ⟨s.dpp.ins.entry, s.dpp.ins.k + 1⟩ :=
            InsPtr.Leads.next hread htype (by decide) (by decide) (by decide)
          exact (went_executeApplyActions env fuel _ hnext).ok hstands hexec
        next htype => exact (went_executeConditionalJmp hread htype).ok hstands hexec
        next type hgoto hdirect happly hjump htype =>
          have hnext : s.dpp.ins.Leads s.lr.tableIdMap ⟨s.dpp.ins.entry, s.dpp.ins.k + 1⟩ :=
            InsPtr.Leads.next hread htype hgoto hdirect hjump
          exact Meets.ok ((meets_stands (frame_cursor (frame_instructionWork _ _))).bind fun _ =>
            went_instructionUpdate hnext) hstands hexec

end Turns

/-! ### Turns that do not return -/

/-- The key of a table is assembled from a field shorter than a byte that crosses into the next one. -/
def KeyStraddles : List PofMatch → UInt16 → Prop
  | [], _ => False
  | m :: ms, offsetB => Straddles offsetB m.len ∨ KeyStraddles ms (offsetB + m.len)

theorem keyStraddles_of_hang {fields : List PofMatch} {offsetB : UInt16} (h : keyHalt fields offsetB = .hang) :
    KeyStraddles fields offsetB := by
  induction fields generalizing offsetB with
  | nil => cases h
  | cons m ms ih =>
      rw [keyHalt] at h
      split_ifs at h with hlong hstraddles
      · exact Or.inl hstraddles
      · exact Or.inr (ih h)

theorem keyHalt_ne_fuel (fields : List PofMatch) (offsetB : UInt16) : keyHalt fields offsetB ≠ .fuel := by
  induction fields generalizing offsetB with
  | nil => exact fun h => by cases h
  | cons m ms ih =>
      rw [keyHalt]
      split_ifs
      · exact fun h => by cases h
      · exact fun h => by cases h
      · exact ih _

/-- The instruction covers a field shorter than a byte that crosses into the next one. -/
def PofInstruction.CoversShort (tables : Hmap TableInfo) (ins : PofInstruction) : Prop :=
  let data := ins.instructionData
  match InstructionType.ofCode ins.type.toNat with
  | some .gotoTable =>
      ∃ table, tables.nodeGetWithHash (hmapHashForLinear (data.rd 0).toUInt32) = some table ∧
        KeyStraddles (tableFields table) 0
  | some .writeMetadata => Straddles (half data 0) (half data 2)
  | some .writeMetadataFromPacket => Straddles (half data 0) (half data 4)
  | some .calculateField => Straddles (matchAt data 8).offset (matchAt data 8).len
  | _ => False

/-- The next turn covers such a field. -/
def CoversShortAt : DpLoop → DpState → Prop
  | .ins, s => ∃ ins, s.dpp.ins.read = some ins ∧ ins.CoversShort s.lr.tableIdMap
  | .act, s => ∃ action, s.dpp.act.head? = some action ∧ CoversShort s action

namespace Avoids

variable {h : Halt} {s : DpState}

theorem liftOption_bind {α β : Type} {o : Option α} {e : Halt} {f : α → Dp β} (he : o = none → e ≠ h)
    (hf : ∀ a, o = some a → Avoids h (f a) s) : Avoids h (Prog.liftOption o e >>= f) s := by
  cases o with
  | none => exact (throw (he rfl)).bind_ok fun _ _ hr => by cases hr
  | some a => exact hf a rfl

/-- What is done about a failure does not change it. -/
theorem onError {m : Dp Unit} {g : Halt → DpState → DpState} (hm : Avoids h m s) :
    Avoids h (onError m g) s := by
  intro t ht
  rw [exec_onError] at ht
  rcases hr : exec m s with ⟨e | u, s'⟩
  · rw [hr] at ht
    cases ht
    exact hm s' hr
  · rw [hr] at ht
    cases ht

variable (hloop : h = .fuel ∨ h = .hang)
include hloop

theorem movePacketBufOffset (offset : ℤ) : Avoids h (movePacketBufOffset offset) s :=
  get_bind ((failIf hloop _ _ _).bind fun _ _ => modify _)

theorem setTable (ID : UInt8) : Avoids h (setTable ID) s :=
  get_bind ((liftError hloop).bind fun _ _ => modify _)

theorem pofdpSendPacketInToController (env : DpEnv) (reason : UInt32) (ID : UInt8) :
    Avoids h (pofdpSendPacketInToController env reason ID) s := by
  refine get_bind ((failIf hloop _ _ _).bind fun _ _ => ?_)
  split
  · exact modify _
  · exact pure _
  · exact throw (by rcases hloop with rfl | rfl <;> simp)

theorem pofdpEntryNomatch (env : DpEnv) : Avoids h (pofdpEntryNomatch env) s := by
  unfold PofSwitch.pofdpEntryNomatch
  split
  · exact get_bind (pofdpSendPacketInToController hloop env _ _)
  · exact pure _

theorem executeGotoTable (env : DpEnv) {data : Buf} (hshort : h = .hang → ∀ table,
      s.lr.tableIdMap.nodeGetWithHash (hmapHashForLinear (data.rd 0).toUInt32) = some table →
      ¬ KeyStraddles (tableFields table) 0) : Avoids h (executeGotoTable env data) s := by
  refine (movePacketBufOffset hloop _).bind_ok fun _ s₁ hmove => (setTable hloop _).bind_ok fun _ s₂ hset => ?_
  -- the tables are still the same
  have htables : s₂.lr.tableIdMap = s.lr.tableIdMap := by
    have h₁ := frame_cursor (frame_movePacketBufOffset (toInt16 (half data 2).toNat)) s
    have h₂ := frame_cursor (frame_setTable (data.rd 0)) s₁
    rw [hmove] at h₁
    rw [hset] at h₂
    exact congrArg Cursor.tableIdMap (h₂.trans h₁)
  refine get_bind (liftOption_bind (fun _ => by rcases hloop with rfl | rfl <;> simp) fun table htable => ?_)
  refine liftOption_bind (fun _ hhalt => ?_) fun ptr _ => (liftUndefined hloop).bind fun found _ =>
    (modify _).bind fun _ _ => ?_
  · rcases hloop with rfl | rfl
    · exact keyHalt_ne_fuel _ _ hhalt
    · exact hshort rfl table (htables ▸ htable) (keyStraddles_of_hang hhalt)
  · cases found with
    | none =>
        exact (onError (pofdpEntryNomatch hloop env)).bind fun _ _ => (modify _).bind fun _ _ => modify _
    | some entry =>
        exact (counterIncreace hloop _ _).bind fun ret _ => (modify _).bind fun _ _ => checkRetvalue hloop ret

theorem executeGotoDirectTable (data : Buf) : Avoids h (executeGotoDirectTable data) s :=
  (movePacketBufOffset hloop _).bind fun _ _ => (setTable hloop _).bind fun _ _ =>
    (pofdpGet32value hloop _ _ _).bind fun _ _ => get_bind ((liftError hloop).bind fun _ _ =>
      (failIf hloop _ _ _).bind fun _ _ => (modify _).bind fun _ _ => (liftError hloop).bind fun _ _ =>
        (counterIncreace hloop _ _).bind fun ret _ => (checkRetvalue hloop ret).bind fun _ _ => modify _)

theorem executeConditionalJmp (data : Buf) : Avoids h (executeConditionalJmp data) s := by
  have hpair : ∀ (type direction : UInt8) (k : ℕ) (t : DpState), Avoids h
      (PofSwitch.pofdpGet32value type data k >>= fun offset => Pure.pure (direction, offset)) t :=
    fun _ _ _ _ => (pofdpGet32value hloop _ _ _).bind fun _ _ => pure _
  refine bind ?_ fun target _ => get_bind ?_
  · refine (get32valueFromField hloop _).bind fun _ _ => (pofdpGet32value hloop _ _ _).bind fun _ _ => ?_
    split_ifs <;> exact hpair _ _ _ _
  · split
    · exact (failIf hloop _ _ _).bind fun _ _ => modify _
    · exact (failIf hloop _ _ _).bind fun _ _ => modify _

/-- The work of the other instructions. -/
theorem instructionWork {ins : PofInstruction} {type : InstructionType}
    (htype : InstructionType.ofCode ins.type.toNat = some type)
    (hshort : h = .hang → ¬ ins.CoversShort s.lr.tableIdMap) :
    Avoids h (instructionWork ins.instructionData type) s := by
  simp only [PofInstruction.CoversShort, htype] at hshort
  cases type with
  | meter => exact get_bind ((liftError hloop).bind fun _ _ => modify _)
  | writeMetadata => exact coverMetadata hshort
  | writeMetadataFromPacket =>
      exact get_bind ((failIf hloop _ _ _).bind fun _ _ => coverMetadata hshort)
  | calculateField =>
      exact (get32valueFromField hloop _).bind fun _ _ => (pofdpGet32value hloop _ _ _).bind fun _ _ =>
        (liftError hloop).bind fun _ _ => pofdpWrite32valueToField hloop hshort
  | movePacketOffset =>
      refine (pofdpGet32value hloop _ _ _).bind fun _ _ => ?_
      split
      · exact movePacketBufOffset hloop _
      · exact movePacketBufOffset hloop _
  | _ => exact throw (by rcases hloop with rfl | rfl <;> simp)

/-- An instruction other than `APPLY_ACTIONS`. -/
theorem executeInstruction (env : DpEnv) {actions : Dp Unit} {ins : PofInstruction}
    (happly : InstructionType.ofCode ins.type.toNat ≠ some .applyActions)
    (hshort : h = .hang → ¬ ins.CoversShort s.lr.tableIdMap) :
    Avoids h (executeInstruction env actions ins) s := by
  unfold PofSwitch.executeInstruction
  split
  next => exact throw (by rcases hloop with rfl | rfl <;> simp)
  next htype =>
    refine executeGotoTable hloop env fun hhang table htable hstraddles => hshort hhang ?_
    rw [PofInstruction.CoversShort, htype]
    exact ⟨table, htable, hstraddles⟩
  next => exact executeGotoDirectTable hloop _
  next htype => exact absurd htype happly
  next => exact executeConditionalJmp hloop _
  next htype => exact (instructionWork hloop htype hshort).bind fun _ _ => modify _

/-- A turn. -/
theorem dpTurn (env : DpEnv) {l : DpLoop} (hshort : h = .hang → ¬ CoversShortAt l s) :
    Avoids h (dpTurn env l) s := by
  cases l with
  | act =>
      refine get_bind ?_
      split_ifs
      · exact (actTurn hloop env fun hhang action ha hcovers => hshort hhang ⟨action, ha, hcovers⟩).bind
          fun _ _ => pure _
      · exact (modify _).bind fun _ _ => pure _
  | ins =>
      refine get_bind (liftOption_bind (fun _ => by rcases hloop with rfl | rfl <;> simp) fun ins hread => ?_)
      split_ifs with happly
      · exact (modify _).bind fun _ _ => pure _
      · exact (executeInstruction hloop env happly fun hhang hcovers => hshort hhang ⟨ins, hread, hcovers⟩).bind
          fun _ _ => pure _

end Avoids

/-- An interpreter that does not return is at a short field. -/
theorem covers_of_hang {env : DpEnv} {fuel : ℕ} {s t : DpState}
    (h : exec (pofdpInstructionExecute env fuel) s = (.error .hang, t)) :
    ∃ l u, DpRun (fun _ _ => True) env s l u ∧ CoversShortAt l u := by
  obtain ⟨t', hends, _⟩ := dpEnds_of_execute h (by simp)
  rcases dpRun_of_ends DpRun.start hends with ⟨hok, _⟩ | ⟨l, u, e, he, hrun, _, hturn⟩
  · cases hok
  · cases he
    refine ⟨l, u, hrun, by_contra fun hshort => ?_⟩
    exact Avoids.dpTurn (Or.inr rfl) env (fun _ => hshort) t' hturn

/-! ### Packets end -/

/-- What the interpreter returns as soon as it has enough fuel.  What C leaves undefined, such as the use of a
counter that is `NULL` or a division by zero, ends the computation and counts as a return here. -/
def Returns (env : DpEnv) (s : DpState) (r : Except Halt Unit) (t : DpState) : Prop :=
  r ≠ .error .fuel ∧ ∃ fuel, ∀ k, exec (pofdpInstructionExecute env (fuel + k)) s = (r, t)

section Ends

variable {env : DpEnv} {s s' t : DpState} {r : Except Halt Unit} {ins : PofInstruction}

theorem CounterStep.groups {lr lr' : LocalResource} (h : CounterStep lr lr') : lr'.groupMap = lr.groupMap := by
  rcases h with rfl | ⟨c, n, ret, hinc⟩
  · rfl
  · exact poflrCounterIncreace_frame LocalResource.groupMap (fun _ _ => rfl) hinc

theorem ActEnds.groups (h : ActEnds env s r t) : t.lr.groupMap = s.lr.groupMap := by
  have hturn : ∀ {s s' : DpState} {r : Except Halt Unit}, exec (actTurn env) s = (r, s') →
      s'.lr.groupMap = s.lr.groupMap := by
    intro s s' r hexec
    have hframe := groups_actTurn env s
    rwa [hexec] at hframe
  induction h with
  | done _ => rfl
  | fail _ hexec => exact hturn hexec
  | turn _ hexec _ ih => exact ih.trans (hturn hexec)

theorem exec_executeInstruction_apply (actions : Dp Unit)
    (happly : InstructionType.ofCode ins.type.toNat = some .applyActions) :
    exec (executeInstruction env actions ins) s =
      exec (actions >>= fun _ => instructionUpdate) (applied ins.instructionData s) := by
  rw [executeInstruction, happly]
  rfl

/-- A turn does not change the groups. -/
theorem groups_insStep {fuel : ℕ} (h : exec (insStep env fuel) s = (.ok (), s')) :
    s'.lr.groupMap = s.lr.groupMap := by
  cases hread : s.dpp.ins.read with
  | none =>
      rw [insStep, exec_bind_ok exec_get, hread] at h
      cases h
  | some ins =>
      rw [exec_insStep hread] at h
      rcases hexec : exec (executeInstruction env (pofdpActionExecute env fuel) ins) s with ⟨e | u, s₁⟩
      · rw [exec_logged_error hexec] at h
        cases h
      rw [exec_logged_ok hexec] at h
      cases h
      by_cases happly : InstructionType.ofCode ins.type.toNat = some .applyActions
      · rw [exec_executeInstruction_apply _ happly] at hexec
        rcases hacts : exec (pofdpActionExecute env fuel) (applied ins.instructionData s) with ⟨e | v, w⟩
        · rw [exec_bind_error hacts] at hexec
          cases hexec
        · rw [exec_bind_ok hacts] at hexec
          cases hexec
          obtain ⟨t', hends, _, hok⟩ := actEnds_of_execute hacts (by simp)
          cases hok rfl
          exact hends.groups
      · rw [executeInstruction_congr _ happly] at hexec
        exact (counterStep_executeInstruction happly hexec).groups

/-- **Without cycles among the groups every turn returns**, as soon as it has enough fuel. -/
theorem insStep_returns (env : DpEnv) (s : DpState) (hacyc : ∀ g, ¬ TransGen (Follows s.lr.groupMap) g g) :
    ∃ r s' fuel, r ≠ .error .fuel ∧ ∀ k, exec (insStep env (fuel + k)) s = (r, s') := by
  cases hread : s.dpp.ins.read with
  | none =>
      refine ⟨.error .undefined, s, 0, by simp, fun k => ?_⟩
      rw [insStep, exec_bind_ok exec_get, hread]
      rfl
  | some ins =>
      by_cases happly : InstructionType.ofCode ins.type.toNat = some .applyActions
      · obtain ⟨r, t, hr, fuel, u, hexec, _⟩ :=
          ends_of_acyclic (s := applied ins.instructionData s) env hacyc rfl
        have hmore : ∀ k, exec (insStep env (fuel + k)) s =
            exec (logged (executeInstruction env (pofdpActionExecute env (fuel + k)) ins)) s :=
          fun k => exec_insStep hread
        have hacts : ∀ k, exec (pofdpActionExecute env (fuel + k)) (applied ins.instructionData s) = (r, u) :=
          fun k => pofdpActionExecute_mono k hexec hr
        cases r with
        | error e =>
            refine ⟨.error e, recorded e u, fuel, hr, fun k => ?_⟩
            rw [hmore, exec_logged_error]
            rw [exec_executeInstruction_apply _ happly, exec_bind_error (hacts k)]
        | ok v =>
            refine ⟨.ok (), { u with dpp := nextInstruction u.dpp }, fuel, hr, fun k => ?_⟩
            rw [hmore, exec_logged_ok]
            rw [exec_executeInstruction_apply _ happly, exec_bind_ok (hacts k)]
            rfl
      · rcases hexec : exec (executeInstruction env (pure ()) ins) s with ⟨e | v, t⟩
        · refine ⟨.error e, recorded e t, 0, ?_, fun k => ?_⟩
          · rintro ⟨⟩
            exact Avoids.executeInstruction (Or.inl rfl) env happly (fun hhang => by cases hhang) t hexec
          · rw [exec_insStep hread, exec_logged_error]
            rw [executeInstruction_congr _ happly, hexec]
        · refine ⟨.ok (), t, 0, by simp, fun k => ?_⟩
          rw [exec_insStep hread, exec_logged_ok]
          rw [executeInstruction_congr _ happly, hexec]

theorem Returns.done (hdone : s.dpp.packetDone = true) : Returns env s (.ok ()) s := by
  refine ⟨by simp, 1, fun k => ?_⟩
  rw [Nat.add_comm, pofdpInstructionExecute, exec_bind_ok exec_get, if_neg (by simp [hdone])]
  rfl

/-- A turn in front. -/
theorem Returns.turn (hdone : s.dpp.packetDone = false) {fuel : ℕ}
    (hstep : ∀ k, exec (insStep env (fuel + k)) s = (.ok (), s')) (h : Returns env s' r t) :
    Returns env s r t := by
  obtain ⟨hr, fuel', hrest⟩ := h
  refine ⟨hr, fuel + fuel' + 1, fun k => ?_⟩
  rw [show fuel + fuel' + 1 + k = fuel + (fuel' + k) + 1 by omega, pofdpInstructionExecute,
    exec_bind_ok exec_get, if_pos hdone, exec_bind_ok (hstep (fuel' + k)),
    show fuel + (fuel' + k) = fuel' + (fuel + k) by omega, hrest]

/-- **When no way in the graph of the instructions is endless and no chain of groups closes, every packet
comes to its end.** -/
theorem ends_of_wellFounded (env : DpEnv) {tables : Hmap TableInfo} {groups : Hmap GroupInfo}
    (hflow : WellFounded fun q p => InsFlow tables p q) (hacyc : ∀ g, ¬ TransGen (Follows groups) g g)
    (htables : s.lr.tableIdMap = tables) (hgroups : s.lr.groupMap = groups)
    (hstored : s.dpp.ins.Stored tables) :
    ∃ r t, Returns env s r t := by
  obtain ⟨p, hp⟩ : ∃ p, s.dpp.ins = p := ⟨_, rfl⟩
  induction p using hflow.induction generalizing s with
  | _ p ih =>
      cases hdone : s.dpp.packetDone with
      | true => exact ⟨_, _, Returns.done hdone⟩
      | false =>
          obtain ⟨r, s', fuel, hr, hstep⟩ := insStep_returns env s (hgroups ▸ hacyc)
          cases r with
          | error e =>
              refine ⟨.error e, s', hr, fuel + 1, fun k => ?_⟩
              rw [show fuel + 1 + k = fuel + k + 1 by omega, pofdpInstructionExecute, exec_bind_ok exec_get,
                if_pos hdone, exec_bind_error (hstep k)]
          | ok u =>
              obtain ⟨htables', hleads⟩ := insStep_leads (hstep 0)
              suffices hrest : ∃ r t, Returns env s' r t by
                obtain ⟨r, t, hreturns⟩ := hrest
                exact ⟨r, t, hreturns.turn hdone hstep⟩
              cases hdone' : s'.dpp.packetDone with
              | true => exact ⟨_, _, Returns.done hdone'⟩
              | false =>
                  have hedge : InsFlow tables p s'.dpp.ins := by
                    rw [← hp, ← htables]
                    exact ⟨htables ▸ hstored, hleads hdone'⟩
                  exact ih _ hedge (htables'.trans htables) ((groups_insStep (hstep 0)).trans hgroups)
                    hedge.stored rfl

end Ends

/-! ### Entries that only lead on -/

/-- The instruction, in a table of the given number, leads to tables with greater numbers, and jumps forward
by numbers that stand in it. -/
def PofInstruction.Ahead (ID : UInt32) (ins : PofInstruction) : Prop :=
  let data := ins.instructionData
  match InstructionType.ofCode ins.type.toNat with
  | some .gotoTable | some .gotoDirectTable => ID < hmapHashForLinear (data.rd 0).toUInt32
  | some .conditionalJmp =>
      ∀ i < 3, data.rd (2 * i + 1) = 0 ∧ data.rd (2 * i + 2) = 0 ∧ word data (8 * i + 24) ≠ 0
  | _ => True

/-- The entries of all tables only lead on, and so does whatever stands behind their instructions. -/
def TablesAhead (tables : Hmap TableInfo) : Prop :=
  ∀ table ∈ tables.nodes, ∀ entry ∈ table.entryMap.nodes, ∀ ins ∈ entry.instruction, ins.Ahead table.hash

section Ahead

variable {tables : Hmap TableInfo}

/-- From an entry one gets to an entry of a table with a greater number, or further on in the entry. -/
theorem flow_cases (h : TablesAhead tables) {table : TableInfo} (htable : table ∈ tables.nodes)
    {entry : EntryInfo} (hentry : entry ∈ table.entryMap.nodes) {k : ℤ} {q : InsPtr}
    (hflow : InsFlow tables ⟨some entry, k⟩ q) :
    (∃ table' ∈ tables.nodes, ∃ entry' ∈ table'.entryMap.nodes,
      table.hash < table'.hash ∧ q = ⟨some entry', 0⟩) ∨
      ∃ k', k < k' ∧ k < entry.instruction.length ∧ q = ⟨some entry, k'⟩ := by
  obtain ⟨-, ins, hread, hleads⟩ := hflow
  have hget : ¬ k < 0 ∧ entry.instruction[k.toNat]? = some ins := by
    unfold InsPtr.read at hread
    split_ifs at hread with hneg
    exact ⟨hneg, hread⟩
  have hk : k < entry.instruction.length := by
    obtain ⟨hlt, -⟩ := List.getElem?_eq_some_iff.1 hget.2
    omega
  have hahead := h table htable entry hentry ins (List.mem_of_getElem? hget.2)
  unfold PofInstruction.Ahead at hahead
  split at hleads
  · exact hleads.elim
  · rename_i htype
    obtain ⟨table', entry', htable', hentry', rfl⟩ := hleads
    obtain ⟨hmem, hhash⟩ := Hmap.nodeGetWithHash_eq_some htable'
    rw [htype] at hahead
    exact Or.inl ⟨table', hmem, entry', hentry', lt_of_lt_of_eq hahead hhash.symm, rfl⟩
  · rename_i htype
    obtain ⟨table', entry', htable', hentry', rfl⟩ := hleads
    obtain ⟨hmem, hhash⟩ := Hmap.nodeGetWithHash_eq_some htable'
    rw [htype] at hahead
    exact Or.inl ⟨table', hmem, entry', hentry', lt_of_lt_of_eq hahead hhash.symm, rfl⟩
  · rename_i htype
    obtain ⟨i, hi, d, ⟨n, hn, rfl⟩, rfl⟩ := hleads
    rw [htype] at hahead
    obtain ⟨hforward, hnumber, hpos⟩ := hahead i hi
    rw [hn hnumber, if_pos hforward]
    have hlt : 0 < (word ins.instructionData (8 * i + 24)).toNat :=
      Nat.pos_of_ne_zero fun hzero => hpos (UInt32.toNat_inj.1 hzero)
    exact Or.inr ⟨_, lt_add_of_pos_right k (by omega), hk, rfl⟩
  · exact Or.inr ⟨k + 1, by omega, hk, hleads⟩

/-- **Entries that only lead on leave no endless way.** -/
theorem wellFounded_of_ahead (h : TablesAhead tables) : WellFounded fun q p => InsFlow tables p q := by
  -- by the number of the table, the greatest first, and in an entry by what is left of it
  have hentries : ∀ n, ∀ table ∈ tables.nodes, ∀ entry ∈ table.entryMap.nodes, 2 ^ 32 - table.hash.toNat ≤ n →
      ∀ k, Acc (fun q p => InsFlow tables p q) ⟨some entry, k⟩ := by
    intro n
    induction n with
    | zero =>
        intro table _ _ _ hn
        have hlt := table.hash.toNat_lt
        omega
    | succ n ih =>
        intro table htable entry hentry hn k
        induction hm : ((entry.instruction.length : ℤ) - k).toNat using Nat.strong_induction_on
            generalizing k with
        | _ m ihk =>
            refine Acc.intro _ fun q hflow => ?_
            rcases flow_cases h htable hentry hflow with
              ⟨table', htable', entry', hentry', hgreater, rfl⟩ | ⟨k', hk', hin, rfl⟩
            · refine ih table' htable' entry' hentry' ?_ 0
              have hgreater' := UInt32.lt_iff_toNat_lt.1 hgreater
              have hlt := table'.hash.toNat_lt
              omega
            · exact ihk _ (by omega) k' rfl
  refine ⟨fun p => Acc.intro _ fun q hflow => ?_⟩
  obtain ⟨e, k⟩ := p
  rcases hflow.1 with hnone | ⟨table, htable, entry, hentry, hsome⟩
  · -- before the first match there is only the `GOTO_TABLE` of `pofdp_forward`
    cases hnone
    obtain ⟨-, ins, hread, hleads⟩ := hflow
    obtain rfl : ins = firstIns := by
      unfold InsPtr.read at hread
      split_ifs at hread
      exact List.mem_singleton.1 (List.mem_of_getElem? hread)
    obtain ⟨table, entry, htable, hentry, rfl⟩ := hleads
    exact hentries _ table (List.mem_of_find?_eq_some htable) entry hentry le_rfl 0
  · cases hsome
    exact (hentries _ table htable entry hentry le_rfl k).inv hflow

end Ahead

/-! ### Runs -/

/-- The states of runs, requests and packets in any order, whose requests satisfy `Q` in the state they are
made in. -/
inductive SwitchPath (Q : LocalResource → LrOp → Prop) : LocalResource → Prop
  | init (cfg : LrConfig) : SwitchPath Q (pofLocalresourceInit cfg)
  | request {lr lr' : LocalResource} {op : LrOp} {ret : Ret} : SwitchPath Q lr → Q lr op → op.Fresh lr →
      op.exec lr = some (ret, lr') → SwitchPath Q lr'
  | packet {env : DpEnv} {portId : UInt8} {packet : Buf} {fuel : ℕ} {lr : LocalResource}
      {r : Except Halt Unit} {t : DpState} : SwitchPath Q lr →
      exec (pofdpInstructionExecute env fuel) (pofdpForward portId packet lr) = (r, t) →
      r ≠ .error .fuel → SwitchPath Q t.lr

/-- The request stores no group that closes a chain, and no entry that leads back. -/
structure GoesAhead (lr : LocalResource) (op : LrOp) : Prop where
  groups : NoLoop lr op
  entries : ∀ flow table, Stores lr op flow table → ∀ ins ∈ flow.instruction, ins.Ahead table.hash

theorem GoesAhead.tablesAhead {op : LrOp} {lr lr' : LocalResource} {ret : Ret} (hQ : GoesAhead lr op)
    (hfresh : op.Fresh lr) (hexec : op.exec lr = some (ret, lr')) (h : TablesAhead lr.tableIdMap) :
    TablesAhead lr'.tableIdMap := by
  intro table' htable' e he
  rcases (LrOp.tables_cases hexec hfresh).1 table' htable' with
    ⟨table, htable, hchange⟩ | ⟨msg, type, newAt, _, _, rfl⟩
  · rw [hchange.tableChange.sameShape.hash_eq]
    cases hchange with
    | same => exact h _ htable e he
    | insert hmod hacc hfill _ =>
        rw [nodes_entryLink] at he
        rcases List.mem_cons.1 he with rfl | he
        · rw [hfill.instruction_eq]
          exact hQ.entries _ _ (Stores.add hmod hacc)
        · exact h table htable e he
    | delete _ _ _ =>
        rw [nodes_entryDelete] at he
        exact h table htable e (List.mem_of_mem_filter he)
    | lose _ _ _ _ =>
        rw [nodes_entryDelete] at he
        exact h table htable e (List.mem_of_mem_filter he)
    | replace hmod hold hcounter hacc hfill _ =>
        rw [nodes_entryLink, nodes_entryDelete] at he
        rcases List.mem_cons.1 he with rfl | he
        · rw [hfill.instruction_eq]
          exact hQ.entries _ _ (Stores.modify hmod hold hcounter hacc)
        · exact h table htable e (List.mem_of_mem_filter he)
  · simp [newTable] at he

/-- What requests that only lead on leave in the switch. -/
theorem ahead_of_path {lr : LocalResource} (h : SwitchPath GoesAhead lr) :
    TablesAhead lr.tableIdMap ∧ ∀ g, ¬ TransGen (Follows lr.groupMap) g g := by
  induction h with
  | init cfg =>
      refine ⟨fun table htable => ?_, acyclic_init cfg⟩
      rw [tables_pofLocalresourceInit] at htable
      simp at htable
  | request _ hQ hfresh hexec ih =>
      exact ⟨hQ.tablesAhead hfresh hexec ih.1, hQ.groups.acyclic hexec ih.2⟩
  | packet _ hexec hr ih =>
      rw [frame_packet LocalResource.tableIdMap (fun _ _ => rfl) hexec hr,
        frame_packet LocalResource.groupMap (fun _ _ => rfl) hexec hr]
      exact ih

/-- **Every packet comes to its end**, after any requests that only lead on and any packets: with enough fuel
the interpreter returns, and the only loop it may be left in is that of `pofbf_cover_bit` on a field shorter
than a byte that crosses into the next one. -/
theorem packets_end_of_path {lr : LocalResource} (h : SwitchPath GoesAhead lr) (env : DpEnv) (portId : UInt8)
    (packet : Buf) :
    ∃ r t, Returns env (pofdpForward portId packet lr) r t ∧
      (r = .error .hang → ∃ l u, DpRun (fun _ _ => True) env (pofdpForward portId packet lr) l u ∧
        CoversShortAt l u) := by
  obtain ⟨hahead, hacyc⟩ := ahead_of_path h
  obtain ⟨r, t, hreturns⟩ := ends_of_wellFounded (s := pofdpForward portId packet lr) env
    (wellFounded_of_ahead hahead) hacyc rfl rfl (Or.inl rfl)
  refine ⟨r, t, hreturns, ?_⟩
  rintro rfl
  obtain ⟨-, fuel, hexec⟩ := hreturns
  exact covers_of_hang (hexec 0)

theorem SwitchPath.next {Q : LocalResource → LrOp → Prop} {lr : LocalResource} (h : SwitchPath Q lr)
    (op : LrOp) (hQ : Q lr op) (hfresh : op.Fresh lr) (hexec : (op.exec lr).isSome) :
    SwitchPath Q (op.next lr) := by
  obtain ⟨⟨ret, lr'⟩, hr⟩ := Option.isSome_iff_exists.1 hexec
  have hnext : op.next lr = lr' := by rw [LrOp.next, hr]
  rw [hnext]
  exact h.request hQ hfresh hr

/-- A `GOTO_TABLE` that does not move the window. -/
def gotoTableIns (ID : UInt8) : PofInstruction where
  type := 1
  len := 16
  instructionData := ID :: Buf.zeros (maxInstructionLength - 1)

theorem goesAhead_of_none {lr : LocalResource} {op : LrOp} (hgroup : ∀ group, ¬ StoresGroup lr op group)
    (hentry : ∀ flow table, ¬ Stores lr op flow table) : GoesAhead lr op :=
  ⟨fun group h => absurd h (hgroup group), fun flow table h => absurd h (hentry flow table)⟩

/-- The entry of the first table leads to the second. -/
theorem switchPath_matchAll : SwitchPath GoesAhead (matchAll 1 [gotoTableIns 1]) := by
  have htable : SwitchPath GoesAhead ((LrOp.createFlowTable
      { oneFieldTable 0 0 with matchFieldNum := 0, match_ := [] } 1).next (pofLocalresourceInit smallConfig)) :=
    (SwitchPath.init smallConfig).next _ (goesAhead_of_none (fun _ h => by cases h) fun _ _ h => by cases h)
      (by decide) rfl
  refine htable.next (.addFlowEntry _ 2 3) ⟨(fun group h => by cases h),
    fun flow table hstores => ?_⟩ ?_ rfl
  · have hflow : flow.instruction = [gotoTableIns 1] ∧ table.hash = 0 := by
      cases hstores with
      | add hmod _ =>
          cases hmod
          exact ⟨rfl, rfl⟩
    rw [hflow.1, hflow.2]
    intro ins hins
    cases List.mem_singleton.1 hins
    change (0 : UInt32) < 1
    decide
  · have hnodup : [2, 3].Nodup := by decide
    have hdead : ∀ a ∈ [2, 3], a ≠ 0 ∧ a ∉ ((LrOp.createFlowTable
        { oneFieldTable 0 0 with matchFieldNum := 0, match_ := [] } 1).next
          (pofLocalresourceInit smallConfig)).liveAddrs := by decide
    exact ⟨hnodup, fun a ha => ⟨(hdead a ha).1, fun hlive => absurd hlive (hdead a ha).2⟩⟩

theorem packets_end_of_path_goto : ∃ r t,
    Returns openEnv (pofdpForward 1 [7, 8, 9] (matchAll 1 [gotoTableIns 1])) r t ∧
      (r = .error .hang → ∃ l u, DpRun (fun _ _ => True) openEnv
        (pofdpForward 1 [7, 8, 9] (matchAll 1 [gotoTableIns 1])) l u ∧ CoversShortAt l u) :=
  packets_end_of_path switchPath_matchAll openEnv 1 [7, 8, 9]

end PofSwitch
