/-
**What the switch answers.**

`Parse.lean` has the handler as it works: bytes come in, bytes are queued.  Here it is said what the switch
answers: to a request, in a state, a list of answers, each with its `xid`.  The two are connected by the
reader of the controller.  What it reads from the messages that the handler has queued is what the switch
answers.

An answer has the `xid` of the request, with three exceptions.  A `POFT_PORT_STATUS` has the one that the
switch would use next, and so has the error of the actions of a `POFT_PACKET_OUT`; the error
`POFTMFC_BAD_KEY_LEN` has one of the switch, too.

Main definitions:

* `PofSwitch.Answer`, `PofSwitch.decodeAnswer` — what a controller reads;
* `PofSwitch.Conveys`, `PofSwitch.Grows`, `PofSwitch.Speaks` — messages, and calls that queue them, by what
  they say;
* `PofSwitch.Control.answers` — what the switch answers;
* `PofSwitch.Control.Ok` — the states in which it can be asked.

Main results:

* `PofSwitch.replyEach_until` — a loop says what its turns say, up to the first error;
* `PofSwitch.eachSlotReports_answers` — the loop over the slots and what is queued in it;
* `PofSwitch.Control.handle_answers` — **what is queued for a request is what the switch answers.**
-/

import PofSwitch.Parse

set_option relaxedAutoImplicit false
set_option autoImplicit false

namespace PofSwitch

open Buf Prog HmapNode

/-! ### What a controller reads -/

/-- The contents of a message of the switch. -/
inductive Answer
  | error (deviceId : UInt32) (report : ErrorReport)
  | echo
  | features (features : PofSwitchFeatures)
  | config (config : PofSwitchConfig)
  | portStatus (reason : UInt8) (port : PofPort)
  | resource (resource : PofFlowTableResource)
  | report (slotID : UInt16) (report : Report)
  | queryallFin

/-- The body of a message of the given type. -/
def answerOfBody (type : UInt8) (body : Buf) : Option Answer :=
  match type.toNat with
  | 1 =>
      let e := errorOf (pofNtoHTransferError body)
      some (.error e.1 e.2.2)
  | 3 => some .echo
  | 6 => some (.features (switchFeaturesOf (pofHtoNTransferSwitchFeatures body)))
  | 8 => some (.config (switchConfigOf (pofHtoNTransferSwitchConfig body)))
  | 12 =>
      let p := portStatusOf (pofHtoNTransferPortStatus body)
      some (.portStatus p.1 p.2)
  | 13 => some (.resource (flowTableResourceOf (pofHtoNTransferFlowTableResource body)))
  | 35 => some .queryallFin
  | _ => (decodeBody type body).map fun r => .report r.1 r.2

/-- A message: its `xid` and its contents. -/
def decodeAnswer (m : Buf) : Option (UInt32 × Answer) :=
  (answerOfBody (Header.type m) (m.drop headerSize)).map fun r => (Header.xid m, r)

theorem decodeAnswer_upwardMsg (type : UInt8) (xid : UInt32) (body : Buf) :
    decodeAnswer (upwardMsg type xid body) = (answerOfBody type body).map fun r => (xid, r) := by
  rw [decodeAnswer, drop_upwardMsg, xid_upwardMsg]
  rfl

/-- What reads as a report of an object is one. -/
theorem answerOfBody_of_decodeBody {type : UInt8} {body : Buf} {r : UInt16 × Report}
    (h : decodeBody type body = some r) : answerOfBody type body = some (.report r.1 r.2) := by
  have hfall : answerOfBody type body = (decodeBody type body).map fun r => .report r.1 r.2 := by
    unfold decodeBody at h
    unfold answerOfBody
    split at h <;> first | contradiction | simp_all
  rw [hfall, h]
  rfl

theorem decodeAnswer_of_decodeReport {m : Buf} {r : UInt16 × Report} (h : decodeReport m = some r) :
    decodeAnswer m = some (Header.xid m, .report r.1 r.2) := by
  rw [decodeAnswer, answerOfBody_of_decodeBody h]
  rfl

section Bodies

theorem answerOfBody_error {r : ErrorReport} (hfits : r.Fits) (devId : UInt32) (mem : Buf) :
    answerOfBody poftError (pofNtoHTransferError (errorBytes mem devId r)) = some (.error devId r) := by
  change some (Answer.error (errorOf (pofNtoHTransferError (pofNtoHTransferError (errorBytes mem devId r)))).1
    (errorOf (pofNtoHTransferError (pofNtoHTransferError (errorBytes mem devId r)))).2.2) = _
  rw [pofNtoHTransferError_twice hfits.length_errorBytes, errorOf_errorBytes hfits]

theorem answerOfBody_config (c : PofSwitchConfig) :
    answerOfBody 8 (pofHtoNTransferSwitchConfig (switchConfigBytes c)) = some (.config c) := by
  change some (Answer.config (switchConfigOf (pofHtoNTransferSwitchConfig (pofHtoNTransferSwitchConfig
    (switchConfigBytes c))))) = _
  rw [pofHtoNTransferSwitchConfig_twice (length_switchConfigBytes c), switchConfigOf_switchConfigBytes]

theorem answerOfBody_features {f : PofSwitchFeatures} (h : f.Shaped) :
    answerOfBody 6 (pofHtoNTransferSwitchFeatures (switchFeaturesBytes f)) = some (.features f) := by
  change some (Answer.features (switchFeaturesOf (pofHtoNTransferSwitchFeatures (pofHtoNTransferSwitchFeatures
    (switchFeaturesBytes f))))) = _
  rw [pofHtoNTransferSwitchFeatures_twice (length_switchFeaturesBytes f), switchFeaturesOf_switchFeaturesBytes h]

theorem answerOfBody_resource {r : PofFlowTableResource} (h : r.tblRscDesc.length = maxTableType) :
    answerOfBody 13 (pofHtoNTransferFlowTableResource (flowTableResourceBytes r)) = some (.resource r) := by
  change some (Answer.resource (flowTableResourceOf (pofHtoNTransferFlowTableResource
    (pofHtoNTransferFlowTableResource (flowTableResourceBytes r))))) = _
  rw [pofHtoNTransferFlowTableResource_twice (length_flowTableResourceBytes r),
    flowTableResourceOf_flowTableResourceBytes h]

theorem answerOfBody_portStatus (reason : UInt8) {port : PofPort} (h : port.Shaped) :
    answerOfBody 12 (pofHtoNTransferPortStatus (portStatusBytes reason port)) =
      some (.portStatus reason port) := by
  change some (Answer.portStatus
    (portStatusOf (pofHtoNTransferPortStatus (pofHtoNTransferPortStatus (portStatusBytes reason port)))).1
    (portStatusOf (pofHtoNTransferPortStatus (pofHtoNTransferPortStatus (portStatusBytes reason port)))).2) = _
  rw [pofHtoNTransferPortStatus_twice (length_portStatusBytes reason port),
    portStatusOf_portStatusBytes reason h]

theorem shaped_featuresOf (env : ParseEnv) (c : Control) (lr : LocalResource) : (featuresOf env c lr).Shaped :=
  ⟨length_strncpy _ _, length_strncpy _ _, length_strncpy _ _⟩

theorem shaped_portReportFillMsg (devId : UInt32) (rest : PortRest) (port : PortInfo) :
    (portReportFillMsg devId rest port).Shaped := ⟨length_bytesAt _ _ _, length_strncpy _ _⟩

end Bodies

/-! ### Messages by what they say -/

/-- The messages are framed, and read as the answers. -/
structure Conveys (msgs : List Buf) (said : List (UInt32 × Answer)) : Prop where
  decode : msgs.map decodeAnswer = said.map some
  framed : ∀ m ∈ msgs, IsMessage m

namespace Conveys

variable {msgs msgs' : List Buf} {said said' : List (UInt32 × Answer)}

theorem nil : Conveys [] [] := ⟨rfl, by simp⟩

theorem append (h : Conveys msgs said) (h' : Conveys msgs' said') :
    Conveys (msgs ++ msgs') (said ++ said') where
  decode := by rw [List.map_append, h.decode, h'.decode, List.map_append]
  framed := by
    intro m hm
    exact (List.mem_append.1 hm).elim (h.framed m) (h'.framed m)

/-- One message that fits the buffers. -/
theorem one {type : UInt8} {xid : UInt32} {body : Buf} {r : Answer}
    (hfits : headerSize + body.length ≤ recvBufMaxSize) (hread : answerOfBody type body = some r) : Conveys [upwardMsg type xid body] [(xid, r)] where
  decode := by
    rw [List.map_singleton, decodeAnswer_upwardMsg, hread]
    rfl
  framed := by
    intro m hm
    obtain rfl := List.mem_singleton.1 hm
    exact isMessage_upwardMsg (Nat.lt_of_le_of_lt hfits (by decide))

/-- The message of an error. -/
theorem error {r : ErrorReport} (hfits : r.Fits) (devId xid : UInt32) (mem : Buf) :
    Conveys [errorMsg r devId xid mem] [(xid, .error devId r)] :=
  one (by rw [hfits.length_body]; decide) (answerOfBody_error hfits devId mem)

/-- Reports of objects that carry one `xid`. -/
theorem reports {xid : UInt32} {reports : List (UInt16 × Report)}
    (hdecode : msgs.map decodeReport = reports.map some) (hmsgs : ∀ m ∈ msgs, IsMessage m ∧ Header.xid m = xid) :
    Conveys msgs (reports.map fun r => (xid, .report r.1 r.2)) where
  framed := fun m hm => (hmsgs m hm).1
  decode := by
    induction msgs generalizing reports with
    | nil =>
        obtain rfl : reports = [] := List.map_eq_nil_iff.1 hdecode.symm
        rfl
    | cons m msgs ih =>
        cases reports with
        | nil => simp at hdecode
        | cons r reports =>
            obtain ⟨hm, hrest⟩ := List.cons.inj hdecode
            rw [List.map_cons, decodeAnswer_of_decodeReport hm, (hmsgs m List.mem_cons_self).2,
              ih hrest fun m' hm' => hmsgs m' (List.mem_cons_of_mem m hm')]
            rfl

end Conveys

/-- The queue has grown by messages that say this. -/
def Grows (said : List (UInt32 × Answer)) (queue queue' : List Buf) : Prop :=
  ∃ msgs, queue' = queue ++ msgs ∧ Conveys msgs said

namespace Grows

variable {said said' : List (UInt32 × Answer)} {queue queue' queue'' : List Buf}

theorem refl (queue : List Buf) : Grows [] queue queue := ⟨[], (List.append_nil queue).symm, Conveys.nil⟩

theorem trans (h : Grows said queue queue') (h' : Grows said' queue' queue'') :
    Grows (said ++ said') queue queue'' := by
  obtain ⟨msgs, rfl, hconveys⟩ := h
  obtain ⟨msgs', rfl, hconveys'⟩ := h'
  exact ⟨msgs ++ msgs', List.append_assoc queue msgs msgs', hconveys.append hconveys'⟩

end Grows

/-- A call that queues messages saying this, returns `ret` and leaves `g_upward_xid` alone. -/
def Speaks (o : Outbox) (ret : Ret) (said : List (UInt32 × Answer)) (r : Ret × Outbox) : Prop :=
  r.1 = ret ∧ r.2.upwardXid = o.upwardXid ∧ Grows said o.queue r.2.queue

/-- Answers one after the other, up to the first error. -/
def untilError {α : Type} : List (Ret × List α) → Ret × List α
  | [] => (.ok (), [])
  | (.ok (), said) :: rest => ((untilError rest).1, said ++ (untilError rest).2)
  | (.error e, said) :: _ => (.error e, said)

/-- An answer behind the others is given when they end without an error. -/
theorem untilError_concat {α : Type} (l : List (Ret × List α)) (said : List α) :
    untilError (l ++ [(.ok (), said)]) =
      match (untilError l).1 with
      | .error e => (.error e, (untilError l).2)
      | .ok () => (.ok (), (untilError l).2 ++ said) := by
  induction l with
  | nil => simp [untilError]
  | cons a l ih =>
      rcases a with ⟨e | _, first⟩
      · rfl
      · rw [List.cons_append, untilError, ih, untilError]
        cases (untilError l).1 with
        | error e => rfl
        | ok _ => exact congrArg (Prod.mk _) (List.append_assoc first _ said).symm

/-- Without an error all answers are given. -/
theorem untilError_ok {α β : Type} {f : β → List α} {l : List β} :
    untilError (l.map fun b => ((.ok () : Ret), f b)) = (.ok (), l.flatMap f) := by
  induction l with
  | nil => rfl
  | cons b l ih => rw [List.map_cons, untilError, ih, List.flatMap_cons]

/-- **A loop says what its turns say, up to the first error.**  `Q` tells what is said between two states. -/
theorem replyEach_until {α β σ : Type} {g : α → σ → Ret × σ} {f : α → Ret × List β} {P : σ → Prop}
    {Q : List β → σ → σ → Prop} (hrefl : ∀ s, Q [] s s)
    (htrans : ∀ xs ys s t u, Q xs s t → Q ys t u → Q (xs ++ ys) s u) {l : List α}
    (h : ∀ a ∈ l, ∀ s, P s → (g a s).1 = (f a).1 ∧ P (g a s).2 ∧ Q (f a).2 s (g a s).2) {s : σ}
    (hs : P s) : (replyEach g l s).1 = (untilError (l.map f)).1 ∧
      P (replyEach g l s).2 ∧ Q (untilError (l.map f)).2 s (replyEach g l s).2 := by
  induction l generalizing s with
  | nil => exact ⟨rfl, hs, hrefl s⟩
  | cons a l ih =>
      obtain ⟨hret, hP, hQ⟩ := h a List.mem_cons_self s hs
      rw [replyEach, List.map_cons]
      cases hr : g a s with
      | mk ret t =>
          rw [hr] at hret hP hQ
          cases hfa : f a with
          | mk ret' said =>
              rw [hfa] at hret hQ
              obtain rfl : ret = ret' := hret
              cases ret with
              | error e => exact ⟨rfl, hP, hQ⟩
              | ok _ =>
                  obtain ⟨hret', hP', hQ'⟩ := ih (fun b hb => h b (List.mem_cons_of_mem a hb)) hP
                  exact ⟨hret', hP', htrans _ _ _ _ _ hQ hQ'⟩

/-- A loop over calls that send. -/
theorem replyEach_speaks {α : Type} {reply : α → Outbox → Ret × Outbox} {up : UInt32}
    {f : α → Ret × List (UInt32 × Answer)} {l : List α}
    (h : ∀ a ∈ l, ∀ o : Outbox, o.upwardXid = up → Speaks o (f a).1 (f a).2 (reply a o)) {o : Outbox}
    (ho : o.upwardXid = up) :
    Speaks o (untilError (l.map f)).1 (untilError (l.map f)).2 (replyEach reply l o) := by
  have hloop := replyEach_until (P := fun o : Outbox => o.upwardXid = up)
    (Q := fun said (o o' : Outbox) => Grows said o.queue o'.queue) (fun o => Grows.refl o.queue)
    (fun _ _ _ _ _ => Grows.trans)
    (fun a ha o ho => ⟨(h a ha o ho).1, (h a ha o ho).2.1.trans ho, (h a ha o ho).2.2⟩) ho
  exact ⟨hloop.1, hloop.2.1.trans ho.symm, hloop.2.2⟩

/-- A call that succeeds, and the calls behind it. -/
theorem Speaks.cons {α : Type} {reply : α → Outbox → Ret × Outbox} {a : α} {l : List α} {o : Outbox} {ret : Ret}
    {said said' : List (UInt32 × Answer)} (h : Speaks o (.ok ()) said (reply a o))
    (h' : Speaks (reply a o).2 ret said' (replyEach reply l (reply a o).2)) :
    Speaks o ret (said ++ said') (replyEach reply (a :: l) o) := by
  have hcall : reply a o = (.ok (), (reply a o).2) := Prod.ext h.1 rfl
  rw [replyEach, hcall]
  exact ⟨h'.1, h'.2.1.trans h.2.1, h.2.2.trans h'.2.2⟩

theorem speaks_nil {α : Type} (reply : α → Outbox → Ret × Outbox) (o : Outbox) :
    Speaks o (.ok ()) [] (replyEach reply [] o) := ⟨rfl, rfl, Grows.refl o.queue⟩

/-- A loop in which every call succeeds. -/
theorem replyEach_speaks_ok {α : Type} {reply : α → Outbox → Ret × Outbox} {up : UInt32}
    {f : α → List (UInt32 × Answer)} {l : List α}
    (h : ∀ a ∈ l, ∀ o : Outbox, o.upwardXid = up → Speaks o (.ok ()) (f a) (reply a o)) {o : Outbox}
    (ho : o.upwardXid = up) : Speaks o (.ok ()) (l.flatMap f) (replyEach reply l o) := by
  have hloop := replyEach_speaks (f := fun a => ((.ok () : Ret), f a)) h ho
  rwa [untilError_ok] at hloop

/-! ### What the switch answers -/

/-- The answers to a request that returns an error. -/
def refusal (devId upwardXid xid : UInt32) (e : PofError) : List (UInt32 × Answer) :=
  if e = entryRefused then [(upwardXid, .error devId badKeyLen.report), (xid, .error devId e.report)]
  else [(xid, .error devId e.report)]

/-- `g_upward_xid` behind it. -/
def upwardAfter (upwardXid : UInt32) (e : PofError) : UInt32 :=
  if e = entryRefused then upwardXid + 1 else upwardXid

/-- The answers to what the slots return, and `g_upward_xid` behind them. -/
def refusals (devId xid : UInt32) : UInt32 → List Ret → UInt32 × List (UInt32 × Answer)
  | upwardXid, [] => (upwardXid, [])
  | upwardXid, .ok () :: rets => refusals devId xid upwardXid rets
  | upwardXid, .error e :: rets =>
      let rest := refusals devId xid (upwardAfter upwardXid e) rets
      (rest.1, refusal devId upwardXid xid e ++ rest.2)

theorem refusals_cons (devId xid upwardXid : UInt32) (ret : Ret) (rets : List Ret) :
    refusals devId xid upwardXid (ret :: rets) =
      ((refusals devId xid (refusals devId xid upwardXid [ret]).1 rets).1,
        (refusals devId xid upwardXid [ret]).2 ++
          (refusals devId xid (refusals devId xid upwardXid [ret]).1 rets).2) := by
  cases ret with
  | ok _ => rfl
  | error e => simp only [refusals, List.append_nil]

/-- The results of a call in the slots from slot `i` on. -/
def slotResults (call : ℕ × ℕ → LrOp) (alloc : ℕ → ℕ × ℕ) :
    ℕ → List LocalResource → Option (List (Ret × LocalResource))
  | _, [] => some []
  | i, lr :: slots =>
      ((call (alloc i)).exec lr).bind fun r => (slotResults call alloc (i + 1) slots).map fun rs => r :: rs

/-- The answer of a slot to a `POFT_COUNTER_REQUEST`. -/
def counterAnswer (devId xid counterId : UInt32) (lr : LocalResource) : Ret × List (UInt32 × Answer) :=
  if counterId = 0 ∨ counterId ≥ lr.counterNumMax then
    let e : PofError := ⟨.counterModFailed, .pofcmfcBadCounterId⟩
    (.error e, [(xid, .error devId e.report)])
  else
    match poflrGetCounterWithID counterId lr with
    | none =>
        let e : PofError := ⟨.counterModFailed, .pofcmfcCounterUnexist⟩
        (.error e, [(xid, .error devId e.report)])
    | some counter =>
        (.ok (), [(xid, .report lr.slotID (.counter counterId counter.value counter.byteValue))])

/-- The answer to a `POFT_QUERYALL_REQUEST`: what the slots have to report, and the end of it. -/
def queryAnswer (unreturned : UInt16 → Ret) (devId xid : UInt32) (slotID : UInt16)
    (slots : List LocalResource) : Ret × List (UInt32 × Answer) :=
  match queriedSlots slotID slots with
  | none => (.error invalidSlot, [(xid, .error devId invalidSlot.report)])
  | some lrs => untilError ((lrs.map fun lr =>
      (unreturned lr.slotID, lr.reports.map fun r => (xid, Answer.report r.1 r.2))) ++
        [(.ok (), [(xid, .queryallFin)])])

namespace Control

/-- **What the switch answers** to a request: the result, the state afterwards, and the answers. -/
def answers (env : ParseEnv) (xid : UInt32) (c : Control) :
    Request → Option (ParseRet × Control × List (UInt32 × Answer))
  | .echoRequest => some (.ok (), c, [(xid, .echo)])
  | .setConfig flags missSendLen => some (.ok (), c.poflrSetConfig flags missSendLen, [])
  | .getConfigRequest =>
      some (.ok (), c, (xid, .config c.config) ::
        (c.slots.map fun lr => (xid, .resource { c.resource with slotID := lr.slotID })) ++
        c.slots.flatMap fun lr => lr.portPofIndexMap.order.map fun port =>
          (c.upwardXid, .portStatus 0 (portReportFillMsg c.devId (env.portRest port.addr) port)))
  | .portMod slotID portId ofEnable =>
      let r := PofSwitch.portMod slotID portId.toUInt32 ofEnable c.slots
      let said := refusals c.devId xid c.upwardXid [r.1]
      some (parseRet r.1, { c with slots := r.2, upwardXid := said.1 }, said.2)
  | .featuresRequest =>
      some (.ok (), c.poflrResetDevId, c.slots.map fun lr => (xid, .features (featuresOf env c lr)))
  | .mod msg =>
      match msg.call with
      | none => some (.error msg.badCommand.report, c, [(xid, .error c.devId msg.badCommand.report)])
      | some call =>
          (slotResults call env.alloc 0 c.slots).map fun rs =>
            let said := refusals c.devId xid c.upwardXid (rs.map Prod.fst)
            -- the result of the last slot
            (parseRet (rs.foldl (fun _ r => r.1) (.ok ())),
              { c with slots := rs.map Prod.snd, upwardXid := said.1 }, said.2)
  | .packetOut msg =>
      (packetOutEnd env.datapath msg c.upwardXid c.slots).map fun r =>
        (parseRet r.ret, { c with slots := r.slots, upwardXid := r.upwardXid },
          r.reports.map fun p => (p.1, .error c.devId p.2.report))
  | .counterRequest counterId =>
      let said := untilError (c.slots.map (counterAnswer c.devId xid counterId))
      some (parseRet said.1, c, said.2)
  | .queryallRequest slotID =>
      let said := queryAnswer env.unreturned c.devId xid slotID c.slots
      some (parseRet said.1, c, said.2)
  | .badType => some (.error badTypeReport, c, [(xid, .error c.devId badTypeReport)])

end Control

/-! ### What is queued -/

/-- Related options under functions that keep the relation. -/
theorem rel_map {α β γ δ : Type} {R : α → β → Prop} {R' : γ → δ → Prop} {f : α → γ} {g : β → δ}
    {x : Option α} {y : Option β} (h : Option.Rel R x y) (hfg : ∀ a b, R a b → R' (f a) (g b)) :
    Option.Rel R' (x.map f) (y.map g) := by
  cases h with
  | none => exact .none
  | some h => exact .some (hfg _ _ h)

section Queued

variable {env : ParseEnv} (hsends : env.state.sends = true)
include hsends

theorem Outbox.reply_speaks (devId xid : UInt32) {type : UInt8} {body : Buf} {r : Answer} (msgXid : UInt32)
    (hfits : headerSize + body.length ≤ recvBufMaxSize) (hread : answerOfBody type body = some r) (o : Outbox) :
    Speaks o (.ok ()) [(msgXid, r)] (o.reply env devId xid type msgXid body) := by
  rw [Outbox.reply_eq env devId xid hsends type msgXid hfits o]
  exact ⟨rfl, rfl, _, rfl, Conveys.one hfits hread⟩

theorem Outbox.error_grows {r : ErrorReport} (hfits : r.Fits) (devId xid : UInt32) (o : Outbox) :
    (o.error env devId xid r).upwardXid = o.upwardXid ∧
      Grows [(xid, .error devId r)] o.queue (o.error env devId xid r).queue := by
  rw [Outbox.error_eq env devId xid hsends hfits o]
  exact ⟨rfl, _, rfl, Conveys.error hfits devId xid _⟩

/-- What a request for a slot reports. -/
theorem Outbox.report_grows (devId xid : UInt32) (e : PofError) (o : Outbox) :
    (o.report env devId xid e).upwardXid = upwardAfter o.upwardXid e ∧
      Grows (refusal devId o.upwardXid xid e) o.queue (o.report env devId xid e).queue := by
  unfold Outbox.report upwardAfter refusal
  split_ifs with hrefused
  · obtain ⟨hup, hfirst⟩ := Outbox.error_grows hsends (fits_report badKeyLen) devId o.upwardXid o
    obtain ⟨hup', hsecond⟩ := Outbox.error_grows hsends (fits_report e) devId xid
      { o.error env devId o.upwardXid badKeyLen.report with
        upwardXid := (o.error env devId o.upwardXid badKeyLen.report).upwardXid + 1 }
    exact ⟨hup'.trans (congrArg (· + 1) hup), hfirst.trans hsecond⟩
  · exact Outbox.error_grows hsends (fits_report e) devId xid o

/-- What the slots report. -/
theorem Outbox.returned_grows (devId xid : UInt32) (ret : Ret) (o : Outbox) :
    (o.returned env devId xid ret).upwardXid = (refusals devId xid o.upwardXid [ret]).1 ∧
      Grows (refusals devId xid o.upwardXid [ret]).2 o.queue (o.returned env devId xid ret).queue := by
  cases ret with
  | ok _ => exact ⟨rfl, Grows.refl o.queue⟩
  | error e =>
      obtain ⟨hup, hgrows⟩ := Outbox.report_grows hsends devId xid e o
      refine ⟨hup, ?_⟩
      simp only [refusals, List.append_nil]
      exact hgrows

/-- The loop over the slots and what is queued in it. -/
theorem eachSlotReports_answers (devId xid : UInt32) (call : ℕ × ℕ → LrOp) (i : ℕ) (ret : Ret) (o : Outbox)
    (slots : List LocalResource) :
    Option.Rel (fun r rs => r.1 = rs.foldl (fun _ p => p.1) ret ∧ r.2.2 = rs.map Prod.snd ∧
        r.2.1.upwardXid = (refusals devId xid o.upwardXid (rs.map Prod.fst)).1 ∧
        Grows (refusals devId xid o.upwardXid (rs.map Prod.fst)).2 o.queue r.2.1.queue)
      (eachSlotReports env devId xid call i ret o slots) (slotResults call env.alloc i slots) := by
  induction slots generalizing i ret o with
  | nil => exact .some ⟨rfl, rfl, rfl, Grows.refl o.queue⟩
  | cons lr slots ih =>
      rw [eachSlotReports, slotResults]
      cases hexec : (call (env.alloc i)).exec lr with
      | none => exact .none
      | some r =>
          obtain ⟨hup, hgrows⟩ := Outbox.returned_grows hsends devId xid r.1 o
          have hrest := ih (i + 1) r.1 (o.returned env devId xid r.1)
          rw [hup] at hrest
          refine rel_map hrest ?_
          rintro rest rs ⟨hret, hslots, hup', hgrows'⟩
          refine ⟨hret, congrArg (r.2 :: ·) hslots, ?_, ?_⟩
          · rw [List.map_cons, refusals_cons]
            exact hup'
          · rw [List.map_cons, refusals_cons]
            exact hgrows.trans hgrows'

variable (c : Control)

theorem poflrReplyConfig_speaks (xid : UInt32) (o : Outbox) :
    Speaks o (.ok ()) [(xid, .config c.config)] (poflrReplyConfig env c xid o) := by
  have hlength : (pofHtoNTransferSwitchConfig (switchConfigBytes c.config)).length = 8 :=
    (length_transfer _ _).trans (length_switchConfigBytes _)
  exact Outbox.reply_speaks hsends c.devId xid xid (by rw [hlength]; decide) (answerOfBody_config c.config) o

theorem poflrReplyFeatureResource_speaks (xid : UInt32) (lr : LocalResource) (o : Outbox) :
    Speaks o (.ok ()) [(xid, .features (featuresOf env c lr))] (poflrReplyFeatureResource env c xid lr o) := by
  have hlength : (pofHtoNTransferSwitchFeatures (switchFeaturesBytes (featuresOf env c lr))).length = 208 :=
    (length_transfer _ _).trans (length_switchFeaturesBytes _)
  exact Outbox.reply_speaks hsends c.devId xid xid (by rw [hlength]; decide)
    (answerOfBody_features (shaped_featuresOf env c lr)) o

theorem poflrReplyTableResource_speaks (hdesc : c.resource.tblRscDesc.length = maxTableType) (xid : UInt32)
    (lr : LocalResource) (o : Outbox) :
    Speaks o (.ok ()) [(xid, .resource { c.resource with slotID := lr.slotID })]
      (poflrReplyTableResource env c xid lr o) := by
  refine Outbox.reply_speaks hsends c.devId xid xid ?_ (answerOfBody_resource ?_) o
  · rw [pofHtoNTransferFlowTableResource, length_transfer, length_flowTableResourceBytes]
    decide
  · exact hdesc

/-- The report of a port has the xid that the switch would use next. -/
theorem poflrPortReport_speaks (xid : UInt32) (reason : UInt8) (port : PortInfo) (o : Outbox) :
    Speaks o (.ok ())
      [(o.upwardXid, .portStatus reason (portReportFillMsg c.devId (env.portRest port.addr) port))]
      (poflrPortReport env c xid reason port o) := by
  have hlength : (pofHtoNTransferPortStatus (portStatusBytes reason
      (portReportFillMsg c.devId (env.portRest port.addr) port))).length = 128 :=
    (length_onData (fun _ => length_transfer _ _) _).trans (length_portStatusBytes _ _)
  exact Outbox.reply_speaks hsends c.devId xid o.upwardXid (by rw [hlength]; decide)
    (answerOfBody_portStatus reason (shaped_portReportFillMsg c.devId _ port)) o

/-- The ports of a slot. -/
theorem poflrReplyPortResource_speaks (xid : UInt32) (lr : LocalResource) (o : Outbox) :
    Speaks o (.ok ()) (lr.portPofIndexMap.order.map fun port =>
        (o.upwardXid, .portStatus 0 (portReportFillMsg c.devId (env.portRest port.addr) port)))
      (poflrReplyPortResource env c xid lr o) := by
  have hloop : ∀ (ports : List PortInfo) (o : Outbox), Speaks o (.ok ())
      (ports.map fun port =>
        (o.upwardXid, Answer.portStatus 0 (portReportFillMsg c.devId (env.portRest port.addr) port)))
      (.ok (), ports.foldl (fun o port => (poflrPortReport env c xid 0 port o).2) o) := by
    intro ports
    induction ports with
    | nil => exact fun o => ⟨rfl, rfl, Grows.refl o.queue⟩
    | cons port ports ih =>
        intro o
        obtain ⟨-, hup, hgrows⟩ := poflrPortReport_speaks hsends c xid 0 port o
        obtain ⟨-, hup', hgrows'⟩ := ih (poflrPortReport env c xid 0 port o).2
        rw [hup] at hup' hgrows'
        exact ⟨rfl, hup', hgrows.trans hgrows'⟩
  exact hloop _ o

/-- The value of a counter. -/
theorem poflrGetCounterValue_speaks (xid counterId : UInt32) (lr : LocalResource) (o : Outbox) :
    Speaks o (counterAnswer c.devId xid counterId lr).1 (counterAnswer c.devId xid counterId lr).2
      (poflrGetCounterValue env c xid lr counterId o) := by
  have hrefuse : ∀ code : ErrCode, Speaks o (.error ⟨.counterModFailed, code⟩)
      [(xid, .error c.devId (PofError.report ⟨.counterModFailed, code⟩))]
      (.error ⟨.counterModFailed, code⟩, o.report env c.devId xid ⟨.counterModFailed, code⟩) := by
    intro code
    have hne : (⟨.counterModFailed, code⟩ : PofError) ≠ entryRefused := by
      intro h
      cases h
    rw [Outbox.report, if_neg hne]
    obtain ⟨hup, hgrows⟩ := Outbox.error_grows hsends (fits_report ⟨.counterModFailed, code⟩) c.devId xid o
    exact ⟨rfl, hup, hgrows⟩
  unfold poflrGetCounterValue counterAnswer
  split_ifs
  · exact hrefuse _
  · cases poflrGetCounterWithID counterId lr with
    | none => exact hrefuse _
    | some counter =>
        have hlength : (pofNtoHTransferCounter (counterBytes [] queryResult lr.slotID counterId counter.value
            counter.byteValue)).length = 24 := by
          rw [pofNtoHTransferCounter, length_transfer, length_counterBytes]
        refine Outbox.reply_speaks hsends c.devId xid xid (by rw [hlength]; decide) ?_ o
        refine answerOfBody_of_decodeBody
          (r := (lr.slotID, .counter counterId counter.value counter.byteValue)) ?_
        rw [decodeBody_counter (pofNtoHTransferCounter_twice length_counterBytes), half_counterBytes,
          counterOf_counterBytes]

/-- The errors of the actions of a `POFT_PACKET_OUT`. -/
theorem reported_grows (devId : UInt32) (errors : List (UInt32 × PofError)) (o : Outbox) :
    Grows (errors.map fun p => (p.1, .error devId p.2.report)) o.queue
      (errors.foldl (fun o p => o.error env devId p.1 p.2.report) o).queue := by
  induction errors generalizing o with
  | nil => exact Grows.refl o.queue
  | cons p errors ih =>
      obtain ⟨-, hgrows⟩ := Outbox.error_grows hsends (fits_report p.2) devId p.1 o
      exact hgrows.trans (ih _)

end Queued

/-! ### What is queued for a query -/

section Query

variable {nums : Vector UInt16 4} (htotal : (nums.toList.map UInt16.toNat).sum ≤ 256)
  {slots : List LocalResource} (hslots : ∀ lr ∈ slots, Queryable nums lr)
include htotal hslots

theorem queryallRequest_answers {env : QueryEnv} (hsends : env.state.sends = true) (slotID : UInt16)
    (queue : List Buf) :
    (queryallRequest slotID slots env queue).1 =
        (queryAnswer env.unreturned env.devId env.xid slotID slots).1 ∧
      Grows (queryAnswer env.unreturned env.devId env.xid slotID slots).2 queue
        (queryallRequest slotID slots env queue).2 := by
  have hsent : ∀ addr, (env.reply addr).state.sends = true := fun _ => hsends
  unfold queryallRequest queryAnswer
  cases hqueried : queriedSlots slotID slots with
  | none =>
      refine ⟨rfl, [errorMsg invalidSlot.report env.devId env.xid (env.mem 0)], ?_, ?_⟩
      · exact pofecReplyError_eq (fits_report _) _ (hsent 0) queue
      · exact Conveys.error (fits_report _) _ _ _
  | some lrs =>
      have hloop := replyEach_until (g := fun lr queue => poflrReplyQueryall lr env queue)
        (f := fun lr => (env.unreturned lr.slotID, lr.reports.map fun r => (env.xid, Answer.report r.1 r.2)))
        (P := fun _ => True) (Q := Grows) (l := lrs) Grows.refl (fun _ _ _ _ _ => Grows.trans)
        (fun lr hlr queue _ => by
          have hmem := hslots lr (mem_of_queriedSlots hqueried lr hlr)
          obtain ⟨msgs, hcall, hdecode, hmsgs⟩ :=
            poflrReplyQueryall_says (tablesFit_of_sum_le htotal) hmem.run hmem.nums_eq hsends queue
          rw [hcall]
          exact ⟨rfl, trivial, msgs, rfl, Conveys.reports hdecode hmsgs⟩) (s := queue) trivial
      obtain ⟨hret, -, hgrows⟩ := hloop
      simp only [untilError_concat]
      cases hr : replyEach (fun lr queue => poflrReplyQueryall lr env queue) lrs queue with
      | mk ret queue' =>
          rw [hr] at hret hgrows
          rw [← hret]
          cases ret with
          | error e => exact ⟨rfl, hgrows⟩
          | ok _ =>
              have hfits : headerSize + ([] : Buf).length ≤ recvBufMaxSize := by decide
              have hfin : pofecReplyMsg poftQueryallFin (env.reply 0) [] queue' =
                  (.ok (), queue' ++ [upwardMsg poftQueryallFin env.xid []]) := by
                rw [pofecReplyMsg_eq hfits, hsent 0]
                rfl
              simp only [hfin]
              exact ⟨trivial, hgrows.trans ⟨_, rfl, Conveys.one hfits rfl⟩⟩

end Query

/-! ### The handler -/

/-- What has been done for a request is what the switch answers. -/
def Answered (o : Outbox) (r : ParseRet × Control × Outbox) (a : ParseRet × Control × List (UInt32 × Answer)) :
    Prop :=
  r.1 = a.1 ∧ { r.2.1 with upwardXid := r.2.2.upwardXid } = a.2.1 ∧ Grows a.2.2 o.queue r.2.2.queue

theorem Speaks.answered {o : Outbox} {ret : Ret} {said : List (UInt32 × Answer)} {r : Ret × Outbox} {c : Control}
    (h : Speaks o ret said r) (hup : o.upwardXid = c.upwardXid) :
    Answered o (Control.parseRet r.1, c, r.2) (Control.parseRet ret, c, said) := by
  obtain ⟨hret, hup', hgrows⟩ := h
  refine ⟨congrArg Control.parseRet hret, ?_, hgrows⟩
  simp only [hup', hup]

namespace Control

/-- What the switch can be asked for: the slots can be queried, and the resources are described for all types
of tables. -/
structure Ok (nums : Vector UInt16 4) (c : Control) : Prop where
  slots : ∀ lr ∈ c.slots, Queryable nums lr
  resource : c.resource.tblRscDesc.length = maxTableType

/-- **What is queued for a request is what the switch answers.** -/
theorem handle_answers {nums : Vector UInt16 4} (htotal : (nums.toList.map UInt16.toNat).sum ≤ 256)
    {c : Control} (hc : c.Ok nums) {env : ParseEnv} (hsends : env.state.sends = true) (xid : UInt32) {o : Outbox}
    (hup : o.upwardXid = c.upwardXid) (req : Request) :
    Option.Rel (Answered o) (c.handle env xid o req) (c.answers env xid req) := by
  cases req with
  | echoRequest =>
      have hfits : headerSize + ([] : Buf).length ≤ recvBufMaxSize := by decide
      exact .some ((Outbox.reply_speaks (r := .echo) hsends c.devId xid xid hfits rfl o).answered hup)
  | setConfig flags missSendLen =>
      refine .some ⟨rfl, ?_, Grows.refl o.queue⟩
      simp only [hup]
      rfl
  | getConfigRequest =>
      have hconfig := poflrReplyConfig_speaks hsends c xid o
      have hresources := replyEach_speaks_ok (l := c.slots)
        (fun lr _ o _ => poflrReplyTableResource_speaks hsends c hc.resource xid lr o) (hconfig.2.1.trans hup)
      have hports := replyEach_speaks_ok (l := c.slots) (fun lr _ o ho => by
        have hspeaks := poflrReplyPortResource_speaks hsends c xid lr o
        rwa [ho] at hspeaks) (hresources.2.1.trans (hconfig.2.1.trans hup))
      rw [← List.map_eq_flatMap] at hresources
      have hall : Speaks o (.ok ()) _ (replyEach (fun reply o => reply o) [poflrReplyConfig env c xid,
          replyEach (poflrReplyTableResource env c xid) c.slots,
          replyEach (poflrReplyPortResource env c xid) c.slots] o) :=
        Speaks.cons hconfig (Speaks.cons hresources (Speaks.cons hports (speaks_nil _ _)))
      rw [List.append_nil] at hall
      exact .some (hall.answered hup)
  | portMod slotID portId ofEnable =>
      obtain ⟨hup', hgrows⟩ := Outbox.returned_grows hsends c.devId xid
        (PofSwitch.portMod slotID portId.toUInt32 ofEnable c.slots).1 o
      rw [hup] at hup' hgrows
      refine .some ⟨rfl, ?_, hgrows⟩
      simp only [hup']
  | featuresRequest =>
      have hloop := replyEach_speaks_ok (l := c.slots) (fun lr _ o _ =>
        poflrReplyFeatureResource_speaks hsends c.poflrResetDevId xid lr o) hup
      rw [← List.map_eq_flatMap] at hloop
      exact .some (hloop.answered (c := c.poflrResetDevId) hup)
  | mod msg =>
      simp only [handle, answers]
      cases hcall : msg.call with
      | none =>
          obtain ⟨hup', hgrows⟩ := Outbox.error_grows hsends (fits_report msg.badCommand) c.devId xid o
          refine .some ⟨rfl, ?_, hgrows⟩
          simp only [hup', hup]
      | some call =>
          refine rel_map (eachSlotReports_answers hsends c.devId xid call 0 (.ok ()) o c.slots) ?_
          rintro r rs ⟨hret, hslots, hup', hgrows⟩
          rw [hup] at hup' hgrows
          refine ⟨congrArg parseRet hret, ?_, hgrows⟩
          simp only [hslots, hup']
  | packetOut msg =>
      simp only [handle, answers, hup]
      cases packetOutEnd env.datapath msg c.upwardXid c.slots with
      | none => exact .none
      | some r => exact .some ⟨rfl, rfl, reported_grows hsends c.devId r.reports o⟩
  | counterRequest counterId =>
      have hloop := replyEach_speaks (f := counterAnswer c.devId xid counterId) (l := c.slots)
        (fun lr _ o _ => poflrGetCounterValue_speaks hsends c xid counterId lr o) hup
      exact .some (hloop.answered hup)
  | queryallRequest slotID =>
      let query : QueryEnv := ⟨env.state, xid, c.devId,
        fun addr => if addr = 0 then env.msgBuf 0 else env.mem addr, env.unreturned⟩
      have hquery : query.state.sends = true := hsends
      obtain ⟨hret, hgrows⟩ := queryallRequest_answers htotal hc.slots hquery slotID o.queue
      refine .some ⟨congrArg parseRet hret, ?_, hgrows⟩
      simp only [hup]
  | badType =>
      obtain ⟨hup', hgrows⟩ := Outbox.error_grows hsends fits_badTypeReport c.devId xid o
      refine .some ⟨rfl, ?_, hgrows⟩
      simp only [hup', hup]

end Control

end PofSwitch
