/-
**Errors in messages: `pofec_reply_error` of `switch_control/pof_encap.c`.**

Where a function returns an error by `POF_ERROR_HANDLE_RETURN_UPWARD`, a `POFT_ERROR` goes to the controller
with the type of the error, its number and its name.  The message is put together in a buffer that all
tasks share: behind the name stands what was there before.

Main definitions:

* `PofSwitch.ErrType.value`, `PofSwitch.ErrCode.value`, `PofSwitch.ErrCode.text` — the enumerations;
* `PofSwitch.ErrorReport`, `PofSwitch.errorBytes`, `PofSwitch.errorOf` — a `pof_error`, written and read;
* `PofSwitch.pofecReplyError` — the call.

Main results:

* `PofSwitch.errorOf_errorBytes` — **what is written is read**;
* `PofSwitch.pofecReplyError_eq` — where the channel sends, one message is queued.
-/

import PofSwitch.EntryReply
import PofSwitch.Wire

set_option relaxedAutoImplicit false
set_option autoImplicit false

namespace PofSwitch

open Buf

/-! ### The enumerations -/

/-- The number of an error type. -/
def ErrType.value : ErrType → UInt16
  | .helloFailed => 0
  | .badRequest => 1
  | .badAction => 2
  | .badInstruction => 3
  | .badMatch => 4
  | .flowModFailed => 5
  | .groupModFailed => 6
  | .portModFailed => 7
  | .tableModFailed => 8
  | .switchConfigFailed => 10
  | .meterModFailed => 12
  | .softwareFailed => 14
  | .counterModFailed => 15

namespace ErrCode

/-- The number of an error code.  The enumerations give no number after the tenth of `POFFMFC_*`, after the
fourth of `POFTMFC_*` and after the last of some others; `POFBIC_BAD_TABLE_ID` and `POFBIC_BAD_TABLE_TYPE`
have the same one. -/
def value : ErrCode → UInt16
  | poffmfcUnknown => 0
  | poffmfcBadTableId => 2
  | poffmfcBadCommand => 6
  | poffmfcEntryUnexist => 9
  | poffmfcBadTableType => 10
  | poffmfcBadEntryId => 11
  | poftmfcUnknown => 0
  | poftmfcBadCommand => 1
  | poftmfcBadTableType => 2
  | poftmfcBadTableId => 3
  | poftmfcTableExist => 4
  | poftmfcTableUnexist => 5
  | poftmfcBadTableSize => 6
  | poftmfcBadKeyLen => 7
  | poftmfcTableUnempty => 8
  | pofgmfcGroupExists => 0
  | pofgmfcInvalidGroup => 1
  | pofgmfcUnknownGroup => 8
  | pofgmfcBadCommand => 11
  | pofgmfcBadCounterId => 15
  | pofmmfcMeterExists => 1
  | pofmmfcInvalidMeter => 2
  | pofmmfcUnknownMeter => 3
  | pofmmfcBadCommand => 4
  | pofpmfcBadPortId => 1
  | pofcmfcBadCounterId => 1
  | pofcmfcBadCommand => 2
  | pofcmfcCounterUnexist => 3
  | pofbicUnknownInst => 0
  | pofbicUnsupInst => 1
  | pofbicBadTableId => 2
  | pofbicBadTableType => 2
  | pofbicEntryUnexist => 18
  | pofbicJumToInvalidInst => 20
  | pofbacBadType => 0
  | pofbacBadLen => 1
  | pofbmcBadLen => 1
  | pofPacketLenError => 0x1001
  | pofMetadataLenError => 0x1002
  | pofFieldLenError => 0x1004
  | pofInvalidSlotId => 0x5006
  | pofSendMsgFailure => 0x7003
  | pofWriteMsgQueueFailure => 0x7006
  | pofBadTableId => 0x600C
  | pofError => 0xFFFF

/-- The name of an error code, as the macro makes a string of it. -/
def name : ErrCode → String
  | poffmfcUnknown => "POFFMFC_UNKNOWN"
  | poffmfcBadTableId => "POFFMFC_BAD_TABLE_ID"
  | poffmfcBadCommand => "POFFMFC_BAD_COMMAND"
  | poffmfcEntryUnexist => "POFFMFC_ENTRY_UNEXIST"
  | poffmfcBadTableType => "POFFMFC_BAD_TABLE_TYPE"
  | poffmfcBadEntryId => "POFFMFC_BAD_ENTRY_ID"
  | poftmfcUnknown => "POFTMFC_UNKNOWN"
  | poftmfcBadCommand => "POFTMFC_BAD_COMMAND"
  | poftmfcBadTableType => "POFTMFC_BAD_TABLE_TYPE"
  | poftmfcBadTableId => "POFTMFC_BAD_TABLE_ID"
  | poftmfcTableExist => "POFTMFC_TABLE_EXIST"
  | poftmfcTableUnexist => "POFTMFC_TABLE_UNEXIST"
  | poftmfcBadTableSize => "POFTMFC_BAD_TABLE_SIZE"
  | poftmfcBadKeyLen => "POFTMFC_BAD_KEY_LEN"
  | poftmfcTableUnempty => "POFTMFC_TABLE_UNEMPTY"
  | pofgmfcGroupExists => "POFGMFC_GROUP_EXISTS"
  | pofgmfcInvalidGroup => "POFGMFC_INVALID_GROUP"
  | pofgmfcUnknownGroup => "POFGMFC_UNKNOWN_GROUP"
  | pofgmfcBadCommand => "POFGMFC_BAD_COMMAND"
  | pofgmfcBadCounterId => "POFGMFC_BAD_COUNTER_ID"
  | pofmmfcMeterExists => "POFMMFC_METER_EXISTS"
  | pofmmfcInvalidMeter => "POFMMFC_INVALID_METER"
  | pofmmfcUnknownMeter => "POFMMFC_UNKNOWN_METER"
  | pofmmfcBadCommand => "POFMMFC_BAD_COMMAND"
  | pofpmfcBadPortId => "POFPMFC_BAD_PORT_ID"
  | pofcmfcBadCounterId => "POFCMFC_BAD_COUNTER_ID"
  | pofcmfcBadCommand => "POFCMFC_BAD_COMMAND"
  | pofcmfcCounterUnexist => "POFCMFC_COUNTER_UNEXIST"
  | pofbicUnknownInst => "POFBIC_UNKNOWN_INST"
  | pofbicUnsupInst => "POFBIC_UNSUP_INST"
  | pofbicBadTableId => "POFBIC_BAD_TABLE_ID"
  | pofbicBadTableType => "POFBIC_BAD_TABLE_TYPE"
  | pofbicEntryUnexist => "POFBIC_ENTRY_UNEXIST"
  | pofbicJumToInvalidInst => "POFBIC_JUM_TO_INVALID_INST"
  | pofbacBadType => "POFBAC_BAD_TYPE"
  | pofbacBadLen => "POFBAC_BAD_LEN"
  | pofbmcBadLen => "POFBMC_BAD_LEN"
  | pofPacketLenError => "POF_PACKET_LEN_ERROR"
  | pofMetadataLenError => "POF_METADATA_LEN_ERROR"
  | pofFieldLenError => "POF_FIELD_LEN_ERROR"
  | pofInvalidSlotId => "POF_INVALID_SLOT_ID"
  | pofSendMsgFailure => "POF_SEND_MSG_FAILURE"
  | pofWriteMsgQueueFailure => "POF_WRITE_MSG_QUEUE_FAILURE"
  | pofBadTableId => "POF_BAD_TABLE_ID"
  | pofError => "POF_ERROR"

end ErrCode

/-- The bytes of a string, without the terminator. -/
def cString (s : String) : Buf := s.toByteArray.data.toList

/-- The arguments `type`, `code` and `s` of `pofec_reply_error`. -/
structure ErrorReport where
  type : UInt16
  code : UInt16
  text : Buf
deriving DecidableEq, Repr

/-- What is reported of an error. -/
def PofError.report (e : PofError) : ErrorReport := ⟨e.type.value, e.code.value, cString e.code.name⟩

/-- `POFET_BAD_REQUEST` with `POFBRC_BAD_TYPE`. -/
def badTypeReport : ErrorReport := ⟨1, 1, cString "POFBRC_BAD_TYPE"⟩

/-! ### The structure -/

/-- `POF_ERROR_STRING_MAX_LENGTH`. -/
def errorStringMaxLength : ℕ := 256

/-- The name is a string that fits `err_str` with its terminator. -/
structure ErrorReport.Fits (r : ErrorReport) : Prop where
  noZero : r.text.all (fun b => b != 0) = true
  short : r.text.length < errorStringMaxLength

instance (r : ErrorReport) : Decidable r.Fits :=
  decidable_of_iff (r.text.all (fun b => b != 0) = true ∧ r.text.length < errorStringMaxLength)
    ⟨fun h => ⟨h.1, h.2⟩, fun h => ⟨h.noZero, h.short⟩⟩

/-- A `pof_error` in memory `mem`, for the device and the slot `POF_SLOT_ID_BASE`. -/
def errorBytes (mem : Buf) (deviceId : UInt32) (r : ErrorReport) : Buf :=
  [storeLE r.type.toNat 2, storeLE r.code.toNat 2, storeLE deviceId.toNat 4, storeLE 0 2, bytesAt mem 10 6,
    r.text ++ [0] ++ bytesAt mem (17 + r.text.length) (errorStringMaxLength - (r.text.length + 1))].flatten

/-- `pof_NtoH_transfer_error`. -/
def pofNtoHTransferError : Buf → Buf := transfer [.half 8, .half 0, .half 2, .word 4]

/-- The device, the slot and the error in a `pof_error`. -/
def errorOf (b : Buf) : UInt32 × UInt16 × ErrorReport :=
  (word b 4, half b 8, ⟨half b 0, half b 2, (b.drop 16).takeWhile fun c => c != 0⟩)

section ErrorBytes

variable {mem : Buf} {deviceId : UInt32} {r : ErrorReport}

theorem ErrorReport.Fits.length_errorBytes (h : r.Fits) : (errorBytes mem deviceId r).length = 272 := by
  have hshort : r.text.length < 256 := h.short
  simp only [errorBytes, List.flatten_cons, List.flatten_nil, List.length_append, length_storeLE, length_bytesAt,
    List.length_singleton, List.length_nil, errorStringMaxLength]
  omega

/-- **An error is read again from where it is written to.** -/
theorem errorOf_errorBytes (h : r.Fits) : errorOf (errorBytes mem deviceId r) = (deviceId, 0, r) := by
  have htext : ((errorBytes mem deviceId r).drop 16).takeWhile (fun c => c != 0) = r.text := by
    have hdrop : (errorBytes mem deviceId r).drop 16 =
        r.text ++ [0] ++ bytesAt mem (17 + r.text.length) (errorStringMaxLength - (r.text.length + 1)) ++ [] :=
      drop_piece (i := 5) (p := 16) rfl rfl
    rw [hdrop, List.append_nil, List.append_assoc, List.takeWhile_append_of_pos (List.all_eq_true.1 h.noZero)]
    simp
  have hdevice : word (errorBytes mem deviceId r) 4 = deviceId := word_piece (i := 2) rfl rfl
  have hslot : half (errorBytes mem deviceId r) 8 = 0 := half_piece (i := 3) (v := 0) rfl rfl
  have htype : half (errorBytes mem deviceId r) 0 = r.type := half_piece (i := 0) rfl rfl
  have hcode : half (errorBytes mem deviceId r) 2 = r.code := half_piece (i := 1) rfl rfl
  rw [errorOf, htext, hdevice, hslot, htype, hcode]

theorem pofNtoHTransferError_twice {b : Buf} (hb : b.length = 272) :
    pofNtoHTransferError (pofNtoHTransferError b) = b :=
  transfer_transfer (n := 272) (by decide) hb.ge

end ErrorBytes

/-! ### The message -/

/-- `POFT_ERROR`. -/
def poftError : UInt8 := 1

/-- `pofec_reply_error`: the queue afterwards.  `env.mem` is `pofec_queue_msg_buf` behind the header.  A
message of this length is never too long for the queue, so that the error of a failed call is not made. -/
def pofecReplyError (r : ErrorReport) (deviceId : UInt32) (env : ReplyEnv) (queue : List Buf) : List Buf :=
  (pofecReplyMsg poftError env (pofNtoHTransferError (errorBytes env.mem deviceId r)) queue).2

/-- The message that reports an error. -/
def errorMsg (r : ErrorReport) (deviceId xid : UInt32) (mem : Buf) : Buf :=
  upwardMsg poftError xid (pofNtoHTransferError (errorBytes mem deviceId r))

theorem ErrorReport.Fits.length_body {mem : Buf} {deviceId : UInt32} {r : ErrorReport} (h : r.Fits) :
    (pofNtoHTransferError (errorBytes mem deviceId r)).length = 272 :=
  (length_transfer _ _).trans h.length_errorBytes

/-- **Where the channel sends, one message is queued.** -/
theorem pofecReplyError_eq {r : ErrorReport} (h : r.Fits) (deviceId : UInt32) {env : ReplyEnv}
    (hsends : env.state.sends = true) (queue : List Buf) :
    pofecReplyError r deviceId env queue = queue ++ [errorMsg r deviceId env.xid env.mem] := by
  have hfits : headerSize + (pofNtoHTransferError (errorBytes env.mem deviceId r)).length ≤ recvBufMaxSize := by
    rw [h.length_body]
    decide
  rw [pofecReplyError, pofecReplyMsg_eq hfits, hsends]
  rfl

theorem fits_badTypeReport : badTypeReport.Fits := by decide +kernel

/-- The name of every error fits. -/
theorem fits_report (e : PofError) : e.report.Fits := by
  have hname : ∀ c : ErrCode, (⟨0, 0, cString c.name⟩ : ErrorReport).Fits := by
    intro c
    cases c <;> (simp only [ErrCode.name]; decide +kernel)
  exact ⟨(hname e.code).noZero, (hname e.code).short⟩

end PofSwitch
