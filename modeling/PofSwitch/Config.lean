/-
**The configuration file.**

`readConfigFile` reads words in pairs, the name of a parameter and its value, and stores the values
in the parameters of the datapath, from where `fill_localresource_param` copies them into every slot.
A file is the list of the words that the calls of `fscanf` return one after the other, each short
enough for the array it is read into.  The values go through `atoi` and are cut to the width of the
field; nothing else is checked.

Main definitions:

* `PofSwitch.ConfigType`, `PofSwitch.pofsicGetConfigType`, `PofSwitch.pofsicGetConfigData`;
* `PofSwitch.readConfigFile`, `PofSwitch.fillLocalresourceParam`;
* `PofSwitch.AcceptsTableNumbers` — the numbers of tables are the ones of a file that is accepted.

Main results:

* `PofSwitch.acceptsTableNumbers` — every four numbers of 16 bits are accepted.
-/

import Mathlib.Data.List.TakeWhile
import Mathlib.Tactic.IntervalCases
import PofSwitch.LocalResource

set_option relaxedAutoImplicit false
set_option autoImplicit false

namespace PofSwitch

/-! ### Parameters -/

/-- `POF_OK`. -/
def pofOk : UInt32 := 0

/-- `POF_ERROR`. -/
def pofError : UInt32 := 0xffff

/-- `POF_IP_ADDRESS_STRING_LEN`. -/
def ipAddressStringLen : ℕ := 20

/-- `pof_param`, with an array of `POF_MAX_TABLE_TYPE` numbers. -/
structure PofParam where
  portNumMax : UInt16
  tableNumMaxEachType : Vector UInt16 4
  tableSizeMax : UInt32
  groupNumMax : UInt32
  meterNumMax : UInt32
  counterNumMax : UInt32

/-- What the configuration file sets: the parameters, and three variables outside of them. -/
structure SwitchConfig where
  controllerIpAddr : List Char
  controllerPort : UInt16
  keyLen : UInt32
  param : PofParam

/-- `fill_localresource_param`. -/
def fillLocalresourceParam (lr : LocalResource) (param : PofParam) : LocalResource :=
  { lr with
    tableNumMaxEachType := param.tableNumMaxEachType.toList
    tableSizeMax := param.tableSizeMax
    groupNumMax := param.groupNumMax
    meterNumMax := param.meterNumMax
    counterNumMax := param.counterNumMax }

/-! ### Words -/

/-- The number that the decimal digits at the front of a word stand for. -/
def decimal (str : List Char) : ℤ := Nat.ofDigitChars 10 (str.takeWhile Char.isDigit) 0

/-- `strtol` with base `10`, of a word without blanks; a `long` has 64 bits. -/
def strtol (str : List Char) : ℤ :=
  match str with
  | '-' :: str => max (-2 ^ 63) (-decimal str)
  | '+' :: str => min (2 ^ 63 - 1) (decimal str)
  | str => min (2 ^ 63 - 1) (decimal str)

/-- `atoi`, as it is returned in a `uint32_t`. -/
def atoi (str : String) : UInt32 := UInt32.ofInt (strtol str.toList)

/-- `pof_init_config_type`. -/
inductive ConfigType
  | controllerIp | connectionPort | mmTableNumber | lpmTableNumber | emTableNumber | dtTableNumber
  | flowTableSize | flowTableKeyLength | meterNumber | counterNumber | groupNumber
  | devicePortNumberMax
deriving DecidableEq, Repr

/-- The types in the order of their numbers. -/
def ConfigType.all : List ConfigType :=
  [controllerIp, connectionPort, mmTableNumber, lpmTableNumber, emTableNumber, dtTableNumber,
    flowTableSize, flowTableKeyLength, meterNumber, counterNumber, groupNumber, devicePortNumberMax]

/-- `config_type_str`. -/
def configTypeStr : ConfigType → String
  | .controllerIp => "Controller_IP"
  | .connectionPort => "Connection_port"
  | .mmTableNumber => "MM_table_number"
  | .lpmTableNumber => "LPM_table_number"
  | .emTableNumber => "EM_table_number"
  | .dtTableNumber => "DT_table_number"
  | .flowTableSize => "Flow_table_size"
  | .flowTableKeyLength => "Flow_table_key_length"
  | .meterNumber => "Meter_number"
  | .counterNumber => "Counter_number"
  | .groupNumber => "Group_number"
  | .devicePortNumberMax => "Device_port_number_max"

/-- `pofsic_get_config_type`; `none` stands for `0xff`. -/
def pofsicGetConfigType (str : String) : Option ConfigType :=
  ConfigType.all.find? fun type => configTypeStr type = str

/-- `pofsic_get_config_data`: what becomes of `ret`, and the value. -/
def pofsicGetConfigData (str : Option String) : UInt32 × UInt32 :=
  match str with
  | none => (pofError, pofError)
  | some str => (pofOk, atoi str)

/-! ### Reading -/

/-- The `switch` of `readConfigFile`; the address has no case there. -/
def storeConfigData (type : ConfigType) (data : UInt32) (cfg : SwitchConfig) : Option SwitchConfig :=
  let param := cfg.param
  let nums := param.tableNumMaxEachType
  match type with
  | .controllerIp => none
  | .connectionPort => some { cfg with controllerPort := data.toUInt16 }
  | .mmTableNumber =>
      some { cfg with param := { param with tableNumMaxEachType := nums.set 0 data.toUInt16 } }
  | .lpmTableNumber =>
      some { cfg with param := { param with tableNumMaxEachType := nums.set 1 data.toUInt16 } }
  | .emTableNumber =>
      some { cfg with param := { param with tableNumMaxEachType := nums.set 2 data.toUInt16 } }
  | .dtTableNumber =>
      some { cfg with param := { param with tableNumMaxEachType := nums.set 3 data.toUInt16 } }
  | .flowTableSize => some { cfg with param := { param with tableSizeMax := data } }
  | .flowTableKeyLength => some { cfg with keyLen := data }
  | .meterNumber => some { cfg with param := { param with meterNumMax := data } }
  | .counterNumber => some { cfg with param := { param with counterNumMax := data } }
  | .groupNumber => some { cfg with param := { param with groupNumMax := data } }
  | .devicePortNumberMax => some { cfg with param := { param with portNumMax := data.toUInt16 } }

/-- One turn of the loop of `readConfigFile`, on a name and the word behind it. -/
def configStep (str : String) (next : Option String) (cfg : SwitchConfig) : UInt32 × SwitchConfig :=
  match pofsicGetConfigType str with
  | some .controllerIp =>
      match next with
      | none => (pofError, cfg)
      | some ip => (pofOk, { cfg with controllerIpAddr := ip.toList.take ipAddressStringLen })
  | type =>
      -- the value is read and stored before the result of reading it is looked at
      let (ret, data) := pofsicGetConfigData next
      match type.bind fun type => storeConfigData type data cfg with
      | none => (pofError, cfg)
      | some cfg => (ret, cfg)

/-- `readConfigFile`. -/
def readConfigFile : List String → SwitchConfig → UInt32 × SwitchConfig
  | [], cfg => (pofOk, cfg)
  | [str], cfg => configStep str none cfg
  | str :: next :: file, cfg =>
      let (ret, cfg) := configStep str (some next) cfg
      if ret ≠ pofOk then (ret, cfg) else readConfigFile file cfg

/-- The numbers of tables are the ones of a file that is accepted. -/
def AcceptsTableNumbers (nums : Vector UInt16 4) : Prop :=
  ∃ file cfg, (readConfigFile file cfg).1 = pofOk ∧
    (readConfigFile file cfg).2.param.tableNumMaxEachType = nums

/-! ### Every number is accepted -/

theorem strtol_toDigits (n : ℕ) (h : n < 2 ^ 63) : strtol (Nat.toDigits 10 n) = n := by
  have hdigits : ∀ c ∈ Nat.toDigits 10 n, c.isDigit :=
    fun c hc => Nat.isDigit_of_mem_toDigits (by omega) (by omega) hc
  have hdecimal : decimal (Nat.toDigits 10 n) = n := by
    rw [decimal, List.takeWhile_eq_self_iff.2 hdigits, Nat.ofDigitChars_ten_toDigits]
  unfold strtol
  split
  · rename_i heq
    have hminus := hdigits '-' (by rw [heq]; exact List.mem_cons_self)
    cases hminus
  · rename_i heq
    have hplus := hdigits '+' (by rw [heq]; exact List.mem_cons_self)
    cases hplus
  · rw [hdecimal]
    omega

theorem atoi_repr (n : UInt16) : (atoi n.toNat.repr).toUInt16 = n := by
  have hn := n.toNat_lt
  rw [atoi, Nat.toList_repr, strtol_toDigits _ (by omega)]
  have hcut : (UInt32.ofInt (n.toNat : ℤ)).toNat = n.toNat := by
    rw [UInt32.ofInt, UInt32.toNat_ofNat']
    omega
  refine UInt16.toNat_inj.1 ?_
  rw [UInt32.toNat_toUInt16, hcut, Nat.mod_eq_of_lt hn]

/-- A file with the four numbers. -/
def tableNumberWords (nums : Vector UInt16 4) : List String :=
  ["MM_table_number", nums[0].toNat.repr, "LPM_table_number", nums[1].toNat.repr,
    "EM_table_number", nums[2].toNat.repr, "DT_table_number", nums[3].toNat.repr]

theorem readConfigFile_tableNumberWords (nums : Vector UInt16 4) (cfg : SwitchConfig) :
    readConfigFile (tableNumberWords nums) cfg =
      (pofOk, { cfg with param := { cfg.param with tableNumMaxEachType := nums } }) := by
  have hmm : pofsicGetConfigType "MM_table_number" = some .mmTableNumber := by decide
  have hlpm : pofsicGetConfigType "LPM_table_number" = some .lpmTableNumber := by decide
  have hem : pofsicGetConfigType "EM_table_number" = some .emTableNumber := by decide
  have hdt : pofsicGetConfigType "DT_table_number" = some .dtTableNumber := by decide
  have hset : (((cfg.param.tableNumMaxEachType.set 0 nums[0]).set 1 nums[1]).set 2 nums[2]).set 3
      nums[3] = nums := by
    ext i hi
    interval_cases i <;> simp
  simp [tableNumberWords, readConfigFile, configStep, hmm, hlpm, hem, hdt, pofsicGetConfigData,
    storeConfigData, atoi_repr, hset]

/-- **No four numbers of tables are refused.** -/
theorem acceptsTableNumbers (nums : Vector UInt16 4) : AcceptsTableNumbers nums := by
  let cfg : SwitchConfig := ⟨[], 0, 0, ⟨0, Vector.replicate 4 0, 0, 0, 0, 0⟩⟩
  refine ⟨tableNumberWords nums, cfg, ?_⟩
  rw [readConfigFile_tableNumberWords]
  exact ⟨rfl, rfl⟩

end PofSwitch
