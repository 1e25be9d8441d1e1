import MbedtlsKcp.CJson
import MbedtlsKcp.CStrings

/-!
# The parameters of a hub as JSON

`model.c`.  A table gives every parameter a type and a key; one switch writes
the fields of a hub under their keys and another reads them back.  Booleans are
kept in 32 bits and read back through a pointer to a one-byte `bool`, so that
the low byte alone is stored.  Arguments are not NULL and allocation succeeds.
-/

namespace MbedtlsKcp

namespace HubModel

open CJson CStrings

/-- `char name[size]`. -/
structure CharArray (size : Nat) where
  bytes : List UInt8
  length_bytes : bytes.length = size

/-- `snprintf` into an array with room for `limit` bytes. -/
def CharArray.snprintf {size : Nat} (array : CharArray size) (limit : Nat)
    (fits : limit ≤ size) (source : Text) : CharArray size where
  bytes := CStrings.snprintf array.bytes limit source
  length_bytes := by
    rw [length_snprintf (by rw [array.length_bytes]; exact fits)]
    exact array.length_bytes

def maxDoorbellCamNum : Nat := 16

/-- `CameraDevInfo`, as far as the table reaches it. -/
structure CameraDevInfo where
  lockButtonSettings : CharArray 128
  snoozeModeEndTime : BitVec 32
  detectAlarmEnabled : BitVec 32
  detectAlarmDuration : BitVec 32
  detectAlarmTone : BitVec 32
  detectAlarmVolume : BitVec 32

/-- `HubDevInfo`; what `sub_info` points to is kept in its place. -/
structure HubDevInfo where
  initState : BitVec 32
  timezone : CharArray 64
  timeZoneId : CharArray 64
  timeZonePosix : CharArray 64
  bleVersion : BitVec 32
  bleHardVersion : BitVec 32
  hubMac : CharArray 32
  wifiMac : CharArray 32
  userId : CharArray 128
  firmwareVersion : CharArray 64
  hubRssi : BitVec 32
  autoupgradeEnabled : BitVec 32
  flashScreenEnabled : BitVec 32
  screenBrightness : BitVec 32
  indicatorLightEnabled : BitVec 32
  ringtoneEnabled : BitVec 32
  tone : BitVec 32
  volume : BitVec 32
  detectionAlarmTone : BitVec 32
  keepScreenOn : BitVec 32
  enable24Hour : BitVec 32
  language : CharArray 32
  doNotDisturbEnabled : BitVec 32
  doNotDisturbTimeRange : CharArray 64
  doorbellIDs : Fin maxDoorbellCamNum → CharArray 32
  recordingEnabled : BitVec 32
  ssid : CharArray 128
  pwd : CharArray 128
  animatedPromptEnabled : BitVec 32
  screenTimeout : BitVec 32
  mutedRecordingEnabled : BitVec 32
  isReording : BitVec 32
  cameras : Fin maxDoorbellCamNum → CameraDevInfo
  isLoadCameraConfig : BitVec 32
  lvglbindcamId : CharArray 32
  subInfo : CameraDevInfo

/-- `PARAMS_TYPE_E`, as far as the table uses it. -/
inductive ParamsType where
  | int
  | char
  | charArray
  | bool
  deriving DecidableEq, Repr

/-- `HUB_PARAMS_TABLE_CODE_E`, in the order of its values. -/
inductive HubParamsTableCode where
  | initState
  | bleMac
  | wifMac
  | userId
  | fw
  | rssi
  | flashScreenEnable
  | screenBrightness
  | indicatorLightEnable
  | ringToneEnable
  | tone
  | volume
  | language
  | doNotDisturbEnable
  | doNotDisturbTimeRange
  | doorbellList
  | recordEnable
  | staSsid
  | staPasswd
  | animatePromptEnable
  | screenTimeout
  | muteRecordEnable
  | lvglBindCamId
  | detectionAlarmTone
  | keepScreenOn
  | enable24Hour
  | immedIsRecording
  | subDetectAlarmEnabled
  | subDetectAlarmDuration
  | subDetectAlarmVolume
  | subDetectAlarmTone
  | subLockButtonSettings
  | subSnoozeModeEndTime
  deriving DecidableEq, Repr

def hubParamsMax : Nat := 33

/-- `hub_param_table_s`. -/
structure HubParamTable where
  attrkey : HubParamsTableCode
  attrType : ParamsType
  keyValue : Text

def defparamsTable : List HubParamTable :=
  [⟨.initState, .int, ascii "initState"⟩,
    ⟨.bleMac, .char, ascii "hubMac"⟩,
    ⟨.wifMac, .char, ascii "wifiMac"⟩,
    ⟨.userId, .char, ascii "userId"⟩,
    ⟨.fw, .char, ascii "firmwareVersion"⟩,
    ⟨.rssi, .int, ascii "hubRssi"⟩,
    ⟨.flashScreenEnable, .bool, ascii "flashScreenEnabled"⟩,
    ⟨.screenBrightness, .int, ascii "screenBrightness"⟩,
    ⟨.indicatorLightEnable, .bool, ascii "indicatorLightEnabled"⟩,
    ⟨.ringToneEnable, .bool, ascii "ringtoneEnabled"⟩,
    ⟨.tone, .int, ascii "tone"⟩,
    ⟨.volume, .int, ascii "volume"⟩,
    ⟨.language, .char, ascii "language"⟩,
    ⟨.doNotDisturbEnable, .bool, ascii "doNotDisturbEnabled"⟩,
    ⟨.doNotDisturbTimeRange, .char, ascii "doNotDisturbTimeRange"⟩,
    ⟨.doorbellList, .charArray, ascii "doorbellIDs"⟩,
    ⟨.recordEnable, .bool, ascii "recordingEnabled"⟩,
    ⟨.staSsid, .char, ascii "ssid"⟩,
    ⟨.staPasswd, .char, ascii "pwd"⟩,
    ⟨.animatePromptEnable, .bool, ascii "animatedPromptEnabled"⟩,
    ⟨.screenTimeout, .int, ascii "screenTimeout"⟩,
    ⟨.muteRecordEnable, .bool, ascii "mutedRecordingEnabled"⟩,
    ⟨.lvglBindCamId, .char, ascii "lvglbindcamId"⟩,
    ⟨.detectionAlarmTone, .int, ascii "detectionAlarmTone"⟩,
    ⟨.keepScreenOn, .bool, ascii "keepScreenOn"⟩,
    ⟨.enable24Hour, .bool, ascii "enabel24Hour"⟩,
    ⟨.immedIsRecording, .bool, ascii "isReording"⟩,
    ⟨.subDetectAlarmEnabled, .int, ascii "detectAlarmEnabled"⟩,
    ⟨.subDetectAlarmDuration, .int, ascii "detectAlarmDuration"⟩,
    ⟨.subDetectAlarmVolume, .int, ascii "detectAlarmVolume"⟩,
    ⟨.subDetectAlarmTone, .int, ascii "detectAlarmTone"⟩,
    ⟨.subLockButtonSettings, .char, ascii "lockButtonSettings"⟩,
    ⟨.subSnoozeModeEndTime, .int, ascii "snoozeModeEndTime"⟩]

/-! ## Filling an object -/

/-- `fill_char_json`. -/
def fillCharJson {size : Nat} (root : Node) (paramTable : HubParamTable)
    (value : CharArray size) : Int × Node :=
  if paramTable.attrType = .char then
    (0, addItemToObject root paramTable.keyValue
      (createString (cString value.bytes)))
  else
    (-1, root)

/-- `snprintf(Item, sizeof(Item), "Item_%d", i)`. -/
def itemName (index : Nat) : Text :=
  ascii "Item_" ++ ascii (toString index)

/-- The array of one-member objects `fill_char_array_json` adds. -/
def charArrayItem {count size : Nat} (value : Fin count → CharArray size) :
    Node :=
  (List.finRange count).foldl (fun jarray (index : Fin count) =>
    addItemToArray jarray
      (addItemToObject createObject (itemName index)
        (createString (cString (value index).bytes)))) createArray

/-- `fill_char_array_json`. -/
def fillCharArrayJson {count size : Nat} (root : Node)
    (paramTable : HubParamTable) (value : Fin count → CharArray size) :
    Int × Node :=
  if paramTable.attrType = .charArray then
    (0, addItemToObject root paramTable.keyValue (charArrayItem value))
  else
    (-1, root)

/-- `fill_int_json`. -/
def fillIntJson (root : Node) (paramTable : HubParamTable)
    (value : BitVec 32) : Int × Node :=
  if paramTable.attrType = .int then
    (0, addItemToObject root paramTable.keyValue (createNumber value.toInt))
  else
    (-1, root)

/-- A 32-bit field converted to `bool`. -/
def toBool (value : BitVec 32) : Bool :=
  decide (value ≠ 0)

/-- `fill_bool_json`; its argument is converted by the call. -/
def fillBoolJson (root : Node) (paramTable : HubParamTable)
    (value : BitVec 32) : Int × Node :=
  if paramTable.attrType = .bool then
    (0, addItemToObject root paramTable.keyValue (createBool (toBool value)))
  else
    (-1, root)

/-- `fill_param_json`. -/
def fillParamJson (root : Node) (paramTable : HubParamTable)
    (devInfo : HubDevInfo) : Int × Node :=
  match paramTable.attrkey with
  | .initState => fillIntJson root paramTable devInfo.initState
  | .bleMac => fillCharJson root paramTable devInfo.hubMac
  | .wifMac => fillCharJson root paramTable devInfo.wifiMac
  | .userId => fillCharJson root paramTable devInfo.userId
  | .fw => fillCharJson root paramTable devInfo.firmwareVersion
  | .rssi => fillIntJson root paramTable devInfo.hubRssi
  | .flashScreenEnable =>
      fillBoolJson root paramTable devInfo.flashScreenEnabled
  | .screenBrightness => fillIntJson root paramTable devInfo.screenBrightness
  | .indicatorLightEnable =>
      fillBoolJson root paramTable devInfo.indicatorLightEnabled
  | .ringToneEnable => fillBoolJson root paramTable devInfo.ringtoneEnabled
  | .tone => fillIntJson root paramTable devInfo.tone
  | .volume => fillIntJson root paramTable devInfo.volume
  | .language => fillCharJson root paramTable devInfo.language
  | .doNotDisturbEnable =>
      fillBoolJson root paramTable devInfo.doNotDisturbEnabled
  | .doNotDisturbTimeRange =>
      fillCharJson root paramTable devInfo.doNotDisturbTimeRange
  | .doorbellList => fillCharArrayJson root paramTable devInfo.doorbellIDs
  | .recordEnable => fillBoolJson root paramTable devInfo.recordingEnabled
  | .staSsid => fillCharJson root paramTable devInfo.ssid
  | .staPasswd => fillCharJson root paramTable devInfo.pwd
  | .animatePromptEnable =>
      fillBoolJson root paramTable devInfo.animatedPromptEnabled
  | .screenTimeout => fillIntJson root paramTable devInfo.screenTimeout
  | .muteRecordEnable =>
      fillBoolJson root paramTable devInfo.mutedRecordingEnabled
  | .lvglBindCamId => fillCharJson root paramTable devInfo.lvglbindcamId
  | .detectionAlarmTone =>
      fillIntJson root paramTable devInfo.detectionAlarmTone
  | .keepScreenOn => fillBoolJson root paramTable devInfo.keepScreenOn
  | .enable24Hour => fillBoolJson root paramTable devInfo.enable24Hour
  | .immedIsRecording => fillBoolJson root paramTable devInfo.isReording
  | _ => (-1, root)

/-- `mqtt_model_hub_fill_param_json`, for an index that is not negative. -/
def mqttModelHubFillParamJson (root : Node) (devInfo : HubDevInfo)
    (tableIndex : Nat) : Int × Node :=
  let root := addItemToObject root (ascii "tableIndex")
    (createNumber tableIndex)
  if tableIndex = hubParamsMax then
    defparamsTable.foldl (fun filled paramTable =>
      fillParamJson filled.2 paramTable devInfo) (0, root)
  else
    match defparamsTable[tableIndex]? with
    | some paramTable => fillParamJson root paramTable devInfo
    | none => (0, root)

/-! ## Reading an object -/

/-- The loop of `parse_char_array_json` from the element at `index` on. -/
def parseCharArrayElements {count size : Nat} :
    Nat → List (Option Text × Node) → (Fin count → CharArray size) →
      Int × (Fin count → CharArray size)
  | _, [], value => (0, value)
  | index, subElement :: rest, value =>
      if inside : index < count then
        if isString subElement.2 then
          match subElement.2.valuestring with
          | some subValue =>
              parseCharArrayElements (index + 1) rest
                (Function.update value ⟨index, inside⟩
                  ((value ⟨index, inside⟩).snprintf size (Nat.le_refl _)
                    subValue))
          | none => (-1, value)
        else
          (-1, value)
      else
        (-1, value)

/-- `parse_char_array_json`. -/
def parseCharArrayJson {count size : Nat} (root : Node)
    (value : Fin count → CharArray size) :
    Int × (Fin count → CharArray size) :=
  if isArray root then parseCharArrayElements 0 root.child value
  else (-1, value)

/-- `parse_char_json`; a node of string type always has its text. -/
def parseCharJson {size : Nat} (root : Node) (value : CharArray size) :
    Int × CharArray size :=
  if isString root then
    (0, value.snprintf (size - 1) (Nat.sub_le _ _)
      (root.valuestring.getD []))
  else
    (-1, value)

/-- `parse_int_json`. -/
def parseIntJson (root : Node) (value : BitVec 32) : Int × BitVec 32 :=
  if isNumber root then (0, BitVec.ofInt 32 root.valueint) else (-1, value)

/-- A 32-bit field once a `bool` is stored at its address. -/
def storeBool (field : BitVec 32) (value : Bool) : BitVec 32 :=
  field.extractLsb' 8 24 ++ (if value then 1#8 else 0#8)

/-- `parse_bool_json`, with the address of a 32-bit field. -/
def parseBoolJson (root : Node) (value : BitVec 32) : Int × BitVec 32 :=
  if isBool root then (0, storeBool value (isTrue root)) else (-1, value)

/-- `parse_dest_param`, which looks at no result. -/
def parseDestParam (root : Node) (paramTable : HubParamTable)
    (devInfo : HubDevInfo) : HubDevInfo :=
  match paramTable.attrkey with
  | .initState =>
      { devInfo with initState := (parseIntJson root devInfo.initState).2 }
  | .bleMac =>
      { devInfo with hubMac := (parseCharJson root devInfo.hubMac).2 }
  | .wifMac =>
      { devInfo with wifiMac := (parseCharJson root devInfo.wifiMac).2 }
  | .userId =>
      { devInfo with userId := (parseCharJson root devInfo.userId).2 }
  | .fw =>
      { devInfo with
        firmwareVersion := (parseCharJson root devInfo.firmwareVersion).2 }
  | .rssi =>
      { devInfo with hubRssi := (parseIntJson root devInfo.hubRssi).2 }
  | .flashScreenEnable =>
      { devInfo with
        flashScreenEnabled :=
          (parseBoolJson root devInfo.flashScreenEnabled).2 }
  | .screenBrightness =>
      { devInfo with
        screenBrightness := (parseIntJson root devInfo.screenBrightness).2 }
  | .indicatorLightEnable =>
      { devInfo with
        indicatorLightEnabled :=
          (parseBoolJson root devInfo.indicatorLightEnabled).2 }
  | .ringToneEnable =>
      { devInfo with
        ringtoneEnabled := (parseBoolJson root devInfo.ringtoneEnabled).2 }
  | .tone => { devInfo with tone := (parseIntJson root devInfo.tone).2 }
  | .volume => { devInfo with volume := (parseIntJson root devInfo.volume).2 }
  | .language =>
      { devInfo with language := (parseCharJson root devInfo.language).2 }
  | .doNotDisturbEnable =>
      { devInfo with
        doNotDisturbEnabled :=
          (parseBoolJson root devInfo.doNotDisturbEnabled).2 }
  | .doNotDisturbTimeRange =>
      { devInfo with
        doNotDisturbTimeRange :=
          (parseCharJson root devInfo.doNotDisturbTimeRange).2 }
  | .doorbellList =>
      { devInfo with
        doorbellIDs := (parseCharArrayJson root devInfo.doorbellIDs).2 }
  | .recordEnable =>
      { devInfo with
        recordingEnabled := (parseBoolJson root devInfo.recordingEnabled).2 }
  | .staSsid => { devInfo with ssid := (parseCharJson root devInfo.ssid).2 }
  | .staPasswd => { devInfo with pwd := (parseCharJson root devInfo.pwd).2 }
  | .animatePromptEnable =>
      { devInfo with
        animatedPromptEnabled :=
          (parseBoolJson root devInfo.animatedPromptEnabled).2 }
  | .screenTimeout =>
      { devInfo with
        screenTimeout := (parseIntJson root devInfo.screenTimeout).2 }
  | .muteRecordEnable =>
      { devInfo with
        mutedRecordingEnabled :=
          (parseBoolJson root devInfo.mutedRecordingEnabled).2 }
  | .lvglBindCamId =>
      { devInfo with
        lvglbindcamId := (parseCharJson root devInfo.lvglbindcamId).2 }
  | .detectionAlarmTone =>
      { devInfo with
        detectionAlarmTone :=
          (parseIntJson root devInfo.detectionAlarmTone).2 }
  | .keepScreenOn =>
      { devInfo with
        keepScreenOn := (parseBoolJson root devInfo.keepScreenOn).2 }
  | .enable24Hour =>
      { devInfo with
        enable24Hour := (parseBoolJson root devInfo.enable24Hour).2 }
  | .subDetectAlarmEnabled =>
      { devInfo with
        subInfo.detectAlarmEnabled :=
          (parseIntJson root devInfo.subInfo.detectAlarmEnabled).2 }
  | .subDetectAlarmDuration =>
      { devInfo with
        subInfo.detectAlarmDuration :=
          (parseIntJson root devInfo.subInfo.detectAlarmDuration).2 }
  | .subDetectAlarmVolume =>
      { devInfo with
        subInfo.detectAlarmVolume :=
          (parseIntJson root devInfo.subInfo.detectAlarmVolume).2 }
  | .subDetectAlarmTone =>
      { devInfo with
        subInfo.detectAlarmTone :=
          (parseIntJson root devInfo.subInfo.detectAlarmTone).2 }
  | .subLockButtonSettings =>
      { devInfo with
        subInfo.lockButtonSettings :=
          (parseCharJson root devInfo.subInfo.lockButtonSettings).2 }
  | .subSnoozeModeEndTime =>
      { devInfo with
        subInfo.snoozeModeEndTime :=
          (parseIntJson root devInfo.subInfo.snoozeModeEndTime).2 }
  | .immedIsRecording =>
      { devInfo with
        isReording := (parseBoolJson root devInfo.isReording).2 }

/-- A round of `parse_param_json`, at one element of the object. -/
def parseElement (paramTable : HubParamTable) (devInfo : HubDevInfo)
    (element : Option Text × Node) : HubDevInfo :=
  if element.1 = some paramTable.keyValue then
    parseDestParam element.2 paramTable devInfo
  else
    devInfo

/-- `parse_param_json`. -/
def parseParamJson (root : Node) (paramTable : HubParamTable)
    (devInfo : HubDevInfo) : HubDevInfo :=
  root.child.foldl (parseElement paramTable) devInfo

/-- `mqtt_model_hub_parse_param_json`, for an index that is not negative. -/
def mqttModelHubParseParamJson (root : Node) (devInfo : HubDevInfo)
    (tableIndex : Nat) : HubDevInfo :=
  if tableIndex = hubParamsMax then
    defparamsTable.foldl (fun devInfo paramTable =>
      parseParamJson root paramTable devInfo) devInfo
  else
    match defparamsTable[tableIndex]? with
    | some paramTable => parseParamJson root paramTable devInfo
    | none => devInfo

end HubModel

end MbedtlsKcp
