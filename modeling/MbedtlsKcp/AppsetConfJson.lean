import MbedtlsKcp.AppsetConf

/-!
# The configuration as JSON

`appsetConfToJson` and `jsonToAppsetConf`.  Both name their keys by hand, so
both are kept as lists of keys and members, in the order of the source.  The
library's printer and parser are parameters; a node read as a string is one.
-/

namespace MbedtlsKcp

namespace DevParam

open CStrings RecordFields CJson

/-! ## Writing -/

/-- A member and the key it is written under. -/
structure Member where
  key : Text
  field : ConfField

def topMembers : List Member :=
  [⟨ascii "version", .version⟩, ⟨ascii "timezone", .timezone⟩,
    ⟨ascii "timeZoneId", .timeZoneId⟩,
    ⟨ascii "timeZonePosix", .timeZonePosix⟩, ⟨ascii "token", .token⟩,
    ⟨ascii "streamName", .streamName⟩, ⟨ascii "region", .region⟩,
    ⟨ascii "logLevel", .logLevel⟩, ⟨ascii "contrast", .contrast⟩,
    ⟨ascii "brightness", .brightness⟩, ⟨ascii "sharpness", .sharpness⟩,
    ⟨ascii "saturation", .saturation⟩, ⟨ascii "md", .md⟩,
    ⟨ascii "mdSense", .mdSense⟩, ⟨ascii "humanFilter", .humanFilter⟩,
    ⟨ascii "resolution", .resolution⟩,
    ⟨ascii "indicatorSwitch", .indicatorSwitch⟩,
    ⟨ascii "nightVision", .nightVision⟩, ⟨ascii "volume", .volume⟩,
    ⟨ascii "flip", .flip⟩, ⟨ascii "privateMode", .privateMode⟩,
    ⟨ascii "timeWatermark", .timeWatermark⟩, ⟨ascii "talkMode", .talkMode⟩,
    ⟨ascii "autoTracking", .autoTracking⟩, ⟨ascii "enAlgoLog", .enAlgoLog⟩,
    ⟨ascii "enUploadDetailLog", .enUploadDetailLog⟩,
    ⟨ascii "enUploadKeyLog", .enUploadKeyLog⟩,
    ⟨ascii "upgradeFlag", .upgradeFlag⟩, ⟨ascii "devMode", .devMode⟩,
    ⟨ascii "soundAlarm", .soundAlarm⟩, ⟨ascii "autoUpgrade_v2", .autoUpgrade⟩,
    ⟨ascii "antiFlicker", .antiFlicker⟩, ⟨ascii "cruise", .cruise⟩,
    ⟨ascii "cloudEndTime", .cloudEndTime⟩,
    ⟨ascii "cloudStarTime", .cloudStarTime⟩,
    ⟨ascii "darkFullColor", .darkFullColor⟩]

def detAlarmMembers : List Member :=
  [⟨ascii "detSwitch", .detSwitch⟩, ⟨ascii "tone", .detTone⟩,
    ⟨ascii "volume", .detVolume⟩, ⟨ascii "duration", .detDuration⟩]

def prePointMembers : List Member :=
  [⟨ascii "x", .prePointX⟩, ⟨ascii "y", .prePointY⟩]

def awsConfMembers : List Member :=
  [⟨ascii "endpoint", .endpoint⟩, ⟨ascii "iot_url", .iotUrl⟩,
    ⟨ascii "role_alias", .roleAlias⟩]

def alarmchConfMembers : List Member :=
  [⟨ascii "enEventSchedule", .enEventSchedule⟩,
    ⟨ascii "monSchedule", .monSchedule⟩, ⟨ascii "tueSchedule", .tueSchedule⟩,
    ⟨ascii "wedSchedule", .wedSchedule⟩,
    ⟨ascii "thursSchedule", .thursSchedule⟩,
    ⟨ascii "friSchedule", .friSchedule⟩, ⟨ascii "staSchedule", .staSchedule⟩,
    ⟨ascii "sunSchedule", .sunSchedule⟩]

def recordConfMembers : List Member :=
  [⟨ascii "enrecord", .enrecord⟩, ⟨ascii "recordType", .recordType⟩,
    ⟨ascii "muteRecord", .muteRecord⟩]

/-- The node `cJSON_AddNumberToObject`, `cJSON_AddBoolToObject` or
`cJSON_AddStringToObject` adds for a member. -/
def valueItem : ConfValue → Node
  | .number value => createNumber (toDouble value)
  | .flag value => createBool value
  | .text value => createString value

/-- `object` with a node for each member added to it. -/
def addMembers (conf : Conf) (members : List Member) (object : Node) : Node :=
  members.foldl (fun object member =>
    addItemToObject object member.key (valueItem (value conf member.field)))
    object

/-- The tree `appsetConfToJson` prints. -/
def appsetConfTree (conf : Conf) : Node :=
  let root := addMembers conf topMembers createObject
  let root := addItemToObject root (ascii "detAlarm")
    (addMembers conf detAlarmMembers createObject)
  let root := addItemToObject root (ascii "prePoint")
    (addMembers conf prePointMembers createObject)
  let root := addItemToObject root (ascii "awsConf")
    (addMembers conf awsConfMembers createObject)
  let root := addItemToObject root (ascii "alarmchConf")
    (addMembers conf alarmchConfMembers createObject)
  addItemToObject root (ascii "recordConf")
    (addMembers conf recordConfMembers createObject)

theorem kind_addMembers (conf : Conf) (members : List Member) (object : Node) :
    (addMembers conf members object).kind = object.kind := by
  induction members generalizing object with
  | nil => rfl
  | cons member members ih => exact ih _

theorem kind_appsetConfTree (conf : Conf) :
    (appsetConfTree conf).kind = .object := by
  have kept : ∀ (object item : Node) (key : Text),
      (addItemToObject object key item).kind = object.kind :=
    fun _ _ _ => rfl
  rw [appsetConfTree]
  simp only [kept, kind_addMembers]
  rfl

def appsetConfToJson (print : Node → Text) (conf : Conf) : Text :=
  print (appsetConfTree conf)

/-! ## Reading -/

/-- A member, the key it is read under, and what is stored when the key is
absent. -/
structure Reading where
  key : Text
  field : ConfField
  absent : Option (List UInt8) := none

/-- The bytes a node is stored as. -/
def nodeBytes : CType → Node → List UInt8
  | .charArray size, item => strncpyBytes (item.valuestring.getD []) size
  | .bool, item => numberBytes 1 (if item.valueint = 1 then 1 else 0)
  | ctype, item => numberBytes ctype.size item.valueint

def readField (object : Node) (conf : Conf) (reading : Reading) : Conf :=
  match getObjectItem object reading.key with
  | some item =>
      store confLayout conf reading.field (nodeBytes reading.field.ctype item)
  | none =>
      match reading.absent with
      | some bytes => store confLayout conf reading.field bytes
      | none => conf

def readFields (object : Node) (readings : List Reading) (conf : Conf) : Conf :=
  readings.foldl (readField object) conf

def topReadings : List Reading :=
  [{ key := ascii "version", field := .version },
    { key := ascii "timeZoneID", field := .timezone },
    { key := ascii "timeZonePosix", field := .timeZonePosix },
    { key := ascii "token", field := .token },
    { key := ascii "streamName", field := .streamName },
    { key := ascii "region", field := .region },
    { key := ascii "logLevel", field := .logLevel,
      absent := some (ascii "info") },
    { key := ascii "contrast", field := .contrast },
    { key := ascii "brightness", field := .brightness },
    { key := ascii "sharpness", field := .sharpness },
    { key := ascii "saturation", field := .saturation },
    { key := ascii "md", field := .md },
    { key := ascii "mdSense", field := .mdSense },
    { key := ascii "humanFilter", field := .humanFilter },
    { key := ascii "resolution", field := .resolution },
    { key := ascii "indicatorSwitch", field := .indicatorSwitch },
    { key := ascii "nightVision", field := .nightVision },
    { key := ascii "volume", field := .volume },
    { key := ascii "flip", field := .flip },
    { key := ascii "privateMode", field := .privateMode },
    { key := ascii "timeWatermark", field := .timeWatermark },
    { key := ascii "talkMode", field := .talkMode },
    { key := ascii "autoTracking", field := .autoTracking },
    { key := ascii "enAlgoLog", field := .enAlgoLog, absent := some [0] },
    { key := ascii "enUploadDetailLog", field := .enUploadDetailLog,
      absent := some [1] },
    { key := ascii "enUploadKeyLog", field := .enUploadKeyLog,
      absent := some [1] },
    { key := ascii "upgradeFlag", field := .upgradeFlag },
    { key := ascii "devMode", field := .devMode },
    { key := ascii "soundAlarm", field := .soundAlarm },
    { key := ascii "autoUpgrade_v2", field := .autoUpgrade,
      absent := some [1] },
    { key := ascii "antiFlicker", field := .antiFlicker },
    { key := ascii "cruise", field := .cruise },
    { key := ascii "cloudEndTime", field := .cloudEndTime },
    { key := ascii "cloudStarTime", field := .cloudStarTime },
    { key := ascii "darkFullColor", field := .darkFullColor }]

def awsConfReadings : List Reading :=
  [{ key := ascii "endpoint", field := .endpoint },
    { key := ascii "iot_url", field := .iotUrl },
    { key := ascii "role_alias", field := .roleAlias }]

def prePointReadings : List Reading :=
  [{ key := ascii "x", field := .prePointX },
    { key := ascii "y", field := .prePointY }]

def detAlarmReadings : List Reading :=
  [{ key := ascii "detSwitch", field := .detSwitch },
    { key := ascii "tone", field := .detTone },
    { key := ascii "volume", field := .detVolume },
    { key := ascii "duration", field := .detDuration }]

def alarmchConfReadings : List Reading :=
  [{ key := ascii "enEventSchedule", field := .enEventSchedule },
    { key := ascii "monSchedule", field := .monSchedule },
    { key := ascii "tueSchedule", field := .tueSchedule },
    { key := ascii "wedSchedule", field := .wedSchedule },
    { key := ascii "thursSchedule", field := .thursSchedule },
    { key := ascii "friSchedule", field := .friSchedule },
    { key := ascii "staSchedule", field := .staSchedule },
    { key := ascii "sunSchedule", field := .sunSchedule }]

def recordConfReadings : List Reading :=
  [{ key := ascii "enRecord", field := .enrecord, absent := some [0] },
    { key := ascii "recordType", field := .recordType, absent := some [2] },
    { key := ascii "muteRecord", field := .muteRecord, absent := some [0] }]

/-- The integer of an item, or 0 when there is none. -/
def integerOf (item : Option Node) : Int :=
  match item with
  | some item => item.valueint
  | none => 0

/-- The recording fields of a tree without `recordConf`: the values of older
versions, where there are any. -/
def oldRecordFields (oldrecordType oldmuteRecord : Int) :
    List (ConfField × List UInt8) :=
  (if oldrecordType ≠ 0 then
      [assign .enrecord 1, assign .recordType oldrecordType]
    else
      [assign .enrecord 0, assign .recordType 2]) ++
    [assign .muteRecord (if oldmuteRecord ≠ 0 then oldmuteRecord else 0)]

/-- The members of an object of the tree, or what is stored without it. -/
def readObject (root : Node) (key : Text) (readings : List Reading)
    (absent : List (ConfField × List UInt8)) (conf : Conf) : Conf :=
  match getObjectItem root key with
  | some object => readFields object readings conf
  | none => storeAll absent conf

/-- The record `jsonToAppsetConf` makes of a tree. -/
def readTree (root : Node) (conf : Conf) : Conf :=
  let oldrecordType := integerOf (getObjectItem root (ascii "recordType"))
  let oldmuteRecord := integerOf (getObjectItem root (ascii "muteRecord"))
  let conf := readFields root topReadings conf
  let conf := readObject root (ascii "awsConf") awsConfReadings [] conf
  let conf := readObject root (ascii "prePoint") prePointReadings [] conf
  let conf := readObject root (ascii "detAlarm") detAlarmReadings [] conf
  let conf := readObject root (ascii "alarmchConf") alarmchConfReadings
    defaultSchedule conf
  readObject root (ascii "recordConf") recordConfReadings
    (oldRecordFields oldrecordType oldmuteRecord) conf

/-- Whether `jsonToAppsetConf` writes the files again: the tree is one of an
older version. -/
def syncFile (root : Node) : Bool :=
  (getObjectItem root (ascii "recordType")).isSome ||
    (getObjectItem root (ascii "autoUpgrade_v2")).isNone ||
    (getObjectItem root (ascii "muteRecord")).isSome

/-- `jsonToAppsetConf`: its result, the record, and whether it calls
`syncParamToFile` at its end.  `ofApp` is whether the record is the one of
`pAppParam`. -/
def jsonToAppsetConf (parse : Text → Option Node) (ofApp : Bool) (conf : Conf)
    (jsonString : Text) : Int × Conf × Bool :=
  let conf := setDefaultConf ofApp conf
  match parse jsonString with
  | none => (-1, conf, false)
  | some root => (0, readTree root conf, syncFile root)

end DevParam

end MbedtlsKcp
