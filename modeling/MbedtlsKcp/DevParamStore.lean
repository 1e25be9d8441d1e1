import MbedtlsKcp.DevParamFiles

/-!
# The parameter store

`DEV_PARAM_SetParam` and `DEV_PARAM_GetParam`.  An argument and a destination are
the memory their pointers point at; `none` stands for an access outside that
memory or outside the configuration record.
`DEV_PARAM_MakeConfEffect` has an empty body, and the messages are left out.
-/

namespace MbedtlsKcp

namespace DevParam

open ByteBuffers CStrings RecordFields CJson

/-- `APP_PARAM_TYPE_E`. -/
inductive ParamType where
  | contrast
  | brightness
  | sharpness
  | saturation
  | md
  | mdSense
  | humanFilter
  | resolution
  | indicator
  | nightVision
  | volume
  | flip
  | privateMode
  | timeWatermark
  | talkMode
  | timezone
  | timezonePosix
  | autoTracking
  | token
  | streamName
  | region
  | upgradeFlag
  | devMode
  | detAlarm
  | autoUpgrade
  | soundAlarm
  | antiFlicker
  | cruise
  | prepoint
  | cloudEndTime
  | cloudStarTime
  | endpoint
  | roleAlias
  | iotUrl
  | hwVersion
  | darkFullColor
  | eventSchedule
  | recordInfo
  | enAlgolog
  | enKeylog
  | enDetaillog
  | setLoglevel
  | max
  deriving DecidableEq, Repr

/-! ## The members that are structures -/

/-- `DETECT_ALARM_PARAM_S`. -/
def detAlarmSpan : Span := ⟨ConfField.detSwitch.offset, 4⟩

/-- `DEV_POINT_S`. -/
def prePointSpan : Span := ⟨ConfField.prePointX.offset, 8⟩

/-- `EVENT_SCHEDULE_S`. -/
def eventSchConfSpan : Span := ⟨ConfField.enEventSchedule.offset, 32⟩

/-- `REC_CONF_S`. -/
def recordConfSpan : Span := ⟨ConfField.enrecord.offset, 3⟩

/-! ## Setting -/

/-- What a call of `DEV_PARAM_SetParam` meets outside the store. -/
structure Surroundings where
  /-- `time(NULL)` -/
  time : Int
  /-- the file `/mnt/sd/parameter/off_line` is there -/
  offLine : Bool
  backup : WriteOutcome
  main : WriteOutcome

/-- `memset` of a member to zero, and `memcpy` to its start. -/
def clearAndCopy (conf : Conf) (span : Span) (source : List UInt8) :
    Option Conf :=
  (copyAt conf span.offset (List.replicate span.size 0)).bind fun cleared =>
    copyAt cleared span.offset source

def setUnsignedChar (field : ConfField) (conf : Conf) (pValue : List UInt8) :
    Option Conf :=
  (ByteBuffers.readFrom pValue 0 1).bind (copyAt conf field.offset)

/-- The copies of `strlen(pValue)` bytes, whatever the size of the member. -/
def setString (field : ConfField) (conf : Conf) (pValue : List UInt8) :
    Option Conf :=
  (readString pValue).bind (clearAndCopy conf field.span)

def setStruct (span : Span) (conf : Conf) (pValue : List UInt8) :
    Option Conf :=
  (ByteBuffers.readFrom pValue 0 span.size).bind (clearAndCopy conf span)

/-- `strncpy` with the size of the member. -/
def setWithStrncpy (field : ConfField) (conf : Conf) (pValue : List UInt8) :
    Option Conf :=
  (readString pValue).bind fun source =>
    copyAt conf field.offset (strncpyBytes source field.ctype.size)

def setDarkFullColor (conf : Conf) (pValue : List UInt8) : Option Conf :=
  (ByteBuffers.readFrom pValue 0 1).bind fun byte =>
    copyAt conf ConfField.darkFullColor.offset
      [if byte = [0] then 0 else 1]

/-- A time that is new is stored and saved. -/
def setCloudTime (field : ConfField) (conf : Conf) (pValue : List UInt8) :
    Option (Bool × Conf) :=
  (ByteBuffers.readFrom pValue 0 8).bind fun tmpPtsMs =>
    if load confLayout conf field ≠ tmpPtsMs then
      (copyAt conf field.offset tmpPtsMs).map fun conf => (true, conf)
    else
      some (false, conf)

def qrcodeRegions : List (Text × Text) :=
  [(ascii "p1", ascii "https://device.us.api.switchbot.net/kvs/v1/getIotCert"),
    (ascii "p2", ascii "https://device.ap.api.switchbot.net/kvs/v1/getIotCert"),
    (ascii "p3", ascii "https://device.eu.api.switchbot.net/kvs/v1/getIotCert"),
    (ascii "p4", ascii "https://device.cn.api.switchbot.net/kvs/v1/getIotCert"),
    (ascii "t1", ascii "https://device.us.api.woankeji.cn/kvs/v1/getIotCert"),
    (ascii "t2", ascii "https://device.ap.api.woankeji.cn/kvs/v1/getIotCert"),
    (ascii "t3", ascii "https://device.eu.api.woankeji.cn/kvs/v1/getIotCert"),
    (ascii "t4", ascii "https://device.cn.api.woankeji.cn/kvs/v1/getIotCert")]

/-- The URL `setIotUrl` chooses for a region. -/
def iotUrlOf (offLine : Bool) (regionId : Text) : Text :=
  match qrcodeRegions.lookup regionId with
  | some url => url
  | none =>
      if regionId ≠ [] then regionId
      else if offLine then
        ascii "https://device.us.api.woankeji.cn/kvs/v1/getIotCert"
      else ascii "https://device.us.api.switchbot.net/kvs/v1/getIotCert"

/-- `setIotUrl`: `memset`, and `strcpy` with its terminator. -/
def setIotUrl (offLine : Bool) (conf : Conf) (pValue : List UInt8) :
    Option Conf :=
  (readString pValue).bind fun regionId =>
    clearAndCopy conf ConfField.iotUrl.span (iotUrlOf offLine regionId ++ [0])

/-- What the switch of `DEV_PARAM_SetParam` leaves. -/
structure Switched where
  ret : Int
  syncFile : Bool
  dev : DevInfo

/-- A branch that stores into the record. -/
def DevInfo.stored (dev : DevInfo) (syncFile : Bool) (conf : Option Conf) :
    Option Switched :=
  conf.map fun conf => ⟨0, syncFile, { dev with appSetInfo := conf }⟩

def setSwitch (around : Surroundings) (dev : DevInfo) (type : ParamType)
    (pValue : List UInt8) : Option Switched :=
  let conf := dev.appSetInfo
  match type with
  | .contrast => dev.stored true (setUnsignedChar .contrast conf pValue)
  | .brightness => dev.stored true (setUnsignedChar .brightness conf pValue)
  | .sharpness => dev.stored true (setUnsignedChar .sharpness conf pValue)
  | .saturation => dev.stored true (setUnsignedChar .saturation conf pValue)
  | .md => dev.stored true (setUnsignedChar .md conf pValue)
  | .mdSense => dev.stored true (setUnsignedChar .mdSense conf pValue)
  | .humanFilter => dev.stored true (setUnsignedChar .humanFilter conf pValue)
  -- `DEV_RESOLUTION_INFO_S` starts with the resolution.
  | .resolution => dev.stored false (setUnsignedChar .resolution conf pValue)
  | .indicator =>
      dev.stored true (setUnsignedChar .indicatorSwitch conf pValue)
  | .nightVision => dev.stored true (setUnsignedChar .nightVision conf pValue)
  | .volume => dev.stored true (setUnsignedChar .volume conf pValue)
  | .flip => dev.stored true (setUnsignedChar .flip conf pValue)
  | .privateMode => dev.stored true (setUnsignedChar .privateMode conf pValue)
  | .timeWatermark =>
      dev.stored true (setUnsignedChar .timeWatermark conf pValue)
  | .talkMode => dev.stored true (setUnsignedChar .talkMode conf pValue)
  | .timezone => dev.stored true (setString .timezone conf pValue)
  | .timezonePosix => dev.stored true (setString .timeZonePosix conf pValue)
  | .setLoglevel => dev.stored true (setString .logLevel conf pValue)
  | .enAlgolog => dev.stored true (setUnsignedChar .enAlgoLog conf pValue)
  | .enDetaillog =>
      dev.stored true (setUnsignedChar .enUploadDetailLog conf pValue)
  | .enKeylog => dev.stored true (setUnsignedChar .enUploadKeyLog conf pValue)
  | .autoTracking =>
      dev.stored true (setUnsignedChar .autoTracking conf pValue)
  | .autoUpgrade => dev.stored true (setUnsignedChar .autoUpgrade conf pValue)
  | .token => dev.stored true (setString .token conf pValue)
  | .streamName => dev.stored true (setString .streamName conf pValue)
  | .region => dev.stored true (setString .region conf pValue)
  | .upgradeFlag => dev.stored true (setUnsignedChar .upgradeFlag conf pValue)
  | .soundAlarm => dev.stored true (setUnsignedChar .soundAlarm conf pValue)
  | .antiFlicker => dev.stored true (setUnsignedChar .antiFlicker conf pValue)
  | .detAlarm => dev.stored true (setStruct detAlarmSpan conf pValue)
  | .cruise => dev.stored true (setUnsignedChar .cruise conf pValue)
  | .prepoint =>
      { dev with lastMotorPosUpdateTime := around.time }.stored false
        (setStruct prePointSpan conf pValue)
  | .cloudEndTime =>
      (setCloudTime .cloudEndTime conf pValue).bind fun (syncFile, conf) =>
        dev.stored syncFile (some conf)
  | .cloudStarTime =>
      (setCloudTime .cloudStarTime conf pValue).bind fun (syncFile, conf) =>
        dev.stored syncFile (some conf)
  | .iotUrl => dev.stored true (setIotUrl around.offLine conf pValue)
  | .endpoint => dev.stored true (setWithStrncpy .endpoint conf pValue)
  | .roleAlias => dev.stored true (setWithStrncpy .roleAlias conf pValue)
  | .hwVersion =>
      (ByteBuffers.readFrom pValue 0 1).map fun byte =>
        ⟨0, true, { dev with hwVersion := BitVec.ofNat 32 (decodeLE byte) }⟩
  | .darkFullColor => dev.stored true (setDarkFullColor conf pValue)
  | .eventSchedule => dev.stored true (setStruct eventSchConfSpan conf pValue)
  | .recordInfo => dev.stored true (setStruct recordConfSpan conf pValue)
  | .devMode | .max => some ⟨-1, true, dev⟩

/-- `DEV_PARAM_SetParam`: its result, the store and what it does to the
files. -/
def setParam (print : Node → Text) (around : Surroundings) (dev : DevInfo)
    (type : ParamType) (pValue : List UInt8) :
    Option (Int × DevInfo × List FileStep) :=
  if ¬ dev.isParamReady then some (-1, dev, [])
  else
    (setSwitch around dev type pValue).map fun switched =>
      if switched.ret = 0 ∧ switched.syncFile = true then
        let synced :=
          syncParamToFile print switched.dev around.backup around.main
        (if synced.1 ≠ 0 then -1 else switched.ret, switched.dev, synced.2)
      else
        (switched.ret, switched.dev, [])

/-! ## Getting -/

/-- What `DEV_PARAM_GetParam` leaves behind `pDataDst`: the bytes of a buffer,
or a pointer to a position of the record. -/
inductive Output where
  | buffer (bytes : List UInt8)
  | pointer (position : Nat)
  deriving DecidableEq

/-- The string that starts at a position of the record. -/
def stringAt (conf : Conf) (position : Nat) : Option Text :=
  readString (conf.bytes.drop position)

/-- `sizeof` bytes of a member. -/
def getBytes (span : Span) (conf : Conf) (pDataDst : List UInt8) :
    Option Output :=
  (copyInto pDataDst 0 (conf.at span)).map .buffer

/-- The copies of `strlen` bytes, without the terminator. -/
def getString (field : ConfField) (conf : Conf) (pDataDst : List UInt8) :
    Option Output :=
  (stringAt conf field.offset).bind fun source =>
    (copyInto pDataDst 0 source).map .buffer

/-- What a branch writes; `none` for the types without one. -/
def getSwitch (dev : DevInfo) (type : ParamType) (pDataDst : List UInt8) :
    Option (Int × Output) :=
  let conf := dev.appSetInfo
  let ok := Option.map fun output : Output => ((0 : Int), output)
  match type with
  | .contrast => ok (getBytes ConfField.contrast.span conf pDataDst)
  | .brightness => ok (getBytes ConfField.brightness.span conf pDataDst)
  | .sharpness => ok (getBytes ConfField.sharpness.span conf pDataDst)
  | .saturation => ok (getBytes ConfField.saturation.span conf pDataDst)
  | .md => ok (getBytes ConfField.md.span conf pDataDst)
  | .mdSense => ok (getBytes ConfField.mdSense.span conf pDataDst)
  | .humanFilter => ok (getBytes ConfField.humanFilter.span conf pDataDst)
  | .resolution => ok (getBytes ConfField.resolution.span conf pDataDst)
  | .indicator => ok (getBytes ConfField.indicatorSwitch.span conf pDataDst)
  | .nightVision => ok (getBytes ConfField.nightVision.span conf pDataDst)
  | .volume => ok (getBytes ConfField.volume.span conf pDataDst)
  | .flip => ok (getBytes ConfField.flip.span conf pDataDst)
  | .privateMode => ok (getBytes ConfField.privateMode.span conf pDataDst)
  | .timeWatermark => ok (getBytes ConfField.timeWatermark.span conf pDataDst)
  | .talkMode => ok (getBytes ConfField.talkMode.span conf pDataDst)
  | .timezone => ok (getString .timezone conf pDataDst)
  | .timezonePosix => ok (getString .timeZonePosix conf pDataDst)
  | .autoTracking => ok (getBytes ConfField.autoTracking.span conf pDataDst)
  | .enAlgolog => ok (getBytes ConfField.enAlgoLog.span conf pDataDst)
  | .enDetaillog =>
      ok (getBytes ConfField.enUploadDetailLog.span conf pDataDst)
  | .enKeylog => ok (getBytes ConfField.enUploadKeyLog.span conf pDataDst)
  | .setLoglevel => ok (getString .logLevel conf pDataDst)
  | .autoUpgrade => ok (getBytes ConfField.autoUpgrade.span conf pDataDst)
  | .token => ok (getString .token conf pDataDst)
  | .streamName => ok (getString .streamName conf pDataDst)
  | .region => ok (getString .region conf pDataDst)
  | .upgradeFlag => ok (getBytes ConfField.upgradeFlag.span conf pDataDst)
  | .soundAlarm => ok (getBytes ConfField.soundAlarm.span conf pDataDst)
  | .antiFlicker => ok (getBytes ConfField.antiFlicker.span conf pDataDst)
  | .detAlarm => ok (getBytes detAlarmSpan conf pDataDst)
  | .cruise => ok (getBytes ConfField.cruise.span conf pDataDst)
  | .prepoint => ok (getBytes prePointSpan conf pDataDst)
  | .cloudEndTime => ok (getBytes ConfField.cloudEndTime.span conf pDataDst)
  | .cloudStarTime => ok (getBytes ConfField.cloudStarTime.span conf pDataDst)
  | .iotUrl => some (0, .pointer ConfField.iotUrl.offset)
  | .endpoint => some (0, .pointer ConfField.endpoint.offset)
  | .roleAlias => some (0, .pointer ConfField.roleAlias.offset)
  | .hwVersion =>
      ok ((copyInto pDataDst 0 (encodeLE 4 dev.hwVersion.toNat)).map .buffer)
  | .darkFullColor => ok (getBytes ConfField.darkFullColor.span conf pDataDst)
  | .eventSchedule => ok (getBytes eventSchConfSpan conf pDataDst)
  | .recordInfo => ok (getBytes recordConfSpan conf pDataDst)
  | .devMode | .max => some (-1, .buffer pDataDst)

/-- `DEV_PARAM_GetParam`: its result, and what is behind `pDataDst` after. -/
def getParam (dev : DevInfo) (type : ParamType) (pDataDst : List UInt8) :
    Option (Int × Output) :=
  if ¬ dev.isParamReady then some (-1, .buffer pDataDst)
  else getSwitch dev type pDataDst

end DevParam

end MbedtlsKcp
