import Mathlib.Data.List.Pairwise
import MbedtlsKcp.CJsonText
import MbedtlsKcp.CStrings
import MbedtlsKcp.RecordFields

/-!
# The configuration record

`APPSET_CONF_S` of `dev_param.c`: a union of a structure and 4096 raw bytes,
kept here as the bytes.  A field has the offset that natural alignment gives it
and is stored in little-endian order.
-/

namespace MbedtlsKcp

namespace DevParam

open ByteBuffers CStrings RecordFields CJson

/-- The types of the members of `APPSET_CONF_S`. -/
inductive CType where
  | unsignedChar
  | unsignedInt
  | int
  | longLong
  | bool
  | charArray (size : Nat)
  deriving DecidableEq, Repr

def CType.size : CType → Nat
  | .unsignedChar => 1
  | .unsignedInt => 4
  | .int => 4
  | .longLong => 8
  | .bool => 1
  | .charArray size => size

/-- The members of `APPSET_CONF_S`, in the order of the structure; those of
`detAlarm`, `prePoint`, `aws_conf`, `eventsch_conf` and `record_conf` stand in
their place. -/
inductive ConfField where
  | version
  | timezone
  | timeZoneId
  | timeZonePosix
  | token
  | streamName
  | region
  | logLevel
  | contrast
  | brightness
  | sharpness
  | saturation
  | md
  | mdSense
  | humanFilter
  | resolution
  | indicatorSwitch
  | nightVision
  | volume
  | flip
  | privateMode
  | timeWatermark
  | talkMode
  | autoTracking
  | upgradeFlag
  | devMode
  | soundAlarm
  | autoUpgrade
  | enUploadKeyLog
  | enUploadDetailLog
  | enAlgoLog
  | detSwitch
  | detTone
  | detVolume
  | detDuration
  | antiFlicker
  | cruise
  | prePointX
  | prePointY
  | cloudStarTime
  | cloudEndTime
  | endpoint
  | iotUrl
  | roleAlias
  | darkFullColor
  | enEventSchedule
  | monSchedule
  | tueSchedule
  | wedSchedule
  | thursSchedule
  | friSchedule
  | staSchedule
  | sunSchedule
  | enrecord
  | recordType
  | muteRecord
  deriving DecidableEq, Repr

namespace ConfField

def ctype : ConfField → CType
  | .version => .unsignedInt
  | .region | .logLevel => .charArray 32
  | .roleAlias => .charArray 50
  | .timezone | .timeZoneId | .timeZonePosix => .charArray 64
  | .endpoint | .iotUrl => .charArray 100
  | .token | .streamName => .charArray 128
  | .prePointX | .prePointY | .monSchedule | .tueSchedule
  | .wedSchedule | .thursSchedule | .friSchedule | .staSchedule
  | .sunSchedule => .int
  | .cloudStarTime | .cloudEndTime => .longLong
  | .enEventSchedule => .bool
  | _ => .unsignedChar

def offset : ConfField → Nat
  | .version => 0
  | .timezone => 4
  | .timeZoneId => 68
  | .timeZonePosix => 132
  | .token => 196
  | .streamName => 324
  | .region => 452
  | .logLevel => 484
  | .contrast => 516
  | .brightness => 517
  | .sharpness => 518
  | .saturation => 519
  | .md => 520
  | .mdSense => 521
  | .humanFilter => 522
  | .resolution => 523
  | .indicatorSwitch => 524
  | .nightVision => 525
  | .volume => 526
  | .flip => 527
  | .privateMode => 528
  | .timeWatermark => 529
  | .talkMode => 530
  | .autoTracking => 531
  | .upgradeFlag => 532
  | .devMode => 533
  | .soundAlarm => 534
  | .autoUpgrade => 535
  | .enUploadKeyLog => 536
  | .enUploadDetailLog => 537
  | .enAlgoLog => 538
  | .detSwitch => 539
  | .detTone => 540
  | .detVolume => 541
  | .detDuration => 542
  | .antiFlicker => 543
  | .cruise => 544
  | .prePointX => 548
  | .prePointY => 552
  | .cloudStarTime => 560
  | .cloudEndTime => 568
  | .endpoint => 576
  | .iotUrl => 676
  | .roleAlias => 776
  | .darkFullColor => 826
  | .enEventSchedule => 828
  | .monSchedule => 832
  | .tueSchedule => 836
  | .wedSchedule => 840
  | .thursSchedule => 844
  | .friSchedule => 848
  | .staSchedule => 852
  | .sunSchedule => 856
  | .enrecord => 860
  | .recordType => 861
  | .muteRecord => 862

def span (field : ConfField) : Span :=
  ⟨field.offset, field.ctype.size⟩

end ConfField

def allFields : List ConfField :=
  [.version, .timezone, .timeZoneId, .timeZonePosix, .token, .streamName,
    .region, .logLevel, .contrast, .brightness, .sharpness, .saturation, .md,
    .mdSense, .humanFilter, .resolution, .indicatorSwitch, .nightVision,
    .volume, .flip, .privateMode, .timeWatermark, .talkMode, .autoTracking,
    .upgradeFlag, .devMode, .soundAlarm, .autoUpgrade, .enUploadKeyLog,
    .enUploadDetailLog, .enAlgoLog, .detSwitch, .detTone, .detVolume,
    .detDuration, .antiFlicker, .cruise, .prePointX, .prePointY,
    .cloudStarTime, .cloudEndTime, .endpoint, .iotUrl, .roleAlias,
    .darkFullColor, .enEventSchedule, .monSchedule, .tueSchedule,
    .wedSchedule, .thursSchedule, .friSchedule, .staSchedule, .sunSchedule,
    .enrecord, .recordType, .muteRecord]

theorem mem_allFields (field : ConfField) : field ∈ allFields := by
  cases field <;> decide

theorem pairwise_apart :
    allFields.Pairwise fun first second => first.span.Apart second.span := by
  have ordered : allFields.Pairwise fun first second =>
      first.span.Before second.span := by
    decide
  exact ordered.imp .inl

def confLayout : Layout ConfField where
  size := 4096
  span := ConfField.span
  inside := by
    intro field
    cases field <;> decide
  apart := by
    intro field other differ
    have symmetric : Std.Symm fun first second : ConfField =>
        first.span.Apart second.span := ⟨fun _ _ => Span.Apart.symm⟩
    exact pairwise_apart.forall (mem_allFields field) (mem_allFields other)
      differ

/-- `APPSET_CONF_S`. -/
abbrev Conf := Record confLayout.size

/-- What a member stands for. -/
inductive ConfValue where
  | number (value : Int)
  | flag (value : Bool)
  | text (value : Text)
  deriving DecidableEq

/-- The value of the bytes of a member. -/
def decode : CType → List UInt8 → ConfValue
  | .unsignedChar, bytes | .unsignedInt, bytes => .number (decodeLE bytes)
  | .int, bytes => .number (BitVec.ofNat 32 (decodeLE bytes)).toInt
  | .longLong, bytes => .number (BitVec.ofNat 64 (decodeLE bytes)).toInt
  | .bool, bytes => .flag (decide (decodeLE bytes ≠ 0))
  | .charArray _, bytes => .text (cString bytes)

def value (conf : Conf) (field : ConfField) : ConfValue :=
  decode field.ctype (load confLayout conf field)

/-- A number converted to an integer type of `size` bytes. -/
def numberBytes (size : Nat) (number : Int) : List UInt8 :=
  encodeLE size (BitVec.ofInt (8 * size) number).toNat

/-- A member and the number assigned to it. -/
def assign (field : ConfField) (number : Int) : ConfField × List UInt8 :=
  (field, numberBytes field.ctype.size number)

def currentVersion : Int := 8

/-- What `DEV_PARAM_SetDefaultConf` stores through its argument. -/
def defaultFields : List (ConfField × List UInt8) :=
  [assign .version currentVersion, assign .contrast 128,
    assign .brightness 128, assign .sharpness 128, assign .saturation 128,
    assign .md 1, assign .mdSense 1, assign .humanFilter 0,
    assign .resolution 0, assign .indicatorSwitch 1, assign .nightVision 0,
    assign .volume 5, assign .flip 0, assign .privateMode 0,
    assign .timeWatermark 1, assign .talkMode 0, assign .devMode 0,
    assign .autoTracking 0, assign .enAlgoLog 0, assign .enUploadDetailLog 1,
    assign .enUploadKeyLog 1, assign .detSwitch 0, assign .detTone 1,
    assign .detVolume 5, assign .detDuration 5, assign .autoUpgrade 1,
    assign .soundAlarm 0, assign .antiFlicker 2, assign .cruise 0,
    assign .prePointX 2047, assign .prePointY 458, assign .darkFullColor 1,
    assign .enrecord 1, assign .recordType 1, assign .muteRecord 0]

def endPointOnline : Text :=
  ascii "c1uvqmjoxoa1ul.credentials.iot.us-east-1.amazonaws.com"

def roleAliasOnline : Text :=
  ascii "KvsCameraIoTRoleAlias"

/-- A schedule that is always on. -/
def defaultSchedule : List (ConfField × List UInt8) :=
  [assign .enEventSchedule 1, assign .monSchedule 16777215,
    assign .tueSchedule 16777215, assign .wedSchedule 16777215,
    assign .thursSchedule 16777215, assign .friSchedule 16777215,
    assign .staSchedule 16777215, assign .sunSchedule 16777215]

/-- What `DEV_PARAM_SetDefaultConf` stores through `pAppParam`. -/
def defaultAppFields : List (ConfField × List UInt8) :=
  [(.endpoint, strncpyBytes endPointOnline 100),
    (.roleAlias, strncpyBytes roleAliasOnline 50)] ++ defaultSchedule

/-- `DEV_PARAM_SetDefaultConf`, but for the hardware version, which is no part
of the record; `ofApp` is whether the record is the one of `pAppParam`. -/
def setDefaultConf (ofApp : Bool) (conf : Conf) : Conf :=
  let conf := storeAll defaultFields conf
  if ofApp then storeAll defaultAppFields conf else conf

end DevParam

end MbedtlsKcp
