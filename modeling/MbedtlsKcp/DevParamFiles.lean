import MbedtlsKcp.AppsetConfJson

/-!
# The files of the configuration

`writeParamToFile`, `syncParamToFile` and their readers.  Writing is a list of
steps on the files, so that power can be lost between any two of them: opening
with `w+` leaves a file empty, and `fputs` stores as much of its text as the
disk takes.  `pAppParam` and the arguments are not NULL, and allocation
succeeds.
-/

namespace MbedtlsKcp

namespace DevParam

open ByteBuffers CStrings RecordFields CJson

/-- `DEV_INFO_S`, of whose `devBaseInfo` only the hardware version is used. -/
structure DevInfo where
  appSetInfo : Conf
  hwVersion : BitVec 32
  stopFlag : Int
  lastMotorPosUpdateTime : Int
  isParamReady : Bool

/-- `CONFIG_FILE_PATH`, `CONFIG_FILE_BACKUP_PATH` and the two old paths. -/
inductive ConfigFile where
  | config
  | backup
  | oldConfig
  | oldBackup
  deriving DecidableEq, Repr

/-- The contents of the files that exist. -/
abbrev Files := ConfigFile → Option (List UInt8)

/-- What is done to a file in one step. -/
inductive FileStep where
  | truncate (file : ConfigFile)
  | put (file : ConfigFile) (bytes : List UInt8)
  | unlink (file : ConfigFile)

def applyStep (files : Files) : FileStep → Files
  | .truncate file => Function.update files file (some [])
  | .put file bytes =>
      Function.update files file (some ((files file).getD [] ++ bytes))
  | .unlink file => Function.update files file none

def applySteps (steps : List FileStep) (files : Files) : Files :=
  steps.foldl applyStep files

/-- How a write goes: `none` when the file cannot be opened, else the number of
bytes that `fputs` stores. -/
abbrev WriteOutcome := Option Nat

/-- `writeParamToFile`, which looks at no result but that of `fopen`. -/
def writeParamToFile (print : Node → Text) (file : ConfigFile) (param : Conf)
    (outcome : WriteOutcome) : Int × List FileStep :=
  match outcome with
  | none => (-1, [])
  | some stored =>
      (0, [.truncate file,
        .put file ((appsetConfToJson print param).take stored)])

/-- `syncParamToFile`: the backup is written first, and the result is that of
the other file. -/
def syncParamToFile (print : Node → Text) (dev : DevInfo)
    (backup main : WriteOutcome) : Int × List FileStep :=
  if ¬ dev.isParamReady then (-1, [])
  else if dev.stopFlag ≠ 0 then (-1, [])
  else
    let first := writeParamToFile print .backup dev.appSetInfo backup
    let second := writeParamToFile print .config dev.appSetInfo main
    (if second.1 = 0 then 0 else -1, first.2 ++ second.2)

/-- `readParamFromFile` into `pAppParam->appSetInfo`. -/
def readParamFromFile (print : Node → Text) (parse : Text → Option Node)
    (dev : DevInfo) (files : Files) (file : ConfigFile)
    (backup main : WriteOutcome) : Int × DevInfo × List FileStep :=
  match files file with
  | none => (-1, dev, [])
  | some jsonString =>
      let read := jsonToAppsetConf parse true dev.appSetInfo jsonString
      let dev := { dev with appSetInfo := read.2.1 }
      (read.1, dev,
        if read.2.2 then (syncParamToFile print dev backup main).2 else [])

/-- A record with bytes read from a file over its start. -/
def freadConf (conf : Conf) (bytes : List UInt8) : Conf where
  bytes := overwrite conf.bytes 0 (bytes.take confLayout.size)
  length_bytes := by
    rw [length_overwrite, conf.length_bytes]
    rw [conf.length_bytes, List.length_take]
    omega

/-- The version of a record, as a number. -/
def versionOf (conf : Conf) : Nat :=
  decodeLE (load confLayout conf .version)

/-- The defaults of the members that came with newer versions. -/
def upgradeConf (conf : Conf) : Conf :=
  let version := versionOf conf
  if version < 8 then
    storeAll
      ((if version < 2 then [assign .antiFlicker 1] else []) ++
        (if version < 3 then
          [assign .detTone 1, assign .detVolume 5, assign .detDuration 5]
        else []) ++
        (if version < 5 then [assign .volume 7] else []) ++
        (if version < 8 then [assign .darkFullColor 1] else []) ++
        [assign .version currentVersion]) conf
  else
    conf

/-- `strncpy` of a default into a member that holds the empty string. -/
def fillEmpty (field : ConfField) (text : Text) (conf : Conf) : Conf :=
  if cString (load confLayout conf field) = [] then
    store confLayout conf field (strncpyBytes text field.ctype.size)
  else
    conf

/-- `readOldParamFile`: a file of the bytes of the record. -/
def readOldParamFile (dev : DevInfo) (files : Files) (file : ConfigFile) :
    Int × DevInfo :=
  match files file with
  | none => (-1, dev)
  | some bytes =>
      let conf := freadConf dev.appSetInfo bytes
      if confLayout.size ≤ bytes.length then
        (0, { dev with
          appSetInfo :=
            fillEmpty .roleAlias roleAliasOnline
              (fillEmpty .endpoint endPointOnline (upgradeConf conf)) })
      else
        (-1, { dev with appSetInfo := conf })

/-- The old files that are there are removed. -/
def unlinkOldFiles (files : Files) : List FileStep :=
  (if (files .oldConfig).isSome then [.unlink .oldConfig] else []) ++
    (if (files .oldBackup).isSome then [.unlink .oldBackup] else [])

/-- `syncParamFromFile`: its result, `pAppParam`, and what it does to the
files. -/
def syncParamFromFile (print : Node → Text) (parse : Text → Option Node)
    (dev : DevInfo) (files : Files) (backup main : WriteOutcome) :
    Int × DevInfo × List FileStep :=
  let recoverBackup := fun dev : DevInfo =>
    (writeParamToFile print .backup dev.appSetInfo backup).2
  let recoverParam := fun dev : DevInfo =>
    (writeParamToFile print .config dev.appSetInfo main).2
  let read := readParamFromFile print parse dev files .config backup main
  if read.1 = 0 then (0, read.2.1, read.2.2 ++ unlinkOldFiles files)
  else
    let read := readParamFromFile print parse read.2.1 files .backup backup main
    if read.1 = 0 then
      (0, read.2.1,
        read.2.2 ++ recoverParam read.2.1 ++ unlinkOldFiles files)
    else
      let read := readOldParamFile read.2.1 files .oldConfig
      if read.1 = 0 then
        (0, read.2,
          recoverBackup read.2 ++ recoverParam read.2 ++ unlinkOldFiles files)
      else
        let read := readOldParamFile read.2 files .oldBackup
        if read.1 = 0 then
          (0, read.2,
            recoverBackup read.2 ++ recoverParam read.2 ++
              unlinkOldFiles files)
        else
          (-1, { read.2 with
            appSetInfo := setDefaultConf true read.2.appSetInfo }, [])

end DevParam

end MbedtlsKcp
