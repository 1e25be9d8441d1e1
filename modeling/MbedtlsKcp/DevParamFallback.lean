import MbedtlsKcp.DevParamCoherence

/-!
# Which file the configuration comes from

`syncParamFromFile` tries four files one after the other, all of them into the
live record.  A text that is not parsed leaves defaults there and an old file
that is too short leaves its bytes.  The next file that can be read replaces
both; the defaults at the end replace only the members that have one.
-/

namespace MbedtlsKcp

namespace DevParam

open ByteBuffers RecordFields CJson

/-! ## Defaults -/

/-- What `DEV_PARAM_SetDefaultConf` stores in the record of `pAppParam`. -/
def allDefaults : List (ConfField × List UInt8) :=
  defaultFields ++ defaultAppFields

theorem setDefaultConf_eq (conf : Conf) :
    setDefaultConf true conf = storeAll allDefaults conf := by
  rw [setDefaultConf, if_pos rfl, allDefaults, storeAll, storeAll, storeAll,
    List.foldl_append]

theorem wholeFields_allDefaults : WholeFields confLayout allDefaults := by
  have numbers : WholeFields confLayout defaultFields := by
    decide
  have others : WholeFields confLayout defaultAppFields := by
    decide
  intro entry member
  rcases List.mem_append.mp member with first | second
  · exact numbers entry first
  · exact others entry second

/-- The records agree in all that has no default. -/
def AgreeUndefaulted (first second : Conf) : Prop :=
  SameRest allDefaults first second

theorem setDefaultConf_eq_iff (first second : Conf) :
    setDefaultConf true first = setDefaultConf true second ↔
      AgreeUndefaulted first second := by
  rw [setDefaultConf_eq, setDefaultConf_eq]
  exact storeAll_eq_iff wholeFields_allDefaults

theorem agreeUndefaulted_setDefaultConf (conf : Conf) :
    AgreeUndefaulted (setDefaultConf true conf) conf := by
  rw [setDefaultConf_eq]
  exact sameRest_storeAll wholeFields_allDefaults

/-! ## Reading one file -/

/-- A file of these contents is read: its text is parsed, or it is as long as
the record. -/
def readableAs (parse : Text → Option Node) : ConfigFile → List UInt8 → Bool
  | .config, text | .backup, text => (parse text).isSome
  | .oldConfig, bytes | .oldBackup, bytes => confLayout.size ≤ bytes.length

/-- A file that can be read, with its contents. -/
def source (parse : Text → Option Node) (files : Files) (file : ConfigFile) :
    Option (ConfigFile × List UInt8) :=
  ((files file).filter (readableAs parse file)).map (Prod.mk file)

/-- The first file that can be read. -/
def firstSource (parse : Text → Option Node) (files : Files) :
    Option (ConfigFile × List UInt8) :=
  (source parse files .config).or
    ((source parse files .backup).or
      ((source parse files .oldConfig).or (source parse files .oldBackup)))

/-- The record with as much of an old file as there is. -/
def overlaid (contents : Option (List UInt8)) (conf : Conf) : Conf :=
  match contents with
  | none => conf
  | some bytes => freadConf conf bytes

/-- The record that is loaded over another one. -/
def loadFrom (parse : Text → Option Node) (conf : Conf) :
    ConfigFile × List UInt8 → Conf
  | (.config, text) | (.backup, text) =>
      (jsonToAppsetConf parse true conf text).2.1
  | (.oldConfig, bytes) | (.oldBackup, bytes) =>
      fillEmpty .roleAlias roleAliasOnline
        (fillEmpty .endpoint endPointOnline
          (upgradeConf (freadConf conf bytes)))

theorem getElem?_freadConf (conf : Conf) (bytes : List UInt8) (i : Nat) :
    (freadConf conf bytes).bytes[i]? =
      if i < (bytes.take confLayout.size).length then
        (bytes.take confLayout.size)[i]?
      else conf.bytes[i]? := by
  have fits : 0 + (bytes.take confLayout.size).length ≤ conf.bytes.length := by
    rw [conf.length_bytes, List.length_take]
    omega
  rw [freadConf]
  dsimp only
  rw [getElem?_overwrite fits]
  simp

theorem freadConf_whole {bytes : List UInt8}
    (whole : confLayout.size ≤ bytes.length) (first second : Conf) :
    freadConf first bytes = freadConf second bytes := by
  apply Record.ext_getElem?
  intro i
  rw [getElem?_freadConf, getElem?_freadConf]
  split_ifs with inside
  · rfl
  · rw [List.length_take, Nat.min_eq_left whole] at inside
    rw [List.getElem?_eq_none (by rw [first.length_bytes]; omega),
      List.getElem?_eq_none (by rw [second.length_bytes]; omega)]

theorem AgreeUndefaulted.overlaid {first second : Conf}
    (agree : AgreeUndefaulted first second)
    (contents : Option (List UInt8)) :
    AgreeUndefaulted (overlaid contents first) (overlaid contents second) := by
  cases contents with
  | none => exact agree
  | some bytes =>
      intro i untouched
      show (freadConf first bytes).bytes[i]? = (freadConf second bytes).bytes[i]?
      rw [getElem?_freadConf, getElem?_freadConf, agree i untouched]

/-- What is loaded does not depend on what was left in the record, but for what
has no default. -/
theorem loadFrom_congr {parse : Text → Option Node} {files : Files}
    {file : ConfigFile} {found : ConfigFile × List UInt8}
    (readable : source parse files file = some found) {first second : Conf}
    (agree : AgreeUndefaulted first second) :
    loadFrom parse first found = loadFrom parse second found := by
  obtain ⟨contents, kept, rfl⟩ := Option.map_eq_some_iff.mp readable
  obtain ⟨-, read⟩ := Option.filter_eq_some_iff.mp kept
  have defaults := (setDefaultConf_eq_iff first second).mpr agree
  cases file with
  | config | backup => simp only [loadFrom, jsonToAppsetConf, defaults]
  | oldConfig | oldBackup =>
      have whole : confLayout.size ≤ contents.length := by
        simpa [readableAs] using read
      rw [loadFrom, loadFrom, freadConf_whole whole first second]

section Reading

variable (print : Node → Text) {parse : Text → Option Node} (dev : DevInfo)
  {files : Files} {file : ConfigFile} (backup main : WriteOutcome)

theorem readParamFromFile_of_source {found : ConfigFile × List UInt8}
    (isText : file = .config ∨ file = .backup)
    (readable : source parse files file = some found) :
    (readParamFromFile print parse dev files file backup main).1 = 0 ∧
      (readParamFromFile print parse dev files file backup main).2.1.appSetInfo =
        loadFrom parse dev.appSetInfo found := by
  obtain ⟨contents, kept, rfl⟩ := Option.map_eq_some_iff.mp readable
  obtain ⟨there, read⟩ := Option.filter_eq_some_iff.mp kept
  have parsed : (parse contents).isSome = true := by
    rcases isText with rfl | rfl <;> exact read
  obtain ⟨root, tree⟩ := Option.isSome_iff_exists.mp parsed
  rw [readParamFromFile, there]
  rcases isText with rfl | rfl <;>
    simp [loadFrom, jsonToAppsetConf, tree]

theorem readParamFromFile_of_no_source (isText : file = .config ∨ file = .backup)
    (unreadable : source parse files file = none) :
    (readParamFromFile print parse dev files file backup main).1 = -1 ∧
      AgreeUndefaulted
        (readParamFromFile print parse dev files file backup main).2.1.appSetInfo
        dev.appSetInfo := by
  have failed := Option.map_eq_none_iff.mp unreadable
  rw [readParamFromFile]
  cases there : files file with
  | none => exact ⟨rfl, fun _ _ => rfl⟩
  | some contents =>
      have unread := Option.filter_eq_none_iff.mp failed contents there
      have unparsed : parse contents = none := by
        rcases isText with rfl | rfl <;> simpa [readableAs] using unread
      simp only [jsonToAppsetConf, unparsed]
      exact ⟨trivial, agreeUndefaulted_setDefaultConf dev.appSetInfo⟩

theorem readOldParamFile_of_source {found : ConfigFile × List UInt8}
    (isOld : file = .oldConfig ∨ file = .oldBackup)
    (readable : source parse files file = some found) :
    (readOldParamFile dev files file).1 = 0 ∧
      (readOldParamFile dev files file).2.appSetInfo =
        loadFrom parse dev.appSetInfo found := by
  obtain ⟨contents, kept, rfl⟩ := Option.map_eq_some_iff.mp readable
  obtain ⟨there, read⟩ := Option.filter_eq_some_iff.mp kept
  have whole : confLayout.size ≤ contents.length := by
    rcases isOld with rfl | rfl <;> simpa [readableAs] using read
  rw [readOldParamFile, there]
  rcases isOld with rfl | rfl <;> simp [loadFrom, whole]

theorem readOldParamFile_of_no_source
    (isOld : file = .oldConfig ∨ file = .oldBackup)
    (unreadable : source parse files file = none) :
    (readOldParamFile dev files file).1 = -1 ∧
      (readOldParamFile dev files file).2.appSetInfo =
        overlaid (files file) dev.appSetInfo := by
  have failed := Option.map_eq_none_iff.mp unreadable
  rw [readOldParamFile]
  cases there : files file with
  | none => exact ⟨rfl, rfl⟩
  | some contents =>
      have unread := Option.filter_eq_none_iff.mp failed contents there
      have short : ¬ confLayout.size ≤ contents.length := by
        rcases isOld with rfl | rfl <;> simpa [readableAs] using unread
      simp [short, overlaid]

end Reading

/-! ## Reading all of them -/

/-- What the old files leave in a zeroed record. -/
def leftovers (files : Files) : Conf :=
  overlaid (files .oldBackup) (overlaid (files .oldConfig) confZero)

/-- The configuration of a start, by the first file that can be read. -/
def startConf (parse : Text → Option Node) (files : Files) : Conf :=
  match firstSource parse files with
  | some found => loadFrom parse confZero found
  | none => setDefaultConf true (leftovers files)

theorem syncParamFromFile_conf (print : Node → Text)
    (parse : Text → Option Node) {dev : DevInfo} (files : Files)
    (backup main : WriteOutcome) (zeroed : dev.appSetInfo = confZero) :
    (syncParamFromFile print parse dev files backup main).2.1.appSetInfo =
      startConf parse files := by
  have failed : (-1 : Int) ≠ 0 := by decide
  rw [syncParamFromFile, startConf, firstSource]
  cases first : source parse files .config with
  | some found =>
      obtain ⟨returns, loads⟩ := readParamFromFile_of_source print dev
        backup main (.inl rfl) first
      rw [if_pos returns, Option.some_or]
      dsimp only
      rw [loads, zeroed]
  | none =>
      obtain ⟨returns, left⟩ := readParamFromFile_of_no_source print dev
        backup main (.inl rfl) first
      rw [if_neg (by rw [returns]; exact failed), Option.none_or]
      generalize (readParamFromFile print parse dev files .config backup
        main).2.1 = afterConfig at left ⊢
      rw [zeroed] at left
      cases second : source parse files .backup with
      | some found =>
          obtain ⟨returns, loads⟩ := readParamFromFile_of_source print
            afterConfig backup main (.inr rfl) second
          rw [if_pos returns, Option.some_or]
          dsimp only
          rw [loads, loadFrom_congr second left]
      | none =>
          obtain ⟨returns, kept⟩ := readParamFromFile_of_no_source print
            afterConfig backup main (.inr rfl) second
          rw [if_neg (by rw [returns]; exact failed), Option.none_or]
          generalize (readParamFromFile print parse afterConfig files .backup
            backup main).2.1 = afterBackup at kept ⊢
          have agree : AgreeUndefaulted afterBackup.appSetInfo confZero :=
            SameRest.trans kept left
          cases third : source parse files .oldConfig with
          | some found =>
              obtain ⟨returns, loads⟩ := readOldParamFile_of_source afterBackup
                (.inl rfl) third
              rw [if_pos returns, Option.some_or]
              dsimp only
              rw [loads, loadFrom_congr third agree]
          | none =>
              obtain ⟨returns, laid⟩ := readOldParamFile_of_no_source
                afterBackup (.inl rfl) third
              rw [if_neg (by rw [returns]; exact failed), Option.none_or]
              generalize (readOldParamFile afterBackup files .oldConfig).2 =
                afterOld at laid ⊢
              have agreeOld : AgreeUndefaulted afterOld.appSetInfo
                  (overlaid (files .oldConfig) confZero) := by
                rw [laid]
                exact agree.overlaid _
              cases fourth : source parse files .oldBackup with
              | some found =>
                  obtain ⟨returns, loads⟩ := readOldParamFile_of_source
                    afterOld (.inr rfl) fourth
                  rw [if_pos returns]
                  dsimp only
                  obtain ⟨contents, kept, rfl⟩ :=
                    Option.map_eq_some_iff.mp fourth
                  obtain ⟨-, whole⟩ := Option.filter_eq_some_iff.mp kept
                  rw [loads, loadFrom, loadFrom, freadConf_whole
                    (by simpa [readableAs] using whole) _ confZero]
              | none =>
                  obtain ⟨returns, laid⟩ := readOldParamFile_of_no_source
                    afterOld (.inr rfl) fourth
                  rw [if_neg (by rw [returns]; exact failed)]
                  dsimp only
                  rw [laid, setDefaultConf_eq_iff]
                  exact agreeOld.overlaid _

theorem initDev_conf (print : Node → Text) (parse : Text → Option Node)
    (files : Files) (backup main : WriteOutcome) :
    (initDev print parse files backup main).appSetInfo =
      startConf parse files :=
  syncParamFromFile_conf print parse files backup main rfl

theorem startConf_eq_iff {parse : Text → Option Node} {files other : Files}
    (agree : firstSource parse files = firstSource parse other) :
    startConf parse files = startConf parse other ↔
      (firstSource parse files = none →
        AgreeUndefaulted (leftovers files) (leftovers other)) := by
  rw [startConf, startConf, ← agree]
  cases firstSource parse files with
  | some found => exact iff_of_true rfl nofun
  | none =>
      dsimp only
      rw [setDefaultConf_eq_iff]
      exact ⟨fun same _ => same, fun same => same rfl⟩

/-- File systems that agree on the first file that can be read start with one
configuration, if there is one; otherwise exactly when their old files leave
the same bytes where there is no default. -/
theorem initDev_conf_eq_iff {parse : Text → Option Node} {files other : Files}
    (agree : firstSource parse files = firstSource parse other)
    (print : Node → Text) (backup main otherBackup otherMain : WriteOutcome) :
    (initDev print parse files backup main).appSetInfo =
        (initDev print parse other otherBackup otherMain).appSetInfo ↔
      (firstSource parse files = none →
        AgreeUndefaulted (leftovers files) (leftovers other)) := by
  rw [initDev_conf, initDev_conf]
  exact startConf_eq_iff agree

def noFiles : Files :=
  fun _ => none

theorem leftovers_noFiles : leftovers noFiles = confZero :=
  rfl

/-- A damaged main file is as good as none. -/
theorem initDev_conf_noFiles :
    (initDev (printNode 0) (fun _ => none) noFiles none none).appSetInfo =
      (initDev (printNode 0) (fun _ => none)
        (Function.update noFiles .config (some [0])) none none).appSetInfo := by
  have agree : firstSource (fun _ => none) noFiles =
      firstSource (fun _ => none)
        (Function.update noFiles .config (some [0])) := rfl
  have left : leftovers (Function.update noFiles .config (some [0])) =
      confZero := rfl
  refine (initDev_conf_eq_iff agree _ _ _ _ _).mpr fun _ i _ => ?_
  rw [leftovers_noFiles, left]

/-- An old file of five bytes, the last of which is the start of the time
zone. -/
def shortFiles : Files :=
  Function.update noFiles .oldConfig (some [0, 0, 0, 0, 65])

/-- What was read of an old file that is too short stays in the time zone. -/
theorem not_forall_initDev_conf_eq :
    ¬ ∀ (print : Node → Text) (parse : Text → Option Node)
      (files other : Files) (backup main : WriteOutcome),
      firstSource parse files = firstSource parse other →
        (initDev print parse files backup main).appSetInfo =
          (initDev print parse other backup main).appSetInfo := by
  intro all
  have agree : firstSource (fun _ => none) shortFiles =
      firstSource (fun _ => none) noFiles := rfl
  have same := all (printNode 0) _ shortFiles noFiles none none agree
  rw [initDev_conf, initDev_conf, startConf_eq_iff agree] at same
  have untouched : Untouched confLayout allDefaults 4 := by
    have numbers : Untouched confLayout defaultFields 4 := by
      decide
    have others : Untouched confLayout defaultAppFields 4 := by
      decide
    intro entry member
    rcases List.mem_append.mp member with first | second
    · exact numbers entry first
    · exact others entry second
  have byte := same rfl 4 untouched
  have left : (leftovers shortFiles).bytes[4]? = some 65 := by
    show (freadConf confZero [0, 0, 0, 0, 65]).bytes[4]? = some 65
    rw [getElem?_freadConf]
    rfl
  have zero : (leftovers noFiles).bytes[4]? = some 0 := by
    rw [leftovers_noFiles, confZero]
    exact List.getElem?_replicate_of_lt (by decide)
  rw [left, zero] at byte
  cases byte

end DevParam

end MbedtlsKcp
