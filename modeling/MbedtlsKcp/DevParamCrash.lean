import MbedtlsKcp.AppsetConfRoundTrip
import MbedtlsKcp.DevParamFiles

/-!
# Losing power while the configuration is saved

A save writes the backup and then the main file, each in place.  As long as
the file that is not being written holds all of its text, one of the two can be
read back; a write that was cut short goes unnoticed, and the next one destroys
the other file.
-/

namespace MbedtlsKcp

namespace DevParam

open RecordFields CJson

/-- A call of `syncParamToFile`, with the number of bytes each of its writes
stores. -/
structure Call where
  dev : DevInfo
  backupStored : Nat
  mainStored : Nat

namespace Call

variable (print : Node → Text) (call : Call)

def conf : Conf :=
  call.dev.appSetInfo

def result : Int × List FileStep :=
  syncParamToFile print call.dev (some call.backupStored)
    (some call.mainStored)

def steps : List FileStep :=
  (call.result print).2

/-- The configuration saved last, after the call. -/
def savedAfter (saved : Conf) : Conf :=
  if (call.result print).1 = 0 then call.conf else saved

/-- The parameters are ready and no stop was asked for, so the call writes. -/
def Saves : Prop :=
  call.dev.isParamReady = true ∧ call.dev.stopFlag = 0

instance : Decidable call.Saves :=
  inferInstanceAs (Decidable (_ ∧ _))

/-- A write of the call stores all of the text. -/
def Whole (stored : Nat) : Prop :=
  (appsetConfToJson print call.conf).length ≤ stored

theorem result_of_saves {call : Call} (saves : call.Saves) :
    call.result print =
      (0, [.truncate .backup,
        .put .backup ((appsetConfToJson print call.conf).take
          call.backupStored),
        .truncate .config,
        .put .config ((appsetConfToJson print call.conf).take
          call.mainStored)]) := by
  rw [result, syncParamToFile, if_neg (by simp [saves.1]),
    if_neg (by simp [saves.2])]
  rfl

theorem result_of_not_saves {call : Call} (refuses : ¬ call.Saves) :
    call.result print = (-1, []) := by
  rw [result, syncParamToFile]
  split
  case isTrue => rfl
  case isFalse ready =>
    split
    case isTrue => rfl
    case isFalse running =>
      exact absurd ⟨by simpa using ready, by simpa using running⟩ refuses

end Call

variable (print : Node → Text) (parse : Text → Option Node)

/-- What the program relies on the library for, at one configuration: its text
is parsed, and no text cut short is. -/
structure ParsesPrinted (conf : Conf) : Prop where
  nonempty : appsetConfToJson print conf ≠ []
  whole : parse (appsetConfToJson print conf) =
    some (reparse (appsetConfTree conf))
  short : ∀ text, text <+: appsetConfToJson print conf →
    text ≠ appsetConfToJson print conf → parse text = none

/-- The file holds the whole text of a configuration. -/
def Holds (files : Files) (file : ConfigFile) (conf : Conf) : Prop :=
  files file = some (appsetConfToJson print conf)

/-- The record is the one read from the whole text of `conf`. -/
def LoadedFrom (conf loaded : Conf) : Prop :=
  ∃ before, jsonToAppsetConf parse true before (appsetConfToJson print conf) =
    (0, loaded, syncFile (reparse (appsetConfTree conf)))

/-- One of the two files holds one of the configurations, and a restart loads
one of them. -/
structure Recoverable (confs : List Conf) (files : Files) : Prop where
  held : ∃ conf ∈ confs,
    Holds print files .config conf ∨ Holds print files .backup conf
  loads : ∀ (dev : DevInfo) (backup main : WriteOutcome),
    (syncParamFromFile print parse dev files backup main).1 = 0 ∧
      ∃ conf ∈ confs, LoadedFrom print parse conf
        (syncParamFromFile print parse dev files backup main).2.1.appSetInfo

/-- At every point of the calls, the first of them reached with `files` and
`saved`, the configuration saved last or the one being saved is recoverable. -/
def CrashConsistent : Files → Conf → List Call → Prop
  | files, saved, [] => Recoverable print parse [saved] files
  | files, saved, call :: calls =>
      Recoverable print parse [saved] files ∧
        (∀ performed, performed <+: call.steps print →
          Recoverable print parse [saved, call.conf]
            (applySteps performed files)) ∧
        CrashConsistent (applySteps (call.steps print) files)
          (call.savedAfter print saved) calls

/-- Of each call that writes, the backup is stored whole, and the main file too
if a later call writes. -/
def WritesWhole : List Call → Prop
  | [] => True
  | call :: calls =>
      (call.Saves → call.Whole print call.backupStored ∧
        ((∃ later ∈ calls, later.Saves) →
          call.Whole print call.mainStored)) ∧
        WritesWhole calls

variable {print parse}

/-! ## Restarting -/

theorem recoverable_of_config {confs : List Conf} {files : Files} {conf : Conf}
    (parses : ParsesPrinted print parse conf) (listed : conf ∈ confs)
    (holds : Holds print files .config conf) :
    Recoverable print parse confs files where
  held := ⟨conf, listed, .inl holds⟩
  loads := by
    intro dev backup main
    have read : readParamFromFile print parse dev files .config backup main =
        (0, { dev with
            appSetInfo :=
              readTree (reparse (appsetConfTree conf))
                (setDefaultConf true dev.appSetInfo) },
          (readParamFromFile print parse dev files .config backup main).2.2) := by
      rw [readParamFromFile, holds]
      simp only [jsonToAppsetConf, parses.whole]
    rw [syncParamFromFile, read]
    simp only [if_true]
    refine ⟨trivial, conf, listed, dev.appSetInfo, ?_⟩
    rw [jsonToAppsetConf, parses.whole]

theorem recoverable_of_backup {confs : List Conf} {files : Files} {conf : Conf}
    {text : List UInt8} (parses : ParsesPrinted print parse conf)
    (listed : conf ∈ confs) (holds : Holds print files .backup conf)
    (lost : files .config = some text) (unparsed : parse text = none) :
    Recoverable print parse confs files where
  held := ⟨conf, listed, .inr holds⟩
  loads := by
    intro dev backup main
    have failed : readParamFromFile print parse dev files .config backup main =
        (-1, { dev with appSetInfo := setDefaultConf true dev.appSetInfo },
          []) := by
      rw [readParamFromFile, lost]
      simp only [jsonToAppsetConf, unparsed]
      rfl
    have read : ∀ dev, readParamFromFile print parse dev files .backup backup
        main =
        (0, { dev with
            appSetInfo :=
              readTree (reparse (appsetConfTree conf))
                (setDefaultConf true dev.appSetInfo) },
          (readParamFromFile print parse dev files .backup backup main).2.2) := by
      intro dev
      rw [readParamFromFile, holds]
      simp only [jsonToAppsetConf, parses.whole]
    rw [syncParamFromFile, failed]
    simp only [show ¬ (-1 : Int) = 0 by decide, if_false]
    rw [read]
    simp only [if_true]
    refine ⟨trivial, conf, listed, setDefaultConf true dev.appSetInfo, ?_⟩
    rw [jsonToAppsetConf, parses.whole]

theorem Recoverable.mono {few many : List Conf} {files : Files}
    (recovers : Recoverable print parse few files)
    (more : ∀ conf ∈ few, conf ∈ many) :
    Recoverable print parse many files where
  held := by
    obtain ⟨conf, listed, holds⟩ := recovers.held
    exact ⟨conf, more conf listed, holds⟩
  loads := by
    intro dev backup main
    obtain ⟨succeeds, conf, listed, loaded⟩ := recovers.loads dev backup main
    exact ⟨succeeds, conf, more conf listed, loaded⟩

/-! ## The points of a save -/

theorem ParsesPrinted.unparsed {conf : Conf} {stored : Nat}
    (parses : ParsesPrinted print parse conf)
    (cut : stored < (appsetConfToJson print conf).length) :
    parse ((appsetConfToJson print conf).take stored) = none := by
  apply parses.short _ (List.take_prefix _ _)
  intro same
  have lengths := congrArg List.length same
  rw [List.length_take] at lengths
  omega

/-- A text that was cut short is the whole text of no configuration. -/
theorem ParsesPrinted.whole_of_take_eq {conf other : Conf} {stored : Nat}
    (parses : ParsesPrinted print parse conf)
    (others : ParsesPrinted print parse other)
    (same : (appsetConfToJson print conf).take stored =
      appsetConfToJson print other) :
    (appsetConfToJson print conf).length ≤ stored := by
  by_cases cut : stored < (appsetConfToJson print conf).length
  · have failed := parses.unparsed cut
    rw [same, others.whole] at failed
    cases failed
  · omega

/-- The main file holds what was stored of a text, and the backup all of it. -/
theorem recoverable_of_stored {confs : List Conf} {files : Files} {conf : Conf}
    {stored : Nat} (parses : ParsesPrinted print parse conf)
    (listed : conf ∈ confs) (holds : Holds print files .backup conf)
    (main : files .config =
      some ((appsetConfToJson print conf).take stored)) :
    Recoverable print parse confs files := by
  by_cases cut : stored < (appsetConfToJson print conf).length
  · exact recoverable_of_backup parses listed holds main (parses.unparsed cut)
  · rw [List.take_of_length_le (by omega)] at main
    exact recoverable_of_config parses listed main

section OneSave

variable {call : Call} {files : Files}

/-- The files after the first `count` steps of a save. -/
def filesDuring (print : Node → Text) (call : Call) (files : Files)
    (count : Nat) : Files :=
  applySteps ((call.steps print).take count) files

theorem steps_of_saves (saves : call.Saves) :
    call.steps print =
      [.truncate .backup,
        .put .backup ((appsetConfToJson print call.conf).take
          call.backupStored),
        .truncate .config,
        .put .config ((appsetConfToJson print call.conf).take
          call.mainStored)] := by
  rw [Call.steps, Call.result_of_saves print saves]

theorem config_before_main (saves : call.Saves) {count : Nat}
    (early : count ≤ 2) :
    filesDuring print call files count .config = files .config := by
  rw [filesDuring, steps_of_saves saves]
  match count, early with
  | 0, _ => rfl
  | 1, _ => rfl
  | 2, _ => rfl

theorem backup_opened (saves : call.Saves) :
    filesDuring print call files 1 .backup = some [] := by
  rw [filesDuring, steps_of_saves saves]
  rfl

theorem backup_from_main (saves : call.Saves) {count : Nat}
    (late : 2 ≤ count) :
    filesDuring print call files count .backup =
      some ((appsetConfToJson print call.conf).take call.backupStored) := by
  rw [filesDuring, steps_of_saves saves]
  match count, late with
  | 2, _ => rfl
  | 3, _ => rfl
  | rest + 4, _ =>
      rw [List.take_of_length_le (Nat.le_add_left 4 rest)]
      rfl

theorem config_opened (saves : call.Saves) :
    filesDuring print call files 3 .config = some [] := by
  rw [filesDuring, steps_of_saves saves]
  rfl

theorem config_written (saves : call.Saves) {count : Nat} (late : 4 ≤ count) :
    filesDuring print call files count .config =
      some ((appsetConfToJson print call.conf).take call.mainStored) := by
  rw [filesDuring, steps_of_saves saves]
  match count, late with
  | rest + 4, _ =>
      rw [List.take_of_length_le (Nat.le_add_left 4 rest)]
      rfl

theorem filesDuring_all (saves : call.Saves) :
    filesDuring print call files 4 = applySteps (call.steps print) files := by
  rw [filesDuring, steps_of_saves saves]
  rfl

theorem applySteps_performed {performed : List FileStep}
    (before : performed <+: call.steps print) :
    applySteps performed files =
      filesDuring print call files performed.length := by
  rw [filesDuring, ← List.prefix_iff_eq_take.mp before]

/-- A save whose backup is stored whole can be cut anywhere. -/
theorem recoverable_during {saved : Conf} (saves : call.Saves)
    (savedParses : ParsesPrinted print parse saved)
    (parses : ParsesPrinted print parse call.conf)
    (holds : Holds print files .config saved)
    (whole : call.Whole print call.backupStored) (count : Nat) :
    Recoverable print parse [saved, call.conf]
      (filesDuring print call files count) := by
  by_cases early : count ≤ 2
  · apply recoverable_of_config savedParses List.mem_cons_self
    rw [Holds, config_before_main saves early]
    exact holds
  · have backup : Holds print (filesDuring print call files count) .backup
        call.conf := by
      rw [Holds, backup_from_main saves (by omega),
        List.take_of_length_le whole]
    have listed : call.conf ∈ [saved, call.conf] :=
      List.mem_cons_of_mem _ List.mem_cons_self
    by_cases opened : count = 3
    · apply recoverable_of_stored parses listed backup
      rw [opened, config_opened saves]
      exact (congrArg some (List.take_zero)).symm
    · exact recoverable_of_stored parses listed backup
        (config_written saves (by omega))

/-- After a save whose backup is stored whole, it is the one that is read. -/
theorem recoverable_after (saves : call.Saves)
    (parses : ParsesPrinted print parse call.conf)
    (whole : call.Whole print call.backupStored) :
    Recoverable print parse [call.conf]
      (applySteps (call.steps print) files) := by
  rw [← filesDuring_all saves]
  apply recoverable_of_stored parses List.mem_cons_self _
    (config_written saves (Nat.le_refl _))
  rw [Holds, backup_from_main saves (by omega), List.take_of_length_le whole]

end OneSave

/-! ## The runs -/

theorem applySteps_of_not_saves {call : Call} (refuses : ¬ call.Saves)
    (files : Files) : applySteps (call.steps print) files = files := by
  rw [Call.steps, Call.result_of_not_saves print refuses]
  rfl

theorem savedAfter_of_not_saves {call : Call} (refuses : ¬ call.Saves)
    (saved : Conf) : call.savedAfter print saved = saved := by
  rw [Call.savedAfter, Call.result_of_not_saves print refuses]
  exact if_neg (show ¬ (-1 : Int) = 0 by decide)

theorem savedAfter_of_saves {call : Call} (saves : call.Saves) (saved : Conf) :
    call.savedAfter print saved = call.conf := by
  rw [Call.savedAfter, Call.result_of_saves print saves]
  exact if_pos rfl

/-- Calls that write nothing leave what can be recovered. -/
theorem crashConsistent_of_not_saves {files : Files} {saved : Conf}
    {calls : List Call} (refuse : ∀ call ∈ calls, ¬ call.Saves)
    (recovers : Recoverable print parse [saved] files) :
    CrashConsistent print parse files saved calls := by
  induction calls with
  | nil => exact recovers
  | cons call calls ih =>
      have refuses := refuse call List.mem_cons_self
      have rest := ih fun later listed =>
        refuse later (List.mem_cons_of_mem _ listed)
      refine ⟨recovers, ?_, ?_⟩
      · intro performed before
        rw [Call.steps, Call.result_of_not_saves print refuses,
          List.prefix_nil] at before
        rw [before]
        exact recovers.mono fun conf listed => by
          rw [List.mem_singleton.mp listed]
          exact List.mem_cons_self
      · rw [applySteps_of_not_saves refuses, savedAfter_of_not_saves refuses]
        exact rest

theorem crashConsistent_of_writesWhole {files : Files} {saved : Conf}
    {calls : List Call}
    (parses : ∀ conf ∈ saved :: calls.map Call.conf,
      ParsesPrinted print parse conf)
    (holds : Holds print files .config saved)
    (whole : WritesWhole print calls) :
    CrashConsistent print parse files saved calls := by
  induction calls generalizing files saved with
  | nil =>
      exact recoverable_of_config (parses saved List.mem_cons_self)
        List.mem_cons_self holds
  | cons call calls ih =>
      have savedParses := parses saved List.mem_cons_self
      have callParses := parses call.conf (by simp)
      have recovers : Recoverable print parse [saved] files :=
        recoverable_of_config savedParses List.mem_cons_self holds
      by_cases saves : call.Saves
      · obtain ⟨backupWhole, mainWhole⟩ := whole.1 saves
        refine ⟨recovers, ?_, ?_⟩
        · intro performed before
          rw [applySteps_performed before]
          exact recoverable_during saves savedParses callParses holds
            backupWhole _
        · rw [savedAfter_of_saves saves]
          by_cases again : ∃ later ∈ calls, later.Saves
          · apply ih _ _ whole.2
            · intro conf listed
              apply parses
              simp only [List.map_cons, List.mem_cons] at listed ⊢
              exact .inr listed
            · rw [Holds, ← filesDuring_all saves,
                config_written saves (Nat.le_refl _),
                List.take_of_length_le (mainWhole again)]
          · apply crashConsistent_of_not_saves
            · intro later listed laterSaves
              exact again ⟨later, listed, laterSaves⟩
            · exact recoverable_after saves callParses backupWhole
      · have rest := ih (fun conf listed => by
          apply parses
          simp only [List.map_cons, List.mem_cons] at listed ⊢
          exact listed.imp_right .inr) holds whole.2
        refine ⟨recovers, ?_, ?_⟩
        · intro performed before
          rw [Call.steps, Call.result_of_not_saves print saves,
            List.prefix_nil] at before
          rw [before]
          exact recovers.mono fun conf listed => by
            rw [List.mem_singleton.mp listed]
            exact List.mem_cons_self
        · rw [applySteps_of_not_saves saves, savedAfter_of_not_saves saves]
          exact rest

/-- A point of a save in a run that is consistent. -/
theorem CrashConsistent.during {files : Files} {saved : Conf} {call : Call}
    {calls : List Call}
    (consistent : CrashConsistent print parse files saved (call :: calls))
    (count : Nat) :
    Recoverable print parse [saved, call.conf]
      (filesDuring print call files count) :=
  consistent.2.1 _ (List.take_prefix _ _)

/-- While later calls write, the main file holds a whole configuration. -/
theorem CrashConsistent.holds_config {files : Files} {saved : Conf}
    {calls : List Call}
    (parses : ∀ conf ∈ saved :: calls.map Call.conf,
      ParsesPrinted print parse conf)
    (consistent : CrashConsistent print parse files saved calls)
    (again : ∃ later ∈ calls, later.Saves) :
    ∃ conf ∈ saved :: calls.map Call.conf, Holds print files .config conf := by
  induction calls with
  | nil =>
      obtain ⟨later, listed, -⟩ := again
      cases listed
  | cons call calls ih =>
      by_cases saves : call.Saves
      · obtain ⟨conf, listed, held⟩ := (consistent.during 1).held
        have known : conf ∈ saved :: (call :: calls).map Call.conf := by
          simp only [List.mem_cons, List.not_mem_nil, or_false] at listed
          simp only [List.map_cons, List.mem_cons]
          exact listed.imp_right .inl
        refine ⟨conf, known, ?_⟩
        rcases held with config | backup
        · rw [Holds, config_before_main saves (by omega)] at config
          exact config
        · rw [Holds, backup_opened saves] at backup
          exact absurd (Option.some.inj backup).symm (parses conf known).nonempty
      · have later : ∃ later ∈ calls, later.Saves := by
          obtain ⟨later, listed, laterSaves⟩ := again
          rcases List.mem_cons.mp listed with rfl | deeper
          · exact absurd laterSaves saves
          · exact ⟨later, deeper, laterSaves⟩
        have rest := consistent.2.2
        rw [applySteps_of_not_saves saves, savedAfter_of_not_saves saves] at rest
        have weaken : ∀ conf ∈ saved :: calls.map Call.conf,
            conf ∈ saved :: (call :: calls).map Call.conf := by
          intro conf listed
          simp only [List.map_cons, List.mem_cons] at listed ⊢
          exact listed.imp_right .inr
        obtain ⟨conf, listed, held⟩ := ih
          (fun conf listed => parses conf (weaken conf listed)) rest later
        exact ⟨conf, weaken conf listed, held⟩

theorem CrashConsistent.writesWhole {files : Files} {saved : Conf}
    {calls : List Call}
    (parses : ∀ conf ∈ saved :: calls.map Call.conf,
      ParsesPrinted print parse conf)
    (consistent : CrashConsistent print parse files saved calls) :
    WritesWhole print calls := by
  induction calls generalizing files saved with
  | nil => trivial
  | cons call calls ih =>
      have callParses := parses call.conf (by simp)
      by_cases saves : call.Saves
      · have rest := consistent.2.2
        rw [savedAfter_of_saves saves] at rest
        have restParses : ∀ conf ∈ call.conf :: calls.map Call.conf,
            ParsesPrinted print parse conf := by
          intro conf listed
          apply parses
          exact List.mem_cons_of_mem _ listed
        refine ⟨fun _ => ⟨?_, fun again => ?_⟩, ih restParses rest⟩
        · -- The main file has just been opened.
          obtain ⟨conf, listed, held⟩ := (consistent.during 3).held
          have known : conf ∈ saved :: (call :: calls).map Call.conf := by
            simp only [List.mem_cons, List.not_mem_nil, or_false] at listed
            simp only [List.map_cons, List.mem_cons]
            exact listed.imp_right .inl
          rcases held with config | backup
          · rw [Holds, config_opened saves] at config
            exact absurd (Option.some.inj config).symm
              (parses conf known).nonempty
          · rw [Holds, backup_from_main saves (by omega)] at backup
            exact callParses.whole_of_take_eq (parses conf known)
              (Option.some.inj backup)
        · obtain ⟨conf, listed, held⟩ := rest.holds_config restParses again
          rw [Holds, ← filesDuring_all saves,
            config_written saves (Nat.le_refl _)] at held
          exact callParses.whole_of_take_eq (restParses conf listed)
            (Option.some.inj held)
      · have rest := consistent.2.2
        rw [savedAfter_of_not_saves saves] at rest
        refine ⟨fun impossible => absurd impossible saves, ih ?_ rest⟩
        intro conf listed
        apply parses
        simp only [List.map_cons, List.mem_cons] at listed ⊢
        exact listed.imp_right .inr

/-- A device that is ready, with a configuration of zeros. -/
def devZero : DevInfo where
  appSetInfo := confZero
  hwVersion := 0
  stopFlag := 0
  lastMotorPosUpdateTime := 0
  isParamReady := true

/-- Two files that hold the configuration of zeros. -/
def filesZero : Files := fun file =>
  match file with
  | .config | .backup => some (appsetConfToJson (printNode 0) confZero)
  | _ => none

theorem parsesPrinted_confZero :
    ParsesPrinted (printNode 0) (parseOnly (appsetConfTree confZero))
      confZero where
  nonempty := printNode_object_ne_nil 0 (kind_appsetConfTree confZero)
  whole := parseOnly_printNode _
  short _ _ differs := if_neg differs

theorem parsesPrinted_calls (backupStored mainStored : Nat) :
    ∀ conf ∈ confZero ::
        [(⟨devZero, backupStored, mainStored⟩ : Call)].map Call.conf,
      ParsesPrinted (printNode 0) (parseOnly (appsetConfTree confZero))
        conf := by
  intro conf listed
  have isZero : conf = confZero := by
    rcases List.mem_cons.mp listed with rfl | again
    · rfl
    · exact List.mem_singleton.mp again
  rw [isZero]
  exact parsesPrinted_confZero

theorem holds_filesZero_config : Holds (printNode 0) filesZero .config confZero :=
  rfl

theorem holds_filesZero_backup : Holds (printNode 0) filesZero .backup confZero :=
  rfl

end DevParam

end MbedtlsKcp
