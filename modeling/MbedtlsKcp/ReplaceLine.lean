import Mathlib.Data.List.Infix
import MbedtlsKcp.LineStreams
import MbedtlsKcp.Mp4List

/-!
# Replacing lines of a file

`CommToolbox_replaceLineWithString` reads a file in pieces of less than 1024
bytes, writes what becomes of each to a temporary file and lets that take the
place of the first when a piece has been replaced.  Paths lead to directory
entries, and entries to files; there are no symbolic links, and every call on
the files succeeds that finds its entry.  The messages are left out.
-/

namespace MbedtlsKcp

namespace ReplaceLine

open CStrings LineStreams

/-! ## Files -/

/-- Several paths may lead to one entry, and several entries to one file. -/
structure Disk where
  entry : String → Nat
  file : Nat → Option Nat
  contents : Nat → List UInt8
  next : Nat
  bounded : ∀ slot file', file slot = some file' → file' < next

namespace Disk

/-- The file that a path leads to. -/
def fileAt (disk : Disk) (path : String) : Option Nat :=
  disk.file (disk.entry path)

/-- What is read from a path. -/
def read (disk : Disk) (path : String) : Option (List UInt8) :=
  (disk.fileAt path).map disk.contents

def store (disk : Disk) (file : Nat) (bytes : List UInt8) : Disk :=
  { disk with contents := Function.update disk.contents file bytes }

/-- `fopen(path, "w")`: the empty file at the path, which is a new one when
there is none. -/
def openWrite (disk : Disk) (path : String) : Nat × Disk :=
  match disk.fileAt path with
  | some file => (file, disk.store file [])
  | none =>
      (disk.next,
        { entry := disk.entry
          file := Function.update disk.file (disk.entry path) (some disk.next)
          contents := Function.update disk.contents disk.next []
          next := disk.next + 1
          bounded := by
            intro slot file' leads
            by_cases same : slot = disk.entry path
            · rw [same, Function.update_self] at leads
              obtain rfl := Option.some.inj leads
              exact Nat.lt_succ_self _
            · rw [Function.update_of_ne same] at leads
              exact Nat.lt_succ_of_lt (disk.bounded slot file' leads) })

/-- `remove`. -/
def remove (disk : Disk) (path : String) : Disk :=
  { disk with
    file := Function.update disk.file (disk.entry path) none
    bounded := by
      intro slot file' leads
      by_cases same : slot = disk.entry path
      · rw [same, Function.update_self] at leads
        cases leads
      · rw [Function.update_of_ne same] at leads
        exact disk.bounded slot file' leads }

/-- `rename`; entries of one file are left as they are. -/
def rename (disk : Disk) (old new : String) : Disk :=
  if disk.fileAt old = none ∨ disk.fileAt old = disk.fileAt new then disk
  else
    { disk with
      file := Function.update
        (Function.update disk.file (disk.entry old) none)
        (disk.entry new) (disk.fileAt old)
      bounded := by
        intro slot file' leads
        by_cases same : slot = disk.entry new
        · rw [same, Function.update_self] at leads
          exact disk.bounded _ file' leads
        · rw [Function.update_of_ne same] at leads
          by_cases moved : slot = disk.entry old
          · rw [moved, Function.update_self] at leads
            cases leads
          · rw [Function.update_of_ne moved] at leads
            exact disk.bounded slot file' leads }

end Disk

/-! ## The pieces of the file -/

def maxLineLength : Nat := 1024

/-- What the calls of `fgets(buffer, sizeof(buffer), fp)` store until the end
of the file. -/
def pieces (stream : List UInt8) : List (List UInt8) :=
  match stream with
  | [] => []
  | byte :: rest =>
      (Mp4List.fgets (maxLineLength - 1) (byte :: rest)).1 ::
        pieces (Mp4List.fgets (maxLineLength - 1) (byte :: rest)).2
termination_by stream.length
decreasing_by
  rw [maxLineLength, Mp4List.fgets]
  split
  · exact Nat.lt_succ_self _
  · exact Nat.lt_succ_of_le (Mp4List.length_fgets_le _ _)

/-- The strings that are looked for. -/
structure Patterns where
  searchString : List UInt8
  ignorContent : Option (List UInt8)
  ckCont : List UInt8

/-- Whether `strstr` finds a string. -/
def strstr (text string : List UInt8) : Bool :=
  decide (string <:+: text)

/-- What becomes of a piece. -/
inductive Fate
  | replaced
  | dropped
  | kept
  deriving DecidableEq

def fate (patterns : Patterns) (buffer : List UInt8) : Fate :=
  if strstr buffer patterns.searchString ∧
      ¬ strstr buffer patterns.ckCont then
    match patterns.ignorContent with
    | some ignorContent =>
        if ¬ strstr buffer ignorContent then .replaced else .dropped
    | none => .replaced
  else
    .kept

/-- The temporary file and the flags. -/
structure Progress where
  temp : List UInt8 := []
  found : Bool := false
  sameSsid : Bool := false

/-- One round of the loop. -/
def readPiece (patterns : Patterns) (newContent : List UInt8)
    (progress : Progress) (piece : List UInt8) : Progress :=
  let buffer := cString (piece ++ [0])
  match fate patterns buffer with
  | .replaced =>
      { progress with
        temp := progress.temp ++ (newContent ++ [10]), found := true }
  | .dropped => progress
  | .kept =>
      { progress with
        temp := progress.temp ++ buffer
        sameSsid := progress.sameSsid || strstr buffer patterns.ckCont }

def tempConf : String := "/parameter/wifi/temp.conf"

/-- `CommToolbox_replaceLineWithString`; `none` when there is no such file. -/
def replaceLineWithString (disk : Disk) (filename : String)
    (patterns : Patterns) (newContent : List UInt8) : Option Disk := do
  let fp ← disk.fileAt filename
  let (tempFp, disk) := disk.openWrite tempConf
  let progress := (pieces (disk.contents fp)).foldl
    (readPiece patterns newContent) {}
  let disk := disk.store tempFp progress.temp
  return if progress.found then
      (disk.remove filename).rename tempConf filename
    else if progress.sameSsid then
      disk.remove "temp.conf"
    else
      disk.remove "temp.conf"

/-! ## Lines -/

/-- A line is one to replace. -/
def Meets (patterns : Patterns) (line : List UInt8) : Prop :=
  patterns.searchString <:+: line ∧ ¬ patterns.ckCont <:+: line ∧
    ∀ ignorContent ∈ patterns.ignorContent, ¬ ignorContent <:+: line

instance (patterns : Patterns) (line : List UInt8) :
    Decidable (Meets patterns line) :=
  inferInstanceAs (Decidable (_ ∧ _ ∧ _))

/-- The file with new lines for those to replace. -/
def withReplaced (patterns : Patterns) (newContent content : List UInt8) :
    List UInt8 :=
  (lines 10 content).flatMap fun line =>
    if Meets patterns line then newContent ++ [10] else line

/-- For every new content the file is as it should be. -/
def ReplacesLines (disk : Disk) (filename : String) (patterns : Patterns)
    (content : List UInt8) : Prop :=
  ∀ newContent, 0 ∉ newContent →
    ∃ after, replaceLineWithString disk filename patterns newContent =
        some after ∧
      after.read filename = some (withReplaced patterns newContent content)

/-- No piece is replaced. -/
def NoneReplaced (patterns : Patterns) (content : List UInt8) : Prop :=
  ∀ piece ∈ pieces content, fate patterns piece ≠ .replaced

/-- The file is not its own temporary file, nor removed in its place; and
either nothing is to be replaced and nothing is, or the lines to replace are
pieces and the pieces of all other lines are kept. -/
structure Manageable (disk : Disk) (filename : String) (patterns : Patterns)
    (content : List UInt8) : Prop where
  apart : content = [] ∨ disk.fileAt tempConf ≠ disk.fileAt filename
  stays : NoneReplaced patterns content →
    disk.entry "temp.conf" ≠ disk.entry filename
  fits : (NoneReplaced patterns content ∧
      ∀ line ∈ lines 10 content, ¬ Meets patterns line) ∨
    ∀ line ∈ lines 10 content,
      if Meets patterns line then line.length < maxLineLength
      else ∀ piece ∈ pieces line, fate patterns piece = .kept

end ReplaceLine

end MbedtlsKcp
